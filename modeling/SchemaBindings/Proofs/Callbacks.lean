import SchemaBindings.Proofs.Parameters
import SchemaBindings.Proofs.Variables

/-!
# Trampolines and their callbacks

A trampoline is written apart from the type of the callback that it calls. It serves the callback if
it passes one variable for each argument, a pointer exactly if the type takes one, and if this
variable is declared once and assigned in the one branch for the argument. Variables are called
after the arguments, and pointers after them with an ending. Nothing compares these names with each
other or with those of the trampoline itself: it serves the callback exactly if they are apart.
-/

namespace SchemaBindings

open Code

/-- What the branch for the argument assigns: the variable, and the pointer if there is one. -/
def Argument.assigned (a : Argument) : List (Option Variable × String) :=
  (some a.target, a.decoded) ::
    if a.isNullable then [(some a.pointer, "&" ++ a.name)] else []

/-- The trampoline does for the callback what it has to do. -/
structure Code.Procedure.Serves (p : Procedure) (callback : String) (arguments : List Argument)
    (result : ResultValue) : Prop where
  /-- The callback is called once, with the user's data, the arguments in order, and the value. -/
  call : p.calls = [⟨some ⟨2, callback, "callback"⟩,
    (⟨1, "const void*", "userData"⟩ :: arguments.map Argument.sent).map some, result.sent⟩]
  /-- An argument has one variable of its name, and one pointer if it can be absent. -/
  declaration : ∀ a ∈ arguments, ∀ v ∈ a.own, p.outermost.filter (·.name = v.name) = [v]
  /-- One branch is for entries of the argument's name, and assigns just its variables. -/
  branch : ∀ a ∈ arguments,
    (p.branches "params").filter (·.label = a.name) = [⟨a.name, a.assigned⟩]

/-! ## Names that are apart -/

namespace Notification

variable {runtime : Runtime} {m : MethodPlace} {kind : NotificationKind}
  {arguments : List Argument} {result : ResultValue}

/-- Where the callback is called, the variables of the block hide others of these names. -/
def callingNames (result : ResultValue) : List String :=
  "callback" :: if result.type.shape = .string then ["jsonStrResponse"] else []

variable (arguments result) in
/-- The names of the variables for arguments are apart from each other and from the names that the
trampoline has in the outermost block, that it hides where the context is decoded, and that it hides
where the callback is called. -/
structure NamesApart : Prop where
  declared : (["userCB", "userData", "response", "jsonResponse", "var"] ++
    arguments.flatMap fun a ↦ a.own.map (·.name)).Nodup
  decoded : ∀ a ∈ arguments, a.name ∉ ["elements", "params"]
  sent : ∀ a ∈ arguments, a.sent.name ∉ callingNames result

theorem outermost_names : ((outermost runtime arguments result).map (·.name)).Perm
    (["userCB", "userData", "response", "jsonResponse", "var"] ++
      arguments.flatMap fun a ↦ a.own.map (·.name)) := by
  let names := arguments.flatMap fun a ↦ a.own.map (·.name)
  have hnames : (outermost runtime arguments result).map (·.name) =
      ["userCB", "userData", "response"] ++ (names ++ ["jsonResponse", "var"]) := by
    simp [outermost, parameters, List.map_flatMap, names]
  rw [hnames]
  exact (@List.perm_append_comm _ names ["jsonResponse", "var"]).append_left
    ["userCB", "userData", "response"]

/-- Names that are not hidden stand for variables of the outermost block. -/
theorem find_calling {scope : Scope} {name : String} (callback : String)
    (h : name ∉ callingNames result) :
    (calling callback result scope).find name = scope.find name := by
  refine Scope.find_append fun v hv ↦ ?_
  rintro rfl
  rw [List.mem_cons, List.mem_ite_nil_right, List.mem_singleton] at hv
  refine h ?_
  unfold callingNames
  obtain rfl | ⟨hshape, rfl⟩ := hv
  · exact .head _
  · rw [if_pos hshape]
    exact .tail _ (.head _)

theorem find_decoding {name : String} (h : name ∉ ["elements", "params"]) :
    (decoding runtime arguments result).find name =
      Scope.find name (outermost runtime arguments result).reverse := by
  have hinner : ∀ v ∈ (decoding runtime arguments result).take 2, v.name ≠ name := by
    rintro v hv rfl
    obtain rfl | hv := List.mem_cons.1 hv
    · exact h (.tail _ (.head _))
    · cases List.mem_singleton.1 hv
      exact h (.head _)
  exact Scope.find_append hinner

/-- Hidden names stand for variables of a block further inside. -/
theorem exists_hidden_of_calling {name : String} (callback : String) (scope : Scope)
    (h : name ∈ callingNames result) :
    ∃ v, (calling callback result scope).find name = some v ∧ v.depth = 2 := by
  unfold callingNames at h
  unfold calling
  obtain rfl | h := List.mem_cons.1 h
  · exact ⟨_, rfl, rfl⟩
  · rw [List.mem_ite_nil_right, List.mem_singleton] at h
    obtain ⟨hshape, rfl⟩ := h
    rw [if_pos hshape]
    exact ⟨_, rfl, rfl⟩

variable (runtime arguments result) in
theorem exists_hidden_of_decoding {name : String} (h : name ∈ ["elements", "params"]) :
    ∃ v, (decoding runtime arguments result).find name = some v ∧ 2 ≤ v.depth := by
  obtain rfl | h := List.mem_cons.1 h
  · exact ⟨_, rfl, Nat.le_refl 2⟩
  · cases List.mem_singleton.1 h
    exact ⟨_, rfl, Nat.le_add_right 2 2⟩

theorem userData_not_mem_callingNames : "userData" ∉ callingNames result := by
  unfold callingNames
  split <;> decide

theorem ptr_not_mem_decodingNames (name : String) : name ++ "Ptr" ∉ ["elements", "params"] := by
  have hend : (name ++ "Ptr").toList.getLast? = some 'r' := by simp
  have hother : ∀ hidden ∈ ["elements", "params"], hidden.toList.getLast? ≠ some 'r' := by decide
  exact fun h ↦ hother _ h hend

/-! ## Apart names make a trampoline serve -/

/-- Without a context there is nothing to be decoded, and the value is passed on alone. -/
theorem serves_nil :
    (procedure runtime m kind [] result).Serves (callbackName m kind) [] result := by
  let scope : Scope :=
    ⟨1, runtime.proxy result.type.wire ++ "*", "jsonResponse"⟩ :: parameters.reverse
  have hdepth : ∀ v ∈ scope, v.depth ≤ 1 := by
    rw [List.forall_mem_cons]
    exact ⟨Nat.le_refl 1, by decide⟩
  refine ⟨?_, nofun, nofun⟩
  change collect passing scope (handover (callbackName m kind) [] result) = _
  rw [collect_handover _ hdepth, List.map_cons, find_calling _ userData_not_mem_callingNames]
  rfl

theorem outermost_nodup (h : NamesApart arguments result) :
    ((outermost runtime arguments result).map (·.name)).Nodup :=
  outermost_names.nodup_iff.2 h.declared

theorem find_outermost (h : NamesApart arguments result) {v : Variable}
    (hv : v ∈ outermost runtime arguments result) :
    Scope.find v.name (outermost runtime arguments result).reverse = some v := by
  refine Scope.find_eq_some ?_ (List.mem_reverse.2 hv)
  rw [List.map_reverse, List.nodup_reverse]
  exact outermost_nodup h

theorem assigned_of_apart (h : NamesApart arguments result) {a : Argument} (ha : a ∈ arguments) :
    a.assignedIn (decoding runtime arguments result) = a.assigned := by
  have htarget : (decoding runtime arguments result).find a.name = some a.target := by
    rw [find_decoding (h.decoded a ha)]
    exact find_outermost h (mem_outermost ha (.head _))
  unfold Argument.assignedIn Argument.assigned
  rw [htarget]
  split
  case isTrue hnullable =>
    have hpointer : a.pointer ∈ a.own := by
      rw [Argument.own, if_pos hnullable]
      exact .tail _ (.head _)
    have hfound : (decoding runtime arguments result).find (a.name ++ "Ptr") = some a.pointer := by
      rw [find_decoding (ptr_not_mem_decodingNames _)]
      exact find_outermost h (mem_outermost ha hpointer)
    rw [hfound]
  case isFalse => rfl

/-- The name of an argument is the first of those of its variables. -/
theorem names_sublist (arguments : List Argument) :
    (arguments.map (·.name)).Sublist (arguments.flatMap fun a ↦ a.own.map (·.name)) := by
  induction arguments with
  | nil => exact .slnil
  | cons a rest ih =>
    have hname : a.name ∈ a.own.map (·.name) := List.mem_map_of_mem (.head _)
    exact (List.singleton_sublist.2 hname).append ih

theorem calls_of_apart (hempty : arguments ≠ []) (h : NamesApart arguments result) :
    (procedure runtime m kind arguments result).calls = [
      ⟨some ⟨2, callbackName m kind, "callback"⟩,
        (⟨1, "const void*", "userData"⟩ :: arguments.map Argument.sent).map some,
        result.sent⟩] := by
  let scope := calling (callbackName m kind) result (outermost runtime arguments result).reverse
  have huserData : scope.find "userData" = some ⟨1, "const void*", "userData"⟩ := by
    rw [find_calling _ userData_not_mem_callingNames]
    exact find_outermost h (.tail _ (.head _))
  have hsent : arguments.map (fun a ↦ scope.find a.sent.name) =
      arguments.map fun a ↦ some a.sent :=
    List.map_congr_left fun a ha ↦ by
      rw [find_calling _ (h.sent a ha)]
      exact find_outermost h (mem_outermost ha a.sent_mem)
  rw [calls_procedure hempty, List.map_cons, List.map_cons, huserData, List.map_map, List.map_map]
  exact congrArg (fun passed ↦ [Passing.mk _ (_ :: passed) _]) hsent

theorem serves_of_apart (h : NamesApart arguments result) :
    (procedure runtime m kind arguments result).Serves (callbackName m kind) arguments result := by
  by_cases hempty : arguments = []
  · rw [hempty]
    exact serves_nil
  refine ⟨calls_of_apart hempty h, fun a ha v hv ↦ ?_, fun a ha ↦ ?_⟩
  · rw [outermost_procedure hempty]
    exact Scope.filter_eq_singleton (outermost_nodup h) (mem_outermost ha hv)
  · let branch (a : Argument) : Branch :=
      ⟨a.name, a.assignedIn (decoding runtime arguments result)⟩
    have hlabels : ((arguments.map branch).map Branch.label).Nodup := by
      rw [List.map_map]
      exact (names_sublist arguments).nodup (List.nodup_append.1 h.declared).2.1
    have hbranch : branch a ∈ arguments.map branch := List.mem_map_of_mem ha
    rw [branches_procedure hempty, ← assigned_of_apart h ha]
    exact Scope.filter_eq_singleton hlabels hbranch

/-! ## A trampoline that serves has apart names -/

section

variable (hempty : arguments ≠ [])
  (h : (procedure runtime m kind arguments result).Serves (callbackName m kind) arguments result)

include hempty h

theorem count_outermost {name : String}
    (hname : name ∈ arguments.flatMap fun a ↦ a.own.map (·.name)) :
    ((outermost runtime arguments result).map (·.name)).count name = 1 := by
  obtain ⟨a, ha, hname⟩ := List.mem_flatMap.1 hname
  obtain ⟨v, hv, rfl⟩ := List.mem_map.1 hname
  have hone := h.declaration a ha v hv
  rw [outermost_procedure hempty] at hone
  have hcount : ((outermost runtime arguments result).map (·.name)).count v.name =
      ((outermost runtime arguments result).filter (·.name = v.name)).length := by
    rw [List.count, List.countP_map, List.countP_eq_length_filter]
    rfl
  rw [hcount, hone, List.length_singleton]

theorem declared_of_serves :
    (["userCB", "userData", "response", "jsonResponse", "var"] ++
      arguments.flatMap fun a ↦ a.own.map (·.name)).Nodup := by
  let names := arguments.flatMap fun a ↦ a.own.map (·.name)
  let reserved := ["userCB", "userData", "response", "jsonResponse", "var"]
  have hcount : ∀ name ∈ names, reserved.count name = 0 ∧ names.count name = 1 := by
    intro name hname
    have hone : (reserved ++ names).count name = 1 := by
      rw [← outermost_names.count_eq name]
      exact count_outermost hempty h hname
    have hpos : 0 < names.count name := List.count_pos_iff.2 hname
    rw [List.count_append] at hone
    omega
  have hnames : names.Nodup :=
    List.nodup_iff_count_eq_one.2 fun name hname ↦ (hcount name hname).2
  have hreserved : ∀ name ∈ reserved, ∀ name' ∈ names, name ≠ name' := by
    rintro name hreserved _ hname rfl
    exact List.count_eq_zero.1 (hcount name hname).1 hreserved
  exact List.nodup_append.2 ⟨by decide, hnames, hreserved⟩

theorem decoded_of_serves {a : Argument} (ha : a ∈ arguments) :
    a.name ∉ ["elements", "params"] := by
  intro hname
  obtain ⟨v, hv, hdepth⟩ := exists_hidden_of_decoding runtime arguments result hname
  let branch (a : Argument) : Branch := ⟨a.name, a.assignedIn (decoding runtime arguments result)⟩
  have hmem : branch a ∈ (arguments.map branch).filter (·.label = a.name) :=
    List.mem_filter.2 ⟨List.mem_map_of_mem ha, decide_eq_true rfl⟩
  have hbranch := h.branch a ha
  rw [branches_procedure hempty] at hbranch
  rw [hbranch, List.mem_singleton] at hmem
  have htarget := congrArg (fun b ↦ b.assigned.head?) hmem
  change some (Scope.find _ _, _) = _ at htarget
  rw [hv] at htarget
  cases htarget
  exact Nat.not_lt.2 hdepth (Nat.lt_succ_self 1)

theorem sent_of_serves {a : Argument} (ha : a ∈ arguments) :
    a.sent.name ∉ callingNames result := by
  intro hname
  let scope := (outermost runtime arguments result).reverse
  obtain ⟨v, hv, hdepth⟩ := exists_hidden_of_calling (callbackName m kind) scope hname
  have hcall := h.call
  rw [calls_procedure hempty, List.singleton_inj, Passing.mk.injEq] at hcall
  obtain ⟨-, hpassed, -⟩ := hcall
  rw [List.map_cons, List.map_cons, List.map_map, List.map_map] at hpassed
  have hfound : some v = some a.sent :=
    hv.symm.trans (List.map_inj_left.1 (List.cons.inj hpassed).2 a ha)
  cases hfound
  have hone : a.sent.depth = 1 := a.depth_of_mem_own a.sent_mem
  omega

end

theorem apart_of_serves (h : (procedure runtime m kind arguments result).Serves
    (callbackName m kind) arguments result) : NamesApart arguments result := by
  by_cases hempty : arguments = []
  · rw [hempty]
    exact ⟨by decide, nofun, nofun⟩
  exact ⟨declared_of_serves hempty h, fun _ ↦ decoded_of_serves hempty h,
    fun _ ↦ sent_of_serves hempty h⟩

/-- A trampoline serves its callback exactly if the names of its variables are apart. -/
theorem serves_iff_apart :
    (procedure runtime m kind arguments result).Serves (callbackName m kind) arguments result ↔
      NamesApart arguments result :=
  ⟨apart_of_serves, serves_of_apart⟩

/-- Names are apart if no parameter is called like another one, like a pointer to it, or like
anything else in the trampoline. -/
theorem apart_of_names {names : List String}
    (hnames : (arguments.map (·.name)).Sublist names)
    (h : (["userCB", "userData", "response", "jsonResponse", "var"] ++
      (["elements", "params", "callback", "jsonStrResponse"] ++
        names.flatMap fun name ↦ [name, name ++ "Ptr"])).Nodup) :
    NamesApart arguments result := by
  let all := names.flatMap fun name ↦ [name, name ++ "Ptr"]
  have hown : (arguments.flatMap fun a ↦ a.own.map (·.name)).Sublist all := by
    have hone : ∀ a ∈ arguments, (a.own.map (·.name)).Sublist [a.name, a.name ++ "Ptr"] := by
      intro a _
      unfold Argument.own
      split
      · exact .refl _
      · exact .cons_cons _ (List.nil_sublist _)
    have hall : (arguments.flatMap fun a ↦ [a.name, a.name ++ "Ptr"]).Sublist all := by
      have hsublist := hnames.flatMap fun name ↦ [name, name ++ "Ptr"]
      rwa [List.flatMap_map] at hsublist
    exact (List.Sublist.flatMap_right arguments hone).trans hall
  have happart : ∀ a ∈ arguments, ∀ v ∈ a.own,
      v.name ∉ ["elements", "params", "callback", "jsonStrResponse"] := fun a ha v hv hhidden ↦
    (List.nodup_append.1 (List.nodup_append.1 h).2.1).2.2 v.name hhidden v.name
      (hown.subset (List.mem_flatMap.2 ⟨a, ha, List.mem_map_of_mem hv⟩)) rfl
  refine ⟨?_, fun a ha hname ↦ ?_, fun a ha hname ↦ ?_⟩
  · exact ((hown.trans (List.sublist_append_right _ _)).append_left _).nodup h
  · have hhidden : a.name ∈ ["elements", "params", "callback", "jsonStrResponse"] :=
      List.mem_append_left ["callback", "jsonStrResponse"] hname
    exact happart a ha a.target (.head _) hhidden
  · have hcalling : callingNames result ⊆ ["callback", "jsonStrResponse"] := by
      unfold callingNames
      split <;> simp
    have hhidden : a.sent.name ∈ ["elements", "params", "callback", "jsonStrResponse"] :=
      List.mem_append_right ["elements", "params"] (hcalling hname)
    exact happart a ha a.sent a.sent_mem hhidden

end Notification

/-! ## Texts in outputs -/

namespace Output

variable {output result : Output} {place place' : Section} {symbol symbol' path text : String}
  {pieces : List Piece} {piece : Piece}

/-- The section has code of this text under the symbol. -/
def Writes (place : Section) (symbol text : String) (output : Output) : Prop :=
  (output.find? place symbol).map (·.text) = some text

theorem renderPieces_singleton (piece : Piece) : renderPieces [piece] = piece.render := by
  simp [renderPieces, String.join]

/-- Code that is inserted without a collision is what the output then has under the symbol. -/
theorem writes_of_insert (h : (output.insert place symbol [piece] path).toExcept = .ok result) :
    result.Writes place symbol piece.render := by
  unfold Writes
  rw [(insert_eq_ok h).2.2, if_pos ⟨rfl, rfl⟩, ← renderPieces_singleton]
  cases hexisting : output.find? place symbol with
  | none => rfl
  | some existing =>
    obtain ⟨hfailure, -⟩ := insert_eq_set h
    exact congrArg some (Fragments.text_eq_of_insert hfailure hexisting)

theorem Writes.insert (hwrites : output.Writes place symbol text)
    (h : (output.insert place' symbol' pieces path).toExcept = .ok result) :
    result.Writes place symbol text := by
  obtain ⟨found, hfound, rfl⟩ := Option.map_eq_some_iff.1 hwrites
  unfold Writes
  rw [(insert_eq_ok h).2.2, hfound]
  rfl

end Output

/-! ## Runs -/

namespace Emission

variable {m : MethodPlace} {kind : NotificationKind}

theorem brings_texts {runtime : Runtime} {arguments : List Argument} {result : ResultValue} :
    Brings (fun _ ↦ True)
      (fun output ↦
        output.Writes .prototypes (Notification.callbackName m kind)
          (Notification.callbackText m kind arguments result) ∧
        output.Writes .implementations (Notification.trampolineName m)
          (Notification.procedure runtime m kind arguments result).text)
      (Notification.emit runtime m kind arguments result) := by
  rw [← Notification.callback_text, ← Notification.render_eq]
  let c := Notification.callback m kind arguments result
  let t := Notification.trampoline runtime m kind arguments result
  have hcallback : Brings (fun _ ↦ True) (Output.Writes .prototypes c.name c.render)
      (insert .prototypes c.name [.callback c] m.path) :=
    brings_of_insert fun _ _ hinsert _ ↦ Output.writes_of_insert hinsert
  have htrampoline : Brings (Output.Writes .prototypes c.name c.render)
      (fun output ↦ output.Writes .prototypes c.name c.render ∧
        output.Writes .implementations t.name t.render)
      (insert .implementations t.name [.trampoline t] m.path) :=
    brings_of_insert fun _ _ hinsert hwrites ↦
      ⟨hwrites.insert hinsert, Output.writes_of_insert hinsert⟩
  exact hcallback.bind fun _ ↦
    (brings_of_insert fun _ _ hinsert hwrites ↦ hwrites.insert hinsert).bind fun _ ↦
    htrampoline.bind fun _ ↦
    brings_of_insert fun _ _ hinsert hwrites ↦ ⟨hwrites.1.insert hinsert, hwrites.2.insert hinsert⟩

end Emission

namespace MethodPlace

open Emission

variable {m : MethodPlace} {mappers : Mappers} {runtime : Runtime} {kind : NotificationKind}
  {output : Output} {session session' : Session} {arguments : List Argument}
  {result : ResultValue}

/-- The notification that the method has callbacks for. -/
def notification? (m : MethodPlace) : Option NotificationKind :=
  match MethodClass.of m.method with
  | .property _ true => some .propertyChanged
  | .event => some .event
  | _ => none

/-- What a notification has of its method: an argument for each parameter that has a type, in their
order, and a value that is called like the result. -/
structure Notifies (mappers : Mappers) (session : Session) (m : MethodPlace)
    (arguments : List Argument) (result : ResultValue) : Prop where
  exists_mapped : ∃ output output' between between',
    mapParams mappers m 0 m.method.params {} session = some (.ok (arguments, output), between) ∧
      requireResult mappers m output between = some (.ok (result, output'), between')
  sublist : (arguments.map fun a ↦ (a.name, a.required)).Sublist
    (m.method.params.map fun param ↦ (param.name, param.required))
  result_name : m.method.result.map (·.name) = some result.name

theorem notifies_of_mapped {output' : Output} {between between' : Session}
    (harguments : mapParams mappers m 0 m.method.params {} session =
      some (.ok (arguments, output), between))
    (hresult : requireResult mappers m output between = some (.ok (result, output'), between')) :
    Notifies mappers session m arguments result :=
  ⟨⟨output, output', between, between', harguments, hresult⟩, mapParams_sublist harguments,
    requireResult_eq hresult⟩

/-- The notification of a method is the last that comes into its output. -/
theorem exists_notified (hkind : m.notification? = some kind)
    (h : m.body mappers runtime {} session = some (.ok ((), output), session')) :
    ∃ arguments result before between, Notifies mappers session m arguments result ∧
      Notification.emit runtime m kind arguments result before between =
        some (.ok ((), output), session') := by
  unfold notification? at hkind
  unfold body at h
  cases hclass : MethodClass.of m.method with
  | property isSettable notifies =>
    rw [hclass] at h hkind
    obtain ⟨arguments, _, _, harguments, h⟩ := Emission.bind_eq_ok.1 h
    obtain ⟨result, _, _, hresult, h⟩ := Emission.bind_eq_ok.1 h
    obtain ⟨_, _, _, -, h⟩ := Emission.bind_eq_ok.1 h
    have hnotifies := notifies_of_mapped harguments hresult
    cases notifies with
    | false => cases hkind
    | true =>
      cases hkind
      cases isSettable with
      | true =>
        obtain ⟨_, before, between, -, h⟩ := Emission.bind_eq_ok.1 h
        exact ⟨arguments, result, before, between, hnotifies, h⟩
      | false => exact ⟨arguments, result, _, _, hnotifies, h⟩
  | event =>
    rw [hclass] at h hkind
    cases hkind
    obtain ⟨arguments, _, _, harguments, h⟩ := Emission.bind_eq_ok.1 h
    obtain ⟨result, before, between, hresult, h⟩ := Emission.bind_eq_ok.1 h
    exact ⟨arguments, result, before, between, notifies_of_mapped harguments hresult, h⟩
  | _ =>
    rw [hclass] at hkind
    cases hkind

/-- A method with a notification is left out with a notice, or has a callback and a trampoline with
these texts, for the same arguments. The trampoline serves the callback exactly if the names of its
variables are apart. -/
theorem trampoline_serves_iff (hkind : m.notification? = some kind)
    (h : m.emit mappers runtime session = some (.ok output, session')) :
    (∃ failure : Failure, failure.isRecoverable = true ∧
      output = .ofDiagnostic (.ofFailure failure)) ∨
    ∃ arguments result, Notifies mappers session m arguments result ∧
      output.Writes .prototypes (Notification.callbackName m kind)
        (Notification.callbackText m kind arguments result) ∧
      output.Writes .implementations (Notification.trampolineName m)
        (Notification.procedure runtime m kind arguments result).text ∧
      ((Notification.procedure runtime m kind arguments result).Serves
          (Notification.callbackName m kind) arguments result ↔
        Notification.NamesApart arguments result) := by
  obtain hbody | ⟨failure, _, hrecoverable, -, houtput⟩ := emit_eq_ok h
  · obtain ⟨arguments, result, before, between, hnotifies, hemit⟩ := exists_notified hkind hbody
    obtain ⟨hcallback, htrampoline⟩ := brings_texts.holds trivial hemit
    exact .inr ⟨arguments, result, hnotifies, hcallback, htrampoline,
      Notification.serves_iff_apart⟩
  · exact .inl ⟨failure, hrecoverable, houtput⟩

end MethodPlace

/-! ## A number and a text that can be absent -/

namespace FanSpeed

/-- A property with a number, which travels by pointer, and a text of this name. -/
def fan (text : String) : Document where
  uri := "Fan"
  title := "Fan"
  family := .api
  definitionsRoot := "#/components/schemas"
  definitions := []
  methods := [⟨"speed", none, [
    ⟨"level", false, none, .ofKind (.primitive .integer none)⟩,
    ⟨text, false, none, .ofKind (.primitive .string none)⟩],
    some ⟨"speed", .ofKind (.primitive .integer none)⟩, ["property"]⟩]
  content := .object []

def speed (text : String) : MethodPlace := ⟨fan text, 0, (fan text).methods.head (by simp [fan])⟩

def emitted (text : String) : Option (Except Failure Output × Session) :=
  (speed text).emit (.ofBudget ⟨⟨[fan text]⟩, {}⟩ 4) {} {}

def arguments (text : String) : List Argument := [
  ⟨"level", false, .ofPrimitive {} .integer none "level"⟩,
  ⟨text, false, .ofPrimitive {} .string none text⟩]

def result : ResultValue := ⟨"speed", .ofPrimitive {} .integer none "speed", false⟩

def procedure (text : String) : Procedure :=
  Notification.procedure {} (speed text) .propertyChanged (arguments text) result

def trampoline (text : String) : Trampoline :=
  Notification.trampoline {} (speed text) .propertyChanged (arguments text) result

def roomCallback : String := "typedef void (*OnFanSpeedChanged)(const void* userData, " ++
  "int32_t* level, FireboltTypes_StringHandle room, int32_t speed);\n"

theorem run_levelPtr : (emitted "levelPtr").any (fun run ↦ run.1.toOption.any fun output ↦
    (output.find? .implementations "FanSpeedInnerCallback").any (·.pieces ==
      [.trampoline (trampoline "levelPtr")])) = true := by
  decide +kernel

theorem run_room : (emitted "room").any (fun run ↦ run.1.toOption.any fun output ↦
    (output.find? .prototypes "OnFanSpeedChanged").map (·.text) == some roomCallback) = true := by
  decide +kernel

/-- The pointer to `level` and the variable of a parameter `levelPtr` have one name. -/
theorem levelPtr_is_declared_twice : ∃ output session,
    (speed "levelPtr").emit (.ofBudget ⟨⟨[fan "levelPtr"]⟩, {}⟩ 4) {} {} =
      some (.ok output, session) ∧
    ((speed "levelPtr").method.params.map (·.name)).Nodup ∧
    output.Writes .implementations "FanSpeedInnerCallback" (procedure "levelPtr").text ∧
    (procedure "levelPtr").outermost.filter (·.name = "levelPtr") =
      [⟨1, "int32_t*", "levelPtr"⟩, ⟨1, "FireboltTypes_StringHandle", "levelPtr"⟩] ∧
    ¬(procedure "levelPtr").Serves "OnFanSpeedChanged" (arguments "levelPtr") result := by
  obtain ⟨output, session, hrun, hcheck⟩ := Mapping.exists_ok_of_any run_levelPtr
  obtain ⟨code, hcode, hpieces⟩ := (Option.any_eq_true _ _).1 hcheck
  have htwice : (procedure "levelPtr").outermost.filter (·.name = "levelPtr") =
      [⟨1, "int32_t*", "levelPtr"⟩, ⟨1, "FireboltTypes_StringHandle", "levelPtr"⟩] := by
    decide +kernel
  refine ⟨output, session, hrun, by decide, ?_, htwice, fun hserves ↦ ?_⟩
  · have htext : code.text = (trampoline "levelPtr").render := by
      rw [code.text_eq, beq_iff_eq.1 hpieces, Output.renderPieces_singleton]
      rfl
    unfold Output.Writes
    rw [hcode, Option.map_some, htext, trampoline, Notification.render_eq]
    rfl
  · let level : Argument := ⟨"level", false, .ofPrimitive {} .integer none "level"⟩
    have hone := hserves.declaration level (.head _) level.pointer (.tail _ (.head _))
    have hname : level.pointer.name = "levelPtr" := by decide
    rw [hname, htwice] at hone
    cases hone

/-- A parameter `room` is apart from the number and its pointer. -/
theorem room_is_served : ∃ output session,
    (speed "room").emit (.ofBudget ⟨⟨[fan "room"]⟩, {}⟩ 4) {} {} = some (.ok output, session) ∧
    output.Writes .prototypes "OnFanSpeedChanged" roomCallback ∧
    ∃ arguments result,
      MethodPlace.Notifies (.ofBudget ⟨⟨[fan "room"]⟩, {}⟩ 4) {} (speed "room") arguments result ∧
      output.Writes .implementations "FanSpeedInnerCallback"
        (Notification.procedure {} (speed "room") .propertyChanged arguments result).text ∧
      (Notification.procedure {} (speed "room") .propertyChanged arguments result).Serves
        "OnFanSpeedChanged" arguments result := by
  obtain ⟨output, session, hrun, hcheck⟩ := Mapping.exists_ok_of_any run_room
  have hcallback : output.Writes .prototypes "OnFanSpeedChanged" roomCallback :=
    beq_iff_eq.1 hcheck
  refine ⟨output, session, hrun, hcallback, ?_⟩
  have hkind : (speed "room").notification? = some .propertyChanged := by decide
  have hcallbackName : Notification.callbackName (speed "room") .propertyChanged =
      "OnFanSpeedChanged" := by
    decide +kernel
  have htrampolineName : Notification.trampolineName (speed "room") =
      "FanSpeedInnerCallback" := by
    decide +kernel
  obtain ⟨failure, -, rfl⟩ | ⟨arguments, result, hnotifies, -, htrampoline, hiff⟩ :=
    MethodPlace.trampoline_serves_iff hkind hrun
  · cases hcallback
  · rw [hcallbackName] at hiff
    rw [htrampolineName] at htrampoline
    have hnames : (arguments.map (·.name)).Sublist ["level", "room"] := by
      have hsublist := hnotifies.sublist.map Prod.fst
      rwa [List.map_map] at hsublist
    exact ⟨arguments, result, hnotifies, htrampoline,
      hiff.2 (Notification.apart_of_names hnames (by decide))⟩

end FanSpeed

end SchemaBindings
