import SchemaBindings.Proofs.Trampolines

/-!
# Variables of trampolines

What a trampoline declares in its outermost block, which variables it passes to the callback, and
which it assigns in the branches on the context, for any names of the arguments. The names stand
for what is in scope at each place: further inside, variables of the trampoline itself come first.
-/

namespace SchemaBindings

open Code

/-! ## Branches for arguments -/

namespace Argument

variable {runtime : Runtime} {a : Argument} {scope : Scope}

theorem sent_mem (a : Argument) : a.sent ∈ a.own := by
  unfold sent own
  split
  · exact .tail _ (.head _)
  · exact .head _

theorem depth_of_mem_own (a : Argument) {v : Variable} (h : v ∈ a.own) : v.depth = 1 := by
  rw [own, List.mem_cons, List.mem_ite_nil_right, List.mem_singleton] at h
  obtain rfl | ⟨-, rfl⟩ := h <;> rfl

/-- Nothing that is done for an argument opens a branch or calls. -/
theorem isPlain_of_mem : ∀ act ∈ a.preparation runtime ++ a.settings, act.isPlain = true := by
  unfold preparation settings
  cases a.type.shape <;> cases a.isNullable <;> simp [Act.isPlain]

/-- Variables that are declared on the way have endings of their own. -/
theorem preparation_names :
    ∀ v ∈ (level 6 (a.preparation runtime)).filterMap Statement.declared,
      v.name ≠ a.name ∧ v.name ≠ a.name ++ "Ptr" := by
  unfold preparation
  cases a.type.shape <;> simp [Statement.declared]

/-- What the branch for the argument assigns in this scope, whatever its names stand for. -/
def assignedIn (scope : Scope) (a : Argument) : List (Option Variable × String) :=
  (scope.find a.name, a.decoded) ::
    if a.isNullable then [(scope.find (a.name ++ "Ptr"), "&" ++ a.name)] else []

theorem collect_assignment (hscope : ∀ v ∈ scope, v.depth ≤ 6) :
    collect assignment scope (level 6 (a.preparation runtime ++ a.settings)) =
      a.assignedIn scope := by
  have hpreparation : collect assignment scope (level 6 (a.preparation runtime)) = [] := by
    unfold preparation
    cases a.type.shape <;> rfl
  let inside := scope.behind (level 6 (a.preparation runtime))
  have hinside : inside = ((level 6 (a.preparation runtime)).filterMap
      Statement.declared).reverse ++ scope := Scope.behind_level _ hscope
  have hname : inside.find a.name = scope.find a.name := by
    rw [hinside]
    exact Scope.find_append fun v hv ↦ (preparation_names v (List.mem_reverse.1 hv)).1
  have hpointer : inside.find (a.name ++ "Ptr") = scope.find (a.name ++ "Ptr") := by
    rw [hinside]
    exact Scope.find_append fun v hv ↦ (preparation_names v (List.mem_reverse.1 hv)).2
  have hdepth : inside.upTo 6 = inside := by
    refine Scope.upTo_eq_self fun v hv ↦ ?_
    rw [hinside, List.mem_append, List.mem_reverse, List.mem_filterMap] at hv
    obtain ⟨s, hs, hv⟩ | hv := hv
    · have hdepth : v.depth = s.depth := Scope.depth_of_mem_declared (Option.mem_toList.2 hv)
      exact Nat.le_of_eq (hdepth.trans (Scope.depth_of_mem_level hs))
    · exact hscope v hv
  calc collect assignment scope (level 6 (a.preparation runtime ++ a.settings))
    _ = collect assignment inside (level 6 a.settings) := by
      rw [level_append, collect_append, hpreparation, List.nil_append]
    _ = a.assignedIn inside := by
      unfold settings assignedIn
      cases a.isNullable <;>
        simp [collect, assignment, hdepth, Scope.after, Statement.declared]
    _ = a.assignedIn scope := by rw [assignedIn, hname, hpointer, assignedIn]

end Argument

/-! ## Scopes of a trampoline -/

namespace Notification

variable (runtime : Runtime) (m : MethodPlace) (kind : NotificationKind)
  (arguments : List Argument) (result : ResultValue)

/-- The variables of the outermost block, if there is a context to be decoded. -/
def outermost : List Variable :=
  parameters ++ arguments.flatMap Argument.own ++ [
    ⟨1, runtime.proxy result.type.wire ++ "*", "jsonResponse"⟩,
    ⟨1, runtime.proxy runtime.wireMap ++ "&", "var"⟩]

/-- The variables in scope where the context is decoded, the innermost first. -/
def decoding : Scope :=
  ⟨4, runtime.wireMap ++ "::Iterator", "params"⟩ ::
    ⟨2, runtime.wireMap ++ "::Iterator", "elements"⟩ :: (outermost runtime arguments result).reverse

/-- The variables in scope where the callback is called, the innermost first. -/
def calling (callback : String) (result : ResultValue) (scope : Scope) : Scope :=
  ⟨2, callback, "callback"⟩ ::
    (if result.type.shape = .string then [⟨2, result.type.wire ++ "*", "jsonStrResponse"⟩]
      else []) ++ scope

variable {runtime m kind arguments result}

theorem depth_of_mem_outermost {v : Variable} (h : v ∈ outermost runtime arguments result) :
    v.depth = 1 := by
  have hparameters : ∀ v ∈ parameters, v.depth = 1 := by decide
  rw [outermost, List.mem_append, List.mem_append, List.mem_flatMap] at h
  obtain (h | ⟨a, -, h⟩) | h := h
  · exact hparameters v h
  · exact a.depth_of_mem_own h
  · simp only [List.mem_cons, List.not_mem_nil, or_false] at h
    obtain rfl | rfl := h <;> rfl

theorem depth_le_of_mem_reverse :
    ∀ v ∈ (outermost runtime arguments result).reverse, v.depth ≤ 1 := fun _ hv ↦
  Nat.le_of_eq (depth_of_mem_outermost (List.mem_reverse.1 hv))

theorem mem_outermost {a : Argument} {v : Variable} (ha : a ∈ arguments) (hv : v ∈ a.own) :
    v ∈ outermost runtime arguments result :=
  List.mem_append_left _ (List.mem_append_right _ (List.mem_flatMap.2 ⟨a, ha, hv⟩))

theorem declared_declarations (arguments : List Argument) :
    (level 1 (arguments.flatMap Argument.declarations)).filterMap Statement.declared =
      arguments.flatMap Argument.own := by
  induction arguments with
  | nil => rfl
  | cons a rest ih =>
    have hfirst : (level 1 a.declarations).filterMap Statement.declared = a.own := by
      unfold Argument.declarations Argument.own
      cases a.isNullable <;> rfl
    rw [List.flatMap_cons, level_append, List.filterMap_append, hfirst, ih, List.flatMap_cons]

theorem isPlain_of_mem_unwrapping {act : Act} (h : act ∈ unwrapping runtime arguments result) :
    act.isPlain = true := by
  rw [unwrapping, List.mem_append, List.mem_flatMap] at h
  obtain ⟨a, -, h⟩ | h := h
  · rw [Argument.declarations, List.mem_cons, List.mem_ite_nil_right, List.mem_singleton] at h
    obtain rfl | ⟨-, rfl⟩ := h <;> rfl
  · simp only [List.mem_cons, List.not_mem_nil, or_false] at h
    obtain rfl | rfl | rfl | rfl | rfl := h <;> rfl

/-- Branches on the entries of the context stand deep and do not call. -/
theorem mem_contextBranches {isFirst : Bool} {s : Statement}
    (h : s ∈ contextBranches runtime isFirst arguments) :
    5 ≤ s.depth ∧ ∀ scope, passing scope s.act = [] := by
  induction arguments generalizing isFirst with
  | nil => cases h
  | cons a rest ih =>
    obtain rfl | h := List.mem_cons.1 h
    · exact ⟨Nat.le_refl 5, fun _ ↦ rfl⟩
    · obtain h | h := List.mem_append.1 h
      · obtain ⟨act, hact, rfl⟩ := List.mem_map.1 h
        exact ⟨Nat.le_succ 5, fun _ ↦ Act.passing_of_isPlain (Argument.isPlain_of_mem act hact)⟩
      · exact ih h

/-- The loop over the entries stands in a block of its own, and nothing is called in it. -/
theorem mem_entries {s : Statement} (h : s ∈ entries runtime arguments result) :
    2 ≤ s.depth ∧ ∀ scope, passing scope s.act = [] := by
  have hcontext : ∀ s ∈ contextBranches runtime true arguments,
      2 ≤ s.depth ∧ ∀ scope, passing scope s.act = [] := fun s hs ↦
    ⟨Nat.le_trans (by decide) (mem_contextBranches hs).1, (mem_contextBranches hs).2⟩
  revert s
  simpa [entries, entering, leaving, or_imp, forall_and, passing] using hcontext

theorem declared_unwrapping :
    (level 1 (unwrapping runtime arguments result)).filterMap Statement.declared =
      arguments.flatMap Argument.own ++ [
        ⟨1, runtime.proxy result.type.wire ++ "*", "jsonResponse"⟩,
        ⟨1, runtime.proxy runtime.wireMap ++ "&", "var"⟩] := by
  rw [unwrapping, level_append, List.filterMap_append, declared_declarations]
  rfl

theorem behind_unwrapping :
    Scope.behind parameters.reverse (level 1 (unwrapping runtime arguments result)) =
      (outermost runtime arguments result).reverse := by
  have hdepth : ∀ v ∈ parameters.reverse, v.depth ≤ 1 := by decide
  rw [Scope.behind_level _ hdepth, declared_unwrapping, ← List.reverse_append, outermost,
    List.append_assoc]

theorem behind_reception (h : arguments ≠ []) :
    Scope.behind parameters.reverse (reception runtime arguments result) =
      (outermost runtime arguments result).reverse := by
  let inside := Scope.behind (outermost runtime arguments result).reverse
    (entries runtime arguments result)
  unfold reception
  rw [if_neg (mt List.isEmpty_iff.1 h), Scope.behind_append, Scope.behind_append,
    behind_unwrapping]
  calc inside.behind (level 1 [.other "\x7d"])
    _ = inside.upTo 1 := rfl
    _ = Scope.upTo 1 (outermost runtime arguments result).reverse :=
      Scope.upTo_behind fun _ hs ↦ (mem_entries hs).1
    _ = (outermost runtime arguments result).reverse :=
      Scope.upTo_eq_self depth_le_of_mem_reverse

/-! ## What a trampoline declares, calls and assigns -/

theorem outermost_procedure (h : arguments ≠ []) :
    (procedure runtime m kind arguments result).outermost =
      outermost runtime arguments result := by
  have houter : (outermost runtime arguments result).filter (·.depth = 1) =
      outermost runtime arguments result :=
    List.filter_eq_self.2 fun v hv ↦ decide_eq_true (depth_of_mem_outermost hv)
  have hentries : ((entries runtime arguments result).filterMap Statement.declared).filter
      (·.depth = 1) = [] := Scope.declared_filter fun s hs ↦ (mem_entries hs).1
  have hhandover (acts : List Act) : ((level 2 acts).filterMap Statement.declared).filter
      (·.depth = 1) = [] :=
    Scope.declared_filter fun s hs ↦ Nat.le_of_eq (Scope.depth_of_mem_level hs).symm
  unfold Procedure.outermost procedure reception handover
  rw [if_neg (mt List.isEmpty_iff.1 h)]
  simp only [List.filterMap_append, List.filter_append, declared_unwrapping, hentries, hhandover]
  rw [← houter]
  simp [outermost, Statement.declared]

/-- The call goes by the variables around it, and by those that are declared for it. -/
theorem collect_handover {scope : Scope} (callback : String) (h : ∀ v ∈ scope, v.depth ≤ 1) :
    collect passing scope (handover callback arguments result) = [
      ⟨some ⟨2, callback, "callback"⟩,
        ("userData" :: arguments.map (·.sent.name)).map (calling callback result scope).find,
        result.sent⟩] := by
  let inside := scope.behind (level 2 result.preparation)
  have hscope : ∀ v ∈ scope, v.depth ≤ 2 := fun v hv ↦ Nat.le_trans (h v hv) (by decide)
  have hcalling : ⟨2, callback, "callback"⟩ :: inside = calling callback result scope := by
    unfold inside calling ResultValue.preparation
    rw [Scope.behind_level _ hscope]
    cases result.type.shape <;> rfl
  have hdepth : ∀ v ∈ calling callback result scope, v.depth ≤ 2 := fun v hv ↦ by
    rw [calling, List.mem_append, List.mem_cons, List.mem_ite_nil_right, List.mem_singleton] at hv
    obtain (rfl | ⟨-, rfl⟩) | hv := hv
    · exact Nat.le_refl 2
    · exact Nat.le_refl 2
    · exact hscope v hv
  have hinside : ∀ v ∈ inside, v.depth ≤ 2 := fun v hv ↦
    hdepth v (hcalling ▸ List.mem_cons_of_mem _ hv)
  have hpreparation : collect passing scope (level 2 result.preparation) = [] := by
    unfold ResultValue.preparation
    cases result.type.shape <;> rfl
  have hbefore : scope.behind (level 1 [
      .other "",
      .other "if ((jsonResponse != nullptr) && (jsonResponse->IsValid() == true)) \x7b"]) = scope :=
    Scope.behind_level _ h
  have hcall : collect passing inside (level 2 [
      .declare callback "callback" (" = reinterpret_cast<" ++ callback ++ ">(userCB)"),
      .call "callback" ("userData" :: arguments.map (·.sent.name)) result.sent]) =
      passing (calling callback result scope)
        (.call "callback" ("userData" :: arguments.map (·.sent.name)) result.sent) := by
    change passing (Scope.upTo 2 (⟨2, callback, "callback"⟩ :: inside.upTo 2)) _ ++ [] = _
    rw [Scope.upTo_eq_self hinside, hcalling, Scope.upTo_eq_self hdepth, List.append_nil]
  unfold handover
  rw [collect_append, collect_append, hbefore, level_append, collect_append, hpreparation, hcall]
  rfl

theorem calls_procedure (h : arguments ≠ []) :
    (procedure runtime m kind arguments result).calls = [
      ⟨some ⟨2, callbackName m kind, "callback"⟩,
        ("userData" :: arguments.map (·.sent.name)).map
          (calling (callbackName m kind) result (outermost runtime arguments result).reverse).find,
        result.sent⟩] := by
  have hreception : ∀ s ∈ reception runtime arguments result,
      ∀ scope, passing scope s.act = [] := fun s hs scope ↦ by
    rw [reception, if_neg (mt List.isEmpty_iff.1 h), List.mem_append, List.mem_append] at hs
    obtain hs | hs | hs := hs
    · obtain ⟨act, hact, rfl⟩ := List.mem_map.1 hs
      exact Act.passing_of_isPlain (isPlain_of_mem_unwrapping hact)
    · exact (mem_entries hs).2 scope
    · cases List.mem_singleton.1 hs
      rfl
  change collect passing parameters.reverse (reception runtime arguments result ++
    handover (callbackName m kind) arguments result) = _
  rw [collect_append, collect_eq_nil hreception, behind_reception h,
    collect_handover _ depth_le_of_mem_reverse, List.nil_append]

/-- The iterators are declared on the way in, and what is received in the other branch is gone. -/
theorem behind_entering {scope : Scope} (h : ∀ v ∈ scope, v.depth ≤ 1) :
    scope.behind (entering runtime result) =
      ⟨4, runtime.wireMap ++ "::Iterator", "params"⟩ ::
        ⟨2, runtime.wireMap ++ "::Iterator", "elements"⟩ :: scope := by
  have hup (depth : Nat) (hdepth : 1 ≤ depth) : scope.filter (·.depth ≤ depth) = scope :=
    Scope.upTo_eq_self fun v hv ↦ Nat.le_trans (h v hv) hdepth
  simp [entering, Scope.behind, Scope.after, Statement.declared, Scope.upTo, hup]

/-- Each branch starts from the same scope: what is declared in the one before is gone. -/
theorem branchesOn_contextBranches {scope inner : Scope} {rest : List Statement} (isFirst : Bool)
    (hscope : scope.upTo 5 = inner) (hinner : ∀ v ∈ inner, v.depth ≤ 5)
    (hrest : ∀ s ∈ rest.head?, s.depth ≤ 5) (hend : ∀ s ∈ rest, s.act.label? "params" = none) :
    branchesOn "params" scope (contextBranches runtime isFirst arguments ++ rest) =
      arguments.map fun a ↦ ⟨a.name, a.assignedIn inner⟩ := by
  induction arguments generalizing isFirst scope with
  | nil =>
    have hnone : branchesOn "params" scope (rest ++ []) = [] := branchesOn_append hend
    rwa [List.append_nil] at hnone
  | cons a others ih =>
    let body := level 6 (a.preparation runtime ++ a.settings)
    have hdeep : ∀ s ∈ body, 5 < s.depth := fun s hs ↦
      Nat.le_of_eq (Scope.depth_of_mem_level hs).symm
    have hplain : ∀ s ∈ body, s.act.label? "params" = none := fun s hs ↦ by
      obtain ⟨act, hact, rfl⟩ := List.mem_map.1 hs
      exact Act.label?_of_isPlain (Argument.isPlain_of_mem act hact)
    have hnext : ∀ s ∈ (contextBranches runtime false others ++ rest).head?, s.depth ≤ 5 := by
      cases others with
      | nil => exact hrest
      | cons a' others =>
        rintro s ⟨⟩
        exact Nat.le_refl 5
    have hbehind : (inner.behind body).upTo 5 = inner := by
      rw [Scope.upTo_behind hdeep, Scope.upTo_eq_self hinner]
    rw [contextBranches, List.cons_append, List.append_assoc,
      branchesOn_branch isFirst hdeep hplain hnext, hscope, ih false hbehind,
      Argument.collect_assignment fun v hv ↦ Nat.le_succ_of_le (hinner v hv)]
    rfl

theorem branches_procedure (h : arguments ≠ []) :
    (procedure runtime m kind arguments result).branches "params" =
      arguments.map fun a ↦ ⟨a.name, a.assignedIn (decoding runtime arguments result)⟩ := by
  let rest := leaving ++ (level 1 [.other "\x7d"] ++
    handover (callbackName m kind) arguments result)
  have hbody : (procedure runtime m kind arguments result).body =
      level 1 (unwrapping runtime arguments result) ++ (entering runtime result ++
        (contextBranches runtime true arguments ++ rest)) := by
    unfold procedure reception entries rest
    rw [if_neg (mt List.isEmpty_iff.1 h)]
    simp only [List.append_assoc]
  have hunwrapping : ∀ s ∈ level 1 (unwrapping runtime arguments result),
      s.act.label? "params" = none := fun s hs ↦ by
    obtain ⟨act, hact, rfl⟩ := List.mem_map.1 hs
    exact Act.label?_of_isPlain (isPlain_of_mem_unwrapping hact)
  have hentering : ∀ s ∈ entering runtime result, s.act.label? "params" = none := by
    simp [entering, Act.label?]
  have hrest : ∀ s ∈ rest, s.act.label? "params" = none := by
    have hpreparation : ∀ s ∈ level 2 result.preparation, s.act.label? "params" = none := by
      unfold ResultValue.preparation
      cases result.type.shape <;> simp [Act.label?]
    simpa [rest, leaving, handover, or_imp, forall_and, Act.label?] using hpreparation
  have hdecoding : ∀ v ∈ decoding runtime arguments result, v.depth ≤ 5 := by
    simp only [decoding, List.forall_mem_cons]
    exact ⟨by decide, by decide, fun v hv ↦
      Nat.le_trans (depth_le_of_mem_reverse v hv) (by decide)⟩
  change branchesOn "params" parameters.reverse _ = _
  rw [hbody, branchesOn_append hunwrapping, behind_unwrapping, branchesOn_append hentering,
    behind_entering depth_le_of_mem_reverse]
  exact branchesOn_contextBranches true (Scope.upTo_eq_self hdecoding) hdecoding
    (by rintro s ⟨⟩; exact Nat.le_refl 5) hrest

end Notification

end SchemaBindings
