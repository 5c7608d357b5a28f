import SchemaBindings.Proofs.HeaderNames
import SchemaBindings.Proofs.Omissions

/-!
# Names of parameters

The functions and callbacks of a method take the parameters of the method and further ones, which
are called after the result or have names of their own. The names of a parameter list are distinct
exactly if no parameter of the method is called like a further one, and no result like another
further parameter of its callback. Accessors take nothing but parameters with names of their own,
which are distinct.
-/

namespace SchemaBindings

open Code Mapping

/-! ## Parameter lists of a header -/

/-- What the functions and the callback take that a piece of header code declares. -/
def Code.Piece.parameterLists : Piece → List (List Parameter)
  | callback c => [c.parameters]
  | piece => piece.prototypes.map (·.parameters)

def Code.parameterNames (parameters : List Parameter) : List String := parameters.map (·.name)

/-- What all functions and callbacks take that the header declares. -/
def Output.parameterLists (output : Output) : List (List Parameter) :=
  (output.declarations.entries ++ output.prototypes.entries).flatMap fun entry ↦
    entry.2.pieces.flatMap Piece.parameterLists

/-- Names in all parameter lists of code for a header. -/
def Code.listNames (code : List (String × List Piece)) : List (List String) :=
  code.flatMap fun entry ↦ entry.2.flatMap fun piece ↦ piece.parameterLists.map parameterNames

namespace Access

variable {runtime : Runtime} {base : String} {g : AccessorGroup}

/-- What accessors take: their handle, and a key or an index, and a value. -/
def parameters : List (List String) :=
  [[], ["handle"], ["handle", "value"], ["handle", "index"], ["handle", "key"],
    ["handle", "key", "value"]]

theorem Behind.parameterNames_mem (hg : Behind runtime base g) {r : Routine}
    (hr : r ∈ g.routines) : parameterNames r.signature.parameters ∈ parameters := by
  revert r
  cases hg with
  | life container => simp [lifecycle, parameterNames, parameters, handleParameter]
  | property container name value options =>
    obtain ⟨isReadOnly, isOptional⟩ := options
    cases isReadOnly <;> cases isOptional <;>
      simp [Access.property, parameterNames, parameters, handleParameter]
  | inPlace container name element =>
    simp [Access.elements, parameterNames, parameters, handleParameter]
  | elements container element =>
    simp [Access.elements, parameterNames, parameters, handleParameter]
  | entries container value =>
    simp [Access.entries, parameterNames, parameters, handleParameter]

theorem Behind.nodup_parameterNames (hg : Behind runtime base g) {r : Routine}
    (hr : r ∈ g.routines) : (parameterNames r.signature.parameters).Nodup := by
  have hall : ∀ names ∈ parameters, names.Nodup := by decide
  exact hall _ (hg.parameterNames_mem hr)

end Access

/-! ## Functions of a header -/

namespace Output

variable {runtime : Runtime} {title symbol path : String} {code : List (String × List Piece)}
  {pieces : List Piece} {output result : Output}

/-- Types with their accessors and, besides, nothing but these functions and callbacks. -/
def Introduced (runtime : Runtime) (title : String) (code : List (String × List Piece)) :
    Section → String → Fragment → Prop :=
  Access.Declares runtime title fun symbol found ↦ (symbol, found.pieces) ∈ code

/-- Besides types with their accessors, the header declares just these functions and callbacks. -/
structure Introduces (runtime : Runtime) (title : String) (code : List (String × List Piece))
    (output : Output) : Prop where
  all : output.All (Introduced runtime title code)
  exists_entry : ∀ symbol pieces, (symbol, pieces) ∈ code →
    ∃ found, (symbol, found) ∈ output.prototypes.entries ∧ found.pieces = pieces

theorem merges_introduces (runtime : Runtime) (title : String) :
    Merges (Introduces runtime title []) where
  empty := ⟨all_empty, nofun⟩
  congr h heq _ := ⟨h.all.congr heq, nofun⟩
  merge h hother hmerge := ⟨h.all.merge hother.all hmerge, nofun⟩

theorem Introduces.insertPrototype (h : output.Introduces runtime title code)
    (hnew : symbol ∉ code.map Prod.fst)
    (hinsert : (output.insert .prototypes symbol pieces path).toExcept = .ok result) :
    result.Introduces runtime title (code ++ [(symbol, pieces)]) := by
  have hall : output.All (Introduced runtime title (code ++ [(symbol, pieces)])) :=
    h.all.imp fun place symbol' found hfound ↦ by
      cases place with
      | prototypes => exact List.mem_append_left _ hfound
      | _ => exact hfound
  have hlast : Introduced runtime title (code ++ [(symbol, pieces)]) .prototypes symbol
      (.ofPieces pieces) := List.mem_append_right _ (List.mem_singleton_self _)
  refine ⟨hall.insert hlast hinsert, fun symbol' pieces' hmem ↦ ?_⟩
  obtain ⟨hfailure, rfl⟩ := insert_eq_set hinsert
  obtain ⟨existing, hexisting, -⟩ | ⟨-, hvalue⟩ := Fragments.insert_cases hfailure
  · have hentry := h.all .prototypes symbol existing (Table.mem_of_get?_eq_some hexisting)
    exact absurd (List.mem_map_of_mem hentry) hnew
  · rw [hvalue]
    obtain hold | hlast := List.mem_append.1 hmem
    · obtain ⟨found, hfound, rfl⟩ := h.exists_entry symbol' pieces' hold
      exact ⟨found, List.mem_append_left _ hfound, rfl⟩
    · cases List.mem_singleton.1 hlast
      exact ⟨.ofPieces pieces, List.mem_append_right _ (List.mem_singleton_self _), rfl⟩

theorem Introduces.insertImplementation (h : output.Introduces runtime title code)
    (hinsert : (output.insert .implementations symbol pieces path).toExcept = .ok result) :
    result.Introduces runtime title code := by
  have hcode : Introduced runtime title code .implementations symbol (.ofPieces pieces) := trivial
  refine ⟨h.all.insert hcode hinsert, ?_⟩
  obtain ⟨-, rfl⟩ := insert_eq_set hinsert
  exact h.exists_entry

/-- It is up to the functions and callbacks whether the names are distinct in all lists. -/
theorem Introduces.nodup_iff (h : output.Introduces runtime title code) :
    (∀ parameters ∈ output.parameterLists, (parameterNames parameters).Nodup) ↔
      ∀ names ∈ listNames code, names.Nodup := by
  unfold parameterLists listNames
  constructor
  · intro hall names hmem
    obtain ⟨⟨symbol, pieces⟩, hentry, hmem⟩ := List.mem_flatMap.1 hmem
    obtain ⟨piece, hpiece, hnames⟩ := List.mem_flatMap.1 hmem
    obtain ⟨parameters, hparameters, rfl⟩ := List.mem_map.1 hnames
    obtain ⟨found, hfound, rfl⟩ := h.exists_entry symbol pieces hentry
    exact hall parameters (List.mem_flatMap.2 ⟨(symbol, found), List.mem_append_right _ hfound,
      List.mem_flatMap.2 ⟨piece, hpiece, hparameters⟩⟩)
  · intro hcode parameters hmem
    obtain ⟨⟨symbol, found⟩, hentry, hmem⟩ := List.mem_flatMap.1 hmem
    obtain ⟨piece, hpiece, hparameters⟩ := List.mem_flatMap.1 hmem
    obtain hentry | hentry := List.mem_append.1 hentry
    · obtain ⟨stem, groups, -, hpieces, hbehind, -⟩ := h.all .declarations symbol found hentry
      rw [hpieces, List.mem_singleton] at hpiece
      subst hpiece
      obtain ⟨signature, hsignature, rfl⟩ := List.mem_map.1 hparameters
      obtain ⟨g, hg, hroutine⟩ := List.mem_flatMap.1 hsignature
      obtain ⟨r, hr, rfl⟩ := List.mem_map.1 hroutine
      exact (hbehind g hg).nodup_parameterNames hr
    · exact hcode _ (List.mem_flatMap.2 ⟨_, h.all .prototypes symbol found hentry,
        List.mem_flatMap.2 ⟨piece, hpiece, List.mem_map_of_mem hparameters⟩⟩)

end Output

/-! ## Functions that come in -/

namespace Emission

variable {runtime runtime' : Runtime} {title symbol path : String}
  {code : List (String × List Piece)} {pieces : List Piece} {m : MethodPlace}

/-- What inserting code leads to, the insertion in an emission does. -/
theorem brings_of_insert {good good' : Output → Prop} {place : Section}
    (h : ∀ output result, (output.insert place symbol pieces path).toExcept = .ok result →
      good output → good' result) :
    Brings good good' (insert place symbol pieces path) := by
  intro output
  unfold insert
  rw [get_bind]
  exact lift_bind (free_ofExcept fun result hresult _ hstart ↦ h output result hresult hstart)
    fun _ ↦ obeys_pure fun _ _ hend ↦ hend

/-- Functions or a callback come in under a new symbol. -/
theorem brings_introduced (hnew : symbol ∉ code.map Prod.fst) :
    Brings (Output.Introduces runtime title code)
      (Output.Introduces runtime title (code ++ [(symbol, pieces)]))
      (insert .prototypes symbol pieces path) :=
  brings_of_insert fun _ _ hinsert hstart ↦ hstart.insertPrototype hnew hinsert

theorem brings_implementation :
    Brings (Output.Introduces runtime title code) (Output.Introduces runtime title code)
      (insert .implementations symbol pieces path) :=
  brings_of_insert fun _ _ hinsert hstart ↦ hstart.insertImplementation hinsert

theorem brings_metrics :
    Brings (Output.Introduces runtime title code) (Output.Introduces runtime title code)
      (metricsJob runtime' m) := by
  unfold metricsJob
  split
  · have hmodify : Brings (Output.Introduces runtime title code)
        (Output.Introduces runtime title code)
        (modify fun output ↦ { output with usesMetrics := true }) := fun _ ↦
      obeys_pure fun _ _ h ↦ ⟨h.all.congr fun place ↦ by cases place <;> rfl, h.exists_entry⟩
    exact hmodify.bind fun _ ↦ brings_implementation.bind fun _ ↦ keeps_pure _
  · exact keeps_pure []

/-- What a function is declared by. -/
def declaration (m : MethodPlace) (signature : Signature) : String × List Piece :=
  (signature.name, [m.comment, .prototype signature])

theorem brings_function {signature : Signature} {body : Lines → Lines}
    (hnew : signature.name ∉ code.map Prod.fst) :
    Brings (Output.Introduces runtime title code)
      (Output.Introduces runtime title (code ++ [declaration m signature])) (do
        Call.addPrototype m signature
        let metrics ← metricsJob runtime' m
        Call.addFunction m signature (body metrics)) :=
  (brings_introduced hnew).bind fun _ ↦ brings_metrics.bind fun _ ↦ brings_implementation

/-- What the functions are declared by that register a callback and unregister it. -/
def registration (m : MethodPlace) (text : String) (register unregister : Signature) :
    String × List Piece :=
  (register.name, [m.commentWith text, .prototype register, .prototype unregister])

def notificationCode (m : MethodPlace) (kind : NotificationKind) (arguments : List Argument)
    (result : ResultValue) : List (String × List Piece) := [
  (Notification.callbackName m kind, [.callback (Notification.callback m kind arguments result)]),
  registration m "Listen to updates" (Notification.registerSignature m kind arguments)
    (Notification.unregisterSignature m kind)]

theorem register_ne_callback (m : MethodPlace) (kind : NotificationKind) :
    m.moduleName ++ "_Register_" ++ m.methodName ++ "Update" ≠
      Notification.callbackName m kind := by
  intro h
  have hlength := congrArg String.length h
  have hwords : "_Register_".length = 10 ∧ "Update".length = 6 ∧ "On".length = 2 ∧
      "Changed".length = 7 ∧ "Callback".length = 8 := by decide
  cases kind <;>
    simp only [Notification.callbackName, String.length_append, hwords] at hlength <;> omega

theorem brings_notification {kind : NotificationKind} {arguments : List Argument}
    {result : ResultValue} (hcallback : Notification.callbackName m kind ∉ code.map Prod.fst)
    (hregister : m.moduleName ++ "_Register_" ++ m.methodName ++ "Update" ∉ code.map Prod.fst) :
    Brings (Output.Introduces runtime title code)
      (Output.Introduces runtime title (code ++ notificationCode m kind arguments result))
      (Notification.emit runtime' m kind arguments result) := by
  have hnew : m.moduleName ++ "_Register_" ++ m.methodName ++ "Update" ∉
      (code ++ [(Notification.callbackName m kind,
        [Piece.callback (Notification.callback m kind arguments result)])]).map Prod.fst := by
    rw [List.map_append, List.mem_append, List.map_singleton, List.mem_singleton]
    exact not_or.2 ⟨hregister, register_ne_callback m kind⟩
  have hcode : code ++ notificationCode m kind arguments result =
      code ++ [(Notification.callbackName m kind,
        [Piece.callback (Notification.callback m kind arguments result)])] ++
        [registration m "Listen to updates" (Notification.registerSignature m kind arguments)
          (Notification.unregisterSignature m kind)] := by
    rw [List.append_assoc]
    rfl
  rw [hcode]
  exact (brings_introduced hcallback).bind fun _ ↦ (brings_introduced hnew).bind fun _ ↦
    brings_implementation.bind fun _ ↦ brings_implementation

/-- What the functions of a property are declared by. -/
def propertyCode (m : MethodPlace) (isSettable notifies : Bool) (arguments : List Argument)
    (result : ResultValue) : List (String × List Piece) :=
  [declaration m (Call.getterSignature m arguments result)] ++
    (if isSettable then [declaration m (Call.setterSignature m arguments result)] else []) ++
    if notifies then notificationCode m .propertyChanged arguments result else []

/-- Functions that call are not called like a callback or like the functions that register it. -/
theorem ne_call {verb : String} (hverb : verb.length ≤ 5) (m : MethodPlace)
    (kind : NotificationKind) :
    Notification.callbackName m kind ≠ m.moduleName ++ verb ++ m.methodName ∧
      m.moduleName ++ "_Register_" ++ m.methodName ++ "Update" ≠
        m.moduleName ++ verb ++ m.methodName := by
  have hwords : "_Register_".length = 10 ∧ "Update".length = 6 ∧ "On".length = 2 ∧
      "Changed".length = 7 ∧ "Callback".length = 8 := by decide
  constructor <;> intro h <;> have hlength := congrArg String.length h
  · cases kind <;>
      simp only [Notification.callbackName, String.length_append, hwords] at hlength <;> omega
  · simp only [String.length_append, hwords] at hlength
    omega

theorem set_ne_get (m : MethodPlace) :
    m.moduleName ++ "_Set" ++ m.methodName ≠ m.moduleName ++ "_Get" ++ m.methodName := by
  rw [Ne, String.append_left_inj, String.append_right_inj]
  decide

theorem brings_property {isSettable notifies : Bool} {arguments : List Argument}
    {result : ResultValue} :
    Brings (Output.Introduces runtime title [])
      (Output.Introduces runtime title (propertyCode m isSettable notifies arguments result)) (do
        Call.getter runtime' m arguments result
        if isSettable then Call.setter runtime' m arguments result
        if notifies then Notification.emit runtime' m .propertyChanged arguments result) := by
  have hget := @ne_call "_Get" (by decide) m .propertyChanged
  have hset := @ne_call "_Set" (by decide) m .propertyChanged
  have hgetter : Brings (Output.Introduces runtime title [])
      (Output.Introduces runtime title [declaration m (Call.getterSignature m arguments result)])
      (Call.getter runtime' m arguments result) := brings_function List.not_mem_nil
  have hnotifies : ∀ {code : List (String × List Piece)},
      Notification.callbackName m .propertyChanged ∉ code.map Prod.fst →
      m.moduleName ++ "_Register_" ++ m.methodName ++ "Update" ∉ code.map Prod.fst →
      Brings (Output.Introduces runtime title code) (Output.Introduces runtime title (code ++
        if notifies then notificationCode m .propertyChanged arguments result else []))
        (if notifies then Notification.emit runtime' m .propertyChanged arguments result
          else pure ()) := by
    intro code hcallback hregister
    split
    · exact brings_notification hcallback hregister
    · rw [List.append_nil]
      exact keeps_pure ()
  refine hgetter.bind fun _ ↦ ?_
  cases isSettable with
  | true =>
    have hsetter : Brings
        (Output.Introduces runtime title [declaration m (Call.getterSignature m arguments result)])
        (Output.Introduces runtime title [declaration m (Call.getterSignature m arguments result),
          declaration m (Call.setterSignature m arguments result)])
        (Call.setter runtime' m arguments result) :=
      brings_function (mt List.mem_singleton.1 (set_ne_get m))
    refine hsetter.bind fun _ ↦ hnotifies ?_ ?_
    · exact mt List.mem_pair.1 (not_or.2 ⟨hget.1, hset.1⟩)
    · exact mt List.mem_pair.1 (not_or.2 ⟨hget.2, hset.2⟩)
  | false =>
    exact hnotifies (mt List.mem_singleton.1 hget.1) (mt List.mem_singleton.1 hget.2)

/-- What the functions of a pulled result are declared by. -/
def pullCode (m : MethodPlace) (response request : NativeType) : List (String × List Piece) := [
  declaration m (Pull.pushSignature m response),
  (Pull.callbackName m, [.callback (Pull.callback m request)]),
  registration m "Listen to pull requests" (Pull.registerSignature m) (Pull.unregisterSignature m)]

theorem brings_pull {response request : NativeType} :
    Brings (Output.Introduces runtime title [])
      (Output.Introduces runtime title (pullCode m response request))
      (Pull.emitFunctions runtime' m response request) := by
  have hwords : "_Register_".length = 10 ∧ "Pull".length = 4 ∧ "OnPull".length = 6 ∧
      "_Push".length = 5 ∧ "Callback".length = 8 := by decide
  have hcallback : Pull.callbackName m ≠ m.moduleName ++ "_Push" ++ m.methodName := by
    intro h
    have hlength := congrArg String.length h
    simp only [Pull.callbackName, String.length_append, hwords] at hlength
    omega
  have hregister : m.moduleName ++ "_Register_" ++ m.methodName ++ "Pull" ≠
      m.moduleName ++ "_Push" ++ m.methodName := by
    intro h
    have hlength := congrArg String.length h
    simp only [String.length_append, hwords] at hlength
    omega
  have hlast : m.moduleName ++ "_Register_" ++ m.methodName ++ "Pull" ≠ Pull.callbackName m := by
    intro h
    have hends : "Pull".toList.getLast? = some 'l' ∧ "Callback".toList.getLast? = some 'k' := by
      decide
    have hend := congrArg (·.toList.getLast?) h
    simp only [Pull.callbackName, String.toList_append, List.getLast?_append, hends,
      Option.some_or] at hend
    cases hend
  have hpush : Brings (Output.Introduces runtime title [])
      (Output.Introduces runtime title [declaration m (Pull.pushSignature m response)])
      (Call.addPrototype m (Pull.pushSignature m response)) := brings_introduced List.not_mem_nil
  exact hpush.bind fun _ ↦ brings_metrics.bind fun _ ↦ brings_implementation.bind fun _ ↦
    (brings_introduced (mt List.mem_singleton.1 hcallback)).bind fun _ ↦
    (brings_introduced (mt List.mem_pair.1 (not_or.2 ⟨hregister, hlast⟩))).bind fun _ ↦
    brings_implementation.bind fun _ ↦ brings_implementation

end Emission

/-! ## Parameters and results -/

namespace MethodPlace

/-- The schema of a parameter at its position. -/
def parameter (m : MethodPlace) (position : Nat) (param : Param) : Visit :=
  ⟨m.document, param.schema, param.name, s!"{m.path}/params/{position}/schema"⟩

/-- A parameter of this name has a type. -/
def Maps (cx : Context) (m : MethodPlace) (params : List Param) (name : String) : Prop :=
  ∃ k param, params[k]? = some param ∧ param.name = name ∧ (m.parameter k param).HasType cx

/-- The functions of the method take a parameter of this name. -/
def Takes (cx : Context) (m : MethodPlace) (name : String) : Prop :=
  ∃ params, m.params? = some params ∧ m.Maps cx params name

end MethodPlace

namespace Emission

variable {cx : Context} {budget position : Nat} {v : Visit} {scope : String}
  {output output' : Output} {session session' : Session} {m : MethodPlace}

/-- A sequence of emissions succeeds exactly if both of its parts do. -/
theorem bind_eq_ok {α β : Type} {emission : Emission α} {next : α → Emission β} {result : β} :
    (emission >>= next) output session = some (.ok (result, output'), session') ↔
      ∃ value output'' session'', emission output session =
          some (.ok (value, output''), session'') ∧
        next value output'' session'' = some (.ok (result, output'), session') := by
  refine Mapping.bind_eq_ok.trans ⟨?_, ?_⟩
  · rintro ⟨⟨value, output''⟩, session'', hfirst, hnext⟩
    exact ⟨value, output'', session'', hfirst, hnext⟩
  · rintro ⟨value, output'', session'', hfirst, hnext⟩
    exact ⟨(value, output''), session'', hfirst, hnext⟩

theorem hasType_of_mapValue {type : NativeType}
    (h : mapValue (.ofBudget cx budget) v.document v.node (v.request scope) output session =
      some (.ok (type, output'), session')) : v.HasType cx := by
  obtain ⟨_, _, _, hlift, -⟩ := bind_eq_ok.1 h
  obtain ⟨found, after, hnative, -⟩ := Mapping.bind_eq_ok.1 hlift
  exact ⟨scope, session, found, after, budget, hnative⟩

theorem mapValue_firm (h : v.HasType cx) (budget : Nat) (scope : String) (output : Output) :
    Firm (mapValue (.ofBudget cx budget) v.document v.node (v.request scope) output) := by
  refine lift_bind (Native.map_firm budget h scope) fun native ↦
    lift_bind (Wire.map_firm budget h scope) fun wire ↦ ?_
  rw [get_bind]
  exact lift_bind (firm_merge fun _ _ _ _ ↦ trivial) fun _ ↦
    lift_bind (firm_merge fun _ _ _ _ ↦ trivial) fun _ ↦ firm_pure _

/-- Which names parameters have that a position is true of. -/
theorem exists_param_cons {P : Nat → Param → Prop} {param : Param} {rest : List Param} :
    (∃ k found, (param :: rest)[k]? = some found ∧ P (position + k) found) ↔
      P position param ∨ ∃ k found, rest[k]? = some found ∧ P (position + 1 + k) found := by
  have hnext : ∀ k, position + (k + 1) = position + 1 + k := fun k ↦ by omega
  constructor
  · rintro ⟨k, found, hfound, hP⟩
    cases k with
    | zero =>
      cases hfound
      exact .inl hP
    | succ k =>
      rw [hnext] at hP
      exact .inr ⟨k, found, hfound, hP⟩
  · rintro (hP | ⟨k, found, hfound, hP⟩)
    · exact ⟨0, param, rfl, hP⟩
    · rw [← hnext] at hP
      exact ⟨k + 1, found, hfound, hP⟩

/-- The first parameter has an argument, or it is left out; the others are mapped after it. -/
theorem mapParams_cons_eq_ok {mappers : Mappers} {param : Param} {rest : List Param}
    {arguments : List Argument}
    (h : mapParams mappers m position (param :: rest) output session =
      some (.ok (arguments, output'), session')) :
    let v := m.parameter position param
    ∃ before between, (∃ type others between',
      mapValue mappers v.document v.node (v.request m.methodName) output session =
        some (.ok (type, before), between') ∧
      mapParams mappers m (position + 1) rest before between =
        some (.ok (others, output'), session') ∧
      arguments = ⟨param.name, param.required, type⟩ :: others) ∨
    ∃ failure between', failure.isRecoverable = true ∧
      mapValue mappers v.document v.node (v.request m.methodName) output session =
        some (.error failure, between') ∧
      mapParams mappers m (position + 1) rest before between =
        some (.ok (arguments, output'), session') := by
  obtain ⟨found, _, _, hattempt, hnext⟩ := bind_eq_ok.1 h
  obtain ⟨result, _, hvalue, hpure⟩ := attempt_bind_eq_ok.1 hattempt
  cases result with
  | ok run =>
    cases hpure
    obtain ⟨others, _, _, hothers, hpure⟩ := bind_eq_ok.1 hnext
    cases hpure
    exact ⟨_, _, .inl ⟨_, others, _, hvalue, hothers, rfl⟩⟩
  | error failure =>
    cases hpure
    change (if failure.isRecoverable then _ else fail failure : Emission _) _ _ = _ at hnext
    split at hnext
    case isTrue hrecoverable =>
      obtain ⟨_, _, _, -, hnext⟩ := bind_eq_ok.1 hnext
      obtain ⟨_, before, between, -, hothers⟩ := bind_eq_ok.1 hnext
      exact ⟨before, between, .inr ⟨failure, _, hrecoverable, hvalue, hothers⟩⟩
    case isFalse => cases hnext

/-- The arguments stand for some of the parameters, in their order. -/
theorem mapParams_sublist {mappers : Mappers} {params : List Param} {arguments : List Argument}
    (h : mapParams mappers m position params output session =
      some (.ok (arguments, output'), session')) :
    (arguments.map fun a ↦ (a.name, a.required)).Sublist
      (params.map fun param ↦ (param.name, param.required)) := by
  induction params generalizing position arguments output session with
  | nil =>
    cases h
    exact .slnil
  | cons param rest ih =>
    obtain ⟨_, _, ⟨_, _, _, -, hothers, rfl⟩ | ⟨_, _, -, -, hothers⟩⟩ := mapParams_cons_eq_ok h
    · exact (ih hothers).cons_cons _
    · exact (ih hothers).cons _

/-- A parameter is among the arguments exactly if it has a type. -/
theorem mapParams_names {params : List Param} {arguments : List Argument}
    (h : mapParams (.ofBudget cx budget) m position params output session =
      some (.ok (arguments, output'), session')) :
    ∀ name, name ∈ arguments.map (·.name) ↔ ∃ k param, params[k]? = some param ∧
      param.name = name ∧ (m.parameter (position + k) param).HasType cx := by
  induction params generalizing position arguments output session with
  | nil =>
    cases h
    simp
  | cons param rest ih =>
    intro name
    have hcons := @exists_param_cons position
      (fun k found ↦ found.name = name ∧ (m.parameter k found).HasType cx) param rest
    rw [hcons]
    obtain ⟨_, _, ⟨type, others, _, hvalue, hothers, rfl⟩ |
      ⟨failure, _, hrecoverable, hvalue, hothers⟩⟩ := mapParams_cons_eq_ok h
    · have htype : (m.parameter position param).HasType cx := hasType_of_mapValue hvalue
      rw [List.map_cons, List.mem_cons, ih hothers, eq_comm, and_iff_left htype]
    · have hnone : ¬(m.parameter position param).HasType cx := fun htype ↦ by
        have hfirm : failure.isRecoverable = false :=
          (mapValue_firm htype budget m.methodName output hvalue trivial trivial).2.2
        rw [hfirm] at hrecoverable
        cases hrecoverable
      rw [ih hothers, or_iff_right fun h ↦ hnone h.2]

theorem mapResult_eq {mappers : Mappers} {found : Option ResultValue}
    (h : mapResult mappers m output session = some (.ok (found, output'), session')) :
    found.map (fun r ↦ (r.name, r.isSuccess)) = m.method.result.map fun r ↦
      (r.name, ResultValue.isSuccessSchema r.name r.schema) := by
  unfold mapResult at h
  cases hmethod : m.method.result with
  | none =>
    rw [hmethod] at h
    cases h
    rfl
  | some result =>
    rw [hmethod] at h
    obtain ⟨type, _, _, -, hpure⟩ := bind_eq_ok.1 h
    cases hpure
    rfl

theorem requireResult_eq {mappers : Mappers} {found : ResultValue}
    (h : requireResult mappers m output session = some (.ok (found, output'), session')) :
    m.method.result.map (·.name) = some found.name := by
  obtain ⟨result, _, _, hresult, hnext⟩ := bind_eq_ok.1 h
  have hsame := mapResult_eq hresult
  cases result with
  | none => cases hnext
  | some result =>
    cases hnext
    cases hmethod : m.method.result with
    | none =>
      rw [hmethod] at hsame
      cases hsame
    | some r =>
      rw [hmethod] at hsame
      exact congrArg (·.map Prod.fst) hsame.symm

end Emission

/-! ## Names beside the parameters -/

/-- Names that can stand in one list with others, which are distinct. -/
def IsApart (own names : List String) : Prop := names.Nodup ∧ ∀ name ∈ names, name ∉ own

theorem nodup_append_iff {own names : List String} (hown : own.Nodup) :
    (own ++ names).Nodup ↔ IsApart own names := by
  rw [List.nodup_append_comm, List.nodup_append']
  exact ⟨fun h ↦ ⟨h.1, h.2.2⟩, fun h ↦ ⟨h.1, hown, h.2⟩⟩

theorem nodup_around_iff {own : List String} (hown : own.Nodup) {first last : String} :
    (first :: (own ++ [last])).Nodup ↔ IsApart own [first, last] := by
  rw [← List.perm_middle.nodup_iff]
  exact nodup_append_iff hown

section Lists

variable {m : MethodPlace} {kind : NotificationKind} {arguments : List Argument}
  {result : ResultValue} {own : List String}

open Emission

theorem listNames_append (code code' : List (String × List Piece)) :
    listNames (code ++ code') = listNames code ++ listNames code' := List.flatMap_append

theorem listNames_declaration (m : MethodPlace) (signature : Signature) :
    listNames [declaration m signature] = [parameterNames signature.parameters] := rfl

theorem parameterNames_append (arguments : List Argument) (further : List Parameter) :
    parameterNames (arguments.map Argument.parameter ++ further) =
      arguments.map (·.name) ++ further.map (·.name) := by
  simp [parameterNames, Argument.parameter]

theorem listNames_notification :
    listNames (notificationCode m kind arguments result) =
      ["userData" :: (arguments.map (·.name) ++ [result.name]),
        arguments.map (·.name) ++ ["userCB", "userData"], ["userCB"]] := by
  have hcallback := parameterNames_append arguments [result.parameter]
  have hregister := parameterNames_append arguments
    [⟨Notification.callbackName m kind, "userCB"⟩, Notification.userData]
  change ["userData" :: parameterNames (arguments.map Argument.parameter ++ [result.parameter]),
    parameterNames (arguments.map Argument.parameter ++
      [⟨Notification.callbackName m kind, "userCB"⟩, Notification.userData]), ["userCB"]] = _
  rw [hcallback, hregister]
  rfl

/-- The further names in the callback of a notification and in the function that registers it. -/
def noticeNames (result : List String) : List (List String) :=
  ["userData" :: result, ["userCB", "userData"]]

theorem nodup_notification (hown : (arguments.map (·.name)).Nodup) :
    (∀ names ∈ listNames (notificationCode m kind arguments result), names.Nodup) ↔
      ∀ names ∈ noticeNames [result.name], IsApart (arguments.map (·.name)) names := by
  rw [listNames_notification]
  simp only [noticeNames, List.forall_mem_cons, List.not_mem_nil, false_implies, implies_true,
    and_true, nodup_around_iff hown, nodup_append_iff hown, List.nodup_singleton]

def propertyNames (isSettable notifies : Bool) (result : List String) : List (List String) :=
  [result] ++ (if isSettable then [["value"]] else []) ++
    if notifies then noticeNames result else []

theorem nodup_property {isSettable notifies : Bool} (hown : (arguments.map (·.name)).Nodup) :
    (∀ names ∈ listNames (propertyCode m isSettable notifies arguments result), names.Nodup) ↔
      ∀ names ∈ propertyNames isSettable notifies [result.name],
        IsApart (arguments.map (·.name)) names := by
  have hfunction : ∀ (signature : Signature) (further : Parameter),
      signature.parameters = arguments.map Argument.parameter ++ [further] →
        ((∀ names ∈ listNames [declaration m signature], names.Nodup) ↔
          IsApart (arguments.map (·.name)) [further.name]) := by
    intro signature further h
    rw [listNames_declaration, List.forall_mem_singleton, h, parameterNames_append]
    exact nodup_append_iff hown
  have hgetter : (∀ names ∈ listNames [declaration m (Call.getterSignature m arguments result)],
      names.Nodup) ↔ IsApart (arguments.map (·.name)) [result.name] :=
    hfunction _ result.outParameter rfl
  have hsetter : (∀ names ∈ listNames [declaration m (Call.setterSignature m arguments result)],
      names.Nodup) ↔ IsApart (arguments.map (·.name)) ["value"] :=
    hfunction _ (Call.newValue result).parameter rfl
  have hempty : listNames [] = [] := rfl
  unfold propertyCode propertyNames
  rw [listNames_append, listNames_append]
  cases isSettable <;> cases notifies <;>
    simp only [List.forall_mem_append, if_true, if_false, Bool.false_eq_true, hgetter, hsetter,
      nodup_notification hown, hempty, List.forall_mem_singleton, List.not_mem_nil, false_implies,
      implies_true, and_true]

theorem nodup_plain {found : Option ResultValue} (hown : (arguments.map (·.name)).Nodup) :
    (∀ names ∈ listNames [declaration m (Call.plainSignature m arguments found)], names.Nodup) ↔
      IsApart (arguments.map (·.name)) ((Call.outParameters found).map (·.name)) := by
  rw [listNames_declaration, List.forall_mem_singleton]
  unfold Call.plainSignature
  rw [parameterNames_append]
  exact nodup_append_iff hown

theorem nodup_pull (m : MethodPlace) (response request : NativeType) :
    ∀ names ∈ listNames (pullCode m response request), names.Nodup := by
  have hlists : listNames (pullCode m response request) =
      [["result"], ["userData", "request"], ["userCB", "userData"], ["userCB"]] := rfl
  rw [hlists]
  decide

end Lists

/-! ## Methods -/

namespace Emission

variable {cx : Context} {budget : Nat} {m : MethodPlace} {runtime : Runtime}

theorem lasts_introduces (cx : Context) (budget : Nat) (document : Document) :
    Lasts freeRules (fun _ ↦ Output.Introduces cx.runtime document.title []) (fun _ ↦ False)
      (.ofBudget cx budget) fun v _ ↦ v.document = document where
  stable _ _ _ h _ := h
  allows _ := trivial
  congr := (Output.merges_introduces _ _).congr
  insert _ h := h.elim
  mapValue {v _} hv := by
    subst hv
    refine keeps_mapValue_of (Output.merges_introduces _ _) (fun h ↦ ⟨h.declares, nofun⟩)
      fun h ↦ ⟨h.output_all.imp ?_, nofun⟩
    rintro _ symbol code rfl
    exact trivial

variable {output output' : Output} {session session' : Session}

/-- A run that keeps or brings a property leads to an output with it. -/
theorem Brings.holds {α : Type} {good good' : Output → Prop} {emission : Emission α} {value : α}
    (h : Brings good good' emission) (hgood : good output)
    (hrun : emission output session = some (.ok (value, output'), session')) : good' output' :=
  (h output hrun trivial hgood).2.2

theorem mapParams_introduces {params : List Param} {position : Nat} :
    Brings (Output.Introduces cx.runtime m.document.title [])
      (Output.Introduces cx.runtime m.document.title [])
      (mapParams (.ofBudget cx budget) m position params) :=
  keeps_mapParams (lasts_introduces cx budget m.document) fun _ _ _ ↦ rfl

theorem mapResult_introduces :
    Brings (Output.Introduces cx.runtime m.document.title [])
      (Output.Introduces cx.runtime m.document.title []) (mapResult (.ofBudget cx budget) m) :=
  keeps_mapResult (lasts_introduces cx budget m.document) fun _ _ ↦ rfl

theorem requireResult_introduces :
    Brings (Output.Introduces cx.runtime m.document.title [])
      (Output.Introduces cx.runtime m.document.title [])
      (requireResult (.ofBudget cx budget) m) :=
  keeps_requireResult (lasts_introduces cx budget m.document) fun _ _ ↦ rfl

theorem federated_introduces (ending : String) :
    Brings (Output.Introduces cx.runtime m.document.title [])
      (Output.Introduces cx.runtime m.document.title [])
      (Pull.federated (.ofBudget cx budget) m ending) :=
  (lasts_introduces cx budget m.document).mapValue (v := ⟨m.document,
    .ofKind (.reference (m.document.definitionRef (m.methodName ++ ending))),
    m.methodName ++ ending, m.path⟩) rfl

end Emission

namespace MethodPlace

open Emission

variable {cx : Context} {budget : Nat} {m : MethodPlace} {runtime : Runtime} {output : Output}
  {session session' : Session}

/-- The names of further parameters in each function and callback that takes the parameters of the
method: how the result is called, unless it is told by the status, and names of their own. -/
def beside (m : MethodPlace) : List (List String) :=
  let result := m.method.result.toList
  match MethodClass.of m.method with
  | .property isSettable notifies => propertyNames isSettable notifies (result.map (·.name))
  | .event => noticeNames (result.map (·.name))
  | .polymorphicPull => []
  | .temporalSet => []
  | .polymorphicReducer | .plain =>
    [(result.filter fun r ↦ !ResultValue.isSuccessSchema r.name r.schema).map (·.name)]

theorem introduces_empty : ({} : Output).Introduces cx.runtime m.document.title [] :=
  (Output.merges_introduces _ _).empty

theorem outParameters_names {found : Option ResultValue} {result : Option MethodResult}
    (h : found.map (fun r ↦ (r.name, r.isSuccess)) = result.map fun r ↦
      (r.name, ResultValue.isSuccessSchema r.name r.schema)) :
    (Call.outParameters found).map (·.name) =
      (result.toList.filter fun r ↦ !ResultValue.isSuccessSchema r.name r.schema).map
        (·.name) := by
  cases found with
  | none =>
    cases result with
    | none => rfl
    | some result => cases h
  | some found =>
    cases result with
    | none => cases h
    | some result =>
      obtain ⟨hname, hsuccess⟩ := Prod.mk.inj (Option.some.inj h)
      cases hcase : ResultValue.isSuccessSchema result.name result.schema <;>
        simp [Call.outParameters, ResultValue.outParameter, hname, hsuccess, hcase]

/-- The names of the arguments are distinct if those of the parameters are. -/
theorem mapParams_maps {arguments : List Argument} {output' : Output}
    (hparams : (m.method.params.map (·.name)).Nodup)
    (h : mapParams (.ofBudget cx budget) m 0 m.method.params output session =
      some (.ok (arguments, output'), session')) :
    (arguments.map (·.name)).Nodup ∧
      ∀ name, name ∈ arguments.map (·.name) ↔ m.Maps cx m.method.params name := by
  have hsublist := (mapParams_sublist h).map Prod.fst
  rw [List.map_map, List.map_map] at hsublist
  have hnames := mapParams_names h
  simp only [Nat.zero_add] at hnames
  exact ⟨hparams.sublist hsublist, hnames⟩

theorem nodup_of_plain (hparams : (m.method.params.map (·.name)).Nodup)
    (h : Call.plain (.ofBudget cx budget) runtime m {} session =
      some (.ok ((), output), session')) :
    ∃ own : List String, (∀ name, name ∈ own ↔ m.Maps cx m.method.params name) ∧
      ((∀ parameters ∈ output.parameterLists, (parameterNames parameters).Nodup) ↔
        ∀ names ∈ [(m.method.result.toList.filter fun r ↦
          !ResultValue.isSuccessSchema r.name r.schema).map (·.name)], IsApart own names) := by
  obtain ⟨arguments, _, _, harguments, hrest⟩ := Emission.bind_eq_ok.1 h
  obtain ⟨found, _, _, hresult, hrest⟩ := Emission.bind_eq_ok.1 hrest
  obtain ⟨hown, hnames⟩ := mapParams_maps hparams harguments
  have hstart := mapResult_introduces.holds (mapParams_introduces.holds introduces_empty harguments)
    hresult
  have houtput : output.Introduces cx.runtime m.document.title
      [declaration m (Call.plainSignature m arguments found)] :=
    (brings_function List.not_mem_nil).holds hstart hrest
  refine ⟨arguments.map (·.name), hnames, ?_⟩
  rw [houtput.nodup_iff, nodup_plain hown, outParameters_names (mapResult_eq hresult),
    List.forall_mem_singleton]

/-- What a property or an event has before its functions come in. -/
theorem exists_prepared {next : List Argument → ResultValue → Emission Unit}
    (hparams : (m.method.params.map (·.name)).Nodup)
    (h : (do
      let arguments ← mapParams (.ofBudget cx budget) m 0 m.method.params
      let result ← requireResult (.ofBudget cx budget) m
      next arguments result) {} session = some (.ok ((), output), session')) :
    ∃ arguments result before between, (arguments.map (·.name)).Nodup ∧
      (∀ name, name ∈ arguments.map (·.name) ↔ m.Maps cx m.method.params name) ∧
      m.method.result.toList.map (·.name) = [result.name] ∧
      before.Introduces cx.runtime m.document.title [] ∧
      next arguments result before between = some (.ok ((), output), session') := by
  obtain ⟨arguments, _, _, harguments, hrest⟩ := Emission.bind_eq_ok.1 h
  obtain ⟨found, before, between, hresult, hnext⟩ := Emission.bind_eq_ok.1 hrest
  obtain ⟨hown, hnames⟩ := mapParams_maps hparams harguments
  have hname : m.method.result.toList.map (·.name) = [found.name] := by
    rw [← Option.toList_map, requireResult_eq hresult]
    rfl
  exact ⟨arguments, found, before, between, hown, hnames, hname,
    requireResult_introduces.holds (mapParams_introduces.holds introduces_empty harguments)
      hresult, hnext⟩

theorem nodup_of_property {isSettable notifies : Bool}
    (hparams : (m.method.params.map (·.name)).Nodup)
    (h : m.property (.ofBudget cx budget) runtime isSettable notifies {} session =
      some (.ok ((), output), session')) :
    ∃ own : List String, (∀ name, name ∈ own ↔ m.Maps cx m.method.params name) ∧
      ((∀ parameters ∈ output.parameterLists, (parameterNames parameters).Nodup) ↔
        ∀ names ∈ propertyNames isSettable notifies (m.method.result.toList.map (·.name)),
          IsApart own names) := by
  obtain ⟨arguments, result, _, _, hown, hnames, hresult, hstart, hnext⟩ :=
    exists_prepared hparams h
  have houtput := brings_property.holds hstart hnext
  refine ⟨arguments.map (·.name), hnames, ?_⟩
  rw [houtput.nodup_iff, nodup_property hown, hresult]

theorem nodup_of_event (hparams : (m.method.params.map (·.name)).Nodup)
    (h : m.event (.ofBudget cx budget) runtime {} session = some (.ok ((), output), session')) :
    ∃ own : List String, (∀ name, name ∈ own ↔ m.Maps cx m.method.params name) ∧
      ((∀ parameters ∈ output.parameterLists, (parameterNames parameters).Nodup) ↔
        ∀ names ∈ noticeNames (m.method.result.toList.map (·.name)), IsApart own names) := by
  obtain ⟨arguments, result, _, _, hown, hnames, hresult, hstart, hnext⟩ :=
    exists_prepared hparams h
  have houtput := (brings_notification List.not_mem_nil List.not_mem_nil).holds hstart hnext
  refine ⟨arguments.map (·.name), hnames, ?_⟩
  rw [houtput.nodup_iff, List.nil_append, nodup_notification hown, hresult]

/-- No function of a pulled result takes a parameter of the method. -/
theorem nodup_of_pull
    (h : (do
      let response ← Pull.federated (.ofBudget cx budget) m "FederatedResponse"
      let request ← Pull.federated (.ofBudget cx budget) m "FederatedRequest"
      Pull.emitFunctions runtime m response request) {} session =
        some (.ok ((), output), session')) :
    ∀ parameters ∈ output.parameterLists, (parameterNames parameters).Nodup := by
  obtain ⟨response, _, _, hresponse, hrest⟩ := Emission.bind_eq_ok.1 h
  obtain ⟨request, _, _, hrequest, hrest⟩ := Emission.bind_eq_ok.1 hrest
  have hstart := (federated_introduces _).holds
    ((federated_introduces _).holds introduces_empty hresponse) hrequest
  have houtput := brings_pull.holds hstart hrest
  exact houtput.nodup_iff.2 (nodup_pull m response request)

theorem forall_apart_iff {params : List Param} {own : List String} {further : List (List String)}
    (hparams : m.params? = some params)
    (hown : ∀ name, name ∈ own ↔ m.Maps cx params name) :
    (∀ names ∈ further, IsApart own names) ↔
      ∀ names ∈ further, names.Nodup ∧ ∀ name ∈ names, ¬m.Takes cx name := by
  have htakes : ∀ name, name ∈ own ↔ m.Takes cx name := fun name ↦ by
    rw [hown]
    constructor
    · exact fun hmaps ↦ ⟨params, hparams, hmaps⟩
    · rintro ⟨_, hsame, hmaps⟩
      cases hparams.symm.trans hsame
      exact hmaps
  simp only [IsApart, htakes]

/-- Whether parameters are distinct is said by the further names in each list. -/
theorem nodup_of_body (hparams : (m.method.params.map (·.name)).Nodup)
    (h : m.body (.ofBudget cx budget) runtime {} session = some (.ok ((), output), session'))
    (hfunctions : output.HasFunctions) :
    (∀ parameters ∈ output.parameterLists, (parameterNames parameters).Nodup) ↔
      ∀ names ∈ m.beside, names.Nodup ∧ ∀ name ∈ names, ¬m.Takes cx name := by
  unfold body at h
  unfold beside
  cases hclass : MethodClass.of m.method with
  | property isSettable notifies =>
    rw [hclass] at h
    obtain ⟨own, hown, hiff⟩ := nodup_of_property hparams h
    rw [hiff]
    exact forall_apart_iff (by rw [params?, hclass]) hown
  | event =>
    rw [hclass] at h
    obtain ⟨own, hown, hiff⟩ := nodup_of_event hparams h
    rw [hiff]
    exact forall_apart_iff (by rw [params?, hclass]) hown
  | polymorphicPull =>
    rw [hclass] at h
    change Pull.emit (.ofBudget cx budget) runtime m {} session = _ at h
    unfold Pull.emit at h
    cases hresult : m.method.param? "result" with
    | none =>
      rw [hresult] at h
      cases h
      exact nomatch hfunctions.1
    | some result =>
      rw [hresult] at h
      exact iff_of_true (nodup_of_pull h) nofun
  | polymorphicReducer =>
    rw [hclass] at h
    have hreduced : (m.method.reduced.params.map (·.name)).Nodup := List.nodup_singleton _
    obtain ⟨own, hown, hiff⟩ :=
      nodup_of_plain (m := { m with method := m.method.reduced }) hreduced h
    rw [hiff]
    exact forall_apart_iff (by rw [params?, hclass]) hown
  | temporalSet =>
    rw [hclass] at h
    cases h
    exact nomatch hfunctions.1
  | plain =>
    rw [hclass] at h
    obtain ⟨own, hown, hiff⟩ := nodup_of_plain hparams h
    rw [hiff]
    exact forall_apart_iff (by rw [params?, hclass]) hown

/-- In the header of a method with distinct parameters, all functions and callbacks have distinct
parameters exactly if, unless the method is left out, further names are distinct in each list and
no parameter that has a type is called like one of them. -/
theorem parameter_names_distinct_iff (m : MethodPlace)
    (hparams : (m.method.params.map (·.name)).Nodup)
    (h : m.emit (.ofBudget cx budget) runtime session = some (.ok output, session')) :
    (∀ parameters ∈ output.parameterLists, (parameterNames parameters).Nodup) ↔
      (output.HasFunctions →
        ∀ names ∈ m.beside, names.Nodup ∧ ∀ name ∈ names, ¬m.Takes cx name) := by
  have hnotice : ∀ diagnostic, output = .ofDiagnostic diagnostic →
      ((∀ parameters ∈ output.parameterLists, (parameterNames parameters).Nodup) ↔
        (output.HasFunctions →
          ∀ names ∈ m.beside, names.Nodup ∧ ∀ name ∈ names, ¬m.Takes cx name)) := by
    rintro diagnostic rfl
    exact iff_of_true nofun fun hfunctions ↦ nomatch hfunctions.1
  obtain hbody | ⟨failure, _, -, -, houtput⟩ := emit_eq_ok h
  · obtain hfunctions | ⟨diagnostic, -, houtput⟩ := body_hasFunctions hbody
    · rw [imp_iff_right hfunctions]
      exact nodup_of_body hparams hbody hfunctions
    · exact hnotice diagnostic houtput
  · exact hnotice _ houtput

end MethodPlace

/-! ## A parameter called like the new value -/

namespace ValueParameter

/-- A property with one parameter of this name. -/
def lamp (parameter : String) : Document where
  uri := "Lamp"
  title := "Lamp"
  family := .api
  definitionsRoot := "#/components/schemas"
  definitions := []
  methods := [⟨"level", none, [⟨parameter, true, none, .ofKind (.primitive .integer none)⟩],
    some ⟨"level", .ofKind (.primitive .integer none)⟩, ["property"]⟩]
  content := .object []

def level (parameter : String) : MethodPlace :=
  ⟨lamp parameter, 0, (lamp parameter).methods.head (by simp [lamp])⟩

def cx (parameter : String) : Context := ⟨⟨[lamp parameter]⟩, {}⟩

def emitted (parameter : String) : Option (Except Failure Output × Session) :=
  (level parameter).emit (.ofBudget (cx parameter) 4) {} {}

/-- Names in the parameter lists of the getter, the setter, the callback, and the functions that
register and unregister it. -/
def names (parameter : String) : List (List String) := [
  [parameter, "level"], [parameter, "value"], ["userData", parameter, "level"],
  [parameter, "userCB", "userData"], ["userCB"]]

theorem run_value : (emitted "value").any (fun run ↦ run.1.toOption.any fun output ↦
    output.parameterLists.map parameterNames == names "value" &&
    (output.find? .prototypes "Lamp_SetLevel").any (·.text ==
      "/* level */\nuint32_t Lamp_SetLevel(int32_t value, int32_t value);\n")) = true := by
  decide +kernel

theorem run_room : (emitted "room").any (fun run ↦ run.1.toOption.any fun output ↦
    output.parameterLists.map parameterNames == names "room" &&
    !output.prototypes.isEmpty && !output.implementations.isEmpty) = true := by
  decide +kernel

/-- The setter takes its parameter and the new value under one name. -/
theorem value_is_taken_twice : ∃ output session,
    (level "value").emit (.ofBudget (cx "value") 4) {} {} = some (.ok output, session) ∧
    ((level "value").method.params.map (·.name)).Nodup ∧
    (output.find? .prototypes "Lamp_SetLevel").map (·.text) = some
      "/* level */\nuint32_t Lamp_SetLevel(int32_t value, int32_t value);\n" ∧
    ∃ parameters ∈ output.parameterLists, ¬(parameterNames parameters).Nodup := by
  obtain ⟨output, session, hrun, hcheck⟩ := exists_ok_of_any run_value
  rw [Bool.and_eq_true, beq_iff_eq] at hcheck
  obtain ⟨code, hcode, htext⟩ := (Option.any_eq_true _ _).1 hcheck.2
  have hmem : ["value", "value"] ∈ output.parameterLists.map parameterNames := by
    rw [hcheck.1]
    decide
  obtain ⟨parameters, hparameters, hnames⟩ := List.mem_map.1 hmem
  refine ⟨output, session, hrun, List.nodup_singleton _, ?_, parameters, hparameters, ?_⟩
  · rw [hcode, Option.map_some, beq_iff_eq.1 htext]
  · rw [hnames]
    decide

/-- A parameter of another name than the result and the further parameters is taken by functions
with distinct parameters. -/
theorem room_is_apart : ∃ output session,
    (level "room").emit (.ofBudget (cx "room") 4) {} {} = some (.ok output, session) ∧
    output.parameterLists.map parameterNames = names "room" ∧ output.HasFunctions ∧
    ∀ names ∈ (level "room").beside,
      names.Nodup ∧ ∀ name ∈ names, ¬(level "room").Takes (cx "room") name := by
  obtain ⟨output, session, hrun, hcheck⟩ := exists_ok_of_any run_room
  simp only [Bool.and_eq_true, beq_iff_eq, Bool.not_eq_true'] at hcheck
  obtain ⟨⟨hnames, hprototypes⟩, hbodies⟩ := hcheck
  have hdistinct : ∀ parameters ∈ output.parameterLists, (parameterNames parameters).Nodup := by
    rw [← @List.forall_mem_map _ _ _ _ List.Nodup, hnames]
    decide
  have hiff := MethodPlace.parameter_names_distinct_iff (level "room") (List.nodup_singleton _) hrun
  exact ⟨output, session, hrun, hnames, ⟨hprototypes, hbodies⟩,
    hiff.1 hdistinct ⟨hprototypes, hbodies⟩⟩

end ValueParameter

end SchemaBindings
