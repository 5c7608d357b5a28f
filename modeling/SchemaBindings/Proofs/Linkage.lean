import SchemaBindings.Proofs.Assembly
import SchemaBindings.Proofs.Signatures

/-!
# Prototypes and bodies

What the header of a document declares, its implementation defines. The types of an output stand in
both in the same order, and the functions of a type are written from the same signatures in both.
The functions of methods are looked at symbol by symbol, since callbacks stand in the header alone
and functions that only their file sees in the implementation alone. Between the prototype and the
body of a method other code may come in, but none under the symbol that waits for its body: code of
different kinds already differs in its first character.
-/

namespace SchemaBindings

open Code Mapping

/-! ## Outputs -/

/-- The header and the implementation that an output makes fit together: types stand in both, and
of functions `F` says how what is declared under a symbol belongs to what is defined there. -/
structure Output.Fits (F : String → Option Fragment → Option Fragment → Prop)
    (output : Output) : Prop where
  types : Fragments.Correspond TypeCode output.declarations output.definitions
  enumerations : Fragments.Correspond EnumerationCode output.enums output.conversions
  functions : ∀ symbol, F symbol (output.find? .prototypes symbol)
    (output.find? .implementations symbol)
  prototypes_nodup : output.prototypes.symbols.Nodup
  implementations_nodup : output.implementations.symbols.Nodup

/-- Every function that the output declares is defined by it, and the other way round. -/
abbrev Output.IsLinked (output : Output) : Prop := output.Fits fun _ ↦ Linked

namespace Output.Fits

variable {F F' : String → Option Fragment → Option Fragment → Prop} {output other result : Output}
  {symbol path : String} {pieces : List Piece}

theorem congr (h : output.Fits F) (heq : ∀ place, other.get place = output.get place) :
    other.Fits F := by
  have hfind : ∀ place symbol, other.find? place symbol = output.find? place symbol :=
    fun place symbol ↦ congrArg (·.get? symbol) (heq place)
  constructor
  · rw [show other.declarations = _ from heq .declarations,
      show other.definitions = _ from heq .definitions]
    exact h.types
  · rw [show other.enums = _ from heq .enums, show other.conversions = _ from heq .conversions]
    exact h.enumerations
  · intro symbol
    rw [hfind, hfind]
    exact h.functions symbol
  · rw [show other.prototypes = _ from heq .prototypes]
    exact h.prototypes_nodup
  · rw [show other.implementations = _ from heq .implementations]
    exact h.implementations_nodup

theorem of_empty (h : ∀ place, output.get place = {}) : output.IsLinked := by
  have hempty : ({} : Output).IsLinked :=
    ⟨.nil, .nil, fun _ ↦ linked_none, List.nodup_nil, List.nodup_nil⟩
  exact hempty.congr fun place ↦ by
    rw [h place]
    cases place <;> rfl

theorem merge (h : output.IsLinked) (hother : other.IsLinked)
    (hmerge : (output.merge other path).toExcept = .ok result) : result.IsLinked := by
  have hget : ∀ place, ((output.get place).merge (other.get place) path).failure = none ∧
      result.get place = ((output.get place).merge (other.get place) path).value :=
    merge_get hmerge
  have hsame : ∀ {place : Section} {symbol : String}, ∀ code ∈ output.find? place symbol,
      ∀ code' ∈ other.find? place symbol, code.text = code'.text :=
    fun _ hcode _ hcode' ↦ Fragments.text_eq_of_merge (hget _).1 hcode hcode'
  constructor
  · rw [show result.declarations = _ from (hget .declarations).2,
      show result.definitions = _ from (hget .definitions).2]
    exact h.types.merge hother.types (hget .declarations).1 (hget .definitions).1
  · rw [show result.enums = _ from (hget .enums).2,
      show result.conversions = _ from (hget .conversions).2]
    exact h.enumerations.merge hother.enumerations (hget .enums).1 (hget .conversions).1
  · intro symbol
    obtain ⟨-, -, hfind⟩ := merge_eq_ok hmerge
    rw [hfind, hfind]
    exact (h.functions symbol).or (hother.functions symbol) hsame hsame
  · rw [show result.prototypes = _ from (hget .prototypes).2]
    exact Fragments.nodup_merge h.prototypes_nodup (hget .prototypes).1
  · rw [show result.implementations = _ from (hget .implementations).2]
    exact Fragments.nodup_merge h.implementations_nodup (hget .implementations).1

theorem insertPrototype (h : output.Fits F)
    (hinsert : (output.insert .prototypes symbol pieces path).toExcept = .ok result)
    (hother : ∀ other declared defined, other ≠ symbol → F other declared defined →
      F' other declared defined)
    (hsymbol : ∀ declared defined, F symbol declared defined →
      (∀ existing ∈ declared, existing.text = (Fragment.ofPieces pieces).text) →
        F' symbol (declared.or (some (.ofPieces pieces))) defined) : result.Fits F' := by
  obtain ⟨-, -, hfind⟩ := insert_eq_ok hinsert
  obtain ⟨hfailure, rfl⟩ := insert_eq_set hinsert
  refine ⟨h.types, h.enumerations, fun other ↦ ?_, Fragments.nodup_insert h.prototypes_nodup,
    h.implementations_nodup⟩
  rw [hfind, hfind]
  simp only [reduceCtorEq, false_and, if_false, true_and, Option.or_none]
  by_cases hsame : symbol = other
  · subst hsame
    rw [if_pos rfl]
    exact hsymbol _ _ (h.functions symbol) fun existing hexisting ↦
      Fragments.text_eq_of_insert hfailure hexisting
  · rw [if_neg hsame, Option.or_none]
    exact hother _ _ _ (Ne.symm hsame) (h.functions other)

theorem insertBody (h : output.Fits F)
    (hinsert : (output.insert .implementations symbol pieces path).toExcept = .ok result)
    (hother : ∀ other declared defined, other ≠ symbol → F other declared defined →
      F' other declared defined)
    (hsymbol : ∀ declared defined, F symbol declared defined →
      (∀ existing ∈ defined, existing.text = (Fragment.ofPieces pieces).text) →
        F' symbol declared (defined.or (some (.ofPieces pieces)))) : result.Fits F' := by
  obtain ⟨-, -, hfind⟩ := insert_eq_ok hinsert
  obtain ⟨hfailure, rfl⟩ := insert_eq_set hinsert
  refine ⟨h.types, h.enumerations, fun other ↦ ?_, h.prototypes_nodup,
    Fragments.nodup_insert h.implementations_nodup⟩
  rw [hfind, hfind]
  simp only [reduceCtorEq, false_and, if_false, true_and, Option.or_none]
  by_cases hsame : symbol = other
  · subst hsame
    rw [if_pos rfl]
    exact hsymbol _ _ (h.functions symbol) fun existing hexisting ↦
      Fragments.text_eq_of_insert hfailure hexisting
  · rw [if_neg hsame, Option.or_none]
    exact hother _ _ _ (Ne.symm hsame) (h.functions other)

theorem addHandle (h : output.Fits F) {handle : String} {groups : List AccessorGroup}
    (hadd : Native.addHandle output handle groups path = .ok result) : result.Fits F := by
  obtain ⟨between, hdeclared, hdefined⟩ := Native.addHandle_inserts hadd
  obtain ⟨hfailure, rfl⟩ := insert_eq_set hdeclared
  obtain ⟨hfailure', rfl⟩ := insert_eq_set hdefined
  exact ⟨h.types.insert ⟨groups, rfl, rfl⟩ hfailure hfailure', h.enumerations, h.functions,
    h.prototypes_nodup, h.implementations_nodup⟩

end Output.Fits

/-! ## Types -/

namespace Output

theorem merges_isLinked : Merges IsLinked where
  empty := .of_empty fun place ↦ by cases place <;> rfl
  congr h heq _ := h.congr heq
  merge := Fits.merge

theorem keepsTypes_isLinked (cx : Context) : KeepsTypes cx IsLinked where
  enumeration _ := ⟨.nil, Fragments.correspond_single ⟨_, rfl, rfl⟩, fun _ ↦ linked_none,
    List.nodup_nil, List.nodup_nil⟩
  handle h hadd := h.addHandle hadd
  container h hinsert := by
    obtain ⟨-, rfl⟩ := insert_eq_set hinsert
    exact ⟨h.types, h.enumerations, h.functions, h.prototypes_nodup, h.implementations_nodup⟩
  external _ _ := .of_empty fun place ↦ by cases place <;> rfl

end Output

/-! ## Methods -/

namespace Emission

variable {α β : Type} {F F' F'' : String → Option Fragment → Option Fragment → Prop}

/-- From outputs that fit in one way the emission only comes to outputs that fit in another way. -/
def Turns (F F' : String → Option Fragment → Option Fragment → Prop) (emission : Emission α) :
    Prop :=
  ∀ output, Obeys freeRules (fun _ ↦ output.Fits F) (emission output) fun _ run ↦ run.2.Fits F'

theorem Turns.bind {emission : Emission α} {next : α → Emission β} (h : Turns F F' emission)
    (hnext : ∀ value, Turns F' F'' (next value)) : Turns F F'' (emission >>= next) :=
  fun output ↦ (h output).bind fun run ↦ hnext run.1 run.2

theorem turns_insert {place : Section} {symbol path : String} {pieces : List Piece}
    (h : ∀ output result : Output, (output.insert place symbol pieces path).toExcept = .ok result →
      output.Fits F → result.Fits F') : Turns F F' (insert place symbol pieces path) := by
  intro output
  unfold Emission.insert
  rw [get_bind]
  exact lift_bind (free_ofExcept fun result hresult _ hstart ↦ h output result hresult hstart)
    fun result ↦ obeys_pure fun _ _ hstart ↦ hstart

/-- All symbols are linked but for the one that waits for the bodies of its functions. -/
def AwaitsAt (pending : String) (signatures : List Signature) (symbol : String)
    (declared defined : Option Fragment) : Prop :=
  if symbol = pending then Awaits signatures declared defined else Linked declared defined

variable {m : MethodPlace} {symbol path : String} {pieces : List Piece}

theorem turns_callback {callback : Callback} :
    Turns (fun _ ↦ Linked) (fun _ ↦ Linked)
      (insert .prototypes symbol [.callback callback] path) :=
  turns_insert fun _ _ hinsert hfits ↦ hfits.insertPrototype hinsert (fun _ _ _ _ h ↦ h)
    fun _ _ h hsame ↦ h.addCallback ⟨callback, rfl⟩ hsame

theorem turns_prototypes {title : String} {description : Option String}
    (signatures : List Signature) :
    Turns (fun _ ↦ Linked) (AwaitsAt symbol signatures)
      (insert .prototypes symbol
        (.comment (Code.comment title description) :: signatures.map .prototype) path) := by
  refine turns_insert fun _ _ hinsert hfits ↦ hfits.insertPrototype hinsert ?_ ?_
  · intro other declared defined hother h
    exact (if_neg hother).mpr h
  · intro declared defined h hsame
    exact (if_pos rfl).mpr (h.addPrototypes ⟨title, description, rfl⟩ hsame)

theorem turns_static {pending : String} {signatures : List Signature}
    (hstatic : (Fragment.ofPieces pieces).IsStatic) :
    Turns (AwaitsAt pending signatures) (AwaitsAt pending signatures)
      (insert .implementations symbol pieces path) := by
  refine turns_insert fun _ _ hinsert hfits ↦ hfits.insertBody hinsert (fun _ _ _ _ h ↦ h) ?_
  intro declared defined h hsame
  unfold AwaitsAt at h ⊢
  split at h
  · exact (if_pos ‹_›).mpr (h.addStatic hstatic hsame)
  · exact (if_neg ‹_›).mpr (h.addStatic hstatic hsame)

theorem turns_bodies {title : String} {description : Option String} (routines : List Routine) :
    Turns (AwaitsAt symbol (routines.map Routine.signature)) (fun _ ↦ Linked)
      (insert .implementations symbol
        (.comment (Code.comment title description) :: routines.map .routine) path) := by
  refine turns_insert fun _ _ hinsert hfits ↦ hfits.insertBody hinsert ?_ ?_
  · intro other declared defined hother h
    exact (if_neg hother).mp h
  · intro declared defined h hsame
    have hawaits : Awaits (routines.map Routine.signature) declared defined := (if_pos rfl).mp h
    exact hawaits.addBodies ⟨title, description, rfl⟩ hsame

variable {runtime : Runtime}

theorem turns_metricsJob {pending : String} {signatures : List Signature} :
    Turns (AwaitsAt pending signatures) (AwaitsAt pending signatures)
      (metricsJob runtime m) := by
  have hpure : ∀ lines : Lines, Turns (AwaitsAt pending signatures) (AwaitsAt pending signatures)
      (pure lines : Emission Lines) := fun _ _ ↦ obeys_pure fun _ _ h ↦ h
  unfold metricsJob
  split
  · have hmodify : Turns (AwaitsAt pending signatures) (AwaitsAt pending signatures)
        (modify fun output ↦ { output with usesMetrics := true }) :=
      fun _ ↦ obeys_pure fun _ _ h ↦ h.congr fun place ↦ by cases place <;> rfl
    exact hmodify.bind fun _ ↦
      (turns_static (Fragment.isStatic_dispatcher _ _)).bind fun _ ↦ hpure _
  · exact hpure []

theorem turns_addPrototype (signature : Signature) :
    Turns (fun _ ↦ Linked) (AwaitsAt signature.name [signature])
      (Call.addPrototype m signature) :=
  turns_prototypes [signature]

theorem turns_addFunction (signature : Signature) (body : Lines) :
    Turns (AwaitsAt signature.name [signature]) (fun _ ↦ Linked)
      (Call.addFunction m signature body) :=
  turns_bodies [⟨signature, body⟩]

/-- A function is declared, the report to the metrics module comes in, and the body follows. -/
theorem turns_function {signature : Signature} {body : Lines → Lines} :
    Turns (fun _ ↦ Linked) (fun _ ↦ Linked) (do
      Call.addPrototype m signature
      let metrics ← metricsJob runtime m
      Call.addFunction m signature (body metrics)) :=
  (turns_addPrototype signature).bind fun _ ↦ turns_metricsJob.bind fun _ ↦
    turns_addFunction signature _

/-- Two functions that register and unregister a callback are declared, and what they hand over
comes in before their bodies. -/
theorem turns_registration (register unregister : Routine) {static : String} {code : Piece}
    {text : String} (hstatic : (Fragment.ofPieces [code]).IsStatic) :
    Turns (fun _ ↦ Linked) (fun _ ↦ Linked) (do
      insert .prototypes register.signature.name [m.commentWith text,
        .prototype register.signature, .prototype unregister.signature] m.path
      insert .implementations static [code] m.path
      insert .implementations register.signature.name
        [m.commentWith text, .routine register, .routine unregister] m.path) :=
  (turns_prototypes [register.signature, unregister.signature]).bind fun _ ↦
    (turns_static hstatic).bind fun _ ↦ turns_bodies [register, unregister]

/-- Every function of a method gets its body. -/
theorem functions_linked (mappers : Mappers) (runtime : Runtime) (m : MethodPlace) :
    KeepsFunctions freeRules (fun _ output ↦ output.IsLinked) mappers runtime m where
  plain _ _ hparams hresult := hparams.bind fun _ ↦ hresult.bind fun _ ↦ turns_function
  getter _ _ := turns_function
  setter _ _ := turns_function
  notification kind arguments _ :=
    turns_callback.bind fun _ ↦ turns_registration
      ⟨Notification.registerSignature m kind arguments, _⟩
      ⟨Notification.unregisterSignature m kind, _⟩ (Fragment.isStatic_trampoline _)
  pulled _ _ :=
    (turns_addPrototype _).bind fun _ ↦ turns_metricsJob.bind fun _ ↦
      (turns_addFunction _ _).bind fun _ ↦ turns_callback.bind fun _ ↦ turns_registration
        ⟨Pull.registerSignature m, _⟩ ⟨Pull.unregisterSignature m, _⟩
        (Fragment.isStatic_hidden _)

end Emission

/-- What is generated for a document is linked. -/
theorem Generate.documentOutput_linked {library : Library} {settings : Settings}
    {document : Document} (budget : Nat) :
    Obeys freeRules (fun _ ↦ True)
      (documentOutput (.ofBudget ⟨library, settings.runtime⟩ budget) library settings document)
      fun _ output ↦ output.IsLinked := by
  have hlasts : Emission.Lasts freeRules (fun _ output ↦ output.IsLinked) (fun _ ↦ False)
      (.ofBudget ⟨library, settings.runtime⟩ budget) fun _ _ ↦ True :=
    Emission.lasts_of_merges Output.merges_isLinked (Output.keepsTypes_isLinked _) budget
      fun _ h ↦ h.elim
  refine (documentOutput_of_merges Output.merges_isLinked hlasts (fun _ _ _ ↦ trivial) fun m _ ↦
    Emission.functions_linked _ settings.runtime m).imp (fun _ h ↦ h) ?_
  rintro _ _ ⟨whole, hwhole, rfl⟩
  exact hwhole.congr fun place ↦ by cases place <;> rfl

/-! ## Header and implementation -/

/-- The sections in the header and in the implementation that functions stand in. -/
inductive Faces : Section → Section → Prop
  | types : Faces .declarations .definitions
  | methods : Faces .prototypes .implementations

/-- What headers consist of besides comments: handles with their functions, prototypes, and types
of callbacks. -/
inductive Code.Piece.Declares : Piece → Prop
  | comment (text : String) : Declares (.comment text)
  | declared (groups : List AccessorGroup) : Declares (.declared groups)
  | prototype (s : Signature) : Declares (.prototype s)
  | callback (c : Callback) : Declares (.callback c)

/-- What implementations consist of besides comments: functions for other files to see, and code
that is static. -/
inductive Code.Piece.Defines : Piece → Prop
  | comment (text : String) : Defines (.comment text)
  | defined (groups : List AccessorGroup) : Defines (.defined groups)
  | routine (r : Routine) : Defines (.routine r)
  | static {piece : Piece} (rest : String) (h : piece.render = "static " ++ rest) : Defines piece

namespace Code

variable {declared defined : Fragment}

theorem TypeCode.prototypes_eq (h : TypeCode declared defined) :
    declared.prototypes = defined.bodies := by
  obtain ⟨groups, hdeclared, hdefined⟩ := h
  unfold Fragment.prototypes Fragment.bodies
  rw [hdeclared, hdefined]
  rfl

theorem TypeCode.declares (h : TypeCode declared defined) :
    ∀ piece ∈ declared.pieces, piece.Declares := by
  obtain ⟨groups, hpieces, -⟩ := h
  rw [hpieces]
  exact List.forall_mem_singleton.2 (.declared groups)

theorem TypeCode.defines (h : TypeCode declared defined) :
    ∀ piece ∈ defined.pieces, piece.Defines := by
  obtain ⟨groups, -, hpieces⟩ := h
  rw [hpieces]
  exact List.forall_mem_singleton.2 (.defined groups)

theorem Fragment.IsBelowComment.forall_mem {pieces : List Piece} {P : Piece → Prop}
    (h : declared.IsBelowComment pieces) (hcomment : ∀ text, P (.comment text))
    (hpieces : ∀ piece ∈ pieces, P piece) : ∀ piece ∈ declared.pieces, P piece := by
  obtain ⟨title, description, heq⟩ := h
  rw [heq]
  exact List.forall_mem_cons.2 ⟨hcomment _, hpieces⟩

theorem Fragment.IsBelowComment.prototypes_eq {signatures : List Signature}
    (h : declared.IsBelowComment (signatures.map .prototype)) :
    declared.prototypes = signatures := by
  obtain ⟨title, description, hpieces⟩ := h
  unfold Fragment.prototypes
  rw [hpieces, List.flatMap_cons, List.flatMap_map]
  exact List.flatMap_singleton' signatures

theorem Fragment.IsBelowComment.bodies_eq {routines : List Routine}
    (h : defined.IsBelowComment (routines.map .routine)) :
    defined.bodies = routines.map Routine.signature := by
  obtain ⟨title, description, hpieces⟩ := h
  unfold Fragment.bodies
  rw [hpieces, List.flatMap_cons, List.flatMap_map, List.map_eq_flatMap]
  rfl

end Code

namespace Output.Fits

variable {output : Output} {header body : Section} {symbol : String} {code : Fragment}

/-- Header code declares nothing or has its counterpart under the same symbol. -/
theorem exists_body (h : output.IsLinked) (hfaces : Faces header body)
    (hmem : (symbol, code) ∈ (output.get header).entries) :
    (∀ piece ∈ code.pieces, piece.Declares) ∧
      ∀ s ∈ code.prototypes, ∃ code', (symbol, code') ∈ (output.get body).entries ∧
        s ∈ code'.bodies := by
  cases hfaces with
  | types =>
    obtain ⟨code', hmem', hcode⟩ := h.types.exists_second hmem
    exact ⟨hcode.declares, fun s hs ↦ ⟨code', hmem', hcode.prototypes_eq ▸ hs⟩⟩
  | methods =>
    have hfound : output.find? .prototypes symbol = some code :=
      Fragments.get?_of_mem h.prototypes_nodup hmem
    have hlinked := h.functions symbol
    rw [hfound] at hlinked
    obtain ⟨_, code', routines, ⟨⟩, hdefined, hprototype, hbody⟩ | ⟨hcallback, -⟩ := hlinked
    · refine ⟨?_, fun s hs ↦ ⟨code', Table.mem_of_get?_eq_some hdefined, ?_⟩⟩
      · exact hprototype.forall_mem .comment (List.forall_mem_map.2 fun s _ ↦ .prototype s)
      · rw [hbody.bodies_eq, ← hprototype.prototypes_eq]
        exact hs
    · obtain ⟨callback, hpieces⟩ := hcallback code rfl
      unfold Fragment.prototypes
      rw [hpieces]
      exact ⟨List.forall_mem_singleton.2 (.callback callback), fun s hs ↦ nomatch hs⟩

/-- Code of the implementation is static or has its counterpart under the same symbol. -/
theorem exists_prototype (h : output.IsLinked) (hfaces : Faces header body)
    (hmem : (symbol, code) ∈ (output.get body).entries) :
    (∀ piece ∈ code.pieces, piece.Defines) ∧
      ∀ s ∈ code.bodies, ∃ code', (symbol, code') ∈ (output.get header).entries ∧
        s ∈ code'.prototypes := by
  cases hfaces with
  | types =>
    obtain ⟨code', hmem', hcode⟩ := h.types.exists_first hmem
    exact ⟨hcode.defines, fun s hs ↦ ⟨code', hmem', hcode.prototypes_eq ▸ hs⟩⟩
  | methods =>
    have hfound : output.find? .implementations symbol = some code :=
      Fragments.get?_of_mem h.implementations_nodup hmem
    have hlinked := h.functions symbol
    rw [hfound] at hlinked
    obtain ⟨code', _, routines, hdeclared, ⟨⟩, hprototype, hbody⟩ | ⟨-, hstatic⟩ := hlinked
    · refine ⟨?_, fun s hs ↦ ⟨code', Table.mem_of_get?_eq_some hdeclared, ?_⟩⟩
      · exact hbody.forall_mem .comment (List.forall_mem_map.2 fun r _ ↦ .routine r)
      · rw [hprototype.prototypes_eq, ← hbody.bodies_eq]
        exact hs
    · obtain ⟨piece, rest, hpieces, hbodies, hrender⟩ := hstatic code rfl
      unfold Fragment.bodies
      rw [hpieces, List.flatMap_singleton, hbodies]
      exact ⟨List.forall_mem_singleton.2 (.static rest hrender), fun s hs ↦ nomatch hs⟩

end Output.Fits

/-- Of a document that is generated, the types stand in the header and in the implementation in the
same order. Every prototype in the header has its body in the implementation, with the same
signature and under the same symbol, and every body that is not static has its prototype. -/
theorem prototypes_match_bodies {library : Library} {settings : Settings} {document : Document}
    {budget : Nat} {session session' : Session} {output : Output}
    (h : Generate.documentOutput (.ofBudget ⟨library, settings.runtime⟩ budget) library settings
      document session = some (.ok output, session')) :
    output.declarations.symbols = output.definitions.symbols ∧
    output.enums.symbols = output.conversions.symbols ∧
    ∀ header body, Faces header body → ∀ symbol,
      (∀ code, (symbol, code) ∈ (output.get header).entries →
        (∀ piece ∈ code.pieces, piece.Declares) ∧
        ∀ s ∈ code.prototypes, Text.Holds code.text (s.render ++ ";\n") ∧
          ∃ code', (symbol, code') ∈ (output.get body).entries ∧ s ∈ code'.bodies ∧
            Text.Holds code'.text (s.render ++ "\n\x7b\n")) ∧
      ∀ code, (symbol, code) ∈ (output.get body).entries →
        (∀ piece ∈ code.pieces, piece.Defines) ∧
        ∀ s ∈ code.bodies, Text.Holds code.text (s.render ++ "\n\x7b\n") ∧
          ∃ code', (symbol, code') ∈ (output.get header).entries ∧ s ∈ code'.prototypes ∧
            Text.Holds code'.text (s.render ++ ";\n") := by
  have hlinked : output.IsLinked := (Generate.documentOutput_linked budget h trivial trivial).2.2
  refine ⟨hlinked.types.symbols_eq, hlinked.enumerations.symbols_eq, ?_⟩
  intro header body hfaces symbol
  constructor
  · intro code hmem
    obtain ⟨hpieces, hbodies⟩ := hlinked.exists_body hfaces hmem
    refine ⟨hpieces, fun s hs ↦ ⟨Fragment.holds_prototype hs, ?_⟩⟩
    obtain ⟨code', hmem', hs'⟩ := hbodies s hs
    exact ⟨code', hmem', hs', Fragment.holds_body hs'⟩
  · intro code hmem
    obtain ⟨hpieces, hprototypes⟩ := hlinked.exists_prototype hfaces hmem
    refine ⟨hpieces, fun s hs ↦ ⟨Fragment.holds_body hs, ?_⟩⟩
    obtain ⟨code', hmem', hs'⟩ := hprototypes s hs
    exact ⟨code', hmem', hs', Fragment.holds_prototype hs'⟩

namespace DeviceModule

def mode : Node := .ofKind (.enumeration ["on", "off"])

def info : Node := .ofKind (.object (.mk (some [("mode", mode)]) none none false))

/-- A property that others are told about when it changes. -/
def method : Method :=
  ⟨"info", none, [⟨"id", true, none, .ofKind (.primitive .string none)⟩],
    some ⟨"info", .ofKind (.reference "#/components/schemas/Info")⟩, ["property"]⟩

def device : Document where
  uri := "Device"
  title := "Device"
  family := .api
  definitionsRoot := "#/components/schemas"
  definitions := [("Info", info)]
  methods := [method]
  content := .object [("components", .object [("schemas", .object [("Info", .object [
    ("type", .string "object"), ("properties", .object [("mode", .object [
      ("type", .string "string"), ("enum", .array [.string "on", .string "off"])])])])])])]

def library : Library := ⟨[device]⟩

def settings : Settings := {}

/-- What the document is generated to has one handle, and four functions for the method. -/
theorem generated :
    (Generate.documentOutput (.ofBudget ⟨library, settings.runtime⟩ 8) library settings device
      {}).any (fun run ↦ run.1.toOption.any fun output ↦
        output.declarations.symbols == ["Device_InfoHandle"] &&
        output.prototypes.symbols == ["Device_GetInfo", "Device_SetInfo",
          "OnDeviceInfoChanged", "Device_Register_InfoUpdate"]) = true := by
  decide +kernel

/-- The handle is defined, and each function that the header declares has a body. -/
theorem functions_defined : ∃ output session',
    Generate.documentOutput (.ofBudget ⟨library, settings.runtime⟩ 8) library settings device {} =
      some (.ok output, session') ∧
    output.definitions.symbols = ["Device_InfoHandle"] ∧
    output.prototypes.symbols = ["Device_GetInfo", "Device_SetInfo", "OnDeviceInfoChanged",
      "Device_Register_InfoUpdate"] ∧
    ∀ symbol code, (symbol, code) ∈ output.prototypes.entries → ∀ s ∈ code.prototypes,
      ∃ code', (symbol, code') ∈ output.implementations.entries ∧
        Text.Holds code'.text (s.render ++ "\n\x7b\n") := by
  obtain ⟨output, session', hrun, hsymbols⟩ := Mapping.exists_ok_of_any generated
  rw [Bool.and_eq_true, beq_iff_eq, beq_iff_eq] at hsymbols
  obtain ⟨htypes, -, hfunctions⟩ := prototypes_match_bodies hrun
  refine ⟨output, session', hrun, htypes ▸ hsymbols.1, hsymbols.2, ?_⟩
  intro symbol code hmem s hs
  obtain ⟨-, hbodies⟩ := (hfunctions .prototypes .implementations .methods symbol).1 code hmem
  obtain ⟨-, code', hmem', -, hholds⟩ := hbodies s hs
  exact ⟨code', hmem', hholds⟩

end DeviceModule

end SchemaBindings
