import SchemaBindings.Proofs.Construction
import SchemaBindings.Proofs.Emissions
import SchemaBindings.Proofs.Entries

/-!
# Assembling outputs

Properties of outputs that depend only on the code and on the titles of other documents. Such a
property is had by the output of every type and of every document, if the empty output has it, if
the code of each kind of type keeps it, and if it is kept when outputs are merged.
-/

namespace SchemaBindings

open Code Mapping

/-- The property depends on code and on titles of other documents only, and merging keeps it. -/
structure Output.Merges (good : Output → Prop) : Prop where
  empty : good {}
  congr : ∀ {output other}, good output → (∀ place, other.get place = output.get place) →
    other.externals = output.externals → good other
  merge : ∀ {output other result path}, good output → good other →
    (output.merge other path).toExcept = .ok result → good result

variable {cx : Context} {good : Output → Prop}

theorem Output.Merges.of_empty (hmerges : Output.Merges good) {output : Output}
    (h : ∀ place, output.get place = {}) (hexternals : output.externals = []) : good output :=
  hmerges.congr hmerges.empty (fun place ↦ by rw [h place]; cases place <;> rfl) hexternals

/-! ## Types -/

/-- The property is kept by what types consist of besides the outputs of their parts. -/
structure Output.KeepsTypes (cx : Context) (good : Output → Prop) : Prop where
  enumeration : ∀ e : Enumeration, good {
    enums := .single e.typeName (.ofPieces [.enumeration e])
    conversions := .single e.typeName (.ofPieces [.conversion e]) }
  handle : ∀ {output result handle groups path}, good output →
    Native.addHandle output handle groups path = .ok result → good result
  container : ∀ {output result symbol path} {container : Container}, good output →
    (output.insert .containers symbol [.container container] path).toExcept = .ok result →
      good result
  external : ∀ {output owner}, owner ∈ cx.library.documents → good output →
    good { externals := addNew output.externals owner.title }

variable (hmerges : Output.Merges good) (htypes : Output.KeepsTypes cx good)
  {isExternal : Bool} {document : Document}
include hmerges htypes

theorem Native.Built.output_good {type : NativeType}
    (h : Native.Built cx isExternal document type) : good type.output := by
  induction h with
  | primitive document type => cases type <;> exact hmerges.empty
  | enumeration document stem label description values =>
    exact htypes.enumeration ⟨_, label, description, values⟩
  | array _ habsorb hadd ih => exact htypes.handle (hmerges.merge hmerges.empty ih habsorb) hadd
  | object _ _ hgathered hadd ih =>
    refine htypes.handle (Failure.foldlM_induction (P := fun soFar ↦ good soFar.output)
      hmerges.empty hgathered ?_) hadd
    intro part hpart soFar next hsoFar hnext
    obtain ⟨isExternal, type, group, place, output, rfl, habsorb, rfl⟩ | ⟨notice, -, rfl⟩ :=
      Part.add_cases hnext
    · exact hmerges.merge hsoFar (ih _ _ _ _ hpart) habsorb
    · exact hmerges.congr hsoFar (Output.get_addDiagnostic _ notice) rfl
  | map _ habsorb hadd ih => exact htypes.handle (hmerges.merge hmerges.empty ih habsorb) hadd
  | external howner _ _ ih => exact htypes.external howner ih

theorem Wire.Built.output_good {type : WireType} (h : Wire.Built cx isExternal document type) :
    good type.output := by
  induction h with
  | primitive => exact hmerges.empty
  | enumeration => exact hmerges.empty
  | array _ habsorb ih => exact hmerges.merge hmerges.empty ih habsorb
  | object _ hgathered hinsert ih =>
    refine htypes.container (Failure.foldlM_induction (P := fun soFar ↦ good soFar.output)
      hmerges.empty hgathered ?_) hinsert
    intro part hpart soFar next hsoFar hnext
    obtain ⟨isExternal, property, type, place, output, rfl, habsorb, rfl⟩ | ⟨notice, -, rfl⟩ :=
      Part.add_cases hnext
    · exact hmerges.merge hsoFar (ih _ _ _ _ hpart) habsorb
    · exact hmerges.congr hsoFar (Output.get_addDiagnostic _ notice) rfl
  | map _ habsorb ih => exact hmerges.merge hmerges.empty ih habsorb
  | external howner _ _ ih => exact htypes.external howner ih

omit hmerges htypes in
/-- What every successful run of a mapping that claims stems gives is known of its value. -/
theorem Mapping.Claims.obeys_ok {α : Type} {library : Library}
    {allowed : Document → String → Prop} {mapping : Mapping α}
    (hclaims : mapping.Claims library allowed) {P : α → Prop}
    (h : ∀ session value session', mapping session = some (.ok value, session') → P value) :
    Obeys freeRules (fun _ ↦ True) mapping fun _ value ↦ P value := by
  intro session result session' hrun _ _
  refine ⟨trivial, (hclaims _ _ _ hrun).2.extends, ?_⟩
  cases result with
  | ok value => exact h _ _ _ hrun
  | error failure => exact trivial

/-! ## Methods and documents -/

namespace Emission

omit htypes in
/-- The types of the schemas that are mapped come in, on both sides. -/
theorem keeps_mapValue_of {budget : Nat} {v : Visit} {scope : String}
    (hnative : ∀ {isExternal type}, Native.Built cx isExternal v.document type → good type.output)
    (hwire : ∀ {isExternal type}, Wire.Built cx isExternal v.document type → good type.output) :
    Keeps freeRules (fun _ ↦ good)
      (mapValue (.ofBudget cx budget) v.document v.node (v.request scope)) := by
  intro output
  have hnative' := (Native.map_claims_any cx budget v.document v.node (v.request scope)).obeys_ok
    fun _ _ _ hrun ↦
      let ⟨_, hbuilt, _⟩ := Native.map_built cx budget hrun
      hnative hbuilt
  have hwire' := (Wire.map_claims_any cx budget v.document v.node (v.request scope)).obeys_ok
    fun _ _ _ hrun ↦
      let ⟨_, hbuilt, _⟩ := Wire.map_built cx budget hrun
      hwire hbuilt
  refine lift_bind (hnative'.keep fun _ _ h _ ↦ h) fun native ↦ ?_
  refine lift_bind (hwire'.keep fun _ _ h _ ↦ h) fun wire ↦ ?_
  rw [get_bind]
  have hfirst : Obeys freeRules
      (fun _ ↦ good wire.output ∧ good native.output ∧ good output)
      (Mapping.ofExcept (NativeType.absorb output native (v.request scope).path))
      fun _ between ↦ good wire.output ∧ good between :=
    free_ofExcept fun between hbetween _ hstart ↦
      ⟨hstart.1, hmerges.merge hstart.2.2 hstart.2.1 hbetween⟩
  refine lift_bind hfirst fun between ↦ ?_
  have hsecond : Obeys freeRules (fun _ ↦ good wire.output ∧ good between)
      (Mapping.ofExcept (WireType.absorb between wire (v.request scope).path))
      fun _ ↦ good :=
    free_ofExcept fun result hresult _ hstart ↦ hmerges.merge hstart.2 hstart.1 hresult
  exact lift_bind hsecond fun _ ↦ obeys_pure fun _ _ hstart ↦ hstart

omit hmerges htypes in
/-- The code of functions comes in. -/
theorem keeps_insert {place : Section} {symbol path : String} {pieces : List Piece}
    (h : ∀ output result : Output, (output.insert place symbol pieces path).toExcept = .ok result →
      good output → good result) :
    Keeps freeRules (fun _ ↦ good) (insert place symbol pieces path) := by
  intro output
  unfold Emission.insert
  rw [get_bind]
  exact lift_bind (free_ofExcept fun result hresult _ hstart ↦ h output result hresult hstart)
    fun result ↦ obeys_pure fun _ _ hstart ↦ hstart

theorem lasts_of_merges (budget : Nat) {isFunction : String → Prop}
    (hinsert : ∀ {place symbol}, place ∈ [Section.prototypes, .implementations] →
      isFunction symbol → ∀ pieces path,
        Keeps freeRules (fun _ ↦ good) (insert place symbol pieces path)) :
    Lasts freeRules (fun _ ↦ good) isFunction (.ofBudget cx budget) fun _ _ ↦ True where
  stable _ _ _ h _ := h
  allows _ := trivial
  congr := hmerges.congr
  insert := hinsert
  mapValue _ := keeps_mapValue_of hmerges (fun h ↦ h.output_good hmerges htypes)
    fun h ↦ h.output_good hmerges htypes

end Emission

namespace Generate

open Emission

variable {library : Library} {settings : Settings} {document : Document} {budget : Nat}
  {isFunction : String → Prop}

omit hmerges htypes in
/-- What is generated for a document has the property, up to its own title among those of other
documents, if it lasts where the schemas of the document are mapped. -/
theorem documentOutput_of_merges (hmerges : Output.Merges good) {maps : Visit → String → Prop}
    (hlasts : Lasts freeRules (fun _ ↦ good) isFunction
      (.ofBudget ⟨library, settings.runtime⟩ budget) maps)
    (hmaps : ∀ v scope, Root library settings document v → maps v scope)
    (hfunctions : ∀ m : MethodPlace, m.Of document → KeepsFunctions freeRules (fun _ ↦ good)
      (.ofBudget ⟨library, settings.runtime⟩ budget) settings.runtime m) :
    Obeys freeRules (fun _ ↦ True)
      (documentOutput (.ofBudget ⟨library, settings.runtime⟩ budget) library settings document)
      fun _ output ↦ ∃ whole, good whole ∧
        output = { whole with externals := whole.externals.filter (· ≠ document.title) } := by
  let mappers := Mappers.ofBudget ⟨library, settings.runtime⟩ budget
  have hadd : ∀ m : MethodPlace, m.Of document →
      Keeps freeRules (fun _ ↦ good) (addMethod mappers settings.runtime m) := by
    intro m hm
    have hemit := emit_obeys hlasts (hfunctions m hm) (fun _ _ ↦ hmerges.of_empty)
      fun v hv ↦ hmaps v _ (.method hm hv)
    exact keeps_addMethod hlasts.stable hemit fun output emitted ↦
      free_ofExcept fun _ hresult _ hstart ↦ hmerges.merge hstart.2 hstart.1 hresult
  have hdefinitions : Keeps freeRules (fun _ ↦ good)
      ((standalone library settings document).forM (mapDefinition mappers document)) :=
    keeps_forM fun _ hname ↦ keeps_mapDefinition hlasts (hmaps _ _ (.definition hname))
  have hmethods : Keeps freeRules (fun _ ↦ good)
      (addMethods mappers settings.runtime document 0 document.methods) :=
    keeps_addMethods hadd fun k method hmethod ↦ by rwa [Nat.zero_add]
  have hemitted : Obeys freeRules (fun _ ↦ True)
      (emitDocument mappers library settings document {}) fun _ run ↦ good run.2 :=
    ((hdefinitions.bind fun _ ↦ hmethods) {}).imp (fun _ _ ↦ hmerges.empty) fun _ _ hend ↦ hend
  exact hemitted.bind fun run ↦ obeys_pure fun _ _ hstart ↦ ⟨run.2, hstart, rfl⟩

end Generate

end SchemaBindings
