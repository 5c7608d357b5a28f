import SchemaBindings.Proofs.Emissions
import SchemaBindings.Proofs.Firm

/-!
# Code of types in outputs

A type that is mapped stands in the output that comes of it with all of its code, and so does each
type of the same document that it is made from. Outputs only grow: code that is there stays when
other code comes in, and a definition that has a type is mapped into the output of its document.
-/

namespace SchemaBindings

open Code Mapping

namespace Output

/-- What has code in the one output has code in the other one. -/
def Grows (output output' : Output) : Prop :=
  ∀ place symbol, (output.find? place symbol).isSome → (output'.find? place symbol).isSome

variable {output between result other : Output} {place : Section} {symbol path : String}
  {pieces : List Piece}

theorem Grows.trans (h : output.Grows between) (h' : between.Grows result) : output.Grows result :=
  fun place symbol hsome ↦ h' place symbol (h place symbol hsome)

theorem grows_of_get_eq (h : ∀ place, result.get place = output.get place) :
    output.Grows result := by
  intro place symbol hsome
  unfold find? at hsome ⊢
  rwa [h place]

theorem grows_insert (h : (output.insert place symbol pieces path).toExcept = .ok result) :
    output.Grows result ∧ (result.find? place symbol).isSome := by
  obtain ⟨-, -, hfind⟩ := insert_eq_ok h
  constructor
  · intro place' symbol' hsome
    rw [hfind, Option.isSome_or, hsome, Bool.true_or]
  · rw [hfind, if_pos ⟨rfl, rfl⟩, Option.isSome_or]
    exact Bool.or_true _

theorem grows_merge (h : (output.merge other path).toExcept = .ok result) :
    output.Grows result ∧ other.Grows result := by
  obtain ⟨-, -, hfind⟩ := merge_eq_ok h
  constructor <;> intro place symbol hsome <;> rw [hfind, Option.isSome_or, hsome]
  · exact Bool.true_or _
  · exact Bool.or_true _

end Output

theorem Native.grows_addHandle {output result : Output} {handle path : String}
    {groups : List AccessorGroup} (h : addHandle output handle groups path = .ok result) :
    output.Grows result ∧ ∀ place ∈ [Section.declarations, .definitions],
      (result.find? place handle).isSome := by
  obtain ⟨between, hfirst, hsecond⟩ := addHandle_inserts h
  obtain ⟨hgrows, hdeclared⟩ := Output.grows_insert hfirst
  obtain ⟨hgrows', hdefined⟩ := Output.grows_insert hsecond
  refine ⟨hgrows.trans hgrows', fun place hplace ↦ ?_⟩
  simp only [List.mem_cons, List.not_mem_nil, or_false] at hplace
  obtain rfl | rfl := hplace
  · exact hgrows' _ _ hdeclared
  · exact hdefined

/-! ## Types that stand in outputs -/

namespace Declared

/-- Where the native code of a type stands, and under which symbols. -/
def nativeCode (title stem : String) : Declared → List (Section × String)
  | enumeration .. => [.enums, .conversions].map (·, Names.qualified title stem)
  | object _ => [.declarations, .definitions].map (·, Names.qualified title stem ++ "Handle")
  | map _ => [.declarations, .definitions].map (·, Names.qualified title stem ++ "Handle")
  | array .. =>
    [.declarations, .definitions].map (·, Names.qualified title stem ++ "Array" ++ "Handle")

/-- Only objects have a container class on the wire side. -/
def wireCode (stem : String) : Declared → List (Section × String)
  | object _ => [(.containers, Names.containerClass stem)]
  | _ => []

/-- All code of the type, where it stands and under which symbols. -/
def code (title stem : String) (d : Declared) : List (Section × String) :=
  d.nativeCode title stem ++ d.wireCode stem

end Declared

/-- The schema has a stem, and the output has code under all of these symbols. -/
def Visit.Stands (v : Visit) (code : String → List (Section × String)) (registry : Registry)
    (output : Output) : Prop :=
  ∃ stem, registry.stem? v.path = some stem ∧
    ∀ place symbol, (place, symbol) ∈ code stem → (output.find? place symbol).isSome

/-- The property stays when stems are added to the registry and code to the output. -/
structure Lasting (good : Registry → Output → Prop) : Prop where
  later : ∀ {registry registry' output}, good registry output → registry.Extends registry' →
    good registry' output
  grows : ∀ {registry output output'}, good registry output → output.Grows output' →
    good registry output'

theorem lasting_true : Lasting fun _ _ ↦ True := ⟨fun _ _ ↦ trivial, fun _ _ ↦ trivial⟩

theorem Lasting.and {good good' : Registry → Output → Prop} (h : Lasting good)
    (h' : Lasting good') : Lasting fun registry output ↦ good registry output ∧
      good' registry output :=
  ⟨fun hboth hextends ↦ ⟨h.later hboth.1 hextends, h'.later hboth.2 hextends⟩,
    fun hboth hgrows ↦ ⟨h.grows hboth.1 hgrows, h'.grows hboth.2 hgrows⟩⟩

theorem lasting_stands (v : Visit) (code : String → List (Section × String)) :
    Lasting (v.Stands code) := by
  constructor
  · rintro registry registry' output ⟨stem, hstem, hcode⟩ hextends
    exact ⟨stem, hextends _ _ hstem, hcode⟩
  · rintro registry output output' ⟨stem, hstem, hcode⟩ hgrows
    exact ⟨stem, hstem, fun place symbol hmem ↦ hgrows place symbol (hcode place symbol hmem)⟩

theorem Lasting.of_imp {good : Registry → Output → Prop} (h : Lasting good) (p : Prop) :
    Lasting fun registry output ↦ p → good registry output :=
  ⟨fun hgood hextends hp ↦ h.later (hgood hp) hextends,
    fun hgood hgrows hp ↦ h.grows (hgood hp) hgrows⟩

theorem Lasting.stable {good : Registry → Output → Prop} (h : Lasting good) (output : Output) :
    Stable fun registry ↦ good registry output :=
  fun _ _ hgood hextends ↦ h.later hgood hextends

section

variable {α β : Type} {before : Registry → Prop} {last : Registry → β → Prop}

theorem free_bind {result : Except Failure α} {next : α → Mapping β}
    (h : ∀ value, result = .ok value → Obeys freeRules before (next value) last) :
    Obeys freeRules before (Mapping.ofExcept result >>= next) last :=
  obeys_ofExcept_bind (fun _ _ ↦ trivial) h

/-- What is known stays known when a schema is mapped or a stem is claimed. -/
theorem free_claims_bind {library : Library} {allowed : Document → String → Prop}
    {mapping : Mapping α} (hclaims : mapping.Claims library allowed) (hstable : Stable before)
    {next : α → Mapping β} (h : ∀ value, Obeys freeRules before (next value) last) :
    Obeys freeRules before (mapping >>= next) last :=
  (hclaims.obeys.keep hstable).bind fun value ↦
    (h value).imp (fun _ hstart ↦ hstart.2) fun _ _ hend ↦ hend

theorem free_claim_bind {request : Request} {library : Library} {document : Document}
    {kind : SymbolKind} {label : String} (hstable : Stable before) {next : String → Mapping β}
    (h : ∀ stem, Obeys freeRules
      (fun registry ↦ registry.stem? request.path = some stem ∧ before registry) (next stem) last) :
    Obeys freeRules before (request.claim library document kind label >>= next) last :=
  (obeys_claim hstable fun _ _ ↦ trivial).bind h

end

variable {cx : Context} {v v' w : Visit} {d : Declared} {good : Registry → Output → Prop}

/-! ## Native types -/

namespace Native

/-- Whatever the session is, the output of the type has the property. -/
abbrev Presents (good : Registry → Output → Prop) (mapping : Mapping NativeType) : Prop :=
  Obeys freeRules (fun _ ↦ True) mapping fun registry type ↦ good registry type.output

variable {mapper : Mapper} {budget : Nat} {document : Document} {label : String} {request : Request}

section Parts

variable (hgood : Lasting good)
include hgood

/-- What comes in after the part is there leaves it in place. -/
theorem addHandle_presents {output : Output} {handle path : String} {groups : List AccessorGroup}
    {type : Output → NativeType} (htype : ∀ output, (type output).output = output) :
    Obeys freeRules (fun registry ↦ good registry output)
      (do
        let output ← Mapping.ofExcept (addHandle output handle groups path)
        pure (type output)) fun registry type ↦ good registry type.output :=
  free_bind fun result hresult ↦ obeys_pure fun _ _ hstart ↦ by
    rw [htype]
    exact hgood.grows hstart (grows_addHandle hresult).1

theorem absorb_presents {β : Type} {output : Output} {type : NativeType} {path : String}
    {next : Output → Mapping β} {last : Registry → β → Prop}
    (h : ∀ result, Obeys freeRules (fun registry ↦ good registry result) (next result) last) :
    Obeys freeRules (fun registry ↦ good registry type.output)
      (Mapping.ofExcept (NativeType.absorb output type path) >>= next) last :=
  free_bind fun result hresult ↦ (h result).imp
    (fun _ hstart ↦ hgood.grows hstart (Output.grows_merge hresult).2) fun _ _ hend ↦ hend

omit hgood in
theorem reference_presents {reference : String} {target : Target}
    (htarget : cx.library.resolve document reference request.path = .ok target)
    (hinside : target.owner = document)
    (h : Presents good (mapper target.owner target.node (.ofTarget target))) :
    Presents good (Native.reference cx mapper document reference request) := by
  refine free_bind fun found hfound ↦ ?_
  cases hfound.symm.trans htarget
  refine (h.following _ _).bind fun type ↦ obeys_pure fun _ _ hstart ↦ ?_
  rw [Library.isExternal_of_owner_eq htarget hinside]
  exact hstart

theorem array_presents {items : Items} {item : Node} (hitem : items.element request.path = .ok item)
    (h : Presents good (mapper document item (request.element item label))) :
    Presents good (array cx mapper document items label request) := by
  refine free_bind fun found hfound ↦ ?_
  cases hfound.symm.trans hitem
  exact h.bind fun element ↦ free_claim_bind (hgood.stable _) fun stem ↦
    (absorb_presents hgood fun _ ↦ addHandle_presents hgood fun _ ↦ rfl).imp
      (fun _ hstart ↦ hstart.2) fun _ _ hend ↦ hend

theorem dictionary_presents {additional : Node}
    (h : ∀ stem, Presents good (mapper document additional (request.mapValue stem))) :
    Presents good (dictionary cx mapper document additional label request) :=
  free_claim_bind stable_true fun stem ↦ ((h stem).imp (fun _ _ ↦ trivial) fun _ _ hend ↦ hend).bind
    fun _ ↦ absorb_presents hgood fun _ ↦ addHandle_presents hgood fun _ ↦ rfl

/-- What a part of the type is presented with, the type is presented with, if both are in one
document. -/
theorem map_presents_of_madeFrom (hmade : v.MadeFrom cx.library v')
    (hdocument : v'.document = v.document)
    (h : ∀ budget scope, Presents good (map cx budget v'.document v'.node (v'.request scope)))
    (budget : Nat) (scope : String) :
    Presents good (map cx budget v.document v.node (v.request scope)) := by
  cases budget with
  | zero => exact obeys_exhausted
  | succ budget =>
  obtain ⟨hcomes, hobject⟩ := hmade
  obtain ⟨document, ⟨title, description, kind⟩, name, path⟩ := v
  cases hcomes with
  | target hkind htarget =>
    obtain rfl : kind = _ := hkind
    exact reference_presents htarget hdocument (h budget "")
  | element hkind hlabel hitem =>
    obtain rfl : kind = _ := hkind
    refine free_bind fun label hfound ↦ ?_
    cases hfound.symm.trans hlabel
    exact array_presents hgood hitem (h budget scope)
  | @value schema additional hkind hplain hadditional =>
    obtain rfl : kind = _ := hkind
    refine free_bind fun label _ ↦ ?_
    change Presents good (objectLike cx (map cx budget) document schema label _)
    unfold objectLike
    rw [hplain, hadditional]
    exact dictionary_presents hgood fun stem ↦ h budget stem
  | @property schema name child hkind hmember =>
    cases (hobject schema hkind).symm.trans (ObjectSchema.hasProperties_of_mem hmember)
  | @propertyElement schema name child item items hkind hmember hchild hitem =>
    cases (hobject schema hkind).symm.trans (ObjectSchema.hasProperties_of_mem hmember)
  | @merged members label budget' merged hkind hlabel hmerge =>
    obtain rfl : kind = _ := hkind
    refine free_bind fun found hfound ↦ ?_
    cases hfound.symm.trans hlabel
    refine (mergeAllOf_obeys budget _ _ members _).bind fun merged' ↦ ?_
    intro session result session' hrun hholds hstart
    cases run_unique (fun hle ↦ mergeAllOf_refines cx.library hle _ _ _ _) hstart.2 hmerge
    exact h budget scope hrun hholds trivial

end Parts

section Declared

variable {stem scope : String}

theorem addHandle_stands {code : String → List (Section × String)} {output : Output}
    {handle path : String} {groups : List AccessorGroup}
    (hcode : code stem = [.declarations, .definitions].map (·, handle))
    {type : Output → NativeType} (htype : ∀ output, (type output).output = output) :
    Obeys freeRules (fun registry ↦ registry.stem? v.path = some stem)
      (do
        let output ← Mapping.ofExcept (addHandle output handle groups path)
        pure (type output)) fun registry type ↦ v.Stands code registry type.output := by
  refine free_bind fun result hresult ↦ obeys_pure fun _ _ hstem ↦ ⟨stem, hstem, ?_⟩
  intro place symbol hmem
  rw [hcode] at hmem
  obtain ⟨found, hplace, heq⟩ := List.mem_map.1 hmem
  cases heq
  rw [htype]
  exact (grows_addHandle hresult).2 _ hplace

theorem enumeration_stands {values : List String} {label' : String} {description : Option String} :
    Presents (v.Stands fun stem ↦
        (Declared.enumeration label' description values).nativeCode v.document.title stem)
      (enumeration cx v.document v.node values label (v.request scope)) := by
  refine free_claim_bind stable_true fun stem ↦ obeys_pure fun _ _ hstem ↦ ⟨stem, hstem.1, ?_⟩
  intro place symbol hmem
  obtain ⟨found, hplace, heq⟩ := List.mem_map.1 hmem
  cases heq
  simp only [List.mem_cons, List.not_mem_nil, or_false] at hplace
  obtain rfl | rfl := hplace <;>
    simp [Output.find?, Output.get, Fragments.get?, Fragments.single, Table.get?]

theorem array_stands {items : Items} {item : Node} {name : String} :
    Presents (v.Stands fun stem ↦
        (Declared.array item name).nativeCode v.document.title stem)
      (array cx (map cx budget) v.document items label (v.request scope)) := by
  refine free_bind fun item _ ↦ free_claims_bind (map_claims_any cx budget _ _ _) stable_true
    fun element ↦ free_claim_bind stable_true fun stem ↦ free_bind fun output _ ↦ ?_
  exact (addHandle_stands rfl fun _ ↦ rfl).imp (fun _ hstart ↦ hstart.1) fun _ _ hend ↦ hend

theorem dictionary_stands {additional additional' : Node} :
    Presents (v.Stands fun stem ↦ (Declared.map additional').nativeCode v.document.title stem)
      (dictionary cx (map cx budget) v.document additional label (v.request scope)) := by
  refine free_claim_bind stable_true fun stem ↦ free_claims_bind (map_claims_any cx budget _ _ _)
    ((stable_stem? _ _).and stable_true) fun value ↦ free_bind fun output _ ↦ ?_
  exact (addHandle_stands rfl fun _ ↦ rfl).imp (fun _ hstart ↦ hstart.1) fun _ _ hend ↦ hend

theorem object_stands {schema schema' : ObjectSchema} :
    Presents (v.Stands fun stem ↦ (Declared.object schema').nativeCode v.document.title stem)
      (Native.object cx (map cx budget) v.document schema label (v.request scope)) := by
  refine free_claim_bind stable_true fun stem ↦ free_claims_bind
    (Claims.foldlM (addProperty_claims_any budget _ schema) _ _)
    ((stable_stem? _ _).and stable_true) fun gathered ↦ ?_
  exact (addHandle_stands rfl fun _ ↦ rfl).imp (fun _ hstart ↦ hstart.1) fun _ _ hend ↦ hend

/-- A type that is declared stands in its output. -/
theorem map_stands (hdeclared : v.declared? = some d) (budget : Nat) (scope : String) :
    Presents (v.Stands fun stem ↦ d.nativeCode v.document.title stem)
      (map cx budget v.document v.node (v.request scope)) := by
  cases budget with
  | zero => exact obeys_exhausted
  | succ budget =>
  obtain ⟨label, -, hcases⟩ := Visit.declared?_eq_some hdeclared
  obtain ⟨document, ⟨title, description, kind⟩, name, path⟩ := v
  obtain ⟨values, hkind, rfl⟩ | ⟨schema, hkind, hproperties, rfl⟩ |
    ⟨schema, additional, hkind, hplain, hadditional, rfl⟩ | ⟨items, item, hkind, -, rfl⟩ := hcases
  all_goals
    obtain rfl : kind = _ := hkind
    refine free_bind fun label _ ↦ ?_
  · exact enumeration_stands
  · change Presents _ (objectLike cx (map cx budget) document schema label _)
    unfold objectLike
    rw [if_pos hproperties]
    exact object_stands
  · change Presents _ (objectLike cx (map cx budget) document schema label _)
    unfold objectLike
    rw [hplain, hadditional]
    exact dictionary_stands
  · exact array_stands

end Declared

end Native

/-! ## Wire types -/

namespace Wire

/-- Whatever the session is, the output of the type has the property. -/
abbrev Presents (good : Registry → Output → Prop) (mapping : Mapping WireType) : Prop :=
  Obeys freeRules (fun _ ↦ True) mapping fun registry type ↦ good registry type.output

variable {mapper : Mapper} {budget : Nat} {document : Document} {label : String} {request : Request}

section Parts

variable (hgood : Lasting good)
include hgood

/-- A type without code of its own keeps the code of the part that it is made from. -/
theorem absorb_presents {part : WireType} {path : String} {type : Output → WireType}
    (htype : ∀ output, (type output).output = output) :
    Obeys freeRules (fun registry ↦ good registry part.output)
      (do
        let output ← Mapping.ofExcept (WireType.absorb {} part path)
        pure (type output)) fun registry type ↦ good registry type.output :=
  free_bind fun result hresult ↦ obeys_pure fun _ _ hstart ↦ by
    rw [htype]
    exact hgood.grows hstart (Output.grows_merge hresult).2

omit hgood in
theorem reference_presents {reference : String} {target : Target}
    (htarget : cx.library.resolve document reference request.path = .ok target)
    (hinside : target.owner = document)
    (h : Presents good (mapper target.owner target.node (.ofTarget target))) :
    Presents good (Wire.reference cx mapper document reference request) := by
  refine free_bind fun found hfound ↦ ?_
  cases hfound.symm.trans htarget
  refine (h.following _ _).bind fun type ↦ obeys_pure fun _ _ hstart ↦ ?_
  rw [Library.isExternal_of_owner_eq htarget hinside]
  exact hstart

theorem array_presents {items : Items} {item : Node} (hitem : items.element request.path = .ok item)
    (h : Presents good (mapper document item (request.element item label))) :
    Presents good (array cx mapper document items label request) := by
  refine free_bind fun found hfound ↦ ?_
  cases hfound.symm.trans hitem
  exact h.bind fun element ↦ absorb_presents hgood fun _ ↦ rfl

theorem dictionary_presents {additional : Node}
    (h : ∀ stem, Presents good (mapper document additional (request.mapValue stem))) :
    Presents good (dictionary cx mapper document additional label request) :=
  free_claim_bind stable_true fun stem ↦ ((h stem).imp (fun _ _ ↦ trivial) fun _ _ hend ↦ hend).bind
    fun _ ↦ absorb_presents hgood fun _ ↦ rfl

/-- What a part of the type is presented with, the type is presented with, if both are in one
document. -/
theorem map_presents_of_madeFrom (hmade : v.MadeFrom cx.library v')
    (hdocument : v'.document = v.document)
    (h : ∀ budget scope, Presents good (map cx budget v'.document v'.node (v'.request scope)))
    (budget : Nat) (scope : String) :
    Presents good (map cx budget v.document v.node (v.request scope)) := by
  cases budget with
  | zero => exact obeys_exhausted
  | succ budget =>
  obtain ⟨hcomes, hobject⟩ := hmade
  obtain ⟨document, ⟨title, description, kind⟩, name, path⟩ := v
  cases hcomes with
  | target hkind htarget =>
    obtain rfl : kind = _ := hkind
    exact reference_presents htarget hdocument (h budget "")
  | element hkind hlabel hitem =>
    obtain rfl : kind = _ := hkind
    refine free_bind fun label hfound ↦ ?_
    cases hfound.symm.trans hlabel
    exact array_presents hgood hitem (h budget scope)
  | @value schema additional hkind hplain hadditional =>
    obtain rfl : kind = _ := hkind
    refine free_bind fun label _ ↦ ?_
    change Presents good (objectLike cx (map cx budget) document schema label _)
    unfold objectLike
    rw [hplain, hadditional]
    exact dictionary_presents hgood fun stem ↦ h budget stem
  | @property schema name child hkind hmember =>
    cases (hobject schema hkind).symm.trans (ObjectSchema.hasProperties_of_mem hmember)
  | @propertyElement schema name child item items hkind hmember hchild hitem =>
    cases (hobject schema hkind).symm.trans (ObjectSchema.hasProperties_of_mem hmember)
  | @merged members label budget' merged hkind hlabel hmerge =>
    obtain rfl : kind = _ := hkind
    refine free_bind fun found hfound ↦ ?_
    cases hfound.symm.trans hlabel
    refine (mergeAllOf_obeys budget _ _ members _).bind fun merged' ↦ ?_
    intro session result session' hrun hholds hstart
    cases run_unique (fun hle ↦ mergeAllOf_refines cx.library hle _ _ _ _) hstart.2 hmerge
    exact h budget scope hrun hholds trivial

end Parts

/-- The container of an object stands in its output. -/
theorem map_stands {schema : ObjectSchema} (hdeclared : v.declared? = some (.object schema))
    (budget : Nat) (scope : String) :
    Presents (v.Stands (Declared.wireCode · (.object schema)))
      (map cx budget v.document v.node (v.request scope)) := by
  cases budget with
  | zero => exact obeys_exhausted
  | succ budget =>
  obtain ⟨label, -, hcases⟩ := Visit.declared?_eq_some hdeclared
  obtain ⟨document, ⟨title, description, kind⟩, name, path⟩ := v
  obtain ⟨_, -, hother⟩ | ⟨_, hkind, hproperties, hobject⟩ | ⟨_, _, -, -, -, hother⟩ |
    ⟨_, _, -, -, hother⟩ := hcases
  · cases hother
  · obtain rfl : kind = _ := hkind
    cases hobject
    refine free_bind fun label _ ↦ ?_
    change Presents _ (objectLike cx (map cx budget) document schema label _)
    unfold objectLike
    rw [if_pos hproperties]
    refine free_claim_bind stable_true fun stem ↦ free_claims_bind
      (Claims.foldlM (addMember_claims_any budget stem) _ _)
      ((stable_stem? _ _).and stable_true) fun gathered ↦ ?_
    refine free_bind fun output houtput ↦ obeys_pure fun _ _ hstart ↦ ⟨stem, hstart.1, ?_⟩
    intro place symbol hmem
    cases List.mem_singleton.1 hmem
    exact (Output.grows_insert houtput).2
  · cases hother
  · cases hother

end Wire

/-! ## Types and what they are made from -/

/-- The type of a schema is made from the type of the other one, which is in the same document. -/
def Visit.MadeWithin (library : Library) (v v' : Visit) : Prop :=
  v.MadeFrom library v' ∧ v'.document = v.document

/-- A type that is declared stands in the output of every type of its document that is made from
it. -/
theorem Native.map_stands_of_made (hmade : Relation.ReflTransGen (Visit.MadeWithin cx.library) v w)
    (hdeclared : w.declared? = some d) (budget : Nat) (scope : String) :
    Presents (w.Stands fun stem ↦ d.nativeCode w.document.title stem)
      (map cx budget v.document v.node (v.request scope)) := by
  induction hmade using Relation.ReflTransGen.head_induction_on generalizing budget scope with
  | refl => exact map_stands hdeclared budget scope
  | head hstep _ ih => exact map_presents_of_madeFrom (lasting_stands _ _) hstep.1 hstep.2 ih _ _

theorem Wire.map_stands_of_made (hmade : Relation.ReflTransGen (Visit.MadeWithin cx.library) v w)
    {schema : ObjectSchema} (hdeclared : w.declared? = some (.object schema)) (budget : Nat)
    (scope : String) :
    Presents (w.Stands (Declared.wireCode · (.object schema)))
      (map cx budget v.document v.node (v.request scope)) := by
  induction hmade using Relation.ReflTransGen.head_induction_on generalizing budget scope with
  | refl => exact map_stands hdeclared budget scope
  | head hstep _ ih => exact map_presents_of_madeFrom (lasting_stands _ _) hstep.1 hstep.2 ih _ _

/-! ## Outputs of documents -/

/-- What is there stays when another output comes in. -/
theorem Lasting.obeys_merge (hgood : Lasting good) (output other : Output) (path : String) :
    Obeys freeRules (fun registry ↦ good registry output)
      (Mapping.ofExcept (output.merge other path).toExcept) good :=
  free_ofExcept fun _ hresult _ hstart ↦ hgood.grows hstart (Output.grows_merge hresult).1

theorem firm_merge {before : Registry → Prop} {after : Registry → Output → Prop}
    {output other : Output} {path : String}
    (h : ∀ result, (output.merge other path).toExcept = .ok result →
      ∀ registry, before registry → after registry result) :
    Obeys firmRules before (Mapping.ofExcept (output.merge other path).toExcept) after :=
  obeys_ofExcept fun registry _ hstart ↦ meets_of_allows
    (fun _ hfailure ↦
      Failure.isRecoverable_of_isCollision (Output.merge_toExcept_collides hfailure))
    fun value hvalue ↦ h value hvalue registry hstart

namespace Emission

variable {rules rules' : Rules} {α β : Type}

/-- The emission leaves an output with the property behind, whichever it starts with. -/
def Establishes (rules : Rules) (good : Registry → Output → Prop) (emission : Emission α) : Prop :=
  ∀ output, Obeys rules (fun _ ↦ True) (emission output) fun registry run ↦ good registry run.2

theorem establishes_forM {step : String → Emission Unit} {names : List String} {name : String}
    (hname : name ∈ names) (h : Establishes rules good (step name))
    (hany : ∀ other, Keeps rules (fun _ _ ↦ True) (step other))
    (hkeeps : ∀ other, Keeps rules good (step other)) :
    Establishes rules good (names.forM step) := by
  induction names with
  | nil => cases hname
  | cons first rest ih =>
    intro output
    obtain rfl | hrest := List.mem_cons.1 hname
    · exact (h output).bind fun run ↦ keeps_forM (fun other _ ↦ hkeeps other) run.2
    · exact (hany first output).bind fun run ↦ ih hrest run.2

/-- A failure that may stop the emission stops it here as well. -/
theorem Establishes.attempt_bind {emission : Emission α} {next : Except Failure α → Emission β}
    (h : Establishes rules good emission) (hholds : rules'.holds = rules.holds)
    (hok : ∀ value, Keeps rules' good (next (.ok value)))
    (herror : ∀ failure, rules.allows failure → Establishes rules' good (next (.error failure))) :
    Establishes rules' good (attempt emission >>= next) := by
  intro output
  have hattempt : Obeys rules' (fun _ ↦ True) (attempt emission output)
      fun registry run ↦ Meets rules (fun registry _ ↦ good registry run.2) registry run.1 := by
    refine ((h output).attempt hholds).bind fun result ↦ ?_
    cases result with
    | ok run => exact obeys_pure fun _ _ hstart ↦ hstart
    | error failure => exact obeys_pure fun _ _ hstart ↦ hstart
  refine hattempt.bind fun run ↦ ?_
  obtain ⟨result, output'⟩ := run
  cases result with
  | ok value => exact hok value output'
  | error failure =>
    intro session found session' hrun hstart hallows
    exact herror failure hallows output' hrun hstart trivial

/-- Nothing that is emitted takes code away. -/
theorem lasts_of_lasting (hgood : Lasting good) (cx : Context) (budget : Nat) :
    Lasts freeRules good (fun _ ↦ True) (.ofBudget cx budget) fun _ _ ↦ True where
  stable := hgood.stable
  allows _ := trivial
  congr h heq _ := hgood.grows h (Output.grows_of_get_eq heq)
  insert {place symbol} _ _ pieces path output := by
    unfold Emission.insert
    rw [get_bind]
    refine lift_bind (free_ofExcept fun result hresult _ hstart ↦ ?_)
      fun output ↦ obeys_pure fun _ _ hstart ↦ hstart
    exact hgood.grows hstart (Output.grows_insert hresult).1
  mapValue _ output := by
    refine lift_bind ((Native.map_claims_any cx budget _ _ _).obeys.keep (hgood.stable output))
      fun native ↦ ?_
    refine lift_bind ((Wire.map_claims_any cx budget _ _ _).obeys.keep
      (stable_true.and (hgood.stable output))) fun wire ↦ ?_
    rw [get_bind]
    refine lift_bind ((hgood.obeys_merge output native.output _).imp (fun _ hstart ↦ hstart.2.2)
      fun _ _ hend ↦ hend) fun between ↦ ?_
    exact lift_bind (hgood.obeys_merge between wire.output _) fun _ ↦
      obeys_pure fun _ _ hstart ↦ hstart

/-- What the types on both sides are presented with, the output is presented with. -/
theorem establishes_mapValue {goodNative goodWire : Registry → Output → Prop}
    (hnative : Lasting goodNative) (hwire : Lasting goodWire) {budget : Nat} {document : Document}
    {node : Node} {request : Request} (hfirm : Firm (Native.map cx budget document node request))
    (hfirm' : Firm (Wire.map cx budget document node request))
    (h : Native.Presents goodNative (Native.map cx budget document node request))
    (h' : Wire.Presents goodWire (Wire.map cx budget document node request)) :
    Establishes firmRules (fun registry output ↦ goodNative registry output ∧
      goodWire registry output) (mapValue (.ofBudget cx budget) document node request) := by
  intro output
  refine lift_bind (hfirm.and h fun _ ↦ trivial) fun native ↦ ?_
  refine lift_bind ((hfirm'.and h' fun _ ↦ trivial).keep
    (stable_true.and (hnative.stable native.output))) fun wire ↦ ?_
  rw [get_bind]
  have hfirst : Obeys firmRules
      (fun registry ↦ (True ∧ goodWire registry wire.output) ∧
        True ∧ goodNative registry native.output)
      (Mapping.ofExcept (output.merge native.output request.path).toExcept)
      fun registry between ↦ goodNative registry between ∧ goodWire registry wire.output :=
    firm_merge fun _ hresult _ hstart ↦
      ⟨hnative.grows hstart.2.2 (Output.grows_merge hresult).2, hstart.1.2⟩
  refine lift_bind hfirst fun between ↦ ?_
  have hsecond : Obeys firmRules
      (fun registry ↦ goodNative registry between ∧ goodWire registry wire.output)
      (Mapping.ofExcept (between.merge wire.output request.path).toExcept)
      fun registry result ↦ goodNative registry result ∧ goodWire registry result :=
    firm_merge fun _ hresult _ hstart ↦
      ⟨hnative.grows hstart.1 (Output.grows_merge hresult).1,
        hwire.grows hstart.2 (Output.grows_merge hresult).2⟩
  exact lift_bind hsecond fun _ ↦ obeys_pure fun _ _ hstart ↦ hstart

end Emission

namespace Generate

open Emission

variable {library : Library} {settings : Settings} {document : Document} {name : String}

/-- A definition whose type can be determined is not left out. -/
theorem establishes_mapDefinition {mappers : Mappers}
    (h : Establishes firmRules good (mapValue mappers document
      (.ofKind (.reference (document.definitionRef name)))
      ⟨name, "", document.schemaPath (document.definitionRef name)⟩)) :
    Establishes freeRules good (mapDefinition mappers document name) := by
  refine h.attempt_bind rfl (fun _ ↦ keeps_pure ()) fun failure hfailure output ↦ ?_
  have hstop : Obeys freeRules (fun _ ↦ True)
      (Emission.fail failure output : Mapping (Unit × Output))
      fun registry run ↦ good registry run.2 := by
    have hfail : Obeys freeRules (fun _ ↦ True) (Mapping.fail failure : Mapping Unit)
        fun _ _ ↦ False := obeys_fail fun _ _ ↦ trivial
    exact hfail.bind fun _ ↦ obeys_pure fun _ _ hfalse ↦ hfalse.elim
  change Obeys _ _ ((if failure.isRecoverable then _ else Emission.fail failure) output) _
  rw [if_neg (Bool.eq_false_iff.1 hfailure)]
  exact hstop

/-- The output of a document has what one of its definitions brings in. -/
theorem documentOutput_obeys (hgood : Lasting good) (budget : Nat)
    (hname : name ∈ standalone library settings document)
    (h : Establishes firmRules good (mapValue (.ofBudget ⟨library, settings.runtime⟩ budget)
      document (.ofKind (.reference (document.definitionRef name)))
      ⟨name, "", document.schemaPath (document.definitionRef name)⟩)) :
    Obeys freeRules (fun _ ↦ True)
      (documentOutput (.ofBudget ⟨library, settings.runtime⟩ budget) library settings document)
      good := by
  let mappers := Mappers.ofBudget ⟨library, settings.runtime⟩ budget
  have hkeeps : ∀ {good : Registry → Output → Prop}, Lasting good → ∀ other,
      Keeps freeRules good (mapDefinition mappers document other) :=
    fun hgood _ ↦ keeps_mapDefinition (lasts_of_lasting hgood _ budget) trivial
  -- whatever is emitted besides the definition leaves its code in place
  have hdefinitions : Establishes freeRules good
      ((standalone library settings document).forM (mapDefinition mappers document)) :=
    establishes_forM hname (establishes_mapDefinition h) (hkeeps lasting_true) (hkeeps hgood)
  have hadd : ∀ m : MethodPlace, m.Of document →
      Keeps freeRules good (addMethod mappers settings.runtime m) := by
    intro m _
    have hemit : Obeys freeRules (fun _ ↦ True) (m.emit mappers settings.runtime) fun _ _ ↦ True :=
      emit_obeys (lasts_of_lasting lasting_true _ budget)
        (keeps_functions (lasts_of_lasting lasting_true _ budget) fun _ _ ↦ trivial)
        (fun _ _ _ _ ↦ trivial) fun _ _ ↦ trivial
    exact keeps_addMethod hgood.stable hemit fun output emitted ↦
      (hgood.obeys_merge output emitted m.path).imp (fun _ hstart ↦ hstart.2) fun _ _ hend ↦ hend
  have hmethods : Keeps freeRules good
      (addMethods mappers settings.runtime document 0 document.methods) :=
    keeps_addMethods hadd fun k method hmethod ↦ by rwa [Nat.zero_add]
  have hemitted : Obeys freeRules (fun _ ↦ True)
      (emitDocument mappers library settings document {}) fun registry run ↦ good registry run.2 :=
    (hdefinitions {}).bind fun run ↦ hmethods run.2
  exact hemitted.bind fun run ↦ obeys_pure fun _ _ hstart ↦
    hgood.grows hstart (Output.grows_of_get_eq fun place ↦ by cases place <;> rfl)

end Generate

end SchemaBindings
