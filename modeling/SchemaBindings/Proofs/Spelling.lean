import SchemaBindings.Proofs.Budget
import SchemaBindings.Proofs.Composition
import SchemaBindings.Proofs.Growth
import SchemaBindings.Proofs.Resolution

/-!
# How types are spelled

What a type is called, and what carries it on the wire, is the same in all documents up to the
stems of schemas. Each of the two names spells the stem of one schema at most. An array is called
by a stem of its own, but carried by what carries its elements, and spells their stem there.
-/

namespace SchemaBindings

open Mapping

/-- A name that is the same everywhere, or is put around the stem of the schema at a path. -/
inductive Spelling where
  | plain (name : String)
  | around (before path after : String)

namespace Spelling

/-- Path of the schema whose stem is spelled. -/
def path? : Spelling → Option String
  | plain _ => none
  | around _ path _ => some path

/-- The spelling inside another text. -/
def within (left right : String) : Spelling → Spelling
  | plain name => plain (left ++ name ++ right)
  | around before path after => around (left ++ before) path (after ++ right)

/-- Symbol of the schema at `path` in the document with this title. -/
def symbol (title path suffix : String) : Spelling :=
  around (Text.capitalize title ++ "_") path suffix

/-- What the spelling reads with the stems of a registry. -/
inductive Reads (registry : Registry) : Spelling → String → Prop
  | plain (name : String) : Reads registry (.plain name) name
  | around {before path after stem : String} (h : registry.stem? path = some stem) :
      Reads registry (.around before path after) (before ++ stem ++ after)

variable {registry registry' : Registry} {spelling : Spelling} {name name' : String}

theorem Reads.extends (h : Reads registry spelling name) (hextends : registry.Extends registry') :
    Reads registry' spelling name := by
  cases h with
  | plain => exact .plain _
  | around hstem => exact .around (hextends _ _ hstem)

theorem Reads.within (h : Reads registry spelling name) (left right : String) :
    Reads registry (spelling.within left right) (left ++ name ++ right) := by
  cases h with
  | plain => exact .plain _
  | @around before path after stem hstem =>
    have hread : left ++ (before ++ stem ++ after) ++ right =
        (left ++ before) ++ stem ++ (after ++ right) := by
      simp only [String.append_assoc]
    rw [hread]
    exact .around hstem

theorem Reads.symbol {title path stem : String} (h : registry.stem? path = some stem)
    (suffix : String) :
    Reads registry (.symbol title path suffix) (Names.qualified title stem ++ suffix) :=
  .around h

/-- A spelling reads the same exactly if the schema in it has the same stem. -/
theorem Reads.eq_iff (h : Reads registry spelling name) (h' : Reads registry' spelling name') :
    name = name' ↔
      ∀ path ∈ spelling.path?, registry.stem? path = registry'.stem? path := by
  cases h with
  | plain =>
    cases h'
    simp [path?]
  | around hstem =>
    cases h' with
    | around hstem' =>
      simp only [path?, Option.mem_some_iff, forall_eq', hstem, hstem', Option.some.injEq,
        String.append_left_inj, String.append_right_inj]

end Spelling

/-- What is the same of a type in all documents. -/
structure TypeSpelling where
  shape : Shape
  name : Spelling
  wire : Spelling

namespace TypeSpelling

def ofType (type : NativeType) : TypeSpelling :=
  ⟨type.shape, .plain type.name, .plain type.wire⟩

def enumeration (runtime : Runtime) (title path : String) : TypeSpelling :=
  let name := Spelling.symbol title path ""
  ⟨.enumeration, name, name.within (runtime.jsonType "EnumType" ++ "<") ">"⟩

def array (runtime : Runtime) (title path : String) (element : TypeSpelling) : TypeSpelling :=
  ⟨.array, .symbol title path ("Array" ++ "Handle"),
    element.wire.within (runtime.jsonType "ArrayType" ++ "<") ">"⟩

def object (runtime : Runtime) (title path : String) : TypeSpelling :=
  ⟨.object, .symbol title path "Handle",
    .around (runtime.sdkNamespace ++ "::" ++ Text.capitalize title ++ "::" ++ "JsonData_") path ""⟩

def map (runtime : Runtime) (title path : String) : TypeSpelling :=
  ⟨.map, .symbol title path "Handle", .plain runtime.wireMap⟩

def ofObject (runtime : Runtime) (title path : String) (schema : ObjectSchema) : TypeSpelling :=
  if schema.hasProperties then object runtime title path
  else if schema.additional.isSome then map runtime title path
  else ofType (.ofString runtime "")

/-- The type has this spelling, read with the stems of a registry. -/
structure Describes (spelling : TypeSpelling) (registry : Registry) (type : NativeType) : Prop where
  shape_eq : type.shape = spelling.shape
  name : spelling.name.Reads registry type.name
  wire : spelling.wire.Reads registry type.wire

/-- The label of a type is not part of its spelling. -/
theorem describes_ofType (registry : Registry) (type : NativeType) (label : String) :
    (ofType type).Describes registry { type with label := label } :=
  ⟨rfl, .plain _, .plain _⟩

theorem describes_ofPrimitive (registry : Registry) (runtime : Runtime) (type : Primitive)
    (minimum : Option Double) (label : String) :
    (ofType (.ofPrimitive runtime type minimum "")).Describes registry
      (.ofPrimitive runtime type minimum label) := by
  cases type <;> exact describes_ofType registry _ label

theorem describes_enumeration {registry : Registry} {title path stem : String}
    (h : registry.stem? path = some stem) (runtime : Runtime) (label : String) (output : Output) :
    (enumeration runtime title path).Describes registry
      ⟨Names.qualified title stem, .enumeration, runtime.wireEnum (Names.qualified title stem),
        label, output⟩ := by
  have hname : (Spelling.symbol title path "").Reads registry (Names.qualified title stem) := by
    rw [← String.append_empty (s := Names.qualified title stem)]
    exact .symbol h ""
  exact ⟨rfl, hname, hname.within _ _⟩

end TypeSpelling

namespace Native

variable {cx : Context}

/-- How the type of a schema is spelled, with a budget for the schemas it goes through. -/
def spell? (cx : Context) : Nat → Document → Node → Request → Option TypeSpelling
  | 0, _, _, _ => none
  | budget + 1, document, node, request =>
    match node.kind with
    | .reference reference =>
      match cx.library.resolve document reference request.path with
      | .ok target => spell? cx budget target.owner target.node (.ofTarget target)
      | .error _ => none
    | .constant value minimum =>
      (constantType? value).map fun type ↦ .ofType (.ofPrimitive cx.runtime type minimum "")
    | .enumeration _ => some (.enumeration cx.runtime document.title request.path)
    | .array items =>
      match request.label node, items.element request.path with
      | .ok label, .ok item =>
        (spell? cx budget document item (request.element item label)).map
          (.array cx.runtime document.title request.path)
      | _, _ => none
    | .allOf members =>
      match request.label node,
        mergeAllOf cx.library budget document node members request.path {} with
      | .ok label, some (.ok merged, _) =>
        spell? cx budget document
          (.mk (node.title.or (some label)) merged.description merged.kind) request
      | _, _ => none
    | .object schema => some (.ofObject cx.runtime document.title request.path schema)
    | .primitive type minimum => some (.ofType (.ofPrimitive cx.runtime type minimum ""))
    | _ => none

/-- What comes of a reference is spelled as its target is. -/
theorem reference_describes {mapper : Mapper} {document : Document} {reference : String}
    {request : Request} {session session' : Session} {type : NativeType}
    (h : Native.reference cx mapper document reference request session =
      some (.ok type, session')) :
    ∃ target mapped after, cx.library.resolve document reference request.path = .ok target ∧
      mapper target.owner target.node (.ofTarget target) (session.push target.key) =
        some (.ok mapped, after) ∧
      ∀ spelling : TypeSpelling, spelling.Describes after.registry mapped →
        spelling.Describes session'.registry type := by
  obtain ⟨target, between, hfound, hrest⟩ := bind_eq_ok.1 h
  obtain ⟨htarget, rfl⟩ := ofExcept_eq_ok.1 hfound
  obtain ⟨mapped, last, hfollowing, hpure⟩ := bind_eq_ok.1 hrest
  obtain ⟨after, hbody, rfl⟩ := following_eq_ok hfollowing
  refine ⟨target, mapped, after, htarget, hbody, fun spelling hspelling ↦ ?_⟩
  cases hpure
  split
  · exact ⟨hspelling.shape_eq, hspelling.name, hspelling.wire⟩
  · exact hspelling

/-- What comes of an array is spelled around what its elements are spelled by. -/
theorem array_describes {mapper : Mapper} {document : Document} {items : Items} {label : String}
    {request : Request} {session session' : Session} {type : NativeType}
    (h : array cx mapper document items label request session = some (.ok type, session')) :
    ∃ item element between, items.element request.path = .ok item ∧
      mapper document item (request.element item label) session = some (.ok element, between) ∧
      ∀ spelling : TypeSpelling, spelling.Describes between.registry element →
        (TypeSpelling.array cx.runtime document.title request.path spelling).Describes
          session'.registry type := by
  obtain ⟨item, first, hitem, hrest⟩ := bind_eq_ok.1 h
  obtain ⟨hitem', rfl⟩ := ofExcept_eq_ok.1 hitem
  obtain ⟨element, between, helement, hnamed⟩ := bind_eq_ok.1 hrest
  obtain ⟨stem, claimed, hclaim, hadded⟩ := bind_eq_ok.1 hnamed
  change (Mapping.ofExcept _ >>= _) _ = _ at hadded
  obtain ⟨absorbed, second, habsorb, hhandled⟩ := bind_eq_ok.1 hadded
  obtain ⟨-, rfl⟩ := ofExcept_eq_ok.1 habsorb
  obtain ⟨output, third, hhandle, hpure⟩ := bind_eq_ok.1 hhandled
  obtain ⟨-, rfl⟩ := ofExcept_eq_ok.1 hhandle
  cases hpure
  refine ⟨item, element, between, hitem', helement, fun spelling hspelling ↦ ?_⟩
  obtain ⟨-, hextends, hstem⟩ := Request.claim_eq_ok hclaim
  have hwire := hspelling.wire.extends hextends
  refine ⟨rfl, ?_, hwire.within _ _⟩
  have hname : Names.qualified document.title stem ++ "Array" ++ "Handle" =
      Names.qualified document.title stem ++ ("Array" ++ "Handle") := String.append_assoc
  dsimp only
  rw [hname]
  exact .symbol hstem _

theorem object_describes {budget : Nat} {document : Document} {schema : ObjectSchema}
    {label : String} {request : Request} {session session' : Session} {type : NativeType}
    (h : object cx (map cx budget) document schema label request session =
      some (.ok type, session')) :
    (TypeSpelling.object cx.runtime document.title request.path).Describes session'.registry
      type := by
  obtain ⟨stem, claimed, hclaim, hgathered⟩ := bind_eq_ok.1 h
  change ((List.foldlM _ _ _ : Mapping Gathered) >>= _) _ = _ at hgathered
  obtain ⟨gathered, between, hfold, hhandled⟩ := bind_eq_ok.1 hgathered
  obtain ⟨output, last, hhandle, hpure⟩ := bind_eq_ok.1 hhandled
  obtain ⟨-, rfl⟩ := ofExcept_eq_ok.1 hhandle
  cases hpure
  obtain ⟨-, -, hclaimed⟩ := Request.claim_eq_ok hclaim
  have hgrows := (Claims.foldlM (addProperty_claims_any budget _ schema) _ _ _ _ _ hfold).2
  have hstem := hgrows.extends _ _ hclaimed
  refine ⟨rfl, .symbol hstem _, ?_⟩
  have hcontainer : cx.runtime.wireContainer document.title stem =
      (cx.runtime.sdkNamespace ++ "::" ++ Text.capitalize document.title ++ "::" ++ "JsonData_") ++
        stem ++ "" := by
    simp only [Runtime.wireContainer, Names.containerClass, String.append_assoc,
      String.append_empty]
  dsimp only
  rw [hcontainer]
  exact .around hstem

theorem dictionary_describes {budget : Nat} {document : Document} {additional : Node}
    {label : String} {request : Request} {session session' : Session} {type : NativeType}
    (h : dictionary cx (map cx budget) document additional label request session =
      some (.ok type, session')) :
    (TypeSpelling.map cx.runtime document.title request.path).Describes session'.registry
      type := by
  obtain ⟨stem, claimed, hclaim, hmapped⟩ := bind_eq_ok.1 h
  change (map cx budget _ _ _ >>= _) _ = _ at hmapped
  obtain ⟨value, between, hvalue, hadded⟩ := bind_eq_ok.1 hmapped
  change (Mapping.ofExcept _ >>= _) _ = _ at hadded
  obtain ⟨absorbed, second, habsorb, hhandled⟩ := bind_eq_ok.1 hadded
  obtain ⟨-, rfl⟩ := ofExcept_eq_ok.1 habsorb
  obtain ⟨output, last, hhandle, hpure⟩ := bind_eq_ok.1 hhandled
  obtain ⟨-, rfl⟩ := ofExcept_eq_ok.1 hhandle
  cases hpure
  have hgrows := (map_claims_any cx budget _ _ _ _ _ _ hvalue).2
  obtain ⟨-, -, hclaimed⟩ := Request.claim_eq_ok hclaim
  exact ⟨rfl, .symbol (hgrows.extends _ _ hclaimed) _, .plain _⟩

theorem objectLike_describes {budget : Nat} {document : Document} {schema : ObjectSchema}
    {label : String} {request : Request} {session session' : Session} {type : NativeType}
    (h : objectLike cx (map cx budget) document schema label request session =
      some (.ok type, session')) :
    (TypeSpelling.ofObject cx.runtime document.title request.path schema).Describes
      session'.registry type := by
  unfold objectLike at h
  unfold TypeSpelling.ofObject
  by_cases hproperties : schema.hasProperties
  · rw [if_pos hproperties] at h ⊢
    exact object_describes h
  rw [if_neg hproperties] at h ⊢
  cases hadditional : schema.additional with
  | some additional =>
    rw [hadditional] at h
    exact dictionary_describes h
  | none =>
    rw [hadditional] at h
    dsimp only at h
    split at h
    · cases h
    · cases h
      exact TypeSpelling.describes_ofType _ (.ofString cx.runtime "") label

theorem constant_describes {value : Json} {minimum : Option Double} {label path : String}
    {session session' : Session} {type : NativeType}
    (h : constant cx value minimum label path session = some (.ok type, session')) :
    ∃ primitive, constantType? value = some primitive ∧
      (TypeSpelling.ofType (.ofPrimitive cx.runtime primitive minimum "")).Describes
        session'.registry type := by
  unfold constant at h
  cases hprimitive : constantType? value with
  | some primitive =>
    rw [hprimitive] at h
    cases h
    exact ⟨primitive, rfl, TypeSpelling.describes_ofPrimitive _ _ primitive minimum label⟩
  | none =>
    rw [hprimitive] at h
    cases h

/-- A type that is mapped is spelled, and read with the stems that are known afterwards. -/
theorem map_spells (budget : Nat) {document : Document} {node : Node} {request : Request}
    {session session' : Session} {type : NativeType}
    (h : map cx budget document node request session = some (.ok type, session')) :
    ∃ spelling, spell? cx budget document node request = some spelling ∧
      spelling.Describes session'.registry type := by
  induction budget generalizing document node request session session' type with
  | zero => cases h
  | succ budget ih =>
    obtain ⟨title, description, kind⟩ := node
    cases kind with
    | reference reference =>
      obtain ⟨target, mapped, after, htarget, hbody, hdescribes⟩ := reference_describes h
      obtain ⟨spelling, hspelling, hspelled⟩ := ih hbody
      refine ⟨spelling, ?_, hdescribes spelling hspelled⟩
      unfold spell?
      dsimp only [Node.kind_mk]
      rw [htarget]
      exact hspelling
    | constant value minimum =>
      obtain ⟨label, between, -, hconstant⟩ := bind_eq_ok.1 h
      obtain ⟨primitive, hprimitive, hdescribes⟩ := constant_describes hconstant
      exact ⟨_, congrArg (Option.map _) hprimitive, hdescribes⟩
    | enumeration values =>
      obtain ⟨label, between, -, henumeration⟩ := bind_eq_ok.1 h
      obtain ⟨stem, claimed, hclaim, hpure⟩ := bind_eq_ok.1 henumeration
      cases hpure
      obtain ⟨-, -, hstem⟩ := Request.claim_eq_ok hclaim
      exact ⟨_, rfl, TypeSpelling.describes_enumeration hstem _ _ _⟩
    | object schema =>
      obtain ⟨label, between, -, hobject⟩ := bind_eq_ok.1 h
      exact ⟨_, rfl, objectLike_describes hobject⟩
    | array items =>
      obtain ⟨label, between, hfound, harray⟩ := bind_eq_ok.1 h
      obtain ⟨hlabel, rfl⟩ := ofExcept_eq_ok.1 hfound
      obtain ⟨item, element, after, hitem, helement, hdescribes⟩ := array_describes harray
      obtain ⟨spelling, hspelling, hspelled⟩ := ih helement
      refine ⟨_, ?_, hdescribes spelling hspelled⟩
      unfold spell?
      dsimp only [Node.kind_mk]
      rw [hlabel, hitem]
      dsimp only
      rw [hspelling]
      rfl
    | allOf members =>
      obtain ⟨label, between, hfound, hrest⟩ := bind_eq_ok.1 h
      obtain ⟨hlabel, rfl⟩ := ofExcept_eq_ok.1 hfound
      obtain ⟨merged, after, hmerge, hnext⟩ := bind_eq_ok.1 hrest
      have hchain : ({} : Session).chain ⊆ between.chain := List.nil_subset _
      have hempty := (mergeAllOf_static _ _ _ _ _ _).run_of_chain_subset hmerge hchain
      obtain ⟨spelling, hspelling, hdescribes⟩ := ih hnext
      refine ⟨spelling, ?_, hdescribes⟩
      unfold spell?
      dsimp only [Node.kind_mk]
      rw [hlabel, hempty]
      exact hspelling
    | primitive primitive minimum =>
      obtain ⟨label, between, -, hpure⟩ := bind_eq_ok.1 h
      cases hpure
      exact ⟨_, rfl, TypeSpelling.describes_ofPrimitive _ _ primitive minimum label⟩
    | _ =>
      obtain ⟨label, between, -, hfail⟩ := bind_eq_ok.1 h
      cases hfail

theorem spell?_mono {budget budget' : Nat} (hle : budget ≤ budget') {document : Document}
    {node : Node} {request : Request} {spelling : TypeSpelling}
    (h : spell? cx budget document node request = some spelling) :
    spell? cx budget' document node request = some spelling := by
  induction budget generalizing budget' document node request spelling with
  | zero => cases h
  | succ budget ih =>
    obtain ⟨budget', rfl⟩ : ∃ n, budget' = n + 1 := ⟨budget' - 1, by omega⟩
    have hle' : budget ≤ budget' := by omega
    obtain ⟨title, description, kind⟩ := node
    unfold spell? at h ⊢
    cases kind with
    | reference reference =>
      dsimp only [Node.kind_mk] at h ⊢
      cases htarget : cx.library.resolve document reference request.path with
      | ok target =>
        rw [htarget] at h
        exact ih hle' h
      | error failure =>
        rw [htarget] at h
        cases h
    | array items =>
      dsimp only [Node.kind_mk] at h ⊢
      cases hlabel : request.label (.mk title description (.array items)) with
      | error failure =>
        rw [hlabel] at h
        cases h
      | ok label =>
        cases hitem : items.element request.path with
        | error failure =>
          rw [hlabel, hitem] at h
          cases h
        | ok item =>
          rw [hlabel, hitem] at h
          obtain ⟨element, helement, rfl⟩ := Option.map_eq_some_iff.1 h
          exact Option.map_eq_some_iff.2 ⟨element, ih hle' helement, rfl⟩
    | allOf members =>
      dsimp only [Node.kind_mk] at h ⊢
      split at h
      · rename_i label merged session hlabel hmerge
        rw [hlabel, mergeAllOf_refines cx.library hle' _ _ _ _ _ _ hmerge]
        exact ih hle' h
      · cases h
    | _ => exact h

theorem spell?_reference {budget : Nat} {document : Document} {reference : String}
    {request : Request} {spelling : TypeSpelling}
    (h : spell? cx (budget + 1) document (.ofKind (.reference reference)) request =
      some spelling) :
    ∃ target, cx.library.resolve document reference request.path = .ok target ∧
      spell? cx budget target.owner target.node (.ofTarget target) = some spelling := by
  unfold spell? at h
  change (match cx.library.resolve document reference request.path with
    | .ok target => spell? cx budget target.owner target.node (.ofTarget target)
    | .error _ => none) = _ at h
  cases htarget : cx.library.resolve document reference request.path with
  | ok target =>
    rw [htarget] at h
    exact ⟨target, rfl, h⟩
  | error failure =>
    rw [htarget] at h
    cases h

/-- References to one place are spelled in the same way. -/
theorem spell?_of_place?_eq {budget budget' : Nat} {document document' : Document}
    {reference reference' : String} {request request' : Request}
    {spelling spelling' : TypeSpelling}
    (h : spell? cx (budget + 1) document (.ofKind (.reference reference)) request = some spelling)
    (h' : spell? cx (budget' + 1) document' (.ofKind (.reference reference')) request' =
      some spelling')
    (hplace : cx.library.place? document reference = cx.library.place? document' reference') :
    spelling = spelling' := by
  obtain ⟨target, htarget, hspelling⟩ := spell?_reference h
  obtain ⟨target', htarget', hspelling'⟩ := spell?_reference h'
  obtain ⟨howner, hnode, htitle, hpath⟩ :=
    Library.resolve_of_place?_eq htarget htarget' hplace
  have hrequest : Request.ofTarget target = .ofTarget target' := by
    unfold Request.ofTarget
    rw [htitle, hpath]
  have hlarge := spell?_mono (Nat.le_max_left budget budget') hspelling
  have hlarge' := spell?_mono (Nat.le_max_right budget budget') hspelling'
  rw [howner, hnode, hrequest, hlarge'] at hlarge
  exact (Option.some.inj hlarge).symm

end Native

end SchemaBindings
