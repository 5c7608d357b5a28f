import SchemaBindings.Binding.Wire
import SchemaBindings.Proofs.Composition
import SchemaBindings.Proofs.Handles
import SchemaBindings.Proofs.Resolution

/-!
# How types are put together

A mapper that succeeds has put the output of a type together from the outputs of its parts: from
those of its elements, of its values or of the properties that were not left out, followed by the
code of the type itself. Of a type in another document nothing is taken but the name. What all
outputs have in common is proved by induction on the construction, without going through the
mapper again.
-/

namespace SchemaBindings

open Code Mapping

/-! ## References out of a document -/

/-- The chain of references that starts at the schema leads out of the document. -/
inductive Library.Leaves (library : Library) : Document → Node → Prop
  | here {document : Document} {node : Node} {reference place : String} {target : Target}
      (hkind : node.kind = .reference reference)
      (htarget : library.resolve document reference place = .ok target)
      (hexternal : target.isExternal = true) : Leaves library document node
  | next {document : Document} {node : Node} {reference place : String} {target : Target}
      (hkind : node.kind = .reference reference)
      (htarget : library.resolve document reference place = .ok target)
      (hleaves : Leaves library target.owner target.node) : Leaves library document node

namespace Library

variable {library : Library} {document : Document} {node : Node}

theorem not_leaves (h : node.isReference = false) : ¬library.Leaves document node := by
  have hkind : ∀ reference, node.kind ≠ .reference reference := by
    rintro reference hreference
    unfold Node.isReference at h
    rw [hreference] at h
    cases h
  rintro (⟨hreference, -, -⟩ | ⟨hreference, -, -⟩) <;> exact hkind _ hreference

/-- A reference into the same document leaves it exactly if its target does. -/
theorem leaves_iff {reference place : String} {target : Target}
    (hkind : node.kind = .reference reference)
    (htarget : library.resolve document reference place = .ok target)
    (hinternal : target.isExternal = false) :
    library.Leaves document node ↔ library.Leaves document target.node := by
  have howner : target.owner = document :=
    owner_eq_of_not_isExternal htarget (Bool.eq_false_iff.1 hinternal)
  have hsame : ∀ {reference' place' : String} {target' : Target},
      node.kind = .reference reference' →
        library.resolve document reference' place' = .ok target' → target' = target := by
    intro reference' place' target' hkind' htarget'
    cases hkind.symm.trans hkind'
    cases (resolve_place htarget' place).symm.trans htarget
    rfl
  constructor
  · rintro (⟨hkind', htarget', hexternal⟩ | ⟨hkind', htarget', hleaves⟩)
    · rw [hsame hkind' htarget', hinternal] at hexternal
      cases hexternal
    · rw [hsame hkind' htarget', howner] at hleaves
      exact hleaves
  · intro hleaves
    rw [← howner] at hleaves
    exact .next hkind htarget hleaves

theorem owner_of_isExternal {reference place : String} {target : Target}
    (h : library.resolve document reference place = .ok target)
    (hexternal : target.isExternal = true) :
    target.owner ∈ library.documents ∧ target.owner.uri ≠ document.uri := by
  obtain ⟨_, _, -, -, -, -, hdecide, -⟩ := resolve_eq_ok h
  have hother : target.owner.uri ≠ document.uri := of_decide_eq_true (hdecide ▸ hexternal)
  obtain hsame | hmem := owner_of_resolve h
  · exact absurd (congrArg Document.uri hsame) hother
  · exact ⟨hmem, hother⟩

/-- What is put together for a reference is the target's, external if the target is in another
document. -/
theorem exists_built_reference {α : Type} {built : Bool → Document → α → Prop}
    {external : α → String → α}
    (hexternal : ∀ {owner isExternal type}, owner ∈ library.documents → owner.uri ≠ document.uri →
      built isExternal owner type → built true document (external type owner.title))
    {reference place : String} {target : Target} (hkind : node.kind = .reference reference)
    (htarget : library.resolve document reference place = .ok target) {type : α}
    (h : ∃ isExternal, built isExternal target.owner type ∧
      (isExternal = true ↔ library.Leaves target.owner target.node)) :
    ∃ isExternal, built isExternal document
        (if target.isExternal then external type target.owner.title else type) ∧
      (isExternal = true ↔ library.Leaves document node) := by
  obtain ⟨isExternal, hbuilt, hleaves⟩ := h
  cases hother : target.isExternal with
  | true =>
    rw [if_pos rfl]
    obtain ⟨howner, hne⟩ := owner_of_isExternal htarget hother
    exact ⟨true, hexternal howner hne hbuilt, iff_of_true rfl (.here hkind htarget hother)⟩
  | false =>
    rw [if_neg (by decide)]
    have howner : target.owner = document :=
      owner_eq_of_not_isExternal htarget (Bool.eq_false_iff.1 hother)
    rw [howner] at hbuilt hleaves
    exact ⟨isExternal, hbuilt, hleaves.trans (leaves_iff hkind htarget hother).symm⟩

end Library

/-- If every step of a run takes in one part, the whole run takes in a list of parts. -/
theorem exists_parts_of_foldlM {entry gathered part : Type}
    {step : gathered → entry → Mapping gathered} {add : gathered → part → Except Failure gathered}
    {good : part → Prop}
    (hstep : ∀ {soFar next x session session'}, step soFar x session = some (.ok next, session') →
      ∃ p, add soFar p = .ok next ∧ good p)
    {entries : List entry} {start result : gathered} {session session' : Session}
    (h : entries.foldlM step start session = some (.ok result, session')) :
    ∃ parts : List part, parts.foldlM add start = .ok result ∧ ∀ p ∈ parts, good p := by
  induction entries generalizing start session with
  | nil =>
    cases h
    exact ⟨[], rfl, nofun⟩
  | cons x rest ih =>
    rw [List.foldlM_cons] at h
    obtain ⟨next, _, hnext, hrest⟩ := bind_eq_ok.1 h
    obtain ⟨p, hadd, hgood⟩ := hstep hnext
    obtain ⟨parts, hfold, hparts⟩ := ih hrest
    refine ⟨p :: parts, ?_, List.forall_mem_cons.2 ⟨hgood, hparts⟩⟩
    rw [List.foldlM_cons]
    exact Failure.bind_eq_ok.2 ⟨next, hadd, hfold⟩

/-! ## Native types -/

namespace Native

/-- What becomes of a property of an object: its type with the access to it, or a notice that it is
left out. -/
inductive Part where
  | taken (isExternal : Bool) (type : NativeType) (group : AccessorGroup) (path : String)
  | omitted (notice : Diagnostic)

def Part.add (soFar : Gathered) : Part → Except Failure Gathered
  | taken _ type group path =>
    (NativeType.absorb soFar.output type path).map (⟨·, soFar.groups ++ [group]⟩)
  | omitted notice => .ok { soFar with output := soFar.output.addDiagnostic notice }

/-- A property is taken in with all that its type consists of, or left out with a notice. -/
theorem Part.add_cases {soFar next : Gathered} {part : Part} (h : part.add soFar = .ok next) :
    (∃ isExternal type group path output, part = .taken isExternal type group path ∧
      NativeType.absorb soFar.output type path = .ok output ∧
        next = ⟨output, soFar.groups ++ [group]⟩) ∨
    ∃ notice, part = .omitted notice ∧
      next = { soFar with output := soFar.output.addDiagnostic notice } := by
  cases part with
  | taken isExternal type group path =>
    obtain ⟨output, houtput, rfl⟩ := Failure.map_eq_ok.1 h
    exact .inl ⟨isExternal, type, group, path, output, rfl, houtput, rfl⟩
  | omitted notice =>
    cases h
    exact .inr ⟨notice, rfl, rfl⟩

end Native

/-- The group gives access to values of this type: to a property, to the elements of an array or to
the entries of a map. -/
inductive Access.To (runtime : Runtime) (value : ValueType) : AccessorGroup → Prop
  | property (object container name : String) (options : PropertyOptions) :
      To runtime value (property runtime object container name value options)
  | elements (base handle container : String) (place : Option (String × String)) :
      To runtime value (elements runtime base handle container place value)
  | entries (base container : String) : To runtime value (entries runtime base container value)

/-- The object that the properties of a schema with this stem belong to. -/
def Native.Parent.ofStem (runtime : Runtime) (title stem : String) : Native.Parent :=
  ⟨Names.qualified title stem, Names.objectHandle title stem, runtime.wireContainer title stem,
    stem⟩

/-- The group gives access to a property of the object that has values of this type, or to the
elements of an array in place that are of this type. -/
inductive Access.Of (runtime : Runtime) (parent : Native.Parent) (value : ValueType) :
    AccessorGroup → Prop
  | property (name : String) (options : PropertyOptions) :
      Of runtime parent value
        (property runtime parent.base parent.container name value options)
  | elements (name : String) :
      Of runtime parent value
        (elements runtime (parent.base ++ "_" ++ Text.capitalize name ++ "Array") parent.handle
          parent.container (some (name, Text.capitalize name)) value)

theorem Access.Of.to {runtime : Runtime} {parent : Native.Parent} {value : ValueType}
    {group : AccessorGroup} (h : Access.Of runtime parent value group) :
    Access.To runtime value group := by
  cases h with
  | property name options => exact .property _ _ name options
  | elements name => exact .elements _ _ _ _

namespace Native

/-- A native type of the document, as it is put together from its parts. Types that a chain of
references has led out of the document for are external. -/
inductive Built (cx : Context) : Bool → Document → NativeType → Prop
  | primitive (document : Document) (type : Primitive) (minimum : Option Double) (label : String) :
      Built cx false document (.ofPrimitive cx.runtime type minimum label)
  | enumeration (document : Document) (stem label : String) (description : Option String)
      (values : List String) :
      Built cx false document
        ⟨Names.qualified document.title stem, .enumeration,
          cx.runtime.wireEnum (Names.qualified document.title stem), label,
          { enums := .single (Names.qualified document.title stem) (.ofPieces [.enumeration
              ⟨Names.qualified document.title stem, label, description, values⟩])
            conversions := .single (Names.qualified document.title stem) (.ofPieces [.conversion
              ⟨Names.qualified document.title stem, label, description, values⟩]) }⟩
  | array {document : Document} {isExternal : Bool} {element : NativeType}
      {stem label path : String} {output result : Output}
      (helement : Built cx isExternal document element)
      (habsorb : NativeType.absorb {} element path = .ok output)
      (hadd : addHandle output (Names.qualified document.title stem ++ "Array" ++ "Handle")
        [Access.lifecycle cx.runtime (Names.qualified document.title stem ++ "Array" ++ "Handle")
            (cx.runtime.wireArray element.wire),
          Access.elements cx.runtime (Names.qualified document.title stem ++ "Array")
            (Names.qualified document.title stem ++ "Array" ++ "Handle")
            (cx.runtime.wireArray element.wire) none element.valueType] path = .ok result) :
      Built cx false document
        ⟨Names.qualified document.title stem ++ "Array" ++ "Handle", .array,
          cx.runtime.wireArray element.wire, label, result⟩
  | object {document : Document} {stem label path : String} {parts : List Part}
      {gathered : Gathered} {result : Output}
      (hparts : ∀ isExternal type group place, .taken isExternal type group place ∈ parts →
        Built cx isExternal document type)
      (hgroups : ∀ isExternal type group place, .taken isExternal type group place ∈ parts →
        Access.Of cx.runtime (.ofStem cx.runtime document.title stem) type.valueType group)
      (hgathered : parts.foldlM Part.add ⟨{}, [Access.lifecycle cx.runtime
          (Names.objectHandle document.title stem)
          (cx.runtime.wireContainer document.title stem)]⟩ = .ok gathered)
      (hadd : addHandle gathered.output (Names.objectHandle document.title stem) gathered.groups
        path = .ok result) :
      Built cx false document
        ⟨Names.objectHandle document.title stem, .object,
          cx.runtime.wireContainer document.title stem, label, result⟩
  | map {document : Document} {isExternal : Bool} {value : NativeType} {stem label path : String}
      {output result : Output} (hvalue : Built cx isExternal document value)
      (habsorb : NativeType.absorb {} value path = .ok output)
      (hadd : addHandle output (Names.objectHandle document.title stem)
        [Access.lifecycle cx.runtime (Names.objectHandle document.title stem) cx.runtime.wireMap,
          Access.entries cx.runtime (Names.qualified document.title stem) cx.runtime.wireMap
            value.valueType] path = .ok result) :
      Built cx false document
        ⟨Names.objectHandle document.title stem, .map, cx.runtime.wireMap, label, result⟩
  | external {document owner : Document} {isExternal : Bool} {type : NativeType}
      (howner : owner ∈ cx.library.documents) (hother : owner.uri ≠ document.uri)
      (htype : Built cx isExternal owner type) :
      Built cx true document (type.external owner.title)

variable {cx : Context} {mapper : Mapper} {document : Document} {request : Request}
  {session session' : Session} {type : NativeType}

/-- The mapper gives only types that are put together. -/
def Builds (cx : Context) (mapper : Mapper) : Prop :=
  ∀ {document node request session type session'},
    mapper document node request session = some (.ok type, session') →
      ∃ isExternal, Built cx isExternal document type ∧
        (isExternal = true ↔ cx.library.Leaves document node)

theorem array_built (hmapper : Builds cx mapper) {items : Items} {label : String}
    (h : array cx mapper document items label request session = some (.ok type, session')) :
    Built cx false document type := by
  obtain ⟨item, _, -, h⟩ := bind_eq_ok.1 h
  obtain ⟨element, _, helement, h⟩ := bind_eq_ok.1 h
  obtain ⟨stem, _, -, h⟩ := bind_eq_ok.1 h
  obtain ⟨output, _, habsorb, h⟩ := bind_eq_ok.1 h
  obtain ⟨result, _, hadd, h⟩ := bind_eq_ok.1 h
  cases h
  obtain ⟨isExternal, hbuilt, -⟩ := hmapper helement
  exact .array hbuilt (ofExcept_eq_ok.1 habsorb).1 (ofExcept_eq_ok.1 hadd).1

theorem dictionary_built (hmapper : Builds cx mapper) {additional : Node} {label : String}
    (h : dictionary cx mapper document additional label request session =
      some (.ok type, session')) : Built cx false document type := by
  obtain ⟨stem, _, -, h⟩ := bind_eq_ok.1 h
  obtain ⟨value, _, hvalue, h⟩ := bind_eq_ok.1 h
  obtain ⟨output, _, habsorb, h⟩ := bind_eq_ok.1 h
  obtain ⟨result, _, hadd, h⟩ := bind_eq_ok.1 h
  cases h
  obtain ⟨isExternal, hbuilt, -⟩ := hmapper hvalue
  exact .map hbuilt (ofExcept_eq_ok.1 habsorb).1 (ofExcept_eq_ok.1 hadd).1

/-- The elements of an array in place are accessed through the object, all else as a value. -/
theorem property_built (hmapper : Builds cx mapper) {parent : Parent} {isOptional : Bool}
    {name : String} {node : Node} {value : NativeType × AccessorGroup}
    (h : property cx mapper document parent isOptional name node request session =
      some (.ok value, session')) :
    ∃ isExternal, Built cx isExternal document value.1 ∧
      Access.Of cx.runtime parent value.1.valueType value.2 := by
  obtain ⟨title, description, kind⟩ := node
  have hwhole : ∀ options,
      (mapper document (.mk title description kind) request >>= fun value ↦
        pure (value, Access.property cx.runtime parent.base parent.container name
          value.valueType options)) session = some (.ok value, session') →
      ∃ isExternal, Built cx isExternal document value.1 ∧
        Access.Of cx.runtime parent value.1.valueType value.2 := by
    intro options h
    obtain ⟨type, _, htype, h⟩ := bind_eq_ok.1 h
    cases h
    obtain ⟨isExternal, hbuilt, -⟩ := hmapper htype
    exact ⟨isExternal, hbuilt, .property _ _⟩
  cases kind with
  | array items =>
    obtain ⟨item, _, -, h⟩ := bind_eq_ok.1 h
    obtain ⟨element, _, helement, h⟩ := bind_eq_ok.1 h
    cases h
    obtain ⟨isExternal, hbuilt, -⟩ := hmapper helement
    exact ⟨isExternal, hbuilt, .elements _⟩
  | _ => exact hwhole _ h

/-- A property is taken in with its type and the access to it, or it has no type and is left out
with a notice. -/
theorem addProperty_cases {parent : Parent} {object : ObjectSchema} {soFar gathered : Gathered}
    {entry : String × Node}
    (h : addProperty cx mapper document parent object request soFar entry session =
      some (.ok gathered, session')) :
    (∃ value group output between, property cx mapper document parent (object.isOptional entry.1)
        entry.1 entry.2 (request.property parent.stem entry.1) session =
          some (.ok (value, group), between) ∧
      NativeType.absorb soFar.output value (request.property parent.stem entry.1).path =
        .ok output ∧
      gathered = ⟨output, soFar.groups ++ [group]⟩) ∨
    ∃ failure between, property cx mapper document parent (object.isOptional entry.1) entry.1
        entry.2 (request.property parent.stem entry.1) session = some (.error failure, between) ∧
      failure.isRecoverable = true ∧
      gathered = { soFar with output := soFar.output.addDiagnostic (.ofFailure failure) } := by
  obtain ⟨name, node⟩ := entry
  obtain ⟨found, between, hrun, h⟩ := attempt_bind_eq_ok.1 h
  cases found with
  | ok value =>
    obtain ⟨value, group⟩ := value
    obtain ⟨output, _, habsorb, h⟩ := bind_eq_ok.1 h
    cases h
    exact .inl ⟨value, group, output, between, hrun, (ofExcept_eq_ok.1 habsorb).1, rfl⟩
  | error failure =>
    dsimp only at h
    split at h
    · cases h
      exact .inr ⟨failure, between, hrun, ‹_›, rfl⟩
    · cases h

theorem addProperty_built (hmapper : Builds cx mapper) {parent : Parent} {object : ObjectSchema}
    {soFar gathered : Gathered} {entry : String × Node}
    (h : addProperty cx mapper document parent object request soFar entry session =
      some (.ok gathered, session')) :
    ∃ part : Part, part.add soFar = .ok gathered ∧
      ∀ isExternal type group place, part = .taken isExternal type group place →
        Built cx isExternal document type ∧
          Access.Of cx.runtime parent type.valueType group := by
  obtain ⟨value, group, output, between, hrun, habsorb, rfl⟩ | ⟨failure, between, -, -, rfl⟩ :=
    addProperty_cases h
  · obtain ⟨isExternal, hbuilt, hvalue⟩ := property_built hmapper hrun
    refine ⟨.taken isExternal value group (request.property parent.stem entry.1).path, ?_, ?_⟩
    · exact Failure.map_eq_ok.2 ⟨output, habsorb, rfl⟩
    · rintro _ _ _ _ ⟨⟩
      exact ⟨hbuilt, hvalue⟩
  · refine ⟨.omitted (.ofFailure failure), rfl, ?_⟩
    rintro _ _ _ _ ⟨⟩

theorem object_built (hmapper : Builds cx mapper) {object : ObjectSchema} {label : String}
    (h : Native.object cx mapper document object label request session =
      some (.ok type, session')) : Built cx false document type := by
  obtain ⟨stem, _, -, h⟩ := bind_eq_ok.1 h
  obtain ⟨gathered, _, hgathered, h⟩ := bind_eq_ok.1 h
  obtain ⟨result, _, hadd, h⟩ := bind_eq_ok.1 h
  cases h
  obtain ⟨parts, hfold, hparts⟩ :=
    exists_parts_of_foldlM (fun hnext ↦ addProperty_built hmapper hnext) hgathered
  exact .object (fun _ _ _ _ hmem ↦ (hparts _ hmem _ _ _ _ rfl).1)
    (fun _ _ _ _ hmem ↦ (hparts _ hmem _ _ _ _ rfl).2) hfold (ofExcept_eq_ok.1 hadd).1

theorem objectLike_built (hmapper : Builds cx mapper) {schema : ObjectSchema} {label : String}
    (h : objectLike cx mapper document schema label request session =
      some (.ok type, session')) : Built cx false document type := by
  unfold objectLike at h
  by_cases hproperties : schema.hasProperties
  · rw [if_pos hproperties] at h
    exact object_built hmapper h
  rw [if_neg hproperties] at h
  cases hadditional : schema.additional with
  | some additional =>
    rw [hadditional] at h
    exact dictionary_built hmapper h
  | none =>
    rw [hadditional] at h
    dsimp only at h
    split at h
    · cases h
    · cases h
      exact .primitive document .string none label

/-- What a reference leads to in another document is put together there. -/
theorem reference_built (hmapper : Builds cx mapper) {reference : String} {node : Node}
    (hkind : node.kind = .reference reference)
    (h : Native.reference cx mapper document reference request session =
      some (.ok type, session')) :
    ∃ isExternal, Built cx isExternal document type ∧
      (isExternal = true ↔ cx.library.Leaves document node) := by
  obtain ⟨target, _, hfound, hrest⟩ := bind_eq_ok.1 h
  obtain ⟨htarget, -⟩ := ofExcept_eq_ok.1 hfound
  obtain ⟨mapped, _, hfollowing, hpure⟩ := bind_eq_ok.1 hrest
  obtain ⟨after, hbody, -⟩ := following_eq_ok hfollowing
  cases hpure
  exact Library.exists_built_reference .external hkind htarget (hmapper hbody)

theorem map_built (cx : Context) (budget : Nat) : Builds cx (map cx budget) := by
  induction budget with
  | zero => exact fun h ↦ nomatch h
  | succ budget ih =>
    intro document node request session type session' h
    have hhere : node.isReference = false → Built cx false document type →
        ∃ isExternal, Built cx isExternal document type ∧
          (isExternal = true ↔ cx.library.Leaves document node) :=
      fun hnode hbuilt ↦ ⟨false, hbuilt, iff_of_false (by decide) (Library.not_leaves hnode)⟩
    obtain ⟨title, description, kind⟩ := node
    cases kind with
    | reference reference =>
      have h' : Native.reference cx (map cx budget) document reference request session =
        some (.ok type, session') := h
      exact reference_built ih rfl h'
    | constant value minimum =>
      obtain ⟨label, between, -, hconstant⟩ := bind_eq_ok.1 h
      refine hhere rfl ?_
      change constant cx value minimum label request.path between = _ at hconstant
      unfold constant at hconstant
      cases htype : constantType? value with
      | some primitive =>
        rw [htype] at hconstant
        cases hconstant
        exact .primitive document primitive minimum label
      | none =>
        rw [htype] at hconstant
        cases hconstant
    | enumeration values =>
      obtain ⟨label, _, -, h⟩ := bind_eq_ok.1 h
      obtain ⟨stem, _, -, h⟩ := bind_eq_ok.1 h
      cases h
      exact hhere rfl (.enumeration document stem label description values)
    | array items =>
      obtain ⟨label, _, -, h⟩ := bind_eq_ok.1 h
      exact hhere rfl (array_built ih h)
    | allOf members =>
      obtain ⟨label, _, -, h⟩ := bind_eq_ok.1 h
      obtain ⟨merged, _, hmerge, h⟩ := bind_eq_ok.1 h
      obtain ⟨isExternal, hbuilt, hleaves⟩ := ih h
      have hmerged : merged.isReference = false := mergeAllOf_isReference hmerge
      have hstays : ¬cx.library.Leaves document
          (.mk (title.or (some label)) merged.description merged.kind) :=
        Library.not_leaves hmerged
      rw [Bool.eq_false_iff.2 fun htrue ↦ hstays (hleaves.1 htrue)] at hbuilt
      exact hhere rfl hbuilt
    | object schema =>
      obtain ⟨label, _, -, h⟩ := bind_eq_ok.1 h
      exact hhere rfl (objectLike_built ih h)
    | primitive primitive minimum =>
      obtain ⟨label, _, -, h⟩ := bind_eq_ok.1 h
      cases h
      exact hhere rfl (.primitive document primitive minimum label)
    | _ =>
      obtain ⟨label, _, -, h⟩ := bind_eq_ok.1 h
      cases h

end Native

/-! ## Wire types -/

namespace Wire

/-- What becomes of a property of an object: its type, or a notice that it is left out. -/
inductive Part where
  | taken (isExternal : Bool) (property : String) (type : WireType) (path : String)
  | omitted (notice : Diagnostic)

def Part.add (soFar : Gathered) : Part → Except Failure Gathered
  | taken _ property type path =>
    (WireType.absorb soFar.output type path).map (⟨·, soFar.members ++ [⟨property, type.name⟩]⟩)
  | omitted notice => .ok { soFar with output := soFar.output.addDiagnostic notice }

/-- A property is taken in with all that its type consists of, or left out with a notice. -/
theorem Part.add_cases {soFar next : Gathered} {part : Part} (h : part.add soFar = .ok next) :
    (∃ isExternal property type path output, part = .taken isExternal property type path ∧
      WireType.absorb soFar.output type path = .ok output ∧
        next = ⟨output, soFar.members ++ [⟨property, type.name⟩]⟩) ∨
    ∃ notice, part = .omitted notice ∧
      next = { soFar with output := soFar.output.addDiagnostic notice } := by
  cases part with
  | taken isExternal property type path =>
    obtain ⟨output, houtput, rfl⟩ := Failure.map_eq_ok.1 h
    exact .inl ⟨isExternal, property, type, path, output, rfl, houtput, rfl⟩
  | omitted notice =>
    cases h
    exact .inr ⟨notice, rfl, rfl⟩

/-- A wire type of the document, as it is put together from its parts. -/
inductive Built (cx : Context) : Bool → Document → WireType → Prop
  | primitive (document : Document) (type : Primitive) (minimum : Option Double) :
      Built cx false document (.named (cx.runtime.wirePrimitive type minimum))
  | enumeration (document : Document) (stem : String) :
      Built cx false document
        (.named (cx.runtime.wireEnum (Names.qualified document.title stem)))
  | array {document : Document} {isExternal : Bool} {element : WireType} {path : String}
      {output : Output} (helement : Built cx isExternal document element)
      (habsorb : WireType.absorb {} element path = .ok output) :
      Built cx false document ⟨cx.runtime.wireArray element.name, output⟩
  | object {document : Document} {stem path : String} {parts : List Part} {gathered : Gathered}
      {result : Output}
      (hparts : ∀ isExternal property type place,
        .taken isExternal property type place ∈ parts → Built cx isExternal document type)
      (hgathered : parts.foldlM Part.add ⟨{}, []⟩ = .ok gathered)
      (hinsert : (gathered.output.insert .containers (Names.containerClass stem) [.container
        ⟨Names.containerClass stem, cx.runtime.jsonType "Container", gathered.members⟩]
          path).toExcept = .ok result) :
      Built cx false document ⟨cx.runtime.wireContainer document.title stem, result⟩
  | map {document : Document} {isExternal : Bool} {value : WireType} {path : String}
      {output : Output} (hvalue : Built cx isExternal document value)
      (habsorb : WireType.absorb {} value path = .ok output) :
      Built cx false document ⟨cx.runtime.wireMap, output⟩
  | external {document owner : Document} {isExternal : Bool} {type : WireType}
      (howner : owner ∈ cx.library.documents) (hother : owner.uri ≠ document.uri)
      (htype : Built cx isExternal owner type) :
      Built cx true document (type.external owner.title)

variable {cx : Context} {mapper : Mapper} {document : Document} {request : Request}
  {session session' : Session} {type : WireType}

/-- The mapper gives only types that are put together. -/
def Builds (cx : Context) (mapper : Mapper) : Prop :=
  ∀ {document node request session type session'},
    mapper document node request session = some (.ok type, session') →
      ∃ isExternal, Built cx isExternal document type ∧
        (isExternal = true ↔ cx.library.Leaves document node)

theorem array_built (hmapper : Builds cx mapper) {items : Items} {label : String}
    (h : array cx mapper document items label request session = some (.ok type, session')) :
    Built cx false document type := by
  obtain ⟨item, _, -, h⟩ := bind_eq_ok.1 h
  obtain ⟨element, _, helement, h⟩ := bind_eq_ok.1 h
  obtain ⟨output, _, habsorb, h⟩ := bind_eq_ok.1 h
  cases h
  obtain ⟨isExternal, hbuilt, -⟩ := hmapper helement
  exact .array hbuilt (ofExcept_eq_ok.1 habsorb).1

theorem dictionary_built (hmapper : Builds cx mapper) {additional : Node} {label : String}
    (h : dictionary cx mapper document additional label request session =
      some (.ok type, session')) : Built cx false document type := by
  obtain ⟨stem, _, -, h⟩ := bind_eq_ok.1 h
  obtain ⟨value, _, hvalue, h⟩ := bind_eq_ok.1 h
  obtain ⟨output, _, habsorb, h⟩ := bind_eq_ok.1 h
  cases h
  obtain ⟨isExternal, hbuilt, -⟩ := hmapper hvalue
  exact .map hbuilt (ofExcept_eq_ok.1 habsorb).1

theorem addMember_built (hmapper : Builds cx mapper) {stem : String} {soFar gathered : Gathered}
    {entry : String × Node}
    (h : addMember mapper document stem request soFar entry session =
      some (.ok gathered, session')) :
    ∃ part : Part, part.add soFar = .ok gathered ∧
      ∀ isExternal property type place, part = .taken isExternal property type place →
        Built cx isExternal document type := by
  obtain ⟨name, node⟩ := entry
  obtain ⟨result, between, hrun, h⟩ := attempt_bind_eq_ok.1 h
  cases result with
  | ok value =>
    obtain ⟨isExternal, hbuilt, -⟩ := hmapper hrun
    obtain ⟨output, _, habsorb, h⟩ := bind_eq_ok.1 h
    cases h
    refine ⟨.taken isExternal name value (request.property stem name).path, ?_, ?_⟩
    · exact Failure.map_eq_ok.2 ⟨output, (ofExcept_eq_ok.1 habsorb).1, rfl⟩
    · rintro _ _ _ _ ⟨⟩
      exact hbuilt
  | error failure =>
    dsimp only at h
    split at h
    · cases h
      refine ⟨.omitted (.ofFailure failure), rfl, ?_⟩
      rintro _ _ _ _ ⟨⟩
    · cases h

theorem object_built (hmapper : Builds cx mapper) {object : ObjectSchema} {label : String}
    (h : Wire.object cx mapper document object label request session =
      some (.ok type, session')) : Built cx false document type := by
  obtain ⟨stem, _, -, h⟩ := bind_eq_ok.1 h
  obtain ⟨gathered, _, hgathered, h⟩ := bind_eq_ok.1 h
  obtain ⟨result, _, hinsert, h⟩ := bind_eq_ok.1 h
  cases h
  obtain ⟨parts, hfold, hparts⟩ :=
    exists_parts_of_foldlM (fun hnext ↦ addMember_built hmapper hnext) hgathered
  exact .object (fun _ _ _ _ hmem ↦ hparts _ hmem _ _ _ _ rfl) hfold (ofExcept_eq_ok.1 hinsert).1

theorem objectLike_built (hmapper : Builds cx mapper) {schema : ObjectSchema} {label : String}
    (h : objectLike cx mapper document schema label request session =
      some (.ok type, session')) : Built cx false document type := by
  unfold objectLike at h
  by_cases hproperties : schema.hasProperties
  · rw [if_pos hproperties] at h
    exact object_built hmapper h
  rw [if_neg hproperties] at h
  cases hadditional : schema.additional with
  | some additional =>
    rw [hadditional] at h
    exact dictionary_built hmapper h
  | none =>
    rw [hadditional] at h
    dsimp only at h
    split at h
    · cases h
    · cases h
      exact .primitive document .string none

/-- What a reference leads to in another document is put together there. -/
theorem reference_built (hmapper : Builds cx mapper) {reference : String} {node : Node}
    (hkind : node.kind = .reference reference)
    (h : Wire.reference cx mapper document reference request session =
      some (.ok type, session')) :
    ∃ isExternal, Built cx isExternal document type ∧
      (isExternal = true ↔ cx.library.Leaves document node) := by
  obtain ⟨target, _, hfound, hrest⟩ := bind_eq_ok.1 h
  obtain ⟨htarget, -⟩ := ofExcept_eq_ok.1 hfound
  obtain ⟨mapped, _, hfollowing, hpure⟩ := bind_eq_ok.1 hrest
  obtain ⟨after, hbody, -⟩ := following_eq_ok hfollowing
  cases hpure
  exact Library.exists_built_reference .external hkind htarget (hmapper hbody)

theorem map_built (cx : Context) (budget : Nat) : Builds cx (map cx budget) := by
  induction budget with
  | zero => exact fun h ↦ nomatch h
  | succ budget ih =>
    intro document node request session type session' h
    have hhere : node.isReference = false → Built cx false document type →
        ∃ isExternal, Built cx isExternal document type ∧
          (isExternal = true ↔ cx.library.Leaves document node) :=
      fun hnode hbuilt ↦ ⟨false, hbuilt, iff_of_false (by decide) (Library.not_leaves hnode)⟩
    obtain ⟨title, description, kind⟩ := node
    cases kind with
    | reference reference =>
      have h' : Wire.reference cx (map cx budget) document reference request session =
        some (.ok type, session') := h
      exact reference_built ih rfl h'
    | constant value minimum =>
      obtain ⟨label, between, -, hconstant⟩ := bind_eq_ok.1 h
      refine hhere rfl ?_
      change constant cx value minimum request.path between = _ at hconstant
      unfold constant at hconstant
      cases htype : constantType? value with
      | some primitive =>
        rw [htype] at hconstant
        cases hconstant
        exact .primitive document primitive minimum
      | none =>
        rw [htype] at hconstant
        cases hconstant
    | enumeration values =>
      obtain ⟨label, _, -, h⟩ := bind_eq_ok.1 h
      obtain ⟨stem, _, -, h⟩ := bind_eq_ok.1 h
      cases h
      exact hhere rfl (.enumeration document stem)
    | array items =>
      obtain ⟨label, _, -, h⟩ := bind_eq_ok.1 h
      exact hhere rfl (array_built ih h)
    | allOf members =>
      obtain ⟨label, _, -, h⟩ := bind_eq_ok.1 h
      obtain ⟨merged, _, hmerge, h⟩ := bind_eq_ok.1 h
      obtain ⟨isExternal, hbuilt, hleaves⟩ := ih h
      have hmerged : merged.isReference = false := mergeAllOf_isReference hmerge
      have hstays : ¬cx.library.Leaves document
          (.mk (title.or (some label)) merged.description merged.kind) :=
        Library.not_leaves hmerged
      rw [Bool.eq_false_iff.2 fun htrue ↦ hstays (hleaves.1 htrue)] at hbuilt
      exact hhere rfl hbuilt
    | object schema =>
      obtain ⟨label, _, -, h⟩ := bind_eq_ok.1 h
      exact hhere rfl (objectLike_built ih h)
    | primitive primitive minimum =>
      obtain ⟨label, _, -, h⟩ := bind_eq_ok.1 h
      cases h
      exact hhere rfl (.primitive document primitive minimum)
    | _ =>
      obtain ⟨label, _, -, h⟩ := bind_eq_ok.1 h
      cases h

end Wire

end SchemaBindings
