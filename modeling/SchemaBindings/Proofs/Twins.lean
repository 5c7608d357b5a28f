import SchemaBindings.Proofs.Construction
import SchemaBindings.Proofs.Occurrences
import SchemaBindings.Proofs.Simulation

/-!
# Native and wire types of the same schema

The two mappers go over the same schema, claim the same stems for it and leave out the same
properties. Of every step of the one there is a step of the other, so that the types that both give
are put together side by side. They differ in an array that is declared in place: the native side
goes through to its elements, the wire side maps it by itself. A property without a name would make
that difference visible.
-/

namespace SchemaBindings

open Code Mapping

/-! ## Named properties -/

/-- No property anywhere in the schema has the empty name. -/
def Node.Named (node : Node) : Prop := .property "" ∉ node.mentions

/-- No schema that can be read from the document has a property with the empty name. -/
def Document.Named (document : Document) : Prop :=
  ∀ fragment path value node, document.fragment? fragment = some value →
    Node.read path value = .ok node → node.Named

/-- A document that holds the empty text nowhere has no property with the empty name either. -/
theorem Document.named_of_texts {document : Document} (h : "" ∉ document.content.texts) :
    document.Named := by
  intro fragment path value node hvalue hread hm
  have htext : "" ∈ value.texts := Node.mem_texts_of_read hread hm
  exact h (mem_texts_of_fragment? hvalue htext)

def Library.Named (library : Library) : Prop := ∀ document ∈ library.documents, document.Named

theorem Library.Named.target {library : Library} (hlibrary : library.Named) {document : Document}
    (hdocument : document.Named) {reference place : String} {target : Target}
    (h : library.resolve document reference place = .ok target) :
    target.owner.Named ∧ target.node.Named := by
  have howner : target.owner.Named := by
    obtain hcurrent | hmem := owner_of_resolve h
    · rw [hcurrent]
      exact hdocument
    · exact hlibrary target.owner hmem
  obtain ⟨fragment, value, -, hvalue, hread, -⟩ := resolve_eq_ok h
  exact ⟨howner, howner fragment _ value target.node hvalue hread⟩

theorem Occurrence.Reaches.named {library : Library} (hlibrary : library.Named)
    {o o' : Occurrence} (h : Reaches library o o') (hhome : o.home.Named) (hnode : o.node.Named) :
    o'.home.Named ∧ o'.node.Named := by
  induction h with
  | refl => exact ⟨hhome, hnode⟩
  | tail _ hlast ih =>
    obtain ⟨hhome, hnode⟩ := ih
    cases hlast with
    | reference hkind htarget => exact hlibrary.target hhome htarget
    | member hkind hmember =>
      refine ⟨hhome, fun hm ↦ hnode ?_⟩
      rw [Node.mentions_eq, hkind]
      exact mem_listMentions.2 ⟨_, hmember, hm⟩

theorem mergeAllOf_named {library : Library} (hlibrary : library.Named) {budget : Nat}
    {document : Document} {outer merged : Node} {members : List Node} {path : String}
    {session session' : Session} (hdocument : document.Named)
    (hmembers : ∀ member ∈ members, member.Named)
    (h : mergeAllOf library budget document outer members path session =
      some (.ok merged, session')) : merged.Named := by
  intro hm
  obtain ⟨member, hmember, o, hreaches, hcopy⟩ := exists_reaches_of_mergeAllOf h hm
  have hnamed := (hreaches.named hlibrary hdocument (hmembers member hmember)).2
  exact hnamed (Occurrence.property_of_copy hcopy)

/-! ## Types side by side -/

namespace Twin

/-- What becomes of a property of an object on both sides: its types, those of the elements of an
array in place, or a notice that it is left out. -/
inductive Part where
  | whole (native : NativeType) (wire : WireType) (property : String)
    (options : Access.PropertyOptions) (path : String)
  | elements (element : NativeType) (value : WireType) (output : Output)
    (property path : String)
  | omitted (notice : Diagnostic)

/-- Access to the elements of an array in place, through the object that it is a property of. -/
def elementsOf (runtime : Runtime) (parent : Native.Parent) (property : String)
    (element : ValueType) : AccessorGroup :=
  Access.elements runtime (parent.base ++ "_" ++ Text.capitalize property ++ "Array")
    parent.handle parent.container (some (property, Text.capitalize property)) element

/-- What has been gathered for an object on both sides. -/
abbrev Gathered := Native.Gathered × Wire.Gathered

def Part.add (runtime : Runtime) (parent : Native.Parent) (soFar : Gathered) :
    Part → Except Failure Gathered
  | whole native wire property options path => do
    let output ← NativeType.absorb soFar.1.output native path
    let output' ← WireType.absorb soFar.2.output wire path
    let group := Access.property runtime parent.base parent.container property native.valueType
      options
    pure (⟨output, soFar.1.groups ++ [group]⟩,
      ⟨output', soFar.2.members ++ [⟨property, wire.name⟩]⟩)
  | elements element value output property path => do
    let type := runtime.wireArray value.name
    let result ← NativeType.absorb soFar.1.output element path
    let result' ← WireType.absorb soFar.2.output ⟨type, output⟩ path
    pure (⟨result, soFar.1.groups ++ [elementsOf runtime parent property element.valueType]⟩,
      ⟨result', soFar.2.members ++ [⟨property, type⟩]⟩)
  | omitted notice =>
    .ok ({ soFar.1 with output := soFar.1.output.addDiagnostic notice },
      { soFar.2 with output := soFar.2.output.addDiagnostic notice })

/-- The types of the part are related; those of elements are so as they are without the array. -/
def Part.Of (R : NativeType → WireType → Prop) : Part → Prop
  | whole native wire _ _ _ => R native wire
  | elements element value output _ _ =>
    R element value ∧ ∃ inner, WireType.absorb {} value inner = .ok output
  | omitted _ => True

/-- What an object starts with on both sides: the life of its handle, and no members. -/
def start (runtime : Runtime) (parent : Native.Parent) : Gathered :=
  (⟨{}, [Access.lifecycle runtime parent.handle parent.container]⟩, ⟨{}, []⟩)

end Twin

/-- A native and a wire type of the document, as they are put together side by side. -/
inductive Twin (cx : Context) : Document → NativeType → WireType → Prop
  | primitive (document : Document) (type : Primitive) (minimum : Option Double) (label : String) :
      Twin cx document (.ofPrimitive cx.runtime type minimum label)
        (.named (cx.runtime.wirePrimitive type minimum))
  | enumeration (document : Document) (stem label : String) (description : Option String)
      (values : List String) :
      Twin cx document
        ⟨Names.qualified document.title stem, .enumeration,
          cx.runtime.wireEnum (Names.qualified document.title stem), label,
          { enums := .single (Names.qualified document.title stem) (.ofPieces [.enumeration
              ⟨Names.qualified document.title stem, label, description, values⟩])
            conversions := .single (Names.qualified document.title stem) (.ofPieces [.conversion
              ⟨Names.qualified document.title stem, label, description, values⟩]) }⟩
        (.named (cx.runtime.wireEnum (Names.qualified document.title stem)))
  | array {document : Document} {element : NativeType} {value : WireType}
      {stem label path : String} {output output' result : Output}
      (helement : Twin cx document element value)
      (habsorb : NativeType.absorb {} element path = .ok output)
      (habsorb' : WireType.absorb {} value path = .ok output')
      (hadd : Native.addHandle output (Names.qualified document.title stem ++ "Array" ++ "Handle")
        [Access.lifecycle cx.runtime (Names.qualified document.title stem ++ "Array" ++ "Handle")
            (cx.runtime.wireArray element.wire),
          Access.elements cx.runtime (Names.qualified document.title stem ++ "Array")
            (Names.qualified document.title stem ++ "Array" ++ "Handle")
            (cx.runtime.wireArray element.wire) none element.valueType] path = .ok result) :
      Twin cx document
        ⟨Names.qualified document.title stem ++ "Array" ++ "Handle", .array,
          cx.runtime.wireArray element.wire, label, result⟩
        ⟨cx.runtime.wireArray value.name, output'⟩
  | object {document : Document} {stem label path : String} {parts : List Twin.Part}
      {gathered : Twin.Gathered} {result result' : Output}
      (hwhole : ∀ native wire property options place,
        .whole native wire property options place ∈ parts → Twin cx document native wire)
      (helements : ∀ element value output property place,
        .elements element value output property place ∈ parts → Twin cx document element value)
      (habsorb : ∀ element value output property place,
        .elements element value output property place ∈ parts →
          ∃ inner, WireType.absorb {} value inner = .ok output)
      (hgathered : parts.foldlM
        (Twin.Part.add cx.runtime (.ofStem cx.runtime document.title stem))
        (Twin.start cx.runtime (.ofStem cx.runtime document.title stem)) = .ok gathered)
      (hadd : Native.addHandle gathered.1.output (Names.objectHandle document.title stem)
        gathered.1.groups path = .ok result)
      (hinsert : (gathered.2.output.insert .containers (Names.containerClass stem) [.container
        ⟨Names.containerClass stem, cx.runtime.jsonType "Container", gathered.2.members⟩]
          path).toExcept = .ok result') :
      Twin cx document
        ⟨Names.objectHandle document.title stem, .object,
          cx.runtime.wireContainer document.title stem, label, result⟩
        ⟨cx.runtime.wireContainer document.title stem, result'⟩
  | map {document : Document} {value : NativeType} {value' : WireType} {stem label path : String}
      {output output' result : Output} (hvalue : Twin cx document value value')
      (habsorb : NativeType.absorb {} value path = .ok output)
      (habsorb' : WireType.absorb {} value' path = .ok output')
      (hadd : Native.addHandle output (Names.objectHandle document.title stem)
        [Access.lifecycle cx.runtime (Names.objectHandle document.title stem) cx.runtime.wireMap,
          Access.entries cx.runtime (Names.qualified document.title stem) cx.runtime.wireMap
            value.valueType] path = .ok result) :
      Twin cx document
        ⟨Names.objectHandle document.title stem, .map, cx.runtime.wireMap, label, result⟩
        ⟨cx.runtime.wireMap, output'⟩
  | external {document owner : Document} {native : NativeType} {wire : WireType}
      (howner : owner ∈ cx.library.documents) (htypes : Twin cx owner native wire) :
      Twin cx document (native.external owner.title) (wire.external owner.title)

/-- Each part of an object has types that are related, if all those of the whole object are. -/
theorem Twin.Part.of_mem {R : NativeType → WireType → Prop} {parts : List Part}
    (hwhole : ∀ native wire property options place,
      .whole native wire property options place ∈ parts → R native wire)
    (helements : ∀ element value output property place,
      .elements element value output property place ∈ parts → R element value)
    (habsorb : ∀ element value output property place,
      .elements element value output property place ∈ parts →
        ∃ inner, WireType.absorb {} value inner = .ok output) :
    ∀ part ∈ parts, part.Of R := by
  intro part hpart
  cases part with
  | whole native wire property options path => exact hwhole _ _ _ _ _ hpart
  | elements element value output property path =>
    exact ⟨helements _ _ _ _ _ hpart, habsorb _ _ _ _ _ hpart⟩
  | omitted notice => trivial

/-- What becomes of one property on both sides. -/
inductive PropertyTwin (cx : Context) (document : Document) (parent : Native.Parent)
    (property : String) : NativeType × AccessorGroup → WireType → Prop
  | whole {native : NativeType} {wire : WireType} (options : Access.PropertyOptions)
      (htypes : Twin cx document native wire) :
      PropertyTwin cx document parent property
        (native, Access.property cx.runtime parent.base parent.container property
          native.valueType options) wire
  | elements {element : NativeType} {value : WireType} {output : Output} {path : String}
      (htypes : Twin cx document element value)
      (habsorb : WireType.absorb {} value path = .ok output) :
      PropertyTwin cx document parent property
        (element, Twin.elementsOf cx.runtime parent property element.valueType)
        ⟨cx.runtime.wireArray value.name, output⟩

/-- What has been gathered for an object was put together from types of the document. -/
def GatheredTwin (cx : Context) (document : Document) (parent : Native.Parent)
    (native : Native.Gathered) (wire : Wire.Gathered) : Prop :=
  ∃ parts : List Twin.Part, (∀ part ∈ parts, part.Of (Twin cx document)) ∧
    parts.foldlM (Twin.Part.add cx.runtime parent) (Twin.start cx.runtime parent) =
      .ok (native, wire)

namespace Matches

variable {library : Library} {order : Order} {α β γ : Type}

/-- Both sides ask the same and go on with the same answer. -/
theorem ofExcept_bind {result : Except Failure γ} {next : γ → Mapping α} {next' : γ → Mapping β}
    {Q : α → β → Prop}
    (h : ∀ value, result = .ok value → Matches library order (next value) (next' value) Q) :
    Matches library order (Mapping.ofExcept result >>= next) (Mapping.ofExcept result >>= next')
      Q := by
  cases result with
  | ok value => exact h value rfl
  | error failure => exact .fail failure

/-- Steps that can only collide have to agree where both succeed. -/
theorem ofExcept_of_ok {first : Except Failure α} {second : Except Failure β} {Q : α → β → Prop}
    (hfirst : ∀ failure, first = .error failure → failure.isCollision)
    (hsecond : ∀ failure, second = .error failure → failure.isCollision)
    (h : ∀ a b, first = .ok a → second = .ok b → Q a b) :
    Matches library order (Mapping.ofExcept first) (Mapping.ofExcept second) Q := by
  refine ofExcept ?_
  cases first with
  | error failure => exact .inl ⟨failure, rfl, hfirst failure rfl⟩
  | ok a =>
    cases second with
    | error failure => exact .inr (.inl ⟨failure, rfl, hsecond failure rfl⟩)
    | ok b => exact .inr (.inr (.ok (h a b rfl rfl)))

end Matches

theorem absorb_matches {library : Library} {order : Order} {output output' : Output}
    {native : NativeType} {wire : WireType} {path : String} :
    Matches library order (Mapping.ofExcept (NativeType.absorb output native path))
      (Mapping.ofExcept (WireType.absorb output' wire path)) fun result result' ↦
        NativeType.absorb output native path = .ok result ∧
          WireType.absorb output' wire path = .ok result' :=
  .ofExcept_of_ok (fun _ ↦ Output.merge_toExcept_collides)
    (fun _ ↦ Output.merge_toExcept_collides) fun _ _ hnative hwire ↦ ⟨hnative, hwire⟩

/-! ## One step of the two mappers -/

/-- Two mappers put types together side by side for all schemas in which properties are named. -/
structure MappersMatch (cx : Context) (order : Order) (native : Native.Mapper)
    (wire : Wire.Mapper) : Prop where
  native_claims : ∀ document node request,
    (native document node request).Claims cx.library fun _ _ ↦ True
  wire_claims : ∀ document node request,
    (wire document node request).Claims cx.library fun _ _ ↦ True
  twins : ∀ {document : Document} {node : Node}, document.Named → node.Named → ∀ request,
    Matches cx.library order (native document node request) (wire document node request)
      (Twin cx document)

/-- Two mappers go together for arrays that are declared in place. -/
def InlineArraysMatch (cx : Context) (order : Order) (native : Native.Mapper)
    (wire : Wire.Mapper) : Prop :=
  ∀ ⦃document : Document⦄ ⦃title description : Option String⦄ ⦃items : Items⦄
    ⦃request : Request⦄ (stem : String) (isOptional : Bool), document.Named →
    (Node.mk title description (.array items)).Named → request.name ≠ "" →
    Matches cx.library order
      (Native.property cx native document (.ofStem cx.runtime document.title stem) isOptional
        request.name (.mk title description (.array items)) request)
      (wire document (.mk title description (.array items)) request)
      (PropertyTwin cx document (.ofStem cx.runtime document.title stem) request.name)

section Step

variable {cx : Context} {order : Order} {native : Native.Mapper} {wire : Wire.Mapper}
  {document : Document} {request : Request}

theorem inlineArraysMatch_step {merge : Document → Node → List Node → String → Mapping Node}
    (h : MappersMatch cx order native wire) :
    InlineArraysMatch cx order native (Wire.step cx merge wire) := by
  intro document title description items request stem isOptional hdocument hnode hname
  have hwire : Wire.step cx merge wire document (.mk title description (.array items)) request =
      Wire.array cx wire document items request.name request := by
    have hlabel : ∀ node, request.label node = .ok request.name := fun _ ↦ if_pos hname
    change (Mapping.ofExcept (request.label _) >>= _) = _
    rw [hlabel]
    rfl
  have hitem : ∀ item, items.element request.path = .ok item → item.Named :=
    fun item hitem hm ↦ hnode (Items.mem_mentions_of_element hitem hm)
  rw [hwire]
  refine .ofExcept_bind fun item hfound ↦ ?_
  refine (h.twins hdocument (hitem item hfound) _).bind ?_ (fun _ ↦ claims_pure _)
    fun _ ↦ (claims_ofExcept _).bind fun _ ↦ claims_pure _
  intro element value helement
  refine .aside_wire (aside_ofExcept fun _ ↦ Output.merge_toExcept_collides)
    (claims_ofExcept _) (fun _ ↦ claims_pure _) (claims_pure _) fun output houtput ↦ .pure ?_
  exact .elements helement houtput

theorem array_matches (h : MappersMatch cx order native wire) (hdocument : document.Named)
    {items : Items} (hitems : .property "" ∉ items.mentions) (label : String) (request : Request) :
    Matches cx.library order (Native.array cx native document items label request)
      (Wire.array cx wire document items label request) (Twin cx document) := by
  have hitem : ∀ item, items.element request.path = .ok item → item.Named :=
    fun item hitem hm ↦ hitems (Items.mem_mentions_of_element hitem hm)
  refine .ofExcept_bind fun item hfound ↦ ?_
  refine (h.twins hdocument (hitem item hfound) _).bind ?_
    (fun _ ↦ (Request.claims_claim trivial _ _).bind fun _ ↦ (claims_ofExcept _).bind fun _ ↦
      (claims_ofExcept _).bind fun _ ↦ claims_pure _)
    fun _ ↦ (claims_ofExcept _).bind fun _ ↦ claims_pure _
  intro element value helement
  -- the stem of an array is claimed on the native side only
  refine .aside_native (aside_claim _ _ _ _ _) (Request.claims_claim trivial _ _)
    (fun _ ↦ (claims_ofExcept _).bind fun _ ↦ (claims_ofExcept _).bind fun _ ↦ claims_pure _)
    ((claims_ofExcept _).bind fun _ ↦ claims_pure _) fun stem _ ↦ ?_
  refine absorb_matches.bind ?_ (fun _ ↦ (claims_ofExcept _).bind fun _ ↦ claims_pure _)
    fun _ ↦ claims_pure _
  rintro output output' ⟨houtput, houtput'⟩
  refine .aside_native (aside_ofExcept fun _ ↦ Native.addHandle_collides) (claims_ofExcept _)
    (fun _ ↦ claims_pure _) (claims_pure _) fun result hresult ↦ .pure ?_
  exact .array helement houtput houtput' hresult

theorem property_matches (h : MappersMatch cx order native wire)
    (hinline : InlineArraysMatch cx order native wire) (hdocument : document.Named) {node : Node}
    (hnode : node.Named) (hname : request.name ≠ "") (stem : String) (isOptional : Bool) :
    Matches cx.library order
      (Native.property cx native document (.ofStem cx.runtime document.title stem) isOptional
        request.name node request)
      (wire document node request)
      (PropertyTwin cx document (.ofStem cx.runtime document.title stem) request.name) := by
  have hwhole : ∀ options, Matches cx.library order
      (native document node request >>= fun value ↦
        pure (value, Access.property cx.runtime (Names.qualified document.title stem)
          (cx.runtime.wireContainer document.title stem) request.name value.valueType options))
      (wire document node request)
      (PropertyTwin cx document (.ofStem cx.runtime document.title stem) request.name) := by
    intro options
    rw [← bind_pure (wire document node request)]
    refine (h.twins hdocument hnode request).bind ?_ (fun _ ↦ claims_pure _) fun _ ↦ claims_pure _
    exact fun value wire' hvalue ↦ .pure (.whole options hvalue)
  obtain ⟨title, description, kind⟩ := node
  cases kind with
  | array items => exact hinline stem isOptional hdocument hnode hname
  | _ => exact hwhole _

/-- One more part is gathered. -/
theorem GatheredTwin.add {parent : Native.Parent} {native native' : Native.Gathered}
    {wire wire' : Wire.Gathered} (h : GatheredTwin cx document parent native wire)
    {part : Twin.Part} (hpart : part.Of (Twin cx document))
    (hadd : part.add cx.runtime parent (native, wire) = .ok (native', wire')) :
    GatheredTwin cx document parent native' wire' := by
  obtain ⟨parts, hparts, hgathered⟩ := h
  refine ⟨parts ++ [part], fun other hother ↦ ?_, ?_⟩
  · obtain hold | hnew := List.mem_append.1 hother
    · exact hparts other hold
    · rw [List.mem_singleton.1 hnew]
      exact hpart
  · rw [List.foldlM_append]
    exact Failure.bind_eq_ok.2 ⟨_, hgathered, Failure.bind_eq_ok.2 ⟨_, hadd, rfl⟩⟩

theorem addProperty_matches (h : MappersMatch cx order native wire)
    (hinline : InlineArraysMatch cx order native wire) (hdocument : document.Named)
    {schema : ObjectSchema} {stem : String} {entry : String × Node}
    (hname : entry.1 ≠ "") (hnode : entry.2.Named) {soFar : Native.Gathered}
    {soFar' : Wire.Gathered}
    (hgathered : GatheredTwin cx document (.ofStem cx.runtime document.title stem) soFar soFar') :
    Matches cx.library order
      (Native.addProperty cx native document (.ofStem cx.runtime document.title stem) schema
        request soFar entry)
      (Wire.addMember wire document stem request soFar' entry)
      (GatheredTwin cx document (.ofStem cx.runtime document.title stem)) := by
  obtain ⟨name, node⟩ := entry
  have hrequest : (request.property stem name).name ≠ "" := hname
  refine (property_matches h hinline hdocument hnode hrequest stem
    (schema.isOptional name)).attempt_bind ?_ ?_ ?_ ?_ ?_ ?_
  · rintro ⟨value, group⟩ value' hvalue
    refine absorb_matches.bind ?_ (fun _ ↦ claims_pure _) fun _ ↦ claims_pure _
    rintro output output' ⟨houtput, houtput'⟩
    refine .pure ?_
    cases hvalue with
    | whole options htypes =>
      have hpart : Twin.Part.Of (Twin cx document)
        (.whole value value' name options (request.property stem name).path) := htypes
      refine hgathered.add hpart ?_
      exact Failure.bind_eq_ok.2 ⟨output, houtput, Failure.bind_eq_ok.2 ⟨output', houtput', rfl⟩⟩
    | @elements _ element inner path htypes habsorb =>
      have hpart : Twin.Part.Of (Twin cx document)
        (.elements value element inner name (request.property stem name).path) :=
          ⟨htypes, path, habsorb⟩
      refine hgathered.add hpart ?_
      exact Failure.bind_eq_ok.2 ⟨output, houtput, Failure.bind_eq_ok.2 ⟨output', houtput', rfl⟩⟩
  · intro failure
    dsimp only
    split
    · refine Matches.warn.bind (fun _ _ _ ↦ .pure ?_) (fun _ ↦ claims_pure _)
        fun _ ↦ claims_pure _
      have hpart : Twin.Part.Of (Twin cx document) (.omitted (.ofFailure failure)) := trivial
      exact hgathered.add hpart rfl
    · exact .fail failure
  · intro failure hcollision
    cases failure <;> first | rfl | cases hcollision
  · intro failure hcollision
    cases failure <;> first | rfl | cases hcollision
  · intro result
    cases result with
    | ok value => exact (claims_ofExcept _).bind fun _ ↦ claims_pure _
    | error failure => exact (mapperGrowth cx.library.closed_true).ite_warn failure _
  · intro result
    cases result with
    | ok value => exact (claims_ofExcept _).bind fun _ ↦ claims_pure _
    | error failure => exact (mapperGrowth cx.library.closed_true).ite_warn failure _

theorem object_matches (h : MappersMatch cx order native wire)
    (hinline : InlineArraysMatch cx order native wire) (hdocument : document.Named)
    {schema : ObjectSchema} (hschema : .property "" ∉ schema.mentions) (label : String)
    (request : Request) :
    Matches cx.library order (Native.object cx native document schema label request)
      (Wire.object cx wire document schema label request) (Twin cx document) := by
  have hmember : ∀ entry ∈ schema.members, entry.1 ≠ "" ∧ entry.2.Named := by
    intro entry hentry
    have hmentions : ∀ {m : Mention}, m = .property entry.1 ∨ m ∈ entry.2.mentions →
        m ∈ schema.mentions :=
      fun hm ↦ ObjectSchema.mem_mentions.2 (.inl (mem_propertyMentions.2 ⟨entry, hentry, hm⟩))
    refine ⟨fun hempty ↦ hschema (hmentions (.inl ?_)), fun hm ↦ hschema (hmentions (.inr hm))⟩
    rw [hempty]
  refine .claim_bind fun stem ↦ ?_
  have hclaims : ∀ parent soFar entry,
      Claims cx.library (fun _ _ ↦ True)
        (Native.addProperty cx native document parent schema request soFar entry) :=
    fun parent soFar entry ↦ Native.addProperty_claims h.native_claims _ _ _ _
  have hclaims' : ∀ soFar entry, Claims cx.library (fun _ _ ↦ True)
      (Wire.addMember wire document stem request soFar entry) :=
    fun soFar entry ↦ Wire.addMember_claims h.wire_claims _ _ _
  let parent := Native.Parent.ofStem cx.runtime document.title stem
  have hstart : GatheredTwin cx document parent (Twin.start cx.runtime parent).1
      (Twin.start cx.runtime parent).2 :=
    ⟨[], fun _ hpart ↦ absurd hpart List.not_mem_nil, rfl⟩
  refine (Matches.foldlM (fun entry hentry soFar soFar' ↦ addProperty_matches h hinline hdocument
    (hmember entry hentry).1 (hmember entry hentry).2) (hclaims _) hclaims' hstart).bind ?_
    (fun _ ↦ (claims_ofExcept _).bind fun _ ↦ claims_pure _)
    fun _ ↦ (claims_ofExcept _).bind fun _ ↦ claims_pure _
  intro gathered gathered' hgathered
  refine Matches.bind (Q := fun result result' ↦
    Native.addHandle gathered.output (Names.objectHandle document.title stem) gathered.groups
      request.path = .ok result ∧
    (gathered'.output.insert .containers (Names.containerClass stem) [.container
      ⟨Names.containerClass stem, cx.runtime.jsonType "Container", gathered'.members⟩]
        request.path).toExcept = .ok result') (.ofExcept_of_ok (fun _ ↦ Native.addHandle_collides)
    (fun _ ↦ Output.insert_toExcept_collides) fun _ _ hnative hwire ↦ ⟨hnative, hwire⟩) ?_
    (fun _ ↦ claims_pure _) fun _ ↦ claims_pure _
  rintro result result' ⟨hadd, hinsert⟩
  obtain ⟨parts, hparts, hfold⟩ := hgathered
  refine .pure (.object (fun native wire property options place hpart ↦ hparts _ hpart)
    (fun element value output property place hpart ↦ (hparts _ hpart).1)
    (fun element value output property place hpart ↦ (hparts _ hpart).2) hfold hadd hinsert)

theorem dictionary_matches (h : MappersMatch cx order native wire) (hdocument : document.Named)
    {additional : Node} (hadditional : additional.Named) (label : String) (request : Request) :
    Matches cx.library order (Native.dictionary cx native document additional label request)
      (Wire.dictionary cx wire document additional label request) (Twin cx document) := by
  refine .claim_bind fun stem ↦ ?_
  refine (h.twins hdocument hadditional _).bind ?_ (fun _ ↦ (claims_ofExcept _).bind fun _ ↦
    (claims_ofExcept _).bind fun _ ↦ claims_pure _)
    fun _ ↦ (claims_ofExcept _).bind fun _ ↦ claims_pure _
  intro value value' hvalue
  refine absorb_matches.bind ?_ (fun _ ↦ (claims_ofExcept _).bind fun _ ↦ claims_pure _)
    fun _ ↦ claims_pure _
  rintro output output' ⟨houtput, houtput'⟩
  refine .aside_native (aside_ofExcept fun _ ↦ Native.addHandle_collides) (claims_ofExcept _)
    (fun _ ↦ claims_pure _) (claims_pure _) fun result hresult ↦ .pure ?_
  exact .map hvalue houtput houtput' hresult

theorem reference_matches (h : MappersMatch cx order native wire) (hlibrary : cx.library.Named)
    (hdocument : document.Named) (target : String) (request : Request) :
    Matches cx.library order (Native.reference cx native document target request)
      (Wire.reference cx wire document target request) (Twin cx document) := by
  refine .ofExcept_bind fun found hfound ↦ ?_
  obtain ⟨howner, hnode⟩ := hlibrary.target hdocument hfound
  refine ((h.twins howner hnode _).following _ _).bind ?_ (fun _ ↦ claims_pure _)
    fun _ ↦ claims_pure _
  intro type type' htype
  refine .pure ?_
  cases hexternal : found.isExternal with
  | true => exact .external (Library.owner_of_isExternal hfound hexternal).1 htype
  | false =>
    have hinternal : found.owner = document :=
      Library.owner_eq_of_not_isExternal hfound (by rw [hexternal]; exact Bool.false_ne_true)
    rw [← hinternal]
    exact htype

theorem objectLike_matches (h : MappersMatch cx order native wire)
    (hinline : InlineArraysMatch cx order native wire) (hdocument : document.Named)
    {schema : ObjectSchema} (hschema : .property "" ∉ schema.mentions) (label : String)
    (request : Request) :
    Matches cx.library order (Native.objectLike cx native document schema label request)
      (Wire.objectLike cx wire document schema label request) (Twin cx document) := by
  unfold Native.objectLike Wire.objectLike
  split
  · exact object_matches h hinline hdocument hschema label request
  · cases hadditional : schema.additional with
    | some additional =>
      have hnamed : additional.Named :=
        fun hm ↦ hschema (ObjectSchema.mem_mentions.2 (.inr ⟨additional, hadditional, hm⟩))
      exact dictionary_matches h hdocument hnamed label request
    | none =>
      dsimp only
      split
      · exact .fail _
      · exact .pure (.primitive document .string none label)

/-- Two compositions are merged into the same schema. -/
def MergesMatch (cx : Context) (order : Order)
    (merge merge' : Document → Node → List Node → String → Mapping Node) : Prop :=
  ∀ ⦃document : Document⦄ ⦃members : List Node⦄, document.Named →
    (∀ member ∈ members, member.Named) → ∀ node path,
    Matches cx.library order (merge document node members path)
      (merge' document node members path) fun a b ↦ a = b ∧ a.Named

theorem step_matches {merge merge' : Document → Node → List Node → String → Mapping Node}
    (hmerge : MergesMatch cx order merge merge') (h : MappersMatch cx order native wire)
    (hinline : InlineArraysMatch cx order native wire) (hlibrary : cx.library.Named)
    (hdocument : document.Named) {node : Node} (hnode : node.Named) (request : Request) :
    Matches cx.library order (Native.step cx merge native document node request)
      (Wire.step cx merge' wire document node request) (Twin cx document) := by
  obtain ⟨title, description, kind⟩ := node
  cases kind with
  | reference target => exact reference_matches h hlibrary hdocument target request
  | constant value minimum =>
    refine .ofExcept_bind fun label _ ↦ ?_
    change Matches cx.library order (Native.constant cx value minimum label request.path)
      (Wire.constant cx value minimum request.path) _
    unfold Native.constant Wire.constant
    cases constantType? value with
    | some type => exact .pure (.primitive document type minimum label)
    | none => exact .fail _
  | enumeration values =>
    exact .ofExcept_bind fun label _ ↦ .claim_bind fun stem ↦
      .pure (.enumeration document stem label description values)
  | object schema =>
    exact .ofExcept_bind fun label _ ↦ objectLike_matches h hinline hdocument hnode label request
  | array items =>
    exact .ofExcept_bind fun label _ ↦ array_matches h hdocument hnode label request
  | allOf members =>
    refine .ofExcept_bind fun label _ ↦ ?_
    have hmembers : ∀ member ∈ members, member.Named :=
      fun member hmember hm ↦ hnode (mem_listMentions.2 ⟨member, hmember, hm⟩)
    refine (hmerge hdocument hmembers _ _).bind ?_ (fun _ ↦ h.native_claims _ _ _)
      fun _ ↦ h.wire_claims _ _ _
    rintro merged _ ⟨rfl, hmerged⟩
    have hretitled : (Node.mk (title.or (some label)) merged.description merged.kind).Named := by
      unfold Node.Named at hmerged ⊢
      rw [Node.mentions_eq] at hmerged ⊢
      exact hmerged
    exact h.twins hdocument hretitled request
  | primitive type minimum =>
    exact .ofExcept_bind fun label _ ↦ .pure (.primitive document type minimum label)
  | oneOf members => exact .ofExcept_bind fun _ _ ↦ .fail _
  | anyOf members => exact .ofExcept_bind fun _ _ ↦ .fail _
  | unconstrained => exact .ofExcept_bind fun _ _ ↦ .fail _

end Step

/-! ## Whole mappings -/

section Map

variable {cx : Context}

theorem mergesMatch_nativeFirst (hlibrary : cx.library.Named) {budget budget' : Nat}
    (h : budget ≤ budget') :
    MergesMatch cx .nativeFirst (mergeAllOf cx.library budget) (mergeAllOf cx.library budget') := by
  intro document members hdocument hmembers node path
  refine ⟨mergeAllOf_claims _ _ _ _ _, mergeAllOf_claims _ _ _ _ _, fun _ ↦ ?_, nofun⟩
  exact (mergeAllOf_static _ _ _ _ _ _).follows (mergeAllOf_refines _ h _ _ _ _)
    fun _ _ _ hrun ↦ mergeAllOf_named hlibrary hdocument hmembers hrun

theorem mergesMatch_wireFirst (hlibrary : cx.library.Named) (budget : Nat) :
    MergesMatch cx .wireFirst (mergeAllOf cx.library budget) (mergeAllOf cx.library budget) := by
  intro document members hdocument hmembers node path
  refine ⟨mergeAllOf_claims _ _ _ _ _, mergeAllOf_claims _ _ _ _ _, nofun, fun _ ↦ ?_⟩
  refine ((mergeAllOf_static _ _ _ _ _ _).follows (.refl _)
    fun _ _ _ hrun ↦ mergeAllOf_named hlibrary hdocument hmembers hrun).imp ?_
  rintro b a ⟨rfl, hnamed⟩
  exact ⟨rfl, hnamed⟩

theorem mappersMatch_nativeFirst {budget budget' : Nat}
    (h : ∀ {document : Document} {node : Node}, document.Named → node.Named → ∀ request,
      Follows (Native.map cx budget document node request)
        (Wire.map cx budget' document node request) (Twin cx document)) :
    MappersMatch cx .nativeFirst (Native.map cx budget) (Wire.map cx budget') where
  native_claims := Native.map_claims_any cx budget
  wire_claims := Wire.map_claims_any cx budget'
  twins hdocument hnode request :=
    ⟨Native.map_claims_any cx budget _ _ _, Wire.map_claims_any cx budget' _ _ _,
      fun _ ↦ h hdocument hnode request, nofun⟩

theorem mappersMatch_wireFirst {budget budget' : Nat}
    (h : ∀ {document : Document} {node : Node}, document.Named → node.Named → ∀ request,
      Follows (Wire.map cx budget' document node request)
        (Native.map cx budget document node request)
        fun wire native ↦ Twin cx document native wire) :
    MappersMatch cx .wireFirst (Native.map cx budget) (Wire.map cx budget') where
  native_claims := Native.map_claims_any cx budget
  wire_claims := Wire.map_claims_any cx budget'
  twins hdocument hnode request :=
    ⟨Native.map_claims_any cx budget _ _ _, Wire.map_claims_any cx budget' _ _ _, nofun,
      fun _ ↦ h hdocument hnode request⟩

/-- After the native side the wire side needs twice the budget at most, since it spends some of it
on arrays that are declared in place. -/
theorem map_matches_nativeFirst (hlibrary : cx.library.Named) (budget : Nat) :
    MappersMatch cx .nativeFirst (Native.map cx budget) (Wire.map cx (2 * budget)) := by
  induction budget with
  | zero => exact mappersMatch_nativeFirst fun _ _ _ ↦ follows_exhausted _
  | succ budget ih =>
    have hmappers : MappersMatch cx .nativeFirst (Native.map cx budget)
        (Wire.map cx (2 * budget + 1)) :=
      mappersMatch_nativeFirst fun hdocument hnode request ↦
        ((ih.twins hdocument hnode request).nativeFirst rfl).refines
          (Wire.map_refines cx (Nat.le_succ _) _ _ _)
    have hinline : InlineArraysMatch cx .nativeFirst (Native.map cx budget)
        (Wire.map cx (2 * budget + 1)) := inlineArraysMatch_step ih
    have hmerge : MergesMatch cx .nativeFirst (mergeAllOf cx.library budget)
        (mergeAllOf cx.library (2 * budget + 1)) :=
      mergesMatch_nativeFirst hlibrary (by omega)
    refine mappersMatch_nativeFirst fun hdocument hnode request ↦ ?_
    exact (step_matches hmerge hmappers hinline hlibrary hdocument hnode request).nativeFirst rfl

/-- The wire side before the native side, below arrays that are declared in place. -/
theorem inlineArraysMatch_wireFirst {budget : Nat}
    (h : ∀ smaller < budget, MappersMatch cx .wireFirst (Native.map cx smaller)
      (Wire.map cx smaller)) :
    InlineArraysMatch cx .wireFirst (Native.map cx budget) (Wire.map cx budget) := by
  cases budget with
  | zero =>
    intro document title description items request stem isOptional _ _ _
    exact ⟨Native.property_claims (Native.map_claims_any cx 0) _ _ _ _, claims_exhausted, nofun,
      fun _ ↦ follows_exhausted _⟩
  | succ budget =>
    have hmappers : MappersMatch cx .wireFirst (Native.map cx (budget + 1))
        (Wire.map cx budget) :=
      mappersMatch_wireFirst fun hdocument hnode request ↦
        (((h budget (Nat.lt_succ_self _)).twins hdocument hnode request).wireFirst rfl).refines
          (Native.map_refines cx (Nat.le_succ _) _ _ _)
    exact inlineArraysMatch_step hmappers

/-- After the wire side the native side gets by with the same budget. -/
theorem map_matches_wireFirst (hlibrary : cx.library.Named) (budget : Nat) :
    MappersMatch cx .wireFirst (Native.map cx budget) (Wire.map cx budget) := by
  induction budget using Nat.strongRecOn with
  | ind budget ih =>
    cases budget with
    | zero => exact mappersMatch_wireFirst fun _ _ _ ↦ follows_exhausted _
    | succ budget =>
      have hinline : InlineArraysMatch cx .wireFirst (Native.map cx budget)
          (Wire.map cx budget) :=
        inlineArraysMatch_wireFirst fun smaller hsmaller ↦ ih smaller (by omega)
      have hmerge : MergesMatch cx .wireFirst (mergeAllOf cx.library budget)
          (mergeAllOf cx.library budget) :=
        mergesMatch_wireFirst hlibrary budget
      refine mappersMatch_wireFirst fun hdocument hnode request ↦ ?_
      exact (step_matches hmerge (ih budget (by omega)) hinline hlibrary hdocument hnode
        request).wireFirst rfl

end Map

end SchemaBindings
