import SchemaBindings.Proofs.Preferences

/-!
# Placed schemas

A mapper that starts from the methods of orderly documents comes to sites, to references to
definitions, and to schemas without a name, for which nothing is claimed. Whatever schema it comes
to, it claims preferred stems only. This is shown by going through the mappers once, on the native
and on the wire side; native types have to be known by their names, since arrays are called after
what they refer to.
-/

namespace SchemaBindings

open Mapping

variable {cx : Context} {library : Library} {documents : List Document}

/-! ## Names of native types -/

namespace Visit

/-- The name that the native type of a schema has: its own, or that of what references lead to. -/
inductive TypeLabel (library : Library) (v : Visit) : String → Prop
  | own {label : String} (hkind : v.node.isReference = false) (hlabel : v.label = .ok label) :
      TypeLabel library v label
  | target {reference label : String} {last : Target} (hkind : v.node.kind = .reference reference)
      (hlast : library.RefersTo v.document reference last)
      (hlabel : (ofTarget last).label = .ok label) : TypeLabel library v label

variable {v w : Visit} {label : String}

/-- What a composition is merged into has the name of the composition. -/
theorem Shows.label_eq (h : v.Shows library w) (hlabel : w.label = .ok label) :
    v.label = .ok label := by
  induction h with
  | refl => exact hlabel
  | tail _ hlast ih =>
    obtain ⟨-, hbefore, -⟩ := id hlast
    have hsame := (hlast.label hbefore).symm.trans hlabel
    exact ih (hbefore.trans hsame)

theorem TypeLabel.of_target {reference : String} {target : Target}
    (hkind : v.node.kind = .reference reference)
    (htarget : library.resolve v.document reference v.path = .ok target)
    (h : (ofTarget target).TypeLabel library label) : v.TypeLabel library label := by
  cases h with
  | own hplain hlabel => exact .target hkind (.last htarget hplain) hlabel
  | target hnext hlast hlabel => exact .target hkind (.hop htarget hnext hlast) hlabel

/-- What a composition merges into is no reference, and has its name. -/
theorem TypeLabel.of_merges (hmerges : v.Merges library w) (h : w.TypeLabel library label) :
    v.TypeLabel library label := by
  obtain ⟨hkind, hlabel, hmerge⟩ := id hmerges
  cases h with
  | own _ hmerged =>
    have hsame := (hmerges.label hlabel).symm.trans hmerged
    exact .own (Node.isReference_eq hkind) (hlabel.trans hsame)
  | target hreference =>
    have hplain := mergeAllOf_isReference hmerge
    cases (Node.isReference_eq hreference).symm.trans hplain

end Visit

theorem Mapping.Claims.bind_obeys {α β : Type} {mapping : Mapping α} {next : α → Mapping β}
    {after : Registry → β → Prop} (h : mapping.Claims library fun _ _ ↦ True)
    (hnext : ∀ value, Obeys freeRules (fun _ ↦ True) (next value) after) :
    Obeys freeRules (fun _ ↦ True) (mapping >>= next) after :=
  h.obeys.bind hnext

namespace Native

/-- If the mapping comes to a type, the type is called by the label. -/
abbrev Labels (label : String) (mapping : Mapping NativeType) : Prop :=
  Obeys freeRules (fun _ ↦ True) mapping fun _ type ↦ type.label = label

section

variable {label : String} {budget : Nat} {document : Document} {request : Request}

theorem labels_pure {type : NativeType} (h : type.label = label) : Labels label (pure type) :=
  obeys_pure fun _ _ _ ↦ h

theorem labels_fail (failure : Failure) : Labels label (Mapping.fail failure) :=
  obeys_fail fun _ _ ↦ trivial

theorem label_ofPrimitive (runtime : Runtime) (type : Primitive) (minimum : Option Double) :
    (NativeType.ofPrimitive runtime type minimum label).label = label := by
  cases type <;> rfl

/-- What comes after a computation without effects. -/
theorem labels_ofExcept_bind {α : Type} {result : Except Failure α}
    {next : α → Mapping NativeType} (h : ∀ value, Labels label (next value)) :
    Labels label (Mapping.ofExcept result >>= next) :=
  obeys_ofExcept_bind (fun _ _ ↦ trivial) fun value _ ↦ h value

theorem array_labels (items : Items) :
    Labels label (array cx (map cx budget) document items label request) :=
  labels_ofExcept_bind fun _ ↦ (map_claims_any cx budget _ _ _).bind_obeys fun _ ↦
    (Request.claims_claim trivial _ _).bind_obeys fun _ ↦ labels_ofExcept_bind fun _ ↦
    labels_ofExcept_bind fun _ ↦ labels_pure rfl

theorem object_labels (schema : ObjectSchema) :
    Labels label (object cx (map cx budget) document schema label request) :=
  (Request.claims_claim trivial _ _).bind_obeys fun _ ↦
    (Claims.foldlM (addProperty_claims_any budget _ schema) _ _).bind_obeys fun _ ↦
    labels_ofExcept_bind fun _ ↦ labels_pure rfl

theorem dictionary_labels (additional : Node) :
    Labels label (dictionary cx (map cx budget) document additional label request) :=
  (Request.claims_claim trivial _ _).bind_obeys fun _ ↦
    (map_claims_any cx budget _ _ _).bind_obeys fun _ ↦ labels_ofExcept_bind fun _ ↦
    labels_ofExcept_bind fun _ ↦ labels_pure rfl

theorem objectLike_labels (schema : ObjectSchema) :
    Labels label (objectLike cx (map cx budget) document schema label request) := by
  unfold objectLike
  split
  · exact object_labels schema
  · split
    · exact dictionary_labels _
    · split
      · exact labels_fail _
      · exact labels_pure rfl

end

/-- The type of a schema carries the name that was asked for, through all references. -/
theorem map_label (budget : Nat) (v : Visit) (scope : String) :
    Obeys freeRules (fun _ ↦ True) (map cx budget v.document v.node (v.request scope))
      fun _ type ↦ v.TypeLabel cx.library type.label := by
  induction budget generalizing v scope with
  | zero => exact obeys_exhausted
  | succ budget ih =>
    change Obeys _ _ (step cx (mergeAllOf cx.library budget) (map cx budget) v.document v.node
      (v.request scope)) _
    unfold step
    split
    case h_1 reference hkind =>
      refine obeys_ofExcept_bind (fun _ _ ↦ trivial) fun target htarget ↦ ?_
      refine ((ih (.ofTarget target) "").following _ _).bind fun type ↦
        obeys_pure fun _ _ htype ↦ ?_
      have hlabel := Visit.TypeLabel.of_target hkind htarget htype
      split <;> exact hlabel
    case h_2 hreference =>
      refine obeys_ofExcept_bind (fun _ _ ↦ trivial) fun label hlabel ↦ ?_
      have hlabels : ∀ {mapping : Mapping NativeType}, v.node.isReference = false →
          Labels label mapping → Obeys freeRules (fun _ ↦ True) mapping
            fun _ type ↦ v.TypeLabel cx.library type.label := fun hkind h ↦
        h.imp (fun _ _ ↦ trivial) fun _ _ htype ↦ .own hkind (htype ▸ hlabel)
      split
      case h_1 value minimum hkind =>
        refine hlabels (Node.isReference_eq hkind) ?_
        unfold constant
        split
        · exact labels_pure (label_ofPrimitive _ _ _)
        · exact labels_fail _
      case h_2 hkind =>
        refine hlabels (Node.isReference_eq hkind) ?_
        exact (Request.claims_claim trivial _ _).bind_obeys fun _ ↦ labels_pure rfl
      case h_3 hkind => exact hlabels (Node.isReference_eq hkind) (array_labels _)
      case h_4 members hkind =>
        refine (mergeAllOf_obeys budget _ _ members _).bind fun merged ↦ ?_
        intro session result session' hrun hholds hstart
        let node : Node := .mk (v.node.title.or (some label)) merged.description merged.kind
        have hmerges : v.Merges cx.library { v with node := node } := .intro hkind hlabel hstart.2
        exact (ih { v with node := node } scope).imp (fun _ htrue ↦ htrue)
          (fun _ _ htype ↦ .of_merges hmerges htype) hrun hholds trivial
      case h_5 hkind => exact hlabels (Node.isReference_eq hkind) (objectLike_labels _)
      case h_6 hkind =>
        exact hlabels (Node.isReference_eq hkind) (labels_pure (label_ofPrimitive _ _ _))
      all_goals exact obeys_fail fun _ _ ↦ trivial

end Native

/-! ## Where schemas are -/

/-- A schema that a mapper may come to, with the stem around it: one that a site shows, a reference
to a definition, or one that nothing is claimed for since it has no name. -/
inductive Placed (library : Library) (documents : List Document) (v : Visit) : String → Prop
  | shown {origin : Origin} {steps : List Step} {s : Site}
      (hs : Site.At library documents origin steps s) (hshows : s.Shows library v) :
      Placed library documents v s.scope
  | reference {reference scope : String} (hdocument : v.document ∈ documents)
      (hkind : v.node.kind = .reference reference) (hrooted : Rooted reference) :
      Placed library documents v scope
  | unnamed {scope : String} (hkind : v.node.isReference = false)
      (hlabel : ∀ label, v.label ≠ .ok label) : Placed library documents v scope

namespace Placed

variable (hlibrary : library.Orderly documents) {v : Visit} {scope label name stem : String}
  {origin : Origin} {steps : List Step} {s : Site}

theorem exists_site (h : Placed library documents v scope) (hkind : v.node.isReference = false)
    (hlabel : v.label = .ok label) : ∃ origin steps s,
      Site.At library documents origin steps s ∧ s.Shows library v ∧ scope = s.scope := by
  cases h with
  | shown hs hshows => exact ⟨_, _, _, hs, hshows, rfl⟩
  | reference _ hreference =>
    rw [Node.isReference_eq hreference] at hkind
    cases hkind
  | unnamed _ hunnamed => exact absurd hlabel (hunnamed label)

include hlibrary

theorem rooted (h : Placed library documents v scope) {reference : String}
    (hkind : v.node.kind = .reference reference) :
    v.document ∈ documents ∧ Rooted reference := by
  cases h with
  | shown hs hshows =>
    rw [hshows.same.1]
    have horderly := hshows.orderly hlibrary hs.document_mem (hs.orderly hlibrary)
    exact ⟨hs.document_mem, horderly.rooted_of_kind hkind⟩
  | reference hdocument hreference hrooted =>
    cases hreference.symm.trans hkind
    exact ⟨hdocument, hrooted⟩
  | unnamed hplain =>
    rw [Node.isReference_eq hkind] at hplain
    cases hplain

/-- A reference leads to an origin. -/
theorem target (h : Placed library documents v scope) {reference place : String} {target : Target}
    (hkind : v.node.kind = .reference reference)
    (htarget : library.resolve v.document reference place = .ok target) :
    Placed library documents (.ofTarget target) "" := by
  obtain ⟨hdocument, root, written, hslash, hfragment⟩ := h.rooted hlibrary hkind
  have howner := hlibrary.owner_mem hdocument htarget
  obtain ⟨fragment, value, hplace, hvalue, hnode, htitle, -, -, hpath⟩ :=
    Library.resolve_eq_ok htarget
  obtain rfl : fragment = root.pointer ++ "/" ++ written :=
    (Library.fragment_of_place? hplace).trans hfragment
  have hstart : Site.At library documents _ [] _ := .start (.definition howner hslash hvalue hnode)
  have hplaced := Placed.shown hstart .refl
  rwa [← htitle, ← hpath] at hplaced

/-- The item of an array, by the name of the array or by none. -/
theorem item (hs : Site.At library documents origin steps s) (hshows : s.Shows library v)
    {items : Items} {item : Node} (hkind : v.node.kind = .array items)
    (hitem : items.element s.path = .ok item) (hname : s.label = .ok name ∨ name = "") :
    Placed library documents
      ⟨s.document, item, Request.elementLabel item name, Step.item.under s.path⟩ s.scope := by
  have hsite := Placed.shown (hs.step (.item hshows hkind hitem)) .refl
  by_cases hreference : item.isReference
  · obtain ⟨reference, hkind'⟩ := Node.isReference_iff.1 hreference
    exact .reference hs.document_mem hkind' (hsite.rooted hlibrary hkind').2
  · have hlabel : ∀ other, Request.elementLabel item other = item.givenTitle?.getD other :=
      fun other ↦ if_neg hreference
    rw [hlabel] at hsite ⊢
    cases htitle : item.givenTitle? with
    | some title =>
      rw [htitle] at hsite
      exact hsite
    | none =>
      rw [htitle] at hsite
      obtain hname | rfl := hname
      · rw [hname] at hsite
        exact hsite
      · refine .unnamed (Bool.eq_false_iff.2 hreference) fun label hlabel ↦ ?_
        obtain ⟨hnamed, -⟩ | ⟨-, hgiven⟩ := Visit.label_eq_ok.1 hlabel
        · exact hnamed rfl
        · exact nomatch htitle.symm.trans hgiven

end Placed

section Parts

variable (hlibrary : library.Orderly documents) {v : Visit} {scope label stem : String}
  {origin : Origin} {steps : List Step} {s : Site}
  (hs : Site.At library documents origin steps s) (hshows : s.Shows library v)
include hs hshows

theorem Placed.value {schema : ObjectSchema} {additional : Node}
    (hkind : v.node.kind = .object schema) (hplain : schema.hasProperties = false)
    (hadditional : schema.additional = some additional) (hstem : s.Stem library stem) :
    Placed library documents
      ⟨v.document, additional, "value", Pointer.child v.path "additionalProperties"⟩ stem := by
  obtain ⟨hdocument, -, hpath⟩ := hshows.same
  rw [hdocument, hpath]
  exact .shown (hs.step (.value hshows hkind hplain hadditional hstem)) .refl

theorem Placed.property {schema : ObjectSchema} {name : String} {child : Node}
    (hkind : v.node.kind = .object schema) (hmember : (name, child) ∈ schema.members)
    (hstem : s.Stem library stem) :
    Placed library documents
      ⟨v.document, child, name, Pointer.child (Pointer.child v.path "properties") name⟩ stem := by
  obtain ⟨hdocument, -, hpath⟩ := hshows.same
  rw [hdocument, hpath]
  exact .shown (hs.step (.property hshows hkind hmember hstem)) .refl

include hlibrary

theorem Placed.element {items : Items} {item : Node} (hkind : v.node.kind = .array items)
    (hlabel : v.label = .ok label) (hitem : items.element v.path = .ok item) :
    Placed library documents
      ⟨v.document, item, Request.elementLabel item label, Pointer.child v.path "items"⟩
      s.scope := by
  obtain ⟨hdocument, -, hpath⟩ := hshows.same
  rw [hpath] at hitem
  rw [hdocument, hpath]
  exact .item hlibrary hs hshows hkind hitem (.inl (hshows.label_eq hlabel))

/-- An element of an array that is a property is named after the property, even if it is called
by the empty name. -/
theorem Placed.propertyElement {schema : ObjectSchema} {name : String} {child item : Node}
    {items : Items} (hkind : v.node.kind = .object schema)
    (hmember : (name, child) ∈ schema.members) (hchild : child.kind = .array items)
    (hitem : items.element (Pointer.child (Pointer.child v.path "properties") name) = .ok item)
    (hstem : s.Stem library stem) :
    Placed library documents
      ⟨v.document, item, Request.elementLabel item name,
        Pointer.child (Pointer.child (Pointer.child v.path "properties") name) "items"⟩ stem := by
  obtain ⟨hdocument, -, hpath⟩ := hshows.same
  rw [hpath] at hitem
  rw [hdocument, hpath]
  refine .item hlibrary (hs.step (.property hshows hkind hmember hstem)) .refl hchild hitem ?_
  by_cases hname : name = ""
  · exact .inr hname
  · exact .inl (Visit.label_eq_ok.2 (.inl ⟨hname, rfl⟩))

end Parts

theorem Visit.not_isComposition {v : Visit} {kind : Kind} (hkind : v.node.kind = kind)
    (h : ∀ members, kind ≠ .allOf members) : ¬v.node.IsComposition :=
  fun ⟨members, hmembers⟩ ↦ h members (hkind.symm.trans hmembers)

/-- A type that is no array is called by its own name. -/
theorem Site.named_claim_bind_keepsTo {α : Type} (hlibrary : library.Orderly documents)
    {origin : Origin} {steps : List Step} {s : Site}
    (hs : Site.At library documents origin steps s) {v : Visit} (hshows : s.Shows library v)
    {label : String} (hlabel : v.label = .ok label) {kind : Kind} (hkind : v.node.kind = kind)
    (hcomposition : ∀ members, kind ≠ .allOf members) (harray : ∀ items, kind ≠ .array items)
    (symbols : SymbolKind) {next : String → Mapping α}
    (hclaims : ∀ stem, (next stem).Claims library fun _ _ ↦ True)
    (hnext : ∀ stem, s.Stem library stem → KeepsTo library documents (next stem)) :
    KeepsTo library documents
      ((v.request s.scope).claim library v.document symbols label >>= next) :=
  Site.claim_bind_keepsTo hlibrary hs hshows (Visit.not_isComposition hkind hcomposition)
    (.own (fun items _ hitems _ ↦ absurd (hkind.symm.trans hitems) (harray items)) hlabel) symbols
    hclaims hnext

/-- An array is called after the type of its elements if it refers to it. -/
theorem Visit.Called.of_element {v : Visit} {label found : String} (hlabel : v.label = .ok label)
    {items : Items} {item : Node} (hkind : v.node.kind = .array items)
    (hitem : items.element v.path = .ok item) {name path : String}
    (h : Visit.TypeLabel library ⟨v.document, item, name, path⟩ found) :
    v.Called library (if item.isReference then found else label) := by
  cases h with
  | own hplain _ =>
    rw [if_neg (Bool.eq_false_iff.1 hplain)]
    refine .own (fun items' item' hkind' hitem' ↦ ?_) hlabel
    cases hkind.symm.trans hkind'
    cases hitem.symm.trans hitem'
    exact hplain
  | target hreference hlast hfound =>
    have hitems : item.isReference = true := Node.isReference_eq hreference
    rw [if_pos hitems]
    exact .element hkind hitem hreference hlast hfound

/-- Wherever a schema is placed, its mapping keeps to preferred stems. -/
def MapKeeps {α : Type} (library : Library) (documents : List Document)
    (map : Document → Node → Request → Mapping α) : Prop :=
  ∀ v scope, Placed library documents v scope →
    KeepsTo library documents (map v.document v.node (v.request scope))

/-- A composition is mapped as what it merges into, which is shown at the same site. -/
theorem MapKeeps.composition {α : Type} {map : Document → Node → Request → Mapping α}
    (h : MapKeeps library documents map) {origin : Origin} {steps : List Step} {s : Site}
    {v : Visit} (hs : Site.At library documents origin steps s) (hshows : s.Shows library v)
    {label : String} (hlabel : v.label = .ok label) {members : List Node}
    (hkind : v.node.kind = .allOf members) (budget : Nat) :
    KeepsTo library documents (mergeAllOf library budget v.document v.node members v.path >>=
      fun merged ↦ map v.document
        (.mk (v.node.title.or (some label)) merged.description merged.kind)
        (v.request s.scope)) := by
  refine (mergeAllOf_obeys budget _ _ members _).bind fun merged ↦ ?_
  intro session result session' hrun hholds hstart
  have hmerged := hshows.tail (.intro hkind hlabel hstart.2)
  exact h _ s.scope (.shown hs hmerged) hrun hholds trivial

/-! ## Native types -/

namespace Native

section

variable (hlibrary : cx.library.Orderly documents) {v : Visit} {scope label : String}
  {budget : Nat} (h : MapKeeps cx.library documents (map cx budget))
include hlibrary h

theorem reference_keepsTo (hv : Placed cx.library documents v scope) {reference : String}
    (hkind : v.node.kind = .reference reference) :
    KeepsTo cx.library documents
      (Native.reference cx (map cx budget) v.document reference (v.request scope)) :=
  keepsTo_ofExcept_bind fun _ htarget ↦
    ((h _ "" (hv.target hlibrary hkind htarget)).following _ _).bind fun _ ↦ keepsTo_pure _

variable {origin : Origin} {steps : List Step} {s : Site}
  (hs : Site.At cx.library documents origin steps s) (hshows : s.Shows cx.library v)
include hs hshows

theorem array_keepsTo (hlabel : v.label = .ok label) {items : Items}
    (hkind : v.node.kind = .array items) :
    KeepsTo cx.library documents
      (array cx (map cx budget) v.document items label (v.request s.scope)) := by
  refine keepsTo_ofExcept_bind fun item hitem ↦ ?_
  let w : Visit :=
    ⟨v.document, item, Request.elementLabel item label, Pointer.child v.path "items"⟩
  have hw : Placed cx.library documents w s.scope := .element hlibrary hs hshows hkind hlabel hitem
  refine ((h w s.scope hw).and (map_label budget w s.scope) fun _ ↦ trivial).bind fun element ↦ ?_
  intro session result session' hrun hholds hstart
  refine Site.claim_bind_keepsTo hlibrary hs hshows
    (Visit.not_isComposition hkind fun _ ↦ Kind.noConfusion)
    (.of_element hlabel hkind hitem hstart.2) .array (fun stem ↦ ?_) (fun stem _ ↦ ?_) hrun hholds
    trivial
  · exact (claims_ofExcept _).bind fun _ ↦ (claims_ofExcept _).bind fun _ ↦ claims_pure _
  · exact keepsTo_ofExcept_bind fun _ _ ↦ keepsTo_ofExcept_bind fun _ _ ↦ keepsTo_pure _

omit h in
theorem enumeration_keepsTo (hlabel : v.label = .ok label) {values : List String}
    (hkind : v.node.kind = .enumeration values) :
    KeepsTo cx.library documents
      (enumeration cx v.document v.node values label (v.request s.scope)) :=
  Site.named_claim_bind_keepsTo hlibrary hs hshows hlabel hkind (fun _ ↦ Kind.noConfusion)
    (fun _ ↦ Kind.noConfusion) .enumeration (fun _ ↦ claims_pure _) fun _ _ ↦ keepsTo_pure _

theorem dictionary_keepsTo (hlabel : v.label = .ok label) {schema : ObjectSchema}
    {additional : Node} (hkind : v.node.kind = .object schema)
    (hplain : schema.hasProperties = false) (hadditional : schema.additional = some additional) :
    KeepsTo cx.library documents
      (dictionary cx (map cx budget) v.document additional label (v.request s.scope)) := by
  refine Site.named_claim_bind_keepsTo hlibrary hs hshows hlabel hkind (fun _ ↦ Kind.noConfusion)
    (fun _ ↦ Kind.noConfusion) .map (fun stem ↦ ?_) fun stem hstem ↦ ?_
  · exact (map_claims_any cx budget _ _ _).bind fun _ ↦ (claims_ofExcept _).bind fun _ ↦
      (claims_ofExcept _).bind fun _ ↦ claims_pure _
  · have hvalue := h _ stem (.value hs hshows hkind hplain hadditional hstem)
    exact hvalue.bind fun _ ↦ keepsTo_ofExcept_bind fun _ _ ↦ keepsTo_ofExcept_bind fun _ _ ↦
      keepsTo_pure _

theorem property_keepsTo {schema : ObjectSchema} (hkind : v.node.kind = .object schema)
    {name : String} {child : Node} (hmember : (name, child) ∈ schema.members) {parent : Parent}
    (hstem : s.Stem cx.library parent.stem) (isOptional : Bool) (scope : String) :
    KeepsTo cx.library documents
      (property cx (map cx budget) v.document parent isOptional name child
        ((v.request scope).property parent.stem name)) := by
  unfold property
  split
  case h_1 items hchild =>
    refine keepsTo_ofExcept_bind fun item hitem ↦ ?_
    have helement := h _ parent.stem
      (.propertyElement hlibrary hs hshows hkind hmember hchild hitem hstem)
    exact helement.bind fun _ ↦ keepsTo_pure _
  case h_2 =>
    exact (h _ parent.stem (.property hs hshows hkind hmember hstem)).bind fun _ ↦ keepsTo_pure _

theorem addProperty_keepsTo {schema : ObjectSchema} (hkind : v.node.kind = .object schema)
    {entry : String × Node} (hmember : entry ∈ schema.members) {parent : Parent}
    (hstem : s.Stem cx.library parent.stem) (scope : String) (soFar : Gathered) :
    KeepsTo cx.library documents
      (addProperty cx (map cx budget) v.document parent schema (v.request scope) soFar entry) := by
  refine keepsTo_attempt_bind
    (property_keepsTo hlibrary h hs hshows hkind hmember hstem _ scope) fun result ↦ ?_
  cases result with
  | ok found => exact keepsTo_ofExcept_bind fun _ _ ↦ keepsTo_pure _
  | error failure => exact keepsTo_ite_warn failure _

theorem object_keepsTo (hlabel : v.label = .ok label) {schema : ObjectSchema}
    (hkind : v.node.kind = .object schema) :
    KeepsTo cx.library documents
      (object cx (map cx budget) v.document schema label (v.request s.scope)) := by
  refine Site.named_claim_bind_keepsTo hlibrary hs hshows hlabel hkind (fun _ ↦ Kind.noConfusion)
    (fun _ ↦ Kind.noConfusion) .object (fun stem ↦ ?_) fun stem hstem ↦ ?_
  · exact (Claims.foldlM (addProperty_claims_any budget _ schema) _ _).bind fun _ ↦
      (claims_ofExcept _).bind fun _ ↦ claims_pure _
  · refine Obeys.bind (keepsTo_foldlM fun soFar entry hmember ↦ ?_) fun _ ↦
      keepsTo_ofExcept_bind fun _ _ ↦ keepsTo_pure _
    exact addProperty_keepsTo hlibrary h hs hshows hkind hmember hstem s.scope soFar

theorem objectLike_keepsTo (hlabel : v.label = .ok label) {schema : ObjectSchema}
    (hkind : v.node.kind = .object schema) :
    KeepsTo cx.library documents
      (objectLike cx (map cx budget) v.document schema label (v.request s.scope)) := by
  unfold objectLike
  split
  · exact object_keepsTo hlibrary h hs hshows hlabel hkind
  · split
    · exact dictionary_keepsTo hlibrary h hs hshows hlabel hkind (Bool.eq_false_iff.2 ‹_›) ‹_›
    · split
      · exact keepsTo_fail _
      · exact keepsTo_pure _

end

/-- The mapping of a schema that is placed to its native type keeps to preferred stems. -/
theorem map_keepsTo (hlibrary : cx.library.Orderly documents) (budget : Nat) :
    MapKeeps cx.library documents (map cx budget) := by
  induction budget with
  | zero => exact fun _ _ _ ↦ obeys_exhausted
  | succ budget ih =>
    intro v scope hv
    change KeepsTo cx.library documents
      (step cx (mergeAllOf cx.library budget) (map cx budget) v.document v.node (v.request scope))
    unfold step
    split
    · exact reference_keepsTo hlibrary ih hv ‹_›
    case h_2 hreference =>
      have hplain : ¬v.node.isReference := fun hkind ↦
        (Node.isReference_iff.1 hkind).elim hreference
      refine keepsTo_ofExcept_bind fun label hlabel ↦ ?_
      obtain ⟨origin, steps, s, hs, hshows, rfl⟩ :=
        hv.exists_site (Bool.eq_false_iff.2 hplain) hlabel
      split
      case h_1 =>
        unfold constant
        split
        · exact keepsTo_pure _
        · exact keepsTo_fail _
      case h_2 => exact enumeration_keepsTo hlibrary hs hshows hlabel ‹_›
      case h_3 => exact array_keepsTo hlibrary ih hs hshows hlabel ‹_›
      case h_4 => exact ih.composition hs hshows hlabel ‹_› budget
      case h_5 => exact objectLike_keepsTo hlibrary ih hs hshows hlabel ‹_›
      case h_6 => exact keepsTo_pure _
      all_goals exact keepsTo_fail _

end Native

/-! ## Wire types -/

namespace Wire

section

variable (hlibrary : cx.library.Orderly documents) {v : Visit} {scope label : String}
  {budget : Nat} (h : MapKeeps cx.library documents (map cx budget))
include hlibrary h

theorem reference_keepsTo (hv : Placed cx.library documents v scope) {reference : String}
    (hkind : v.node.kind = .reference reference) :
    KeepsTo cx.library documents
      (Wire.reference cx (map cx budget) v.document reference (v.request scope)) :=
  keepsTo_ofExcept_bind fun _ htarget ↦
    ((h _ "" (hv.target hlibrary hkind htarget)).following _ _).bind fun _ ↦ keepsTo_pure _

variable {origin : Origin} {steps : List Step} {s : Site}
  (hs : Site.At cx.library documents origin steps s) (hshows : s.Shows cx.library v)
include hs hshows

omit h in
theorem enumeration_keepsTo (hlabel : v.label = .ok label) {values : List String}
    (hkind : v.node.kind = .enumeration values) :
    KeepsTo cx.library documents (enumeration cx v.document label (v.request s.scope)) :=
  Site.named_claim_bind_keepsTo hlibrary hs hshows hlabel hkind (fun _ ↦ Kind.noConfusion)
    (fun _ ↦ Kind.noConfusion) .enumeration (fun _ ↦ claims_pure _) fun _ _ ↦ keepsTo_pure _

theorem array_keepsTo (hlabel : v.label = .ok label) {items : Items}
    (hkind : v.node.kind = .array items) :
    KeepsTo cx.library documents
      (array cx (map cx budget) v.document items label (v.request s.scope)) :=
  keepsTo_ofExcept_bind fun _ hitem ↦
    (h _ s.scope (.element hlibrary hs hshows hkind hlabel hitem)).bind fun _ ↦
      keepsTo_ofExcept_bind fun _ _ ↦ keepsTo_pure _

theorem dictionary_keepsTo (hlabel : v.label = .ok label) {schema : ObjectSchema}
    {additional : Node} (hkind : v.node.kind = .object schema)
    (hplain : schema.hasProperties = false) (hadditional : schema.additional = some additional) :
    KeepsTo cx.library documents
      (dictionary cx (map cx budget) v.document additional label (v.request s.scope)) := by
  refine Site.named_claim_bind_keepsTo hlibrary hs hshows hlabel hkind (fun _ ↦ Kind.noConfusion)
    (fun _ ↦ Kind.noConfusion) .map (fun stem ↦ ?_) fun stem hstem ↦ ?_
  · exact (map_claims_any cx budget _ _ _).bind fun _ ↦ (claims_ofExcept _).bind fun _ ↦
      claims_pure _
  · exact (h _ stem (.value hs hshows hkind hplain hadditional hstem)).bind fun _ ↦
      keepsTo_ofExcept_bind fun _ _ ↦ keepsTo_pure _

omit hlibrary in
theorem addMember_keepsTo {schema : ObjectSchema} (hkind : v.node.kind = .object schema)
    {entry : String × Node} (hmember : entry ∈ schema.members) {stem : String}
    (hstem : s.Stem cx.library stem) (scope : String) (soFar : Gathered) :
    KeepsTo cx.library documents
      (addMember (map cx budget) v.document stem (v.request scope) soFar entry) := by
  have hvalue := h _ stem (.property hs hshows hkind hmember hstem)
  refine keepsTo_attempt_bind hvalue fun result ↦ ?_
  cases result with
  | ok value => exact keepsTo_ofExcept_bind fun _ _ ↦ keepsTo_pure _
  | error failure => exact keepsTo_ite_warn failure _

theorem object_keepsTo (hlabel : v.label = .ok label) {schema : ObjectSchema}
    (hkind : v.node.kind = .object schema) :
    KeepsTo cx.library documents
      (object cx (map cx budget) v.document schema label (v.request s.scope)) := by
  refine Site.named_claim_bind_keepsTo hlibrary hs hshows hlabel hkind (fun _ ↦ Kind.noConfusion)
    (fun _ ↦ Kind.noConfusion) .object (fun stem ↦ ?_) fun stem hstem ↦ ?_
  · exact (Claims.foldlM (addMember_claims_any budget stem) _ _).bind fun _ ↦
      (claims_ofExcept _).bind fun _ ↦ claims_pure _
  · refine Obeys.bind (keepsTo_foldlM fun soFar entry hmember ↦ ?_) fun _ ↦
      keepsTo_ofExcept_bind fun _ _ ↦ keepsTo_pure _
    exact addMember_keepsTo h hs hshows hkind hmember hstem s.scope soFar

theorem objectLike_keepsTo (hlabel : v.label = .ok label) {schema : ObjectSchema}
    (hkind : v.node.kind = .object schema) :
    KeepsTo cx.library documents
      (objectLike cx (map cx budget) v.document schema label (v.request s.scope)) := by
  unfold objectLike
  split
  · exact object_keepsTo hlibrary h hs hshows hlabel hkind
  · split
    · exact dictionary_keepsTo hlibrary h hs hshows hlabel hkind (Bool.eq_false_iff.2 ‹_›) ‹_›
    · split
      · exact keepsTo_fail _
      · exact keepsTo_pure _

end

/-- The mapping of a schema that is placed to its wire type keeps to preferred stems. -/
theorem map_keepsTo (hlibrary : cx.library.Orderly documents) (budget : Nat) :
    MapKeeps cx.library documents (map cx budget) := by
  induction budget with
  | zero => exact fun _ _ _ ↦ obeys_exhausted
  | succ budget ih =>
    intro v scope hv
    change KeepsTo cx.library documents
      (step cx (mergeAllOf cx.library budget) (map cx budget) v.document v.node (v.request scope))
    unfold step
    split
    · exact reference_keepsTo hlibrary ih hv ‹_›
    case h_2 hreference =>
      have hplain : ¬v.node.isReference := fun hkind ↦
        (Node.isReference_iff.1 hkind).elim hreference
      refine keepsTo_ofExcept_bind fun label hlabel ↦ ?_
      obtain ⟨origin, steps, s, hs, hshows, rfl⟩ :=
        hv.exists_site (Bool.eq_false_iff.2 hplain) hlabel
      split
      case h_1 =>
        unfold constant
        split
        · exact keepsTo_pure _
        · exact keepsTo_fail _
      case h_2 => exact enumeration_keepsTo hlibrary hs hshows hlabel ‹_›
      case h_3 => exact array_keepsTo hlibrary ih hs hshows hlabel ‹_›
      case h_4 => exact ih.composition hs hshows hlabel ‹_› budget
      case h_5 => exact objectLike_keepsTo hlibrary ih hs hshows hlabel ‹_›
      case h_6 => exact keepsTo_pure _
      all_goals exact keepsTo_fail _

end Wire

end SchemaBindings
