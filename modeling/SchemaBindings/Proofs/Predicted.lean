import SchemaBindings.Proofs.Claimed
import SchemaBindings.Proofs.Once
import SchemaBindings.Proofs.Placed

/-!
# What reservations foretell

A stem is reserved for a definition by a look at its schema, before anything is mapped. What is
reserved is what the mapping of the definition claims for its place later on: the same kind and the
same preferred stem, or nothing. An array of references is called after the last target of the
references, which is looked for in advance, while the mapper learns it from the type of an element.
-/

namespace SchemaBindings

open Registry

/-! ## Titles at the end of references -/

section Titles

variable {library : Library} {document : Document} {node : Node} {reference place : String}
  {target last : Target} {hops : Nat}

/-- The name of what a reference leads to is its title, which is not empty then. -/
theorem Visit.title_of_label {label : String}
    (htarget : library.resolve document reference place = .ok target)
    (hlabel : (Visit.ofTarget target).label = .ok label) : target.title = label ∧ label ≠ "" := by
  obtain ⟨hnamed, htitle⟩ | ⟨hunnamed, hgiven⟩ := Visit.label_eq_ok.1 hlabel
  · exact ⟨htitle, htitle ▸ hnamed⟩
  · obtain ⟨fragment, -, -, -, -, htitle, -⟩ := Library.resolve_eq_ok htarget
    obtain ⟨hsome, hnamed⟩ := Option.filter_eq_some_iff.1 hgiven
    change target.title = "" at hunnamed
    change target.node.title = some label at hsome
    rw [hsome, Option.getD_some] at htitle
    exact absurd (htitle.symm.trans hunnamed) (by simpa using hnamed)

namespace Library

theorem RefersTo.exists_resolve (h : library.RefersTo document reference last) :
    ∃ current reference' place, library.resolve current reference' place = .ok last := by
  induction h with
  | last htarget => exact ⟨_, _, _, htarget⟩
  | hop _ _ _ ih => exact ih

theorem RefersTo.exists_leadsOut (h : library.RefersTo document reference last)
    (hkind : node.kind = .reference reference) : ∃ hops, library.LeadsOut hops document node := by
  induction h generalizing node with
  | last htarget hplain => exact ⟨1, .hop hkind htarget (.here (by simp [hplain]))⟩
  | hop htarget hnext _ ih =>
    obtain ⟨hops, hleads⟩ := ih hnext
    exact ⟨hops + 1, .hop hkind htarget hleads⟩

/-- Within the limit the search comes to the title of the last target. -/
theorem RefersTo.finalTitle?_eq (h : library.RefersTo document reference last)
    (hkind : node.kind = .reference reference) (hleads : library.LeadsOut hops document node)
    (place : String) (title : Option String) :
    finalTitle? library place (hops + 1) document node title = some last.title := by
  induction h generalizing node hops title with
  | last htarget hplain =>
    obtain ⟨fewer, rfl, -⟩ := (leadsOut_iff hkind htarget).1 hleads
    rw [finalTitle?, hkind]
    dsimp only
    rw [resolve_place htarget place]
    dsimp only
    rw [finalTitle?]
    split
    case h_1 hnext =>
      rw [Node.isReference_eq hnext] at hplain
      cases hplain
    case h_2 => rfl
  | hop htarget hnext _ ih =>
    obtain ⟨fewer, rfl, hfewer⟩ := (leadsOut_iff hkind htarget).1 hleads
    rw [finalTitle?, hkind]
    dsimp only
    rw [resolve_place htarget place]
    exact ih hnext hfewer _

/-- References are not followed in vain: if they lead to a schema, they do so within the limit. -/
def Short (library : Library) (document : Document) (node : Node) : Prop :=
  ∀ hops, library.LeadsOut hops document node → library.LeadsOut (hopLimit - 1) document node

end Library

end Titles

/-! ## Reserved claims -/

namespace Registry

variable {library : Library} {content : Json} {document : Document} {name : String} {node : Node}

theorem isSome_stem?_assignAll_iff (title : String) (claims : List Claim) (registry : Registry)
    (path : String) : ((assignAll title claims registry).stem? path).isSome ↔
      (registry.stem? path).isSome ∨ ∃ claim ∈ claims, claim.path = path := by
  constructor
  · intro h
    induction claims generalizing registry with
    | nil => exact .inl h
    | cons first rest ih =>
      obtain hfirst | ⟨claim, hclaim, hpath⟩ := ih _ h
      · by_cases hpath : first.path = path
        · exact .inr ⟨first, List.mem_cons_self, hpath⟩
        · exact .inl (stem?_assign_of_ne hpath registry _ _ _ ▸ hfirst)
      · exact .inr ⟨claim, List.mem_cons_of_mem _ hclaim, hpath⟩
  · rintro (h | ⟨claim, hclaim, rfl⟩)
    · exact (assignAll_extends _ _ _).isSome_stem? h
    · exact isSome_stem?_assignAll hclaim title registry

/-- Stems are reserved for the places that definitions claim. -/
theorem isSome_stem?_initial_iff (library : Library) (document : Document) (path : String) :
    ((initial library document).stem? path).isSome ↔
      ∃ claim ∈ definitionClaims library document, claim.path = path :=
  (isSome_stem?_assignAll_iff document.title _ { reserved := [document.uri] } path).trans
    (or_iff_right Bool.false_ne_true)

/-- The place of a definition is claimed by this definition only. -/
theorem mem_definitionClaims_iff (hread : Document.read content = .ok document)
    (hcontent : content.Distinct) (hnode : Table.get? name document.definitions = some node)
    {claim : Claim}
    (hpath : claim.path = document.schemaPath (document.definitionRef name)) :
    claim ∈ definitionClaims library document ↔
      definitionClaim? library document name node = some claim := by
  constructor
  · intro h
    obtain ⟨other, otherNode, hmem, hclaim⟩ := exists_of_mem_definitionClaims h
    have hplaces := (path_of_definitionClaim? hclaim).symm.trans hpath
    rw [Document.schemaPath_definitionRef, Document.schemaPath_definitionRef] at hplaces
    obtain ⟨-, rfl⟩ := Pointer.child_inj hplaces
    have hother := Table.get?_of_mem (Document.nodup_definitions hread hcontent) hmem
    cases hother.symm.trans hnode
    exact hclaim
  · exact mem_definitionClaims (Table.mem_of_get?_eq_some hnode)

theorem definitionClaim?_of_literal {kind : SymbolKind} (hkind : literalKind? node = some kind) :
    definitionClaim? library document name node =
      some ⟨document.schemaPath (document.definitionRef name), kind,
        Names.nested "" (node.givenTitle?.getD name)⟩ := by
  unfold definitionClaim?
  split
  case h_1 harray =>
    unfold literalKind? at hkind
    rw [harray] at hkind
    cases hkind
  case h_2 =>
    rw [hkind]
    rfl

/-- A search that comes to a name has not been in vain. -/
theorem short_of_definitionClaim?
    (h : (definitionClaim? library document name node).isSome) {items : Items} {item : Node}
    (hkind : node.kind = .array items)
    (hitem : items.element (document.schemaPath (document.definitionRef name)) = .ok item) :
    library.Short document item := by
  intro hops _
  by_cases hreference : item.isReference
  · cases isSome_definitionClaim?_iff.1 h with
    | array hkind' hitem' hends =>
      cases hkind.symm.trans hkind'
      cases hitem.symm.trans hitem'
      exact hends hreference
    | _ => cases hkind.symm.trans ‹_›
  · exact .here hreference

end Registry

/-! ## Claims of the mapping of a definition -/

theorem Document.resolve_definitionRef {content : Json} {document : Document} {name : String}
    {node : Node} (hread : Document.read content = .ok document)
    (hnode : Table.get? name document.definitions = some node) (library : Library)
    (place : String) : library.resolve document (document.definitionRef name) place =
      .ok (document.definitionTarget document name node) :=
  resolve_of_place?_definitionRef hread (place?_definitionRef hread name) hnode place

namespace Native

section Ends

variable {cx : Context} {document : Document} {node item : Node} {request : Request}
  {session after : Session} {type element : NativeType} {items : Items} {label place : String}

theorem Ends.exists_label (hends : Ends cx document node request session (.ok type) after)
    (hkind : ∀ reference, node.kind ≠ .reference reference) :
    ∃ label, request.label node = .ok label := by
  obtain ⟨budget, hrun⟩ := hends
  cases hlabel : request.label node with
  | ok label => exact ⟨label, rfl⟩
  | error failure =>
    cases budget with
    | zero => cases hrun
    | succ budget => cases (run_map_unlabelled hkind hlabel).symm.trans hrun

theorem Ends.exists_element (hends : Ends cx document node request session (.ok type) after)
    (hkind : node.kind = .array items) (hlabel : request.label node = .ok label) :
    ∃ item element between, items.element request.path = .ok item ∧
      Ends cx document item (request.element item label) session (.ok element) between := by
  obtain ⟨budget, hrun⟩ := hends
  cases budget with
  | zero => cases hrun
  | succ budget =>
    obtain ⟨item, element, between, hitem, helement, -⟩ :=
      array_describes ((run_map_array hkind hlabel).symm.trans hrun)
    exact ⟨item, element, between, hitem, budget, helement⟩

/-- The name of an array of references is the name of the type of an element. -/
theorem Ends.arrayLabel?_eq (hitem : items.element place = .ok item)
    (helement : Ends cx document item request session (.ok element) after)
    (hshort : cx.library.Short document item) :
    arrayLabel? cx.library document label place items =
      some (if item.isReference then element.label else label) := by
  unfold arrayLabel?
  rw [hitem]
  dsimp only
  by_cases hreference : item.isReference = true
  · rw [if_pos hreference, if_pos hreference]
    obtain ⟨budget, hrun⟩ := helement
    let v : Visit := ⟨document, item, request.name, request.path⟩
    obtain ⟨-, -, htype⟩ := map_label budget v request.scope hrun trivial trivial
    change v.TypeLabel cx.library element.label at htype
    cases htype with
    | own hplain => cases hreference.symm.trans hplain
    | target hkind hlast hlabel =>
      obtain ⟨_, _, _, hresolve⟩ := hlast.exists_resolve
      obtain ⟨hops, hleads⟩ := hlast.exists_leadsOut hkind
      obtain ⟨htitle, -⟩ := Visit.title_of_label hresolve hlabel
      rw [← htitle]
      exact hlast.finalTitle?_eq hkind (hshort hops hleads) _ _
  · rw [if_neg hreference, if_neg hreference]

end Ends

section Definition

variable {cx : Context} {content : Json} {document : Document} {name : String} {node : Node}
  {session after : Session} {type : NativeType} {claim : Claim}

/-- The mapping of the definition that a reference from its own document leads to. -/
def definitionCall (document : Document) (name : String) (node : Node) : Call :=
  ⟨document, node, .ofTarget (document.definitionTarget document name node),
    ({} : Session).push (document.uri ++ document.definitionRef name)⟩

section Claims

variable (hread : Document.read content = .ok document)
  (hnode : Table.get? name document.definitions = some node)
include hread hnode

/-- A definition is mapped under its title, or else under its name. -/
theorem givenTitle?_of_label {label : String}
    (hlabel : (definitionCall document name node).request.label node = .ok label) :
    node.givenTitle?.getD name = label := by
  obtain ⟨htitle, hnamed⟩ :=
    Visit.title_of_label (Document.resolve_definitionRef hread hnode {} "") hlabel
  unfold Node.givenTitle?
  change node.title.getD name = label at htitle
  cases hgiven : node.title with
  | none => rwa [hgiven] at htitle
  | some title =>
    rw [hgiven, Option.getD_some] at htitle
    subst htitle
    rw [Option.filter_some, if_pos (by simpa using hnamed), Option.getD_some]

variable (hshort : ∀ items item, node.kind = .array items →
  items.element (document.schemaPath (document.definitionRef name)) = .ok item →
    cx.library.Short document item)
include hshort

/-- What the mapping of a definition claims at once is what the definition has reserved. -/
theorem definitionClaim?_of_claims (h : (definitionCall document name node).Claims cx claim) :
    definitionClaim? cx.library document name node = some claim := by
  have hliteral : ∀ {kind : SymbolKind} {label : String}, literalKind? node = some kind →
      (definitionCall document name node).request.label node = .ok label →
      definitionClaim? cx.library document name node =
        some ⟨document.schemaPath (document.definitionRef name), kind, Names.nested "" label⟩ :=
    fun hkind hlabel ↦
      givenTitle?_of_label hread hnode hlabel ▸ definitionClaim?_of_literal hkind
  cases h with
  | @enumeration values label hkind hlabel =>
    change node.kind = .enumeration values at hkind
    exact hliteral (by rw [literalKind?, hkind]) hlabel
  | @object schema label hkind hlabel hproperties =>
    change node.kind = .object schema at hkind
    exact hliteral (by rw [literalKind?, hkind]; exact if_pos hproperties) hlabel
  | @map schema label hkind hlabel hplain hadditional =>
    change node.kind = .object schema at hkind
    exact hliteral (by simp [literalKind?, hkind, hplain, hadditional]) hlabel
  | @array items item label element between hkind hlabel hitem helement =>
    change node.kind = .array items at hkind
    have hname : arrayLabel? cx.library document label
        (document.schemaPath (document.definitionRef name)) items =
          some (if item.isReference then element.label else label) :=
      Ends.arrayLabel?_eq hitem helement (hshort _ _ hkind hitem)
    unfold definitionClaim?
    rw [hkind]
    dsimp only
    rw [givenTitle?_of_label hread hnode hlabel, hname]
    rfl

/-- If its mapping succeeds, what a definition has reserved is claimed. -/
theorem claims_iff (hplain : ¬node.IsComposition)
    (hends : Ends cx document node (definitionCall document name node).request
      (definitionCall document name node).session (.ok type) after) :
    (definitionCall document name node).Claims cx claim ↔
      definitionClaim? cx.library document name node = some claim := by
  refine ⟨definitionClaim?_of_claims hread hnode hshort, fun hclaim ↦ ?_⟩
  have hcovers := isSome_definitionClaim?_iff.1 (Option.isSome_of_eq_some hclaim)
  obtain ⟨other, hother⟩ : ∃ other, (definitionCall document name node).Claims cx other := by
    have hlabel := hends.exists_label
    cases hcovers with
    | enumeration hkind =>
      obtain ⟨label, hlabel⟩ := hlabel (by simp [hkind])
      exact ⟨_, .enumeration hkind hlabel⟩
    | composition hkind => exact absurd ⟨_, hkind⟩ hplain
    | object hkind hproperties =>
      obtain ⟨label, hlabel⟩ := hlabel (by simp [hkind])
      exact ⟨_, .object hkind hlabel hproperties⟩
    | @map schema hkind hadditional =>
      obtain ⟨label, hlabel⟩ := hlabel (by simp [hkind])
      cases hproperties : schema.hasProperties with
      | true => exact ⟨_, .object hkind hlabel hproperties⟩
      | false => exact ⟨_, .map hkind hlabel hproperties hadditional⟩
    | array hkind =>
      obtain ⟨label, hlabel⟩ := hlabel (by simp [hkind])
      obtain ⟨item, element, between, hitem, helement⟩ := hends.exists_element hkind hlabel
      exact ⟨_, .array hkind hlabel hitem helement⟩
  cases hclaim.symm.trans (definitionClaim?_of_claims hread hnode hshort hother)
  exact hother

end Claims

end Definition

end Native

/-! ## Places of calls -/

section Places

variable {library : Library} {walk : Walk} {first : Document} {call call' : Call}

/-- The call is for a document that can be come to from the first one, and for a place in it. -/
structure Call.Located (library : Library) (first : Document) (call : Call) : Prop where
  document_mem : call.document ∈ first :: library.documents
  path_eq : ∃ pointer, isLocal pointer ∧ call.request.path = call.document.title ++ pointer

theorem Call.Located.under (h : call.Located library first) (steps : List String) (node : Node)
    (name scope : String) (session : Session) :
    Call.Located library first
      ⟨call.document, node, ⟨name, scope, Pointer.under call.request.path steps⟩, session⟩ := by
  refine ⟨h.document_mem, ?_⟩
  obtain ⟨pointer, hlocal, hpath⟩ := h.path_eq
  refine ⟨Pointer.under pointer steps, ?_, ?_⟩
  · clear hpath
    induction steps generalizing pointer with
    | nil => exact hlocal
    | cons step rest ih => exact ih _ (isLocal_child hlocal step)
  · dsimp only
    rw [hpath, Pointer.append_under]

theorem Asks.located (hasks : Asks library walk call call') (h : call.Located library first) :
    call'.Located library first := by
  cases hasks with
  | target hkind htarget =>
    obtain ⟨fragment, -, hplace, -, -, -, -, -, hpath⟩ := Library.resolve_eq_ok htarget
    refine ⟨?_, fragment, ?_, hpath⟩
    · obtain hsame | hother := Library.owner_of_resolve htarget
      · exact hsame ▸ h.document_mem
      · exact List.mem_cons_of_mem _ hother
    · rw [Library.fragment_of_place? hplace]
      exact isLocal_splitReference _
  | element => exact h.under ["items"] _ _ _ _
  | value => exact h.under ["additionalProperties"] _ _ _ _
  | property => exact h.under ["properties", _] _ _ _ _
  | propertyElement => exact h.under ["properties", _, "items"] _ _ _ _
  | merged => exact ⟨h.document_mem, h.path_eq⟩

theorem Call.Located.of_leads (h : call.Located library first)
    (hleads : Relation.ReflTransGen (Asks library walk) call call') :
    call'.Located library first := by
  induction hleads with
  | refl => exact h
  | tail _ hasks ih => exact hasks.located ih

/-- Titles without number signs tell the places of documents apart. -/
theorem Call.Located.title_eq {title pointer : String} (h : call.Located library first)
    (hcall : '#' ∉ call.document.title.toList) (htitle : '#' ∉ title.toList)
    (hpointer : isLocal pointer) (hpath : call.request.path = title ++ pointer) :
    call.document.title = title := by
  obtain ⟨other, hother, heq⟩ := h.path_eq
  have hsplit := congrArg splitReference (heq.symm.trans hpath)
  rw [splitReference_qualified hcall hother, splitReference_qualified htitle hpointer] at hsplit
  exact congrArg Prod.fst hsplit

theorem Call.Claims.path_eq {cx : Context} {claim : Claim} (h : call.Claims cx claim) :
    claim.path = call.request.path := by
  cases h <;> rfl

end Places

/-! ## Definitions -/

section Main

variable {cx : Context} {content : Json} {document : Document} {name : String} {node : Node}
  {request : Request} {session' : Session} {type : NativeType} {budget : Nat}

/-- A reference to a definition of the own document is mapped as the definition. -/
theorem Native.claimed_definitionRef_iff (hread : Document.read content = .ok document)
    (hnode : Table.get? name document.definitions = some node) {owner : Document} {claim : Claim} :
    Claimed cx ⟨document, .ofKind (.reference (document.definitionRef name)), request, {}⟩
        (owner, claim) ↔ Claimed cx (definitionCall document name node) (owner, claim) := by
  have htarget := Document.resolve_definitionRef hread hnode cx.library request.path
  rw [claimed_reference_iff rfl]
  constructor
  · rintro ⟨target, hfound, -, hclaimed⟩
    cases htarget.symm.trans hfound
    exact hclaimed
  · exact fun hclaimed ↦ ⟨_, htarget, List.not_mem_nil, hclaimed⟩

theorem Native.ends_of_definitionRef (hread : Document.read content = .ok document)
    (hnode : Table.get? name document.definitions = some node)
    (hrun : map cx budget document (.ofKind (.reference (document.definitionRef name))) request {} =
      some (.ok type, session')) :
    ∃ mapped after, Ends cx document node (definitionCall document name node).request
      (definitionCall document name node).session (.ok mapped) after := by
  cases budget with
  | zero => cases hrun
  | succ budget =>
    have hreference : Native.reference cx (map cx budget) document (document.definitionRef name)
        request {} = some (.ok type, session') := (run_map_reference rfl).symm.trans hrun
    obtain ⟨target, mapped, after, hfound, hbody, -⟩ := reference_describes hreference
    cases (Document.resolve_definitionRef hread hnode cx.library request.path).symm.trans hfound
    exact ⟨mapped, after, budget, hbody⟩

/-- What is reserved for a definition is what its mapping claims, unless it is a composition. If the
mapping succeeds from an empty registry, its claims are those of the calls that are made in it. The
definition has a stem in advance exactly if one is claimed for its place, by a claim of the same
kind and with the same preferred stem. References that the elements of an array lead by must not be
followed in vain. Claims are told apart by their documents as well as their paths, but paths do
suffice if titles tell the documents apart and have no number signs. -/
theorem reserved_definitions_are_claimed (hread : Document.read content = .ok document)
    (hcontent : content.Distinct) (hnode : Table.get? name document.definitions = some node)
    (hplain : ¬node.IsComposition)
    (hshort : ∀ items item, node.kind = .array items →
      items.element (document.schemaPath (document.definitionRef name)) = .ok item →
        cx.library.Short document item)
    (hrun : Native.map cx budget document (.ofKind (.reference (document.definitionRef name)))
      request {} = some (.ok type, session')) :
    let place := document.schemaPath (document.definitionRef name)
    ∃ calls, session'.registry = claimAll cx.library calls {} ∧
      (∀ entry, entry ∈ calls ↔ Native.Claimed cx
        ⟨document, .ofKind (.reference (document.definitionRef name)), request, {}⟩ entry) ∧
      (((initial cx.library document).stem? place).isSome ↔
        ∃ claim, (document, claim) ∈ calls ∧ claim.path = place) ∧
      (∀ claim, claim.path = place →
        (claim ∈ definitionClaims cx.library document ↔ (document, claim) ∈ calls)) ∧
      ((∀ other ∈ cx.library.documents, other.title = document.title → other = document) →
        (∀ other ∈ document :: cx.library.documents, '#' ∉ other.title.toList) →
          ∀ owner claim, (owner, claim) ∈ calls → claim.path = place → owner = document) := by
  intro place
  obtain ⟨calls, hregistry, hcalls⟩ := Native.makes_map budget
    ⟨document, .ofKind (.reference (document.definitionRef name)), request, {}⟩ _ _ hrun
  obtain ⟨mapped, after, hends⟩ := Native.ends_of_definitionRef hread hnode hrun
  have hclaimed : ∀ claim, claim.path = place →
      (claim ∈ definitionClaims cx.library document ↔ (document, claim) ∈ calls) := by
    intro claim hpath
    rw [hcalls, Native.claimed_definitionRef_iff hread hnode,
      mem_definitionClaims_iff hread hcontent hnode hpath,
      ← Native.claims_iff hread hnode hshort hplain hends]
    refine ⟨fun h ↦ ⟨_, .refl, rfl, h⟩, fun ⟨last, hleads, hdocument, hlast⟩ ↦ ?_⟩
    -- Of all calls in the run only the mapping of the definition itself is for its place.
    have hsame := Native.eq_of_place hread hnode hends hleads ⟨rfl, rfl, rfl⟩ hplain
      List.mem_cons_self hdocument (hlast.path_eq.symm.trans hpath)
    exact hsame ▸ hlast
  refine ⟨calls, hregistry, hcalls, ?_, hclaimed, ?_⟩
  · rw [isSome_stem?_initial_iff]
    constructor
    · rintro ⟨claim, hmem, hpath⟩
      exact ⟨claim, (hclaimed claim hpath).1 hmem, hpath⟩
    · rintro ⟨claim, hmem, hpath⟩
      exact ⟨claim, (hclaimed claim hpath).2 hmem, hpath⟩
  · intro htitles hhash owner claim hmem hpath
    obtain ⟨last, hleads, rfl, hlast⟩ :=
      (Native.claimed_definitionRef_iff hread hnode).1 ((hcalls _).1 hmem)
    have hlocal := Document.isLocal_definitionRef hread name
    have hlocated : last.Located cx.library document :=
      Call.Located.of_leads ⟨List.mem_cons_self, _, hlocal, rfl⟩ hleads
    have htitle := hlocated.title_eq (hhash _ hlocated.document_mem)
      (hhash _ List.mem_cons_self) hlocal (hlast.path_eq.symm.trans hpath)
    obtain hsame | hother := List.mem_cons.1 hlocated.document_mem
    · exact hsame
    · exact htitles _ hother htitle

end Main

namespace Racks

/-- The elements of the array are in another document, where one reference leads to another. -/
def content : Json := .object [("$id", .string "Racks"), ("title", .string "Racks"),
  ("definitions", .object [("Row", .object [("type", .string "array"),
    ("items", .object [("$ref", .string "Parts#/definitions/Slot")])])])]

def partsContent : Json := .object [("$id", .string "Parts"), ("title", .string "Parts"),
  ("definitions", .object [
    ("Slot", .object [("$ref", .string "#/definitions/Box")]),
    ("Box", .object [("title", .string "Crate"), ("type", .string "object"),
      ("properties", .object [("size", .object [("type", .string "integer")])])])])]

theorem isSome_read : (Document.read content).toOption.isSome := by decide +kernel

theorem isSome_read_parts : (Document.read partsContent).toOption.isSome := by decide +kernel

def racks : Document := (Document.read content).toOption.get isSome_read

def parts : Document := (Document.read partsContent).toOption.get isSome_read_parts

def cx : Context := ⟨⟨[racks, parts]⟩, {}⟩

def request : Request := ⟨"row", "", "Racks#/row"⟩

theorem claim_row : (Table.get? "Row" racks.definitions).any (fun node ↦
    (definitionClaim? cx.library racks "Row" node).any fun claim ↦
      claim.kind == .array && claim.stem == "Crate") = true := by
  decide +kernel

theorem run_row : (Native.map cx 8 racks (.ofKind (.reference (racks.definitionRef "Row"))) request
    {}).any (fun run ↦ run.1.toOption.any fun _ ↦ true) = true := by
  decide +kernel

theorem titles : [racks, parts].map (·.title) = ["Racks", "Parts"] := by decide +kernel

/-- The array is claimed as it is reserved, under the title in the other document, and nothing else
is claimed for its path. -/
theorem row_is_claimed_as_reserved : ∃ type session calls claim,
    Native.map cx 8 racks (.ofKind (.reference (racks.definitionRef "Row"))) request {} =
        some (.ok type, session) ∧
      session.registry = claimAll cx.library calls {} ∧ (racks, claim) ∈ calls ∧
      claim.kind = .array ∧ claim.stem = "Crate" ∧
      ∀ owner other, (owner, other) ∈ calls → other.path = claim.path → owner = racks := by
  obtain ⟨type, session, hrun, -⟩ := Mapping.exists_ok_of_any run_row
  obtain ⟨node, hnode, hclaims⟩ := Option.any_eq_true _ _ |>.1 claim_row
  obtain ⟨claim, hclaim, hmade⟩ := Option.any_eq_true _ _ |>.1 hclaims
  obtain ⟨hkind, hstem⟩ := Bool.and_eq_true _ _ |>.mp hmade
  have hread : Document.read content = .ok racks := eq_ok_get isSome_read
  have hcontent : content.Distinct := by simp [content, Table.keys]
  have hplain : ¬node.IsComposition := by
    rintro ⟨members, hmembers⟩
    have hobject : literalKind? node = some .object := by rw [literalKind?, hmembers]
    cases hclaim.symm.trans (definitionClaim?_of_literal hobject)
    cases hkind
  obtain ⟨calls, hregistry, -, -, hcalls, hpaths⟩ := reserved_definitions_are_claimed hread hcontent
    hnode hplain
    (fun _ _ ↦ short_of_definitionClaim? (Option.isSome_of_eq_some hclaim)) hrun
  have hpath := path_of_definitionClaim? hclaim
  have hreserved := mem_definitionClaims (Table.mem_of_get?_eq_some hnode) hclaim
  refine ⟨type, session, calls, claim, hrun, hregistry, (hcalls claim hpath).1 hreserved,
    beq_iff_eq.1 hkind, beq_iff_eq.1 hstem, fun owner other hmem hother ↦ ?_⟩
  have hracks : racks.title = "Racks" := (List.cons.inj titles).1
  have hparts : parts.title = "Parts" := (List.cons.inj (List.cons.inj titles).2).1
  have hdocuments : cx.library.documents = [racks, parts] := rfl
  refine hpaths ?_ ?_ owner other hmem (hother.trans hpath) <;> rw [hdocuments]
  · simp [hracks, hparts]
  · simp [hracks, hparts]

end Racks

end SchemaBindings
