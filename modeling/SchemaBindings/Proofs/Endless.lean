import SchemaBindings.Proofs.Calls

/-!
# Mappings without a result

The mapping of a schema to its native type asks for the mappings of other schemas, and has a
result as soon as all of these have one; so has the mapping to its wire type. A schema is left
without a result by an endless nest of calls and by nothing else. In such a nest compositions are
unfolded for ever: what a member of a composition refers to may hold that composition again, and
the merged schema no longer goes through the reference.
-/

namespace SchemaBindings

open Mapping

theorem ObjectSchema.hasProperties_of_members {schema : ObjectSchema}
    {before after : List (String × Node)} {entry : String × Node}
    (h : schema.members = before ++ entry :: after) : schema.hasProperties :=
  hasProperties_of_mem (h ▸ List.mem_append_cons_self)

section Mappers

variable {cx : Context} {document : Document} {request : Request} {session : Session}

theorem Request.halts_claim_bind {α : Type} {library : Library} {kind : SymbolKind}
    {label : String} {next : String → Mapping α} :
    Halts (request.claim library document kind label >>= next) session ↔
      ∀ stem session', request.claim library document kind label session =
        some (.ok stem, session') → (next stem).Halts session' :=
  halts_bind.trans (and_iff_right (total_claim _ _ _ _ _ session))

section Merge

variable {α : Type} {library : Library} {node merged : Node} {members : List Node} {path : String}
  {session' : Session}

/-- What a composition merges into does not depend on the budget. -/
theorem halts_of_mergeAllOf_bind {budget found : Nat} {next : Node → Mapping α}
    (h : Halts (mergeAllOf library budget document node members path >>= next) session)
    (hmerge : mergeAllOf library found document node members path session =
      some (.ok merged, session')) : (next merged).Halts session' := by
  obtain ⟨hfirst, hnext⟩ := halts_bind.1 h
  obtain ⟨result, after, hrun⟩ := halts_iff.1 hfirst
  cases run_unique (fun hle ↦ mergeAllOf_refines library hle document node members path) hrun hmerge
  exact hnext merged session' hrun

theorem exists_halts_mergeAllOf_bind {next : Nat → Node → Mapping α}
    (hkind : node.kind = .allOf members)
    (hmono : ∀ {budget budget'}, budget ≤ budget' → ∀ merged,
      (next budget merged).Refines (next budget' merged))
    (h : ∀ budget merged session', mergeAllOf library budget document node members path session =
      some (.ok merged, session') → ∃ budget', (next budget' merged).Halts session') :
    ∃ budget, Halts (mergeAllOf library budget document node members path >>= next budget)
      session := by
  let call : Call := ⟨document, node, ⟨"", "", path⟩, session⟩
  have hmembers : ∀ member ∈ members, (call.cover library).Holds document member := by
    intro member hmember
    refine (call.cover_holds library).of_mentions fun hm ↦ ?_
    rw [Node.mentions_eq, hkind]
    exact mem_listMentions.2 ⟨member, hmember, hm⟩
  exact exists_halts_bind_of_refines (fun hle ↦ mergeAllOf_refines _ hle _ _ _ _) hmono
    (exists_halts_mergeAllOf hmembers _ _ session) h

end Merge

namespace Native

section Operations

variable {mapper : Mapper}

theorem halts_reference {reference : String} :
    (Native.reference cx mapper document reference request).Halts session ↔
      ∀ target, cx.library.resolve document reference request.path = .ok target →
        target.key ∉ session.chain →
        (mapper target.owner target.node (.ofTarget target)).Halts (session.push target.key) := by
  refine halts_ofExcept_bind.trans (forall₂_congr fun target _ ↦ ?_)
  rw [halts_bind_total fun _ ↦ total_pure _, halts_following]

theorem halts_array {items : Items} {label : String} :
    (array cx mapper document items label request).Halts session ↔
      ∀ item, items.element request.path = .ok item →
        (mapper document item (request.element item label)).Halts session := by
  refine halts_ofExcept_bind.trans (forall₂_congr fun item _ ↦ halts_bind_total fun element ↦ ?_)
  exact (total_claim _ _ _ _ _).bind fun _ ↦ (total_ofExcept _).bind fun _ ↦
    (total_ofExcept _).bind fun _ ↦ total_pure _

theorem halts_dictionary {additional : Node} {label : String} :
    (dictionary cx mapper document additional label request).Halts session ↔
      ∀ stem session', request.claim cx.library document .map label session =
        some (.ok stem, session') →
        (mapper document additional (request.mapValue stem)).Halts session' := by
  refine Request.halts_claim_bind.trans (forall₃_congr fun stem session' _ ↦
    halts_bind_total fun value ↦ ?_)
  exact (total_ofExcept _).bind fun _ ↦ (total_ofExcept _).bind fun _ ↦ total_pure _

theorem halts_property {parent : Parent} {isOptional : Bool} {name : String} {node : Node}
    (hwhole : ∀ items, node.kind ≠ .array items) :
    (property cx mapper document parent isOptional name node request).Halts session ↔
      (mapper document node request).Halts session := by
  obtain ⟨title, description, kind⟩ := node
  cases kind with
  | array items => exact absurd rfl (hwhole items)
  | _ => exact halts_bind_total fun _ ↦ total_pure _

theorem halts_property_of_array {parent : Parent} {isOptional : Bool} {name : String}
    {node : Node} {items : Items} (hkind : node.kind = .array items) :
    (property cx mapper document parent isOptional name node request).Halts session ↔
      ∀ item, items.element request.path = .ok item →
        (mapper document item (request.element item name)).Halts session := by
  unfold property
  rw [hkind]
  exact halts_ofExcept_bind.trans (forall₂_congr fun item _ ↦
    halts_bind_total fun _ ↦ total_pure _)

theorem halts_addProperty {parent : Parent} {schema : ObjectSchema} {soFar : Gathered}
    {entry : String × Node} :
    (addProperty cx mapper document parent schema request soFar entry).Halts session ↔
      (property cx mapper document parent (schema.isOptional entry.1) entry.1 entry.2
        (request.property parent.stem entry.1)).Halts session := by
  refine (halts_bind_total fun mapped ↦ ?_).trans halts_attempt
  cases mapped with
  | ok value => exact (total_ofExcept _).bind fun _ ↦ total_pure _
  | error failure => exact total_ite_warn failure _

/-- The object with this stem, as its properties are accessed through it. -/
def parent (cx : Context) (document : Document) (stem : String) : Parent :=
  ⟨Names.qualified document.title stem, Names.qualified document.title stem ++ "Handle",
    cx.runtime.wireContainer document.title stem, stem⟩

/-- Goes over properties of the object with this stem. -/
def gather (cx : Context) (mapper : Mapper) (document : Document) (schema : ObjectSchema)
    (request : Request) (stem : String) (properties : List (String × Node)) : Mapping Gathered :=
  properties.foldlM (addProperty cx mapper document (parent cx document stem) schema request)
    ⟨{}, [Access.lifecycle cx.runtime (parent cx document stem).handle
      (parent cx document stem).container]⟩

theorem halts_object {schema : ObjectSchema} {label : String} :
    (object cx mapper document schema label request).Halts session ↔
      ∀ stem session', request.claim cx.library document .object label session =
        some (.ok stem, session') →
        (gather cx mapper document schema request stem schema.members).Halts session' := by
  refine Request.halts_claim_bind.trans (forall₃_congr fun stem session' _ ↦ ?_)
  change Halts (gather cx mapper document schema request stem schema.members >>= _) session' ↔ _
  exact halts_bind_total fun gathered ↦ (total_ofExcept _).bind fun _ ↦ total_pure _

end Operations

/-- How the native mapper goes over the properties of an object. -/
def walk (cx : Context) : Walk where
  opensArrays := true
  passes document schema request stem properties session session' :=
    ∃ budget gathered, gather cx (map cx budget) document schema request stem properties session =
      some (.ok gathered, session')

theorem passes_nil (document : Document) (schema : ObjectSchema) (request : Request)
    (stem : String) (session : Session) :
    (walk cx).passes document schema request stem [] session session :=
  ⟨0, _, rfl⟩

theorem walk_keepsChain : (walk cx).KeepsChain := by
  rintro document schema request stem properties session session' ⟨budget, gathered, hrun⟩
  exact (Claims.foldlM (addProperty_claims_any budget _ schema) _ _ _ _ _ hrun).1

/-- Whether a call has a result with this budget. -/
def Answers (cx : Context) (budget : Nat) (call : Call) : Prop :=
  (map cx budget call.document call.node call.request).Halts call.session

theorem addProperty_map_refines {budget budget' : Nat} (h : budget ≤ budget')
    {schema : ObjectSchema} {stem : String} (soFar : Gathered) (entry : String × Node) :
    (addProperty cx (map cx budget) document (parent cx document stem) schema request soFar
      entry).Refines
      (addProperty cx (map cx budget') document (parent cx document stem) schema request soFar
        entry) :=
  addProperty_related _ (relates_map cx h) rfl _ schema soFar entry

/-- A property is mapped with the budget that the object is mapped with. -/
theorem halts_property_of_gather {budget : Nat} {schema : ObjectSchema} {stem : String}
    {before after : List (String × Node)} {entry : String × Node} {between : Session}
    (h : (gather cx (map cx budget) document schema request stem
      (before ++ entry :: after)).Halts session)
    (hbefore : (walk cx).passes document schema request stem before session between) :
    (property cx (map cx budget) document (parent cx document stem) (schema.isOptional entry.1)
      entry.1 entry.2 (request.property stem entry.1)).Halts between := by
  obtain ⟨found, gathered, hrun⟩ := hbefore
  let step := fun budget ↦
    addProperty cx (map cx budget) document (parent cx document stem) schema request
  have hadd := @Halts.of_foldlM _ _ step (fun h ↦ addProperty_map_refines h) _ _ _ _ _ _ _ _ _
    h hrun
  exact halts_addProperty.1 hadd

theorem Answers.object {budget : Nat} {node : Node} {schema : ObjectSchema} {label : String}
    (h : Answers cx (budget + 1) ⟨document, node, request, session⟩)
    (hkind : node.kind = .object schema) (hlabel : request.label node = .ok label) :
    (objectLike cx (map cx budget) document schema label request).Halts session := by
  obtain ⟨title, description, kind⟩ := node
  cases hkind
  exact halts_ofExcept_bind.1 h label hlabel

theorem Answers.gather {budget : Nat} {node : Node} {schema : ObjectSchema} {label stem : String}
    {between : Session} {before after : List (String × Node)} {entry : String × Node}
    (h : Answers cx (budget + 1) ⟨document, node, request, session⟩)
    (hkind : node.kind = .object schema) (hlabel : request.label node = .ok label)
    (hclaim : request.claim cx.library document .object label session = some (.ok stem, between))
    (hmembers : schema.members = before ++ entry :: after) :
    (gather cx (map cx budget) document schema request stem
      (before ++ entry :: after)).Halts between := by
  have hobject := h.object hkind hlabel
  unfold objectLike at hobject
  rw [if_pos (ObjectSchema.hasProperties_of_members hmembers)] at hobject
  rw [← hmembers]
  exact halts_object.1 hobject stem between hclaim

/-- A call that has a result asks only for results with a smaller budget. -/
theorem Answers.of_asks {budget : Nat} {call call' : Call} (h : Answers cx (budget + 1) call)
    (hasks : Asks cx.library (walk cx) call call') : Answers cx budget call' := by
  cases hasks with
  | @target document node request session reference target hkind htarget hkey =>
    obtain ⟨title, description, kind⟩ := node
    cases hkind
    exact halts_reference.1 h target htarget hkey
  | @element document node request session items label item hkind hlabel hitem =>
    obtain ⟨title, description, kind⟩ := node
    cases hkind
    exact halts_array.1 (halts_ofExcept_bind.1 h label hlabel) item hitem
  | @value document node request session session' schema label stem additional hkind hlabel hplain
      hadditional hclaim =>
    have hobject := h.object hkind hlabel
    unfold objectLike at hobject
    rw [if_neg (by simp [hplain]), hadditional] at hobject
    exact halts_dictionary.1 hobject stem session' hclaim
  | @property document node child request session between session' schema label stem name before
      after hkind hlabel hclaim hmembers hbefore hwhole =>
    have hgather := h.gather hkind hlabel hclaim hmembers
    exact (halts_property (hwhole rfl)).1 (halts_property_of_gather hgather hbefore)
  | @propertyElement document node child item request session between session' schema label stem
      name before after items hkind hlabel hclaim hmembers hbefore hopens hchild hitem =>
    have hgather := h.gather hkind hlabel hclaim hmembers
    exact (halts_property_of_array hchild).1 (halts_property_of_gather hgather hbefore) item hitem
  | @merged document node merged request session session' members label found hkind hlabel hmerge =>
    obtain ⟨title, description, kind⟩ := node
    cases hkind
    exact halts_of_mergeAllOf_bind (halts_ofExcept_bind.1 h label hlabel) hmerge

/-- The properties have been gone over if each one has a result that the object asks for. -/
theorem exists_halts_gather {schema : ObjectSchema} {stem : String}
    {properties : List (String × Node)}
    (h : ∀ before entry after between, properties = before ++ entry :: after →
      (walk cx).passes document schema request stem before session between →
      ∃ budget, (property cx (map cx budget) document (parent cx document stem)
        (schema.isOptional entry.1) entry.1 entry.2
        (request.property stem entry.1)).Halts between) :
    ∃ budget, (gather cx (map cx budget) document schema request stem properties).Halts
      session := by
  let step := fun budget ↦
    addProperty cx (map cx budget) document (parent cx document stem) schema request
  refine @exists_halts_foldlM _ _ step (fun h ↦ addProperty_map_refines h) _ _ _ ?_
  intro before entry after heq budget soFar between hbefore
  obtain ⟨budget', hproperty⟩ := h before entry after between heq ⟨budget, soFar, hbefore⟩
  exact ⟨budget', halts_addProperty.2 hproperty⟩

section Answers

variable {node : Node} {schema : ObjectSchema} {label : String}
  (h : ∀ call', Asks cx.library (walk cx) ⟨document, node, request, session⟩ call' →
    ∃ budget, Answers cx budget call')

include h

theorem exists_halts_property (hkind : node.kind = .object schema)
    (hlabel : request.label node = .ok label) {stem : String} {between session' : Session}
    (hclaim : request.claim cx.library document .object label session = some (.ok stem, between))
    {before after : List (String × Node)} {entry : String × Node}
    (hmembers : schema.members = before ++ entry :: after)
    (hbefore : (walk cx).passes document schema request stem before between session') :
    ∃ budget, (property cx (map cx budget) document (parent cx document stem)
      (schema.isOptional entry.1) entry.1 entry.2
      (request.property stem entry.1)).Halts session' := by
  obtain ⟨name, title, description, kind⟩ := entry
  by_cases harray : ∃ items, kind = .array items
  · obtain ⟨items, rfl⟩ := harray
    refine exists_halts_ofExcept_bind fun item hitem ↦ ?_
    obtain ⟨budget, hanswers⟩ :=
      h _ (.propertyElement hkind hlabel hclaim hmembers hbefore rfl rfl hitem)
    exact ⟨budget, (halts_bind_total fun _ ↦ total_pure _).2 hanswers⟩
  · have hwhole : ∀ items, (Node.mk title description kind).kind ≠ .array items :=
      not_exists.1 harray
    obtain ⟨budget, hanswers⟩ :=
      h _ (.property hkind hlabel hclaim hmembers hbefore fun _ ↦ hwhole)
    exact ⟨budget, (halts_property hwhole).2 hanswers⟩

theorem exists_halts_object (hkind : node.kind = .object schema)
    (hlabel : request.label node = .ok label) :
    ∃ budget, (object cx (map cx budget) document schema label request).Halts session := by
  refine exists_halts_bind (total_claim _ _ _ _ _) fun stem between hclaim ↦ ?_
  have hgather := exists_halts_gather fun before entry after session' hmembers hbefore ↦
    exists_halts_property h hkind hlabel hclaim hmembers hbefore
  obtain ⟨budget, hgather⟩ := hgather
  refine ⟨budget, ?_⟩
  change Halts (gather cx (map cx budget) document schema request stem schema.members >>= _) between
  refine (halts_bind_total fun gathered ↦ ?_).2 hgather
  exact (total_ofExcept _).bind fun _ ↦ total_pure _

theorem exists_halts_dictionary {additional : Node} (hkind : node.kind = .object schema)
    (hlabel : request.label node = .ok label) (hplain : schema.hasProperties = false)
    (hadditional : schema.additional = some additional) :
    ∃ budget, (dictionary cx (map cx budget) document additional label request).Halts session := by
  refine exists_halts_bind (total_claim _ _ _ _ _) fun stem session' hclaim ↦ ?_
  obtain ⟨budget, hanswers⟩ := h _ (.value hkind hlabel hplain hadditional hclaim)
  refine ⟨budget, (halts_bind_total fun value ↦ ?_).2 hanswers⟩
  exact (total_ofExcept _).bind fun _ ↦ (total_ofExcept _).bind fun _ ↦ total_pure _

theorem exists_halts_objectLike (hkind : node.kind = .object schema)
    (hlabel : request.label node = .ok label) :
    ∃ budget, (objectLike cx (map cx budget) document schema label request).Halts session := by
  unfold objectLike
  cases hproperties : schema.hasProperties with
  | true => exact exists_halts_object h hkind hlabel
  | false =>
    cases hadditional : schema.additional with
    | some additional => exact exists_halts_dictionary h hkind hlabel hproperties hadditional
    | none =>
      refine ⟨0, ?_⟩
      dsimp only
      rw [if_neg Bool.false_ne_true]
      split
      · exact total_fail _ session
      · exact total_pure _ session

end Answers

/-- A call has a result if all have that it asks for. -/
theorem exists_answers (call : Call)
    (h : ∀ call', Asks cx.library (walk cx) call call' → ∃ budget, Answers cx budget call') :
    ∃ budget, Answers cx budget call := by
  obtain ⟨document, ⟨title, description, kind⟩, request, session⟩ := call
  suffices hstep : ∃ budget, (step cx (mergeAllOf cx.library budget) (map cx budget) document
      (.mk title description kind) request).Halts session by
    obtain ⟨budget, hbudget⟩ := hstep
    exact ⟨budget + 1, hbudget⟩
  cases kind with
  | reference reference =>
    refine exists_halts_ofExcept_bind fun target htarget ↦ ?_
    obtain ⟨budget, hfollowing⟩ := exists_halts_following fun hkey ↦ h _ (.target rfl htarget hkey)
    exact ⟨budget, (halts_bind_total fun _ ↦ total_pure _).2 hfollowing⟩
  | object schema =>
    exact exists_halts_ofExcept_bind fun label hlabel ↦ exists_halts_objectLike h rfl hlabel
  | array items =>
    refine exists_halts_ofExcept_bind fun label hlabel ↦ ?_
    refine exists_halts_ofExcept_bind fun item hitem ↦ ?_
    obtain ⟨budget, hanswers⟩ := h _ (.element rfl hlabel hitem)
    refine ⟨budget, (halts_bind_total fun value ↦ ?_).2 hanswers⟩
    exact (total_claim _ _ _ _ _).bind fun _ ↦ (total_ofExcept _).bind fun _ ↦
      (total_ofExcept _).bind fun _ ↦ total_pure _
  | allOf members =>
    refine exists_halts_ofExcept_bind fun label hlabel ↦ ?_
    exact exists_halts_mergeAllOf_bind rfl (fun hle merged ↦ map_refines cx hle _ _ _)
      fun budget merged session' hmerge ↦ h _ (.merged rfl hlabel hmerge)
  | constant value minimum =>
    refine ⟨0, halts_ofExcept_bind.2 fun label _ ↦ ?_⟩
    change (constant cx value minimum label request.path).Halts session
    unfold constant
    split
    · exact total_pure _ session
    · exact total_fail _ session
  | enumeration values =>
    refine ⟨0, halts_ofExcept_bind.2 fun label _ ↦ ?_⟩
    exact ((total_claim _ _ _ _ _).bind fun _ ↦ total_pure _) session
  | primitive type minimum =>
    exact ⟨0, halts_ofExcept_bind.2 fun label _ ↦ total_pure _ session⟩
  | _ => exact ⟨0, halts_ofExcept_bind.2 fun label _ ↦ total_fail _ session⟩

theorem exists_ends_iff {node : Node} :
    (∃ result session', Ends cx document node request session result session') ↔
      ∃ budget, Answers cx budget ⟨document, node, request, session⟩ := by
  constructor
  · rintro ⟨result, session', budget, hrun⟩
    exact ⟨budget, halts_iff.2 ⟨result, session', hrun⟩⟩
  · rintro ⟨budget, hanswers⟩
    obtain ⟨result, session', hrun⟩ := halts_iff.1 hanswers
    exact ⟨result, session', budget, hrun⟩

end Native

namespace Wire

variable {mapper : Mapper}

theorem halts_addMember {stem : String} {soFar : Gathered} {entry : String × Node} :
    (addMember mapper document stem request soFar entry).Halts session ↔
      (mapper document entry.2 (request.property stem entry.1)).Halts session := by
  refine (halts_bind_total fun mapped ↦ ?_).trans halts_attempt
  cases mapped with
  | ok value => exact (total_ofExcept _).bind fun _ ↦ total_pure _
  | error failure => exact total_ite_warn failure _

/-- How the wire mapper goes over the properties of an object. -/
def walk (cx : Context) : Walk where
  opensArrays := false
  passes document _ request stem properties session session' :=
    ∃ budget gathered, properties.foldlM (addMember (map cx budget) document stem request)
      ⟨{}, []⟩ session = some (.ok gathered, session')

theorem passes_nil (document : Document) (schema : ObjectSchema) (request : Request)
    (stem : String) (session : Session) :
    (walk cx).passes document schema request stem [] session session :=
  ⟨0, _, rfl⟩

theorem walk_keepsChain : (walk cx).KeepsChain := by
  rintro document schema request stem properties session session' ⟨budget, gathered, hrun⟩
  exact (Claims.foldlM (@addMember_claims_any cx _ _ budget _) _ _ _ _ _ hrun).1

/-- Whether a call has a result with this budget. -/
def Answers (cx : Context) (budget : Nat) (call : Call) : Prop :=
  (map cx budget call.document call.node call.request).Halts call.session

theorem addMember_map_refines {budget budget' : Nat} (h : budget ≤ budget') {stem : String}
    (soFar : Gathered) (entry : String × Node) :
    (addMember (map cx budget) document stem request soFar entry).Refines
      (addMember (map cx budget') document stem request soFar entry) :=
  addMember_related _ (relates_map cx h) rfl stem soFar entry

/-- A call that has a result asks only for results with a smaller budget. -/
theorem Answers.of_asks {budget : Nat} {call call' : Call} (h : Answers cx (budget + 1) call)
    (hasks : Asks cx.library (walk cx) call call') : Answers cx budget call' := by
  cases hasks with
  | @target document node request session reference target hkind htarget hkey =>
    obtain ⟨title, description, kind⟩ := node
    cases hkind
    have hfollowing := (halts_bind_total fun _ ↦ total_pure _).1 (halts_ofExcept_bind.1 h _ htarget)
    exact halts_following.1 hfollowing hkey
  | @element document node request session items label item hkind hlabel hitem =>
    obtain ⟨title, description, kind⟩ := node
    cases hkind
    have harray := halts_ofExcept_bind.1 h label hlabel
    exact (halts_bind.1 (halts_ofExcept_bind.1 harray item hitem)).1
  | @value document node request session session' schema label stem additional hkind hlabel hplain
      hadditional hclaim =>
    obtain ⟨title, description, kind⟩ := node
    cases hkind
    have hobject : (objectLike cx (map cx budget) document schema label request).Halts session :=
      halts_ofExcept_bind.1 h label hlabel
    unfold objectLike at hobject
    rw [if_neg (by simp [hplain]), hadditional] at hobject
    exact (halts_bind.1 (Request.halts_claim_bind.1 hobject stem session' hclaim)).1
  | @property document node child request session between session' schema label stem name before
      after hkind hlabel hclaim hmembers hbefore hwhole =>
    obtain ⟨title, description, kind⟩ := node
    cases hkind
    have hobject : (objectLike cx (map cx budget) document schema label request).Halts session :=
      halts_ofExcept_bind.1 h label hlabel
    unfold objectLike at hobject
    rw [if_pos (ObjectSchema.hasProperties_of_members hmembers)] at hobject
    have hgather := (halts_bind.1 (Request.halts_claim_bind.1 hobject stem between hclaim)).1
    rw [hmembers] at hgather
    obtain ⟨found, gathered, hrun⟩ := hbefore
    let step := fun budget ↦ addMember (map cx budget) document stem request
    have hadd := @Halts.of_foldlM _ _ step (fun h ↦ addMember_map_refines h) _ _ _ _ _ _ _ _ _
      hgather hrun
    exact halts_addMember.1 hadd
  | propertyElement hkind hlabel hclaim hmembers hbefore hopens => cases hopens
  | @merged document node merged request session session' members label found hkind hlabel hmerge =>
    obtain ⟨title, description, kind⟩ := node
    cases hkind
    exact halts_of_mergeAllOf_bind (halts_ofExcept_bind.1 h label hlabel) hmerge

theorem exists_halts_objectLike {node : Node} {schema : ObjectSchema} {label : String}
    (h : ∀ call', Asks cx.library (walk cx) ⟨document, node, request, session⟩ call' →
      ∃ budget, Answers cx budget call')
    (hkind : node.kind = .object schema) (hlabel : request.label node = .ok label) :
    ∃ budget, (objectLike cx (map cx budget) document schema label request).Halts session := by
  unfold objectLike
  cases hproperties : schema.hasProperties with
  | true =>
    refine exists_halts_bind (total_claim _ _ _ _ _) fun stem between hclaim ↦ ?_
    have hgather : ∃ budget, Halts (schema.members.foldlM
        (addMember (map cx budget) document stem request) ⟨{}, []⟩) between := by
      let step := fun budget ↦ addMember (map cx budget) document stem request
      refine @exists_halts_foldlM _ _ step (fun h ↦ addMember_map_refines h) _ _ _ ?_
      intro before entry after hmembers budget soFar session' hbefore
      obtain ⟨budget', hanswers⟩ := h _ (.property hkind hlabel hclaim hmembers
        ⟨budget, soFar, hbefore⟩ fun hopens ↦ nomatch hopens)
      exact ⟨budget', halts_addMember.2 hanswers⟩
    obtain ⟨budget, hgather⟩ := hgather
    refine ⟨budget, (halts_bind_total fun gathered ↦ ?_).2 hgather⟩
    exact (total_ofExcept _).bind fun _ ↦ total_pure _
  | false =>
    cases hadditional : schema.additional with
    | some additional =>
      refine exists_halts_bind (total_claim _ _ _ _ _) fun stem session' hclaim ↦ ?_
      obtain ⟨budget, hanswers⟩ := h _ (.value hkind hlabel hproperties hadditional hclaim)
      refine ⟨budget, (halts_bind_total fun value ↦ ?_).2 hanswers⟩
      exact (total_ofExcept _).bind fun _ ↦ total_pure _
    | none =>
      refine ⟨0, ?_⟩
      dsimp only
      rw [if_neg Bool.false_ne_true]
      split
      · exact total_fail _ session
      · exact total_pure _ session

/-- A call has a result if all have that it asks for. -/
theorem exists_answers (call : Call)
    (h : ∀ call', Asks cx.library (walk cx) call call' → ∃ budget, Answers cx budget call') :
    ∃ budget, Answers cx budget call := by
  obtain ⟨document, ⟨title, description, kind⟩, request, session⟩ := call
  suffices hstep : ∃ budget, (step cx (mergeAllOf cx.library budget) (map cx budget) document
      (.mk title description kind) request).Halts session by
    obtain ⟨budget, hbudget⟩ := hstep
    exact ⟨budget + 1, hbudget⟩
  cases kind with
  | reference reference =>
    refine exists_halts_ofExcept_bind fun target htarget ↦ ?_
    obtain ⟨budget, hfollowing⟩ := exists_halts_following fun hkey ↦ h _ (.target rfl htarget hkey)
    exact ⟨budget, (halts_bind_total fun _ ↦ total_pure _).2 hfollowing⟩
  | object schema =>
    exact exists_halts_ofExcept_bind fun label hlabel ↦ exists_halts_objectLike h rfl hlabel
  | array items =>
    refine exists_halts_ofExcept_bind fun label hlabel ↦ ?_
    refine exists_halts_ofExcept_bind fun item hitem ↦ ?_
    obtain ⟨budget, hanswers⟩ := h _ (.element rfl hlabel hitem)
    refine ⟨budget, (halts_bind_total fun value ↦ ?_).2 hanswers⟩
    exact (total_ofExcept _).bind fun _ ↦ total_pure _
  | allOf members =>
    refine exists_halts_ofExcept_bind fun label hlabel ↦ ?_
    exact exists_halts_mergeAllOf_bind rfl (fun hle merged ↦ map_refines cx hle _ _ _)
      fun budget merged session' hmerge ↦ h _ (.merged rfl hlabel hmerge)
  | constant value minimum =>
    refine ⟨0, halts_ofExcept_bind.2 fun label _ ↦ ?_⟩
    change (constant cx value minimum request.path).Halts session
    unfold constant
    split
    · exact total_pure _ session
    · exact total_fail _ session
  | enumeration values =>
    refine ⟨0, halts_ofExcept_bind.2 fun label _ ↦ ?_⟩
    exact ((total_claim _ _ _ _ _).bind fun _ ↦ total_pure _) session
  | primitive type minimum =>
    exact ⟨0, halts_ofExcept_bind.2 fun label _ ↦ total_pure _ session⟩
  | _ => exact ⟨0, halts_ofExcept_bind.2 fun label _ ↦ total_fail _ session⟩

theorem exists_ends_iff {node : Node} :
    (∃ result session', Ends cx document node request session result session') ↔
      ∃ budget, Answers cx budget ⟨document, node, request, session⟩ := by
  constructor
  · rintro ⟨result, session', budget, hrun⟩
    exact ⟨budget, halts_iff.2 ⟨result, session', hrun⟩⟩
  · rintro ⟨budget, hanswers⟩
    obtain ⟨result, session', hrun⟩ := halts_iff.1 hanswers
    exact ⟨result, session', budget, hrun⟩

end Wire

end Mappers

/-- The mapping of a schema to its native type, and to its wire type, has a result unless there is
an endless nest of calls. -/
theorem map_ends_iff (cx : Context) (document : Document) (node : Node) (request : Request)
    (session : Session) :
    ((∃ result session', Native.Ends cx document node request session result session') ↔
      ¬∃ run, Endless (Asks cx.library (Native.walk cx)) ⟨document, node, request, session⟩ run) ∧
    ((∃ result session', Wire.Ends cx document node request session result session') ↔
      ¬∃ run, Endless (Asks cx.library (Wire.walk cx)) ⟨document, node, request, session⟩ run) := by
  have hnative := @exists_iff_not_endless _ _ Native.walk_keepsChain (Native.Answers cx)
    (fun _ h ↦ nomatch h) Native.Answers.of_asks Native.exists_answers
  have hwire := @exists_iff_not_endless _ _ Wire.walk_keepsChain (Wire.Answers cx)
    (fun _ h ↦ nomatch h) Wire.Answers.of_asks Wire.exists_answers
  exact ⟨Native.exists_ends_iff.trans (hnative _), Wire.exists_ends_iff.trans (hwire _)⟩

namespace SelfHolding

/-- A composition of what holds this composition. -/
def composition : Node := .ofKind (.allOf [.ofKind (.reference "#/definitions/X")])

def whole : ObjectSchema := .mk (some [("p", composition)]) none none false

def holder : Document where
  uri := "A"
  title := "A"
  family := .schema
  definitionsRoot := "#/definitions"
  definitions := [("X", .ofKind (.object whole))]
  methods := []
  content := .object [("$id", .string "A"), ("title", .string "A"), ("definitions", .object [
    ("X", .object [("type", .string "object"), ("properties", .object [
      ("p", .object [("allOf", .array [.object [("$ref", .string "#/definitions/X")]])])])])])]

def cx : Context := ⟨⟨[holder]⟩, {}⟩

def target : Target :=
  ⟨holder, .ofKind (.object whole), "X", false, "A#/definitions/X", "A#/definitions/X"⟩

theorem resolve_target (path : String) :
    cx.library.resolve holder "#/definitions/X" path = .ok target := by
  have hroot : cx.library.resolve holder "#/definitions/X" "" = .ok target := by cbv
  exact Library.resolve_place hroot path

theorem collect_member (path : String) {session : Session} (hchain : session.chain = []) :
    Flatten.collect cx.library 2 holder path (.ofKind (.reference "#/definitions/X")) session =
      some (.ok [.object whole], session) := by
  obtain ⟨chain, registry, warnings⟩ := session
  cases hchain
  change (Mapping.ofExcept _ >>= _) _ = _
  rw [run_ofExcept_bind, resolve_target]
  dsimp only
  rw [run_following, if_neg List.not_mem_nil]
  rfl

theorem mergeAllOf_members (outer : Node) (path : String) {session : Session}
    (hchain : session.chain = []) :
    mergeAllOf cx.library 2 holder outer [.ofKind (.reference "#/definitions/X")] path session =
      some (.ok (.mk outer.title outer.description (.object whole)), session) := by
  have hmembers : Flatten.members (Flatten.collect cx.library 2) holder
      (Pointer.child path "allOf") 0 [.ofKind (.reference "#/definitions/X")] session =
      some (.ok [.object whole], session) := by
    unfold Flatten.members
    rw [run_bind_ok (collect_member _ hchain)]
    rfl
  unfold mergeAllOf
  rw [run_bind_ok hmembers]
  rfl

/-- The composition is come to again, as a property of what it merges into. -/
theorem asks_again {walk : Walk} (hnil : ∀ document schema request stem session,
      walk.passes document schema request stem [] session session)
    {request : Request} {session : Session} (hname : request.name ≠ "")
    (hchain : session.chain = []) :
    ∃ between request' session',
      Asks cx.library walk ⟨holder, composition, request, session⟩ between ∧
      Asks cx.library walk between ⟨holder, composition, request', session'⟩ ∧
      request'.name ≠ "" ∧ session'.chain = [] := by
  have hlabel : ∀ node, request.label node = .ok request.name := fun _ ↦ if_pos hname
  have hmerged : Asks cx.library walk ⟨holder, composition, request, session⟩
      ⟨holder, .mk (some request.name) none (.object whole), request, session⟩ :=
    .merged rfl (hlabel _) (mergeAllOf_members composition request.path hchain)
  obtain ⟨stem, session', hclaim, hchain'⟩ : ∃ stem session',
      request.claim cx.library holder .object request.name session = some (.ok stem, session') ∧
        session'.chain = session.chain :=
    ⟨_, _, run_claim _ _ _ _ _ _, rfl⟩
  have hproperty : Asks cx.library walk
      ⟨holder, .mk (some request.name) none (.object whole), request, session⟩
      ⟨holder, composition, request.property stem "p", session'⟩ :=
    .property rfl (hlabel _) hclaim rfl (hnil _ _ _ _ _) fun _ _ heq ↦ nomatch heq
  have hname' : "p" ≠ "" := by decide
  exact ⟨_, _, _, hmerged, hproperty, hname', hchain'.trans hchain⟩

theorem never_ends {walk : Walk} (hnil : ∀ document schema request stem session,
      walk.passes document schema request stem [] session session)
    {ends : Nat → Call → Prop} (hzero : ∀ call, ¬ends 0 call)
    (hasks : ∀ {budget call call'}, ends (budget + 1) call → Asks cx.library walk call call' →
      ends budget call') (budget : Nat) {request : Request} {session : Session}
    (hname : request.name ≠ "") (hchain : session.chain = []) :
    ¬ends budget ⟨holder, composition, request, session⟩ := by
  obtain ⟨between, request', session', hfirst, hsecond, hname', hchain'⟩ :=
    asks_again hnil hname hchain
  match budget with
  | 0 => exact hzero _
  | 1 => exact fun h ↦ hzero _ (hasks h hfirst)
  | budget + 2 =>
    exact fun h ↦ never_ends hnil hzero hasks budget hname' hchain' (hasks (hasks h hfirst) hsecond)

/-- Mapping the composition for the first time, with no reference being followed, has no result on
either side. -/
theorem composition_never_ends :
    (¬∃ result session', Native.Ends cx holder composition ⟨"y", "", "A#/y"⟩ {} result session') ∧
    ¬∃ result session', Wire.Ends cx holder composition ⟨"y", "", "A#/y"⟩ {} result session' := by
  constructor
  · rw [Native.exists_ends_iff]
    rintro ⟨budget, hanswers⟩
    exact never_ends Native.passes_nil (fun _ h ↦ nomatch h) Native.Answers.of_asks
      budget (by decide) rfl hanswers
  · rw [Wire.exists_ends_iff]
    rintro ⟨budget, hanswers⟩
    exact never_ends Wire.passes_nil (fun _ h ↦ nomatch h) Wire.Answers.of_asks
      budget (by decide) rfl hanswers

end SelfHolding

end SchemaBindings
