import SchemaBindings.Proofs.Endless
import SchemaBindings.Proofs.Handles
import SchemaBindings.Proofs.Replay

/-!
# Where cycles are found

A mapping ends in a cycle only if some reference on the way leads to a schema that is being mapped
already. Which call finds the cycle is told by the nest of calls: a reference whose key is on the
chain, or a composition whose members lead into a cycle. All other failures have nothing to do
with the chain.
-/

namespace SchemaBindings

namespace Mapping

variable {α β : Type} {cycle : List String → String → Prop} {session : Session}

/-- If the mapping ends in a cycle in this session, then in one of these. -/
def Cycles (cycle : List String → String → Prop) (mapping : Mapping α) (session : Session) :
    Prop :=
  ∀ keys place session',
    mapping session = some (.error (.cyclicReference keys place), session') → cycle keys place

/-- The mapping never ends in a cycle. -/
def Acyclic (mapping : Mapping α) : Prop := ∀ cycle session, mapping.Cycles cycle session

theorem acyclic_ofExcept {result : Except Failure α}
    (h : ∀ failure, result = .error failure → failure.isCyclic = false) :
    Acyclic (ofExcept result) := by
  intro cycle session keys place session' hrun
  rw [run_ofExcept] at hrun
  obtain ⟨hresult, -⟩ := Prod.mk.inj (Option.some.inj hrun)
  cases h _ hresult

theorem acyclic_pure (value : α) : Acyclic (pure value) :=
  @acyclic_ofExcept _ (.ok value) nofun

theorem acyclic_fail {failure : Failure} (h : failure.isCyclic = false) :
    Acyclic (fail failure : Mapping α) :=
  @acyclic_ofExcept _ (.error failure) fun _ heq ↦ Except.error.inj heq ▸ h

theorem acyclic_claim (library : Library) (document : Document) (path : String)
    (kind : SymbolKind) (stem : String) : Acyclic (claim library document path kind stem) := by
  intro cycle session keys place session' hrun
  rw [run_claim] at hrun
  cases hrun

theorem acyclic_warn : Acyclic warn := by
  intro cycle session keys place session' hrun
  cases hrun

theorem Cycles.bind {mapping : Mapping α} {next : α → Mapping β}
    (h : mapping.Cycles cycle session)
    (hnext : ∀ value between, mapping session = some (.ok value, between) →
      (next value).Cycles cycle between) : Cycles cycle (mapping >>= next) session := by
  intro keys place session' hrun
  obtain ⟨value, between, hfirst, hsecond⟩ | ⟨failure, hfirst, hvalue⟩ := bind_eq_some.1 hrun
  · exact hnext value between hfirst keys place session' hsecond
  · cases hvalue
    exact h keys place session' hfirst

theorem Acyclic.bind {mapping : Mapping α} {next : α → Mapping β} (h : mapping.Acyclic)
    (hnext : ∀ value, (next value).Acyclic) : Acyclic (mapping >>= next) :=
  fun cycle session ↦ (h cycle session).bind fun value between _ ↦ hnext value cycle between

/-- What comes after the mapping finds no cycles. -/
theorem Cycles.bind_acyclic {mapping : Mapping α} {next : α → Mapping β}
    (h : mapping.Cycles cycle session) (hnext : ∀ value, (next value).Acyclic) :
    Cycles cycle (mapping >>= next) session :=
  h.bind fun value between _ ↦ hnext value cycle between

theorem cycles_ofExcept_bind {result : Except Failure α} {next : α → Mapping β}
    (hfails : ∀ failure, result = .error failure → failure.isCyclic = false)
    (h : ∀ value, result = .ok value → (next value).Cycles cycle session) :
    Cycles cycle (ofExcept result >>= next) session :=
  (acyclic_ofExcept hfails cycle session).bind fun value between hrun ↦ by
    obtain ⟨hvalue, rfl⟩ := ofExcept_eq_ok.1 hrun
    exact h value hvalue

theorem cycles_following {key path : String} {body : Mapping α}
    (hclosed : key ∈ session.chain → cycle (key :: session.chain).reverse path)
    (hbody : key ∉ session.chain → body.Cycles cycle (session.push key)) :
    Cycles cycle (following key path body) session := by
  intro keys place session' hrun
  by_cases hkey : key ∈ session.chain
  · rw [run_following, if_pos hkey] at hrun
    cases hrun
    exact hclosed hkey
  · obtain ⟨after, hrun, -⟩ := following_eq_some hkey hrun
    exact hbody hkey keys place after hrun

/-- Failures that may be left out are no cycles, and cycles are passed on. -/
theorem Cycles.attempt_bind {mapping : Mapping α} {next : Except Failure α → Mapping β}
    (h : mapping.Cycles cycle session) (hok : ∀ value, (next (.ok value)).Acyclic)
    (herror : ∀ failure, next (.error failure) = fail failure ∨ (next (.error failure)).Acyclic) :
    Cycles cycle (attempt mapping >>= next) session := by
  intro keys place session' hrun
  rw [run_bind, run_attempt] at hrun
  cases hinner : mapping session with
  | none =>
    rw [hinner] at hrun
    cases hrun
  | some run =>
    obtain ⟨result, between⟩ := run
    rw [hinner] at hrun
    change next result between = _ at hrun
    cases result with
    | ok value => exact hok value cycle between keys place session' hrun
    | error failure =>
      obtain hfail | hacyclic := herror failure
      · rw [hfail] at hrun
        cases hrun
        exact h keys place _ hinner
      · exact hacyclic cycle between keys place session' hrun

/-- The failure of a list is the failure of an element, after all elements before it. -/
theorem cycles_foldlM {step : β → α → Mapping β} {xs : List α} {start : β}
    (h : ∀ before x after, xs = before ++ x :: after → ∀ soFar between,
      before.foldlM step start session = some (.ok soFar, between) →
        (step soFar x).Cycles cycle between) :
    Cycles cycle (xs.foldlM step start) session := by
  induction xs generalizing start session with
  | nil => exact acyclic_pure start cycle session
  | cons x rest ih =>
    rw [List.foldlM_cons]
    refine (h [] x rest rfl start session rfl).bind fun soFar between hrun ↦ ih ?_
    intro before y after heq soFar' between' hbefore
    refine h (x :: before) y after (by rw [heq]; rfl) soFar' between' ?_
    rw [List.foldlM_cons, run_bind_ok hrun]
    exact hbefore

end Mapping

open Mapping

/-- The call finds this cycle itself: its schema is a reference to one that is being mapped, or a
composition with members that lead into the cycle. -/
inductive Call.Closes (library : Library) : Call → List String → String → Prop
  | reference {document : Document} {node : Node} {request : Request} {session : Session}
      {reference : String} {target : Target} (hkind : node.kind = .reference reference)
      (htarget : library.resolve document reference request.path = .ok target)
      (hkey : target.key ∈ session.chain) :
      Closes library ⟨document, node, request, session⟩ (target.key :: session.chain).reverse
        request.path
  | composition {document : Document} {node : Node} {request : Request}
      {session session' : Session} {members : List Node} {budget : Nat} {keys : List String}
      {place : String} (hkind : node.kind = .allOf members)
      (hmerge : mergeAllOf library budget document node members request.path session =
        some (.error (.cyclicReference keys place), session')) :
      Closes library ⟨document, node, request, session⟩ keys place

theorem Request.acyclic_claim (library : Library) (document : Document) (request : Request)
    (kind : SymbolKind) (label : String) : (request.claim library document kind label).Acyclic :=
  Mapping.acyclic_claim _ _ _ _ _

theorem Failure.isCyclic_of_isCollision {failure : Failure} (h : failure.isCollision) :
    failure.isCyclic = false := by
  cases failure <;> cases h
  rfl

variable {cx : Context} {document : Document} {node : Node} {request : Request}
  {session : Session} {cycle : List String → String → Prop} {budget : Nat}

namespace Native

theorem acyclic_absorb (output : Output) (type : NativeType) (path : String) :
    Acyclic (Mapping.ofExcept (NativeType.absorb output type path)) :=
  acyclic_ofExcept fun _ h ↦ Failure.isCyclic_of_isCollision
    ((Output.merge_collides output type.output path).toExcept h)

theorem acyclic_addHandle (output : Output) (handle : String) (groups : List Code.AccessorGroup)
    (path : String) : Acyclic (Mapping.ofExcept (addHandle output handle groups path)) :=
  acyclic_ofExcept fun _ h ↦ Failure.isCyclic_of_isCollision (addHandle_collides h)

theorem cycles_property {mapper : Mapper} {parent : Parent} {isOptional : Bool} {name : String}
    (hwhole : (∀ items, node.kind ≠ .array items) →
      (mapper document node request).Cycles cycle session)
    (hitem : ∀ items item, node.kind = .array items → items.element request.path = .ok item →
      (mapper document item (request.element item name)).Cycles cycle session) :
    (property cx mapper document parent isOptional name node request).Cycles cycle session := by
  obtain ⟨title, description, kind⟩ := node
  cases kind with
  | array items =>
    refine cycles_ofExcept_bind (fun _ h ↦ (Items.element_fails h).2) fun item hfound ↦ ?_
    exact (hitem items item rfl hfound).bind_acyclic fun _ ↦ acyclic_pure _
  | _ => exact (hwhole nofun).bind_acyclic fun _ ↦ acyclic_pure _

theorem cycles_addProperty {mapper : Mapper} {parent : Parent} {schema : ObjectSchema}
    {soFar : Gathered} {entry : String × Node}
    (h : (property cx mapper document parent (schema.isOptional entry.1) entry.1 entry.2
      (request.property parent.stem entry.1)).Cycles cycle session) :
    (addProperty cx mapper document parent schema request soFar entry).Cycles cycle session := by
  refine h.attempt_bind (fun found ↦ (acyclic_absorb _ _ _).bind fun _ ↦ acyclic_pure _)
    fun failure ↦ ?_
  dsimp only
  split
  · exact .inr (acyclic_warn.bind fun _ ↦ acyclic_pure _)
  · exact .inl rfl

section

variable (h : ∀ call', Asks cx.library (walk cx) ⟨document, node, request, session⟩ call' →
  (map cx budget call'.document call'.node call'.request).Cycles cycle call'.session)
include h

theorem cycles_object {schema : ObjectSchema} {label : String} (hkind : node.kind = .object schema)
    (hlabel : request.label node = .ok label) :
    (object cx (map cx budget) document schema label request).Cycles cycle session := by
  refine (Request.acyclic_claim _ _ _ _ _ cycle session).bind fun stem between hclaim ↦ ?_
  have hgather : (gather cx (map cx budget) document schema request stem schema.members).Cycles
      cycle between := by
    refine cycles_foldlM fun before entry after hmembers soFar between' hbefore ↦ ?_
    obtain ⟨name, child⟩ := entry
    have hpasses : (walk cx).passes document schema request stem before between between' :=
      ⟨budget, soFar, hbefore⟩
    refine cycles_addProperty (cycles_property (fun hwhole ↦ ?_) fun items item hitems hitem ↦ ?_)
    · exact h _ (.property hkind hlabel hclaim hmembers hpasses fun _ ↦ hwhole)
    · exact h _ (.propertyElement hkind hlabel hclaim hmembers hpasses rfl hitems hitem)
  change Cycles cycle
    (gather cx (map cx budget) document schema request stem schema.members >>= _) between
  exact hgather.bind_acyclic fun _ ↦ (acyclic_addHandle _ _ _ _).bind fun _ ↦ acyclic_pure _

theorem cycles_objectLike {schema : ObjectSchema} {label : String}
    (hkind : node.kind = .object schema) (hlabel : request.label node = .ok label) :
    (objectLike cx (map cx budget) document schema label request).Cycles cycle session := by
  unfold objectLike
  cases hproperties : schema.hasProperties with
  | true => exact cycles_object h hkind hlabel
  | false =>
    cases hadditional : schema.additional with
    | some additional =>
      refine (Request.acyclic_claim _ _ _ _ _ cycle session).bind fun stem between hclaim ↦ ?_
      refine (h _ (.value hkind hlabel hproperties hadditional hclaim)).bind_acyclic fun _ ↦ ?_
      exact (acyclic_absorb _ _ _).bind fun _ ↦ (acyclic_addHandle _ _ _ _).bind fun _ ↦
        acyclic_pure _
    | none =>
      dsimp only
      rw [if_neg Bool.false_ne_true]
      split
      · exact acyclic_fail rfl cycle session
      · exact acyclic_pure _ cycle session

/-- A call ends in the cycles that it finds itself and in those of the calls that it makes. -/
theorem cycles_of_asks
    (hcloses : ∀ {keys place},
      Call.Closes cx.library ⟨document, node, request, session⟩ keys place → cycle keys place) :
    (map cx (budget + 1) document node request).Cycles cycle session := by
  obtain ⟨title, description, kind⟩ := node
  have hlabels : ∀ {title description kind failure},
      request.label (.mk title description kind) = .error failure → failure.isCyclic = false :=
    fun hlabel ↦ (Request.label_fails hlabel).2
  cases kind with
  | reference reference =>
    refine cycles_ofExcept_bind
      (fun failure hfails ↦ (cx.library.resolve_faults _ _ _ failure hfails).2)
      fun target htarget ↦ ?_
    refine (cycles_following (fun hkey ↦ ?_) fun hkey ↦ ?_).bind_acyclic fun _ ↦ acyclic_pure _
    · exact hcloses (.reference rfl htarget hkey)
    · exact h _ (.target rfl htarget hkey)
  | object schema =>
    exact cycles_ofExcept_bind (fun _ ↦ hlabels) fun label hlabel ↦ cycles_objectLike h rfl hlabel
  | array items =>
    refine cycles_ofExcept_bind (fun _ ↦ hlabels) fun label hlabel ↦ ?_
    refine cycles_ofExcept_bind (fun _ hfails ↦ (Items.element_fails hfails).2) fun item hitem ↦ ?_
    refine (h _ (.element rfl hlabel hitem)).bind_acyclic fun _ ↦ ?_
    exact (Request.acyclic_claim _ _ _ _ _).bind fun _ ↦ (acyclic_absorb _ _ _).bind fun _ ↦
      (acyclic_addHandle _ _ _ _).bind fun _ ↦ acyclic_pure _
  | allOf members =>
    refine cycles_ofExcept_bind (fun _ ↦ hlabels) fun label hlabel ↦ ?_
    refine Cycles.bind (fun keys place session' hmerge ↦ ?_) fun merged between hmerge ↦ ?_
    · exact hcloses (.composition rfl hmerge)
    · exact h _ (.merged rfl hlabel hmerge)
  | constant value minimum =>
    refine cycles_ofExcept_bind (fun _ ↦ hlabels) fun label _ ↦ ?_
    change (constant cx value minimum label request.path).Cycles cycle session
    unfold constant
    split
    · exact acyclic_pure _ cycle session
    · exact acyclic_fail rfl cycle session
  | enumeration values =>
    refine cycles_ofExcept_bind (fun _ ↦ hlabels) fun label _ ↦ ?_
    exact ((Request.acyclic_claim _ _ _ _ _).bind fun _ ↦ acyclic_pure _) cycle session
  | primitive type minimum =>
    exact cycles_ofExcept_bind (fun _ ↦ hlabels) fun label _ ↦ acyclic_pure _ cycle session
  | _ => exact cycles_ofExcept_bind (fun _ ↦ hlabels) fun label _ ↦ acyclic_fail rfl cycle session

end

/-- A cycle is found by the last of a nest of calls. -/
theorem map_cycles (budget : Nat) (document : Document) (node : Node) (request : Request)
    (session : Session) :
    (map cx budget document node request).Cycles (fun keys place ↦ ∃ last,
      Relation.ReflTransGen (Asks cx.library (walk cx)) ⟨document, node, request, session⟩ last ∧
        last.Closes cx.library keys place) session := by
  induction budget generalizing document node request session with
  | zero => exact fun _ _ _ hrun ↦ nomatch hrun
  | succ budget ih =>
    refine cycles_of_asks (fun call' hasks keys place session' hrun ↦ ?_) fun hcloses ↦ ?_
    · obtain ⟨last, hnest, hcloses⟩ := ih _ _ _ _ keys place session' hrun
      exact ⟨last, .head hasks hnest, hcloses⟩
    · exact ⟨_, .refl, hcloses⟩

end Native

namespace Wire

theorem acyclic_absorb (output : Output) (type : WireType) (path : String) :
    Acyclic (Mapping.ofExcept (WireType.absorb output type path)) :=
  acyclic_ofExcept fun _ h ↦ Failure.isCyclic_of_isCollision
    ((Output.merge_collides output type.output path).toExcept h)

theorem cycles_addMember {mapper : Mapper} {stem : String} {soFar : Gathered}
    {entry : String × Node}
    (h : (mapper document entry.2 (request.property stem entry.1)).Cycles cycle session) :
    (addMember mapper document stem request soFar entry).Cycles cycle session := by
  refine h.attempt_bind (fun found ↦ (acyclic_absorb _ _ _).bind fun _ ↦ acyclic_pure _)
    fun failure ↦ ?_
  dsimp only
  split
  · exact .inr (acyclic_warn.bind fun _ ↦ acyclic_pure _)
  · exact .inl rfl

section

variable (h : ∀ call', Asks cx.library (walk cx) ⟨document, node, request, session⟩ call' →
  (map cx budget call'.document call'.node call'.request).Cycles cycle call'.session)
include h

theorem cycles_objectLike {schema : ObjectSchema} {label : String}
    (hkind : node.kind = .object schema) (hlabel : request.label node = .ok label) :
    (objectLike cx (map cx budget) document schema label request).Cycles cycle session := by
  unfold objectLike
  cases hproperties : schema.hasProperties with
  | true =>
    refine (Request.acyclic_claim _ _ _ _ _ cycle session).bind fun stem between hclaim ↦ ?_
    have hgather : Cycles cycle (schema.members.foldlM
        (addMember (map cx budget) document stem request) ⟨{}, []⟩) between := by
      refine cycles_foldlM fun before entry after hmembers soFar between' hbefore ↦ ?_
      exact cycles_addMember (h _ (.property hkind hlabel hclaim hmembers ⟨budget, soFar, hbefore⟩
        fun hopens ↦ nomatch hopens))
    refine hgather.bind_acyclic fun gathered ↦ (acyclic_ofExcept fun _ hfails ↦ ?_).bind fun _ ↦
      acyclic_pure _
    exact Failure.isCyclic_of_isCollision ((Output.insert_collides _ _ _ _ _).toExcept hfails)
  | false =>
    cases hadditional : schema.additional with
    | some additional =>
      refine (Request.acyclic_claim _ _ _ _ _ cycle session).bind fun stem between hclaim ↦ ?_
      refine (h _ (.value hkind hlabel hproperties hadditional hclaim)).bind_acyclic fun _ ↦ ?_
      exact (acyclic_absorb _ _ _).bind fun _ ↦ acyclic_pure _
    | none =>
      dsimp only
      rw [if_neg Bool.false_ne_true]
      split
      · exact acyclic_fail rfl cycle session
      · exact acyclic_pure _ cycle session

/-- A call ends in the cycles that it finds itself and in those of the calls that it makes. -/
theorem cycles_of_asks
    (hcloses : ∀ {keys place},
      Call.Closes cx.library ⟨document, node, request, session⟩ keys place → cycle keys place) :
    (map cx (budget + 1) document node request).Cycles cycle session := by
  obtain ⟨title, description, kind⟩ := node
  have hlabels : ∀ {title description kind failure},
      request.label (.mk title description kind) = .error failure → failure.isCyclic = false :=
    fun hlabel ↦ (Request.label_fails hlabel).2
  cases kind with
  | reference reference =>
    refine cycles_ofExcept_bind
      (fun failure hfails ↦ (cx.library.resolve_faults _ _ _ failure hfails).2)
      fun target htarget ↦ ?_
    refine (cycles_following (fun hkey ↦ ?_) fun hkey ↦ ?_).bind_acyclic fun _ ↦ acyclic_pure _
    · exact hcloses (.reference rfl htarget hkey)
    · exact h _ (.target rfl htarget hkey)
  | object schema =>
    exact cycles_ofExcept_bind (fun _ ↦ hlabels) fun label hlabel ↦ cycles_objectLike h rfl hlabel
  | array items =>
    refine cycles_ofExcept_bind (fun _ ↦ hlabels) fun label hlabel ↦ ?_
    refine cycles_ofExcept_bind (fun _ hfails ↦ (Items.element_fails hfails).2) fun item hitem ↦ ?_
    refine (h _ (.element rfl hlabel hitem)).bind_acyclic fun _ ↦ ?_
    exact (acyclic_absorb _ _ _).bind fun _ ↦ acyclic_pure _
  | allOf members =>
    refine cycles_ofExcept_bind (fun _ ↦ hlabels) fun label hlabel ↦ ?_
    refine Cycles.bind (fun keys place session' hmerge ↦ ?_) fun merged between hmerge ↦ ?_
    · exact hcloses (.composition rfl hmerge)
    · exact h _ (.merged rfl hlabel hmerge)
  | constant value minimum =>
    refine cycles_ofExcept_bind (fun _ ↦ hlabels) fun label _ ↦ ?_
    change (constant cx value minimum request.path).Cycles cycle session
    unfold constant
    split
    · exact acyclic_pure _ cycle session
    · exact acyclic_fail rfl cycle session
  | enumeration values =>
    refine cycles_ofExcept_bind (fun _ ↦ hlabels) fun label _ ↦ ?_
    exact ((Request.acyclic_claim _ _ _ _ _).bind fun _ ↦ acyclic_pure _) cycle session
  | primitive type minimum =>
    exact cycles_ofExcept_bind (fun _ ↦ hlabels) fun label _ ↦ acyclic_pure _ cycle session
  | _ => exact cycles_ofExcept_bind (fun _ ↦ hlabels) fun label _ ↦ acyclic_fail rfl cycle session

end

/-- A cycle is found by the last of a nest of calls. -/
theorem map_cycles (budget : Nat) (document : Document) (node : Node) (request : Request)
    (session : Session) :
    (map cx budget document node request).Cycles (fun keys place ↦ ∃ last,
      Relation.ReflTransGen (Asks cx.library (walk cx)) ⟨document, node, request, session⟩ last ∧
        last.Closes cx.library keys place) session := by
  induction budget generalizing document node request session with
  | zero => exact fun _ _ _ hrun ↦ nomatch hrun
  | succ budget ih =>
    refine cycles_of_asks (fun call' hasks keys place session' hrun ↦ ?_) fun hcloses ↦ ?_
    · obtain ⟨last, hnest, hcloses⟩ := ih _ _ _ _ keys place session' hrun
      exact ⟨last, .head hasks hnest, hcloses⟩
    · exact ⟨_, .refl, hcloses⟩

end Wire

end SchemaBindings
