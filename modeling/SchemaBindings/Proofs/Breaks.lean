import SchemaBindings.Proofs.Endless
import SchemaBindings.Proofs.Firm
import SchemaBindings.Proofs.Signs
import SchemaBindings.Proofs.Tuples

/-!
# Calls that break off

A failure that may not be left out ends the call that makes the failing call, and so all calls
around it. Two calls for one schema at one place go on with the same calls, whatever they are named
after, unless the second one breaks off before. A schema therefore cannot be mapped again below a
reference that its own mapping follows: this reference would close a cycle.
-/

namespace SchemaBindings

open Mapping

/-- References that are being followed are so in all nested calls as well. -/
theorem Asks.chain_subset {library : Library} {walk : Walk} {call call' : Call}
    (hwalk : walk.KeepsChain) (h : Asks library walk call call') :
    call.session.chain ⊆ call'.session.chain := by
  obtain ⟨_, target, -, -, -, rfl⟩ | ⟨hreference, -⟩ := h.leads
  · exact List.subset_cons_self target.key call.session.chain
  · rw [h.chain_eq hwalk hreference]
    exact List.Subset.refl _

/-- What a composition merges into has one kind, wherever and under whatever title it is merged. -/
theorem kind_eq_of_mergeAllOf {library : Library} {budget budget' : Nat} {document : Document}
    {outer outer' merged merged' : Node} {members : List Node} {path : String}
    {session session' after after' : Session}
    (h : mergeAllOf library budget document outer members path session =
      some (.ok merged, after))
    (h' : mergeAllOf library budget' document outer' members path session' =
      some (.ok merged', after')) : merged'.kind = merged.kind := by
  have hstart : mergeAllOf library budget document outer members path {} = some (.ok merged, {}) :=
    (mergeAllOf_static _ _ _ _ _ _).run_of_chain_subset h (List.nil_subset _)
  have hstart' : mergeAllOf library budget' document outer' members path {} =
      some (.ok merged', {}) :=
    (mergeAllOf_static _ _ _ _ _ _).run_of_chain_subset h' (List.nil_subset _)
  obtain ⟨kinds, kind, hflat, hkind, rfl⟩ := mergeAllOf_eq_ok.1 hstart
  obtain ⟨kinds', kind', hflat', hkind', rfl⟩ := mergeAllOf_eq_ok.1 hstart'
  cases run_unique (fun hle ↦ Flatten.members_refines library hle
    document (Pointer.child path "allOf") 0 members) hflat hflat'
  cases hkind.symm.trans hkind'
  rfl

/-- The scope and the place of a request have no part in the name of the type. -/
theorem Request.label_of_name_eq {request request' : Request} {node : Node} {label : String}
    (h : request.label node = .ok label) (hname : request'.name = request.name) :
    request'.label node = .ok label := by
  unfold Request.label at h ⊢
  rw [hname]
  split at h
  · rwa [if_pos ‹_›]
  · rw [if_neg ‹_›]
    cases htitle : node.givenTitle? with
    | none =>
      rw [htitle] at h
      cases h
    | some title =>
      rw [htitle] at h
      exact h

/-- Another call for a schema of the same kind at the same place. It has some name for the schema
if the first one has. -/
structure Call.Mirrors (call twin : Call) : Prop where
  document_eq : twin.document = call.document
  kind_eq : twin.node.kind = call.node.kind
  path_eq : twin.request.path = call.request.path
  named : ∀ label, call.request.label call.node = .ok label →
    ∃ label', twin.request.label twin.node = .ok label'

namespace Native

variable {cx : Context} {document : Document} {node : Node} {request : Request}
  {session between session' : Session} {budget : Nat} {label : String} {failure : Failure}

/-! ## Runs that fail -/

section Run

variable {schema : ObjectSchema} {stem : String}

theorem reference_eq_error {mapper : Mapper} {reference : String} {target : Target}
    (htarget : cx.library.resolve document reference request.path = .ok target)
    (h : following target.key request.path
      (mapper target.owner target.node (.ofTarget target)) session =
        some (.error failure, session')) :
    Native.reference cx mapper document reference request session =
      some (.error failure, session') := by
  unfold Native.reference
  rw [run_ofExcept_bind, htarget]
  exact run_bind_error h _

theorem array_eq_error {mapper : Mapper} {items : Items} {item : Node}
    (hitem : items.element request.path = .ok item)
    (h : mapper document item (request.element item label) session =
      some (.error failure, session')) :
    array cx mapper document items label request session = some (.error failure, session') := by
  unfold array
  rw [run_ofExcept_bind, hitem]
  exact run_bind_error h _

theorem dictionary_eq_error {mapper : Mapper} {additional : Node}
    (hclaim : request.claim cx.library document .map label session = some (.ok stem, between))
    (h : mapper document additional (request.mapValue stem) between =
      some (.error failure, session')) :
    dictionary cx mapper document additional label request session =
      some (.error failure, session') :=
  (run_bind_ok hclaim _).trans (run_bind_error h _)

theorem object_eq_error {mapper : Mapper}
    (hclaim : request.claim cx.library document .object label session = some (.ok stem, between))
    (h : gather cx mapper document schema request stem schema.members between =
      some (.error failure, session')) :
    Native.object cx mapper document schema label request session =
      some (.error failure, session') :=
  (run_bind_ok hclaim _).trans (run_bind_error h _)

theorem property_eq_error {mapper : Mapper} {parent : Parent} {isOptional : Bool} {name : String}
    (hwhole : ∀ items, node.kind ≠ .array items)
    (h : mapper document node request session = some (.error failure, session')) :
    property cx mapper document parent isOptional name node request session =
      some (.error failure, session') := by
  obtain ⟨title, description, kind⟩ := node
  cases kind with
  | array items => exact absurd rfl (hwhole items)
  | _ => exact run_bind_error h _

theorem property_eq_error_of_array {mapper : Mapper} {parent : Parent} {isOptional : Bool}
    {name : String} {items : Items} {item : Node} (hkind : node.kind = .array items)
    (hitem : items.element request.path = .ok item)
    (h : mapper document item (request.element item name) session =
      some (.error failure, session')) :
    property cx mapper document parent isOptional name node request session =
      some (.error failure, session') := by
  unfold property
  rw [hkind]
  dsimp only
  rw [run_ofExcept_bind, hitem]
  exact run_bind_error h _

/-- The failure of a property that may not be left out. -/
theorem addProperty_eq_error {mapper : Mapper} {parent : Parent} {soFar : Gathered}
    {entry : String × Node} (hfatal : failure.isRecoverable = false)
    (h : property cx mapper document parent (schema.isOptional entry.1) entry.1 entry.2
      (request.property parent.stem entry.1) session = some (.error failure, session')) :
    addProperty cx mapper document parent schema request soFar entry session =
      some (.error failure, session') := by
  have hattempt : attempt (property cx mapper document parent (schema.isOptional entry.1) entry.1
      entry.2 (request.property parent.stem entry.1)) session =
        some (.ok (.error failure), session') := by
    rw [run_attempt, h]
    rfl
  refine (run_bind_ok hattempt _).trans ?_
  dsimp only
  rw [hfatal]
  rfl

/-- Properties that can be gone over at all are gone over with the budget of the object. -/
theorem exists_gather_of_passes {before after : List (String × Node)} {entry : String × Node}
    (h : (gather cx (map cx budget) document schema request stem
      (before ++ entry :: after)).Halts session)
    (hbefore : (walk cx).passes document schema request stem before session between) :
    ∃ soFar, gather cx (map cx budget) document schema request stem before session =
      some (.ok soFar, between) := by
  unfold gather at h
  rw [List.foldlM_append] at h
  obtain ⟨found, soFar, hfound⟩ := hbefore
  obtain ⟨result, mid, hrun⟩ := halts_iff.1 (halts_bind.1 h).1
  cases run_unique (fun hle ↦ (refinement 0).foldlM
    (fun soFar entry ↦ addProperty_map_refines hle soFar entry) before _) hrun hfound
  exact ⟨soFar, hrun⟩

theorem gather_eq_error {before after : List (String × Node)} {entry : String × Node}
    (h : (gather cx (map cx budget) document schema request stem
      (before ++ entry :: after)).Halts session)
    (hbefore : (walk cx).passes document schema request stem before session between)
    (hfatal : failure.isRecoverable = false)
    (hproperty : property cx (map cx budget) document (parent cx document stem)
      (schema.isOptional entry.1) entry.1 entry.2 (request.property stem entry.1) between =
        some (.error failure, session')) :
    gather cx (map cx budget) document schema request stem (before ++ entry :: after) session =
      some (.error failure, session') := by
  obtain ⟨soFar, hrun⟩ := exists_gather_of_passes h hbefore
  unfold gather at hrun ⊢
  rw [List.foldlM_append, run_bind_ok hrun, List.foldlM_cons]
  exact run_bind_error (addProperty_eq_error hfatal hproperty) _

/-- Properties without a type are left out, so that going over properties does not fail for want of
one. -/
theorem gather_firm (properties : List (String × Node)) :
    Firm (gather cx (map cx budget) document schema request stem properties) :=
  obeys_foldlM fun _ entry _ _ soFar ↦ addProperty_firm _ schema soFar entry

end Run

/-! ## Calls around a failure -/

variable {call call' last twin : Call}

/-- The call ends in a failure that may not be left out. -/
def Breaks (cx : Context) (call : Call) : Prop :=
  ∃ failure session', failure.isRecoverable = false ∧
    Ends cx call.document call.node call.request call.session (.error failure) session'

theorem Answers.run_of_breaks (h : Answers cx budget call) (hbreaks : Breaks cx call) :
    ∃ failure session', failure.isRecoverable = false ∧
      map cx budget call.document call.node call.request call.session =
        some (.error failure, session') := by
  obtain ⟨failure, session', hfatal, hends⟩ := hbreaks
  obtain ⟨result, after, hrun⟩ := halts_iff.1 h
  obtain ⟨rfl, rfl⟩ := Ends.unique ⟨budget, hrun⟩ hends
  exact ⟨failure, after, hfatal, hrun⟩

theorem exists_answers_of_asks (h : ∃ budget, Answers cx budget call)
    (hasks : Asks cx.library (walk cx) call call') : ∃ budget, Answers cx budget call' := by
  obtain ⟨budget, hanswers⟩ := h
  cases budget with
  | zero => cases hanswers
  | succ budget => exact ⟨budget, hanswers.of_asks hasks⟩

theorem exists_answers_of_leads (h : ∃ budget, Answers cx budget call)
    (hleads : Relation.ReflTransGen (Asks cx.library (walk cx)) call last) :
    ∃ budget, Answers cx budget last := by
  induction hleads with
  | refl => exact h
  | tail _ hasks ih => exact exists_answers_of_asks ih hasks

theorem Answers.merge {members : List Node}
    (h : Answers cx (budget + 1) ⟨document, node, request, session⟩)
    (hkind : node.kind = .allOf members) (hlabel : request.label node = .ok label) :
    (mergeAllOf cx.library budget document node members request.path).Halts session := by
  unfold Answers Halts at h
  rw [run_map_allOf hkind hlabel] at h
  exact (halts_bind.1 h).1

theorem breaks_of_gather {schema : ObjectSchema} {stem : String}
    (hkind : node.kind = .object schema) (hlabel : request.label node = .ok label)
    (hproperties : schema.hasProperties)
    (hclaim : request.claim cx.library document .object label session = some (.ok stem, between))
    (hgather : gather cx (map cx budget) document schema request stem schema.members between =
      some (.error failure, session')) :
    Breaks cx ⟨document, node, request, session⟩ := by
  have hfatal : failure.isRecoverable = false :=
    (gather_firm schema.members hgather trivial trivial).2.2
  refine ⟨failure, session', hfatal, budget + 1, ?_⟩
  rw [run_map_object hkind hlabel, objectLike, if_pos hproperties]
  exact object_eq_error hclaim hgather

theorem breaks_of_property {schema : ObjectSchema} {stem : String}
    {before after : List (String × Node)} {entry : String × Node} {last : Session}
    (hanswers : Answers cx (budget + 1) ⟨document, node, request, session⟩)
    (hkind : node.kind = .object schema) (hlabel : request.label node = .ok label)
    (hclaim : request.claim cx.library document .object label session = some (.ok stem, between))
    (hmembers : schema.members = before ++ entry :: after)
    (hbefore : (walk cx).passes document schema request stem before between session')
    (hfatal : failure.isRecoverable = false)
    (hproperty : property cx (map cx budget) document (parent cx document stem)
      (schema.isOptional entry.1) entry.1 entry.2 (request.property stem entry.1) session' =
        some (.error failure, last)) :
    Breaks cx ⟨document, node, request, session⟩ := by
  have hgather := hanswers.gather hkind hlabel hclaim hmembers
  have hproperties := ObjectSchema.hasProperties_of_members hmembers
  have hrun := gather_eq_error hgather hbefore hfatal hproperty
  rw [← hmembers] at hrun
  exact breaks_of_gather hkind hlabel hproperties hclaim hrun

/-- A call breaks off if a call does that it makes. -/
theorem Breaks.of_asks (h : Breaks cx call') (hasks : Asks cx.library (walk cx) call call')
    (hanswers : ∃ budget, Answers cx budget call) : Breaks cx call := by
  obtain ⟨budget, hanswers⟩ := hanswers
  cases budget with
  | zero => cases hanswers
  | succ budget =>
    obtain ⟨failure, after, hfatal, hrun⟩ := (hanswers.of_asks hasks).run_of_breaks h
    cases hasks with
    | target hkind htarget hkey =>
      refine ⟨failure, after.pop, hfatal, budget + 1, ?_⟩
      rw [run_map_reference hkind]
      refine reference_eq_error htarget ?_
      rw [run_following, if_neg hkey, hrun]
      rfl
    | element hkind hlabel hitem =>
      refine ⟨failure, after, hfatal, budget + 1, ?_⟩
      rw [run_map_array hkind hlabel]
      exact array_eq_error hitem hrun
    | value hkind hlabel hplain hadditional hclaim =>
      refine ⟨failure, after, hfatal, budget + 1, ?_⟩
      rw [run_map_object hkind hlabel, objectLike, if_neg (Bool.eq_false_iff.1 hplain), hadditional]
      exact dictionary_eq_error hclaim hrun
    | property hkind hlabel hclaim hmembers hbefore hwhole =>
      exact breaks_of_property hanswers hkind hlabel hclaim hmembers hbefore hfatal
        (property_eq_error (hwhole rfl) hrun)
    | propertyElement hkind hlabel hclaim hmembers hbefore hopens hchild hitem =>
      exact breaks_of_property hanswers hkind hlabel hclaim hmembers hbefore hfatal
        (property_eq_error_of_array hchild hitem hrun)
    | @merged document node merged request session between members label found hkind hlabel
        hmerge =>
      refine ⟨failure, after, hfatal, budget + 1, ?_⟩
      obtain ⟨result, mid, hfound⟩ := halts_iff.1 (hanswers.merge hkind hlabel)
      cases run_unique (fun hle ↦ mergeAllOf_refines cx.library hle document node members
        request.path) hfound hmerge
      rw [run_map_allOf hkind hlabel, run_bind_ok hfound]
      exact hrun

/-- A call breaks off if any call does that is made in it. -/
theorem Breaks.of_leads (h : Breaks cx last)
    (hleads : Relation.ReflTransGen (Asks cx.library (walk cx)) call last)
    (hanswers : ∃ budget, Answers cx budget call) : Breaks cx call := by
  induction hleads using Relation.ReflTransGen.head_induction_on with
  | refl => exact h
  | head hasks _ ih => exact (ih (exists_answers_of_asks hanswers hasks)).of_asks hasks hanswers

/-! ## Calls for the same schema -/

theorem breaks_of_cycle {reference : String} {target : Target}
    (hkind : node.kind = .reference reference)
    (htarget : cx.library.resolve document reference request.path = .ok target)
    (hkey : target.key ∈ session.chain) : Breaks cx ⟨document, node, request, session⟩ := by
  refine ⟨.cyclicReference (target.key :: session.chain).reverse request.path, session, rfl, 1, ?_⟩
  rw [run_map_reference hkind]
  refine reference_eq_error htarget ?_
  rw [run_following, if_pos hkey]

/-- An object gets to each of its properties, unless it breaks off. -/
theorem breaks_or_passes {schema : ObjectSchema} {before after : List (String × Node)}
    {entry : String × Node} (hanswers : Answers cx (budget + 1) ⟨document, node, request, session⟩)
    (hkind : node.kind = .object schema) (hlabel : request.label node = .ok label)
    (hmembers : schema.members = before ++ entry :: after) :
    Breaks cx ⟨document, node, request, session⟩ ∨ ∃ stem between last,
      request.claim cx.library document .object label session = some (.ok stem, between) ∧
        (walk cx).passes document schema request stem before between last := by
  obtain ⟨stem, between, hclaim⟩ : ∃ stem between,
      request.claim cx.library document .object label session = some (.ok stem, between) :=
    ⟨_, _, run_claim _ _ _ _ _ _⟩
  have hgather := hanswers.gather hkind hlabel hclaim hmembers
  unfold gather at hgather
  rw [List.foldlM_append] at hgather
  obtain ⟨result, last, hrun⟩ := halts_iff.1 (halts_bind.1 hgather).1
  cases result with
  | ok gathered => exact .inr ⟨stem, between, last, hclaim, budget, gathered, hrun⟩
  | error failure =>
    have hall : gather cx (map cx budget) document schema request stem schema.members between =
        some (.error failure, last) := by
      unfold gather
      rw [hmembers, List.foldlM_append]
      exact run_bind_error hrun _
    have hproperties := ObjectSchema.hasProperties_of_members hmembers
    exact .inl (breaks_of_gather hkind hlabel hproperties hclaim hall)

/-- A composition merges into something, unless it breaks off. -/
theorem breaks_or_merges {members : List Node}
    (hanswers : Answers cx (budget + 1) ⟨document, node, request, session⟩)
    (hkind : node.kind = .allOf members) (hlabel : request.label node = .ok label) :
    Breaks cx ⟨document, node, request, session⟩ ∨ ∃ merged session',
      mergeAllOf cx.library budget document node members request.path session =
        some (.ok merged, session') := by
  obtain ⟨result, session', hmerge⟩ := halts_iff.1 (hanswers.merge hkind hlabel)
  cases result with
  | ok merged => exact .inr ⟨merged, session', hmerge⟩
  | error failure =>
    have hfirm : Firm (mergeAllOf cx.library budget document node members request.path) :=
      mergeAllOf_obeys_true _ _ _ _ _
    refine .inl ⟨failure, session', (hfirm hmerge trivial trivial).2.2, budget + 1, ?_⟩
    rw [run_map_allOf hkind hlabel]
    exact run_bind_error hmerge _

/-- Of two calls for a schema the second one makes a call for whatever the first one does, unless
it breaks off. -/
theorem breaks_or_mirrors (h : call.Mirrors twin) (hasks : Asks cx.library (walk cx) call call')
    (hanswers : ∃ budget, Answers cx budget twin) :
    Breaks cx twin ∨ ∃ twin', Asks cx.library (walk cx) twin twin' ∧ call'.Mirrors twin' := by
  obtain ⟨budget, hanswers⟩ := hanswers
  obtain ⟨document', node', request', session'⟩ := twin
  obtain ⟨hdocument, hsame, hpath, hnamed⟩ := h
  cases budget with
  | zero => cases hanswers
  | succ budget =>
    cases hasks with
    | @target document node request session reference target hkind htarget hkey =>
      obtain rfl : document' = document := hdocument
      replace htarget : cx.library.resolve document' reference request'.path = .ok target := by
        rw [hpath]
        exact htarget
      by_cases hclosed : target.key ∈ session'.chain
      · exact .inl (breaks_of_cycle (hsame.trans hkind) htarget hclosed)
      · exact .inr ⟨_, .target (hsame.trans hkind) htarget hclosed, rfl, rfl, rfl,
          fun label hlabel ↦ ⟨label, hlabel⟩⟩
    | @element document node request session items label item hkind hlabel hitem =>
      obtain rfl : document' = document := hdocument
      obtain ⟨label', hlabel'⟩ := hnamed label hlabel
      replace hitem : items.element request'.path = .ok item := by
        rw [hpath]
        exact hitem
      refine .inr ⟨_, .element (hsame.trans hkind) hlabel' hitem, rfl, rfl,
        congrArg (Pointer.child · "items") hpath, fun _ _ ↦ ⟨_, Request.label_of_name ?_ _⟩⟩
      exact Request.elementLabel_ne_empty item (Request.label_ne_empty hlabel')
    | @value document node request session between schema label stem additional hkind hlabel hplain
        hadditional hclaim =>
      obtain rfl : document' = document := hdocument
      obtain ⟨label', hlabel'⟩ := hnamed label hlabel
      refine .inr ⟨_, .value (hsame.trans hkind) hlabel' hplain hadditional
        (run_claim _ _ _ _ _ _), rfl, rfl, congrArg (Pointer.child · "additionalProperties") hpath,
        fun _ _ ↦ ⟨_, Request.label_of_name ?_ _⟩⟩
      exact (by decide : "value" ≠ "")
    | @property document node child request session between last schema label stem name before
        after hkind hlabel hclaim hmembers hbefore hwhole =>
      obtain rfl : document' = document := hdocument
      obtain ⟨label', hlabel'⟩ := hnamed label hlabel
      obtain hbreaks | ⟨stem', between', last', hclaim', hbefore'⟩ :=
        breaks_or_passes hanswers (hsame.trans hkind) hlabel' hmembers
      · exact .inl hbreaks
      · exact .inr ⟨_, .property (hsame.trans hkind) hlabel' hclaim' hmembers hbefore' hwhole, rfl,
          rfl, congrArg (fun path ↦ Pointer.child (Pointer.child path "properties") name) hpath,
          fun label hlabel ↦ ⟨label, Request.label_of_name_eq hlabel rfl⟩⟩
    | @propertyElement document node child item request session between last schema label stem name
        before after items hkind hlabel hclaim hmembers hbefore hopens hchild hitem =>
      obtain rfl : document' = document := hdocument
      obtain ⟨label', hlabel'⟩ := hnamed label hlabel
      obtain hbreaks | ⟨stem', between', last', hclaim', hbefore'⟩ :=
        breaks_or_passes hanswers (hsame.trans hkind) hlabel' hmembers
      · exact .inl hbreaks
      · have hplace : (request'.property stem' name).path = (request.property stem name).path :=
          congrArg (fun path ↦ Pointer.child (Pointer.child path "properties") name) hpath
        rw [← hplace] at hitem
        exact .inr ⟨_, .propertyElement (hsame.trans hkind) hlabel' hclaim' hmembers hbefore' hopens
          hchild hitem, rfl, rfl, congrArg (Pointer.child · "items") hplace,
          fun label hlabel ↦ ⟨label, Request.label_of_name_eq hlabel rfl⟩⟩
    | @merged document node merged request session between members label found hkind hlabel
        hmerge =>
      obtain rfl : document' = document := hdocument
      obtain ⟨label', hlabel'⟩ := hnamed label hlabel
      obtain hbreaks | ⟨merged', last', hmerge'⟩ :=
        breaks_or_merges hanswers (hsame.trans hkind) hlabel'
      · exact .inl hbreaks
      · have hkinds : merged'.kind = merged.kind := by
          rw [show request'.path = request.path from hpath] at hmerge'
          exact kind_eq_of_mergeAllOf hmerge hmerge'
        exact .inr ⟨_, .merged (hsame.trans hkind) hlabel' hmerge', rfl, hkinds, hpath,
          fun _ _ ↦ ⟨label', Request.label_merged hlabel'⟩⟩

/-- Below a reference that the mapping of a schema follows, another call for the schema breaks
off. -/
theorem breaks_of_mirrors {reference : String} {target : Target} (h : call.Mirrors twin)
    (hleads : Relation.ReflTransGen (Asks cx.library (walk cx)) call last)
    (hkind : last.node.kind = .reference reference)
    (htarget : cx.library.resolve last.document reference last.request.path = .ok target)
    (hkey : target.key ∈ twin.session.chain) (hanswers : ∃ budget, Answers cx budget twin) :
    Breaks cx twin := by
  induction hleads using Relation.ReflTransGen.head_induction_on generalizing twin with
  | refl =>
    rw [← h.document_eq, ← h.path_eq] at htarget
    exact breaks_of_cycle (h.kind_eq.trans hkind) htarget hkey
  | head hasks _ ih =>
    obtain hbreaks | ⟨twin', hasks', hmirrors⟩ := breaks_or_mirrors h hasks hanswers
    · exact hbreaks
    · have hchain := hasks'.chain_subset walk_keepsChain hkey
      exact (ih hmirrors hchain (exists_answers_of_asks hanswers hasks')).of_asks hasks' hanswers

end Native

end SchemaBindings
