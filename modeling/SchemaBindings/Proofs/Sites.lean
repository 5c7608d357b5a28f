import SchemaBindings.Proofs.Orderly
import SchemaBindings.Proofs.Reserved

/-!
# Sites

A site is a schema at its place, with the stem around it. In orderly documents a mapper comes to
sites only, and the path of a site determines everything else of it. A composition is looked at as
what it merges into. The stem of a site is the one that is reserved for it, or it is made from the
stem around it and from the name that its type is called by.
-/

namespace SchemaBindings

variable {library : Library} {documents : List Document}

/-- Steps that are determined lead to one end at most. -/
theorem eq_of_leads {α : Type} {step : α → α → Prop} {first last last' : α}
    (hunique : Relator.RightUnique step) (h : Relation.ReflTransGen step first last)
    (h' : Relation.ReflTransGen step first last') (hlast : ∀ next, ¬step last next)
    (hlast' : ∀ next, ¬step last' next) : last = last' := by
  have hstays : ∀ {a b : α}, Relation.ReflTransGen step a b → (∀ next, ¬step a next) → a = b := by
    intro a b hleads hend
    obtain rfl | ⟨next, hstep, -⟩ := hleads.cases_head
    · rfl
    · exact absurd hstep (hend next)
  obtain hleads | hleads := h.total_of_right_unique hunique h'
  · exact hstays hleads hlast
  · exact (hstays hleads hlast').symm

/-! ## What compositions show -/

namespace Visit

/-- A composition is mapped as what it merges into. -/
inductive Merges (library : Library) : Visit → Visit → Prop
  | intro {v : Visit} {members : List Node} {label : String} {budget : Nat} {merged : Node}
      (hkind : v.node.kind = .allOf members) (hlabel : v.label = .ok label)
      (hmerge : mergeAllOf library budget v.document v.node members v.path {} =
        some (.ok merged, {})) :
      Merges library v
        { v with node := .mk (v.node.title.or (some label)) merged.description merged.kind }

theorem merges_rightUnique (library : Library) : Relator.RightUnique (Merges library) := by
  rintro v _ _ ⟨hkind, hlabel, hmerge⟩ ⟨hkind', hlabel', hmerge'⟩
  rw [hkind] at hkind'
  cases hkind'
  rw [hlabel] at hlabel'
  cases hlabel'
  have hrun := Mapping.run_unique (fun h ↦ mergeAllOf_refines library h v.document v.node _ v.path)
    hmerge hmerge'
  cases hrun
  rfl

/-- What the mapping of a schema comes to by merging compositions. -/
def Shows (library : Library) : Visit → Visit → Prop := Relation.ReflTransGen (Merges library)

variable {v w w' : Visit}

theorem Shows.same (h : v.Shows library w) :
    w.document = v.document ∧ w.name = v.name ∧ w.path = v.path := by
  induction h with
  | refl => exact ⟨rfl, rfl, rfl⟩
  | tail _ hlast ih =>
    cases hlast
    exact ih

theorem label_eq_ok {label : String} : v.label = .ok label ↔
    v.name ≠ "" ∧ v.name = label ∨ v.name = "" ∧ v.node.givenTitle? = some label := by
  unfold Visit.label Request.label Visit.request
  by_cases hname : v.name = ""
  · cases v.node.givenTitle? <;> simp [hname]
  · simp [hname]

theorem Merges.label {label : String} (h : v.Merges library w) (hlabel : v.label = .ok label) :
    w.label = .ok label := by
  obtain ⟨-, hsame, -⟩ := h
  cases hlabel.symm.trans hsame
  obtain hnamed | ⟨hunnamed, htitle⟩ := label_eq_ok.1 hlabel
  · exact label_eq_ok.2 (.inl hnamed)
  · refine label_eq_ok.2 (.inr ⟨hunnamed, ?_⟩)
    obtain ⟨hgiven, -⟩ := Option.filter_eq_some_iff.1 htitle
    unfold Node.givenTitle? at htitle ⊢
    rw [hgiven] at htitle
    rwa [Node.title_mk, hgiven, Option.some_or]

/-- There is one schema at the end of all merging. -/
theorem Shows.unique (h : v.Shows library w) (h' : v.Shows library w')
    (hkind : ¬w.node.IsComposition) (hkind' : ¬w'.node.IsComposition) : w = w' := by
  have hlast : ∀ {last : Visit}, ¬last.node.IsComposition → ∀ next, ¬last.Merges library next := by
    rintro last hplain _ ⟨hcomposed, -⟩
    exact hplain ⟨_, hcomposed⟩
  exact eq_of_leads (merges_rightUnique library) h h' (hlast hkind) (hlast hkind')

theorem Shows.orderly (hlibrary : library.Orderly documents) (h : v.Shows library w)
    (hdocument : v.document ∈ documents) (hnode : v.node.Orderly) : w.node.Orderly := by
  induction h with
  | refl => exact hnode
  | @tail between last hfirst hlast ih =>
    obtain ⟨hkind, -, hmerge⟩ := hlast
    have hbetween : between.document ∈ documents := by rwa [Shows.same hfirst |>.1]
    exact (hlibrary.merged hbetween ih hkind hmerge).of_kind_eq rfl

end Visit

/-! ## Names of types -/

/-- The last target of a chain of references. -/
inductive Library.RefersTo (library : Library) : Document → String → Target → Prop
  | last {document : Document} {reference place : String} {target : Target}
      (h : library.resolve document reference place = .ok target)
      (hkind : target.node.isReference = false) : RefersTo library document reference target
  | hop {document : Document} {reference place next : String} {target last : Target}
      (h : library.resolve document reference place = .ok target)
      (hkind : target.node.kind = .reference next)
      (hnext : RefersTo library target.owner next last) : RefersTo library document reference last

theorem Library.RefersTo.unique {document : Document} {reference : String} {last last' : Target}
    (h : library.RefersTo document reference last)
    (h' : library.RefersTo document reference last') :
    Visit.ofTarget last = Visit.ofTarget last' := by
  have hsame : ∀ {document : Document} {reference place place' : String} {target target' : Target},
      library.resolve document reference place = .ok target →
        library.resolve document reference place' = .ok target' → target = target' := by
    intro document reference place place' target target' htarget htarget'
    rw [Library.resolve_place htarget place'] at htarget'
    exact Except.ok.inj htarget'
  induction h with
  | last htarget hkind =>
    cases h' with
    | last htarget' hkind' => rw [hsame htarget htarget']
    | hop htarget' hkind' _ =>
      rw [hsame htarget htarget', Node.isReference_eq hkind'] at hkind
      cases hkind
  | hop htarget hkind _ ih =>
    cases h' with
    | last htarget' hkind' =>
      rw [← hsame htarget htarget', Node.isReference_eq hkind] at hkind'
      cases hkind'
    | hop htarget' hkind' hnext' =>
      cases hsame htarget htarget'
      rw [hkind] at hkind'
      cases hkind'
      exact ih hnext'

/-- The name that a type is called by. An array of references is called after what they lead to. -/
inductive Visit.Called (library : Library) (v : Visit) : String → Prop
  | element {items : Items} {item : Node} {reference label : String} {last : Target}
      (hkind : v.node.kind = .array items) (hitem : items.element v.path = .ok item)
      (hreference : item.kind = .reference reference)
      (hlast : library.RefersTo v.document reference last)
      (hlabel : (Visit.ofTarget last).label = .ok label) : Called library v label
  | own {label : String} (hkind : ∀ items item, v.node.kind = .array items →
        items.element v.path = .ok item → item.isReference = false)
      (hlabel : v.label = .ok label) : Called library v label

theorem Visit.Called.unique {v : Visit} {label label' : String} (h : v.Called library label)
    (h' : v.Called library label') : label = label' := by
  cases h with
  | element hkind hitem hreference hlast hlabel =>
    cases h' with
    | element hkind' hitem' hreference' hlast' hlabel' =>
      rw [hkind] at hkind'
      cases hkind'
      rw [hitem] at hitem'
      cases hitem'
      rw [hreference] at hreference'
      cases hreference'
      rw [hlast.unique hlast', hlabel'] at hlabel
      exact (Except.ok.inj hlabel).symm
    | own hplain _ =>
      have hkind' := hplain _ _ hkind hitem
      rw [Node.isReference_eq hreference] at hkind'
      cases hkind'
  | own hplain hlabel =>
    cases h' with
    | element hkind' hitem' hreference' _ _ =>
      have hkind := hplain _ _ hkind' hitem'
      rw [Node.isReference_eq hreference'] at hkind
      cases hkind
    | own _ hlabel' =>
      rw [hlabel] at hlabel'
      exact Except.ok.inj hlabel'

/-! ## Stems and parts of sites -/

theorem Registry.exists_of_mem_definitionClaims {document : Document} {claim : Claim}
    (h : claim ∈ definitionClaims library document) :
    ∃ name node, (name, node) ∈ document.definitions ∧
      definitionClaim? library document name node = some claim := by
  have hclaims : claim ∈ document.definitions.filterMap fun entry ↦
      definitionClaim? library document entry.1 entry.2 := by
    obtain h | h := List.mem_append.1 h <;> exact (List.mem_filter.1 h).1
  obtain ⟨entry, hentry, hclaim⟩ := List.mem_filterMap.1 hclaims
  exact ⟨entry.1, entry.2, hentry, hclaim⟩

/-- A schema at its place, with the stem around it. -/
structure Site extends Visit where
  scope : String

namespace Site

/-- The stem that is reserved for the site, else the one that its type is claimed under. -/
inductive Stem (library : Library) (s : Site) : String → Prop
  | reserved {claim : Registry.Claim} (h : claim ∈ Registry.definitionClaims library s.document)
      (hpath : claim.path = s.path) : Stem library s claim.stem
  | own {v : Visit} {label : String}
      (hfree : ∀ claim ∈ Registry.definitionClaims library s.document, claim.path ≠ s.path)
      (hshows : s.Shows library v) (hplain : ¬v.node.IsComposition)
      (hcalled : v.Called library label) : Stem library s (Names.nested s.scope label)

/-- A step leads from a site to a part of what it shows. -/
inductive Leads (library : Library) (s : Site) : Step → Site → Prop
  | item {v : Visit} {items : Items} {item : Node} (hshows : s.Shows library v)
      (hkind : v.node.kind = .array items) (hitem : items.element s.path = .ok item) :
      Leads library s .item
        ⟨⟨s.document, item, Request.elementLabel item (s.label.toOption.getD ""),
          Step.item.under s.path⟩, s.scope⟩
  | value {v : Visit} {schema : ObjectSchema} {additional : Node} {stem : String}
      (hshows : s.Shows library v) (hkind : v.node.kind = .object schema)
      (hplain : schema.hasProperties = false) (hadditional : schema.additional = some additional)
      (hstem : s.Stem library stem) :
      Leads library s .value ⟨⟨s.document, additional, "value", Step.value.under s.path⟩, stem⟩
  | property {v : Visit} {schema : ObjectSchema} {name : String} {node : Node} {stem : String}
      (hshows : s.Shows library v) (hkind : v.node.kind = .object schema)
      (hmember : (name, node) ∈ schema.members) (hstem : s.Stem library stem) :
      Leads library s (.property name)
        ⟨⟨s.document, node, name, (Step.property name).under s.path⟩, stem⟩

/-- Where a site is that stands in no other. -/
inductive Starts (documents : List Document) : Origin → Site → Prop
  | definition {document : Document} {root : DefinitionsRoot} {written : String} {value : Json}
      {node : Node} (hdocument : document ∈ documents) (hslash : '/' ∉ written.toList)
      (hvalue : document.fragment? (root.pointer ++ "/" ++ written) = some value)
      (hnode : Node.read (document.schemaPath (root.pointer ++ "/" ++ written)) value =
        .ok node) :
      Starts documents (.definition root written hslash)
        ⟨⟨document, node, node.title.getD (Pointer.lastStep (root.pointer ++ "/" ++ written)),
          document.schemaPath (root.pointer ++ "/" ++ written)⟩, ""⟩
  | param {m : MethodPlace} {params : List Param} {position : Nat} {param : Param}
      (hdocument : m.document ∈ documents) (hm : m.Of m.document)
      (hparams : m.params? = some params) (h : params[position]? = some param) :
      Starts documents (.param m.position position)
        ⟨⟨m.document, param.schema, param.name, s!"{m.path}/params/{position}/schema"⟩,
          m.methodName⟩
  | result {m : MethodPlace} {params : List Param} {result : MethodResult}
      (hdocument : m.document ∈ documents) (hm : m.Of m.document)
      (hparams : m.params? = some params) (h : m.method.result = some result) :
      Starts documents (.result m.position)
        ⟨⟨m.document, result.schema, result.name, s!"{m.path}/result/schema"⟩, m.methodName⟩

/-- The site that some steps lead to, the last one first. -/
inductive At (library : Library) (documents : List Document) : Origin → List Step → Site → Prop
  | start {origin : Origin} {s : Site} (h : Starts documents origin s) :
      At library documents origin [] s
  | step {origin : Origin} {steps : List Step} {step : Step} {s s' : Site}
      (h : At library documents origin steps s) (hleads : s.Leads library step s') :
      At library documents origin (step :: steps) s'

variable {origin : Origin} {steps : List Step} {step : Step} {s s' : Site}

theorem Starts.document_mem (h : Starts documents origin s) : s.document ∈ documents := by
  cases h <;> assumption

theorem Starts.path_eq (h : Starts documents origin s) :
    s.path = origin.path s.document.title := by
  cases h with
  | definition => simp [Document.schemaPath, Origin.path, String.append_assoc]
  | param => rfl
  | result => rfl

theorem Starts.orderly (hlibrary : library.Orderly documents) (h : Starts documents origin s) :
    s.node.Orderly := by
  have hmethod : ∀ {m : MethodPlace}, m.document ∈ documents → m.Of m.document →
      m.method.Distinct := fun hdocument hm ↦
    Document.distinct_methods (hlibrary.read _ hdocument) (hlibrary.distinct _ hdocument) _
      (List.mem_of_getElem? hm.2)
  cases h with
  | definition hdocument hslash hvalue hnode =>
    exact hlibrary.of_fragment hdocument hslash hvalue hnode
  | @param m params position param hdocument hm hparams h =>
    have hmem := List.mem_of_getElem? h
    refine ⟨?_, fun reference hreference ↦ hlibrary.rooted hdocument
      (.declared (MethodPlace.references_subset hm hparams hmem hreference))⟩
    unfold MethodPlace.params? at hparams
    split at hparams <;> cases hparams
    · exact (hmethod hdocument hm).reduced.params param hmem
    · exact (hmethod hdocument hm).params param hmem
  | @result m _ result hdocument hm _ h =>
    exact ⟨(hmethod hdocument hm).result result h, fun reference hreference ↦
      hlibrary.rooted hdocument (.declared
        (Document.mem_references_of_result (List.mem_of_getElem? hm.2) h hreference))⟩

theorem Starts.unique (h : Starts documents origin s) (h' : Starts documents origin s')
    (hdocument : s.document = s'.document) : s = s' := by
  have hplace : ∀ {m m' : MethodPlace}, m.Of m.document → m'.Of m'.document →
      m.document = m'.document → m.position = m'.position → m = m' := by
    rintro ⟨document, position, method⟩ ⟨_, _, method'⟩ ⟨-, hmethod⟩ ⟨-, hmethod'⟩ rfl rfl
    cases hmethod.symm.trans hmethod'
    rfl
  cases h with
  | definition hmem hslash hvalue hnode =>
    cases h' with
    | definition hmem' _ hvalue' hnode' =>
      cases hdocument
      cases hvalue.symm.trans hvalue'
      cases hnode.symm.trans hnode'
      rfl
  | @param m params position param _ hm hparams h =>
    generalize horigin : Origin.param m.position position = origin at h'
    cases h' with
    | @param m' _ _ _ _ hm' hparams' h' =>
      obtain ⟨hposition, rfl⟩ := Origin.param.inj horigin
      obtain rfl := hplace hm hm' hdocument hposition
      cases hparams.symm.trans hparams'
      cases h.symm.trans h'
      rfl
    | _ => cases horigin
  | @result m _ result _ hm _ h =>
    generalize horigin : Origin.result m.position = origin at h'
    cases h' with
    | @result m' _ _ _ hm' _ h' =>
      obtain rfl := hplace hm hm' hdocument (Origin.result.inj horigin)
      cases h.symm.trans h'
      rfl
    | _ => cases horigin

theorem Leads.document_eq (h : s.Leads library step s') : s'.document = s.document := by
  cases h <;> rfl

theorem Leads.path_eq (h : s.Leads library step s') : s'.path = step.under s.path := by
  cases h <;> rfl

theorem At.document_mem (h : At library documents origin steps s) : s.document ∈ documents := by
  induction h with
  | start h => exact h.document_mem
  | step _ hleads ih => rwa [hleads.document_eq]

theorem At.path_eq (h : At library documents origin steps s) :
    s.path = origin.place s.document.title steps := by
  induction h with
  | start h => exact h.path_eq
  | step _ hleads ih =>
    rw [hleads.path_eq, hleads.document_eq, ih]
    rfl

variable (hlibrary : library.Orderly documents)
include hlibrary

theorem At.orderly (h : At library documents origin steps s) : s.node.Orderly := by
  induction h with
  | start h => exact h.orderly hlibrary
  | @step _ _ s _ h hleads ih =>
    have hshown : ∀ {v}, s.Shows library v → v.node.Orderly :=
      fun hshows ↦ hshows.orderly hlibrary h.document_mem ih
    cases hleads with
    | item hshows hkind hitem => exact (hshown hshows).part (.item hkind hitem)
    | value hshows hkind _ hadditional _ => exact (hshown hshows).part (.value hkind hadditional)
    | property hshows hkind hmember _ => exact (hshown hshows).part (.child hkind hmember)

/-- A document reserves one stem for a path. -/
theorem eq_of_mem_definitionClaims {document : Document} (hdocument : document ∈ documents)
    {claim claim' : Registry.Claim} (h : claim ∈ Registry.definitionClaims library document)
    (h' : claim' ∈ Registry.definitionClaims library document) (hpath : claim.path = claim'.path) :
    claim = claim' := by
  obtain ⟨name, node, hentry, hclaim⟩ := Registry.exists_of_mem_definitionClaims h
  obtain ⟨name', node', hentry', hclaim'⟩ := Registry.exists_of_mem_definitionClaims h'
  rw [Registry.path_of_definitionClaim? hclaim, Registry.path_of_definitionClaim? hclaim'] at hpath
  have hname : name = name' :=
    Pointer.child_right_injective _ ((String.append_right_inj _).1 hpath)
  subst hname
  have hnames := Document.nodup_definitions (hlibrary.read _ hdocument)
    (hlibrary.distinct _ hdocument)
  cases List.inj_on_of_nodup_map hnames hentry hentry' rfl
  exact Option.some.inj (hclaim.symm.trans hclaim')

theorem Stem.unique {stem stem' : String} (hdocument : s.document ∈ documents)
    (h : s.Stem library stem) (h' : s.Stem library stem') : stem = stem' := by
  cases h with
  | reserved h hpath =>
    cases h' with
    | reserved h' hpath' =>
      rw [eq_of_mem_definitionClaims hlibrary hdocument h h' (hpath.trans hpath'.symm)]
    | own hfree => exact absurd hpath (hfree _ h)
  | own hfree hshows hplain hcalled =>
    cases h' with
    | reserved h' hpath' => exact absurd hpath' (hfree _ h')
    | own _ hshows' hplain' hcalled' =>
      cases hshows.unique hshows' hplain hplain'
      rw [hcalled.unique hcalled']

/-- A site has one part at each step. -/
theorem Leads.unique {first second : Site} (h : At library documents origin steps s)
    (hfirst : s.Leads library step first) (hsecond : s.Leads library step second) :
    first = second := by
  have hplain : ∀ {v : Visit}, (∃ items, v.node.kind = .array items) ∨
      (∃ schema, v.node.kind = .object schema) → ¬v.node.IsComposition := by
    rintro v (⟨_, hkind⟩ | ⟨_, hkind⟩) ⟨_, hkind'⟩ <;> exact nomatch hkind.symm.trans hkind'
  cases hfirst with
  | item hshows hkind hitem =>
    cases hsecond with
    | item hshows' hkind' hitem' =>
      cases hshows.unique hshows' (hplain (.inl ⟨_, hkind⟩)) (hplain (.inl ⟨_, hkind'⟩))
      cases hkind.symm.trans hkind'
      cases hitem.symm.trans hitem'
      rfl
  | value hshows hkind _ hadditional hstem =>
    cases hsecond with
    | value hshows' hkind' _ hadditional' hstem' =>
      cases hshows.unique hshows' (hplain (.inr ⟨_, hkind⟩)) (hplain (.inr ⟨_, hkind'⟩))
      cases hkind.symm.trans hkind'
      cases hadditional.symm.trans hadditional'
      rw [hstem.unique hlibrary h.document_mem hstem']
  | property hshows hkind hmember hstem =>
    cases hsecond with
    | property hshows' hkind' hmember' hstem' =>
      cases hshows.unique hshows' (hplain (.inr ⟨_, hkind⟩)) (hplain (.inr ⟨_, hkind'⟩))
      cases hkind.symm.trans hkind'
      have horderly := hshows.orderly hlibrary h.document_mem (h.orderly hlibrary)
      have hnames := (hkind ▸ horderly.distinct).nodup
      rw [hstem.unique hlibrary h.document_mem hstem']
      cases List.inj_on_of_nodup_map hnames hmember hmember' rfl
      rfl

/-- In a document, origin and steps determine the site. -/
theorem At.unique (h : At library documents origin steps s)
    (h' : At library documents origin steps s') (hdocument : s.document = s'.document) :
    s = s' := by
  induction h generalizing s' with
  | start h =>
    cases h' with
    | start h' => exact h.unique h' hdocument
  | step h hleads ih =>
    cases h' with
    | step h' hleads' =>
      rw [hleads.document_eq, hleads'.document_eq] at hdocument
      cases ih h' hdocument
      exact hleads.unique hlibrary h hleads'

/-- A site is determined by its path. -/
theorem At.eq_of_path {origin' : Origin} {steps' : List Step}
    (h : At library documents origin steps s) (h' : At library documents origin' steps' s')
    (hpath : s.path = s'.path) : s = s' := by
  rw [h.path_eq, h'.path_eq] at hpath
  obtain ⟨htitle, rfl, rfl⟩ := Origin.place_injective hpath
  exact h.unique hlibrary h'
    (hlibrary.eq_of_title _ h.document_mem _ h'.document_mem htitle)

end Site

end SchemaBindings
