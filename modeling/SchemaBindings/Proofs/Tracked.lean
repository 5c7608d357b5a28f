import SchemaBindings.Proofs.Kept
import SchemaBindings.Proofs.Roots
import SchemaBindings.Proofs.Targets

/-!
# Tracked references

Which definitions are kept is decided by the references that are written in declared schemas, while
mappers look up what any reference points to. The references into a document are tracked if the two
agree: a reference leads to the definition that it is taken for, and a schema that is looked up has
no references but those that are declared. Then, wherever a mapper comes to from another document,
it goes over to this one by kept definitions only.
-/

namespace SchemaBindings

/-- References that are looked up in some document: those of definitions and of methods, and those
that are written in schemas, as they are or qualified. -/
inductive Library.Refers (library : Library) : String → Prop
  | definition {document : Document} {name : String} (hdocument : document ∈ library.documents)
      (h : name ∈ Table.keys document.definitions) : Refers library (document.definitionRef name)
  | federated {document : Document} {m : MethodPlace} {ending : String}
      (hdocument : document ∈ library.documents) (hm : m.Of document)
      (hclass : MethodClass.of m.method = .polymorphicPull)
      (h : ending ∈ ["FederatedResponse", "FederatedRequest"]) :
      Refers library (document.definitionRef (m.methodName ++ ending))
  | written {document : Document} {reference : String} (hdocument : document ∈ library.documents)
      (h : reference ∈ document.references) : Refers library reference
  | qualified {document : Document} {reference : String} (hdocument : document ∈ library.documents)
      (h : reference ∈ document.references) :
      Refers library (qualifyReference document.uri reference)

/-- The schemas that are looked up are declared with their references, and references into the
owner are taken for the definitions that they lead to. -/
structure Library.Tracks (library : Library) (owner : Document) : Prop where
  declared : ∀ {reader : Document} {reference place : String} {target : Target},
    reader ∈ library.documents → library.Refers reference →
      library.resolve reader reference place = .ok target →
        target.node.references ⊆ target.owner.references
  named : ∀ {home : Document} {reference place : String} {target : Target},
    home ∈ library.documents → reference ∈ home.references →
      library.resolve home reference place = .ok target → target.owner = owner →
        ∃ name, Keep.definition? owner (home.uri = owner.uri) reference = some (name, target.node)

/-- If the reference leads from the reader into the owner, it leads to a kept definition. -/
def Tracked (library : Library) (owner reader : Document) (reference : String) : Prop :=
  ∀ place target, library.resolve reader reference place = .ok target → target.owner = owner →
    ∃ name ∈ keptDefinitions library owner,
      Table.get? name owner.definitions = some target.node ∧
        library.place? reader reference = some (owner, owner.definitionRef name)

variable {library : Library} {owner reader home : Document} {reference : String}

theorem Tracked.of_place?_eq {reader' : Document} {reference' : String}
    (h : Tracked library owner reader reference)
    (hplace : library.place? reader' reference' = library.place? reader reference) :
    Tracked library owner reader' reference' := by
  intro place target htarget howner
  obtain ⟨target', htarget'⟩ := Library.exists_resolve_of_place?_eq htarget hplace.symm place
  obtain ⟨howner', hnode, -, -⟩ := Library.resolve_of_place?_eq htarget htarget' hplace
  obtain ⟨name, hkept, hdefinition, hname⟩ := h place target' htarget' (howner' ▸ howner)
  exact ⟨name, hkept, hnode ▸ hdefinition, hplace.trans hname⟩

/-- A reference that stays in its document leads into no other one. -/
theorem tracked_of_place? {fragment : String} (hother : reader ≠ owner)
    (hplace : library.place? reader reference = some (reader, fragment)) :
    Tracked library owner reader reference := by
  intro place target htarget howner
  obtain ⟨found, value, hfound, -⟩ := Library.resolve_eq_ok htarget
  rw [hplace] at hfound
  cases hfound
  exact absurd howner hother

theorem tracked_of_isLocal (hother : reader ≠ owner) (hlocal : isLocal reference) :
    Tracked library owner reader reference :=
  tracked_of_place? hother (Library.place?_of_isLocal hlocal)

section Written

variable (htracks : library.Tracks owner) (hhome : library.get? home.uri = some home)
  (howner : library.get? owner.uri = some owner)
include htracks

/-- If the definition that the reference is taken for is kept, the reference is tracked. -/
theorem tracked_of_definition? (hhome : home ∈ library.documents)
    (hreference : reference ∈ home.references)
    (hkept : ∀ name node,
      Keep.definition? owner (home.uri = owner.uri) reference = some (name, node) →
        name ∈ keptDefinitions library owner) :
    Tracked library owner home reference := by
  intro place target htarget howner
  obtain ⟨name, hname⟩ := htracks.named hhome hreference htarget howner
  obtain ⟨hfragment, hnode⟩ := Keep.definition?_eq_some hname
  obtain ⟨fragment, value, hplace, -⟩ := Library.resolve_eq_ok htarget
  refine ⟨name, hkept name _ hname, hnode, ?_⟩
  rw [hplace, howner, Library.fragment_of_place? hplace, hfragment]

include hhome howner

theorem tracked_of_written (hother : home ≠ owner) (h : reference ∈ home.references) :
    Tracked library owner home reference := by
  have huri : home.uri ≠ owner.uri := by
    intro heq
    rw [heq, howner] at hhome
    exact hother (Option.some.inj hhome).symm
  have hmem := Library.mem_of_get? hhome
  refine tracked_of_definition? htracks hmem h fun name node hname ↦ ?_
  rw [decide_eq_false huri] at hname
  exact mem_keptDefinitions hmem huri h hname

omit hhome in
theorem tracked_of_kept {name : String} {node : Node}
    (hkept : name ∈ keptDefinitions library owner)
    (hnode : Table.get? name owner.definitions = some node) (h : reference ∈ node.references) :
    Tracked library owner owner reference := by
  have hwritten := Document.mem_references (Table.mem_of_get?_eq_some hnode) h
  refine tracked_of_definition? htracks (Library.mem_of_get? howner) hwritten
    fun other target hother ↦ ?_
  rw [decide_eq_true rfl] at hother
  exact mem_keptDefinitions_of_kept hkept hnode h hother

end Written

/-! ## Schemas on the way to merged ones -/

namespace Occurrence

/-- A copied reference keeps its target where it is copied to, or stays there. -/
theorem place?_copyReference (huris : library.HasUris)
    (hreader : library.get? reader.uri = some reader) {o : Occurrence}
    (hhome : library.get? o.home.uri = some o.home) (reference : String) :
    library.place? reader (o.copyReference reference) = library.place? o.home reference ∨
      ∃ fragment, library.place? reader (o.copyReference reference) = some (reader, fragment) := by
  by_cases hkeeps : o.Keeps reader reference
  · exact .inl ((place?_copyReference_iff huris hreader hhome reference).2 hkeeps)
  · obtain ⟨hunnamed, hlost⟩ := not_or.1 hkeeps
    have hplain : ¬(o.isForeign ∧ isLocal reference) := fun hboth ↦ hlost (.inr hboth)
    have hcopy : o.copyReference reference = reference := by
      unfold copyReference
      split
      · exact if_neg fun hlocal ↦ hplain ⟨‹_›, hlocal⟩
      · rfl
    rw [hcopy]
    exact .inr ⟨_, Library.place?_of_unnamed (not_not.1 hunnamed)⟩

/-- The schema stands in a document of the library, and its references are looked up. -/
structure Known (library : Library) (o : Occurrence) : Prop where
  home : library.get? o.home.uri = some o.home
  refers : ∀ reference ∈ o.node.references, library.Refers (o.copyReference reference)

/-- The references of a schema that is looked up are declared in its document. -/
theorem Known.declared {o : Occurrence} (h : o.Known library) (htracks : library.Tracks owner)
    (hkind : o.node.kind = .reference reference) {place : String} {target : Target}
    (htarget : library.resolve o.home (o.copyReference reference) place = .ok target) :
    target.node.references ⊆ target.owner.references :=
  htracks.declared (Library.mem_of_get? h.home)
    (h.refers reference (Node.mem_references_of_kind hkind)) htarget

theorem Known.leads {o o' : Occurrence} (h : o.Known library) (htracks : library.Tracks owner)
    (hleads : Leads library o o') : o'.Known library := by
  refine ⟨hleads.home h.home, fun reference hmem ↦ ?_⟩
  have hhome := Library.mem_of_get? (hleads.home h.home)
  cases hleads with
  | @reference written place target hkind htarget =>
    have hdeclared := h.declared htracks hkind htarget hmem
    unfold copyReference
    split
    · exact .qualified hhome hdeclared
    · exact .written hhome hdeclared
  | member hkind hnode =>
    refine h.refers reference (Node.references_subset (fun hm ↦ ?_) hmem)
    rw [Node.mentions_eq, hkind]
    exact mem_listMentions.2 ⟨_, hnode, hm⟩

/-- All references of the schema are tracked where it stands. -/
def Tracked (library : Library) (owner : Document) (o : Occurrence) : Prop :=
  ∀ reference ∈ o.node.references, SchemaBindings.Tracked library owner o.home reference

end Occurrence

section Target

variable (huris : library.HasUris) (htracks : library.Tracks owner)
  (howner : library.get? owner.uri = some owner)
include huris htracks howner

omit huris in
/-- What a tracked reference leads to has tracked references, in whichever document that is. -/
theorem Tracked.target (h : Tracked library owner reader reference)
    (hreader : library.get? reader.uri = some reader) {place : String} {target : Target}
    (htarget : library.resolve reader reference place = .ok target)
    (hdeclared : target.node.references ⊆ target.owner.references) :
    ∀ written ∈ target.node.references, Tracked library owner target.owner written := by
  intro written hwritten
  by_cases hinside : target.owner = owner
  · obtain ⟨name, hkept, hnode, -⟩ := h place target htarget hinside
    rw [hinside]
    exact tracked_of_kept htracks howner hkept hnode hwritten
  · obtain ⟨fragment, value, hplace, -⟩ := Library.resolve_eq_ok htarget
    have htargetOwner : library.get? target.owner.uri = some target.owner := by
      obtain hsame | ⟨hget, -⟩ := Library.owner_of_place? hplace
      · rw [hsame]
        exact hreader
      · exact hget
    exact tracked_of_written htracks htargetOwner howner hinside (hdeclared hwritten)

theorem Occurrence.Tracked.leads {o o' : Occurrence} (h : o.Tracked library owner)
    (hknown : o.Known library) (hleads : Leads library o o') : o'.Tracked library owner := by
  cases hleads with
  | @reference written place target hkind htarget =>
    have hmem := Node.mem_references_of_kind hkind
    have hsame : library.place? o.home (o.copyReference written) =
        library.place? o.home written :=
      (place?_copyReference_iff huris hknown.home hknown.home written).2 (.inr (.inl rfl))
    exact ((h written hmem).of_place?_eq hsame).target htracks howner hknown.home htarget
      (hknown.declared htracks hkind htarget)
  | member hkind hnode =>
    intro written hwritten
    refine h written (Node.references_subset (fun hm ↦ ?_) hwritten)
    rw [Node.mentions_eq, hkind]
    exact mem_listMentions.2 ⟨_, hnode, hm⟩

end Target

/-! ## Schemas that mappers come to -/

namespace Visit

/-- The schema is in a document of the library, its references are looked up, and those into the
owner are tracked, where it is not in the owner itself. -/
structure Tracked (library : Library) (owner : Document) (v : Visit) : Prop where
  home : library.get? v.document.uri = some v.document
  refers : ∀ reference ∈ v.node.references, library.Refers reference
  tracked : v.document ≠ owner →
    ∀ reference ∈ v.node.references, SchemaBindings.Tracked library owner v.document reference

/-- A schema in the same document that has no other references. -/
theorem Tracked.of_subset {v v' : Visit} (h : v.Tracked library owner)
    (hdocument : v'.document = v.document) (hsubset : v'.node.references ⊆ v.node.references) :
    v'.Tracked library owner := by
  refine ⟨hdocument ▸ h.home, fun reference hmem ↦ h.refers reference (hsubset hmem), ?_⟩
  rw [hdocument]
  exact fun hother reference hmem ↦ h.tracked hother reference (hsubset hmem)

section

variable (huris : library.HasUris) (htracks : library.Tracks owner)
  (howner : library.get? owner.uri = some owner)
include huris htracks howner

theorem Tracked.merged {v : Visit} (h : v.Tracked library owner) {members : List Node}
    {budget : Nat} {merged node : Node} (hkind : v.node.kind = .allOf members)
    (hmerge : mergeAllOf library budget v.document v.node members v.path {} =
      some (.ok merged, {})) (hnode : node.kind = merged.kind) :
    ({ v with node := node } : Visit).Tracked library owner := by
  -- every reference is copied from a schema that the members lead to
  have hcopied : ∀ reference ∈ node.references, ∃ o : Occurrence, o.Known library ∧
      (v.document ≠ owner → o.Tracked library owner) ∧
        ∃ written ∈ o.node.references, reference = o.copyReference written := by
    intro reference hmem
    have hmentioned : .reference reference ∈ merged.mentions := by
      rw [Node.mentions_eq, ← hnode, ← Node.mentions_eq]
      exact (Node.mem_references node).1 hmem
    obtain ⟨member, hmember, o, hreaches, hcopy⟩ := exists_reaches_of_mergeAllOf hmerge hmentioned
    obtain ⟨written, hwritten, hcopied⟩ := Occurrence.reference_of_copy hcopy
    have hsubset : member.references ⊆ v.node.references :=
      Node.references_subset fun hm ↦ by
        rw [Node.mentions_eq, hkind]
        exact mem_listMentions.2 ⟨member, hmember, hm⟩
    have hreached : o.Known library ∧ (v.document ≠ owner → o.Tracked library owner) := by
      clear hcopy hcopied hwritten
      induction hreaches with
      | refl =>
        exact ⟨⟨h.home, fun reference hmem ↦ h.refers reference (hsubset hmem)⟩,
          fun hother reference hmem ↦ h.tracked hother reference (hsubset hmem)⟩
      | tail _ hleads ih =>
        exact ⟨ih.1.leads htracks hleads,
          fun hother ↦ (ih.2 hother).leads huris htracks howner ih.1 hleads⟩
    exact ⟨o, hreached.1, hreached.2, written, (Node.mem_references _).2 hwritten, hcopied⟩
  refine ⟨h.home, fun reference hmem ↦ ?_, fun hother reference hmem ↦ ?_⟩
  · obtain ⟨o, hknown, -, written, hwritten, rfl⟩ := hcopied reference hmem
    exact hknown.refers written hwritten
  · obtain ⟨o, hknown, htracked, written, hwritten, rfl⟩ := hcopied reference hmem
    obtain hsame | ⟨fragment, hplace⟩ :=
      Occurrence.place?_copyReference huris h.home hknown.home written
    · exact (htracked hother written hwritten).of_place?_eq hsame
    · exact tracked_of_place? hother hplace

theorem Tracked.comes {v v' : Visit} (h : v.Tracked library owner) (hcomes : v.Comes library v') :
    v'.Tracked library owner := by
  cases hcomes with
  | @target reference target hkind htarget =>
    have hmem := Node.mem_references_of_kind hkind
    have hdeclared := htracks.declared (Library.mem_of_get? h.home) (h.refers _ hmem) htarget
    have hhome := Library.get?_of_resolve h.home htarget
    exact ⟨hhome, fun written hwritten ↦ .written (Library.mem_of_get? hhome) (hdeclared hwritten),
      fun hother written hwritten ↦
        tracked_of_written htracks hhome howner hother (hdeclared hwritten)⟩
  | element hkind hlabel hitem =>
    refine h.of_subset rfl (Node.references_subset fun hm ↦ ?_)
    rw [Node.mentions_eq, hkind]
    exact Items.mem_mentions_of_element hitem hm
  | value hkind hplain hadditional =>
    refine h.of_subset rfl (Node.references_subset fun hm ↦ ?_)
    rw [Node.mentions_eq, hkind]
    exact ObjectSchema.mem_mentions.2 (.inr ⟨_, hadditional, hm⟩)
  | property hkind hmember =>
    refine h.of_subset rfl (Node.references_subset fun hm ↦ ?_)
    rw [Node.mentions_eq, hkind]
    exact ObjectSchema.mem_mentions.2 (.inl (mem_propertyMentions.2 ⟨_, hmember, .inr hm⟩))
  | propertyElement hkind hmember hchild hitem =>
    refine h.of_subset rfl (Node.references_subset fun hm ↦ ?_)
    rw [Node.mentions_eq, hkind]
    refine ObjectSchema.mem_mentions.2 (.inl (mem_propertyMentions.2 ⟨_, hmember, .inr ?_⟩))
    rw [Node.mentions_eq, hchild]
    exact Items.mem_mentions_of_element hitem hm
  | merged hkind hlabel hmerge => exact h.merged huris htracks howner hkind hmerge rfl

end

end Visit

/-! ## Schemas of a run -/

/-- The one parameter of a reducer has the references of the parameters that it gathers. -/
theorem Method.mem_references_reduced {method : Method} {param : Param}
    (hparam : param ∈ method.reduced.params) (h : reference ∈ param.schema.references) :
    ∃ gathered ∈ method.params, reference ∈ gathered.schema.references := by
  cases List.mem_singleton.1 hparam
  have hmentioned : .reference reference ∈ propertyMentions
      (Table.ofList (method.params.map fun p ↦ (p.name, p.schema))) :=
    (mem_propertyReferences _).1 (by simpa [reducedItem, Node.ofKind, Node.references,
      Kind.references] using h)
  obtain ⟨entry, hentry, heq | hm⟩ :=
    mem_propertyMentions.1 (mem_propertyMentions_ofList hmentioned)
  · cases heq
  · obtain ⟨gathered, hgathered, rfl⟩ := List.mem_map.1 hentry
    exact ⟨gathered, hgathered, (Node.mem_references _).2 hm⟩

theorem Document.mem_references_of_param {document : Document} {method : Method} {param : Param}
    (hmethod : method ∈ document.methods) (hparam : param ∈ method.params)
    (h : reference ∈ param.schema.references) : reference ∈ document.references := by
  refine List.mem_flatMap.2 ⟨param.schema, List.mem_append_right _ ?_, h⟩
  exact List.mem_flatMap.2 ⟨method, hmethod,
    List.mem_append_left _ (List.mem_map.2 ⟨param, hparam, rfl⟩)⟩

theorem Document.mem_references_of_result {document : Document} {method : Method}
    {result : MethodResult} (hmethod : method ∈ document.methods)
    (hresult : method.result = some result) (h : reference ∈ result.schema.references) :
    reference ∈ document.references := by
  refine List.mem_flatMap.2 ⟨result.schema, List.mem_append_right _ ?_, h⟩
  refine List.mem_flatMap.2 ⟨method, hmethod, List.mem_append_right _ ?_⟩
  rw [hresult]
  exact List.mem_singleton_self _

/-- The parameters that are mapped have no references but those of the method's own. -/
theorem MethodPlace.references_subset {document : Document} {m : MethodPlace} (hm : m.Of document)
    {params : List Param} (hparams : m.params? = some params) {param : Param}
    (hparam : param ∈ params) : param.schema.references ⊆ document.references := by
  intro reference hmem
  have hmethod := List.mem_of_getElem? hm.2
  unfold params? at hparams
  split at hparams <;> cases hparams
  · obtain ⟨gathered, hgathered, hmem⟩ := Method.mem_references_reduced hparam hmem
    exact Document.mem_references_of_param hmethod hgathered hmem
  · exact Document.mem_references_of_param hmethod hparam hmem

namespace Generate

theorem standalone_subset (library : Library) (settings : Settings) (document : Document) :
    standalone library settings document ⊆ Table.keys document.definitions := by
  have hnamed : Table.keys (document.definitions.filter fun entry ↦ !entry.2.kind.isUnion) ⊆
      Table.keys document.definitions := List.map_subset _ (List.filter_subset_self _)
  unfold standalone
  split
  · exact List.Subset.trans (List.filter_subset_self _) hnamed
  · exact hnamed

/-- A run over another document starts from schemas with tracked references. -/
theorem Root.tracked {settings : Settings} {user : Document} {v : Visit}
    (h : Root library settings user v) (htracks : library.Tracks owner)
    (howner : library.get? owner.uri = some owner) (huser : library.get? user.uri = some user)
    (hother : user ≠ owner) (hlocal : ∀ name, isLocal (user.definitionRef name)) :
    v.Tracked library owner := by
  have hmem := Library.mem_of_get? huser
  have hwritten : ∀ v : Visit, v.document = user → v.node.references ⊆ user.references →
      v.Tracked library owner := by
    rintro v rfl hsubset
    exact ⟨huser, fun reference h ↦ .written hmem (hsubset h), fun _ reference h ↦
      tracked_of_written htracks huser howner hother (hsubset h)⟩
  have hdefinition : ∀ {v : Visit} {name : String}, v.document = user →
      v.node = .ofKind (.reference (user.definitionRef name)) →
        library.Refers (user.definitionRef name) → v.Tracked library owner := by
    rintro v name rfl hnode hrefers
    have hreference : ∀ reference ∈ v.node.references,
        reference = v.document.definitionRef name := by
      rw [hnode]
      exact fun reference h ↦ List.mem_singleton.1 h
    refine ⟨huser, fun reference h ↦ hreference reference h ▸ hrefers, fun _ reference h ↦ ?_⟩
    rw [hreference reference h]
    exact tracked_of_isLocal hother (hlocal name)
  cases h with
  | definition hname =>
    exact hdefinition rfl rfl (.definition hmem (standalone_subset library settings user hname))
  | @method m v hm h =>
    obtain ⟨rfl, hmethod⟩ := id hm
    cases h with
    | param hparams h =>
      exact hwritten _ rfl (MethodPlace.references_subset hm hparams (List.mem_of_getElem? h))
    | result _ h =>
      exact hwritten _ rfl fun reference ↦
        Document.mem_references_of_result (List.mem_of_getElem? hmethod) h
    | federated hclass h => exact hdefinition rfl rfl (.federated hmem hm hclass h)

end Generate

/-- Wherever a mapper comes to in a run over another document, references are tracked. -/
theorem Visited.tracked {settings : Settings} {user : Document} {v : Visit}
    (h : Visited library (Generate.Root library settings user) v) (huris : library.HasUris)
    (htracks : library.Tracks owner) (howner : library.get? owner.uri = some owner)
    (huser : library.get? user.uri = some user) (hother : user ≠ owner)
    (hlocal : ∀ name, isLocal (user.definitionRef name)) : v.Tracked library owner := by
  induction h with
  | root h => exact h.tracked htracks howner huser hother hlocal
  | step _ hcomes ih => exact ih.comes huris htracks howner hcomes

end SchemaBindings
