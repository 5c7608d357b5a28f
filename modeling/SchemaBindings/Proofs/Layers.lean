import SchemaBindings.Proofs.Cycles
import SchemaBindings.Proofs.Heights
import SchemaBindings.Proofs.Loops

/-!
# Schemas without cycles

Where all references stay in one document and none leads back to itself, mappers find no cycles
and come to an end. What is on the chain need not stand around the schema that is mapped, since a
merged composition holds what was written behind references that have been left already. But
everything on the chain still leads to every reference of that schema, and strictly so. And the
schemas get less high from call to call if a reference is as deep as all that is behind it.
-/

namespace SchemaBindings

open Mapping

/-- The reference is written under the schema that is read at the fragment. -/
def Document.Refers (document : Document) (fragment reference : String) : Prop :=
  ∃ value node, document.fragment? fragment = some value ∧
    Node.read (document.schemaPath fragment) value = .ok node ∧ reference ∈ node.references

/-- The reference is written under the schema, or under one that its references lead to. -/
def Document.Meets (document : Document) (node : Node) (reference : String) : Prop :=
  ∃ first ∈ node.references, Relation.ReflTransGen document.Refers first reference

/-- All references that are met from the schema on are local and are found, and none of them leads
back to itself. -/
structure Library.Layered (library : Library) (document : Document) (start : Node) : Prop where
  isLocal : ∀ {reference}, document.Meets start reference → isLocal reference
  resolves : ∀ {reference}, document.Meets start reference →
    ∃ place target, library.resolve document reference place = .ok target
  acyclic : ∀ {reference}, document.Meets start reference →
    ¬Relation.TransGen document.Refers reference reference

section

variable {library : Library} {document : Document} {start : Node} {fragment reference : String}

theorem Document.Meets.refers (h : document.Meets start fragment)
    (hrefers : document.Refers fragment reference) : document.Meets start reference := by
  obtain ⟨first, hfirst, hreaches⟩ := h
  exact ⟨first, hfirst, hreaches.tail hrefers⟩

theorem Document.Meets.reaches (h : document.Meets start fragment)
    (hreaches : Relation.ReflTransGen document.Refers fragment reference) :
    document.Meets start reference := by
  obtain ⟨first, hfirst, hbefore⟩ := h
  exact ⟨first, hfirst, hbefore.trans hreaches⟩

/-- A local reference leads to the fragment that it names, in the same document. -/
structure Library.LeadsTo (document : Document) (reference : String) (target : Target) : Prop where
  owner_eq : target.owner = document
  isExternal_eq : target.isExternal = false
  key_eq : target.key = document.uri ++ reference
  refers_iff : ∀ {found}, document.Refers reference found ↔ found ∈ target.node.references

theorem Library.leadsTo_of_resolve {place : String} {target : Target}
    (h : library.resolve document reference place = .ok target) (hlocal : isLocal reference) :
    LeadsTo document reference target := by
  obtain ⟨fragment, value, hplace, hvalue, hread, -, -, hkey, -⟩ := Library.resolve_eq_ok h
  rw [Library.place?_of_isLocal hlocal] at hplace
  obtain ⟨howner, hfragment⟩ := Prod.mk.inj (Option.some.inj hplace)
  subst hfragment
  rw [← howner] at hvalue hread hkey
  refine ⟨howner.symm, Library.isExternal_of_owner_eq h howner.symm, hkey, fun {found} ↦ ⟨?_, ?_⟩⟩
  · rintro ⟨value', node, hvalue', hread', hfound⟩
    cases hvalue.symm.trans hvalue'
    cases hread.symm.trans hread'
    exact hfound
  · exact fun hfound ↦ ⟨value, target.node, hvalue, hread, hfound⟩

theorem Library.LeadsTo.refers {target : Target} (h : LeadsTo document reference target)
    {found : String} (hfound : found ∈ target.node.references) :
    document.Refers reference found :=
  h.refers_iff.2 hfound

end

/-! ## Weights of references -/

section Weights

variable {library : Library} {document : Document} {start : Node} {fragment reference : String}

/-- All references that can be met from the schema on. -/
def Document.textsFrom (document : Document) (start : Node) : List String :=
  start.references ++ document.content.texts

theorem Document.Refers.mem_texts (h : document.Refers fragment reference) :
    reference ∈ document.textsFrom start := by
  obtain ⟨value, node, hvalue, hread, hmem⟩ := h
  have htext := Node.mem_texts_of_read hread ((Node.mem_references node).1 hmem)
  exact List.mem_append_right _ (Document.mem_texts_of_fragment? hvalue htext)

open Classical in
/-- How many references a fragment leads to. -/
noncomputable def Document.rank (document : Document) (start : Node) (fragment : String) : Nat :=
  ((document.textsFrom start).filter
    fun reference ↦ Relation.TransGen document.Refers fragment reference).length

theorem Document.rank_le (document : Document) (start : Node) (fragment : String) :
    document.rank start fragment ≤ (document.textsFrom start).length :=
  List.length_filter_le _ _

open Classical in
/-- A reference leads to fewer others than the fragment under which it is written. -/
theorem Library.Layered.rank_lt (h : library.Layered document start)
    (hmeets : document.Meets start fragment) (hrefers : document.Refers fragment reference) :
    document.rank start reference < document.rank start fragment := by
  have hfilter : (document.textsFrom start).filter
        (fun other ↦ Relation.TransGen document.Refers reference other) =
      ((document.textsFrom start).filter fun other ↦
        Relation.TransGen document.Refers fragment other).filter fun other ↦
          Relation.TransGen document.Refers reference other := by
    rw [List.filter_filter]
    congr 1
    funext other
    rw [Bool.eq_iff_iff]
    simpa using fun hother ↦ Relation.TransGen.head hrefers hother
  unfold Document.rank
  rw [hfilter, List.length_filter_lt_length_iff_exists]
  refine ⟨reference, List.mem_filter.2 ⟨hrefers.mem_texts, ?_⟩, ?_⟩
  · simpa using Relation.TransGen.single hrefers
  · simpa using h.acyclic (hmeets.refers hrefers)

/-- The height of what a reference leads to, where what is behind so many references is left
out. -/
def Library.level (library : Library) (document : Document) : Nat → String → Nat
  | 0, _ => 0
  | hops + 1, reference =>
    match library.resolve document reference "" with
    | .ok target => target.node.height (library.level document hops)
    | .error _ => 0

/-- One more reference makes no difference where no more than these are followed. -/
theorem Library.Layered.level_succ (h : library.Layered document start) {hops : Nat}
    (hmeets : document.Meets start reference) (hrank : document.rank start reference < hops) :
    library.level document (hops + 1) reference = library.level document hops reference := by
  induction hops generalizing reference with
  | zero => cases hrank
  | succ hops ih =>
    obtain ⟨place, target, htarget⟩ := h.resolves hmeets
    have hleads := Library.leadsTo_of_resolve htarget (h.isLocal hmeets)
    rw [Library.level, Library.level, Library.resolve_place htarget ""]
    refine Node.height_congr target.node fun found hm ↦ ?_
    have hrefers := hleads.refers ((Node.mem_references target.node).2 hm)
    have hlower := h.rank_lt hmeets hrefers
    exact ih (hmeets.refers hrefers) (by omega)

/-- A reference is as deep as all that is behind it. -/
def Library.Weighs (library : Library) (document : Document) (start : Node)
    (weigh : String → Nat) : Prop :=
  ∀ {reference place target}, document.Meets start reference →
    library.resolve document reference place = .ok target →
      target.node.height weigh ≤ weigh reference

theorem Library.Layered.exists_weighs (h : library.Layered document start) :
    ∃ weigh, library.Weighs document start weigh := by
  refine ⟨library.level document ((document.textsFrom start).length + 1), ?_⟩
  intro reference place target hmeets htarget
  have hrank := document.rank_le start reference
  rw [← h.level_succ hmeets (Nat.lt_succ_of_le hrank), Library.level,
    Library.resolve_place htarget ""]

end Weights

/-! ## Compositions -/

section Compositions

variable {library : Library} {document : Document} {start : Node}
  (h : library.Layered document start)
include h

/-- What a composition is flattened to stands in the same document, its references come behind
those of the composition, and it is not higher. -/
theorem Library.Layered.reaches {o o' : Occurrence} (hreaches : o.Reaches library o')
    (hhome : o.home = document) (hforeign : o.isForeign = false)
    (hmeets : ∀ {reference}, reference ∈ o.node.references → document.Meets start reference) :
    o'.home = document ∧ o'.isForeign = false ∧
      (∀ {reference}, reference ∈ o'.node.references → ∃ first ∈ o.node.references,
        Relation.ReflTransGen document.Refers first reference) ∧
      ∀ {weigh}, library.Weighs document start weigh →
        o'.node.height weigh ≤ o.node.height weigh := by
  induction hreaches with
  | refl => exact ⟨hhome, hforeign, fun hmem ↦ ⟨_, hmem, .refl⟩, fun _ ↦ Nat.le_refl _⟩
  | @tail between _ _ hlast ih =>
    obtain ⟨hhome', hforeign', hbehind, hheight⟩ := ih
    cases hlast with
    | @reference reference place target hkind htarget =>
      have hmem := Node.mem_references_of_kind hkind
      obtain ⟨first, hfirst, hfirstReaches⟩ := hbehind hmem
      have hmeets' := (hmeets hfirst).reaches hfirstReaches
      have hcopy : between.copyReference reference = reference := if_neg (by simp [hforeign'])
      rw [hhome', hcopy] at htarget
      have hleads := Library.leadsTo_of_resolve htarget (h.isLocal hmeets')
      refine ⟨hleads.owner_eq, hleads.isExternal_eq, fun hfound ↦ ?_, fun hweighs ↦ ?_⟩
      · exact ⟨first, hfirst, hfirstReaches.tail (hleads.refers hfound)⟩
      · have hbetween := hheight hweighs
        have hweight := hweighs hmeets' htarget
        rw [Node.height_eq _ between.node, hkind] at hbetween
        exact hweight.trans ((Nat.le_succ _).trans hbetween)
    | @member nodes node hkind hnode =>
      refine ⟨hhome', hforeign', fun hmem ↦ hbehind ?_, fun hweighs ↦ ?_⟩
      · rw [Node.mem_references, Node.mentions_eq, hkind]
        exact mem_listMentions.2 ⟨node, hnode, (Node.mem_references node).1 hmem⟩
      · have hinner : node ∈ between.node.kind.inner := by rwa [hkind]
        exact (Nat.le_of_lt (Node.height_inner_lt hinner)).trans (hheight hweighs)

variable {node : Node} {members : List Node} (hkind : node.kind = .allOf members)
  (hmeets : ∀ {reference}, reference ∈ node.references → document.Meets start reference)
include hkind

omit h in
theorem Node.references_member {member : Node} (hmember : member ∈ members) {reference : String}
    (hmem : reference ∈ member.references) : reference ∈ node.references := by
  rw [Node.mem_references, Node.mentions_eq, hkind]
  exact mem_listMentions.2 ⟨member, hmember, (Node.mem_references member).1 hmem⟩

include hmeets

section Merged

variable {budget : Nat} {merged : Node} {path : String} {session session' : Session}
  (hmerge : mergeAllOf library budget document node members path session =
    some (.ok merged, session'))
include hmerge

theorem Library.Layered.references_merged {reference : String}
    (hmem : reference ∈ merged.references) : ∃ first ∈ node.references,
      Relation.ReflTransGen document.Refers first reference := by
  obtain ⟨member, hmember, o, hreaches, hcopy⟩ :=
    exists_reaches_of_mergeAllOf hmerge ((Node.mem_references merged).1 hmem)
  have hwhole : ∀ {reference}, reference ∈ member.references → reference ∈ node.references :=
    Node.references_member hkind hmember
  obtain ⟨-, hforeign, hbehind, -⟩ :=
    h.reaches hreaches rfl rfl fun hwritten ↦ hmeets (hwhole hwritten)
  obtain ⟨written, hwritten, rfl⟩ := Occurrence.reference_of_copy hcopy
  have hsame : o.copyReference written = written := if_neg (by simp [hforeign])
  rw [hsame]
  obtain ⟨first, hfirst, hfirstReaches⟩ := hbehind ((Node.mem_references o.node).2 hwritten)
  exact ⟨first, hwhole hfirst, hfirstReaches⟩

/-- A composition merges into something less high. -/
theorem Library.Layered.height_merged_lt {weigh : String → Nat}
    (hweighs : library.Weighs document start weigh) : merged.height weigh < node.height weigh := by
  obtain ⟨kinds, between, hkinds, hrest⟩ := bind_eq_ok.1 hmerge
  obtain ⟨kind, last, hfound, hpure⟩ := bind_eq_ok.1 hrest
  obtain ⟨hmerged, -⟩ := ofExcept_eq_ok.1 hfound
  cases hpure
  have hmembers : ∀ kind ∈ kinds, kind.height weigh ≤ listHeight weigh members := by
    intro kind hmem
    obtain ⟨member, hmember, _, _, _, found, hcollect, hfound⟩ :=
      Flatten.mem_of_members hkinds hmem
    obtain ⟨o, hreaches, hcopy⟩ :=
      Flatten.exists_reaches_of_collect (o := ⟨document, member, false⟩) hcollect hfound
    obtain ⟨-, hforeign, -, hheight⟩ := h.reaches hreaches rfl rfl fun hwritten ↦
      hmeets (Node.references_member hkind hmember hwritten)
    have hsame : o.copy = o.node := if_neg (by simp [hforeign])
    rw [← hcopy, hsame, ← Node.height_eq]
    exact (hheight hweighs).trans (listHeight_le.1 (Nat.le_refl _) member hmember)
  have hkind' := height_mergeKinds_le hmerged hmembers
  rw [Node.height_eq weigh node, hkind]
  change kind.withoutRequired.height weigh < _
  rw [Kind.height_withoutRequired]
  exact Nat.lt_succ_of_le hkind'

end Merged

end Compositions

/-! ## Nests of calls -/

theorem Node.Part.height_lt {weigh : String → Nat} {part whole : Node} (h : Part part whole) :
    part.height weigh < whole.height weigh :=
  Node.height_inner_lt h.mem_inner

theorem Node.Within.height_lt {weigh : String → Nat} {part whole : Node} (h : Within part whole) :
    part.height weigh < whole.height weigh := by
  induction h with
  | single h => exact h.height_lt
  | tail _ h ih => exact ih.trans h.height_lt

/-- The call is for a schema whose references are met from the start, and everything that is being
followed leads on to each of them. -/
structure Call.Below (document : Document) (start : Node) (call : Call) : Prop where
  document_eq : call.document = document
  meets : ∀ {reference}, reference ∈ call.node.references → document.Meets start reference
  chain : ∀ key ∈ call.session.chain, ∃ fragment, key = document.uri ++ fragment ∧
    ∀ reference ∈ call.node.references, Relation.TransGen document.Refers fragment reference

section Below

variable {library : Library} {walk : Walk} {document : Document} {start : Node} {call call' : Call}

theorem Call.below_of_chain_eq_nil {node : Node} {request : Request} {session : Session}
    (hchain : session.chain = []) : Below document node ⟨document, node, request, session⟩ where
  document_eq := rfl
  meets hmem := ⟨_, hmem, .refl⟩
  chain key hkey := by
    dsimp only at hkey
    rw [hchain] at hkey
    cases hkey

/-- A call in the same document, for a schema whose references come behind those of this one. -/
theorem Call.Below.behind (h : call.Below document start)
    (hdocument : call'.document = call.document)
    (hchain : call'.session.chain = call.session.chain)
    (hbehind : ∀ {reference}, reference ∈ call'.node.references →
      ∃ first ∈ call.node.references, Relation.ReflTransGen document.Refers first reference) :
    call'.Below document start where
  document_eq := hdocument.trans h.document_eq
  meets hmem := by
    obtain ⟨first, hfirst, hreaches⟩ := hbehind hmem
    exact (h.meets hfirst).reaches hreaches
  chain key hkey := by
    rw [hchain] at hkey
    obtain ⟨fragment, hfragment, hleads⟩ := h.chain key hkey
    refine ⟨fragment, hfragment, fun reference hmem ↦ ?_⟩
    obtain ⟨first, hfirst, hreaches⟩ := hbehind hmem
    exact (hleads first hfirst).trans_left hreaches

variable (hlayered : library.Layered document start) (h : call.Below document start)
include hlayered h

/-- What is asked for is below again, and it is less high. -/
theorem Call.Below.asks (hwalk : walk.KeepsChain) (hasks : Asks library walk call call') :
    call'.Below document start ∧ ∀ {weigh}, library.Weighs document start weigh →
      call'.node.height weigh < call.node.height weigh := by
  obtain ⟨reference, target, hkind, htarget, -, rfl⟩ | ⟨hreference, hsame, hnext⟩ := hasks.leads
  · have hmem := Node.mem_references_of_kind hkind
    have hmeets := h.meets hmem
    rw [h.document_eq] at htarget
    have hleads := Library.leadsTo_of_resolve htarget (hlayered.isLocal hmeets)
    refine ⟨⟨hleads.owner_eq, fun hfound ↦ hmeets.refers (hleads.refers hfound), ?_⟩,
      fun hweighs ↦ ?_⟩
    · rintro key (_ | ⟨_, hkey⟩)
      · exact ⟨reference, hleads.key_eq, fun found hfound ↦ .single (hleads.refers hfound)⟩
      · obtain ⟨fragment, hfragment, hbefore⟩ := h.chain key hkey
        exact ⟨fragment, hfragment, fun found hfound ↦
          (hbefore reference hmem).tail (hleads.refers hfound)⟩
    · rw [Node.height_eq _ call.node, hkind]
      exact Nat.lt_succ_of_le (hweighs hmeets htarget)
  · have hchain := hasks.chain_eq hwalk hreference
    obtain hwithin | ⟨members, merged, budget, session', hkind, hmerge, hmerged⟩ := hnext
    · refine ⟨h.behind hsame hchain fun hmem ↦ ⟨_, ?_, .refl⟩, fun _ ↦ hwithin.height_lt⟩
      rw [Node.mem_references] at hmem ⊢
      exact hwithin.mem_mentions hmem
    · rw [h.document_eq] at hmerge
      refine ⟨h.behind hsame hchain fun hmem ↦ ?_, fun hweighs ↦ ?_⟩
      · refine hlayered.references_merged hkind h.meets hmerge ?_
        rwa [Node.mem_references, Node.mentions_eq, ← hmerged, ← Node.mentions_eq,
          ← Node.mem_references]
      · rw [Node.height_eq _ call'.node, hmerged, ← Node.height_eq]
        exact hlayered.height_merged_lt hkind h.meets hmerge hweighs

theorem Call.Below.nest (hwalk : walk.KeepsChain)
    (hnest : Relation.ReflTransGen (Asks library walk) call call') :
    call'.Below document start := by
  induction hnest with
  | refl => exact h
  | tail _ hasks ih => exact (ih.asks hlayered hwalk hasks).1

/-- Calls get less high, so a mapper that has a result as soon as all mappers have one that it
asks comes to an end. -/
theorem Call.Below.exists_ends (hwalk : walk.KeepsChain) {ends : Nat → Call → Prop}
    (hends : ∀ call, (∀ call', Asks library walk call call' → ∃ budget, ends budget call') →
      ∃ budget, ends budget call) : ∃ budget, ends budget call := by
  obtain ⟨weigh, hweighs⟩ := hlayered.exists_weighs
  induction hheight : call.node.height weigh using Nat.strong_induction_on generalizing call with
  | _ height ih =>
    refine hends call fun call' hasks ↦ ?_
    obtain ⟨hbelow, hlt⟩ := h.asks hlayered hwalk hasks
    exact ih _ (hheight ▸ hlt hweighs) hbelow rfl

end Below

section Ways

variable {library : Library} {document : Document} {start : Node}
  (hlayered : library.Layered document start)
include hlayered

/-- A way from a schema passes fragments that its references lead to, each of them leads to all
later ones. -/
theorem Passes.exists_fragments {node found : Node} {keys : List String} {current last : Document}
    (h : Passes library current node keys last found) (hcurrent : current = document)
    (hmeets : ∀ {reference}, reference ∈ node.references → document.Meets start reference) :
    ∃ fragments : List String, keys = fragments.map (document.uri ++ ·) ∧
      fragments.Pairwise (Relation.TransGen document.Refers) ∧
      ∀ fragment ∈ fragments, ∃ first ∈ node.references,
        Relation.ReflTransGen document.Refers first fragment := by
  induction h with
  | here => exact ⟨[], rfl, .nil, nofun⟩
  | @member _ _ node member _ _ _ hkind hmember _ ih =>
    have hwhole : ∀ {reference}, reference ∈ member.references → reference ∈ node.references :=
      Node.references_member hkind hmember
    obtain ⟨fragments, hkeys, hpairs, hbehind⟩ := ih hcurrent fun hmem ↦ hmeets (hwhole hmem)
    refine ⟨fragments, hkeys, hpairs, fun fragment hfragment ↦ ?_⟩
    obtain ⟨first, hfirst, hreaches⟩ := hbehind fragment hfragment
    exact ⟨first, hwhole hfirst, hreaches⟩
  | @reference _ _ _ _ reference place target keys hkind htarget _ ih =>
    rw [hcurrent] at htarget
    have hmem := Node.mem_references_of_kind hkind
    have hleads := Library.leadsTo_of_resolve htarget (hlayered.isLocal (hmeets hmem))
    obtain ⟨fragments, rfl, hpairs, hbehind⟩ :=
      ih hleads.owner_eq fun hfound ↦ (hmeets hmem).refers (hleads.refers hfound)
    have hlater : ∀ fragment ∈ fragments,
        Relation.TransGen document.Refers reference fragment := by
      intro fragment hfragment
      obtain ⟨first, hfirst, hreaches⟩ := hbehind fragment hfragment
      exact .head' (hleads.refers hfirst) hreaches
    refine ⟨reference :: fragments, congrArg (· :: _) hleads.key_eq, hpairs.cons hlater, ?_⟩
    rintro fragment (_ | ⟨_, hfragment⟩)
    · exact ⟨reference, hmem, .refl⟩
    · exact ⟨reference, hmem, (hlater fragment hfragment).to_reflTransGen⟩

/-- No call below the start finds a cycle. -/
theorem Call.Below.not_closes {call : Call} (h : call.Below document start) {keys : List String}
    {place : String} : ¬call.Closes library keys place := by
  intro hcloses
  cases hcloses with
  | @reference home node _ session reference target hkind htarget hkey =>
    obtain rfl : document = home := h.document_eq.symm
    have hmem := Node.mem_references_of_kind hkind
    have hmeets := h.meets hmem
    have hleads := Library.leadsTo_of_resolve htarget (hlayered.isLocal hmeets)
    obtain ⟨fragment, hfragment, hbefore⟩ := h.chain _ hkey
    rw [hleads.key_eq, String.append_right_inj] at hfragment
    exact hlayered.acyclic hmeets (hfragment ▸ hbefore reference hmem)
  | @composition home node _ session session' members budget keys place hkind hmerge =>
    obtain rfl : document = home := h.document_eq.symm
    obtain ⟨member, hmember, _, _, hfails⟩ := members_of_mergeAllOf hmerge
    obtain ⟨passed, last, _, _, hpasses, -, hlast⟩ := Flatten.exists_passes_of_collect
      (o := ⟨document, member, false⟩) nofun hfails
    have hwhole : ∀ {reference}, reference ∈ member.references → reference ∈ node.references :=
      Node.references_member hkind hmember
    obtain ⟨fragments, hkeys, hpairs, hbehind⟩ :=
      hpasses.exists_fragments hlayered rfl fun hmem ↦ h.meets (hwhole hmem)
    obtain ⟨before, after, rfl, rfl, hafter⟩ := List.map_eq_append_iff.1 hkeys.symm
    obtain ⟨fragment, rfl, rfl⟩ := List.map_eq_singleton_iff.1 hafter
    obtain ⟨first, hfirst, hreaches⟩ := hbehind fragment (by simp)
    have hmeets := (h.meets (hwhole hfirst)).reaches hreaches
    refine hlayered.acyclic hmeets ?_
    obtain hchain | hagain := hlast
    · obtain ⟨other, hother, hbefore⟩ := h.chain _ hchain
      rw [String.append_right_inj] at hother
      subst hother
      exact (hbefore first (hwhole hfirst)).trans_left hreaches
    · obtain ⟨other, hother, heq⟩ := List.mem_map.1 hagain
      rw [String.append_right_inj] at heq
      exact (List.pairwise_append.1 hpairs).2.2 fragment (heq ▸ hother) fragment (.head _)

end Ways

/-- If all references that are met from a schema on are local and are found, and none of them leads
back to itself, then the schema is mapped to its native type and to its wire type while no
reference is being followed, and neither mapping fails by a cycle. -/
theorem layered_schemas_find_no_cycle (cx : Context) {document : Document} {node : Node}
    (h : cx.library.Layered document node) (request : Request) {session : Session}
    (hchain : session.chain = []) :
    ((∃ result session', Native.Ends cx document node request session result session') ∧
      ∀ keys place session', ¬Native.Ends cx document node request session
        (.error (.cyclicReference keys place)) session') ∧
    (∃ result session', Wire.Ends cx document node request session result session') ∧
      ∀ keys place session', ¬Wire.Ends cx document node request session
        (.error (.cyclicReference keys place)) session' := by
  have hbelow : Call.Below document node ⟨document, node, request, session⟩ :=
    Call.below_of_chain_eq_nil hchain
  refine ⟨⟨?_, ?_⟩, ?_, ?_⟩
  · exact Native.exists_ends_iff.2
      (hbelow.exists_ends h Native.walk_keepsChain Native.exists_answers)
  · rintro keys place session' ⟨budget, hrun⟩
    obtain ⟨last, hnest, hcloses⟩ := Native.map_cycles _ _ _ _ _ _ _ _ hrun
    exact (hbelow.nest h Native.walk_keepsChain hnest).not_closes h hcloses
  · exact Wire.exists_ends_iff.2 (hbelow.exists_ends h Wire.walk_keepsChain Wire.exists_answers)
  · rintro keys place session' ⟨budget, hrun⟩
    obtain ⟨last, hnest, hcloses⟩ := Wire.map_cycles _ _ _ _ _ _ _ _ hrun
    exact (hbelow.nest h Wire.walk_keepsChain hnest).not_closes h hcloses

namespace Diamond

/-- A composition of two compositions that share a member, one of which holds an object behind
it. -/
def content : Json := .object [("title", .string "Radio"), ("definitions", .object [
  ("Base", .object [("type", .string "object"), ("properties", .object [
    ("id", .object [("type", .string "string")])])]),
  ("Left", .object [("allOf", .array [.object [("$ref", .string "#/definitions/Base")]])]),
  ("Right", .object [("allOf", .array [
    .object [("$ref", .string "#/definitions/Base")],
    .object [("type", .string "object"), ("properties", .object [
      ("left", .object [("$ref", .string "#/definitions/Left")])])]])]),
  ("Tuner", .object [("allOf", .array [
    .object [("allOf", .array [.object [("$ref", .string "#/definitions/Left")]])],
    .object [("$ref", .string "#/definitions/Right")]])])])]

theorem isSome_read : (Document.read content).toOption.isSome := by decide +kernel

def radio : Document := (Document.read content).toOption.get isSome_read

def cx : Context := ⟨⟨[radio]⟩, {}⟩

def tuner : Node := .ofKind (.reference "#/definitions/Tuner")

/-- The references of the document, each with how many others it leads to. -/
def layers : List (String × Nat) := [("#/definitions/Tuner", 3), ("#/definitions/Right", 2),
  ("#/definitions/Left", 1), ("#/definitions/Base", 0)]

/-- Whether the reference leads to a schema that holds only references to lower layers. -/
def leadsDown (layer : String × Nat) : Bool :=
  match cx.library.resolve radio layer.1 "" with
  | .ok target => target.node.references.all fun found ↦
    layers.any fun lower ↦ lower.1 = found ∧ lower.2 < layer.2
  | .error _ => false

theorem layers_leadDown : ∀ layer ∈ layers, isLocal layer.1 ∧ leadsDown layer := by
  decide +kernel

theorem resolves {layer : String × Nat} (h : layer ∈ layers) :
    ∃ target, cx.library.resolve radio layer.1 "" = .ok target ∧
      ∀ found ∈ target.node.references, ∃ lower ∈ layers, lower.1 = found ∧ lower.2 < layer.2 := by
  have hdown := (layers_leadDown layer h).2
  unfold leadsDown at hdown
  cases htarget : cx.library.resolve radio layer.1 "" with
  | error failure =>
    rw [htarget] at hdown
    cases hdown
  | ok target =>
    rw [htarget] at hdown
    exact ⟨target, rfl, by simpa using hdown⟩

/-- What a layer leads to is lower. -/
theorem lower_of_transGen {layer : String × Nat} (h : layer ∈ layers) {reference : String}
    (hreaches : Relation.TransGen radio.Refers layer.1 reference) :
    ∃ lower ∈ layers, lower.1 = reference ∧ lower.2 < layer.2 := by
  have hstep : ∀ {layer : String × Nat}, layer ∈ layers → ∀ {found},
      radio.Refers layer.1 found → ∃ lower ∈ layers, lower.1 = found ∧ lower.2 < layer.2 := by
    intro layer h found hrefers
    obtain ⟨target, htarget, hlower⟩ := resolves h
    have hleads := Library.leadsTo_of_resolve htarget (layers_leadDown layer h).1
    exact hlower found (hleads.refers_iff.1 hrefers)
  induction hreaches with
  | single hrefers => exact hstep h hrefers
  | tail _ hrefers ih =>
    obtain ⟨between, hbetween, rfl, hlt⟩ := ih
    obtain ⟨lower, hlower, hname, hlt'⟩ := hstep hbetween hrefers
    exact ⟨lower, hlower, hname, hlt'.trans hlt⟩

theorem layer_of_meets {reference : String} (h : radio.Meets tuner reference) :
    ∃ layer ∈ layers, layer.1 = reference := by
  obtain ⟨first, hfirst, hreaches⟩ := h
  obtain rfl : first = "#/definitions/Tuner" := List.mem_singleton.1 hfirst
  obtain rfl | hreaches := Relation.reflTransGen_iff_eq_or_transGen.1 hreaches
  · exact ⟨_, .head _, rfl⟩
  · obtain ⟨lower, hlower, hname, -⟩ := lower_of_transGen (.head _) hreaches
    exact ⟨lower, hlower, hname⟩

theorem layered : cx.library.Layered radio tuner where
  isLocal h := by
    obtain ⟨layer, hlayer, rfl⟩ := layer_of_meets h
    exact (layers_leadDown layer hlayer).1
  resolves h := by
    obtain ⟨layer, hlayer, rfl⟩ := layer_of_meets h
    obtain ⟨target, htarget, -⟩ := resolves hlayer
    exact ⟨"", target, htarget⟩
  acyclic h hloop := by
    obtain ⟨layer, hlayer, rfl⟩ := layer_of_meets h
    obtain ⟨lower, hlower, hname, hlt⟩ := lower_of_transGen hlayer hloop
    have hinjective : ∀ lower ∈ layers, ∀ layer ∈ layers, lower.1 = layer.1 → lower = layer := by
      decide
    cases hinjective lower hlower layer hlayer hname
    exact Nat.lt_irrefl _ hlt

theorem tuner_is_mapped :
    (∃ result session', Native.Ends cx radio tuner ⟨"tuner", "", "Radio#/tuner"⟩ {} result
      session') ∧
    ∃ result session', Wire.Ends cx radio tuner ⟨"tuner", "", "Radio#/tuner"⟩ {} result
      session' :=
  have h := layered_schemas_find_no_cycle cx layered ⟨"tuner", "", "Radio#/tuner"⟩ rfl
  ⟨h.1.1, h.2.1⟩

end Diamond

end SchemaBindings
