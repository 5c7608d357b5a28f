import SchemaBindings.Proofs.Halting
import SchemaBindings.Proofs.Occurrences

/-!
# Finitely many references

Whatever is met on the way from a schema stands in finitely many documents and refers to finitely
many things: to texts of the documents, and to such texts qualified once. So there are finitely
many keys that the chain of references can hold, and each reference that is followed leaves one
fewer of them. Flattening a composition follows references and goes from a composition to its
members, and therefore always comes to an end.
-/

namespace SchemaBindings

open Mapping

/-- Documents and texts that hold all that is met on the way. -/
structure Cover (library : Library) where
  documents : List Document
  texts : List String
  library_subset : library.documents ⊆ documents
  texts_subset : ∀ document ∈ documents, document.content.texts ⊆ texts

namespace Cover

variable {library : Library} (cover : Cover library)

/-- References as they are written or copied. -/
def copies : List String :=
  cover.texts ++ cover.documents.flatMap fun document ↦
    cover.texts.map (qualifyReference document.uri)

def keys : List String :=
  cover.documents.flatMap fun document ↦
    cover.copies.map fun reference ↦ document.uri ++ (splitReference reference).2

/-- How many more references can be followed below a chain. -/
def free (chain : List String) : Nat := (cover.keys.filter fun key ↦ key ∉ chain).length

theorem free_cons_lt {key : String} {chain : List String} (hkey : key ∈ cover.keys)
    (hnew : key ∉ chain) : cover.free (key :: chain) < cover.free chain := by
  have hfilter : cover.keys.filter (fun other ↦ other ∉ key :: chain) =
      (cover.keys.filter fun other ↦ other ∉ chain).filter fun other ↦ other ≠ key := by
    rw [List.filter_filter]
    congr 1
    funext other
    simp [not_or]
  unfold free
  rw [hfilter, List.length_filter_lt_length_iff_exists]
  exact ⟨key, List.mem_filter.2 ⟨hkey, by simpa using hnew⟩, by simp⟩

/-- The schema refers only to what the cover holds. -/
structure Holds (document : Document) (node : Node) : Prop where
  document_mem : document ∈ cover.documents
  reference_mem : ∀ {reference}, .reference reference ∈ node.mentions → reference ∈ cover.copies

variable {cover}

/-- What a reference leads to refers to texts of its document only. -/
theorem target_mem {document : Document} (hdocument : document ∈ cover.documents)
    {reference place : String} {target : Target}
    (h : library.resolve document reference place = .ok target) :
    target.owner ∈ cover.documents ∧
      ∀ {found}, .reference found ∈ target.node.mentions → found ∈ cover.texts := by
  have howner : target.owner ∈ cover.documents := by
    obtain hcurrent | hmem := Library.owner_of_resolve h
    · rw [hcurrent]
      exact hdocument
    · exact cover.library_subset hmem
  refine ⟨howner, fun {found} hfound ↦ ?_⟩
  obtain ⟨fragment, value, -, hvalue, hread, -⟩ := Library.resolve_eq_ok h
  have htext : found ∈ value.texts := Node.mem_texts_of_read hread hfound
  exact cover.texts_subset _ howner (Document.mem_texts_of_fragment? hvalue htext)

theorem texts_subset_copies : cover.texts ⊆ cover.copies := List.subset_append_left _ _

theorem Holds.target {document : Document} (hdocument : document ∈ cover.documents)
    {reference place : String} {target : Target}
    (h : library.resolve document reference place = .ok target) :
    cover.Holds target.owner target.node :=
  have hmem := target_mem hdocument h
  ⟨hmem.1, fun hfound ↦ texts_subset_copies (hmem.2 hfound)⟩

theorem Holds.of_mentions {document : Document} {node node' : Node}
    (h : cover.Holds document node) (hsubset : ∀ {m}, m ∈ node'.mentions → m ∈ node.mentions) :
    cover.Holds document node' :=
  ⟨h.document_mem, fun hm ↦ h.reference_mem (hsubset hm)⟩

theorem key_mem {document : Document} (hdocument : document ∈ cover.documents)
    {reference place : String} (hreference : reference ∈ cover.copies) {target : Target}
    (h : library.resolve document reference place = .ok target) : target.key ∈ cover.keys := by
  obtain ⟨fragment, value, hplace, -, -, -, -, hkey, -⟩ := Library.resolve_eq_ok h
  rw [hkey, Library.fragment_of_place? hplace]
  exact List.mem_flatMap.2 ⟨target.owner, (target_mem hdocument h).1,
    List.mem_map.2 ⟨reference, hreference, rfl⟩⟩

/-- A schema met while flattening, written in a covered document: what was carried over from
another document refers to texts. -/
structure HoldsOccurrence (cover : Cover library) (o : Occurrence) : Prop where
  home_mem : o.home ∈ cover.documents
  reference_mem : ∀ {reference}, .reference reference ∈ o.node.mentions →
    reference ∈ if o.isForeign then cover.texts else cover.copies

theorem HoldsOccurrence.leads {o o' : Occurrence} (h : cover.HoldsOccurrence o)
    (hleads : o.Leads library o') : cover.HoldsOccurrence o' := by
  cases hleads with
  | reference hkind htarget =>
    obtain ⟨howner, htexts⟩ := target_mem h.home_mem htarget
    refine ⟨howner, fun hfound ↦ ?_⟩
    dsimp only
    split
    · exact htexts hfound
    · exact texts_subset_copies (htexts hfound)
  | member hkind hnode =>
    refine ⟨h.home_mem, fun hfound ↦ h.reference_mem ?_⟩
    rw [Node.mentions_eq, hkind]
    exact mem_listMentions.2 ⟨_, hnode, hfound⟩

theorem HoldsOccurrence.reaches {o o' : Occurrence} (h : cover.HoldsOccurrence o)
    (hreaches : o.Reaches library o') : cover.HoldsOccurrence o' := by
  induction hreaches with
  | refl => exact h
  | tail _ hlast ih => exact ih.leads hlast

theorem HoldsOccurrence.copyReference_mem {o : Occurrence} (h : cover.HoldsOccurrence o)
    {reference : String} (hreference : .reference reference ∈ o.node.mentions) :
    o.copyReference reference ∈ cover.copies := by
  have hmem := h.reference_mem hreference
  unfold Occurrence.copyReference
  split
  · rw [if_pos ‹_›] at hmem
    refine List.mem_append_right _ (List.mem_flatMap.2 ⟨o.home, h.home_mem, ?_⟩)
    exact List.mem_map.2 ⟨reference, hmem, rfl⟩
  · rw [if_neg ‹_›] at hmem
    exact hmem

theorem Holds.occurrence {document : Document} {node : Node} (h : cover.Holds document node) :
    cover.HoldsOccurrence ⟨document, node, false⟩ :=
  ⟨h.document_mem, h.reference_mem⟩

end Cover

/-! ## Flattening ends -/

namespace Flatten

variable {library : Library} {cover : Cover library}

theorem exists_halts_members {document : Document} {session : Session} {nodes : List Node}
    (h : ∀ node ∈ nodes, ∀ path, ∃ budget,
      (collect library budget document path node).Halts session) (path : String) (position : Nat) :
    ∃ budget, (members (collect library budget) document path position nodes).Halts session := by
  induction nodes generalizing position with
  | nil => exact ⟨0, total_pure [] session⟩
  | cons node rest ih =>
    have hrest := ih (fun node hnode ↦ h node (List.mem_cons_of_mem _ hnode)) (position + 1)
    refine exists_halts_bind_of_refines (fun hle ↦ collect_refines library hle _ _ _)
      (fun hle kinds ↦ (members_refines library hle _ _ _ _).bind
        fun _ ↦ .refl _)
      (h node List.mem_cons_self _) fun budget kinds between hkinds ↦ ?_
    obtain ⟨rfl, -⟩ := (collect_static library _ _ _ _).run_of_chain_eq hkinds rfl
    obtain ⟨budget', hrest⟩ := hrest
    exact ⟨budget', (halts_bind_total fun _ ↦ total_pure _).2 hrest⟩

theorem exists_halts_collect {o : Occurrence} (h : cover.HoldsOccurrence o) (path : String)
    (session : Session) :
    ∃ budget, (collect library budget o.home path o.copy).Halts session := by
  obtain ⟨copy, hcopy⟩ : ∃ copy, o.copy = copy := ⟨o.copy, rfl⟩
  obtain ⟨title, description, copied⟩ := copy
  have hcopied : o.copy.kind = copied := congrArg Node.kind hcopy
  rw [hcopy]
  suffices hstep : ∃ budget, (step library (collect library budget) o.home path
      (.mk title description copied)).Halts session by
    obtain ⟨budget, hbudget⟩ := hstep
    exact ⟨budget + 1, hbudget⟩
  cases copied with
  | reference copied =>
    obtain ⟨reference, hreference, rfl⟩ := Occurrence.copy_eq_reference hcopied
    have hmention : .reference reference ∈ o.node.mentions := by
      rw [Node.mentions_eq, hreference]
      exact List.mem_singleton_self _
    refine exists_halts_ofExcept_bind fun target htarget ↦ ?_
    refine exists_halts_following fun hkey ↦ ?_
    have hmem : target.key ∈ cover.keys :=
      Cover.key_mem h.home_mem (h.copyReference_mem hmention) htarget
    have hfree : cover.free (session.push target.key).chain < cover.free session.chain :=
      cover.free_cons_lt hmem hkey
    exact exists_halts_collect (h.leads (.reference hreference htarget)) target.path
      (session.push target.key)
  | allOf copies =>
    obtain ⟨nodes, hnodes, rfl⟩ := Occurrence.copy_eq_allOf hcopied
    refine exists_halts_members ?_ (Pointer.child path "allOf") 0
    intro copy hmem path
    obtain ⟨node, hnode, rfl⟩ := List.mem_map.1 hmem
    have hsize : sizeOf node < sizeOf o.node := by
      have hlist := List.sizeOf_lt_of_mem hnode
      obtain ⟨home, ⟨title, description, kind⟩, isForeign⟩ := o
      cases hnodes
      simp only [Node.mk.sizeOf_spec, Kind.allOf.sizeOf_spec]
      omega
    exact exists_halts_collect (o := { o with node := node })
      (h.leads (.member hnodes hnode)) path session
  | oneOf members => exact ⟨0, total_fail _ session⟩
  | anyOf members => exact ⟨0, total_fail _ session⟩
  | _ => exact ⟨0, total_pure _ session⟩
  termination_by (cover.free session.chain, sizeOf o.node)

end Flatten

/-- Merging a composition always comes to an end. -/
theorem exists_halts_mergeAllOf {library : Library} {cover : Cover library} {document : Document}
    {members : List Node} (h : ∀ member ∈ members, cover.Holds document member) (outer : Node)
    (path : String) (session : Session) :
    ∃ budget, (mergeAllOf library budget document outer members path).Halts session := by
  obtain ⟨budget, hbudget⟩ := Flatten.exists_halts_members
    (fun member hmember path ↦ Flatten.exists_halts_collect (h member hmember).occurrence path
      session) (Pointer.child path "allOf") 0
  refine ⟨budget, (halts_bind_total fun kinds ↦ ?_).2 hbudget⟩
  exact (total_ofExcept _).bind fun _ ↦ total_pure _

end SchemaBindings
