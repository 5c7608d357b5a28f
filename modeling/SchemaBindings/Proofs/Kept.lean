import Mathlib.Data.List.Perm.Subperm
import SchemaBindings.Output.Keep
import SchemaBindings.Proofs.Resolution

/-!
# Kept definitions

The definitions of a document that are kept contain those that other documents refer to, and are
closed under the references of the document itself. Every round that does not end the search brings
in a new definition, so that as many rounds as there are definitions are enough.
-/

namespace SchemaBindings

/-- References in the schemas that a document declares. -/
def Document.references (document : Document) : List String :=
  (Keep.schemas document).flatMap Node.references

theorem Document.mem_references {document : Document} {name reference : String} {node : Node}
    (hnode : (name, node) ∈ document.definitions) (h : reference ∈ node.references) :
    reference ∈ document.references :=
  List.mem_flatMap.2 ⟨node, List.mem_append_left _ (List.mem_map.2 ⟨_, hnode, rfl⟩), h⟩

namespace Keep

variable {library : Library} {document : Document} {isHome : Bool} {reference name : String}
  {node : Node}

/-- A reference that names a definition leads to the place of the definition. -/
theorem definition?_eq_some (h : definition? document isHome reference = some (name, node)) :
    (splitReference reference).2 = document.definitionRef name ∧
      Table.get? name document.definitions = some node := by
  obtain ⟨fragment, hfragment, hfind⟩ := Option.bind_eq_some_iff.1 h
  constructor
  · have hname : document.definitionRef name = fragment := by simpa using List.find?_some hfind
    unfold fragment? at hfragment
    unfold splitReference
    cases hcut : Text.cut '#' reference with
    | none =>
      rw [hcut] at hfragment
      cases hfragment
    | some pieces =>
      obtain ⟨uri, written⟩ := pieces
      rw [hcut] at hfragment
      dsimp only at hfragment ⊢
      rw [hname]
      split at hfragment
      · exact Option.some.inj hfragment
      · cases hfragment
  · generalize document.definitions = definitions at hfind
    induction definitions with
    | nil => cases hfind
    | cons entry rest ih =>
      obtain ⟨key, value⟩ := entry
      by_cases hkey : document.definitionRef key = fragment
      · rw [List.find?_cons_of_pos (by simpa using hkey)] at hfind
        cases hfind
        exact if_pos rfl
      · rw [List.find?_cons_of_neg (by simpa using hkey)] at hfind
        have hname : document.definitionRef name = fragment := by simpa using List.find?_some hfind
        have hne : key ≠ name := fun heq ↦ hkey (heq ▸ hname)
        exact (if_neg hne).trans (ih hfind)

theorem mem_named {nodes : List Node} : name ∈ named document isHome nodes ↔
    ∃ reference ∈ nodes.flatMap Node.references, ∃ node,
      definition? document isHome reference = some (name, node) := by
  unfold named
  rw [List.mem_filterMap]
  refine exists_congr fun reference ↦ and_congr_right fun _ ↦ ?_
  rw [Option.map_eq_some_iff]
  constructor
  · rintro ⟨⟨found, node⟩, h, rfl⟩
    exact ⟨node, h⟩
  · rintro ⟨node, h⟩
    exact ⟨(name, node), h, rfl⟩

theorem named_subset (nodes : List Node) :
    named document isHome nodes ⊆ Table.keys document.definitions := by
  intro name hname
  obtain ⟨reference, -, node, h⟩ := mem_named.1 hname
  exact List.mem_map.2 ⟨_, Table.mem_of_get?_eq_some (definition?_eq_some h).2, rfl⟩

theorem successors_subset (name : String) :
    successors document name ⊆ Table.keys document.definitions := by
  unfold successors
  split
  · exact named_subset _
  · exact List.nil_subset _

/-- Nothing has to be added to the list. -/
def Closed (document : Document) (kept : List String) : Prop :=
  ∀ name ∈ kept, successors document name ⊆ kept

/-- A list that a round does not make longer is closed. -/
theorem closed_of_length {kept : List String} (hnodup : kept.Nodup)
    (h : (addAllNew kept (kept.flatMap (successors document))).length = kept.length) :
    Closed document kept := by
  have hsubset : kept ⊆ addAllNew kept (kept.flatMap (successors document)) :=
    fun name hname ↦ mem_addAllNew.2 (.inl hname)
  have hperm := (List.subperm_of_subset hnodup hsubset).perm_of_length_le (Nat.le_of_eq h)
  intro name hname other hother
  exact hperm.mem_iff.2 (mem_addAllNew.2 (.inr (List.mem_flatMap.2 ⟨name, hname, hother⟩)))

/-- Growing goes on until nothing new comes in, if there are enough rounds. -/
theorem grow_closed {rounds : Nat} {kept : List String} (hnodup : kept.Nodup)
    (hnames : kept ⊆ Table.keys document.definitions)
    (hrounds : document.definitions.length ≤ kept.length + rounds) :
    kept ⊆ grow document rounds kept ∧ Closed document (grow document rounds kept) := by
  induction rounds generalizing kept with
  | zero =>
    have hlength : (Table.keys document.definitions).length ≤ kept.length := by
      simpa [Table.keys] using hrounds
    have hperm := (List.subperm_of_subset hnodup hnames).perm_of_length_le hlength
    exact ⟨List.Subset.refl _, fun name _ other hother ↦
      hperm.mem_iff.2 (successors_subset name hother)⟩
  | succ rounds ih =>
    unfold grow
    dsimp only
    split
    · exact ⟨List.Subset.refl _, closed_of_length hnodup ‹_›⟩
    · have hsubset : kept ⊆ addAllNew kept (kept.flatMap (successors document)) :=
        fun name hname ↦ mem_addAllNew.2 (.inl hname)
      have hlonger := (List.subperm_of_subset hnodup hsubset).length_le
      have hnames' : addAllNew kept (kept.flatMap (successors document)) ⊆
          Table.keys document.definitions := by
        intro name hname
        obtain hold | hnew := mem_addAllNew.1 hname
        · exact hnames hold
        · obtain ⟨other, -, hother⟩ := List.mem_flatMap.1 hnew
          exact successors_subset other hother
      obtain ⟨hgrows, hclosed⟩ := ih (nodup_addAllNew hnodup _) hnames' (by omega)
      exact ⟨List.Subset.trans hsubset hgrows, hclosed⟩

end Keep

open Keep

variable {library : Library} {document : Document} {reference name other : String} {node : Node}

theorem keptDefinitions_closed (library : Library) (document : Document) :
    seeds library document ⊆ keptDefinitions library document ∧
      Closed document (keptDefinitions library document) := by
  have hnames : addAllNew [] (seeds library document) ⊆ Table.keys document.definitions :=
    fun name hname ↦ (mem_addAllNew.1 hname).elim nofun (named_subset _ ·)
  obtain ⟨hgrows, hclosed⟩ := grow_closed (nodup_addAllNew List.nodup_nil _) hnames
    (Nat.le_add_left _ _)
  exact ⟨fun name hname ↦ hgrows (mem_addAllNew.2 (.inr hname)), hclosed⟩

/-- What another document refers to by name is kept. -/
theorem mem_keptDefinitions {user : Document} (huser : user ∈ library.documents)
    (hother : user.uri ≠ document.uri) (hreference : reference ∈ user.references)
    (h : definition? document false reference = some (name, node)) :
    name ∈ keptDefinitions library document := by
  refine (keptDefinitions_closed library document).1 (mem_named.2 ⟨reference, ?_, node, h⟩)
  obtain ⟨schema, hschema, hmem⟩ := List.mem_flatMap.1 hreference
  have huser' : user ∈ library.documents.filter (·.uri ≠ document.uri) :=
    List.mem_filter.2 ⟨huser, by simpa using hother⟩
  exact List.mem_flatMap.2 ⟨schema, List.mem_flatMap.2 ⟨user, huser', hschema⟩, hmem⟩

/-- What a kept definition refers to by name is kept. -/
theorem mem_keptDefinitions_of_kept (hkept : name ∈ keptDefinitions library document)
    (hnode : Table.get? name document.definitions = some node)
    (hreference : reference ∈ node.references) {target : Node}
    (h : definition? document true reference = some (other, target)) :
    other ∈ keptDefinitions library document := by
  refine (keptDefinitions_closed library document).2 name hkept ?_
  unfold successors
  rw [hnode]
  exact mem_named.2 ⟨reference, by simpa using hreference, target, h⟩

end SchemaBindings
