import SchemaBindings.Proofs.Kept
import SchemaBindings.Proofs.Merges

/-!
# Histories of fragment sets

A set of fragments comes about by inserting fragments and by merging other sets that came about in
the same way, and either may fail on the way. All that is ever done to the set are single
insertions, one after the other: a merge inserts the entries of the other set up to the first one
that fails. So a symbol stands where it was first inserted, with the code that it was first inserted
with, whatever comes later.
-/

namespace SchemaBindings

open Code

namespace Fragments

section Insertions

variable {set : Fragments} {symbol path : String} {code : Fragment} {failure : Failure}

/-! ## One insertion -/

/-- An insertion fails only by a collision, and then changes nothing. -/
theorem insert_eq_of_failure (h : (set.insert symbol code path).failure = some failure) :
    set.insert symbol code path = ⟨set, some (.nameCollision symbol path)⟩ ∧
      ∃ existing ∈ set.get? symbol, existing.text ≠ code.text := by
  unfold insert at h ⊢
  split at h
  case h_1 existing hexisting =>
    split at h
    · cases h
    · rename_i htext
      exact ⟨by rw [if_neg htext], existing, hexisting, htext⟩
  case h_2 => cases h

theorem failure_insert (set : Fragments) (symbol : String) (code : Fragment) (path : String) :
    (set.insert symbol code path).failure ≠ none ↔
      ∃ existing ∈ set.get? symbol, existing.text ≠ code.text := by
  rw [Ne, failure_insert_iff]
  push Not
  rfl

/-- The path of an insertion stands only in its failure. -/
theorem value_insert (set : Fragments) (symbol : String) (code : Fragment) (path : String) :
    (set.insert symbol code path).value =
      if symbol ∈ set.symbols then set else ⟨set.entries ++ [(symbol, code)]⟩ := by
  unfold insert
  split
  case h_1 existing hexisting =>
    have hmem : symbol ∈ set.symbols := by
      by_contra hnot
      cases (get?_eq_none_iff.2 hnot).symm.trans hexisting
    rw [if_pos hmem]
    split <;> rfl
  case h_2 hnone =>
    rw [if_neg (get?_eq_none_iff.1 hnone)]
    rfl

theorem symbols_insert (set : Fragments) (symbol : String) (code : Fragment) (path : String) :
    (set.insert symbol code path).value.symbols = addNew set.symbols symbol := by
  rw [value_insert, addNew]
  split
  · rfl
  · simp [symbols, Table.keys]

theorem entries_prefix_insert (set : Fragments) (symbol : String) (code : Fragment)
    (path : String) : set.entries <+: (set.insert symbol code path).value.entries := by
  rw [value_insert]
  split
  · exact List.prefix_rfl
  · exact List.prefix_append _ _

/-! ## Many insertions -/

/-- Inserts all of the entries, also after one that failed. -/
def insertEach (set : Fragments) (path : String) (entries : List (String × Fragment)) : Fragments :=
  entries.foldl (fun set entry ↦ (set.insert entry.1 entry.2 path).value) set

/-- The entries that are inserted one after the other until one fails, which is the last of them. -/
def attempted (set : Fragments) (path : String) :
    List (String × Fragment) → List (String × Fragment)
  | [] => []
  | (symbol, code) :: rest =>
    (symbol, code) ::
      match (set.insert symbol code path).failure with
      | none => (set.insert symbol code path).value.attempted path rest
      | some _ => []

theorem insertEach_append (first second : List (String × Fragment)) :
    set.insertEach path (first ++ second) = (set.insertEach path first).insertEach path second :=
  List.foldl_append

theorem symbols_insertEach (set : Fragments) (path : String)
    (entries : List (String × Fragment)) :
    (set.insertEach path entries).symbols = addAllNew set.symbols (Table.keys entries) := by
  induction entries generalizing set with
  | nil => rfl
  | cons entry rest ih =>
    calc
      _ = addAllNew (set.insert entry.1 entry.2 path).value.symbols (Table.keys rest) := ih _
      _ = addAllNew (addNew set.symbols entry.1) (Table.keys rest) := by rw [symbols_insert]

theorem get?_insertEach (set : Fragments) (path : String) (entries : List (String × Fragment))
    (symbol : String) :
    (set.insertEach path entries).get? symbol =
      (set.get? symbol).or (Table.get? symbol entries) := by
  induction entries generalizing set with
  | nil => exact (Option.or_none).symm
  | cons entry rest ih =>
    obtain ⟨key, code⟩ := entry
    change ((set.insert key code path).value.insertEach path rest).get? symbol = _
    rw [ih, get?_insert, Option.or_assoc, Table.get?]
    split <;> rfl

theorem entries_prefix_insertEach (set : Fragments) (path : String)
    (entries : List (String × Fragment)) :
    set.entries <+: (set.insertEach path entries).entries := by
  induction entries generalizing set with
  | nil => exact List.prefix_rfl
  | cons entry rest ih => exact (entries_prefix_insert set _ _ _).trans (ih _)

/-- What is left behind depends neither on the path nor on what would come after a failure. -/
theorem value_insertAll_eq (set : Fragments) (path path' : String)
    (entries : List (String × Fragment)) :
    (set.insertAll path entries).value =
      set.insertEach path' (set.attempted path entries) := by
  induction entries generalizing set with
  | nil => rfl
  | cons entry rest ih =>
    obtain ⟨symbol, code⟩ := entry
    have hpath : (set.insert symbol code path).value = (set.insert symbol code path').value := by
      rw [value_insert, value_insert]
    rw [insertAll, attempted]
    cases hfailure : (set.insert symbol code path).failure with
    | none =>
      have hgoes : ∀ next, (set.insert symbol code path).andThen next =
          next (set.insert symbol code path).value := fun next ↦ by
        rw [Attempt.andThen, hfailure]
      rw [hgoes, ih, hpath]
      rfl
    | some failure =>
      rw [Attempt.andThen, hfailure]
      exact hpath

theorem agrees_nil (set : Fragments) : set.Agrees ⟨[]⟩ :=
  fun _ _ _ _ hcode ↦ absurd hcode (Option.not_mem_none _)

/-- A merge that fails names the first symbol in the order of the other set that is bound to other
code here, and has brought in what stands before it. -/
theorem insertAll_of_failure {entries : List (String × Fragment)}
    (hentries : (entries.map Prod.fst).Nodup)
    (h : (set.insertAll path entries).failure = some failure) :
    ∃ done symbol code rest, entries = done ++ (symbol, code) :: rest ∧ set.Agrees ⟨done⟩ ∧
      (∃ existing ∈ set.get? symbol, existing.text ≠ code.text) ∧
      failure = .nameCollision symbol path ∧
      (set.insertAll path entries).value = set.union ⟨done⟩ := by
  induction entries generalizing set with
  | nil => cases h
  | cons entry rest ih =>
    obtain ⟨key, first⟩ := entry
    obtain ⟨hnew, hrest⟩ := List.nodup_cons.1 hentries
    rw [insertAll] at h ⊢
    cases hfirst : (set.insert key first path).failure with
    | some found =>
      obtain ⟨heq, hother⟩ := insert_eq_of_failure hfirst
      rw [heq] at h ⊢
      cases h
      have hnone : set.union ⟨[]⟩ = set := by simp [union]
      exact ⟨[], key, first, rest, rfl, agrees_nil set, hother, rfl, hnone.symm⟩
    | none =>
      have hgoes : (set.insert key first path).andThen (fun set ↦ set.insertAll path rest) =
          (set.insert key first path).value.insertAll path rest := by
        rw [Attempt.andThen, hfirst]
      rw [hgoes] at h ⊢
      obtain ⟨done, symbol, code, after, hsplit, hagrees, ⟨existing, hexisting, htext⟩, rfl,
        hvalue⟩ := ih hrest h
      -- the part that comes in is merged as a set of its own
      have hdone : (((key, first) :: done).map Prod.fst).Nodup := by
        rw [hsplit] at hentries
        exact hentries.sublist (by simp)
      have hpart : (set.insertAll path ((key, first) :: done)).failure = none := by
        rw [insertAll, Attempt.failure_andThen_iff]
        refine ⟨hfirst, (failure_insertAll_iff ?_).2 hagrees⟩
        exact (List.nodup_cons.1 hdone).2
      have hne : key ≠ symbol := by
        rintro rfl
        exact hnew (by simp [hsplit])
      have hbound : existing ∈ set.get? symbol := by
        rwa [get?_insert, if_neg hne, Option.or_none] at hexisting
      refine ⟨(key, first) :: done, symbol, code, after, by rw [hsplit]; rfl,
        (failure_insertAll_iff hdone).1 hpart, ⟨existing, hbound, htext⟩, rfl, ?_⟩
      rw [hvalue, ← value_insertAll hdone hpart, insertAll, Attempt.andThen, hfirst]
      exact (value_insertAll (List.nodup_cons.1 hdone).2
        ((failure_insertAll_iff (List.nodup_cons.1 hdone).2).2 hagrees)).symm

end Insertions

/-! ## Histories -/

/-- How a set of fragments came about. The sets that were merged in have a history of their own. -/
inductive History where
  | empty
  | insert (before : History) (symbol : String) (code : Fragment) (path : String)
  | merge (before other : History) (path : String)

namespace History

/-- The set that all insertions and merges have left behind, whether they failed or not. -/
def set : History → Fragments
  | empty => {}
  | insert before symbol code path => (before.set.insert symbol code path).value
  | merge before other path => (before.set.merge other.set path).value

/-- All single insertions in their order, those of merges included. -/
def insertions : History → List (String × Fragment)
  | empty => []
  | insert before symbol code _ => before.insertions ++ [(symbol, code)]
  | merge before other path =>
    before.insertions ++ before.set.attempted path other.set.entries

/-- One history goes on where another one ended. -/
inductive GoesOn (start : History) : History → Prop
  | here : GoesOn start start
  | insert {history : History} (h : GoesOn start history) (symbol : String) (code : Fragment)
      (path : String) : GoesOn start (.insert history symbol code path)
  | merge {history : History} (h : GoesOn start history) (other : History) (path : String) :
      GoesOn start (.merge history other path)

/-- Nothing happens to a set but that fragments are inserted. -/
theorem set_eq_insertEach (history : History) :
    history.set = insertEach {} "" history.insertions := by
  induction history with
  | empty => rfl
  | insert before symbol code path ih =>
    rw [insertions, insertEach_append, ← ih, set, value_insert]
    exact (value_insert _ _ _ _).symm
  | merge before other path ih _ =>
    rw [insertions, insertEach_append, ← ih, set]
    exact value_insertAll_eq _ _ _ _

theorem symbols_set (history : History) :
    history.set.symbols = addAllNew [] (Table.keys history.insertions) := by
  rw [set_eq_insertEach, symbols_insertEach]
  rfl

theorem nodup_symbols (history : History) : history.set.symbols.Nodup := by
  rw [symbols_set]
  exact nodup_addAllNew List.nodup_nil _

theorem get?_set (history : History) (symbol : String) :
    history.set.get? symbol = Table.get? symbol history.insertions := by
  rw [set_eq_insertEach, get?_insertEach]
  rfl

/-- Entries stay where they are, as they are. -/
theorem GoesOn.entries_prefix {history later : History} (h : history.GoesOn later) :
    history.set.entries <+: later.set.entries := by
  induction h with
  | here => exact List.prefix_rfl
  | insert _ symbol code path ih => exact ih.trans (entries_prefix_insert _ _ _ _)
  | merge _ other path ih =>
    refine ih.trans ?_
    change _ <+: (Fragments.insertAll _ _ _).value.entries
    rw [value_insertAll_eq _ _ path]
    exact entries_prefix_insertEach _ _ _

/-- After any history each symbol occurs once, in the order of the first insertions, with the code
that was inserted first, and stays so whatever comes later. An insertion fails exactly if the symbol
is bound to other code, and then changes nothing. A merge fails exactly if some symbol is bound to
other code here; it names the first one in the order of the other set and has then brought in the
missing entries before it, and if it succeeds all missing entries in their order. -/
theorem symbols_keep_first_code (history : History) :
    (history.set.symbols = addAllNew [] (Table.keys history.insertions) ∧
      history.set.symbols.Nodup ∧
      ∀ symbol, history.set.get? symbol = Table.get? symbol history.insertions) ∧
    (∀ later, history.GoesOn later → history.set.entries <+: later.set.entries) ∧
    (∀ symbol code path,
      ((history.set.insert symbol code path).failure ≠ none ↔
        ∃ existing ∈ history.set.get? symbol, existing.text ≠ code.text) ∧
      ∀ failure, (history.set.insert symbol code path).failure = some failure →
        failure = .nameCollision symbol path ∧
          (history.set.insert symbol code path).value = history.set) ∧
    ∀ (other : History) (path : String),
      ((history.set.merge other.set path).failure = none ↔ history.set.Agrees other.set) ∧
      ((history.set.merge other.set path).failure = none →
        (history.set.merge other.set path).value = history.set.union other.set) ∧
      ∀ failure, (history.set.merge other.set path).failure = some failure →
        ∃ done symbol code rest, other.set.entries = done ++ (symbol, code) :: rest ∧
          history.set.Agrees ⟨done⟩ ∧
          (∃ existing ∈ history.set.get? symbol, existing.text ≠ code.text) ∧
          failure = .nameCollision symbol path ∧
          (history.set.merge other.set path).value = history.set.union ⟨done⟩ := by
  refine ⟨⟨history.symbols_set, history.nodup_symbols, history.get?_set⟩,
    fun later ↦ GoesOn.entries_prefix, fun symbol code path ↦ ⟨failure_insert _ _ _ _, ?_⟩,
    fun other path ↦ ?_⟩
  · intro failure hfailure
    obtain ⟨heq, -⟩ := insert_eq_of_failure hfailure
    rw [heq] at hfailure ⊢
    exact ⟨(Option.some.inj hfailure).symm, rfl⟩
  · have hother := other.nodup_symbols
    exact ⟨failure_merge_iff hother, value_merge hother, fun _ ↦ insertAll_of_failure hother⟩

/-- A merge that fails in the middle. -/
example : (merge (insert empty "Mode" (.verbatim "enum") "Lamp#")
    (insert (insert (insert empty "Level" (.verbatim "int") "Fan#") "Mode" (.verbatim "bool")
      "Fan#") "State" (.verbatim "int") "Fan#") "Home#").set.symbols = ["Mode", "Level"] := by
  decide +kernel

end History

end Fragments

end SchemaBindings
