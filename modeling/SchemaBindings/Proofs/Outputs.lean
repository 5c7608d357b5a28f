import SchemaBindings.Output.Basic

/-!
# Putting outputs together

What an output holds after code was inserted or another output was merged in. Nothing that was
there is replaced: a symbol keeps its code, and a new symbol brings its own. All that can go wrong
is that a symbol is taken by other code, which is a collision of names.
-/

namespace SchemaBindings

def Failure.isCollision : Failure → Bool
  | .nameCollision .. => true
  | _ => false

namespace Attempt

variable {α β : Type}

/-- The attempt can only fail by a collision of names. -/
def Collides (attempt : Attempt α) : Prop :=
  ∀ failure, attempt.failure = some failure → failure.isCollision

theorem toExcept_eq_ok {attempt : Attempt α} {value : α} :
    attempt.toExcept = .ok value ↔ attempt.failure = none ∧ attempt.value = value := by
  unfold toExcept
  cases attempt.failure <;> simp

theorem Collides.toExcept {attempt : Attempt α} (h : attempt.Collides) {failure : Failure}
    (hfailure : attempt.toExcept = .error failure) : failure.isCollision := by
  unfold Attempt.toExcept at hfailure
  cases hattempt : attempt.failure with
  | none => rw [hattempt] at hfailure; cases hfailure
  | some found =>
    rw [hattempt] at hfailure
    cases hfailure
    exact h failure hattempt

theorem collides_success (value : α) : (success value).Collides :=
  fun _ h ↦ nomatch h

theorem Collides.andThen {attempt : Attempt α} {next : α → Attempt α} (h : attempt.Collides)
    (hnext : ∀ value, (next value).Collides) : (attempt.andThen next).Collides := by
  intro failure hfailure
  unfold Attempt.andThen at hfailure
  cases hattempt : attempt.failure with
  | none =>
    rw [hattempt] at hfailure
    exact hnext _ failure hfailure
  | some found =>
    rw [hattempt] at hfailure
    exact h failure hfailure

theorem andThen_failure {attempt : Attempt α} {next : α → Attempt α}
    (h : (attempt.andThen next).failure = none) :
    attempt.failure = none ∧ (next attempt.value).failure = none ∧
      attempt.andThen next = next attempt.value := by
  unfold andThen at h ⊢
  cases hattempt : attempt.failure with
  | none =>
    rw [hattempt] at h
    exact ⟨rfl, h, rfl⟩
  | some found =>
    rw [hattempt] at h
    rw [hattempt] at h
    cases h

end Attempt

namespace Fragments

open Code

theorem insert_collides (set : Fragments) (symbol : String) (code : Fragment) (path : String) :
    (set.insert symbol code path).Collides := by
  intro failure hfailure
  unfold insert at hfailure
  split at hfailure
  · split at hfailure
    · cases hfailure
    · cases hfailure
      rfl
  · cases hfailure

theorem insertAll_collides (set : Fragments) (path : String) (entries : List (String × Fragment)) :
    (set.insertAll path entries).Collides := by
  induction entries generalizing set with
  | nil => exact Attempt.collides_success set
  | cons entry rest ih => exact (insert_collides _ _ _ _).andThen fun set ↦ ih set

theorem get?_append (first second : List (String × Fragment)) (symbol : String) :
    get? ⟨first ++ second⟩ symbol = (get? ⟨first⟩ symbol).or (get? ⟨second⟩ symbol) := by
  unfold get?
  induction first with
  | nil => rfl
  | cons entry rest ih =>
    obtain ⟨key, code⟩ := entry
    rw [List.cons_append, Table.get?, Table.get?]
    split
    · rfl
    · exact ih

/-- Inserting leaves what is there, and adds the symbol if it is new. -/
theorem get?_insert (set : Fragments) (symbol : String) (code : Fragment) (path other : String) :
    (set.insert symbol code path).value.get? other =
      (set.get? other).or (if symbol = other then some code else none) := by
  unfold insert
  split
  case h_1 existing hexisting =>
    have hkept : (set.get? other).or (if symbol = other then some code else none) =
        set.get? other := by
      by_cases hsymbol : symbol = other
      · rw [← hsymbol, hexisting]
        rfl
      · rw [if_neg hsymbol, Option.or_none]
    rw [hkept]
    split <;> rfl
  case h_2 =>
    change get? ⟨set.entries ++ [(symbol, code)]⟩ other = _
    rw [get?_append]
    rfl

theorem get?_insertAll {set : Fragments} {path : String} {entries : List (String × Fragment)}
    (h : (set.insertAll path entries).failure = none) (symbol : String) :
    (set.insertAll path entries).value.get? symbol =
      (set.get? symbol).or (Table.get? symbol entries) := by
  induction entries generalizing set with
  | nil => exact (Option.or_none).symm
  | cons entry rest ih =>
    obtain ⟨key, code⟩ := entry
    unfold insertAll at h ⊢
    obtain ⟨-, hrest, heq⟩ := Attempt.andThen_failure h
    rw [heq, ih hrest, get?_insert, Option.or_assoc, Table.get?]
    split <;> rfl

theorem get?_merge {set other : Fragments} {path : String}
    (h : (set.merge other path).failure = none) (symbol : String) :
    (set.merge other path).value.get? symbol = (set.get? symbol).or (other.get? symbol) :=
  get?_insertAll h symbol

end Fragments

namespace Output

theorem mem_all (place : Section) : place ∈ Section.all := by
  cases place <;> decide

@[simp]
theorem diagnostics_set (output : Output) (place : Section) (fragments : Fragments) :
    (output.set place fragments).diagnostics = output.diagnostics := by
  cases place <;> rfl

@[simp]
theorem externals_set (output : Output) (place : Section) (fragments : Fragments) :
    (output.set place fragments).externals = output.externals := by
  cases place <;> rfl

@[simp]
theorem get_addDiagnostic (output : Output) (diagnostic : Diagnostic) (place : Section) :
    (output.addDiagnostic diagnostic).get place = output.get place := by
  cases place <;> rfl

/-- The code of a symbol in one section of an output. -/
def find? (output : Output) (place : Section) (symbol : String) : Option Code.Fragment :=
  (output.get place).get? symbol

theorem find?_set (output : Output) (place other : Section) (fragments : Fragments)
    (symbol : String) :
    (output.set place fragments).find? other symbol =
      if place = other then fragments.get? symbol else output.find? other symbol := by
  unfold find?
  by_cases h : place = other
  · rw [if_pos h, ← h, get_set_self]
  · rw [if_neg h, get_set_of_ne output (Ne.symm h)]

theorem insert_collides (output : Output) (place : Section) (symbol : String)
    (pieces : List Code.Piece) (path : String) :
    (output.insert place symbol pieces path).Collides :=
  Fragments.insert_collides (output.get place) symbol (.ofPieces pieces) path

/-- Inserting one piece of code changes nothing but the one section, where a symbol that is new
gets the code. -/
theorem insert_eq_ok {output result : Output} {place : Section} {symbol path : String}
    {pieces : List Code.Piece}
    (h : (output.insert place symbol pieces path).toExcept = .ok result) :
    result.diagnostics = output.diagnostics ∧ result.externals = output.externals ∧
      ∀ section' other, result.find? section' other =
        (output.find? section' other).or
          (if place = section' ∧ symbol = other then some (.ofPieces pieces) else none) := by
  obtain ⟨-, rfl⟩ := Attempt.toExcept_eq_ok.1 h
  refine ⟨diagnostics_set _ _ _, externals_set _ _ _, fun section' other ↦ ?_⟩
  change (output.set place _).find? section' other = _
  rw [find?_set]
  by_cases hplace : place = section'
  · subst hplace
    rw [if_pos rfl, Fragments.get?_insert]
    simp only [true_and]
    rfl
  · rw [if_neg hplace, if_neg fun hboth ↦ hplace hboth.1, Option.or_none]

theorem mergeSections_collides (other : Output) (path : String) (places : List Section)
    (output : Output) : (mergeSections other path places output).Collides := by
  induction places generalizing output with
  | nil => exact Attempt.collides_success output
  | cons place rest ih =>
    have hchange :
        (output.change place ((output.get place).merge (other.get place) path)).Collides :=
      Fragments.insertAll_collides _ _ _
    exact hchange.andThen ih

theorem mergeSections_eq {other : Output} {path : String} {places : List Section} {output : Output}
    (h : (mergeSections other path places output).failure = none) :
    let result := (mergeSections other path places output).value
    result.diagnostics = output.diagnostics ∧ result.externals = output.externals ∧
      ∀ place symbol, result.find? place symbol =
        if place ∈ places then (output.find? place symbol).or (other.find? place symbol)
        else output.find? place symbol := by
  induction places generalizing output with
  | nil => exact ⟨rfl, rfl, fun place symbol ↦ (if_neg List.not_mem_nil).symm⟩
  | cons first rest ih =>
    unfold mergeSections at h ⊢
    obtain ⟨hfirst, hrest, heq⟩ := Attempt.andThen_failure h
    obtain ⟨hdiagnostics, hexternals, hfind⟩ := ih hrest
    rw [heq]
    refine ⟨hdiagnostics.trans (diagnostics_set _ _ _),
      hexternals.trans (externals_set _ _ _), fun place symbol ↦ ?_⟩
    have hchange :
        (output.change first ((output.get first).merge (other.get first) path)).value.find?
          place symbol =
          if first = place then (output.find? place symbol).or (other.find? place symbol)
          else output.find? place symbol := by
      change (output.set first _).find? place symbol = _
      rw [find?_set]
      split
      · subst first
        exact Fragments.get?_merge hfirst symbol
      · rfl
    rw [hfind, hchange]
    by_cases hplace : first = place
    · subst hplace
      rw [if_pos rfl, if_pos List.mem_cons_self]
      split
      · rw [Option.or_assoc, Option.or_self]
      · rfl
    · rw [if_neg hplace]
      have hmem : place ∈ first :: rest ↔ place ∈ rest := by
        simp [Ne.symm hplace]
      simp only [hmem]

theorem merge_collides (output other : Output) (path : String) :
    (output.merge other path).Collides :=
  (mergeSections_collides other path Section.all output).andThen fun _ ↦
    Attempt.collides_success _

/-- Merging keeps the code of the first output and adds the code of the second under symbols that
the first one has not. -/
theorem merge_eq_ok {output other result : Output} {path : String}
    (h : (output.merge other path).toExcept = .ok result) :
    result.diagnostics = addAllNew output.diagnostics other.diagnostics ∧
      result.externals = addAllNew output.externals other.externals ∧
      ∀ place symbol, result.find? place symbol =
        (output.find? place symbol).or (other.find? place symbol) := by
  obtain ⟨hfailure, rfl⟩ := Attempt.toExcept_eq_ok.1 h
  unfold merge at hfailure ⊢
  obtain ⟨hsections, -, heq⟩ := Attempt.andThen_failure hfailure
  obtain ⟨hdiagnostics, hexternals, hfind⟩ := mergeSections_eq hsections
  rw [heq]
  refine ⟨congrArg (addAllNew · other.diagnostics) hdiagnostics,
    congrArg (addAllNew · other.externals) hexternals, fun place symbol ↦ ?_⟩
  have hmerged := hfind place symbol
  rw [if_pos (mem_all place)] at hmerged
  rw [← hmerged]
  cases place <;> rfl

theorem merge_toExcept_collides {output other : Output} {path : String} {failure : Failure}
    (h : (output.merge other path).toExcept = .error failure) : failure.isCollision :=
  (merge_collides output other path).toExcept h

theorem insert_toExcept_collides {output : Output} {place : Section} {symbol path : String}
    {pieces : List Code.Piece} {failure : Failure}
    (h : (output.insert place symbol pieces path).toExcept = .error failure) :
    failure.isCollision :=
  (insert_collides output place symbol pieces path).toExcept h

end Output

end SchemaBindings
