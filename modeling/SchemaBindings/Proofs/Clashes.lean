import SchemaBindings.Proofs.Rules

/-!
# Clashes

Outputs whose fragments all have a property. Code that is inserted and outputs that are merged in
leave such an output behind, whether they are stopped or not. What stops them is a clash: two
fragments with the property that are different code under one symbol of one section. Where the
property leaves no such two, nothing can go wrong.
-/

namespace SchemaBindings

open Code

/-- Two fragments with the property, of the same section and symbol, are different code. -/
def Clash (P : Section → String → Fragment → Prop) (failure : Failure) : Prop :=
  ∃ place symbol path code code', failure = .nameCollision symbol path ∧ P place symbol code ∧
    P place symbol code' ∧ code.text ≠ code'.text

namespace Attempt

variable {α : Type} {good : α → Prop} {bad : Failure → Prop}

/-- What an attempt leaves behind is good, and what may have stopped it is bad. -/
def Within (good : α → Prop) (bad : Failure → Prop) (attempt : Attempt α) : Prop :=
  good attempt.value ∧ ∀ failure, attempt.failure = some failure → bad failure

theorem within_success {value : α} (h : good value) : (success value).Within good bad :=
  ⟨h, nofun⟩

theorem Within.andThen {attempt : Attempt α} {next : α → Attempt α} (h : attempt.Within good bad)
    (hnext : ∀ value, good value → (next value).Within good bad) :
    (attempt.andThen next).Within good bad := by
  unfold Attempt.andThen
  split
  · exact hnext _ h.1
  · exact h

theorem Within.meets {attempt : Attempt α} (h : attempt.Within good bad) {rules : Rules}
    {after : Registry → α → Prop} {registry : Registry}
    (hgood : ∀ value, good value → after registry value)
    (hbad : ∀ failure, bad failure → rules.allows failure) :
    Mapping.Meets rules after registry attempt.toExcept := by
  unfold toExcept
  cases hattempt : attempt.failure with
  | none => exact hgood _ h.1
  | some failure => exact hbad _ (h.2 failure hattempt)

end Attempt

namespace Fragments

/-- Every fragment of the set has the property. -/
def All (P : String → Fragment → Prop) (set : Fragments) : Prop :=
  ∀ symbol code, (symbol, code) ∈ set.entries → P symbol code

variable {P : String → Fragment → Prop} {bad : Failure → Prop}

theorem insert_within {set : Fragments} (h : set.All P) {symbol path : String} {code : Fragment}
    (hcode : P symbol code)
    (hbad : ∀ existing, P symbol existing → existing.text ≠ code.text →
      bad (.nameCollision symbol path)) :
    (set.insert symbol code path).Within (All P) bad := by
  unfold insert
  split
  case h_1 existing hexisting =>
    split
    · exact Attempt.within_success h
    · refine ⟨h, ?_⟩
      rintro _ ⟨⟩
      exact hbad existing (h symbol existing (Table.mem_of_get?_eq_some hexisting)) ‹_›
  case h_2 =>
    refine Attempt.within_success fun other found hmem ↦ ?_
    obtain hmem | hmem := List.mem_append.1 hmem
    · exact h other found hmem
    · cases List.mem_singleton.1 hmem
      exact hcode

theorem insertAll_within {set : Fragments} (h : set.All P) {path : String}
    {entries : List (String × Fragment)} (hentries : All P ⟨entries⟩)
    (hbad : ∀ symbol code code', P symbol code → P symbol code' → code.text ≠ code'.text →
      bad (.nameCollision symbol path)) :
    (set.insertAll path entries).Within (All P) bad := by
  induction entries generalizing set with
  | nil => exact Attempt.within_success h
  | cons entry rest ih =>
    have hfirst := hentries entry.1 entry.2 (.head rest)
    exact (insert_within h hfirst fun existing hexisting ↦ hbad _ _ _ hexisting hfirst).andThen
      fun set hset ↦ ih hset fun symbol code hmem ↦ hentries symbol code (.tail entry hmem)

end Fragments

namespace Output

variable {P P' : Section → String → Fragment → Prop} {output other : Output} {path : String}

/-- Every fragment of the output has the property. -/
def All (P : Section → String → Fragment → Prop) (output : Output) : Prop :=
  ∀ place, (output.get place).All (P place)

theorem all_of_get_eq_empty (h : ∀ place, output.get place = {}) : output.All P := by
  intro place symbol code hmem
  rw [h place] at hmem
  cases hmem

theorem all_empty : ({} : Output).All P :=
  all_of_get_eq_empty fun place ↦ by cases place <;> rfl

theorem All.imp (h : output.All P)
    (himp : ∀ place symbol code, P place symbol code → P' place symbol code) : output.All P' :=
  fun place symbol code hmem ↦ himp place symbol code (h place symbol code hmem)

theorem All.set (h : output.All P) {place : Section} {fragments : Fragments}
    (hfragments : fragments.All (P place)) : (output.set place fragments).All P := by
  intro other
  by_cases heq : other = place
  · subst heq
    rw [get_set_self]
    exact hfragments
  · rw [get_set_of_ne output heq]
    exact h other

theorem All.congr (h : output.All P) (heq : ∀ place, other.get place = output.get place) :
    other.All P := by
  intro place
  rw [heq place]
  exact h place

theorem All.addDiagnostic (h : output.All P) (diagnostic : Diagnostic) :
    (output.addDiagnostic diagnostic).All P :=
  h.congr (get_addDiagnostic output diagnostic)

theorem change_within (h : output.All P) {place : Section} {attempt : Attempt Fragments}
    {bad : Failure → Prop} (hattempt : attempt.Within (Fragments.All (P place)) bad) :
    (output.change place attempt).Within (All P) bad :=
  ⟨h.set hattempt.1, hattempt.2⟩

theorem insert_within (h : output.All P) {place : Section} {symbol : String}
    {pieces : List Piece} (hcode : P place symbol (.ofPieces pieces)) :
    (output.insert place symbol pieces path).Within (All P) (Clash P) :=
  change_within h <| Fragments.insert_within (h place) hcode fun _ hexisting hne ↦
    ⟨_, _, _, _, _, rfl, hexisting, hcode, hne⟩

theorem mergeSections_within (hother : other.All P) (places : List Section) (h : output.All P) :
    (mergeSections other path places output).Within (All P) (Clash P) := by
  induction places generalizing output with
  | nil => exact Attempt.within_success h
  | cons place rest ih =>
    have hmerge : ((output.get place).merge (other.get place) path).Within
        (Fragments.All (P place)) (Clash P) :=
      Fragments.insertAll_within (h place) (hother place) fun _ _ _ hcode hcode' hne ↦
        ⟨place, _, _, _, _, rfl, hcode, hcode', hne⟩
    exact (change_within h hmerge).andThen fun _ ↦ ih

/-- A merge leaves only fragments of both outputs behind. -/
theorem merge_within (h : output.All P) (hother : other.All P) :
    (output.merge other path).Within (All P) (Clash P) :=
  (mergeSections_within hother Section.all h).andThen fun merged hmerged ↦
    Attempt.within_success (hmerged.congr fun place ↦ by cases place <;> rfl)

end Output

end SchemaBindings
