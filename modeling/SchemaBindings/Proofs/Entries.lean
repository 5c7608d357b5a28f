import Mathlib.Data.List.Forall2
import Mathlib.Data.List.Nodup
import SchemaBindings.Proofs.Outputs

/-!
# Entries of fragment sets

What stands in a fragment set, entry by entry, after code was inserted or another set was merged
in. A new symbol comes last, and code that comes in under a taken symbol is the code that is there.
Two sets in which the entries correspond one by one stay so when corresponding code comes in.
-/

namespace SchemaBindings

open Code

namespace Fragments

variable {set other result : Fragments} {symbol path : String} {code : Fragment}

theorem get?_eq_none_iff : set.get? symbol = none ↔ symbol ∉ set.symbols :=
  Table.get?_eq_none_iff

/-- Code that was inserted was there before or is now the last. -/
theorem insert_cases (h : (set.insert symbol code path).failure = none) :
    (∃ existing, set.get? symbol = some existing ∧ existing.text = code.text ∧
      (set.insert symbol code path).value = set) ∨
    (set.get? symbol = none ∧
      (set.insert symbol code path).value = ⟨set.entries ++ [(symbol, code)]⟩) := by
  unfold insert at h ⊢
  cases hexisting : set.get? symbol with
  | some existing =>
    rw [hexisting] at h
    dsimp only at h ⊢
    by_cases htext : existing.text = code.text
    · exact .inl ⟨existing, rfl, htext, by rw [if_pos htext]; rfl⟩
    · rw [if_neg htext] at h
      cases h
  | none => exact .inr ⟨rfl, rfl⟩

theorem text_eq_of_insert (h : (set.insert symbol code path).failure = none) {existing : Fragment}
    (hexisting : set.get? symbol = some existing) : existing.text = code.text := by
  obtain ⟨found, hfound, htext, -⟩ | ⟨hnone, -⟩ := insert_cases h
  · cases hfound.symm.trans hexisting
    exact htext
  · rw [hnone] at hexisting
    cases hexisting

/-- What comes in under a symbol of the set is the code that the set has there. -/
theorem text_eq_of_merge (h : (set.merge other path).failure = none) {existing : Fragment}
    (hexisting : set.get? symbol = some existing) (hcode : other.get? symbol = some code) :
    existing.text = code.text := by
  obtain ⟨entries⟩ := other
  replace hcode : Table.get? symbol entries = some code := hcode
  replace h : (set.insertAll path entries).failure = none := h
  induction entries generalizing set with
  | nil => cases hcode
  | cons entry rest ih =>
    obtain ⟨key, first⟩ := entry
    obtain ⟨hfirst, hrest, -⟩ := Attempt.andThen_failure h
    rw [Table.get?] at hcode
    split at hcode
    · rename_i hkey
      subst hkey
      cases hcode
      exact text_eq_of_insert hfirst hexisting
    · refine ih ?_ hcode hrest
      rw [get?_insert, hexisting]
      rfl

/-- A property of the entries so far that each entry keeps is kept by a merge. -/
theorem merge_induction {P : Fragments → Prop} (hset : P set)
    (h : (set.merge other path).failure = none)
    (hstep : ∀ done entry rest, other.entries = done ++ entry :: rest → ∀ set' : Fragments, P set' →
      (∀ first ∈ done, first.1 ∈ set'.symbols) →
        (set'.insert entry.1 entry.2 path).failure = none →
          P (set'.insert entry.1 entry.2 path).value) :
    P (set.merge other path).value := by
  obtain ⟨entries⟩ := other
  replace h : (set.insertAll path entries).failure = none := h
  change P (set.insertAll path entries).value
  have hall : ∀ rest done : List (String × Fragment), ∀ set' : Fragments, entries = done ++ rest →
      P set' → (∀ first ∈ done, first.1 ∈ set'.symbols) →
        (set'.insertAll path rest).failure = none → P (set'.insertAll path rest).value := by
    intro rest
    induction rest with
    | nil => exact fun _ _ _ hset' _ _ ↦ hset'
    | cons entry rest ih =>
      intro done set' hentries hset' hdone hsuccess
      obtain ⟨key, code⟩ := entry
      obtain ⟨hfirst, hrest, heq⟩ := Attempt.andThen_failure hsuccess
      change P ((set'.insert key code path).andThen fun set ↦ set.insertAll path rest).value
      rw [heq]
      have hnext := hstep done (key, code) rest hentries set' hset' hdone hfirst
      refine ih (done ++ [(key, code)]) _ (by simp [hentries]) hnext ?_ hrest
      intro first hmem
      have hstays : ∀ {symbol}, set'.get? symbol ≠ none ∨ key = symbol →
          symbol ∈ (set'.insert key code path).value.symbols := by
        intro symbol hsymbol
        by_contra hnot
        have hnone := get?_eq_none_iff.2 hnot
        rw [get?_insert, Option.or_eq_none_iff] at hnone
        obtain hsome | rfl := hsymbol
        · exact hsome hnone.1
        · rw [if_pos rfl] at hnone
          cases hnone.2
      obtain hmem | hmem := List.mem_append.1 hmem
      · exact hstays (.inl fun hnone ↦ get?_eq_none_iff.1 hnone (hdone first hmem))
      · cases List.mem_singleton.1 hmem
        exact hstays (.inr rfl)
  exact hall entries [] set rfl hset nofun h

/-! ## Distinct symbols -/

theorem nodup_insert (hset : set.symbols.Nodup) :
    (set.insert symbol code path).value.symbols.Nodup := by
  unfold insert
  split
  · split <;> exact hset
  · rename_i hnone
    change (List.map Prod.fst (set.entries ++ [(symbol, code)])).Nodup
    rw [List.map_append]
    exact List.Nodup.append hset (List.nodup_singleton symbol)
      (List.disjoint_singleton.2 (get?_eq_none_iff.1 hnone))

theorem nodup_merge (hset : set.symbols.Nodup) (h : (set.merge other path).failure = none) :
    (set.merge other path).value.symbols.Nodup :=
  merge_induction (P := fun set ↦ set.symbols.Nodup) hset h fun _ _ _ _ _ hset' _ _ ↦
    nodup_insert hset'

/-- With distinct symbols every entry is found under its symbol. -/
theorem get?_of_mem (hset : set.symbols.Nodup) (h : (symbol, code) ∈ set.entries) :
    set.get? symbol = some code :=
  Table.get?_of_mem hset h

/-! ## Sets in order -/

/-- Every entry has what it needs in the symbols of the entries before it. -/
def InOrder (needs : String → Fragment → List String → Prop) (set : Fragments) : Prop :=
  ∀ done symbol code rest, set.entries = done ++ (symbol, code) :: rest →
    needs symbol code (done.map Prod.fst)

variable {needs needs' : String → Fragment → List String → Prop}

theorem inOrder_empty : InOrder needs {} := by
  intro done symbol code rest h
  cases done <;> cases h

theorem InOrder.imp (h : InOrder needs set)
    (himp : ∀ symbol code earlier, needs symbol code earlier → needs' symbol code earlier) :
    InOrder needs' set :=
  fun done symbol code rest hentries ↦ himp _ _ _ (h done symbol code rest hentries)

theorem InOrder.concat {entries : List (String × Fragment)} (h : InOrder needs ⟨entries⟩)
    (hcode : needs symbol code (entries.map Prod.fst)) :
    InOrder needs ⟨entries ++ [(symbol, code)]⟩ := by
  intro done symbol' code' rest hentries
  obtain rfl | ⟨rest, last, rfl⟩ := List.eq_nil_or_concat rest
  · obtain ⟨rfl, hlast⟩ := List.append_inj' hentries rfl
    cases hlast
    exact hcode
  · have hsplit : entries ++ [(symbol, code)] = (done ++ (symbol', code') :: rest) ++ [last] := by
      simpa using hentries
    exact h done symbol' code' rest (List.append_inj' hsplit rfl).1

/-- Code that has what it needs in the set can come in last. -/
theorem InOrder.insert (h : InOrder needs set) (hcode : needs symbol code set.symbols)
    (hsuccess : (set.insert symbol code path).failure = none) :
    InOrder needs (set.insert symbol code path).value := by
  obtain ⟨existing, -, -, heq⟩ | ⟨-, heq⟩ := insert_cases hsuccess
  · rwa [heq]
  · rw [heq]
    exact h.concat hcode

/-- Sets in order are merged into a set in order: an entry that is taken over finds all that was
before it, and one that is there already stays in its place. -/
theorem InOrder.merge (h : InOrder needs set) (hother : InOrder needs other)
    (hmono : ∀ symbol code earlier earlier', earlier ⊆ earlier' → needs symbol code earlier →
      needs symbol code earlier')
    (hsuccess : (set.merge other path).failure = none) :
    InOrder needs (set.merge other path).value := by
  refine merge_induction h hsuccess fun done entry rest hentries set' hset' hdone hfirst ↦ ?_
  refine hset'.insert (hmono _ _ _ _ ?_ (hother done entry.1 entry.2 rest hentries)) hfirst
  intro symbol hsymbol
  obtain ⟨first, hfirst, rfl⟩ := List.mem_map.1 hsymbol
  exact hdone first hfirst

/-! ## Corresponding sets -/

/-- The sets have the same symbols in the same order, and code that corresponds under each. -/
def Correspond (R : Fragment → Fragment → Prop) (set set' : Fragments) : Prop :=
  List.Forall₂ (fun entry entry' ↦ entry.1 = entry'.1 ∧ R entry.2 entry'.2)
    set.entries set'.entries

variable {R : Fragment → Fragment → Prop} {set' other' : Fragments} {code' : Fragment}

theorem Correspond.symbols_eq (h : Correspond R set set') : set.symbols = set'.symbols := by
  obtain ⟨entries⟩ := set
  obtain ⟨entries'⟩ := set'
  replace h : List.Forall₂ _ entries entries' := h
  change entries.map Prod.fst = entries'.map Prod.fst
  induction h with
  | nil => rfl
  | cons hentry _ ih => exact congrArg₂ List.cons hentry.1 ih

/-- Every entry has its counterpart in the other set. -/
theorem Correspond.exists_second (h : Correspond R set set')
    (hmem : (symbol, code) ∈ set.entries) :
    ∃ code', (symbol, code') ∈ set'.entries ∧ R code code' := by
  obtain ⟨entries⟩ := set
  obtain ⟨entries'⟩ := set'
  replace h : List.Forall₂ _ entries entries' := h
  replace hmem : (symbol, code) ∈ entries := hmem
  change ∃ code', (symbol, code') ∈ entries' ∧ R code code'
  induction h with
  | nil => cases hmem
  | @cons entry entry' rest rest' hentry _ ih =>
    obtain rfl | hrest := List.mem_cons.1 hmem
    · obtain ⟨symbol', code'⟩ := entry'
      obtain ⟨rfl, hcode⟩ := hentry
      exact ⟨code', .head _, hcode⟩
    · obtain ⟨code', hmem', hcode⟩ := ih hrest
      exact ⟨code', .tail _ hmem', hcode⟩

theorem Correspond.exists_first (h : Correspond R set set')
    (hmem : (symbol, code') ∈ set'.entries) :
    ∃ code, (symbol, code) ∈ set.entries ∧ R code code' := by
  have hflip : Correspond (fun code' code ↦ R code code') set' set :=
    (List.Forall₂.flip h).imp fun _ _ hentry ↦ ⟨hentry.1.symm, hentry.2⟩
  exact hflip.exists_second hmem

theorem correspond_single (h : R code code') :
    Correspond R (.single symbol code) (.single symbol code') :=
  .cons ⟨rfl, h⟩ .nil

/-- Corresponding code is new in both sets or in neither. -/
theorem Correspond.insert (h : Correspond R set set') (hcode : R code code') {path' : String}
    (hfirst : (set.insert symbol code path).failure = none)
    (hsecond : (set'.insert symbol code' path').failure = none) :
    Correspond R (set.insert symbol code path).value (set'.insert symbol code' path').value := by
  have hnone : set.get? symbol = none ↔ set'.get? symbol = none := by
    rw [get?_eq_none_iff, get?_eq_none_iff, h.symbols_eq]
  obtain ⟨existing, hexisting, -, heq⟩ | ⟨hnew, heq⟩ := insert_cases hfirst <;>
    obtain ⟨existing', hexisting', -, heq'⟩ | ⟨hnew', heq'⟩ := insert_cases hsecond
  · rw [heq, heq']
    exact h
  · rw [hnone.2 hnew'] at hexisting
    cases hexisting
  · rw [hnone.1 hnew] at hexisting'
    cases hexisting'
  · rw [heq, heq']
    exact List.rel_append h (.cons ⟨rfl, hcode⟩ .nil)

theorem Correspond.merge (h : Correspond R set set') (hother : Correspond R other other')
    {path' : String} (hfirst : (set.merge other path).failure = none)
    (hsecond : (set'.merge other' path').failure = none) :
    Correspond R (set.merge other path).value (set'.merge other' path').value := by
  obtain ⟨entries⟩ := other
  obtain ⟨entries'⟩ := other'
  replace hother : List.Forall₂ _ entries entries' := hother
  replace hfirst : (set.insertAll path entries).failure = none := hfirst
  replace hsecond : (set'.insertAll path' entries').failure = none := hsecond
  change Correspond R (set.insertAll path entries).value (set'.insertAll path' entries').value
  induction hother generalizing set set' with
  | nil => exact h
  | @cons entry entry' rest rest' hentry _ ih =>
    obtain ⟨symbol, code⟩ := entry
    obtain ⟨symbol', code'⟩ := entry'
    obtain ⟨rfl, hcode⟩ := hentry
    unfold insertAll at hfirst hsecond ⊢
    obtain ⟨hhead, htail, heq⟩ := Attempt.andThen_failure hfirst
    obtain ⟨hhead', htail', heq'⟩ := Attempt.andThen_failure hsecond
    rw [heq, heq']
    exact ih (h.insert hcode hhead hhead') htail htail'

end Fragments

/-! ## Outputs -/

namespace Output

variable {output other result : Output} {place : Section} {symbol path : String}
  {pieces : List Piece}

/-- Code that was inserted was inserted into its section, and nothing else was changed. -/
theorem insert_eq_set (h : (output.insert place symbol pieces path).toExcept = .ok result) :
    ((output.get place).insert symbol (.ofPieces pieces) path).failure = none ∧
      result = output.set place
        ((output.get place).insert symbol (.ofPieces pieces) path).value := by
  obtain ⟨hfailure, rfl⟩ := Attempt.toExcept_eq_ok.1 h
  exact ⟨hfailure, rfl⟩

theorem mergeSections_get {places : List Section} (hplaces : places.Nodup)
    (h : (mergeSections other path places output).failure = none) (place : Section) :
    (place ∈ places → ((output.get place).merge (other.get place) path).failure = none) ∧
      (mergeSections other path places output).value.get place =
        if place ∈ places then ((output.get place).merge (other.get place) path).value
        else output.get place := by
  induction places generalizing output with
  | nil => exact ⟨nofun, (if_neg List.not_mem_nil).symm⟩
  | cons first rest ih =>
    unfold mergeSections at h ⊢
    obtain ⟨hfirst, hrest, heq⟩ := Attempt.andThen_failure h
    obtain ⟨hnot, hnodup⟩ := List.nodup_cons.1 hplaces
    rw [heq]
    obtain ⟨hsucceeds, hget⟩ := ih hnodup hrest
    rw [hget]
    by_cases hplace : place = first
    · subst hplace
      rw [if_neg hnot, if_pos List.mem_cons_self]
      exact ⟨fun _ ↦ hfirst, get_set_self _ _ _⟩
    · have hsame : (output.change first ((output.get first).merge (other.get first) path)).value.get
          place = output.get place := get_set_of_ne output hplace _
      have hmem : place ∈ first :: rest ↔ place ∈ rest := by simp [hplace]
      rw [hsame] at hsucceeds ⊢
      simp only [hmem]
      exact ⟨hsucceeds, trivial⟩

/-- Outputs are merged section by section. -/
theorem merge_get (h : (output.merge other path).toExcept = .ok result) (place : Section) :
    ((output.get place).merge (other.get place) path).failure = none ∧
      result.get place = ((output.get place).merge (other.get place) path).value := by
  obtain ⟨hfailure, rfl⟩ := Attempt.toExcept_eq_ok.1 h
  unfold merge at hfailure ⊢
  obtain ⟨hsections, -, heq⟩ := Attempt.andThen_failure hfailure
  obtain ⟨hsucceeds, hget⟩ := mergeSections_get (by decide : Section.all.Nodup) hsections place
  refine ⟨hsucceeds (mem_all place), ?_⟩
  rw [if_pos (mem_all place)] at hget
  rw [heq, ← hget]
  cases place <;> rfl

end Output

end SchemaBindings
