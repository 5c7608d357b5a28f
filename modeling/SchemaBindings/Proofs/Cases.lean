import Mathlib
import SchemaBindings.Code.Enumeration

/-!
# Cases that values share

A case spells its value in capitals, with one sign for all separators and with an underscore at the
end of each word. Values that differ in no more than that share their case, and which ones these
are can be said without the spelling: it takes a few kinds of edits, each at one place of a value,
to get from one to the other. So the cases of an enumeration are distinct, and its table leads from
each case back to one value, exactly if no edits lead from one of its values to another.
-/

namespace SchemaBindings

open Text

/-! ## Letters -/

namespace Text

variable {c : Char}

theorem isUpper_toUpper (h : c.isLower = true) : c.toUpper.isUpper = true := by
  rw [Char.isUpper_toUpper_eq_isAlpha, Char.isAlpha, h, Bool.or_true]

theorem toUpper_eq_self_or_isUpper (c : Char) : c.toUpper = c ∨ c.toUpper.isUpper = true := by
  cases hlower : c.isLower with
  | false => exact .inl (Char.toUpper_eq_of_not_isLower (Bool.eq_false_iff.1 hlower))
  | true => exact .inr (isUpper_toUpper hlower)

theorem toNat_lt_of_isAlpha (h : c.isAlpha = true) : c.toNat < 128 := by
  simp only [Char.isAlpha, Char.isUpper, Char.isLower, Bool.or_eq_true, Bool.and_eq_true,
    decide_eq_true_eq, UInt32.le_iff_toNat_le] at h
  change (65 ≤ c.toNat ∧ c.toNat ≤ 90) ∨ (97 ≤ c.toNat ∧ c.toNat ≤ 122) at h
  omega

end Text

/-! ## Edits -/

namespace Names

/-- A change at one place of a text that its case does not show. -/
inductive Edit : List Char → List Char → Prop
  | separator (left right : List Char) (c : Char) (h : c = '.' ∨ c = '-' ∨ c = ':') :
      Edit (left ++ c :: right) (left ++ '_' :: right)
  | plus (left right : List Char) :
      Edit (left ++ '+' :: right) (left ++ ['_', 'p', 'l', 'u', 's'] ++ right)
  | boundary (left right : List Char) (a b : Char) (h : isBoundary a b = true) :
      Edit (left ++ a :: b :: right) (left ++ a :: '_' :: b :: right)
  /-- A letter may be a capital as well unless one can tell from it where a word ends. -/
  | letter (left right : List Char) (c : Char)
      (hleft : ∀ a ∈ left.getLast?, a.isLower = false ∧ a ≠ '+')
      (hright : ∀ b ∈ right.head?, isBoundary c b = false) :
      Edit (left ++ c :: right) (left ++ c.toUpper :: right)

/-- Whether edits lead from one value to the other. -/
def Alike (value other : String) : Prop := Relation.EqvGen Edit value.toList other.toList

variable {left right text : List Char} {a b c : Char}

/-! ## What edits leave as it is -/

theorem spellCaseChar_cases (c : Char) :
    ((c = '.' ∨ c = '-' ∨ c = ':') ∧ spellCaseChar c = ['_']) ∨
      (c = '+' ∧ spellCaseChar c = ['_', 'p', 'l', 'u', 's']) ∨
      ((c ≠ '.' ∧ c ≠ '-' ∧ c ≠ ':' ∧ c ≠ '+') ∧ spellCaseChar c = [c]) := by
  unfold spellCaseChar
  split
  · exact .inl ⟨‹_›, rfl⟩
  · split
    · exact .inr (.inl ⟨‹_›, rfl⟩)
    · refine .inr (.inr ⟨?_, rfl⟩)
      grind

theorem spellCaseChar_of_isUpper (h : c.isUpper = true) : spellCaseChar c = [c] := by
  obtain ⟨rfl | rfl | rfl, -⟩ | ⟨rfl, -⟩ | ⟨-, heq⟩ := spellCaseChar_cases c
  iterate 4 cases h
  exact heq

theorem spellCaseChar_of_isLower (h : c.isLower = true) : spellCaseChar c = [c] := by
  obtain ⟨rfl | rfl | rfl, -⟩ | ⟨rfl, -⟩ | ⟨-, heq⟩ := spellCaseChar_cases c
  iterate 4 cases h
  exact heq

theorem isBoundary_of_not_isLower (h : a.isLower = false) : isBoundary a b = false := by
  rw [isBoundary, h, Bool.false_and]

theorem isBoundary_underscore (a : Char) : isBoundary a '_' = false := Bool.and_false _

theorem breakWords_cons_cons (a b : Char) (rest : List Char) :
    breakWords (a :: b :: rest) =
      (if isBoundary a b then [a, '_'] else [a]) ++ breakWords (b :: rest) := by
  rw [breakWords]
  split <;> rfl

/-- Whether an underscore comes between two characters is up to these two alone. -/
theorem breakWords_seam (left : List Char) (a b : Char) (right : List Char) :
    breakWords (left ++ a :: b :: right) =
      breakWords (left ++ [a]) ++ (if isBoundary a b then ['_'] else []) ++
        breakWords (b :: right) := by
  induction left with
  | nil =>
    rw [List.nil_append, List.nil_append, breakWords_cons_cons]
    split <;> rfl
  | cons x left ih =>
    cases left with
    | nil =>
      simp only [List.cons_append, List.nil_append] at ih ⊢
      rw [breakWords_cons_cons x, breakWords_cons_cons x, ih]
      simp only [List.append_assoc]
    | cons y left =>
      simp only [List.cons_append] at ih ⊢
      rw [breakWords_cons_cons x, breakWords_cons_cons x, ih]
      simp only [List.append_assoc]

theorem breakWords_append
    (h : ∀ a ∈ left.getLast?, ∀ b ∈ right.head?, isBoundary a b = false) :
    breakWords (left ++ right) = breakWords left ++ breakWords right := by
  obtain rfl | ⟨front, a, rfl⟩ := List.eq_nil_or_concat' left
  · rfl
  cases right with
  | nil => simp [breakWords]
  | cons b rest =>
    have hseam : isBoundary a b = false := h a (by simp) b rfl
    rw [List.append_assoc, List.singleton_append, breakWords_seam, hseam]
    simp

theorem isBoundary_head_spelled (h : ∀ b ∈ right.head?, isBoundary c b = false) :
    ∀ b ∈ (right.flatMap spellCaseChar).head?, isBoundary c b = false := by
  cases right with
  | nil => nofun
  | cons b rest =>
    have hb : isBoundary c b = false := h b rfl
    obtain ⟨-, heq⟩ | ⟨-, heq⟩ | ⟨-, heq⟩ := spellCaseChar_cases b <;>
      simp [List.flatMap_cons, heq, hb, isBoundary_underscore]

theorem isLower_last_spelled (h : ∀ a ∈ left.getLast?, a.isLower = false ∧ a ≠ '+') :
    ∀ a ∈ (left.flatMap spellCaseChar).getLast?, a.isLower = false := by
  obtain rfl | ⟨front, a, rfl⟩ := List.eq_nil_or_concat' left
  · nofun
  obtain ⟨hlower, hplus⟩ := h a (by simp)
  rw [List.flatMap_append, List.flatMap_singleton]
  obtain ⟨-, heq⟩ | ⟨heq, -⟩ | ⟨-, heq⟩ := spellCaseChar_cases a
  · simp [heq]
  · exact absurd heq hplus
  · simp [heq, hlower]

theorem breakWords_insert (hleft : ∀ a ∈ left.getLast?, a.isLower = false)
    (hright : ∀ b ∈ right.head?, isBoundary c b = false) :
    breakWords (left ++ c :: right) = breakWords left ++ c :: breakWords right := by
  have hlast : breakWords (c :: right) = c :: breakWords right :=
    @breakWords_append [c] right fun a ha ↦ by
      obtain rfl : c = a := Option.some.inj ha
      exact hright
  rw [← hlast]
  exact breakWords_append fun a ha b _ ↦ isBoundary_of_not_isLower (hleft a ha)

/-- The cases of two texts are the same if the texts are one before they are spelled in capitals. -/
theorem caseKey_congr {text text' : List Char}
    (h : breakWords (text.flatMap spellCaseChar) = breakWords (text'.flatMap spellCaseChar)) :
    caseKey text = caseKey text' := congrArg upperChars h

theorem caseKey_boundary (h : isBoundary a b = true) :
    caseKey (left ++ a :: b :: right) = caseKey (left ++ a :: '_' :: b :: right) := by
  obtain ⟨ha, hb⟩ := Bool.and_eq_true_iff.1 h
  have hspell : spellCaseChar b = [b] := by
    cases hupper : b.isUpper with
    | true => exact spellCaseChar_of_isUpper hupper
    | false =>
      rw [hupper, Bool.false_or] at hb
      obtain ⟨rfl | rfl | rfl, -⟩ | ⟨rfl, -⟩ | ⟨-, heq⟩ := spellCaseChar_cases b
      iterate 4 cases hb
      exact heq
  have hline : spellCaseChar '_' = ['_'] := rfl
  apply caseKey_congr
  simp only [List.flatMap_append, List.flatMap_cons, spellCaseChar_of_isLower ha, hspell, hline,
    List.singleton_append]
  rw [breakWords_seam, if_pos h, breakWords_seam _ a '_', isBoundary_underscore,
    breakWords_cons_cons '_', isBoundary_of_not_isLower rfl]
  simp

theorem caseKey_letter (hleft : ∀ a ∈ left.getLast?, a.isLower = false ∧ a ≠ '+')
    (hright : ∀ b ∈ right.head?, isBoundary c b = false) :
    caseKey (left ++ c :: right) = caseKey (left ++ c.toUpper :: right) := by
  cases hlower : c.isLower with
  | false => rw [Char.toUpper_eq_of_not_isLower (Bool.eq_false_iff.1 hlower)]
  | true =>
    have hupper : c.toUpper.isUpper = true := isUpper_toUpper hlower
    have halpha : c.isAlpha = true := by rw [Char.isAlpha, hlower, Bool.or_true]
    have hcapital : c.toUpper.isAlpha = true := (Char.isAlpha_toUpper_eq_isAlpha c).trans halpha
    have hform : upperChar c = upperChar c.toUpper := by
      rw [upperChar_of_ascii (toNat_lt_of_isAlpha halpha),
        upperChar_of_ascii (toNat_lt_of_isAlpha hcapital), Char.toUpper_toUpper_eq_toUpper]
    unfold caseKey
    simp only [List.flatMap_append, List.flatMap_cons, spellCaseChar_of_isLower hlower,
      spellCaseChar_of_isUpper hupper, List.singleton_append]
    rw [breakWords_insert (isLower_last_spelled hleft) (isBoundary_head_spelled hright),
      breakWords_insert (isLower_last_spelled hleft)
        fun b _ ↦ isBoundary_of_not_isLower (Char.isLower_toUpper_eq_false c)]
    simp only [upperChars_append]
    congr 1
    change upperChar c ++ _ = upperChar c.toUpper ++ _
    rw [hform]

theorem Edit.caseKey_eq {text text' : List Char} (h : Edit text text') :
    caseKey text = caseKey text' := by
  cases h with
  | separator left right c h =>
    have hspell : spellCaseChar c = spellCaseChar '_' := if_pos h
    apply caseKey_congr
    simp only [List.flatMap_append, List.flatMap_cons, hspell]
  | plus left right =>
    have hspell : spellCaseChar '+' = ['_', 'p', 'l', 'u', 's'].flatMap spellCaseChar := rfl
    apply caseKey_congr
    simp only [List.flatMap_append, List.flatMap_cons, hspell, List.append_assoc]
  | boundary left right a b h => exact caseKey_boundary h
  | letter left right c hleft hright => exact caseKey_letter hleft hright

theorem caseKey_eq_of_eqvGen {text text' : List Char} (h : Relation.EqvGen Edit text text') :
    caseKey text = caseKey text' := by
  induction h with
  | rel _ _ hedit => exact hedit.caseKey_eq
  | refl => rfl
  | symm _ _ _ ih => exact ih.symm
  | trans _ _ _ _ _ ih ih' => exact ih.trans ih'

/-! ## From a text to its case -/

open Relation in
theorem eqvGen_spelled (done text : List Char) :
    EqvGen Edit (done ++ text) (done ++ text.flatMap spellCaseChar) := by
  induction text generalizing done with
  | nil => exact .refl _
  | cons c rest ih =>
    have hfirst : EqvGen Edit (done ++ c :: rest) (done ++ spellCaseChar c ++ rest) := by
      obtain ⟨hc, heq⟩ | ⟨rfl, heq⟩ | ⟨-, heq⟩ := spellCaseChar_cases c
      · rw [heq, List.append_assoc]
        exact .rel _ _ (.separator done rest c hc)
      · rw [heq]
        exact .rel _ _ (.plus done rest)
      · rw [heq, List.append_assoc]
        exact .refl _
    rw [List.flatMap_cons, ← List.append_assoc]
    exact hfirst.trans _ _ _ (ih _)

open Relation in
theorem eqvGen_breakWords (done text : List Char) :
    EqvGen Edit (done ++ text) (done ++ breakWords text) := by
  induction text generalizing done with
  | nil => exact .refl _
  | cons a rest ih =>
    cases rest with
    | nil => exact .refl _
    | cons b rest =>
      rw [breakWords_cons_cons, ← List.append_assoc]
      split
      case isTrue hbreak =>
        have hlater := ih (done ++ [a, '_'])
        refine .trans _ _ _ (.rel _ _ (.boundary done rest a b hbreak)) ?_
        simpa using hlater
      case isFalse =>
        have hlater := ih (done ++ [a])
        simpa using hlater

open Relation in
/-- A text without ends of words is edited letter by letter from the left, where all letters are
capitals already. -/
theorem eqvGen_toUpper {done text : List Char}
    (hdone : ∀ a ∈ done.getLast?, a.isLower = false ∧ a ≠ '+')
    (htext : text.IsChain (isBoundary · · = false)) (hplus : '+' ∉ text) :
    EqvGen Edit (done ++ text) (done ++ text.map Char.toUpper) := by
  induction text generalizing done with
  | nil => exact .refl _
  | cons c rest ih =>
    obtain ⟨hc, hrest⟩ := List.ne_and_not_mem_of_not_mem_cons hplus
    have hlast : ∀ a ∈ (done ++ [c.toUpper]).getLast?, a.isLower = false ∧ a ≠ '+' := by
      intro a ha
      obtain rfl : c.toUpper = a := by simpa using ha
      refine ⟨Char.isLower_toUpper_eq_false c, fun heq ↦ ?_⟩
      obtain hself | hupper := toUpper_eq_self_or_isUpper c
      · exact hc (heq.symm.trans hself)
      · rw [heq] at hupper
        cases hupper
    have hlater := ih hlast htext.tail hrest
    refine .trans _ _ _ (.rel _ _ (.letter done rest c hdone htext.rel_head?)) ?_
    simpa using hlater

theorem breakWords_cons_eq (a : Char) (rest : List Char) :
    ∃ tail, breakWords (a :: rest) = a :: tail := by
  cases rest with
  | nil => exact ⟨[], rfl⟩
  | cons b rest =>
    rw [breakWords_cons_cons]
    split <;> exact ⟨_, rfl⟩

theorem isChain_breakWords (text : List Char) :
    (breakWords text).IsChain (isBoundary · · = false) := by
  induction text with
  | nil => exact .nil
  | cons a rest ih =>
    cases rest with
    | nil => exact .singleton a
    | cons b rest =>
      rw [breakWords_cons_cons]
      split
      case isTrue =>
        refine .cons_cons (isBoundary_underscore a) (ih.cons fun x _ ↦ ?_)
        exact isBoundary_of_not_isLower rfl
      case isFalse hword =>
        obtain ⟨tail, htail⟩ := breakWords_cons_eq b rest
        rw [htail] at ih ⊢
        exact ih.cons_cons (by simpa using hword)

theorem mem_breakWords (h : c ∈ breakWords text) : c = '_' ∨ c ∈ text := by
  induction text with
  | nil => cases h
  | cons a rest ih =>
    cases rest with
    | nil => exact .inr h
    | cons b rest =>
      rw [breakWords_cons_cons, List.mem_append] at h
      obtain hfirst | hlater := h
      · split at hfirst <;> simp at hfirst <;> grind
      · exact (ih hlater).imp_right (.tail a)

/-- The signs that a text is spelled with: its own, but for the separators and the plus. -/
theorem mem_spelled (h : c ∈ text.flatMap spellCaseChar) :
    c ≠ '+' ∧ (c ∈ text ∨ c.toNat < 128) := by
  obtain ⟨a, ha, hc⟩ := List.mem_flatMap.1 h
  obtain ⟨-, heq⟩ | ⟨-, heq⟩ | ⟨⟨-, -, -, hplus⟩, heq⟩ := spellCaseChar_cases a <;> rw [heq] at hc
  · obtain rfl := List.mem_singleton.1 hc
    exact ⟨by decide, .inr (by decide)⟩
  · have hsigns : ['_', 'p', 'l', 'u', 's'].all (fun c ↦ c ≠ '+' ∧ c.toNat < 128) = true := by
      decide
    obtain ⟨hplus, hascii⟩ := of_decide_eq_true (List.all_eq_true.1 hsigns c hc)
    exact ⟨hplus, .inr hascii⟩
  · obtain rfl := List.mem_singleton.1 hc
    exact ⟨hplus, .inl ha⟩

theorem upperChars_of_ascii (h : ∀ c ∈ text, c.toNat < 128) :
    upperChars text = text.map Char.toUpper := by
  induction text with
  | nil => rfl
  | cons c rest ih =>
    obtain ⟨hc, hrest⟩ := List.forall_mem_cons.1 h
    change upperChar c ++ upperChars rest = _
    rw [upperChar_of_ascii hc, ih hrest]
    rfl

theorem mem_words (h : ∀ c ∈ text, c.toNat < 128)
    (hc : c ∈ breakWords (text.flatMap spellCaseChar)) : c ≠ '+' ∧ c.toNat < 128 := by
  obtain rfl | hspelled := mem_breakWords hc
  · exact ⟨by decide, by decide⟩
  · obtain ⟨hplus, hfrom⟩ := mem_spelled hspelled
    exact ⟨hplus, hfrom.elim (h c) id⟩

theorem caseKey_of_ascii (h : ∀ c ∈ text, c.toNat < 128) :
    caseKey text = (breakWords (text.flatMap spellCaseChar)).map Char.toUpper :=
  upperChars_of_ascii fun _ hc ↦ (mem_words h hc).2

theorem eqvGen_caseKey (h : ∀ c ∈ text, c.toNat < 128) :
    Relation.EqvGen Edit text (caseKey text) := by
  have hspelled := eqvGen_spelled [] text
  have hwords := eqvGen_breakWords [] (text.flatMap spellCaseChar)
  have hcapitals := @eqvGen_toUpper [] (breakWords (text.flatMap spellCaseChar)) nofun
    (isChain_breakWords (text.flatMap spellCaseChar)) fun hc ↦ (mem_words h hc).1 rfl
  rw [caseKey_of_ascii h]
  exact hspelled.trans _ _ _ (hwords.trans _ _ _ hcapitals)

/-- Values are alike exactly if they have the same case. -/
theorem alike_iff {value other : String} (hvalue : ∀ c ∈ value.toList, c.toNat < 128)
    (hother : ∀ c ∈ other.toList, c.toNat < 128) :
    Alike value other ↔ caseKey value.toList = caseKey other.toList := by
  constructor
  · exact caseKey_eq_of_eqvGen
  · intro h
    have hback := (eqvGen_caseKey hother).symm
    rw [← h] at hback
    exact (eqvGen_caseKey hvalue).trans _ _ _ hback

theorem enumCase_eq_iff {value other typeName : String} :
    enumCase value typeName = enumCase other typeName ↔
      caseKey value.toList = caseKey other.toList := by
  rw [enumCase, enumCase, String.append_right_inj, String.ofList_inj]

end Names

/-! ## Cases of enumerations -/

namespace Code.Enumeration

open Names

/-- The cases of an enumeration of ASCII values are distinct exactly if no two of the values are
alike, and each case has one value exactly if alike values are the same. -/
theorem cases_distinct_iff (e : Enumeration)
    (hascii : ∀ value ∈ e.values, ∀ c ∈ value.toList, c.toNat < 128) :
    ((e.cases.map Prod.fst).Nodup ↔ e.values.Pairwise fun value other ↦ ¬Alike value other) ∧
    ((∀ entry ∈ e.cases, ∀ other ∈ e.cases, entry.1 = other.1 → entry.2 = other.2) ↔
      ∀ value ∈ e.values, ∀ other ∈ e.values, Alike value other → value = other) := by
  have hiff : ∀ value ∈ e.values, ∀ other ∈ e.values,
      (enumCase value e.typeName = enumCase other e.typeName ↔ Alike value other) :=
    fun value hvalue other hother ↦
      enumCase_eq_iff.trans (alike_iff (hascii value hvalue) (hascii other hother)).symm
  constructor
  · rw [cases, List.map_map, List.Nodup, List.pairwise_map]
    constructor <;> intro h <;> refine h.imp_of_mem fun hvalue hother hne ↦ ?_
    · exact fun halike ↦ hne ((hiff _ hvalue _ hother).2 halike)
    · exact fun heq ↦ hne ((hiff _ hvalue _ hother).1 heq)
  · simp only [cases, List.forall_mem_map]
    exact forall₂_congr fun value hvalue ↦ forall₂_congr fun other hother ↦
      imp_congr_left (hiff value hvalue other hother)

end Code.Enumeration

/-! ## Two ports with one case -/

namespace Ports

open Code Names

def ports (values : List String) : Enumeration := ⟨"Source", "Source", none, values⟩

theorem one_case : (ports ["hdmi-1", "hdmi:1"]).cases =
    [("SOURCE_HDMI_1", "hdmi-1"), ("SOURCE_HDMI_1", "hdmi:1")] := by
  decide +kernel

/-- What a check of every sign says of the values. -/
theorem forall_signs {check : Char → Prop} [DecidablePred check] {values : List String}
    (h : (values.all fun value ↦ value.toList.all fun c ↦ check c) = true) :
    ∀ value ∈ values, ∀ c ∈ value.toList, check c := by
  simpa using h

/-- Two values of the usual signs that differ by a separator: the enumeration has one name twice,
and its table does not lead from that name back to one value. -/
theorem separators_share_a_case :
    let e := ports ["hdmi-1", "hdmi:1"]
    (∀ value ∈ e.values, ∀ c ∈ value.toList, c.isAlphanum ∨ c ∈ ['_', '.', '-', ':', '+']) ∧
    e.values.Nodup ∧
    ¬(e.cases.map Prod.fst).Nodup ∧
    e.declaration =
      "/* Source */\ntypedef enum \x7b\n    SOURCE_HDMI_1,\n    SOURCE_HDMI_1\n\x7d Source;\n" ∧
    ¬∀ entry ∈ e.cases, ∀ other ∈ e.cases, entry.1 = other.1 → entry.2 = other.2 := by
  intro e
  refine ⟨forall_signs (by decide +kernel), by decide +kernel, ?_, by decide +kernel, fun h ↦ ?_⟩
  · rw [one_case]
    decide
  · rw [one_case] at h
    have hsame := h ("SOURCE_HDMI_1", "hdmi-1") (by decide) ("SOURCE_HDMI_1", "hdmi:1")
      (by decide) rfl
    exact absurd hsame (by decide)

theorem alike_separators : Alike "hdmi-1" "hdmi:1" :=
  .trans _ "hdmi_1".toList _ (.rel _ _ (.separator "hdmi".toList ['1'] '-' (by decide)))
    (.symm _ _ (.rel _ _ (.separator "hdmi".toList ['1'] ':' (by decide))))

/-- Ports that are told apart by more than separators have distinct cases, and so no edits lead
from one of them to another. -/
theorem distinct_ports :
    ¬((ports ["hdmi-1", "hdmi:1"]).cases.map Prod.fst).Nodup ∧
    ((ports ["hdmi-1", "hdmi1+", "tuner"]).cases.map Prod.fst).Nodup ∧
    ["hdmi-1", "hdmi1+", "tuner"].Pairwise fun value other ↦ ¬Alike value other := by
  have hdistinct : ((ports ["hdmi-1", "hdmi1+", "tuner"]).cases.map Prod.fst).Nodup := by
    decide +kernel
  refine ⟨fun h ↦ ?_, hdistinct, ?_⟩
  · have hpairwise := (Enumeration.cases_distinct_iff (ports ["hdmi-1", "hdmi:1"])
      (forall_signs (by decide +kernel))).1.1 h
    exact List.rel_of_pairwise_cons hpairwise (.head _) alike_separators
  · exact (Enumeration.cases_distinct_iff (ports ["hdmi-1", "hdmi1+", "tuner"])
      (forall_signs (by decide +kernel))).1.1 hdistinct

end Ports

end SchemaBindings
