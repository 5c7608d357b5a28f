import SchemaBindings.Proofs.Cases

/-!
# Names of cases

Under a type whose name is an identifier, the case of a value of the usual signs is an identifier in
capitals: the name of the type, an underscore and the value. Of the value all letters and digits are
there in their order, and a plus is spelled out; all that is put in is underscores.
-/

namespace SchemaBindings

open Text

namespace Names

/-- A name that code may use: ASCII letters, digits and underscores, with no digit in front. -/
def IsIdentifier (name : String) : Prop :=
  ∃ c rest, name.toList = c :: rest ∧ (c.isAlpha ∨ c = '_') ∧ ∀ d ∈ rest, d.isAlphanum ∨ d = '_'

/-- A sign of a value in capitals, as it is spelled in the case without underscores. -/
def bareForm (c : Char) : List Char :=
  if c ∈ ['_', '.', '-', ':'] then [] else if c = '+' then ['P', 'L', 'U', 'S'] else [c]

variable {text value : List Char} {c : Char}

/-! ## Signs of identifiers -/

theorem isAlphanum_toUpper_eq (c : Char) : c.toUpper.isAlphanum = c.isAlphanum := by
  obtain hself | hupper := toUpper_eq_self_or_isUpper c
  · rw [hself]
  · have hcapital : c.toUpper.isAlpha = true := by rw [Char.isAlpha, hupper, Bool.true_or]
    have halpha : c.isAlpha = true := (Char.isAlpha_toUpper_eq_isAlpha c).symm.trans hcapital
    rw [Char.isAlphanum, Char.isAlphanum, hcapital, halpha, Bool.true_or, Bool.true_or]

theorem toUpper_of_wordSign (h : c.isAlphanum ∨ c = '_') :
    c.toUpper.isAlphanum ∨ c.toUpper = '_' := by
  obtain h | rfl := h
  · exact .inl ((isAlphanum_toUpper_eq c).trans h)
  · exact .inr rfl

theorem toNat_lt_of_isAlphanum (h : c.isAlphanum = true) : c.toNat < 128 := by
  rw [Char.isAlphanum, Bool.or_eq_true] at h
  obtain halpha | hdigit := h
  · exact toNat_lt_of_isAlpha halpha
  · simp only [Char.isDigit, Bool.and_eq_true, decide_eq_true_eq, UInt32.le_iff_toNat_le] at hdigit
    change 48 ≤ c.toNat ∧ c.toNat ≤ 57 at hdigit
    omega

theorem toNat_lt_of_wordSign (h : c.isAlphanum ∨ c = '_') : c.toNat < 128 := by
  obtain h | rfl := h
  · exact toNat_lt_of_isAlphanum h
  · decide

theorem toNat_lt_of_usual (h : c.isAlphanum ∨ c ∈ ['_', '.', '-', ':', '+']) : c.toNat < 128 := by
  obtain h | h := h
  · exact toNat_lt_of_isAlphanum h
  · have hsigns : ['_', '.', '-', ':', '+'].all (·.toNat < 128) = true := by decide
    exact of_decide_eq_true (List.all_eq_true.1 hsigns c h)

/-! ## Words of a value -/

theorem wordSign_of_spelled (hvalue : ∀ c ∈ value, c.isAlphanum ∨ c ∈ ['_', '.', '-', ':', '+'])
    (h : c ∈ value.flatMap spellCaseChar) : c.isAlphanum ∨ c = '_' := by
  obtain ⟨a, ha, hc⟩ := List.mem_flatMap.1 h
  obtain ⟨-, heq⟩ | ⟨-, heq⟩ | ⟨⟨hdot, hdash, hcolon, hplus⟩, heq⟩ := spellCaseChar_cases a <;>
    rw [heq] at hc
  · exact .inr (List.mem_singleton.1 hc)
  · have hletters : ['_', 'p', 'l', 'u', 's'].all (fun d ↦ d.isAlphanum ∨ d = '_') = true := by
      decide
    exact of_decide_eq_true (List.all_eq_true.1 hletters c hc)
  · obtain rfl := List.mem_singleton.1 hc
    exact (hvalue c ha).imp_right fun hsign ↦ by simpa [hdot, hdash, hcolon, hplus] using hsign

theorem wordSign_of_caseKey (hvalue : ∀ c ∈ value, c.isAlphanum ∨ c ∈ ['_', '.', '-', ':', '+'])
    (h : c ∈ caseKey value) : (c.isAlphanum ∨ c = '_') ∧ c.isLower = false := by
  rw [caseKey_of_ascii fun c hc ↦ toNat_lt_of_usual (hvalue c hc)] at h
  obtain ⟨a, ha, rfl⟩ := List.mem_map.1 h
  refine ⟨toUpper_of_wordSign ?_, Char.isLower_toUpper_eq_false a⟩
  exact (mem_breakWords ha).elim .inr (wordSign_of_spelled hvalue)

/-! ## What is put in and what is kept -/

/-- Breaking words puts in underscores only. -/
theorem filter_breakWords (text : List Char) :
    ((breakWords text).map Char.toUpper).filter (· ≠ '_') =
      (text.map Char.toUpper).filter (· ≠ '_') := by
  have hline : '_'.toUpper = '_' := rfl
  induction text with
  | nil => rfl
  | cons a rest ih =>
    cases rest with
    | nil => rfl
    | cons b rest =>
      rw [breakWords_cons_cons, List.map_append, List.filter_append, ih]
      split <;> simp [List.filter_cons, hline] <;> split <;> rfl

theorem bareForm_eq_filter (h : c ∉ ['.', '-', ':', '+']) : bareForm c = [c].filter (· ≠ '_') := by
  simp only [List.mem_cons, List.not_mem_nil, or_false, not_or] at h
  obtain ⟨hdot, hdash, hcolon, hplus⟩ := h
  unfold bareForm
  by_cases hline : c = '_' <;> simp [hline, hdot, hdash, hcolon, hplus]

theorem toUpper_notMem (h : c ∉ ['.', '-', ':', '+']) : c.toUpper ∉ ['.', '-', ':', '+'] := by
  obtain hself | hupper := toUpper_eq_self_or_isUpper c
  · rwa [hself]
  · intro hmem
    have hsigns : ['.', '-', ':', '+'].all (!·.isUpper) = true := by decide
    have hsmall := List.all_eq_true.1 hsigns _ hmem
    rw [hupper] at hsmall
    cases hsmall

theorem filter_spellCaseChar (c : Char) :
    ((spellCaseChar c).map Char.toUpper).filter (· ≠ '_') = bareForm c.toUpper := by
  obtain ⟨rfl | rfl | rfl, -⟩ | ⟨rfl, -⟩ | ⟨⟨hdot, hdash, hcolon, hplus⟩, heq⟩ :=
    spellCaseChar_cases c
  iterate 4 rfl
  have hother : c ∉ ['.', '-', ':', '+'] := by simp [hdot, hdash, hcolon, hplus]
  rw [heq, bareForm_eq_filter (toUpper_notMem hother)]
  rfl

theorem filter_caseKey (hvalue : ∀ c ∈ value, c.toNat < 128) :
    (caseKey value).filter (· ≠ '_') = (value.map Char.toUpper).flatMap bareForm := by
  calc (caseKey value).filter (· ≠ '_')
      = ((breakWords (value.flatMap spellCaseChar)).map Char.toUpper).filter (· ≠ '_') := by
        rw [caseKey_of_ascii hvalue]
    _ = ((value.flatMap spellCaseChar).map Char.toUpper).filter (· ≠ '_') := filter_breakWords _
    _ = value.flatMap fun c ↦ ((spellCaseChar c).map Char.toUpper).filter (· ≠ '_') := by
        rw [List.map_flatMap, List.filter_flatMap]
    _ = value.flatMap fun c ↦ bareForm c.toUpper :=
        List.flatMap_congr fun c _ ↦ filter_spellCaseChar c
    _ = (value.map Char.toUpper).flatMap bareForm := by rw [List.flatMap_map]

/-! ## Cases -/

theorem toList_enumCase {value typeName : String} (htype : IsIdentifier typeName) :
    (enumCase value typeName).toList =
      typeName.toList.map Char.toUpper ++ '_' :: caseKey value.toList := by
  obtain ⟨first, rest, htext, hfirst, hrest⟩ := htype
  have hascii : ∀ c ∈ typeName.toList, c.toNat < 128 := by
    rw [htext]
    refine List.forall_mem_cons.2 ⟨?_, fun c hc ↦ toNat_lt_of_wordSign (hrest c hc)⟩
    exact toNat_lt_of_wordSign (hfirst.imp_left fun halpha ↦ by simp [Char.isAlphanum, halpha])
  simp [enumCase, upper, upperChars_of_ascii hascii]

/-- The case of a value is an identifier without small letters. It starts with the name of the type
in capitals and an underscore, and without its underscores the rest is the value in capitals, with
no separators and with each plus spelled out. -/
theorem enumCase_spells_value {value typeName : String} (htype : IsIdentifier typeName)
    (hvalue : ∀ c ∈ value.toList, c.isAlphanum ∨ c ∈ ['_', '.', '-', ':', '+']) :
    IsIdentifier (enumCase value typeName) ∧
    (∀ c ∈ (enumCase value typeName).toList, c.isLower = false) ∧
    ∃ rest, (enumCase value typeName).toList =
        typeName.toList.map Char.toUpper ++ '_' :: rest ∧
      rest.filter (· ≠ '_') = (value.toList.map Char.toUpper).flatMap bareForm := by
  have hcase := @toList_enumCase value typeName htype
  have hkey := fun c (hc : c ∈ caseKey value.toList) ↦ wordSign_of_caseKey hvalue hc
  refine ⟨?_, ?_, _, hcase, filter_caseKey fun c hc ↦ toNat_lt_of_usual (hvalue c hc)⟩
  · obtain ⟨first, rest, htext, hfirst, hrest⟩ := htype
    rw [htext] at hcase
    refine ⟨first.toUpper, rest.map Char.toUpper ++ '_' :: caseKey value.toList, hcase, ?_, ?_⟩
    · obtain halpha | rfl := hfirst
      · exact .inl ((Char.isAlpha_toUpper_eq_isAlpha first).trans halpha)
      · exact .inr rfl
    · rw [List.forall_mem_append, List.forall_mem_map, List.forall_mem_cons]
      exact ⟨fun c hc ↦ toUpper_of_wordSign (hrest c hc), .inr rfl, fun c hc ↦ (hkey c hc).1⟩
  · rw [hcase]
    rw [List.forall_mem_append, List.forall_mem_map, List.forall_mem_cons]
    exact ⟨fun c _ ↦ Char.isLower_toUpper_eq_false c, rfl, fun c hc ↦ (hkey c hc).2⟩

/-- A value with words, separators and a plus that is taken for a word of its own. -/
theorem enumCase_of_codec : IsIdentifier "Video_codec" ∧
    (∀ c ∈ "h.265-main10+HDR".toList, c.isAlphanum ∨ c ∈ ['_', '.', '-', ':', '+']) ∧
    enumCase "h.265-main10+HDR" "Video_codec" = "VIDEO_CODEC_H_265_MAIN_10_PLUS_HDR" ∧
    IsIdentifier (enumCase "h.265-main10+HDR" "Video_codec") ∧
    ∃ rest, (enumCase "h.265-main10+HDR" "Video_codec").toList =
        "VIDEO_CODEC".toList ++ '_' :: rest ∧
      rest.filter (· ≠ '_') = "H265MAIN10PLUSHDR".toList := by
  have htype : IsIdentifier "Video_codec" :=
    ⟨'V', "ideo_codec".toList, rfl, by decide, by simp⟩
  have hvalue : ∀ c ∈ "h.265-main10+HDR".toList,
      c.isAlphanum ∨ c ∈ ['_', '.', '-', ':', '+'] := by simp
  obtain ⟨hidentifier, -, rest, hcase, hrest⟩ := enumCase_spells_value htype hvalue
  exact ⟨htype, hvalue, by decide +kernel, hidentifier, rest, hcase, hrest⟩

end Names

end SchemaBindings
