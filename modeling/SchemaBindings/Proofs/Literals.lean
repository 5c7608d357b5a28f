import SchemaBindings.Proofs.Cases

/-!
# Literals of conversion tables

A conversion table has a string literal for each value, with a backslash before each backslash and
each quote of the value. Read from its opening quote, the literal is the value again and ends at its
own closing quote, whatever the value is. Who reads the table from its start has to find the opening
quotes first, and the case before a literal keeps the quotes of its value: the literals of the table
are the values of the enumeration exactly if there is no quote in the values and in the name of the
type.
-/

namespace SchemaBindings

open Text

namespace Code

/-! ## Reading literals -/

/-- Where one is in a text: outside of its literals, or inside of one of which some signs have been
read, the last of them maybe a backslash. -/
inductive LiteralPlace where
  | outside
  | inside (read : List Char)
  | escaped (read : List Char)

structure LiteralReader where
  found : List String
  place : LiteralPlace

namespace LiteralReader

/-- One sign further on. A literal goes on to the next quote that has no backslash before it, which
has to be on the same line, and in it only backslashes and quotes have a backslash before them. -/
def next (r : LiteralReader) (c : Char) : Option LiteralReader :=
  match r.place with
  | .outside => some (if c = '"' then ⟨r.found, .inside []⟩ else r)
  | .inside read =>
    if c = '"' then some ⟨r.found ++ [String.ofList read], .outside⟩
    else if c = '\\' then some ⟨r.found, .escaped read⟩
    else if c = '\n' then none
    else some ⟨r.found, .inside (read ++ [c])⟩
  | .escaped read =>
    if c = '\\' ∨ c = '"' then some ⟨r.found, .inside (read ++ [c])⟩ else none

def run (r : LiteralReader) (text : List Char) : Option LiteralReader := text.foldlM next r

end LiteralReader

/-- The values of all string literals of a text in their order, if each of them is closed. -/
def literals (text : String) : Option (List String) :=
  match LiteralReader.run ⟨[], .outside⟩ text.toList with
  | some ⟨found, .outside⟩ => some found
  | _ => none

theorem literals_eq_some {text : String} {found : List String} :
    literals text = some found ↔
      LiteralReader.run ⟨[], .outside⟩ text.toList = some ⟨found, .outside⟩ := by
  unfold literals
  split
  case h_1 found' hrun => simp [hrun]
  case h_2 hrun => exact ⟨nofun, fun h ↦ absurd h (hrun found)⟩

namespace LiteralReader

variable {r r' : LiteralReader} {found : List String} {read text : List Char} {c : Char}

@[simp]
theorem run_nil (r : LiteralReader) : run r [] = some r := rfl

theorem run_cons (r : LiteralReader) (c : Char) (rest : List Char) :
    run r (c :: rest) = (next r c).bind (run · rest) := rfl

theorem run_append (r : LiteralReader) (left right : List Char) :
    run r (left ++ right) = (run r left).bind (run · right) :=
  List.foldlM_append

theorem run_eq_some_append {left right : List Char} :
    run r (left ++ right) = some r' ↔ ∃ mid, run r left = some mid ∧ run mid right = some r' := by
  rw [run_append, Option.bind_eq_some_iff]

/-! ### One literal -/

theorem run_outside (h : '"' ∉ text) : run ⟨found, .outside⟩ text = some ⟨found, .outside⟩ := by
  induction text with
  | nil => rfl
  | cons c rest ih =>
    rw [List.mem_cons, not_or] at h
    have hnext : next ⟨found, .outside⟩ c = some ⟨found, .outside⟩ :=
      congrArg some (if_neg (Ne.symm h.1))
    rw [run_cons, hnext]
    exact ih h.2

theorem run_escapeChar (h : c ≠ '\n') :
    run ⟨found, .inside read⟩ (escapeChar c) = some ⟨found, .inside (read ++ [c])⟩ := by
  unfold escapeChar
  split
  case isTrue hspecial =>
    have hback : next ⟨found, .inside read⟩ '\\' = some ⟨found, .escaped read⟩ := rfl
    have hsign : next ⟨found, .escaped read⟩ c = some ⟨found, .inside (read ++ [c])⟩ :=
      if_pos hspecial
    rw [run_cons, hback, Option.bind_some, run_cons, hsign]
    rfl
  case isFalse hplain =>
    rw [not_or] at hplain
    have hnext : next ⟨found, .inside read⟩ c = some ⟨found, .inside (read ++ [c])⟩ := by
      simp only [next, if_neg hplain.1, if_neg hplain.2, if_neg h]
    rw [run_cons, hnext]
    rfl

theorem run_escaped {value : List Char} (h : '\n' ∉ value) :
    run ⟨found, .inside read⟩ (value.flatMap escapeChar) =
      some ⟨found, .inside (read ++ value)⟩ := by
  induction value generalizing read with
  | nil => rw [List.flatMap_nil, List.append_nil, run_nil]
  | cons c rest ih =>
    rw [List.mem_cons, not_or] at h
    rw [List.flatMap_cons, run_append, run_escapeChar (Ne.symm h.1)]
    refine (ih h.2).trans ?_
    rw [List.append_assoc, List.singleton_append]

/-- A literal that is read from behind its opening quote is the value that it was written for, and
what comes behind its closing quote is not in it. -/
theorem run_escape_append {value : String} (h : '\n' ∉ value.toList) (rest : List Char) :
    run ⟨found, .inside []⟩ ((escape value).toList ++ '"' :: rest) =
      run ⟨found ++ [value], .outside⟩ rest := by
  rw [escape, respell, String.toList_ofList, run_append, run_escaped h]
  simp [run_cons, next]

/-! ### How many literals are opened -/

/-- The literals that have been read, and the one that is being read. -/
def opened (r : LiteralReader) : Nat :=
  r.found.length + match r.place with
    | .outside => 0
    | _ => 1

theorem opened_le_of_next (h : next r c = some r') : r.opened ≤ r'.opened := by
  obtain ⟨found, place⟩ := r
  cases place with
  | outside =>
    cases h
    split <;> simp [opened]
  | inside read =>
    simp only [next] at h
    split at h
    · cases h
      simp [opened]
    · split at h
      · cases h
        exact le_rfl
      · split at h <;> cases h
        exact le_rfl
  | escaped read =>
    simp only [next] at h
    split at h <;> cases h
    exact le_rfl

theorem opened_le_of_run (h : run r text = some r') : r.opened ≤ r'.opened := by
  induction text generalizing r with
  | nil =>
    cases h
    exact le_rfl
  | cons c rest ih =>
    rw [run_cons] at h
    obtain ⟨mid, hnext, hrest⟩ := Option.bind_eq_some_iff.1 h
    exact (opened_le_of_next hnext).trans (ih hrest)

/-- A text with a quote opens a literal if it is read from outside. -/
theorem opened_lt_of_run (hplace : r.place = .outside) (hquote : '"' ∈ text)
    (h : run r text = some r') : r.opened < r'.opened := by
  obtain ⟨found, place⟩ := r
  cases hplace
  induction text with
  | nil => cases hquote
  | cons c rest ih =>
    rw [run_cons] at h
    obtain ⟨mid, hnext, hrest⟩ := Option.bind_eq_some_iff.1 h
    cases hnext
    by_cases hc : c = '"'
    · rw [if_pos hc] at hrest
      exact opened_le_of_run hrest
    · rw [if_neg hc] at hrest
      exact ih ((List.mem_cons.1 hquote).resolve_left (Ne.symm hc)) hrest

theorem place_of_newline (h : run r (text ++ ['\n']) = some r') : r'.place = .outside := by
  obtain ⟨⟨found, place⟩, -, hline⟩ := run_eq_some_append.1 h
  cases place with
  | outside =>
    cases hline
    rfl
  | inside read => cases hline
  | escaped read => cases hline

/-- A quote ends the literal that one is inside of, or opens one. -/
theorem opened_of_quote (hplace : ∀ read, r.place ≠ .escaped read) (h : next r '"' = some r') :
    (r'.place = .outside ∧ r'.opened = r.opened) ∨ r'.opened = r.opened + 1 := by
  obtain ⟨found, place⟩ := r
  cases place with
  | outside =>
    cases h
    exact .inr rfl
  | inside read =>
    cases h
    exact .inl ⟨rfl, by simp [opened]⟩
  | escaped read => exact absurd rfl (hplace read)

theorem place_of_next (hc : c ≠ '\\') (h : next r c = some r') (read : List Char) :
    r'.place ≠ .escaped read := by
  obtain ⟨found, place⟩ := r
  cases place with
  | outside =>
    cases h
    split <;> nofun
  | inside read =>
    simp only [next, if_neg hc] at h
    split at h
    · cases h
      nofun
    · split at h <;> cases h
      nofun
  | escaped read =>
    simp only [next] at h
    split at h <;> cases h
    nofun

/-! ### Rows of a table -/

theorem toList_conversionRow (entry : String × String) :
    (Enumeration.conversionRow entry).toList =
      ("    \x7b ".toList ++ entry.1.toList ++ ", _T".toList ++ ['(']) ++
        '"' :: ((escape entry.2).toList ++ '"' :: ") \x7d,".toList ++ ['\n']) := by
  simp [Enumeration.conversionRow]

/-- A row opens a literal, and one more if there is a quote in its case: the quote before the value
is not the opening quote of a literal any more, or not that of the first. -/
theorem opened_of_row {entry : String × String} (hplace : r.place = .outside)
    (h : run r (Enumeration.conversionRow entry).toList = some r') :
    r'.place = .outside ∧ r.opened + 1 ≤ r'.opened ∧
      ('"' ∈ entry.1.toList → r.opened + 2 ≤ r'.opened) := by
  rw [toList_conversionRow] at h
  have hquote : '"' ∈ ("    \x7b ".toList ++ entry.1.toList ++ ", _T".toList ++ ['(']) ++
      '"' :: ((escape entry.2).toList ++ '"' :: ") \x7d,".toList ++ ['\n']) := by simp
  have hany := opened_lt_of_run hplace hquote h
  obtain ⟨before, hbefore, hafter⟩ := run_eq_some_append.1 h
  obtain ⟨behind, hquoted, hrest⟩ := Option.bind_eq_some_iff.1 hafter
  have hend : r'.place = .outside := place_of_newline hrest
  refine ⟨hend, hany, fun hcase ↦ ?_⟩
  have hopened : r.opened < before.opened :=
    opened_lt_of_run hplace (by simp [hcase]) hbefore
  obtain ⟨last, -, hparen⟩ := run_eq_some_append.1 hbefore
  obtain ⟨_, hnext, hnil⟩ := Option.bind_eq_some_iff.1 hparen
  cases hnil
  -- If the quote before the value ends what the case opened, a later one opens another literal.
  obtain ⟨houtside, hsame⟩ | hmore := opened_of_quote (place_of_next (by decide) hnext) hquoted
  · have hlater := opened_lt_of_run houtside (by simp) hrest
    omega
  · have hlater := opened_le_of_run hrest
    omega

theorem opened_of_rows {entries : List (String × String)} (hplace : r.place = .outside)
    (h : run r (entries.flatMap fun entry ↦ (Enumeration.conversionRow entry).toList) = some r') :
    r'.place = .outside ∧ r.opened + entries.length ≤ r'.opened ∧
      ((∃ entry ∈ entries, '"' ∈ entry.1.toList) →
        r.opened + entries.length < r'.opened) := by
  induction entries generalizing r with
  | nil =>
    cases h
    exact ⟨hplace, le_rfl, nofun⟩
  | cons entry rest ih =>
    obtain ⟨mid, hrow, hrest⟩ := run_eq_some_append.1 h
    obtain ⟨hmid, hone, htwo⟩ := opened_of_row hplace hrow
    obtain ⟨hend, hall, hmore⟩ := ih hmid hrest
    rw [List.length_cons]
    refine ⟨hend, by omega, ?_⟩
    rintro ⟨other, hother, hquote⟩
    obtain rfl | hother := List.mem_cons.1 hother
    · have := htwo hquote
      omega
    · have := hmore ⟨other, hother, hquote⟩
      omega

theorem run_row {entry : String × String} (hcase : '"' ∉ entry.1.toList)
    (hvalue : '\n' ∉ entry.2.toList) :
    run ⟨found, .outside⟩ (Enumeration.conversionRow entry).toList =
      some ⟨found ++ [entry.2], .outside⟩ := by
  have hhead : '"' ∉ "    \x7b ".toList ++ entry.1.toList ++ ", _T".toList ++ ['('] := by
    simp [hcase]
  calc run ⟨found, .outside⟩ (Enumeration.conversionRow entry).toList
      = run ⟨found, .inside []⟩
          ((escape entry.2).toList ++ '"' :: (") \x7d,".toList ++ ['\n'])) := by
        rw [toList_conversionRow, run_append, run_outside hhead, Option.bind_some, run_cons,
          List.append_assoc]
        rfl
    _ = run ⟨found ++ [entry.2], .outside⟩ (") \x7d,".toList ++ ['\n']) :=
        run_escape_append hvalue _
    _ = some ⟨found ++ [entry.2], .outside⟩ := run_outside (by decide)

theorem run_rows {entries : List (String × String)}
    (hcases : ∀ entry ∈ entries, '"' ∉ entry.1.toList)
    (hvalues : ∀ entry ∈ entries, '\n' ∉ entry.2.toList) :
    run ⟨found, .outside⟩
        (entries.flatMap fun entry ↦ (Enumeration.conversionRow entry).toList) =
      some ⟨found ++ entries.map Prod.snd, .outside⟩ := by
  induction entries generalizing found with
  | nil => rw [List.map_nil, List.append_nil, List.flatMap_nil, run_nil]
  | cons entry rest ih =>
    obtain ⟨hcase, hcases⟩ := List.forall_mem_cons.1 hcases
    obtain ⟨hvalue, hvalues⟩ := List.forall_mem_cons.1 hvalues
    rw [List.flatMap_cons, run_append, run_row hcase hvalue, Option.bind_some, ih hcases hvalues,
      List.append_assoc, List.map_cons, List.singleton_append]

/-- A line opens a literal if there is a quote in it. -/
theorem opened_of_line (hplace : r.place = .outside) (h : run r (text ++ ['\n']) = some r') :
    r'.place = .outside ∧ r.opened ≤ r'.opened ∧ ('"' ∈ text → r.opened < r'.opened) := by
  refine ⟨place_of_newline h, opened_le_of_run h, fun hquote ↦ ?_⟩
  exact opened_lt_of_run hplace (List.mem_append_left _ hquote) h

end LiteralReader

end Code

/-! ## Quotes in cases -/

namespace Text

open CaseData

variable {c : Char}

theorem ofNat_ne_quote {code : Nat} (h : 65 ≤ code) : Char.ofNat code ≠ '"' := by
  intro heq
  have hcode := congrArg Char.toNat heq
  rw [Char.toNat_ofNat] at hcode
  change _ = 34 at hcode
  split at hcode <;> omega

theorem quote_notMem_expansion {codes : List Nat}
    (h : upperExpansions.lookup c.toNat = some codes) : '"' ∉ codes.map Char.ofNat := by
  have htable : (upperExpansions.all fun entry ↦ entry.2.all (65 ≤ ·)) = true := by
    decide +kernel
  obtain ⟨before, after, heq, -⟩ := List.lookup_eq_some_iff.1 h
  have hcodes := List.all_eq_true.1 htable (c.toNat, codes) (by simp [heq])
  rw [List.mem_map]
  rintro ⟨code, hcode, hquote⟩
  exact ofNat_ne_quote (of_decide_eq_true (List.all_eq_true.1 hcodes code hcode)) hquote

theorem le_of_shifted {code shifted : Nat} (h : shifted? upperRuns code = some shifted) :
    65 ≤ shifted := by
  have htable : (upperRuns.all fun run ↦ 65 ≤ Int.ofNat run.first + run.offset) = true := by
    decide +kernel
  obtain ⟨run, hrun, rfl⟩ := Option.map_eq_some_iff.1 h
  have hstart : 65 ≤ Int.ofNat run.first + run.offset :=
    of_decide_eq_true (List.all_eq_true.1 htable run (List.mem_of_find?_eq_some hrun))
  have hrange := List.find?_some hrun
  simp only [Bool.and_eq_true, decide_eq_true_eq] at hrange
  have hfirst : run.first ≤ code := hrange.1.1
  simp only [Int.ofNat_eq_natCast] at hstart ⊢
  omega

/-- No letter has a quote in its upper case. -/
theorem quote_mem_upperChar_iff : '"' ∈ upperChar c ↔ c = '"' := by
  constructor
  · intro h
    unfold upperChar at h
    split at h
    case isTrue =>
      rw [List.mem_singleton] at h
      obtain hself | hupper := toUpper_eq_self_or_isUpper c
      · exact hself.symm.trans h.symm
      · rw [← h] at hupper
        cases hupper
    case isFalse hascii =>
      unfold mapped at h
      split at h
      case h_1 codes hcodes => exact absurd h (quote_notMem_expansion hcodes)
      case h_2 =>
        cases hshifted : shifted? upperRuns c.toNat with
        | none =>
          rw [hshifted] at h
          exact (List.mem_singleton.1 h).symm
        | some code =>
          rw [hshifted] at h
          exact absurd (List.mem_singleton.1 h).symm (ofNat_ne_quote (le_of_shifted hshifted))
  · rintro rfl
    decide

theorem quote_mem_upperChars_iff {text : List Char} : '"' ∈ upperChars text ↔ '"' ∈ text := by
  simp only [upperChars, List.mem_flatMap, quote_mem_upperChar_iff, exists_eq_right]

end Text

namespace Names

variable {text : List Char}

theorem quote_mem_spelled_iff : '"' ∈ text.flatMap spellCaseChar ↔ '"' ∈ text := by
  have hsign (c : Char) : '"' ∈ spellCaseChar c ↔ c = '"' := by
    obtain ⟨rfl | rfl | rfl, heq⟩ | ⟨rfl, heq⟩ | ⟨-, heq⟩ := spellCaseChar_cases c
    iterate 4 simp [heq]
    rw [heq, List.mem_singleton, eq_comm]
  simp only [List.mem_flatMap, hsign, exists_eq_right]

theorem subset_breakWords (text : List Char) : text ⊆ breakWords text := by
  induction text with
  | nil => exact List.nil_subset _
  | cons a rest ih =>
    cases rest with
    | nil => exact List.Subset.refl _
    | cons b rest =>
      rw [breakWords_cons_cons]
      refine List.cons_subset.2 ⟨?_, List.Subset.trans ih (List.subset_append_right _ _)⟩
      split <;> simp

/-- A case has the quotes of its value and of the name of its type. -/
theorem quote_mem_enumCase_iff {value typeName : String} :
    '"' ∈ (enumCase value typeName).toList ↔ '"' ∈ typeName.toList ∨ '"' ∈ value.toList := by
  have hwords : '"' ∈ breakWords (value.toList.flatMap spellCaseChar) ↔ '"' ∈ value.toList := by
    refine Iff.trans ⟨fun h ↦ ?_, fun h ↦ subset_breakWords _ h⟩ quote_mem_spelled_iff
    exact (mem_breakWords h).resolve_left (by decide)
  simp [enumCase, upper, caseKey, quote_mem_upperChars_iff, hwords]

end Names

/-! ## Tables -/

namespace Code.Enumeration

open LiteralReader

variable {e : Enumeration}

/-- The rows of some values in the table of an enumeration. -/
def rows (e : Enumeration) (values : List String) : String :=
  String.join (values.map fun value ↦ conversionRow (Names.enumCase value e.typeName, value))

theorem toList_rows (e : Enumeration) (values : List String) :
    (e.rows values).toList =
      (values.map fun value ↦ (Names.enumCase value e.typeName, value)).flatMap
        fun entry ↦ (conversionRow entry).toList := by
  simp [rows, String.toList_join, List.flatMap_map]

theorem rows_values (e : Enumeration) :
    e.rows e.values = String.join (e.cases.map conversionRow) := by
  rw [rows, cases, List.map_map, Function.comp_def]

theorem conversion_eq (e : Enumeration) :
    e.conversion = "ENUM_CONVERSION_BEGIN(" ++ e.typeName ++ ")\n" ++ e.rows e.values ++
      "ENUM_CONVERSION_END(" ++ e.typeName ++ ")\n" := by
  rw [rows_values]
  rfl

theorem toList_conversion (e : Enumeration) :
    e.conversion.toList =
      ("ENUM_CONVERSION_BEGIN(".toList ++ e.typeName.toList ++ [')']) ++ ['\n'] ++
        (e.rows e.values).toList ++
        (("ENUM_CONVERSION_END(".toList ++ e.typeName.toList ++ [')']) ++ ['\n']) := by
  simp [conversion_eq]

/-- The table up to the literal of a value, and what comes behind it. -/
theorem conversion_split {before after : List String} {value : String}
    (h : e.values = before ++ value :: after) :
    e.conversion =
      "ENUM_CONVERSION_BEGIN(" ++ e.typeName ++ ")\n" ++ e.rows before ++ "    \x7b " ++
        Names.enumCase value e.typeName ++ ", _T(" ++ "\"" ++ escape value ++ "\"" ++
        (") \x7d,\n" ++ e.rows after ++ "ENUM_CONVERSION_END(" ++ e.typeName ++ ")\n") := by
  apply String.toList_injective
  simp [conversion_eq, h, toList_rows, conversionRow]

/-- Without quotes in the values and in the name of the type, there are no other literals in the
table than those of the values. -/
theorem literals_of_quoteless (hvalues : ∀ value ∈ e.values, '\n' ∉ value.toList)
    (htype : '"' ∉ e.typeName.toList) (hquotes : ∀ value ∈ e.values, '"' ∉ value.toList) :
    literals e.conversion = some e.values := by
  have hbegin :
      '"' ∉ ("ENUM_CONVERSION_BEGIN(".toList ++ e.typeName.toList ++ [')']) ++ ['\n'] := by
    simp [htype]
  have hend : '"' ∉ ("ENUM_CONVERSION_END(".toList ++ e.typeName.toList ++ [')']) ++ ['\n'] := by
    simp [htype]
  have hcases : ∀ entry ∈ e.values.map fun value ↦ (Names.enumCase value e.typeName, value),
      '"' ∉ entry.1.toList := by
    rw [List.forall_mem_map]
    exact fun value hvalue h ↦
      (Names.quote_mem_enumCase_iff.1 h).elim htype (hquotes value hvalue)
  have hlines : ∀ entry ∈ e.values.map fun value ↦ (Names.enumCase value e.typeName, value),
      '\n' ∉ entry.2.toList := List.forall_mem_map.2 hvalues
  rw [literals_eq_some, toList_conversion, run_append, run_append, run_outside hbegin,
    Option.bind_some, toList_rows, run_rows hcases hlines, Option.bind_some, run_outside hend]
  simp [Function.comp_def]

/-- A quote that is not in a literal would open one more than there are values. -/
theorem quoteless_of_literals (h : literals e.conversion = some e.values) :
    '"' ∉ e.typeName.toList ∧ ∀ value ∈ e.values, '"' ∉ value.toList := by
  -- The literals that are opened are counted from line to line: each row opens one at least.
  rw [literals_eq_some, toList_conversion] at h
  obtain ⟨behind, hrows, hend⟩ := run_eq_some_append.1 h
  obtain ⟨start, hbegin, hrows⟩ := run_eq_some_append.1 hrows
  rw [toList_rows] at hrows
  obtain ⟨hplace, -, hname⟩ := opened_of_line rfl hbegin
  obtain ⟨hplace, hall, hmore⟩ := opened_of_rows hplace hrows
  obtain ⟨-, hlast, -⟩ := opened_of_line hplace hend
  rw [List.length_map] at hall hmore
  have hlength : (⟨e.values, .outside⟩ : LiteralReader).opened = e.values.length := rfl
  refine ⟨fun hquote ↦ ?_, fun value hvalue hquote ↦ ?_⟩
  · have hname := hname (by simp [hquote])
    omega
  · have hcase : '"' ∈ (Names.enumCase value e.typeName).toList :=
      Names.quote_mem_enumCase_iff.2 (.inr hquote)
    have hmore := hmore ⟨_, List.mem_map_of_mem hvalue, hcase⟩
    omega

/-- Read from its opening quote, the literal of each row is the value of the row, and ends at its
own closing quote. Read from the start of the table, the literals are the values in declared order
exactly if there are no quotes in the values and in the name of the type: all other quotes than
those of the literals are in cases. -/
theorem conversion_reads_back (e : Enumeration)
    (hvalues : ∀ value ∈ e.values, '\n' ∉ value.toList) :
    (∀ before value after, e.values = before ++ value :: after →
      ∃ tail, e.conversion =
          "ENUM_CONVERSION_BEGIN(" ++ e.typeName ++ ")\n" ++ e.rows before ++ "    \x7b " ++
            Names.enumCase value e.typeName ++ ", _T(" ++ "\"" ++ escape value ++ "\"" ++ tail ∧
        tail = ") \x7d,\n" ++ e.rows after ++ "ENUM_CONVERSION_END(" ++ e.typeName ++ ")\n" ∧
        ∀ found, run ⟨found, .inside []⟩ (escape value ++ "\"" ++ tail).toList =
          run ⟨found ++ [value], .outside⟩ tail.toList) ∧
    (literals e.conversion = some e.values ↔
      '"' ∉ e.typeName.toList ∧ ∀ value ∈ e.values, '"' ∉ value.toList) := by
  refine ⟨fun before value after heq ↦ ⟨_, conversion_split heq, rfl, fun found ↦ ?_⟩,
    quoteless_of_literals, fun h ↦ literals_of_quoteless hvalues h.1 h.2⟩
  have hvalue : '\n' ∉ value.toList := hvalues value (by simp [heq])
  rw [String.toList_append, String.toList_append, List.append_assoc]
  exact run_escape_append hvalue _

end Code.Enumeration

/-! ## Values with backslashes and with quotes -/

namespace Screens

open Code LiteralReader

def shares : Enumeration := ⟨"Share", "Share", none, ["\\\\host\\größe", "end\\"]⟩

def sizes : Enumeration := ⟨"Size", "Size", none, ["7\"", "\\\"\\"]⟩

/-- Backslashes come back in their number, also those before a closing quote, and a value with a
quote comes back from its own opening quote. -/
theorem shares_read_back :
    (∀ value ∈ shares.values, '\n' ∉ value.toList) ∧
    literals shares.conversion = some ["\\\\host\\größe", "end\\"] ∧
    (∀ value ∈ sizes.values, '\n' ∉ value.toList) ∧
    ∃ tail, tail = ") \x7d,\nENUM_CONVERSION_END(Size)\n" ∧
      ∀ found, run ⟨found, .inside []⟩ ("\\\\\\\"\\\\" ++ "\"" ++ tail).toList =
        run ⟨found ++ ["\\\"\\"], .outside⟩ tail.toList := by
  have hshares : ∀ value ∈ shares.values, '\n' ∉ value.toList := by simp [shares]
  have hsizes : ∀ value ∈ sizes.values, '\n' ∉ value.toList := by simp [sizes]
  have hall := (Enumeration.conversion_reads_back shares hshares).2.2
    ⟨by simp [shares], by simp [shares]⟩
  obtain ⟨tail, -, htail, hread⟩ :=
    (Enumeration.conversion_reads_back sizes hsizes).1 ["7\""] "\\\"\\" [] rfl
  have hescape : escape "\\\"\\" = "\\\\\\\"\\\\" := by decide +kernel
  rw [hescape] at hread
  exact ⟨hshares, hall, hsizes, tail, htail, hread⟩

/-- The size in inches has its quote in its case as well, where it opens a literal. -/
theorem quote_in_case_opens_literal :
    let e : Enumeration := ⟨"Size", "Size", none, ["7\""]⟩
    (∀ value ∈ e.values, ∀ c ∈ value.toList, 32 ≤ c.toNat ∧ c.toNat ≠ 127) ∧
    e.conversion = "ENUM_CONVERSION_BEGIN(Size)\n    \x7b SIZE_7\", _T(\"7\\\"\") \x7d,\n" ++
      "ENUM_CONVERSION_END(Size)\n" ∧
    literals e.conversion = some [", _T(", ""] ∧
    literals e.conversion ≠ some e.values := by
  intro e
  have hliterals : literals e.conversion = some [", _T(", ""] := by decide +kernel
  refine ⟨by simp [e], by decide +kernel, hliterals, ?_⟩
  rw [hliterals]
  decide

end Screens

end SchemaBindings
