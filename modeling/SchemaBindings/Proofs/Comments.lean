import Mathlib.Data.List.Chain
import Mathlib.Data.List.DropRight
import SchemaBindings.Code.Lexical
import SchemaBindings.Output.Files

/-!
# Where comments end

A comment ends at the first star with a slash behind it. A description is written in a way that it
has none, but titles, names of methods and the header text are taken as they are: a comment ends at
its own end, and on its own line, exactly if its title has no such pair and no line break, and the
comment on top of a file exactly if the header text has no such pair.
-/

namespace SchemaBindings

open Text

namespace Code

/-- A comment that the text stands in does not end there. -/
def KeepsOpen (text : List Char) : Prop := text.IsChain fun a b ↦ ¬(a = '*' ∧ b = '/')

instance : DecidablePred KeepsOpen := fun text ↦
  inferInstanceAs (Decidable (text.IsChain fun a b ↦ ¬(a = '*' ∧ b = '/')))

variable {text left right : List Char} {c : Char}

namespace KeepsOpen

theorem iff_not_infix : KeepsOpen text ↔ ¬['*', '/'] <:+: text := by
  unfold KeepsOpen
  rw [List.isChain_iff_forall_rel_of_append_cons_cons]
  constructor
  · rintro h ⟨before, after, heq⟩
    exact h (by rw [← heq, List.append_assoc]; rfl) ⟨rfl, rfl⟩
  · rintro h _ _ before after heq ⟨rfl, rfl⟩
    exact h ⟨before, after, by rw [heq, List.append_assoc]; rfl⟩

/-- A sign that is not of the pair keeps what stands before it and behind it apart. -/
theorem append_cons_iff (hstar : c ≠ '*') (hslash : c ≠ '/') :
    KeepsOpen (left ++ c :: right) ↔ KeepsOpen left ∧ KeepsOpen right := by
  unfold KeepsOpen
  rw [List.isChain_append, List.isChain_cons]
  constructor
  · rintro ⟨hleft, ⟨-, hright⟩, -⟩
    exact ⟨hleft, hright⟩
  · rintro ⟨hleft, hright⟩
    refine ⟨hleft, ⟨fun b _ h ↦ hstar h.1, hright⟩, fun a _ b hb h ↦ ?_⟩
    cases hb
    exact hslash h.2

theorem cons_iff (hstar : c ≠ '*') (hslash : c ≠ '/') :
    KeepsOpen (c :: right) ↔ KeepsOpen right :=
  (@append_cons_iff [] right c hstar hslash).trans (and_iff_right .nil)

theorem append_space_iff :
    KeepsOpen (left ++ ' ' :: right) ↔ KeepsOpen left ∧ KeepsOpen right :=
  append_cons_iff (by decide) (by decide)

theorem ne_of_isBlank (h : isBlank c = true) : c ≠ '*' ∧ c ≠ '/' := by
  constructor <;> rintro rfl <;> cases h

theorem dropWhile_iff (text : List Char) :
    KeepsOpen (text.dropWhile isBlank) ↔ KeepsOpen text := by
  induction text with
  | nil => rfl
  | cons c rest ih =>
    rw [List.dropWhile_cons]
    split
    case isTrue hblank =>
      obtain ⟨hstar, hslash⟩ := ne_of_isBlank hblank
      exact ih.trans (cons_iff hstar hslash).symm
    case isFalse => rfl

theorem append_blanks_iff {blanks : List Char} (h : ∀ c ∈ blanks, isBlank c = true) :
    KeepsOpen (left ++ blanks) ↔ KeepsOpen left := by
  induction blanks generalizing left with
  | nil => rw [List.append_nil]
  | cons c rest ih =>
    obtain ⟨hc, hrest⟩ := List.forall_mem_cons.1 h
    obtain ⟨hstar, hslash⟩ := ne_of_isBlank hc
    exact (append_cons_iff hstar hslash).trans (and_iff_left ((@ih [] hrest).2 .nil))

theorem trimEndChars_iff (text : List Char) : KeepsOpen (trimEndChars text) ↔ KeepsOpen text := by
  have hcut : trimEndChars text ++ text.rtakeWhile isBlank = text :=
    List.rdropWhile_append_rtakeWhile
  conv_rhs => rw [← hcut]
  exact (append_blanks_iff fun _ hc ↦ List.mem_rtakeWhile_imp hc).symm

theorem trimChars_iff (text : List Char) : KeepsOpen (trimChars text) ↔ KeepsOpen text :=
  (trimEndChars_iff _).trans (dropWhile_iff text)

end KeepsOpen

/-- Every end of a comment in the text has nothing but the tail behind it. -/
def EndsOnlyBefore (tail text : List Char) : Prop :=
  ∀ before after, text = before ++ '*' :: '/' :: after → after = tail

theorem endsOnlyBefore_iff {body tail : List Char} (htail : KeepsOpen ('/' :: tail)) :
    EndsOnlyBefore tail (body ++ '*' :: '/' :: tail) ↔ KeepsOpen (body ++ ['*']) := by
  rw [KeepsOpen.iff_not_infix] at htail ⊢
  constructor
  · rintro h ⟨before, after, heq⟩
    have hlonger : after ++ '/' :: tail = tail := h before _ (by
      calc body ++ '*' :: '/' :: tail = (body ++ ['*']) ++ '/' :: tail := by simp
        _ = _ := by rw [← heq]; simp)
    have hlength := congrArg List.length hlonger
    simp only [List.length_append, List.length_cons] at hlength
    omega
  · intro h before after heq
    -- The end of a comment is in the tail, is the one between body and tail, or starts in the body.
    obtain ⟨rest, -, hrest⟩ | ⟨rest, hbody, hrest⟩ := List.append_eq_append_iff.1 heq
    · match rest, hrest with
      | [], hrest => simpa using hrest.symm
      | _ :: rest, hrest =>
        obtain ⟨-, hinside⟩ := List.cons.inj hrest
        exact absurd ⟨rest, after, by rw [hinside]; simp⟩ htail
    · match rest, hrest with
      | [], hrest => simpa using hrest
      | [_], hrest => simp at hrest
      | _ :: _ :: rest, hrest =>
        obtain ⟨rfl, hsecond⟩ := List.cons.inj hrest
        obtain ⟨rfl, -⟩ := List.cons.inj hsecond
        exact absurd ⟨before, rest ++ ['*'], by rw [hbody]; simp⟩ h

/-! ## Descriptions -/

/-- What a text starts with is left when pairs are written apart. -/
theorem head?_replacePair (first second : Char) (replacement text : List Char) :
    (replacePair first second (first :: replacement) text).head? = text.head? := by
  unfold replacePair
  split
  · split
    case isTrue h => rw [h.1]; rfl
    case isFalse => rfl
  · rfl

/-- Written apart, no star is followed by a slash. -/
theorem keepsOpen_replacePair (text : List Char) :
    KeepsOpen (replacePair '*' '/' ['*', ' ', '/'] text) := by
  induction text using replacePair.induct '*' '/' with
  | case1 x y rest h ih =>
    rw [replacePair, if_pos h]
    have hslash : KeepsOpen ('/' :: replacePair '*' '/' ['*', ' ', '/'] rest) :=
      ih.cons fun b _ hpair ↦ absurd hpair.1 (by decide)
    exact KeepsOpen.append_space_iff.2 ⟨.singleton '*', hslash⟩
  | case2 x y rest h ih =>
    rw [replacePair, if_neg h]
    refine ih.cons fun b hb hpair ↦ h ⟨hpair.1, ?_⟩
    rw [head?_replacePair, List.head?_cons, Option.mem_some] at hb
    exact hb.trans hpair.2
  | case3 text h =>
    match text, h with
    | [], _ => exact .nil
    | [c], _ => exact .singleton c
    | x :: y :: rest, h => exact (h x y rest rfl).elim

theorem lineBreakToSpace_eq_iff (hspace : c ≠ ' ') (hbreak : c ≠ '\n' ∧ c ≠ '\r') (a : Char) :
    lineBreakToSpace a = c ↔ a = c := by
  unfold lineBreakToSpace
  split
  case isTrue h =>
    constructor
    · exact fun heq ↦ absurd heq.symm hspace
    · rintro rfl
      exact absurd h (not_or.2 hbreak)
  case isFalse => rfl

theorem keepsOpen_flattenChars (text : List Char) : KeepsOpen (flattenChars text) := by
  unfold flattenChars KeepsOpen
  rw [List.isChain_map]
  refine (keepsOpen_replacePair text).imp fun a b h ↦ ?_
  rwa [lineBreakToSpace_eq_iff (by decide) (by decide),
    lineBreakToSpace_eq_iff (by decide) (by decide)]

theorem lineBreak_notMem_flattenChars (text : List Char) :
    '\n' ∉ flattenChars text ∧ '\r' ∉ flattenChars text := by
  have hbreak : ∀ a, lineBreakToSpace a ≠ '\n' ∧ lineBreakToSpace a ≠ '\r' := by
    intro a
    unfold lineBreakToSpace
    split
    case isTrue => decide
    case isFalse h => exact not_or.1 h
  unfold flattenChars
  constructor <;> intro hmem <;> obtain ⟨a, -, ha⟩ := List.mem_map.1 hmem
  · exact (hbreak a).1 ha
  · exact (hbreak a).2 ha

/-! ## Comments -/

/-- A comment on one line, which ends where the text ends and nowhere before. -/
structure IsLineComment (text : List Char) : Prop where
  opens : ['/', '*'] <+: text
  closes : ['*', '/'] <:+ text
  endsOnlyBefore : EndsOnlyBefore [] text
  oneLine : '\n' ∉ text ∧ '\r' ∉ text

/-- Behind its title a comment has a remark that is harmless, or nothing. -/
theorem toList_comment (title : String) (description : Option String) :
    ∃ remark, (comment title description).toList =
        ['/', '*', ' '] ++ title.toList ++ ' ' :: remark ++ ['*', '/'] ∧
      KeepsOpen (remark ++ ['*']) ∧ '\n' ∉ remark ∧ '\r' ∉ remark := by
  unfold comment
  split
  case h_1 c text _ =>
    obtain ⟨hfeed, hreturn⟩ := lineBreak_notMem_flattenChars (c :: text)
    refine ⟨['-', ' '] ++ flattenChars (c :: text) ++ [' '], by simp, ?_, ?_, ?_⟩
    · have hflat : KeepsOpen ('-' :: ' ' :: flattenChars (c :: text)) :=
        KeepsOpen.append_space_iff.2 ⟨.singleton '-', keepsOpen_flattenChars _⟩
      rw [List.append_assoc]
      exact KeepsOpen.append_space_iff.2 ⟨hflat, .singleton '*'⟩
    · simp [hfeed]
    · simp [hreturn]
  case h_2 => exact ⟨[], by simp, .singleton _, List.not_mem_nil, List.not_mem_nil⟩

theorem isLineComment_comment_iff (title : String) (description : Option String) :
    IsLineComment (comment title description).toList ↔
      ¬['*', '/'] <:+: title.toList ∧ '\n' ∉ title.toList ∧ '\r' ∉ title.toList := by
  obtain ⟨remark, htext, hremark, hfeed, hreturn⟩ := toList_comment title description
  let body := ['/', '*', ' '] ++ title.toList ++ ' ' :: remark
  have hbody : KeepsOpen (body ++ ['*']) ↔ KeepsOpen title.toList := by
    have hparts : body ++ ['*'] =
        ['/', '*'] ++ ' ' :: (title.toList ++ ' ' :: (remark ++ ['*'])) := by simp [body]
    rw [hparts, KeepsOpen.append_space_iff, KeepsOpen.append_space_iff, and_iff_left hremark]
    exact and_iff_right (by decide)
  have hends : EndsOnlyBefore [] (body ++ ['*', '/']) ↔ KeepsOpen (body ++ ['*']) :=
    endsOnlyBefore_iff (.singleton '/')
  rw [htext, ← KeepsOpen.iff_not_infix, ← hbody, ← hends]
  constructor
  · rintro ⟨-, -, hlast, hfeeds, hreturns⟩
    refine ⟨hlast, fun hmem ↦ hfeeds ?_, fun hmem ↦ hreturns ?_⟩ <;> simp [hmem]
  · rintro ⟨hlast, htitleFeed, htitleReturn⟩
    refine ⟨⟨_, by simp; rfl⟩, List.suffix_append _ _, hlast, ?_, ?_⟩
    · simp [hfeed, htitleFeed]
    · simp [hreturn, htitleReturn]

end Code

namespace Files

open Code

/-! ## Header texts -/

/-- A comment whose last line has nothing but its end, with an empty line below and no other end of
a comment; or no comment at all. -/
structure IsHeaderComment (text : List Char) : Prop where
  closes : text = [] ∨ [' ', '*', '/', '\n', '\n'] <:+ text
  endsOnlyBefore : EndsOnlyBefore ['\n', '\n'] text

theorem keepsOpen_intercalate {c : Char} (hstar : c ≠ '*') (hslash : c ≠ '/')
    (parts : List (List Char)) :
    KeepsOpen ([c].intercalate parts) ↔ ∀ part ∈ parts, KeepsOpen part := by
  induction parts with
  | nil => simp [KeepsOpen]
  | cons part rest ih =>
    cases rest with
    | nil => simp
    | cons other others =>
      rw [List.intercalate_cons_cons, List.append_assoc, List.singleton_append,
        KeepsOpen.append_cons_iff hstar hslash, ih]
      exact List.forall_mem_cons.symm

theorem keepsOpen_splitChars (text : List Char) :
    KeepsOpen text ↔ ∀ part ∈ splitChars '\n' text, KeepsOpen part := by
  have hparts := @keepsOpen_intercalate '\n' (by decide) (by decide) (splitChars '\n' text)
  rwa [intercalate_splitChars] at hparts

/-- A line of the header text as it is written. -/
def starred (text : List Char) : List Char :=
  trimEndChars ([' ', '*', ' '] ++ text) ++ ['\n']

theorem keepsOpen_starred_append (text rest : List Char) :
    KeepsOpen (starred text ++ rest) ↔ KeepsOpen text ∧ KeepsOpen rest := by
  rw [starred, List.append_assoc, List.singleton_append,
    KeepsOpen.append_cons_iff (by decide) (by decide), KeepsOpen.trimEndChars_iff]
  have hline : KeepsOpen ([' ', '*'] ++ ' ' :: text) ↔ KeepsOpen text :=
    KeepsOpen.append_space_iff.trans (and_iff_right (.cons_cons (by decide) (.singleton '*')))
  exact and_congr_left' hline

theorem keepsOpen_flatMap_starred (parts : List (List Char)) (rest : List Char) :
    KeepsOpen (parts.flatMap starred ++ rest) ↔
      (∀ part ∈ parts, KeepsOpen part) ∧ KeepsOpen rest := by
  induction parts with
  | nil => simp
  | cons part parts ih =>
    rw [List.flatMap_cons, List.append_assoc, keepsOpen_starred_append, ih, List.forall_mem_cons,
      and_assoc]

theorem toList_banner (text : String) : (banner (some text)).toList =
    if trimChars text.toList = [] then []
    else ['/', '*', '\n'] ++ (splitChars '\n' (trimChars text.toList)).flatMap starred ++
      [' ', '*', '/', '\n', '\n'] := by
  unfold banner
  rw [Option.map_some]
  dsimp only
  simp only [trim, String.ofList_eq_empty_iff]
  split
  case isTrue => rfl
  case isFalse =>
    have hlines : (String.join ((textLines (String.ofList (trimChars text.toList))).map fun l ↦
        trimEnd (" * " ++ l) ++ "\n")).toList =
        (splitChars '\n' (trimChars text.toList)).flatMap starred := by
      rw [String.toList_join, textLines, List.map_map, List.flatMap_map, String.toList_ofList]
      refine List.flatMap_congr fun line _ ↦ ?_
      simp [starred, trimEnd]
    rw [String.toList_append, String.toList_append, hlines]
    rfl

/-- The comment on top of a file does not end early exactly if the header text has no end of a
comment. -/
theorem isHeaderComment_banner_iff (headerText : Option String) :
    IsHeaderComment (banner headerText).toList ↔
      ∀ text, headerText = some text → ¬['*', '/'] <:+: text.toList := by
  cases headerText with
  | none => exact ⟨nofun, fun _ ↦ ⟨.inl rfl, fun before after h ↦ by simp [banner] at h⟩⟩
  | some text =>
    simp only [Option.some.injEq, forall_eq', ← KeepsOpen.iff_not_infix]
    rw [toList_banner, ← KeepsOpen.trimChars_iff]
    split
    case isTrue hblank =>
      rw [hblank]
      exact iff_of_true ⟨.inl rfl, fun before after h ↦ by simp at h⟩ .nil
    case isFalse =>
      rw [keepsOpen_splitChars (trimChars text.toList)]
      generalize splitChars '\n' (trimChars text.toList) = parts
      let body := ['/', '*', '\n'] ++ parts.flatMap starred ++ [' ']
      have hbody : KeepsOpen (body ++ ['*']) ↔ ∀ part ∈ parts, KeepsOpen part := by
        have hlines : body ++ ['*'] =
            ['/', '*'] ++ '\n' :: (parts.flatMap starred ++ [' ', '*']) := by simp [body]
        rw [hlines, KeepsOpen.append_cons_iff (by decide) (by decide), keepsOpen_flatMap_starred]
        exact (and_iff_right (by decide)).trans (and_iff_left (by decide))
      have hends : EndsOnlyBefore ['\n', '\n'] (body ++ ['*', '/', '\n', '\n']) ↔
          KeepsOpen (body ++ ['*']) := endsOnlyBefore_iff (by decide)
      have htext : ['/', '*', '\n'] ++ parts.flatMap starred ++ [' ', '*', '/', '\n', '\n'] =
          body ++ ['*', '/', '\n', '\n'] := by simp [body]
      rw [← hbody, ← hends, htext]
      exact ⟨fun h ↦ h.endsOnlyBefore, fun h ↦ ⟨.inr (htext ▸ List.suffix_append _ _), h⟩⟩

end Files

open Code Files

/-- A comment is on one line and ends at its end alone exactly if its title has no line break and no
end of a comment, whatever the description is. The comment on top of a file ends on its last line
alone exactly if the header text has no end of a comment. -/
theorem comments_end_last_iff (title : String) (description headerText : Option String) :
    (IsLineComment (comment title description).toList ↔
      ¬['*', '/'] <:+: title.toList ∧ '\n' ∉ title.toList ∧ '\r' ∉ title.toList) ∧
    (IsHeaderComment (banner headerText).toList ↔
      ∀ text, headerText = some text → ¬['*', '/'] <:+: text.toList) :=
  ⟨isLineComment_comment_iff title description, isHeaderComment_banner_iff headerText⟩

/-- In a title and in a header text a path with a star for one of its directories ends the
comment. -/
theorem starred_path_ends_comment :
    comment "Files (logs/*/today)" none = "/* Files (logs/*/today) */" ∧
    ¬IsLineComment (comment "Files (logs/*/today)" none).toList ∧
    banner (some "Generated from schemas/*/api.json") =
      "/*\n * Generated from schemas/*/api.json\n */\n\n" ∧
    ¬IsHeaderComment (banner (some "Generated from schemas/*/api.json")).toList := by
  have hcomment : comment "Files (logs/*/today)" none = "/* Files (logs/*/today) */" := by
    decide +kernel
  have hbanner : banner (some "Generated from schemas/*/api.json") =
      "/*\n * Generated from schemas/*/api.json\n */\n\n" := by
    decide +kernel
  refine ⟨hcomment, fun h ↦ ?_, hbanner, fun h ↦ ?_⟩
  · have hrest := h.endsOnlyBefore "/* Files (logs/".toList "today) */".toList
      (by rw [hcomment]; decide)
    exact absurd hrest (by decide)
  · have hrest := h.endsOnlyBefore "/*\n * Generated from schemas/".toList
      "api.json\n */\n\n".toList (by rw [hbanner]; decide)
    exact absurd hrest (by decide)

end SchemaBindings
