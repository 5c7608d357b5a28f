/-!
# Cutting and replacing

Texts cut at a separator, and texts in which one character or one pair of characters is written
differently. A replaced pair is looked for from the left, and what was written for it is not
looked at again.
-/

namespace SchemaBindings.Text

/-- The parts of a text before and after the first separator, if it has one. -/
def cutChars (separator : Char) : List Char → Option (List Char × List Char)
  | [] => none
  | c :: rest =>
    if c = separator then some ([], rest)
    else (cutChars separator rest).map fun (before, after) ↦ (c :: before, after)

def cut (separator : Char) (text : String) : Option (String × String) :=
  (cutChars separator text.toList).map fun (before, after) ↦
    (String.ofList before, String.ofList after)

/-- All parts between separators; a text without any is its own only part. -/
def splitChars (separator : Char) : List Char → List (List Char)
  | [] => [[]]
  | c :: rest =>
    if c = separator then [] :: splitChars separator rest
    else match splitChars separator rest with
      | [] => [[c]]
      | part :: parts => (c :: part) :: parts

def split (separator : Char) (text : String) : List String :=
  (splitChars separator text.toList).map String.ofList

/-- The text before the first line break, without a carriage return at its end. -/
def firstLine (text : String) : String :=
  let line := (text.toList.takeWhile (· ≠ '\n')).reverse
  String.ofList (if line.head? = some '\r' then line.tail else line).reverse

def replacePair (first second : Char) (replacement : List Char) : List Char → List Char
  | x :: y :: rest =>
    if x = first ∧ y = second then replacement ++ replacePair first second replacement rest
    else x :: replacePair first second replacement (y :: rest)
  | text => text

/-- Each character written by a rule of its own. -/
def respell (spell : Char → List Char) (text : String) : String :=
  String.ofList (text.toList.flatMap spell)

def occursChars (part : List Char) : List Char → Bool
  | [] => part.isEmpty
  | c :: rest => part.isPrefixOf (c :: rest) || occursChars part rest

def occurs (part text : String) : Bool :=
  occursChars part.toList text.toList

def startsWith (start text : String) : Bool :=
  start.toList.isPrefixOf text.toList

theorem splitChars_ne_nil (separator : Char) (text : List Char) :
    splitChars separator text ≠ [] := by
  cases text with
  | nil => simp [splitChars]
  | cons c rest =>
    by_cases h : c = separator
    · simp [splitChars, h]
    · simp only [splitChars, h, if_false]
      split <;> simp

/-- A text is its parts with the separators between them. -/
theorem intercalate_splitChars (separator : Char) (text : List Char) :
    [separator].intercalate (splitChars separator text) = text := by
  induction text with
  | nil => rfl
  | cons c rest ih =>
    obtain ⟨part, parts, hparts⟩ := List.exists_cons_of_ne_nil (splitChars_ne_nil separator rest)
    rw [hparts] at ih
    by_cases hc : c = separator
    · simp [splitChars, hc, hparts, List.intercalate_cons_cons, ih]
    · cases parts with
      | nil => simpa [splitChars, hc, hparts] using ih
      | cons second others =>
        simpa [splitChars, hc, hparts, List.intercalate_cons_cons] using ih

theorem cutChars_eq_some {separator : Char} {text before after : List Char}
    (h : cutChars separator text = some (before, after)) :
    text = before ++ separator :: after ∧ separator ∉ before := by
  induction text generalizing before after with
  | nil => simp [cutChars] at h
  | cons c rest ih =>
    by_cases hc : c = separator
    · simp only [cutChars, hc, if_true, Option.some.injEq, Prod.mk.injEq] at h
      obtain ⟨rfl, rfl⟩ := h
      simp [hc]
    · simp only [cutChars, hc, if_false, Option.map_eq_some_iff, Prod.exists] at h
      obtain ⟨b, a, hrest, hpair⟩ := h
      simp only [Prod.mk.injEq] at hpair
      obtain ⟨rfl, rfl⟩ := hpair
      obtain ⟨htext, hnot⟩ := ih hrest
      exact ⟨by simp [htext], by simp [hnot, Ne.symm hc]⟩

end SchemaBindings.Text
