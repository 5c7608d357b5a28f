import SchemaBindings.Text.CaseData

/-!
# Upper and lower case

Case mapping of whole texts. A letter may map to several characters, and a capital sigma at the
end of a word maps to the final form. On ASCII letters the mapping is the familiar one.
-/

namespace SchemaBindings.Text

open CaseData

def inRanges (ranges : List (Nat × Nat)) (c : Char) : Bool :=
  ranges.any fun range ↦ range.1 ≤ c.toNat && c.toNat ≤ range.2

def shifted? (runs : List Run) (code : Nat) : Option Nat :=
  (runs.find? fun run ↦
    run.first ≤ code && code ≤ run.last && (code - run.first) % run.step == 0).map
      fun run ↦ (Int.ofNat code + run.offset).toNat

/-- The form of a character beyond ASCII: its expansion, else its shifted code, else itself. -/
def mapped (expansions : List (Nat × List Nat)) (runs : List Run) (c : Char) : List Char :=
  match expansions.lookup c.toNat with
  | some codes => codes.map Char.ofNat
  | none => [((shifted? runs c.toNat).map Char.ofNat).getD c]

def upperChar (c : Char) : List Char :=
  if c.toNat < 128 then [c.toUpper] else mapped upperExpansions upperRuns c

def lowerChar (c : Char) : List Char :=
  if c.toNat < 128 then [c.toLower] else mapped lowerExpansions lowerRuns c

def upperChars (text : List Char) : List Char :=
  text.flatMap upperChar

/-- Whether a cased letter comes first once the case-ignorable characters are passed over. -/
def startsCased (text : List Char) : Bool :=
  match text.dropWhile (inRanges ignorableRanges) with
  | [] => false
  | c :: _ => inRanges casedRanges c

/-- Lower case of the rest of a text, given the characters before it, nearest first. -/
def lowerAfter (before : List Char) : List Char → List Char
  | [] => []
  | c :: rest =>
    let form :=
      if c = 'Σ' then [if startsCased before && !startsCased rest then 'ς' else 'σ']
      else lowerChar c
    form ++ lowerAfter (c :: before) rest

def upper (text : String) : String :=
  String.ofList (upperChars text.toList)

def lower (text : String) : String :=
  String.ofList (lowerAfter [] text.toList)

/-- Lower case of the ASCII letters only. -/
def lowerAscii (text : String) : String :=
  String.ofList (text.toList.map Char.toLower)

def capitalizeChars : List Char → List Char
  | [] => []
  | c :: rest => upperChar c ++ rest

/-- The text with its first character in upper case. -/
def capitalize (text : String) : String :=
  String.ofList (capitalizeChars text.toList)

@[simp]
theorem upperChars_append (left right : List Char) :
    upperChars (left ++ right) = upperChars left ++ upperChars right := by
  simp [upperChars]

theorem upperChar_of_ascii {c : Char} (hc : c.toNat < 128) : upperChar c = [c.toUpper] := by
  simp [upperChar, hc]

end SchemaBindings.Text
