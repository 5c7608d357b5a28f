/-!
# Blank characters

The white space of Unicode, and the texts left when it is taken from an end.
-/

namespace SchemaBindings.Text

def blankRanges : List (Nat × Nat) := [
  (9, 13), (0x20, 0x20), (0x85, 0x85), (0xa0, 0xa0), (0x1680, 0x1680), (0x2000, 0x200a),
  (0x2028, 0x2029), (0x202f, 0x202f), (0x205f, 0x205f), (0x3000, 0x3000)]

def isBlank (c : Char) : Bool :=
  blankRanges.any fun range ↦ range.1 ≤ c.toNat && c.toNat ≤ range.2

def trimEndChars (text : List Char) : List Char :=
  (text.reverse.dropWhile isBlank).reverse

def trimChars (text : List Char) : List Char :=
  trimEndChars (text.dropWhile isBlank)

def trimEnd (text : String) : String :=
  String.ofList (trimEndChars text.toList)

def trim (text : String) : String :=
  String.ofList (trimChars text.toList)

end SchemaBindings.Text
