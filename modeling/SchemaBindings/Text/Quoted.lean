import SchemaBindings.Text.Casing
import SchemaBindings.Text.InvisibleData

/-!
# Quoted texts in messages

A text between double quotes, in which a quote, a backslash and the usual control characters are
written with a backslash and every other character without a visible form as its code point.
-/

namespace SchemaBindings.Text

def hexDigits (n : Nat) : List Char :=
  Nat.toDigits 16 n

def isInvisible (c : Char) : Bool :=
  if c.toNat < 128 then c.toNat < 32 || c.toNat == 127
  else inRanges InvisibleData.formlessRanges c || inRanges InvisibleData.extenderRanges c

def quoteChar (c : Char) : List Char :=
  match c with
  | '\x00' => ['\\', '0']
  | '\t' => ['\\', 't']
  | '\r' => ['\\', 'r']
  | '\n' => ['\\', 'n']
  | '\\' => ['\\', '\\']
  | '"' => ['\\', '"']
  | c => if isInvisible c then ['\\', 'u', '\x7b'] ++ hexDigits c.toNat ++ ['\x7d'] else [c]

def quote (text : String) : String :=
  String.ofList ('"' :: text.toList.flatMap quoteChar ++ ['"'])

/-- A bracketed list of quoted texts. -/
def quoteAll (texts : List String) : String :=
  "[" ++ String.intercalate ", " (texts.map quote) ++ "]"

end SchemaBindings.Text
