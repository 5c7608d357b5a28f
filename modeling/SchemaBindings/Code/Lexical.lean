import SchemaBindings.Text.Blank
import SchemaBindings.Text.Pieces

/-!
# Comments and string literals

Text from documents, written inside the generated code: a description in a comment on one line,
and a value between the quotes of a string literal.
-/

namespace SchemaBindings.Code

open Text

def lineBreakToSpace (c : Char) : Char :=
  if c = '\n' ∨ c = '\r' then ' ' else c

/-- A description on one line, in which no comment ends. -/
def flattenChars (text : List Char) : List Char :=
  (replacePair '*' '/' ['*', ' ', '/'] text).map lineBreakToSpace

def comment (title : String) (description : Option String) : String :=
  match description.map fun text ↦ trimChars text.toList with
  | some (c :: text) =>
    "/* " ++ title ++ " - " ++ String.ofList (flattenChars (c :: text)) ++ " */"
  | _ => "/* " ++ title ++ " */"

def escapeChar (c : Char) : List Char :=
  if c = '\\' ∨ c = '"' then ['\\', c] else [c]

/-- The value as it stands between the quotes of a literal. -/
def escape (value : String) : String :=
  respell escapeChar value

end SchemaBindings.Code
