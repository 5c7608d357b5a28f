import SchemaBindings.Text.Casing
import SchemaBindings.Text.Pieces

/-!
# Generated names

A generated symbol is the capitalised title of its document, an underscore and a stem. Stems of
nested schemas chain the names on the way with underscores. Enum cases are spelled in upper
case behind the name of their type, with an underscore at each boundary of a camel-cased word.
-/

namespace SchemaBindings.Names

open Text

def qualified (title stem : String) : String :=
  capitalize title ++ "_" ++ stem

/-- Stem of a schema called `name` that is nested inside `scope`. -/
def nested (scope name : String) : String :=
  if scope = "" then capitalize name else capitalize scope ++ "_" ++ capitalize name

def spellCaseChar (c : Char) : List Char :=
  if c = '.' ∨ c = '-' ∨ c = ':' then ['_']
  else if c = '+' then ['_', 'p', 'l', 'u', 's']
  else [c]

def isBoundary (left right : Char) : Bool :=
  left.isLower && (right.isUpper || right.isDigit)

/-- Puts an underscore wherever a small letter is followed by a capital or a digit. -/
def breakWords : List Char → List Char
  | left :: right :: rest =>
    if isBoundary left right then left :: '_' :: breakWords (right :: rest)
    else left :: breakWords (right :: rest)
  | text => text

def caseKey (value : List Char) : List Char :=
  upperChars (breakWords (value.flatMap spellCaseChar))

def enumCase (value typeName : String) : String :=
  upper typeName ++ "_" ++ String.ofList (caseKey value.toList)

def rpcMethod (title method : String) : String :=
  lower title ++ "." ++ method

def includeGuard (title : String) : Option String → String
  | some family => "_" ++ upper family ++ "_" ++ upper title ++ "_H"
  | none => "_" ++ upper title ++ "_H"

/-- Class that carries the object with this stem on the wire. -/
def containerClass (stem : String) : String :=
  "JsonData_" ++ stem

end SchemaBindings.Names
