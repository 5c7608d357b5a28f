import SchemaBindings.Json.Value
import SchemaBindings.Number.Layout

/-!
# Compact text of document values

Values on one line without blanks, entries in their order. In texts only quotes, backslashes and
control characters are escaped.
-/

namespace SchemaBindings.Json

def hexDigit (n : Nat) : Char := Nat.digitChar n

def escapeChar (c : Char) : List Char :=
  match c with
  | '"' => ['\\', '"']
  | '\\' => ['\\', '\\']
  | '\x08' => ['\\', 'b']
  | '\x0c' => ['\\', 'f']
  | '\n' => ['\\', 'n']
  | '\r' => ['\\', 'r']
  | '\t' => ['\\', 't']
  | c =>
    if c.toNat < 32 then ['\\', 'u', '0', '0', hexDigit (c.toNat / 16), hexDigit (c.toNat % 16)]
    else [c]

def writeString (text : String) : String :=
  (text.toList.foldl (fun out c ↦ (escapeChar c).foldl String.push out) "\"").push '"'

def Number.write : Number → String
  | whole n => toString n
  | double x => NumberLayout.document.write x

mutual

/-- Appends the compact text of a value. -/
def append (out : String) : Json → String
  | null => out ++ "null"
  | bool value => out ++ if value then "true" else "false"
  | number value => out ++ value.write
  | string text => out ++ writeString text
  | array items => (appendItems (out.push '[') true items).push ']'
  | object entries => (appendEntries (out.push '\x7b') true entries).push '\x7d'

def appendItems (out : String) (first : Bool) : List Json → String
  | [] => out
  | item :: rest => appendItems (append (if first then out else out.push ',') item) false rest

def appendEntries (out : String) (first : Bool) : List (String × Json) → String
  | [] => out
  | (name, value) :: rest =>
    let named := (if first then out else out.push ',') ++ writeString name
    appendEntries (append (named.push ':') value) false rest

end

def compact (value : Json) : String := append "" value

end SchemaBindings.Json
