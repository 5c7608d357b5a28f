import SchemaBindings.Json.Value
import SchemaBindings.Text.Pieces

/-!
# Document pointers

A pointer names a place in a document by the entries and positions on the way to it, each behind
a slash. Inside a step `~0` stands for a tilde and `~1` for a slash.
-/

namespace SchemaBindings

namespace Pointer

open Text

def escapeChar (c : Char) : List Char :=
  if c = '~' then ['~', '0'] else if c = '/' then ['~', '1'] else [c]

def escapeStep (step : List Char) : List Char := step.flatMap escapeChar

/-- The step that a written step stands for: every `~1` is undone before any `~0`. -/
def unescapeStep (written : List Char) : List Char :=
  replacePair '~' '0' ['~'] (replacePair '~' '1' ['/'] written)

/-- The pointer to the entry `step` of the place at `path`. -/
def child (path step : String) : String :=
  path ++ "/" ++ String.ofList (escapeStep step.toList)

/-- The steps of a pointer, which is empty or starts with a slash. -/
def steps? (pointer : String) : Option (List String) :=
  match pointer.toList with
  | [] => some []
  | '/' :: rest => some ((splitChars '/' rest).map fun step ↦ String.ofList (unescapeStep step))
  | _ => none

/-- A position is written in decimal without leading zeros. -/
def position? (step : String) : Option Nat :=
  match step.toList with
  | [] => none
  | '0' :: _ :: _ => none
  | digits =>
    if digits.all Char.isDigit then
      some (digits.foldl (fun n c ↦ n * 10 + (c.toNat - '0'.toNat)) 0)
    else none

/-- What the last slash of a pointer is followed by. -/
def lastStep (pointer : String) : String :=
  String.ofList (unescapeStep (((splitChars '/' pointer.toList).getLast?).getD []))

end Pointer

namespace Json

def step? (value : Json) (step : String) : Option Json :=
  match value with
  | object entries => Table.get? step entries
  | array items => (Pointer.position? step).bind fun i ↦ items[i]?
  | _ => none

/-- The value that a pointer leads to. -/
def at? (value : Json) (pointer : String) : Option Json :=
  (Pointer.steps? pointer).bind fun steps ↦ steps.foldlM step? value

end Json

end SchemaBindings
