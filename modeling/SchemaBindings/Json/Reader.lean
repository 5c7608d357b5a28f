import SchemaBindings.Json.Value
import SchemaBindings.Number.Decimal

/-!
# Reading document text

Strict JSON text. One pass over the characters makes tokens, one pass over the tokens builds the
value on a stack of open arrays and objects, whose number may be limited.
-/

namespace SchemaBindings.Json

namespace Reader

inductive Token where
  | openArray
  | closeArray
  | openObject
  | closeObject
  | comma
  | colon
  | scalar (value : Json)

/-- What the scanner is inside of. Gathered characters stand in reverse. -/
inductive Scan where
  | between
  | word (gathered : List Char)
  | text (gathered : List Char)
  | escape (gathered : List Char)
  | code (gathered : List Char) (high : Option Nat) (missing : Nat) (value : Nat)
  | pair (gathered : List Char) (high : Nat)
  | pairCode (gathered : List Char) (high : Nat)

def isWordChar (c : Char) : Bool :=
  c.isAlphanum || c == '-' || c == '+' || c == '.'

def exponent? : List Char → Option (Bool × List Char)
  | '-' :: digits => some (true, digits)
  | '+' :: digits => some (false, digits)
  | digits => some (false, digits)

def isDigits (text : List Char) : Bool := !text.isEmpty && text.all Char.isDigit

/-- The parts of a number in the grammar of JSON. -/
def written? (text : List Char) : Option Decimal.Written :=
  let negative := text.head? == some '-'
  let body := if negative then text.drop 1 else text
  let whole := body.takeWhile Char.isDigit
  let afterWhole := body.dropWhile Char.isDigit
  let part := match afterWhole with
    | '.' :: rest => some (rest.takeWhile Char.isDigit)
    | _ => none
  let afterPart := match afterWhole with
    | '.' :: rest => rest.dropWhile Char.isDigit
    | rest => rest
  let exponent := match afterPart with
    | 'e' :: rest => exponent? rest
    | 'E' :: rest => exponent? rest
    | _ => none
  if whole.isEmpty || (whole.head? == some '0' && whole.length != 1) then none
  else if part == some [] then none
  else match exponent with
    | some (sign, digits) =>
      if isDigits digits then some ⟨negative, whole, part, some (sign, digits)⟩ else none
    | none => if afterPart.isEmpty then some ⟨negative, whole, part, none⟩ else none

/-- A whole number in the range of 64-bit words is kept exactly; all else is a double. -/
def number? (w : Decimal.Written) : Option Number :=
  let value := Decimal.naturalOf w.whole
  if w.isWhole && !w.negative && value < Decimal.digitLimit then some (.whole value)
  else if w.isWhole && w.negative && 0 < value && 2 * value ≤ Decimal.digitLimit then
    some (.whole (-value))
  else w.toDouble?.map .double

def word? (text : List Char) : Option Json :=
  if text = ['t', 'r', 'u', 'e'] then some (.bool true)
  else if text = ['f', 'a', 'l', 's', 'e'] then some (.bool false)
  else if text = ['n', 'u', 'l', 'l'] then some .null
  else (written? text).bind fun w ↦ (number? w).map .number

def between? (c : Char) : Option (Scan × List Token) :=
  match c with
  | ' ' => some (.between, [])
  | '\t' => some (.between, [])
  | '\n' => some (.between, [])
  | '\r' => some (.between, [])
  | '[' => some (.between, [.openArray])
  | ']' => some (.between, [.closeArray])
  | '\x7b' => some (.between, [.openObject])
  | '\x7d' => some (.between, [.closeObject])
  | ',' => some (.between, [.comma])
  | ':' => some (.between, [.colon])
  | '"' => some (.text [], [])
  | c => if isWordChar c then some (.word [c], []) else none

def hexValue? (c : Char) : Option Nat :=
  if c.isDigit then some (c.toNat - '0'.toNat)
  else if 'a' ≤ c && c ≤ 'f' then some (c.toNat - 'a'.toNat + 10)
  else if 'A' ≤ c && c ≤ 'F' then some (c.toNat - 'A'.toNat + 10)
  else none

def escaped? (c : Char) : Option Char :=
  match c with
  | '"' => some '"'
  | '\\' => some '\\'
  | '/' => some '/'
  | 'b' => some '\x08'
  | 'f' => some '\x0c'
  | 'n' => some '\n'
  | 'r' => some '\r'
  | 't' => some '\t'
  | _ => none

def isHigh (code : Nat) : Bool := 0xd800 ≤ code && code < 0xdc00

def isLow (code : Nat) : Bool := 0xdc00 ≤ code && code < 0xe000

/-- Ends a four-digit code: a character, the first half of one, or its second half. -/
def endCode? (gathered : List Char) (high : Option Nat) (value : Nat) : Option Scan :=
  match high with
  | some high =>
    if isLow value then
      some (.text (Char.ofNat (0x10000 + (high - 0xd800) * 0x400 + (value - 0xdc00)) :: gathered))
    else none
  | none =>
    if isHigh value then some (.pair gathered value)
    else if isLow value then none
    else some (.text (Char.ofNat value :: gathered))

def scan? (state : Scan) (c : Char) : Option (Scan × List Token) :=
  match state with
  | .between => between? c
  | .word gathered =>
    if isWordChar c then some (.word (c :: gathered), [])
    else do
      let value ← word? gathered.reverse
      let (next, tokens) ← between? c
      some (next, .scalar value :: tokens)
  | .text gathered =>
    if c = '"' then some (.between, [.scalar (.string (String.ofList gathered.reverse))])
    else if c = '\\' then some (.escape gathered, [])
    else if c.toNat < 32 then none
    else some (.text (c :: gathered), [])
  | .escape gathered =>
    if c = 'u' then some (.code gathered none 4 0, [])
    else (escaped? c).map fun e ↦ (.text (e :: gathered), [])
  | .code gathered high missing value => do
    let digit ← hexValue? c
    if missing = 1 then (endCode? gathered high (value * 16 + digit)).map (·, [])
    else some (.code gathered high (missing - 1) (value * 16 + digit), [])
  | .pair gathered high => if c = '\\' then some (.pairCode gathered high, []) else none
  | .pairCode gathered high =>
    if c = 'u' then some (.code gathered (some high) 4 0, []) else none

/-- All tokens of a text. Gathered tokens stand in reverse. -/
def tokens? (state : Scan) (gathered : List Token) : List Char → Option (List Token)
  | [] => match state with
    | .between => some gathered.reverse
    | .word text => (word? text.reverse).map fun value ↦ (.scalar value :: gathered).reverse
    | _ => none
  | c :: rest => match scan? state c with
    | some (next, tokens) => tokens? next (tokens.reverse ++ gathered) rest
    | none => none

/-- An open array, its items in reverse, or an open object with the name awaiting its value. -/
inductive Frame where
  | items (done : List Json)
  | entries (done : List (String × Json)) (name : String)

inductive Expect where
  | value
  | firstItem
  | firstName
  | name
  | colon
  | next
  | finished (value : Json)

structure Build where
  stack : List Frame
  expect : Expect

def complete (stack : List Frame) (value : Json) : Build :=
  match stack with
  | [] => ⟨[], .finished value⟩
  | .items done :: rest => ⟨.items (value :: done) :: rest, .next⟩
  | .entries done name :: rest => ⟨.entries (Table.put name value done) name :: rest, .next⟩

def begin? (limit : Option Nat) (stack : List Frame) (frame : Frame) (expect : Expect) :
    Option Build :=
  if limit.any fun most ↦ most ≤ stack.length then none else some ⟨frame :: stack, expect⟩

def value? (limit : Option Nat) (stack : List Frame) : Token → Option Build
  | .openArray => begin? limit stack (.items []) .firstItem
  | .openObject => begin? limit stack (.entries [] "") .firstName
  | .scalar value => some (complete stack value)
  | _ => none

def build? (limit : Option Nat) (state : Build) (token : Token) : Option Build :=
  match state.expect, state.stack, token with
  | .value, stack, token => value? limit stack token
  | .firstItem, .items _ :: rest, .closeArray => some (complete rest (.array []))
  | .firstItem, stack, token => value? limit stack token
  | .firstName, .entries _ _ :: rest, .closeObject => some (complete rest (.object []))
  | .firstName, .entries done _ :: rest, .scalar (.string name) =>
    some ⟨.entries done name :: rest, .colon⟩
  | .name, .entries done _ :: rest, .scalar (.string name) =>
    some ⟨.entries done name :: rest, .colon⟩
  | .colon, stack, .colon => some ⟨stack, .value⟩
  | .next, .items done :: rest, .comma => some ⟨.items done :: rest, .value⟩
  | .next, .items done :: rest, .closeArray => some (complete rest (.array done.reverse))
  | .next, .entries done name :: rest, .comma => some ⟨.entries done name :: rest, .name⟩
  | .next, .entries done _ :: rest, .closeObject => some (complete rest (.object done))
  | _, _, _ => none

end Reader

/-- The value of a text, in which at most `limit` arrays and objects are open at a time. -/
def read? (limit : Option Nat) (text : String) : Option Json := do
  let tokens ← Reader.tokens? .between [] text.toList
  let final ← tokens.foldlM (Reader.build? limit) ⟨[], .value⟩
  match final.expect with
  | .finished value => some value
  | _ => none

/-- Arrays and objects that may be open at a time in the text of a document. -/
def depthLimit : Nat := 127

end SchemaBindings.Json
