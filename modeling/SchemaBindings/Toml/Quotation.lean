import SchemaBindings.Toml.Number

/-!
# Texts in quotation marks

Texts in double quotes, where a backslash escapes, and in single quotes, where nothing does; in
three of either they may go over several lines.
-/

namespace SchemaBindings.Toml

/-- The character with a code in hexadecimal, unless no character has it. -/
def codePoint? (digits : List Char) : Option Char :=
  let code := naturalOf 16 digits
  if digits.all (hexDigit? · |>.isSome) && code.isValidChar then some (Char.ofNat code) else none

def escaped? (c : Char) : Option Char :=
  match c with
  | 'b' => some '\x08'
  | 't' => some '\t'
  | 'n' => some '\n'
  | 'f' => some '\x0c'
  | 'r' => some '\r'
  | 'e' => some '\x1b'
  | '"' => some '"'
  | '\\' => some '\\'
  | _ => none

/-- What stands behind a backslash: the character it means and the rest of the text. -/
def escape? : List Char → Option (Char × List Char)
  | 'x' :: a :: b :: rest => (codePoint? [a, b]).map (·, rest)
  | 'u' :: a :: b :: c :: d :: rest => (codePoint? [a, b, c, d]).map (·, rest)
  | 'U' :: a :: b :: c :: d :: e :: f :: g :: h :: rest =>
    (codePoint? [a, b, c, d, e, f, g, h]).map (·, rest)
  | c :: rest => (escaped? c).map (·, rest)
  | [] => none

/-- A carriage return is blank, as it only stands before a line break. -/
def isFiller (c : Char) : Bool := c = ' ' || c = '\t' || c = '\r'

/-- Control characters but the tab, of which only those of line breaks may stand in texts. -/
def isControl (c : Char) : Bool := (c.toNat < 32 && c ≠ '\t') || c.toNat = 127

def dropFiller (text : List Char) : List Char := text.dropWhile isFiller

/-- Drops the line break after a backslash, with the blank around it. -/
def dropBreak? (text : List Char) : Option (List Char) :=
  match dropFiller text with
  | '\n' :: rest => some (rest.dropWhile fun c ↦ isFiller c || c = '\n')
  | _ => none

/-- A text in double quotes up to its end, whose characters so far stand in reverse. -/
def basic (fuel : Nat) (done text : List Char) : Option (String × List Char) :=
  match fuel, text with
  | 0, _ => none
  | _ + 1, '"' :: rest => some (String.ofList done.reverse, rest)
  | fuel + 1, '\\' :: rest =>
    (escape? rest).bind fun (char, rest) ↦ basic fuel (char :: done) rest
  | fuel + 1, c :: rest => if isControl c then none else basic fuel (c :: done) rest
  | _, [] => none

def literal (done : List Char) : List Char → Option (String × List Char)
  | '\'' :: rest => some (String.ofList done.reverse, rest)
  | c :: rest => if isControl c then none else literal (c :: done) rest
  | [] => none

/-- Quotes at the end of a text over several lines: up to two belong to the text. -/
def closing (quote : Char) (done text : List Char) : String × List Char :=
  let more := (text.takeWhile (· = quote)).take 2
  (String.ofList (more ++ done).reverse, text.drop more.length)

def isBreak (c : Char) : Bool := c = '\n' || c = '\r'

def basicLines (fuel : Nat) (done text : List Char) : Option (String × List Char) :=
  match fuel, text with
  | 0, _ => none
  | _ + 1, '"' :: '"' :: '"' :: rest => some (closing '"' done rest)
  | fuel + 1, '\\' :: rest =>
    match escape? rest with
    | some (char, rest) => basicLines fuel (char :: done) rest
    | none => (dropBreak? rest).bind (basicLines fuel done)
  | fuel + 1, c :: rest =>
    if isControl c && !isBreak c then none else basicLines fuel (c :: done) rest
  | _, [] => none

def literalLines (done : List Char) : List Char → Option (String × List Char)
  | '\'' :: '\'' :: '\'' :: rest => some (closing '\'' done rest)
  | c :: rest => if isControl c && !isBreak c then none else literalLines (c :: done) rest
  | [] => none

def dropFirstBreak : List Char → List Char
  | '\n' :: rest => rest
  | '\r' :: '\n' :: rest => rest
  | text => text

/-- A text on one line, as a key may be written too. -/
def lineText? : List Char → Option (String × List Char)
  | '"' :: rest => basic (rest.length + 1) [] rest
  | '\'' :: rest => literal [] rest
  | _ => none

def text? : List Char → Option (String × List Char)
  | '"' :: '"' :: '"' :: rest => basicLines (rest.length + 1) [] (dropFirstBreak rest)
  | '\'' :: '\'' :: '\'' :: rest => literalLines [] (dropFirstBreak rest)
  | text => lineText? text

end SchemaBindings.Toml
