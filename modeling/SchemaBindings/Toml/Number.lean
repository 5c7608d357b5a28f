import SchemaBindings.Number.Double

/-!
# Numbers in configuration text

Which words pass for numbers, and which of them have a value. A word is looked at closely only for
its value, so more words pass for numbers than have one.
-/

namespace SchemaBindings.Toml

def hexDigit? (c : Char) : Option Nat :=
  if c.isDigit then some (c.toNat - '0'.toNat)
  else if 'a' ≤ c && c ≤ 'f' then some (c.toNat - 'a'.toNat + 10)
  else if 'A' ≤ c && c ≤ 'F' then some (c.toNat - 'A'.toNat + 10)
  else none

def naturalOf (base : Nat) (digits : List Char) : Nat :=
  (digits.filterMap hexDigit?).foldl (fun n d ↦ base * n + d) 0

/-- Whether every underscore stands between two digits. -/
def isSpaced (isDigit : Char → Bool) : List Char → Bool
  | [] => true
  | '_' :: _ => false
  | c :: '_' :: rest => isDigit c && rest.head?.any isDigit && isSpaced isDigit rest
  | _ :: rest => isSpaced isDigit rest

def withoutUnderscores (text : List Char) : List Char := text.filter (· ≠ '_')

/-- The sign of a number, if it has one, and what stands behind it. -/
def splitSign : List Char → Option Char × List Char
  | '-' :: rest => (some '-', rest)
  | '+' :: rest => (some '+', rest)
  | text => (none, text)

def digits? (text : List Char) : Option (List Char) :=
  if !text.isEmpty && text.all Char.isDigit then some text else none

/-- A whole number in a base that stands before it: whether it has a value, which takes at least
one digit. -/
def based? (base : Nat) (word : List Char) : Option Bool :=
  let digits := withoutUnderscores word
  if digits.all (fun c ↦ (hexDigit? c).any (· < base)) &&
      isSpaced (hexDigit? · |>.isSome) word then
    some (!digits.isEmpty && naturalOf base digits < Nat.pow 2 128)
  else none

/-- A whole number in decimal digits: whether it has a value. A word passes for one if digits reach
up to its first underscore and all underscores stand between hexadecimal digits; to have a value
it takes decimal digits alone. -/
def whole? (word : List Char) : Option Bool :=
  let (sign, body) := splitSign word
  let digits := withoutUnderscores body
  let padded : Bool := body.head? = some '0' && body.length ≠ 1
  let startsWell : Bool := (body.dropWhile Char.isDigit).head?.all (· = '_')
  if !body.isEmpty && !padded && startsWell && isSpaced (hexDigit? · |>.isSome) body then
    let value := naturalOf 10 digits
    let fits : Bool :=
      if sign = some '-' then value ≤ Nat.pow 2 127 else value < Nat.pow 2 128
    some (digits.all Char.isDigit && fits)
  else none

/-- Whether a double can hold the number with these digits and this power of ten. Where its
first digit is far from the three hundred and ninth place, that decides. -/
def fitsDouble (digits : List Char) (power : Int) : Bool :=
  let digits := digits.dropWhile (· = '0')
  let places := digits.length + power
  digits.isEmpty || places ≤ 308 || (places ≤ 309 &&
    (Double.ofFraction? false (naturalOf 10 digits * Nat.pow 10 power.toNat)
      (Nat.pow 10 (-power).toNat)).isSome)

/-- The power of ten behind the mark of an exponent. -/
def exponent? (text : List Char) : Option Int :=
  let (sign, digits) := splitSign text
  (digits? digits).map fun digits ↦
    if sign = some '-' then -(naturalOf 10 digits : Int) else naturalOf 10 digits

/-- A number with a fraction or an exponent: whether a double can hold it. -/
def float? (word : List Char) : Option Bool := do
  let body := (splitSign word).2
  let digits := withoutUnderscores body
  let isMark (c : Char) : Bool := c = 'e' || c = 'E'
  let mantissa := digits.takeWhile (!isMark ·)
  let mark := digits.dropWhile (!isMark ·)
  let point := mantissa.dropWhile (· ≠ '.')
  let whole ← digits? (mantissa.takeWhile (· ≠ '.'))
  let part ← if point.isEmpty then some [] else digits? (point.drop 1)
  let exponent ← if mark.isEmpty then some 0 else exponent? (mark.drop 1)
  let padded : Bool := body.head? = some '0' && whole.length ≠ 1
  if !padded && isSpaced Char.isDigit body then
    some (fitsDouble (whole ++ part) (exponent - part.length))
  else none

/-- A number, or one of the words for what is no finite number: whether it has a value. -/
def number? (word : List Char) : Option Bool :=
  match word with
  | '0' :: 'x' :: rest => based? 16 rest
  | '0' :: 'o' :: rest => based? 8 rest
  | '0' :: 'b' :: rest => based? 2 rest
  | _ =>
    let body := (splitSign word).2
    if body = ['i', 'n', 'f'] || body = ['n', 'a', 'n'] then some true
    else if body.any fun c ↦ c = '.' || c = 'e' || c = 'E' then float? word
    else whole? word

end SchemaBindings.Toml
