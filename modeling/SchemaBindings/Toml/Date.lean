import SchemaBindings.Toml.Number

/-!
# Dates in configuration text

Which words are days, times, or a day and a time with or without an offset. A day has to be one
of the calendar, and any minute may have a leap second.
-/

namespace SchemaBindings.Toml

def natural? (digits : List Char) : Option Nat :=
  if digits.all Char.isDigit then some (naturalOf 10 digits) else none

def within (digits : List Char) (low high : Nat) : Bool :=
  (natural? digits).any fun n ↦ low ≤ n && n ≤ high

def daysIn (year month : Nat) : Nat :=
  if month = 2 then
    if year % 4 = 0 ∧ (year % 100 ≠ 0 ∨ year % 400 = 0) then 29 else 28
  else if month = 4 ∨ month = 6 ∨ month = 9 ∨ month = 11 then 30 else 31

def isDay : List Char → Bool
  | [a, b, c, d, '-', m, n, '-', x, y] =>
    (natural? [a, b, c, d]).any fun year ↦ within [m, n] 1 12 &&
      (natural? [m, n]).any fun month ↦ within [x, y] 1 (daysIn year month)
  | _ => false

/-- Seconds, with or without a fraction, may be left out. -/
def isSeconds : List Char → Bool
  | [] => true
  | [':', a, b] => within [a, b] 0 60
  | ':' :: a :: b :: '.' :: digits =>
    within [a, b] 0 60 && !digits.isEmpty && digits.all Char.isDigit
  | _ => false

def isTime : List Char → Bool
  | a :: b :: ':' :: c :: d :: rest =>
    within [a, b] 0 23 && within [c, d] 0 59 && isSeconds rest
  | _ => false

def isOffset : List Char → Bool
  | [] => true
  | ['Z'] => true
  | ['z'] => true
  | [sign, a, b, ':', c, d] =>
    (sign = '+' || sign = '-') && within [a, b] 0 23 && within [c, d] 0 59
  | _ => false

def isDate (word : List Char) : Bool :=
  isDay word || isTime word ||
    (match word.drop 10 with
      | separator :: time =>
        let isClock (c : Char) : Bool := c.isDigit || c = ':' || c = '.'
        isDay (word.take 10) && (separator = 'T' || separator = 't' || separator = ' ') &&
          isTime (time.takeWhile isClock) && isOffset (time.dropWhile isClock)
      | [] => false)

end SchemaBindings.Toml
