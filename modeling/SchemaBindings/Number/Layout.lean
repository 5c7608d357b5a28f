import SchemaBindings.Number.Shortest

/-!
# Number layouts

How the shortest digits of a double are set: always with a point or only for a fraction, and
positional everywhere or in scientific notation outside a range of exponents.
-/

namespace SchemaBindings

/-- `positional` bounds the exponents of the first digit that are written without an exponent. -/
structure NumberLayout where
  tie : Shortest.Tie
  positional : Option (Int × Int)
  alwaysPoint : Bool

namespace NumberLayout

/-- Numbers in documents: positional from `0.00001` up to sixteen places, always with a point. -/
def document : NumberLayout := ⟨.toEven, some (-5, 15), true⟩

/-- Numbers in messages: positional throughout, with a point for fractions only. -/
def plain : NumberLayout := ⟨.up, none, false⟩

def zeros (n : Nat) : List Char := List.replicate n '0'

/-- Digits with a decimal point behind the first `point` of them. -/
def setPositional (layout : NumberLayout) (digits : List Char) (point : Int) : List Char :=
  if point ≤ 0 then ['0', '.'] ++ zeros (-point).toNat ++ digits
  else if digits.length ≤ point then
    digits ++ zeros (point - digits.length).toNat ++ if layout.alwaysPoint then ['.', '0'] else []
  else digits.take point.toNat ++ '.' :: digits.drop point.toNat

def setScientific (digits : List Char) (exponent : Int) : List Char :=
  let mantissa := match digits with
    | [] => []
    | [c] => [c]
    | c :: rest => c :: '.' :: rest
  mantissa ++ 'e' :: (if exponent < 0 then '-' else '+') :: Nat.toDigits 10 exponent.natAbs

def isPositional (layout : NumberLayout) (exponent : Int) : Bool :=
  match layout.positional with
  | some (low, high) => low ≤ exponent && exponent ≤ high
  | none => true

def write (layout : NumberLayout) (x : Double) : String :=
  let sign := if x.negative then ['-'] else []
  let magnitude :=
    if x.isZero then setPositional layout ['0'] 1
    else
      let found := Shortest.digits layout.tie x
      let digits := Nat.toDigits 10 found.digits
      let exponent := found.power + digits.length - 1
      if layout.isPositional exponent then setPositional layout digits (exponent + 1)
      else setScientific digits exponent
  String.ofList (sign ++ magnitude)

end NumberLayout

end SchemaBindings
