/-!
# Double precision numbers

Finite binary64 numbers as a sign, a whole mantissa below `2 ^ 53` and an exponent of two no less
than `-1074`, kept in the one form in which the mantissa is as large as it can be. Rounding goes
to the nearest such number, and a tie to the even mantissa.
-/

namespace SchemaBindings

structure Double where
  negative : Bool
  mantissa : Nat
  exponent : Int
  deriving DecidableEq, Repr, Inhabited

namespace Double

def leastExponent : Int := -1074

def greatestExponent : Int := 971

/-- The least mantissa of a number whose exponent is not the least one. -/
def hiddenBit : Nat := Nat.pow 2 52

/-- The quotient to the nearest whole number, a half to the even one. -/
def divideToEven (num den : Nat) : Nat :=
  let quotient := num / den
  let rest := num % den
  if 2 * rest < den then quotient
  else if den < 2 * rest then quotient + 1
  else quotient + quotient % 2

/-- `num * 2 ^ (-exponent) / den` as a fraction. -/
def rescale (num den : Nat) (exponent : Int) : Nat × Nat :=
  if 0 ≤ exponent then (num, den * Nat.pow 2 exponent.toNat)
  else (num * Nat.pow 2 (-exponent).toNat, den)

/-- Exponent of the last mantissa bit of `num / den`. -/
def unitExponent (num den : Nat) : Int :=
  let guess := (num.log2 : Int) - den.log2 - 52
  let scaled := rescale num den guess
  max leastExponent (if scaled.1 < hiddenBit * scaled.2 then guess - 1 else guess)

def zero (negative : Bool) : Double := ⟨negative, 0, leastExponent⟩

/-- The double nearest to `num / den`; a value beyond the largest has none. -/
def ofFraction? (negative : Bool) (num den : Nat) : Option Double :=
  if num = 0 then some (zero negative)
  else
    let exponent := unitExponent num den
    let scaled := rescale num den exponent
    let mantissa := divideToEven scaled.1 scaled.2
    let rounded : Double :=
      if mantissa = 2 * hiddenBit then ⟨negative, hiddenBit, exponent + 1⟩
      else ⟨negative, mantissa, exponent⟩
    if rounded.mantissa = 0 then some (zero negative)
    else if greatestExponent < rounded.exponent then none
    else some rounded

/-- The magnitude as a fraction. -/
def fraction (x : Double) : Nat × Nat :=
  if 0 ≤ x.exponent then (x.mantissa * Nat.pow 2 x.exponent.toNat, 1)
  else (x.mantissa, Nat.pow 2 (-x.exponent).toNat)

def isZero (x : Double) : Bool := x.mantissa == 0

def isNonnegative (x : Double) : Bool := !x.negative || x.isZero

/-- Equality of the numbers, for which the sign of a zero does not count. -/
def same (x y : Double) : Bool := x == y || (x.isZero && y.isZero)

def withSign (x : Double) (negative : Bool) : Double := { x with negative := negative }

def times? (x y : Double) : Option Double :=
  ofFraction? (x.negative != y.negative) (x.fraction.1 * y.fraction.1)
    (x.fraction.2 * y.fraction.2)

/-- The quotient by a number that is not zero. -/
def over? (x y : Double) : Option Double :=
  ofFraction? (x.negative != y.negative) (x.fraction.1 * y.fraction.2)
    (x.fraction.2 * y.fraction.1)

def ofNat (n : Nat) : Double := (ofFraction? false n 1).getD (zero false)

def ofInt (n : Int) : Double := (ofNat n.natAbs).withSign (n < 0)

theorem same_refl (x : Double) : x.same x := by
  simp [same]

theorem same_comm (x y : Double) : x.same y = y.same x := by
  simp only [same, Bool.and_comm, BEq.comm]

end Double

end SchemaBindings
