import SchemaBindings.Number.Double

/-!
# Shortest decimal digits

The fewest decimal digits that read back as a given double. On the decimal grids with one, two,
up to seventeen digits the two neighbours of the value are tried, and the first grid with a
neighbour inside the rounding interval wins. Of two such neighbours the nearer one is taken.
-/

namespace SchemaBindings.Shortest

/-- The digits of a positive decimal number and the power of ten of the last of them. -/
structure Digits where
  digits : Nat
  power : Int
  deriving DecidableEq, Repr

/-- Which of two equally near neighbours is written. -/
inductive Tie where
  | toEven
  | up

def digitCount (n : Nat) : Nat := (Nat.toDigits 10 n).length

/-- Number of places before the decimal point: the least `p` with `num / den < 10 ^ p`. -/
def places (num den : Nat) : Int :=
  if den ≤ num then digitCount (num / den) else 1 - digitCount (den / num)

/-- `num / den / 10 ^ power` as a fraction. -/
def shiftDecimal (num den : Nat) (power : Int) : Nat × Nat :=
  if 0 ≤ power then (num, den * Nat.pow 10 power.toNat)
  else (num * Nat.pow 10 (-power).toNat, den)

/-- Quarters of the mantissa unit between the value and the ends of its rounding interval. -/
def interval (x : Double) : Nat × Nat :=
  let lower := if x.mantissa = Double.hiddenBit ∧ Double.leastExponent < x.exponent then 1 else 2
  (4 * x.mantissa - lower, 4 * x.mantissa + 2)

/-- Whether the point `n * 10 ^ power` reads back as the double. -/
def readsBack (x : Double) (n : Nat) (power : Int) : Bool :=
  let quarter : Int := x.exponent - 2
  let point := if 0 ≤ power then (n * Nat.pow 10 power.toNat, 1)
    else (n, Nat.pow 10 (-power).toNat)
  let scaled := Double.rescale point.1 point.2 quarter
  let ends := interval x
  if x.mantissa % 2 = 0 then
    ends.1 * scaled.2 ≤ scaled.1 && scaled.1 ≤ ends.2 * scaled.2
  else
    ends.1 * scaled.2 < scaled.1 && scaled.1 < ends.2 * scaled.2

def neighbour? (tie : Tie) (x : Double) (power : Int) : Option Digits :=
  let value := shiftDecimal x.fraction.1 x.fraction.2 power
  let below := value.1 / value.2
  let rest := value.1 % value.2
  let nearerBelow : Bool := match tie with
    | .up => 2 * rest < value.2
    | .toEven => 2 * rest < value.2 || (2 * rest == value.2 && below % 2 == 0)
  match 0 < below && readsBack x below power, readsBack x (below + 1) power with
  | true, true => some ⟨if nearerBelow then below else below + 1, power⟩
  | true, false => some ⟨below, power⟩
  | false, true => some ⟨below + 1, power⟩
  | false, false => none

def stripZeros : Nat → Digits → Digits
  | 0, d => d
  | fuel + 1, d =>
    if d.digits % 10 = 0 then stripZeros fuel ⟨d.digits / 10, d.power + 1⟩ else d

/-- The shortest digits of the magnitude of a double that is not zero. -/
def digits (tie : Tie) (x : Double) : Digits :=
  let p := places x.fraction.1 x.fraction.2
  let found := (List.range 17).findSome? fun n ↦ neighbour? tie x (p - 1 - Int.ofNat n)
  stripZeros 20 (found.getD ⟨x.mantissa, x.exponent⟩)

end SchemaBindings.Shortest
