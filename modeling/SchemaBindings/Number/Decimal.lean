import SchemaBindings.Number.Double

/-!
# Reading decimal numbers

A written number is read in one pass. Its digits fill a 64-bit whole number as long as they fit,
digits beyond that only count towards the power of ten, and the whole number, once rounded, is
multiplied or divided by rounded powers of ten.
-/

namespace SchemaBindings.Decimal

def digitLimit : Nat := Nat.pow 2 64

/-- Digits gathered so far and the power of ten that they are to be multiplied with. -/
structure Gathered where
  digits : Nat
  power : Int

def digitValue (c : Char) : Nat := c.toNat - '0'.toNat

/-- Digits before the point; from the first that does not fit on, each counts as a power. -/
def gatherWhole (digits : Nat) : List Char → Gathered
  | [] => ⟨digits, 0⟩
  | c :: rest =>
    if digits * 10 + digitValue c < digitLimit then gatherWhole (digits * 10 + digitValue c) rest
    else ⟨digits, (c :: rest).length⟩

/-- Digits behind the point; from the first that does not fit on, they are dropped. -/
def gatherPart (soFar : Gathered) : List Char → Gathered
  | [] => soFar
  | c :: rest =>
    if soFar.digits * 10 + digitValue c < digitLimit then
      gatherPart ⟨soFar.digits * 10 + digitValue c, soFar.power - 1⟩ rest
    else soFar

def naturalOf (digits : List Char) : Nat :=
  digits.foldl (fun n c ↦ n * 10 + digitValue c) 0

def powerOfTen (n : Nat) : Double := Double.ofNat (Nat.pow 10 n)

/-- `x * 10 ^ power` through rounded powers of ten up to `10 ^ 308`. -/
def scale? (x : Double) (power : Int) : Option Double :=
  if 0 ≤ power then
    if power ≤ 308 then x.times? (powerOfTen power.toNat)
    else if x.isZero then some x else none
  else if -308 ≤ power then x.over? (powerOfTen (-power).toNat)
  else if x.isZero then some x
  else (x.over? (powerOfTen 308)).bind fun y ↦ scale? y (power + 308)
  termination_by (-power).toNat
  decreasing_by omega

/-- A written number: its sign, the digits before and behind the point, and its exponent. -/
structure Written where
  negative : Bool
  whole : List Char
  part : Option (List Char)
  exponent : Option (Bool × List Char)

def Written.isWhole (w : Written) : Bool := w.part.isNone && w.exponent.isNone

def Written.gathered (w : Written) : Gathered :=
  let whole := gatherWhole 0 w.whole
  let digits := match w.part with
    | some part => gatherPart whole part
    | none => whole
  match w.exponent with
  | some (true, exponent) => { digits with power := digits.power - naturalOf exponent }
  | some (false, exponent) => { digits with power := digits.power + naturalOf exponent }
  | none => digits

def Written.toDouble? (w : Written) : Option Double :=
  (scale? (Double.ofNat w.gathered.digits) w.gathered.power).map (·.withSign w.negative)

end SchemaBindings.Decimal
