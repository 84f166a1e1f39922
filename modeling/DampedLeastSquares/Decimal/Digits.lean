/-!
# Decimal digits of binary floating point

Exact decimal expansions, rounded to a number of significant digits or of
places, and the fewest digits that read back as the same value. Everything is
integer arithmetic on the mantissa and exponent of the value.
-/

set_option autoImplicit false

namespace DampedLeastSquares.Decimal

/-- The quotient rounded to the nearest integer, a half to the even neighbour. -/
def roundDiv (numerator denominator : Nat) : Nat :=
  let quotient := numerator / denominator
  let twice := 2 * (numerator % denominator)
  if twice < denominator then quotient
  else if denominator < twice then quotient + 1
  else quotient + quotient % 2

structure Ratio where
  numerator : Nat
  denominator : Nat

/-- `mantissa` times a power of two. -/
def Ratio.ofBinary (mantissa : Nat) (exponent : Int) : Ratio :=
  if 0 ≤ exponent then ⟨mantissa * Nat.pow 2 exponent.toNat, 1⟩
  else ⟨mantissa, Nat.pow 2 (-exponent).toNat⟩

def Ratio.shift (ratio : Ratio) (exponent : Int) : Ratio :=
  if 0 ≤ exponent then ⟨ratio.numerator * Nat.pow 10 exponent.toNat, ratio.denominator⟩
  else ⟨ratio.numerator, ratio.denominator * Nat.pow 10 (-exponent).toNat⟩

def digitCount (number : Nat) : Nat := (Nat.toDigits 10 number).length

/-- The largest `e` with `10 ^ e` at most the ratio, for a positive ratio. The
digit counts of both parts leave two candidates. -/
def Ratio.decimalExponent (ratio : Ratio) : Int :=
  let guess : Int := (digitCount ratio.numerator : Int) - digitCount ratio.denominator
  let scaled := ratio.shift (-guess)
  if scaled.denominator ≤ scaled.numerator then guess else guess - 1

/-- A number in decimal: `digits` times ten to `exponent`. -/
structure Expansion where
  digits : Nat
  exponent : Int

/-- The same number with `count` digits, where rounding up has made one digit too
many. -/
def carried (count : Nat) (expansion : Expansion) : Expansion :=
  if expansion.digits = Nat.pow 10 count then
    ⟨Nat.pow 10 (count - 1), expansion.exponent + 1⟩
  else expansion

/-- The ratio rounded to `count` significant digits, `count` positive. The
exponent returned is that of the first digit. -/
def Ratio.significant (ratio : Ratio) (count : Nat) : Expansion :=
  if ratio.numerator = 0 then ⟨0, 0⟩
  else
    let exponent := ratio.decimalExponent
    let scaled := ratio.shift ((count : Int) - 1 - exponent)
    let digits := roundDiv scaled.numerator scaled.denominator
    carried count ⟨digits, exponent⟩

/-- The ratio rounded to a number of places after the point, in units of the
last place. -/
def Ratio.places (ratio : Ratio) (count : Nat) : Nat :=
  let scaled := ratio.shift count
  roundDiv scaled.numerator scaled.denominator

/-- A floating point value taken apart. A finite value is `mantissa` times two
to `exponent`. -/
inductive Value where
  | finite (negative : Bool) (mantissa : Nat) (exponent : Int)
  | infinite (negative : Bool)
  | undefined

def Value.ofFloat (value : Float) : Value :=
  let bits := value.toBits
  let negative := bits >>> 63 == 1
  let biased := ((bits >>> 52) &&& 0x7ff).toNat
  let fraction := (bits &&& 0xfffffffffffff).toNat
  if biased = 0x7ff then
    if fraction = 0 then .infinite negative else .undefined
  else if biased = 0 then .finite negative fraction (-1074)
  else .finite negative (fraction + 0x10000000000000) ((biased : Int) - 1075)

/-- The value of the nearest double of a decimal, given by its digits and the
exponent of their last one. -/
def readBack (digits : Nat) (lastExponent : Int) : Float :=
  if 0 ≤ lastExponent then Float.ofScientific (digits * Nat.pow 10 lastExponent.toNat) false 0
  else Float.ofScientific digits true (-lastExponent).toNat

/-- A decimal of `count` digits that reads back as the given positive double, if
there is one: the nearer of the two neighbours of the exact value, and the
other one where only that reads back. -/
def Ratio.faithful? (ratio : Ratio) (magnitude : Float) (count : Nat) : Option Expansion :=
  let exponent := ratio.decimalExponent
  let lastExponent := exponent - ((count : Int) - 1)
  let scaled := ratio.shift (-lastExponent)
  let below := scaled.numerator / scaled.denominator
  let nearer := roundDiv scaled.numerator scaled.denominator
  let farther := if nearer = below then below + 1 else below
  ([nearer, farther].find? fun digits => readBack digits lastExponent == magnitude).map
    fun digits => carried count ⟨digits, exponent⟩

/-- The decimal with the fewest digits that reads back as the given positive
double, with the number of its digits. Seventeen digits always suffice. -/
def shortest (magnitude : Float) (ratio : Ratio) : Nat × Expansion :=
  let found? := ((List.range 17).map (· + 1)).findSome? fun count =>
    (ratio.faithful? magnitude count).map fun expansion => (count, expansion)
  found?.getD (17, ratio.significant 17)

end DampedLeastSquares.Decimal
