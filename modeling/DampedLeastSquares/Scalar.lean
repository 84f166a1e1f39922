/-!
# Scalars

The arithmetic every computation of the library is written over. The
instance for `Float` is what runs; an exact field can be given another
instance, so that a statement about exact arithmetic reads the same
definitions. Comparisons may fail in both directions, as they do when one
side is not a number: nothing here assumes that the order is total.
-/

set_option autoImplicit false

namespace DampedLeastSquares

/-- Field operations, comparisons that can be evaluated, and the few functions
that the losses and sample problems need. A law between them is never assumed. -/
class Scalar (α : Type) extends
    Add α, Sub α, Mul α, Div α, Neg α, LT α, LE α, BEq α, OfScientific α where
  decidableLT : DecidableLT α
  decidableLE : DecidableLE α
  ofNat : Nat → α
  abs : α → α
  sqrt : α → α
  exp : α → α
  /-- The logarithm of one more than the argument, accurate near zero. -/
  logOnePlus : α → α
  arctan : α → α
  /-- Neither infinite nor undefined. -/
  isFinite : α → Bool
  /-- Undefined: every comparison with it fails. -/
  isNaN : α → Bool

namespace Scalar

variable {α : Type} [Scalar α]

instance (left right : α) : Decidable (left < right) := decidableLT left right

instance (left right : α) : Decidable (left ≤ right) := decidableLE left right

/-- The larger of two values; an undefined value on either side is the result. -/
def larger (left right : α) : α :=
  if isNaN left then left
  else if isNaN right then right
  else if left < right then right else left

/-- The smaller of two values; an undefined value on either side is the result. -/
def smaller (left right : α) : α :=
  if isNaN left then left
  else if isNaN right then right
  else if right < left then right else left

/-- The value moved into the interval from `low` to `high`. An undefined value
stays undefined, and where the interval is empty its upper end wins. -/
def clamp (low high value : α) : α :=
  smaller (larger value low) high

/-- One, minus one or zero with the sign of the value; undefined stays undefined. -/
def sign (value : α) : α :=
  if 0.0 < value then 1.0
  else if value < 0.0 then -1.0
  else if isNaN value then value else 0.0

def square (value : α) : α := value * value

def cube (value : α) : α := value * value * value

/-- The third power, or nothing when the power of a finite value leaves the
finite range. Infinite and undefined values have their powers. -/
def cube? (value : α) : Option α :=
  let power := cube value
  if isFinite value && !isFinite power then none else some power

/-- `value` multiplied `count` times into `start`, one factor after another. -/
def timesPower (start value : α) : Nat → α
  | 0 => start
  | count + 1 => timesPower (start * value) value count

end Scalar

/-- The logarithm of `1 + u` for `u > -1`. Where `1 + u` rounds, the rounding
error of the sum is divided out again. An undefined value stays undefined. -/
def Float.logOnePlus (u : Float) : Float :=
  let sum := 1.0 + u
  if sum == 1.0 then u
  else if u.isFinite then sum.log * (u / (sum - 1.0))
  else if u.isNaN then u
  else sum.log

instance : Scalar Float where
  decidableLT := inferInstance
  decidableLE := inferInstance
  ofNat := Float.ofNat
  abs := Float.abs
  sqrt := Float.sqrt
  exp := Float.exp
  logOnePlus := DampedLeastSquares.Float.logOnePlus
  arctan := Float.atan
  isFinite := Float.isFinite
  isNaN := Float.isNaN

end DampedLeastSquares
