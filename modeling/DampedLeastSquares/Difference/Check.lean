import DampedLeastSquares.Difference
import DampedLeastSquares.Event

/-!
# Checking a Jacobian

A Jacobian is compared entry by entry with the one by forward differences. It
passes if the largest difference is within the tolerance; an undefined
difference counts as larger than any other, so it never passes.
-/

set_option autoImplicit false

namespace DampedLeastSquares.Difference

variable {σ α : Type} [Scalar α]

/-- How far two entries are apart: absolutely, or relative to the larger of
their magnitudes where that is positive. -/
def deviation (relative : Bool) (found expected : α) : α :=
  let distance := Scalar.abs (found - expected)
  if relative then
    let size := Scalar.larger (Scalar.abs found) (Scalar.abs expected)
    if 0.0 < size then distance / size else 0.0
  else distance

structure EntryPair (α : Type) where
  row : Nat
  column : Nat
  found : α
  expected : α

def entryPairs (found expected : DenseMatrix α) : List (EntryPair α) :=
  (List.range expected.height).flatMap fun row =>
    (List.range expected.width).map fun column =>
      ⟨row, column, found.entry row column, expected.entry row column⟩

/-- The pair with the larger deviation; the first one unless the second is
strictly worse. Nothing is worse than an undefined deviation. -/
def worsePair (relative : Bool) (first second : EntryPair α) : EntryPair α :=
  let current := deviation relative first.found first.expected
  let candidate := deviation relative second.found second.expected
  if Scalar.isNaN current then first
  else if Scalar.isNaN candidate ∨ current < candidate then second else first

def worstPair? (relative : Bool) : List (EntryPair α) → Option (EntryPair α)
  | [] => none
  | first :: rest => some (rest.foldl (worsePair relative) first)

/-- Compare two matrices of one size. Nothing is reported if they agree within
the tolerance. Matrices without entries agree within every tolerance that is not
negative, and have no worst entry that could be reported. -/
def mismatch? (relative : Bool) (tolerance : α) (found expected : DenseMatrix α) :
    Except (Fault α) (Option (EntryPair α)) :=
  match worstPair? relative (entryPairs found expected) with
  | none => if 0.0 ≤ tolerance then .ok none else .error .shape
  | some pair =>
      if deviation relative pair.found pair.expected ≤ tolerance then .ok none
      else .ok (some pair)

def fullJacobian (jacobian : Derivative α) (expected : List Nat) :
    Except (Fault α) (DenseMatrix α) := do
  let joined ← jacobian.joined
  match joined with
  | .matrix matrix =>
      if matrix.shape = expected then .ok matrix.toDense
      else .error (.refused (.jacobianShape (expected.map Int.ofNat) matrix.shape))
  | .array array => .error (.refused (.jacobianShape (expected.map Int.ofNat) array.shape))

/-- The event to report if a Jacobian is not within the tolerance of the one by
forward differences, and nothing if it is. -/
def check (residuals : Vec α → Call σ α (View σ α)) (jacobian : Vec α → Call σ α (Derivative α))
    (point : Vec α) (tolerance : α) (relative : Bool) (scale : α) :
    Call σ α (Option (Event α)) := do
  let expected ← forwardJacobian residuals scale point
  let found ← Call.ofExcept (fullJacobian (← jacobian point) [expected.height, expected.width])
  let worst? ← Call.ofExcept (mismatch? relative tolerance found expected)
  return worst?.map fun pair => .jacobianMismatch pair.row pair.column pair.found pair.expected

end DampedLeastSquares.Difference
