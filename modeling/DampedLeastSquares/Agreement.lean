import DampedLeastSquares.Agreement.Wording
import DampedLeastSquares.Operand

/-!
# Agreement of arrays

Two arrays are compared along the first axis of the first one: the differences
at each position are added up without their signs and must stay within a
tolerance. The message of a disagreement is the caller's, with the number of
positions that differ put in where the caller asks for it.
-/

set_option autoImplicit false

namespace DampedLeastSquares

/-- How far two arrays may be apart at each position: `absolute`, plus
`relative` times the size of the second array there. -/
structure Tolerance (α : Type) where
  absolute : α
  relative : α

namespace Agreement

variable {α : Type} [Scalar α]

/-- The tolerance that is used unless another is given. -/
def standard : Tolerance α := ⟨4.0e-7, 0.0⟩

def standardText : String := "Mismatch in %i"

/-- The sum of eight running sums over every eighth entry, added in pairs, and of
the entries that are left over. Fewer than eight entries are added from first to
last. -/
def blockSum (entries : List α) : α :=
  let groups := Tensor.chunks (entries.length / 8) 8 entries
  match groups with
  | [] => Vec.sum entries
  | first :: rest =>
      match rest.foldl (List.zipWith (· + ·)) first with
      | [a, b, c, d, e, f, g, h] =>
          (entries.drop (8 * groups.length)).foldl (· + ·)
            (((a + b) + (c + d)) + ((e + f) + (g + h)))
      | _ => Vec.sum entries

/-- The sum of the entries, formed by blocks of at most 128 of them, so that
rounding errors grow slowly. A longer list is halved between two groups of
eight. -/
def sumByBlocks (entries : List α) : α :=
  let half := entries.length / 16 * 8
  if 128 < entries.length then
    sumByBlocks (entries.take half) + sumByBlocks (entries.drop half)
  else blockSum entries
termination_by entries.length
decreasing_by
  · simp only [List.length_take]; omega
  · simp only [List.length_drop]; omega

def totalSize (entries : List α) : α := sumByBlocks (entries.map Scalar.abs)

def close (tolerance : Tolerance α) (found expected : List α) : Bool :=
  decide (totalSize (List.zipWith (· - ·) found expected) ≤
    tolerance.absolute + tolerance.relative * totalSize expected)

/-- The number of positions at which two arrays are not close. The second array
is stretched to the extents of the first. -/
def disagreements (tolerance : Tolerance α) (found expected : Operand α) :
    Except (Fault α) Nat := do
  let left := found.toTensor
  let shape := if left.shape.isEmpty then [1] else left.shape
  let right ← Fault.fit (expected.toTensor.broadcastTo? shape)
  let pairs := List.zip (Tensor.slices ⟨shape, left.data⟩) right.slices
  return (pairs.filter fun (first, second) => !close tolerance first second).length

def faultOf : Wording.Flaw → Fault α
  | .unreadable => .shape
  | .valueMissing => .wrongKind
  | .valueNamed => .index

/-- Check that two arrays agree. A message whose directives do not fit a single
count is a fault of its own. -/
def check (tolerance : Tolerance α) (text : String) (found expected : Operand α) :
    Except (Fault α) Unit := do
  match ← disagreements tolerance found expected with
  | 0 => return
  | count + 1 =>
      match Wording.withCount text (count + 1) with
      | .ok written => throw (.disagreement written)
      | .error flaw => throw (faultOf flaw)

end Agreement

end DampedLeastSquares
