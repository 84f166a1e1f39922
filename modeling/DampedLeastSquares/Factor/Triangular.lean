import DampedLeastSquares.Matrix.Dense

/-!
# Triangular factors

A square matrix is eliminated from its first row on: the first diagonal entry
is the pivot, and what is left is the matrix of the remaining rows and columns
with the pivot's share removed. The matrix is the product of a lower factor,
whose columns lie below the pivots, and an upper factor, whose rows lie right
of them. Elimination succeeds exactly as long as every pivot is positive.
-/

set_option autoImplicit false

namespace DampedLeastSquares

/-- How a pivot is divided between the two factors, and what becomes of entries
that are zero. -/
inductive Elimination where
  /-- Both factors get the root of the pivot, so those of a symmetric matrix are
  transposes of each other. All entries take part. -/
  | evenly
  /-- The upper factor gets the pivot and the lower one has ones on its diagonal.
  Entries that are zero take no part, as if they were not stored. -/
  | sparsely
deriving DecidableEq

/-- One eliminated row and column: their diagonal entries in the lower and the
upper factor, the other entries of the upper row, and those of the lower column. -/
structure EliminatedRow (α : Type) where
  lower : α
  upper : α
  right : Vec α
  below : Vec α

/-- The eliminated rows of a matrix, first to last. -/
structure TriangularFactors (α : Type) where
  elimination : Elimination
  rows : List (EliminatedRow α)

namespace Elimination

variable {α : Type} [Scalar α]

/-- The diagonal entries of both factors, whose product is the pivot. -/
def diagonals (elimination : Elimination) (pivot : α) : α × α :=
  match elimination with
  | evenly => (Scalar.sqrt pivot, Scalar.sqrt pivot)
  | sparsely => (1.0, pivot)

/-- What is left of a value when the product of a factor's entry with another
value is removed. -/
def remove (elimination : Elimination) (value entry other : α) : α :=
  match elimination with
  | evenly => value - entry * other
  | sparsely => if entry == 0.0 then value else value - entry * other

/-- The rows below the first one, without their first entries and with the
pivot's share removed. -/
def complement (elimination : Elimination) (right below : Vec α) (rows : List (Vec α)) :
    List (Vec α) :=
  List.zipWith
    (fun entry row => List.zipWith (fun value above => elimination.remove value entry above)
      row.tail right)
    below rows

theorem length_complement_le (elimination : Elimination) (right below : Vec α)
    (rows : List (Vec α)) : (elimination.complement right below rows).length ≤ rows.length := by
  simp only [complement, List.length_zipWith]
  exact Nat.min_le_right _ _

/-- Eliminate all rows. A pivot that is not greater than zero ends the attempt. -/
def eliminate? (elimination : Elimination) : List (Vec α) → Option (List (EliminatedRow α))
  | [] => some []
  | [] :: _ => none
  | (pivot :: tail) :: rows =>
      if 0.0 < pivot then
        let (lower, upper) := elimination.diagonals pivot
        let right := tail.map (· / lower)
        let below := rows.map fun row => row.headD 0.0 / upper
        (eliminate? elimination (elimination.complement right below rows)).map
          (⟨lower, upper, right, below⟩ :: ·)
      else none
termination_by rows => rows.length
decreasing_by
  simp only [List.length_cons]
  exact Nat.lt_succ_of_le (length_complement_le _ _ _ _)

def factor? (elimination : Elimination) (matrix : DenseMatrix α) :
    Option (TriangularFactors α) :=
  (elimination.eliminate? matrix.rows).map (⟨elimination, ·⟩)

/-- Solve the system with one right-hand side: downwards with the lower factor,
and back with the upper one. -/
def solve (elimination : Elimination) : List (EliminatedRow α) → Vec α → Vec α
  | [], _ => []
  | _ :: _, [] => []
  | row :: rows, first :: rest =>
      let head := first / row.lower
      let reduced := List.zipWith (fun value entry => elimination.remove value entry head)
        rest row.below
      let tail := solve elimination rows reduced
      let left := (List.zip row.right tail).foldr
        (fun (entry, unknown) value => elimination.remove value entry unknown) head
      left / row.upper :: tail

end Elimination

namespace TriangularFactors

variable {α : Type} [Scalar α]

def size (factors : TriangularFactors α) : Nat := factors.rows.length

def solve? (factors : TriangularFactors α) (rhs : Vec α) : Option (Vec α) :=
  if factors.size = rhs.length then some (factors.elimination.solve factors.rows rhs) else none

def solveColumns? (factors : TriangularFactors α) (rhs : DenseMatrix α) :
    Option (DenseMatrix α) :=
  if factors.size = rhs.height then
    some (DenseMatrix.ofColumns rhs.height
      (rhs.columns.map (factors.elimination.solve factors.rows)))
  else none

def finitePivots (factors : TriangularFactors α) : Bool :=
  factors.rows.all fun row => Scalar.isFinite row.upper

end TriangularFactors

end DampedLeastSquares
