import DampedLeastSquares.Factor.Triangular
import DampedLeastSquares.Operand

/-!
# Factors of positive definite matrices

A matrix is factored for solving if its entries are finite and elimination
meets positive pivots only. Of a dense matrix only the entries on and above the
diagonal count. A sparse matrix is judged by its stored entries, must be
square, and its pivots must be finite too.
-/

set_option autoImplicit false

namespace DampedLeastSquares

variable {α : Type} [Scalar α]

/-- The factors of a dense matrix, if its entries are finite and it is positive
definite. -/
def DenseMatrix.positiveFactor? (matrix : DenseMatrix α) : Option (TriangularFactors α) :=
  if matrix.allFinite then Elimination.evenly.factor? matrix.mirrored else none

/-- The factors of a sparse matrix, if its entries are finite and it is positive
definite. -/
def SparseMatrix.positiveFactor? (matrix : SparseMatrix α) :
    Except (Fault α) (Option (TriangularFactors α)) :=
  if matrix.allFinite then
    if matrix.height = matrix.width then
      .ok ((Elimination.sparsely.factor? matrix.toDense).filter (·.finitePivots))
    else .error .shape
  else .ok none

/-- Solve for one right-hand side, or for each column of a dense matrix. -/
def TriangularFactors.solveFor (factors : TriangularFactors α) :
    Operand α → Except (Fault α) (Operand α)
  | .matrix (.dense columns) =>
      Fault.fit ((factors.solveColumns? columns).map fun found => .matrix (.dense found))
  | .matrix (.sparse _) => .error .shape
  | .array rhs =>
      if rhs.shape.length = 1 then Fault.fit ((factors.solve? rhs.data).map .ofVec)
      else .error .shape

/-- Factor a sparse matrix and solve with it. Nothing is solved if the matrix is
not positive definite. -/
def SparseMatrix.solvePositive (matrix : SparseMatrix α) (rhs : Operand α) :
    Except (Fault α) (Option (Operand α)) := do
  match ← matrix.positiveFactor? with
  | none => return none
  | some factors => return some (← factors.solveFor rhs)

end DampedLeastSquares
