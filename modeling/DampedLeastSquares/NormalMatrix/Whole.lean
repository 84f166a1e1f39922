import DampedLeastSquares.Call
import DampedLeastSquares.Event
import DampedLeastSquares.Factor.Positive
import DampedLeastSquares.Factor.Spectral

/-!
# Normal matrices in one piece

The product of a transposed Jacobian with the Jacobian, held as one matrix. It
is factored once and then solved for any number of right-hand sides. The
least-norm solution works on the matrix itself: overwriting the diagonal
changes later solutions, while replacing the matrix does not. The product of a
vector with itself is held too, as an array with one axis.
-/

set_option autoImplicit false

namespace DampedLeastSquares

/-- How a matrix in one piece is held and solved. -/
inductive Method (α : Type) where
  /-- Dense, by elimination. -/
  | elimination
  /-- Dense, by the solution of least norm; singular values up to `cutoff` times
  the largest one count as zero. -/
  | leastNorm (cutoff : α)
  /-- Sparse, by elimination. -/
  | sparse
  /-- Dense, and factoring always fails. -/
  | unfactorable

/-- What a solution is computed from. -/
inductive PreparedSystem (α : Type) where
  | factored (factors : TriangularFactors α)
  /-- The matrix as it is at the time of the solution. -/
  | current
  /-- The matrix as it was before it was replaced. -/
  | earlier (matrix : Operand α)

/-- A normal matrix in one piece and what it was last prepared as. -/
structure WholeNormal (α : Type) where
  method : Method α
  matrix : Operand α
  prepared? : Option (PreparedSystem α)

namespace Method

variable {α : Type}

def isSparse : Method α → Bool
  | sparse => true
  | _ => false

def storage : Method α → Storage
  | elimination => .dense
  | leastNorm _ => .dense
  | sparse => .sparse
  | unfactorable => .unfactorable

def named (name : String) (cutoff : α) : Except (Fault α) (Method α) :=
  if name = "cholesky" then .ok elimination
  else if name = "pseudo_inverse" then .ok (leastNorm cutoff)
  else .error (.refused (.denseSolver name))

def name? : Method α → Option String
  | elimination => some "cholesky"
  | leastNorm _ => some "pseudo_inverse"
  | sparse => none
  | unfactorable => some "cholesky"

/-- The cutoff that is used unless another is given. -/
def standardCutoff [Scalar α] : α := 1.0e-11

end Method

namespace WholeNormal

variable {α : Type} [Scalar α]

def zeroMatrix (method : Method α) (size : Nat) : Operand α :=
  .matrix ((Matrix.dense (DenseMatrix.zeros size size)).stored method.isSparse)

/-- No matrix yet. -/
def create (method : Method α) : WholeNormal α := ⟨method, zeroMatrix method 0, none⟩

/-- A matrix of zeros, not prepared for solving. -/
def reset (normal : WholeNormal α) (size : Nat) : WholeNormal α :=
  { normal with matrix := zeroMatrix normal.method size, prepared? := none }

/-- Another matrix in place of the one at hand, which stays what solutions are
computed from. -/
def replaceMatrix (normal : WholeNormal α) (matrix : Operand α) : WholeNormal α where
  method := normal.method
  matrix := matrix
  prepared? := normal.prepared?.map fun
    | .current => .earlier normal.matrix
    | prepared => prepared

def update (normal : WholeNormal α) (jacobian : Operand α) :
    Except (Fault α) (WholeNormal α) := do
  if normal.method.isSparse then
    let columns ← jacobian.toSparse
    let product ← Fault.fit (columns.transposeMul? columns)
    return normal.replaceMatrix (.matrix (.sparse product))
  else
    match jacobian with
    | .matrix (.sparse _) => throw .shape
    | columns => return normal.replaceMatrix (← columns.transposeMul columns)

def quadraticForm (normal : WholeNormal α) (vector : Vec α) : Except (Fault α) α :=
  Operand.innerProduct vector normal.matrix vector

def diagonal (normal : WholeNormal α) : Except (Fault α) (Vec α) := normal.matrix.diagonal

def setDiagonal (normal : WholeNormal α) (diagonal : Vec α) :
    Except (Fault α) (WholeNormal α) := do
  let matrix ← normal.matrix.replaceDiagonal diagonal
  return { normal with matrix := .matrix matrix }

def divide (normal : WholeNormal α) (scaling : Vec α) : Except (Fault α) (WholeNormal α) := do
  return normal.replaceMatrix (.matrix (← normal.matrix.divide scaling scaling))

/-- Prepare for solving, or say why that is not possible. -/
def prepare (normal : WholeNormal α) :
    Except (Fault α) (WholeNormal α × Option Shortfall) := do
  let failed (reason : Shortfall) := ({ normal with prepared? := none }, some reason)
  let ready (prepared : PreparedSystem α) := ({ normal with prepared? := some prepared }, none)
  match normal.method with
  | .unfactorable => return failed .unfactorable
  | .elimination =>
      if !normal.matrix.allFinite then return failed .notFinite
      else match normal.matrix.toDense.positiveFactor? with
        | some factors => return ready (.factored factors)
        | none => return failed .notPositiveDefinite
  | .leastNorm _ =>
      if normal.matrix.allFinite then return ready .current
      else return failed .notFinite
  | .sparse =>
      match ← (← normal.matrix.toSparse).positiveFactor? with
      | some factors => return ready (.factored factors)
      | none => return failed .sparseNotPositiveDefinite

/-- Write a solution to a vector and tell whether it is finite. -/
def written (out solution : Vec α) : Except (Fault α) (Vec α × Option Shortfall) := do
  let result ← Fault.fit (Vec.fill? out.length solution)
  return (result, if result.allFinite then none else some .notFiniteSolution)

/-- The least-norm solution written to a vector, which stays as it is if there is
none. -/
def solveLeastNorm [Spectral α] (matrix : Operand α) (cutoff : α) (rhs out : Vec α) :
    Except (Fault α) (Vec α × Option Shortfall) :=
  if matrix.shape = [rhs.length, rhs.length] ∧ matrix.allFinite then
    written out (Spectral.leastNorm matrix.toDense cutoff rhs)
  else .ok (out, some .noLeastNorm)

/-- Solve for a right-hand side. The first part of the result is what `out` holds
afterwards. -/
def solve [Spectral α] (normal : WholeNormal α) (rhs out : Vec α) :
    Except (Fault α) (Vec α × Option Shortfall) := do
  let cutoff := match normal.method with
    | .leastNorm cutoff => cutoff
    | _ => Method.standardCutoff
  match normal.prepared? with
  | none => throw .unfactored
  | some (.factored factors) => written out (← Fault.fit (factors.solve? rhs))
  | some .current => solveLeastNorm normal.matrix cutoff rhs out
  | some (.earlier matrix) => solveLeastNorm matrix cutoff rhs out

end WholeNormal

end DampedLeastSquares
