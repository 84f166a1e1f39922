import DampedLeastSquares.Fault
import DampedLeastSquares.Matrix

/-!
# Operands

Arrays whose rank is known only once they arrive: a matrix in either storage,
or an array of another rank. The operations on matrices say here what they do
with a vector in place of a matrix, and which arrays they do not take.
-/

set_option autoImplicit false

namespace DampedLeastSquares

/-- A matrix, or an array of rank other than two. -/
inductive Operand (α : Type) where
  | matrix (matrix : Matrix α)
  | array (array : Tensor α)

namespace Operand

variable {α : Type}

def ofTensor (array : Tensor α) : Operand α :=
  match array.shape with
  | [height, width] =>
      match DenseMatrix.ofRows? width (Tensor.chunks height width array.data) with
      | some found => .matrix (.dense found)
      | none => .array array
  | _ => .array array

def ofVec (vector : Vec α) : Operand α := .array (.vector vector)

def shape : Operand α → List Nat
  | matrix found => found.shape
  | array found => found.shape

def matrix? : Operand α → Option (Matrix α)
  | matrix found => some found
  | array _ => none

/-- The entries of an array with at most one axis. -/
def vector? : Operand α → Option (Vec α)
  | matrix _ => none
  | array found => if found.shape.length ≤ 1 then some found.data else none

/-- The operand, unless it is a number alone, which has no operations of arrays. -/
def axial (operand : Operand α) : Except (Fault α) (Operand α) :=
  if operand.shape.isEmpty then .error .unsupported else .ok operand

/-- The number of rows, which only arrays with an axis have. -/
def height (operand : Operand α) : Except (Fault α) Nat :=
  Fault.present operand.shape[0]?

/-- The number of columns, which only arrays with a second axis have. -/
def width (operand : Operand α) : Except (Fault α) Nat := do
  Fault.present (← operand.axial).shape[1]?

variable [Scalar α]

def toTensor : Operand α → Tensor α
  | matrix found => found.toDense.toTensor
  | array found => found

/-- The entries in row order. A number alone has none that could be read one by
one. -/
def entries (operand : Operand α) : Except (Fault α) (Vec α) :=
  if operand.shape.isEmpty then .error .wrongKind else .ok operand.toTensor.flatten

/-- The entries in row order on one axis. A sparse matrix cannot take that form. -/
def flatten : Operand α → Except (Fault α) (Vec α)
  | matrix (.sparse _) => .error .shape
  | operand => .ok operand.toTensor.flatten

def allFinite (operand : Operand α) : Bool := Vec.allFinite operand.toTensor.data

/-- The operand as a dense matrix; an array that is none counts as its only row. -/
def toDense : Operand α → DenseMatrix α
  | matrix found => found.toDense
  | array found => DenseMatrix.rowMatrix found.data

/-- The operand as a sparse matrix; a vector counts as its only row. An array with
more axes is of no kind that can be stored sparsely. -/
def toSparse : Operand α → Except (Fault α) (SparseMatrix α)
  | matrix found => .ok found.toSparse
  | array found =>
      if found.shape.length ≤ 1 then .ok (SparseMatrix.ofDense (DenseMatrix.rowMatrix found.data))
      else .error .wrongKind

/-- The product of the transposed first operand with the second. A vector on
the left is not changed by transposing it; two vectors make a number. -/
def product : Operand α → Operand α → Except (Fault α) (Operand α)
  | matrix left, matrix right => Fault.fit ((left.transposeMul? right).map .matrix)
  | matrix left, array right =>
      if right.shape.length = 1 then Fault.fit ((left.transposeMulVec? right.data).map ofVec)
      else .error .shape
  | array left, matrix right =>
      if left.shape.length = 1 then Fault.fit ((right.transposeMulVec? left.data).map ofVec)
      else .error .shape
  | array left, array right =>
      if left.shape.length = 1 ∧ right.shape.length = 1 then
        Fault.fit ((Vec.dot? left.data right.data).map fun value => array (.scalar value))
      else .error .shape

/-- The product of the transposed first operand with the second, on at least one
axis. A number alone cannot be transposed. -/
def transposeMul (left right : Operand α) : Except (Fault α) (Operand α) := do
  match ← (← left.axial).product right with
  | .array ⟨[], data⟩ => return ofVec data
  | found => return found

/-- The product with a vector. A vector counts as the only row of a matrix. -/
def apply (operand : Operand α) (vector : Vec α) : Except (Fault α) (Vec α) :=
  match operand with
  | matrix found => Fault.fit (found.mulVec? vector)
  | array found =>
      if found.shape.length = 1 then
        Fault.fit ((DenseMatrix.rowMatrix found.data).mulVec? vector)
      else .error .shape

def innerProduct (left : Vec α) (operand : Operand α) (right : Vec α) :
    Except (Fault α) α := do
  Fault.fit (Vec.dot? left (← operand.apply right))

/-- The inner product for arrays of any rank. A number alone on the right is no
vector; on the left it multiplies a result that has a single entry. -/
def innerProductOf (left operand right : Operand α) : Except (Fault α) α :=
  match left.shape, right.shape with
  | _, [] => .error .shape
  | [], _ => do
      match ← operand.apply right.toTensor.flatten with
      | [value] => return Vec.dot left.toTensor.flatten [value]
      | _ => throw .wrongKind
  | _, _ => innerProduct left.toTensor.flatten operand right.toTensor.flatten

def diagonal (operand : Operand α) : Except (Fault α) (Vec α) :=
  Fault.fit (operand.matrix?.map Matrix.diagonal)

/-- Divide each entry by its row's and its column's divisor. A vector counts as a
row. -/
def divide (operand : Operand α) (rowDivisors columnDivisors : Vec α) :
    Except (Fault α) (Matrix α) :=
  match operand with
  | matrix found => Fault.fit (found.divide? rowDivisors columnDivisors)
  | array found =>
      if found.shape.length ≤ 1 then
        let row := DenseMatrix.rowMatrix found.data
        Fault.fit ((row.divide? rowDivisors columnDivisors).map .dense)
      else .error .shape

/-- Divide by divisors of any rank but zero. The columns have the same ones as the
rows unless others are given. -/
def divideBy (operand rowDivisors : Operand α) (columnDivisors? : Option (Operand α)) :
    Except (Fault α) (Matrix α) := do
  operand.divide (← rowDivisors.entries) (← (columnDivisors?.getD rowDivisors).entries)

def replaceDiagonal (operand : Operand α) (diagonal : Vec α) : Except (Fault α) (Matrix α) :=
  Fault.fit (operand.matrix?.bind (·.replaceDiagonal? diagonal))

/-- The matrix with a diagonal of any rank, read row by row. A sparse matrix takes
at most one axis. -/
def replaceDiagonalBy (operand diagonal : Operand α) : Except (Fault α) (Matrix α) := do
  match ← operand.axial, diagonal.vector? with
  | matrix (.sparse _), none => throw .shape
  | found, _ => found.replaceDiagonal diagonal.toTensor.flatten

/-- The columns of both operands side by side. Next to a sparse matrix, a vector
counts as a row; next to a dense one, no vector has the second axis that it
would have to share. -/
def append (left right : Operand α) : Except (Fault α) (Matrix α) := do
  match left, right with
  | matrix first, matrix second => Fault.fit (first.append? second)
  | matrix (.sparse first), array _ =>
      Fault.fit ((first.append? (← right.toSparse)).map .sparse)
  | array _, matrix (.sparse second) =>
      Fault.fit (((← left.toSparse).append? second).map .sparse)
  | array first, _ => if first.shape.length = 1 then .error .noAxis else .error .shape
  | _, _ => .error .shape

end Operand

end DampedLeastSquares
