import DampedLeastSquares.Matrix.Sparse

/-!
# Matrices in either storage

One set of operations for dense and sparse matrices. A result is sparse where
every matrix that entered it was, except that side by side columns are sparse
as soon as one of the two is.
-/

set_option autoImplicit false

namespace DampedLeastSquares

/-- A matrix together with the way it is stored. -/
inductive Matrix (α : Type) where
  | dense (matrix : DenseMatrix α)
  | sparse (matrix : SparseMatrix α)

namespace Matrix

variable {α : Type}

def height : Matrix α → Nat
  | dense matrix => matrix.height
  | sparse matrix => matrix.height

def width : Matrix α → Nat
  | dense matrix => matrix.width
  | sparse matrix => matrix.width

def shape (matrix : Matrix α) : List Nat := [matrix.height, matrix.width]

def isSparse : Matrix α → Bool
  | dense _ => false
  | sparse _ => true

variable [Scalar α]

def toDense : Matrix α → DenseMatrix α
  | dense matrix => matrix
  | sparse matrix => matrix.toDense

def toSparse : Matrix α → SparseMatrix α
  | dense matrix => SparseMatrix.ofDense matrix
  | sparse matrix => matrix

/-- The entry at a position, zero outside the matrix. -/
def entry : Matrix α → Nat → Nat → α
  | dense matrix => matrix.entry
  | sparse matrix => matrix.entry

def mapStored (function : α → α) : Matrix α → Matrix α
  | dense matrix => dense (matrix.map function)
  | sparse matrix => sparse (matrix.mapStored function)

def mulVec? : Matrix α → Vec α → Option (Vec α)
  | dense matrix, vector => matrix.mulVec? vector
  | sparse matrix, vector => matrix.mulVec? vector

def transposeMulVec? : Matrix α → Vec α → Option (Vec α)
  | dense matrix, vector => matrix.transposeMulVec? vector
  | sparse matrix, vector => matrix.transposeMulVec? vector

def transposeMul? : Matrix α → Matrix α → Option (Matrix α)
  | dense left, dense right => (left.transposeMul? right).map dense
  | sparse left, dense right => (left.transposeMulDense? right).map dense
  | dense left, sparse right =>
      (right.transposeMulDense? left).map fun product => dense product.transpose
  | sparse left, sparse right => (left.transposeMul? right).map sparse

def diagonal : Matrix α → Vec α
  | dense matrix => matrix.diagonal
  | sparse matrix => matrix.diagonal

def divide? (matrix : Matrix α) (rowDivisors columnDivisors : Vec α) : Option (Matrix α) :=
  match matrix with
  | dense matrix => (matrix.divide? rowDivisors columnDivisors).map dense
  | sparse matrix => (matrix.divide? rowDivisors columnDivisors).map sparse

def append? : Matrix α → Matrix α → Option (Matrix α)
  | dense left, dense right => (left.append? right).map dense
  | left, right => (left.toSparse.append? right.toSparse).map sparse

def replaceDiagonal? (matrix : Matrix α) (diagonal : Vec α) : Option (Matrix α) :=
  match matrix with
  | dense matrix => some (dense (matrix.setDiagonal diagonal))
  | sparse matrix => (matrix.replaceDiagonal? diagonal).map sparse

def columnRange (matrix : Matrix α) (start count : Nat) : Matrix α :=
  match matrix with
  | dense matrix => dense (matrix.columnRange start count)
  | sparse matrix => sparse (matrix.columnRange start count)

/-- The columns before a cut position and those from it on. -/
def cutColumns (matrix : Matrix α) (position : Int) : Matrix α × Matrix α :=
  let cut := cutPosition matrix.width position
  (matrix.columnRange 0 cut, matrix.columnRange cut (matrix.width - cut))

/-- The matrix in the given storage, `true` for sparse. -/
def stored (asSparse : Bool) (matrix : Matrix α) : Matrix α :=
  if asSparse then sparse matrix.toSparse else dense matrix.toDense

end Matrix

end DampedLeastSquares
