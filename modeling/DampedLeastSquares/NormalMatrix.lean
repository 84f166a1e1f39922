import DampedLeastSquares.NormalMatrix.Split

/-!
# Normal matrices

One set of operations for normal matrices in one piece and in blocks. Where an
operation changes blocks one after the other, a fault leaves the blocks changed
that came before it, so the matrix that is left is part of every result.
-/

set_option autoImplicit false

namespace DampedLeastSquares

/-- A normal matrix in one piece or in blocks. -/
inductive NormalMatrix (α : Type) where
  | whole (normal : WholeNormal α)
  | split (normal : SplitNormal α)

namespace NormalMatrix

variable {α : Type} [Scalar α]

def storage : NormalMatrix α → Storage
  | whole normal => normal.method.storage
  | split normal => normal.storage

/-- Jacobians by differences are computed in sparse storage for this matrix. -/
def prefersSparse : NormalMatrix α → Bool
  | whole normal => normal.method.isSparse
  | split normal => normal.asSparse

def reset (size : Nat) : NormalMatrix α → NormalMatrix α
  | whole normal => .whole (normal.reset size)
  | split normal => .split normal.reset

/-- Ready for parameters of a number that may be negative. A matrix in one piece
cannot have that size; blocks get theirs from the next Jacobian. -/
def resetTo (size : Int) (normal : NormalMatrix α) : Except (Fault α) (NormalMatrix α) :=
  match normal with
  | whole _ => if size < 0 then .error .shape else .ok (normal.reset size.toNat)
  | split _ => .ok (normal.reset size.toNat)

/-- Pair a result with the matrix it left behind. -/
def kept (normal : NormalMatrix α) (result : Except (Fault α) (NormalMatrix α)) :
    Except (Fault α) Unit × NormalMatrix α :=
  match result with
  | .ok changed => (.ok (), changed)
  | .error fault => (.error fault, normal)

def update (normal : NormalMatrix α) (jacobian : Derivative α) :
    Except (Fault α) Unit × NormalMatrix α :=
  match normal, jacobian with
  | whole matrix, .whole columns => normal.kept ((matrix.update columns).map .whole)
  | split matrix, .split left right =>
      let (result, changed) := matrix.compute left right
      (result, .split changed)
  | _, _ => (.error .unsupported, normal)

/-- The products of two blocks of columns with a vector of residuals, which only
a matrix in blocks forms. -/
def gradient (normal : NormalMatrix α) (left right : Operand α) (residuals : Vec α)
    (length? : Option Nat) : Except (Fault α) (Vec α) :=
  match normal with
  | whole _ => .error .unsupported
  | split _ => SplitNormal.gradient left right residuals length?

def quadraticForm : NormalMatrix α → Vec α → Except (Fault α) α
  | whole normal => normal.quadraticForm
  | split normal => normal.quadraticForm

/-- The entries of an array of any rank but zero. A number alone cannot be divided
among blocks, nor its entries be read one by one; but first the blocks must have
sizes. -/
def entriesOf (normal : NormalMatrix α) (array : Operand α) : Except (Fault α) (Vec α) := do
  match normal with
  | whole _ => array.entries
  | split found =>
      let _ ← found.leftSize
      array.entries

/-- The quadratic form at an array of any rank. A number alone does not fit a
matrix in one piece. -/
def quadraticFormAt (normal : NormalMatrix α) (vector : Operand α) : Except (Fault α) α := do
  match normal, vector.shape with
  | whole _, [] => throw .shape
  | _, _ => normal.quadraticForm (← normal.entriesOf vector)

def diagonal : NormalMatrix α → Except (Fault α) (Vec α)
  | whole normal => normal.diagonal
  | split normal => normal.diagonal

def diagonalInto (normal : NormalMatrix α) (length : Nat) : Except (Fault α) (Vec α) := do
  Fault.fit (Vec.fill? length (← normal.diagonal))

def setDiagonal (normal : NormalMatrix α) (diagonal : Vec α) :
    Except (Fault α) Unit × NormalMatrix α :=
  match normal with
  | whole matrix => normal.kept ((matrix.setDiagonal diagonal).map .whole)
  | split matrix =>
      let (result, changed) := matrix.setDiagonal diagonal
      (result, .split changed)

/-- Overwrite the diagonal with an array of any rank. A number alone fills the
diagonal of a matrix in one piece and cannot be divided among blocks. Arrays with
more axes are read row by row, but not by a sparse matrix. -/
def setDiagonalFrom (normal : NormalMatrix α) (diagonal : Operand α) :
    Except (Fault α) Unit × NormalMatrix α :=
  match normal, diagonal.vector? with
  | whole _, some vector => normal.setDiagonal vector
  | whole found, none =>
      if found.method.isSparse then (.error .shape, normal)
      else normal.setDiagonal diagonal.toTensor.flatten
  | split _, some _ =>
      match normal.entriesOf diagonal with
      | .ok vector => normal.setDiagonal vector
      | .error fault => (.error fault, normal)
  | split _, none => (.error .shape, normal)

def divide (normal : NormalMatrix α) (scaling : Vec α) :
    Except (Fault α) Unit × NormalMatrix α :=
  match normal with
  | whole matrix => normal.kept ((matrix.divide scaling).map .whole)
  | split matrix =>
      let (result, changed) := matrix.divide scaling
      (result, .split changed)

/-- Divide rows and columns by the entries of an array of any rank but zero. -/
def divideBy (normal : NormalMatrix α) (scaling : Operand α) :
    Except (Fault α) Unit × NormalMatrix α :=
  match normal.entriesOf scaling with
  | .ok entries => normal.divide entries
  | .error fault => (.error fault, normal)

/-- Prepare for solving, or say why that is not possible. -/
def prepare : NormalMatrix α → Except (Fault α) (NormalMatrix α × Option Shortfall)
  | whole normal => normal.prepare.map fun (changed, reason) => (.whole changed, reason)
  | split normal => normal.prepare.map fun (changed, reason) => (.split changed, reason)

/-- Solve for a right-hand side. The first part of the result is what `out` holds
afterwards. -/
def solve [Spectral α] : NormalMatrix α → Vec α → Vec α →
    Except (Fault α) (Vec α × Option Shortfall)
  | whole normal => normal.solve
  | split normal => normal.solve

def isPrepared : NormalMatrix α → Bool
  | whole normal => normal.prepared?.isSome
  | split normal => normal.leftFactor?.isSome

/-- Solve for a right-hand side of any rank but zero, starting from zeros. Only a
vector's worth of right-hand sides has a place for its solution. -/
def solveFor [Spectral α] (normal : NormalMatrix α) (rhs : Operand α) :
    Except (Fault α) (Vec α × Option Shortfall) := do
  let entries ← rhs.entries
  if rhs.vector?.isSome ∨ rhs.shape = [1, 1] then
    normal.solve entries (Vec.zeros entries.length)
  else throw (if normal.isPrepared then .shape else .unfactored)

end NormalMatrix

end DampedLeastSquares
