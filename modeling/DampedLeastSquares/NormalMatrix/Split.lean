import DampedLeastSquares.NormalMatrix.Whole

/-!
# Normal matrices in blocks

The normal matrix of a Jacobian whose columns are split into a left and a right
block, held as the left block's own normal matrix, the coupling of both, and the
right block's own. A system is solved by eliminating the left unknowns: what is
left is a system for the right ones alone, whose matrix is reduced by the left
block's share. Vectors in place of dense columns make blocks with fewer axes;
most operations then find that an axis is missing.
-/

set_option autoImplicit false

namespace DampedLeastSquares

/-- The blocks of a normal matrix and the factor of the left one. The fourth
block is the transposed coupling and is not held. -/
structure SplitNormal (α : Type) where
  asSparse : Bool
  left : Operand α
  coupling : Operand α
  right : Operand α
  leftFactor? : Option (TriangularFactors α)

namespace SplitNormal

variable {α : Type} [Scalar α]

def create (asSparse : Bool) : SplitNormal α :=
  let nothing := Operand.matrix (.dense (DenseMatrix.zeros 0 0))
  ⟨asSparse, nothing, nothing, nothing, none⟩

def storage (normal : SplitNormal α) : Storage :=
  if normal.asSparse then .splitSparse else .splitDense

/-- No longer prepared for solving. The blocks keep their entries until the next
Jacobian is known. -/
def reset (normal : SplitNormal α) : SplitNormal α := { normal with leftFactor? := none }

def leftSize (normal : SplitNormal α) : Except (Fault α) Nat := normal.left.height

def rightSize (normal : SplitNormal α) : Except (Fault α) Nat := normal.right.height

/-- The columns of a Jacobian block in the storage of the blocks. -/
def stored (asSparse : Bool) : Operand α → Except (Fault α) (Operand α)
  | .matrix found => .ok (.matrix (found.stored asSparse))
  | columns =>
      if asSparse then columns.toSparse.map fun found => .matrix (.sparse found) else .ok columns

/-- The columns of both Jacobian blocks as they are stored, and the left block's
own normal matrix. -/
def startOf (normal : SplitNormal α) (left right : Operand α) :
    Except (Fault α) (Operand α × Operand α × Operand α) := do
  let first ← stored normal.asSparse left
  let second ← stored normal.asSparse right
  return (first, second, ← first.product first)

/-- The normal matrix of two blocks of columns. The left block is replaced first
and stays replaced if the columns then turn out to be of different height. -/
def compute (normal : SplitNormal α) (left right : Operand α) :
    Except (Fault α) Unit × SplitNormal α :=
  match normal.startOf left right with
  | .error fault => (.error fault, normal)
  | .ok (first, second, upper) =>
      let normal := { normal with left := upper }
      match first.product second with
      | .error fault => (.error fault, normal)
      | .ok coupling =>
          let normal := { normal with coupling := coupling }
          match second.product second with
          | .error fault => (.error fault, normal)
          | .ok lower => (.ok (), { normal with right := lower })

/-- The products of both blocks of columns with a vector of residuals, one after
the other, written to a vector of the given length. -/
def gradient (left right : Operand α) (residuals : Vec α) (length? : Option Nat) :
    Except (Fault α) (Vec α) := do
  let leftWidth ← left.width
  let length ← match length? with
    | some length => pure length
    | none => return ← into leftWidth (leftWidth + (← right.width))
  into leftWidth length
where
  /-- Write the left product to the first entries and the right one to the rest. -/
  into (leftWidth length : Nat) : Except (Fault α) (Vec α) := do
    let upper ← product left (min leftWidth length)
    let lower ← product right (length - leftWidth)
    return upper ++ lower
  /-- The product with one block, as a vector of the given length. -/
  product (columns : Operand α) (length : Nat) : Except (Fault α) (Vec α) := do
    let result ← columns.transposeMul (.ofVec residuals)
    Fault.fit (Vec.fill? length result.toTensor.flatten)

def quadraticForm (normal : SplitNormal α) (vector : Vec α) : Except (Fault α) α := do
  let size ← normal.leftSize
  let first := vector.before size
  let second := vector.after size
  let upper ← Operand.innerProduct first normal.left first
  if (← normal.rightSize) = 0 then return upper
  else
    let mixed ← Operand.innerProduct first normal.coupling second
    let lower ← Operand.innerProduct second normal.right second
    return upper + 2.0 * mixed + lower

def diagonal (normal : SplitNormal α) : Except (Fault α) (Vec α) := do
  let upper ← normal.left.diagonal
  let lower ← normal.right.diagonal
  return upper ++ lower

/-- Overwrite the diagonal, the left block's part first. -/
def setDiagonal (normal : SplitNormal α) (diagonal : Vec α) :
    Except (Fault α) Unit × SplitNormal α :=
  match normal.leftSize with
  | .error fault => (.error fault, normal)
  | .ok size =>
      match normal.left.replaceDiagonal (diagonal.before size) with
      | .error fault => (.error fault, normal)
      | .ok left =>
          let normal := { normal with left := .matrix left }
          match normal.right.replaceDiagonal (diagonal.after size) with
          | .error fault => (.error fault, normal)
          | .ok right => (.ok (), { normal with right := .matrix right })

def divide (normal : SplitNormal α) (scaling : Vec α) :
    Except (Fault α) Unit × SplitNormal α :=
  match normal.leftSize with
  | .error fault => (.error fault, normal)
  | .ok size =>
      let first := scaling.before size
      let second := scaling.after size
      match normal.left.divide first first with
      | .error fault => (.error fault, normal)
      | .ok left =>
          let normal := { normal with left := .matrix left }
          match normal.coupling.divide first second with
          | .error fault => (.error fault, normal)
          | .ok coupling =>
              let normal := { normal with coupling := .matrix coupling }
              match normal.right.divide second second with
              | .error fault => (.error fault, normal)
              | .ok right => (.ok (), { normal with right := .matrix right })

/-- Factor the left block, or say that it is not possible. -/
def prepare (normal : SplitNormal α) :
    Except (Fault α) (SplitNormal α × Option Shortfall) := do
  let factor? ← if normal.asSparse then (← normal.left.toSparse).positiveFactor?
    else pure normal.left.toDense.positiveFactor?
  return ({ normal with leftFactor? := factor? },
    if factor?.isSome then none else some .leftBlock)

/-- The matrix of the right unknowns after the left ones were eliminated, made
symmetric against rounding. -/
def reducedMatrix (factors : TriangularFactors α) (coupling right : Matrix α) :
    Option (DenseMatrix α) := do
  let eliminated ← factors.solveColumns? coupling.toDense
  let share ← coupling.transposeMul? (.dense eliminated)
  let reduced ← right.toDense.sub? share.toDense
  return reduced.symmetrized

/-- Solve for a right-hand side by eliminating the left unknowns. The first part
of the result is what `out` holds afterwards. -/
def solve (normal : SplitNormal α) (rhs out : Vec α) :
    Except (Fault α) (Vec α × Option Shortfall) := do
  match normal.leftFactor? with
  | none => throw .unfactored
  | some factors =>
      let size ← normal.leftSize
      let first := rhs.before size
      let eliminated ← Fault.fit (factors.solve? first)
      if (← normal.rightSize) = 0 then WholeNormal.written out eliminated
      else
        let coupling ← Fault.fit normal.coupling.matrix?
        let right ← Fault.fit normal.right.matrix?
        let share ← Fault.fit (coupling.transposeMulVec? eliminated)
        let second ← Fault.fit (Vec.combine? (· - ·) (rhs.after size) share)
        let reduced ← Fault.fit (reducedMatrix factors coupling right)
        match reduced.positiveFactor? with
        | none => return (out, some .reducedBlock)
        | some reducedFactors =>
            let lower ← Fault.fit (reducedFactors.solve? second)
            let coupled ← Fault.fit (coupling.mulVec? lower)
            let back ← Fault.fit (Vec.combine? (· - ·) first coupled)
            let upper ← Fault.fit (factors.solve? back)
            let leftOut ← Fault.fit (Vec.fill? (out.before size).length upper)
            let rightOut ← Fault.fit (Vec.fill? (out.after size).length lower)
            let result := leftOut ++ rightOut
            return (result, if result.allFinite then none else some .notFiniteSolution)

end SplitNormal

end DampedLeastSquares
