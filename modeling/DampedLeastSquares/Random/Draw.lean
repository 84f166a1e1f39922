import DampedLeastSquares.Random.Normal

/-!
# Random arrays

Vectors, matrices and Jacobians with random entries, drawn row by row. What a
draw took from the generator before it failed stays taken.
-/

set_option autoImplicit false

namespace DampedLeastSquares

/-- A computation that draws from a generator and may fail. -/
abbrev Draw := Call Generator Float

namespace Draw

/-- The sign bit is set, as it is for a negative zero. -/
def negativeSign (value : Float) : Bool := value.toBits >>> 63 == 1

/-- The number of elements and the extents of an array, all of which must be
nonnegative. -/
def extents (shape : List Int) : Draw (List Nat) :=
  if shape.any (· < 0) then throw .shape else return shape.map Int.toNat

/-- Repeat a draw that cannot fail. -/
def several {β : Type} (count : Nat) (draw : StateM Generator β) : Draw (List β) :=
  ExceptT.mk do return .ok (← (List.range count).mapM fun _ => draw)

/-- Numbers spread evenly between two ends. The ends must be in order and not
infinitely far apart. -/
def uniform (shape : List Int) (low high : Float) : Draw (Tensor Float) := do
  let range := high - low
  if !range.isFinite then throw .overflow
  if negativeSign range then throw .shape
  let extents ← extents shape
  let drawn ← several (extentProduct extents) Generator.unit
  return ⟨extents, drawn.map fun unit => low + range * unit⟩

/-- Normally distributed numbers. The deviation must not be negative. -/
def normal (shape : List Int) (mean deviation : Float) : Draw (Tensor Float) := do
  if negativeSign deviation && !deviation.isNaN then throw .shape
  let extents ← extents shape
  let drawn ← several (extentProduct extents) Normal.variate
  return ⟨extents, drawn.map fun variate => mean + deviation * variate⟩

def vector (length : Int) (limit : Float) : Draw (Vec Float) := do
  return (← uniform [length] (-limit) limit).flatten

def matrix (height width : Int) (limit : Float) : Draw (DenseMatrix Float) := do
  let drawn ← uniform [height, width] (-limit) limit
  return DenseMatrix.ofFn height.toNat width.toNat fun row column =>
    drawn.data.getD (row * width.toNat + column) 0.0

/-- Numbers at equal distances from the first to the last one. A single number is
the first one, and undefined if the last one is infinitely far away. -/
def spaced (first last : Float) (count : Nat) : Vec Float :=
  if count ≤ 1 then List.replicate count (first + 0.0 * (last - first))
  else
    let step := (last - first) / Float.ofNat (count - 1)
    (List.range count).map fun position =>
      if position + 1 = count then last else first + Float.ofNat position * step

/-- Remove from a vector its parts along vectors of length one. -/
def project (basis : List (Vec Float)) (vector : Vec Float) : Vec Float :=
  basis.foldl
    (fun rest direction =>
      let part := Vec.dot direction rest
      List.zipWith (fun value entry => value - part * entry) rest direction)
    vector

/-- Vectors of length one at right angles that span what the given vectors span.
Each is projected twice, so that rounding does not tilt it. -/
def orthonormal (vectors : List (Vec Float)) : List (Vec Float) :=
  vectors.foldl
    (fun basis vector =>
      let rest := project basis (project basis vector)
      let length := Vec.norm rest
      basis ++ [rest.map (· / length)])
    []

/-- Eigenvalues between one half and two, or spread from one to a condition number
in equal ratios. -/
def eigenvalues (size : Int) : Option Float → Draw (Vec Float)
  | none => do
      return (← uniform [size] 0.5 2.0).flatten
  | some condition =>
      return (spaced 0.0 condition.log10 size.toNat).map (Float.pow 10.0)

/-- A symmetric matrix with random eigenvectors. The eigenvalues are random too,
unless a condition number is given. -/
def positiveDefinite (size : Int) (condition? : Option Float) : Draw (DenseMatrix Float) := do
  let drawn ← matrix size size 1.0
  let basis := orthonormal drawn.columns
  let spectrum ← eigenvalues size condition?
  return DenseMatrix.ofFn size.toNat size.toNat fun row column =>
    Vec.sum (List.zipWith
      (fun eigenvalue direction =>
        direction.getD row 0.0 * eigenvalue * direction.getD column 0.0)
      spectrum basis)

/-- One row whose entries are zero but for one of its blocks, which is drawn. -/
def blockRow (width : Nat) (size owner : Int) : Draw (Vec Float) := do
  let drawn := (← uniform [size] (-1.0) 1.0).flatten
  let start := cutPosition width (owner * size)
  let stop := cutPosition width ((owner + 1) * size)
  let block ← Call.fit (Vec.fill? (stop - start) drawn)
  return Vec.zeros start ++ block ++ Vec.zeros (width - start - block.length)

/-- Two blocks of a Jacobian. Each row of the left one depends on a single group
of parameters, the groups taking turns; the right one is full, or filled up to
a density. -/
def blockJacobian (height blocks size right : Int) (density : Float) :
    Draw (SparseMatrix Float × SparseMatrix Float) := do
  let extents ← extents [height, blocks * size]
  let width := extents.getD 1 0
  let rows ← (List.range height.toNat).mapM fun row =>
    blockRow width size (if blocks = 0 then 0 else Int.fmod (Int.ofNat row) blocks)
  let full ← matrix height right 1.0
  let thinned ← if density < 1.0 then do
      let drawn ← uniform [height, right] 0.0 1.0
      pure (DenseMatrix.ofFn full.height full.width fun row column =>
        let chosen := decide (drawn.data.getD (row * full.width + column) 0.0 < density)
        full.entry row column * (if chosen then 1.0 else 0.0))
    else pure full
  return (SparseMatrix.ofDense (DenseMatrix.ofFn height.toNat width fun row column =>
      (rows.getD row []).getD column 0.0),
    SparseMatrix.ofDense thinned)

end Draw

end DampedLeastSquares
