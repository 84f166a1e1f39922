import DampedLeastSquares.Matrix.Dense

/-!
# Minimum-norm solutions

A symmetric matrix acts on each of its eigenvectors by a number. The solution
of least norm divides by these numbers and leaves out those that are
negligible against the largest, so a singular system has one too. Finding the
eigenvectors is left to the scalars: rotations approximate them for `Float`,
while exact arithmetic may use any decomposition that exists.
-/

set_option autoImplicit false

namespace DampedLeastSquares

/-- Scalars over which symmetric matrices are decomposed. -/
class Spectral (α : Type) [Scalar α] where
  /-- The eigenvalues of a symmetric matrix, each with a vector of length one;
  the vectors are orthogonal and as many as there are rows. -/
  eigenpairs : DenseMatrix α → List (α × Vec α)

namespace Spectral

variable {α : Type} [Scalar α]

/-- The cosine and sine that make the off-diagonal entry of a symmetric matrix
of size two vanish. -/
def rotation (first second offDiagonal : α) : α × α :=
  let ratio := (second - first) / (2.0 * offDiagonal)
  let size := 1.0 / (Scalar.abs ratio + Scalar.sqrt (ratio * ratio + 1.0))
  let tangent := if ratio < 0.0 then -size else size
  let cosine := 1.0 / Scalar.sqrt (tangent * tangent + 1.0)
  (cosine, tangent * cosine)

def rotateColumns (cosine sine : α) (first second : Nat) (matrix : DenseMatrix α) :
    DenseMatrix α :=
  DenseMatrix.ofFn matrix.height matrix.width fun row column =>
    if column = first then
      cosine * matrix.entry row first - sine * matrix.entry row second
    else if column = second then
      sine * matrix.entry row first + cosine * matrix.entry row second
    else matrix.entry row column

/-- A matrix under rotation and the product of the rotations so far. -/
structure Rotated (α : Type) where
  matrix : DenseMatrix α
  vectors : DenseMatrix α

/-- Make one off-diagonal entry vanish, if adding it to the diagonal entries of
its row and column changes one of them. -/
def annihilate (state : Rotated α) (position : Nat × Nat) : Rotated α :=
  let (first, second) := position
  let offDiagonal := state.matrix.entry first second
  let upper := state.matrix.entry first first
  let lower := state.matrix.entry second second
  let size := Scalar.abs offDiagonal
  if Scalar.abs upper + size == Scalar.abs upper && Scalar.abs lower + size == Scalar.abs lower then
    state
  else
    let (cosine, sine) := rotation upper lower offDiagonal
    let half := rotateColumns cosine sine first second state.matrix
    ⟨(rotateColumns cosine sine first second half.transpose).transpose,
      rotateColumns cosine sine first second state.vectors⟩

def upperPositions (size : Nat) : List (Nat × Nat) :=
  (List.range size).flatMap fun row =>
    (List.range size).filterMap fun column => if row < column then some (row, column) else none

/-- Annihilate all positions above the diagonal in turn, `sweeps` times. -/
def sweep : Nat → Rotated α → Rotated α
  | 0, state => state
  | sweeps + 1, state =>
      sweep sweeps ((upperPositions state.matrix.height).foldl annihilate state)

/-- Eigenvalues and eigenvectors by rotations. The rotated entries vanish
quadratically; thirty sweeps leave a wide margin. -/
def byRotations (matrix : DenseMatrix α) : List (α × Vec α) :=
  let size := matrix.height
  let identity := DenseMatrix.ofFn size size fun row column => if row = column then 1.0 else 0.0
  let state := sweep 30 ⟨matrix, identity⟩
  List.zip state.matrix.diagonal state.vectors.columns

/-- The share of the largest magnitude up to which eigenvalues are negligible. A
share that would leave out nothing or everything is replaced by the rounding
error of a double; an undefined one stays and leaves out nothing. -/
def effectiveCutoff (cutoff : α) : α :=
  if cutoff ≤ 0.0 ∨ 1.0 ≤ cutoff then 1.1102230246251565e-16 else cutoff

/-- The inner product with an eigenvector. Entries where the eigenvector is zero
take no part, whatever they are. -/
def component (vector rhs : Vec α) : α :=
  Vec.sum ((List.zip vector rhs).filterMap fun (entry, value) =>
    if entry == 0.0 then none else some (entry * value))

/-- The sum over the eigenpairs above the cutoff of the right-hand side's part
along the vector, divided by the eigenvalue. Eigenvalues of at most `cutoff`
times the largest magnitude are left out. -/
def combination (pairs : List (α × Vec α)) (cutoff : α) (rhs : Vec α) : Vec α :=
  let largest := (Vec.maxAbs? (pairs.map (·.1))).getD 0.0
  let used := pairs.filter fun pair => !decide (Scalar.abs pair.1 ≤ cutoff * largest)
  used.foldl
    (fun total pair =>
      let part := component pair.2 rhs / pair.1
      List.zipWith (fun value entry => value + part * entry) total pair.2)
    (Vec.zeros rhs.length)

/-- The factor that brings entries of the given size to where their products
neither overflow nor vanish. It is one for ordinary sizes. -/
def balance (size : α) : α :=
  if 1.0e120 < size then 1.0e-200 else if size < 1.0e-120 then 1.0e200 else 1.0

/-- The solution of least norm. Matrix and right-hand side are balanced before
the matrix is decomposed, and the solution is brought back: multiplied by the
one factor and divided by the other, unless the two are the same. A matrix of
zeros has the solution zero whatever the right-hand side is, and with an
infinite entry on the right there is no solution at all. -/
def leastNorm [Spectral α] (matrix : DenseMatrix α) (cutoff : α) (rhs : Vec α) : Vec α :=
  let matrixSize := (Vec.maxAbs? matrix.entries).getD 0.0
  let rhsSize := (Vec.maxAbs? rhs).getD 0.0
  if matrixSize == 0.0 then Vec.zeros rhs.length
  else if rhs.any fun value => !Scalar.isFinite value && !Scalar.isNaN value then
    rhs.map fun _ => 0.0 / 0.0
  else
    let matrixFactor := balance matrixSize
    let rhsFactor := if rhsSize == 0.0 then 1.0 else balance rhsSize
    let pairs := eigenpairs (matrix.map (· * matrixFactor))
    let solution := combination pairs (effectiveCutoff cutoff) (rhs.map (· * rhsFactor))
    if matrixFactor == rhsFactor then solution
    else solution.map (· * matrixFactor / rhsFactor)

end Spectral

instance : Spectral Float where
  eigenpairs := Spectral.byRotations

end DampedLeastSquares
