import DampedLeastSquares.Tensor

/-!
# Dense matrices

A matrix as the list of its rows. The number of columns is stored, so that a
matrix without rows has a width too. Products compute every term, a factor
zero included: an infinite or undefined entry reaches all results it takes
part in.
-/

set_option autoImplicit false

namespace DampedLeastSquares

/-- Rows of equal length. -/
structure DenseMatrix (α : Type) where
  rows : List (Vec α)
  width : Nat
  rectangular : ∀ row ∈ rows, row.length = width

namespace DenseMatrix

variable {α : Type}

def height (matrix : DenseMatrix α) : Nat := matrix.rows.length

/-- The matrix of the given size whose entries a function of the position gives. -/
def ofFn (height width : Nat) (entry : Nat → Nat → α) : DenseMatrix α where
  rows := (List.range height).map fun row => (List.range width).map (entry row)
  width := width
  rectangular := by
    intro row member
    obtain ⟨index, _, rfl⟩ := List.mem_map.mp member
    simp

@[simp] theorem height_ofFn (height width : Nat) (entry : Nat → Nat → α) :
    (ofFn height width entry).height = height := by
  simp [ofFn, DenseMatrix.height]

@[simp] theorem width_ofFn (height width : Nat) (entry : Nat → Nat → α) :
    (ofFn height width entry).width = width := rfl

theorem ofFn_congr {height width : Nat} {first second : Nat → Nat → α}
    (agree : ∀ row < height, ∀ column < width, first row column = second row column) :
    ofFn height width first = ofFn height width second := by
  have rows : (List.range height).map (fun row => (List.range width).map (first row)) =
      (List.range height).map fun row => (List.range width).map (second row) :=
    List.map_congr_left fun row rowInside => List.map_congr_left fun column columnInside =>
      agree row (List.mem_range.mp rowInside) column (List.mem_range.mp columnInside)
  simp only [ofFn, rows]

/-- Rows whose lengths all agree with the given width. -/
def ofRows? (width : Nat) (rows : List (Vec α)) : Option (DenseMatrix α) :=
  if fits : ∀ row ∈ rows, row.length = width then some ⟨rows, width, fits⟩ else none

def map {β : Type} (function : α → β) (matrix : DenseMatrix α) : DenseMatrix β where
  rows := matrix.rows.map (·.map function)
  width := matrix.width
  rectangular := by
    intro row member
    obtain ⟨source, inside, rfl⟩ := List.mem_map.mp member
    simpa using matrix.rectangular source inside

def entries (matrix : DenseMatrix α) : List α := matrix.rows.flatten

def toTensor (matrix : DenseMatrix α) : Tensor α :=
  ⟨[matrix.height, matrix.width], matrix.entries⟩

variable [Scalar α]

/-- The entry at a position, zero outside the matrix. -/
def entry (matrix : DenseMatrix α) (row column : Nat) : α :=
  (matrix.rows.getD row []).getD column 0.0

theorem entry_ofFn (height width : Nat) (value : Nat → Nat → α) {row column : Nat}
    (rowInside : row < height) (columnInside : column < width) :
    (ofFn height width value).entry row column = value row column := by
  simp [ofFn, entry, List.getD, rowInside, columnInside]

def zeros (height width : Nat) : DenseMatrix α := ofFn height width fun _ _ => 0.0

def rowMatrix (vector : Vec α) : DenseMatrix α :=
  ⟨[vector], vector.length, by simp⟩

def columnMatrix (vector : Vec α) : DenseMatrix α :=
  ⟨vector.map ([·]), 1, by simp⟩

def column (matrix : DenseMatrix α) (position : Nat) : Vec α :=
  matrix.rows.map (·.getD position 0.0)

def columns (matrix : DenseMatrix α) : List (Vec α) :=
  (List.range matrix.width).map matrix.column

@[simp] theorem length_column (matrix : DenseMatrix α) (position : Nat) :
    (matrix.column position).length = matrix.height := by
  simp [column, DenseMatrix.height]

@[simp] theorem length_columns (matrix : DenseMatrix α) :
    matrix.columns.length = matrix.width := by
  simp [columns]

def transpose (matrix : DenseMatrix α) : DenseMatrix α where
  rows := matrix.columns
  width := matrix.height
  rectangular := by
    intro row member
    obtain ⟨position, _, rfl⟩ := List.mem_map.mp member
    simp

/-- The matrix whose columns are the given vectors of one length. -/
def ofColumns (height : Nat) (columns : List (Vec α)) : DenseMatrix α :=
  ofFn height columns.length fun row column => (columns.getD column []).getD row 0.0

def mulVec? (matrix : DenseMatrix α) (vector : Vec α) : Option (Vec α) :=
  if matrix.width = vector.length then some (matrix.rows.map (Vec.dot · vector)) else none

def transposeMulVec? (matrix : DenseMatrix α) (vector : Vec α) : Option (Vec α) :=
  if matrix.height = vector.length then some (matrix.columns.map (Vec.dot · vector)) else none

def transposeMul? (left right : DenseMatrix α) : Option (DenseMatrix α) :=
  if left.height = right.height then
    some {
      rows := left.columns.map fun first => right.columns.map (Vec.dot first)
      width := right.width
      rectangular := by
        intro row member
        obtain ⟨first, _, rfl⟩ := List.mem_map.mp member
        simp }
  else none

/-- The entries with equal row and column, as many as fit. -/
def diagonal (matrix : DenseMatrix α) : Vec α :=
  (List.range (min matrix.height matrix.width)).map fun position => matrix.entry position position

/-- The entry of a vector that is repeated from its start when it ends, or
`otherwise` if the vector has no entry at all. -/
def cyclicEntry (vector : Vec α) (position : Nat) (otherwise : α) : α :=
  vector.getD (position % vector.length) otherwise

/-- Write a vector onto the diagonal. A vector that is too short is repeated
from its start and the surplus of a longer one is ignored; an empty vector
changes nothing. -/
def setDiagonal (matrix : DenseMatrix α) (diagonal : Vec α) : DenseMatrix α :=
  ofFn matrix.height matrix.width fun row column =>
    let previous := matrix.entry row column
    if row = column then cyclicEntry diagonal row previous else previous

omit [Scalar α] in
theorem cyclicEntry_cyclicEntry (vector : Vec α) (position : Nat) (otherwise : α) :
    cyclicEntry vector position (cyclicEntry vector position otherwise) =
      cyclicEntry vector position otherwise := by
  unfold cyclicEntry
  rw [List.getD_eq_getElem?_getD, List.getD_eq_getElem?_getD]
  cases vector[position % vector.length]? with
  | none => rfl
  | some value => rfl

theorem setDiagonal_setDiagonal (matrix : DenseMatrix α) (diagonal : Vec α) :
    (matrix.setDiagonal diagonal).setDiagonal diagonal = matrix.setDiagonal diagonal := by
  unfold setDiagonal
  rw [height_ofFn, width_ofFn]
  refine ofFn_congr fun row rowInside column columnInside => ?_
  rw [entry_ofFn _ _ _ rowInside columnInside]
  split
  · exact cyclicEntry_cyclicEntry diagonal row _
  · rfl

/-- The extent two extents stretch to, if they are equal or one of them is one. -/
def commonExtent? (first second : Nat) : Option Nat :=
  if first = second then some first
  else if first = 1 then some second
  else if second = 1 then some first
  else none

/-- A position on an axis that was stretched if its extent is one. -/
def stretchedPosition (extent position : Nat) : Nat := if extent = 1 then 0 else position

/-- Divide row `i` by `rowDivisors i` and then column `j` by `columnDivisors j`.
Matrix and divisors stretch along extents of one. -/
def divide? (matrix : DenseMatrix α) (rowDivisors columnDivisors : Vec α) :
    Option (DenseMatrix α) := do
  let height ← commonExtent? matrix.height rowDivisors.length
  let width ← commonExtent? matrix.width columnDivisors.length
  some (ofFn height width fun row column =>
    matrix.entry (stretchedPosition matrix.height row) (stretchedPosition matrix.width column)
      / rowDivisors.getD (stretchedPosition rowDivisors.length row) 0.0
      / columnDivisors.getD (stretchedPosition columnDivisors.length column) 0.0)

def append? (left right : DenseMatrix α) : Option (DenseMatrix α) :=
  if left.height = right.height then
    some (ofFn left.height (left.width + right.width) fun row column =>
      if column < left.width then left.entry row column
      else right.entry row (column - left.width))
  else none

def columnRange (matrix : DenseMatrix α) (start count : Nat) : DenseMatrix α :=
  ofFn matrix.height count fun row column => matrix.entry row (start + column)

/-- The mean of a square matrix and its transpose, which is symmetric whatever
rounding did to the matrix. -/
def symmetrized (matrix : DenseMatrix α) : DenseMatrix α :=
  ofFn matrix.height matrix.width fun row column =>
    0.5 * (matrix.entry row column + matrix.entry column row)

/-- The symmetric matrix with the same entries on and above the diagonal. -/
def mirrored (matrix : DenseMatrix α) : DenseMatrix α :=
  ofFn matrix.height matrix.width fun row column =>
    if row ≤ column then matrix.entry row column else matrix.entry column row

def sub? (left right : DenseMatrix α) : Option (DenseMatrix α) :=
  if left.height = right.height ∧ left.width = right.width then
    some (ofFn left.height left.width fun row column =>
      left.entry row column - right.entry row column)
  else none

def allFinite (matrix : DenseMatrix α) : Bool := matrix.rows.all Vec.allFinite

end DenseMatrix

end DampedLeastSquares
