import DampedLeastSquares.Matrix.Dense

/-!
# Sparse matrices

A matrix as the list of its columns, each holding only the entries that are
stored, in the order of their rows. Which entries are stored is part of the
value: a product never reads an entry that is not there, so such an entry
cannot turn an infinite one into an undefined one. Results of arithmetic store
no zeros; a zero that was handed in explicitly stays stored.
-/

set_option autoImplicit false

namespace DampedLeastSquares

/-- The stored entries of one column: row and value, rows ascending. -/
abbrev StoredColumn (α : Type) := List (Nat × α)

/-- Rows ascend strictly and lie below the height. -/
def StoredColumn.Ordered {α : Type} (height : Nat) (column : StoredColumn α) : Prop :=
  column.Pairwise (fun first second => first.1 < second.1) ∧ ∀ item ∈ column, item.1 < height

structure SparseMatrix (α : Type) where
  height : Nat
  columns : List (StoredColumn α)
  ordered : ∀ column ∈ columns, StoredColumn.Ordered height column

/-- The column whose entry in each row a function decides. -/
def StoredColumn.ofFn? {α : Type} (height : Nat) (item? : Nat → Option α) : StoredColumn α :=
  (List.range height).filterMap fun row => (item? row).map (row, ·)

theorem StoredColumn.ordered_ofFn? {α : Type} (height : Nat) (item? : Nat → Option α) :
    StoredColumn.Ordered height (StoredColumn.ofFn? height item?) := by
  constructor
  · refine List.Pairwise.filterMap _ ?_ List.pairwise_lt_range
    intro first second ascending item itemAt other otherAt
    obtain ⟨_, _, rfl⟩ := Option.map_eq_some_iff.mp itemAt
    obtain ⟨_, _, rfl⟩ := Option.map_eq_some_iff.mp otherAt
    exact ascending
  · intro item member
    obtain ⟨row, inside, itemAt⟩ := List.mem_filterMap.mp member
    obtain ⟨_, _, rfl⟩ := Option.map_eq_some_iff.mp itemAt
    exact List.mem_range.mp inside

namespace SparseMatrix

variable {α : Type}

def width (matrix : SparseMatrix α) : Nat := matrix.columns.length

/-- The matrix of the given size whose stored entries a function of the
position decides. -/
def ofFn? (height width : Nat) (item? : Nat → Nat → Option α) : SparseMatrix α where
  height := height
  columns := (List.range width).map fun column => StoredColumn.ofFn? height (item? · column)
  ordered := by
    intro column member
    obtain ⟨position, _, rfl⟩ := List.mem_map.mp member
    exact StoredColumn.ordered_ofFn? height _

@[simp] theorem width_ofFn? (height width : Nat) (item? : Nat → Nat → Option α) :
    (ofFn? height width item?).width = width := by
  simp [ofFn?, SparseMatrix.width]

@[simp] theorem height_ofFn? (height width : Nat) (item? : Nat → Nat → Option α) :
    (ofFn? height width item?).height = height := rfl

def column (matrix : SparseMatrix α) (position : Nat) : StoredColumn α :=
  matrix.columns.getD position []

def get? (matrix : SparseMatrix α) (row column : Nat) : Option α :=
  (matrix.column column).lookup row

def storedValues (matrix : SparseMatrix α) : List α :=
  matrix.columns.flatMap (·.map (·.2))

def empty (height width : Nat) : SparseMatrix α := ofFn? height width fun _ _ => none

/-- Apply a function to the stored entries, keeping which ones are stored. -/
def mapStored (function : α → α) (matrix : SparseMatrix α) : SparseMatrix α :=
  ofFn? matrix.height matrix.width fun row column => (matrix.get? row column).map function

variable [Scalar α]

/-- A value that is not zero. Undefined values are kept. -/
def nonzero? (value : α) : Option α := if value == 0.0 then none else some value

/-- The entry at a position, zero where nothing is stored. -/
def entry (matrix : SparseMatrix α) (row column : Nat) : α :=
  (matrix.get? row column).getD 0.0

/-- Store the entries of a dense matrix that are not zero. -/
def ofDense (matrix : DenseMatrix α) : SparseMatrix α :=
  ofFn? matrix.height matrix.width fun row column => nonzero? (matrix.entry row column)

def toDense (matrix : SparseMatrix α) : DenseMatrix α :=
  DenseMatrix.ofFn matrix.height matrix.width matrix.entry

/-- Store a value at each listed position, adding the values that share one. A
position stays stored whatever the sum is; positions outside are ignored. -/
def ofTriplets (height width : Nat) (items : List (Nat × Nat × α)) : SparseMatrix α :=
  ofFn? height width fun row column =>
    match items.filter (fun item => item.1 == row && item.2.1 == column) with
    | [] => none
    | first :: rest => some (rest.foldl (fun total item => total + item.2.2) first.2.2)

/-- The sum of the products over the rows stored in both columns, if there is
such a row and the sum is not zero. -/
def storedDot? (left right : StoredColumn α) : Option α :=
  match left.filterMap fun item => (right.lookup item.1).map (item.2 * ·) with
  | [] => none
  | products => nonzero? (Vec.sum products)

def transposeMul? (left right : SparseMatrix α) : Option (SparseMatrix α) :=
  if left.height = right.height then
    some (ofFn? left.width right.width fun row column =>
      storedDot? (left.column row) (right.column column))
  else none

/-- The sum of the stored entries of a column, each multiplied by the vector's
entry at its row. -/
def weightedColumn (column : StoredColumn α) (vector : Vec α) : α :=
  Vec.sum (column.map fun item => item.2 * vector.getD item.1 0.0)

def mulVec? (matrix : SparseMatrix α) (vector : Vec α) : Option (Vec α) :=
  if matrix.width = vector.length then
    some ((List.range matrix.height).map fun row =>
      Vec.sum ((List.range matrix.width).filterMap fun column =>
        (matrix.get? row column).map (· * vector.getD column 0.0)))
  else none

def transposeMulVec? (matrix : SparseMatrix α) (vector : Vec α) : Option (Vec α) :=
  if matrix.height = vector.length then
    some (matrix.columns.map (weightedColumn · vector))
  else none

def transposeMulDense? (matrix : SparseMatrix α) (right : DenseMatrix α) :
    Option (DenseMatrix α) :=
  if matrix.height = right.height then
    some (DenseMatrix.ofFn matrix.width right.width fun row column =>
      weightedColumn (matrix.column row) (right.column column))
  else none

def diagonal (matrix : SparseMatrix α) : Vec α :=
  (List.range (min matrix.height matrix.width)).map fun position => matrix.entry position position

/-- Replace the diagonal by adding the difference to the diagonal at hand, so
that entries missing there get stored. The matrix must be square and the new
diagonal must have its size, or one entry for all positions. -/
def replaceDiagonal? (matrix : SparseMatrix α) (diagonal : Vec α) : Option (SparseMatrix α) := do
  let changes ← Vec.combine? (· - ·) diagonal matrix.diagonal
  if matrix.height = changes.length ∧ matrix.width = changes.length then
    some (ofFn? matrix.height matrix.width fun row column =>
      let change? := if row = column then nonzero? (changes.getD row 0.0) else none
      match matrix.get? row column, change? with
      | none, none => none
      | some value, none => nonzero? value
      | none, some change => some change
      | some value, some change => nonzero? (value + change))
  else none

/-- Multiply each stored entry by the reciprocals of its row's and its column's
divisor. The divisors must have the sizes of the matrix. -/
def divide? (matrix : SparseMatrix α) (rowDivisors columnDivisors : Vec α) :
    Option (SparseMatrix α) :=
  if matrix.height = rowDivisors.length ∧ matrix.width = columnDivisors.length then
    some (ofFn? matrix.height matrix.width fun row column => do
      let value ← matrix.get? row column
      let rowFactor ← nonzero? (1.0 / rowDivisors.getD row 0.0)
      let scaled ← nonzero? (rowFactor * value)
      let columnFactor ← nonzero? (1.0 / columnDivisors.getD column 0.0)
      nonzero? (scaled * columnFactor))
  else none

def append? (left right : SparseMatrix α) : Option (SparseMatrix α) :=
  if left.height = right.height then
    some (ofFn? left.height (left.width + right.width) fun row column =>
      if column < left.width then left.get? row column
      else right.get? row (column - left.width))
  else none

def columnRange (matrix : SparseMatrix α) (start count : Nat) : SparseMatrix α :=
  ofFn? matrix.height count fun row column => matrix.get? row (start + column)

def rowMatrix (matrix : SparseMatrix α) (position : Nat) : SparseMatrix α :=
  ofFn? 1 matrix.width fun _ column => matrix.get? position column

def allFinite (matrix : SparseMatrix α) : Bool := matrix.storedValues.all Scalar.isFinite

end SparseMatrix

end DampedLeastSquares
