import Mathlib.Data.List.GetD
import DampedLeastSquares.Matrix
import DampedLeastSquares.Proofs.Exact.Checked

/-!
# Arrays of numbers

Operations on vectors and matrices whose entries are all numbers have results whose entries are
numbers. Entries beyond the end of an array count as zero, which only a division minds: where
matrices are divided, the divisors are looked up inside their vectors.
-/

set_option autoImplicit false

namespace DampedLeastSquares

open Checked

/-! ## Vectors -/

namespace Vec

/-- All entries are numbers. -/
def Defined (vector : Vec Checked) : Prop := ∀ entry ∈ vector, entry.Defined

/-- All entries are greater than zero. -/
def Positive (vector : Vec Checked) : Prop := ∀ entry ∈ vector, 0.0 < entry

variable {left right vector result : Vec Checked}

theorem Positive.defined (positive : vector.Positive) : vector.Defined :=
  fun entry inside => defined_of_pos (positive entry inside)

@[simp] theorem defined_nil : Defined [] := nofun

@[simp] theorem positive_nil : Positive [] := nofun

@[simp] theorem defined_cons {entry : Checked} :
    Defined (entry :: vector) ↔ entry.Defined ∧ vector.Defined :=
  List.forall_mem_cons

@[simp] theorem defined_append :
    Defined (left ++ right) ↔ left.Defined ∧ right.Defined :=
  List.forall_mem_append

theorem defined_replicate (length : Nat) {entry : Checked} (defined : entry.Defined) :
    Defined (List.replicate length entry) := by
  intro found inside
  rw [List.eq_of_mem_replicate inside]
  exact defined

theorem defined_zeros (length : Nat) : (zeros length : Vec Checked).Defined :=
  defined_replicate length (defined_literal _ _ _)

theorem positive_ones (length : Nat) : (ones length : Vec Checked).Positive := by
  intro found inside
  rw [List.eq_of_mem_replicate inside]
  exact pos_iff.mpr ⟨1, one_pos, literal_one⟩

theorem Defined.map (defined : vector.Defined) {function : Checked → Checked}
    (total : ∀ entry, entry.Defined → (function entry).Defined) :
    Defined (vector.map function) := by
  intro found member
  obtain ⟨entry, inside, rfl⟩ := List.mem_map.mp member
  exact total entry (defined entry inside)

theorem Defined.filter (defined : vector.Defined) (test : Checked → Bool) :
    Defined (vector.filter test) :=
  fun entry inside => defined entry (List.mem_of_mem_filter inside)

theorem Defined.getD (defined : vector.Defined) (position : Nat) {otherwise : Checked}
    (default : otherwise.Defined) : (vector.getD position otherwise).Defined := by
  rw [List.getD_eq_getElem?_getD]
  cases found : vector[position]? with
  | none => exact default
  | some entry => exact defined entry (List.mem_of_getElem? found)

theorem Defined.set (defined : vector.Defined) (position : Nat) {value : Checked}
    (valueDefined : value.Defined) : Defined (vector.set position value) := by
  intro entry inside
  rcases List.mem_or_eq_of_mem_set inside with kept | rfl
  · exact defined entry kept
  · exact valueDefined

theorem Defined.tail (defined : vector.Defined) : Defined vector.tail :=
  fun entry inside => defined entry (List.mem_of_mem_tail inside)

theorem Defined.before (defined : vector.Defined) (position : Int) :
    (vector.before position).Defined :=
  fun entry inside => defined entry (List.mem_of_mem_take inside)

theorem Defined.after (defined : vector.Defined) (position : Int) :
    (vector.after position).Defined :=
  fun entry inside => defined entry (List.mem_of_mem_drop inside)

theorem Positive.before (positive : vector.Positive) (position : Int) :
    (vector.before position).Positive :=
  fun entry inside => positive entry (List.mem_of_mem_take inside)

theorem Positive.after (positive : vector.Positive) (position : Int) :
    (vector.after position).Positive :=
  fun entry inside => positive entry (List.mem_of_mem_drop inside)

theorem Positive.getD (positive : vector.Positive) {position : Nat}
    (inside : position < vector.length) (otherwise : Checked) :
    0.0 < vector.getD position otherwise := by
  rw [List.getD_eq_getElem _ _ inside]
  exact positive _ (List.getElem_mem inside)

/-- What holds of an operation on all pairs of entries holds of the entries of a combination. -/
theorem forall_mem_zipWith {α β γ : Type} {operation : α → β → γ} {good : γ → Prop}
    {first : List α} {second : List β}
    (total : ∀ x ∈ first, ∀ y ∈ second, good (operation x y)) :
    ∀ z ∈ List.zipWith operation first second, good z := by
  induction first generalizing second with
  | nil => simp
  | cons x first previous =>
      cases second with
      | nil => simp
      | cons y second =>
          rw [List.zipWith_cons_cons, List.forall_mem_cons]
          refine ⟨total x (by simp) y (by simp), previous fun x' inside y' inside' => ?_⟩
          exact total x' (by simp [inside]) y' (by simp [inside'])

theorem forall_mem_combine? {operation : Checked → Checked → Checked}
    (total : ∀ x ∈ left, ∀ y ∈ right, (operation x y).Defined)
    (combined : combine? operation left right = some result) : result.Defined := by
  unfold combine? at combined
  split at combined
  · cases combined
    exact forall_mem_zipWith total
  · split at combined
    · cases combined
      intro entry member
      obtain ⟨other, inside, rfl⟩ := List.mem_map.mp member
      exact total _ (by simp) other inside
    · cases combined
      intro entry member
      obtain ⟨other, inside, rfl⟩ := List.mem_map.mp member
      exact total other inside _ (by simp)
    · cases combined

theorem Defined.combine? (first : left.Defined) (second : right.Defined)
    {operation : Checked → Checked → Checked}
    (total : ∀ x y, x.Defined → y.Defined → (operation x y).Defined)
    (combined : Vec.combine? operation left right = some result) : result.Defined :=
  forall_mem_combine? (fun x inside y inside' => total x y (first x inside) (second y inside'))
    combined

theorem Defined.divided (defined : left.Defined) (positive : right.Positive)
    (combined : Vec.combine? (· / ·) left right = some result) : result.Defined :=
  forall_mem_combine? (fun x inside y inside' => (defined x inside).div_pos (positive y inside'))
    combined

theorem Defined.fill? (defined : vector.Defined) {length : Nat}
    (filled : Vec.fill? length vector = some result) : result.Defined := by
  unfold Vec.fill? at filled
  split at filled
  · cases filled
    exact defined
  · split at filled
    · cases filled
      exact defined_replicate length (defined _ (by simp))
    · cases filled

theorem Defined.foldl (defined : vector.Defined) {operation : Checked → Checked → Checked}
    (total : ∀ x y, x.Defined → y.Defined → (operation x y).Defined) {start : Checked}
    (begin : start.Defined) : (vector.foldl operation start).Defined := by
  induction vector generalizing start with
  | nil => exact begin
  | cons entry rest previous =>
      rw [defined_cons] at defined
      exact previous defined.2 (total _ _ begin defined.1)

theorem Defined.sum (defined : vector.Defined) : (Vec.sum vector).Defined :=
  defined.foldl (fun _ _ first second => defined_add.mpr ⟨first, second⟩) (defined_literal _ _ _)

theorem Defined.dot (first : left.Defined) (second : right.Defined) :
    (Vec.dot left right).Defined :=
  sum (forall_mem_zipWith fun x inside y inside' =>
    defined_mul.mpr ⟨first x inside, second y inside'⟩)

theorem Defined.dot? (first : left.Defined) (second : right.Defined) {value : Checked}
    (found : Vec.dot? left right = some value) : value.Defined := by
  unfold Vec.dot? at found
  split at found
  · cases found
    exact first.dot second
  · cases found

theorem Defined.maxAbs? (defined : vector.Defined) {value : Checked}
    (found : Vec.maxAbs? vector = some value) : value.Defined := by
  cases vector with
  | nil => cases found
  | cons first rest =>
      cases found
      rw [defined_cons] at defined
      refine defined.2.foldl (fun x y found entry => ?_) (defined_abs.mpr defined.1)
      exact found.larger (defined_abs.mpr entry)

end Vec

/-! ## Dense matrices -/

namespace DenseMatrix

/-- All entries are numbers. -/
def Defined (matrix : DenseMatrix Checked) : Prop := ∀ row ∈ matrix.rows, Vec.Defined row

variable {left right matrix result : DenseMatrix Checked} {vector : Vec Checked}

theorem defined_ofFn {height width : Nat} {value : Nat → Nat → Checked}
    (total : ∀ row < height, ∀ column < width, (value row column).Defined) :
    (ofFn height width value).Defined := by
  intro entries rowMember entry member
  obtain ⟨row, rowInside, rfl⟩ := List.mem_map.mp rowMember
  obtain ⟨column, inside, rfl⟩ := List.mem_map.mp member
  exact total row (List.mem_range.mp rowInside) column (List.mem_range.mp inside)

theorem defined_zeros (height width : Nat) : (zeros height width : DenseMatrix Checked).Defined :=
  defined_ofFn fun _ _ _ _ => defined_literal _ _ _

theorem Defined.entry (defined : matrix.Defined) (row column : Nat) :
    (matrix.entry row column).Defined := by
  unfold DenseMatrix.entry
  have rowDefined : Vec.Defined (matrix.rows.getD row []) := by
    rw [List.getD_eq_getElem?_getD]
    cases found : matrix.rows[row]? with
    | none => exact Vec.defined_nil
    | some entries => exact defined entries (List.mem_of_getElem? found)
  exact rowDefined.getD column (defined_literal _ _ _)

theorem Defined.entries (defined : matrix.Defined) : Vec.Defined matrix.entries := by
  intro entry inside
  obtain ⟨row, inside, member⟩ := List.mem_flatten.mp inside
  exact defined row inside entry member

theorem defined_rowMatrix (defined : vector.Defined) : (rowMatrix vector).Defined := by
  intro row inside
  rw [List.mem_singleton.mp inside]
  exact defined

theorem Defined.column (defined : matrix.Defined) (position : Nat) :
    Vec.Defined (matrix.column position) := by
  intro entry member
  obtain ⟨row, inside, rfl⟩ := List.mem_map.mp member
  exact (defined row inside : Vec.Defined row).getD position (defined_literal _ _ _)

theorem Defined.columns (defined : matrix.Defined) :
    ∀ column ∈ matrix.columns, Vec.Defined column := by
  intro column inside
  obtain ⟨position, -, rfl⟩ := List.mem_map.mp inside
  exact defined.column position

theorem Defined.transpose (defined : matrix.Defined) : matrix.transpose.Defined := defined.columns

theorem defined_ofColumns {height : Nat} {columns : List (Vec Checked)}
    (defined : ∀ column ∈ columns, Vec.Defined column) : (ofColumns height columns).Defined := by
  refine defined_ofFn fun row _ column inside => ?_
  rw [List.getD_eq_getElem _ _ inside]
  exact Vec.Defined.getD (defined _ (List.getElem_mem inside)) row (defined_literal _ _ _)

theorem Defined.mulVec? (defined : matrix.Defined) (vectorDefined : vector.Defined)
    {product : Vec Checked} (found : matrix.mulVec? vector = some product) : product.Defined := by
  unfold DenseMatrix.mulVec? at found
  split at found
  · cases found
    intro entry member
    obtain ⟨row, inside, rfl⟩ := List.mem_map.mp member
    exact Vec.Defined.dot (defined row inside) vectorDefined
  · cases found

theorem Defined.transposeMulVec? (defined : matrix.Defined) (vectorDefined : vector.Defined)
    {product : Vec Checked} (found : matrix.transposeMulVec? vector = some product) :
    product.Defined := by
  unfold DenseMatrix.transposeMulVec? at found
  split at found
  · cases found
    intro entry member
    obtain ⟨column, inside, rfl⟩ := List.mem_map.mp member
    exact Vec.Defined.dot (defined.columns column inside) vectorDefined
  · cases found

theorem Defined.transposeMul? (first : left.Defined) (second : right.Defined)
    (found : left.transposeMul? right = some result) : result.Defined := by
  unfold DenseMatrix.transposeMul? at found
  split at found
  · cases found
    intro row rowMember entry member
    obtain ⟨column, inside, rfl⟩ := List.mem_map.mp rowMember
    obtain ⟨other, otherInside, rfl⟩ := List.mem_map.mp member
    exact Vec.Defined.dot (first.columns column inside) (second.columns other otherInside)
  · cases found

theorem Defined.diagonal (defined : matrix.Defined) : Vec.Defined matrix.diagonal := by
  intro entry inside
  obtain ⟨position, -, rfl⟩ := List.mem_map.mp inside
  exact defined.entry position position

theorem Defined.setDiagonal (defined : matrix.Defined) (vectorDefined : vector.Defined) :
    (matrix.setDiagonal vector).Defined := by
  refine defined_ofFn fun row _ column _ => ?_
  dsimp only
  split
  · exact vectorDefined.getD _ (defined.entry row column)
  · exact defined.entry row column

/-- A position on a stretched axis lies inside the divisors. -/
theorem stretchedPosition_lt {extent length common position : Nat}
    (stretched : commonExtent? extent length = some common) (inside : position < common) :
    stretchedPosition length position < length := by
  unfold commonExtent? at stretched
  unfold stretchedPosition
  split at stretched
  · cases stretched
    split <;> omega
  · split at stretched
    · cases stretched
      split <;> omega
    · split at stretched
      · cases stretched
        split <;> omega
      · cases stretched

theorem Defined.divide? (defined : matrix.Defined) {rowDivisors columnDivisors : Vec Checked}
    (rows : rowDivisors.Positive) (columns : columnDivisors.Positive)
    (found : matrix.divide? rowDivisors columnDivisors = some result) : result.Defined := by
  unfold DenseMatrix.divide? at found
  obtain ⟨height, stretchedHeight, found⟩ := Option.bind_eq_some_iff.mp found
  obtain ⟨width, stretchedWidth, found⟩ := Option.bind_eq_some_iff.mp found
  cases found
  refine defined_ofFn fun row rowInside column columnInside => ?_
  have rowDivisor := rows.getD (stretchedPosition_lt stretchedHeight rowInside) 0.0
  have columnDivisor := columns.getD (stretchedPosition_lt stretchedWidth columnInside) 0.0
  exact ((defined.entry _ _).div_pos rowDivisor).div_pos columnDivisor

theorem Defined.columnRange (defined : matrix.Defined) (start count : Nat) :
    (matrix.columnRange start count).Defined :=
  defined_ofFn fun row _ column _ => defined.entry row (start + column)

theorem Defined.symmetrized (defined : matrix.Defined) : matrix.symmetrized.Defined := by
  refine defined_ofFn fun row _ column _ => ?_
  have mean := And.intro (defined.entry row column) (defined.entry column row)
  exact defined_mul.mpr ⟨defined_literal _ _ _, defined_add.mpr mean⟩

theorem Defined.mirrored (defined : matrix.Defined) : matrix.mirrored.Defined := by
  refine defined_ofFn fun row _ column _ => ?_
  split
  · exact defined.entry row column
  · exact defined.entry column row

theorem Defined.sub? (first : left.Defined) (second : right.Defined)
    (found : left.sub? right = some result) : result.Defined := by
  unfold DenseMatrix.sub? at found
  split at found
  · cases found
    refine defined_ofFn fun row _ column _ => ?_
    exact defined_sub.mpr ⟨first.entry row column, second.entry row column⟩
  · cases found

end DenseMatrix

/-! ## Sparse matrices -/

namespace StoredColumn

/-- All stored entries are numbers. -/
def Defined (column : StoredColumn Checked) : Prop := ∀ item ∈ column, item.2.Defined

variable {column left right : StoredColumn Checked} {value : Checked}

theorem Defined.lookup (defined : column.Defined) {row : Nat}
    (found : column.lookup row = some value) : value.Defined := by
  induction column with
  | nil => cases found
  | cons item rest previous =>
      obtain ⟨key, stored⟩ := item
      have restDefined : Defined rest := fun item inside => defined item (by simp [inside])
      rw [List.lookup_cons] at found
      split at found
      · next same =>
          cases found
          exact defined (key, value) (by simp)
      · exact previous restDefined found

theorem defined_nonzero? {given : Checked} (defined : given.Defined)
    (found : SparseMatrix.nonzero? given = some value) : value.Defined := by
  unfold SparseMatrix.nonzero? at found
  split at found
  · cases found
  · cases found
    exact defined

theorem Defined.storedDot? (first : left.Defined) (second : right.Defined)
    (found : SparseMatrix.storedDot? left right = some value) : value.Defined := by
  unfold SparseMatrix.storedDot? at found
  split at found
  · cases found
  · next products _ =>
      refine defined_nonzero? (Vec.Defined.sum fun product member => ?_) found
      obtain ⟨item, inside, met⟩ := List.mem_filterMap.mp member
      obtain ⟨other, stored, rfl⟩ := Option.map_eq_some_iff.mp met
      exact defined_mul.mpr ⟨first item inside, second.lookup stored⟩

theorem Defined.weightedColumn (defined : column.Defined) {vector : Vec Checked}
    (vectorDefined : vector.Defined) :
    (SparseMatrix.weightedColumn column vector).Defined := by
  refine Vec.Defined.sum fun product member => ?_
  obtain ⟨item, inside, rfl⟩ := List.mem_map.mp member
  exact defined_mul.mpr ⟨defined item inside, vectorDefined.getD _ (defined_literal _ _ _)⟩

end StoredColumn

namespace SparseMatrix

open StoredColumn (defined_nonzero?)

/-- All stored entries are numbers. -/
def Defined (matrix : SparseMatrix Checked) : Prop :=
  ∀ column ∈ matrix.columns, StoredColumn.Defined column

variable {left right matrix result : SparseMatrix Checked} {vector : Vec Checked}

theorem defined_ofFn? {height width : Nat} {item? : Nat → Nat → Option Checked}
    (total : ∀ row < height, ∀ column < width, ∀ value, item? row column = some value →
      value.Defined) :
    (ofFn? height width item?).Defined := by
  intro items columnMember item member
  obtain ⟨column, columnInside, rfl⟩ := List.mem_map.mp columnMember
  obtain ⟨row, inside, stored⟩ := List.mem_filterMap.mp member
  obtain ⟨value, found, rfl⟩ := Option.map_eq_some_iff.mp stored
  exact total row (List.mem_range.mp inside) column (List.mem_range.mp columnInside) value found

theorem Defined.column (defined : matrix.Defined) (position : Nat) :
    StoredColumn.Defined (matrix.column position) := by
  unfold SparseMatrix.column
  rw [List.getD_eq_getElem?_getD]
  cases found : matrix.columns[position]? with
  | none => exact nofun
  | some column => exact defined column (List.mem_of_getElem? found)

theorem Defined.get? (defined : matrix.Defined) {row column : Nat} {value : Checked}
    (found : matrix.get? row column = some value) : value.Defined :=
  (defined.column column).lookup found

theorem Defined.entry (defined : matrix.Defined) (row column : Nat) :
    (matrix.entry row column).Defined := by
  unfold SparseMatrix.entry
  cases found : matrix.get? row column with
  | none => exact defined_literal _ _ _
  | some value => exact defined.get? found

theorem defined_ofDense {dense : DenseMatrix Checked} (defined : dense.Defined) :
    (ofDense dense).Defined :=
  defined_ofFn? fun row _ column _ _ => defined_nonzero? (defined.entry row column)

theorem Defined.toDense (defined : matrix.Defined) : matrix.toDense.Defined :=
  DenseMatrix.defined_ofFn fun row _ column _ => defined.entry row column

theorem Defined.transposeMul? (first : left.Defined) (second : right.Defined)
    (found : left.transposeMul? right = some result) : result.Defined := by
  unfold SparseMatrix.transposeMul? at found
  split at found
  · cases found
    exact defined_ofFn? fun row _ column _ _ => (first.column row).storedDot? (second.column column)
  · cases found

theorem Defined.mulVec? (defined : matrix.Defined) (vectorDefined : vector.Defined)
    {product : Vec Checked} (found : matrix.mulVec? vector = some product) : product.Defined := by
  unfold SparseMatrix.mulVec? at found
  split at found
  · cases found
    intro entry inside
    obtain ⟨row, -, rfl⟩ := List.mem_map.mp inside
    refine Vec.Defined.sum fun product inside => ?_
    obtain ⟨column, -, met⟩ := List.mem_filterMap.mp inside
    obtain ⟨value, stored, rfl⟩ := Option.map_eq_some_iff.mp met
    exact defined_mul.mpr ⟨defined.get? stored, vectorDefined.getD _ (defined_literal _ _ _)⟩
  · cases found

theorem Defined.transposeMulVec? (defined : matrix.Defined) (vectorDefined : vector.Defined)
    {product : Vec Checked} (found : matrix.transposeMulVec? vector = some product) :
    product.Defined := by
  unfold SparseMatrix.transposeMulVec? at found
  split at found
  · cases found
    intro entry member
    obtain ⟨column, inside, rfl⟩ := List.mem_map.mp member
    exact StoredColumn.Defined.weightedColumn (defined column inside) vectorDefined
  · cases found

theorem Defined.transposeMulDense? (defined : matrix.Defined) {dense product : DenseMatrix Checked}
    (denseDefined : dense.Defined) (found : matrix.transposeMulDense? dense = some product) :
    product.Defined := by
  unfold SparseMatrix.transposeMulDense? at found
  split at found
  · cases found
    exact DenseMatrix.defined_ofFn fun row _ column _ =>
      (defined.column row).weightedColumn (denseDefined.column column)
  · cases found

theorem Defined.diagonal (defined : matrix.Defined) : Vec.Defined matrix.diagonal := by
  intro entry inside
  obtain ⟨position, -, rfl⟩ := List.mem_map.mp inside
  exact defined.entry position position

theorem Defined.replaceDiagonal? (defined : matrix.Defined) (vectorDefined : vector.Defined)
    (found : matrix.replaceDiagonal? vector = some result) : result.Defined := by
  unfold SparseMatrix.replaceDiagonal? at found
  obtain ⟨changes, combined, found⟩ := Option.bind_eq_some_iff.mp found
  have changesDefined : changes.Defined :=
    vectorDefined.combine? defined.diagonal
      (fun x y first second => defined_sub.mpr ⟨first, second⟩) combined
  have changeDefined (row column : Nat) (change : Checked)
      (changed : (if row = column then nonzero? (changes.getD row 0.0) else none) = some change) :
      change.Defined := by
    split at changed
    · exact defined_nonzero? (changesDefined.getD row (defined_literal _ _ _)) changed
    · cases changed
  split at found
  · cases found
    refine defined_ofFn? fun row _ column _ value written => ?_
    dsimp only at written
    split at written
    · cases written
    · next stored _ => exact defined_nonzero? (defined.get? stored) written
    · next change _ changed =>
        cases written
        exact changeDefined row column _ changed
    · next old change stored changed =>
        refine defined_nonzero? (defined_add.mpr ⟨defined.get? stored, ?_⟩) written
        exact changeDefined row column _ changed
  · cases found

theorem Defined.divide? (defined : matrix.Defined) {rowDivisors columnDivisors : Vec Checked}
    (rows : rowDivisors.Positive) (columns : columnDivisors.Positive)
    (found : matrix.divide? rowDivisors columnDivisors = some result) : result.Defined := by
  unfold SparseMatrix.divide? at found
  split at found
  · next fits =>
      cases found
      refine defined_ofFn? fun row rowInside column columnInside value written => ?_
      obtain ⟨old, stored, written⟩ := Option.bind_eq_some_iff.mp written
      obtain ⟨rowFactor, rowFound, written⟩ := Option.bind_eq_some_iff.mp written
      obtain ⟨scaled, scaledFound, written⟩ := Option.bind_eq_some_iff.mp written
      obtain ⟨columnFactor, columnFound, written⟩ := Option.bind_eq_some_iff.mp written
      have one := defined_literal 10 1 true
      have rowDefined : rowFactor.Defined :=
        defined_nonzero? (one.div_pos (rows.getD (fits.1 ▸ rowInside) 0.0)) rowFound
      have columnDefined : columnFactor.Defined :=
        defined_nonzero? (one.div_pos (columns.getD (fits.2 ▸ columnInside) 0.0)) columnFound
      have scaledDefined : scaled.Defined :=
        defined_nonzero? (defined_mul.mpr ⟨rowDefined, defined.get? stored⟩) scaledFound
      exact defined_nonzero? (defined_mul.mpr ⟨scaledDefined, columnDefined⟩) written
  · cases found

theorem Defined.columnRange (defined : matrix.Defined) (start count : Nat) :
    (matrix.columnRange start count).Defined :=
  defined_ofFn? fun _ _ _ _ _ stored => defined.get? stored

theorem Defined.rowMatrix (defined : matrix.Defined) (position : Nat) :
    (matrix.rowMatrix position).Defined :=
  defined_ofFn? fun _ _ _ _ _ stored => defined.get? stored

end SparseMatrix

/-! ## Matrices in either storage -/

namespace Matrix

/-- All stored entries are numbers. -/
def Defined : Matrix Checked → Prop
  | dense matrix => matrix.Defined
  | sparse matrix => matrix.Defined

variable {left right matrix result : Matrix Checked} {vector product : Vec Checked}

theorem Defined.toDense (defined : matrix.Defined) : matrix.toDense.Defined := by
  cases matrix with
  | dense matrix => exact defined
  | sparse matrix => exact SparseMatrix.Defined.toDense defined

theorem Defined.toSparse (defined : matrix.Defined) : matrix.toSparse.Defined := by
  cases matrix with
  | dense matrix => exact SparseMatrix.defined_ofDense defined
  | sparse matrix => exact defined

theorem Defined.stored (defined : matrix.Defined) (asSparse : Bool) :
    (matrix.stored asSparse).Defined := by
  unfold Matrix.stored
  split
  · exact defined.toSparse
  · exact defined.toDense

theorem Defined.mulVec? (defined : matrix.Defined) (vectorDefined : vector.Defined)
    (found : matrix.mulVec? vector = some product) : product.Defined := by
  cases matrix with
  | dense matrix => exact DenseMatrix.Defined.mulVec? defined vectorDefined found
  | sparse matrix => exact SparseMatrix.Defined.mulVec? defined vectorDefined found

theorem Defined.transposeMulVec? (defined : matrix.Defined) (vectorDefined : vector.Defined)
    (found : matrix.transposeMulVec? vector = some product) : product.Defined := by
  cases matrix with
  | dense matrix => exact DenseMatrix.Defined.transposeMulVec? defined vectorDefined found
  | sparse matrix => exact SparseMatrix.Defined.transposeMulVec? defined vectorDefined found

theorem Defined.transposeMul? (first : left.Defined) (second : right.Defined)
    (found : left.transposeMul? right = some result) : result.Defined := by
  cases left with
  | dense left =>
      cases right with
      | dense right =>
          obtain ⟨product, made, rfl⟩ := Option.map_eq_some_iff.mp found
          exact DenseMatrix.Defined.transposeMul? first second made
      | sparse right =>
          obtain ⟨product, made, rfl⟩ := Option.map_eq_some_iff.mp found
          exact (SparseMatrix.Defined.transposeMulDense? second first made).transpose
  | sparse left =>
      cases right with
      | dense right =>
          obtain ⟨product, made, rfl⟩ := Option.map_eq_some_iff.mp found
          exact SparseMatrix.Defined.transposeMulDense? first second made
      | sparse right =>
          obtain ⟨product, made, rfl⟩ := Option.map_eq_some_iff.mp found
          exact SparseMatrix.Defined.transposeMul? first second made

theorem Defined.diagonal (defined : matrix.Defined) : Vec.Defined matrix.diagonal := by
  cases matrix with
  | dense matrix => exact DenseMatrix.Defined.diagonal defined
  | sparse matrix => exact SparseMatrix.Defined.diagonal defined

theorem Defined.divide? (defined : matrix.Defined) {rowDivisors columnDivisors : Vec Checked}
    (rows : rowDivisors.Positive) (columns : columnDivisors.Positive)
    (found : matrix.divide? rowDivisors columnDivisors = some result) : result.Defined := by
  cases matrix with
  | dense matrix =>
      obtain ⟨divided, made, rfl⟩ := Option.map_eq_some_iff.mp found
      exact DenseMatrix.Defined.divide? defined rows columns made
  | sparse matrix =>
      obtain ⟨divided, made, rfl⟩ := Option.map_eq_some_iff.mp found
      exact SparseMatrix.Defined.divide? defined rows columns made

theorem Defined.replaceDiagonal? (defined : matrix.Defined) (vectorDefined : vector.Defined)
    (found : matrix.replaceDiagonal? vector = some result) : result.Defined := by
  cases matrix with
  | dense matrix =>
      cases found
      exact DenseMatrix.Defined.setDiagonal defined vectorDefined
  | sparse matrix =>
      obtain ⟨replaced, made, rfl⟩ := Option.map_eq_some_iff.mp found
      exact SparseMatrix.Defined.replaceDiagonal? defined vectorDefined made

theorem Defined.columnRange (defined : matrix.Defined) (start count : Nat) :
    (matrix.columnRange start count).Defined := by
  cases matrix with
  | dense matrix => exact DenseMatrix.Defined.columnRange defined start count
  | sparse matrix => exact SparseMatrix.Defined.columnRange defined start count

end Matrix

end DampedLeastSquares
