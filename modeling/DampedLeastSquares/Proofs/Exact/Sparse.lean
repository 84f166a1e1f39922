import Mathlib.Algebra.BigOperators.Fin
import DampedLeastSquares.Matrix
import DampedLeastSquares.Proofs.Exact.Arrays

/-!
# Exact sparse matrices

In exact arithmetic it makes no difference which entries are stored: a sum over
the stored entries is the sum over all of them, so each operation gives the same
entries as the dense one.
-/

set_option autoImplicit false

open scoped Matrix

namespace DampedLeastSquares

namespace StoredColumn

variable {height : Nat}

/-- The entry of a column in a row, zero where nothing is stored. -/
def entry (column : StoredColumn ℝ) (row : Nat) : ℝ := (column.lookup row).getD 0

theorem lookup_eq_none {column : StoredColumn ℝ} {row : Nat}
    (absent : ∀ item ∈ column, item.1 ≠ row) : column.lookup row = none := by
  rw [List.lookup_eq_none_iff]
  intro item member
  simpa using fun same => absent item member same.symm

theorem Ordered.tail {α : Type} {item : Nat × α} {column : StoredColumn α}
    (ordered : Ordered height (item :: column)) : Ordered height column :=
  ⟨(List.pairwise_cons.mp ordered.1).2, fun other member => ordered.2 other (.tail _ member)⟩

/-- A sum over the stored entries is a sum over all rows. -/
theorem sum_stored {column : StoredColumn ℝ} (ordered : Ordered height column)
    (value : Nat → ℝ → ℝ) :
    (column.map fun item => value item.1 item.2).sum =
      ∑ row ∈ Finset.range height, ((column.lookup row).map (value row)).getD 0 := by
  induction column with
  | nil => simp
  | cons item column previous =>
      have ascending := (List.pairwise_cons.mp ordered.1).1
      have absent : column.lookup item.1 = none :=
        lookup_eq_none fun other member => (ascending other member).ne'
      have split (row : Nat) : (((item :: column).lookup row).map (value row)).getD 0 =
          (if row = item.1 then value item.1 item.2 else 0) +
            ((column.lookup row).map (value row)).getD 0 := by
        obtain ⟨key, found⟩ := item
        by_cases same : row = key
        · subst same
          simp [absent]
        · simp [List.lookup_cons, beq_false_of_ne same, same]
      rw [List.map_cons, List.sum_cons, previous ordered.tail,
        Finset.sum_congr rfl fun row _ => split row, Finset.sum_add_distrib, Finset.sum_ite_eq',
        if_pos (Finset.mem_range.mpr (ordered.2 item List.mem_cons_self))]

theorem sum_filterMap {β : Type} (items : List β) (value? : β → Option ℝ) :
    (items.filterMap value?).sum = (items.map fun item => (value? item).getD 0).sum := by
  induction items with
  | nil => rfl
  | cons item items previous =>
      cases found : value? item with
      | none => simp [found, previous]
      | some value => simp [found, previous]

theorem getD_nonzero? (value : ℝ) : (SparseMatrix.nonzero? value).getD 0 = value := by
  unfold SparseMatrix.nonzero?
  split
  · next zero =>
      have zero : value = 0 := by simpa using zero
      exact zero.symm
  · rfl

theorem getD_storedDot? {left right : StoredColumn ℝ} (ordered : Ordered height left) :
    (SparseMatrix.storedDot? left right).getD 0 =
      ∑ row ∈ Finset.range height, left.entry row * right.entry row := by
  have products : (SparseMatrix.storedDot? left right).getD 0 =
      (left.filterMap fun item => (right.lookup item.1).map (item.2 * ·)).sum := by
    unfold SparseMatrix.storedDot?
    split
    · next none => rw [none]; rfl
    · rw [getD_nonzero?, Exact.sum_eq]
  rw [products, sum_filterMap, sum_stored ordered fun row value =>
    ((right.lookup row).map (value * ·)).getD 0]
  refine Finset.sum_congr rfl fun row _ => ?_
  unfold entry
  cases left.lookup row <;> cases right.lookup row <;> simp

theorem weightedColumn_eq {column : StoredColumn ℝ} (ordered : Ordered height column)
    (vector : Fin height → ℝ) :
    SparseMatrix.weightedColumn column (List.ofFn vector) =
      ∑ row : Fin height, column.entry row * vector row := by
  rw [SparseMatrix.weightedColumn, Exact.sum_eq,
    sum_stored ordered fun row value => value * (List.ofFn vector).getD row 0.0,
    Finset.sum_range]
  refine Finset.sum_congr rfl fun row _ => ?_
  unfold entry
  cases column.lookup (row : Nat) <;> simp [List.getD]

theorem lookup_ofFn? {α : Type} (item? : Nat → Option α) (row : Nat) :
    (ofFn? height item?).lookup row = if row < height then item? row else none := by
  unfold ofFn?
  induction height with
  | zero => simp
  | succ height previous =>
      have last : ([height].filterMap fun row => (item? row).map (row, ·)).lookup row =
          if row = height then item? row else none := by
        cases found : item? height with
        | none => by_cases same : row = height <;> simp [found, same]
        | some value => by_cases same : row = height <;> simp [found, same]
      rw [List.range_succ, List.filterMap_append, List.lookup_append, previous, last]
      by_cases below : row < height
      · simp [below, below.ne, Nat.lt_succ_of_lt below]
      · by_cases same : row = height
        · simp [same]
        · simp [below, same, show ¬ row < height + 1 by omega]

end StoredColumn

namespace SparseMatrix

variable {n m k : Nat}

/-- The entries of the matrix, stored or not, are those of a matrix of reals. -/
structure Holds (stored : SparseMatrix ℝ) (matrix : RealMatrix m n) : Prop where
  height : stored.height = m
  width : stored.width = n
  entry : ∀ (row : Fin m) (column : Fin n), stored.entry row column = matrix row column

theorem get?_ofFn?_eq {α : Type} (item? : Nat → Nat → Option α) (row column : Nat) :
    (ofFn? m n item?).get? row column =
      if row < m ∧ column < n then item? row column else none := by
  by_cases inside : column < n
  · have found : (ofFn? m n item?).column column = StoredColumn.ofFn? m (item? · column) := by
      simp [ofFn?, SparseMatrix.column, List.getD, inside]
    rw [get?, found, StoredColumn.lookup_ofFn?]
    simp [inside]
  · have nothing : (ofFn? m n item?).column column = [] := by
      simp [ofFn?, SparseMatrix.column, List.getD, inside]
    rw [get?, nothing, if_neg fun both => inside both.2]
    rfl

theorem get?_ofFn? {α : Type} (item? : Nat → Nat → Option α) {row column : Nat}
    (rowInside : row < m) (columnInside : column < n) :
    (ofFn? m n item?).get? row column = item? row column := by
  rw [get?_ofFn?_eq, if_pos ⟨rowInside, columnInside⟩]

theorem holds_ofFn? (item? : Nat → Nat → Option ℝ) :
    (ofFn? m n item?).Holds fun row : Fin m => fun column : Fin n =>
      (item? row column).getD 0 := by
  refine ⟨rfl, by simp, fun row column => ?_⟩
  rw [SparseMatrix.entry, get?_ofFn? _ row.isLt column.isLt, Exact.literal_zero]

theorem Holds.of_entry {stored : SparseMatrix ℝ} {left right : RealMatrix m n}
    (holds : stored.Holds left) (same : ∀ row column, left row column = right row column) :
    stored.Holds right :=
  ⟨holds.height, holds.width, fun row column => (holds.entry row column).trans (same row column)⟩

theorem Holds.toDense {stored : SparseMatrix ℝ} {matrix : RealMatrix m n}
    (holds : stored.Holds matrix) : stored.toDense = DenseMatrix.ofMatrix matrix := by
  unfold SparseMatrix.toDense
  rw [holds.height, holds.width, DenseMatrix.ofFn_eq_ofMatrix]
  congr 1
  funext row column
  exact holds.entry row column

theorem holds_ofDense (matrix : RealMatrix m n) :
    (ofDense (DenseMatrix.ofMatrix matrix)).Holds matrix := by
  unfold ofDense
  rw [DenseMatrix.height_ofMatrix, DenseMatrix.width_ofMatrix]
  refine (holds_ofFn? _).of_entry fun row column => ?_
  rw [DenseMatrix.entry_ofMatrix, StoredColumn.getD_nonzero?]

theorem ordered_column {α : Type} (stored : SparseMatrix α) (position : Nat) :
    StoredColumn.Ordered stored.height (stored.column position) := by
  unfold column
  rw [List.getD_eq_getElem?_getD]
  cases found : stored.columns[position]? with
  | none => exact ⟨.nil, nofun⟩
  | some column => exact stored.ordered column (List.mem_of_getElem? found)

theorem Holds.column_entry {stored : SparseMatrix ℝ} {matrix : RealMatrix m n}
    (holds : stored.Holds matrix) (row : Fin m) (column : Fin n) :
    (stored.column column).entry row = matrix row column := by
  rw [← holds.entry row column, SparseMatrix.entry, Exact.literal_zero]
  rfl

theorem Holds.ordered {stored : SparseMatrix ℝ} {matrix : RealMatrix m n}
    (holds : stored.Holds matrix) (column : Nat) :
    StoredColumn.Ordered m (stored.column column) :=
  holds.height ▸ stored.ordered_column column

theorem Holds.transposeMul? {left right : SparseMatrix ℝ} {first : RealMatrix m n}
    {second : RealMatrix m k} (holds : left.Holds first) (holds' : right.Holds second) :
    ∃ product, left.transposeMul? right = some product ∧ product.Holds (firstᵀ * second) := by
  unfold SparseMatrix.transposeMul?
  rw [if_pos (holds.height.trans holds'.height.symm), holds.width, holds'.width]
  refine ⟨_, rfl, (holds_ofFn? _).of_entry fun row column => ?_⟩
  rw [StoredColumn.getD_storedDot? (holds.ordered row), Finset.sum_range]
  refine Finset.sum_congr rfl fun index _ => ?_
  rw [holds.column_entry, holds'.column_entry]
  rfl

theorem Holds.transposeMulVec? {stored : SparseMatrix ℝ} {matrix : RealMatrix m n}
    (holds : stored.Holds matrix) (vector : Fin m → ℝ) :
    stored.transposeMulVec? (List.ofFn vector) = some (List.ofFn (matrixᵀ *ᵥ vector)) := by
  unfold SparseMatrix.transposeMulVec?
  rw [if_pos (holds.height.trans (List.length_ofFn).symm)]
  congr 1
  apply List.ext_getElem
  · rw [List.length_map, List.length_ofFn]
    exact holds.width
  · intro column inside _
    rw [List.length_map] at inside
    have bound : column < n := holds.width ▸ inside
    have found : stored.columns[column] = stored.column column := by
      simp [SparseMatrix.column, List.getD, inside]
    rw [List.getElem_map, found, StoredColumn.weightedColumn_eq (holds.ordered column),
      List.getElem_ofFn]
    refine Finset.sum_congr rfl fun row _ => ?_
    rw [holds.column_entry row ⟨column, bound⟩]
    rfl

theorem Holds.transposeMulDense? {stored : SparseMatrix ℝ} {matrix : RealMatrix m n}
    (holds : stored.Holds matrix) (right : RealMatrix m k) :
    stored.transposeMulDense? (DenseMatrix.ofMatrix right) =
      some (DenseMatrix.ofMatrix (matrixᵀ * right)) := by
  unfold SparseMatrix.transposeMulDense?
  rw [if_pos (holds.height.trans (DenseMatrix.height_ofMatrix right).symm), holds.width,
    DenseMatrix.width_ofMatrix, DenseMatrix.ofFn_eq_ofMatrix]
  congr 2
  funext row column
  have found : (DenseMatrix.ofMatrix right).column column =
      List.ofFn fun row => right row column := by
    apply List.ext_getElem
    · simp
    · intro index _ _
      simp [DenseMatrix.column, DenseMatrix.ofMatrix, List.getD]
  rw [found, StoredColumn.weightedColumn_eq (holds.ordered row)]
  refine Finset.sum_congr rfl fun index _ => ?_
  rw [holds.column_entry]
  rfl

theorem Holds.mulVec? {stored : SparseMatrix ℝ} {matrix : RealMatrix m n}
    (holds : stored.Holds matrix) (vector : Fin n → ℝ) :
    stored.mulVec? (List.ofFn vector) = some (List.ofFn (matrix *ᵥ vector)) := by
  unfold SparseMatrix.mulVec?
  rw [if_pos (holds.width.trans (List.length_ofFn).symm), holds.height, holds.width]
  congr 1
  apply List.ext_getElem
  · simp
  · intro row inside _
    have bound : row < m := by simpa using inside
    simp only [List.getElem_map, List.getElem_range, List.getElem_ofFn]
    rw [Exact.sum_eq, StoredColumn.sum_filterMap, Exact.sum_range]
    refine Finset.sum_congr rfl fun column _ => ?_
    have value := holds.entry ⟨row, bound⟩ column
    rw [SparseMatrix.entry, Exact.literal_zero] at value
    change _ = matrix ⟨row, bound⟩ column * vector column
    rw [← value]
    cases stored.get? row column <;> simp [List.getD]

theorem Holds.diagonal {stored : SparseMatrix ℝ} {matrix : RealMatrix n n}
    (holds : stored.Holds matrix) :
    stored.diagonal = List.ofFn fun position => matrix position position := by
  unfold SparseMatrix.diagonal
  rw [holds.height, holds.width, Nat.min_self]
  apply List.ext_getElem
  · simp
  · intro position inside _
    have bound : position < n := by simpa using inside
    simpa using holds.entry ⟨position, bound⟩ ⟨position, bound⟩

theorem Holds.replaceDiagonal? {stored : SparseMatrix ℝ} {matrix : RealMatrix n n}
    (holds : stored.Holds matrix) (diagonal : Fin n → ℝ) :
    ∃ changed, stored.replaceDiagonal? (List.ofFn diagonal) = some changed ∧
      changed.Holds fun row column =>
        if row = column then diagonal row else matrix row column := by
  unfold SparseMatrix.replaceDiagonal?
  rw [holds.diagonal, Exact.combine?_ofFn, Option.bind_eq_bind, Option.bind_some,
    List.length_ofFn, if_pos ⟨holds.height, holds.width⟩, holds.height, holds.width]
  refine ⟨_, rfl, (holds_ofFn? _).of_entry fun row column => ?_⟩
  have value := holds.entry row column
  rw [SparseMatrix.entry, Exact.literal_zero] at value
  by_cases same : row = column
  · subst same
    have change : (nonzero? ((List.ofFn fun index => diagonal index - matrix index index).getD
        (row : Nat) 0.0)).getD 0 = diagonal row - matrix row row := by
      rw [StoredColumn.getD_nonzero?]
      simp [List.getD]
    simp only [if_true]
    rw [← value] at change
    cases changed : nonzero? ((List.ofFn fun index => diagonal index - matrix index index).getD
        (row : Nat) 0.0) with
    | none =>
        rw [changed] at change
        cases found : stored.get? row row with
        | none =>
            rw [found] at change
            simpa using change
        | some entry =>
            simp only [found, Option.getD_none, Option.getD_some] at change
            rw [StoredColumn.getD_nonzero?]
            linarith
    | some difference =>
        rw [changed] at change
        cases found : stored.get? row row with
        | none => simpa [found] using change
        | some entry =>
            simp only [found, Option.getD_some] at change
            rw [StoredColumn.getD_nonzero?, change]
            exact add_sub_cancel _ _
  · have apart : (row : Nat) ≠ column := fun equal => same (Fin.ext equal)
    rw [if_neg same, ← value]
    dsimp only
    rw [if_neg apart]
    cases stored.get? row column with
    | none => rfl
    | some value => exact StoredColumn.getD_nonzero? value

/-- A factor that is dropped because it is zero would have made the product zero. -/
theorem getD_scaled (first value second : ℝ) :
    ((nonzero? first).bind fun rowFactor => (nonzero? (rowFactor * value)).bind fun scaled =>
      (nonzero? second).bind fun columnFactor => nonzero? (scaled * columnFactor)).getD 0 =
      first * value * second := by
  unfold nonzero?
  by_cases first = 0 <;> by_cases value = 0 <;> by_cases second = 0 <;> simp [*]

theorem Holds.divide? {stored : SparseMatrix ℝ} {matrix : RealMatrix m n}
    (holds : stored.Holds matrix) (rows : Fin m → ℝ) (columns : Fin n → ℝ) :
    ∃ changed, stored.divide? (List.ofFn rows) (List.ofFn columns) = some changed ∧
      changed.Holds fun row column => matrix row column / rows row / columns column := by
  unfold SparseMatrix.divide?
  rw [List.length_ofFn, List.length_ofFn, if_pos ⟨holds.height, holds.width⟩, holds.height,
    holds.width]
  refine ⟨_, rfl, (holds_ofFn? _).of_entry fun row column => ?_⟩
  have value := holds.entry row column
  rw [SparseMatrix.entry, Exact.literal_zero] at value
  rw [← value]
  cases stored.get? row column with
  | none => simp
  | some entry =>
      simp only [Option.bind_eq_bind, Option.bind_some, Option.getD_some]
      rw [getD_scaled]
      simp [List.getD]
      ring

theorem Holds.append? {left right : SparseMatrix ℝ} {first : RealMatrix m n}
    {second : RealMatrix m k} (holds : left.Holds first) (holds' : right.Holds second) :
    ∃ appended, left.append? right = some appended ∧
      appended.Holds (sideBySide first second) := by
  unfold SparseMatrix.append?
  rw [if_pos (holds.height.trans holds'.height.symm), holds.height, holds.width, holds'.width]
  refine ⟨_, rfl, (holds_ofFn? _).of_entry fun row column => ?_⟩
  induction column using Fin.addCases with
  | left column =>
      rw [sideBySide, Fin.append_left, ← holds.entry row column, SparseMatrix.entry]
      simp
  | right column =>
      rw [sideBySide, Fin.append_right, ← holds'.entry row column, SparseMatrix.entry]
      simp

theorem Holds.columnRange {stored : SparseMatrix ℝ} {matrix : RealMatrix m (n + k)}
    (holds : stored.Holds matrix) :
    (stored.columnRange n k).Holds (matrix.submatrix id (Fin.natAdd n)) := by
  unfold SparseMatrix.columnRange
  rw [holds.height]
  refine (holds_ofFn? _).of_entry fun row column => ?_
  have value := holds.entry row (Fin.natAdd n column)
  rw [SparseMatrix.entry, Exact.literal_zero] at value
  exact value

theorem Holds.columnRange_zero {stored : SparseMatrix ℝ} {matrix : RealMatrix m (n + k)}
    (holds : stored.Holds matrix) :
    (stored.columnRange 0 n).Holds (matrix.submatrix id (Fin.castAdd k)) := by
  unfold SparseMatrix.columnRange
  rw [holds.height]
  refine (holds_ofFn? _).of_entry fun row column => ?_
  have value := holds.entry row (Fin.castAdd k column)
  rw [SparseMatrix.entry, Exact.literal_zero] at value
  rw [Nat.zero_add]
  exact value

end SparseMatrix

end DampedLeastSquares
