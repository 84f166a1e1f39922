import Mathlib.Data.Matrix.Mul
import Mathlib.LinearAlgebra.Matrix.Symmetric
import DampedLeastSquares.Matrix.Dense
import DampedLeastSquares.Proofs.Exact.Real

/-!
# Exact vectors and dense matrices

Vectors and dense matrices of reals are functions of their positions. Each
operation on them is then the one of linear algebra.
-/

set_option autoImplicit false

open scoped Matrix

/-- A matrix of reals with numbered rows and columns. -/
abbrev RealMatrix (height width : Nat) : Type := Matrix (Fin height) (Fin width) ℝ

namespace DampedLeastSquares

namespace Exact

variable {n m : Nat}

/-! ## Vectors -/

theorem sum_eq (vector : Vec ℝ) : Vec.sum vector = List.sum vector := by
  have folded (start : ℝ) : vector.foldl (· + ·) start = start + List.sum vector := by
    induction vector generalizing start with
    | nil => simp
    | cons first rest previous =>
        rw [List.foldl_cons, previous, List.sum_cons]
        exact add_assoc _ _ _
  have total := folded 0
  rw [zero_add] at total
  rw [Vec.sum, literal_zero]
  exact total

theorem sum_range (value : Nat → ℝ) :
    ((List.range n).map value).sum = ∑ index : Fin n, value index := by
  have values : (List.range n).map value = List.ofFn fun index : Fin n => value index := by
    apply List.ext_getElem <;> simp
  rw [values, List.sum_ofFn]

theorem zipWith_ofFn {α β γ : Type} (operation : α → β → γ) (left : Fin n → α)
    (right : Fin n → β) :
    List.zipWith operation (List.ofFn left) (List.ofFn right) =
      List.ofFn fun index => operation (left index) (right index) := by
  apply List.ext_getElem <;> simp

theorem dot_ofFn (left right : Fin n → ℝ) :
    Vec.dot (List.ofFn left) (List.ofFn right) = left ⬝ᵥ right := by
  rw [Vec.dot, zipWith_ofFn, sum_eq, List.sum_ofFn]
  rfl

theorem dot?_ofFn (left right : Fin n → ℝ) :
    Vec.dot? (List.ofFn left) (List.ofFn right) = some (left ⬝ᵥ right) := by
  simp [Vec.dot?, dot_ofFn]

theorem combine?_ofFn {α β γ : Type} (operation : α → β → γ) (left : Fin n → α)
    (right : Fin n → β) :
    Vec.combine? operation (List.ofFn left) (List.ofFn right) =
      some (List.ofFn fun index => operation (left index) (right index)) := by
  rw [Vec.combine?_of_length_eq operation (by simp), zipWith_ofFn]

theorem fill?_ofFn {α : Type} (value : Fin n → α) :
    Vec.fill? n (List.ofFn value) = some (List.ofFn value) := by
  simpa using Vec.fill?_self (List.ofFn value)

theorem exists_ofFn {α : Type} {vector : List α} (size : vector.length = n) :
    ∃ value : Fin n → α, vector = List.ofFn value := by
  subst size
  exact ⟨vector.get, (List.ofFn_get vector).symm⟩

theorem getD_ofFn (value : Fin n → ℝ) :
    (fun index : Fin n => (List.ofFn value).getD index 0) = value := by
  funext index
  simp

theorem foldl_larger_le (rest : List ℝ) (found bound : ℝ) :
    rest.foldl (fun found entry => Scalar.larger found (Scalar.abs entry)) found ≤ bound ↔
      found ≤ bound ∧ ∀ entry ∈ rest, |entry| ≤ bound := by
  induction rest generalizing found with
  | nil => simp
  | cons first rest previous =>
      rw [List.foldl_cons, previous, larger_eq, max_le_iff, List.forall_mem_cons, and_assoc]
      rfl

/-- The largest magnitude is within a bound exactly if all of them are. -/
theorem maxAbs?_le {vector : Vec ℝ} {largest : ℝ} (found : Vec.maxAbs? vector = some largest)
    (bound : ℝ) : largest ≤ bound ↔ ∀ entry ∈ vector, |entry| ≤ bound := by
  cases vector with
  | nil => cases found
  | cons first rest =>
      cases found
      rw [foldl_larger_le, List.forall_mem_cons]
      rfl

theorem getD_maxAbs?_le (vector : Vec ℝ) {bound : ℝ} (nonneg : 0 ≤ bound) :
    (Vec.maxAbs? vector).getD 0 ≤ bound ↔ ∀ entry ∈ vector, |entry| ≤ bound := by
  cases found : Vec.maxAbs? vector with
  | some largest => exact maxAbs?_le found bound
  | none =>
      cases vector with
      | nil => simpa using nonneg
      | cons first rest => cases found

theorem cutPosition_natCast {length position : Nat} (inside : position ≤ length) :
    cutPosition length position = position := by
  simp [cutPosition, inside]

end Exact

theorem Vec.zeros_eq (length : Nat) :
    (Vec.zeros length : Vec ℝ) = List.ofFn (0 : Fin length → ℝ) := by
  apply List.ext_getElem <;> simp [Vec.zeros]

/-- The columns of two matrices side by side. -/
def sideBySide {n m k : Nat} (left : RealMatrix k n) (right : RealMatrix k m) :
    RealMatrix k (n + m) :=
  fun row => Fin.append (left row) (right row)

/-! ## Dense matrices -/

namespace DenseMatrix

variable {n m k : Nat}

def ofMatrix (matrix : RealMatrix m n) : DenseMatrix ℝ where
  rows := List.ofFn fun row => List.ofFn (matrix row)
  width := n
  rectangular := by
    intro row member
    obtain ⟨index, rfl⟩ := (List.mem_ofFn' _ _).mp member
    simp

@[simp] theorem height_ofMatrix (matrix : RealMatrix m n) : (ofMatrix matrix).height = m := by
  simp [ofMatrix, height]

@[simp] theorem width_ofMatrix (matrix : RealMatrix m n) : (ofMatrix matrix).width = n := rfl

@[simp] theorem entry_ofMatrix (matrix : RealMatrix m n) (row : Fin m) (column : Fin n) :
    (ofMatrix matrix).entry row column = matrix row column := by
  simp [ofMatrix, entry, List.getD]

theorem ofFn_eq_ofMatrix (entry : Nat → Nat → ℝ) :
    ofFn m n entry = ofMatrix fun row : Fin m => fun column : Fin n => entry row column := by
  unfold ofFn ofMatrix
  congr 1
  apply List.ext_getElem
  · simp
  · intro row _ _
    apply List.ext_getElem <;> simp

theorem eq_ofMatrix {matrix : DenseMatrix ℝ} (height : matrix.height = m)
    (width : matrix.width = n) :
    matrix = ofMatrix fun row : Fin m => fun column : Fin n => matrix.entry row column := by
  obtain ⟨rows, width', rectangular⟩ := matrix
  subst height width
  unfold ofMatrix
  congr 1
  apply List.ext_getElem
  · simp [DenseMatrix.height]
  · intro row inside _
    have size := rectangular rows[row] (List.getElem_mem inside)
    apply List.ext_getElem
    · simpa using size
    · intro column columnInside _
      simp [entry, List.getD, inside, columnInside]

theorem ofMatrix_injective {left right : RealMatrix m n} (same : ofMatrix left = ofMatrix right) :
    left = right := by
  ext row column
  rw [← entry_ofMatrix left, same, entry_ofMatrix]

theorem map_ofMatrix (matrix : RealMatrix m n) (function : ℝ → ℝ) :
    (ofMatrix matrix).map function =
      ofMatrix fun row column => function (matrix row column) := by
  unfold map ofMatrix
  congr 1
  rw [List.map_ofFn]
  congr 1
  funext row
  exact List.map_ofFn ..

theorem columns_ofMatrix (matrix : RealMatrix m n) :
    (ofMatrix matrix).columns = List.ofFn fun column => List.ofFn fun row => matrix row column := by
  unfold columns column
  apply List.ext_getElem
  · simp
  · intro column inside _
    have bound : column < n := by simpa using inside
    apply List.ext_getElem
    · simp [ofMatrix]
    · intro row _ _
      simp [ofMatrix, List.getD, bound]

theorem transpose_ofMatrix (matrix : RealMatrix m n) :
    (ofMatrix matrix).transpose = ofMatrix matrixᵀ := by
  unfold transpose
  simp only [columns_ofMatrix, height_ofMatrix]
  rfl

theorem mulVec?_ofMatrix (matrix : RealMatrix m n) (vector : Fin n → ℝ) :
    (ofMatrix matrix).mulVec? (List.ofFn vector) = some (List.ofFn (matrix *ᵥ vector)) := by
  simp only [mulVec?, List.length_ofFn, if_true, ofMatrix, List.map_ofFn]
  congr 2
  funext row
  exact Exact.dot_ofFn _ _

theorem transposeMulVec?_ofMatrix (matrix : RealMatrix m n) (vector : Fin m → ℝ) :
    (ofMatrix matrix).transposeMulVec? (List.ofFn vector) =
      some (List.ofFn (matrixᵀ *ᵥ vector)) := by
  simp only [transposeMulVec?, height_ofMatrix, List.length_ofFn, if_true, columns_ofMatrix,
    List.map_ofFn]
  congr 2
  funext column
  exact Exact.dot_ofFn _ _

theorem transposeMul?_ofMatrix (left : RealMatrix m n) (right : RealMatrix m k) :
    (ofMatrix left).transposeMul? (ofMatrix right) = some (ofMatrix (leftᵀ * right)) := by
  have product : (ofMatrix left).columns.map (fun first =>
      (ofMatrix right).columns.map (Vec.dot first)) =
      List.ofFn fun row => List.ofFn ((leftᵀ * right) row) := by
    simp only [columns_ofMatrix, List.map_ofFn]
    congr 1
    funext row
    simp only [Function.comp_apply]
    congr 1
    funext column
    exact Exact.dot_ofFn _ _
  simp only [transposeMul?, height_ofMatrix, if_true, product, width_ofMatrix]
  rfl

theorem diagonal_ofMatrix (matrix : RealMatrix n n) :
    (ofMatrix matrix).diagonal = List.ofFn fun position => matrix position position := by
  unfold diagonal
  apply List.ext_getElem
  · simp
  · intro position inside _
    have bound : position < n := by simpa using inside
    simpa using entry_ofMatrix matrix ⟨position, bound⟩ ⟨position, bound⟩

theorem cyclicEntry_ofFn {α : Type} (vector : Fin n → α) (position : Fin n) (otherwise : α) :
    cyclicEntry (List.ofFn vector) position otherwise = vector position := by
  simp [cyclicEntry, List.getD, Nat.mod_eq_of_lt position.isLt]

theorem setDiagonal_ofMatrix (matrix : RealMatrix n n) (diagonal : Fin n → ℝ) :
    (ofMatrix matrix).setDiagonal (List.ofFn diagonal) = ofMatrix fun row column =>
      if row = column then diagonal row else matrix row column := by
  simp only [setDiagonal, height_ofMatrix, width_ofMatrix, ofFn_eq_ofMatrix, Fin.val_inj,
    cyclicEntry_ofFn, entry_ofMatrix]

@[simp] theorem commonExtent?_self (extent : Nat) : commonExtent? extent extent = some extent := by
  simp [commonExtent?]

theorem stretchedPosition_self (position : Fin n) :
    stretchedPosition n position = position := by
  unfold stretchedPosition
  split
  · omega
  · rfl

theorem divide?_ofMatrix (matrix : RealMatrix m n) (rows : Fin m → ℝ) (columns : Fin n → ℝ) :
    (ofMatrix matrix).divide? (List.ofFn rows) (List.ofFn columns) =
      some (ofMatrix fun row column => matrix row column / rows row / columns column) := by
  simp only [divide?, height_ofMatrix, width_ofMatrix, List.length_ofFn, commonExtent?_self,
    Option.bind_eq_bind, Option.bind_some, ofFn_eq_ofMatrix, stretchedPosition_self,
    entry_ofMatrix]
  congr 2
  funext row column
  simp [List.getD]

theorem sub?_ofMatrix (left right : RealMatrix m n) :
    (ofMatrix left).sub? (ofMatrix right) = some (ofMatrix (left - right)) := by
  simp only [sub?, height_ofMatrix, width_ofMatrix, and_self, if_true, ofFn_eq_ofMatrix,
    entry_ofMatrix]
  rfl

theorem symmetrized_ofMatrix {matrix : RealMatrix n n} (symmetric : matrix.IsSymm) :
    (ofMatrix matrix).symmetrized = ofMatrix matrix := by
  simp only [symmetrized, height_ofMatrix, width_ofMatrix, ofFn_eq_ofMatrix, entry_ofMatrix]
  congr 1
  funext row column
  rw [symmetric.apply row column, Exact.literal_half]
  ring

theorem mirrored_ofMatrix {matrix : RealMatrix n n} (symmetric : matrix.IsSymm) :
    (ofMatrix matrix).mirrored = ofMatrix matrix := by
  simp only [mirrored, height_ofMatrix, width_ofMatrix, ofFn_eq_ofMatrix, entry_ofMatrix,
    symmetric.apply, ite_self]

theorem columnRange_ofMatrix (matrix : RealMatrix m (n + k)) :
    (ofMatrix matrix).columnRange n k = ofMatrix (matrix.submatrix id (Fin.natAdd n)) := by
  simp only [columnRange, height_ofMatrix, ofFn_eq_ofMatrix]
  congr 1
  funext row column
  exact entry_ofMatrix matrix row (Fin.natAdd n column)

theorem columnRange_zero_ofMatrix (matrix : RealMatrix m (n + k)) :
    (ofMatrix matrix).columnRange 0 n = ofMatrix (matrix.submatrix id (Fin.castAdd k)) := by
  simp only [columnRange, height_ofMatrix, ofFn_eq_ofMatrix, Nat.zero_add]
  congr 1
  funext row column
  exact entry_ofMatrix matrix row (Fin.castAdd k column)

theorem append?_ofMatrix (left : RealMatrix m n) (right : RealMatrix m k) :
    (ofMatrix left).append? (ofMatrix right) = some (ofMatrix (sideBySide left right)) := by
  simp only [append?, height_ofMatrix, width_ofMatrix, if_true, ofFn_eq_ofMatrix]
  congr 2
  funext row column
  induction column using Fin.addCases with
  | left column => simp [sideBySide]
  | right column => simp [sideBySide]

theorem ofColumns_ofFn (columns : Fin n → Fin m → ℝ) :
    ofColumns m (List.ofFn fun column => List.ofFn (columns column)) =
      ofMatrix fun row column => columns column row := by
  simp only [ofColumns, List.length_ofFn, ofFn_eq_ofMatrix]
  congr 1
  funext row column
  simp [List.getD]

end DenseMatrix

end DampedLeastSquares
