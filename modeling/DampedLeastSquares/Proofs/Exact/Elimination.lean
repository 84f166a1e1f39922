import Mathlib.Algebra.BigOperators.Field
import DampedLeastSquares.Proofs.Exact.PositiveDefinite
import DampedLeastSquares.Proofs.Exact.Storage
import DampedLeastSquares.Factor.Positive

/-!
# Exact elimination

Elimination meets positive pivots only exactly if a symmetric matrix is positive
definite, and what it leaves behind solves the system. Both ways of dividing a
pivot between the factors do.
-/

set_option autoImplicit false

open scoped Matrix

namespace DampedLeastSquares

namespace Elimination

open Exact DenseMatrix

variable {n m : Nat} (elimination : Elimination)

@[simp] theorem remove_eq (value entry other : ℝ) :
    elimination.remove value entry other = value - entry * other := by
  cases elimination with
  | evenly => rfl
  | sparsely =>
      rw [remove]
      split
      · next zero =>
          have zero : entry = 0 := by simpa using zero
          simp [zero]
      · rfl

/-- The diagonal entries of the factors multiply to the pivot. -/
theorem diagonals_mul {pivot : ℝ} (positive : 0 < pivot) :
    (elimination.diagonals pivot).1 * (elimination.diagonals pivot).2 = pivot := by
  cases elimination with
  | evenly => exact Real.mul_self_sqrt positive.le
  | sparsely => simp [diagonals]

/-- What a pivot makes of its row and its column in the factors. -/
noncomputable def factorRow (pivot : ℝ) (right below : Fin n → ℝ) : EliminatedRow ℝ where
  lower := (elimination.diagonals pivot).1
  upper := (elimination.diagonals pivot).2
  right := List.ofFn fun column => right column / (elimination.diagonals pivot).1
  below := List.ofFn fun row => below row / (elimination.diagonals pivot).2

theorem complement_ofMatrix {matrix : RealMatrix (n + 1) (n + 1)} {first : EliminatedRow ℝ}
    (positive : 0 < matrix 0 0)
    (first_eq : first = elimination.factorRow (matrix 0 0) (fun column => matrix 0 column.succ)
      fun row => matrix row.succ 0) :
    elimination.complement first.right first.below
      (List.ofFn fun row : Fin n => List.ofFn (matrix row.succ)) =
      (ofMatrix (remainder matrix)).rows := by
  have pivot := elimination.diagonals_mul positive
  subst first_eq
  unfold complement factorRow ofMatrix
  apply List.ext_getElem
  · simp
  · intro row inside _
    apply List.ext_getElem
    · simp
    · intro column columnInside _
      simp only [List.getElem_zipWith, List.getElem_ofFn, List.getElem_tail, remove_eq,
        remainder]
      rw [div_mul_div_comm, mul_comm (elimination.diagonals _).2, pivot]
      rfl

theorem eliminate?_ofMatrix (matrix : RealMatrix (n + 1) (n + 1)) :
    elimination.eliminate? (ofMatrix matrix).rows =
      if 0 < matrix 0 0 then
        (elimination.eliminate? (ofMatrix (remainder matrix)).rows).map
          (elimination.factorRow (matrix 0 0) (fun column => matrix 0 column.succ)
            (fun row => matrix row.succ 0) :: ·)
      else none := by
  have rows : (ofMatrix matrix).rows =
      (matrix 0 0 :: List.ofFn fun column : Fin n => matrix 0 column.succ) ::
        List.ofFn fun row : Fin n => List.ofFn (matrix row.succ) := by
    simp only [ofMatrix, List.ofFn_succ]
  rw [rows, eliminate?, literal_zero]
  split
  · next positive =>
      have first : elimination.factorRow (matrix 0 0) (fun column => matrix 0 column.succ)
            (fun row => matrix row.succ 0) =
          ⟨(elimination.diagonals (matrix 0 0)).1, (elimination.diagonals (matrix 0 0)).2,
            (List.ofFn fun column : Fin n => matrix 0 column.succ).map
              (· / (elimination.diagonals (matrix 0 0)).1),
            (List.ofFn fun row : Fin n => List.ofFn (matrix row.succ)).map
              fun row => row.headD 0 / (elimination.diagonals (matrix 0 0)).2⟩ := by
        unfold factorRow
        rw [List.map_ofFn, List.map_ofFn]
        congr 2
        funext row
        simp [List.ofFn_succ]
      rw [← complement_ofMatrix elimination positive rfl, first]
  · rfl

theorem foldr_remove (entries unknowns : Fin n → ℝ) (start : ℝ) :
    (List.zip (List.ofFn entries) (List.ofFn unknowns)).foldr
        (fun (entry, unknown) value => elimination.remove value entry unknown) start =
      start - ∑ index, entries index * unknowns index := by
  induction n with
  | zero => simp
  | succ n previous =>
      rw [List.ofFn_succ, List.ofFn_succ, List.zip_cons_cons, List.foldr_cons, previous,
        Fin.sum_univ_succ]
      dsimp only
      rw [remove_eq]
      ring

/-- One step down, the solution of the remainder, and one step back. -/
theorem solve_cons {matrix : RealMatrix (n + 1) (n + 1)} {first : EliminatedRow ℝ}
    (positive : 0 < matrix 0 0)
    (first_eq : first = elimination.factorRow (matrix 0 0) (fun column => matrix 0 column.succ)
      fun row => matrix row.succ 0)
    {rows : List (EliminatedRow ℝ)} {rhs : Fin (n + 1) → ℝ} {rest : Fin n → ℝ}
    (solved : elimination.solve rows
      (List.ofFn fun row : Fin n => rhs row.succ - matrix row.succ 0 / matrix 0 0 * rhs 0) =
        List.ofFn rest) :
    elimination.solve (first :: rows) (List.ofFn rhs) =
      List.ofFn (Fin.cons ((rhs 0 - carried matrix rest) / matrix 0 0) rest : Fin (n + 1) → ℝ) := by
  have pivot := elimination.diagonals_mul positive
  have nonzero : (elimination.diagonals (matrix 0 0)).1 ≠ 0 ∧
      (elimination.diagonals (matrix 0 0)).2 ≠ 0 :=
    mul_ne_zero_iff.mp (by rw [pivot]; exact positive.ne')
  have reduced : List.zipWith (fun value entry => elimination.remove value entry
      (rhs 0 / first.lower)) (List.ofFn fun row : Fin n => rhs row.succ) first.below =
      List.ofFn fun row : Fin n => rhs row.succ - matrix row.succ 0 / matrix 0 0 * rhs 0 := by
    subst first_eq
    unfold factorRow
    apply List.ext_getElem
    · simp
    · intro row _ _
      simp only [List.getElem_zipWith, List.getElem_ofFn, remove_eq]
      rw [div_mul_div_comm, mul_comm (elimination.diagonals _).2, pivot]
      ring
  have back : (List.zip first.right (List.ofFn rest)).foldr
      (fun (entry, unknown) value => elimination.remove value entry unknown)
        (rhs 0 / first.lower) / first.upper = (rhs 0 - carried matrix rest) / matrix 0 0 := by
    have shares : ∑ index : Fin n, matrix 0 index.succ / (elimination.diagonals (matrix 0 0)).1 *
        rest index = carried matrix rest / (elimination.diagonals (matrix 0 0)).1 := by
      rw [carried, Finset.sum_div]
      exact Finset.sum_congr rfl fun _ _ => div_mul_eq_mul_div _ _ _
    subst first_eq
    unfold factorRow
    dsimp only
    rw [foldr_remove, shares, ← sub_div, div_div, pivot]
  rw [List.ofFn_succ, solve, reduced, solved]
  dsimp only
  rw [back, List.ofFn_cons]

/-- The factors exist exactly for positive definite matrices, and then they solve. -/
theorem eliminate?_cases {matrix : RealMatrix n n} (symmetric : matrix.IsSymm) :
    (matrix.PosDef ∧ ∃ rows, elimination.eliminate? (ofMatrix matrix).rows = some rows ∧
        rows.length = n ∧ ∀ rhs : Fin n → ℝ, ∃ solution : Fin n → ℝ,
          elimination.solve rows (List.ofFn rhs) = List.ofFn solution ∧
            matrix *ᵥ solution = rhs) ∨
      (¬ matrix.PosDef ∧ elimination.eliminate? (ofMatrix matrix).rows = none) := by
  -- the remainder takes the place of the matrix, one row and column smaller
  induction n with
  | zero =>
      refine .inl ⟨(posDef_iff symmetric).mpr fun vector nonzero =>
        (nonzero (Subsingleton.elim _ _)).elim, [], by simp [ofMatrix, eliminate?], rfl,
        fun rhs => ⟨rhs, by simp [solve], Subsingleton.elim _ _⟩⟩
  | succ n previous =>
      rw [eliminate?_ofMatrix, posDef_iff_remainder symmetric]
      by_cases positive : 0 < matrix 0 0
      · rw [if_pos positive]
        obtain ⟨definite, rows, eliminated, size, solves⟩ | ⟨indefinite, failed⟩ :=
          previous (remainder_isSymm symmetric)
        · rw [eliminated, Option.map_some]
          refine .inl ⟨⟨positive, definite⟩, _, rfl, ?_, fun rhs => ?_⟩
          · rw [List.length_cons, size]
          · obtain ⟨rest, solved, remains⟩ :=
              solves fun row => rhs row.succ - matrix row.succ 0 / matrix 0 0 * rhs 0
            refine ⟨_, elimination.solve_cons positive rfl solved, funext fun row => ?_⟩
            cases row using Fin.cases with
            | zero =>
                rw [mulVec_zero, Fin.cons_zero, Fin.tail_cons]
                field_simp
                ring
            | succ row =>
                rw [mulVec_succ, Fin.cons_zero, Fin.tail_cons, remains]
                field_simp
                ring
        · refine .inr ⟨fun both => indefinite both.2, ?_⟩
          rw [failed, Option.map_none]
      · rw [if_neg positive]
        exact .inr ⟨fun both => positive both.1, rfl⟩

end Elimination

/-- The factors solve every system with the given matrix. -/
structure TriangularFactors.Solves {n : Nat} (factors : TriangularFactors ℝ)
    (matrix : RealMatrix n n) : Prop where
  size : factors.size = n
  solves : ∀ rhs : Fin n → ℝ,
    factors.elimination.solve factors.rows (List.ofFn rhs) = List.ofFn (matrix⁻¹ *ᵥ rhs)

namespace TriangularFactors

variable {n m : Nat} {factors : TriangularFactors ℝ} {matrix : RealMatrix n n}

theorem Solves.solve? (solves : factors.Solves matrix) (rhs : Fin n → ℝ) :
    factors.solve? (List.ofFn rhs) = some (List.ofFn (matrix⁻¹ *ᵥ rhs)) := by
  rw [TriangularFactors.solve?, if_pos (solves.size.trans List.length_ofFn.symm), solves.solves]

theorem Solves.solveColumns? (solves : factors.Solves matrix) (rhs : RealMatrix n m) :
    factors.solveColumns? (DenseMatrix.ofMatrix rhs) =
      some (DenseMatrix.ofMatrix (matrix⁻¹ * rhs)) := by
  have columns : (DenseMatrix.ofMatrix rhs).columns.map
      (factors.elimination.solve factors.rows) =
      List.ofFn fun column => List.ofFn (matrix⁻¹ *ᵥ fun row => rhs row column) := by
    rw [DenseMatrix.columns_ofMatrix, List.map_ofFn]
    congr 1
    funext column
    exact solves.solves _
  rw [TriangularFactors.solveColumns?, DenseMatrix.height_ofMatrix, if_pos solves.size, columns,
    DenseMatrix.ofColumns_ofFn]
  rfl

end TriangularFactors

namespace Exact

variable {n : Nat} {matrix : RealMatrix n n}

theorem factor?_cases (elimination : Elimination) (symmetric : matrix.IsSymm) :
    (matrix.PosDef ∧ ∃ factors, elimination.factor? (DenseMatrix.ofMatrix matrix) = some factors ∧
        factors.Solves matrix) ∨
      (¬ matrix.PosDef ∧ elimination.factor? (DenseMatrix.ofMatrix matrix) = none) := by
  obtain ⟨definite, rows, eliminated, size, solves⟩ | ⟨indefinite, failed⟩ :=
    elimination.eliminate?_cases symmetric
  · refine .inl ⟨definite, ⟨elimination, rows⟩, ?_, size, fun rhs => ?_⟩
    · rw [Elimination.factor?, eliminated, Option.map_some]
    · obtain ⟨solution, solved, remains⟩ := solves rhs
      have invertible := definite.isUnit.invertible
      rw [solved, ← remains, Matrix.mulVec_mulVec, Matrix.inv_mul_of_invertible, Matrix.one_mulVec]
  · refine .inr ⟨indefinite, ?_⟩
    rw [Elimination.factor?, failed, Option.map_none]

theorem dense_positiveFactor?_cases (symmetric : matrix.IsSymm) :
    (matrix.PosDef ∧ ∃ factors, (DenseMatrix.ofMatrix matrix).positiveFactor? = some factors ∧
        factors.Solves matrix) ∨
      (¬ matrix.PosDef ∧ (DenseMatrix.ofMatrix matrix).positiveFactor? = none) := by
  have finite : (DenseMatrix.ofMatrix matrix).allFinite = true := by
    simp [DenseMatrix.allFinite, Vec.allFinite]
  rw [DenseMatrix.positiveFactor?, if_pos finite, DenseMatrix.mirrored_ofMatrix symmetric]
  exact factor?_cases .evenly symmetric

theorem sparse_positiveFactor?_cases {found : SparseMatrix ℝ} (holds : found.Holds matrix)
    (symmetric : matrix.IsSymm) :
    (matrix.PosDef ∧ ∃ factors, found.positiveFactor? = .ok (some factors) ∧
        factors.Solves matrix) ∨
      (¬ matrix.PosDef ∧ found.positiveFactor? = .ok none) := by
  have finite : found.allFinite = true := by simp [SparseMatrix.allFinite]
  have pivots (factors : TriangularFactors ℝ) : factors.finitePivots = true := by
    simp [TriangularFactors.finitePivots]
  rw [SparseMatrix.positiveFactor?, if_pos finite, if_pos (holds.height.trans holds.width.symm),
    holds.toDense]
  obtain ⟨definite, factors, factored, solves⟩ | ⟨indefinite, failed⟩ :=
    factor?_cases .sparsely symmetric
  · refine .inl ⟨definite, factors, ?_, solves⟩
    rw [factored, Option.filter_some, if_pos (pivots factors)]
  · refine .inr ⟨indefinite, ?_⟩
    rw [failed]
    rfl

end Exact

end DampedLeastSquares
