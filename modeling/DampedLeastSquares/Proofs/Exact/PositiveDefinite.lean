import Mathlib.LinearAlgebra.Matrix.PosDef
import DampedLeastSquares.Proofs.Exact.Arrays

/-!
# Positive definite matrices

A symmetric matrix is positive definite exactly if what is eliminated first is,
and so is what is left. This holds for one row and for a block of rows.
-/

set_option autoImplicit false

open scoped Matrix

namespace DampedLeastSquares.Exact

variable {n m : Nat}

theorem isHermitian_iff_isSymm {matrix : RealMatrix n n} :
    matrix.IsHermitian ↔ matrix.IsSymm := by
  rw [Matrix.IsHermitian, Matrix.conjTranspose_eq_transpose_of_trivial]
  rfl

theorem posDef_iff {matrix : RealMatrix n n} (symmetric : matrix.IsSymm) :
    matrix.PosDef ↔ ∀ vector, vector ≠ 0 → 0 < vector ⬝ᵥ matrix *ᵥ vector := by
  rw [Matrix.posDef_iff_dotProduct_mulVec, isHermitian_iff_isSymm]
  simp only [star_trivial]
  exact ⟨fun positive vector nonzero => positive.2 nonzero,
    fun positive => ⟨symmetric, fun vector nonzero => positive vector nonzero⟩⟩

/-! ## One row -/

/-- What is left of a matrix when its first row and column are eliminated. -/
noncomputable def remainder (matrix : RealMatrix (n + 1) (n + 1)) : RealMatrix n n :=
  fun row column => matrix row.succ column.succ -
    matrix row.succ 0 * matrix 0 column.succ / matrix 0 0

theorem remainder_isSymm {matrix : RealMatrix (n + 1) (n + 1)} (symmetric : matrix.IsSymm) :
    (remainder matrix).IsSymm := by
  refine Matrix.IsSymm.ext fun row column => ?_
  unfold remainder
  rw [symmetric.apply column.succ row.succ, symmetric.apply column.succ 0,
    symmetric.apply 0 row.succ]
  ring

/-- What the first row makes of the other unknowns. -/
noncomputable def carried (matrix : RealMatrix (n + 1) (n + 1)) (rest : Fin n → ℝ) : ℝ :=
  ∑ column : Fin n, matrix 0 column.succ * rest column

theorem mulVec_zero (matrix : RealMatrix (n + 1) (n + 1)) (vector : Fin (n + 1) → ℝ) :
    (matrix *ᵥ vector) 0 = matrix 0 0 * vector 0 + carried matrix (Fin.tail vector) := by
  rw [Matrix.mulVec, dotProduct, Fin.sum_univ_succ]
  rfl

theorem mulVec_succ (matrix : RealMatrix (n + 1) (n + 1))
    (vector : Fin (n + 1) → ℝ) (row : Fin n) :
    (matrix *ᵥ vector) row.succ =
      matrix row.succ 0 * (vector 0 + carried matrix (Fin.tail vector) / matrix 0 0) +
        (remainder matrix *ᵥ Fin.tail vector) row := by
  have parted : (remainder matrix *ᵥ Fin.tail vector) row =
      (∑ column : Fin n, matrix row.succ column.succ * vector column.succ) -
        matrix row.succ 0 / matrix 0 0 * carried matrix (Fin.tail vector) := by
    change ∑ column : Fin n, remainder matrix row column * vector column.succ = _
    rw [carried, Finset.mul_sum, ← Finset.sum_sub_distrib]
    refine Finset.sum_congr rfl fun column _ => ?_
    rw [remainder, Fin.tail]
    ring
  rw [parted, Matrix.mulVec, dotProduct, Fin.sum_univ_succ]
  ring

/-- Completing the square in the first unknown. -/
theorem quadratic_remainder {matrix : RealMatrix (n + 1) (n + 1)} (symmetric : matrix.IsSymm)
    (pivot : matrix 0 0 ≠ 0) (vector : Fin (n + 1) → ℝ) :
    vector ⬝ᵥ matrix *ᵥ vector =
      matrix 0 0 * (vector 0 + carried matrix (Fin.tail vector) / matrix 0 0) ^ 2 +
        Fin.tail vector ⬝ᵥ remainder matrix *ᵥ Fin.tail vector := by
  have shares : ∑ row : Fin n, vector row.succ * (matrix row.succ 0 *
      (vector 0 + carried matrix (Fin.tail vector) / matrix 0 0)) =
      carried matrix (Fin.tail vector) *
        (vector 0 + carried matrix (Fin.tail vector) / matrix 0 0) := by
    rw [carried, Finset.sum_mul]
    refine Finset.sum_congr rfl fun row _ => ?_
    rw [symmetric.apply 0 row.succ, Fin.tail]
    ring
  have rows : vector ⬝ᵥ matrix *ᵥ vector =
      vector 0 * (matrix 0 0 * vector 0 + carried matrix (Fin.tail vector)) +
        (carried matrix (Fin.tail vector) *
            (vector 0 + carried matrix (Fin.tail vector) / matrix 0 0) +
          Fin.tail vector ⬝ᵥ remainder matrix *ᵥ Fin.tail vector) := by
    rw [dotProduct, Fin.sum_univ_succ, mulVec_zero, ← shares, dotProduct,
      ← Finset.sum_add_distrib]
    congr 1
    refine Finset.sum_congr rfl fun row _ => ?_
    rw [mulVec_succ]
    exact mul_add _ _ _
  rw [rows]
  field_simp
  ring

/-- A symmetric matrix is positive definite exactly if its first pivot is positive
and the remainder is positive definite. -/
theorem posDef_iff_remainder {matrix : RealMatrix (n + 1) (n + 1)}
    (symmetric : matrix.IsSymm) :
    matrix.PosDef ↔ 0 < matrix 0 0 ∧ (remainder matrix).PosDef := by
  constructor
  · intro positive
    have pivot : 0 < matrix 0 0 := positive.diag_pos
    refine ⟨pivot, (posDef_iff (remainder_isSymm symmetric)).mpr fun rest nonzero => ?_⟩
    -- the first unknown that makes the square vanish
    have zero : (Fin.cons (-(carried matrix rest / matrix 0 0)) rest : Fin (n + 1) → ℝ) ≠ 0 := by
      intro same
      refine nonzero (funext fun index => ?_)
      simpa using congrFun same index.succ
    have above := (posDef_iff symmetric).mp positive _ zero
    rw [quadratic_remainder symmetric pivot.ne'] at above
    simpa using above
  · intro both
    obtain ⟨pivot, positive⟩ := both
    refine (posDef_iff symmetric).mpr fun vector nonzero => ?_
    rw [quadratic_remainder symmetric pivot.ne']
    by_cases tail : Fin.tail vector = 0
    · have first : vector 0 ≠ 0 := by
        intro zero
        refine nonzero (funext fun index => ?_)
        refine Fin.cases zero (fun index => ?_) index
        exact congrFun tail index
      have square : 0 < matrix 0 0 * vector 0 ^ 2 := by positivity
      simpa [tail, carried] using square
    · have above := (posDef_iff (remainder_isSymm symmetric)).mp positive _ tail
      positivity

/-- A matrix with two rows that are alike but for their order. -/
theorem posDef_pair_iff {diagonal across : ℝ} :
    (!![diagonal, across; across, diagonal] : RealMatrix 2 2).PosDef ↔ |across| < diagonal := by
  have symmetric : (!![diagonal, across; across, diagonal] : RealMatrix 2 2).IsSymm := by
    ext row column
    fin_cases row <;> fin_cases column <;> rfl
  have single {matrix : RealMatrix 1 1} (symmetric : matrix.IsSymm) :
      matrix.PosDef ↔ 0 < matrix 0 0 := by
    rw [posDef_iff_remainder symmetric]
    exact and_iff_left ((posDef_iff (remainder_isSymm symmetric)).mpr fun vector nonzero =>
      (nonzero (Subsingleton.elim _ _)).elim)
  rw [posDef_iff_remainder symmetric, single (remainder_isSymm symmetric)]
  change 0 < diagonal ∧ 0 < diagonal - across * across / diagonal ↔ _
  constructor
  · rintro ⟨positive, rest⟩
    rw [sub_pos, div_lt_iff₀ positive, ← abs_lt_iff_mul_self_lt, abs_of_pos positive] at rest
    exact rest
  · intro less
    have positive := (abs_nonneg across).trans_lt less
    rw [sub_pos, div_lt_iff₀ positive, ← abs_lt_iff_mul_self_lt, abs_of_pos positive]
    exact ⟨positive, less⟩

/-! ## A block of rows -/

/-- Completing the square in a block of unknowns. -/
theorem quadratic_fromBlocks {upper : RealMatrix n n} (positive : upper.PosDef)
    (coupling : RealMatrix n m) (lower : RealMatrix m m) (first : Fin n → ℝ)
    (second : Fin m → ℝ) :
    Sum.elim first second ⬝ᵥ Matrix.fromBlocks upper coupling couplingᵀ lower *ᵥ
        Sum.elim first second =
      (first + (upper⁻¹ * coupling) *ᵥ second) ⬝ᵥ upper *ᵥ
          (first + (upper⁻¹ * coupling) *ᵥ second) +
        second ⬝ᵥ (lower - couplingᵀ * upper⁻¹ * coupling) *ᵥ second := by
  have invertible := positive.isUnit.invertible
  have square := Matrix.schur_complement_eq₁₁ coupling lower first second positive.1
  simpa only [star_trivial, Matrix.conjTranspose_eq_transpose_of_trivial,
    ← Matrix.dotProduct_mulVec] using square

/-- A symmetric matrix in blocks is positive definite exactly if its first block is,
and so is the second one without the first one's share. -/
theorem posDef_fromBlocks_iff {upper : RealMatrix n n} (coupling : RealMatrix n m)
    {lower : RealMatrix m m} (symmetric : lower.IsSymm) :
    (Matrix.fromBlocks upper coupling couplingᵀ lower).PosDef ↔
      upper.PosDef ∧ (lower - couplingᵀ * upper⁻¹ * coupling).PosDef := by
  have hermitian (first : upper.PosDef) : (lower - couplingᵀ * upper⁻¹ * coupling).IsHermitian := by
    have invertible := first.isUnit.invertible
    have share : (couplingᵀ * upper⁻¹ * coupling).IsHermitian := by
      simpa using Matrix.isHermitian_conjTranspose_mul_mul coupling first.inv.1
    exact (isHermitian_iff_isSymm.mpr symmetric).sub share
  constructor
  · intro positive
    have first : upper.PosDef := positive.submatrix Sum.inl_injective
    refine ⟨first, .of_dotProduct_mulVec_pos (hermitian first) fun second nonzero => ?_⟩
    -- the first unknowns that make the square vanish
    have zero : Sum.elim (-((upper⁻¹ * coupling) *ᵥ second)) second ≠ 0 := by
      intro same
      exact nonzero (funext fun index => congrFun same (Sum.inr index))
    have above := positive.dotProduct_mulVec_pos zero
    rw [star_trivial, quadratic_fromBlocks first] at above
    simpa using above
  · intro both
    obtain ⟨first, positive⟩ := both
    have blocks : (Matrix.fromBlocks upper coupling couplingᵀ lower).IsHermitian := by
      have invertible := first.isUnit.invertible
      have found := (Matrix.IsHermitian.fromBlocks₁₁ coupling lower first.1).mpr
        (by simpa using hermitian first)
      simpa using found
    refine .of_dotProduct_mulVec_pos blocks fun vector nonzero => ?_
    rw [star_trivial, ← Sum.elim_comp_inl_inr vector, quadratic_fromBlocks first]
    by_cases second : vector ∘ Sum.inr = 0
    · have rest : vector ∘ Sum.inl ≠ 0 := by
        intro zero
        refine nonzero (funext fun index => ?_)
        cases index with
        | inl index => exact congrFun zero index
        | inr index => exact congrFun second index
      have above := first.dotProduct_mulVec_pos rest
      simpa [second] using above
    · have above := positive.dotProduct_mulVec_pos second
      have square := first.posSemidef.dotProduct_mulVec_nonneg
        (vector ∘ Sum.inl + (upper⁻¹ * coupling) *ᵥ (vector ∘ Sum.inr))
      rw [star_trivial] at above square
      linarith

end DampedLeastSquares.Exact
