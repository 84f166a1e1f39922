import Mathlib
import DampedLeastSquares.Proofs.Exact.Damping
import DampedLeastSquares.Proofs.Exact.Gram

/-!
# Predicted and actual reductions

The model that predicts the cost of a candidate has the damped matrix for its
curvature, so it overestimates how fast the cost rises again. Where residuals
are linear, the cost falls by what the model predicts and by the share of the
damping on top.
-/

set_option autoImplicit false

open scoped Matrix

namespace DampedLeastSquares

open Exact NormalMatrix

variable {k l : Nat}

/-! ## Raised diagonals -/

theorem NormalMatrix.withDiagonal_eq_add (matrix : RealMatrix k k) (entries : Fin k → ℝ) :
    withDiagonal matrix entries =
      matrix + RealMatrix.diagonal fun index => entries index - matrix index index := by
  unfold RealMatrix.diagonal
  ext row column
  rw [Matrix.add_apply]
  by_cases same : row = column
  · subst same
    rw [Matrix.diagonal_apply_eq, withDiagonal, if_pos rfl]
    ring
  · rw [Matrix.diagonal_apply_ne _ same, withDiagonal, if_neg same, add_zero]

theorem NormalMatrix.withDiagonal_raised (matrix : RealMatrix k k) (lower upper : Fin k → ℝ) :
    withDiagonal matrix upper =
      withDiagonal matrix lower + RealMatrix.diagonal fun index => upper index - lower index := by
  rw [← @withDiagonal_withDiagonal k matrix lower upper, withDiagonal_eq_add]
  simp only [withDiagonal, if_true]

/-- A positive definite matrix stays so when its diagonal is raised. -/
theorem posDef_withDiagonal_of_le {matrix : RealMatrix k k} {lower upper : Fin k → ℝ}
    (order : ∀ index, lower index ≤ upper index) (definite : (withDiagonal matrix lower).PosDef) :
    (withDiagonal matrix upper).PosDef := by
  rw [withDiagonal_raised matrix lower]
  refine definite.add_posSemidef (Matrix.PosSemidef.diagonal fun index => ?_)
  exact sub_nonneg.mpr (order index)

theorem quadratic_raised (matrix : RealMatrix k k) (lower upper vector : Fin k → ℝ) :
    vector ⬝ᵥ withDiagonal matrix upper *ᵥ vector = vector ⬝ᵥ withDiagonal matrix lower *ᵥ vector +
      ∑ index, (upper index - lower index) * vector index ^ 2 := by
  rw [withDiagonal_raised matrix lower, Matrix.add_mulVec, dotProduct_add]
  congr 1
  refine Finset.sum_congr rfl fun index _ => ?_
  rw [RealMatrix.diagonal, Matrix.mulVec_diagonal]
  ring

/-- The quadratic form of a Gram matrix with another diagonal. -/
theorem quadratic_withDiagonal (jacobian : RealMatrix l k) (entries vector : Fin k → ℝ) :
    vector ⬝ᵥ withDiagonal (jacobianᵀ * jacobian) entries *ᵥ vector =
      (jacobian *ᵥ vector) ⬝ᵥ (jacobian *ᵥ vector) +
        ∑ index, (entries index - (jacobianᵀ * jacobian) index index) * vector index ^ 2 := by
  have square : vector ⬝ᵥ (jacobianᵀ * jacobian) *ᵥ vector =
      (jacobian *ᵥ vector) ⬝ᵥ (jacobian *ᵥ vector) := by
    rw [← Matrix.mulVec_mulVec, Matrix.dotProduct_mulVec, Matrix.vecMul_transpose]
  rw [quadratic_raised _ fun index => (jacobianᵀ * jacobian) index index, withDiagonal_self, square]

section Raised

variable {jacobian : RealMatrix l k} {entries : Fin k → ℝ}

theorem quadratic_withDiagonal_pos
    (above : ∀ index, (jacobianᵀ * jacobian) index index < entries index) {vector : Fin k → ℝ}
    (nonzero : vector ≠ 0) :
    0 < vector ⬝ᵥ withDiagonal (jacobianᵀ * jacobian) entries *ᵥ vector := by
  obtain ⟨place, nonzero⟩ := Function.ne_iff.mp nonzero
  have share (index : Fin k) :
      0 ≤ (entries index - (jacobianᵀ * jacobian) index index) * vector index ^ 2 :=
    mul_nonneg (sub_nonneg.mpr (above index).le) (sq_nonneg _)
  have positive : 0 < (entries place - (jacobianᵀ * jacobian) place place) * vector place ^ 2 :=
    mul_pos (sub_pos.mpr (above place)) (sq_pos_of_ne_zero nonzero)
  rw [quadratic_withDiagonal]
  refine add_pos_of_nonneg_of_pos (Finset.sum_nonneg fun row _ => mul_self_nonneg _) ?_
  exact Finset.sum_pos' (fun index _ => share index) ⟨place, Finset.mem_univ _, positive⟩

/-- A Gram matrix is positive definite once every entry on its diagonal is raised. -/
theorem posDef_withDiagonal
    (above : ∀ index, (jacobianᵀ * jacobian) index index < entries index) :
    (withDiagonal (jacobianᵀ * jacobian) entries).PosDef := by
  have symmetric : Matrix.IsSymm (withDiagonal (jacobianᵀ * jacobian) entries) :=
    withDiagonal_isSymm (gram_isSymm jacobian) entries
  exact (posDef_iff symmetric).mpr fun vector nonzero => quadratic_withDiagonal_pos above nonzero

theorem gram_diagonal_nonneg (jacobian : RealMatrix l k) (index : Fin k) :
    0 ≤ (jacobianᵀ * jacobian) index index := by
  rw [Matrix.mul_apply]
  exact Finset.sum_nonneg fun row _ => mul_self_nonneg _

/-- A Gram matrix of any size is dominated by some diagonal. -/
theorem exists_dominating {jacobian : RealMatrix l k} {plain shares : Fin k → ℝ} {least : ℝ}
    (positive : 0 < least) (nonneg : ∀ index, 0 ≤ plain index)
    (above : ∀ index, least ≤ shares index) :
    ∃ damping, 0 ≤ damping ∧ (withDiagonal (jacobianᵀ * jacobian) fun index =>
      plain index + damping * shares index).PosDef := by
  have entries (index : Fin k) : 0 ≤ (jacobianᵀ * jacobian) index index :=
    gram_diagonal_nonneg jacobian index
  have trace : 0 ≤ ∑ index, (jacobianᵀ * jacobian) index index :=
    Finset.sum_nonneg fun index _ => entries index
  have nonnegative : 0 ≤ (∑ index, (jacobianᵀ * jacobian) index index + 1) / least := by positivity
  refine ⟨_, nonnegative, posDef_withDiagonal fun index => ?_⟩
  have single : (jacobianᵀ * jacobian) index index ≤ ∑ index, (jacobianᵀ * jacobian) index index :=
    Finset.single_le_sum (f := fun index => (jacobianᵀ * jacobian) index index)
      (fun index _ => entries index) (Finset.mem_univ index)
  have share := mul_le_mul_of_nonneg_left (above index) nonnegative
  rw [div_mul_cancel₀ _ positive.ne'] at share
  linarith [nonneg index]

/-! ## Along the step -/

variable {residuals : Fin l → ℝ} {damped : RealMatrix k k} {step : Fin k → ℝ}

/-- The model predicts half the curvature along a step that solves its system. -/
theorem predicted_eq (definite : damped.PosDef) {gradient : Fin k → ℝ}
    (step_eq : step = -(damped⁻¹ *ᵥ gradient)) :
    -(gradient ⬝ᵥ step) - 1 / 2 * (step ⬝ᵥ damped *ᵥ step) =
      1 / 2 * (step ⬝ᵥ damped *ᵥ step) := by
  have invertible := definite.isUnit.invertible
  have solves : damped *ᵥ step = -gradient := by
    rw [step_eq, Matrix.mulVec_neg, Matrix.mulVec_mulVec, Matrix.mul_inv_of_invertible,
      Matrix.one_mulVec]
  rw [solves, dotProduct_neg, dotProduct_comm step]
  ring

/-- Half the square of linear residuals one step further. -/
theorem halfSquare_add (jacobian : RealMatrix l k) (residuals : Fin l → ℝ) (step : Fin k → ℝ) :
    1 / 2 * (residuals ⬝ᵥ residuals) -
        1 / 2 * ((residuals + jacobian *ᵥ step) ⬝ᵥ (residuals + jacobian *ᵥ step)) =
      -((jacobianᵀ *ᵥ residuals) ⬝ᵥ step) -
        1 / 2 * ((jacobian *ᵥ step) ⬝ᵥ (jacobian *ᵥ step)) := by
  have slope : (jacobianᵀ *ᵥ residuals) ⬝ᵥ step = residuals ⬝ᵥ (jacobian *ᵥ step) := by
    rw [Matrix.mulVec_transpose, Matrix.dotProduct_mulVec]
  rw [slope, add_dotProduct, dotProduct_add, dotProduct_add, dotProduct_comm (jacobian *ᵥ step)]
  ring

/-- Unless the gradient vanishes, the model predicts a gain, and the gain is at least that. -/
theorem predicted_le_actual
    (raised : ∀ index, (jacobianᵀ * jacobian) index index ≤ entries index)
    (definite : damped.PosDef) (steep : jacobianᵀ *ᵥ residuals ≠ 0)
    (damped_eq : damped = withDiagonal (jacobianᵀ * jacobian) entries)
    (step_eq : step = -(damped⁻¹ *ᵥ (jacobianᵀ *ᵥ residuals))) :
    0 < -((jacobianᵀ *ᵥ residuals) ⬝ᵥ step) - 1 / 2 * (step ⬝ᵥ damped *ᵥ step) ∧
      -((jacobianᵀ *ᵥ residuals) ⬝ᵥ step) - 1 / 2 * (step ⬝ᵥ damped *ᵥ step) ≤
        1 / 2 * (residuals ⬝ᵥ residuals) -
          1 / 2 * ((residuals + jacobian *ᵥ step) ⬝ᵥ (residuals + jacobian *ᵥ step)) := by
  constructor
  · have descends := dotProduct_solution_neg definite steep
    have solves := mulVec_solution definite (jacobianᵀ *ᵥ residuals)
    rw [← step_eq] at descends solves
    rw [solves, dotProduct_neg, dotProduct_comm step]
    linarith
  · have share : 0 ≤ ∑ index, (entries index - (jacobianᵀ * jacobian) index index) *
        step index ^ 2 :=
      Finset.sum_nonneg fun index _ =>
        mul_nonneg (sub_nonneg.mpr (raised index)) (sq_nonneg _)
    rw [halfSquare_add, damped_eq, quadratic_withDiagonal]
    linarith

end Raised

/-! ## Units -/

/-- The Jacobian in the units that parameters are measured in. -/
noncomputable def inUnits (jacobian : RealMatrix l k) (scaling : Fin k → ℝ) : RealMatrix l k :=
  fun row column => jacobian row column / scaling column

theorem divided_gram (jacobian : RealMatrix l k) (scaling : Fin k → ℝ) :
    divided (jacobianᵀ * jacobian) scaling =
      (inUnits jacobian scaling)ᵀ * inUnits jacobian scaling := by
  ext row column
  rw [divided, Matrix.mul_apply, Matrix.mul_apply, Finset.sum_div, Finset.sum_div]
  refine Finset.sum_congr rfl fun index _ => ?_
  rw [Matrix.transpose_apply, Matrix.transpose_apply, inUnits, inUnits]
  ring

theorem inUnits_transpose_mulVec (jacobian : RealMatrix l k) (scaling : Fin k → ℝ)
    (slopes : Fin l → ℝ) :
    (inUnits jacobian scaling)ᵀ *ᵥ slopes = (jacobianᵀ *ᵥ slopes) / scaling := by
  funext index
  rw [Pi.div_apply, Matrix.mulVec, Matrix.mulVec, dotProduct, dotProduct, Finset.sum_div]
  refine Finset.sum_congr rfl fun row _ => ?_
  rw [Matrix.transpose_apply, Matrix.transpose_apply, inUnits]
  ring

theorem inUnits_mulVec (jacobian : RealMatrix l k) (scaling step : Fin k → ℝ) :
    inUnits jacobian scaling *ᵥ step = jacobian *ᵥ (step / scaling) := by
  funext row
  rw [Matrix.mulVec, Matrix.mulVec, dotProduct, dotProduct]
  refine Finset.sum_congr rfl fun column _ => ?_
  rw [inUnits, Pi.div_apply]
  ring

end DampedLeastSquares
