import Mathlib
import DampedLeastSquares.Proofs.Exact.Reduction

/-!
# Systems in other units

A system whose matrix was divided by the units of its parameters has the same
solution in these units, and it is solvable under the same condition. Damping
by a share of the diagonal commutes with that.
-/

set_option autoImplicit false

open scoped Matrix

namespace DampedLeastSquares

open Exact NormalMatrix

variable {k l : Nat} {matrix : RealMatrix k k} {units : Fin k → ℝ}

theorem divided_eq_mul (matrix : RealMatrix k k) (units : Fin k → ℝ) :
    divided matrix units =
      RealMatrix.diagonal units⁻¹ * matrix * RealMatrix.diagonal units⁻¹ := by
  unfold RealMatrix.diagonal
  ext row column
  rw [Matrix.mul_diagonal, Matrix.diagonal_mul, divided, Pi.inv_apply, Pi.inv_apply, div_div,
    div_eq_mul_inv, mul_inv]
  ring

theorem dotProduct_div (slope vector : Fin k → ℝ) :
    slope ⬝ᵥ (vector / units) = (slope / units) ⬝ᵥ vector := by
  refine Finset.sum_congr rfl fun index _ => ?_
  rw [Pi.div_apply, Pi.div_apply]
  ring

section Nonzero

variable (nonzero : ∀ index, units index ≠ 0)

include nonzero

theorem divided_mulVec (vector : Fin k → ℝ) :
    divided matrix units *ᵥ (units * vector) = (matrix *ᵥ vector) / units := by
  funext row
  rw [Pi.div_apply, Matrix.mulVec, Matrix.mulVec, dotProduct, dotProduct, Finset.sum_div]
  refine Finset.sum_congr rfl fun column _ => ?_
  rw [divided, Pi.mul_apply]
  field_simp [nonzero row, nonzero column]

theorem div_dotProduct_mul (slope vector : Fin k → ℝ) :
    (slope / units) ⬝ᵥ (units * vector) = slope ⬝ᵥ vector := by
  refine Finset.sum_congr rfl fun index _ => ?_
  rw [Pi.div_apply, Pi.mul_apply]
  field_simp [nonzero index]

theorem divided_quadratic (vector : Fin k → ℝ) :
    (units * vector) ⬝ᵥ divided matrix units *ᵥ (units * vector) =
      vector ⬝ᵥ matrix *ᵥ vector := by
  rw [divided_mulVec nonzero, dotProduct_comm, div_dotProduct_mul nonzero, dotProduct_comm]

theorem mul_div_units (vector : Fin k → ℝ) : units * (vector / units) = vector := by
  funext index
  rw [Pi.mul_apply, Pi.div_apply]
  field_simp [nonzero index]

theorem div_units_eq_zero_iff (vector : Fin k → ℝ) : vector / units = 0 ↔ vector = 0 := by
  refine ⟨fun still => ?_, fun still => ?_⟩
  · rw [← mul_div_units nonzero vector, still, mul_zero]
  · funext index
    rw [still, Pi.div_apply, Pi.zero_apply, zero_div]

theorem divided_posDef_iff (symmetric : matrix.IsSymm) :
    Matrix.PosDef (divided matrix units) ↔ matrix.PosDef := by
  rw [posDef_iff symmetric, posDef_iff (divided_isSymm symmetric units)]
  constructor
  · intro positive vector moves
    rw [← divided_quadratic nonzero]
    refine positive _ fun still => moves ?_
    funext index
    exact (mul_eq_zero.mp (congrFun still index)).resolve_left (nonzero index)
  · intro positive vector moves
    rw [← mul_div_units nonzero vector, divided_quadratic nonzero]
    exact positive _ (mt (div_units_eq_zero_iff nonzero vector).mp moves)

/-- The solution in the units is the solution before, in these units. -/
theorem divided_solution (matrix : RealMatrix k k) (rhs : Fin k → ℝ) :
    -((divided matrix units)⁻¹ *ᵥ (rhs / units)) = units * -(matrix⁻¹ *ᵥ rhs) := by
  have back : (RealMatrix.diagonal units⁻¹)⁻¹ = RealMatrix.diagonal units := by
    unfold RealMatrix.diagonal
    refine Matrix.inv_eq_left_inv ?_
    rw [Matrix.diagonal_mul_diagonal, ← Matrix.diagonal_one]
    congr 1
    funext index
    exact mul_inv_cancel₀ (nonzero index)
  have restored : RealMatrix.diagonal units *ᵥ (rhs / units) = rhs := by
    funext index
    rw [RealMatrix.diagonal, Matrix.mulVec_diagonal, Pi.div_apply, mul_div_cancel₀ _ (nonzero index)]
  rw [divided_eq_mul, Matrix.mul_inv_rev, Matrix.mul_inv_rev, back, ← Matrix.mulVec_mulVec,
    ← Matrix.mulVec_mulVec, restored, mul_neg]
  refine congrArg Neg.neg (funext fun index => ?_)
  exact Matrix.mulVec_diagonal _ _ _

end Nonzero

theorem withDiagonal_divided (entries : Fin k → ℝ) :
    withDiagonal (divided matrix units) (entries / (units * units)) =
      divided (withDiagonal matrix entries) units := by
  funext row column
  unfold divided withDiagonal
  by_cases same : row = column
  · subst same
    rw [if_pos rfl, if_pos rfl, Pi.div_apply, Pi.mul_apply, div_div]
  · rw [if_neg same, if_neg same]

namespace Solver

variable {settings : Settings ℝ}

/-- Without a share of the identity, an entry within its bounds is raised in proportion. -/
theorem dampedEntry_within (marquardt : settings.mixture = 0) {entry : ℝ}
    (nonnegative : 0 ≤ entry) (within : settings.diagonalMin ≤ entry ∧ entry ≤ settings.diagonalMax)
    (damping : ℝ) : dampedEntry settings damping entry = entry * (1 + damping) := by
  have inside := clampedEntry_within nonnegative within
  have raised := dampedEntry_eq settings damping entry
  rw [raise, inside, marquardt] at raised
  linarith

/-- It makes no difference whether a matrix is damped before it is divided, or afterwards. -/
theorem damped_divided (marquardt : settings.mixture = 0)
    (nonnegative : ∀ index, 0 ≤ matrix index index)
    (within : ∀ index, settings.diagonalMin ≤ matrix index index ∧
      matrix index index ≤ settings.diagonalMax)
    (within' : ∀ index, settings.diagonalMin ≤ divided matrix units index index ∧
      divided matrix units index index ≤ settings.diagonalMax) (damping : ℝ) :
    withDiagonal (divided matrix units)
        (fun index => dampedEntry settings damping (divided matrix units index index)) =
      divided (withDiagonal matrix fun index =>
        dampedEntry settings damping (matrix index index)) units := by
  rw [← withDiagonal_divided]
  congr 1
  funext index
  have quotient : divided matrix units index index =
      matrix index index / (units index * units index) := div_div _ _ _
  have nonnegative' : 0 ≤ divided matrix units index index := by
    rw [quotient]
    exact div_nonneg (nonnegative index) (mul_self_nonneg _)
  rw [dampedEntry_within marquardt nonnegative' (within' index), Pi.div_apply, Pi.mul_apply,
    dampedEntry_within marquardt (nonnegative index) (within index), quotient, div_mul_eq_mul_div]

end Solver

end DampedLeastSquares
