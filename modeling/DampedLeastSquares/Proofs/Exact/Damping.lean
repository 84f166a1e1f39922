import DampedLeastSquares.Proofs.Exact.Normal
import DampedLeastSquares.Solver.Step

/-!
# Damped matrices

Overwriting the diagonal of a normal matrix raises it by a diagonal matrix, in
the units of the parameters as in those that the matrix was divided by.
-/

set_option autoImplicit false

open scoped Matrix

/-- The matrix with given entries on its diagonal and zeros elsewhere. -/
abbrev RealMatrix.diagonal {size : Nat} (entries : Fin size → ℝ) : RealMatrix size size :=
  Matrix.diagonal entries

namespace DampedLeastSquares

open Exact

namespace NormalMatrix

variable {k : Nat} {matrix : RealMatrix k k}

theorem withDiagonal_withDiagonal (first second : Fin k → ℝ) :
    withDiagonal (withDiagonal matrix first) second = withDiagonal matrix second := by
  funext row column
  unfold withDiagonal
  split <;> rfl

theorem withDiagonal_self : withDiagonal matrix (fun index => matrix index index) = matrix := by
  funext row column
  unfold withDiagonal
  split
  · next same => rw [same]
  · rfl

theorem reset_layout? (normal : NormalMatrix ℝ) (size : Nat) :
    (normal.reset size).layout? = normal.layout? := by
  cases normal <;> rfl

theorem posDef_single {matrix : RealMatrix 1 1} (entries : Fin 1 → ℝ) (positive : 0 < entries 0) :
    (withDiagonal matrix entries).PosDef := by
  have same : withDiagonal matrix entries = RealMatrix.diagonal entries := by
    unfold RealMatrix.diagonal
    ext row column
    rw [Subsingleton.elim row column, withDiagonal, if_pos rfl, Matrix.diagonal_apply_eq]
  rw [same]
  exact Matrix.PosDef.diagonal fun index => by rwa [Subsingleton.elim index 0]

/-- A matrix whose diagonal was overwritten, in the units before it was divided. -/
theorem scaled_withDiagonal {scaling : Fin k → ℝ} (nonzero : ∀ index, scaling index ≠ 0)
    (entries : Fin k → ℝ) :
    RealMatrix.diagonal scaling * withDiagonal (divided matrix scaling) entries *
        RealMatrix.diagonal scaling =
      matrix + RealMatrix.diagonal scaling *
        RealMatrix.diagonal (fun index => entries index - divided matrix scaling index index) *
          RealMatrix.diagonal scaling := by
  unfold RealMatrix.diagonal
  ext row column
  rw [Matrix.add_apply, Matrix.mul_diagonal, Matrix.diagonal_mul, Matrix.mul_diagonal,
    Matrix.diagonal_mul]
  have first := nonzero row
  have second := nonzero column
  by_cases same : row = column
  · subst same
    rw [Matrix.diagonal_apply_eq]
    simp only [withDiagonal, if_true, divided]
    field_simp
    ring
  · rw [Matrix.diagonal_apply_ne _ same]
    simp only [withDiagonal, if_neg same, divided]
    field_simp
    ring

theorem mulVec_solution {damped : RealMatrix k k} (definite : damped.PosDef) (rhs : Fin k → ℝ) :
    damped *ᵥ -(damped⁻¹ *ᵥ rhs) = -rhs := by
  have invertible := definite.isUnit.invertible
  rw [Matrix.mulVec_neg, Matrix.mulVec_mulVec, Matrix.mul_inv_of_invertible, Matrix.one_mulVec]

/-- The solution of a definite system points against its right-hand side. -/
theorem dotProduct_solution_neg {damped : RealMatrix k k} (definite : damped.PosDef)
    {rhs : Fin k → ℝ} (nonzero : rhs ≠ 0) : rhs ⬝ᵥ -(damped⁻¹ *ᵥ rhs) < 0 := by
  have above := definite.inv.dotProduct_mulVec_pos nonzero
  rw [star_trivial] at above
  rw [dotProduct_neg]
  exact neg_lt_zero.mpr above

/-- The solution of a system in other units, brought back, solves it in the units before. -/
theorem scaled_solution {scaling : Fin k → ℝ} (nonzero : ∀ index, scaling index ≠ 0)
    {damped : RealMatrix k k} (definite : damped.PosDef) (rhs : Fin k → ℝ) :
    (RealMatrix.diagonal scaling * damped * RealMatrix.diagonal scaling) *ᵥ
        (-(damped⁻¹ *ᵥ (rhs / scaling)) / scaling) = -rhs := by
  have back (vector : Fin k → ℝ) : RealMatrix.diagonal scaling *ᵥ (vector / scaling) = vector := by
    funext index
    rw [Matrix.mulVec_diagonal, Pi.div_apply]
    field_simp [nonzero index]
  rw [← Matrix.mulVec_mulVec, ← Matrix.mulVec_mulVec, back, mulVec_solution definite,
    Matrix.mulVec_neg, back]

end NormalMatrix

/-- The bounds that a check asks for. -/
structure Settings.Proper (settings : Settings ℝ) : Prop where
  gradientTolerance : 0 ≤ settings.gradientTolerance
  costTolerance : 0 ≤ settings.costTolerance
  scaling : settings.rescaling = true →
    0 < settings.scalingMin ∧ settings.scalingMin ≤ settings.scalingMax
  mixture : 0 ≤ settings.mixture ∧ settings.mixture ≤ 1
  initialDamping : 0 ≤ settings.initialDamping
  diagonal : settings.diagonalMin ≤ settings.diagonalMax

theorem Settings.proper_of_check {settings : Settings ℝ} (valid : settings.check = .ok ()) :
    Proper settings := by
  obtain ⟨_, descent, valid⟩ := of_bind valid
  unfold DescentSettings.check at descent
  split at descent
  · cases descent
  next tolerances =>
  split at descent
  · cases descent
  next scaling =>
  split at valid
  · cases valid
  next mixture =>
  split at valid
  · cases valid
  next damping =>
  split at valid
  · cases valid
  next diagonal =>
  simp only [literal_zero, literal_one, not_or, not_lt] at *
  refine ⟨tolerances.1, tolerances.2, fun rescaling => ?_, not_not.mp mixture, damping, diagonal⟩
  by_contra improper
  exact scaling ⟨rescaling, improper⟩

theorem Settings.Proper.check {settings : Settings ℝ} (proper : Proper settings) :
    settings.check = .ok () := by
  have descent : settings.toDescentSettings.check = .ok () := by
    unfold DescentSettings.check
    rw [if_neg, if_neg]
    · rw [literal_zero]
      exact fun ⟨rescaling, improper⟩ => improper (proper.scaling rescaling)
    · rw [literal_zero, not_or, not_lt, not_lt]
      exact ⟨proper.gradientTolerance, proper.costTolerance⟩
  unfold Settings.check
  rw [descent, ok_bind, if_neg, if_neg, if_neg]
  · exact not_lt.mpr proper.diagonal
  · rw [literal_zero]
    exact not_lt.mpr proper.initialDamping
  · rw [literal_zero, literal_one]
    exact not_not.mpr proper.mixture

theorem Settings.standard_proper : Proper (Settings.standard : Settings ℝ) where
  gradientTolerance := show (0 : ℝ) ≤ 1.0e-8 by norm_num
  costTolerance := show (0 : ℝ) ≤ 1.0e-12 by norm_num
  scaling := nofun
  mixture := show (0 : ℝ) ≤ 1.0e-4 ∧ (1.0e-4 : ℝ) ≤ 1 by norm_num
  initialDamping := show (0 : ℝ) ≤ 1.0e-3 by norm_num
  diagonal := show (1.0e-6 : ℝ) ≤ 1.0e32 by norm_num

/-- The settings that are used unless others are given pass their own check. -/
theorem Exact.standard_valid : (Settings.standard : Settings ℝ).check = .ok () :=
  Settings.standard_proper.check

namespace Solver

/-- The entry that takes the place of one on the diagonal. -/
noncomputable def clampedEntry (settings : Settings ℝ) (entry : ℝ) : ℝ :=
  min (max |entry| settings.diagonalMin) settings.diagonalMax

/-- How far an entry on the diagonal is moved: into its interval, and up by the damping. -/
noncomputable def raise (settings : Settings ℝ) (damping entry : ℝ) : ℝ :=
  clampedEntry settings entry +
    damping * (settings.mixture + (1 - settings.mixture) * clampedEntry settings entry) - entry

theorem dampedEntry_eq (settings : Settings ℝ) (damping entry : ℝ) :
    dampedEntry settings damping entry - entry = raise settings damping entry := by
  unfold dampedEntry raise clampedEntry
  rw [clamp_eq, literal_one]
  rfl

theorem clampedEntry_within {settings : Settings ℝ} {entry : ℝ} (nonnegative : 0 ≤ entry)
    (within : settings.diagonalMin ≤ entry ∧ entry ≤ settings.diagonalMax) :
    clampedEntry settings entry = entry := by
  rw [clampedEntry, abs_of_nonneg nonnegative, max_eq_left within.1, min_eq_left within.2]

/-- The share of the damping that an entry on the diagonal is raised by. -/
noncomputable def share (settings : Settings ℝ) (entry : ℝ) : ℝ :=
  settings.mixture + (1 - settings.mixture) * clampedEntry settings entry

theorem dampedEntry_eq_add (settings : Settings ℝ) (damping entry : ℝ) :
    dampedEntry settings damping entry =
      clampedEntry settings entry + damping * share settings entry := by
  have raised := dampedEntry_eq settings damping entry
  unfold raise at raised
  unfold share
  linarith

/-- Without damping an entry within its bounds stays as it is. -/
theorem dampedEntry_zero {settings : Settings ℝ} {entry : ℝ} (nonnegative : 0 ≤ entry)
    (within : settings.diagonalMin ≤ entry ∧ entry ≤ settings.diagonalMax) :
    dampedEntry settings 0 entry = entry := by
  rw [dampedEntry_eq_add, clampedEntry_within nonnegative within, zero_mul, add_zero]

/-- An entry that is one within its bounds is raised by the damping itself, whatever the mixture. -/
theorem dampedEntry_of_clampedEntry {settings : Settings ℝ} {entry : ℝ}
    (one : clampedEntry settings entry = 1) (damping : ℝ) :
    dampedEntry settings damping entry = 1 + damping := by
  rw [dampedEntry_eq_add, share, one]
  ring

section Proper

variable {settings : Settings ℝ} (proper : settings.Proper)

include proper

theorem clampedEntry_nonneg (diagonal : 0 ≤ settings.diagonalMin) (entry : ℝ) :
    0 ≤ clampedEntry settings entry :=
  le_min (le_max_of_le_right diagonal) (diagonal.trans proper.diagonal)

theorem mixture_le_share (diagonal : 0 ≤ settings.diagonalMin) (entry : ℝ) :
    settings.mixture ≤ share settings entry := by
  have rest := mul_nonneg (sub_nonneg.mpr proper.mixture.2)
    (clampedEntry_nonneg proper diagonal entry)
  unfold share
  linarith

theorem share_nonneg (diagonal : 0 ≤ settings.diagonalMin) (entry : ℝ) :
    0 ≤ share settings entry :=
  proper.mixture.1.trans (mixture_le_share proper diagonal entry)

theorem clampedEntry_pos (diagonal : 0 < settings.diagonalMin) (entry : ℝ) :
    0 < clampedEntry settings entry :=
  lt_min (lt_max_of_lt_right diagonal) (diagonal.trans_le proper.diagonal)

theorem share_pos (diagonal : 0 < settings.diagonalMin) (entry : ℝ) :
    0 < share settings entry := by
  have clamped := clampedEntry_pos proper diagonal entry
  unfold share
  rcases proper.mixture.1.eq_or_lt with none | some
  · rw [← none]
    linarith
  · linarith [mul_nonneg (sub_nonneg.mpr proper.mixture.2) clamped.le]

theorem dampedEntry_pos (diagonal : 0 < settings.diagonalMin) {damping : ℝ} (damped : 0 ≤ damping)
    (entry : ℝ) : 0 < dampedEntry settings damping entry := by
  rw [dampedEntry_eq_add]
  exact add_pos_of_pos_of_nonneg (clampedEntry_pos proper diagonal entry)
    (mul_nonneg damped (share_nonneg proper diagonal.le entry))

end Proper

/-- Damping raises every entry of its interval that has a share in it. -/
theorem lt_dampedEntry_of_share {settings : Settings ℝ} {damping entry : ℝ}
    (positive : 0 < damping) (shared : 0 < share settings entry) (nonnegative : 0 ≤ entry)
    (within : entry ≤ settings.diagonalMax) : entry < dampedEntry settings damping entry := by
  have stays : entry ≤ clampedEntry settings entry := by
    unfold clampedEntry
    rw [abs_of_nonneg nonnegative]
    exact le_min (le_max_left _ _) within
  rw [dampedEntry_eq_add]
  linarith [mul_pos positive shared]

theorem lt_dampedEntry {settings : Settings ℝ} (proper : settings.Proper)
    {damping entry : ℝ} (positive : 0 < damping) (diagonal : 0 < settings.diagonalMin)
    (nonnegative : 0 ≤ entry) (within : entry ≤ settings.diagonalMax) :
    entry < dampedEntry settings damping entry :=
  lt_dampedEntry_of_share positive (share_pos proper diagonal entry) nonnegative within

end Solver

end DampedLeastSquares
