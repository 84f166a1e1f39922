import Mathlib.Analysis.SpecialFunctions.Trigonometric.Arctan
import DampedLeastSquares.Settings

/-!
# Exact arithmetic

The real numbers as scalars. Every value is finite and none is undefined, so
what the computations return is what their formulas say.
-/

set_option autoImplicit false

namespace DampedLeastSquares

noncomputable instance : Scalar ℝ where
  decidableLT := inferInstance
  decidableLE := inferInstance
  beq left right := decide (left = right)
  ofNat count := count
  abs value := |value|
  sqrt := Real.sqrt
  exp := Real.exp
  logOnePlus value := Real.log (1 + value)
  arctan := Real.arctan
  isFinite _ := true
  isNaN _ := false

namespace Exact

@[simp] theorem literal_zero : @OfScientific.ofScientific ℝ Scalar.toOfScientific 0 true 1 = 0 :=
  show (0.0 : ℝ) = 0 by norm_num

@[simp] theorem literal_one : @OfScientific.ofScientific ℝ Scalar.toOfScientific 10 true 1 = 1 :=
  show (1.0 : ℝ) = 1 by norm_num

@[simp] theorem literal_two : @OfScientific.ofScientific ℝ Scalar.toOfScientific 20 true 1 = 2 :=
  show (2.0 : ℝ) = 2 by norm_num

@[simp] theorem literal_three : @OfScientific.ofScientific ℝ Scalar.toOfScientific 30 true 1 = 3 :=
  show (3.0 : ℝ) = 3 by norm_num

@[simp] theorem literal_four : @OfScientific.ofScientific ℝ Scalar.toOfScientific 40 true 1 = 4 :=
  show (4.0 : ℝ) = 4 by norm_num

@[simp] theorem literal_six : @OfScientific.ofScientific ℝ Scalar.toOfScientific 60 true 1 = 6 :=
  show (6.0 : ℝ) = 6 by norm_num

@[simp] theorem literal_ten : @OfScientific.ofScientific ℝ Scalar.toOfScientific 100 true 1 = 10 :=
  show (10.0 : ℝ) = 10 by norm_num

@[simp] theorem literal_twenty :
    @OfScientific.ofScientific ℝ Scalar.toOfScientific 200 true 1 = 20 :=
  show (20.0 : ℝ) = 20 by norm_num

@[simp] theorem literal_half :
    @OfScientific.ofScientific ℝ Scalar.toOfScientific 5 true 1 = 1 / 2 :=
  show (0.5 : ℝ) = 1 / 2 by norm_num

@[simp] theorem isFinite_eq (value : ℝ) : Scalar.isFinite value = true := rfl

@[simp] theorem beq_iff (left right : ℝ) :
    @BEq.beq ℝ Scalar.toBEq left right = true ↔ left = right := by
  change decide (left = right) = true ↔ _
  rw [decide_eq_true_iff]

theorem larger_eq (left right : ℝ) : Scalar.larger left right = max left right := by
  simp only [Scalar.larger, Scalar.isNaN, Bool.false_eq_true, if_false, max_def]
  split <;> split <;> first | rfl | linarith

theorem smaller_eq (left right : ℝ) : Scalar.smaller left right = min left right := by
  simp only [Scalar.smaller, Scalar.isNaN, Bool.false_eq_true, if_false, min_def]
  split <;> split <;> first | rfl | linarith

/-- Without undefined values, clamping is a minimum of a maximum. -/
theorem clamp_eq (low high value : ℝ) : Scalar.clamp low high value = min (max value low) high := by
  rw [Scalar.clamp, larger_eq, smaller_eq]

end Exact

end DampedLeastSquares
