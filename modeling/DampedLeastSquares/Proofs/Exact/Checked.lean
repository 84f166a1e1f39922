import DampedLeastSquares.Proofs.Exact.Real

/-!
# Exact arithmetic in which nothing is divided by zero

The real numbers and one value that is no number, as scalars. A quotient by zero, a root of a
negative number and a logarithm of no positive one are undefined, and so is whatever is computed
from something undefined. So a result that is a number was computed without any of these, and it
is the one of exact arithmetic.
-/

set_option autoImplicit false

namespace DampedLeastSquares

/-- A real number, or no number. -/
inductive Checked where
  | number (value : ℝ)
  | undefined

namespace Checked

noncomputable section

def each (function : ℝ → Checked) : Checked → Checked
  | number value => function value
  | undefined => undefined

def both (operation : ℝ → ℝ → Checked) : Checked → Checked → Checked
  | number left, number right => operation left right
  | _, _ => undefined

/-- Both are numbers, and these are related. -/
def Compares (relation : ℝ → ℝ → Prop) : Checked → Checked → Prop
  | number left, number right => relation left right
  | _, _ => False

def isNumber : Checked → Bool
  | number _ => true
  | undefined => false

open Classical in
instance : Scalar Checked where
  add := both fun left right => number (left + right)
  sub := both fun left right => number (left - right)
  mul := both fun left right => number (left * right)
  div := both fun left right => if right = 0 then undefined else number (left / right)
  neg := each fun value => number (-value)
  lt := Compares (· < ·)
  le := Compares (· ≤ ·)
  beq left right := decide (Compares (· = ·) left right)
  ofScientific mantissa negative exponent :=
    number (OfScientific.ofScientific mantissa negative exponent)
  decidableLT _ _ := inferInstance
  decidableLE _ _ := inferInstance
  ofNat count := number count
  abs := each fun value => number |value|
  sqrt := each fun value => if value < 0 then undefined else number (Real.sqrt value)
  exp := each fun value => number (Real.exp value)
  logOnePlus := each fun value =>
    if value ≤ -1 then undefined else number (Real.log (1 + value))
  arctan := each fun value => number (Real.arctan value)
  isFinite := isNumber
  isNaN value := !value.isNumber

end

/-- The value is a number. -/
def Defined (value : Checked) : Prop := ∃ x, value = number x

variable {left right value : Checked} {x y : ℝ}

/-! ## Numbers -/

@[simp] theorem defined_number : (number x).Defined := ⟨x, rfl⟩

@[simp] theorem not_defined_undefined : ¬ undefined.Defined := nofun

theorem number_div (nonzero : y ≠ 0) : number x / number y = number (x / y) := if_neg nonzero

theorem number_sqrt (nonneg : 0 ≤ x) : Scalar.sqrt (number x) = number (Real.sqrt x) :=
  if_neg (not_lt.mpr nonneg)

theorem number_logOnePlus (inside : -1 < x) :
    Scalar.logOnePlus (number x) = number (Real.log (1 + x)) :=
  if_neg (not_le.mpr inside)

theorem number_lt_number : number x < number y ↔ x < y := Iff.rfl

@[simp] theorem isNaN_number : Scalar.isNaN (number x) = false := rfl

@[simp] theorem literal_zero :
    @OfScientific.ofScientific Checked Scalar.toOfScientific 0 true 1 = number 0 :=
  congrArg number Exact.literal_zero

@[simp] theorem literal_one :
    @OfScientific.ofScientific Checked Scalar.toOfScientific 10 true 1 = number 1 :=
  congrArg number Exact.literal_one

@[simp] theorem literal_three :
    @OfScientific.ofScientific Checked Scalar.toOfScientific 30 true 1 = number 3 :=
  congrArg number Exact.literal_three

@[simp] theorem literal_six :
    @OfScientific.ofScientific Checked Scalar.toOfScientific 60 true 1 = number 6 :=
  congrArg number Exact.literal_six

/-! ## What is computed from numbers -/

@[simp] theorem defined_literal (mantissa exponent : Nat) (negative : Bool) :
    (@OfScientific.ofScientific Checked Scalar.toOfScientific mantissa negative exponent).Defined :=
  ⟨_, rfl⟩

@[simp] theorem defined_ofNat (count : Nat) : (Scalar.ofNat count : Checked).Defined := ⟨_, rfl⟩

theorem defined_each {function : ℝ → Checked} (total : ∀ x, (function x).Defined) :
    (each function value).Defined ↔ value.Defined := by
  cases value <;> simp [each, total]

theorem defined_both {operation : ℝ → ℝ → Checked} (total : ∀ x y, (operation x y).Defined) :
    (both operation left right).Defined ↔ left.Defined ∧ right.Defined := by
  cases left <;> cases right <;> simp [both, total]

@[simp] theorem defined_add : (left + right).Defined ↔ left.Defined ∧ right.Defined :=
  defined_both fun _ _ => defined_number

@[simp] theorem defined_sub : (left - right).Defined ↔ left.Defined ∧ right.Defined :=
  defined_both fun _ _ => defined_number

@[simp] theorem defined_mul : (left * right).Defined ↔ left.Defined ∧ right.Defined :=
  defined_both fun _ _ => defined_number

@[simp] theorem defined_neg : (-value).Defined ↔ value.Defined :=
  defined_each fun _ => defined_number

@[simp] theorem defined_abs : (Scalar.abs value).Defined ↔ value.Defined :=
  defined_each fun _ => defined_number

@[simp] theorem isFinite_iff : Scalar.isFinite value = true ↔ value.Defined := by
  cases value with
  | number x => exact ⟨fun _ => defined_number, fun _ => rfl⟩
  | undefined => exact ⟨nofun, nofun⟩

open Classical in
theorem beq_zero_iff : (value == 0.0) = true ↔ value = number 0 := by
  change decide (Compares (· = ·) value 0.0) = true ↔ _
  rw [decide_eq_true_iff, literal_zero]
  cases value <;> simp [Compares]

theorem pos_iff : 0.0 < value ↔ ∃ x, 0 < x ∧ value = number x := by
  rw [literal_zero]
  cases value with
  | number x => simp [number_lt_number]
  | undefined => exact ⟨nofun, nofun⟩

theorem defined_of_pos (positive : 0.0 < value) : value.Defined := by
  obtain ⟨x, -, rfl⟩ := pos_iff.mp positive
  exact defined_number

/-- Only numbers compare. -/
theorem defined_of_lt (below : left < right) : left.Defined ∧ right.Defined := by
  cases left with
  | undefined => exact below.elim
  | number x =>
      cases right with
      | undefined => exact below.elim
      | number y => exact ⟨defined_number, defined_number⟩

/-- A quotient is a number exactly when both sides are and the divisor is not zero. -/
theorem defined_div :
    (left / right).Defined ↔ left.Defined ∧ right.Defined ∧ ¬ (right == 0.0) = true := by
  rw [beq_zero_iff]
  cases left with
  | undefined => exact ⟨nofun, nofun⟩
  | number x =>
      cases right with
      | undefined => exact ⟨nofun, nofun⟩
      | number y =>
          by_cases zero : y = 0
          · subst zero
            simp [show number x / number 0 = undefined from if_pos rfl]
          · simp [number_div zero, zero]

theorem not_zero_of_pos (positive : 0.0 < value) : ¬ (value == 0.0) = true := by
  rw [beq_zero_iff]
  obtain ⟨x, above, rfl⟩ := pos_iff.mp positive
  intro zero
  cases zero
  exact lt_irrefl 0 above

theorem Defined.div_pos (defined : left.Defined) (positive : 0.0 < right) :
    (left / right).Defined :=
  defined_div.mpr ⟨defined, defined_of_pos positive, not_zero_of_pos positive⟩

theorem pos_sqrt (positive : 0.0 < value) : 0.0 < Scalar.sqrt value := by
  obtain ⟨x, above, rfl⟩ := pos_iff.mp positive
  rw [number_sqrt above.le]
  exact pos_iff.mpr ⟨_, Real.sqrt_pos.mpr above, rfl⟩

theorem defined_square : (Scalar.square value).Defined ↔ value.Defined := by
  simp [Scalar.square]

theorem Defined.one_add_square (defined : value.Defined) :
    0.0 < 1.0 + Scalar.square value := by
  obtain ⟨x, rfl⟩ := defined
  refine pos_iff.mpr ⟨1 + x * x, add_pos_of_pos_of_nonneg one_pos (mul_self_nonneg x), ?_⟩
  rw [literal_one]
  rfl

theorem Defined.logOnePlus_square (defined : value.Defined) :
    (Scalar.logOnePlus (Scalar.square value)).Defined := by
  obtain ⟨x, rfl⟩ := defined
  have inside : -1 < x * x := by nlinarith [mul_self_nonneg x]
  exact ⟨_, number_logOnePlus inside⟩

theorem Defined.sqrt_abs (defined : value.Defined) :
    (Scalar.sqrt (Scalar.abs value)).Defined := by
  obtain ⟨x, rfl⟩ := defined
  exact ⟨_, number_sqrt (abs_nonneg x)⟩

theorem number_larger : Scalar.larger (number x) (number y) = number (max x y) := by
  simp only [Scalar.larger, isNaN_number, Bool.false_eq_true, if_false, number_lt_number, max_def]
  split <;> split <;> first | rfl | (congr 1; linarith)

theorem number_smaller : Scalar.smaller (number x) (number y) = number (min x y) := by
  simp only [Scalar.smaller, isNaN_number, Bool.false_eq_true, if_false, number_lt_number, min_def]
  split <;> split <;> first | rfl | (congr 1; linarith)

theorem Defined.larger (first : left.Defined) (second : right.Defined) :
    (Scalar.larger left right).Defined := by
  obtain ⟨x, rfl⟩ := first
  obtain ⟨y, rfl⟩ := second
  exact ⟨_, number_larger⟩

theorem number_clamp {low high : ℝ} :
    Scalar.clamp (number low) (number high) (number x) = number (min (max x low) high) := by
  rw [Scalar.clamp, number_larger, number_smaller]

theorem Defined.clamp {low high : Checked} (least : low.Defined) (greatest : high.Defined)
    (defined : value.Defined) : (Scalar.clamp low high value).Defined := by
  obtain ⟨l, rfl⟩ := least
  obtain ⟨h, rfl⟩ := greatest
  obtain ⟨x, rfl⟩ := defined
  exact ⟨_, number_clamp⟩

/-- An interval of positive numbers has only such to move a value to. -/
theorem Defined.clamp_pos {low high : Checked} (defined : value.Defined) (positive : 0.0 < low)
    (interval : low ≤ high) : 0.0 < Scalar.clamp low high value := by
  obtain ⟨l, above, rfl⟩ := pos_iff.mp positive
  obtain ⟨x, rfl⟩ := defined
  cases high with
  | undefined => exact interval.elim
  | number h =>
      have interval : l ≤ h := interval
      rw [number_clamp]
      refine pos_iff.mpr ⟨_, ?_, rfl⟩
      exact lt_min (lt_max_of_lt_right above) (above.trans_le interval)

end Checked

end DampedLeastSquares
