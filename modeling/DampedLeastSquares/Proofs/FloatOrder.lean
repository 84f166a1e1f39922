import Mathlib.Data.Prod.Lex
import DampedLeastSquares.Scalar

/-!
# The order of machine numbers

Doubles compare by their sign, then by exponent and mantissa. An undefined value
is not comparable with anything, so the order is not total, but no value is less
than itself and comparisons can be chained.
-/

set_option autoImplicit false

namespace DampedLeastSquares.FloatOrder

open Float.Model

/-- The place of an unpacked value among all comparable ones: first the kind of
value from minus to plus infinity, then exponent and mantissa, reversed for
negative values. -/
def place : UnpackedFloat → Option (ℤ ×ₗ ℤ ×ₗ ℤ)
  | .notANumber => none
  | .infinity .negative => some (toLex (-2, toLex (0, 0)))
  | .finite .negative mantissa exponent _ =>
      some (toLex (-1, toLex (-exponent, -(mantissa : ℤ))))
  | .zero _ => some (toLex (0, toLex (0, 0)))
  | .finite .positive mantissa exponent _ =>
      some (toLex (1, toLex (exponent, (mantissa : ℤ))))
  | .infinity .positive => some (toLex (2, toLex (0, 0)))

private theorem compare_then_eq_lt (firstExponent secondExponent : ℤ)
    (firstMantissa secondMantissa : ℕ) :
    (compare firstExponent secondExponent).then (compare firstMantissa secondMantissa) = .lt ↔
      firstExponent < secondExponent ∨
        firstExponent = secondExponent ∧ firstMantissa < secondMantissa := by
  rw [Ordering.then_eq_lt, Int.compare_eq_lt, Int.compare_eq_eq, Nat.compare_eq_lt]

private theorem compare_then_eq_gt (firstExponent secondExponent : ℤ)
    (firstMantissa secondMantissa : ℕ) :
    (compare firstExponent secondExponent).then (compare firstMantissa secondMantissa) = .gt ↔
      secondExponent < firstExponent ∨
        firstExponent = secondExponent ∧ secondMantissa < firstMantissa := by
  rw [Ordering.then_eq_gt, Int.compare_eq_gt, Int.compare_eq_eq, Nat.compare_eq_gt]

/-- One value is less than another exactly if both have a place and the places
are ordered that way. -/
theorem lt_iff_place (first second : UnpackedFloat) :
    first.lt second = true ↔
      ∃ lower ∈ place first, ∃ upper ∈ place second, lower < upper := by
  have signs : compare UnpackedFloat.Sign.negative .negative = .eq ∧
      compare UnpackedFloat.Sign.negative .positive = .lt ∧
      compare UnpackedFloat.Sign.positive .negative = .gt ∧
      compare UnpackedFloat.Sign.positive .positive = .eq := ⟨rfl, rfl, rfl, rfl⟩
  obtain (_ | _) | _ | (_ | _) | ⟨(_ | _), _, _, _⟩ := first <;>
    obtain (_ | _) | _ | (_ | _) | ⟨(_ | _), _, _, _⟩ := second <;>
    dsimp only [UnpackedFloat.lt, UnpackedFloat.compare, place] <;>
    simp [Prod.Lex.toLex_lt_toLex, signs, compare_then_eq_lt, compare_then_eq_gt]

theorem lt_iff_place_unpack (first second : Float) :
    first < second ↔
      ∃ lower ∈ place first.toModel.unpack, ∃ upper ∈ place second.toModel.unpack,
        lower < upper := by
  rw [← lt_iff_place]
  change decide (first.toModel < second.toModel) = true ↔ _
  rw [decide_eq_true_iff]
  rfl

/-- No double is less than itself, and comparisons of doubles can be chained. -/
instance strictOrder : IsStrictOrder Float (· < ·) where
  irrefl value less := by
    obtain ⟨lower, lowerAt, upper, upperAt, ordered⟩ := (lt_iff_place_unpack _ _).mp less
    cases Option.mem_unique lowerAt upperAt
    exact lt_irrefl _ ordered
  trans first second third less more := by
    obtain ⟨lower, lowerAt, middle, middleAt, ordered⟩ := (lt_iff_place_unpack _ _).mp less
    obtain ⟨middle', middleAt', upper, upperAt, ordered'⟩ := (lt_iff_place_unpack _ _).mp more
    cases Option.mem_unique middleAt middleAt'
    exact (lt_iff_place_unpack _ _).mpr ⟨lower, lowerAt, upper, upperAt, ordered.trans ordered'⟩

end DampedLeastSquares.FloatOrder
