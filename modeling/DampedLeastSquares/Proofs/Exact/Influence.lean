import Mathlib
import DampedLeastSquares.Proofs.Exact.Losses

/-!
# How far a residual can pull

The slope of a robust loss is the residual times a weight, which stays below a bound and
shrinks as the residual grows. Whatever is said of a cost follows from its slopes: it starts
at zero, it grows with the size of the residual, and it stays below the integral of the bound.
-/

set_option autoImplicit false

namespace DampedLeastSquares

open Exact

/-- A residual pulls with a weight that is never negative, nor above `steepness`, and with no
more force than `threshold`. Up to the threshold it does pull. -/
structure Tempers (slope : ℝ → ℝ) (steepness threshold : ℝ) : Prop where
  weight : ∀ residual, ∃ weight, slope residual = weight * residual ∧ 0 ≤ weight ∧
    weight ≤ steepness ∧ weight * |residual| ≤ threshold
  odd : ∀ residual, slope (-residual) = -slope residual
  pulls : ∀ residual, 0 < residual → residual < threshold → 0 < slope residual

/-- What a residual costs grows with its size, from nothing at zero, and no faster than its
square. -/
structure Grows (share : ℝ → ℝ) (steepness : ℝ) : Prop where
  zero : share 0 = 0
  monotone : ∀ first second, |first| ≤ |second| → share first ≤ share second
  le_square : ∀ residual, share residual ≤ steepness * (1 / 2 * residual ^ 2)

theorem Grows.nonneg {share : ℝ → ℝ} {steepness : ℝ} (grows : Grows share steepness)
    (residual : ℝ) : 0 ≤ share residual := by
  have least := grows.monotone 0 residual (by rw [abs_zero]; exact abs_nonneg residual)
  rwa [grows.zero] at least

namespace Tempers

variable {slope share : ℝ → ℝ} {steepness threshold : ℝ}

theorem slope_nonneg (tempers : Tempers slope steepness threshold) {residual : ℝ}
    (nonneg : 0 ≤ residual) : 0 ≤ slope residual := by
  obtain ⟨weight, same, light, _⟩ := tempers.weight residual
  rw [same]
  exact mul_nonneg light nonneg

theorem slope_le (tempers : Tempers slope steepness threshold) {residual : ℝ}
    (nonneg : 0 ≤ residual) : slope residual ≤ steepness * residual := by
  obtain ⟨weight, same, _, heavy, _⟩ := tempers.weight residual
  rw [same]
  exact mul_le_mul_of_nonneg_right heavy nonneg

/-- The pull goes in the direction of the residual, if there is any. -/
theorem sign_slope (tempers : Tempers slope steepness threshold) (residual : ℝ) :
    slope residual = 0 ∨ SignType.sign (slope residual) = SignType.sign residual := by
  obtain ⟨weight, same, light, _⟩ := tempers.weight residual
  obtain none | some := light.eq_or_lt
  · left
    rw [same, ← none, zero_mul]
  · right
    rw [same, sign_mul, sign_pos some, one_mul]

theorem abs_slope_le (tempers : Tempers slope steepness threshold) (residual : ℝ) :
    |slope residual| ≤ min (steepness * |residual|) threshold := by
  obtain ⟨weight, same, light, heavy, bounded⟩ := tempers.weight residual
  rw [same, abs_mul, abs_of_nonneg light]
  exact le_min (mul_le_mul_of_nonneg_right heavy (abs_nonneg residual)) bounded

/-! ## From slopes to costs -/

/-- An even function, as its slopes at opposite places cancel. -/
theorem share_neg (tempers : Tempers slope steepness threshold)
    (derivative : ∀ residual, HasDerivAt share (slope residual) residual) (residual : ℝ) :
    share (-residual) = share residual := by
  have level (place : ℝ) : HasDerivAt (fun place => share place - share (-place)) 0 place := by
    have mirrored := (derivative (-place)).scomp place (hasDerivAt_neg place)
    refine ((derivative place).sub mirrored).congr_deriv ?_
    rw [tempers.odd]
    simp
  have constant := is_const_of_deriv_eq_zero (fun place => (level place).differentiableAt)
    (fun place => (level place).deriv) residual 0
  simp only [neg_zero, sub_self] at constant
  linarith

theorem share_abs (tempers : Tempers slope steepness threshold)
    (derivative : ∀ residual, HasDerivAt share (slope residual) residual) (residual : ℝ) :
    share |residual| = share residual := by
  obtain same | opposite := abs_choice residual
  · rw [same]
  · rw [opposite, tempers.share_neg derivative]

/-- Where the slopes are not negative, the function does not fall. -/
theorem monotoneOn_of_slopes {function slope : ℝ → ℝ}
    (derivative : ∀ place, HasDerivAt function (slope place) place)
    (rises : ∀ place, 0 ≤ place → 0 ≤ slope place) : MonotoneOn function (Set.Ici 0) := by
  refine monotoneOn_of_deriv_nonneg (convex_Ici 0)
    (fun place _ => (derivative place).continuousAt.continuousWithinAt)
    (fun place _ => (derivative place).differentiableAt.differentiableWithinAt)
    fun place inside => ?_
  rw [interior_Ici] at inside
  rw [(derivative place).deriv]
  exact rises place (le_of_lt inside)

theorem grows (tempers : Tempers slope steepness threshold)
    (derivative : ∀ residual, HasDerivAt share (slope residual) residual) (zero : share 0 = 0) :
    Grows share steepness where
  zero := zero
  monotone first second smaller := by
    rw [← tempers.share_abs derivative first, ← tempers.share_abs derivative second]
    exact monotoneOn_of_slopes derivative (fun _ => tempers.slope_nonneg) (abs_nonneg first)
      (abs_nonneg second) smaller
  le_square residual := by
    -- what the square exceeds the cost by does not fall either
    have excess (place : ℝ) : HasDerivAt
        (fun place => steepness * (1 / 2 * place ^ 2) - share place)
        (steepness * place - slope place) place := by
      refine ((((hasDerivAt_pow 2 place).const_mul (1 / 2)).const_mul steepness).sub
        (derivative place)).congr_deriv ?_
      push_cast
      ring
    have above := monotoneOn_of_slopes excess
      (fun place nonneg => sub_nonneg.mpr (tempers.slope_le nonneg)) (Set.mem_Ici.mpr le_rfl)
      (Set.mem_Ici.mpr (abs_nonneg residual)) (abs_nonneg residual)
    simp only [zero, tempers.share_abs derivative, sq_abs] at above
    linarith

/-- Up to the threshold the cost grows strictly, so no residual but zero costs nothing. -/
theorem share_eq_zero_iff (tempers : Tempers slope steepness threshold)
    (positive : 0 < threshold)
    (derivative : ∀ residual, HasDerivAt share (slope residual) residual) (zero : share 0 = 0)
    (residual : ℝ) : share residual = 0 ↔ residual = 0 := by
  have climbs : StrictMonoOn share (Set.Icc 0 threshold) := by
    refine strictMonoOn_of_deriv_pos (convex_Icc 0 threshold)
      (fun place _ => (derivative place).continuousAt.continuousWithinAt) fun place inside => ?_
    rw [interior_Icc] at inside
    rw [(derivative place).deriv]
    exact tempers.pulls place inside.1 inside.2
  refine ⟨fun free => ?_, fun nothing => by rw [nothing, zero]⟩
  by_contra nonzero
  have size : 0 < |residual| := abs_pos.mpr nonzero
  have least : 0 < min |residual| threshold := lt_min size positive
  have costs : share 0 < share (min |residual| threshold) :=
    climbs ⟨le_rfl, positive.le⟩ ⟨least.le, min_le_right _ _⟩ least
  have grown := (tempers.grows derivative zero).monotone (min |residual| threshold) residual
    (by rw [abs_of_pos least]; exact min_le_left _ _)
  rw [free] at grown
  rw [zero] at costs
  exact absurd grown (not_le.mpr costs)

end Tempers

/-! ## The robust losses -/

namespace Loss

theorem tempers_huber {threshold : ℝ} (nonneg : 0 ≤ threshold) :
    Tempers (huberSlope threshold) 1 |threshold| := by
  rw [abs_of_nonneg nonneg]
  have inside {residual : ℝ} (within : |residual| ≤ threshold) :
      huberSlope threshold residual = residual := if_pos within
  refine ⟨fun residual => ?_, fun residual => ?_, fun residual positive below => ?_⟩
  · obtain within | beyond := le_or_gt |residual| threshold
    · exact ⟨1, by rw [inside within, one_mul], zero_le_one, le_rfl, by rwa [one_mul]⟩
    · have size : 0 < |residual| := nonneg.trans_lt beyond
      refine ⟨threshold / |residual|, ?_, by positivity, (div_le_one size).mpr beyond.le,
        (div_mul_cancel₀ threshold size.ne').le⟩
      rw [huberSlope_eq nonneg]
      obtain above | below := lt_abs.mp beyond
      · rw [max_eq_left (by linarith), max_eq_right (by linarith),
          abs_of_pos (nonneg.trans_lt above), div_mul_cancel₀ _ (nonneg.trans_lt above).ne']
        ring
      · have negative : residual < 0 := by linarith
        rw [max_eq_right (by linarith), max_eq_left (by linarith), abs_of_neg negative, div_neg,
          neg_mul, div_mul_cancel₀ _ negative.ne]
        ring
  · rw [huberSlope_eq nonneg, huberSlope_eq nonneg, neg_neg]
    ring
  · rwa [inside (abs_le.mpr ⟨by linarith, below.le⟩)]

theorem grows_huber {threshold : ℝ} (nonneg : 0 ≤ threshold) :
    Grows (fun residual => huberCost threshold [residual]) 1 := by
  refine (tempers_huber nonneg).grows (hasDerivAt_huberCost nonneg) ?_
  rw [huberCost_of_le (by rwa [abs_zero])]
  simp

theorem tempers_smoothHuber {threshold : ℝ} (nonzero : threshold ≠ 0) :
    Tempers (smoothHuberSlope threshold) 1 |threshold| := by
  have size : 0 < |threshold| := abs_pos.mpr nonzero
  have root_pos (residual : ℝ) : 0 < √(1 + (residual / threshold) ^ 2) := by positivity
  refine ⟨fun residual => ⟨1 / √(1 + (residual / threshold) ^ 2), ?_, by positivity, ?_, ?_⟩,
    fun residual => ?_, fun residual positive _ => ?_⟩
  · rw [smoothHuberSlope_eq, one_div_mul_eq_div]
  · rw [div_le_one (root_pos residual), Real.one_le_sqrt]
    nlinarith [sq_nonneg (residual / threshold)]
  · have large : |residual / threshold| ≤ √(1 + (residual / threshold) ^ 2) := by
      refine Real.le_sqrt_of_sq_le ?_
      rw [sq_abs]
      linarith
    rw [abs_div, div_le_iff₀ size] at large
    rw [one_div_mul_eq_div, div_le_iff₀ (root_pos residual)]
    linarith
  · rw [smoothHuberSlope_eq, smoothHuberSlope_eq, neg_div, neg_div, neg_sq]
  · rw [smoothHuberSlope_eq]
    exact div_pos positive (root_pos residual)

theorem grows_smoothHuber {threshold : ℝ} (nonzero : threshold ≠ 0) :
    Grows (fun residual => smoothHuberCost threshold [residual]) 1 := by
  refine (tempers_smoothHuber nonzero).grows (hasDerivAt_smoothHuberCost nonzero) ?_
  rw [smoothHuberCost_single]
  simp

theorem tempers_cauchy {threshold : ℝ} (nonzero : threshold ≠ 0) :
    Tempers (cauchySlope threshold) 2 |threshold| := by
  have size : 0 < |threshold| := abs_pos.mpr nonzero
  have positive (residual : ℝ) : 0 < 1 + (residual / threshold) ^ 2 := by positivity
  refine ⟨fun residual => ⟨2 / (1 + (residual / threshold) ^ 2), ?_, by positivity, ?_, ?_⟩,
    fun residual => ?_, fun residual above _ => ?_⟩
  · rw [cauchySlope_eq, div_mul_eq_mul_div]
  · rw [div_le_iff₀ (positive residual)]
    nlinarith [sq_nonneg (residual / threshold)]
  · -- the size is at most the mean of the threshold and the square of the size in its unit
    rw [div_mul_eq_mul_div, div_le_iff₀ (positive residual), div_pow, ← sq_abs residual,
      ← sq_abs threshold]
    have square := sq_nonneg (|threshold| - |residual|)
    field_simp
    nlinarith
  · rw [cauchySlope_eq, cauchySlope_eq, neg_div, neg_sq, mul_neg, neg_div]
  · rw [cauchySlope_eq]
    exact div_pos (by linarith) (positive residual)

theorem grows_cauchy {threshold : ℝ} (nonzero : threshold ≠ 0) :
    Grows (fun residual => cauchyCost threshold [residual]) 2 := by
  refine (tempers_cauchy nonzero).grows (hasDerivAt_cauchyCost nonzero) ?_
  rw [cauchyCost_single]
  simp

theorem tempers_tukey {threshold : ℝ} (positive : 0 < threshold) :
    Tempers (tukeySlope threshold) 1 |threshold| := by
  rw [abs_of_pos positive]
  refine ⟨fun residual => ⟨max (1 - (residual / threshold) ^ 2) 0 ^ 2, ?_, by positivity, ?_, ?_⟩,
    fun residual => ?_, fun residual above below => ?_⟩
  · rw [tukeySlope_eq positive, mul_comm]
  · refine pow_le_one₀ (le_max_right _ _) (max_le ?_ zero_le_one)
    linarith [sq_nonneg (residual / threshold)]
  · obtain within | beyond := le_or_gt |residual| threshold
    · refine (mul_le_of_le_one_left (abs_nonneg residual) ?_).trans within
      refine pow_le_one₀ (le_max_right _ _) (max_le ?_ zero_le_one)
      linarith [sq_nonneg (residual / threshold)]
    · have far := (square_ratio_le_one_iff positive residual).not.mpr beyond.not_ge
      rw [max_eq_right (by linarith), zero_pow two_ne_zero, zero_mul]
      exact positive.le
  · rw [tukeySlope_eq positive, tukeySlope_eq positive, neg_div, neg_sq, neg_mul]
  · have near : (residual / threshold) ^ 2 < 1 := by
      rw [sq_lt_one_iff_abs_lt_one, abs_of_pos (div_pos above positive), div_lt_one positive]
      exact below
    rw [tukeySlope_eq positive, max_eq_left (by linarith)]
    exact mul_pos above (pow_pos (by linarith) 2)

theorem grows_tukey {threshold : ℝ} (positive : 0 < threshold) :
    Grows (fun residual => tukeyCost threshold [residual]) 1 := by
  refine (tempers_tukey positive).grows (hasDerivAt_tukeyCost positive) ?_
  rw [tukeyCost_of_le (by rw [abs_zero]; exact positive.le)]
  simp

end Loss

end DampedLeastSquares
