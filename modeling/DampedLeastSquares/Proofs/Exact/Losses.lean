import Mathlib
import DampedLeastSquares.Loss
import DampedLeastSquares.Proofs.Exact.Arrays
import DampedLeastSquares.Proofs.Start

/-!
# Losses and their slopes

A static loss costs residuals one by one, and the slopes it gives them are the
derivatives of these costs. Losses that change their formula at a threshold are
differentiable there as well, as both formulas meet in value and slope.
-/

set_option autoImplicit false

open scoped Matrix

namespace DampedLeastSquares

open Exact

variable {σ : Type} {l : Nat}

/-! ## Powers of the positive part -/

/-- From the square on, powers of the positive part are differentiable at zero too. -/
theorem hasDerivAt_positivePart_pow (degree : ℕ) (value : ℝ) :
    HasDerivAt (fun value : ℝ => max value 0 ^ (degree + 2))
      ((degree + 2 : ℕ) * max value 0 ^ (degree + 1)) value := by
  have away (value : ℝ) (nonzero : value ≠ 0) :
      HasDerivAt (fun value : ℝ => max value 0 ^ (degree + 2))
        ((degree + 2 : ℕ) * max value 0 ^ (degree + 1)) value := by
    obtain negative | positive := lt_or_gt_of_ne nonzero
    · have level : (fun value : ℝ => max value 0 ^ (degree + 2)) =ᶠ[nhds value] fun _ => 0 := by
        filter_upwards [Iio_mem_nhds negative] with near below
        rw [max_eq_right (le_of_lt below), zero_pow (by omega)]
      rw [max_eq_right negative.le, zero_pow (by omega), mul_zero]
      exact (hasDerivAt_const value 0).congr_of_eventuallyEq level
    · have plain : (fun value : ℝ => max value 0 ^ (degree + 2)) =ᶠ[nhds value]
          fun value => value ^ (degree + 2) := by
        filter_upwards [Ioi_mem_nhds positive] with near above
        rw [max_eq_left (le_of_lt above)]
      rw [max_eq_left positive.le]
      exact (hasDerivAt_pow (degree + 2) value).congr_of_eventuallyEq plain
  by_cases nonzero : value = 0
  · subst nonzero
    exact hasDerivAt_of_hasDerivAt_of_ne away (by fun_prop) (by fun_prop)
  · exact away value nonzero

namespace Loss

/-! ## One residual -/

theorem huberCost_of_le {threshold residual : ℝ} (inside : |residual| ≤ threshold) :
    huberCost threshold [residual] = 1 / 2 * residual ^ 2 := by
  have size : Scalar.abs residual = |residual| := rfl
  simp [huberCost, sum_eq, size, inside, Scalar.square, sq]

theorem huberCost_of_lt {threshold residual : ℝ} (outside : threshold < |residual|) :
    huberCost threshold [residual] = threshold * (|residual| - 1 / 2 * threshold) := by
  have size : Scalar.abs residual = |residual| := rfl
  simp [huberCost, sum_eq, size, not_le.mpr outside]

/-- The square, less what the residual exceeds the threshold by on either side. -/
theorem huberCost_single {threshold : ℝ} (nonneg : 0 ≤ threshold) (residual : ℝ) :
    huberCost threshold [residual] = 1 / 2 * residual ^ 2 -
      1 / 2 * (max (residual - threshold) 0 ^ 2 + max (-residual - threshold) 0 ^ 2) := by
  obtain inside | outside := le_or_gt |residual| threshold
  · obtain ⟨lower, upper⟩ := abs_le.mp inside
    rw [huberCost_of_le inside, max_eq_right (by linarith), max_eq_right (by linarith)]
    ring
  · rw [huberCost_of_lt outside]
    obtain above | below := lt_abs.mp outside
    · rw [max_eq_left (by linarith), max_eq_right (by linarith), abs_of_pos (by linarith)]
      ring
    · rw [max_eq_right (by linarith), max_eq_left (by linarith), abs_of_neg (by linarith)]
      ring

theorem huberSlope_eq {threshold : ℝ} (nonneg : 0 ≤ threshold) (residual : ℝ) :
    huberSlope threshold residual =
      residual - (max (residual - threshold) 0 - max (-residual - threshold) 0) := by
  unfold huberSlope
  split
  · next inside =>
      obtain ⟨lower, upper⟩ := abs_le.mp inside
      rw [max_eq_right (by linarith), max_eq_right (by linarith)]
      ring
  · next outside =>
      unfold Scalar.sign
      obtain above | below := lt_abs.mp (not_le.mp outside)
      · rw [max_eq_left (by linarith), max_eq_right (by linarith), literal_zero,
          if_pos (nonneg.trans_lt above), literal_one]
        ring
      · rw [max_eq_right (by linarith), max_eq_left (by linarith), literal_zero,
          if_neg (by linarith), if_pos (by linarith), literal_one]
        ring

theorem hasDerivAt_huberCost {threshold : ℝ} (nonneg : 0 ≤ threshold) (residual : ℝ) :
    HasDerivAt (fun residual => huberCost threshold [residual]) (huberSlope threshold residual)
      residual := by
  have above := (hasDerivAt_positivePart_pow 0 (residual - threshold)).comp residual
    ((hasDerivAt_id residual).sub_const threshold)
  have below := (hasDerivAt_positivePart_pow 0 (-residual - threshold)).comp residual
    ((hasDerivAt_id residual).neg.sub_const threshold)
  have square := (hasDerivAt_pow 2 residual).const_mul (1 / 2)
  rw [funext (huberCost_single nonneg), huberSlope_eq nonneg]
  refine (square.sub ((above.add below).const_mul (1 / 2))).congr_deriv ?_
  push_cast
  ring

theorem hasDerivAt_square_ratio (threshold residual : ℝ) :
    HasDerivAt (fun residual => 1 + (residual / threshold) ^ 2)
      (2 * (residual / threshold) * (1 / threshold)) residual := by
  refine ((((hasDerivAt_id residual).div_const threshold).pow 2).const_add 1).congr_deriv ?_
  simp

theorem smoothHuberCost_single (threshold residual : ℝ) :
    smoothHuberCost threshold [residual] =
      threshold * threshold * (√(1 + (residual / threshold) ^ 2) - 1) := by
  simp only [smoothHuberCost, sum_eq, List.map_cons, List.map_nil, List.sum_cons, List.sum_nil,
    add_zero, literal_one, Scalar.square, ← sq]
  rfl

theorem smoothHuberSlope_eq (threshold residual : ℝ) :
    smoothHuberSlope threshold residual = residual / √(1 + (residual / threshold) ^ 2) := by
  rw [smoothHuberSlope, Scalar.square, literal_one, ← sq]
  rfl

theorem hasDerivAt_smoothHuberCost {threshold : ℝ} (nonzero : threshold ≠ 0) (residual : ℝ) :
    HasDerivAt (fun residual => smoothHuberCost threshold [residual])
      (smoothHuberSlope threshold residual) residual := by
  have positive : 0 < 1 + (residual / threshold) ^ 2 := by positivity
  have root := ((hasDerivAt_square_ratio threshold residual).sqrt positive.ne').sub_const 1
  rw [funext (smoothHuberCost_single threshold), smoothHuberSlope_eq]
  refine (root.const_mul (threshold * threshold)).congr_deriv ?_
  have root_ne : √(1 + (residual / threshold) ^ 2) ≠ 0 := (Real.sqrt_pos.mpr positive).ne'
  field_simp

theorem cauchyCost_single (threshold residual : ℝ) :
    cauchyCost threshold [residual] =
      threshold * threshold * Real.log (1 + (residual / threshold) ^ 2) := by
  simp only [cauchyCost, sum_eq, List.map_cons, List.map_nil, List.sum_cons, List.sum_nil,
    add_zero, Scalar.square, ← sq]
  rfl

theorem cauchySlope_eq (threshold residual : ℝ) :
    cauchySlope threshold residual = 2 * residual / (1 + (residual / threshold) ^ 2) := by
  rw [cauchySlope, Scalar.square, literal_one, literal_two, ← sq]

theorem hasDerivAt_cauchyCost {threshold : ℝ} (nonzero : threshold ≠ 0) (residual : ℝ) :
    HasDerivAt (fun residual => cauchyCost threshold [residual]) (cauchySlope threshold residual)
      residual := by
  have positive : 0 < 1 + (residual / threshold) ^ 2 := by positivity
  have logarithm := (hasDerivAt_square_ratio threshold residual).log positive.ne'
  rw [funext (cauchyCost_single threshold), cauchySlope_eq]
  refine (logarithm.const_mul (threshold * threshold)).congr_deriv ?_
  field_simp

theorem square_ratio_le_one_iff {threshold : ℝ} (positive : 0 < threshold) (residual : ℝ) :
    (residual / threshold) ^ 2 ≤ 1 ↔ |residual| ≤ threshold := by
  rw [sq_le_one_iff_abs_le_one, abs_div, abs_of_pos positive, div_le_one positive]

theorem tukeyCost_of_le {threshold residual : ℝ} (inside : |residual| ≤ threshold) :
    tukeyCost threshold [residual] =
      threshold * threshold / 6 * (1 - (1 - (residual / threshold) ^ 2) ^ 3) := by
  have size : Scalar.abs residual = |residual| := rfl
  have none : (Scalar.ofNat 0 : ℝ) = 0 := Nat.cast_zero
  have square : Scalar.square (|residual| / threshold) = (residual / threshold) ^ 2 := by
    rw [Scalar.square, ← sq, div_pow, sq_abs, ← div_pow]
  simp only [tukeyCost, sum_eq, List.map_cons, List.map_nil, List.filter_cons, List.filter_nil,
    size, inside, square, Scalar.cube, literal_one, literal_six, decide_true, if_true,
    Bool.not_true, Bool.false_eq_true, if_false, List.sum_cons, List.sum_nil, List.length_nil, none]
  ring

theorem tukeyCost_of_lt {threshold residual : ℝ} (outside : threshold < |residual|) :
    tukeyCost threshold [residual] = threshold * threshold / 6 := by
  have size : Scalar.abs residual = |residual| := rfl
  have one : (Scalar.ofNat 1 : ℝ) = 1 := Nat.cast_one
  simp [tukeyCost, sum_eq, size, not_le.mpr outside, literal_six, one]

/-- What is left of one up to the threshold is nothing beyond it. -/
theorem tukeyCost_single {threshold : ℝ} (positive : 0 < threshold) (residual : ℝ) :
    tukeyCost threshold [residual] = threshold * threshold / 6 *
      (1 - max (1 - (residual / threshold) ^ 2) 0 ^ 3) := by
  obtain inside | outside := le_or_gt |residual| threshold
  · have within := (square_ratio_le_one_iff positive residual).mpr inside
    rw [tukeyCost_of_le inside, max_eq_left (by linarith)]
  · have beyond := (square_ratio_le_one_iff positive residual).not.mpr outside.not_ge
    rw [tukeyCost_of_lt outside, max_eq_right (by linarith)]
    ring

theorem tukeySlope_eq {threshold : ℝ} (positive : 0 < threshold) (residual : ℝ) :
    tukeySlope threshold residual =
      residual * max (1 - (residual / threshold) ^ 2) 0 ^ 2 := by
  unfold tukeySlope Scalar.square
  rw [literal_zero, literal_one, ← sq]
  change (if |residual| ≤ threshold then _ else _) = _
  split
  · next inside =>
      have within := (square_ratio_le_one_iff positive residual).mpr inside
      rw [max_eq_left (by linarith)]
      ring
  · next outside =>
      have beyond := (square_ratio_le_one_iff positive residual).not.mpr outside
      rw [max_eq_right (by linarith)]
      ring

theorem hasDerivAt_tukeyCost {threshold : ℝ} (positive : 0 < threshold) (residual : ℝ) :
    HasDerivAt (fun residual => tukeyCost threshold [residual]) (tukeySlope threshold residual)
      residual := by
  have rest : HasDerivAt (fun residual => 1 - (residual / threshold) ^ 2)
      (-(2 * (residual / threshold) * (1 / threshold))) residual := by
    refine ((hasDerivAt_square_ratio threshold residual).const_sub 2).congr_of_eventuallyEq ?_
    exact .of_forall fun near => by ring
  have cube := (hasDerivAt_positivePart_pow 1 (1 - (residual / threshold) ^ 2)).comp residual rest
  rw [funext (tukeyCost_single positive), tukeySlope_eq positive]
  refine ((cube.const_sub 1).const_mul (threshold * threshold / 6)).congr_deriv ?_
  have nonzero := positive.ne'
  push_cast
  field_simp
  ring

/-! ## All residuals -/

/-- A cost that each residual adds to is the sum of what the residuals cost alone. -/
theorem cost_ofFn_of_cons {cost : Vec ℝ → ℝ}
    (adds : ∀ residual rest, cost (residual :: rest) = cost [residual] + cost rest)
    (residuals : Fin l → ℝ) :
    cost (List.ofFn residuals) = ∑ index, cost [residuals index] := by
  induction l with
  | zero =>
      have none : cost [] = 0 := left_eq_add.mp (adds 0 [])
      simpa using none
  | succ count previous => rw [List.ofFn_succ, adds, previous, Fin.sum_univ_succ]

theorem huberCost_cons (threshold residual : ℝ) (rest : Vec ℝ) :
    huberCost threshold (residual :: rest) =
      huberCost threshold [residual] + huberCost threshold rest := by
  unfold huberCost
  simp only [sum_eq, List.map_cons, List.map_nil, List.filter_cons, List.filter_nil]
  by_cases inside : Scalar.abs residual ≤ threshold
  · simp [inside, add_assoc]
  · simp [inside, add_left_comm]

theorem smoothHuberCost_cons (threshold residual : ℝ) (rest : Vec ℝ) :
    smoothHuberCost threshold (residual :: rest) =
      smoothHuberCost threshold [residual] + smoothHuberCost threshold rest := by
  simp [smoothHuberCost, sum_eq, mul_add]

theorem cauchyCost_cons (threshold residual : ℝ) (rest : Vec ℝ) :
    cauchyCost threshold (residual :: rest) =
      cauchyCost threshold [residual] + cauchyCost threshold rest := by
  simp [cauchyCost, sum_eq, mul_add]

theorem tukeyCost_cons (threshold residual : ℝ) (rest : Vec ℝ) :
    tukeyCost threshold (residual :: rest) =
      tukeyCost threshold [residual] + tukeyCost threshold rest := by
  have count (beyond : ℕ) : (Scalar.ofNat beyond : ℝ) = beyond := rfl
  unfold tukeyCost
  simp only [sum_eq, count, literal_six, List.map_cons, List.map_nil, List.filter_cons,
    List.filter_nil]
  by_cases inside : Scalar.abs residual ≤ threshold
  · simp [inside, mul_add, add_assoc]
  · simp [inside, mul_add]
    ring

/-- Bringing residuals to size one before they are weighted and squared makes no difference. -/
theorem halfSquare_of_scaled {scaled : Vec ℝ → Option (Vec ℝ)} {weights : Fin l → ℝ}
    (scales : ∀ residuals : Fin l → ℝ,
      scaled (List.ofFn residuals) = some (List.ofFn (weights * residuals)))
    (residuals : Fin l → ℝ) :
    halfSquare scaled (List.ofFn residuals) =
      (.ok (1 / 2 * ((weights * residuals) ⬝ᵥ (weights * residuals))) : Except (Fault ℝ) ℝ) := by
  unfold halfSquare
  -- a size of zero divides nothing: then all residuals are zero, and so is the cost
  by_cases zero : size (List.ofFn residuals) = 0
  · have level : residuals = 0 := by
      funext index
      have within : ∀ entry ∈ List.ofFn residuals, |entry| ≤ 0 := by
        unfold size at zero
        cases found : Vec.maxAbs? (List.ofFn residuals) with
        | none =>
            cases entries : List.ofFn residuals with
            | nil => nofun
            | cons first rest => rw [entries] at found; cases found
        | some largest =>
            rw [found] at zero
            exact (maxAbs?_le found 0).mp zero.le
      exact abs_nonpos_iff.mp (within _ (List.mem_ofFn.mpr ⟨index, rfl⟩))
    rw [if_pos (by rwa [beq_iff, literal_zero]), level, literal_zero]
    simp
  · rw [if_neg (by rwa [beq_iff, literal_zero])]
    have reduced : (List.ofFn residuals).map (· / size (List.ofFn residuals)) =
        List.ofFn fun index => residuals index / size (List.ofFn residuals) := by
      rw [List.map_ofFn]
      rfl
    rw [reduced, scales, fit_some, ok_bind, dot_ofFn, literal_half]
    refine congrArg Except.ok ?_
    simp only [dotProduct, Pi.mul_apply, Finset.mul_sum, Finset.sum_mul]
    refine Finset.sum_congr rfl fun index _ => ?_
    field_simp

theorem halfSquare_eq (residuals : Fin l → ℝ) :
    halfSquare some (List.ofFn residuals) =
      (.ok (1 / 2 * (residuals ⬝ᵥ residuals)) : Except (Fault ℝ) ℝ) := by
  have plain : ∀ residuals : Fin l → ℝ,
      some (List.ofFn residuals) = some (List.ofFn (1 * residuals)) := by
    intro residuals
    rw [one_mul]
  rw [halfSquare_of_scaled plain, one_mul]

/-! ## The squared loss -/

theorem settle_of_squared {loss settled : Loss σ ℝ} (squared : loss.shape = .squared)
    {residuals : Vec ℝ} {changed : Bool} {before after : σ}
    (ran : (loss.settle residuals).run before = (.ok (settled, changed), after)) :
    settled = loss := by
  unfold settle at ran
  rw [squared] at ran
  cases ran
  rfl

theorem cost_of_squared {loss : Loss σ ℝ} (squared : loss.shape = .squared)
    (residuals : Fin l → ℝ) :
    loss.cost (List.ofFn residuals) = .ok (1 / 2 * (residuals ⬝ᵥ residuals)) := by
  unfold cost
  rw [squared]
  exact halfSquare_eq residuals

theorem gradientInto_of_squared {loss : Loss σ ℝ} (squared : loss.shape = .squared)
    (residuals : Fin l → ℝ) :
    loss.gradientInto l (List.ofFn residuals) = .ok (List.ofFn residuals) := by
  unfold gradientInto gradient
  rw [squared, ok_bind, fill?_ofFn]
  rfl

/-! ## Losses -/

/-- A loss that does not change and whose cost has slopes everywhere. A threshold, if there is
one, is positive where the formula has to be. -/
def IsSmooth (loss : Loss σ ℝ) : Prop :=
  match loss.shape with
  | .squared => True
  | .counted _ => True
  | .weighted _ => True
  | .huber threshold => 0 ≤ threshold
  | .smoothHuber threshold => threshold ≠ 0
  | .cauchy threshold => threshold ≠ 0
  | .tukey threshold => 0 < threshold
  | .reweighted _ _ => False
  | .undefined => False

/-- Each residual is costed on its own, and its slope is the derivative of what it costs. -/
structure Separates (loss : Loss σ ℝ) (share slope : Fin l → ℝ → ℝ) : Prop where
  cost : ∀ residuals : Fin l → ℝ,
    loss.cost (List.ofFn residuals) = .ok (∑ index, share index (residuals index))
  gradient : ∀ residuals : Fin l → ℝ,
    loss.gradientInto l (List.ofFn residuals) =
      .ok (List.ofFn fun index => slope index (residuals index))
  derivative : ∀ index residual, HasDerivAt (share index) (slope index residual) residual

theorem gradientInto_of_gradient {loss : Loss σ ℝ} {residuals : Vec ℝ} {slopes : Fin l → ℝ}
    (found : loss.gradient residuals = .ok (List.ofFn slopes)) :
    loss.gradientInto l residuals = .ok (List.ofFn slopes) := by
  rw [gradientInto, found, ok_bind, fill?_ofFn]
  rfl

theorem separates_of_cons {loss : Loss σ ℝ} {total : Vec ℝ → ℝ} {slope : ℝ → ℝ}
    (cost : ∀ residuals : Vec ℝ, loss.cost residuals = .ok (total residuals))
    (adds : ∀ residual rest, total (residual :: rest) = total [residual] + total rest)
    (gradient : ∀ residuals : Vec ℝ, loss.gradient residuals = .ok (residuals.map slope))
    (derivative : ∀ residual,
      HasDerivAt (fun residual => total [residual]) (slope residual) residual) :
    loss.Separates (fun (_ : Fin l) residual => total [residual]) fun _ => slope where
  cost residuals := by rw [cost, cost_ofFn_of_cons adds]
  gradient residuals := by
    refine gradientInto_of_gradient ?_
    rw [gradient, List.map_ofFn]
    rfl
  derivative _ := derivative

theorem separates_of_square {loss : Loss σ ℝ} (weights : Fin l → ℝ)
    (cost : ∀ residuals : Fin l → ℝ, loss.cost (List.ofFn residuals) =
      .ok (1 / 2 * ((weights * residuals) ⬝ᵥ (weights * residuals))))
    (gradient : ∀ residuals : Fin l → ℝ, loss.gradient (List.ofFn residuals) =
      .ok (List.ofFn (weights * weights * residuals))) :
    loss.Separates (fun index residual => 1 / 2 * (weights index * residual) ^ 2)
      fun index residual => weights index * weights index * residual where
  cost residuals := by
    rw [cost, dotProduct, Finset.mul_sum]
    refine congrArg Except.ok (Finset.sum_congr rfl fun index _ => ?_)
    rw [Pi.mul_apply, sq]
  gradient residuals := gradientInto_of_gradient (gradient residuals)
  derivative index residual := by
    have square := (((hasDerivAt_id residual).const_mul (weights index)).pow 2).const_mul (1 / 2)
    refine square.congr_deriv ?_
    simp
    ring

theorem IsSmooth.separates {loss : Loss σ ℝ} (smooth : loss.IsSmooth) (fits : loss.Fits l) :
    ∃ share slope : Fin l → ℝ → ℝ, loss.Separates share slope := by
  obtain ⟨shape, functions⟩ := loss
  cases shape with
  | squared | counted times =>
      refine ⟨_, _, separates_of_square 1 (fun residuals => ?_) fun residuals => ?_⟩
      · rw [one_mul]
        exact halfSquare_eq residuals
      · rw [one_mul, one_mul]
        rfl
  | weighted weights =>
      obtain ⟨weights, rfl⟩ := exists_ofFn (fits weights rfl)
      refine ⟨_, _, separates_of_square weights
        (halfSquare_of_scaled fun residuals => combine?_ofFn _ weights residuals)
        fun residuals => ?_⟩
      change Fault.fit (weightedSlopes (List.ofFn weights) (List.ofFn residuals)) = _
      rw [weightedSlopes, List.map_ofFn, combine?_ofFn]
      rfl
  | huber threshold =>
      exact ⟨_, _, separates_of_cons (fun _ => rfl) (huberCost_cons threshold) (fun _ => rfl)
        (hasDerivAt_huberCost smooth)⟩
  | smoothHuber threshold =>
      exact ⟨_, _, separates_of_cons (fun _ => rfl) (smoothHuberCost_cons threshold) (fun _ => rfl)
        (hasDerivAt_smoothHuberCost smooth)⟩
  | cauchy threshold =>
      exact ⟨_, _, separates_of_cons (fun _ => rfl) (cauchyCost_cons threshold) (fun _ => rfl)
        (hasDerivAt_cauchyCost smooth)⟩
  | tukey threshold =>
      exact ⟨_, _, separates_of_cons (fun _ => rfl) (tukeyCost_cons threshold) (fun _ => rfl)
        (hasDerivAt_tukeyCost smooth)⟩
  | reweighted choose weights => exact smooth.elim
  | undefined => exact smooth.elim

theorem IsSmooth.isStatic {loss : Loss σ ℝ} (smooth : loss.IsSmooth) : loss.IsStatic := by
  obtain ⟨shape, functions⟩ := loss
  cases shape <;> trivial

/-- A smooth loss for that many residuals, which costs them like another loss. -/
structure CostsLike (loss other : Loss σ ℝ) (functions : Nat) : Prop where
  smooth : loss.IsSmooth
  fits : loss.Fits functions
  cost_eq : loss.cost = other.cost

theorem IsSmooth.prepared {loss prepared : Loss σ ℝ} {functions : Nat} (smooth : loss.IsSmooth)
    (ready : loss.prepare functions = .ok prepared) : prepared.CostsLike loss functions := by
  obtain ⟨shape, count⟩ := loss
  cases shape with
  | weighted weights =>
      unfold prepare at ready
      dsimp only at ready
      split at ready
      · next size =>
          cases ready
          refine ⟨trivial, fun _ found => ?_, rfl⟩
          cases found
          exact Int.ofNat_inj.mp size
      · cases ready
  | reweighted choose weights => exact smooth.elim
  | undefined => exact smooth.elim
  | squared | counted times | huber threshold | smoothHuber threshold | cauchy threshold
  | tukey threshold =>
      cases ready
      exact ⟨smooth, nofun, rfl⟩

theorem CostsLike.settled {loss other settled : Loss σ ℝ} {residuals : Vec ℝ} {functions : Nat}
    {before after : σ} {changed : Bool} (like : loss.CostsLike other functions)
    (ran : (loss.settle residuals).run before = (.ok (settled, changed), after)) :
    settled.CostsLike other functions := by
  obtain ⟨smooth, fits, same⟩ := like
  obtain ⟨shape, count⟩ := loss
  cases shape with
  | reweighted choose weights => exact smooth.elim
  | undefined => exact smooth.elim
  | squared | counted times | huber threshold | smoothHuber threshold | cauchy threshold
  | tukey threshold | weighted weights =>
      cases ran
      exact ⟨smooth, fits, same⟩

theorem IsSmooth.readied {loss ready : Loss σ ℝ} {residuals : Vec ℝ} (smooth : loss.IsSmooth)
    (readied : loss.Readied residuals ready) : ready.CostsLike loss residuals.length := by
  obtain ⟨prepared, _, _, _, prepares, settles⟩ := readied
  exact (smooth.prepared prepares).settled settles

end Loss

/-! ## The chain rule -/

variable {k : Nat}

/-- The linear function with these slopes. -/
noncomputable def along (slopes : Fin k → ℝ) : (Fin k → ℝ) →L[ℝ] ℝ :=
  ∑ index, slopes index • ContinuousLinearMap.proj index

@[simp] theorem along_apply (slopes direction : Fin k → ℝ) :
    along slopes direction = slopes ⬝ᵥ direction := by
  simp [along, dotProduct]

theorem along_eq_zero_iff {slopes : Fin k → ℝ} : along slopes = 0 ↔ slopes = 0 := by
  constructor
  · intro level
    funext index
    have slope := DFunLike.congr_fun level (Pi.single index 1)
    simpa using slope
  · rintro rfl
    ext direction
    simp

/-- The linear function that a Jacobian stands for. -/
noncomputable def linear (jacobian : RealMatrix l k) : (Fin k → ℝ) →L[ℝ] (Fin l → ℝ) :=
  LinearMap.toContinuousLinearMap jacobian.mulVecLin

theorem hasFDerivAt_linear_one (x : Fin k → ℝ) :
    HasFDerivAt (fun x : Fin k → ℝ => x) (linear 1) x := by
  refine (hasFDerivAt_id _).congr_fderiv ?_
  ext direction index
  simp [linear]

theorem hasFDerivAt_of_rows {residuals : (Fin k → ℝ) → Fin l → ℝ} {jacobian : RealMatrix l k}
    {x : Fin k → ℝ}
    (rows : ∀ row, HasFDerivAt (fun x => residuals x row) (along (jacobian row)) x) :
    HasFDerivAt residuals (linear jacobian) x := by
  refine hasFDerivAt_pi'.mpr fun row => (rows row).congr_fderiv ?_
  ext direction
  simp [linear, Matrix.mulVec]

/-- The transposed Jacobian takes the slopes of the loss to those of the cost. -/
theorem Loss.Separates.hasFDerivAt {loss : Loss σ ℝ} {share slope : Fin l → ℝ → ℝ}
    (separates : loss.Separates share slope) {residuals : (Fin k → ℝ) → Fin l → ℝ}
    {jacobian : RealMatrix l k} {x : Fin k → ℝ}
    (differentiable : HasFDerivAt residuals (linear jacobian) x) :
    HasFDerivAt (fun x => ∑ index, share index (residuals x index))
      (along (jacobianᵀ *ᵥ fun index => slope index (residuals x index))) x := by
  have each (index : Fin l) :=
    (separates.derivative index (residuals x index)).comp_hasFDerivAt x
      (hasFDerivAt_pi'.mp differentiable index)
  refine (HasFDerivAt.fun_sum fun index _ => each index).congr_fderiv ?_
  ext direction
  rw [along_apply, Matrix.mulVec_transpose, ← Matrix.dotProduct_mulVec]
  simp [linear, dotProduct]

end DampedLeastSquares
