import Mathlib
import DampedLeastSquares.Proofs.Exact.Influence

/-!
# What residuals cost, and how they pull

The slopes that a loss gives residuals are the gradient of what it makes them cost, also where
its formula changes. The robust losses grow with the sizes of the residuals and no faster than
the squared one, and none of their slopes exceeds the threshold.
-/

set_option autoImplicit false

open scoped Matrix

namespace DampedLeastSquares

open Exact

namespace Loss

variable {σ : Type} {l : ℕ}

section Vectors

variable {α : Type} [Scalar α]

theorem costOf_ofVec (loss : Loss σ α) (residuals : Vec α) :
    loss.costOf (.ofVec residuals) = loss.cost residuals := by
  obtain ⟨shape, functions⟩ := loss
  cases shape <;> rfl

theorem gradientOf_ofVec (loss : Loss σ α) (residuals : Vec α) :
    loss.gradientOf (.ofVec residuals) = loss.gradientInto residuals.length residuals := rfl

end Vectors

/-- Residuals cost this much, and these are the slopes they are given, in a new vector as well as
in one that is at hand. -/
structure Evaluates (loss : Loss σ ℝ) (cost : (Fin l → ℝ) → ℝ)
    (slopes : (Fin l → ℝ) → Fin l → ℝ) : Prop where
  cost : ∀ residuals, loss.costOf (.ofVec (List.ofFn residuals)) = .ok (cost residuals)
  gradient : ∀ residuals,
    loss.gradientOf (.ofVec (List.ofFn residuals)) = .ok (List.ofFn (slopes residuals))
  gradientInto : ∀ residuals,
    loss.gradientInto l (List.ofFn residuals) = .ok (List.ofFn (slopes residuals))

theorem Separates.evaluates {loss : Loss σ ℝ} {share slope : Fin l → ℝ → ℝ}
    (separates : loss.Separates share slope) :
    loss.Evaluates (fun residuals => ∑ index, share index (residuals index))
      fun residuals index => slope index (residuals index) where
  cost residuals := by rw [costOf_ofVec, separates.cost]
  gradient residuals := by rw [gradientOf_ofVec, List.length_ofFn, separates.gradient]
  gradientInto := separates.gradient

theorem Separates.hasFDerivAt_cost {loss : Loss σ ℝ} {share slope : Fin l → ℝ → ℝ}
    (separates : loss.Separates share slope) (residuals : Fin l → ℝ) :
    HasFDerivAt (fun residuals => ∑ index, share index (residuals index))
      (along fun index => slope index (residuals index)) residuals := by
  have total := separates.hasFDerivAt (hasFDerivAt_linear_one residuals)
  rwa [Matrix.transpose_one, Matrix.one_mulVec] at total

/-- A linear function along one axis is its slope there. -/
theorem hasDerivAt_update_of_along {cost : (Fin l → ℝ) → ℝ} {residuals slopes : Fin l → ℝ}
    (total : HasFDerivAt cost (along slopes) residuals) (index : Fin l) :
    HasDerivAt (fun residual => cost (Function.update residuals index residual)) (slopes index)
      (residuals index) := by
  have axis := hasDerivAt_update residuals index (residuals index)
  rw [← Function.update_eq_self index residuals] at total
  refine (total.comp_hasDerivAt (residuals index) axis).congr_deriv ?_
  simp

/-! ## The gradient of the cost -/

theorem Evaluates.cost_eq {loss : Loss σ ℝ} {cost : (Fin l → ℝ) → ℝ}
    {slopes : (Fin l → ℝ) → Fin l → ℝ} (evaluates : loss.Evaluates cost slopes)
    {residuals : Fin l → ℝ} {value : ℝ}
    (found : loss.cost (List.ofFn residuals) = .ok value) : cost residuals = value := by
  have costed := evaluates.cost residuals
  rw [costOf_ofVec, found] at costed
  exact (Except.ok.inj costed).symm

theorem half_dotProduct_self (values : Fin l → ℝ) :
    1 / 2 * (values ⬝ᵥ values) = (∑ index, values index ^ 2) / 2 := by
  rw [one_div_mul_eq_div]
  simp only [dotProduct, sq]

/-- The slopes of a smooth loss are the gradient of its cost at all residuals, and along each of
them the derivative. The costs that bring residuals to size one are half the sums of squares. -/
theorem slopes_differentiate (loss : Loss σ ℝ) (smooth : loss.IsSmooth) (fits : loss.Fits l) :
    ∃ (cost : (Fin l → ℝ) → ℝ) (slopes : (Fin l → ℝ) → Fin l → ℝ),
      loss.Evaluates cost slopes ∧
      (∀ residuals, HasFDerivAt cost (along (slopes residuals)) residuals) ∧
      (∀ residuals index,
        HasDerivAt (fun residual => cost (Function.update residuals index residual))
          (slopes residuals index) (residuals index)) ∧
      (loss.shape = .squared →
        ∀ residuals, cost residuals = (∑ index, residuals index ^ 2) / 2) ∧
      ∀ weights : Fin l → ℝ, loss.shape = .weighted (List.ofFn weights) →
        ∀ residuals, cost residuals = (∑ index, (weights index * residuals index) ^ 2) / 2 := by
  obtain ⟨share, slope, separates⟩ := smooth.separates fits
  have evaluates := separates.evaluates
  have total := separates.hasFDerivAt_cost
  refine ⟨_, _, evaluates, total, fun residuals => hasDerivAt_update_of_along (total residuals),
    fun plain residuals => ?_, fun weights weighted residuals => ?_⟩
  · have found : loss.cost (List.ofFn residuals) = .ok (1 / 2 * (residuals ⬝ᵥ residuals)) := by
      rw [Loss.cost, plain]
      exact halfSquare_eq residuals
    rw [evaluates.cost_eq found, half_dotProduct_self]
  · have found : loss.cost (List.ofFn residuals) =
        .ok (1 / 2 * ((weights * residuals) ⬝ᵥ (weights * residuals))) := by
      rw [Loss.cost, weighted]
      exact halfSquare_of_scaled (fun residuals => combine?_ofFn _ weights residuals) residuals
    rw [evaluates.cost_eq found, half_dotProduct_self]
    rfl

/-- Tukey's loss, where one residual lies on the threshold and one beyond it. -/
theorem slopes_differentiate_at_threshold :
    (⟨.tukey 2, 0⟩ : Loss Unit ℝ).IsSmooth ∧ (⟨.tukey 2, 0⟩ : Loss Unit ℝ).Fits 2 ∧
      ∃ (cost : (Fin 2 → ℝ) → ℝ) (slopes : (Fin 2 → ℝ) → Fin 2 → ℝ),
        (⟨.tukey 2, 0⟩ : Loss Unit ℝ).Evaluates cost slopes ∧
        HasFDerivAt cost (along (slopes ![-2, 5])) ![-2, 5] ∧
        HasDerivAt (fun residual => cost (Function.update ![-2, 5] 0 residual))
          (slopes ![-2, 5] 0) (-2) := by
  have smooth : (⟨.tukey 2, 0⟩ : Loss Unit ℝ).IsSmooth := two_pos
  have fits : (⟨.tukey 2, 0⟩ : Loss Unit ℝ).Fits 2 := nofun
  obtain ⟨cost, slopes, evaluates, total, partials, _⟩ := slopes_differentiate _ smooth fits
  exact ⟨smooth, fits, cost, slopes, evaluates, total _, partials ![-2, 5] 0⟩

/-! ## Robust costs -/

end Loss

/-- The robust losses with a threshold, and how steep they are at zero next to half the square. -/
inductive LossShape.Robust {σ : Type} (threshold : ℝ) : LossShape σ ℝ → ℝ → Prop where
  | huber : Robust threshold (.huber threshold) 1
  | smoothHuber : Robust threshold (.smoothHuber threshold) 1
  | cauchy : Robust threshold (.cauchy threshold) 2
  | tukey : Robust threshold (.tukey threshold) 1

namespace Loss

variable {σ : Type} {l : ℕ}

/-- The cost depends on the sizes of the residuals only and grows with each of them, from nothing
where all are zero, and no faster than the squared cost. No residual pulls harder than it does
under the squared cost, nor harder than the threshold, and each in its own direction. -/
structure Limits (cost : (Fin l → ℝ) → ℝ) (slopes : (Fin l → ℝ) → Fin l → ℝ)
    (threshold steepness : ℝ) : Prop where
  even : ∀ first second, (∀ index, |first index| = |second index|) → cost first = cost second
  monotone : ∀ first second, (∀ index, |first index| ≤ |second index|) →
    cost first ≤ cost second
  eq_zero_iff : ∀ residuals, cost residuals = 0 ↔ residuals = 0
  le_square : ∀ residuals, ∃ square,
    (squared : Loss Unit ℝ).costOf (.ofVec (List.ofFn residuals)) = .ok square ∧
      cost residuals ≤ steepness * square
  sign : ∀ residuals index, slopes residuals index = 0 ∨
    SignType.sign (slopes residuals index) = SignType.sign (residuals index)
  magnitude : ∀ residuals index,
    |slopes residuals index| ≤ min (steepness * |residuals index|) threshold

/-- What holds of each residual holds of their sum. -/
theorem limits_of_tempers {share slope : ℝ → ℝ} {threshold steepness : ℝ}
    (positive : 0 < threshold) (tempers : Tempers slope steepness threshold)
    (derivative : ∀ residual, HasDerivAt share (slope residual) residual) (zero : share 0 = 0) :
    Limits (fun residuals : Fin l → ℝ => ∑ index, share (residuals index))
      (fun residuals index => slope (residuals index)) threshold steepness := by
  have grows := tempers.grows derivative zero
  have monotone (first second : Fin l → ℝ) (smaller : ∀ index, |first index| ≤ |second index|) :
      ∑ index, share (first index) ≤ ∑ index, share (second index) :=
    Finset.sum_le_sum fun index _ => grows.monotone _ _ (smaller index)
  refine ⟨fun first second same => ?_, monotone, fun residuals => ?_, fun residuals => ?_,
    fun residuals index => tempers.sign_slope _, fun residuals index => tempers.abs_slope_le _⟩
  · exact (monotone first second fun index => (same index).le).antisymm
      (monotone second first fun index => (same index).ge)
  · rw [Finset.sum_eq_zero_iff_of_nonneg fun index _ => grows.nonneg _, funext_iff]
    simp [tempers.share_eq_zero_iff positive derivative zero]
  · refine ⟨1 / 2 * (residuals ⬝ᵥ residuals), ?_, ?_⟩
    · rw [costOf_ofVec]
      exact halfSquare_eq residuals
    · rw [dotProduct, Finset.mul_sum, Finset.mul_sum]
      refine Finset.sum_le_sum fun index _ => ?_
      rw [← sq]
      exact grows.le_square (residuals index)

theorem limits_of_cons {loss : Loss σ ℝ} {total : Vec ℝ → ℝ} {slope : ℝ → ℝ}
    {threshold steepness : ℝ} (positive : 0 < threshold)
    (cost : ∀ residuals : Vec ℝ, loss.cost residuals = .ok (total residuals))
    (adds : ∀ residual rest, total (residual :: rest) = total [residual] + total rest)
    (gradient : ∀ residuals : Vec ℝ, loss.gradient residuals = .ok (residuals.map slope))
    (derivative : ∀ residual,
      HasDerivAt (fun residual => total [residual]) (slope residual) residual)
    (tempers : Tempers slope steepness |threshold|) (zero : total [0] = 0) :
    ∃ (cost : (Fin l → ℝ) → ℝ) (slopes : (Fin l → ℝ) → Fin l → ℝ),
      loss.Evaluates cost slopes ∧ Limits cost slopes threshold steepness := by
  rw [abs_of_pos positive] at tempers
  exact ⟨_, _, (separates_of_cons cost adds gradient derivative).evaluates,
    limits_of_tempers positive tempers derivative zero⟩

/-- Each robust loss with a positive threshold has a cost and slopes within these limits. -/
theorem influence_bounded (loss : Loss σ ℝ) {threshold steepness : ℝ}
    (positive : 0 < threshold) (robust : loss.shape.Robust threshold steepness) :
    ∃ (cost : (Fin l → ℝ) → ℝ) (slopes : (Fin l → ℝ) → Fin l → ℝ),
      loss.Evaluates cost slopes ∧ Limits cost slopes threshold steepness := by
  obtain ⟨shape, functions⟩ := loss
  cases robust with
  | huber =>
      exact limits_of_cons positive (fun _ => rfl) (huberCost_cons threshold) (fun _ => rfl)
        (hasDerivAt_huberCost positive.le) (tempers_huber positive.le)
        (grows_huber positive.le).zero
  | smoothHuber =>
      exact limits_of_cons positive (fun _ => rfl) (smoothHuberCost_cons threshold) (fun _ => rfl)
        (hasDerivAt_smoothHuberCost positive.ne') (tempers_smoothHuber positive.ne')
        (grows_smoothHuber positive.ne').zero
  | cauchy =>
      exact limits_of_cons positive (fun _ => rfl) (cauchyCost_cons threshold) (fun _ => rfl)
        (hasDerivAt_cauchyCost positive.ne') (tempers_cauchy positive.ne')
        (grows_cauchy positive.ne').zero
  | tukey =>
      exact limits_of_cons positive (fun _ => rfl) (tukeyCost_cons threshold) (fun _ => rfl)
        (hasDerivAt_tukeyCost positive) (tempers_tukey positive) (grows_tukey positive).zero

/-- Cauchy's loss and an outlier. -/
theorem influence_bounded_of_outlier :
    (0 : ℝ) < 3 ∧ (⟨.cauchy 3, 0⟩ : Loss Unit ℝ).shape.Robust 3 2 ∧
      ∃ (cost : (Fin 2 → ℝ) → ℝ) (slopes : (Fin 2 → ℝ) → Fin 2 → ℝ),
        (⟨.cauchy 3, 0⟩ : Loss Unit ℝ).Evaluates cost slopes ∧ Limits cost slopes 3 2 ∧
        |slopes ![1, -1000] 1| ≤ 3 := by
  have positive : (0 : ℝ) < 3 := three_pos
  have robust : (⟨.cauchy 3, 0⟩ : Loss Unit ℝ).shape.Robust 3 2 := .cauchy
  obtain ⟨cost, slopes, evaluates, limits⟩ := influence_bounded _ positive robust
  exact ⟨positive, robust, cost, slopes, evaluates, limits,
    (limits.magnitude ![1, -1000] 1).trans (min_le_right _ _)⟩

end Loss

end DampedLeastSquares
