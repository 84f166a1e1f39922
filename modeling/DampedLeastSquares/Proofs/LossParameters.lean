import Mathlib
import DampedLeastSquares.Loss.Choice
import DampedLeastSquares.Proofs.Exact.Extended
import DampedLeastSquares.Proofs.ResidualCosts

/-!
# Which parameters make a loss a penalty

A loss chosen by its kind takes any number as its parameter. A penalty charges nothing for
residuals of zero and never less than nothing. With a threshold below zero no residual lies
within it, so that zero is costed by the formula for outliers; and a division by a threshold of
zero has no result.
-/

set_option autoImplicit false

namespace DampedLeastSquares

open Exact Extended

variable {σ : Type}

/-! ## Real residuals -/

section Real

variable {residuals : Vec ℝ} {threshold : ℝ}

theorem sum_finite (vector : Vec ℝ) : Vec.sum (vector.map finite) = finite (Vec.sum vector) := by
  have folded (start : ℝ) : (vector.map finite).foldl (· + ·) (finite start) =
      finite (vector.foldl (· + ·) start) := by
    induction vector generalizing start with
    | nil => rfl
    | cons first rest previous => exact previous (start + first)
  exact folded _

/-- A sum of terms that are real numbers. -/
theorem sum_map_finite {vector : Vec ℝ} {term : Extended → Extended} {real : ℝ → ℝ}
    (same : ∀ entry ∈ vector, term (finite entry) = finite (real entry)) :
    Vec.sum ((vector.map finite).map term) = finite (Vec.sum (vector.map real)) := by
  rw [← sum_finite, List.map_map, List.map_map]
  exact congrArg Vec.sum (List.map_congr_left same)

theorem map_abs_finite (vector : Vec ℝ) :
    (vector.map finite).map Scalar.abs = (vector.map Scalar.abs).map finite := by
  rw [List.map_map, List.map_map]
  rfl

theorem filter_inner_finite (vector : Vec ℝ) (threshold : ℝ) :
    (vector.map finite).filter (· ≤ finite threshold) =
      (vector.filter (· ≤ threshold)).map finite := by
  rw [List.filter_map]
  refine congrArg _ (List.filter_congr fun entry _ => ?_)
  exact decide_eq_decide.mpr finite_le_finite

theorem filter_outer_finite (vector : Vec ℝ) (threshold : ℝ) :
    (vector.map finite).filter (fun size => !decide (size ≤ finite threshold)) =
      (vector.filter fun size => !decide (size ≤ threshold)).map finite := by
  rw [List.filter_map]
  refine congrArg _ (List.filter_congr fun entry _ => ?_)
  exact congrArg not (decide_eq_decide.mpr finite_le_finite)

namespace Loss

theorem huberCost_finite (threshold : ℝ) (residuals : Vec ℝ) :
    huberCost (finite threshold) (residuals.map finite) =
      finite (huberCost threshold residuals) := by
  unfold huberCost
  dsimp only
  rw [map_abs_finite, filter_inner_finite, filter_outer_finite]
  refine congrArg₂ (· + ·) (sum_map_finite fun _ _ => rfl)
    (sum_map_finite fun size _ => ?_)
  exact congrArg (finite threshold * ·) sub_finite

theorem ratio_finite (nonzero : threshold ≠ 0) (residual : ℝ) :
    Scalar.square (finite residual / finite threshold) =
      finite (Scalar.square (residual / threshold)) := by
  rw [div_finite nonzero]
  rfl

theorem smoothHuberCost_finite (nonzero : threshold ≠ 0) (residuals : Vec ℝ) :
    smoothHuberCost (finite threshold) (residuals.map finite) =
      finite (smoothHuberCost threshold residuals) := by
  refine congrArg (finite threshold * finite threshold * ·) (sum_map_finite fun residual _ => ?_)
  rw [ratio_finite nonzero]
  have inside : ¬ 1.0 + Scalar.square (residual / threshold) < 0 := by
    rw [literal_one, Scalar.square]
    nlinarith [mul_self_nonneg (residual / threshold)]
  have root : Scalar.sqrt (1.0 + finite (Scalar.square (residual / threshold))) =
      finite (Scalar.sqrt (1.0 + Scalar.square (residual / threshold))) := if_neg inside
  rw [root]
  exact sub_finite

theorem cauchyCost_finite (nonzero : threshold ≠ 0) (residuals : Vec ℝ) :
    cauchyCost (finite threshold) (residuals.map finite) =
      finite (cauchyCost threshold residuals) := by
  refine congrArg (finite threshold * finite threshold * ·) (sum_map_finite fun residual _ => ?_)
  rw [ratio_finite nonzero]
  have inside : -1 < Scalar.square (residual / threshold) := by
    rw [Scalar.square]
    nlinarith [mul_self_nonneg (residual / threshold)]
  exact (if_neg inside.le.not_gt).trans (if_neg inside.ne')

theorem tukeyFactor_finite (threshold : ℝ) :
    finite threshold * finite threshold / 6.0 = finite (threshold * threshold / 6.0) := by
  have six : (6.0 : ℝ) ≠ 0 := by norm_num
  exact div_finite six

theorem tukeyCost_finite (nonzero : threshold ≠ 0) (residuals : Vec ℝ) :
    tukeyCost (finite threshold) (residuals.map finite) =
      finite (tukeyCost threshold residuals) := by
  unfold tukeyCost
  dsimp only
  rw [map_abs_finite, filter_inner_finite, filter_outer_finite, tukeyFactor_finite,
    List.length_map]
  refine congrArg (finite (threshold * threshold / 6.0) * · + _) (sum_map_finite fun size _ => ?_)
  have rest : 1.0 - finite (Scalar.square (size / threshold)) =
      finite (1.0 - Scalar.square (size / threshold)) := sub_finite
  rw [ratio_finite nonzero, rest]
  exact sub_finite

theorem size_finite (residuals : Vec ℝ) :
    size (residuals.map finite) = finite (size residuals) := by
  cases residuals with
  | nil => rfl
  | cons first rest =>
      have folded (found : ℝ) : (rest.map finite).foldl
          (fun found entry => Scalar.larger found (Scalar.abs entry)) (finite found) =
            finite (rest.foldl (fun found entry => Scalar.larger found (Scalar.abs entry))
              found) := by
        induction rest generalizing found with
        | nil => rfl
        | cons second rest previous =>
            have larger : Scalar.larger (finite found) (Scalar.abs (finite second)) =
                finite (Scalar.larger found (Scalar.abs second)) := by
              rw [abs_finite, larger_finite, larger_eq]
              rfl
            rw [List.map_cons, List.foldl_cons, larger, previous, List.foldl_cons]
      exact folded _

theorem dot_finite (left right : Vec ℝ) :
    Vec.dot (left.map finite) (right.map finite) = finite (Vec.dot left right) := by
  have products : List.zipWith (· * ·) (left.map finite) (right.map finite) =
      (List.zipWith (· * ·) left right).map finite := by
    rw [List.zipWith_map, List.map_zipWith]
    rfl
  rw [Vec.dot, products, sum_finite, Vec.dot]

theorem halfSquare_finite {residuals : Vec ℝ} {total : ℝ}
    (costed : halfSquare some residuals = (.ok total : Except (Fault ℝ) ℝ)) :
    halfSquare some (residuals.map finite) = (.ok (finite total) : Except (Fault Extended) _) := by
  have zero : (finite (size residuals) == 0.0) = (size residuals == 0.0) := beq_finite
  unfold halfSquare at costed ⊢
  dsimp only at costed ⊢
  rw [size_finite, zero]
  split
  · next level =>
      rw [if_pos level] at costed
      cases costed
      rfl
  · next positive =>
      rw [if_neg positive] at costed
      have nonzero : size residuals ≠ 0 := by
        rwa [beq_iff, Exact.literal_zero] at positive
      have reduced : (residuals.map finite).map (· / finite (size residuals)) =
          (residuals.map (· / size residuals)).map finite := by
        rw [List.map_map, List.map_map]
        exact List.map_congr_left fun _ _ => div_finite nonzero
      rw [reduced, fit_some, ok_bind, dot_finite]
      rw [fit_some, ok_bind] at costed
      cases costed
      rfl

end Loss

end Real

/-! ## Penalties -/

namespace Loss

/-- Residuals of zero cost nothing, however many they are, and no residuals cost less. -/
structure IsPenalty (loss : Loss σ Extended) : Prop where
  zero : ∀ count, loss.costOf (.ofVec (List.replicate count (finite 0))) = .ok (finite 0)
  nonneg : ∀ residuals : Vec ℝ, ∃ cost, 0 ≤ cost ∧
    loss.costOf (.ofVec (residuals.map finite)) = .ok (finite cost)

theorem isPenalty_of_grows {loss : Loss σ Extended} {total : Vec ℝ → ℝ} {steepness : ℝ}
    (cost : ∀ residuals : Vec ℝ, loss.cost (residuals.map finite) = .ok (finite (total residuals)))
    (adds : ∀ residual rest, total (residual :: rest) = total [residual] + total rest)
    (grows : Grows (fun residual => total [residual]) steepness) : loss.IsPenalty where
  zero count := by
    have level : total (List.replicate count 0) = 0 := by
      rw [← List.ofFn_const, cost_ofFn_of_cons adds]
      exact Finset.sum_eq_zero fun index _ => grows.zero
    rw [costOf_ofVec, ← List.map_replicate, cost, level]
  nonneg residuals := by
    refine ⟨total residuals, ?_, by rw [costOf_ofVec, cost]⟩
    rw [← List.ofFn_get residuals, cost_ofFn_of_cons adds]
    exact Finset.sum_nonneg fun index _ => grows.nonneg _

theorem IsPenalty.cost_zero {loss : Loss σ Extended} (penalty : loss.IsPenalty) :
    loss.cost [finite 0] = .ok (finite 0) := by
  rw [← penalty.zero 1, costOf_ofVec]
  rfl

theorem halfSquare_sum (residuals : Vec ℝ) :
    halfSquare some residuals =
      (.ok (residuals.map fun residual => 1 / 2 * residual ^ 2).sum : Except (Fault ℝ) ℝ) := by
  rw [← List.ofFn_get residuals, halfSquare_eq, List.map_ofFn, List.sum_ofFn]
  simp only [dotProduct, Finset.mul_sum, sq, Function.comp_apply]

theorem grows_squared :
    Grows (fun residual : ℝ => ([residual].map fun residual => 1 / 2 * residual ^ 2).sum) 1 where
  zero := by simp
  monotone first second smaller := by simpa using sq_le_sq.mpr smaller
  le_square residual := by simp

/-- Huber's loss pays for each residual of zero if no residual lies within its threshold. -/
theorem huberCost_zero_of_neg {threshold : ℝ} (negative : threshold < 0) :
    huberCost threshold [0] = -(1 / 2) * threshold ^ 2 := by
  rw [huberCost_of_lt (by rwa [abs_zero]), abs_zero]
  ring

theorem tukeyCost_zero_of_neg {threshold : ℝ} (negative : threshold < 0) :
    tukeyCost threshold [0] = threshold * threshold / 6 :=
  tukeyCost_of_lt (by rwa [abs_zero])

/-- Zero divided by a threshold of zero. -/
theorem square_ratio_zero : Scalar.square (finite 0 / finite 0) = undefined := by
  have ratio : finite 0 / finite 0 = undefined := (if_pos rfl).trans (if_pos rfl)
  rw [ratio]
  rfl

theorem smoothHuberCost_undefined : smoothHuberCost (finite 0) [finite 0] = undefined := by
  unfold smoothHuberCost
  rw [List.map_cons, square_ratio_zero]
  rfl

theorem cauchyCost_undefined : cauchyCost (finite 0) [finite 0] = undefined := by
  unfold cauchyCost
  rw [List.map_cons, square_ratio_zero]
  rfl

theorem tukeyCost_undefined : tukeyCost (finite 0) [finite 0] = undefined := by
  have sizes : [finite 0].map Scalar.abs = [finite 0] := by
    rw [List.map_cons, abs_finite, abs_zero]
    rfl
  have inner : [finite 0].filter (· ≤ finite 0) = [finite 0] := by
    refine List.filter_eq_self.mpr fun size found => decide_eq_true ?_
    rw [List.mem_singleton.mp found]
    exact finite_le_finite.mpr le_rfl
  unfold tukeyCost
  dsimp only
  rw [sizes, inner, List.map_cons, square_ratio_zero, tukeyFactor_finite]
  rfl

end Loss

/-- The parameters that make a loss of this kind a penalty. -/
def LossKind.Admits : LossKind → ℝ → Prop
  | .squared, _ => True
  | .huber, threshold => 0 ≤ threshold
  | .smoothHuber, threshold => threshold ≠ 0
  | .cauchy, threshold => threshold ≠ 0
  | .tukey, threshold => 0 < threshold
  | .reweighted, _ => False

namespace LossChoice

variable {kind : LossKind} {parameter : ℝ} {loss : Loss σ Extended}

theorem isPenalty_of_admits
    (accepted : (⟨kind, finite parameter⟩ : LossChoice Extended).loss = .ok loss)
    (admits : kind.Admits parameter) : loss.IsPenalty := by
  cases kind with
  | reweighted => cases accepted
  | squared =>
      cases accepted
      exact Loss.isPenalty_of_grows
        (fun residuals => Loss.halfSquare_finite (Loss.halfSquare_sum residuals))
        (fun residual rest => by simp) Loss.grows_squared
  | huber =>
      cases accepted
      exact Loss.isPenalty_of_grows
        (fun residuals => congrArg Except.ok (Loss.huberCost_finite parameter residuals))
        (Loss.huberCost_cons parameter) (Loss.grows_huber admits)
  | smoothHuber =>
      cases accepted
      exact Loss.isPenalty_of_grows
        (fun residuals => congrArg Except.ok (Loss.smoothHuberCost_finite admits residuals))
        (Loss.smoothHuberCost_cons parameter) (Loss.grows_smoothHuber admits)
  | cauchy =>
      cases accepted
      exact Loss.isPenalty_of_grows
        (fun residuals => congrArg Except.ok (Loss.cauchyCost_finite admits residuals))
        (Loss.cauchyCost_cons parameter) (Loss.grows_cauchy admits)
  | tukey =>
      cases accepted
      exact Loss.isPenalty_of_grows
        (fun residuals => congrArg Except.ok (Loss.tukeyCost_finite (ne_of_gt admits) residuals))
        (Loss.tukeyCost_cons parameter) (Loss.grows_tukey admits)

/-- A single residual of zero tells. -/
theorem admits_of_isPenalty
    (accepted : (⟨kind, finite parameter⟩ : LossChoice Extended).loss = .ok loss)
    (penalty : loss.IsPenalty) : kind.Admits parameter := by
  have free := penalty.cost_zero
  cases kind with
  | reweighted => cases accepted
  | squared => trivial
  | huber =>
      cases accepted
      by_contra beyond
      have negative : parameter < 0 := not_le.mp beyond
      have level := (Loss.huberCost_finite parameter [0]).symm.trans (Except.ok.inj free)
      rw [Loss.huberCost_zero_of_neg negative] at level
      have none := Extended.finite.inj level
      nlinarith [sq_pos_of_neg negative]
  | smoothHuber =>
      cases accepted
      rintro rfl
      cases Loss.smoothHuberCost_undefined.symm.trans (Except.ok.inj free)
  | cauchy =>
      cases accepted
      rintro rfl
      cases Loss.cauchyCost_undefined.symm.trans (Except.ok.inj free)
  | tukey =>
      cases accepted
      obtain negative | rfl | positive := lt_trichotomy parameter 0
      · have level := (Loss.tukeyCost_finite negative.ne [0]).symm.trans (Except.ok.inj free)
        rw [Loss.tukeyCost_zero_of_neg negative] at level
        have none := Extended.finite.inj level
        nlinarith [sq_pos_of_neg negative]
      · cases Loss.tukeyCost_undefined.symm.trans (Except.ok.inj free)
      · exact positive

/-- A loss that is chosen with a real parameter is a penalty exactly if its kind admits the
parameter: below zero Huber's and Tukey's are none, at zero only Huber's and the squared loss
are. -/
theorem isPenalty_iff (kind : LossKind) (parameter : ℝ) (loss : Loss σ Extended)
    (accepted : (⟨kind, finite parameter⟩ : LossChoice Extended).loss = .ok loss) :
    loss.IsPenalty ↔ kind.Admits parameter :=
  ⟨admits_of_isPenalty accepted, isPenalty_of_admits accepted⟩

/-- A threshold below zero is fine for the loss that only ever squares it. -/
theorem isPenalty_smoothHuber : ∃ loss : Loss Unit Extended,
    (⟨.smoothHuber, finite (-2)⟩ : LossChoice Extended).loss = .ok loss ∧ loss.IsPenalty :=
  ⟨_, rfl, (isPenalty_iff .smoothHuber (-2) _ rfl).mpr (by norm_num [LossKind.Admits])⟩

/-- Huber's loss is accepted with a threshold below zero, and then gains from a residual of
zero. -/
theorem negative_threshold_accepted : ∃ loss : Loss Unit Extended,
    (⟨.huber, finite (-1)⟩ : LossChoice Extended).loss = .ok loss ∧
      loss.costOf (.ofVec [finite 0]) = .ok (finite (-(1 / 2))) ∧ ¬ loss.IsPenalty := by
  have gain : Loss.huberCost (finite (-1)) [finite 0] = finite (-(1 / 2)) := by
    refine (Loss.huberCost_finite (-1) [0]).trans (congrArg finite ?_)
    rw [Loss.huberCost_zero_of_neg (by norm_num)]
    norm_num
  refine ⟨_, rfl, ?_, fun penalty => ?_⟩
  · rw [Loss.costOf_ofVec]
    exact congrArg Except.ok gain
  · have level := gain.symm.trans (Except.ok.inj penalty.cost_zero)
    have none := Extended.finite.inj level
    norm_num at none

end LossChoice

end DampedLeastSquares
