import DampedLeastSquares.Proofs.Descent
import DampedLeastSquares.Proofs.FloatBounds

/-!
# Candidates of lower cost

A candidate of lower cost is accepted, and the damping at most doubles, whatever the reduction was
in terms of the predicted one. The one exception is a reduction so far above the predicted one that
the third power of a finite number is not finite, which is a fault and no acceptance.
-/

set_option autoImplicit false

namespace DampedLeastSquares.Solver

open FloatBounds FloatProducts Quadrupling

variable {σ : Type}

/-! ## The factor of the damping -/

/-- The third power that the factor is made of is not finite, though the number is. -/
def CubeOverflows (ratio : Float) : Prop :=
  (2.0 * ratio - 1.0).isFinite = true ∧ (Scalar.cube (2.0 * ratio - 1.0)).isFinite = false

theorem dampingFactor_overflow {ratio : Float} (overflows : CubeOverflows ratio) :
    dampingFactor ratio = .error .overflow := by
  have finite : Scalar.isFinite (2.0 * ratio - 1.0) = true := overflows.1
  have infinite : Scalar.isFinite (Scalar.cube (2.0 * ratio - 1.0)) = false := overflows.2
  unfold dampingFactor Scalar.cube?
  dsimp only
  rw [finite, infinite]
  rfl

theorem dampingFactor_of_tame {ratio : Float} (stays : ¬ CubeOverflows ratio) :
    dampingFactor ratio =
      .ok (if 1.0 / 3.0 < 1.0 - Scalar.cube (2.0 * ratio - 1.0) then
        1.0 - Scalar.cube (2.0 * ratio - 1.0) else 1.0 / 3.0) := by
  have tame : ¬ (Scalar.isFinite (2.0 * ratio - 1.0) &&
      !Scalar.isFinite (Scalar.cube (2.0 * ratio - 1.0))) = true := by
    simpa using fun finite : Scalar.isFinite (2.0 * ratio - 1.0) = true =>
      Bool.not_eq_false _ ▸ fun infinite => stays ⟨finite, infinite⟩
  unfold dampingFactor Scalar.cube?
  dsimp only
  rw [if_neg tame]

theorem third_within : Within 2 (1.0 / 3.0 : Float).toModel.unpack := by
  have third : (1.0 / 3.0 : Float).toModel.unpack =
      .finite .positive 6004799503160661 (-54) (by decide) := rfl
  rw [third]
  refine ⟨⟨by decide, ?_, by decide, .inl ?_⟩, by norm_num [size]⟩
  · exact ((Nat.log2_eq_iff (by decide)).mpr ⟨by norm_num, by norm_num⟩).le
  · exact (Nat.log2_eq_iff (by decide)).mpr ⟨by norm_num, by norm_num⟩

/-- Whatever is found is positive and at most two. -/
theorem dampingFactor_within {ratio factor : Float} (nonneg : 0.0 ≤ ratio)
    (found : dampingFactor ratio = .ok factor) :
    0.0 < factor ∧ Within 2 factor.toModel.unpack := by
  have stays : ¬ CubeOverflows ratio := fun overflows =>
    nomatch (dampingFactor_overflow overflows).symm.trans found
  have bounded := cube_bounded (sub_one_bounded (zero_le_two_mul nonneg))
  have third : (0.0 : Float) < 1.0 / 3.0 := by decide +kernel
  rw [dampingFactor_of_tame stays] at found
  cases found
  split
  · next least =>
    have positive : 0.0 < 1.0 - Scalar.cube (2.0 * ratio - 1.0) := Trans.trans third least
    exact ⟨positive, one_sub_within bounded (zero_le_of_pos positive)⟩
  · exact ⟨third, third_within⟩

/-- A reduction of up to `10 ^ 100` times the predicted one has its cube. -/
theorem not_cubeOverflows {ratio : Float} (nonneg : 0.0 ≤ ratio) (small : ratio ≤ 1.0e100) :
    ¬ CubeOverflows ratio := by
  have limited : Within (2 ^ (333 : Int)) ratio.toModel.unpack :=
    (within_of_le nonneg small unpack_limit).mono (size_lt 53 280 (by norm_num)).le
  have two : Within (2 ^ (1 : Int)) (2.0 : Float).toModel.unpack :=
    ⟨canonical_two, (size_power 1).le⟩
  have doubled : Within (2 ^ (334 : Int)) (2.0 * ratio).toModel.unpack :=
    mul_within_power two limited (by decide) (by decide)
  have less : Within (2 ^ (334 : Int)) (2.0 * ratio - 1.0).toModel.unpack := by
    rw [← size_power] at doubled ⊢
    refine sub_one_within (zero_le_two_mul nonneg) doubled (canonical_power _ (by decide))
      (by decide) ?_
    rw [size_power]
    exact one_le_zpow₀ one_le_two (by decide)
  have cube := mul_within_power (mul_within_power less less (by decide) (by decide)) less
    (by decide) (by decide)
  intro overflows
  have infinite : (Scalar.cube (2.0 * ratio - 1.0)).toModel.unpack.isFinite = false := overflows.2
  exact nomatch infinite.symm.trans cube.isFinite

/-! ## Judging a candidate -/

/-- The candidate took the place of the parameters, and the damping at most doubled. -/
structure Accepted (candidateCost : Float) (before after : Solver σ Float) : Prop where
  x : after.x = before.candidate
  candidate : after.candidate = before.x
  residuals : after.residuals = before.candidateResiduals
  candidateResiduals : after.candidateResiduals = before.residuals
  cost : after.cost = candidateCost
  updated : after.updated = true
  phase : after.phase = .differentiate
  growth : after.growth = 2.0
  nonneg : 0.0 ≤ after.damping
  damping_le : after.damping ≤ before.damping * 2.0

/-- A line is to be printed about a candidate, but there is no gradient entry to print. -/
def Unreportable (solver : Solver σ Float) : Prop :=
  solver.verbose = true ∧ solver.gradient = []

/-- With a static loss, nothing but parameters, residuals and cost changes with the acceptance. -/
theorem accept_static (solver : Solver σ Float) (static : solver.loss.IsStatic)
    (candidateCost : Float) :
    Ensures (accept candidateCost) solver
      (fun _ after => ∃ loss world, after = { solver with
        x := solver.candidate, candidate := solver.x
        residuals := solver.candidateResiduals, candidateResiduals := solver.residuals
        cost := candidateCost, loss := loss, world := world
        phase := .differentiate, updated := true })
      fun _ _ => False := by
  refine (accept_ends solver candidateCost).mono ?_ ?_
  · rintro _ _ ⟨loss, changed, world, cost, settled, costed, rfl⟩
    obtain ⟨rfl, _, _⟩ := static.settled settled
    cases costed
    exact ⟨loss, world, rfl⟩
  · rintro _ _ ⟨_, _, unsettled, _⟩
    exact static.not_unsettled unsettled

theorem reportProgress_reportable {solver : Solver σ Float} (reportable : ¬ solver.Unreportable)
    (candidateCost ratio : Float) : ∃ trace,
      (reportProgress candidateCost ratio).run solver = (.ok (), { solver with trace := trace }) := by
  by_cases loud : solver.verbose = true
  · exact reportProgress_run (fun flat => reportable ⟨loud, flat⟩) _ _
  · unfold reportProgress
    rw [run_get_bind, if_neg loud]
    exact ⟨_, rfl⟩

/-- What is left of a judgement once the damping was lowered. -/
theorem takeOrDrop_accepts (solver : Solver σ Float) (static : solver.loss.IsStatic)
    (finite : solver.damping.isFinite = true) (finite' : solver.growth.isFinite = true)
    {candidateCost previous : Float} (lower : candidateCost < previous) (ratio : Float)
    {improved : Bool} (better : improved = true) :
    Ensures (takeOrDrop candidateCost ratio previous improved) solver
      (fun _ after => ¬ solver.Unreportable ∧ ∃ trace loss world, after = { solver with
        x := solver.candidate, candidate := solver.x
        residuals := solver.candidateResiduals, candidateResiduals := solver.residuals
        cost := candidateCost, loss := loss, world := world, trace := trace
        phase := .differentiate, updated := true })
      fun _ _ => solver.Unreportable := by
  have tame : ¬ (!Scalar.isFinite solver.damping || !Scalar.isFinite solver.growth) = true := by
    rw [show Scalar.isFinite solver.damping = true from finite,
      show Scalar.isFinite solver.growth = true from finite']
    exact nofun
  unfold takeOrDrop
  rw [ensures_bind, ensures_get, if_neg tame, ensures_bind]
  by_cases unreportable : solver.Unreportable
  · obtain ⟨loud, flat⟩ := id unreportable
    unfold reportProgress
    rw [ensures_bind, ensures_get, if_pos loud, ensures_bind, ensures_attempt, flat]
    exact ⟨nofun, fun _ _ => unreportable⟩
  obtain ⟨trace, reported⟩ := reportProgress_reportable unreportable candidateCost ratio
  refine ensures_of_ok reported ?_
  rw [if_pos better, ensures_bind]
  refine (accept_static { solver with trace := trace } static candidateCost).mono ?_
    fun _ _ broken => broken.elim
  rintro _ _ ⟨loss, world, rfl⟩
  rw [ensures_bind, ensures_get, ensures_ite]
  refine ⟨fun _ => ⟨unreportable, trace, loss, world, rfl⟩, fun _ => ?_⟩
  rw [ensures_bind, ensures_get, ensures_attempt]
  refine ⟨fun _ _ => ⟨unreportable, trace, loss, world, rfl⟩, fun fault alarmed => ?_⟩
  -- the cost is lower than before, so the test for a higher one does not fire
  have settles : ¬ previous < candidateCost := asymm lower
  simp only [costSettles, settles, if_false] at alarmed
  cases alarmed

theorem isFinite_initialGrowth : (initialGrowth : Float).isFinite = true := by decide +kernel

section Judged

variable {solver : Solver σ Float} {candidateCost predicted : Float}

theorem judge_lower (static : solver.loss.IsStatic) (finite : solver.cost.isFinite = true)
    (nonneg : 0.0 ≤ solver.damping) (below : solver.damping < dampingLimit)
    (finite' : candidateCost.isFinite = true) (lower : candidateCost < solver.cost)
    (finite'' : predicted.isFinite = true) (positive : 0.0 < predicted) :
    Ensures (judge candidateCost (solver.cost - candidateCost) predicted) solver
      (fun _ after => ¬ CubeOverflows ((solver.cost - candidateCost) / predicted) ∧
        ¬ solver.Unreportable ∧ Accepted candidateCost solver after)
      fun fault after => CubeOverflows ((solver.cost - candidateCost) / predicted) ∧
          fault = .overflow ∧ after = solver ∨
        ¬ CubeOverflows ((solver.cost - candidateCost) / predicted) ∧ solver.Unreportable := by
  have ratio_nonneg : 0.0 ≤ (solver.cost - candidateCost) / predicted :=
    zero_le_div (zero_le_sub finite finite' lower) positive finite''
  have formed : reductionRatio (solver.cost - candidateCost) predicted =
      .ok ((solver.cost - candidateCost) / predicted) := by
    unfold reductionRatio
    rw [beq_zero_of_pos positive]
    rfl
  have better : decide (candidateCost < solver.cost) = true := decide_eq_true lower
  unfold judge
  rw [ensures_bind]
  refine ensures_of_ok (congrArg (·, solver) formed) ?_
  rw [ensures_bind, ensures_get]
  dsimp only
  rw [if_pos better]
  unfold lowerDamping
  by_cases overflows : CubeOverflows ((solver.cost - candidateCost) / predicted)
  · refine ensures_of_error (run_bind_error
      (run_attempt_bind_error (dampingFactor_overflow overflows))) ?_
    exact .inl ⟨overflows, rfl, rfl⟩
  obtain ⟨factor_pos, within⟩ := dampingFactor_within ratio_nonneg (dampingFactor_of_tame overflows)
  obtain ⟨damping_nonneg, damping_le, damping_finite⟩ :=
    mul_le_double nonneg (isFinite_double nonneg below) factor_pos within
  rw [ensures_bind]
  refine ensures_of_ok ((run_attempt_bind_ok (dampingFactor_of_tame overflows)).trans rfl) ?_
  refine (takeOrDrop_accepts { solver with
    damping := solver.damping * _, growth := initialGrowth } static damping_finite
    isFinite_initialGrowth lower _ better).mono ?_ fun _ _ unreportable => .inr ⟨overflows, unreportable⟩
  rintro _ _ ⟨reportable, trace, loss, world, rfl⟩
  exact ⟨overflows, reportable, ⟨rfl, rfl, rfl, rfl, rfl, rfl, rfl, rfl, damping_nonneg, damping_le⟩⟩

/-- A candidate of lower cost is accepted unless the third power for the damping is not finite, or
no line can be printed about it. Up to `10 ^ 100` times the predicted reduction the power is. -/
theorem judge_lower_cost (static : solver.loss.IsStatic) (finite : solver.cost.isFinite = true)
    (nonneg : 0.0 ≤ solver.damping) (below : solver.damping < dampingLimit)
    (finite' : candidateCost.isFinite = true) (lower : candidateCost < solver.cost)
    (finite'' : predicted.isFinite = true) (positive : 0.0 < predicted) :
    (CubeOverflows ((solver.cost - candidateCost) / predicted) →
      (judge candidateCost (solver.cost - candidateCost) predicted).run solver =
        (.error .overflow, solver)) ∧
    ((solver.cost - candidateCost) / predicted ≤ 1.0e100 →
      ¬ CubeOverflows ((solver.cost - candidateCost) / predicted)) ∧
    ((∃ fault, ((judge candidateCost (solver.cost - candidateCost) predicted).run solver).1 =
        .error fault) ↔
      CubeOverflows ((solver.cost - candidateCost) / predicted) ∨ solver.Unreportable) ∧
    ∀ converged after,
      (judge candidateCost (solver.cost - candidateCost) predicted).run solver =
        (.ok converged, after) → Accepted candidateCost solver after := by
  have ensured := judge_lower static finite nonneg below finite' lower finite'' positive
  have ratio_nonneg : 0.0 ≤ (solver.cost - candidateCost) / predicted :=
    zero_le_div (zero_le_sub finite finite' lower) positive finite''
  refine ⟨?_, not_cubeOverflows ratio_nonneg, ?_, fun _ _ ran => (ensured.of_run_ok ran).2.2⟩
  all_goals
    rcases ran : (judge candidateCost (solver.cost - candidateCost) predicted).run solver with
      ⟨fault | converged, after⟩
  · obtain ⟨_, rfl, rfl⟩ | ⟨stays, _⟩ := ensured.of_run_error ran
    · exact fun _ => rfl
    · exact fun overflows => (stays overflows).elim
  · exact fun overflows => ((ensured.of_run_ok ran).1 overflows).elim
  · refine ⟨fun _ => ?_, fun _ => ⟨fault, rfl⟩⟩
    exact (ensured.of_run_error ran).imp (·.1) (·.2)
  · obtain ⟨stays, reportable, _⟩ := ensured.of_run_ok ran
    refine ⟨?_, fun faulty => (faulty.elim stays reportable).elim⟩
    rintro ⟨_, failed⟩
    cases failed

end Judged

/-- A search over a parameter that is its own residual, started at one. -/
@[irreducible] def startedAtOne : Solver Unit Float :=
  ((start [1.0] none none).run identitySearch).2

theorem startedAtOne_static : startedAtOne.loss.IsStatic := by
  have success : ((start [1.0] none none).run identitySearch).1.isOk = true := by decide +kernel
  rcases ran : (start [1.0] none none).run identitySearch with ⟨fault | _, started⟩
  · rw [ran] at success
    cases success
  · have same : startedAtOne = started := by
      unfold startedAtOne
      rw [ran]
    rw [same]
    exact ((start_ensures identitySearch _ _ _).of_run_ok ran).static trivial

theorem startedAtOne_ready : startedAtOne.cost.isFinite = true ∧ 0.0 ≤ startedAtOne.damping ∧
    startedAtOne.damping < dampingLimit ∧ 0.0 < startedAtOne.cost :=
  ⟨by decide +kernel, by decide +kernel, by decide +kernel, by decide +kernel⟩

/-- With a reduction as predicted the candidate is accepted, with one far above it is not. -/
theorem judge_lower_cost_at_one :
    (∃ converged after, (judge 0.0 (startedAtOne.cost - 0.0) 0.5).run startedAtOne =
        (.ok converged, after) ∧ Accepted 0.0 startedAtOne after) ∧
      (judge 0.0 (startedAtOne.cost - 0.0) 1.0e-200).run startedAtOne =
        (.error .overflow, startedAtOne) := by
  obtain ⟨finite, nonneg, below, lower⟩ := startedAtOne_ready
  have finite' : (0.0 : Float).isFinite = true := by decide +kernel
  have judged (predicted : Float) (finite'' : predicted.isFinite = true)
      (positive : 0.0 < predicted) :=
    judge_lower_cost startedAtOne_static finite nonneg below finite' lower finite'' positive
  constructor
  · obtain ⟨_, _, _, accepts⟩ := judged 0.5 (by decide +kernel) (by decide +kernel)
    have success : ((judge 0.0 (startedAtOne.cost - 0.0) 0.5).run startedAtOne).1.isOk = true := by
      decide +kernel
    rcases ran : (judge 0.0 (startedAtOne.cost - 0.0) 0.5).run startedAtOne with
      ⟨fault | converged, after⟩
    · rw [ran] at success
      cases success
    · exact ⟨converged, after, rfl, accepts converged after ran⟩
  · refine (judged 1.0e-200 (by decide +kernel) (by decide +kernel)).1 ⟨?_, ?_⟩
    · decide +kernel
    · decide +kernel

/-- Not every judgement of a candidate of lower cost ends without a fault. -/
theorem lower_cost_overflows :
    ¬ ∀ (solver : Solver Unit Float) (candidateCost predicted : Float),
      solver.loss.IsStatic → solver.cost.isFinite = true → 0.0 ≤ solver.damping →
      solver.damping < dampingLimit → candidateCost.isFinite = true →
      candidateCost < solver.cost → predicted.isFinite = true → 0.0 < predicted →
      ∃ converged after, (judge candidateCost (solver.cost - candidateCost) predicted).run solver =
        (.ok converged, after) ∧ Accepted candidateCost solver after := by
  intro accepts
  obtain ⟨finite, nonneg, below, lower⟩ := startedAtOne_ready
  have failure : ((judge 0.0 (startedAtOne.cost - 0.0) 1.0e-200).run startedAtOne).1.isOk =
      false := by decide +kernel
  obtain ⟨_, _, ran, _⟩ := accepts startedAtOne 0.0 1.0e-200 startedAtOne_static finite nonneg below
    (by decide +kernel) lower (by decide +kernel) (by decide +kernel)
  rw [ran] at failure
  cases failure

end DampedLeastSquares.Solver
