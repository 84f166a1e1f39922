import Mathlib
import DampedLeastSquares.Proofs.Call
import DampedLeastSquares.Proofs.Exact.Real

/-!
# What a trial comes to

In exact arithmetic a trial ends in one of a few ways. It finds no step, and the
damping is raised for that; it compares the costs of two points, and the damping
is raised or lowered by the outcome; or it ends early and leaves the damping as
it was.
-/

set_option autoImplicit false

namespace DampedLeastSquares.Solver

open Exact

variable {σ : Type} {solver : Solver σ ℝ}

/-! ## Damping -/

theorem initialGrowth_eq : (initialGrowth : ℝ) = 2 := literal_two

theorem dampingLimit_pos : 0 < (dampingLimit : ℝ) := by
  change (0 : ℝ) < 1.0e100
  norm_num

theorem exhausted_eq (solver : Solver σ ℝ) :
    solver.exhausted = decide (dampingLimit ≤ solver.damping) := by
  simp [exhausted]

/-- The factor by which an improvement lowers the damping, or raises it. -/
noncomputable def factor (ratio : ℝ) : ℝ := max (1 - (2 * ratio - 1) ^ 3) (1 / 3)

theorem dampingFactor_eq (ratio : ℝ) : dampingFactor ratio = .ok (factor ratio) := by
  unfold dampingFactor factor Scalar.cube? Scalar.cube
  simp only [literal_one, literal_two, literal_three, isFinite_eq, Bool.not_true, Bool.and_false,
    Bool.false_eq_true, if_false]
  congr 1
  have power : (2 * ratio - 1) * (2 * ratio - 1) * (2 * ratio - 1) = (2 * ratio - 1) ^ 3 := by ring
  rw [power]
  split
  · next less => exact (max_eq_left less.le).symm
  · next least => exact (max_eq_right (not_lt.mp least)).symm

/-- A reduction that is at least the predicted one lowers the damping by as much as any does. -/
theorem factor_of_one_le {ratio : ℝ} (good : 1 ≤ ratio) : factor ratio = 1 / 3 := by
  have least : 1 ≤ 2 * ratio - 1 := by linarith
  have power : 1 ≤ (2 * ratio - 1) ^ 3 := one_le_pow₀ least
  exact max_eq_right (by linarith)

theorem reductionRatio_eq (actual : ℝ) {predicted : ℝ} (predicts : predicted ≠ 0) :
    reductionRatio actual predicted = .ok (actual / predicted) := by
  unfold reductionRatio
  rw [if_neg]
  rw [beq_iff, literal_zero]
  exact predicts

theorem lowerDamping_run (ratio : ℝ) :
    (lowerDamping ratio).run solver = (.ok (), { solver with
      damping := solver.damping * factor ratio, growth := 2 }) := by
  unfold lowerDamping
  rw [run_attempt_bind_ok (dampingFactor_eq ratio), ← initialGrowth_eq]
  rfl

/-! ## Judgements -/

/-- No damping is out of range, so a judgement is carried out. -/
theorem takeOrDrop_run (cost ratio previous : ℝ) (improved : Bool) :
    (takeOrDrop cost ratio previous improved).run solver = (do
      reportProgress cost ratio
      if improved then
        accept cost
        if (← get).exhausted then return true
        else attempt ((← get).costSettles cost previous)
      else return (← get).exhausted : Action σ ℝ Bool).run solver := by
  unfold takeOrDrop
  rw [run_get_bind, if_neg (by simp)]

/-- A candidate that is no improvement raises the damping by the growth at hand, which doubles. -/
theorem judge_run_of_not_lower (gradient : solver.gradient ≠ []) {cost actual predicted : ℝ}
    (predicts : predicted ≠ 0) (higher : solver.cost ≤ cost) :
    ∃ trace, (judge cost actual predicted).run solver =
      (.ok (decide (dampingLimit ≤ solver.damping * solver.growth)), { solver with
        damping := solver.damping * solver.growth, growth := solver.growth * 2
        trace := trace }) := by
  obtain ⟨trace, reported⟩ := @reportProgress_run σ ℝ _ { solver with
    damping := solver.damping * solver.growth, growth := solver.growth * 2 } gradient cost
    (actual / predicted)
  refine ⟨trace, ?_⟩
  unfold judge
  rw [run_attempt_bind_ok (reductionRatio_eq actual predicts), run_get_bind]
  dsimp only
  rw [decide_eq_false (not_lt.mpr higher), if_neg Bool.false_ne_true]
  unfold raiseDamping
  rw [run_modify_bind, literal_two]
  refine (takeOrDrop_run _ _ _ _).trans ((run_bind_ok reported).trans ?_)
  rw [if_neg Bool.false_ne_true, run_get_bind, exhausted_eq]
  rfl

/-- The search in which a candidate is taken over: the damping was changed, and the candidate was
reported on. -/
noncomputable def eased (solver : Solver σ ℝ) (ratio : ℝ) (trace : List (Event ℝ)) :
    Solver σ ℝ :=
  { solver with damping := solver.damping * factor ratio, growth := 2, trace := trace }

theorem judge_run_of_lower {cost actual predicted : ℝ} (predicts : predicted ≠ 0)
    (lower : cost < solver.cost) :
    (judge cost actual predicted).run solver = (do
      reportProgress cost (actual / predicted)
      accept cost
      if (← get).exhausted then return true
      else attempt ((← get).costSettles cost solver.cost) : Action σ ℝ Bool).run
        (solver.eased (actual / predicted) solver.trace) := by
  unfold judge
  rw [run_attempt_bind_ok (reductionRatio_eq actual predicts), run_get_bind]
  dsimp only
  rw [decide_eq_true lower, if_pos rfl]
  exact (run_bind_ok (lowerDamping_run _)).trans (takeOrDrop_run _ _ _ _)

/-- An improvement changes the damping and is taken over, unless the loss cannot settle on it. -/
theorem judge_ends_of_lower (gradient : solver.gradient ≠ []) {cost actual predicted : ℝ}
    (predicts : predicted ≠ 0) (lower : cost < solver.cost) :
    Ensures (judge cost actual predicted) solver
      (fun _ after => ∃ trace, TookOver cost (solver.eased (actual / predicted) trace) after)
      fun fault after => ∃ trace,
        Interrupted cost (solver.eased (actual / predicted) trace) fault after := by
  obtain ⟨trace, reported⟩ := @reportProgress_run σ ℝ _
    (solver.eased (actual / predicted) solver.trace) gradient cost (actual / predicted)
  refine Ensures.of_run_eq ?_ ((judge_run_of_lower predicts lower).trans (run_bind_ok reported))
  rw [ensures_bind]
  refine (accept_ends _ _).mono ?_ fun fault after interrupted => ⟨trace, interrupted⟩
  intro _ after taken
  rw [ensures_bind, ensures_get, ensures_ite]
  refine ⟨fun _ => ⟨trace, taken⟩, fun _ => ?_⟩
  rw [ensures_bind, ensures_get, ensures_attempt]
  refine ⟨fun _ _ => ⟨trace, taken⟩, fun fault alarmed => ?_⟩
  -- the cost is lower than before, so the test for a higher one does not fire
  rw [costSettles, if_neg (not_lt.mpr lower.le)] at alarmed
  cases alarmed

/-! ## Trials -/

variable [Spectral ℝ]

/-- The search as the next trial finds it. -/
def trying (solver : Solver σ ℝ) : Solver σ ℝ :=
  { solver with updated := false, retries := solver.retries + 1 }

/-- The next call finds no step, and goes on with a higher damping. -/
def Fails (before : Solver σ ℝ) : Prop :=
  before.phase = .search ∧ before.settings.mixture ≠ 0 ∧
    ∃ after, propose.run before.trying = (.ok none, after)

/-- The next call finds a step that the model predicts a reduction for, and reaches a candidate of
the given cost. -/
def Compares (before : Solver σ ℝ) (predicted cost : ℝ) : Prop :=
  before.phase = .search ∧ predicted ≠ 0 ∧ ∃ proposed evaluated,
    propose.run before.trying = (.ok (some predicted), proposed) ∧
    evaluateCandidate.run proposed = (.ok cost, evaluated)

/-- The next call drops a candidate, as its cost is higher. -/
def Rejects (before : Solver σ ℝ) : Prop :=
  ∃ predicted cost, before.Compares predicted cost ∧ before.cost < cost

/-- The next call takes a candidate over, as its cost is lower. -/
def Accepts (before : Solver σ ℝ) : Prop :=
  ∃ predicted cost, before.Compares predicted cost ∧ cost < before.cost

theorem Rejects.searching {before : Solver σ ℝ} (rejects : before.Rejects) :
    before.phase = .search := by
  obtain ⟨_, _, compares, _⟩ := rejects
  exact compares.1

theorem Accepts.searching {before : Solver σ ℝ} (accepts : before.Accepts) :
    before.phase = .search := by
  obtain ⟨_, _, compares, _⟩ := accepts
  exact compares.1

theorem Fails.not_compares {before : Solver σ ℝ} (fails : before.Fails) {predicted cost : ℝ} :
    ¬ before.Compares predicted cost := by
  rintro ⟨_, _, proposed, _, found, _⟩
  obtain ⟨_, _, after, none⟩ := fails
  cases none.symm.trans found

theorem Fails.not_rejects {before : Solver σ ℝ} (fails : before.Fails) : ¬ before.Rejects :=
  fun ⟨_, _, compares, _⟩ => fails.not_compares compares

theorem Fails.not_accepts {before : Solver σ ℝ} (fails : before.Fails) : ¬ before.Accepts :=
  fun ⟨_, _, compares, _⟩ => fails.not_compares compares

/-- There is one candidate to judge. -/
theorem Rejects.not_accepts {before : Solver σ ℝ} (rejects : before.Rejects) :
    ¬ before.Accepts := by
  obtain ⟨_, _, ⟨_, _, _, _, found, ran⟩, higher⟩ := rejects
  rintro ⟨_, _, ⟨_, _, _, _, found', ran'⟩, lower⟩
  cases found.symm.trans found'
  cases ran.symm.trans ran'
  exact lower.asymm higher

omit [Spectral ℝ] in
theorem recoverFromFailure_run (mixed : solver.settings.mixture ≠ 0) :
    ∃ trace, recoverFromFailure.run solver =
      (.ok (decide (dampingLimit ≤ solver.damping * 4)), { solver with
        damping := solver.damping * 4, trace := trace }) := by
  obtain ⟨trace, ran⟩ := recoverFromFailure_quadruples solver
    (Bool.eq_false_iff.mpr (by rwa [ne_eq, beq_iff, literal_zero]))
  rw [literal_four, exhausted_eq] at ran
  exact ⟨trace, ran⟩

omit [Spectral ℝ] in
theorem consider_run_of_ne {predicted cost : ℝ} {evaluated : Solver σ ℝ}
    (ran : evaluateCandidate.run solver = (.ok cost, evaluated)) (predicts : predicted ≠ 0)
    (differs : cost ≠ evaluated.cost) :
    (consider predicted).run solver =
      (judge cost (evaluated.cost - cost) predicted).run evaluated := by
  unfold consider
  rw [run_bind_ok ran, if_neg (by simp), run_get_bind, if_neg]
  simp only [Bool.or_eq_true, beq_iff, literal_zero, not_or]
  exact ⟨sub_ne_zero.mpr differs.symm, predicts⟩

omit [Spectral ℝ] in
theorem consider_run_of_eq {predicted cost : ℝ} {evaluated : Solver σ ℝ}
    (ran : evaluateCandidate.run solver = (.ok cost, evaluated))
    (stalls : predicted = 0 ∨ cost = evaluated.cost) :
    ∃ trace, (consider predicted).run solver =
      (.ok true, { evaluated with trace := trace }) := by
  refine ⟨evaluated.trace ++ [.noReduction evaluated.fullSteps], ?_⟩
  unfold consider
  rw [run_bind_ok ran, if_neg (by simp), run_get_bind, if_pos]
  · exact run_bind_ok rfl
  · simp only [Bool.or_eq_true, beq_iff, literal_zero]
    exact stalls.symm.imp (fun same => sub_eq_zero.mpr same.symm) id

/-! ## What one call does to the damping -/

/-- What a trial has not changed when it judges its candidate. -/
structure Untouched (before after : Solver σ ℝ) : Prop where
  phase : after.phase = before.phase
  damping : after.damping = before.damping
  growth : after.growth = before.growth
  settings : after.settings = before.settings
  gradient : after.gradient = before.gradient
  cost : after.cost = before.cost
  loss : after.loss = before.loss

omit [Spectral ℝ] in
theorem Proposed.untouched {before after : Solver σ ℝ} (proposed : Proposed before.trying after) :
    Untouched before after := by
  obtain ⟨_, _, _, _, rfl⟩ := proposed
  exact ⟨rfl, rfl, rfl, rfl, rfl, rfl, rfl⟩

omit [Spectral ℝ] in
theorem Untouched.examined {before middle after : Solver σ ℝ} (untouched : Untouched before middle)
    (examined : Examined middle after) : Untouched before after := by
  obtain ⟨_, _, _, rfl⟩ := examined
  exact ⟨untouched.phase, untouched.damping, untouched.growth, untouched.settings,
    untouched.gradient, untouched.cost, untouched.loss⟩

theorem Compares.judged {before : Solver σ ℝ} {predicted cost : ℝ}
    (compares : before.Compares predicted cost) (differs : cost ≠ before.cost) :
    ∃ evaluated, Untouched before evaluated ∧ tryStep.run before.trying =
      (judge cost (before.cost - cost) predicted).run evaluated := by
  obtain ⟨_, predicts, proposed, evaluated, found, ran⟩ := compares
  have untouched := ((propose_proposed _).of_run_ok found).untouched.examined
    ((evaluateCandidate_examined _).of_run_ok ran).1
  refine ⟨evaluated, untouched, (tryStep_run found).trans ?_⟩
  rw [← untouched.cost] at differs ⊢
  exact consider_run_of_ne ran predicts differs

/-- The damping and the growth that a call leaves, and whether the search goes on. -/
structure Escalated (raised grown : ℝ) (after : Solver σ ℝ) : Prop where
  damping : after.damping = raised
  growth : after.growth = grown
  phase : after.phase = if dampingLimit ≤ raised then .converged else .search

/-- A trial that returns whether the damping it leaves is beyond the limit. -/
theorem escalated_of_run {before after : Solver σ ℝ} (phase : before.phase = .search)
    {raised grown : ℝ}
    (ran : tryStep.run before.trying = (.ok (decide (dampingLimit ≤ raised)), after))
    (searching : after.phase = .search) (damping : after.damping = raised)
    (growth : after.growth = grown) : Escalated raised grown before.next := by
  have ended := congrArg Prod.snd ((iterate_run_search phase).trans (run_bind_ok ran))
  change before.next = _ at ended
  rw [ended]
  by_cases beyond : dampingLimit ≤ raised
  · rw [decide_eq_true beyond]
    exact ⟨damping, growth, (if_pos beyond).symm⟩
  · rw [decide_eq_false beyond]
    exact ⟨damping, growth, searching.trans (if_neg beyond).symm⟩

/-- Without a step, the damping is multiplied by four and the growth is left alone. -/
theorem next_of_fails {before : Solver σ ℝ} (fails : before.Fails) :
    Escalated (before.damping * 4) before.growth before.next := by
  obtain ⟨phase, mixed, proposed, none⟩ := fails
  have untouched := ((propose_proposed _).of_run_ok none).untouched
  rw [← untouched.settings] at mixed
  obtain ⟨trace, recovered⟩ := recoverFromFailure_run mixed
  rw [← untouched.damping, ← untouched.growth]
  exact escalated_of_run phase ((tryStep_run none).trans recovered) (untouched.phase.trans phase)
    rfl rfl

/-- A rejection multiplies the damping by the growth, and the growth by two. -/
theorem next_of_rejects {before : Solver σ ℝ} (gradient : before.gradient ≠ [])
    (rejects : before.Rejects) :
    Escalated (before.damping * before.growth) (before.growth * 2) before.next := by
  obtain ⟨predicted, cost, compares, higher⟩ := rejects
  obtain ⟨evaluated, untouched, ran⟩ := compares.judged higher.ne'
  have higher' : evaluated.cost ≤ cost := untouched.cost.trans_le higher.le
  rw [← untouched.gradient] at gradient
  obtain ⟨trace, judged⟩ := judge_run_of_not_lower gradient compares.2.1 higher'
  rw [← untouched.damping, ← untouched.growth]
  rw [untouched.cost] at judged
  exact escalated_of_run compares.1 (ran.trans judged) (untouched.phase.trans compares.1) rfl rfl

/-- An improvement multiplies the damping by a factor and sets the growth back, whether or not the
loss can settle on it. If it cannot, the cost is that of the candidate all the same. -/
theorem iterate_ends_of_lower {before : Solver σ ℝ} (gradient : before.gradient ≠ [])
    {predicted cost : ℝ} (compares : before.Compares predicted cost)
    (lower : cost < before.cost) :
    Ensures iterate before
      (fun _ after =>
        (after.damping = before.damping * factor ((before.cost - cost) / predicted) ∧
          after.growth = 2) ∧ after.updated = true ∧ after.phase ≠ .search)
      fun fault after =>
        (after.damping = before.damping * factor ((before.cost - cost) / predicted) ∧
          after.growth = 2) ∧ after.cost = cost ∧
          ∃ residuals world left, before.loss.Unsettled residuals world fault left := by
  obtain ⟨evaluated, untouched, ran⟩ := compares.judged lower.ne
  have lower' : cost < evaluated.cost := lower.trans_eq untouched.cost.symm
  rw [← untouched.gradient] at gradient
  rw [← untouched.damping, ← untouched.loss]
  refine Ensures.of_run_eq ?_ ((iterate_run_search compares.1).trans (run_bind_congr ran))
  rw [ensures_bind]
  refine (judge_ends_of_lower gradient compares.2.1 lower').mono ?_ ?_
  · rintro converged _ ⟨_, _, _, _, _, _, _, rfl⟩
    cases converged with
    | true => exact ⟨⟨rfl, rfl⟩, rfl, nofun⟩
    | false => exact ⟨⟨rfl, rfl⟩, rfl, nofun⟩
  · rintro fault _ ⟨_, left, _, unsettled, rfl⟩
    exact ⟨⟨rfl, rfl⟩, rfl, _, _, left, unsettled⟩

/-- Every other trial leaves damping and growth as they were. -/
theorem next_of_stalls {before : Solver σ ℝ} (phase : before.phase = .search)
    (finds : ¬ before.Fails) (keeps : ¬ before.Rejects) (stays : ¬ before.Accepts) :
    before.next.damping = before.damping ∧ before.next.growth = before.growth ∧
      (before.next.phase = .search ∨ before.next.phase = .converged) := by
  suffices ensured : Ensures (tryStep >>= iterate.conclude) before.trying
      (fun _ after => ∃ tried, Untouched before tried ∧ after = { tried with phase := .converged })
      fun _ after => Untouched before after by
    have either (after : Solver σ ℝ) (untouched : Untouched before after) :
        after.damping = before.damping ∧ after.growth = before.growth ∧
          (after.phase = .search ∨ after.phase = .converged) :=
      ⟨untouched.damping, untouched.growth, .inl (untouched.phase.trans phase)⟩
    unfold next
    refine ((ensured.mono ?_ fun _ => either).of_run_eq (iterate_run_search phase)).leaves
    rintro _ _ ⟨tried, untouched, rfl⟩
    exact ⟨untouched.damping, untouched.growth, .inr rfl⟩
  rw [ensures_bind]
  rcases found : propose.run before.trying with ⟨fault | predicted?, proposed⟩
  · have untouched := ((propose_proposed _).of_run_error found).1.untouched
    refine Ensures.of_run_eq ?_ (congrArg (fun action => action.run before.trying) tryStep_eq)
    exact ensures_of_error (run_bind_error found) untouched
  have untouched := ((propose_proposed _).of_run_ok found).untouched
  refine Ensures.of_run_eq ?_ (tryStep_run found)
  cases predicted? with
  | none =>
      have unmixed : proposed.settings.mixture = 0 := by
        by_contra mixed
        exact finds ⟨phase, untouched.settings ▸ mixed, _, found⟩
      unfold proceed recoverFromFailure
      rw [ensures_bind, ensures_get, if_pos (by rwa [beq_iff, literal_zero]), ensures_throw]
      exact untouched
  | some predicted =>
      rcases ran : evaluateCandidate.run proposed with ⟨fault | cost, evaluated⟩
      · have examined := ((evaluateCandidate_examined _).of_run_error ran).1
        exact ensures_of_error (run_bind_error ran) (untouched.examined examined)
      have examined := ((evaluateCandidate_examined _).of_run_ok ran).1
      have untouched := untouched.examined examined
      have same : predicted = 0 ∨ cost = evaluated.cost := by
        by_contra! differs
        have compares : before.Compares predicted cost :=
          ⟨phase, differs.1, _, _, found, ran⟩
        rw [untouched.cost] at differs
        rcases differs.2.lt_or_gt with lower | higher
        · exact stays ⟨_, _, compares, lower⟩
        · exact keeps ⟨_, _, compares, higher⟩
      obtain ⟨trace, considered⟩ := consider_run_of_eq ran same
      refine ensures_of_ok considered ⟨_, ?_, rfl⟩
      exact ⟨untouched.phase, untouched.damping, untouched.growth, untouched.settings,
        untouched.gradient, untouched.cost, untouched.loss⟩

end DampedLeastSquares.Solver
