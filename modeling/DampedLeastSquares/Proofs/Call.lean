import Mathlib.Order.Defs.Unbundled
import DampedLeastSquares.Proofs.Run

/-!
# Calls, part by part

Each part of a call is described once: what it may change, when it finds a
candidate, and which faults it can end in. A fault leaves parameters, cost and
residuals where they were, as does every trial that is not an improvement.
-/

set_option autoImplicit false

namespace DampedLeastSquares.Solver

variable {σ α : Type} [Scalar α]

section Step

variable [Spectral α] (solver : Solver σ α)

theorem computeStep_stepped (damping : α) (gradient out : Vec α) :
    Ensures (computeStep damping gradient out) solver
      (fun _ after => Stepped solver after)
      fun fault after => Stepped solver after ∧ solver.NoAlarm fault := by
  unfold computeStep
  rw [ensures_bind, ensures_get, ensures_bind, ensures_attempt]
  refine ⟨fun diagonal filled => ?_, fun fault failed =>
    ⟨⟨_, _, _, rfl⟩, noAlarm_of_ordinary (ordinary_fit _) failed⟩⟩
  rw [ensures_bind, ensures_modify, ensures_bind, ensures_changeNormal]
  refine ⟨fun normal changed => ?_, fun fault normal failed => ⟨⟨_, _, _, rfl⟩,
    noAlarm_of_ordinary (NormalMatrix.ordinary_setDiagonal _ _) (congrArg Prod.fst failed)⟩⟩
  rw [ensures_bind, ensures_get, ensures_bind, ensures_attempt]
  refine ⟨fun (prepared, failure?) done => ?_, fun fault failed => ⟨⟨_, _, _, rfl⟩,
    noAlarm_of_ordinary (NormalMatrix.ordinary_prepare _) failed⟩⟩
  rw [ensures_bind, ensures_modify]
  cases failure? with
  | some failure =>
      rw [ensures_bind, ensures_report, ensures_pure]
      exact ⟨_, _, _, rfl⟩
  | none =>
      rw [ensures_bind, ensures_attempt]
      refine ⟨fun (solution, failure?) solved => ?_, fun fault failed => ⟨⟨_, _, _, rfl⟩,
        noAlarm_of_ordinary (NormalMatrix.ordinary_solve _ _ _) failed⟩⟩
      cases failure? with
      | some failure =>
          rw [ensures_bind, ensures_report, ensures_pure]
          exact ⟨_, _, _, rfl⟩
      | none => exact ⟨_, _, _, rfl⟩

end Step

/-! ## Evaluating a candidate -/

/-- The residual function answered at `x`, and stretched to the number of residuals
at hand its answer is `residuals`. -/
def Measured (solver : Solver σ α) (x residuals : Vec α) : Prop :=
  ∃ problem before after answer, solver.problem? = some problem ∧
    (problem.residuals x).run before = (.ok answer, after) ∧
    Vec.fill? residuals.length answer.flatten = some residuals

omit [Scalar α] in
theorem Measured.of_problem {before after : Solver σ α} {x residuals : Vec α}
    (measured : before.Measured x residuals) (same : after.problem? = before.problem?) :
    after.Measured x residuals := by
  obtain ⟨found, world, left, answer, given, ran, filled⟩ := measured
  exact ⟨found, world, left, answer, same.trans given, ran, filled⟩

omit [Scalar α] in
theorem problem_found (solver : Solver σ α) :
    Ensures problem solver
      (fun found after => after = solver ∧ solver.problem? = some found)
      fun fault after => after = solver ∧ solver.NoAlarm fault := by
  unfold problem
  rw [ensures_bind, ensures_get]
  split
  · exact ⟨rfl, .inl nofun⟩
  · exact ⟨rfl, .inl nofun⟩
  · next given _ => exact ⟨rfl, given⟩

omit [Scalar α] in
theorem problem_run {solver : Solver σ α} (defined : solver.form ≠ .undefined)
    {found : Problem σ α} (given : solver.problem? = some found) :
    problem.run solver = (.ok found, solver) := by
  unfold problem
  rw [run_get_bind, given]
  cases form : solver.form with
  | undefined => exact (defined form).elim
  | whole => rfl
  | split => rfl

/-- What evaluating a candidate may change. -/
def Examined (before after : Solver σ α) : Prop :=
  ∃ world candidate candidateResiduals, after = { before with
    world := world, candidate := candidate, candidateResiduals := candidateResiduals }

omit [Scalar α] in
theorem Examined.weighed {before after : Solver σ α} (examined : Examined before after) :
    Weighed before after := by
  obtain ⟨_, _, _, rfl⟩ := examined
  exact ⟨_, _, _, _, _, _, rfl⟩

/-- The candidate lies one step further, if that can be said of the sizes at hand. -/
def Further (solver after : Solver σ α) : Prop :=
  ∀ candidate, Vec.combine? (· + ·) solver.x solver.step = some candidate →
    after.candidate = candidate

theorem evaluateCandidate_examined (solver : Solver σ α) :
    Ensures evaluateCandidate solver
      (fun cost after => Examined solver after ∧ solver.Further after ∧
        Vec.combine? (· + ·) solver.x solver.step = some after.candidate ∧
        after.candidateResiduals.length = solver.candidateResiduals.length ∧
        solver.Measured after.candidate after.candidateResiduals ∧
        solver.loss.cost after.candidateResiduals = .ok cost)
      fun fault after => Examined solver after ∧ solver.Further after ∧ solver.NoAlarm fault := by
  unfold evaluateCandidate
  rw [ensures_bind, ensures_get, ensures_bind, ensures_attempt]
  refine ⟨fun candidate combined => ?_, fun fault failed => ⟨⟨_, _, _, rfl⟩,
    fun candidate combined => by (rw [combined] at failed; cases failed),
    noAlarm_of_ordinary (ordinary_fit _) failed⟩⟩
  have combined := of_fit combined
  have further {after : Solver σ α} (same : after.candidate = candidate) :
      solver.Further after := by
    intro other found
    rw [combined] at found
    cases found
    exact same
  rw [ensures_bind, ensures_modify, ensures_bind]
  unfold residualsAt
  rw [ensures_bind]
  refine (problem_found _).mono ?_ fun fault after ⟨same, quiet⟩ => ?_
  · intro found after ended
    obtain ⟨rfl, given⟩ := ended
    rw [ensures_bind, ensures_evaluate]
    refine ⟨fun answer world ran => ?_, fun fault world ran => ⟨⟨_, _, _, rfl⟩,
      further rfl, .inr ⟨found, given, .inl ⟨_, _, congrArg Prod.fst ran⟩⟩⟩⟩
    rw [ensures_pure, ensures_bind, ensures_attempt]
    refine ⟨fun stored filled => ?_, fun fault failed => ⟨⟨_, _, _, rfl⟩,
      further rfl, noAlarm_of_ordinary (ordinary_fit _) failed⟩⟩
    have fits := of_fit filled
    have size := Vec.length_of_fill? fits
    unfold costOf
    rw [ensures_bind, ensures_modify, ensures_bind, ensures_get, ensures_attempt]
    exact ⟨fun cost costed => ⟨⟨_, _, _, rfl⟩, further rfl, combined, size,
        ⟨found, _, _, answer, given, ran, size ▸ fits⟩, costed⟩,
      fun fault failed => ⟨⟨_, _, _, rfl⟩, further rfl,
        noAlarm_of_ordinary (Loss.ordinary_cost _ _) failed⟩⟩
  · cases same
    exact ⟨⟨_, _, _, rfl⟩, further rfl, quiet⟩

/-! ## Judging a candidate -/

/-- What a judgement may change without taking the candidate over. -/
def Judged (before after : Solver σ α) : Prop :=
  ∃ trace damping growth, after = { before with
    trace := trace, damping := damping, growth := growth }

omit [Scalar α] in
theorem Judged.weighed {before after : Solver σ α} (judged : Judged before after) :
    Weighed before after := by
  obtain ⟨_, _, _, rfl⟩ := judged
  exact ⟨_, _, _, _, _, _, rfl⟩

theorem Judged.further {solver before after : Solver σ α} (judged : Judged before after)
    (further : solver.Further before) : solver.Further after := by
  obtain ⟨_, _, _, rfl⟩ := judged
  exact further

theorem lowerDamping_ensures (solver : Solver σ α) (ratio : α) :
    Ensures (lowerDamping ratio) solver
      (fun _ after => ∃ damping, after =
        { solver with damping := damping, growth := initialGrowth })
      fun fault after => after = solver ∧ solver.NoAlarm fault := by
  unfold lowerDamping
  rw [ensures_bind, ensures_attempt]
  refine ⟨fun factor found => ⟨_, rfl⟩, fun fault failed =>
    ⟨rfl, noAlarm_of_ordinary (ordinary_dampingFactor _) failed⟩⟩

theorem reportProgress_ensures (solver : Solver σ α) (candidateCost ratio : α) :
    Ensures (reportProgress candidateCost ratio) solver
      (fun _ after => ∃ trace, after = { solver with trace := trace })
      fun fault after => after = solver ∧ solver.NoAlarm fault := by
  unfold reportProgress
  rw [ensures_bind, ensures_get, ensures_ite]
  refine ⟨fun _ => ?_, fun _ => ⟨_, rfl⟩⟩
  rw [ensures_bind, ensures_attempt]
  exact ⟨fun largest found => ⟨_, rfl⟩, fun fault failed =>
    ⟨rfl, noAlarm_of_ordinary (ordinary_fit _) failed⟩⟩

/-- A line can be printed about the candidate, as there is a gradient entry to print. -/
theorem reportProgress_run {solver : Solver σ α} (steep : solver.gradient ≠ [])
    (candidateCost ratio : α) : ∃ trace, (reportProgress candidateCost ratio).run solver =
      (.ok (), { solver with trace := trace }) := by
  unfold reportProgress
  rw [run_get_bind]
  split
  · obtain ⟨first, rest, found⟩ := List.exists_cons_of_ne_nil steep
    have largest : Vec.maxAbs? solver.gradient = some (rest.foldl
        (fun found entry => Scalar.larger found (Scalar.abs entry)) (Scalar.abs first)) := by
      rw [found]
      rfl
    exact ⟨_, run_attempt_bind_ok (congrArg Fault.fit largest)⟩
  · exact ⟨_, rfl⟩

/-- The candidate took the place of the parameters, the loss settled on its residuals, and its
cost is the one it was judged by unless the loss changed. -/
def TookOver (candidateCost : α) (before after : Solver σ α) : Prop :=
  ∃ loss changed world cost,
    (before.loss.settle before.candidateResiduals).run before.world =
      (.ok (loss, changed), world) ∧
    (if changed then loss.cost before.candidateResiduals = .ok cost else cost = candidateCost) ∧
    after = { before with
      x := before.candidate, candidate := before.x
      residuals := before.candidateResiduals, candidateResiduals := before.residuals
      cost := cost, loss := loss, world := world, phase := .differentiate, updated := true }

/-- The candidate took the place of the parameters at the cost it was judged by, but the loss
could not settle on its residuals. -/
def Interrupted (candidateCost : α) (before : Solver σ α) (fault : Fault α)
    (after : Solver σ α) : Prop :=
  ∃ loss world, before.loss.Unsettled before.candidateResiduals before.world fault loss ∧
    after = { before with
      x := before.candidate, candidate := before.x
      residuals := before.candidateResiduals, candidateResiduals := before.residuals
      cost := candidateCost, loss := loss, world := world }

theorem accept_ends (solver : Solver σ α) (candidateCost : α) :
    Ensures (accept candidateCost) solver
      (fun _ after => TookOver candidateCost solver after)
      fun fault after => Interrupted candidateCost solver fault after := by
  unfold accept settle
  -- state and candidate are exchanged first, so every fault below finds the candidate in place
  rw [ensures_bind, ensures_modify, ensures_bind, ensures_get, ensures_bind, ensures_bind,
    ensures_get, ensures_bind, ensures_evaluate]
  refine ⟨fun (loss, changed) world settled => ?_, fun fault world failed =>
    ⟨_, _, .inl ⟨rfl, world, failed⟩, rfl⟩⟩
  rw [ensures_bind, ensures_modify, ensures_pure, ensures_ite]
  constructor
  · intro anew
    subst anew
    unfold costOf
    rw [ensures_bind, ensures_get, ensures_bind, ensures_bind, ensures_get, ensures_attempt]
    refine ⟨fun cost costed => ?_, fun fault failed =>
      ⟨_, _, .inr ⟨world, settled, failed⟩, rfl⟩⟩
    exact ⟨loss, true, world, cost, settled, costed, rfl⟩
  · intro same
    cases changed with
    | true => exact (same rfl).elim
    | false => exact ⟨loss, false, world, candidateCost, settled, rfl, rfl⟩

/-- What is left of a judgement once the damping was changed. -/
def takeOrDrop (candidateCost ratio previous : α) (improved : Bool) : Action σ α Bool := do
  let solver ← get
  if !Scalar.isFinite solver.damping || !Scalar.isFinite solver.growth then
    throw (.breakdown (.runaway solver.damping solver.growth))
  reportProgress candidateCost ratio
  if improved then
    accept candidateCost
    if (← get).exhausted then return true
    else attempt ((← get).costSettles candidateCost previous)
  else return (← get).exhausted

/-- Of a cost that is lower than before the final test cannot say that it rose. -/
theorem takeOrDrop_ensures [IsStrictOrder α (· < ·)] (solver : Solver σ α)
    (candidateCost ratio previous : α) {improved : Bool}
    (lower : improved = true → candidateCost < previous) (taken : Solver σ α → Prop)
    (broken : Fault α → Solver σ α → Prop)
    (accepts : improved = true → ∀ trace, Ensures (accept candidateCost)
      { solver with trace := trace } (fun _ after => taken after) broken) :
    Ensures (takeOrDrop candidateCost ratio previous improved) solver
      (fun _ after => Judged solver after ∨ improved = true ∧ taken after)
      fun fault after => Judged solver after ∧ solver.NoAlarm fault ∨
        improved = true ∧ broken fault after := by
  unfold takeOrDrop
  rw [ensures_bind, ensures_get, ensures_ite]
  refine ⟨fun _ => ?_, fun _ => ?_⟩
  · rw [ensures_bind, ensures_throw]
    exact .inl ⟨⟨_, _, _, rfl⟩, .inl nofun⟩
  rw [ensures_bind]
  refine (reportProgress_ensures _ _ _).mono ?_ fun fault after ⟨same, quiet⟩ =>
    .inl ⟨same ▸ ⟨_, _, _, rfl⟩, quiet⟩
  intro _ after reported
  obtain ⟨trace, rfl⟩ := reported
  rw [ensures_ite]
  refine ⟨fun better => ?_, fun _ => .inl ⟨_, _, _, rfl⟩⟩
  rw [ensures_bind]
  refine (accepts better trace).mono ?_ fun fault after broken => .inr ⟨better, broken⟩
  intro _ after accepted
  rw [ensures_bind, ensures_get, ensures_ite]
  refine ⟨fun _ => .inr ⟨better, accepted⟩, fun _ => ?_⟩
  rw [ensures_bind, ensures_get, ensures_attempt]
  refine ⟨fun _ _ => .inr ⟨better, accepted⟩, fun fault alarmed => ?_⟩
  -- the cost is lower than before, so the test for a higher one does not fire
  simp only [costSettles, asymm (lower better), if_false] at alarmed
  cases alarmed

theorem judge_ensures [IsStrictOrder α (· < ·)] (solver : Solver σ α)
    (candidateCost actual predicted : α) (taken : Solver σ α → Prop)
    (broken : Fault α → Solver σ α → Prop)
    (accepts : candidateCost < solver.cost → ∀ damping growth trace,
      Ensures (accept candidateCost)
        { solver with damping := damping, growth := growth, trace := trace }
        (fun _ after => taken after) broken) :
    Ensures (judge candidateCost actual predicted) solver
      (fun _ after => Judged solver after ∨ candidateCost < solver.cost ∧ taken after)
      fun fault after => Judged solver after ∧ solver.NoAlarm fault ∨ broken fault after := by
  unfold judge
  rw [ensures_bind, ensures_attempt]
  refine ⟨fun ratio divided => ?_, fun fault broken =>
    .inl ⟨⟨_, _, _, rfl⟩, noAlarm_of_ordinary (ordinary_reductionRatio _ _) broken⟩⟩
  rw [ensures_bind, ensures_get]
  dsimp only
  rw [ensures_ite]
  constructor
  · intro better
    have lower : candidateCost < solver.cost := of_decide_eq_true better
    rw [ensures_bind]
    refine (lowerDamping_ensures _ _).mono ?_ fun fault after ⟨same, quiet⟩ =>
      .inl ⟨same ▸ ⟨_, _, _, rfl⟩, quiet⟩
    intro _ after lowered
    obtain ⟨damping, rfl⟩ := lowered
    refine (takeOrDrop_ensures _ candidateCost ratio _ (fun _ => lower) taken broken
      fun _ trace => accepts lower damping initialGrowth trace).mono ?_ ?_
    · intro _ final ended
      obtain ⟨_, _, _, rfl⟩ | ⟨_, accepted⟩ := ended
      · exact .inl ⟨_, _, _, rfl⟩
      · exact .inr ⟨lower, accepted⟩
    · intro fault final ended
      obtain ⟨⟨_, _, _, rfl⟩, quiet⟩ | ⟨_, halfway⟩ := ended
      · exact .inl ⟨⟨_, _, _, rfl⟩, quiet⟩
      · exact .inr halfway
  · intro worse
    unfold raiseDamping
    rw [ensures_bind, ensures_modify]
    refine (takeOrDrop_ensures _ candidateCost ratio _ (fun better => (worse better).elim) taken
      broken fun better => (worse better).elim).mono ?_ ?_
    · intro _ final ended
      obtain ⟨_, _, _, rfl⟩ | ⟨better, _⟩ := ended
      · exact .inl ⟨_, _, _, rfl⟩
      · exact (worse better).elim
    · intro fault final ended
      obtain ⟨⟨_, _, _, rfl⟩, quiet⟩ | ⟨better, _⟩ := ended
      · exact .inl ⟨⟨_, _, _, rfl⟩, quiet⟩
      · exact (worse better).elim

/-- What is left of a trial once the step is known in the units of the parameters. -/
def consider (predicted : α) : Action σ α Bool := do
  let candidateCost ← evaluateCandidate
  if !Scalar.isFinite candidateCost then
    throw (.breakdown (.candidateCost candidateCost))
  let actual := (← get).cost - candidateCost
  if actual == 0.0 || predicted == 0.0 then
    report [.noReduction (← get).fullSteps]
    return true
  else judge candidateCost actual predicted

/-- A candidate of lower cost, as it is when it is taken over. -/
structure Improves (solver middle : Solver σ α) (cost : α) : Prop where
  further : Vec.combine? (· + ·) solver.x middle.step = some middle.candidate
  size : middle.candidateResiduals.length = solver.candidateResiduals.length
  measured : solver.Measured middle.candidate middle.candidateResiduals
  costed : solver.loss.cost middle.candidateResiduals = .ok cost
  finite : Scalar.isFinite cost = true
  lower : cost < solver.cost

theorem consider_ends [IsStrictOrder α (· < ·)] (solver : Solver σ α) (predicted : α)
    (taken : Solver σ α → Prop) (broken : Fault α → Solver σ α → Prop)
    (accepts : ∀ middle cost, Weighed solver middle → Improves solver middle cost →
      Ensures (accept cost) middle (fun _ after => taken after) broken) :
    Ensures (consider predicted) solver
      (fun _ after => Weighed solver after ∧ solver.Further after ∨ taken after)
      fun fault after => (Weighed solver after ∧ solver.Further after) ∧ solver.NoAlarm fault ∨
        broken fault after := by
  unfold consider
  rw [ensures_bind]
  refine (evaluateCandidate_examined _).mono ?_ fun fault after ⟨examined, further, quiet⟩ =>
    .inl ⟨⟨examined.weighed, further⟩, quiet⟩
  intro cost after ⟨examined, further, combined, size, measured, costed⟩
  have weighed := examined.weighed
  rw [ensures_ite]
  refine ⟨fun _ => .inl ⟨⟨weighed, further⟩, .inl nofun⟩, fun finite => ?_⟩
  have finite : Scalar.isFinite cost = true := by simpa using finite
  rw [ensures_bind, ensures_get, ensures_ite]
  refine ⟨fun _ => .inl ⟨weighed.trans ⟨_, _, _, _, _, _, rfl⟩, further⟩, fun _ => ?_⟩
  refine (judge_ensures after cost _ _ taken broken ?_).mono ?_ ?_
  · intro lower damping growth trace
    obtain ⟨_, _, _, _, _, _, rfl⟩ := weighed
    exact accepts _ _ ⟨_, _, _, _, _, _, rfl⟩ ⟨combined, size, measured, costed, finite, lower⟩
  · intro _ final ended
    obtain judged | ⟨_, accepted⟩ := ended
    · exact .inl ⟨weighed.trans judged.weighed, judged.further further⟩
    · exact .inr accepted
  · intro fault final ended
    obtain ⟨judged, quiet⟩ | halfway := ended
    · refine .inl ⟨⟨weighed.trans judged.weighed, judged.further further⟩, ?_⟩
      obtain ⟨_, _, _, _, _, _, rfl⟩ := weighed
      exact quiet
    · exact .inr halfway

/-! ## Trying a step -/

theorem recoverFromFailure_quadruples (solver : Solver σ α)
    (mixed : (solver.settings.mixture == 0.0) = false) :
    ∃ trace, recoverFromFailure.run solver =
      (.ok (exhausted { solver with damping := solver.damping * 4.0, trace := trace }),
        { solver with damping := solver.damping * 4.0, trace := trace }) := by
  refine ⟨solver.trace ++ [.stepFailed solver.fullSteps (solver.damping * 4.0)], ?_⟩
  unfold recoverFromFailure
  rw [run_get_bind, if_neg (Bool.eq_false_iff.mp mixed)]
  exact run_modify_bind.trans ((run_bind_ok rfl).trans run_get_bind)

theorem recoverFromFailure_ensures (solver : Solver σ α) :
    Ensures recoverFromFailure solver
      (fun _ after => ∃ damping trace, after = { solver with damping := damping, trace := trace })
      fun fault after => after = solver ∧ solver.NoAlarm fault := by
  cases mixed : solver.settings.mixture == 0.0 with
  | true =>
      unfold recoverFromFailure
      rw [ensures_bind, ensures_get, if_pos mixed, ensures_throw]
      exact ⟨rfl, .inl nofun⟩
  | false =>
      obtain ⟨trace, ran⟩ := recoverFromFailure_quadruples solver mixed
      exact ensures_of_ok ran ⟨_, trace, rfl⟩

/-- The part of a trial before residuals are evaluated. It ends in the predicted reduction, or
in nothing where there is no step. -/
def propose [Spectral α] : Action σ α (Option α) := do
  let solver ← get
  let (step, found) ← computeStep solver.damping solver.gradient solver.step
  modify fun solver => { solver with step := step }
  if !found then return none
  else
    let predicted ← attempt ((← get).predictedReduction step)
    let unscaled ← attempt ((← get).unscale step)
    modify fun solver => { solver with step := unscaled }
    return some predicted

/-- The part of a trial after that. -/
def proceed : Option α → Action σ α Bool
  | none => recoverFromFailure
  | some predicted => consider predicted

theorem tryStep_eq [Spectral α] : (tryStep : Action σ α Bool) = propose >>= proceed := by
  unfold tryStep propose
  simp only [bind_assoc]
  refine congrArg _ (funext fun solver => congrArg _ (funext fun (step, found) => ?_))
  refine congrArg _ (funext fun _ => ?_)
  cases found with
  | false => rfl
  | true =>
      simp only [Bool.not_true, Bool.false_eq_true, if_false, bind_assoc, pure_bind]
      rfl

theorem tryStep_run [Spectral α] {solver proposed : Solver σ α} {predicted? : Option α}
    (found : propose.run solver = (.ok predicted?, proposed)) :
    tryStep.run solver = (proceed predicted?).run proposed := by
  rw [tryStep_eq]
  exact run_bind_ok found

/-- What proposing a step may change. -/
def Proposed (before after : Solver σ α) : Prop :=
  ∃ normal trace dampedDiagonal step, after = { before with
    normal := normal, trace := trace, dampedDiagonal := dampedDiagonal, step := step }

omit [Scalar α] in
theorem Proposed.tried {before after : Solver σ α} (proposed : Proposed before after) :
    Tried before after := by
  obtain ⟨_, _, _, _, rfl⟩ := proposed
  exact ⟨_, _, _, _, _, _, _, _, _, rfl⟩

theorem propose_proposed [Spectral α] (solver : Solver σ α) :
    Ensures propose solver
      (fun _ after => Proposed solver after)
      fun fault after => Proposed solver after ∧ solver.NoAlarm fault := by
  unfold propose
  rw [ensures_bind, ensures_get, ensures_bind]
  refine (computeStep_stepped _ _ _ _).mono ?_ ?_
  · rintro ⟨step, found⟩ after ⟨normal, trace, dampedDiagonal, rfl⟩
    rw [ensures_bind, ensures_modify, ensures_ite]
    refine ⟨fun _ => ⟨_, _, _, _, rfl⟩, fun _ => ?_⟩
    rw [ensures_bind, ensures_get, ensures_bind, ensures_attempt]
    refine ⟨fun predicted _ => ?_, fun fault failed => ⟨⟨_, _, _, _, rfl⟩,
      noAlarm_of_ordinary (ordinary_predictedReduction _ _) failed⟩⟩
    rw [ensures_bind, ensures_get, ensures_bind, ensures_attempt]
    exact ⟨fun unscaled _ => ⟨_, _, _, _, rfl⟩, fun fault failed =>
      ⟨⟨_, _, _, _, rfl⟩, noAlarm_of_ordinary (ordinary_unscale _ _) failed⟩⟩
  · rintro fault after ⟨⟨_, _, _, rfl⟩, quiet⟩
    exact ⟨⟨_, _, _, _, rfl⟩, quiet⟩

theorem tryStep_ends [Spectral α] [IsStrictOrder α (· < ·)] (solver : Solver σ α)
    (taken : Solver σ α → Prop) (broken : Fault α → Solver σ α → Prop)
    (accepts : ∀ middle cost, Tried solver middle → Improves solver middle cost →
      Ensures (accept cost) middle (fun _ after => taken after) broken) :
    Ensures tryStep solver (fun _ after => Tried solver after ∨ taken after)
      fun fault after => Tried solver after ∧ solver.NoAlarm fault ∨ broken fault after := by
  rw [tryStep_eq, ensures_bind]
  refine (propose_proposed solver).mono ?_ fun _ _ ⟨proposed, quiet⟩ =>
    .inl ⟨proposed.tried, quiet⟩
  intro predicted? after ⟨normal, trace, dampedDiagonal, step, same⟩
  subst same
  cases predicted? with
  | none =>
      refine (recoverFromFailure_ensures _).mono ?_ ?_
      · intro _ final raised
        obtain ⟨damping, trace, rfl⟩ := raised
        exact .inl ⟨_, _, _, _, _, _, _, _, _, rfl⟩
      · intro fault final stopped
        obtain ⟨rfl, quiet⟩ := stopped
        exact .inl ⟨⟨_, _, _, _, _, _, _, _, _, rfl⟩, quiet⟩
  | some predicted =>
      refine (consider_ends _ predicted taken broken ?_).mono ?_ ?_
      · intro middle cost ⟨_, _, _, _, _, _, same⟩ improves
        cases same
        exact accepts _ _ ⟨_, _, _, _, _, _, _, _, _, rfl⟩ ⟨improves.further, improves.size,
          improves.measured, improves.costed, improves.finite, improves.lower⟩
      · intro _ final ended
        obtain ⟨⟨_, _, _, _, _, _, rfl⟩, _⟩ | accepted := ended
        · exact .inl ⟨_, _, _, _, _, _, _, _, _, rfl⟩
        · exact .inr accepted
      · intro fault final ended
        obtain ⟨⟨⟨_, _, _, _, _, _, rfl⟩, _⟩, quiet⟩ | halfway := ended
        · exact .inl ⟨⟨_, _, _, _, _, _, _, _, _, rfl⟩, quiet⟩
        · exact .inr halfway

/-! ## Computing derivatives -/

theorem lossResiduals_derived (solver : Solver σ α) :
    Ensures lossResiduals solver
      (fun _ after => ∃ lossGradient, after = { solver with lossGradient := lossGradient })
      fun fault after => after = solver ∧ solver.NoAlarm fault := by
  unfold lossResiduals
  rw [ensures_bind, ensures_get, ensures_ite]
  refine ⟨fun _ => ?_, fun _ => ⟨_, rfl⟩⟩
  rw [ensures_bind, ensures_attempt]
  exact ⟨fun slopes _ => ⟨_, rfl⟩, fun fault failed =>
    ⟨rfl, noAlarm_of_ordinary (Loss.ordinary_gradientInto _ _ _) failed⟩⟩

theorem deriveWhole_derived (solver : Solver σ α) (jacobian : Derivative α) :
    Ensures (deriveWhole jacobian) solver
      (fun _ after => Derived solver after)
      fun fault after => Derived solver after ∧ solver.NoAlarm fault := by
  unfold deriveWhole
  split
  · exact ⟨.refl _, .inl nofun⟩
  rw [ensures_bind, ensures_get, ensures_bind, ensures_attempt]
  refine ⟨fun _ _ => ?_, fun fault failed =>
    ⟨.refl _, noAlarm_of_ordinary (ordinary_checkShape _ _ _) failed⟩⟩
  rw [ensures_bind, ensures_changeNormal]
  refine ⟨fun normal _ => ?_, fun fault normal failed => ⟨⟨_, _, _, _, _, _, _, rfl⟩,
    noAlarm_of_ordinary (NormalMatrix.ordinary_update _ _) (congrArg Prod.fst failed)⟩⟩
  rw [ensures_bind]
  refine (lossResiduals_derived _).mono ?_ fun fault after ⟨same, quiet⟩ =>
    ⟨same ▸ ⟨_, _, _, _, _, _, _, rfl⟩, quiet⟩
  intro slopes _ ended
  obtain ⟨lossGradient, rfl⟩ := ended
  rw [ensures_bind, ensures_attempt]
  refine ⟨fun product _ => ?_, fun fault failed => ⟨⟨_, _, _, _, _, _, _, rfl⟩,
    noAlarm_of_ordinary (Operand.ordinary_transposeMul _ _) failed⟩⟩
  rw [ensures_bind, ensures_attempt]
  exact ⟨fun gradient _ => ⟨_, _, _, _, _, _, _, rfl⟩, fun fault failed =>
    ⟨⟨_, _, _, _, _, _, _, rfl⟩, noAlarm_of_ordinary (ordinary_fit _) failed⟩⟩

theorem deriveSplit_derived (solver : Solver σ α) (jacobian : Derivative α) :
    Ensures (deriveSplit jacobian) solver
      (fun _ after => Derived solver after)
      fun fault after => Derived solver after ∧ solver.NoAlarm fault := by
  unfold deriveSplit
  rw [ensures_bind, ensures_attempt]
  refine ⟨fun (left, right) _ => ?_, fun fault failed =>
    ⟨.refl _, noAlarm_of_ordinary (Derivative.ordinary_blocks _) failed⟩⟩
  rw [ensures_bind, ensures_get, ensures_bind, ensures_attempt]
  refine ⟨fun leftWidth _ => ?_, fun fault failed =>
    ⟨.refl _, noAlarm_of_ordinary (Operand.ordinary_width _) failed⟩⟩
  rw [ensures_bind, ensures_attempt]
  refine ⟨fun _ _ => ?_, fun fault failed =>
    ⟨.refl _, noAlarm_of_ordinary (ordinary_checkShape _ _ _) failed⟩⟩
  rw [ensures_bind, ensures_attempt]
  refine ⟨fun _ _ => ?_, fun fault failed =>
    ⟨.refl _, noAlarm_of_ordinary (ordinary_checkShape _ _ _) failed⟩⟩
  rw [ensures_bind, ensures_changeNormal]
  refine ⟨fun normal _ => ?_, fun fault normal failed => ⟨⟨_, _, _, _, _, _, _, rfl⟩,
    noAlarm_of_ordinary (NormalMatrix.ordinary_update _ _) (congrArg Prod.fst failed)⟩⟩
  rw [ensures_bind]
  refine (lossResiduals_derived _).mono ?_ fun fault after ⟨same, quiet⟩ =>
    ⟨same ▸ ⟨_, _, _, _, _, _, _, rfl⟩, quiet⟩
  intro slopes _ ended
  obtain ⟨lossGradient, rfl⟩ := ended
  rw [ensures_bind, ensures_attempt]
  exact ⟨fun gradient _ => ⟨_, _, _, _, _, _, _, rfl⟩, fun fault failed =>
    ⟨⟨_, _, _, _, _, _, _, rfl⟩,
      noAlarm_of_ordinary (SplitNormal.ordinary_gradient _ _ _ _) failed⟩⟩

theorem rescale_derived (solver : Solver σ α) :
    Ensures rescale solver
      (fun _ after => Derived solver after)
      fun fault after => Derived solver after ∧ solver.NoAlarm fault := by
  unfold rescale
  rw [ensures_bind, ensures_get, ensures_bind, ensures_attempt]
  refine ⟨fun diagonal _ => ?_, fun fault failed =>
    ⟨.refl _, noAlarm_of_ordinary (NormalMatrix.ordinary_diagonalInto _ _) failed⟩⟩
  rw [ensures_bind, ensures_modify, ensures_bind, ensures_attempt]
  refine ⟨fun gradient _ => ?_, fun fault failed => ⟨⟨_, _, _, _, _, _, _, rfl⟩,
    noAlarm_of_ordinary (ordinary_fit _) failed⟩⟩
  rw [ensures_bind, ensures_modify, ensures_changeNormal]
  exact ⟨fun normal _ => ⟨_, _, _, _, _, _, _, rfl⟩, fun fault normal failed =>
    ⟨⟨_, _, _, _, _, _, _, rfl⟩,
      noAlarm_of_ordinary (NormalMatrix.ordinary_divide _ _) (congrArg Prod.fst failed)⟩⟩

/-- Keep the diagonal aside, from which each damped one is computed. -/
def keepDiagonal : Action σ α Bool := do
  let solver ← get
  let diagonal ← attempt (solver.normal.diagonalInto solver.plainDiagonal.length)
  modify fun solver => { solver with plainDiagonal := diagonal }
  if !diagonal.allFinite then throw (.breakdown .hessianDiagonal)
  modify fun solver => { solver with phase := .search }
  return false

/-- What is left of computing derivatives once gradient and normal matrix are there. -/
def prepareSearch : Action σ α Bool := do
  let solver ← get
  if !solver.gradient.allFinite then throw (.breakdown .gradient)
  if solver.gradientVanishes solver.gradient then return true
  else
    if solver.settings.rescaling then rescale
    keepDiagonal

theorem keepDiagonal_derived (solver : Solver σ α) :
    Ensures keepDiagonal solver
      (fun _ after => Differenced solver after)
      fun fault after => Derived solver after ∧ solver.NoAlarm fault := by
  unfold keepDiagonal
  rw [ensures_bind, ensures_get, ensures_bind, ensures_attempt]
  refine ⟨fun diagonal _ => ?_, fun fault failed =>
    ⟨.refl _, noAlarm_of_ordinary (NormalMatrix.ordinary_diagonalInto _ _) failed⟩⟩
  rw [ensures_bind, ensures_modify, ensures_ite]
  exact ⟨fun _ => ⟨⟨_, _, _, _, _, _, _, rfl⟩, .inl nofun⟩,
    fun _ => ⟨_, _, _, _, _, _, _, _, rfl⟩⟩

omit [Scalar α] in
/-- What fails in a search in which derivatives were computed fails with that. -/
theorem Derived.ensures {β : Type} {before middle : Solver σ α} {action : Action σ α β}
    {done : β → Solver σ α → Prop} (derived : Derived before middle)
    (ensured : Ensures action middle done
      fun fault after => Derived middle after ∧ middle.NoAlarm fault) :
    Ensures action middle done
      fun fault after => Derived before after ∧ before.NoAlarm fault := by
  refine ensured.mono (fun _ _ ended => ended) ?_
  intro fault after ⟨further, quiet⟩
  refine ⟨derived.trans further, ?_⟩
  obtain ⟨_, _, _, _, _, _, _, rfl⟩ := derived
  exact quiet

theorem prepareSearch_derived (solver : Solver σ α) :
    Ensures prepareSearch solver
      (fun _ after => Differenced solver after)
      fun fault after => Derived solver after ∧ solver.NoAlarm fault := by
  unfold prepareSearch
  rw [ensures_bind, ensures_get, ensures_ite]
  refine ⟨fun _ => ⟨.refl _, .inl nofun⟩, fun _ => ?_⟩
  rw [ensures_ite]
  refine ⟨fun _ => ⟨solver.phase, .refl _⟩, fun _ => ?_⟩
  rw [ensures_ite]
  refine ⟨fun _ => ?_, fun _ => keepDiagonal_derived _⟩
  rw [ensures_bind]
  refine (rescale_derived _).mono (fun _ middle derived => ?_) fun _ _ broken => broken
  exact (derived.ensures (keepDiagonal_derived middle)).mono
    (fun _ _ ended => derived.differenced ended) fun _ _ broken => broken

/-- Compute normal matrix and gradient from a Jacobian in the form of the solver. -/
def derive (form : JacobianForm) (jacobian : Derivative α) : Action σ α Unit :=
  match form with
  | .whole => deriveWhole jacobian
  | .split => deriveSplit jacobian
  | .undefined => throw .undefined

theorem derive_derived (solver : Solver σ α) (form : JacobianForm) (jacobian : Derivative α) :
    Ensures (derive form jacobian) solver
      (fun _ after => Derived solver after)
      fun fault after => Derived solver after ∧ solver.NoAlarm fault := by
  cases form with
  | whole => exact deriveWhole_derived solver jacobian
  | split => exact deriveSplit_derived solver jacobian
  | undefined => exact ⟨.refl _, .inl nofun⟩

theorem updateDerivatives_run (solver : Solver σ α) (defined : solver.form ≠ .undefined)
    {problem : Problem σ α} (given : solver.problem? = some problem) :
    updateDerivatives.run solver = (do
      let jacobian ← evaluate (problem.jacobian solver.x)
      derive solver.form jacobian
      prepareSearch : Action σ α Bool).run solver := by
  have found : Solver.problem.run solver = (.ok problem, solver) := problem_run defined given
  unfold updateDerivatives
  rw [run_get_bind]
  cases form : solver.form with
  | undefined => exact (defined form).elim
  | whole => exact run_bind_ok found
  | split => exact run_bind_ok found

/-- Computing derivatives is refused at once, or the Jacobian is asked for. -/
theorem updateDerivatives_cases (solver : Solver σ α) :
    (∃ fault, updateDerivatives.run solver = (.error fault, solver) ∧ solver.NoAlarm fault) ∨
      ∃ problem, solver.problem? = some problem ∧ updateDerivatives.run solver = (do
        let jacobian ← evaluate (problem.jacobian solver.x)
        derive solver.form jacobian
        prepareSearch : Action σ α Bool).run solver := by
  rcases ran : problem.run solver with ⟨fault | found, after⟩
  · obtain ⟨rfl, quiet⟩ := (problem_found solver).of_run_error ran
    refine .inl ⟨fault, ?_, quiet⟩
    unfold updateDerivatives
    rw [run_get_bind]
    cases form : after.form with
    | undefined =>
        unfold problem at ran
        rw [run_get_bind, form] at ran
        cases ran
        rfl
    | whole => exact run_bind_error ran
    | split => exact run_bind_error ran
  · obtain ⟨rfl, given⟩ := (problem_found solver).of_run_ok ran
    refine .inr ⟨found, given, updateDerivatives_run after (fun form => ?_) given⟩
    unfold problem at ran
    rw [run_get_bind, form] at ran
    cases ran

theorem updateDerivatives_derived (solver : Solver σ α) :
    Ensures updateDerivatives solver
      (fun _ after => Differenced solver after)
      fun fault after => Derived solver after ∧ solver.NoAlarm fault := by
  obtain ⟨fault, ran, quiet⟩ | ⟨problem, given, ran⟩ := updateDerivatives_cases solver
  · exact ensures_of_error ran ⟨.refl _, quiet⟩
  -- the phase changes last, so a fault leaves it as it was
  refine Ensures.of_run_eq ?_ ran
  rw [ensures_bind, ensures_evaluate]
  refine ⟨fun jacobian world ran => ?_, fun fault world ran =>
    ⟨⟨_, _, _, _, _, _, _, rfl⟩, .inr ⟨problem, given, .inr ⟨_, _, congrArg Prod.fst ran⟩⟩⟩⟩
  have asked : Derived solver { solver with world := world } := ⟨_, _, _, _, _, _, _, rfl⟩
  rw [ensures_bind]
  refine (asked.ensures (derive_derived _ _ jacobian)).mono (fun _ middle derived => ?_)
    fun _ _ broken => broken
  have derived := asked.trans derived
  exact (derived.ensures (prepareSearch_derived middle)).mono
    (fun _ _ ended => derived.differenced ended) fun _ _ broken => broken

omit [Scalar α] in
theorem conclude_ensures {solver : Solver σ α} {done : Solver σ α → Prop}
    {failed : Fault α → Solver σ α → Prop} (converged : Bool)
    (still : ∀ phase, done { solver with phase := phase }) :
    Ensures (iterate.conclude converged) solver (fun _ after => done after) failed := by
  unfold iterate.conclude
  rw [ensures_ite]
  refine ⟨fun _ => ?_, fun _ => still solver.phase⟩
  rw [ensures_bind, ensures_modify, ensures_pure]
  exact still _

omit [Scalar α] in
/-- At the end of a call only the phase changes. -/
theorem Leaves.conclude {action : Action σ α Bool} {solver : Solver σ α}
    {kind : Solver σ α → Prop} (leaves : Leaves action solver kind)
    (still : ∀ after phase, kind after → kind { after with phase := phase }) :
    Leaves (action >>= iterate.conclude) solver kind :=
  leaves.bind fun converged after left =>
    conclude_ensures converged fun phase => still after phase left

/-! ## One call in each phase -/

section Phases

variable [Spectral α] {solver : Solver σ α}

theorem iterate_run_differentiate (phase : solver.phase = .differentiate) :
    iterate.run solver = (updateDerivatives >>= iterate.conclude : Action σ α Bool).run
      { solver with updated := false, fullSteps := solver.fullSteps + 1 } := by
  unfold iterate
  rw [run_modify_bind, run_get_bind]
  dsimp only
  split
  · rw [run_modify_bind]
  · next other => cases phase.symm.trans other
  · next other => cases phase.symm.trans other

theorem iterate_run_search (phase : solver.phase = .search) :
    iterate.run solver = (tryStep >>= iterate.conclude : Action σ α Bool).run
      { solver with updated := false, retries := solver.retries + 1 } := by
  unfold iterate
  rw [run_modify_bind, run_get_bind]
  dsimp only
  split
  · next other => cases phase.symm.trans other
  · rw [run_modify_bind]
  · next other => cases phase.symm.trans other

theorem iterate_run_converged (phase : solver.phase = .converged) :
    iterate.run solver = (.ok true, { solver with updated := false }) := by
  unfold iterate
  rw [run_modify_bind, run_get_bind]
  dsimp only
  split
  · next other => cases phase.symm.trans other
  · next other => cases phase.symm.trans other
  · rfl

theorem rests (converged : solver.phase = .converged) :
    solver.answer = .ok true ∧ solver.next = { solver with updated := false } := by
  unfold answer next
  rw [iterate_run_converged converged]
  exact ⟨rfl, rfl⟩

end Phases

end DampedLeastSquares.Solver
