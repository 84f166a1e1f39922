import DampedLeastSquares.Proofs.Start

/-!
# What is evaluated

A start evaluates residuals at its point, a call at a candidate. What comes
before that is taken for granted here: `Begins` and `Evaluates` say that it went
well and which residuals were found. A cost of these residuals that is not
finite then ends the start or the call.
-/

set_option autoImplicit false

namespace DampedLeastSquares.Solver

variable {σ α : Type}

/-- At `x` the residual function answers, and leaves its state behind. -/
def Answers (solver : Solver σ α) (x : Vec α) (answer : Tensor α) (world : σ) : Prop :=
  solver.form ≠ .undefined ∧ ∃ problem, solver.problem? = some problem ∧
    (problem.residuals x).run solver.world = (.ok answer, world)

theorem residualsAt_run {solver : Solver σ α} {x : Vec α} {answer : Tensor α} {world : σ}
    (answers : solver.Answers x answer world) :
    (residualsAt x).run solver = (.ok answer.flatten, { solver with world := world }) := by
  obtain ⟨defined, found, given, ran⟩ := answers
  have answered : (evaluate (found.residuals x)).run solver =
      (.ok answer, { solver with world := world }) := by
    rw [run_evaluate, ran]
  unfold residualsAt
  rw [run_bind_ok (problem_run defined given), run_bind_ok answered]
  rfl

variable [Scalar α]

/-! ## At the start -/

/-- A start at the point finds the residuals, and the loss settles on them. -/
def Begins (idle : Solver σ α) (point : Vec α) (cost? gradient? : Option α) (residuals : Vec α)
    (settled : Loss σ α) : Prop :=
  ∃ adopted answer world prepared changed after,
    (adoptTolerances cost? gradient?).run idle = (.ok (), adopted) ∧
    idle.Answers point answer world ∧ answer.flatten = residuals ∧
    idle.loss.prepare residuals.length = .ok prepared ∧
    (prepared.settle residuals).run world = (.ok (settled, changed), after)

omit [Scalar α] in
theorem settle_run {solver : Solver σ α} {residuals : Vec α} {settled : Loss σ α}
    {changed : Bool} {after : σ} (settles : (solver.loss.settle residuals).run solver.world =
      (.ok (settled, changed), after)) :
    (settle residuals).run solver =
      (.ok changed, { solver with world := after, loss := settled }) := by
  have settling : (evaluate (solver.loss.settle residuals)).run solver =
      (.ok (settled, changed), { solver with world := after }) := by
    rw [run_evaluate, settles]
  unfold settle
  rw [run_get_bind, run_bind_ok settling]
  rfl

theorem resetResiduals_run {solver : Solver σ α} {answer : Tensor α} {world after : σ}
    {prepared settled : Loss σ α} {changed : Bool}
    (answers : solver.Answers solver.x answer world)
    (ready : solver.loss.prepare answer.flatten.length = .ok prepared)
    (settles : (prepared.settle answer.flatten).run world = (.ok (settled, changed), after)) :
    resetResiduals.run solver = (.ok (), { solver with
      residuals := answer.flatten, candidateResiduals := Vec.zeros answer.flatten.length
      lossGradient := Vec.zeros answer.flatten.length, world := after, loss := settled }) := by
  unfold resetResiduals
  rw [run_get_bind, run_bind_ok (residualsAt_run answers), run_modify_bind, run_get_bind,
    run_attempt_bind_ok ready, run_modify_bind]
  exact run_bind_ok (settle_run settles)

theorem Begins.readied {idle : Solver σ α} {point residuals : Vec α}
    {cost? gradient? : Option α} {settled : Loss σ α}
    (begins : idle.Begins point cost? gradient? residuals settled) :
    idle.loss.Readied residuals settled := by
  obtain ⟨_, _, world, prepared, changed, after, _, _, _, ready, settles⟩ := begins
  exact ⟨prepared, world, changed, after, ready, settles⟩

/-- Once its cost is known, all that a start asks is whether it is finite. -/
theorem Begins.ensures {idle : Solver σ α} {point residuals : Vec α}
    {cost? gradient? : Option α} {settled : Loss σ α} {cost : α}
    (begins : idle.Begins point cost? gradient? residuals settled)
    (costed : settled.cost residuals = .ok cost) {done : Prop} {failed : Fault α → Prop}
    (stops : Scalar.isFinite cost = false → failed (.breakdown (.initialCost cost)))
    (goes : Scalar.isFinite cost = true → done) :
    Ensures (start point cost? gradient?) idle (fun _ _ => done) fun fault _ => failed fault := by
  obtain ⟨adopted, answer, world, prepared, changed, after, adopts, answers, rfl, ready, settles⟩ :=
    begins
  obtain ⟨rfl, _⟩ := (adoptTolerances_ensures idle cost? gradient?).of_run_ok adopts
  obtain ⟨defined, found, given, ran⟩ := answers
  -- all parts before the cost end as they are given
  refine Ensures.of_run_eq ?_ (start_run defined given)
  rw [ensures_bind]
  refine ensures_of_ok adopts ?_
  unfold resetParameters settleStart resetDamping
  rw [ensures_bind, ensures_modify, ensures_bind, ensures_modify, ensures_bind]
  refine ensures_of_ok (resetResiduals_run ⟨defined, found, given, ran⟩ ready settles) ?_
  unfold costOf
  rw [ensures_bind, ensures_get, ensures_bind, ensures_bind, ensures_get]
  dsimp only
  rw [costed, ensures_attempt]
  refine ⟨fun _ same => ?_, fun _ raised => by cases raised⟩
  cases same
  rw [ensures_bind, ensures_modify, ensures_ite]
  refine ⟨fun infinite => stops (by simpa using infinite), fun finite => ?_⟩
  have holds := goes (by simpa using finite)
  rw [ensures_bind, ensures_get, ensures_ite]
  exact ⟨fun _ => holds, fun _ => holds⟩

theorem start_breaks_down {idle : Solver σ α} {point residuals : Vec α}
    {cost? gradient? : Option α} {settled : Loss σ α} {cost : α}
    (begins : idle.Begins point cost? gradient? residuals settled)
    (costed : settled.cost residuals = .ok cost) (infinite : Scalar.isFinite cost = false) :
    ((start point cost? gradient?).run idle).1 = .error (.breakdown (.initialCost cost)) := by
  have breaks : Ensures (start point cost? gradient?) idle (fun _ _ => False)
      fun fault _ => fault = .breakdown (.initialCost cost) :=
    begins.ensures costed (fun _ => rfl) fun finite => nomatch infinite.symm.trans finite
  exact breaks.error

theorem start_succeeds {idle : Solver σ α} {point residuals : Vec α}
    {cost? gradient? : Option α} {settled : Loss σ α} {cost : α}
    (begins : idle.Begins point cost? gradient? residuals settled)
    (costed : settled.cost residuals = .ok cost) (finite : Scalar.isFinite cost = true) :
    ∃ started, (start point cost? gradient?).run idle = (.ok (), started) := by
  have succeeds : Ensures (start point cost? gradient?) idle (fun _ _ => True)
      fun _ _ => False :=
    begins.ensures costed (fun infinite => nomatch infinite.symm.trans finite) fun _ => trivial
  rcases ran : (start point cost? gradient?).run idle with ⟨fault | _, started⟩
  · exact (succeeds.of_run_error ran).elim
  · exact ⟨started, rfl⟩

/-! ## At a candidate -/

/-- The call comes to a candidate and finds the residuals there. -/
def Evaluates [Spectral α] (before : Solver σ α) (residuals : Vec α) : Prop :=
  before.phase = .search ∧ ∃ predicted middle candidate answer world,
    propose.run { before with updated := false, retries := before.retries + 1 } =
      (.ok (some predicted), middle) ∧
    Vec.combine? (· + ·) middle.x middle.step = some candidate ∧
    middle.Answers candidate answer world ∧
    Vec.fill? middle.candidateResiduals.length answer.flatten = some residuals

theorem Evaluates.length_eq [Spectral α] {before : Solver σ α} {residuals : Vec α}
    (evaluates : before.Evaluates residuals) :
    residuals.length = before.candidateResiduals.length := by
  obtain ⟨_, predicted, middle, candidate, answer, world, proposes, _, _, filled⟩ := evaluates
  obtain ⟨_, _, _, _, rfl⟩ := (propose_proposed _).of_run_ok proposes
  exact Vec.length_of_fill? filled

theorem evaluateCandidate_run {solver : Solver σ α} {candidate residuals : Vec α}
    {answer : Tensor α} {world : σ}
    (further : Vec.combine? (· + ·) solver.x solver.step = some candidate)
    (answers : solver.Answers candidate answer world)
    (filled : Vec.fill? solver.candidateResiduals.length answer.flatten = some residuals) :
    evaluateCandidate.run solver = (solver.loss.cost residuals, { solver with
      candidate := candidate, world := world, candidateResiduals := residuals }) := by
  unfold evaluateCandidate
  rw [run_get_bind, further, run_attempt_bind_ok (fit_some candidate), run_modify_bind]
  have answered : (residualsAt candidate).run { solver with candidate := candidate } =
      (.ok answer.flatten, { solver with candidate := candidate, world := world }) :=
    residualsAt_run answers
  rw [run_bind_ok answered, filled, run_attempt_bind_ok (fit_some residuals), run_modify_bind]
  unfold costOf
  rw [run_get_bind, run_attempt]

theorem call_breaks_down [Spectral α] {before : Solver σ α} {residuals : Vec α} {cost : α}
    (evaluates : before.Evaluates residuals) (costed : before.loss.cost residuals = .ok cost)
    (infinite : Scalar.isFinite cost = false) :
    before.answer = .error (.breakdown (.candidateCost cost)) := by
  obtain ⟨phase, predicted, middle, candidate, answer, world, proposes, further, answers, filled⟩ :=
    evaluates
  have same : middle.loss = before.loss := by
    obtain ⟨_, _, _, _, rfl⟩ := (propose_proposed _).of_run_ok proposes
    rfl
  rw [← same] at costed
  have evaluated : evaluateCandidate.run middle = (.ok cost, { middle with
      candidate := candidate, world := world, candidateResiduals := residuals }) := by
    rw [evaluateCandidate_run further answers filled, costed]
  have considered : Ensures (consider predicted) middle (fun _ _ => False)
      fun fault _ => fault = .breakdown (.candidateCost cost) := by
    unfold consider
    rw [ensures_bind]
    refine ensures_of_ok evaluated ?_
    rw [infinite]
    exact rfl
  have tried : Ensures (tryStep >>= iterate.conclude)
      { before with updated := false, retries := before.retries + 1 } (fun _ _ => False)
      fun fault _ => fault = .breakdown (.candidateCost cost) := by
    rw [tryStep_eq, ensures_bind, ensures_bind]
    exact ensures_of_ok proposes (considered.mono (fun _ _ ended => ended.elim)
      fun _ _ ended => ended)
  have called : Ensures iterate before (fun _ _ => False)
      fun fault _ => fault = .breakdown (.candidateCost cost) :=
    tried.of_run_eq (iterate_run_search phase)
  exact called.error

end DampedLeastSquares.Solver
