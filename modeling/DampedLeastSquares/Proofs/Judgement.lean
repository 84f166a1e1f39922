import DampedLeastSquares.Proofs.Progression

/-!
# What a trial that returns came to

A trial that returns found no step, or it judged a candidate. A candidate stalls the search, is
rejected or is accepted, and in each case it is known when the answer is that the search has
converged.
-/

set_option autoImplicit false

namespace DampedLeastSquares.Solver

variable {σ α : Type} [Scalar α]

/-- No reduction was made, or none was predicted. -/
def level (evaluated : Solver σ α) (predicted cost : α) : Bool :=
  evaluated.cost - cost == 0.0 || predicted == 0.0

/-- How a candidate was judged, and when that ends the search. -/
inductive Verdict (evaluated : Solver σ α) (predicted cost : α) (converged : Bool)
    (after : Solver σ α) : Prop where
  | stalled (level : evaluated.level predicted cost = true)
      (judged : Judged evaluated after) (verdict : converged = true)
  | rejected (differs : evaluated.level predicted cost = false)
      (higher : ¬ cost < evaluated.cost) (judged : Judged evaluated after)
      (verdict : converged = after.exhausted)
  | accepted (differs : evaluated.level predicted cost = false) (lower : cost < evaluated.cost)
      (taken : ∃ damping growth trace, TookOver cost
        { evaluated with damping := damping, growth := growth, trace := trace } after)
      (verdict : converged = (after.exhausted ||
        decide (evaluated.cost - cost ≤ after.settings.costTolerance * evaluated.cost)))

theorem takeOrDrop_returns (solver : Solver σ α) (candidateCost ratio previous : α)
    (improved : Bool) :
    Ensures (takeOrDrop candidateCost ratio previous improved) solver
      (fun converged after =>
        (improved = false ∧ Judged solver after ∧ converged = after.exhausted) ∨
          (improved = true ∧
            (∃ trace, TookOver candidateCost { solver with trace := trace } after) ∧
            converged = (after.exhausted || decide (previous - candidateCost ≤
              after.settings.costTolerance * previous))))
      fun _ _ => True := by
  unfold takeOrDrop
  rw [ensures_bind, ensures_get, ensures_ite]
  refine ⟨fun _ => trivial, fun _ => ?_⟩
  rw [ensures_bind]
  refine (reportProgress_ensures _ _ _).mono ?_ fun _ _ _ => trivial
  rintro _ _ ⟨trace, rfl⟩
  rw [ensures_ite]
  refine ⟨fun better => ?_, fun worse => ?_⟩
  · rw [ensures_bind]
    refine (accept_ends _ candidateCost).mono ?_ fun _ _ _ => trivial
    intro _ after taken
    rw [ensures_bind, ensures_get, ensures_ite]
    refine ⟨fun exhausted => ?_, fun within => ?_⟩
    · rw [ensures_pure, exhausted]
      exact .inr ⟨better, ⟨trace, taken⟩, rfl⟩
    · rw [ensures_bind, ensures_get, ensures_attempt]
      refine ⟨fun settles found => ?_, fun _ _ => trivial⟩
      unfold costSettles at found
      split at found
      · cases found
      · cases found
        rw [Bool.not_eq_true] at within
        rw [within, Bool.false_or]
        exact .inr ⟨better, ⟨trace, taken⟩, rfl⟩
  · exact .inl ⟨Bool.not_eq_true _ ▸ worse, ⟨_, _, _, rfl⟩, rfl⟩

/-- A candidate is accepted exactly if its cost is lower. -/
theorem judge_returns (solver : Solver σ α) (candidateCost actual predicted : α) :
    Ensures (judge candidateCost actual predicted) solver
      (fun converged after =>
        (¬ candidateCost < solver.cost ∧ Judged solver after ∧ converged = after.exhausted) ∨
          (candidateCost < solver.cost ∧
            (∃ damping growth trace, TookOver candidateCost
              { solver with damping := damping, growth := growth, trace := trace } after) ∧
            converged = (after.exhausted || decide (solver.cost - candidateCost ≤
              after.settings.costTolerance * solver.cost))))
      fun _ _ => True := by
  unfold judge
  rw [ensures_bind, ensures_attempt]
  refine ⟨fun ratio _ => ?_, fun _ _ => trivial⟩
  rw [ensures_bind, ensures_get]
  dsimp only
  rw [ensures_ite]
  constructor
  · intro better
    have lower : candidateCost < solver.cost := of_decide_eq_true better
    rw [ensures_bind]
    refine (lowerDamping_ensures _ _).mono ?_ fun _ _ _ => trivial
    rintro _ _ ⟨damping, rfl⟩
    refine (takeOrDrop_returns _ _ _ _ _).mono ?_ fun _ _ _ => trivial
    rintro converged after (⟨worse, _⟩ | ⟨_, ⟨trace, taken⟩, verdict⟩)
    · cases better.symm.trans worse
    · exact .inr ⟨lower, ⟨_, _, trace, taken⟩, verdict⟩
  · intro worse
    unfold raiseDamping
    rw [ensures_bind, ensures_modify]
    refine (takeOrDrop_returns _ _ _ _ _).mono ?_ fun _ _ _ => trivial
    rintro converged _ (⟨_, ⟨_, _, _, rfl⟩, verdict⟩ | ⟨better, _⟩)
    · exact .inl ⟨fun lower => worse (decide_eq_true lower), ⟨_, _, _, rfl⟩, verdict⟩
    · exact (worse better).elim

theorem consider_returns {solver evaluated : Solver σ α} {predicted cost : α}
    (ran : evaluateCandidate.run solver = (.ok cost, evaluated)) :
    Ensures (consider predicted) solver
      (fun converged after =>
        Scalar.isFinite cost = true ∧ Verdict evaluated predicted cost converged after)
      fun _ _ => True := by
  unfold consider
  rw [ensures_bind]
  refine ensures_of_ok ran ?_
  rw [ensures_ite]
  refine ⟨fun _ => trivial, fun finite => ?_⟩
  have finite : Scalar.isFinite cost = true := by simpa using finite
  rw [ensures_bind, ensures_get, ensures_ite]
  refine ⟨fun same => ⟨finite, .stalled same ⟨_, _, _, rfl⟩ rfl⟩, fun differs => ?_⟩
  have differs : evaluated.level predicted cost = false := Bool.eq_false_iff.mpr differs
  refine (judge_returns evaluated cost _ predicted).mono ?_ fun _ _ _ => trivial
  rintro converged after (⟨higher, judged, verdict⟩ | ⟨lower, taken, verdict⟩)
  · exact ⟨finite, .rejected differs higher judged verdict⟩
  · exact ⟨finite, .accepted differs lower taken verdict⟩

/-! ## Trials -/

variable [Spectral α]

/-- The next call proposes a step that the reduction is predicted for, and evaluates a candidate of
the given cost. -/
def Reaches (before : Solver σ α) (predicted cost : α) (evaluated : Solver σ α) : Prop :=
  ∃ proposed, propose.run { before with updated := false, retries := before.retries + 1 } =
      (.ok (some predicted), proposed) ∧
    evaluateCandidate.run proposed = (.ok cost, evaluated)

theorem Reaches.unique {before first second : Solver σ α} {predicted predicted' cost cost' : α}
    (reaches : before.Reaches predicted cost first)
    (again : before.Reaches predicted' cost' second) :
    predicted = predicted' ∧ cost = cost' ∧ first = second := by
  obtain ⟨proposed, found, ran⟩ := reaches
  obtain ⟨_, found', ran'⟩ := again
  cases found.symm.trans found'
  cases ran.symm.trans ran'
  exact ⟨rfl, rfl, rfl⟩

/-- What was evaluated is the candidate one step further. -/
theorem Reaches.evaluated {before evaluated : Solver σ α} {predicted cost : α}
    (reaches : before.Reaches predicted cost evaluated) :
    Tried { before with updated := false, retries := before.retries + 1 } evaluated ∧
      Vec.combine? (· + ·) before.x evaluated.step = some evaluated.candidate ∧
      before.Measured evaluated.candidate evaluated.candidateResiduals ∧
      before.loss.cost evaluated.candidateResiduals = .ok cost := by
  obtain ⟨proposed, found, ran⟩ := reaches
  obtain ⟨_, _, _, _, rfl⟩ := (propose_proposed _).of_run_ok found
  obtain ⟨⟨_, _, _, rfl⟩, _, further, _, measured, costed⟩ :=
    (evaluateCandidate_examined _).of_run_ok ran
  exact ⟨⟨_, _, _, _, _, _, _, _, _, rfl⟩, further, measured, costed⟩

/-- What a trial came to, and its answer. -/
inductive Trial (before : Solver σ α) (converged : Bool) (after : Solver σ α) : Prop where
  | stepless {proposed : Solver σ α}
      (found : propose.run { before with updated := false, retries := before.retries + 1 } =
        (.ok none, proposed))
      (tried : Tried { before with updated := false, retries := before.retries + 1 } after)
      (verdict : converged = after.exhausted)
  | judged {predicted cost : α} {evaluated : Solver σ α}
      (reaches : before.Reaches predicted cost evaluated) (finite : Scalar.isFinite cost = true)
      (verdict : Verdict evaluated predicted cost converged after)

theorem tryStep_returns (before : Solver σ α) :
    Ensures tryStep { before with updated := false, retries := before.retries + 1 }
      (Trial before) fun _ _ => True := by
  rcases found : propose.run { before with updated := false, retries := before.retries + 1 } with
    ⟨fault | predicted?, proposed⟩
  · rw [tryStep_eq]
    exact ensures_of_error (run_bind_error found) trivial
  refine Ensures.of_run_eq ?_ (tryStep_run found)
  cases predicted? with
  | none =>
      cases mixed : proposed.settings.mixture == 0.0 with
      | true =>
          unfold proceed recoverFromFailure
          rw [ensures_bind, ensures_get, if_pos mixed]
          exact trivial
      | false =>
          obtain ⟨trace, recovered⟩ := recoverFromFailure_quadruples proposed mixed
          refine ensures_of_ok recovered (.stepless found ?_ rfl)
          obtain ⟨_, _, _, _, rfl⟩ := (propose_proposed _).of_run_ok found
          exact ⟨_, _, _, _, _, _, _, _, _, rfl⟩
  | some predicted =>
      rcases ran : evaluateCandidate.run proposed with ⟨fault | cost, evaluated⟩
      · exact ensures_of_error (run_bind_error ran) trivial
      · refine (consider_returns ran).mono ?_ fun _ _ _ => trivial
        exact fun _ _ ⟨finite, verdict⟩ => .judged ⟨proposed, found, ran⟩ finite verdict

/-- A call that looks for a step and returns leaves what its trial came to, and remembers it if the
search has converged. -/
theorem next_trial {before : Solver σ α} (phase : before.phase = .search) {converged : Bool}
    (returned : before.answer = .ok converged) :
    ∃ tried, Trial before converged tried ∧ before.next = { tried with
      phase := if converged then .converged else tried.phase } := by
  have ensured : Ensures iterate before
      (fun converged after => ∃ tried, Trial before converged tried ∧ after = { tried with
        phase := if converged then .converged else tried.phase })
      fun _ _ => True := by
    refine Ensures.of_run_eq ?_ (iterate_run_search phase)
    rw [ensures_bind]
    refine (tryStep_returns before).mono ?_ fun _ _ _ => trivial
    exact fun converged tried trial => ensures_of_ok (conclude_run converged) ⟨tried, trial, rfl⟩
  exact ensured.of_run_ok (Prod.ext returned rfl)

/-- Only a candidate of lower cost is taken over. -/
theorem reaches_of_updated [IsStrictOrder α (· < ·)] {before : Solver σ α}
    (updated : before.next.updated = true) :
    ∃ predicted cost evaluated, before.Reaches predicted cost evaluated ∧ cost < before.cost := by
  obtain ⟨phase, _, returned, _⟩ := next_of_updated updated
  obtain ⟨tried, trial, same⟩ := next_trial phase returned
  rw [same] at updated
  cases trial with
  | stepless _ tried =>
      obtain ⟨_, _, _, _, _, _, _, _, _, rfl⟩ := tried
      cases updated
  | judged reaches _ verdict =>
      obtain ⟨⟨_, _, _, _, _, _, _, _, _, rfl⟩, _⟩ := reaches.evaluated
      cases verdict with
      | stalled _ judged | rejected _ _ judged =>
          obtain ⟨_, _, _, rfl⟩ := judged
          cases updated
      | accepted _ lower => exact ⟨_, _, _, reaches, lower⟩

end DampedLeastSquares.Solver
