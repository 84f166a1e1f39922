import DampedLeastSquares.Proofs.Call

/-!
# What a call comes to

With any loss, a call keeps parameters, cost and residuals, or it replaces all
of them by a candidate of lower cost. There is one way in between: a candidate
is in place already when the loss turns out not to settle on its residuals.
-/

set_option autoImplicit false

namespace DampedLeastSquares.Solver

variable {σ α : Type} [Scalar α]

/-- The call left the state of the search in place and says so. -/
structure Kept (before after : Solver σ α) : Prop where
  place : after.place = before.place
  updated : after.updated = false
  loss : after.loss = before.loss
  problem : after.problem? = before.problem?

omit [Scalar α] in
theorem Kept.of_derived {before middle after : Solver σ α} (derived : Derived middle after)
    (start : Kept before middle) : Kept before after := by
  obtain ⟨_, _, _, _, _, _, _, rfl⟩ := derived
  exact ⟨start.place, start.updated, start.loss, start.problem⟩

omit [Scalar α] in
theorem Kept.of_tried {before middle after : Solver σ α} (tried : Tried middle after)
    (start : Kept before middle) : Kept before after := by
  obtain ⟨_, _, _, _, _, _, _, _, _, rfl⟩ := tried
  exact ⟨start.place, start.updated, start.loss, start.problem⟩

omit [Scalar α] in
theorem Kept.withPhase {before after : Solver σ α} (kept : Kept before after) (phase : Phase) :
    Kept before { after with phase := phase } :=
  ⟨kept.place, kept.updated, kept.loss, kept.problem⟩

/-- The parameters and residuals in place are those of a candidate one step further, which had
the given cost before the loss settled on it. -/
structure Advanced (before after : Solver σ α) (cost : α) : Prop where
  further : Vec.combine? (· + ·) before.x after.step = some after.x
  measured : before.Measured after.x after.residuals
  costed : before.loss.cost after.residuals = .ok cost
  finite : Scalar.isFinite cost = true
  lower : cost < before.cost
  problem : after.problem? = before.problem?

/-- The loss settled on the residuals in place. The cost in place is the given one, unless the
loss changed. -/
def Settled (loss : Loss σ α) (after : Solver σ α) (cost : α) : Prop :=
  ∃ before changed world,
    (loss.settle after.residuals).run before = (.ok (after.loss, changed), world) ∧
      if changed then after.loss.cost after.residuals = .ok after.cost else after.cost = cost

/-- The call replaced the state of the search and says so. -/
structure Replaced (before after : Solver σ α) : Prop where
  updated : after.updated = true
  advanced : ∃ cost, Advanced before after cost ∧ Settled before.loss after cost

/-- Weights that can always be chosen can still be chosen once they were, and the cost in place is
what the loss makes of the residuals in place. -/
theorem Replaced.costed {before after : Solver σ α} (replaced : Replaced before after)
    (chooses : before.loss.Chooses) (weighs : before.loss.Weighs after.residuals.length) :
    after.loss.Chooses ∧ after.loss.Weighs after.residuals.length ∧
      after.loss.cost after.residuals = .ok after.cost := by
  obtain ⟨cost, advanced, world, changed, world', settles, costed⟩ := replaced.advanced
  obtain ⟨settled, _, _, ends, chooses, weighs, _, static⟩ :=
    Loss.settle_ends chooses weighs world
  cases ends.symm.trans settles
  refine ⟨chooses, weighs, ?_⟩
  -- a loss that changed was asked for the cost again, any other has the costs it had
  cases changed with
  | true => exact costed
  | false =>
      obtain ⟨_, _, stillCost⟩ := static (Loss.isStatic_of_settle settles)
      have costed : after.cost = cost := costed
      rw [stillCost, costed]
      exact advanced.costed

theorem Replaced.withPhase {before after : Solver σ α} (replaced : Replaced before after)
    (phase : Phase) : Replaced before { after with phase := phase } := by
  obtain ⟨updated, cost, advanced, settled⟩ := replaced
  exact ⟨updated, cost, ⟨advanced.further, advanced.measured, advanced.costed, advanced.finite,
    advanced.lower, advanced.problem⟩, settled⟩

/-- The call replaced the state of the search and stopped there, because the loss could not
settle on the residuals. It does not say that the state is another one. -/
structure Torn (before after : Solver σ α) (fault : Fault α) : Prop where
  updated : after.updated = false
  advanced : Advanced before after after.cost
  unsettled : ∃ world, before.loss.Unsettled after.residuals world fault after.loss

/-- Weights that can always be chosen are chosen whenever a candidate is taken over. -/
theorem Torn.not_chooses {before after : Solver σ α} {fault : Fault α}
    (torn : Torn before after fault) (weighs : before.loss.Weighs after.residuals.length) :
    ¬ before.loss.Chooses := by
  intro chooses
  obtain ⟨_, unsettled⟩ := torn.unsettled
  exact chooses.not_unsettled weighs unsettled

theorem Torn.place_ne [IsStrictOrder α (· < ·)] {before after : Solver σ α} {fault : Fault α}
    (torn : Torn before after fault) : after.place ≠ before.place := by
  intro same
  have still : after.cost = before.cost := (place_eq_iff.mp same).2.1
  exact irrefl _ (still ▸ torn.advanced.lower)

theorem accept_outcome {before middle : Solver σ α} {cost : α} (kept : Kept before middle)
    (improves : Improves before middle cost) :
    Ensures (accept cost) middle (fun _ after => Replaced before after)
      fun fault after => after.phase = middle.phase ∧ Torn before after fault := by
  have loss := kept.loss
  refine (accept_ends middle cost).mono ?_ ?_
  · intro _ after tookOver
    obtain ⟨loss', changed, world, cost', settled, costed, rfl⟩ := tookOver
    refine ⟨rfl, cost, ⟨improves.further, improves.measured, improves.costed, improves.finite,
      improves.lower, kept.problem⟩, middle.world, changed, world, ?_, costed⟩
    rw [← loss]
    exact settled
  · intro fault after interrupted
    obtain ⟨_, _, unsettled, rfl⟩ := interrupted
    refine ⟨rfl, kept.updated, ⟨improves.further, improves.measured, improves.costed,
      improves.finite, improves.lower, kept.problem⟩, middle.world, ?_⟩
    rw [← loss]
    exact unsettled

variable [Spectral α] [IsStrictOrder α (· < ·)]

theorem iterate_ends (before : Solver σ α) :
    Ensures iterate before
      (fun _ after => Kept before after ∨ Replaced before after)
      fun fault after => after.phase = before.phase ∧
        (Kept before after ∧ before.NoAlarm fault ∨ Torn before after fault) := by
  unfold iterate
  rw [ensures_bind, ensures_modify, ensures_bind, ensures_get]
  split
  · -- derivatives leave parameters, cost and residuals alone, whatever they come to
    rw [ensures_bind, ensures_modify, ensures_bind]
    refine (updateDerivatives_derived _).mono (fun converged middle ⟨_, derived⟩ => ?_) ?_
    · have kept : Kept before middle := .of_derived derived ⟨rfl, rfl, rfl, rfl⟩
      exact conclude_ensures converged fun phase => .inl (kept.withPhase phase)
    · intro fault after ⟨derived, quiet⟩
      have kept : Kept before after := .of_derived derived ⟨rfl, rfl, rfl, rfl⟩
      obtain ⟨_, _, _, _, _, _, _, rfl⟩ := derived
      exact ⟨rfl, .inl ⟨kept, quiet⟩⟩
  · -- a step changes them only by accepting its candidate
    rw [ensures_bind, ensures_modify, ensures_bind]
    refine (tryStep_ends _ (Replaced before)
      (fun fault after => after.phase = before.phase ∧ Torn before after fault) ?_).mono ?_ ?_
    · intro middle cost tried improves
      have kept : Kept before middle := .of_tried tried ⟨rfl, rfl, rfl, rfl⟩
      have phase : middle.phase = before.phase := by
        obtain ⟨_, _, _, _, _, _, _, _, _, rfl⟩ := tried
        rfl
      have improves : Improves before middle cost := ⟨improves.further, improves.size,
        improves.measured, improves.costed, improves.finite, improves.lower⟩
      exact phase ▸ accept_outcome kept improves
    · intro converged middle ended
      refine conclude_ensures converged fun phase => ?_
      obtain tried | replaced := ended
      · have kept : Kept before middle := .of_tried tried ⟨rfl, rfl, rfl, rfl⟩
        exact .inl (kept.withPhase phase)
      · exact .inr (replaced.withPhase phase)
    · intro fault after ended
      obtain ⟨tried, quiet⟩ | ⟨phase, torn⟩ := ended
      · have kept : Kept before after := .of_tried tried ⟨rfl, rfl, rfl, rfl⟩
        obtain ⟨_, _, _, _, _, _, _, _, _, rfl⟩ := tried
        exact ⟨rfl, .inl ⟨kept, quiet⟩⟩
      · exact ⟨phase, .inr torn⟩
  · exact .inl ⟨rfl, rfl, rfl, rfl⟩

theorem next_of_error {before : Solver σ α} {fault : Fault α}
    (failed : before.answer = .error fault) :
    before.next.phase = before.phase ∧
      (Kept before before.next ∧ before.NoAlarm fault ∨ Torn before before.next fault) :=
  before.iterate_ends.of_run_error (Prod.ext failed rfl)

theorem next_outcome (before : Solver σ α) :
    Kept before before.next ∨ Replaced before before.next ∨
      ∃ fault, Torn before before.next fault := by
  cases ended : before.answer with
  | ok converged =>
      have outcome := before.iterate_ends.of_run_ok (Prod.ext ended rfl)
      exact outcome.imp_right .inl
  | error fault =>
      obtain ⟨_, ⟨kept, _⟩ | torn⟩ := next_of_error ended
      · exact .inl kept
      · exact .inr (.inr ⟨fault, torn⟩)

omit [IsStrictOrder α (· < ·)] in
/-- A call that computes derivatives changes nothing but these, the phase and what is counted. -/
theorem next_differenced {before : Solver σ α} (phase : before.phase = .differentiate) :
    Differenced { before with updated := false, fullSteps := before.fullSteps + 1 }
      before.next := by
  have derived : Leaves updateDerivatives { before with
      updated := false, fullSteps := before.fullSteps + 1 } (Differenced { before with
        updated := false, fullSteps := before.fullSteps + 1 }) := by
    refine (updateDerivatives_derived _).mono (fun _ _ differenced => differenced) ?_
    rintro _ _ ⟨⟨_, _, _, _, _, _, _, rfl⟩, _⟩
    exact ⟨_, _, _, _, _, _, _, _, rfl⟩
  refine ((derived.conclude ?_).of_run_eq (iterate_run_differentiate phase)).leaves
  rintro _ _ ⟨_, _, _, _, _, _, _, _, rfl⟩
  exact ⟨_, _, _, _, _, _, _, _, rfl⟩

/-- Only a trial takes anything over. -/
theorem not_torn_of_differentiate {before : Solver σ α} (phase : before.phase = .differentiate)
    {fault : Fault α} : ¬ Torn before before.next fault := by
  intro torn
  obtain ⟨_, _, _, _, _, _, _, _, same⟩ := next_differenced phase
  refine torn.place_ne ?_
  rw [same]
  rfl

/-! ## What stays the same -/

/-- A call leaves the arrangement of a search alone. The loss at most settles. -/
structure Configured (before after : Solver σ α) : Prop where
  form : after.form = before.form
  settings : after.settings = before.settings
  problem : after.problem? = before.problem?
  loss : after.loss = before.loss ∨ ∃ residuals world changed world',
    (before.loss.settle residuals).run world = (.ok (after.loss, changed), world')

omit [Spectral α] [IsStrictOrder α (· < ·)] in
theorem accept_configured {before middle : Solver σ α} {cost : α} (tried : Tried before middle) :
    Leaves (accept cost) middle (Configured before) := by
  obtain ⟨_, _, _, _, _, _, _, _, _, rfl⟩ := tried
  refine (accept_ends _ cost).mono ?_ ?_
  · rintro _ _ ⟨_, _, _, _, settled, _, rfl⟩
    exact ⟨rfl, rfl, rfl, .inr ⟨_, _, _, _, settled⟩⟩
  · rintro fault _ ⟨_, _, ⟨same, _⟩ | ⟨_, settled, _⟩, rfl⟩
    · exact ⟨rfl, rfl, rfl, .inl same⟩
    · exact ⟨rfl, rfl, rfl, .inr ⟨_, _, _, _, settled⟩⟩

theorem next_configured (before : Solver σ α) : Configured before before.next := by
  cases phase : before.phase with
  | differentiate =>
      obtain ⟨_, _, _, _, _, _, _, _, same⟩ := next_differenced phase
      rw [same]
      exact ⟨rfl, rfl, rfl, .inl rfl⟩
  | search =>
      suffices tried : Leaves tryStep
          { before with updated := false, retries := before.retries + 1 } (Configured before) by
        refine ((tried.conclude ?_).of_run_eq (iterate_run_search phase)).leaves
        exact fun _ _ same => ⟨same.form, same.settings, same.problem, same.loss⟩
      have kept {after : Solver σ α} (tried : Tried
          { before with updated := false, retries := before.retries + 1 } after) :
          Configured before after := by
        obtain ⟨_, _, _, _, _, _, _, _, _, rfl⟩ := tried
        exact ⟨rfl, rfl, rfl, .inl rfl⟩
      refine (tryStep_ends _ (fun after => Configured before after)
        (fun _ after => Configured before after) ?_).mono ?_ ?_
      · intro middle cost tried _
        have same (after : Solver σ α) (same : Configured
            { before with updated := false, retries := before.retries + 1 } after) :
            Configured before after := ⟨same.form, same.settings, same.problem, same.loss⟩
        exact (accept_configured tried).mono same
      · exact fun _ _ ended => ended.elim kept id
      · exact fun _ _ ended => ended.elim (fun tried => kept tried.1) id
  | converged =>
      rw [(rests phase).2]
      exact ⟨rfl, rfl, rfl, .inl rfl⟩

theorem afterCalls_configured (started : Solver σ α) (count : Nat) :
    (started.afterCalls count).form = started.form ∧
      (started.afterCalls count).settings = started.settings ∧
      (started.afterCalls count).problem? = started.problem? := by
  induction count with
  | zero => exact ⟨rfl, rfl, rfl⟩
  | succ count previous =>
      obtain ⟨form, settings, problem⟩ := previous
      have same := next_configured (started.afterCalls count)
      exact ⟨same.form.trans form, same.settings.trans settings, same.problem.trans problem⟩

end DampedLeastSquares.Solver
