import DampedLeastSquares.Proofs.FloatOrder
import DampedLeastSquares.Proofs.Outcome

/-!
# Calls that end in a fault

Whatever the caller's functions do, a call that ends in a fault keeps the phase
and does not say that it replaced the state. The state itself is kept, except
where the loss could not settle on a candidate: by then the candidate has taken
the place of the parameters.
-/

set_option autoImplicit false

namespace DampedLeastSquares.Solver

variable {σ α : Type} [Scalar α] [Spectral α] [IsStrictOrder α (· < ·)]

omit [IsStrictOrder α (· < ·)] in
theorem answer_of_not_ok {before : Solver σ α} (failed : before.answer.isOk = false) :
    ∃ fault, before.answer = .error fault := by
  cases ended : before.answer with
  | ok converged =>
      rw [ended] at failed
      cases failed
  | error fault => exact ⟨fault, rfl⟩

/-- After a fault, parameters, cost and residuals are those from before the call exactly if the
call was not torn. -/
theorem fault_keeps_state_iff {before : Solver σ α} {fault : Fault α}
    (failed : before.answer = .error fault) :
    before.next.updated = false ∧ before.next.phase = before.phase ∧
      (before.next.place = before.place ↔ ¬ Torn before before.next fault) := by
  obtain ⟨phase, ⟨kept, _⟩ | torn⟩ := next_of_error failed
  · refine ⟨kept.updated, phase, fun same torn => ?_, fun _ => kept.place⟩
    exact torn.place_ne same
  · refine ⟨torn.updated, phase, fun same => ?_, fun whole => ?_⟩
    · exact (torn.place_ne same).elim
    · exact (whole torn).elim

/-- A search over two parameters that are their own residuals, without damping: started at one
and two, it has its derivatives and goes on with weights that it never set up. -/
def unweightedSearch : Solver Unit Float :=
  let plane : Problem Unit Float := ⟨fun x => pure (.vector x), fun _ =>
    pure (.whole (.matrix (.dense (.ofFn 2 2 fun row column =>
      if row = column then 1.0 else 0.0))))⟩
  let idle : Solver Unit Float := ⟨.whole, .whole (WholeNormal.create .elimination),
    { Settings.standard with initialDamping := 0.0 }, Loss.squared, some plane, (), false, [],
    .differentiate, 0, 0, false, [], [], [], [], [], 0.0, [], [], [], [], [], 0.0, initialGrowth⟩
  (((start [1.0, 2.0] none none).run idle).2.afterCalls 1).setLoss
    (Loss.reweighted WeightRule.reciprocal.choose)

theorem unweightedSearch_fails : ∃ fault, unweightedSearch.answer = .error fault :=
  answer_of_not_ok (by decide +kernel)

/-- The step to zero is taken before its weights are chosen, which fails. -/
theorem fault_keeps_state_iff_unweighted :
    ∃ fault, unweightedSearch.answer = .error fault ∧ unweightedSearch.next.updated = false ∧
      unweightedSearch.next.phase = unweightedSearch.phase ∧
      (unweightedSearch.next.place = unweightedSearch.place ↔
        ¬ Torn unweightedSearch unweightedSearch.next fault) := by
  obtain ⟨fault, failed⟩ := unweightedSearch_fails
  exact ⟨fault, failed, fault_keeps_state_iff failed⟩

theorem fault_moves_state :
    ¬ ∀ (before : Solver Unit Float) (fault : Fault Float), before.answer = .error fault →
      before.next.place = before.place ∧ before.next.phase = before.phase ∧
        before.next.updated = false := by
  intro atomic
  obtain ⟨fault, failed⟩ := unweightedSearch_fails
  have lower : unweightedSearch.next.cost < unweightedSearch.cost := by decide +kernel
  have still : unweightedSearch.next.cost = unweightedSearch.cost :=
    (place_eq_iff.mp (atomic unweightedSearch fault failed).1).2.1
  rw [still] at lower
  exact irrefl _ lower

end DampedLeastSquares.Solver
