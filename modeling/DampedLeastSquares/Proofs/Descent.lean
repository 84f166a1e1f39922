import DampedLeastSquares.Proofs.FloatOrder
import DampedLeastSquares.Proofs.Outcome
import DampedLeastSquares.Proofs.Start

/-!
# A search only descends

With a static loss, a call replaces the parameters exactly when it says so, and
then the cost is lower. Every other call, whether it returned or not, leaves
parameters, cost and residuals as they were.
-/

set_option autoImplicit false

namespace DampedLeastSquares.Solver

variable {σ α : Type} [Scalar α]

/-- The call replaced the state of the search by a better one and says so. -/
structure Improved (before after : Solver σ α) : Prop where
  updated : after.updated = true
  cost_lt : after.cost < before.cost
  further : Vec.combine? (· + ·) before.x after.step = some after.x
  measured : before.Measured after.x after.residuals
  costed : after.loss.cost after.residuals = .ok after.cost
  static : after.loss.IsStatic
  problem : after.problem? = before.problem?

theorem Replaced.improved {before after : Solver σ α} (replaced : Replaced before after)
    (static : before.loss.IsStatic) : Improved before after := by
  obtain ⟨cost, advanced, _, changed, _, ran, costed⟩ := replaced.advanced
  obtain ⟨rfl, stays, same⟩ := static.settled ran
  have costed : after.cost = cost := costed
  refine ⟨replaced.updated, costed ▸ advanced.lower, advanced.further, advanced.measured, ?_,
    stays, advanced.problem⟩
  rw [same, costed]
  exact advanced.costed

variable [Spectral α] [IsStrictOrder α (· < ·)]

theorem iterate_descends (before : Solver σ α) (static : before.loss.IsStatic) :
    Ensures iterate before
      (fun _ after => Kept before after ∨ Improved before after)
      fun fault after => Kept before after ∧ before.NoAlarm fault := by
  refine before.iterate_ends.mono ?_ ?_
  · intro _ after ended
    obtain kept | replaced := ended
    · exact .inl kept
    · exact .inr (replaced.improved static)
  · intro fault after ended
    obtain ⟨_, kept | torn⟩ := ended
    · exact kept
    · obtain ⟨world, unsettled⟩ := torn.unsettled
      exact (static.not_unsettled unsettled).elim

theorem next_cases (before : Solver σ α) (static : before.loss.IsStatic) :
    (Kept before before.next ∨ Improved before before.next) ∧
      ∀ fault, before.answer = .error fault →
        Kept before before.next ∧ before.NoAlarm fault := by
  have ensured := before.iterate_descends static
  have failing (fault : Fault α) (failed : before.answer = .error fault) :
      Kept before before.next ∧ before.NoAlarm fault :=
    ensured.of_run_error (Prod.ext failed rfl)
  refine ⟨?_, failing⟩
  cases ended : before.answer with
  | ok converged => exact ensured.of_run_ok (Prod.ext ended rfl)
  | error fault => exact .inl (failing fault ended).1

theorem next_static (before : Solver σ α) (static : before.loss.IsStatic) :
    before.next.loss.IsStatic ∧ before.next.problem? = before.problem? := by
  obtain kept | better := (before.next_cases static).1
  · exact ⟨kept.loss ▸ static, kept.problem⟩
  · exact ⟨better.static, better.problem⟩

theorem afterCalls_static (started : Solver σ α) (static : started.loss.IsStatic) (count : Nat) :
    (started.afterCalls count).loss.IsStatic ∧
      (started.afterCalls count).problem? = started.problem? := by
  induction count with
  | zero => exact ⟨static, rfl⟩
  | succ count previous =>
      obtain ⟨static, same⟩ := previous
      obtain ⟨static, still⟩ := next_static _ static
      exact ⟨static, still.trans same⟩

theorem afterCalls_descends (started : Solver σ α) (static : started.loss.IsStatic)
    {earlier later : Nat} (order : earlier ≤ later) :
    (started.afterCalls later).cost = (started.afterCalls earlier).cost ∨
      (started.afterCalls later).cost < (started.afterCalls earlier).cost := by
  induction order with
  | refl => exact .inl rfl
  | step order previous =>
      rename_i later
      obtain kept | better := (next_cases _ (afterCalls_static started static later).1).1
      · have same : (started.afterCalls later).next.cost = (started.afterCalls later).cost :=
          (place_eq_iff.mp kept.place).2.1
        simpa only [afterCalls, same] using previous
      · refine .inr ?_
        obtain same | lower := previous
        · exact same ▸ better.cost_lt
        · exact Trans.trans better.cost_lt lower

/-- What the next call makes of the state of a search, whether it returns or not. -/
structure Descending (before : Solver σ α) : Prop where
  /-- The call says that it replaced the state exactly if it did. -/
  updated_iff : before.next.updated = true ↔ before.next.place ≠ before.place
  cost_lt : before.next.updated = true → before.next.cost < before.cost
  /-- A new state lies one step further, with the residuals and the cost there. -/
  further : before.next.updated = true →
    Vec.combine? (· + ·) before.x before.next.step = some before.next.x ∧
      before.Measured before.next.x before.next.residuals ∧
      before.next.loss.cost before.next.residuals = .ok before.next.cost
  /-- A fault leaves the state as it was. -/
  fault_kept : ∀ fault, before.answer = .error fault → before.next.updated = false

theorem descending (before : Solver σ α) (static : before.loss.IsStatic) :
    before.Descending := by
  obtain ⟨kept | better, faults⟩ := before.next_cases static
  · have still : before.next.updated ≠ true := by simp [kept.updated]
    exact ⟨⟨fun updated => (still updated).elim, fun moved => (moved kept.place).elim⟩,
      fun updated => (still updated).elim, fun updated => (still updated).elim,
      fun _ _ => kept.updated⟩
  · refine ⟨⟨fun _ same => ?_, fun _ => better.updated⟩, fun _ => better.cost_lt,
      fun _ => ⟨better.further, better.measured, better.costed⟩,
      fun fault failed => (faults fault failed).1.updated⟩
    have still : before.next.cost = before.cost := (place_eq_iff.mp same).2.1
    exact irrefl _ (still ▸ better.cost_lt)

/-- After a successful start with a static loss, every call of a run, returning or
not, replaces the state by one of lower cost or leaves it as it is. The cost
never rises along the run, and no call raises the alarm that it did. -/
theorem search_descends (idle started : Solver σ α) (point : Vec α) (cost? gradient? : Option α)
    (success : (start point cost? gradient?).run idle = (.ok (), started))
    (static : idle.loss.IsStatic) (calls : Nat) :
    (started.afterCalls calls).Descending ∧
      (∀ earlier ≤ calls,
        (started.afterCalls calls).cost = (started.afterCalls earlier).cost ∨
          (started.afterCalls calls).cost < (started.afterCalls earlier).cost) ∧
      ((started.afterCalls calls).answer = .error (.breakdown .worseCost) →
        ∃ problem, idle.problem? = some problem ∧ problem.Raises (.breakdown .worseCost)) := by
  have ready := (start_ensures idle point cost? gradient?).of_run_ok success
  obtain ⟨stillStatic, sameProblem⟩ :=
    afterCalls_static started (ready.static static) calls
  refine ⟨descending _ stillStatic, fun earlier order =>
    afterCalls_descends started (ready.static static) order, fun alarmed => ?_⟩
  obtain ⟨_, loud | ⟨problem, given, raises⟩⟩ := (next_cases _ stillStatic).2 _ alarmed
  · exact (loud rfl).elim
  · exact ⟨problem, ready.problem ▸ sameProblem ▸ given, raises⟩

/-- A search that has not started, over parameters that are their own residuals. -/
def identitySearch : Solver Unit Float :=
  ⟨.whole, .whole (WholeNormal.create .elimination), Settings.standard, Loss.squared,
    some ⟨fun x => pure (.vector x), fun _ =>
      pure (.whole (.matrix (.dense (DenseMatrix.rowMatrix [1.0]))))⟩,
    (), false, [], .differentiate, 0, 0, false, [], [], [], [], [], 0.0, [], [], [], [], [],
    0.0, initialGrowth⟩

/-- The second call after a start at one takes its step. -/
theorem search_descends_from_one :
    ((start [1.0] none none).run identitySearch).1.isOk = true ∧
      identitySearch.loss.IsStatic ∧
      (((start [1.0] none none).run identitySearch).2.afterCalls 1).next.updated = true ∧
      (((start [1.0] none none).run identitySearch).2.afterCalls 1).Descending := by
  have success : ((start [1.0] none none).run identitySearch).1.isOk = true := by decide +kernel
  refine ⟨success, trivial, by decide +kernel, ?_⟩
  cases ran : (start [1.0] none none).run identitySearch with
  | mk result started =>
      rw [ran] at success
      cases result with
      | error fault => cases success
      | ok _ => exact (search_descends identitySearch started [1.0] none none ran trivial 1).1

end DampedLeastSquares.Solver
