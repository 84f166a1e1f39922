import DampedLeastSquares.Proofs.Descent
import DampedLeastSquares.Proofs.Trial

/-!
# Finite costs

A cost that is not finite ends a start, and it ends a call when it is the cost
of a candidate. Only the cost that is computed again, with the weights that were
chosen for a new state, is stored without a look at it.
-/

set_option autoImplicit false

namespace DampedLeastSquares.Solver

variable {σ α : Type} [Scalar α] [Spectral α]

/-- The call replaced the state by a candidate of finite cost. The weights were then chosen
anew, and with them the cost is not finite. -/
structure Spoils (before : Solver σ α) : Prop where
  updated : before.next.updated = true
  advanced : ∃ cost, Advanced before before.next cost
  reweighted : ¬ before.loss.IsStatic
  costed : before.next.loss.cost before.next.residuals = .ok before.next.cost
  infinite : Scalar.isFinite before.next.cost = false

section Calls

variable [IsStrictOrder α (· < ·)]

omit [IsStrictOrder α (· < ·)] in
theorem Replaced.finite_or_spoils {before : Solver σ α} (replaced : Replaced before before.next) :
    Scalar.isFinite before.next.cost = true ∨ before.Spoils := by
  obtain ⟨cost, advanced, world, changed, world', settles, costed⟩ := replaced.advanced
  cases changed with
  | false =>
      have costed : before.next.cost = cost := costed
      exact .inl (costed ▸ advanced.finite)
  | true =>
      cases finite : Scalar.isFinite before.next.cost with
      | true => exact .inl rfl
      | false =>
          refine .inr ⟨replaced.updated, ⟨cost, advanced⟩, fun static => ?_, costed, finite⟩
          cases (static.settled settles).1

theorem next_finite_iff {before : Solver σ α} (finite : Scalar.isFinite before.cost = true) :
    Scalar.isFinite before.next.cost = true ↔ ¬ before.Spoils := by
  constructor
  · intro stays spoils
    cases stays.symm.trans spoils.infinite
  · intro sound
    rcases before.next_outcome with kept | replaced | ⟨fault, torn⟩
    · obtain ⟨_, same, _⟩ := place_eq_iff.mp kept.place
      rwa [same]
    · exact replaced.finite_or_spoils.resolve_right sound
    · -- a torn call leaves the cost of its candidate, which was found finite
      exact torn.advanced.finite

theorem afterCalls_finite_iff {started : Solver σ α}
    (finite : Scalar.isFinite started.cost = true) (calls : Nat) :
    (∀ count ≤ calls, Scalar.isFinite (started.afterCalls count).cost = true) ↔
      ∀ count < calls, ¬ (started.afterCalls count).Spoils := by
  constructor
  · intro stays count less
    exact (next_finite_iff (stays count less.le)).mp (stays (count + 1) less)
  · intro sound count
    induction count with
    | zero => exact fun _ => finite
    | succ count previous =>
        intro less
        exact (next_finite_iff (previous (Nat.le_of_lt less))).mpr (sound count less)

end Calls

/-- After a successful start all costs of a run are finite exactly if none of its calls spoils
the cost. Then the minimum that is found has a finite cost. A candidate whose cost is not finite
ends the call. -/
theorem cost_finite_iff [IsStrictOrder α (· < ·)] (idle started : Solver σ α) (point : Vec α)
    (options : RunOptions α)
    (success : (start point options.costTolerance? options.gradientTolerance?).run idle =
      (.ok (), started)) (calls : Nat) :
    ((∀ count ≤ calls, Scalar.isFinite (started.afterCalls count).cost = true) ↔
        ∀ count < calls, ¬ (started.afterCalls count).Spoils) ∧
      (∀ residuals cost, (started.afterCalls calls).Evaluates residuals →
        (started.afterCalls calls).loss.cost residuals = .ok cost →
        Scalar.isFinite cost = false →
          (started.afterCalls calls).answer = .error (.breakdown (.candidateCost cost))) ∧
      ∀ found final, (minimize point options).run idle = (.ok found, final) →
        (∀ count < options.limit, ¬ (started.afterCalls count).Spoils) →
          Scalar.isFinite found.cost = true := by
  obtain ⟨_, _, _, finite, _⟩ := (start_leaves idle point _ _).of_run_ok success
  refine ⟨afterCalls_finite_iff finite calls, fun residuals cost => call_breaks_down, ?_⟩
  intro found final ended sound
  obtain ⟨count, less, rfl⟩ := minimize_calls success ended
  exact (afterCalls_finite_iff finite options.limit).mpr sound count less

/-- A search without damping over one parameter, which is the first residual while the other is
one. The weights are the reciprocals of the residuals. -/
def reciprocalSearch : Solver Unit Float :=
  ⟨.whole, .whole (WholeNormal.create .elimination),
    { Settings.standard with initialDamping := 0.0 }, Loss.reweighted WeightRule.reciprocal.choose,
    some ⟨fun x => pure (.vector (x ++ [1.0])), fun _ =>
      pure (.whole (.matrix (.dense (.ofFn 2 1 fun row _ => if row = 0 then 1.0 else 0.0))))⟩,
    (), false, [], .differentiate, 0, 0, false, [], [], [], [], [], 0.0, [], [], [], [], [], 0.0,
    initialGrowth⟩

def twoCalls : RunOptions Float := ⟨2, some 1.0, none⟩

/-- Until it takes a step, the search has a finite cost. -/
theorem cost_finite_iff_reciprocal :
    ((start [1.0] (some 1.0) none).run reciprocalSearch).1.isOk = true ∧
      ((∀ count ≤ 1, Scalar.isFinite
          (((start [1.0] (some 1.0) none).run reciprocalSearch).2.afterCalls count).cost = true) ↔
        ∀ count < 1,
          ¬ (((start [1.0] (some 1.0) none).run reciprocalSearch).2.afterCalls count).Spoils) := by
  have success : ((start [1.0] (some 1.0) none).run reciprocalSearch).1.isOk = true := by
    decide +kernel
  exact ⟨success,
    (cost_finite_iff reciprocalSearch _ [1.0] twoCalls (run_of_isOk success) 1).1⟩

/-- The step to zero makes the first weight infinite, and the cost undefined. -/
theorem minimum_not_finite :
    ¬ ∀ (idle final : Solver Unit Float) (point : Vec Float) (options : RunOptions Float)
      (found : Minimum Float), (minimize point options).run idle = (.ok found, final) →
        Scalar.isFinite found.cost = true := by
  intro finite
  have spoiled : (match ((minimize [1.0] twoCalls).run reciprocalSearch).1 with
      | .ok found => Scalar.isFinite found.cost
      | .error _ => true) = false := by decide +kernel
  rcases ran : (minimize [1.0] twoCalls).run reciprocalSearch with ⟨fault | found, final⟩
  · rw [ran] at spoiled
    cases spoiled
  · rw [ran] at spoiled
    cases (finite _ _ _ _ _ ran).symm.trans spoiled

end DampedLeastSquares.Solver
