import DampedLeastSquares.Proofs.Descent
import DampedLeastSquares.Proofs.Sizes

/-!
# What is stored belongs together

Residuals and cost are carried over from one call to the next, never computed
again for the parameters in place. If the residual function depends on the
parameters alone, they stay those of the parameters, whatever the loss does to
its weights in between.
-/

set_option autoImplicit false

namespace DampedLeastSquares

variable {σ α : Type}

/-- At points with the given number of parameters the answers of the residual function, if it
answers, depend on the point alone, and there are as many residuals at each. -/
def Problem.Computes (problem : Problem σ α) (function : Vec α → Vec α)
    (parameters functions : Nat) : Prop :=
  ∀ x : Vec α, x.length = parameters → (function x).length = functions ∧
    ∀ before after answer, (problem.residuals x).run before = (.ok answer, after) →
      answer.flatten = function x

namespace Solver

variable [Scalar α]

/-- The stored residuals and the stored cost are those of the parameters in place, with the
loss as it is, and every buffer for residuals has their number. -/
structure Consistent (solver : Solver σ α) (function : Vec α → Vec α) (functions : Nat) :
    Prop where
  residuals : solver.residuals = function solver.x
  costed : solver.loss.cost solver.residuals = .ok solver.cost
  residuals_length : solver.residuals.length = functions
  candidateResiduals_length : solver.candidateResiduals.length = functions
  lossGradient_length : solver.lossGradient.length = functions

/-- What every call preserves: a consistent search can go on with its functions and its loss. -/
structure Tracks (solver : Solver σ α) (problem : Problem σ α) (function : Vec α → Vec α)
    (parameters functions : Nat) : Prop where
  problem : solver.problem? = some problem
  sized : solver.Sized parameters functions
  residuals : solver.residuals = function solver.x
  costed : solver.loss.cost solver.residuals = .ok solver.cost
  chooses : solver.loss.Chooses
  weighs : solver.loss.Weighs functions

omit [Scalar α] in
theorem Measured.eq_function {solver : Solver σ α} {problem : Problem σ α}
    {function : Vec α → Vec α} {parameters : Nat} {x residuals : Vec α}
    (measured : solver.Measured x residuals) (given : solver.problem? = some problem)
    (computes : problem.Computes function parameters residuals.length)
    (room : x.length = parameters) : residuals = function x := by
  obtain ⟨found, before, after, answer, foundAs, ran, filled⟩ := measured
  cases foundAs.symm.trans given
  obtain ⟨size, answers⟩ := computes x room
  rw [answers before after answer ran, ← size, Vec.fill?_self] at filled
  exact (Option.some.inj filled).symm

section Calls

variable [Spectral α] [IsStrictOrder α (· < ·)] {problem : Problem σ α}
  {function : Vec α → Vec α} {parameters functions : Nat} {solver : Solver σ α}

omit [Spectral α] [IsStrictOrder α (· < ·)] in
theorem Tracks.of_kept {after : Solver σ α}
    (tracks : solver.Tracks problem function parameters functions)
    (sized : after.Sized parameters functions) (kept : Kept solver after) :
    after.Tracks problem function parameters functions := by
  obtain ⟨place, _, loss, same⟩ := kept
  obtain ⟨x, cost, residuals⟩ := place_eq_iff.mp place
  refine ⟨same.trans tracks.problem, sized, ?_, ?_, loss ▸ tracks.chooses, loss ▸ tracks.weighs⟩
  · rw [residuals, x]
    exact tracks.residuals
  · rw [loss, residuals, cost]
    exact tracks.costed

omit [Spectral α] [IsStrictOrder α (· < ·)] in
theorem Tracks.of_replaced {after : Solver σ α}
    (tracks : solver.Tracks problem function parameters functions)
    (computes : problem.Computes function parameters functions)
    (sized : after.Sized parameters functions) (replaced : Replaced solver after) :
    after.Tracks problem function parameters functions := by
  obtain ⟨_, advanced, _⟩ := replaced.advanced
  -- the candidate was measured before it took the place of the parameters
  have same : after.residuals = function after.x :=
    advanced.measured.eq_function tracks.problem (sized.residuals.symm ▸ computes) sized.x
  obtain ⟨chooses, weighs, costed⟩ :=
    replaced.costed tracks.chooses (sized.residuals.symm ▸ tracks.weighs)
  exact ⟨advanced.problem.trans tracks.problem, sized, same, costed, chooses,
    sized.residuals ▸ weighs⟩

omit [IsStrictOrder α (· < ·)] in
/-- The weights can always be chosen, so no call is torn. -/
theorem Tracks.untorn (tracks : solver.Tracks problem function parameters functions)
    (fault : Fault α) : ¬ Torn solver solver.next fault := by
  have sized : solver.next.Sized parameters functions := next_sized tracks.sized
  exact fun torn => torn.not_chooses (sized.residuals.symm ▸ tracks.weighs) tracks.chooses

theorem Tracks.next (tracks : solver.Tracks problem function parameters functions)
    (computes : problem.Computes function parameters functions) :
    solver.next.Tracks problem function parameters functions := by
  have sized : solver.next.Sized parameters functions := next_sized tracks.sized
  rcases solver.next_outcome with kept | replaced | ⟨fault, torn⟩
  · exact tracks.of_kept sized kept
  · exact tracks.of_replaced computes sized replaced
  · exact (tracks.untorn fault torn).elim

theorem Tracks.afterCalls (tracks : solver.Tracks problem function parameters functions)
    (computes : problem.Computes function parameters functions) (count : Nat) :
    (solver.afterCalls count).Tracks problem function parameters functions := by
  induction count with
  | zero => exact tracks
  | succ count previous => exact previous.next computes

omit [Spectral α] [IsStrictOrder α (· < ·)] in
theorem Tracks.consistent (tracks : solver.Tracks problem function parameters functions) :
    solver.Consistent function functions :=
  ⟨tracks.residuals, tracks.costed, tracks.sized.residuals, tracks.sized.candidateResiduals,
    tracks.sized.lossGradient⟩

omit [Spectral α] [IsStrictOrder α (· < ·)] in
theorem tracks_of_start {idle started : Solver σ α} {point : Vec α} {cost? gradient? : Option α}
    (success : (start point cost? gradient?).run idle = (.ok (), started))
    (given : idle.problem? = some problem)
    (computes : problem.Computes function point.length functions)
    (chooses : idle.loss.Chooses) :
    started.Tracks problem function point.length functions := by
  obtain ⟨ready, _, costed, _⟩ := (start_leaves idle point cost? gradient?).of_run_ok success
  obtain ⟨size, answers⟩ := computes point rfl
  have same : started.residuals = function point := by
    obtain ⟨found, before, after, answer, foundAs, ran, flat⟩ := ready.answered
    rw [ready.problem, given] at foundAs
    cases foundAs
    rw [← flat]
    exact answers before after answer ran
  have count : started.residuals.length = functions := by rw [same, size]
  obtain ⟨stillChooses, weighs⟩ := ready.chooses chooses
  exact ⟨ready.problem.trans given, count ▸ ready.sized, by rw [same, ready.x], costed,
    stillChooses, count ▸ weighs⟩

/-- After a successful start and any number of calls, returning or not, the stored residuals
are those of the parameters, the stored cost is what the loss as it is makes of them, and no
buffer for residuals changed its size. -/
theorem run_consistent (idle started : Solver σ α) (point : Vec α) (cost? gradient? : Option α)
    (success : (start point cost? gradient?).run idle = (.ok (), started))
    (given : idle.problem? = some problem)
    (computes : problem.Computes function point.length functions)
    (chooses : idle.loss.Chooses) (calls : Nat) :
    (started.afterCalls calls).Consistent function functions :=
  ((tracks_of_start success given computes chooses).afterCalls computes calls).consistent

end Calls

def reweightedIdentity : Solver Unit Float :=
  identitySearch.setLoss (Loss.reweighted WeightRule.cappedReciprocal.choose)

/-- The second call after a start at four takes its step, and its cost is computed again. -/
theorem run_consistent_from_four :
    ((start [4.0] none none).run reweightedIdentity).1.isOk = true ∧
      (((start [4.0] none none).run reweightedIdentity).2.afterCalls 1).next.updated = true ∧
      (((start [4.0] none none).run reweightedIdentity).2.afterCalls 2).Consistent id 1 := by
  have success : ((start [4.0] none none).run reweightedIdentity).1.isOk = true := by
    decide +kernel
  refine ⟨success, by decide +kernel, ?_⟩
  have computes : Problem.Computes (σ := Unit)
      ⟨fun x => pure (.vector x), fun _ =>
        pure (.whole (.matrix (.dense (DenseMatrix.rowMatrix [1.0]))))⟩ id ([4.0] : Vec Float).length
      1 := by
    intro x size
    refine ⟨size, fun before after answer ran => ?_⟩
    cases ran
    rfl
  exact run_consistent reweightedIdentity _ [4.0] none none (run_of_isOk success) rfl computes
    (WeightRule.chooses _) 2

end Solver

end DampedLeastSquares
