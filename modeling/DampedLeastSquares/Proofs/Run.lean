import DampedLeastSquares.Loss.Choice
import DampedLeastSquares.Proofs.Action
import DampedLeastSquares.Proofs.Faults
import DampedLeastSquares.Solver.Minimize

/-!
# What one call can do

A call of the search either computes derivatives or tries a step. What each of
them may change is stated once, as the search before with other values in some
fields. Parameters, cost and residuals are written in one place only, where a
candidate of lower cost is taken over.
-/

set_option autoImplicit false

namespace DampedLeastSquares

variable {σ α : Type}

/-- The loss stays as it is when it settles. Only chosen weights change. -/
def Loss.IsStatic (loss : Loss σ α) : Prop :=
  match loss.shape with
  | .reweighted _ _ => False
  | _ => True

/-- Weights that are chosen take the place of the previous ones, so there are as
many of them, and choosing them ends. Other losses choose nothing. -/
def Loss.Chooses (loss : Loss σ α) : Prop :=
  match loss.shape with
  | .reweighted choose _ => ∀ residuals weights world, residuals.length = weights.length →
      ∃ chosen after, (choose residuals weights).run world = (.ok chosen, after) ∧
        chosen.length = weights.length
  | _ => True

/-- Chosen weights are that many. -/
def Loss.Weighs (loss : Loss σ α) (count : Nat) : Prop :=
  match loss.shape with
  | .reweighted _ weights => weights.length = count
  | _ => True

/-- The loss has a weight for each of that many residuals, if it has any. -/
def Loss.Fits (loss : Loss σ α) (count : Nat) : Prop :=
  ∀ weights, loss.weights? = some weights → weights.length = count

theorem Loss.IsStatic.chooses {loss : Loss σ α} (static : loss.IsStatic) : loss.Chooses := by
  unfold IsStatic at static
  unfold Chooses
  split <;> simp_all

theorem Loss.IsStatic.weighs {loss : Loss σ α} (static : loss.IsStatic) (count : Nat) :
    loss.Weighs count := by
  unfold IsStatic at static
  unfold Weighs
  split <;> simp_all

theorem WeightRule.chooses [Scalar α] (rule : WeightRule) :
    (Loss.reweighted rule.choose : Loss σ α).Chooses := by
  intro residuals weights world size
  have assigned (value : α → α) :
      (Call.fit (Vec.fill? weights.length (residuals.map value)) : Call σ α (Vec α)).run world =
        (.ok (residuals.map value), world) := by
    have filled := Vec.fill?_self (residuals.map value)
    rw [List.length_map, size] at filled
    rw [filled]
    rfl
  have room (value : α → α) : (residuals.map value).length = weights.length := by
    rw [List.length_map, size]
  cases rule with
  | cappedReciprocal => exact ⟨_, _, assigned _, room _⟩
  | reciprocal => exact ⟨_, _, assigned _, room _⟩
  | cutoff => exact ⟨_, _, assigned _, room _⟩
  | halving => exact ⟨_, _, rfl, List.length_map _⟩

/-- A loss that chooses as it should settles without a fault, and afterwards its
cost can be computed. A static loss stays static and keeps its costs. -/
theorem Loss.settle_ends [Scalar α] {loss : Loss σ α} {residuals : Vec α}
    (chooses : loss.Chooses) (weighs : loss.Weighs residuals.length) (world : σ) :
    ∃ (settled : Loss σ α) (changed : Bool) (after : σ),
      (loss.settle residuals).run world = (.ok (settled, changed), after) ∧
        settled.Chooses ∧ settled.Weighs residuals.length ∧
        (changed = true → ∃ cost, settled.cost residuals = .ok cost) ∧
        (loss.IsStatic → changed = false ∧ settled.IsStatic ∧ settled.cost = loss.cost) := by
  unfold settle
  split
  · next choose weights shape =>
      simp only [Chooses, Weighs, IsStatic, shape] at chooses weighs ⊢
      obtain ⟨chosen, after, ran, size⟩ := chooses residuals weights world weighs.symm
      -- as many weights as before, so the weighted residuals can be formed
      have fits (largest : α) : Vec.combine? (· * ·) chosen (residuals.map (· / largest)) =
          some (List.zipWith (· * ·) chosen (residuals.map (· / largest))) :=
        Vec.combine?_of_length_eq _ (by simp [size, weighs])
      refine ⟨⟨.reweighted choose chosen, loss.functions⟩, true, after, ?_, ?_, size.trans weighs,
        fun _ => ?_, False.elim⟩
      · rw [Call.run_bind_ok ran]
        rfl
      · exact chooses
      · simp only [cost, halfSquare, fits]
        split
        · exact ⟨_, rfl⟩
        · exact ⟨_, rfl⟩
  · next times shape =>
      refine ⟨⟨.counted (times + 1), loss.functions⟩, false, world, rfl, trivial, trivial, nofun,
        fun _ => ⟨rfl, trivial, ?_⟩⟩
      funext residuals
      simp only [cost, shape]
  · exact ⟨loss, false, world, rfl, chooses, weighs, nofun, fun static => ⟨rfl, static, rfl⟩⟩

/-- The loss cannot settle on the residuals: choosing weights ends in the fault, or the cost
with the chosen weights does. In the first case the loss is left as it was. -/
def Loss.Unsettled [Scalar α] (loss : Loss σ α) (residuals : Vec α) (world : σ)
    (fault : Fault α) (left : Loss σ α) : Prop :=
  (left = loss ∧ ∃ after, (loss.settle residuals).run world = (.error fault, after)) ∨
    ∃ after, (loss.settle residuals).run world = (.ok (left, true), after) ∧
      left.cost residuals = .error fault

theorem Loss.IsStatic.settled [Scalar α] {loss settled : Loss σ α} {residuals : Vec α}
    {before after : σ} {changed : Bool} (static : loss.IsStatic)
    (ran : (loss.settle residuals).run before = (.ok (settled, changed), after)) :
    changed = false ∧ settled.IsStatic ∧ settled.cost = loss.cost := by
  obtain ⟨_, _, _, ends, _, _, _, kept⟩ :=
    Loss.settle_ends static.chooses (static.weighs residuals.length) before
  cases ends.symm.trans ran
  exact kept static

theorem Loss.Chooses.not_unsettled [Scalar α] {loss left : Loss σ α} {residuals : Vec α}
    {world : σ} {fault : Fault α} (chooses : loss.Chooses) (weighs : loss.Weighs residuals.length) :
    ¬ loss.Unsettled residuals world fault left := by
  obtain ⟨settled, changed, _, ends, _, _, costs, _⟩ := Loss.settle_ends chooses weighs world
  rintro (⟨_, _, failed⟩ | ⟨_, anew, failed⟩)
  · cases ends.symm.trans failed
  · cases ends.symm.trans anew
    obtain ⟨cost, costed⟩ := costs rfl
    cases costed.symm.trans failed

theorem Loss.IsStatic.not_unsettled [Scalar α] {loss left : Loss σ α} {residuals : Vec α}
    {world : σ} {fault : Fault α} (static : loss.IsStatic) :
    ¬ loss.Unsettled residuals world fault left :=
  static.chooses.not_unsettled (static.weighs residuals.length)

/-- How a loss settles: weights that are chosen are asked for anew, and otherwise at most a
count changes. -/
theorem Loss.settle_cases [Scalar α] {loss settled : Loss σ α} {residuals : Vec α}
    {changed : Bool} {before after : σ}
    (ran : (loss.settle residuals).run before = (.ok (settled, changed), after)) :
    (changed = false ∧ loss.IsStatic ∧ (settled = loss ∨ ∃ times,
      loss.shape = .counted times ∧ settled = ⟨.counted (times + 1), loss.functions⟩)) ∨
      (changed = true ∧ ∃ choose weights chosen, loss.shape = .reweighted choose weights ∧
        (choose residuals weights).run before = (.ok chosen, after) ∧
        settled = ⟨.reweighted choose chosen, loss.functions⟩) := by
  obtain ⟨shape, functions⟩ := loss
  cases shape with
  | reweighted choose weights =>
      rcases asked : (choose residuals weights).run before with ⟨fault | chosen, world⟩
      · have ended := (Call.run_bind_error asked).symm.trans ran
        cases ended
      · have ended := (Call.run_bind_ok asked).symm.trans ran
        cases ended
        exact .inr ⟨rfl, choose, weights, chosen, rfl, asked, rfl⟩
  | counted times =>
      cases ran
      exact .inl ⟨rfl, trivial, .inr ⟨times, rfl, rfl⟩⟩
  | _ =>
      cases ran
      exact .inl ⟨rfl, trivial, .inl rfl⟩

theorem Loss.isStatic_of_settle [Scalar α] {loss settled : Loss σ α} {residuals : Vec α}
    {before after : σ} (ran : (loss.settle residuals).run before = (.ok (settled, false), after)) :
    loss.IsStatic := by
  obtain ⟨_, static, _⟩ | ⟨anew, _⟩ := Loss.settle_cases ran
  · exact static
  · cases anew

/-- One of the caller's functions ends in the fault somewhere. -/
def Problem.Raises (problem : Problem σ α) (fault : Fault α) : Prop :=
  (∃ x world, ((problem.residuals x).run world).1 = .error fault) ∨
    ∃ x world, ((problem.jacobian x).run world).1 = .error fault

namespace Solver

/-- The search after one call, whether the call returned or not. -/
def next [Scalar α] [Spectral α] (solver : Solver σ α) : Solver σ α := (iterate.run solver).2

def answer [Scalar α] [Spectral α] (solver : Solver σ α) : Except (Fault α) Bool :=
  (iterate.run solver).1

/-- The search after a number of calls, whether they returned or not. -/
def afterCalls [Scalar α] [Spectral α] : Nat → Solver σ α → Solver σ α
  | 0, solver => solver
  | count + 1, solver => (afterCalls count solver).next

/-- What a search has found so far: parameters, their cost, and their residuals. -/
def place (solver : Solver σ α) : Vec α × α × Vec α :=
  (solver.x, solver.cost, solver.residuals)

theorem place_eq_iff {before after : Solver σ α} : after.place = before.place ↔
    after.x = before.x ∧ after.cost = before.cost ∧ after.residuals = before.residuals := by
  simp only [place, Prod.mk.injEq]

/-- The fault is not the alarm for a cost that rose, unless one of the caller's
functions raised it. -/
def NoAlarm (solver : Solver σ α) (fault : Fault α) : Prop :=
  fault ≠ .breakdown .worseCost ∨
    ∃ problem, solver.problem? = some problem ∧ problem.Raises fault

/-! ## Whole runs -/

section Runs

variable [Scalar α] [Spectral α]

theorem afterCalls_next (solver : Solver σ α) (count : Nat) :
    solver.next.afterCalls count = solver.afterCalls (count + 1) := by
  induction count with
  | zero => rfl
  | succ count previous => exact congrArg next previous

theorem afterCalls_afterCalls (solver : Solver σ α) (first second : Nat) :
    (solver.afterCalls first).afterCalls second = solver.afterCalls (first + second) := by
  induction second with
  | zero => rfl
  | succ second previous => exact congrArg next previous

theorem iterateUpTo_calls (limit : Nat) (solver : Solver σ α) :
    ∃ count ≤ limit, ((iterateUpTo limit).run solver).2 = solver.afterCalls count := by
  induction limit generalizing solver with
  | zero => exact ⟨0, Nat.le_refl 0, rfl⟩
  | succ limit previous =>
      unfold iterateUpTo
      rcases ended : iterate.run solver with ⟨fault | converged, after⟩
      · have same : solver.next = after := congrArg Prod.snd ended
        rw [run_bind_error ended]
        exact ⟨1, Nat.le_add_left 1 limit, same.symm⟩
      · have same : solver.next = after := congrArg Prod.snd ended
        rw [run_bind_ok ended]
        cases converged with
        | true => exact ⟨1, Nat.le_add_left 1 limit, same.symm⟩
        | false =>
            obtain ⟨count, less, ran⟩ := previous after
            refine ⟨count + 1, Nat.succ_le_succ less, ?_⟩
            rw [← afterCalls_next, same]
            exact ran

theorem minimize_calls {idle started final : Solver σ α} {point : Vec α} {options : RunOptions α}
    {found : Minimum α}
    (success : (start point options.costTolerance? options.gradientTolerance?).run idle =
      (.ok (), started))
    (ended : (minimize point options).run idle = (.ok found, final)) :
    ∃ count ≤ options.limit, found = (started.afterCalls count).minimum := by
  obtain ⟨count, less, calls⟩ := iterateUpTo_calls options.limit started
  refine ⟨count, less, ?_⟩
  unfold minimize at ended
  rw [run_bind_ok success] at ended
  rcases ran : (iterateUpTo options.limit).run started with ⟨fault | _, last⟩
  · rw [run_bind_error ran] at ended
    cases ended
  · rw [run_bind_ok ran] at ended
    cases ended
    rw [ran] at calls
    exact congrArg minimum calls

end Runs

/-! ## Frames -/

/-- What computing derivatives may change before the phase does. -/
def Derived (before after : Solver σ α) : Prop :=
  ∃ normal world trace gradient scaling lossGradient plainDiagonal,
    after = { before with
      normal := normal, world := world, trace := trace, gradient := gradient
      scaling := scaling, lossGradient := lossGradient, plainDiagonal := plainDiagonal }

/-- Derivatives were computed, and what comes next was settled. -/
def Differenced (before after : Solver σ α) : Prop :=
  ∃ phase, Derived { before with phase := phase } after

/-- What computing a step may change. -/
def Stepped (before after : Solver σ α) : Prop :=
  ∃ normal trace dampedDiagonal, after = { before with
    normal := normal, trace := trace, dampedDiagonal := dampedDiagonal }

/-- What judging a candidate may change without taking it over. -/
def Weighed (before after : Solver σ α) : Prop :=
  ∃ world trace candidate candidateResiduals damping growth, after = { before with
    world := world, trace := trace, candidate := candidate
    candidateResiduals := candidateResiduals, damping := damping, growth := growth }

/-- What trying a step may change without taking a candidate over. -/
def Tried (before after : Solver σ α) : Prop :=
  ∃ normal dampedDiagonal step world trace candidate candidateResiduals damping growth,
    after = { before with
      normal := normal, dampedDiagonal := dampedDiagonal, step := step, world := world
      trace := trace, candidate := candidate, candidateResiduals := candidateResiduals
      damping := damping, growth := growth }

theorem Derived.refl (solver : Solver σ α) : Derived solver solver :=
  ⟨_, _, _, _, _, _, _, rfl⟩

theorem Derived.trans {first second third : Solver σ α} (start : Derived first second)
    (rest : Derived second third) : Derived first third := by
  obtain ⟨_, _, _, _, _, _, _, rfl⟩ := start
  obtain ⟨_, _, _, _, _, _, _, rfl⟩ := rest
  exact ⟨_, _, _, _, _, _, _, rfl⟩

theorem Derived.differenced {first second third : Solver σ α} (start : Derived first second)
    (rest : Differenced second third) : Differenced first third := by
  obtain ⟨_, _, _, _, _, _, _, rfl⟩ := start
  obtain ⟨phase, _, _, _, _, _, _, _, rfl⟩ := rest
  exact ⟨phase, _, _, _, _, _, _, _, rfl⟩

theorem Weighed.trans {first second third : Solver σ α} (start : Weighed first second)
    (rest : Weighed second third) : Weighed first third := by
  obtain ⟨_, _, _, _, _, _, rfl⟩ := start
  obtain ⟨_, _, _, _, _, _, rfl⟩ := rest
  exact ⟨_, _, _, _, _, _, rfl⟩

theorem noAlarm_of_ordinary {β : Type} {solver : Solver σ α} {result : Except (Fault α) β}
    {fault : Fault α} (ordinary : Ordinary result) (failed : result = .error fault) :
    solver.NoAlarm fault :=
  .inl fun same => ordinary .worseCost (same ▸ failed)

end Solver

end DampedLeastSquares
