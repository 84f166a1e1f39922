import Mathlib
import DampedLeastSquares.Proofs.Consistency
import DampedLeastSquares.Proofs.DampedSystem
import DampedLeastSquares.Proofs.Exact.Losses
import DampedLeastSquares.Proofs.Progression
import DampedLeastSquares.Proofs.Trial
import DampedLeastSquares.Proofs.Verdict

/-!
# The gradient of the cost

What a call computes from the Jacobian and the slopes of the loss is the gradient
of the cost that trials compare. Without a tolerance for it, a search ends there
exactly at stationary points.
-/

set_option autoImplicit false

open scoped Matrix

namespace DampedLeastSquares

open Exact NormalMatrix

variable {σ : Type} {k l : Nat}

/-- The function on vectors of any length. -/
def onVectors (residuals : (Fin k → ℝ) → Fin l → ℝ) (x : Vec ℝ) : Vec ℝ :=
  List.ofFn (residuals fun index => x.getD index 0)

theorem onVectors_ofFn (residuals : (Fin k → ℝ) → Fin l → ℝ) (x : Fin k → ℝ) :
    onVectors residuals (List.ofFn x) = List.ofFn (residuals x) := by
  rw [onVectors, getD_ofFn]

namespace Solver

/-! ## A call -/

/-- At the parameters the Jacobian function answers with this matrix, in a form that the normal
matrix admits. -/
def Hands (before : Solver σ ℝ) (jacobian : RealMatrix l k) : Prop :=
  ∃ problem answer world, before.problem? = some problem ∧
    (problem.jacobian before.x).run before.world = (.ok answer, world) ∧
    answer.Represents before.form jacobian ∧ before.normal.Admits before.form answer

/-- The next call computes derivatives, and `middle` is the search once it has: nothing is tested
yet and nothing is scaled. -/
def Forms (before middle : Solver σ ℝ) : Prop :=
  before.phase = .differentiate ∧ before.form ≠ .undefined ∧
    ∃ problem answer world, before.problem? = some problem ∧
      (problem.jacobian before.x).run before.world = (.ok answer, world) ∧
      (derive before.form answer).run { before with
        updated := false, fullSteps := before.fullSteps + 1, world := world } = (.ok (), middle)

theorem Forms.iterate_run [Spectral ℝ] {before middle : Solver σ ℝ} (forms : before.Forms middle) :
    iterate.run before = (prepareSearch >>= iterate.conclude).run middle := by
  obtain ⟨phase, defined, problem, answer, world, given, answered, derived⟩ := forms
  have asked : (evaluate (problem.jacobian before.x)).run
      { before with updated := false, fullSteps := before.fullSteps + 1 } =
        (.ok answer, { before with
          updated := false, fullSteps := before.fullSteps + 1, world := world }) := by
    rw [run_evaluate, answered]
  have updates := updateDerivatives_run
    { before with updated := false, fullSteps := before.fullSteps + 1 } defined given
  refine (iterate_run_differentiate phase).trans (run_bind_congr ?_)
  exact updates.trans ((run_bind_ok asked).trans (run_bind_ok derived))

theorem forms_of_hands {before : Solver σ ℝ} (sized : before.Sized k l)
    (phase : before.phase = .differentiate) {jacobian : RealMatrix l k}
    (hands : before.Hands jacobian) {slopes : Fin l → ℝ}
    (found : before.loss.gradientInto l before.residuals = .ok (List.ofFn slopes)) :
    ∃ middle, before.Forms middle ∧ middle.Sized k l ∧ middle.settings = before.settings ∧
      middle.normal.Represents (jacobianᵀ * jacobian) ∧
      middle.normal.layout? = before.normal.layout? ∧
      middle.gradient = List.ofFn (jacobianᵀ *ᵥ slopes) := by
  obtain ⟨problem, answer, world, given, answered, represents, admits⟩ := hands
  have defined : before.form ≠ .undefined := by
    intro undefined
    rw [undefined] at represents
    exact represents.elim
  have counted (normal : NormalMatrix ℝ) : Sized { before with
      updated := false, fullSteps := before.fullSteps + 1, world := world, normal := normal } k l :=
    { sized with x := sized.x }
  obtain ⟨changed, product, layout, derived⟩ :=
    derive_run (counted before.normal) represents admits
  obtain ⟨lossGradient, room, gathered⟩ :=
    gather_run jacobian (counted changed).residuals (counted changed).lossGradient found
  refine ⟨_, ⟨phase, defined, problem, answer, world, given, answered, derived.trans gathered⟩,
    ?_, rfl, product, layout, rfl⟩
  exact { counted changed with gradient := List.length_ofFn, lossGradient := room }

/-- A call tests the gradient that it computes. If that is above the tolerance, gradient and normal
matrix are kept in the units of the settings for the trials to come. -/
structure Tests [Spectral ℝ] (before : Solver σ ℝ) (jacobian : RealMatrix l k)
    (gradient : Fin k → ℝ) : Prop where
  formed : ∃ middle, before.Forms middle ∧ middle.gradient = List.ofFn gradient
  stops : (∀ index, |gradient index| ≤ before.settings.gradientTolerance) →
    before.answer = .ok true ∧ before.next.gradient = List.ofFn gradient
  goes : ¬ (∀ index, |gradient index| ≤ before.settings.gradientTolerance) →
    before.answer = .ok false ∧ before.next.phase = .search ∧
      before.next.normal.layout? = before.normal.layout? ∧ before.next.gradient =
        List.ofFn (gradient / scales before.settings (jacobianᵀ * jacobian))

theorem tests_of_hands [Spectral ℝ] {before : Solver σ ℝ} (sized : before.Sized k l)
    (phase : before.phase = .differentiate) {jacobian : RealMatrix l k}
    (hands : before.Hands jacobian) {slopes : Fin l → ℝ}
    (found : before.loss.gradientInto l before.residuals = .ok (List.ofFn slopes)) :
    before.Tests jacobian (jacobianᵀ *ᵥ slopes) := by
  obtain ⟨middle, forms, sized', settings, product, layout, gradient⟩ :=
    forms_of_hands sized phase hands found
  obtain ⟨vanishing, remaining⟩ := prepareSearch_run sized' product gradient rfl
  have vanishes_iff := gradientVanishes_iff middle middle.gradient
  rw [gradient, List.forall_mem_ofFn_iff, ← gradient, settings] at vanishes_iff
  refine ⟨⟨middle, forms, gradient⟩, fun vanishes => ?_, fun remains => ?_⟩
  · have ran := forms.iterate_run.trans
      ((run_bind_ok (vanishing (vanishes_iff.mpr vanishes))).trans (conclude_run true))
    unfold answer next
    rw [ran]
    exact ⟨rfl, gradient⟩
  · obtain ⟨normal, _, layout', prepared⟩ :=
      remaining (Bool.eq_false_iff.mpr (vanishes_iff.not.mpr remains))
    have ran := forms.iterate_run.trans ((run_bind_ok prepared).trans (conclude_run false))
    unfold answer next
    rw [ran, settings]
    exact ⟨rfl, rfl, layout'.trans layout, rfl⟩

/-- A call that finds a gradient above its tolerance looks for a step next. -/
theorem next_searches [Spectral ℝ] {before : Solver σ ℝ} (sized : before.Sized k l)
    (phase : before.phase = .differentiate) {jacobian : RealMatrix l k}
    (hands : before.Hands jacobian) {slopes : Fin l → ℝ}
    (found : before.loss.gradientInto l before.residuals = .ok (List.ofFn slopes))
    (steep : ∃ index, before.settings.gradientTolerance < |(jacobianᵀ *ᵥ slopes) index|) :
    before.next.phase = .search := by
  obtain ⟨index, above⟩ := steep
  have tests := tests_of_hands sized phase hands found
  exact (tests.goes fun vanishes => absurd (vanishes index) above.not_ge).2.1

/-- The call computes the gradient of the cost at `x`, and the gradient decides whether the search
has converged. -/
structure Differentiates [Spectral ℝ] (before : Solver σ ℝ) (cost : (Fin k → ℝ) → ℝ)
    (jacobian : RealMatrix l k) (x gradient : Fin k → ℝ) : Prop where
  slope : HasFDerivAt cost (along gradient) x
  formed : ∃ middle, before.Forms middle ∧ middle.gradient = List.ofFn gradient
  stops : (∀ index, |gradient index| ≤ before.settings.gradientTolerance) →
    before.answer = .ok true ∧ before.next.gradient = List.ofFn gradient
  goes : ¬ (∀ index, |gradient index| ≤ before.settings.gradientTolerance) →
    before.answer = .ok false ∧ before.next.gradient =
      List.ofFn (gradient / scales before.settings (jacobianᵀ * jacobian))

/-- Without a tolerance the search ends exactly at stationary points of the cost. -/
theorem Differentiates.stationary [Spectral ℝ] {before : Solver σ ℝ} {cost : (Fin k → ℝ) → ℝ}
    {jacobian : RealMatrix l k} {x gradient : Fin k → ℝ}
    (differentiates : before.Differentiates cost jacobian x gradient)
    (strict : before.settings.gradientTolerance = 0) :
    before.answer = .ok true ↔ HasFDerivAt cost (0 : (Fin k → ℝ) →L[ℝ] ℝ) x := by
  have level : (∀ index, |gradient index| ≤ before.settings.gradientTolerance) ↔
      HasFDerivAt cost (0 : (Fin k → ℝ) →L[ℝ] ℝ) x := by
    simp only [strict, abs_nonpos_iff]
    refine ⟨fun vanishes => ?_, fun stationary => ?_⟩
    · have zero : along gradient = 0 := along_eq_zero_iff.mpr (funext vanishes)
      exact zero ▸ differentiates.slope
    · have zero : along gradient = 0 := differentiates.slope.unique stationary
      exact congrFun (along_eq_zero_iff.mp zero)
  rw [← level]
  refine ⟨fun ended => ?_, fun vanishes => (differentiates.stops vanishes).1⟩
  by_contra remains
  cases ended.symm.trans (differentiates.goes remains).1

theorem differentiates_of_hands [Spectral ℝ] {before : Solver σ ℝ} (sized : before.Sized k l)
    (phase : before.phase = .differentiate) {residuals : (Fin k → ℝ) → Fin l → ℝ}
    {x : Fin k → ℝ} (place : before.residuals = List.ofFn (residuals x))
    {share slope : Fin l → ℝ → ℝ} (separates : before.loss.Separates share slope)
    {jacobian : RealMatrix l k} (differentiable : HasFDerivAt residuals (linear jacobian) x)
    (hands : before.Hands jacobian) :
    before.Differentiates (fun x => ∑ index, share index (residuals x index)) jacobian x
      (jacobianᵀ *ᵥ fun index => slope index (residuals x index)) := by
  have tests := tests_of_hands sized phase hands (place ▸ separates.gradient (residuals x))
  refine ⟨separates.hasFDerivAt differentiable, tests.formed, tests.stops, fun remains => ?_⟩
  obtain ⟨goesOn, _, _, gradient⟩ := tests.goes remains
  exact ⟨goesOn, gradient⟩

/-- The cost of a candidate is what the loss makes of the residuals that are found there. -/
theorem evaluateCandidate_ofFn {before : Solver σ ℝ} (sized : before.candidateResiduals.length = l)
    {x step : Fin k → ℝ} (x_eq : before.x = List.ofFn x) (step_eq : before.step = List.ofFn step)
    {answer : Tensor ℝ} {world : σ} (answers : before.Answers (List.ofFn (x + step)) answer world)
    {residuals : Fin l → ℝ} (found : answer.flatten = List.ofFn residuals) :
    ∃ after, evaluateCandidate.run before =
      (before.loss.cost (List.ofFn residuals), after) := by
  have further : Vec.combine? (· + ·) before.x before.step = some (List.ofFn (x + step)) := by
    rw [x_eq, step_eq, combine?_ofFn]
    rfl
  have filled : Vec.fill? before.candidateResiduals.length answer.flatten =
      some (List.ofFn residuals) := by
    rw [sized, found, fill?_ofFn]
  exact ⟨_, evaluateCandidate_run further answers filled⟩

/-! ## Runs -/

variable [Spectral ℝ]

/-- The next call comes to a candidate and finds this cost there. -/
def ComparesAt (before : Solver σ ℝ) (candidate : Vec ℝ) (cost : ℝ) : Prop :=
  before.phase = .search ∧ ∃ predicted proposed evaluated,
    propose.run before.trying = (.ok (some predicted), proposed) ∧
    evaluateCandidate.run proposed = (.ok cost, evaluated) ∧ evaluated.candidate = candidate

/-- The cost that a loss makes of the residuals is what a search holds for its parameters and
compares it with at candidates. -/
structure Costs (started : Solver σ ℝ) (loss : Loss σ ℝ) (residuals : (Fin k → ℝ) → Fin l → ℝ)
    (cost : (Fin k → ℝ) → ℝ) : Prop where
  formula : ∀ x, loss.cost (List.ofFn (residuals x)) = .ok (cost x)
  held : ∀ count x, (started.afterCalls count).x = List.ofFn x →
    (started.afterCalls count).cost = cost x
  compared : ∀ count candidate found,
    (started.afterCalls count).ComparesAt (List.ofFn candidate) found → found = cost candidate

variable {problem : Problem σ ℝ} {residuals : (Fin k → ℝ) → Fin l → ℝ} {loss : Loss σ ℝ}

theorem afterCalls_costsLike {started : Solver σ ℝ} (like : started.loss.CostsLike loss l)
    (count : Nat) : (started.afterCalls count).loss.CostsLike loss l := by
  induction count with
  | zero => exact like
  | succ count previous =>
      obtain same | ⟨_, _, _, _, settled⟩ := (next_configured (started.afterCalls count)).loss
      · exact same ▸ previous
      · exact previous.settled settled

omit [Spectral ℝ] in
theorem Tracks.residuals_eq {solver : Solver σ ℝ}
    (tracks : solver.Tracks problem (onVectors residuals) k l) {x : Fin k → ℝ}
    (place : solver.x = List.ofFn x) : solver.residuals = List.ofFn (residuals x) := by
  rw [tracks.residuals, place, onVectors_ofFn]

theorem Tracks.compared {solver : Solver σ ℝ}
    (tracks : solver.Tracks problem (onVectors residuals) k l)
    (computes : problem.Computes (onVectors residuals) k l) {candidate : Fin k → ℝ} {cost : ℝ}
    (compares : solver.ComparesAt (List.ofFn candidate) cost) :
    solver.loss.cost (List.ofFn (residuals candidate)) = .ok cost := by
  obtain ⟨_, predicted, proposed, evaluated, proposes, evaluates, place⟩ := compares
  obtain ⟨_, _, _, _, rfl⟩ := (propose_proposed _).of_run_ok proposes
  obtain ⟨_, _, _, size, measured, costed⟩ := (evaluateCandidate_examined _).of_run_ok evaluates
  have room : evaluated.candidateResiduals.length = l :=
    size.trans tracks.sized.candidateResiduals
  have found : evaluated.candidateResiduals = onVectors residuals evaluated.candidate :=
    measured.eq_function tracks.problem (by rwa [room]) (by rw [place, List.length_ofFn])
  rw [found, place, onVectors_ofFn] at costed
  exact costed

theorem tracks_of_smooth {idle started : Solver σ ℝ} {point : Fin k → ℝ}
    {cost? gradient? : Option ℝ}
    (success : (start (List.ofFn point) cost? gradient?).run idle = (.ok (), started))
    (given : idle.problem? = some problem)
    (computes : problem.Computes (onVectors residuals) k l) (smooth : idle.loss.IsSmooth)
    (count : Nat) : (started.afterCalls count).Tracks problem (onVectors residuals) k l ∧
      (started.afterCalls count).loss.CostsLike idle.loss l := by
  obtain ⟨ready, readied, _⟩ := (start_leaves idle _ cost? gradient?).of_run_ok success
  have size : (List.ofFn point).length = k := List.length_ofFn
  have tracks := tracks_of_start success given (by rwa [size]) smooth.isStatic.chooses
  rw [size] at tracks
  have like : started.loss.CostsLike idle.loss l :=
    tracks.sized.residuals ▸ smooth.readied readied
  exact ⟨tracks.afterCalls computes count, afterCalls_costsLike like count⟩

theorem costs_of_formula {started : Solver σ ℝ} {cost : (Fin k → ℝ) → ℝ}
    (computes : problem.Computes (onVectors residuals) k l)
    (formula : ∀ x, loss.cost (List.ofFn (residuals x)) = .ok (cost x))
    (tracks : ∀ count, (started.afterCalls count).Tracks problem (onVectors residuals) k l ∧
      (started.afterCalls count).loss.CostsLike loss l) :
    started.Costs loss residuals cost where
  formula := formula
  held count x place := by
    obtain ⟨tracks, like⟩ := tracks count
    have costed := tracks.costed
    rw [like.cost_eq, tracks.residuals_eq place, formula] at costed
    exact (Except.ok.inj costed).symm
  compared count candidate found compares := by
    obtain ⟨tracks, like⟩ := tracks count
    have costed := tracks.compared computes compares
    rw [like.cost_eq, formula] at costed
    exact (Except.ok.inj costed).symm

/-- Whatever the layout and whatever the smooth loss, a call that computes derivatives computes the
gradient of the cost that the search holds and compares. Without a tolerance it ends the search
exactly where that cost is stationary. -/
theorem gradient_of_cost (idle started : Solver σ ℝ) (problem : Problem σ ℝ)
    (residuals : (Fin k → ℝ) → Fin l → ℝ) (point : Fin k → ℝ) (cost? gradient? : Option ℝ)
    (success : (start (List.ofFn point) cost? gradient?).run idle = (.ok (), started))
    (given : idle.problem? = some problem)
    (computes : problem.Computes (onVectors residuals) k l) (smooth : idle.loss.IsSmooth)
    (count : Nat) (phase : (started.afterCalls count).phase = .differentiate) (x : Fin k → ℝ)
    (place : (started.afterCalls count).x = List.ofFn x) (jacobian : RealMatrix l k)
    (differentiable : HasFDerivAt residuals (linear jacobian) x)
    (hands : (started.afterCalls count).Hands jacobian) :
    ∃ (cost : (Fin k → ℝ) → ℝ) (gradient : Fin k → ℝ), started.Costs idle.loss residuals cost ∧
      (started.afterCalls count).Differentiates cost jacobian x gradient ∧
      ((started.afterCalls count).settings.gradientTolerance = 0 →
        ((started.afterCalls count).answer = .ok true ↔
          HasFDerivAt cost (0 : (Fin k → ℝ) →L[ℝ] ℝ) x)) := by
  have tracks := tracks_of_smooth success given computes smooth
  obtain ⟨here, like⟩ := tracks count
  obtain ⟨share, slope, separates⟩ := like.smooth.separates like.fits
  have formula (x : Fin k → ℝ) : idle.loss.cost (List.ofFn (residuals x)) =
      .ok (∑ index, share index (residuals x index)) := by
    rw [← like.cost_eq]
    exact separates.cost (residuals x)
  have differentiates := differentiates_of_hands here.sized phase (here.residuals_eq place)
    separates differentiable hands
  exact ⟨_, _, costs_of_formula computes formula tracks, differentiates,
    differentiates.stationary⟩

/-- One parameter that is its own residual, with a loss that is straight from one on. -/
noncomputable def unitHuber : Solver Unit ℝ :=
  { unitSearch with loss := ⟨.huber 1, 0⟩ }

omit [Spectral ℝ] in
theorem unitHuber_starts : ∃ started,
    (start (List.ofFn fun _ : Fin 1 => 2) none (some 0)).run unitHuber = (.ok (), started) := by
  have proper : Settings.Proper (unitHuber.settings.adopting none (some 0)) :=
    { Settings.standard_proper with gradientTolerance := le_rfl }
  have adopts := adoptTolerances_run unitHuber none (some 0)
  rw [proper.check] at adopts
  have begins : unitHuber.Begins (List.ofFn fun _ : Fin 1 => 2) none (some 0)
      (List.ofFn fun _ : Fin 1 => 2) ⟨.huber 1, 1⟩ :=
    ⟨_, .vector _, (), ⟨.huber 1, 1⟩, false, (), adopts, ⟨nofun, _, rfl, rfl⟩, rfl, rfl, rfl⟩
  exact start_succeeds begins rfl rfl

omit [Spectral ℝ] in
/-- A start at two, beyond the threshold. -/
theorem gradient_of_cost_at_two : ∃ (_ : Spectral ℝ) (started : Solver Unit ℝ),
    (start (List.ofFn fun _ : Fin 1 => 2) none (some 0)).run unitHuber = (.ok (), started) ∧
      started.phase = .differentiate ∧ started.x = List.ofFn (fun _ : Fin 1 => 2) ∧
      HasFDerivAt (fun x : Fin 1 → ℝ => x) (linear 1) (fun _ : Fin 1 => 2) ∧
      started.Hands (1 : RealMatrix 1 1) ∧
      ∃ (cost : (Fin 1 → ℝ) → ℝ) (gradient : Fin 1 → ℝ),
        started.Costs unitHuber.loss (fun x => x) cost ∧
        started.Differentiates cost (1 : RealMatrix 1 1) (fun _ => 2) gradient ∧
        (started.answer = .ok true ↔
          HasFDerivAt cost (0 : (Fin 1 → ℝ) →L[ℝ] ℝ) fun _ => 2) := by
  let spectral : Spectral ℝ := ⟨fun _ => []⟩
  obtain ⟨started, success⟩ := unitHuber_starts
  obtain ⟨ready, _, _, _, settings⟩ := (start_leaves _ _ _ _).of_run_ok success
  have differentiable : HasFDerivAt (fun x : Fin 1 → ℝ => x) (linear 1) (fun _ : Fin 1 => 2) := by
    refine (hasFDerivAt_id _).congr_fderiv ?_
    ext direction index
    simp [linear]
  have computes : (⟨fun x => pure (.vector x), fun _ =>
      pure (.whole (.matrix (.dense (DenseMatrix.ofMatrix (1 : RealMatrix 1 1)))))⟩ :
        Problem Unit ℝ).Computes (onVectors fun x : Fin 1 → ℝ => x) 1 1 := by
    intro x size
    obtain ⟨x, rfl⟩ := exists_ofFn size
    rw [onVectors_ofFn]
    refine ⟨List.length_ofFn, fun before after answer ran => ?_⟩
    cases ran
    rfl
  have hands : started.Hands (1 : RealMatrix 1 1) := by
    refine ⟨_, _, _, ready.problem, rfl, ?_, ?_⟩
    · rw [ready.form]
      exact ⟨_, rfl, _, rfl, Matrix.represents_dense 1⟩
    · rw [ready.form, ready.normal]
      exact fun _ => ⟨_, rfl⟩
  refine ⟨spectral, started, success, ready.phase, ready.x, differentiable, hands, ?_⟩
  have strict : started.settings.gradientTolerance = 0 := by
    rw [settings]
    rfl
  obtain ⟨cost, gradient, costs, differentiates, stationary⟩ :=
    gradient_of_cost unitHuber started _ (fun x => x) (fun _ => 2) none (some 0) success rfl
      computes zero_le_one 0 ready.phase _ ready.x 1 differentiable hands
  exact ⟨cost, gradient, costs, differentiates, stationary strict⟩

end Solver

end DampedLeastSquares
