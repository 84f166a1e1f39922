import Mathlib
import DampedLeastSquares.Proofs.Consistency
import DampedLeastSquares.Proofs.Escalation
import DampedLeastSquares.Proofs.Exact.Losses
import DampedLeastSquares.Proofs.Exact.Units
import DampedLeastSquares.Proofs.Trial

/-!
# Linear residuals

On residuals that are linear in the parameters every trial succeeds: the damped
system is positive definite, and the cost falls by at least what the model
predicts. Each improvement then divides the damping by three.
-/

set_option autoImplicit false

open scoped Matrix

namespace DampedLeastSquares

open Exact NormalMatrix

variable {σ : Type} {k l : Nat}

/-! ## The problem -/

/-- The residuals are linear in the parameters, and the Jacobian is their matrix, whenever they
are asked for. -/
structure Problem.Linear (problem : Problem σ ℝ) (form : JacobianForm) (matrix : RealMatrix l k)
    (offset : Fin l → ℝ) : Prop where
  residuals : ∀ (x : Fin k → ℝ) before, ∃ answer after,
    (problem.residuals (List.ofFn x)).run before = (.ok answer, after) ∧
      answer.flatten = List.ofFn (matrix *ᵥ x - offset)
  jacobian : ∀ (x : Fin k → ℝ) before, ∃ answer after,
    (problem.jacobian (List.ofFn x)).run before = (.ok answer, after) ∧
      answer.Represents form matrix

/-- The linear function on vectors of any length. -/
noncomputable def linearResiduals (matrix : RealMatrix l k) (offset : Fin l → ℝ) (x : Vec ℝ) :
    Vec ℝ :=
  List.ofFn (matrix *ᵥ (fun index : Fin k => x.getD index 0) - offset)

theorem linearResiduals_ofFn (matrix : RealMatrix l k) (offset : Fin l → ℝ) (x : Fin k → ℝ) :
    linearResiduals matrix offset (List.ofFn x) = List.ofFn (matrix *ᵥ x - offset) := by
  rw [linearResiduals, getD_ofFn]

theorem Problem.Linear.computes {problem : Problem σ ℝ} {form : JacobianForm}
    {matrix : RealMatrix l k} {offset : Fin l → ℝ} (linear : problem.Linear form matrix offset) :
    problem.Computes (linearResiduals matrix offset) k l := by
  intro x size
  obtain ⟨x, rfl⟩ := exists_ofFn size
  rw [linearResiduals_ofFn]
  refine ⟨List.length_ofFn, fun before after answer ran => ?_⟩
  obtain ⟨answer', after', ran', found⟩ := linear.residuals x before
  cases ran'.symm.trans ran
  exact found

theorem Problem.Linear.defined {problem : Problem σ ℝ} {form : JacobianForm}
    {matrix : RealMatrix l k} {offset : Fin l → ℝ} (linear : problem.Linear form matrix offset)
    (world : σ) : form ≠ .undefined := by
  rintro rfl
  obtain ⟨_, _, _, represents⟩ := linear.jacobian 0 world
  exact represents

namespace Solver

variable [Spectral ℝ] {problem : Problem σ ℝ} {form : JacobianForm} {matrix : RealMatrix l k}
  {offset : Fin l → ℝ}

theorem next_squared {solver : Solver σ ℝ} (squared : solver.loss.shape = .squared) :
    solver.next.loss.shape = .squared := by
  rcases (next_configured solver).loss with same | ⟨_, _, _, _, settled⟩
  · rw [same]
    exact squared
  · rw [Loss.settle_of_squared squared settled]
    exact squared

theorem afterCalls_squared {solver : Solver σ ℝ} (squared : solver.loss.shape = .squared)
    (count : Nat) : (solver.afterCalls count).loss.shape = .squared := by
  induction count with
  | zero => exact squared
  | succ count previous => exact next_squared previous

/-- What holds between any two calls of a search over linear residuals. -/
structure Aligned (solver : Solver σ ℝ) (problem : Problem σ ℝ) (form : JacobianForm)
    (matrix : RealMatrix l k) (offset : Fin l → ℝ) : Prop where
  supplied : solver.Supplied solver.settings k l
  tracks : solver.Tracks problem (linearResiduals matrix offset) k l
  form : solver.form = form
  squared : solver.loss.shape = .squared

theorem Aligned.next {solver : Solver σ ℝ} (linear : problem.Linear form matrix offset)
    (aligned : solver.Aligned problem form matrix offset) :
    solver.next.Aligned problem form matrix offset := by
  exact ⟨aligned.supplied.next aligned.tracks.untorn, aligned.tracks.next linear.computes,
    (next_configured solver).form.trans aligned.form, next_squared aligned.squared⟩

theorem Aligned.afterCalls {solver : Solver σ ℝ} (linear : problem.Linear form matrix offset)
    (aligned : solver.Aligned problem form matrix offset) (count : Nat) :
    (solver.afterCalls count).Aligned problem form matrix offset := by
  induction count with
  | zero => exact aligned
  | succ count previous => exact previous.next linear

omit [Spectral ℝ] in
theorem Aligned.residuals_eq {solver : Solver σ ℝ}
    (aligned : solver.Aligned problem form matrix offset) {x : Fin k → ℝ}
    (place : solver.x = List.ofFn x) : solver.residuals = List.ofFn (matrix *ᵥ x - offset) := by
  rw [aligned.tracks.residuals, place, linearResiduals_ofFn]

omit [Spectral ℝ] in
theorem Aligned.slopes {solver : Solver σ ℝ}
    (aligned : solver.Aligned problem form matrix offset) {x : Fin k → ℝ}
    (place : solver.x = List.ofFn x) :
    solver.loss.gradientInto l solver.residuals = .ok (List.ofFn (matrix *ᵥ x - offset)) := by
  rw [aligned.residuals_eq place]
  exact Loss.gradientInto_of_squared aligned.squared _

omit [Spectral ℝ] in
/-- The derivatives at hand are those of the linear function. -/
theorem Aligned.ready {solver : Solver σ ℝ} (linear : problem.Linear form matrix offset)
    (aligned : solver.Aligned problem form matrix offset) (phase : solver.phase = .search) :
    ∃ x : Fin k → ℝ, solver.x = List.ofFn x ∧
      solver.cost = 1 / 2 * ((matrix *ᵥ x - offset) ⬝ᵥ (matrix *ᵥ x - offset)) ∧
      solver.Ready matrix (matrix *ᵥ x - offset) (scales solver.settings (matrixᵀ * matrix)) := by
  obtain ⟨jacobian, slopes, scaling, ready⟩ := aligned.supplied.held phase
  obtain ⟨x, x_eq⟩ := exists_ofFn aligned.supplied.sized.x
  obtain rfl : jacobian = matrix := by
    obtain ⟨_, before, after, answer, given, ran, represents⟩ := ready.differentiated
    cases given.symm.trans aligned.tracks.problem
    obtain ⟨answer', after', ran', represents'⟩ := linear.jacobian x before
    rw [x_eq] at ran
    cases ran.symm.trans ran'
    exact (aligned.form ▸ represents).unique represents'
  obtain rfl : slopes = jacobian *ᵥ x - offset := by
    have found := ready.slopes_eq.symm.trans (aligned.slopes x_eq)
    exact List.ofFn_injective (Except.ok.inj found)
  refine ⟨x, x_eq, ?_, ready.units ▸ ready⟩
  have costed := aligned.tracks.costed
  rw [aligned.residuals_eq x_eq, Loss.cost_of_squared aligned.squared] at costed
  exact (Except.ok.inj costed).symm

theorem Aligned.plainDiagonal_eq {started : Solver σ ℝ}
    (linear : problem.Linear form matrix offset)
    (aligned : started.Aligned problem form matrix offset)
    (plain : started.settings.rescaling = false) {count : ℕ}
    (phase : (started.afterCalls count).phase = .search) :
    (started.afterCalls count).plainDiagonal =
      List.ofFn fun index => (matrixᵀ * matrix) index index := by
  obtain ⟨_, _, _, ready⟩ := (aligned.afterCalls linear count).ready linear phase
  have settings := (afterCalls_configured started count).2.1
  rw [ready.plain, scales_eq_one (by rw [settings, plain]), divided_one]

/-! ## A trial -/

omit [Spectral ℝ] in
/-- Damping above zero raises every entry that lies within its interval. -/
theorem Ready.raised {before : Solver σ ℝ} {jacobian : RealMatrix l k} {slopes : Fin l → ℝ}
    {scaling : Fin k → ℝ} (ready : before.Ready jacobian slopes scaling)
    (valid : before.settings.check = .ok ()) (positive : 0 < before.damping)
    (diagonal : 0 < before.settings.diagonalMin)
    (within : ∀ entry ∈ before.plainDiagonal, entry ≤ before.settings.diagonalMax) :
    ∀ entry ∈ before.plainDiagonal,
      entry < dampedEntry before.settings before.damping entry := by
  intro entry member
  have nonnegative : 0 ≤ entry := by
    rw [ready.plain, divided_gram] at member
    obtain ⟨index, rfl⟩ := List.mem_ofFn.mp member
    exact gram_diagonal_nonneg _ index
  exact lt_dampedEntry (Settings.proper_of_check valid) positive diagonal nonnegative
    (within entry member)

omit [Spectral ℝ] in
theorem Ready.definite_of_raised {before : Solver σ ℝ} {jacobian : RealMatrix l k}
    {slopes : Fin l → ℝ} {scaling : Fin k → ℝ} (ready : before.Ready jacobian slopes scaling)
    (raised : ∀ entry ∈ before.plainDiagonal,
      entry < dampedEntry before.settings before.damping entry) :
    (before.dampedSystem jacobian scaling).PosDef := by
  rw [ready.plain, List.forall_mem_ofFn_iff] at raised
  unfold dampedSystem
  rw [divided_gram] at raised ⊢
  exact posDef_withDiagonal raised

/-- Where the damped system has a solution and no entry on its diagonal was lowered, a gain is
predicted of the step, and residuals that went along with their linear model would gain at least
that. -/
theorem Ready.proposes {before : Solver σ ℝ} {jacobian : RealMatrix l k} {slopes : Fin l → ℝ}
    {scaling : Fin k → ℝ} (ready : before.Ready jacobian slopes scaling)
    (sited : before.Sited k l) (definite : (before.dampedSystem jacobian scaling).PosDef)
    (raised : ∀ entry ∈ before.plainDiagonal,
      entry ≤ dampedEntry before.settings before.damping entry) :
    ∃ predicted step normal trace dampedDiagonal,
      propose.run before.trying = (.ok (some predicted), { before.trying with
        normal := normal, trace := trace, step := List.ofFn step
        dampedDiagonal := dampedDiagonal }) ∧ 0 < predicted ∧
      predicted ≤ 1 / 2 * (slopes ⬝ᵥ slopes) -
        1 / 2 * ((slopes + jacobian *ᵥ step) ⬝ᵥ (slopes + jacobian *ᵥ step)) := by
  have steep : (inUnits jacobian scaling)ᵀ *ᵥ slopes ≠ 0 := by
    have nonzero := ready.toLinearized.scaling_ne sited.valid
    rw [inUnits_transpose_mulVec, Ne, div_units_eq_zero_iff nonzero]
    exact ready.steep
  obtain ⟨scaled, scaled_eq⟩ : ∃ scaled, scaled =
      -((before.dampedSystem jacobian scaling)⁻¹ *ᵥ (jacobianᵀ *ᵥ slopes / scaling)) := ⟨_, rfl⟩
  obtain ⟨_, normal, trace, dampedDiagonal, proposes⟩ | ⟨indefinite, _⟩ :=
    ready.carries.propose_cases sited ready.undoes scaled_eq
  · have damped_eq : before.dampedSystem jacobian scaling =
        withDiagonal ((inUnits jacobian scaling)ᵀ * inUnits jacobian scaling) fun index =>
          dampedEntry before.settings before.damping
            (((inUnits jacobian scaling)ᵀ * inUnits jacobian scaling) index index) := by
      rw [dampedSystem, divided_gram]
    rw [ready.plain, List.forall_mem_ofFn_iff, divided_gram] at raised
    rw [← inUnits_transpose_mulVec] at scaled_eq proposes
    obtain ⟨gains, least⟩ := predicted_le_actual raised definite steep damped_eq scaled_eq
    rw [inUnits_mulVec] at least
    exact ⟨_, scaled / scaling, normal, trace, dampedDiagonal, proposes, gains, least⟩
  · exact (indefinite definite).elim

omit [Spectral ℝ] in
/-- What a candidate costs. -/
theorem evaluateCandidate_linear {solver : Solver σ ℝ}
    (linear : problem.Linear solver.form matrix offset) (given : solver.problem? = some problem)
    (squared : solver.loss.shape = .squared) (sized : solver.candidateResiduals.length = l)
    {x step : Fin k → ℝ} (x_eq : solver.x = List.ofFn x) (step_eq : solver.step = List.ofFn step) :
    ∃ after, evaluateCandidate.run solver =
      (.ok (1 / 2 * ((matrix *ᵥ (x + step) - offset) ⬝ᵥ (matrix *ᵥ (x + step) - offset))),
        after) := by
  obtain ⟨answer, world, answered, found⟩ := linear.residuals (x + step) solver.world
  obtain ⟨after, evaluates⟩ := evaluateCandidate_ofFn sized x_eq step_eq
    ⟨linear.defined solver.world, problem, given, answered⟩ found
  rw [Loss.cost_of_squared squared] at evaluates
  exact ⟨after, evaluates⟩

/-- With damping above zero a step is computed wherever a search looks for one. -/
theorem Aligned.computesStep {before : Solver σ ℝ} (linear : problem.Linear form matrix offset)
    (aligned : before.Aligned problem form matrix offset) (phase : before.phase = .search)
    (positive : 0 < before.damping) (diagonal : 0 < before.settings.diagonalMin)
    (within : ∀ entry ∈ before.plainDiagonal, entry ≤ before.settings.diagonalMax) :
    before.ComputesStep := by
  obtain ⟨_, _, _, ready⟩ := aligned.ready linear phase
  have raised := ready.raised aligned.supplied.valid positive diagonal within
  exact (computesStep_iff aligned.supplied.toSited phase ready.carries).mpr
    (ready.definite_of_raised raised)

/-- A trial that finds a step and lowers no entry on the diagonal predicts a gain, and it gains at
least that. -/
theorem Aligned.compares {before : Solver σ ℝ} (linear : problem.Linear form matrix offset)
    (aligned : before.Aligned problem form matrix offset) (phase : before.phase = .search)
    (definite : (before.dampedSystem matrix
      (scales before.settings (matrixᵀ * matrix))).PosDef)
    (raised : ∀ entry ∈ before.plainDiagonal,
      entry ≤ dampedEntry before.settings before.damping entry) :
    ∃ predicted cost, before.Compares predicted cost ∧ 0 < predicted ∧
      predicted ≤ before.cost - cost := by
  obtain ⟨x, x_eq, cost_eq, ready⟩ := aligned.ready linear phase
  obtain ⟨predicted, step, normal, trace, dampedDiagonal, proposes, gains, least⟩ :=
    ready.proposes aligned.supplied.toSited definite raised
  obtain ⟨after, evaluates⟩ := @evaluateCandidate_linear σ k l problem matrix offset
    { before.trying with
      normal := normal, trace := trace, step := List.ofFn step, dampedDiagonal := dampedDiagonal }
    (aligned.form ▸ linear) aligned.tracks.problem aligned.squared
    aligned.supplied.sized.candidateResiduals x step x_eq rfl
  have moved : matrix *ᵥ (x + step) - offset = matrix *ᵥ x - offset + matrix *ᵥ step := by
    rw [Matrix.mulVec_add]
    abel
  rw [← moved, ← cost_eq] at least
  exact ⟨_, _, ⟨phase, gains.ne', _, _, proposes, evaluates⟩, gains, least⟩

/-! ## A run -/

/-- A search that never fails a trial: each improves by at least what was predicted, and divides
the damping by three. -/
structure Progresses (started : Solver σ ℝ) (initial : ℝ) (count : ℕ) : Prop where
  accepts : (started.afterCalls count).phase = .search → ∃ predicted cost,
    (started.afterCalls count).Compares predicted cost ∧
      cost < (started.afterCalls count).cost ∧
      1 ≤ ((started.afterCalls count).cost - cost) / predicted ∧
      (∃ converged, (started.afterCalls count).answer = .ok converged) ∧
      (started.afterCalls (count + 1)).updated = true
  growth : (started.afterCalls count).growth = 2
  damping : (started.afterCalls count).damping = initial / 3 ^ tally Accepts started count

/-- What a trial that gains at least what was predicted does to damping and growth. -/
theorem iterate_of_gain {before : Solver σ ℝ} (gradient : before.gradient ≠ [])
    (static : before.loss.IsStatic) {predicted cost : ℝ}
    (compares : before.Compares predicted cost) (gains : 0 < predicted)
    (least : predicted ≤ before.cost - cost) :
    (∃ converged, before.answer = .ok converged) ∧ before.next.updated = true ∧
      before.next.damping = before.damping / 3 ∧ before.next.growth = 2 := by
  have lower : cost < before.cost := by linarith
  have ensured := iterate_ends_of_lower gradient compares lower
  rw [factor_of_one_le ((one_le_div gains).mpr least)] at ensured
  unfold answer next
  rcases ran : iterate.run before with ⟨fault | converged, after⟩
  · obtain ⟨_, _, _, _, _, unsettled⟩ := ensured.of_run_error ran
    exact (static.not_unsettled unsettled).elim
  · obtain ⟨⟨damping, growth⟩, updated, _⟩ := ensured.of_run_ok ran
    refine ⟨⟨converged, rfl⟩, updated, damping.trans ?_, growth⟩
    ring

omit [Spectral ℝ] in
theorem squared_of_readied {loss ready : Loss σ ℝ} {residuals : Vec ℝ}
    (squared : loss.shape = .squared) (readied : loss.Readied residuals ready) :
    ready.shape = .squared := by
  obtain ⟨prepared, _, _, _, prepares, settles⟩ := readied
  unfold Loss.prepare at prepares
  rw [squared] at prepares
  cases prepares
  rw [Loss.settle_of_squared rfl settles]

omit [Spectral ℝ] in
theorem aligned_of_start {idle started : Solver σ ℝ} {x : Fin k → ℝ} {cost? gradient? : Option ℝ}
    (success : (start (List.ofFn x) cost? gradient?).run idle = (.ok (), started))
    (given : idle.problem? = some problem) (linear : problem.Linear idle.form matrix offset)
    (eliminates : idle.normal.layout?.isSome) (squared : idle.loss.shape = .squared) :
    started.Aligned problem idle.form matrix offset := by
  obtain ⟨ready, readied, _⟩ := (start_leaves idle _ cost? gradient?).of_run_ok success
  have chooses : idle.loss.Chooses := by
    unfold Loss.Chooses
    rw [squared]
    trivial
  have size : (List.ofFn x).length = k := List.length_ofFn
  have computes : problem.Computes (linearResiduals matrix offset) (List.ofFn x).length l :=
    size.symm ▸ linear.computes
  have tracks := tracks_of_start success given computes chooses
  have supplied := ready.supplied eliminates
  rw [size] at tracks supplied
  rw [tracks.sized.residuals] at supplied
  exact ⟨supplied, tracks, ready.form, squared_of_readied squared readied⟩

omit [Spectral ℝ] in
theorem start_squared {idle : Solver σ ℝ} {x : Vec ℝ} {residuals : Fin l → ℝ} {answer : Tensor ℝ}
    {world : σ} {cost? gradient? : Option ℝ}
    (valid : (idle.settings.adopting cost? gradient?).check = .ok ())
    (answers : idle.Answers x answer world) (found : answer.flatten = List.ofFn residuals)
    (squared : idle.loss.shape = .squared) :
    ∃ started, (start x cost? gradient?).run idle = (.ok (), started) := by
  have adopts := adoptTolerances_run idle cost? gradient?
  rw [valid] at adopts
  have begins : idle.Begins x cost? gradient? (List.ofFn residuals)
      ⟨.squared, (List.ofFn residuals).length⟩ := by
    refine ⟨_, answer, world, ⟨.squared, _⟩, false, world, adopts, answers, found, ?_, rfl⟩
    rw [Loss.prepare, squared]
  exact start_succeeds begins (Loss.halfSquare_eq _) rfl

omit [Spectral ℝ] in
theorem start_linear {idle : Solver σ ℝ} {x : Fin k → ℝ} {cost? gradient? : Option ℝ}
    (valid : (idle.settings.adopting cost? gradient?).check = .ok ())
    (given : idle.problem? = some problem) (linear : problem.Linear idle.form matrix offset)
    (squared : idle.loss.shape = .squared) :
    ∃ started, (start (List.ofFn x) cost? gradient?).run idle = (.ok (), started) := by
  obtain ⟨answer, world, answered, found⟩ := linear.residuals x idle.world
  exact start_squared valid ⟨linear.defined idle.world, problem, given, answered⟩ found squared

/-- The arrangement of a run over linear residuals: the damping starts above zero, and no entry of
a normal matrix that is about to be damped lies above its interval. -/
structure Inside (started : Solver σ ℝ) (settings : Settings ℝ) : Prop where
  initial : started.damping = settings.initialDamping
  growth : started.growth = 2
  positive : 0 < settings.initialDamping
  diagonal : 0 < settings.diagonalMin
  bounds : started.settings.diagonalMin = settings.diagonalMin ∧
    started.settings.diagonalMax = settings.diagonalMax
  within : ∀ count, (started.afterCalls count).phase = .search →
    ∀ entry ∈ (started.afterCalls count).plainDiagonal, entry ≤ settings.diagonalMax

theorem Aligned.gains {started : Solver σ ℝ} (linear : problem.Linear form matrix offset)
    (aligned : started.Aligned problem form matrix offset)
    (waits : started.phase ≠ .search) {settings : Settings ℝ} (inside : started.Inside settings)
    {count : ℕ} (phase : (started.afterCalls count).phase = .search)
    (positive : 0 < (started.afterCalls count).damping) :
    ∃ predicted cost, (started.afterCalls count).Compares predicted cost ∧
      cost < (started.afterCalls count).cost ∧
      1 ≤ ((started.afterCalls count).cost - cost) / predicted ∧
      (∃ converged, (started.afterCalls count).answer = .ok converged) ∧
      (started.afterCalls (count + 1)).updated = true ∧
      (started.afterCalls (count + 1)).damping = (started.afterCalls count).damping / 3 ∧
      (started.afterCalls (count + 1)).growth = 2 := by
  have here := aligned.afterCalls linear count
  obtain ⟨_, settings_eq, _⟩ := afterCalls_configured started count
  have diagonal : 0 < (started.afterCalls count).settings.diagonalMin := by
    rw [settings_eq, inside.bounds.1]
    exact inside.diagonal
  have within : ∀ entry ∈ (started.afterCalls count).plainDiagonal,
      entry ≤ (started.afterCalls count).settings.diagonalMax := by
    rw [settings_eq, inside.bounds.2]
    exact inside.within count phase
  have static : (started.afterCalls count).loss.IsStatic := by
    unfold Loss.IsStatic
    rw [here.squared]
    trivial
  obtain ⟨_, _, _, ready⟩ := here.ready linear phase
  have raised := ready.raised here.supplied.valid positive diagonal within
  obtain ⟨predicted, cost, compares, gains, least⟩ := here.compares linear phase
    (ready.definite_of_raised raised) fun entry member => (raised entry member).le
  have gradient := gradient_of_search aligned.supplied.sized waits count phase
  refine ⟨predicted, cost, compares, by linarith, (one_le_div gains).mpr least, ?_⟩
  exact iterate_of_gain gradient static compares gains least

/-- Growth and damping after any number of calls. -/
theorem Aligned.eases {started : Solver σ ℝ} (linear : problem.Linear form matrix offset)
    (aligned : started.Aligned problem form matrix offset)
    (waits : started.phase ≠ .search) {settings : Settings ℝ} (inside : started.Inside settings)
    (count : ℕ) : (started.afterCalls count).growth = 2 ∧
      (started.afterCalls count).damping =
        settings.initialDamping / 3 ^ tally Accepts started count := by
  induction count with
  | zero =>
      refine ⟨inside.growth, ?_⟩
      rw [tally, Nat.count_zero, pow_zero, div_one]
      exact inside.initial
  | succ count previous =>
      obtain ⟨growth, damping⟩ := previous
      -- only a trial takes a candidate over
      have kept (still : (started.afterCalls count).phase ≠ .search)
          (same : (started.afterCalls (count + 1)).damping = (started.afterCalls count).damping ∧
            (started.afterCalls (count + 1)).growth = (started.afterCalls count).growth) :
          (started.afterCalls (count + 1)).growth = 2 ∧
            (started.afterCalls (count + 1)).damping =
              settings.initialDamping / 3 ^ tally Accepts started (count + 1) := by
        rw [tally_succ_of_not fun accepts => still accepts.searching, same.1, same.2]
        exact ⟨growth, damping⟩
      cases phase : (started.afterCalls count).phase with
      | differentiate => exact kept (by rw [phase]; decide) (next_of_differentiate phase)
      | converged =>
          have same := (rests phase).2
          change started.afterCalls (count + 1) = _ at same
          exact kept (by rw [phase]; decide) (by rw [same]; exact ⟨rfl, rfl⟩)
      | search =>
          have positive : 0 < (started.afterCalls count).damping := by
            rw [damping]
            exact div_pos inside.positive (by positivity)
          obtain ⟨predicted, cost, compares, lower, _, _, _, eased, reset⟩ :=
            aligned.gains linear waits inside phase positive
          rw [tally_succ ⟨predicted, cost, compares, lower⟩, eased, damping, pow_succ, div_div]
          exact ⟨reset, rfl⟩

/-- On linear residuals no trial fails and none is rejected. Every one gains at least what was
predicted, and after a number of improvements the damping was divided by three as often. -/
theorem linear_progresses (idle started : Solver σ ℝ) (problem : Problem σ ℝ)
    (matrix : RealMatrix l k) (offset : Fin l → ℝ) (x : Fin k → ℝ) (cost? gradient? : Option ℝ)
    (success : (start (List.ofFn x) cost? gradient?).run idle = (.ok (), started))
    (given : idle.problem? = some problem) (linear : problem.Linear idle.form matrix offset)
    (eliminates : idle.normal.layout?.isSome) (squared : idle.loss.shape = .squared)
    (positive : 0 < idle.settings.initialDamping) (diagonal : 0 < idle.settings.diagonalMin)
    (within : ∀ count, (started.afterCalls count).phase = .search →
      ∀ entry ∈ (started.afterCalls count).plainDiagonal, entry ≤ idle.settings.diagonalMax)
    (count : ℕ) : started.Progresses idle.settings.initialDamping count := by
  have ready := (start_ensures idle _ cost? gradient?).of_run_ok success
  have aligned := aligned_of_start success given linear eliminates squared
  have waits : started.phase ≠ .search := by
    rw [ready.phase]
    nofun
  obtain ⟨_, _, settings⟩ := ready.settings
  have inside : started.Inside idle.settings :=
    ⟨by rw [ready.damping, settings], ready.growth.trans initialGrowth_eq, positive, diagonal,
      by rw [settings]; exact ⟨rfl, rfl⟩, within⟩
  obtain ⟨growth, damping⟩ := aligned.eases linear waits inside count
  refine ⟨fun phase => ?_, growth, damping⟩
  have positive : 0 < (started.afterCalls count).damping := by
    rw [damping]
    exact div_pos inside.positive (by positivity)
  obtain ⟨predicted, cost, compares, lower, least, returns, updated, _⟩ :=
    aligned.gains linear waits inside phase positive
  exact ⟨predicted, cost, compares, lower, least, returns, updated⟩

/-- One parameter that is its own residual. -/
noncomputable def unitProblem : Problem Unit ℝ :=
  ⟨fun x => pure (.vector x), fun _ =>
    pure (.whole (.matrix (.dense (DenseMatrix.ofMatrix (1 : RealMatrix 1 1)))))⟩

omit [Spectral ℝ] in
theorem unitProblem_linear : unitProblem.Linear .whole (1 : RealMatrix 1 1) (0 : Fin 1 → ℝ) where
  residuals x before := by
    refine ⟨.vector (List.ofFn x), before, rfl, ?_⟩
    rw [Matrix.one_mulVec, sub_zero]
    rfl
  jacobian x before := ⟨_, before, rfl, _, rfl, _, rfl, Matrix.represents_dense 1⟩

omit [Spectral ℝ] in
/-- A start at one, where the parameter is its own residual. -/
theorem linear_progresses_from_one : ∃ (_ : Spectral ℝ) (started : Solver Unit ℝ),
    (start [1] none none).run unitSearch = (.ok (), started) ∧
      (∀ count, (started.afterCalls count).phase = .search →
        ∀ entry ∈ (started.afterCalls count).plainDiagonal, entry ≤ 1.0e32) ∧
      started.Progresses 1.0e-3 1 := by
  obtain ⟨cost, success⟩ := unitSearch_starts
  let spectral : Spectral ℝ := ⟨fun _ => []⟩
  have point : [1] = List.ofFn fun _ : Fin 1 => (1 : ℝ) := by simp
  refine ⟨spectral, _, success, ?_⟩
  rw [point] at success
  have aligned := @aligned_of_start Unit 1 1 _ _ _ _ _ (fun _ => 1) _ _ success rfl
    unitProblem_linear rfl rfl
  have within (count : ℕ) (phase : ((unitStarted cost).afterCalls count).phase = .search) :
      ∀ entry ∈ ((unitStarted cost).afterCalls count).plainDiagonal, entry ≤ (1.0e32 : ℝ) := by
    rw [aligned.plainDiagonal_eq unitProblem_linear rfl phase, List.forall_mem_ofFn_iff]
    intro index
    rw [Matrix.transpose_one, Matrix.one_mul, Matrix.one_apply_eq]
    norm_num
  have initial : (0 : ℝ) < 1.0e-3 := by norm_num
  have least : (0 : ℝ) < 1.0e-6 := by norm_num
  refine ⟨within, ?_⟩
  exact linear_progresses unitSearch _ unitProblem 1 0 (fun _ => 1) none none success rfl
    unitProblem_linear rfl rfl initial least within 1

end Solver

end DampedLeastSquares
