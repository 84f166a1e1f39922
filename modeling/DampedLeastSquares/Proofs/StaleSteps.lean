import DampedLeastSquares.Proofs.DampingChoice

/-!
# Steps after a call that was torn

A call that takes a candidate over and is then stopped, because the loss cannot settle on it, goes
on looking for a step. Parameters, residuals and cost are those of the candidate by then, while
gradient and normal matrix are still those of the parameters that were left. The next step solves
the system of the latter, and not the one of the parameters that it starts from.
-/

set_option autoImplicit false

open scoped Matrix

namespace DampedLeastSquares

open Exact NormalMatrix

variable {σ : Type} {k l : Nat}

namespace Solver

/-! ## Torn calls -/

section Torn

variable [Spectral ℝ]

/-- An improvement that the loss cannot settle on tears the call. -/
theorem torn_of_lower {before : Solver σ ℝ} (gradient : before.gradient ≠ [])
    {predicted cost : ℝ} (compares : before.Compares predicted cost) (lower : cost < before.cost)
    {fault : Fault ℝ} (failed : before.answer = .error fault) :
    Torn before before.next fault := by
  obtain ⟨_, ⟨kept, _⟩ | torn⟩ := next_of_error failed
  · have ended := (iterate_ends_of_lower gradient compares lower).of_run_error (Prod.ext failed rfl)
    have still : before.next.cost = before.cost := (place_eq_iff.mp kept.place).2.1
    exact absurd (still.symm.trans ended.2.1) lower.ne'
  · exact torn

/-- Whatever became of a trial, the next step solves the damped system of the parameters that the
trial started from. After a torn call these are no longer the parameters. -/
theorem next_step_solves {before : Solver σ ℝ} (supplied : before.Supplied before.settings k l)
    (searching : before.phase = .search) (computes : before.next.ComputesStep) :
    ∃ (jacobian : RealMatrix l k) (slopes : Fin l → ℝ) (scaling x step : Fin k → ℝ),
      before.Linearized jacobian slopes scaling ∧ before.next.Moves before.next.next x step ∧
        SolvesDamped before.next.settings before.next.damping jacobian slopes scaling step := by
  obtain ⟨jacobian, slopes, scaling, ready⟩ := supplied.held searching
  have kept := ready.carries.next supplied.toSited searching
  obtain ⟨x, step, moves, solves⟩ := kept.toCarries.solves (kept.sited supplied.toSited)
    (kept.undoes ready.undoes) (ready.toLinearized.scaling_ne supplied.valid) computes
  exact ⟨jacobian, slopes, scaling, x, step, ready.toLinearized, moves, solves⟩

end Torn

/-! ## A run with a torn call -/

/-- Weights are found for a residual of one, and for no other. -/
noncomputable def weighOne (residuals weights : Vec ℝ) : Call Unit ℝ (Vec ℝ) :=
  if residuals = [1] then return weights else throw .wrongKind

noncomputable def oneWeighed : Loss Unit ℝ := ⟨.reweighted weighOne (Vec.ones 1), 1⟩

theorem ones_one : (Vec.ones 1 : Vec ℝ) = List.ofFn (1 : Fin 1 → ℝ) := by
  simp [Vec.ones, List.ofFn_succ]

theorem oneWeighed_cost (residual : ℝ) :
    oneWeighed.cost [residual] = .ok (1 / 2 * (residual * residual)) := by
  have scales (residuals : Fin 1 → ℝ) : Vec.combine? (· * ·) (Vec.ones 1) (List.ofFn residuals) =
      some (List.ofFn ((1 : Fin 1 → ℝ) * residuals)) := by
    rw [ones_one, combine?_ofFn]
    rfl
  refine (Loss.halfSquare_of_scaled scales fun _ => residual).trans ?_
  simp [dotProduct]

theorem oneWeighed_gradientInto (residual : ℝ) :
    oneWeighed.gradientInto 1 [residual] = .ok (List.ofFn fun _ : Fin 1 => residual) := by
  refine Loss.gradientInto_of_gradient ?_
  change Fault.fit (Loss.weightedSlopes (Vec.ones 1) [residual]) = _
  simp [Loss.weightedSlopes, ones_one, Vec.combine?, Fault.fit]

theorem oneWeighed_settles (before : Unit) :
    (oneWeighed.settle [1]).run before = (.ok (oneWeighed, true), before) := by
  have chosen : (weighOne [1] (Vec.ones 1)).run before = (.ok (Vec.ones 1), before) := by
    unfold weighOne
    rw [if_pos rfl]
    rfl
  exact Call.run_bind_ok chosen

theorem eq_one_of_settle {residuals : Vec ℝ} {found : Loss Unit ℝ × Bool} {before after : Unit}
    (settles : (oneWeighed.settle residuals).run before = (.ok found, after)) :
    residuals = [1] := by
  by_contra other
  have refused : (weighOne residuals (Vec.ones 1)).run before = (.error .wrongKind, before) := by
    unfold weighOne
    rw [if_neg other]
    rfl
  have failed : (oneWeighed.settle residuals).run before = (.error .wrongKind, before) :=
    Call.run_bind_error refused
  cases failed.symm.trans settles

noncomputable def oneWeighedSearch : Solver Unit ℝ :=
  { unitSearch with problem? := some unitProblem, loss := Loss.reweighted weighOne }

theorem oneWeighedSearch_starts :
    ∃ started, (start [1] none none).run oneWeighedSearch = (.ok (), started) := by
  have adopts := adoptTolerances_run oneWeighedSearch none none
  have valid : (oneWeighedSearch.settings.adopting none none).check = .ok () := standard_valid
  rw [valid] at adopts
  have begins : oneWeighedSearch.Begins [1] none none [1] oneWeighed :=
    ⟨_, .vector [1], (), oneWeighed, true, (), adopts, ⟨nofun, unitProblem, rfl, rfl⟩, rfl, rfl,
      oneWeighed_settles ()⟩
  exact start_succeeds begins (oneWeighed_cost 1) rfl

/-- The arrangement of the run. -/
structure WeighsOne (now : Solver Unit ℝ) : Prop where
  form : now.form = .whole
  problem : now.problem? = some unitProblem
  settings : now.settings = Settings.standard
  loss : now.loss = oneWeighed

section Arrangement

variable {now : Solver Unit ℝ}

theorem WeighsOne.linearized (weighs : now.WeighsOne) {jacobian : RealMatrix 1 1}
    {slopes scaling : Fin 1 → ℝ}
    (linearized : now.Linearized jacobian slopes scaling) {residual : ℝ}
    (residuals : now.residuals = [residual]) :
    jacobian = 1 ∧ (slopes = fun _ => residual) ∧ scaling = 1 := by
  refine ⟨?_, ?_, ?_⟩
  · obtain ⟨_, _, _, answer, given, ran, represents⟩ := linearized.differentiated
    cases given.symm.trans weighs.problem
    cases ran
    rw [weighs.form] at represents
    exact represents.unique ⟨_, rfl, _, rfl, Matrix.represents_dense 1⟩
  · have found := linearized.slopes_eq
    rw [weighs.loss, residuals, oneWeighed_gradientInto] at found
    exact List.ofFn_injective (Except.ok.inj found).symm
  · exact linearized.unscaled (by rw [weighs.settings]; rfl)

theorem WeighsOne.evaluates (weighs : now.WeighsOne) (size : now.candidateResiduals.length = 1)
    {x step : ℝ} (x_eq : now.x = [x]) (step_eq : now.step = [step]) :
    ∃ after, evaluateCandidate.run now =
      (.ok (1 / 2 * ((x + step) * (x + step))), after) := by
  have further : Vec.combine? (· + ·) now.x now.step = some [x + step] := by
    rw [x_eq, step_eq]
    rfl
  have answers : now.Answers [x + step] (.vector [x + step]) () := by
    refine ⟨?_, unitProblem, weighs.problem, rfl⟩
    rw [weighs.form]
    nofun
  have filled : Vec.fill? now.candidateResiduals.length (Tensor.vector [x + step]).flatten =
      some [x + step] := by
    rw [size]
    rfl
  rw [evaluateCandidate_run further answers filled, weighs.loss, oneWeighed_cost]
  exact ⟨_, rfl⟩

/-- The search at its first point, where the cost is one half. -/
structure AtOne (now : Solver Unit ℝ) : Prop extends now.WeighsOne where
  supplied : now.Supplied now.settings 1 1
  x : now.x = [1]
  residuals : now.residuals = [1]
  cost : now.cost = 1 / 2
  damping : now.damping = 1.0e-3
  growth : now.growth = 2

theorem atOne_of_start {started : Solver Unit ℝ}
    (success : (start [1] none none).run oneWeighedSearch = (.ok (), started)) :
    started.AtOne ∧ started.phase = .differentiate ∧ started.Hands (1 : RealMatrix 1 1) := by
  obtain ⟨ready, readied, costed, _, settings⟩ := (start_leaves _ _ _ _).of_run_ok success
  have settings : started.settings = Settings.standard := settings
  have problem : started.problem? = some unitProblem := ready.problem
  have residuals : started.residuals = [1] := by
    obtain ⟨_, _, _, _, given, ran, found⟩ := ready.answered
    cases problem.symm.trans given
    cases ran
    exact found.symm
  have loss : started.loss = oneWeighed := by
    obtain ⟨_, before, _, _, prepares, settles⟩ := readied
    rw [residuals] at prepares settles
    cases prepares
    have settled := Prod.mk.inj (settles.symm.trans (oneWeighed_settles before))
    exact congrArg Prod.fst (Except.ok.inj settled.1)
  have cost : started.cost = 1 / 2 := by
    rw [loss, residuals, oneWeighed_cost] at costed
    simpa using (Except.ok.inj costed).symm
  have supplied := ready.supplied (rfl : oneWeighedSearch.normal.layout?.isSome = true)
  rw [residuals] at supplied
  have damping : started.damping = 1.0e-3 := by
    rw [ready.damping, settings]
    rfl
  refine ⟨⟨⟨ready.form, problem, settings, loss⟩, supplied, ready.x, residuals, cost, damping,
    ready.growth.trans initialGrowth_eq⟩, ready.phase, _, _, _, problem, rfl, ?_, ?_⟩
  · rw [ready.form]
    exact ⟨_, rfl, _, rfl, Matrix.represents_dense 1⟩
  · rw [ready.form, ready.normal]
    exact fun _ => ⟨_, rfl⟩

/-- A lower cost than one half is that of another residual. -/
theorem AtOne.residuals_ne {after : Solver Unit ℝ} (atOne : now.AtOne) {cost : ℝ}
    (advanced : Advanced now after cost) : after.residuals ≠ [1] := by
  intro one
  have costed := advanced.costed
  have lower := advanced.lower
  rw [atOne.loss, one, oneWeighed_cost] at costed
  rw [← Except.ok.inj costed, atOne.cost] at lower
  norm_num at lower

theorem AtOne.raised (atOne : now.AtOne) {slopes : Fin 1 → ℝ}
    (ready : now.Ready (1 : RealMatrix 1 1) slopes 1) :
    ∀ entry ∈ now.plainDiagonal, entry < dampedEntry now.settings now.damping entry := by
  refine ready.raised atOne.supplied.valid ?_ ?_ ?_
  · rw [atOne.damping]
    norm_num
  · rw [atOne.settings]
    change (0 : ℝ) < 1.0e-6
    norm_num
  · rw [ready.plain, List.forall_mem_ofFn_iff, atOne.settings]
    intro index
    change _ ≤ (1.0e32 : ℝ)
    rw [divided_one, Matrix.transpose_one, Matrix.one_mul, Matrix.one_apply_eq]
    norm_num

variable [Spectral ℝ]

/-- The first call finds a slope of one, and goes on to look for a step. -/
theorem AtOne.next (atOne : now.AtOne) (phase : now.phase = .differentiate)
    (hands : now.Hands (1 : RealMatrix 1 1)) : now.next.AtOne ∧ now.next.phase = .search := by
  have found : now.loss.gradientInto 1 now.residuals = .ok (List.ofFn fun _ : Fin 1 => 1) := by
    rw [atOne.loss, atOne.residuals, oneWeighed_gradientInto]
  have steep : now.settings.gradientTolerance <
      |((1 : RealMatrix 1 1)ᵀ *ᵥ fun _ => (1 : ℝ)) 0| := by
    rw [atOne.settings]
    change (1.0e-8 : ℝ) < _
    norm_num
  have supplied := atOne.supplied.next fun fault => not_torn_of_differentiate phase
  obtain ⟨_, _, _, _, _, _, _, _, same⟩ := next_differenced phase
  refine ⟨?_, next_searches atOne.supplied.sized phase hands found ⟨0, steep⟩⟩
  rw [same] at supplied ⊢
  exact ⟨⟨atOne.form, atOne.problem, atOne.settings, atOne.loss⟩, supplied, atOne.x,
    atOne.residuals, atOne.cost, atOne.damping, atOne.growth⟩

theorem AtOne.compares (atOne : now.AtOne) (phase : now.phase = .search) {slopes : Fin 1 → ℝ}
    (ready : now.Ready (1 : RealMatrix 1 1) slopes 1) :
    ∃ predicted cost, now.Compares predicted cost ∧ cost < now.cost := by
  obtain ⟨_, rfl, _⟩ := atOne.linearized ready.toLinearized atOne.residuals
  have raised := atOne.raised ready
  obtain ⟨predicted, step, normal, trace, dampedDiagonal, proposes, gains, least⟩ :=
    ready.proposes atOne.supplied.toSited (ready.definite_of_raised raised)
      fun entry member => (raised entry member).le
  have weighs : WeighsOne { now.trying with
      normal := normal, trace := trace, step := List.ofFn step
      dampedDiagonal := dampedDiagonal } :=
    ⟨atOne.form, atOne.problem, atOne.settings, atOne.loss⟩
  obtain ⟨_, evaluates⟩ := weighs.evaluates atOne.supplied.sized.candidateResiduals atOne.x
    (List.ofFn_succ.trans rfl)
  refine ⟨predicted, _, ⟨phase, gains.ne', _, _, proposes, evaluates⟩, ?_⟩
  have least : predicted ≤ 1 / 2 - 1 / 2 * ((1 + step 0) * (1 + step 0)) := by
    simpa [dotProduct] using least
  rw [atOne.cost]
  linarith

/-- The second call finds a lower cost than one half, and then no weights for the residual. -/
theorem AtOne.torn (atOne : now.AtOne) (phase : now.phase = .search) :
    ∃ fault, Torn now now.next fault ∧ now.next.phase = .search := by
  obtain ⟨jacobian, slopes, scaling, ready⟩ := atOne.supplied.held phase
  obtain ⟨rfl, -, rfl⟩ := atOne.linearized ready.toLinearized atOne.residuals
  obtain ⟨predicted, cost, compares, lower⟩ := atOne.compares phase ready
  have gradient : now.gradient ≠ [] := by
    rw [ready.gradient, Ne, List.ofFn_eq_nil_iff]
    exact one_ne_zero
  cases ended : now.answer with
  | error fault =>
      exact ⟨fault, torn_of_lower gradient compares lower ended,
        (next_of_error ended).1.trans phase⟩
  | ok converged =>
      have taken := (iterate_ends_of_lower gradient compares lower).of_run_ok (Prod.ext ended rfl)
      obtain kept | replaced | ⟨_, torn⟩ := next_outcome now
      · cases kept.updated.symm.trans taken.2.1
      · obtain ⟨_, advanced, _, _, _, settles, _⟩ := replaced.advanced
        rw [atOne.loss] at settles
        exact absurd (eq_one_of_settle settles) (atOne.residuals_ne advanced)
      · cases torn.updated.symm.trans taken.2.1

/-- The torn call leaves the arrangement as it was, and another residual. -/
theorem AtOne.weighsOne_next (atOne : now.AtOne) {fault : Fault ℝ}
    (torn : Torn now now.next fault) :
    now.next.WeighsOne ∧ ∃ residual, residual ≠ 1 ∧ now.next.residuals = [residual] := by
  have configured := next_configured now
  have other := atOne.residuals_ne torn.advanced
  refine ⟨⟨configured.form.trans atOne.form, configured.problem.trans atOne.problem,
    configured.settings.trans atOne.settings, ?_⟩, ?_⟩
  · obtain ⟨_, ⟨kept, _⟩ | ⟨_, settles, _⟩⟩ := torn.unsettled
    · exact kept.trans atOne.loss
    · rw [atOne.loss] at settles
      exact absurd (eq_one_of_settle settles) other
  · obtain ⟨residual, single⟩ := List.length_eq_one_iff.mp
      (next_sized atOne.supplied.sized).residuals
    refine ⟨residual, ?_, single⟩
    rintro rfl
    exact other single

theorem AtOne.computesStep_next (atOne : now.AtOne) (phase : now.phase = .search)
    (again : now.next.phase = .search) : now.next.ComputesStep := by
  obtain ⟨jacobian, slopes, scaling, ready⟩ := atOne.supplied.held phase
  have kept := ready.carries.next atOne.supplied.toSited phase
  refine (computesStep_iff (kept.sited atOne.supplied.toSited) again kept.toCarries).mpr ?_
  have damped : 0 ≤ now.next.damping := by
    refine ((iterate_redamps now).nonneg ?_ atOne.growth.ge).1
    rw [atOne.damping]
    norm_num
  have diagonal : 0 < now.next.settings.diagonalMin := by
    rw [(next_configured now).settings, atOne.settings]
    change (0 : ℝ) < 1.0e-6
    norm_num
  have proper := Settings.proper_of_check (kept.sited atOne.supplied.toSited).valid
  exact posDef_single _ (dampedEntry_pos proper diagonal damped _)

end Arrangement

/-- After the torn call the step is the one from the point before, and not from the point that the
search is at. -/
theorem step_stale_after_torn : ∃ (_ : Spectral ℝ) (started : Solver Unit ℝ),
    oneWeighedSearch.normal.layout?.isSome = true ∧
    (start [1] none none).run oneWeighedSearch = (.ok (), started) ∧
    (∃ fault, Torn (started.afterCalls 1) (started.afterCalls 2) fault) ∧
    (started.afterCalls 2).ComputesStep ∧ ¬ (started.afterCalls 2).StepSolves 1 1 := by
  let spectral : Spectral ℝ := ⟨fun _ => []⟩
  obtain ⟨started, success⟩ := oneWeighedSearch_starts
  obtain ⟨first, differentiates, hands⟩ := atOne_of_start success
  obtain ⟨atOne, searching⟩ := first.next differentiates hands
  obtain ⟨fault, torn, again⟩ := atOne.torn searching
  obtain ⟨weighs, residual, other, residuals⟩ := atOne.weighsOne_next torn
  have computes := atOne.computesStep_next searching again
  refine ⟨spectral, started, rfl, success, ⟨fault, torn⟩, computes, ?_⟩
  rintro ⟨_, _, _, _, step, linearized, moves, solves⟩
  obtain ⟨rfl, rfl, rfl⟩ := weighs.linearized linearized residuals
  obtain ⟨_, _, _, _, step', linearized', moves', solves'⟩ :=
    next_step_solves atOne.supplied searching computes
  obtain ⟨rfl, rfl, rfl⟩ := atOne.linearized linearized' atOne.residuals
  obtain rfl : step' = step := List.ofFn_injective (moves'.step_eq.symm.trans moves.step_eq)
  have same := congrFun (solves'.symm.trans solves) 0
  rw [Matrix.transpose_one, Matrix.one_mulVec, Matrix.one_mulVec] at same
  exact other (neg_injective same).symm

end Solver

end DampedLeastSquares
