import DampedLeastSquares.Proofs.Exact.Gram
import DampedLeastSquares.Proofs.Start

/-!
# Exact steps

What computing a step does to a search whose buffers have the sizes they should
have: the diagonal is replaced by a damped one, and the step is the negative
solution of the damped system if that is positive definite.
-/

set_option autoImplicit false

open scoped Matrix

namespace DampedLeastSquares.Solver

open Exact NormalMatrix

variable {σ : Type} {k l : Nat} {solver : Solver σ ℝ} {matrix : RealMatrix k k}

variable [Spectral ℝ]

/-- What is left of computing a step once the damped system is prepared. -/
noncomputable def solvePrepared (gradient out : Vec ℝ) (prepared : NormalMatrix ℝ) :
    Option Shortfall → Action σ ℝ (Vec ℝ × Bool)
  | some failure => do
      report failure.events
      return (out, false)
  | none => do
      let (solution, failure?) ← attempt (prepared.solve gradient out)
      match failure? with
      | some failure =>
          report failure.events
          return (solution, false)
      | none => return (solution.map (- ·), true)

theorem computeStep_run {damping : ℝ} {gradient out diagonal : Vec ℝ}
    (filled : Vec.fill? solver.dampedDiagonal.length
      (solver.plainDiagonal.map (dampedEntry solver.settings damping)) = some diagonal)
    {changed prepared : NormalMatrix ℝ}
    (set : solver.normal.setDiagonal diagonal = (.ok (), changed)) {failure? : Option Shortfall}
    (ready : changed.prepare = .ok (prepared, failure?)) :
    (computeStep damping gradient out).run solver =
      (solvePrepared gradient out prepared failure?).run
        { solver with normal := prepared, dampedDiagonal := diagonal } := by
  have wrote : (changeNormal fun normal => normal.setDiagonal diagonal : Action σ ℝ Unit).run
      { solver with dampedDiagonal := diagonal } =
      (.ok (), { solver with dampedDiagonal := diagonal, normal := changed }) := by
    rw [run_changeNormal, set]
  unfold computeStep
  rw [run_get_bind, run_attempt_bind_ok (congrArg Fault.fit filled), run_modify_bind,
    run_bind_ok wrote, run_get_bind, run_attempt_bind_ok ready, run_modify_bind]
  cases failure? with
  | some failure => rfl
  | none => rfl

omit [Spectral ℝ] in
theorem dampedEntries_eq {diagonal : Fin k → ℝ} (plain : solver.plainDiagonal = List.ofFn diagonal)
    (damping : ℝ) : solver.plainDiagonal.map (dampedEntry solver.settings damping) =
      List.ofFn fun index => dampedEntry solver.settings damping (diagonal index) := by
  rw [plain, List.map_ofFn]
  rfl

omit [Spectral ℝ] in
theorem fill?_dampedEntries {diagonal : Fin k → ℝ}
    (plain : solver.plainDiagonal = List.ofFn diagonal) (room : solver.dampedDiagonal.length = k)
    (damping : ℝ) : Vec.fill? solver.dampedDiagonal.length
        (solver.plainDiagonal.map (dampedEntry solver.settings damping)) =
      some (solver.plainDiagonal.map (dampedEntry solver.settings damping)) := by
  rw [dampedEntries_eq plain damping, room, fill?_ofFn]

theorem computeStep_cases (represents : solver.normal.Represents matrix)
    (symmetric : matrix.IsSymm) (eliminates : solver.normal.layout?.isSome)
    {diagonal : Fin k → ℝ} (plain : solver.plainDiagonal = List.ofFn diagonal)
    (room : solver.dampedDiagonal.length = k) (damping : ℝ) (gradient : Fin k → ℝ)
    {out : Vec ℝ} (size : out.length = k) {damped : RealMatrix k k}
    (damped_eq : damped = withDiagonal matrix fun index =>
      dampedEntry solver.settings damping (diagonal index)) :
    ∃ normal trace, normal.Represents damped ∧ normal.layout? = solver.normal.layout? ∧
      ((damped.PosDef ∧ (computeStep damping (List.ofFn gradient) out).run solver =
          (.ok (List.ofFn (-(damped⁻¹ *ᵥ gradient)), true), { solver with
            normal := normal, trace := trace
            dampedDiagonal := solver.plainDiagonal.map (dampedEntry solver.settings damping) })) ∨
        (¬ damped.PosDef ∧ (computeStep damping (List.ofFn gradient) out).run solver =
          (.ok (out, false), { solver with
            normal := normal, trace := trace
            dampedDiagonal := solver.plainDiagonal.map (dampedEntry solver.settings damping) }))) := by
  have entries := dampedEntries_eq plain damping
  have filled := fill?_dampedEntries plain room damping
  obtain ⟨changed, set, represents, layout⟩ :=
    represents.setDiagonal fun index => dampedEntry solver.settings damping (diagonal index)
  have symmetric := withDiagonal_isSymm symmetric fun index =>
    dampedEntry solver.settings damping (diagonal index)
  rw [← damped_eq] at represents symmetric
  rw [← entries] at set
  obtain ⟨definite, prepared, ready, represents, layout', solves⟩ |
      ⟨indefinite, prepared, failure?, ready, represents, layout', fails⟩ :=
    represents.decides symmetric (layout ▸ eliminates)
  · refine ⟨prepared, solver.trace, represents, layout'.trans layout, .inl ⟨definite, ?_⟩⟩
    rw [computeStep_run filled set ready, solvePrepared,
      run_attempt_bind_ok (solves gradient out size), run_pure, List.map_ofFn]
    rfl
  · cases failure? with
    | some failure =>
        refine ⟨prepared, solver.trace ++ failure.events, represents, layout'.trans layout,
          .inr ⟨indefinite, ?_⟩⟩
        rw [computeStep_run filled set ready, solvePrepared]
        rfl
    | none =>
        obtain ⟨reason, failed⟩ := fails rfl gradient out size
        refine ⟨prepared, solver.trace ++ reason.events, represents, layout'.trans layout,
          .inr ⟨indefinite, ?_⟩⟩
        rw [computeStep_run filled set ready, solvePrepared, run_attempt_bind_ok failed]
        rfl

omit [Spectral ℝ] in
theorem predictedReduction_eq (represents : solver.normal.Represents matrix)
    (symmetric : matrix.IsSymm) {gradient : Fin k → ℝ}
    (gradient_eq : solver.gradient = List.ofFn gradient) (step : Fin k → ℝ) :
    solver.predictedReduction (List.ofFn step) =
      .ok (-(gradient ⬝ᵥ step) - 1 / 2 * (step ⬝ᵥ matrix *ᵥ step)) := by
  rw [predictedReduction, gradient_eq, dot?_ofFn, fit_some, ok_bind,
    represents.quadraticForm symmetric, ok_bind, literal_half]
  rfl

omit [Spectral ℝ] in
theorem unscale_eq {scaling : Fin k → ℝ}
    (scaled : solver.settings.rescaling = true → solver.scaling = List.ofFn scaling)
    (plain : solver.settings.rescaling = false → scaling = 1) (step : Fin k → ℝ) :
    solver.unscale (List.ofFn step) = .ok (List.ofFn (step / scaling)) := by
  unfold unscale
  cases rescaling : solver.settings.rescaling with
  | true =>
      rw [if_pos rfl, scaled rescaling, combine?_ofFn]
      rfl
  | false =>
      rw [if_neg Bool.false_ne_true, plain rescaling, div_one]

/-- A trial predicts what a step gains that was computed, and brings it back. -/
theorem propose_run {after : Solver σ ℝ} {gradient scaling step : Fin k → ℝ}
    (ran : (computeStep solver.damping solver.gradient solver.step).run solver =
      (.ok (List.ofFn step, true), after))
    (represents : after.normal.Represents matrix) (symmetric : matrix.IsSymm)
    (gradient_eq : after.gradient = List.ofFn gradient)
    (scaled : after.settings.rescaling = true → after.scaling = List.ofFn scaling)
    (unscaled : after.settings.rescaling = false → scaling = 1) :
    propose.run solver =
      (.ok (some (-(gradient ⬝ᵥ step) - 1 / 2 * (step ⬝ᵥ matrix *ᵥ step))),
        { after with step := List.ofFn (step / scaling) }) := by
  have predicted := @predictedReduction_eq σ k { after with step := List.ofFn step } matrix
    represents symmetric gradient gradient_eq step
  have back := @unscale_eq σ k { after with step := List.ofFn step } scaling scaled unscaled step
  unfold propose
  rw [run_get_bind, run_bind_ok ran]
  dsimp only
  rw [run_modify_bind, if_neg (by simp), run_get_bind, run_attempt_bind_ok predicted,
    run_get_bind, run_attempt_bind_ok back, run_modify_bind]
  rfl

/-- A trial proposes the solution of the damped system and predicts what it gains, unless the
system is not positive definite. -/
theorem propose_cases (sized : solver.Sized k l) (represents : solver.normal.Represents matrix)
    (symmetric : matrix.IsSymm) (eliminates : solver.normal.layout?.isSome)
    {diagonal gradient scaling : Fin k → ℝ} (plain : solver.plainDiagonal = List.ofFn diagonal)
    (gradient_eq : solver.gradient = List.ofFn gradient)
    (scaled : solver.settings.rescaling = true → solver.scaling = List.ofFn scaling)
    (unscaled : solver.settings.rescaling = false → scaling = 1) {damped : RealMatrix k k}
    (damped_eq : damped = withDiagonal matrix fun index =>
      dampedEntry solver.settings solver.damping (diagonal index)) {step : Fin k → ℝ}
    (step_eq : step = -(damped⁻¹ *ᵥ gradient)) :
    ∃ normal trace, normal.Represents damped ∧ normal.layout? = solver.normal.layout? ∧
      ((damped.PosDef ∧ propose.run solver =
          (.ok (some (-(gradient ⬝ᵥ step) - 1 / 2 * (step ⬝ᵥ damped *ᵥ step))), { solver with
            normal := normal, trace := trace, step := List.ofFn (step / scaling)
            dampedDiagonal :=
              solver.plainDiagonal.map (dampedEntry solver.settings solver.damping) })) ∨
        (¬ damped.PosDef ∧ propose.run solver = (.ok none, { solver with
            normal := normal, trace := trace
            dampedDiagonal :=
              solver.plainDiagonal.map (dampedEntry solver.settings solver.damping) }))) := by
  obtain ⟨normal, trace, represents', layout, ends⟩ := computeStep_cases represents symmetric
    eliminates plain sized.dampedDiagonal solver.damping gradient sized.step damped_eq
  rw [← gradient_eq, ← step_eq] at ends
  refine ⟨normal, trace, represents', layout, ?_⟩
  obtain ⟨definite, ran⟩ | ⟨indefinite, ran⟩ := ends
  · exact .inl ⟨definite, propose_run ran represents' (damped_eq ▸ withDiagonal_isSymm symmetric _)
      gradient_eq scaled unscaled⟩
  · refine .inr ⟨indefinite, ?_⟩
    unfold propose
    rw [run_get_bind, run_bind_ok ran]
    dsimp only
    rw [run_modify_bind, if_pos (by simp)]
    rfl

/-- Trying a step goes on to consider the solution of the damped system, or raises the damping
if the system is not positive definite. -/
theorem tryStep_cases (sized : solver.Sized k l) (represents : solver.normal.Represents matrix)
    (symmetric : matrix.IsSymm) (eliminates : solver.normal.layout?.isSome)
    {diagonal gradient scaling : Fin k → ℝ} (plain : solver.plainDiagonal = List.ofFn diagonal)
    (gradient_eq : solver.gradient = List.ofFn gradient)
    (scaled : solver.settings.rescaling = true → solver.scaling = List.ofFn scaling)
    (unscaled : solver.settings.rescaling = false → scaling = 1) {damped : RealMatrix k k}
    (damped_eq : damped = withDiagonal matrix fun index =>
      dampedEntry solver.settings solver.damping (diagonal index)) {step : Fin k → ℝ}
    (step_eq : step = -(damped⁻¹ *ᵥ gradient)) :
    ∃ normal trace, normal.Represents damped ∧ normal.layout? = solver.normal.layout? ∧
      ((damped.PosDef ∧ tryStep.run solver =
          (consider (-(gradient ⬝ᵥ step) - 1 / 2 * (step ⬝ᵥ damped *ᵥ step))).run { solver with
            normal := normal, trace := trace, step := List.ofFn (step / scaling)
            dampedDiagonal :=
              solver.plainDiagonal.map (dampedEntry solver.settings solver.damping) }) ∨
        (¬ damped.PosDef ∧ tryStep.run solver = recoverFromFailure.run { solver with
            normal := normal, trace := trace
            dampedDiagonal :=
              solver.plainDiagonal.map (dampedEntry solver.settings solver.damping) })) := by
  obtain ⟨normal, trace, represents', layout, ends⟩ := propose_cases sized represents symmetric
    eliminates plain gradient_eq scaled unscaled damped_eq step_eq
  refine ⟨normal, trace, represents', layout, ?_⟩
  obtain ⟨definite, ran⟩ | ⟨indefinite, ran⟩ := ends
  · exact .inl ⟨definite, tryStep_run ran⟩
  · exact .inr ⟨indefinite, tryStep_run ran⟩

end DampedLeastSquares.Solver
