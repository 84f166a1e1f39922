import DampedLeastSquares.Proofs.Progression

/-!
# The gradient that is tested

A call that computes derivatives tests the gradient before anything is rescaled. What it tests is
stated here as a function of the parameters, the residuals and the loss in place: the transposed
Jacobian applied to the residuals, or to the gradient of the loss where that differs.
-/

set_option autoImplicit false

namespace DampedLeastSquares

variable {σ α : Type} [Scalar α]

/-- The transposed Jacobian, in the form of the solver, applied to slopes. -/
def JacobianForm.gradient (form : JacobianForm) (jacobian : Derivative α) (slopes : Vec α)
    (length : Nat) : Except (Fault α) (Vec α) :=
  match form, jacobian with
  | .whole, .whole columns => do
      let product ← columns.transposeMul (.ofVec slopes)
      Fault.fit (Vec.fill? length product.toTensor.flatten)
  | .split, _ => do
      let (left, right) ← jacobian.blocks
      SplitNormal.gradient left right slopes (some length)
  | _, _ => .error .unsupported

namespace Solver

/-- What the transposed Jacobian is applied to. -/
def slopes (solver : Solver σ α) : Except (Fault α) (Vec α) :=
  if solver.loss.transformsGradient then
    solver.loss.gradientInto solver.lossGradient.length solver.residuals
  else .ok solver.residuals

/-- The gradient of the cost at the parameters in place, in their own units, from the Jacobian that
is answered in the given state of the caller's functions. -/
def unscaledGradient (solver : Solver σ α) (world : σ) : Except (Fault α) (Vec α) := do
  let problem ← solver.problem?.elim (.error .wrongKind) .ok
  let jacobian ← ((problem.jacobian solver.x).run world).1
  solver.form.gradient jacobian (← solver.slopes) solver.gradient.length

theorem lossResiduals_returns (solver : Solver σ α) :
    Ensures lossResiduals solver
      (fun found after => solver.slopes = .ok found ∧
        ∃ lossGradient, after = { solver with lossGradient := lossGradient })
      fun _ _ => True := by
  unfold lossResiduals slopes
  rw [ensures_bind, ensures_get, ensures_ite]
  refine ⟨fun transforms => ?_, fun keeps => ?_⟩
  · rw [ensures_bind, ensures_attempt, if_pos transforms]
    exact ⟨fun slopes found => ⟨found, _, rfl⟩, fun _ _ => trivial⟩
  · rw [ensures_pure, if_neg keeps]
    exact ⟨rfl, _, rfl⟩

/-- The gradient that computing derivatives leaves. -/
theorem derive_gradient (solver : Solver σ α) (form : JacobianForm) (jacobian : Derivative α) :
    Ensures (derive form jacobian) solver
      (fun _ after => ∃ slopes, solver.slopes = .ok slopes ∧
        form.gradient jacobian slopes solver.gradient.length = .ok after.gradient)
      fun _ _ => True := by
  cases form with
  | undefined => exact trivial
  | whole =>
      unfold derive deriveWhole
      cases jacobian with
      | split => exact trivial
      | whole columns =>
          rw [ensures_bind, ensures_get, ensures_bind, ensures_attempt]
          refine ⟨fun _ _ => ?_, fun _ _ => trivial⟩
          rw [ensures_bind, ensures_changeNormal]
          refine ⟨fun normal _ => ?_, fun _ _ _ => trivial⟩
          rw [ensures_bind]
          refine (lossResiduals_returns _).mono ?_ fun _ _ _ => trivial
          rintro slopes _ ⟨found, lossGradient, rfl⟩
          rw [ensures_bind, ensures_attempt]
          refine ⟨fun product multiplied => ?_, fun _ _ => trivial⟩
          rw [ensures_bind, ensures_attempt]
          refine ⟨fun gradient filled => ⟨slopes, found, ?_⟩, fun _ _ => trivial⟩
          simp only [JacobianForm.gradient, multiplied, ok_bind]
          exact filled
  | split =>
      unfold derive deriveSplit
      rw [ensures_bind, ensures_attempt]
      refine ⟨fun (left, right) cut => ?_, fun _ _ => trivial⟩
      rw [ensures_bind, ensures_get, ensures_bind, ensures_attempt]
      refine ⟨fun leftWidth _ => ?_, fun _ _ => trivial⟩
      rw [ensures_bind, ensures_attempt]
      refine ⟨fun _ _ => ?_, fun _ _ => trivial⟩
      rw [ensures_bind, ensures_attempt]
      refine ⟨fun _ _ => ?_, fun _ _ => trivial⟩
      rw [ensures_bind, ensures_changeNormal]
      refine ⟨fun normal _ => ?_, fun _ _ _ => trivial⟩
      rw [ensures_bind]
      refine (lossResiduals_returns _).mono ?_ fun _ _ _ => trivial
      rintro slopes _ ⟨found, lossGradient, rfl⟩
      rw [ensures_bind, ensures_attempt]
      refine ⟨fun gradient multiplied => ⟨slopes, found, ?_⟩, fun _ _ => trivial⟩
      simp only [JacobianForm.gradient, cut, ok_bind]
      exact multiplied

/-- The answer is that of the test, and a search that it ends keeps the gradient. -/
theorem prepareSearch_tests (solver : Solver σ α) :
    Ensures prepareSearch solver
      (fun converged after => converged = solver.gradientVanishes solver.gradient ∧
        (converged = true → after = solver))
      fun _ _ => True := by
  have kept (middle : Solver σ α) (remains : ¬ solver.gradientVanishes solver.gradient = true) :
      Ensures keepDiagonal middle
        (fun converged after => converged = solver.gradientVanishes solver.gradient ∧
          (converged = true → after = solver))
        fun _ _ => True := by
    refine (keepDiagonal_searches middle).mono ?_ fun _ _ _ => trivial
    rintro _ _ ⟨rfl, _⟩
    exact ⟨(Bool.eq_false_iff.mpr remains).symm, nofun⟩
  unfold prepareSearch
  rw [ensures_bind, ensures_get, ensures_ite]
  refine ⟨fun _ => trivial, fun _ => ?_⟩
  rw [ensures_ite]
  refine ⟨fun vanishes => ⟨vanishes.symm, fun _ => rfl⟩, fun remains => ?_⟩
  rw [ensures_ite]
  refine ⟨fun _ => ?_, fun _ => kept solver remains⟩
  rw [ensures_bind]
  exact (rescale_derived solver).mono (fun _ middle _ => kept middle remains) fun _ _ _ => trivial

theorem updateDerivatives_tests (solver : Solver σ α) :
    Ensures updateDerivatives solver
      (fun converged after => ∃ gradient, solver.unscaledGradient solver.world = .ok gradient ∧
        converged = solver.gradientVanishes gradient ∧
        (converged = true → after.gradient = gradient))
      fun _ _ => True := by
  obtain ⟨fault, ran, _⟩ | ⟨problem, given, ran⟩ := updateDerivatives_cases solver
  · exact ensures_of_error ran trivial
  refine Ensures.of_run_eq ?_ ran
  rw [ensures_bind, ensures_evaluate]
  refine ⟨fun jacobian world answered => ?_, fun _ _ _ => trivial⟩
  rw [ensures_bind]
  refine ((derive_derived _ _ jacobian).and (derive_gradient _ _ jacobian)).mono ?_
    fun _ _ _ => trivial
  rintro _ middle ⟨⟨_, _, _, gradient, _, _, _, rfl⟩, slopes, found, multiplied⟩
  refine (prepareSearch_tests _).mono ?_ fun _ _ _ => trivial
  rintro converged after ⟨verdict, same⟩
  refine ⟨gradient, ?_, verdict, fun vanishes => congrArg Solver.gradient (same vanishes)⟩
  have found : solver.slopes = .ok slopes := found
  simp only [unscaledGradient, given, Option.elim_some, ok_bind, answered, found]
  exact multiplied

end Solver

end DampedLeastSquares
