import DampedLeastSquares.Proofs.Start

/-!
# Actions that are blind to the normal matrix

Most of a call neither looks at the normal matrix nor changes it, nor does it
ask for Jacobians or read the events so far. What such an action comes to, and
what else it changes, is the same in every arrangement of these.
-/

set_option autoImplicit false

namespace DampedLeastSquares

/-- How a search holds its normal matrix and is handed its Jacobians. -/
structure Arrangement (σ α : Type) where
  form : JacobianForm
  defined : form ≠ .undefined
  normal : NormalMatrix α
  jacobian : Vec α → Call σ α (Derivative α)

namespace Solver

variable {σ α β γ : Type}

/-- The search with the given residual function, in another arrangement and with other
events behind it. -/
def arranged (core : Solver σ α) (residuals : Vec α → Call σ α (Tensor α))
    (arrangement : Arrangement σ α) (trace : List (Event α)) : Solver σ α :=
  { core with
    form := arrangement.form, normal := arrangement.normal
    problem? := some ⟨residuals, arrangement.jacobian⟩, trace := trace }

/-- What the action comes to is the same in every arrangement, and it keeps the
arrangement. -/
def Blind (residuals : Vec α → Call σ α (Tensor α)) (action : Action σ α β) : Prop :=
  ∀ core : Solver σ α, ∃ (result : Except (Fault α) β) (after : Solver σ α),
    ∀ arrangement trace, ∃ trace',
      action.run (core.arranged residuals arrangement trace) =
        (result, after.arranged residuals arrangement trace')

section Rules

variable {residuals : Vec α → Call σ α (Tensor α)}

theorem blind_pure (value : β) : Blind residuals (pure value) :=
  fun core => ⟨.ok value, core, fun _ trace => ⟨trace, rfl⟩⟩

theorem blind_throw (fault : Fault α) : Blind residuals (throw fault : Action σ α β) :=
  fun core => ⟨.error fault, core, fun _ trace => ⟨trace, rfl⟩⟩

theorem blind_attempt (result : Except (Fault α) β) : Blind residuals (attempt result) :=
  fun core => ⟨result, core, fun _ trace => ⟨trace, rfl⟩⟩

theorem blind_report (events : List (Event α)) : Blind residuals (report events) :=
  fun core => ⟨.ok (), core, fun _ trace => ⟨trace ++ events, rfl⟩⟩

theorem blind_evaluate (call : Call σ α β) : Blind residuals (evaluate call) :=
  fun core => ⟨(call.run core.world).1, { core with world := (call.run core.world).2 },
    fun _ trace => ⟨trace, rfl⟩⟩

theorem blind_modify {change : Solver σ α → Solver σ α}
    (commutes : ∀ core arrangement trace, change (core.arranged residuals arrangement trace) =
      (change core).arranged residuals arrangement trace) :
    Blind residuals (modify change) :=
  fun core => ⟨.ok (), change core, fun arrangement trace =>
    ⟨trace, congrArg (Prod.mk _) (commutes core arrangement trace)⟩⟩

theorem blind_bind {first : Action σ α γ} {next : γ → Action σ α β}
    (start : Blind residuals first) (rest : ∀ value, Blind residuals (next value)) :
    Blind residuals (first >>= next) := by
  intro core
  obtain ⟨result, middle, runs⟩ := start core
  cases result with
  | error fault =>
      refine ⟨.error fault, middle, fun arrangement trace => ?_⟩
      obtain ⟨trace', ran⟩ := runs arrangement trace
      exact ⟨trace', run_bind_error ran⟩
  | ok value =>
      obtain ⟨result, after, continues⟩ := rest value middle
      refine ⟨result, after, fun arrangement trace => ?_⟩
      obtain ⟨trace', ran⟩ := runs arrangement trace
      obtain ⟨trace'', ran'⟩ := continues arrangement trace'
      exact ⟨trace'', (run_bind_ok ran).trans ran'⟩

/-- What follows on reading the search must depend on the core alone. -/
theorem blind_get_bind {next : Solver σ α → Action σ α β}
    (same : ∀ core arrangement trace, next (core.arranged residuals arrangement trace) = next core)
    (rest : ∀ core, Blind residuals (next core)) : Blind residuals (get >>= next) := by
  intro core
  obtain ⟨result, after, continues⟩ := rest core core
  refine ⟨result, after, fun arrangement trace => ?_⟩
  obtain ⟨trace', ran⟩ := continues arrangement trace
  refine ⟨trace', ?_⟩
  rw [run_get_bind, same]
  exact ran

theorem blind_ite {condition : Prop} [Decidable condition] {first second : Action σ α β}
    (positive : Blind residuals first) (negative : Blind residuals second) :
    Blind residuals (if condition then first else second) := by
  by_cases holds : condition
  · rwa [if_pos holds]
  · rwa [if_neg holds]

end Rules

variable [Scalar α] {residuals : Vec α → Call σ α (Tensor α)}

omit [Scalar α] in
theorem problem_arranged (core : Solver σ α) (arrangement : Arrangement σ α)
    (trace : List (Event α)) :
    problem.run (core.arranged residuals arrangement trace) =
      (.ok ⟨residuals, arrangement.jacobian⟩, core.arranged residuals arrangement trace) :=
  problem_run arrangement.defined rfl

omit [Scalar α] in
theorem blind_residualsAt (x : Vec α) : Blind residuals (residualsAt x) := by
  intro core
  obtain ⟨result, after, runs⟩ := blind_bind (blind_evaluate (residuals x))
    (fun answer => blind_pure answer.flatten) core
  refine ⟨result, after, fun arrangement trace => ?_⟩
  obtain ⟨trace', ran⟩ := runs arrangement trace
  exact ⟨trace', (run_bind_ok (problem_arranged core arrangement trace)).trans ran⟩

theorem blind_costOf (values : Vec α) : Blind residuals (costOf values) :=
  blind_get_bind (fun _ _ _ => rfl) fun _ => blind_attempt _

omit [Scalar α] in
theorem blind_settle (values : Vec α) : Blind residuals (settle values) := by
  refine blind_get_bind (fun _ _ _ => rfl) fun core => ?_
  refine blind_bind (blind_evaluate _) fun (loss, changed) => ?_
  exact blind_bind (blind_modify fun _ _ _ => rfl) fun _ => blind_pure changed

/-! ## Trying a step -/

theorem blind_lowerDamping (ratio : α) : Blind residuals (lowerDamping ratio) :=
  blind_bind (blind_attempt _) fun _ => blind_modify fun _ _ _ => rfl

theorem blind_raiseDamping : Blind residuals (raiseDamping : Action σ α Unit) :=
  blind_modify fun _ _ _ => rfl

theorem blind_reportProgress (candidateCost ratio : α) :
    Blind residuals (reportProgress candidateCost ratio) := by
  refine blind_get_bind (fun _ _ _ => rfl) fun core => ?_
  refine blind_ite ?_ (blind_pure ())
  exact blind_bind (blind_attempt _) fun _ => blind_report _

theorem blind_accept (candidateCost : α) : Blind residuals (accept candidateCost) := by
  have last : Blind residuals (modify fun solver : Solver σ α =>
      { solver with phase := .differentiate, updated := true }) := blind_modify fun _ _ _ => rfl
  refine blind_bind (blind_modify fun _ _ _ => rfl) fun _ => ?_
  refine blind_get_bind (fun _ _ _ => rfl) fun core => ?_
  refine blind_bind (blind_settle _) fun changed => ?_
  refine blind_ite ?_ last
  refine blind_get_bind (fun _ _ _ => rfl) fun core => ?_
  refine blind_bind (blind_costOf _) fun cost => ?_
  exact blind_bind (blind_modify fun _ _ _ => rfl) fun _ => last

theorem blind_takeOrDrop (candidateCost ratio previous : α) (improved : Bool) :
    Blind residuals (takeOrDrop candidateCost ratio previous improved) := by
  have rest : Blind residuals (do
      reportProgress candidateCost ratio
      if improved then
        accept candidateCost
        if (← get).exhausted then return true
        else attempt ((← get).costSettles candidateCost previous)
      else return (← get).exhausted : Action σ α Bool) := by
    refine blind_bind (blind_reportProgress _ _) fun _ => ?_
    refine blind_ite ?_ (blind_get_bind (fun _ _ _ => rfl) fun _ => blind_pure _)
    refine blind_bind (blind_accept _) fun _ => ?_
    refine blind_get_bind (fun _ _ _ => rfl) fun core => ?_
    refine blind_ite (blind_pure true) ?_
    exact blind_get_bind (fun _ _ _ => rfl) fun _ => blind_attempt _
  refine blind_get_bind (fun _ _ _ => rfl) fun core => ?_
  exact blind_ite (blind_bind (blind_throw _) fun _ => rest) rest

theorem blind_judge (candidateCost actual predicted : α) :
    Blind residuals (judge candidateCost actual predicted) := by
  refine blind_bind (blind_attempt _) fun ratio => ?_
  refine blind_get_bind (fun _ _ _ => rfl) fun core => ?_
  refine blind_ite (blind_bind (blind_lowerDamping ratio) fun _ => ?_)
    (blind_bind blind_raiseDamping fun _ => ?_)
  · exact blind_takeOrDrop _ _ _ _
  · exact blind_takeOrDrop _ _ _ _

theorem blind_evaluateCandidate : Blind residuals (evaluateCandidate : Action σ α α) := by
  refine blind_get_bind (fun _ _ _ => rfl) fun core => ?_
  refine blind_bind (blind_attempt _) fun candidate => ?_
  refine blind_bind (blind_modify fun _ _ _ => rfl) fun _ => ?_
  refine blind_bind (blind_residualsAt candidate) fun answer => ?_
  refine blind_get_bind (fun _ _ _ => rfl) fun core => ?_
  refine blind_bind (blind_attempt _) fun stored => ?_
  exact blind_bind (blind_modify fun _ _ _ => rfl) fun _ => blind_costOf stored

theorem blind_consider (predicted : α) : Blind residuals (consider predicted) := by
  have rest (candidateCost : α) : Blind residuals (do
      let actual := (← get).cost - candidateCost
      if actual == 0.0 || predicted == 0.0 then
        report [.noReduction (← get).fullSteps]
        return true
      else judge candidateCost actual predicted : Action σ α Bool) := by
    refine blind_get_bind (fun _ _ _ => rfl) fun core => ?_
    refine blind_ite ?_ (blind_judge _ _ _)
    refine blind_get_bind (fun _ _ _ => rfl) fun core => ?_
    exact blind_bind (blind_report _) fun _ => blind_pure true
  refine blind_bind blind_evaluateCandidate fun candidateCost => ?_
  exact blind_ite (blind_bind (blind_throw _) fun _ => rest candidateCost) (rest candidateCost)

theorem blind_recoverFromFailure : Blind residuals (recoverFromFailure : Action σ α Bool) := by
  refine blind_get_bind (fun _ _ _ => rfl) fun core => ?_
  refine blind_ite (blind_throw _) ?_
  refine blind_bind (blind_modify fun _ _ _ => rfl) fun _ => ?_
  refine blind_bind (blind_report _) fun _ => ?_
  exact blind_get_bind (fun _ _ _ => rfl) fun _ => blind_pure _

/-! ## Derivatives and calls -/

theorem blind_lossResiduals : Blind residuals (lossResiduals : Action σ α (Vec α)) := by
  refine blind_get_bind (fun _ _ _ => rfl) fun core => ?_
  refine blind_ite ?_ (blind_pure _)
  refine blind_bind (blind_attempt _) fun slopes => ?_
  exact blind_bind (blind_modify fun _ _ _ => rfl) fun _ => blind_pure slopes

omit [Scalar α] in
theorem blind_conclude (converged : Bool) :
    Blind residuals (iterate.conclude converged : Action σ α Bool) := by
  refine blind_ite ?_ (blind_pure _)
  exact blind_bind (blind_modify fun _ _ _ => rfl) fun _ => blind_pure _

/-! ## Starting -/

theorem blind_adoptTolerances (cost? gradient? : Option α) :
    Blind residuals (adoptTolerances cost? gradient? : Action σ α Unit) := by
  refine blind_bind (blind_modify fun _ _ _ => rfl) fun _ => ?_
  exact blind_get_bind (fun _ _ _ => rfl) fun _ => blind_attempt _

theorem blind_resetDamping : Blind residuals (resetDamping : Action σ α Unit) :=
  blind_modify fun _ _ _ => rfl

theorem blind_resetResiduals : Blind residuals (resetResiduals : Action σ α Unit) := by
  refine blind_get_bind (fun _ _ _ => rfl) fun core => ?_
  refine blind_bind (blind_residualsAt _) fun values => ?_
  refine blind_bind (blind_modify fun _ _ _ => rfl) fun _ => ?_
  refine blind_get_bind (fun _ _ _ => rfl) fun core => ?_
  refine blind_bind (blind_attempt _) fun loss => ?_
  refine blind_bind (blind_modify fun _ _ _ => rfl) fun _ => ?_
  exact blind_bind (blind_settle _) fun _ => blind_pure ()

theorem blind_settleStart : Blind residuals (settleStart : Action σ α Unit) := by
  have lines : Blind residuals (do
      let solver ← get
      if solver.verbose then report solver.startLines : Action σ α Unit) :=
    blind_get_bind (fun _ _ _ => rfl) fun core => blind_ite (blind_report _) (blind_pure ())
  refine blind_bind blind_resetDamping fun _ => ?_
  refine blind_bind blind_resetResiduals fun _ => ?_
  refine blind_get_bind (fun _ _ _ => rfl) fun core => ?_
  refine blind_bind (blind_costOf _) fun cost => ?_
  refine blind_bind (blind_modify fun _ _ _ => rfl) fun _ => ?_
  exact blind_ite (blind_bind (blind_throw _) fun _ => lines) lines

theorem start_arranged (core : Solver σ α) (arrangement : Arrangement σ α)
    (trace : List (Event α)) (point : Vec α) (cost? gradient? : Option α) :
    (start point cost? gradient?).run (core.arranged residuals arrangement trace) = (do
      adoptTolerances cost? gradient?
      resetParameters point
      settleStart : Action σ α Unit).run (core.arranged residuals arrangement trace) :=
  start_run arrangement.defined rfl

end Solver

end DampedLeastSquares
