import DampedLeastSquares.Proofs.Progression
import DampedLeastSquares.Proofs.Sizes

/-!
# What a search asks for

A search asks its caller's functions for residuals and Jacobians, and its loss
to settle. Nothing else reaches the loss or the state of these functions, so
what a call makes of both tells what it asked for, and in which order. The loss
is asked once for every state that a search takes over.
-/

set_option autoImplicit false

namespace DampedLeastSquares

variable {σ α β γ : Type}

inductive Request (α : Type) where
  | residuals (x : Vec α)
  | jacobian (x : Vec α)
  /-- The loss is to settle on the residuals. -/
  | settling (residuals : Vec α)

namespace Request

/-- The loss and the state of the caller's functions once the request was served. -/
def serve [Scalar α] (problem : Problem σ α) (current : Loss σ α × σ) :
    Request α → Loss σ α × σ
  | residuals x => (current.1, ((problem.residuals x).run current.2).2)
  | jacobian x => (current.1, ((problem.jacobian x).run current.2).2)
  | settling values =>
      match (current.1.settle values).run current.2 with
      | (.ok (settled, _), world) => (settled, world)
      | (.error _, world) => (current.1, world)

/-- What the loss is to settle on, if that is the request. -/
def settling? : Request α → Option (Vec α)
  | settling values => some values
  | _ => none

end Request

namespace Solver

/-- On the way from one search to another, some requests were served in order. Those to the
loss were to settle on the given residuals. -/
def Asked [Scalar α] (problem : Problem σ α) (settlings : List (Vec α))
    (before after : Solver σ α) : Prop :=
  ∃ requests : List (Request α),
    requests.foldl (Request.serve problem) (before.loss, before.world) =
      (after.loss, after.world) ∧
    requests.filterMap Request.settling? = settlings

section Asked

variable [Scalar α] {problem : Problem σ α} {before middle after : Solver σ α}

theorem asked_nothing (loss : after.loss = before.loss) (world : after.world = before.world) :
    Asked problem [] before after := by
  refine ⟨[], ?_, rfl⟩
  rw [loss, world]
  rfl

theorem asked_residuals (x : Vec α) (loss : after.loss = before.loss)
    (world : after.world = ((problem.residuals x).run before.world).2) :
    Asked problem [] before after := by
  refine ⟨[.residuals x], ?_, rfl⟩
  rw [loss, world]
  rfl

theorem asked_jacobian (x : Vec α) (loss : after.loss = before.loss)
    (world : after.world = ((problem.jacobian x).run before.world).2) :
    Asked problem [] before after := by
  refine ⟨[.jacobian x], ?_, rfl⟩
  rw [loss, world]
  rfl

theorem asked_settling {residuals : Vec α} {changed : Bool}
    (settled : (before.loss.settle residuals).run before.world =
      (.ok (after.loss, changed), after.world)) :
    Asked problem [residuals] before after := by
  refine ⟨[.settling residuals], ?_, rfl⟩
  simp only [List.foldl_cons, List.foldl_nil, Request.serve, settled]

theorem Asked.trans {first second : List (Vec α)} (start : Asked problem first before middle)
    (rest : Asked problem second middle after) :
    Asked problem (first ++ second) before after := by
  obtain ⟨requests, served, rfl⟩ := start
  obtain ⟨requests', served', rfl⟩ := rest
  refine ⟨requests ++ requests', ?_, List.filterMap_append⟩
  rw [List.foldl_append, served, served']

end Asked

/-! ## Asking for nothing -/

/-- The action leaves the loss and the state of the caller's functions alone. -/
def Silent (action : Action σ α β) : Prop :=
  ∀ solver, Leaves action solver fun after =>
    after.loss = solver.loss ∧ after.world = solver.world

section Rules

theorem silent_pure (value : β) : Silent (pure value : Action σ α β) := fun _ => ⟨rfl, rfl⟩

theorem silent_throw (fault : Fault α) : Silent (throw fault : Action σ α β) :=
  fun _ => ⟨rfl, rfl⟩

theorem silent_attempt (result : Except (Fault α) β) : Silent (attempt result : Action σ α β) :=
  fun _ => ensures_attempt.mpr ⟨fun _ _ => ⟨rfl, rfl⟩, fun _ _ => ⟨rfl, rfl⟩⟩

theorem silent_modify {change : Solver σ α → Solver σ α}
    (loss : ∀ solver, (change solver).loss = solver.loss)
    (world : ∀ solver, (change solver).world = solver.world) : Silent (modify change) :=
  fun solver => ⟨loss solver, world solver⟩

theorem silent_changeNormal
    (change : NormalMatrix α → Except (Fault α) Unit × NormalMatrix α) :
    Silent (changeNormal change : Action σ α Unit) :=
  fun _ => ensures_changeNormal.mpr ⟨fun _ _ => ⟨rfl, rfl⟩, fun _ _ _ => ⟨rfl, rfl⟩⟩

theorem silent_bind {first : Action σ α γ} {next : γ → Action σ α β} (start : Silent first)
    (rest : ∀ value, Silent (next value)) : Silent (first >>= next) := by
  intro solver
  refine (start solver).bind fun value middle ⟨loss, world⟩ => ?_
  rw [← loss, ← world]
  exact rest value middle

theorem silent_get_bind {next : Solver σ α → Action σ α β}
    (rest : ∀ solver, Silent (next solver)) : Silent (get >>= next) :=
  silent_bind (fun _ => ⟨rfl, rfl⟩) rest

theorem silent_ite {condition : Prop} [Decidable condition] {first second : Action σ α β}
    (positive : Silent first) (negative : Silent second) :
    Silent (if condition then first else second) := by
  split
  · exact positive
  · exact negative

end Rules

section Derivatives

variable [Scalar α]

theorem silent_lossResiduals : Silent (lossResiduals : Action σ α (Vec α)) := by
  refine silent_get_bind fun solver => silent_ite ?_ (silent_pure _)
  refine silent_bind (silent_attempt _) fun slopes => ?_
  exact silent_bind (silent_modify (fun _ => rfl) fun _ => rfl) fun _ => silent_pure slopes

theorem silent_deriveWhole (jacobian : Derivative α) :
    Silent (deriveWhole jacobian : Action σ α Unit) := by
  unfold deriveWhole
  split
  · exact silent_throw _
  refine silent_get_bind fun solver => silent_bind (silent_attempt _) fun _ => ?_
  refine silent_bind (silent_changeNormal _) fun _ => ?_
  refine silent_bind silent_lossResiduals fun slopes => ?_
  refine silent_bind (silent_attempt _) fun product => ?_
  refine silent_bind (silent_attempt _) fun gradient => ?_
  exact silent_modify (fun _ => rfl) fun _ => rfl

theorem silent_deriveSplit (jacobian : Derivative α) :
    Silent (deriveSplit jacobian : Action σ α Unit) := by
  refine silent_bind (silent_attempt _) fun (left, right) => ?_
  refine silent_get_bind fun solver => silent_bind (silent_attempt _) fun leftWidth => ?_
  refine silent_bind (silent_attempt _) fun _ => silent_bind (silent_attempt _) fun _ => ?_
  refine silent_bind (silent_changeNormal _) fun _ => ?_
  refine silent_bind silent_lossResiduals fun slopes => ?_
  refine silent_bind (silent_attempt _) fun gradient => ?_
  exact silent_modify (fun _ => rfl) fun _ => rfl

theorem silent_derive (form : JacobianForm) (jacobian : Derivative α) :
    Silent (derive form jacobian : Action σ α Unit) := by
  cases form with
  | whole => exact silent_deriveWhole jacobian
  | split => exact silent_deriveSplit jacobian
  | undefined => exact silent_throw _

theorem silent_rescale : Silent (rescale : Action σ α Unit) := by
  refine silent_get_bind fun solver => silent_bind (silent_attempt _) fun diagonal => ?_
  refine silent_bind (silent_modify (fun _ => rfl) fun _ => rfl) fun _ => ?_
  refine silent_bind (silent_attempt _) fun gradient => ?_
  refine silent_bind (silent_modify (fun _ => rfl) fun _ => rfl) fun _ => ?_
  exact silent_changeNormal _

theorem silent_keepDiagonal : Silent (keepDiagonal : Action σ α Bool) := by
  have last : Silent (do
      modify fun solver => { solver with phase := .search }
      return false : Action σ α Bool) :=
    silent_bind (silent_modify (fun _ => rfl) fun _ => rfl) fun _ => silent_pure _
  refine silent_get_bind fun solver => silent_bind (silent_attempt _) fun diagonal => ?_
  refine silent_bind (silent_modify (fun _ => rfl) fun _ => rfl) fun _ => ?_
  exact silent_ite (silent_bind (silent_throw _) fun _ => last) last

theorem silent_prepareSearch : Silent (prepareSearch : Action σ α Bool) := by
  have rest (solver : Solver σ α) : Silent (do
      if solver.gradientVanishes solver.gradient then return true
      else
        if solver.settings.rescaling then rescale
        keepDiagonal : Action σ α Bool) := by
    refine silent_ite (silent_pure _) ?_
    exact silent_ite (silent_bind silent_rescale fun _ => silent_keepDiagonal) silent_keepDiagonal
  refine silent_get_bind fun solver => ?_
  exact silent_ite (silent_bind (silent_throw _) fun _ => rest solver) (rest solver)

theorem updateDerivatives_asked {problem : Problem σ α} (solver : Solver σ α)
    (given : solver.problem? = some problem) :
    Leaves updateDerivatives solver (Asked problem [] solver) := by
  obtain ⟨fault, ran, _⟩ | ⟨found, foundAs, ran⟩ := updateDerivatives_cases solver
  · exact ensures_of_error ran (asked_nothing rfl rfl)
  cases foundAs.symm.trans given
  have rest (jacobian : Derivative α) : Silent (do
      derive solver.form jacobian
      prepareSearch : Action σ α Bool) :=
    silent_bind (silent_derive _ jacobian) fun _ => silent_prepareSearch
  refine Ensures.of_run_eq ?_ ran
  rw [ensures_bind, ensures_evaluate]
  constructor
  · intro jacobian world asked
    have world_eq : world = ((problem.jacobian solver.x).run solver.world).2 :=
      (congrArg Prod.snd asked).symm
    exact (rest jacobian _).mono fun _ ⟨loss, still⟩ =>
      asked_jacobian solver.x loss (still.trans world_eq)
  · intro fault world asked
    exact asked_jacobian solver.x rfl (congrArg Prod.snd asked).symm

/-! ## Trying a step -/

theorem evaluateCandidate_asked {problem : Problem σ α} (solver : Solver σ α)
    (given : solver.problem? = some problem) :
    Leaves evaluateCandidate solver (Asked problem [] solver) := by
  unfold Leaves evaluateCandidate
  rw [ensures_bind, ensures_get, ensures_bind, ensures_attempt]
  refine ⟨fun candidate _ => ?_, fun _ _ => asked_nothing rfl rfl⟩
  rw [ensures_bind, ensures_modify, ensures_bind]
  unfold residualsAt
  rw [ensures_bind]
  refine (problem_found _).mono ?_ fun _ _ ⟨same, _⟩ => same ▸ asked_nothing rfl rfl
  rintro found _ ⟨rfl, foundAs⟩
  cases foundAs.symm.trans given
  have asked {after : Solver σ α} {world : σ} {result : Except (Fault α) (Tensor α)}
      (ran : (problem.residuals candidate).run solver.world = (result, world))
      (loss : after.loss = solver.loss) (same : after.world = world) :
      Asked problem [] solver after :=
    asked_residuals candidate loss (same.trans (congrArg Prod.snd ran).symm)
  rw [ensures_bind, ensures_evaluate]
  refine ⟨fun answer world ran => ?_, fun fault world ran => asked ran rfl rfl⟩
  rw [ensures_pure, ensures_bind, ensures_attempt]
  refine ⟨fun stored _ => ?_, fun _ _ => asked ran rfl rfl⟩
  unfold costOf
  rw [ensures_bind, ensures_modify, ensures_bind, ensures_get, ensures_attempt]
  exact ⟨fun _ _ => asked ran rfl rfl, fun _ _ => asked ran rfl rfl⟩

/-- What an action of a trial has asked for: to settle on the residuals of the state that it took
over, if it took one over. -/
def AskedOnce (problem : Problem σ α) (before after : Solver σ α) : Prop :=
  Asked problem [] before after ∧ after.updated = before.updated ∨
    Asked problem [after.residuals] before after ∧ after.updated = true

theorem accept_asked (problem : Problem σ α) (solver : Solver σ α) (cost : α)
    (chooses : solver.loss.Chooses)
    (weighs : solver.loss.Weighs solver.candidateResiduals.length) :
    Ensures (accept cost) solver
      (fun _ after => Asked problem [after.residuals] solver after ∧ after.updated = true)
      fun _ _ => False := by
  refine (accept_ends solver cost).mono ?_ ?_
  · rintro _ _ ⟨loss, changed, world, _, settled, _, rfl⟩
    exact ⟨asked_settling settled, rfl⟩
  · rintro fault after ⟨_, _, unsettled, _⟩
    exact chooses.not_unsettled weighs unsettled

variable [IsStrictOrder α (· < ·)]

theorem consider_asked (problem : Problem σ α) (solver : Solver σ α) (predicted : α)
    (given : solver.problem? = some problem) (chooses : solver.loss.Chooses)
    (weighs : solver.loss.Weighs solver.candidateResiduals.length) :
    Ensures (consider predicted) solver (fun _ after => AskedOnce problem solver after)
      fun _ after => Asked problem [] solver after ∧ after.updated = solver.updated := by
  unfold consider
  rw [ensures_bind]
  refine ((evaluateCandidate_examined solver).and (evaluateCandidate_asked solver given)).mono ?_ ?_
  · rintro cost _ ⟨⟨⟨world, candidate, residuals, rfl⟩, _, _, size, _⟩, asked⟩
    have weighs' : solver.loss.Weighs residuals.length := by rwa [size]
    rw [ensures_ite]
    refine ⟨fun _ => ⟨asked, rfl⟩, fun _ => ?_⟩
    rw [ensures_bind, ensures_get, ensures_ite]
    refine ⟨fun _ => .inl ⟨asked.trans (asked_nothing rfl rfl), rfl⟩, fun _ => ?_⟩
    refine (judge_ensures _ cost _ _ (fun after => Asked problem [after.residuals] solver after ∧
      after.updated = true) (fun _ _ => False) ?_).mono ?_ ?_
    · intro _ damping growth trace
      refine (accept_asked problem { solver with
        world := world, candidate := candidate, candidateResiduals := residuals
        damping := damping, growth := growth, trace := trace } cost chooses weighs').mono ?_
        fun _ _ never => never
      exact fun _ after ⟨settled, updated⟩ =>
        ⟨asked.trans ((asked_nothing rfl rfl).trans settled), updated⟩
    · rintro _ _ (⟨_, _, _, rfl⟩ | ⟨_, taken⟩)
      · exact .inl ⟨asked.trans (asked_nothing rfl rfl), rfl⟩
      · exact .inr taken
    · rintro _ _ (⟨⟨_, _, _, rfl⟩, _⟩ | never)
      · exact ⟨asked.trans (asked_nothing rfl rfl), rfl⟩
      · exact never.elim
  · rintro _ _ ⟨⟨⟨_, _, _, rfl⟩, _⟩, asked⟩
    exact ⟨asked, rfl⟩

variable [Spectral α]

theorem tryStep_asked (problem : Problem σ α) (solver : Solver σ α)
    (given : solver.problem? = some problem) (chooses : solver.loss.Chooses)
    (weighs : solver.loss.Weighs solver.candidateResiduals.length) :
    Ensures tryStep solver (fun _ after => AskedOnce problem solver after)
      fun _ after => Asked problem [] solver after ∧ after.updated = solver.updated := by
  rw [tryStep_eq, ensures_bind]
  refine (propose_proposed solver).mono ?_ ?_
  · rintro predicted? _ ⟨normal, trace, dampedDiagonal, step, rfl⟩
    cases predicted? with
    | none =>
        refine (recoverFromFailure_ensures _).mono ?_ ?_
        · rintro _ _ ⟨_, _, rfl⟩
          exact .inl ⟨asked_nothing rfl rfl, rfl⟩
        · rintro _ _ ⟨rfl, _⟩
          exact ⟨asked_nothing rfl rfl, rfl⟩
    | some predicted =>
        exact consider_asked problem { solver with
          normal := normal, trace := trace, dampedDiagonal := dampedDiagonal, step := step }
          predicted given chooses weighs
  · rintro _ _ ⟨⟨_, _, _, _, rfl⟩, _⟩
    exact ⟨asked_nothing rfl rfl, rfl⟩

/-! ## A call -/

/-- The residuals that the last call had to settle the loss on, if its state is a new one. -/
def lastSettled (solver : Solver σ α) : List (Vec α) :=
  if solver.updated = true then [solver.residuals] else []

theorem iterate_asked {problem : Problem σ α} (before : Solver σ α)
    (given : before.problem? = some problem) (chooses : before.loss.Chooses)
    (weighs : before.loss.Weighs before.candidateResiduals.length) :
    Ensures iterate before (fun _ after => Asked problem after.lastSettled before after)
      fun _ after => Asked problem [] before after ∧ after.updated = false := by
  have dropped {after : Solver σ α} (updated : after.updated = false) :
      after.lastSettled = [] := by
    simp [lastSettled, updated]
  have concluded {after : Solver σ α} (converged : Bool)
      (asked : Asked problem after.lastSettled before after) :
      Ensures (iterate.conclude converged) after
        (fun _ final => Asked problem final.lastSettled before final)
        fun _ final => Asked problem [] before final ∧ final.updated = false :=
    conclude_ensures converged fun _ => asked
  cases phase : before.phase with
  | differentiate =>
      refine Ensures.of_run_eq ?_ (iterate_run_differentiate phase)
      rw [ensures_bind]
      refine ((updateDerivatives_derived _).and (updateDerivatives_asked
        { before with updated := false, fullSteps := before.fullSteps + 1 } given)).mono ?_ ?_
      · intro converged after ⟨differenced, asked⟩
        have updated : after.updated = false := by
          obtain ⟨_, _, _, _, _, _, _, _, rfl⟩ := differenced
          rfl
        exact concluded converged ((dropped updated).symm ▸ asked)
      · rintro _ _ ⟨⟨⟨_, _, _, _, _, _, _, rfl⟩, _⟩, asked⟩
        exact ⟨asked, rfl⟩
  | search =>
      refine Ensures.of_run_eq ?_ (iterate_run_search phase)
      rw [ensures_bind]
      refine (tryStep_asked problem { before with
        updated := false, retries := before.retries + 1 } given chooses weighs).mono ?_
        fun _ _ ended => ended
      rintro converged after (⟨asked, updated⟩ | ⟨asked, updated⟩)
      · exact concluded converged ((dropped updated).symm ▸ asked)
      · have settled : after.lastSettled = [after.residuals] := if_pos updated
        exact concluded converged (settled.symm ▸ asked)
  | converged =>
      refine ensures_of_ok (iterate_run_converged phase) ?_
      rw [dropped rfl]
      exact asked_nothing rfl rfl

theorem next_asked {problem : Problem σ α} {before : Solver σ α}
    (given : before.problem? = some problem) (chooses : before.loss.Chooses)
    (weighs : before.loss.Weighs before.candidateResiduals.length) :
    Asked problem before.next.lastSettled before before.next := by
  refine ((before.iterate_asked given chooses weighs).mono (fun _ _ asked => asked) ?_).leaves
  rintro _ after ⟨asked, updated⟩
  rw [lastSettled, if_neg (by simp [updated])]
  exact asked

end Derivatives

end Solver

end DampedLeastSquares
