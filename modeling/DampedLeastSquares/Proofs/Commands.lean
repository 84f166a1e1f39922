import DampedLeastSquares.Proofs.Outcome
import DampedLeastSquares.Proofs.Start

/-!
# Everything a caller may ask for

A search is configured, given a loss and functions, started and advanced in any
order, and it outlives every request that is refused. What a request leaves of
the settings and of the damping is stated here for each of them, whether it
returned or not.
-/

set_option autoImplicit false

namespace DampedLeastSquares

variable {σ α : Type}

/-- A request to a search. -/
inductive Command (σ α : Type) where
  | configure (settings? : Option (Settings α))
  | setLoss (loss : Loss σ α)
  | setVerbose (verbose : Bool)
  | setFunctions (residuals : Vec α → Call σ α (View σ α))
      (jacobian? : Option (Vec α → Call σ α (Derivative α))) (split? : Option Int) (world : σ)
  | start (point : Vec α) (cost? gradient? : Option α)
  | iterate

namespace Solver

/-- There is something to start: functions, and Jacobians of a form. -/
def canStart (solver : Solver σ α) : Bool :=
  solver.form != .undefined && solver.problem?.isSome

variable [Scalar α]

section Obeying

variable [Spectral α]

/-- The search after a request, whether the request was met or refused. -/
def obey (solver : Solver σ α) : Command σ α → Solver σ α
  | .configure settings? => ((configureFrom settings?).run solver).2
  | .setLoss loss => solver.setLoss loss
  | .setVerbose verbose => solver.setVerbose verbose
  | .setFunctions residuals jacobian? split? world =>
      ((setFunctions residuals jacobian? split? world).run solver).2
  | .start point cost? gradient? => ((start point cost? gradient?).run solver).2
  | .iterate => solver.next

def afterCommands (solver : Solver σ α) (history : List (Command σ α)) : Solver σ α :=
  history.foldl obey solver

theorem afterCommands_concat (solver : Solver σ α) (history : List (Command σ α))
    (command : Command σ α) :
    solver.afterCommands (history ++ [command]) =
      (solver.afterCommands history).obey command := by
  simp [afterCommands]

end Obeying

/-! ## Configuring and giving functions -/

theorem configure_run_ok {settings : Settings α} (valid : settings.check = .ok ())
    (solver : Solver σ α) :
    (configure settings).run solver = (.ok (), { solver with settings := settings }) :=
  run_attempt_bind_ok valid

theorem configure_run_error {settings : Settings α} {fault : Fault α}
    (refused : settings.check = .error fault) (solver : Solver σ α) :
    (configure settings).run solver = (.error fault, solver) := run_attempt_bind_error refused

theorem setFunctions_given (solver : Solver σ α) (residuals : Vec α → Call σ α (View σ α))
    (jacobian? : Option (Vec α → Call σ α (Derivative α))) (split? : Option Int) (world : σ) :
    ∃ problem? world', ((setFunctions residuals jacobian? split? world).run solver).2 =
      { solver with problem? := problem?, world := world' } := by
  unfold setFunctions
  rw [run_get_bind]
  cases found : solver.jacobianFunction residuals jacobian? split? with
  | error fault =>
      rw [run_attempt_bind_error rfl]
      exact ⟨_, _, rfl⟩
  | ok jacobian =>
      rw [run_attempt_bind_ok rfl]
      exact ⟨_, _, rfl⟩

/-! ## Starting -/

theorem start_run_idle {solver : Solver σ α} (idle : solver.canStart = false) (point : Vec α)
    (cost? gradient? : Option α) :
    ∃ fault, (start point cost? gradient?).run solver = (.error fault, solver) := by
  unfold start
  rw [run_get_bind]
  cases form : solver.form with
  | undefined => exact ⟨_, rfl⟩
  | whole =>
      cases given : solver.problem? with
      | none => exact ⟨_, rfl⟩
      | some problem => simp [canStart, form, given] at idle
  | split =>
      cases given : solver.problem? with
      | none => exact ⟨_, rfl⟩
      | some problem => simp [canStart, form, given] at idle

theorem start_run_of_canStart {solver : Solver σ α} (able : solver.canStart = true)
    (point : Vec α) (cost? gradient? : Option α) :
    (start point cost? gradient?).run solver = (do
      adoptTolerances cost? gradient?
      resetParameters point
      settleStart : Action σ α Unit).run solver := by
  simp only [canStart, Bool.and_eq_true, bne_iff_ne] at able
  obtain ⟨problem, given⟩ := Option.isSome_iff_exists.mp able.2
  exact start_run able.1 given

theorem start_run_refused {solver : Solver σ α} (able : solver.canStart = true)
    {cost? gradient? : Option α} {fault : Fault α}
    (refused : (solver.settings.adopting cost? gradient?).check = .error fault)
    (point : Vec α) :
    (start point cost? gradient?).run solver =
      (.error fault, { solver with settings := solver.settings.adopting cost? gradient? }) := by
  have adopted := adoptTolerances_run solver cost? gradient?
  rw [refused] at adopted
  rw [start_run_of_canStart able, run_bind_error adopted]

/-- What is seen of the search stays as it is, in whichever way the action ends. -/
def Preserves {β γ : Type} (view : Solver σ α → γ) (action : Action σ α β) : Prop :=
  ∀ solver, view (action.run solver).2 = view solver

section Preserving

variable {β γ δ : Type} {view : Solver σ α → γ}

omit [Scalar α] in
theorem preserves_bind {first : Action σ α δ} {next : δ → Action σ α β}
    (start : Preserves view first) (rest : ∀ value, Preserves view (next value)) :
    Preserves view (first >>= next) := by
  intro solver
  have kept := start solver
  rcases ran : first.run solver with ⟨fault | value, after⟩ <;> rw [ran] at kept
  · rw [run_bind_error ran]
    exact kept
  · rw [run_bind_ok ran]
    exact (rest value after).trans kept

omit [Scalar α] in
theorem preserves_modify {change : Solver σ α → Solver σ α}
    (same : ∀ solver, view (change solver) = view solver) :
    Preserves view (modify change : Action σ α Unit) := same

omit [Scalar α] in
theorem preserves_of_kept {action : Action σ α β}
    (kept : ∀ solver, (action.run solver).2 = solver) : Preserves view action :=
  fun solver => congrArg view (kept solver)

omit [Scalar α] in
theorem preserves_get_bind {next : Solver σ α → Action σ α β}
    (rest : ∀ solver, Preserves view (next solver)) : Preserves view (get >>= next) :=
  preserves_bind (fun _ => rfl) rest

omit [Scalar α] in
theorem preserves_ite {condition : Prop} [Decidable condition] {first second : Action σ α β}
    (positive : Preserves view first) (negative : Preserves view second) :
    Preserves view (if condition then first else second) := by
  split
  · exact positive
  · exact negative

end Preserving

/-- What a search is tuned with, and the damping it has come to. -/
def tuning (solver : Solver σ α) : JacobianForm × Settings α × α × α :=
  (solver.form, solver.settings, solver.damping, solver.growth)

theorem preserves_costOf (residuals : Vec α) :
    Preserves tuning (costOf residuals : Action σ α α) := preserves_of_kept fun _ => rfl

omit [Scalar α] in
theorem preserves_evaluate {β : Type} (call : Call σ α β) :
    Preserves tuning (evaluate call : Action σ α β) := fun _ => rfl

omit [Scalar α] in
theorem preserves_problem : Preserves tuning (problem : Action σ α (Problem σ α)) := by
  intro solver
  have kept := (problem_found solver).mono (fun _ _ found => found.1) fun _ _ failed => failed.1
  exact congrArg tuning kept.leaves

omit [Scalar α] in
theorem preserves_residualsAt (x : Vec α) : Preserves tuning (residualsAt x : Action σ α (Vec α)) :=
  preserves_bind preserves_problem fun _ => preserves_bind (preserves_evaluate _) fun _ _ => rfl

theorem preserves_resetResiduals : Preserves tuning (resetResiduals : Action σ α Unit) := by
  refine preserves_get_bind fun solver => ?_
  refine preserves_bind (preserves_residualsAt _) fun residuals => ?_
  refine preserves_bind (preserves_modify fun _ => rfl) fun _ => ?_
  refine preserves_get_bind fun solver => ?_
  refine preserves_bind (fun _ => rfl) fun loss => ?_
  refine preserves_bind (preserves_modify fun _ => rfl) fun _ => ?_
  refine preserves_bind (preserves_get_bind fun solver => ?_) fun _ => fun _ => rfl
  refine preserves_bind (preserves_evaluate _) fun (settled, changed) => ?_
  exact preserves_bind (preserves_modify fun _ => rfl) fun _ => fun _ => rfl

theorem settleStart_tuning (solver : Solver σ α) :
    tuning (settleStart.run solver).2 =
      (solver.form, solver.settings, solver.settings.initialDamping, initialGrowth) := by
  have rest : Preserves tuning (do
      resetResiduals
      let cost ← costOf (← get).residuals
      modify fun solver => { solver with cost := cost }
      if !Scalar.isFinite cost then throw (.breakdown (.initialCost cost))
      let solver ← get
      if solver.verbose then report solver.startLines : Action σ α Unit) := by
    have last : Preserves tuning (do
        let solver ← get
        if solver.verbose then report solver.startLines : Action σ α Unit) :=
      preserves_get_bind fun solver =>
        preserves_ite (preserves_modify fun _ => rfl) fun _ => rfl
    refine preserves_bind preserves_resetResiduals fun _ => preserves_get_bind fun solver => ?_
    refine preserves_bind (preserves_costOf _) fun cost => ?_
    refine preserves_bind (preserves_modify fun _ => rfl) fun _ => ?_
    exact preserves_ite (preserves_bind (fun _ => rfl) fun _ => last) last
  exact rest _

/-- A start sets the damping back once its tolerances are accepted, even if it then fails. -/
theorem start_tuning {solver : Solver σ α} (able : solver.canStart = true)
    {cost? gradient? : Option α}
    (valid : (solver.settings.adopting cost? gradient?).check = .ok ()) (point : Vec α) :
    tuning ((start point cost? gradient?).run solver).2 =
      (solver.form, solver.settings.adopting cost? gradient?, solver.settings.initialDamping,
        initialGrowth) := by
  have adopted := adoptTolerances_run solver cost? gradient?
  rw [valid] at adopted
  rw [start_run_of_canStart able, run_bind_ok adopted]
  exact settleStart_tuning _

/-! ## Settings -/

/-- The settings that a request writes, if it writes any. A start writes before it checks. -/
def written? (solver : Solver σ α) : Command σ α → Option (Settings α)
  | .configure (some settings) =>
      match settings.check with
      | .ok _ => some settings
      | .error _ => none
  | .start _ cost? gradient? =>
      if solver.canStart then some (solver.settings.adopting cost? gradient?) else none
  | _ => none

variable [Spectral α]

theorem obey_configure (solver : Solver σ α) (settings? : Option (Settings α)) :
    solver.obey (.configure settings?) = { solver with
      settings := (solver.written? (.configure settings?)).getD solver.settings } := by
  cases settings? with
  | none => rfl
  | some settings =>
      simp only [written?]
      cases checked : settings.check with
      | error fault => exact congrArg Prod.snd (configure_run_error checked solver)
      | ok _ => exact congrArg Prod.snd (configure_run_ok checked solver)

/-- Only valid settings are configured. -/
theorem check_configure {solver : Solver σ α} (valid : solver.settings.check = .ok ())
    (settings? : Option (Settings α)) :
    (solver.obey (.configure settings?)).settings.check = .ok () := by
  rw [obey_configure]
  cases settings? with
  | none => exact valid
  | some settings =>
      simp only [written?]
      cases checked : settings.check with
      | error fault => exact valid
      | ok _ => exact checked

theorem start_settings (solver : Solver σ α) (point : Vec α) (cost? gradient? : Option α) :
    (solver.obey (.start point cost? gradient?)).settings =
      (solver.written? (.start point cost? gradient?)).getD solver.settings := by
  simp only [obey, written?]
  cases able : solver.canStart with
  | false =>
      obtain ⟨fault, ran⟩ := start_run_idle able point cost? gradient?
      rw [ran]
      rfl
  | true =>
      cases checked : (solver.settings.adopting cost? gradient?).check with
      | error fault =>
          rw [start_run_refused able checked]
          rfl
      | ok _ =>
          have tuned := start_tuning able checked point
          exact congrArg (fun seen => seen.2.1) tuned

theorem obey_settings [IsStrictOrder α (· < ·)] (solver : Solver σ α) (command : Command σ α) :
    (solver.obey command).settings = (solver.written? command).getD solver.settings := by
  cases command with
  | configure settings? => exact congrArg Solver.settings (obey_configure solver settings?)
  | setLoss loss => rfl
  | setVerbose verbose => rfl
  | setFunctions residuals jacobian? split? world =>
      obtain ⟨_, _, given⟩ := setFunctions_given solver residuals jacobian? split? world
      simp only [obey, given]
      rfl
  | start point cost? gradient? => exact start_settings solver point cost? gradient?
  | iterate => exact (next_configured solver).settings

/-! ## Going on -/

/-- The request does not start the search anew. -/
def GoesOn : Command σ α → Prop
  | .start _ _ _ => False
  | _ => True

/-- The request neither starts the search nor gives it functions. -/
def Continues : Command σ α → Prop
  | .start _ _ _ => False
  | .setFunctions _ _ _ _ => False
  | _ => True

/-- Such a request advances the search, or it leaves what the search has come to. -/
theorem obey_goesOn (solver : Solver σ α) {command : Command σ α} (goesOn : GoesOn command) :
    command = .iterate ∨ command ≠ .iterate ∧ ∃ settings loss verbose problem? world,
      solver.obey command =
        { solver with
          settings := settings, loss := loss, verbose := verbose
          problem? := problem?, world := world } := by
  cases command with
  | iterate => exact .inl rfl
  | setLoss loss => exact .inr ⟨nofun, _, _, _, _, _, rfl⟩
  | setVerbose verbose => exact .inr ⟨nofun, _, _, _, _, _, rfl⟩
  | start => exact goesOn.elim
  | setFunctions residuals jacobian? split? world =>
      obtain ⟨_, _, given⟩ := setFunctions_given solver residuals jacobian? split? world
      exact .inr ⟨nofun, _, _, _, _, _, given⟩
  | configure settings? => exact .inr ⟨nofun, _, _, _, _, _, obey_configure solver settings?⟩

/-- Such a request advances the search, or it changes what the search is tuned with. -/
theorem obey_continues {solver : Solver σ α} (valid : solver.settings.check = .ok ())
    {command : Command σ α} (continues : Continues command) :
    command = .iterate ∨ ∃ settings loss verbose, settings.check = .ok () ∧
      solver.obey command =
        { solver with settings := settings, loss := loss, verbose := verbose } := by
  cases command with
  | iterate => exact .inl rfl
  | setLoss loss => exact .inr ⟨_, _, _, valid, rfl⟩
  | setVerbose verbose => exact .inr ⟨_, _, _, valid, rfl⟩
  | start => exact continues.elim
  | setFunctions => exact continues.elim
  | configure settings? =>
      have checked := check_configure valid settings?
      rw [obey_configure] at checked ⊢
      exact .inr ⟨_, _, _, checked, rfl⟩

end Solver

end DampedLeastSquares
