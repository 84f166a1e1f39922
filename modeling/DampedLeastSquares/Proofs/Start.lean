import DampedLeastSquares.Proofs.Call

/-!
# What a successful start leaves

A start that succeeds sets everything back: the settings are valid, every buffer
has the size of the parameters or of the residuals, and the loss has settled.
-/

set_option autoImplicit false

namespace DampedLeastSquares

variable {σ α : Type} [Scalar α]

theorem Loss.prepare_keeps {loss prepared : Loss σ α} {functions : Nat}
    (ready : loss.prepare functions = .ok prepared) :
    (loss.IsStatic → prepared.IsStatic) ∧
      (loss.Chooses → prepared.Chooses ∧ prepared.Weighs functions) := by
  unfold prepare at ready
  split at ready
  · split at ready
    · cases ready
      exact ⟨fun _ => trivial, fun _ => ⟨trivial, trivial⟩⟩
    · cases ready
  · next choose weights shape =>
      split at ready
      · cases ready
      · cases ready
        simp only [IsStatic, Chooses, Weighs, shape]
        exact ⟨id, fun chooses => ⟨chooses, by simp [Vec.ones]⟩⟩
  · next other =>
      cases ready
      refine ⟨fun static => static, fun chooses => ⟨chooses, ?_⟩⟩
      unfold Weighs
      dsimp only
      split
      · next choose weights shape => exact (other choose weights shape).elim
      · trivial

/-- The loss was prepared for the residuals and settled on them. -/
def Loss.Readied (loss : Loss σ α) (residuals : Vec α) (ready : Loss σ α) : Prop :=
  ∃ prepared before changed after, loss.prepare residuals.length = .ok prepared ∧
    (prepared.settle residuals).run before = (.ok (ready, changed), after)

theorem Loss.Readied.keeps {loss ready : Loss σ α} {residuals : Vec α}
    (readied : loss.Readied residuals ready) :
    (loss.IsStatic → ready.IsStatic) ∧
      (loss.Chooses → ready.Chooses ∧ ready.Weighs residuals.length) := by
  obtain ⟨prepared, before, changed, after, prepares, settles⟩ := readied
  obtain ⟨staysStatic, staysChoosing⟩ := Loss.prepare_keeps prepares
  have settling (chooses : prepared.Chooses) (weighs : prepared.Weighs residuals.length) :
      ready.Chooses ∧ ready.Weighs residuals.length ∧ (prepared.IsStatic → ready.IsStatic) := by
    obtain ⟨_, _, _, ends, chooses, weighs, _, static⟩ := Loss.settle_ends chooses weighs before
    cases ends.symm.trans settles
    exact ⟨chooses, weighs, fun kept => (static kept).2.1⟩
  refine ⟨fun static => ?_, fun chooses => ?_⟩
  · have static := staysStatic static
    exact (settling static.chooses (static.weighs _)).2.2 static
  · obtain ⟨chooses, weighs⟩ := staysChoosing chooses
    obtain ⟨chooses, weighs, _⟩ := settling chooses weighs
    exact ⟨chooses, weighs⟩

/-- The settings with tolerances that a start was given. -/
def Settings.adopting (settings : Settings α) (cost? gradient? : Option α) : Settings α :=
  { settings with
    costTolerance := cost?.getD settings.costTolerance
    gradientTolerance := gradient?.getD settings.gradientTolerance }

namespace Solver

/-- Every buffer has the size of the parameters or of the residuals. -/
structure Sized (solver : Solver σ α) (parameters functions : Nat) : Prop where
  x : solver.x.length = parameters
  candidate : solver.candidate.length = parameters
  step : solver.step.length = parameters
  gradient : solver.gradient.length = parameters
  scaling : solver.scaling.length = parameters
  plainDiagonal : solver.plainDiagonal.length = parameters
  dampedDiagonal : solver.dampedDiagonal.length = parameters
  residuals : solver.residuals.length = functions
  candidateResiduals : solver.candidateResiduals.length = functions
  lossGradient : solver.lossGradient.length = functions

/-- The residual function answered with `residuals` at `x`. -/
def Answered (solver : Solver σ α) (x residuals : Vec α) : Prop :=
  ∃ problem before after answer, solver.problem? = some problem ∧
    (problem.residuals x).run before = (.ok answer, after) ∧ answer.flatten = residuals

/-- A search that a start at a point left behind. -/
structure Started (idle solver : Solver σ α) (point : Vec α) : Prop where
  form : solver.form = idle.form
  problem : solver.problem? = idle.problem?
  normal : solver.normal = idle.normal.reset point.length
  phase : solver.phase = .differentiate
  settings : ∃ costTolerance gradientTolerance, solver.settings = { idle.settings with
    costTolerance := costTolerance, gradientTolerance := gradientTolerance }
  damping : solver.damping = solver.settings.initialDamping
  growth : solver.growth = initialGrowth
  x : solver.x = point
  sized : solver.Sized point.length solver.residuals.length
  valid : solver.settings.check = .ok ()
  answered : solver.Answered point solver.residuals
  static : idle.loss.IsStatic → solver.loss.IsStatic
  chooses : idle.loss.Chooses →
    solver.loss.Chooses ∧ solver.loss.Weighs solver.residuals.length

/-- What is left of a start once there is room for the parameters. -/
def settleStart : Action σ α Unit := do
  resetDamping
  resetResiduals
  let cost ← costOf (← get).residuals
  modify fun solver => { solver with cost := cost }
  if !Scalar.isFinite cost then throw (.breakdown (.initialCost cost))
  let solver ← get
  if solver.verbose then report solver.startLines

/-- The tolerances are written before they are looked at. -/
theorem adoptTolerances_run (solver : Solver σ α) (cost? gradient? : Option α) :
    (adoptTolerances cost? gradient?).run solver =
      ((solver.settings.adopting cost? gradient?).check,
        { solver with settings := solver.settings.adopting cost? gradient? }) := by
  unfold adoptTolerances
  rw [run_modify_bind, run_get_bind]
  rfl

theorem start_run {idle : Solver σ α} (defined : idle.form ≠ .undefined) {problem : Problem σ α}
    (given : idle.problem? = some problem) {point : Vec α} {cost? gradient? : Option α} :
    (start point cost? gradient?).run idle = (do
      adoptTolerances cost? gradient?
      resetParameters point
      settleStart : Action σ α Unit).run idle := by
  unfold start
  rw [run_get_bind, given]
  cases form : idle.form with
  | undefined => exact (defined form).elim
  | whole => rfl
  | split => rfl

theorem adoptTolerances_ensures (solver : Solver σ α) (cost? gradient? : Option α) :
    Ensures (adoptTolerances cost? gradient?) solver
      (fun _ after => after = { solver with
          settings := solver.settings.adopting cost? gradient? } ∧
        after.settings.check = .ok ())
      fun _ _ => True := by
  unfold adoptTolerances
  rw [ensures_bind, ensures_modify, ensures_bind, ensures_get, ensures_attempt]
  exact ⟨fun _ valid => ⟨rfl, valid⟩, fun _ _ => trivial⟩

/-- The residual function answered with `residuals` at `x`, and the loss was prepared for that
many and settled on them. -/
def Opens (solver : Solver σ α) (x residuals : Vec α) (loss : Loss σ α) (world : σ) : Prop :=
  ∃ (problem : Problem σ α) (answer : Tensor α) (asked : σ) (prepared : Loss σ α) (changed : Bool),
    solver.problem? = some problem ∧
    (problem.residuals x).run solver.world = (.ok answer, asked) ∧ answer.flatten = residuals ∧
    solver.loss.prepare residuals.length = .ok prepared ∧
    (prepared.settle residuals).run asked = (.ok (loss, changed), world)

theorem Opens.answered {solver : Solver σ α} {x residuals : Vec α} {loss : Loss σ α} {world : σ}
    (opens : solver.Opens x residuals loss world) : solver.Answered x residuals := by
  obtain ⟨problem, answer, asked, _, _, given, ran, flat, _, _⟩ := opens
  exact ⟨problem, solver.world, asked, answer, given, ran, flat⟩

theorem Opens.readied {solver : Solver σ α} {x residuals : Vec α} {loss : Loss σ α} {world : σ}
    (opens : solver.Opens x residuals loss world) : solver.loss.Readied residuals loss := by
  obtain ⟨_, _, asked, prepared, changed, _, _, _, ready, settles⟩ := opens
  exact ⟨prepared, asked, changed, world, ready, settles⟩

theorem resetResiduals_ensures (solver : Solver σ α) :
    Ensures resetResiduals solver
      (fun _ after => ∃ (residuals : Vec α) (loss : Loss σ α) (world : σ),
        after = { solver with
          residuals := residuals, candidateResiduals := Vec.zeros residuals.length
          lossGradient := Vec.zeros residuals.length, loss := loss, world := world } ∧
        solver.Opens solver.x residuals loss world)
      fun _ _ => True := by
  unfold resetResiduals residualsAt
  rw [ensures_bind, ensures_get, ensures_bind, ensures_bind]
  refine (problem_found _).mono ?_ fun _ _ _ => trivial
  intro found _ answered
  obtain ⟨rfl, given⟩ := answered
  rw [ensures_bind, ensures_evaluate]
  refine ⟨fun answer world ran => ?_, fun _ _ _ => trivial⟩
  rw [ensures_pure, ensures_bind, ensures_modify, ensures_bind, ensures_get, ensures_bind,
    ensures_attempt]
  refine ⟨fun prepared ready => ?_, fun _ _ => trivial⟩
  unfold settle
  rw [ensures_bind, ensures_modify, ensures_bind, ensures_bind, ensures_get, ensures_bind,
    ensures_evaluate]
  refine ⟨fun (settled, changed) after settles => ?_, fun _ _ _ => trivial⟩
  exact ⟨answer.flatten, settled, after, rfl, found, answer, world, prepared, changed, given, ran,
    rfl, ready, settles⟩

/-- What a start leaves behind that found these residuals and this cost. -/
def opened (idle : Solver σ α) (point : Vec α) (cost? gradient? : Option α) (residuals : Vec α)
    (loss : Loss σ α) (world : σ) (cost : α) (trace : List (Event α)) : Solver σ α :=
  { idle with
    settings := idle.settings.adopting cost? gradient?
    x := point, candidate := Vec.zeros point.length
    step := Vec.zeros point.length, gradient := Vec.zeros point.length
    scaling := Vec.ones point.length, normal := idle.normal.reset point.length
    phase := .differentiate, fullSteps := 0, retries := 0, updated := false
    damping := idle.settings.initialDamping, growth := initialGrowth
    plainDiagonal := Vec.zeros point.length, dampedDiagonal := Vec.zeros point.length
    residuals := residuals, candidateResiduals := Vec.zeros residuals.length
    lossGradient := Vec.zeros residuals.length, loss := loss, world := world, cost := cost
    trace := trace }

theorem start_ends (idle : Solver σ α) (point : Vec α) (cost? gradient? : Option α) :
    Ensures (start point cost? gradient?) idle
      (fun _ after => ∃ residuals loss world cost trace,
        after = idle.opened point cost? gradient? residuals loss world cost trace ∧
        (idle.settings.adopting cost? gradient?).check = .ok () ∧
        idle.Opens point residuals loss world ∧ loss.cost residuals = .ok cost ∧
        Scalar.isFinite cost = true)
      fun _ _ => True := by
  unfold start
  rw [ensures_bind, ensures_get]
  split
  · trivial
  · trivial
  rw [ensures_bind]
  refine (adoptTolerances_ensures _ _ _).mono ?_ fun _ _ _ => trivial
  intro _ _ adopted
  obtain ⟨rfl, valid⟩ := adopted
  unfold resetParameters resetDamping
  rw [ensures_bind, ensures_modify, ensures_bind, ensures_modify, ensures_bind]
  refine (resetResiduals_ensures _).mono ?_ fun _ _ _ => trivial
  intro _ middle settled
  obtain ⟨residuals, loss, world, rfl, opens⟩ := settled
  unfold costOf
  rw [ensures_bind, ensures_get, ensures_bind, ensures_bind, ensures_get, ensures_attempt]
  refine ⟨fun cost costed => ?_, fun _ _ => trivial⟩
  rw [ensures_bind, ensures_modify, ensures_ite]
  refine ⟨fun _ => trivial, fun finite => ?_⟩
  have finite : Scalar.isFinite cost = true := by simpa using finite
  rw [ensures_bind, ensures_get, ensures_ite]
  exact ⟨fun _ => ⟨residuals, loss, world, cost, _, rfl, valid, opens, costed, finite⟩,
    fun _ => ⟨residuals, loss, world, cost, _, rfl, valid, opens, costed, finite⟩⟩

/-- The loss has settled on the residuals, the cost is what it makes of them, and the tolerances
are those the start was given. -/
theorem start_leaves (idle : Solver σ α) (point : Vec α) (cost? gradient? : Option α) :
    Ensures (start point cost? gradient?) idle
      (fun _ after => Started idle after point ∧ idle.loss.Readied after.residuals after.loss ∧
        after.loss.cost after.residuals = .ok after.cost ∧
        Scalar.isFinite after.cost = true ∧
        after.settings = idle.settings.adopting cost? gradient?)
      fun _ _ => True := by
  refine (start_ends idle point cost? gradient?).mono ?_ fun _ _ _ => trivial
  rintro _ _ ⟨residuals, loss, world, cost, trace, rfl, valid, opens, costed, finite⟩
  obtain ⟨static, chooses⟩ := opens.readied.keeps
  have sized : (idle.opened point cost? gradient? residuals loss world cost trace).Sized
      point.length residuals.length := by
    constructor <;> simp [opened, Vec.zeros, Vec.ones]
  exact ⟨⟨rfl, rfl, rfl, rfl, ⟨_, _, rfl⟩, rfl, rfl, rfl, sized, valid, opens.answered, static,
    chooses⟩, opens.readied, costed, finite, rfl⟩

theorem start_ensures (idle : Solver σ α) (point : Vec α) (cost? gradient? : Option α) :
    Ensures (start point cost? gradient?) idle
      (fun _ after => Started idle after point) fun _ _ => True :=
  (start_leaves idle point cost? gradient?).mono (fun _ _ left => left.1) fun _ _ _ => trivial

end Solver

end DampedLeastSquares
