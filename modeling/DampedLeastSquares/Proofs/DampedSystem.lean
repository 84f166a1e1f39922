import DampedLeastSquares.Proofs.Exact.Damping
import DampedLeastSquares.Proofs.Exact.Derivatives
import DampedLeastSquares.Proofs.Progression
import DampedLeastSquares.Proofs.Sizes

/-!
# The system that a step solves

Each trial overwrites the diagonal of the normal matrix. All along a run the
matrix differs from the one of the current derivatives in nothing else, so each
step solves the system that is damped once, by the current damping, however many
trials came before it.
-/

set_option autoImplicit false

open scoped Matrix

namespace DampedLeastSquares

open Exact NormalMatrix

namespace Solver

variable {σ : Type} {k l : Nat}

/-! ## What holds between calls -/

/-- The Jacobian function answered at `x` with a matrix of reals. -/
def Differentiated (solver : Solver σ ℝ) (x : Vec ℝ) (jacobian : RealMatrix l k) : Prop :=
  ∃ problem before after answer, solver.problem? = some problem ∧
    (problem.jacobian x).run before = (.ok answer, after) ∧ answer.Represents solver.form jacobian

/-- The Jacobian and the gradient of the loss at the parameters, and the units that the
Jacobian asks for. -/
structure Linearized (solver : Solver σ ℝ) (jacobian : RealMatrix l k) (slopes : Fin l → ℝ)
    (scaling : Fin k → ℝ) : Prop where
  measured : solver.Measured solver.x solver.residuals
  differentiated : solver.Differentiated solver.x jacobian
  slopes_eq : solver.loss.gradientInto l solver.residuals = .ok (List.ofFn slopes)
  units : scaling = scales solver.settings (jacobianᵀ * jacobian)
  scaled : solver.settings.rescaling = true → solver.scaling = List.ofFn scaling

/-- Gradient and normal matrix are those of the parameters, but for a diagonal that was
overwritten by earlier trials and is kept aside. -/
structure Ready (solver : Solver σ ℝ) (jacobian : RealMatrix l k) (slopes : Fin l → ℝ)
    (scaling : Fin k → ℝ) : Prop extends Linearized solver jacobian slopes scaling where
  gradient : solver.gradient = List.ofFn ((jacobianᵀ *ᵥ slopes) / scaling)
  plain : solver.plainDiagonal =
    List.ofFn fun index => divided (jacobianᵀ * jacobian) scaling index index
  normal : ∃ entries, solver.normal.Represents
    (withDiagonal (divided (jacobianᵀ * jacobian) scaling) entries)
  steep : jacobianᵀ *ᵥ slopes ≠ 0

/-- Derivatives of the parameters are held, in the units that these settings ask for. -/
def Held (solver : Solver σ ℝ) (under : Settings ℝ) (parameters functions : Nat) : Prop :=
  ∃ (jacobian : RealMatrix functions parameters) (slopes : Fin functions → ℝ)
    (scaling : Fin parameters → ℝ), Ready { solver with settings := under } jacobian slopes scaling

/-- What holds between any two calls, whatever becomes of the loss. -/
structure Sited (solver : Solver σ ℝ) (parameters functions : Nat) : Prop where
  sized : solver.Sized parameters functions
  eliminates : solver.normal.layout?.isSome
  valid : solver.settings.check = .ok ()
  measured : solver.Measured solver.x solver.residuals

/-- Derivatives are held whenever they are about to be used. -/
structure Supplied (solver : Solver σ ℝ) (under : Settings ℝ) (parameters functions : Nat) : Prop
    extends Sited solver parameters functions where
  held : solver.phase = .search → solver.Held under parameters functions

theorem scales_pos {settings : Settings ℝ} (valid : settings.check = .ok ())
    (matrix : RealMatrix k k) (index : Fin k) : 0 < scales settings matrix index := by
  unfold scales
  cases rescaling : settings.rescaling with
  | false => simp
  | true =>
      have positive := (Settings.proper_of_check valid).scaling rescaling
      rw [if_pos rfl, scalingFactor, clamp_eq]
      exact lt_min (lt_max_of_lt_right positive.1) (positive.1.trans_le positive.2)

theorem Linearized.scaling_ne {solver : Solver σ ℝ} {jacobian : RealMatrix l k}
    {slopes : Fin l → ℝ} {scaling : Fin k → ℝ}
    (linearized : solver.Linearized jacobian slopes scaling)
    (valid : solver.settings.check = .ok ()) (index : Fin k) : scaling index ≠ 0 := by
  rw [linearized.units]
  exact (scales_pos valid _ index).ne'

theorem Linearized.unscaled {solver : Solver σ ℝ} {jacobian : RealMatrix l k}
    {slopes : Fin l → ℝ} {scaling : Fin k → ℝ}
    (linearized : solver.Linearized jacobian slopes scaling)
    (plain : solver.settings.rescaling = false) : scaling = 1 :=
  linearized.units.trans (scales_eq_one plain _)

/-! ## Derivatives -/

theorem prepareSearch_supplied {solver : Solver σ ℝ} (sited : solver.Sited k l)
    (phase : solver.phase = .differentiate) {jacobian : RealMatrix l k} {slopes : Fin l → ℝ}
    (differentiated : solver.Differentiated solver.x jacobian)
    (slopes_eq : solver.loss.gradientInto l solver.residuals = .ok (List.ofFn slopes))
    (gradient_eq : solver.gradient = List.ofFn (jacobianᵀ *ᵥ slopes))
    (represents : solver.normal.Represents (jacobianᵀ * jacobian)) :
    Leaves prepareSearch solver (·.Supplied solver.settings k l) := by
  obtain ⟨vanishing, remaining⟩ := prepareSearch_run sited.sized represents gradient_eq rfl
  cases vanishes : solver.gradientVanishes solver.gradient with
  | true =>
      refine ensures_of_ok (vanishing vanishes) ⟨sited, fun searching => ?_⟩
      cases phase.symm.trans searching
  | false =>
      obtain ⟨normal, represents, layout, ran⟩ := remaining vanishes
      have room : (if solver.settings.rescaling then
          List.ofFn (scales solver.settings (jacobianᵀ * jacobian)) else solver.scaling).length =
            k := by
        split
        · exact List.length_ofFn
        · exact sited.sized.scaling
      have ready : ∃ entries, normal.Represents (withDiagonal (divided (jacobianᵀ * jacobian)
          (scales solver.settings (jacobianᵀ * jacobian))) entries) := by
        refine ⟨fun index => divided (jacobianᵀ * jacobian)
          (scales solver.settings (jacobianᵀ * jacobian)) index index, ?_⟩
        rw [withDiagonal_self]
        exact represents
      have steep : jacobianᵀ *ᵥ slopes ≠ 0 := by
        intro level
        rw [gradient_eq, level] at vanishes
        refine Bool.false_ne_true (vanishes.symm.trans ((gradientVanishes_iff _ _).mpr ?_))
        intro entry zero
        obtain ⟨_, rfl⟩ := List.mem_ofFn.mp zero
        rw [Pi.zero_apply, abs_zero]
        exact (Settings.proper_of_check sited.valid).gradientTolerance
      refine ensures_of_ok ran ⟨⟨?_, layout ▸ sited.eliminates, sited.valid,
        sited.measured⟩, fun _ => ⟨jacobian, slopes, _,
          ⟨sited.measured, differentiated, slopes_eq, rfl, fun rescaled => if_pos rescaled⟩,
          rfl, rfl, ready, steep⟩⟩
      exact { sited.sized with
        gradient := List.length_ofFn, scaling := room, plainDiagonal := List.length_ofFn }

theorem updateDerivatives_supplied {solver : Solver σ ℝ} (sited : solver.Sited k l)
    (phase : solver.phase = .differentiate) :
    Leaves updateDerivatives solver (·.Supplied solver.settings k l) := by
  have still {normal : NormalMatrix ℝ} (layout : normal.layout? = solver.normal.layout?)
      (world : σ) : Sited { solver with normal := normal, world := world } k l :=
    ⟨{ sited.sized with x := sited.sized.x }, layout ▸ sited.eliminates, sited.valid,
      sited.measured⟩
  have stopped {after : Solver σ ℝ} (sited : after.Sited k l)
      (phase : after.phase = .differentiate) : after.Supplied solver.settings k l :=
    ⟨sited, fun searching => by cases phase.symm.trans searching⟩
  obtain ⟨problem, _, _, _, given, _⟩ := id sited.measured
  by_cases defined : solver.form = .undefined
  · have ran : updateDerivatives.run solver = (.error .undefined, solver) := by
      unfold updateDerivatives
      rw [run_get_bind, defined]
      rfl
    exact ensures_of_error ran (stopped sited phase)
  refine Ensures.of_run_eq ?_ (updateDerivatives_run solver defined given)
  rw [ensures_bind, ensures_evaluate]
  refine ⟨fun answer world answered => ?_, fun _ world _ => stopped (still rfl world) phase⟩
  rw [ensures_bind]
  obtain ⟨jacobian, changed, represents, product, layout, ran⟩ | ⟨fault, changed, layout, ran⟩ :=
    derive_cases (still rfl world).sized solver.form answer
  · refine Ensures.of_run_eq ?_ ran
    have sited := still layout world
    obtain ⟨fault, ran⟩ | ⟨slopes, lossGradient, room, found, ran⟩ :=
      gather_cases _ jacobian sited.sized.residuals sited.sized.lossGradient
    · exact ensures_of_error ran (stopped sited phase)
    · refine ensures_of_ok ran (prepareSearch_supplied ?_ phase
        ⟨problem, _, _, answer, given, answered, represents⟩ found rfl product)
      exact ⟨{ sited.sized with gradient := List.length_ofFn, lossGradient := room },
        sited.eliminates, sited.valid, sited.measured⟩
  · exact ensures_of_error ran (stopped (still layout world) phase)

/-! ## Steps -/

/-- The step leads from the parameters to the candidate, which may have been taken over. -/
structure Moves (before after : Solver σ ℝ) (x step : Fin k → ℝ) : Prop where
  start : before.x = List.ofFn x
  step_eq : after.step = List.ofFn step
  candidate : after.x = List.ofFn x ∧ after.candidate = List.ofFn (x + step) ∨
    after.x = List.ofFn (x + step) ∧ after.candidate = List.ofFn x

theorem Moves.of_same {first before after : Solver σ ℝ} {x step : Fin k → ℝ}
    (moves : before.Moves after x step) (same : before.x = first.x) : first.Moves after x step :=
  ⟨same.symm.trans moves.start, moves.step_eq, moves.candidate⟩

/-- The units that a step is brought back from. -/
structure Undoes (solver : Solver σ ℝ) (taken : Fin k → ℝ) : Prop where
  scaled : solver.settings.rescaling = true → solver.scaling = List.ofFn taken
  plain : solver.settings.rescaling = false → taken = 1

theorem exists_undoes {solver : Solver σ ℝ} (sized : solver.Sized k l) :
    ∃ taken : Fin k → ℝ, solver.Undoes taken := by
  cases rescaling : solver.settings.rescaling with
  | true =>
      obtain ⟨taken, scaling⟩ := exists_ofFn sized.scaling
      exact ⟨taken, fun _ => scaling, fun plain => by cases rescaling.symm.trans plain⟩
  | false => exact ⟨1, fun scaled => by (cases rescaling.symm.trans scaled), fun _ => rfl⟩

theorem Ready.undoes {solver : Solver σ ℝ} {jacobian : RealMatrix l k} {slopes : Fin l → ℝ}
    {scaling : Fin k → ℝ} (ready : solver.Ready jacobian slopes scaling) :
    solver.Undoes scaling := ⟨ready.scaled, ready.toLinearized.unscaled⟩

/-- The system of the derivatives at hand, in the units that they are in. -/
noncomputable def dampedSystem (solver : Solver σ ℝ) (jacobian : RealMatrix l k)
    (carried : Fin k → ℝ) : RealMatrix k k :=
  withDiagonal (divided (jacobianᵀ * jacobian) carried) fun index =>
    dampedEntry solver.settings solver.damping (divided (jacobianᵀ * jacobian) carried index index)

/-- The step solves the system of the derivatives, damped once. -/
def SolvesDamped (settings : Settings ℝ) (damping : ℝ) (jacobian : RealMatrix l k)
    (slopes : Fin l → ℝ) (scaling step : Fin k → ℝ) : Prop :=
  (jacobianᵀ * jacobian + RealMatrix.diagonal scaling *
      RealMatrix.diagonal (fun index =>
        raise settings damping (divided (jacobianᵀ * jacobian) scaling index index)) *
      RealMatrix.diagonal scaling) *ᵥ step = -(jacobianᵀ *ᵥ slopes)

/-- The solution in the units of the scaling, brought back to those of the parameters. -/
theorem solvesDamped_of_posDef {solver : Solver σ ℝ} {jacobian : RealMatrix l k}
    {slopes : Fin l → ℝ} {scaling : Fin k → ℝ} (nonzero : ∀ index, scaling index ≠ 0)
    (definite : (solver.dampedSystem jacobian scaling).PosDef) :
    SolvesDamped solver.settings solver.damping jacobian slopes scaling
      (-((solver.dampedSystem jacobian scaling)⁻¹ *ᵥ (jacobianᵀ *ᵥ slopes / scaling)) /
        scaling) := by
  have solution := scaled_solution nonzero definite (jacobianᵀ *ᵥ slopes)
  unfold SolvesDamped
  rw [← solution, dampedSystem, scaled_withDiagonal nonzero]
  simp only [dampedEntry_eq]

/-- The system of the derivatives that were computed last, whichever parameters these belong to. -/
structure Carries (solver : Solver σ ℝ) (jacobian : RealMatrix l k) (slopes : Fin l → ℝ)
    (carried : Fin k → ℝ) : Prop where
  gradient : solver.gradient = List.ofFn ((jacobianᵀ *ᵥ slopes) / carried)
  plain : solver.plainDiagonal =
    List.ofFn fun index => divided (jacobianᵀ * jacobian) carried index index
  normal : ∃ entries, solver.normal.Represents
    (withDiagonal (divided (jacobianᵀ * jacobian) carried) entries)

theorem Ready.carries {solver : Solver σ ℝ} {under : Settings ℝ} {jacobian : RealMatrix l k}
    {slopes : Fin l → ℝ} {carried : Fin k → ℝ}
    (ready : Ready { solver with settings := under } jacobian slopes carried) :
    solver.Carries jacobian slopes carried := ⟨ready.gradient, ready.plain, ready.normal⟩

/-- What a step is computed from, and the units that it is brought back from. -/
def system (solver : Solver σ ℝ) : Vec ℝ × Vec ℝ × NormalMatrix ℝ × Vec ℝ :=
  (solver.gradient, solver.plainDiagonal, solver.normal, solver.scaling)

theorem Carries.of_system {before after : Solver σ ℝ} {jacobian : RealMatrix l k}
    {slopes : Fin l → ℝ} {carried : Fin k → ℝ} (carries : before.Carries jacobian slopes carried)
    (same : after.system = before.system) : after.Carries jacobian slopes carried := by
  simp only [system, Prod.mk.injEq] at same
  obtain ⟨gradient, plain, normal, _⟩ := same
  exact ⟨gradient.trans carries.gradient, plain.trans carries.plain, normal ▸ carries.normal⟩

/-- Considering a step moves there and back at most, and leaves the derivatives alone even where a
candidate is taken over. -/
theorem consider_moves {solver : Solver σ ℝ} (x step : Fin k → ℝ) (x_eq : solver.x = List.ofFn x)
    (step_eq : solver.step = List.ofFn step) (predicted : ℝ) :
    Leaves (consider predicted) solver fun after =>
      solver.Moves after x step ∧ after.system = solver.system := by
  have combined : Vec.combine? (· + ·) solver.x solver.step = some (List.ofFn (x + step)) := by
    rw [x_eq, step_eq, combine?_ofFn]
    rfl
  have dropped {after : Solver σ ℝ} (weighed : Weighed solver after)
      (further : solver.Further after) :
      solver.Moves after x step ∧ after.system = solver.system := by
    have candidate := further _ combined
    obtain ⟨_, _, _, _, _, _, rfl⟩ := weighed
    exact ⟨⟨x_eq, step_eq, .inl ⟨x_eq, candidate⟩⟩, rfl⟩
  refine (consider_ends solver predicted
    (fun after => solver.Moves after x step ∧ after.system = solver.system)
    (fun _ after => solver.Moves after x step ∧ after.system = solver.system) ?_).mono
    (fun _ _ ended => ended.elim (fun same => dropped same.1 same.2) id)
    (fun _ _ ended => ended.elim (fun same => dropped same.1.1 same.1.2) id)
  rintro middle cost ⟨_, _, _, _, _, _, rfl⟩ improves
  have candidate := Option.some_injective _ (improves.further.symm.trans combined)
  refine (accept_ends _ cost).mono ?_ ?_
  · rintro _ _ ⟨_, _, _, _, _, _, rfl⟩
    exact ⟨⟨x_eq, step_eq, .inr ⟨candidate, x_eq⟩⟩, rfl⟩
  · rintro _ _ ⟨_, _, _, rfl⟩
    exact ⟨⟨x_eq, step_eq, .inr ⟨candidate, x_eq⟩⟩, rfl⟩

theorem Sited.counted {solver : Solver σ ℝ} (sited : solver.Sited k l) (full retries : Nat) :
    Sited { solver with updated := false, fullSteps := full, retries := retries } k l :=
  ⟨{ sited.sized with x := sited.sized.x }, sited.eliminates, sited.valid, sited.measured⟩

variable [Spectral ℝ]

/-- The system at hand is positive definite, so that a step is found. -/
def FindsStep (solver : Solver σ ℝ) : Prop :=
  ∃ step after, (computeStep solver.damping solver.gradient solver.step).run solver =
    (.ok (step, true), after)

theorem findsStep_iff {solver : Solver σ ℝ} {matrix : RealMatrix k k}
    (represents : solver.normal.Represents matrix) (symmetric : matrix.IsSymm)
    (eliminates : solver.normal.layout?.isSome) (room : solver.dampedDiagonal.length = k)
    (size : solver.step.length = k) {diagonal gradient : Fin k → ℝ}
    (plain : solver.plainDiagonal = List.ofFn diagonal)
    (gradient_eq : solver.gradient = List.ofFn gradient) {damped : RealMatrix k k}
    (damped_eq : damped = withDiagonal matrix fun index =>
      dampedEntry solver.settings solver.damping (diagonal index)) :
    solver.FindsStep ↔ damped.PosDef := by
  obtain ⟨normal, trace, _, _, ⟨definite, ran⟩ | ⟨indefinite, ran⟩⟩ := computeStep_cases represents
    symmetric eliminates plain room solver.damping gradient size damped_eq
  · rw [← gradient_eq] at ran
    exact ⟨fun _ => definite, fun _ => ⟨_, _, ran⟩⟩
  · rw [← gradient_eq] at ran
    refine ⟨fun ⟨step, after, found⟩ => ?_, fun definite => (indefinite definite).elim⟩
    cases ran.symm.trans found

/-- The entries that earlier trials left on the diagonal are overwritten. -/
theorem findsStep_iff_posDef {solver : Solver σ ℝ} (sited : solver.Sited k l)
    {jacobian : RealMatrix l k} {slopes : Fin l → ℝ} {carried : Fin k → ℝ}
    (carries : solver.Carries jacobian slopes carried) :
    solver.FindsStep ↔ (solver.dampedSystem jacobian carried).PosDef := by
  obtain ⟨entries, represents⟩ := carries.normal
  exact @findsStep_iff σ k _ solver _ represents
    (withDiagonal_isSymm (divided_isSymm (gram_isSymm jacobian) carried) entries) sited.eliminates
    sited.sized.dampedDiagonal sited.sized.step _ _ carries.plain carries.gradient _
    (withDiagonal_withDiagonal entries _).symm

/-- A trial proposes the solution of the damped system, brought back from the units of the settings
at hand, or finds that there is none to propose. -/
theorem Carries.propose_cases {now : Solver σ ℝ} {jacobian : RealMatrix l k} {slopes : Fin l → ℝ}
    {carried taken scaled : Fin k → ℝ} (carries : now.Carries jacobian slopes carried)
    (sited : now.Sited k l) (undoes : now.Undoes taken) (scaled_eq : scaled =
      -((now.dampedSystem jacobian carried)⁻¹ *ᵥ (jacobianᵀ *ᵥ slopes / carried))) :
    ((now.dampedSystem jacobian carried).PosDef ∧ ∃ normal trace dampedDiagonal,
      propose.run { now with updated := false, retries := now.retries + 1 } =
        (.ok (some (-((jacobianᵀ *ᵥ slopes / carried) ⬝ᵥ scaled) -
            1 / 2 * (scaled ⬝ᵥ now.dampedSystem jacobian carried *ᵥ scaled))),
          { now with
            updated := false, retries := now.retries + 1, normal := normal, trace := trace
            step := List.ofFn (scaled / taken), dampedDiagonal := dampedDiagonal })) ∨
    (¬ (now.dampedSystem jacobian carried).PosDef ∧ ∃ proposed,
      propose.run { now with updated := false, retries := now.retries + 1 } =
        (.ok none, proposed)) := by
  obtain ⟨entries, represents⟩ := carries.normal
  -- the entries that earlier trials left on the diagonal are overwritten
  have again : now.dampedSystem jacobian carried =
      withDiagonal (withDiagonal (divided (jacobianᵀ * jacobian) carried) entries) fun index =>
        dampedEntry now.settings now.damping
          (divided (jacobianᵀ * jacobian) carried index index) :=
    (withDiagonal_withDiagonal entries _).symm
  obtain ⟨normal, trace, _, _, ⟨definite, ran⟩ | ⟨indefinite, ran⟩⟩ :=
    @Solver.propose_cases σ k l
      { now with updated := false, retries := now.retries + 1 } _ _
      (sited.counted now.fullSteps (now.retries + 1)).sized represents
      (withDiagonal_isSymm (divided_isSymm (gram_isSymm jacobian) carried) entries)
      sited.eliminates _ _ taken carries.plain carries.gradient undoes.scaled undoes.plain _ again
      _ scaled_eq
  · exact .inl ⟨definite, normal, trace, _, ran⟩
  · exact .inr ⟨indefinite, _, ran⟩

/-- A trial keeps the system but for its diagonal, and the units. -/
structure Carried (before after : Solver σ ℝ) (jacobian : RealMatrix l k) (slopes : Fin l → ℝ)
    (carried : Fin k → ℝ) : Prop extends after.Carries jacobian slopes carried where
  layout : after.normal.layout? = before.normal.layout?
  scaling : after.scaling = before.scaling

/-- Whatever a trial comes to, it keeps the derivatives. Its step solves the damped system in the
units of the derivatives, and is brought back from the units of the settings at hand. -/
theorem tryStep_carried {solver : Solver σ ℝ} (sited : solver.Sited k l)
    {jacobian : RealMatrix l k} {slopes : Fin l → ℝ} {carried taken x scaled : Fin k → ℝ}
    (carries : solver.Carries jacobian slopes carried) (undoes : solver.Undoes taken)
    (x_eq : solver.x = List.ofFn x) (scaled_eq : scaled =
      -((solver.dampedSystem jacobian carried)⁻¹ *ᵥ (jacobianᵀ *ᵥ slopes / carried))) :
    Leaves tryStep solver fun after => solver.Carried after jacobian slopes carried ∧
      ((solver.dampedSystem jacobian carried).PosDef →
        solver.Moves after x (scaled / taken)) := by
  obtain ⟨entries, represents⟩ := carries.normal
  have symmetric : Matrix.IsSymm
      (withDiagonal (divided (jacobianᵀ * jacobian) carried) entries) :=
    withDiagonal_isSymm (divided_isSymm (gram_isSymm jacobian) carried) entries
  -- the entries that earlier trials left on the diagonal are overwritten
  have again : solver.dampedSystem jacobian carried =
      withDiagonal (withDiagonal (divided (jacobianᵀ * jacobian) carried) entries) fun index =>
        dampedEntry solver.settings solver.damping
          (divided (jacobianᵀ * jacobian) carried index index) :=
    (withDiagonal_withDiagonal entries _).symm
  obtain ⟨normal, trace, represents', layout, ends⟩ := tryStep_cases sited.sized represents
    symmetric sited.eliminates carries.plain carries.gradient undoes.scaled undoes.plain again
    scaled_eq
  have kept {after : Solver σ ℝ} (same : after.system =
      (solver.gradient, solver.plainDiagonal, normal, solver.scaling)) :
      solver.Carried after jacobian slopes carried := by
    simp only [system, Prod.mk.injEq] at same
    obtain ⟨gradient, plain, rfl, scaling⟩ := same
    exact ⟨⟨gradient.trans carries.gradient, plain.trans carries.plain, _, represents'⟩, layout,
      scaling⟩
  obtain ⟨definite, ran⟩ | ⟨indefinite, ran⟩ := ends
  · refine Ensures.of_run_eq ?_ ran
    refine Leaves.mono (consider_moves x (scaled / taken) ?_ ?_ _) ?_
    · exact x_eq
    · rfl
    · rintro _ ⟨moves, same⟩
      exact ⟨kept same, fun _ => moves.of_same rfl⟩
  · refine Ensures.of_run_eq ?_ ran
    refine (recoverFromFailure_ensures _).mono ?_ ?_
    · rintro _ _ ⟨_, _, rfl⟩
      exact ⟨kept rfl, fun definite => (indefinite definite).elim⟩
    · rintro _ _ ⟨rfl, _⟩
      exact ⟨kept rfl, fun definite => (indefinite definite).elim⟩

/-! ## Calls -/

/-- The next call computes a step. -/
def ComputesStep (before : Solver σ ℝ) : Prop :=
  before.phase = .search ∧
    FindsStep { before with updated := false, retries := before.retries + 1 }

/-- The step that the next call computes solves the damped system of the derivatives at the
parameters, and leads to the candidate. -/
def StepSolves (before : Solver σ ℝ) (parameters functions : Nat) : Prop :=
  ∃ (jacobian : RealMatrix functions parameters) (slopes : Fin functions → ℝ)
    (scaling x step : Fin parameters → ℝ), before.Linearized jacobian slopes scaling ∧
    before.Moves before.next x step ∧
    SolvesDamped before.settings before.damping jacobian slopes scaling step

theorem computesStep_iff {before : Solver σ ℝ} (sited : before.Sited k l)
    (phase : before.phase = .search) {jacobian : RealMatrix l k} {slopes : Fin l → ℝ}
    {carried : Fin k → ℝ} (carries : before.Carries jacobian slopes carried) :
    before.ComputesStep ↔ (before.dampedSystem jacobian carried).PosDef := by
  have finds := findsStep_iff_posDef (sited.counted before.fullSteps (before.retries + 1))
    (carries.of_system rfl)
  exact ⟨fun computes => finds.mp computes.2, fun definite => ⟨phase, finds.mpr definite⟩⟩

theorem next_supplied {before : Solver σ ℝ} (sited : before.Sited k l)
    (phase : before.phase = .differentiate) : before.next.Supplied before.settings k l := by
  have derived := updateDerivatives_supplied
    (sited.counted (before.fullSteps + 1) before.retries) phase
  refine ((derived.bind fun converged after supplied => ?_).of_run_eq
    (iterate_run_differentiate phase)).leaves
  refine ensures_of_ok (conclude_run converged) ⟨⟨{ supplied.sized with x := supplied.sized.x },
    supplied.eliminates, supplied.valid, supplied.measured⟩, fun searching => ?_⟩
  cases converged with
  | true => cases searching
  | false => exact supplied.held searching

theorem next_carried {before : Solver σ ℝ} (sited : before.Sited k l)
    (phase : before.phase = .search) {jacobian : RealMatrix l k} {slopes : Fin l → ℝ}
    {carried taken x scaled : Fin k → ℝ} (carries : before.Carries jacobian slopes carried)
    (undoes : before.Undoes taken) (x_eq : before.x = List.ofFn x) (scaled_eq : scaled =
      -((before.dampedSystem jacobian carried)⁻¹ *ᵥ (jacobianᵀ *ᵥ slopes / carried))) :
    before.Carried before.next jacobian slopes carried ∧
      ((before.dampedSystem jacobian carried).PosDef →
        before.Moves before.next x (scaled / taken)) := by
  have tried := tryStep_carried (sited.counted before.fullSteps (before.retries + 1))
    (carries.of_system rfl) ⟨undoes.scaled, undoes.plain⟩ x_eq scaled_eq
  have carried : Leaves tryStep { before with updated := false, retries := before.retries + 1 }
      fun after => before.Carried after jacobian slopes carried ∧
        ((before.dampedSystem jacobian carried).PosDef →
          before.Moves after x (scaled / taken)) := by
    refine tried.mono ?_
    rintro _ ⟨kept, moves⟩
    exact ⟨⟨kept.toCarries, kept.layout, kept.scaling⟩,
      fun definite => (moves definite).of_same rfl⟩
  refine ((carried.conclude ?_).of_run_eq (iterate_run_search phase)).leaves
  rintro _ _ ⟨kept, moves⟩
  refine ⟨⟨⟨kept.gradient, kept.plain, kept.normal⟩, kept.layout, kept.scaling⟩,
    fun definite => ?_⟩
  have moves := moves definite
  exact ⟨moves.start, moves.step_eq, moves.candidate⟩

/-- A call that computes a step solves the system that it finds, damped once. -/
theorem Carries.solves {before : Solver σ ℝ} {jacobian : RealMatrix l k} {slopes : Fin l → ℝ}
    {scaling : Fin k → ℝ} (carries : before.Carries jacobian slopes scaling)
    (sited : before.Sited k l) (undoes : before.Undoes scaling)
    (nonzero : ∀ index, scaling index ≠ 0) (computes : before.ComputesStep) :
    ∃ x step : Fin k → ℝ, before.Moves before.next x step ∧
      SolvesDamped before.settings before.damping jacobian slopes scaling step := by
  obtain ⟨x, x_eq⟩ := exists_ofFn sited.sized.x
  obtain ⟨_, moves⟩ := next_carried sited computes.1 carries undoes x_eq rfl
  have definite := (computesStep_iff sited computes.1 carries).mp computes
  exact ⟨x, _, moves definite, solvesDamped_of_posDef nonzero definite⟩

theorem Carries.next {before : Solver σ ℝ} {jacobian : RealMatrix l k} {slopes : Fin l → ℝ}
    {carried : Fin k → ℝ} (carries : before.Carries jacobian slopes carried)
    (sited : before.Sited k l) (phase : before.phase = .search) :
    before.Carried before.next jacobian slopes carried := by
  obtain ⟨taken, undoes⟩ := exists_undoes sited.sized
  obtain ⟨x, x_eq⟩ := exists_ofFn sited.sized.x
  exact (next_carried sited phase carries undoes x_eq rfl).1

/-- The residuals in place were found at the parameters, whatever a call comes to. -/
theorem next_measured {before : Solver σ ℝ} (measured : before.Measured before.x before.residuals) :
    before.next.Measured before.next.x before.next.residuals := by
  obtain kept | replaced | ⟨_, torn⟩ := next_outcome before
  · obtain ⟨x, _, residuals⟩ := place_eq_iff.mp kept.place
    rw [x, residuals]
    exact measured.of_problem kept.problem
  · obtain ⟨_, advanced, _⟩ := replaced.advanced
    exact advanced.measured.of_problem advanced.problem
  · exact torn.advanced.measured.of_problem torn.advanced.problem

theorem Carried.sited {before : Solver σ ℝ} {jacobian : RealMatrix l k} {slopes : Fin l → ℝ}
    {carried : Fin k → ℝ} (kept : before.Carried before.next jacobian slopes carried)
    (sited : before.Sited k l) : before.next.Sited k l := by
  refine ⟨next_sized sited.sized, kept.layout ▸ sited.eliminates, ?_, next_measured sited.measured⟩
  rw [(next_configured before).settings]
  exact sited.valid

theorem Carried.undoes {before : Solver σ ℝ} {jacobian : RealMatrix l k} {slopes : Fin l → ℝ}
    {carried taken : Fin k → ℝ} (kept : before.Carried before.next jacobian slopes carried)
    (undoes : before.Undoes taken) : before.next.Undoes taken := by
  have settings := (next_configured before).settings
  refine ⟨fun rescaling => ?_, fun plain => ?_⟩
  · rw [settings] at rescaling
    exact kept.scaling.trans (undoes.scaled rescaling)
  · rw [settings] at plain
    exact undoes.plain plain

/-- As long as no candidate is taken over, the derivatives are those of the parameters. -/
theorem Carried.ready {before : Solver σ ℝ} {under : Settings ℝ} {jacobian : RealMatrix l k}
    {slopes : Fin l → ℝ} {carried : Fin k → ℝ}
    (kept : before.Carried before.next jacobian slopes carried)
    (ready : Ready { before with settings := under } jacobian slopes carried)
    (place : Kept before before.next) :
    Ready { before.next with settings := under } jacobian slopes carried := by
  obtain ⟨x, _, residuals⟩ := place_eq_iff.mp place.place
  refine ⟨⟨?_, ?_, ?_, ready.units, fun rescaled => kept.scaling.trans (ready.scaled rescaled)⟩,
    kept.gradient, kept.plain, kept.normal, ready.steep⟩
  · dsimp only
    rw [x, residuals]
    exact ready.measured.of_problem place.problem
  · obtain ⟨problem, _, _, answer, given, answered, represents⟩ := ready.differentiated
    dsimp only
    rw [x]
    refine ⟨problem, _, _, answer, place.problem.trans given, answered, ?_⟩
    rw [(next_configured before).form]
    exact represents
  · dsimp only
    rw [place.loss, residuals]
    exact ready.slopes_eq

theorem Ready.next {before : Solver σ ℝ} {under : Settings ℝ} {jacobian : RealMatrix l k}
    {slopes : Fin l → ℝ} {carried : Fin k → ℝ}
    (ready : Ready { before with settings := under } jacobian slopes carried)
    (sited : before.Sited k l) (phase : before.phase = .search) :
    before.next.Sited k l ∧
      ((∃ fault, Torn before before.next fault) ∨ (before.next.phase = .search →
        Ready { before.next with settings := under } jacobian slopes carried)) := by
  have kept := ready.carries.next sited phase
  refine ⟨kept.sited sited, ?_⟩
  obtain place | replaced | torn := next_outcome before
  · exact .inr fun _ => kept.ready ready place
  · -- a candidate that was taken over asks for derivatives
    obtain ⟨_, converged, _, ended⟩ := next_of_updated replaced.updated
    refine .inr fun searching => ?_
    rw [searching] at ended
    cases converged <;> cases ended
  · exact .inl torn

/-! ## Runs -/

/-- A call that computes a step solves the system of the derivatives that are held. -/
theorem Supplied.stepSolves {before : Solver σ ℝ} (supplied : before.Supplied before.settings k l)
    (computes : before.ComputesStep) : before.StepSolves k l := by
  obtain ⟨jacobian, slopes, scaling, ready⟩ := supplied.held computes.1
  obtain ⟨x, step, moves, solves⟩ := ready.carries.solves supplied.toSited ready.undoes
    (ready.toLinearized.scaling_ne supplied.valid) computes
  exact ⟨jacobian, slopes, scaling, x, step, ready.toLinearized, moves, solves⟩

/-- Whatever a call comes to, the derivatives that it leaves are those of the parameters, unless it
was interrupted after it had taken a candidate over. -/
theorem Supplied.next {before : Solver σ ℝ} (supplied : before.Supplied before.settings k l)
    (untorn : ∀ fault, ¬ Torn before before.next fault) :
    before.next.Supplied before.next.settings k l := by
  rw [(next_configured before).settings]
  cases phase : before.phase with
  | differentiate => exact next_supplied supplied.toSited phase
  | search =>
      obtain ⟨jacobian, slopes, scaling, ready⟩ := supplied.held phase
      obtain ⟨sited, kept⟩ := ready.next supplied.toSited phase
      have still := kept.resolve_left fun ⟨fault, torn⟩ => untorn fault torn
      exact ⟨sited, fun searching => ⟨jacobian, slopes, scaling, still searching⟩⟩
  | converged =>
      rw [(rests phase).2]
      refine ⟨supplied.toSited.counted _ _, fun searching => ?_⟩
      cases phase.symm.trans searching

theorem Supplied.afterCalls {started : Solver σ ℝ}
    (supplied : started.Supplied started.settings k l) (count : Nat)
    (untorn : ∀ earlier < count, ∀ fault,
      ¬ Torn (started.afterCalls earlier) (started.afterCalls (earlier + 1)) fault) :
    (started.afterCalls count).Supplied (started.afterCalls count).settings k l := by
  induction count with
  | zero => exact supplied
  | succ count previous =>
      have here := previous fun earlier before => untorn earlier (Nat.lt_succ_of_lt before)
      exact here.next (untorn count (Nat.lt_succ_self count))

omit [Spectral ℝ] in
theorem Started.sited {idle started : Solver σ ℝ} {point : Vec ℝ}
    (ready : Started idle started point) (eliminates : idle.normal.layout?.isSome) :
    started.Sited point.length started.residuals.length := by
  obtain ⟨problem, before, after, answer, given, ran, answered⟩ := ready.answered
  refine ⟨ready.sized, ?_, ready.valid, ?_⟩
  · rw [ready.normal, reset_layout?]
    exact eliminates
  · rw [ready.x]
    refine ⟨problem, before, after, answer, given, ran, ?_⟩
    rw [answered, Vec.fill?_self]

omit [Spectral ℝ] in
theorem Started.supplied {idle started : Solver σ ℝ} {point : Vec ℝ}
    (ready : Started idle started point) (eliminates : idle.normal.layout?.isSome) :
    started.Supplied started.settings point.length started.residuals.length := by
  refine ⟨ready.sited eliminates, fun searching => ?_⟩
  cases ready.phase.symm.trans searching

/-- All along a run, a call that computes a step solves the system of the derivatives at the
parameters, damped once by the damping at hand, on the condition that no call before it was torn:
none was interrupted between taking a candidate over and settling the loss on it. The calls may have
failed in any other way. A torn call leaves the derivatives of other parameters behind, and the step
after it is stale. -/
theorem steps_solve (idle started : Solver σ ℝ) (point : Vec ℝ) (cost? gradient? : Option ℝ)
    (success : (start point cost? gradient?).run idle = (.ok (), started))
    (eliminates : idle.normal.layout?.isSome) (count : Nat)
    (untorn : ∀ earlier < count, ∀ fault,
      ¬ Torn (started.afterCalls earlier) (started.afterCalls (earlier + 1)) fault)
    (computes : (started.afterCalls count).ComputesStep) :
    (started.afterCalls count).StepSolves point.length started.residuals.length := by
  have ready := (start_ensures idle point cost? gradient?).of_run_ok success
  exact ((ready.supplied eliminates).afterCalls count untorn).stepSolves computes

/-! ## A run -/

/-- A search that has not started, over one parameter that is its own residual. -/
noncomputable def unitSearch : Solver Unit ℝ :=
  ⟨.whole, .whole (WholeNormal.create .elimination), Settings.standard, Loss.squared,
    some ⟨fun x => pure (.vector x), fun _ =>
      pure (.whole (.matrix (.dense (DenseMatrix.ofMatrix (1 : RealMatrix 1 1)))))⟩,
    (), false, [], .differentiate, 0, 0, false, [], [], [], [], [], 0.0 / 0.0, [], [], [], [], [],
    Settings.standard.initialDamping, initialGrowth⟩

/-- The same search after its start at one. -/
noncomputable def unitStarted (cost : ℝ) : Solver Unit ℝ :=
  { unitSearch with
    loss := ⟨.squared, 1⟩, normal := unitSearch.normal.reset 1, x := [1]
    candidate := Vec.zeros 1, step := Vec.zeros 1, gradient := Vec.zeros 1, scaling := Vec.ones 1
    residuals := [1], candidateResiduals := Vec.zeros 1, lossGradient := Vec.zeros 1
    plainDiagonal := Vec.zeros 1, dampedDiagonal := Vec.zeros 1, cost := cost }

omit [Spectral ℝ] in
theorem unitSearch_starts :
    ∃ cost, (start [1] none none).run unitSearch = (.ok (), unitStarted cost) := by
  obtain ⟨cost, costed⟩ : ∃ cost : ℝ,
      (⟨.squared, 1⟩ : Loss Unit ℝ).cost [1] = .ok cost := by
    simp only [Loss.cost, Loss.halfSquare]
    split
    · exact ⟨_, rfl⟩
    · exact ⟨_, rfl⟩
  refine ⟨cost, ?_⟩
  have adopted : (adoptTolerances none none).run unitSearch = (.ok (), unitSearch) := by
    unfold adoptTolerances
    rw [run_modify_bind, run_get_bind]
    exact congrArg (fun result => (result, unitSearch)) standard_valid
  unfold start
  rw [run_get_bind]
  dsimp only [unitSearch]
  change ((adoptTolerances none none : Action Unit ℝ Unit) >>= _).run unitSearch = _
  rw [run_bind_ok adopted]
  refine (run_bind_ok rfl).trans ((run_bind_ok rfl).trans ((run_bind_ok rfl).trans ?_))
  have costs (solver : Solver Unit ℝ) (loss : solver.loss = ⟨.squared, 1⟩) :
      (costOf [1] : Action Unit ℝ ℝ).run solver = (.ok cost, solver) := by
    rw [costOf, run_get_bind, run_attempt, loss, costed]
  rw [run_get_bind]
  refine (run_bind_ok (costs _ rfl)).trans ?_
  rfl

theorem unitStarted_settings (cost : ℝ) :
    ((unitStarted cost).afterCalls 1).settings = Settings.standard :=
  (next_configured (unitStarted cost)).settings

/-- At one, the gradient does not vanish and the damped system is positive definite. -/
theorem unitSearch_computes (cost : ℝ) : ((unitStarted cost).afterCalls 1).ComputesStep := by
  have sized : Sized { unitStarted cost with updated := false, fullSteps := 1 } 1 1 := by
    constructor <;> rfl
  have represents : (Operand.matrix (.dense (DenseMatrix.ofMatrix (1 : RealMatrix 1 1)))).Represents
      (1 : RealMatrix 1 1) := ⟨_, rfl, Matrix.represents_dense _⟩
  obtain ⟨changed, updated, product, layout⟩ := @update_whole 1 1 1
    (WholeNormal.reset (WholeNormal.create .elimination) 1) _ represents fun _ => ⟨_, rfl⟩
  have derived := deriveWhole_run sized represents updated
  have gathered : (gather (1 : RealMatrix 1 1)).run
      { unitStarted cost with updated := false, fullSteps := 1, normal := changed } =
      (.ok (), { unitStarted cost with
        updated := false, fullSteps := 1, normal := changed
        gradient := List.ofFn ((1 : RealMatrix 1 1)ᵀ *ᵥ fun _ => 1) }) := by
    have product := DenseMatrix.transposeMulVec?_ofMatrix (1 : RealMatrix 1 1) fun _ => 1
    refine (run_bind_ok rfl).trans ?_
    exact run_attempt_bind_ok (congrArg Fault.fit product)
  have vanishes : gradientVanishes { unitStarted cost with
      updated := false, fullSteps := 1, normal := changed
      gradient := List.ofFn ((1 : RealMatrix 1 1)ᵀ *ᵥ fun _ => 1) }
        (List.ofFn ((1 : RealMatrix 1 1)ᵀ *ᵥ fun _ => 1)) = false := by
    have gradient : List.ofFn ((1 : RealMatrix 1 1)ᵀ *ᵥ fun _ => (1 : ℝ)) = [1] := by simp
    have tolerance : ¬ |(1 : ℝ)| ≤ 1.0e-8 := by norm_num
    rw [gradient]
    exact decide_eq_false tolerance
  obtain ⟨normal, represents', layout', prepared⟩ := (@prepareSearch_run Unit 1 1
    { unitStarted cost with
      updated := false, fullSteps := 1, normal := changed
      gradient := List.ofFn ((1 : RealMatrix 1 1)ᵀ *ᵥ fun _ => 1) } _
    { sized with x := sized.x } product _ rfl _ rfl).2 vanishes
  have updates := (updateDerivatives_run
    { unitStarted cost with updated := false, fullSteps := 1 } nofun rfl).trans
      ((run_bind_ok rfl).trans ((run_bind_ok (derived.trans gathered)).trans prepared))
  have next := congrArg Prod.snd
    ((@iterate_run_differentiate Unit ℝ _ _ (unitStarted cost) rfl).trans (run_bind_ok updates))
  change (iterate.run (unitStarted cost)).2.ComputesStep
  rw [next]
  have eliminates : normal.layout?.isSome := by
    rw [layout']
    exact layout ▸ rfl
  refine ⟨rfl, (findsStep_iff represents' (divided_isSymm (gram_isSymm _) _) eliminates
    rfl rfl rfl rfl rfl).mpr ?_⟩
  have diagonal : (0 : ℝ) < 1.0e-6 := by norm_num
  have damping : (0 : ℝ) ≤ 1.0e-3 := by norm_num
  exact posDef_single _ (dampedEntry_pos Settings.standard_proper diagonal damping _)

omit [Spectral ℝ] in
/-- The second call after a start at one computes a step. -/
theorem steps_solve_from_one : ∃ (_ : Spectral ℝ) (started : Solver Unit ℝ),
    (start [1] none none).run unitSearch = (.ok (), started) ∧
      (started.afterCalls 1).ComputesStep ∧ (started.afterCalls 1).StepSolves 1 1 := by
  obtain ⟨cost, success⟩ := unitSearch_starts
  let spectral : Spectral ℝ := ⟨fun _ => []⟩
  refine ⟨spectral, _, success, unitSearch_computes cost, ?_⟩
  have untorn (earlier : Nat) (first : earlier < 1) (fault : Fault ℝ) : ¬ Torn
      ((unitStarted cost).afterCalls earlier) ((unitStarted cost).afterCalls (earlier + 1))
        fault := by
    obtain rfl := Nat.lt_one_iff.mp first
    exact not_torn_of_differentiate rfl
  exact steps_solve unitSearch _ [1] none none success rfl 1 untorn (unitSearch_computes cost)

end Solver

end DampedLeastSquares
