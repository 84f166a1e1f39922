import Mathlib.Data.List.Induction
import DampedLeastSquares.Proofs.DampingRange
import DampedLeastSquares.Proofs.Exact.CheckedSearch

/-!
# Nothing is divided by zero

A search that solves its systems by elimination is followed through every history of requests, in
an arithmetic where a quotient by zero is undefined, and so is whatever is computed from it. All
that the search stores stays a number. The scaling outlives the settings it was chosen under, so
that it is positive is part of what every request keeps.
-/

set_option autoImplicit false

namespace DampedLeastSquares

open Checked

variable {σ : Type}

/-- A matrix as it is created for solving by elimination, in one piece or in blocks. -/
inductive NormalMatrix.Eliminating : NormalMatrix Checked → Prop where
  | whole {method : Method Checked} :
      (∀ cutoff, method ≠ .leastNorm cutoff) → Eliminating (.whole (.create method))
  | split (asSparse : Bool) : Eliminating (.split (.create asSparse))

theorem NormalMatrix.Eliminating.defined {normal : NormalMatrix Checked}
    (eliminating : normal.Eliminating) : normal.Defined := by
  cases eliminating with
  | whole eliminates => exact WholeNormal.defined_create eliminates
  | split asSparse => exact SplitNormal.defined_create asSparse

/-- What is handed over are numbers, losses with positive thresholds, and functions that answer
with numbers at numbers. -/
def Command.Defined : Command σ Checked → Prop
  | .configure settings? => ∀ settings, settings? = some settings → settings.Defined
  | .setLoss loss => loss.Defined
  | .setVerbose _ => True
  | .setFunctions residuals jacobian? _ _ =>
      (∀ x, x.Defined → Call.Yields View.Defined (residuals x)) ∧
        ∀ jacobian, jacobian? = some jacobian →
          ∀ x, x.Defined → Call.Yields Derivative.Defined (jacobian x)
  | .start point cost? gradient? =>
      point.Defined ∧ (∀ tolerance, cost? = some tolerance → tolerance.Defined) ∧
        ∀ tolerance, gradient? = some tolerance → tolerance.Defined
  | .iterate => True

theorem Settings.yields_check (settings : Settings Checked) :
    Yields (fun _ => settings.Rescales) settings.check := by
  cases checked : settings.check with
  | ok _ => exact (check_eq_ok_iff.mp checked).2.2.1
  | error fault =>
      rintro rfl
      unfold check DescentSettings.check at checked
      split at checked
      · cases checked
      split at checked
      · cases checked
      rw [ok_bind] at checked
      split at checked
      · cases checked
      split at checked
      · cases checked
      split at checked
      · cases checked
      · cases checked

theorem Settings.Defined.adopting {settings : Settings Checked} (defined : settings.Defined)
    {cost? gradient? : Option Checked}
    (cost : ∀ tolerance, cost? = some tolerance → tolerance.Defined)
    (gradient : ∀ tolerance, gradient? = some tolerance → tolerance.Defined) :
    (settings.adopting cost? gradient?).Defined := by
  refine { defined with gradientTolerance := ?_, costTolerance := ?_ }
  · cases gradient? with
    | none => exact defined.gradientTolerance
    | some tolerance => exact gradient tolerance rfl
  · cases cost? with
    | none => exact defined.costTolerance
    | some tolerance => exact cost tolerance rfl

namespace Solver

/-- How a request ends. -/
def ending {α : Type} [Scalar α] [Spectral α] (solver : Solver σ α) :
    Command σ α → Except (Fault α) Unit
  | .configure settings? => ((configureFrom settings?).run solver).1
  | .setLoss _ => .ok ()
  | .setVerbose _ => .ok ()
  | .setFunctions residuals jacobian? split? world =>
      ((setFunctions residuals jacobian? split? world).run solver).1
  | .start point cost? gradient? => ((start point cost? gradient?).run solver).1
  | .iterate => solver.answer.map fun _ => ()

variable {costed : Prop} {solver : Solver σ Checked}

theorem Defined.weaken (defined : solver.Defined True) : solver.Defined costed :=
  { defined with cost := fun _ => defined.cost trivial }

theorem created_defined {form : JacobianForm} {normal : NormalMatrix Checked}
    {settings : Settings Checked} {world : σ} {idle : Solver σ Checked}
    (created : create form normal settings world = .ok idle) (eliminating : normal.Eliminating)
    (numbers : settings.Defined) : idle.Defined False := by
  obtain ⟨_, valid, made⟩ := of_bind created
  have rescales := settings.yields_check.of_ok valid
  cases made
  exact {
    normal := eliminating.defined
    settings := numbers
    rescales := rescales
    loss := Loss.defined_squared
    problem := nofun
    x := Vec.defined_nil
    candidate := Vec.defined_nil
    step := Vec.defined_nil
    gradient := Vec.defined_nil
    scaling := Vec.positive_nil
    cost := False.elim
    residuals := Vec.defined_nil
    candidateResiduals := Vec.defined_nil
    lossGradient := Vec.defined_nil
    plainDiagonal := Vec.defined_nil
    dampedDiagonal := Vec.defined_nil
    damping := numbers.initialDamping
    growth := defined_literal _ _ _ }

/-! ## Configuring and giving functions -/

theorem configureFrom_keeps (defined : solver.Defined costed)
    {settings? : Option (Settings Checked)}
    (numbers : ∀ settings, settings? = some settings → settings.Defined) :
    Keeps costed solver (configureFrom settings?) fun _ => True := by
  cases settings? with
  | none => exact keeps_throw defined (by simp)
  | some settings =>
      refine keeps_attempt_bind defined settings.yields_check fun _ rescales => keeps_modify ?_
      exact { defined with settings := numbers settings rfl, rescales := rescales }

theorem yields_jacobianFunction (solver : Solver σ Checked)
    {residuals : Vec Checked → Call σ Checked (View σ Checked)}
    {jacobian? : Option (Vec Checked → Call σ Checked (Derivative Checked))}
    (answers : ∀ x, x.Defined → Call.Yields View.Defined (residuals x))
    (derives : ∀ jacobian, jacobian? = some jacobian →
      ∀ x, x.Defined → Call.Yields Derivative.Defined (jacobian x)) (split? : Option Int) :
    Yields (fun jacobian => ∀ x, x.Defined → Call.Yields Derivative.Defined (jacobian x))
      (solver.jacobianFunction residuals jacobian? split?) := by
  have step := Difference.pos_standardScale
  unfold jacobianFunction
  dsimp only
  split
  · exact nofun
  · next jacobian _ => exact derives jacobian rfl
  · exact fun x defined => Difference.yields_whole answers step _ defined
  · exact fun x defined => Difference.yields_split answers step _ _ defined
  · exact nofun

theorem setFunctions_keeps (defined : solver.Defined costed)
    {residuals : Vec Checked → Call σ Checked (View σ Checked)}
    {jacobian? : Option (Vec Checked → Call σ Checked (Derivative Checked))}
    (answers : ∀ x, x.Defined → Call.Yields View.Defined (residuals x))
    (derives : ∀ jacobian, jacobian? = some jacobian →
      ∀ x, x.Defined → Call.Yields Derivative.Defined (jacobian x))
    (split? : Option Int) (world : σ) :
    Keeps costed solver (setFunctions residuals jacobian? split? world) fun _ => True := by
  unfold setFunctions
  refine keeps_get_bind ?_
  refine keeps_attempt_bind defined (solver.yields_jacobianFunction answers derives split?)
    fun jacobian found => keeps_modify ?_
  refine { defined with problem := fun problem given => ?_ }
  cases given
  exact ⟨fun _ => View.yields_copied answers, found⟩

/-! ## Starting -/

/-- The scaling interval is not among the settings that a start writes. -/
theorem adoptTolerances_keeps (defined : solver.Defined costed) {cost? gradient? : Option Checked}
    (cost : ∀ tolerance, cost? = some tolerance → tolerance.Defined)
    (gradient : ∀ tolerance, gradient? = some tolerance → tolerance.Defined) :
    Keeps costed solver (adoptTolerances cost? gradient?) fun _ => True := by
  unfold adoptTolerances
  refine keeps_modify_bind (keeps_get_bind (keeps_attempt ?_ ?_))
  · exact { defined with settings := defined.settings.adopting cost gradient }
  · exact (Settings.yields_check _).mono fun _ _ => trivial

theorem resetParameters_keeps (defined : solver.Defined costed) {point : Vec Checked}
    (pointDefined : point.Defined) :
    Keeps costed solver (resetParameters point) fun _ => True := by
  refine keeps_modify ?_
  exact { defined with
    x := pointDefined
    candidate := Vec.defined_zeros _
    step := Vec.defined_zeros _
    gradient := Vec.defined_zeros _
    scaling := Vec.positive_ones _
    normal := defined.normal.reset _ }

theorem resetDamping_keeps (defined : solver.Defined costed) :
    Keeps costed solver resetDamping fun _ => True := by
  refine keeps_modify ?_
  exact { defined with
    damping := defined.settings.initialDamping
    growth := defined_literal _ _ _
    plainDiagonal := Vec.defined_zeros _
    dampedDiagonal := Vec.defined_zeros _ }

theorem resetResiduals_keeps (defined : solver.Defined costed) :
    Keeps costed solver resetResiduals fun _ => True := by
  unfold resetResiduals
  refine keeps_get_bind ?_
  refine (residualsAt_keeps defined defined.x).bind
    fun residuals after defined residualsDefined => keeps_modify_bind (keeps_get_bind ?_)
  have measured := { defined with
    residuals := residualsDefined
    candidateResiduals := Vec.defined_zeros _
    lossGradient := Vec.defined_zeros _ : Defined { after with
      residuals := residuals
      candidateResiduals := Vec.zeros residuals.length
      lossGradient := Vec.zeros residuals.length } costed }
  refine keeps_attempt_bind measured (defined.loss.prepare _) fun loss prepared =>
    keeps_modify_bind ((settle_keeps ?_ residualsDefined).bind fun _ _ defined _ => ?_)
  · exact { measured with loss := prepared }
  · exact keeps_return defined _

/-- A start that returns has computed the cost. -/
theorem settleStart_costs (defined : solver.Defined costed) :
    Ensures settleStart solver (fun _ after => after.Defined True)
      fun fault after => after.Defined costed ∧ fault ≠ .divisionByZero := by
  unfold settleStart
  refine (resetDamping_keeps defined).ensures_bind fun _ after defined _ => ?_
  refine (resetResiduals_keeps defined).ensures_bind fun _ after defined _ => ?_
  rw [ensures_bind, ensures_get]
  refine (costOf_keeps defined defined.residuals).ensures_bind
    fun cost after defined costDefined => ?_
  have measured := { defined with cost := fun _ => costDefined : Defined { after with
    cost := cost } True }
  have rest : Keeps True { after with cost := cost } (do
      if !Scalar.isFinite cost then throw (.breakdown (.initialCost cost))
      let solver ← get
      if solver.verbose then report solver.startLines : Action σ Checked Unit) fun _ => True := by
    refine keeps_ite (fun _ => keeps_throw_bind measured (by simp)) fun _ => keeps_get_bind ?_
    exact keeps_ite (fun _ => keeps_report measured _) fun _ => keeps_return measured _
  rw [ensures_bind, ensures_modify]
  exact Ensures.mono rest (fun _ _ kept => kept.1) fun _ _ failed => ⟨failed.1.weaken, failed.2⟩

theorem start_costs (defined : solver.Defined costed) {point : Vec Checked}
    (pointDefined : point.Defined) {cost? gradient? : Option Checked}
    (cost : ∀ tolerance, cost? = some tolerance → tolerance.Defined)
    (gradient : ∀ tolerance, gradient? = some tolerance → tolerance.Defined) :
    Ensures (start point cost? gradient?) solver (fun _ after => after.Defined True)
      fun fault after => after.Defined costed ∧ fault ≠ .divisionByZero := by
  unfold start
  rw [ensures_bind, ensures_get]
  split
  · exact ⟨defined, by simp⟩
  · exact ⟨defined, by simp⟩
  · refine (adoptTolerances_keeps defined cost gradient).ensures_bind fun _ after defined _ => ?_
    refine (resetParameters_keeps defined pointDefined).ensures_bind fun _ after defined _ => ?_
    exact settleStart_costs defined

theorem start_keeps (defined : solver.Defined costed) {point : Vec Checked}
    (pointDefined : point.Defined) {cost? gradient? : Option Checked}
    (cost : ∀ tolerance, cost? = some tolerance → tolerance.Defined)
    (gradient : ∀ tolerance, gradient? = some tolerance → tolerance.Defined) :
    Keeps costed solver (start point cost? gradient?) fun _ => True :=
  (start_costs defined pointDefined cost gradient).mono
    (fun _ _ defined => ⟨defined.weaken, trivial⟩) fun _ _ failed => failed

/-! ## Histories -/

variable [Spectral Checked]

/-- A request keeps to numbers and does not end in a division by zero. -/
theorem obey_keeps (defined : solver.Defined costed) {command : Command σ Checked}
    (handed : command.Defined) :
    (solver.obey command).Defined costed ∧ Yields (fun _ => True) (solver.ending command) := by
  cases command with
  | configure settings? => exact (configureFrom_keeps defined handed).leaves
  | setLoss loss => exact ⟨{ defined with loss := handed }, trivial⟩
  | setVerbose verbose => exact ⟨{ defined with }, trivial⟩
  | setFunctions residuals jacobian? split? world =>
      exact (setFunctions_keeps defined handed.1 handed.2 split? world).leaves
  | start point cost? gradient? =>
      exact (start_keeps defined handed.1 handed.2.1 handed.2.2).leaves
  | iterate =>
      obtain ⟨kept, yields⟩ := (iterate_keeps defined).leaves
      exact ⟨kept, yields.map fun _ _ => trivial⟩

theorem afterCommands_defined (defined : solver.Defined costed)
    {history : List (Command σ Checked)} (handed : ∀ command ∈ history, command.Defined) :
    (solver.afterCommands history).Defined costed := by
  induction history generalizing solver with
  | nil => exact defined
  | cons command history previous =>
      rw [List.forall_mem_cons] at handed
      exact previous (obey_keeps defined handed.1).1 handed.2

/-- Some start in the history returned. -/
def EverStarted (idle : Solver σ Checked) (history : List (Command σ Checked)) : Prop :=
  ∃ earlier point cost? gradient? later,
    history = earlier ++ .start point cost? gradient? :: later ∧
      (idle.afterCommands earlier).ending (.start point cost? gradient?) = .ok ()

/-- From a start that returned on, the cost is a number too. -/
theorem afterCommands_costed (defined : solver.Defined False)
    {history : List (Command σ Checked)} (handed : ∀ command ∈ history, command.Defined) :
    (solver.afterCommands history).Defined (solver.EverStarted history) := by
  have kept := afterCommands_defined defined handed
  refine { kept with cost := fun ⟨earlier, point, cost?, gradient?, later, parts, returned⟩ => ?_ }
  subst parts
  have before := afterCommands_defined defined fun command member =>
    handed command (List.mem_append_left _ member)
  have started : Command.Defined (.start point cost? gradient?) := handed _ (by simp)
  have costs := start_costs before started.1 started.2.1 started.2.2
  have ran := run_of_isOk (congrArg Except.isOk returned)
  have now : ((solver.afterCommands earlier).obey (.start point cost? gradient?)).Defined True :=
    costs.of_run_ok ran
  have last : (solver.afterCommands (earlier ++ .start point cost? gradient? :: later)).Defined
      True := by
    have remaining : ∀ command ∈ later, command.Defined := fun command member =>
      handed command (by simp [member])
    have rest := afterCommands_defined now remaining
    simpa only [afterCommands, List.foldl_append, List.foldl_cons] using rest
  exact last.cost trivial

/-- In every state that numbers, losses with positive thresholds and functions on numbers lead to,
the scaling is positive, and so are the factors that it will be chosen from; no further request ends
in a division by zero, which is what a ratio to a predicted reduction of zero would end in; the cost
and the slopes of residuals are numbers, where the loss has them; and no step of a forward
difference is zero. All that the search stores are numbers, the cost from the first start on that
returned, so nothing was divided by zero to come to it. -/
theorem divisors_nonzero {form : JacobianForm} {normal : NormalMatrix Checked}
    {settings : Settings Checked} {world : σ} {idle now : Solver σ Checked}
    (created : create form normal settings world = .ok idle) (eliminating : normal.Eliminating)
    (numbers : settings.Defined) {history : List (Command σ Checked)}
    (handed : ∀ command ∈ history, command.Defined)
    (reached : idle.afterCommands history = now) :
    now.scaling.Positive ∧
    (now.settings.rescaling = true → ∀ entry : Checked, entry.Defined →
      0.0 < scalingFactor now.settings entry) ∧
    (∀ command : Command σ Checked, command.Defined →
      now.ending command ≠ .error .divisionByZero) ∧
    (∀ residuals : Vec Checked, residuals.Defined →
      Yields Checked.Defined (now.loss.cost residuals) ∧
      Yields Vec.Defined (now.loss.gradient residuals)) ∧
    (∀ parameter : Checked, parameter.Defined → ∃ step : ℝ, step ≠ 0 ∧
      Difference.relativeStep Difference.standardScale parameter = number step) ∧
    now.Defined (idle.EverStarted history) := by
  subst reached
  have defined := afterCommands_costed (created_defined created eliminating numbers) handed
  refine ⟨defined.scaling, fun rescaling entry => pos_scalingFactor defined.rescales rescaling,
    fun command given ended => ?_, fun residuals given => ⟨defined.loss.cost given,
      defined.loss.gradient given⟩,
    fun parameter => Difference.exists_relativeStep Difference.pos_standardScale, defined⟩
  exact (obey_keeps defined given).2.of_error ended rfl

omit [Spectral Checked]

/-- The usual settings, with parameters rescaled. -/
noncomputable def rescalingSettings : Settings Checked :=
  { Settings.standard with rescaling := true }

theorem standard_defined : (Settings.standard : Settings Checked).Defined := by
  constructor <;> exact defined_literal _ _ _

theorem rescalingSettings_defined : rescalingSettings.Defined := by
  constructor <;> exact defined_literal _ _ _

theorem rescalingSettings_valid : rescalingSettings.check = .ok () := by
  rw [Settings.check_eq_ok_iff]
  refine ⟨?_, ?_, fun _ => ⟨?_, ?_⟩, ⟨?_, ?_⟩, ?_, ?_⟩
  · change ¬ (1.0e-8 : ℝ) < 0.0
    norm_num
  · change ¬ (1.0e-12 : ℝ) < 0.0
    norm_num
  · change (0.0 : ℝ) < 1.0e-5
    norm_num
  · change (1.0e-5 : ℝ) ≤ 1.0e5
    norm_num
  · change (0.0 : ℝ) ≤ 1.0e-4
    norm_num
  · change (1.0e-4 : ℝ) ≤ 1.0
    norm_num
  · change ¬ (1.0e-3 : ℝ) < 0.0
    norm_num
  · change ¬ (1.0e32 : ℝ) < 1.0e-6
    norm_num

/-- One residual, the parameter itself. -/
noncomputable def parameterResidual (x : Vec Checked) : Call Unit Checked (View Unit Checked) :=
  pure (.fresh (.vector x))

/-- Parameters are rescaled, then no more, and then again. -/
noncomputable def reconfiguringHistory : List (Command Unit Checked) :=
  [.setFunctions parameterResidual none none (), .setLoss ⟨.huber 1.0, 0⟩,
    .start [3.0] none none, .iterate, .configure (some Settings.standard), .iterate,
    .configure (some rescalingSettings), .iterate]

theorem reconfiguringHistory_defined :
    ∀ command ∈ reconfiguringHistory, command.Defined := by
  have answers (x : Vec Checked) (defined : x.Defined) :
      Call.Yields View.Defined (parameterResidual x) := Call.yields_pure fun _ _ _ => defined
  have one : (0.0 : Checked) < 1.0 := pos_iff.mpr ⟨1, one_pos, literal_one⟩
  have point : Vec.Defined [3.0] := Vec.defined_cons.mpr ⟨defined_literal _ _ _, Vec.defined_nil⟩
  intro command member
  simp only [reconfiguringHistory, List.mem_cons, List.not_mem_nil, or_false] at member
  rcases member with rfl | rfl | rfl | rfl | rfl | rfl | rfl | rfl
  · exact ⟨answers, nofun⟩
  · exact .huber one
  · exact ⟨point, nofun, nofun⟩
  · exact trivial
  · intro settings same
    cases same
    exact standard_defined
  · exact trivial
  · intro settings same
    cases same
    exact rescalingSettings_defined
  · exact trivial

/-- The scaling stays positive while the settings that it was chosen under are replaced. -/
theorem divisors_nonzero_reconfigured : ∃ (_ : Spectral Checked) (idle : Solver Unit Checked),
    create .whole (.whole (WholeNormal.create .elimination)) rescalingSettings () = .ok idle ∧
    (idle.afterCommands reconfiguringHistory).scaling.Positive ∧
    (idle.afterCommands reconfiguringHistory).ending .iterate ≠ .error .divisionByZero := by
  let spectral : Spectral Checked := ⟨fun _ => []⟩
  have accepted : ∃ idle : Solver Unit Checked,
      create .whole (.whole (WholeNormal.create .elimination)) rescalingSettings () = .ok idle := by
    unfold create
    rw [rescalingSettings_valid]
    exact ⟨_, rfl⟩
  obtain ⟨idle, created⟩ := accepted
  have safe := divisors_nonzero created (.whole nofun) rescalingSettings_defined
    reconfiguringHistory_defined rfl
  exact ⟨spectral, idle, created, safe.1, safe.2.2.1 .iterate trivial⟩

end Solver

end DampedLeastSquares
