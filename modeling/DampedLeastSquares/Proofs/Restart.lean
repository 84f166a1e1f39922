import DampedLeastSquares.Proofs.Descent
import DampedLeastSquares.Proofs.Lockstep
import DampedLeastSquares.Proofs.Sizes

/-!
# A start forgets what came before

Two searches that are set up alike are in lock step once they were started at
the same point, whatever they were used for before. A start does not set
everything back: blocks of a normal matrix and a diagonal keep what an earlier
run left in them. But they are written before they are read.
-/

set_option autoImplicit false

namespace DampedLeastSquares

variable {σ α : Type} [Scalar α]

namespace NormalMatrix

variable {first second : NormalMatrix α}

/-- The normal matrix as it was created, with the same storage and method. -/
def fresh : NormalMatrix α → NormalMatrix α
  | whole normal => .whole (WholeNormal.create normal.method)
  | split normal => .split (SplitNormal.create normal.asSparse)

/-- The normal matrix without the entries of its blocks. -/
def cleared : NormalMatrix α → NormalMatrix α
  | whole normal => .whole normal
  | split normal =>
      .split { SplitNormal.create normal.asSparse with leftFactor? := normal.leftFactor? }

theorem reset_cleared (same : first.fresh = second.fresh) (size : Nat) :
    (first.reset size).cleared = (second.reset size).cleared := by
  cases first with
  | whole normal =>
      cases second with
      | split normal' => cases same
      | whole normal' =>
          simp only [fresh, WholeNormal.create, whole.injEq, WholeNormal.mk.injEq] at same
          simp only [reset, WholeNormal.reset, cleared, same.1]
  | split normal =>
      cases second with
      | whole normal' => cases same
      | split normal' =>
          simp only [fresh, SplitNormal.create, split.injEq, SplitNormal.mk.injEq] at same
          simp only [reset, SplitNormal.reset, cleared, SplitNormal.create, same.1]

/-- An update ends the same whatever is left in the blocks. It replaces all of them, unless it
fails. -/
theorem update_cleared (same : first.cleared = second.cleared) (jacobian : Derivative α) :
    (first.update jacobian).1 = (second.update jacobian).1 ∧
      (first.update jacobian).2.cleared = (second.update jacobian).2.cleared ∧
      ((first.update jacobian).1 = .ok () →
        (first.update jacobian).2 = (second.update jacobian).2) := by
  cases first with
  | whole normal =>
      cases second with
      | split normal' => cases same
      | whole normal' =>
          cases same
          exact ⟨rfl, rfl, fun _ => rfl⟩
  | split normal =>
      cases second with
      | whole normal' => cases same
      | split normal' =>
          cases jacobian with
          | whole columns => exact ⟨rfl, same, nofun⟩
          | split left right =>
              obtain ⟨asSparse, _, _, _, leftFactor?⟩ := normal
              obtain ⟨asSparse', _, _, _, leftFactor?'⟩ := normal'
              simp only [cleared, SplitNormal.create, split.injEq, SplitNormal.mk.injEq] at same
              obtain ⟨rfl, _, _, _, rfl⟩ := same
              simp only [update, SplitNormal.compute, SplitNormal.startOf]
              split
              · exact ⟨rfl, rfl, nofun⟩
              · split
                · exact ⟨rfl, rfl, nofun⟩
                · split
                  · exact ⟨rfl, rfl, nofun⟩
                  · exact ⟨rfl, rfl, fun _ => rfl⟩

end NormalMatrix

/-- The functions answer the same in worlds that correspond. -/
structure Problem.Respects (problem : Problem σ α) (world : σ → σ → Prop) : Prop where
  residuals : ∀ x, (problem.residuals x).Paired world (problem.residuals x)
  jacobian : ∀ x, (problem.jacobian x).Paired world (problem.jacobian x)

/-- Two runs on the same functions from the same parameters. -/
def Problem.pairing (problem : Problem σ α) (world : σ → σ → Prop)
    (respects : problem.Respects world) : Pairing σ α where
  world := world
  point := Eq
  problem := problem
  problem' := problem
  residuals same := same ▸ respects.residuals _
  length same := same ▸ rfl
  zeros same := same ▸ rfl
  further same same' := by
    subst same
    subst same'
    generalize Vec.combine? _ _ _ = combined?
    cases combined? with
    | none => exact .none
    | some combined => exact .some rfl

/-- Equal, but for what is left in the blocks of the normal matrix. -/
structure Derivatives.Like (first second : Derivatives α) : Prop where
  normal : first.normal.cleared = second.normal.cleared
  gradient : first.gradient = second.gradient
  scaling : first.scaling = second.scaling
  plainDiagonal : first.plainDiagonal = second.plainDiagonal
  dampedDiagonal : first.dampedDiagonal = second.dampedDiagonal

theorem Derivatives.Like.of_eq {first second : Derivatives α} (same : first = second) :
    first.Like second := by
  subst same
  exact ⟨rfl, rfl, rfl, rfl, rfl⟩

namespace Solver

variable {problem : Problem σ α} {world : σ → σ → Prop} {first second : Solver σ α}

/-- In lock step on the same functions, with equal derivatives. -/
abbrev Rejoined (respects : problem.Respects world) : Solver σ α → Solver σ α → Prop :=
  Lockstep (problem.pairing world respects) Eq

/-- In lock step on the same functions. The blocks of the normal matrices may still differ. -/
abbrev Rejoining (respects : problem.Respects world) : Solver σ α → Solver σ α → Prop :=
  Lockstep (problem.pairing world respects) Derivatives.Like

variable {respects : problem.Respects world}

theorem Lockstep.rejoining (same : Rejoined respects first second) :
    Rejoining respects first second := same.mono .of_eq

theorem Lockstep.x_eq {relation : Derivatives α → Derivatives α → Prop}
    (same : Lockstep (problem.pairing world respects) relation first second) :
    first.x = second.x := same.x

theorem Lockstep.step_eq {relation : Derivatives α → Derivatives α → Prop}
    (same : Lockstep (problem.pairing world respects) relation first second) :
    first.step = second.step := same.step

section Known

variable {pairing : Pairing σ α} (same : Lockstep pairing Eq first second)

include same

theorem Lockstep.normal_eq : first.normal = second.normal :=
  congrArg Derivatives.normal same.derivatives

theorem Lockstep.gradient_eq : first.gradient = second.gradient :=
  congrArg Derivatives.gradient same.derivatives

theorem Lockstep.scaling_eq : first.scaling = second.scaling :=
  congrArg Derivatives.scaling same.derivatives

theorem Lockstep.plainDiagonal_eq : first.plainDiagonal = second.plainDiagonal :=
  congrArg Derivatives.plainDiagonal same.derivatives

theorem Lockstep.dampedDiagonal_eq : first.dampedDiagonal = second.dampedDiagonal :=
  congrArg Derivatives.dampedDiagonal same.derivatives

end Known

/-! ## Computing derivatives -/

theorem update_alongside (same : Rejoining respects first second) (jacobian : Derivative α) :
    Alongside first second (changeNormal fun normal => normal.update jacobian)
      (changeNormal fun normal => normal.update jacobian) (Rejoined respects)
      (Rejoining respects) := by
  obtain ⟨normal, gradient, scaling, plain, damped⟩ := same.derivatives
  have normal : first.normal.cleared = second.normal.cleared := normal
  obtain ⟨ends, cleared, replaced⟩ := NormalMatrix.update_cleared normal jacobian
  rcases ran : first.normal.update jacobian with ⟨ending, updated⟩
  rcases ran' : second.normal.update jacobian with ⟨ending', updated'⟩
  have changes : (changeNormal fun normal => normal.update jacobian).run first =
      (ending, { first with normal := updated }) := by
    rw [run_changeNormal, ran]
  have changes' : (changeNormal fun normal => normal.update jacobian).run second =
      (ending', { second with normal := updated' }) := by
    rw [run_changeNormal, ran']
  rw [ran, ran'] at ends cleared replaced
  obtain rfl : ending = ending' := ends
  cases ending with
  | error fault =>
      refine .error changes changes' { same with derivatives := ?_ }
      exact ⟨cleared, gradient, scaling, plain, damped⟩
  | ok _ =>
      refine .ok changes changes' { same with derivatives := ?_ }
      exact Derivatives.ext (replaced rfl) gradient scaling plain damped

theorem deriveWhole_alongside (same : Rejoining respects first second)
    (jacobian : Derivative α) :
    Alongside first second (deriveWhole jacobian) (deriveWhole jacobian) (Rejoined respects)
      (Rejoining respects) := by
  have gradient : first.gradient = second.gradient := same.derivatives.gradient
  unfold deriveWhole
  cases jacobian with
  | split left right => exact alongside_throw same
  | whole columns =>
      refine alongside_get_bind ?_
      rw [same.residuals, same.x_eq, gradient]
      refine alongside_attempt_bind rfl (fun _ _ => ?_) same
      refine alongside_bind _ (update_alongside same _) fun _ after after' same => ?_
      refine alongside_bind _ ((lossResiduals_alongside same).mono (fun _ _ same => same)
        fun _ _ same => same.rejoining) fun slopes after after' same => ?_
      refine alongside_attempt_bind rfl (fun product _ => ?_) same.rejoining
      refine alongside_attempt_bind rfl (fun gradient _ => ?_) same.rejoining
      exact alongside_modify { same with
        derivatives := congrArg ({ · with gradient := gradient }) same.derivatives }

theorem deriveSplit_alongside (same : Rejoining respects first second)
    (jacobian : Derivative α) :
    Alongside first second (deriveSplit jacobian) (deriveSplit jacobian) (Rejoined respects)
      (Rejoining respects) := by
  have gradient : first.gradient = second.gradient := same.derivatives.gradient
  unfold deriveSplit
  refine alongside_attempt_bind rfl (fun (left, right) _ => alongside_get_bind ?_) same
  rw [same.residuals, same.x_eq, gradient]
  refine alongside_attempt_bind rfl (fun leftWidth _ => ?_) same
  refine alongside_attempt_bind rfl (fun _ _ => ?_) same
  refine alongside_attempt_bind rfl (fun _ _ => ?_) same
  refine alongside_bind _ (update_alongside same _) fun _ after after' same => ?_
  refine alongside_bind _ ((lossResiduals_alongside same).mono (fun _ _ same => same)
    fun _ _ same => same.rejoining) fun slopes after after' same => ?_
  refine alongside_attempt_bind rfl (fun gradient _ => ?_) same.rejoining
  exact alongside_modify { same with
    derivatives := congrArg ({ · with gradient := gradient }) same.derivatives }

theorem derive_alongside (same : Rejoining respects first second) (form : JacobianForm)
    (jacobian : Derivative α) :
    Alongside first second (derive form jacobian) (derive form jacobian) (Rejoined respects)
      (Rejoining respects) := by
  cases form with
  | whole => exact deriveWhole_alongside same jacobian
  | split => exact deriveSplit_alongside same jacobian
  | undefined => exact alongside_throw same

/-- Equal matrices are changed in the same way. -/
theorem changeNormal_alongside (same : Rejoined respects first second)
    (change : NormalMatrix α → Except (Fault α) Unit × NormalMatrix α) :
    Alongside first second (changeNormal change) (changeNormal change) (Rejoined respects)
      (Rejoined respects) := by
  have changed : Rejoined respects { first with normal := (change second.normal).2 }
      { second with normal := (change second.normal).2 } :=
    { same with derivatives :=
        congrArg ({ · with normal := (change second.normal).2 }) same.derivatives }
  have ran : (changeNormal change).run first =
      ((change second.normal).1, { first with normal := (change second.normal).2 }) := by
    rw [run_changeNormal, same.normal_eq]
  have ran' : (changeNormal change).run second =
      ((change second.normal).1, { second with normal := (change second.normal).2 }) :=
    run_changeNormal
  cases ended : (change second.normal).1 with
  | error fault => exact .error (ended ▸ ran) (ended ▸ ran') changed
  | ok _ => exact .ok (ended ▸ ran) (ended ▸ ran') changed

theorem rescale_alongside (same : Rejoined respects first second) :
    Alongside first second rescale rescale (Rejoined respects) (Rejoined respects) := by
  unfold rescale
  refine alongside_get_bind ?_
  rw [same.normal_eq, same.scaling_eq, same.settings, same.gradient_eq]
  refine alongside_attempt_bind rfl (fun diagonal _ => ?_) same
  refine alongside_bind (Rejoined respects) (alongside_modify { same with
    derivatives := congrArg ({ · with scaling := diagonal.map (scalingFactor second.settings) })
      same.derivatives }) fun _ after after' same => ?_
  refine alongside_attempt_bind rfl (fun gradient _ => ?_) same
  refine alongside_bind (Rejoined respects) (alongside_modify { same with
    derivatives := congrArg ({ · with gradient := gradient }) same.derivatives })
    fun _ after after' same => ?_
  exact changeNormal_alongside same _

theorem keepDiagonal_alongside (same : Rejoined respects first second) :
    Alongside first second keepDiagonal keepDiagonal (Rejoined respects) (Rejoined respects) := by
  unfold keepDiagonal
  refine alongside_get_bind ?_
  rw [same.normal_eq, same.plainDiagonal_eq]
  refine alongside_attempt_bind rfl (fun diagonal _ => ?_) same
  refine alongside_bind (Rejoined respects) (alongside_modify { same with
    derivatives := congrArg ({ · with plainDiagonal := diagonal }) same.derivatives })
    fun _ after after' same => ?_
  refine alongside_ite Iff.rfl (fun _ => alongside_bind (fun _ _ => False) (alongside_throw same)
    fun _ _ _ impossible => impossible.elim) fun _ => ?_
  exact alongside_modify_bind (alongside_pure { same with phase := rfl })

theorem prepareSearch_alongside (same : Rejoined respects first second) :
    Alongside first second prepareSearch prepareSearch (Rejoined respects)
      (Rejoined respects) := by
  have vanishes : first.gradientVanishes = second.gradientVanishes := by
    funext gradient
    rw [gradientVanishes, gradientVanishes, same.settings]
  unfold prepareSearch
  refine alongside_get_bind ?_
  rw [vanishes, same.gradient_eq, same.settings]
  refine alongside_ite Iff.rfl (fun _ => alongside_bind (fun _ _ => False) (alongside_throw same)
    fun _ _ _ impossible => impossible.elim) fun _ => ?_
  refine alongside_ite Iff.rfl (fun _ => alongside_pure same) fun _ => ?_
  refine alongside_ite Iff.rfl (fun _ => ?_) fun _ => keepDiagonal_alongside same
  exact alongside_bind _ (rescale_alongside same) fun _ _ _ same => keepDiagonal_alongside same

/-- What a call preserves: once a search looks for a step, nothing is left of earlier ones. -/
abbrev Parallel (respects : problem.Respects world) : Solver σ α → Solver σ α → Prop :=
  Paced (problem.pairing world respects) Derivatives.Like Eq

theorem Lockstep.parallel (same : Rejoined respects first second) :
    Parallel respects first second := same.paced fun _ _ => .of_eq

theorem updateDerivatives_alongside (same : Rejoining respects first second)
    (waits : first.phase ≠ .search) :
    Alongside first second updateDerivatives updateDerivatives (Rejoined respects)
      (Parallel respects) := by
  refine Alongside.of_run_eq ?_ (updateDerivatives_run first same.defined same.problem)
    (updateDerivatives_run second (same.form ▸ same.defined) same.problem')
  rw [same.x_eq, same.form]
  refine alongside_evaluate_bind (respects.jacobian second.x) same.world ?_ fun _ _ worlds =>
    Lockstep.paced_of_waits { same with world := worlds } waits
  intro jacobian after after' _ worlds
  have same : Rejoining respects { first with world := after } { second with world := after' } :=
    { same with world := worlds }
  have keeps : Leaves (derive second.form jacobian) { first with world := after }
      (·.phase ≠ .search) := by
    refine (derive_derived _ _ jacobian).mono ?_ ?_
    · rintro _ _ ⟨_, _, _, _, _, _, _, rfl⟩
      exact waits
    · rintro _ _ ⟨⟨_, _, _, _, _, _, _, rfl⟩, _⟩
      exact waits
  -- only a Jacobian that was refused leaves blocks of an earlier one
  refine alongside_bind _ (((derive_alongside same second.form jacobian).and_leaves keeps).mono
    (fun _ _ related => related) fun _ _ related => related.1.paced_of_waits related.2)
    fun _ after after' related => ?_
  exact (prepareSearch_alongside related.1).mono (fun _ _ same => same) fun _ _ same =>
    same.parallel

/-! ## Trying a step -/

section Trials

variable [Spectral α]

theorem computeStep_alongside (same : Rejoined respects first second) (damping : α)
    (gradient out : Vec α) :
    Alongside first second (computeStep damping gradient out) (computeStep damping gradient out)
      (Rejoined respects) (Rejoined respects) := by
  unfold computeStep
  refine alongside_get_bind ?_
  rw [same.plainDiagonal_eq, same.settings, same.dampedDiagonal_eq]
  refine alongside_attempt_bind rfl (fun diagonal _ => ?_) same
  refine alongside_bind (Rejoined respects) (alongside_modify { same with
    derivatives := congrArg ({ · with dampedDiagonal := diagonal }) same.derivatives })
    fun _ after after' same => ?_
  refine alongside_bind (Rejoined respects) (changeNormal_alongside same _)
    fun _ after after' same => alongside_get_bind ?_
  rw [same.normal_eq]
  refine alongside_attempt_bind rfl (fun (normal, failure?) _ => ?_) same
  refine alongside_bind (Rejoined respects) (alongside_modify { same with
    derivatives := congrArg ({ · with normal := normal }) same.derivatives })
    fun _ after after' same => ?_
  cases failure? with
  | some failure =>
      exact alongside_bind _ (report_alongside same _ _) fun _ _ _ same => alongside_pure same
  | none =>
      refine alongside_attempt_bind rfl (fun (solution, failure?) _ => ?_) same
      cases failure? with
      | some failure =>
          exact alongside_bind _ (report_alongside same _ _) fun _ _ _ same => alongside_pure same
      | none => exact alongside_pure same

theorem propose_alongside (same : Rejoined respects first second) :
    Alongside first second propose propose (Rejoined respects) (Rejoined respects) := by
  have stepped {after after' : Solver σ α} (same : Rejoined respects after after')
      (step : Vec α) : Rejoined respects { after with step := step }
        { after' with step := step } := { same with step := rfl }
  unfold propose
  refine alongside_get_bind ?_
  rw [same.damping, same.gradient_eq, same.step_eq]
  refine alongside_bind _ (computeStep_alongside same _ _ _)
    fun (step, found) after after' same => ?_
  refine alongside_bind (Rejoined respects) (alongside_modify (stepped same step))
    fun _ after after' same => ?_
  refine alongside_ite Iff.rfl (fun _ => alongside_pure same) fun _ => alongside_get_bind ?_
  rw [predictedReduction, predictedReduction, same.gradient_eq, same.normal_eq]
  refine alongside_attempt_bind rfl (fun predicted _ => alongside_get_bind ?_) same
  rw [unscale, unscale, same.settings, same.scaling_eq]
  refine alongside_attempt_bind rfl (fun unscaled _ => ?_) same
  exact alongside_modify_bind (alongside_pure (stepped same unscaled))

theorem tryStep_alongside (same : Rejoined respects first second)
    (steep : first.gradient ≠ []) :
    Alongside first second tryStep tryStep (Rejoined respects) (Rejoined respects) := by
  have keeps : Leaves propose first (·.gradient ≠ []) := by
    refine (propose_proposed first).mono ?_ ?_
    · rintro _ _ ⟨_, _, _, _, rfl⟩
      exact steep
    · rintro _ _ ⟨⟨_, _, _, _, rfl⟩, _⟩
      exact steep
  rw [tryStep_eq]
  refine alongside_bind _ (((propose_alongside same).and_leaves keeps).mono
    (fun _ _ related => related) fun _ _ related => related.1)
    fun predicted? after after' related => ?_
  obtain ⟨same, steep⟩ := related
  have known : Lockstep (problem.pairing world respects)
      (fun known known' => known = known' ∧ known.gradient ≠ []) after after' :=
    same.mono fun equal => ⟨equal, steep⟩
  refine (proceed_alongside ?_ known predicted?).mono (fun _ _ same => same.mono And.left)
    fun _ _ same => same.mono And.left
  rintro _ _ ⟨rfl, steep⟩
  exact ⟨steep, steep⟩

theorem iterate_parallel (same : Parallel respects first second)
    (steep : first.phase = .search → first.gradient ≠ []) :
    Alongside first second iterate iterate (Parallel respects) (Parallel respects) := by
  refine iterate_alongside same (fun _ _ => .of_eq) (fun phase counted => ?_)
    fun phase counted => tryStep_alongside counted (steep phase)
  have waits : first.phase ≠ .search := by
    rw [phase]
    decide
  exact (updateDerivatives_alongside counted waits).mono (fun _ _ same => same.parallel)
    fun _ _ same => same

/-! ## Whole runs -/

theorem afterCalls_parallel {parameters functions : Nat}
    (same : Parallel respects first second) (sized : first.Sized parameters functions)
    (waits : first.phase ≠ .search) (count : Nat) :
    Parallel respects (first.afterCalls count) (second.afterCalls count) :=
  afterCalls_alongside same (fun count previous =>
    iterate_parallel previous (gradient_of_search sized waits count)) count

/-- The searches show the same state to their callers, and the next call ends the same. -/
structure Matches (first second : Solver σ α) : Prop where
  x : first.x = second.x
  cost : first.cost = second.cost
  residuals : first.residuals = second.residuals
  gradient : first.gradient = second.gradient
  step : first.step = second.step
  damping : first.damping = second.damping
  growth : first.growth = second.growth
  phase : first.phase = second.phase
  updated : first.updated = second.updated
  fullSteps : first.fullSteps = second.fullSteps
  retries : first.retries = second.retries
  answer : first.answer = second.answer

theorem Parallel.matches (same : Parallel respects first second)
    (steep : first.phase = .search → first.gradient ≠ []) : Matches first second where
  x := same.waits.x
  cost := same.waits.cost
  residuals := same.waits.residuals
  gradient := same.waits.derivatives.gradient
  step := same.waits.step
  damping := same.waits.damping
  growth := same.waits.growth
  phase := same.waits.phase
  updated := same.waits.updated
  fullSteps := same.waits.fullSteps
  retries := same.waits.retries
  answer := (iterate_parallel same steep).ends

end Trials

/-- The searches are set up alike: of the same form, with the same storage and method, settings,
functions and loss, and neither functions nor loss tell their worlds apart. What they remember
of earlier runs may be anything. -/
structure SetUpAlike (world : σ → σ → Prop) (first second : Solver σ α) : Prop where
  form : first.form = second.form
  normal : first.normal.fresh = second.normal.fresh
  settings : first.settings = second.settings
  problem : first.problem? = second.problem?
  loss : first.loss.fresh = second.loss.fresh
  worlds : world first.world second.world
  respects : ∀ problem, first.problem? = some problem → problem.Respects world
  chooses : first.loss.Respects world

/-- Started at the same point, searches that are set up alike end the start in the same way, and
they agree after every number of calls, whatever went on before. -/
theorem start_forgets [Spectral α] {world : σ → σ → Prop} {first second : Solver σ α}
    (alike : SetUpAlike world first second) (point : Vec α) (cost? gradient? : Option α) :
    ((start point cost? gradient?).run first).1 = ((start point cost? gradient?).run second).1 ∧
      (((start point cost? gradient?).run first).1 = .ok () → ∀ count,
        Matches (((start point cost? gradient?).run first).2.afterCalls count)
          (((start point cost? gradient?).run second).2.afterCalls count)) := by
  by_cases defined : first.form = .undefined
  · have refuses {idle : Solver σ α} (form : idle.form = .undefined) :
        (start point cost? gradient?).run idle = (.error .unsupported, idle) := by
      unfold start
      rw [run_get_bind, form]
      cases idle.problem? <;> rfl
    rw [refuses defined, refuses (alike.form ▸ defined)]
    exact ⟨rfl, nofun⟩
  cases given : first.problem? with
  | none =>
      have refuses {idle : Solver σ α} (defined : idle.form ≠ .undefined)
          (left : idle.problem? = none) : (start point cost? gradient?).run idle =
            (.error (.refused .noFunctions), idle) := by
        unfold start
        rw [run_get_bind, left]
        cases form : idle.form with
        | undefined => exact (defined form).elim
        | whole => rfl
        | split => rfl
      rw [refuses defined given, refuses (alike.form ▸ defined) (alike.problem ▸ given)]
      exact ⟨rfl, nofun⟩
  | some problem =>
      have facing : Facing (problem.pairing world (alike.respects problem given)) first second :=
        ⟨alike.form, defined, alike.settings, given, alike.problem ▸ given, alike.worlds⟩
      have unknown : (Derivatives.unknown first.normal point.length).Like
          (.unknown second.normal point.length) :=
        ⟨NormalMatrix.reset_cleared alike.normal _, rfl, rfl, rfl, rfl⟩
      have starts := start_alongside facing alike.loss alike.chooses rfl unknown cost? gradient?
      refine ⟨starts.ends, fun success count => ?_⟩
      cases starts with
      | error ran _ _ =>
          rw [ran] at success
          cases success
      | @ok _ after after' ran ran' same =>
          have started := (start_ensures first point cost? gradient?).of_run_ok ran
          have waits : after.phase ≠ .search := by
            rw [started.phase]
            decide
          have parallel : Parallel (alike.respects problem given) after after' :=
            same.paced_of_waits waits
          rw [ran, ran']
          exact (afterCalls_parallel parallel started.sized waits count).matches
            (gradient_of_search started.sized waits count)

/-- A search over two parameters that are their own residuals, in two blocks. Weights are chosen
from the residuals. -/
def blockSearch : Solver Unit Float :=
  { identitySearch with
    form := .split, normal := .split (SplitNormal.create false)
    loss := Loss.reweighted WeightRule.cappedReciprocal.choose
    problem? := some ⟨fun x => pure (.vector x), fun _ => pure (.split
      (.matrix (.dense (DenseMatrix.columnMatrix [1.0, 0.0])))
      (.matrix (.dense (DenseMatrix.columnMatrix [0.0, 1.0]))))⟩ }

/-- The same search as an earlier run over more parameters might have left it. -/
def usedBlockSearch : Solver Unit Float :=
  { blockSearch with
    normal := .split
      ⟨false, .matrix (.dense (DenseMatrix.rowMatrix [5.0, 6.0])), .ofVec [7.0],
        .matrix (.dense (DenseMatrix.zeros 3 3)), none⟩
    loss := ⟨.reweighted WeightRule.cappedReciprocal.choose [0.5, 0.25, 0.125], 3⟩
    phase := .converged, fullSteps := 8, retries := 9, updated := true, x := [1.0, 2.0, 3.0]
    gradient := [4.0], residuals := [2.0, 2.0, 2.0], cost := 6.0, damping := 100.0
    growth := 16.0, verbose := true, trace := [.progressTitle] }

theorem start_forgets_used_blocks :
    ((start [3.0, 4.0] none none).run blockSearch).1 = .ok () ∧
      ((start [3.0, 4.0] none none).run usedBlockSearch).1 = .ok () ∧
      (((start [3.0, 4.0] none none).run usedBlockSearch).2.afterCalls 2).updated = true ∧
      ∀ count, Matches (((start [3.0, 4.0] none none).run blockSearch).2.afterCalls count)
        (((start [3.0, 4.0] none none).run usedBlockSearch).2.afterCalls count) := by
  have alike : SetUpAlike (fun _ _ => True) blockSearch usedBlockSearch := by
    refine ⟨rfl, rfl, rfl, rfl, rfl, trivial, fun problem given => ?_, fun residuals weights => ?_⟩
    · cases given
      exact ⟨fun _ => Call.paired_pure _, fun _ => Call.paired_pure _⟩
    · exact fun _ _ worlds => ⟨rfl, worlds⟩
  have starts : ((start [3.0, 4.0] none none).run blockSearch).1 = .ok () := by
    have success : ((start [3.0, 4.0] none none).run blockSearch).1.isOk = true := by
      decide +kernel
    rw [run_of_isOk success]
  obtain ⟨same, forgets⟩ := start_forgets alike [3.0, 4.0] none none
  exact ⟨starts, same.symm.trans starts, by decide +kernel, forgets starts⟩

end Solver

end DampedLeastSquares
