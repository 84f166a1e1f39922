import DampedLeastSquares.Proofs.Exact.Holding
import DampedLeastSquares.Proofs.LinearResiduals

/-!
# Every layout runs alike

In exact arithmetic a run does not depend on how the normal matrix is held. All
layouts realise one and the same search, whose normal matrix is a matrix of
reals: what a call makes of it is the same in each of them.
-/

set_option autoImplicit false

open scoped Matrix

namespace DampedLeastSquares

open Exact NormalMatrix

namespace Solver

variable {σ : Type} {k l : Nat} {residuals : Vec ℝ → Call σ ℝ (Tensor ℝ)}
  {jacobian : Vec ℝ → Call σ ℝ (DenseMatrix ℝ)}

/-- A fault that says which shape a Jacobian should have. -/
def RefusesShape {β : Type} (ending : Except (Fault ℝ) β) : Prop :=
  ∃ expected found, ending = .error (.refused (.jacobianShape expected found))

/-- The same ending, but for the shape that a refused Jacobian is said to have. -/
def EndsAlike {β : Type} (first second : Except (Fault ℝ) β) : Prop :=
  first = second ∨ RefusesShape first ∧ RefusesShape second

theorem EndsAlike.refl {β : Type} (ending : Except (Fault ℝ) β) : EndsAlike ending ending :=
  .inl rfl

theorem EndsAlike.both {β : Type} {ending first second : Except (Fault ℝ) β}
    (start : EndsAlike ending first) (rest : EndsAlike ending second) :
    EndsAlike first second := by
  obtain rfl | ⟨refused, refused'⟩ := start
  · exact rest
  · obtain rfl | ⟨_, refused''⟩ := rest
    · exact .inr ⟨refused', refused⟩
    · exact .inr ⟨refused', refused''⟩

/-- The search holds, in the layout of a solver, the matrix that it needs for its next trial,
and is like `core` in everything else. -/
def Realizes (residuals : Vec ℝ → Call σ ℝ (Tensor ℝ))
    (jacobian : Vec ℝ → Call σ ℝ (DenseMatrix ℝ)) (holding : Holding) (core : Solver σ ℝ)
    (matrix : RealMatrix k k) (solver : Solver σ ℝ) : Prop :=
  ∃ (normal : NormalMatrix ℝ) (trace : List (Event ℝ)),
    solver = core.arranged residuals (holding.arrangement jacobian normal) trace ∧
    normal.layout? = some holding.layout ∧ (core.phase = .search → normal.Represents matrix)

/-- From searches that realise `core` and `matrix` the action comes to searches that realise
`after` and `changed`, and it ends as `ending` does. -/
def Uniform {β : Type} (residuals : Vec ℝ → Call σ ℝ (Tensor ℝ))
    (jacobian : Vec ℝ → Call σ ℝ (DenseMatrix ℝ)) (action : Action σ ℝ β) (core : Solver σ ℝ)
    (matrix : RealMatrix k k) (ending : Except (Fault ℝ) β) (after : Solver σ ℝ)
    (changed : RealMatrix k k) : Prop :=
  ∀ (holding : Holding) (solver : Solver σ ℝ), holding.Fits k →
    Realizes residuals jacobian holding core matrix solver →
    EndsAlike ending (action.run solver).1 ∧
      Realizes residuals jacobian holding after changed (action.run solver).2

/-! ## Trying a step -/

noncomputable def someArrangement : Arrangement σ ℝ :=
  Holding.arrangement .dense (fun _ => throw .undefined)
    (.whole (WholeNormal.create .elimination))

theorem blind_sized {β : Type} {action : Action σ ℝ β} (blind : Blind residuals action)
    (keeps : ∀ solver : Solver σ ℝ, solver.Sized k l → Leaves action solver (·.Sized k l))
    {core : Solver σ ℝ} (sized : core.Sized k l) :
    ∃ (ending : Except (Fault ℝ) β) (after : Solver σ ℝ), after.Sized k l ∧
      ∀ arrangement trace, ∃ trace',
        action.run (core.arranged residuals arrangement trace) =
          (ending, after.arranged residuals arrangement trace') := by
  obtain ⟨ending, after, runs⟩ := blind core
  refine ⟨ending, after, ?_, runs⟩
  obtain ⟨trace, ran⟩ := runs someArrangement []
  have kept := (keeps (core.arranged residuals someArrangement [])
    { sized with x := sized.x }).leaves
  rw [ran] at kept
  exact { kept with x := kept.x }

/-- What follows a change of the normal matrix that every layout makes. -/
theorem uniform_of_run_eq (core middle : Solver σ ℝ) (sized : middle.Sized k l)
    {matrix changed : RealMatrix k k} {start action : Action σ ℝ Bool}
    (blind : Blind residuals action)
    (keeps : ∀ solver : Solver σ ℝ, solver.Sized k l → Leaves action solver (·.Sized k l))
    (goes : ∀ (holding : Holding) (normal : NormalMatrix ℝ) (trace : List (Event ℝ)),
      holding.Fits k → normal.layout? = some holding.layout →
      (core.phase = .search → normal.Represents matrix) →
      ∃ (normal' : NormalMatrix ℝ) (trace' : List (Event ℝ)), normal'.Represents changed ∧
        normal'.layout? = some holding.layout ∧
        start.run (core.arranged residuals (holding.arrangement jacobian normal) trace) =
          action.run (middle.arranged residuals (holding.arrangement jacobian normal') trace')) :
    ∃ (ending : Except (Fault ℝ) Bool) (after : Solver σ ℝ), after.Sized k l ∧
      Uniform residuals jacobian (start >>= iterate.conclude) core matrix ending after
        changed := by
  obtain ⟨ending, after, sized', runs⟩ :=
    blind_sized (blind_bind blind blind_conclude)
      (fun solver sized => conclude_sized (keeps solver sized)) sized
  refine ⟨ending, after, sized', ?_⟩
  intro holding solver fits realized
  obtain ⟨normal, trace, rfl, layout, represents⟩ := realized
  obtain ⟨normal', trace', represents', layout', same⟩ :=
    goes holding normal trace fits layout represents
  obtain ⟨trace'', ran⟩ := runs (holding.arrangement jacobian normal') trace'
  rw [run_bind_congr same, ran]
  exact ⟨.refl _, normal', trace'', rfl, layout', fun _ => represents'⟩

section Trials

variable [Spectral ℝ]

/-- Whether the damped system is positive definite does not depend on the layout, nor does what
a trial makes of its solution. -/
theorem tryStep_uniform {core : Solver σ ℝ} (sized : core.Sized k l)
    (phase : core.phase = .search) {matrix : RealMatrix k k} (symmetric : matrix.IsSymm) :
    ∃ (ending : Except (Fault ℝ) Bool) (after : Solver σ ℝ) (changed : RealMatrix k k),
      after.Sized k l ∧ changed.IsSymm ∧
      Uniform residuals jacobian (tryStep >>= iterate.conclude) core matrix ending after
        changed := by
  obtain ⟨diagonal, plain⟩ := exists_ofFn sized.plainDiagonal
  obtain ⟨gradient, gradient_eq⟩ := exists_ofFn sized.gradient
  obtain ⟨scaling, scaled, unscaled⟩ : ∃ scaling : Fin k → ℝ,
      (core.settings.rescaling = true → core.scaling = List.ofFn scaling) ∧
        (core.settings.rescaling = false → scaling = 1) := by
    cases core.settings.rescaling with
    | true =>
        obtain ⟨scaling, scaling_eq⟩ := exists_ofFn sized.scaling
        exact ⟨scaling, fun _ => scaling_eq, nofun⟩
    | false => exact ⟨1, nofun, fun _ => rfl⟩
  obtain ⟨damped, damped_eq⟩ : ∃ damped, damped = withDiagonal matrix fun index =>
      dampedEntry core.settings core.damping (diagonal index) := ⟨_, rfl⟩
  have symmetric' : damped.IsSymm := damped_eq ▸ withDiagonal_isSymm symmetric _
  obtain ⟨step, step_eq⟩ : ∃ step, step = -(damped⁻¹ *ᵥ gradient) := ⟨_, rfl⟩
  have room : (core.plainDiagonal.map (dampedEntry core.settings core.damping)).length = k := by
    rw [List.length_map, sized.plainDiagonal]
  have cases (holding : Holding) {normal : NormalMatrix ℝ} (trace : List (Event ℝ))
      (layout : normal.layout? = some holding.layout) (represents : normal.Represents matrix) :=
    @tryStep_cases σ k l
      (core.arranged residuals (holding.arrangement jacobian normal) trace) matrix _
      { sized with x := sized.x } represents symmetric
      (Option.isSome_iff_exists.mpr ⟨_, layout⟩) diagonal gradient scaling plain gradient_eq
      scaled unscaled damped damped_eq step step_eq
  -- the matrix alone decides, before any layout is looked at
  by_cases definite : damped.PosDef
  · obtain ⟨ending, after, sized', uniform⟩ := uniform_of_run_eq core
      { core with
        step := List.ofFn (step / scaling)
        dampedDiagonal := core.plainDiagonal.map (dampedEntry core.settings core.damping) }
      { sized with step := List.length_ofFn, dampedDiagonal := room }
      (blind_consider (-(gradient ⬝ᵥ step) - 1 / 2 * (step ⬝ᵥ damped *ᵥ step)))
      (fun _ sized => consider_sized sized _) fun holding normal trace _ layout represents => by
        obtain ⟨normal', trace', represents', layout', ⟨_, ran⟩ | ⟨indefinite, _⟩⟩ :=
          cases holding trace layout (represents phase)
        · exact ⟨normal', trace', represents', layout'.trans layout, ran⟩
        · exact (indefinite definite).elim
    exact ⟨ending, after, damped, sized', symmetric', uniform⟩
  · obtain ⟨ending, after, sized', uniform⟩ := uniform_of_run_eq core
      { core with
        dampedDiagonal := core.plainDiagonal.map (dampedEntry core.settings core.damping) }
      { sized with dampedDiagonal := room } blind_recoverFromFailure
      (fun _ sized => recoverFromFailure_sized sized)
      fun holding normal trace _ layout represents => by
        obtain ⟨normal', trace', represents', layout', ⟨definite', _⟩ | ⟨_, ran⟩⟩ :=
          cases holding trace layout (represents phase)
        · exact (definite definite').elim
        · exact ⟨normal', trace', represents', layout'.trans layout, ran⟩
    exact ⟨ending, after, damped, sized', symmetric', uniform⟩

end Trials

/-! ## Computing derivatives -/

theorem blind_gather (matrix : RealMatrix l k) : Blind residuals (gather matrix) :=
  blind_bind blind_lossResiduals fun _ => blind_bind (blind_attempt _) fun _ =>
    blind_modify fun _ _ _ => rfl

theorem gather_sized (matrix : RealMatrix l k) (solver : Solver σ ℝ) (sized : solver.Sized k l) :
    Leaves (gather matrix) solver (·.Sized k l) := by
  obtain ⟨fault, ran⟩ | ⟨slopes, lossGradient, room, _, ran⟩ :=
    gather_cases solver matrix sized.residuals sized.lossGradient
  · exact ensures_of_error ran sized
  · exact ensures_of_ok ran { sized with gradient := List.length_ofFn, lossGradient := room }

theorem prepareSearch_uniform {core : Solver σ ℝ} (sized : core.Sized k l)
    {matrix : RealMatrix k k} (symmetric : matrix.IsSymm) :
    ∃ (ending : Except (Fault ℝ) Bool) (after : Solver σ ℝ) (changed : RealMatrix k k),
      after.Sized k l ∧ changed.IsSymm ∧
      ∀ (holding : Holding) (normal : NormalMatrix ℝ) (trace : List (Event ℝ)),
        normal.layout? = some holding.layout → normal.Represents matrix →
        ∃ normal' : NormalMatrix ℝ, normal'.Represents changed ∧
          normal'.layout? = some holding.layout ∧
          (prepareSearch >>= iterate.conclude : Action σ ℝ Bool).run
              (core.arranged residuals (holding.arrangement jacobian normal) trace) =
            (ending, after.arranged residuals (holding.arrangement jacobian normal') trace) := by
  obtain ⟨gradient, gradient_eq⟩ := exists_ofFn sized.gradient
  have ends (holding : Holding) {normal : NormalMatrix ℝ} (trace : List (Event ℝ))
      (represents : normal.Represents matrix) :=
    @prepareSearch_run σ k l
      (core.arranged residuals (holding.arrangement jacobian normal) trace) matrix
      { sized with x := sized.x } represents gradient gradient_eq _ rfl
  cases vanishes : core.gradientVanishes core.gradient with
  | true =>
      refine ⟨.ok true, { core with phase := .converged }, matrix, { sized with x := sized.x },
        symmetric, fun holding normal trace layout represents => ?_⟩
      exact ⟨normal, represents, layout, run_bind_ok ((ends holding trace represents).1 vanishes)⟩
  | false =>
      have room : (if core.settings.rescaling then List.ofFn (scales core.settings matrix)
          else core.scaling).length = k := by
        split
        · exact List.length_ofFn
        · exact sized.scaling
      refine ⟨.ok false, { core with
        scaling := if core.settings.rescaling then List.ofFn (scales core.settings matrix)
          else core.scaling
        gradient := List.ofFn (gradient / scales core.settings matrix)
        plainDiagonal := List.ofFn fun index =>
          divided matrix (scales core.settings matrix) index index
        phase := .search }, divided matrix (scales core.settings matrix),
        { sized with
          gradient := List.length_ofFn, scaling := room, plainDiagonal := List.length_ofFn },
        divided_isSymm symmetric _, fun holding normal trace layout represents => ?_⟩
      obtain ⟨normal', represents', layout', ran⟩ := (ends holding trace represents).2 vanishes
      exact ⟨normal', represents', layout'.trans layout, run_bind_ok ran⟩

theorem gather_uniform (core : Solver σ ℝ) {middle : Solver σ ℝ} (sized : middle.Sized k l)
    (matrix : RealMatrix k k) (found : RealMatrix l k) {start : Action σ ℝ Bool}
    (derives : ∀ (holding : Holding) (normal : NormalMatrix ℝ) (trace : List (Event ℝ)),
      holding.Fits k → normal.layout? = some holding.layout →
      ∃ changed : NormalMatrix ℝ, changed.Represents (foundᵀ * found) ∧
        changed.layout? = some holding.layout ∧
        start.run (core.arranged residuals (holding.arrangement jacobian normal) trace) =
          (gather found >>= fun _ => prepareSearch).run
            (middle.arranged residuals (holding.arrangement jacobian changed) trace)) :
    ∃ (ending : Except (Fault ℝ) Bool) (after : Solver σ ℝ) (changed : RealMatrix k k),
      after.Sized k l ∧ changed.IsSymm ∧
      Uniform residuals jacobian (start >>= iterate.conclude) core matrix ending after changed := by
  obtain ⟨ending, gathered, sized', gathers⟩ :=
    blind_sized (blind_gather found) (gather_sized found) sized
  cases ending with
  | error fault =>
      refine ⟨.error fault, gathered, foundᵀ * found, sized', gram_isSymm found, ?_⟩
      intro holding solver fits realized
      obtain ⟨normal, trace, rfl, layout, _⟩ := realized
      obtain ⟨changed, product, layout', same⟩ := derives holding normal trace fits layout
      obtain ⟨trace', ran⟩ := gathers (holding.arrangement jacobian changed) trace
      rw [run_bind_error (same.trans (run_bind_error ran))]
      exact ⟨.refl _, changed, trace', rfl, layout', fun _ => product⟩
  | ok _ =>
      obtain ⟨ending, after, matrix', sized'', symmetric, prepares⟩ :=
        @prepareSearch_uniform σ k l residuals jacobian gathered sized' _ (gram_isSymm found)
      refine ⟨ending, after, matrix', sized'', symmetric, ?_⟩
      intro holding solver fits realized
      obtain ⟨normal, trace, rfl, layout, _⟩ := realized
      obtain ⟨changed, product, layout', same⟩ := derives holding normal trace fits layout
      obtain ⟨trace', ran⟩ := gathers (holding.arrangement jacobian changed) trace
      obtain ⟨normal', represents, layout'', ran'⟩ :=
        prepares holding changed trace' layout' product
      rw [run_bind_congr (same.trans (run_bind_ok ran)), ran']
      exact ⟨.refl _, normal', trace', rfl, layout'', fun _ => represents⟩

theorem updateDerivatives_uniform {core : Solver σ ℝ} (sized : core.Sized k l)
    (phase : core.phase = .differentiate)
    (wide : ∀ x before answer after, (jacobian x).run before = (.ok answer, after) →
      answer.width = k) (matrix : RealMatrix k k) :
    ∃ (ending : Except (Fault ℝ) Bool) (after : Solver σ ℝ) (changed : RealMatrix k k),
      after.Sized k l ∧ changed.IsSymm ∧
      Uniform residuals jacobian (updateDerivatives >>= iterate.conclude) core matrix ending after
        changed := by
  have started (holding : Holding) (normal : NormalMatrix ℝ) (trace : List (Event ℝ)) :=
    updateDerivatives_run
      (core.arranged residuals (holding.arrangement jacobian normal) trace) holding.form_defined rfl
  rcases answered : (jacobian core.x).run core.world with ⟨ending, world⟩
  have asked (holding : Holding) (normal : NormalMatrix ℝ) (trace : List (Event ℝ)) :
      (evaluate (holding.jacobian jacobian core.x)).run
          (core.arranged residuals (holding.arrangement jacobian normal) trace) =
        (ending.map holding.handed, arranged { core with world := world } residuals
          (holding.arrangement jacobian normal) trace) :=
    holding.evaluate_jacobian answered
  have sized : Sized { core with world := world } k l := { sized with x := sized.x }
  cases ending with
  | error fault =>
      refine ⟨.error fault, { core with world := world }, 0, sized, Matrix.isSymm_zero, ?_⟩
      intro holding solver fits realized
      obtain ⟨normal, trace, rfl, layout, represents⟩ := realized
      have ran := (started holding normal trace).trans (run_bind_error (asked holding normal trace))
      rw [run_bind_error ran]
      exact ⟨.refl _, normal, trace, rfl, layout,
        fun searching => nomatch phase.symm.trans searching⟩
  | ok answer =>
      have width := wide _ _ _ _ answered
      by_cases height : answer.height = l
      · obtain ⟨found, rfl⟩ : ∃ found : RealMatrix l k, answer = DenseMatrix.ofMatrix found :=
          ⟨_, DenseMatrix.eq_ofMatrix height width⟩
        refine gather_uniform core sized matrix found fun holding normal trace fits layout => ?_
        obtain ⟨changed, product, layout', ran⟩ := @Holding.derive_handed σ k l
          (arranged { core with world := world } residuals
            (holding.arrangement jacobian normal) trace) holding
          { sized with x := sized.x } layout fits found
        exact ⟨changed, product, layout', (started holding normal trace).trans
          ((run_bind_ok (asked holding normal trace)).trans (run_bind_congr ran))⟩
      -- a Jacobian of another height is refused in every layout, before anything is held
      · obtain ⟨rows, found, wrong, rfl⟩ : ∃ (rows : Nat) (found : RealMatrix rows k),
            rows ≠ l ∧ answer = DenseMatrix.ofMatrix found :=
          ⟨_, _, height, DenseMatrix.eq_ofMatrix rfl width⟩
        refine ⟨.error (.refused (.jacobianShape [] [])), { core with world := world }, 0, sized,
          Matrix.isSymm_zero, ?_⟩
        intro holding solver fits realized
        obtain ⟨normal, trace, rfl, layout, represents⟩ := realized
        have ran := @Holding.derive_refused σ k l
          (arranged { core with world := world } residuals
            (holding.arrangement jacobian normal) trace) holding
          { sized with x := sized.x } fits rows wrong found
        have total := (started holding normal trace).trans
          ((run_bind_ok (asked holding normal trace)).trans (run_bind_error ran))
        rw [run_bind_error total]
        exact ⟨.inr ⟨⟨_, _, rfl⟩, _, _, rfl⟩, normal, trace, rfl, layout,
          fun searching => nomatch phase.symm.trans searching⟩

/-! ## Runs -/

variable [Spectral ℝ]

theorem iterate_uniform {core : Solver σ ℝ} (sized : core.Sized k l)
    (wide : ∀ x before answer after, (jacobian x).run before = (.ok answer, after) →
      answer.width = k) {matrix : RealMatrix k k} (symmetric : matrix.IsSymm) :
    ∃ (ending : Except (Fault ℝ) Bool) (after : Solver σ ℝ) (changed : RealMatrix k k),
      after.Sized k l ∧ changed.IsSymm ∧
      Uniform residuals jacobian iterate core matrix ending after changed := by
  have counted (full retries : Nat) :
      Sized { core with updated := false, fullSteps := full, retries := retries } k l :=
    { sized with x := sized.x }
  cases phase : core.phase with
  | differentiate =>
      obtain ⟨ending, after, changed, sized', symmetric', uniform⟩ :=
        @updateDerivatives_uniform σ k l residuals jacobian _
          (counted (core.fullSteps + 1) core.retries) phase wide matrix
      refine ⟨ending, after, changed, sized', symmetric', ?_⟩
      intro holding solver fits realized
      obtain ⟨normal, trace, rfl, layout, represents⟩ := realized
      have same := @iterate_run_differentiate σ ℝ _ _
        (core.arranged residuals (holding.arrangement jacobian normal) trace) phase
      rw [same]
      exact uniform holding _ fits ⟨normal, trace, rfl, layout, represents⟩
  | search =>
      obtain ⟨ending, after, changed, sized', symmetric', uniform⟩ :=
        @tryStep_uniform σ k l residuals jacobian _ _
          (counted core.fullSteps (core.retries + 1)) phase _ symmetric
      refine ⟨ending, after, changed, sized', symmetric', ?_⟩
      intro holding solver fits realized
      obtain ⟨normal, trace, rfl, layout, represents⟩ := realized
      have same := @iterate_run_search σ ℝ _ _
        (core.arranged residuals (holding.arrangement jacobian normal) trace) phase
      rw [same]
      exact uniform holding _ fits ⟨normal, trace, rfl, layout, represents⟩
  | converged =>
      refine ⟨.ok true, { core with updated := false }, matrix, { sized with x := sized.x },
        symmetric, ?_⟩
      intro holding solver fits realized
      obtain ⟨normal, trace, rfl, layout, represents⟩ := realized
      have same := @iterate_run_converged σ ℝ _ _
        (core.arranged residuals (holding.arrangement jacobian normal) trace) phase
      rw [same]
      exact ⟨.refl _, normal, trace, rfl, layout, represents⟩

theorem afterCalls_uniform {core : Solver σ ℝ} (sized : core.Sized k l)
    (wide : ∀ x before answer after, (jacobian x).run before = (.ok answer, after) →
      answer.width = k) {matrix : RealMatrix k k} (symmetric : matrix.IsSymm) (count : Nat) :
    ∃ (after : Solver σ ℝ) (changed : RealMatrix k k), after.Sized k l ∧ changed.IsSymm ∧
      ∀ (holding : Holding) (solver : Solver σ ℝ), holding.Fits k →
        Realizes residuals jacobian holding core matrix solver →
        Realizes residuals jacobian holding after changed (solver.afterCalls count) := by
  induction count with
  | zero => exact ⟨core, matrix, sized, symmetric, fun _ _ _ realized => realized⟩
  | succ count previous =>
      obtain ⟨middle, matrix', sized', symmetric', realizes⟩ := previous
      obtain ⟨ending, after, changed, sized'', symmetric'', uniform⟩ :=
        iterate_uniform sized' wide symmetric'
      refine ⟨after, changed, sized'', symmetric'', fun holding solver fits realized => ?_⟩
      exact (uniform holding _ fits (realizes holding solver fits realized)).2

omit [Spectral ℝ] in
theorem start_uniform (core : Solver σ ℝ) (point : Vec ℝ) (cost? gradient? : Option ℝ) :
    ∃ (ending : Except (Fault ℝ) Unit) (after : Solver σ ℝ),
      ∀ (holding : Holding) (normal : NormalMatrix ℝ) (trace : List (Event ℝ)),
        normal.layout? = some holding.layout →
        ∃ (normal' : NormalMatrix ℝ) (trace' : List (Event ℝ)),
          normal'.layout? = some holding.layout ∧
          (start point cost? gradient?).run
              (core.arranged residuals (holding.arrangement jacobian normal) trace) =
            (ending, after.arranged residuals (holding.arrangement jacobian normal') trace') := by
  obtain ⟨ending, middle, adopts⟩ := @blind_adoptTolerances σ ℝ _ residuals cost? gradient? core
  cases ending with
  | error fault =>
      refine ⟨.error fault, middle, fun holding normal trace layout => ?_⟩
      obtain ⟨trace', ran⟩ := adopts (holding.arrangement jacobian normal) trace
      refine ⟨normal, trace', layout, ?_⟩
      rw [start_arranged, run_bind_error ran]
  | ok _ =>
      obtain ⟨ending, after, settles⟩ := @blind_settleStart σ ℝ _ residuals
        ((resetParameters point).run middle).2
      refine ⟨ending, after, fun holding normal trace layout => ?_⟩
      obtain ⟨trace', ran⟩ := adopts (holding.arrangement jacobian normal) trace
      obtain ⟨trace'', ran'⟩ :=
        settles (holding.arrangement jacobian (normal.reset point.length)) trace'
      refine ⟨normal.reset point.length, trace'', (reset_layout? _ _).trans layout, ?_⟩
      rw [start_arranged, run_bind_ok ran]
      exact (run_bind_ok rfl).trans ran'

/-- The state that two searches show to their callers is the same, and the next call ends the
same. -/
structure Agree (first second : Solver σ ℝ) : Prop where
  x : first.x = second.x
  cost : first.cost = second.cost
  residuals : first.residuals = second.residuals
  step : first.step = second.step
  gradient : first.gradient = second.gradient
  damping : first.damping = second.damping
  growth : first.growth = second.growth
  phase : first.phase = second.phase
  updated : first.updated = second.updated
  fullSteps : first.fullSteps = second.fullSteps
  retries : first.retries = second.retries
  returns : ∀ converged, first.answer = .ok converged ↔ second.answer = .ok converged
  breaks : ∀ reason,
    first.answer = .error (.breakdown reason) ↔ second.answer = .error (.breakdown reason)

theorem Realizes.agree {core : Solver σ ℝ} (sized : core.Sized k l)
    (wide : ∀ x before answer after, (jacobian x).run before = (.ok answer, after) →
      answer.width = k) {matrix : RealMatrix k k} (symmetric : matrix.IsSymm)
    {holding holding' : Holding} (fits : holding.Fits k) (fits' : holding'.Fits k)
    {first second : Solver σ ℝ}
    (realized : Realizes residuals jacobian holding core matrix first)
    (realized' : Realizes residuals jacobian holding' core matrix second) :
    Agree first second := by
  obtain ⟨ending, after, changed, _, _, uniform⟩ := @iterate_uniform σ k l residuals jacobian _ _
    sized wide _ symmetric
  have alike : EndsAlike first.answer second.answer :=
    (uniform holding first fits realized).1.both (uniform holding' second fits' realized').1
  obtain ⟨normal, trace, rfl, _⟩ := realized
  obtain ⟨normal', trace', rfl, _⟩ := realized'
  refine ⟨rfl, rfl, rfl, rfl, rfl, rfl, rfl, rfl, rfl, rfl, rfl, fun converged => ?_,
    fun reason => ?_⟩
  · obtain same | ⟨⟨_, _, first⟩, _, _, second⟩ := alike
    · rw [same]
    · rw [first, second]
      exact ⟨nofun, nofun⟩
  · obtain same | ⟨⟨_, _, first⟩, _, _, second⟩ := alike
    · rw [same]
    · rw [first, second]
      exact ⟨nofun, nofun⟩

/-- Whatever the layout and wherever the columns are cut, searches for the same functions start
alike, and they agree after every number of calls. -/
theorem layouts_agree {settings : Settings ℝ} (valid : settings.check = .ok ()) (loss : Loss σ ℝ)
    (residuals : Vec ℝ → Call σ ℝ (Tensor ℝ)) (jacobian : Vec ℝ → Call σ ℝ (DenseMatrix ℝ))
    (world : σ) (point : Vec ℝ) (cost? gradient? : Option ℝ)
    (wide : ∀ x before answer after, (jacobian x).run before = (.ok answer, after) →
      answer.width = point.length) (holding holding' : Holding)
    (fits : holding.Fits point.length) (fits' : holding'.Fits point.length) :
    ∃ idle idle' : Solver σ ℝ,
      holding.search settings loss residuals jacobian world = .ok idle ∧
      holding'.search settings loss residuals jacobian world = .ok idle' ∧
      ((start point cost? gradient?).run idle).1 = ((start point cost? gradient?).run idle').1 ∧
      (((start point cost? gradient?).run idle).1 = .ok () → ∀ count,
        Agree (((start point cost? gradient?).run idle).2.afterCalls count)
          (((start point cost? gradient?).run idle').2.afterCalls count)) := by
  obtain ⟨core, _, _, searches⟩ := Holding.search_eq valid loss world
  obtain ⟨normal, layout, built⟩ := searches holding residuals jacobian
  obtain ⟨normal', layout', built'⟩ := searches holding' residuals jacobian
  refine ⟨_, _, built, built', ?_⟩
  obtain ⟨ending, after, starts⟩ :=
    @start_uniform σ residuals jacobian core point cost? gradient?
  obtain ⟨reset, trace, layout, ran⟩ := starts holding normal core.trace layout
  obtain ⟨reset', trace', layout', ran'⟩ := starts holding' normal' core.trace layout'
  rw [ran, ran']
  refine ⟨rfl, fun success count => ?_⟩
  cases success
  have started := (start_ensures _ point cost? gradient?).of_run_ok ran
  have phase : after.phase = .differentiate := started.phase
  have sized : after.Sized point.length after.residuals.length :=
    { started.sized with x := started.sized.x }
  obtain ⟨core, matrix, sized, symmetric, realizes⟩ :=
    @afterCalls_uniform σ _ _ residuals jacobian _ after sized wide 0 Matrix.isSymm_zero count
  exact Realizes.agree sized wide symmetric fits fits'
    (realizes holding _ fits ⟨reset, trace, rfl, layout, fun searching =>
      nomatch phase.symm.trans searching⟩)
    (realizes holding' _ fits' ⟨reset', trace', rfl, layout', fun searching =>
      nomatch phase.symm.trans searching⟩)

/-! ## A search in two layouts -/

/-- Two columns that overlap. -/
noncomputable def slantedMatrix : RealMatrix 2 2 := !![1, 1; 0, 1]

noncomputable def slantedResiduals (x : Vec ℝ) : Call Unit ℝ (Tensor ℝ) :=
  pure (.vector (linearResiduals slantedMatrix 0 x))

noncomputable def slantedJacobian (_ : Vec ℝ) : Call Unit ℝ (DenseMatrix ℝ) :=
  pure (DenseMatrix.ofMatrix slantedMatrix)

omit [Spectral ℝ] in
theorem slanted_linear {holding : Holding} (fits : holding.Fits 2) :
    Problem.Linear ⟨slantedResiduals, holding.jacobian slantedJacobian⟩ holding.form slantedMatrix
      (0 : Fin 2 → ℝ) where
  residuals x before := by
    refine ⟨_, before, rfl, ?_⟩
    exact linearResiduals_ofFn slantedMatrix 0 x
  jacobian x before := ⟨_, before, rfl, Holding.represents_handed fits slantedMatrix⟩

omit [Spectral ℝ] in
theorem slanted_hands {holding : Holding} (fits : holding.Fits 2) {idle started : Solver Unit ℝ}
    (built : holding.search Settings.standard Loss.squared slantedResiduals slantedJacobian () =
      .ok idle)
    (ready : Started idle started (List.ofFn (1 : Fin 2 → ℝ))) : started.Hands slantedMatrix := by
  obtain ⟨form, given, _, _, layout⟩ := Holding.of_search standard_valid built
  refine ⟨_, _, _, ready.problem.trans given, rfl, ?_, ?_⟩
  · rw [ready.form, form]
    exact Holding.represents_handed fits slantedMatrix
  · rw [ready.form, form]
    refine Holding.admits_handed ?_ _
    rw [ready.normal, reset_layout?, layout]

/-- Whatever the layout, the second call after a start at ones computes a step. -/
theorem slanted_computes {holding : Holding} (fits : holding.Fits 2) {idle started : Solver Unit ℝ}
    (built : holding.search Settings.standard Loss.squared slantedResiduals slantedJacobian () =
      .ok idle)
    (success : (start (List.ofFn (1 : Fin 2 → ℝ)) none none).run idle = (.ok (), started)) :
    (started.afterCalls 1).ComputesStep := by
  obtain ⟨form, given, settings, loss, layout⟩ := Holding.of_search standard_valid built
  have linear := slanted_linear fits
  rw [← form] at linear
  have aligned := aligned_of_start success given linear
    (Option.isSome_iff_exists.mpr ⟨_, layout⟩) (loss ▸ rfl)
  obtain ⟨ready, _, _, _, adopted⟩ := (start_leaves _ _ _ _).of_run_ok success
  have settings : started.settings = Settings.standard := by
    rw [adopted, settings]
    rfl
  have steep : started.settings.gradientTolerance <
      |(slantedMatrixᵀ *ᵥ (slantedMatrix *ᵥ 1 - 0)) 0| := by
    rw [settings]
    change (1.0e-8 : ℝ) < _
    norm_num [slantedMatrix, Matrix.mulVec, dotProduct, Fin.sum_univ_two]
  have phase : (started.afterCalls 1).phase = .search := next_searches aligned.supplied.sized
    ready.phase (slanted_hands fits built ready) (aligned.slopes ready.x) ⟨0, steep⟩
  have settings' := (afterCalls_configured started 1).2.1.trans settings
  refine (aligned.afterCalls linear 1).computesStep linear phase ?_ ?_ ?_
  · change 0 < started.next.damping
    rw [(next_of_differentiate ready.phase).1, ready.damping, settings]
    change (0 : ℝ) < 1.0e-3
    norm_num
  · rw [settings']
    change (0 : ℝ) < 1.0e-6
    norm_num
  · rw [aligned.plainDiagonal_eq linear (settings ▸ rfl) phase, List.forall_mem_ofFn_iff, settings']
    intro index
    change _ ≤ (1.0e32 : ℝ)
    unfold slantedMatrix
    fin_cases index <;> norm_num [Matrix.mul_apply, Fin.sum_univ_two]

omit [Spectral ℝ] in
/-- Two parameters in one piece, and in two blocks of one parameter each. -/
theorem layouts_agree_from_ones : ∃ (_ : Spectral ℝ) (idle idle' : Solver Unit ℝ),
    Holding.search .dense Settings.standard Loss.squared slantedResiduals slantedJacobian () =
      .ok idle ∧
    Holding.search (.blocks 1 true false) Settings.standard Loss.squared slantedResiduals
      slantedJacobian () = .ok idle' ∧
    ∃ started started' : Solver Unit ℝ,
      (start (List.ofFn (1 : Fin 2 → ℝ)) none none).run idle = (.ok (), started) ∧
      (start (List.ofFn (1 : Fin 2 → ℝ)) none none).run idle' = (.ok (), started') ∧
      (started'.afterCalls 1).ComputesStep ∧
      ∀ count, Agree (started.afterCalls count) (started'.afterCalls count) := by
  let spectral : Spectral ℝ := ⟨fun _ => []⟩
  have wide (x : Vec ℝ) (before : Unit) (answer : DenseMatrix ℝ) (after : Unit)
      (ran : (slantedJacobian x).run before = (.ok answer, after)) :
      answer.width = (List.ofFn (1 : Fin 2 → ℝ)).length := by
    cases ran
    rfl
  have fits : (Holding.blocks 1 true false).Fits 2 := ⟨le_rfl, one_le_two⟩
  obtain ⟨idle, idle', built, built', same, agree⟩ := layouts_agree standard_valid Loss.squared
    slantedResiduals slantedJacobian () (List.ofFn (1 : Fin 2 → ℝ)) none none wide .dense
    (.blocks 1 true false) trivial ⟨le_rfl, one_le_two⟩
  obtain ⟨form, given, settings, loss, _⟩ := Holding.of_search standard_valid built
  have valid : (idle.settings.adopting none none).check = .ok () := settings ▸ standard_valid
  have linear := @slanted_linear .dense trivial
  rw [← form] at linear
  obtain ⟨started, success⟩ := start_linear valid given linear (loss ▸ rfl)
  rw [success] at same agree
  obtain ⟨started', success'⟩ : ∃ started',
      (start (List.ofFn (1 : Fin 2 → ℝ)) none none).run idle' = (.ok (), started') :=
    ⟨((start (List.ofFn (1 : Fin 2 → ℝ)) none none).run idle').2, Prod.ext same.symm rfl⟩
  rw [success'] at agree
  exact ⟨spectral, idle, idle', built, built', started, started', success, success',
    slanted_computes fits built' success', agree rfl⟩

end Solver

end DampedLeastSquares
