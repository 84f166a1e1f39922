import Mathlib
import DampedLeastSquares.Proofs.Exact.Holding
import DampedLeastSquares.Proofs.Exact.Units
import DampedLeastSquares.Proofs.LinearResiduals
import DampedLeastSquares.Proofs.Lockstep

/-!
# Runs in other units

A search that damps in proportion to the diagonal does not notice in which units
its parameters are measured. With a function given in other units, and with a
Jacobian to match, it stays in lock step with the search before: normal matrix,
gradient and step are converted, what is made of them is the same.
-/

set_option autoImplicit false

open scoped Matrix

namespace DampedLeastSquares

open Exact NormalMatrix

/-! ## Functions in other units -/

/-- The parameters, given how many there are of each unit. -/
noncomputable def Vec.times (units counts : Vec ℝ) : Vec ℝ := List.zipWith (· * ·) units counts

/-- How many there are of each unit. -/
noncomputable def Vec.over (parameters units : Vec ℝ) : Vec ℝ :=
  List.zipWith (· / ·) parameters units

noncomputable def DenseMatrix.timesColumns (matrix : DenseMatrix ℝ) (units : Vec ℝ) :
    DenseMatrix ℝ :=
  .ofFn matrix.height matrix.width fun row column => matrix.entry row column * units.getD column 0

variable {σ : Type} {k l : Nat}

noncomputable def residualsIn (units : Vec ℝ) (residuals : Vec ℝ → Call σ ℝ (Tensor ℝ))
    (counts : Vec ℝ) : Call σ ℝ (Tensor ℝ) :=
  residuals (Vec.times units counts)

/-- The Jacobian of the residuals in other units. -/
noncomputable def jacobianIn (units : Vec ℝ) (jacobian : Vec ℝ → Call σ ℝ (DenseMatrix ℝ))
    (counts : Vec ℝ) : Call σ ℝ (DenseMatrix ℝ) := do
  return (← jacobian (Vec.times units counts)).timesColumns units

theorem Vec.times_ofFn (units counts : Fin k → ℝ) :
    Vec.times (List.ofFn units) (List.ofFn counts) = List.ofFn (units * counts) := by
  apply List.ext_getElem <;> simp [Vec.times]

theorem Vec.over_ofFn (parameters units : Fin k → ℝ) :
    Vec.over (List.ofFn parameters) (List.ofFn units) = List.ofFn (parameters / units) := by
  apply List.ext_getElem <;> simp [Vec.over]

theorem timesColumns_ofMatrix (jacobian : RealMatrix l k) {units : Fin k → ℝ}
    (nonzero : ∀ index, units index ≠ 0) :
    ∃ scaled : RealMatrix l k, jacobian = inUnits scaled units ∧
      (DenseMatrix.ofMatrix jacobian).timesColumns (List.ofFn units) =
        DenseMatrix.ofMatrix scaled := by
  refine ⟨fun row column => jacobian row column * units column, ?_, ?_⟩
  · funext row column
    exact (mul_div_cancel_right₀ _ (nonzero column)).symm
  · unfold DenseMatrix.timesColumns
    rw [DenseMatrix.height_ofMatrix, DenseMatrix.width_ofMatrix, DenseMatrix.ofFn_eq_ofMatrix]
    congr 1
    funext row column
    simp [List.getD]

theorem Loss.respects_eq (loss : Loss σ ℝ) : loss.Respects Eq := by
  unfold Respects
  split
  · intro residuals weights before before' same
    subst same
    exact ⟨rfl, rfl⟩
  · trivial

/-- The same functions, in units and before. -/
noncomputable def unitsPairing (holding : Holding) (units : Fin k → ℝ)
    (residuals : Vec ℝ → Call σ ℝ (Tensor ℝ)) (jacobian : Vec ℝ → Call σ ℝ (DenseMatrix ℝ)) :
    Pairing σ ℝ where
  world := Eq
  point counts x := ∃ values : Fin k → ℝ,
    counts = List.ofFn values ∧ x = List.ofFn (units * values)
  problem := ⟨residualsIn (List.ofFn units) residuals,
    holding.jacobian (jacobianIn (List.ofFn units) jacobian)⟩
  problem' := ⟨residuals, holding.jacobian jacobian⟩
  residuals points := by
    obtain ⟨values, rfl, rfl⟩ := points
    intro before before' same
    subst same
    simp only [residualsIn, Vec.times_ofFn, and_self]
  length points := by
    obtain ⟨values, rfl, rfl⟩ := points
    simp
  zeros points := by
    obtain ⟨values, rfl, rfl⟩ := points
    refine ⟨0, ?_, ?_⟩
    · rw [List.length_ofFn, Vec.zeros_eq]
    · rw [List.length_ofFn, Vec.zeros_eq, mul_zero]
  further points points' := by
    obtain ⟨values, rfl, rfl⟩ := points
    obtain ⟨values', rfl, rfl⟩ := points'
    rw [combine?_ofFn, combine?_ofFn]
    refine .some ⟨values + values', rfl, ?_⟩
    rw [mul_add]
    rfl

/-! ## Derivatives in other units -/

/-- The normal matrix has the layout and the entries that it should have, and the gradient its
entries. -/
structure Derivatives.Known (known : Derivatives ℝ) (holding : Holding) (matrix : RealMatrix k k)
    (gradient : Fin k → ℝ) : Prop where
  layout : known.normal.layout? = some holding.layout
  normal : known.normal.Represents matrix
  gradient : known.gradient = List.ofFn gradient

/-- Both normal matrices have the layout of one solver. -/
structure Derivatives.Held (holding : Holding) (first second : Derivatives ℝ) : Prop where
  layout : first.normal.layout? = some holding.layout
  layout' : second.normal.layout? = some holding.layout

/-- Derivatives of the same function, in units and before. -/
structure Derivatives.Formed (holding : Holding) (units : Fin k → ℝ) (gram : RealMatrix k k)
    (gradient : Fin k → ℝ) (first second : Derivatives ℝ) : Prop where
  symmetric : gram.IsSymm
  nonnegative : ∀ index, 0 ≤ gram index index
  known : first.Known holding gram gradient
  known' : second.Known holding (divided gram units) (gradient / units)

/-- Both diagonals may have been overwritten since, but they are kept aside. -/
structure Derivatives.Overwritten (holding : Holding) (units : Fin k → ℝ) (gram : RealMatrix k k)
    (gradient : Fin k → ℝ) (first second : Derivatives ℝ) : Prop where
  symmetric : gram.IsSymm
  nonnegative : ∀ index, 0 ≤ gram index index
  steep : gradient ≠ 0
  known : ∃ entries, first.Known holding (withDiagonal gram entries) gradient
  known' : ∃ entries,
    second.Known holding (withDiagonal (divided gram units) entries) (gradient / units)
  plain : first.plainDiagonal = List.ofFn fun index => gram index index
  plain' : second.plainDiagonal = List.ofFn fun index => divided gram units index index

/-- Derivatives with which a step is looked for, in units and before. -/
def Derivatives.Rescaled (holding : Holding) (units : Fin k → ℝ) (first second : Derivatives ℝ) :
    Prop :=
  ∃ gram gradient, first.Overwritten holding units gram gradient second

/-- Damping in proportion to the diagonal alone, in units that are not adapted, until the
gradient is zero. -/
structure Settings.Marquardt (settings : Settings ℝ) : Prop where
  mixture : settings.mixture = 0
  plain : settings.rescaling = false
  gradientTolerance : settings.gradientTolerance = 0

theorem Derivatives.Rescaled.held {holding : Holding} {units : Fin k → ℝ}
    {first second : Derivatives ℝ} (rescaled : first.Rescaled holding units second) :
    first.Held holding second := by
  obtain ⟨_, _, kept⟩ := rescaled
  obtain ⟨_, known⟩ := kept.known
  obtain ⟨_, known'⟩ := kept.known'
  exact ⟨known.layout, known'.layout⟩

theorem Derivatives.Rescaled.steep {holding : Holding} {units : Fin k → ℝ} :
    Solver.Steep (Derivatives.Rescaled holding units) := by
  rintro known known' ⟨gram, gradient, kept⟩
  have parameters : k ≠ 0 := by
    rintro rfl
    exact kept.steep (Subsingleton.elim _ _)
  obtain ⟨_, slope⟩ := kept.known
  obtain ⟨_, slope'⟩ := kept.known'
  rw [slope.gradient, slope'.gradient]
  exact ⟨by simpa using parameters, by simpa using parameters⟩

namespace Solver

variable {residuals : Vec ℝ → Call σ ℝ (Tensor ℝ)} {jacobian : Vec ℝ → Call σ ℝ (DenseMatrix ℝ)}
  {holding : Holding} {units : Fin k → ℝ} {gram : RealMatrix k k} {gradient : Fin k → ℝ}
  {first second : Solver σ ℝ}

/-- A search in the form of one solver, with buffers of the right sizes. -/
structure Fitted (solver : Solver σ ℝ) (holding : Holding) (parameters functions : Nat) :
    Prop where
  form : solver.form = holding.form
  sized : solver.Sized parameters functions
  marquardt : solver.settings.Marquardt

/-- No entry that was kept aside lies outside its interval. -/
def Unclamped (solver : Solver σ ℝ) : Prop :=
  ∀ entry ∈ solver.plainDiagonal,
    solver.settings.diagonalMin ≤ entry ∧ entry ≤ solver.settings.diagonalMax

/-- In lock step, each search on the functions in its own units. -/
abbrev InUnits (holding : Holding) (units : Fin k → ℝ)
    (residuals : Vec ℝ → Call σ ℝ (Tensor ℝ)) (jacobian : Vec ℝ → Call σ ℝ (DenseMatrix ℝ)) :
    (Derivatives ℝ → Derivatives ℝ → Prop) → Solver σ ℝ → Solver σ ℝ → Prop :=
  Lockstep (unitsPairing holding units residuals jacobian)

/-- What holds between calls. -/
abbrev InStep (holding : Holding) (units : Fin k → ℝ)
    (residuals : Vec ℝ → Call σ ℝ (Tensor ℝ)) (jacobian : Vec ℝ → Call σ ℝ (DenseMatrix ℝ)) :
    Solver σ ℝ → Solver σ ℝ → Prop :=
  Paced (unitsPairing holding units residuals jacobian) (Derivatives.Held holding)
    (Derivatives.Rescaled holding units)

/-! ## Trying a step -/

section Trials

variable [Spectral ℝ]

/-- What a trial proposes in units that are not adapted. -/
theorem propose_known {solver : Solver σ ℝ} (fitted : solver.Fitted holding k l)
    {matrix : RealMatrix k k} (symmetric : matrix.IsSymm) {entries : Fin k → ℝ}
    (known : solver.derivatives.Known holding (withDiagonal matrix entries) gradient)
    (plain : solver.plainDiagonal = List.ofFn fun index => matrix index index)
    {damped : RealMatrix k k} (damped_eq : damped = withDiagonal matrix fun index =>
      dampedEntry solver.settings solver.damping (matrix index index)) {step : Fin k → ℝ}
    (step_eq : step = -(damped⁻¹ *ᵥ gradient)) :
    ∃ normal trace dampedDiagonal, normal.layout? = some holding.layout ∧
      normal.Represents damped ∧
      (damped.PosDef → propose.run solver =
        (.ok (some (-(gradient ⬝ᵥ step) - 1 / 2 * (step ⬝ᵥ damped *ᵥ step))), { solver with
          normal := normal, trace := trace, step := List.ofFn step
          dampedDiagonal := dampedDiagonal })) ∧
      (¬ damped.PosDef → propose.run solver = (.ok none, { solver with
        normal := normal, trace := trace, dampedDiagonal := dampedDiagonal })) := by
  -- the entries that earlier trials left on the diagonal are overwritten
  rw [← withDiagonal_withDiagonal entries] at damped_eq
  obtain ⟨normal, trace, represents, layout, ends⟩ := @propose_cases σ k l solver _ _ fitted.sized
    known.normal (withDiagonal_isSymm symmetric entries)
    (Option.isSome_iff_exists.mpr ⟨_, known.layout⟩) _ gradient 1 plain known.gradient
    (fun rescaling => nomatch fitted.marquardt.plain.symm.trans rescaling) (fun _ => rfl)
    _ damped_eq _ step_eq
  rw [div_one] at ends
  refine ⟨normal, trace, solver.plainDiagonal.map (dampedEntry solver.settings solver.damping),
    layout.trans known.layout, represents, ?_⟩
  rcases ends with ⟨definite, ran⟩ | ⟨indefinite, ran⟩
  · exact ⟨fun _ => ran, fun indefinite => (indefinite definite).elim⟩
  · exact ⟨fun definite => (indefinite definite).elim, fun _ => ran⟩

/-- The damped systems are solvable under the same condition, their solutions are the same step,
and the models predict the same of it. -/
theorem propose_rescaled (nonzero : ∀ index, units index ≠ 0)
    (same : InUnits holding units residuals jacobian (Derivatives.Rescaled holding units)
      first second)
    (fitted : first.Fitted holding k l) (fitted' : second.Fitted holding k l)
    (unclamped : first.Unclamped) (unclamped' : second.Unclamped)
    {failed : Solver σ ℝ → Solver σ ℝ → Prop} :
    Alongside first second propose propose
      (InUnits holding units residuals jacobian (Derivatives.Rescaled holding units)) failed := by
  obtain ⟨gram, gradient, rescaled⟩ := same.derivatives
  obtain ⟨entries, known⟩ := rescaled.known
  obtain ⟨entries', known'⟩ := rescaled.known'
  have plain : first.plainDiagonal = _ := rescaled.plain
  have plain' : second.plainDiagonal = _ := rescaled.plain'
  unfold Unclamped at unclamped unclamped'
  rw [plain, List.forall_mem_ofFn_iff] at unclamped
  rw [plain', List.forall_mem_ofFn_iff, ← same.settings] at unclamped'
  obtain ⟨damped, damped_eq⟩ : ∃ damped, damped = withDiagonal gram fun index =>
      dampedEntry first.settings first.damping (gram index index) := ⟨_, rfl⟩
  have damped_eq' : divided damped units = withDiagonal (divided gram units) fun index =>
      dampedEntry second.settings second.damping (divided gram units index index) := by
    rw [damped_eq, ← same.settings, ← same.damping, damped_divided fitted.marquardt.mixture
      rescaled.nonnegative unclamped unclamped']
  obtain ⟨step, step_eq⟩ : ∃ step, step = -(damped⁻¹ *ᵥ gradient) := ⟨_, rfl⟩
  have step_eq' : units * step = -((divided damped units)⁻¹ *ᵥ (gradient / units)) := by
    rw [step_eq, divided_solution nonzero]
  obtain ⟨normal, trace, diagonal, layout, represents, finds, fails⟩ :=
    propose_known fitted rescaled.symmetric known plain damped_eq step_eq
  obtain ⟨normal', trace', diagonal', layout', represents', finds', fails'⟩ := propose_known
    fitted' (divided_isSymm rescaled.symmetric units) known' plain' damped_eq' step_eq'
  have kept : Derivatives.Rescaled holding units
      { first.derivatives with normal := normal, dampedDiagonal := diagonal }
      { second.derivatives with normal := normal', dampedDiagonal := diagonal' } :=
    ⟨gram, gradient, { rescaled with
      known := ⟨_, layout, damped_eq ▸ represents, known.gradient⟩
      known' := ⟨_, layout', damped_eq' ▸ represents', known'.gradient⟩ }⟩
  have solvable := divided_posDef_iff nonzero
    (damped_eq ▸ withDiagonal_isSymm rescaled.symmetric _ : damped.IsSymm)
  by_cases definite : damped.PosDef
  · have ran' := finds' (solvable.mpr definite)
    rw [div_dotProduct_mul nonzero, divided_quadratic nonzero] at ran'
    exact .ok (finds definite) ran' { same with step := ⟨_, rfl, rfl⟩, derivatives := kept }
  · exact .ok (fails definite) (fails' (mt solvable.mp definite)) { same with derivatives := kept }

theorem tryStep_rescaled (nonzero : ∀ index, units index ≠ 0)
    (same : InUnits holding units residuals jacobian (Derivatives.Rescaled holding units)
      first second)
    (fitted : first.Fitted holding k l) (fitted' : second.Fitted holding k l)
    (unclamped : first.Unclamped) (unclamped' : second.Unclamped) :
    Alongside first second tryStep tryStep
      (InUnits holding units residuals jacobian (Derivatives.Rescaled holding units))
      (InUnits holding units residuals jacobian (Derivatives.Rescaled holding units)) := by
  rw [tryStep_eq]
  exact alongside_bind _ (propose_rescaled nonzero same fitted fitted' unclamped unclamped')
    fun predicted? _ _ same => proceed_alongside Derivatives.Rescaled.steep same predicted?

end Trials

/-! ## Computing derivatives -/

/-- The gradients are formed from the same gradient of the loss. -/
theorem gather_alongside {pairing : Pairing σ ℝ} {relation : Derivatives ℝ → Derivatives ℝ → Prop}
    (same : Lockstep pairing relation first second) (sized : first.Sized k l)
    (sized' : second.Sized k l) (found found' : RealMatrix l k) :
    Alongside first second (gather found) (gather found')
      (fun after after' => ∃ (slopes : Fin l → ℝ) (lossGradient : Vec ℝ), lossGradient.length = l ∧
        after = { first with
          lossGradient := lossGradient, gradient := List.ofFn (foundᵀ *ᵥ slopes) } ∧
        after' = { second with
          lossGradient := lossGradient, gradient := List.ofFn (found'ᵀ *ᵥ slopes) })
      fun after after' => after = first ∧ after' = second := by
  have forms (found : RealMatrix l k) (slopes : Fin l → ℝ) :=
    congrArg (Fault.fit (α := ℝ)) (DenseMatrix.transposeMulVec?_ofMatrix found slopes)
  unfold gather
  cases lossResiduals_alongside same with
  | error ran ran' _ =>
      exact .error (run_bind_error ran) (run_bind_error ran')
        ⟨(lossResiduals_slopes sized.lossGradient sized.residuals).of_run_error ran,
          (lossResiduals_slopes sized'.lossGradient sized'.residuals).of_run_error ran'⟩
  | @ok slopes _ _ ran ran' same =>
      obtain ⟨_, size, lossGradient, room, rfl⟩ :=
        (lossResiduals_slopes sized.lossGradient sized.residuals).of_run_ok ran
      obtain ⟨_, _, lossGradient', _, rfl⟩ :=
        (lossResiduals_slopes sized'.lossGradient sized'.residuals).of_run_ok ran'
      obtain rfl : lossGradient = lossGradient' := same.lossGradient
      obtain ⟨slopes, rfl⟩ := exists_ofFn size
      refine Alongside.of_run_eq ?_ (run_bind_ok ran) (run_bind_ok ran')
      refine Alongside.of_run_eq (alongside_modify ⟨slopes, lossGradient, room, rfl, rfl⟩)
        (run_attempt_bind_ok (forms found slopes)) (run_attempt_bind_ok (forms found' slopes))

theorem gradientVanishes_ofFn {solver : Solver σ ℝ}
    (tolerance : solver.settings.gradientTolerance = 0) (gradient : Fin k → ℝ) :
    solver.gradientVanishes (List.ofFn gradient) = true ↔ gradient = 0 := by
  rw [gradientVanishes_iff, tolerance, List.forall_mem_ofFn_iff, funext_iff]
  simp only [abs_nonpos_iff, Pi.zero_apply]

/-- What preparing a search in units that are not adapted comes to. -/
theorem prepareSearch_known {solver : Solver σ ℝ} (fitted : solver.Fitted holding k l)
    (known : solver.derivatives.Known holding gram gradient) :
    (gradient = 0 → prepareSearch.run solver = (.ok true, solver)) ∧
      (gradient ≠ 0 → ∃ changed : NormalMatrix ℝ, changed.layout? = some holding.layout ∧
        changed.Represents gram ∧ prepareSearch.run solver = (.ok false, { solver with
          normal := changed, plainDiagonal := List.ofFn fun index => gram index index
          phase := .search })) := by
  have gradient_eq : solver.gradient = List.ofFn gradient := known.gradient
  have vanishes := gradientVanishes_ofFn fitted.marquardt.gradientTolerance gradient
  rw [← gradient_eq] at vanishes
  obtain ⟨vanishing, remaining⟩ := prepareSearch_run fitted.sized known.normal gradient_eq
    (scales_eq_one fitted.marquardt.plain gram).symm
  refine ⟨fun level => vanishing (vanishes.mpr level), fun steep => ?_⟩
  obtain ⟨changed, represents, layout, ran⟩ :=
    remaining (Bool.eq_false_iff.mpr (mt vanishes.mp steep))
  rw [divided_one] at represents ran
  rw [fitted.marquardt.plain, div_one, ← gradient_eq] at ran
  exact ⟨changed, layout.trans known.layout, represents, ran⟩

theorem prepareSearch_rescaled (nonzero : ∀ index, units index ≠ 0)
    (same : InUnits holding units residuals jacobian
      (Derivatives.Formed holding units gram gradient) first second)
    (fitted : first.Fitted holding k l) (fitted' : second.Fitted holding k l)
    (waits : first.phase ≠ .search) {failed : Solver σ ℝ → Solver σ ℝ → Prop} :
    Alongside first second prepareSearch prepareSearch
      (InStep holding units residuals jacobian) failed := by
  obtain ⟨symmetric, nonnegative, known, known'⟩ := same.derivatives
  obtain ⟨vanishing, remaining⟩ := prepareSearch_known fitted known
  obtain ⟨vanishing', remaining'⟩ := prepareSearch_known fitted' known'
  by_cases level : gradient = 0
  · exact .ok (vanishing level) (vanishing' ((div_units_eq_zero_iff nonzero _).mpr level))
      ((same.mono fun formed => ⟨formed.known.layout, formed.known'.layout⟩).paced_of_waits waits)
  · obtain ⟨normal, layout, represents, ran⟩ := remaining level
    obtain ⟨normal', layout', represents', ran'⟩ :=
      remaining' (mt (div_units_eq_zero_iff nonzero _).mp level)
    rw [← @withDiagonal_self k gram] at represents
    rw [← @withDiagonal_self k (divided gram units)] at represents'
    have rescaled : InUnits holding units residuals jacobian (Derivatives.Rescaled holding units)
        { first with
          normal := normal, plainDiagonal := List.ofFn fun index => gram index index
          phase := .search }
        { second with
          normal := normal'
          plainDiagonal := List.ofFn fun index => divided gram units index index
          phase := .search } :=
      { same with
        phase := rfl
        derivatives := ⟨gram, gradient,
          { symmetric := symmetric, nonnegative := nonnegative, steep := level
            known := ⟨_, layout, represents, known.gradient⟩
            known' := ⟨_, layout', represents', known'.gradient⟩
            plain := rfl, plain' := rfl }⟩ }
    exact .ok ran ran' (rescaled.paced fun _ _ => Derivatives.Rescaled.held)

/-- Jacobians that differ by the units of their columns alone give normal matrices and gradients
that do so too. -/
theorem derive_rescaled (nonzero : ∀ index, units index ≠ 0)
    (same : InUnits holding units residuals jacobian (Derivatives.Held holding) first second)
    (fitted : first.Fitted holding k l) (fitted' : second.Fitted holding k l)
    (fits : holding.Fits k) (waits : first.phase ≠ .search) (found : RealMatrix l k) :
    Alongside first second
      (derive holding.form (holding.handed (DenseMatrix.ofMatrix found)) >>= fun _ => prepareSearch)
      (derive holding.form (holding.handed (DenseMatrix.ofMatrix (inUnits found units))) >>=
        fun _ => prepareSearch)
      (InStep holding units residuals jacobian) (InStep holding units residuals jacobian) := by
  obtain ⟨normal, represents, layout, ran⟩ :=
    Holding.derive_handed fitted.sized same.derivatives.layout fits found
  obtain ⟨normal', represents', layout', ran'⟩ :=
    Holding.derive_handed fitted'.sized same.derivatives.layout' fits (inUnits found units)
  rw [← divided_gram] at represents'
  have changed : InUnits holding units residuals jacobian (Derivatives.Held holding)
      { first with normal := normal } { second with normal := normal' } :=
    { same with derivatives := ⟨layout, layout'⟩ }
  have refit {solver : Solver σ ℝ} {normal : NormalMatrix ℝ} {lossGradient : Vec ℝ}
      (fitted : solver.Fitted holding k l) (room : lossGradient.length = l) (slope : Fin k → ℝ) :
      Fitted { solver with
        normal := normal, lossGradient := lossGradient, gradient := List.ofFn slope } holding k l :=
    ⟨fitted.form, { fitted.sized with lossGradient := room, gradient := List.length_ofFn },
      fitted.marquardt⟩
  refine Alongside.of_run_eq ?_ (run_bind_congr ran) (run_bind_congr ran')
  refine alongside_bind _ ((gather_alongside changed { fitted.sized with x := fitted.sized.x }
    { fitted'.sized with x := fitted'.sized.x } found (inUnits found units)).mono
    (fun _ _ formed => formed) ?_) ?_
  · rintro _ _ ⟨rfl, rfl⟩
    exact changed.paced_of_waits waits
  rintro _ _ _ ⟨slopes, lossGradient, room, rfl, rfl⟩
  have formed : InUnits holding units residuals jacobian
      (Derivatives.Formed holding units (foundᵀ * found) (foundᵀ *ᵥ slopes))
      { first with
        normal := normal, lossGradient := lossGradient
        gradient := List.ofFn (foundᵀ *ᵥ slopes) }
      { second with
        normal := normal', lossGradient := lossGradient
        gradient := List.ofFn ((inUnits found units)ᵀ *ᵥ slopes) } :=
    { same with
      lossGradient := rfl
      derivatives := ⟨gram_isSymm found, gram_diagonal_nonneg found, ⟨layout, represents, rfl⟩,
        layout', represents', by rw [inUnits_transpose_mulVec]; rfl⟩ }
  exact prepareSearch_rescaled nonzero formed (refit fitted room _) (refit fitted' room _) waits

theorem updateDerivatives_rescaled (nonzero : ∀ index, units index ≠ 0)
    (wide : ∀ x before answer after, (jacobian x).run before = (.ok answer, after) →
      answer.width = k) (fits : holding.Fits k)
    (same : InUnits holding units residuals jacobian (Derivatives.Held holding) first second)
    (fitted : first.Fitted holding k l) (fitted' : second.Fitted holding k l)
    (waits : first.phase ≠ .search) :
    Alongside first second updateDerivatives updateDerivatives
      (InStep holding units residuals jacobian) (InStep holding units residuals jacobian) := by
  have started := updateDerivatives_run first same.defined same.problem
  have started' := updateDerivatives_run second (same.form ▸ same.defined) same.problem'
  rw [fitted.form] at started
  rw [fitted'.form] at started'
  refine Alongside.of_run_eq ?_ started started'
  obtain ⟨counts, x_eq, x_eq'⟩ := same.x
  rcases answered : (jacobian second.x).run second.world with ⟨ending, world⟩
  have converted : (jacobianIn (List.ofFn units) jacobian first.x).run first.world =
      (ending.map (·.timesColumns (List.ofFn units)), world) := by
    have worlds : first.world = second.world := same.world
    rw [jacobianIn, x_eq, Vec.times_ofFn, ← x_eq', worlds, Call.run_bind_return answered]
  have asked := holding.evaluate_jacobian converted
  have asked' := holding.evaluate_jacobian answered
  have same : InUnits holding units residuals jacobian (Derivatives.Held holding)
      { first with world := world } { second with world := world } := { same with world := rfl }
  have unchanged : InStep holding units residuals jacobian { first with world := world }
      { second with world := world } := same.paced_of_waits waits
  have refit {solver : Solver σ ℝ} (fitted : solver.Fitted holding k l) :
      Fitted { solver with world := world } holding k l :=
    ⟨fitted.form, { fitted.sized with x := fitted.sized.x }, fitted.marquardt⟩
  cases ending with
  | error fault => exact .error (run_bind_error asked) (run_bind_error asked') unchanged
  | ok answer =>
      have width := wide _ _ _ _ answered
      obtain ⟨rows, found', rfl⟩ : ∃ (rows : Nat) (found : RealMatrix rows k),
          answer = DenseMatrix.ofMatrix found := ⟨_, _, DenseMatrix.eq_ofMatrix rfl width⟩
      obtain ⟨found, rfl, scaled⟩ := timesColumns_ofMatrix found' nonzero
      have handed : (evaluate (holding.jacobian (jacobianIn (List.ofFn units) jacobian)
          first.x)).run first = (.ok (holding.handed (DenseMatrix.ofMatrix found)),
            { first with world := world }) := by
        rw [← scaled]
        exact asked
      refine Alongside.of_run_eq ?_ (run_bind_ok handed) (run_bind_ok asked')
      by_cases height : rows = l
      · subst height
        exact derive_rescaled nonzero same (refit fitted) (refit fitted') fits waits found
      · have ran := Holding.derive_refused (refit fitted).sized fits height found
        have ran' := Holding.derive_refused (refit fitted').sized fits height (inUnits found units)
        exact .error (run_bind_error ran) (run_bind_error ran') unchanged

/-! ## Runs -/

variable [Spectral ℝ]

theorem iterate_rescaled (nonzero : ∀ index, units index ≠ 0)
    (wide : ∀ x before answer after, (jacobian x).run before = (.ok answer, after) →
      answer.width = k) (fits : holding.Fits k)
    (same : InStep holding units residuals jacobian first second)
    (fitted : first.Fitted holding k l) (fitted' : second.Fitted holding k l)
    (unclamped : first.phase = .search → first.Unclamped)
    (unclamped' : second.phase = .search → second.Unclamped) :
    Alongside first second iterate iterate (InStep holding units residuals jacobian)
      (InStep holding units residuals jacobian) := by
  have counted {solver : Solver σ ℝ} (fitted : solver.Fitted holding k l) (full retries : Nat) :
      Fitted { solver with updated := false, fullSteps := full, retries := retries } holding k l :=
    ⟨fitted.form, { fitted.sized with x := fitted.sized.x }, fitted.marquardt⟩
  refine iterate_alongside same (fun _ _ => Derivatives.Rescaled.held) (fun phase again => ?_)
    fun phase again => tryStep_rescaled nonzero again (counted fitted _ _) (counted fitted' _ _)
      (unclamped phase) (unclamped' (same.waits.phase ▸ phase))
  have waits : first.phase ≠ .search := by
    rw [phase]
    decide
  exact updateDerivatives_rescaled nonzero wide fits again (counted fitted _ _)
    (counted fitted' _ _) waits

theorem Fitted.afterCalls {started : Solver σ ℝ} (fitted : started.Fitted holding k l)
    (count : Nat) : (started.afterCalls count).Fitted holding k l := by
  obtain ⟨form, settings, _⟩ := afterCalls_configured started count
  exact ⟨form.trans fitted.form, afterCalls_sized fitted.sized count,
    settings.symm ▸ fitted.marquardt⟩

theorem afterCalls_rescaled (nonzero : ∀ index, units index ≠ 0)
    (wide : ∀ x before answer after, (jacobian x).run before = (.ok answer, after) →
      answer.width = k) (fits : holding.Fits k)
    (same : InStep holding units residuals jacobian first second)
    (fitted : first.Fitted holding k l) (fitted' : second.Fitted holding k l)
    (unclamped : ∀ count, (first.afterCalls count).phase = .search →
      (first.afterCalls count).Unclamped)
    (unclamped' : ∀ count, (second.afterCalls count).phase = .search →
      (second.afterCalls count).Unclamped) (count : Nat) :
    InStep holding units residuals jacobian (first.afterCalls count)
      (second.afterCalls count) :=
  afterCalls_alongside same (fun count previous =>
    iterate_rescaled nonzero wide fits previous (fitted.afterCalls count)
      (fitted'.afterCalls count) (unclamped count) (unclamped' count)) count

/-- Parameters, candidate and step differ by the units alone. The rest of the state that the
searches show to their callers is the same, and the next call ends the same. -/
structure AgreeInUnits (units : Vec ℝ) (first second : Solver σ ℝ) : Prop where
  x : second.x = Vec.times units first.x
  candidate : second.candidate = Vec.times units first.candidate
  step : second.step = Vec.times units first.step
  cost : first.cost = second.cost
  residuals : first.residuals = second.residuals
  damping : first.damping = second.damping
  growth : first.growth = second.growth
  phase : first.phase = second.phase
  updated : first.updated = second.updated
  fullSteps : first.fullSteps = second.fullSteps
  retries : first.retries = second.retries
  answer : first.answer = second.answer

theorem InStep.agree (same : InStep holding units residuals jacobian first second)
    (answer : first.answer = second.answer) :
    AgreeInUnits (List.ofFn units) first second := by
  have converted {counts x : Vec ℝ}
      (points : (unitsPairing holding units residuals jacobian).point counts x) :
      x = Vec.times (List.ofFn units) counts := by
    obtain ⟨values, rfl, rfl⟩ := points
    exact (Vec.times_ofFn units values).symm
  exact ⟨converted same.waits.x, converted same.waits.candidate, converted same.waits.step,
    same.waits.cost, same.waits.residuals, same.waits.damping, same.waits.growth, same.waits.phase,
    same.waits.updated, same.waits.fullSteps, same.waits.retries, answer⟩

omit [Spectral ℝ] in
theorem fitted_of_start {idle started : Solver σ ℝ} {point : Vec ℝ} {cost? gradient? : Option ℝ}
    (success : (start point cost? gradient?).run idle = (.ok (), started))
    (form : idle.form = holding.form) (mixture : idle.settings.mixture = 0)
    (plain : idle.settings.rescaling = false)
    (tolerance : gradient?.getD idle.settings.gradientTolerance = 0) :
    started.Fitted holding point.length started.residuals.length := by
  obtain ⟨ready, _, _, _, settings⟩ := (start_leaves idle point cost? gradient?).of_run_ok success
  exact ⟨ready.form.trans form, ready.sized, settings ▸ ⟨mixture, plain, tolerance⟩⟩

/-- With damping in proportion to the diagonal, and while nothing is clamped, the search for the
functions in other units and the search for those before start alike, and they stay in lock step
for every number of calls. -/
theorem units_agree {settings : Settings ℝ} (valid : settings.check = .ok ())
    (mixture : settings.mixture = 0) (plain : settings.rescaling = false)
    (loss : Loss σ ℝ) (residuals : Vec ℝ → Call σ ℝ (Tensor ℝ))
    (jacobian : Vec ℝ → Call σ ℝ (DenseMatrix ℝ)) (world : σ) (point units : Vec ℝ)
    (cost? gradient? : Option ℝ) (tolerance : gradient?.getD settings.gradientTolerance = 0)
    (size : units.length = point.length) (nonzero : ∀ unit ∈ units, unit ≠ 0)
    (wide : ∀ x before answer after, (jacobian x).run before = (.ok answer, after) →
      answer.width = point.length) (holding : Holding) (fits : holding.Fits point.length) :
    ∃ idle idle' : Solver σ ℝ,
      holding.search settings loss (residualsIn units residuals) (jacobianIn units jacobian) world =
        .ok idle ∧
      holding.search settings loss residuals jacobian world = .ok idle' ∧
      ((start (point.over units) cost? gradient?).run idle).1 =
        ((start point cost? gradient?).run idle').1 ∧
      ∀ started started' : Solver σ ℝ,
        (start (point.over units) cost? gradient?).run idle = (.ok (), started) →
        (start point cost? gradient?).run idle' = (.ok (), started') →
        (∀ count, (started.afterCalls count).phase = .search →
          (started.afterCalls count).Unclamped) →
        (∀ count, (started'.afterCalls count).phase = .search →
          (started'.afterCalls count).Unclamped) →
        ∀ count, AgreeInUnits units (started.afterCalls count) (started'.afterCalls count) := by
  obtain ⟨core, rfl, _, searches⟩ := Holding.search_eq valid loss world
  obtain ⟨normal, layout, built⟩ :=
    searches holding (residualsIn units residuals) (jacobianIn units jacobian)
  obtain ⟨normal', layout', built'⟩ := searches holding residuals jacobian
  refine ⟨_, _, built, built', ?_⟩
  obtain ⟨units, rfl⟩ := exists_ofFn size
  rw [List.forall_mem_ofFn_iff] at nonzero
  obtain ⟨x, x_eq⟩ := exists_ofFn (rfl : point.length = point.length)
  have points : (unitsPairing holding units residuals jacobian).point
      (point.over (List.ofFn units)) point := by
    refine ⟨x / units, ?_, ?_⟩
    · rw [← Vec.over_ofFn, ← x_eq]
    · rw [mul_div_units nonzero, ← x_eq]
  have facing : Facing (unitsPairing holding units residuals jacobian)
      (core.arranged (residualsIn (List.ofFn units) residuals)
        (holding.arrangement (jacobianIn (List.ofFn units) jacobian) normal) core.trace)
      (core.arranged residuals (holding.arrangement jacobian normal') core.trace) :=
    ⟨rfl, holding.form_defined, rfl, rfl, rfl, rfl⟩
  have unknown : Derivatives.Held holding (.unknown normal (point.over (List.ofFn units)).length)
      (.unknown normal' point.length) :=
    ⟨(reset_layout? _ _).trans layout, (reset_layout? _ _).trans layout'⟩
  have starts := start_alongside facing rfl (Loss.respects_eq _) points unknown cost? gradient?
  refine ⟨starts.ends, fun started started' success success' unclamped unclamped' count => ?_⟩
  cases starts with
  | error ran _ _ => cases ran.symm.trans success
  | ok ran ran' same =>
      cases ran.symm.trans success
      cases ran'.symm.trans success'
      have fitted := fitted_of_start success rfl mixture plain tolerance
      have fitted' := fitted_of_start success' rfl mixture plain tolerance
      rw [(unitsPairing holding units residuals jacobian).length points] at fitted
      rw [← same.residuals] at fitted'
      have waits : started.phase ≠ .search := by
        rw [((start_ensures _ _ cost? gradient?).of_run_ok success).phase]
        decide
      have here := afterCalls_rescaled nonzero wide fits (same.paced_of_waits waits) fitted
        fitted' unclamped unclamped' count
      exact here.agree (iterate_rescaled nonzero wide fits here (fitted.afterCalls count)
        (fitted'.afterCalls count) (unclamped count) (unclamped' count)).ends

/-- Linear residuals keep the same diagonal, so it is enough to look at it once. -/
theorem start_unclamped {idle : Solver σ ℝ} {problem : Problem σ ℝ} {matrix : RealMatrix l k}
    {offset : Fin l → ℝ} {cost? gradient? : Option ℝ}
    (valid : (idle.settings.adopting cost? gradient?).check = .ok ())
    (given : idle.problem? = some problem) (linear : problem.Linear idle.form matrix offset)
    (eliminates : idle.normal.layout?.isSome) (squared : idle.loss.shape = .squared)
    (plain : idle.settings.rescaling = false)
    (within : ∀ index, idle.settings.diagonalMin ≤ (matrixᵀ * matrix) index index ∧
      (matrixᵀ * matrix) index index ≤ idle.settings.diagonalMax) (x : Fin k → ℝ) :
    ∃ started, (start (List.ofFn x) cost? gradient?).run idle = (.ok (), started) ∧
      ∀ count, (started.afterCalls count).phase = .search →
        (started.afterCalls count).Unclamped := by
  obtain ⟨started, success⟩ := start_linear valid given linear squared
  refine ⟨started, success, fun count phase => ?_⟩
  have aligned := aligned_of_start success given linear eliminates squared
  obtain ⟨_, _, _, _, settings⟩ :=
    (start_leaves idle (List.ofFn x) cost? gradient?).of_run_ok success
  unfold Unclamped
  rw [aligned.plainDiagonal_eq linear (by rw [settings]; exact plain) phase,
    List.forall_mem_ofFn_iff, (afterCalls_configured started count).2.1, settings]
  exact within

noncomputable def marquardtSettings : Settings ℝ :=
  { Settings.standard with mixture := 0, gradientTolerance := 0 }

omit [Spectral ℝ] in
theorem pairs_linear : Problem.Linear ⟨residualsIn [2] fun x => (pure (.vector x) : Call Unit ℝ _),
    Holding.dense.jacobian (jacobianIn [2] fun _ =>
      pure (DenseMatrix.ofMatrix (1 : RealMatrix 1 1)))⟩ .whole
      (RealMatrix.diagonal fun _ : Fin 1 => 2) 0 where
  residuals x before := by
    refine ⟨_, before, rfl, ?_⟩
    change Vec.times [2] (List.ofFn x) = _
    simp [Vec.times, RealMatrix.diagonal]
  jacobian x before := by
    have scaled : (DenseMatrix.ofMatrix (1 : RealMatrix 1 1)).timesColumns [2] =
        DenseMatrix.ofMatrix (RealMatrix.diagonal fun _ : Fin 1 => 2) := by
      unfold DenseMatrix.timesColumns
      rw [DenseMatrix.height_ofMatrix, DenseMatrix.width_ofMatrix, DenseMatrix.ofFn_eq_ofMatrix]
      congr 1
      funext row column
      obtain rfl := Subsingleton.elim row column
      rw [DenseMatrix.entry_ofMatrix, Matrix.one_apply_eq, one_mul]
      refine Eq.trans ?_ (Matrix.diagonal_apply_eq _ row).symm
      simp [Subsingleton.elim row 0]
    refine ⟨_, before, rfl, _, rfl, _, rfl, ?_⟩
    rw [scaled]
    exact Matrix.represents_dense _

omit [Spectral ℝ] in
/-- One parameter that is its own residual, and the same parameter in pairs. -/
theorem units_agree_from_one : ∃ (_ : Spectral ℝ) (idle idle' started started' : Solver Unit ℝ),
    Holding.search .dense marquardtSettings Loss.squared (residualsIn [2] fun x => pure (.vector x))
      (jacobianIn [2] fun _ => pure (DenseMatrix.ofMatrix (1 : RealMatrix 1 1))) () = .ok idle ∧
    Holding.search .dense marquardtSettings Loss.squared (fun x => pure (.vector x))
      (fun _ => pure (DenseMatrix.ofMatrix (1 : RealMatrix 1 1))) () = .ok idle' ∧
    (start (Vec.over [1] [2]) none none).run idle = (.ok (), started) ∧
    (start [1] none none).run idle' = (.ok (), started') ∧
    ∀ count, AgreeInUnits [2] (started.afterCalls count) (started'.afterCalls count) := by
  let spectral : Spectral ℝ := ⟨fun _ => []⟩
  have valid : marquardtSettings.check = .ok () := Settings.Proper.check
    { Settings.standard_proper with
      mixture := ⟨le_rfl, zero_le_one⟩, gradientTolerance := le_rfl }
  have wide (x : Vec ℝ) (before : Unit) (answer : DenseMatrix ℝ) (after : Unit)
      (ran : (pure (DenseMatrix.ofMatrix (1 : RealMatrix 1 1)) : Call Unit ℝ _).run before =
        (.ok answer, after)) : answer.width = 1 := by
    cases ran
    rfl
  have nonzero : ∀ unit ∈ [(2 : ℝ)], unit ≠ 0 := by simp
  obtain ⟨idle, idle', built, built', _, agree⟩ := units_agree valid rfl rfl Loss.squared
    (fun x => pure (.vector x)) (fun _ => pure (DenseMatrix.ofMatrix (1 : RealMatrix 1 1))) ()
    [1] [2] none none rfl rfl nonzero wide .dense trivial
  have starts {residuals : Vec ℝ → Call Unit ℝ (Tensor ℝ)}
      {jacobian : Vec ℝ → Call Unit ℝ (DenseMatrix ℝ)} {idle : Solver Unit ℝ}
      (built : Holding.search .dense marquardtSettings Loss.squared residuals jacobian () =
        .ok idle) {matrix : RealMatrix 1 1}
      (linear : Problem.Linear ⟨residuals, Holding.dense.jacobian jacobian⟩ .whole matrix 0)
      (within : ∀ index, (1.0e-6 : ℝ) ≤ (matrixᵀ * matrix) index index ∧
        (matrixᵀ * matrix) index index ≤ 1.0e32) (x : Fin 1 → ℝ) :
      ∃ started, (start (List.ofFn x) none none).run idle = (.ok (), started) ∧
        ∀ count, (started.afterCalls count).phase = .search →
          (started.afterCalls count).Unclamped := by
    unfold Holding.search Holding.solver Solver.dense Solver.whole Solver.create at built
    dsimp only at built
    rw [valid] at built
    cases built
    rw [← View.copied_ofFresh residuals] at linear
    refine start_unclamped ?_ rfl linear rfl rfl rfl within x
    exact valid
  obtain ⟨started, success, unclamped⟩ := starts built pairs_linear (fun index => by
    rw [Matrix.diagonal_transpose, Matrix.diagonal_mul_diagonal, Matrix.diagonal_apply_eq]
    norm_num) fun _ => 1 / 2
  obtain ⟨started', success', unclamped'⟩ := starts built' unitProblem_linear (fun index => by
    rw [Matrix.transpose_one, Matrix.one_mul, Matrix.one_apply_eq]
    norm_num) fun _ => 1
  have point : List.ofFn (fun _ : Fin 1 => (1 : ℝ) / 2) = Vec.over [1] [2] := by simp [Vec.over]
  have point' : List.ofFn (fun _ : Fin 1 => (1 : ℝ)) = [1] := by simp
  rw [point] at success
  rw [point'] at success'
  exact ⟨spectral, idle, idle', started, started', built, built', success, success',
    agree started started' success success' unclamped unclamped'⟩

end Solver

end DampedLeastSquares
