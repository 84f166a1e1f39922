import DampedLeastSquares.Proofs.Call
import DampedLeastSquares.Proofs.Exact.CheckedCalls

/-!
# A search among numbers

One call of a search that solves its systems by elimination keeps all that it stores to numbers, and
the scaling positive, whatever the call ends in. It never ends in a division by zero: a predicted
reduction of zero ends the search before a ratio is formed.
-/

set_option autoImplicit false

namespace DampedLeastSquares

open Checked

variable {σ β γ : Type}

/-- All settings are numbers. -/
structure Settings.Defined (settings : Settings Checked) : Prop where
  gradientTolerance : settings.gradientTolerance.Defined
  costTolerance : settings.costTolerance.Defined
  scalingMin : settings.scalingMin.Defined
  scalingMax : settings.scalingMax.Defined
  initialDamping : settings.initialDamping.Defined
  mixture : settings.mixture.Defined
  diagonalMin : settings.diagonalMin.Defined
  diagonalMax : settings.diagonalMax.Defined

/-- Where parameters are rescaled, the factors come from an interval of positive numbers. -/
def Settings.Rescales (settings : Settings Checked) : Prop :=
  settings.rescaling = true →
    0.0 < settings.scalingMin ∧ settings.scalingMin ≤ settings.scalingMax

namespace Solver

/-- All that is stored are numbers, and what parameters are divided by is positive. The cost is
undefined until a start computes it. -/
structure Defined (solver : Solver σ Checked) (costed : Prop) : Prop where
  normal : solver.normal.Defined
  settings : solver.settings.Defined
  rescales : solver.settings.Rescales
  loss : solver.loss.Defined
  problem : ∀ problem, solver.problem? = some problem → problem.Defined
  x : solver.x.Defined
  candidate : solver.candidate.Defined
  step : solver.step.Defined
  gradient : solver.gradient.Defined
  scaling : solver.scaling.Positive
  cost : costed → solver.cost.Defined
  residuals : solver.residuals.Defined
  candidateResiduals : solver.candidateResiduals.Defined
  lossGradient : solver.lossGradient.Defined
  plainDiagonal : solver.plainDiagonal.Defined
  dampedDiagonal : solver.dampedDiagonal.Defined
  damping : solver.damping.Defined
  growth : solver.growth.Defined

/-- Whatever the action ends in, the search it leaves holds numbers. A value is good, and a fault
is no division by zero. -/
def Keeps (costed : Prop) (solver : Solver σ Checked) (action : Action σ Checked β)
    (good : β → Prop) : Prop :=
  Ensures action solver (fun value after => after.Defined costed ∧ good value)
    fun fault after => after.Defined costed ∧ fault ≠ .divisionByZero

section Rules

variable {costed : Prop} {solver : Solver σ Checked} {good : β → Prop} {middle : γ → Prop}

theorem Keeps.ensures_bind {first : Action σ Checked γ} {next : γ → Action σ Checked β}
    {done : β → Solver σ Checked → Prop} (start : Keeps costed solver first middle)
    (rest : ∀ value after, after.Defined costed → middle value →
      Ensures (next value) after done fun fault last =>
        last.Defined costed ∧ fault ≠ .divisionByZero) :
    Ensures (first >>= next) solver done fun fault last =>
      last.Defined costed ∧ fault ≠ .divisionByZero := by
  rw [Solver.ensures_bind]
  exact start.mono (fun value after ⟨defined, holds⟩ => rest value after defined holds)
    fun _ _ failed => failed

theorem Keeps.bind {first : Action σ Checked γ} {next : γ → Action σ Checked β}
    (start : Keeps costed solver first middle)
    (rest : ∀ value after, after.Defined costed → middle value →
      Keeps costed after (next value) good) :
    Keeps costed solver (first >>= next) good :=
  start.ensures_bind rest

theorem keeps_pure (defined : solver.Defined costed) {value : β} (holds : good value) :
    Keeps costed solver (pure value) good :=
  ⟨defined, holds⟩

theorem keeps_return (defined : solver.Defined costed) (value : β) :
    Keeps costed solver (pure value) fun _ => True :=
  ⟨defined, trivial⟩

theorem keeps_throw (defined : solver.Defined costed) {fault : Fault Checked}
    (other : fault ≠ .divisionByZero) :
    Keeps costed solver (throw fault : Action σ Checked β) good :=
  ⟨defined, other⟩

theorem keeps_throw_bind (defined : solver.Defined costed) {fault : Fault Checked}
    (other : fault ≠ .divisionByZero) {next : γ → Action σ Checked β} :
    Keeps costed solver (throw fault >>= next) good := by
  have thrown : Keeps costed solver (throw fault : Action σ Checked γ) fun _ => False :=
    keeps_throw defined other
  exact thrown.bind fun _ _ _ absurd => absurd.elim

theorem keeps_ite {condition : Prop} [Decidable condition] {first second : Action σ Checked β}
    (positive : condition → Keeps costed solver first good)
    (negative : ¬ condition → Keeps costed solver second good) :
    Keeps costed solver (if condition then first else second) good := by
  by_cases holds : condition
  · rw [if_pos holds]
    exact positive holds
  · rw [if_neg holds]
    exact negative holds

theorem keeps_get_bind {next : Solver σ Checked → Action σ Checked β}
    (rest : Keeps costed solver (next solver) good) : Keeps costed solver (get >>= next) good :=
  Ensures.of_run_eq rest run_get_bind

theorem keeps_modify_bind {change : Solver σ Checked → Solver σ Checked}
    {next : Unit → Action σ Checked β} (rest : Keeps costed (change solver) (next ()) good) :
    Keeps costed solver (modify change >>= next) good :=
  Ensures.of_run_eq rest run_modify_bind

theorem keeps_modify {change : Solver σ Checked → Solver σ Checked}
    (defined : (change solver).Defined costed) :
    Keeps costed solver (modify change : Action σ Checked Unit) fun _ => True :=
  ⟨defined, trivial⟩

theorem keeps_attempt (defined : solver.Defined costed) {result : Except (Fault Checked) β}
    (yields : Yields good result) : Keeps costed solver (attempt result) good := by
  unfold Keeps
  rw [ensures_attempt]
  exact ⟨fun value ended => ⟨defined, yields.of_ok ended⟩,
    fun fault ended => ⟨defined, yields.of_error ended⟩⟩

theorem keeps_attempt_bind (defined : solver.Defined costed) {result : Except (Fault Checked) γ}
    {next : γ → Action σ Checked β} (yields : Yields middle result)
    (rest : ∀ value, middle value → Keeps costed solver (next value) good) :
    Keeps costed solver (attempt result >>= next) good := by
  unfold Keeps
  rw [ensures_bind, ensures_attempt]
  exact ⟨fun value ended => rest value (yields.of_ok ended),
    fun fault ended => ⟨defined, yields.of_error ended⟩⟩

theorem Defined.withWorld (defined : solver.Defined costed) (world : σ) :
    ({ solver with world := world } : Solver σ Checked).Defined costed :=
  { defined with }

theorem keeps_evaluate (defined : solver.Defined costed) {call : Call σ Checked β}
    (yields : Call.Yields good call) : Keeps costed solver (evaluate call) good := by
  have ended := yields solver.world
  unfold Keeps
  rw [ensures_evaluate]
  constructor
  · intro value world ran
    rw [ran] at ended
    exact ⟨defined.withWorld world, ended⟩
  · intro fault world ran
    rw [ran] at ended
    exact ⟨defined.withWorld world, ended⟩

theorem Defined.withNormal (defined : solver.Defined costed) {normal : NormalMatrix Checked}
    (normalDefined : normal.Defined) :
    ({ solver with normal := normal } : Solver σ Checked).Defined costed :=
  { defined with normal := normalDefined }

theorem keeps_changeNormal (defined : solver.Defined costed)
    {change : NormalMatrix Checked → Except (Fault Checked) Unit × NormalMatrix Checked}
    (changed : Yields (fun _ => True) (change solver.normal).1 ∧ (change solver.normal).2.Defined) :
    Keeps costed solver (changeNormal change) fun _ => True := by
  unfold Keeps
  rw [ensures_changeNormal]
  constructor
  · intro normal ended
    rw [ended] at changed
    exact ⟨defined.withNormal changed.2, trivial⟩
  · intro fault normal ended
    rw [ended] at changed
    exact ⟨defined.withNormal changed.2, changed.1⟩

theorem keeps_report (defined : solver.Defined costed) (events : List (Event Checked)) :
    Keeps costed solver (report events) fun _ => True :=
  keeps_modify { defined with }

theorem Keeps.leaves {action : Action σ Checked β} (keeps : Keeps costed solver action good) :
    (action.run solver).2.Defined costed ∧ Yields good (action.run solver).1 := by
  unfold Keeps Ensures at keeps
  rcases ran : action.run solver with ⟨fault | value, after⟩ <;> rw [ran] at keeps
  · exact keeps
  · exact keeps

end Rules

variable {costed : Prop} {solver : Solver σ Checked}

/-! ## Computing derivatives -/

theorem problem_keeps (defined : solver.Defined costed) :
    Keeps costed solver problem Problem.Defined := by
  unfold problem
  refine keeps_get_bind ?_
  split
  · exact keeps_throw defined (by simp)
  · exact keeps_throw defined (by simp)
  · next found given _ => exact keeps_pure defined (defined.problem found given)

theorem lossResiduals_keeps (defined : solver.Defined costed) :
    Keeps costed solver lossResiduals Vec.Defined := by
  unfold lossResiduals
  refine keeps_get_bind (keeps_ite (fun _ => ?_) fun _ => ?_)
  · refine keeps_attempt_bind defined (defined.loss.gradientInto defined.residuals _)
      fun slopes slopesDefined => keeps_modify_bind (keeps_pure ?_ slopesDefined)
    exact { defined with lossGradient := slopesDefined }
  · exact keeps_pure defined defined.residuals

theorem yields_checkShape (rows : Nat) (columns : Int) (jacobian : Operand Checked) :
    Yields (fun _ => True) (checkShape rows columns jacobian) := by
  unfold checkShape
  dsimp only
  split
  · exact trivial
  · exact nofun

theorem deriveWhole_keeps (defined : solver.Defined costed) {jacobian : Derivative Checked}
    (jacobianDefined : jacobian.Defined) :
    Keeps costed solver (deriveWhole jacobian) fun _ => True := by
  unfold deriveWhole
  cases jacobian with
  | split left right => exact keeps_throw defined (by simp)
  | whole columns =>
      refine keeps_get_bind ?_
      refine keeps_attempt_bind defined (yields_checkShape _ _ columns) fun _ _ => ?_
      have updated := defined.normal.update jacobianDefined
      refine (keeps_changeNormal defined updated).bind fun _ after defined _ => ?_
      refine (lossResiduals_keeps defined).bind fun slopes after defined slopesDefined => ?_
      have columnsDefined : columns.Defined := jacobianDefined
      refine keeps_attempt_bind defined (columnsDefined.transposeMul (Operand.defined_ofVec
        slopesDefined)) fun product productDefined => ?_
      refine keeps_attempt_bind defined (yields_fit fun _ filled =>
        Vec.Defined.fill? productDefined.toTensor filled) fun gradient gradientDefined => ?_
      exact keeps_modify { defined with gradient := gradientDefined }

theorem deriveSplit_keeps (defined : solver.Defined costed) {jacobian : Derivative Checked}
    (jacobianDefined : jacobian.Defined) :
    Keeps costed solver (deriveSplit jacobian) fun _ => True := by
  unfold deriveSplit
  refine keeps_attempt_bind defined jacobianDefined.blocks fun (left, right) blocks => ?_
  refine keeps_get_bind ?_
  refine keeps_attempt_bind defined left.yields_width fun leftWidth _ => ?_
  refine keeps_attempt_bind defined (yields_checkShape _ _ left) fun _ _ => ?_
  refine keeps_attempt_bind defined (yields_checkShape _ _ right) fun _ _ => ?_
  have halves : (Derivative.split left right).Defined := blocks
  have updated := defined.normal.update halves
  refine (keeps_changeNormal defined updated).bind fun _ after defined _ => ?_
  refine (lossResiduals_keeps defined).bind fun slopes after defined slopesDefined => ?_
  refine keeps_attempt_bind defined (SplitNormal.yields_gradient blocks.1 blocks.2 slopesDefined _)
    fun gradient gradientDefined => ?_
  exact keeps_modify { defined with gradient := gradientDefined }

/-- Factors are chosen from an interval of positive numbers. -/
theorem pos_scalingFactor {settings : Settings Checked} (rescales : settings.Rescales)
    (rescaling : settings.rescaling = true) {entry : Checked} (defined : entry.Defined) :
    0.0 < scalingFactor settings entry := by
  obtain ⟨positive, interval⟩ := rescales rescaling
  exact defined.sqrt_abs.clamp_pos positive interval

theorem rescale_keeps (defined : solver.Defined costed)
    (rescaling : solver.settings.rescaling = true) :
    Keeps costed solver rescale fun _ => True := by
  unfold rescale
  refine keeps_get_bind ?_
  refine keeps_attempt_bind defined (defined.normal.diagonalInto _)
    fun diagonal diagonalDefined => ?_
  have positive : Vec.Positive (diagonal.map (scalingFactor solver.settings)) := by
    intro factor member
    obtain ⟨entry, inside, rfl⟩ := List.mem_map.mp member
    exact pos_scalingFactor defined.rescales rescaling (diagonalDefined entry inside)
  have scaled := { defined with scaling := positive : Defined { solver with
    scaling := diagonal.map (scalingFactor solver.settings) } costed }
  refine keeps_modify_bind ?_
  refine keeps_attempt_bind scaled (yields_fit fun _ made => defined.gradient.divided positive made)
    fun gradient gradientDefined => ?_
  refine keeps_modify_bind (keeps_changeNormal ?_ (defined.normal.divide positive))
  exact { scaled with gradient := gradientDefined }

theorem keepDiagonal_keeps (defined : solver.Defined costed) :
    Keeps costed solver keepDiagonal fun _ => True := by
  unfold keepDiagonal
  refine keeps_get_bind ?_
  refine keeps_attempt_bind defined (defined.normal.diagonalInto _)
    fun diagonal diagonalDefined => ?_
  refine keeps_modify_bind (keeps_ite (fun _ => keeps_throw_bind ?_ (by simp)) fun _ => ?_)
  · exact { defined with plainDiagonal := diagonalDefined }
  · refine keeps_modify_bind (keeps_return ?_ _)
    exact { defined with plainDiagonal := diagonalDefined }

theorem prepareSearch_keeps (defined : solver.Defined costed) :
    Keeps costed solver prepareSearch fun _ => True := by
  unfold prepareSearch
  refine keeps_get_bind (keeps_ite (fun _ => keeps_throw_bind defined (by simp)) fun _ => ?_)
  refine keeps_ite (fun _ => keeps_return defined _) fun _ => ?_
  refine keeps_ite (fun rescaling => ?_) fun _ => keepDiagonal_keeps defined
  exact (rescale_keeps defined rescaling).bind fun _ _ defined _ => keepDiagonal_keeps defined

theorem updateDerivatives_keeps (defined : solver.Defined costed) :
    Keeps costed solver updateDerivatives fun _ => True := by
  unfold updateDerivatives
  refine keeps_get_bind ?_
  split
  · exact keeps_throw_bind defined (by simp)
  · refine (problem_keeps defined).bind fun problem after defined' problemDefined => ?_
    refine (keeps_evaluate defined' (problemDefined.jacobian _ defined.x)).bind
      fun jacobian after defined jacobianDefined => ?_
    exact (deriveWhole_keeps defined jacobianDefined).bind fun _ _ defined _ =>
      prepareSearch_keeps defined
  · refine (problem_keeps defined).bind fun problem after defined' problemDefined => ?_
    refine (keeps_evaluate defined' (problemDefined.jacobian _ defined.x)).bind
      fun jacobian after defined jacobianDefined => ?_
    exact (deriveSplit_keeps defined jacobianDefined).bind fun _ _ defined _ =>
      prepareSearch_keeps defined

/-! ## Trying a step -/

theorem defined_dampedEntry {settings : Settings Checked} (defined : settings.Defined)
    {damping entry : Checked} (dampingDefined : damping.Defined) (entryDefined : entry.Defined) :
    (dampedEntry settings damping entry).Defined := by
  have clamped : (Scalar.clamp settings.diagonalMin settings.diagonalMax
      (Scalar.abs entry)).Defined :=
    .clamp defined.diagonalMin defined.diagonalMax (defined_abs.mpr entryDefined)
  simp [dampedEntry, clamped, dampingDefined, defined.mixture]

theorem computeStep_keeps [Spectral Checked] (defined : solver.Defined costed)
    {damping : Checked} {gradient out : Vec Checked} (dampingDefined : damping.Defined)
    (gradientDefined : gradient.Defined) (outDefined : out.Defined) :
    Keeps costed solver (computeStep damping gradient out) fun found => Vec.Defined found.1 := by
  unfold computeStep
  refine keeps_get_bind ?_
  have entries : Vec.Defined
      (solver.plainDiagonal.map (dampedEntry solver.settings damping)) :=
    defined.plainDiagonal.map fun _ => defined_dampedEntry defined.settings dampingDefined
  refine keeps_attempt_bind defined (yields_fit fun _ filled => entries.fill? filled)
    fun diagonal diagonalDefined => keeps_modify_bind ?_
  have damped := { defined with dampedDiagonal := diagonalDefined : Defined { solver with
    dampedDiagonal := diagonal } costed }
  refine (keeps_changeNormal damped (defined.normal.setDiagonal diagonalDefined)).bind
    fun _ after defined _ => ?_
  refine keeps_get_bind ?_
  refine keeps_attempt_bind defined defined.normal.prepare fun (normal, failure?) prepared => ?_
  have readied := defined.withNormal prepared
  refine keeps_modify_bind ?_
  cases failure? with
  | some failure =>
      exact (keeps_report readied failure.events).bind fun _ _ defined _ =>
        keeps_pure defined outDefined
  | none =>
      refine keeps_attempt_bind readied
        (NormalMatrix.Defined.solve prepared gradientDefined outDefined)
        fun (solution, failure?) solved => ?_
      cases failure? with
      | some failure =>
          exact (keeps_report readied failure.events).bind fun _ _ defined _ =>
            keeps_pure defined solved
      | none =>
          exact keeps_pure readied (Vec.Defined.map solved fun _ => defined_neg.mpr)

theorem Defined.predictedReduction (defined : solver.Defined costed) {step : Vec Checked}
    (stepDefined : step.Defined) : Yields Checked.Defined (solver.predictedReduction step) := by
  refine yields_fit_bind (fun slope found => defined.gradient.dot? stepDefined found)
    fun slope slopeDefined => ?_
  refine (defined.normal.quadraticForm stepDefined).bind fun curvature curvatureDefined => ?_
  have half : (0.5 * curvature : Checked).Defined :=
    defined_mul.mpr ⟨defined_literal _ _ _, curvatureDefined⟩
  exact defined_sub.mpr ⟨defined_neg.mpr slopeDefined, half⟩

theorem Defined.unscale (defined : solver.Defined costed) {step : Vec Checked}
    (stepDefined : step.Defined) : Yields Vec.Defined (solver.unscale step) := by
  unfold Solver.unscale
  split
  · exact yields_fit fun _ made => stepDefined.divided defined.scaling made
  · exact stepDefined

theorem propose_keeps [Spectral Checked] (defined : solver.Defined costed) :
    Keeps costed solver propose fun predicted? =>
      ∀ predicted, predicted? = some predicted → predicted.Defined := by
  unfold propose
  refine keeps_get_bind ?_
  refine (computeStep_keeps defined defined.damping defined.gradient defined.step).bind
    fun (step, found) after defined stepDefined => keeps_modify_bind ?_
  have stepped := { defined with step := stepDefined : Defined { after with step := step } costed }
  refine keeps_ite (fun _ => keeps_pure stepped nofun) fun _ => keeps_get_bind ?_
  refine keeps_attempt_bind stepped (stepped.predictedReduction stepDefined)
    fun predicted predictedDefined => keeps_get_bind ?_
  refine keeps_attempt_bind stepped (stepped.unscale stepDefined)
    fun unscaled unscaledDefined => keeps_modify_bind (keeps_pure ?_ fun found same => ?_)
  · exact { stepped with step := unscaledDefined }
  · exact Option.some.inj same ▸ predictedDefined

theorem residualsAt_keeps (defined : solver.Defined costed) {x : Vec Checked}
    (pointDefined : x.Defined) : Keeps costed solver (residualsAt x) Vec.Defined := by
  refine (problem_keeps defined).bind fun problem after defined problemDefined => ?_
  refine (keeps_evaluate defined (problemDefined.residuals x pointDefined)).bind
    fun answer after defined answerDefined => ?_
  exact keeps_pure defined answerDefined

theorem costOf_keeps (defined : solver.Defined costed) {residuals : Vec Checked}
    (residualsDefined : residuals.Defined) :
    Keeps costed solver (costOf residuals) Checked.Defined :=
  keeps_get_bind (keeps_attempt defined (defined.loss.cost residualsDefined))

theorem evaluateCandidate_keeps (defined : solver.Defined costed) :
    Keeps costed solver evaluateCandidate Checked.Defined := by
  unfold evaluateCandidate
  refine keeps_get_bind ?_
  have sum (x y : Checked) (first : x.Defined) (second : y.Defined) : (x + y).Defined :=
    defined_add.mpr ⟨first, second⟩
  refine keeps_attempt_bind defined
    (yields_fit fun _ made => defined.x.combine? defined.step sum made)
    fun candidate candidateDefined => keeps_modify_bind ?_
  have moved := { defined with candidate := candidateDefined : Defined { solver with
    candidate := candidate } costed }
  refine (residualsAt_keeps moved candidateDefined).bind
    fun residuals after defined residualsDefined => keeps_get_bind ?_
  refine keeps_attempt_bind defined (yields_fit fun _ filled => residualsDefined.fill? filled)
    fun stored storedDefined => keeps_modify_bind (costOf_keeps ?_ storedDefined)
  exact { defined with candidateResiduals := storedDefined }

theorem yields_dampingFactor {ratio : Checked} (defined : ratio.Defined) :
    Yields Checked.Defined (dampingFactor ratio) := by
  have base : (2.0 * ratio - 1.0).Defined := by simp [defined]
  have three : (0.0 : Checked) < 3.0 := pos_iff.mpr ⟨3, by norm_num, literal_three⟩
  have least : (1.0 / 3.0 : Checked).Defined := (defined_literal 10 1 true).div_pos three
  unfold dampingFactor
  split
  · exact nofun
  · next power found =>
      have powerDefined : power.Defined := by
        unfold Scalar.cube? at found
        dsimp only at found
        split at found
        · cases found
        · cases found
          exact defined_mul.mpr ⟨defined_mul.mpr ⟨base, base⟩, base⟩
      have factor : (1.0 - power).Defined := by simp [powerDefined]
      dsimp only
      split
      · exact factor
      · exact least

theorem lowerDamping_keeps (defined : solver.Defined costed) {ratio : Checked}
    (ratioDefined : ratio.Defined) :
    Keeps costed solver (lowerDamping ratio) fun _ => True := by
  refine keeps_attempt_bind defined (yields_dampingFactor ratioDefined)
    fun factor factorDefined => keeps_modify ?_
  exact { defined with
    damping := defined_mul.mpr ⟨defined.damping, factorDefined⟩
    growth := defined_literal _ _ _ }

theorem raiseDamping_keeps (defined : solver.Defined costed) :
    Keeps costed solver raiseDamping fun _ => True :=
  keeps_modify { defined with
    damping := defined_mul.mpr ⟨defined.damping, defined.growth⟩
    growth := defined_mul.mpr ⟨defined.growth, defined_literal _ _ _⟩ }

theorem reportProgress_keeps (defined : solver.Defined costed) (candidateCost ratio : Checked) :
    Keeps costed solver (reportProgress candidateCost ratio) fun _ => True := by
  unfold reportProgress
  refine keeps_get_bind (keeps_ite (fun _ => ?_) fun _ => keeps_return defined _)
  exact keeps_attempt_bind defined (yields_fit fun _ _ => trivial : Yields (fun _ => True) _)
    fun _ _ => keeps_report defined _

theorem settle_keeps (defined : solver.Defined costed) {residuals : Vec Checked}
    (residualsDefined : residuals.Defined) :
    Keeps costed solver (settle residuals) fun _ => True := by
  refine keeps_get_bind ?_
  refine (keeps_evaluate defined (defined.loss.settle residualsDefined)).bind
    fun (loss, changed) after defined settled => keeps_modify_bind (keeps_return ?_ _)
  exact { defined with loss := settled }

theorem accept_keeps (defined : solver.Defined costed) {candidateCost : Checked}
    (costDefined : candidateCost.Defined) :
    Keeps costed solver (accept candidateCost) fun _ => True := by
  unfold accept
  refine keeps_modify_bind ?_
  have exchanged := { defined with
    x := defined.candidate
    candidate := defined.x
    residuals := defined.candidateResiduals
    candidateResiduals := defined.residuals
    cost := fun _ => costDefined : Defined { solver with
      x := solver.candidate
      candidate := solver.x
      residuals := solver.candidateResiduals
      candidateResiduals := solver.residuals
      cost := candidateCost } costed }
  refine keeps_get_bind ?_
  refine (settle_keeps exchanged exchanged.residuals).bind fun changed after defined _ => ?_
  refine keeps_ite (fun _ => keeps_get_bind ?_) fun _ => keeps_modify { defined with }
  refine (costOf_keeps defined defined.residuals).bind fun cost after defined costDefined => ?_
  refine keeps_modify_bind (keeps_modify ?_)
  exact { defined with cost := fun _ => costDefined }

theorem takeOrDrop_keeps (defined : solver.Defined costed) {candidateCost : Checked}
    (costDefined : candidateCost.Defined) (ratio previous : Checked) (improved : Bool) :
    Keeps costed solver (takeOrDrop candidateCost ratio previous improved) fun _ => True := by
  unfold takeOrDrop
  refine keeps_get_bind (keeps_ite (fun _ => keeps_throw_bind defined (by simp)) fun _ => ?_)
  refine (reportProgress_keeps defined _ _).bind fun _ after defined _ => ?_
  refine keeps_ite (fun _ => ?_) fun _ => keeps_get_bind (keeps_return defined _)
  refine (accept_keeps defined costDefined).bind fun _ after defined _ => keeps_get_bind ?_
  refine keeps_ite (fun _ => keeps_return defined _) fun _ => ?_
  refine keeps_get_bind (keeps_attempt defined ?_)
  unfold costSettles
  split
  · exact nofun
  · exact trivial

/-- The ratio is used where the cost fell, so that both costs are numbers. -/
theorem judge_keeps (defined : solver.Defined costed) {candidateCost actual predicted : Checked}
    (candidateDefined : candidateCost.Defined)
    (actualDefined : solver.cost.Defined → actual.Defined)
    (predictedDefined : predicted.Defined) (nonzero : ¬ (predicted == 0.0) = true) :
    Keeps costed solver (judge candidateCost actual predicted) fun _ => True := by
  have ratio : Yields (fun ratio => solver.cost.Defined → ratio.Defined)
      (reductionRatio actual predicted) := by
    unfold reductionRatio
    rw [if_neg nonzero]
    exact fun known => defined_div.mpr ⟨actualDefined known, predictedDefined, nonzero⟩
  unfold judge
  refine keeps_attempt_bind defined ratio fun ratio ratioDefined => keeps_get_bind ?_
  dsimp only
  refine keeps_ite (fun improved => ?_) fun _ => ?_
  · have known := (defined_of_lt (of_decide_eq_true improved)).2
    exact (lowerDamping_keeps defined (ratioDefined known)).bind fun _ _ defined _ =>
      takeOrDrop_keeps defined candidateDefined ratio _ _
  · exact (raiseDamping_keeps defined).bind fun _ _ defined _ =>
      takeOrDrop_keeps defined candidateDefined ratio _ _

theorem consider_keeps (defined : solver.Defined costed) {predicted : Checked}
    (predictedDefined : predicted.Defined) :
    Keeps costed solver (consider predicted) fun _ => True := by
  unfold consider
  refine (evaluateCandidate_keeps defined).bind fun cost after defined costDefined => ?_
  refine keeps_ite (fun _ => keeps_throw_bind defined (by simp)) fun _ => keeps_get_bind ?_
  refine keeps_ite (fun _ => keeps_get_bind ?_) fun differs => ?_
  · exact (keeps_report defined _).bind fun _ _ defined _ => keeps_return defined _
  · have nonzero : ¬ (predicted == 0.0) = true := by
      intro zero
      rw [zero, Bool.or_true] at differs
      exact differs rfl
    exact judge_keeps defined costDefined (fun known => defined_sub.mpr ⟨known, costDefined⟩)
      predictedDefined nonzero

theorem recoverFromFailure_keeps (defined : solver.Defined costed) :
    Keeps costed solver recoverFromFailure fun _ => True := by
  unfold recoverFromFailure
  refine keeps_get_bind (keeps_ite (fun _ => keeps_throw defined (by simp)) fun _ => ?_)
  have raised : (solver.damping * 4.0).Defined :=
    defined_mul.mpr ⟨defined.damping, defined_literal _ _ _⟩
  refine keeps_modify_bind ((keeps_report ?_ _).bind fun _ _ defined _ => ?_)
  · exact { defined with damping := raised }
  · exact keeps_get_bind (keeps_return defined _)

theorem tryStep_keeps [Spectral Checked] (defined : solver.Defined costed) :
    Keeps costed solver tryStep fun _ => True := by
  rw [tryStep_eq]
  refine (propose_keeps defined).bind fun predicted? after defined predictedDefined => ?_
  cases predicted? with
  | none => exact recoverFromFailure_keeps defined
  | some predicted => exact consider_keeps defined (predictedDefined predicted rfl)

theorem conclude_keeps (defined : solver.Defined costed) (converged : Bool) :
    Keeps costed solver (iterate.conclude converged) fun _ => True := by
  unfold iterate.conclude
  refine keeps_ite (fun _ => keeps_modify_bind (keeps_return ?_ _)) fun _ => keeps_return defined _
  exact { defined with }

/-- One call of a search keeps to numbers and does not divide by zero. -/
theorem iterate_keeps [Spectral Checked] (defined : solver.Defined costed) :
    Keeps costed solver iterate fun _ => True := by
  unfold iterate
  refine keeps_modify_bind (keeps_get_bind ?_)
  split
  · refine keeps_modify_bind ((updateDerivatives_keeps ?_).bind fun converged _ defined _ => ?_)
    · exact { defined with }
    · exact conclude_keeps defined converged
  · refine keeps_modify_bind ((tryStep_keeps ?_).bind fun converged _ defined _ => ?_)
    · exact { defined with }
    · exact conclude_keeps defined converged
  · refine keeps_return ?_ _
    exact { defined with }

end Solver

end DampedLeastSquares
