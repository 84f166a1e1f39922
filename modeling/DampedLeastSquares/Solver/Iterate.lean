import DampedLeastSquares.Solver.Derivatives

/-!
# One call of the search

A call either computes derivatives or tries one step. A candidate of lower cost
replaces the parameters and multiplies the damping by a third or more, depending
on how well the quadratic model predicted the improvement. Any other candidate is
dropped and raises the damping, each time by twice the previous factor.
-/

set_option autoImplicit false

namespace DampedLeastSquares.Solver

variable {σ α : Type} [Scalar α]

/-- The factor by which an improvement changes the damping, from the ratio of the
actual to the predicted reduction. -/
def dampingFactor (ratio : α) : Except (Fault α) α :=
  match Scalar.cube? (2.0 * ratio - 1.0) with
  | none => .error .overflow
  | some power =>
      let factor := 1.0 - power
      let least := 1.0 / 3.0
      .ok (if least < factor then factor else least)

def reductionRatio (actual predicted : α) : Except (Fault α) α :=
  if predicted == 0.0 then .error .divisionByZero else .ok (actual / predicted)

def lowerDamping (ratio : α) : Action σ α Unit := do
  let factor ← attempt (dampingFactor ratio)
  modify fun solver =>
    { solver with damping := solver.damping * factor, growth := initialGrowth }

def raiseDamping : Action σ α Unit :=
  modify fun solver =>
    { solver with damping := solver.damping * solver.growth, growth := solver.growth * 2.0 }

def reportProgress (candidateCost ratio : α) : Action σ α Unit := do
  let solver ← get
  if solver.verbose then
    let largest ← attempt (Fault.fit (Vec.maxAbs? solver.gradient))
    report [.progress {
      step := solver.fullSteps
      cost := candidateCost
      change := candidateCost - solver.cost
      stepLength := Vec.norm solver.step
      largestGradient := largest
      ratio := ratio
      damping := solver.damping }]

/-- Exchange the state and the candidate, and let the loss settle on the new
residuals. -/
def accept (candidateCost : α) : Action σ α Unit := do
  modify fun solver => { solver with
    x := solver.candidate
    candidate := solver.x
    residuals := solver.candidateResiduals
    candidateResiduals := solver.residuals
    cost := candidateCost }
  -- a loss that changed has another cost at the same residuals
  if ← settle (← get).residuals then
    let cost ← costOf (← get).residuals
    modify fun solver => { solver with cost := cost }
  modify fun solver => { solver with phase := .differentiate, updated := true }

/-- Decide on a candidate from its cost and the two reductions. The answer tells
whether the search has converged. -/
def judge (candidateCost actual predicted : α) : Action σ α Bool := do
  let ratio ← attempt (reductionRatio actual predicted)
  let previous := (← get).cost
  let improved := decide (candidateCost < previous)
  if improved then lowerDamping ratio else raiseDamping
  let solver ← get
  if !Scalar.isFinite solver.damping || !Scalar.isFinite solver.growth then
    throw (.breakdown (.runaway solver.damping solver.growth))
  reportProgress candidateCost ratio
  if improved then
    accept candidateCost
    if (← get).exhausted then return true
    else attempt ((← get).costSettles candidateCost previous)
  else return (← get).exhausted

def recoverFromFailure : Action σ α Bool := do
  let solver ← get
  if solver.settings.mixture == 0.0 then throw (.breakdown .singular)
  else
    let damping := solver.damping * 4.0
    modify fun solver => { solver with damping := damping }
    report [.stepFailed solver.fullSteps damping]
    return (← get).exhausted

def unscale (solver : Solver σ α) (step : Vec α) : Except (Fault α) (Vec α) :=
  if solver.settings.rescaling then Fault.fit (Vec.combine? (· / ·) step solver.scaling)
  else .ok step

/-- Evaluate the parameters one step further. The result is their cost. -/
def evaluateCandidate : Action σ α α := do
  let solver ← get
  let candidate ← attempt (Fault.fit (Vec.combine? (· + ·) solver.x solver.step))
  modify fun solver => { solver with candidate := candidate }
  let residuals ← residualsAt candidate
  let stored ← attempt (Fault.fit (Vec.fill? solver.candidateResiduals.length residuals))
  modify fun solver => { solver with candidateResiduals := stored }
  costOf stored

def tryStep [Spectral α] : Action σ α Bool := do
  let solver ← get
  let (step, found) ← computeStep solver.damping solver.gradient solver.step
  modify fun solver => { solver with step := step }
  if !found then recoverFromFailure
  else
    -- gradient and normal matrix are scaled, so the model is asked before the step is unscaled
    let predicted ← attempt ((← get).predictedReduction step)
    let unscaled ← attempt ((← get).unscale step)
    modify fun solver => { solver with step := unscaled }
    let candidateCost ← evaluateCandidate
    if !Scalar.isFinite candidateCost then
      throw (.breakdown (.candidateCost candidateCost))
    let actual := (← get).cost - candidateCost
    if actual == 0.0 || predicted == 0.0 then
      report [.noReduction (← get).fullSteps]
      return true
    else judge candidateCost actual predicted

/-- Do the work of the current phase. The answer tells whether the search has
converged. -/
def iterate [Spectral α] : Action σ α Bool := do
  modify fun solver => { solver with updated := false }
  match (← get).phase with
  | .differentiate =>
      modify fun solver => { solver with fullSteps := solver.fullSteps + 1 }
      conclude (← updateDerivatives)
  | .search =>
      modify fun solver => { solver with retries := solver.retries + 1 }
      conclude (← tryStep)
  | .converged => return true
where
  /-- Remember that the search has converged. -/
  conclude (converged : Bool) : Action σ α Bool := do
    if converged then modify fun solver => { solver with phase := .converged }
    return converged

end DampedLeastSquares.Solver
