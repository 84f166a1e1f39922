import DampedLeastSquares.Solver.State

/-!
# Damped steps

A step solves the normal equations after the diagonal of their matrix was
raised: by a share of the identity and a share of the diagonal itself, both in
proportion to the damping. The diagonal is overwritten each time from the one
that was kept aside, so dampings never add up.
-/

set_option autoImplicit false

namespace DampedLeastSquares.Solver

variable {σ α : Type} [Scalar α]

/-- The diagonal entry that replaces `entry`: its magnitude moved into the
interval of the settings, plus the damping. -/
def dampedEntry (settings : Settings α) (damping entry : α) : α :=
  let clamped := Scalar.clamp settings.diagonalMin settings.diagonalMax (Scalar.abs entry)
  clamped + damping * (settings.mixture + (1.0 - settings.mixture) * clamped)

/-- Compute a step from a gradient. The first part of the result is what `out`
holds afterwards: the step where there is one, and otherwise whatever the
failed solution left there. -/
def computeStep [Spectral α] (damping : α) (gradient out : Vec α) :
    Action σ α (Vec α × Bool) := do
  let solver ← get
  let entries := solver.plainDiagonal.map (dampedEntry solver.settings damping)
  let diagonal ← attempt (Fault.fit (Vec.fill? solver.dampedDiagonal.length entries))
  modify fun solver => { solver with dampedDiagonal := diagonal }
  changeNormal fun normal => normal.setDiagonal diagonal
  let (normal, failure?) ← attempt (← get).normal.prepare
  modify fun solver => { solver with normal := normal }
  match failure? with
  | some failure =>
      report failure.events
      return (out, false)
  | none =>
      let (solution, failure?) ← attempt (normal.solve gradient out)
      match failure? with
      | some failure =>
          report failure.events
          return (solution, false)
      | none => return (solution.map (- ·), true)

/-- How much the quadratic model of the cost falls along a step. -/
def predictedReduction (solver : Solver σ α) (step : Vec α) : Except (Fault α) α := do
  let slope ← Fault.fit (Vec.dot? solver.gradient step)
  let curvature ← solver.normal.quadraticForm step
  return -slope - 0.5 * curvature

/-- The damping has left the range in which a search makes sense. -/
def exhausted (solver : Solver σ α) : Bool :=
  !Scalar.isFinite solver.damping || decide (dampingLimit ≤ solver.damping) ||
    !Scalar.isFinite solver.growth

/-- There is no parameter to change, or no entry of the gradient exceeds the
tolerance. -/
def gradientVanishes (solver : Solver σ α) (gradient : Vec α) : Bool :=
  match Vec.maxAbs? gradient with
  | none => true
  | some largest => decide (largest ≤ solver.settings.gradientTolerance)

/-- The cost fell by at most the tolerated fraction. A cost that rose is a fault. -/
def costSettles (solver : Solver σ α) (cost previous : α) : Except (Fault α) Bool :=
  if previous < cost then .error (.breakdown .worseCost)
  else .ok (decide (previous - cost ≤ solver.settings.costTolerance * previous))

end DampedLeastSquares.Solver
