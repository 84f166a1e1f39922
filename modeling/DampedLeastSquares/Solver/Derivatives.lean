import DampedLeastSquares.Solver.Step

/-!
# Derivatives at the parameters

The gradient of the cost and the normal matrix, both from one evaluation of the
Jacobian. With rescaling, parameters are measured in units of the square root
of the normal matrix's diagonal, and gradient and matrix are kept in these
units.
-/

set_option autoImplicit false

namespace DampedLeastSquares.Solver

variable {σ α : Type} [Scalar α]

/-- The vector that the transposed Jacobian is applied to: the residuals, or the
gradient of the loss where that differs. -/
def lossResiduals : Action σ α (Vec α) := do
  let solver ← get
  if solver.loss.transformsGradient then
    let slopes ← attempt (solver.loss.gradientInto solver.lossGradient.length solver.residuals)
    modify fun solver => { solver with lossGradient := slopes }
    return slopes
  else return solver.residuals

def checkShape (rows : Nat) (columns : Int) (jacobian : Operand α) :
    Except (Fault α) Unit :=
  let expected : List Int := [rows, columns]
  if jacobian.shape.map Int.ofNat = expected then .ok ()
  else .error (.refused (.jacobianShape expected jacobian.shape))

def deriveWhole (jacobian : Derivative α) : Action σ α Unit := do
  match jacobian with
  | .split _ _ => throw .unsupported
  | .whole columns =>
      let solver ← get
      attempt (checkShape solver.residuals.length solver.x.length columns)
      changeNormal fun normal => normal.update (.whole columns)
      let slopes ← lossResiduals
      let product ← attempt (columns.transposeMul (.ofVec slopes))
      let gradient ← attempt
        (Fault.fit (Vec.fill? solver.gradient.length product.toTensor.flatten))
      modify fun solver => { solver with gradient := gradient }

def deriveSplit (jacobian : Derivative α) : Action σ α Unit := do
  let (left, right) ← attempt jacobian.blocks
  let solver ← get
  let leftWidth ← attempt left.width
  attempt (checkShape solver.residuals.length leftWidth left)
  attempt (checkShape solver.residuals.length (solver.x.length - leftWidth) right)
  changeNormal fun normal => normal.update (.split left right)
  let slopes ← lossResiduals
  let gradient ← attempt
    (SplitNormal.gradient left right slopes (some solver.gradient.length))
  modify fun solver => { solver with gradient := gradient }

def scalingFactor (settings : Settings α) (entry : α) : α :=
  Scalar.clamp settings.scalingMin settings.scalingMax (Scalar.sqrt (Scalar.abs entry))

/-- Choose the scaling and bring gradient and normal matrix to it. -/
def rescale : Action σ α Unit := do
  let solver ← get
  let diagonal ← attempt (solver.normal.diagonalInto solver.scaling.length)
  let scaling := diagonal.map (scalingFactor solver.settings)
  modify fun solver => { solver with scaling := scaling }
  let gradient ← attempt (Fault.fit (Vec.combine? (· / ·) solver.gradient scaling))
  modify fun solver => { solver with gradient := gradient }
  changeNormal fun normal => normal.divide scaling

/-- Compute the derivatives at the parameters. The search has converged if the
gradient vanishes; otherwise a step is looked for next. -/
def updateDerivatives : Action σ α Bool := do
  let solver ← get
  match solver.form with
  | .undefined => throw .undefined
  | .whole => deriveWhole (← evaluate ((← problem).jacobian solver.x))
  | .split => deriveSplit (← evaluate ((← problem).jacobian solver.x))
  let solver ← get
  if !solver.gradient.allFinite then throw (.breakdown .gradient)
  if solver.gradientVanishes solver.gradient then return true
  else
    if solver.settings.rescaling then rescale
    let solver ← get
    -- later steps damp this diagonal, each from its entries as they are now
    let diagonal ← attempt (solver.normal.diagonalInto solver.plainDiagonal.length)
    modify fun solver => { solver with plainDiagonal := diagonal }
    if !diagonal.allFinite then throw (.breakdown .hessianDiagonal)
    modify fun solver => { solver with phase := .search }
    return false

end DampedLeastSquares.Solver
