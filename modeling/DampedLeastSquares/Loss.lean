import DampedLeastSquares.Call

/-!
# Losses

A loss maps residuals to a cost. Losses other than the squared one limit the
influence of large residuals, and their gradient with respect to the residuals
takes the place of the residuals wherever the gradient of the cost is formed.
A loss may change when a state is accepted: it is then settled anew on that
state's residuals.
-/

set_option autoImplicit false

namespace DampedLeastSquares

/-- How residuals are turned into a cost. `σ` is the state of the function that
chooses weights. -/
inductive LossShape (σ α : Type) where
  | squared
  | huber (threshold : α)
  | smoothHuber (threshold : α)
  | cauchy (threshold : α)
  | tukey (threshold : α)
  | weighted (weights : Vec α)
  /-- Weights chosen from the residuals and the previous weights. -/
  | reweighted (choose : Vec α → Vec α → Call σ α (Vec α)) (weights : Vec α)
  /-- The squared loss, counting how often it was settled. -/
  | counted (times : Nat)
  /-- No cost is defined. -/
  | undefined

/-- A loss and the number of residuals it was prepared for, which only losses with
weights look at. -/
structure Loss (σ α : Type) where
  shape : LossShape σ α
  functions : Int

namespace Loss

variable {σ α : Type} [Scalar α]

/-- The loss that is used unless another is given. -/
def squared : Loss σ α := ⟨.squared, 0⟩

def weighted (weights : Vec α) : Loss σ α := ⟨.weighted weights, weights.length⟩

/-- Weights chosen anew at each accepted state. -/
def reweighted (choose : Vec α → Vec α → Call σ α (Vec α)) : Loss σ α :=
  ⟨.reweighted choose [], 0⟩

def weights? (loss : Loss σ α) : Option (Vec α) :=
  match loss.shape with
  | .weighted weights => some weights
  | .reweighted _ weights => some weights
  | _ => none

/-- Whether the gradient differs from the residuals, so that it has to be
computed. -/
def transformsGradient (loss : Loss σ α) : Bool :=
  match loss.shape with
  | .squared => false
  | .counted _ => false
  | _ => true

/-- The largest magnitude, zero if there is no entry. -/
def size (residuals : Vec α) : α := (Vec.maxAbs? residuals).getD 0.0

/-- Half the squared length of `scaled residuals`, where the residuals are
brought to size one before they are squared. -/
def halfSquare (scaled : Vec α → Option (Vec α)) (residuals : Vec α) : Except (Fault α) α :=
  let largest := size residuals
  if largest == 0.0 then .ok 0.0
  else do
    let reduced ← Fault.fit (scaled (residuals.map (· / largest)))
    return 0.5 * largest * Vec.dot reduced reduced * largest

/-- Half the square up to the threshold, and a straight line beyond. -/
def huberCost (threshold : α) (residuals : Vec α) : α :=
  let sizes := residuals.map Scalar.abs
  let inner := sizes.filter (· ≤ threshold)
  let outer := sizes.filter fun size => !decide (size ≤ threshold)
  Vec.sum (inner.map fun size => 0.5 * Scalar.square size) +
    Vec.sum (outer.map fun size => threshold * (size - 0.5 * threshold))

/-- A hyperbola with the slope of the square at zero and a straight line far out. -/
def smoothHuberCost (threshold : α) (residuals : Vec α) : α :=
  threshold * threshold * Vec.sum (residuals.map fun residual =>
    Scalar.sqrt (1.0 + Scalar.square (residual / threshold)) - 1.0)

/-- The logarithm of one more than the square. -/
def cauchyCost (threshold : α) (residuals : Vec α) : α :=
  threshold * threshold * Vec.sum (residuals.map fun residual =>
    Scalar.logOnePlus (Scalar.square (residual / threshold)))

/-- A bounded cost, constant beyond the threshold. -/
def tukeyCost (threshold : α) (residuals : Vec α) : α :=
  let sizes := residuals.map Scalar.abs
  let inner := sizes.filter (· ≤ threshold)
  let outer := sizes.filter fun size => !decide (size ≤ threshold)
  let factor := threshold * threshold / 6.0
  factor * Vec.sum (inner.map fun size =>
      1.0 - Scalar.cube (1.0 - Scalar.square (size / threshold))) +
    factor * Scalar.ofNat outer.length

def cost (loss : Loss σ α) (residuals : Vec α) : Except (Fault α) α :=
  match loss.shape with
  | .squared => halfSquare some residuals
  | .counted _ => halfSquare some residuals
  | .huber threshold => .ok (huberCost threshold residuals)
  | .smoothHuber threshold => .ok (smoothHuberCost threshold residuals)
  | .cauchy threshold => .ok (cauchyCost threshold residuals)
  | .tukey threshold => .ok (tukeyCost threshold residuals)
  | .weighted weights => halfSquare (Vec.combine? (· * ·) weights) residuals
  | .reweighted _ weights => halfSquare (Vec.combine? (· * ·) weights) residuals
  | .undefined => .error .undefined

/-- The cost of residuals of any rank. Losses that look for the largest of several
residuals do not take a number alone. -/
def costOf (loss : Loss σ α) (residuals : Operand α) : Except (Fault α) α :=
  match residuals.shape, loss.shape with
  | [], .squared => .error .wrongKind
  | [], .counted _ => .error .wrongKind
  | [], .weighted _ => .error .wrongKind
  | [], .reweighted _ _ => .error .wrongKind
  | _, _ => loss.cost residuals.toTensor.flatten

def huberSlope (threshold residual : α) : α :=
  if Scalar.abs residual ≤ threshold then residual else threshold * Scalar.sign residual

def smoothHuberSlope (threshold residual : α) : α :=
  residual / Scalar.sqrt (1.0 + Scalar.square (residual / threshold))

def cauchySlope (threshold residual : α) : α :=
  2.0 * residual / (1.0 + Scalar.square (residual / threshold))

def tukeySlope (threshold residual : α) : α :=
  let rest := 1.0 - Scalar.square (residual / threshold)
  if Scalar.abs residual ≤ threshold then residual * rest * rest else 0.0

def weightedSlopes (weights residuals : Vec α) : Option (Vec α) :=
  Vec.combine? (· * ·) (weights.map fun weight => weight * weight) residuals

/-- The derivative of the cost with respect to each residual. -/
def gradient (loss : Loss σ α) (residuals : Vec α) : Except (Fault α) (Vec α) :=
  match loss.shape with
  | .squared => .ok residuals
  | .counted _ => .ok residuals
  | .huber threshold => .ok (residuals.map (huberSlope threshold))
  | .smoothHuber threshold => .ok (residuals.map (smoothHuberSlope threshold))
  | .cauchy threshold => .ok (residuals.map (cauchySlope threshold))
  | .tukey threshold => .ok (residuals.map (tukeySlope threshold))
  | .weighted weights => Fault.fit (weightedSlopes weights residuals)
  | .reweighted _ weights => Fault.fit (weightedSlopes weights residuals)
  | .undefined => .error .undefined

def gradientInto (loss : Loss σ α) (length : Nat) (residuals : Vec α) :
    Except (Fault α) (Vec α) := do
  Fault.fit (Vec.fill? length (← loss.gradient residuals))

/-- The gradient at residuals of any rank but zero, which has no entries to write
to. -/
def gradientOf (loss : Loss σ α) (residuals : Operand α) : Except (Fault α) (Vec α) := do
  let entries := residuals.toTensor.flatten
  let slopes ← loss.gradient entries
  if residuals.shape.isEmpty then throw .index
  else Fault.fit (Vec.fill? entries.length slopes)

/-- The gradient written to a new vector, whose length must not be negative. -/
def gradientOfLength (loss : Loss σ α) (length : Int) (residuals : Vec α) :
    Except (Fault α) (Vec α) :=
  if length < 0 then .error .shape else loss.gradientInto length.toNat residuals

/-- Prepare for a number of residuals. Fixed weights must be that many; chosen
weights start at one, and there cannot be fewer than none. -/
def prepare (loss : Loss σ α) (functions : Int) : Except (Fault α) (Loss σ α) :=
  match loss.shape with
  | .weighted weights =>
      if weights.length = functions then .ok ⟨.weighted weights, functions⟩
      else .error (.refused (.weightCount weights.length functions))
  | .reweighted choose _ =>
      if functions < 0 then .error .shape
      else .ok ⟨.reweighted choose (Vec.ones functions.toNat), functions⟩
  | shape => .ok ⟨shape, functions⟩

/-- Settle on the residuals of an accepted state. The answer tells whether costs
computed before have to be computed anew. -/
def settle (loss : Loss σ α) (residuals : Vec α) : Call σ α (Loss σ α × Bool) :=
  match loss.shape with
  | .reweighted choose weights => do
      return (⟨.reweighted choose (← choose residuals weights), loss.functions⟩, true)
  | .counted times => return (⟨.counted (times + 1), loss.functions⟩, false)
  | _ => return (loss, false)

end Loss

end DampedLeastSquares
