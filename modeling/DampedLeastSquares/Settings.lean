import DampedLeastSquares.Fault
import DampedLeastSquares.Scalar

/-!
# Settings

What a search can be tuned with: when to stop, how to rescale the parameters,
and how to damp. Settings are plain values; `check` says which of them a solver
takes. A comparison with an undefined value fails, so `check` refuses only what
it can see to be wrong.
-/

set_option autoImplicit false

namespace DampedLeastSquares

structure DescentSettings (α : Type) where
  /-- The search ends at a gradient of at most this size. -/
  gradientTolerance : α
  /-- The search ends at a relative change of the cost of at most this size. -/
  costTolerance : α
  /-- Parameters are rescaled by the diagonal of the normal matrix. -/
  rescaling : Bool
  scalingMin : α
  scalingMax : α

structure Settings (α : Type) extends DescentSettings α where
  initialDamping : α
  /-- The share of the identity in the damping; the rest is the diagonal. -/
  mixture : α
  diagonalMin : α
  diagonalMax : α

variable {α : Type} [Scalar α]

/-- Equal, or both undefined. -/
def Scalar.same (left right : α) : Bool :=
  left == right || (Scalar.isNaN left && Scalar.isNaN right)

namespace DescentSettings

/-- The settings that are used unless others are given. -/
def standard : DescentSettings α where
  gradientTolerance := 1.0e-8
  costTolerance := 1.0e-12
  rescaling := false
  scalingMin := 1.0e-5
  scalingMax := 1.0e5

/-- Refuse negative tolerances, and an interval of scaling factors that is
needed and is empty or not positive. -/
def check (settings : DescentSettings α) : Except (Fault α) Unit :=
  if settings.gradientTolerance < 0.0 ∨ settings.costTolerance < 0.0 then
    .error (.refused (.tolerances settings.costTolerance settings.gradientTolerance))
  else if settings.rescaling ∧
      ¬ (0.0 < settings.scalingMin ∧ settings.scalingMin ≤ settings.scalingMax) then
    .error (.refused (.scalingClamp settings.scalingMin settings.scalingMax))
  else .ok ()

def same (left right : DescentSettings α) : Bool :=
  Scalar.same left.gradientTolerance right.gradientTolerance &&
    Scalar.same left.costTolerance right.costTolerance &&
    left.rescaling == right.rescaling &&
    Scalar.same left.scalingMin right.scalingMin &&
    Scalar.same left.scalingMax right.scalingMax

end DescentSettings

namespace Settings

def standard : Settings α where
  toDescentSettings := DescentSettings.standard
  initialDamping := 1.0e-3
  mixture := 1.0e-4
  diagonalMin := 1.0e-6
  diagonalMax := 1.0e32

/-- Refuse what the descent settings refuse, a mixture outside the unit
interval, negative damping, and an empty interval of diagonal entries. -/
def check (settings : Settings α) : Except (Fault α) Unit := do
  settings.toDescentSettings.check
  if ¬ (0.0 ≤ settings.mixture ∧ settings.mixture ≤ 1.0) then
    .error (.refused (.mixture settings.mixture))
  else if settings.initialDamping < 0.0 then
    .error (.refused (.initialDamping settings.initialDamping))
  else if settings.diagonalMax < settings.diagonalMin then
    .error (.refused (.diagonalClamp settings.diagonalMin settings.diagonalMax))
  else .ok ()

def same (left right : Settings α) : Bool :=
  left.toDescentSettings.same right.toDescentSettings &&
    Scalar.same left.initialDamping right.initialDamping &&
    Scalar.same left.mixture right.mixture &&
    Scalar.same left.diagonalMin right.diagonalMin &&
    Scalar.same left.diagonalMax right.diagonalMax

end Settings

end DampedLeastSquares
