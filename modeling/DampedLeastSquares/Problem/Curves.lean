import DampedLeastSquares.Call

/-!
# Curves

Residuals and Jacobians of small problems with known solutions: a curved
valley, a badly scaled system, and an exponential through samples.
-/

set_option autoImplicit false

namespace DampedLeastSquares

variable {α : Type} [Scalar α]

def parameter (x : Vec α) (position : Nat) : Except (Fault α) α := Fault.present x[position]?

def DenseMatrix.ofPairs (rows : List (α × α)) : DenseMatrix α where
  rows := rows.map fun row => [row.1, row.2]
  width := 2
  rectangular := by
    intro row member
    obtain ⟨_, _, rfl⟩ := List.mem_map.mp member
    rfl

namespace Rosenbrock

/-- The valley: ten times the distance from a parabola, and the distance of the
first parameter from one. -/
def residuals (x : Vec α) : Except (Fault α) (Vec α) := do
  let second ← parameter x 1
  let first ← parameter x 0
  return [10.0 * (second - first * first), 1.0 - first]

/-- The derivative of the valley, which depends on the first parameter only. -/
def jacobian (x : Vec α) : Except (Fault α) (DenseMatrix α) := do
  let first ← parameter x 0
  return .ofPairs [(-20.0 * first, 10.0), (-1.0, 0.0)]

def optimum : Vec α := [1.0, 1.0]

end Rosenbrock

namespace Brown

/-- Two parameters twelve orders of magnitude apart, and their product. -/
def residuals (x : Vec α) : Except (Fault α) (Vec α) := do
  let first ← parameter x 0
  let second ← parameter x 1
  return [first - 1.0e6, second - 2.0e-6, first * second - 2.0]

def jacobian (x : Vec α) : Except (Fault α) (DenseMatrix α) := do
  let second ← parameter x 1
  let first ← parameter x 0
  return .ofPairs [(1.0, 0.0), (0.0, 1.0), (second, first)]

end Brown

namespace Exponential

/-- The curve `a * exp (b * t)` less the samples, at all times. -/
def residuals (times samples : Vec α) (x : Vec α) : Except (Fault α) (Vec α) := do
  let factor ← parameter x 0
  let rate ← parameter x 1
  let values := times.map fun time => factor * Scalar.exp (rate * time)
  Fault.fit (Vec.combine? (· - ·) values samples)

/-- The derivative of the curve, which does not depend on the samples. -/
def jacobian (times : Vec α) (x : Vec α) : Except (Fault α) (DenseMatrix α) := do
  let rate ← parameter x 1
  let factor ← parameter x 0
  return .ofPairs (times.map fun time =>
    let growth := Scalar.exp (rate * time)
    (growth, factor * time * growth))

end Exponential

end DampedLeastSquares
