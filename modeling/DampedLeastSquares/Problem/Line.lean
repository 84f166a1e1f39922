import DampedLeastSquares.Problem.Curves
import DampedLeastSquares.Problem.Point

/-!
# Lines through points

A line is given by the point of it that is closest to the origin. Its residuals
are the vectors from the line to the points, so they vanish for points on the
line only.
-/

set_option autoImplicit false

namespace DampedLeastSquares.Line

variable {α : Type} [Scalar α]

/-- The vector from the nearest point of the line to a point. -/
def offset (tangent point : Point α) : Point α :=
  let directionX := -tangent.y
  let directionY := tangent.x
  let position := (directionX * (point.x - tangent.x) + directionY * (point.y - tangent.y)) /
    (directionX * directionX + directionY * directionY)
  ⟨point.x - (tangent.x + position * directionX), point.y - (tangent.y + position * directionY)⟩

def residuals (points : DenseMatrix α) (x : Vec α) : Except (Fault α) (Vec α) := do
  let tangent : Point α := ⟨← parameter x 0, ← parameter x 1⟩
  return Point.interleave ((← Point.ofRows points).map (offset tangent))

/-- A point of the line, by its position along the direction `(y, -x)`. -/
def pointAt (tangent : Point α) (position : α) : Point α :=
  ⟨tangent.x + position * tangent.y, tangent.y - position * tangent.x⟩

end DampedLeastSquares.Line
