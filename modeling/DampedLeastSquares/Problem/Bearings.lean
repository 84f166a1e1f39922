import DampedLeastSquares.Problem.Point
import DampedLeastSquares.Vector

/-!
# Bearings between cameras and landmarks

Cameras observe landmarks in the plane, each observation being the slope angle
of the line from one to the other. The parameters are the positions of all
cameras followed by those of all landmarks. Residual `i * L + j` belongs to
camera `i` and landmark `j` of `L` landmarks and depends on these two alone, so
both blocks of the Jacobian are sparse.
-/

set_option autoImplicit false

namespace DampedLeastSquares.Bearings

structure Scene (α : Type) where
  cameras : List (Point α)
  landmarks : List (Point α)

/-- The scene that parameters describe, `cameras` of whose points are cameras. A
negative number leaves that many landmarks at the end. -/
def Scene.decode {α : Type} (cameras : Int) (x : Vec α) : Except (Fault α) (Scene α) := do
  let points ← Fault.fit (Point.ofPairs? x)
  let cut := cutPosition points.length cameras
  return ⟨points.take cut, points.drop cut⟩

def Scene.encode {α : Type} (scene : Scene α) : Vec α :=
  Point.interleave scene.cameras ++ Point.interleave scene.landmarks

variable {α : Type} [Scalar α]

/-- The angle of the line from a camera to a landmark. -/
def bearing (camera landmark : Point α) : α :=
  Scalar.arctan ((landmark.y - camera.y) / (landmark.x - camera.x))

/-- The bearings of all pairs, one camera a row. -/
def Scene.bearings (scene : Scene α) : DenseMatrix α where
  rows := scene.cameras.map fun camera => scene.landmarks.map (bearing camera)
  width := scene.landmarks.length
  rectangular := by
    intro row member
    obtain ⟨camera, _, rfl⟩ := List.mem_map.mp member
    simp

/-- The bearings of the scene that parameters describe, less the observed ones. -/
def residuals (cameras : Int) (observations : Vec α) (x : Vec α) :
    Except (Fault α) (Vec α) := do
  let scene ← Scene.decode cameras x
  Fault.fit (Vec.combine? (· - ·) scene.bearings.entries observations)

/-- How a bearing changes with the coordinates of its camera. With those of its
landmark it changes by the opposite amounts. -/
def slope (camera landmark : Point α) : Point α :=
  let top := landmark.y - camera.y
  let bottom := landmark.x - camera.x
  let ratio := top / bottom
  let factor := 1.0 / (1.0 + ratio * ratio)
  ⟨factor * top / (bottom * bottom), -factor / bottom⟩

def Scene.slopes (scene : Scene α) : List (Point α) :=
  scene.cameras.flatMap fun camera => scene.landmarks.map (slope camera)

/-- One block of the Jacobian: `owner` gives the point that a residual depends
on, and `entry` its two entries there. -/
def slopeBlock (slopes : List (Point α)) (points : Nat) (owner : Nat → Nat)
    (entry : Point α → Point α) : SparseMatrix α :=
  SparseMatrix.ofFn? slopes.length (2 * points) fun row column =>
    if owner row = column / 2 then
      slopes[row]?.map fun found =>
        if column % 2 = 0 then (entry found).x else (entry found).y
    else none

def blocks (cameras : Int) (x : Vec α) : Except (Fault α) (SparseMatrix α × SparseMatrix α) := do
  let scene ← Scene.decode cameras x
  let slopes := scene.slopes
  let landmarks := scene.landmarks.length
  return (slopeBlock slopes scene.cameras.length (· / landmarks) id,
    slopeBlock slopes landmarks (· % landmarks) fun found => ⟨-found.x, -found.y⟩)

def jacobian (cameras : Int) (x : Vec α) : Except (Fault α) (SparseMatrix α) := do
  let (left, right) ← blocks cameras x
  Fault.fit (left.append? right)

end DampedLeastSquares.Bearings
