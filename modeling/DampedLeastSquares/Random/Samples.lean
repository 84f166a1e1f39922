import DampedLeastSquares.Problem.Bearings
import DampedLeastSquares.Problem.Line
import DampedLeastSquares.Random.Draw

/-!
# Random problems

Observations for the sample problems: noisy points of a line, samples of an
exponential curve, and bearings between cameras and landmarks.
-/

set_option autoImplicit false

namespace DampedLeastSquares.Draw

/-- Points of a line at random positions, each coordinate with noise. -/
def linePoints (tangent : Vec Float) (count : Int) (deviation : Float) :
    Draw (DenseMatrix Float) := do
  match tangent with
  | [x, y] =>
      let positions ← uniform [count] (-10.0) 10.0
      let points := Point.toRows (positions.flatten.map (Line.pointAt ⟨x, y⟩))
      let noise ← normal [count, 2] 0.0 deviation
      return DenseMatrix.ofFn points.height 2 fun row column =>
        points.entry row column + noise.data.getD (2 * row + column) 0.0
  | _ => throw .shape

def referenceLine : Vec Float := [-0.5, 1.4]

/-- Points close to the reference line followed by points far off it. -/
def lineSystem (inliers outliers : Int) (deviation outlierDeviation : Float) :
    Draw (DenseMatrix Float) := do
  let near ← linePoints referenceLine inliers deviation
  let far ← linePoints referenceLine outliers outlierDeviation
  return DenseMatrix.ofFn (near.height + far.height) 2 fun row column =>
    if row < near.height then near.entry row column
    else far.entry (row - near.height) column

/-- Times from zero to four and the values of an exponential curve there, with
noise if its deviation is positive. -/
def exponentialSystem (factor rate : Float) (count : Int) (deviation : Float) :
    Draw (Vec Float × Vec Float) := do
  let extents ← extents [count]
  let times := spaced 0.0 4.0 (extentProduct extents)
  let values := times.map fun time => factor * Float.exp (rate * time)
  if 0.0 < deviation then
    let noise ← normal [count] 0.0 deviation
    return (times, List.zipWith (· + ·) values noise.flatten)
  else return (times, values)

/-- A scene, a disturbed start, and the bearings that are observed. -/
structure BearingSystem where
  optimum : Vec Float
  start : Vec Float
  observations : Vec Float

/-- Points at random places along a line parallel to the second axis. -/
def pointsAt (count : Int) (x length : Float) : Draw (List (Point Float)) := do
  let _ ← extents [count]
  return (← uniform [count] (-length) length).flatten.map (⟨x, ·⟩)

/-- Cameras and landmarks on two parallel lines, and noise of the given deviation
on all their coordinates for the start. -/
def bearingSystem (cameras landmarks : Int) (length depth deviation : Float) :
    Draw BearingSystem := do
  let scene : Bearings.Scene Float :=
    ⟨← pointsAt cameras 0.0 length, ← pointsAt landmarks depth length⟩
  let optimum := scene.encode
  let noise ← normal [optimum.length] 0.0 deviation
  let observations := scene.bearings.entries
  if !Vec.allFinite observations then throw (.refused .infiniteBearings)
  return ⟨optimum, List.zipWith (· + ·) optimum noise.flatten, observations⟩

end DampedLeastSquares.Draw
