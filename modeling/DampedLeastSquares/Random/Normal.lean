import DampedLeastSquares.Random.Generator

/-!
# Normal variates

The area under the bell curve is cut into 256 horizontal layers of equal size. A
layer is chosen at random, and a point in it; the point is taken right away if
it lies in the part of the layer that is wholly below the curve, and otherwise
only if it is below the curve. The lowest layer ends in the tail, which has a
rule of its own.
-/

set_option autoImplicit false

namespace DampedLeastSquares.Normal

def tailStart : Float := 3.6541528853610088

def layerArea : Float := 0.0049286732339746519

def height (x : Float) : Float := Float.exp (-0.5 * x * x)

/-- The number of points across a layer. -/
def resolution : Float := 4503599627370496.0

structure Layer where
  /-- Points before this one lie wholly below the curve. -/
  safe : Nat
  spacing : Float
  /-- The height of the curve at the layer's upper edge. -/
  top : Float

/-- The right ends of the layers above a layer, innermost first. -/
def edgesAbove : Nat → Float → List Float → List Float
  | 0, _, edges => edges
  | count + 1, outer, edges =>
      let inner := Float.sqrt (-2.0 * Float.log (layerArea / outer + height outer))
      edgesAbove count inner (inner :: edges)

/-- The layers of which the first list gives the right ends, each within the one
that follows. -/
def layersOf : Float → List Float → List Layer
  | _, [] => []
  | inner, outer :: edges =>
      ⟨(inner / outer * resolution).toUInt64.toNat, outer / resolution, height outer⟩ ::
        layersOf outer edges

/-- All layers, the one with the tail first and then from the top down. -/
def layers : Array Layer :=
  let width := layerArea / height tailStart
  let base : Layer := ⟨(tailStart / width * resolution).toUInt64.toNat, width / resolution, 1.0⟩
  (base :: layersOf 0.0 (edgesAbove 254 tailStart [tailStart])).toArray

/-- Try to draw from the tail, several times. -/
def tail? : Nat → StateM Generator (Option Float)
  | 0 => return none
  | tries + 1 => do
      let first ← Generator.unit
      let second ← Generator.unit
      let beyond := -(Float.logOnePlus (-first)) / tailStart
      let depth := -(Float.logOnePlus (-second))
      if beyond * beyond < depth + depth then return some (tailStart + beyond)
      else tail? tries

/-- Draw a point of a layer and take it if it lies below the curve. -/
def candidate? : StateM Generator (Option Float) := do
  let drawn ← Generator.bits
  let index := drawn % 256
  let negative := (drawn >>> 8) % 2 = 1
  let position := (drawn >>> 9) % 0x10000000000000
  match layers[index]? with
  | none => return none
  | some layer =>
      let size := Float.ofNat position * layer.spacing
      let x := if negative then -size else size
      -- so far inside, a point of the layer is below the curve at any level
      if position < layer.safe then return some x
      else if index = 0 then
        let drawn? ← tail? 1000
        return drawn?.map fun size => if (position >>> 8) % 2 = 1 then -size else size
      else
        let above := (layers[index - 1]?.map (·.top)).getD 0.0
        let level ← Generator.unit
        if (above - layer.top) * level + layer.top < Float.exp (-0.5 * x * x) then
          return some x
        else return none

/-- The first candidate that is taken, out of a number of tries. About one in a
hundred is not taken, so the tries do not run out. -/
def draw : Nat → StateM Generator Float
  | 0 => return 0.0
  | tries + 1 => do
      match ← candidate? with
      | some x => return x
      | none => draw tries

def variate : StateM Generator Float := draw 1000

end DampedLeastSquares.Normal
