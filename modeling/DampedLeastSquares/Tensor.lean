import DampedLeastSquares.Vector

/-!
# Tensors

Arrays of any rank, stored row by row: what a residual function may answer
before its rank is known, and the two sides of a comparison. A tensor
stretches along axes of extent one, and along axes it does not have, which
count as leading axes of extent one.
-/

set_option autoImplicit false

namespace DampedLeastSquares

def extentProduct (shape : List Nat) : Nat := shape.foldr (· * ·) 1

/-- Entries of an array in row order together with its extents. -/
structure Tensor (α : Type) where
  shape : List Nat
  data : List α

namespace Tensor

variable {α β γ : Type}

def scalar (entry : α) : Tensor α := ⟨[], [entry]⟩

def vector (entries : Vec α) : Tensor α := ⟨[entries.length], entries⟩

def flatten (tensor : Tensor α) : Vec α := tensor.data

def map (function : α → β) (tensor : Tensor α) : Tensor β :=
  ⟨tensor.shape, tensor.data.map function⟩

/-- Cut a list into `count` pieces of `size` entries each. -/
def chunks (count size : Nat) (entries : List α) : List (List α) :=
  (List.range count).map fun index => (entries.drop (index * size)).take size

/-- Stretch entries along axes of extent one. Both lists of extents are read
from the outermost axis; they must be equally long. -/
def stretch? : List Nat → List Nat → List α → Option (List α)
  | [], [], entries => some entries
  | source :: sources, target :: targets, entries => do
      let pieces ← (chunks source (extentProduct sources) entries).mapM (stretch? sources targets)
      if source = target then some pieces.flatten
      else if source = 1 then some (List.replicate target pieces.flatten).flatten
      else none
  | _, _, _ => none

/-- Extents with leading axes of extent one, up to the given rank. -/
def padShape (rank : Nat) (shape : List Nat) : List Nat :=
  List.replicate (rank - shape.length) 1 ++ shape

/-- The tensor stretched to the given extents, if it fits. -/
def broadcastTo? (shape : List Nat) (tensor : Tensor α) : Option (Tensor α) :=
  if shape.length < tensor.shape.length then none
  else (stretch? (padShape shape.length tensor.shape) shape tensor.data).map (⟨shape, ·⟩)

/-- The extents two arrays stretch to together. On each axis the extents are
equal or one of them is one. -/
def commonShape? (left right : List Nat) : Option (List Nat) :=
  let rank := max left.length right.length
  (List.zip (padShape rank left) (padShape rank right)).mapM fun (first, second) =>
    if first = second then some first
    else if first = 1 then some second
    else if second = 1 then some first
    else none

/-- Combine two tensors entry by entry after stretching both. -/
def combine? (operation : α → β → γ) (left : Tensor α) (right : Tensor β) : Option (Tensor γ) := do
  let shape ← commonShape? left.shape right.shape
  let first ← left.broadcastTo? shape
  let second ← right.broadcastTo? shape
  some ⟨shape, List.zipWith operation first.data second.data⟩

/-- The entries grouped by their position on the first axis. -/
def slices (tensor : Tensor α) : List (List α) :=
  match tensor.shape with
  | [] => [tensor.data]
  | outer :: inner => chunks outer (extentProduct inner) tensor.data

end Tensor

end DampedLeastSquares
