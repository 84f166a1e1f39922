import DampedLeastSquares.Scalar

/-!
# Vectors

A vector is the list of its entries. Sizes are part of the value, so an
operation on vectors that do not fit has no result. Entry by entry operations
and assignments stretch a vector of one entry to any size; inner products do
not.
-/

set_option autoImplicit false

namespace DampedLeastSquares

/-- The entries of a vector, first to last. -/
abbrev Vec (α : Type) := List α

/-- A position counted from the start, or from the end when it is negative,
moved into the range of a list of the given length. -/
def cutPosition (length : Nat) (position : Int) : Nat :=
  if 0 ≤ position then min position.toNat length
  else (position + length).toNat

namespace Vec

variable {α : Type}

def before (position : Int) (vector : Vec α) : Vec α :=
  vector.take (cutPosition vector.length position)

def after (position : Int) (vector : Vec α) : Vec α :=
  vector.drop (cutPosition vector.length position)

theorem before_append_after (position : Int) (vector : Vec α) :
    vector.before position ++ vector.after position = vector :=
  List.take_append_drop _ _

/-- Combine two vectors entry by entry. Vectors of different sizes fit only if
one of them has a single entry, which then meets every entry of the other. -/
def combine? {β γ : Type} (operation : α → β → γ) (left : Vec α) (right : Vec β) :
    Option (Vec γ) :=
  if left.length = right.length then some (List.zipWith operation left right)
  else match left, right with
    | [single], _ => some (right.map (operation single))
    | _, [single] => some (left.map (operation · single))
    | _, _ => none

theorem combine?_of_length_eq {β γ : Type} (operation : α → β → γ)
    {left : Vec α} {right : Vec β} (fits : left.length = right.length) :
    combine? operation left right = some (List.zipWith operation left right) := by
  simp [combine?, fits]

/-- What a vector of the given size holds after `value` was assigned to it: the
value itself, or its single entry everywhere. -/
def fill? (length : Nat) (value : Vec α) : Option (Vec α) :=
  if value.length = length then some value
  else match value with
    | [single] => some (List.replicate length single)
    | _ => none

theorem fill?_self (value : Vec α) : fill? value.length value = some value := by
  simp [fill?]

theorem length_of_fill? {length : Nat} {value result : Vec α}
    (filled : fill? length value = some result) : result.length = length := by
  unfold fill? at filled
  split at filled
  · next same => cases filled; exact same
  · split at filled
    · cases filled; simp
    · cases filled

variable [Scalar α]

def zeros (length : Nat) : Vec α := List.replicate length 0.0

def ones (length : Nat) : Vec α := List.replicate length 1.0

/-- The sum of the entries, added from first to last. -/
def sum (vector : Vec α) : α := vector.foldl (· + ·) 0.0

def dot (left right : Vec α) : α := sum (List.zipWith (· * ·) left right)

/-- The inner product of vectors of one size. -/
def dot? (left right : Vec α) : Option α :=
  if left.length = right.length then some (dot left right) else none

def norm (vector : Vec α) : α := Scalar.sqrt (dot vector vector)

/-- The largest magnitude, undefined as soon as one entry is. The empty vector
has none. -/
def maxAbs? : Vec α → Option α
  | [] => none
  | first :: rest =>
      some (rest.foldl (fun found entry => Scalar.larger found (Scalar.abs entry))
        (Scalar.abs first))

def allFinite (vector : Vec α) : Bool := vector.all Scalar.isFinite

end Vec

end DampedLeastSquares
