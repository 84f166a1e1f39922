import DampedLeastSquares.Fault
import DampedLeastSquares.Matrix

/-!
# Points of the plane

Points as rows of a matrix, and as consecutive pairs of a vector.
-/

set_option autoImplicit false

namespace DampedLeastSquares

structure Point (α : Type) where
  x : α
  y : α

namespace Point

variable {α : Type}

/-- The first two columns of a matrix as points, one a row. -/
def ofRows [Scalar α] (matrix : DenseMatrix α) : Except (Fault α) (List (Point α)) :=
  if 2 ≤ matrix.width then .ok (matrix.rows.map fun row => ⟨row.getD 0 0.0, row.getD 1 0.0⟩)
  else .error .index

def toRows (points : List (Point α)) : DenseMatrix α where
  rows := points.map fun point => [point.x, point.y]
  width := 2
  rectangular := by
    intro row member
    obtain ⟨_, _, rfl⟩ := List.mem_map.mp member
    rfl

/-- Coordinates in the order of the points, for each point the first coordinate
before the second. -/
def interleave (points : List (Point α)) : Vec α :=
  points.flatMap fun point => [point.x, point.y]

theorem interleave_cons (point : Point α) (rest : List (Point α)) :
    interleave (point :: rest) = point.x :: point.y :: interleave rest := rfl

/-- Consecutive pairs of coordinates. A coordinate without a partner does not
make a point. -/
def ofPairs? : Vec α → Option (List (Point α))
  | [] => some []
  | [_] => none
  | x :: y :: rest => (ofPairs? rest).map (⟨x, y⟩ :: ·)

theorem ofPairs?_interleave (points : List (Point α)) :
    ofPairs? (interleave points) = some points := by
  induction points with
  | nil => rfl
  | cons point rest ih =>
      rw [interleave_cons, ofPairs?, ih]
      rfl

theorem length_interleave (points : List (Point α)) :
    (interleave points).length = 2 * points.length := by
  induction points with
  | nil => rfl
  | cons point rest previous =>
      rw [interleave_cons, List.length_cons, List.length_cons, previous, List.length_cons, Nat.mul_succ]

theorem exists_interleave {x : Vec α} {count : Nat} (size : x.length = 2 * count) :
    ∃ points, points.length = count ∧ interleave points = x := by
  induction count generalizing x with
  | zero => exact ⟨[], rfl, (List.length_eq_zero_iff.mp size).symm⟩
  | succ count previous =>
      match x, size with
      | first :: second :: rest, size =>
          have shorter : rest.length = 2 * count := by
            simp only [List.length_cons] at size
            omega
          obtain ⟨points, counted, same⟩ := previous shorter
          refine ⟨⟨first, second⟩ :: points, by simp [counted], ?_⟩
          rw [← same]
          rfl

theorem getElem?_interleave_even (points : List (Point α)) (index : Nat) :
    (interleave points)[2 * index]? = points[index]?.map Point.x := by
  induction points generalizing index with
  | nil => simp [interleave]
  | cons point rest previous =>
      cases index with
      | zero => simp [interleave_cons]
      | succ index => simpa [interleave_cons, Nat.mul_succ] using previous index

theorem getElem?_interleave_odd (points : List (Point α)) (index : Nat) :
    (interleave points)[2 * index + 1]? = points[index]?.map Point.y := by
  induction points generalizing index with
  | nil => simp [interleave]
  | cons point rest previous =>
      cases index with
      | zero => simp [interleave_cons]
      | succ index => simpa [interleave_cons, Nat.mul_succ] using previous index

/-- A point is where both its coordinates are. -/
theorem getElem?_eq_of_interleave {points others : List (Point α)} {index : Nat}
    (first : (interleave points)[2 * index]? = (interleave others)[2 * index]?)
    (second : (interleave points)[2 * index + 1]? = (interleave others)[2 * index + 1]?) :
    points[index]? = others[index]? := by
  rw [getElem?_interleave_even, getElem?_interleave_even] at first
  rw [getElem?_interleave_odd, getElem?_interleave_odd] at second
  generalize points[index]? = found at first second ⊢
  generalize others[index]? = found' at first second ⊢
  cases found with
  | none =>
      cases found' with
      | none => rfl
      | some other => cases first
  | some point =>
      cases found' with
      | none => cases first
      | some other =>
          obtain ⟨x, y⟩ := point
          cases first
          cases second
          rfl

end Point

end DampedLeastSquares
