import Mathlib.Order.Bounds.Basic
import Mathlib.Tactic.LinearCombination
import DampedLeastSquares.Problem.Line
import DampedLeastSquares.Proofs.Exact.Real

/-!
# The nearest points of a line

In exact arithmetic the two residuals of a point lead to it from the nearest point of the line.
They are at right angles to the line, no point of the line is closer, and they vanish for the
points of the line alone. Those include all points that are placed along it.
-/

set_option autoImplicit false

namespace DampedLeastSquares

open Exact

namespace Point

def squaredDistance (point other : Point ℝ) : ℝ :=
  (point.x - other.x) ^ 2 + (point.y - other.y) ^ 2

theorem squaredDistance_nonneg (point other : Point ℝ) : 0 ≤ point.squaredDistance other :=
  add_nonneg (sq_nonneg _) (sq_nonneg _)

theorem squaredDistance_eq_zero {point other : Point ℝ} :
    point.squaredDistance other = 0 ↔ point = other := by
  obtain ⟨x, y⟩ := point
  obtain ⟨x', y'⟩ := other
  unfold squaredDistance
  rw [add_eq_zero_iff_of_nonneg (sq_nonneg _) (sq_nonneg _), sq_eq_zero_iff, sq_eq_zero_iff,
    sub_eq_zero, sub_eq_zero, Point.mk.injEq]

theorem interleave_zeros {points : List (Point ℝ)} (zeros : ∀ point ∈ points, point = ⟨0, 0⟩) :
    interleave points = List.replicate (2 * points.length) 0 := by
  rw [List.eq_replicate_iff]
  refine ⟨length_interleave points, ?_⟩
  intro entry member
  obtain ⟨point, found, entryAt⟩ := List.mem_flatMap.mp member
  obtain rfl := zeros point found
  simpa using entryAt

end Point

namespace Line

/-- The points of the line whose point closest to the origin is given. -/
def Contains (tangent point : Point ℝ) : Prop :=
  tangent.x * point.x + tangent.y * point.y = tangent.x ^ 2 + tangent.y ^ 2

theorem contains_pointAt (tangent : Point ℝ) (position : ℝ) :
    Contains tangent (pointAt tangent position) := by
  unfold Contains pointAt
  ring

/-- How far along the line its nearest point is, in units of the tangent point's distance. -/
noncomputable def footPosition (tangent point : Point ℝ) : ℝ :=
  (-tangent.y * (point.x - tangent.x) + tangent.x * (point.y - tangent.y)) /
    (-tangent.y * -tangent.y + tangent.x * tangent.x)

noncomputable def foot (tangent point : Point ℝ) : Point ℝ :=
  ⟨tangent.x + footPosition tangent point * -tangent.y,
    tangent.y + footPosition tangent point * tangent.x⟩

theorem offset_eq (tangent point : Point ℝ) : offset tangent point =
    ⟨point.x - (foot tangent point).x, point.y - (foot tangent point).y⟩ := rfl

theorem contains_foot (tangent point : Point ℝ) : Contains tangent (foot tangent point) := by
  unfold Contains foot
  ring

variable {tangent : Point ℝ} (proper : tangent ≠ ⟨0, 0⟩)

include proper

theorem squaredLength_ne_zero : tangent.x ^ 2 + tangent.y ^ 2 ≠ 0 := by
  intro zero
  refine proper (Point.squaredDistance_eq_zero.mp ?_)
  simpa [Point.squaredDistance] using zero

theorem footPosition_mul (point : Point ℝ) :
    footPosition tangent point * (tangent.x ^ 2 + tangent.y ^ 2) =
      tangent.x * point.y - tangent.y * point.x := by
  have length : -tangent.y * -tangent.y + tangent.x * tangent.x =
      tangent.x ^ 2 + tangent.y ^ 2 := by ring
  unfold footPosition
  rw [length, div_mul_cancel₀ _ (squaredLength_ne_zero proper)]
  ring

/-- The way from the nearest point is at right angles to the line. -/
theorem crosses_foot (point : Point ℝ) : -tangent.y * (point.x - (foot tangent point).x) +
    tangent.x * (point.y - (foot tangent point).y) = 0 := by
  unfold foot
  linear_combination -footPosition_mul proper point

/-- The nearest point and any other one of the line make a right triangle with the point. -/
theorem squaredDistance_of_contains (point : Point ℝ) {other : Point ℝ}
    (contains : Contains tangent other) :
    point.squaredDistance other = point.squaredDistance (foot tangent point) +
      (foot tangent point).squaredDistance other := by
  have crosses := crosses_foot proper point
  have here := contains_foot tangent point
  generalize foot tangent point = nearest at crosses here ⊢
  unfold Contains at contains here
  -- The product with the tangent point's squared distance splits into parts along and across.
  have scaled : (tangent.x ^ 2 + tangent.y ^ 2) *
      ((point.x - nearest.x) * (nearest.x - other.x) +
        (point.y - nearest.y) * (nearest.y - other.y)) = 0 := by
    linear_combination
      (tangent.x * (point.x - nearest.x) + tangent.y * (point.y - nearest.y)) *
          (here - contains) +
        (tangent.x * (nearest.y - other.y) - tangent.y * (nearest.x - other.x)) * crosses
  have right := (mul_eq_zero.mp scaled).resolve_left (squaredLength_ne_zero proper)
  unfold Point.squaredDistance
  linear_combination 2 * right

/-- A point of the line is its own nearest one. -/
theorem foot_of_contains {point : Point ℝ} (contains : Contains tangent point) :
    foot tangent point = point := by
  have split := squaredDistance_of_contains proper point contains
  have here : point.squaredDistance point = 0 := Point.squaredDistance_eq_zero.mpr rfl
  have first := Point.squaredDistance_nonneg point (foot tangent point)
  have second := Point.squaredDistance_nonneg (foot tangent point) point
  refine Point.squaredDistance_eq_zero.mp ?_
  linarith

omit proper

/-- A vector leads to the point from the one point of the line that is nearest. -/
structure LeadsFrom (tangent nearest point vector : Point ℝ) : Prop where
  contains : Contains tangent nearest
  difference : vector = ⟨point.x - nearest.x, point.y - nearest.y⟩
  crosses : -tangent.y * vector.x + tangent.x * vector.y = 0
  least : IsLeast (point.squaredDistance '' {other | Contains tangent other})
    (vector.x ^ 2 + vector.y ^ 2)
  unique (other : Point ℝ) : Contains tangent other →
    point.squaredDistance other = vector.x ^ 2 + vector.y ^ 2 → other = nearest
  vanishes : vector.x = 0 ∧ vector.y = 0 ↔ Contains tangent point

theorem offset_leadsFrom (proper : tangent ≠ ⟨0, 0⟩) (point : Point ℝ) :
    LeadsFrom tangent (foot tangent point) point (offset tangent point) := by
  have triangle {other : Point ℝ} (contains : Contains tangent other) :=
    squaredDistance_of_contains proper point contains
  refine ⟨contains_foot tangent point, offset_eq tangent point, crosses_foot proper point,
    ⟨⟨_, contains_foot tangent point, rfl⟩, ?_⟩, ?_, ?_⟩
  · rintro _ ⟨other, contains, rfl⟩
    rw [triangle contains]
    exact le_add_of_nonneg_right (Point.squaredDistance_nonneg _ _)
  · intro other contains least
    rw [triangle contains] at least
    exact (Point.squaredDistance_eq_zero.mp (add_eq_left.mp least)).symm
  · constructor
    · rintro ⟨first, second⟩
      have same : point = foot tangent point := by
        refine Point.squaredDistance_eq_zero.mp ?_
        change (offset tangent point).x ^ 2 + (offset tangent point).y ^ 2 = 0
        rw [first, second]
        norm_num
      rw [same]
      exact contains_foot tangent point
    · intro contains
      rw [offset_eq, foot_of_contains proper contains, sub_self, sub_self]
      exact ⟨rfl, rfl⟩

theorem residuals_eq (tangent : Point ℝ) (points : List (Point ℝ)) :
    residuals (Point.toRows points) [tangent.x, tangent.y] =
      .ok (Point.interleave (points.map (offset tangent))) := by
  have rows : Point.ofRows (Point.toRows points) = .ok points := by
    simp [Point.ofRows, Point.toRows, Function.comp_def]
  unfold residuals
  rw [rows]
  rfl

/-- Each pair of residuals leads from the nearest point of the line to its point, and for points
that are placed along the line all of them vanish. -/
theorem residuals_lead_from_nearest (tangent : Point ℝ) (proper : tangent ≠ ⟨0, 0⟩)
    (points : List (Point ℝ)) :
    (∃ values, residuals (Point.toRows points) [tangent.x, tangent.y] = .ok values ∧
      values.length = 2 * points.length ∧
      ∀ index point, points[index]? = some point → ∃ nearest vector : Point ℝ,
        values[2 * index]? = some vector.x ∧ values[2 * index + 1]? = some vector.y ∧
          LeadsFrom tangent nearest point vector) ∧
    ∀ positions : List ℝ,
      residuals (Point.toRows (positions.map (pointAt tangent))) [tangent.x, tangent.y] =
        .ok (List.replicate (2 * positions.length) 0) := by
  constructor
  · refine ⟨_, residuals_eq tangent points, ?_, ?_⟩
    · rw [Point.length_interleave, List.length_map]
    · intro index point found
      refine ⟨foot tangent point, offset tangent point, ?_, ?_, offset_leadsFrom proper point⟩
      · rw [Point.getElem?_interleave_even, List.getElem?_map, found]
        rfl
      · rw [Point.getElem?_interleave_odd, List.getElem?_map, found]
        rfl
  · intro positions
    have zeros : ∀ vector ∈ (positions.map (pointAt tangent)).map (offset tangent),
        vector = ⟨0, 0⟩ := by
      intro vector member
      simp only [List.map_map, List.mem_map, Function.comp_apply] at member
      obtain ⟨position, -, rfl⟩ := member
      rw [offset_eq, foot_of_contains proper (contains_pointAt tangent position), sub_self,
        sub_self]
    rw [residuals_eq, Point.interleave_zeros zeros, List.length_map, List.length_map]

/-- A point next to the vertical line through three on the first axis. -/
theorem residuals_lead_from_vertical :
    (⟨3, 0⟩ : Point ℝ) ≠ ⟨0, 0⟩ ∧
    ∃ values, residuals (Point.toRows [⟨5, 7⟩]) [(3 : ℝ), 0] = .ok values ∧
      ∃ nearest vector : Point ℝ, values[0]? = some vector.x ∧ values[1]? = some vector.y ∧
        LeadsFrom ⟨3, 0⟩ nearest ⟨5, 7⟩ vector := by
  have proper : (⟨3, 0⟩ : Point ℝ) ≠ ⟨0, 0⟩ := by
    intro same
    simp at same
  obtain ⟨values, found, -, pairs⟩ :=
    (residuals_lead_from_nearest ⟨3, 0⟩ proper [⟨5, 7⟩]).1
  exact ⟨proper, values, found, pairs 0 ⟨5, 7⟩ rfl⟩

end Line

end DampedLeastSquares
