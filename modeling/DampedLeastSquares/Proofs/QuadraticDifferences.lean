import Mathlib
import DampedLeastSquares.Proofs.DifferenceCalls
import DampedLeastSquares.Proofs.Exact.Quadratics
import DampedLeastSquares.Proofs.Exact.Storage

/-!
# Differences of residuals of degree two

Along an axis such residuals are their value, their slope and their curvature. In a central
difference the curvature cancels, whatever the step; in a forward difference half a step of it
stays. Both ask for the residuals at the point and at points that differ from it in one
coordinate, and nowhere else.
-/

set_option autoImplicit false

namespace DampedLeastSquares

open Exact Polynomials

variable {σ : Type} {n m : ℕ}

namespace Difference

/-! ## Points beside a point -/

/-- The point with one coordinate moved. -/
def shifted (point : Fin n → ℝ) (column : Fin n) (distance : ℝ) : Fin n → ℝ :=
  Function.update point column (point column + distance)

/-- The point itself, or one that differs from it in one coordinate. -/
def Beside (point x : Fin n → ℝ) : Prop :=
  x = point ∨ ∃ column value, x = Function.update point column value

theorem beside_shifted (point : Fin n → ℝ) (column : Fin n) (distance : ℝ) :
    Beside point (shifted point column distance) := .inr ⟨column, _, rfl⟩

/-- For each coordinate, the points ahead and behind. -/
def centralPoints (point : Fin n → ℝ) (step : ℝ) : List (Fin n → ℝ) :=
  (List.finRange n).flatMap fun column => [shifted point column step, shifted point column (-step)]

/-- The step in proportion to the size of a parameter, or at zero the scale itself. -/
noncomputable def stepAt (scale parameter : ℝ) : ℝ :=
  if parameter = 0 then scale else scale * |parameter|

/-- The point, and for each coordinate the point ahead. -/
noncomputable def forwardPoints (point : Fin n → ℝ) (scale : ℝ) : List (Fin n → ℝ) :=
  point :: (List.finRange n).map fun column => shifted point column (stepAt scale (point column))

theorem stepAt_pos {scale : ℝ} (positive : 0 < scale) (parameter : ℝ) :
    0 < stepAt scale parameter := by
  unfold stepAt
  split
  · exact positive
  · next nonzero => exact mul_pos positive (abs_pos.mpr nonzero)

theorem beside_centralPoints {point x : Fin n → ℝ} {step : ℝ}
    (asked : x ∈ centralPoints point step) : Beside point x := by
  obtain ⟨column, _, found⟩ := List.mem_flatMap.mp asked
  simp only [List.mem_cons, List.not_mem_nil, or_false] at found
  obtain rfl | rfl := found
  · exact beside_shifted point column step
  · exact beside_shifted point column (-step)

theorem beside_forwardPoints {point x : Fin n → ℝ} {scale : ℝ}
    (asked : x ∈ forwardPoints point scale) : Beside point x := by
  obtain rfl | found := List.mem_cons.mp asked
  · exact .inl rfl
  · obtain ⟨column, _, rfl⟩ := List.mem_map.mp found
    exact beside_shifted point column _

/-! ## Moving one entry of a vector -/

theorem combine?_unit {operation : ℝ → ℝ → ℝ} (neutral : ∀ value, operation value 0 = value)
    (point : Fin n → ℝ) (column : Fin n) (step : ℝ) :
    Vec.combine? operation (List.ofFn point) (((Vec.zeros n).set column 1.0).map (step * ·)) =
      some (List.ofFn (Function.update point column (operation (point column) step))) := by
  have offset : ((Vec.zeros n).set column 1.0 : Vec ℝ).map (step * ·) =
      List.ofFn fun index => if index = column then step else 0 := by
    unfold Vec.zeros
    apply List.ext_getElem
    · simp
    · intro index _ _
      by_cases same : (column : ℕ) = index
      · simp [Fin.ext_iff, same]
      · simp [Fin.ext_iff, List.getElem_set_ne same, Ne.symm same]
  rw [offset, combine?_ofFn]
  refine congrArg some (congrArg List.ofFn (funext fun index => ?_))
  by_cases same : index = column
  · subst same
    simp
  · simp [same, neutral]

theorem add_unit (point : Fin n → ℝ) (column : Fin n) (step : ℝ) :
    Vec.combine? (· + ·) (List.ofFn point) (((Vec.zeros n).set column 1.0).map (step * ·)) =
      some (List.ofFn (shifted point column step)) :=
  combine?_unit add_zero point column step

theorem sub_unit (point : Fin n → ℝ) (column : Fin n) (step : ℝ) :
    Vec.combine? (· - ·) (List.ofFn point) (((Vec.zeros n).set column 1.0).map (step * ·)) =
      some (List.ofFn (shifted point column (-step))) := by
  rw [shifted, ← sub_eq_add_neg]
  exact combine?_unit sub_zero point column step

theorem stepped_eq (scale parameter : ℝ) :
    stepped scale parameter = parameter + stepAt scale parameter := by
  unfold stepped stepAt
  simp only [beq_iff, literal_zero]
  rfl

/-- Nothing is lost when the step is added to the parameter and taken apart again. -/
theorem relativeStep_eq (scale parameter : ℝ) :
    relativeStep scale parameter = stepAt scale parameter := by
  have back : relativeStep scale parameter = stepped scale parameter - parameter := rfl
  rw [back, stepped_eq, add_sub_cancel_left]

theorem moved_ofFn (scale : ℝ) (point : Fin n → ℝ) (column : Fin n) :
    moved scale (List.ofFn point) column =
      List.ofFn (shifted point column (stepAt scale (point column))) := by
  have parameter : (List.ofFn point).getD column 0.0 = point column := by simp
  unfold moved shifted
  rw [parameter, stepped_eq]
  apply List.ext_getElem
  · simp
  · intro index _ _
    simp [List.getElem_set, Function.update_apply, Fin.ext_iff, eq_comm]

/-! ## Differences -/

section Quadratics

variable {residuals : Vec ℝ → Call σ ℝ (View σ ℝ)} {polynomials : Fin m → MvPolynomial (Fin n) ℝ}
  {point : Fin n → ℝ}

/-- At the point and beside it the residual function answers with the polynomials' values, in arrays
that nothing else writes to. -/
def Follows (residuals : Vec ℝ → Call σ ℝ (View σ ℝ))
    (polynomials : Fin m → MvPolynomial (Fin n) ℝ) (point : Fin n → ℝ) : Prop :=
  ∀ x, Beside point x →
    Replies residuals (List.ofFn x) (· = .vector (List.ofFn (values polynomials x)))

theorem Replies.flatten {x entries : Vec ℝ}
    (replies : Replies residuals x (· = .vector entries)) :
    Replies residuals x (·.flatten = entries) := by
  intro before
  obtain ⟨_, after, ran, rfl⟩ := replies before
  exact ⟨_, after, ran, rfl⟩

/-- Central differences of a polynomial of degree two or less lose its curvature. -/
theorem Follows.asks_central (follows : Follows residuals polynomials point)
    (quadratic : ∀ row, (polynomials row).totalDegree ≤ 2) {step : ℝ} (nonzero : step ≠ 0)
    (column : Fin n) :
    Asks residuals (central residuals (List.ofFn point) ((Vec.zeros n).set column 1.0) step)
      [List.ofFn (shifted point column step), List.ofFn (shifted point column (-step))]
      (.vector (List.ofFn fun row => partials polynomials point row column)) := by
  have asks := Difference.asks_central (add_unit point column step) (sub_unit point column step)
    (follows _ (beside_shifted point column step))
    (follows _ (beside_shifted point column (-step))) (by simp)
  have quotient (row : Fin m) :
      (values polynomials (shifted point column step) row -
        values polynomials (shifted point column (-step)) row) / (2.0 * step) =
          partials polynomials point row column := by
    rw [literal_two]
    exact centralQuotient_of_quadratic point column (quadratic row) nonzero
  simp only [zipWith_ofFn, List.map_ofFn, Function.comp_def, quotient] at asks
  exact asks

/-- The Jacobian by central differences. -/
theorem Follows.asks_alongUnits (follows : Follows residuals polynomials point)
    (quadratic : ∀ row, (polynomials row).totalDegree ≤ 2) (some : 0 < n) {step : ℝ}
    (nonzero : step ≠ 0) :
    Asks residuals (alongUnits (central residuals · · step) (List.ofFn point))
      ((centralPoints point step).map List.ofFn)
      (DenseMatrix.ofMatrix (partials polynomials point)) := by
  have gathered :=
    DenseMatrix.ofColumns_ofFn fun column row => partials polynomials point row column
  rw [centralPoints, List.map_flatMap]
  refine Eq.subst gathered ?_
  exact Difference.asks_alongUnits List.length_ofFn some (follows.asks_central quadratic nonzero)
    fun column => List.length_ofFn

/-- The partial derivatives some distance ahead, each along its own axis. With a degree of two
they change by the curvature. -/
noncomputable def partialsAhead (polynomials : Fin m → MvPolynomial (Fin n) ℝ)
    (point distance : Fin n → ℝ) : RealMatrix m n :=
  fun row column => partials polynomials point row column +
    distance column * curvatures polynomials point row column

theorem changeOver_ofFn (quadratic : ∀ row, (polynomials row).totalDegree ≤ 2) {scale : ℝ}
    (positive : 0 < scale) (column : Fin n) :
    changeOver scale (List.ofFn point)
      (List.ofFn (values polynomials (shifted point column (stepAt scale (point column)))))
      (List.ofFn (values polynomials point)) column =
        List.ofFn fun row =>
          partialsAhead polynomials point (fun index => stepAt scale (point index) / 2) row
            column := by
  have quotient (row : Fin m) :
      (values polynomials (shifted point column (stepAt scale (point column))) row -
        values polynomials point row) / stepAt scale (point column) =
          partials polynomials point row column +
            stepAt scale (point column) / 2 * curvatures polynomials point row column :=
    forwardQuotient_of_quadratic point column (quadratic row)
      (stepAt_pos positive (point column)).ne'
  have parameter : (List.ofFn point).getD column 0.0 = point column := by simp
  unfold changeOver partialsAhead
  simp only [parameter, relativeStep_eq, zipWith_ofFn, List.map_ofFn, Function.comp_def, quotient]

/-- The Jacobian by forward differences, in either storage. -/
theorem Follows.asks_whole (follows : Follows residuals polynomials point)
    (quadratic : ∀ row, (polynomials row).totalDegree ≤ 2) {scale : ℝ} (positive : 0 < scale)
    (asSparse : Bool) :
    ∃ jacobian : Matrix ℝ,
      jacobian.Represents (partialsAhead polynomials point fun column =>
        stepAt scale (point column) / 2) ∧
      Asks residuals (whole residuals scale asSparse (List.ofFn point))
        ((forwardPoints point scale).map List.ofFn) (.whole (.matrix jacobian)) := by
  have ahead (column : Fin n) : Replies residuals (moved scale (List.ofFn point) column)
      (·.flatten = List.ofFn
        (values polynomials (shifted point column (stepAt scale (point column))))) := by
    rw [moved_ofFn]
    exact (follows _ (beside_shifted point column _)).flatten
  have asks := asks_forwardJacobian List.length_ofFn (follows point (.inl rfl)).flatten ahead
    (by simp)
  simp only [changeOver_ofFn quadratic positive, moved_ofFn] at asks
  rw [List.length_ofFn, DenseMatrix.ofColumns_ofFn] at asks
  refine ⟨_, (Matrix.represents_dense _).stored asSparse, ?_⟩
  rw [forwardPoints, List.map_cons, List.map_map]
  exact Difference.asks_whole asks asSparse

theorem partialsAhead_of_affine (affine : ∀ row, (polynomials row).totalDegree ≤ 1)
    (point distance : Fin n → ℝ) :
    partialsAhead polynomials point distance = partials polynomials point := by
  ext row column
  unfold partialsAhead curvatures
  rw [curvature_of_affine point column (affine row), mul_zero, add_zero]

/-- Of residuals that are polynomials of degree two or less, and are answered in arrays that nothing
else writes to, central differences give the Jacobian, whatever the step. Forward differences give
the partial derivatives half a step ahead, which are the same if the residuals are affine. Neither
asks for anything but the residuals at the point and beside it. Answers that share memory are not
covered, nor are they differentiated. -/
theorem differences_of_quadratics (quadratic : ∀ row, (polynomials row).totalDegree ≤ 2)
    (follows : Follows residuals polynomials point) :
    HasFDerivAt (values polynomials) (linear (partials polynomials point)) point ∧
    (∀ step : ℝ, 0 < n → step ≠ 0 →
      (∀ x ∈ centralPoints point step, Beside point x) ∧
      Asks residuals (alongUnits (central residuals · · step) (List.ofFn point))
        ((centralPoints point step).map List.ofFn)
        (DenseMatrix.ofMatrix (partials polynomials point))) ∧
    (∀ (scale : ℝ) (asSparse : Bool), 0 < scale →
      (∀ x ∈ forwardPoints point scale, Beside point x) ∧
      ∃ jacobian : Matrix ℝ,
        jacobian.Represents (partialsAhead polynomials point fun column =>
          stepAt scale (point column) / 2) ∧
        Asks residuals (whole residuals scale asSparse (List.ofFn point))
          ((forwardPoints point scale).map List.ofFn) (.whole (.matrix jacobian))) ∧
    ((∀ row, (polynomials row).totalDegree ≤ 1) → ∀ distance,
      partialsAhead polynomials point distance = partials polynomials point) :=
  ⟨hasFDerivAt_values polynomials point,
    fun _ some nonzero =>
      ⟨fun _ => beside_centralPoints, follows.asks_alongUnits quadratic some nonzero⟩,
    fun _ asSparse positive =>
      ⟨fun _ => beside_forwardPoints, follows.asks_whole quadratic positive asSparse⟩,
    fun affine => partialsAhead_of_affine affine point⟩

end Quadratics

/-- A product and a square. -/
noncomputable def saddle (x : Vec ℝ) : Call Unit ℝ (View Unit ℝ) :=
  return .fresh (.vector [x.getD 0 0 * x.getD 1 0, x.getD 0 0 ^ 2])

/-- At zero the forward step is the scale itself, and the slope of the square comes out as large. -/
theorem differences_of_saddle :
    Asks saddle (alongUnits (central saddle · · 2) [0, 3]) [[2, 3], [-2, 3], [0, 5], [0, 1]]
      (DenseMatrix.ofMatrix !![3, 0; 0, 0]) ∧
    ∃ jacobian : Matrix ℝ, jacobian.Represents !![3, 0; 2, 0] ∧
      Asks saddle (whole saddle 2 true [0, 3]) [[0, 3], [2, 3], [0, 9]]
        (.whole (.matrix jacobian)) := by
  let polynomials : Fin 2 → MvPolynomial (Fin 2) ℝ :=
    ![MvPolynomial.X 0 * MvPolynomial.X 1, MvPolynomial.X 0 ^ 2]
  have quadratic : ∀ row, (polynomials row).totalDegree ≤ 2 := by
    intro row
    fin_cases row
    · exact (MvPolynomial.totalDegree_mul _ _).trans (by simp [MvPolynomial.totalDegree_X])
    · exact (MvPolynomial.totalDegree_X_pow _ _).le
  have follows : Follows saddle polynomials ![0, 3] := by
    intro x _ before
    refine ⟨_, before, rfl, ?_⟩
    simp [polynomials, values, List.ofFn_succ]
  have slopes : partials polynomials ![0, 3] = !![3, 0; 0, 0] := by
    ext row column
    fin_cases row <;> fin_cases column <;> simp [polynomials, partials, MvPolynomial.pderiv_X]
  have bends : curvatures polynomials ![0, 3] = !![0, 0; 2, 0] := by
    ext row column
    fin_cases row <;> fin_cases column <;> simp [polynomials, curvatures, MvPolynomial.pderiv_X]
  have leaning : (partialsAhead polynomials ![0, 3] fun column => stepAt 2 (![0, 3] column) / 2) =
      !![3, 0; 2, 0] := by
    unfold partialsAhead
    rw [slopes, bends]
    ext row column
    fin_cases row <;> fin_cases column <;> simp [stepAt]
  obtain ⟨_, centrally, ahead, _⟩ := differences_of_quadratics quadratic follows
  obtain ⟨_, asks⟩ := centrally 2 two_pos two_ne_zero
  obtain ⟨_, jacobian, represents, asks'⟩ := ahead 2 true two_pos
  have around : (centralPoints ![0, 3] 2).map List.ofFn =
      ([[2, 3], [-2, 3], [0, 5], [0, 1]] : List (Vec ℝ)) := by
    norm_num [centralPoints, shifted, Function.update_apply, List.finRange_succ, List.ofFn_succ]
  have onward : (forwardPoints ![0, 3] 2).map List.ofFn =
      ([[0, 3], [2, 3], [0, 9]] : List (Vec ℝ)) := by
    norm_num [forwardPoints, shifted, stepAt, Function.update_apply, List.finRange_succ,
      List.ofFn_succ]
  have place : List.ofFn ![(0 : ℝ), 3] = [0, 3] := rfl
  rw [slopes, around, place] at asks
  rw [onward, place] at asks'
  rw [leaning] at represents
  exact ⟨asks, jacobian, represents, asks'⟩

end Difference

end DampedLeastSquares
