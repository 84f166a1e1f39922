import Mathlib
import DampedLeastSquares.Proofs.Exact.Losses

/-!
# Residuals that are polynomials

Along an axis a polynomial of the parameters is one of the distance. If its degree is at most
two, its first and second derivative along the axis say all of it.
-/

set_option autoImplicit false

open scoped Polynomial

namespace DampedLeastSquares

open MvPolynomial

variable {n m : ℕ}

/-- A parameter along an axis through a point, as a polynomial of the distance. -/
noncomputable def axis (point : Fin n → ℝ) (column index : Fin n) : ℝ[X] :=
  if index = column then Polynomial.C (point index) + Polynomial.X else Polynomial.C (point index)

/-- What the polynomial of the parameters is along the axis. -/
noncomputable def alongAxis (point : Fin n → ℝ) (column : Fin n)
    (polynomial : MvPolynomial (Fin n) ℝ) : ℝ[X] :=
  aeval (axis point column) polynomial

theorem eval_alongAxis (point : Fin n → ℝ) (column : Fin n)
    (polynomial : MvPolynomial (Fin n) ℝ) (distance : ℝ) :
    (alongAxis point column polynomial).eval distance =
      eval (Function.update point column (point column + distance)) polynomial := by
  have place (index : Fin n) : (axis point column index).eval distance =
      Function.update point column (point column + distance) index := by
    unfold axis
    by_cases same : index = column
    · subst same
      simp
    · simp [same]
  unfold alongAxis
  induction polynomial using MvPolynomial.induction_on with
  | C constant => simp
  | add first second previous previous' => simp [previous, previous']
  | mul_X factor index previous => simp [previous, place]

/-- The derivative along the axis is the partial derivative. -/
theorem derivative_alongAxis (point : Fin n → ℝ) (column : Fin n)
    (polynomial : MvPolynomial (Fin n) ℝ) :
    (alongAxis point column polynomial).derivative =
      alongAxis point column (pderiv column polynomial) := by
  have slope (index : Fin n) : (axis point column index).derivative =
      aeval (axis point column) (pderiv column (X index) : MvPolynomial (Fin n) ℝ) := by
    unfold axis
    by_cases same : index = column
    · subst same
      simp
    · simp [same]
  unfold alongAxis
  induction polynomial using MvPolynomial.induction_on with
  | C constant => simp
  | add first second previous previous' => simp [previous, previous']
  | mul_X factor index previous =>
      rw [map_mul, aeval_X, Polynomial.derivative_mul, previous, slope, pderiv_mul, map_add,
        map_mul, map_mul, aeval_X]

theorem natDegree_alongAxis_le (point : Fin n → ℝ) (column : Fin n)
    {polynomial : MvPolynomial (Fin n) ℝ} {degree : ℕ} (bounded : polynomial.totalDegree ≤ degree) :
    (alongAxis point column polynomial).natDegree ≤ degree := by
  have single (index : Fin n) : (axis point column index).natDegree ≤ 1 := by
    unfold axis
    split
    · compute_degree
    · exact (Polynomial.natDegree_C _).le.trans zero_le_one
  have product := aeval_natDegree_le polynomial bounded (axis point column) single
  rwa [mul_one] at product

theorem alongAxis_coeff_zero (point : Fin n → ℝ) (column : Fin n)
    (polynomial : MvPolynomial (Fin n) ℝ) :
    (alongAxis point column polynomial).coeff 0 = eval point polynomial := by
  rw [Polynomial.coeff_zero_eq_eval_zero, eval_alongAxis, add_zero, Function.update_eq_self]

theorem alongAxis_coeff_one (point : Fin n → ℝ) (column : Fin n)
    (polynomial : MvPolynomial (Fin n) ℝ) :
    (alongAxis point column polynomial).coeff 1 = eval point (pderiv column polynomial) := by
  have slope := (alongAxis point column polynomial).coeff_derivative 0
  rw [derivative_alongAxis, alongAxis_coeff_zero] at slope
  simpa using slope.symm

theorem alongAxis_coeff_two (point : Fin n → ℝ) (column : Fin n)
    (polynomial : MvPolynomial (Fin n) ℝ) :
    (alongAxis point column polynomial).coeff 2 =
      1 / 2 * eval point (pderiv column (pderiv column polynomial)) := by
  have bend := (alongAxis point column polynomial).coeff_derivative 1
  rw [derivative_alongAxis, alongAxis_coeff_one] at bend
  rw [bend, Nat.cast_one]
  ring

/-- A polynomial of degree two or less is its value, its slope and its curvature along an axis. -/
theorem eval_update_of_quadratic (point : Fin n → ℝ) (column : Fin n)
    {polynomial : MvPolynomial (Fin n) ℝ} (quadratic : polynomial.totalDegree ≤ 2)
    (distance : ℝ) :
    eval (Function.update point column (point column + distance)) polynomial =
      eval point polynomial + distance * eval point (pderiv column polynomial) +
        distance ^ 2 / 2 * eval point (pderiv column (pderiv column polynomial)) := by
  have degree := Nat.lt_succ_of_le (natDegree_alongAxis_le point column quadratic)
  rw [← eval_alongAxis, Polynomial.eval_eq_sum_range' degree, Finset.sum_range_succ,
    Finset.sum_range_succ, Finset.sum_range_one, alongAxis_coeff_zero, alongAxis_coeff_one,
    alongAxis_coeff_two]
  ring

/-- Ahead and behind the curvature is the same, and cancels. -/
theorem centralQuotient_of_quadratic (point : Fin n → ℝ) (column : Fin n)
    {polynomial : MvPolynomial (Fin n) ℝ} (quadratic : polynomial.totalDegree ≤ 2) {step : ℝ}
    (nonzero : step ≠ 0) :
    (eval (Function.update point column (point column + step)) polynomial -
        eval (Function.update point column (point column + -step)) polynomial) / (2 * step) =
      eval point (pderiv column polynomial) := by
  rw [eval_update_of_quadratic point column quadratic,
    eval_update_of_quadratic point column quadratic]
  field_simp
  ring

theorem forwardQuotient_of_quadratic (point : Fin n → ℝ) (column : Fin n)
    {polynomial : MvPolynomial (Fin n) ℝ} (quadratic : polynomial.totalDegree ≤ 2) {step : ℝ}
    (nonzero : step ≠ 0) :
    (eval (Function.update point column (point column + step)) polynomial -
        eval point polynomial) / step =
      eval point (pderiv column polynomial) +
        step / 2 * eval point (pderiv column (pderiv column polynomial)) := by
  rw [eval_update_of_quadratic point column quadratic]
  field_simp
  ring

theorem curvature_of_affine (point : Fin n → ℝ) (column : Fin n)
    {polynomial : MvPolynomial (Fin n) ℝ} (affine : polynomial.totalDegree ≤ 1) :
    eval point (pderiv column (pderiv column polynomial)) = 0 := by
  have degree := Nat.lt_succ_of_le (natDegree_alongAxis_le point column affine)
  have straight := alongAxis_coeff_two point column polynomial
  rw [Polynomial.coeff_eq_zero_of_natDegree_lt degree] at straight
  linarith

theorem hasFDerivAt_eval (polynomial : MvPolynomial (Fin n) ℝ) (point : Fin n → ℝ) :
    HasFDerivAt (fun x => eval x polynomial)
      (along fun column => eval point (pderiv column polynomial)) point := by
  induction polynomial using MvPolynomial.induction_on with
  | C constant =>
      have level : (along fun column => eval point (pderiv column (C constant))) = 0 :=
        along_eq_zero_iff.mpr (funext fun column => by simp)
      simp only [eval_C]
      rw [level]
      exact hasFDerivAt_const constant point
  | add first second previous previous' =>
      simp only [map_add]
      refine (previous.add previous').congr_fderiv ?_
      ext direction
      simp [dotProduct, add_mul, Finset.sum_add_distrib]
  | mul_X factor index previous =>
      have product (column : Fin n) : eval point (pderiv column (factor * X index)) =
          eval point factor * (if index = column then 1 else 0) +
            point index * eval point (pderiv column factor) := by
        rw [pderiv_mul, pderiv_X, Pi.single_apply, map_add, map_mul, map_mul, eval_X,
          apply_ite (eval point), map_one, map_zero]
        ring
      simp only [map_mul, eval_X, product]
      refine (previous.mul (hasFDerivAt_apply index point)).congr_fderiv ?_
      ext direction
      simp [dotProduct, add_mul, Finset.sum_add_distrib, Finset.mul_sum, mul_assoc]

/-! ## Several residuals -/

namespace Polynomials

noncomputable def values (polynomials : Fin m → MvPolynomial (Fin n) ℝ) (x : Fin n → ℝ) :
    Fin m → ℝ :=
  fun row => eval x (polynomials row)

noncomputable def partials (polynomials : Fin m → MvPolynomial (Fin n) ℝ) (x : Fin n → ℝ) :
    RealMatrix m n :=
  fun row column => eval x (pderiv column (polynomials row))

/-- The second derivatives along the axes. -/
noncomputable def curvatures (polynomials : Fin m → MvPolynomial (Fin n) ℝ) (x : Fin n → ℝ) :
    RealMatrix m n :=
  fun row column => eval x (pderiv column (pderiv column (polynomials row)))

/-- The partial derivatives make up the derivative of the residuals. -/
theorem hasFDerivAt_values (polynomials : Fin m → MvPolynomial (Fin n) ℝ) (point : Fin n → ℝ) :
    HasFDerivAt (values polynomials) (linear (partials polynomials point)) point := by
  refine hasFDerivAt_pi'.mpr fun row => ?_
  refine (hasFDerivAt_eval (polynomials row) point).congr_fderiv ?_
  ext direction
  simp [linear, Matrix.mulVec, partials]

end Polynomials

end DampedLeastSquares
