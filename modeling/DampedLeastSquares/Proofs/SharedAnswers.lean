import DampedLeastSquares.Proofs.QuadraticDifferences

/-!
# Differences of answers that share memory

What a residual function answered is read after another call, when the array it was called with or
the function's own state may show something else. If all answers show the same memory, the changes
between them are zero, and so are the Jacobians that are made of these changes, whatever the
residuals are. A residual that is a number alone has a column among the forward differences only.
-/

set_option autoImplicit false

namespace DampedLeastSquares

open Exact Polynomials

namespace Difference

variable {σ : Type} {n m : ℕ} {residuals : Vec ℝ → Call σ ℝ (View σ ℝ)} {view : View σ ℝ}

/-- Every call is answered with the same memory, and it shows `m` entries whenever it is read. -/
structure Shares (residuals : Vec ℝ → Call σ ℝ (View σ ℝ)) (view : View σ ℝ) (n m : ℕ) : Prop where
  answers : ∀ (x : Fin n → ℝ) before, ((residuals (List.ofFn x)).run before).1 = .ok view
  level : ∀ (x : Fin n → ℝ) world, (view.entries (List.ofFn x) world).length = m

theorem Shares.run (shares : Shares residuals view n m) (x : Fin n → ℝ) (before : σ) :
    (residuals (List.ofFn x)).run before = (.ok view, calledAt residuals [List.ofFn x] before) :=
  Prod.ext (shares.answers x before) rfl

/-- The change between two readings that show the same. -/
theorem zipWith_sub_self {entries : Vec ℝ} (size : entries.length = m) :
    List.zipWith (· - ·) entries entries = List.ofFn fun _ : Fin m => (0 : ℝ) := by
  rw [List.zipWith_self, List.ofFn_const, ← size]
  simp only [sub_self, List.map_const']

theorem map_zero_div (step : ℝ) :
    (List.ofFn fun _ : Fin m => (0 : ℝ)).map (· / step) = List.ofFn fun _ : Fin m => (0 : ℝ) := by
  simp only [List.map_ofFn, Function.comp_def, zero_div]

theorem ofColumns_zero (m n : ℕ) :
    DenseMatrix.ofColumns m (List.ofFn fun _ : Fin n => List.ofFn fun _ : Fin m => (0 : ℝ)) =
      DenseMatrix.ofMatrix (0 : RealMatrix m n) :=
  DenseMatrix.ofColumns_ofFn fun _ _ => 0

/-! ## Forward differences -/

/-- Both answers are read while the array is changed, and show the same. -/
theorem Shares.asks_forwardColumn (shares : Shares residuals view n m) (scale parameter : ℝ)
    (array : Fin n → ℝ) :
    Asks residuals (forwardColumn residuals scale m view parameter (List.ofFn array))
      [List.ofFn array] (List.ofFn fun _ : Fin m => 0) := by
  intro before
  set entries := view.entries (List.ofFn array) (calledAt residuals [List.ofFn array] before)
  have change : Vec.combine? (· - ·) entries entries = some (List.ofFn fun _ : Fin m => 0) := by
    rw [Vec.combine?_of_length_eq _ rfl, zipWith_sub_self (shares.level _ _)]
  have filled := Vec.fill?_self (List.ofFn fun _ : Fin m => (0 : ℝ))
  rw [List.length_ofFn] at filled
  unfold forwardColumn
  rw [Call.run_bind_ok (shares.run _ before), Call.run_bind_ok (view.run_read _ _),
    Call.run_bind_ok (view.run_read _ _)]
  refine (asks_bind_nothing (asks_fit change) (asks_fit ?_) : Asks residuals _ [] _) _
  rw [map_zero_div]
  exact filled

/-- Of residuals that share memory the forward differences are zero, though they ask at the same
points as those of any other. -/
theorem Shares.asks_forwardJacobian (shares : Shares residuals view n m) (scale : ℝ)
    (point : Fin n → ℝ) :
    Asks residuals (forwardJacobian residuals scale (List.ofFn point))
      ((forwardPoints point scale).map List.ofFn) (DenseMatrix.ofMatrix (0 : RealMatrix m n)) := by
  intro before
  have columns : Asks residuals
      ((List.range n).mapM fun position => forwardColumn residuals scale m view
        ((List.ofFn point).getD position 0.0) (moved scale (List.ofFn point) position))
      ((List.finRange n).flatMap fun column =>
        [List.ofFn (shifted point column (stepAt scale (point column)))])
      (List.ofFn fun _ : Fin n => List.ofFn fun _ : Fin m => (0 : ℝ)) := by
    refine asks_range fun column => ?_
    rw [moved_ofFn]
    exact shares.asks_forwardColumn scale _ _
  rw [forwardJacobian_run_ok (shares.run _ before), shares.level point, List.length_ofFn,
    Call.run_bind_ok (columns _), ofColumns_zero, forwardPoints, List.map_cons, List.map_map,
    List.map_eq_flatMap]
  rfl

/-! ## Central differences -/

/-- The points of a central difference are arrays of their own, so only memory that the function
keeps is shared between its two answers. -/
theorem Shares.asks_central (shares : Shares residuals view n m) (shape : view.shape = [m])
    (kept : ∀ array array' world, view.entries array world = view.entries array' world)
    (point : Fin n → ℝ) (column : Fin n) (step : ℝ) :
    Asks residuals (central residuals (List.ofFn point) ((Vec.zeros n).set column 1.0) step)
      [List.ofFn (shifted point column step), List.ofFn (shifted point column (-step))]
      (.vector (List.ofFn fun _ : Fin m => 0)) := by
  intro before
  set points := [List.ofFn (shifted point column step), List.ofFn (shifted point column (-step))]
  set entries := view.entries (List.ofFn (shifted point column (-step)))
    (calledAt residuals points before)
  have level : entries.length = m := shares.level _ _
  have vector : (⟨view.shape, entries⟩ : Tensor ℝ) = .vector entries := by
    rw [shape, ← level, Tensor.vector]
  have change : Tensor.combine? (· - ·) (.vector entries) (.vector entries) =
      some (.vector (List.ofFn fun _ : Fin m => (0 : ℝ))) := by
    rw [combine?_vector rfl, zipWith_sub_self level]
  have divided : Asks residuals _ [] _ :=
    asks_quotient (List.ofFn fun _ : Fin m => (0 : ℝ)) (2.0 * step)
  rw [map_zero_div] at divided
  have onward : Asks residuals _ [] _ := asks_fit (add_unit point column step)
  have backward : Asks residuals _ [] _ := asks_fit (sub_unit point column step)
  unfold central
  rw [Call.run_bind_ok (onward before), Call.run_bind_ok (shares.run _ _),
    Call.run_bind_ok (backward _), Call.run_bind_ok (shares.run _ _),
    Call.run_bind_ok (view.run_read _ _), Call.run_bind_ok (view.run_read _ _),
    kept (List.ofFn (shifted point column step)) (List.ofFn (shifted point column (-step)))]
  change (Call.fit (Tensor.combine? (· - ·) ⟨view.shape, entries⟩ ⟨view.shape, entries⟩) >>=
    fun change => quotient change (2.0 * step)).run _ = _
  rw [vector]
  exact asks_bind_nothing (asks_fit change) divided _

/-- Of residuals that a function keeps in one array and writes to in every call, the central
differences are zero. -/
theorem Shares.asks_alongUnits (shares : Shares residuals view n m) (shape : view.shape = [m])
    (kept : ∀ array array' world, view.entries array world = view.entries array' world)
    (some : 0 < n) (point : Fin n → ℝ) (step : ℝ) :
    Asks residuals (alongUnits (central residuals · · step) (List.ofFn point))
      ((centralPoints point step).map List.ofFn) (DenseMatrix.ofMatrix (0 : RealMatrix m n)) := by
  rw [centralPoints, List.map_flatMap, ← ofColumns_zero]
  exact Difference.asks_alongUnits List.length_ofFn some
    (fun column => shares.asks_central shape kept point column step) fun _ => List.length_ofFn

/-! ## Numbers alone -/

theorem asks_central_of_numbers {value : Vec ℝ → ℝ}
    (replies : ∀ x, Replies residuals x (· = .scalar (value x))) (point : Fin n → ℝ)
    (column : Fin n) {step : ℝ} (nonzero : step ≠ 0) :
    Asks residuals (central residuals (List.ofFn point) ((Vec.zeros n).set column 1.0) step)
      [List.ofFn (shifted point column step), List.ofFn (shifted point column (-step))]
      (.scalar ((value (List.ofFn (shifted point column step)) -
        value (List.ofFn (shifted point column (-step)))) / (2.0 * step))) := by
  have divides : ¬ ((2.0 * step == 0.0) = true) := by
    rw [beq_iff, literal_two, literal_zero]
    exact mul_ne_zero two_ne_zero nonzero
  unfold central
  refine asks_bind (asks_fit (add_unit point column step)) (asks_call (replies _) ?_)
  rintro _ rfl
  refine asks_bind (asks_fit (sub_unit point column step)) (asks_call (replies _) ?_)
  rintro _ rfl
  refine asks_read (asks_read (asks_bind (asks_fit rfl) ?_))
  unfold quotient
  rw [if_neg fun zero => divides zero.2]
  exact asks_pure _

theorem unitColumn_run_number (derivative : Vec ℝ → Call σ ℝ (Tensor ℝ)) {direction : Vec ℝ}
    {slope : ℝ} {before after : σ}
    (ran : (derivative direction).run before = (.ok (.scalar slope), after)) :
    (unitColumn derivative direction).run before = (.error .unsupported, after) := by
  unfold unitColumn
  exact Call.run_bind_ok ran

/-- A residual that is answered as a number has no column along a unit vector. Among the forward
differences it has one, as the flattened answer. -/
theorem alongUnits_of_numbers {value : Vec ℝ → ℝ}
    (replies : ∀ x, Replies residuals x (· = .scalar (value x)))
    (point : Fin (n + 1) → ℝ) {step : ℝ} (nonzero : step ≠ 0) (before : σ) :
    ((alongUnits (central residuals · · step) (List.ofFn point)).run before).1 =
      .error .unsupported := by
  have column := unitColumn_run_number (central residuals (List.ofFn point) · step)
    (asks_central_of_numbers replies point 0 nonzero before)
  unfold alongUnits
  rw [List.length_ofFn, inTurn_eq_mapM, List.range_succ_eq_map, List.mapM_cons, bind_assoc]
  exact congrArg Prod.fst (Call.run_bind_error column)

/-! ## Residuals that answer with their argument -/

/-- The parameters themselves, in the array that was handed over. -/
def argument (x : Vec ℝ) : Call Unit ℝ (View Unit ℝ) :=
  return ⟨[x.length], fun array _ => array⟩

noncomputable def numberAlone (_ : Vec ℝ) : Call Unit ℝ (View Unit ℝ) := return .fresh (.scalar 3.0)

theorem argument_shares (n : ℕ) :
    Shares argument ⟨[n], fun array _ => array⟩ n n where
  answers x _ := by
    unfold argument
    rw [List.length_ofFn]
    rfl
  level x _ := List.length_ofFn

/-- The residuals are the parameters, whose Jacobian is the identity. With their array changed under
the answer all forward differences are zero. -/
theorem argument_not_differentiated :
    ∃ polynomials : Fin 2 → MvPolynomial (Fin 2) ℝ,
      (∀ row, (polynomials row).totalDegree ≤ 1) ∧
      (∀ x before, (View.copied argument (List.ofFn x)).run before =
        (.ok (.vector (List.ofFn (values polynomials x))), before)) ∧
      partials polynomials ![1, 2] = 1 ∧
      (∀ (scale : ℝ) (asSparse : Bool), ∃ jacobian : Matrix ℝ,
        jacobian.Represents (0 : RealMatrix 2 2) ∧
        Asks argument (whole argument scale asSparse [1, 2])
          ((forwardPoints ![1, 2] scale).map List.ofFn) (.whole (.matrix jacobian))) ∧
      ((unitJacobian numberAlone false [1]).run ()).1 = .error .unsupported := by
  refine ⟨MvPolynomial.X, fun row => (MvPolynomial.totalDegree_X row).le, fun x before => ?_, ?_,
    fun scale asSparse => ?_, ?_⟩
  · unfold View.copied
    rw [Call.run_bind_ok ((argument_shares 2).run x before), View.run_read]
    simp [values, Tensor.vector]
  · ext row column
    simp [partials, MvPolynomial.pderiv_X, Matrix.one_apply, Pi.single_apply]
  · refine ⟨_, (Matrix.represents_dense _).stored asSparse, ?_⟩
    exact asks_whole ((argument_shares 2).asks_forwardJacobian scale ![1, 2]) asSparse
  · have replies (x : Vec ℝ) : Replies numberAlone x (· = .scalar 3.0) :=
      fun before => ⟨_, before, rfl, rfl⟩
    have step : (centralStep : ℝ) ≠ 0 := by norm_num [centralStep]
    exact alongUnits_of_numbers replies ![1] step ()

end Difference

end DampedLeastSquares
