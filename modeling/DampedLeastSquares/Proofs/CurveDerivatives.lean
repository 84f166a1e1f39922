import Mathlib
import DampedLeastSquares.Problem.Curves
import DampedLeastSquares.Proofs.CostGradient
import DampedLeastSquares.Proofs.Landing

/-!
# The derivatives of curves

In exact arithmetic the Jacobians of the curves are the derivatives of their residuals everywhere.
Those of the valley and of the badly scaled system have independent columns everywhere, and in the
valley no gradient vanishes but at the optimum, so a search cannot come to rest elsewhere.
-/

set_option autoImplicit false

open scoped Matrix

namespace DampedLeastSquares

open Exact

variable {k l : Nat}

theorem parameter_zero (x : Fin 2 → ℝ) : parameter (List.ofFn x) 0 = .ok (x 0) := rfl

theorem parameter_one (x : Fin 2 → ℝ) : parameter (List.ofFn x) 1 = .ok (x 1) := rfl

theorem hasFDerivAt_entry (index : Fin k) (x : Fin k → ℝ) :
    HasFDerivAt (fun x : Fin k → ℝ => x index)
      (ContinuousLinearMap.proj index : (Fin k → ℝ) →L[ℝ] ℝ) x :=
  hasFDerivAt_apply index x

theorem DenseMatrix.ofPairs_ofFn (rows : Fin l → ℝ × ℝ) :
    ofPairs (List.ofFn rows) = ofMatrix fun row => ![(rows row).1, (rows row).2] := by
  simp [ofPairs, ofMatrix, List.map_ofFn, Function.comp_def]

theorem independent_of_mulVec {matrix : RealMatrix l k}
    (injective : ∀ vector, matrix *ᵥ vector = 0 → vector = 0) :
    LinearIndependent ℝ matrix.col := by
  rw [← Matrix.mulVec_injective_iff]
  intro first second same
  refine sub_eq_zero.mp (injective _ ?_)
  rw [Matrix.mulVec_sub, sub_eq_zero]
  exact same

/-- At all parameters the functions compute these residuals and their derivative. -/
structure Derives (residuals : Vec ℝ → Except (Fault ℝ) (Vec ℝ))
    (jacobian : Vec ℝ → Except (Fault ℝ) (DenseMatrix ℝ)) (values : (Fin k → ℝ) → Fin l → ℝ)
    (slopes : (Fin k → ℝ) → RealMatrix l k) : Prop where
  residuals x : residuals (List.ofFn x) = .ok (List.ofFn (values x))
  jacobian x : jacobian (List.ofFn x) = .ok (DenseMatrix.ofMatrix (slopes x))
  derivative x : HasFDerivAt values (linear (slopes x)) x

namespace Rosenbrock

noncomputable def values (x : Fin 2 → ℝ) : Fin 2 → ℝ := ![10 * (x 1 - x 0 * x 0), 1 - x 0]

noncomputable def slopes (x : Fin 2 → ℝ) : RealMatrix 2 2 := !![-20 * x 0, 10; -1, 0]

theorem hasFDerivAt_values (x : Fin 2 → ℝ) : HasFDerivAt values (linear (slopes x)) x := by
  refine hasFDerivAt_of_rows (Fin.forall_fin_two.mpr ⟨?_, ?_⟩)
  · have square := (hasFDerivAt_entry 0 x).mul (hasFDerivAt_entry 0 x)
    refine (((hasFDerivAt_entry 1 x).sub square).const_mul 10).congr_fderiv ?_
    ext direction
    simp [slopes, dotProduct, Fin.sum_univ_two]
    ring
  · refine ((hasFDerivAt_entry 0 x).const_sub 1).congr_fderiv ?_
    ext direction
    simp [slopes, dotProduct, Fin.sum_univ_two]

theorem derives : Derives residuals jacobian values slopes where
  residuals x := by
    simp only [residuals, parameter_zero, parameter_one, ok_bind, literal_ten, literal_one]
    rfl
  jacobian x := by
    simp only [jacobian, parameter_zero, ok_bind, literal_ten, literal_twenty, literal_one,
      literal_zero]
    exact congrArg Except.ok (DenseMatrix.ofPairs_ofFn ![(-20 * x 0, 10), (-1, 0)])
  derivative := hasFDerivAt_values

theorem slopes_independent (x : Fin 2 → ℝ) : LinearIndependent ℝ (slopes x).col := by
  refine independent_of_mulVec fun vector zero => ?_
  have first := congrFun zero 0
  have second := congrFun zero 1
  simp only [slopes, Matrix.mulVec, dotProduct, Fin.sum_univ_two, Matrix.of_apply,
    Matrix.cons_val_zero, Matrix.cons_val_one, Pi.zero_apply] at first second
  have zero : vector 0 = 0 := by linarith
  rw [zero] at first
  have zero' : vector 1 = 0 := by linarith
  exact funext (Fin.forall_fin_two.mpr ⟨zero, zero'⟩)

theorem values_eq_zero_iff (x : Fin 2 → ℝ) : values x = 0 ↔ List.ofFn x = optimum := by
  have entries : List.ofFn x = optimum ↔ x 0 = 1 ∧ x 1 = 1 := by
    simp [optimum]
  rw [entries, funext_iff, Fin.forall_fin_two]
  change 10 * (x 1 - x 0 * x 0) = 0 ∧ 1 - x 0 = 0 ↔ _
  constructor
  · rintro ⟨valley, first⟩
    have first : x 0 = 1 := by linarith
    rw [first] at valley
    exact ⟨first, by linarith⟩
  · rintro ⟨first, second⟩
    rw [first, second]
    norm_num

/-- The gradient is zero at the optimum only: the transposed Jacobian takes nothing else to zero. -/
theorem gradient_eq_zero_iff (x : Fin 2 → ℝ) :
    (slopes x)ᵀ *ᵥ values x = 0 ↔ List.ofFn x = optimum := by
  rw [← values_eq_zero_iff]
  constructor
  · intro zero
    have first := congrFun zero 0
    have second := congrFun zero 1
    simp only [slopes, Matrix.mulVec, dotProduct, Fin.sum_univ_two, Matrix.transpose_apply,
      Matrix.of_apply, Matrix.cons_val_zero, Matrix.cons_val_one, Pi.zero_apply] at first second
    have valley : values x 0 = 0 := by linarith
    rw [valley] at first
    have distance : values x 1 = 0 := by linarith
    exact funext (Fin.forall_fin_two.mpr ⟨valley, distance⟩)
  · intro zero
    rw [zero, Matrix.mulVec_zero]

end Rosenbrock

namespace Brown

noncomputable def values (x : Fin 2 → ℝ) : Fin 3 → ℝ :=
  ![x 0 - 1.0e6, x 1 - 2.0e-6, x 0 * x 1 - 2.0]

noncomputable def slopes (x : Fin 2 → ℝ) : RealMatrix 3 2 := !![1, 0; 0, 1; x 1, x 0]

theorem hasFDerivAt_values (x : Fin 2 → ℝ) : HasFDerivAt values (linear (slopes x)) x := by
  refine hasFDerivAt_of_rows fun row => ?_
  fin_cases row
  · refine ((hasFDerivAt_entry 0 x).sub_const 1.0e6).congr_fderiv ?_
    ext direction
    simp [slopes, dotProduct, Fin.sum_univ_two]
  · refine ((hasFDerivAt_entry 1 x).sub_const 2.0e-6).congr_fderiv ?_
    ext direction
    simp [slopes, dotProduct, Fin.sum_univ_two]
  · refine (((hasFDerivAt_entry 0 x).mul (hasFDerivAt_entry 1 x)).sub_const 2.0).congr_fderiv ?_
    ext direction
    simp [slopes, dotProduct, Fin.sum_univ_two]
    ring

theorem derives : Derives residuals jacobian values slopes where
  residuals x := by
    simp only [residuals, parameter_zero, parameter_one, ok_bind]
    rfl
  jacobian x := by
    simp only [jacobian, parameter_zero, parameter_one, ok_bind, literal_one, literal_zero]
    exact congrArg Except.ok (DenseMatrix.ofPairs_ofFn ![(1, 0), (0, 1), (x 1, x 0)])
  derivative := hasFDerivAt_values

theorem slopes_independent (x : Fin 2 → ℝ) : LinearIndependent ℝ (slopes x).col := by
  refine independent_of_mulVec fun vector zero => ?_
  have first := congrFun zero 0
  have second := congrFun zero 1
  simp only [slopes, Matrix.mulVec, dotProduct, Fin.sum_univ_two, Matrix.of_apply,
    Matrix.cons_val_zero, Matrix.cons_val_one, Pi.zero_apply] at first second
  have zero : vector 0 = 0 := by linarith
  have zero' : vector 1 = 0 := by linarith
  exact funext (Fin.forall_fin_two.mpr ⟨zero, zero'⟩)

end Brown

namespace Exponential

variable (times samples : Fin l → ℝ)

noncomputable def values (x : Fin 2 → ℝ) : Fin l → ℝ := fun row =>
  x 0 * Real.exp (x 1 * times row) - samples row

noncomputable def slopes (x : Fin 2 → ℝ) : RealMatrix l 2 := fun row =>
  ![Real.exp (x 1 * times row), x 0 * times row * Real.exp (x 1 * times row)]

theorem hasFDerivAt_values (x : Fin 2 → ℝ) :
    HasFDerivAt (values times samples) (linear (slopes times x)) x := by
  refine hasFDerivAt_of_rows fun row => ?_
  have growth := ((hasFDerivAt_entry 1 x).mul_const (times row)).exp
  refine (((hasFDerivAt_entry 0 x).mul growth).sub_const (samples row)).congr_fderiv ?_
  ext direction
  simp [slopes, dotProduct, Fin.sum_univ_two]
  ring

theorem derives : Derives (residuals (List.ofFn times) (List.ofFn samples))
    (jacobian (List.ofFn times)) (values times samples) (slopes times) where
  residuals x := by
    simp only [residuals, parameter_zero, parameter_one, ok_bind, List.map_ofFn, combine?_ofFn]
    rfl
  jacobian x := by
    simp only [jacobian, parameter_zero, parameter_one, ok_bind, List.map_ofFn,
      DenseMatrix.ofPairs_ofFn]
    rfl
  derivative := hasFDerivAt_values times samples

end Exponential

/-! ## Searches in the valley -/

namespace Solver

variable {σ : Type}

/-- The search stands at the optimum of the valley, and all other parameters cost more. -/
structure AtValleyOptimum (solver : Solver σ ℝ) : Prop where
  place : solver.x = Rosenbrock.optimum
  cost : solver.cost = 0
  least : ∀ other : Fin 2 → ℝ, List.ofFn other ≠ Rosenbrock.optimum →
    ∃ cost, solver.loss.cost (List.ofFn (Rosenbrock.values other)) = .ok cost ∧ solver.cost < cost

theorem Tracks.atValleyOptimum {solver : Solver σ ℝ} {problem : Problem σ ℝ}
    (tracks : solver.Tracks problem (onVectors Rosenbrock.values) 2 2)
    (squared : solver.loss.shape = .squared) {x : Fin 2 → ℝ} (place : solver.x = List.ofFn x)
    (optimal : List.ofFn x = Rosenbrock.optimum) : solver.AtValleyOptimum := by
  have costed := tracks.costed
  rw [tracks.residuals_eq place, (Rosenbrock.values_eq_zero_iff x).mpr optimal,
    Loss.cost_of_squared squared, zero_dotProduct, mul_zero] at costed
  have cost : solver.cost = 0 := (Except.ok.inj costed).symm
  refine ⟨place.trans optimal, cost, ?_⟩
  intro other elsewhere
  refine ⟨_, Loss.cost_of_squared squared (Rosenbrock.values other), ?_⟩
  have nonzero : Rosenbrock.values other ≠ 0 := fun zero =>
    elsewhere ((Rosenbrock.values_eq_zero_iff other).mp zero)
  have positive := Matrix.dotProduct_star_self_pos_iff.mpr nonzero
  rw [star_trivial] at positive
  rw [cost]
  linarith

variable [Spectral ℝ]

/-- A call that computes derivatives ends the search exactly at the optimum. -/
theorem Tracks.valley_ends_iff {before : Solver σ ℝ} {problem : Problem σ ℝ}
    (tracks : before.Tracks problem (onVectors Rosenbrock.values) 2 2)
    (squared : before.loss.shape = .squared) (phase : before.phase = .differentiate)
    {x : Fin 2 → ℝ} (place : before.x = List.ofFn x) (hands : before.Hands (Rosenbrock.slopes x))
    (strict : before.settings.gradientTolerance = 0) :
    before.answer = .ok true ↔ List.ofFn x = Rosenbrock.optimum := by
  have found : before.loss.gradientInto 2 before.residuals =
      .ok (List.ofFn (Rosenbrock.values x)) := by
    rw [tracks.residuals_eq place]
    exact Loss.gradientInto_of_squared squared (Rosenbrock.values x)
  have tests := tests_of_hands tracks.sized phase hands found
  have vanishes : (∀ index, |((Rosenbrock.slopes x)ᵀ *ᵥ Rosenbrock.values x) index| ≤
      before.settings.gradientTolerance) ↔ List.ofFn x = Rosenbrock.optimum := by
    simp only [strict, abs_nonpos_iff]
    rw [← Rosenbrock.gradient_eq_zero_iff, funext_iff]
    rfl
  constructor
  · intro ended
    by_contra elsewhere
    cases ended.symm.trans (tests.goes (vanishes.not.mpr elsewhere)).1
  · exact fun optimal => (tests.stops (vanishes.mpr optimal)).1

/-- Where the gradient of the valley vanishes a search has found the optimum, and without a
tolerance the gradient ends it there alone. -/
structure RestsAtValleyOptimum (started : Solver σ ℝ) : Prop where
  stationary : ∀ count x, (started.afterCalls count).x = List.ofFn x →
    (Rosenbrock.slopes x)ᵀ *ᵥ Rosenbrock.values x = 0 → (started.afterCalls count).AtValleyOptimum
  ends : ∀ count x, (started.afterCalls count).x = List.ofFn x →
    (started.afterCalls count).phase = .differentiate →
    (started.afterCalls count).Hands (Rosenbrock.slopes x) →
    (started.afterCalls count).settings.gradientTolerance = 0 →
    ((started.afterCalls count).answer = .ok true ↔ (started.afterCalls count).AtValleyOptimum)

theorem restsAtValleyOptimum_of_start {idle started : Solver σ ℝ} {problem : Problem σ ℝ}
    {point : Fin 2 → ℝ} {cost? gradient? : Option ℝ}
    (success : (start (List.ofFn point) cost? gradient?).run idle = (.ok (), started))
    (given : idle.problem? = some problem)
    (computes : problem.Computes (onVectors Rosenbrock.values) 2 2)
    (squared : idle.loss.shape = .squared) : started.RestsAtValleyOptimum := by
  have smooth : idle.loss.IsSmooth := by
    unfold Loss.IsSmooth
    rw [squared]
    trivial
  obtain ⟨_, readied, _⟩ := (start_leaves idle _ cost? gradient?).of_run_ok success
  have tracks (count : Nat) := (tracks_of_smooth success given computes smooth count).1
  have squared' (count : Nat) := afterCalls_squared (squared_of_readied squared readied) count
  constructor
  · intro count x place zero
    exact (tracks count).atValleyOptimum (squared' count) place
      ((Rosenbrock.gradient_eq_zero_iff x).mp zero)
  · intro count x place phase hands strict
    rw [(tracks count).valley_ends_iff (squared' count) phase place hands strict]
    constructor
    · exact (tracks count).atValleyOptimum (squared' count) place
    · exact fun found => place.symm.trans found.place

end Solver

/-- The functions of the valley as a search asks for them. -/
noncomputable def Rosenbrock.problem : Problem Unit ℝ where
  residuals x := do return .vector (← Call.ofExcept (residuals x))
  jacobian x := do return .whole (.matrix (.dense (← Call.ofExcept (jacobian x))))

theorem Rosenbrock.residuals_run (x : Fin 2 → ℝ) (before : Unit) :
    (problem.residuals (List.ofFn x)).run before =
      (.ok (.vector (List.ofFn (values x))), before) := by
  unfold problem
  dsimp only
  rw [derives.residuals]
  rfl

theorem Rosenbrock.jacobian_run (x : Fin 2 → ℝ) (before : Unit) :
    (problem.jacobian (List.ofFn x)).run before =
      (.ok (.whole (.matrix (.dense (DenseMatrix.ofMatrix (slopes x))))), before) := by
  unfold problem
  dsimp only
  rw [derives.jacobian]
  rfl

theorem Rosenbrock.problem_computes : problem.Computes (onVectors values) 2 2 := by
  intro x size
  obtain ⟨x, rfl⟩ := exists_ofFn size
  rw [onVectors_ofFn]
  refine ⟨List.length_ofFn, fun before after answer ran => ?_⟩
  cases (residuals_run x before).symm.trans ran
  rfl

/-- A search in the valley that has not started. -/
noncomputable def valleySearch : Solver Unit ℝ :=
  { Solver.unitSearch with problem? := some Rosenbrock.problem }

/-- The Jacobians of the curves are the true derivatives. The normal matrices of the valley and of
the badly scaled system are positive definite everywhere, and no gradient of the valley vanishes but
at its optimum, which is where a search at rest has found the minimum. -/
theorem curves_differentiated :
    (Derives Rosenbrock.residuals Rosenbrock.jacobian Rosenbrock.values Rosenbrock.slopes ∧
      (∀ x, ((Rosenbrock.slopes x)ᵀ * Rosenbrock.slopes x).PosDef) ∧
      ∀ x, (Rosenbrock.slopes x)ᵀ *ᵥ Rosenbrock.values x = 0 ↔
        List.ofFn x = Rosenbrock.optimum) ∧
    (Derives Brown.residuals Brown.jacobian Brown.values Brown.slopes ∧
      ∀ x, ((Brown.slopes x)ᵀ * Brown.slopes x).PosDef) ∧
    (∀ (l : Nat) (times samples : Fin l → ℝ),
      Derives (Exponential.residuals (List.ofFn times) (List.ofFn samples))
        (Exponential.jacobian (List.ofFn times)) (Exponential.values times samples)
        (Exponential.slopes times)) ∧
    ∀ (σ : Type) (_ : Spectral ℝ) (idle started : Solver σ ℝ) (problem : Problem σ ℝ)
      (point : Fin 2 → ℝ) (cost? gradient? : Option ℝ),
      (Solver.start (List.ofFn point) cost? gradient?).run idle = (.ok (), started) →
      idle.problem? = some problem → problem.Computes (onVectors Rosenbrock.values) 2 2 →
      idle.loss.shape = .squared → started.RestsAtValleyOptimum := by
  refine ⟨⟨Rosenbrock.derives, fun x => gram_posDef (Rosenbrock.slopes_independent x),
    Rosenbrock.gradient_eq_zero_iff⟩, ⟨Brown.derives, fun x =>
    gram_posDef (Brown.slopes_independent x)⟩, fun l => Exponential.derives, ?_⟩
  intro σ _ idle started problem point cost? gradient? success given computes squared
  exact Solver.restsAtValleyOptimum_of_start success given computes squared

/-- A start in the optimum, without a tolerance for the gradient, ends there at once. -/
theorem curves_differentiated_from_optimum : ∃ (_ : Spectral ℝ) (started : Solver Unit ℝ),
    (Solver.start (List.ofFn ![1, 1]) none (some 0)).run valleySearch = (.ok (), started) ∧
      started.RestsAtValleyOptimum ∧ started.answer = .ok true := by
  let spectral : Spectral ℝ := ⟨fun _ => []⟩
  have proper : Settings.Proper (valleySearch.settings.adopting none (some (0 : ℝ))) :=
    { Settings.standard_proper with gradientTolerance := le_rfl }
  obtain ⟨started, success⟩ := Solver.start_squared proper.check
    ⟨nofun, _, rfl, Rosenbrock.residuals_run ![1, 1] ()⟩ rfl rfl
  obtain ⟨ready, _, _, _, settings⟩ := (Solver.start_leaves _ _ _ _).of_run_ok success
  have hands : started.Hands (Rosenbrock.slopes ![1, 1]) := by
    have answered := Rosenbrock.jacobian_run ![1, 1] started.world
    rw [← ready.x] at answered
    refine ⟨_, _, _, ready.problem, answered, ?_, ?_⟩
    · rw [ready.form]
      exact ⟨_, rfl, _, rfl, Matrix.represents_dense _⟩
    · rw [ready.form, ready.normal]
      exact fun _ => ⟨_, rfl⟩
  have optimal : List.ofFn (![1, 1] : Fin 2 → ℝ) = Rosenbrock.optimum := by
    simp [Rosenbrock.optimum]
  have rests := curves_differentiated.2.2.2 Unit spectral valleySearch started Rosenbrock.problem
    ![1, 1] none (some 0) success rfl Rosenbrock.problem_computes rfl
  have strict : started.settings.gradientTolerance = 0 := by
    rw [settings]
    rfl
  have zero := (Rosenbrock.gradient_eq_zero_iff ![1, 1]).mpr optimal
  exact ⟨spectral, started, success, rests, (rests.ends 0 ![1, 1] ready.x ready.phase hands
    strict).mpr (rests.stationary 0 ![1, 1] ready.x zero)⟩

end DampedLeastSquares
