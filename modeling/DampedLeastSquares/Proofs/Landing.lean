import Mathlib
import DampedLeastSquares.Proofs.Exact.Operations
import DampedLeastSquares.Proofs.LinearResiduals
import DampedLeastSquares.Proofs.Rescaling

/-!
# Undamped steps

Without damping the first trial over linear residuals is the step of Gauss and Newton.
It leads to the least squares solution wherever the search started, and the search
ends there: with the trial, if the cost fell by little, and otherwise with the next
gradient, which vanishes.
-/

set_option autoImplicit false

open scoped Matrix

namespace DampedLeastSquares

open Exact NormalMatrix

variable {σ : Type} {k l : Nat}

/-! ## The least squares solution -/

/-- No other parameters have residuals as short. -/
def LeastSquares (matrix : RealMatrix l k) (offset : Fin l → ℝ) (x : Fin k → ℝ) : Prop :=
  ∀ other, other ≠ x → (matrix *ᵥ x - offset) ⬝ᵥ (matrix *ᵥ x - offset) <
    (matrix *ᵥ other - offset) ⬝ᵥ (matrix *ᵥ other - offset)

section Independent

variable {matrix : RealMatrix l k} (independent : LinearIndependent ℝ matrix.col)

include independent

theorem mulVec_ne_zero {vector : Fin k → ℝ} (nonzero : vector ≠ 0) : matrix *ᵥ vector ≠ 0 := by
  intro zero
  rw [← Matrix.mulVec_zero matrix] at zero
  exact nonzero (Matrix.mulVec_injective_iff.mpr independent zero)

theorem gram_posDef : (matrixᵀ * matrix).PosDef := by
  refine (posDef_iff (gram_isSymm matrix)).mpr fun vector nonzero => ?_
  have positive := Matrix.dotProduct_star_self_pos_iff.mpr (mulVec_ne_zero independent nonzero)
  rw [star_trivial] at positive
  rwa [← Matrix.mulVec_mulVec, Matrix.dotProduct_mulVec, Matrix.vecMul_transpose]

theorem leastSquares_of_normal {offset : Fin l → ℝ} {x : Fin k → ℝ}
    (normal : matrixᵀ *ᵥ (matrix *ᵥ x - offset) = 0) : LeastSquares matrix offset x := by
  intro other differs
  have positive := Matrix.dotProduct_star_self_pos_iff.mpr
    (mulVec_ne_zero independent (sub_ne_zero.mpr differs))
  rw [star_trivial] at positive
  have gain := halfSquare_add matrix (matrix *ᵥ x - offset) (other - x)
  have moved : matrix *ᵥ x - offset + matrix *ᵥ (other - x) = matrix *ᵥ other - offset := by
    rw [Matrix.mulVec_sub]
    abel
  rw [moved, normal, zero_dotProduct] at gain
  linarith

end Independent

theorem normal_add {matrix : RealMatrix l k} {offset : Fin l → ℝ} {x step : Fin k → ℝ}
    (solves : matrixᵀ *ᵥ (matrix *ᵥ step) = -(matrixᵀ *ᵥ (matrix *ᵥ x - offset))) :
    matrixᵀ *ᵥ (matrix *ᵥ (x + step) - offset) = 0 := by
  have moved : matrix *ᵥ (x + step) - offset = matrix *ᵥ x - offset + matrix *ᵥ step := by
    rw [Matrix.mulVec_add, add_sub_right_comm]
  rw [moved, Matrix.mulVec_add, solves, add_neg_cancel]

/-! ## Calls -/

/-- A normal matrix admits whatever the Jacobian function answers with. -/
def Problem.Suits (problem : Problem σ ℝ) (form : JacobianForm) (normal : NormalMatrix ℝ)
    (parameters : Nat) : Prop :=
  ∀ (x : Fin parameters → ℝ) before answer after,
    (problem.jacobian (List.ofFn x)).run before = (.ok answer, after) → normal.Admits form answer

theorem NormalMatrix.Admits.of_layout? {first second : NormalMatrix ℝ} {form : JacobianForm}
    {found : Derivative ℝ} (admits : first.Admits form found)
    (same : second.layout? = first.layout?) : second.Admits form found := by
  cases form with
  | undefined => exact admits.elim
  | whole =>
      cases first with
      | split first => exact admits.elim
      | whole first =>
          cases second with
          | split second => exact (layout?_ne first second same.symm).elim
          | whole second =>
              have storage := (isSparse_iff second).trans (same ▸ (isSparse_iff first).symm)
              intro dense
              refine admits ?_
              rwa [← Bool.not_eq_true, ← storage, Bool.not_eq_true]
  | split =>
      cases first with
      | whole first => exact admits.elim
      | split first =>
          cases second with
          | whole second => exact (layout?_ne second first same).elim
          | split second => exact trivial

namespace Solver

variable [Spectral ℝ] {problem : Problem σ ℝ} {form : JacobianForm} {matrix : RealMatrix l k}
  {offset : Fin l → ℝ}

theorem Aligned.tests {before : Solver σ ℝ} (linear : problem.Linear form matrix offset)
    (suits : problem.Suits form before.normal k)
    (aligned : before.Aligned problem form matrix offset) (phase : before.phase = .differentiate)
    {x : Fin k → ℝ} (place : before.x = List.ofFn x) :
    before.Tests matrix (matrixᵀ *ᵥ (matrix *ᵥ x - offset)) := by
  obtain ⟨answer, world, answered, represents⟩ := linear.jacobian x before.world
  have hands : before.Hands matrix := by
    rw [← place] at answered
    refine ⟨problem, answer, world, aligned.tracks.problem, answered, ?_, ?_⟩
    · exact aligned.form ▸ represents
    · exact aligned.form ▸ suits x _ _ _ (place ▸ answered)
  exact tests_of_hands aligned.supplied.sized phase hands (aligned.slopes place)

omit [Spectral ℝ] in
/-- Where no entry on the diagonal is moved, the damped system is the normal equations. -/
theorem SolvesDamped.normal {settings : Settings ℝ} {damping : ℝ} {slopes : Fin l → ℝ}
    {scaling step : Fin k → ℝ} (solves : SolvesDamped settings damping matrix slopes scaling step)
    (still : ∀ index, raise settings damping
      (divided (matrixᵀ * matrix) scaling index index) = 0) :
    matrixᵀ *ᵥ (matrix *ᵥ step) = -(matrixᵀ *ᵥ slopes) := by
  have level : RealMatrix.diagonal (fun index => raise settings damping
      (divided (matrixᵀ * matrix) scaling index index)) = 0 := by
    rw [funext still]
    exact Matrix.diagonal_zero
  unfold SolvesDamped at solves
  rw [level, Matrix.mul_zero, Matrix.zero_mul, add_zero] at solves
  rw [Matrix.mulVec_mulVec, solves]

/-- Without damping and within the bounds of the diagonal, a trial solves the normal equations and
its candidate is taken over. -/
theorem Aligned.lands {before : Solver σ ℝ} (linear : problem.Linear form matrix offset)
    (independent : LinearIndependent ℝ matrix.col)
    (aligned : before.Aligned problem form matrix offset) (waited : before.gradient ≠ [])
    (phase : before.phase = .search) (undamped : before.damping = 0)
    (within : ∀ entry ∈ before.plainDiagonal,
      before.settings.diagonalMin ≤ entry ∧ entry ≤ before.settings.diagonalMax) :
    before.next.updated = true ∧ before.next.normal.layout? = before.normal.layout? ∧
      ∃ x : Fin k → ℝ, before.next.x = List.ofFn x ∧
        matrixᵀ *ᵥ (matrix *ᵥ x - offset) = 0 := by
  obtain ⟨x, x_eq, _, ready⟩ := aligned.ready linear phase
  have nonzero := ready.toLinearized.scaling_ne aligned.supplied.valid
  have unchanged : ∀ entry ∈ before.plainDiagonal,
      dampedEntry before.settings before.damping entry = entry := by
    intro entry member
    have nonnegative : 0 ≤ entry := by
      rw [ready.plain, divided_gram] at member
      obtain ⟨index, rfl⟩ := List.mem_ofFn.mp member
      exact gram_diagonal_nonneg _ index
    rw [undamped]
    exact dampedEntry_zero nonnegative (within entry member)
  have entries := unchanged
  rw [ready.plain, List.forall_mem_ofFn_iff] at entries
  have definite : (before.dampedSystem matrix
      (scales before.settings (matrixᵀ * matrix))).PosDef := by
    unfold dampedSystem
    rw [funext entries, withDiagonal_self]
    exact (divided_posDef_iff nonzero (gram_isSymm matrix)).mpr (gram_posDef independent)
  have static : before.loss.IsStatic := by
    unfold Loss.IsStatic
    rw [aligned.squared]
    trivial
  obtain ⟨predicted, cost, compares, gains, least⟩ := aligned.compares linear phase definite
    fun entry member => (unchanged entry member).ge
  obtain ⟨⟨converged, returned⟩, updated, _⟩ := iterate_of_gain waited static compares gains least
  obtain ⟨carried, moves⟩ := next_carried aligned.supplied.toSited phase ready.carries
    ready.undoes x_eq rfl
  refine ⟨updated, carried.layout, ?_⟩
  obtain kept | replaced | ⟨_, torn⟩ := next_outcome before
  · cases kept.updated.symm.trans updated
  · obtain ⟨_, advanced, _⟩ := replaced.advanced
    have further := advanced.further
    rw [x_eq, (moves definite).step_eq, combine?_ofFn] at further
    refine ⟨_, (Option.some.inj further).symm, ?_⟩
    have solves : SolvesDamped before.settings before.damping matrix (matrix *ᵥ x - offset) _ _ :=
      solvesDamped_of_posDef nonzero definite
    exact normal_add (solves.normal fun index => by rw [← dampedEntry_eq, entries, sub_self])
  · cases torn.updated.symm.trans updated

/-- At the solution a search ends with the next gradient, if it has not ended before. -/
theorem Aligned.ends {before : Solver σ ℝ} (linear : problem.Linear form matrix offset)
    (suits : problem.Suits form before.normal k)
    (aligned : before.Aligned problem form matrix offset) (derives : before.phase ≠ .search)
    {x : Fin k → ℝ} (place : before.x = List.ofFn x)
    (normal : matrixᵀ *ᵥ (matrix *ᵥ x - offset) = 0) :
    before.answer = .ok true ∧ before.next.x = List.ofFn x := by
  cases phase : before.phase with
  | search => exact (derives phase).elim
  | converged =>
      obtain ⟨answer, same⟩ := rests phase
      rw [same]
      exact ⟨answer, place⟩
  | differentiate =>
      have tests := aligned.tests linear suits phase place
      rw [normal] at tests
      have tolerance := (Settings.proper_of_check aligned.supplied.valid).gradientTolerance
      obtain ⟨_, _, _, _, _, _, _, _, same⟩ := next_differenced phase
      refine ⟨(tests.stops fun index => ?_).1, ?_⟩
      · rwa [Pi.zero_apply, abs_zero]
      · rw [same]
        exact place

/-! ## A run -/

/-- The second call takes the least squares solution over, and the search ends there with this call
or the next. -/
structure Lands (started : Solver σ ℝ) (matrix : RealMatrix l k) (offset : Fin l → ℝ) : Prop where
  searches : started.answer = .ok false ∧ (started.afterCalls 1).phase = .search
  accepts : (started.afterCalls 2).updated = true
  lands : ∃ x, matrixᵀ *ᵥ (matrix *ᵥ x - offset) = 0 ∧ LeastSquares matrix offset x ∧
    (started.afterCalls 2).x = List.ofFn x ∧ (started.afterCalls 3).x = List.ofFn x
  ends : ∃ last, last < 3 ∧ (started.afterCalls last).answer = .ok true ∧
    ∀ earlier, earlier < last → (started.afterCalls earlier).answer = .ok false

theorem Aligned.landing {started : Solver σ ℝ} (linear : problem.Linear form matrix offset)
    (suits : problem.Suits form started.normal k)
    (independent : LinearIndependent ℝ matrix.col)
    (aligned : started.Aligned problem form matrix offset) (phase : started.phase = .differentiate)
    {x : Fin k → ℝ} (place : started.x = List.ofFn x) (undamped : started.damping = 0)
    (steep : ∃ index, started.settings.gradientTolerance <
      |(matrixᵀ *ᵥ (matrix *ᵥ x - offset)) index|)
    (within : ∀ entry ∈ (started.afterCalls 1).plainDiagonal,
      started.settings.diagonalMin ≤ entry ∧ entry ≤ started.settings.diagonalMax) :
    started.Lands matrix offset := by
  have remains : ¬ ∀ index, |(matrixᵀ *ᵥ (matrix *ᵥ x - offset)) index| ≤
      started.settings.gradientTolerance := by
    obtain ⟨index, above⟩ := steep
    exact fun vanishes => absurd (vanishes index) above.not_ge
  obtain ⟨goesOn, searching, layout, _⟩ := (aligned.tests linear suits phase place).goes remains
  have waits : started.phase ≠ .search := by
    rw [phase]
    nofun
  have waited := gradient_of_search aligned.supplied.sized waits 1 searching
  have undamped' : started.next.damping = 0 := (next_of_differentiate phase).1.trans undamped
  have settings := (next_configured started).settings
  have aligned₁ := aligned.next linear
  obtain ⟨updated, layout', x', place', normal⟩ := aligned₁.lands linear independent waited
    searching undamped' (by rwa [settings])
  obtain ⟨_, converged, returned, left⟩ := next_of_updated updated
  have suits' : problem.Suits form started.next.next.normal k := fun x before answer after ran =>
    (suits x before answer after ran).of_layout? (layout'.trans layout)
  have derives : started.next.next.phase ≠ .search := by
    rw [left]
    cases converged <;> nofun
  obtain ⟨ended, stays⟩ := (aligned₁.next linear).ends linear suits' derives place' normal
  refine ⟨⟨goesOn, searching⟩, updated, ⟨x', normal, leastSquares_of_normal independent normal,
    place', stays⟩, ?_⟩
  cases converged with
  | true =>
      refine ⟨1, by decide, returned, fun earlier before => ?_⟩
      obtain rfl := Nat.lt_one_iff.mp before
      exact goesOn
  | false =>
      refine ⟨2, by decide, ended, fun earlier before => ?_⟩
      interval_cases earlier
      · exact goesOn
      · exact returned

/-- Without initial damping and within the bounds of the diagonal, the first trial over linear
residuals finds the least squares solution, wherever the search starts and whatever it measures
parameters in. At most one more call ends the search. -/
theorem undamped_trial_lands (idle : Solver σ ℝ) (problem : Problem σ ℝ) (matrix : RealMatrix l k)
    (offset : Fin l → ℝ) (x : Fin k → ℝ) (cost? gradient? : Option ℝ)
    (valid : (idle.settings.adopting cost? gradient?).check = .ok ())
    (given : idle.problem? = some problem) (linear : problem.Linear idle.form matrix offset)
    (suits : problem.Suits idle.form idle.normal k) (eliminates : idle.normal.layout?.isSome)
    (squared : idle.loss.shape = .squared) (independent : LinearIndependent ℝ matrix.col)
    (undamped : idle.settings.initialDamping = 0)
    (steep : ∃ index, (idle.settings.adopting cost? gradient?).gradientTolerance <
      |(matrixᵀ *ᵥ (matrix *ᵥ x - offset)) index|) :
    ∃ started, (start (List.ofFn x) cost? gradient?).run idle = (.ok (), started) ∧
      ((∀ entry ∈ (started.afterCalls 1).plainDiagonal,
        idle.settings.diagonalMin ≤ entry ∧ entry ≤ idle.settings.diagonalMax) →
          started.Lands matrix offset) := by
  obtain ⟨started, success⟩ :
      ∃ started, (start (List.ofFn x) cost? gradient?).run idle = (.ok (), started) :=
    start_linear valid given linear squared
  refine ⟨started, success, fun within => ?_⟩
  obtain ⟨ready, _, _, _, settings⟩ := (start_leaves idle _ cost? gradient?).of_run_ok success
  have aligned := aligned_of_start success given linear eliminates squared
  have suits' : problem.Suits idle.form started.normal k := by
    intro x before answer after ran
    refine (suits x before answer after ran).of_layout? ?_
    rw [ready.normal, reset_layout?]
  refine aligned.landing linear suits' independent ready.phase ready.x ?_ ?_ ?_
  · rw [ready.damping, settings]
    exact undamped
  · rwa [settings]
  · rwa [settings]

/-- The skew columns, in units of their own and without damping. -/
noncomputable def undampedSkewSearch : Solver Unit ℝ :=
  { skewSearch with settings := { skewSettings true with initialDamping := 0 } }

omit [Spectral ℝ] in
theorem skewMatrix_independent : LinearIndependent ℝ skewMatrix.col := by
  rw [← Matrix.mulVec_injective_iff]
  refine Matrix.mulVec_injective_of_isUnit ((Matrix.isUnit_iff_isUnit_det _).mpr ?_)
  rw [skewMatrix, Matrix.det_fin_two_of]
  norm_num

omit [Spectral ℝ] in
theorem skewProblem_suits : skewProblem.Suits .whole undampedSkewSearch.normal 2 := by
  intro x before answer after ran dense
  cases ran
  exact ⟨_, rfl⟩

/-- The diagonal that the trials damp, in units of the columns. -/
theorem undampedSkewSearch_diagonal {started : Solver Unit ℝ}
    (success : (start (List.ofFn (0 : Fin 2 → ℝ)) none none).run undampedSkewSearch =
      (.ok (), started)) :
    ∀ entry ∈ (started.afterCalls 1).plainDiagonal, entry = 1 := by
  obtain ⟨ready, _, _, _, settings⟩ := (start_leaves _ _ _ _).of_run_ok success
  have aligned := aligned_of_start success rfl skewProblem_linear rfl rfl
  have suits : skewProblem.Suits .whole started.normal 2 := by
    rw [ready.normal]
    exact skewProblem_suits
  have remains : ¬ ∀ index, |(skewMatrixᵀ *ᵥ (skewMatrix *ᵥ (0 : Fin 2 → ℝ) - skewOffset)) index| ≤
      started.settings.gradientTolerance := by
    rw [Matrix.mulVec_zero, zero_sub, skewMatrix_slope, settings]
    intro vanishes
    have first : |(7 : ℝ)| ≤ 1.0e-8 := vanishes 0
    norm_num at first
  have searching := ((aligned.tests skewProblem_linear suits ready.phase ready.x).goes remains).2.1
  obtain ⟨_, _, _, held⟩ := (aligned.next skewProblem_linear).ready skewProblem_linear searching
  have units : scales started.next.settings (skewMatrixᵀ * skewMatrix) = ![1, 10] := by
    rw [(next_configured started).settings, settings, ← skewMatrix_scales]
    rfl
  change ∀ entry ∈ started.next.plainDiagonal, entry = 1
  rw [held.plain, units, List.forall_mem_ofFn_iff, skewMatrix_gram]
  intro index
  fin_cases index <;> norm_num [divided]

omit [Spectral ℝ] in
/-- A start at zero, seven and twenty up the gradient. -/
theorem undamped_trial_lands_from_zero : ∃ (_ : Spectral ℝ) (started : Solver Unit ℝ),
    (start (List.ofFn (0 : Fin 2 → ℝ)) none none).run undampedSkewSearch = (.ok (), started) ∧
      (∀ entry ∈ (started.afterCalls 1).plainDiagonal, entry = 1) ∧
      started.Lands skewMatrix skewOffset := by
  let spectral : Spectral ℝ := ⟨fun _ => []⟩
  have proper := Settings.proper_of_check (skewSettings_valid true)
  have valid : (undampedSkewSearch.settings.adopting none none).check = .ok () :=
    Settings.Proper.check { proper with initialDamping := le_rfl }
  have steep : (1.0e-8 : ℝ) <
      |(skewMatrixᵀ *ᵥ (skewMatrix *ᵥ (0 : Fin 2 → ℝ) - skewOffset)) 0| := by
    rw [Matrix.mulVec_zero, zero_sub, skewMatrix_slope]
    change (1.0e-8 : ℝ) < |7|
    norm_num
  obtain ⟨started, success, lands⟩ := undamped_trial_lands undampedSkewSearch skewProblem
    skewMatrix skewOffset 0 none none valid rfl skewProblem_linear skewProblem_suits rfl rfl
    skewMatrix_independent rfl ⟨0, steep⟩
  have diagonal := undampedSkewSearch_diagonal success
  refine ⟨spectral, started, success, diagonal, lands fun entry member => ?_⟩
  rw [diagonal entry member]
  change (1.0e-6 : ℝ) ≤ 1 ∧ (1 : ℝ) ≤ 1.0e32
  norm_num

end Solver

end DampedLeastSquares
