import Mathlib
import DampedLeastSquares.Proofs.DampedSystem
import DampedLeastSquares.Proofs.Exact.LeastNorm
import DampedLeastSquares.Proofs.Exact.Losses
import DampedLeastSquares.Proofs.Progression
import DampedLeastSquares.Proofs.Trial
import DampedLeastSquares.Proofs.Verdict

/-!
# Steps by least norm

A search that solves its systems by least norm has a step for every semidefinite system.
What the step gains is half of what the gradient promises, and it gains nothing only if it
goes nowhere; then the search ends where it is.
-/

set_option autoImplicit false

open scoped Matrix

namespace DampedLeastSquares

open Exact NormalMatrix

/-- The same matrix, solved by elimination. -/
def NormalMatrix.eliminating {α : Type} : NormalMatrix α → NormalMatrix α
  | .whole normal => .whole { normal with method := .elimination }
  | .split normal => .split normal

namespace Solver

variable {σ : Type} {k : Nat}

/-- A search between two calls that solves its systems by least norm. Its normal matrix, its
gradient, and the diagonal to be damped are these. -/
structure Robust (solver : Solver σ ℝ) (cutoff : ℝ) (matrix : RealMatrix k k)
    (gradient diagonal : Fin k → ℝ) : Prop where
  normal : ∃ found prepared?, solver.normal = .whole ⟨.leastNorm cutoff, found, prepared?⟩ ∧
    found.Represents matrix
  gradient : solver.gradient = List.ofFn gradient
  plain : solver.plainDiagonal = List.ofFn diagonal
  dampedDiagonal : solver.dampedDiagonal.length = k
  step : solver.step.length = k
  x : solver.x.length = k
  scaling : solver.settings.rescaling = true →
    ∃ scaling : Fin k → ℝ, solver.scaling = List.ofFn scaling ∧ ∀ index, scaling index ≠ 0

/-- Asked once more at the parameters, the residual function answers, and the loss has a cost of
its answer. -/
def Revisits (solver : Solver σ ℝ) : Prop :=
  ∃ answer world residuals cost, solver.Answers solver.x answer world ∧
    Vec.fill? solver.candidateResiduals.length answer.flatten = some residuals ∧
    solver.loss.cost residuals = .ok cost

variable [Spectral ℝ] {before : Solver σ ℝ} {cutoff : ℝ} {matrix damped : RealMatrix k k}
  {gradient diagonal : Fin k → ℝ}

omit [Spectral ℝ] in
theorem Robust.called (robust : before.Robust cutoff matrix gradient diagonal) :
    Robust { before with updated := false, retries := before.retries + 1 } cutoff matrix gradient
      diagonal :=
  ⟨robust.normal, robust.gradient, robust.plain, robust.dampedDiagonal, robust.step, robust.x,
    robust.scaling⟩

theorem solve_leastNorm {found : Operand ℝ} (represents : found.Represents damped)
    {solution : Fin k → ℝ} (solves : Spectral.leastNorm (DenseMatrix.ofMatrix damped) cutoff
      (List.ofFn gradient) = List.ofFn solution) {out : Vec ℝ} (size : out.length = k) :
    NormalMatrix.solve (.whole ⟨.leastNorm cutoff, found, some .current⟩) (List.ofFn gradient) out =
      .ok (List.ofFn solution, none) := by
  have fits : found.shape = [(List.ofFn gradient).length, (List.ofFn gradient).length] ∧
      found.allFinite = true := by
    rw [represents.shape, List.length_ofFn]
    exact ⟨rfl, Operand.allFinite_real found⟩
  simp only [NormalMatrix.solve, WholeNormal.solve, WholeNormal.solveLeastNorm]
  rw [if_pos fits, represents.toDense, solves, WholeNormal.written, size, fill?_ofFn, fit_some,
    ok_bind, allFinite_vec, if_pos rfl]
  rfl

theorem Robust.computeStep_run (robust : before.Robust cutoff matrix gradient diagonal)
    (damped_eq : damped = withDiagonal matrix fun index =>
      dampedEntry before.settings before.damping (diagonal index)) {solution : Fin k → ℝ}
    (solves : Spectral.leastNorm (DenseMatrix.ofMatrix damped) cutoff (List.ofFn gradient) =
      List.ofFn solution) :
    ∃ normal, normal.Represents damped ∧
      (computeStep before.damping before.gradient before.step).run before =
        (.ok (List.ofFn (-solution), true), { before with
          normal := normal
          dampedDiagonal :=
            before.plainDiagonal.map (dampedEntry before.settings before.damping) }) := by
  obtain ⟨found, prepared?, normal_eq, represents⟩ := robust.normal
  have entries := dampedEntries_eq robust.plain before.damping
  have filled := fill?_dampedEntries robust.plain robust.dampedDiagonal before.damping
  obtain ⟨replaced, overwritten, represents'⟩ := represents.replaceDiagonal fun index =>
    dampedEntry before.settings before.damping (diagonal index)
  have set : before.normal.setDiagonal
      (before.plainDiagonal.map (dampedEntry before.settings before.damping)) =
        (.ok (), .whole ⟨.leastNorm cutoff, .matrix replaced, prepared?⟩) := by
    rw [normal_eq, entries, NormalMatrix.setDiagonal, WholeNormal.setDiagonal, overwritten]
    rfl
  have ready : NormalMatrix.prepare (.whole ⟨.leastNorm cutoff, .matrix replaced, prepared?⟩) =
      .ok (.whole ⟨.leastNorm cutoff, .matrix replaced, some .current⟩, none) := by
    simp only [NormalMatrix.prepare, WholeNormal.prepare, Operand.allFinite_real, if_true]
    rfl
  have holds : Operand.Represents (.matrix replaced) damped :=
    ⟨replaced, rfl, damped_eq ▸ represents'⟩
  refine ⟨.whole ⟨.leastNorm cutoff, .matrix replaced, some .current⟩, holds, ?_⟩
  rw [Solver.computeStep_run filled set ready, solvePrepared, robust.gradient,
    run_attempt_bind_ok (solve_leastNorm holds solves robust.step), run_pure, List.map_ofFn]
  rfl

/-- A trial that gains nothing and goes nowhere ends the search. -/
theorem ends_of_still {middle : Solver σ ℝ} {predicted : ℝ} (phase : before.phase = .search)
    (revisits : before.Revisits)
    (proposes : propose.run { before with updated := false, retries := before.retries + 1 } =
      (.ok (some predicted), middle)) (nothing : predicted = 0)
    (still : Vec.combine? (· + ·) before.x middle.step = some before.x) :
    before.answer = .ok true ∧ before.next.x = before.x ∧ before.next.phase = .converged := by
  obtain ⟨answer, world, residuals, cost, answers, filled, costed⟩ := revisits
  obtain ⟨place, loss, size, answers'⟩ : middle.x = before.x ∧ middle.loss = before.loss ∧
      middle.candidateResiduals = before.candidateResiduals ∧
      middle.Answers before.x answer world := by
    obtain ⟨_, _, _, _, rfl⟩ := (propose_proposed _).of_run_ok proposes
    exact ⟨rfl, rfl, rfl, answers⟩
  rw [← place] at still
  rw [← size] at filled
  rw [← loss] at costed
  have evaluated := evaluateCandidate_run still (place.symm ▸ answers') filled
  rw [costed] at evaluated
  obtain ⟨trace, considered⟩ := consider_run_of_eq evaluated (.inl nothing)
  have called : iterate.run before = (.ok true, { middle with
      candidate := middle.x, world := world, candidateResiduals := residuals, trace := trace
      phase := .converged }) := by
    rw [iterate_run_search phase, run_bind_ok ((tryStep_run proposes).trans considered),
      conclude_run]
    rfl
  refine ⟨congrArg Prod.fst called, ?_, congrArg (fun ended => ended.2.phase) called⟩
  exact (congrArg (fun ended => ended.2.x) called).trans place

theorem Robust.ends (robust : before.Robust cutoff matrix gradient diagonal)
    (damped_eq : damped = withDiagonal matrix fun index =>
      dampedEntry before.settings before.damping (diagonal index)) (symmetric : damped.IsSymm)
    (solves : Spectral.leastNorm (DenseMatrix.ofMatrix damped) cutoff (List.ofFn gradient) =
      List.ofFn (0 : Fin k → ℝ)) (phase : before.phase = .search) (revisits : before.Revisits) :
    before.answer = .ok true ∧ before.next.x = before.x ∧ before.next.phase = .converged := by
  obtain ⟨normal, represents, ran⟩ := robust.called.computeStep_run damped_eq solves
  obtain ⟨x, x_eq⟩ := exists_ofFn robust.x
  obtain ⟨scaling, scaled, unscaled⟩ : ∃ scaling : Fin k → ℝ,
      (before.settings.rescaling = true → before.scaling = List.ofFn scaling) ∧
      (before.settings.rescaling = false → scaling = 1) := by
    cases rescaling : before.settings.rescaling with
    | false => exact ⟨1, nofun, fun _ => rfl⟩
    | true =>
        obtain ⟨scaling, scaled, _⟩ := robust.scaling rescaling
        exact ⟨scaling, fun _ => scaled, nofun⟩
  have proposed := propose_run ran represents symmetric robust.gradient scaled unscaled
  have further : Vec.combine? (· + ·) before.x (List.ofFn (-(0 : Fin k → ℝ) / scaling)) =
      some before.x := by
    rw [x_eq, combine?_ofFn]
    congr 2
    funext index
    simp
  refine ends_of_still phase revisits proposed ?_ further
  simp

theorem Robust.elimination (robust : before.Robust cutoff matrix gradient diagonal)
    (damped_eq : damped = withDiagonal matrix fun index =>
      dampedEntry before.settings before.damping (diagonal index)) (symmetric : damped.IsSymm)
    (definite : damped.PosDef) :
    ((computeStep before.damping before.gradient before.step).run
      { before with normal := before.normal.eliminating }).1 =
        .ok (List.ofFn (-(damped⁻¹ *ᵥ gradient)), true) := by
  obtain ⟨found, prepared?, normal_eq, represents⟩ := robust.normal
  have eliminates : before.normal.eliminating = .whole ⟨.elimination, found, prepared?⟩ := by
    rw [normal_eq]
    rfl
  have symmetric' : matrix.IsSymm := by
    have back := withDiagonal_isSymm symmetric fun index => matrix index index
    rwa [damped_eq, withDiagonal_withDiagonal, withDiagonal_self] at back
  have cases := @computeStep_cases σ k
    { before with normal := .whole ⟨.elimination, found, prepared?⟩ } matrix _ represents
    symmetric' rfl diagonal robust.plain robust.dampedDiagonal before.damping gradient before.step
    robust.step damped damped_eq
  rw [← robust.gradient] at cases
  obtain ⟨_, _, _, _, ⟨_, ran⟩ | ⟨indefinite, _⟩⟩ := cases
  · rw [eliminates, ran]
  · exact (indefinite definite).elim

/-- Of a semidefinite system there is always a step. The model predicts half of what the gradient
promises along it, which is nothing only for the step zero, and then the search ends without
having moved. A gradient that the matrix annuls has this step. Where the matrix is definite and
none of its eigenvalues is negligible, the step is the one that elimination finds. -/
theorem robust_step (decomposes : Spectral.Decomposes)
    (robust : before.Robust cutoff matrix gradient diagonal)
    (damped_eq : damped = withDiagonal matrix fun index =>
      dampedEntry before.settings before.damping (diagonal index))
    (semidefinite : damped.PosSemidef) :
    ∃ (step : Fin k → ℝ) (after : Solver σ ℝ),
      (computeStep before.damping before.gradient before.step).run before =
        (.ok (List.ofFn step, true), after) ∧
      after.predictedReduction (List.ofFn step) = .ok (-(1 / 2) * (gradient ⬝ᵥ step)) ∧
      0 ≤ -(1 / 2) * (gradient ⬝ᵥ step) ∧
      (-(1 / 2) * (gradient ⬝ᵥ step) = 0 → step = 0 ∧
        (before.phase = .search → before.Revisits → before.answer = .ok true ∧
          before.next.x = before.x ∧ before.next.phase = .converged)) ∧
      (damped *ᵥ gradient = 0 → step = 0) ∧
      (damped.PosDef → (∀ first ∈ spectrum ℝ damped, ∀ second ∈ spectrum ℝ damped,
          Spectral.effectiveCutoff cutoff * second < first) →
        ((computeStep before.damping before.gradient before.step).run
          { before with normal := before.normal.eliminating }).1 =
            .ok (List.ofFn step, true)) := by
  have symmetric : damped.IsSymm := isHermitian_iff_isSymm.mp semidefinite.isHermitian
  have nonneg := Spectral.effectiveCutoff_nonneg cutoff
  obtain ⟨values, vectors, decomposition, solves⟩ :=
    Spectral.leastNorm_eq decomposes symmetric cutoff
  obtain ⟨solution, solution_eq⟩ : ∃ solution,
      Spectral.truncated values vectors (Spectral.effectiveCutoff cutoff) gradient = solution :=
    ⟨_, rfl⟩
  have quadratic := decomposition.truncated_quadratic gradient nonneg
  have gains := decomposition.dotProduct_truncated_nonneg gradient semidefinite nonneg
  have solved := solves gradient
  rw [solution_eq] at quadratic gains solved
  obtain ⟨normal, represents, ran⟩ := robust.computeStep_run damped_eq solved
  refine ⟨-solution, _, ran, ?_, ?_, fun nothing => ?_, fun annulled => ?_,
    fun definite significant => ?_⟩
  · have half : -(1 / 2) * (gradient ⬝ᵥ -solution) =
        -(gradient ⬝ᵥ -solution) - 1 / 2 * (-solution ⬝ᵥ damped *ᵥ -solution) := by
      rw [Matrix.mulVec_neg, neg_dotProduct_neg, quadratic, dotProduct_neg]
      ring
    rw [half]
    refine predictedReduction_eq ?_ symmetric ?_ (-solution)
    · exact represents
    · exact robust.gradient
  · rw [dotProduct_neg]
    linarith
  · have level : gradient ⬝ᵥ solution = 0 := by
      rw [dotProduct_neg] at nothing
      linarith
    have zero : solution = 0 := by
      rw [← solution_eq] at level ⊢
      exact decomposition.truncated_eq_zero gradient semidefinite nonneg level
    rw [zero] at solved
    exact ⟨by rw [zero, neg_zero], robust.ends damped_eq symmetric solved⟩
  · rw [← solution_eq, decomposition.truncated_of_mulVec gradient symmetric nonneg annulled,
      neg_zero]
  · have inverse := decomposition.truncated_eq_solution gradient definite nonneg significant
    rw [← solution_eq, inverse]
    exact robust.elimination damped_eq symmetric definite

/-- A matrix that acts along one direction only. -/
def levelMatrix : RealMatrix 2 2 := Matrix.vecMulVec 1 1

/-- A search of two parameters with this matrix and a gradient across its direction. -/
noncomputable def levelSearch : Solver Unit ℝ :=
  { unitSearch with
    normal := .whole ⟨.leastNorm Method.standardCutoff,
      .matrix (.dense (DenseMatrix.ofMatrix levelMatrix)), none⟩
    phase := .search, damping := 0, x := [0, 1], gradient := List.ofFn ![1, -1]
    step := Vec.zeros 2, candidateResiduals := Vec.zeros 2
    plainDiagonal := List.ofFn (1 : Fin 2 → ℝ), dampedDiagonal := Vec.zeros 2 }

omit [Spectral ℝ] in
theorem levelSearch_robust :
    levelSearch.Robust Method.standardCutoff levelMatrix ![1, -1] (1 : Fin 2 → ℝ) where
  normal := ⟨_, _, rfl, _, rfl, Matrix.represents_dense _⟩
  gradient := rfl
  plain := rfl
  dampedDiagonal := rfl
  step := rfl
  x := rfl
  scaling := nofun

omit [Spectral ℝ] in
theorem levelSearch_damped : levelMatrix = withDiagonal levelMatrix fun index =>
    dampedEntry levelSearch.settings levelSearch.damping ((1 : Fin 2 → ℝ) index) := by
  have within : (1.0e-6 : ℝ) ≤ 1 ∧ (1 : ℝ) ≤ 1.0e32 := by norm_num
  have kept (index : Fin 2) : dampedEntry levelSearch.settings levelSearch.damping
      ((1 : Fin 2 → ℝ) index) = levelMatrix index index := by
    rw [levelMatrix, Matrix.vecMulVec_apply, Pi.one_apply, one_mul]
    exact dampedEntry_zero zero_le_one within
  rw [funext kept, withDiagonal_self]

omit [Spectral ℝ] in
theorem levelMatrix_posSemidef : levelMatrix.PosSemidef :=
  Matrix.posSemidef_vecMulVec_self_star 1

omit [Spectral ℝ] in
theorem levelSearch_revisits : levelSearch.Revisits :=
  ⟨.vector [0, 1], (), [0, 1], _, ⟨nofun, _, rfl, rfl⟩, rfl, Loss.halfSquare_eq ![0, 1]⟩

omit [Spectral ℝ] in
/-- The step is zero, and the search ends where it is. -/
theorem robust_step_level : ∃ _ : Spectral ℝ,
    levelSearch.answer = .ok true ∧ levelSearch.next.x = [0, 1] := by
  obtain ⟨spectral, decomposes⟩ := Spectral.exists_decomposes
  obtain ⟨step, _, _, _, _, ends, annuls, _⟩ := robust_step decomposes levelSearch_robust
    levelSearch_damped levelMatrix_posSemidef
  have across : levelMatrix *ᵥ ![1, -1] = 0 := by
    have orthogonal : (1 : Fin 2 → ℝ) ⬝ᵥ ![1, -1] = 0 := by
      simp [dotProduct, Fin.sum_univ_two]
    rw [levelMatrix, Matrix.vecMulVec_mulVec, orthogonal, MulOpposite.op_zero, zero_smul]
  have level : -(1 / 2) * (![1, -1] ⬝ᵥ step) = 0 := by
    rw [annuls across, dotProduct_zero, mul_zero]
  obtain ⟨answer, place, _⟩ := (ends level).2 rfl levelSearch_revisits
  exact ⟨spectral, answer, place⟩

end Solver

end DampedLeastSquares
