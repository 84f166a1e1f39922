import Mathlib.Algebra.Order.Star.Real
import DampedLeastSquares.NormalMatrix.Split
import DampedLeastSquares.Proofs.Exact.Elimination
import DampedLeastSquares.Proofs.Faults

/-!
# Solving block by block

A matrix in blocks is solved by eliminating the left unknowns. In exact arithmetic
preparing and solving both succeed exactly if the whole matrix is positive
definite, and the two parts of the solution then solve the whole system.
-/

set_option autoImplicit false

open scoped Matrix

namespace DampedLeastSquares

variable {n m : Nat}

namespace Exact

theorem before_append {α : Type} (left : Fin n → α) (right : Vec α) :
    Vec.before n (List.ofFn left ++ right) = List.ofFn left := by
  rw [Vec.before, cutPosition_natCast (by simp), List.take_left' List.length_ofFn]

theorem after_append {α : Type} (left : Fin n → α) (right : Vec α) :
    Vec.after n (List.ofFn left ++ right) = right := by
  rw [Vec.after, cutPosition_natCast (by simp), List.drop_left' List.length_ofFn]

@[simp] theorem allFinite_vec (vector : Vec ℝ) : vector.allFinite = true := by
  simp [Vec.allFinite]

/-- What is left of the second block without the share of the first. -/
noncomputable def reduced (upper : RealMatrix n n) (coupling : RealMatrix n m)
    (lower : RealMatrix m m) : RealMatrix m m :=
  lower - couplingᵀ * upper⁻¹ * coupling

theorem reduced_isSymm {upper : RealMatrix n n} (symmetric : upper.IsSymm)
    (coupling : RealMatrix n m) {lower : RealMatrix m m} (symmetric' : lower.IsSymm) :
    (reduced upper coupling lower).IsSymm := by
  unfold reduced Matrix.IsSymm
  rw [Matrix.transpose_sub, Matrix.transpose_mul, Matrix.transpose_mul,
    Matrix.transpose_nonsing_inv, Matrix.transpose_transpose, symmetric.eq, symmetric'.eq,
    Matrix.mul_assoc]

theorem fromBlocks_solution {upper : RealMatrix n n} (invertible : IsUnit upper)
    (coupling : RealMatrix n m) {lower : RealMatrix m m}
    (invertible' : IsUnit (reduced upper coupling lower)) (first : Fin n → ℝ)
    (second rest : Fin m → ℝ)
    (solved : rest = (reduced upper coupling lower)⁻¹ *ᵥ
      (second - couplingᵀ *ᵥ (upper⁻¹ *ᵥ first))) :
    Matrix.fromBlocks upper coupling couplingᵀ lower *ᵥ
        Sum.elim (upper⁻¹ *ᵥ (first - coupling *ᵥ rest)) rest = Sum.elim first second := by
  have := invertible.invertible
  have := invertible'.invertible
  have above : upper *ᵥ (upper⁻¹ *ᵥ (first - coupling *ᵥ rest)) + coupling *ᵥ rest = first := by
    rw [Matrix.mulVec_mulVec, Matrix.mul_inv_of_invertible, Matrix.one_mulVec, sub_add_cancel]
  have below : reduced upper coupling lower *ᵥ rest =
      second - couplingᵀ *ᵥ (upper⁻¹ *ᵥ first) := by
    rw [solved, Matrix.mulVec_mulVec, Matrix.mul_inv_of_invertible, Matrix.one_mulVec]
  rw [Matrix.fromBlocks_mulVec]
  simp only [Sum.elim_comp_inl, Sum.elim_comp_inr]
  rw [above]
  congr 1
  rw [reduced, Matrix.sub_mulVec] at below
  rw [Matrix.mulVec_sub, Matrix.mulVec_sub]
  simp only [Matrix.mulVec_mulVec, Matrix.mul_assoc] at below ⊢
  rw [← eq_sub_iff_add_eq.mp below]
  abel

end Exact

namespace SplitNormal

open Exact

/-- The three blocks represent matrices of reals. -/
structure Holds (normal : SplitNormal ℝ) (upper : RealMatrix n n) (coupling : RealMatrix n m)
    (lower : RealMatrix m m) : Prop where
  left : normal.left.Represents upper
  coupling : normal.coupling.Represents coupling
  right : normal.right.Represents lower

variable {normal : SplitNormal ℝ} {upper : RealMatrix n n} {coupling : RealMatrix n m}
  {lower : RealMatrix m m} {factors : TriangularFactors ℝ}

theorem prepare_cases (left : normal.left.Represents upper) (symmetric : upper.IsSymm) :
    (upper.PosDef ∧ ∃ factors, factors.Solves upper ∧
        normal.prepare = .ok ({ normal with leftFactor? := some factors }, none)) ∨
      (¬ upper.PosDef ∧
        normal.prepare = .ok ({ normal with leftFactor? := none }, some .leftBlock)) := by
  unfold prepare
  cases normal.asSparse with
  | false =>
      rw [if_neg Bool.false_ne_true, left.toDense]
      obtain ⟨definite, factors, factored, solves⟩ | ⟨indefinite, failed⟩ :=
        dense_positiveFactor?_cases symmetric
      · exact .inl ⟨definite, factors, solves, by rw [factored]; rfl⟩
      · exact .inr ⟨indefinite, by rw [failed]; rfl⟩
  | true =>
      obtain ⟨found, stored, holds⟩ := left.toSparse
      rw [if_pos rfl, stored]
      change _ ∨ _ ∧ (found.positiveFactor? >>= _) = _
      obtain ⟨definite, factors, factored, solves⟩ | ⟨indefinite, failed⟩ :=
        sparse_positiveFactor?_cases holds symmetric
      · refine .inl ⟨definite, factors, solves, ?_⟩
        change (found.positiveFactor? >>= _) = _
        rw [factored]
        rfl
      · refine .inr ⟨indefinite, ?_⟩
        rw [failed]
        rfl

theorem reducedMatrix_eq (solves : factors.Solves upper) (symmetric : upper.IsSymm)
    {couples right : Matrix ℝ} (couples_eq : couples.Represents coupling)
    (right_eq : right.Represents lower) (symmetric' : lower.IsSymm) :
    reducedMatrix factors couples right =
      some (DenseMatrix.ofMatrix (reduced upper coupling lower)) := by
  obtain ⟨share, multiplied, share_eq⟩ :=
    couples_eq.transposeMul? (Matrix.represents_dense (upper⁻¹ * coupling))
  have difference : lower - couplingᵀ * (upper⁻¹ * coupling) = reduced upper coupling lower := by
    rw [reduced, Matrix.mul_assoc]
  rw [reducedMatrix, couples_eq.toDense, solves.solveColumns?, Option.bind_eq_bind,
    Option.bind_some, multiplied, Option.bind_eq_bind, Option.bind_some, right_eq.toDense,
    share_eq.toDense, DenseMatrix.sub?_ofMatrix, Option.bind_some, difference,
    DenseMatrix.symmetrized_ofMatrix (reduced_isSymm symmetric coupling symmetric')]
  rfl

/-- With a factored left block, a solution exists exactly if the reduced matrix is
positive definite. -/
theorem solve_cases (prepared : normal.leftFactor? = some factors)
    (holds : normal.Holds upper coupling lower) (definite : upper.PosDef)
    (solves : factors.Solves upper) (symmetric : upper.IsSymm) (symmetric' : lower.IsSymm)
    (first : Fin n → ℝ) (second : Fin m → ℝ) {out : Vec ℝ} (size : out.length = n + m) :
    ((reduced upper coupling lower).PosDef ∧ ∃ (left : Fin n → ℝ) (right : Fin m → ℝ),
        normal.solve (List.ofFn first ++ List.ofFn second) out =
          .ok (List.ofFn left ++ List.ofFn right, none) ∧
        Matrix.fromBlocks upper coupling couplingᵀ lower *ᵥ Sum.elim left right =
          Sum.elim first second) ∨
      (¬ (reduced upper coupling lower).PosDef ∧
        normal.solve (List.ofFn first ++ List.ofFn second) out =
          .ok (out, some .reducedBlock)) := by
  obtain ⟨couples, couples_eq, coupled⟩ := holds.coupling
  obtain ⟨lowers, lowers_eq, lowered⟩ := holds.right
  have middle : Vec.combine? (· - ·) (List.ofFn second)
      (List.ofFn (couplingᵀ *ᵥ (upper⁻¹ *ᵥ first))) =
      some (List.ofFn (second - couplingᵀ *ᵥ (upper⁻¹ *ᵥ first))) := combine?_ofFn _ _ _
  simp only [solve, prepared, leftSize, rightSize, holds.left.height, holds.right.height, ok_bind,
    before_append, after_append, solves.solve?, fit_some]
  by_cases alone : m = 0
  · subst alone
    rw [if_pos rfl]
    have positive : (reduced upper coupling lower).PosDef :=
      (posDef_iff (reduced_isSymm symmetric coupling symmetric')).mpr
        fun vector nonzero => (nonzero (Subsingleton.elim _ _)).elim
    have solution := fromBlocks_solution definite.isUnit coupling positive.isUnit first second
      second (Subsingleton.elim _ _)
    have nothing : coupling *ᵥ second = 0 := by
      ext row
      simp [Matrix.mulVec, dotProduct]
    rw [nothing, sub_zero] at solution
    refine .inl ⟨positive, upper⁻¹ *ᵥ first, second, ?_, solution⟩
    rw [WholeNormal.written, size, Nat.add_zero, fill?_ofFn, fit_some, ok_bind, allFinite_vec,
      if_pos rfl, List.ofFn_zero, List.append_nil]
    rfl
  rw [if_neg alone, couples_eq, lowers_eq]
  simp only [Operand.matrix?, fit_some, ok_bind, coupled.transposeMulVec?, middle,
    reducedMatrix_eq solves symmetric coupled lowered symmetric']
  obtain ⟨positive, reducedFactors, factored, solves'⟩ | ⟨indefinite, failed⟩ :=
    dense_positiveFactor?_cases (reduced_isSymm symmetric coupling symmetric')
  · obtain ⟨rest, rest_eq⟩ : ∃ rest, rest = (reduced upper coupling lower)⁻¹ *ᵥ
        (second - couplingᵀ *ᵥ (upper⁻¹ *ᵥ first)) := ⟨_, rfl⟩
    have back : Vec.combine? (· - ·) (List.ofFn first) (List.ofFn (coupling *ᵥ rest)) =
        some (List.ofFn (first - coupling *ᵥ rest)) := combine?_ofFn _ _ _
    have upperSize : (out.before n).length = n := by
      rw [Vec.before, cutPosition_natCast (by omega), List.length_take, size]
      omega
    have lowerSize : (out.after n).length = m := by
      rw [Vec.after, cutPosition_natCast (by omega), List.length_drop, size]
      omega
    refine .inl ⟨positive, upper⁻¹ *ᵥ (first - coupling *ᵥ rest), rest, ?_,
      fromBlocks_solution definite.isUnit coupling positive.isUnit first second rest rest_eq⟩
    simp only [factored, solves'.solve?, ← rest_eq, fit_some, ok_bind, coupled.mulVec?, back,
      solves.solve?, upperSize, lowerSize, fill?_ofFn, allFinite_vec, if_true]
    rfl
  · refine .inr ⟨indefinite, ?_⟩
    rw [failed]
    rfl

/-- Preparing and then solving ends with the solution, or one of the two tells what
is missing. -/
theorem prepare_solve_cases (holds : normal.Holds upper coupling lower)
    (symmetric : upper.IsSymm) (symmetric' : lower.IsSymm) (first : Fin n → ℝ)
    (second : Fin m → ℝ) {out : Vec ℝ} (size : out.length = n + m) :
    ((Matrix.fromBlocks upper coupling couplingᵀ lower).PosDef ∧
      ∃ prepared, normal.prepare = .ok (prepared, none) ∧
        ∃ (left : Fin n → ℝ) (right : Fin m → ℝ),
          prepared.solve (List.ofFn first ++ List.ofFn second) out =
            .ok (List.ofFn left ++ List.ofFn right, none) ∧
          Matrix.fromBlocks upper coupling couplingᵀ lower *ᵥ Sum.elim left right =
            Sum.elim first second) ∨
    (¬ (Matrix.fromBlocks upper coupling couplingᵀ lower).PosDef ∧
      ∃ prepared failure?, normal.prepare = .ok (prepared, failure?) ∧
        (failure? = none → ∃ reason,
          prepared.solve (List.ofFn first ++ List.ofFn second) out = .ok (out, some reason))) := by
  rw [posDef_fromBlocks_iff coupling symmetric']
  obtain ⟨definite, factors, solves, prepared⟩ | ⟨indefinite, failed⟩ :=
    prepare_cases holds.left symmetric
  · have kept : ({ normal with leftFactor? := some factors } : SplitNormal ℝ).Holds
        upper coupling lower := ⟨holds.left, holds.coupling, holds.right⟩
    obtain ⟨positive, left, right, solved, solution⟩ | ⟨indefinite, failed⟩ :=
      solve_cases rfl kept definite solves symmetric symmetric' first second size
    · exact .inl ⟨⟨definite, positive⟩, _, prepared, left, right, solved, solution⟩
    · exact .inr ⟨fun both => indefinite both.2, _, _, prepared, fun _ => ⟨_, failed⟩⟩
  · exact .inr ⟨fun both => indefinite both.1, _, _, failed, nofun⟩

/-- Preparing and then solving both succeed exactly if the whole symmetric matrix is
positive definite, and then the system is solved. Otherwise one of the two tells
what is missing, without a fault, and `out` stays as it is. -/
theorem solves_iff_posDef (normal : SplitNormal ℝ) (upper : RealMatrix n n)
    (coupling : RealMatrix n m) (lower : RealMatrix m m)
    (holds : normal.Holds upper coupling lower)
    (symmetric : upper.IsSymm) (symmetric' : lower.IsSymm)
    (first : Fin n → ℝ) (second : Fin m → ℝ) (out : Vec ℝ) (size : out.length = n + m) :
    ((∃ prepared solution, normal.prepare = .ok (prepared, none) ∧
        prepared.solve (List.ofFn first ++ List.ofFn second) out = .ok (solution, none)) ↔
      (Matrix.fromBlocks upper coupling couplingᵀ lower).PosDef) ∧
    (∀ prepared solution, normal.prepare = .ok (prepared, none) →
      prepared.solve (List.ofFn first ++ List.ofFn second) out = .ok (solution, none) →
      ∃ (left : Fin n → ℝ) (right : Fin m → ℝ),
        solution = List.ofFn left ++ List.ofFn right ∧
          Matrix.fromBlocks upper coupling couplingᵀ lower *ᵥ Sum.elim left right =
            Sum.elim first second) ∧
    (¬ (Matrix.fromBlocks upper coupling couplingᵀ lower).PosDef →
      (∃ prepared reason, normal.prepare = .ok (prepared, some reason)) ∨
        ∃ prepared reason, normal.prepare = .ok (prepared, none) ∧
          prepared.solve (List.ofFn first ++ List.ofFn second) out = .ok (out, some reason)) := by
  obtain ⟨definite, prepared, ready, left, right, solved, solution⟩ |
      ⟨indefinite, prepared, failure?, ready, fails⟩ :=
    prepare_solve_cases holds symmetric symmetric' first second size
  · refine ⟨⟨fun _ => definite, fun _ => ⟨prepared, _, ready, solved⟩⟩, ?_,
      fun indefinite => (indefinite definite).elim⟩
    intro other result ready' solved'
    cases ready.symm.trans ready'
    cases solved.symm.trans solved'
    exact ⟨left, right, rfl, solution⟩
  · have misses (other : SplitNormal ℝ) (result : Vec ℝ)
        (ready' : normal.prepare = .ok (other, none)) :
        other.solve (List.ofFn first ++ List.ofFn second) out ≠ .ok (result, none) := by
      intro solved
      cases ready.symm.trans ready'
      obtain ⟨reason, failed⟩ := fails rfl
      cases solved.symm.trans failed
    refine ⟨⟨fun ⟨other, result, ready', solved⟩ => (misses other result ready' solved).elim,
      fun definite => (indefinite definite).elim⟩,
      fun other result ready' solved => (misses other result ready' solved).elim, fun _ => ?_⟩
    cases failure? with
    | some reason => exact .inl ⟨prepared, reason, ready⟩
    | none =>
        obtain ⟨reason, failed⟩ := fails rfl
        exact .inr ⟨prepared, reason, ready, failed⟩

/-- The identity in two blocks, held sparsely, is solved. -/
theorem solves_identity :
    let identity : Operand ℝ := .matrix (.dense (DenseMatrix.ofMatrix (1 : RealMatrix 1 1)))
    let normal : SplitNormal ℝ :=
      ⟨true, identity, .matrix (.dense (DenseMatrix.ofMatrix (0 : RealMatrix 1 1))), identity, none⟩
    ∃ prepared solution, normal.prepare = .ok (prepared, none) ∧
      prepared.solve (List.ofFn (fun _ : Fin 1 => 3) ++ List.ofFn fun _ : Fin 1 => 4) [0, 0] =
        .ok (solution, none) := by
  intro identity normal
  have holds : normal.Holds (1 : RealMatrix 1 1) (0 : RealMatrix 1 1) (1 : RealMatrix 1 1) :=
    ⟨⟨_, rfl, rfl⟩, ⟨_, rfl, rfl⟩, ⟨_, rfl, rfl⟩⟩
  have definite : (Matrix.fromBlocks (1 : RealMatrix 1 1) (0 : RealMatrix 1 1)
      (0 : RealMatrix 1 1)ᵀ (1 : RealMatrix 1 1)).PosDef := by
    rw [Matrix.transpose_zero, Matrix.fromBlocks_one]
    exact Matrix.PosDef.one
  exact (solves_iff_posDef normal 1 0 1 holds Matrix.isSymm_one Matrix.isSymm_one (fun _ => 3)
    (fun _ => 4) [0, 0] rfl).1.mpr definite

end SplitNormal

end DampedLeastSquares
