import Mathlib
import DampedLeastSquares.Proofs.Exact.Normal

/-!
# Exact solutions of least norm

A symmetric matrix multiplies each of its eigenvectors by a number. Where negligible
numbers are left out, what is computed need not solve the system, but along it the matrix
is the same as the part that was inverted. Where none is left out, the system is solved.
-/

set_option autoImplicit false

open scoped Matrix

namespace DampedLeastSquares

open Exact

namespace Spectral

variable {k : Nat} {matrix : RealMatrix k k} {values : Fin k → ℝ} {vectors : Fin k → Fin k → ℝ}

/-- Orthogonal vectors of length one, each of which the matrix multiplies by its number. -/
structure Decomposition (matrix : RealMatrix k k) (values : Fin k → ℝ)
    (vectors : Fin k → Fin k → ℝ) : Prop where
  orthonormal : ∀ first second, vectors first ⬝ᵥ vectors second = if first = second then 1 else 0
  eigen : ∀ index, matrix *ᵥ vectors index = values index • vectors index

/-! ## Magnitudes -/

noncomputable def largest (values : Fin k → ℝ) : ℝ := (Vec.maxAbs? (List.ofFn values)).getD 0

theorem largest_le {bound : ℝ} (nonneg : 0 ≤ bound) :
    largest values ≤ bound ↔ ∀ index, |values index| ≤ bound := by
  rw [largest, getD_maxAbs?_le _ nonneg]
  simp only [List.forall_mem_ofFn_iff]

theorem largest_nonneg (values : Fin k → ℝ) : 0 ≤ largest values := by
  unfold largest
  cases found : Vec.maxAbs? (List.ofFn values) with
  | none => exact le_rfl
  | some most =>
      cases k with
      | zero => cases List.ofFn_zero ▸ found
      | succ k =>
          have first : |values 0| ≤ most := (maxAbs?_le found most).mp le_rfl _ (by simp)
          exact (abs_nonneg _).trans first

theorem le_largest (values : Fin k → ℝ) (index : Fin k) : |values index| ≤ largest values :=
  (largest_le (largest_nonneg values)).mp le_rfl index

theorem exists_eq_largest (values : Fin k → ℝ) (index : Fin k) :
    ∃ place, |values place| = largest values := by
  have nonempty : Nonempty (Fin k) := ⟨index⟩
  obtain ⟨place, above⟩ := Finite.exists_max fun index => |values index|
  refine ⟨place, (le_largest values place).antisymm ?_⟩
  exact (largest_le (abs_nonneg _)).mpr above

theorem largest_smul {factor : ℝ} (positive : 0 < factor) (values : Fin k → ℝ) :
    largest (factor • values) = factor * largest values := by
  have scaled (index : Fin k) : |(factor • values) index| = factor * |values index| := by
    rw [Pi.smul_apply, smul_eq_mul, abs_mul, abs_of_pos positive]
  apply le_antisymm
  · refine (largest_le (mul_nonneg positive.le (largest_nonneg values))).mpr fun index => ?_
    rw [scaled]
    exact mul_le_mul_of_nonneg_left (le_largest values index) positive.le
  · rw [← le_div_iff₀' positive]
    refine (largest_le (div_nonneg (largest_nonneg _) positive.le)).mpr fun index => ?_
    rw [le_div_iff₀' positive, ← scaled]
    exact le_largest _ index

/-! ## Truncated solutions -/

/-- The places of the numbers that are not negligible. -/
noncomputable def kept (cutoff : ℝ) (values : Fin k → ℝ) : Finset (Fin k) :=
  Finset.univ.filter fun index => ¬ |values index| ≤ cutoff * largest values

/-- The right-hand side's part along each vector kept, divided by the number of that vector. -/
noncomputable def truncated (values : Fin k → ℝ) (vectors : Fin k → Fin k → ℝ) (cutoff : ℝ)
    (rhs : Fin k → ℝ) : Fin k → ℝ :=
  ∑ index ∈ kept cutoff values, (vectors index ⬝ᵥ rhs / values index) • vectors index

theorem ne_zero_of_kept {cutoff : ℝ} (nonneg : 0 ≤ cutoff) {index : Fin k}
    (member : index ∈ kept cutoff values) : values index ≠ 0 := by
  intro zero
  have above := (Finset.mem_filter.mp member).2
  rw [zero, abs_zero] at above
  exact above (mul_nonneg nonneg (largest_nonneg values))

theorem kept_smul {factor : ℝ} (positive : 0 < factor) (cutoff : ℝ) (values : Fin k → ℝ) :
    kept cutoff (factor • values) = kept cutoff values := by
  refine Finset.filter_congr fun index _ => ?_
  rw [largest_smul positive, Pi.smul_apply, smul_eq_mul, abs_mul, abs_of_pos positive,
    mul_left_comm, mul_le_mul_iff_right₀ positive]

theorem truncated_smul {factor : ℝ} (positive : 0 < factor) (share cutoff : ℝ)
    (rhs : Fin k → ℝ) : truncated (factor • values) vectors cutoff (share • rhs) =
      (share / factor) • truncated values vectors cutoff rhs := by
  unfold truncated
  rw [kept_smul positive, Finset.smul_sum]
  refine Finset.sum_congr rfl fun index _ => ?_
  rw [smul_smul, dotProduct_smul, Pi.smul_apply, smul_eq_mul, smul_eq_mul, mul_div_mul_comm]

/-- The matrix without the part along negligible vectors. -/
noncomputable def significantPart (cutoff : ℝ) (values : Fin k → ℝ)
    (vectors : Fin k → Fin k → ℝ) : RealMatrix k k :=
  ∑ index ∈ kept cutoff values, values index • Matrix.vecMulVec (vectors index) (vectors index)

/-- No vector is mapped closer to the right-hand side, and none that comes as close is shorter. -/
def Shortest (matrix : RealMatrix k k) (rhs solution : Fin k → ℝ) : Prop :=
  ∀ x, (matrix *ᵥ solution - rhs) ⬝ᵥ (matrix *ᵥ solution - rhs) ≤
      (matrix *ᵥ x - rhs) ⬝ᵥ (matrix *ᵥ x - rhs) ∧
    ((matrix *ᵥ x - rhs) ⬝ᵥ (matrix *ᵥ x - rhs) ≤
      (matrix *ᵥ solution - rhs) ⬝ᵥ (matrix *ᵥ solution - rhs) →
        solution ⬝ᵥ solution ≤ x ⬝ᵥ x)

theorem shortest_of_orthogonal {rhs solution : Fin k → ℝ}
    (reached : ∀ x, (matrix *ᵥ solution - rhs) ⬝ᵥ matrix *ᵥ x = 0)
    (short : ∀ x, matrix *ᵥ x = 0 → solution ⬝ᵥ x = 0) : Shortest matrix rhs solution := by
  intro x
  obtain ⟨other, rfl⟩ : ∃ other, x = solution + other := ⟨x - solution, by abel⟩
  have nonneg (vector : Fin k → ℝ) : 0 ≤ vector ⬝ᵥ vector :=
    Finset.sum_nonneg fun index _ => mul_self_nonneg _
  have square : (matrix *ᵥ (solution + other) - rhs) ⬝ᵥ (matrix *ᵥ (solution + other) - rhs) =
      (matrix *ᵥ solution - rhs) ⬝ᵥ (matrix *ᵥ solution - rhs) +
        (matrix *ᵥ other) ⬝ᵥ (matrix *ᵥ other) := by
    rw [Matrix.mulVec_add, add_sub_right_comm, add_dotProduct, dotProduct_add, dotProduct_add,
      reached, dotProduct_comm (matrix *ᵥ other), reached, add_zero, zero_add]
  refine ⟨square ▸ le_add_of_nonneg_right (nonneg _), fun close => ?_⟩
  have zero : matrix *ᵥ other = 0 := by
    refine dotProduct_self_eq_zero.mp (le_antisymm ?_ (nonneg _))
    linarith
  rw [add_dotProduct, dotProduct_add, dotProduct_add, short other zero, dotProduct_comm other,
    short other zero, add_zero, zero_add]
  exact le_add_of_nonneg_right (nonneg _)

namespace Decomposition

variable (decomposition : Decomposition matrix values vectors)

include decomposition

theorem smul (factor : ℝ) : Decomposition (factor • matrix) (factor • values) vectors where
  orthonormal := decomposition.orthonormal
  eigen index := by
    rw [Matrix.smul_mulVec, decomposition.eigen, smul_smul, Pi.smul_apply, smul_eq_mul]

theorem mulVec_combination (places : Finset (Fin k)) (parts : Fin k → ℝ) :
    matrix *ᵥ (∑ index ∈ places, parts index • vectors index) =
      ∑ index ∈ places, (parts index * values index) • vectors index := by
  rw [Matrix.mulVec_sum]
  refine Finset.sum_congr rfl fun index _ => ?_
  rw [Matrix.mulVec_smul, decomposition.eigen, smul_smul]

theorem dotProduct_part {places : Finset (Fin k)} (parts : Fin k → ℝ) {index : Fin k}
    (member : index ∈ places) :
    vectors index ⬝ᵥ (∑ index ∈ places, parts index • vectors index) = parts index := by
  simp only [dotProduct_sum, dotProduct_smul, decomposition.orthonormal, smul_eq_mul, mul_ite,
    mul_one, mul_zero]
  rw [Finset.sum_ite_eq, if_pos member]

theorem dotProduct_combination (places : Finset (Fin k)) (left right : Fin k → ℝ) :
    (∑ index ∈ places, left index • vectors index) ⬝ᵥ
      (∑ index ∈ places, right index • vectors index) =
        ∑ index ∈ places, left index * right index := by
  rw [sum_dotProduct]
  refine Finset.sum_congr rfl fun index member => ?_
  rw [smul_dotProduct, decomposition.dotProduct_part right member, smul_eq_mul]

theorem combination_eq (rhs : Fin k → ℝ) :
    ∑ index, (vectors index ⬝ᵥ rhs) • vectors index = rhs := by
  obtain ⟨rows, rows_eq⟩ : ∃ rows : RealMatrix k k, rows = Matrix.of vectors := ⟨_, rfl⟩
  have orthogonal : rows * rowsᵀ = 1 := by
    ext first second
    rw [rows_eq, Matrix.one_apply, ← decomposition.orthonormal first second]
    rfl
  have back : rowsᵀ *ᵥ (rows *ᵥ rhs) = rhs := by
    rw [Matrix.mulVec_mulVec, mul_eq_one_comm.mp orthogonal, Matrix.one_mulVec]
  rw [Matrix.mulVec_transpose, Matrix.vecMul_eq_sum] at back
  rw [rows_eq] at back
  exact back

variable {cutoff : ℝ} (rhs : Fin k → ℝ)

theorem mulVec_truncated (nonneg : 0 ≤ cutoff) :
    matrix *ᵥ truncated values vectors cutoff rhs =
      ∑ index ∈ kept cutoff values, (vectors index ⬝ᵥ rhs) • vectors index := by
  unfold truncated
  rw [decomposition.mulVec_combination]
  refine Finset.sum_congr rfl fun index member => ?_
  rw [div_mul_cancel₀ _ (ne_zero_of_kept nonneg member)]

omit decomposition in
theorem dotProduct_truncated : rhs ⬝ᵥ truncated values vectors cutoff rhs =
    ∑ index ∈ kept cutoff values, (vectors index ⬝ᵥ rhs) ^ 2 / values index := by
  unfold truncated
  rw [dotProduct_sum]
  refine Finset.sum_congr rfl fun index _ => ?_
  rw [dotProduct_smul, smul_eq_mul, dotProduct_comm rhs, div_mul_eq_mul_div, sq]

/-- The matrix undoes what its truncated inverse does, as far as that inverse can tell. -/
theorem truncated_quadratic (nonneg : 0 ≤ cutoff) :
    truncated values vectors cutoff rhs ⬝ᵥ matrix *ᵥ truncated values vectors cutoff rhs =
      rhs ⬝ᵥ truncated values vectors cutoff rhs := by
  rw [decomposition.mulVec_truncated rhs nonneg, dotProduct_truncated]
  unfold truncated
  rw [decomposition.dotProduct_combination]
  refine Finset.sum_congr rfl fun index _ => ?_
  rw [div_mul_eq_mul_div, sq]

theorem nonneg_of_posSemidef (semidefinite : matrix.PosSemidef) (index : Fin k) :
    0 ≤ values index := by
  have nonneg := semidefinite.dotProduct_mulVec_nonneg (vectors index)
  rwa [decomposition.eigen, star_trivial, dotProduct_smul, decomposition.orthonormal, if_pos rfl,
    smul_eq_mul, mul_one] at nonneg

theorem pos_of_kept (semidefinite : matrix.PosSemidef) (nonneg : 0 ≤ cutoff) {index : Fin k}
    (member : index ∈ kept cutoff values) : 0 < values index :=
  (decomposition.nonneg_of_posSemidef semidefinite index).lt_of_ne
    (ne_zero_of_kept nonneg member).symm

theorem dotProduct_truncated_nonneg (semidefinite : matrix.PosSemidef) (nonneg : 0 ≤ cutoff) :
    0 ≤ rhs ⬝ᵥ truncated values vectors cutoff rhs := by
  rw [dotProduct_truncated]
  exact Finset.sum_nonneg fun index member =>
    div_nonneg (sq_nonneg _) (decomposition.pos_of_kept semidefinite nonneg member).le

/-- A right-hand side without a part along the solution has the solution zero. -/
theorem truncated_eq_zero (semidefinite : matrix.PosSemidef) (nonneg : 0 ≤ cutoff)
    (level : rhs ⬝ᵥ truncated values vectors cutoff rhs = 0) :
    truncated values vectors cutoff rhs = 0 := by
  have positive {index : Fin k} (member : index ∈ kept cutoff values) :=
    decomposition.pos_of_kept semidefinite nonneg member
  rw [dotProduct_truncated, Finset.sum_eq_zero_iff_of_nonneg fun index member =>
    div_nonneg (sq_nonneg _) (positive member).le] at level
  refine Finset.sum_eq_zero fun index member => ?_
  obtain none | zero := div_eq_zero_iff.mp (level index member)
  · rw [pow_eq_zero_iff two_ne_zero] at none
    rw [none, zero_div, zero_smul]
  · exact ((positive member).ne' zero).elim

theorem truncated_of_mulVec (symmetric : matrix.IsSymm) (nonneg : 0 ≤ cutoff)
    (annulled : matrix *ᵥ rhs = 0) : truncated values vectors cutoff rhs = 0 := by
  refine Finset.sum_eq_zero fun index member => ?_
  have level : values index * (vectors index ⬝ᵥ rhs) = 0 := by
    rw [← smul_eq_mul, ← smul_dotProduct, ← decomposition.eigen, dotProduct_comm,
      Matrix.dotProduct_mulVec, ← Matrix.mulVec_transpose, symmetric.eq, annulled,
      zero_dotProduct]
  have none := (mul_eq_zero.mp level).resolve_left (ne_zero_of_kept nonneg member)
  rw [none, zero_div, zero_smul]

theorem mem_spectrum (index : Fin k) : values index ∈ spectrum ℝ matrix := by
  have nonzero : vectors index ≠ 0 := by
    intro zero
    have length := decomposition.orthonormal index index
    rw [zero, zero_dotProduct, if_pos rfl] at length
    exact zero_ne_one length
  have eigenvector : Module.End.HasEigenvector (Matrix.toLin' matrix) (values index)
      (vectors index) :=
    ⟨Module.End.mem_eigenspace_iff.mpr (decomposition.eigen index), nonzero⟩
  rw [← Matrix.spectrum_toLin']
  exact (Module.End.hasEigenvalue_of_hasEigenvector eigenvector).mem_spectrum

theorem truncated_eq_solution (definite : matrix.PosDef) (nonneg : 0 ≤ cutoff)
    (significant : ∀ first ∈ spectrum ℝ matrix, ∀ second ∈ spectrum ℝ matrix,
      cutoff * second < first) :
    truncated values vectors cutoff rhs = matrix⁻¹ *ᵥ rhs := by
  have all : kept cutoff values = Finset.univ := by
    refine Finset.filter_true_of_mem fun index _ => not_le.mpr ?_
    obtain ⟨place, most⟩ := exists_eq_largest values index
    rw [← most, abs_of_nonneg (decomposition.nonneg_of_posSemidef definite.posSemidef place)]
    have above := significant _ (decomposition.mem_spectrum index) _
      (decomposition.mem_spectrum place)
    exact above.trans_le (le_abs_self _)
  have invertible := definite.isUnit.invertible
  have solves : matrix *ᵥ truncated values vectors cutoff rhs = rhs := by
    rw [decomposition.mulVec_truncated rhs nonneg, all, decomposition.combination_eq]
  rw [← Matrix.one_mulVec (truncated values vectors cutoff rhs),
    ← Matrix.inv_mul_of_invertible matrix, ← Matrix.mulVec_mulVec, solves]

/-! ### The shortest of the closest -/

omit decomposition in
theorem significantPart_mulVec (x : Fin k → ℝ) : significantPart cutoff values vectors *ᵥ x =
    ∑ index ∈ kept cutoff values, (values index * (vectors index ⬝ᵥ x)) • vectors index := by
  unfold significantPart
  rw [Matrix.sum_mulVec]
  refine Finset.sum_congr rfl fun index _ => ?_
  rw [Matrix.smul_mulVec, Matrix.vecMulVec_mulVec, op_smul_eq_smul, smul_smul]

/-- What is left over of the right-hand side is orthogonal to whatever can be reached. -/
theorem residue_orthogonal (nonneg : 0 ≤ cutoff) (x : Fin k → ℝ) :
    (significantPart cutoff values vectors *ᵥ truncated values vectors cutoff rhs - rhs) ⬝ᵥ
      significantPart cutoff values vectors *ᵥ x = 0 := by
  rw [significantPart_mulVec x, dotProduct_sum]
  refine Finset.sum_eq_zero fun index member => ?_
  have reached : vectors index ⬝ᵥ significantPart cutoff values vectors *ᵥ
      truncated values vectors cutoff rhs = vectors index ⬝ᵥ rhs := by
    rw [significantPart_mulVec, decomposition.dotProduct_part _ member, truncated,
      decomposition.dotProduct_part _ member,
      mul_div_cancel₀ _ (ne_zero_of_kept nonneg member)]
  rw [dotProduct_smul, dotProduct_comm _ (vectors index), dotProduct_sub, reached, sub_self,
    smul_zero]

/-- The solution has no part that the matrix takes to nothing. -/
theorem truncated_orthogonal (nonneg : 0 ≤ cutoff) {x : Fin k → ℝ}
    (annulled : significantPart cutoff values vectors *ᵥ x = 0) :
    truncated values vectors cutoff rhs ⬝ᵥ x = 0 := by
  unfold truncated
  rw [sum_dotProduct]
  refine Finset.sum_eq_zero fun index member => ?_
  have none := decomposition.dotProduct_part
    (fun index => values index * (vectors index ⬝ᵥ x)) member
  rw [← significantPart_mulVec, annulled, dotProduct_zero] at none
  rw [smul_dotProduct, (mul_eq_zero.mp none.symm).resolve_left (ne_zero_of_kept nonneg member),
    smul_zero]

theorem truncated_shortest (nonneg : 0 ≤ cutoff) : Shortest
    (significantPart cutoff values vectors) rhs (truncated values vectors cutoff rhs) :=
  shortest_of_orthogonal (decomposition.residue_orthogonal rhs nonneg)
    fun _ => decomposition.truncated_orthogonal rhs nonneg

end Decomposition

/-! ## The solution that is computed -/

theorem component_ofFn (vector rhs : Fin k → ℝ) :
    component (List.ofFn vector) (List.ofFn rhs) = vector ⬝ᵥ rhs := by
  have skipped (pairs : List (ℝ × ℝ)) : List.sum (pairs.filterMap fun pair =>
      if pair.1 == 0.0 then none else some (pair.1 * pair.2)) =
        (pairs.map fun pair => pair.1 * pair.2).sum := by
    induction pairs with
    | nil => rfl
    | cons pair pairs previous =>
        rw [List.map_cons, List.sum_cons, ← previous, List.filterMap_cons, literal_zero]
        by_cases zero : pair.1 = 0
        · rw [if_pos ((beq_iff _ _).mpr zero), zero, zero_mul, zero_add]
        · rw [if_neg (mt (beq_iff _ _).mp zero), List.sum_cons]
  have products : (List.zip (List.ofFn vector) (List.ofFn rhs)).map
      (fun pair => pair.1 * pair.2) = List.ofFn fun index => vector index * rhs index := by
    apply List.ext_getElem <;> simp
  unfold component
  rw [sum_eq]
  exact (skipped _).trans (by rw [products, List.sum_ofFn]; rfl)

theorem foldl_combination (parts : Fin k → ℝ) (vectors : Fin k → Fin k → ℝ)
    (places : List (Fin k)) (start : Fin k → ℝ) :
    places.foldl (fun total place => List.zipWith
        (fun value entry => value + parts place * entry) total (List.ofFn (vectors place)))
      (List.ofFn start) =
        List.ofFn (start + (places.map fun place => parts place • vectors place).sum) := by
  induction places generalizing start with
  | nil => simp
  | cons place places previous =>
      have first : List.zipWith (fun value entry => value + parts place * entry)
          (List.ofFn start) (List.ofFn (vectors place)) =
            List.ofFn (start + parts place • vectors place) := by
        apply List.ext_getElem <;> simp
      rw [List.foldl_cons, first, previous, List.map_cons, List.sum_cons, add_assoc]

theorem combination_ofFn (values : Fin k → ℝ) (vectors : Fin k → Fin k → ℝ) (cutoff : ℝ)
    (rhs : Fin k → ℝ) :
    combination (List.ofFn fun index => (values index, List.ofFn (vectors index))) cutoff
      (List.ofFn rhs) = List.ofFn (truncated values vectors cutoff rhs) := by
  have magnitudes : (List.ofFn fun index => (values index, List.ofFn (vectors index))).map (·.1) =
      List.ofFn values := List.map_ofFn ..
  have total : (((List.finRange k).filter fun index =>
        !decide (|values index| ≤ cutoff * largest values)).map fun index =>
          (vectors index ⬝ᵥ rhs / values index) • vectors index).sum =
      truncated values vectors cutoff rhs := by
    rw [← List.sum_toFinset _ ((List.nodup_finRange k).filter _)]
    unfold truncated
    congr 1
    ext index
    simp [kept]
  have pairs : List.ofFn (fun index => (values index, List.ofFn (vectors index))) =
      (List.finRange k).map _ := List.ofFn_eq_map
  unfold combination
  rw [magnitudes, literal_zero, pairs]
  dsimp only
  rw [List.filter_map, List.foldl_map, List.length_ofFn, Vec.zeros_eq]
  simp only [component_ofFn]
  rw [foldl_combination fun index => vectors index ⬝ᵥ rhs / values index, zero_add, ← total]
  rfl

theorem combination_scaled {factor : ℝ} (positive : 0 < factor) (values : Fin k → ℝ)
    (vectors : Fin k → Fin k → ℝ) (share cutoff : ℝ) (rhs : Fin k → ℝ) :
    combination (List.ofFn fun index => (values index, List.ofFn (vectors index))) cutoff
      ((List.ofFn rhs).map (· * share)) =
        List.ofFn ((share / factor) • truncated (factor⁻¹ • values) vectors cutoff rhs) := by
  have multiple : (List.ofFn rhs).map (· * share) = List.ofFn (share • rhs) := by
    rw [List.map_ofFn]
    congr 1
    funext index
    exact mul_comm _ _
  rw [multiple, combination_ofFn, ← truncated_smul positive, smul_smul,
    mul_inv_cancel₀ positive.ne', one_smul]

/-- Every symmetric matrix is decomposed. -/
def Decomposes [Spectral ℝ] : Prop :=
  ∀ (k : Nat) (matrix : RealMatrix k k), matrix.IsSymm → ∃ values vectors,
    Decomposition matrix values vectors ∧ eigenpairs (DenseMatrix.ofMatrix matrix) =
      List.ofFn fun index => (values index, List.ofFn (vectors index))

theorem exists_decomposition (symmetric : matrix.IsSymm) :
    ∃ values vectors, Decomposition matrix values vectors := by
  have hermitian := isHermitian_iff_isSymm.mpr symmetric
  refine ⟨hermitian.eigenvalues, fun index => hermitian.eigenvectorBasis index,
    fun first second => ?_, hermitian.mulVec_eigenvectorBasis⟩
  have products := orthonormal_iff_ite.mp hermitian.eigenvectorBasis.orthonormal second first
  rw [EuclideanSpace.inner_eq_star_dotProduct, star_trivial] at products
  rw [products]
  exact if_congr eq_comm rfl rfl

theorem exists_eigenpairs (found : DenseMatrix ℝ) : ∃ pairs : List (ℝ × Vec ℝ),
    ∀ (k : Nat) (matrix : RealMatrix k k), matrix.IsSymm →
      found = DenseMatrix.ofMatrix matrix → ∃ values vectors,
        Decomposition matrix values vectors ∧
          pairs = List.ofFn fun index => (values index, List.ofFn (vectors index)) := by
  by_cases square : ∃ (k : Nat) (matrix : RealMatrix k k), matrix.IsSymm ∧
      found = DenseMatrix.ofMatrix matrix
  · obtain ⟨k, matrix, symmetric, rfl⟩ := square
    obtain ⟨values, vectors, decomposition⟩ := exists_decomposition symmetric
    refine ⟨List.ofFn fun index => (values index, List.ofFn (vectors index)),
      fun k' other _ same => ?_⟩
    obtain rfl : k = k' := by simpa using congrArg DenseMatrix.height same
    obtain rfl := DenseMatrix.ofMatrix_injective same
    exact ⟨values, vectors, decomposition, rfl⟩
  · exact ⟨[], fun k matrix symmetric same => (square ⟨k, matrix, symmetric, same⟩).elim⟩

theorem exists_decomposes : ∃ _ : Spectral ℝ, Decomposes := by
  choose pairs holds using exists_eigenpairs
  exact ⟨⟨pairs⟩, fun k matrix symmetric => holds _ k matrix symmetric rfl⟩

theorem balance_pos (size : ℝ) : 0 < balance size := by
  have small : 0 < @OfScientific.ofScientific ℝ Scalar.toOfScientific 10 true 201 :=
    show (0 : ℝ) < 1.0e-200 by norm_num
  have great : 0 < @OfScientific.ofScientific ℝ Scalar.toOfScientific 10 false 199 :=
    show (0 : ℝ) < 1.0e200 by norm_num
  unfold balance
  split
  · exact small
  · split
    · exact great
    · rw [literal_one]
      exact one_pos

theorem effectiveCutoff_nonneg (cutoff : ℝ) : 0 ≤ effectiveCutoff cutoff := by
  unfold effectiveCutoff
  rw [literal_zero, literal_one]
  split
  · exact show (0 : ℝ) ≤ 1.1102230246251565e-16 by norm_num
  · next inside => exact (not_le.mp (not_or.mp inside).1).le

theorem eq_zero_of_entries
    (level : (Vec.maxAbs? (DenseMatrix.ofMatrix matrix).entries).getD 0 = 0) : matrix = 0 := by
  ext row column
  have small := (getD_maxAbs?_le _ le_rfl).mp level.le (matrix row column) (by
    unfold DenseMatrix.entries DenseMatrix.ofMatrix
    rw [List.mem_flatten]
    exact ⟨_, (List.mem_ofFn' _ _).mpr ⟨row, rfl⟩, (List.mem_ofFn' _ _).mpr ⟨column, rfl⟩⟩)
  exact abs_nonpos_iff.mp small

theorem leastNorm_eq [Spectral ℝ] (decomposes : Decomposes) (symmetric : matrix.IsSymm)
    (cutoff : ℝ) : ∃ values vectors, Decomposition matrix values vectors ∧
      ∀ rhs : Fin k → ℝ, leastNorm (DenseMatrix.ofMatrix matrix) cutoff (List.ofFn rhs) =
        List.ofFn (truncated values vectors (effectiveCutoff cutoff) rhs) := by
  obtain ⟨size, size_eq⟩ : ∃ size,
      (Vec.maxAbs? (DenseMatrix.ofMatrix matrix).entries).getD 0 = size := ⟨_, rfl⟩
  by_cases zero : size = 0
  · obtain rfl := eq_zero_of_entries (size_eq.trans zero)
    obtain ⟨values, vectors, decomposition, _⟩ := decomposes k 0 symmetric
    refine ⟨values, vectors, decomposition, fun rhs => ?_⟩
    unfold leastNorm
    rw [literal_zero, size_eq]
    dsimp only
    rw [if_pos ((beq_iff _ _).mpr zero), List.length_ofFn, Vec.zeros_eq,
      decomposition.truncated_of_mulVec rhs symmetric (effectiveCutoff_nonneg cutoff)
        (Matrix.zero_mulVec rhs)]
  · obtain ⟨factor, factor_eq⟩ : ∃ factor, balance size = factor := ⟨_, rfl⟩
    have positive : 0 < factor := factor_eq ▸ balance_pos size
    obtain ⟨values, vectors, decomposition, pairs⟩ :=
      decomposes k (factor • matrix) (symmetric.smul factor)
    have back := decomposition.smul factor⁻¹
    rw [smul_smul, inv_mul_cancel₀ positive.ne', one_smul] at back
    refine ⟨factor⁻¹ • values, vectors, back, fun rhs => ?_⟩
    have finite : ((List.ofFn rhs).any fun value =>
        !Scalar.isFinite value && !Scalar.isNaN value) = false := by
      simp
    have scaled : (DenseMatrix.ofMatrix matrix).map (· * factor) =
        DenseMatrix.ofMatrix (factor • matrix) := by
      rw [DenseMatrix.map_ofMatrix]
      congr 1
      ext row column
      exact mul_comm _ _
    unfold leastNorm
    rw [literal_zero, size_eq]
    dsimp only
    rw [if_neg (mt (beq_iff _ _).mp zero), finite, if_neg Bool.false_ne_true, factor_eq, scaled,
      pairs]
    obtain ⟨share, share_eq, share_pos⟩ : ∃ share, (if (Vec.maxAbs? (List.ofFn rhs)).getD 0 == 0
        then 1.0 else balance ((Vec.maxAbs? (List.ofFn rhs)).getD 0)) = share ∧ 0 < share := by
      refine ⟨_, rfl, ?_⟩
      split
      · exact literal_one ▸ one_pos
      · exact balance_pos _
    rw [share_eq, combination_scaled positive]
    split
    · next same =>
        rw [(beq_iff _ _).mp same, div_self share_pos.ne', one_smul]
    · rw [List.map_ofFn]
      congr 1
      funext index
      rw [Function.comp_apply, Pi.smul_apply, smul_eq_mul]
      field_simp

/-- Up to what is negligible, the computed solution is the shortest of those that come closest. -/
theorem leastNorm_shortest [Spectral ℝ] (decomposes : Decomposes) (symmetric : matrix.IsSymm)
    (cutoff : ℝ) (rhs : Fin k → ℝ) : ∃ values vectors solution,
      Decomposition matrix values vectors ∧
      leastNorm (DenseMatrix.ofMatrix matrix) cutoff (List.ofFn rhs) = List.ofFn solution ∧
      Shortest (significantPart (effectiveCutoff cutoff) values vectors) rhs solution := by
  obtain ⟨values, vectors, decomposition, solves⟩ := leastNorm_eq decomposes symmetric cutoff
  exact ⟨values, vectors, _, decomposition, solves rhs,
    decomposition.truncated_shortest rhs (effectiveCutoff_nonneg cutoff)⟩

end Spectral

end DampedLeastSquares
