import DampedLeastSquares.Proofs.Blocks

/-!
# Exact normal matrices

Held in one piece or in blocks, densely or sparsely: a normal matrix represents a
matrix of reals, and its operations have the same results in every layout.
-/

set_option autoImplicit false

open scoped Matrix

namespace DampedLeastSquares

/-- The layouts whose systems are solved by elimination. -/
inductive Layout where
  | wholeDense
  | wholeSparse
  | splitDense
  | splitSparse
deriving DecidableEq

namespace NormalMatrix

open Exact

/-- The layout of a normal matrix that is solved by elimination. -/
def layout? {α : Type} : NormalMatrix α → Option Layout
  | whole normal =>
      match normal.method with
      | .elimination => some .wholeDense
      | .sparse => some .wholeSparse
      | _ => none
  | split normal => some (if normal.asSparse then .splitSparse else .splitDense)

variable {n m k : Nat}

/-- Positions in two blocks as positions in the whole. -/
def joined (size : n + m = k) : Fin n ⊕ Fin m ≃ Fin k :=
  finSumFinEquiv.trans (finCongr size)

section Blocks

variable (size : n + m = k) (matrix : RealMatrix k k)

/-- The rows and columns of the left unknowns. -/
def upperBlock : RealMatrix n n :=
  fun row column => matrix (joined size (.inl row)) (joined size (.inl column))

/-- The rows of the left unknowns in the columns of the right ones. -/
def couplingBlock : RealMatrix n m :=
  fun row column => matrix (joined size (.inl row)) (joined size (.inr column))

/-- The rows and columns of the right unknowns. -/
def lowerBlock : RealMatrix m m :=
  fun row column => matrix (joined size (.inr row)) (joined size (.inr column))

variable {matrix}

theorem submatrix_joined (symmetric : matrix.IsSymm) :
    matrix.submatrix (joined size) (joined size) =
      Matrix.fromBlocks (upperBlock size matrix) (couplingBlock size matrix)
        (couplingBlock size matrix)ᵀ (lowerBlock size matrix) := by
  ext row column
  cases row with
  | inl row => cases column <;> rfl
  | inr row =>
      cases column with
      | inl column => exact symmetric.apply _ _
      | inr column => rfl

end Blocks

/-- A matrix in blocks represents the symmetric matrix that has these blocks. -/
def Represents (normal : NormalMatrix ℝ) (matrix : RealMatrix k k) : Prop :=
  match normal with
  | whole normal => normal.matrix.Represents matrix
  | split normal => ∃ (n m : Nat) (size : n + m = k), normal.Holds
      (upperBlock size matrix) (couplingBlock size matrix) (lowerBlock size matrix)

/-- The matrix is held in one piece, or as the blocks that `n` left and `m` right unknowns make. -/
def HoldsAt (size : n + m = k) (normal : NormalMatrix ℝ) (matrix : RealMatrix k k) : Prop :=
  match normal with
  | whole normal => normal.matrix.Represents matrix
  | split normal =>
      normal.Holds (upperBlock size matrix) (couplingBlock size matrix) (lowerBlock size matrix)

variable {normal : NormalMatrix ℝ} {matrix : RealMatrix k k}

theorem represents_iff : normal.Represents matrix ↔
    ∃ (n m : Nat) (size : n + m = k), normal.HoldsAt size matrix := by
  cases normal with
  | split normal => rfl
  | whole normal =>
      constructor
      · intro represents
        exact ⟨0, k, Nat.zero_add k, represents⟩
      · rintro ⟨_, _, _, represents⟩
        exact represents

theorem ofFn_joined {α : Type} (size : n + m = k) (vector : Fin k → α) :
    List.ofFn vector = List.ofFn (vector ∘ joined size ∘ Sum.inl) ++
      List.ofFn (vector ∘ joined size ∘ Sum.inr) := by
  subst size
  rw [List.ofFn_add]
  rfl

theorem mulVec_joined (size : n + m = k) (matrix : RealMatrix k k) (vector : Fin k → ℝ) :
    (matrix *ᵥ vector) ∘ joined size =
      matrix.submatrix (joined size) (joined size) *ᵥ (vector ∘ joined size) := by
  rw [Matrix.submatrix_mulVec_equiv, Function.comp_assoc, Equiv.self_comp_symm, Function.comp_id]

theorem sumElim_joined {α : Type} (size : n + m = k) (vector : Fin k → α) :
    vector ∘ joined size =
      Sum.elim (vector ∘ joined size ∘ Sum.inl) (vector ∘ joined size ∘ Sum.inr) := by
  rw [← Function.comp_assoc, ← Function.comp_assoc, Sum.elim_comp_inl_inr]

theorem HoldsAt.quadraticForm {size : n + m = k} (holds : normal.HoldsAt size matrix)
    (symmetric : matrix.IsSymm) (vector : Fin k → ℝ) :
    normal.quadraticForm (List.ofFn vector) = .ok (vector ⬝ᵥ matrix *ᵥ vector) := by
  cases normal with
  | whole normal => exact Operand.Represents.innerProduct holds vector vector
  | split normal =>
      obtain ⟨first, first_eq⟩ : ∃ first, first = vector ∘ joined size ∘ Sum.inl := ⟨_, rfl⟩
      obtain ⟨second, second_eq⟩ : ∃ second, second = vector ∘ joined size ∘ Sum.inr := ⟨_, rfl⟩
      have parts : vector ⬝ᵥ matrix *ᵥ vector = first ⬝ᵥ upperBlock size matrix *ᵥ first +
          2 * (first ⬝ᵥ couplingBlock size matrix *ᵥ second) +
            second ⬝ᵥ lowerBlock size matrix *ᵥ second := by
        rw [← comp_equiv_dotProduct_comp_equiv vector _ (joined size), mulVec_joined,
          submatrix_joined size symmetric, sumElim_joined, ← first_eq, ← second_eq,
          Matrix.fromBlocks_mulVec]
        simp only [Sum.elim_comp_inl, Sum.elim_comp_inr, sumElim_dotProduct_sumElim,
          dotProduct_add]
        rw [Matrix.mulVec_transpose, dotProduct_comm second (_ ᵥ* _),
          ← Matrix.dotProduct_mulVec]
        ring
      rw [NormalMatrix.quadraticForm, SplitNormal.quadraticForm, SplitNormal.leftSize,
        holds.left.height, ok_bind, ofFn_joined size, ← first_eq, ← second_eq,
        before_append, after_append]
      simp only [holds.left.innerProduct, holds.coupling.innerProduct, holds.right.innerProduct,
        ok_bind, SplitNormal.rightSize, holds.right.height]
      rw [parts]
      split
      · next alone =>
          subst alone
          simp
          rfl
      · rw [literal_two]
        rfl

theorem Represents.quadraticForm (represents : normal.Represents matrix)
    (symmetric : matrix.IsSymm) (vector : Fin k → ℝ) :
    normal.quadraticForm (List.ofFn vector) = .ok (vector ⬝ᵥ matrix *ᵥ vector) := by
  obtain ⟨_, _, _, holds⟩ := represents_iff.mp represents
  exact holds.quadraticForm symmetric vector

theorem HoldsAt.diagonal {size : n + m = k} (holds : normal.HoldsAt size matrix) :
    normal.diagonal = .ok (List.ofFn fun position => matrix position position) := by
  cases normal with
  | whole normal => exact Operand.Represents.diagonal holds
  | split normal =>
      rw [NormalMatrix.diagonal, SplitNormal.diagonal, holds.left.diagonal, ok_bind,
        holds.right.diagonal, ok_bind, ofFn_joined size]
      rfl

theorem HoldsAt.diagonalInto {size : n + m = k} (holds : normal.HoldsAt size matrix) :
    normal.diagonalInto k = .ok (List.ofFn fun position => matrix position position) := by
  rw [NormalMatrix.diagonalInto, holds.diagonal, ok_bind, fill?_ofFn]
  rfl

theorem Represents.diagonalInto (represents : normal.Represents matrix) :
    normal.diagonalInto k = .ok (List.ofFn fun position => matrix position position) := by
  obtain ⟨_, _, _, holds⟩ := represents_iff.mp represents
  exact holds.diagonalInto

/-- The matrix with another diagonal. -/
def withDiagonal (matrix : RealMatrix k k) (diagonal : Fin k → ℝ) : RealMatrix k k :=
  fun row column => if row = column then diagonal row else matrix row column

theorem upperBlock_withDiagonal (size : n + m = k) (diagonal : Fin k → ℝ) :
    upperBlock size (withDiagonal matrix diagonal) =
      withDiagonal (upperBlock size matrix) (diagonal ∘ joined size ∘ Sum.inl) := by
  funext row column
  simp [upperBlock, withDiagonal]

theorem couplingBlock_withDiagonal (size : n + m = k) (diagonal : Fin k → ℝ) :
    couplingBlock size (withDiagonal matrix diagonal) = couplingBlock size matrix := by
  funext row column
  simp [couplingBlock, withDiagonal]

theorem lowerBlock_withDiagonal (size : n + m = k) (diagonal : Fin k → ℝ) :
    lowerBlock size (withDiagonal matrix diagonal) =
      withDiagonal (lowerBlock size matrix) (diagonal ∘ joined size ∘ Sum.inr) := by
  funext row column
  simp [lowerBlock, withDiagonal]

theorem withDiagonal_isSymm (symmetric : matrix.IsSymm) (diagonal : Fin k → ℝ) :
    Matrix.IsSymm (withDiagonal matrix diagonal) := by
  refine Matrix.IsSymm.ext fun row column => ?_
  unfold withDiagonal
  by_cases same : row = column
  · rw [same]
  · rw [if_neg same, if_neg (Ne.symm same), symmetric.apply]

theorem HoldsAt.setDiagonal {size : n + m = k} (holds : normal.HoldsAt size matrix)
    (diagonal : Fin k → ℝ) :
    ∃ changed, normal.setDiagonal (List.ofFn diagonal) = (.ok (), changed) ∧
      changed.HoldsAt size (withDiagonal matrix diagonal) ∧
      changed.layout? = normal.layout? := by
  cases normal with
  | whole normal =>
      obtain ⟨found, replaced, represents⟩ := Operand.Represents.replaceDiagonal holds diagonal
      refine ⟨.whole { normal with matrix := .matrix found }, ?_, ⟨found, rfl, represents⟩, rfl⟩
      rw [NormalMatrix.setDiagonal, WholeNormal.setDiagonal, replaced]
      rfl
  | split normal =>
      obtain ⟨left, replaced, left_eq⟩ :=
        holds.left.replaceDiagonal (diagonal ∘ joined size ∘ Sum.inl)
      obtain ⟨right, replaced', right_eq⟩ :=
        holds.right.replaceDiagonal (diagonal ∘ joined size ∘ Sum.inr)
      refine ⟨.split { normal with left := .matrix left, right := .matrix right }, ?_,
        ⟨⟨left, rfl, ?_⟩, ?_, ⟨right, rfl, ?_⟩⟩, rfl⟩
      · rw [NormalMatrix.setDiagonal, SplitNormal.setDiagonal, SplitNormal.leftSize,
          holds.left.height]
        dsimp only
        rw [ofFn_joined size, before_append, after_append, replaced]
        dsimp only
        rw [replaced']
      · rw [upperBlock_withDiagonal]
        exact left_eq
      · rw [couplingBlock_withDiagonal]
        exact holds.coupling
      · rw [lowerBlock_withDiagonal]
        exact right_eq

theorem Represents.setDiagonal (represents : normal.Represents matrix) (diagonal : Fin k → ℝ) :
    ∃ changed, normal.setDiagonal (List.ofFn diagonal) = (.ok (), changed) ∧
      changed.Represents (withDiagonal matrix diagonal) ∧ changed.layout? = normal.layout? := by
  obtain ⟨_, _, _, holds⟩ := represents_iff.mp represents
  obtain ⟨changed, ran, holds', layout⟩ := holds.setDiagonal diagonal
  exact ⟨changed, ran, represents_iff.mpr ⟨_, _, _, holds'⟩, layout⟩

/-- The matrix with rows and columns divided by the entries of a vector. -/
noncomputable def divided (matrix : RealMatrix k k) (scaling : Fin k → ℝ) : RealMatrix k k :=
  fun row column => matrix row column / scaling row / scaling column

theorem divided_one : divided matrix 1 = matrix := by
  funext row column
  simp [divided]

theorem divided_isSymm (symmetric : matrix.IsSymm) (scaling : Fin k → ℝ) :
    Matrix.IsSymm (divided matrix scaling) := by
  refine Matrix.IsSymm.ext fun row column => ?_
  unfold divided
  rw [symmetric.apply, div_right_comm]

theorem HoldsAt.divide {size : n + m = k} (holds : normal.HoldsAt size matrix)
    (scaling : Fin k → ℝ) :
    ∃ changed, normal.divide (List.ofFn scaling) = (.ok (), changed) ∧
      changed.HoldsAt size (divided matrix scaling) ∧ changed.layout? = normal.layout? := by
  cases normal with
  | whole normal =>
      obtain ⟨found, replaced, represents⟩ := Operand.Represents.divide holds scaling scaling
      refine ⟨.whole (normal.replaceMatrix (.matrix found)), ?_, ⟨found, rfl, represents⟩, rfl⟩
      rw [NormalMatrix.divide, WholeNormal.divide, replaced]
      rfl
  | split normal =>
      obtain ⟨left, parted, left_eq⟩ := holds.left.divide
        (scaling ∘ joined size ∘ Sum.inl) (scaling ∘ joined size ∘ Sum.inl)
      obtain ⟨coupling, parted', coupling_eq⟩ := holds.coupling.divide
        (scaling ∘ joined size ∘ Sum.inl) (scaling ∘ joined size ∘ Sum.inr)
      obtain ⟨right, parted'', right_eq⟩ := holds.right.divide
        (scaling ∘ joined size ∘ Sum.inr) (scaling ∘ joined size ∘ Sum.inr)
      refine ⟨.split { normal with
          left := .matrix left, coupling := .matrix coupling, right := .matrix right }, ?_,
        ⟨⟨left, rfl, left_eq⟩, ⟨coupling, rfl, coupling_eq⟩, ⟨right, rfl, right_eq⟩⟩, rfl⟩
      rw [NormalMatrix.divide, SplitNormal.divide, SplitNormal.leftSize, holds.left.height]
      dsimp only
      rw [ofFn_joined size, before_append, after_append, parted]
      dsimp only
      rw [parted']
      dsimp only
      rw [parted'']

theorem Represents.divide (represents : normal.Represents matrix) (scaling : Fin k → ℝ) :
    ∃ changed, normal.divide (List.ofFn scaling) = (.ok (), changed) ∧
      changed.Represents (divided matrix scaling) ∧ changed.layout? = normal.layout? := by
  obtain ⟨_, _, _, holds⟩ := represents_iff.mp represents
  obtain ⟨changed, ran, holds', layout⟩ := holds.divide scaling
  exact ⟨changed, ran, represents_iff.mpr ⟨_, _, _, holds'⟩, layout⟩

/-! ## Solving -/

theorem posDef_joined (size : n + m = k) (symmetric : matrix.IsSymm) :
    matrix.PosDef ↔ (Matrix.fromBlocks (upperBlock size matrix) (couplingBlock size matrix)
      (couplingBlock size matrix)ᵀ (lowerBlock size matrix)).PosDef := by
  rw [← submatrix_joined size symmetric]
  constructor
  · intro definite
    exact definite.submatrix (joined size).injective
  · intro definite
    have back := definite.submatrix (joined size).symm.injective
    rwa [Matrix.submatrix_submatrix, Equiv.self_comp_symm, Matrix.submatrix_id_id] at back

/-- The parts of a solution make up the solution. -/
theorem solution_joined (size : n + m = k) (symmetric : matrix.IsSymm) (definite : matrix.PosDef)
    {rhs : Fin k → ℝ} {left : Fin n → ℝ} {right : Fin m → ℝ}
    (solves : Matrix.fromBlocks (upperBlock size matrix) (couplingBlock size matrix)
        (couplingBlock size matrix)ᵀ (lowerBlock size matrix) *ᵥ Sum.elim left right =
      Sum.elim (rhs ∘ joined size ∘ Sum.inl) (rhs ∘ joined size ∘ Sum.inr)) :
    List.ofFn left ++ List.ofFn right = List.ofFn (matrix⁻¹ *ᵥ rhs) := by
  obtain ⟨whole, whole_eq⟩ : ∃ whole, whole = Sum.elim left right ∘ (joined size).symm := ⟨_, rfl⟩
  have parts : whole ∘ joined size = Sum.elim left right := by
    rw [whole_eq, Function.comp_assoc, Equiv.symm_comp_self, Function.comp_id]
  have solved : matrix *ᵥ whole = rhs := by
    have moved : (matrix *ᵥ whole) ∘ joined size = rhs ∘ joined size := by
      rw [mulVec_joined, parts, submatrix_joined size symmetric, solves, ← sumElim_joined]
    exact (joined size).surjective.injective_comp_right moved
  have invertible := definite.isUnit.invertible
  rw [← solved, Matrix.mulVec_mulVec, Matrix.inv_mul_of_invertible, Matrix.one_mulVec,
    ofFn_joined size, ← Function.comp_assoc, ← Function.comp_assoc, parts, Sum.elim_comp_inl,
    Sum.elim_comp_inr]

variable [Spectral ℝ]

theorem solve_factored (method : Method ℝ) (found : Operand ℝ) {factors : TriangularFactors ℝ}
    (solves : factors.Solves matrix) (rhs : Fin k → ℝ) {out : Vec ℝ} (size : out.length = k) :
    NormalMatrix.solve (.whole ⟨method, found, some (.factored factors)⟩) (List.ofFn rhs) out =
      .ok (List.ofFn (matrix⁻¹ *ᵥ rhs), none) := by
  simp only [NormalMatrix.solve, WholeNormal.solve, solves.solve?, fit_some, ok_bind,
    WholeNormal.written, size, fill?_ofFn, allFinite_vec, if_true]
  rfl

/-- Prepared and solved, a positive definite system has its solution. Of any other
system no step is found, and `out` stays as it is. -/
def Decides (normal : NormalMatrix ℝ) (matrix : RealMatrix k k) : Prop :=
  (matrix.PosDef ∧ ∃ prepared, normal.prepare = .ok (prepared, none) ∧
      prepared.Represents matrix ∧ prepared.layout? = normal.layout? ∧
      ∀ (rhs : Fin k → ℝ) (out : Vec ℝ), out.length = k →
        prepared.solve (List.ofFn rhs) out = .ok (List.ofFn (matrix⁻¹ *ᵥ rhs), none)) ∨
    (¬ matrix.PosDef ∧ ∃ prepared failure?, normal.prepare = .ok (prepared, failure?) ∧
      prepared.Represents matrix ∧ prepared.layout? = normal.layout? ∧
      (failure? = none → ∀ (rhs : Fin k → ℝ) (out : Vec ℝ), out.length = k →
        ∃ reason, prepared.solve (List.ofFn rhs) out = .ok (out, some reason)))

theorem decides_elimination {found : Operand ℝ} (represents : found.Represents matrix)
    (symmetric : matrix.IsSymm) (prepared? : Option (PreparedSystem ℝ)) :
    (whole ⟨.elimination, found, prepared?⟩).Decides matrix := by
  obtain ⟨definite, factors, factored, solves⟩ | ⟨indefinite, failed⟩ :=
    dense_positiveFactor?_cases symmetric
  · refine .inl ⟨definite, .whole ⟨.elimination, found, some (.factored factors)⟩, ?_,
      represents, rfl, fun rhs out size => solve_factored _ _ solves rhs size⟩
    simp only [NormalMatrix.prepare, WholeNormal.prepare, Operand.allFinite_real,
      represents.toDense, factored]
    rfl
  · refine .inr ⟨indefinite, .whole ⟨.elimination, found, none⟩,
      some .notPositiveDefinite, ?_, represents, rfl, nofun⟩
    simp only [NormalMatrix.prepare, WholeNormal.prepare, Operand.allFinite_real,
      represents.toDense, failed]
    rfl

theorem decides_sparse {found : Operand ℝ} (represents : found.Represents matrix)
    (symmetric : matrix.IsSymm) (prepared? : Option (PreparedSystem ℝ)) :
    (whole ⟨.sparse, found, prepared?⟩).Decides matrix := by
  obtain ⟨stored, stored_eq, holds⟩ := represents.toSparse
  obtain ⟨definite, factors, factored, solves⟩ | ⟨indefinite, failed⟩ :=
    sparse_positiveFactor?_cases holds symmetric
  · refine .inl ⟨definite, .whole ⟨.sparse, found, some (.factored factors)⟩, ?_,
      represents, rfl, fun rhs out size => solve_factored _ _ solves rhs size⟩
    simp only [NormalMatrix.prepare, WholeNormal.prepare, stored_eq, ok_bind, factored]
    rfl
  · refine .inr ⟨indefinite, .whole ⟨.sparse, found, none⟩,
      some .sparseNotPositiveDefinite, ?_, represents, rfl, nofun⟩
    simp only [NormalMatrix.prepare, WholeNormal.prepare, stored_eq, ok_bind, failed]
    rfl

theorem decides_split {normal : SplitNormal ℝ} (size : n + m = k)
    (holds : normal.Holds (upperBlock size matrix) (couplingBlock size matrix)
      (lowerBlock size matrix)) (symmetric : matrix.IsSymm) : (split normal).Decides matrix := by
  have upperSymmetric : Matrix.IsSymm (upperBlock size matrix) :=
    Matrix.IsSymm.ext fun _ _ => symmetric.apply _ _
  have lowerSymmetric : Matrix.IsSymm (lowerBlock size matrix) :=
    Matrix.IsSymm.ext fun _ _ => symmetric.apply _ _
  have definite_iff := (posDef_joined size symmetric).trans
    (posDef_fromBlocks_iff (couplingBlock size matrix) lowerSymmetric)
  obtain ⟨first, factors, solves, ready⟩ | ⟨indefinite, failed⟩ :=
    SplitNormal.prepare_cases holds.left upperSymmetric
  · have kept : ({ normal with leftFactor? := some factors } : SplitNormal ℝ).Holds
        (upperBlock size matrix) (couplingBlock size matrix) (lowerBlock size matrix) :=
      ⟨holds.left, holds.coupling, holds.right⟩
    have start : NormalMatrix.prepare (.split normal) =
        .ok (.split { normal with leftFactor? := some factors }, none) := by
      rw [NormalMatrix.prepare, ready]
      rfl
    have ends (rhs : Fin k → ℝ) {out : Vec ℝ} (size' : out.length = k) :=
      SplitNormal.solve_cases rfl kept first solves upperSymmetric lowerSymmetric
        (rhs ∘ joined size ∘ Sum.inl) (rhs ∘ joined size ∘ Sum.inr)
        (size'.trans size.symm)
    by_cases second : (reduced (upperBlock size matrix) (couplingBlock size matrix)
        (lowerBlock size matrix)).PosDef
    · have definite := definite_iff.mpr ⟨first, second⟩
      refine .inl ⟨definite, _, start, ⟨n, m, size, kept⟩, rfl, fun rhs out size' => ?_⟩
      obtain ⟨_, left, right, solved, solution⟩ | ⟨indefinite, _⟩ := ends rhs size'
      · rw [NormalMatrix.solve, ofFn_joined size rhs, solved,
          solution_joined size symmetric definite solution]
      · exact (indefinite second).elim
    · refine .inr ⟨fun definite => second (definite_iff.mp definite).2, _, _, start,
        ⟨n, m, size, kept⟩, rfl, fun _ rhs out size' => ?_⟩
      obtain ⟨definite, _⟩ | ⟨_, failed⟩ := ends rhs size'
      · exact (second definite).elim
      · exact ⟨_, by rw [NormalMatrix.solve, ofFn_joined size rhs, failed]⟩
  · refine .inr ⟨fun definite => indefinite (definite_iff.mp definite).1,
      .split { normal with leftFactor? := none }, some .leftBlock, ?_,
      ⟨n, m, size, ⟨holds.left, holds.coupling, holds.right⟩⟩, rfl, nofun⟩
    rw [NormalMatrix.prepare, failed]
    rfl

theorem Represents.decides (represents : normal.Represents matrix) (symmetric : matrix.IsSymm)
    (eliminates : normal.layout?.isSome) : normal.Decides matrix := by
  cases normal with
  | whole normal =>
      obtain ⟨method, found, prepared?⟩ := normal
      cases method with
      | elimination => exact decides_elimination represents symmetric prepared?
      | sparse => exact decides_sparse represents symmetric prepared?
      | leastNorm cutoff => cases eliminates
      | unfactorable => cases eliminates
  | split normal =>
      obtain ⟨n, m, size, holds⟩ := represents
      exact decides_split size holds symmetric

end NormalMatrix

end DampedLeastSquares
