import DampedLeastSquares.Proofs.Exact.Sparse
import DampedLeastSquares.Operand

/-!
# Exact matrices in either storage

A stored matrix represents a matrix of reals. The operations on matrices and on
operands respect this, whichever storage their arguments have.
-/

set_option autoImplicit false

open scoped Matrix

namespace DampedLeastSquares

variable {n m k : Nat}

namespace Matrix

/-- The stored matrix has the size and the entries of a matrix of reals. -/
def Represents (found : Matrix ℝ) (matrix : RealMatrix m n) : Prop :=
  match found with
  | dense found => found = DenseMatrix.ofMatrix matrix
  | sparse found => found.Holds matrix

variable {found : Matrix ℝ} {matrix : RealMatrix m n}

theorem represents_dense (matrix : RealMatrix m n) :
    (dense (DenseMatrix.ofMatrix matrix)).Represents matrix := rfl

theorem Represents.toDense (represents : found.Represents matrix) :
    found.toDense = DenseMatrix.ofMatrix matrix := by
  cases found with
  | dense found => exact represents
  | sparse found => exact SparseMatrix.Holds.toDense represents

theorem Represents.toSparse (represents : found.Represents matrix) :
    found.toSparse.Holds matrix := by
  cases found with
  | dense found =>
      have same : found = DenseMatrix.ofMatrix matrix := represents
      rw [Matrix.toSparse, same]
      exact SparseMatrix.holds_ofDense matrix
  | sparse found => exact represents

theorem Represents.stored (represents : found.Represents matrix) (asSparse : Bool) :
    (found.stored asSparse).Represents matrix := by
  cases asSparse with
  | false => exact represents.toDense
  | true => exact represents.toSparse

theorem Represents.height (represents : found.Represents matrix) : found.height = m := by
  cases found with
  | dense found =>
      have same : found = DenseMatrix.ofMatrix matrix := represents
      rw [Matrix.height, same, DenseMatrix.height_ofMatrix]
  | sparse found => exact SparseMatrix.Holds.height represents

theorem Represents.width (represents : found.Represents matrix) : found.width = n := by
  cases found with
  | dense found =>
      have same : found = DenseMatrix.ofMatrix matrix := represents
      rw [Matrix.width, same, DenseMatrix.width_ofMatrix]
  | sparse found => exact SparseMatrix.Holds.width represents

/-- Every stored matrix of a size represents some matrix of reals. -/
theorem exists_represents (found : Matrix ℝ) (height : found.height = m)
    (width : found.width = n) : ∃ matrix : RealMatrix m n, found.Represents matrix := by
  cases found with
  | dense found => exact ⟨_, DenseMatrix.eq_ofMatrix height width⟩
  | sparse found => exact ⟨fun row column => found.entry row column, height, width, fun _ _ => rfl⟩

theorem Represents.unique {other : RealMatrix m n} (represents : found.Represents matrix)
    (represents' : found.Represents other) : matrix = other :=
  DenseMatrix.ofMatrix_injective (represents.toDense.symm.trans represents'.toDense)

theorem Represents.mulVec? (represents : found.Represents matrix) (vector : Fin n → ℝ) :
    found.mulVec? (List.ofFn vector) = some (List.ofFn (matrix *ᵥ vector)) := by
  cases found with
  | dense found =>
      have same : found = DenseMatrix.ofMatrix matrix := represents
      subst same
      exact DenseMatrix.mulVec?_ofMatrix matrix vector
  | sparse found => exact SparseMatrix.Holds.mulVec? represents vector

theorem Represents.transposeMulVec? (represents : found.Represents matrix) (vector : Fin m → ℝ) :
    found.transposeMulVec? (List.ofFn vector) = some (List.ofFn (matrixᵀ *ᵥ vector)) := by
  cases found with
  | dense found =>
      have same : found = DenseMatrix.ofMatrix matrix := represents
      subst same
      exact DenseMatrix.transposeMulVec?_ofMatrix matrix vector
  | sparse found => exact SparseMatrix.Holds.transposeMulVec? represents vector

theorem Represents.transposeMul? {other : Matrix ℝ} {right : RealMatrix m k}
    (represents : found.Represents matrix) (represents' : other.Represents right) :
    ∃ product, found.transposeMul? other = some product ∧
      product.Represents (matrixᵀ * right) := by
  cases found with
  | dense found =>
      have same : found = DenseMatrix.ofMatrix matrix := represents
      subst same
      cases other with
      | dense other =>
          have same : other = DenseMatrix.ofMatrix right := represents'
          subst same
          refine ⟨_, ?_, represents_dense _⟩
          rw [Matrix.transposeMul?, DenseMatrix.transposeMul?_ofMatrix, Option.map_some]
      | sparse other =>
          refine ⟨_, ?_, represents_dense _⟩
          rw [Matrix.transposeMul?, SparseMatrix.Holds.transposeMulDense? represents',
            Option.map_some, DenseMatrix.transpose_ofMatrix, Matrix.transpose_mul,
            Matrix.transpose_transpose]
  | sparse found =>
      cases other with
      | dense other =>
          have same : other = DenseMatrix.ofMatrix right := represents'
          subst same
          refine ⟨_, ?_, represents_dense _⟩
          rw [Matrix.transposeMul?, SparseMatrix.Holds.transposeMulDense? represents,
            Option.map_some]
      | sparse other =>
          obtain ⟨product, multiplied, holds⟩ :=
            SparseMatrix.Holds.transposeMul? represents represents'
          refine ⟨.sparse product, ?_, holds⟩
          rw [Matrix.transposeMul?, multiplied, Option.map_some]

theorem Represents.diagonal {matrix : RealMatrix n n} (represents : found.Represents matrix) :
    found.diagonal = List.ofFn fun position => matrix position position := by
  cases found with
  | dense found =>
      have same : found = DenseMatrix.ofMatrix matrix := represents
      subst same
      exact DenseMatrix.diagonal_ofMatrix matrix
  | sparse found => exact SparseMatrix.Holds.diagonal represents

theorem Represents.replaceDiagonal? {matrix : RealMatrix n n}
    (represents : found.Represents matrix) (diagonal : Fin n → ℝ) :
    ∃ changed, found.replaceDiagonal? (List.ofFn diagonal) = some changed ∧
      changed.Represents fun row column =>
        if row = column then diagonal row else matrix row column := by
  cases found with
  | dense found =>
      have same : found = DenseMatrix.ofMatrix matrix := represents
      subst same
      exact ⟨_, rfl, DenseMatrix.setDiagonal_ofMatrix matrix diagonal⟩
  | sparse found =>
      obtain ⟨changed, replaced, holds⟩ :=
        SparseMatrix.Holds.replaceDiagonal? represents diagonal
      refine ⟨.sparse changed, ?_, holds⟩
      rw [Matrix.replaceDiagonal?, replaced, Option.map_some]

theorem Represents.divide? (represents : found.Represents matrix) (rows : Fin m → ℝ)
    (columns : Fin n → ℝ) :
    ∃ changed, found.divide? (List.ofFn rows) (List.ofFn columns) = some changed ∧
      changed.Represents fun row column => matrix row column / rows row / columns column := by
  cases found with
  | dense found =>
      have same : found = DenseMatrix.ofMatrix matrix := represents
      subst same
      refine ⟨_, ?_, represents_dense _⟩
      rw [Matrix.divide?, DenseMatrix.divide?_ofMatrix, Option.map_some]
  | sparse found =>
      obtain ⟨changed, divided, holds⟩ := SparseMatrix.Holds.divide? represents rows columns
      refine ⟨.sparse changed, ?_, holds⟩
      rw [Matrix.divide?, divided, Option.map_some]

theorem Represents.append? {other : Matrix ℝ} {right : RealMatrix m k}
    (represents : found.Represents matrix) (represents' : other.Represents right) :
    ∃ appended, found.append? other = some appended ∧
      appended.Represents (sideBySide matrix right) := by
  have sparse : ∃ appended, (found.toSparse.append? other.toSparse).map Matrix.sparse =
      some appended ∧ appended.Represents (sideBySide matrix right) := by
    obtain ⟨appended, ran, holds⟩ := represents.toSparse.append? represents'.toSparse
    exact ⟨.sparse appended, by rw [ran, Option.map_some], holds⟩
  cases found with
  | sparse found => exact sparse
  | dense found =>
      cases other with
      | sparse other => exact sparse
      | dense other =>
          have same : found = DenseMatrix.ofMatrix matrix := represents
          have same' : other = DenseMatrix.ofMatrix right := represents'
          subst same same'
          refine ⟨_, ?_, represents_dense _⟩
          rw [Matrix.append?, DenseMatrix.append?_ofMatrix, Option.map_some]

theorem Represents.cutColumns {matrix : RealMatrix m (n + k)}
    (represents : found.Represents matrix) :
    (found.cutColumns n).1.Represents (matrix.submatrix id (Fin.castAdd k)) ∧
      (found.cutColumns n).2.Represents (matrix.submatrix id (Fin.natAdd n)) := by
  have cut : cutPosition found.width n = n :=
    Exact.cutPosition_natCast (represents.width ▸ Nat.le_add_right n k)
  have rest : found.width - n = k := by rw [represents.width, Nat.add_sub_cancel_left]
  unfold Matrix.cutColumns
  rw [cut]
  dsimp only
  rw [rest]
  cases found with
  | dense found =>
      have same : found = DenseMatrix.ofMatrix matrix := represents
      subst same
      exact ⟨DenseMatrix.columnRange_zero_ofMatrix matrix, DenseMatrix.columnRange_ofMatrix matrix⟩
  | sparse found =>
      exact ⟨SparseMatrix.Holds.columnRange_zero represents,
        SparseMatrix.Holds.columnRange represents⟩

end Matrix

namespace Operand

/-- The operand is a matrix that represents a matrix of reals. -/
def Represents (operand : Operand ℝ) (matrix : RealMatrix m n) : Prop :=
  ∃ found, operand = .matrix found ∧ found.Represents matrix

variable {operand : Operand ℝ} {matrix : RealMatrix m n}

theorem Represents.shape (represents : operand.Represents matrix) : operand.shape = [m, n] := by
  obtain ⟨found, rfl, represents⟩ := represents
  simp [Operand.shape, Matrix.shape, represents.height, represents.width]

theorem Represents.height (represents : operand.Represents matrix) : operand.height = .ok m := by
  rw [Operand.height, represents.shape]
  rfl

theorem Represents.width (represents : operand.Represents matrix) : operand.width = .ok n := by
  rw [Operand.width, axial, represents.shape]
  change Fault.present operand.shape[1]? = _
  rw [represents.shape]
  rfl

theorem Represents.unique {other : RealMatrix m n} (represents : operand.Represents matrix)
    (represents' : operand.Represents other) : matrix = other := by
  obtain ⟨found, rfl, represents⟩ := represents
  obtain ⟨_, same, represents'⟩ := represents'
  cases same
  exact represents.unique represents'

@[simp] theorem allFinite_real (operand : Operand ℝ) : operand.allFinite = true := by
  simp [allFinite, Vec.allFinite]

theorem Represents.toDense (represents : operand.Represents matrix) :
    operand.toDense = DenseMatrix.ofMatrix matrix := by
  obtain ⟨found, rfl, represents⟩ := represents
  exact represents.toDense

theorem Represents.toSparse (represents : operand.Represents matrix) :
    ∃ found, operand.toSparse = .ok found ∧ found.Holds matrix := by
  obtain ⟨found, rfl, represents⟩ := represents
  exact ⟨_, rfl, represents.toSparse⟩

theorem Represents.product {other : Operand ℝ} {right : RealMatrix m k}
    (represents : operand.Represents matrix) (represents' : other.Represents right) :
    ∃ found, operand.product other = .ok found ∧ found.Represents (matrixᵀ * right) := by
  obtain ⟨found, rfl, represents⟩ := represents
  obtain ⟨other, rfl, represents'⟩ := represents'
  obtain ⟨product, multiplied, represents⟩ := represents.transposeMul? represents'
  refine ⟨.matrix product, ?_, product, rfl, represents⟩
  rw [Operand.product, multiplied]
  rfl

theorem Represents.transposeMul {other : Operand ℝ} {right : RealMatrix m k}
    (represents : operand.Represents matrix) (represents' : other.Represents right) :
    ∃ found, operand.transposeMul other = .ok found ∧ found.Represents (matrixᵀ * right) := by
  obtain ⟨found, multiplied, product⟩ := represents.product represents'
  refine ⟨found, ?_, product⟩
  obtain ⟨stored, rfl, _⟩ := product
  have axial : operand.axial = .ok operand := by simp [Operand.axial, represents.shape]
  rw [Operand.transposeMul, axial]
  change (operand.product other >>= _) = _
  rw [multiplied]
  rfl

theorem Represents.transposeMul_vector (represents : operand.Represents matrix)
    (vector : Fin m → ℝ) :
    operand.transposeMul (.ofVec (List.ofFn vector)) =
      .ok (.ofVec (List.ofFn (matrixᵀ *ᵥ vector))) := by
  have axial : operand.axial = .ok operand := by simp [Operand.axial, represents.shape]
  obtain ⟨found, rfl, represents⟩ := represents
  rw [Operand.transposeMul, axial]
  change (Operand.product _ _ >>= _) = _
  rw [Operand.ofVec, Operand.product, Tensor.vector]
  simp only [List.length_singleton, if_true, represents.transposeMulVec?]
  rfl

theorem Represents.apply (represents : operand.Represents matrix) (vector : Fin n → ℝ) :
    operand.apply (List.ofFn vector) = .ok (List.ofFn (matrix *ᵥ vector)) := by
  obtain ⟨found, rfl, represents⟩ := represents
  rw [Operand.apply, represents.mulVec?]
  rfl

theorem Represents.innerProduct (represents : operand.Represents matrix) (left : Fin m → ℝ)
    (right : Fin n → ℝ) :
    innerProduct (List.ofFn left) operand (List.ofFn right) =
      .ok (left ⬝ᵥ matrix *ᵥ right) := by
  rw [Operand.innerProduct, represents.apply]
  change Fault.fit (Vec.dot? _ _) = _
  rw [Exact.dot?_ofFn]
  rfl

theorem Represents.diagonal {matrix : RealMatrix n n} (represents : operand.Represents matrix) :
    operand.diagonal = .ok (List.ofFn fun position => matrix position position) := by
  obtain ⟨found, rfl, represents⟩ := represents
  rw [Operand.diagonal, Operand.matrix?, Option.map_some, represents.diagonal]
  rfl

theorem Represents.replaceDiagonal {matrix : RealMatrix n n}
    (represents : operand.Represents matrix) (diagonal : Fin n → ℝ) :
    ∃ changed, operand.replaceDiagonal (List.ofFn diagonal) = .ok changed ∧
      changed.Represents fun row column =>
        if row = column then diagonal row else matrix row column := by
  obtain ⟨found, rfl, represents⟩ := represents
  obtain ⟨changed, replaced, represents⟩ := represents.replaceDiagonal? diagonal
  refine ⟨changed, ?_, represents⟩
  rw [Operand.replaceDiagonal, Operand.matrix?, Option.bind_some, replaced]
  rfl

theorem Represents.divide (represents : operand.Represents matrix) (rows : Fin m → ℝ)
    (columns : Fin n → ℝ) :
    ∃ changed, operand.divide (List.ofFn rows) (List.ofFn columns) = .ok changed ∧
      changed.Represents fun row column => matrix row column / rows row / columns column := by
  obtain ⟨found, rfl, represents⟩ := represents
  obtain ⟨changed, divided, represents⟩ := represents.divide? rows columns
  refine ⟨changed, ?_, represents⟩
  rw [Operand.divide, divided]
  rfl

theorem Represents.append {other : Operand ℝ} {right : RealMatrix m k}
    (represents : operand.Represents matrix) (represents' : other.Represents right) :
    ∃ appended, operand.append other = .ok appended ∧
      appended.Represents (sideBySide matrix right) := by
  obtain ⟨found, rfl, represents⟩ := represents
  obtain ⟨other, rfl, represents'⟩ := represents'
  obtain ⟨appended, ran, represents⟩ := represents.append? represents'
  refine ⟨appended, ?_, represents⟩
  rw [Operand.append, ran]
  rfl

end Operand

end DampedLeastSquares
