import DampedLeastSquares.Proofs.Exact.Normal

/-!
# Exact derivatives

From a Jacobian, in one piece or in two blocks of columns, every layout forms the
product of the transposed Jacobian with itself and the gradient.
-/

set_option autoImplicit false

open scoped Matrix

namespace DampedLeastSquares

open Exact NormalMatrix

variable {n m k l : Nat}

def leftColumns (size : n + m = k) (jacobian : RealMatrix l k) : RealMatrix l n :=
  fun row column => jacobian row (joined size (.inl column))

def rightColumns (size : n + m = k) (jacobian : RealMatrix l k) : RealMatrix l m :=
  fun row column => jacobian row (joined size (.inr column))

theorem exists_columns (size : n + m = k) (left : RealMatrix l n) (right : RealMatrix l m) :
    ∃ jacobian : RealMatrix l k,
      leftColumns size jacobian = left ∧ rightColumns size jacobian = right := by
  refine ⟨fun row column => Sum.elim (left row) (right row) ((joined size).symm column), ?_, ?_⟩
  · funext row column
    simp [leftColumns]
  · funext row column
    simp [rightColumns]

theorem gram_isSymm (jacobian : RealMatrix l k) : Matrix.IsSymm (jacobianᵀ * jacobian) := by
  unfold Matrix.IsSymm
  rw [Matrix.transpose_mul, Matrix.transpose_transpose]

/-- The blocks are the products of the columns, in either storage. -/
theorem SplitNormal.holds_compute (normal : SplitNormal ℝ) {left right : Operand ℝ}
    {first : RealMatrix l n} {second : RealMatrix l m} (left_eq : left.Represents first)
    (right_eq : right.Represents second) :
    ∃ changed, normal.compute left right = (.ok (), changed) ∧
      changed.Holds (firstᵀ * first) (firstᵀ * second) (secondᵀ * second) ∧
      changed.asSparse = normal.asSparse := by
  have stored (found : Operand ℝ) {size : Nat} {matrix : RealMatrix l size}
      (found_eq : found.Represents matrix) :
      ∃ kept, SplitNormal.stored normal.asSparse found = .ok kept ∧ kept.Represents matrix := by
    obtain ⟨matrix', rfl, represents⟩ := found_eq
    exact ⟨.matrix (matrix'.stored normal.asSparse), rfl, _, rfl, represents.stored _⟩
  obtain ⟨kept, leftStored, kept_eq⟩ := stored left left_eq
  obtain ⟨kept', rightStored, kept_eq'⟩ := stored right right_eq
  obtain ⟨upper, multiplied, upper_eq⟩ := kept_eq.product kept_eq
  obtain ⟨coupling, multiplied', coupling_eq⟩ := kept_eq.product kept_eq'
  obtain ⟨lower, multiplied'', lower_eq⟩ := kept_eq'.product kept_eq'
  refine ⟨{ normal with left := upper, coupling := coupling, right := lower }, ?_,
    ⟨upper_eq, coupling_eq, lower_eq⟩, rfl⟩
  simp only [SplitNormal.compute, SplitNormal.startOf, leftStored, rightStored, multiplied,
    multiplied', multiplied'', ok_bind, pure, Except.pure]

namespace Operand

variable {found : Tensor ℝ}

theorem toSparse_array (rank : found.shape = [l, n]) :
    (Operand.array found).toSparse = .error .wrongKind := by
  simp [Operand.toSparse, rank]

theorem product_array_left (rank : found.shape = [l, n]) (other : Operand ℝ) :
    (Operand.array found).product other = .error .shape := by
  cases other <;> simp [Operand.product, rank]

theorem product_array_right (rank : found.shape = [l, n]) (other : Operand ℝ) :
    other.product (.array found) = .error .shape := by
  cases other <;> simp [Operand.product, rank]

end Operand

namespace NormalMatrix

variable {jacobian : RealMatrix l k}

theorem holdsAt_update_whole {normal : WholeNormal ℝ} {columns : Operand ℝ} (size : n + m = k)
    (represents : columns.Represents jacobian)
    (fits : normal.method.isSparse = false → ∃ found, columns = .matrix (.dense found)) :
    ∃ changed, (whole normal).update (.whole columns) = (.ok (), changed) ∧
      changed.HoldsAt size (jacobianᵀ * jacobian) ∧
      changed.layout? = (whole normal).layout? := by
  cases storage : normal.method.isSparse with
  | true =>
      obtain ⟨found, stored, holds⟩ := represents.toSparse
      obtain ⟨product, multiplied, product_eq⟩ := holds.transposeMul? holds
      refine ⟨.whole (normal.replaceMatrix (.matrix (.sparse product))), ?_,
        ⟨.sparse product, rfl, product_eq⟩, rfl⟩
      unfold NormalMatrix.update WholeNormal.update
      dsimp only
      rw [if_pos storage, stored, ok_bind, multiplied]
      rfl
  | false =>
      obtain ⟨found, rfl⟩ := fits storage
      obtain ⟨product, multiplied, product_eq⟩ := represents.transposeMul represents
      refine ⟨.whole (normal.replaceMatrix product), ?_, product_eq, rfl⟩
      unfold NormalMatrix.update WholeNormal.update
      dsimp only
      rw [if_neg (by rw [storage]; exact nofun), multiplied]
      rfl

theorem update_whole {normal : WholeNormal ℝ} {columns : Operand ℝ}
    (represents : columns.Represents jacobian)
    (fits : normal.method.isSparse = false → ∃ found, columns = .matrix (.dense found)) :
    ∃ changed, (whole normal).update (.whole columns) = (.ok (), changed) ∧
      changed.Represents (jacobianᵀ * jacobian) ∧ changed.layout? = (whole normal).layout? := by
  obtain ⟨changed, updated, holds, layout⟩ :=
    holdsAt_update_whole (Nat.zero_add k) represents fits
  exact ⟨changed, updated, represents_iff.mpr ⟨_, _, _, holds⟩, layout⟩

theorem holdsAt_update_split {normal : SplitNormal ℝ} {left right : Operand ℝ} (size : n + m = k)
    (left_eq : left.Represents (leftColumns size jacobian))
    (right_eq : right.Represents (rightColumns size jacobian)) :
    ∃ changed, (split normal).update (.split left right) = (.ok (), changed) ∧
      changed.HoldsAt size (jacobianᵀ * jacobian) ∧
      changed.layout? = (split normal).layout? := by
  obtain ⟨changed, computed, holds, storage⟩ := normal.holds_compute left_eq right_eq
  refine ⟨.split changed, ?_, holds, ?_⟩
  · unfold NormalMatrix.update
    dsimp only
    rw [computed]
  · simp only [layout?, storage]

theorem update_split {normal : SplitNormal ℝ} {left right : Operand ℝ} (size : n + m = k)
    (left_eq : left.Represents (leftColumns size jacobian))
    (right_eq : right.Represents (rightColumns size jacobian)) :
    ∃ changed, (split normal).update (.split left right) = (.ok (), changed) ∧
      changed.Represents (jacobianᵀ * jacobian) ∧ changed.layout? = (split normal).layout? := by
  obtain ⟨changed, updated, holds, layout⟩ :=
    @holdsAt_update_split _ _ _ _ _ normal _ _ size left_eq right_eq
  exact ⟨changed, updated, represents_iff.mpr ⟨_, _, _, holds⟩, layout⟩

theorem update_whole_sparse {normal : WholeNormal ℝ} {found : SparseMatrix ℝ}
    {changed : NormalMatrix ℝ} (dense : normal.method.isSparse = false) :
    (whole normal).update (.whole (.matrix (.sparse found))) ≠ (.ok (), changed) := by
  unfold NormalMatrix.update WholeNormal.update
  dsimp only
  rw [if_neg (by rw [dense]; exact nofun)]
  exact nofun

/-- An array with two axes that is no matrix is not taken. -/
theorem update_whole_array {normal : WholeNormal ℝ} {found : Tensor ℝ}
    {changed : NormalMatrix ℝ} (rank : found.shape = [l, k]) :
    (whole normal).update (.whole (.array found)) ≠ (.ok (), changed) := by
  unfold NormalMatrix.update WholeNormal.update
  dsimp only
  split
  · rw [Operand.toSparse_array rank]
    intro same
    cases same
  · have missing : (Operand.array found).transposeMul (.array found) = .error .shape := by
      simp only [Operand.transposeMul, Operand.axial, Operand.shape, rank, List.isEmpty_cons,
        Bool.false_eq_true, if_false, ok_bind, Operand.product_array_left rank]
      rfl
    rw [missing]
    intro same
    cases same

/-- A whole Jacobian of a size that was taken is a matrix of that size. -/
theorem of_update_whole {normal : WholeNormal ℝ} {changed : NormalMatrix ℝ}
    {columns : Operand ℝ} (shape : columns.shape = [l, k])
    (updated : (whole normal).update (.whole columns) = (.ok (), changed)) :
    ∃ jacobian : RealMatrix l k, columns.Represents jacobian ∧
      changed.Represents (jacobianᵀ * jacobian) ∧ changed.layout? = (whole normal).layout? := by
  cases columns with
  | array found => exact (update_whole_array shape updated).elim
  | matrix found =>
      have extents : found.height = l ∧ found.width = k := by
        simpa [Operand.shape, Matrix.shape] using shape
      obtain ⟨jacobian, represents⟩ := found.exists_represents extents.1 extents.2
      obtain ⟨other, updated', product, layout⟩ :=
        @update_whole _ _ _ normal _ ⟨found, rfl, represents⟩ (by
          intro dense
          cases found with
          | dense found => exact ⟨found, rfl⟩
          | sparse found => exact (update_whole_sparse dense updated).elim)
      cases updated.symm.trans updated'
      exact ⟨jacobian, ⟨found, rfl, represents⟩, product, layout⟩

/-- A block of columns that was stored and multiplied is a matrix. -/
theorem exists_represents_block {asSparse : Bool} {columns kept other product : Operand ℝ}
    {size : Nat} (shape : columns.shape = [l, size])
    (stored : SplitNormal.stored asSparse columns = .ok kept)
    (multiplied : kept.product other = .ok product ∨ other.product kept = .ok product) :
    ∃ matrix : RealMatrix l size, columns.Represents matrix := by
  cases columns with
  | array found =>
      unfold SplitNormal.stored at stored
      cases asSparse with
      | true =>
          dsimp only at stored
          rw [if_pos rfl, Operand.toSparse_array shape] at stored
          cases stored
      | false =>
          cases stored
          obtain multiplied | multiplied := multiplied
          · rw [Operand.product_array_left shape] at multiplied
            cases multiplied
          · rw [Operand.product_array_right shape] at multiplied
            cases multiplied
  | matrix found =>
      have extents : found.height = l ∧ found.width = size := by
        simpa [Operand.shape, Matrix.shape] using shape
      obtain ⟨matrix, represents⟩ := found.exists_represents extents.1 extents.2
      exact ⟨matrix, found, rfl, represents⟩

/-- Blocks that were taken were stored and multiplied. -/
theorem stored_of_update_split {normal : SplitNormal ℝ} {changed : NormalMatrix ℝ}
    {left right : Operand ℝ}
    (updated : (split normal).update (.split left right) = (.ok (), changed)) :
    ∃ first second upper coupling,
      SplitNormal.stored normal.asSparse left = .ok first ∧
      SplitNormal.stored normal.asSparse right = .ok second ∧
      first.product first = .ok upper ∧ first.product second = .ok coupling := by
  unfold NormalMatrix.update SplitNormal.compute at updated
  dsimp only at updated
  cases started : normal.startOf left right with
  | error fault =>
      rw [started] at updated
      cases updated
  | ok parts =>
      obtain ⟨first, second, upper⟩ := parts
      obtain ⟨_, firstStored, rest⟩ := of_bind started
      obtain ⟨_, secondStored, rest⟩ := of_bind rest
      obtain ⟨_, multiplied, same⟩ := of_bind rest
      cases same
      cases multiplied' : first.product second with
      | error fault =>
          rw [started] at updated
          dsimp only at updated
          rw [multiplied'] at updated
          cases updated
      | ok coupling =>
          exact ⟨first, second, upper, coupling, firstStored, secondStored, multiplied, multiplied'⟩

/-- Blocks of a size that were taken are matrices of that size. -/
theorem of_update_split {normal : SplitNormal ℝ} {changed : NormalMatrix ℝ}
    {left right : Operand ℝ} (shape : left.shape = [l, n]) (shape' : right.shape = [l, m])
    (size : n + m = k) (updated : (split normal).update (.split left right) = (.ok (), changed)) :
    ∃ jacobian : RealMatrix l k, left.Represents (leftColumns size jacobian) ∧
      right.Represents (rightColumns size jacobian) ∧
        changed.Represents (jacobianᵀ * jacobian) ∧ changed.layout? = (split normal).layout? := by
  obtain ⟨first, second, upper, coupling, firstStored, secondStored, multiplied, multiplied'⟩ :=
    stored_of_update_split updated
  obtain ⟨leftMatrix, left_eq⟩ := exists_represents_block shape firstStored (.inl multiplied)
  obtain ⟨rightMatrix, right_eq⟩ := exists_represents_block shape' secondStored (.inr multiplied')
  obtain ⟨jacobian, rfl, rfl⟩ := exists_columns size leftMatrix rightMatrix
  obtain ⟨other, updated', product, layout⟩ :=
    @update_split _ _ _ _ _ normal _ _ size left_eq right_eq
  cases updated.symm.trans updated'
  exact ⟨jacobian, left_eq, right_eq, product, layout⟩

end NormalMatrix

/-- The products with both blocks, one after the other, are the product with all columns. -/
theorem SplitNormal.gradient_eq {jacobian : RealMatrix l k} (size : n + m = k)
    {left right : Operand ℝ} (left_eq : left.Represents (leftColumns size jacobian))
    (right_eq : right.Represents (rightColumns size jacobian)) (slopes : Fin l → ℝ) :
    SplitNormal.gradient left right (List.ofFn slopes) (some k) =
      .ok (List.ofFn (jacobianᵀ *ᵥ slopes)) := by
  have product (columns : Operand ℝ) {size : Nat} {matrix : RealMatrix l size}
      (represents : columns.Represents matrix) :
      SplitNormal.gradient.product (List.ofFn slopes) columns size =
        .ok (List.ofFn (matrixᵀ *ᵥ slopes)) := by
    rw [SplitNormal.gradient.product, represents.transposeMul_vector, ok_bind]
    exact congrArg Fault.fit (fill?_ofFn _)
  have parts : min n k = n ∧ k - n = m := by omega
  simp only [SplitNormal.gradient, left_eq.width, ok_bind, SplitNormal.gradient.into, parts.1,
    parts.2, product left left_eq, product right right_eq, pure, Except.pure]
  rw [ofFn_joined size (jacobianᵀ *ᵥ slopes)]
  rfl

/-- Without a vector to write to, one of the right length is made. -/
theorem SplitNormal.gradient_none {left right : Operand ℝ} (left_eq : left.width = .ok n)
    (right_eq : right.width = .ok m) (residuals : Vec ℝ) :
    SplitNormal.gradient left right residuals none =
      SplitNormal.gradient left right residuals (some (n + m)) := by
  simp only [SplitNormal.gradient, left_eq, right_eq, ok_bind, pure, Except.pure]

end DampedLeastSquares
