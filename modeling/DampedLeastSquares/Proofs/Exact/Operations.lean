import DampedLeastSquares.Proofs.Exact.Gram

/-!
# Sequences of operations on a normal matrix

Two blocks of columns are handed to a normal matrix as they are or side by side.
Whatever operations follow, every layout then holds one and the same symmetric
matrix of reals, and gives the same answers.
-/

set_option autoImplicit false

open scoped Matrix

namespace DampedLeastSquares

open Exact NormalMatrix

variable {n m k l : Nat}

/-! ## What is done with a matrix of reals -/

/-- What is done with a normal matrix of `k` unknowns, after a Jacobian of `l` rows. A diagonal
and a gradient are written to a vector if one is `given`. -/
inductive Operation (k l : Nat) where
  | setDiagonal (diagonal : Fin k → ℝ)
  | divide (scaling : Fin k → ℝ) (nonzero : ∀ index, scaling index ≠ 0)
  | readDiagonal (given : Bool)
  | quadraticForm (vector : Fin k → ℝ)
  | gradient (given : Bool) (residuals : Fin l → ℝ)

inductive Answer where
  | done
  | value (value : ℝ)
  | entries (entries : Vec ℝ)

namespace Operation

noncomputable def change (matrix : RealMatrix k k) : Operation k l → RealMatrix k k
  | .setDiagonal diagonal => withDiagonal matrix diagonal
  | .divide scaling _ => divided matrix scaling
  | .readDiagonal _ => matrix
  | .quadraticForm _ => matrix
  | .gradient _ _ => matrix

noncomputable def answer (jacobian : RealMatrix l k) (matrix : RealMatrix k k) :
    Operation k l → Answer
  | .setDiagonal _ => .done
  | .divide _ _ => .done
  | .readDiagonal _ => .entries (List.ofFn fun index => matrix index index)
  | .quadraticForm vector => .value (vector ⬝ᵥ matrix *ᵥ vector)
  | .gradient _ residuals => .entries (List.ofFn (jacobianᵀ *ᵥ residuals))

/-- The matrix after a sequence of operations. -/
noncomputable def changes (matrix : RealMatrix k k) (operations : List (Operation k l)) :
    RealMatrix k k :=
  operations.foldl change matrix

/-- The answers along a sequence of operations. -/
noncomputable def answers (jacobian : RealMatrix l k) (matrix : RealMatrix k k) :
    List (Operation k l) → List Answer
  | [] => []
  | operation :: rest =>
      operation.answer jacobian matrix :: answers jacobian (operation.change matrix) rest

theorem change_isSymm {matrix : RealMatrix k k} (symmetric : matrix.IsSymm)
    (operation : Operation k l) : (operation.change matrix).IsSymm := by
  cases operation with
  | setDiagonal diagonal => exact withDiagonal_isSymm symmetric diagonal
  | divide scaling _ => exact divided_isSymm symmetric scaling
  | readDiagonal _ => exact symmetric
  | quadraticForm _ => exact symmetric
  | gradient _ _ => exact symmetric

theorem changes_isSymm {matrix : RealMatrix k k} (symmetric : matrix.IsSymm)
    (operations : List (Operation k l)) : (changes matrix operations).IsSymm := by
  induction operations generalizing matrix with
  | nil => exact symmetric
  | cons operation rest previous => exact previous (operation.change_isSymm symmetric)

end Operation

/-! ## What is done with a normal matrix -/

namespace NormalMatrix

/-- The product of the transposed Jacobian with a vector, written to a vector of `length?`
entries if there is one. -/
noncomputable def product (normal : NormalMatrix ℝ) (jacobian : Derivative ℝ) (vector : Vec ℝ)
    (length? : Option Nat) : Except (Fault ℝ) (Vec ℝ) :=
  match jacobian with
  | .split left right => normal.gradient left right vector length?
  | .whole columns => do
      let found ← columns.transposeMul (.ofVec vector)
      match length? with
      | none => return found.toTensor.flatten
      | some length => Fault.fit (Vec.fill? length found.toTensor.flatten)

noncomputable def perform (normal : NormalMatrix ℝ) (jacobian : Derivative ℝ) :
    Operation k l → Except (Fault ℝ) Answer × NormalMatrix ℝ
  | .setDiagonal diagonal =>
      let (ending, changed) := normal.setDiagonal (List.ofFn diagonal)
      (ending.map fun _ => .done, changed)
  | .divide scaling _ =>
      let (ending, changed) := normal.divide (List.ofFn scaling)
      (ending.map fun _ => .done, changed)
  | .readDiagonal given =>
      ((if given then normal.diagonalInto k else normal.diagonal).map .entries, normal)
  | .quadraticForm vector => ((normal.quadraticForm (List.ofFn vector)).map .value, normal)
  | .gradient given residuals =>
      ((normal.product jacobian (List.ofFn residuals) (if given then some k else none)).map
        .entries, normal)

/-- A sequence of operations, up to the first that fails. -/
noncomputable def performAll (jacobian : Derivative ℝ) (normal : NormalMatrix ℝ) :
    List (Operation k l) → Except (Fault ℝ) (List Answer) × NormalMatrix ℝ
  | [] => (.ok [], normal)
  | operation :: rest =>
      match normal.perform jacobian operation with
      | (.error fault, changed) => (.error fault, changed)
      | (.ok answer, changed) =>
          let (ending, last) := changed.performAll jacobian rest
          (ending.map (answer :: ·), last)

/-- Two blocks of columns in the form that a normal matrix takes: as they are, or side by side,
densely unless the matrix is held sparsely. -/
def Takes (left : RealMatrix l n) (right : RealMatrix l m) :
    NormalMatrix ℝ → Derivative ℝ → Prop
  | split _, .split first second => first.Represents left ∧ second.Represents right
  | whole normal, .whole columns =>
      columns.Represents (sideBySide left right) ∧
        (normal.method.isSparse = false → ∃ found, columns = .matrix (.dense found))
  | _, _ => False

variable {left : RealMatrix l n} {right : RealMatrix l m} {jacobian : Derivative ℝ}
  {normal : NormalMatrix ℝ} {matrix : RealMatrix (n + m) (n + m)}

theorem leftColumns_sideBySide (left : RealMatrix l n) (right : RealMatrix l m) :
    leftColumns rfl (sideBySide left right) = left := by
  funext row column
  simp [leftColumns, sideBySide, joined]

theorem rightColumns_sideBySide (left : RealMatrix l n) (right : RealMatrix l m) :
    rightColumns rfl (sideBySide left right) = right := by
  funext row column
  simp [rightColumns, sideBySide, joined]

theorem isSparse_iff (normal : WholeNormal ℝ) :
    normal.method.isSparse = true ↔ (whole normal).layout? = some .wholeSparse := by
  cases method : normal.method <;> simp [layout?, Method.isSparse, method]

theorem layout?_ne (first : WholeNormal ℝ) (second : SplitNormal ℝ) :
    (whole first).layout? ≠ (split second).layout? := by
  cases method : first.method <;> cases storage : second.asSparse <;>
    simp [layout?, method, storage]

theorem Takes.of_layout? {changed : NormalMatrix ℝ} (takes : Takes left right normal jacobian)
    (same : changed.layout? = normal.layout?) : Takes left right changed jacobian := by
  cases normal with
  | split normal =>
      cases changed with
      | split changed => cases jacobian <;> exact takes
      | whole changed => exact (layout?_ne changed normal same).elim
  | whole normal =>
      cases changed with
      | split changed => exact (layout?_ne normal changed same.symm).elim
      | whole changed =>
          cases jacobian with
          | split first second => exact takes.elim
          | whole columns =>
              have storage := (isSparse_iff changed).trans (same ▸ (isSparse_iff normal).symm)
              refine ⟨takes.1, fun dense => takes.2 ?_⟩
              rw [Bool.eq_false_iff] at dense ⊢
              exact fun sparse => dense (storage.mpr sparse)

theorem Takes.update (takes : Takes left right normal jacobian) :
    ∃ changed, normal.update jacobian = (.ok (), changed) ∧
      changed.HoldsAt rfl ((sideBySide left right)ᵀ * sideBySide left right) ∧
      changed.layout? = normal.layout? := by
  cases jacobian with
  | split first second =>
      cases normal with
      | whole normal => exact takes.elim
      | split normal =>
          obtain ⟨first_eq, second_eq⟩ := takes
          exact holdsAt_update_split rfl (by rwa [leftColumns_sideBySide])
            (by rwa [rightColumns_sideBySide])
  | whole columns =>
      cases normal with
      | split normal => exact takes.elim
      | whole normal => exact holdsAt_update_whole rfl takes.1 takes.2

theorem Takes.product (takes : Takes left right normal jacobian) (vector : Fin l → ℝ)
    (given : Bool) :
    normal.product jacobian (List.ofFn vector) (if given then some (n + m) else none) =
      .ok (List.ofFn ((sideBySide left right)ᵀ *ᵥ vector)) := by
  cases jacobian with
  | split first second =>
      cases normal with
      | whole normal => exact takes.elim
      | split normal =>
          obtain ⟨first_eq, second_eq⟩ := takes
          have first_eq' : first.Represents (leftColumns rfl (sideBySide left right)) := by
            rwa [leftColumns_sideBySide]
          have second_eq' : second.Represents (rightColumns rfl (sideBySide left right)) := by
            rwa [rightColumns_sideBySide]
          have written := SplitNormal.gradient_eq rfl first_eq' second_eq' vector
          cases given with
          | true => exact written
          | false =>
              exact (SplitNormal.gradient_none first_eq.width second_eq.width _).trans written
  | whole columns =>
      cases normal with
      | split normal => exact takes.elim
      | whole normal =>
          unfold NormalMatrix.product
          dsimp only
          rw [takes.1.transposeMul_vector, ok_bind]
          cases given with
          | true => exact congrArg Fault.fit (fill?_ofFn _)
          | false => rfl

theorem Takes.perform (takes : Takes left right normal jacobian)
    (holds : normal.HoldsAt rfl matrix) (symmetric : matrix.IsSymm)
    (operation : Operation (n + m) l) :
    ∃ changed, normal.perform jacobian operation =
        (.ok (operation.answer (sideBySide left right) matrix), changed) ∧
      changed.HoldsAt rfl (operation.change matrix) ∧ changed.layout? = normal.layout? := by
  cases operation with
  | setDiagonal diagonal =>
      obtain ⟨changed, set, holds', layout⟩ := holds.setDiagonal diagonal
      refine ⟨changed, ?_, holds', layout⟩
      simp only [NormalMatrix.perform, set]
      rfl
  | divide scaling _ =>
      obtain ⟨changed, divided, holds', layout⟩ := holds.divide scaling
      refine ⟨changed, ?_, holds', layout⟩
      simp only [NormalMatrix.perform, divided]
      rfl
  | readDiagonal given =>
      refine ⟨normal, ?_, holds, rfl⟩
      simp only [NormalMatrix.perform, holds.diagonal, holds.diagonalInto, ite_self]
      rfl
  | quadraticForm vector =>
      refine ⟨normal, ?_, holds, rfl⟩
      simp only [NormalMatrix.perform, holds.quadraticForm symmetric]
      rfl
  | gradient given residuals =>
      refine ⟨normal, ?_, holds, rfl⟩
      simp only [NormalMatrix.perform, takes.product]
      rfl

theorem Takes.performAll (takes : Takes left right normal jacobian)
    (holds : normal.HoldsAt rfl matrix) (symmetric : matrix.IsSymm)
    (operations : List (Operation (n + m) l)) :
    ∃ changed, normal.performAll jacobian operations =
        (.ok (Operation.answers (sideBySide left right) matrix operations), changed) ∧
      changed.HoldsAt rfl (Operation.changes matrix operations) ∧
      changed.layout? = normal.layout? := by
  induction operations generalizing normal matrix with
  | nil => exact ⟨normal, rfl, holds, rfl⟩
  | cons operation rest previous =>
      obtain ⟨middle, first, holds', layout⟩ := takes.perform holds symmetric operation
      obtain ⟨changed, others, holds'', layout'⟩ :=
        previous (takes.of_layout? layout) holds' (operation.change_isSymm symmetric)
      refine ⟨changed, ?_, holds'', layout'.trans layout⟩
      rw [NormalMatrix.performAll, first]
      dsimp only
      rw [others]
      rfl

theorem takes_appended {first second : Operand ℝ} (first_eq : first.Represents left)
    (second_eq : second.Represents right) {columns : Matrix ℝ}
    (appended : first.append second = .ok columns) (normal : WholeNormal ℝ) :
    Takes left right (whole normal) (.whole (.matrix (columns.stored normal.method.isSparse))) := by
  obtain ⟨found, same, represents⟩ := first_eq.append second_eq
  cases appended.symm.trans same
  refine ⟨⟨_, rfl, represents.stored _⟩, fun dense => ⟨columns.toDense, ?_⟩⟩
  rw [dense]
  rfl

/-- Whatever is done after two blocks of columns were handed over, nothing fails, every layout
gives the answers that the normal matrix of all columns gives, and it holds what that has become:
in one piece, or as the three blocks that make up a symmetric matrix. -/
theorem operations_agree (left : RealMatrix l n) (right : RealMatrix l m)
    (operations : List (Operation (n + m) l)) :
    (Operation.changes ((sideBySide left right)ᵀ * sideBySide left right) operations).IsSymm ∧
    (∀ first second : Operand ℝ, first.Represents left → second.Represents right →
      ∃ columns, first.append second = .ok columns ∧
        columns.Represents (sideBySide left right)) ∧
    ∀ (normal : NormalMatrix ℝ) (jacobian : Derivative ℝ), Takes left right normal jacobian →
      ∃ started changed, normal.update jacobian = (.ok (), started) ∧
        started.performAll jacobian operations = (.ok (Operation.answers (sideBySide left right)
          ((sideBySide left right)ᵀ * sideBySide left right) operations), changed) ∧
        changed.HoldsAt rfl
          (Operation.changes ((sideBySide left right)ᵀ * sideBySide left right) operations) := by
  have symmetric := gram_isSymm (sideBySide left right)
  refine ⟨Operation.changes_isSymm symmetric operations,
    fun _ _ first_eq second_eq => first_eq.append second_eq, fun normal jacobian takes => ?_⟩
  obtain ⟨started, updated, holds, layout⟩ := takes.update
  obtain ⟨changed, performed, holds', _⟩ :=
    (takes.of_layout? layout).performAll holds symmetric operations
  exact ⟨started, changed, updated, performed, holds'⟩

noncomputable def emptyColumn : Operand ℝ := .matrix (.sparse (.empty 2 1))

noncomputable def fullColumn : Operand ℝ :=
  .matrix (.dense (.ofMatrix (Matrix.of fun _ _ => 1 : RealMatrix 2 1)))

/-- Of a left column of zeros nothing is stored: sparsely, the normal matrix lacks an entry on the
diagonal until one is set. -/
theorem operations_agree_on_empty_column :
    ∃ columns : Matrix ℝ, emptyColumn.append fullColumn = .ok columns ∧
      ∀ handed ∈ [(split (.create false), .split emptyColumn fullColumn),
          (split (.create true), .split emptyColumn fullColumn),
          (whole (.create .elimination), .whole (.matrix (columns.stored false))),
          (whole (.create .sparse), .whole (.matrix (columns.stored true)))],
        ∃ started changed : NormalMatrix ℝ, handed.1.update handed.2 = (.ok (), started) ∧
          started.performAll handed.2 ([.setDiagonal 2, .divide 2 fun _ => two_ne_zero,
            .quadraticForm 1] : List (Operation (1 + 1) 2)) =
              (.ok [.done, .done, .value 1], changed) := by
  have left_eq : emptyColumn.Represents (0 : RealMatrix 2 1) :=
    ⟨_, rfl, (SparseMatrix.holds_ofFn? _).of_entry fun _ _ => rfl⟩
  have right_eq : fullColumn.Represents (fun _ _ => 1 : RealMatrix 2 1) :=
    ⟨_, rfl, Matrix.represents_dense _⟩
  obtain ⟨_, appends, agrees⟩ := operations_agree (0 : RealMatrix 2 1) (fun _ _ => 1)
    [.setDiagonal 2, .divide 2 fun _ => two_ne_zero, .quadraticForm 1]
  obtain ⟨columns, appended, _⟩ := appends _ _ left_eq right_eq
  have answers : Operation.answers (sideBySide (0 : RealMatrix 2 1) fun _ _ => 1)
      ((sideBySide (0 : RealMatrix 2 1) fun _ _ => 1)ᵀ *
        sideBySide (0 : RealMatrix 2 1) fun _ _ => 1)
      ([.setDiagonal 2, .divide 2 fun _ => two_ne_zero, .quadraticForm 1] :
        List (Operation (1 + 1) 2)) = [.done, .done, .value 1] := by
    have halves : (2 : ℝ)⁻¹ + 2⁻¹ = 1 := by norm_num
    simp [Operation.answers, Operation.answer, Operation.change, divided, withDiagonal,
      sideBySide, dotProduct, Matrix.mulVec, Matrix.mul_apply, Fin.sum_univ_two, Fin.append,
      Fin.addCases, halves]
  rw [answers] at agrees
  refine ⟨columns, appended, fun handed member => ?_⟩
  simp only [List.mem_cons, List.not_mem_nil, or_false] at member
  have takes : Takes (0 : RealMatrix 2 1) (fun _ _ => 1 : RealMatrix 2 1) handed.1 handed.2 := by
    rcases member with rfl | rfl | rfl | rfl
    · exact ⟨left_eq, right_eq⟩
    · exact ⟨left_eq, right_eq⟩
    · exact takes_appended left_eq right_eq appended (.create .elimination)
    · exact takes_appended left_eq right_eq appended (.create .sparse)
  obtain ⟨started, changed, updated, performed, _⟩ := agrees _ _ takes
  exact ⟨started, changed, updated, performed⟩

end NormalMatrix

end DampedLeastSquares
