import DampedLeastSquares.NormalMatrix
import DampedLeastSquares.Proofs.Exact.CheckedArrays
import DampedLeastSquares.Proofs.Faults

/-!
# Systems of numbers

Elimination divides by roots of pivots and by pivots, and it goes on only as long as these are
greater than zero. So factors solve what they are asked for without a division by zero, and normal
matrices that are solved by elimination stay matrices of numbers under all their operations.
-/

set_option autoImplicit false

namespace DampedLeastSquares

open Checked

/-! ## Endings -/

section Endings

variable {α β γ : Type}

/-- The computation ends in a value that is good, or in a fault that is no division by zero. -/
def Yields (good : β → Prop) : Except (Fault α) β → Prop
  | .ok value => good value
  | .error fault => fault ≠ .divisionByZero

variable {good : β → Prop} {result : Except (Fault α) β}

theorem Yields.of_ok {value : β} (yields : Yields good result) (ended : result = .ok value) :
    good value := by
  subst ended
  exact yields

theorem Yields.of_error {fault : Fault α} (yields : Yields good result)
    (ended : result = .error fault) : fault ≠ .divisionByZero := by
  subst ended
  exact yields

theorem Yields.mono (yields : Yields good result) {better : β → Prop}
    (weaken : ∀ value, good value → better value) : Yields better result := by
  cases result with
  | error fault => exact yields
  | ok value => exact weaken value yields

theorem Yields.bind {first : Except (Fault α) γ} {middle : γ → Prop}
    {next : γ → Except (Fault α) β} (start : Yields middle first)
    (rest : ∀ value, middle value → Yields good (next value)) : Yields good (first >>= next) := by
  cases first with
  | error fault => exact start
  | ok value => exact rest value start

theorem Yields.map {first : Except (Fault α) γ} {middle : γ → Prop} (start : Yields middle first)
    {function : γ → β} (total : ∀ value, middle value → good (function value)) :
    Yields good (first.map function) := by
  cases first with
  | error fault => exact start
  | ok value => exact total value start

theorem yields_fit {found? : Option β} (total : ∀ value, found? = some value → good value) :
    Yields good (Fault.fit found? : Except (Fault α) β) := by
  cases found? with
  | none => exact nofun
  | some value => exact total value rfl

theorem yields_fit_bind {found? : Option γ} {middle : γ → Prop}
    {next : γ → Except (Fault α) β} (total : ∀ value, found? = some value → middle value)
    (rest : ∀ value, middle value → Yields good (next value)) :
    Yields good (Fault.fit found? >>= next) :=
  (yields_fit total).bind rest

theorem yields_fit_map {found? : Option γ} {function : γ → β}
    (total : ∀ value, found? = some value → good (function value)) :
    Yields good (Fault.fit (found?.map function) : Except (Fault α) β) := by
  cases found? with
  | none => exact nofun
  | some value => exact total value rfl

theorem yields_present (found? : Option β) :
    Yields (fun _ => True) (Fault.present found? : Except (Fault α) β) := by
  cases found? with
  | none => exact nofun
  | some value => exact trivial

end Endings

/-! ## Operands -/

/-- All entries are numbers. -/
def Tensor.Defined (tensor : Tensor Checked) : Prop := Vec.Defined tensor.data

theorem Tensor.Defined.chunks {entries : List Checked} (defined : Vec.Defined entries)
    (count size : Nat) : ∀ chunk ∈ Tensor.chunks count size entries, Vec.Defined chunk := by
  intro chunk member entry inside
  obtain ⟨index, -, rfl⟩ := List.mem_map.mp member
  exact defined entry (List.mem_of_mem_drop (List.mem_of_mem_take inside))

theorem Tensor.Defined.slices {tensor : Tensor Checked} (defined : tensor.Defined) :
    ∀ slice ∈ tensor.slices, Vec.Defined slice := by
  unfold Tensor.slices
  split
  · intro slice inside
    rw [List.mem_singleton.mp inside]
    exact defined
  · exact Tensor.Defined.chunks defined _ _

namespace Operand

/-- All stored entries are numbers. -/
def Defined : Operand Checked → Prop
  | matrix found => found.Defined
  | array found => found.Defined

variable {left right operand : Operand Checked} {vector : Vec Checked}

theorem defined_ofVec (defined : vector.Defined) : (ofVec vector).Defined := defined

theorem defined_ofTensor {tensor : Tensor Checked} (defined : tensor.Defined) :
    (ofTensor tensor).Defined := by
  unfold ofTensor
  split
  · next height width _ =>
      split
      · next found made =>
          unfold DenseMatrix.ofRows? at made
          split at made
          · cases made
            exact Tensor.Defined.chunks defined height width
          · cases made
      · exact defined
  · exact defined

theorem Defined.toTensor (defined : operand.Defined) : operand.toTensor.Defined := by
  cases operand with
  | matrix found => exact (Matrix.Defined.toDense defined).entries
  | array found => exact defined

theorem Defined.toDense (defined : operand.Defined) : operand.toDense.Defined := by
  cases operand with
  | matrix found => exact Matrix.Defined.toDense defined
  | array found => exact DenseMatrix.defined_rowMatrix defined

theorem Defined.toSparse (defined : operand.Defined) :
    Yields SparseMatrix.Defined operand.toSparse := by
  cases operand with
  | matrix found => exact Matrix.Defined.toSparse defined
  | array found =>
      unfold Operand.toSparse
      dsimp only
      split
      · exact SparseMatrix.defined_ofDense (DenseMatrix.defined_rowMatrix defined)
      · exact nofun

theorem yields_height (operand : Operand Checked) : Yields (fun _ => True) operand.height :=
  yields_present _

theorem Defined.axial (defined : operand.Defined) : Yields Defined operand.axial := by
  unfold Operand.axial
  split
  · exact nofun
  · exact defined

theorem yields_width (operand : Operand Checked) : Yields (fun _ => True) operand.width := by
  have axial : Yields (fun _ => True) operand.axial := by
    unfold Operand.axial
    split
    · exact nofun
    · exact trivial
  exact axial.bind fun found _ => yields_present _

theorem Defined.product (first : left.Defined) (second : right.Defined) :
    Yields Defined (left.product right) := by
  unfold Operand.product
  split
  · exact yields_fit_map fun product made => Matrix.Defined.transposeMul? first second made
  · split
    · exact yields_fit_map fun product made => Matrix.Defined.transposeMulVec? first second made
    · exact nofun
  · split
    · exact yields_fit_map fun product made => Matrix.Defined.transposeMulVec? second first made
    · exact nofun
  · split
    · refine yields_fit_map fun value made => ?_
      exact Vec.defined_cons.mpr ⟨Vec.Defined.dot? first second made, Vec.defined_nil⟩
    · exact nofun

theorem Defined.transposeMul (first : left.Defined) (second : right.Defined) :
    Yields Defined (left.transposeMul right) := by
  refine first.axial.bind fun axial axialDefined => ?_
  refine (axialDefined.product second).bind fun product productDefined => ?_
  split
  · exact productDefined
  · exact productDefined

theorem Defined.apply (defined : operand.Defined) (vectorDefined : vector.Defined) :
    Yields Vec.Defined (operand.apply vector) := by
  unfold Operand.apply
  split
  · exact yields_fit fun product made => Matrix.Defined.mulVec? defined vectorDefined made
  · split
    · refine yields_fit fun product made => ?_
      exact (DenseMatrix.defined_rowMatrix defined).mulVec? vectorDefined made
    · exact nofun

theorem Defined.innerProduct (defined : operand.Defined) {first second : Vec Checked}
    (firstDefined : first.Defined) (secondDefined : second.Defined) :
    Yields Checked.Defined (Operand.innerProduct first operand second) :=
  (defined.apply secondDefined).bind fun _ product =>
    yields_fit fun _ made => firstDefined.dot? product made

theorem Defined.diagonal (defined : operand.Defined) : Yields Vec.Defined operand.diagonal := by
  refine yields_fit fun diagonal made => ?_
  obtain ⟨matrix, found, rfl⟩ := Option.map_eq_some_iff.mp made
  cases operand with
  | array _ => cases found
  | matrix _ =>
      cases found
      exact Matrix.Defined.diagonal defined

theorem Defined.divide (defined : operand.Defined) {rowDivisors columnDivisors : Vec Checked}
    (rows : rowDivisors.Positive) (columns : columnDivisors.Positive) :
    Yields Matrix.Defined (operand.divide rowDivisors columnDivisors) := by
  unfold Operand.divide
  split
  · exact yields_fit fun divided made => Matrix.Defined.divide? defined rows columns made
  · split
    · refine yields_fit_map fun dense made => ?_
      exact (DenseMatrix.defined_rowMatrix defined).divide? rows columns made
    · exact nofun

theorem Defined.replaceDiagonal (defined : operand.Defined) (vectorDefined : vector.Defined) :
    Yields Matrix.Defined (operand.replaceDiagonal vector) := by
  refine yields_fit fun replaced made => ?_
  obtain ⟨matrix, found, made⟩ := Option.bind_eq_some_iff.mp made
  cases operand with
  | array _ => cases found
  | matrix _ =>
      cases found
      exact Matrix.Defined.replaceDiagonal? defined vectorDefined made

end Operand

/-! ## Factors -/

/-- Both diagonal entries, which solving divides by, are greater than zero. -/
structure EliminatedRow.Defined (row : EliminatedRow Checked) : Prop where
  lower : 0.0 < row.lower
  upper : 0.0 < row.upper
  right : row.right.Defined
  below : row.below.Defined

namespace Elimination

variable (elimination : Elimination) {right below vector : Vec Checked}

theorem defined_remove {value entry other : Checked} (valueDefined : value.Defined)
    (entryDefined : entry.Defined) (otherDefined : other.Defined) :
    (elimination.remove value entry other).Defined := by
  have difference : (value - entry * other).Defined :=
    defined_sub.mpr ⟨valueDefined, defined_mul.mpr ⟨entryDefined, otherDefined⟩⟩
  cases elimination with
  | evenly => exact difference
  | sparsely =>
      unfold remove
      dsimp only
      split
      · exact valueDefined
      · exact difference

theorem defined_complement {rows : List (Vec Checked)} (rightDefined : right.Defined)
    (belowDefined : below.Defined) (rowsDefined : ∀ row ∈ rows, Vec.Defined row) :
    ∀ row ∈ elimination.complement right below rows, Vec.Defined row := by
  refine Vec.forall_mem_zipWith fun entry entryInside row rowInside => ?_
  refine Vec.forall_mem_zipWith fun value valueInside above aboveInside => ?_
  exact elimination.defined_remove
    (Vec.Defined.tail (rowsDefined row rowInside) value valueInside)
    (belowDefined entry entryInside) (rightDefined above aboveInside)

theorem pos_diagonals {pivot : Checked} (positive : 0.0 < pivot) :
    0.0 < (elimination.diagonals pivot).1 ∧ 0.0 < (elimination.diagonals pivot).2 := by
  cases elimination with
  | evenly => exact ⟨pos_sqrt positive, pos_sqrt positive⟩
  | sparsely => exact ⟨pos_iff.mpr ⟨1, one_pos, literal_one⟩, positive⟩

theorem eliminate?_cons {pivot : Checked} (positive : 0.0 < pivot) (tail : Vec Checked)
    (rows : List (Vec Checked)) :
    elimination.eliminate? ((pivot :: tail) :: rows) =
      (elimination.eliminate? (elimination.complement
        (tail.map (· / (elimination.diagonals pivot).1))
        (rows.map fun row => row.headD 0.0 / (elimination.diagonals pivot).2) rows)).map
      (⟨(elimination.diagonals pivot).1, (elimination.diagonals pivot).2,
        tail.map (· / (elimination.diagonals pivot).1),
        rows.map fun row => row.headD 0.0 / (elimination.diagonals pivot).2⟩ :: ·) := by
  rw [eliminate?, if_pos positive]

theorem defined_below {rows : List (Vec Checked)} (defined : ∀ row ∈ rows, Vec.Defined row)
    {upper : Checked} (positive : 0.0 < upper) :
    Vec.Defined (rows.map fun row => row.headD 0.0 / upper) := by
  intro entry member
  obtain ⟨row, inside, rfl⟩ := List.mem_map.mp member
  refine Checked.Defined.div_pos ?_ positive
  rw [List.headD_eq_head?_getD]
  cases first : row.head? with
  | none => exact defined_literal _ _ _
  | some entry => exact defined row inside entry (List.mem_of_head? first)

/-- Elimination divides by the entries that a positive pivot is divided into, which are positive. -/
theorem defined_eliminate? {rows : List (Vec Checked)} {eliminated : List (EliminatedRow Checked)}
    (defined : ∀ row ∈ rows, Vec.Defined row)
    (found : elimination.eliminate? rows = some eliminated) :
    ∀ row ∈ eliminated, row.Defined := by
  -- the remaining rows are at most as many as those below the pivot's
  induction size : rows.length using Nat.strong_induction_on generalizing rows eliminated with
  | _ size previous =>
      subst size
      cases rows with
      | nil =>
          rw [eliminate?] at found
          cases found
          simp
      | cons first rows =>
          cases first with
          | nil =>
              rw [eliminate?] at found
              cases found
          | cons pivot tail =>
              by_cases positive : 0.0 < pivot
              · rw [List.forall_mem_cons, Vec.defined_cons] at defined
                rw [elimination.eliminate?_cons positive] at found
                obtain ⟨later, made, rfl⟩ := Option.map_eq_some_iff.mp found
                have diagonals := elimination.pos_diagonals positive
                have right := Vec.Defined.map defined.1.2 fun entry entryDefined =>
                  entryDefined.div_pos diagonals.1
                have below := defined_below defined.2 diagonals.2
                rw [List.forall_mem_cons]
                refine ⟨⟨diagonals.1, diagonals.2, right, below⟩, ?_⟩
                refine previous _ ?_ (elimination.defined_complement right below defined.2) made rfl
                exact Nat.lt_succ_of_le (elimination.length_complement_le _ _ rows)
              · rw [eliminate?, if_neg positive] at found
                cases found

theorem defined_solve {rows : List (EliminatedRow Checked)}
    (defined : ∀ row ∈ rows, row.Defined) (vectorDefined : vector.Defined) :
    Vec.Defined (elimination.solve rows vector) := by
  induction rows generalizing vector with
  | nil => simp [solve]
  | cons row rows previous =>
      cases vector with
      | nil => simp [solve]
      | cons first rest =>
          rw [List.forall_mem_cons] at defined
          rw [Vec.defined_cons] at vectorDefined
          have head := vectorDefined.1.div_pos defined.1.lower
          have reduced : Vec.Defined (List.zipWith
              (fun value entry => elimination.remove value entry (first / row.lower))
              rest row.below) :=
            Vec.forall_mem_zipWith fun value valueInside entry entryInside =>
              elimination.defined_remove (vectorDefined.2 value valueInside)
                (defined.1.below entry entryInside) head
          have tail := previous defined.2 reduced
          simp only [solve, Vec.defined_cons]
          refine ⟨Defined.div_pos ?_ defined.1.upper, tail⟩
          -- the fold removes the share of one known unknown after the other
          refine List.foldrRecOn _ _ head fun value valueDefined item inside => ?_
          have parts := List.of_mem_zip inside
          exact elimination.defined_remove valueDefined (defined.1.right _ parts.1)
            (tail _ parts.2)

end Elimination

namespace TriangularFactors

def Defined (factors : TriangularFactors Checked) : Prop := ∀ row ∈ factors.rows, row.Defined

variable {factors : TriangularFactors Checked} {vector : Vec Checked}

theorem Defined.solve? (defined : factors.Defined) (vectorDefined : vector.Defined)
    {solution : Vec Checked} (found : factors.solve? vector = some solution) :
    solution.Defined := by
  unfold TriangularFactors.solve? at found
  split at found
  · cases found
    exact factors.elimination.defined_solve defined vectorDefined
  · cases found

theorem Defined.solveColumns? (defined : factors.Defined) {matrix solution : DenseMatrix Checked}
    (matrixDefined : matrix.Defined) (found : factors.solveColumns? matrix = some solution) :
    solution.Defined := by
  unfold TriangularFactors.solveColumns? at found
  split at found
  · cases found
    refine DenseMatrix.defined_ofColumns fun column member => ?_
    obtain ⟨rhs, inside, rfl⟩ := List.mem_map.mp member
    exact factors.elimination.defined_solve defined (matrixDefined.columns rhs inside)
  · cases found

theorem defined_factor? {elimination : Elimination} {matrix : DenseMatrix Checked}
    (defined : matrix.Defined) (found : elimination.factor? matrix = some factors) :
    factors.Defined := by
  obtain ⟨rows, eliminated, rfl⟩ := Option.map_eq_some_iff.mp found
  exact elimination.defined_eliminate? defined eliminated

end TriangularFactors

theorem DenseMatrix.Defined.positiveFactor? {matrix : DenseMatrix Checked}
    (defined : matrix.Defined) {factors : TriangularFactors Checked}
    (found : matrix.positiveFactor? = some factors) : factors.Defined := by
  unfold DenseMatrix.positiveFactor? at found
  split at found
  · exact TriangularFactors.defined_factor? defined.mirrored found
  · cases found

theorem SparseMatrix.Defined.positiveFactor? {matrix : SparseMatrix Checked}
    (defined : matrix.Defined) :
    Yields (fun found? => ∀ factors, found? = some factors → factors.Defined)
      matrix.positiveFactor? := by
  unfold SparseMatrix.positiveFactor?
  split
  · split
    · intro factors kept
      have found := (Option.filter_eq_some_iff.mp kept).1
      exact TriangularFactors.defined_factor? defined.toDense found
    · exact nofun
  · exact nofun

end DampedLeastSquares
