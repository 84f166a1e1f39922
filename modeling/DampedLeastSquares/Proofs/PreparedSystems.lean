import DampedLeastSquares.Proofs.PartialChanges

/-!
# Systems that outlive their matrix

Between one preparation and the next a matrix may be changed any number of
times, and every change may stop halfway. What is solved then is settled by what
the preparation took: factors of the whole matrix, the array itself, or factors
of the left block only, next to which the other blocks are read anew.
-/

set_option autoImplicit false

namespace DampedLeastSquares

variable {α : Type} [Scalar α]

/-! ## Numbers of factored rows -/

theorem Elimination.length_eliminate? {elimination : Elimination} {rows : List (Vec α)}
    {found : List (EliminatedRow α)} (eliminated : elimination.eliminate? rows = some found) :
    found.length = rows.length := by
  induction height : rows.length generalizing rows found with
  | zero =>
      cases List.eq_nil_of_length_eq_zero height
      simp only [eliminate?, Option.some.injEq] at eliminated
      simp [← eliminated]
  | succ height previous =>
      cases rows with
      | nil => cases height
      | cons first rows =>
          cases first with
          | nil => simp [eliminate?] at eliminated
          | cons pivot tail =>
              simp only [List.length_cons, Nat.add_right_cancel_iff] at height
              rw [eliminate?] at eliminated
              split at eliminated
              · obtain ⟨others, left, rfl⟩ := Option.map_eq_some_iff.mp eliminated
                simp [previous left (by simp [complement, height])]
              · cases eliminated

theorem Elimination.size_factor? {elimination : Elimination} {matrix : DenseMatrix α}
    {factors : TriangularFactors α} (factored : elimination.factor? matrix = some factors) :
    factors.size = matrix.height := by
  obtain ⟨rows, eliminated, rfl⟩ := Option.map_eq_some_iff.mp factored
  exact length_eliminate? eliminated

theorem DenseMatrix.size_positiveFactor? {matrix : DenseMatrix α} {factors : TriangularFactors α}
    (factored : matrix.positiveFactor? = some factors) : factors.size = matrix.height := by
  unfold positiveFactor? at factored
  split at factored
  · have same := Elimination.size_factor? factored
    simpa [mirrored] using same
  · cases factored

theorem SparseMatrix.size_positiveFactor? {matrix : SparseMatrix α} {factors : TriangularFactors α}
    (factored : matrix.positiveFactor? = .ok (some factors)) : factors.size = matrix.height := by
  unfold positiveFactor? at factored
  split at factored
  · split at factored
    · simp only [Except.ok.injEq, Option.filter_eq_some_iff] at factored
      have same := Elimination.size_factor? factored.1
      simpa [toDense] using same
    · cases factored
  · cases factored

/-! ## In one piece -/

namespace PreparedSystem

/-- What solutions are computed from, apart from the array that a matrix is held in. -/
def detached (matrix : Operand α) : PreparedSystem α → PreparedSystem α
  | current => earlier matrix
  | prepared => prepared

def isCurrent : PreparedSystem α → Bool
  | current => true
  | _ => false

end PreparedSystem

namespace WholeNormal

/-- What solutions are computed from, with the entries that it has now. -/
def basis? (normal : WholeNormal α) : Option (PreparedSystem α) :=
  normal.prepared?.map (·.detached normal.matrix)

/-- Solutions are computed from the array that the matrix is held in. -/
def sharesArray (normal : WholeNormal α) : Bool := normal.prepared?.any (·.isCurrent)

/-- Solutions stay what they were, and an array of their own is not given up. -/
structure Follows (now held : WholeNormal α) : Prop where
  method : now.method = held.method
  basis : now.basis? = held.basis?
  separate : held.sharesArray = false → now.sharesArray = false

variable {normal held now : WholeNormal α}

theorem solve_detached [Spectral α] (normal : WholeNormal α) (rhs out : Vec α) :
    ({ normal with prepared? := normal.basis? } : WholeNormal α).solve rhs out =
      normal.solve rhs out := by
  cases prepared : normal.prepared? with
  | none => simp [basis?, solve, prepared]
  | some system => cases system <;> simp [basis?, solve, prepared, PreparedSystem.detached]

theorem Follows.solve_eq [Spectral α] (follows : now.Follows held) (rhs out : Vec α) :
    now.solve rhs out = held.solve rhs out := by
  rw [← solve_detached now, ← solve_detached held, follows.basis]
  cases found : held.basis? with
  | none => rfl
  | some system =>
      obtain ⟨prepared, -, rfl⟩ := Option.map_eq_some_iff.mp found
      have same := follows.method
      cases prepared <;> simp only [solve, PreparedSystem.detached, same]

omit [Scalar α] in
theorem Follows.refl (held : WholeNormal α) : held.Follows held := ⟨rfl, rfl, id⟩

omit [Scalar α] in
theorem Follows.trans {later : WholeNormal α} (second : later.Follows now)
    (first : now.Follows held) : later.Follows held :=
  ⟨second.method.trans first.method, second.basis.trans first.basis,
    fun separate => second.separate (first.separate separate)⟩

omit [Scalar α] in
theorem replaceMatrix_follows (held : WholeNormal α) (matrix : Operand α) :
    (held.replaceMatrix matrix).Follows held := by
  cases prepared : held.prepared? with
  | none =>
      constructor <;> simp [replaceMatrix, basis?, sharesArray, prepared]
  | some system =>
      cases system <;> constructor <;>
        simp [replaceMatrix, basis?, sharesArray, prepared, PreparedSystem.detached,
          PreparedSystem.isCurrent]

omit [Scalar α] in
theorem overwritten_follows (separate : held.sharesArray = false) (matrix : Operand α) :
    ({ held with matrix := matrix } : WholeNormal α).Follows held := by
  refine ⟨rfl, ?_, fun _ => separate⟩
  cases prepared : held.prepared? with
  | none => simp [basis?, prepared]
  | some system =>
      cases system with
      | current => simp [sharesArray, prepared, PreparedSystem.isCurrent] at separate
      | factored factors => simp [basis?, prepared, PreparedSystem.detached]
      | earlier other => simp [basis?, prepared, PreparedSystem.detached]

omit [Scalar α] in
theorem sharesArray_replaceMatrix (held : WholeNormal α) (matrix : Operand α) :
    (held.replaceMatrix matrix).sharesArray = false := by
  cases prepared : held.prepared? with
  | none => simp [replaceMatrix, sharesArray, prepared]
  | some system =>
      cases system <;> simp [replaceMatrix, sharesArray, prepared, PreparedSystem.isCurrent]

theorem update_replaces {jacobian : Operand α} (updated : held.update jacobian = .ok now) :
    ∃ matrix, now = held.replaceMatrix matrix := by
  unfold update at updated
  split at updated
  · obtain ⟨columns, -, updated⟩ := of_bind updated
    obtain ⟨product, -, updated⟩ := of_bind updated
    cases updated
    exact ⟨_, rfl⟩
  · split at updated
    · cases updated
    · obtain ⟨product, -, updated⟩ := of_bind updated
      cases updated
      exact ⟨_, rfl⟩

theorem divide_replaces {scaling : Vec α} (divided : held.divide scaling = .ok now) :
    ∃ matrix, now = held.replaceMatrix matrix := by
  obtain ⟨matrix, -, divided⟩ := of_bind divided
  cases divided
  exact ⟨_, rfl⟩

/-- A system that was prepared has factors, or it is the array at hand of a least-norm method. -/
theorem of_prepare {prepared : WholeNormal α} (ready : normal.prepare = .ok (prepared, none)) :
    (∃ factors, prepared = { normal with prepared? := some (.factored factors) }) ∨
      (∃ cutoff, normal.method = .leastNorm cutoff) ∧
        prepared = { normal with prepared? := some .current } := by
  unfold prepare at ready
  cases method : normal.method with
  | unfactorable => simp [method, pure, Except.pure] at ready
  | elimination =>
      simp only [method] at ready
      split at ready
      · simp [pure, Except.pure] at ready
      · split at ready
        · simp only [pure, Except.pure, Except.ok.injEq, Prod.mk.injEq, and_true] at ready
          exact .inl ⟨_, ready.symm⟩
        · simp [pure, Except.pure] at ready
  | leastNorm cutoff =>
      simp only [method] at ready
      split at ready
      · simp only [pure, Except.pure, Except.ok.injEq, Prod.mk.injEq, and_true] at ready
        exact .inr ⟨⟨cutoff, rfl⟩, ready.symm⟩
      · simp [pure, Except.pure] at ready
  | sparse =>
      simp only [method] at ready
      obtain ⟨found, -, ready⟩ := of_bind ready
      obtain ⟨factors?, -, ready⟩ := of_bind ready
      cases factors? with
      | some factors =>
          simp only [pure, Except.pure, Except.ok.injEq, Prod.mk.injEq, and_true] at ready
          exact .inl ⟨factors, ready.symm⟩
      | none => simp [pure, Except.pure] at ready

end WholeNormal

/-! ## In blocks -/

namespace SplitNormal

variable {held prepared now : SplitNormal α} {factors : TriangularFactors α}

omit [Scalar α] in
theorem leftFactor?_changed (held : SplitNormal α)
    (plan : List (Block × Except (Fault α) (Operand α))) :
    (held.putAll plan).2.leftFactor? = held.leftFactor? := by
  induction plan generalizing held with
  | nil => rfl
  | cons item rest previous =>
      obtain ⟨block, ending⟩ := item
      cases ending with
      | error fault => rfl
      | ok found =>
          refine (previous (held.put block found)).trans ?_
          cases block <;> rfl

/-- The factors of a left block. -/
def factorsOf (asSparse : Bool) (left : Operand α) :
    Except (Fault α) (Option (TriangularFactors α)) :=
  if asSparse then left.toSparse >>= (·.positiveFactor?) else .ok left.toDense.positiveFactor?

theorem prepare_eq (held : SplitNormal α) :
    held.prepare = (factorsOf held.asSparse held.left).map fun factor? =>
      ({ held with leftFactor? := factor? },
        if factor?.isSome then none else some .leftBlock) := by
  unfold prepare factorsOf
  cases held.asSparse with
  | false => rfl
  | true =>
      cases held.left.toSparse with
      | error fault => rfl
      | ok found =>
          simp only [ok_bind, if_true]
          cases found.positiveFactor? <;> rfl

theorem size_factorsOf {asSparse : Bool} {found : Matrix α}
    (factored : factorsOf asSparse (.matrix found) = .ok (some factors)) :
    factors.size = found.height := by
  cases asSparse with
  | false =>
      have dense : found.toDense.height = found.height := by
        cases found <;> simp [Matrix.toDense, SparseMatrix.toDense, Matrix.height]
      simp only [factorsOf, Bool.false_eq_true, if_false, Except.ok.injEq] at factored
      exact (DenseMatrix.size_positiveFactor? factored).trans dense
  | true =>
      have sparse : found.toSparse.height = found.height := by cases found <;> rfl
      exact (SparseMatrix.size_positiveFactor? factored).trans sparse

/-- Preparing takes the left block and nothing else. -/
theorem of_prepare (ready : held.prepare = .ok (prepared, none)) :
    ∃ factors, factorsOf held.asSparse held.left = .ok (some factors) ∧
      prepared = { held with leftFactor? := some factors } := by
  rw [prepare_eq] at ready
  cases found : factorsOf held.asSparse held.left with
  | error fault => simp [found, Except.map] at ready
  | ok factors? =>
      cases factors? with
      | none => simp [found, Except.map] at ready
      | some factors =>
          simp only [found, Except.map, Except.ok.injEq, Prod.mk.injEq] at ready
          exact ⟨factors, rfl, ready.1.symm⟩

theorem height_replaceDiagonal {block : Operand α} {diagonal : Vec α} {found : Matrix α}
    (replaced : block.replaceDiagonal diagonal = .ok found) :
    (Operand.matrix found).height = block.height := by
  cases block with
  | array _ => cases replaced
  | matrix before =>
      have fitting := of_fit replaced
      cases before with
      | dense before =>
          cases fitting
          simp [Operand.height, Operand.shape, Matrix.shape, Matrix.height, DenseMatrix.setDiagonal,
            Fault.present]
      | sparse before =>
          obtain ⟨changed, written, rfl⟩ := Option.map_eq_some_iff.mp fitting
          unfold SparseMatrix.replaceDiagonal? at written
          obtain ⟨changes, -, written⟩ := Option.bind_eq_some_iff.mp written
          split at written
          · cases written
            simp [Operand.height, Operand.shape, Matrix.shape, Matrix.height, Fault.present]
          · cases written

theorem leftSize_setDiagonal (held : SplitNormal α) (diagonal : Operand α) :
    (held.putAll ((Change.setDiagonal diagonal).plan held)).2.leftSize = held.leftSize := by
  simp only [Change.plan]
  cases held.diagonalParts diagonal with
  | error fault => rfl
  | ok parts =>
      simp only [ok_bind]
      cases upper : held.left.replaceDiagonal parts.1 with
      | error fault => rfl
      | ok left =>
          simp only [ok_bind]
          have height := height_replaceDiagonal upper
          cases held.right.replaceDiagonal parts.2 <;> exact height

theorem solve_congr (factor : now.leftFactor? = prepared.leftFactor?)
    (size : now.leftSize = prepared.leftSize) (rhs out : Vec α) :
    now.solve rhs out =
      ({ prepared with coupling := now.coupling, right := now.right } : SplitNormal α).solve
        rhs out := by
  simp only [leftSize] at size
  simp only [solve, leftSize, rightSize, factor, size]

theorem solve_misfit (factored : now.leftFactor? = some factors) {size : Nat}
    (found : now.leftSize = .ok size) {rhs : Vec α} (long : size ≤ rhs.length)
    (other : factors.size ≠ size) (out : Vec α) : now.solve rhs out = .error .shape := by
  have short : (rhs.before size).length = size := by simp [Vec.before, cutPosition, long]
  have misfit : factors.solve? (rhs.before size) = none := by
    simp [TriangularFactors.solve?, short, other]
  simp only [solve, factored, found, ok_bind, misfit]
  rfl

end SplitNormal

/-! ## Changes one after the other -/

def Change.isDiagonal : Change α → Bool
  | setDiagonal _ => true
  | _ => false

/-- The diagonal is overwritten in the array that solutions are computed from. -/
def Change.overwrites (change : Change α) : NormalMatrix α → Bool
  | .whole held => change.isDiagonal && held.sharesArray
  | .split _ => false

namespace NormalMatrix

/-- What changes leave of a matrix, whether or not they were completed. -/
def changed (normal : NormalMatrix α) (changes : List (Change α)) : NormalMatrix α :=
  changes.foldl (fun current change => (change.run current).2) normal

/-- No change overwrites the diagonal in the array that solutions are computed from. -/
def Spared (normal : NormalMatrix α) : List (Change α) → Prop
  | [] => True
  | change :: rest => change.overwrites normal = false ∧ Spared (change.run normal).2 rest

/-- Prepare for solving, and solve for a right-hand side at once. -/
def solution [Spectral α] (normal : NormalMatrix α) (rhs out : Vec α) :
    Except (Fault α) (Vec α × Option Shortfall) := do
  match ← normal.prepare with
  | (prepared, none) => prepared.solve rhs out
  | (_, some reason) => return (out, some reason)

theorem solution_of_prepare [Spectral α] {normal prepared : NormalMatrix α}
    (ready : normal.prepare = .ok (prepared, none)) (rhs out : Vec α) :
    normal.solution rhs out = prepared.solve rhs out := by
  rw [solution, ready, ok_bind]

end NormalMatrix

namespace Change

variable {held : WholeNormal α} {change : Change α} {next : NormalMatrix α}

omit [Scalar α] in
theorem kept_of_ok {ending : Except (Fault α) (WholeNormal α)}
    (success : (NormalMatrix.whole held).kept (ending.map .whole) = (.ok (), next)) :
    ∃ now, ending = .ok now ∧ next = .whole now := by
  cases ending with
  | error _ => cases success
  | ok now => cases success; exact ⟨now, rfl, rfl⟩

theorem setDiagonal_overwrites {diagonal : Vec α}
    (success : (NormalMatrix.whole held).setDiagonal diagonal = (.ok (), next)) :
    ∃ matrix, next = .whole { held with matrix := matrix } := by
  obtain ⟨now, written, rfl⟩ := kept_of_ok success
  obtain ⟨matrix, -, written⟩ := of_bind written
  cases written
  exact ⟨_, rfl⟩

/-- Overwriting the diagonal writes to the array at hand. Any other change puts another one in its
place. -/
theorem run_whole_ok (success : change.run (.whole held) = (.ok (), next)) :
    ∃ matrix, next = .whole (if change.isDiagonal then { held with matrix := matrix }
      else held.replaceMatrix matrix) := by
  cases change with
  | update jacobian =>
      cases jacobian with
      | split left right => cases success
      | whole columns =>
          obtain ⟨now, updated, rfl⟩ := kept_of_ok success
          obtain ⟨matrix, rfl⟩ := WholeNormal.update_replaces updated
          exact ⟨matrix, rfl⟩
  | setDiagonal diagonal =>
      simp only [run, NormalMatrix.setDiagonalFrom] at success
      cases vector : diagonal.vector? with
      | some entries =>
          rw [vector] at success
          exact setDiagonal_overwrites success
      | none =>
          rw [vector] at success
          dsimp only at success
          split at success
          · cases success
          · exact setDiagonal_overwrites success
  | divide scaling =>
      simp only [run, NormalMatrix.divideBy] at success
      split at success
      · obtain ⟨now, divided, rfl⟩ := kept_of_ok success
        obtain ⟨matrix, rfl⟩ := WholeNormal.divide_replaces divided
        exact ⟨matrix, rfl⟩
      · cases success

theorem run_whole (spared : change.overwrites (.whole held) = false) :
    ∃ now, (change.run (.whole held)).2 = .whole now ∧ now.Follows held := by
  rcases ran : change.run (.whole held) with ⟨fault | _, next⟩
  · exact ⟨held, whole_keeps ran, .refl held⟩
  · obtain ⟨matrix, rfl⟩ := run_whole_ok ran
    refine ⟨_, rfl, ?_⟩
    cases diagonal : change.isDiagonal with
    | false => exact held.replaceMatrix_follows matrix
    | true =>
        simp only [overwrites, diagonal, Bool.true_and] at spared
        exact WholeNormal.overwritten_follows spared matrix

end Change

namespace NormalMatrix

variable {changes : List (Change α)}

theorem changed_whole {held : WholeNormal α} (spared : (whole held).Spared changes) :
    ∃ now, (whole held).changed changes = whole now ∧ now.Follows held := by
  induction changes generalizing held with
  | nil => exact ⟨held, rfl, .refl held⟩
  | cons change rest previous =>
      obtain ⟨next, ran, first⟩ := Change.run_whole spared.1
      have left := spared.2
      rw [ran] at left
      obtain ⟨now, ended, second⟩ := previous left
      refine ⟨now, ?_, second.trans first⟩
      simpa only [changed, List.foldl_cons, ran] using ended

/-- An array apart from the matrix is never overwritten. -/
theorem spared_of_separate {held : WholeNormal α} (separate : held.sharesArray = false) :
    (whole held).Spared changes := by
  induction changes generalizing held with
  | nil => trivial
  | cons change rest previous =>
      have spared : change.overwrites (whole held) = false := by
        simp [Change.overwrites, separate]
      obtain ⟨next, ran, follows⟩ := Change.run_whole spared
      refine ⟨spared, ?_⟩
      rw [ran]
      exact previous (follows.separate separate)

/-- Once the matrix was replaced, the array that was prepared is left alone. -/
theorem spared_of_replaced {held : WholeNormal α} {change : Change α} {next : NormalMatrix α}
    (other : change.isDiagonal = false) (success : change.run (whole held) = (.ok (), next)) :
    (whole held).Spared (change :: changes) := by
  obtain ⟨matrix, rfl⟩ := Change.run_whole_ok success
  refine ⟨by simp [Change.overwrites, other], ?_⟩
  rw [success, if_neg (by simp [other])]
  exact spared_of_separate (held.sharesArray_replaceMatrix matrix)

theorem changed_split (held : SplitNormal α) (changes : List (Change α)) :
    ∃ now, (split held).changed changes = split now ∧ now.leftFactor? = held.leftFactor? := by
  induction changes generalizing held with
  | nil => exact ⟨held, rfl, rfl⟩
  | cons change rest previous =>
      obtain ⟨now, ended, kept⟩ := previous (held.putAll (change.plan held)).2
      refine ⟨now, ?_, kept.trans (held.leftFactor?_changed _)⟩
      simpa only [changed, List.foldl_cons, Change.run_split] using ended

variable [Spectral α] {normal prepared : NormalMatrix α}

theorem solve_whole {held : WholeNormal α} (ready : (whole held).prepare = .ok (prepared, none))
    (spared : (∀ cutoff, held.method ≠ .leastNorm cutoff) ∨ prepared.Spared changes)
    (rhs out : Vec α) :
    (prepared.changed changes).solve rhs out = (whole held).solution rhs out := by
  rw [solution_of_prepare ready]
  simp only [prepare] at ready
  cases found : held.prepare with
  | error fault => simp [found, Except.map] at ready
  | ok result =>
      obtain ⟨system, reason⟩ := result
      simp only [found, Except.map, Except.ok.injEq, Prod.mk.injEq] at ready
      obtain ⟨rfl, rfl⟩ := ready
      have safe : (whole system).Spared changes := by
        rcases spared with other | safe
        · obtain ⟨factors, rfl⟩ | ⟨⟨cutoff, least⟩, -⟩ := WholeNormal.of_prepare found
          · exact spared_of_separate rfl
          · exact absurd least (other cutoff)
        · exact safe
      obtain ⟨now, ended, follows⟩ := changed_whole safe
      rw [ended]
      exact follows.solve_eq rhs out

theorem solve_split {held : SplitNormal α} (ready : (split held).prepare = .ok (prepared, none))
    (changes : List (Change α)) (rhs out : Vec α) :
    ∃ now, prepared.changed changes = split now ∧
      (now.leftSize = held.leftSize → (prepared.changed changes).solve rhs out =
        (split { held with coupling := now.coupling, right := now.right }).solution rhs out) ∧
      ∀ found size, held.left = .matrix found → now.leftSize = .ok size → size ≠ found.height →
        size ≤ rhs.length → (prepared.changed changes).solve rhs out = .error .shape := by
  simp only [prepare] at ready
  cases found : held.prepare with
  | error fault => simp [found, Except.map] at ready
  | ok result =>
      obtain ⟨system, reason⟩ := result
      simp only [found, Except.map, Except.ok.injEq, Prod.mk.injEq] at ready
      obtain ⟨rfl, rfl⟩ := ready
      obtain ⟨factors, factored, rfl⟩ := SplitNormal.of_prepare found
      obtain ⟨now, ended, kept⟩ := changed_split { held with leftFactor? := some factors } changes
      refine ⟨now, ended, ?_, ?_⟩
      · intro same
        have mixed : (split { held with coupling := now.coupling, right := now.right }).prepare =
            .ok (split { held with
              coupling := now.coupling
              right := now.right
              leftFactor? := some factors }, none) := by
          simp only [prepare, SplitNormal.prepare_eq, factored]
          rfl
        rw [ended, solution_of_prepare mixed]
        exact SplitNormal.solve_congr kept same rhs out
      · intro found size left height other long
        rw [left] at factored
        rw [ended]
        refine SplitNormal.solve_misfit kept height long ?_ out
        rw [SplitNormal.size_factorsOf factored]
        exact Ne.symm other

/-- Between one preparation and the next, what is solved for does not depend on the changes that
are made to a matrix in one piece, unless its solutions are computed from the array that it is held
in and this array's diagonal is overwritten. Of a matrix in blocks the left one counts as it was
when it was prepared, and the others as they are when the system is solved. -/
theorem solve_changed (ready : normal.prepare = .ok (prepared, none))
    (changes : List (Change α)) (rhs out : Vec α) :
    (∀ held, normal = whole held →
      ((∀ cutoff, held.method ≠ .leastNorm cutoff) ∨ prepared.Spared changes) →
        (prepared.changed changes).solve rhs out = normal.solution rhs out) ∧
    ∀ held, normal = split held → ∃ now, prepared.changed changes = split now ∧
      (now.leftSize = held.leftSize → (prepared.changed changes).solve rhs out =
        (split { held with coupling := now.coupling, right := now.right }).solution rhs out) ∧
      ∀ found size, held.left = .matrix found → now.leftSize = .ok size → size ≠ found.height →
        size ≤ rhs.length → (prepared.changed changes).solve rhs out = .error .shape := by
  constructor
  · rintro held rfl spared
    exact solve_whole ready spared rhs out
  · rintro held rfl
    exact solve_split ready changes rhs out

/-- One left unknown and one right one, which are not coupled. -/
def separateBlocks : SplitNormal Float where
  asSparse := false
  left := .matrix (.dense (.ofFn 1 1 fun _ _ => 1.0))
  coupling := .matrix (.dense (.ofFn 1 1 fun _ _ => 0.0))
  right := .matrix (.dense (.ofFn 1 1 fun _ _ => 1.0))
  leftFactor? := none

def preparedBlocks : SplitNormal Float :=
  { separateBlocks with leftFactor? := separateBlocks.left.toDense.positiveFactor? }

theorem separateBlocks_prepare :
    (split separateBlocks).prepare = .ok (split preparedBlocks, none) := by
  have positive : separateBlocks.left.toDense.positiveFactor?.isSome = true := by decide +kernel
  have prepared : (split separateBlocks).prepare = .ok (split preparedBlocks,
      if separateBlocks.left.toDense.positiveFactor?.isSome then none else some .leftBlock) := rfl
  rw [prepared, if_pos positive]

/-- One unknown, solved for by least norm from the array that the matrix is held in. -/
def sharedArray : WholeNormal Float where
  method := .leastNorm Method.standardCutoff
  matrix := .matrix (.dense (.ofFn 1 1 fun _ _ => 1.0))
  prepared? := some .current

theorem sharedArray_prepare :
    (whole sharedArray).prepare = .ok (whole sharedArray, none) := by
  have finite : sharedArray.matrix.allFinite = true := by decide +kernel
  have prepared : (whole sharedArray).prepare =
      ((if sharedArray.matrix.allFinite then pure (sharedArray, none)
        else pure ({ sharedArray with prepared? := none }, some .notFinite)) :
          Except (Fault Float) (WholeNormal Float × Option Shortfall)).map
        fun (now, reason) => (whole now, reason) := rfl
  rw [prepared, if_pos finite]
  rfl

/-- Divided first, the array is left to the solutions, and the diagonal is overwritten elsewhere. -/
theorem solve_changed_apart :
    ((whole sharedArray).changed
        [.divide (.ofVec [2.0]), .setDiagonal (.ofVec [4.0])]).solve [1.0] [0.0] =
      (whole sharedArray).solution [1.0] [0.0] ∧
    ∃ now, (split preparedBlocks).changed [.setDiagonal (.ofVec [1.0, 4.0])] = split now ∧
      ((split preparedBlocks).changed [.setDiagonal (.ofVec [1.0, 4.0])]).solve
          [1.0, 2.0] [0.0, 0.0] =
        (split { separateBlocks with coupling := now.coupling, right := now.right }).solution
          [1.0, 2.0] [0.0, 0.0] := by
  constructor
  · have divided : ((Change.divide (.ofVec [2.0])).run (whole sharedArray)).1.isOk = true := by
      decide +kernel
    rcases ran : (Change.divide (.ofVec [2.0])).run (whole sharedArray) with ⟨fault | _, next⟩
    · rw [ran] at divided
      cases divided
    · exact (solve_changed sharedArray_prepare _ _ _).1 _ rfl (.inr (spared_of_replaced rfl ran))
  · obtain ⟨now, ended, solved, -⟩ :=
      (solve_changed separateBlocks_prepare [.setDiagonal (.ofVec [1.0, 4.0])]
        [1.0, 2.0] [0.0, 0.0]).2 _ rfl
    refine ⟨now, ended, solved ?_⟩
    simp only [changed, List.foldl_cons, List.foldl_nil, Change.run_split, split.injEq] at ended
    rw [← ended]
    exact preparedBlocks.leftSize_setDiagonal _

/-- The right block that is eliminated last is the one at hand, not the one that was there when the
system was prepared. -/
theorem solve_reads_right_block :
    ¬ ∀ (normal prepared : NormalMatrix Float) (changes : List (Change Float))
        (rhs out : Vec Float), normal.prepare = .ok (prepared, none) →
      (prepared.changed changes).solve rhs out = normal.solution rhs out := by
  intro unaffected
  have same := unaffected _ _ [.setDiagonal (.ofVec [1.0, 4.0])] [1.0, 2.0] [0.0, 0.0]
    separateBlocks_prepare
  have lower :
      ((((split preparedBlocks).changed [.setDiagonal (.ofVec [1.0, 4.0])]).solve
        [1.0, 2.0] [0.0, 0.0]).map fun result => result.1.getD 1 0.0).toOption.getD 0.0 <
      (((split separateBlocks).solution
        [1.0, 2.0] [0.0, 0.0]).map fun result => result.1.getD 1 0.0).toOption.getD 0.0 := by
    decide +kernel
  rw [same] at lower
  exact irrefl _ lower

end NormalMatrix

end DampedLeastSquares
