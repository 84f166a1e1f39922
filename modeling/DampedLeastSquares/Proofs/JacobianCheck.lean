import Mathlib
import DampedLeastSquares.Difference.Check
import DampedLeastSquares.Proofs.DifferenceCalls
import DampedLeastSquares.Proofs.Exact.Extended
import DampedLeastSquares.Proofs.Exact.Sparse

/-!
# What a checked Jacobian passes

A Jacobian whose shape is not that of the one by forward differences is refused. Otherwise
it passes exactly if every entry does. In absolute terms an entry passes within the
tolerance, and an undefined one never does. In relative terms an undefined entry passes, on
either side: the quotient that would be undefined is replaced by zero.
-/

set_option autoImplicit false

namespace DampedLeastSquares

namespace Difference

/-! ## Entries -/

section Entries

variable {relative : Bool} {tolerance found expected : Extended} {x y : ℝ}

/-- The entries are numbers within the tolerance. In relative terms they are real numbers, and an
infinite tolerance admits all of these. -/
def Close (relative : Bool) (tolerance found expected : Extended) : Prop :=
  found ≠ .undefined ∧ expected ≠ .undefined ∧
    if relative then ∃ x y : ℝ, found = .finite x ∧ expected = .finite y ∧
      ∀ bound, tolerance = .finite bound → |x - y| ≤ bound * max |x| |y|
    else Scalar.abs (found - expected) ≤ tolerance

/-- An entry passes if it is close. In relative terms it passes as well if it is undefined. -/
def Passes (relative : Bool) (tolerance found expected : Extended) : Prop :=
  Close relative tolerance found expected ∨
    relative = true ∧ (found = .undefined ∨ expected = .undefined)

theorem deviation_finite : deviation true (Extended.finite x) (.finite y) =
    .finite (|x - y| / max |x| |y|) := by
  unfold deviation
  rw [if_pos rfl, Extended.abs_finite, Extended.abs_finite, Extended.larger_finite,
    Extended.sub_finite, Extended.abs_finite, Extended.literal_zero]
  dsimp only
  split
  · next positive => exact Extended.div_finite (Extended.finite_lt_finite.mp positive).ne'
  · next level =>
      have most : max |x| |y| ≤ 0 := not_lt.mp (mt Extended.finite_lt_finite.mpr level)
      rw [most.antisymm (le_max_of_le_left (abs_nonneg x)), div_zero]

theorem deviation_undefined (undefined : found = .undefined ∨ expected = .undefined) :
    deviation true found expected = .finite 0 := by
  have size : Scalar.larger (Scalar.abs found) (Scalar.abs expected) = .undefined :=
    Extended.larger_undefined (undefined.imp Extended.abs_eq_undefined.mpr
      Extended.abs_eq_undefined.mpr)
  unfold deviation
  rw [if_pos rfl, size, if_neg Extended.not_lt_undefined, Extended.literal_zero]

theorem deviation_infinite {negative : Bool}
    (infinite : found = .infinite negative ∨ expected = .infinite negative)
    (defined : found ≠ .undefined) (defined' : expected ≠ .undefined) :
    deviation true found expected = .undefined := by
  unfold deviation
  rw [if_pos rfl, Extended.larger_abs_infinite infinite defined defined', Extended.literal_zero,
    if_pos Extended.finite_lt_infinite]
  exact (Extended.abs_sub_unbounded infinite).div_infinite

theorem share_le_iff (nonnegative : Extended.finite 0 ≤ tolerance) :
    Extended.finite (|x - y| / max |x| |y|) ≤ tolerance ↔
      ∀ bound, tolerance = .finite bound → |x - y| ≤ bound * max |x| |y| := by
  cases tolerance with
  | undefined => exact (Extended.not_le_undefined nonnegative).elim
  | infinite negative =>
      cases negative with
      | true => exact (Extended.not_finite_le_infinite nonnegative).elim
      | false => exact ⟨fun _ => nofun, fun _ => Extended.finite_le_infinite⟩
  | finite bound =>
      have positive := Extended.finite_le_finite.mp nonnegative
      rw [Extended.finite_le_finite]
      simp only [Extended.finite.injEq, forall_eq']
      obtain level | above := (le_max_of_le_left (abs_nonneg x) : 0 ≤ max |x| |y|).eq_or_lt
      · have zero : |x| ≤ 0 ∧ |y| ≤ 0 := max_le_iff.mp level.ge
        rw [abs_nonpos_iff, abs_nonpos_iff] at zero
        obtain ⟨rfl, rfl⟩ := zero
        simpa using positive
      · exact div_le_iff₀ above

theorem deviation_le_iff (nonnegative : Extended.finite 0 ≤ tolerance) :
    deviation relative found expected ≤ tolerance ↔ Passes relative tolerance found expected := by
  by_cases undefined : found = .undefined ∨ expected = .undefined
  · cases relative with
    | true =>
        rw [deviation_undefined undefined]
        exact ⟨fun _ => .inr ⟨rfl, undefined⟩, fun _ => nonnegative⟩
    | false =>
        have apart : deviation false found expected = .undefined :=
          Extended.abs_eq_undefined.mpr (Extended.sub_undefined undefined)
        rw [apart]
        refine ⟨fun within => (Extended.not_undefined_le within).elim, ?_⟩
        rintro (⟨defined, defined', _⟩ | ⟨relative, _⟩)
        · exact (undefined.elim defined defined').elim
        · cases relative
  · obtain ⟨defined, defined'⟩ := not_or.mp undefined
    cases relative with
    | false =>
        refine ⟨fun within => .inl ⟨defined, defined', within⟩, ?_⟩
        rintro (⟨_, _, within⟩ | ⟨relative, _⟩)
        · exact within
        · cases relative
    | true =>
        have beyond {negative : Bool}
            (infinite : found = .infinite negative ∨ expected = .infinite negative) :
            deviation true found expected ≤ tolerance ↔ Passes true tolerance found expected := by
          rw [deviation_infinite infinite defined defined']
          refine ⟨fun within => (Extended.not_undefined_le within).elim, ?_⟩
          rintro (⟨_, _, x, y, rfl, rfl, _⟩ | ⟨_, none⟩)
          · obtain infinite | infinite := infinite <;> cases infinite
          · exact (undefined none).elim
        cases found with
        | undefined => exact (defined rfl).elim
        | infinite negative => exact beyond (.inl rfl)
        | finite x =>
            cases expected with
            | undefined => exact (defined' rfl).elim
            | infinite negative => exact beyond (.inr rfl)
            | finite y =>
                rw [deviation_finite, share_le_iff nonnegative]
                refine ⟨fun within => .inl ⟨defined, defined', x, y, rfl, rfl, within⟩, ?_⟩
                rintro (⟨_, _, _, _, ⟨⟩, ⟨⟩, within⟩ | ⟨_, none⟩)
                · exact within
                · exact (undefined none).elim

end Entries

/-! ## The worst entry -/

section Worst

variable {relative : Bool} {tolerance : Extended}

/-- The deviation of a pair of entries is within the tolerance. -/
def Within (relative : Bool) (tolerance : Extended) (pair : EntryPair Extended) : Prop :=
  deviation relative pair.found pair.expected ≤ tolerance

theorem worsePair_within (first second : EntryPair Extended) :
    Within relative tolerance (worsePair relative first second) ↔
      Within relative tolerance first ∧ Within relative tolerance second := by
  unfold worsePair Within
  dsimp only
  split
  · next undefined =>
      rw [Extended.isNaN_iff.mp undefined]
      exact ⟨fun within => (Extended.not_undefined_le within).elim, And.left⟩
  · next defined =>
      rw [Extended.isNaN_iff] at defined
      split
      · next worse =>
          refine ⟨fun within => ⟨?_, within⟩, And.right⟩
          obtain undefined | below := worse
          · rw [Extended.isNaN_iff.mp undefined] at within
            exact (Extended.not_undefined_le within).elim
          · exact Extended.le_trans (Extended.le_of_lt below) within
      · next better =>
          obtain ⟨defined', level⟩ := not_or.mp better
          rw [Extended.isNaN_iff] at defined'
          exact ⟨fun within => ⟨within,
            Extended.le_trans (Extended.le_of_not_lt defined defined' level) within⟩,
            And.left⟩

theorem foldl_worsePair_within (first : EntryPair Extended) (rest : List (EntryPair Extended)) :
    Within relative tolerance (rest.foldl (worsePair relative) first) ↔
      Within relative tolerance first ∧ ∀ pair ∈ rest, Within relative tolerance pair := by
  induction rest generalizing first with
  | nil => simp
  | cons second rest previous =>
      rw [List.foldl_cons, previous, worsePair_within, List.forall_mem_cons, and_assoc]

/-- Nothing is reported exactly if every pair of entries is within the tolerance. -/
theorem mismatch?_eq_none_iff (relative : Bool) (nonnegative : Extended.finite 0 ≤ tolerance)
    (found expected : DenseMatrix Extended) :
    ∃ worst?, mismatch? relative tolerance found expected = .ok worst? ∧ (worst? = none ↔
      ∀ row < expected.height, ∀ column < expected.width,
        Passes relative tolerance (found.entry row column) (expected.entry row column)) := by
  have pairs : (∀ pair ∈ entryPairs found expected, Within relative tolerance pair) ↔
      ∀ row < expected.height, ∀ column < expected.width,
        Passes relative tolerance (found.entry row column) (expected.entry row column) := by
    simp only [entryPairs, List.forall_mem_flatMap, List.forall_mem_map, List.mem_range, Within,
      deviation_le_iff nonnegative]
  rw [← pairs]
  unfold mismatch?
  cases entryPairs found expected with
  | nil => exact ⟨none, if_pos (Extended.literal_zero ▸ nonnegative), by simp⟩
  | cons first rest =>
      rw [List.forall_mem_cons, ← foldl_worsePair_within]
      unfold worstPair? Within
      dsimp only
      split
      · next within => exact ⟨none, rfl, fun _ => within, fun _ => rfl⟩
      · next beyond => exact ⟨some _, rfl, nofun, fun within => (beyond within).elim⟩

end Worst

/-! ## The Jacobian by forward differences -/

section Runs

variable {σ α : Type}

/-- With so many parameters the residual function always answers, and what it answers is this
function, in an array that nothing else writes to. -/
def Answers (residuals : Vec α → Call σ α (View σ α)) (function : Vec α → Vec α)
    (parameters functions : Nat) : Prop :=
  ∀ x, x.length = parameters →
    (function x).length = functions ∧ Replies residuals x (·.flatten = function x)

variable [Scalar α] {residuals : Vec α → Call σ α (View σ α)} {function : Vec α → Vec α}
  {functions : Nat}

/-- The change of a residual over a step of one parameter, divided by the step. -/
def forwardEntry (function : Vec α → Vec α) (scale : α) (point : Vec α) (row column : Nat) : α :=
  let parameter := point.getD column 0.0
  ((function (point.set column (stepped scale parameter))).getD row 0.0 -
    (function point).getD row 0.0) / relativeStep scale parameter

omit [Scalar α] in
theorem zipWith_eq_range {first second : Vec α} (size : first.length = functions)
    (size' : second.length = functions) (operation : α → α → α) (otherwise : α) :
    List.zipWith operation first second = (List.range functions).map fun row =>
      operation (first.getD row otherwise) (second.getD row otherwise) := by
  apply List.ext_getElem
  · simp [size, size']
  · intro row inside _
    have bound : row < functions := by simpa [size, size'] using inside
    simp [List.getD, bound, size, size']

theorem forwardJacobian_run {point : Vec α}
    (answers : Answers residuals function point.length functions) (scale : α) (before : σ) :
    ∃ after, (forwardJacobian residuals scale point).run before =
      (.ok (DenseMatrix.ofFn functions point.length (forwardEntry function scale point)),
        after) := by
  obtain ⟨here, answered⟩ := answers point rfl
  have onward (position : Nat) := answers (moved scale point position) List.length_set
  have asks := asks_forwardJacobian rfl answered (fun position => (onward position).2)
    fun position => (onward position).1.trans here.symm
  have column (position : Nat) :
      changeOver scale point (function (moved scale point position)) (function point) position =
        (List.range functions).map (forwardEntry function scale point · position) := by
    unfold changeOver
    rw [zipWith_eq_range (onward position).1 here _ 0.0, List.map_map]
    rfl
  have gathered : DenseMatrix.ofColumns functions (List.ofFn fun column : Fin point.length =>
      (List.range functions).map (forwardEntry function scale point · column)) =
        DenseMatrix.ofFn functions point.length (forwardEntry function scale point) := by
    unfold DenseMatrix.ofColumns
    rw [List.length_ofFn]
    refine DenseMatrix.ofFn_congr fun row rowInside column columnInside => ?_
    simp [List.getD, rowInside, columnInside]
  simp only [column, here, gathered] at asks
  exact ⟨_, asks before⟩

end Runs

end Difference

/-! ## The Jacobian that is checked -/

/-- The entries of two matrices side by side. -/
def besideEntry {α : Type} (leftWidth : Nat) (left right : Nat → Nat → α) (row column : Nat) : α :=
  if column < leftWidth then left row column else right row (column - leftWidth)

/-- A Jacobian of this height and width with these entries: a matrix in either storage, or two of
equal height side by side. -/
inductive Derivative.Shows {α : Type} [Scalar α] :
    Derivative α → Nat → Nat → (Nat → Nat → α) → Prop where
  | whole (found : Matrix α) :
      Shows (.whole (.matrix found)) found.height found.width found.entry
  | split (left right : Matrix α) (level : left.height = right.height) :
      Shows (.split (.matrix left) (.matrix right)) left.height (left.width + right.width)
        (besideEntry left.width left.entry right.entry)

section Storage

variable {α : Type} [Scalar α] {row column : Nat}

theorem DenseMatrix.append?_entry (left right : DenseMatrix α)
    (level : left.height = right.height) :
    ∃ whole, left.append? right = some whole ∧ whole.height = left.height ∧
      whole.width = left.width + right.width ∧
      ∀ row < left.height, ∀ column < left.width + right.width,
        whole.entry row column = besideEntry left.width left.entry right.entry row column := by
  unfold DenseMatrix.append?
  rw [if_pos level]
  refine ⟨_, rfl, height_ofFn _ _ _, width_ofFn _ _ _, fun row rowInside column columnInside => ?_⟩
  exact entry_ofFn _ _ _ rowInside columnInside

theorem SparseMatrix.append?_entry (left right : SparseMatrix α)
    (level : left.height = right.height) :
    ∃ whole, left.append? right = some whole ∧ whole.height = left.height ∧
      whole.width = left.width + right.width ∧
      ∀ row < left.height, ∀ column < left.width + right.width,
        whole.entry row column = besideEntry left.width left.entry right.entry row column := by
  unfold SparseMatrix.append?
  rw [if_pos level]
  refine ⟨_, rfl, height_ofFn? _ _ _, width_ofFn? _ _ _,
    fun row rowInside column columnInside => ?_⟩
  rw [entry, get?_ofFn? _ rowInside columnInside]
  unfold besideEntry
  split <;> rfl

namespace Matrix

theorem entry_toDense (matrix : Matrix α) (rowInside : row < matrix.height)
    (columnInside : column < matrix.width) :
    matrix.toDense.entry row column = matrix.entry row column := by
  cases matrix with
  | dense matrix => rfl
  | sparse matrix => exact DenseMatrix.entry_ofFn _ _ _ rowInside columnInside

theorem height_toSparse (matrix : Matrix α) : matrix.toSparse.height = matrix.height := by
  cases matrix <;> rfl

theorem width_toSparse (matrix : Matrix α) : matrix.toSparse.width = matrix.width := by
  cases matrix with
  | sparse matrix => rfl
  | dense matrix => exact SparseMatrix.width_ofFn? _ _ _

/-- An entry that is not stored is the same zero. -/
theorem entry_toSparse (matrix : Matrix Extended) (rowInside : row < matrix.height)
    (columnInside : column < matrix.width) :
    matrix.toSparse.entry row column = matrix.entry row column := by
  cases matrix with
  | sparse matrix => rfl
  | dense matrix =>
      have stored : matrix.height = height (.dense matrix) ∧ matrix.width = width (.dense matrix) :=
        ⟨rfl, rfl⟩
      change (SparseMatrix.ofDense matrix).entry row column = matrix.entry row column
      unfold SparseMatrix.ofDense SparseMatrix.entry
      rw [stored.1, stored.2, SparseMatrix.get?_ofFn? _ rowInside columnInside]
      unfold SparseMatrix.nonzero?
      split
      · next zero => exact (Extended.eq_of_beq zero).symm
      · rfl

theorem append?_entry (left right : Matrix Extended) (level : left.height = right.height) :
    ∃ whole, left.append? right = some whole ∧ whole.height = left.height ∧
      whole.width = left.width + right.width ∧
      ∀ row < left.height, ∀ column < left.width + right.width,
        whole.entry row column = besideEntry left.width left.entry right.entry row column := by
  have stored : ∃ whole, left.toSparse.append? right.toSparse = some whole ∧
      whole.height = left.height ∧ whole.width = left.width + right.width ∧
      ∀ row < left.height, ∀ column < left.width + right.width,
        whole.entry row column = besideEntry left.width left.entry right.entry row column := by
    obtain ⟨whole, appended, height, width, entries⟩ :=
      SparseMatrix.append?_entry left.toSparse right.toSparse
        (by rw [height_toSparse, height_toSparse, level])
    rw [height_toSparse] at height entries
    rw [width_toSparse, width_toSparse] at width entries
    refine ⟨whole, appended, height, width, fun row rowInside column columnInside => ?_⟩
    rw [entries row rowInside column columnInside]
    unfold besideEntry
    split
    · next inside => exact left.entry_toSparse rowInside inside
    · next beyond => exact right.entry_toSparse (level ▸ rowInside) (by omega)
  have sparse : ∃ whole, (left.toSparse.append? right.toSparse).map Matrix.sparse = some whole ∧
      whole.height = left.height ∧ whole.width = left.width + right.width ∧
      ∀ row < left.height, ∀ column < left.width + right.width,
        whole.entry row column = besideEntry left.width left.entry right.entry row column := by
    obtain ⟨whole, appended, rest⟩ := stored
    exact ⟨.sparse whole, by rw [appended]; rfl, rest⟩
  cases left with
  | sparse left => exact sparse
  | dense left =>
      cases right with
      | sparse right => exact sparse
      | dense right =>
          obtain ⟨whole, appended, rest⟩ := DenseMatrix.append?_entry left right level
          exact ⟨.dense whole, congrArg (Option.map Matrix.dense) appended, rest⟩

end Matrix

end Storage

namespace Difference

theorem fullJacobian_of_shows {found : Derivative Extended} {height width : Nat}
    {entry : Nat → Nat → Extended} (shown : found.Shows height width entry)
    (expected : List Nat) :
    ([height, width] = expected → ∃ full, fullJacobian found expected = .ok full ∧
      ∀ row < height, ∀ column < width, full.entry row column = entry row column) ∧
    ([height, width] ≠ expected → fullJacobian found expected =
      .error (.refused (.jacobianShape (expected.map Int.ofNat) [height, width]))) := by
  obtain ⟨whole, joined, rfl, rfl, entries⟩ : ∃ whole, found.joined = .ok (.matrix whole) ∧
      whole.height = height ∧ whole.width = width ∧
      ∀ row < height, ∀ column < width, whole.entry row column = entry row column := by
    cases shown with
    | whole found => exact ⟨found, rfl, rfl, rfl, fun _ _ _ _ => rfl⟩
    | split left right level =>
        obtain ⟨whole, appended, rest⟩ := left.append?_entry right level
        refine ⟨whole, ?_, rest⟩
        change (Fault.fit (left.append? right)).map Operand.matrix = _
        rw [appended]
        rfl
  unfold fullJacobian
  rw [joined, ok_bind]
  dsimp only
  constructor
  · intro fits
    have shape : whole.shape = expected := fits
    rw [if_pos shape]
    refine ⟨_, rfl, fun row rowInside column columnInside => ?_⟩
    rw [whole.entry_toDense rowInside columnInside, entries row rowInside column columnInside]
  · intro differs
    have shape : whole.shape ≠ expected := differs
    rw [if_neg shape]
    rfl

/-! ## The verdict -/

section Verdict

variable {σ : Type} {residuals : Vec Extended → Call σ Extended (View σ Extended)}
  {function : Vec Extended → Vec Extended} {functions height width : Nat}
  {jacobian : Vec Extended → Call σ Extended (Derivative Extended)} {point : Vec Extended}
  {entry : Nat → Nat → Extended} {tolerance : Extended}

theorem check_run (answers : Answers residuals function point.length functions)
    (answered : ∀ before, ∃ found after,
      (jacobian point).run before = (.ok found, after) ∧ found.Shows height width entry)
    (tolerance : Extended) (relative : Bool) (scale : Extended) (before : σ) :
    ∃ found after, found.Shows height width entry ∧
      (check residuals jacobian point tolerance relative scale).run before =
        ((do
          let full ← fullJacobian found [functions, point.length]
          let worst? ← mismatch? relative tolerance full
            (.ofFn functions point.length (forwardEntry function scale point))
          return worst?.map fun pair =>
            .jacobianMismatch pair.row pair.column pair.found pair.expected), after) := by
  obtain ⟨middle, differences⟩ := forwardJacobian_run answers scale before
  obtain ⟨found, after, ran, shown⟩ := answered middle
  refine ⟨found, after, shown, ?_⟩
  unfold check
  rw [Call.run_bind_ok differences, Call.run_bind_ok ran, DenseMatrix.height_ofFn,
    DenseMatrix.width_ofFn]
  rcases fullJacobian found [functions, point.length] with fault | full
  · rfl
  · refine (Call.run_bind_ok rfl).trans ?_
    rw [ok_bind]
    rcases mismatch? relative tolerance full _ with fault | worst? <;> rfl

/-- A Jacobian of another shape is refused. Of the others, exactly those pass without a report
that have an entry passing at every place. -/
theorem check_verdict (answers : Answers residuals function point.length functions)
    (answered : ∀ before, ∃ found after,
      (jacobian point).run before = (.ok found, after) ∧ found.Shows height width entry)
    (nonnegative : Extended.finite 0 ≤ tolerance) (relative : Bool) (scale : Extended)
    (before : σ) :
    ∃ after,
      ([height, width] ≠ [functions, point.length] →
        (check residuals jacobian point tolerance relative scale).run before =
          (.error (.refused (.jacobianShape [functions, point.length] [height, width])), after)) ∧
      ([height, width] = [functions, point.length] → ∃ report?,
        (check residuals jacobian point tolerance relative scale).run before =
          (.ok report?, after) ∧
        (report? = none ↔ ∀ row < functions, ∀ column < point.length,
          Passes relative tolerance (entry row column)
            (forwardEntry function scale point row column))) := by
  obtain ⟨found, after, shown, checked⟩ :=
    check_run answers answered tolerance relative scale before
  obtain ⟨fits, differs⟩ := fullJacobian_of_shows shown [functions, point.length]
  refine ⟨after, fun other => ?_, fun same => ?_⟩
  · rw [checked, differs other]
    rfl
  · obtain ⟨full, joined, entries⟩ := fits same
    obtain ⟨rfl, rfl⟩ : height = functions ∧ width = point.length := by simpa using same
    obtain ⟨worst?, compared, verdict⟩ := mismatch?_eq_none_iff relative nonnegative full
      (.ofFn height point.length (forwardEntry function scale point))
    rw [joined, ok_bind, compared] at checked
    refine ⟨_, checked, ?_⟩
    rw [Option.map_eq_none_iff, verdict, DenseMatrix.height_ofFn, DenseMatrix.width_ofFn]
    refine forall₄_congr fun row rowInside column columnInside => ?_
    rw [entries row rowInside column columnInside,
      DenseMatrix.entry_ofFn _ _ _ rowInside columnInside]

end Verdict

def undefinedEntry : Matrix Extended := .dense (DenseMatrix.rowMatrix [.undefined])

def undefinedBlocks (_ : Vec Extended) : Call Unit Extended (Derivative Extended) :=
  pure (.split (.matrix undefinedEntry) (.matrix undefinedEntry))

/-- Of the two parameters the residual is the first. Neither block of the Jacobian holds a number,
and in relative terms it passes within a tolerance of zero. -/
theorem check_verdict_undefined :
    (check (fun x => pure (.fresh (.vector (x.take 1)))) undefinedBlocks
      [Extended.finite 1, .finite 2] (.finite 0) true standardScale).run () = (.ok none, ()) := by
  have answers : Answers (σ := Unit) (fun x => pure (.fresh (.vector (x.take 1))))
      (List.take 1 : Vec Extended → Vec Extended) [Extended.finite 1, .finite 2].length 1 :=
    fun x size => ⟨by simp [size], fun _ => ⟨_, _, rfl, rfl⟩⟩
  have answered : ∀ before, ∃ found after,
      (undefinedBlocks [Extended.finite 1, .finite 2]).run before = (.ok found, after) ∧
        found.Shows 1 2 (besideEntry 1 undefinedEntry.entry undefinedEntry.entry) :=
    fun _ => ⟨_, _, rfl, .split undefinedEntry undefinedEntry rfl⟩
  obtain ⟨_, _, verdict⟩ := check_verdict answers answered
    (Extended.finite_le_finite.mpr le_rfl) true standardScale ()
  obtain ⟨report?, checked, passes⟩ := verdict rfl
  have nothing : report? = none := passes.mpr fun row rowInside column columnInside => by
    refine .inr ⟨rfl, .inl ?_⟩
    have first : row = 0 := Nat.lt_one_iff.mp rowInside
    have either : column = 0 ∨ column = 1 := by
      have bound : column < 2 := columnInside
      omega
    subst first
    obtain rfl | rfl := either <;> rfl
  rw [checked, nothing]

/-- With the doubles as scalars the two kinds of comparison differ as well: an undefined entry
passes in relative terms only. -/
theorem undefined_entry_passes :
    let undefined := DenseMatrix.rowMatrix [(0.0 / 0.0 : Float)]
    let passes (relative : Bool) := ((check (fun x => pure (.fresh (.vector x)))
      (fun _ => pure (.whole (.matrix (.dense undefined)))) [1.0] 0.1 relative
      standardScale).run ()).1.toOption.map Option.isNone
    passes true = some true ∧ passes false = some false := by
  decide +kernel

end Difference

end DampedLeastSquares
