import DampedLeastSquares.Problem.Bearings
import DampedLeastSquares.Proofs.Exact.Gram

/-!
# Observed pairs

An observation is of one camera and one landmark. Its residual depends on these two points alone,
and its row of the Jacobian stores entries for them alone. So the normal matrix of both blocks
keeps cameras apart from each other, and landmarks too, and it couples each pair by a single row.
-/

set_option autoImplicit false

open scoped Matrix

namespace DampedLeastSquares

open Exact

variable {α : Type}

/-! ## Pairs -/

/-- What is made of all pairs stands in the order of the first, then of the second. -/
theorem getElem?_flatMap_pairs {β γ δ : Type} (value : β → γ → δ) (first : List β)
    {second : List γ} (left : Nat) {right : Nat} (inside : right < second.length) :
    (first.flatMap fun found => second.map (value found))[left * second.length + right]? =
      first[left]?.bind fun found => second[right]?.map (value found) := by
  induction first generalizing left with
  | nil => simp
  | cons found rest previous =>
      cases left with
      | zero => simp [List.getElem?_append_left, inside]
      | succ left =>
          have beyond : (second.map (value found)).length ≤
              (left + 1) * second.length + right := by
            rw [List.length_map, Nat.succ_mul]
            omega
          have back : (left + 1) * second.length + right - (second.map (value found)).length =
              left * second.length + right := by
            rw [List.length_map, Nat.succ_mul]
            omega
          rw [List.flatMap_cons, List.getElem?_append_right beyond, back, previous]
          rfl

/-! ## Sparse products -/

namespace StoredColumn

variable {height : Nat} {left right : StoredColumn α}

theorem isSome_lookup {item : Nat × α} {column : StoredColumn α} (member : item ∈ column) :
    (column.lookup item.1).isSome := by
  rw [Option.isSome_iff_ne_none, ne_eq, List.lookup_eq_none_iff]
  intro absent
  simpa using absent item member

variable [Scalar α]

/-- Columns that meet in no row have no product. -/
theorem storedDot?_eq_none
    (apart : ∀ row, (left.lookup row).isSome → right.lookup row = none) :
    SparseMatrix.storedDot? left right = none := by
  have nothing : (left.filterMap fun item => (right.lookup item.1).map (item.2 * ·)) = [] := by
    rw [List.filterMap_eq_nil_iff]
    intro item member
    rw [apart item.1 (isSome_lookup member)]
    rfl
  unfold SparseMatrix.storedDot?
  rw [nothing]

/-- Columns that meet in one row have the product of their entries there. -/
theorem storedDot?_of_single (ordered : Ordered height left) {row : Nat} {first second : α}
    (here : left.lookup row = some first) (there : right.lookup row = some second)
    (apart : ∀ other, other ≠ row → (left.lookup other).isSome → right.lookup other = none) :
    SparseMatrix.storedDot? left right = SparseMatrix.nonzero? (Vec.sum [first * second]) := by
  have single : (left.filterMap fun item => (right.lookup item.1).map (item.2 * ·)) =
      [first * second] := by
    induction left with
    | nil => cases here
    | cons item rest previous =>
        obtain ⟨key, value⟩ := item
        have ascending := (List.pairwise_cons.mp ordered.1).1
        have others (other : Nat) (differs : other ≠ row) (found : (rest.lookup other).isSome) :
            right.lookup other = none := by
          refine apart other differs ?_
          rw [List.lookup_cons]
          split
          · rfl
          · exact found
        by_cases same : key = row
        · subst same
          obtain rfl : value = first := by simpa using here
          have nothing : (rest.filterMap fun item =>
              (right.lookup item.1).map (item.2 * ·)) = [] := by
            rw [List.filterMap_eq_nil_iff]
            intro item member
            rw [others item.1 (ascending item member).ne' (isSome_lookup member)]
            rfl
          simp [there, nothing]
        · have missing : right.lookup key = none := apart key same (by simp)
          have rest_here : rest.lookup row = some first := by
            simpa [List.lookup_cons, beq_false_of_ne (Ne.symm same)] using here
          simpa [missing] using previous ordered.tail rest_here others
  unfold SparseMatrix.storedDot?
  rw [single]

end StoredColumn

namespace SparseMatrix

variable [Scalar α]

theorem exists_transposeMul? {left right : SparseMatrix α} (same : left.height = right.height) :
    ∃ product, left.transposeMul? right = some product ∧ product.height = left.width ∧
      product.width = right.width ∧ ∀ row column, product.get? row column =
        if row < left.width ∧ column < right.width then
          storedDot? (left.column row) (right.column column) else none := by
  unfold transposeMul?
  rw [if_pos same]
  exact ⟨_, rfl, rfl, width_ofFn? _ _ _, get?_ofFn?_eq _⟩

end SparseMatrix

namespace Bearings

variable {n m : Nat}

/-! ## Scenes -/

theorem Scene.encode_eq (scene : Scene α) :
    scene.encode = Point.interleave (scene.cameras ++ scene.landmarks) :=
  List.flatMap_append.symm

theorem Scene.decode_encode (scene : Scene α) :
    Scene.decode scene.cameras.length scene.encode = .ok scene := by
  have inside : scene.cameras.length ≤ (scene.cameras ++ scene.landmarks).length := by simp
  unfold Scene.decode
  rw [scene.encode_eq, Point.ofPairs?_interleave]
  change Except.ok _ = _
  rw [cutPosition_natCast inside, List.take_left, List.drop_left]

/-- Parameters of the right number are the coordinates of a scene. -/
theorem exists_encode {x : Vec α} (size : x.length = 2 * n + 2 * m) :
    ∃ scene : Scene α, scene.cameras.length = n ∧ scene.landmarks.length = m ∧
      scene.encode = x := by
  rw [← Nat.mul_add] at size
  obtain ⟨points, counted, rfl⟩ := Point.exists_interleave size
  refine ⟨⟨points.take n, points.drop n⟩, by simp [counted], by simp [counted], ?_⟩
  rw [Scene.encode_eq, List.take_append_drop]

/-- Both vectors hold the same two points at these places. -/
def SamePair (x other : Vec α) (first second : Nat) : Prop :=
  ∀ position ∈ [2 * first, 2 * first + 1, 2 * second, 2 * second + 1],
    x[position]? = other[position]?

theorem SamePair.points {scene other : Scene α} {camera landmark : Nat}
    (cameras : scene.cameras.length = n) (cameras' : other.cameras.length = n)
    (inside : camera < n) (same : SamePair scene.encode other.encode camera (n + landmark)) :
    scene.cameras[camera]? = other.cameras[camera]? ∧
      scene.landmarks[landmark]? = other.landmarks[landmark]? := by
  rw [scene.encode_eq, other.encode_eq] at same
  have first := Point.getElem?_eq_of_interleave (same (2 * camera) (by simp))
    (same (2 * camera + 1) (by simp))
  have second := Point.getElem?_eq_of_interleave (same (2 * (n + landmark)) (by simp))
    (same (2 * (n + landmark) + 1) (by simp))
  constructor
  · rwa [List.getElem?_append_left (by omega), List.getElem?_append_left (by omega)] at first
  · rw [List.getElem?_append_right (by omega), List.getElem?_append_right (by omega), cameras,
      cameras', Nat.add_sub_cancel_left] at second
    exact second

/-! ## Rows of the Jacobian -/

/-- The row of a pair tells both numbers. -/
theorem pair_row {camera landmark : Nat} (inside : camera < n) (inside' : landmark < m) :
    camera * m + landmark < n * m ∧ (camera * m + landmark) / m = camera ∧
      (camera * m + landmark) % m = landmark := by
  refine ⟨?_, ?_, ?_⟩
  · calc camera * m + landmark < (camera + 1) * m := by rw [Nat.succ_mul]; omega
      _ ≤ n * m := Nat.mul_le_mul_right m inside
  · rw [Nat.add_comm, Nat.add_mul_div_right _ _ (by omega), Nat.div_eq_of_lt inside',
      Nat.zero_add]
  · rw [Nat.mul_add_mod_self_right, Nat.mod_eq_of_lt inside']

theorem get?_slopeBlock (slopes : List (Point α)) (points : Nat) (owner : Nat → Nat)
    (entry : Point α → Point α) (row column : Nat) :
    (slopeBlock slopes points owner entry).get? row column =
      if row < slopes.length ∧ column < 2 * points ∧ owner row = column / 2 then
        slopes[row]?.map fun found => if column % 2 = 0 then (entry found).x else (entry found).y
      else none := by
  unfold slopeBlock
  rw [SparseMatrix.get?_ofFn?_eq]
  simp only [← ite_and, and_assoc]

/-- In each row a block stores the two entries of the point that owns it. -/
structure OwnedBy (block : SparseMatrix α) (owner : Nat → Nat) (rows points : Nat) : Prop where
  height : block.height = rows
  width : block.width = 2 * points
  stored (row column : Nat) : (block.get? row column).isSome ↔
    row < rows ∧ column < 2 * points ∧ owner row = column / 2

theorem ownedBy_slopeBlock (slopes : List (Point α)) (points : Nat) (owner : Nat → Nat)
    (entry : Point α → Point α) :
    OwnedBy (slopeBlock slopes points owner entry) owner slopes.length points := by
  refine ⟨rfl, SparseMatrix.width_ofFn? _ _ _, fun row column => ?_⟩
  rw [get?_slopeBlock]
  split
  · next owned => simp [owned]
  · next other => simpa using other

theorem OwnedBy.none_of_other {block : SparseMatrix α} {owner : Nat → Nat} {rows points : Nat}
    (owned : OwnedBy block owner rows points) {row column : Nat} (other : owner row ≠ column / 2) :
    block.get? row column = none := by
  rw [← Option.not_isSome_iff_eq_none, owned.stored]
  exact fun here => other here.2.2

/-- Two entries of the camera are stored in the row of a pair on the left, and two of the landmark
on the right. -/
structure StoresPairs (left right : SparseMatrix α) (n m : Nat) : Prop where
  leftSize : left.height = n * m ∧ left.width = 2 * n
  rightSize : right.height = n * m ∧ right.width = 2 * m
  left : ∀ camera < n, ∀ landmark < m, ∀ column,
    (left.get? (camera * m + landmark) column).isSome ↔
      column = 2 * camera ∨ column = 2 * camera + 1
  right : ∀ camera < n, ∀ landmark < m, ∀ column,
    (right.get? (camera * m + landmark) column).isSome ↔
      column = 2 * landmark ∨ column = 2 * landmark + 1

theorem storesPairs {left right : SparseMatrix α} (owned : OwnedBy left (· / m) (n * m) n)
    (owned' : OwnedBy right (· % m) (n * m) m) : StoresPairs left right n m := by
  refine ⟨⟨owned.height, owned.width⟩, ⟨owned'.height, owned'.width⟩, ?_, ?_⟩
  · intro camera inside landmark inside' column
    obtain ⟨row, owner, -⟩ := pair_row inside inside'
    rw [owned.stored]
    omega
  · intro camera inside landmark inside' column
    obtain ⟨row, -, owner⟩ := pair_row inside inside'
    rw [owned'.stored]
    omega

/-! ## Residuals and blocks -/

variable [Scalar α]

theorem Scene.residuals_encode (scene : Scene α) {observations : Vec α}
    (count : observations.length = scene.cameras.length * scene.landmarks.length) :
    residuals scene.cameras.length observations scene.encode =
      .ok (List.zipWith (· - ·)
        (scene.cameras.flatMap fun camera => scene.landmarks.map (bearing camera))
        observations) := by
  have entries : scene.bearings.entries =
      scene.cameras.flatMap fun camera => scene.landmarks.map (bearing camera) :=
    List.flatMap_def.symm
  have fits : (scene.cameras.flatMap fun camera => scene.landmarks.map (bearing camera)).length =
      observations.length := by
    simp [List.length_flatMap, count]
  unfold residuals
  rw [scene.decode_encode, ok_bind, entries, Vec.combine?_of_length_eq _ fits]
  rfl

/-- Each residual depends on its two points alone. -/
theorem residuals_samePair {observations x other : Vec α} (count : observations.length = n * m)
    (size : x.length = 2 * n + 2 * m) (size' : other.length = 2 * n + 2 * m) :
    ∃ values values', residuals n observations x = .ok values ∧
      residuals n observations other = .ok values' ∧
      values.length = n * m ∧ values'.length = n * m ∧
      ∀ camera < n, ∀ landmark < m, SamePair x other camera (n + landmark) →
        values[camera * m + landmark]? = values'[camera * m + landmark]? := by
  obtain ⟨scene, rfl, rfl, rfl⟩ := exists_encode size
  obtain ⟨scene', cameras, landmarks, rfl⟩ := exists_encode size'
  have count' : observations.length = scene'.cameras.length * scene'.landmarks.length := by
    rw [count, cameras, landmarks]
  have first := scene.residuals_encode count
  have second := scene'.residuals_encode count'
  rw [cameras] at second
  refine ⟨_, _, first, second, by simp [List.length_flatMap, count],
    by simp [List.length_flatMap, count, cameras, landmarks], ?_⟩
  intro camera inside landmark inside' same
  obtain ⟨sameCamera, sameLandmark⟩ := same.points rfl cameras inside
  rw [List.getElem?_zipWith, List.getElem?_zipWith, getElem?_flatMap_pairs _ _ _ inside',
    ← landmarks, getElem?_flatMap_pairs _ _ _ (landmarks ▸ inside'), sameCamera, sameLandmark]

theorem exists_blocks {x : Vec α} (size : x.length = 2 * n + 2 * m) :
    ∃ left right, blocks n x = .ok (left, right) ∧ OwnedBy left (· / m) (n * m) n ∧
      OwnedBy right (· % m) (n * m) m := by
  obtain ⟨scene, rfl, rfl, rfl⟩ := exists_encode size
  have count : scene.slopes.length = scene.cameras.length * scene.landmarks.length := by
    simp [Scene.slopes, List.length_flatMap]
  unfold blocks
  rw [scene.decode_encode, ok_bind, ← count]
  exact ⟨_, _, rfl, ownedBy_slopeBlock _ _ _ _, ownedBy_slopeBlock _ _ _ _⟩

/-! ## Normal matrices -/

/-- Nothing is stored for two cameras or for two landmarks, and what is stored for a camera and a
landmark is made from the row of this pair. -/
structure KeepsApart (left right upper coupling lower : SparseMatrix α) (n m : Nat) : Prop where
  upperSize : upper.height = 2 * n ∧ upper.width = 2 * n
  couplingSize : coupling.height = 2 * n ∧ coupling.width = 2 * m
  lowerSize : lower.height = 2 * m ∧ lower.width = 2 * m
  cameras : ∀ first second, first / 2 ≠ second / 2 → upper.get? first second = none
  landmarks : ∀ first second, first / 2 ≠ second / 2 → lower.get? first second = none
  pairs : ∀ first < 2 * n, ∀ second < 2 * m, ∃ slope slope',
    left.get? (first / 2 * m + second / 2) first = some slope ∧
      right.get? (first / 2 * m + second / 2) second = some slope' ∧
      coupling.get? first second = SparseMatrix.nonzero? (Vec.sum [slope * slope'])

/-- Columns of different points meet in no row. -/
theorem OwnedBy.storedDot?_eq_none {block : SparseMatrix α} {owner : Nat → Nat}
    {rows points : Nat} (owned : OwnedBy block owner rows points) {first second : Nat}
    (apart : first / 2 ≠ second / 2) :
    SparseMatrix.storedDot? (block.column first) (block.column second) = none := by
  refine StoredColumn.storedDot?_eq_none fun row here => owned.none_of_other fun there => apart ?_
  rw [← there]
  exact ((owned.stored row first).mp here).2.2.symm

section Products

variable {left right : SparseMatrix α} (owned : OwnedBy left (· / m) (n * m) n)
  (owned' : OwnedBy right (· % m) (n * m) m)

include owned owned'

/-- A column of a camera and one of a landmark meet in the row of their pair alone. -/
theorem storedDot?_pair {first second : Nat} (inside : first < 2 * n) (inside' : second < 2 * m) :
    ∃ slope slope', left.get? (first / 2 * m + second / 2) first = some slope ∧
      right.get? (first / 2 * m + second / 2) second = some slope' ∧
      SparseMatrix.storedDot? (left.column first) (right.column second) =
        SparseMatrix.nonzero? (Vec.sum [slope * slope']) := by
  have camera : first / 2 < n := by omega
  have landmark : second / 2 < m := by omega
  obtain ⟨row, owner, owner'⟩ := pair_row camera landmark
  obtain ⟨slope, here⟩ := Option.isSome_iff_exists.mp
    ((owned.stored _ first).mpr ⟨row, inside, owner⟩)
  obtain ⟨slope', there⟩ := Option.isSome_iff_exists.mp
    ((owned'.stored _ second).mpr ⟨row, inside', owner'⟩)
  refine ⟨slope, slope', here, there,
    StoredColumn.storedDot?_of_single (left.ordered_column first) here there ?_⟩
  intro other differs found
  refine owned'.none_of_other fun same => differs ?_
  have same' := ((owned.stored other first).mp found).2.2
  rw [← same, ← same', Nat.div_add_mod']

theorem compute_sparse {normal : SplitNormal α} (asSparse : normal.asSparse = true) :
    ∃ upper coupling lower,
      normal.compute (.matrix (.sparse left)) (.matrix (.sparse right)) =
        (.ok (), { normal with
          left := .matrix (.sparse upper)
          coupling := .matrix (.sparse coupling)
          right := .matrix (.sparse lower) }) ∧
      KeepsApart left right upper coupling lower n m := by
  obtain ⟨upper, multiplied, upperHeight, upperWidth, upperEntry⟩ :=
    SparseMatrix.exists_transposeMul? (Eq.refl left.height)
  obtain ⟨coupling, multiplied', couplingHeight, couplingWidth, couplingEntry⟩ :=
    SparseMatrix.exists_transposeMul? (owned.height.trans owned'.height.symm)
  obtain ⟨lower, multiplied'', lowerHeight, lowerWidth, lowerEntry⟩ :=
    SparseMatrix.exists_transposeMul? (Eq.refl right.height)
  rw [owned.width] at upperHeight upperWidth couplingHeight couplingEntry
  rw [owned'.width] at lowerHeight lowerWidth couplingWidth couplingEntry
  refine ⟨upper, coupling, lower, ?_, ⟨upperHeight, upperWidth⟩, ⟨couplingHeight, couplingWidth⟩,
    ⟨lowerHeight, lowerWidth⟩, ?_, ?_, ?_⟩
  · simp only [SplitNormal.compute, SplitNormal.startOf, SplitNormal.stored, Matrix.stored,
      asSparse, if_true, Matrix.toSparse, Operand.product, Matrix.transposeMul?, multiplied,
      multiplied', multiplied'', Option.map_some, fit_some, ok_bind, pure, Except.pure]
  · intro first second apart
    rw [upperEntry, owned.storedDot?_eq_none apart, ite_self]
  · intro first second apart
    rw [lowerEntry, owned'.storedDot?_eq_none apart, ite_self]
  · intro first inside second inside'
    rw [couplingEntry, if_pos ⟨inside, inside'⟩]
    exact storedDot?_pair owned owned' inside inside'

end Products

/-! ## Exact arithmetic -/

/-- A product with another point's entries is zero. -/
theorem OwnedBy.entry_of_other {block : SparseMatrix ℝ} {owner : Nat → Nat} {rows points : Nat}
    (owned : OwnedBy block owner rows points) {row column : Nat} (other : owner row ≠ column / 2) :
    block.entry row column = 0 := by
  rw [SparseMatrix.entry, owned.none_of_other other, literal_zero]
  rfl

theorem OwnedBy.gram_eq_zero {block : SparseMatrix ℝ} {owner : Nat → Nat} {rows points : Nat}
    (owned : OwnedBy block owner rows points) {matrix : RealMatrix rows (2 * points)}
    (holds : block.Holds matrix) {first second : Fin (2 * points)}
    (apart : (first : Nat) / 2 ≠ second / 2) : (matrixᵀ * matrix) first second = 0 := by
  rw [Matrix.mul_apply]
  refine Finset.sum_eq_zero fun row _ => ?_
  rw [Matrix.transpose_apply, ← holds.entry, ← holds.entry]
  by_cases here : owner row = (first : Nat) / 2
  · have there : owner row ≠ (second : Nat) / 2 := here ▸ apart
    rw [owned.entry_of_other there, mul_zero]
  · rw [owned.entry_of_other here, zero_mul]

theorem product_pair {left right : SparseMatrix ℝ} (owned : OwnedBy left (· / m) (n * m) n)
    (owned' : OwnedBy right (· % m) (n * m) m) {matrix : RealMatrix (n * m) (2 * n)}
    {matrix' : RealMatrix (n * m) (2 * m)} (holds : left.Holds matrix)
    (holds' : right.Holds matrix') (first : Fin (2 * n)) (second : Fin (2 * m)) :
    (matrixᵀ * matrix') first second =
      left.entry (first / 2 * m + second / 2) first *
        right.entry (first / 2 * m + second / 2) second := by
  have camera : (first : Nat) / 2 < n := by omega
  have landmark : (second : Nat) / 2 < m := by omega
  obtain ⟨inside, -, -⟩ := pair_row camera landmark
  rw [Matrix.mul_apply, Finset.sum_eq_single (⟨_, inside⟩ : Fin (n * m))]
  · rw [Matrix.transpose_apply, ← holds.entry, ← holds'.entry]
  · intro row _ differs
    rw [Matrix.transpose_apply, ← holds.entry, ← holds'.entry]
    by_cases here : (row : Nat) / m = (first : Nat) / 2
    · have there : (row : Nat) % m ≠ (second : Nat) / 2 := by
        intro same
        refine differs (Fin.ext ?_)
        calc (row : Nat) = row / m * m + row % m := (Nat.div_add_mod' _ _).symm
          _ = first / 2 * m + second / 2 := by rw [here, same]
      rw [owned'.entry_of_other there, mul_zero]
    · rw [owned.entry_of_other here, zero_mul]
  · intro missing
    exact absurd (Finset.mem_univ _) missing

/-- Entries for two cameras or for two landmarks are zero, and those for a camera and a landmark are
made from the row of this pair. -/
structure Decoupled (n m : Nat) (left right : SparseMatrix ℝ) (upper : RealMatrix (2 * n) (2 * n))
    (coupling : RealMatrix (2 * n) (2 * m)) (lower : RealMatrix (2 * m) (2 * m)) : Prop where
  cameras (first second : Fin (2 * n)) : (first : Nat) / 2 ≠ second / 2 → upper first second = 0
  landmarks (first second : Fin (2 * m)) : (first : Nat) / 2 ≠ second / 2 → lower first second = 0
  pairs (first : Fin (2 * n)) (second : Fin (2 * m)) : coupling first second =
    left.entry (first / 2 * m + second / 2) first *
      right.entry (first / 2 * m + second / 2) second

theorem compute_decoupled {left right : SparseMatrix ℝ}
    (owned : OwnedBy left (· / m) (n * m) n) (owned' : OwnedBy right (· % m) (n * m) m)
    (normal : SplitNormal ℝ) : ∃ changed upper coupling lower,
      normal.compute (.matrix (.sparse left)) (.matrix (.sparse right)) = (.ok (), changed) ∧
        changed.Holds upper coupling lower ∧ Decoupled n m left right upper coupling lower := by
  obtain ⟨matrix, holds⟩ := (Matrix.sparse left).exists_represents owned.height owned.width
  obtain ⟨matrix', holds'⟩ := (Matrix.sparse right).exists_represents owned'.height owned'.width
  obtain ⟨changed, computed, held, -⟩ := normal.holds_compute ⟨_, rfl, holds⟩ ⟨_, rfl, holds'⟩
  exact ⟨changed, _, _, _, computed, held, fun first second => owned.gram_eq_zero holds,
    fun first second => owned'.gram_eq_zero holds', product_pair owned owned' holds holds'⟩

/-- A residual depends on its camera and its landmark alone, and so do the entries stored for it.
The normal matrix then keeps cameras apart, and landmarks, and it couples each pair by one row. In
exact arithmetic this holds of dense storage too. -/
theorem observations_separate {α : Type} [Scalar α] (n m : Nat) (observations x : Vec α)
    (count : observations.length = n * m) (size : x.length = 2 * n + 2 * m) :
    (∀ other : Vec α, other.length = x.length →
      ∃ values values', residuals n observations x = .ok values ∧
        residuals n observations other = .ok values' ∧
        values.length = n * m ∧ values'.length = n * m ∧
        ∀ camera < n, ∀ landmark < m, SamePair x other camera (n + landmark) →
          values[camera * m + landmark]? = values'[camera * m + landmark]?) ∧
    (∃ left right, blocks n x = .ok (left, right) ∧ StoresPairs left right n m ∧
      ∀ normal : SplitNormal α, normal.asSparse = true → ∃ upper coupling lower,
        normal.compute (.matrix (.sparse left)) (.matrix (.sparse right)) =
          (.ok (), { normal with
            left := .matrix (.sparse upper)
            coupling := .matrix (.sparse coupling)
            right := .matrix (.sparse lower) }) ∧
        KeepsApart left right upper coupling lower n m) ∧
    ∀ x : Vec ℝ, x.length = 2 * n + 2 * m → ∃ left right, blocks n x = .ok (left, right) ∧
      ∀ normal : SplitNormal ℝ, ∃ changed upper coupling lower,
        normal.compute (.matrix (.sparse left)) (.matrix (.sparse right)) = (.ok (), changed) ∧
          changed.Holds upper coupling lower ∧
          Decoupled n m left right upper coupling lower := by
  refine ⟨fun other same => residuals_samePair count size (same.trans size), ?_, ?_⟩
  · obtain ⟨left, right, built, owned, owned'⟩ := exists_blocks size
    exact ⟨left, right, built, storesPairs owned owned',
      fun normal asSparse => compute_sparse owned owned' asSparse⟩
  · intro x size
    obtain ⟨left, right, built, owned, owned'⟩ := exists_blocks size
    exact ⟨left, right, built, compute_decoupled owned owned'⟩

/-- With two cameras and a landmark, the second camera may move, and the residual of the first one
stays. -/
theorem observations_separate_two_cameras :
    let before : Vec Float := [0.0, 0.0, 1.0, 0.0, 2.0, 3.0]
    let after : Vec Float := [0.0, 0.0, 4.0, 5.0, 2.0, 3.0]
    (∃ values values', residuals 2 [0.5, 0.25] before = .ok values ∧
      residuals 2 [0.5, 0.25] after = .ok values' ∧ values[0]? = values'[0]?) ∧
    ∃ left right, blocks 2 before = .ok (left, right) ∧ StoresPairs left right 2 1 := by
  intro before after
  obtain ⟨moves, ⟨left, right, built, pairs, -⟩, -⟩ :=
    observations_separate 2 1 [0.5, 0.25] before rfl rfl
  have size : after.length = before.length := by simp [before, after]
  obtain ⟨values, values', found, found', -, -, same⟩ := moves after size
  have kept : SamePair before after 0 (2 + 0) := by simp [SamePair, before, after]
  have first := same 0 (by decide) 0 (by decide) kept
  refine ⟨⟨values, values', found, found', ?_⟩, left, right, built, pairs⟩
  simpa using first

end Bearings

end DampedLeastSquares
