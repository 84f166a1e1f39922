import DampedLeastSquares.Proofs.DifferenceCalls
import DampedLeastSquares.Proofs.Exact.Gram

/-!
# Differences in two blocks

A Jacobian by forward differences that is asked for in two blocks is the one in one piece, cut at a
position. Positions outside are refused, and the blocks of any other one, side by side, are the
Jacobian again, in either storage. So the products with both blocks are the product with all
columns.
-/

set_option autoImplicit false

open scoped Matrix

namespace DampedLeastSquares

variable {σ α : Type}

/-! ## Cutting and appending -/

section Cutting

variable [Scalar α]

namespace DenseMatrix

/-- Nothing but the size and the entries tells two matrices apart. -/
theorem ofFn_entry (matrix : DenseMatrix α) :
    ofFn matrix.height matrix.width matrix.entry = matrix := by
  obtain ⟨rows, width, rectangular⟩ := matrix
  unfold ofFn
  congr 1
  apply List.ext_getElem
  · simp [DenseMatrix.height]
  · intro row _ inside
    have size := rectangular rows[row] (List.getElem_mem inside)
    apply List.ext_getElem
    · simpa using size.symm
    · intro column _ columnInside
      simp [entry, List.getD, inside, columnInside]

theorem append?_columnRange (matrix : DenseMatrix α) {cut : Nat} (inside : cut ≤ matrix.width) :
    (matrix.columnRange 0 cut).append? (matrix.columnRange cut (matrix.width - cut)) =
      some matrix := by
  have width : cut + (matrix.width - cut) = matrix.width := by omega
  unfold append? columnRange
  simp only [height_ofFn, width_ofFn, if_true, width]
  refine congrArg some (Eq.trans (ofFn_congr ?_) matrix.ofFn_entry)
  intro row rowInside column columnInside
  by_cases before : column < cut
  · refine (if_pos before).trans ?_
    rw [entry_ofFn _ _ _ rowInside before, Nat.zero_add]
  · refine (if_neg before).trans ?_
    rw [entry_ofFn _ _ _ rowInside (by omega), Nat.add_sub_cancel' (not_lt.mp before)]

end DenseMatrix

namespace SparseMatrix

omit [Scalar α] in
theorem ofFn?_congr {height width : Nat} {first second : Nat → Nat → Option α}
    (agree : ∀ row < height, ∀ column < width, first row column = second row column) :
    ofFn? height width first = ofFn? height width second := by
  have columns : (List.range width).map (fun column => StoredColumn.ofFn? height (first · column)) =
      (List.range width).map fun column => StoredColumn.ofFn? height (second · column) := by
    refine List.map_congr_left fun column columnInside => List.filterMap_congr fun row rowInside => ?_
    exact congrArg (Option.map (row, ·))
      (agree row (List.mem_range.mp rowInside) column (List.mem_range.mp columnInside))
  simp only [ofFn?, columns]

omit [Scalar α] in
theorem append?_columnRange {height width cut : Nat} (item? : Nat → Nat → Option α)
    (inside : cut ≤ width) :
    ((ofFn? height width item?).columnRange 0 cut).append?
        ((ofFn? height width item?).columnRange cut (width - cut)) =
      some (ofFn? height width item?) := by
  have total : cut + (width - cut) = width := by omega
  unfold append? columnRange
  simp only [height_ofFn?, width_ofFn?, if_true, total]
  refine congrArg some (ofFn?_congr ?_)
  intro row rowInside column columnInside
  by_cases before : column < cut
  · rw [if_pos before, get?_ofFn? _ rowInside before, Nat.zero_add,
      get?_ofFn? _ rowInside columnInside]
  · rw [if_neg before, get?_ofFn? _ rowInside (by omega), Nat.add_sub_cancel' (not_lt.mp before),
      get?_ofFn? _ rowInside columnInside]

end SparseMatrix

namespace Matrix

@[simp] theorem shape_stored (matrix : Matrix α) (asSparse : Bool) :
    (matrix.stored asSparse).shape = matrix.shape := by
  cases asSparse <;> cases matrix <;>
    simp [stored, shape, toDense, toSparse, height, width, SparseMatrix.toDense,
      SparseMatrix.ofDense]

@[simp] theorem width_stored (matrix : Matrix α) (asSparse : Bool) :
    (matrix.stored asSparse).width = matrix.width := by
  have same := matrix.shape_stored asSparse
  unfold shape at same
  exact (List.cons.inj (List.cons.inj same).2).1

@[simp] theorem isSparse_stored (matrix : Matrix α) (asSparse : Bool) :
    (matrix.stored asSparse).isSparse = asSparse := by
  cases asSparse <;> rfl

theorem shape_columnRange (matrix : Matrix α) (start count : Nat) :
    (matrix.columnRange start count).shape = [matrix.height, count] := by
  cases matrix <;>
    simp [columnRange, shape, height, width, DenseMatrix.columnRange, SparseMatrix.columnRange]

theorem isSparse_columnRange (matrix : Matrix α) (start count : Nat) :
    (matrix.columnRange start count).isSparse = matrix.isSparse := by
  cases matrix <;> rfl

/-- The columns before a cut and those from it on, side by side, are all columns. -/
theorem append?_cut (jacobian : DenseMatrix α) (asSparse : Bool) (cut : Nat)
    (inside : cut ≤ jacobian.width) :
    (((dense jacobian).stored asSparse).columnRange 0 cut).append?
        (((dense jacobian).stored asSparse).columnRange cut (jacobian.width - cut)) =
      some ((dense jacobian).stored asSparse) := by
  cases asSparse with
  | false => exact congrArg (Option.map dense) (jacobian.append?_columnRange inside)
  | true => exact congrArg (Option.map sparse) (SparseMatrix.append?_columnRange _ inside)

end Matrix

end Cutting

namespace Difference

section Blocks

variable [Scalar α] {residuals : Vec α → Call σ α (View σ α)} {scale : α} {point : Vec α}

omit [Scalar α] in
theorem length_of_mapM {ι β : Type} {call : ι → Call σ α β} {items : List ι} {before after : σ}
    {values : List β} (ran : (items.mapM call).run before = (.ok values, after)) :
    values.length = items.length := by
  induction items generalizing before values with
  | nil =>
      cases ran
      rfl
  | cons item items previous =>
      rw [List.mapM_cons] at ran
      rcases first : (call item).run before with ⟨fault | value, middle⟩
      · rw [Call.run_bind_error first] at ran
        cases ran
      rw [Call.run_bind_ok first] at ran
      rcases rest : (items.mapM call).run middle with ⟨fault | others, last⟩
      · rw [Call.run_bind_error rest] at ran
        cases ran
      rw [Call.run_bind_ok rest] at ran
      cases ran
      exact congrArg Nat.succ (previous rest)

/-- A Jacobian by forward differences has a column for each parameter. -/
theorem width_of_forwardJacobian {before after : σ} {jacobian : DenseMatrix α}
    (ran : (forwardJacobian residuals scale point).run before = (.ok jacobian, after)) :
    jacobian.width = point.length := by
  rcases here : (residuals point).run before with ⟨fault | view, middle⟩
  · cases (Call.run_bind_error here).symm.trans ran
  rw [forwardJacobian_run_ok here] at ran
  rcases found : ((List.range point.length).mapM fun position =>
      forwardColumn residuals scale (view.entries point middle).length view
        (point.getD position 0.0) (moved scale point position)).run middle with
    ⟨fault | columns, last⟩
  · cases (Call.run_bind_error found).symm.trans ran
  · cases (Call.run_bind_ok found).symm.trans ran
    exact (length_of_mapM found).trans List.length_range

theorem whole_run {before after : σ} {ending : Except (Fault α) (DenseMatrix α)}
    (ran : (forwardJacobian residuals scale point).run before = (ending, after))
    (asSparse : Bool) :
    (whole residuals scale asSparse point).run before =
      (ending.map fun jacobian => .whole (.matrix ((Matrix.dense jacobian).stored asSparse)),
        after) := by
  unfold whole
  exact Call.run_bind_return ran _

theorem split_run_error {before after : σ} {fault : Fault α}
    (ran : (forwardJacobian residuals scale point).run before = (.error fault, after))
    (asSparse : Bool) (position : Int) :
    (split residuals scale asSparse position point).run before = (.error fault, after) :=
  Call.run_bind_error ran

theorem split_run_ok {before after : σ} {jacobian : DenseMatrix α}
    (ran : (forwardJacobian residuals scale point).run before = (.ok jacobian, after))
    (asSparse : Bool) (position : Int) :
    (split residuals scale asSparse position point).run before =
      ((splitColumns ((Matrix.dense jacobian).stored asSparse) position).map fun (left, right) =>
        .split (.matrix left) (.matrix right), after) := by
  unfold split
  rw [Call.run_bind_ok ran]
  cases splitColumns ((Matrix.dense jacobian).stored asSparse) position <;> rfl

theorem joined_run {function : Vec α → Call σ α (Derivative α)} {before after : σ}
    {left right jacobian : Matrix α}
    (found : (function point).run before = (.ok (.split (.matrix left) (.matrix right)), after))
    (appended : left.append? right = some jacobian) :
    (joined function point).run before = (.ok (.whole (.matrix jacobian)), after) := by
  have taken : (Call.ofExcept (Derivative.split (.matrix left) (.matrix right)).blocks :
      Call σ α (Operand α × Operand α)).run after = (.ok (.matrix left, .matrix right), after) := rfl
  unfold joined
  refine (Call.run_bind_ok found).trans ((Call.run_bind_ok taken).trans ?_)
  exact Call.run_bind_return (congrArg (fun joined? => (Fault.fit joined?, after)) appended) _

/-- At every point of this size the residual function answers with so many residuals, whichever
memory they share. -/
def AnswersWith (residuals : Vec α → Call σ α (View σ α)) (size count : Nat) : Prop :=
  ∀ x : Vec α, x.length = size → ∀ before, ∃ view after,
    (residuals x).run before = (.ok view, after) ∧
      ∀ (array : Vec α) (world : σ), array.length = size →
        (view.entries array world).length = count

omit [Scalar α] in
theorem exists_mapM {ι β : Type} {call : ι → Call σ α β}
    (each : ∀ item before, ∃ value after, (call item).run before = (.ok value, after))
    (items : List ι) (before : σ) :
    ∃ values after, (items.mapM call).run before = (.ok values, after) := by
  induction items generalizing before with
  | nil => exact ⟨[], before, rfl⟩
  | cons item items previous =>
      obtain ⟨value, middle, first⟩ := each item before
      obtain ⟨others, after, rest⟩ := previous middle
      refine ⟨value :: others, after, ?_⟩
      rw [List.mapM_cons, Call.run_bind_ok first, Call.run_bind_ok rest]
      rfl

theorem AnswersWith.exists_forwardColumn {size count : Nat}
    (answers : AnswersWith residuals size count) {array : Vec α} (fits : array.length = size)
    {here : View σ α} (hereSize : ∀ world, (here.entries array world).length = count)
    (scale parameter : α) (before : σ) : ∃ column after,
      (forwardColumn residuals scale count here parameter array).run before =
        (.ok column, after) := by
  obtain ⟨ahead, after, ran, aheadSize⟩ := answers array fits before
  have level : (ahead.entries array after).length = (here.entries array after).length :=
    (aheadSize array after fits).trans (hereSize after).symm
  unfold forwardColumn
  rw [Call.run_bind_ok ran, Call.run_bind_ok (ahead.run_read array after),
    Call.run_bind_ok (here.run_read array after), Tensor.flatten, Tensor.flatten,
    Vec.combine?_of_length_eq _ level]
  refine ⟨_, after, congrArg (fun found? => (Fault.fit found?, after))
    (if_pos (?_ : List.length (_ : Vec α) = count))⟩
  rw [List.length_map, List.length_zipWith, level, Nat.min_self, hereSize]

/-- Where the residual function always answers, and with as many residuals, there is a Jacobian by
forward differences. -/
theorem AnswersWith.exists_forwardJacobian {count : Nat}
    (answers : AnswersWith residuals point.length count) (scale : α) (before : σ) :
    ∃ jacobian after, (forwardJacobian residuals scale point).run before = (.ok jacobian, after) ∧
      jacobian.height = count := by
  obtain ⟨here, middle, ran, size⟩ := answers point rfl before
  have column (position : Nat) (before : σ) : ∃ column after,
      (forwardColumn residuals scale count here (point.getD position 0.0)
        (moved scale point position)).run before = (.ok column, after) :=
    answers.exists_forwardColumn List.length_set
      (fun world => size (moved scale point position) world List.length_set) scale _ before
  obtain ⟨columns, after, found⟩ := exists_mapM column (List.range point.length) middle
  refine ⟨DenseMatrix.ofColumns count columns, after, ?_, DenseMatrix.height_ofFn _ _ _⟩
  rw [forwardJacobian_run_ok ran, size point middle rfl]
  exact Call.run_bind_ok found

/-! ## The Jacobian in two blocks -/

variable {asSparse : Bool} {position : Int}

/-- The blocks of a Jacobian that was found in one piece: together they have its columns, each has
its storage, and side by side they are that Jacobian. -/
structure Rejoins (residuals : Vec α → Call σ α (View σ α)) (scale : α) (asSparse : Bool)
    (position : Int) (point : Vec α) (before after : σ) (jacobian left right : Matrix α) : Prop where
  found : (split residuals scale asSparse position point).run before =
    (.ok (.split (.matrix left) (.matrix right)), after)
  leftShape : left.shape = [jacobian.height, position.toNat]
  rightShape : right.shape = [jacobian.height, point.length - position.toNat]
  leftStorage : left.isSparse = asSparse
  rightStorage : right.isSparse = asSparse
  rejoined : (joined (split residuals scale asSparse position) point).run before =
    (.ok (.whole (.matrix jacobian)), after)

/-- A Jacobian in one piece is a stored one by forward differences. -/
theorem of_whole_run {before after : σ} {found : Derivative α}
    (ran : (whole residuals scale asSparse point).run before = (.ok found, after)) :
    ∃ jacobian : DenseMatrix α,
      (forwardJacobian residuals scale point).run before = (.ok jacobian, after) ∧
        found = .whole (.matrix ((Matrix.dense jacobian).stored asSparse)) ∧
          jacobian.width = point.length := by
  rcases forward : (forwardJacobian residuals scale point).run before with ⟨fault | jacobian, last⟩
  all_goals
    rw [whole_run forward] at ran
    cases ran
  exact ⟨jacobian, rfl, rfl, width_of_forwardJacobian forward⟩

theorem split_run_of_error {before after : σ} {fault : Fault α}
    (ran : (whole residuals scale asSparse point).run before = (.error fault, after)) :
    (split residuals scale asSparse position point).run before = (.error fault, after) := by
  rcases forward : (forwardJacobian residuals scale point).run before with ⟨_ | jacobian, last⟩
  all_goals
    rw [whole_run forward] at ran
    cases ran
  exact split_run_error forward asSparse position

section Found

variable {before after : σ} {jacobian : DenseMatrix α}

theorem splitColumns_outside (outside : position < 0 ∨ (point.length : Int) < position)
    (width : jacobian.width = point.length) :
    splitColumns ((Matrix.dense jacobian).stored asSparse) position =
      .error (.refused (.splitPosition position point.length)) := by
  unfold splitColumns
  rw [Matrix.width_stored, Matrix.width, width, if_pos outside]

theorem splitColumns_inside (least : 0 ≤ position) (most : position ≤ (point.length : Int))
    (width : jacobian.width = point.length) :
    splitColumns ((Matrix.dense jacobian).stored asSparse) position =
      .ok (((Matrix.dense jacobian).stored asSparse).columnRange 0 position.toNat,
        ((Matrix.dense jacobian).stored asSparse).columnRange position.toNat
          (point.length - position.toNat)) := by
  have cut : cutPosition point.length position = position.toNat := by
    obtain ⟨cut, rfl⟩ := Int.eq_ofNat_of_zero_le least
    exact Exact.cutPosition_natCast (by omega)
  unfold splitColumns Matrix.cutColumns
  rw [Matrix.width_stored, Matrix.width, width, if_neg (by omega), cut]

theorem rejoins_of_run
    (ran : (forwardJacobian residuals scale point).run before = (.ok jacobian, after))
    (asSparse : Bool) (least : 0 ≤ position) (most : position ≤ (point.length : Int)) :
    ∃ left right, Rejoins residuals scale asSparse position point before after
      ((Matrix.dense jacobian).stored asSparse) left right := by
  have width := width_of_forwardJacobian ran
  have found := split_run_ok ran asSparse position
  rw [splitColumns_inside least most width] at found
  have appended := Matrix.append?_cut jacobian asSparse position.toNat (by omega)
  rw [width] at appended
  refine ⟨_, _, found, Matrix.shape_columnRange _ _ _, Matrix.shape_columnRange _ _ _, ?_, ?_, ?_⟩
  · rw [Matrix.isSparse_columnRange, Matrix.isSparse_stored]
  · rw [Matrix.isSparse_columnRange, Matrix.isSparse_stored]
  · exact joined_run found appended

theorem split_refused_iff
    (ran : (forwardJacobian residuals scale point).run before = (.ok jacobian, after)) :
    (split residuals scale asSparse position point).run before =
        (.error (.refused (.splitPosition position point.length)), after) ↔
      position < 0 ∨ (point.length : Int) < position := by
  constructor
  · intro refused
    by_contra inside
    obtain ⟨_, _, blocks⟩ := rejoins_of_run ran asSparse (not_lt.mp fun below => inside (.inl below))
      (not_lt.mp fun above => inside (.inr above))
    cases blocks.found.symm.trans refused
  · intro outside
    rw [split_run_ok ran, splitColumns_outside outside (width_of_forwardJacobian ran)]
    rfl

end Found

end Blocks

section Exact

variable {residuals : Vec ℝ → Call σ ℝ (View σ ℝ)} {scale : ℝ} {asSparse : Bool} {position : Int}
  {point : Vec ℝ}

theorem represents_cut {height first second width : Nat} {found : Matrix ℝ}
    {matrix : RealMatrix height width} (size : first + second = width)
    (represents : found.Represents matrix) :
    (found.columnRange 0 first).Represents (leftColumns size matrix) ∧
      (found.columnRange first second).Represents (rightColumns size matrix) := by
  subst size
  have cut : cutPosition found.width first = first :=
    Exact.cutPosition_natCast (represents.width ▸ Nat.le_add_right first second)
  have rest : found.width - first = second := by rw [represents.width, Nat.add_sub_cancel_left]
  have parts := represents.cutColumns
  unfold Matrix.cutColumns at parts
  rw [cut] at parts
  dsimp only at parts
  rwa [rest] at parts

/-- In exact arithmetic, the gradient from the blocks is the product of the transposed Jacobian and
the slopes. -/
theorem exists_gradient {before after : σ} {jacobian : Matrix ℝ}
    (ran : (whole residuals scale asSparse point).run before =
      (.ok (.whole (.matrix jacobian)), after))
    (least : 0 ≤ position) (most : position ≤ (point.length : Int)) :
    ∃ (left right : Matrix ℝ) (matrix : RealMatrix jacobian.height point.length),
      (split residuals scale asSparse position point).run before =
        (.ok (.split (.matrix left) (.matrix right)), after) ∧
      jacobian.Represents matrix ∧
        ∀ slopes : Fin jacobian.height → ℝ,
          SplitNormal.gradient (.matrix left) (.matrix right) (List.ofFn slopes) none =
            .ok (List.ofFn (matrixᵀ *ᵥ slopes)) := by
  obtain ⟨dense, forward, same, width⟩ := of_whole_run ran
  cases same
  obtain ⟨matrix, represents⟩ :=
    ((Matrix.dense dense).stored asSparse).exists_represents rfl
      (((Matrix.dense dense).width_stored asSparse).trans width)
  have size : position.toNat + (point.length - position.toNat) = point.length := by omega
  obtain ⟨left, right⟩ := represents_cut size represents
  have found := split_run_ok forward asSparse position
  rw [splitColumns_inside least most width] at found
  refine ⟨_, _, matrix, found, represents, fun slopes => ?_⟩
  have first : Operand.Represents (.matrix _) _ := ⟨_, rfl, left⟩
  have second : Operand.Represents (.matrix _) _ := ⟨_, rfl, right⟩
  rw [SplitNormal.gradient_none first.width second.width, size]
  exact SplitNormal.gradient_eq size first second slopes

end Exact

/-- Differences in two blocks refuse the positions outside, and no others; the blocks of any other
one are the Jacobian in one piece, cut there. In exact arithmetic they have its gradient. -/
theorem split_rejoins :
    (∀ {σ α : Type} [Scalar α] (residuals : Vec α → Call σ α (View σ α)) (scale : α)
      (asSparse : Bool) (position : Int) (point : Vec α) (before : σ),
      (∀ count, AnswersWith residuals point.length count → ∃ jacobian after,
        (whole residuals scale asSparse point).run before =
          (.ok (.whole (.matrix jacobian)), after) ∧ jacobian.shape = [count, point.length]) ∧
      (∀ fault after, (whole residuals scale asSparse point).run before = (.error fault, after) →
        (split residuals scale asSparse position point).run before = (.error fault, after)) ∧
      ∀ found after, (whole residuals scale asSparse point).run before = (.ok found, after) →
        ∃ jacobian, found = .whole (.matrix jacobian) ∧
          ((split residuals scale asSparse position point).run before =
              (.error (.refused (.splitPosition position point.length)), after) ↔
            position < 0 ∨ (point.length : Int) < position) ∧
          (0 ≤ position → position ≤ (point.length : Int) → ∃ left right,
            Rejoins residuals scale asSparse position point before after jacobian left right)) ∧
    ∀ {σ : Type} (residuals : Vec ℝ → Call σ ℝ (View σ ℝ)) (scale : ℝ) (asSparse : Bool)
      (position : Int) (point : Vec ℝ) (before after : σ) (jacobian : Matrix ℝ),
      (whole residuals scale asSparse point).run before =
        (.ok (.whole (.matrix jacobian)), after) →
      0 ≤ position → position ≤ (point.length : Int) →
      ∃ (left right : Matrix ℝ) (matrix : RealMatrix jacobian.height point.length),
        (split residuals scale asSparse position point).run before =
          (.ok (.split (.matrix left) (.matrix right)), after) ∧
        jacobian.Represents matrix ∧
          ∀ slopes : Fin jacobian.height → ℝ,
            SplitNormal.gradient (.matrix left) (.matrix right) (List.ofFn slopes) none =
              .ok (List.ofFn (matrixᵀ *ᵥ slopes)) := by
  refine ⟨fun residuals scale asSparse position point before => ⟨?_, ?_, ?_⟩, ?_⟩
  · intro count answers
    obtain ⟨jacobian, after, ran, height⟩ := answers.exists_forwardJacobian scale before
    refine ⟨_, after, whole_run ran asSparse, ?_⟩
    rw [Matrix.shape_stored, ← height, ← width_of_forwardJacobian ran]
    rfl
  · exact fun fault after => split_run_of_error
  · intro found after ran
    obtain ⟨jacobian, forward, rfl, width⟩ := of_whole_run ran
    exact ⟨_, rfl, split_refused_iff forward, rejoins_of_run forward asSparse⟩
  · intro σ residuals scale asSparse position point before after jacobian ran least most
    exact exists_gradient ran least most

/-- The product of two parameters, and the second of them. -/
def productResiduals {α : Type} [Scalar α] (x : Vec α) : Call Unit α (View Unit α) :=
  pure (.fresh (.vector [x.getD 0 0.0 * x.getD 1 0.0, x.getD 1 0.0]))

def productPoint {α : Type} [Scalar α] : Vec α := [1.0, 2.0]

/-- Before the first parameter there is no position, and behind the last one there is one. -/
theorem split_rejoins_of_product :
    ∃ jacobian : Matrix ℝ,
      (whole productResiduals standardScale true productPoint).run () =
        (.ok (.whole (.matrix jacobian)), ()) ∧
      jacobian.shape = [2, 2] ∧
      (split productResiduals standardScale true (-1) (productPoint : Vec ℝ)).run () =
        (.error (.refused (.splitPosition (-1) 2)), ()) ∧
      (∃ left right,
        Rejoins productResiduals standardScale true 2 productPoint () () jacobian left right) ∧
      ∃ (left right : Matrix ℝ) (matrix : RealMatrix jacobian.height 2),
        (split productResiduals standardScale true 1 productPoint).run () =
          (.ok (.split (.matrix left) (.matrix right)), ()) ∧
        jacobian.Represents matrix ∧
          ∀ slopes : Fin jacobian.height → ℝ,
            SplitNormal.gradient (.matrix left) (.matrix right) (List.ofFn slopes) none =
              .ok (List.ofFn (matrixᵀ *ᵥ slopes)) := by
  have two : (productPoint : Vec ℝ).length = 2 := rfl
  obtain ⟨anyScalar, exact⟩ := split_rejoins
  obtain ⟨exists_whole, _, below⟩ :=
    anyScalar productResiduals (standardScale : ℝ) true (-1) productPoint ()
  obtain ⟨_, _, atEnd⟩ := anyScalar productResiduals (standardScale : ℝ) true 2 productPoint ()
  obtain ⟨jacobian, ⟨⟩, ran, shape⟩ := exists_whole 2 fun x _ before => ⟨_, before, rfl, fun _ _ _ => rfl⟩
  obtain ⟨_, _, refused, _⟩ := below _ _ ran
  obtain ⟨_, same, _, inside⟩ := atEnd _ _ ran
  cases same
  have last : (2 : Int) ≤ (productPoint : Vec ℝ).length := by rw [two]; rfl
  exact ⟨jacobian, ran, shape, refused.mpr (.inl (by decide)), inside (by decide) last,
    exact productResiduals standardScale true 1 productPoint () () jacobian ran (by decide)
      (by omega)⟩

end Difference

end DampedLeastSquares
