import Mathlib.Data.List.FinRange
import DampedLeastSquares.Difference
import DampedLeastSquares.Proofs.Action
import DampedLeastSquares.Proofs.Faults

/-!
# Where differences call the residual function

Nothing but calls of the residual function changes the caller's state. So what a computation
makes of that state tells at which points it called, and in which order: differences along a
direction call ahead and behind, and a Jacobian calls for one column after the other.
-/

set_option autoImplicit false

namespace DampedLeastSquares

namespace Difference

variable {σ α β γ : Type} {residuals : Vec α → Call σ α (View σ α)}

/-- The caller's state once the residual function was called at these points, in order. -/
def calledAt (residuals : Vec α → Call σ α (View σ α)) (points : List (Vec α)) (before : σ) : σ :=
  points.foldl (fun world x => ((residuals x).run world).2) before

/-- From every state the computation comes to the value, and calls the residual function at these
points on the way, in order. -/
def Asks (residuals : Vec α → Call σ α (View σ α)) (call : Call σ α β) (points : List (Vec α))
    (value : β) : Prop :=
  ∀ before, call.run before = (.ok value, calledAt residuals points before)

/-- At the point the residual function answers, from every state, with a tensor of this kind, in an
array that nothing else writes to. -/
def Replies (residuals : Vec α → Call σ α (View σ α)) (x : Vec α) (kind : Tensor α → Prop) :
    Prop :=
  ∀ before, ∃ answer after, (residuals x).run before = (.ok (.fresh answer), after) ∧ kind answer

/-! ## Rules -/

section Rules

variable {points more : List (Vec α)} {value : γ} {result : β}

theorem asks_pure (result : β) : Asks residuals (pure result) [] result := fun _ => rfl

theorem asks_ofExcept {found : Except (Fault α) β} (success : found = .ok result) :
    Asks residuals (Call.ofExcept found) [] result := by
  intro before
  rw [success]
  rfl

theorem asks_fit {found? : Option β} (fits : found? = some result) :
    Asks residuals (Call.fit found?) [] result :=
  asks_ofExcept (congrArg Fault.fit fits)

theorem asks_bind {first : Call σ α γ} {next : γ → Call σ α β}
    (start : Asks residuals first points value) (rest : Asks residuals (next value) more result) :
    Asks residuals (first >>= next) (points ++ more) result := by
  intro before
  rw [Call.run_bind_ok (start before), rest, calledAt, calledAt, calledAt, List.foldl_append]

/-- What comes of a value without a call takes no further points. -/
theorem asks_bind_nothing {first : Call σ α γ} {next : γ → Call σ α β}
    (start : Asks residuals first points value) (rest : Asks residuals (next value) [] result) :
    Asks residuals (first >>= next) points result := by
  have asks := asks_bind start rest
  rwa [List.append_nil] at asks

/-- After a call, the computation goes on with the answer. -/
theorem asks_call {x : Vec α} {kind : Tensor α → Prop} {next : View σ α → Call σ α β}
    (replies : Replies residuals x kind)
    (rest : ∀ answer, kind answer → Asks residuals (next (.fresh answer)) more result) :
    Asks residuals (residuals x >>= next) (x :: more) result := by
  intro before
  obtain ⟨answer, after, ran, known⟩ := replies before
  rw [Call.run_bind_ok ran, rest answer known, calledAt, calledAt, List.foldl_cons, ran]

/-- What is read from such an answer is the answer, whatever was called in between. -/
theorem asks_read {answer : Tensor α} {array : Vec α} {next : Tensor α → Call σ α β}
    (rest : Asks residuals (next answer) points result) :
    Asks residuals ((View.fresh answer).read array >>= next) points result := by
  rw [View.read_fresh, pure_bind]
  exact rest

theorem asks_mapM {ι : Type} {call : ι → Call σ α γ} {asked : ι → List (Vec α)} {found : ι → γ}
    (items : List ι) (each : ∀ item ∈ items, Asks residuals (call item) (asked item) (found item)) :
    Asks residuals (items.mapM call) (items.flatMap asked) (items.map found) := by
  induction items with
  | nil => exact asks_pure []
  | cons item items previous =>
      rw [List.forall_mem_cons] at each
      rw [List.mapM_cons, List.flatMap_cons]
      exact asks_bind each.1 (asks_bind_nothing (previous each.2) (asks_pure _))

theorem asks_range {width : Nat} {call : Nat → Call σ α γ} {asked : Fin width → List (Vec α)}
    {found : Fin width → γ}
    (each : ∀ position : Fin width,
      Asks residuals (call position) (asked position) (found position)) :
    Asks residuals ((List.range width).mapM call) ((List.finRange width).flatMap asked)
      (List.ofFn found) := by
  rw [← List.map_coe_finRange_eq_range, List.mapM_map, List.ofFn_eq_map]
  exact asks_mapM _ fun position _ => each position

end Rules

/-! ## Vectors of answers -/

/-- A vector has the extents it is stretched to. -/
theorem broadcastTo?_vector (entries : Vec α) :
    (Tensor.vector entries).broadcastTo? [entries.length] = some (.vector entries) := by
  have chunks : Tensor.chunks entries.length 1 entries = entries.map fun entry => [entry] := by
    unfold Tensor.chunks
    apply List.ext_getElem
    · simp
    · intro index inside _
      have bound : index < entries.length := by simpa using inside
      rw [List.getElem_map, List.getElem_map, List.getElem_range, Nat.mul_one,
        List.drop_eq_getElem_cons bound]
      rfl
  have pieces (entries : List α) : (entries.map fun entry => [entry]).mapM
      (Tensor.stretch? [] []) = some (entries.map fun entry => [entry]) := by
    induction entries with
    | nil => rfl
    | cons first rest previous =>
        rw [List.map_cons, List.mapM_cons, previous]
        rfl
  have whole : (entries.map fun entry => [entry]).flatten = entries := by
    simp [← List.flatMap_def]
  have stretched : Tensor.stretch? [entries.length] [entries.length] entries = some entries := by
    unfold Tensor.stretch?
    change ((Tensor.chunks entries.length 1 entries).mapM (Tensor.stretch? [] [])).bind _ = _
    rw [chunks, pieces, Option.bind_some, if_pos rfl, whole]
  exact congrArg (Option.map fun data => (⟨[entries.length], data⟩ : Tensor α)) stretched

theorem combine?_vector {left right : Vec α} (size : left.length = right.length)
    (operation : α → α → β) :
    Tensor.combine? operation (.vector left) (.vector right) =
      some (.vector (List.zipWith operation left right)) := by
  have shape : Tensor.commonShape? (Tensor.vector left).shape (Tensor.vector right).shape =
      some [right.length] := by
    simp [Tensor.commonShape?, Tensor.padShape, Tensor.vector, size]
  have first := broadcastTo?_vector left
  rw [size] at first
  unfold Tensor.combine?
  rw [shape, Option.bind_eq_bind, Option.bind_some, first, Option.bind_eq_bind,
    Option.bind_some, broadcastTo?_vector, Option.bind_some]
  simp [Tensor.vector, size]

/-! ## Differences along a direction -/

section Differences

variable [Scalar α] {point direction : Vec α}

theorem asks_quotient (change : Vec α) (step : α) :
    Asks residuals (quotient (.vector change) step) [] (.vector (change.map (· / step))) := by
  have axis : ¬ ((Tensor.vector change).shape.isEmpty = true ∧ (step == 0.0) = true) := by
    rintro ⟨none, _⟩
    cases none
  have divided : (Tensor.vector change).map (· / step) = .vector (change.map (· / step)) := by
    simp [Tensor.map, Tensor.vector]
  unfold quotient
  rw [if_neg axis, divided]
  exact asks_pure _

theorem asks_central {step : α} {first second ahead behind : Vec α}
    (onward : Vec.combine? (· + ·) point (direction.map (step * ·)) = some first)
    (backward : Vec.combine? (· - ·) point (direction.map (step * ·)) = some second)
    (repliesAhead : Replies residuals first (· = .vector ahead))
    (repliesBehind : Replies residuals second (· = .vector behind))
    (size : ahead.length = behind.length) :
    Asks residuals (central residuals point direction step) [first, second]
      (.vector ((List.zipWith (· - ·) ahead behind).map (· / (2.0 * step)))) := by
  unfold central
  refine asks_bind (asks_fit onward) (asks_call repliesAhead ?_)
  rintro _ rfl
  refine asks_bind (asks_fit backward) (asks_call repliesBehind ?_)
  rintro _ rfl
  refine asks_read (asks_read ?_)
  exact asks_bind (asks_fit (combine?_vector size _)) (asks_quotient _ _)

/-! ## Jacobians -/

theorem ofColumns_ofFn {height width : Nat} {column : Fin width → Vec α} (some : 0 < width)
    (level : ∀ position, (column position).length = height) :
    ofColumns (List.ofFn column) = .ok (DenseMatrix.ofColumns height (List.ofFn column)) := by
  cases width with
  | zero => cases some
  | succ count =>
      have even : (List.ofFn fun position => column (Fin.succ position)).all
          (·.length == (column 0).length) = true := by
        simp [level]
      rw [List.ofFn_succ]
      unfold ofColumns
      dsimp only
      rw [if_pos even, level]

/-- As each entry is put back, every visit finds the array as it was, but for its own entry. -/
theorem inTurn_eq_mapM (change : α → α) (visit : α → Vec α → Call σ α β) (positions : List Nat)
    (array : Vec α) :
    inTurn change visit positions array = positions.mapM fun position =>
      visit (array.getD position 0.0) (array.set position (change (array.getD position 0.0))) := by
  induction positions with
  | nil => rfl
  | cons position rest previous =>
      have restored : (array.set position (change (array.getD position 0.0))).set position
          (array.getD position 0.0) = array := by
        rw [List.set_set]
        apply List.ext_getElem
        · simp
        · intro index _ inside
          by_cases same : position = index
          · subst same
            simp [List.getD, inside]
          · simp [List.getElem_set_ne same]
      unfold inTurn
      dsimp only
      rw [restored, previous, List.mapM_cons]

/-- A Jacobian along the unit vectors asks what its columns ask, one after the other. -/
theorem asks_alongUnits {derivative : Vec α → Vec α → Call σ α (Tensor α)} {width height : Nat}
    {asked : Fin width → List (Vec α)} {column : Fin width → Vec α} (size : point.length = width)
    (some : 0 < width)
    (each : ∀ position : Fin width,
      Asks residuals (derivative point ((Vec.zeros width).set position 1.0)) (asked position)
        (.vector (column position)))
    (level : ∀ position, (column position).length = height) :
    Asks residuals (alongUnits derivative point) ((List.finRange width).flatMap asked)
      (DenseMatrix.ofColumns height (List.ofFn column)) := by
  unfold alongUnits
  rw [size, inTurn_eq_mapM]
  refine asks_bind_nothing ?_ (asks_ofExcept (ofColumns_ofFn some level))
  refine asks_range fun position => ?_
  exact asks_bind_nothing (each position) (asks_pure _)

/-- The point with one parameter moved by its step. -/
def moved (scale : α) (point : Vec α) (position : Nat) : Vec α :=
  point.set position (stepped scale (point.getD position 0.0))

/-- The change of residuals over the step of one parameter, divided by the step. -/
def changeOver (scale : α) (point ahead here : Vec α) (position : Nat) : Vec α :=
  (List.zipWith (· - ·) ahead here).map (· / relativeStep scale (point.getD position 0.0))

/-- Once there is an answer at the point, the columns are found one after the other, each with its
own parameter moved. -/
theorem forwardJacobian_run_ok {here : View σ α} {before after : σ}
    (ran : (residuals point).run before = (.ok here, after)) (scale : α) :
    (forwardJacobian residuals scale point).run before = (do
      let columns ← (List.range point.length).mapM fun position =>
        forwardColumn residuals scale (here.entries point after).length here
          (point.getD position 0.0) (moved scale point position)
      return DenseMatrix.ofColumns (here.entries point after).length columns :
        Call σ α (DenseMatrix α)).run after := by
  unfold forwardJacobian
  rw [Call.run_bind_ok ran, Call.run_bind_ok (here.run_read point after)]
  dsimp only
  rw [inTurn_eq_mapM]
  rfl

theorem asks_forwardColumn {scale parameter : α} {array ahead : Vec α} {here : Tensor α}
    (replies : Replies residuals array (·.flatten = ahead))
    (size : ahead.length = here.flatten.length) :
    Asks residuals
      (forwardColumn residuals scale here.flatten.length (.fresh here) parameter array) [array]
      ((List.zipWith (· - ·) ahead here.flatten).map (· / relativeStep scale parameter)) := by
  unfold forwardColumn
  refine asks_call replies ?_
  rintro answer rfl
  refine asks_read (asks_read ?_)
  refine asks_bind (asks_fit (Vec.combine?_of_length_eq _ size)) (asks_fit ?_)
  refine Eq.trans (congrArg (Vec.fill? · _) ?_) (Vec.fill?_self _)
  simp [size]

/-- A Jacobian by forward differences asks at the point, and then with one parameter after the
other moved from there. -/
theorem asks_forwardJacobian {scale : α} {width : Nat} {here : Vec α} {ahead : Fin width → Vec α}
    (size : point.length = width) (repliesHere : Replies residuals point (·.flatten = here))
    (replies : ∀ position : Fin width,
      Replies residuals (moved scale point position) (·.flatten = ahead position))
    (sizes : ∀ position, (ahead position).length = here.length) :
    Asks residuals (forwardJacobian residuals scale point)
      (point :: (List.finRange width).map fun position : Fin width => moved scale point position)
      (DenseMatrix.ofColumns here.length (List.ofFn fun position =>
        changeOver scale point (ahead position) here position)) := by
  unfold forwardJacobian
  refine asks_call repliesHere ?_
  rintro answer rfl
  refine asks_read ?_
  dsimp only
  rw [size, inTurn_eq_mapM, List.map_eq_flatMap]
  refine asks_bind_nothing (asks_range fun position => ?_) (asks_pure _)
  exact asks_forwardColumn (replies position) (sizes position)

/-- The storage of the Jacobian changes nothing of what is asked. -/
theorem asks_whole {scale : α} {points : List (Vec α)} {jacobian : DenseMatrix α}
    (asks : Asks residuals (forwardJacobian residuals scale point) points jacobian)
    (asSparse : Bool) :
    Asks residuals (whole residuals scale asSparse point) points
      (.whole (.matrix ((Matrix.dense jacobian).stored asSparse))) := by
  unfold whole
  exact asks_bind_nothing asks (asks_pure _)

end Differences

end Difference

end DampedLeastSquares
