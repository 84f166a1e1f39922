import DampedLeastSquares.Difference
import DampedLeastSquares.Loss
import DampedLeastSquares.Proofs.Action
import DampedLeastSquares.Proofs.Exact.CheckedNormal

/-!
# Costs, slopes and differences of numbers

A loss divides by its threshold, or by the largest residual unless that is zero, and a forward
difference divides by a step that is never zero. What they make of numbers are numbers again.
-/

set_option autoImplicit false

namespace DampedLeastSquares

open Checked

variable {σ : Type}

/-! ## Calls -/

namespace Call

variable {β γ : Type}

/-- From every state of the caller, the call ends in a value that is good, or in a fault that is
no division by zero. -/
def Yields (good : β → Prop) (call : Call σ Checked β) : Prop :=
  ∀ world, DampedLeastSquares.Yields good (call.run world).1

variable {good : β → Prop}

theorem yields_pure {value : β} (holds : good value) :
    Yields good (pure value : Call σ Checked β) :=
  fun _ => holds

theorem yields_ofExcept {result : Except (Fault Checked) β}
    (yields : DampedLeastSquares.Yields good result) :
    Yields good (ofExcept result : Call σ Checked β) :=
  fun _ => yields

theorem yields_fit {found? : Option β} (total : ∀ value, found? = some value → good value) :
    Yields good (fit found? : Call σ Checked β) :=
  yields_ofExcept (DampedLeastSquares.yields_fit total)

theorem Yields.bind {first : Call σ Checked γ} {middle : γ → Prop} {next : γ → Call σ Checked β}
    (start : Yields middle first) (rest : ∀ value, middle value → Yields good (next value)) :
    Yields good (first >>= next) := by
  intro world
  have started := start world
  rcases ran : first.run world with ⟨fault | value, after⟩ <;> rw [ran] at started
  · rw [run_bind_error ran]
    exact started
  · rw [run_bind_ok ran]
    exact rest value started after

end Call

/-! ## Losses -/

/-- Thresholds are greater than zero, weights are numbers, and weights that are chosen stay so. -/
inductive LossShape.Defined : LossShape σ Checked → Prop where
  | squared : Defined .squared
  | huber {threshold : Checked} : 0.0 < threshold → Defined (.huber threshold)
  | smoothHuber {threshold : Checked} : 0.0 < threshold → Defined (.smoothHuber threshold)
  | cauchy {threshold : Checked} : 0.0 < threshold → Defined (.cauchy threshold)
  | tukey {threshold : Checked} : 0.0 < threshold → Defined (.tukey threshold)
  | weighted {weights : Vec Checked} : weights.Defined → Defined (.weighted weights)
  | reweighted {choose : Vec Checked → Vec Checked → Call σ Checked (Vec Checked)}
      {weights : Vec Checked} :
      (∀ residuals weights, residuals.Defined → weights.Defined →
        Call.Yields Vec.Defined (choose residuals weights)) →
      weights.Defined → Defined (.reweighted choose weights)
  | counted (times : Nat) : Defined (.counted times)
  | undefined : Defined .undefined

namespace Loss

def Defined (loss : Loss σ Checked) : Prop := loss.shape.Defined

variable {loss : Loss σ Checked} {residuals weights : Vec Checked} {threshold residual : Checked}

theorem defined_squared : (squared : Loss σ Checked).Defined := .squared

/-- Residuals are divided by the largest of them only where that is not zero. -/
theorem yields_halfSquare {scaled : Vec Checked → Option (Vec Checked)}
    (total : ∀ given found, given.Defined → scaled given = some found → found.Defined)
    (defined : residuals.Defined) : Yields Checked.Defined (halfSquare scaled residuals) := by
  have largest : (size residuals).Defined := by
    unfold size
    cases found : Vec.maxAbs? residuals with
    | none => exact defined_literal _ _ _
    | some value => exact defined.maxAbs? found
  unfold halfSquare
  dsimp only
  split
  · exact defined_literal _ _ _
  · next nonzero =>
      have reduced : Vec.Defined (residuals.map (· / size residuals)) :=
        defined.map fun entry entryDefined => defined_div.mpr ⟨entryDefined, largest, nonzero⟩
      refine yields_fit_bind (fun found made => total _ found reduced made)
        fun found foundDefined => ?_
      have square := foundDefined.dot foundDefined
      refine defined_mul.mpr ⟨defined_mul.mpr ⟨defined_mul.mpr ⟨?_, largest⟩, square⟩, largest⟩
      exact defined_literal _ _ _

theorem defined_weigh {given found : Vec Checked} (weightsDefined : weights.Defined)
    (defined : given.Defined) (made : Vec.combine? (· * ·) weights given = some found) :
    found.Defined :=
  weightsDefined.combine? defined (fun _ _ x y => defined_mul.mpr ⟨x, y⟩) made

theorem defined_sizes (defined : residuals.Defined) : Vec.Defined (residuals.map Scalar.abs) :=
  defined.map fun _ entry => defined_abs.mpr entry

theorem defined_huberCost (positive : 0.0 < threshold) (defined : residuals.Defined) :
    (huberCost threshold residuals).Defined := by
  have sizes := defined_sizes defined
  have bound := defined_of_pos positive
  refine defined_add.mpr ⟨Vec.Defined.sum ?_, Vec.Defined.sum ?_⟩
  · refine Vec.Defined.map (sizes.filter _) fun size sizeDefined => ?_
    exact defined_mul.mpr ⟨defined_literal _ _ _, defined_square.mpr sizeDefined⟩
  · refine Vec.Defined.map (sizes.filter _) fun size sizeDefined => ?_
    have half : (0.5 * threshold : Checked).Defined :=
      defined_mul.mpr ⟨defined_literal _ _ _, bound⟩
    exact defined_mul.mpr ⟨bound, defined_sub.mpr ⟨sizeDefined, half⟩⟩

theorem defined_smoothHuberCost (positive : 0.0 < threshold) (defined : residuals.Defined) :
    (smoothHuberCost threshold residuals).Defined := by
  have bound := defined_of_pos positive
  refine defined_mul.mpr ⟨defined_mul.mpr ⟨bound, bound⟩, Vec.Defined.sum ?_⟩
  refine defined.map fun residual residualDefined => ?_
  have inside := (residualDefined.div_pos positive).one_add_square
  exact defined_sub.mpr ⟨defined_of_pos (pos_sqrt inside), defined_literal _ _ _⟩

theorem defined_cauchyCost (positive : 0.0 < threshold) (defined : residuals.Defined) :
    (cauchyCost threshold residuals).Defined := by
  have bound := defined_of_pos positive
  refine defined_mul.mpr ⟨defined_mul.mpr ⟨bound, bound⟩, Vec.Defined.sum ?_⟩
  exact defined.map fun residual residualDefined =>
    (residualDefined.div_pos positive).logOnePlus_square

theorem defined_rest (positive : 0.0 < threshold) (defined : residual.Defined) :
    (1.0 - Scalar.square (residual / threshold)).Defined :=
  defined_sub.mpr ⟨defined_literal _ _ _, defined_square.mpr (defined.div_pos positive)⟩

theorem defined_tukeyCost (positive : 0.0 < threshold) (defined : residuals.Defined) :
    (tukeyCost threshold residuals).Defined := by
  have bound := defined_of_pos positive
  have six : (0.0 : Checked) < 6.0 := pos_iff.mpr ⟨6, by norm_num, literal_six⟩
  have factor : (threshold * threshold / 6.0).Defined :=
    (defined_mul.mpr ⟨bound, bound⟩).div_pos six
  refine defined_add.mpr ⟨defined_mul.mpr ⟨factor, Vec.Defined.sum ?_⟩,
    defined_mul.mpr ⟨factor, defined_ofNat _⟩⟩
  refine Vec.Defined.map ((defined_sizes defined).filter _) fun size sizeDefined => ?_
  have rest := defined_rest positive sizeDefined
  have cube : (Scalar.cube (1.0 - Scalar.square (size / threshold))).Defined :=
    defined_mul.mpr ⟨defined_mul.mpr ⟨rest, rest⟩, rest⟩
  exact defined_sub.mpr ⟨defined_literal _ _ _, cube⟩

/-- Of residuals that are numbers a loss has a cost that is a number, if it has one. -/
theorem Defined.cost (defined : loss.Defined) (residualsDefined : residuals.Defined) :
    Yields Checked.Defined (loss.cost residuals) := by
  obtain ⟨shape, functions⟩ := loss
  have same {given found : Vec Checked} (given_defined : given.Defined)
      (made : some given = some found) : found.Defined := Option.some.inj made ▸ given_defined
  cases defined with
  | squared => exact yields_halfSquare (fun _ _ => same) residualsDefined
  | counted times => exact yields_halfSquare (fun _ _ => same) residualsDefined
  | huber positive => exact defined_huberCost positive residualsDefined
  | smoothHuber positive => exact defined_smoothHuberCost positive residualsDefined
  | cauchy positive => exact defined_cauchyCost positive residualsDefined
  | tukey positive => exact defined_tukeyCost positive residualsDefined
  | weighted weights =>
      exact yields_halfSquare (fun _ _ => defined_weigh weights) residualsDefined
  | reweighted chooses weights =>
      exact yields_halfSquare (fun _ _ => defined_weigh weights) residualsDefined
  | undefined => exact nofun

theorem defined_huberSlope (positive : 0.0 < threshold) (defined : residual.Defined) :
    (huberSlope threshold residual).Defined := by
  have sign : (Scalar.sign residual).Defined := by
    unfold Scalar.sign
    split
    · exact defined_literal _ _ _
    split
    · exact defined_neg.mpr (defined_literal _ _ _)
    split
    · exact defined
    · exact defined_literal _ _ _
  unfold huberSlope
  split
  · exact defined
  · exact defined_mul.mpr ⟨defined_of_pos positive, sign⟩

theorem defined_smoothHuberSlope (positive : 0.0 < threshold) (defined : residual.Defined) :
    (smoothHuberSlope threshold residual).Defined :=
  defined.div_pos (pos_sqrt (defined.div_pos positive).one_add_square)

theorem defined_cauchySlope (positive : 0.0 < threshold) (defined : residual.Defined) :
    (cauchySlope threshold residual).Defined := by
  have doubled : (2.0 * residual : Checked).Defined :=
    defined_mul.mpr ⟨defined_literal _ _ _, defined⟩
  exact doubled.div_pos (defined.div_pos positive).one_add_square

theorem defined_tukeySlope (positive : 0.0 < threshold) (defined : residual.Defined) :
    (tukeySlope threshold residual).Defined := by
  have rest := defined_rest positive defined
  unfold tukeySlope
  dsimp only
  split
  · exact defined_mul.mpr ⟨defined_mul.mpr ⟨defined, rest⟩, rest⟩
  · exact defined_literal _ _ _

theorem yields_weightedSlopes (weightsDefined : weights.Defined) (defined : residuals.Defined) :
    Yields Vec.Defined (Fault.fit (weightedSlopes weights residuals) : Except (Fault Checked) _) :=
  yields_fit fun _ made => defined_weigh
    (weightsDefined.map fun _ weight => defined_mul.mpr ⟨weight, weight⟩) defined made

theorem Defined.gradient (defined : loss.Defined) (residualsDefined : residuals.Defined) :
    Yields Vec.Defined (loss.gradient residuals) := by
  obtain ⟨shape, functions⟩ := loss
  cases defined with
  | squared => exact residualsDefined
  | counted times => exact residualsDefined
  | huber positive => exact residualsDefined.map fun _ => defined_huberSlope positive
  | smoothHuber positive => exact residualsDefined.map fun _ => defined_smoothHuberSlope positive
  | cauchy positive => exact residualsDefined.map fun _ => defined_cauchySlope positive
  | tukey positive => exact residualsDefined.map fun _ => defined_tukeySlope positive
  | weighted weights => exact yields_weightedSlopes weights residualsDefined
  | reweighted chooses weights => exact yields_weightedSlopes weights residualsDefined
  | undefined => exact nofun

theorem Defined.gradientInto (defined : loss.Defined) (residualsDefined : residuals.Defined)
    (length : Nat) : Yields Vec.Defined (loss.gradientInto length residuals) :=
  (defined.gradient residualsDefined).bind fun _ slopes =>
    yields_fit fun _ filled => slopes.fill? filled

theorem Defined.prepare (defined : loss.Defined) (functions : Int) :
    Yields Defined (loss.prepare functions) := by
  obtain ⟨shape, previous⟩ := loss
  cases defined with
  | squared => exact .squared
  | counted times => exact .counted times
  | huber positive => exact .huber positive
  | smoothHuber positive => exact .smoothHuber positive
  | cauchy positive => exact .cauchy positive
  | tukey positive => exact .tukey positive
  | undefined => exact .undefined
  | weighted weights =>
      unfold Loss.prepare
      dsimp only
      split
      · exact .weighted weights
      · exact nofun
  | reweighted chooses weights =>
      unfold Loss.prepare
      dsimp only
      split
      · exact nofun
      · exact .reweighted chooses (Vec.positive_ones _).defined

theorem Defined.settle (defined : loss.Defined) (residualsDefined : residuals.Defined) :
    Call.Yields (fun settled => settled.1.Defined) (loss.settle residuals) := by
  obtain ⟨shape, functions⟩ := loss
  cases defined with
  | reweighted chooses weights =>
      refine (chooses residuals _ residualsDefined weights).bind fun found foundDefined => ?_
      exact Call.yields_pure (.reweighted chooses foundDefined)
  | squared => exact Call.yields_pure .squared
  | counted times => exact Call.yields_pure (.counted (times + 1))
  | huber positive => exact Call.yields_pure (.huber positive)
  | smoothHuber positive => exact Call.yields_pure (.smoothHuber positive)
  | cauchy positive => exact Call.yields_pure (.cauchy positive)
  | tukey positive => exact Call.yields_pure (.tukey positive)
  | weighted weights => exact Call.yields_pure (.weighted weights)
  | undefined => exact Call.yields_pure .undefined

end Loss

/-! ## Differences -/

/-- What is read from the answer are numbers, while numbers stand in the array that the function
was called with. -/
def View.Defined (view : View σ Checked) : Prop :=
  ∀ array world, array.Defined → Vec.Defined (view.entries array world)

theorem View.yields_read {view : View σ Checked} (defined : view.Defined) {array : Vec Checked}
    (arrayDefined : array.Defined) : Call.Yields Tensor.Defined (view.read array) :=
  fun world => defined array world arrayDefined

theorem View.yields_copied {residuals : Vec Checked → Call σ Checked (View σ Checked)}
    (answers : ∀ x, x.Defined → Call.Yields View.Defined (residuals x)) {x : Vec Checked}
    (defined : x.Defined) : Call.Yields Tensor.Defined (View.copied residuals x) :=
  (answers x defined).bind fun _ view => yields_read view defined

/-- At numbers the functions answer with numbers. -/
structure Problem.Defined (problem : Problem σ Checked) : Prop where
  residuals : ∀ x, x.Defined → Call.Yields Tensor.Defined (problem.residuals x)
  jacobian : ∀ x, x.Defined → Call.Yields Derivative.Defined (problem.jacobian x)

namespace Difference

variable {residuals : Vec Checked → Call σ Checked (View σ Checked)} {scale parameter : Checked}
  {point : Vec Checked} {here : View σ Checked}

theorem pos_standardScale : 0.0 < (standardScale : Checked) := by
  have positive : (0 : ℝ) < 1.490116119384765625e-8 := by norm_num
  exact pos_iff.mpr ⟨_, positive, rfl⟩

/-- In exact arithmetic nothing is lost of a step that is added to a parameter. -/
theorem exists_relativeStep (positive : 0.0 < scale) (defined : parameter.Defined) :
    ∃ step : ℝ, step ≠ 0 ∧ relativeStep scale parameter = number step := by
  obtain ⟨s, above, rfl⟩ := pos_iff.mp positive
  obtain ⟨p, rfl⟩ := defined
  by_cases zero : p = 0
  · refine ⟨s, above.ne', ?_⟩
    unfold relativeStep
    rw [if_pos (beq_zero_iff.mpr (congrArg number zero))]
    exact congrArg number (add_sub_cancel_left p s)
  · refine ⟨s * |p|, mul_ne_zero above.ne' (abs_ne_zero.mpr zero), ?_⟩
    have nonzero : ¬ (number p == 0.0) = true := fun same =>
      zero (number.inj (beq_zero_iff.mp same))
    unfold relativeStep
    rw [if_neg nonzero]
    exact congrArg number (add_sub_cancel_left p (s * |p|))

theorem Defined.div_relativeStep (positive : 0.0 < scale) (parameterDefined : parameter.Defined)
    {change : Checked} (defined : change.Defined) :
    (change / relativeStep scale parameter).Defined := by
  obtain ⟨step, nonzero, same⟩ := exists_relativeStep positive parameterDefined
  obtain ⟨x, rfl⟩ := defined
  rw [same, number_div nonzero]
  exact defined_number

theorem defined_stepped (positive : 0.0 < scale) (defined : parameter.Defined) :
    (stepped scale parameter).Defined := by
  have bound := defined_of_pos positive
  refine defined_add.mpr ⟨defined, ?_⟩
  split
  · exact bound
  · exact defined_mul.mpr ⟨bound, defined_abs.mpr defined⟩

/-- The array holds numbers at every visit, as it does at the first one. -/
theorem yields_inTurn {β : Type} {good : β → Prop} {change : Checked → Checked}
    {visit : Checked → Vec Checked → Call σ Checked β}
    (changes : ∀ entry, entry.Defined → (change entry).Defined)
    (visits : ∀ entry array, entry.Defined → array.Defined → Call.Yields good (visit entry array))
    (positions : List Nat) {array : Vec Checked} (defined : array.Defined) :
    Call.Yields (fun found => ∀ item ∈ found, good item)
      (inTurn change visit positions array) := by
  induction positions generalizing array with
  | nil => exact Call.yields_pure nofun
  | cons position rest previous =>
      have entry : (array.getD position 0.0).Defined :=
        defined.getD position (defined_literal _ _ _)
      have changed := defined.set position (changes _ entry)
      refine (visits _ _ entry changed).bind fun item found => ?_
      refine (previous (changed.set position entry)).bind fun items others => ?_
      exact Call.yields_pure (List.forall_mem_cons.mpr ⟨found, others⟩)

theorem yields_forwardColumn
    (answers : ∀ x, x.Defined → Call.Yields View.Defined (residuals x))
    (positive : 0.0 < scale) (height : Nat) (hereDefined : here.Defined)
    (parameterDefined : parameter.Defined) {array : Vec Checked} (arrayDefined : array.Defined) :
    Call.Yields Vec.Defined (forwardColumn residuals scale height here parameter array) := by
  refine (answers array arrayDefined).bind fun ahead aheadDefined => ?_
  refine (View.yields_read aheadDefined arrayDefined).bind fun onward onwardDefined => ?_
  refine (View.yields_read hereDefined arrayDefined).bind fun start startDefined => ?_
  have change : Call.Yields Vec.Defined
      (Call.fit (Vec.combine? (· - ·) onward.flatten start.flatten) :
        Call σ Checked (Vec Checked)) :=
    Call.yields_fit fun _ made =>
      Vec.Defined.combine? onwardDefined startDefined (fun _ _ x y => defined_sub.mpr ⟨x, y⟩) made
  refine change.bind fun found foundDefined => Call.yields_fit fun _ filled => ?_
  refine Vec.Defined.fill? (foundDefined.map fun entry entryDefined => ?_) filled
  exact Defined.div_relativeStep positive parameterDefined entryDefined

theorem yields_forwardJacobian
    (answers : ∀ x, x.Defined → Call.Yields View.Defined (residuals x))
    (positive : 0.0 < scale) (defined : point.Defined) :
    Call.Yields DenseMatrix.Defined (forwardJacobian residuals scale point) := by
  refine (answers point defined).bind fun here hereDefined => ?_
  refine (View.yields_read hereDefined defined).bind fun start _ => ?_
  have columns := yields_inTurn (fun _ => defined_stepped positive)
    (fun entry array entryDefined arrayDefined => yields_forwardColumn answers positive
      start.flatten.length hereDefined entryDefined arrayDefined)
    (List.range point.length) defined
  exact columns.bind fun columns found => Call.yields_pure (DenseMatrix.defined_ofColumns found)

theorem yields_whole (answers : ∀ x, x.Defined → Call.Yields View.Defined (residuals x))
    (positive : 0.0 < scale) (asSparse : Bool) (defined : point.Defined) :
    Call.Yields Derivative.Defined (whole residuals scale asSparse point) := by
  refine (yields_forwardJacobian answers positive defined).bind fun jacobian found => ?_
  have dense : (Matrix.dense jacobian).Defined := found
  exact Call.yields_pure (dense.stored asSparse)

theorem yields_splitColumns {jacobian : Matrix Checked} (defined : jacobian.Defined)
    (position : Int) :
    Yields (fun parts => parts.1.Defined ∧ parts.2.Defined) (splitColumns jacobian position) := by
  unfold splitColumns
  split
  · exact nofun
  · exact ⟨defined.columnRange _ _, defined.columnRange _ _⟩

theorem yields_split (answers : ∀ x, x.Defined → Call.Yields View.Defined (residuals x))
    (positive : 0.0 < scale) (asSparse : Bool) (position : Int) (defined : point.Defined) :
    Call.Yields Derivative.Defined (split residuals scale asSparse position point) := by
  refine (yields_forwardJacobian answers positive defined).bind fun jacobian found => ?_
  have dense : (Matrix.dense jacobian).Defined := found
  refine (Call.yields_ofExcept (yields_splitColumns (dense.stored asSparse) position)).bind
    fun (left, right) parts => ?_
  exact Call.yields_pure parts

end Difference

end DampedLeastSquares
