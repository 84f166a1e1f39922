import DampedLeastSquares.Proofs.Descent
import DampedLeastSquares.Proofs.NotANumber
import DampedLeastSquares.Proofs.Sizes
import DampedLeastSquares.Proofs.Trial

/-!
# Undefined residuals

Residuals are never looked at themselves, only their cost is. So an undefined
residual ends a start or a call exactly if it makes the cost undefined, which it
does with every loss but Tukey's: that one counts it among the residuals beyond
the threshold.
-/

set_option autoImplicit false

namespace DampedLeastSquares

open NotANumber

variable {σ : Type}

/-- An undefined residual reaches the cost. Chosen weights take the place of the previous ones,
so there are as many of them. -/
def Loss.Sensitive {α : Type} (loss : Loss σ α) : Prop :=
  match loss.shape with
  | .tukey _ => False
  | .undefined => False
  | .reweighted choose _ => ∀ residuals weights world chosen after,
      (choose residuals weights).run world = (.ok chosen, after) → chosen.length = weights.length
  | _ => True

/-! ## Costs -/

theorem isNaN_halfSquare {scaled : Vec Float → Option (Vec Float)} {residuals : Vec Float}
    (fits : ∀ reduced : Vec Float, reduced.length = residuals.length → (scaled reduced).isSome)
    (undefined : HasNaN residuals) :
    ∃ cost, Loss.halfSquare scaled residuals = .ok cost ∧ cost.isNaN = true := by
  -- the residuals are divided by the largest of them first, which is undefined
  obtain ⟨largest, found, undefined⟩ := isNaN_maxAbs undefined
  obtain ⟨reduced, same⟩ := Option.isSome_iff_exists.mp
    (fits (residuals.map (· / largest)) (List.length_map _))
  have nonzero : ¬ (largest == 0.0) = true := by simp [beq_of_isNaN undefined]
  refine ⟨0.5 * largest * Vec.dot reduced reduced * largest, ?_, isNaN_mul_right undefined⟩
  simp only [Loss.halfSquare, Loss.size, found, Option.getD_some]
  rw [if_neg nonzero, same]
  rfl

theorem isNaN_huberCost (threshold : Float) {residuals : Vec Float}
    (undefined : HasNaN residuals) : (Loss.huberCost threshold residuals).isNaN = true := by
  have sizes : HasNaN (residuals.map Float.abs) := undefined.map fun _ => isNaN_abs
  -- no comparison holds of an undefined size, so it lies beyond the threshold
  have outer : HasNaN ((residuals.map Float.abs).filter fun size => !decide (size ≤ threshold)) :=
    sizes.filter fun size undefined => by simp [not_le_of_isNaN undefined]
  refine isNaN_add_right (isNaN_sum (outer.map fun size undefined => ?_))
  exact isNaN_mul_right (isNaN_sub_left undefined)

theorem isNaN_square {value : Float} (undefined : value.isNaN = true) :
    (Scalar.square value).isNaN = true := isNaN_mul_left undefined

theorem isNaN_smoothHuberCost (threshold : Float) {residuals : Vec Float}
    (undefined : HasNaN residuals) : (Loss.smoothHuberCost threshold residuals).isNaN = true := by
  refine isNaN_mul_right (isNaN_sum (undefined.map fun residual undefined => ?_))
  have power := isNaN_square (isNaN_div_left (y := threshold) undefined)
  exact isNaN_sub_left (isNaN_sqrt (isNaN_add_right power))

theorem isNaN_logOnePlus {value : Float} (undefined : value.isNaN = true) :
    (Scalar.logOnePlus value).isNaN = true := by
  have sum : (1.0 + value).isNaN = true := isNaN_add_right undefined
  change (Float.logOnePlus value).isNaN = true
  unfold Float.logOnePlus
  simp only [beq_of_isNaN sum, isFinite_of_isNaN undefined, undefined, Bool.false_eq_true,
    if_false, if_true]

theorem isNaN_cauchyCost (threshold : Float) {residuals : Vec Float}
    (undefined : HasNaN residuals) : (Loss.cauchyCost threshold residuals).isNaN = true := by
  refine isNaN_mul_right (isNaN_sum (undefined.map fun residual undefined => ?_))
  exact isNaN_logOnePlus (isNaN_square (isNaN_div_left undefined))

theorem Loss.Sensitive.isNaN_cost {loss : Loss σ Float} {residuals : Vec Float}
    (sensitive : loss.Sensitive) (fits : loss.Fits residuals.length)
    (undefined : HasNaN residuals) :
    ∃ cost, loss.cost residuals = .ok cost ∧ cost.isNaN = true := by
  obtain ⟨shape, functions⟩ := loss
  have weighs (weights : Vec Float) (size : weights.length = residuals.length)
      (reduced : Vec Float) (same : reduced.length = residuals.length) :
      (Vec.combine? (· * ·) weights reduced).isSome := by
    rw [Vec.combine?_of_length_eq _ (size.trans same.symm)]
    rfl
  cases shape with
  | squared => exact isNaN_halfSquare (fun _ _ => rfl) undefined
  | counted times => exact isNaN_halfSquare (fun _ _ => rfl) undefined
  | huber threshold => exact ⟨_, rfl, isNaN_huberCost threshold undefined⟩
  | smoothHuber threshold => exact ⟨_, rfl, isNaN_smoothHuberCost threshold undefined⟩
  | cauchy threshold => exact ⟨_, rfl, isNaN_cauchyCost threshold undefined⟩
  | tukey threshold => exact sensitive.elim
  | weighted weights => exact isNaN_halfSquare (weighs weights (fits weights rfl)) undefined
  | reweighted choose weights =>
      exact isNaN_halfSquare (weighs weights (fits weights rfl)) undefined
  | undefined => exact sensitive.elim

/-! ## Losses along a run -/

section Losses

variable {α : Type} [Scalar α] {loss : Loss σ α} {residuals : Vec α}

theorem Loss.prepare_sensitive {prepared : Loss σ α} {count : Nat}
    (ready : loss.prepare count = .ok prepared) (sensitive : loss.Sensitive) :
    prepared.Sensitive ∧ prepared.Fits count := by
  obtain ⟨shape, functions⟩ := loss
  cases shape with
  | weighted weights =>
      change (if (weights.length : Int) = count then _ else _) = _ at ready
      by_cases same : (weights.length : Int) = count
      · rw [if_pos same] at ready
        cases ready
        refine ⟨trivial, fun _ given => ?_⟩
        cases given
        exact Int.ofNat.inj same
      · rw [if_neg same] at ready
        cases ready
  | reweighted choose weights =>
      have counted : ¬ (count : Int) < 0 := (Int.natCast_nonneg count).not_gt
      unfold prepare at ready
      dsimp only at ready
      rw [if_neg counted] at ready
      cases ready
      refine ⟨sensitive, fun _ given => ?_⟩
      cases given
      exact List.length_replicate
  | _ =>
      cases ready
      exact ⟨sensitive, nofun⟩

theorem Loss.settle_sensitive {settled : Loss σ α} {changed : Bool} {before after : σ} {count : Nat}
    (settles : (loss.settle residuals).run before = (.ok (settled, changed), after))
    (sensitive : loss.Sensitive) (fits : loss.Fits count) :
    settled.Sensitive ∧ settled.Fits count := by
  obtain ⟨_, _, same | ⟨times, _, same⟩⟩ | ⟨_, choose, weights, chosen, shape, asked, same⟩ :=
    Loss.settle_cases settles
  · exact same ▸ ⟨sensitive, fits⟩
  · subst same
    exact ⟨trivial, nofun⟩
  · subst same
    simp only [Sensitive, shape] at sensitive ⊢
    refine ⟨sensitive, fun _ found => ?_⟩
    cases found
    rw [sensitive residuals weights before chosen after asked]
    exact fits weights (by simp [weights?, shape])

theorem Loss.Readied.sensitive {ready : Loss σ α} (readied : loss.Readied residuals ready)
    (sensitive : loss.Sensitive) : ready.Sensitive ∧ ready.Fits residuals.length := by
  obtain ⟨prepared, before, changed, after, prepares, settles⟩ := readied
  obtain ⟨sensitive, fits⟩ := Loss.prepare_sensitive prepares sensitive
  exact Loss.settle_sensitive settles sensitive fits

theorem Loss.Unsettled.sensitive {left : Loss σ α} {world : σ} {fault : Fault α} {count : Nat}
    (unsettled : loss.Unsettled residuals world fault left) (sensitive : loss.Sensitive)
    (fits : loss.Fits count) : left.Sensitive ∧ left.Fits count := by
  obtain ⟨same, _⟩ | ⟨after, settles, _⟩ := unsettled
  · exact same ▸ ⟨sensitive, fits⟩
  · exact Loss.settle_sensitive settles sensitive fits

end Losses

namespace Solver

/-! ## Runs -/

/-- What every call preserves: the cost would be undefined if a residual were. -/
structure Guarded (solver : Solver σ Float) (parameters functions : Nat) : Prop where
  sized : solver.Sized parameters functions
  sensitive : solver.loss.Sensitive
  fits : solver.loss.Fits functions
  defined : ¬ HasNaN solver.residuals

variable {solver : Solver σ Float} {parameters functions : Nat}

theorem Advanced.defined {after : Solver σ Float} {cost : Float}
    (advanced : Advanced solver after cost) (sensitive : solver.loss.Sensitive)
    (fits : solver.loss.Fits after.residuals.length) : ¬ HasNaN after.residuals := by
  intro undefined
  obtain ⟨found, costed, isNaN⟩ := sensitive.isNaN_cost fits undefined
  cases costed.symm.trans advanced.costed
  cases (isFinite_of_isNaN isNaN).symm.trans advanced.finite

theorem Guarded.next (guarded : solver.Guarded parameters functions) :
    solver.next.Guarded parameters functions := by
  have sized : solver.next.Sized parameters functions := next_sized guarded.sized
  have fits : solver.loss.Fits solver.next.residuals.length := sized.residuals ▸ guarded.fits
  rcases solver.next_outcome with kept | replaced | ⟨fault, torn⟩
  · obtain ⟨_, _, residuals⟩ := place_eq_iff.mp kept.place
    exact ⟨sized, kept.loss ▸ guarded.sensitive, kept.loss ▸ guarded.fits,
      residuals ▸ guarded.defined⟩
  · obtain ⟨cost, advanced, world, changed, world', settles, _⟩ := replaced.advanced
    obtain ⟨sensitive, stillFits⟩ := Loss.settle_sensitive settles guarded.sensitive guarded.fits
    exact ⟨sized, sensitive, stillFits, advanced.defined guarded.sensitive fits⟩
  · obtain ⟨world, unsettled⟩ := torn.unsettled
    obtain ⟨sensitive, stillFits⟩ := unsettled.sensitive guarded.sensitive guarded.fits
    exact ⟨sized, sensitive, stillFits, torn.advanced.defined guarded.sensitive fits⟩

theorem Guarded.afterCalls (guarded : solver.Guarded parameters functions) (count : Nat) :
    (solver.afterCalls count).Guarded parameters functions := by
  induction count with
  | zero => exact guarded
  | succ count previous => exact previous.next

theorem guarded_of_start {idle started : Solver σ Float} {point : Vec Float}
    {cost? gradient? : Option Float} (sensitive : idle.loss.Sensitive)
    (success : (start point cost? gradient?).run idle = (.ok (), started)) :
    started.Guarded point.length started.residuals.length := by
  obtain ⟨ready, readied, costed, finite, _⟩ :=
    (start_leaves idle point cost? gradient?).of_run_ok success
  obtain ⟨sensitive, fits⟩ := readied.sensitive sensitive
  refine ⟨ready.sized, sensitive, fits, fun undefined => ?_⟩
  obtain ⟨cost, same, isNaN⟩ := sensitive.isNaN_cost fits undefined
  cases same.symm.trans costed
  cases (isFinite_of_isNaN isNaN).symm.trans finite

theorem Guarded.breaks_down (guarded : solver.Guarded parameters functions) {residuals : Vec Float}
    (evaluates : solver.Evaluates residuals) (undefined : HasNaN residuals) :
    ∃ cost, cost.isNaN = true ∧ solver.answer = .error (.breakdown (.candidateCost cost)) := by
  have size : residuals.length = functions :=
    evaluates.length_eq.trans guarded.sized.candidateResiduals
  obtain ⟨cost, costed, isNaN⟩ := guarded.sensitive.isNaN_cost (size ▸ guarded.fits) undefined
  exact ⟨cost, isNaN, call_breaks_down evaluates costed (isFinite_of_isNaN isNaN)⟩

/-- With every loss but Tukey's, a start that finds an undefined residual at its point breaks
down, and so does every later call that finds one at its candidate. The residuals that are
stored along a run are all defined. -/
theorem undefined_residuals_break_down (idle : Solver σ Float) (point : Vec Float)
    (cost? gradient? : Option Float) (sensitive : idle.loss.Sensitive) :
    (∀ residuals settled, idle.Begins point cost? gradient? residuals settled →
      HasNaN residuals → ∃ cost, cost.isNaN = true ∧
        ((start point cost? gradient?).run idle).1 = .error (.breakdown (.initialCost cost))) ∧
    ∀ started, (start point cost? gradient?).run idle = (.ok (), started) → ∀ calls,
      ¬ HasNaN (started.afterCalls calls).residuals ∧
        ∀ residuals, (started.afterCalls calls).Evaluates residuals → HasNaN residuals →
          ∃ cost, cost.isNaN = true ∧
            (started.afterCalls calls).answer = .error (.breakdown (.candidateCost cost)) := by
  refine ⟨fun residuals settled begins undefined => ?_, fun started success calls => ?_⟩
  · obtain ⟨sensitive, fits⟩ := begins.readied.sensitive sensitive
    obtain ⟨cost, costed, isNaN⟩ := sensitive.isNaN_cost fits undefined
    exact ⟨cost, isNaN, start_breaks_down begins costed (isFinite_of_isNaN isNaN)⟩
  · have guarded := (guarded_of_start sensitive success).afterCalls calls
    exact ⟨guarded.defined, fun _ => guarded.breaks_down⟩

/-- The residual of an undefined parameter is undefined, and that of one stays defined. -/
theorem undefined_residuals_break_down_identity :
    (∃ cost, cost.isNaN = true ∧ ((start [0.0 / 0.0] none none).run identitySearch).1 =
      .error (.breakdown (.initialCost cost))) ∧
    ((start [1.0] none none).run identitySearch).1.isOk = true ∧
      ¬ HasNaN (((start [1.0] none none).run identitySearch).2.afterCalls 2).residuals := by
  have adopts : ((adoptTolerances none none).run identitySearch).1.isOk = true := by decide +kernel
  have begins : identitySearch.Begins [0.0 / 0.0] none none [0.0 / 0.0] ⟨.squared, 1⟩ :=
    ⟨_, .vector [0.0 / 0.0], (), ⟨.squared, 1⟩, false, (), run_of_isOk adopts,
      ⟨nofun, _, rfl, rfl⟩, rfl, rfl, rfl⟩
  have success : ((start [1.0] none none).run identitySearch).1.isOk = true := by decide +kernel
  refine ⟨?_, success, ?_⟩
  · exact (undefined_residuals_break_down identitySearch _ none none trivial).1 _ _ begins
      ⟨_, List.mem_singleton_self _, by decide +kernel⟩
  · exact ((undefined_residuals_break_down identitySearch _ none none trivial).2 _
      (run_of_isOk success) 2).1

/-- A search with Tukey's loss over one parameter, which is a residual beside an undefined one. -/
def tukeySearch : Solver Unit Float :=
  { identitySearch with
    loss := ⟨.tukey 2.0, 0⟩
    problem? := some ⟨fun x => pure (.vector (0.0 / 0.0 :: x)), fun _ =>
      pure (.whole (.matrix (.dense (.ofFn 2 1 fun _ _ => 1.0))))⟩ }

theorem undefined_residual_stored :
    ((start [1.0] none none).run tukeySearch).1.isOk = true ∧
      HasNaN ((start [1.0] none none).run tukeySearch).2.residuals := by
  constructor
  · decide +kernel
  · change ∃ entry ∈ ((start [1.0] none none).run tukeySearch).2.residuals, entry.isNaN = true
    decide +kernel

end Solver

end DampedLeastSquares
