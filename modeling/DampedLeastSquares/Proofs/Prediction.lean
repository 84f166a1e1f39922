import Mathlib
import DampedLeastSquares.Proofs.Judgement
import DampedLeastSquares.Proofs.LastDerivatives

/-!
# Predicted reductions

The reduction that a trial predicts is asked for in the units of the derivatives, before the step
is brought back from them. In exact arithmetic it is half the slope along the step, and half the
curvature of the damped system, in those units as in the units of the parameters. It is positive,
so a candidate of lower cost is never a surprise: it lowers the damping by two thirds at most and
never doubles it.
-/

set_option autoImplicit false

open scoped Matrix

namespace DampedLeastSquares.Solver

open Exact NormalMatrix

variable {σ : Type} {k l : Nat}

/-! ## The model along the step -/

/-- The damped system in the units of the parameters. -/
noncomputable def raisedSystem (solver : Solver σ ℝ) (jacobian : RealMatrix l k)
    (scaling : Fin k → ℝ) : RealMatrix k k :=
  jacobianᵀ * jacobian + RealMatrix.diagonal scaling *
    RealMatrix.diagonal (fun index => raise solver.settings solver.damping
      (divided (jacobianᵀ * jacobian) scaling index index)) * RealMatrix.diagonal scaling

theorem dotProduct_diagonal_mulVec (units first second : Fin k → ℝ) :
    first ⬝ᵥ RealMatrix.diagonal units *ᵥ second =
      (RealMatrix.diagonal units *ᵥ first) ⬝ᵥ second := by
  refine Finset.sum_congr rfl fun index _ => ?_
  rw [RealMatrix.diagonal, Matrix.mulVec_diagonal, Matrix.mulVec_diagonal]
  ring

/-- Curvature does not depend on the units. -/
theorem quadratic_raisedSystem {solver : Solver σ ℝ} {jacobian : RealMatrix l k}
    {scaling : Fin k → ℝ} (nonzero : ∀ index, scaling index ≠ 0) (scaled : Fin k → ℝ) :
    (scaled / scaling) ⬝ᵥ solver.raisedSystem jacobian scaling *ᵥ (scaled / scaling) =
      scaled ⬝ᵥ solver.dampedSystem jacobian scaling *ᵥ scaled := by
  have back : RealMatrix.diagonal scaling *ᵥ (scaled / scaling) = scaled := by
    funext index
    rw [RealMatrix.diagonal, Matrix.mulVec_diagonal, Pi.div_apply]
    field_simp [nonzero index]
  have same : solver.raisedSystem jacobian scaling = RealMatrix.diagonal scaling *
      solver.dampedSystem jacobian scaling * RealMatrix.diagonal scaling := by
    unfold raisedSystem dampedSystem
    rw [scaled_withDiagonal nonzero]
    simp only [dampedEntry_eq]
  rw [same, ← Matrix.mulVec_mulVec, ← Matrix.mulVec_mulVec, back, dotProduct_diagonal_mulVec, back]

variable [Spectral ℝ]

/-- What a trial predicts of its step. -/
structure Predicts (now : Solver σ ℝ) (jacobian : RealMatrix l k) (slopes : Fin l → ℝ)
    (carried x scaled : Fin k → ℝ) (predicted : ℝ) : Prop where
  proposes : ∃ proposed, propose.run now.trying = (.ok (some predicted), proposed)
  moves : now.Moves now.next x (scaled / carried)
  solves : now.dampedSystem jacobian carried *ᵥ scaled = -(jacobianᵀ *ᵥ slopes / carried)
  slope : predicted = -(1 / 2 * ((jacobianᵀ *ᵥ slopes) ⬝ᵥ (scaled / carried)))
  curvature : predicted = 1 / 2 * (scaled ⬝ᵥ now.dampedSystem jacobian carried *ᵥ scaled)
  raised : predicted = 1 / 2 *
    ((scaled / carried) ⬝ᵥ now.raisedSystem jacobian carried *ᵥ (scaled / carried))
  positive : 0 < predicted

/-- A positive reduction is predicted of the step that is proposed, whatever units the settings
bring it back from. -/
theorem propose_carried {now : Solver σ ℝ} (sited : now.Sited k l) {jacobian : RealMatrix l k}
    {slopes : Fin l → ℝ} {carried scaled : Fin k → ℝ}
    (carries : now.Carries jacobian slopes carried) (nonzero : ∀ index, carried index ≠ 0)
    (steep : jacobianᵀ *ᵥ slopes ≠ 0) (scaled_eq : scaled =
      -((now.dampedSystem jacobian carried)⁻¹ *ᵥ (jacobianᵀ *ᵥ slopes / carried))) :
    ((now.dampedSystem jacobian carried).PosDef ∧ ∃ proposed, propose.run now.trying =
        (.ok (some (1 / 2 * (scaled ⬝ᵥ now.dampedSystem jacobian carried *ᵥ scaled))), proposed) ∧
      0 < 1 / 2 * (scaled ⬝ᵥ now.dampedSystem jacobian carried *ᵥ scaled)) ∨
    (¬ (now.dampedSystem jacobian carried).PosDef ∧
      ∃ proposed, propose.run now.trying = (.ok none, proposed)) := by
  obtain ⟨taken, undoes⟩ := exists_undoes sited.sized
  obtain ⟨definite, _, _, _, ran⟩ | ⟨indefinite, proposed, ran⟩ :=
    carries.propose_cases sited undoes scaled_eq
  · rw [predicted_eq definite scaled_eq] at ran
    refine .inl ⟨definite, _, ran, ?_⟩
    have steep : jacobianᵀ *ᵥ slopes / carried ≠ 0 :=
      (div_units_eq_zero_iff nonzero _).not.mpr steep
    have descends := dotProduct_solution_neg definite steep
    rw [← scaled_eq] at descends
    have solves := mulVec_solution definite (jacobianᵀ *ᵥ slopes / carried)
    rw [← scaled_eq] at solves
    rw [solves, dotProduct_neg, dotProduct_comm]
    linarith
  · exact .inr ⟨indefinite, proposed, ran⟩

/-- A step that comes back from the units of the derivatives. -/
theorem predicts_of_stemsFrom {started now : Solver σ ℝ} {history earlier : List (Command σ ℝ)}
    (reached : started.afterCommands history = now) (sited : now.Sited k l)
    {jacobian : RealMatrix l k} {slopes : Fin l → ℝ} {carried : Fin k → ℝ}
    (stems : started.StemsFrom history earlier jacobian slopes carried)
    (units : now.settings.rescaling = (started.afterCommands earlier).settings.rescaling)
    (computes : now.ComputesStep) :
    ∃ x scaled predicted, now.Predicts jacobian slopes carried x scaled predicted := by
  subst reached
  obtain ⟨x, x_eq⟩ := exists_ofFn sited.sized.x
  have undoes : (started.afterCommands history).Undoes carried :=
    ⟨fun rescaling => stems.undoes.scaled (units.symm.trans rescaling),
      fun rescaling => stems.undoes.plain (units.symm.trans rescaling)⟩
  have definite := (computesStep_iff sited computes.1 stems.carries).mp computes
  obtain ⟨scaled, scaled_eq⟩ : ∃ scaled, scaled =
      -(((started.afterCommands history).dampedSystem jacobian carried)⁻¹ *ᵥ
        (jacobianᵀ *ᵥ slopes / carried)) := ⟨_, rfl⟩
  obtain ⟨_, moves⟩ := next_carried sited computes.1 stems.carries undoes x_eq scaled_eq
  have solves := mulVec_solution definite (jacobianᵀ *ᵥ slopes / carried)
  rw [← scaled_eq] at solves
  obtain ⟨_, proposed, proposes, positive⟩ | ⟨indefinite, _⟩ :=
    propose_carried sited stems.carries stems.nonzero stems.steep scaled_eq
  · refine ⟨x, scaled, _, ⟨proposed, proposes⟩, moves definite, solves, ?_, rfl, ?_, positive⟩
    · rw [solves, dotProduct_neg, dotProduct_div, dotProduct_comm]
      ring
    · rw [quadratic_raisedSystem stems.nonzero]
  · exact (indefinite definite).elim

/-! ## Acceptance -/

omit [Spectral ℝ] in
/-- An improvement of any size lowers the damping by two thirds at most, and never doubles it. -/
theorem factor_bounds {ratio : ℝ} (positive : 0 < ratio) :
    1 / 3 ≤ factor ratio ∧ factor ratio < 2 := by
  have odd : Odd 3 := by decide
  have above : (-1 : ℝ) ^ 3 < (2 * ratio - 1) ^ 3 := odd.strictMono_pow (by linarith)
  exact ⟨le_max_right _ _, max_lt (by linarith) (by norm_num)⟩

/-- What an accepted candidate does to the damping. -/
structure Relaxes (before : Solver σ ℝ) (ratio : ℝ) : Prop where
  positive : 0 < ratio
  damping : before.next.damping = before.damping * factor ratio
  bounds : 0 < before.damping →
    before.damping / 3 ≤ before.next.damping ∧ before.next.damping < 2 * before.damping

theorem Compares.relaxes {before : Solver σ ℝ} (gradient : before.gradient ≠ [])
    {predicted cost : ℝ} (gains : 0 < predicted) (compares : before.Compares predicted cost)
    (lower : cost < before.cost) : before.Relaxes ((before.cost - cost) / predicted) := by
  have positive : 0 < (before.cost - cost) / predicted := div_pos (sub_pos.mpr lower) gains
  have damping : before.next.damping =
      before.damping * factor ((before.cost - cost) / predicted) :=
    ((iterate_ends_of_lower gradient compares lower).mono (fun _ _ ended => ended.1.1)
      fun _ _ ended => ended.1.1).leaves
  refine ⟨positive, damping, fun damped => ?_⟩
  obtain ⟨least, most⟩ := factor_bounds positive
  rw [damping]
  constructor
  · linarith [mul_le_mul_of_nonneg_left least damped.le]
  · linarith [mul_lt_mul_of_pos_left most damped]

/-! ## A run -/

/-- The request does not ask for other units. -/
def KeepsUnits (rescaling : Bool) : Command σ ℝ → Prop
  | .configure (some settings) => settings.rescaling = rescaling
  | _ => True

theorem rescaling_of_keepsUnits {started : Solver σ ℝ} {history : List (Command σ ℝ)}
    (keeps : ∀ command ∈ history, KeepsUnits started.settings.rescaling command) :
    (started.afterCommands history).settings.rescaling = started.settings.rescaling := by
  induction history using List.reverseRecOn with
  | nil => rfl
  | append_singleton history command previous =>
      have before := previous fun command member =>
        keeps command (List.mem_append_left _ member)
      have kept := keeps command (List.mem_append_right _ (by simp))
      rw [afterCommands_concat, obey_settings]
      cases command with
      | setLoss | setVerbose | setFunctions | iterate => exact before
      | start point cost? gradient? =>
          simp only [written?]
          split
          · exact before
          · exact before
      | configure settings? =>
          cases settings? with
          | none => exact before
          | some settings =>
              simp only [written?]
              split
              · exact kept
              · exact before

/-- Whenever a trial computes a step, the reduction it predicts is half the slope along the step and
half the curvature of the damped system, in either units, and it is positive. Whatever it accepts is
an improvement in proportion to a positive ratio, and the damping is multiplied accordingly.

Whether parameters are scaled is fixed for the run by `keeps`: other settings may be written in
between, in whatever order, but not this one. Where it is changed between the derivatives and the
step, the step comes back from other units than it was computed in, and nothing is said of it. -/
theorem trial_predicts (idle started : Solver σ ℝ) (point : Vec ℝ) (cost? gradient? : Option ℝ)
    (success : (start point cost? gradient?).run idle = (.ok (), started))
    (eliminates : idle.normal.layout?.isSome) (history : List (Command σ ℝ))
    (continues : ∀ command ∈ history, Continues command)
    (keeps : ∀ command ∈ history, KeepsUnits started.settings.rescaling command)
    (now : Solver σ ℝ) (reached : started.afterCommands history = now)
    (computes : now.ComputesStep) :
    ∃ earlier, ∃ (jacobian : RealMatrix started.residuals.length point.length)
      (slopes : Fin started.residuals.length → ℝ) (carried x scaled : Fin point.length → ℝ)
      (predicted : ℝ), started.StemsFrom history earlier jacobian slopes carried ∧
        now.Predicts jacobian slopes carried x scaled predicted ∧
        (now.next.updated = true → ∃ cost, now.Compares predicted cost ∧ cost < now.cost) ∧
        ∀ cost, now.Compares predicted cost → cost < now.cost →
          now.Relaxes ((now.cost - cost) / predicted) := by
  have provided := provided_of_start success eliminates continues
  subst reached
  obtain ⟨earlier, jacobian, slopes, carried, stems⟩ := provided.stems computes.1
  have units : (started.afterCommands history).settings.rescaling =
      (started.afterCommands earlier).settings.rescaling := by
    obtain ⟨later, rfl, _⟩ := stems.derived
    rw [rescaling_of_keepsUnits keeps, rescaling_of_keepsUnits fun command member =>
      keeps command (List.mem_append_left _ member)]
  obtain ⟨x, scaled, predicted, predicts⟩ :=
    predicts_of_stemsFrom rfl provided.sited stems units computes
  refine ⟨earlier, jacobian, slopes, carried, x, scaled, predicted, stems, predicts,
    fun updated => ?_, fun cost compares lower =>
      compares.relaxes stems.gradient predicts.positive lower⟩
  obtain ⟨predicted', cost, evaluated, ⟨proposed, found, ran⟩, lower⟩ := reaches_of_updated updated
  obtain ⟨_, proposes⟩ := predicts.proposes
  cases proposes.symm.trans found
  exact ⟨cost, ⟨computes.1, predicts.positive.ne', proposed, evaluated, found, ran⟩, lower⟩

omit [Spectral ℝ] in
/-- After a start at one and a call, the next call computes a step. -/
theorem trial_predicts_from_one : ∃ (_ : Spectral ℝ) (started now : Solver Unit ℝ),
    (start [1] none none).run unitSearch = (.ok (), started) ∧
      started.afterCommands [.iterate] = now ∧ now.ComputesStep ∧
      ∃ earlier, ∃ (jacobian : RealMatrix started.residuals.length 1)
        (slopes : Fin started.residuals.length → ℝ) (carried x scaled : Fin 1 → ℝ)
        (predicted : ℝ), started.StemsFrom [.iterate] earlier jacobian slopes carried ∧
          now.Predicts jacobian slopes carried x scaled predicted := by
  let spectral : Spectral ℝ := ⟨fun _ => []⟩
  obtain ⟨cost, success⟩ := unitSearch_starts
  have trivially (command : Command Unit ℝ) (member : command ∈ [Command.iterate]) :
      Continues command ∧ KeepsUnits (unitStarted cost).settings.rescaling command := by
    obtain rfl := List.mem_singleton.mp member
    exact ⟨trivial, trivial⟩
  obtain ⟨earlier, jacobian, slopes, carried, x, scaled, predicted, stems, predicts, _⟩ :=
    trial_predicts unitSearch _ [1] none none success rfl [.iterate]
      (fun command member => (trivially command member).1)
      (fun command member => (trivially command member).2) _ rfl (unitSearch_computes cost)
  exact ⟨spectral, _, _, success, rfl, unitSearch_computes cost, earlier, jacobian, slopes, carried,
    x, scaled, predicted, stems, predicts⟩

end DampedLeastSquares.Solver
