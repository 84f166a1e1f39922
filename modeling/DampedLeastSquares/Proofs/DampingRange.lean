import Mathlib.Data.List.Induction
import DampedLeastSquares.Proofs.FloatProducts
import DampedLeastSquares.Proofs.Tolerances

/-!
# The range of the damping

A call multiplies the damping by four, by the growth, by a factor of a third or
more, or not at all, and it refuses a product that is not finite. Comparisons
with undefined values fail, so some of the checks of the settings let them pass.
What that means for the damping of doubles is followed through every history of
requests.
-/

set_option autoImplicit false

namespace DampedLeastSquares

variable {σ α β γ : Type}

namespace Solver

section Calls

variable [Scalar α]

/-- What becomes of damping and growth, and the ending if a product is not finite. -/
inductive Redamped (before : Solver σ α) (ending : Except (Fault α) β) (after : Solver σ α) :
    Prop where
  | kept : after.damping = before.damping → after.growth = before.growth →
      Redamped before ending after
  | quadrupled : after.damping = before.damping * 4.0 → after.growth = before.growth →
      Redamped before ending after
  | raised : after.damping = before.damping * before.growth →
      after.growth = before.growth * 2.0 →
      (Scalar.isFinite after.damping = true ∨
        ending = .error (.breakdown (.runaway after.damping after.growth))) →
      Redamped before ending after
  | lowered {ratio factor : α} : dampingFactor ratio = .ok factor →
      after.damping = before.damping * factor → after.growth = initialGrowth →
      (Scalar.isFinite after.damping = true ∨
        ending = .error (.breakdown (.runaway after.damping after.growth))) →
      Redamped before ending after

def Redamps (action : Action σ α β) : Prop :=
  ∀ solver, Redamped solver (action.run solver).1 (action.run solver).2

/-- A fault is the same whatever the value would have been. -/
theorem Redamped.fault {before after : Solver σ α} {fault : Fault α}
    (redamped : Redamped before (.error fault : Except (Fault α) γ) after) :
    Redamped before (.error fault : Except (Fault α) β) after := by
  have same {cause : Fault α} (ended : (.error fault : Except (Fault α) γ) = .error cause) :
      (.error fault : Except (Fault α) β) = .error cause := by
    cases ended
    rfl
  cases redamped with
  | kept damping growth => exact .kept damping growth
  | quadrupled damping growth => exact .quadrupled damping growth
  | raised damping growth finite => exact .raised damping growth (finite.imp_right same)
  | lowered found damping growth finite =>
      exact .lowered found damping growth (finite.imp_right same)

theorem Redamped.from {first before after : Solver σ α} {ending : Except (Fault α) β}
    (redamped : Redamped before ending after) (same : before.tuning = first.tuning) :
    Redamped first ending after := by
  simp only [tuning, Prod.mk.injEq] at same
  obtain ⟨-, -, damping, growth⟩ := same
  cases redamped with
  | kept damping' growth' => exact .kept (damping'.trans damping) (growth'.trans growth)
  | quadrupled damping' growth' =>
      exact .quadrupled (damping ▸ damping') (growth'.trans growth)
  | raised damping' growth' finite =>
      exact .raised (by rw [damping', damping, growth]) (by rw [growth', growth]) finite
  | lowered found damping' growth' finite =>
      exact .lowered found (by rw [damping', damping]) growth' finite

/-- A call that went on after the product was looked at has a finite one. -/
theorem Redamped.to {before after last : Solver σ α} {value : β}
    {ending : Except (Fault α) γ} (redamped : Redamped before (.ok value) after)
    (same : last.tuning = after.tuning) : Redamped before ending last := by
  simp only [tuning, Prod.mk.injEq] at same
  obtain ⟨-, -, damping, growth⟩ := same
  cases redamped with
  | kept damping' growth' => exact .kept (damping.trans damping') (growth.trans growth')
  | quadrupled damping' growth' =>
      exact .quadrupled (damping.trans damping') (growth.trans growth')
  | raised damping' growth' finite =>
      refine .raised (damping.trans damping') (growth.trans growth') (.inl ?_)
      rw [damping]
      exact finite.resolve_right nofun
  | lowered found damping' growth' finite =>
      refine .lowered found (damping.trans damping') (growth.trans growth') (.inl ?_)
      rw [damping]
      exact finite.resolve_right nofun

theorem redamps_of_preserves {action : Action σ α β} (preserves : Preserves tuning action) :
    Redamps action := by
  intro solver
  have same := preserves solver
  simp only [tuning, Prod.mk.injEq] at same
  exact .kept same.2.2.1 same.2.2.2

theorem redamps_bind {first : Action σ α γ} {next : γ → Action σ α β}
    (preserves : Preserves tuning first) (redamps : ∀ value, Redamps (next value)) :
    Redamps (first >>= next) := by
  intro solver
  have same := preserves solver
  rcases ran : first.run solver with ⟨fault | value, after⟩
  · rw [run_bind_error ran]
    rw [ran] at same
    simp only [tuning, Prod.mk.injEq] at same
    exact .kept same.2.2.1 same.2.2.2
  · rw [run_bind_ok ran]
    rw [ran] at same
    exact (redamps value after).from same

theorem redamps_bind_preserves {first : Action σ α γ} {next : γ → Action σ α β}
    (redamps : Redamps first) (preserves : ∀ value, Preserves tuning (next value)) :
    Redamps (first >>= next) := by
  intro solver
  have redamped := redamps solver
  rcases ran : first.run solver with ⟨fault | value, after⟩
  · rw [run_bind_error ran]
    rw [ran] at redamped
    exact redamped.fault
  · rw [run_bind_ok ran]
    rw [ran] at redamped
    exact redamped.to (preserves value after)

theorem redamps_ite {condition : Prop} [Decidable condition] {first second : Action σ α β}
    (positive : Redamps first) (negative : Redamps second) :
    Redamps (if condition then first else second) := by
  split
  · exact positive
  · exact negative

/-! ### One call -/

omit [Scalar α] in
theorem preserves_of_leaves {action : Action σ α β}
    (kept : ∀ solver, Leaves action solver (·.tuning = solver.tuning)) : Preserves tuning action :=
  fun solver => (kept solver).leaves

omit [Scalar α] in
theorem preserves_attempt (result : Except (Fault α) β) :
    Preserves tuning (attempt result : Action σ α β) := fun _ => rfl

theorem preserves_updateDerivatives : Preserves tuning (updateDerivatives : Action σ α Bool) := by
  refine preserves_of_leaves fun solver => (updateDerivatives_derived solver).mono ?_ ?_
  · rintro _ _ ⟨_, _, _, _, _, _, _, _, rfl⟩
    rfl
  · rintro _ _ ⟨⟨_, _, _, _, _, _, _, rfl⟩, _⟩
    rfl

theorem preserves_propose [Spectral α] : Preserves tuning (propose : Action σ α (Option α)) := by
  refine preserves_of_leaves fun solver => (propose_proposed solver).mono ?_ ?_
  · rintro _ _ ⟨_, _, _, _, rfl⟩
    rfl
  · rintro _ _ ⟨⟨_, _, _, _, rfl⟩, _⟩
    rfl

theorem preserves_evaluateCandidate : Preserves tuning (evaluateCandidate : Action σ α α) := by
  refine preserves_of_leaves fun solver => (evaluateCandidate_examined solver).mono ?_ ?_
  · rintro _ _ ⟨⟨_, _, _, rfl⟩, _⟩
    rfl
  · rintro _ _ ⟨⟨_, _, _, rfl⟩, _⟩
    rfl

theorem preserves_reportProgress (cost ratio : α) :
    Preserves tuning (reportProgress cost ratio : Action σ α Unit) := by
  refine preserves_of_leaves fun solver => (reportProgress_ensures solver cost ratio).mono ?_ ?_
  · rintro _ _ ⟨_, rfl⟩
    rfl
  · rintro _ _ ⟨rfl, _⟩
    rfl

theorem preserves_accept (cost : α) : Preserves tuning (accept cost : Action σ α Unit) := by
  refine preserves_of_leaves fun solver => (accept_ends solver cost).mono ?_ ?_
  · rintro _ _ ⟨_, _, _, _, _, _, rfl⟩
    rfl
  · rintro _ _ ⟨_, _, _, rfl⟩
    rfl

/-- The product is looked at before anything else is done with the candidate. -/
theorem takeOrDrop_looks (solver : Solver σ α) (cost ratio previous : α) (improved : Bool) :
    tuning ((takeOrDrop cost ratio previous improved).run solver).2 = solver.tuning ∧
      (Scalar.isFinite solver.damping = true ∨
        ((takeOrDrop cost ratio previous improved).run solver).1 =
          .error (.breakdown (.runaway solver.damping solver.growth))) := by
  have rest : Preserves tuning (do
      reportProgress cost ratio
      if improved then
        accept cost
        if (← get).exhausted then return true
        else attempt ((← get).costSettles cost previous)
      else return (← get).exhausted : Action σ α Bool) := by
    refine preserves_bind (preserves_reportProgress _ _) fun _ => preserves_ite ?_ ?_
    · refine preserves_bind (preserves_accept _) fun _ => preserves_get_bind fun after => ?_
      refine preserves_ite (fun _ => rfl) (preserves_get_bind fun after => preserves_attempt _)
    · exact preserves_get_bind fun after => fun _ => rfl
  unfold takeOrDrop
  rw [run_get_bind]
  dsimp only
  by_cases infinite : (!Scalar.isFinite solver.damping || !Scalar.isFinite solver.growth) = true
  · rw [if_pos infinite]
    exact ⟨rfl, .inr rfl⟩
  · rw [if_neg infinite]
    simp only [Bool.or_eq_true, Bool.not_eq_true', not_or, Bool.not_eq_false] at infinite
    exact ⟨rest solver, .inl infinite.1⟩

theorem raiseDamping_redamps (cost ratio previous : α) (improved : Bool) :
    Redamps (raiseDamping >>= fun _ => takeOrDrop cost ratio previous improved :
      Action σ α Bool) := by
  intro solver
  obtain ⟨same, finite⟩ := takeOrDrop_looks
    { solver with damping := solver.damping * solver.growth, growth := solver.growth * 2.0 }
    cost ratio previous improved
  simp only [tuning, Prod.mk.injEq] at same
  obtain ⟨-, -, damping, growth⟩ := same
  unfold raiseDamping
  rw [run_modify_bind]
  refine .raised damping growth ?_
  rw [damping, growth]
  exact finite

theorem lowerDamping_redamps (cost ratio previous : α) (improved : Bool) :
    Redamps (lowerDamping ratio >>= fun _ => takeOrDrop cost ratio previous improved :
      Action σ α Bool) := by
  intro solver
  unfold lowerDamping
  rw [bind_assoc]
  cases found : dampingFactor ratio with
  | error fault =>
      rw [run_attempt_bind_error rfl]
      exact .kept rfl rfl
  | ok factor =>
      rw [run_attempt_bind_ok rfl, run_modify_bind]
      obtain ⟨same, finite⟩ := takeOrDrop_looks
        { solver with damping := solver.damping * factor, growth := initialGrowth }
        cost ratio previous improved
      simp only [tuning, Prod.mk.injEq] at same
      obtain ⟨-, -, damping, growth⟩ := same
      refine .lowered found damping growth ?_
      rw [damping, growth]
      exact finite

theorem judge_redamps (cost actual predicted : α) :
    Redamps (judge cost actual predicted : Action σ α Bool) := by
  refine redamps_bind (preserves_attempt _) fun ratio => ?_
  refine redamps_bind (fun _ => rfl) fun solver => ?_
  exact redamps_ite (lowerDamping_redamps _ _ _ _) (raiseDamping_redamps _ _ _ _)

theorem consider_redamps (predicted : α) : Redamps (consider predicted : Action σ α Bool) := by
  have rest (cost : α) : Redamps (do
      let actual := (← get).cost - cost
      if actual == 0.0 || predicted == 0.0 then
        report [.noReduction (← get).fullSteps]
        return true
      else judge cost actual predicted : Action σ α Bool) := by
    refine redamps_bind (fun _ => rfl) fun solver => redamps_ite ?_ (judge_redamps _ _ _)
    refine redamps_of_preserves (preserves_get_bind fun after => ?_)
    exact preserves_bind (preserves_modify fun _ => rfl) fun _ => fun _ => rfl
  refine redamps_bind preserves_evaluateCandidate fun cost => ?_
  exact redamps_ite (redamps_bind (fun _ => rfl) fun _ => rest cost) (rest cost)

theorem recoverFromFailure_redamps : Redamps (recoverFromFailure : Action σ α Bool) := by
  intro solver
  cases mixed : solver.settings.mixture == 0.0 with
  | true =>
      have ran : recoverFromFailure.run solver = (.error (.breakdown .singular), solver) := by
        unfold recoverFromFailure
        rw [run_get_bind, if_pos mixed]
        rfl
      rw [ran]
      exact .kept rfl rfl
  | false =>
      obtain ⟨trace, ran⟩ := recoverFromFailure_quadruples solver mixed
      rw [ran]
      exact .quadrupled rfl rfl

theorem tryStep_redamps [Spectral α] : Redamps (tryStep : Action σ α Bool) := by
  rw [tryStep_eq]
  refine redamps_bind preserves_propose fun predicted? => ?_
  cases predicted? with
  | none => exact recoverFromFailure_redamps
  | some predicted => exact consider_redamps predicted

omit [Scalar α] in
theorem preserves_conclude (converged : Bool) :
    Preserves tuning (iterate.conclude converged : Action σ α Bool) :=
  preserves_of_leaves fun _ => conclude_ensures converged fun _ => rfl

theorem iterate_redamps [Spectral α] (solver : Solver σ α) :
    Redamped solver solver.answer solver.next := by
  unfold answer next
  cases phase : solver.phase with
  | differentiate =>
      rw [iterate_run_differentiate phase]
      exact (redamps_of_preserves
        (preserves_bind preserves_updateDerivatives preserves_conclude) _).from rfl
  | search =>
      rw [iterate_run_search phase]
      exact (redamps_bind_preserves tryStep_redamps preserves_conclude _).from rfl
  | converged =>
      rw [iterate_run_converged phase]
      exact .kept rfl rfl

/-- The request is a start, and its settings are accepted. -/
def StartsOver (solver : Solver σ α) (command : Command σ α) : Prop :=
  ∃ point cost? gradient?, command = .start point cost? gradient? ∧ solver.canStart = true ∧
    (solver.settings.adopting cost? gradient?).check = .ok ()

theorem StartsOver.damping [Spectral α] {solver : Solver σ α} {command : Command σ α}
    (begins : solver.StartsOver command) :
    (solver.obey command).damping = solver.settings.initialDamping ∧
      (solver.obey command).growth = initialGrowth := by
  obtain ⟨point, cost?, gradient?, rfl, able, accepted⟩ := begins
  have tuned := start_tuning able accepted point
  simp only [tuning, Prod.mk.injEq] at tuned
  exact tuned.2.2

/-- Whatever is no call and does not start over leaves the damping alone. -/
theorem obey_damping [Spectral α] {solver : Solver σ α} {command : Command σ α}
    (others : ¬ solver.StartsOver command) (call : command ≠ .iterate) :
    (solver.obey command).damping = solver.damping ∧
      (solver.obey command).growth = solver.growth := by
  cases command with
  | configure settings? =>
      rw [obey_configure]
      exact ⟨rfl, rfl⟩
  | setLoss loss => exact ⟨rfl, rfl⟩
  | setVerbose verbose => exact ⟨rfl, rfl⟩
  | setFunctions residuals jacobian? split? world =>
      obtain ⟨_, _, given⟩ := setFunctions_given solver residuals jacobian? split? world
      simp [obey, given]
  | start point cost? gradient? =>
      cases able : solver.canStart with
      | false =>
          obtain ⟨fault, ran⟩ := start_run_idle able point cost? gradient?
          simp [obey, ran]
      | true =>
          cases checked : (solver.settings.adopting cost? gradient?).check with
          | error fault => simp [obey, start_run_refused able checked]
          | ok _ => exact (others ⟨point, cost?, gradient?, rfl, able, checked⟩).elim
  | iterate => exact (call rfl).elim

end Calls

end Solver

/-! ## Settings that are accepted -/

/-- What was compared for an accepted setting. -/
theorem Settings.check_eq_ok_iff [Scalar α] {settings : Settings α} :
    settings.check = .ok () ↔
      ¬ settings.gradientTolerance < 0.0 ∧ ¬ settings.costTolerance < 0.0 ∧
      (settings.rescaling = true →
        0.0 < settings.scalingMin ∧ settings.scalingMin ≤ settings.scalingMax) ∧
      (0.0 ≤ settings.mixture ∧ settings.mixture ≤ 1.0) ∧
      ¬ settings.initialDamping < 0.0 ∧ ¬ settings.diagonalMax < settings.diagonalMin := by
  unfold check DescentSettings.check
  by_cases tolerances : settings.gradientTolerance < 0.0 ∨ settings.costTolerance < 0.0
  · rw [if_pos tolerances]
    refine ⟨nofun, fun ⟨gradient, cost, _⟩ => ?_⟩
    exact (tolerances.elim gradient cost).elim
  rw [if_neg tolerances]
  by_cases interval : settings.rescaling = true ∧
      ¬ (0.0 < settings.scalingMin ∧ settings.scalingMin ≤ settings.scalingMax)
  · rw [if_pos interval]
    refine ⟨nofun, fun ⟨_, _, scaling, _⟩ => ?_⟩
    exact (interval.2 (scaling interval.1)).elim
  rw [if_neg interval, ok_bind]
  by_cases mixture : ¬ (0.0 ≤ settings.mixture ∧ settings.mixture ≤ 1.0)
  · rw [if_pos mixture]
    exact ⟨nofun, fun ⟨_, _, _, mixed, _⟩ => (mixture mixed).elim⟩
  rw [if_neg mixture]
  by_cases damping : settings.initialDamping < 0.0
  · rw [if_pos damping]
    exact ⟨nofun, fun ⟨_, _, _, _, initial, _⟩ => (initial damping).elim⟩
  rw [if_neg damping]
  by_cases diagonal : settings.diagonalMax < settings.diagonalMin
  · rw [if_pos diagonal]
    exact ⟨nofun, fun ⟨_, _, _, _, _, clamp⟩ => (clamp diagonal).elim⟩
  rw [if_neg diagonal]
  refine ⟨fun _ => ⟨fun less => tolerances (.inl less), fun less => tolerances (.inr less), ?_,
    not_not.mp mixture, damping, diagonal⟩, fun _ => rfl⟩
  intro rescaling
  by_contra empty
  exact interval ⟨rescaling, empty⟩

/-- Of doubles that are not less than zero only the undefined ones are not at least zero. -/
theorem zero_le_iff_not_isNaN {x : Float} (accepted : ¬ x < 0.0) :
    0.0 ≤ x ↔ x.isNaN = false := by
  have zero : (0.0 : Float).isNaN = false := by decide +kernel
  rw [FloatOrder.le_iff_not_lt]
  exact ⟨fun ⟨_, defined, _⟩ => defined, fun defined => ⟨zero, defined, accepted⟩⟩

theorem diagonal_le_iff_not_isNaN {least greatest : Float} (accepted : ¬ greatest < least) :
    least ≤ greatest ↔ least.isNaN = false ∧ greatest.isNaN = false := by
  rw [FloatOrder.le_iff_not_lt]
  exact ⟨fun ⟨defined, defined', _⟩ => ⟨defined, defined'⟩,
    fun ⟨defined, defined'⟩ => ⟨defined, defined', accepted⟩⟩

namespace Solver

/-! ## Histories of doubles -/

section Doubles

open FloatProducts

theorem pos_of_dampingFactor {ratio factor : Float} (found : dampingFactor ratio = .ok factor) :
    0.0 < factor := by
  have third : (0.0 : Float) < 1.0 / 3.0 := by decide +kernel
  unfold dampingFactor at found
  split at found
  · cases found
  · cases found
    split
    · next more => exact FloatOrder.strictOrder.trans _ _ _ third more
    · exact third

variable {before after : Solver σ Float} {ending : Except (Fault Float) β}

theorem Redamped.two_le_growth (redamped : Redamped before ending after)
    (large : 2.0 ≤ before.growth) : 2.0 ≤ after.growth := by
  have two : (2.0 : Float) ≤ initialGrowth := by decide +kernel
  cases redamped with
  | kept _ growth => exact growth ▸ large
  | quadrupled _ growth => exact growth ▸ large
  | raised _ growth _ => exact growth ▸ two_le_double large
  | lowered _ _ growth _ => exact growth ▸ two

/-- Zero was multiplied by something infinite, and the call failed for it. -/
def Overwhelms (before : Solver σ Float) (ending : Except (Fault Float) β)
    (after : Solver σ Float) : Prop :=
  (before.damping == 0.0) = true ∧
    (∃ factor : Float, factor.isFinite = false ∧
      (factor = before.growth ∨ ∃ ratio, dampingFactor ratio = .ok factor) ∧
      after.damping = before.damping * factor) ∧
    ending = .error (.breakdown (.runaway after.damping after.growth))

theorem Overwhelms.isNaN_damping (overwhelms : Overwhelms before ending after)
    (large : 2.0 ≤ before.growth) : after.damping.isNaN = true := by
  have two : (0.0 : Float) < 2.0 := by decide +kernel
  obtain ⟨zero, ⟨factor, infinite, growth | ⟨ratio, found⟩, damping⟩, -⟩ := overwhelms
  · rw [damping]
    exact isNaN_mul zero (growth ▸ FloatOrder.lt_of_lt_of_le two large) infinite
  · rw [damping]
    exact isNaN_mul zero (pos_of_dampingFactor found) infinite

theorem Redamped.zero_le_damping (redamped : Redamped before ending after)
    (large : 2.0 ≤ before.growth) (nonneg : 0.0 ≤ before.damping) :
    0.0 ≤ after.damping ∨ Overwhelms before ending after := by
  have two : (0.0 : Float) < 2.0 := by decide +kernel
  have four : (0.0 : Float) < 4.0 := by decide +kernel
  have product {factor : Float} (positive : 0.0 < factor)
      (origin : factor = before.growth ∨ ∃ ratio, dampingFactor ratio = .ok factor)
      (damping : after.damping = before.damping * factor)
      (finite : Scalar.isFinite after.damping = true ∨
        ending = .error (.breakdown (.runaway after.damping after.growth))) :
      0.0 ≤ after.damping ∨ Overwhelms before ending after := by
    obtain kept | ⟨undefined, zero, infinite⟩ := zero_le_mul nonneg positive
    · exact .inl (damping ▸ kept)
    · rw [← damping] at undefined
      refine .inr ⟨zero, ⟨factor, infinite, origin, damping⟩, finite.resolve_left fun finite => ?_⟩
      cases (NotANumber.isFinite_of_isNaN undefined).symm.trans finite
  cases redamped with
  | kept damping _ => exact .inl (damping ▸ nonneg)
  | quadrupled damping _ =>
      obtain kept | ⟨_, _, infinite⟩ := zero_le_mul nonneg four
      · exact .inl (damping ▸ kept)
      · cases infinite
  | raised damping _ finite =>
      exact product (FloatOrder.lt_of_lt_of_le two large) (.inl rfl) damping finite
  | lowered found damping _ finite =>
      exact product (pos_of_dampingFactor found) (.inr ⟨_, found⟩) damping finite

theorem Redamped.isNaN_damping (redamped : Redamped before ending after)
    (undefined : before.damping.isNaN = true) : after.damping.isNaN = true := by
  cases redamped with
  | kept damping _ => exact damping ▸ undefined
  | quadrupled damping _ => exact damping ▸ NotANumber.isNaN_mul_left undefined
  | raised damping _ _ => exact damping ▸ NotANumber.isNaN_mul_left undefined
  | lowered _ damping _ _ => exact damping ▸ NotANumber.isNaN_mul_left undefined

/-- Where an undefined damping comes from: it was the initial one, or a call multiplied zero by
something infinite and failed. A start whose settings are accepted sets it back. -/
inductive LosesDamping (idle : Solver σ Float) : List (Command σ Float) → Prop where
  | created : idle.damping.isNaN = true → LosesDamping idle []
  | started {history : List (Command σ Float)} {command : Command σ Float} :
      (idle.afterCommands history).StartsOver command →
      (idle.afterCommands history).settings.initialDamping.isNaN = true →
      LosesDamping idle (history ++ [command])
  | multiplied {history : List (Command σ Float)} :
      Overwhelms (idle.afterCommands history) (idle.afterCommands history).answer
        (idle.afterCommands history).next →
      LosesDamping idle (history ++ [.iterate])
  | passed {history : List (Command σ Float)} {command : Command σ Float} :
      LosesDamping idle history → ¬ (idle.afterCommands history).StartsOver command →
      LosesDamping idle (history ++ [command])

variable {idle : Solver σ Float} {history : List (Command σ Float)}

theorem zero_le_initialDamping {settings : Settings Float} (valid : settings.check = .ok ()) :
    0.0 ≤ settings.initialDamping ∨ settings.initialDamping.isNaN = true := by
  obtain ⟨_, _, _, _, initial, _⟩ := Settings.check_eq_ok_iff.mp valid
  cases undefined : settings.initialDamping.isNaN with
  | true => exact .inr rfl
  | false => exact .inl ((zero_le_iff_not_isNaN initial).mpr undefined)

theorem afterCommands_growth (growth : idle.growth = initialGrowth)
    (history : List (Command σ Float)) : 2.0 ≤ (idle.afterCommands history).growth := by
  have two : (2.0 : Float) ≤ initialGrowth := by decide +kernel
  induction history using List.reverseRecOn with
  | nil => exact growth.symm ▸ two
  | append_singleton history command previous =>
      rw [afterCommands_concat]
      by_cases begins : (idle.afterCommands history).StartsOver command
      · rw [begins.damping.2]
        exact two
      by_cases call : command = .iterate
      · subst call
        exact (iterate_redamps _).two_le_growth previous
      · rw [(obey_damping begins call).2]
        exact previous

theorem LosesDamping.isNaN_damping (growth : idle.growth = initialGrowth)
    (loses : idle.LosesDamping history) : (idle.afterCommands history).damping.isNaN = true := by
  induction loses with
  | created undefined => exact undefined
  | started begins undefined =>
      rw [afterCommands_concat, begins.damping.1]
      exact undefined
  | multiplied overwhelms =>
      rw [afterCommands_concat]
      exact overwhelms.isNaN_damping (afterCommands_growth growth _)
  | @passed history command loses others previous =>
      rw [afterCommands_concat]
      by_cases call : command = .iterate
      · subst call
        exact (iterate_redamps _).isNaN_damping previous
      · rw [(obey_damping others call).1]
        exact previous

/-- The damping is at least zero unless it was lost. -/
theorem afterCommands_damping (valid : idle.settings.check = .ok ())
    (damping : idle.damping = idle.settings.initialDamping) (growth : idle.growth = initialGrowth)
    (history : List (Command σ Float)) :
    0.0 ≤ (idle.afterCommands history).damping ∨ idle.LosesDamping history := by
  induction history using List.reverseRecOn with
  | nil =>
      obtain nonneg | undefined := zero_le_initialDamping valid
      · exact .inl (damping.symm ▸ nonneg)
      · exact .inr (.created (damping.symm ▸ undefined))
  | append_singleton history command previous =>
      rw [afterCommands_concat]
      by_cases begins : (idle.afterCommands history).StartsOver command
      · rw [begins.damping.1]
        obtain ⟨_, cost?, gradient?, -, -, accepted⟩ := id begins
        obtain nonneg | undefined := zero_le_initialDamping accepted
        · exact .inl nonneg
        · exact .inr (.started begins undefined)
      by_cases call : command = .iterate
      · subst call
        obtain nonneg | loses := previous
        · have large := afterCommands_growth growth history
          exact ((iterate_redamps _).zero_le_damping large nonneg).imp_right .multiplied
        · exact .inr (.passed loses begins)
      · rw [(obey_damping begins call).1]
        exact previous.imp_right fun loses => .passed loses begins

theorem create_tuning {form : JacobianForm} {normal : NormalMatrix Float}
    {settings : Settings Float} {world : σ}
    (created : create form normal settings world = .ok idle) :
    idle.settings.check = .ok () ∧ idle.damping = idle.settings.initialDamping ∧
      idle.growth = initialGrowth := by
  obtain ⟨_, valid, made⟩ := of_bind created
  cases made
  exact ⟨valid, rfl, rfl⟩

/-- Which comparisons hold of settings that are accepted, and how they bound growth and damping in
every history. A comparison that is only refused where its opposite holds lets undefined values
pass, and so does every bound that rests on it. -/
theorem damping_range {form : JacobianForm} {normal : NormalMatrix Float}
    {settings : Settings Float} {world : σ}
    (created : create form normal settings world = .ok idle) (history : List (Command σ Float)) :
    (∀ settings : Settings Float, settings.check = .ok () →
      (0.0 ≤ settings.mixture ∧ settings.mixture ≤ 1.0) ∧
      (settings.rescaling = true →
        0.0 < settings.scalingMin ∧ settings.scalingMin ≤ settings.scalingMax) ∧
      (0.0 ≤ settings.gradientTolerance ↔ settings.gradientTolerance.isNaN = false) ∧
      (0.0 ≤ settings.costTolerance ↔ settings.costTolerance.isNaN = false) ∧
      (0.0 ≤ settings.initialDamping ↔ settings.initialDamping.isNaN = false) ∧
      (settings.diagonalMin ≤ settings.diagonalMax ↔
        settings.diagonalMin.isNaN = false ∧ settings.diagonalMax.isNaN = false)) ∧
    2.0 ≤ (idle.afterCommands history).growth ∧
    (0.0 ≤ (idle.afterCommands history).damping ↔ ¬ idle.LosesDamping history) ∧
    ((idle.afterCommands history).damping.isNaN = true ↔ idle.LosesDamping history) := by
  obtain ⟨valid, damping, growth⟩ := create_tuning created
  have range := afterCommands_damping valid damping growth history
  have undefined (loses : idle.LosesDamping history) := loses.isNaN_damping growth
  refine ⟨fun settings accepted => ?_, afterCommands_growth growth history,
    ⟨fun nonneg loses => ?_, range.resolve_right⟩, ⟨fun lost => ?_, undefined⟩⟩
  · obtain ⟨gradient, cost, scaling, mixture, initial, diagonal⟩ :=
      Settings.check_eq_ok_iff.mp accepted
    exact ⟨mixture, scaling, zero_le_iff_not_isNaN gradient, zero_le_iff_not_isNaN cost,
      zero_le_iff_not_isNaN initial, diagonal_le_iff_not_isNaN diagonal⟩
  · obtain ⟨_, defined, _⟩ := FloatOrder.le_iff_not_lt.mp nonneg
    cases defined.symm.trans (undefined loses)
  · refine range.resolve_left fun nonneg => ?_
    obtain ⟨_, defined, _⟩ := FloatOrder.le_iff_not_lt.mp nonneg
    cases defined.symm.trans lost

/-- The usual settings, but the damping that a search begins with is undefined. -/
def undefinedDamping : Settings Float := { Settings.standard with initialDamping := 0.0 / 0.0 }

theorem undefinedDamping_accepted : undefinedDamping.check = .ok () := by
  have accepted : undefinedDamping.check.isOk = true := by decide +kernel
  cases checked : undefinedDamping.check with
  | error fault =>
      rw [checked] at accepted
      cases accepted
  | ok _ => rfl

def undefinedSearch : Solver Unit Float :=
  { soleSearch with settings := undefinedDamping, damping := undefinedDamping.initialDamping }

theorem undefinedSearch_created : create .whole (.whole (WholeNormal.create .elimination))
    undefinedDamping () = .ok undefinedSearch := by
  unfold create
  rw [undefinedDamping_accepted]
  rfl

/-- With the usual settings two calls do not lose the damping, with undefined ones it is lost. -/
theorem damping_range_undefined :
    ¬ soleSearch.LosesDamping (givenFunctions ++ [.start [1.0] none none, .iterate, .iterate]) ∧
      (undefinedSearch.afterCommands
        (givenFunctions ++ [.start [1.0] none none])).damping.isNaN = true ∧
      2.0 ≤ (undefinedSearch.afterCommands
        (givenFunctions ++ [.start [1.0] none none])).growth := by
  have kept : (0.0 : Float) ≤ (soleSearch.afterCommands
      (givenFunctions ++ [.start [1.0] none none, .iterate, .iterate])).damping := by
    decide +kernel
  have undefined : undefinedDamping.initialDamping.isNaN = true := by decide +kernel
  have begins : (undefinedSearch.afterCommands givenFunctions).StartsOver
      (.start [1.0] none none) :=
    ⟨[1.0], none, none, rfl, rfl, undefinedDamping_accepted⟩
  refine ⟨(damping_range soleSearch_created _).2.2.1.mp kept, ?_, ?_⟩
  · exact (damping_range undefinedSearch_created _).2.2.2.mpr (.started begins undefined)
  · exact (damping_range undefinedSearch_created _).2.1

/-- An initial damping that is accepted need not be at least zero. -/
theorem accepted_damping_undefined :
    ¬ ∀ settings : Settings Float, settings.check = .ok () → 0.0 ≤ settings.initialDamping := by
  intro bounded
  have nonneg := bounded undefinedDamping undefinedDamping_accepted
  revert nonneg
  decide +kernel

end Doubles

end Solver

end DampedLeastSquares
