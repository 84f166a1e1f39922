import Mathlib
import DampedLeastSquares.Proofs.Commands
import DampedLeastSquares.Proofs.CostGradient
import DampedLeastSquares.Proofs.LinearResiduals

/-!
# Searches that are configured between calls

The settings tell whether derivatives are brought to units of their own. They are
asked for it when derivatives are computed, and again by every call that brings a
step back to the units of the parameters. Configuring a search between the two
leaves derivatives in one kind of units and brings the step back from another.
-/

set_option autoImplicit false

open scoped Matrix

namespace DampedLeastSquares

open Exact NormalMatrix

variable {σ : Type} {k l : Nat}

namespace Solver

/-! ## Units -/

/-- A step comes back from the units of the derivatives if the settings asked for the same kind of
units when these were computed, or if there is nothing to choose. -/
theorem Undoes.eq_iff {solver : Solver σ ℝ} {under : Settings ℝ} {jacobian : RealMatrix l k}
    {slopes : Fin l → ℝ} {carried taken : Fin k → ℝ} (undoes : solver.Undoes taken)
    (ready : Ready { solver with settings := under } jacobian slopes carried) :
    taken = carried ↔
      solver.settings.rescaling = under.rescaling ∨ solver.scaling = List.ofFn (1 : Fin k → ℝ) := by
  have scaled (rescaling : under.rescaling = true) : solver.scaling = List.ofFn carried :=
    ready.scaled rescaling
  have plain (plain : under.rescaling = false) : carried = 1 := ready.toLinearized.unscaled plain
  cases now : solver.settings.rescaling <;> cases derived : under.rescaling
  · rw [undoes.plain now, plain derived]
    simp
  · rw [undoes.plain now, scaled derived, List.ofFn_inj, eq_comm]
    simp
  · rw [undoes.scaled now, plain derived, List.ofFn_inj]
    simp
  · have same := (undoes.scaled now).symm.trans (scaled derived)
    simp [List.ofFn_inj.mp same]

variable [Spectral ℝ]

/-! ## Histories -/

/-- The request configures the search or advances it. -/
def Steers (command : Command σ ℝ) : Prop :=
  command = .iterate ∨ ∃ settings?, command = .configure settings?

/-- Every call of the history either settled the loss on what it took over or took nothing over. -/
def Untorn (started : Solver σ ℝ) (history : List (Command σ ℝ)) : Prop :=
  ∀ earlier, earlier ++ [.iterate] <+: history → ∀ fault,
    ¬ Torn (started.afterCommands earlier) (started.afterCommands (earlier ++ [.iterate])) fault

/-- Derivatives were computed last by the call that came after `earlier`. -/
def DerivedAfter (started : Solver σ ℝ) (history earlier : List (Command σ ℝ)) : Prop :=
  ∃ later, history = earlier ++ .iterate :: later ∧
    (started.afterCommands earlier).phase = .differentiate ∧
    ∀ middle, middle <+: later →
      (started.afterCommands (earlier ++ .iterate :: middle)).phase = .search

theorem DerivedAfter.concat {started : Solver σ ℝ} {history earlier : List (Command σ ℝ)}
    (derived : started.DerivedAfter history earlier) {command : Command σ ℝ}
    (searching : (started.afterCommands (history ++ [command])).phase = .search) :
    started.DerivedAfter (history ++ [command]) earlier := by
  obtain ⟨later, rfl, phase, between⟩ := derived
  rw [List.append_assoc, List.cons_append] at searching ⊢
  refine ⟨later ++ [command], rfl, phase, fun middle before => ?_⟩
  obtain same | before := List.prefix_concat_iff.mp before
  · rw [same]
    exact searching
  · exact between middle before

theorem DerivedAfter.of_differentiate {started : Solver σ ℝ} {history : List (Command σ ℝ)}
    (phase : (started.afterCommands history).phase = .differentiate)
    (searching : (started.afterCommands (history ++ [.iterate])).phase = .search) :
    started.DerivedAfter (history ++ [.iterate]) history := by
  refine ⟨[], rfl, phase, fun middle before => ?_⟩
  rw [List.prefix_nil.mp before]
  exact searching

/-- What holds after a history: derivatives of the parameters are held whenever a step is looked
for, in the units of the settings that they were computed under. -/
structure Steered (started : Solver σ ℝ) (history : List (Command σ ℝ))
    (parameters functions : Nat) : Prop where
  sited : (started.afterCommands history).Sited parameters functions
  held : (started.afterCommands history).phase = .search → ∃ earlier,
    started.DerivedAfter history earlier ∧
      (started.afterCommands earlier).settings.check = .ok () ∧
      (started.afterCommands history).Held (started.afterCommands earlier).settings parameters
        functions

theorem Steered.configure {started : Solver σ ℝ} {history : List (Command σ ℝ)}
    (steered : started.Steered history k l) (settings? : Option (Settings ℝ)) :
    started.Steered (history ++ [.configure settings?]) k l := by
  have valid := check_configure steered.sited.valid settings?
  have configured := obey_configure (started.afterCommands history) settings?
  rw [configured] at valid
  rw [← afterCommands_concat] at configured
  constructor
  · rw [configured]
    exact ⟨{ steered.sited.sized with x := steered.sited.sized.x }, steered.sited.eliminates,
      valid, steered.sited.measured⟩
  · intro searching
    have before : (started.afterCommands history).phase = .search := by
      rw [configured] at searching
      exact searching
    obtain ⟨earlier, derived, valid, held⟩ := steered.held before
    refine ⟨earlier, derived.concat searching, valid, ?_⟩
    rw [configured]
    exact held

theorem Steered.iterate {started : Solver σ ℝ} {history : List (Command σ ℝ)}
    (steered : started.Steered history k l)
    (untorn : ∀ fault, ¬ Torn (started.afterCommands history)
      (started.afterCommands (history ++ [.iterate])) fault) :
    started.Steered (history ++ [.iterate]) k l := by
  have called : started.afterCommands (history ++ [.iterate]) =
      (started.afterCommands history).next := afterCommands_concat _ _ _
  cases phase : (started.afterCommands history).phase with
  | differentiate =>
      have supplied := next_supplied steered.sited phase
      rw [← called] at supplied
      exact ⟨supplied.toSited, fun searching => ⟨history, .of_differentiate phase searching,
        steered.sited.valid, supplied.held searching⟩⟩
  | search =>
      obtain ⟨earlier, derived, valid, jacobian, slopes, carried, ready⟩ := steered.held phase
      obtain ⟨sited, kept⟩ := ready.next steered.sited phase
      rw [← called] at sited kept
      refine ⟨sited, fun searching => ⟨earlier, derived.concat searching, valid, ?_⟩⟩
      obtain ⟨fault, torn⟩ | ready := kept
      · exact (untorn fault torn).elim
      · exact ⟨jacobian, slopes, carried, ready searching⟩
  | converged =>
      rw [(rests phase).2] at called
      refine ⟨?_, fun searching => ?_⟩
      · rw [called]
        exact steered.sited.counted _ _
      · rw [called] at searching
        cases phase.symm.trans searching

theorem steered_of_sited {started : Solver σ ℝ} (sited : started.Sited k l)
    (waits : started.phase ≠ .search) {history : List (Command σ ℝ)}
    (steers : ∀ command ∈ history, Steers command) (untorn : started.Untorn history) :
    started.Steered history k l := by
  induction history using List.reverseRecOn with
  | nil => exact ⟨sited, fun searching => (waits searching).elim⟩
  | append_singleton history command previous =>
      have steered := previous
        (fun command member => steers command (List.mem_append_left _ member))
        fun earlier before => untorn earlier (before.trans (List.prefix_append _ _))
      obtain rfl | ⟨settings?, rfl⟩ := steers command (List.mem_append_right _ (by simp))
      · exact steered.iterate (untorn history List.prefix_rfl)
      · exact steered.configure settings?

/-! ## Directions -/

/-- The step that the next call tries. It solves the system of the derivatives in the units that
these are in, descends there, and is brought back from the units that the settings ask for now. -/
structure StepsFrom (now : Solver σ ℝ) (under : Settings ℝ) (jacobian : RealMatrix l k)
    (slopes : Fin l → ℝ) (carried taken x scaled : Fin k → ℝ) : Prop where
  ready : Ready { now with settings := under } jacobian slopes carried
  undoes : now.Undoes taken
  moves : now.Moves now.next x (scaled / taken)
  solves : now.dampedSystem jacobian carried *ᵥ scaled = -(jacobianᵀ *ᵥ slopes / carried)
  descends : (jacobianᵀ *ᵥ slopes / carried) ⬝ᵥ scaled < 0

theorem stepsFrom_of_ready {now : Solver σ ℝ} (sited : now.Sited k l)
    (computes : now.ComputesStep) {under : Settings ℝ} (valid : under.check = .ok ())
    {jacobian : RealMatrix l k} {slopes : Fin l → ℝ} {carried : Fin k → ℝ}
    (ready : Ready { now with settings := under } jacobian slopes carried) :
    ∃ taken x scaled, now.StepsFrom under jacobian slopes carried taken x scaled := by
  obtain ⟨taken, undoes⟩ := exists_undoes sited.sized
  obtain ⟨x, x_eq⟩ := exists_ofFn sited.sized.x
  have definite := (computesStep_iff sited computes.1 ready.carries).mp computes
  obtain ⟨_, moves⟩ := next_carried sited computes.1 ready.carries undoes x_eq rfl
  have nonzero (index : Fin k) : carried index ≠ 0 := ready.toLinearized.scaling_ne valid index
  have steep : jacobianᵀ *ᵥ slopes / carried ≠ 0 :=
    (div_units_eq_zero_iff nonzero _).not.mpr ready.steep
  exact ⟨taken, x, _, ready, undoes, moves definite, mulVec_solution definite _,
    dotProduct_solution_neg definite steep⟩

/-- However a search is configured between calls, each step descends in the units that its
derivatives are in. It is brought back from these exactly if the settings ask for units as they did
when the derivatives were computed, or all units are one, and then it descends. -/
theorem steps_descend_in_units (idle started : Solver σ ℝ) (point : Vec ℝ)
    (cost? gradient? : Option ℝ)
    (success : (start point cost? gradient?).run idle = (.ok (), started))
    (eliminates : idle.normal.layout?.isSome) (history : List (Command σ ℝ))
    (steers : ∀ command ∈ history, Steers command) (untorn : started.Untorn history)
    (now : Solver σ ℝ) (reached : started.afterCommands history = now)
    (computes : now.ComputesStep) :
    ∃ earlier, started.DerivedAfter history earlier ∧
      ∃ (jacobian : RealMatrix started.residuals.length point.length)
        (slopes : Fin started.residuals.length → ℝ) (carried taken x scaled : Fin point.length → ℝ),
        now.StepsFrom (started.afterCommands earlier).settings jacobian slopes carried taken x
          scaled ∧
        (taken = carried ↔
          now.settings.rescaling = (started.afterCommands earlier).settings.rescaling ∨
            now.scaling = List.ofFn (1 : Fin point.length → ℝ)) ∧
        (taken = carried → (jacobianᵀ *ᵥ slopes) ⬝ᵥ (scaled / taken) < 0) := by
  subst reached
  have ready := (start_ensures idle point cost? gradient?).of_run_ok success
  have waits : started.phase ≠ .search := by
    rw [ready.phase]
    nofun
  have steered := steered_of_sited (ready.sited eliminates) waits steers untorn
  obtain ⟨earlier, derived, valid, jacobian, slopes, carried, ready⟩ := steered.held computes.1
  obtain ⟨taken, x, scaled, steps⟩ := stepsFrom_of_ready steered.sited computes valid ready
  refine ⟨earlier, derived, jacobian, slopes, carried, taken, x, scaled, steps,
    steps.undoes.eq_iff ready, ?_⟩
  rintro rfl
  rw [dotProduct_div]
  exact steps.descends

/-! ## A step that ascends -/

/-- Two columns that are far from orthogonal and of different lengths. -/
noncomputable def skewMatrix : RealMatrix 2 2 := !![1, 8; 0, 6]

noncomputable def skewOffset : Fin 2 → ℝ := ![-7, 6]

noncomputable def skewSettings (rescaling : Bool) : Settings ℝ :=
  { Settings.standard with rescaling := rescaling }

noncomputable def skewProblem : Problem Unit ℝ :=
  ⟨fun x => pure (.vector (linearResiduals skewMatrix skewOffset x)), fun _ =>
    pure (.whole (.matrix (.dense (DenseMatrix.ofMatrix skewMatrix))))⟩

noncomputable def skewSearch : Solver Unit ℝ :=
  { unitSearch with settings := skewSettings true, problem? := some skewProblem }

/-- A call with units of their own, and then settings without. -/
noncomputable def reconfigured : List (Command Unit ℝ) :=
  [.iterate, .configure (some (skewSettings false))]

omit [Spectral ℝ] in
theorem skewSettings_valid (rescaling : Bool) : (skewSettings rescaling).check = .ok () :=
  Settings.Proper.check { Settings.standard_proper with
    scaling := fun _ => show (0 : ℝ) < 1.0e-5 ∧ (1.0e-5 : ℝ) ≤ 1.0e5 by norm_num }

omit [Spectral ℝ] in
theorem skewProblem_linear : skewProblem.Linear .whole skewMatrix skewOffset where
  residuals x before := by
    refine ⟨_, before, rfl, ?_⟩
    change linearResiduals skewMatrix skewOffset (List.ofFn x) = _
    rw [linearResiduals_ofFn]
  jacobian x before := ⟨_, before, rfl, _, rfl, _, rfl, Matrix.represents_dense _⟩

omit [Spectral ℝ] in
theorem skewMatrix_gram : skewMatrixᵀ * skewMatrix = !![1, 8; 8, 100] := by
  unfold skewMatrix
  ext row column
  fin_cases row <;> fin_cases column <;> norm_num [Matrix.mul_apply, Fin.sum_univ_two]

omit [Spectral ℝ] in
theorem skewMatrix_scales :
    scales (skewSettings true) (skewMatrixᵀ * skewMatrix) = ![1, 10] := by
  have factor {entry root : ℝ} (square : entry = root ^ 2) (least : 1 ≤ root) (most : root ≤ 10) :
      scalingFactor (skewSettings true) entry = root := by
    rw [scalingFactor, clamp_eq]
    change min (max (Real.sqrt |entry|) 1.0e-5) 1.0e5 = root
    rw [square, abs_of_nonneg (sq_nonneg root), Real.sqrt_sq (by linarith)]
    rw [max_eq_left (least.trans' (by norm_num)), min_eq_left (most.trans (by norm_num))]
  rw [skewMatrix_gram]
  funext index
  fin_cases index
  · exact factor (by norm_num) (by norm_num) (by norm_num)
  · exact factor (by norm_num) (by norm_num) (by norm_num)

omit [Spectral ℝ] in
theorem skewMatrix_slope : skewMatrixᵀ *ᵥ -skewOffset = ![7, 20] := by
  unfold skewMatrix skewOffset
  funext index
  fin_cases index <;> norm_num [Matrix.mulVec, dotProduct, Fin.sum_univ_two]

omit [Spectral ℝ] in
theorem dampedEntry_one :
    dampedEntry (skewSettings false) 1.0e-3 (1 : ℝ) = 1001 / 1000 := by
  have within : (1.0e-6 : ℝ) ≤ 1 ∧ (1 : ℝ) ≤ 1.0e32 := by norm_num
  rw [dampedEntry_of_clampedEntry (clampedEntry_within zero_le_one within)]
  norm_num

/-- The first call of the skew search computes derivatives in units of their own. -/
theorem skewSearch_searches {started : Solver Unit ℝ}
    (success : (start (List.ofFn (0 : Fin 2 → ℝ)) none none).run skewSearch = (.ok (), started)) :
    started.next.phase = .search ∧ started.next.damping = 1.0e-3 ∧ started.next.Sited 2 2 ∧
      started.next.settings = skewSettings true ∧
      started.next.Ready skewMatrix (-skewOffset) ![1, 10] := by
  obtain ⟨ready, _, _, _, settings⟩ := (start_leaves _ _ _ _).of_run_ok success
  have aligned := aligned_of_start success rfl skewProblem_linear rfl rfl
  have settings : started.settings = skewSettings true := settings
  have hands : started.Hands skewMatrix := by
    refine ⟨_, _, _, ready.problem, rfl, ?_, ?_⟩
    · rw [ready.form]
      exact ⟨_, rfl, _, rfl, Matrix.represents_dense _⟩
    · rw [ready.form, ready.normal]
      exact fun _ => ⟨_, rfl⟩
  have found := aligned.slopes ready.x
  rw [Matrix.mulVec_zero, zero_sub] at found
  have steep : started.settings.gradientTolerance < |(skewMatrixᵀ *ᵥ -skewOffset) 0| := by
    rw [skewMatrix_slope, settings]
    change (1.0e-8 : ℝ) < |7|
    norm_num
  have searching := next_searches aligned.supplied.sized ready.phase hands found ⟨0, steep⟩
  obtain ⟨x, x_eq, _, held⟩ :=
    (aligned.next skewProblem_linear).ready skewProblem_linear searching
  obtain ⟨_, _, _, _, _, _, _, _, same⟩ := next_differenced ready.phase
  have settings' : started.next.settings = skewSettings true := by
    rw [same]
    exact settings
  have origin : x = 0 := by
    rw [same] at x_eq
    exact List.ofFn_injective (x_eq.symm.trans ready.x)
  rw [origin, Matrix.mulVec_zero, zero_sub, settings', skewMatrix_scales] at held
  refine ⟨searching, ?_, (aligned.next skewProblem_linear).supplied.toSited, settings', held⟩
  rw [(next_of_differentiate ready.phase).1, ready.damping, settings]
  rfl

omit [Spectral ℝ] in
theorem skew_dampedSystem {now : Solver Unit ℝ} (settings : now.settings = skewSettings false)
    (damping : now.damping = 1.0e-3) : now.dampedSystem skewMatrix ![1, 10] =
      !![1001 / 1000, 4 / 5; 4 / 5, 1001 / 1000] := by
  have diagonal (index : Fin 2) : divided (skewMatrixᵀ * skewMatrix) ![1, 10] index index = 1 := by
    rw [skewMatrix_gram]
    fin_cases index <;> norm_num [divided]
  have across : divided (skewMatrixᵀ * skewMatrix) ![1, 10] 0 1 = 4 / 5 ∧
      divided (skewMatrixᵀ * skewMatrix) ![1, 10] 1 0 = 4 / 5 := by
    rw [skewMatrix_gram]
    constructor <;> norm_num [divided]
  unfold dampedSystem
  simp only [diagonal, settings, damping, dampedEntry_one]
  ext row column
  fin_cases row <;> fin_cases column <;> simp [withDiagonal, across]

omit [Spectral ℝ] in
theorem skew_posDef :
    (!![1001 / 1000, 4 / 5; 4 / 5, 1001 / 1000] : RealMatrix 2 2).PosDef :=
  posDef_pair_iff.mpr (by norm_num [abs_of_pos])

/-- Settings without units of their own find derivatives in such units. -/
theorem reconfigured_computes {started : Solver Unit ℝ}
    (success : (start (List.ofFn (0 : Fin 2 → ℝ)) none none).run skewSearch = (.ok (), started)) :
    ∃ now, started.afterCommands reconfigured = now ∧ now.Sited 2 2 ∧ now.ComputesStep ∧
      now.settings = skewSettings false ∧ now.damping = 1.0e-3 ∧
      Ready { now with settings := skewSettings true } skewMatrix (-skewOffset) ![1, 10] := by
  obtain ⟨searching, damping, sited, settings, ready⟩ := skewSearch_searches success
  have configured : started.afterCommands reconfigured =
      { started.next with settings := skewSettings false } :=
    congrArg Prod.snd (configure_run_ok (skewSettings_valid false) started.next)
  have sited : Sited { started.next with settings := skewSettings false } 2 2 :=
    ⟨{ sited.sized with x := sited.sized.x }, sited.eliminates, skewSettings_valid false,
      sited.measured⟩
  have ready : Ready { started.next with settings := skewSettings true } skewMatrix
      (-skewOffset) ![1, 10] := settings ▸ ready
  have system := @skew_dampedSystem { started.next with settings := skewSettings false } rfl damping
  exact ⟨_, configured, sited, (computesStep_iff sited searching
    (ready.carries.of_system rfl)).mpr (system.symm ▸ skew_posDef), rfl, damping, ready⟩

omit [Spectral ℝ] in
theorem skewSearch_starts : ∃ started,
    (start (List.ofFn (0 : Fin 2 → ℝ)) none none).run skewSearch = (.ok (), started) :=
  start_linear (skewSettings_valid true) rfl skewProblem_linear rfl

omit [Spectral ℝ] in
/-- After a start at zero, a call, and other settings, the next call computes a step. -/
theorem steps_descend_in_units_reconfigured : ∃ (_ : Spectral ℝ) (started now : Solver Unit ℝ),
    (start (List.ofFn (0 : Fin 2 → ℝ)) none none).run skewSearch = (.ok (), started) ∧
      started.Untorn reconfigured ∧ started.afterCommands reconfigured = now ∧
      now.ComputesStep ∧ ∃ earlier, started.DerivedAfter reconfigured earlier ∧
        ∃ (jacobian : RealMatrix started.residuals.length (List.ofFn (0 : Fin 2 → ℝ)).length)
          (slopes : Fin started.residuals.length → ℝ)
          (carried taken x scaled : Fin (List.ofFn (0 : Fin 2 → ℝ)).length → ℝ),
          now.StepsFrom (started.afterCommands earlier).settings jacobian slopes carried taken x
            scaled := by
  let spectral : Spectral ℝ := ⟨fun _ => []⟩
  obtain ⟨started, success⟩ := skewSearch_starts
  obtain ⟨now, reached, _, computes, _⟩ := reconfigured_computes success
  have steers : ∀ command ∈ reconfigured, Steers command := by
    intro command member
    simp only [reconfigured, List.mem_cons, List.not_mem_nil, or_false] at member
    obtain rfl | rfl := member
    · exact .inl rfl
    · exact .inr ⟨_, rfl⟩
  have untorn : started.Untorn reconfigured := by
    intro earlier before fault
    have phase : started.phase = .differentiate :=
      ((start_ensures _ _ _ _).of_run_ok success).phase
    obtain rfl : earlier = [] := by
      obtain ⟨rest, joined⟩ := before
      cases earlier with
      | nil => rfl
      | cons _ earlier => cases earlier <;> simp [reconfigured] at joined
    exact not_torn_of_differentiate phase
  obtain ⟨earlier, derived, jacobian, slopes, carried, taken, x, scaled, steps, _⟩ :=
    steps_descend_in_units skewSearch started _ none none success rfl reconfigured steers untorn now
      reached computes
  exact ⟨spectral, started, now, success, untorn, reached, computes, earlier, derived, jacobian,
    slopes, carried, taken, x, scaled, steps⟩

omit [Spectral ℝ] in
/-- The step of a search that was configured after its derivatives were computed ascends. -/
theorem reconfigured_step_ascends : ∃ (_ : Spectral ℝ) (started now : Solver Unit ℝ)
    (slopes x step : Fin 2 → ℝ),
    (start (List.ofFn (0 : Fin 2 → ℝ)) none none).run skewSearch = (.ok (), started) ∧
      started.afterCommands reconfigured = now ∧
      (skewSettings true).check = .ok () ∧ (skewSettings false).check = .ok () ∧
      now.Measured now.x now.residuals ∧ now.Differentiated now.x skewMatrix ∧
      now.loss.gradientInto 2 now.residuals = .ok (List.ofFn slopes) ∧
      now.ComputesStep ∧ now.Moves now.next x step ∧ 0 < (skewMatrixᵀ *ᵥ slopes) ⬝ᵥ step := by
  let spectral : Spectral ℝ := ⟨fun _ => []⟩
  obtain ⟨started, success⟩ := skewSearch_starts
  obtain ⟨now, reached, sited, computes, settings, damping, ready⟩ := reconfigured_computes success
  obtain ⟨taken, x, scaled, steps⟩ :=
    stepsFrom_of_ready sited computes (skewSettings_valid true) ready
  refine ⟨spectral, started, now, -skewOffset, x, scaled / taken, success, reached,
    skewSettings_valid true, skewSettings_valid false, ready.measured, ready.differentiated,
    ready.slopes_eq, computes, steps.moves, ?_⟩
  have plain : taken = 1 := steps.undoes.plain (by rw [settings]; rfl)
  have solves := steps.solves
  rw [skew_dampedSystem settings damping, skewMatrix_slope] at solves
  have first : 1001 / 1000 * scaled 0 + 4 / 5 * scaled 1 = -7 := by
    simpa [Matrix.mulVec, dotProduct, Fin.sum_univ_two] using congrFun solves 0
  have second : 4 / 5 * scaled 0 + 1001 / 1000 * scaled 1 = -2 := by
    have row := congrFun solves 1
    norm_num [Matrix.mulVec, dotProduct, Fin.sum_univ_two] at row
    exact row
  have slope : ![7, 20] ⬝ᵥ scaled = 7 * scaled 0 + 20 * scaled 1 := by
    simp [dotProduct, Fin.sum_univ_two]
  rw [plain, div_one, skewMatrix_slope, slope]
  linarith

end Solver

end DampedLeastSquares
