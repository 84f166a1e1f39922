import Mathlib
import DampedLeastSquares.Proofs.DampingRange
import DampedLeastSquares.Proofs.Prediction

/-!
# Which dampings have a step

In exact arithmetic a search finds a step for every damping from some point on, and unless the
diagonal is clamped from above it finds one for every positive damping. Among the dampings that have
a step, the higher one has the shorter step and predicts the smaller reduction, so what is tried
after a rejection is no longer than what was rejected. The step of a system is the best one of its
quadratic model, and this follows from exchanging the steps of two dampings between their models.
-/

set_option autoImplicit false

open scoped Matrix

namespace DampedLeastSquares

open Exact NormalMatrix

variable {σ : Type} {k l : Nat}

/-! ## The best step -/

/-- What a quadratic model gains along a step. -/
noncomputable def gain (system : RealMatrix k k) (slope step : Fin k → ℝ) : ℝ :=
  -(slope ⬝ᵥ step) - 0.5 * (step ⬝ᵥ system *ᵥ step)

theorem gain_eq (system : RealMatrix k k) (slope step : Fin k → ℝ) :
    gain system slope step = -(slope ⬝ᵥ step) - 1 / 2 * (step ⬝ᵥ system *ᵥ step) := by
  rw [gain, literal_half]

/-- No other step gains more than the solution of the system. -/
theorem gain_le {system : RealMatrix k k} (definite : system.PosDef) {slope step : Fin k → ℝ}
    (step_eq : step = -(system⁻¹ *ᵥ slope)) (other : Fin k → ℝ) :
    gain system slope other ≤ gain system slope step := by
  have solves : system *ᵥ step = -slope := step_eq ▸ mulVec_solution definite slope
  have symmetric : step ⬝ᵥ system *ᵥ other = -(slope ⬝ᵥ other) := by
    have transposed : systemᵀ = system := isHermitian_iff_isSymm.mp definite.isHermitian
    rw [Matrix.dotProduct_mulVec, ← Matrix.mulVec_transpose, transposed, solves, neg_dotProduct]
  have square := definite.posSemidef.dotProduct_mulVec_nonneg (other - step)
  rw [star_trivial, Matrix.mulVec_sub, solves, sub_dotProduct, dotProduct_sub, dotProduct_sub,
    symmetric, dotProduct_neg, dotProduct_neg, dotProduct_comm other slope,
    dotProduct_comm step slope] at square
  rw [gain_eq, gain_eq, solves, dotProduct_neg, dotProduct_comm step slope]
  linarith

section Exchange

variable {matrix : RealMatrix k k} {plain shares slope : Fin k → ℝ}

theorem gain_raised (less more : ℝ) (vector : Fin k → ℝ) :
    gain (withDiagonal matrix fun index => plain index + more * shares index) slope vector =
      gain (withDiagonal matrix fun index => plain index + less * shares index) slope vector -
        1 / 2 * ((more - less) * ∑ index, shares index * vector index ^ 2) := by
  have raised : ∑ index, (plain index + more * shares index -
      (plain index + less * shares index)) * vector index ^ 2 =
      (more - less) * ∑ index, shares index * vector index ^ 2 := by
    rw [Finset.mul_sum]
    refine Finset.sum_congr rfl fun index _ => ?_
    ring
  rw [gain_eq, gain_eq, quadratic_raised matrix (fun index => plain index + less * shares index),
    raised]
  ring

/-- Of two dampings the higher one has the shorter step and the smaller gain. -/
theorem exchange_steps {less more : ℝ} {lesser greater : Fin k → ℝ} (order : less < more)
    (shared : ∀ index, 0 ≤ shares index)
    (definite : (withDiagonal matrix fun index => plain index + less * shares index).PosDef)
    (lesser_eq : lesser =
      -((withDiagonal matrix fun index => plain index + less * shares index)⁻¹ *ᵥ slope))
    (greater_eq : greater =
      -((withDiagonal matrix fun index => plain index + more * shares index)⁻¹ *ᵥ slope)) :
    ∑ index, shares index * greater index ^ 2 ≤ ∑ index, shares index * lesser index ^ 2 ∧
      gain (withDiagonal matrix fun index => plain index + more * shares index) slope greater ≤
        gain (withDiagonal matrix fun index => plain index + less * shares index) slope lesser := by
  have definite' : (withDiagonal matrix fun index => plain index + more * shares index).PosDef := by
    refine posDef_withDiagonal_of_le (fun index => ?_) definite
    linarith [mul_le_mul_of_nonneg_right order.le (shared index)]
  -- neither step is any better for the model of the other damping
  have first := gain_le definite lesser_eq greater
  have second := gain_le definite' greater_eq lesser
  rw [gain_raised less more, gain_raised less more] at second
  have length : 0 ≤ ∑ index, shares index * greater index ^ 2 :=
    Finset.sum_nonneg fun index _ => mul_nonneg (shared index) (sq_nonneg _)
  have positive : 0 < more - less := sub_pos.mpr order
  constructor
  · refine le_of_mul_le_mul_left ?_ positive
    linarith
  · rw [gain_raised less more]
    linarith [mul_nonneg positive.le length]

end Exchange

namespace Solver

/-! ## The system of a damping -/

/-- The system of the derivatives at hand, damped as given. -/
noncomputable def systemAt (solver : Solver σ ℝ) (jacobian : RealMatrix l k) (carried : Fin k → ℝ)
    (damping : ℝ) : RealMatrix k k :=
  withDiagonal (divided (jacobianᵀ * jacobian) carried) fun index =>
    clampedEntry solver.settings (divided (jacobianᵀ * jacobian) carried index index) +
      damping * share solver.settings (divided (jacobianᵀ * jacobian) carried index index)

theorem systemAt_damping (solver : Solver σ ℝ) (jacobian : RealMatrix l k) (carried : Fin k → ℝ) :
    solver.systemAt jacobian carried solver.damping = solver.dampedSystem jacobian carried := by
  unfold systemAt dampedSystem
  simp only [dampedEntry_eq_add]

theorem posDef_systemAt_of_le {solver : Solver σ ℝ} (sited : solver.Sited k l)
    (diagonal : 0 ≤ solver.settings.diagonalMin) {jacobian : RealMatrix l k} {carried : Fin k → ℝ}
    {less more : ℝ} (order : less ≤ more)
    (definite : (solver.systemAt jacobian carried less).PosDef) :
    (solver.systemAt jacobian carried more).PosDef := by
  have proper := Settings.proper_of_check sited.valid
  refine posDef_withDiagonal_of_le (fun index => ?_) definite
  have share := share_nonneg proper diagonal (divided (jacobianᵀ * jacobian) carried index index)
  linarith [mul_le_mul_of_nonneg_right order share]

/-- The square of a step's length, where each part counts by its share of the damping. -/
noncomputable def dampingSquare (solver : Solver σ ℝ) (step : Vec ℝ) : ℝ :=
  (List.zipWith (fun entry part => share solver.settings entry * part ^ 2) solver.plainDiagonal
    step).sum

theorem dampingSquare_ofFn {solver : Solver σ ℝ} {diagonal : Fin k → ℝ}
    (plain : solver.plainDiagonal = List.ofFn diagonal) (step : Fin k → ℝ) :
    solver.dampingSquare (List.ofFn step) =
      ∑ index, share solver.settings (diagonal index) * step index ^ 2 := by
  have parts : List.zipWith (fun entry part => share solver.settings entry * part ^ 2)
      (List.ofFn diagonal) (List.ofFn step) =
      List.ofFn fun index => share solver.settings (diagonal index) * step index ^ 2 := by
    apply List.ext_getElem <;> simp
  rw [dampingSquare, plain, parts, List.sum_ofFn]

variable [Spectral ℝ]

/-- A step is computed with the damping. -/
def StepsAt (solver : Solver σ ℝ) (damping : ℝ) : Prop :=
  ∃ step after, (computeStep damping solver.gradient solver.step).run solver =
    (.ok (step, true), after)

/-- The step of a damping is the solution of its system, and what it gains is predicted of it. -/
theorem computeStep_carried {solver : Solver σ ℝ} (sited : solver.Sited k l)
    {jacobian : RealMatrix l k} {slopes : Fin l → ℝ} {carried step : Fin k → ℝ}
    (carries : solver.Carries jacobian slopes carried) (damping : ℝ) (step_eq : step =
      -((solver.systemAt jacobian carried damping)⁻¹ *ᵥ (jacobianᵀ *ᵥ slopes / carried))) :
    ((solver.systemAt jacobian carried damping).PosDef ∧ ∃ after,
        (computeStep damping solver.gradient solver.step).run solver =
          (.ok (List.ofFn step, true), after) ∧
        after.predictedReduction (List.ofFn step) =
          .ok (gain (solver.systemAt jacobian carried damping)
            (jacobianᵀ *ᵥ slopes / carried) step)) ∨
      (¬ (solver.systemAt jacobian carried damping).PosDef ∧ ∃ after,
        (computeStep damping solver.gradient solver.step).run solver =
          (.ok (solver.step, false), after)) := by
  obtain ⟨entries, represents⟩ := carries.normal
  have symmetric : Matrix.IsSymm
      (withDiagonal (divided (jacobianᵀ * jacobian) carried) entries) :=
    withDiagonal_isSymm (divided_isSymm (gram_isSymm jacobian) carried) entries
  have again : solver.systemAt jacobian carried damping =
      withDiagonal (withDiagonal (divided (jacobianᵀ * jacobian) carried) entries) fun index =>
        dampedEntry solver.settings damping
          (divided (jacobianᵀ * jacobian) carried index index) := by
    rw [withDiagonal_withDiagonal, systemAt]
    simp only [dampedEntry_eq_add]
  obtain ⟨normal, trace, represents', _, ends⟩ := computeStep_cases represents symmetric
    sited.eliminates carries.plain sited.sized.dampedDiagonal damping
    (jacobianᵀ *ᵥ slopes / carried) sited.sized.step again
  rw [← carries.gradient, ← step_eq] at ends
  obtain ⟨definite, ran⟩ | ⟨indefinite, ran⟩ := ends
  · refine .inl ⟨definite, _, ran, ?_⟩
    rw [gain_eq]
    refine predictedReduction_eq ?_ (isHermitian_iff_isSymm.mp definite.isHermitian) ?_ step
    · exact represents'
    · exact carries.gradient
  · exact .inr ⟨indefinite, _, ran⟩

theorem stepsAt_iff {solver : Solver σ ℝ} (sited : solver.Sited k l) {jacobian : RealMatrix l k}
    {slopes : Fin l → ℝ} {carried : Fin k → ℝ} (carries : solver.Carries jacobian slopes carried)
    (damping : ℝ) :
    solver.StepsAt damping ↔ (solver.systemAt jacobian carried damping).PosDef := by
  obtain ⟨definite, after, ran, _⟩ | ⟨indefinite, after, ran⟩ :=
    computeStep_carried sited carries damping rfl
  · exact ⟨fun _ => definite, fun _ => ⟨_, after, ran⟩⟩
  · refine ⟨fun ⟨step, other, found⟩ => ?_, fun definite => (indefinite definite).elim⟩
    cases ran.symm.trans found

theorem computesStep_iff_systemAt {solver : Solver σ ℝ} (sited : solver.Sited k l)
    (phase : solver.phase = .search) {jacobian : RealMatrix l k} {slopes : Fin l → ℝ}
    {carried : Fin k → ℝ} (carries : solver.Carries jacobian slopes carried) :
    solver.ComputesStep ↔ (solver.systemAt jacobian carried solver.damping).PosDef := by
  rw [systemAt_damping]
  exact computesStep_iff sited phase carries

/-! ## Dampings that have a step -/

/-- The dampings that a step is computed with. -/
def steppingDampings (solver : Solver σ ℝ) : Set ℝ :=
  {damping | 0 ≤ damping ∧ solver.StepsAt damping}

section Stepping

variable {solver : Solver σ ℝ} (sited : solver.Sited k l) {jacobian : RealMatrix l k}
  {slopes : Fin l → ℝ} {carried : Fin k → ℝ} (carries : solver.Carries jacobian slopes carried)
  (diagonal : 0 ≤ solver.settings.diagonalMin)

include sited carries diagonal

theorem isUpperSet_steppingDampings : IsUpperSet solver.steppingDampings := by
  rintro less more order ⟨nonneg, steps⟩
  rw [stepsAt_iff sited carries] at steps
  refine ⟨nonneg.trans order, (stepsAt_iff sited carries more).mpr ?_⟩
  exact posDef_systemAt_of_le sited diagonal order steps

theorem steppingDampings_nonempty (mixture : 0 < solver.settings.mixture) :
    solver.steppingDampings.Nonempty := by
  have proper := Settings.proper_of_check sited.valid
  obtain ⟨damping, nonneg, definite⟩ := @exists_dominating k l (inUnits jacobian carried)
    (fun index => clampedEntry solver.settings
      (divided (jacobianᵀ * jacobian) carried index index))
    (fun index => share solver.settings (divided (jacobianᵀ * jacobian) carried index index)) _
    mixture (fun index => clampedEntry_nonneg proper diagonal _)
    fun index => mixture_le_share proper diagonal _
  rw [← divided_gram] at definite
  exact ⟨damping, nonneg, (stepsAt_iff sited carries damping).mpr definite⟩

omit [Spectral ℝ] in
/-- Where no entry is clamped from above, a positive damping raises all of them. -/
theorem posDef_systemAt_of_pos (mixture : 0 < solver.settings.mixture)
    (within : ∀ entry ∈ solver.plainDiagonal, entry ≤ solver.settings.diagonalMax) {damping : ℝ}
    (positive : 0 < damping) : (solver.systemAt jacobian carried damping).PosDef := by
  have proper := Settings.proper_of_check sited.valid
  unfold systemAt
  simp only [← dampedEntry_eq_add]
  rw [divided_gram]
  refine posDef_withDiagonal fun index => ?_
  refine lt_dampedEntry_of_share positive
    (mixture.trans_le (mixture_le_share proper diagonal _)) (gram_diagonal_nonneg _ index)
    (within _ ?_)
  rw [carries.plain, divided_gram]
  exact List.mem_ofFn.mpr ⟨index, rfl⟩

end Stepping

/-! ## Two dampings -/

/-- Of two dampings the higher one has the shorter step, and the smaller reduction is predicted of
it. -/
theorem steps_exchange {solver : Solver σ ℝ} (sited : solver.Sited k l)
    {jacobian : RealMatrix l k} {slopes : Fin l → ℝ} {carried : Fin k → ℝ}
    (carries : solver.Carries jacobian slopes carried) (diagonal : 0 ≤ solver.settings.diagonalMin)
    {less more : ℝ} (order : less < more) {lesser greater : Vec ℝ} {first second : Solver σ ℝ}
    (found : (computeStep less solver.gradient solver.step).run solver =
      (.ok (lesser, true), first))
    (found' : (computeStep more solver.gradient solver.step).run solver =
      (.ok (greater, true), second)) :
    solver.dampingSquare greater ≤ solver.dampingSquare lesser ∧
      ∃ predicted predicted', first.predictedReduction lesser = .ok predicted ∧
        second.predictedReduction greater = .ok predicted' ∧ predicted' ≤ predicted := by
  have proper := Settings.proper_of_check sited.valid
  obtain ⟨definite, _, ran, gains⟩ | ⟨_, _, ran⟩ := computeStep_carried sited carries less rfl
  swap
  · cases ran.symm.trans found
  obtain ⟨_, _, ran', gains'⟩ | ⟨_, _, ran'⟩ := computeStep_carried sited carries more rfl
  swap
  · cases ran'.symm.trans found'
  cases ran.symm.trans found
  cases ran'.symm.trans found'
  obtain ⟨shorter, smaller⟩ := exchange_steps order
    (fun index => share_nonneg proper diagonal
      (divided (jacobianᵀ * jacobian) carried index index)) definite rfl rfl
  rw [dampingSquare_ofFn carries.plain, dampingSquare_ofFn carries.plain]
  exact ⟨shorter, _, _, gains, gains', smaller⟩

/-! ## Retries -/

omit [Spectral ℝ] in
theorem Redamped.nonneg {β : Type} {before after : Solver σ ℝ} {ending : Except (Fault ℝ) β}
    (redamped : Redamped before ending after) (damping : 0 ≤ before.damping)
    (growth : 2 ≤ before.growth) : 0 ≤ after.damping ∧ 2 ≤ after.growth := by
  have positive : 0 ≤ before.growth := by linarith
  cases redamped with
  | kept same same' => exact ⟨same ▸ damping, same' ▸ growth⟩
  | quadrupled raised same =>
      rw [raised, same, literal_four]
      exact ⟨by positivity, growth⟩
  | raised raised grown =>
      rw [raised, grown, literal_two]
      exact ⟨mul_nonneg damping positive, by linarith⟩
  | lowered found lowered reset =>
      rw [dampingFactor_eq, Except.ok.injEq] at found
      rw [lowered, reset, initialGrowth_eq, ← found]
      exact ⟨mul_nonneg damping (le_max_of_le_right (by norm_num)), le_rfl⟩

theorem damping_nonneg {started : Solver σ ℝ} (damping : 0 ≤ started.damping)
    (growth : 2 ≤ started.growth) {history : List (Command σ ℝ)}
    (continues : ∀ command ∈ history, Continues command) :
    0 ≤ (started.afterCommands history).damping ∧ 2 ≤ (started.afterCommands history).growth := by
  induction history using List.reverseRecOn with
  | nil => exact ⟨damping, growth⟩
  | append_singleton history command previous =>
      obtain ⟨nonneg, grown⟩ := previous fun command member =>
        continues command (List.mem_append_left _ member)
      have continues := continues command (List.mem_append_right _ (by simp))
      rw [afterCommands_concat]
      by_cases call : command = .iterate
      · subst call
        exact (iterate_redamps _).nonneg nonneg grown
      · have others : ¬ (started.afterCommands history).StartsOver command := by
          rintro ⟨_, _, _, rfl, _⟩
          exact continues
        rw [(obey_damping others call).1, (obey_damping others call).2]
        exact ⟨nonneg, grown⟩

theorem computeStep_trying {solver : Solver σ ℝ} (sited : solver.Sited k l)
    {jacobian : RealMatrix l k} {slopes : Fin l → ℝ} {carried : Fin k → ℝ}
    (carries : solver.Carries jacobian slopes carried)
    (definite : (solver.systemAt jacobian carried solver.damping).PosDef) :
    ∃ after, (computeStep solver.damping solver.gradient solver.step).run solver.trying =
      (.ok (List.ofFn (-((solver.systemAt jacobian carried solver.damping)⁻¹ *ᵥ
        (jacobianᵀ *ᵥ slopes / carried))), true), after) := by
  obtain ⟨_, after, ran, _⟩ | ⟨indefinite, _⟩ :=
    computeStep_carried (sited.counted solver.fullSteps (solver.retries + 1))
      (carries.of_system rfl) solver.damping rfl
  · exact ⟨after, ran⟩
  · exact (indefinite definite).elim

/-- The call after a rejection computes a step that is no longer than the rejected one. -/
structure Shortens (now : Solver σ ℝ) : Prop where
  computes : now.next.ComputesStep
  shorter : ∃ rejected retried first second,
    (computeStep now.damping now.gradient now.step).run now.trying =
      (.ok (rejected, true), first) ∧
    (computeStep now.next.damping now.next.gradient now.next.step).run now.next.trying =
      (.ok (retried, true), second) ∧
    now.dampingSquare retried ≤ now.dampingSquare rejected

theorem shortens_of_rejects {now : Solver σ ℝ} (sited : now.Sited k l) {jacobian : RealMatrix l k}
    {slopes : Fin l → ℝ} {carried : Fin k → ℝ} (carries : now.Carries jacobian slopes carried)
    (diagonal : 0 ≤ now.settings.diagonalMin)
    (definite : (now.systemAt jacobian carried now.damping).PosDef) (damping : 0 ≤ now.damping)
    (growth : 2 ≤ now.growth) (gradient : now.gradient ≠ []) (rejects : now.Rejects)
    (searching : now.next.phase = .search) : now.Shortens := by
  have raised : now.damping ≤ now.next.damping := by
    rw [(next_of_rejects gradient rejects).damping]
    linarith [mul_le_mul_of_nonneg_left growth damping]
  have kept := carries.next sited rejects.searching
  have same (damping : ℝ) : now.next.systemAt jacobian carried damping =
      now.systemAt jacobian carried damping := by
    unfold systemAt
    rw [(next_configured now).settings]
  have definite' : (now.next.systemAt jacobian carried now.next.damping).PosDef :=
    same _ ▸ posDef_systemAt_of_le sited diagonal raised definite
  obtain ⟨first, found⟩ := computeStep_trying sited carries definite
  obtain ⟨second, found'⟩ := computeStep_trying (kept.sited sited) kept.toCarries definite'
  refine ⟨(computesStep_iff_systemAt (kept.sited sited) searching kept.toCarries).mpr definite',
    _, _, first, second, found, found', ?_⟩
  rw [dampingSquare_ofFn carries.plain, dampingSquare_ofFn carries.plain, same]
  obtain level | raised := raised.eq_or_lt
  · rw [level]
  · exact (exchange_steps raised (fun index => share_nonneg (Settings.proper_of_check sited.valid)
      diagonal (divided (jacobianᵀ * jacobian) carried index index)) definite rfl rfl).1

/-! ## A run -/

/-- While a step is looked for, with a share of the identity and a diagonal that is not clamped to
less than zero, the dampings that have a step are not empty and go up without an end. They are all
positive ones if no entry of the diagonal is clamped from above, so a call that finds a positive
damping then computes a step. -/
theorem dampings_with_steps (idle started : Solver σ ℝ) (point : Vec ℝ)
    (cost? gradient? : Option ℝ)
    (success : (start point cost? gradient?).run idle = (.ok (), started))
    (eliminates : idle.normal.layout?.isSome) (history : List (Command σ ℝ))
    (continues : ∀ command ∈ history, Continues command) (now : Solver σ ℝ)
    (reached : started.afterCommands history = now) (searching : now.phase = .search)
    (mixture : 0 < now.settings.mixture) (diagonal : 0 ≤ now.settings.diagonalMin) :
    now.steppingDampings.Nonempty ∧ IsUpperSet now.steppingDampings ∧
      ((∀ entry ∈ now.plainDiagonal, entry ≤ now.settings.diagonalMax) →
        (∀ damping, 0 < damping → damping ∈ now.steppingDampings) ∧
          (0 < now.damping → now.ComputesStep)) := by
  have provided := provided_of_start success eliminates continues
  subst reached
  obtain ⟨_, jacobian, slopes, carried, stems⟩ := provided.stems searching
  refine ⟨steppingDampings_nonempty provided.sited stems.carries diagonal mixture,
    isUpperSet_steppingDampings provided.sited stems.carries diagonal, fun within => ?_⟩
  have definite {damping : ℝ} (positive : 0 < damping) :=
    posDef_systemAt_of_pos provided.sited stems.carries diagonal mixture within positive
  refine ⟨fun damping positive => ⟨positive.le, ?_⟩, fun positive => ?_⟩
  · exact (stepsAt_iff provided.sited stems.carries damping).mpr (definite positive)
  · exact (computesStep_iff_systemAt provided.sited searching stems.carries).mpr
      (definite positive)

omit [Spectral ℝ] in
theorem standard_damps : 0 < (Settings.standard : Settings ℝ).mixture ∧
    0 ≤ (Settings.standard : Settings ℝ).diagonalMin := by
  change (0 : ℝ) < 1.0e-4 ∧ (0 : ℝ) ≤ 1.0e-6
  norm_num

omit [Spectral ℝ] in
/-- After a start at one and a call, there are dampings that have a step. -/
theorem dampings_with_steps_from_one : ∃ (_ : Spectral ℝ) (started now : Solver Unit ℝ),
    (start [1] none none).run unitSearch = (.ok (), started) ∧
      started.afterCommands [.iterate] = now ∧ now.phase = .search ∧
      now.steppingDampings.Nonempty ∧ IsUpperSet now.steppingDampings := by
  let spectral : Spectral ℝ := ⟨fun _ => []⟩
  obtain ⟨cost, success⟩ := unitSearch_starts
  have searching : ((unitStarted cost).afterCommands [.iterate]).phase = .search :=
    (unitSearch_computes cost).1
  have settings := unitStarted_settings cost
  obtain ⟨exists_damping, upper, _⟩ := dampings_with_steps unitSearch _ [1] none none success rfl
    [.iterate] (fun command member => by obtain rfl := List.mem_singleton.mp member; exact trivial)
    _ rfl searching (settings ▸ standard_damps.1) (settings ▸ standard_damps.2)
  exact ⟨spectral, _, _, success, rfl, searching, exists_damping, upper⟩

/-- Of two dampings that have a step, the higher one has no longer a step and no more is predicted
of it. So what is tried after a rejection is no longer than what was rejected. -/
theorem damping_shortens (idle started : Solver σ ℝ) (point : Vec ℝ) (cost? gradient? : Option ℝ)
    (success : (start point cost? gradient?).run idle = (.ok (), started))
    (eliminates : idle.normal.layout?.isSome) (history : List (Command σ ℝ))
    (continues : ∀ command ∈ history, Continues command) (now : Solver σ ℝ)
    (reached : started.afterCommands history = now) (searching : now.phase = .search)
    (diagonal : 0 ≤ now.settings.diagonalMin) :
    (∀ less more lesser greater first second, 0 ≤ less → less < more →
      (computeStep less now.gradient now.step).run now = (.ok (lesser, true), first) →
      (computeStep more now.gradient now.step).run now = (.ok (greater, true), second) →
      now.dampingSquare greater ≤ now.dampingSquare lesser ∧
        ∃ predicted predicted', first.predictedReduction lesser = .ok predicted ∧
          second.predictedReduction greater = .ok predicted' ∧ predicted' ≤ predicted) ∧
      (now.Rejects → now.next.phase = .search → now.Shortens) := by
  have provided := provided_of_start success eliminates continues
  have ready := (start_ensures idle point cost? gradient?).of_run_ok success
  have growth : 2 ≤ started.growth := (ready.growth.trans initialGrowth_eq).ge
  have damping : 0 ≤ started.damping := by
    rw [ready.damping]
    exact (Settings.proper_of_check ready.valid).initialDamping
  obtain ⟨nonneg, grown⟩ := damping_nonneg damping growth continues
  subst reached
  obtain ⟨_, jacobian, slopes, carried, stems⟩ := provided.stems searching
  refine ⟨fun less more lesser greater first second _ order found found' =>
    steps_exchange provided.sited stems.carries diagonal order found found', fun rejects next => ?_⟩
  have definite : ((started.afterCommands history).systemAt jacobian carried
      (started.afterCommands history).damping).PosDef := by
    rw [systemAt_damping]
    obtain ⟨definite, _⟩ | ⟨_, _, none⟩ :=
      propose_carried provided.sited stems.carries stems.nonzero stems.steep rfl
    · exact definite
    · -- a candidate that was rejected came from a step
      obtain ⟨_, _, ⟨_, _, _, _, found, _⟩, _⟩ := rejects
      cases none.symm.trans found
  exact shortens_of_rejects provided.sited stems.carries diagonal definite nonneg grown
    stems.gradient rejects next

omit [Spectral ℝ] in
/-- After a start at one and a call, two dampings and their steps. -/
theorem damping_shortens_from_one : ∃ (_ : Spectral ℝ) (started now first second : Solver Unit ℝ)
    (less more : ℝ) (lesser greater : Vec ℝ),
    (start [1] none none).run unitSearch = (.ok (), started) ∧
      started.afterCommands [.iterate] = now ∧ now.phase = .search ∧ 0 ≤ less ∧ less < more ∧
      (computeStep less now.gradient now.step).run now = (.ok (lesser, true), first) ∧
      (computeStep more now.gradient now.step).run now = (.ok (greater, true), second) ∧
      now.dampingSquare greater ≤ now.dampingSquare lesser := by
  let spectral : Spectral ℝ := ⟨fun _ => []⟩
  obtain ⟨cost, success⟩ := unitSearch_starts
  have searching : ((unitStarted cost).afterCommands [.iterate]).phase = .search :=
    (unitSearch_computes cost).1
  have settings := unitStarted_settings cost
  have continues : ∀ command ∈ ([.iterate] : List (Command Unit ℝ)), Continues command := by
    intro command member
    obtain rfl := List.mem_singleton.mp member
    exact trivial
  have diagonal : 0 ≤ ((unitStarted cost).afterCommands [.iterate]).settings.diagonalMin :=
    settings ▸ standard_damps.2
  have provided := provided_of_start success rfl continues
  obtain ⟨_, jacobian, slopes, carried, stems⟩ := provided.stems searching
  obtain ⟨less, nonneg, lesser, first, found⟩ := steppingDampings_nonempty provided.sited
    stems.carries diagonal (settings ▸ standard_damps.1)
  obtain ⟨_, greater, second, found'⟩ := isUpperSet_steppingDampings provided.sited
    stems.carries diagonal (by linarith : less ≤ less + 1) ⟨nonneg, lesser, first, found⟩
  have order : less < less + 1 := by linarith
  have shorter := (damping_shortens unitSearch _ [1] none none success rfl [.iterate] continues _
    rfl searching diagonal).1 less (less + 1) lesser greater first second nonneg order found found'
  exact ⟨spectral, _, _, first, second, less, less + 1, lesser, greater, success, rfl, searching,
    nonneg, order, found, found', shorter.1⟩

end Solver

end DampedLeastSquares
