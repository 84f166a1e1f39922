import Mathlib
import DampedLeastSquares.Proofs.CostGradient
import DampedLeastSquares.Proofs.Judgement
import DampedLeastSquares.Proofs.Verdict

/-!
# How the damping escalates

From the computation of derivatives to the next improvement the damping only
rises, by four where there is no step and by the growth where a candidate is
rejected. What it rises to depends on how often either happened, and not on the
order. It doubles at least each time, so a search that makes no progress gives
up after a number of trials that is known beforehand.
-/

set_option autoImplicit false

open scoped Matrix

namespace DampedLeastSquares.Solver

open Exact NormalMatrix

variable {σ : Type}

section Runs

variable [Spectral ℝ]

/-! ## Counting calls -/

open Classical in
/-- How many of the first calls are of a kind. -/
noncomputable def tally (kind : Solver σ ℝ → Prop) (solver : Solver σ ℝ) (count : ℕ) : ℕ :=
  Nat.count (fun earlier => kind (solver.afterCalls earlier)) count

section Tally

variable {kind : Solver σ ℝ → Prop} {solver : Solver σ ℝ} {count : ℕ}

theorem tally_succ (holds : kind (solver.afterCalls count)) :
    tally kind solver (count + 1) = tally kind solver count + 1 := by
  unfold tally
  rw [Nat.count_succ, if_pos holds]

theorem tally_succ_of_not (fails : ¬ kind (solver.afterCalls count)) :
    tally kind solver (count + 1) = tally kind solver count := by
  unfold tally
  rw [Nat.count_succ, if_neg fails]
  rfl

end Tally

/-! ## From one call to the next -/

/-- A call that computes derivatives leaves damping and growth alone. -/
theorem next_of_differentiate {before : Solver σ ℝ} (phase : before.phase = .differentiate) :
    before.next.damping = before.damping ∧ before.next.growth = before.growth := by
  obtain ⟨_, _, _, _, _, _, _, _, same⟩ := next_differenced phase
  rw [same]
  exact ⟨rfl, rfl⟩

/-- An improvement sets the growth back. If the call returns, it has left the phase. -/
theorem next_of_accepts {before : Solver σ ℝ} (gradient : before.gradient ≠ [])
    (accepts : before.Accepts) :
    before.next.growth = 2 ∧ (∀ converged, before.answer = .ok converged →
      before.next.updated = true ∧ before.next.phase ≠ .search) := by
  obtain ⟨predicted, cost, compares, lower⟩ := accepts
  have ensured := iterate_ends_of_lower gradient compares lower
  unfold next answer
  rcases ran : iterate.run before with ⟨fault | converged, after⟩
  · exact ⟨(ensured.of_run_error ran).1.2, nofun⟩
  · obtain ⟨⟨_, growth⟩, taken⟩ := ensured.of_run_ok ran
    exact ⟨growth, fun _ _ => taken⟩

/-- The growth has its first value whenever derivatives are about to be computed. -/
theorem next_growth {before : Solver σ ℝ}
    (initial : before.phase = .differentiate → before.growth = 2)
    (gradient : before.phase = .search → before.gradient ≠ [])
    (again : before.next.phase = .differentiate) : before.next.growth = 2 := by
  cases phase : before.phase with
  | differentiate => rw [(next_of_differentiate phase).2, initial phase]
  | converged =>
      rw [(rests phase).2] at again
      cases phase.symm.trans again
  | search =>
      by_cases accepts : before.Accepts
      · exact (next_of_accepts (gradient phase) accepts).1
      -- no other trial goes back to the derivatives
      have raised {raised grown : ℝ} (escalated : Escalated raised grown before.next) : False := by
        have ended := escalated.phase.symm.trans again
        split at ended <;> cases ended
      by_cases fails : before.Fails
      · exact (raised (next_of_fails fails)).elim
      by_cases rejects : before.Rejects
      · exact (raised (next_of_rejects (gradient phase) rejects)).elim
      rcases (next_of_stalls phase fails rejects accepts).2.2 with still | converged
      · cases still.symm.trans again
      · cases converged.symm.trans again

theorem growth_of_differentiate {started : Solver σ ℝ} {parameters functions : ℕ}
    (sized : started.Sized parameters functions) (phase : started.phase = .differentiate)
    (growth : started.growth = 2) (count : ℕ)
    (again : (started.afterCalls count).phase = .differentiate) :
    (started.afterCalls count).growth = 2 := by
  induction count with
  | zero => exact growth
  | succ count previous =>
      refine next_growth previous (gradient_of_search sized ?_ count) again
      rw [phase]
      nofun

/-! ## Until the next improvement -/

/-- None of the first calls takes a candidate over. -/
def Undecided (solver : Solver σ ℝ) (count : ℕ) : Prop :=
  ∀ earlier < count, ¬ (solver.afterCalls earlier).Accepts

/-- What the damping has been multiplied by after a number of trials without a step, and of
rejections. -/
def escalation (failures rejections : ℕ) : ℕ :=
  4 ^ failures * 2 ^ (rejections * (rejections + 1) / 2)

omit [Spectral ℝ] in
theorem escalation_failure (failures rejections : ℕ) :
    escalation (failures + 1) rejections = escalation failures rejections * 4 := by
  unfold escalation
  ring

omit [Spectral ℝ] in
theorem escalation_rejection (failures rejections : ℕ) :
    escalation failures (rejections + 1) =
      escalation failures rejections * 2 ^ (rejections + 1) := by
  have triangle : (rejections + 1) * (rejections + 1 + 1) / 2 =
      rejections * (rejections + 1) / 2 + (rejections + 1) := by
    have twice : (rejections + 1) * (rejections + 1 + 1) =
        rejections * (rejections + 1) + (rejections + 1) * 2 := by ring
    rw [twice, Nat.add_mul_div_right _ _ Nat.two_pos]
  unfold escalation
  rw [triangle, pow_add, mul_assoc]

omit [Spectral ℝ] in
/-- Every failure and every rejection doubles the damping at least. -/
theorem pow_le_escalation (failures rejections : ℕ) :
    2 ^ (failures + rejections) ≤ escalation failures rejections := by
  have triangle : rejections ≤ rejections * (rejections + 1) / 2 := by
    rw [Nat.le_div_iff_mul_le Nat.two_pos]
    cases rejections with
    | zero => rfl
    | succ rejections => exact Nat.mul_le_mul_left _ (by omega)
  have doubled : 4 ^ failures = 2 ^ (2 * failures) := (pow_mul 2 2 failures).symm
  unfold escalation
  rw [doubled, ← pow_add]
  exact Nat.pow_le_pow_right Nat.two_pos (by omega)

/-- A search that looks for a step, from the computation of derivatives on. -/
structure Enters (entered : Solver σ ℝ) : Prop where
  phase : entered.phase = .search
  growth : entered.growth = 2
  gradient : ∀ count, (entered.afterCalls count).phase = .search →
    (entered.afterCalls count).gradient ≠ []

/-- Damping, growth and phase as long as no candidate is taken over. -/
structure Pending (entered : Solver σ ℝ) (count : ℕ) : Prop where
  damping : (entered.afterCalls count).damping =
    entered.damping * escalation (tally Fails entered count) (tally Rejects entered count)
  growth : (entered.afterCalls count).growth = 2 ^ (tally Rejects entered count + 1)
  phase : (entered.afterCalls count).phase = .search ∧ (entered.damping < dampingLimit →
      (entered.afterCalls count).damping < dampingLimit) ∨
    (entered.afterCalls count).phase = .converged

omit [Spectral ℝ] in
theorem Escalated.searches {raised grown : ℝ} {after : Solver σ ℝ}
    (escalated : Escalated raised grown after) :
    after.phase = .search ∧ after.damping < dampingLimit ∨ after.phase = .converged := by
  rw [escalated.phase, escalated.damping]
  split
  · exact .inr rfl
  · next within => exact .inl ⟨rfl, not_le.mp within⟩

section Pending

variable {entered : Solver σ ℝ} {count : ℕ} (pending : entered.Pending count)

include pending

theorem Pending.of_fails (fails : (entered.afterCalls count).Fails) :
    entered.Pending (count + 1) := by
  have escalated := next_of_fails fails
  have keeps := fails.not_rejects
  refine ⟨?_, ?_, escalated.searches.imp_left fun ⟨still, within⟩ => ⟨still, fun _ => within⟩⟩
  · rw [tally_succ fails, tally_succ_of_not keeps, escalation_failure, Nat.cast_mul, ← mul_assoc,
      ← pending.damping]
    exact escalated.damping
  · rw [tally_succ_of_not keeps, ← pending.growth]
    exact escalated.growth

theorem Pending.of_rejects (gradient : (entered.afterCalls count).gradient ≠ [])
    (finds : ¬ (entered.afterCalls count).Fails) (rejects : (entered.afterCalls count).Rejects) :
    entered.Pending (count + 1) := by
  have escalated := next_of_rejects gradient rejects
  refine ⟨?_, ?_, escalated.searches.imp_left fun ⟨still, within⟩ => ⟨still, fun _ => within⟩⟩
  · rw [tally_succ_of_not finds, tally_succ rejects, escalation_rejection, Nat.cast_mul,
      ← mul_assoc, ← pending.damping, Nat.cast_pow, Nat.cast_ofNat, ← pending.growth]
    exact escalated.damping
  · rw [tally_succ rejects, pow_succ, ← pending.growth]
    exact escalated.growth

/-- A call that changes neither damping nor growth. -/
theorem Pending.of_stalls (finds : ¬ (entered.afterCalls count).Fails)
    (keeps : ¬ (entered.afterCalls count).Rejects)
    (damping : (entered.afterCalls (count + 1)).damping = (entered.afterCalls count).damping)
    (growth : (entered.afterCalls (count + 1)).growth = (entered.afterCalls count).growth)
    (phase : (entered.afterCalls (count + 1)).phase = .search ∧
        (entered.afterCalls count).phase = .search ∨
      (entered.afterCalls (count + 1)).phase = .converged) :
    entered.Pending (count + 1) := by
  refine ⟨?_, ?_, phase.imp_left fun ⟨still, searching⟩ => ⟨still, ?_⟩⟩
  · rw [tally_succ_of_not finds, tally_succ_of_not keeps, damping, pending.damping]
  · rw [tally_succ_of_not keeps, growth, pending.growth]
  · rw [damping]
    rcases pending.phase with ⟨_, within⟩ | converged
    · exact within
    · cases searching.symm.trans converged

theorem Pending.next (enters : entered.Enters) (stays : ¬ (entered.afterCalls count).Accepts) :
    entered.Pending (count + 1) := by
  by_cases fails : (entered.afterCalls count).Fails
  · exact pending.of_fails fails
  by_cases rejects : (entered.afterCalls count).Rejects
  · exact pending.of_rejects (enters.gradient count rejects.searching) fails rejects
  rcases pending.phase with ⟨searching, _⟩ | converged
  · obtain ⟨damping, growth, phase⟩ := next_of_stalls searching fails rejects stays
    exact pending.of_stalls fails rejects damping growth
      (phase.imp_left fun still => ⟨still, searching⟩)
  · have same : entered.afterCalls (count + 1) = _ := (rests converged).2
    exact pending.of_stalls fails rejects (by rw [same]) (by rw [same])
      (.inr (by rw [same]; exact converged))

end Pending

theorem Enters.pending {entered : Solver σ ℝ} (enters : entered.Enters) (count : ℕ)
    (undecided : entered.Undecided count) : entered.Pending count := by
  induction count with
  | zero =>
      refine ⟨?_, ?_, .inl ⟨enters.phase, id⟩⟩
      · simp [escalation, tally, afterCalls]
      · simp [tally, afterCalls, enters.growth]
  | succ count previous =>
      have going := previous fun earlier before => undecided earlier (Nat.lt_succ_of_lt before)
      exact going.next enters (undecided count (Nat.lt_succ_self count))

omit [Spectral ℝ] in
/-- After that many doublings the damping is beyond the limit. -/
theorem dampingLimit_le_of_ceil {initial : ℝ} (positive : 0 < initial) {count : ℕ}
    (enough : ⌈Real.logb 2 (dampingLimit / initial)⌉₊ ≤ count) :
    dampingLimit ≤ initial * 2 ^ count := by
  have bound := (Real.logb_le_iff_le_rpow one_lt_two (div_pos dampingLimit_pos positive)).mp
    (Nat.ceil_le.mp enough)
  rw [Real.rpow_natCast, div_le_iff₀ positive] at bound
  linarith

/-! ## A run -/

/-- What becomes of damping and growth between the computation of derivatives and the next
improvement. -/
structure Escalates (entered : Solver σ ℝ) : Prop where
  initial : entered.growth = 2
  damping : ∀ count, entered.Undecided count → (entered.afterCalls count).damping =
    entered.damping * escalation (tally Fails entered count) (tally Rejects entered count)
  growth : ∀ count, entered.Undecided count →
    (entered.afterCalls count).growth = 2 ^ (tally Rejects entered count + 1)
  resets : ∀ count, (entered.afterCalls count).Accepts →
    (entered.afterCalls (count + 1)).growth = 2 ∧
      (∀ converged, (entered.afterCalls count).answer = .ok converged →
        (entered.afterCalls (count + 1)).updated = true ∧
          (entered.afterCalls (count + 1)).phase ≠ .search)
  leaves : 0 < entered.damping → entered.damping < dampingLimit → ∀ count,
    ⌈Real.logb 2 (dampingLimit / entered.damping)⌉₊ ≤
        tally Fails entered count + tally Rejects entered count →
      (∃ earlier < count, (entered.afterCalls earlier).Accepts) ∨
        (entered.afterCalls count).phase = .converged

theorem Enters.leaves {entered : Solver σ ℝ} (enters : entered.Enters)
    (positive : 0 < entered.damping) (within : entered.damping < dampingLimit) (count : ℕ)
    (enough : ⌈Real.logb 2 (dampingLimit / entered.damping)⌉₊ ≤
      tally Fails entered count + tally Rejects entered count) :
    (∃ earlier < count, (entered.afterCalls earlier).Accepts) ∨
      (entered.afterCalls count).phase = .converged := by
  by_contra! stays
  have pending := enters.pending count stays.1
  rcases pending.phase with ⟨_, below⟩ | converged
  · have below := below within
    rw [pending.damping] at below
    refine below.not_ge ((dampingLimit_le_of_ceil positive enough).trans ?_)
    exact mul_le_mul_of_nonneg_left (mod_cast pow_le_escalation _ _) positive.le
  · exact stays.2 converged

theorem Enters.escalates {entered : Solver σ ℝ} (enters : entered.Enters) : entered.Escalates where
  initial := enters.growth
  damping count undecided := (enters.pending count undecided).damping
  growth count undecided := (enters.pending count undecided).growth
  resets count accepts := next_of_accepts (enters.gradient count accepts.searching) accepts
  leaves := enters.leaves

/-- From the computation of derivatives to the next improvement, the damping is known from how
often there was no step and how often a candidate was rejected, in whatever order. -/
theorem damping_escalates (idle started : Solver σ ℝ) (point : Vec ℝ) (cost? gradient? : Option ℝ)
    (success : (start point cost? gradient?).run idle = (.ok (), started)) (calls : ℕ)
    (differentiates : (started.afterCalls calls).phase = .differentiate)
    (enters : (started.afterCalls (calls + 1)).phase = .search) :
    (started.afterCalls (calls + 1)).Escalates := by
  have ready := (start_ensures idle point cost? gradient?).of_run_ok success
  have waits : started.phase ≠ .search := by
    rw [ready.phase]
    nofun
  refine Enters.escalates ⟨enters, ?_, fun count => ?_⟩
  · have growth := growth_of_differentiate ready.sized ready.phase
      (ready.growth.trans initialGrowth_eq) calls differentiates
    exact (next_of_differentiate differentiates).2.trans growth
  · rw [afterCalls_afterCalls]
    exact gradient_of_search ready.sized waits _

end Runs

/-! ## A run with a failure and a rejection -/

/-- The square of a sum, which is raised by eight. -/
noncomputable def raisedSquare (x : Fin 2 → ℝ) : Fin 1 → ℝ := fun _ => (∑ index, x index) ^ 2 + 8.0

noncomputable def raisedSquareSlopes (x : Fin 2 → ℝ) : RealMatrix 1 2 :=
  fun _ _ => 2.0 * ∑ index, x index

noncomputable def raisedSquareProblem : Problem Unit ℝ :=
  ⟨fun x => pure (.vector (onVectors raisedSquare x)), fun x => pure (.whole (.matrix (.dense
    (DenseMatrix.ofMatrix (raisedSquareSlopes fun index => x.getD index 0)))))⟩

/-- Whatever is on the diagonal counts for one at most. -/
noncomputable def cappedSettings : Settings ℝ :=
  { Settings.standard with initialDamping := 1, diagonalMax := 1 }

noncomputable def cappedSearch : Solver Unit ℝ :=
  { unitSearch with settings := cappedSettings, problem? := some raisedSquareProblem }

theorem cappedSettings_valid : cappedSettings.check = .ok () :=
  Settings.Proper.check { Settings.standard_proper with
    initialDamping := show (0 : ℝ) ≤ 1 by norm_num
    diagonal := show (1.0e-6 : ℝ) ≤ 1 by norm_num }

theorem raisedSquareProblem_computes :
    raisedSquareProblem.Computes (onVectors raisedSquare) 2 1 := by
  intro x size
  refine ⟨List.length_ofFn, fun before after answer ran => ?_⟩
  cases ran
  rfl

theorem cappedSearch_starts :
    ∃ started, (start (List.ofFn ![1, 0]) none none).run cappedSearch = (.ok (), started) := by
  have adopts := adoptTolerances_run cappedSearch none none
  have valid : (cappedSearch.settings.adopting none none).check = .ok () := cappedSettings_valid
  rw [valid] at adopts
  have begins : cappedSearch.Begins (List.ofFn ![1, 0]) none none
      (List.ofFn (raisedSquare ![1, 0])) ⟨.squared, 1⟩ := by
    refine ⟨_, _, (), ⟨.squared, 1⟩, false, (), adopts, ⟨nofun, raisedSquareProblem, rfl, rfl⟩,
      onVectors_ofFn _ _, rfl, rfl⟩
  exact start_succeeds begins (Loss.halfSquare_eq _) rfl

/-- The search at its first point. -/
structure Capped (now : Solver Unit ℝ) (damping : ℝ) : Prop where
  supplied : now.Supplied now.settings 2 1
  tracks : now.Tracks raisedSquareProblem (onVectors raisedSquare) 2 1
  form : now.form = .whole
  squared : now.loss.shape = .squared
  settings : now.settings = cappedSettings
  x : now.x = List.ofFn ![1, 0]
  damping : now.damping = damping

theorem capped_of_start {started : Solver Unit ℝ}
    (success : (start (List.ofFn ![1, 0]) none none).run cappedSearch = (.ok (), started)) :
    started.Capped 1 ∧ started.phase = .differentiate ∧
      started.Hands (raisedSquareSlopes ![1, 0]) := by
  obtain ⟨ready, readied, _, _, settings⟩ := (start_leaves _ _ _ _).of_run_ok success
  have tracks := tracks_of_start success rfl raisedSquareProblem_computes trivial
  have supplied := ready.supplied (rfl : cappedSearch.normal.layout?.isSome = true)
  rw [tracks.sized.residuals] at supplied
  have settings : started.settings = cappedSettings := settings
  have damping : started.damping = 1 := by
    rw [ready.damping, settings]
    rfl
  have squared : started.loss.shape = .squared := by
    obtain ⟨_, _, _, _, prepares, settles⟩ := readied
    cases prepares
    rw [Loss.settle_of_squared rfl settles]
    rfl
  refine ⟨⟨supplied, tracks, ready.form, squared, settings, ready.x, damping⟩, ready.phase,
    _, _, _, ready.problem, rfl, ?_, ?_⟩
  · rw [ready.form, ready.x, getD_ofFn]
    exact ⟨_, rfl, _, rfl, Matrix.represents_dense _⟩
  · rw [ready.form, ready.normal]
    exact fun _ => ⟨_, rfl⟩

section Capped

variable {now : Solver Unit ℝ} {damping : ℝ}

theorem Capped.residuals (capped : now.Capped damping) :
    now.residuals = List.ofFn fun _ : Fin 1 => (9 : ℝ) := by
  rw [capped.tracks.residuals_eq capped.x]
  refine congrArg List.ofFn (funext fun index => ?_)
  norm_num [raisedSquare, Fin.sum_univ_two]

theorem Capped.cost (capped : now.Capped damping) : now.cost = 81 / 2 := by
  have costed := capped.tracks.costed
  rw [capped.residuals, Loss.cost_of_squared capped.squared] at costed
  rw [← Except.ok.inj costed]
  norm_num [dotProduct]

theorem Capped.slopes_eq (capped : now.Capped damping) :
    now.loss.gradientInto 1 now.residuals = .ok (List.ofFn fun _ : Fin 1 => (9 : ℝ)) := by
  rw [capped.residuals]
  exact Loss.gradientInto_of_squared capped.squared _

theorem raisedSquare_slope :
    (raisedSquareSlopes ![1, 0])ᵀ *ᵥ (fun _ : Fin 1 => (9 : ℝ)) = fun _ => 18 := by
  funext index
  norm_num [raisedSquareSlopes, Matrix.mulVec, dotProduct, Fin.sum_univ_two]

theorem Capped.ready (capped : now.Capped damping) (phase : now.phase = .search) :
    now.Ready (raisedSquareSlopes ![1, 0]) (fun _ => 9) 1 := by
  obtain ⟨jacobian, slopes, scaling, ready⟩ := capped.supplied.held phase
  obtain rfl : jacobian = raisedSquareSlopes ![1, 0] := by
    obtain ⟨_, _, _, answer, given, ran, represents⟩ := ready.differentiated
    cases given.symm.trans capped.tracks.problem
    cases ran
    rw [capped.form, capped.x, getD_ofFn] at represents
    exact represents.unique ⟨_, rfl, _, rfl, Matrix.represents_dense _⟩
  obtain rfl : slopes = fun _ => 9 :=
    List.ofFn_injective (Except.ok.inj (ready.slopes_eq.symm.trans capped.slopes_eq))
  obtain rfl : scaling = 1 := ready.toLinearized.unscaled (by rw [capped.settings]; rfl)
  exact ready

/-- Fours across the diagonal, and no more than one plus the damping on it. -/
theorem Capped.dampedSystem_eq (capped : now.Capped damping) :
    now.dampedSystem (raisedSquareSlopes ![1, 0]) 1 =
      !![1 + damping, 4; 4, 1 + damping] := by
  have four (row column : Fin 2) :
      ((raisedSquareSlopes ![1, 0])ᵀ * raisedSquareSlopes ![1, 0]) row column = 4 := by
    norm_num [raisedSquareSlopes, Matrix.mul_apply, Fin.sum_univ_two]
  have one : clampedEntry cappedSettings 4 = 1 := by
    change min (max |(4 : ℝ)| 1.0e-6) 1 = 1
    norm_num
  unfold dampedSystem
  rw [divided_one, capped.settings, capped.damping]
  simp only [four, dampedEntry_of_clampedEntry one]
  ext row column
  fin_cases row <;> fin_cases column <;> simp [withDiagonal, four]

/-- With a damping of four the step leads far beyond a sum of zero, where the square is least. -/
theorem Capped.solution (capped : now.Capped 4) :
    (now.dampedSystem (raisedSquareSlopes ![1, 0]) 1).PosDef ∧
      -((now.dampedSystem (raisedSquareSlopes ![1, 0]) 1)⁻¹ *ᵥ
        ((raisedSquareSlopes ![1, 0])ᵀ *ᵥ (fun _ : Fin 1 => (9 : ℝ)) / 1)) =
        fun _ => -2 := by
  rw [raisedSquare_slope, capped.dampedSystem_eq]
  have definite : (!![1 + 4, 4; 4, 1 + 4] : RealMatrix 2 2).PosDef :=
    posDef_pair_iff.mpr (by norm_num)
  have solves := mulVec_solution definite ((fun _ => 18) / 1)
  have first := congrFun solves 0
  have second := congrFun solves 1
  rw [Matrix.mulVec, dotProduct, Fin.sum_univ_two] at first second
  norm_num at first second
  refine ⟨definite, funext fun index => ?_⟩
  fin_cases index <;> norm_num <;> linarith

/-- The candidate costs more than the first point. -/
theorem Capped.evaluates (capped : now.Capped damping) {proposed : Solver Unit ℝ}
    (proposes : Proposed now.trying proposed)
    (step_eq : proposed.step = List.ofFn fun _ : Fin 2 => (-2 : ℝ)) :
    ∃ after, evaluateCandidate.run proposed = (.ok (289 / 2), after) := by
  obtain ⟨sized, x_eq, defined, given, squared⟩ : proposed.candidateResiduals.length = 1 ∧
      proposed.x = List.ofFn ![1, 0] ∧ proposed.form ≠ .undefined ∧
      proposed.problem? = some raisedSquareProblem ∧ proposed.loss.shape = .squared := by
    obtain ⟨_, _, _, _, rfl⟩ := proposes
    exact ⟨capped.tracks.sized.candidateResiduals, capped.x, by simp [trying, capped.form],
      capped.tracks.problem, capped.squared⟩
  have seventeen : raisedSquare (![1, 0] + fun _ => -2) = fun _ => 17 := by
    funext index
    norm_num [raisedSquare, Fin.sum_univ_two]
  obtain ⟨after, evaluates⟩ := evaluateCandidate_ofFn sized x_eq step_eq
    ⟨defined, raisedSquareProblem, given, rfl⟩ (onVectors_ofFn raisedSquare _)
  rw [Loss.cost_of_squared squared, seventeen] at evaluates
  norm_num [dotProduct] at evaluates
  exact ⟨after, evaluates⟩

variable [Spectral ℝ]

/-- A call that takes nothing over stays at the first point. -/
theorem Capped.stays {raised : ℝ} (capped : now.Capped damping)
    (same : now.next.updated ≠ true) (damped : now.next.damping = raised) :
    now.next.Capped raised := by
  have untorn := capped.tracks.untorn
  have configured := next_configured now
  obtain kept | replaced | ⟨fault, torn⟩ := next_outcome now
  · obtain ⟨x, _, _⟩ := place_eq_iff.mp kept.place
    exact ⟨capped.supplied.next untorn, capped.tracks.next raisedSquareProblem_computes,
      configured.form.trans capped.form, kept.loss ▸ capped.squared,
      configured.settings.trans capped.settings, x.trans capped.x, damped⟩
  · exact absurd replaced.updated same
  · exact absurd torn (untorn fault)

/-- The first call looks for a step next. -/
theorem Capped.searches (capped : now.Capped damping) (phase : now.phase = .differentiate)
    (hands : now.Hands (raisedSquareSlopes ![1, 0])) :
    now.next.Capped damping ∧ now.next.phase = .search := by
  have steep : now.settings.gradientTolerance <
      |((raisedSquareSlopes ![1, 0])ᵀ *ᵥ fun _ : Fin 1 => (9 : ℝ)) 0| := by
    rw [raisedSquare_slope, capped.settings]
    change (1.0e-8 : ℝ) < |18|
    norm_num
  have damping := (next_of_differentiate phase).1.trans capped.damping
  refine ⟨capped.stays (fun updated => ?_) damping,
    next_searches capped.supplied.sized phase hands capped.slopes_eq ⟨0, steep⟩⟩
  cases phase.symm.trans (next_of_updated updated).1

/-- With a damping of one the entries on the diagonal are too small. -/
theorem Capped.fails (capped : now.Capped 1) (phase : now.phase = .search) : now.Fails := by
  have ready := capped.ready phase
  have mixed : now.settings.mixture ≠ 0 := by
    rw [capped.settings]
    change (1.0e-4 : ℝ) ≠ 0
    norm_num
  obtain ⟨definite, _⟩ | ⟨_, failed⟩ := ready.carries.propose_cases capped.supplied.toSited
    ready.undoes rfl
  · rw [capped.dampedSystem_eq, posDef_pair_iff] at definite
    norm_num at definite
  · exact ⟨phase, mixed, failed⟩

/-- A failure quadruples the damping, and the search goes on from where it is. -/
theorem Capped.next_of_fails (capped : now.Capped 1) (phase : now.phase = .search) :
    now.next.Capped 4 ∧ now.next.phase = .search := by
  have fails := capped.fails phase
  have escalated := Solver.next_of_fails fails
  rw [capped.damping] at escalated
  refine ⟨capped.stays (fun updated => ?_) (escalated.damping.trans (one_mul 4)), ?_⟩
  · obtain ⟨_, _, _, ⟨_, found, _⟩, _⟩ := reaches_of_updated updated
    obtain ⟨_, _, _, failed⟩ := fails
    cases failed.symm.trans found
  · rw [escalated.phase, if_neg]
    change ¬ (1.0e100 : ℝ) ≤ _
    norm_num

theorem Capped.rejects (capped : now.Capped 4) (phase : now.phase = .search) : now.Rejects := by
  have ready := capped.ready phase
  obtain ⟨definite, solution⟩ := capped.solution
  obtain ⟨_, _, _, _, proposes⟩ | ⟨indefinite, _⟩ := ready.carries.propose_cases
    capped.supplied.toSited ready.undoes solution.symm
  · obtain ⟨after, evaluates⟩ := capped.evaluates ((propose_proposed _).of_run_ok proposes)
      (congrArg List.ofFn (div_one _))
    refine ⟨_, _, ⟨phase, ?_, _, _, proposes, evaluates⟩, ?_⟩
    · rw [raisedSquare_slope, capped.dampedSystem_eq]
      norm_num [Matrix.mulVec, dotProduct, Fin.sum_univ_two]
    · rw [capped.cost]
      norm_num
  · exact (indefinite definite).elim

end Capped

/-- The first trial fails and the second is rejected. -/
theorem damping_escalates_from_cap : ∃ (_ : Spectral ℝ) (started : Solver Unit ℝ),
    (start (List.ofFn ![1, 0]) none none).run cappedSearch = (.ok (), started) ∧
      (started.afterCalls 0).phase = .differentiate ∧ (started.afterCalls 1).phase = .search ∧
      (started.afterCalls 1).Fails ∧ (started.afterCalls 2).Rejects ∧
      (started.afterCalls 1).Undecided 2 ∧ (started.afterCalls 1).Escalates := by
  let spectral : Spectral ℝ := ⟨fun _ => []⟩
  obtain ⟨started, success⟩ := cappedSearch_starts
  obtain ⟨first, differentiates, hands⟩ := capped_of_start success
  obtain ⟨second, searching⟩ := first.searches differentiates hands
  obtain ⟨third, again⟩ := second.next_of_fails searching
  have fails := second.fails searching
  have rejects := third.rejects again
  have undecided : (started.afterCalls 1).Undecided 2 := by
    intro earlier before
    interval_cases earlier
    · exact fails.not_accepts
    · exact rejects.not_accepts
  refine ⟨spectral, started, success, differentiates, searching, fails, rejects, undecided, ?_⟩
  exact damping_escalates cappedSearch started _ none none success 0 differentiates searching

end DampedLeastSquares.Solver
