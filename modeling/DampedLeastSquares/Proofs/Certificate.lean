import DampedLeastSquares.Proofs.FloatDifferences
import DampedLeastSquares.Proofs.GradientTest
import DampedLeastSquares.Proofs.Prediction

/-!
# Why a search has converged

A call that finds that the search has converged leaves the reason behind: a gradient within the
tolerance, a candidate that brings nothing, an improvement within the tolerance, or a damping out of
range. No other call says that the search has converged, but for those that find it so already.
-/

set_option autoImplicit false

namespace DampedLeastSquares

instance : Scalar.TellsApart ℝ where
  sub_beq_zero_iff first second _ := by
    rw [Exact.beq_iff, Exact.beq_iff, Exact.literal_zero, sub_eq_zero, eq_comm]

namespace Solver

variable {σ α : Type} [Scalar α]

theorem exhausted_iff (solver : Solver σ α) : solver.exhausted = true ↔
    dampingLimit ≤ solver.damping ∨ Scalar.isFinite solver.damping = false ∨
      Scalar.isFinite solver.growth = false := by
  simp only [exhausted, Bool.or_eq_true, Bool.not_eq_true', decide_eq_true_eq]
  tauto

theorem gradientVanishes_eq_true_iff (solver : Solver σ α) (gradient : Vec α) :
    solver.gradientVanishes gradient = true ↔ gradient = [] ∨
      ∃ largest, Vec.maxAbs? gradient = some largest ∧
        largest ≤ solver.settings.gradientTolerance := by
  cases gradient <;> simp [gradientVanishes, Vec.maxAbs?]

variable [Spectral α]

/-- The reason for which a call ended the search, as seen from what the call left. -/
inductive Certificate (before after : Solver σ α) : Prop where
  /-- There are no parameters, or no entry of the gradient there exceeds the tolerance. -/
  | level (phase : before.phase = .differentiate) (kept : Kept before after)
      (gradient : after.unscaledGradient before.world = .ok after.gradient)
      (vanishes : after.x = [] ∨ ∃ largest, Vec.maxAbs? after.gradient = some largest ∧
        largest ≤ after.settings.gradientTolerance)
  /-- The candidate was dropped. It has the cost in place, or no reduction was predicted for it. -/
  | stalled {predicted cost : α} {evaluated : Solver σ α} (phase : before.phase = .search)
      (kept : Kept before after) (reaches : before.Reaches predicted cost evaluated)
      (further : Vec.combine? (· + ·) after.x after.step = some after.candidate)
      (measured : after.Measured after.candidate after.candidateResiduals)
      (costed : after.loss.cost after.candidateResiduals = .ok cost)
      (even : (cost == after.cost) = true ∨ (predicted == 0.0) = true)
  /-- The candidate was taken over, and its cost is lower by no more than the tolerance. -/
  | settled {cost : α} (updated : after.updated = true) (advanced : Advanced before after cost)
      (tolerated : before.cost - cost ≤ after.settings.costTolerance * before.cost)
  /-- The damping has left its range. -/
  | exhausted (phase : before.phase = .search)
      (beyond : dampingLimit ≤ after.damping ∨ Scalar.isFinite after.damping = false ∨
        Scalar.isFinite after.growth = false)

/-! ## Calls that compute derivatives -/

omit [Spectral α] in
theorem unscaledGradient_eq {before after : Solver σ α} {parameters functions : Nat}
    (differenced : ∃ fullSteps, Differenced { before with
      updated := false, fullSteps := fullSteps } after)
    (sized : before.Sized parameters functions) (sized' : after.Sized parameters functions)
    (world : σ) : after.unscaledGradient world = before.unscaledGradient world := by
  have gradient : after.gradient.length = before.gradient.length :=
    sized'.gradient.trans sized.gradient.symm
  have lossGradient : after.lossGradient.length = before.lossGradient.length :=
    sized'.lossGradient.trans sized.lossGradient.symm
  obtain ⟨_, _, _, _, _, _, _, _, _, rfl⟩ := differenced
  simp only [unscaledGradient, slopes] at gradient lossGradient ⊢
  rw [gradient, lossGradient]

theorem next_tests {before : Solver σ α} (phase : before.phase = .differentiate)
    {converged : Bool} (returned : before.answer = .ok converged) :
    (∃ fullSteps, Differenced { before with updated := false, fullSteps := fullSteps }
        before.next) ∧
      ∃ gradient, before.unscaledGradient before.world = .ok gradient ∧
        converged = before.gradientVanishes gradient ∧
        (converged = true → before.next.gradient = gradient) := by
  have ensured : Ensures iterate before
      (fun converged after =>
        (∃ fullSteps, Differenced { before with updated := false, fullSteps := fullSteps } after) ∧
          ∃ gradient, before.unscaledGradient before.world = .ok gradient ∧
            converged = before.gradientVanishes gradient ∧
            (converged = true → after.gradient = gradient))
      fun _ _ => True := by
    refine Ensures.of_run_eq ?_ (iterate_run_differentiate phase)
    rw [ensures_bind]
    refine ((updateDerivatives_derived _).and (updateDerivatives_tests _)).mono ?_
      fun _ _ _ => trivial
    rintro converged middle ⟨⟨_, _, _, _, _, _, _, _, rfl⟩, gradient, found, verdict, same⟩
    exact ensures_of_ok (conclude_run converged)
      ⟨⟨_, _, _, _, _, _, _, _, _, rfl⟩, gradient, found, verdict, same⟩
  exact ensured.of_run_ok (Prod.ext returned rfl)

theorem certificate_of_differentiate {before : Solver σ α} {parameters functions : Nat}
    (sized : before.Sized parameters functions) (phase : before.phase = .differentiate)
    {converged : Bool} (returned : before.answer = .ok converged) :
    converged = true ↔ Certificate before before.next := by
  obtain ⟨⟨fullSteps, differenced⟩, gradient, found, verdict, same⟩ := next_tests phase returned
  have sized' : before.next.Sized parameters functions := next_sized sized
  have found : before.next.unscaledGradient before.world = .ok gradient :=
    (unscaledGradient_eq ⟨fullSteps, differenced⟩ sized sized' _).trans found
  have verdict : converged = before.next.gradientVanishes gradient := by
    obtain ⟨_, _, _, _, _, _, _, _, framed⟩ := differenced
    rw [verdict, framed]
    rfl
  have kept : Kept before before.next := by
    obtain ⟨_, _, _, _, _, _, _, _, framed⟩ := differenced
    rw [framed]
    exact ⟨rfl, rfl, rfl, rfl⟩
  have empty : before.next.x = [] ↔ before.next.gradient = [] := by
    rw [← List.length_eq_zero_iff, sized'.x, ← List.length_eq_zero_iff, sized'.gradient]
  constructor
  · intro ended
    have gradient_eq := same ended
    rw [verdict, ← gradient_eq, gradientVanishes_eq_true_iff, ← empty] at ended
    exact .level phase kept (gradient_eq ▸ found) ended
  · intro certificate
    cases certificate with
    | level _ _ left vanishes =>
        rw [verdict, gradientVanishes_eq_true_iff, Except.ok.inj (found.symm.trans left), ← empty]
        exact vanishes
    | settled updated => cases kept.updated.symm.trans updated
    | stalled searching | exhausted searching => cases phase.symm.trans searching

/-! ## Calls that look for a step -/

omit [Spectral α] in
theorem level_iff [Scalar.TellsApart α] {evaluated : Solver σ α} {predicted cost : α}
    (finite : Scalar.isFinite cost = true) : evaluated.level predicted cost = true ↔
      (cost == evaluated.cost) = true ∨ (predicted == 0.0) = true := by
  rw [level, Bool.or_eq_true, Scalar.TellsApart.sub_beq_zero_iff _ finite]

theorem Reaches.not_stepless {before evaluated proposed : Solver σ α} {predicted cost : α}
    (reaches : before.Reaches predicted cost evaluated)
    (found : propose.run { before with updated := false, retries := before.retries + 1 } =
      (.ok none, proposed)) : False := by
  obtain ⟨_, found', _⟩ := reaches
  cases found.symm.trans found'

section Certified

variable [Scalar.TellsApart α]

/-- A trial ends the search exactly if it leaves a reason, whatever phase it leaves the search
in. -/
theorem Trial.certificate {before tried : Solver σ α} {converged : Bool}
    (phase : before.phase = .search) (trial : Trial before converged tried) (left : Phase) :
    converged = true ↔ Certificate before { tried with phase := left } := by
  cases trial with
  | stepless found tried verdict =>
      obtain ⟨_, _, _, _, _, _, _, _, _, rfl⟩ := tried
      rw [verdict, exhausted_iff]
      constructor
      · exact fun beyond => .exhausted phase beyond
      · intro certificate
        cases certificate with
        | level other => cases phase.symm.trans other
        | stalled _ _ reaches => exact (reaches.not_stepless found).elim
        | settled updated => cases updated
        | exhausted _ beyond => exact beyond
  | @judged predicted cost evaluated reaches finite verdict =>
      obtain ⟨⟨_, _, _, _, _, _, _, _, _, rfl⟩, further, measured, costed⟩ := reaches.evaluated
      cases verdict with
      | stalled even judged verdict =>
          obtain ⟨_, _, _, rfl⟩ := judged
          rw [level_iff finite] at even
          exact ⟨fun _ => .stalled phase ⟨rfl, rfl, rfl, rfl⟩ reaches further
            (measured.of_problem rfl) costed even, fun _ => verdict⟩
      | rejected differs higher judged verdict =>
          obtain ⟨_, _, _, rfl⟩ := judged
          rw [verdict, exhausted_iff]
          constructor
          · exact fun beyond => .exhausted phase beyond
          · intro certificate
            cases certificate with
            | level other => cases phase.symm.trans other
            | stalled _ _ again _ _ _ even =>
                obtain ⟨rfl, rfl, rfl⟩ := reaches.unique again
                exact (Bool.false_ne_true (differs.symm.trans ((level_iff finite).mpr even))).elim
            | settled updated => cases updated
            | exhausted _ beyond => exact beyond
      | accepted differs lower taken verdict =>
          rw [verdict, Bool.or_eq_true, exhausted_iff, decide_eq_true_iff]
          obtain ⟨updated, advanced⟩ : tried.updated = true ∧
              Advanced before { tried with phase := left } cost := by
            obtain ⟨_, _, _, _, _, _, _, _, _, rfl⟩ := taken
            exact ⟨rfl, further, measured, costed, finite, lower, rfl⟩
          constructor
          · rintro (beyond | tolerated)
            · exact .exhausted phase beyond
            · exact .settled updated advanced tolerated
          · intro certificate
            cases certificate with
            | level other => cases phase.symm.trans other
            | stalled _ kept => cases kept.updated.symm.trans updated
            | settled _ advanced' tolerated =>
                cases advanced.costed.symm.trans advanced'.costed
                exact .inr tolerated
            | exhausted _ beyond => exact .inl beyond

theorem certificate_of_search {before : Solver σ α} (phase : before.phase = .search)
    {converged : Bool} (returned : before.answer = .ok converged) :
    converged = true ↔ Certificate before before.next := by
  obtain ⟨tried, trial, same⟩ := next_trial phase returned
  rw [same]
  exact trial.certificate phase _

/-- A call that returns before the search has converged says that it has exactly if it leaves a
reason. -/
theorem certificate_iff {before : Solver σ α} {parameters functions : Nat}
    (sized : before.Sized parameters functions) (working : before.phase ≠ .converged)
    {converged : Bool} (returned : before.answer = .ok converged) :
    converged = true ↔ Certificate before before.next := by
  cases phase : before.phase with
  | differentiate => exact certificate_of_differentiate sized phase returned
  | search => exact certificate_of_search phase returned
  | converged => exact (working phase).elim

end Certified

/-! ## A run -/

theorem afterCommands_sized {started : Solver σ α} {parameters functions : Nat}
    (sized : started.Sized parameters functions) {history : List (Command σ α)}
    (goesOn : ∀ command ∈ history, GoesOn command) :
    (started.afterCommands history).Sized parameters functions := by
  induction history using List.reverseRecOn with
  | nil => exact sized
  | append_singleton history command previous =>
      have before := previous fun command member => goesOn command (List.mem_append_left _ member)
      rw [afterCommands_concat]
      obtain rfl | ⟨_, _, _, _, _, _, retuned⟩ := obey_goesOn (started.afterCommands history)
        (goesOn command (List.mem_append_right _ (by simp)))
      · exact next_sized before
      · rw [retuned]
        exact { before with x := before.x }

variable [IsStrictOrder α (· < ·)]

/-- A call leaves a search converged exactly if it says so. -/
theorem next_converged_iff (before : Solver σ α) :
    before.next.phase = .converged ↔ before.answer = .ok true := by
  cases returned : before.answer with
  | ok converged =>
      rw [← (next_turn returned).converged_iff, Except.ok.injEq]
  | error fault =>
      refine ⟨fun converged => ?_, nofun⟩
      rw [(next_of_error returned).1] at converged
      cases returned.symm.trans (rests converged).1

/-- A search that went on has converged exactly if a call said so. -/
theorem converged_iff {started : Solver σ α} (working : started.phase ≠ .converged)
    {history : List (Command σ α)} (goesOn : ∀ command ∈ history, GoesOn command) :
    (started.afterCommands history).phase = .converged ↔
      ∃ earlier, earlier ++ [.iterate] <+: history ∧
        (started.afterCommands earlier).answer = .ok true := by
  induction history using List.reverseRecOn with
  | nil => simpa [afterCommands] using working
  | append_singleton history command previous =>
      have previous := previous fun command member =>
        goesOn command (List.mem_append_left _ member)
      have goesOn := goesOn command (List.mem_append_right _ (by simp))
      simp only [List.prefix_concat_iff, or_and_right, exists_or, ← previous]
      rw [afterCommands_concat]
      obtain rfl | ⟨other, _, _, _, _, _, retuned⟩ :=
        obey_goesOn (started.afterCommands history) goesOn
      · change (started.afterCommands history).next.phase = .converged ↔ _
        rw [next_converged_iff]
        constructor
        · exact fun ended => .inl ⟨history, rfl, ended⟩
        · rintro (⟨earlier, same, ended⟩ | converged)
          · rwa [← List.append_cancel_right same]
          · exact (rests converged).1
      · rw [retuned]
        refine ⟨.inr, ?_⟩
        rintro (⟨earlier, same, _⟩ | converged)
        · exact (other (List.append_inj_right' same rfl |> List.singleton_inj.mp).symm).elim
        · exact converged

/-- The call after `earlier` is the first one that says that the search has converged, and it
leaves its reason. -/
structure Ends (started : Solver σ α) (earlier : List (Command σ α)) : Prop where
  first : ∀ previous, previous ++ [.iterate] <+: earlier →
    (started.afterCommands previous).answer ≠ .ok true
  returned : ∃ converged, (started.afterCommands earlier).answer = .ok converged
  certificate : Certificate (started.afterCommands earlier) (started.afterCommands earlier).next

section Ending

variable [Scalar.TellsApart α] {started : Solver σ α} {parameters functions : Nat}
  (sized : started.Sized parameters functions) (working : started.phase ≠ .converged)
  {history : List (Command σ α)} (goesOn : ∀ command ∈ history, GoesOn command)

include sized working goesOn

theorem ends_iff : started.Ends history ↔
    (started.afterCommands history).phase ≠ .converged ∧
      (started.afterCommands history).answer = .ok true := by
  have here := afterCommands_sized sized goesOn
  have converged := converged_iff working goesOn
  constructor
  · rintro ⟨first, ⟨ended, returned⟩, certificate⟩
    have still : (started.afterCommands history).phase ≠ .converged := fun found => by
      obtain ⟨previous, before, answered⟩ := converged.mp found
      exact first previous before answered
    exact ⟨still, (certificate_iff here still returned).mpr certificate ▸ returned⟩
  · rintro ⟨still, ended⟩
    exact ⟨fun previous before answered => still (converged.mpr ⟨previous, before, answered⟩),
      ⟨true, ended⟩, (certificate_iff here still ended).mp rfl⟩

/-- Before every call that says that the search has converged there was a first one, if it is not
the first itself. -/
theorem exists_ends (ended : (started.afterCommands history).answer = .ok true) :
    ∃ earlier, (earlier = history ∨ earlier ++ [.iterate] <+: history) ∧
      started.Ends earlier := by
  induction long : history.length using Nat.strong_induction_on generalizing history with
  | _ length previous =>
      by_cases still : (started.afterCommands history).phase = .converged
      · obtain ⟨earlier, before, answered⟩ := (converged_iff working goesOn).mp still
        have shorter : earlier.length < length := by
          have less := before.length_le
          rw [List.length_append, List.length_singleton] at less
          omega
        have part : earlier <+: history := (List.prefix_append _ _).trans before
        obtain ⟨first, found, ends⟩ := previous _ shorter
          (fun command member => goesOn command (part.subset member)) answered rfl
        obtain rfl | within := found
        · exact ⟨first, .inr before, ends⟩
        · exact ⟨first, .inr (within.trans part), ends⟩
      · exact ⟨history, .inl rfl, (ends_iff sized working goesOn).mpr ⟨still, ended⟩⟩

theorem answers_iff : (started.afterCommands history).answer = .ok true ↔
    ∃ earlier, (earlier = history ∨ earlier ++ [.iterate] <+: history) ∧
      started.Ends earlier := by
  refine ⟨exists_ends sized working goesOn, ?_⟩
  rintro ⟨earlier, rfl | before, ends⟩
  · exact ((ends_iff sized working goesOn).mp ends).2
  · have part : earlier <+: history := (List.prefix_append _ _).trans before
    have goesOn' : ∀ command ∈ earlier, GoesOn command := fun command member =>
      goesOn command (part.subset member)
    have answered := ((ends_iff sized working goesOn').mp ends).2
    exact (rests ((converged_iff working goesOn).mpr ⟨earlier, before, answered⟩)).1

end Ending

/-- All along a run a call says that the search has converged exactly if it is the first one that
ends with a reason, or comes after it. In exact arithmetic, with a method of elimination, the reason
is never that no reduction was predicted. -/
theorem convergence_certified :
    (∀ (σ α : Type) [Scalar α] [Spectral α] [IsStrictOrder α (· < ·)] [Scalar.TellsApart α]
        (idle started : Solver σ α) (point : Vec α) (cost? gradient? : Option α),
      (start point cost? gradient?).run idle = (.ok (), started) →
        ∀ history : List (Command σ α), (∀ command ∈ history, GoesOn command) →
          ((started.afterCommands history).answer = .ok true ↔
            ∃ earlier, (earlier = history ∨ earlier ++ [.iterate] <+: history) ∧
              started.Ends earlier)) ∧
      ∀ (σ : Type) [Spectral ℝ] (idle started : Solver σ ℝ) (point : Vec ℝ)
        (cost? gradient? : Option ℝ),
      (start point cost? gradient?).run idle = (.ok (), started) → idle.normal.layout?.isSome →
        ∀ history : List (Command σ ℝ), (∀ command ∈ history, Continues command) →
          (started.afterCommands history).phase = .search → ∀ predicted cost evaluated,
            (started.afterCommands history).Reaches predicted cost evaluated → 0 < predicted := by
  constructor
  · intro σ α _ _ _ _ idle started point cost? gradient? success history goesOn
    have ready := (start_ensures idle point cost? gradient?).of_run_ok success
    have working : started.phase ≠ .converged := by
      rw [ready.phase]
      nofun
    exact answers_iff ready.sized working goesOn
  · intro σ _ idle started point cost? gradient? success eliminates history continues searching
      predicted cost evaluated reaches
    have provided := provided_of_start success eliminates continues
    obtain ⟨_, jacobian, slopes, carried, stems⟩ := provided.stems searching
    obtain ⟨_, found, _⟩ := reaches
    obtain ⟨_, _, proposes, positive⟩ | ⟨_, _, proposes⟩ :=
      propose_carried provided.sited stems.carries stems.nonzero stems.steep rfl
    · cases proposes.symm.trans found
      exact positive
    · cases proposes.symm.trans found

/-- A parameter that is its own residual can always be evaluated a step further. -/
theorem unitSearch_reaches [Spectral ℝ] : ∃ started evaluated predicted cost,
    (start [1] none none).run unitSearch = (.ok (), started) ∧
      (started.afterCommands [.iterate]).phase = .search ∧
      (started.afterCommands [.iterate]).Reaches predicted cost evaluated := by
  obtain ⟨cost, success⟩ := unitSearch_starts
  have point : [1] = List.ofFn fun _ : Fin 1 => (1 : ℝ) := by simp
  have searching : ((unitStarted cost).afterCalls 1).phase = .search :=
    (unitSearch_computes cost).1
  have aligned := @aligned_of_start Unit 1 1 _ _ _ _ _ (fun _ => 1) _ _ (point ▸ success) rfl
    unitProblem_linear rfl rfl
  have damping : 0 < ((unitStarted cost).afterCalls 1).damping := by
    obtain ⟨same, _⟩ : ((unitStarted cost).afterCalls 1).damping = 1.0e-3 ∧ _ :=
      next_of_differentiate rfl
    rw [same]
    norm_num
  have diagonal : 0 < ((unitStarted cost).afterCalls 1).settings.diagonalMin := by
    rw [unitStarted_settings]
    change (0 : ℝ) < 1.0e-6
    norm_num
  have within : ∀ entry ∈ ((unitStarted cost).afterCalls 1).plainDiagonal,
      entry ≤ ((unitStarted cost).afterCalls 1).settings.diagonalMax := by
    rw [aligned.plainDiagonal_eq unitProblem_linear rfl searching, List.forall_mem_ofFn_iff,
      unitStarted_settings]
    intro index
    rw [Matrix.transpose_one, Matrix.one_mul, Matrix.one_apply_eq]
    change (1 : ℝ) ≤ 1.0e32
    norm_num
  have aligned := aligned.afterCalls unitProblem_linear 1
  obtain ⟨_, _, _, ready⟩ := aligned.ready unitProblem_linear searching
  have raised := ready.raised aligned.supplied.valid damping diagonal within
  obtain ⟨predicted, found, ⟨_, _, _, evaluated, proposes, evaluates⟩, _⟩ :=
    aligned.compares unitProblem_linear searching (ready.definite_of_raised raised)
      fun entry member => (raised entry member).le
  exact ⟨_, evaluated, predicted, found, success, searching, _, proposes, evaluates⟩

/-- A start at one that comes to an end within seven calls, and the first trial of another one in
exact arithmetic. -/
theorem convergence_certified_from_one :
    (((start [1.0] none none).run identitySearch).1.isOk = true ∧
      ∃ earlier, (earlier = List.replicate 6 .iterate ∨
        earlier ++ [.iterate] <+: List.replicate 6 .iterate) ∧
          ((start [1.0] none none).run identitySearch).2.Ends earlier) ∧
      ∃ (_ : Spectral ℝ) (started evaluated : Solver Unit ℝ) (predicted cost : ℝ),
        (start [1] none none).run unitSearch = (.ok (), started) ∧
          (started.afterCommands [.iterate]).Reaches predicted cost evaluated ∧ 0 < predicted := by
  constructor
  · have success : ((start [1.0] none none).run identitySearch).1.isOk = true := by
      decide +kernel
    have ended : (((start [1.0] none none).run identitySearch).2.afterCommands
        (List.replicate 6 .iterate)).answer.toOption = some true := by decide +kernel
    refine ⟨success, (convergence_certified.1 Unit Float identitySearch _ [1.0] none none
      (run_of_isOk success) (List.replicate 6 .iterate) ?_).mp ?_⟩
    · intro command member
      obtain rfl := List.eq_of_mem_replicate member
      exact trivial
    · revert ended
      generalize (((start [1.0] none none).run identitySearch).2.afterCommands
        (List.replicate 6 .iterate)).answer = answer
      cases answer with
      | error fault => nofun
      | ok converged =>
          rintro ⟨⟩
          rfl
  · let spectral : Spectral ℝ := ⟨fun _ => []⟩
    obtain ⟨started, evaluated, predicted, cost, success, searching, reaches⟩ :=
      @unitSearch_reaches spectral
    refine ⟨spectral, started, evaluated, predicted, cost, success, reaches, ?_⟩
    refine convergence_certified.2 Unit unitSearch started [1] none none success rfl [.iterate] ?_
      searching predicted cost evaluated reaches
    intro command member
    obtain rfl := List.mem_singleton.mp member
    exact trivial

end Solver

end DampedLeastSquares
