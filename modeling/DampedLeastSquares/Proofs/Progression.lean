import Mathlib.Data.Nat.Count
import DampedLeastSquares.Proofs.Descent

/-!
# How a search proceeds

A call that returns makes one turn: it computes derivatives, it drops or takes
over a candidate, or it rests in a search that has converged. The counts that a
search keeps tell which turns there were.
-/

set_option autoImplicit false

namespace DampedLeastSquares.Solver

variable {σ α : Type} [Scalar α]

/-! ## Turns -/

/-- What a call that returns did, by the phase it found the search in. -/
inductive Turn (before after : Solver σ α) (converged : Bool) : Prop where
  | derived (found : before.phase = .differentiate)
      (phase : after.phase = if converged then .converged else .search)
      (updated : after.updated = false) (fullSteps : after.fullSteps = before.fullSteps + 1)
      (retries : after.retries = before.retries)
  | dropped (found : before.phase = .search)
      (phase : after.phase = if converged then .converged else .search)
      (updated : after.updated = false) (fullSteps : after.fullSteps = before.fullSteps)
      (retries : after.retries = before.retries + 1)
  | replaced (found : before.phase = .search)
      (phase : after.phase = if converged then .converged else .differentiate)
      (updated : after.updated = true) (fullSteps : after.fullSteps = before.fullSteps)
      (retries : after.retries = before.retries + 1)
  | rested (found : before.phase = .converged) (still : converged = true)
      (same : after = { before with updated := false })

omit [Scalar α] in
theorem conclude_run {solver : Solver σ α} (converged : Bool) :
    (iterate.conclude converged).run solver = (.ok converged, { solver with
      phase := if converged then .converged else solver.phase }) := by
  cases converged with
  | true => rfl
  | false => rfl

theorem keepDiagonal_searches (solver : Solver σ α) :
    Ensures keepDiagonal solver
      (fun converged after => converged = false ∧ after.phase = .search) fun _ _ => True := by
  unfold keepDiagonal
  rw [ensures_bind, ensures_get, ensures_bind, ensures_attempt]
  refine ⟨fun diagonal _ => ?_, fun _ _ => trivial⟩
  rw [ensures_bind, ensures_modify, ensures_ite]
  exact ⟨fun _ => trivial, fun _ => ⟨rfl, rfl⟩⟩

/-- Derivatives that do not end the search start the search for a step. -/
theorem prepareSearch_searches (solver : Solver σ α) :
    Ensures prepareSearch solver
      (fun converged after => converged = false → after.phase = .search) fun _ _ => True := by
  have kept (middle : Solver σ α) : Ensures keepDiagonal middle
      (fun converged after => converged = false → after.phase = .search) fun _ _ => True :=
    (keepDiagonal_searches middle).mono (fun _ _ ended _ => ended.2) fun _ _ _ => trivial
  unfold prepareSearch
  rw [ensures_bind, ensures_get, ensures_ite]
  refine ⟨fun _ => trivial, fun _ => ?_⟩
  rw [ensures_ite]
  refine ⟨fun _ => nofun, fun _ => ?_⟩
  rw [ensures_ite]
  refine ⟨fun _ => ?_, fun _ => kept solver⟩
  rw [ensures_bind]
  exact (rescale_derived solver).mono (fun _ middle _ => kept middle) fun _ _ _ => trivial

theorem updateDerivatives_searches (solver : Solver σ α) :
    Ensures updateDerivatives solver
      (fun converged after => converged = false → after.phase = .search) fun _ _ => True := by
  obtain ⟨fault, ran, _⟩ | ⟨problem, given, ran⟩ := updateDerivatives_cases solver
  · exact ensures_of_error ran trivial
  refine Ensures.of_run_eq ?_ ran
  rw [ensures_bind, ensures_evaluate]
  refine ⟨fun jacobian world _ => ?_, fun _ _ _ => trivial⟩
  rw [ensures_bind]
  exact (derive_derived _ _ jacobian).mono (fun _ middle _ => prepareSearch_searches middle)
    fun _ _ _ => trivial

variable [Spectral α] [IsStrictOrder α (· < ·)]

theorem iterate_turns (before : Solver σ α) :
    Ensures iterate before (fun converged after => Turn before after converged)
      fun _ _ => True := by
  cases phase : before.phase with
  | differentiate =>
      refine Ensures.of_run_eq ?_ (iterate_run_differentiate phase)
      rw [ensures_bind]
      refine ((updateDerivatives_derived _).and (updateDerivatives_searches _)).mono ?_
        fun _ _ _ => trivial
      rintro converged _ ⟨⟨later, _, _, _, _, _, _, _, rfl⟩, searches⟩
      refine ensures_of_ok (conclude_run converged) (.derived phase ?_ rfl rfl rfl)
      cases converged with
      | true => rfl
      | false => exact searches rfl
  | search =>
      refine Ensures.of_run_eq ?_ (iterate_run_search phase)
      rw [ensures_bind]
      refine (tryStep_ends _ (fun after => after.phase = .differentiate ∧ after.updated = true ∧
        after.fullSteps = before.fullSteps ∧ after.retries = before.retries + 1)
        (fun _ _ => True) ?_).mono ?_ fun _ _ _ => trivial
      · rintro middle cost ⟨_, _, _, _, _, _, _, _, _, rfl⟩ _
        refine (accept_ends _ cost).mono ?_ fun _ _ _ => trivial
        rintro _ _ ⟨_, _, _, _, _, _, rfl⟩
        exact ⟨rfl, rfl, rfl, rfl⟩
      · rintro converged after (⟨_, _, _, _, _, _, _, _, _, rfl⟩ | ⟨still, updated, full, tried⟩)
        · exact ensures_of_ok (conclude_run converged) (.dropped phase (by rw [phase]) rfl rfl rfl)
        · exact ensures_of_ok (conclude_run converged)
            (.replaced phase (by rw [still]) updated full tried)
  | converged => exact ensures_of_ok (iterate_run_converged phase) (.rested phase rfl rfl)

theorem next_turn {before : Solver σ α} {converged : Bool}
    (returned : before.answer = .ok converged) : Turn before before.next converged :=
  before.iterate_turns.of_run_ok (Prod.ext returned rfl)

omit [Scalar α] [IsStrictOrder α (· < ·)] [Spectral α] in
theorem Turn.converged_iff {before after : Solver σ α} {converged : Bool}
    (turn : Turn before after converged) : converged = true ↔ after.phase = .converged := by
  cases turn with
  | derived _ phase | dropped _ phase | replaced _ phase =>
      rw [phase]
      cases converged <;> simp
  | rested found still same =>
      rw [same]
      exact ⟨fun _ => found, fun _ => still⟩

/-- A call that says that it replaced the parameters looked for a step and returned. -/
theorem next_of_updated {before : Solver σ α} (updated : before.next.updated = true) :
    before.phase = .search ∧ ∃ converged, before.answer = .ok converged ∧
      before.next.phase = if converged then .converged else .differentiate := by
  cases returned : before.answer with
  | ok converged =>
      cases next_turn returned with
      | replaced found phase => exact ⟨found, converged, rfl, phase⟩
      | derived _ _ dropped | dropped _ _ dropped => cases dropped.symm.trans updated
      | rested _ _ same =>
          rw [same] at updated
          cases updated
  | error fault =>
      obtain ⟨_, ⟨kept, _⟩ | torn⟩ := next_of_error returned
      · cases kept.updated.symm.trans updated
      · cases torn.updated.symm.trans updated

/-! ## Resting -/

omit [IsStrictOrder α (· < ·)] in
/-- Whatever was found when the search converged stays. -/
theorem rests_forever {solver : Solver σ α} (converged : solver.phase = .converged)
    (more : Nat) : (solver.afterCalls more).answer = .ok true ∧
      solver.afterCalls (more + 1) = { solver with updated := false } := by
  induction more with
  | zero => exact rests converged
  | succ more previous =>
      obtain ⟨_, same⟩ := previous
      have still : (solver.afterCalls (more + 1)).phase = .converged := by
        rw [same]
        exact converged
      obtain ⟨returned, again⟩ := rests still
      exact ⟨returned, again.trans (by rw [same])⟩

/-! ## Counting -/

/-- The counts of a search after so many replacements, and so many calls before it had
converged. -/
structure Tallied (solver : Solver σ α) (replaced worked : Nat) : Prop where
  differentiate : solver.phase = .differentiate → solver.fullSteps = replaced
  search : solver.phase = .search → solver.fullSteps = replaced + 1
  converged : solver.phase = .converged →
    solver.fullSteps = replaced ∨ solver.fullSteps = replaced + 1
  replaced_le : replaced ≤ solver.retries
  total : solver.fullSteps + solver.retries = worked

omit [Scalar α] [IsStrictOrder α (· < ·)] [Spectral α] in
/-- Where derivatives are about to be computed, so many full steps were made as there were
replacements; where a step is looked for, one more. -/
theorem Tallied.turn {before after : Solver σ α} {replaced worked : Nat} {converged : Bool}
    (tallied : before.Tallied replaced worked) (turn : Turn before after converged) :
    after.Tallied (replaced + if after.updated = true then 1 else 0)
      (worked + if before.phase ≠ .converged then 1 else 0) := by
  obtain ⟨differentiate, search, ended, replaced_le, total⟩ := tallied
  cases turn with
  | derived found phase updated fullSteps retries =>
      have full : after.fullSteps = replaced + 1 := by rw [fullSteps, differentiate found]
      rw [if_neg (by simp [updated]), if_pos (by simp [found])]
      refine ⟨fun again => ?_, fun _ => full, fun _ => .inr full, by omega, by omega⟩
      rw [phase] at again
      split at again <;> cases again
  | dropped found phase updated fullSteps retries =>
      have full : after.fullSteps = replaced + 1 := by rw [fullSteps, search found]
      rw [if_neg (by simp [updated]), if_pos (by simp [found])]
      refine ⟨fun again => ?_, fun _ => full, fun _ => .inr full, by omega, by omega⟩
      rw [phase] at again
      split at again <;> cases again
  | replaced found phase updated fullSteps retries =>
      -- the replacement makes up for the full step that was one ahead
      have full : after.fullSteps = replaced + 1 := by rw [fullSteps, search found]
      rw [if_pos updated, if_pos (by simp [found])]
      refine ⟨fun _ => full, fun again => ?_, fun _ => .inl full, by omega, by omega⟩
      rw [phase] at again
      split at again <;> cases again
  | rested found still same =>
      subst same
      rw [if_neg (by simp), if_neg (by simp [found])]
      exact ⟨differentiate, search, ended, replaced_le, total⟩

/-- How many of the first calls replaced the parameters. -/
def replacements (started : Solver σ α) (calls : Nat) : Nat :=
  Nat.count (fun earlier => (started.afterCalls (earlier + 1)).updated = true) calls

/-- How many of the first calls were made before the search had converged. -/
def workingCalls (started : Solver σ α) (calls : Nat) : Nat :=
  Nat.count (fun earlier => (started.afterCalls earlier).phase ≠ .converged) calls

/-- The first calls all return. -/
def Returns (started : Solver σ α) (calls : Nat) : Prop :=
  ∀ earlier < calls, ∃ converged, (started.afterCalls earlier).answer = .ok converged

omit [IsStrictOrder α (· < ·)] in
theorem returns_of_isOk {started : Solver σ α} {calls : Nat}
    (success : ∀ earlier < calls, (started.afterCalls earlier).answer.isOk = true) :
    started.Returns calls := by
  intro earlier less
  have success := success earlier less
  cases ended : (started.afterCalls earlier).answer with
  | ok converged => exact ⟨converged, rfl⟩
  | error fault =>
      rw [ended] at success
      cases success

theorem afterCalls_tallied {started : Solver σ α} {calls : Nat}
    (initial : started.Tallied 0 0) (returns : started.Returns calls) :
    (started.afterCalls calls).Tallied (started.replacements calls)
      (started.workingCalls calls) := by
  induction calls with
  | zero => exact initial
  | succ calls previous =>
      have before := previous fun earlier less => returns earlier (Nat.lt_succ_of_lt less)
      obtain ⟨converged, returned⟩ := returns calls (Nat.lt_succ_self calls)
      unfold replacements workingCalls
      rw [Nat.count_succ, Nat.count_succ]
      exact before.turn (next_turn returned)

/-! ## A run -/

/-- As long as all calls return, their answers say whether the search has converged, and what
it counts tells how often it replaced its parameters. Once it has converged, a call returns and
changes at most the mark of the last replacement. -/
theorem run_tallied (idle started : Solver σ α) (point : Vec α) (cost? gradient? : Option α)
    (success : (start point cost? gradient?).run idle = (.ok (), started)) (calls : Nat)
    (returns : started.Returns calls) :
    (started.afterCalls calls).Tallied (started.replacements calls)
        (started.workingCalls calls) ∧
      (∀ earlier < calls, (started.afterCalls earlier).answer = .ok true ↔
        (started.afterCalls (earlier + 1)).phase = .converged) ∧
      ((started.afterCalls calls).phase = .converged → ∀ more,
        (started.afterCalls (calls + more)).answer = .ok true ∧
          started.afterCalls (calls + more + 1) =
            { started.afterCalls calls with updated := false }) := by
  have initial : started.Tallied 0 0 := by
    obtain ⟨_, _, _, _, _, rfl, _⟩ := (start_ends idle point cost? gradient?).of_run_ok success
    constructor <;> simp [opened]
  refine ⟨afterCalls_tallied initial returns, fun earlier less => ?_, fun converged more => ?_⟩
  · obtain ⟨converged, returned⟩ := returns earlier less
    rw [returned, Except.ok.injEq]
    exact (next_turn returned).converged_iff
  · have rested := rests_forever converged more
    rw [afterCalls_afterCalls, afterCalls_afterCalls] at rested
    exact rested

/-- Two calls after a start at one: derivatives, and a step that is taken over. -/
theorem run_tallied_from_one :
    ((start [1.0] none none).run identitySearch).1.isOk = true ∧
      ((start [1.0] none none).run identitySearch).2.Returns 2 ∧
      ((start [1.0] none none).run identitySearch).2.replacements 2 = 1 ∧
      (((start [1.0] none none).run identitySearch).2.afterCalls 2).Tallied 1 2 := by
  have success : ((start [1.0] none none).run identitySearch).1.isOk = true := by decide +kernel
  have returns : ((start [1.0] none none).run identitySearch).2.Returns 2 :=
    returns_of_isOk (by decide +kernel)
  have once : ((start [1.0] none none).run identitySearch).2.replacements 2 = 1 := by
    decide +kernel
  have twice : ((start [1.0] none none).run identitySearch).2.workingCalls 2 = 2 := by
    decide +kernel
  refine ⟨success, returns, once, ?_⟩
  have tallied := (run_tallied identitySearch _ [1.0] none none (run_of_isOk success) 2 returns).1
  rwa [once, twice] at tallied

end DampedLeastSquares.Solver
