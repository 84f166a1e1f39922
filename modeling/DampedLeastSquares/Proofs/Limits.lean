import DampedLeastSquares.Proofs.Progression

/-!
# Runs with a limit

A run that may take more calls goes on from where a shorter one ends. So it
succeeds only if the shorter one does, it finds no higher cost, and it finds the
same where the shorter one had converged.
-/

set_option autoImplicit false

namespace DampedLeastSquares.Solver

variable {σ α : Type} [Scalar α] [Spectral α]

/-- The calls after a search has converged do not change what it found. -/
theorem minimum_of_rests {solver : Solver σ α} (converged : solver.phase = .converged)
    (more : Nat) : (solver.afterCalls more).minimum = solver.minimum := by
  cases more with
  | zero => rfl
  | succ more => rw [(rests_forever converged more).2, minimum, minimum]

theorem returns_succ_iff {solver : Solver σ α} {calls : Nat} :
    solver.Returns (calls + 1) ↔
      (∃ converged, solver.answer = .ok converged) ∧ solver.next.Returns calls := by
  constructor
  · intro returns
    refine ⟨returns 0 (Nat.succ_pos calls), fun earlier less => ?_⟩
    rw [afterCalls_next]
    exact returns (earlier + 1) (Nat.succ_lt_succ less)
  · rintro ⟨first, rest⟩ earlier less
    cases earlier with
    | zero => exact first
    | succ earlier =>
        have returned := rest earlier (Nat.lt_of_succ_lt_succ less)
        rwa [afterCalls_next] at returned

theorem returns_of_rests {solver : Solver σ α} (converged : solver.phase = .converged)
    (calls : Nat) : solver.Returns calls :=
  fun earlier _ => ⟨true, (rests_forever converged earlier).1⟩

variable [IsStrictOrder α (· < ·)]

/-- Advancing a search up to a limit succeeds exactly if that many calls return. It finds what
they find, although it makes no more calls once the search has converged. -/
theorem iterateUpTo_ok_iff {limit : Nat} {solver : Solver σ α} {found : Minimum α} :
    (∃ final, (iterateUpTo limit).run solver = (.ok (), final) ∧ final.minimum = found) ↔
      solver.Returns limit ∧ (solver.afterCalls limit).minimum = found := by
  induction limit generalizing solver with
  | zero =>
      constructor
      · rintro ⟨_, ran, same⟩
        cases ran
        exact ⟨nofun, same⟩
      · rintro ⟨_, same⟩
        exact ⟨solver, rfl, same⟩
  | succ limit previous =>
      rw [returns_succ_iff, ← afterCalls_next]
      unfold iterateUpTo
      rcases ended : iterate.run solver with ⟨fault | converged, after⟩
      · have failed : solver.answer = .error fault := congrArg Prod.fst ended
        rw [run_bind_error ended, failed]
        constructor
        · rintro ⟨_, ran, _⟩
          cases ran
        · rintro ⟨⟨⟨_, answered⟩, _⟩, _⟩
          cases answered
      have returned : solver.answer = .ok converged := congrArg Prod.fst ended
      have same : solver.next = after := congrArg Prod.snd ended
      rw [run_bind_ok ended, same]
      cases converged with
      | false =>
          rw [if_neg Bool.false_ne_true, previous]
          constructor
          · rintro ⟨rest, found⟩
            exact ⟨⟨⟨_, returned⟩, rest⟩, found⟩
          · rintro ⟨⟨_, rest⟩, found⟩
            exact ⟨rest, found⟩
      | true =>
          have rested : after.phase = .converged :=
            same ▸ (next_turn returned).converged_iff.mp rfl
          rw [if_pos rfl, minimum_of_rests rested]
          constructor
          · rintro ⟨_, ran, found⟩
            cases ran
            exact ⟨⟨⟨_, returned⟩, returns_of_rests rested limit⟩, found⟩
          · rintro ⟨_, found⟩
            exact ⟨after, rfl, found⟩

theorem minimize_ok_iff {idle : Solver σ α} {point : Vec α} {options : RunOptions α}
    {found : Minimum α} :
    ((minimize point options).run idle).1 = .ok found ↔
      ∃ started, (start point options.costTolerance? options.gradientTolerance?).run idle =
          (.ok (), started) ∧
        started.Returns options.limit ∧ (started.afterCalls options.limit).minimum = found := by
  unfold minimize
  rcases begun : (start point options.costTolerance? options.gradientTolerance?).run idle with
    ⟨fault | _, started⟩
  · rw [run_bind_error begun]
    constructor
    · intro ended
      cases ended
    · rintro ⟨_, success, _⟩
      cases success
  rw [run_bind_ok begun]
  constructor
  · intro ended
    refine ⟨started, rfl, iterateUpTo_ok_iff.mp ?_⟩
    rcases ran : (iterateUpTo options.limit).run started with ⟨fault | _, final⟩
    · rw [run_bind_error ran] at ended
      cases ended
    · rw [run_bind_ok ran] at ended
      cases ended
      exact ⟨final, rfl, rfl⟩
  · rintro ⟨_, success, returns⟩
    cases success
    obtain ⟨final, ran, rfl⟩ := iterateUpTo_ok_iff.mpr returns
    rw [run_bind_ok ran]
    rfl

/-- With a static loss, a run that returns would also have returned with a lower limit. What it
then finds is the same if the search had converged by that time, and otherwise costs no less. -/
theorem lower_limit_returns (idle : Solver σ α) (point : Vec α) (options : RunOptions α)
    (static : idle.loss.IsStatic) {fewer : Nat} (less : fewer ≤ options.limit)
    (last : Minimum α) (ended : ((minimize point options).run idle).1 = .ok last) :
    ∃ found, ((minimize point { options with limit := fewer }).run idle).1 = .ok found ∧
      (last.cost = found.cost ∨ last.cost < found.cost) ∧
      (found.converged = true → last = found) := by
  obtain ⟨started, success, returns, rfl⟩ := minimize_ok_iff.mp ended
  have ready := (start_ensures idle point _ _).of_run_ok success
  refine ⟨(started.afterCalls fewer).minimum, minimize_ok_iff.mpr ⟨started, success,
    fun earlier before => returns earlier (before.trans_le less), rfl⟩, ?_, fun converged => ?_⟩
  · exact afterCalls_descends started (ready.static static) less
  · have converged : (started.afterCalls fewer).phase = .converged := beq_iff_eq.mp converged
    have rested := minimum_of_rests converged (options.limit - fewer)
    rwa [afterCalls_afterCalls, Nat.add_sub_cancel' less] at rested

def threeCalls : RunOptions Float := ⟨3, none, none⟩

/-- From a start at one, the second of three calls takes a step. -/
theorem lower_limit_returns_from_one : identitySearch.loss.IsStatic ∧ 1 ≤ threeCalls.limit ∧
    ∃ last found, ((minimize [1.0] threeCalls).run identitySearch).1 = .ok last ∧
      ((minimize [1.0] { threeCalls with limit := 1 }).run identitySearch).1 = .ok found ∧
      (last.cost = found.cost ∨ last.cost < found.cost) ∧
      (found.converged = true → last = found) := by
  have success : ((minimize [1.0] threeCalls).run identitySearch).1.isOk = true := by
    decide +kernel
  have less : 1 ≤ threeCalls.limit := by decide
  refine ⟨trivial, less, ?_⟩
  cases ended : ((minimize [1.0] threeCalls).run identitySearch).1 with
  | error fault =>
      rw [ended] at success
      cases success
  | ok last =>
      obtain ⟨found, returned⟩ :=
        lower_limit_returns identitySearch [1.0] threeCalls trivial less last ended
      exact ⟨last, found, rfl, returned⟩

end DampedLeastSquares.Solver
