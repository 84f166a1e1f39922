import DampedLeastSquares.Proofs.Progression
import DampedLeastSquares.Proofs.Quadrupling

/-!
# Searches that find no step

A call that finds no step leaves the parameters in place and multiplies the
damping by four, so sooner or later the damping is beyond its limit and the
search ends. A damping of zero is the exception: it stays what it is, and the
search looks for the same step again and again.
-/

set_option autoImplicit false

namespace DampedLeastSquares

/-! ## Elimination that fails -/

namespace NormalMatrix

variable {α : Type} [Scalar α]

/-- Elimination fails on the matrix once it has the given diagonal. -/
def singularWith (diagonal : Vec α) : NormalMatrix α → Bool
  | .whole ⟨.elimination, .matrix (.dense matrix), _⟩ =>
      (matrix.setDiagonal diagonal).positiveFactor?.isNone
  | _ => false

/-- A matrix on which elimination fails is left with the diagonal, so elimination fails on it
again. -/
theorem fails_of_singularWith {diagonal : Vec α} {normal : NormalMatrix α}
    (singular : normal.singularWith diagonal = true) : ∃ set prepared failure,
      normal.setDiagonal diagonal = (.ok (), set) ∧ set.prepare = .ok (prepared, some failure) ∧
        prepared.singularWith diagonal = true := by
  unfold singularWith at singular
  split at singular
  · next matrix prepared? =>
    have fails := Option.isNone_iff_eq_none.mp singular
    let changed : Operand α := .matrix (.dense (matrix.setDiagonal diagonal))
    have dense : changed.toDense = matrix.setDiagonal diagonal := rfl
    refine ⟨.whole ⟨.elimination, changed, prepared?⟩, .whole ⟨.elimination, changed, none⟩,
      if changed.allFinite then .notPositiveDefinite else .notFinite, rfl, ?_, ?_⟩
    · unfold prepare WholeNormal.prepare
      dsimp only
      rw [dense, fails]
      cases changed.allFinite <;> rfl
    · simpa only [singularWith, changed, DenseMatrix.setDiagonal_setDiagonal] using singular
  · cases singular

end NormalMatrix

namespace Solver

variable {σ α : Type} [Scalar α] [Spectral α] {before : Solver σ α}

/-! ## A call without a step -/

/-- How the computation of a step ends that the next trial starts with. -/
def stepComputed (before : Solver σ α) : Except (Fault α) (Vec α × Bool) × Solver σ α :=
  (computeStep before.damping before.gradient before.step).run
    { before with updated := false, retries := before.retries + 1 }

/-- The next trial finds no step. -/
def Stepless (before : Solver σ α) : Prop :=
  ∃ step, before.stepComputed.1 = .ok (step, false)

/-- What is left by a call that finds no step. -/
structure Quadrupled (before after : Solver σ α) : Prop where
  place : after.place = before.place
  settings : after.settings = before.settings
  normal : after.normal = before.stepComputed.2.normal
  plainDiagonal : after.plainDiagonal = before.plainDiagonal
  dampedDiagonal : after.dampedDiagonal = before.stepComputed.2.dampedDiagonal
  growth : after.growth = before.growth
  damping : after.damping = before.damping * 4.0
  phase : after.phase = if after.exhausted then .converged else .search

theorem Stepless.quadruples (stepless : before.Stepless) (searching : before.phase = .search)
    (mixed : (before.settings.mixture == 0.0) = false) :
    Ensures iterate before
      (fun converged after => converged = after.exhausted ∧ Quadrupled before after)
      fun _ _ => False := by
  obtain ⟨step, found⟩ := stepless
  rcases computed : before.stepComputed with ⟨result, middle⟩
  rw [computed] at found
  cases found
  obtain ⟨normal, trace, dampedDiagonal, rfl⟩ :=
    (computeStep_stepped _ _ _ _).of_run_ok computed
  have proposed : propose.run { before with updated := false, retries := before.retries + 1 } =
      (.ok none, { before with
        updated := false, retries := before.retries + 1, normal := normal, trace := trace
        dampedDiagonal := dampedDiagonal, step := step }) := by
    unfold propose
    rw [run_get_bind]
    exact (run_bind_ok computed).trans run_modify_bind
  refine Ensures.of_run_eq ?_ (iterate_run_search searching)
  rw [ensures_bind]
  -- without a step the trial goes on to raise the damping
  refine Ensures.of_run_eq ?_ (tryStep_run proposed)
  obtain ⟨_, ran⟩ := recoverFromFailure_quadruples { before with
    updated := false, retries := before.retries + 1, normal := normal, trace := trace
    dampedDiagonal := dampedDiagonal, step := step } mixed
  refine ensures_of_ok ran ?_
  refine ensures_of_ok (conclude_run _)
    ⟨rfl, rfl, rfl, by rw [computed], rfl, by rw [computed], rfl, rfl, ?_⟩
  dsimp only
  rw [searching]
  rfl

theorem Stepless.next_quadrupled (stepless : before.Stepless) (searching : before.phase = .search)
    (mixed : (before.settings.mixture == 0.0) = false) :
    before.answer = .ok before.next.exhausted ∧ Quadrupled before before.next := by
  have ended := stepless.quadruples searching mixed
  cases returned : before.answer with
  | error fault => exact (ended.of_run_error (Prod.ext returned rfl)).elim
  | ok converged =>
      obtain ⟨rfl, quadrupled⟩ := ended.of_run_ok (Prod.ext returned rfl)
      exact ⟨rfl, quadrupled⟩

/-! ## Calls without a step -/

/-- After some calls none of which found a step, the search still looks for one, or its damping
was found to be beyond the limit. -/
structure Strayed (entered after : Solver σ α) (calls : Nat) : Prop where
  place : after.place = entered.place
  settings : after.settings = entered.settings
  growth : after.growth = entered.growth
  damping : ∃ failures, after.damping = Scalar.timesPower entered.damping 4.0 failures
  phase : after.phase = .search ∧ after.damping = Scalar.timesPower entered.damping 4.0 calls ∧
      (0 < calls → after.exhausted = false) ∨
    after.phase = .converged ∧ after.exhausted = true

theorem Strayed.next {entered : Solver σ α} {calls : Nat}
    (strayed : Strayed entered before calls) (mixed : (entered.settings.mixture == 0.0) = false)
    (stepless : before.phase = .search → before.Stepless) :
    before.answer.isOk = true ∧ Strayed entered before.next (calls + 1) := by
  obtain ⟨place, settings, growth, some, ⟨searching, damping, _⟩ | ⟨converged, exhausted⟩⟩ :=
    strayed
  · obtain ⟨returned, quadrupled⟩ :=
      (stepless searching).next_quadrupled searching (settings ▸ mixed)
    have raised : before.next.damping = Scalar.timesPower entered.damping 4.0 (calls + 1) := by
      rw [Scalar.timesPower_succ, ← damping]
      exact quadrupled.damping
    refine ⟨by rw [returned]; rfl, quadrupled.place.trans place,
      quadrupled.settings.trans settings, quadrupled.growth.trans growth, ⟨calls + 1, raised⟩, ?_⟩
    cases exhausted : before.next.exhausted with
    | true => exact .inr ⟨by rw [quadrupled.phase, exhausted]; rfl, rfl⟩
    | false => exact .inl ⟨by rw [quadrupled.phase, exhausted]; rfl, raised, fun _ => rfl⟩
  · obtain ⟨returned, same⟩ := rests converged
    rw [returned, same]
    exact ⟨rfl, place, settings, growth, some, .inr ⟨converged, exhausted⟩⟩

theorem strayed_afterCalls {entered : Solver σ α} (searching : entered.phase = .search)
    (mixed : (entered.settings.mixture == 0.0) = false)
    (stepless : ∀ calls, (entered.afterCalls calls).phase = .search →
      (entered.afterCalls calls).Stepless) (calls : Nat) :
    Strayed entered (entered.afterCalls calls) calls := by
  induction calls with
  | zero => exact ⟨rfl, rfl, rfl, ⟨0, rfl⟩, .inl ⟨searching, rfl, nofun⟩⟩
  | succ calls previous => exact (previous.next mixed (stepless calls)).2

/-- A search whose matrix cannot be prepared with the damped diagonal. -/
theorem stepless_of_shortfall {diagonal : Vec α} {normal prepared : NormalMatrix α}
    {failure : Shortfall} (fits : Vec.fill? before.dampedDiagonal.length
      (before.plainDiagonal.map (dampedEntry before.settings before.damping)) = some diagonal)
    (set : before.normal.setDiagonal diagonal = (.ok (), normal))
    (fails : normal.prepare = .ok (prepared, some failure)) :
    before.Stepless ∧ before.stepComputed.2.normal = prepared ∧
      before.stepComputed.2.dampedDiagonal = diagonal := by
  have ended : Ensures (computeStep before.damping before.gradient before.step)
      { before with updated := false, retries := before.retries + 1 }
      (fun found after => found = (before.step, false) ∧ after.normal = prepared ∧
        after.dampedDiagonal = diagonal) fun _ _ => False := by
    unfold computeStep
    rw [ensures_bind, ensures_get]
    dsimp only
    rw [fits, ensures_bind, ensures_attempt]
    refine ⟨fun _ same => ?_, fun _ failed => by cases failed⟩
    cases same
    rw [ensures_bind, ensures_modify, ensures_bind, ensures_changeNormal, set]
    refine ⟨fun _ same => ?_, fun _ _ failed => by cases failed⟩
    cases same
    rw [ensures_bind, ensures_get, fails, ensures_bind, ensures_attempt]
    refine ⟨fun _ same => ?_, fun _ failed => by cases failed⟩
    cases same
    rw [ensures_bind, ensures_modify, ensures_bind, ensures_report]
    exact ⟨rfl, rfl, rfl⟩
  rcases ran : before.stepComputed with ⟨fault | found, after⟩
  · exact (ended.of_run_error ran).elim
  · obtain ⟨rfl, normal, diagonal⟩ := ended.of_run_ok ran
    exact ⟨⟨before.step, congrArg Prod.fst ran⟩, normal, diagonal⟩

/-! ## Doubles -/

section Doubles

open Quadrupling

theorem exhausted_eq_false {solver : Solver σ Float} (zero : (solver.damping == 0.0) = true)
    (grows : solver.growth.isFinite = true) : solver.exhausted = false := by
  have limit : 0.0 < (dampingLimit : Float) := by decide +kernel
  have finite : Scalar.isFinite solver.damping = true := isFinite_zero zero
  have grows : Scalar.isFinite solver.growth = true := grows
  simp [exhausted, finite, grows, not_le_zero zero limit]

theorem Strayed.converged {entered after : Solver σ Float} {calls : Nat}
    (strayed : Strayed entered after (calls + 1))
    (infinite : (Scalar.timesPower entered.damping 4.0 (calls + 1)).isFinite = false ∨
      entered.growth.isFinite = false) : after.phase = .converged := by
  obtain ⟨_, damping, within⟩ | ⟨converged, _⟩ := strayed.phase
  · have finite := within (Nat.succ_pos calls)
    simp only [exhausted, Bool.or_eq_false_iff, Bool.not_eq_eq_eq_not, Bool.not_false] at finite
    obtain ⟨⟨finite, _⟩, grows⟩ := finite
    rw [damping] at finite
    rw [strayed.growth] at grows
    obtain infinite | infinite := infinite
    · cases infinite.symm.trans finite
    · cases infinite.symm.trans grows
  · exact converged

variable [Spectral Float]

/-- While no step can be found, every call returns and leaves the parameters and their cost in
place, and if the search converges it does so because its damping or its growth is beyond the
limit. It does converge, after some number of calls, unless its damping is zero and its growth
finite. -/
theorem stepless_search_ends_iff (entered : Solver σ Float) (searching : entered.phase = .search)
    (mixed : 0.0 < entered.settings.mixture)
    (stepless : ∀ calls, (entered.afterCalls calls).phase = .search →
      (entered.afterCalls calls).Stepless) :
    (∀ calls, (entered.afterCalls calls).answer.isOk = true ∧
        (entered.afterCalls calls).place = entered.place) ∧
      (∀ calls, (entered.afterCalls calls).phase = .converged →
        (entered.afterCalls calls).exhausted = true) ∧
      ((∃ calls, (entered.afterCalls calls).phase = .converged) ↔
        (entered.damping == 0.0) = false ∨ entered.growth.isFinite = false) := by
  have mixed : (entered.settings.mixture == 0.0) = false := beq_zero_of_pos mixed
  have strayed := strayed_afterCalls searching mixed stepless
  refine ⟨fun calls => ⟨((strayed calls).next mixed (stepless calls)).1, (strayed calls).place⟩,
    fun calls converged => ?_, ?_⟩
  · obtain ⟨still, _⟩ | ⟨_, exhausted⟩ := (strayed calls).phase
    · cases still.symm.trans converged
    · exact exhausted
  · constructor
    · rintro ⟨calls, converged⟩
      by_contra within
      simp only [not_or, Bool.not_eq_false] at within
      obtain ⟨zero, grows⟩ := within
      obtain ⟨failures, damping⟩ := (strayed calls).damping
      obtain ⟨still, _⟩ | ⟨_, exhausted⟩ := (strayed calls).phase
      · cases still.symm.trans converged
      · have stays := exhausted_eq_false (damping ▸ timesPower_zero zero failures)
          ((strayed calls).growth ▸ grows)
        cases stays.symm.trans exhausted
    · rintro (nonzero | infinite)
      · obtain ⟨count, infinite⟩ := timesPower_not_finite nonzero
        exact ⟨count + 1, (strayed (count + 1)).converged (.inl infinite)⟩
      · exact ⟨1, (strayed 1).converged (.inr infinite)⟩

end Doubles

/-! ## Two parameters that only their sum matters of -/

/-- A search that has not started. Its one residual is a multiple of the sum of the parameters,
so its normal matrix is singular. -/
def sumSearch (slope damping : Float) : Solver Unit Float :=
  ⟨.whole, .whole (WholeNormal.create .elimination),
    { Settings.standard with initialDamping := damping }, Loss.squared,
    some ⟨fun x => pure (.vector [slope * Vec.sum x]), fun _ =>
      pure (.whole (.matrix (.dense (DenseMatrix.rowMatrix [slope, slope]))))⟩,
    (), false, [], .differentiate, 0, 0, false, [], [], [], [], [], 0.0, [], [], [], [], [],
    damping, initialGrowth⟩

/-- The search after a start at one and zero and the first derivatives. -/
def enteredSum (slope damping : Float) : Solver Unit Float :=
  ((start [1.0, 0.0] none none).run (sumSearch slope damping)).2.next

theorem stepless_until {entered : Solver Unit Float} {count : Nat}
    (early : ∀ calls < count,
      (entered.afterCalls calls).stepComputed.1.toOption.map Prod.snd = some false)
    (settled : (entered.afterCalls count).phase = .converged) (calls : Nat)
    (searching : (entered.afterCalls calls).phase = .search) :
    (entered.afterCalls calls).Stepless := by
  obtain within | ⟨more, rfl⟩ := Nat.lt_or_ge calls count |>.imp_right Nat.exists_eq_add_of_le
  · have computed := early calls within
    rcases found : (entered.afterCalls calls).stepComputed.1 with fault | ⟨step, flag⟩
    · rw [found] at computed
      cases computed
    · rw [found] at computed
      cases computed
      exact ⟨step, found⟩
  · rw [← afterCalls_afterCalls] at searching
    cases more with
    | zero => cases settled.symm.trans searching
    | succ more =>
        rw [(rests_forever settled more).2] at searching
        cases settled.symm.trans searching

/-- A slope this steep leaves the matrix singular up to the limit of the damping, which the
second call finds exceeded. -/
theorem stepless_search_ends_steep :
    (enteredSum 1.0e75 1.0e99).phase = .search ∧
      (∀ calls, ((enteredSum 1.0e75 1.0e99).afterCalls calls).phase = .search →
        ((enteredSum 1.0e75 1.0e99).afterCalls calls).Stepless) ∧
      ((enteredSum 1.0e75 1.0e99).damping == 0.0) = false ∧
      ∃ calls, ((enteredSum 1.0e75 1.0e99).afterCalls calls).phase = .converged := by
  have searching : (enteredSum 1.0e75 1.0e99).phase = .search := by decide +kernel
  have nonzero : ((enteredSum 1.0e75 1.0e99).damping == 0.0) = false := by decide +kernel
  have early : ∀ calls < 2,
      ((enteredSum 1.0e75 1.0e99).afterCalls calls).stepComputed.1.toOption.map Prod.snd =
        some false := by decide +kernel
  have stepless := stepless_until early (by decide +kernel)
  refine ⟨searching, stepless, nonzero, ?_⟩
  exact (stepless_search_ends_iff (enteredSum 1.0e75 1.0e99) searching (by decide +kernel)
    stepless).2.2.mpr (.inl nonzero)

/-! ## A search without damping -/

/-- A search without damping that is by elimination, which fails. -/
structure Undamped {σ : Type} (diagonal : Vec Float) (solver : Solver σ Float) : Prop where
  searching : solver.phase = .search
  mixed : (solver.settings.mixture == 0.0) = false
  damping : solver.damping = 0.0
  growth : solver.growth.isFinite = true
  fits : Vec.fill? solver.dampedDiagonal.length
    (solver.plainDiagonal.map (dampedEntry solver.settings 0.0)) = some diagonal
  singular : solver.normal.singularWith diagonal = true

theorem Undamped.next {σ : Type} {diagonal : Vec Float} {before : Solver σ Float}
    (undamped : Undamped diagonal before) :
    before.Stepless ∧ before.answer = .ok false ∧ Undamped diagonal before.next := by
  obtain ⟨searching, mixed, damping, growth, fits, singular⟩ := undamped
  obtain ⟨set, prepared, failure, sets, fails, still⟩ := NormalMatrix.fails_of_singularWith singular
  obtain ⟨stepless, normal, found⟩ := stepless_of_shortfall (damping.symm ▸ fits) sets fails
  obtain ⟨returned, quadrupled⟩ := stepless.next_quadrupled searching mixed
  have raised : before.next.damping = 0.0 := by
    have product : (0.0 : Float) * 4.0 = 0.0 := by decide +kernel
    rw [quadrupled.damping, damping, product]
  have grows : before.next.growth.isFinite = true := quadrupled.growth ▸ growth
  have within : before.next.exhausted = false := by
    refine exhausted_eq_false ?_ grows
    rw [raised]
    decide +kernel
  refine ⟨stepless, by rw [returned, within], by rw [quadrupled.phase, within]; rfl,
    quadrupled.settings ▸ mixed, raised, grows, ?_, ?_⟩
  · rw [quadrupled.dampedDiagonal, quadrupled.plainDiagonal, quadrupled.settings, found,
      Vec.length_of_fill? fits]
    exact fits
  · rw [quadrupled.normal, normal]
    exact still

theorem Undamped.afterCalls {σ : Type} {diagonal : Vec Float} {entered : Solver σ Float}
    (undamped : Undamped diagonal entered) (calls : Nat) :
    Undamped diagonal (entered.afterCalls calls) := by
  induction calls with
  | zero => exact undamped
  | succ calls previous => exact previous.next.2.2

/-- The settings may ask for no damping. On a singular matrix the search then goes on for ever
without finding a step. -/
theorem undamped_search_stalls :
    (sumSearch 1.0 0.0).settings.check.isOk = true ∧
      0.0 < (sumSearch 1.0 0.0).settings.mixture ∧
      ((start [1.0, 0.0] none none).run (sumSearch 1.0 0.0)).1.isOk = true ∧
      ∀ calls, ((enteredSum 1.0 0.0).afterCalls calls).phase = .search ∧
        ((enteredSum 1.0 0.0).afterCalls calls).Stepless ∧
        ((enteredSum 1.0 0.0).afterCalls calls).answer = .ok false := by
  have undamped : Undamped [1.0, 1.0] (enteredSum 1.0 0.0) := by
    constructor <;> decide +kernel
  refine ⟨by decide +kernel, by decide +kernel, by decide +kernel, fun calls => ?_⟩
  have still := undamped.afterCalls calls
  obtain ⟨stepless, returned, _⟩ := still.next
  exact ⟨still.searching, stepless, returned⟩

end Solver

end DampedLeastSquares
