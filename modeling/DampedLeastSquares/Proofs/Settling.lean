import DampedLeastSquares.Proofs.Consistency
import DampedLeastSquares.Proofs.Judgement
import DampedLeastSquares.Proofs.Requests
import DampedLeastSquares.Proofs.Trial

/-!
# When a loss settles

A loss settles on the residuals of the start, and then once on those of every
state that is taken over. In between it stays as it is, so a candidate is judged
by the weights that the parameters in place have their cost from.
-/

set_option autoImplicit false

namespace DampedLeastSquares

variable {σ α : Type}

/-! ## Weights that follow a rule -/

/-- The weights chosen on residuals are a function of these residuals alone. -/
def Loss.Follows (loss : Loss σ α) (rule : Vec α → Vec α) : Prop :=
  match loss.shape with
  | .reweighted choose _ => ∀ residuals weights world, residuals.length = weights.length →
      (rule residuals).length = weights.length ∧
        ∃ after, (choose residuals weights).run world = (.ok (rule residuals), after)
  | _ => False

theorem Loss.Follows.chooses {loss : Loss σ α} {rule : Vec α → Vec α}
    (follows : loss.Follows rule) : loss.Chooses := by
  unfold Follows at follows
  split at follows
  · next choose previous shape =>
      unfold Chooses
      rw [shape]
      intro residuals weights world size
      obtain ⟨length, after, ran⟩ := follows residuals weights world size
      exact ⟨_, after, ran, length⟩
  · exact follows.elim

/-- Weights that are chosen for each residual on its own follow a rule. -/
theorem Loss.follows_pointwise [Scalar α] (weight : α → α) :
    (Loss.reweighted fun residuals weights =>
      Call.fit (Vec.fill? weights.length (residuals.map weight)) : Loss σ α).Follows
        fun residuals => residuals.map weight := by
  intro residuals weights world size
  have length : (residuals.map weight).length = weights.length := by rw [List.length_map, size]
  have filled := Vec.fill?_self (residuals.map weight)
  rw [length] at filled
  refine ⟨length, world, ?_⟩
  dsimp only
  rw [filled]
  rfl

theorem Loss.prepare_reweighted [Scalar α] {loss prepared : Loss σ α} {functions : Nat}
    {choose : Vec α → Vec α → Call σ α (Vec α)} {weights : Vec α}
    (shape : loss.shape = .reweighted choose weights)
    (ready : loss.prepare functions = .ok prepared) :
    prepared.shape = .reweighted choose (Vec.ones functions) := by
  unfold prepare at ready
  rw [shape] at ready
  dsimp only at ready
  split at ready
  · cases ready
  · cases ready
    rfl

theorem Loss.Follows.prepared [Scalar α] {loss prepared : Loss σ α} {rule : Vec α → Vec α}
    {functions : Nat} (follows : loss.Follows rule)
    (ready : loss.prepare functions = .ok prepared) : prepared.Follows rule := by
  unfold Follows at follows
  split at follows
  · next choose weights shape =>
      unfold Follows
      rw [prepare_reweighted shape ready]
      exact follows
  · exact follows.elim

theorem Loss.Follows.settled [Scalar α] {loss settled : Loss σ α} {rule : Vec α → Vec α}
    {residuals : Vec α} {changed : Bool} {before after : σ} (follows : loss.Follows rule)
    (weighs : loss.Weighs residuals.length)
    (ran : (loss.settle residuals).run before = (.ok (settled, changed), after)) :
    settled.Follows rule ∧ settled.weights? = some (rule residuals) := by
  obtain ⟨_, static, _⟩ | ⟨_, choose, weights, chosen, shape, asked, rfl⟩ := Loss.settle_cases ran
  · unfold Follows at follows
    unfold IsStatic at static
    split at follows
    · next shape =>
        rw [shape] at static
        exact static.elim
    · exact follows.elim
  · simp only [Follows, Weighs, shape] at follows weighs
    obtain ⟨_, _, ran⟩ := follows residuals weights before weighs.symm
    cases asked.symm.trans ran
    exact ⟨follows, rfl⟩

theorem Loss.Readied.weighted [Scalar α] {loss ready : Loss σ α} {residuals : Vec α}
    {rule : Vec α → Vec α} (readied : loss.Readied residuals ready) (follows : loss.Follows rule) :
    ready.Follows rule ∧ ready.weights? = some (rule residuals) := by
  obtain ⟨prepared, before, changed, after, prepares, settles⟩ := readied
  have weighs := ((Loss.prepare_keeps prepares).2 follows.chooses).2
  exact (follows.prepared prepares).settled weighs settles

/-- Choosing weights writes down the residuals that they are chosen on. -/
def Loss.Records (loss : Loss σ α) (log : σ → List (Vec α)) : Prop :=
  match loss.shape with
  | .reweighted choose _ => ∀ residuals weights world,
      log ((choose residuals weights).run world).2 = log world ++ [residuals]
  | _ => False

theorem Loss.Records.prepared [Scalar α] {loss prepared : Loss σ α} {log : σ → List (Vec α)}
    {functions : Nat} (records : loss.Records log)
    (ready : loss.prepare functions = .ok prepared) : prepared.Records log := by
  unfold Records at records
  split at records
  · next choose weights shape =>
      unfold Records
      rw [prepare_reweighted shape ready]
      exact records
  · exact records.elim

namespace Solver

/-! ## What the requests leave behind -/

section Requests

variable [Scalar α] {problem : Problem σ α} {before after : Solver σ α}
  {settlings : List (Vec α)}

/-- What every request preserves, on the way from one search to another. -/
theorem Asked.establishes (asked : Asked problem settlings before after)
    (holds : Loss σ α × σ → List (Vec α) → Prop) (initial : holds (before.loss, before.world) [])
    (serves : ∀ current settled request, holds current settled →
      holds (Request.serve problem current request) (settled ++ request.settling?.toList)) :
    holds (after.loss, after.world) settlings := by
  obtain ⟨requests, served, rfl⟩ := asked
  have served_all (requests : List (Request α)) : ∀ current settled, holds current settled →
      holds (requests.foldl (Request.serve problem) current)
        (settled ++ requests.filterMap Request.settling?) := by
    induction requests with
    | nil => simp
    | cons request rest previous =>
        intro current settled before
        have after := previous _ _ (serves current settled request before)
        rw [List.append_assoc] at after
        cases request <;> exact after
  rw [← served]
  exact served_all requests _ [] initial

/-- A loss that counts how often it settled was asked to settle that often. -/
theorem Asked.counted {times : Nat} (asked : Asked problem settlings before after)
    (shape : before.loss.shape = .counted times) :
    after.loss.shape = .counted (times + settlings.length) := by
  refine asked.establishes
    (fun current settled => current.1.shape = .counted (times + settled.length)) shape
    fun current settled request same => ?_
  cases request with
  | residuals x => simpa [Request.serve, Request.settling?] using same
  | jacobian x => simpa [Request.serve, Request.settling?] using same
  | settling values =>
      simp only [Request.serve, Request.settling?, Loss.settle, same, Option.toList_some,
        List.length_append, List.length_singleton]
      rfl

/-- The log of the residuals that the loss settled on, if the functions of the problem write
nothing into it. -/
theorem Asked.recorded {log : σ → List (Vec α)} (asked : Asked problem settlings before after)
    (records : before.loss.Records log)
    (spares : ∀ x world, log ((problem.residuals x).run world).2 = log world ∧
      log ((problem.jacobian x).run world).2 = log world) :
    log after.world = log before.world ++ settlings := by
  refine (asked.establishes (fun current settled =>
    current.1.Records log ∧ log current.2 = log before.world ++ settled)
    ⟨records, (List.append_nil _).symm⟩ fun current settled request ⟨records, logged⟩ => ?_).2
  cases request with
  | residuals x =>
      exact ⟨records, ((spares x _).1.trans logged).trans (by simp [Request.settling?])⟩
  | jacobian x =>
      exact ⟨records, ((spares x _).2.trans logged).trans (by simp [Request.settling?])⟩
  | settling values =>
      obtain ⟨⟨shape, functions⟩, world⟩ := current
      cases shape with
      | reweighted choose weights =>
          have written : log ((choose values weights).run world).2 =
              log before.world ++ (settled ++ [values]) := by
            rw [records values weights world, logged, List.append_assoc]
          rcases ran : (choose values weights).run world with ⟨fault | chosen, left⟩
          · have ended : ((⟨.reweighted choose weights, functions⟩ : Loss σ α).settle values).run
                world = (.error fault, left) := Call.run_bind_error ran
            rw [ran] at written
            simp only [Request.serve, ended]
            exact ⟨records, written⟩
          · have ended : ((⟨.reweighted choose weights, functions⟩ : Loss σ α).settle values).run
                world = (.ok (⟨.reweighted choose chosen, functions⟩, true), left) :=
              Call.run_bind_ok ran
            rw [ran] at written
            simp only [Request.serve, ended]
            exact ⟨records, written⟩
      | _ => exact records.elim

end Requests

/-! ## At the start -/

section Start

variable [Scalar α] {problem : Problem σ α}

theorem Opens.asked {idle after : Solver σ α} {point : Vec α}
    (opens : idle.Opens point after.residuals after.loss after.world)
    (given : idle.problem? = some problem) :
    ∃ prepared, idle.loss.prepare after.residuals.length = .ok prepared ∧
      Asked problem [after.residuals] { idle with loss := prepared } after := by
  obtain ⟨found, answer, asked, prepared, changed, foundAs, ran, flat, ready, settles⟩ := opens
  cases foundAs.symm.trans given
  have evaluated : Asked problem [] { idle with loss := prepared }
      { idle with loss := prepared, world := asked } :=
    asked_residuals point rfl (congrArg Prod.snd ran).symm
  exact ⟨prepared, ready, evaluated.trans (asked_settling settles)⟩

theorem start_asked {idle started : Solver σ α} {point : Vec α} {cost? gradient? : Option α}
    (success : (start point cost? gradient?).run idle = (.ok (), started))
    (given : idle.problem? = some problem) :
    ∃ prepared, idle.loss.prepare started.residuals.length = .ok prepared ∧
      Asked problem [started.residuals] { idle with loss := prepared } started := by
  obtain ⟨_, _, _, _, _, rfl, _, opens, _⟩ :=
    (start_ends idle point cost? gradient?).of_run_ok success
  exact opens.asked given

end Start

/-! ## Comparing costs -/

section Comparing

variable [Scalar α]

/-- A candidate is taken over only if its cost is lower than the one in place. If it is lower, the
candidate is taken over or the search has converged. -/
theorem consider_compares {solver evaluated : Solver σ α} {predicted cost : α}
    (ran : evaluateCandidate.run solver = (.ok cost, evaluated))
    (dropped : evaluated.updated = false) :
    Ensures (consider predicted) solver
      (fun converged after => (after.updated = true → cost < evaluated.cost) ∧
        (converged = false → cost < evaluated.cost → after.updated = true))
      fun _ _ => True := by
  refine (consider_returns ran).mono ?_ fun _ _ _ => trivial
  rintro converged after ⟨_, verdict⟩
  cases verdict with
  | stalled _ judged verdict =>
      obtain ⟨_, _, _, rfl⟩ := judged
      refine ⟨fun updated => ?_, fun remains => ?_⟩
      · cases dropped.symm.trans updated
      · cases verdict.symm.trans remains
  | rejected _ higher judged =>
      obtain ⟨_, _, _, rfl⟩ := judged
      refine ⟨fun updated => ?_, fun _ lower => (higher lower).elim⟩
      cases dropped.symm.trans updated
  | accepted _ lower taken =>
      obtain ⟨_, _, _, _, _, _, _, _, _, rfl⟩ := taken
      exact ⟨fun _ => lower, fun _ _ => rfl⟩

end Comparing

/-! ## A run -/

section Runs

variable [Scalar α] {problem : Problem σ α} {parameters functions : Nat}

/-- What every call preserves: the loss can settle, the residuals in place are those of the
parameters, and the cost in place is what the loss makes of them. -/
structure Grounded (solver : Solver σ α) (problem : Problem σ α) (parameters functions : Nat) :
    Prop where
  problem : solver.problem? = some problem
  sized : solver.Sized parameters functions
  chooses : solver.loss.Chooses
  weighs : solver.loss.Weighs functions
  measured : solver.Measured solver.x solver.residuals
  costed : solver.loss.cost solver.residuals = .ok solver.cost

theorem Grounded.of_kept {before after : Solver σ α}
    (grounded : before.Grounded problem parameters functions)
    (sized : after.Sized parameters functions) (kept : Kept before after) :
    after.Grounded problem parameters functions := by
  obtain ⟨place, _, loss, same⟩ := kept
  obtain ⟨x, cost, residuals⟩ := place_eq_iff.mp place
  refine ⟨same.trans grounded.problem, sized, loss ▸ grounded.chooses, loss ▸ grounded.weighs,
    ?_, ?_⟩
  · rw [x, residuals]
    exact grounded.measured.of_problem same
  · rw [loss, residuals, cost]
    exact grounded.costed

theorem Grounded.of_replaced {before after : Solver σ α}
    (grounded : before.Grounded problem parameters functions)
    (sized : after.Sized parameters functions) (replaced : Replaced before after) :
    after.Grounded problem parameters functions := by
  obtain ⟨_, advanced, _⟩ := replaced.advanced
  obtain ⟨chooses, weighs, costed⟩ :=
    replaced.costed grounded.chooses (sized.residuals.symm ▸ grounded.weighs)
  exact ⟨advanced.problem.trans grounded.problem, sized, chooses, sized.residuals ▸ weighs,
    advanced.measured.of_problem advanced.problem, costed⟩

theorem Started.grounded {idle started : Solver σ α} {point : Vec α}
    (ready : Started idle started point) (given : idle.problem? = some problem)
    (chooses : idle.loss.Chooses)
    (costed : started.loss.cost started.residuals = .ok started.cost) :
    started.Grounded problem point.length started.residuals.length := by
  obtain ⟨chooses, weighs⟩ := ready.chooses chooses
  obtain ⟨found, before, after, answer, foundAs, ran, flat⟩ := ready.answered
  refine ⟨ready.problem.trans given, ready.sized, chooses, weighs, ?_, costed⟩
  rw [ready.x]
  exact ⟨found, before, after, answer, foundAs, ran, by rw [flat, Vec.fill?_self]⟩

variable [Spectral α] [IsStrictOrder α (· < ·)]

/-- Weights can always be chosen, so a call keeps the state of the search or replaces it. -/
theorem Grounded.next_cases {before : Solver σ α}
    (grounded : before.Grounded problem parameters functions) :
    Kept before before.next ∨ Replaced before before.next := by
  have sized : before.next.Sized parameters functions := next_sized grounded.sized
  rcases before.next_outcome with kept | replaced | ⟨fault, torn⟩
  · exact .inl kept
  · exact .inr replaced
  · have weighs : before.loss.Weighs before.next.residuals.length :=
      sized.residuals.symm ▸ grounded.weighs
    exact (torn.not_chooses weighs grounded.chooses).elim

theorem Grounded.next {before : Solver σ α}
    (grounded : before.Grounded problem parameters functions) :
    before.next.Grounded problem parameters functions := by
  have sized : before.next.Sized parameters functions := next_sized grounded.sized
  rcases grounded.next_cases with kept | replaced
  · exact grounded.of_kept sized kept
  · exact grounded.of_replaced sized replaced

theorem Grounded.afterCalls {started : Solver σ α}
    (grounded : started.Grounded problem parameters functions) (calls : Nat) :
    (started.afterCalls calls).Grounded problem parameters functions := by
  induction calls with
  | zero => exact grounded
  | succ calls previous => exact previous.next

/-- A call that replaces the parameters replaces their residuals, whose cost was lower. -/
theorem Grounded.updated_iff {before : Solver σ α}
    (grounded : before.Grounded problem parameters functions) :
    before.next.updated = true ↔ before.next.place ≠ before.place := by
  rcases grounded.next_cases with kept | replaced
  · simp [kept.updated, kept.place]
  · refine ⟨fun _ same => ?_, fun _ => replaced.updated⟩
    obtain ⟨cost, advanced, _⟩ := replaced.advanced
    have residuals := (place_eq_iff.mp same).2.2
    have costed := advanced.costed
    rw [residuals, grounded.costed] at costed
    cases costed
    exact irrefl _ advanced.lower

theorem Grounded.next_asked {before : Solver σ α}
    (grounded : before.Grounded problem parameters functions) :
    Asked problem before.next.lastSettled before before.next :=
  Solver.next_asked grounded.problem grounded.chooses
    (grounded.sized.candidateResiduals.symm ▸ grounded.weighs)

/-- The residuals of the states that the first calls took over, in order. -/
def replacedResiduals (started : Solver σ α) : Nat → List (Vec α)
  | 0 => []
  | calls + 1 => started.replacedResiduals calls ++ (started.afterCalls (calls + 1)).lastSettled

omit [IsStrictOrder α (· < ·)] in
theorem length_replacedResiduals (started : Solver σ α) (calls : Nat) :
    (started.replacedResiduals calls).length = started.replacements calls := by
  induction calls with
  | zero => rfl
  | succ calls previous =>
      have last (solver : Solver σ α) :
          solver.lastSettled.length = if solver.updated = true then 1 else 0 := by
        unfold lastSettled
        split <;> rfl
      rw [replacedResiduals, List.length_append, previous, last]
      exact (Nat.count_succ _ calls).symm

theorem Grounded.asked {started : Solver σ α}
    (grounded : started.Grounded problem parameters functions) (calls : Nat) :
    Asked problem (started.replacedResiduals calls) started (started.afterCalls calls) := by
  induction calls with
  | zero => exact asked_nothing rfl rfl
  | succ calls previous => exact previous.trans (grounded.afterCalls calls).next_asked

theorem Grounded.weighted {before : Solver σ α} {rule : Vec α → Vec α}
    (grounded : before.Grounded problem parameters functions) (follows : before.loss.Follows rule)
    (weighted : before.loss.weights? = some (rule before.residuals)) :
    before.next.loss.Follows rule ∧
      before.next.loss.weights? = some (rule before.next.residuals) := by
  rcases grounded.next_cases with kept | replaced
  · have residuals := (place_eq_iff.mp kept.place).2.2
    rw [kept.loss, residuals]
    exact ⟨follows, weighted⟩
  · obtain ⟨_, _, _, _, _, settles, _⟩ := replaced.advanced
    refine follows.settled ?_ settles
    rw [grounded.next.sized.residuals]
    exact grounded.weighs

theorem Grounded.weighted_afterCalls {started : Solver σ α} {rule : Vec α → Vec α}
    (grounded : started.Grounded problem parameters functions)
    (weighted : started.loss.Follows rule ∧ started.loss.weights? = some (rule started.residuals))
    (calls : Nat) : (started.afterCalls calls).loss.Follows rule ∧
      (started.afterCalls calls).loss.weights? =
        some (rule (started.afterCalls calls).residuals) := by
  induction calls with
  | zero => exact weighted
  | succ calls previous => exact (grounded.afterCalls calls).weighted previous.1 previous.2

/-- The part of one call: it asks the loss to settle at most once, on the residuals of parameters
that it takes over, and it takes parameters over only if it looks for a step and returns. A
candidate is judged by what the loss makes of its residuals and of those in place. -/
structure SettlesOnce (problem : Problem σ α) (before : Solver σ α) : Prop where
  asked : Asked problem before.next.lastSettled before before.next
  updated_iff : before.next.updated = true ↔ before.next.place ≠ before.place
  returned : before.next.updated = true →
    before.phase = .search ∧ ∃ converged, before.answer = .ok converged
  measured : before.Measured before.x before.residuals
  costed : before.loss.cost before.residuals = .ok before.cost
  compared : ∀ residuals cost, before.Evaluates residuals →
    before.loss.cost residuals = .ok cost → (before.next.updated = true → cost < before.cost) ∧
      (before.answer = .ok false → cost < before.cost → before.next.updated = true)

omit [IsStrictOrder α (· < ·)] in
theorem Evaluates.compared {before : Solver σ α} {residuals : Vec α} {cost : α}
    (evaluates : before.Evaluates residuals) (costed : before.loss.cost residuals = .ok cost) :
    Ensures iterate before
      (fun converged after => (after.updated = true → cost < before.cost) ∧
        (converged = false → cost < before.cost → after.updated = true))
      fun _ _ => True := by
  obtain ⟨phase, predicted, middle, candidate, answer, world, proposes, further, answers, filled⟩ :=
    evaluates
  have same : middle.loss = before.loss ∧ middle.cost = before.cost ∧ middle.updated = false := by
    obtain ⟨_, _, _, _, rfl⟩ := (propose_proposed _).of_run_ok proposes
    exact ⟨rfl, rfl, rfl⟩
  obtain ⟨loss, previous, dropped⟩ := same
  have evaluated : evaluateCandidate.run middle = (.ok cost, { middle with
      candidate := candidate, world := world, candidateResiduals := residuals }) := by
    rw [evaluateCandidate_run further answers filled, loss, costed]
  refine Ensures.of_run_eq ?_ (iterate_run_search phase)
  rw [ensures_bind]
  refine Ensures.of_run_eq ?_ (tryStep_run proposes)
  refine (consider_compares evaluated dropped).mono ?_ fun _ _ _ => trivial
  intro converged after compared
  dsimp only at compared
  rw [previous] at compared
  exact ensures_of_ok (conclude_run converged) compared

theorem Grounded.settlesOnce {before : Solver σ α}
    (grounded : before.Grounded problem parameters functions) : SettlesOnce problem before := by
  refine ⟨grounded.next_asked, grounded.updated_iff, fun updated => ?_, grounded.measured,
    grounded.costed, fun residuals cost evaluates costed => ?_⟩
  · obtain ⟨found, converged, returned, _⟩ := next_of_updated updated
    exact ⟨found, converged, returned⟩
  · have ended := evaluates.compared costed
    cases returned : before.answer with
    | ok converged =>
        obtain ⟨lower, taken⟩ := ended.of_run_ok (Prod.ext returned rfl)
        exact ⟨lower, fun same => taken (Except.ok.inj same)⟩
    | error fault =>
        refine ⟨fun updated => ?_, nofun⟩
        obtain ⟨_, ⟨kept, _⟩ | torn⟩ := next_of_error returned
        · cases kept.updated.symm.trans updated
        · cases torn.updated.symm.trans updated

/-- A search asks its loss to settle when it starts, and then once for every state that it takes
over, each time on the residuals found at the new parameters. Weights that are a function of
residuals are therefore always those of the residuals in place. -/
theorem run_settles_once (idle started : Solver σ α) (point : Vec α) (cost? gradient? : Option α)
    (success : (start point cost? gradient?).run idle = (.ok (), started))
    (given : idle.problem? = some problem) (chooses : idle.loss.Chooses) (calls : Nat) :
    (∃ prepared, idle.loss.prepare started.residuals.length = .ok prepared ∧
        Asked problem (started.residuals :: started.replacedResiduals calls)
          { idle with loss := prepared } (started.afterCalls calls)) ∧
      (started.replacedResiduals calls).length = started.replacements calls ∧
      SettlesOnce problem (started.afterCalls calls) ∧
      (∀ times, idle.loss.shape = .counted times → (started.afterCalls calls).loss.shape =
        .counted (times + (1 + started.replacements calls))) ∧
      (∀ log : σ → List (Vec α), idle.loss.Records log →
        (∀ x world, log ((problem.residuals x).run world).2 = log world ∧
          log ((problem.jacobian x).run world).2 = log world) →
        log (started.afterCalls calls).world =
          log idle.world ++ started.residuals :: started.replacedResiduals calls) ∧
      ∀ rule, idle.loss.Follows rule → (started.afterCalls calls).loss.weights? =
        some (rule (started.afterCalls calls).residuals) := by
  obtain ⟨started_as, readied, costed, _⟩ :=
    (start_leaves idle point cost? gradient?).of_run_ok success
  have grounded := started_as.grounded given chooses costed
  obtain ⟨prepared, ready, first⟩ := start_asked success given
  have asked := first.trans (grounded.asked calls)
  refine ⟨⟨prepared, ready, asked⟩, length_replacedResiduals started calls,
    (grounded.afterCalls calls).settlesOnce, fun times shape => ?_,
    fun log records spares => asked.recorded (records.prepared ready) spares,
    fun rule follows => ?_⟩
  · have counts : prepared.shape = .counted times := by
      unfold Loss.prepare at ready
      rw [shape] at ready
      cases ready
      rfl
    rw [asked.counted counts, List.length_append, length_replacedResiduals]
    rfl
  · exact (grounded.weighted_afterCalls (readied.weighted follows) calls).2

end Runs

/-- Two calls after a start at four: the second takes its step, and the weights are chosen on the
residual that it found. -/
theorem run_settles_once_from_four :
    ((start [4.0] none none).run reweightedIdentity).1.isOk = true ∧
      (∃ problem, reweightedIdentity.problem? = some problem ∧
        SettlesOnce problem (((start [4.0] none none).run reweightedIdentity).2.afterCalls 2)) ∧
      ((start [4.0] none none).run reweightedIdentity).2.replacements 2 = 1 ∧
      (((start [4.0] none none).run reweightedIdentity).2.afterCalls 2).loss.weights? =
        some ((((start [4.0] none none).run reweightedIdentity).2.afterCalls 2).residuals.map
          fun residual => 1.0 / Scalar.larger (Scalar.abs residual) 1.0) := by
  have success : ((start [4.0] none none).run reweightedIdentity).1.isOk = true := by
    decide +kernel
  have settled := run_settles_once reweightedIdentity _ [4.0] none none (run_of_isOk success) rfl
    (WeightRule.chooses _) 2
  obtain ⟨_, _, once, _, _, weighted⟩ := settled
  exact ⟨success, ⟨_, rfl, once⟩, by decide +kernel, weighted _ (Loss.follows_pointwise _)⟩

end Solver

end DampedLeastSquares
