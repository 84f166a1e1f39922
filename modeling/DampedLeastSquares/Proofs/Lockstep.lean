import DampedLeastSquares.Proofs.Alongside
import DampedLeastSquares.Proofs.Start

/-!
# Runs in lock step

Two searches whose parameters correspond, in a way that taking a step respects,
and whose residuals, costs and dampings are the same. What a call makes of a
candidate, and what a start makes of a point, depends on nothing else, so it is
the same in both. How their derivatives correspond is left open.
-/

set_option autoImplicit false

namespace DampedLeastSquares

variable {σ α : Type}

namespace Loss

/-- The loss without what it remembers of earlier searches. -/
def fresh (loss : Loss σ α) : Loss σ α :=
  match loss.shape with
  | .reweighted choose _ => ⟨.reweighted choose [], 0⟩
  | .counted _ => ⟨.counted 0, 0⟩
  | shape => ⟨shape, 0⟩

/-- Equal, but for a count of how often they settled. -/
def Like (first second : Loss σ α) : Prop :=
  first = second ∨ ∃ times times' functions,
    first = ⟨.counted times, functions⟩ ∧ second = ⟨.counted times', functions⟩

/-- Weights that are chosen are the same in worlds that correspond. -/
def Respects (loss : Loss σ α) (world : σ → σ → Prop) : Prop :=
  match loss.shape with
  | .reweighted choose _ => ∀ residuals weights,
      (choose residuals weights).Paired world (choose residuals weights)
  | _ => True

variable [Scalar α] {first second loss : Loss σ α} {world : σ → σ → Prop}

theorem Like.cost_eq (like : first.Like second) : first.cost = second.cost := by
  obtain rfl | ⟨_, _, _, rfl, rfl⟩ := like
  · rfl
  · rfl

theorem Like.gradientInto_eq (like : first.Like second) :
    first.gradientInto = second.gradientInto := by
  obtain rfl | ⟨_, _, _, rfl, rfl⟩ := like
  · rfl
  · rfl

omit [Scalar α] in
theorem Like.transformsGradient_eq (like : first.Like second) :
    first.transformsGradient = second.transformsGradient := by
  obtain rfl | ⟨_, _, _, rfl, rfl⟩ := like
  · rfl
  · rfl

theorem prepare_respects {ready : Loss σ α} {functions : Int}
    (prepares : loss.prepare functions = .ok ready) (respects : loss.Respects world) :
    ready.Respects world := by
  unfold prepare at prepares
  split at prepares
  · split at prepares <;> cases prepares
    trivial
  · next choose weights shape =>
      split at prepares <;> cases prepares
      simpa only [Respects, shape] using respects
  · cases prepares
    exact respects

/-- Preparing a loss forgets what it remembers of earlier searches, but for a count. -/
theorem prepare_alike (same : first.fresh = second.fresh) (respects : first.Respects world)
    (functions : Int) :
    (∃ ready ready', first.prepare functions = .ok ready ∧
      second.prepare functions = .ok ready' ∧ ready.Like ready' ∧ ready.Respects world) ∨
      ∃ fault, first.prepare functions = .error fault ∧
        second.prepare functions = .error fault := by
  have kept : first.prepare functions = second.prepare functions ∨ ∃ times times',
      first.shape = .counted times ∧ second.shape = .counted times' := by
    obtain ⟨shape, _⟩ := first
    obtain ⟨shape', _⟩ := second
    cases shape <;> cases shape' <;> cases same
    case counted => exact .inr ⟨_, _, rfl, rfl⟩
    all_goals exact .inl rfl
  obtain kept | ⟨times, times', shape, shape'⟩ := kept
  · cases prepares : first.prepare functions with
    | error fault => exact .inr ⟨fault, rfl, kept.symm.trans prepares⟩
    | ok ready =>
        exact .inl ⟨ready, ready, rfl, kept.symm.trans prepares, .inl rfl,
          prepare_respects prepares respects⟩
  · refine .inl ⟨⟨.counted times, functions⟩, ⟨.counted times', functions⟩, ?_, ?_,
      .inr ⟨_, _, _, rfl, rfl⟩, trivial⟩
    · rw [prepare, shape]
    · rw [prepare, shape']

omit [Scalar α] in
theorem settle_paired (respects : loss.Respects world) (residuals : Vec α) :
    (loss.settle residuals).Paired world (loss.settle residuals) := by
  obtain ⟨shape, functions⟩ := loss
  cases shape with
  | reweighted choose weights =>
      exact (respects residuals weights).bind fun _ => Call.paired_pure _
  | _ => exact Call.paired_pure _

theorem settle_respects {settled : Loss σ α} {residuals : Vec α} {changed : Bool}
    {before after : σ} (respects : loss.Respects world)
    (ran : (loss.settle residuals).run before = (.ok (settled, changed), after)) :
    settled.Respects world := by
  obtain ⟨_, _, rfl | ⟨_, _, rfl⟩⟩ | ⟨_, choose, weights, chosen, shape, _, rfl⟩ :=
    settle_cases ran
  · exact respects
  · trivial
  · simpa only [Respects, shape] using respects

end Loss

/-- How two runs correspond: their worlds, their parameters, and their residual functions, which
answer the same at parameters that correspond. Taking a step respects that. -/
structure Pairing (σ α : Type) [Scalar α] where
  world : σ → σ → Prop
  point : Vec α → Vec α → Prop
  problem : Problem σ α
  problem' : Problem σ α
  residuals : ∀ {x y : Vec α}, point x y →
    (problem.residuals x).Paired world (problem'.residuals y)
  length : ∀ {x y : Vec α}, point x y → x.length = y.length
  zeros : ∀ {x y : Vec α}, point x y → point (Vec.zeros x.length) (Vec.zeros y.length)
  further : ∀ {x y step step' : Vec α}, point x y → point step step' →
    Option.Rel point (Vec.combine? (· + ·) x step) (Vec.combine? (· + ·) y step')

/-- What a search knows of its problem near its parameters. -/
@[ext]
structure Derivatives (α : Type) where
  normal : NormalMatrix α
  gradient : Vec α
  scaling : Vec α
  plainDiagonal : Vec α
  dampedDiagonal : Vec α

/-- The derivatives of a search that was just started, before any were computed. -/
def Derivatives.unknown [Scalar α] (normal : NormalMatrix α) (parameters : Nat) :
    Derivatives α where
  normal := normal.reset parameters
  gradient := Vec.zeros parameters
  scaling := Vec.ones parameters
  plainDiagonal := Vec.zeros parameters
  dampedDiagonal := Vec.zeros parameters

namespace Solver

def derivatives (solver : Solver σ α) : Derivatives α :=
  ⟨solver.normal, solver.gradient, solver.scaling, solver.plainDiagonal, solver.dampedDiagonal⟩

variable [Scalar α]

/-- The searches minimise functions that correspond. -/
structure Facing (pairing : Pairing σ α) (first second : Solver σ α) : Prop where
  form : first.form = second.form
  defined : first.form ≠ .undefined
  settings : first.settings = second.settings
  problem : first.problem? = some pairing.problem
  problem' : second.problem? = some pairing.problem'
  world : pairing.world first.world second.world

/-- The searches are in lock step, with derivatives that are related by `relation`. -/
structure Lockstep (pairing : Pairing σ α) (relation : Derivatives α → Derivatives α → Prop)
    (first second : Solver σ α) : Prop extends Facing pairing first second where
  loss : first.loss.Like second.loss
  respects : first.loss.Respects pairing.world
  x : pairing.point first.x second.x
  candidate : pairing.point first.candidate second.candidate
  step : pairing.point first.step second.step
  residuals : first.residuals = second.residuals
  candidateResiduals : first.candidateResiduals = second.candidateResiduals
  lossGradient : first.lossGradient = second.lossGradient
  cost : first.cost = second.cost
  damping : first.damping = second.damping
  growth : first.growth = second.growth
  phase : first.phase = second.phase
  updated : first.updated = second.updated
  fullSteps : first.fullSteps = second.fullSteps
  retries : first.retries = second.retries
  derivatives : relation first.derivatives second.derivatives

variable {pairing : Pairing σ α} {relation : Derivatives α → Derivatives α → Prop}
  {first second : Solver σ α}

theorem Lockstep.mono {relation' : Derivatives α → Derivatives α → Prop}
    (same : Lockstep pairing relation first second)
    (weaken : relation first.derivatives second.derivatives →
      relation' first.derivatives second.derivatives) :
    Lockstep pairing relation' first second :=
  { same with derivatives := weaken same.derivatives }

/-! ## Calls of the caller's functions -/

theorem residualsAt_alongside {done failed : Solver σ α → Solver σ α → Prop}
    (facing : Facing pairing first second) {x y : Vec α} (points : pairing.point x y)
    (ends : ∀ world world', pairing.world world world' →
      done { first with world := world } { second with world := world' })
    (breaks : ∀ world world', pairing.world world world' →
      failed { first with world := world } { second with world := world' }) :
    Alongside first second (residualsAt x) (residualsAt y) done failed := by
  have asked : Solver.problem.run first = (.ok pairing.problem, first) :=
    problem_run facing.defined facing.problem
  have asked' : Solver.problem.run second = (.ok pairing.problem', second) :=
    problem_run (facing.form ▸ facing.defined) facing.problem'
  unfold residualsAt
  refine Alongside.of_run_eq ?_ (run_bind_ok asked) (run_bind_ok asked')
  refine alongside_evaluate_bind (pairing.residuals points) facing.world ?_ breaks
  exact fun _ world world' _ worlds => alongside_pure (ends world world' worlds)

theorem costOf_alongside {done failed : Solver σ α → Solver σ α → Prop}
    (like : first.loss.Like second.loss) (residuals : Vec α) (ends : done first second)
    (breaks : failed first second) :
    Alongside first second (costOf residuals) (costOf residuals) done failed :=
  alongside_get_bind (alongside_attempt (congrFun like.cost_eq residuals) ends breaks)

/-- The loss settles the same in both searches. -/
theorem settle_alongside {done failed : Solver σ α → Solver σ α → Prop}
    {world : σ → σ → Prop} (worlds : world first.world second.world)
    (like : first.loss.Like second.loss) (respects : first.loss.Respects world)
    (residuals : Vec α)
    (ends : ∀ loss loss' after after', loss.Like loss' → loss.Respects world →
      world after after' →
      done { first with loss := loss, world := after }
        { second with loss := loss', world := after' })
    (breaks : ∀ after after', world after after' →
      failed { first with world := after } { second with world := after' }) :
    Alongside first second (settle residuals) (settle residuals) done failed := by
  unfold settle
  refine alongside_get_bind ?_
  obtain same | ⟨times, times', functions, counted, counted'⟩ := like
  · rw [← same]
    refine alongside_evaluate_bind (Loss.settle_paired respects residuals) worlds ?_ breaks
    intro (loss, changed) after after' settles worlds
    refine alongside_modify_bind (alongside_pure ?_)
    exact ends loss loss after after' (.inl rfl) (Loss.settle_respects respects settles) worlds
  · rw [counted, counted']
    exact .ok rfl rfl (ends _ _ _ _ (.inr ⟨_, _, _, rfl, rfl⟩) trivial worlds)

/-! ## Candidates -/

theorem report_alongside (same : Lockstep pairing relation first second)
    (events events' : List (Event α)) :
    Alongside first second (report events) (report events') (Lockstep pairing relation)
      (Lockstep pairing relation) := .ok rfl rfl { same with }

/-- The gradient has an entry to print a line about. -/
def Steep (relation : Derivatives α → Derivatives α → Prop) : Prop :=
  ∀ known known', relation known known' → known.gradient ≠ [] ∧ known'.gradient ≠ []

theorem evaluateCandidate_alongside (same : Lockstep pairing relation first second) :
    Alongside first second evaluateCandidate evaluateCandidate (Lockstep pairing relation)
      (Lockstep pairing relation) := by
  have further := pairing.further same.x same.step
  unfold evaluateCandidate
  refine alongside_get_bind ?_
  generalize Vec.combine? (· + ·) first.x first.step = candidate? at further ⊢
  generalize Vec.combine? (· + ·) second.x second.step = candidate'? at further ⊢
  cases further with
  | none => exact alongside_attempt_bind rfl nofun same
  | @some candidate candidate' points =>
      have moved : Lockstep pairing relation { first with candidate := candidate }
          { second with candidate := candidate' } := { same with candidate := points }
      refine Alongside.of_run_eq ?_ (run_attempt_bind_ok rfl) (run_attempt_bind_ok rfl)
      refine alongside_modify_bind (alongside_bind (Lockstep pairing relation)
        (residualsAt_alongside moved.toFacing points
          (fun _ _ worlds => { moved with world := worlds })
          fun _ _ worlds => { moved with world := worlds }) ?_)
      intro residuals after after' same'
      refine alongside_attempt_bind (by rw [same.candidateResiduals]) (fun stored _ => ?_) same'
      have stored : Lockstep pairing relation { after with candidateResiduals := stored }
          { after' with candidateResiduals := stored } :=
        { same' with candidateResiduals := rfl }
      exact alongside_modify_bind (costOf_alongside stored.loss _ stored stored)

theorem lowerDamping_alongside (same : Lockstep pairing relation first second) (ratio : α) :
    Alongside first second (lowerDamping ratio) (lowerDamping ratio)
      (Lockstep pairing relation) (Lockstep pairing relation) := by
  refine alongside_attempt_bind rfl (fun factor _ => alongside_modify ?_) same
  exact { same with damping := by rw [same.damping], growth := rfl }

theorem raiseDamping_alongside (same : Lockstep pairing relation first second) :
    Alongside first second raiseDamping raiseDamping (Lockstep pairing relation)
      (Lockstep pairing relation) :=
  alongside_modify { same with
    damping := by rw [same.damping, same.growth], growth := by rw [same.growth] }

theorem reportProgress_alongside (steep : Steep relation)
    (same : Lockstep pairing relation first second) (candidateCost ratio : α) :
    Alongside first second (reportProgress candidateCost ratio)
      (reportProgress candidateCost ratio) (Lockstep pairing relation)
      (Lockstep pairing relation) := by
  obtain ⟨gradient, gradient'⟩ := steep _ _ same.derivatives
  obtain ⟨_, ran⟩ := reportProgress_run gradient candidateCost ratio
  obtain ⟨_, ran'⟩ := reportProgress_run gradient' candidateCost ratio
  exact .ok ran ran' { same with }

theorem accept_alongside (same : Lockstep pairing relation first second) (candidateCost : α) :
    Alongside first second (accept candidateCost) (accept candidateCost)
      (Lockstep pairing relation) (Lockstep pairing relation) := by
  have last {after after' : Solver σ α} (same : Lockstep pairing relation after after') :
      Alongside after after'
        (modify fun solver : Solver σ α => { solver with phase := .differentiate, updated := true })
        (modify fun solver : Solver σ α => { solver with phase := .differentiate, updated := true })
        (Lockstep pairing relation) (Lockstep pairing relation) :=
    alongside_modify { same with phase := rfl, updated := rfl }
  have exchanged : Lockstep pairing relation
      { first with
        x := first.candidate, candidate := first.x, residuals := first.candidateResiduals
        candidateResiduals := first.residuals, cost := candidateCost }
      { second with
        x := second.candidate, candidate := second.x, residuals := second.candidateResiduals
        candidateResiduals := second.residuals, cost := candidateCost } :=
    { same with
      x := same.candidate, candidate := same.x, residuals := same.candidateResiduals
      candidateResiduals := same.residuals, cost := rfl }
  unfold accept
  refine alongside_bind (Lockstep pairing relation) (alongside_modify exchanged)
    fun _ after after' same => alongside_get_bind ?_
  rw [same.residuals]
  refine alongside_bind (Lockstep pairing relation) (settle_alongside same.world same.loss
    same.respects _ (fun _ _ _ _ like respects worlds =>
      { same with loss := like, respects := respects, world := worlds })
    fun _ _ worlds => { same with world := worlds }) fun changed after after' same => ?_
  refine alongside_ite Iff.rfl (fun _ => ?_) fun _ => last same
  refine alongside_get_bind ?_
  rw [same.residuals]
  refine alongside_bind (Lockstep pairing relation) (costOf_alongside same.loss _ same same)
    fun cost after after' same => alongside_modify_bind (last { same with cost := rfl })

theorem exhausted_alongside (same : Lockstep pairing relation first second) :
    first.exhausted = second.exhausted := by
  rw [exhausted, exhausted, same.damping, same.growth]

theorem takeOrDrop_alongside (steep : Steep relation)
    (same : Lockstep pairing relation first second) (candidateCost ratio previous : α)
    (improved : Bool) :
    Alongside first second (takeOrDrop candidateCost ratio previous improved)
      (takeOrDrop candidateCost ratio previous improved) (Lockstep pairing relation)
      (Lockstep pairing relation) := by
  unfold takeOrDrop
  refine alongside_get_bind ?_
  rw [same.damping, same.growth]
  refine alongside_ite Iff.rfl (fun _ => alongside_bind (fun _ _ => False) (alongside_throw same)
    fun _ _ _ impossible => impossible.elim) fun _ => ?_
  refine alongside_bind (Lockstep pairing relation)
    (reportProgress_alongside steep same candidateCost ratio) fun _ after after' same => ?_
  refine alongside_ite Iff.rfl (fun _ => ?_) fun _ => ?_
  · refine alongside_bind (Lockstep pairing relation) (accept_alongside same candidateCost)
      fun _ after after' same => alongside_get_bind ?_
    rw [exhausted_alongside same]
    refine alongside_ite Iff.rfl (fun _ => alongside_pure same) fun _ => alongside_get_bind ?_
    refine alongside_attempt ?_ same same
    rw [costSettles, costSettles, same.settings]
  · refine alongside_get_bind ?_
    rw [exhausted_alongside same]
    exact alongside_pure same

theorem judge_alongside (steep : Steep relation) (same : Lockstep pairing relation first second)
    (candidateCost actual predicted : α) :
    Alongside first second (judge candidateCost actual predicted)
      (judge candidateCost actual predicted) (Lockstep pairing relation)
      (Lockstep pairing relation) := by
  refine alongside_attempt_bind rfl (fun ratio _ => alongside_get_bind ?_) same
  dsimp only
  rw [same.cost]
  refine alongside_ite Iff.rfl (fun _ => ?_) fun _ => ?_
  · refine alongside_bind (Lockstep pairing relation) (lowerDamping_alongside same ratio)
      fun _ after after' same => ?_
    exact takeOrDrop_alongside steep same candidateCost ratio _ _
  · refine alongside_bind (Lockstep pairing relation) (raiseDamping_alongside same)
      fun _ after after' same => ?_
    exact takeOrDrop_alongside steep same candidateCost ratio _ _

theorem consider_alongside (steep : Steep relation)
    (same : Lockstep pairing relation first second) (predicted : α) :
    Alongside first second (consider predicted) (consider predicted)
      (Lockstep pairing relation) (Lockstep pairing relation) := by
  refine alongside_bind (Lockstep pairing relation) (evaluateCandidate_alongside same)
    fun candidateCost after after' same => ?_
  refine alongside_ite Iff.rfl (fun _ => alongside_bind (fun _ _ => False) (alongside_throw same)
    fun _ _ _ impossible => impossible.elim) fun _ => ?_
  refine alongside_get_bind ?_
  dsimp only
  rw [same.cost]
  refine alongside_ite Iff.rfl (fun _ => alongside_get_bind ?_) fun _ => ?_
  · exact alongside_bind (Lockstep pairing relation) (report_alongside same _ _)
      fun _ after after' same => alongside_pure same
  · exact judge_alongside steep same candidateCost _ predicted

theorem recoverFromFailure_alongside (same : Lockstep pairing relation first second) :
    Alongside first second recoverFromFailure recoverFromFailure (Lockstep pairing relation)
      (Lockstep pairing relation) := by
  refine alongside_get_bind ?_
  rw [same.settings, same.damping]
  refine alongside_ite Iff.rfl (fun _ => alongside_throw same) fun _ => ?_
  have raised : Lockstep pairing relation { first with damping := second.damping * 4.0 }
      { second with damping := second.damping * 4.0 } := { same with damping := rfl }
  refine alongside_bind (Lockstep pairing relation) (alongside_modify raised)
    fun _ after after' same => ?_
  refine alongside_bind (Lockstep pairing relation) (report_alongside same _ _)
    fun _ after after' same => alongside_get_bind ?_
  rw [exhausted_alongside same]
  exact alongside_pure same

theorem proceed_alongside (steep : Steep relation)
    (same : Lockstep pairing relation first second) (predicted? : Option α) :
    Alongside first second (proceed predicted?) (proceed predicted?)
      (Lockstep pairing relation) (Lockstep pairing relation) := by
  cases predicted? with
  | none => exact recoverFromFailure_alongside same
  | some predicted => exact consider_alongside steep same predicted

theorem lossResiduals_alongside (same : Lockstep pairing relation first second) :
    Alongside first second lossResiduals lossResiduals (Lockstep pairing relation)
      (Lockstep pairing relation) := by
  refine alongside_get_bind ?_
  rw [same.loss.transformsGradient_eq, same.loss.gradientInto_eq, same.lossGradient, same.residuals]
  refine alongside_ite Iff.rfl (fun _ => ?_) fun _ => alongside_pure same
  exact alongside_attempt_bind rfl (fun slopes _ => alongside_modify_bind
    (alongside_pure { same with lossGradient := rfl })) same

/-! ## Calls -/

/-- What holds between calls. Between trials more is known of the derivatives than before they
were computed. -/
structure Paced (pairing : Pairing σ α) (waiting searching : Derivatives α → Derivatives α → Prop)
    (first second : Solver σ α) : Prop where
  waits : Lockstep pairing waiting first second
  searches : first.phase = .search → Lockstep pairing searching first second

section Paced

variable {waiting searching : Derivatives α → Derivatives α → Prop}

theorem Lockstep.paced (same : Lockstep pairing searching first second)
    (weaken : ∀ known known', searching known known' → waiting known known') :
    Paced pairing waiting searching first second :=
  ⟨same.mono (weaken _ _), fun _ => same⟩

theorem Lockstep.paced_of_waits (same : Lockstep pairing waiting first second)
    (waits : first.phase ≠ .search) : Paced pairing waiting searching first second :=
  ⟨same, fun searching => (waits searching).elim⟩

theorem conclude_alongside (same : Paced pairing waiting searching first second)
    (converged : Bool) :
    Alongside first second (iterate.conclude converged) (iterate.conclude converged)
      (Paced pairing waiting searching) (Paced pairing waiting searching) := by
  refine alongside_ite Iff.rfl (fun _ => alongside_modify_bind (alongside_pure ?_))
    fun _ => alongside_pure same
  exact ⟨{ same.waits with phase := rfl }, nofun⟩

variable [Spectral α]

/-- A call preserves what computing derivatives leads to and what trying a step keeps. -/
theorem iterate_alongside (same : Paced pairing waiting searching first second)
    (weaken : ∀ known known', searching known known' → waiting known known')
    (differentiates : first.phase = .differentiate → Lockstep pairing waiting
        { first with updated := false, fullSteps := first.fullSteps + 1 }
        { second with updated := false, fullSteps := second.fullSteps + 1 } →
      Alongside { first with updated := false, fullSteps := first.fullSteps + 1 }
        { second with updated := false, fullSteps := second.fullSteps + 1 }
        updateDerivatives updateDerivatives (Paced pairing waiting searching)
        (Paced pairing waiting searching))
    (tries : first.phase = .search → Lockstep pairing searching
        { first with updated := false, retries := first.retries + 1 }
        { second with updated := false, retries := second.retries + 1 } →
      Alongside { first with updated := false, retries := first.retries + 1 }
        { second with updated := false, retries := second.retries + 1 } tryStep tryStep
        (Lockstep pairing searching) (Lockstep pairing searching)) :
    Alongside first second iterate iterate (Paced pairing waiting searching)
      (Paced pairing waiting searching) := by
  cases phase : first.phase with
  | differentiate =>
      refine Alongside.of_run_eq ?_ (iterate_run_differentiate phase)
        (iterate_run_differentiate (same.waits.phase ▸ phase))
      refine alongside_bind _ (differentiates phase ?_)
        fun converged _ _ same => conclude_alongside same converged
      exact { same.waits with updated := rfl, fullSteps := by rw [same.waits.fullSteps] }
  | search =>
      have same := same.searches phase
      refine Alongside.of_run_eq ?_ (iterate_run_search phase)
        (iterate_run_search (same.phase ▸ phase))
      refine alongside_bind _ ((tries phase ?_).mono
        (fun _ _ same => same.paced weaken) fun _ _ same => same.paced weaken)
        fun converged _ _ same => conclude_alongside same converged
      exact { same with updated := rfl, retries := by rw [same.retries] }
  | converged =>
      exact .ok (iterate_run_converged phase) (iterate_run_converged (same.waits.phase ▸ phase))
        ⟨{ same.waits with updated := rfl }, fun searching => nomatch phase.symm.trans searching⟩

/-- What every call preserves holds after any number of them. -/
theorem afterCalls_alongside {relation : Solver σ α → Solver σ α → Prop}
    (same : relation first second)
    (next : ∀ count, relation (first.afterCalls count) (second.afterCalls count) →
      Alongside (first.afterCalls count) (second.afterCalls count) iterate iterate relation
        relation) (count : Nat) :
    relation (first.afterCalls count) (second.afterCalls count) := by
  induction count with
  | zero => exact same
  | succ count previous => exact (next count previous).leaves

end Paced

/-! ## Starting -/

/-- The loss may remember something else in each of the searches; it is forgotten here. -/
theorem resetResiduals_alongside {done : Solver σ α → Solver σ α → Prop}
    (facing : Facing pairing first second) (fresh : first.loss.fresh = second.loss.fresh)
    (respects : first.loss.Respects pairing.world) (points : pairing.point first.x second.x)
    (ends : ∀ (residuals : Vec α) loss loss' world world', loss.Like loss' →
      loss.Respects pairing.world → pairing.world world world' →
      done
        { first with
          residuals := residuals, candidateResiduals := Vec.zeros residuals.length
          lossGradient := Vec.zeros residuals.length, loss := loss, world := world }
        { second with
          residuals := residuals, candidateResiduals := Vec.zeros residuals.length
          lossGradient := Vec.zeros residuals.length, loss := loss', world := world' }) :
    Alongside first second resetResiduals resetResiduals done fun _ _ => True := by
  refine alongside_get_bind (alongside_bind (fun after after' => ∃ world world',
    pairing.world world world' ∧ after = { first with world := world } ∧
      after' = { second with world := world' }) ?_ ?_)
  · exact residualsAt_alongside facing points
      (fun world world' worlds => ⟨world, world', worlds, rfl, rfl⟩) fun _ _ _ => trivial
  rintro residuals _ _ ⟨world, world', worlds, rfl, rfl⟩
  refine alongside_modify_bind (alongside_get_bind ?_)
  obtain ⟨ready, ready', prepares, prepares', like, respects⟩ | ⟨fault, prepares, prepares'⟩ :=
    Loss.prepare_alike fresh respects residuals.length
  · refine Alongside.of_run_eq ?_ (run_attempt_bind_ok prepares) (run_attempt_bind_ok prepares')
    refine alongside_modify_bind
      (alongside_bind done ?_ fun _ _ _ related => alongside_pure related)
    refine settle_alongside worlds like respects residuals ?_ fun _ _ _ => trivial
    exact fun loss loss' world world' => ends residuals loss loss' world world'
  · exact .error (run_attempt_bind_error prepares) (run_attempt_bind_error prepares') trivial

/-- Whatever the searches remember of earlier ones, a start brings them in lock step. -/
theorem start_alongside (facing : Facing pairing first second)
    (fresh : first.loss.fresh = second.loss.fresh)
    (respects : first.loss.Respects pairing.world) {x y : Vec α} (points : pairing.point x y)
    (unknown : relation (.unknown first.normal x.length) (.unknown second.normal y.length))
    (cost? gradient? : Option α) :
    Alongside first second (start x cost? gradient?) (start y cost? gradient?)
      (Lockstep pairing relation) fun _ _ => True := by
  refine Alongside.of_run_eq ?_ (start_run facing.defined facing.problem)
    (start_run (facing.form ▸ facing.defined) facing.problem')
  have adopts : Alongside first second (adoptTolerances cost? gradient?)
      (adoptTolerances cost? gradient?) (fun after after' => ∃ settings,
        after = { first with settings := settings } ∧
        after' = { second with settings := settings }) fun _ _ => True := by
    refine alongside_modify_bind (alongside_get_bind ?_)
    rw [facing.settings]
    exact alongside_attempt rfl ⟨_, rfl, rfl⟩ trivial
  refine alongside_bind _ adopts ?_
  rintro _ _ _ ⟨settings, rfl, rfl⟩
  refine alongside_modify_bind (alongside_modify_bind ?_)
  refine alongside_bind (fun after after' => ∀ cost, Lockstep pairing relation
    { after with cost := cost } { after' with cost := cost }) ?_ ?_
  · refine resetResiduals_alongside { facing with settings := rfl } fresh respects points ?_
    intro residuals loss loss' world world' like respects worlds cost
    exact { facing with
      settings := rfl, world := worlds, loss := like, respects := respects, x := points
      candidate := pairing.zeros points, step := pairing.zeros points, residuals := rfl
      candidateResiduals := rfl, lossGradient := rfl, cost := rfl, damping := rfl, growth := rfl
      phase := rfl, updated := rfl, fullSteps := rfl, retries := rfl, derivatives := unknown }
  intro _ after after' same
  have residuals : after.residuals = after'.residuals := (same second.cost).residuals
  have like : after.loss.Like after'.loss := (same second.cost).loss
  refine alongside_get_bind ?_
  rw [residuals]
  refine alongside_bind (fun late late' => late = after ∧ late' = after')
    (costOf_alongside like _ ⟨rfl, rfl⟩ trivial) ?_
  rintro cost late late' ⟨rfl, rfl⟩
  refine alongside_modify_bind (alongside_ite Iff.rfl (fun _ => alongside_bind
    (fun _ _ => False) (alongside_throw trivial) fun _ _ _ impossible => impossible.elim)
    fun _ => ?_)
  -- only one of the searches may print lines, but that cannot fail
  have prints (solver : Solver σ α) : ∃ trace, (do
      let solver ← get
      if solver.verbose then report solver.startLines : Action σ α Unit).run solver =
        (.ok (), { solver with trace := trace }) := by
    rw [run_get_bind]
    split
    · exact ⟨_, rfl⟩
    · exact ⟨_, rfl⟩
  obtain ⟨_, ran⟩ := prints { late with cost := cost }
  obtain ⟨_, ran'⟩ := prints { late' with cost := cost }
  exact .ok ran ran' { same cost with }

end Solver

end DampedLeastSquares
