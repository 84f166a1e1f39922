import DampedLeastSquares.Proofs.Descent
import DampedLeastSquares.Proofs.Sizes
import DampedLeastSquares.Proofs.Trial

/-!
# Residuals of another length

The residual function may answer with another number of residuals than at the
start. At a candidate such an answer is refused before anything is stored, with
one exception: a single residual is repeated until it fills the vector.
-/

set_option autoImplicit false

namespace DampedLeastSquares

namespace Vec

variable {α : Type}

theorem fill?_single (length : Nat) (value : α) :
    fill? length [value] = some (List.replicate length value) := by
  unfold fill?
  split
  · next size =>
      have one : length = 1 := size.symm
      rw [one]
      rfl
  · rfl

theorem fill?_of_misfit {length : Nat} {value : Vec α} (misfit : value.length ≠ length)
    (many : value.length ≠ 1) : fill? length value = none := by
  unfold fill?
  rw [if_neg misfit]
  cases value with
  | nil => rfl
  | cons first rest =>
      cases rest with
      | nil => exact (many rfl).elim
      | cons second rest => rfl

end Vec

namespace Solver

variable {σ α : Type} [Scalar α]

theorem evaluateCandidate_refuses {solver : Solver σ α} {candidate : Vec α} {answer : Tensor α}
    {world : σ} (further : Vec.combine? (· + ·) solver.x solver.step = some candidate)
    (answers : solver.Answers candidate answer world)
    (misfit : Vec.fill? solver.candidateResiduals.length answer.flatten = none) :
    evaluateCandidate.run solver = (.error .shape, { solver with
      candidate := candidate, world := world }) := by
  unfold evaluateCandidate
  rw [run_get_bind, further, run_attempt_bind_ok (fit_some candidate), run_modify_bind]
  have answered : (residualsAt candidate).run { solver with candidate := candidate } =
      (.ok answer.flatten, { solver with candidate := candidate, world := world }) :=
    residualsAt_run answers
  rw [run_bind_ok answered, misfit]
  exact run_attempt_bind_error rfl

variable [Spectral α]

/-- The call comes to a candidate, where the residual function answers. -/
def Receives (before : Solver σ α) (answer : Vec α) : Prop :=
  before.phase = .search ∧ ∃ predicted middle candidate found world,
    propose.run { before with updated := false, retries := before.retries + 1 } =
      (.ok (some predicted), middle) ∧
    Vec.combine? (· + ·) middle.x middle.step = some candidate ∧
    middle.Answers candidate found world ∧ found.flatten = answer

variable {before : Solver σ α} {answer : Vec α} {parameters functions : Nat}

theorem Receives.evaluates {residuals : Vec α} (receives : before.Receives answer)
    (filled : Vec.fill? before.candidateResiduals.length answer = some residuals) :
    before.Evaluates residuals := by
  obtain ⟨phase, predicted, middle, candidate, found, world, proposes, further, answers, rfl⟩ :=
    receives
  refine ⟨phase, predicted, middle, candidate, found, world, proposes, further, answers, ?_⟩
  obtain ⟨_, _, _, _, rfl⟩ := (propose_proposed _).of_run_ok proposes
  exact filled

theorem Receives.refused (receives : before.Receives answer)
    (misfit : Vec.fill? before.candidateResiduals.length answer = none) :
    before.answer = .error .shape ∧ ∃ middle, Examined middle before.next ∧
      before.next.candidateResiduals = middle.candidateResiduals ∧
      Proposed { before with updated := false, retries := before.retries + 1 } middle := by
  obtain ⟨phase, predicted, middle, candidate, found, world, proposes, further, answers, rfl⟩ :=
    receives
  have proposed := (propose_proposed _).of_run_ok proposes
  have room : middle.candidateResiduals.length = before.candidateResiduals.length := by
    obtain ⟨_, _, _, _, rfl⟩ := proposed
    rfl
  have refuses := evaluateCandidate_refuses further answers (room ▸ misfit)
  have considered : (consider predicted).run middle =
      (.error .shape, { middle with candidate := candidate, world := world }) :=
    run_bind_error refuses
  have ran : iterate.run before =
      (.error .shape, { middle with candidate := candidate, world := world }) := by
    rw [iterate_run_search phase]
    exact run_bind_error ((tryStep_run proposes).trans considered)
  refine ⟨congrArg Prod.fst ran, middle, ?_⟩
  rw [show before.next = _ from congrArg Prod.snd ran]
  exact ⟨⟨_, _, _, rfl⟩, rfl, proposed⟩

/-- An answer of another length than the residuals ends the call in a fault, with everything that
was stored and the cost as they were, unless it has a single entry: then the call goes on as with
that entry for every residual. -/
theorem misfits_refused_or_repeated (sized : before.Sized parameters functions)
    (receives : before.Receives answer) (misfit : answer.length ≠ functions) :
    (answer.length ≠ 1 → before.answer = .error .shape ∧ before.next.place = before.place ∧
      before.next.candidateResiduals = before.candidateResiduals ∧
      before.next.phase = before.phase ∧ before.next.updated = false) ∧
    ∀ value, answer = [value] → before.Evaluates (List.replicate functions value) := by
  rw [← sized.candidateResiduals] at misfit ⊢
  constructor
  · intro many
    obtain ⟨failed, middle, ⟨_, _, _, examined⟩, stored, _, _, _, _, rfl⟩ :=
      receives.refused (Vec.fill?_of_misfit misfit many)
    rw [examined] at stored ⊢
    exact ⟨failed, rfl, stored, rfl, rfl⟩
  · rintro value rfl
    exact receives.evaluates (Vec.fill?_single _ value)

theorem proposes_of_isSome {solver : Solver σ α}
    (steps : (propose.run solver).1.toOption.join.isSome = true) :
    ∃ predicted middle, propose.run solver = (.ok (some predicted), middle) := by
  rcases ran : propose.run solver with ⟨_ | _ | predicted, middle⟩
  · rw [ran] at steps
    cases steps
  · rw [ran] at steps
    cases steps
  · exact ⟨predicted, middle, rfl⟩

theorem receives_of_steps {problem : Problem σ α} (sized : before.Sized parameters functions)
    (phase : before.phase = .search) (defined : before.form ≠ .undefined)
    (given : before.problem? = some problem)
    (steps : (propose.run { before with
      updated := false, retries := before.retries + 1 }).1.toOption.join.isSome = true)
    (answers : ∀ x, ∃ found world,
      (problem.residuals x).run before.world = (.ok found, world) ∧ found.flatten = answer) :
    before.Receives answer := by
  obtain ⟨predicted, middle, proposes⟩ := proposes_of_isSome steps
  have counted : Sized { before with updated := false, retries := before.retries + 1 }
      parameters functions := { sized with x := sized.x }
  have sized' := (propose_sized counted).of_run_ok proposes
  have further := Vec.combine?_of_length_eq (· + ·) (sized'.x.trans sized'.step.symm)
  obtain ⟨found, world, ran, flat⟩ := answers
    (List.zipWith (· + ·) middle.x middle.step)
  refine ⟨phase, predicted, middle, _, found, world, proposes, further, ?_, flat⟩
  obtain ⟨_, _, _, _, rfl⟩ := (propose_proposed _).of_run_ok proposes
  exact ⟨defined, problem, given, ran⟩

/-- Two parameters that are their own residuals, until they are asked for a second time. -/
def changingProblem (answer : Vec Float) : Problem Nat Float where
  residuals x := do
    let asked ← get
    set (asked + 1)
    return .vector (if asked = 0 then x else answer)
  jacobian _ := pure (.whole (.matrix (.dense (.ofFn 2 2 fun row column =>
    if row = column then 1.0 else 0.0))))

def changingSearch (answer : Vec Float) : Solver Nat Float :=
  ⟨.whole, .whole (WholeNormal.create .elimination), Settings.standard, Loss.squared,
    some (changingProblem answer), 0, false, [], .differentiate, 0, 0, false, [], [], [], [], [],
    0.0, [], [], [], [], [], 0.0, initialGrowth⟩

/-- The search between the first call and the second, which comes to a candidate. -/
def answeredOnce (answer : Vec Float) : Solver Nat Float :=
  ((start [1.0, 1.0] none none).run (changingSearch answer)).2.afterCalls 1

theorem changingProblem_answers (answer x : Vec Float) :
    ((changingProblem answer).residuals x).run 1 = (.ok (.vector answer), 2) := rfl

theorem answeredOnce_receives (answer : Vec Float)
    (success : ((start [1.0, 1.0] none none).run (changingSearch answer)).1.isOk = true)
    (size : ((start [1.0, 1.0] none none).run (changingSearch answer)).2.residuals.length = 2)
    (phase : (answeredOnce answer).phase = .search) (asked : (answeredOnce answer).world = 1)
    (steps : (propose.run { answeredOnce answer with
      updated := false, retries := (answeredOnce answer).retries + 1 }).1.toOption.join.isSome =
        true) :
    (answeredOnce answer).Sized 2 2 ∧ (answeredOnce answer).loss.IsStatic ∧
      (answeredOnce answer).Receives answer := by
  have started := (start_ensures (changingSearch answer) [1.0, 1.0] none none).of_run_ok
    (run_of_isOk success)
  have sized := started.sized
  rw [size] at sized
  have sized : (answeredOnce answer).Sized 2 2 := afterCalls_sized sized 1
  obtain ⟨form, _, given⟩ := afterCalls_configured
    ((start [1.0, 1.0] none none).run (changingSearch answer)).2 1
  refine ⟨sized, (afterCalls_static _ (started.static trivial) 1).1,
    receives_of_steps sized phase ((form.trans started.form).trans_ne nofun)
      (given.trans started.problem) steps fun x => ⟨.vector answer, 2, ?_, rfl⟩⟩
  rw [asked]
  exact changingProblem_answers answer x

/-- Three residuals in place of two are refused. -/
theorem misfits_refused_of_three :
    (answeredOnce [0.5, 0.5, 0.5]).Receives [0.5, 0.5, 0.5] ∧
      (answeredOnce [0.5, 0.5, 0.5]).answer = .error .shape ∧
      (answeredOnce [0.5, 0.5, 0.5]).next.place = (answeredOnce [0.5, 0.5, 0.5]).place := by
  obtain ⟨sized, _, receives⟩ := answeredOnce_receives [0.5, 0.5, 0.5]
    (by decide +kernel) (by decide +kernel) (by decide +kernel) (by decide +kernel)
    (by decide +kernel)
  obtain ⟨failed, kept, _⟩ :=
    (misfits_refused_or_repeated sized receives (by decide)).1 (by decide)
  exact ⟨receives, failed, kept⟩

/-- A single residual in place of two stands for both of them, and the call goes on. -/
theorem single_residual_accepted :
    ¬ ∀ (before : Solver Nat Float) (answer : Vec Float) (parameters functions : Nat),
      before.Sized parameters functions → before.loss.IsStatic → before.Receives answer →
      answer.length ≠ functions →
        before.answer = .error .shape ∧ before.next.place = before.place := by
  intro refused
  have found := answeredOnce_receives [0.5] (by decide +kernel) (by decide +kernel)
    (by decide +kernel) (by decide +kernel) (by decide +kernel)
  have success : (answeredOnce [0.5]).answer.isOk = true := by decide +kernel
  -- named, so that nothing evaluates the state again
  generalize answeredOnce [0.5] = before at found success
  obtain ⟨sized, static, receives⟩ := found
  obtain ⟨failed, _⟩ := refused before [0.5] 2 2 sized static receives (by decide)
  rw [failed] at success
  cases success

end Solver

end DampedLeastSquares
