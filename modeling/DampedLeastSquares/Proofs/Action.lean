import DampedLeastSquares.Solver.Start

/-!
# What an action leaves behind

An action ends in a value or in a fault, and in either case in a search.
`Ensures` says what holds of each ending, `Leaves` what holds of the search
whichever it is. Each way of composing actions has a rule, so a statement about
a composed action reduces to statements about its parts, and a part is cited by
what it ensures.
-/

set_option autoImplicit false

namespace DampedLeastSquares

section Calls

variable {σ α β γ : Type} {before after : σ} {call : Call σ α γ} {next : γ → Call σ α β}

theorem Call.run_bind_ok {value : γ} (ran : call.run before = (.ok value, after)) :
    (call >>= next).run before = (next value).run after := by
  simp only [ExceptT.run_bind]
  change (StateT.bind (m := Id) call.run _) before = _
  simp only [StateT.bind, ran]
  rfl

theorem Call.run_bind_error {fault : Fault α} (ran : call.run before = (.error fault, after)) :
    (call >>= next).run before = (.error fault, after) := by
  simp only [ExceptT.run_bind]
  change (StateT.bind (m := Id) call.run _) before = _
  simp only [StateT.bind, ran]
  rfl

theorem Call.run_bind_return {ending : Except (Fault α) γ}
    (ran : call.run before = (ending, after)) (convert : γ → β) :
    (do return convert (← call) : Call σ α β).run before = (ending.map convert, after) := by
  cases ending with
  | error fault => exact run_bind_error ran
  | ok value => exact run_bind_ok ran

end Calls

namespace Solver

variable {σ α β γ : Type}

/-- From `solver`, the action ends in a value and a search that satisfy `done`, or
in a fault and a search that satisfy `failed`. -/
def Ensures (action : Action σ α β) (solver : Solver σ α)
    (done : β → Solver σ α → Prop) (failed : Fault α → Solver σ α → Prop) : Prop :=
  match action.run solver with
  | (.ok value, after) => done value after
  | (.error fault, after) => failed fault after

/-- From `solver`, whichever way the action ends, it leaves a search of this kind. -/
def Leaves (action : Action σ α β) (solver : Solver σ α) (kind : Solver σ α → Prop) : Prop :=
  Ensures action solver (fun _ => kind) fun _ => kind

section Running

variable {solver after : Solver σ α} {action : Action σ α γ} {next : γ → Action σ α β}

theorem run_bind_ok {value : γ} (ran : action.run solver = (.ok value, after)) :
    (action >>= next).run solver = (next value).run after := Call.run_bind_ok ran

theorem run_bind_error {fault : Fault α} (ran : action.run solver = (.error fault, after)) :
    (action >>= next).run solver = (.error fault, after) := Call.run_bind_error ran

theorem run_bind_congr {other : Action σ α γ} {middle : Solver σ α}
    (same : action.run solver = other.run middle) :
    (action >>= next).run solver = (other >>= next).run middle := by
  rcases ran : other.run middle with ⟨_ | _, after⟩
  · rw [run_bind_error ran, run_bind_error (same.trans ran)]
  · rw [run_bind_ok ran, run_bind_ok (same.trans ran)]

theorem run_of_isOk {action : Action σ α Unit} (success : (action.run solver).1.isOk = true) :
    action.run solver = (.ok (), (action.run solver).2) := by
  rcases ran : action.run solver with ⟨_ | _, after⟩
  · rw [ran] at success
    cases success
  · rfl

theorem run_get_bind {next : Solver σ α → Action σ α β} :
    (get >>= next).run solver = (next solver).run solver := run_bind_ok rfl

theorem run_modify_bind {change : Solver σ α → Solver σ α} {next : Unit → Action σ α β} :
    (modify change >>= next).run solver = (next ()).run (change solver) := run_bind_ok rfl

theorem run_pure {value : β} :
    (pure value : Action σ α β).run solver = (.ok value, solver) := rfl

theorem run_attempt {result : Except (Fault α) β} :
    (attempt result : Action σ α β).run solver = (result, solver) := rfl

theorem run_evaluate {call : Call σ α β} :
    (evaluate call : Action σ α β).run solver =
      ((call.run solver.world).1, { solver with world := (call.run solver.world).2 }) := rfl

theorem run_changeNormal {change : NormalMatrix α → Except (Fault α) Unit × NormalMatrix α} :
    (changeNormal change : Action σ α Unit).run solver =
      ((change solver.normal).1, { solver with normal := (change solver.normal).2 }) := rfl

theorem run_attempt_bind_ok {result : Except (Fault α) γ} {value : γ}
    (found : result = .ok value) :
    (attempt result >>= next).run solver = (next value).run solver := by
  subst found
  exact run_bind_ok rfl

theorem run_attempt_bind_error {result : Except (Fault α) γ} {fault : Fault α}
    (failed : result = .error fault) :
    (attempt result >>= next).run solver = (.error fault, solver) := by
  subst failed
  exact run_bind_error rfl

end Running

section Rules

variable {solver : Solver σ α} {done : β → Solver σ α → Prop}
  {failed : Fault α → Solver σ α → Prop}

theorem ensures_bind {action : Action σ α γ} {next : γ → Action σ α β} :
    Ensures (action >>= next) solver done failed ↔
      Ensures action solver
        (fun value after => Ensures (next value) after done failed) failed := by
  unfold Ensures
  rcases ran : action.run solver with ⟨_ | _, after⟩
  · rw [run_bind_error ran]
  · rw [run_bind_ok ran]

theorem ensures_pure {value : β} :
    Ensures (pure value) solver done failed ↔ done value solver := Iff.rfl

theorem ensures_throw {fault : Fault α} :
    Ensures (throw fault : Action σ α β) solver done failed ↔ failed fault solver := Iff.rfl

theorem ensures_get {done : Solver σ α → Solver σ α → Prop} :
    Ensures get solver done failed ↔ done solver solver := Iff.rfl

theorem ensures_modify {change : Solver σ α → Solver σ α} {done : Unit → Solver σ α → Prop} :
    Ensures (modify change) solver done failed ↔ done () (change solver) := Iff.rfl

theorem ensures_report {events : List (Event α)} {done : Unit → Solver σ α → Prop} :
    Ensures (report events) solver done failed ↔
      done () { solver with trace := solver.trace ++ events } := Iff.rfl

theorem ensures_attempt {result : Except (Fault α) β} :
    Ensures (attempt result) solver done failed ↔
      (∀ value, result = .ok value → done value solver) ∧
        ∀ fault, result = .error fault → failed fault solver := by
  unfold Ensures
  rw [run_attempt]
  cases result <;> simp

theorem ensures_evaluate {call : Call σ α β} :
    Ensures (evaluate call) solver done failed ↔
      (∀ value world, call.run solver.world = (.ok value, world) →
          done value { solver with world := world }) ∧
        ∀ fault world, call.run solver.world = (.error fault, world) →
          failed fault { solver with world := world } := by
  unfold Ensures
  rw [run_evaluate]
  rcases call.run solver.world with ⟨_ | _, world⟩
  · exact ⟨fun holds => ⟨nofun, fun _ _ same => by cases same; exact holds⟩,
      fun endings => endings.2 _ _ rfl⟩
  · exact ⟨fun holds => ⟨fun _ _ same => by cases same; exact holds, nofun⟩,
      fun endings => endings.1 _ _ rfl⟩

theorem ensures_changeNormal
    {change : NormalMatrix α → Except (Fault α) Unit × NormalMatrix α}
    {done : Unit → Solver σ α → Prop} :
    Ensures (changeNormal change) solver done failed ↔
      (∀ normal, change solver.normal = (.ok (), normal) →
          done () { solver with normal := normal }) ∧
        ∀ fault normal, change solver.normal = (.error fault, normal) →
          failed fault { solver with normal := normal } := by
  unfold Ensures
  rw [run_changeNormal]
  rcases change solver.normal with ⟨_ | _, normal⟩ <;> simp

theorem ensures_ite {condition : Prop} [Decidable condition] {first second : Action σ α β} :
    Ensures (if condition then first else second) solver done failed ↔
      (condition → Ensures first solver done failed) ∧
        (¬ condition → Ensures second solver done failed) := by
  by_cases holds : condition <;> simp [holds]

theorem Ensures.mono {action : Action σ α β} {done' : β → Solver σ α → Prop}
    {failed' : Fault α → Solver σ α → Prop} (ensured : Ensures action solver done failed)
    (weakenDone : ∀ value after, done value after → done' value after)
    (weakenFailed : ∀ fault after, failed fault after → failed' fault after) :
    Ensures action solver done' failed' := by
  unfold Ensures at ensured ⊢
  rcases ran : action.run solver with ⟨_ | _, after⟩ <;> simp only [ran] at ensured ⊢
  · exact weakenFailed _ _ ensured
  · exact weakenDone _ _ ensured

theorem Leaves.mono {action : Action σ α β} {kind kind' : Solver σ α → Prop}
    (leaves : Leaves action solver kind) (weaken : ∀ after, kind after → kind' after) :
    Leaves action solver kind' :=
  Ensures.mono leaves (fun _ => weaken) fun _ => weaken

theorem Leaves.bind {action : Action σ α γ} {next : γ → Action σ α β} {kind : Solver σ α → Prop}
    (leaves : Leaves action solver kind)
    (rest : ∀ value after, kind after → Leaves (next value) after kind) :
    Leaves (action >>= next) solver kind := by
  unfold Leaves
  rw [ensures_bind]
  exact Ensures.mono leaves rest fun _ _ left => left

theorem Ensures.and {action : Action σ α β} {done' : β → Solver σ α → Prop}
    {failed' : Fault α → Solver σ α → Prop} (ensured : Ensures action solver done failed)
    (ensured' : Ensures action solver done' failed') :
    Ensures action solver (fun value after => done value after ∧ done' value after)
      fun fault after => failed fault after ∧ failed' fault after := by
  unfold Ensures at ensured ensured' ⊢
  rcases ran : action.run solver with ⟨_ | _, after⟩ <;> simp only [ran] at ensured ensured' ⊢
  · exact ⟨ensured, ensured'⟩
  · exact ⟨ensured, ensured'⟩

theorem Ensures.of_run_ok {action : Action σ α β} {value : β} {after : Solver σ α}
    (ensured : Ensures action solver done failed)
    (ran : action.run solver = (.ok value, after)) : done value after := by
  unfold Ensures at ensured
  rwa [ran] at ensured

theorem Ensures.of_run_error {action : Action σ α β} {fault : Fault α} {after : Solver σ α}
    (ensured : Ensures action solver done failed)
    (ran : action.run solver = (.error fault, after)) : failed fault after := by
  unfold Ensures at ensured
  rwa [ran] at ensured

theorem ensures_of_ok {action : Action σ α β} {value : β} {after : Solver σ α}
    (ran : action.run solver = (.ok value, after)) (holds : done value after) :
    Ensures action solver done failed := by
  unfold Ensures
  rw [ran]
  exact holds

theorem ensures_of_error {action : Action σ α β} {fault : Fault α} {after : Solver σ α}
    (ran : action.run solver = (.error fault, after)) (holds : failed fault after) :
    Ensures action solver done failed := by
  unfold Ensures
  rw [ran]
  exact holds

theorem Ensures.error {action : Action σ α β} {cause : Fault α}
    (ensured : Ensures action solver (fun _ _ => False) fun fault _ => fault = cause) :
    (action.run solver).1 = .error cause := by
  unfold Ensures at ensured
  rcases ran : action.run solver with ⟨fault | value, after⟩
  · rw [ran] at ensured
    exact congrArg _ ensured
  · rw [ran] at ensured
    exact ensured.elim

theorem Ensures.of_run_eq {action other : Action σ α β} {middle : Solver σ α}
    (ensured : Ensures other middle done failed)
    (same : action.run solver = other.run middle) : Ensures action solver done failed := by
  unfold Ensures at ensured ⊢
  rwa [same]

/-- Both endings at once, for a condition that does not distinguish them. -/
theorem Ensures.leaves {action : Action σ α β} {relation : Solver σ α → Prop}
    (ensured : Ensures action solver (fun _ after => relation after)
      fun _ after => relation after) : relation (action.run solver).2 := by
  unfold Ensures at ensured
  rcases ran : action.run solver with ⟨_ | _, after⟩ <;> simpa only [ran] using ensured

end Rules

end Solver

end DampedLeastSquares
