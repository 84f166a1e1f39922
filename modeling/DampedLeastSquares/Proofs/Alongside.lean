import DampedLeastSquares.Proofs.Action

/-!
# Two actions side by side

Two actions on two searches that end the same. `Alongside` says how the searches
are related then. It has a rule for each way of composing actions, as `Ensures`
has for a single one.
-/

set_option autoImplicit false

namespace DampedLeastSquares

variable {σ α β γ : Type}

/-- From worlds that correspond, both calls end the same, in worlds that correspond. -/
def Call.Paired (world : σ → σ → Prop) (call call' : Call σ α β) : Prop :=
  ∀ before before', world before before' →
    (call.run before).1 = (call'.run before').1 ∧ world (call.run before).2 (call'.run before').2

namespace Call

variable {world : σ → σ → Prop}

theorem paired_pure (value : β) : (pure value : Call σ α β).Paired world (pure value) :=
  fun _ _ worlds => ⟨rfl, worlds⟩

theorem Paired.bind {call call' : Call σ α γ} {next next' : γ → Call σ α β}
    (start : call.Paired world call') (rest : ∀ value, (next value).Paired world (next' value)) :
    (call >>= next).Paired world (call' >>= next') := by
  intro before before' worlds
  obtain ⟨same, worlds⟩ := start before before' worlds
  rcases asked : call.run before with ⟨fault | value, after⟩ <;>
    rcases asked' : call'.run before' with ⟨ending', after'⟩ <;>
    rw [asked, asked'] at same worlds <;> cases same
  · rw [run_bind_error asked, run_bind_error asked']
    exact ⟨rfl, worlds⟩
  · rw [run_bind_ok asked, run_bind_ok asked']
    exact rest value after after' worlds

end Call

namespace Solver

/-- From two searches both actions end in the same value, in searches related by `done`, or in the
same fault, in searches related by `failed`. -/
inductive Alongside (first second : Solver σ α) (left right : Action σ α β)
    (done failed : Solver σ α → Solver σ α → Prop) : Prop where
  | ok {value : β} {after after' : Solver σ α} (ran : left.run first = (.ok value, after))
      (ran' : right.run second = (.ok value, after')) (related : done after after')
  | error {fault : Fault α} {after after' : Solver σ α}
      (ran : left.run first = (.error fault, after))
      (ran' : right.run second = (.error fault, after')) (related : failed after after')

section Rules

variable {first second : Solver σ α} {done failed : Solver σ α → Solver σ α → Prop}

theorem alongside_bind (middle : Solver σ α → Solver σ α → Prop) {left right : Action σ α γ}
    {next next' : γ → Action σ α β}
    (start : Alongside first second left right middle failed)
    (rest : ∀ value after after', middle after after' →
      Alongside after after' (next value) (next' value) done failed) :
    Alongside first second (left >>= next) (right >>= next') done failed := by
  cases start with
  | error ran ran' related => exact .error (run_bind_error ran) (run_bind_error ran') related
  | ok ran ran' related =>
      cases rest _ _ _ related with
      | ok last last' related =>
          exact .ok ((run_bind_ok ran).trans last) ((run_bind_ok ran').trans last') related
      | error last last' related =>
          exact .error ((run_bind_ok ran).trans last) ((run_bind_ok ran').trans last') related

theorem alongside_pure {value : β} (related : done first second) :
    Alongside first second (pure value) (pure value) done failed := .ok rfl rfl related

theorem alongside_throw {fault : Fault α} (related : failed first second) :
    Alongside first second (throw fault : Action σ α β) (throw fault) done failed :=
  .error rfl rfl related

theorem alongside_modify {change change' : Solver σ α → Solver σ α}
    (related : done (change first) (change' second)) :
    Alongside first second (modify change) (modify change') done failed := .ok rfl rfl related

theorem Alongside.of_run_eq {first' second' : Solver σ α} {left right left' right' : Action σ α β}
    (alongside : Alongside first' second' left' right' done failed)
    (same : left.run first = left'.run first') (same' : right.run second = right'.run second') :
    Alongside first second left right done failed := by
  cases alongside with
  | ok ran ran' related => exact .ok (same.trans ran) (same'.trans ran') related
  | error ran ran' related => exact .error (same.trans ran) (same'.trans ran') related

theorem alongside_get_bind {next next' : Solver σ α → Action σ α β}
    (rest : Alongside first second (next first) (next' second) done failed) :
    Alongside first second (get >>= next) (get >>= next') done failed :=
  rest.of_run_eq run_get_bind run_get_bind

theorem alongside_modify_bind {change change' : Solver σ α → Solver σ α}
    {next next' : Unit → Action σ α β}
    (rest : Alongside (change first) (change' second) (next ()) (next' ()) done failed) :
    Alongside first second (modify change >>= next) (modify change' >>= next') done failed :=
  rest.of_run_eq run_modify_bind run_modify_bind

theorem alongside_attempt {result result' : Except (Fault α) β} (same : result = result')
    (ends : done first second) (breaks : failed first second) :
    Alongside first second (attempt result) (attempt result') done failed := by
  subst same
  cases result with
  | error fault => exact .error rfl rfl breaks
  | ok value => exact .ok rfl rfl ends

theorem alongside_attempt_bind {result result' : Except (Fault α) γ}
    {next next' : γ → Action σ α β} (same : result = result')
    (rest : ∀ value, result = .ok value →
      Alongside first second (next value) (next' value) done failed)
    (breaks : failed first second) :
    Alongside first second (attempt result >>= next) (attempt result' >>= next') done failed := by
  subst same
  cases ended : result with
  | error fault =>
      exact .error (run_attempt_bind_error rfl) (run_attempt_bind_error rfl) breaks
  | ok value =>
      exact (rest value ended).of_run_eq (run_attempt_bind_ok rfl) (run_attempt_bind_ok rfl)

/-- A call of the caller's functions ends the same on both sides. -/
theorem alongside_evaluate_bind {world : σ → σ → Prop} {call call' : Call σ α γ}
    {next next' : γ → Action σ α β} (paired : call.Paired world call')
    (worlds : world first.world second.world)
    (rest : ∀ value after after', call.run first.world = (.ok value, after) →
      world after after' → Alongside { first with world := after } { second with world := after' }
        (next value) (next' value) done failed)
    (breaks : ∀ after after', world after after' →
      failed { first with world := after } { second with world := after' }) :
    Alongside first second (evaluate call >>= next) (evaluate call' >>= next') done failed := by
  obtain ⟨same, worlds'⟩ := paired _ _ worlds
  have ran : (evaluate call).run first = ((call.run first.world).1, _) := run_evaluate
  have ran' : (evaluate call').run second = ((call'.run second.world).1, _) := run_evaluate
  cases ended : (call.run first.world).1 with
  | error fault =>
      rw [ended] at ran same
      rw [← same] at ran'
      exact .error (run_bind_error ran) (run_bind_error ran') (breaks _ _ worlds')
  | ok value =>
      rw [ended] at ran same
      rw [← same] at ran'
      exact (rest value _ _ (Prod.ext ended rfl) worlds').of_run_eq (run_bind_ok ran)
        (run_bind_ok ran')

theorem alongside_ite {condition condition' : Prop} [Decidable condition] [Decidable condition']
    (same : condition ↔ condition') {left left' right right' : Action σ α β}
    (positive : condition → Alongside first second left right done failed)
    (negative : ¬ condition → Alongside first second left' right' done failed) :
    Alongside first second (if condition then left else left')
      (if condition' then right else right') done failed := by
  by_cases holds : condition
  · rw [if_pos holds, if_pos (same.mp holds)]
    exact positive holds
  · rw [if_neg holds, if_neg (mt same.mpr holds)]
    exact negative holds

theorem Alongside.mono {left right : Action σ α β}
    {done' failed' : Solver σ α → Solver σ α → Prop}
    (alongside : Alongside first second left right done failed)
    (weakenDone : ∀ after after', done after after' → done' after after')
    (weakenFailed : ∀ after after', failed after after' → failed' after after') :
    Alongside first second left right done' failed' := by
  cases alongside with
  | ok ran ran' related => exact .ok ran ran' (weakenDone _ _ related)
  | error ran ran' related => exact .error ran ran' (weakenFailed _ _ related)

/-- What the action on the left leaves in any case is known besides. -/
theorem Alongside.and_leaves {left right : Action σ α β} {kind : Solver σ α → Prop}
    (alongside : Alongside first second left right done failed)
    (leaves : Leaves left first kind) :
    Alongside first second left right (fun after after' => done after after' ∧ kind after)
      fun after after' => failed after after' ∧ kind after := by
  cases alongside with
  | ok ran ran' related => exact .ok ran ran' ⟨related, leaves.of_run_ok ran⟩
  | error ran ran' related => exact .error ran ran' ⟨related, leaves.of_run_error ran⟩

theorem Alongside.ends {left right : Action σ α β}
    (alongside : Alongside first second left right done failed) :
    (left.run first).1 = (right.run second).1 := by
  cases alongside with
  | ok ran ran' _ => rw [ran, ran']
  | error ran ran' _ => rw [ran, ran']

theorem Alongside.leaves {left right : Action σ α β} {relation : Solver σ α → Solver σ α → Prop}
    (alongside : Alongside first second left right relation relation) :
    relation (left.run first).2 (right.run second).2 := by
  cases alongside with
  | ok ran ran' related => rw [ran, ran']; exact related
  | error ran ran' related => rw [ran, ran']; exact related

end Rules

end Solver

end DampedLeastSquares
