import DampedLeastSquares.Proofs.Start

/-!
# Sizes are kept

No call changes the size of a buffer, whether it returns or not.
-/

set_option autoImplicit false

namespace DampedLeastSquares

variable {σ α : Type} [Scalar α] {parameters functions : Nat}

/-! ## Results written to a vector have its size -/

theorem WholeNormal.length_of_written {out solution result : Vec α} {failure? : Option Shortfall}
    (written : WholeNormal.written out solution = .ok (result, failure?)) :
    result.length = out.length := by
  obtain ⟨stored, filled, same⟩ := of_bind written
  cases same
  exact Vec.length_of_fill? (of_fit filled)

theorem WholeNormal.length_of_solveLeastNorm [Spectral α] {matrix : Operand α} {cutoff : α}
    {rhs out result : Vec α} {failure? : Option Shortfall}
    (solved : solveLeastNorm matrix cutoff rhs out = .ok (result, failure?)) :
    result.length = out.length := by
  unfold solveLeastNorm at solved
  split at solved
  · exact length_of_written solved
  · cases solved
    rfl

theorem WholeNormal.length_of_solve [Spectral α] {normal : WholeNormal α} {rhs out result : Vec α}
    {failure? : Option Shortfall} (solved : normal.solve rhs out = .ok (result, failure?)) :
    result.length = out.length := by
  unfold WholeNormal.solve at solved
  cases prepared : normal.prepared? with
  | none =>
      rw [prepared] at solved
      cases solved
  | some system =>
      rw [prepared] at solved
      cases system with
      | factored factors =>
          obtain ⟨solution, _, written⟩ := of_bind solved
          exact length_of_written written
      | current => exact length_of_solveLeastNorm solved
      | earlier matrix => exact length_of_solveLeastNorm solved

theorem SplitNormal.length_of_solve {normal : SplitNormal α} {rhs out result : Vec α}
    {failure? : Option Shortfall} (solved : normal.solve rhs out = .ok (result, failure?)) :
    result.length = out.length := by
  unfold SplitNormal.solve at solved
  cases prepared : normal.leftFactor? with
  | none =>
      rw [prepared] at solved
      cases solved
  | some factors =>
      rw [prepared] at solved
      obtain ⟨size, _, solved⟩ := of_bind solved
      obtain ⟨eliminated, _, solved⟩ := of_bind solved
      obtain ⟨rightSize, _, solved⟩ := of_bind solved
      split at solved
      · exact WholeNormal.length_of_written solved
      obtain ⟨coupling, _, solved⟩ := of_bind solved
      obtain ⟨right, _, solved⟩ := of_bind solved
      obtain ⟨share, _, solved⟩ := of_bind solved
      obtain ⟨second, _, solved⟩ := of_bind solved
      obtain ⟨reduced, _, solved⟩ := of_bind solved
      split at solved
      · cases solved
        rfl
      · obtain ⟨lower, _, solved⟩ := of_bind solved
        obtain ⟨coupled, _, solved⟩ := of_bind solved
        obtain ⟨back, _, solved⟩ := of_bind solved
        obtain ⟨upper, _, solved⟩ := of_bind solved
        obtain ⟨leftOut, leftFilled, solved⟩ := of_bind solved
        obtain ⟨rightOut, rightFilled, solved⟩ := of_bind solved
        cases solved
        rw [List.length_append, Vec.length_of_fill? (of_fit leftFilled),
          Vec.length_of_fill? (of_fit rightFilled), ← List.length_append,
          Vec.before_append_after]

theorem NormalMatrix.length_of_solve [Spectral α] {normal : NormalMatrix α}
    {rhs out result : Vec α} {failure? : Option Shortfall}
    (solved : normal.solve rhs out = .ok (result, failure?)) : result.length = out.length := by
  cases normal with
  | whole normal => exact WholeNormal.length_of_solve solved
  | split normal => exact SplitNormal.length_of_solve solved

theorem SplitNormal.length_of_gradient {left right : Operand α} {residuals result : Vec α}
    {length : Nat} (formed : gradient left right residuals (some length) = .ok result) :
    result.length = length := by
  obtain ⟨leftWidth, _, formed⟩ := of_bind formed
  obtain ⟨_, given, formed⟩ := of_bind formed
  cases given
  obtain ⟨upper, upperFormed, formed⟩ := of_bind formed
  obtain ⟨lower, lowerFormed, formed⟩ := of_bind formed
  obtain ⟨_, _, upperFilled⟩ := of_bind upperFormed
  obtain ⟨_, _, lowerFilled⟩ := of_bind lowerFormed
  cases formed
  rw [List.length_append, Vec.length_of_fill? (of_fit upperFilled),
    Vec.length_of_fill? (of_fit lowerFilled)]
  omega

theorem NormalMatrix.length_of_diagonalInto {normal : NormalMatrix α} {length : Nat}
    {result : Vec α} (read : normal.diagonalInto length = .ok result) :
    result.length = length := by
  obtain ⟨_, _, filled⟩ := of_bind read
  exact Vec.length_of_fill? (of_fit filled)

theorem Loss.length_of_gradientInto {loss : Loss σ α} {length : Nat} {residuals result : Vec α}
    (formed : loss.gradientInto length residuals = .ok result) : result.length = length := by
  obtain ⟨_, _, filled⟩ := of_bind formed
  exact Vec.length_of_fill? (of_fit filled)

omit [Scalar α] in
theorem Vec.length_of_combine? {operation : α → α → α} {left right result : Vec α} {size : Nat}
    (leftSize : left.length = size) (rightSize : right.length = size)
    (combined : combine? operation left right = some result) : result.length = size := by
  rw [combine?_of_length_eq _ (leftSize.trans rightSize.symm)] at combined
  cases combined
  rw [List.length_zipWith, leftSize, rightSize, Nat.min_self]

namespace Solver

/-! ## Trying a step -/

theorem evaluateCandidate_sized {solver : Solver σ α} (sized : solver.Sized parameters functions) :
    Leaves evaluateCandidate solver (·.Sized parameters functions) := by
  unfold Leaves evaluateCandidate
  rw [ensures_bind, ensures_get, ensures_bind, ensures_attempt]
  refine ⟨fun candidate combined => ?_, fun _ _ => sized⟩
  have size : candidate.length = parameters :=
    Vec.length_of_combine? sized.x sized.step (of_fit combined)
  rw [ensures_bind, ensures_modify, ensures_bind]
  unfold residualsAt
  rw [ensures_bind]
  refine (problem_found _).mono ?_ ?_
  · intro found _ ended
    obtain ⟨rfl, _⟩ := ended
    rw [ensures_bind, ensures_evaluate]
    refine ⟨fun answer world _ => ?_, fun _ world _ => { sized with candidate := size }⟩
    rw [ensures_pure, ensures_bind, ensures_attempt]
    refine ⟨fun stored filled => ?_, fun _ _ => { sized with candidate := size }⟩
    have room : stored.length = functions :=
      (Vec.length_of_fill? (of_fit filled)).trans sized.candidateResiduals
    unfold costOf
    rw [ensures_bind, ensures_modify, ensures_bind, ensures_get, ensures_attempt]
    exact ⟨fun _ _ => { sized with candidate := size, candidateResiduals := room },
      fun _ _ => { sized with candidate := size, candidateResiduals := room }⟩
  · intro _ _ ended
    obtain ⟨rfl, _⟩ := ended
    exact { sized with candidate := size }

theorem accept_sized {solver : Solver σ α} (sized : solver.Sized parameters functions)
    (candidateCost : α) :
    Leaves (accept candidateCost) solver (·.Sized parameters functions) := by
  -- state and candidate have the same sizes, so they can be exchanged
  have exchanged (loss : Loss σ α) (world : σ) (cost : α) (phase : Phase) (updated : Bool) :
      Sized { solver with
        x := solver.candidate, candidate := solver.x, residuals := solver.candidateResiduals
        candidateResiduals := solver.residuals, cost := cost, loss := loss, world := world
        phase := phase, updated := updated } parameters functions :=
    { sized with
      x := sized.candidate, candidate := sized.x, residuals := sized.candidateResiduals
      candidateResiduals := sized.residuals }
  unfold Leaves accept settle
  rw [ensures_bind, ensures_modify, ensures_bind, ensures_get, ensures_bind, ensures_bind,
    ensures_get, ensures_bind, ensures_evaluate]
  refine ⟨fun (loss, changed) world _ => ?_, fun _ world _ => exchanged _ _ _ _ _⟩
  rw [ensures_bind, ensures_modify, ensures_pure, ensures_ite]
  refine ⟨fun _ => ?_, fun _ => exchanged _ _ _ _ _⟩
  unfold costOf
  rw [ensures_bind, ensures_get, ensures_bind, ensures_bind, ensures_get, ensures_attempt]
  exact ⟨fun _ _ => exchanged _ _ _ _ _, fun _ _ => exchanged _ _ _ _ _⟩

theorem takeOrDrop_sized {solver : Solver σ α} (sized : solver.Sized parameters functions)
    (candidateCost ratio previous : α) (improved : Bool) :
    Leaves (takeOrDrop candidateCost ratio previous improved) solver
      (·.Sized parameters functions) := by
  unfold Leaves takeOrDrop
  rw [ensures_bind, ensures_get, ensures_ite]
  refine ⟨fun _ => sized, fun _ => ?_⟩
  rw [ensures_bind]
  refine (reportProgress_ensures _ _ _).mono ?_ fun _ _ ⟨same, _⟩ => same ▸ sized
  intro _ _ reported
  obtain ⟨trace, rfl⟩ := reported
  rw [ensures_ite]
  have still : Sized { solver with trace := trace } parameters functions :=
    { sized with x := sized.x }
  refine ⟨fun _ => ?_, fun _ => still⟩
  refine (accept_sized still candidateCost).bind fun _ after sized => ?_
  unfold Leaves
  rw [ensures_bind, ensures_get, ensures_ite]
  refine ⟨fun _ => sized, fun _ => ?_⟩
  rw [ensures_bind, ensures_get, ensures_attempt]
  exact ⟨fun _ _ => sized, fun _ _ => sized⟩

theorem judge_sized {solver : Solver σ α} (sized : solver.Sized parameters functions)
    (candidateCost actual predicted : α) :
    Leaves (judge candidateCost actual predicted) solver (·.Sized parameters functions) := by
  unfold Leaves judge
  rw [ensures_bind, ensures_attempt]
  refine ⟨fun ratio _ => ?_, fun _ _ => sized⟩
  rw [ensures_bind, ensures_get]
  dsimp only
  rw [ensures_ite]
  constructor
  · intro _
    rw [ensures_bind]
    refine (lowerDamping_ensures _ _).mono ?_ fun _ _ ⟨same, _⟩ => same ▸ sized
    intro _ _ lowered
    obtain ⟨damping, rfl⟩ := lowered
    refine takeOrDrop_sized ?_ candidateCost ratio _ _
    exact { sized with x := sized.x }
  · intro _
    unfold raiseDamping
    rw [ensures_bind, ensures_modify]
    refine takeOrDrop_sized ?_ candidateCost ratio _ _
    exact { sized with x := sized.x }

theorem consider_sized {solver : Solver σ α} (sized : solver.Sized parameters functions)
    (predicted : α) :
    Leaves (consider predicted) solver (·.Sized parameters functions) := by
  unfold consider
  refine (evaluateCandidate_sized sized).bind fun cost after sized => ?_
  unfold Leaves
  rw [ensures_ite]
  refine ⟨fun _ => sized, fun _ => ?_⟩
  rw [ensures_bind, ensures_get, ensures_ite]
  exact ⟨fun _ => { sized with x := sized.x }, fun _ => judge_sized sized _ _ _⟩

theorem recoverFromFailure_sized {solver : Solver σ α}
    (sized : solver.Sized parameters functions) :
    Leaves recoverFromFailure solver (·.Sized parameters functions) := by
  refine (recoverFromFailure_ensures solver).mono ?_ fun _ _ ⟨same, _⟩ => same ▸ sized
  intro _ _ raised
  obtain ⟨damping, trace, rfl⟩ := raised
  exact { sized with x := sized.x }

theorem computeStep_sized [Spectral α] {solver : Solver σ α}
    (sized : solver.Sized parameters functions) (damping : α) (gradient : Vec α) {out : Vec α}
    (room : out.length = parameters) :
    Ensures (computeStep damping gradient out) solver
      (fun found after => found.1.length = parameters ∧ after.Sized parameters functions)
      fun _ after => after.Sized parameters functions := by
  unfold computeStep
  rw [ensures_bind, ensures_get, ensures_bind, ensures_attempt]
  refine ⟨fun diagonal filled => ?_, fun _ _ => sized⟩
  have size : diagonal.length = parameters :=
    (Vec.length_of_fill? (of_fit filled)).trans sized.dampedDiagonal
  have still (normal : NormalMatrix α) (trace : List (Event α)) : Sized
      { solver with dampedDiagonal := diagonal, normal := normal, trace := trace }
      parameters functions := { sized with dampedDiagonal := size }
  rw [ensures_bind, ensures_modify, ensures_bind, ensures_changeNormal]
  refine ⟨fun normal _ => ?_, fun _ normal _ => still _ _⟩
  rw [ensures_bind, ensures_get, ensures_bind, ensures_attempt]
  refine ⟨fun (prepared, failure?) _ => ?_, fun _ _ => still _ _⟩
  rw [ensures_bind, ensures_modify]
  cases failure? with
  | some failure =>
      rw [ensures_bind, ensures_report, ensures_pure]
      exact ⟨room, still _ _⟩
  | none =>
      rw [ensures_bind, ensures_attempt]
      refine ⟨fun (solution, failure?) solved => ?_, fun _ _ => still _ _⟩
      have solutionSize : solution.length = parameters :=
        (NormalMatrix.length_of_solve solved).trans room
      cases failure? with
      | some failure =>
          rw [ensures_bind, ensures_report, ensures_pure]
          exact ⟨solutionSize, still _ _⟩
      | none => exact ⟨(List.length_map _).trans solutionSize, still _ _⟩

theorem length_of_unscale {solver : Solver σ α} (sized : solver.Sized parameters functions)
    {step unscaled : Vec α} (room : step.length = parameters)
    (found : solver.unscale step = .ok unscaled) : unscaled.length = parameters := by
  unfold unscale at found
  split at found
  · exact Vec.length_of_combine? room sized.scaling (of_fit found)
  · cases found
    exact room

theorem propose_sized [Spectral α] {solver : Solver σ α}
    (sized : solver.Sized parameters functions) :
    Leaves propose solver (·.Sized parameters functions) := by
  unfold Leaves propose
  rw [ensures_bind, ensures_get, ensures_bind]
  refine (computeStep_sized sized _ _ sized.step).mono ?_ fun _ _ sized => sized
  intro (step, found) middle ⟨room, sized⟩
  rw [ensures_bind, ensures_modify, ensures_ite]
  have stepped : Sized { middle with step := step } parameters functions :=
    { sized with step := room }
  refine ⟨fun _ => stepped, fun _ => ?_⟩
  rw [ensures_bind, ensures_get, ensures_bind, ensures_attempt]
  refine ⟨fun predicted _ => ?_, fun _ _ => stepped⟩
  rw [ensures_bind, ensures_get, ensures_bind, ensures_attempt]
  refine ⟨fun unscaled found => ?_, fun _ _ => stepped⟩
  have size : unscaled.length = parameters := length_of_unscale stepped room found
  exact { sized with step := size }

theorem tryStep_sized [Spectral α] {solver : Solver σ α}
    (sized : solver.Sized parameters functions) :
    Leaves tryStep solver (·.Sized parameters functions) := by
  rw [tryStep_eq]
  refine (propose_sized sized).bind fun predicted? middle sized => ?_
  cases predicted? with
  | none => exact recoverFromFailure_sized sized
  | some predicted => exact consider_sized sized predicted

/-! ## Computing derivatives -/

theorem lossResiduals_sized {solver : Solver σ α} (sized : solver.Sized parameters functions) :
    Leaves lossResiduals solver (·.Sized parameters functions) := by
  unfold Leaves lossResiduals
  rw [ensures_bind, ensures_get, ensures_ite]
  refine ⟨fun _ => ?_, fun _ => sized⟩
  rw [ensures_bind, ensures_attempt]
  refine ⟨fun slopes formed => ?_, fun _ _ => sized⟩
  have size : slopes.length = functions :=
    (Loss.length_of_gradientInto formed).trans sized.lossGradient
  exact { sized with lossGradient := size }

theorem deriveWhole_sized {solver : Solver σ α} (sized : solver.Sized parameters functions)
    (jacobian : Derivative α) :
    Leaves (deriveWhole jacobian) solver (·.Sized parameters functions) := by
  unfold Leaves deriveWhole
  cases jacobian with
  | split left right => exact sized
  | whole columns =>
      have updated (normal : NormalMatrix α) :
          Sized { solver with normal := normal } parameters functions := { sized with x := sized.x }
      rw [ensures_bind, ensures_get, ensures_bind, ensures_attempt]
      refine ⟨fun _ _ => ?_, fun _ _ => sized⟩
      rw [ensures_bind, ensures_changeNormal]
      refine ⟨fun normal _ => ?_, fun _ normal _ => updated normal⟩
      refine (lossResiduals_sized (updated normal)).bind fun slopes middle formed => ?_
      unfold Leaves
      rw [ensures_bind, ensures_attempt]
      refine ⟨fun product _ => ?_, fun _ _ => formed⟩
      rw [ensures_bind, ensures_attempt]
      refine ⟨fun gradient filled => ?_, fun _ _ => formed⟩
      have size : gradient.length = parameters :=
        (Vec.length_of_fill? (of_fit filled)).trans sized.gradient
      exact { formed with gradient := size }

theorem deriveSplit_sized {solver : Solver σ α} (sized : solver.Sized parameters functions)
    (jacobian : Derivative α) :
    Leaves (deriveSplit jacobian) solver (·.Sized parameters functions) := by
  have updated (normal : NormalMatrix α) :
      Sized { solver with normal := normal } parameters functions := { sized with x := sized.x }
  unfold Leaves deriveSplit
  rw [ensures_bind, ensures_attempt]
  refine ⟨fun (left, right) _ => ?_, fun _ _ => sized⟩
  rw [ensures_bind, ensures_get, ensures_bind, ensures_attempt]
  refine ⟨fun leftWidth _ => ?_, fun _ _ => sized⟩
  rw [ensures_bind, ensures_attempt]
  refine ⟨fun _ _ => ?_, fun _ _ => sized⟩
  rw [ensures_bind, ensures_attempt]
  refine ⟨fun _ _ => ?_, fun _ _ => sized⟩
  rw [ensures_bind, ensures_changeNormal]
  refine ⟨fun normal _ => ?_, fun _ normal _ => updated normal⟩
  refine (lossResiduals_sized (updated normal)).bind fun slopes middle formed => ?_
  unfold Leaves
  rw [ensures_bind, ensures_attempt]
  refine ⟨fun gradient found => ?_, fun _ _ => formed⟩
  have size : gradient.length = parameters :=
    (SplitNormal.length_of_gradient found).trans sized.gradient
  exact { formed with gradient := size }

theorem rescale_sized {solver : Solver σ α} (sized : solver.Sized parameters functions) :
    Leaves rescale solver (·.Sized parameters functions) := by
  unfold Leaves rescale
  rw [ensures_bind, ensures_get, ensures_bind, ensures_attempt]
  refine ⟨fun diagonal read => ?_, fun _ _ => sized⟩
  have scalingSize : (diagonal.map (scalingFactor solver.settings)).length = parameters := by
    rw [List.length_map, NormalMatrix.length_of_diagonalInto read, sized.scaling]
  rw [ensures_bind, ensures_modify, ensures_bind, ensures_attempt]
  refine ⟨fun gradient divided => ?_, fun _ _ => { sized with scaling := scalingSize }⟩
  have gradientSize : gradient.length = parameters :=
    Vec.length_of_combine? sized.gradient scalingSize (of_fit divided)
  rw [ensures_bind, ensures_modify, ensures_changeNormal]
  exact ⟨fun _ _ => { sized with scaling := scalingSize, gradient := gradientSize },
    fun _ _ _ => { sized with scaling := scalingSize, gradient := gradientSize }⟩

theorem keepDiagonal_sized {solver : Solver σ α} (sized : solver.Sized parameters functions) :
    Leaves keepDiagonal solver (·.Sized parameters functions) := by
  unfold Leaves keepDiagonal
  rw [ensures_bind, ensures_get, ensures_bind, ensures_attempt]
  refine ⟨fun diagonal read => ?_, fun _ _ => sized⟩
  have size : diagonal.length = parameters :=
    (NormalMatrix.length_of_diagonalInto read).trans sized.plainDiagonal
  rw [ensures_bind, ensures_modify, ensures_ite]
  exact ⟨fun _ => { sized with plainDiagonal := size },
    fun _ => { sized with plainDiagonal := size }⟩

theorem prepareSearch_sized {solver : Solver σ α} (sized : solver.Sized parameters functions) :
    Leaves prepareSearch solver (·.Sized parameters functions) := by
  unfold Leaves prepareSearch
  rw [ensures_bind, ensures_get, ensures_ite]
  refine ⟨fun _ => sized, fun _ => ?_⟩
  rw [ensures_ite]
  refine ⟨fun _ => sized, fun _ => ?_⟩
  rw [ensures_ite]
  refine ⟨fun _ => ?_, fun _ => keepDiagonal_sized sized⟩
  exact (rescale_sized sized).bind fun _ _ sized => keepDiagonal_sized sized

theorem derive_sized {solver : Solver σ α} (sized : solver.Sized parameters functions)
    (form : JacobianForm) (jacobian : Derivative α) :
    Leaves (derive form jacobian) solver (·.Sized parameters functions) := by
  cases form with
  | whole => exact deriveWhole_sized sized jacobian
  | split => exact deriveSplit_sized sized jacobian
  | undefined => exact sized

theorem updateDerivatives_sized {solver : Solver σ α} (sized : solver.Sized parameters functions) :
    Leaves updateDerivatives solver (·.Sized parameters functions) := by
  obtain ⟨fault, ran, _⟩ | ⟨problem, given, ran⟩ := updateDerivatives_cases solver
  · exact ensures_of_error ran sized
  refine Ensures.of_run_eq ?_ ran
  rw [ensures_bind, ensures_evaluate]
  have asked (world : σ) : Sized { solver with world := world } parameters functions :=
    { sized with x := sized.x }
  refine ⟨fun jacobian world _ => ?_, fun _ world _ => asked world⟩
  exact (derive_sized (asked world) solver.form jacobian).bind fun _ _ sized =>
    prepareSearch_sized sized

/-! ## Along a run -/

omit [Scalar α] in
theorem conclude_sized {action : Action σ α Bool} {solver : Solver σ α}
    (leaves : Leaves action solver (·.Sized parameters functions)) :
    Leaves (action >>= iterate.conclude) solver (·.Sized parameters functions) :=
  leaves.conclude fun _ _ sized => { sized with x := sized.x }

variable [Spectral α]

theorem iterate_sized {solver : Solver σ α} (sized : solver.Sized parameters functions) :
    Leaves iterate solver (·.Sized parameters functions) := by
  have counted (fullSteps retries : Nat) : Sized { solver with
      updated := false, fullSteps := fullSteps, retries := retries } parameters functions :=
    { sized with x := sized.x }
  unfold Leaves iterate
  rw [ensures_bind, ensures_modify, ensures_bind, ensures_get]
  split
  · rw [ensures_bind, ensures_modify]
    exact conclude_sized (updateDerivatives_sized (counted _ _))
  · rw [ensures_bind, ensures_modify]
    exact conclude_sized (tryStep_sized (counted _ _))
  · exact counted _ _

theorem next_sized {solver : Solver σ α} (sized : solver.Sized parameters functions) :
    solver.next.Sized parameters functions := (iterate_sized sized).leaves

theorem afterCalls_sized {solver : Solver σ α} (sized : solver.Sized parameters functions)
    (count : Nat) : (solver.afterCalls count).Sized parameters functions := by
  induction count with
  | zero => exact sized
  | succ count previous => exact next_sized previous

/-! ## A search has parameters -/

omit [Spectral α] in
/-- Without parameters the gradient vanishes, so no search for a step begins. -/
theorem prepareSearch_of_empty {solver : Solver σ α} (empty : solver.gradient = [])
    (waits : solver.phase ≠ .search) :
    Leaves prepareSearch solver (·.phase ≠ .search) := by
  have vanishes : solver.gradientVanishes solver.gradient = true := by
    rw [empty]
    rfl
  unfold Leaves prepareSearch
  rw [ensures_bind, ensures_get, ensures_ite]
  refine ⟨fun _ => waits, fun _ => ?_⟩
  rw [vanishes, if_pos rfl]
  exact waits

omit [Spectral α] in
theorem updateDerivatives_of_empty {solver : Solver σ α} (sized : solver.Sized 0 functions)
    (waits : solver.phase ≠ .search) :
    Leaves updateDerivatives solver (·.phase ≠ .search) := by
  obtain ⟨fault, ran, _⟩ | ⟨problem, given, ran⟩ := updateDerivatives_cases solver
  · exact ensures_of_error ran waits
  refine Ensures.of_run_eq ?_ ran
  rw [ensures_bind, ensures_evaluate]
  refine ⟨fun jacobian world _ => ?_, fun _ _ _ => waits⟩
  have asked : Sized { solver with world := world } 0 functions := { sized with x := sized.x }
  rw [ensures_bind]
  refine ((derive_sized asked solver.form jacobian).and (derive_derived _ _ jacobian)).mono ?_ ?_
  · intro _ middle derived
    obtain ⟨sized, _, _, _, _, _, _, _, rfl⟩ := derived
    exact prepareSearch_of_empty (List.length_eq_zero_iff.mp sized.gradient) waits
  · intro _ middle derived
    obtain ⟨_, ⟨_, _, _, _, _, _, _, rfl⟩, _⟩ := derived
    exact waits

theorem next_of_empty {solver : Solver σ α} (sized : solver.Sized 0 functions)
    (waits : solver.phase ≠ .search) : solver.next.phase ≠ .search := by
  cases phase : solver.phase with
  | differentiate =>
      have counted : Sized { solver with updated := false, fullSteps := solver.fullSteps + 1 } 0
          functions := { sized with x := sized.x }
      have waiting : Leaves updateDerivatives
          { solver with updated := false, fullSteps := solver.fullSteps + 1 }
            (·.phase ≠ .search) := updateDerivatives_of_empty counted waits
      refine ((waiting.bind fun converged _ waits => ?_).of_run_eq
        (iterate_run_differentiate phase)).leaves
      cases converged with
      | true => exact nofun
      | false => exact waits
  | search => exact (waits phase).elim
  | converged =>
      rw [(rests phase).2]
      exact waits

/-- While a search looks for a step, there is a gradient entry for each of its parameters, and
there is a parameter. -/
theorem gradient_of_search {solver : Solver σ α} (sized : solver.Sized parameters functions)
    (waits : solver.phase ≠ .search) (count : Nat)
    (searching : (solver.afterCalls count).phase = .search) :
    (solver.afterCalls count).gradient ≠ [] := by
  intro empty
  have none : 0 = parameters := by
    rw [← (afterCalls_sized sized count).gradient, empty]
    rfl
  subst none
  have waiting (count : Nat) : (solver.afterCalls count).phase ≠ .search := by
    induction count with
    | zero => exact waits
    | succ count previous => exact next_of_empty (afterCalls_sized sized count) previous
  exact waiting count searching

end Solver

end DampedLeastSquares
