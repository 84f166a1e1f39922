import DampedLeastSquares.Proofs.Exact.Step

/-!
# Exact derivatives of a search

Whatever the layout, computing derivatives ends in the same gradient and in a
normal matrix that represents the same matrix.
-/

set_option autoImplicit false

open scoped Matrix

namespace DampedLeastSquares

open Exact NormalMatrix

/-- The Jacobian has the entries of a matrix of reals, in the form that a solver
works with. -/
def Derivative.Represents {k l : Nat} (jacobian : Derivative ℝ) (form : JacobianForm)
    (matrix : RealMatrix l k) : Prop :=
  match form with
  | .whole => ∃ columns, jacobian = .whole columns ∧ columns.Represents matrix
  | .split => ∃ (left right : Operand ℝ) (n m : Nat) (size : n + m = k),
      jacobian.blocks = .ok (left, right) ∧ left.Represents (leftColumns size matrix) ∧
        right.Represents (rightColumns size matrix)
  | .undefined => False

/-- A Jacobian stands for one matrix only. -/
theorem Derivative.Represents.unique {k l : Nat} {found : Derivative ℝ} {form : JacobianForm}
    {first second : RealMatrix l k} (represents : found.Represents form first)
    (represents' : found.Represents form second) : first = second := by
  cases form with
  | undefined => exact represents.elim
  | whole =>
      obtain ⟨columns, rfl, represents⟩ := represents
      obtain ⟨_, same, represents'⟩ := represents'
      cases same
      exact represents.unique represents'
  | split =>
      obtain ⟨left, right, n, m, size, parts, left_eq, right_eq⟩ := represents
      obtain ⟨_, _, n', m', size', parts', left_eq', right_eq'⟩ := represents'
      cases parts.symm.trans parts'
      obtain rfl : n = n' := by
        have widths := left_eq.width.symm.trans left_eq'.width
        cases widths
        rfl
      obtain rfl : m = m' := Nat.add_left_cancel (size.trans size'.symm)
      have lefts := left_eq.unique left_eq'
      have rights := right_eq.unique right_eq'
      funext row column
      obtain ⟨place, rfl⟩ := (NormalMatrix.joined size).surjective column
      cases place with
      | inl column => exact congrFun (congrFun lefts row) column
      | inr column => exact congrFun (congrFun rights row) column

namespace NormalMatrix

/-- A Jacobian in one piece or cut like the matrix itself. A matrix that is stored densely in one
piece admits no sparse one. -/
def Admits (normal : NormalMatrix ℝ) (form : JacobianForm) (found : Derivative ℝ) : Prop :=
  match form, normal with
  | .whole, .whole normal =>
      normal.method.isSparse = false → ∃ columns, found = .whole (.matrix (.dense columns))
  | .split, .split _ => True
  | _, _ => False

variable (normal : NormalMatrix ℝ)

/-- A fault leaves the layout as it is, like everything else that changes entries. -/
theorem update_layout? (jacobian : Derivative ℝ) :
    (normal.update jacobian).2.layout? = normal.layout? := by
  cases normal with
  | whole normal =>
      cases jacobian with
      | split left right => rfl
      | whole columns =>
          rw [update]
          cases updated : normal.update columns with
          | error fault => rfl
          | ok changed =>
              have same : changed.method = normal.method := by
                unfold WholeNormal.update at updated
                split at updated
                · obtain ⟨_, _, rest⟩ := of_bind updated
                  obtain ⟨_, _, found⟩ := of_bind rest
                  cases found
                  rfl
                · split at updated
                  · cases updated
                  · obtain ⟨_, _, found⟩ := of_bind updated
                    cases found
                    rfl
              simp [kept, Except.map, layout?, same]
  | split normal =>
      cases jacobian with
      | whole columns => rfl
      | split left right =>
          simp only [update, SplitNormal.compute]
          split
          · rfl
          · split
            · rfl
            · split <;> rfl

end NormalMatrix

namespace Solver

variable {σ : Type} {k l : Nat} {solver : Solver σ ℝ}

/-! ## The gradient -/

/-- The slopes are the gradient of the loss at the residuals, whether or not it had to
be computed. -/
theorem lossResiduals_slopes (room : solver.lossGradient.length = l)
    (size : solver.residuals.length = l) :
    Ensures lossResiduals solver
      (fun slopes after => solver.loss.gradientInto l solver.residuals = .ok slopes ∧
        slopes.length = l ∧ ∃ lossGradient : Vec ℝ, lossGradient.length = l ∧
          after = { solver with lossGradient := lossGradient })
      fun _ after => after = solver := by
  unfold lossResiduals
  rw [ensures_bind, ensures_get, ensures_ite]
  constructor
  · intro _
    rw [ensures_bind, ensures_attempt]
    refine ⟨fun slopes found => ?_, fun _ _ => rfl⟩
    rw [room] at found
    have filled : slopes.length = l := by
      unfold Loss.gradientInto at found
      cases slope : solver.loss.gradient solver.residuals with
      | error fault => rw [slope] at found; cases found
      | ok values =>
          rw [slope, ok_bind] at found
          exact Vec.length_of_fill? (of_fit found)
    exact ⟨found, filled, slopes, filled, rfl⟩
  · intro plain
    have same : solver.loss.gradient solver.residuals = .ok solver.residuals := by
      unfold Loss.transformsGradient at plain
      unfold Loss.gradient
      split at plain <;> simp_all
    refine ⟨?_, size, solver.lossGradient, room, rfl⟩
    rw [Loss.gradientInto, same, ok_bind, ← size, Vec.fill?_self]
    rfl

/-- What is left of computing derivatives once the normal matrix is there. -/
noncomputable def gather (jacobian : RealMatrix l k) : Action σ ℝ Unit := do
  let slopes ← lossResiduals
  let gradient ← attempt (Fault.fit
    ((DenseMatrix.ofMatrix jacobian).transposeMulVec? slopes))
  modify fun solver => { solver with gradient := gradient }

variable {jacobian : RealMatrix l k}

/-- Two ways to form a gradient from slopes that agree on the slopes that there are. -/
theorem run_gather (solver : Solver σ ℝ) (size : solver.residuals.length = l)
    (room : solver.lossGradient.length = l) {rest : Vec ℝ → Action σ ℝ Unit}
    (forms : ∀ (slopes : Fin l → ℝ) lossGradient,
      (rest (List.ofFn slopes)).run { solver with lossGradient := lossGradient } =
        (.ok (), { solver with
          lossGradient := lossGradient, gradient := List.ofFn (jacobianᵀ *ᵥ slopes) })) :
    (lossResiduals >>= rest).run solver = (gather jacobian).run solver := by
  unfold gather
  rcases ran : (lossResiduals : Action σ ℝ (Vec ℝ)).run solver with ⟨fault | slopes, after⟩
  · rw [run_bind_error ran, run_bind_error ran]
  · obtain ⟨_, long, lossGradient, _, rfl⟩ := (lossResiduals_slopes room size).of_run_ok ran
    obtain ⟨slopes, rfl⟩ := exists_ofFn long
    rw [run_bind_ok ran, run_bind_ok ran, forms,
      run_attempt_bind_ok (congrArg Fault.fit (DenseMatrix.transposeMulVec?_ofMatrix _ _))]
    rfl

/-- The gradient of the cost is the transposed Jacobian times the gradient of the loss. -/
theorem gather_cases (solver : Solver σ ℝ) (jacobian : RealMatrix l k)
    (size : solver.residuals.length = l) (room : solver.lossGradient.length = l) :
    (∃ fault, (gather jacobian).run solver = (.error fault, solver)) ∨
      ∃ (slopes : Fin l → ℝ) (lossGradient : Vec ℝ), lossGradient.length = l ∧
        solver.loss.gradientInto l solver.residuals = .ok (List.ofFn slopes) ∧
        (gather jacobian).run solver = (.ok (), { solver with
          lossGradient := lossGradient, gradient := List.ofFn (jacobianᵀ *ᵥ slopes) }) := by
  unfold gather
  rcases ran : (lossResiduals : Action σ ℝ (Vec ℝ)).run solver with ⟨fault | slopes, after⟩
  · cases (lossResiduals_slopes room size).of_run_error ran
    exact .inl ⟨fault, run_bind_error ran⟩
  · obtain ⟨found, long, lossGradient, room, rfl⟩ := (lossResiduals_slopes room size).of_run_ok ran
    obtain ⟨slopes, rfl⟩ := exists_ofFn long
    refine .inr ⟨slopes, lossGradient, room, found, ?_⟩
    rw [run_bind_ok ran,
      run_attempt_bind_ok (congrArg Fault.fit (DenseMatrix.transposeMulVec?_ofMatrix _ _))]
    rfl

theorem lossResiduals_run (room : solver.lossGradient.length = l)
    (size : solver.residuals.length = l) {slopes : Vec ℝ}
    (found : solver.loss.gradientInto l solver.residuals = .ok slopes) :
    ∃ lossGradient : Vec ℝ, lossGradient.length = l ∧
      lossResiduals.run solver = (.ok slopes, { solver with lossGradient := lossGradient }) := by
  have known := lossResiduals_slopes room size
  rcases ran : (lossResiduals : Action σ ℝ (Vec ℝ)).run solver with ⟨fault | other, after⟩
  · exfalso
    unfold lossResiduals at ran
    rw [run_get_bind] at ran
    split at ran
    · rw [room, found] at ran
      cases ran
    · cases ran
  · obtain ⟨found', _, lossGradient, room, rfl⟩ := known.of_run_ok ran
    cases found.symm.trans found'
    exact ⟨lossGradient, room, rfl⟩

/-- Where the loss has slopes, the gradient of the cost is formed. -/
theorem gather_run (jacobian : RealMatrix l k) (size : solver.residuals.length = l)
    (room : solver.lossGradient.length = l) {slopes : Fin l → ℝ}
    (found : solver.loss.gradientInto l solver.residuals = .ok (List.ofFn slopes)) :
    ∃ lossGradient : Vec ℝ, lossGradient.length = l ∧
      (gather jacobian).run solver = (.ok (), { solver with
        lossGradient := lossGradient, gradient := List.ofFn (jacobianᵀ *ᵥ slopes) }) := by
  obtain ⟨lossGradient, room, ran⟩ := lossResiduals_run room size found
  refine ⟨lossGradient, room, ?_⟩
  unfold gather
  rw [run_bind_ok ran,
    run_attempt_bind_ok (congrArg Fault.fit (DenseMatrix.transposeMulVec?_ofMatrix _ _))]
  rfl

/-! ## The normal matrix -/

theorem checkShape_ok {columns : Operand ℝ} (shape : columns.shape = [l, k]) :
    checkShape l k columns = .ok () := by
  simp [checkShape, shape]

theorem of_checkShape {columns : Operand ℝ} {rows : Nat} {width : Int}
    (checked : checkShape rows width columns = .ok ()) :
    columns.shape.map Int.ofNat = [(rows : Int), width] := by
  unfold checkShape at checked
  dsimp only at checked
  split at checked
  · next same => exact same
  · cases checked

theorem of_checkShapes (sized : solver.Sized k l) {left right : Operand ℝ} {n : Nat}
    (checked : checkShape solver.residuals.length n left = .ok ())
    (checked' : checkShape solver.residuals.length (solver.x.length - n) right = .ok ()) :
    ∃ m, n + m = k ∧ left.shape = [l, n] ∧ right.shape = [l, m] := by
  have extents := of_checkShape checked
  have extents' := of_checkShape checked'
  rw [sized.residuals] at extents extents'
  rw [sized.x] at extents'
  have shape : left.shape = [l, n] := List.map_injective_iff.mpr Int.ofNat_injective extents
  have rank : right.shape.length = 2 := by
    rw [← List.length_map Int.ofNat, extents']
    rfl
  obtain ⟨height, width, shape'⟩ := List.length_eq_two.mp rank
  rw [shape'] at extents'
  simp only [List.map_cons, List.map_nil, List.cons.injEq, and_true, Int.ofNat_eq_natCast,
    Nat.cast_inj] at extents'
  obtain ⟨rfl, rest⟩ := extents'
  exact ⟨width, by omega, shape, shape'⟩

/-- What is left of forming normal matrix and gradient from one piece of the right size. -/
noncomputable def takeWhole (columns : Operand ℝ) (length : Nat) : Action σ ℝ Unit := do
  changeNormal fun normal => normal.update (.whole columns)
  let slopes ← lossResiduals
  let product ← attempt (columns.transposeMul (.ofVec slopes))
  let gradient ← attempt (Fault.fit (Vec.fill? length product.toTensor.flatten))
  modify fun solver => { solver with gradient := gradient }

/-- What is left of forming normal matrix and gradient from blocks of the right sizes. -/
noncomputable def takeBlocks (left right : Operand ℝ) (length : Nat) : Action σ ℝ Unit := do
  changeNormal fun normal => normal.update (.split left right)
  let slopes ← lossResiduals
  let gradient ← attempt (SplitNormal.gradient left right slopes (some length))
  modify fun solver => { solver with gradient := gradient }

theorem run_update {found : Derivative ℝ} {ending : Except (Fault ℝ) Unit}
    {changed : NormalMatrix ℝ} (updated : solver.normal.update found = (ending, changed)) :
    (changeNormal fun normal => normal.update found : Action σ ℝ Unit).run solver =
      (ending, { solver with normal := changed }) := by
  rw [run_changeNormal, updated]

theorem takeWhole_run (sized : solver.Sized k l) {columns : Operand ℝ}
    (represents : columns.Represents jacobian) {changed : NormalMatrix ℝ}
    (updated : solver.normal.update (.whole columns) = (.ok (), changed)) :
    (takeWhole columns solver.gradient.length).run solver =
      (gather jacobian).run { solver with normal := changed } := by
  unfold takeWhole
  rw [run_bind_ok (run_update updated)]
  refine run_gather { solver with normal := changed } sized.residuals sized.lossGradient
    fun slopes lossGradient => ?_
  have filled : Vec.fill? solver.gradient.length
      (Operand.ofVec (List.ofFn (jacobianᵀ *ᵥ slopes))).toTensor.flatten =
        some (List.ofFn (jacobianᵀ *ᵥ slopes)) := by
    rw [sized.gradient]
    exact fill?_ofFn _
  rw [run_attempt_bind_ok (represents.transposeMul_vector slopes),
    run_attempt_bind_ok (congrArg Fault.fit filled)]
  rfl

theorem takeBlocks_run (sized : solver.Sized k l) {left right : Operand ℝ} {n m : Nat}
    (size : n + m = k) (left_eq : left.Represents (leftColumns size jacobian))
    (right_eq : right.Represents (rightColumns size jacobian)) {changed : NormalMatrix ℝ}
    (updated : solver.normal.update (.split left right) = (.ok (), changed)) :
    (takeBlocks left right solver.gradient.length).run solver =
      (gather jacobian).run { solver with normal := changed } := by
  unfold takeBlocks
  rw [run_bind_ok (run_update updated)]
  refine run_gather { solver with normal := changed } sized.residuals sized.lossGradient
    fun slopes lossGradient => ?_
  have gradient : SplitNormal.gradient left right (List.ofFn slopes)
      (some solver.gradient.length) = .ok (List.ofFn (jacobianᵀ *ᵥ slopes)) := by
    rw [sized.gradient]
    exact SplitNormal.gradient_eq size left_eq right_eq slopes
  rw [run_attempt_bind_ok gradient]
  rfl

theorem deriveWhole_run (sized : solver.Sized k l) {columns : Operand ℝ}
    (represents : columns.Represents jacobian) {changed : NormalMatrix ℝ}
    (updated : solver.normal.update (.whole columns) = (.ok (), changed)) :
    (deriveWhole (.whole columns)).run solver =
      (gather jacobian).run { solver with normal := changed } := by
  have checked : checkShape solver.residuals.length solver.x.length columns = .ok () := by
    rw [sized.residuals, sized.x]
    exact checkShape_ok represents.shape
  unfold deriveWhole
  rw [run_get_bind, run_attempt_bind_ok checked]
  exact takeWhole_run sized represents updated

theorem deriveSplit_run (sized : solver.Sized k l) {found : Derivative ℝ}
    {left right : Operand ℝ} (parts : found.blocks = .ok (left, right)) {n m : Nat}
    (size : n + m = k) (left_eq : left.Represents (leftColumns size jacobian))
    (right_eq : right.Represents (rightColumns size jacobian)) {changed : NormalMatrix ℝ}
    (updated : solver.normal.update (.split left right) = (.ok (), changed)) :
    (deriveSplit found).run solver = (gather jacobian).run { solver with normal := changed } := by
  have checked : checkShape solver.residuals.length n left = .ok () := by
    rw [sized.residuals]
    exact checkShape_ok left_eq.shape
  have checked' : checkShape solver.residuals.length (solver.x.length - n) right = .ok () := by
    have rest : ((solver.x.length : Int) - n) = m := by
      rw [sized.x]
      omega
    rw [sized.residuals, rest]
    exact checkShape_ok right_eq.shape
  unfold deriveSplit
  rw [run_attempt_bind_ok parts]
  dsimp only
  rw [run_get_bind, run_attempt_bind_ok left_eq.width, run_attempt_bind_ok checked,
    run_attempt_bind_ok checked']
  exact takeBlocks_run sized size left_eq right_eq updated

/-- A Jacobian that the normal matrix admits is followed by the gradient. -/
theorem derive_run (sized : solver.Sized k l) {form : JacobianForm} {found : Derivative ℝ}
    (represents : found.Represents form jacobian) (admits : solver.normal.Admits form found) :
    ∃ changed : NormalMatrix ℝ, changed.Represents (jacobianᵀ * jacobian) ∧
      changed.layout? = solver.normal.layout? ∧
      (derive form found).run solver = (gather jacobian).run { solver with normal := changed } := by
  cases form with
  | undefined => exact represents.elim
  | whole =>
      obtain ⟨columns, rfl, represents⟩ := represents
      cases held : solver.normal with
      | split normal =>
          rw [held] at admits
          exact admits.elim
      | whole normal =>
          rw [held] at admits
          obtain ⟨changed, updated, product, layout⟩ := @update_whole _ _ _ normal _ represents
            fun dense => by
              obtain ⟨columns, same⟩ := admits dense
              cases same
              exact ⟨columns, rfl⟩
          rw [← held] at updated
          exact ⟨changed, product, layout, deriveWhole_run sized represents updated⟩
  | split =>
      obtain ⟨left, right, n, m, size, parts, left_eq, right_eq⟩ := represents
      cases held : solver.normal with
      | whole normal =>
          rw [held] at admits
          exact admits.elim
      | split normal =>
          obtain ⟨changed, updated, product, layout⟩ :=
            @update_split _ _ _ _ _ normal _ _ size left_eq right_eq
          rw [← held] at updated
          exact ⟨changed, product, layout,
            deriveSplit_run sized parts size left_eq right_eq updated⟩

/-- Computing derivatives either goes on with the gradient, once the Jacobian was taken for a
matrix of the right size, or it ends in a fault that changed at most the normal matrix. -/
def Derives (solver : Solver σ ℝ) (parameters functions : Nat) (form : JacobianForm)
    (found : Derivative ℝ) (action : Action σ ℝ Unit) : Prop :=
  (∃ (jacobian : RealMatrix functions parameters) (changed : NormalMatrix ℝ),
      found.Represents form jacobian ∧ changed.Represents (jacobianᵀ * jacobian) ∧
      changed.layout? = solver.normal.layout? ∧
      action.run solver = (gather jacobian).run { solver with normal := changed }) ∨
    ∃ (fault : Fault ℝ) (changed : NormalMatrix ℝ),
      changed.layout? = solver.normal.layout? ∧
      action.run solver = (.error fault, { solver with normal := changed })

section Rules

variable {form : JacobianForm} {found : Derivative ℝ}

theorem Derives.of_run_eq {action other : Action σ ℝ Unit}
    (derives : solver.Derives k l form found other) (same : action.run solver = other.run solver) :
    solver.Derives k l form found action := by
  unfold Derives at derives ⊢
  rwa [same]

theorem Derives.of_error {action : Action σ ℝ Unit} {fault : Fault ℝ}
    (ran : action.run solver = (.error fault, solver)) :
    solver.Derives k l form found action :=
  .inr ⟨fault, solver.normal, rfl, ran⟩

theorem Derives.attempt_bind {γ : Type} {result : Except (Fault ℝ) γ}
    {next : γ → Action σ ℝ Unit}
    (continues : ∀ value, result = .ok value → solver.Derives k l form found (next value)) :
    solver.Derives k l form found (attempt result >>= next) := by
  cases ended : result with
  | error fault => exact .of_error (run_attempt_bind_error rfl)
  | ok value => exact (continues value ended).of_run_eq (run_attempt_bind_ok rfl)

theorem Derives.get_bind {next : Solver σ ℝ → Action σ ℝ Unit}
    (continues : solver.Derives k l form found (next solver)) :
    solver.Derives k l form found (get >>= next) :=
  continues.of_run_eq run_get_bind

end Rules

theorem takeWhole_cases (sized : solver.Sized k l) {columns : Operand ℝ}
    (shape : columns.shape = [l, k]) :
    solver.Derives k l .whole (.whole columns) (takeWhole columns solver.gradient.length) := by
  have layout := solver.normal.update_layout? (.whole columns)
  rcases updated : solver.normal.update (.whole columns) with ⟨fault | _, changed⟩
  · rw [updated] at layout
    exact .inr ⟨fault, changed, layout, run_bind_error (run_update updated)⟩
  · rw [updated] at layout
    obtain ⟨jacobian, represents, product⟩ : ∃ jacobian : RealMatrix l k,
        columns.Represents jacobian ∧ changed.Represents (jacobianᵀ * jacobian) := by
      cases held : solver.normal with
      | whole normal =>
          rw [held] at updated
          obtain ⟨jacobian, represents, product, _⟩ := of_update_whole shape updated
          exact ⟨jacobian, represents, product⟩
      | split normal =>
          rw [held] at updated
          cases updated
    exact .inl ⟨jacobian, changed, ⟨columns, rfl, represents⟩, product, layout,
      takeWhole_run sized represents updated⟩

theorem takeBlocks_cases (sized : solver.Sized k l) {found : Derivative ℝ} {left right : Operand ℝ}
    (parts : found.blocks = .ok (left, right)) {n m : Nat} (size : n + m = k)
    (shape : left.shape = [l, n]) (shape' : right.shape = [l, m]) :
    solver.Derives k l .split found (takeBlocks left right solver.gradient.length) := by
  have layout := solver.normal.update_layout? (.split left right)
  rcases updated : solver.normal.update (.split left right) with ⟨fault | _, changed⟩
  · rw [updated] at layout
    exact .inr ⟨fault, changed, layout, run_bind_error (run_update updated)⟩
  · rw [updated] at layout
    obtain ⟨jacobian, left_eq, right_eq, product⟩ : ∃ jacobian : RealMatrix l k,
        left.Represents (leftColumns size jacobian) ∧
        right.Represents (rightColumns size jacobian) ∧
        changed.Represents (jacobianᵀ * jacobian) := by
      cases held : solver.normal with
      | whole normal =>
          rw [held] at updated
          cases updated
      | split normal =>
          rw [held] at updated
          obtain ⟨jacobian, left_eq, right_eq, product, _⟩ :=
            of_update_split shape shape' size updated
          exact ⟨jacobian, left_eq, right_eq, product⟩
    exact .inl ⟨jacobian, changed, ⟨left, right, n, m, size, parts, left_eq, right_eq⟩, product,
      layout, takeBlocks_run sized size left_eq right_eq updated⟩

theorem deriveWhole_cases (sized : solver.Sized k l) (found : Derivative ℝ) :
    solver.Derives k l .whole found (deriveWhole found) := by
  cases found with
  | split left right => exact .of_error rfl
  | whole columns =>
      unfold deriveWhole
      refine .get_bind (.attempt_bind fun _ checked => ?_)
      have extents := of_checkShape checked
      rw [sized.residuals, sized.x] at extents
      exact takeWhole_cases sized (List.map_injective_iff.mpr Int.ofNat_injective extents)

theorem deriveSplit_cases (sized : solver.Sized k l) (found : Derivative ℝ) :
    solver.Derives k l .split found (deriveSplit found) := by
  unfold deriveSplit
  refine .attempt_bind fun (left, right) parts => ?_
  refine .get_bind (.attempt_bind fun n _ => ?_)
  refine .attempt_bind fun _ checked => .attempt_bind fun _ checked' => ?_
  obtain ⟨m, size, shape, shape'⟩ := of_checkShapes sized checked checked'
  exact takeBlocks_cases sized parts size shape shape'

theorem derive_cases (sized : solver.Sized k l) (form : JacobianForm) (found : Derivative ℝ) :
    solver.Derives k l form found (derive form found) := by
  cases form with
  | whole => exact deriveWhole_cases sized found
  | split => exact deriveSplit_cases sized found
  | undefined => exact .inr ⟨.undefined, solver.normal, rfl, rfl⟩

/-! ## Scaling -/

theorem gradientVanishes_iff (solver : Solver σ ℝ) (gradient : Vec ℝ) :
    solver.gradientVanishes gradient = true ↔
      ∀ entry ∈ gradient, |entry| ≤ solver.settings.gradientTolerance := by
  unfold gradientVanishes
  cases found : Vec.maxAbs? gradient with
  | none =>
      cases gradient with
      | nil => simp
      | cons first rest => cases found
  | some largest => exact decide_eq_true_iff.trans (maxAbs?_le found _)

/-- The units that parameters are measured in. -/
noncomputable def scales (settings : Settings ℝ) (matrix : RealMatrix k k) : Fin k → ℝ :=
  fun index =>
    if settings.rescaling then scalingFactor settings (matrix index index) else 1

theorem scales_eq_one {settings : Settings ℝ} (plain : settings.rescaling = false)
    (matrix : RealMatrix k k) : scales settings matrix = 1 := by
  funext index
  simp [scales, plain]

variable {matrix : RealMatrix k k}

theorem rescale_run (represents : solver.normal.Represents matrix)
    (room : solver.scaling.length = k) {gradient : Fin k → ℝ}
    (gradient_eq : solver.gradient = List.ofFn gradient) {scaling : Fin k → ℝ}
    (scaling_eq : scaling = fun index => scalingFactor solver.settings (matrix index index)) :
    ∃ changed : NormalMatrix ℝ, changed.Represents (divided matrix scaling) ∧
      changed.layout? = solver.normal.layout? ∧
      rescale.run solver = (.ok (), { solver with
        scaling := List.ofFn scaling, gradient := List.ofFn (gradient / scaling)
        normal := changed }) := by
  have found : solver.normal.diagonalInto solver.scaling.length =
      .ok (List.ofFn fun index => matrix index index) := by
    rw [room]
    exact represents.diagonalInto
  have chosen : (List.ofFn fun index => matrix index index).map (scalingFactor solver.settings) =
      List.ofFn scaling := by
    rw [scaling_eq, List.map_ofFn]
    rfl
  obtain ⟨changed, divided, represents, layout⟩ := represents.divide scaling
  refine ⟨changed, represents, layout, ?_⟩
  have quotient : Fault.fit (Vec.combine? (· / ·) solver.gradient (List.ofFn scaling)) =
      (.ok (List.ofFn (gradient / scaling)) : Except (Fault ℝ) (Vec ℝ)) := by
    rw [gradient_eq, combine?_ofFn]
    rfl
  unfold rescale
  rw [run_get_bind, run_attempt_bind_ok found]
  dsimp only
  rw [chosen, run_modify_bind, run_attempt_bind_ok quotient, run_modify_bind, run_changeNormal]
  dsimp only
  rw [divided]

theorem keepDiagonal_run (represents : solver.normal.Represents matrix)
    (room : solver.plainDiagonal.length = k) :
    keepDiagonal.run solver = (.ok false, { solver with
      plainDiagonal := List.ofFn fun index => matrix index index, phase := .search }) := by
  have found : solver.normal.diagonalInto solver.plainDiagonal.length =
      .ok (List.ofFn fun index => matrix index index) := by
    rw [room]
    exact represents.diagonalInto
  unfold keepDiagonal
  rw [run_get_bind, run_attempt_bind_ok found, run_modify_bind, allFinite_vec]
  rfl

/-- Unless the gradient vanishes, gradient and normal matrix are brought to the units, and the
diagonal is kept aside before anything is damped. -/
theorem prepareSearch_run (sized : solver.Sized k l)
    (represents : solver.normal.Represents matrix) {gradient : Fin k → ℝ}
    (gradient_eq : solver.gradient = List.ofFn gradient) {scaling : Fin k → ℝ}
    (scaling_eq : scaling = scales solver.settings matrix) :
    (solver.gradientVanishes solver.gradient = true →
        prepareSearch.run solver = (.ok true, solver)) ∧
      (solver.gradientVanishes solver.gradient = false → ∃ changed : NormalMatrix ℝ,
        changed.Represents (divided matrix scaling) ∧
        changed.layout? = solver.normal.layout? ∧
        prepareSearch.run solver = (.ok false, { solver with
          scaling := if solver.settings.rescaling then List.ofFn scaling else solver.scaling
          gradient := List.ofFn (gradient / scaling), normal := changed
          plainDiagonal := List.ofFn fun index => divided matrix scaling index index
          phase := .search })) := by
  constructor
  · intro vanishes
    unfold prepareSearch
    rw [run_get_bind, allFinite_vec, vanishes]
    rfl
  · intro remains
    have start : prepareSearch.run solver = (do
        if solver.settings.rescaling then rescale
        keepDiagonal : Action σ ℝ Bool).run solver := by
      unfold prepareSearch
      rw [run_get_bind, allFinite_vec, remains]
      rfl
    rw [start]
    cases rescaling : solver.settings.rescaling with
    | true =>
        have chosen : scaling = fun index =>
            scalingFactor solver.settings (matrix index index) := by
          rw [scaling_eq]
          funext index
          simp [scales, rescaling]
        obtain ⟨changed, represents, layout, ran⟩ :=
          rescale_run represents sized.scaling gradient_eq chosen
        refine ⟨changed, represents, layout, ?_⟩
        rw [if_pos rfl, run_bind_ok ran]
        exact keepDiagonal_run represents sized.plainDiagonal
    | false =>
        have plain : scaling = 1 := scaling_eq.trans (scales_eq_one rescaling matrix)
        have same : divided matrix scaling = matrix := by
          rw [plain, divided_one]
        refine ⟨solver.normal, same.symm ▸ represents, rfl, ?_⟩
        rw [if_neg Bool.false_ne_true, keepDiagonal_run represents sized.plainDiagonal, same, plain,
          div_one, ← gradient_eq]
        rfl

end Solver

end DampedLeastSquares
