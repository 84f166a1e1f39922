import DampedLeastSquares.Solver.Iterate

/-!
# Faults of computations

Only a search decides that it cannot go on. Arrays that do not fit, entries that
are not there and arguments that are refused end a computation with a fault of
another kind, so a breakdown is always one that the search itself or one of the
caller's functions raised.
-/

set_option autoImplicit false

namespace DampedLeastSquares

variable {α β γ : Type}

/-- The computation does not end in a breakdown. -/
def Ordinary (result : Except (Fault α) β) : Prop :=
  ∀ reason, result ≠ .error (.breakdown reason)

theorem of_fit {found? : Option β} {value : β}
    (fits : Fault.fit found? = (.ok value : Except (Fault α) β)) : found? = some value := by
  cases found? with
  | none => cases fits
  | some found => cases fits; rfl

theorem fit_some (value : β) : (Fault.fit (some value) : Except (Fault α) β) = .ok value := rfl

theorem ok_bind (value : γ) (next : γ → Except (Fault α) β) :
    (Except.ok value >>= next) = next value := rfl

theorem of_bind {first : Except (Fault α) γ} {next : γ → Except (Fault α) β} {result : β}
    (success : (first >>= next) = .ok result) :
    ∃ value, first = .ok value ∧ next value = .ok result := by
  cases first with
  | error fault => cases success
  | ok value => exact ⟨value, rfl, success⟩

section Rules

@[simp] theorem ordinary_ok (value : β) : Ordinary (.ok value : Except (Fault α) β) := nofun

@[simp] theorem ordinary_pure (value : β) : Ordinary (pure value : Except (Fault α) β) := nofun

@[simp] theorem ordinary_error {fault : Fault α} :
    Ordinary (.error fault : Except (Fault α) β) ↔ ∀ reason, fault ≠ .breakdown reason := by
  simp [Ordinary]

@[simp] theorem ordinary_throw {fault : Fault α} :
    Ordinary (throw fault : Except (Fault α) β) ↔ ∀ reason, fault ≠ .breakdown reason :=
  ordinary_error

@[simp] theorem ordinary_fit (found? : Option β) :
    Ordinary (Fault.fit found? : Except (Fault α) β) := by
  cases found? <;> nofun

@[simp] theorem ordinary_present (found? : Option β) :
    Ordinary (Fault.present found? : Except (Fault α) β) := by
  cases found? <;> nofun

/-- A fault that is passed on stays ordinary. -/
theorem Ordinary.passedOn {first : Except (Fault α) γ} {fault : Fault α}
    (start : Ordinary first) (failed : first = .error fault) :
    Ordinary (.error fault : Except (Fault α) β) := by
  intro reason same
  cases same
  exact start reason failed

theorem ordinary_bind {first : Except (Fault α) γ} {next : γ → Except (Fault α) β}
    (start : Ordinary first) (rest : ∀ value, Ordinary (next value)) :
    Ordinary (first >>= next) := by
  cases first with
  | error fault => exact start.passedOn rfl
  | ok value => exact rest value

theorem ordinary_map {first : Except (Fault α) γ} (function : γ → β)
    (start : Ordinary first) : Ordinary (first.map function) := by
  cases first with
  | error fault => exact start.passedOn rfl
  | ok value => nofun

end Rules

/-! ## Arrays -/

namespace Operand

variable (operand : Operand α)

theorem ordinary_axial : Ordinary operand.axial := by
  unfold axial
  split <;> simp

theorem ordinary_height : Ordinary operand.height := ordinary_present _

theorem ordinary_width : Ordinary operand.width :=
  ordinary_bind operand.ordinary_axial fun _ => ordinary_present _

variable [Scalar α]

theorem ordinary_toSparse : Ordinary operand.toSparse := by
  unfold toSparse
  split
  · simp
  · split <;> simp

theorem ordinary_product (left right : Operand α) : Ordinary (left.product right) := by
  unfold product
  split
  · exact ordinary_fit _
  all_goals
    split
    · exact ordinary_fit _
    · simp

theorem ordinary_transposeMul (left right : Operand α) : Ordinary (left.transposeMul right) := by
  refine ordinary_bind left.ordinary_axial fun first =>
    ordinary_bind (ordinary_product first right) fun found => ?_
  split <;> simp

theorem ordinary_apply (vector : Vec α) : Ordinary (operand.apply vector) := by
  unfold apply
  split
  · exact ordinary_fit _
  · split
    · exact ordinary_fit _
    · simp

theorem ordinary_innerProduct (left right : Vec α) :
    Ordinary (innerProduct left operand right) :=
  ordinary_bind (operand.ordinary_apply right) fun _ => ordinary_fit _

theorem ordinary_diagonal : Ordinary operand.diagonal := ordinary_fit _

theorem ordinary_replaceDiagonal (diagonal : Vec α) :
    Ordinary (operand.replaceDiagonal diagonal) := ordinary_fit _

theorem ordinary_divide (rows columns : Vec α) : Ordinary (operand.divide rows columns) := by
  unfold divide
  split
  · exact ordinary_fit _
  · split
    · exact ordinary_fit _
    · simp

end Operand

theorem SparseMatrix.ordinary_positiveFactor? [Scalar α] (matrix : SparseMatrix α) :
    Ordinary matrix.positiveFactor? := by
  unfold positiveFactor?
  split
  · split <;> simp
  · simp

/-! ## Normal matrices -/

section Normal

variable [Scalar α]

namespace WholeNormal

variable (normal : WholeNormal α)

theorem ordinary_update (jacobian : Operand α) : Ordinary (normal.update jacobian) := by
  unfold update
  split
  · exact ordinary_bind jacobian.ordinary_toSparse fun columns =>
      ordinary_bind (ordinary_fit _) fun _ => ordinary_pure _
  · split
    · simp
    · exact ordinary_bind (Operand.ordinary_transposeMul _ _) fun _ => ordinary_pure _

theorem ordinary_prepare : Ordinary normal.prepare := by
  unfold prepare
  dsimp only
  split
  · simp
  · split
    · simp
    · split <;> simp
  · split <;> simp
  · refine ordinary_bind (Operand.ordinary_toSparse _) fun found =>
      ordinary_bind found.ordinary_positiveFactor? fun factors? => ?_
    split <;> simp

theorem ordinary_written (out solution : Vec α) : Ordinary (written out solution) :=
  ordinary_bind (ordinary_fit _) fun _ => ordinary_pure _

theorem ordinary_solve [Spectral α] (rhs out : Vec α) : Ordinary (normal.solve rhs out) := by
  have leastNorm (matrix : Operand α) (cutoff : α) :
      Ordinary (solveLeastNorm matrix cutoff rhs out) := by
    unfold solveLeastNorm
    split
    · exact ordinary_written _ _
    · simp
  unfold solve
  dsimp only
  split
  · simp
  · exact ordinary_bind (ordinary_fit _) fun _ => ordinary_written _ _
  · exact leastNorm _ _
  · exact leastNorm _ _

end WholeNormal

namespace SplitNormal

variable (normal : SplitNormal α)

theorem ordinary_stored (asSparse : Bool) (columns : Operand α) :
    Ordinary (stored asSparse columns) := by
  unfold stored
  split
  · simp
  · split
    · exact ordinary_map _ (Operand.ordinary_toSparse _)
    · simp

theorem ordinary_startOf (left right : Operand α) : Ordinary (normal.startOf left right) :=
  ordinary_bind (ordinary_stored _ _) fun first =>
    ordinary_bind (ordinary_stored _ _) fun _ =>
      ordinary_bind (Operand.ordinary_product first first) fun _ => ordinary_pure _

theorem ordinary_compute (left right : Operand α) : Ordinary (normal.compute left right).1 := by
  unfold compute
  split
  · next fault failed => exact (normal.ordinary_startOf left right).passedOn failed
  · next first second upper started =>
      split
      · next fault failed => exact (Operand.ordinary_product first second).passedOn failed
      · split
        · next fault failed => exact (Operand.ordinary_product second second).passedOn failed
        · simp

theorem ordinary_gradient (left right : Operand α) (residuals : Vec α) (length? : Option Nat) :
    Ordinary (gradient left right residuals length?) := by
  have product (columns : Operand α) (length : Nat) :
      Ordinary (gradient.product residuals columns length) :=
    ordinary_bind (Operand.ordinary_transposeMul _ _) fun _ => ordinary_fit _
  have into (leftWidth length : Nat) :
      Ordinary (gradient.into left right residuals leftWidth length) :=
    ordinary_bind (product _ _) fun _ => ordinary_bind (product _ _) fun _ => ordinary_pure _
  unfold gradient
  refine ordinary_bind left.ordinary_width fun leftWidth => ?_
  split
  · exact into leftWidth _
  · exact ordinary_bind right.ordinary_width fun rightWidth =>
      into leftWidth (leftWidth + rightWidth)

theorem ordinary_quadraticForm (vector : Vec α) : Ordinary (normal.quadraticForm vector) := by
  refine ordinary_bind (Operand.ordinary_height _) fun size =>
    ordinary_bind (Operand.ordinary_innerProduct _ _ _) fun upper =>
      ordinary_bind (Operand.ordinary_height _) fun rest => ?_
  split
  · simp
  · exact ordinary_bind (Operand.ordinary_innerProduct _ _ _) fun _ =>
      ordinary_bind (Operand.ordinary_innerProduct _ _ _) fun _ => ordinary_pure _

theorem ordinary_diagonal : Ordinary normal.diagonal :=
  ordinary_bind (Operand.ordinary_diagonal _) fun _ =>
    ordinary_bind (Operand.ordinary_diagonal _) fun _ => ordinary_pure _

theorem ordinary_setDiagonal (diagonal : Vec α) : Ordinary (normal.setDiagonal diagonal).1 := by
  unfold setDiagonal
  split
  · next fault failed => exact (Operand.ordinary_height normal.left).passedOn failed
  · split
    · next fault failed => exact (Operand.ordinary_replaceDiagonal normal.left _).passedOn failed
    · dsimp only
      split
      · next fault failed => exact (Operand.ordinary_replaceDiagonal normal.right _).passedOn failed
      · simp

theorem ordinary_divide (scaling : Vec α) : Ordinary (normal.divide scaling).1 := by
  unfold divide
  split
  · next fault failed => exact (Operand.ordinary_height normal.left).passedOn failed
  · dsimp only
    split
    · next fault failed => exact (Operand.ordinary_divide normal.left _ _).passedOn failed
    · split
      · next fault failed => exact (Operand.ordinary_divide normal.coupling _ _).passedOn failed
      · split
        · next fault failed => exact (Operand.ordinary_divide normal.right _ _).passedOn failed
        · simp

theorem ordinary_prepare : Ordinary normal.prepare := by
  unfold prepare
  dsimp only
  split
  · exact ordinary_bind (Operand.ordinary_toSparse _) fun found =>
      ordinary_bind found.ordinary_positiveFactor? fun _ => ordinary_pure _
  · exact ordinary_bind (ordinary_pure _) fun _ => ordinary_pure _

theorem ordinary_solve (rhs out : Vec α) : Ordinary (normal.solve rhs out) := by
  unfold solve
  split
  · simp
  · refine ordinary_bind (Operand.ordinary_height _) fun size =>
      ordinary_bind (ordinary_fit _) fun eliminated =>
        ordinary_bind (Operand.ordinary_height _) fun rest => ?_
    split
    · exact WholeNormal.ordinary_written _ _
    · refine ordinary_bind (ordinary_fit _) fun coupling =>
        ordinary_bind (ordinary_fit _) fun right =>
          ordinary_bind (ordinary_fit _) fun share =>
            ordinary_bind (ordinary_fit _) fun second =>
              ordinary_bind (ordinary_fit _) fun reduced => ?_
      split
      · simp
      · exact ordinary_bind (ordinary_fit _) fun lower =>
          ordinary_bind (ordinary_fit _) fun coupled =>
            ordinary_bind (ordinary_fit _) fun back =>
              ordinary_bind (ordinary_fit _) fun upper =>
                ordinary_bind (ordinary_fit _) fun leftOut =>
                  ordinary_bind (ordinary_fit _) fun rightOut => ordinary_pure _

end SplitNormal

namespace NormalMatrix

variable (normal : NormalMatrix α)

omit [Scalar α] in
theorem ordinary_kept {result : Except (Fault α) (NormalMatrix α)} (start : Ordinary result) :
    Ordinary (normal.kept result).1 := by
  cases result with
  | ok changed => simp [kept]
  | error fault => exact start.passedOn rfl

theorem ordinary_update (jacobian : Derivative α) : Ordinary (normal.update jacobian).1 := by
  unfold update
  split
  · exact ordinary_kept _ (ordinary_map _ (WholeNormal.ordinary_update _ _))
  · exact SplitNormal.ordinary_compute _ _ _
  · simp

theorem ordinary_quadraticForm (vector : Vec α) : Ordinary (normal.quadraticForm vector) := by
  cases normal with
  | whole found => exact Operand.ordinary_innerProduct _ _ _
  | split found => exact found.ordinary_quadraticForm vector

theorem ordinary_diagonalInto (length : Nat) : Ordinary (normal.diagonalInto length) := by
  refine ordinary_bind ?_ fun _ => ordinary_fit _
  cases normal with
  | whole found => exact Operand.ordinary_diagonal _
  | split found => exact found.ordinary_diagonal

theorem ordinary_setDiagonal (diagonal : Vec α) : Ordinary (normal.setDiagonal diagonal).1 := by
  cases normal with
  | whole found =>
      exact ordinary_kept _ (ordinary_map _ (ordinary_bind (Operand.ordinary_replaceDiagonal _ _)
        fun _ => ordinary_pure _))
  | split found => exact found.ordinary_setDiagonal diagonal

theorem ordinary_divide (scaling : Vec α) : Ordinary (normal.divide scaling).1 := by
  cases normal with
  | whole found =>
      exact ordinary_kept _ (ordinary_map _ (ordinary_bind (Operand.ordinary_divide _ _ _)
        fun _ => ordinary_pure _))
  | split found => exact found.ordinary_divide scaling

theorem ordinary_prepare : Ordinary normal.prepare := by
  cases normal with
  | whole found => exact ordinary_map _ found.ordinary_prepare
  | split found => exact ordinary_map _ found.ordinary_prepare

theorem ordinary_solve [Spectral α] (rhs out : Vec α) : Ordinary (normal.solve rhs out) := by
  cases normal with
  | whole found => exact found.ordinary_solve rhs out
  | split found => exact found.ordinary_solve rhs out

end NormalMatrix

end Normal

/-! ## Losses and Jacobians -/

namespace Loss

variable {σ : Type} [Scalar α] (loss : Loss σ α)

theorem ordinary_halfSquare (scaled : Vec α → Option (Vec α)) (residuals : Vec α) :
    Ordinary (halfSquare scaled residuals) := by
  unfold halfSquare
  dsimp only
  split
  · simp
  · exact ordinary_bind (ordinary_fit _) fun _ => ordinary_pure _

theorem ordinary_cost (residuals : Vec α) : Ordinary (loss.cost residuals) := by
  unfold cost
  split
  case h_1 => exact ordinary_halfSquare _ _
  case h_2 => exact ordinary_halfSquare _ _
  case h_7 => exact ordinary_halfSquare _ _
  case h_8 => exact ordinary_halfSquare _ _
  all_goals simp

theorem ordinary_gradientInto (length : Nat) (residuals : Vec α) :
    Ordinary (loss.gradientInto length residuals) := by
  refine ordinary_bind ?_ fun _ => ordinary_fit _
  unfold gradient
  split <;> simp

end Loss

theorem Derivative.ordinary_blocks [Scalar α] (jacobian : Derivative α) :
    Ordinary jacobian.blocks := by
  unfold blocks
  split
  · simp
  · split <;> simp
  · split <;> simp

namespace Solver

variable {σ : Type} [Scalar α]

omit [Scalar α] in
theorem ordinary_checkShape (rows : Nat) (columns : Int) (jacobian : Operand α) :
    Ordinary (checkShape rows columns jacobian) := by
  unfold checkShape
  dsimp only
  split <;> simp

theorem ordinary_predictedReduction (solver : Solver σ α) (step : Vec α) :
    Ordinary (solver.predictedReduction step) :=
  ordinary_bind (ordinary_fit _) fun _ =>
    ordinary_bind (NormalMatrix.ordinary_quadraticForm _ _) fun _ => ordinary_pure _

theorem ordinary_unscale (solver : Solver σ α) (step : Vec α) :
    Ordinary (solver.unscale step) := by
  unfold unscale
  split <;> simp

theorem ordinary_reductionRatio (actual predicted : α) :
    Ordinary (reductionRatio actual predicted) := by
  unfold reductionRatio
  split
  · exact ordinary_error.mpr nofun
  · simp

theorem ordinary_dampingFactor (ratio : α) : Ordinary (dampingFactor ratio) := by
  unfold dampingFactor
  split
  · exact ordinary_error.mpr nofun
  · simp

end Solver

end DampedLeastSquares
