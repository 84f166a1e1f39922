import DampedLeastSquares.Vector

/-!
# Undefined values

Arithmetic on doubles never makes an undefined value defined again, and no
comparison holds of it. So a sum with one undefined term is undefined, and so is
the largest of some magnitudes one of which is.
-/

set_option autoImplicit false

namespace DampedLeastSquares.NotANumber

open Float.Model

variable {x y : Float}

theorem isNaN_iff_unpack : x.isNaN = true ↔ x.toModel.unpack = .notANumber := by
  change x.toModel.unpack.isNaN = true ↔ _
  cases x.toModel.unpack with
  | notANumber => exact ⟨fun _ => rfl, fun _ => rfl⟩
  | infinity sign => exact ⟨nofun, nofun⟩
  | zero sign => exact ⟨nofun, nofun⟩
  | finite sign mantissa exponent positive => exact ⟨nofun, nofun⟩

/-- An operation on unpacked values spreads an undefined one if it does so before its result is
packed again. -/
theorem isNaN_apply (operation : UnpackedFloat → UnpackedFloat)
    (spreads : operation .notANumber = .notANumber) (undefined : x.isNaN = true) :
    (Float.ofModel (Float.Model.pack (operation x.toModel.unpack))).isNaN = true := by
  rw [isNaN_iff_unpack.mp undefined, spreads]
  decide +kernel

theorem isNaN_add_left (undefined : x.isNaN = true) : (x + y).isNaN = true :=
  isNaN_apply (UnpackedFloat.add .binary64 · y.toModel.unpack) rfl undefined

theorem isNaN_add_right (undefined : y.isNaN = true) : (x + y).isNaN = true :=
  isNaN_apply (UnpackedFloat.add .binary64 x.toModel.unpack)
    (by cases x.toModel.unpack <;> rfl) undefined

theorem isNaN_sub_left (undefined : x.isNaN = true) : (x - y).isNaN = true :=
  isNaN_apply (UnpackedFloat.sub .binary64 · y.toModel.unpack) rfl undefined

theorem isNaN_mul_left (undefined : x.isNaN = true) : (x * y).isNaN = true :=
  isNaN_apply (UnpackedFloat.mul .binary64 · y.toModel.unpack) rfl undefined

theorem isNaN_mul_right (undefined : y.isNaN = true) : (x * y).isNaN = true :=
  isNaN_apply (UnpackedFloat.mul .binary64 x.toModel.unpack)
    (by cases x.toModel.unpack <;> rfl) undefined

theorem isNaN_div_left (undefined : x.isNaN = true) : (x / y).isNaN = true :=
  isNaN_apply (UnpackedFloat.div .binary64 · y.toModel.unpack) rfl undefined

theorem isNaN_sqrt (undefined : x.isNaN = true) : x.sqrt.isNaN = true :=
  isNaN_apply (UnpackedFloat.sqrt .binary64) rfl undefined

theorem isNaN_abs (undefined : x.isNaN = true) : x.abs.isNaN = true :=
  isNaN_apply UnpackedFloat.abs rfl undefined

theorem not_le_of_isNaN (undefined : x.isNaN = true) : ¬ x ≤ y := by
  intro holds
  have holds : decide (x.toModel ≤ y.toModel) = true := holds
  have holds : x.toModel.unpack.le y.toModel.unpack = true := of_decide_eq_true holds
  rw [isNaN_iff_unpack.mp undefined] at holds
  cases holds

theorem beq_of_isNaN (undefined : x.isNaN = true) : (x == y) = false := by
  change x.toModel.unpack.beq y.toModel.unpack = false
  rw [isNaN_iff_unpack.mp undefined]
  rfl

theorem isFinite_of_isNaN (undefined : x.isNaN = true) : x.isFinite = false := by
  change x.toModel.unpack.isFinite = false
  rw [isNaN_iff_unpack.mp undefined]
  rfl

/-! ## Vectors -/

def HasNaN (vector : Vec Float) : Prop := ∃ entry ∈ vector, entry.isNaN = true

theorem HasNaN.map {vector : Vec Float} {function : Float → Float}
    (spreads : ∀ entry : Float, entry.isNaN = true → (function entry).isNaN = true)
    (undefined : HasNaN vector) : HasNaN (vector.map function) := by
  obtain ⟨entry, member, undefined⟩ := undefined
  exact ⟨function entry, List.mem_map_of_mem member, spreads entry undefined⟩

theorem HasNaN.filter {vector : Vec Float} {keeps : Float → Bool}
    (kept : ∀ entry : Float, entry.isNaN = true → keeps entry = true)
    (undefined : HasNaN vector) : HasNaN (vector.filter keeps) := by
  obtain ⟨entry, member, undefined⟩ := undefined
  exact ⟨entry, List.mem_filter.mpr ⟨member, kept entry undefined⟩, undefined⟩

theorem isNaN_foldl {operation : Float → Float → Float}
    (left : ∀ found entry : Float, found.isNaN = true → (operation found entry).isNaN = true)
    (right : ∀ found entry : Float, entry.isNaN = true → (operation found entry).isNaN = true)
    {vector : Vec Float} {start : Float} (undefined : start.isNaN = true ∨ HasNaN vector) :
    (vector.foldl operation start).isNaN = true := by
  induction vector generalizing start with
  | nil =>
      obtain undefined | ⟨_, member, _⟩ := undefined
      · exact undefined
      · cases member
  | cons first rest previous =>
      rw [List.foldl_cons]
      refine previous ?_
      obtain undefined | ⟨entry, member, undefined⟩ := undefined
      · exact .inl (left start first undefined)
      · cases member with
        | head => exact .inl (right start first undefined)
        | tail _ member => exact .inr ⟨entry, member, undefined⟩

theorem isNaN_sum {vector : Vec Float} (undefined : HasNaN vector) :
    (Vec.sum vector).isNaN = true :=
  isNaN_foldl (fun _ _ => isNaN_add_left) (fun _ _ => isNaN_add_right) (.inr undefined)

theorem isNaN_larger_left (undefined : x.isNaN = true) : (Scalar.larger x y).isNaN = true := by
  have first : Scalar.isNaN x = true := undefined
  rw [Scalar.larger, if_pos first]
  exact undefined

theorem isNaN_larger_right (undefined : y.isNaN = true) : (Scalar.larger x y).isNaN = true := by
  have second : Scalar.isNaN y = true := undefined
  rw [Scalar.larger, if_pos second]
  split
  · assumption
  · exact undefined

theorem isNaN_maxAbs {vector : Vec Float} (undefined : HasNaN vector) :
    ∃ largest, Vec.maxAbs? vector = some largest ∧ largest.isNaN = true := by
  cases vector with
  | nil =>
      obtain ⟨_, member, _⟩ := undefined
      cases member
  | cons first rest =>
      refine ⟨_, rfl, isNaN_foldl (fun _ _ => isNaN_larger_left)
        (fun _ _ undefined => isNaN_larger_right (isNaN_abs undefined)) ?_⟩
      obtain ⟨entry, member, undefined⟩ := undefined
      cases member with
      | head => exact .inl (isNaN_abs undefined)
      | tail _ member => exact .inr ⟨entry, member, undefined⟩

end DampedLeastSquares.NotANumber
