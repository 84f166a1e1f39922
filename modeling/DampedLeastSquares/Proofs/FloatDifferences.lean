import DampedLeastSquares.Proofs.Quadrupling

/-!
# Differences of doubles

The difference of two finite doubles is a multiple of the least positive one, so it is not rounded
to zero. A difference with a finite value is zero exactly if the two values compare as equal, which
is what a search relies on when it compares costs by their difference.
-/

set_option autoImplicit false

namespace DampedLeastSquares

/-- A difference with a finite value is zero only where the two values are equal. -/
class Scalar.TellsApart (α : Type) [Scalar α] : Prop where
  sub_beq_zero_iff (first : α) {second : α} (finite : isFinite second = true) :
    (first - second == 0.0) = true ↔ (second == first) = true

namespace FloatDifferences

open Float.Model Float.Model.UnpackedFloat Quadrupling

/-! ## Rounding -/

theorem shiftRight_mantissa (extended : ExtendedMantissa) (shift : Nat) :
    (extended >>> shift).mantissa = extended.mantissa / 2 ^ shift := by
  induction shift with
  | zero => simp [HShiftRight.hShiftRight, Nat.repeat]
  | succ shift previous =>
      have last : (extended >>> (shift + 1)).mantissa = (extended >>> shift).mantissa / 2 := rfl
      rw [last, previous, Nat.div_div_eq_div_mul, pow_succ]

theorem ofMantissaAndAccuracy_mantissa (mantissa : Nat) (accuracy : Accuracy) :
    (ExtendedMantissa.ofMantissaAndAccuracy mantissa accuracy).mantissa = mantissa := by
  obtain _ | (_ | _ | _) := accuracy <;> rfl

theorem le_roundToNearestEven (mantissa : Nat) (accuracy : Accuracy) :
    mantissa ≤ accuracy.roundToNearestEven mantissa := by
  obtain _ | (_ | _ | _) := accuracy <;> simp [Accuracy.roundToNearestEven]

theorem log2_div_two_pow {mantissa shift : Nat} (short : shift ≤ mantissa.log2)
    (positive : 0 < mantissa) : (mantissa / 2 ^ shift).log2 = mantissa.log2 - shift := by
  have lower := Nat.log2_self_le positive.ne'
  have upper := Nat.lt_log2_self (n := mantissa)
  refine (Nat.log2_eq_iff ?_).mpr ⟨?_, ?_⟩
  · exact (Nat.div_pos ((Nat.pow_le_pow_right two_pos short).trans lower) (by positivity)).ne'
  · rw [Nat.le_div_iff_mul_le (by positivity), ← pow_add, Nat.sub_add_cancel short]
    exact lower
  · rw [Nat.div_lt_iff_lt_mul (by positivity), ← pow_add]
    rwa [show mantissa.log2 - shift + 1 + shift = mantissa.log2 + 1 by omega]

theorem targetExponent_eq (mantissa : Nat) (exponent : Int) :
    Format.binary64.targetExponent (totalExponent mantissa exponent) =
      max (mantissa.log2 + exponent - 52) (-1074) := by
  have least : Format.binary64.minExponent = -1074 := rfl
  have width : Format.binary64.mantissaBits = 53 := rfl
  unfold Format.targetExponent totalExponent
  rw [least, width]
  omega

/-- The mantissa has all its bits, or the exponent is the least one. -/
structure Wide (mantissa : Nat) (exponent : Int) : Prop where
  positive : 0 < mantissa
  exponent_ge : -1074 ≤ exponent
  wide : 52 ≤ mantissa.log2 ∨ exponent = -1074

/-- The excess bits are shifted out. -/
theorem Wide.shifted {mantissa : Nat} {exponent : Int} (wide : Wide mantissa exponent)
    (accuracy : Accuracy) : ∃ extended exponent',
      shiftToTargetExponent .binary64 mantissa exponent accuracy = (extended, exponent') ∧
        Canonical extended.mantissa exponent' := by
  obtain ⟨positive, exponent_ge, wide⟩ := wide
  refine ⟨_, _, rfl, ?_⟩
  have amount : (Format.binary64.targetExponent (totalExponent mantissa exponent) -
      exponent).toNat = mantissa.log2 - 52 := by
    rw [targetExponent_eq]
    omega
  have length : (mantissa / 2 ^ (mantissa.log2 - 52)).log2 = mantissa.log2 - (mantissa.log2 - 52) :=
    log2_div_two_pow (Nat.sub_le _ _) positive
  rw [amount, shiftRight_mantissa, ofMantissaAndAccuracy_mantissa]
  refine ⟨Nat.div_pos ?_ (by positivity), by omega, by omega, by omega⟩
  exact (Nat.pow_le_pow_right two_pos (Nat.sub_le _ _)).trans (Nat.log2_self_le positive.ne')

theorem Wide.rounded {mantissa : Nat} {exponent : Int} (wide : Wide mantissa exponent)
    (sign : Sign) (accuracy : Accuracy) : ∃ mantissa' exponent',
      ∃ canonical : Canonical mantissa' exponent',
        roundWithAccuracy .binary64 sign mantissa exponent accuracy =
          .finite sign mantissa' exponent' canonical.positive := by
  obtain ⟨extended, exponent', shifted, canonical⟩ := wide.shifted accuracy
  -- rounding up may cost another bit, and none is lost then
  have larger : extended.mantissa ≤ extended.roundedMantissa := le_roundToNearestEven _ _
  have again : Wide extended.roundedMantissa exponent' := by
    have nonzero := (canonical.positive.trans_le larger).ne'
    refine ⟨canonical.positive.trans_le larger, canonical.exponent_ge, ?_⟩
    refine canonical.normal_or_least.imp_left fun normal => (Nat.le_log2 nonzero).mpr ?_
    exact ((Nat.le_log2 canonical.positive.ne').mp normal.ge).trans larger
  obtain ⟨final, exponent'', shifted', canonical'⟩ := again.shifted .exact
  refine ⟨_, _, canonical', ?_⟩
  unfold roundWithAccuracy
  rw [shifted]
  dsimp only
  rw [shifted']
  exact dif_neg canonical'.positive.ne'

/-- A multiple of the least positive double is not rounded to zero. -/
theorem round_canonical (sign : Sign) {mantissa : Nat} {exponent : Int} (positive : 0 < mantissa)
    (exponent_ge : -1074 ≤ exponent) : ∃ mantissa' exponent',
      ∃ canonical : Canonical mantissa' exponent',
        UnpackedFloat.round .binary64 sign mantissa exponent =
          .finite sign mantissa' exponent' canonical.positive := by
  unfold UnpackedFloat.round decreaseExponent
  dsimp only
  refine Wide.rounded ?_ sign .exact
  rw [targetExponent_eq, Nat.shiftLeft_eq]
  have length := log2_mul_two_pow positive
    (exponent - max (mantissa.log2 + exponent - 52) (-1074)).toNat
  exact ⟨by positivity, by omega, by omega⟩

/-- Nothing but zero is rounded to zero. -/
theorem normalize_cases (value : Int) {exponent : Int} (exponent_ge : -1074 ≤ exponent) :
    (value = 0 ∧ UnpackedFloat.normalize .binary64 value exponent .positive = .zero .positive) ∨
      value ≠ 0 ∧ ∃ sign mantissa exponent', ∃ canonical : Canonical mantissa exponent',
        UnpackedFloat.normalize .binary64 value exponent .positive =
          .finite sign mantissa exponent' canonical.positive := by
  unfold UnpackedFloat.normalize
  split
  · next negative =>
      have negative := Int.compare_eq_lt.mp negative
      exact .inr ⟨negative.ne, _, round_canonical _ (by omega) exponent_ge⟩
  · next zero => exact .inl ⟨Int.compare_eq_eq.mp zero, rfl⟩
  · next positive =>
      have positive := Int.compare_eq_gt.mp positive
      exact .inr ⟨positive.ne', _, round_canonical _ (by omega) exponent_ge⟩

/-! ## Packing -/

/-- A value as unpacking and rounding produce it. -/
def Proper : UnpackedFloat → Prop
  | .finite _ mantissa exponent _ => Canonical mantissa exponent
  | _ => True

theorem proper_unpack (x : Float) : Proper x.toModel.unpack := by
  cases unpacked : x.toModel.unpack with
  | finite => exact (unpack_finite unpacked).1
  | _ => trivial

/-- Packing keeps a value, or it makes a large one infinite. -/
theorem Proper.unpack_pack_cases {value : UnpackedFloat} (proper : Proper value) :
    (Float.Model.pack value).unpack = value ∨ ∃ sign mantissa exponent positive,
      value = .finite sign mantissa exponent positive ∧ 971 < exponent ∧
        (Float.Model.pack value).unpack = .infinity sign := by
  cases value with
  | notANumber => exact .inl rfl
  | zero sign => cases sign <;> exact .inl rfl
  | infinity sign => exact .inl (unpack_packedInfinity sign)
  | finite sign mantissa exponent positive =>
      by_cases small : exponent ≤ 971
      · exact .inl (unpack_pack proper small sign)
      · exact .inr ⟨_, _, _, positive, rfl, not_le.mp small, unpack_pack_large (not_le.mp small) _⟩

/-- Only zero is packed as zero. -/
theorem Proper.unpack_pack_zero_iff {value : UnpackedFloat} (proper : Proper value) :
    (∃ sign, (Float.Model.pack value).unpack = .zero sign) ↔ ∃ sign, value = .zero sign := by
  obtain kept | ⟨_, _, _, _, rfl, _, infinite⟩ := proper.unpack_pack_cases
  · rw [kept]
  · rw [infinite]
    exact ⟨nofun, nofun⟩

/-! ## Differences -/

/-- Mantissas that agree at the smaller exponent agree at their own. -/
theorem aligned_eq_iff {mantissa mantissa' : Nat} {exponent exponent' : Int}
    (canonical : Canonical mantissa exponent) (canonical' : Canonical mantissa' exponent') :
    mantissa <<< (exponent - min exponent exponent').toNat =
        mantissa' <<< (exponent' - min exponent exponent').toNat ↔
      exponent = exponent' ∧ mantissa = mantissa' := by
  constructor
  · intro same
    rw [Nat.shiftLeft_eq, Nat.shiftLeft_eq] at same
    have length := congrArg Nat.log2 same
    rw [log2_mul_two_pow canonical.positive, log2_mul_two_pow canonical'.positive] at length
    -- the larger exponent comes with a mantissa of all bits, which no other one can reach
    have exponents : exponent = exponent' := by
      obtain ⟨_, mantissa_le, exponent_ge, normal_or_least⟩ := canonical
      obtain ⟨_, mantissa_le', exponent_ge', normal_or_least'⟩ := canonical'
      omega
    subst exponents
    simpa using same
  · rintro ⟨rfl, rfl⟩
    rfl

theorem apply_eq_iff {sign sign' : Sign} {magnitude magnitude' : Nat} (positive : 0 < magnitude) :
    sign.apply magnitude = sign'.apply magnitude' ↔ sign = sign' ∧ magnitude = magnitude' := by
  cases sign <;> cases sign' <;> simp [Sign.apply] <;> omega

theorem sub_finite_cases (sign sign' : Sign) {mantissa mantissa' : Nat} {exponent exponent' : Int}
    (canonical : Canonical mantissa exponent) (canonical' : Canonical mantissa' exponent') :
    ((sign' = sign ∧ exponent' = exponent ∧ mantissa' = mantissa) ∧
      UnpackedFloat.sub .binary64 (.finite sign mantissa exponent canonical.positive)
        (.finite sign' mantissa' exponent' canonical'.positive) = .zero .positive) ∨
      ¬ (sign' = sign ∧ exponent' = exponent ∧ mantissa' = mantissa) ∧
        ∃ sign'' mantissa'' exponent'', ∃ canonical'' : Canonical mantissa'' exponent'',
          UnpackedFloat.sub .binary64 (.finite sign mantissa exponent canonical.positive)
              (.finite sign' mantissa' exponent' canonical'.positive) =
            .finite sign'' mantissa'' exponent'' canonical''.positive := by
  have exponent_ge : -1074 ≤ min exponent exponent' :=
    le_min canonical.exponent_ge canonical'.exponent_ge
  have scaled : 0 < mantissa <<< (exponent - min exponent exponent').toNat := by
    rw [Nat.shiftLeft_eq]
    exact Nat.mul_pos canonical.positive (Nat.two_pow_pos _)
  have zero_iff : sign.apply (mantissa <<< (exponent - min exponent exponent').toNat : Nat) -
      sign'.apply (mantissa' <<< (exponent' - min exponent exponent').toNat : Nat) = 0 ↔
        sign' = sign ∧ exponent' = exponent ∧ mantissa' = mantissa := by
    rw [sub_eq_zero, apply_eq_iff scaled, aligned_eq_iff canonical canonical', eq_comm,
      @eq_comm _ exponent, @eq_comm _ mantissa]
  have cases := normalize_cases (sign.apply (mantissa <<<
    (exponent - min exponent exponent').toNat : Nat) -
      sign'.apply (mantissa' <<< (exponent' - min exponent exponent').toNat : Nat)) exponent_ge
  rwa [Ne, zero_iff] at cases

theorem beq_finite_iff {sign sign' : Sign} {mantissa mantissa' : Nat} {exponent exponent' : Int}
    {positive : 0 < mantissa} {positive' : 0 < mantissa'} :
    UnpackedFloat.beq (.finite sign mantissa exponent positive)
        (.finite sign' mantissa' exponent' positive') = true ↔
      sign = sign' ∧ exponent = exponent' ∧ mantissa = mantissa' := by
  unfold UnpackedFloat.beq
  cases sign <;> cases sign' <;> simp [UnpackedFloat.compare]

/-- The difference with a finite value is zero exactly if the two values are equal. -/
theorem sub_cases {first second : UnpackedFloat} (proper : Proper first)
    (proper' : Proper second) (finite : second.isFinite = true) :
    Proper (UnpackedFloat.sub .binary64 first second) ∧
      ((∃ sign, UnpackedFloat.sub .binary64 first second = .zero sign) ↔
        second.beq first = true) := by
  cases second with
  | notANumber | infinity => cases finite
  | zero sign' =>
      cases first with
      | notANumber => exact ⟨trivial, nofun, nofun⟩
      | infinity sign => cases sign <;> exact ⟨trivial, nofun, nofun⟩
      | finite sign => cases sign <;> exact ⟨proper, nofun, nofun⟩
      | zero sign =>
          cases sign <;> cases sign' <;> exact ⟨trivial, fun _ => rfl, fun _ => ⟨_, rfl⟩⟩
  | finite sign' mantissa' exponent' _ =>
      cases first with
      | notANumber => exact ⟨trivial, nofun, nofun⟩
      | infinity sign => cases sign <;> cases sign' <;> exact ⟨trivial, nofun, nofun⟩
      | zero sign => cases sign' <;> exact ⟨proper', nofun, nofun⟩
      | finite sign mantissa exponent _ =>
          have canonical : Canonical mantissa exponent := proper
          have canonical' : Canonical mantissa' exponent' := proper'
          rw [beq_finite_iff]
          obtain ⟨same, zero⟩ | ⟨differs, _, _, _, nonzero, rounded⟩ :=
            sub_finite_cases sign sign' canonical canonical'
          · rw [zero]
            exact ⟨trivial, fun _ => same, fun _ => ⟨_, rfl⟩⟩
          · rw [rounded]
            exact ⟨nonzero, nofun, fun same => (differs same).elim⟩

theorem sub_beq_zero_iff (first : Float) {second : Float} (finite : second.isFinite = true) :
    (first - second == 0.0) = true ↔ (second == first) = true := by
  have proper := proper_unpack first
  have proper' := proper_unpack second
  have difference : (first - second).toModel = Float.Model.pack
      (UnpackedFloat.sub .binary64 first.toModel.unpack second.toModel.unpack) := rfl
  obtain ⟨rounded, zero_iff⟩ := sub_cases proper proper' finite
  rw [beq_zero_iff, difference, rounded.unpack_pack_zero_iff, zero_iff]
  rfl

instance tellsApart : Scalar.TellsApart Float where
  sub_beq_zero_iff := sub_beq_zero_iff

end FloatDifferences

end DampedLeastSquares
