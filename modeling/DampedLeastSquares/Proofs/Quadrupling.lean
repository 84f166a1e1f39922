import Mathlib
import DampedLeastSquares.Scalar

/-!
# Doubles that are multiplied by four

Four is a power of two, so a double times four is exact: the binary exponent
grows by two until the result is infinite. Only zero stays as it is.
-/

set_option autoImplicit false

namespace DampedLeastSquares

theorem Scalar.timesPower_succ {α : Type} [Scalar α] (start value : α) (count : Nat) :
    timesPower start value (count + 1) = timesPower start value count * value := by
  induction count generalizing start with
  | zero => rfl
  | succ count previous => exact previous (start * value)

namespace Quadrupling

open Float.Model Float.Model.UnpackedFloat

/-! ## Shifts that lose nothing -/

theorem log2_mul_two_pow {mantissa : Nat} (positive : 0 < mantissa) (shift : Nat) :
    (mantissa * 2 ^ shift).log2 = mantissa.log2 + shift := by
  induction shift with
  | zero => simp
  | succ shift previous =>
      rw [show mantissa * 2 ^ (shift + 1) = 2 * (mantissa * 2 ^ shift) by ring,
        Nat.log2_two_mul (by positivity), previous, Nat.add_assoc]

theorem shiftRight_exact (mantissa shift : Nat) :
    ExtendedMantissa.mk (mantissa * 2 ^ shift) false false >>> shift =
      ExtendedMantissa.mk mantissa false false := by
  induction shift generalizing mantissa with
  | zero => simp [HShiftRight.hShiftRight, Nat.repeat]
  | succ shift previous =>
      have last : ExtendedMantissa.shiftRightOne (ExtendedMantissa.mk (mantissa * 2) false false) =
          ExtendedMantissa.mk mantissa false false := by
        simp [ExtendedMantissa.shiftRightOne]
      rw [show mantissa * 2 ^ (shift + 1) = mantissa * 2 * 2 ^ shift by ring, ← last,
        ← previous (mantissa * 2)]
      rfl

theorem shiftToTargetExponent_exact {mantissa shift : Nat} {exponent : Int}
    (target : Format.binary64.targetExponent (totalExponent (mantissa * 2 ^ shift) exponent) =
      exponent + shift) :
    shiftToTargetExponent .binary64 (mantissa * 2 ^ shift) exponent .exact =
      (ExtendedMantissa.mk mantissa false false, exponent + shift) := by
  have amount : (exponent + shift - exponent).toNat = shift := by omega
  unfold shiftToTargetExponent shiftToExponent
  rw [target]
  dsimp only
  rw [amount]
  exact congrArg (·, exponent + (shift : Int)) (shiftRight_exact mantissa shift)

/-- Bits that are shifted out are zero, so nothing is rounded. -/
theorem roundWithAccuracy_exact (sign : Sign) {mantissa shift : Nat} {exponent : Int}
    (positive : 0 < mantissa)
    (target : Format.binary64.targetExponent (totalExponent (mantissa * 2 ^ shift) exponent) =
      exponent + shift) :
    roundWithAccuracy .binary64 sign (mantissa * 2 ^ shift) exponent .exact =
      .finite sign mantissa (exponent + shift) positive := by
  have total : totalExponent mantissa (exponent + shift) =
      totalExponent (mantissa * 2 ^ shift) exponent := by
    unfold totalExponent
    rw [log2_mul_two_pow positive]
    omega
  have settled : shiftToTargetExponent .binary64 mantissa (exponent + shift) .exact =
      (ExtendedMantissa.mk mantissa false false, exponent + shift) := by
    have again := @shiftToTargetExponent_exact mantissa 0 (exponent + shift)
    simp only [pow_zero, Nat.mul_one, Nat.cast_zero, add_zero] at again
    exact again (total ▸ target)
  unfold roundWithAccuracy
  rw [shiftToTargetExponent_exact target]
  dsimp only [ExtendedMantissa.roundedMantissa, ExtendedMantissa.accuracy,
    Accuracy.roundToNearestEven]
  rw [settled]
  exact dif_neg positive.ne'

/-! ## What doubles unpack to -/

/-- The mantissa of a normal number, or one with the least exponent. -/
structure Canonical (mantissa : Nat) (exponent : Int) : Prop where
  positive : 0 < mantissa
  mantissa_le : mantissa.log2 ≤ 52
  exponent_ge : -1074 ≤ exponent
  normal_or_least : mantissa.log2 = 52 ∨ exponent = -1074

theorem implicit_bit (bits : BitVec 52) : (1#1 ++ bits).toNat = 2 ^ 52 + bits.toNat := by
  rw [BitVec.toNat_append, ← Nat.shiftLeft_add_eq_or_of_lt bits.isLt]
  rfl

theorem unpack_finite {x : Float} {sign : Sign} {mantissa : Nat} {exponent : Int}
    {positive : 0 < mantissa}
    (unpacked : x.toModel.unpack = .finite sign mantissa exponent positive) :
    Canonical mantissa exponent ∧ exponent ≤ 971 := by
  have bits_lt : (@unpackMantissa .binary64 x.toModel.toBits.toBitVec).toNat < 2 ^ 52 :=
    BitVec.isLt _
  have biased_lt : (@unpackExponent .binary64 x.toModel.toBits.toBitVec).toNat < 2 ^ 11 :=
    BitVec.isLt _
  have bias : Format.binary64.exponentBias = 1023 := rfl
  unfold Float.Model.unpack UnpackedFloat.unpack at unpacked
  dsimp only at unpacked
  by_cases top : @unpackExponent .binary64 x.toModel.toBits.toBitVec =
      -1#(Format.binary64.exponentBits)
  · rw [if_pos top, ite_eq_iff] at unpacked
    obtain ⟨_, infinite⟩ | ⟨_, undefined⟩ := unpacked
    · cases infinite
    · cases undefined
  rw [if_neg top] at unpacked
  by_cases least : @unpackExponent .binary64 x.toModel.toBits.toBitVec =
      0#(Format.binary64.exponentBits)
  · rw [if_pos least] at unpacked
    by_cases zero : @unpackMantissa .binary64 x.toModel.toBits.toBitVec =
        0#(Format.binary64.mantissaBitsWithoutImplicit)
    · rw [dif_pos zero] at unpacked
      cases unpacked
    rw [dif_neg zero] at unpacked
    cases unpacked
    have small := (Nat.log2_lt positive.ne').mpr bits_lt
    rw [least, bias]
    exact ⟨⟨positive, by omega, by simp, .inr (by simp)⟩, by simp⟩
  · rw [if_neg least] at unpacked
    cases unpacked
    have leading := implicit_bit (@unpackMantissa .binary64 x.toModel.toBits.toBitVec)
    have log : (2 ^ 52 + (@unpackMantissa .binary64 x.toModel.toBits.toBitVec).toNat).log2 = 52 :=
      (Nat.log2_eq_iff (by omega)).mpr ⟨by omega, by omega⟩
    have below : (@unpackExponent .binary64 x.toModel.toBits.toBitVec).toNat ≠ 2047 :=
      fun same => top (BitVec.eq_of_toNat_eq same)
    have above : (@unpackExponent .binary64 x.toModel.toBits.toBitVec).toNat ≠ 0 :=
      fun same => least (BitVec.eq_of_toNat_eq same)
    rw [bias]
    refine ⟨⟨positive, ?_, by omega, .inl ?_⟩, by omega⟩
    · exact (congrArg Nat.log2 leading).trans log |>.le
    · exact (congrArg Nat.log2 leading).trans log

theorem unpack_normal (sign : Sign) {biased : BitVec 11} {bits : BitVec 52}
    (finite : biased.toNat ≠ 2047) (normal : biased.toNat ≠ 0) {mantissa : Nat} {exponent : Int}
    (positive : 0 < mantissa) (leading : 2 ^ 52 + bits.toNat = mantissa)
    (shifted : (biased.toNat : Int) - 1075 = exponent) :
    UnpackedFloat.unpack .binary64 (packComponents .binary64 sign biased bits) =
      .finite sign mantissa exponent positive := by
  have finite : biased ≠ -1#11 := fun same => finite (congrArg BitVec.toNat same)
  have normal : biased ≠ 0#11 := fun same => normal (congrArg BitVec.toNat same)
  rw [← implicit_bit] at leading
  subst leading shifted
  unfold UnpackedFloat.unpack
  simp only [unpackMantissa_packComponents, unpackExponent_packComponents,
    unpackSign_packComponents, Sign.ofBitVec_toBitVec, if_neg finite, if_neg normal]
  rfl

theorem unpack_subnormal (sign : Sign) {bits : BitVec 52} {mantissa : Nat}
    (positive : 0 < mantissa) (same : bits.toNat = mantissa) :
    UnpackedFloat.unpack .binary64 (packComponents .binary64 sign 0#11 bits) =
      .finite sign mantissa (-1074) positive := by
  subst same
  have nonzero : bits ≠ 0#52 := fun same => positive.ne' (congrArg BitVec.toNat same)
  unfold UnpackedFloat.unpack
  simp only [unpackMantissa_packComponents, unpackExponent_packComponents,
    unpackSign_packComponents, Sign.ofBitVec_toBitVec, dif_neg nonzero]
  rfl

/-- Packing a value that fits keeps it. -/
theorem unpack_pack {mantissa : Nat} {exponent : Int} (canonical : Canonical mantissa exponent)
    (small : exponent ≤ 971) (sign : Sign) :
    (Float.Model.pack (.finite sign mantissa exponent canonical.positive)).unpack =
      .finite sign mantissa exponent canonical.positive := by
  obtain ⟨positive, mantissa_le, exponent_ge, normal_or_least⟩ := canonical
  have below : mantissa < 2 ^ 53 := (Nat.log2_lt positive.ne').mp (by omega)
  have bias : Format.binary64.exponentBias = 1023 := rfl
  have width : Format.binary64.mantissaBits = 53 := rfl
  unfold Float.Model.unpack Float.Model.pack UnpackedFloat.pack
  dsimp only
  rw [bias, width, if_neg (by omega)]
  split
  · next normal =>
    have above : 2 ^ 52 ≤ mantissa := (Nat.le_log2 positive.ne').mp (by omega)
    have biased : (BitVec.ofNat 11 (exponent + (1023 : Nat) + (52 : Nat)).toNat).toNat =
        (exponent + 1075).toNat := by
      rw [BitVec.toNat_ofNat, Nat.mod_eq_of_lt (by omega)]
      omega
    refine unpack_normal sign (by omega) (by omega) positive ?_ (by omega)
    rw [BitVec.toNat_ofNat]
    omega
  · next subnormal =>
    obtain rfl : exponent = -1074 := by omega
    have below : mantissa < 2 ^ 52 := (Nat.log2_lt positive.ne').mp (by omega)
    refine unpack_subnormal sign positive ?_
    rw [BitVec.toNat_ofNat, Nat.mod_eq_of_lt below]

theorem unpack_packedInfinity (sign : Sign) :
    UnpackedFloat.unpack .binary64 (packedInfinity .binary64 sign) = .infinity sign := by
  unfold UnpackedFloat.unpack packedInfinity
  simp only [unpackMantissa_packComponents, unpackExponent_packComponents,
    unpackSign_packComponents, Sign.ofBitVec_toBitVec, if_true]
  rfl

/-- Packing a value that does not fit makes it infinite. -/
theorem unpack_pack_large {mantissa : Nat} {exponent : Int} {positive : 0 < mantissa}
    (large : 971 < exponent) (sign : Sign) :
    (Float.Model.pack (.finite sign mantissa exponent positive)).unpack = .infinity sign := by
  unfold Float.Model.unpack Float.Model.pack UnpackedFloat.pack
  have bias : Format.binary64.exponentBias = 1023 := rfl
  dsimp only
  rw [bias, if_pos (by omega)]
  exact unpack_packedInfinity sign

/-! ## Products with powers of two -/

theorem unpack_two :
    (2.0 : Float).toModel.unpack = .finite .positive (2 ^ 52) (-51) (by decide) := rfl

theorem unpack_four :
    (4.0 : Float).toModel.unpack = .finite .positive (2 ^ 52) (-50) (by decide) := rfl

/-- The product of a finite value and a power of two, before it is packed. -/
theorem mul_two_pow {mantissa : Nat} {exponent : Int} (canonical : Canonical mantissa exponent)
    (sign : Sign) (power : Nat) : ∃ kept shift : Nat, kept + shift = 52 ∧
      ∃ canonical' : Canonical (mantissa * 2 ^ kept) (exponent + (power - 52) + shift),
        UnpackedFloat.mul .binary64 (.finite sign mantissa exponent canonical.positive)
          (.finite .positive (2 ^ 52) (power - 52) (by decide)) =
            .finite (sign * .positive) (mantissa * 2 ^ kept) (exponent + (power - 52) + shift)
              canonical'.positive := by
  obtain ⟨positive, mantissa_le, exponent_ge, normal_or_least⟩ := canonical
  -- as many bits are shifted out as leave a mantissa of 53 bits or the least exponent
  obtain ⟨shift, kept, total, most, least, tight⟩ : ∃ shift kept : Nat, kept + shift = 52 ∧
      mantissa.log2 ≤ shift ∧ -1022 - power - exponent ≤ shift ∧
      (mantissa.log2 = shift ∨ -1022 - power - exponent = shift) :=
    ⟨max mantissa.log2 (-1022 - power - exponent).toNat,
      52 - max mantissa.log2 (-1022 - power - exponent).toNat,
      by omega, by omega, by omega, by omega⟩
  have split : mantissa * 2 ^ 52 = mantissa * 2 ^ kept * 2 ^ shift := by
    rw [← total, pow_add]
    ring
  have positive' : 0 < mantissa * 2 ^ kept := by positivity
  have length : (mantissa * 2 ^ kept).log2 = mantissa.log2 + kept :=
    log2_mul_two_pow positive kept
  have canonical : Canonical (mantissa * 2 ^ kept) (exponent + (power - 52) + shift) :=
    ⟨positive', by omega, by omega, by omega⟩
  have target : Format.binary64.targetExponent
      (totalExponent (mantissa * 2 ^ kept * 2 ^ shift) (exponent + (power - 52))) =
        exponent + (power - 52) + shift := by
    have least : Format.binary64.minExponent = -1074 := rfl
    have width : Format.binary64.mantissaBits = 53 := rfl
    unfold Format.targetExponent totalExponent
    rw [log2_mul_two_pow positive', length, least, width]
    omega
  refine ⟨kept, shift, total, canonical, ?_⟩
  have product : UnpackedFloat.mul .binary64 (.finite sign mantissa exponent positive)
      (.finite .positive (2 ^ 52) (power - 52) (by decide)) =
      roundWithAccuracy .binary64 (sign * .positive) (mantissa * 2 ^ 52) (exponent + (power - 52))
        .exact := rfl
  rw [product, split]
  exact roundWithAccuracy_exact (sign * .positive) positive' target

/-- A finite value times four is not finite, or its leading bit moves by two. -/
theorem quadruple {x : Float} {sign : Sign} {mantissa : Nat} {exponent : Int}
    {positive : 0 < mantissa}
    (unpacked : x.toModel.unpack = .finite sign mantissa exponent positive) :
    (x * 4.0).isFinite = false ∨ ∃ sign' mantissa' exponent', ∃ positive' : 0 < mantissa',
      (x * 4.0).toModel.unpack = .finite sign' mantissa' exponent' positive' ∧
        (mantissa'.log2 : Int) + exponent' = mantissa.log2 + exponent + 2 := by
  obtain ⟨canonical, _⟩ := unpack_finite unpacked
  obtain ⟨kept, shift, total, canonical', product⟩ := mul_two_pow canonical sign 2
  have packed : (x * 4.0).toModel = Float.Model.pack (.finite (sign * .positive)
      (mantissa * 2 ^ kept) (exponent + ((2 : Nat) - 52) + shift) canonical'.positive) := by
    rw [← product]
    change Float.Model.pack (UnpackedFloat.mul .binary64 x.toModel.unpack _) = _
    rw [unpacked]
    rfl
  by_cases small : exponent + ((2 : Nat) - 52) + shift ≤ 971
  · refine .inr ⟨_, _, _, canonical'.positive, packed ▸ unpack_pack canonical' small _, ?_⟩
    rw [log2_mul_two_pow positive]
    omega
  · refine .inl ?_
    change (x * 4.0).toModel.unpack.isFinite = false
    rw [packed, unpack_pack_large (not_le.mp small)]
    rfl

theorem timesPower_of_finite {x : Float} {sign : Sign} {mantissa : Nat} {exponent : Int}
    {positive : 0 < mantissa}
    (unpacked : x.toModel.unpack = .finite sign mantissa exponent positive) (fuel : Nat)
    (near : 1023 - ((mantissa.log2 : Int) + exponent) < 2 * fuel) :
    ∃ count, (Scalar.timesPower x 4.0 count).isFinite = false := by
  induction fuel generalizing x sign mantissa exponent with
  | zero =>
      obtain ⟨canonical, small⟩ := unpack_finite unpacked
      have most := canonical.mantissa_le
      omega
  | succ fuel previous =>
      obtain infinite | ⟨_, _, _, _, unpacked', moved⟩ := quadruple unpacked
      · exact ⟨1, infinite⟩
      · obtain ⟨count, infinite⟩ := previous unpacked' (by omega)
        exact ⟨count + 1, infinite⟩

theorem beq_zero_iff {x : Float} :
    (x == 0.0) = true ↔ ∃ sign, x.toModel.unpack = .zero sign := by
  have zero : (0.0 : Float).toModel.unpack = .zero .positive := rfl
  change x.toModel.unpack.beq (0.0 : Float).toModel.unpack = true ↔ _
  rw [zero]
  cases x.toModel.unpack with
  | zero sign => exact ⟨fun _ => ⟨sign, rfl⟩, fun _ => rfl⟩
  | notANumber => exact ⟨nofun, nofun⟩
  | infinity sign => cases sign <;> exact ⟨nofun, nofun⟩
  | finite sign mantissa exponent positive => cases sign <;> exact ⟨nofun, nofun⟩

theorem mul_four_not_finite {x : Float} (infinite : x.isFinite = false) :
    (x * 4.0).isFinite = false := by
  have infinite : x.toModel.unpack.isFinite = false := infinite
  change (Float.Model.pack (UnpackedFloat.mul .binary64 x.toModel.unpack
    (4.0 : Float).toModel.unpack)).unpack.isFinite = false
  rw [unpack_four]
  cases unpacked : x.toModel.unpack with
  | zero | finite =>
      rw [unpacked] at infinite
      cases infinite
  | notANumber => decide +kernel
  | infinity sign => cases sign <;> decide +kernel

/-- What is not zero leaves the finite range, however small it is. -/
theorem timesPower_not_finite {x : Float} (nonzero : (x == 0.0) = false) :
    ∃ count, (Scalar.timesPower x 4.0 (count + 1)).isFinite = false := by
  by_cases finite : x.isFinite = true
  · cases unpacked : x.toModel.unpack with
    | zero sign => cases nonzero.symm.trans (beq_zero_iff.mpr ⟨sign, unpacked⟩)
    | notANumber => cases (congrArg UnpackedFloat.isFinite unpacked).symm.trans finite
    | infinity sign => cases (congrArg UnpackedFloat.isFinite unpacked).symm.trans finite
    | finite sign mantissa exponent positive =>
        obtain ⟨count, infinite⟩ :=
          timesPower_of_finite unpacked (1024 + (-exponent).toNat) (by omega)
        cases count with
        | zero => cases finite.symm.trans infinite
        | succ count => exact ⟨count, infinite⟩
  · exact ⟨0, mul_four_not_finite (Bool.eq_false_iff.mpr finite)⟩

/-! ## Zero -/

theorem zero_mul_four {x : Float} (zero : (x == 0.0) = true) : (x * 4.0 == 0.0) = true := by
  obtain ⟨sign, unpacked⟩ := beq_zero_iff.mp zero
  have packed : (x * 4.0).toModel = Float.Model.pack (.zero (sign * .positive)) := by
    change Float.Model.pack (UnpackedFloat.mul .binary64 x.toModel.unpack _) = _
    rw [unpacked, unpack_four]
    rfl
  refine beq_zero_iff.mpr ⟨sign * .positive, ?_⟩
  rw [packed]
  cases sign <;> rfl

theorem timesPower_zero {x : Float} (zero : (x == 0.0) = true) (count : Nat) :
    (Scalar.timesPower x 4.0 count == 0.0) = true := by
  induction count generalizing x with
  | zero => exact zero
  | succ count previous => exact previous (zero_mul_four zero)

theorem isFinite_zero {x : Float} (zero : (x == 0.0) = true) : x.isFinite = true := by
  obtain ⟨sign, unpacked⟩ := beq_zero_iff.mp zero
  exact congrArg UnpackedFloat.isFinite unpacked

theorem zero_lt_iff {x : Float} : 0.0 < x ↔
    x.toModel.unpack = .infinity .positive ∨ ∃ mantissa exponent positive,
      x.toModel.unpack = .finite .positive mantissa exponent positive := by
  have zero : (0.0 : Float).toModel.unpack = .zero .positive := rfl
  have unpacked : 0.0 < x ↔ UnpackedFloat.lt (.zero .positive) x.toModel.unpack = true := by
    change decide ((0.0 : Float).toModel < x.toModel) = true ↔ _
    rw [decide_eq_true_iff, ← zero]
    rfl
  rw [unpacked]
  cases x.toModel.unpack with
  | zero sign => simp [UnpackedFloat.lt, UnpackedFloat.compare]
  | notANumber => simp [UnpackedFloat.lt, UnpackedFloat.compare]
  | infinity sign => cases sign <;> simp [UnpackedFloat.lt, UnpackedFloat.compare]
  | finite sign mantissa exponent positive =>
      cases sign <;> simp [UnpackedFloat.lt, UnpackedFloat.compare, positive]

theorem beq_zero_of_pos {x : Float} (positive : 0.0 < x) : (x == 0.0) = false := by
  refine Bool.eq_false_iff.mpr fun same => ?_
  obtain ⟨sign, unpacked⟩ := beq_zero_iff.mp same
  obtain infinite | ⟨_, _, _, finite⟩ := zero_lt_iff.mp positive
  · cases unpacked.symm.trans infinite
  · cases unpacked.symm.trans finite

theorem not_le_zero {x limit : Float} (zero : (x == 0.0) = true) (positive : 0.0 < limit) :
    ¬ limit ≤ x := by
  intro less
  obtain ⟨sign, unpacked⟩ := beq_zero_iff.mp zero
  have less : decide (limit.toModel ≤ x.toModel) = true := less
  have less : limit.toModel.unpack.le x.toModel.unpack = true := of_decide_eq_true less
  rw [unpacked] at less
  obtain infinite | ⟨_, _, _, finite⟩ := zero_lt_iff.mp positive
  · rw [infinite] at less
    cases less
  · rw [finite] at less
    cases less

end Quadrupling

end DampedLeastSquares
