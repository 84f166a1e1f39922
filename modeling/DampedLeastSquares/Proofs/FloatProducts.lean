import DampedLeastSquares.Proofs.FloatDifferences
import DampedLeastSquares.Proofs.FloatOrder
import DampedLeastSquares.Proofs.NotANumber

/-!
# Signs of products

What is not undefined is comparable with everything else that is not. The sign
of a product of doubles is the product of their signs, also after rounding. So a
product of values that are not negative is not negative either, unless one of
them is zero and the other one infinite.
-/

set_option autoImplicit false

namespace DampedLeastSquares

namespace FloatOrder

open Float.Model

private theorem then_isLE (firstExponent secondExponent : ℤ) (firstMantissa secondMantissa : ℕ) :
    ((compare firstExponent secondExponent).then
        (compare firstMantissa secondMantissa)).isLE = true ↔
      firstExponent < secondExponent ∨
        firstExponent = secondExponent ∧ firstMantissa ≤ secondMantissa := by
  rcases lt_trichotomy firstExponent secondExponent with less | rfl | more
  · simp [Int.compare_eq_lt.mpr less, less]
  · simp [Nat.isLE_compare]
  · simp [Int.compare_eq_gt.mpr more, more.not_gt, more.ne']

private theorem then_isGE (firstExponent secondExponent : ℤ) (firstMantissa secondMantissa : ℕ) :
    ((compare firstExponent secondExponent).then
        (compare firstMantissa secondMantissa)).isGE = true ↔
      secondExponent < firstExponent ∨
        firstExponent = secondExponent ∧ secondMantissa ≤ firstMantissa := by
  rcases lt_trichotomy firstExponent secondExponent with less | rfl | more
  · simp [Int.compare_eq_lt.mpr less, less.not_gt, less.ne]
  · simp [Nat.isGE_compare]
  · simp [Int.compare_eq_gt.mpr more, more]

theorem le_iff_place (first second : UnpackedFloat) :
    first.le second = true ↔
      ∃ lower ∈ place first, ∃ upper ∈ place second, lower ≤ upper := by
  have signs : compare UnpackedFloat.Sign.negative .negative = .eq ∧
      compare UnpackedFloat.Sign.negative .positive = .lt ∧
      compare UnpackedFloat.Sign.positive .negative = .gt ∧
      compare UnpackedFloat.Sign.positive .positive = .eq := ⟨rfl, rfl, rfl, rfl⟩
  obtain (_ | _) | _ | (_ | _) | ⟨(_ | _), _, _, _⟩ := first <;>
    obtain (_ | _) | _ | (_ | _) | ⟨(_ | _), _, _, _⟩ := second <;>
    dsimp only [UnpackedFloat.le, UnpackedFloat.compare, place] <;>
    simp [Prod.Lex.toLex_le_toLex, signs, then_isLE, then_isGE]

theorem le_iff_place_unpack (first second : Float) :
    first ≤ second ↔
      ∃ lower ∈ place first.toModel.unpack, ∃ upper ∈ place second.toModel.unpack,
        lower ≤ upper := by
  rw [← le_iff_place]
  change decide (first.toModel ≤ second.toModel) = true ↔ _
  rw [decide_eq_true_iff]
  rfl

theorem lt_of_lt_of_le {first second third : Float} (less : first < second)
    (more : second ≤ third) : first < third := by
  obtain ⟨lower, lowerAt, middle, middleAt, ordered⟩ := (lt_iff_place_unpack _ _).mp less
  obtain ⟨middle', middleAt', upper, upperAt, ordered'⟩ := (le_iff_place_unpack _ _).mp more
  cases Option.mem_unique middleAt middleAt'
  exact (lt_iff_place_unpack _ _).mpr
    ⟨lower, lowerAt, upper, upperAt, ordered.trans_le ordered'⟩

theorem place_eq_none_iff {value : UnpackedFloat} : place value = none ↔ value = .notANumber := by
  cases value with
  | notANumber => simp [place]
  | zero sign => simp [place]
  | infinity sign => cases sign <;> simp [place]
  | finite sign mantissa exponent positive => cases sign <;> simp [place]

theorem exists_place {x : Float} (defined : x.isNaN = false) :
    ∃ found, found ∈ place x.toModel.unpack := by
  refine Option.ne_none_iff_exists'.mp fun none => ?_
  have undefined := NotANumber.isNaN_iff_unpack.mpr (place_eq_none_iff.mp none)
  cases defined.symm.trans undefined

theorem isNaN_of_mem_place {x : Float} {found : ℤ ×ₗ ℤ ×ₗ ℤ}
    (placed : found ∈ place x.toModel.unpack) : x.isNaN = false := by
  cases undefined : x.isNaN with
  | false => rfl
  | true =>
      rw [NotANumber.isNaN_iff_unpack.mp undefined] at placed
      cases placed

/-- What is not undefined can be compared: it is not less exactly if it is at least as great. -/
theorem le_iff_not_lt {first second : Float} : first ≤ second ↔
    first.isNaN = false ∧ second.isNaN = false ∧ ¬ second < first := by
  rw [le_iff_place_unpack, lt_iff_place_unpack]
  constructor
  · rintro ⟨lower, lowerAt, upper, upperAt, ordered⟩
    refine ⟨isNaN_of_mem_place lowerAt, isNaN_of_mem_place upperAt, ?_⟩
    rintro ⟨upper', upperAt', lower', lowerAt', reversed⟩
    cases Option.mem_unique lowerAt lowerAt'
    cases Option.mem_unique upperAt upperAt'
    exact ordered.not_gt reversed
  · rintro ⟨defined, defined', ordered⟩
    obtain ⟨lower, lowerAt⟩ := exists_place defined
    obtain ⟨upper, upperAt⟩ := exists_place defined'
    refine ⟨lower, lowerAt, upper, upperAt, ?_⟩
    by_contra reversed
    exact ordered ⟨upper, upperAt, lower, lowerAt, not_le.mp reversed⟩

end FloatOrder

namespace FloatProducts

open Float.Model Float.Model.UnpackedFloat FloatDifferences FloatOrder Quadrupling

/-- Zero, or of positive sign. -/
def AtLeastZero : UnpackedFloat → Prop
  | .notANumber => False
  | .infinity sign => sign = .positive
  | .zero _ => True
  | .finite sign _ _ _ => sign = .positive

theorem zero_le_iff {x : Float} : 0.0 ≤ x ↔ AtLeastZero x.toModel.unpack := by
  have zero : (0.0 : Float).toModel.unpack = .zero .positive := rfl
  have unpacked : 0.0 ≤ x ↔ UnpackedFloat.le (.zero .positive) x.toModel.unpack = true := by
    change decide ((0.0 : Float).toModel ≤ x.toModel) = true ↔ _
    rw [decide_eq_true_iff, ← zero]
    rfl
  rw [unpacked]
  cases x.toModel.unpack with
  | zero sign => simp [UnpackedFloat.le, UnpackedFloat.compare, AtLeastZero]
  | notANumber => simp [UnpackedFloat.le, UnpackedFloat.compare, AtLeastZero]
  | infinity sign => cases sign <;> simp [UnpackedFloat.le, UnpackedFloat.compare, AtLeastZero]
  | finite sign mantissa exponent positive =>
      cases sign <;> simp [UnpackedFloat.le, UnpackedFloat.compare, AtLeastZero]

theorem atLeastZero_packComponents {exponent : BitVec 11} (finite : exponent ≠ -1#11)
    (mantissa : BitVec 52) : AtLeastZero
      (UnpackedFloat.unpack .binary64 (packComponents .binary64 .positive exponent mantissa)) := by
  unfold UnpackedFloat.unpack
  simp only [unpackMantissa_packComponents, unpackExponent_packComponents,
    unpackSign_packComponents, Sign.ofBitVec_toBitVec, if_neg finite]
  split
  · split
    · trivial
    · rfl
  · rfl

/-- Packing keeps the sign. -/
theorem atLeastZero_pack {value : UnpackedFloat} (positive : AtLeastZero value) :
    AtLeastZero (Float.Model.pack value).unpack := by
  cases value with
  | notANumber => exact positive.elim
  | zero sign => cases sign <;> exact trivial
  | infinity sign =>
      cases positive
      exact (congrArg AtLeastZero (unpack_packedInfinity _)).mpr rfl
  | finite sign mantissa exponent _ =>
      cases positive
      unfold Float.Model.unpack Float.Model.pack UnpackedFloat.pack
      have bias : Format.binary64.exponentBias = 1023 := rfl
      dsimp only
      split
      · exact (congrArg AtLeastZero (unpack_packedInfinity _)).mpr rfl
      · next small =>
        split
        · refine atLeastZero_packComponents (fun same => ?_) _
          have biased := congrArg BitVec.toNat same
          rw [BitVec.toNat_ofNat, Nat.mod_eq_of_lt (by omega)] at biased
          have top : (-1#11).toNat = 2047 := rfl
          omega
        · exact atLeastZero_packComponents (by decide) _

theorem atLeastZero_round (mantissa : Nat) (exponent : Int) (accuracy : Accuracy) :
    AtLeastZero (roundWithAccuracy .binary64 .positive mantissa exponent accuracy) := by
  unfold roundWithAccuracy
  dsimp only
  split
  · trivial
  · rfl

theorem zero_le_mul {x y : Float} (nonneg : 0.0 ≤ x) (positive : 0.0 < y) :
    0.0 ≤ x * y ∨ (x * y).isNaN = true ∧ (x == 0.0) = true ∧ y.isFinite = false := by
  rw [zero_le_iff] at nonneg
  have product : (x * y).toModel.unpack =
      (Float.Model.pack (UnpackedFloat.mul .binary64 x.toModel.unpack y.toModel.unpack)).unpack :=
    rfl
  rw [zero_le_iff, product]
  obtain infinite | ⟨mantissa', exponent', positive', finite⟩ := zero_lt_iff.mp positive
  · rw [infinite]
    cases unpacked : x.toModel.unpack with
    | notANumber =>
        rw [unpacked] at nonneg
        exact nonneg.elim
    | zero sign =>
        refine .inr ⟨?_, beq_zero_iff.mpr ⟨sign, unpacked⟩,
          congrArg UnpackedFloat.isFinite infinite⟩
        change (Float.Model.pack (UnpackedFloat.mul .binary64 x.toModel.unpack
          y.toModel.unpack)).unpack.isNaN = true
        rw [unpacked, infinite]
        cases sign <;> decide +kernel
    | infinity sign =>
        rw [unpacked] at nonneg
        cases nonneg
        exact .inl (atLeastZero_pack rfl)
    | finite sign mantissa exponent _ =>
        rw [unpacked] at nonneg
        cases nonneg
        exact .inl (atLeastZero_pack rfl)
  · rw [finite]
    refine .inl (atLeastZero_pack ?_)
    cases unpacked : x.toModel.unpack with
    | notANumber =>
        rw [unpacked] at nonneg
        exact nonneg.elim
    | zero sign => trivial
    | infinity sign =>
        rw [unpacked] at nonneg
        cases nonneg
        rfl
    | finite sign mantissa exponent _ =>
        rw [unpacked] at nonneg
        cases nonneg
        exact atLeastZero_round _ _ _

theorem isNaN_mul {x y : Float} (zero : (x == 0.0) = true) (positive : 0.0 < y)
    (infinite : y.isFinite = false) : (x * y).isNaN = true := by
  obtain ⟨sign, unpacked⟩ := beq_zero_iff.mp zero
  obtain unpacked' | ⟨_, _, _, unpacked'⟩ := zero_lt_iff.mp positive
  · change (Float.Model.pack (UnpackedFloat.mul .binary64 x.toModel.unpack
      y.toModel.unpack)).unpack.isNaN = true
    rw [unpacked, unpacked']
    cases sign <;> decide +kernel
  · cases (congrArg UnpackedFloat.isFinite unpacked').symm.trans infinite

/-! ## Doubling -/

theorem two_le_iff {x : Float} : 2.0 ≤ x ↔ x.toModel.unpack = .infinity .positive ∨
    ∃ mantissa exponent positive, x.toModel.unpack = .finite .positive mantissa exponent positive ∧
      -51 ≤ exponent := by
  rw [le_iff_place_unpack, unpack_two]
  cases unpacked : x.toModel.unpack with
  | notANumber => simp [place]
  | zero sign => simp [place, Prod.Lex.toLex_le_toLex]
  | infinity sign => cases sign <;> simp [place, Prod.Lex.toLex_le_toLex]
  | finite sign mantissa exponent positive =>
      cases sign with
      | negative => simp [place, Prod.Lex.toLex_le_toLex]
      | positive =>
          -- with an exponent this large the leading bit of the mantissa is set
          obtain ⟨⟨_, _, _, normal⟩, _⟩ := unpack_finite unpacked
          have leading : exponent = -51 → 2 ^ 52 ≤ mantissa := fun same =>
            (Nat.le_log2 positive.ne').mp (by omega)
          have ordered : (∃ lower ∈ place (.finite .positive (2 ^ 52) (-51) (by decide)),
              ∃ upper ∈ place (.finite .positive mantissa exponent positive), lower ≤ upper) ↔
                -51 < exponent ∨ -51 = exponent ∧ 2 ^ 52 ≤ mantissa := by
            simp only [place, Option.mem_def, Option.some.injEq, exists_eq_left',
              Prod.Lex.toLex_le_toLex, lt_self_iff_false, true_and, false_or]
            norm_cast
          rw [ordered]
          constructor
          · intro large
            exact .inr ⟨mantissa, exponent, positive, rfl, by omega⟩
          · rintro (infinite | ⟨_, _, _, same, large⟩)
            · cases infinite
            · cases same
              omega

theorem two_le_double {x : Float} (large : 2.0 ≤ x) : 2.0 ≤ x * 2.0 := by
  have product : (x * 2.0).toModel.unpack = (Float.Model.pack (UnpackedFloat.mul .binary64
      x.toModel.unpack (.finite .positive (2 ^ 52) ((1 : Nat) - 52) (by decide)))).unpack := rfl
  refine two_le_iff.mpr ?_
  rw [product]
  obtain infinite | ⟨mantissa, exponent, positive, finite, above⟩ := two_le_iff.mp large
  · rw [infinite]
    exact .inl (unpack_packedInfinity _)
  · rw [finite]
    obtain ⟨canonical, _⟩ := unpack_finite finite
    obtain ⟨kept, shift, total, canonical', doubled⟩ := mul_two_pow canonical .positive 1
    -- the leading bit of the mantissa is set, so all of the bits that are added are shifted out
    have length := log2_mul_two_pow positive kept
    have most := canonical'.mantissa_le
    have normal := canonical.normal_or_least
    rw [doubled]
    have proper : Proper (.finite (.positive * .positive) _ _ canonical'.positive) := canonical'
    obtain fits | ⟨_, _, _, _, same, _, infinite⟩ := proper.unpack_pack_cases
    · exact .inr ⟨_, _, canonical'.positive, fits, by omega⟩
    · cases same
      exact .inl infinite

end FloatProducts

end DampedLeastSquares
