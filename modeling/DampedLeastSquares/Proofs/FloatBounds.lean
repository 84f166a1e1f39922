import DampedLeastSquares.Proofs.FloatProducts

/-!
# Bounds that rounding keeps

Rounding does not pass a double: what is no larger than a double is no larger than that double
after it was rounded. So where a double bounds an exact sum or product, it bounds the rounded one,
which is finite then.
-/

set_option autoImplicit false

namespace DampedLeastSquares.FloatBounds

open Float.Model Float.Model.UnpackedFloat FloatDifferences FloatOrder FloatProducts Quadrupling

/-! ## Sizes -/

/-- The size of a finite value. -/
def size (mantissa : Nat) (exponent : Int) : ℚ := mantissa * 2 ^ exponent

theorem size_nonneg (mantissa : Nat) (exponent : Int) : 0 ≤ size mantissa exponent := by
  unfold size
  positivity

theorem size_mul_two_pow (mantissa shift : Nat) (exponent : Int) :
    size (mantissa * 2 ^ shift) exponent = size mantissa (exponent + shift) := by
  unfold size
  rw [zpow_add₀ two_ne_zero, zpow_natCast]
  push_cast
  ring

theorem size_mul (mantissa mantissa' : Nat) (exponent exponent' : Int) :
    size (mantissa * mantissa') (exponent + exponent') =
      size mantissa exponent * size mantissa' exponent' := by
  unfold size
  rw [zpow_add₀ two_ne_zero]
  push_cast
  ring

theorem size_le_size {mantissa mantissa' : Nat} {exponent : Int} :
    size mantissa exponent ≤ size mantissa' exponent ↔ mantissa ≤ mantissa' := by
  unfold size
  rw [mul_le_mul_iff_left₀ (by positivity), Nat.cast_le]

theorem le_size {mantissa power : Nat} (exponent : Int) (large : 2 ^ power ≤ mantissa) :
    2 ^ (exponent + power) ≤ size mantissa exponent := by
  unfold size
  rw [zpow_add₀ two_ne_zero, zpow_natCast, mul_comm]
  exact mul_le_mul_of_nonneg_right (by exact_mod_cast large) (by positivity)

theorem size_lt {mantissa : Nat} (power : Nat) (exponent : Int) (small : mantissa < 2 ^ power) :
    size mantissa exponent < 2 ^ (exponent + power) := by
  unfold size
  rw [zpow_add₀ two_ne_zero, zpow_natCast, mul_comm ((2 : ℚ) ^ exponent)]
  exact mul_lt_mul_of_pos_right (by exact_mod_cast small) (by positivity)

/-- Canonical values with a larger exponent are larger. -/
theorem size_lt_of_exponent_lt {mantissa mantissa' : Nat} {exponent exponent' : Int}
    (canonical : Canonical mantissa exponent) (canonical' : Canonical mantissa' exponent')
    (less : exponent < exponent') : size mantissa exponent < size mantissa' exponent' := by
  have short : mantissa < 2 ^ 53 :=
    (Nat.log2_lt canonical.positive.ne').mp (Nat.lt_succ_of_le canonical.mantissa_le)
  have exponent_ge := canonical.exponent_ge
  have normal := canonical'.normal_or_least.resolve_right (by omega)
  have full : 2 ^ 52 ≤ mantissa' := (Nat.le_log2 canonical'.positive.ne').mp normal.ge
  calc size mantissa exponent < 2 ^ (exponent + (53 : Nat)) := size_lt 53 exponent short
    _ ≤ 2 ^ (exponent' + (52 : Nat)) := zpow_le_zpow_right₀ one_le_two (by omega)
    _ ≤ size mantissa' exponent' := le_size exponent' full

theorem size_le_iff {mantissa mantissa' : Nat} {exponent exponent' : Int}
    (canonical : Canonical mantissa exponent) (canonical' : Canonical mantissa' exponent') :
    size mantissa exponent ≤ size mantissa' exponent' ↔
      exponent < exponent' ∨ exponent = exponent' ∧ mantissa ≤ mantissa' := by
  rcases lt_trichotomy exponent exponent' with less | rfl | more
  · simp [less, (size_lt_of_exponent_lt canonical canonical' less).le]
  · simp [size_le_size]
  · simp [more.not_gt, more.ne', size_lt_of_exponent_lt canonical' canonical more]

/-! ## Rounding -/

/-- Finite, and no larger than the limit. -/
def Within (limit : ℚ) : UnpackedFloat → Prop
  | .notANumber => False
  | .infinity _ => False
  | .zero _ => True
  | .finite _ mantissa exponent _ => Canonical mantissa exponent ∧ size mantissa exponent ≤ limit

theorem Within.mono {limit limit' : ℚ} {value : UnpackedFloat} (within : Within limit value)
    (more : limit ≤ limit') : Within limit' value := by
  cases value with
  | notANumber | infinity => exact within
  | zero => trivial
  | finite => exact within.imp_right more.trans'

theorem roundToNearestEven_le (mantissa : Nat) (accuracy : Accuracy) :
    accuracy.roundToNearestEven mantissa ≤ mantissa + 1 := by
  obtain _ | (_ | _ | _) := accuracy <;> simp [Accuracy.roundToNearestEven]
  omega

/-- Bits that are shifted out do not round a mantissa past a bound. -/
theorem roundedMantissa_le {mantissa shift bound : Nat} (within : mantissa ≤ bound * 2 ^ shift) :
    (ExtendedMantissa.mk mantissa false false >>> shift).roundedMantissa ≤ bound := by
  by_cases exact : 2 ^ shift ∣ mantissa
  · obtain ⟨kept, rfl⟩ := exact
    rw [mul_comm] at within ⊢
    rw [shiftRight_exact]
    exact Nat.le_of_mul_le_mul_right within (Nat.two_pow_pos shift)
  · have differs : mantissa ≠ bound * 2 ^ shift := fun same => exact (same ▸ Dvd.intro_left _ rfl)
    have floor : mantissa / 2 ^ shift < bound :=
      (Nat.div_lt_iff_lt_mul (Nat.two_pow_pos shift)).mpr (lt_of_le_of_ne within differs)
    refine (roundToNearestEven_le _ _).trans ?_
    rw [shiftRight_mantissa]
    exact floor

theorem size_shifted {mantissa : Nat} {exponent exponent' : Int} {accuracy : Accuracy}
    {extended : ExtendedMantissa}
    (shifted : shiftToTargetExponent .binary64 mantissa exponent accuracy =
      (extended, exponent')) :
    size extended.mantissa exponent' ≤ size mantissa exponent := by
  cases shifted
  rw [shiftRight_mantissa, ofMantissaAndAccuracy_mantissa, ← size_mul_two_pow, size_le_size]
  exact Nat.div_mul_le_self _ _

section Rounding

variable {mantissa bound : Nat} {exponent limit : Int}

/-- As many bits are shifted out at most as a canonical bound on the value has trailing zeros. -/
theorem targetExponent_le (positive : 0 < mantissa) (canonical : Canonical bound limit)
    (within : size mantissa exponent ≤ size bound limit) :
    Format.binary64.targetExponent (totalExponent mantissa exponent) ≤ limit := by
  rw [targetExponent_eq]
  refine max_le ?_ canonical.exponent_ge
  have short : bound < 2 ^ 53 :=
    (Nat.log2_lt canonical.positive.ne').mp (Nat.lt_succ_of_le canonical.mantissa_le)
  have powers : (2 : ℚ) ^ (exponent + mantissa.log2) < 2 ^ (limit + (53 : Nat)) :=
    ((le_size exponent (Nat.log2_self_le positive.ne')).trans within).trans_lt
      (size_lt 53 limit short)
  have less := (zpow_lt_zpow_iff_right₀ one_lt_two).mp powers
  omega

/-- A bound that is a double holds after rounding. -/
theorem roundWithAccuracy_within (sign : Sign) (positive : 0 < mantissa)
    (fine : 52 ≤ mantissa.log2 ∨ exponent ≤ -1074) (canonical : Canonical bound limit)
    (within : size mantissa exponent ≤ size bound limit) :
    Within (size bound limit) (roundWithAccuracy .binary64 sign mantissa exponent .exact) := by
  have target_le := targetExponent_le positive canonical within
  have target := targetExponent_eq mantissa exponent
  obtain ⟨shift, shifted⟩ : ∃ shift : Nat,
      exponent + shift = Format.binary64.targetExponent (totalExponent mantissa exponent) :=
    ⟨(Format.binary64.targetExponent (totalExponent mantissa exponent) - exponent).toNat, by omega⟩
  obtain ⟨room, fits⟩ : ∃ room : Nat, exponent + shift + room = limit :=
    ⟨(limit - (exponent + shift)).toNat, by omega⟩
  have amount : (exponent + shift - exponent).toNat = shift := by omega
  have first : shiftToTargetExponent .binary64 mantissa exponent .exact =
      (ExtendedMantissa.mk mantissa false false >>> shift, exponent + shift) := by
    unfold shiftToTargetExponent shiftToExponent
    rw [← shifted]
    dsimp only
    rw [amount]
    rfl
  have floor : mantissa / 2 ^ shift ≤
      (ExtendedMantissa.mk mantissa false false >>> shift).roundedMantissa := by
    have kept := shiftRight_mantissa (ExtendedMantissa.mk mantissa false false) shift
    exact kept ▸ le_roundToNearestEven _ _
  have rounded : (ExtendedMantissa.mk mantissa false false >>> shift).roundedMantissa ≤
      bound * 2 ^ room := by
    have aligned : size mantissa exponent ≤ size (bound * 2 ^ room * 2 ^ shift) exponent := by
      rwa [size_mul_two_pow, size_mul_two_pow, fits]
    exact roundedMantissa_le (size_le_size.mp aligned)
  unfold roundWithAccuracy
  rw [first]
  dsimp only
  generalize (ExtendedMantissa.mk mantissa false false >>> shift).roundedMantissa = again
    at floor rounded
  rcases second : shiftToTargetExponent .binary64 again (exponent + shift) .exact
    with ⟨extended, exponent'⟩
  have lower := size_shifted second
  dsimp only
  split
  · trivial
  next nonzero =>
    have positive' : 0 < again := by
      refine Nat.pos_of_ne_zero fun zero => nonzero ?_
      rw [zero, show size 0 (exponent + shift) = size 0 exponent' by simp [size]] at lower
      exact Nat.eq_zero_of_le_zero (size_le_size.mp lower)
    have wide : Wide again (exponent + shift) := by
      refine ⟨positive', by omega, or_iff_not_imp_right.mpr fun above => ?_⟩
      -- above the least exponent just the excess bits were shifted out
      have length : (mantissa / 2 ^ shift).log2 = mantissa.log2 - shift :=
        log2_div_two_pow (by omega) positive
      have leading : (mantissa / 2 ^ shift).log2 = 52 := by omega
      refine (Nat.le_log2 positive'.ne').mpr (le_trans ?_ floor)
      exact (Nat.le_log2 (fun zero => by simp [zero] at leading)).mp leading.ge
    obtain ⟨_, _, same, canonical'⟩ := wide.shifted .exact
    cases second.symm.trans same
    refine ⟨canonical', lower.trans ?_⟩
    rw [← fits, ← size_mul_two_pow bound room, size_le_size]
    exact rounded

theorem round_within (sign : Sign) (positive : 0 < mantissa) (canonical : Canonical bound limit)
    (within : size mantissa exponent ≤ size bound limit) :
    Within (size bound limit) (UnpackedFloat.round .binary64 sign mantissa exponent) := by
  unfold UnpackedFloat.round decreaseExponent
  dsimp only
  generalize amount : (exponent - Format.binary64.targetExponent
    (totalExponent mantissa exponent)).toNat = shift
  rw [targetExponent_eq] at amount
  rw [Nat.shiftLeft_eq]
  have length := log2_mul_two_pow positive shift
  refine roundWithAccuracy_within sign (by positivity) (by omega) canonical ?_
  rwa [size_mul_two_pow, sub_add_cancel]

end Rounding

/-! ## Sums -/

section Sums

variable {value : Int} {exponent limit : Int} {bound : Nat}

theorem normalize_within (canonical : Canonical bound limit)
    (within : size value.natAbs exponent ≤ size bound limit) :
    Within (size bound limit) (UnpackedFloat.normalize .binary64 value exponent .positive) := by
  unfold UnpackedFloat.normalize
  split
  · next negative =>
      have negative := Int.compare_eq_lt.mp negative
      refine round_within _ (by omega) canonical ?_
      rwa [show (-value).toNat = value.natAbs by omega]
  · trivial
  · next positive =>
      have positive := Int.compare_eq_gt.mp positive
      refine round_within _ (by omega) canonical ?_
      rwa [show value.toNat = value.natAbs by omega]

theorem atLeastZero_normalize (nonneg : 0 ≤ value) :
    AtLeastZero (UnpackedFloat.normalize .binary64 value exponent .positive) := by
  unfold UnpackedFloat.normalize
  split
  · next negative => exact absurd (Int.compare_eq_lt.mp negative) (not_lt.mpr nonneg)
  · trivial
  · exact atLeastZero_round _ _ _

/-- A negative value is not rounded to a positive one. -/
theorem normalize_zero_or_negative (negative : value < 0) :
    (∃ sign, UnpackedFloat.normalize .binary64 value exponent .positive = .zero sign) ∨
      ¬ AtLeastZero (UnpackedFloat.normalize .binary64 value exponent .positive) := by
  unfold UnpackedFloat.normalize
  rw [Int.compare_eq_lt.mpr negative]
  dsimp only
  unfold UnpackedFloat.round roundWithAccuracy
  dsimp only
  split
  · exact .inl ⟨_, rfl⟩
  · exact .inr nofun

theorem within_of_atLeastZero (canonical : Canonical bound limit)
    (within : value * (2 : ℚ) ^ exponent ≤ size bound limit)
    (nonneg : AtLeastZero (UnpackedFloat.normalize .binary64 value exponent .positive)) :
    Within (size bound limit) (UnpackedFloat.normalize .binary64 value exponent .positive) := by
  by_cases negative : value < 0
  · obtain ⟨sign, zero⟩ | below := normalize_zero_or_negative negative
    · rw [zero]
      trivial
    · exact (below nonneg).elim
  · refine normalize_within canonical (le_of_eq_of_le ?_ within)
    obtain ⟨count, rfl⟩ := Int.eq_ofNat_of_zero_le (not_lt.mp negative)
    simp [size]

end Sums

/-! ## Packing -/

section Packing

variable {value : UnpackedFloat} {bound : Nat} {limit : Int}

/-- A value that a double bounds is a double. -/
theorem Within.unpack_pack (within : Within (size bound limit) value)
    (canonical : Canonical bound limit) (small : limit ≤ 971) :
    (Float.Model.pack value).unpack = value := by
  have proper : Proper value := by
    cases value with
    | finite => exact within.1
    | _ => trivial
  obtain kept | ⟨_, _, _, _, rfl, large, _⟩ := proper.unpack_pack_cases
  · exact kept
  · have order := (size_le_iff within.1 canonical).mp within.2
    omega

/-- Packing keeps the sign. -/
theorem atLeastZero_of_pack {value : UnpackedFloat} (proper : Proper value)
    (nonneg : AtLeastZero (Float.Model.pack value).unpack) : AtLeastZero value := by
  obtain kept | ⟨_, _, _, _, rfl, _, infinite⟩ := proper.unpack_pack_cases
  · rwa [kept] at nonneg
  · rw [infinite] at nonneg
    exact nonneg

theorem Within.isFinite {limit : ℚ} (within : Within limit value) : value.isFinite = true := by
  cases value with
  | notANumber | infinity => exact within.elim
  | zero | finite => rfl

/-- Doubles are ordered as their sizes. -/
theorem le_of_within {x y : Float} (canonical : Canonical bound limit)
    (within : Within (size bound limit) x.toModel.unpack)
    (unpacked : y.toModel.unpack = .finite .positive bound limit canonical.positive) : x ≤ y := by
  rw [le_iff_place_unpack, unpacked]
  cases unpacked' : x.toModel.unpack with
  | notANumber | infinity =>
      rw [unpacked'] at within
      exact within.elim
  | zero => simp [place, Prod.Lex.toLex_le_toLex]
  | finite sign mantissa exponent positive =>
      rw [unpacked'] at within
      have order := (size_le_iff within.1 canonical).mp within.2
      cases sign with
      | negative => simp [place, Prod.Lex.toLex_le_toLex]
      | positive => simpa [place, Prod.Lex.toLex_le_toLex] using order

theorem within_of_le {x y : Float} {positive : 0 < bound} (nonneg : 0.0 ≤ x) (less : x ≤ y)
    (unpacked : y.toModel.unpack = .finite .positive bound limit positive) :
    Within (size bound limit) x.toModel.unpack := by
  rw [zero_le_iff] at nonneg
  rw [le_iff_place_unpack, unpacked] at less
  cases unpacked' : x.toModel.unpack with
  | notANumber =>
      rw [unpacked'] at nonneg
      exact nonneg
  | zero => trivial
  | infinity =>
      rw [unpacked'] at nonneg less
      cases nonneg
      simp [place, Prod.Lex.toLex_le_toLex] at less
  | finite =>
      rw [unpacked'] at nonneg less
      cases nonneg
      have canonical := (unpack_finite unpacked').1
      refine ⟨canonical, (size_le_iff canonical (unpack_finite unpacked).1).mpr ?_⟩
      simpa [place, Prod.Lex.toLex_le_toLex] using less

end Packing

/-! ## Operations -/

/-- A difference of finite values is that of two multiples of one power of two, rounded. -/
theorem exists_sub (sign sign' : Sign) {mantissa mantissa' : Nat} (exponent exponent' : Int)
    (positive : 0 < mantissa) (positive' : 0 < mantissa') :
    ∃ (count count' : Nat) (unit : Int), size count unit = size mantissa exponent ∧
      size count' unit = size mantissa' exponent' ∧
      UnpackedFloat.sub .binary64 (.finite sign mantissa exponent positive)
          (.finite sign' mantissa' exponent' positive') =
        UnpackedFloat.normalize .binary64 (sign.apply count - sign'.apply count') unit
          .positive := by
  refine ⟨_, _, min exponent exponent', ?_, ?_, rfl⟩
  · rw [Nat.shiftLeft_eq, size_mul_two_pow]
    congr 1
    omega
  · rw [Nat.shiftLeft_eq, size_mul_two_pow]
    congr 1
    omega

/-- A finite value less a lower one is rounded from no negative number. -/
theorem atLeastZero_sub {sign sign' : Sign} {mantissa mantissa' : Nat} {exponent exponent' : Int}
    (canonical : Canonical mantissa exponent) (canonical' : Canonical mantissa' exponent')
    (less : ∃ lower ∈ place (.finite sign' mantissa' exponent' canonical'.positive),
      ∃ upper ∈ place (.finite sign mantissa exponent canonical.positive), lower < upper) :
    AtLeastZero (UnpackedFloat.sub .binary64 (.finite sign mantissa exponent canonical.positive)
      (.finite sign' mantissa' exponent' canonical'.positive)) := by
  obtain ⟨count, count', unit, same, same', rounded⟩ :=
    exists_sub sign sign' exponent exponent' canonical.positive canonical'.positive
  rw [rounded]
  refine atLeastZero_normalize ?_
  cases sign with
  | positive =>
      cases sign' with
      | negative =>
          change 0 ≤ (count : Int) - -(count' : Int)
          omega
      | positive =>
          have order : exponent' < exponent ∨ exponent' = exponent ∧ mantissa' ≤ mantissa := by
            simp [place, Prod.Lex.toLex_lt_toLex] at less
            omega
          rw [← size_le_iff canonical' canonical, ← same, ← same', size_le_size] at order
          change 0 ≤ (count : Int) - (count' : Int)
          omega
  | negative =>
      cases sign' with
      | positive => simp [place, Prod.Lex.toLex_lt_toLex] at less
      | negative =>
          have order : exponent < exponent' ∨ exponent = exponent' ∧ mantissa ≤ mantissa' := by
            simp [place, Prod.Lex.toLex_lt_toLex] at less
            omega
          rw [← size_le_iff canonical canonical', ← same, ← same', size_le_size] at order
          change 0 ≤ -(count : Int) - -(count' : Int)
          omega

section Operations

variable {x y : Float}

theorem unpack_sub (x y : Float) : (x - y).toModel.unpack =
    (Float.Model.pack (UnpackedFloat.sub .binary64 x.toModel.unpack y.toModel.unpack)).unpack := rfl

/-- The difference of a value and a lower one is not negative. -/
theorem zero_le_sub (finite : x.isFinite = true) (finite' : y.isFinite = true) (less : y < x) :
    0.0 ≤ x - y := by
  have finite : x.toModel.unpack.isFinite = true := finite
  have finite' : y.toModel.unpack.isFinite = true := finite'
  rw [lt_iff_place_unpack] at less
  rw [zero_le_iff, unpack_sub]
  refine atLeastZero_pack ?_
  cases unpacked : x.toModel.unpack with
  | notANumber | infinity =>
      rw [unpacked] at finite
      cases finite
  | zero sign =>
      cases unpacked' : y.toModel.unpack with
      | notANumber | infinity =>
          rw [unpacked'] at finite'
          cases finite'
      | zero sign' => cases sign <;> cases sign' <;> trivial
      | finite sign' mantissa' exponent' positive' =>
          rw [unpacked, unpacked'] at less
          cases sign' with
          | negative => rfl
          | positive => simp [place, Prod.Lex.toLex_lt_toLex] at less
  | finite sign mantissa exponent positive =>
      cases unpacked' : y.toModel.unpack with
      | notANumber | infinity =>
          rw [unpacked'] at finite'
          cases finite'
      | zero sign' =>
          rw [unpacked, unpacked'] at less
          cases sign with
          | positive => rfl
          | negative => simp [place, Prod.Lex.toLex_lt_toLex] at less
      | finite sign' mantissa' exponent' positive' =>
          rw [unpacked, unpacked'] at less
          exact atLeastZero_sub (unpack_finite unpacked).1 (unpack_finite unpacked').1 less

theorem zero_le_div (nonneg : 0.0 ≤ x) (positive : 0.0 < y) (finite : y.isFinite = true) :
    0.0 ≤ x / y := by
  have quotient : (x / y).toModel.unpack =
      (Float.Model.pack (UnpackedFloat.div .binary64 x.toModel.unpack y.toModel.unpack)).unpack :=
    rfl
  rw [zero_le_iff] at nonneg
  rw [zero_le_iff, quotient]
  obtain infinite | ⟨_, _, _, unpacked'⟩ := zero_lt_iff.mp positive
  · cases (congrArg UnpackedFloat.isFinite infinite).symm.trans finite
  refine atLeastZero_pack ?_
  rw [unpacked']
  cases unpacked : x.toModel.unpack with
  | notANumber =>
      rw [unpacked] at nonneg
      exact nonneg.elim
  | zero => trivial
  | infinity =>
      rw [unpacked] at nonneg
      cases nonneg
      rfl
  | finite =>
      rw [unpacked] at nonneg
      cases nonneg
      exact atLeastZero_round _ _ _

theorem zero_le_of_pos (positive : 0.0 < x) : 0.0 ≤ x := by
  rw [zero_le_iff]
  obtain unpacked | ⟨_, _, _, unpacked⟩ := zero_lt_iff.mp positive <;>
    exact (congrArg AtLeastZero unpacked).mpr rfl

theorem zero_le_two_mul (nonneg : 0.0 ≤ x) : 0.0 ≤ 2.0 * x := by
  have doubled : (2.0 * x).toModel.unpack = (Float.Model.pack (UnpackedFloat.mul .binary64
      (.finite .positive (2 ^ 52) (-51) (by decide)) x.toModel.unpack)).unpack := rfl
  rw [zero_le_iff] at nonneg ⊢
  rw [doubled]
  refine atLeastZero_pack ?_
  cases unpacked : x.toModel.unpack with
  | notANumber =>
      rw [unpacked] at nonneg
      exact nonneg.elim
  | zero => trivial
  | infinity =>
      rw [unpacked] at nonneg
      cases nonneg
      rfl
  | finite =>
      rw [unpacked] at nonneg
      cases nonneg
      exact atLeastZero_round _ _ _

theorem mul_within {left right : ℚ} {bound : Nat} {limit : Int}
    (within : Within left x.toModel.unpack) (within' : Within right y.toModel.unpack)
    (canonical : Canonical bound limit) (small : limit ≤ 971)
    (product_le : left * right ≤ size bound limit) :
    Within (size bound limit) (x * y).toModel.unpack := by
  have product : (x * y).toModel.unpack =
      (Float.Model.pack (UnpackedFloat.mul .binary64 x.toModel.unpack y.toModel.unpack)).unpack :=
    rfl
  suffices rounded : Within (size bound limit)
      (UnpackedFloat.mul .binary64 x.toModel.unpack y.toModel.unpack) by
    rwa [product, rounded.unpack_pack canonical small]
  cases unpacked : x.toModel.unpack with
  | notANumber | infinity =>
      rw [unpacked] at within
      exact within.elim
  | zero =>
      cases unpacked' : y.toModel.unpack with
      | notANumber | infinity =>
          rw [unpacked'] at within'
          exact within'.elim
      | zero | finite => trivial
  | finite sign mantissa exponent positive =>
      cases unpacked' : y.toModel.unpack with
      | notANumber | infinity =>
          rw [unpacked'] at within'
          exact within'.elim
      | zero => trivial
      | finite sign' mantissa' exponent' positive' =>
          rw [unpacked] at within
          rw [unpacked'] at within'
          refine roundWithAccuracy_within _ (Nat.mul_pos positive positive') ?_ canonical ?_
          · -- a factor with all its bits leaves a product with at least as many
            have normal := within.1.normal_or_least
            have normal' := within'.1.normal_or_least
            have nonzero := (Nat.mul_pos positive positive').ne'
            have longer : mantissa.log2 ≤ (mantissa * mantissa').log2 := (Nat.le_log2 nonzero).mpr
              ((Nat.log2_self_le positive.ne').trans (Nat.le_mul_of_pos_right _ positive'))
            have longer' : mantissa'.log2 ≤ (mantissa * mantissa').log2 := (Nat.le_log2 nonzero).mpr
              ((Nat.log2_self_le positive'.ne').trans (Nat.le_mul_of_pos_left _ positive))
            omega
          · rw [size_mul]
            refine le_trans (mul_le_mul within.2 within'.2 (size_nonneg _ _) ?_) product_le
            exact (size_nonneg _ _).trans within.2

/-! ## Around one -/

theorem canonical_power (power : Int) (normal : -1022 ≤ power) :
    Canonical (2 ^ 52) (power - 52) :=
  ⟨by decide, Nat.log2_two_pow.le, by omega, .inl Nat.log2_two_pow⟩

theorem size_power (power : Int) : size (2 ^ 52) (power - 52) = 2 ^ power := by
  have shifted := size_mul_two_pow 1 52 (power - 52)
  rw [one_mul] at shifted
  rw [shifted]
  simp [size]

theorem canonical_one : Canonical (2 ^ 52) (-52) := canonical_power 0 (by decide)

theorem canonical_two : Canonical (2 ^ 52) (-51) := canonical_power 1 (by decide)

theorem size_one : size (2 ^ 52) (-52) = 1 := size_power 0

/-- One, unpacked. -/
def unpackedOne : UnpackedFloat := .finite .positive (2 ^ 52) (-52) canonical_one.positive

theorem unpack_one : (1.0 : Float).toModel.unpack = unpackedOne := rfl

theorem size_two : size (2 ^ 52) (-51) = 2 := (size_power 1).trans (zpow_one 2)

theorem mul_within_power {power power' : Int} (within : Within (2 ^ power) x.toModel.unpack)
    (within' : Within (2 ^ power') y.toModel.unpack) (normal : -1022 ≤ power + power')
    (fits : power + power' ≤ 1023) : Within (2 ^ (power + power')) (x * y).toModel.unpack := by
  have product := (zpow_add₀ (two_ne_zero (α := ℚ)) power power').symm.le
  rw [← size_power (power + power')] at product ⊢
  exact mul_within within within' (canonical_power _ normal) (by omega) product

/-- A difference to one from above zero is at least minus one. -/
theorem sub_one_bounded (nonneg : 0.0 ≤ x) :
    0.0 ≤ x - 1.0 ∨ Within 1 (x - 1.0).toModel.unpack := by
  rw [zero_le_iff] at nonneg ⊢
  suffices rounded : AtLeastZero (UnpackedFloat.sub .binary64 x.toModel.unpack unpackedOne) ∨
      Within (size (2 ^ 52) (-52)) (UnpackedFloat.sub .binary64 x.toModel.unpack unpackedOne) by
    rw [unpack_sub, unpack_one]
    refine rounded.imp atLeastZero_pack fun within => ?_
    rwa [within.unpack_pack canonical_one (by decide), ← size_one]
  cases unpacked : x.toModel.unpack with
  | notANumber =>
      rw [unpacked] at nonneg
      exact nonneg.elim
  | infinity =>
      rw [unpacked] at nonneg
      exact .inl nonneg
  | zero => exact .inr ⟨canonical_one, le_rfl⟩
  | finite sign mantissa exponent positive =>
      rw [unpacked] at nonneg
      cases nonneg
      obtain ⟨count, count', unit, same, same', rounded⟩ := exists_sub .positive .positive exponent
        (-52) positive canonical_one.positive
      rw [unpackedOne, rounded]
      change AtLeastZero (UnpackedFloat.normalize .binary64 ((count : Int) - count') unit _) ∨
        Within _ (UnpackedFloat.normalize .binary64 ((count : Int) - count') unit _)
      by_cases order : count' ≤ count
      · exact .inl (atLeastZero_normalize (by omega))
      · refine .inr (normalize_within canonical_one ?_)
        rw [← same', size_le_size]
        omega

/-- What bounds a value from above zero, and one, bounds their difference. -/
theorem sub_one_within {bound : Nat} {limit : Int} (nonneg : 0.0 ≤ x)
    (within : Within (size bound limit) x.toModel.unpack) (canonical : Canonical bound limit)
    (small : limit ≤ 971) (one_le : 1 ≤ size bound limit) :
    Within (size bound limit) (x - 1.0).toModel.unpack := by
  rw [zero_le_iff] at nonneg
  suffices rounded :
      Within (size bound limit) (UnpackedFloat.sub .binary64 x.toModel.unpack unpackedOne) by
    rwa [unpack_sub, unpack_one, rounded.unpack_pack canonical small]
  cases unpacked : x.toModel.unpack with
  | notANumber | infinity =>
      rw [unpacked] at within
      exact within.elim
  | zero => exact ⟨canonical_one, size_one.trans_le one_le⟩
  | finite sign mantissa exponent positive =>
      rw [unpacked] at nonneg within
      cases nonneg
      obtain ⟨count, count', unit, same, same', rounded⟩ := exists_sub .positive .positive exponent
        (-52) positive canonical_one.positive
      have below : size count unit ≤ size bound limit := same.trans_le within.2
      have below' : size count' unit ≤ size bound limit := (same'.trans size_one).trans_le one_le
      rw [unpackedOne, rounded]
      refine normalize_within canonical ?_
      change size ((count : Int) - (count' : Int)).natAbs unit ≤ _
      rcases le_total count count' with less | more
      · exact (size_le_size.mpr (by omega)).trans below'
      · exact (size_le_size.mpr (by omega)).trans below

/-- One less what is at least minus one is at most two. -/
theorem one_sub_within (bounded : 0.0 ≤ x ∨ Within 1 x.toModel.unpack) (nonneg : 0.0 ≤ 1.0 - x) :
    Within 2 (1.0 - x).toModel.unpack := by
  rw [zero_le_iff] at nonneg bounded
  rw [unpack_sub, unpack_one] at nonneg ⊢
  suffices rounded : Proper (UnpackedFloat.sub .binary64 unpackedOne x.toModel.unpack) ∧
      (AtLeastZero (UnpackedFloat.sub .binary64 unpackedOne x.toModel.unpack) →
        Within (size (2 ^ 52) (-51)) (UnpackedFloat.sub .binary64 unpackedOne x.toModel.unpack)) by
    have within := rounded.2 (atLeastZero_of_pack rounded.1 nonneg)
    rwa [within.unpack_pack canonical_two (by decide), ← size_two]
  cases unpacked : x.toModel.unpack with
  | notANumber =>
      rw [unpacked] at bounded
      exact (bounded.elim id id).elim
  | infinity sign =>
      rw [unpacked] at bounded
      cases bounded.resolve_right id
      refine ⟨trivial, fun isPositive => ?_⟩
      cases isPositive
  | zero =>
      refine ⟨canonical_one, fun _ => ⟨canonical_one, ?_⟩⟩
      rw [size_one, size_two]
      exact one_le_two
  | finite sign mantissa exponent positive =>
      have proper := proper_unpack x
      rw [unpacked] at bounded proper
      have one : Proper unpackedOne := canonical_one
      refine ⟨(sub_cases one proper rfl).1, fun nonneg => ?_⟩
      obtain ⟨count, count', unit, same, same', rounded⟩ := exists_sub .positive sign (-52)
        exponent canonical_one.positive positive
      rw [unpackedOne, rounded] at nonneg ⊢
      refine within_of_atLeastZero canonical_two ?_ nonneg
      have first : (count : ℚ) * 2 ^ unit = 1 := same.trans size_one
      have other : (count' : ℚ) * 2 ^ unit = size mantissa exponent := same'
      have other_nonneg := size_nonneg mantissa exponent
      rw [size_two]
      cases sign with
      | positive =>
          simp only [Sign.apply]
          push_cast
          linarith
      | negative =>
          have other_le : size mantissa exponent ≤ 1 := by
            rcases bounded with isPositive | within
            · cases isPositive
            · exact within.2
          simp only [Sign.apply]
          push_cast
          linarith

/-- The cube of what is at least minus one is so, too. -/
theorem cube_bounded (bounded : 0.0 ≤ x ∨ Within 1 x.toModel.unpack) :
    0.0 ≤ Scalar.cube x ∨ Within 1 (Scalar.cube x).toModel.unpack := by
  unfold Scalar.cube
  by_cases within : Within 1 x.toModel.unpack
  · have least : (1 : ℚ) * 1 ≤ size (2 ^ 52) (-52) := (mul_one 1).trans_le size_one.ge
    have square := mul_within within within canonical_one (by decide) least
    rw [size_one] at square
    have cube := mul_within square within canonical_one (by decide) least
    rw [size_one] at cube
    exact .inr cube
  · have nonneg := bounded.resolve_right within
    have positive : 0.0 < x := by
      rw [zero_le_iff] at nonneg
      refine zero_lt_iff.mpr ?_
      cases unpacked : x.toModel.unpack with
      | notANumber =>
          rw [unpacked] at nonneg
          exact nonneg.elim
      | zero =>
          rw [unpacked] at within
          exact (within trivial).elim
      | infinity =>
          rw [unpacked] at nonneg
          cases nonneg
          exact .inl rfl
      | finite =>
          rw [unpacked] at nonneg
          cases nonneg
          exact .inr ⟨_, _, _, rfl⟩
    have square := (zero_le_mul nonneg positive).resolve_right fun ⟨_, isZero, _⟩ =>
      nomatch (beq_zero_of_pos positive).symm.trans isZero
    refine .inl ((zero_le_mul square positive).resolve_right fun ⟨_, isZero, infinite⟩ => ?_)
    -- the square of an infinite value is no zero
    obtain unpacked | ⟨_, _, _, unpacked⟩ := zero_lt_iff.mp positive
    · obtain ⟨sign, same⟩ := beq_zero_iff.mp isZero
      have product : (x * x).toModel.unpack = (Float.Model.pack (UnpackedFloat.mul .binary64
        x.toModel.unpack x.toModel.unpack)).unpack := rfl
      rw [product, unpacked] at same
      cases (unpack_packedInfinity .positive).symm.trans same
    · cases (congrArg UnpackedFloat.isFinite unpacked).symm.trans infinite

theorem double_unpack : (x * 2.0).toModel.unpack = (Float.Model.pack (UnpackedFloat.mul .binary64
    x.toModel.unpack (.finite .positive (2 ^ 52) ((1 : Nat) - 52) (by decide)))).unpack := rfl

/-- Twice a value is exact, unless it is infinite. -/
theorem unpack_double {mantissa : Nat} {exponent : Int} {positive : 0 < mantissa}
    (unpacked : x.toModel.unpack = .finite .positive mantissa exponent positive) :
    ∃ (doubled : Nat) (exponent' : Int) (canonical : Canonical doubled exponent'),
      exponent' ≤ exponent + 1 ∧ size doubled exponent' = size mantissa exponent * 2 ∧
        (x * 2.0).toModel.unpack = (Float.Model.pack
          (.finite .positive doubled exponent' canonical.positive)).unpack := by
  obtain ⟨canonical, _⟩ := unpack_finite unpacked
  obtain ⟨kept, shift, total, canonical', product⟩ := mul_two_pow canonical .positive 1
  refine ⟨_, _, canonical', by omega, ?_, ?_⟩
  · rw [size_mul_two_pow, show exponent + ((1 : Nat) - 52) + shift + kept = exponent + 1 by omega]
    unfold size
    rw [zpow_add_one₀ two_ne_zero, mul_assoc]
  · rw [double_unpack, unpacked, product]
    rfl

set_option maxRecDepth 2000 in
theorem unpack_limit : (1.0e100 : Float).toModel.unpack =
    .finite .positive 5147557589468029 280 (by decide) := rfl

theorem isFinite_double (nonneg : 0.0 ≤ x) (small : x < 1.0e100) :
    (x * 2.0).isFinite = true := by
  change (x * 2.0).toModel.unpack.isFinite = true
  rw [zero_le_iff] at nonneg
  rw [lt_iff_place_unpack, unpack_limit] at small
  cases unpacked : x.toModel.unpack with
  | notANumber =>
      rw [unpacked] at nonneg
      exact nonneg.elim
  | zero sign =>
      rw [double_unpack, unpacked]
      cases sign <;> rfl
  | infinity =>
      rw [unpacked] at nonneg small
      cases nonneg
      simp [place, Prod.Lex.toLex_lt_toLex] at small
  | finite =>
      rw [unpacked] at nonneg small
      cases nonneg
      simp only [place, Option.mem_def, Option.some.injEq, exists_eq_left',
        Prod.Lex.toLex_lt_toLex, lt_self_iff_false, true_and, false_or] at small
      obtain ⟨_, _, canonical, above, _, doubled⟩ := unpack_double unpacked
      rw [doubled, unpack_pack canonical (by omega)]
      rfl

/-- A positive factor of at most two at most doubles a value. -/
theorem mul_le_double (nonneg : 0.0 ≤ x) (finite : (x * 2.0).isFinite = true) (positive : 0.0 < y)
    (within : Within 2 y.toModel.unpack) :
    0.0 ≤ x * y ∧ x * y ≤ x * 2.0 ∧ (x * y).isFinite = true := by
  have above : 0.0 ≤ x * y := (zero_le_mul nonneg positive).resolve_right
    fun ⟨_, _, infinite⟩ => nomatch (show y.isFinite = true from within.isFinite).symm.trans infinite
  have finite : (x * 2.0).toModel.unpack.isFinite = true := finite
  refine ⟨above, ?_⟩
  rw [zero_le_iff] at nonneg
  cases unpacked : x.toModel.unpack with
  | notANumber =>
      rw [unpacked] at nonneg
      exact nonneg.elim
  | infinity =>
      rw [double_unpack, unpacked] at finite
      rw [unpacked] at nonneg
      cases nonneg
      cases (congrArg UnpackedFloat.isFinite (unpack_packedInfinity .positive)).symm.trans finite
  | zero sign =>
      have product : (x * y).toModel.unpack = .zero sign := by
        obtain unpacked' | ⟨_, _, _, unpacked'⟩ := zero_lt_iff.mp positive
        · rw [unpacked'] at within
          exact within.elim
        · have isZero : UnpackedFloat.mul .binary64 x.toModel.unpack y.toModel.unpack =
              .zero (sign * .positive) := by
            rw [unpacked, unpacked']
            rfl
          change (Float.Model.pack (UnpackedFloat.mul .binary64 x.toModel.unpack
            y.toModel.unpack)).unpack = _
          rw [isZero]
          cases sign <;> rfl
      have doubled : (x * 2.0).toModel.unpack = .zero sign := by
        rw [double_unpack, unpacked]
        cases sign <;> rfl
      refine ⟨le_iff_place_unpack _ _ |>.mpr ?_, congrArg UnpackedFloat.isFinite product⟩
      rw [product, doubled]
      exact ⟨_, rfl, _, rfl, le_rfl⟩
  | finite sign mantissa exponent =>
      rw [unpacked] at nonneg
      cases nonneg
      obtain ⟨doubled, exponent', canonical, _, exact, packed⟩ := unpack_double unpacked
      have small : exponent' ≤ 971 := by
        by_contra large
        rw [packed, unpack_pack_large (not_le.mp large)] at finite
        cases finite
      have itself : Within (size mantissa exponent) x.toModel.unpack := by
        rw [unpacked]
        exact ⟨(unpack_finite unpacked).1, le_rfl⟩
      have product := mul_within itself within canonical small exact.ge
      rw [unpack_pack canonical small] at packed
      exact ⟨le_of_within canonical product packed, product.isFinite⟩

end Operations

end DampedLeastSquares.FloatBounds
