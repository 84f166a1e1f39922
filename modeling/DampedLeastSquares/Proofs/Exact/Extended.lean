import Mathlib.Data.EReal.Basic
import DampedLeastSquares.Proofs.Exact.Real

/-!
# Exact arithmetic with infinite and undefined values

The real numbers with two infinities and a value that is no number, as scalars. Where a
computation on real numbers has a result it is exact. The other results are the usual ones
of floating point: a difference of equal infinities, a quotient of infinities, and the
product of zero and an infinity are undefined, and no comparison with something undefined
holds.
-/

set_option autoImplicit false

namespace DampedLeastSquares

/-- A real number, an infinity, or no number. -/
inductive Extended where
  | undefined
  | finite (value : ℝ)
  | infinite (negative : Bool)

namespace Extended

noncomputable section

def isNaN : Extended → Bool
  | undefined => true
  | _ => false

def isFinite : Extended → Bool
  | finite _ => true
  | _ => false

def neg : Extended → Extended
  | undefined => undefined
  | finite value => finite (-value)
  | infinite negative => infinite (!negative)

def abs : Extended → Extended
  | undefined => undefined
  | finite value => finite |value|
  | infinite _ => infinite false

def add : Extended → Extended → Extended
  | finite left, finite right => finite (left + right)
  | infinite left, infinite right => if left = right then infinite left else undefined
  | infinite negative, finite _ => infinite negative
  | finite _, infinite negative => infinite negative
  | _, _ => undefined

/-- An infinity times or divided by a number. -/
def scaled (negative : Bool) (factor : ℝ) : Extended := infinite (negative ^^ decide (factor < 0))

def mul : Extended → Extended → Extended
  | finite left, finite right => finite (left * right)
  | infinite left, infinite right => infinite (left ^^ right)
  | infinite negative, finite factor => if factor = 0 then undefined else scaled negative factor
  | finite factor, infinite negative => if factor = 0 then undefined else scaled negative factor
  | _, _ => undefined

def div : Extended → Extended → Extended
  | finite left, finite right =>
      if right = 0 then if left = 0 then undefined else scaled false left
      else finite (left / right)
  | infinite negative, finite divisor => scaled negative divisor
  | finite _, infinite _ => finite 0
  | _, _ => undefined

/-- A function of real numbers that has these limits at the infinities. -/
def extend (function : ℝ → Extended) (below above : Extended) : Extended → Extended
  | undefined => undefined
  | finite value => function value
  | infinite true => below
  | infinite false => above

/-- The place in the order of the numbers that have one. -/
def place? : Extended → Option EReal
  | undefined => none
  | finite value => some value
  | infinite true => some ⊥
  | infinite false => some ⊤

/-- Both have a place in the order, and these are related. -/
def Compares (relation : EReal → EReal → Prop) (left right : Extended) : Prop :=
  ∃ first ∈ left.place?, ∃ second ∈ right.place?, relation first second

open Classical in
instance : Scalar Extended where
  add := add
  sub left right := add left (neg right)
  mul := mul
  div := div
  neg := neg
  lt := Compares (· < ·)
  le := Compares (· ≤ ·)
  beq left right := decide (left ≠ undefined ∧ left = right)
  ofScientific mantissa negative exponent :=
    finite (OfScientific.ofScientific mantissa negative exponent)
  decidableLT _ _ := inferInstance
  decidableLE _ _ := inferInstance
  ofNat count := finite count
  abs := abs
  sqrt := extend (fun value => if value < 0 then undefined else finite (Real.sqrt value))
    undefined (infinite false)
  exp := extend (fun value => finite (Real.exp value)) (finite 0) (infinite false)
  logOnePlus := extend
    (fun value => if value < -1 then undefined else if value = -1 then infinite true
      else finite (Real.log (1 + value))) undefined (infinite false)
  -- a quarter turn either way
  arctan := extend (fun value => finite (Real.arctan value)) (finite (Real.arcsin (-1)))
    (finite (Real.arcsin 1))
  isFinite := isFinite
  isNaN := isNaN

end

/-! ## Comparisons -/

variable {first second third : Extended} {x y : ℝ}

theorem finite_le_finite : finite x ≤ finite y ↔ x ≤ y := by
  change Compares (· ≤ ·) _ _ ↔ _
  simp [Compares, place?]

theorem finite_lt_finite : finite x < finite y ↔ x < y := by
  change Compares (· < ·) _ _ ↔ _
  simp [Compares, place?]

@[simp] theorem finite_lt_infinite : finite x < infinite false := by
  change Compares (· < ·) _ _
  simp [Compares, place?]

theorem not_infinite_lt : ¬ infinite false < second := by
  rintro ⟨_, top, _, _, above⟩
  cases top
  exact not_top_lt above

theorem finite_le_infinite : finite x ≤ infinite false := by
  change Compares (· ≤ ·) _ _
  simp [Compares, place?]

theorem not_finite_le_infinite : ¬ finite x ≤ infinite true := by
  change ¬ Compares (· ≤ ·) _ _
  simp [Compares, place?]

theorem not_undefined_le : ¬ undefined ≤ second := by
  rintro ⟨_, none, _⟩
  cases none

theorem not_le_undefined : ¬ first ≤ undefined := by
  rintro ⟨_, _, _, none, _⟩
  cases none

theorem not_lt_undefined : ¬ first < undefined := by
  rintro ⟨_, _, _, none, _⟩
  cases none

theorem le_trans (lower : first ≤ second) (upper : second ≤ third) : first ≤ third := by
  obtain ⟨low, lowAt, middle, middleAt, lower⟩ := lower
  obtain ⟨_, middleAt', high, highAt, upper⟩ := upper
  cases Option.some.inj (middleAt.symm.trans middleAt')
  exact ⟨low, lowAt, high, highAt, lower.trans upper⟩

theorem le_of_lt (below : first < second) : first ≤ second := by
  obtain ⟨low, lowAt, high, highAt, below⟩ := below
  exact ⟨low, lowAt, high, highAt, below.le⟩

theorem exists_place (defined : first ≠ undefined) : ∃ place, place ∈ first.place? := by
  cases first with
  | undefined => exact (defined rfl).elim
  | finite value => exact ⟨_, rfl⟩
  | infinite negative => cases negative <;> exact ⟨_, rfl⟩

/-- Numbers and infinities are in a total order. -/
theorem le_of_not_lt (defined : first ≠ undefined) (defined' : second ≠ undefined)
    (level : ¬ first < second) : second ≤ first := by
  obtain ⟨low, lowAt⟩ := exists_place defined
  obtain ⟨high, highAt⟩ := exists_place defined'
  refine ⟨high, highAt, low, lowAt, not_lt.mp fun below => level ?_⟩
  exact ⟨low, lowAt, high, highAt, below⟩

open Classical in
theorem eq_of_beq (level : (first == second) = true) : first = second := by
  have same : first ≠ undefined ∧ first = second := of_decide_eq_true level
  exact same.2

open Classical in
theorem beq_finite : (finite x == finite y) = decide (x = y) := by
  change decide (finite x ≠ undefined ∧ finite x = finite y) = _
  simp

theorem isNaN_iff : Scalar.isNaN first = true ↔ first = undefined := by
  change first.isNaN = true ↔ _
  cases first <;> simp [isNaN]

/-! ## Values -/

@[simp] theorem literal_zero :
    @OfScientific.ofScientific Extended Scalar.toOfScientific 0 true 1 = finite 0 :=
  congrArg finite Exact.literal_zero

@[simp] theorem abs_finite : Scalar.abs (finite x) = finite |x| := rfl

theorem sub_finite : finite x - finite y = finite (x - y) :=
  congrArg finite (sub_eq_add_neg x y).symm

theorem div_finite (nonzero : y ≠ 0) : finite x / finite y = finite (x / y) := if_neg nonzero

theorem sub_undefined (undefined : first = undefined ∨ second = undefined) :
    first - second = .undefined := by
  obtain rfl | rfl := undefined
  · cases second <;> rfl
  · cases first <;> rfl

theorem abs_eq_undefined : Scalar.abs first = undefined ↔ first = undefined := by
  change first.abs = _ ↔ _
  cases first <;> simp [abs]

/-- A magnitude beyond all real numbers, or no number at all. -/
def Unbounded (value : Extended) : Prop := value = infinite false ∨ value = undefined

theorem abs_sub_unbounded {negative : Bool}
    (infinite : first = infinite negative ∨ second = infinite negative) :
    Unbounded (Scalar.abs (first - second)) := by
  obtain rfl | rfl := infinite
  · cases second with
    | undefined => exact .inr rfl
    | finite y => exact .inl rfl
    | infinite other => cases negative <;> cases other <;> first | exact .inl rfl | exact .inr rfl
  · cases first with
    | undefined => exact .inr rfl
    | finite x => exact .inl rfl
    | infinite other => cases negative <;> cases other <;> first | exact .inl rfl | exact .inr rfl

theorem Unbounded.div_infinite (unbounded : Unbounded first) :
    first / infinite false = undefined := by
  obtain rfl | rfl := unbounded <;> rfl

theorem larger_undefined (undefined : first = undefined ∨ second = undefined) :
    Scalar.larger first second = .undefined := by
  unfold Scalar.larger
  obtain rfl | rfl := undefined
  · rfl
  · split
    · next undefined => exact isNaN_iff.mp undefined
    · rfl

theorem larger_finite : Scalar.larger (finite x) (finite y) = finite (max x y) := by
  change (if finite x < finite y then finite y else finite x) = _
  split
  · next below => rw [max_eq_right (finite_lt_finite.mp below).le]
  · next level => rw [max_eq_left (not_lt.mp (mt finite_lt_finite.mpr level))]

theorem larger_abs_infinite {negative : Bool}
    (infinite : first = infinite negative ∨ second = infinite negative)
    (defined : first ≠ undefined) (defined' : second ≠ undefined) :
    Scalar.larger (Scalar.abs first) (Scalar.abs second) = .infinite false := by
  obtain rfl | rfl := infinite
  · cases second with
    | undefined => exact (defined' rfl).elim
    | finite y => exact if_neg not_infinite_lt
    | infinite other => exact ite_self _
  · cases first with
    | undefined => exact (defined rfl).elim
    | finite x => exact if_pos finite_lt_infinite
    | infinite other => exact ite_self _

end Extended

end DampedLeastSquares
