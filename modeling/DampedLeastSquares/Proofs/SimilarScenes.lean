import Mathlib
import DampedLeastSquares.Proofs.BearingDerivatives
import DampedLeastSquares.Proofs.Exact.Operations
import DampedLeastSquares.Proofs.Exact.Units

/-!
# Similar scenes

Moving a whole scene or scaling it changes no bearing. So the Jacobian vanishes in these
directions, the normal matrix is singular, and no layout of it finds a step unless it is damped.
-/

set_option autoImplicit false

open scoped Matrix Topology

namespace DampedLeastSquares

open Exact NormalMatrix

variable {n m k l : Nat}

/-! ## Directions without change -/

/-- Where a function does not change along a line, its derivative vanishes along it. -/
theorem mulVec_eq_zero_of_constant {function : (Fin k → ℝ) → Fin l → ℝ}
    {jacobian : RealMatrix l k} {x direction : Fin k → ℝ}
    (differentiable : HasFDerivAt function (linear jacobian) x)
    (constant : ∀ᶠ time in 𝓝 (0 : ℝ), function (x + time • direction) = function x) :
    jacobian *ᵥ direction = 0 := by
  have line : HasDerivAt (fun time : ℝ => x + time • direction) direction 0 := by
    simpa using ((hasDerivAt_id (0 : ℝ)).smul_const direction).const_add x
  have start : HasFDerivAt function (linear jacobian) (x + (0 : ℝ) • direction) := by
    simpa using differentiable
  have slope := start.comp_hasDerivAt 0 line
  have level := (hasDerivAt_const (0 : ℝ) (function x)).congr_of_eventuallyEq constant
  exact slope.unique level

theorem mulVec_gram_eq_zero {jacobian : RealMatrix l k} {direction : Fin k → ℝ}
    (level : jacobian *ᵥ direction = 0) : (jacobianᵀ * jacobian) *ᵥ direction = 0 := by
  rw [← Matrix.mulVec_mulVec, level, Matrix.mulVec_zero]

/-! ## Singular systems -/

theorem not_posDef_of_mulVec_eq_zero {matrix : RealMatrix k k} (symmetric : matrix.IsSymm)
    {direction : Fin k → ℝ} (nonzero : direction ≠ 0) (level : matrix *ᵥ direction = 0) :
    ¬ matrix.PosDef := by
  intro definite
  have above := (posDef_iff symmetric).mp definite direction nonzero
  rw [level, dotProduct_zero] at above
  exact above.false

namespace NormalMatrix

variable [Spectral ℝ]

/-- The normal matrix stands for a singular matrix. Where it is solved by elimination, preparing
it fails or solving it does, whatever the right-hand side, and `out` stays as it is. -/
def IsSingular (normal : NormalMatrix ℝ) (size : Nat) : Prop :=
  ∃ matrix : RealMatrix size size, normal.Represents matrix ∧ matrix.det = 0 ∧ ¬ matrix.PosDef ∧
    (normal.layout?.isSome → ∃ prepared failure?, normal.prepare = .ok (prepared, failure?) ∧
      (failure? = none → ∀ (rhs : Fin size → ℝ) (out : Vec ℝ), out.length = size →
        ∃ reason, prepared.solve (List.ofFn rhs) out = .ok (out, some reason)))

theorem Represents.isSingular {normal : NormalMatrix ℝ} {matrix : RealMatrix k k}
    (represents : normal.Represents matrix) (symmetric : matrix.IsSymm) {direction : Fin k → ℝ}
    (nonzero : direction ≠ 0) (level : matrix *ᵥ direction = 0) : normal.IsSingular k := by
  have indefinite := not_posDef_of_mulVec_eq_zero symmetric nonzero level
  refine ⟨matrix, represents, Matrix.exists_mulVec_eq_zero_iff.mp ⟨direction, nonzero, level⟩,
    indefinite, fun eliminates => ?_⟩
  obtain ⟨definite, _⟩ | ⟨_, prepared, failure?, ready, _, _, fails⟩ :=
    represents.decides symmetric eliminates
  · exact (indefinite definite).elim
  · exact ⟨prepared, failure?, ready, fails⟩

/-- What the normal matrix takes from a Jacobian is singular, as it is and in any units. -/
def StaysSingular (normal : NormalMatrix ℝ) (jacobian : Derivative ℝ) (size : Nat) : Prop :=
  ∃ changed, normal.update jacobian = (.ok (), changed) ∧ changed.IsSingular size ∧
    ∀ scaling : Fin size → ℝ, (∀ index, scaling index ≠ 0) → ∃ divided,
      changed.divide (List.ofFn scaling) = (.ok (), divided) ∧ divided.IsSingular size

theorem Takes.staysSingular {left : RealMatrix l n} {right : RealMatrix l m}
    {normal : NormalMatrix ℝ} {jacobian : Derivative ℝ} (takes : Takes left right normal jacobian)
    {direction : Fin (n + m) → ℝ} (nonzero : direction ≠ 0)
    (level : sideBySide left right *ᵥ direction = 0) :
    normal.StaysSingular jacobian (n + m) := by
  have symmetric := gram_isSymm (sideBySide left right)
  have flat := mulVec_gram_eq_zero level
  obtain ⟨changed, updated, holds, _⟩ := takes.update
  have represents : changed.Represents _ := represents_iff.mpr ⟨n, m, rfl, holds⟩
  refine ⟨changed, updated, represents.isSingular symmetric nonzero flat, ?_⟩
  intro scaling units
  obtain ⟨divided, ran, represents', _⟩ := represents.divide scaling
  have moves : scaling * direction ≠ 0 := by
    intro still
    refine nonzero (funext fun index => ?_)
    exact (mul_eq_zero.mp (congrFun still index)).resolve_left (units index)
  refine ⟨divided, ran, represents'.isSingular (divided_isSymm symmetric scaling) moves ?_⟩
  rw [divided_mulVec units, flat]
  funext index
  exact zero_div _

end NormalMatrix

namespace Bearings

/-! ## Moving and scaling -/

/-- The same offset at every point. -/
def everywhere (offset : Point ℝ) : Fin (2 * n) → ℝ :=
  fun index => if (index : Nat) % 2 = 0 then offset.x else offset.y

theorem everywhere_abscissa (offset : Point ℝ) (index : Fin n) :
    everywhere offset (abscissa index) = offset.x := by
  simp [everywhere, abscissa]

theorem everywhere_ordinate (offset : Point ℝ) (index : Fin n) :
    everywhere offset (ordinate index) = offset.y := by
  simp [everywhere, ordinate, Nat.add_mod]

/-- The same offset at all cameras and all landmarks. -/
def commonOffset (n m : Nat) (offset : Point ℝ) : Fin (2 * n + 2 * m) → ℝ :=
  Fin.append (everywhere offset) (everywhere offset)

theorem commonOffset_ne_zero (nonempty : 0 < n + m) : commonOffset n m ⟨1, 0⟩ ≠ 0 := by
  unfold commonOffset
  intro zero
  obtain cameras | landmarks := Nat.add_pos_iff_pos_or_pos.mp nonempty
  · have entry := congrFun zero (Fin.castAdd (2 * m) (abscissa ⟨0, cameras⟩))
    rw [Fin.append_left, everywhere_abscissa] at entry
    exact one_ne_zero entry
  · have entry := congrFun zero (Fin.natAdd (2 * n) (abscissa ⟨0, landmarks⟩))
    rw [Fin.append_right, everywhere_abscissa] at entry
    exact one_ne_zero entry

variable (observations : Fin (n * m) → ℝ) (cameras : Fin (2 * n) → ℝ)
  (landmarks : Fin (2 * m) → ℝ)

/-- A bearing depends only on how far the landmark is from the camera. -/
theorem sights_move (offset : Point ℝ) :
    sights observations (cameras + everywhere offset) (landmarks + everywhere offset) =
      sights observations cameras landmarks := by
  funext row
  simp [sights, bearing, pointAt, everywhere_abscissa, everywhere_ordinate]

/-- In a ratio of two differences a common factor cancels. -/
theorem sights_scale {factor : ℝ} (nonzero : factor ≠ 0) :
    sights observations (factor • cameras) (factor • landmarks) =
      sights observations cameras landmarks := by
  funext row
  simp [sights, bearing, pointAt, ← mul_sub, mul_div_mul_left, nonzero]

section Apart

variable {cameras landmarks}
variable (apart : ∀ camera landmark, cameras (abscissa camera) ≠ landmarks (abscissa landmark))

include apart

/-- A direction vanishes under the Jacobian if scenes along it have the same bearings. -/
theorem mulVec_of_sights {first : Fin (2 * n) → ℝ} {second : Fin (2 * m) → ℝ}
    (same : ∀ᶠ time in 𝓝 (0 : ℝ),
      sights 0 (cameras + time • first) (landmarks + time • second) =
        sights 0 cameras landmarks) :
    sideBySide (byCameras cameras landmarks) (byLandmarks cameras landmarks) *ᵥ
      Fin.append first second = 0 := by
  refine mulVec_eq_zero_of_constant (hasFDerivAt_whole 0 apart) ?_
  filter_upwards [same] with time same
  have left : (fun index => (Fin.append cameras landmarks + time • Fin.append first second)
      (Fin.castAdd (2 * m) index)) = cameras + time • first := by
    funext index
    simp
  have right : (fun index => (Fin.append cameras landmarks + time • Fin.append first second)
      (Fin.natAdd (2 * n) index)) = landmarks + time • second := by
    funext index
    simp
  rw [left, right, same]
  simp

theorem mulVec_commonOffset (offset : Point ℝ) :
    sideBySide (byCameras cameras landmarks) (byLandmarks cameras landmarks) *ᵥ
      commonOffset n m offset = 0 := by
  refine mulVec_of_sights apart (.of_forall fun time => ?_)
  have stretched (size : Nat) : (time • everywhere offset : Fin (2 * size) → ℝ) =
      everywhere ⟨time * offset.x, time * offset.y⟩ := by
    funext index
    simp [everywhere, mul_ite]
  rw [stretched, stretched, sights_move]

theorem mulVec_parameters :
    sideBySide (byCameras cameras landmarks) (byLandmarks cameras landmarks) *ᵥ
      Fin.append cameras landmarks = 0 := by
  refine mulVec_of_sights apart ?_
  have positive : ∀ᶠ time in 𝓝 (0 : ℝ), -1 < time := lt_mem_nhds (by norm_num)
  filter_upwards [positive] with time positive
  have factor {size : Nat} (coordinates : Fin size → ℝ) :
      coordinates + time • coordinates = (1 + time) • coordinates := by
    rw [add_smul, one_smul]
  rw [factor, factor, sights_scale 0 cameras landmarks (by linarith)]

end Apart

/-! ## The Jacobian in a normal matrix -/

/-- The Jacobian is handed over whole, densely unless the normal matrix is held sparsely, or in its
two blocks. -/
inductive Handed (left right whole : SparseMatrix ℝ) : NormalMatrix ℝ → Derivative ℝ → Prop where
  | whole (normal : WholeNormal ℝ) (asSparse : Bool)
      (fits : asSparse = true → normal.method.isSparse = true) :
      Handed left right whole (.whole normal)
        (.whole (.matrix ((Matrix.sparse whole).stored asSparse)))
  | blocks (normal : SplitNormal ℝ) (asSparse asSparse' : Bool) :
      Handed left right whole (.split normal)
        (.split (.matrix ((Matrix.sparse left).stored asSparse))
          (.matrix ((Matrix.sparse right).stored asSparse')))

theorem Handed.takes {left right whole : SparseMatrix ℝ} {first : RealMatrix l n}
    {second : RealMatrix l m} (holds : left.Holds first) (holds' : right.Holds second)
    (joined : whole.Holds (sideBySide first second)) {normal : NormalMatrix ℝ}
    {jacobian : Derivative ℝ} (handed : Handed left right whole normal jacobian) :
    Takes first second normal jacobian := by
  have stored {size : Nat} {found : SparseMatrix ℝ} {matrix : RealMatrix l size}
      (holds : found.Holds matrix) (asSparse : Bool) :
      ((Matrix.sparse found).stored asSparse).Represents matrix := by
    have represents : (Matrix.sparse found).Represents matrix := holds
    exact represents.stored asSparse
  cases handed with
  | blocks normal asSparse asSparse' =>
      exact ⟨⟨_, rfl, stored holds asSparse⟩, ⟨_, rfl, stored holds' asSparse'⟩⟩
  | whole normal asSparse fits =>
      refine ⟨⟨_, rfl, stored joined asSparse⟩, fun dense => ?_⟩
      cases asSparse with
      | false => exact ⟨_, rfl⟩
      | true => cases dense.symm.trans (fits rfl)

/-- A scene that is moved or scaled has the same residuals. The Jacobian takes every common offset,
and the parameters themselves, to zero, so that every normal matrix made from it is singular. -/
theorem similar_scenes_alike [Spectral ℝ] (n m : Nat) (nonempty : 0 < n + m)
    (observations : Fin (n * m) → ℝ) (cameras : Fin (2 * n) → ℝ) (landmarks : Fin (2 * m) → ℝ)
    (apart : ∀ camera landmark, cameras (abscissa camera) ≠ landmarks (abscissa landmark)) :
    (∃ values : Fin (n * m) → ℝ,
      residuals n (List.ofFn observations) (List.ofFn (Fin.append cameras landmarks)) =
        .ok (List.ofFn values) ∧
      (∀ offset, residuals n (List.ofFn observations)
          (List.ofFn (Fin.append (cameras + everywhere offset) (landmarks + everywhere offset))) =
        .ok (List.ofFn values)) ∧
      ∀ factor : ℝ, factor ≠ 0 → residuals n (List.ofFn observations)
          (List.ofFn (Fin.append (factor • cameras) (factor • landmarks))) =
        .ok (List.ofFn values)) ∧
    ∃ left right whole,
      blocks n (List.ofFn (Fin.append cameras landmarks)) = .ok (left, right) ∧
      jacobian n (List.ofFn (Fin.append cameras landmarks)) = .ok whole ∧
      (∀ offset, whole.mulVec? (List.ofFn (commonOffset n m offset)) =
        some (Vec.zeros (n * m))) ∧
      whole.mulVec? (List.ofFn (Fin.append cameras landmarks)) = some (Vec.zeros (n * m)) ∧
      ∀ normal jacobian, Handed left right whole normal jacobian →
        normal.StaysSingular jacobian (2 * n + 2 * m) := by
  constructor
  · refine ⟨sights observations cameras landmarks, residuals_append observations cameras landmarks,
      fun offset => ?_, fun factor nonzero => ?_⟩
    · rw [residuals_append, sights_move]
    · rw [residuals_append, sights_scale observations cameras landmarks nonzero]
  · obtain ⟨left, right, built, _, holds, holds'⟩ := blocks_append cameras landmarks
    obtain ⟨whole, appended, joined⟩ := holds.append? holds'
    have rejoined : jacobian n (List.ofFn (Fin.append cameras landmarks)) = .ok whole := by
      unfold jacobian
      rw [built, ok_bind]
      change Fault.fit (left.append? right) = .ok whole
      rw [appended]
      rfl
    refine ⟨left, right, whole, built, rejoined, ?_, ?_, ?_⟩
    · intro offset
      rw [joined.mulVec?, mulVec_commonOffset apart, Vec.zeros_eq]
    · rw [joined.mulVec?, mulVec_parameters apart, Vec.zeros_eq]
    · intro normal found handed
      exact (handed.takes holds holds' joined).staysSingular (commonOffset_ne_zero nonempty)
        (mulVec_commonOffset apart ⟨1, 0⟩)

/-- Two cameras at the origin and three landmarks to the right of and above it. -/
theorem similar_scenes_alike_from_origin : ∃ _ : Spectral ℝ, 0 < 2 + 3 ∧
    (∀ (camera : Fin 2) (landmark : Fin 3), (fun _ => 0 : Fin (2 * 2) → ℝ) (abscissa camera) ≠
      (fun _ => 1 : Fin (2 * 3) → ℝ) (abscissa landmark)) ∧
    (∃ values : Fin (2 * 3) → ℝ,
      residuals 2 (List.ofFn (0 : Fin (2 * 3) → ℝ)) (List.ofFn (Fin.append
        ((fun _ => 0 : Fin (2 * 2) → ℝ) + everywhere ⟨4, -1⟩)
        ((fun _ => 1 : Fin (2 * 3) → ℝ) + everywhere ⟨4, -1⟩))) = .ok (List.ofFn values) ∧
      residuals 2 (List.ofFn (0 : Fin (2 * 3) → ℝ)) (List.ofFn (Fin.append
        ((-2 : ℝ) • fun _ => 0 : Fin (2 * 2) → ℝ)
        ((-2 : ℝ) • fun _ => 1 : Fin (2 * 3) → ℝ))) = .ok (List.ofFn values)) ∧
    ∃ left right whole,
      blocks 2 (List.ofFn (Fin.append (fun _ => 0 : Fin (2 * 2) → ℝ)
        (fun _ => 1 : Fin (2 * 3) → ℝ))) = .ok (left, right) ∧
      jacobian 2 (List.ofFn (Fin.append (fun _ => 0 : Fin (2 * 2) → ℝ)
        (fun _ => 1 : Fin (2 * 3) → ℝ))) = .ok whole ∧
      (NormalMatrix.whole (.create .elimination)).StaysSingular
        (.whole (.matrix (.dense whole.toDense))) (2 * 2 + 2 * 3) ∧
      (NormalMatrix.split (.create true)).StaysSingular
        (.split (.matrix (.sparse left)) (.matrix (.sparse right))) (2 * 2 + 2 * 3) := by
  let spectral : Spectral ℝ := ⟨fun _ => []⟩
  have apart (camera : Fin 2) (landmark : Fin 3) :
      (fun _ => 0 : Fin (2 * 2) → ℝ) (abscissa camera) ≠
        (fun _ => 1 : Fin (2 * 3) → ℝ) (abscissa landmark) := zero_ne_one
  obtain ⟨⟨values, _, moved, scaled⟩, left, right, whole, built, rejoined, _, _, singular⟩ :=
    similar_scenes_alike 2 3 (by decide) 0 (fun _ => 0) (fun _ => 1) apart
  exact ⟨spectral, by decide, apart, ⟨values, moved _, scaled (-2) (by norm_num)⟩, left, right,
    whole, built, rejoined, singular _ _ (.whole _ false nofun), singular _ _ (.blocks _ true true)⟩

end Bearings

end DampedLeastSquares
