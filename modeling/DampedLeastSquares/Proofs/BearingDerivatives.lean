import Mathlib
import DampedLeastSquares.Proofs.Exact.Losses
import DampedLeastSquares.Proofs.ObservedPairs

/-!
# The derivatives of bearings

In exact arithmetic the two blocks of the Jacobian are the derivatives of the bearings
by the coordinates of the cameras and by those of the landmarks, wherever no landmark
is straight above or below a camera.
-/

set_option autoImplicit false

open scoped Matrix

namespace DampedLeastSquares

open Exact

namespace Bearings

variable {n m : Nat}

/-! ## Coordinates -/

def abscissa (index : Fin n) : Fin (2 * n) := ⟨2 * index, by omega⟩

def ordinate (index : Fin n) : Fin (2 * n) := ⟨2 * index + 1, by omega⟩

theorem abscissa_ne_ordinate (index : Fin n) : abscissa index ≠ ordinate index := by
  simp [abscissa, ordinate]

/-- The point with this number among points whose coordinates are given in pairs. -/
def pointAt (coordinates : Fin (2 * n) → ℝ) (index : Fin n) : Point ℝ :=
  ⟨coordinates (abscissa index), coordinates (ordinate index)⟩

/-- The two numbers of a point in its columns, and zeros. -/
def pairAt (index : Fin n) (point : Point ℝ) : Fin (2 * n) → ℝ :=
  Pi.single (abscissa index) point.x + Pi.single (ordinate index) point.y

theorem interleave_pointAt (coordinates : Fin (2 * n) → ℝ) :
    Point.interleave (List.ofFn (pointAt coordinates)) = List.ofFn coordinates := by
  rw [List.ofFn_mul']
  unfold Point.interleave
  rw [List.flatMap_def, List.map_ofFn]
  rfl

/-- The scene of cameras and landmarks whose coordinates follow each other. -/
def sceneOf (cameras : Fin (2 * n) → ℝ) (landmarks : Fin (2 * m) → ℝ) : Scene ℝ :=
  ⟨List.ofFn (pointAt cameras), List.ofFn (pointAt landmarks)⟩

theorem decode_append (cameras : Fin (2 * n) → ℝ) (landmarks : Fin (2 * m) → ℝ) :
    Scene.decode n (List.ofFn (Fin.append cameras landmarks)) =
      .ok (sceneOf cameras landmarks) := by
  have encoded : (sceneOf cameras landmarks).encode = List.ofFn (Fin.append cameras landmarks) := by
    unfold Scene.encode sceneOf
    rw [interleave_pointAt, interleave_pointAt, List.ofFn_fin_append]
  have counted : (sceneOf cameras landmarks).cameras.length = n := List.length_ofFn
  rw [← encoded, ← Scene.decode_encode (sceneOf cameras landmarks), counted]

/-- What is made of all pairs, one camera after the other. -/
theorem flatMap_pairs {α β γ : Type} (value : α → β → γ) (first : Fin n → α)
    (second : Fin m → β) :
    (List.ofFn first).flatMap (fun left => (List.ofFn second).map (value left)) =
      List.ofFn fun row : Fin (n * m) => value (first row.divNat) (second row.modNat) := by
  rw [List.ofFn_mul, List.flatMap_def, List.map_ofFn]
  congr 2
  funext left
  rw [Function.comp_apply, List.map_ofFn]
  congr 1
  funext right
  have row (inside : left * m + right < n * m) :
      (⟨left * m + right, inside⟩ : Fin (n * m)) = Fin.mkDivMod left right :=
    Fin.ext (congrArg (· + (right : Nat)) (Nat.mul_comm _ _))
  rw [row, Fin.divNat_mkDivMod, Fin.modNat_mkDivMod, Function.comp_apply]

/-! ## What is stored -/

variable {k : Nat}

section Block

variable (slopes : Fin k → Point ℝ) (owner : Nat → Nat) (entry : Point ℝ → Point ℝ)
  (place : Fin k → Fin n) (owns : ∀ row : Fin k, owner row = place row)

include owns

theorem slopeBlock_get? (row : Fin k) (column : Fin (2 * n)) :
    (slopeBlock (List.ofFn slopes) n owner entry).get? row column =
      if column = abscissa (place row) then some (entry (slopes row)).x
      else if column = ordinate (place row) then some (entry (slopes row)).y else none := by
  have found : (slopeBlock (List.ofFn slopes) n owner entry).get? row column =
      if (place row : Nat) = column / 2 then
        some (if (column : Nat) % 2 = 0 then (entry (slopes row)).x else (entry (slopes row)).y)
      else none := by
    rw [get?_slopeBlock, owns]
    simp
  rw [found]
  simp only [Fin.ext_iff, abscissa, ordinate]
  by_cases owned : (place row : Nat) = column / 2
  · rw [if_pos owned]
    by_cases even : (column : Nat) % 2 = 0
    · rw [if_pos even, if_pos (by omega)]
    · rw [if_neg even, if_neg (by omega), if_pos (by omega)]
  · rw [if_neg owned, if_neg (by omega), if_neg (by omega)]

theorem slopeBlock_holds : (slopeBlock (List.ofFn slopes) n owner entry).Holds
    fun row => pairAt (place row) (entry (slopes row)) := by
  refine ⟨List.length_ofFn, by simp [slopeBlock], fun row column => ?_⟩
  rw [SparseMatrix.entry, slopeBlock_get? slopes owner entry place owns, literal_zero]
  unfold pairAt
  rw [Pi.add_apply, Pi.single_apply, Pi.single_apply]
  by_cases first : column = abscissa (place row)
  · rw [if_pos first, if_pos first, first, if_neg (abscissa_ne_ordinate _), add_zero]
    rfl
  · rw [if_neg first, if_neg first, zero_add]
    split <;> rfl

theorem slopeBlock_isSome (row : Fin k) (column : Fin (2 * n)) :
    ((slopeBlock (List.ofFn slopes) n owner entry).get? row column).isSome ↔
      (column : Nat) = 2 * place row ∨ (column : Nat) = 2 * place row + 1 := by
  rw [slopeBlock_get? slopes owner entry place owns]
  simp only [Fin.ext_iff, abscissa, ordinate]
  split
  · next first => simp [first]
  · next first => split <;> simp [*]

end Block

/-- Two entries are stored in each row of either block, in the columns of the row's camera and of
its landmark, and none elsewhere. -/
structure Places (left right : SparseMatrix ℝ) (n m : Nat) : Prop where
  left : ∀ (camera : Fin n) (landmark : Fin m) (column : Fin (2 * n)),
    (left.get? (camera * m + landmark) column).isSome ↔
      (column : Nat) = 2 * camera ∨ (column : Nat) = 2 * camera + 1
  right : ∀ (camera : Fin n) (landmark : Fin m) (column : Fin (2 * m)),
    (right.get? (camera * m + landmark) column).isSome ↔
      (column : Nat) = 2 * landmark ∨ (column : Nat) = 2 * landmark + 1

/-! ## Derivatives -/

theorem along_pairAt (index : Fin n) (point : Point ℝ) :
    along (pairAt index point) = point.x • ContinuousLinearMap.proj (abscissa index) +
      point.y • ContinuousLinearMap.proj (ordinate index) := by
  ext direction
  simp [pairAt]

theorem along_sideBySide (left : RealMatrix k n) (right : RealMatrix k m) (row : Fin k)
    (direction : Fin (n + m) → ℝ) : along (sideBySide left right row) direction =
      along (left row) (fun index => direction (Fin.castAdd m index)) +
        along (right row) (fun index => direction (Fin.natAdd n index)) := by
  simp only [along_apply, dotProduct, sideBySide, Fin.sum_univ_add, Fin.append_left,
    Fin.append_right]

theorem hasFDerivAt_bearing {E : Type} [NormedAddCommGroup E] [NormedSpace ℝ E]
    (camera landmark : E → Point ℝ) {x : E} {cx cy lx ly : E →L[ℝ] ℝ}
    (cameraX : HasFDerivAt (fun x => (camera x).x) cx x)
    (cameraY : HasFDerivAt (fun x => (camera x).y) cy x)
    (landmarkX : HasFDerivAt (fun x => (landmark x).x) lx x)
    (landmarkY : HasFDerivAt (fun x => (landmark x).y) ly x)
    (apart : (camera x).x ≠ (landmark x).x) :
    HasFDerivAt (fun x => bearing (camera x) (landmark x))
      ((slope (camera x) (landmark x)).x • (cx - lx) +
        (slope (camera x) (landmark x)).y • (cy - ly)) x := by
  have bottom : (landmark x).x - (camera x).x ≠ 0 := sub_ne_zero.mpr apart.symm
  have inverse := (hasDerivAt_inv bottom).comp_hasFDerivAt x (landmarkX.sub cameraX)
  refine ((landmarkY.sub cameraY).mul inverse).arctan.congr_fderiv ?_
  ext direction
  simp only [slope, literal_one]
  simp
  field_simp
  ring

variable (observations : Fin (n * m) → ℝ) (cameras : Fin (2 * n) → ℝ)
  (landmarks : Fin (2 * m) → ℝ)

/-- The bearings of all pairs less the observed ones, one camera after the other. -/
noncomputable def sights : Fin (n * m) → ℝ := fun row =>
  bearing (pointAt cameras row.divNat) (pointAt landmarks row.modNat) - observations row

/-- How the bearing in each row changes with the coordinates of its camera. -/
noncomputable def sightSlopes : Fin (n * m) → Point ℝ := fun row =>
  slope (pointAt cameras row.divNat) (pointAt landmarks row.modNat)

noncomputable def byCameras : RealMatrix (n * m) (2 * n) := fun row =>
  pairAt row.divNat (sightSlopes cameras landmarks row)

noncomputable def byLandmarks : RealMatrix (n * m) (2 * m) := fun row =>
  pairAt row.modNat ⟨-(sightSlopes cameras landmarks row).x, -(sightSlopes cameras landmarks row).y⟩

theorem residuals_append : residuals n (List.ofFn observations)
    (List.ofFn (Fin.append cameras landmarks)) =
      .ok (List.ofFn (sights observations cameras landmarks)) := by
  have rows : (sceneOf cameras landmarks).bearings.entries = List.ofFn fun row : Fin (n * m) =>
      bearing (pointAt cameras row.divNat) (pointAt landmarks row.modNat) := by
    rw [← flatMap_pairs bearing]
    exact List.flatMap_def.symm
  unfold residuals
  rw [decode_append, ok_bind, rows, combine?_ofFn]
  rfl

theorem blocks_append : ∃ left right,
    blocks n (List.ofFn (Fin.append cameras landmarks)) = .ok (left, right) ∧
      Places left right n m ∧ left.Holds (byCameras cameras landmarks) ∧
      right.Holds (byLandmarks cameras landmarks) := by
  have rows : (sceneOf cameras landmarks).slopes = List.ofFn (sightSlopes cameras landmarks) :=
    flatMap_pairs slope _ _
  have width : (sceneOf cameras landmarks).landmarks.length = m := List.length_ofFn
  have height : (sceneOf cameras landmarks).cameras.length = n := List.length_ofFn
  have row (camera : Fin n) (landmark : Fin m) :
      (camera * m + landmark : Nat) = Fin.mkDivMod camera landmark :=
    congrArg (· + (landmark : Nat)) (Nat.mul_comm _ _)
  unfold blocks
  rw [decode_append, ok_bind, rows, width, height]
  refine ⟨_, _, rfl, ⟨fun camera landmark column => ?_, fun camera landmark column => ?_⟩,
    slopeBlock_holds _ _ id _ fun row => rfl, slopeBlock_holds _ _ _ _ fun row => rfl⟩
  · rw [row, slopeBlock_isSome _ _ _ Fin.divNat fun row => rfl,
      Fin.divNat_mkDivMod]
  · rw [row, slopeBlock_isSome _ _ _ Fin.modNat fun row => rfl,
      Fin.modNat_mkDivMod]

variable {cameras landmarks}

section Apart

variable (apart : ∀ camera landmark, cameras (abscissa camera) ≠ landmarks (abscissa landmark))

include apart

theorem hasFDerivAt_cameras : HasFDerivAt (fun cameras => sights observations cameras landmarks)
    (linear (byCameras cameras landmarks)) cameras := by
  refine hasFDerivAt_of_rows fun row => ?_
  have rate := hasFDerivAt_bearing (fun cameras => pointAt cameras row.divNat)
    (fun _ => pointAt landmarks row.modNat) (hasFDerivAt_apply _ cameras)
    (hasFDerivAt_apply _ _) (hasFDerivAt_const _ _) (hasFDerivAt_const _ _) (apart _ _)
  refine (rate.sub_const (observations row)).congr_fderiv ?_
  rw [sub_zero, sub_zero]
  exact (along_pairAt _ _).symm

theorem hasFDerivAt_landmarks :
    HasFDerivAt (fun landmarks => sights observations cameras landmarks)
      (linear (byLandmarks cameras landmarks)) landmarks := by
  refine hasFDerivAt_of_rows fun row => ?_
  have rate := hasFDerivAt_bearing (fun _ => pointAt cameras row.divNat)
    (fun landmarks => pointAt landmarks row.modNat) (hasFDerivAt_const _ landmarks)
    (hasFDerivAt_const _ _) (hasFDerivAt_apply _ _) (hasFDerivAt_apply _ _) (apart _ _)
  refine (rate.sub_const (observations row)).congr_fderiv ?_
  rw [zero_sub, zero_sub, smul_neg, smul_neg, ← neg_smul, ← neg_smul]
  exact (along_pairAt row.modNat ⟨-_, -_⟩).symm

theorem hasFDerivAt_whole :
    HasFDerivAt (fun x : Fin (2 * n + 2 * m) → ℝ =>
        sights observations (fun index => x (Fin.castAdd _ index)) fun index =>
          x (Fin.natAdd _ index))
      (linear (sideBySide (byCameras cameras landmarks) (byLandmarks cameras landmarks)))
      (Fin.append cameras landmarks) := by
  refine hasFDerivAt_of_rows fun row => ?_
  have rate := hasFDerivAt_bearing
    (fun x : Fin (2 * n + 2 * m) → ℝ =>
      pointAt (fun index => x (Fin.castAdd (2 * m) index)) row.divNat)
    (fun x => pointAt (fun index => x (Fin.natAdd (2 * n) index)) row.modNat)
    (hasFDerivAt_apply _ (Fin.append cameras landmarks)) (hasFDerivAt_apply _ _)
    (hasFDerivAt_apply _ _) (hasFDerivAt_apply _ _) (by simpa [pointAt] using apart _ _)
  refine (rate.sub_const (observations row)).congr_fderiv ?_
  have first := along_pairAt row.divNat (sightSlopes cameras landmarks row)
  have second := along_pairAt row.modNat
    ⟨-(sightSlopes cameras landmarks row).x, -(sightSlopes cameras landmarks row).y⟩
  change along (byCameras cameras landmarks row) = _ at first
  change along (byLandmarks cameras landmarks row) = _ at second
  ext direction
  rw [along_sideBySide, first, second]
  simp [pointAt, sightSlopes]
  ring

end Apart

/-- The matrices are the derivatives of the bearings by the coordinates of cameras and of
landmarks, and side by side they are the derivative by all parameters. -/
structure Differentiate (observations : Fin (n * m) → ℝ) (cameras : Fin (2 * n) → ℝ)
    (landmarks : Fin (2 * m) → ℝ) (first : RealMatrix (n * m) (2 * n))
    (second : RealMatrix (n * m) (2 * m)) : Prop where
  byCameras : HasFDerivAt (fun cameras => sights observations cameras landmarks) (linear first)
    cameras
  byLandmarks : HasFDerivAt (fun landmarks => sights observations cameras landmarks) (linear second)
    landmarks
  byParameters : HasFDerivAt (fun x : Fin (2 * n + 2 * m) → ℝ =>
    sights observations (fun index => x (Fin.castAdd _ index)) fun index =>
      x (Fin.natAdd _ index)) (linear (sideBySide first second)) (Fin.append cameras landmarks)

/-- Wherever no landmark is straight above or below a camera, the blocks hold the derivatives of the
residuals by cameras and by landmarks, each entry at the place of its pair and its coordinate. The
whole Jacobian holds both side by side. -/
theorem blocks_differentiate (n m : Nat) (observations : Fin (n * m) → ℝ)
    (cameras : Fin (2 * n) → ℝ) (landmarks : Fin (2 * m) → ℝ)
    (apart : ∀ camera landmark, cameras (abscissa camera) ≠ landmarks (abscissa landmark)) :
    (∀ cameras landmarks, residuals n (List.ofFn observations)
        (List.ofFn (Fin.append cameras landmarks)) =
      .ok (List.ofFn (sights observations cameras landmarks))) ∧
    ∃ left right whole first second,
      blocks n (List.ofFn (Fin.append cameras landmarks)) = .ok (left, right) ∧
      jacobian n (List.ofFn (Fin.append cameras landmarks)) = .ok whole ∧
      Places left right n m ∧ left.Holds first ∧ right.Holds second ∧
      whole.Holds (sideBySide first second) ∧
      Differentiate observations cameras landmarks first second := by
  obtain ⟨left, right, built, places, holds, holds'⟩ := blocks_append cameras landmarks
  obtain ⟨whole, appended, joined⟩ := holds.append? holds'
  refine ⟨residuals_append observations, left, right, whole, _, _, built, ?_, places, holds, holds',
    joined, hasFDerivAt_cameras observations apart, hasFDerivAt_landmarks observations apart,
    hasFDerivAt_whole observations apart⟩
  unfold jacobian
  rw [built, ok_bind]
  change Fault.fit (left.append? right) = .ok whole
  rw [appended]
  rfl

/-- Two cameras at the origin and three landmarks to the right of and above it. -/
theorem blocks_differentiate_from_origin :
    (∀ (camera : Fin 2) (landmark : Fin 3), (fun _ => 0 : Fin (2 * 2) → ℝ) (abscissa camera) ≠
      (fun _ => 1 : Fin (2 * 3) → ℝ) (abscissa landmark)) ∧
    ∃ left right whole first second,
      blocks 2 (List.ofFn (Fin.append (fun _ => 0 : Fin (2 * 2) → ℝ) fun _ : Fin (2 * 3) => 1)) =
        .ok (left, right) ∧
      jacobian 2 (List.ofFn (Fin.append (fun _ => 0 : Fin (2 * 2) → ℝ) fun _ : Fin (2 * 3) => 1)) =
        .ok whole ∧
      Places left right 2 3 ∧ left.Holds first ∧ right.Holds second ∧
      whole.Holds (sideBySide first second) ∧
      Differentiate (fun _ => 0 : Fin (2 * 3) → ℝ) (fun _ => 0 : Fin (2 * 2) → ℝ) (fun _ => 1)
        first second := by
  have apart (camera : Fin 2) (landmark : Fin 3) :
      (fun _ => 0 : Fin (2 * 2) → ℝ) (abscissa camera) ≠
        (fun _ => 1 : Fin (2 * 3) → ℝ) (abscissa landmark) := zero_ne_one
  exact ⟨apart, (blocks_differentiate 2 3 (fun _ => 0) (fun _ => 0) (fun _ => 1) apart).2⟩

end Bearings

end DampedLeastSquares
