import Bravo.Relocalizer.Recover
import Mathlib.Data.List.Nodup

/-! # The attempt of a recovery frame

The part of `VioManager::process_long_gap_recovery_frame` that joins the last observations of the
left camera with the retained landmarks and hands them to the relocalizer. The correspondences are
sorted by their ids, so the order in which the tracker keeps its features does not reach the
relocalizer (`recoveryAttempt_of_perm`). The relocalizer itself does not sort
(`recover_reads_order`).
-/

namespace Bravo.Relocalizer

open List

/-! ## The live state -/

structure Pose where
  rotation : Matrix3d
  position : Vector3d

/-- The fields of a `Landmark` that an attempt reads. -/
structure RetainedLandmark where
  /-- `is_relative_representation(_feat_representation)` -/
  relative : Bool
  /-- `get_xyz(false)` -/
  xyz : Vector3d
  anchorCamId : Int
  anchorCloneTimestamp : Binary64

/-- The parts of the state that an attempt reads. A null pointer is an absent entry; the intrinsics
and the extrinsics are there for every camera. -/
structure LiveState where
  intrinsics : List Binary64
  width : Int32
  height : Int32
  calibIMUtoCAM : Int → Pose
  numCameras : Int
  maxArucoFeatures : Nat
  featuresSLAM : UInt64 → Option RetainedLandmark
  clonesIMU : Binary64 → Option Pose

/-- `cv::KeyPoint::pt`, two floats. -/
structure KeyPoint where
  x : UInt32
  y : UInt32

structure LastObservations where
  observationsCam0 : Option (List KeyPoint)
  idsCam0 : Option (List UInt64)

structure AttemptArithmetic where
  /-- `R^T * R_ItoC^T * (p_FinG - p_IinC) + p` of an anchor, the extrinsics and a point. -/
  fromAnchor : Pose → Pose → Vector3d → Vector3d
  /-- `static_cast<double>` of a float -/
  widen : UInt32 → Binary64

/-! ## The correspondences -/

section Attempt

variable (N : AttemptArithmetic) (live : LiveState)

/-- The calibration of the left camera; intrinsics that are too short make `K` invalid. -/
def frameCalibration : LongGapCameraCalibration :=
  let v := fun i => live.intrinsics.getD i ⟨0⟩
  let z : Binary64 := ⟨0⟩
  { K := if 8 ≤ live.intrinsics.length then !![v 0, z, v 2; z, v 1, v 3; z, z, one]
      else fun _ _ => .nan
    distortion := if 8 ≤ live.intrinsics.length then [v 4, v 5, v 6, v 7] else []
    imageWidth := live.width
    imageHeight := live.height
    R_ItoC := (live.calibIMUtoCAM 0).rotation
    p_IinC := (live.calibIMUtoCAM 0).position }

def globalPosition (retained : RetainedLandmark) : Option Vector3d :=
  if !retained.relative then some retained.xyz
  else if retained.anchorCamId < 0 ∨ live.numCameras ≤ retained.anchorCamId then none
  else (live.clonesIMU retained.anchorCloneTimestamp).map fun anchor =>
    N.fromAnchor anchor (live.calibIMUtoCAM retained.anchorCamId) retained.xyz

def correspondenceOf (observation : UInt64 × KeyPoint) : Option LongGapCorrespondence :=
  match live.featuresSLAM observation.1 with
  | none => none
  | some retained =>
    if observation.1.toNat ≤ 4 * live.maxArucoFeatures then none
    else (globalPosition N live retained).map fun p_FinG =>
      { id := observation.1
        p_FinG := p_FinG
        uvRaw := ![N.widen observation.2.x, N.widen observation.2.y] }

/-- `std::sort` by the id. -/
def sortById (correspondences : List LongGapCorrespondence) : List LongGapCorrespondence :=
  correspondences.mergeSort fun left right => decide (left.id ≤ right.id)

def frameCorrespondences (last : LastObservations) : List LongGapCorrespondence :=
  let collected :=
    match last.observationsCam0, last.idsCam0 with
    | some observations, some ids =>
      if observations.length = ids.length then
        (ids.zip observations).filterMap (correspondenceOf N live)
      else []
    | _, _ => []
  sortById collected

/-- The part of `process_long_gap_recovery_frame` from the calibration to the relocalizer. -/
def recoveryAttempt (A : PnpArithmetic) (cv : OpenCv) (last : LastObservations)
    (imuPredicted_R_GtoI : Matrix3d) : LongGapRelocalizationResult :=
  recover A cv (frameCorrespondences N live last) (frameCalibration live) imuPredicted_R_GtoI

end Attempt

/-! ## Order -/

section Order

variable {N : AttemptArithmetic} {live : LiveState}

theorem sortById_of_perm {l l' : List LongGapCorrespondence} (hperm : l.Perm l')
    (hids : (l.map fun c => c.id).Nodup) : sortById l = sortById l' := by
  have hsorted : ∀ l : List LongGapCorrespondence,
      (sortById l).Pairwise fun left right => left.id ≤ right.id := by
    intro l
    have hpairwise := @List.pairwise_mergeSort _
      (fun left right : LongGapCorrespondence => decide (left.id ≤ right.id))
      (fun a b c hab hbc =>
        decide_eq_true (UInt64.le_trans (of_decide_eq_true hab) (of_decide_eq_true hbc)))
      (fun a b => by simpa using UInt64.le_total a.id b.id) l
    exact hpairwise.imp fun h => of_decide_eq_true h
  have hsame : (sortById l).Perm (sortById l') :=
    (mergeSort_perm l _).trans (hperm.trans (mergeSort_perm l' _).symm)
  refine hsame.eq_of_pairwise (fun a b ha hb hab hba => ?_) (hsorted l) (hsorted l')
  -- Both are in the first list, which has every id once.
  have ha' : a ∈ l := (mergeSort_perm l _).mem_iff.mp ha
  have hb' : b ∈ l := hperm.mem_iff.mpr ((mergeSort_perm l' _).mem_iff.mp hb)
  exact inj_on_of_nodup_map hids ha' hb' (UInt64.le_antisymm hab hba)

theorem id_of_correspondenceOf {observation : UInt64 × KeyPoint} {c : LongGapCorrespondence}
    (h : correspondenceOf N live observation = some c) : c.id = observation.1 := by
  unfold correspondenceOf at h
  split at h
  · exact absurd h (by simp)
  · split_ifs at h
    obtain ⟨p, -, rfl⟩ := Option.map_eq_some_iff.mp h
    rfl

theorem nodup_filterMap_correspondenceOf {observations : List (UInt64 × KeyPoint)}
    (hids : (observations.map Prod.fst).Nodup) :
    ((observations.filterMap (correspondenceOf N live)).map fun c => c.id).Nodup := by
  induction observations with
  | nil => exact nodup_nil
  | cons observation rest ih =>
    rw [map_cons, nodup_cons] at hids
    cases hc : correspondenceOf N live observation with
    | none =>
      rw [filterMap_cons_none hc]
      exact ih hids.2
    | some c =>
      rw [filterMap_cons_some hc, map_cons, nodup_cons]
      refine ⟨fun hmem => hids.1 ?_, ih hids.2⟩
      obtain ⟨c', hc', heq⟩ := mem_map.mp hmem
      obtain ⟨other, hother, hsome⟩ := mem_filterMap.mp hc'
      rw [← id_of_correspondenceOf hc, ← heq, id_of_correspondenceOf hsome]
      exact mem_map_of_mem hother

theorem frameCorrespondences_of_perm {ids ids' : List UInt64} {observations observations' : List KeyPoint}
    (hlength : observations.length = ids.length) (hlength' : observations'.length = ids'.length)
    (hids : ids.Nodup) (hperm : (ids.zip observations).Perm (ids'.zip observations')) :
    frameCorrespondences N live ⟨some observations, some ids⟩ =
      frameCorrespondences N live ⟨some observations', some ids'⟩ := by
  simp only [frameCorrespondences, if_pos hlength, if_pos hlength']
  refine sortById_of_perm (hperm.filterMap _) (nodup_filterMap_correspondenceOf ?_)
  rwa [map_fst_zip (le_of_eq hlength.symm)]

theorem recover_of_perm_of_decided (A : PnpArithmetic) (cv : OpenCv)
    {calibration : LongGapCameraCalibration} {imuPredicted_R_GtoI : Matrix3d}
    {l l' : List LongGapCorrespondence} (hperm : l.Perm l')
    (hdecided : validCalibration A calibration = false ∨
      isRotationMatrix A imuPredicted_R_GtoI = false ∨
      ¬ ((validCorrespondences l).map fun c => c.id).Nodup ∨
      (validCorrespondences l).length < minimumCorrespondences) :
    recover A cv l calibration imuPredicted_R_GtoI =
      recover A cv l' calibration imuPredicted_R_GtoI := by
  have hvalid : (validCorrespondences l).Perm (validCorrespondences l') := hperm.filter _
  have hids : ((validCorrespondences l).map fun c => c.id).Nodup ↔
      ((validCorrespondences l').map fun c => c.id).Nodup := (hvalid.map _).nodup_iff
  unfold recover
  simp only [← hperm.length_eq, ← hvalid.length_eq, ← hids]
  by_cases hcalibration : validCalibration A calibration = true
  · by_cases hprior : isRotationMatrix A imuPredicted_R_GtoI = true
    · by_cases hdistinct : ((validCorrespondences l).map fun c => c.id).Nodup
      · have hfew : (validCorrespondences l).length < minimumCorrespondences := by
          rcases hdecided with h | h | h | h
          · exact absurd hcalibration (by rw [h]; decide)
          · exact absurd hprior (by rw [h]; decide)
          · exact absurd hdistinct h
          · exact h
        simp only [if_pos hfew]
      · simp only [decide_eq_false hdistinct, Bool.not_false, if_true]
    · simp only [Bool.eq_false_iff.mpr hprior, Bool.not_false, if_true]
  · simp only [Bool.eq_false_iff.mpr hcalibration, Bool.not_false, if_true]

/-- **An attempt does not depend on the order of the tracker.** The relocalizer is handed the same
list, so its result is the same; by itself it is independent of the order in what it decides before
the geometry. -/
theorem recoveryAttempt_of_perm (N : AttemptArithmetic) (live : LiveState) (A : PnpArithmetic)
    (cv : OpenCv) (imuPredicted_R_GtoI : Matrix3d) :
    (∀ (ids ids' : List UInt64) (observations observations' : List KeyPoint),
      observations.length = ids.length → observations'.length = ids'.length → ids.Nodup →
      (ids.zip observations).Perm (ids'.zip observations') →
      frameCorrespondences N live ⟨some observations, some ids⟩ =
          frameCorrespondences N live ⟨some observations', some ids'⟩ ∧
        recoveryAttempt N live A cv ⟨some observations, some ids⟩ imuPredicted_R_GtoI =
          recoveryAttempt N live A cv ⟨some observations', some ids'⟩ imuPredicted_R_GtoI) ∧
    ∀ (calibration : LongGapCameraCalibration) (l l' : List LongGapCorrespondence), l.Perm l' →
      (l.map fun c => c.id).Nodup →
      recover A cv (sortById l) calibration imuPredicted_R_GtoI =
          recover A cv (sortById l') calibration imuPredicted_R_GtoI ∧
        (validCalibration A calibration = false ∨ isRotationMatrix A imuPredicted_R_GtoI = false ∨
            (validCorrespondences l).length < minimumCorrespondences →
          recover A cv l calibration imuPredicted_R_GtoI =
            recover A cv l' calibration imuPredicted_R_GtoI) := by
  refine ⟨fun ids ids' observations observations' hlength hlength' hids hperm => ?_,
    fun calibration l l' hperm hids => ⟨?_, fun hdecided => ?_⟩⟩
  · have hsame := @frameCorrespondences_of_perm N live _ _ _ _ hlength hlength' hids hperm
    exact ⟨hsame, by unfold recoveryAttempt; rw [hsame]⟩
  · rw [sortById_of_perm hperm hids]
  · refine recover_of_perm_of_decided A cv hperm ?_
    rcases hdecided with h | h | h
    · exact .inl h
    · exact .inr (.inl h)
    · exact .inr (.inr (.inr h))

end Order

/-! ## Twelve corners -/

/-- The kernels on the data below, where the pose is the identity, all quotients are those of equal
numbers and all residuals are zero. -/
def cornerKernels : PnpArithmetic where
  transform _ p _ := p
  recoveredRotation _ R := R
  recoveredPosition _ p _ := p
  orthogonalityError _ := ⟨0⟩
  determinant _ := one
  hypot _ _ := ⟨0⟩
  div a b := if a = b then one else ⟨0⟩
  ratio inliers all := if inliers = all then one else ⟨0⟩
  ofInt _ := ⟨0x4000000000000000⟩
  centeredSingularValues _ := [⟨0x400bb67ae8584caa⟩, ⟨0x400bb67ae8584caa⟩, ⟨0⟩]
  norm _ := ⟨0x4006a09e667f3bcd⟩
  disagreementDegrees _ _ := ⟨0⟩

def cornerOpenCv : OpenCv where
  solvePnPRansac points _ _ _ _ :=
    some ⟨true, .ofVector3d Vector3d.zero, .ofVector3d Vector3d.zero,
      { rows := points.length, cols := 1 }⟩
  solvePnP _ _ _ _ _ _ _ :=
    some ⟨true, .ofVector3d Vector3d.zero, .ofVector3d Vector3d.zero⟩
  rodrigues _ m :=
    some (if m.total = 3 then .ofMatrix3d Matrix3d.identity else .ofVector3d Vector3d.zero)
  convertTo _ m := some m
  projectPoints _ points _ _ _ _ := some (points.map fun p => ![p 0, p 1])

/-- The corners of a square in front of the camera, each seen by three features. -/
def corner (id : UInt64) : LongGapCorrespondence :=
  let minusOne : Binary64 := ⟨0xbff0000000000000⟩
  let x := if id % 2 = 0 then one else minusOne
  let y := if id / 2 % 2 = 0 then one else minusOne
  ⟨id, ![x, y, one], ![x, y]⟩

def corners : List LongGapCorrespondence := [1, 2, 3, 4, 5, 6, 7, 8, 9, 10, 11, 12].map corner

def cornerCalibration : LongGapCameraCalibration where
  imageWidth := 2
  imageHeight := 2

section Steps

variable {A : PnpArithmetic} {cv : OpenCv} {calibration : LongGapCameraCalibration}
  {prior : Matrix3d} {valid : List LongGapCorrespondence}

theorem refineAndEvaluate_of_steps {supplied : Nat} {pose refined candidate : Matrix3d × Vector3d}
    {firstInliers secondInliers finalInliers : List Int}
    (hfirst : reclassifyAtFrozenThreshold A cv 2 valid calibration pose.1 pose.2 =
      some firstInliers) (hmany : 4 ≤ firstInliers.length)
    (hrefine : refineOnFixedInliers A cv 3 valid calibration firstInliers pose.1 pose.2 =
      some refined)
    (hsecond : reclassifyAtFrozenThreshold A cv 5 valid calibration refined.1 refined.2 =
      some secondInliers) (hmany' : 4 ≤ secondInliers.length)
    (hrefine' : refineOnFixedInliers A cv 6 valid calibration secondInliers refined.1 refined.2 =
      some candidate)
    (hfinal : reclassifyAtFrozenThreshold A cv 8 valid calibration candidate.1 candidate.2 =
      some finalInliers) :
    refineAndEvaluate A cv valid calibration prior supplied pose =
      evaluateCandidate A cv 9 valid calibration prior candidate.1 candidate.2 finalInliers
        supplied := by
  unfold refineAndEvaluate
  simp only [hfirst, if_neg (Nat.not_lt.mpr hmany), hrefine, hsecond,
    if_neg (Nat.not_lt.mpr hmany'), hrefine', hfinal]

theorem inlierIds_evaluateCandidate {call supplied : Nat} {R_GtoC : Matrix3d} {t_GinC : Vector3d}
    {indices : List Int} (hsorted : indices.Pairwise (· ≤ ·))
    (hadjacent : hasAdjacentEqual indices = false)
    (hrange : indices.any (outOfRange valid) = false) :
    (evaluateCandidate A cv call valid calibration prior R_GtoC t_GinC indices supplied).inlierIds =
      (indices.map (correspondenceAt valid)).map fun c => c.id := by
  have hsort : indices.mergeSort (fun i j => decide (i ≤ j)) = indices :=
    mergeSort_of_pairwise (hsorted.imp fun h => decide_eq_true h)
  have hgeometry : ∀ recovered inliers scan result,
      (evaluateGeometry A calibration prior recovered inliers scan result).inlierIds =
        result.inlierIds := by
    intro recovered inliers scan result
    unfold evaluateGeometry
    simp only
    split_ifs <;> rfl
  have hresiduals : ∀ recovered inliers result,
      (evaluateResiduals A cv call calibration prior R_GtoC t_GinC recovered inliers
        result).inlierIds = result.inlierIds := by
    intro recovered inliers result
    unfold evaluateResiduals
    simp only
    split_ifs
    · rfl
    · rfl
    · split
      · rfl
      · split_ifs
        · rfl
        · rfl
        · rfl
        · exact hgeometry _ _ _ _
  unfold evaluateCandidate
  simp only [hsort, hadjacent, hrange, Bool.or_false, Bool.false_eq_true, if_false]
  split_ifs <;> first | rfl | exact hresiduals _ _ _

end Steps

def cornerIndices : List Int := [0, 1, 2, 3, 4, 5, 6, 7, 8, 9, 10, 11]

theorem recover_corners {l : List LongGapCorrespondence} (hl : l = corners ∨ l = corners.reverse) :
    recover cornerKernels cornerOpenCv l cornerCalibration Matrix3d.identity =
      evaluateCandidate cornerKernels cornerOpenCv 9 (validCorrespondences l) cornerCalibration
        Matrix3d.identity Matrix3d.identity Vector3d.zero cornerIndices l.length := by
  let valid := validCorrespondences l
  let pose : Matrix3d × Vector3d := (Matrix3d.identity, Vector3d.zero)
  let refine' := fun call : Nat =>
    refineOnFixedInliers cornerKernels cornerOpenCv call valid cornerCalibration cornerIndices pose.1 pose.2
  let reclassify := fun call : Nat =>
    reclassifyAtFrozenThreshold cornerKernels cornerOpenCv call valid cornerCalibration pose.1 pose.2
  have hproposed : proposePose cornerKernels cornerOpenCv valid cornerCalibration = some pose := by
    rcases hl with rfl | rfl <;> decide +kernel
  have hrefined : refine' 3 = some pose ∧ refine' 6 = some pose := by
    rcases hl with rfl | rfl <;> decide +kernel
  have hreclassified : reclassify 2 = some cornerIndices ∧ reclassify 5 = some cornerIndices ∧
      reclassify 8 = some cornerIndices := by
    rcases hl with rfl | rfl <;> decide +kernel
  obtain ⟨hfirst, hsecond, hfinal⟩ := hreclassified
  have hchecks : validCalibration cornerKernels cornerCalibration = true ∧
      isRotationMatrix cornerKernels Matrix3d.identity = true ∧
      (valid.map fun c => c.id).Nodup ∧ ¬ valid.length < minimumCorrespondences ∧
      hasNoncollinearSupport cornerKernels
        (noncollinearSupportRatio cornerKernels (valid.map fun c => c.p_FinG))
        (valid.map fun c => c.p_FinG) = true := by
    rcases hl with rfl | rfl <;> decide +kernel
  obtain ⟨hcalibration, hprior, hids, hcount, hsupport⟩ := hchecks
  have hrecover : recover cornerKernels cornerOpenCv l cornerCalibration Matrix3d.identity =
      refineAndEvaluate cornerKernels cornerOpenCv valid cornerCalibration Matrix3d.identity l.length
        pose := by
    unfold recover
    simp only [hcalibration, hprior, Bool.not_true, Bool.false_eq_true, if_false]
    rw [if_neg (by simpa using hids), if_neg hcount, if_neg (by simpa using hsupport), hproposed]
  rw [hrecover]
  exact @refineAndEvaluate_of_steps cornerKernels cornerOpenCv cornerCalibration Matrix3d.identity valid
    l.length pose pose pose cornerIndices cornerIndices cornerIndices hfirst (by decide) hrefined.1 hsecond
    (by decide) hrefined.2 hfinal

theorem inlierIds_recover_corners {l : List LongGapCorrespondence}
    (hl : l = corners ∨ l = corners.reverse) :
    (recover cornerKernels cornerOpenCv l cornerCalibration Matrix3d.identity).inlierIds =
      l.map fun c => c.id := by
  rw [recover_corners hl, inlierIds_evaluateCandidate (by decide) (by decide)]
  · rcases hl with rfl | rfl <;> decide +kernel
  · rcases hl with rfl | rfl <;> decide +kernel

/-- The inliers are listed in the order of the argument. -/
theorem recover_reads_order :
    corners.Perm corners.reverse ∧ (corners.map fun c => c.id).Nodup ∧
      (recover cornerKernels cornerOpenCv corners cornerCalibration Matrix3d.identity).inlierIds ≠
        (recover cornerKernels cornerOpenCv corners.reverse cornerCalibration
          Matrix3d.identity).inlierIds := by
  refine ⟨(reverse_perm _).symm, by decide, ?_⟩
  rw [inlierIds_recover_corners (.inl rfl), inlierIds_recover_corners (.inr rfl)]
  decide

end Bravo.Relocalizer
