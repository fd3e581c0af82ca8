import Mathlib.LinearAlgebra.Matrix.Notation
import Mathlib.Data.List.Sort
import Bravo.Basic.Numerals
import Bravo.Basic.Binary64

/-! # Relocalization after a long gap

`LongGapRelocalizer::recover`: the checks of its input, the pose that OpenCV proposes, the
reclassification and refinement around it, and the gates of `evaluate_candidate`. OpenCV may answer
anything at every call (`OpenCv`), and the floating-point kernels are parameters (`PnpArithmetic`).
-/

namespace Bravo.Relocalizer

/-! ## Values -/

abbrev Vector2d := Fin 2 → Binary64
abbrev Vector3d := Fin 3 → Binary64
abbrev Matrix3d := Matrix (Fin 3) (Fin 3) Binary64

def one : Binary64 := ⟨0x3ff0000000000000⟩
def infinity : Binary64 := ⟨0x7ff0000000000000⟩
def negativeInfinity : Binary64 := ⟨0xfff0000000000000⟩

def abs (x : Binary64) : Binary64 := Binary64.ofSignMagnitude false x.magnitude

def min (a b : Binary64) : Binary64 := if b < a then b else a

def Vector3d.zero : Vector3d := fun _ => ⟨0⟩

def Matrix3d.identity : Matrix3d := fun i j => if i = j then one else ⟨0⟩

/-- `allFinite` of a vector -/
def finiteVector {n : Nat} (v : Fin n → Binary64) : Bool :=
  (List.finRange n).all fun i => (v i).isFinite

/-- `allFinite` of a matrix -/
def finiteMatrix (M : Matrix3d) : Bool := (List.finRange 3).all fun i => finiteVector (M i)

structure LongGapCorrespondence where
  id : UInt64 := 0
  p_FinG : Vector3d := Vector3d.zero
  uvRaw : Vector2d := fun _ => ⟨0⟩

structure LongGapCameraCalibration where
  K : Matrix3d := Matrix3d.identity
  distortion : List Binary64 := []
  imageWidth : Int32 := 0
  imageHeight : Int32 := 0
  R_ItoC : Matrix3d := Matrix3d.identity
  p_IinC : Vector3d := Vector3d.zero

inductive LongGapRelocalizationReason where
  | accepted
  | invalidCalibration
  | invalidOrientationPrior
  | duplicateCorrespondenceId
  | insufficientCorrespondences
  | noncollinearSupportRequired
  | pnpFailed
  | insufficientInliers
  | inlierRatioTooLow
  | nonfinitePose
  | nonpositiveDepth
  | nonfiniteResidual
  | reprojectionErrorTooHigh
  | imageBoundsXTooSmall
  | imageBoundsYTooSmall
  | orientationDisagreementTooLarge
deriving DecidableEq, Repr

structure LongGapRelocalizationMetrics where
  suppliedCorrespondenceCount : Nat := 0
  validCorrespondenceCount : Nat := 0
  inlierCount : Nat := 0
  inlierRatio : Binary64 := ⟨0⟩
  maxReprojectionErrorPx : Binary64 := ⟨0⟩
  minDepth : Binary64 := ⟨0⟩
  imageSpanXFraction : Binary64 := ⟨0⟩
  imageSpanYFraction : Binary64 := ⟨0⟩
  secondToFirst3dSingularRatio : Binary64 := ⟨0⟩
  orientationDisagreementDeg : Binary64 := ⟨0⟩

structure LongGapRelocalizationResult where
  accepted : Bool := false
  reason : LongGapRelocalizationReason := .pnpFailed
  R_GtoI : Matrix3d := Matrix3d.identity
  p_IinG : Vector3d := Vector3d.zero
  inlierIds : List UInt64 := []
  metrics : LongGapRelocalizationMetrics := {}

/-! ## Kernels -/

/-- The products of a pose, over the numbers `S`. -/
structure PoseKernels (S : Type) where
  /-- `R * p + t` -/
  transform : Matrix (Fin 3) (Fin 3) S → (Fin 3 → S) → (Fin 3 → S) → (Fin 3 → S)
  /-- `R_ItoC.transpose() * R_GtoC` -/
  recoveredRotation : Matrix (Fin 3) (Fin 3) S → Matrix (Fin 3) (Fin 3) S →
    Matrix (Fin 3) (Fin 3) S
  /-- `R_GtoC.transpose() * (p_IinC - t_GinC)` -/
  recoveredPosition : Matrix (Fin 3) (Fin 3) S → (Fin 3 → S) → (Fin 3 → S) → (Fin 3 → S)

/-- The floating-point kernels as the compiled program evaluates them. -/
structure PnpArithmetic extends PoseKernels Binary64 where
  /-- The largest `|R^T R - I|`. -/
  orthogonalityError : Matrix3d → Binary64
  determinant : Matrix3d → Binary64
  hypot : Binary64 → Binary64 → Binary64
  div : Binary64 → Binary64 → Binary64
  ratio : Nat → Nat → Binary64
  /-- `static_cast<double>` of an image size -/
  ofInt : Int32 → Binary64
  centeredSingularValues : List Vector3d → List Binary64
  norm : Vector3d → Binary64
  /-- The clamped arc cosine of `rotation_disagreement_degrees`. -/
  disagreementDegrees : Matrix3d → Matrix3d → Binary64

/-! ## OpenCV -/

/-- `cv::Mat` of doubles with one channel. -/
structure CvMat where
  rows : Nat := 0
  cols : Nat := 0
  coeff : Nat → Nat → Binary64 := fun _ _ => ⟨0⟩

def CvMat.total (m : CvMat) : Nat := m.rows * m.cols

/-- `at<double>(i)` -/
def CvMat.linear (m : CvMat) (i : Nat) : Binary64 := m.coeff (i / m.cols) (i % m.cols)

def CvMat.ofMatrix3d (M : Matrix3d) : CvMat where
  rows := 3
  cols := 3
  coeff i j := if h : i < 3 ∧ j < 3 then M ⟨i, h.1⟩ ⟨j, h.2⟩ else ⟨0⟩

def CvMat.ofVector3d (v : Vector3d) : CvMat where
  rows := 3
  cols := 1
  coeff i _ := if h : i < 3 then v ⟨i, h⟩ else ⟨0⟩

def cameraMatrix (calibration : LongGapCameraCalibration) : CvMat := .ofMatrix3d calibration.K

def distortionVector (calibration : LongGapCameraCalibration) : CvMat :=
  if calibration.distortion.isEmpty then {}
  else {
    rows := 1
    cols := calibration.distortion.length
    coeff := fun _ j => calibration.distortion.getD j ⟨0⟩ }

/-- The options of `solvePnPRansac` besides its method `SOLVEPNP_EPNP`. -/
structure RansacOptions where
  useExtrinsicGuess : Bool
  iterationsCount : Nat
  reprojectionError : Binary64
  confidence : Binary64

/-- The outputs of `solvePnPRansac`. -/
structure RansacResult where
  solved : Bool
  rotationVector : CvMat
  translationVector : CvMat
  inliers : CvMat

/-- The outputs of `solvePnP`. -/
structure RefineResult where
  refined : Bool
  rotationVector : CvMat
  translationVector : CvMat

/-- What OpenCV answers, `none` where it throws `cv::Exception`. The number is the place of the call
in a run, so that two calls on the same arguments may have different answers. -/
structure OpenCv where
  solvePnPRansac : List Vector3d → List Vector2d → CvMat → CvMat → RansacOptions →
    Option RansacResult
  solvePnP : Nat → List Vector3d → List Vector2d → CvMat → CvMat → CvMat → CvMat →
    Option RefineResult
  rodrigues : Nat → CvMat → Option CvMat
  /-- `convertTo(.., CV_64F)` -/
  convertTo : Nat → CvMat → Option CvMat
  projectPoints : Nat → List Vector3d → CvMat → CvMat → CvMat → CvMat → Option (List Vector2d)

/-! ## Constants -/

/-- `kRotationTolerance`, which is `1e-6` -/
def rotationTolerance : Binary64 := ⟨0x3eb0c6f7a0b5ed8d⟩

/-- `kRelativeSupportTolerance`, which is `1e-6` -/
def relativeSupportTolerance : Binary64 := ⟨0x3eb0c6f7a0b5ed8d⟩

/-- `kAbsoluteSupportTolerance`, which is `1e-9` -/
def absoluteSupportTolerance : Binary64 := ⟨0x3e112e0be826d695⟩

/-- `kPinholeMatrixTolerance`, which is `1e-12` -/
def pinholeMatrixTolerance : Binary64 := ⟨0x3d719799812dea11⟩

def minimumCorrespondences : Nat := 12
def minimumInliers : Nat := 12

/-- `0.70` -/
def minimumInlierRatio : Binary64 := ⟨0x3fe6666666666666⟩

/-- `2.0` -/
def maximumReprojectionErrorPx : Binary64 := ⟨0x4000000000000000⟩

/-- `0.25` -/
def minimumImageSpanFraction : Binary64 := ⟨0x3fd0000000000000⟩

/-- `5.0` -/
def maximumOrientationDisagreementDeg : Binary64 := ⟨0x4014000000000000⟩

/-- `kRansacIterations`, the threshold and `kRansacConfidence`, which is `0.999` -/
def ransacOptions : RansacOptions where
  useExtrinsicGuess := false
  iterationsCount := 1000
  reprojectionError := maximumReprojectionErrorPx
  confidence := ⟨0x3feff7ced916872b⟩

/-! ## Checks -/

section Checks

variable (A : PnpArithmetic)

def isRotationMatrix (rotation : Matrix3d) : Bool :=
  finiteMatrix rotation && decide (A.orthogonalityError rotation ≤ rotationTolerance) &&
    (A.determinant rotation).isFinite && decide ((⟨0⟩ : Binary64) < A.determinant rotation) &&
    decide (abs (A.determinant rotation - one) ≤ rotationTolerance)

def supportedDistortionSize (size : Nat) : Bool := [0, 4, 5, 8, 12, 14].contains size

def validCalibration (calibration : LongGapCameraCalibration) : Bool :=
  if !finiteMatrix calibration.K || !finiteVector calibration.p_IinC ||
      !isRotationMatrix A calibration.R_ItoC || decide (calibration.imageWidth ≤ 0) ||
      decide (calibration.imageHeight ≤ 0) || decide (calibration.K 0 0 ≤ ⟨0⟩) ||
      decide (calibration.K 1 1 ≤ ⟨0⟩) ||
      !supportedDistortionSize calibration.distortion.length then false
  else if pinholeMatrixTolerance < abs (calibration.K 0 1) ∨
      pinholeMatrixTolerance < abs (calibration.K 1 0) ∨
      pinholeMatrixTolerance < abs (calibration.K 2 0) ∨
      pinholeMatrixTolerance < abs (calibration.K 2 1) ∨
      pinholeMatrixTolerance < abs (calibration.K 2 2 - one) then false
  else calibration.distortion.all Binary64.isFinite

/-- `noncollinear_support_ratio`, on the points it selects. -/
def noncollinearSupportRatio (points : List Vector3d) : Binary64 :=
  if points.length < 3 then ⟨0⟩
  else
    match A.centeredSingularValues points with
    | first :: second :: rest =>
      if !(first :: second :: rest).all Binary64.isFinite || decide (first ≤ ⟨0⟩) then ⟨0⟩
      else A.div second first
    | _ => ⟨0⟩

/-- `has_noncollinear_support`, on the points it selects. -/
def hasNoncollinearSupport (ratio : Binary64) (points : List Vector3d) : Bool :=
  if points.length < 3 ∨ ratio.isFinite = false ∨ ratio ≤ relativeSupportTolerance then false
  else
    let minimum := points.foldl (fun m p i => min (m i) (p i)) fun _ => infinity
    let maximum := points.foldl (fun m p i => Binary64.max (m i) (p i)) fun _ => negativeInfinity
    decide (absoluteSupportTolerance < A.norm fun i => maximum i - minimum i)

/-- `hypot` of the difference between a projection and an observation. -/
def reprojectionError (projection observation : Vector2d) : Binary64 :=
  A.hypot (projection 0 - observation 0) (projection 1 - observation 1)

end Checks

/-! ## Poses -/

section Poses

variable (A : PnpArithmetic) (cv : OpenCv)

def opencvPoseToEigen (call : Nat) (rotationVector translationVector : CvMat) :
    Option (Matrix3d × Vector3d) :=
  if rotationVector.total ≠ 3 ∨ translationVector.total ≠ 3 then none
  else do
    let rotation ← cv.rodrigues call rotationVector
    let rotation ← cv.convertTo call rotation
    let translation ← cv.convertTo (call + 1) translationVector
    if rotation.rows ≠ 3 ∨ rotation.cols ≠ 3 ∨ translation.total ≠ 3 then none
    else
      let R_GtoC : Matrix3d := fun i j => rotation.coeff i j
      let t_GinC : Vector3d := fun i => translation.linear i
      if isRotationMatrix A R_GtoC && finiteVector t_GinC then some (R_GtoC, t_GinC) else none

def eigenPoseToOpencv (call : Nat) (R_GtoC : Matrix3d) (t_GinC : Vector3d) :
    Option (CvMat × CvMat) :=
  if !isRotationMatrix A R_GtoC || !finiteVector t_GinC then none
  else do
    let rotationVector ← cv.rodrigues call (.ofMatrix3d R_GtoC)
    if rotationVector.total = 3 then some (rotationVector, .ofVector3d t_GinC) else none

/-- The test of one correspondence in `reclassify_at_frozen_threshold`. -/
def isInlier (R_GtoC : Matrix3d) (t_GinC : Vector3d) (c : LongGapCorrespondence)
    (projection : Vector2d) : Bool :=
  let pointInCamera := A.transform R_GtoC c.p_FinG t_GinC
  let error := reprojectionError A projection c.uvRaw
  finiteVector pointInCamera && decide ((⟨0⟩ : Binary64) < pointInCamera 2) && error.isFinite &&
    decide (error ≤ maximumReprojectionErrorPx)

/-- `static_cast<int>` of an index -/
def castInt (index : Nat) : Int := (Int32.ofNat index).toInt

def reclassifyAtFrozenThreshold (call : Nat) (correspondences : List LongGapCorrespondence)
    (calibration : LongGapCameraCalibration) (R_GtoC : Matrix3d) (t_GinC : Vector3d) :
    Option (List Int) :=
  if !isRotationMatrix A R_GtoC || !finiteVector t_GinC then none
  else do
    let pose ← eigenPoseToOpencv A cv call R_GtoC t_GinC
    let projections ← cv.projectPoints call (correspondences.map fun c => c.p_FinG) pose.1 pose.2
      (cameraMatrix calibration) (distortionVector calibration)
    if projections.length ≠ correspondences.length then none
    else some (((correspondences.zip projections).zipIdx.filter fun p =>
      isInlier A R_GtoC t_GinC p.1.1 p.1.2).map fun p => castInt p.2)

def outOfRange (correspondences : List LongGapCorrespondence) (index : Int) : Bool :=
  decide (index < 0) || decide ((correspondences.length : Int) ≤ index)

/-- `correspondences.at(index)` -/
def correspondenceAt (correspondences : List LongGapCorrespondence) (index : Int) :
    LongGapCorrespondence := correspondences.getD index.toNat {}

def refineOnFixedInliers (call : Nat) (correspondences : List LongGapCorrespondence)
    (calibration : LongGapCameraCalibration) (inlierIndices : List Int) (R_GtoC : Matrix3d)
    (t_GinC : Vector3d) : Option (Matrix3d × Vector3d) :=
  if inlierIndices.length < 4 then none
  else if inlierIndices.any (outOfRange correspondences) then none
  else do
    let inliers := inlierIndices.map (correspondenceAt correspondences)
    let pose ← eigenPoseToOpencv A cv call R_GtoC t_GinC
    let refined ← cv.solvePnP call (inliers.map fun c => c.p_FinG) (inliers.map fun c => c.uvRaw)
      (cameraMatrix calibration) (distortionVector calibration) pose.1 pose.2
    if refined.refined then
      opencvPoseToEigen A cv (call + 1) refined.rotationVector refined.translationVector
    else none

end Poses

/-! ## The candidate -/

section Candidate

variable (A : PnpArithmetic) (cv : OpenCv)

/-- Two neighbours are equal: `std::adjacent_find` finds something. -/
def hasAdjacentEqual : List Int → Bool
  | a :: b :: rest => decide (a = b) || hasAdjacentEqual (b :: rest)
  | _ => false

structure InlierScan where
  minDepth : Binary64 := infinity
  minimumX : Binary64 := infinity
  maximumX : Binary64 := negativeInfinity
  minimumY : Binary64 := infinity
  maximumY : Binary64 := negativeInfinity

def InlierScan.add (scan : InlierScan) (depth : Binary64) (uv : Vector2d) : InlierScan where
  minDepth := min scan.minDepth depth
  minimumX := min scan.minimumX (uv 0)
  maximumX := Binary64.max scan.maximumX (uv 0)
  minimumY := min scan.minimumY (uv 1)
  maximumY := Binary64.max scan.maximumY (uv 1)

/-- The loop over the inliers; it stops at a point that is not finite in the camera. -/
def scanInliers (R_GtoC : Matrix3d) (t_GinC : Vector3d) :
    InlierScan → List LongGapCorrespondence → InlierScan × Bool
  | scan, [] => (scan, true)
  | scan, c :: rest =>
    let pointInCamera := A.transform R_GtoC c.p_FinG t_GinC
    if !finiteVector pointInCamera then (scan, false)
    else scanInliers R_GtoC t_GinC (scan.add (pointInCamera 2) c.uvRaw) rest

def scanErrors : Binary64 → List (Vector2d × Vector2d) → Binary64 × Bool
  | worst, [] => (worst, true)
  | worst, (projection, observation) :: rest =>
    let error := reprojectionError A projection observation
    if !error.isFinite then (worst, false) else scanErrors (Binary64.max worst error) rest

def evaluateGeometry (calibration : LongGapCameraCalibration) (imuPredicted_R_GtoI : Matrix3d)
    (recovered : Matrix3d × Vector3d) (inliers : List LongGapCorrespondence) (scan : InlierScan)
    (result : LongGapRelocalizationResult) : LongGapRelocalizationResult :=
  let points := inliers.map fun c => c.p_FinG
  let result := { result with metrics := { result.metrics with
    secondToFirst3dSingularRatio := noncollinearSupportRatio A points } }
  if !hasNoncollinearSupport A result.metrics.secondToFirst3dSingularRatio points then
    { result with reason := .noncollinearSupportRequired }
  else
    let spanX := A.div (scan.maximumX - scan.minimumX) (A.ofInt calibration.imageWidth)
    let spanY := A.div (scan.maximumY - scan.minimumY) (A.ofInt calibration.imageHeight)
    let result := { result with metrics := { result.metrics with
      imageSpanXFraction := spanX
      imageSpanYFraction := spanY } }
    if spanX.isFinite = false ∨ spanX < minimumImageSpanFraction then
      { result with reason := .imageBoundsXTooSmall }
    else if spanY.isFinite = false ∨ spanY < minimumImageSpanFraction then
      { result with reason := .imageBoundsYTooSmall }
    else
      let degrees := A.disagreementDegrees recovered.1 imuPredicted_R_GtoI
      let result := { result with metrics := { result.metrics with
        orientationDisagreementDeg := degrees } }
      if degrees.isFinite = false ∨ maximumOrientationDisagreementDeg < degrees then
        { result with reason := .orientationDisagreementTooLarge }
      else
        { result with
          accepted := true
          reason := .accepted
          R_GtoI := recovered.1
          p_IinG := recovered.2 }

def evaluateResiduals (call : Nat) (calibration : LongGapCameraCalibration)
    (imuPredicted_R_GtoI R_GtoC : Matrix3d) (t_GinC : Vector3d)
    (recovered : Matrix3d × Vector3d) (inliers : List LongGapCorrespondence)
    (result : LongGapRelocalizationResult) : LongGapRelocalizationResult :=
  let scanned := scanInliers A R_GtoC t_GinC {} inliers
  let result := { result with metrics := { result.metrics with minDepth := scanned.1.minDepth } }
  if !scanned.2 then { result with reason := .nonfiniteResidual }
  else if scanned.1.minDepth.isFinite = false ∨ scanned.1.minDepth ≤ ⟨0⟩ then
    { result with reason := .nonpositiveDepth }
  else
    let projected := (cv.rodrigues call (.ofMatrix3d R_GtoC)).bind fun rotationVector =>
      cv.projectPoints call (inliers.map fun c => c.p_FinG) rotationVector (.ofVector3d t_GinC)
        (cameraMatrix calibration) (distortionVector calibration)
    match projected with
    | none => { result with reason := .nonfiniteResidual }
    | some projections =>
      if projections.length ≠ inliers.length then { result with reason := .nonfiniteResidual }
      else
        let errors := scanErrors A ⟨0⟩ (projections.zip (inliers.map fun c => c.uvRaw))
        let result := { result with metrics := { result.metrics with
          maxReprojectionErrorPx := errors.1 } }
        if !errors.2 then { result with reason := .nonfiniteResidual }
        else if maximumReprojectionErrorPx < errors.1 then
          { result with reason := .reprojectionErrorTooHigh }
        else
          evaluateGeometry A calibration imuPredicted_R_GtoI recovered inliers scanned.1 result

def evaluateCandidate (call : Nat) (correspondences : List LongGapCorrespondence)
    (calibration : LongGapCameraCalibration) (imuPredicted_R_GtoI R_GtoC : Matrix3d)
    (t_GinC : Vector3d) (inlierIndices : List Int) (suppliedCorrespondenceCount : Nat) :
    LongGapRelocalizationResult :=
  let result : LongGapRelocalizationResult := { metrics := {
    suppliedCorrespondenceCount := suppliedCorrespondenceCount
    validCorrespondenceCount := correspondences.length } }
  let sortedInliers := inlierIndices.mergeSort fun i j => decide (i ≤ j)
  if hasAdjacentEqual sortedInliers || sortedInliers.any (outOfRange correspondences) then
    { result with reason := .pnpFailed }
  else
    let inlierRatio :=
      if correspondences.isEmpty then ⟨0⟩ else A.ratio sortedInliers.length correspondences.length
    let inliers := sortedInliers.map (correspondenceAt correspondences)
    let result := { result with
      inlierIds := inliers.map fun c => c.id
      metrics := { result.metrics with
        inlierCount := sortedInliers.length
        inlierRatio := inlierRatio } }
    if sortedInliers.length < minimumInliers then { result with reason := .insufficientInliers }
    else if inlierRatio.isFinite = false ∨ inlierRatio < minimumInlierRatio then
      { result with reason := .inlierRatioTooLow }
    else if !isRotationMatrix A R_GtoC || !finiteVector t_GinC then
      { result with reason := .nonfinitePose }
    else
      let recovered_R_GtoI := A.recoveredRotation calibration.R_ItoC R_GtoC
      let recovered_p_IinG := A.recoveredPosition R_GtoC calibration.p_IinC t_GinC
      if !isRotationMatrix A recovered_R_GtoI || !finiteVector recovered_p_IinG then
        { result with reason := .nonfinitePose }
      else
        evaluateResiduals A cv call calibration imuPredicted_R_GtoI R_GtoC t_GinC
          (recovered_R_GtoI, recovered_p_IinG) inliers result

end Candidate

/-! ## Recover -/

section Recover

variable (A : PnpArithmetic) (cv : OpenCv)

def rejected (reason : LongGapRelocalizationReason) (suppliedCount validCount : Nat) :
    LongGapRelocalizationResult where
  reason := reason
  metrics := {
    suppliedCorrespondenceCount := suppliedCount
    validCorrespondenceCount := validCount }

def validCorrespondences (correspondences : List LongGapCorrespondence) :
    List LongGapCorrespondence :=
  correspondences.filter fun c => finiteVector c.p_FinG && finiteVector c.uvRaw

def proposePose (valid : List LongGapCorrespondence) (calibration : LongGapCameraCalibration) :
    Option (Matrix3d × Vector3d) := do
  let r ← cv.solvePnPRansac (valid.map fun c => c.p_FinG) (valid.map fun c => c.uvRaw)
    (cameraMatrix calibration) (distortionVector calibration) ransacOptions
  if r.solved = false ∨ r.rotationVector.total ≠ 3 ∨ r.translationVector.total ≠ 3 ∨
      r.inliers.total = 0 then none
  else opencvPoseToEigen A cv 0 r.rotationVector r.translationVector

/-- The part of `recover` behind the pose of RANSAC. Every reclassification and refinement has the
number of its calls. -/
def refineAndEvaluate (valid : List LongGapCorrespondence)
    (calibration : LongGapCameraCalibration) (imuPredicted_R_GtoI : Matrix3d)
    (suppliedCount : Nat) (pose : Matrix3d × Vector3d) : LongGapRelocalizationResult :=
  let failed := rejected .pnpFailed suppliedCount valid.length
  match reclassifyAtFrozenThreshold A cv 2 valid calibration pose.1 pose.2 with
  | none => failed
  | some firstInliers =>
    if firstInliers.length < 4 then
      evaluateCandidate A cv 9 valid calibration imuPredicted_R_GtoI pose.1 pose.2 firstInliers
        suppliedCount
    else
      match refineOnFixedInliers A cv 3 valid calibration firstInliers pose.1 pose.2 with
      | none => failed
      | some pose =>
        match reclassifyAtFrozenThreshold A cv 5 valid calibration pose.1 pose.2 with
        | none => failed
        | some secondInliers =>
          if secondInliers.length < 4 then
            evaluateCandidate A cv 9 valid calibration imuPredicted_R_GtoI pose.1 pose.2
              secondInliers suppliedCount
          else
            match refineOnFixedInliers A cv 6 valid calibration secondInliers pose.1 pose.2 with
            | none => failed
            | some pose =>
              match reclassifyAtFrozenThreshold A cv 8 valid calibration pose.1 pose.2 with
              | none => failed
              | some finalInliers =>
                evaluateCandidate A cv 9 valid calibration imuPredicted_R_GtoI pose.1
                  pose.2 finalInliers suppliedCount

def recover (correspondences : List LongGapCorrespondence)
    (calibration : LongGapCameraCalibration) (imuPredicted_R_GtoI : Matrix3d) :
    LongGapRelocalizationResult :=
  let suppliedCount := correspondences.length
  if !validCalibration A calibration then rejected .invalidCalibration suppliedCount 0
  else if !isRotationMatrix A imuPredicted_R_GtoI then
    rejected .invalidOrientationPrior suppliedCount 0
  else
    let valid := validCorrespondences correspondences
    if !decide (valid.map fun c => c.id).Nodup then
      rejected .duplicateCorrespondenceId suppliedCount valid.length
    else if valid.length < minimumCorrespondences then
      rejected .insufficientCorrespondences suppliedCount valid.length
    else
      let points := valid.map fun c => c.p_FinG
      let fullSupportRatio := noncollinearSupportRatio A points
      if !hasNoncollinearSupport A fullSupportRatio points then
        let result := rejected .noncollinearSupportRequired suppliedCount valid.length
        { result with metrics := { result.metrics with
          secondToFirst3dSingularRatio := fullSupportRatio } }
      else
        match proposePose A cv valid calibration with
        | none => rejected .pnpFailed suppliedCount valid.length
        | some pose => refineAndEvaluate A cv valid calibration imuPredicted_R_GtoI suppliedCount pose

end Recover

end Bravo.Relocalizer
