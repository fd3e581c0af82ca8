import Bravo.Trace.TraceCodec

/-! # State snapshots

The canonical payload of a composite state, as `CP2StateTraceCodec` writes and reads it. A snapshot
has five lists whose entries carry a spelled tag; a clone timestamp or a landmark identity is
written only for the entries that have one, so decoding gives the snapshot back with the fields
that are not written at their defaults (`normalise`).
-/

namespace Bravo.Trace

/-! ## Snapshots -/

inductive CP2StatePhase
  | kPhase0Prior
  | kPhase1Precommit
  | kPhase2ExpectedPostcommit
  | kPhase3LivePostcommit
deriving DecidableEq, Repr, Inhabited

inductive CP2SemanticStateKind
  | kImuTheta
  | kImuPosition
  | kImuVelocity
  | kImuGyroBias
  | kImuAccelBias
  | kCloneTheta
  | kClonePosition
  | kSlamLandmark
deriving DecidableEq, Repr, Inhabited

inductive CP2ActiveStateTypeTag
  | kImu
  | kClone
  | kSlamLandmark
deriving DecidableEq, Repr, Inhabited

inductive CP2FixedImuCalibrationTag
  | kDw
  | kDa
  | kTg
  | kGyroToImu
  | kAccelToImu
deriving DecidableEq, Repr, Inhabited

inductive CP2LandmarkRepresentation
  | kGlobal3D
  | kGlobalFullInverseDepth
  | kAnchored3D
  | kAnchoredFullInverseDepth
  | kAnchoredMsckfInverseDepth
  | kAnchoredInverseDepthSingle
  | kUnknown
deriving DecidableEq, Repr, Inhabited

structure CP2LandmarkIdentity where
  featureId : UInt64 := 0
  representation : CP2LandmarkRepresentation := .kUnknown
  anchorCameraId : Int64 := -1
  anchorTimestamp : Binary64 := ⟨0xbff0000000000000⟩
deriving DecidableEq, Repr

structure CP2SemanticStateBlock where
  kind : CP2SemanticStateKind
  covarianceId : UInt64
  errorSize : UInt64
  cloneTimestamp : Binary64 := ⟨0⟩
  landmark : CP2LandmarkIdentity := {}
deriving DecidableEq, Repr

structure CP2ActiveStateType where
  tag : CP2ActiveStateTypeTag
  covarianceId : UInt64
  errorSize : UInt64
  cloneTimestamp : Binary64 := ⟨0⟩
  landmark : CP2LandmarkIdentity := {}
  nominal : MatrixXd
  fej : MatrixXd
deriving DecidableEq, Repr

structure CP2FixedImuCalibration where
  tag : CP2FixedImuCalibrationTag
  nominal : MatrixXd
  fej : MatrixXd
deriving DecidableEq, Repr

structure CP2CameraFixedCalibration where
  cameraId : UInt64
  extrinsicNominal : MatrixXd
  extrinsicFej : MatrixXd
  intrinsicNominal : MatrixXd
  intrinsicFej : MatrixXd
deriving DecidableEq, Repr

structure CP2CameraModelCache where
  cameraId : UInt64
  width : Int64
  height : Int64
  calibration : MatrixXd
  K : MatrixXd
  D : MatrixXd
deriving DecidableEq, Repr

structure CP2CompositeStateSnapshot where
  phase : CP2StatePhase
  timestamp : Binary64
  covariance : MatrixXd
  semanticBlocks : List CP2SemanticStateBlock
  activeTypes : List CP2ActiveStateType
  fixedImuCalibrations : List CP2FixedImuCalibration
  timeOffsetNominal : MatrixXd
  timeOffsetFej : MatrixXd
  cameraCalibrations : List CP2CameraFixedCalibration
  cameraCaches : List CP2CameraModelCache
deriving DecidableEq, Repr

/-! ## Spellings -/

def utf8 (s : String) : List UInt8 := s.toUTF8.toList

def validUtf8 : List UInt8 → Bool
  | [] => true
  | first :: rest =>
    if first ≤ 0x7f then validUtf8 rest
    else if 0xc2 ≤ first ∧ first ≤ 0xdf then
      match rest with
      | second :: rest => decide (0x80 ≤ second ∧ second ≤ 0xbf) && validUtf8 rest
      | _ => false
    else if 0xe0 ≤ first ∧ first ≤ 0xef then
      match rest with
      | second :: third :: rest =>
        decide (0x80 ≤ third ∧ third ≤ 0xbf) &&
          (if first = 0xe0 then decide (0xa0 ≤ second ∧ second ≤ 0xbf)
            else if first = 0xed then decide (0x80 ≤ second ∧ second ≤ 0x9f)
            else decide (0x80 ≤ second ∧ second ≤ 0xbf)) && validUtf8 rest
      | _ => false
    else if 0xf0 ≤ first ∧ first ≤ 0xf4 then
      match rest with
      | second :: third :: fourth :: rest =>
        decide (0x80 ≤ third ∧ third ≤ 0xbf) && decide (0x80 ≤ fourth ∧ fourth ≤ 0xbf) &&
          (if first = 0xf0 then decide (0x90 ≤ second ∧ second ≤ 0xbf)
            else if first = 0xf4 then decide (0x80 ≤ second ∧ second ≤ 0x8f)
            else decide (0x80 ≤ second ∧ second ≤ 0xbf)) && validUtf8 rest
      | _ => false
    else false
termination_by structural l => l

/-- `kSemanticKindStrings` -/
def semanticKindStrings : List (CP2SemanticStateKind × List UInt8) :=
  [(.kImuTheta, utf8 "imu.theta"), (.kImuPosition, utf8 "imu.position"),
    (.kImuVelocity, utf8 "imu.velocity"), (.kImuGyroBias, utf8 "imu.gyro_bias"),
    (.kImuAccelBias, utf8 "imu.accel_bias"), (.kCloneTheta, utf8 "clone.theta"),
    (.kClonePosition, utf8 "clone.position"), (.kSlamLandmark, utf8 "slam_landmark")]

/-- `kActiveTypeTagStrings` -/
def activeTypeTagStrings : List (CP2ActiveStateTypeTag × List UInt8) :=
  [(.kImu, utf8 "imu"), (.kClone, utf8 "clone"), (.kSlamLandmark, utf8 "slam_landmark")]

/-- `kFixedImuTagStrings` -/
def fixedImuTagStrings : List (CP2FixedImuCalibrationTag × List UInt8) :=
  [(.kDw, utf8 "dw"), (.kDa, utf8 "da"), (.kTg, utf8 "tg"), (.kGyroToImu, utf8 "gyro_to_imu"),
    (.kAccelToImu, utf8 "accel_to_imu")]

/-- `kLandmarkRepresentationStrings`: there is none for `kUnknown`. -/
def landmarkRepresentationStrings : List (CP2LandmarkRepresentation × List UInt8) :=
  [(.kGlobal3D, utf8 "GLOBAL_3D"),
    (.kGlobalFullInverseDepth, utf8 "GLOBAL_FULL_INVERSE_DEPTH"),
    (.kAnchored3D, utf8 "ANCHORED_3D"),
    (.kAnchoredFullInverseDepth, utf8 "ANCHORED_FULL_INVERSE_DEPTH"),
    (.kAnchoredMsckfInverseDepth, utf8 "ANCHORED_MSCKF_INVERSE_DEPTH"),
    (.kAnchoredInverseDepthSingle, utf8 "ANCHORED_INVERSE_DEPTH_SINGLE")]

/-- `kCameraModelTag` -/
def cameraModelTag : List UInt8 := utf8 "CamRadtan"

section Enum

variable {κ : Type} [DecidableEq κ] (spellings : List (κ × List UInt8))

def enumString (value : κ) (what : String) : Except String (List UInt8) :=
  match spellings.lookup value with
  | some spelling => .ok spelling
  | none => .error ("invalid " ++ what)

def parseEnum (value : List UInt8) (what : String) : Except String κ :=
  match spellings.find? (fun entry => value == entry.2) with
  | some entry => .ok entry.1
  | none => .error ("unknown " ++ what)

end Enum

def phaseValue : CP2StatePhase → UInt8
  | .kPhase0Prior => 0
  | .kPhase1Precommit => 1
  | .kPhase2ExpectedPostcommit => 2
  | .kPhase3LivePostcommit => 3

def parsePhase (value : UInt8) : Except String CP2StatePhase :=
  if value = 0 then .ok .kPhase0Prior
  else if value = 1 then .ok .kPhase1Precommit
  else if value = 2 then .ok .kPhase2ExpectedPostcommit
  else if value = 3 then .ok .kPhase3LivePostcommit
  else .error "invalid CP2 state frame phase"

def isPriorPhase (phase : CP2StatePhase) : Bool := phaseValue phase == 0 || phaseValue phase == 1

/-- `kPriorSnapshotDomain` -/
def priorSnapshotDomain : List UInt8 := utf8 "SchurVIO-CP2-prior-snapshot-v1" ++ [0]

/-- `kPostcommitStateDomain` -/
def postcommitStateDomain : List UInt8 := utf8 "SchurVIO-CP2-postcommit-state-v1" ++ [0]

def appendDomain (phase : CP2StatePhase) : List UInt8 :=
  if isPriorPhase phase then priorSnapshotDomain else postcommitStateDomain

def CP2SemanticStateKind.isClone (kind : CP2SemanticStateKind) : Bool :=
  kind == .kCloneTheta || kind == .kClonePosition

def CP2SemanticStateKind.isLandmark (kind : CP2SemanticStateKind) : Bool := kind == .kSlamLandmark

def CP2ActiveStateTypeTag.isClone (tag : CP2ActiveStateTypeTag) : Bool := tag == .kClone

def CP2ActiveStateTypeTag.isLandmark (tag : CP2ActiveStateTypeTag) : Bool := tag == .kSlamLandmark

/-! ## Encoding -/

def appendLandmarkIdentity (identity : CP2LandmarkIdentity) : Except String (List UInt8) := do
  let representation ← enumString landmarkRepresentationStrings identity.representation
    "landmark representation"
  return appendU64 identity.featureId ++ appendUtf8 representation ++
    appendI64 identity.anchorCameraId ++ appendBinary64 identity.anchorTimestamp

/-- What identifies an entry: a clone's timestamp, a landmark's identity, nothing otherwise. -/
def appendIdentity (isClone isLandmark : Bool) (cloneTimestamp : Binary64)
    (landmark : CP2LandmarkIdentity) : Except String (List UInt8) :=
  if isClone then .ok (appendBinary64 cloneTimestamp)
  else if isLandmark then appendLandmarkIdentity landmark
  else .ok []

def encodeSemanticBlock (block : CP2SemanticStateBlock) : Except String (List UInt8) := do
  let kind ← enumString semanticKindStrings block.kind "semantic state kind"
  let identity ← appendIdentity block.kind.isClone block.kind.isLandmark block.cloneTimestamp
    block.landmark
  return appendUtf8 kind ++ appendU64 block.covarianceId ++ appendU64 block.errorSize ++ identity

def encodeActiveType (type : CP2ActiveStateType) : Except String (List UInt8) := do
  let tag ← enumString activeTypeTagStrings type.tag "active state type tag"
  let identity ← appendIdentity type.tag.isClone type.tag.isLandmark type.cloneTimestamp
    type.landmark
  return appendUtf8 tag ++ appendU64 type.covarianceId ++ appendU64 type.errorSize ++ identity ++
    appendMatrix type.nominal ++ appendMatrix type.fej

def encodeFixedImuCalibration (calibration : CP2FixedImuCalibration) :
    Except String (List UInt8) := do
  let tag ← enumString fixedImuTagStrings calibration.tag "fixed IMU calibration tag"
  return appendUtf8 tag ++ appendMatrix calibration.nominal ++ appendMatrix calibration.fej

def encodeCameraCalibration (calibration : CP2CameraFixedCalibration) :
    Except String (List UInt8) :=
  .ok (appendU64 calibration.cameraId ++ appendMatrix calibration.extrinsicNominal ++
    appendMatrix calibration.extrinsicFej ++ appendMatrix calibration.intrinsicNominal ++
    appendMatrix calibration.intrinsicFej)

def encodeCameraCache (cache : CP2CameraModelCache) : Except String (List UInt8) :=
  .ok (appendU64 cache.cameraId ++ appendUtf8 cameraModelTag ++ appendI64 cache.width ++
    appendI64 cache.height ++ appendMatrix cache.calibration ++ appendMatrix cache.K ++
    appendMatrix cache.D)

def encodeList {α : Type} (what : String) (encode : α → Except String (List UInt8))
    (entries : List α) : Except String (List UInt8) := do
  let count ← checkedU64 entries.length what
  let bytes ← entries.mapM encode
  return appendU64 count ++ bytes.flatten

def encodeSnapshotBody (snapshot : CP2CompositeStateSnapshot) : Except String (List UInt8) := do
  let semanticBlocks ← encodeList "semantic-block count" encodeSemanticBlock snapshot.semanticBlocks
  let activeTypes ← encodeList "active-type count" encodeActiveType snapshot.activeTypes
  let fixedImuCalibrations ← encodeList "fixed IMU calibration count" encodeFixedImuCalibration
    snapshot.fixedImuCalibrations
  let cameraCalibrations ← encodeList "camera-calibration count" encodeCameraCalibration
    snapshot.cameraCalibrations
  let cameraCaches ← encodeList "camera-cache count" encodeCameraCache snapshot.cameraCaches
  return appendBinary64 snapshot.timestamp ++ appendMatrix snapshot.covariance ++ semanticBlocks ++
    activeTypes ++ fixedImuCalibrations ++ appendMatrix snapshot.timeOffsetNominal ++
    appendMatrix snapshot.timeOffsetFej ++ cameraCalibrations ++ cameraCaches

def encodeSnapshotPayload (snapshot : CP2CompositeStateSnapshot) : Except String (List UInt8) := do
  let body ← encodeSnapshotBody snapshot
  return appendDomain snapshot.phase ++ body

/-! ## Decoding -/

section Decode

variable (limits : CP2TraceDecodeLimits)

def readUtf8 (what : String) : Reader (List UInt8) := do
  let count ← readU64 what
  let value ← readBytes limits count what
  reject (!validUtf8 value) (what ++ " is not valid UTF-8")
  return value

def readEnum {κ : Type} (spellings : List (κ × List UInt8)) (what : String) : Reader κ := do
  let value ← readUtf8 limits what
  Reader.lift (parseEnum spellings value what)

/-- The bounds of `ReadListCount`. -/
def checkListCount (what : String) (minimumEntryBytes : Nat) (count : UInt64) : Reader Unit :=
  fun s =>
    if limits.maximumLayoutBlocks < count ∨
        (0 < minimumEntryBytes ∧ s.rest.length / minimumEntryBytes < count.toNat) then
      .error (what ++ " exceeds configured or retained bounds")
    else .ok ((), s)

def readListCount (what : String) (minimumEntryBytes : Nat) : Reader UInt64 := do
  let count ← readU64 what
  checkListCount limits what minimumEntryBytes count
  return count

/-- `ReadListCount` and the loop over the entries. -/
def readList {α : Type} (what : String) (minimumEntryBytes : Nat) (entry : Reader α) :
    Reader (List α) := do
  let count ← readListCount limits what minimumEntryBytes
  readMany entry count.toNat

def readLandmarkIdentity : Reader CP2LandmarkIdentity := do
  let featureId ← readU64 "landmark feature ID"
  let representation ← readEnum limits landmarkRepresentationStrings "landmark representation"
  let anchorCameraId ← readI64 "landmark anchor camera ID"
  let anchorTimestamp ← readBinary64 "landmark anchor timestamp"
  return ⟨featureId, representation, anchorCameraId, anchorTimestamp⟩

/-- The fields that identify an entry; those that are not written keep their defaults. -/
def readIdentity (isClone isLandmark : Bool) (name : String) :
    Reader (Binary64 × CP2LandmarkIdentity) :=
  if isClone then do
    let cloneTimestamp ← readBinary64 (name ++ " clone timestamp")
    return (cloneTimestamp, {})
  else if isLandmark then do
    let landmark ← readLandmarkIdentity limits
    return (⟨0⟩, landmark)
  else return (⟨0⟩, {})

def readSemanticBlock : Reader CP2SemanticStateBlock := do
  let kind ← readEnum limits semanticKindStrings "semantic state kind"
  let covarianceId ← readU64 "semantic covariance ID"
  let errorSize ← readU64 "semantic error size"
  let identity ← readIdentity limits kind.isClone kind.isLandmark "semantic"
  return ⟨kind, covarianceId, errorSize, identity.1, identity.2⟩

def readActiveType : Reader CP2ActiveStateType := do
  let tag ← readEnum limits activeTypeTagStrings "active state type tag"
  let covarianceId ← readU64 "active covariance ID"
  let errorSize ← readU64 "active error size"
  let identity ← readIdentity limits tag.isClone tag.isLandmark "active"
  let nominal ← readMatrix limits "active nominal"
  let fej ← readMatrix limits "active FEJ"
  return ⟨tag, covarianceId, errorSize, identity.1, identity.2, nominal, fej⟩

def readFixedImuCalibration : Reader CP2FixedImuCalibration := do
  let tag ← readEnum limits fixedImuTagStrings "fixed IMU calibration tag"
  let nominal ← readMatrix limits "fixed IMU calibration nominal"
  let fej ← readMatrix limits "fixed IMU calibration FEJ"
  return ⟨tag, nominal, fej⟩

def readCameraCalibration : Reader CP2CameraFixedCalibration := do
  let cameraId ← readU64 "camera-calibration camera ID"
  let extrinsicNominal ← readMatrix limits "camera extrinsic nominal"
  let extrinsicFej ← readMatrix limits "camera extrinsic FEJ"
  let intrinsicNominal ← readMatrix limits "camera intrinsic nominal"
  let intrinsicFej ← readMatrix limits "camera intrinsic FEJ"
  return ⟨cameraId, extrinsicNominal, extrinsicFej, intrinsicNominal, intrinsicFej⟩

def readCameraModelTag : Reader Unit := do
  let tag ← readUtf8 limits "camera model tag"
  reject (tag != cameraModelTag) "unknown camera model tag"

def readCameraCache : Reader CP2CameraModelCache := do
  let cameraId ← readU64 "camera-cache camera ID"
  readCameraModelTag limits
  let width ← readI64 "camera-cache width"
  let height ← readI64 "camera-cache height"
  let calibration ← readMatrix limits "camera-cache calibration"
  let K ← readMatrix limits "camera-cache K"
  let D ← readMatrix limits "camera-cache D"
  return ⟨cameraId, width, height, calibration, K, D⟩

def expectDomain (phase : CP2StatePhase) : Reader Unit :=
  expectBytes (appendDomain phase)
    (if isPriorPhase phase then "prior-snapshot domain" else "postcommit-state domain")

def readSnapshot (phase : CP2StatePhase) : Reader CP2CompositeStateSnapshot := do
  expectDomain phase
  let timestamp ← readBinary64 "state timestamp"
  let covariance ← readMatrix limits "state covariance"
  let semanticBlocks ← readList limits "semantic-block count" 33 (readSemanticBlock limits)
  let activeTypes ← readList limits "active-type count" 59 (readActiveType limits)
  let fixedImuCalibrations ← readList limits "fixed IMU calibration count" 42
    (readFixedImuCalibration limits)
  let timeOffsetNominal ← readMatrix limits "time-offset nominal"
  let timeOffsetFej ← readMatrix limits "time-offset FEJ"
  let cameraCalibrations ← readList limits "camera-calibration count" 72
    (readCameraCalibration limits)
  let cameraCaches ← readList limits "camera-cache count" 89 (readCameraCache limits)
  return ⟨phase, timestamp, covariance, semanticBlocks, activeTypes, fixedImuCalibrations,
    timeOffsetNominal, timeOffsetFej, cameraCalibrations, cameraCaches⟩

def decodeSnapshotPayload (payload : List UInt8) (phase : CP2StatePhase) (spent : Nat) :
    Except String (CP2CompositeStateSnapshot × Nat) :=
  if limits.maximumPayloadBytes.toNat < payload.length then
    .error "CP2 state payload exceeds configured byte limit"
  else
    runAll (readSnapshot limits phase) "state snapshot payload has trailing bytes" payload spent

end Decode

end Bravo.Trace
