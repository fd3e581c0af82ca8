import Bravo.Basic.Binary64
import Bravo.Basic.Exec

/-! # The manager and its recovery commit

The part of `VioManager` that long-gap recovery reads and writes, the check of its frozen
runtime contract, and the commit (`VioManagerHelper.cpp`): `commitLongGapRecovery` and
`resetFeatureEpoch`, statement by statement, as programs whose exceptions leave the earlier
mutations in place.

Objects the manager owns but never looks into (trackers, initializer, propagator, the bulk of
the filter state) are the types of an `Objects`; the callees that build or mutate them are
fields of a `CameraCallback`, each with an outcome that may be an exception.
-/

namespace Bravo.Recovery

/-- What a thrown exception says (`std::exception::what`). -/
abbrev Exn := String

structure Vector3d where
  x : Binary64
  y : Binary64
  z : Binary64
deriving DecidableEq, Repr, Inhabited

structure Matrix3d where
  row0 : Vector3d
  row1 : Vector3d
  row2 : Vector3d
deriving DecidableEq, Repr, Inhabited

def Vector3d.allFinite (v : Vector3d) : Bool := v.x.isFinite && v.y.isFinite && v.z.isFinite

def Matrix3d.allFinite (R : Matrix3d) : Bool :=
  R.row0.allFinite && R.row1.allFinite && R.row2.allFinite

instance : Sub Vector3d := ⟨fun a b => ⟨a.x - b.x, a.y - b.y, a.z - b.z⟩⟩

def Vector3d.zero : Vector3d := ⟨⟨0⟩, ⟨0⟩, ⟨0⟩⟩

/-! ## Options -/

inductive CameraModel
  | radtan
  | equidistant
deriving DecidableEq, Repr

/-- The fields of `VioManagerOptions` that the modelled functions read. -/
structure VioManagerOptions where
  longGapRecoveryEnabled : Bool
  longGapRecoveryThreshold : Binary64
  longGapRecoveryMaxAttempts : Int
  longGapRecoveryMinCorrespondences : Int
  longGapRecoveryMinInliers : Int
  longGapRecoveryMinInlierRatio : Binary64
  longGapRecoveryReprojectionPx : Binary64
  longGapRecoveryMinImageSpanRatio : Binary64
  longGapRecoveryMaxImuAngleDeg : Binary64
  longGapRecoveryConsensusFrames : Int
  longGapRecoveryStationaryRadiusM : Binary64
  longGapRecoveryOrientationSigmaDeg : Binary64
  longGapRecoveryPositionSigmaM : Binary64
  longGapRecoveryVelocitySigmaMps : Binary64
  useKlt : Bool
  useStereo : Bool
  useAruco : Bool
  downsampleCameras : Bool
  numCameras : Int
  doCalibCameraPose : Bool
  doCalibCameraIntrinsics : Bool
  doCalibCameraTimeoffset : Bool
  maxSlamFeatures : Int
  maxCloneSize : Int
  cameraIntrinsics : List (Nat × CameraModel)
  tryZupt : Bool
  zuptOnlyAtBeginning : Bool
  useMultiThreadingSubs : Bool
deriving DecidableEq, Repr

/-- The contract the constructor demands of an enabled recovery. The `LongGapRelocalizer`
constants are written as their values. -/
def frozenRecoveryContract (o : VioManagerOptions) : Bool :=
  o.useKlt && o.useStereo && !o.downsampleCameras && !o.useAruco && o.numCameras == 2 &&
  !o.doCalibCameraPose && !o.doCalibCameraIntrinsics && !o.doCalibCameraTimeoffset &&
  decide (o.longGapRecoveryMinCorrespondences ≤ o.maxSlamFeatures) &&
  o.cameraIntrinsics.length == 2 &&
  o.cameraIntrinsics.lookup 0 == some .radtan && o.cameraIntrinsics.lookup 1 == some .radtan &&
  o.longGapRecoveryThreshold.equal ⟨0x3fe0000000000000⟩ &&            -- 0.5
  o.longGapRecoveryMaxAttempts == 10 &&
  o.longGapRecoveryMinCorrespondences == 12 &&
  o.longGapRecoveryMinInliers == 12 &&
  o.longGapRecoveryMinInlierRatio.equal ⟨0x3fe6666666666666⟩ &&       -- 0.70
  o.longGapRecoveryReprojectionPx.equal ⟨0x4000000000000000⟩ &&       -- 2.0
  o.longGapRecoveryMinImageSpanRatio.equal ⟨0x3fd0000000000000⟩ &&    -- 0.25
  o.longGapRecoveryMaxImuAngleDeg.equal ⟨0x4014000000000000⟩ &&       -- 5.0
  o.longGapRecoveryConsensusFrames == 3 &&
  o.longGapRecoveryStationaryRadiusM.equal ⟨0x3fb999999999999a⟩ &&    -- 0.10
  o.longGapRecoveryOrientationSigmaDeg.equal ⟨0x4000000000000000⟩ &&  -- 2.0
  o.longGapRecoveryPositionSigmaM.equal ⟨0x3fb999999999999a⟩ &&       -- 0.10
  o.longGapRecoveryVelocitySigmaMps.equal ⟨0x3fa999999999999a⟩        -- 0.05

/-! ## The manager -/

structure Objects where
  /-- Covariance, clones, landmarks and calibration of a `State`. -/
  Body : Type
  Matrix : Type
  Tracker : Type
  Initializer : Type
  ZeroVelocity : Type
  Propagator : Type

/-- The 16-vector of `state->_imu`: orientation, position, velocity and the two biases. -/
structure ImuValue where
  q : Vector3d × Binary64
  p : Vector3d
  v : Vector3d
  bg : Vector3d
  ba : Vector3d
deriving DecidableEq, Repr, Inhabited

/-- `State`, with the fields that steer the manager apart from the rest. -/
structure FilterState (O : Objects) where
  timestamp : Binary64
  imu : ImuValue
  imuFej : ImuValue
  /-- `_clones_IMU.size()` -/
  clonesIMU : Nat
  body : O.Body

/-- A `std::shared_ptr`: which object it points to, and that object's value. -/
structure Shared (α : Type) where
  addr : Nat
  val : α

inductive LongGapRecoveryPhase
  | TRACKING
  | REACQUIRING
  | WARMUP
  | FAILED
deriving DecidableEq, Repr

structure LongGapRecoveryPoseSample where
  timestamp : Binary64
  R_GtoI : Matrix3d
  p_IinG : Vector3d
deriving DecidableEq, Repr

/-- What `LongGapRelocalizer::recover` returns: `evaluate_candidate` sets `accepted` only after
it has found the recovered pose finite. -/
structure LongGapRelocalizationResult where
  accepted : Bool
  R_GtoI : Matrix3d
  p_IinG : Vector3d
  finite : accepted = true → R_GtoI.allFinite = true ∧ p_IinG.allFinite = true

/-- The recovery fields of `VioManager`. The counters are `uint64_t` and wrap. -/
structure LongGapRecovery where
  phase : LongGapRecoveryPhase
  attemptCount : Int
  consensus : List LongGapRecoveryPoseSample
  activationCount : UInt64
  commitCount : UInt64
  failureCount : UInt64
  epochId : UInt64
deriving DecidableEq, Repr

/-- What a callback does that can be seen from outside: the `[LONG-GAP-RECOVERY]` log lines, the
call of the commit, and the entry into ordinary processing. -/
inductive Event
  | trigger
  | attempt (accepted : Bool)
  | acceptedPose (sample : LongGapRecoveryPoseSample)
  | consensusPass
  | consensusReject
  | commitCall (R_GtoI : Matrix3d) (p_IinG : Vector3d)
  | relocalizationCommit
  | recoveryFailed
  | degradedFrame
  | warmupComplete
  | zeroVelocityUpdater
  | featurePropagateUpdate
deriving DecidableEq, Repr

structure VioManager (O : Objects) where
  state : Shared (FilterState O)
  propagator : O.Propagator
  trackFEATS : O.Tracker
  trackARUCO : Option O.Tracker
  initializer : O.Initializer
  updaterZUPT : Option O.ZeroVelocity
  isInitializedVio : Bool
  cameraQueueInit : List Binary64
  timelastupdate : Binary64
  startupTime : Binary64
  threadInitRunning : Bool
  threadInitSuccess : Bool
  didZuptUpdate : Bool
  hasMovedSinceZupt : Bool
  recovery : LongGapRecovery
  log : List Event

/-! ## Callees

One camera callback: the message and the outcome of every function the callback may call.
Functions that mutate an object take it and give it back. -/

/-- How an initialization attempt of `try_to_initialize` ends. -/
inductive InitOutcome (O : Objects)
  | failure
  /-- The state, propagator and trackers it leaves, the initial time, and whether we are already
  moving. -/
  | success (state : FilterState O) (propagator : O.Propagator) (trackFEATS : O.Tracker)
      (trackARUCO : Option O.Tracker) (timestamp : Binary64) (moving : Bool)

/-- What `updaterZUPT->try_update` returns and leaves behind. -/
structure ZuptResult (O : Objects) where
  did : Bool
  updaterZUPT : O.ZeroVelocity
  state : FilterState O

structure VisualUpdateResult (O : Objects) where
  propagator : O.Propagator
  state : FilterState O
  trackFEATS : O.Tracker
  trackARUCO : Option O.Tracker

structure CameraCallback (O : Objects) where
  /-- `message.timestamp` -/
  timestamp : Binary64
  initThread : Option (InitOutcome O)
  feedNewCamera : O.Tracker → Except Exn O.Tracker
  feedNewCameraAruco : O.Tracker → Except Exn O.Tracker
  tryUpdate : O.ZeroVelocity → FilterState O → Except Exn (ZuptResult O)
  /-- `initializer->initialize` and what follows it in the initialization thread. -/
  initializeState : Except Exn (InitOutcome O)
  propagateAndClone : O.Propagator → FilterState O → Except Exn (O.Propagator × FilterState O)
  /-- Everything `do_feature_propagate_update` does once the clone window is long enough. -/
  visualUpdate : O.Propagator → FilterState O → O.Tracker → Option O.Tracker →
    Except Exn (VisualUpdateResult O)
  recover : Except Exn LongGapRelocalizationResult
  getMarginalCovariance : FilterState O → Except Exn O.Matrix
  imuCovarianceUsable : O.Matrix → Bool
  makeFreshStateWithCalibration : FilterState O → Except Exn (FilterState O)
  rot2Quat : Matrix3d → Vector3d × Binary64
  recoveryCovariance : O.Matrix → O.Matrix
  setInitialCovariance : FilterState O → O.Matrix → Except Exn (FilterState O)
  invalidateCache : O.Propagator → Except Exn O.Propagator
  cleanOldImuMeasurements : O.Propagator → FilterState O → Except Exn O.Propagator
  cleanOldImuMeasurementsZupt : O.ZeroVelocity → FilterState O → Except Exn O.ZeroVelocity
  lockCameraQueue : Except Exn Unit
  makeTracker : FilterState O → Except Exn O.Tracker
  makeTrackAruco : FilterState O → Except Exn O.Tracker
  makeInitializer : O.Tracker → Except Exn O.Initializer
  makeUpdaterZUPT : O.Tracker → O.Propagator → Except Exn O.ZeroVelocity

section Commit

variable {O : Objects} (o : VioManagerOptions) (cb : CameraCallback O)

def emit (e : Event) : EStateM Exn (VioManager O) PUnit :=
  modify fun m => { m with log := m.log ++ [e] }

/-- `commit_long_gap_recovery` up to the state swap: the checks of its input and the detached
replacement state. Nothing live is written here. -/
def stageRecoveredState (live : FilterState O) (R_GtoI : Matrix3d) (p_IinG : Vector3d) :
    Except Exn (FilterState O) :=
  if !R_GtoI.allFinite || !p_IinG.allFinite || !cb.timestamp.isFinite then
    .error "invalid long-gap recovery commit input"
  else do
    let oldImuCovariance ← cb.getMarginalCovariance live
    if !cb.imuCovarianceUsable oldImuCovariance then
      .error "long-gap recovery could not preserve bias covariance"
    else do
      let recovered ← cb.makeFreshStateWithCalibration live
      let recoveredImu : ImuValue :=
        { live.imu with q := cb.rot2Quat R_GtoI, p := p_IinG, v := Vector3d.zero }
      let recovered ← cb.setInitialCovariance
        { recovered with imu := recoveredImu, imuFej := recoveredImu }
        (cb.recoveryCovariance oldImuCovariance)
      return { recovered with timestamp := cb.timestamp }

def renewAruco : EStateM Exn (VioManager O) PUnit := do
  modify fun m => { m with trackARUCO := none }
  onlyIf o.useAruco do
    let aruco ← liftExcept (cb.makeTrackAruco (← get).state.val)
    modify fun m => { m with trackARUCO := some aruco }

def renewZupt : EStateM Exn (VioManager O) PUnit := do
  modify fun m => { m with updaterZUPT := none }
  onlyIf o.tryZupt do
    let zupt ← liftExcept (cb.makeUpdaterZUPT (← get).trackFEATS (← get).propagator)
    modify fun m => { m with updaterZUPT := some zupt }

/-- The frame at the epoch boundary is the first one the new trackers see. -/
def seedTrackers : EStateM Exn (VioManager O) PUnit := do
  let tracker ← liftExcept (cb.feedNewCamera (← get).trackFEATS)
  modify fun m => { m with trackFEATS := tracker }
  onSome (← get).trackARUCO fun aruco => do
    let aruco ← liftExcept (cb.feedNewCameraAruco aruco)
    modify fun m => { m with trackARUCO := some aruco }

/-- `reset_feature_epoch`. The visualization buffers it clears and the rebinding of the frontend
observer (`noexcept`) are not modelled. -/
def resetFeatureEpoch : EStateM Exn (VioManager O) PUnit := do
  let tracker ← liftExcept (cb.makeTracker (← get).state.val)
  modify fun m => { m with trackFEATS := tracker }
  renewAruco o cb
  let initializer ← liftExcept (cb.makeInitializer (← get).trackFEATS)
  modify fun m => { m with initializer := initializer }
  renewZupt o cb
  seedTrackers cb

/-- `commit_long_gap_recovery`. `make_shared<State>` gives an object other than the live one,
hence the new address. -/
def commitLongGapRecovery (R_GtoI : Matrix3d) (p_IinG : Vector3d) :
    EStateM Exn (VioManager O) PUnit := do
  let recovered ← liftExcept (stageRecoveredState cb (← get).state.val R_GtoI p_IinG)
  modify fun m => { m with state := ⟨m.state.addr + 1, recovered⟩ }
  let propagator ← liftExcept (cb.invalidateCache (← get).propagator)
  modify fun m => { m with propagator := propagator }
  let propagator ← liftExcept (cb.cleanOldImuMeasurements (← get).propagator (← get).state.val)
  modify fun m => { m with propagator := propagator }
  modify fun m => { m with
    startupTime := cb.timestamp
    timelastupdate := cb.timestamp
    isInitializedVio := true
    didZuptUpdate := false
    hasMovedSinceZupt := false }
  liftExcept cb.lockCameraQueue
  modify fun m => { m with cameraQueueInit := [] }
  resetFeatureEpoch o cb
  modify fun m => { m with recovery := { m.recovery with
    epochId := m.recovery.epochId + 1
    commitCount := m.recovery.commitCount + 1
    phase := .WARMUP
    consensus := [] } }
  emit .relocalizationCommit

end Commit

end Bravo.Recovery
