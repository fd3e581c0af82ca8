import Bravo.Recovery.Manager

/-! # One camera callback

`track_image_and_update` with the functions it calls: the recovery attempt
`process_long_gap_recovery_frame`, the initialization `try_to_initialize`, and
`do_feature_propagate_update`. The consensus test is a pure function of the retained samples;
Eigen's `norm` enters as the parameter `norm`.

Callbacks are run one after the other. An initialization thread that runs in the background
(`use_multi_threading_subs`) is taken to end between two callbacks, which is where
`try_to_initialize` looks at its flags.
-/

namespace Bravo.Recovery

/-! ## The consensus test -/

section Consensus

variable (norm : Vector3d → Binary64)

/-- `values[values.size() / 2]` of the sorted values. `std::sort` on so few values is an
insertion sort by `<`. -/
def sortedMedian (values : List Binary64) : Binary64 :=
  (values.insertionSort (fun a b => ¬ b < a))[values.length / 2]?.getD default

def componentMedian (samples : List LongGapRecoveryPoseSample) : Vector3d where
  x := sortedMedian (samples.map (·.p_IinG.x))
  y := sortedMedian (samples.map (·.p_IinG.y))
  z := sortedMedian (samples.map (·.p_IinG.z))

def maximumRadius (samples : List LongGapRecoveryPoseSample) : Binary64 :=
  samples.foldl
    (fun radius s => Binary64.max radius (norm (s.p_IinG - componentMedian samples))) ⟨0⟩

/-- The test that licenses a commit. -/
def consensusPasses (o : VioManagerOptions) (samples : List LongGapRecoveryPoseSample) : Bool :=
  (maximumRadius norm samples).isFinite &&
    decide (maximumRadius norm samples ≤ o.longGapRecoveryStationaryRadiusM)

end Consensus

section Callback

variable {O : Objects} (o : VioManagerOptions) (norm : Vector3d → Binary64)
variable (cb : CameraCallback O)

def modifyRecovery (f : LongGapRecovery → LongGapRecovery) : EStateM Exn (VioManager O) PUnit :=
  modify fun m => { m with recovery := f m.recovery }

/-! ## The recovery attempt -/

/-- The last statement of an attempt: give up once the attempts are used up. -/
def failIfExhausted : EStateM Exn (VioManager O) PUnit := do
  onlyIf (decide (o.longGapRecoveryMaxAttempts ≤ (← get).recovery.attemptCount)) do
    modifyRecovery fun r => { r with
      phase := .FAILED
      failureCount := r.failureCount + 1
      consensus := [] }
    emit .recoveryFailed

/-- Keep the accepted pose of this frame, or drop what was kept so far. -/
def collectSample (recovery : LongGapRelocalizationResult) : EStateM Exn (VioManager O) PUnit :=
  if recovery.accepted then do
    let sample : LongGapRecoveryPoseSample := ⟨cb.timestamp, recovery.R_GtoI, recovery.p_IinG⟩
    modifyRecovery fun r => { r with consensus := r.consensus ++ [sample] }
    emit (.acceptedPose sample)
  else
    modifyRecovery fun r => { r with consensus := [] }

def commitVerified (samples : List LongGapRecoveryPoseSample) : EStateM Exn (VioManager O) PUnit :=
  onSome samples.getLast? fun verified => do
    emit .consensusPass
    emit (.commitCall verified.R_GtoI verified.p_IinG)
    commitLongGapRecovery o cb verified.R_GtoI verified.p_IinG

def decideConsensus (samples : List LongGapRecoveryPoseSample) : EStateM Exn (VioManager O) PUnit :=
  if o.longGapRecoveryConsensusFrames ≤ (samples.length : Int) then
    if consensusPasses norm o samples then
      commitVerified o cb samples
    else do
      emit .consensusReject
      modifyRecovery fun r => { r with consensus := [] }
      failIfExhausted o
  else
    failIfExhausted o

/-- `process_long_gap_recovery_frame`. The state, tracker and propagator pointers it tests are
never null. -/
def processLongGapRecoveryFrame : EStateM Exn (VioManager O) PUnit := do
  let m ← get
  if m.recovery.phase = .FAILED then
    emit .degradedFrame
  else if m.recovery.phase = .REACQUIRING then do
    modifyRecovery fun r => { r with attemptCount := r.attemptCount + 1 }
    let recovery ← liftExcept cb.recover
    emit (.attempt recovery.accepted)
    collectSample cb recovery
    decideConsensus o norm cb (← get).recovery.consensus
  else
    pure ⟨⟩

/-! ## Initialization -/

def finishInitThread (outcome : InitOutcome O) : EStateM Exn (VioManager O) PUnit :=
  match outcome with
  | .failure =>
    modify fun m => { m with
      threadInitSuccess := false
      cameraQueueInit := []
      threadInitRunning := false }
  | .success state propagator trackFEATS trackARUCO timestamp moving =>
    modify fun m => { m with
      state := ⟨m.state.addr, state⟩
      propagator := propagator
      startupTime := timestamp
      trackFEATS := trackFEATS
      trackARUCO := trackARUCO
      hasMovedSinceZupt := m.hasMovedSinceZupt || moving
      threadInitSuccess := true
      cameraQueueInit := []
      threadInitRunning := false }

/-- `try_to_initialize`: the returned Boolean becomes `is_initialized_vio`. -/
def tryToInitialize : EStateM Exn (VioManager O) Bool := do
  let m ← get
  if m.threadInitRunning then do
    modify fun m => { m with cameraQueueInit := m.cameraQueueInit ++ [cb.timestamp] }
    return false
  else if m.threadInitSuccess then
    return true
  else do
    modify fun m => { m with threadInitRunning := true }
    -- With multi-threading the thread is detached and ends before a later callback.
    onlyIf (!o.useMultiThreadingSubs) do
      finishInitThread (← liftExcept cb.initializeState)
    return false

/-! ## Ordinary processing -/

/-- The clone count from which on features are processed. -/
def enoughClones (clones : Nat) : Bool := decide (min o.maxCloneSize 5 ≤ (clones : Int))

def propagate : EStateM Exn (VioManager O) PUnit := do
  let m ← get
  onlyIf (!m.state.val.timestamp.equal cb.timestamp) do
    let r ← liftExcept (cb.propagateAndClone m.propagator m.state.val)
    modify fun m => { m with propagator := r.1, state := ⟨m.state.addr, r.2⟩ }

/-- The rest of `do_feature_propagate_update`, once there are enough clones. -/
def updateWithFeatures : EStateM Exn (VioManager O) PUnit := do
  modify fun m => { m with hasMovedSinceZupt := true }
  let m ← get
  let r ← liftExcept (cb.visualUpdate m.propagator m.state.val m.trackFEATS m.trackARUCO)
  modify fun m => { m with
    propagator := r.propagator
    state := ⟨m.state.addr, r.state⟩
    trackFEATS := r.trackFEATS
    trackARUCO := r.trackARUCO
    timelastupdate := cb.timestamp }

/-- `do_feature_propagate_update`: an image out of order, too few clones or a propagation that
did not reach the image end it early. -/
def doFeaturePropagateUpdate : EStateM Exn (VioManager O) PUnit := do
  emit .featurePropagateUpdate
  let m ← get
  if cb.timestamp < m.state.val.timestamp then
    pure ⟨⟩
  else do
    propagate cb
    let m ← get
    onlyIf (enoughClones o m.state.val.clonesIMU && m.state.val.timestamp.equal cb.timestamp)
      (updateWithFeatures cb)

def trimAfterZupt (zupt : O.ZeroVelocity) : EStateM Exn (VioManager O) PUnit := do
  let m ← get
  let propagator ← liftExcept (cb.cleanOldImuMeasurements m.propagator m.state.val)
  modify fun m => { m with propagator := propagator }
  let zupt ← liftExcept (cb.cleanOldImuMeasurementsZupt (m.updaterZUPT.getD zupt) m.state.val)
  modify fun m => { m with updaterZUPT := some zupt }
  let propagator ← liftExcept (cb.invalidateCache propagator)
  modify fun m => { m with propagator := propagator }

/-- The zero-velocity branch; `true` when it ends the callback. -/
def zeroVelocity : EStateM Exn (VioManager O) Bool := do
  let m ← get
  match m.updaterZUPT with
  | none => return false
  | some zupt =>
    if m.isInitializedVio && (!o.zuptOnlyAtBeginning || !m.hasMovedSinceZupt) then do
      emit .zeroVelocityUpdater
      -- At the state's own time the decision of the previous step stands.
      onlyIf (!m.state.val.timestamp.equal cb.timestamp) do
        let r ← liftExcept (cb.tryUpdate zupt m.state.val)
        modify fun m => { m with
          didZuptUpdate := r.did
          updaterZUPT := some r.updaterZUPT
          state := ⟨m.state.addr, r.state⟩ }
      let did := (← get).didZuptUpdate
      onlyIf did (trimAfterZupt cb zupt)
      return did
    else
      return false

/-- The end of the callback: a warm epoch goes back to tracking. -/
def completeWarmup : EStateM Exn (VioManager O) PUnit := do
  let m ← get
  onlyIf (o.longGapRecoveryEnabled && m.recovery.phase == .WARMUP &&
      enoughClones o m.state.val.clonesIMU && m.timelastupdate.equal cb.timestamp) do
    modifyRecovery fun r => { r with phase := .TRACKING }
    emit .warmupComplete

def initializeIfDue : EStateM Exn (VioManager O) PUnit := do
  let m ← get
  onlyIf (!m.isInitializedVio) do
    let success ← tryToInitialize o cb
    modify fun m => { m with isInitializedVio := success }

def ordinaryProcessing : EStateM Exn (VioManager O) PUnit := do
  let ended ← zeroVelocity o cb
  onlyIf (!ended) do
    initializeIfDue o cb
    let m ← get
    onlyIf m.isInitializedVio do
      doFeaturePropagateUpdate o cb
      completeWarmup o cb

/-! ## The callback -/

def longGap (m : VioManager O) : Bool :=
  o.longGapRecoveryEnabled && m.isInitializedVio && m.recovery.phase == .TRACKING &&
    m.state.val.timestamp.isFinite &&
    decide (o.longGapRecoveryThreshold < cb.timestamp - m.state.val.timestamp)

/-- The recovery fields right after a trigger. -/
def LongGapRecovery.triggered (r : LongGapRecovery) : LongGapRecovery :=
  { r with
    phase := .REACQUIRING
    attemptCount := 0
    consensus := []
    activationCount := r.activationCount + 1 }

def joinInitThread : EStateM Exn (VioManager O) PUnit := do
  let m ← get
  onSome cb.initThread fun outcome => onlyIf m.threadInitRunning (finishInitThread outcome)

def feedTrackers : EStateM Exn (VioManager O) PUnit := do
  let tracker ← liftExcept (cb.feedNewCamera (← get).trackFEATS)
  modify fun m => { m with trackFEATS := tracker }
  let m ← get
  onSome m.trackARUCO fun aruco => onlyIf m.isInitializedVio do
    let aruco ← liftExcept (cb.feedNewCameraAruco aruco)
    modify fun m => { m with trackARUCO := some aruco }

/-- `track_image_and_update`, from the trigger test on. Downsampling is excluded by the frozen
contract and the images are inside the callees. -/
def trackImageAndUpdate : EStateM Exn (VioManager O) PUnit := do
  let m ← get
  onlyIf (longGap o cb m) do
    modifyRecovery LongGapRecovery.triggered
    emit .trigger
  feedTrackers cb
  let m ← get
  if o.longGapRecoveryEnabled &&
      (m.recovery.phase == .REACQUIRING || m.recovery.phase == .FAILED) then
    processLongGapRecoveryFrame o norm cb
  else
    ordinaryProcessing o cb

def callbackBegin (m : VioManager O) : VioManager O :=
  finalState ((joinInitThread cb).run m)

end Callback

/-! ## Construction and runs -/

section Run

variable {O : Objects}

/-- The objects `VioManager::VioManager` creates. -/
structure Parts (O : Objects) where
  state : FilterState O
  propagator : O.Propagator
  trackFEATS : O.Tracker
  trackARUCO : Option O.Tracker
  initializer : O.Initializer
  updaterZUPT : Option O.ZeroVelocity

/-- The constructor: it refuses an enabled recovery outside the frozen contract. -/
def newVioManager (o : VioManagerOptions) (parts : Parts O) : Except Exn (VioManager O) :=
  if o.longGapRecoveryEnabled && !frozenRecoveryContract o then
    .error "enabled long-gap recovery violates its frozen runtime contract"
  else
    .ok { state := ⟨0, parts.state⟩
          propagator := parts.propagator
          trackFEATS := parts.trackFEATS
          trackARUCO := if o.useAruco then parts.trackARUCO else none
          initializer := parts.initializer
          updaterZUPT := if o.tryZupt then parts.updaterZUPT else none
          isInitializedVio := false
          cameraQueueInit := []
          timelastupdate := ⟨0xbff0000000000000⟩
          startupTime := ⟨0xbff0000000000000⟩
          threadInitRunning := false
          threadInitSuccess := false
          didZuptUpdate := false
          hasMovedSinceZupt := false
          recovery := ⟨.TRACKING, 0, [], 0, 0, 0, 0⟩
          log := [] }

def feedMeasurementCamera (o : VioManagerOptions) (norm : Vector3d → Binary64)
    (m : VioManager O) (cb : CameraCallback O) : EStateM.Result Exn (VioManager O) PUnit :=
  (trackImageAndUpdate o norm cb).run (callbackBegin cb m)

def Step (o : VioManagerOptions) (norm : Vector3d → Binary64) (m : VioManager O)
    (cb : CameraCallback O) (m' : VioManager O) : Prop :=
  feedMeasurementCamera o norm m cb = .ok ⟨⟩ m'

def events (e : Entry (VioManager O) (CameraCallback O)) : List Event :=
  e.post.log.drop e.pre.log.length

def play (o : VioManagerOptions) (norm : Vector3d → Binary64) :
    VioManager O → List (CameraCallback O) →
      Option (List (Entry (VioManager O) (CameraCallback O)) × VioManager O)
  | m, [] => some ([], m)
  | m, cb :: cbs =>
    match feedMeasurementCamera o norm m cb with
    | .ok _ m' => (play o norm m' cbs).map fun r => (⟨m, cb, m'⟩ :: r.1, r.2)
    | .error _ _ => none

theorem run_of_play {o : VioManagerOptions} {norm : Vector3d → Binary64} :
    ∀ {cbs : List (CameraCallback O)} {m : VioManager O}
      {r : List (Entry (VioManager O) (CameraCallback O)) × VioManager O},
      play o norm m cbs = some r → Run (Step o norm) m r.1 r.2 := by
  intro cbs
  induction cbs with
  | nil =>
    intro m r h
    cases h
    exact Run.nil
  | cons cb cbs ih =>
    intro m r h
    simp only [play] at h
    split at h
    · rename_i m' hfeed
      obtain ⟨r', hr', rfl⟩ := Option.map_eq_some_iff.mp h
      exact Run.cons hfeed (ih hr')
    · cases h

end Run

/-! ## A frozen configuration

The options of the checked recovery configuration, and callbacks of a platform at rest: the
trackers, the propagator and the body of the state are trivial, every callee returns, and the
propagation moves the state to the time of the image. -/

section Frozen

def frozenOptions : VioManagerOptions where
  longGapRecoveryEnabled := true
  longGapRecoveryThreshold := ⟨0x3fe0000000000000⟩
  longGapRecoveryMaxAttempts := 10
  longGapRecoveryMinCorrespondences := 12
  longGapRecoveryMinInliers := 12
  longGapRecoveryMinInlierRatio := ⟨0x3fe6666666666666⟩
  longGapRecoveryReprojectionPx := ⟨0x4000000000000000⟩
  longGapRecoveryMinImageSpanRatio := ⟨0x3fd0000000000000⟩
  longGapRecoveryMaxImuAngleDeg := ⟨0x4014000000000000⟩
  longGapRecoveryConsensusFrames := 3
  longGapRecoveryStationaryRadiusM := ⟨0x3fb999999999999a⟩
  longGapRecoveryOrientationSigmaDeg := ⟨0x4000000000000000⟩
  longGapRecoveryPositionSigmaM := ⟨0x3fb999999999999a⟩
  longGapRecoveryVelocitySigmaMps := ⟨0x3fa999999999999a⟩
  useKlt := true
  useStereo := true
  useAruco := false
  downsampleCameras := false
  numCameras := 2
  doCalibCameraPose := false
  doCalibCameraIntrinsics := false
  doCalibCameraTimeoffset := false
  maxSlamFeatures := 50
  maxCloneSize := 11
  cameraIntrinsics := [(0, .radtan), (1, .radtan)]
  tryZupt := false
  zuptOnlyAtBeginning := false
  useMultiThreadingSubs := false

def restObjects : Objects := ⟨Unit, Unit, Unit, Unit, Unit, Unit⟩

/-- A resting filter state with `clones` clones at time `t`. -/
def restState (t : Binary64) (clones : Nat) : FilterState restObjects :=
  ⟨t, default, default, clones, ()⟩

def restParts : Parts restObjects :=
  ⟨restState ⟨0xbff0000000000000⟩ 0, (), (), none, (), none⟩

def axisNorm (v : Vector3d) : Binary64 := Binary64.ofSignMagnitude false v.x.magnitude

def rejectedResult : LongGapRelocalizationResult :=
  ⟨false, default, Vector3d.zero, fun h => by cases h⟩

def originResult : LongGapRelocalizationResult :=
  ⟨true, default, Vector3d.zero, fun _ => by decide⟩

/-- A callback at time `t` after which the window has `clones` clones. -/
def restCallback (t : Binary64) (clones : Nat) (recovery : LongGapRelocalizationResult) :
    CameraCallback restObjects where
  timestamp := t
  initThread := none
  feedNewCamera := .ok
  feedNewCameraAruco := .ok
  tryUpdate := fun z s => .ok ⟨false, z, s⟩
  initializeState := .ok (.success (restState t 0) () () none t false)
  propagateAndClone := fun p _ => .ok (p, restState t clones)
  visualUpdate := fun p s f a => .ok ⟨p, s, f, a⟩
  recover := .ok recovery
  getMarginalCovariance := fun _ => .ok ()
  imuCovarianceUsable := fun _ => true
  makeFreshStateWithCalibration := fun _ => .ok (restState ⟨0xbff0000000000000⟩ 0)
  rot2Quat := fun _ => (Vector3d.zero, ⟨0x3ff0000000000000⟩)
  recoveryCovariance := id
  setInitialCovariance := fun s _ => .ok s
  invalidateCache := .ok
  cleanOldImuMeasurements := fun p _ => .ok p
  cleanOldImuMeasurementsZupt := fun z _ => .ok z
  lockCameraQueue := .ok ()
  makeTracker := fun _ => .ok ()
  makeTrackAruco := fun _ => .ok ()
  makeInitializer := fun _ => .ok ()
  makeUpdaterZUPT := fun _ _ => .ok ()

def restManager : VioManager restObjects :=
  { state := ⟨0, restParts.state⟩
    propagator := ()
    trackFEATS := ()
    trackARUCO := none
    initializer := ()
    updaterZUPT := none
    isInitializedVio := false
    cameraQueueInit := []
    timelastupdate := ⟨0xbff0000000000000⟩
    startupTime := ⟨0xbff0000000000000⟩
    threadInitRunning := false
    threadInitSuccess := false
    didZuptUpdate := false
    hasMovedSinceZupt := false
    recovery := ⟨.TRACKING, 0, [], 0, 0, 0, 0⟩
    log := [] }

theorem newVioManager_frozenOptions : newVioManager frozenOptions restParts = .ok restManager := rfl

/-- Initialization at 1 s, tracking at 1.25 s and 1.5 s, an outage until 8 s, and three accepted
poses at one place. -/
def outageCallbacks : List (CameraCallback restObjects) :=
  [restCallback ⟨0x3ff0000000000000⟩ 0 rejectedResult,
    restCallback ⟨0x3ff4000000000000⟩ 4 rejectedResult,
    restCallback ⟨0x3ff8000000000000⟩ 5 rejectedResult,
    restCallback ⟨0x4020000000000000⟩ 5 originResult,
    restCallback ⟨0x4020800000000000⟩ 5 originResult,
    restCallback ⟨0x4021000000000000⟩ 5 originResult]

theorem outageCallbacks_play :
    (play frozenOptions axisNorm restManager outageCallbacks).isSome = true := by decide +kernel

/-- The run of `outageCallbacks`. -/
def outageRun :
    List (Entry (VioManager restObjects) (CameraCallback restObjects)) × VioManager restObjects :=
  (play frozenOptions axisNorm restManager outageCallbacks).get outageCallbacks_play

theorem outageRun_run : Run (Step frozenOptions axisNorm) restManager outageRun.1 outageRun.2 :=
  run_of_play (Option.some_get outageCallbacks_play).symm

end Frozen

end Bravo.Recovery
