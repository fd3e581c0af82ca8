import Bravo.Basic.Exec
import Bravo.Journal.Sink
import Bravo.Updater.Live

/-! # One call of the updater

The objects that `UpdaterMSCKF::update` works on, the outcomes of its callees during one call, and
the small functions that end a call: latching a fatal reason, publishing a record, notifying the
observer. Diagnostics, prints and timers that nothing reads are left out.
-/

namespace Bravo.Updater

open Bravo.Trace Bravo.Journal Bravo.Shadow

/-! ## Features -/

/-- One measurement of a feature. The three parallel vectors of a camera are one list. -/
structure Observation where
  timestamp : Binary64
  uv : List UInt32
  uvNorm : List UInt32
deriving DecidableEq, Repr

/-- `ov_core::Feature`; the observations are keyed by camera. -/
structure Feature where
  featid : UInt64
  toDelete : Bool := false
  observations : List (UInt64 × List Observation) := []
  anchorCamId : Int64 := -1
  anchorCloneTimestamp : Binary64 := ⟨0xbff0000000000000⟩
  p_FinA : Binary64 × Binary64 × Binary64 := (⟨0⟩, ⟨0⟩, ⟨0⟩)
  p_FinG : Binary64 × Binary64 × Binary64 := (⟨0⟩, ⟨0⟩, ⟨0⟩)
deriving DecidableEq, Repr

def Feature.cleanOldMeasurements (f : Feature) (validTimes : List Binary64) : Feature :=
  { f with
    observations := f.observations.map fun camera =>
      (camera.1, camera.2.filter fun o => validTimes.any (Binary64.equal o.timestamp)) }

def Feature.measurementCount (f : Feature) : Nat :=
  (f.observations.map fun camera => camera.2.length).sum

/-- `msckf_feature_observations_equal` -/
def featureObservationsEqual (left right : Feature) : Bool :=
  left.featid == right.featid && left.observations.length == right.observations.length &&
    left.observations.all fun camera => right.observations.lookup camera.1 == some camera.2

/-- The geometry that `AdoptGeometry` copies. -/
def Feature.adopt (f candidate : Feature) : Feature :=
  { f with
    anchorCamId := candidate.anchorCamId
    anchorCloneTimestamp := candidate.anchorCloneTimestamp
    p_FinA := candidate.p_FinA
    p_FinG := candidate.p_FinG }

/-- A `std::shared_ptr<Feature>`: null, to an object of the caller, or to a working copy. -/
inductive FeaturePtr
  | null
  | live (n : Nat)
  | working (n : Nat)
deriving DecidableEq, Repr

/-! ## Exceptions -/

inductive CP2TraceFatalReason
  | kNone
  | kConfigurationInvariant
  | kPhase0Promotion
  | kRequiredEncoding
  | kShadowTrace
  | kPhase1Capture
  | kPostcommitCapture
  | kSinkRejected
  | kArithmeticInvariant
  | kPostcommitException
deriving DecidableEq, Repr, Inhabited

inductive Fault
  | overflowError
  | exception
  | unknown
deriving DecidableEq, Repr

/-- An exception inside `update`: a `CP2TraceFatalError`, or another one. -/
inductive Exn
  | fatal (reason : CP2TraceFatalReason) (message : String)
  | fault (f : Fault)
deriving DecidableEq, Repr

/-! ## The updater -/

structure CP2UpdateInvocationContext where
  sequenceIndex : UInt64
  pairIndex : UInt64
  cameraTimestampNs : UInt64
deriving DecidableEq, Repr

/-- `LandmarkElimination`; a cast can also produce a value that is neither. -/
inductive LandmarkElimination
  | NULLSPACE
  | SCHUR
  | other
deriving DecidableEq, Repr

structure UpdaterOptions where
  landmarkElimination : LandmarkElimination
  maxVisualPasses : Int
  sigmaPix : Binary64
  sigmaPixSq : Binary64
  chi2Multiplier : Binary64
  refineFeatures : Bool

/-- The members of `UpdaterMSCKF`. -/
structure UpdaterMSCKF where
  options : UpdaterOptions
  chiSquaredTable : ChiSquaredTable
  recordedSink : Bool
  updateCallback : Bool
  shadowEnabled : Bool
  configurationFrozen : Bool := false
  updateActive : Bool := false
  pendingInvocationContext : Option CP2UpdateInvocationContext := none
  nextInvocationId : UInt64 := 0
  traceFatalReason : CP2TraceFatalReason := .kNone

/-- `cp2_trace_fatal_latched` -/
def UpdaterMSCKF.traceFatalLatched (u : UpdaterMSCKF) : Bool := u.traceFatalReason != .kNone

/-- `set_cp2_invocation_context` -/
def UpdaterMSCKF.setInvocationContext (u : UpdaterMSCKF) (context : CP2UpdateInvocationContext) :
    Bool × UpdaterMSCKF :=
  if u.updateActive || u.pendingInvocationContext.isSome || u.traceFatalLatched then (false, u)
  else (true, { u with pendingInvocationContext := some context })

/-- The exchange of `latch_cp2_trace_fatal`: the first reason stays. -/
def UpdaterMSCKF.latch (u : UpdaterMSCKF) (reason : CP2TraceFatalReason) : UpdaterMSCKF :=
  if u.traceFatalReason = .kNone then { u with traceFatalReason := reason } else u

/-! ## Callees -/

structure CP2SteadyClockEndpoint where
  nanoseconds : UInt64 := 0
  valid : Bool := false
deriving DecidableEq, Repr

/-- What the sink or the observer does with the updater while it runs inside a call: it can try to
set a context or to update again. -/
inductive Reentry
  | setContext (context : CP2UpdateInvocationContext)
  | update (start : CP2SteadyClockEndpoint)

structure MSCKFDetachedFeatureSet where
  features : List (Option Feature)
  sourceIndices : List Nat

/-- `MSCKFTwoPassCost`, without the diagnostics of a failure. -/
structure MSCKFTwoPassCost where
  valid : Bool
  pixel : Binary64
  posterior : Binary64
  geometry : MSCKFDetachedFeatureSet

structure SecondPass where
  valid : Bool
  cost : MSCKFTwoPassCost

structure Linearization where
  H_f : MatrixXd
  H_x : MatrixXd
  res : VectorXd
  Hx_order : Order

/-- The result of `CP2CommitOracle::Compare` and the snapshot of phase 3. -/
structure Postcommit where
  fillAccepted : Bool
  handoffAccepted : Bool
  snapshot : Option CP2CompositeStateSnapshot

/-- What the callees of one call of `update` do. The calls inside the loops are numbered, so that
the same arguments can have different outcomes. `σ` is the type of `State`. -/
structure Callees (σ : Type) where
  arithmetic : Arithmetic
  start : CP2SteadyClockEndpoint
  finish : CP2SteadyClockEndpoint
  allocateRecord : Except Fault Unit
  -- ordinary prior
  capturePrior : Except Fault MSCKFUpdatePreviewSnapshot
  /-- `do_fej`, `GLOBAL_3D` and at least one camera, all of them radtan. -/
  visualContractSupported : Bool
  entryMatch : Except Fault Bool
  precommitMatch : Except Fault Bool
  allocateBatch : Except Fault Unit
  -- features
  cloneTimes : List Binary64
  cameraPoses : Except Fault Unit
  triangulate : Nat → Feature → Feature × Except Fault Bool
  refine : Nat → Feature → Feature × Except Fault Bool
  maxCovarianceSize : Int
  /-- The sizes of the SLAM landmarks; a null landmark has none. -/
  landmarkSizes : List (Option Int)
  allocateSystem : Except Fault Unit
  jacobian : Nat → Feature → Except Fault Linearization
  schurReduce : Nat → MatrixXd → MatrixXd → VectorXd → Except Fault SchurReduction
  nullspace : Nat → MatrixXd → MatrixXd → VectorXd → Except Fault (MatrixXd × VectorXd)
  gate : Nat → CP2FeatureGateInput → Except Fault CP2FeatureGateResult
  /-- What `measurement_compress_inplace` throws, if anything. -/
  compress : Except Fault Unit
  preview : MSCKFUpdatePreviewSnapshot → List MSCKFUpdatePreviewBlock → MatrixXd → VectorXd →
    MatrixXd → Except Fault MSCKFUpdatePreviewResult
  -- shadow and encoders
  shadow : CP2ShadowMathInput → Except Fault ShadowResult
  encodeRawSystem : CP2RawFeatureSystem → Except Fault (List UInt8)
  encodeProposal : CP2ProposalTracePayload → Except Fault (List UInt8)
  encodeSnapshot : CP2CompositeStateSnapshot → Except Fault (List UInt8)
  -- state phases
  capture : CP2StatePhase → Except Fault (Option CP2CompositeStateSnapshot)
  validate : CP2CompositeStateSnapshot → Except Fault Bool
  projectPreview : CP2CompositeStateSnapshot → Except Fault (Option MSCKFUpdatePreviewSnapshot)
  canonicallyEqual : CP2CompositeStateSnapshot → CP2CompositeStateSnapshot → Except Fault Bool
  pointerGraphMatches : Except Fault Bool
  /-- `BuildExpected`, with the number of type updates. -/
  buildExpected : CP2CompositeStateSnapshot → MSCKFUpdatePreviewResult →
    Except Fault (Option (CP2CompositeStateSnapshot × UInt64))
  preparePostcommit : Except Fault Bool
  ownPhases : Except Fault Unit
  ownPostcommitPhases : Except Fault Unit
  finalPointerProof : Except Fault Bool
  /-- `EKFUpdate`: what it leaves behind, also when it throws. -/
  ekfUpdate : σ → σ × Except Fault Unit
  postcommit : Postcommit
  compare : CP2CompositeStateSnapshot → CP2CompositeStateSnapshot → CP2CompositeStateSnapshot →
    UInt64 → Except Fault Trace.CP2CommitOracleResult
  -- two passes
  priorFactor : MatrixXd → Except Fault Bool
  passOneMean : List MSCKFUpdatePreviewBlock → MatrixXd → VectorXd → Except Fault Bool
  passOneCost : MSCKFDetachedFeatureSet → Except Fault MSCKFTwoPassCost
  passTwo : MSCKFDetachedFeatureSet → Except Fault SecondPass
  /-- `selected_pass == 2`, from the two costs. -/
  passTwoAccepted : MSCKFTwoPassCost → MSCKFTwoPassCost → Bool
  selectedCovariance : Bool → Except Fault Bool
  selectedMeanParity : Bool → Bool
  prepareFinalization : Except Fault Unit
  /-- `CommitPrecomputedUpdate`: the new state, or `false` and no write. -/
  commitPrecomputed : σ → Option σ
  -- outside
  publish : CP2RecordedUpdateEvent → CP2RecordedSinkStatus
  sinkReentries : List Reentry
  observerReentries : List Reentry

/-! ## The state of a call -/

structure Publication where
  record : CP2RecordedUpdateEvent
  status : CP2RecordedSinkStatus

/-- `MSCKFDetachedFeatureBatch`. The working copy of entry `i` is the object `working i`. -/
structure MSCKFDetachedFeatureBatch where
  entries : List FeaturePtr
  active : List FeaturePtr
  finalActive : List FeaturePtr := []
  prepared : Bool := false
  finalized : Bool := false

structure World (σ : Type) where
  updater : UpdaterMSCKF
  state : σ
  heap : FeaturePtr → Feature
  featureVec : List FeaturePtr
  published : List Publication := []
  /-- The terminal events, as the observer is given them where one is installed. -/
  terminal : List CP2LiveUpdateEvent := []
  /-- The calls of `CommitPrecomputedUpdate`, with what they returned. -/
  commitCalls : List Bool := []

/-- The world and the local variables of `update`. -/
structure Call (σ : Type) extends World σ where
  event : CP2LiveUpdateEvent := {}
  record : CP2RecordedUpdateEvent := {}
  recordPublished : Bool := false
  liveCommitStarted : Bool := false
  batch : Option MSCKFDetachedFeatureBatch := none
  meanCommits : Nat := 0
  covarianceCommits : Nat := 0
  finalizations : Nat := 0
  tick : Nat := 0
  system : LiveSystem := {}
  priorSnapshot : MSCKFUpdatePreviewSnapshot := {}
  shadowInput : CP2ShadowMathInput := {}
  /-- `update_event.shadow.result`, with the matrices that are not journalled. -/
  shadowResult : ShadowResult := {}
  /-- The tentative capture of phase 0, where it was accepted. -/
  phase0 : Option CP2CompositeStateSnapshot := none
  phase0Promoted : Bool := false
  phase0Payload : List UInt8 := []
  shadowTraceValid : Bool := false
  shadowMathValid : Bool := false
  baselineProvenanceEqual : Bool := false
  shadowProposalPayload : Option (List UInt8) := none

variable {σ : Type}

/-- A piece of `update`. -/
abbrev Update (σ : Type) := EStateM Exn (Call σ)

def call {α : Type} (x : Except Fault α) : Update σ α :=
  match x with
  | .ok a => pure a
  | .error f => throw (.fault f)

def checked {α : Type} (x : Except String α) : Update σ α :=
  match x with
  | .ok a => pure a
  | .error _ => throw (.fault .overflowError)

def modifyUpdater (f : UpdaterMSCKF → UpdaterMSCKF) : Update σ Unit :=
  modify fun s => { s with updater := f s.updater }

def modifyEvent (f : CP2LiveUpdateEvent → CP2LiveUpdateEvent) : Update σ Unit :=
  modify fun s => { s with event := f s.event }

def modifyRecord (f : CP2RecordedUpdateEvent → CP2RecordedUpdateEvent) : Update σ Unit :=
  modify fun s => { s with record := f s.record }

/-- `latch_cp2_trace_fatal` -/
def latchTraceFatal {α : Type} (reason : CP2TraceFatalReason) (message : String) : Update σ α := do
  modifyUpdater fun u => u.latch reason
  let s ← get
  throw (.fatal s.updater.traceFatalReason message)

/-- `catch (...)` that latches: a fatal exception does not come from a callee. -/
def callOrLatch {α : Type} (x : Except Fault α) (reason : CP2TraceFatalReason) (message : String) :
    Update σ α :=
  match x with
  | .ok a => pure a
  | .error _ => latchTraceFatal reason message

/-! ## Entry -/

/-- The checks at the entry of `update`, up to claiming the active flag. -/
def enter (start : CP2SteadyClockEndpoint) (u : UpdaterMSCKF) : Except Exn Unit × UpdaterMSCKF :=
  let u := { u with configurationFrozen := true }
  let u := if start.valid then u else u.latch .kArithmeticInvariant
  if !start.valid then
    (.error (.fatal u.traceFatalReason "CP2 steady-clock start endpoint is unavailable"), u)
  else if u.traceFatalLatched then
    (.error (.fatal u.traceFatalReason "CP2 recorded updater entered after fatal latch"), u)
  else if u.updateActive then (.error (.fault .exception), u)
  else (.ok ⟨⟩, { u with updateActive := true })

/-- A call made from inside a call. The active flag is set, so an update does not get past its
entry. -/
def reenter (u : UpdaterMSCKF) : Reentry → UpdaterMSCKF
  | .setContext context => (u.setInvocationContext context).2
  | .update start => (enter start u).2

/-! ## Ending a call -/

/-- `notify_observer`; what the observer throws is contained. -/
def notifyObserver (C : Callees σ) (event : CP2LiveUpdateEvent) : Update σ Unit :=
  modify fun s => { s with
    terminal := s.terminal ++ [event]
    updater := if s.updater.updateCallback then C.observerReentries.foldl reenter s.updater
      else s.updater }

def publishRecord (C : Callees σ) : Update σ Unit := do
  let s ← get
  if s.recordPublished then
    latchTraceFatal .kConfigurationInvariant "CP2 authoritative publication state is invalid"
  else do
    let status := C.publish s.record
    modify fun s => { s with
      published := s.published ++ [⟨s.record, status⟩]
      updater := C.sinkReentries.foldl reenter s.updater }
    if status ≠ .kPublished then
      latchTraceFatal .kSinkRejected "CP2 authoritative sink rejected the update record"
    else do
      modify fun s => { s with recordPublished := true }
      notifyObserver C s.record.update

/-- `cp2_steady_clock_duration` -/
def steadyClockDuration (start finish : CP2SteadyClockEndpoint) : Option UInt64 :=
  if !start.valid || !finish.valid || decide (finish.nanoseconds < start.nanoseconds) then none
  else some (finish.nanoseconds - start.nanoseconds)

/-- `capture_cp2_duration_ns` -/
def captureDuration (C : Callees σ) (event : CP2LiveUpdateEvent) : CP2LiveUpdateEvent :=
  { event with
    timingStartNs := C.start.nanoseconds
    timingEndNs := C.finish.nanoseconds
    timingEndpointValid := (steadyClockDuration C.start C.finish).isSome
    durationNs := (steadyClockDuration C.start C.finish).getD 0 }

def finishUpdate (C : Callees σ) (status : CP2UpdateTerminalStatus)
    (subreason : CP2UpdateTerminalSubreason) : Update σ Unit := do
  modifyEvent fun event =>
    let event := captureDuration C event
    { event with
      terminalStatus := if event.timingEndpointValid then status else .kInternalFailure
      terminalSubreason := if event.timingEndpointValid then subreason
        else .kTraceInvariantFailure }
  let s ← get
  notifyObserver C s.event

def finishRecordedZeroRaw (C : Callees σ) (status : CP2UpdateTerminalStatus)
    (subreason : CP2UpdateTerminalSubreason) : Update σ Unit := do
  modifyEvent fun event =>
    captureDuration C { event with terminalStatus := status, terminalSubreason := subreason }
  let s ← get
  if !s.event.timingEndpointValid then
    latchTraceFatal .kArithmeticInvariant "CP2 noncommit duration is not representable"
  else if s.event.rawSystemCount ≠ 0 then
    latchTraceFatal .kConfigurationInvariant "CP2 zero-raw finalizer received a raw system"
  else do
    modifyRecord fun record => { record with
      statePhaseCount := 0
      onlineMathEvidencePassed := status != .kInternalFailure
      update := s.event }
    publishRecord C

end Bravo.Updater
