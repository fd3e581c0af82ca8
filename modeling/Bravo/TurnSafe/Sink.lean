import Bravo.Basic.Binary64
import Bravo.Basic.Fault

/-! # The TurnSafe diagnostics sink

`TurnSafeDiagnostics` writes a header line and one line for each camera callback to a temporary file, which its
`Finalize` renames to the output. Every system call may fail and everything that allocates or has an injected fault
may throw; both are entries of a script. No method throws: a failure disables the sink. What is only serialized
(frames, updates, intervals, the fields of a line) is data.
-/

namespace Bravo.TurnSafe

/-! ## Records -/

/-- `TurnSafeCaptureDisableReason` without `kNone`, which is the absence of a reason. -/
inductive DisableReason
  | unsupportedSchemaVersion
  | provenanceConflict
  | outputOpenFailed
  | outputFdopenFailed
  | outputWriteFailed
  | outputRecordFlushFailed
  | outputFinalFlushOrFsyncFailed
  | outputCloseFailed
  | outputAtomicRenameFailed
  | outputDirectoryFsyncFailed
  | nestedCallbackEnvelope
  | multipleUpdaterRecords
  | unterminatedCallbackEnvelope
  | injectedWriteFailure
  | diagnosticBadAlloc
  | diagnosticStdException
  | diagnosticUnknownException
  | frontendCaptureFailure
  | updaterCaptureFailure
  | eventExtensionRequiresPassiveCapture
deriving DecidableEq, Repr

inductive Exn
  | badAlloc
  | stdException
  | unknown
deriving DecidableEq, Repr

/-- `TrackKLTFrameDiagnostics` -/
structure FrontendRecord (Data : Type) where
  cameraId : Nat
  data : Data

/-- `TurnSafeUpdateRecord` -/
structure UpdateRecord (Data : Type) where
  callbackTimestamp : Binary64 := Binary64.nan
  baselineAcceptedIds : List Nat := []
  baselineCommitOccurred : Bool := false
  data : Option Data := none

structure OutcomeAssociationKeys where
  initializedBeforeAvailable : Bool := false
  initializedBefore : Bool := false
  initializedAfterAvailable : Bool := false
  initializedAfter : Bool := false
  stateTimestampBeforeAvailable : Bool := false
  stateTimestampBeforeReason : String := "STATE_NOT_EXPOSED"
  stateTimestampBefore : Binary64 := Binary64.nan
  stateTimestampAfterAvailable : Bool := false
  stateTimestampAfterReason : String := "STATE_NOT_EXPOSED"
  stateTimestampAfter : Binary64 := Binary64.nan
  expectedOutputTimestampAvailable : Bool := false
  expectedOutputTimestampReason : String := "EXPECTED_OUTPUT_TIMESTAMP_UNAVAILABLE"
  expectedOutputTimestamp : Binary64 := Binary64.nan
  estimatorValidBeforeAvailable : Bool := false
  estimatorValidBefore : Bool := false
  estimatorValidAfterAvailable : Bool := false
  estimatorValidAfter : Bool := false
  nonfiniteObservedAvailable : Bool := false
  nonfiniteObservedReason : String := "STATE_NOT_EXPOSED"
  nonfiniteObserved : Bool := false
  callbackIncomplete : Bool := false
  callbackCompletionReason : String := "NORMAL_SCOPE_EXIT"

inductive DurationReason
  | none
  | noPriorAcceptedFullUpdate
  | timestampNonfinite
  | timestampRegression
  | updaterTimestampMismatch
deriving DecidableEq, Repr

structure CallbackRecord (Data : Type) where
  callbackIndex : Nat := 0
  timestamp : Binary64 := ⟨0⟩
  frontend : List (FrontendRecord Data) := []
  updateAvailable : Bool := false
  update : UpdateRecord Data := {}
  eventExtensionAvailable : Bool := false
  initializedBeforeAvailable : Bool := false
  initializedBefore : Bool := false
  causalImuInterval : Option Data := none
  outcomeAssociationKeys : OutcomeAssociationKeys := {}
  noFullVisualUpdateDurationAvailable : Bool := false
  noFullVisualUpdateDuration : Binary64 := ⟨0⟩
  noFullVisualUpdateDurationReason : DurationReason := .noPriorAcceptedFullUpdate

/-! ## Arguments and callees -/

/-- `State`, as far as it is read. -/
structure State where
  timestamp : Binary64
  /-- Whether the values of `_imu` are finite, and its gyroscope bias. -/
  imu : Option (Bool × (Binary64 × Binary64 × Binary64))
  calibDtCamToImu : Option Binary64

/-- `TurnSafeImuSupportSnapshot` -/
structure ImuSupport (Data : Type) where
  available : Bool := false
  reason : String := "NOT_CAPTURED"
  samples : List Data := []

/-- The arguments of `BeginCallbackImpl` after the timestamp. -/
structure BeginArguments (Data : Type) where
  cameraFrameIds : Option (List Int) := none
  estimatorInitialized : Bool := false
  outputReady : Bool := false
  state : Option State := none
  /-- `turnsafe_copy_imu_support` of the propagator. -/
  propagator : Option (Binary64 → Binary64 → Except Exn (ImuSupport Data)) := none

/-- The arguments of `EndCallbackImpl`. -/
structure EndArguments where
  initializedAvailable : Bool := false
  estimatorInitialized : Bool := false
  outputReady : Bool := false
  state : Option State := none
  callbackIncomplete : Bool := false

/-- The arguments of `EvaluateCausalImuInterval`. -/
structure IntervalArguments (Data : Type) where
  intervalId : Nat
  cameraFrameIds : List Int
  previousTimestampAvailable : Bool
  previousTimestamp : Binary64
  currentTimestamp : Binary64
  forceInitializationBoundary : Bool
  imuTimeOffsetAvailable : Bool
  imuTimeOffset : Binary64
  gyroBiasAvailable : Bool
  gyroBias : Binary64 × Binary64 × Binary64
  support : ImuSupport Data

structure Line where
  text : List Char
  unbroken : '\n' ∉ text

structure Options where
  captureCausalImuIntervals : Bool := false
  captureOutcomeAssociationKeys : Bool := false
  captureGroupBearingProvenance : Bool := false
  outputPath : String
  schemaVersion : String := "turnsafe.t0.v1"
  eventExtensionSchemaVersion : String := "turnsafe.t0.event_extension.v1"
  provenanceConflict : Bool := false
  testFailAfterCallbackRecords : Nat := 2 ^ 64 - 1

structure Callees (Data : Type) where
  serializeHeader : Options → Except Exn Line
  /-- `SerializeCallback` behind the callback index. Every string in it goes through `quote`. -/
  serializeFields : Options → CallbackRecord Data → Except Exn Line
  evaluateCausalImuInterval : IntervalArguments Data → Except Exn Data

/-! ## State -/

inductive Entry
  | absent
  | other
  | written (text : List Char)
deriving DecidableEq

/-- `TurnSafeDiagnostics`. An availability flag is `Option` where the flag is never cleared. -/
structure Sink (Data : Type) where
  active : Bool := false
  finalized : Bool := false
  failureReason : Option DisableReason := none
  failureCount : Nat := 0
  temporaryPath : String := ""
  /-- `stream_ != nullptr` -/
  stream : Bool := false
  nextCallbackIndex : Nat := 0
  callbacksWritten : Nat := 0
  currentAvailable : Bool := false
  current : CallbackRecord Data := {}
  lastFullVisualTimestamp : Option Binary64 := none
  lastCameraTimestamp : Option Binary64 := none
  previousProcessedCallbackAvailable : Bool := false
  previousProcessedCallbackTimestamp : Binary64 := ⟨0⟩
  previousInitializedAfter : Option Bool := none
  nextCallbackInitializationBoundary : Bool := false

/-- The sink and the two names. The records whose line was written are not in the code. -/
structure Site (Data : Type) extends Sink Data where
  temporary : Entry
  output : Entry
  descriptor : Bool := false
  /-- The local of `Finalize`. -/
  renamed : Bool := false
  reported : List (CallbackRecord Data) := []

/-- Before `Initialize`, with other files at the two names or none. -/
def Site.start {Data : Type} (temporary output : Bool) : Site Data where
  temporary := if temporary then .other else .absent
  output := if output then .other else .absent

section Methods

variable {Data : Type}

abbrev Method (Data α : Type) := Faulty Exn (Site Data) α

/-! ## Failures -/

/-- Something that may throw: `inject_diagnostic_fault`, or an allocation. -/
def inject : Method Data Unit := operate id

def call (effect : Site Data → Site Data) : Method Data Bool := do
  match ← attempt (operate id) with
  | .ok _ => do
    update effect
    return true
  | .error _ => return false

/-- `Disable`. The count saturates. -/
def Site.disable (s : Site Data) (reason : DisableReason) : Site Data :=
  { s with
    active := false
    failureReason := some (s.failureReason.getD reason)
    failureCount := min (s.failureCount + 1) (2 ^ 64 - 1) }

def disable (reason : DisableReason) : Method Data Unit := update (·.disable reason)

def Exn.reason : Exn → DisableReason
  | .badAlloc => .diagnosticBadAlloc
  | .stdException => .diagnosticStdException
  | .unknown => .diagnosticUnknownException

/-- A body whose exceptions end in `DisableForCurrentException`. -/
def guarded (body : Method Data Unit) : Method Data Unit := do
  match ← attempt body with
  | .ok _ => return ⟨⟩
  | .error e => disable e.reason

/-! ## Writing -/

variable (C : Callees Data) (o : Options)

def Site.push (s : Site Data) (c : Char) : Site Data :=
  match s.temporary with
  | .written text => { s with temporary := .written (text ++ [c]) }
  | _ => s

/-- `fwrite`, which may fail after any character. -/
def fwrite : List Char → Method Data Bool
  | [] => return true
  | c :: cs => do
    if ← call (·.push c) then fwrite cs else return false

/-- `WriteLine`, with the record of the line. -/
def writeLine (line : Line) (record : Option (CallbackRecord Data)) : Method Data Bool := do
  let written ← attempt do
    let m ← get
    if !m.state.active || !m.state.stream then return false
    else if o.testFailAfterCallbackRecords ≤ m.state.callbacksWritten then do
      disable .injectedWriteFailure
      return false
    else do
      inject
      if !(← fwrite (line.text ++ ['\n'])) then do
        disable .outputWriteFailed
        return false
      else do
        inject
        if !(← call id) then do
          disable .outputRecordFlushFailed
          return false
        else do
          update fun s => { s with reported := s.reported ++ record.toList }
          return true
  match written with
  | .ok b => return b
  | .error e => do
    disable e.reason
    return false

def eventExtensionRequested : Bool :=
  o.captureCausalImuIntervals || o.captureOutcomeAssociationKeys || o.captureGroupBearingProvenance

/-- The handlers of `Initialize`, which close the descriptor as well. -/
def closeDescriptor : Method Data Unit := update fun s => { s with descriptor := false }

def initializeBody : Method Data Bool := do
  if o.schemaVersion ≠ "turnsafe.t0.v1" then do
    disable .unsupportedSchemaVersion
    return false
  else if eventExtensionRequested o && o.eventExtensionSchemaVersion ≠ "turnsafe.t0.event_extension.v1" then do
    disable .unsupportedSchemaVersion
    return false
  else if o.provenanceConflict then do
    disable .provenanceConflict
    return false
  else do
    inject
    update fun s => { s with temporaryPath := o.outputPath ++ ".tmp" }
    inject
    if !(← call fun s => { s with temporary := .written [], descriptor := true }) then do
      disable .outputOpenFailed
      return false
    else do
      inject
      if !(← call fun s => { s with stream := true }) then do
        closeDescriptor
        disable .outputFdopenFailed
        return false
      else do
        update fun s => { s with descriptor := false, active := true }
        inject
        let header ← liftExcept (C.serializeHeader o)
        writeLine o header none

/-- `Initialize` -/
def initializeSink : Method Data Bool := do
  match ← attempt (initializeBody C o) with
  | .ok b => return b
  | .error e => do
    closeDescriptor
    disable e.reason
    return false

/-! ## Callbacks -/

def sameTimestamp (left right : Binary64) : Bool := left.bits == right.bits

def add (x y : Binary64) : Binary64 := x - y.negate

def finiteImu (s : State) : Bool := (s.imu.map Prod.fst).getD false

/-- The lines of `BeginCallbackImpl` under the first lock. -/
def Site.begin (s : Site Data) (timestamp : Binary64) (a : BeginArguments Data) : Site Data :=
  let current : CallbackRecord Data :=
    { callbackIndex := s.nextCallbackIndex
      timestamp := timestamp
      eventExtensionAvailable := eventExtensionRequested o
      initializedBeforeAvailable := a.cameraFrameIds.isSome
      initializedBefore := a.estimatorInitialized
      outcomeAssociationKeys :=
        if o.captureOutcomeAssociationKeys then
          { initializedBeforeAvailable := true, initializedBefore := a.estimatorInitialized }
        else {} }
  { s with
    nextCallbackIndex := s.nextCallbackIndex + 1
    current := current
    currentAvailable := true
    nextCallbackInitializationBoundary := false }

def metadataBefore (a : BeginArguments Data) (state : State) : OutcomeAssociationKeys where
  initializedBeforeAvailable := true
  initializedBefore := a.estimatorInitialized
  stateTimestampBeforeAvailable := state.timestamp.isFinite
  stateTimestampBeforeReason := if state.timestamp.isFinite then "NONE" else "STATE_TIMESTAMP_NONFINITE"
  stateTimestampBefore := state.timestamp
  estimatorValidBeforeAvailable := state.imu.isSome
  estimatorValidBefore := a.outputReady && finiteImu state && state.timestamp.isFinite

/-- The support of the interval behind the previous callback, and the reason where there is none. -/
def imuSupport (s : Site Data) (timestamp : Binary64) (a : BeginArguments Data) : Method Data (ImuSupport Data) :=
  let offset := (a.state.bind (·.calibDtCamToImu)).getD Binary64.nan
  if !s.previousProcessedCallbackAvailable then return { reason := "FIRST_CALLBACK" }
  else if s.nextCallbackInitializationBoundary then return { reason := "FIRST_CALLBACK_AFTER_INITIALIZATION" }
  else
    match a.propagator with
    | none => return { reason := "IMU_BUFFER_NOT_EXPOSED" }
    | some propagator =>
      if (a.state.bind (·.calibDtCamToImu)).isSome && offset.isFinite &&
          s.previousProcessedCallbackTimestamp.isFinite && timestamp.isFinite &&
          decide (s.previousProcessedCallbackTimestamp < timestamp) then do
        inject
        liftExcept (propagator (add s.previousProcessedCallbackTimestamp offset) (add timestamp offset))
      else return { reason := "INTERVAL_PREREQUISITE_UNAVAILABLE" }

def store (index : Nat) (f : CallbackRecord Data → CallbackRecord Data) : Method Data Unit :=
  update fun s =>
    if s.active && s.currentAvailable && s.current.callbackIndex == index then { s with current := f s.current }
    else s

/-- The interval since the previous callback, from the sink `s` before this one. -/
def captureInterval (s : Site Data) (timestamp : Binary64) (a : BeginArguments Data) : Method Data Unit := do
  let support ← imuSupport s timestamp a
  inject
  let interval ← liftExcept (C.evaluateCausalImuInterval
    { intervalId := s.nextCallbackIndex
      cameraFrameIds := a.cameraFrameIds.getD []
      previousTimestampAvailable := s.previousProcessedCallbackAvailable
      previousTimestamp := s.previousProcessedCallbackTimestamp
      currentTimestamp := timestamp
      forceInitializationBoundary := s.nextCallbackInitializationBoundary
      imuTimeOffsetAvailable := (a.state.bind (·.calibDtCamToImu)).isSome
      imuTimeOffset := (a.state.bind (·.calibDtCamToImu)).getD Binary64.nan
      gyroBiasAvailable := (a.state.bind (·.imu)).isSome
      gyroBias := ((a.state.bind (·.imu)).map Prod.snd).getD (⟨0⟩, ⟨0⟩, ⟨0⟩)
      support := support })
  store s.nextCallbackIndex fun record => { record with causalImuInterval := some interval }

/-- `BeginCallbackImpl` -/
def beginCallback (timestamp : Binary64) (a : BeginArguments Data) : Method Data Unit :=
  guarded do
    let m ← get
    if !m.state.active then return ⟨⟩
    else if m.state.currentAvailable then disable .nestedCallbackEnvelope
    else do
      inject
      update (·.begin o timestamp a)
      onlyIf o.captureOutcomeAssociationKeys (onSome a.state fun state => do
        inject
        store m.state.nextCallbackIndex fun record =>
          { record with outcomeAssociationKeys := metadataBefore a state })
      onlyIf o.captureCausalImuIntervals (captureInterval C m.state timestamp a)

def recordFrontend (record : FrontendRecord Data) : Method Data Unit :=
  guarded do
    inject
    let m ← get
    if !m.state.active || !m.state.currentAvailable then return ⟨⟩
    else do
      inject
      update fun s => { s with current := { s.current with frontend := s.current.frontend ++ [record] } }

def recordUpdate (record : UpdateRecord Data) : Method Data Unit :=
  guarded do
    inject
    let m ← get
    if !m.state.active || !m.state.currentAvailable then return ⟨⟩
    else if m.state.current.updateAvailable then disable .multipleUpdaterRecords
    else update fun s => { s with current := { s.current with update := record, updateAvailable := true } }

variable (a : EndArguments)

/-- Why there is no expected output timestamp, `NONE` where there is one, and the timestamp. -/
def expectedOutputTimestamp (state : State) (valid : Bool) (callbackTimestamp : Binary64) :
    String × Binary64 :=
  if !a.initializedAvailable || !a.estimatorInitialized then ("ESTIMATOR_NOT_INITIALIZED", Binary64.nan)
  else if !a.outputReady then ("OUTPUT_NOT_READY", Binary64.nan)
  else if a.callbackIncomplete then ("CALLBACK_INCOMPLETE", Binary64.nan)
  else if !valid then ("ESTIMATOR_STATE_INVALID", Binary64.nan)
  else if !sameTimestamp state.timestamp callbackTimestamp then
    ("STATE_TIMESTAMP_NOT_CURRENT_CALLBACK", Binary64.nan)
  else
    match state.calibDtCamToImu with
    | none => ("IMU_TIME_OFFSET_UNAVAILABLE", Binary64.nan)
    | some offset =>
      if !offset.isFinite then ("IMU_TIME_OFFSET_NONFINITE", Binary64.nan)
      else if (add state.timestamp offset).isFinite then ("NONE", add state.timestamp offset)
      else ("EXPECTED_OUTPUT_TIMESTAMP_NONFINITE", add state.timestamp offset)

def metadataAfter (callbackTimestamp : Binary64) (keys : OutcomeAssociationKeys) :
    OutcomeAssociationKeys :=
  let keys : OutcomeAssociationKeys :=
    { keys with
      initializedAfterAvailable := a.initializedAvailable
      initializedAfter := a.estimatorInitialized
      callbackIncomplete := a.callbackIncomplete
      callbackCompletionReason := if a.callbackIncomplete then "EXCEPTION_SCOPE_EXIT" else "NORMAL_SCOPE_EXIT"
      stateTimestampAfterAvailable := false
      stateTimestampAfterReason := "STATE_NOT_EXPOSED"
      stateTimestampAfter := Binary64.nan
      expectedOutputTimestampAvailable := false
      expectedOutputTimestampReason := "EXPECTED_OUTPUT_TIMESTAMP_UNAVAILABLE"
      expectedOutputTimestamp := Binary64.nan
      estimatorValidAfterAvailable := false
      estimatorValidAfter := false
      nonfiniteObservedAvailable := false
      nonfiniteObservedReason := "STATE_NOT_EXPOSED"
      nonfiniteObserved := false }
  match a.state with
  | none => keys
  | some state =>
    let valid := a.outputReady && finiteImu state && state.timestamp.isFinite
    let expected := expectedOutputTimestamp a state valid callbackTimestamp
    { keys with
      stateTimestampAfterAvailable := state.timestamp.isFinite
      stateTimestampAfterReason := if state.timestamp.isFinite then "NONE" else "STATE_TIMESTAMP_NONFINITE"
      stateTimestampAfter := state.timestamp
      estimatorValidAfterAvailable := state.imu.isSome
      estimatorValidAfter := valid
      nonfiniteObservedAvailable := state.imu.isSome
      nonfiniteObservedReason := if state.imu.isSome then "NONE" else "NOMINAL_IMU_NOT_EXPOSED"
      nonfiniteObserved := !state.timestamp.isFinite || (state.imu.map fun imu => !imu.1).getD false
      expectedOutputTimestampAvailable := expected.1 == "NONE"
      expectedOutputTimestampReason := expected.1
      expectedOutputTimestamp := expected.2 }

def CallbackRecord.accepted (r : CallbackRecord Data) : Bool :=
  r.updateAvailable && r.update.baselineCommitOccurred && !r.update.baselineAcceptedIds.isEmpty

def CallbackRecord.updaterTimestampMatches (r : CallbackRecord Data) : Bool :=
  !r.updateAvailable || sameTimestamp r.timestamp r.update.callbackTimestamp

/-- A timestamp is behind the last one of a camera. -/
def Site.regresses (s : Site Data) (timestamp : Binary64) : Bool :=
  match s.lastCameraTimestamp with
  | some last => timestamp < last
  | none => false

def Site.measure (s : Site Data) : Site Data :=
  let r := s.current
  if !r.updaterTimestampMatches then
    { s with current := { r with noFullVisualUpdateDurationReason := .updaterTimestampMismatch } }
  else if !r.timestamp.isFinite then
    { s with current := { r with noFullVisualUpdateDurationReason := .timestampNonfinite } }
  else if s.regresses r.timestamp then
    { s with current := { r with noFullVisualUpdateDurationReason := .timestampRegression } }
  else if r.accepted then
    { s with
      current := { r with
        noFullVisualUpdateDurationAvailable := true
        noFullVisualUpdateDuration := ⟨0⟩
        noFullVisualUpdateDurationReason := .none }
      lastFullVisualTimestamp := some r.timestamp }
  else
    match s.lastFullVisualTimestamp with
    | some last =>
      { s with
        current := { r with
          noFullVisualUpdateDurationAvailable := true
          noFullVisualUpdateDuration := r.timestamp - last
          noFullVisualUpdateDurationReason := .none } }
    | none => s

/-! What the sink remembers of the current callback for the next ones. -/

def Site.follows (s : Site Data) (timestamp : Binary64) : Bool :=
  match s.lastCameraTimestamp with
  | some last => last ≤ timestamp
  | none => true

def Site.rememberCamera (s : Site Data) : Site Data :=
  let r := s.current
  { s with
    lastCameraTimestamp :=
      if r.updaterTimestampMatches && r.timestamp.isFinite && s.follows r.timestamp then some r.timestamp
      else s.lastCameraTimestamp }

def Site.rememberProcessed (s : Site Data) : Site Data :=
  let timestamp := s.current.timestamp
  let later := timestamp.isFinite && (!s.previousProcessedCallbackAvailable ||
    decide (s.previousProcessedCallbackTimestamp < timestamp))
  { s with
    previousProcessedCallbackAvailable := later
    previousProcessedCallbackTimestamp := if later then timestamp else s.previousProcessedCallbackTimestamp }

def Site.rememberInitialized (s : Site Data) (a : EndArguments) : Site Data :=
  let r := s.current
  let initialized := a.estimatorInitialized &&
    (r.initializedBeforeAvailable && !r.initializedBefore || s.previousInitializedAfter == some false)
  { s with
    nextCallbackInitializationBoundary :=
      s.nextCallbackInitializationBoundary || a.initializedAvailable && initialized
    previousInitializedAfter :=
      if a.initializedAvailable then some a.estimatorInitialized else s.previousInitializedAfter }

def Site.remember (s : Site Data) (a : EndArguments) : Site Data :=
  s.rememberCamera.rememberProcessed.rememberInitialized a

def Site.sortFrontend (s : Site Data) : Site Data :=
  { s with current := { s.current with
    frontend := s.current.frontend.mergeSort fun left right => !decide (right.cameraId < left.cameraId) } }

def callbackHead : List Char := "\x7b\"schema\":\"turnsafe.t0.v1\",\"record_type\":\"callback\",\"callback_index\":".toList

theorem callbackHead_unbroken : '\n' ∉ callbackHead := by decide

def callbackLine (index : Nat) (fields : Line) : Line where
  text := callbackHead ++ Nat.toDigits 10 index ++ fields.text
  unbroken := by
    intro hmem
    rcases List.mem_append.mp hmem with hmem | hmem
    · rcases List.mem_append.mp hmem with hmem | hmem
      · exact callbackHead_unbroken hmem
      · exact absurd (Nat.isDigit_of_mem_toDigits (by decide) (by decide) hmem) (by decide)
    · exact fields.unbroken hmem

def serializeCallback (record : CallbackRecord Data) : Except Exn Line :=
  match C.serializeFields o record with
  | .ok fields => .ok (callbackLine record.callbackIndex fields)
  | .error e => .error e

def captureAfter : Method Data Unit :=
  onlyIf o.captureOutcomeAssociationKeys do
    inject
    update fun s =>
      { s with current := { s.current with
        outcomeAssociationKeys := metadataAfter a s.current.timestamp s.current.outcomeAssociationKeys } }

def writeRecord : Method Data Unit := do
  inject
  let m ← get
  let line ← liftExcept (serializeCallback C o m.state.current)
  let written ← writeLine o line (some m.state.current)
  onlyIf written (update fun s => { s with callbacksWritten := s.callbacksWritten + 1 })
  inject
  update fun s => { s with current := {}, currentAvailable := false }

/-- The part of `EndCallbackImpl` under the second lock. -/
def writeCallback : Method Data Unit := do
  inject
  update Site.sortFrontend
  update Site.measure
  update (·.remember a)
  writeRecord C o

/-- `EndCallbackImpl` -/
def endCallback : Method Data Unit :=
  guarded do
    let m ← get
    if !m.state.active || !m.state.currentAvailable then return ⟨⟩
    else do
      captureAfter o a
      writeCallback C o a

def reportComponentFailure (reason : Option DisableReason) : Method Data Unit :=
  disable <| match reason with
    | some .frontendCaptureFailure => .frontendCaptureFailure
    | some .updaterCaptureFailure => .updaterCaptureFailure
    | _ => .diagnosticUnknownException

/-! ## Finalize -/

/-- `unlink` of the name that the file of this run has, or would have. -/
def Site.unlink (s : Site Data) : Site Data :=
  if s.renamed then { s with output := .absent }
  else if s.temporaryPath ≠ "" then { s with temporary := .absent }
  else s

def Site.rename (s : Site Data) : Site Data :=
  { s with output := s.temporary, temporary := .absent, renamed := true }

/-- The flush and the sync in front of the close, with the handler of what they throw. -/
def finalFlush : Method Data Bool := do
  let flushed ← attempt do
    inject
    if !(← call id) then do
      disable .outputFinalFlushOrFsyncFailed
      return false
    else if !(← call id) then do
      disable .outputFinalFlushOrFsyncFailed
      return false
    else return true
  match flushed with
  | .ok b => return b
  | .error e => do
    disable e.reason
    return false

def fclose : Method Data Bool := do
  let closed ← call id
  update fun s => { s with stream := false }
  return closed

/-- The next part of `Finalize`, which fails where the part before it did. -/
def onSuccess (success : Bool) (x : Method Data Bool) : Method Data Bool := if success then x else return false

def closeStream (success : Bool) : Method Data Bool := do
  let flushed ← onSuccess success finalFlush
  inject
  if ← fclose then return flushed
  else do
    disable .outputCloseFailed
    return false

def publish : Method Data Bool := do
  inject
  if ← call Site.rename then return true
  else do
    disable .outputAtomicRenameFailed
    return false

def syncDirectory : Method Data Bool := do
  inject
  let opened ← call id
  let synced ← onSuccess opened (call id)
  onlyIf (!synced) (disable .outputDirectoryFsyncFailed)
  return synced

/-- The part of `Finalize` behind the close of the stream. -/
def conclude (closed : Bool) : Method Data Bool := do
  let published ← onSuccess closed publish
  let success ← onSuccess published syncDirectory
  onlyIf (!success) (update Site.unlink)
  update fun s => { s with active := success }
  return success

def Site.finish (s : Site Data) : Site Data :=
  let s : Site Data := { s with finalized := true, renamed := false }
  if s.currentAvailable && s.active then s.disable .unterminatedCallbackEnvelope else s

def finalizeBody : Method Data Bool := do
  update Site.finish
  let m ← get
  let closed ← onSuccess m.state.stream (closeStream m.state.active)
  conclude closed

def finalize : Method Data Bool := do
  let m ← get
  if m.state.finalized then return m.state.active && m.state.failureReason.isNone
  else
    match ← attempt finalizeBody with
    | .ok b => return b
    | .error e => do
      let m ← get
      onlyIf m.state.stream do
        let _ ← fclose
        return ⟨⟩
      update Site.unlink
      disable e.reason
      return false

/-! ## Runs -/

/-- A call of a method behind `Initialize`. -/
inductive Call (Data : Type)
  | beginCallback (timestamp : Binary64) (arguments : BeginArguments Data)
  | recordFrontend (record : FrontendRecord Data)
  | recordUpdate (record : UpdateRecord Data)
  | endCallback (arguments : EndArguments)
  | reportComponentFailure (reason : Option DisableReason)
  | finalize

def perform : Call Data → Method Data Unit
  | .beginCallback timestamp a => beginCallback C o timestamp a
  | .recordFrontend record => recordFrontend record
  | .recordUpdate record => recordUpdate record
  | .endCallback a => endCallback C o a
  | .reportComponentFailure reason => reportComponentFailure reason
  | .finalize => do
    let _ ← finalize
    return ⟨⟩

/-- `Initialize` on two names, with a script of failures. -/
def initialized (temporary output : Bool) (script : List (Option (Raise Exn))) : Machine Exn (Site Data) :=
  finalState ((initializeSink C o).run ⟨Site.start temporary output, script⟩)

def performed (m : Machine Exn (Site Data)) (calls : List (Call Data)) : Machine Exn (Site Data) :=
  calls.foldl (fun m call => finalState ((perform C o call).run m)) m

end Methods

end Bravo.TurnSafe
