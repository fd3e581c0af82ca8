import Bravo.Basic.Exec
import Bravo.Journal.Record

/-! # The serial runtime trace

`CP2SerialRuntimeTrace` joins the selected stereo pairs with the callbacks, the updates and the
trajectory of one run. Every entry point either makes its note or rejects, with a message of which
the first one stays. The model is by text: a row of a file is a list of named fields, and the text of
a binary64 value and the outcome of a write are given from outside.
-/

namespace Bravo.Serial

open Bravo.Trace Bravo.Journal

/-! ## Names -/

/-- `cp2_update_terminal_status_name` -/
def terminalStatusName : CP2UpdateTerminalStatus → String
  | .kEmptyInput => "empty_input"
  | .kAllRejected => "all_rejected"
  | .kEmptyAfterCompression => "empty_after_compression"
  | .kPreflightRejected => "preflight_rejected"
  | .kCommittedCounted => "committed_counted"
  | .kInternalFailure => "internal_failure"

/-- `cp2_update_terminal_subreason_name` -/
def terminalSubreasonName : CP2UpdateTerminalSubreason → String
  | .kInputEmpty => "input_empty"
  | .kNoFeaturesAfterCleaning => "no_features_after_cleaning"
  | .kNoFeaturesAfterTriangulation => "no_features_after_triangulation"
  | .kNoRawSystems => "no_raw_systems"
  | .kAllBaselineFeaturesRejected => "all_baseline_features_rejected"
  | .kMeasurementCompressionEmpty => "measurement_compression_empty"
  | .kBaselinePreflightRejected => "baseline_preflight_rejected"
  | .kInvalidLiveMode => "invalid_live_mode"
  | .kSnapshotMismatch => "snapshot_mismatch"
  | .kTraceInvariantFailure => "trace_invariant_failure"
  | .kNone => "none"

inductive CP2SerialRuntimeEnqueueStatus
  | kQueued
  | kFrequencyDropped
  | kCam0DecodeFailed
  | kCam1DecodeFailed
  | kProcessTerminated
  | kTraceFailure
deriving DecidableEq, Repr

/-- `cp2_serial_runtime_enqueue_status_name` -/
def enqueueStatusName : CP2SerialRuntimeEnqueueStatus → String
  | .kQueued => "queued"
  | .kFrequencyDropped => "frequency_dropped"
  | .kCam0DecodeFailed => "cam0_decode_failed"
  | .kCam1DecodeFailed => "cam1_decode_failed"
  | .kProcessTerminated => "process_terminated"
  | .kTraceFailure => "trace_failure"

theorem enqueueStatusName_eq_queued {status : CP2SerialRuntimeEnqueueStatus}
    (h : enqueueStatusName status = "queued") : status = .kQueued := by
  cases status
  · rfl
  all_goals exact absurd h (by decide)

/-! ## The lifecycle of an event -/

variable (event : CP2LiveUpdateEvent)

def terminalPairValid : Bool :=
  match event.terminalStatus with
  | .kEmptyInput => event.terminalSubreason == .kInputEmpty
  | .kAllRejected =>
    if event.rawSystemCount = 0 then
      event.terminalSubreason == .kNoFeaturesAfterCleaning ||
        event.terminalSubreason == .kNoFeaturesAfterTriangulation ||
        event.terminalSubreason == .kNoRawSystems
    else event.terminalSubreason == .kAllBaselineFeaturesRejected
  | .kEmptyAfterCompression => event.terminalSubreason == .kMeasurementCompressionEmpty
  | .kPreflightRejected => event.terminalSubreason == .kBaselinePreflightRejected
  | .kCommittedCounted => event.terminalSubreason == .kNone
  | .kInternalFailure => false

/-- The terminal status that the flags of an event amount to. -/
def reconstructedStatus : CP2UpdateTerminalStatus :=
  if event.inputFeatureCount = 0 then .kEmptyInput
  else if !event.baselinePrecompressionSystemNonempty then .kAllRejected
  else if !event.baselineCompressedSystemNonempty then .kEmptyAfterCompression
  else if !event.baselinePreflightAccepted then .kPreflightRejected
  else .kCommittedCounted

def timingLifecycleValid : Bool :=
  let committed := event.terminalStatus == .kCommittedCounted
  event.timingEndpointValid && decide (event.timingStartNs ≤ event.timingEndNs) &&
    event.durationNs == event.timingEndNs - event.timingStartNs &&
    terminalPairValid event && event.terminalStatus == reconstructedStatus event &&
    decide (event.rawSystemCount ≤ event.inputFeatureCount) &&
    event.baselinePrecompressionRowsAvailable == (event.rawSystemCount != 0) &&
    (event.baselinePrecompressionRowsAvailable || event.baselinePrecompressionRows == 0) &&
    event.baselinePrecompressionSystemNonempty ==
      (event.baselinePrecompressionRowsAvailable && event.baselinePrecompressionRows != 0) &&
    event.baselineCompressedRowsAvailable == event.baselinePrecompressionSystemNonempty &&
    (event.baselineCompressedRowsAvailable || event.baselineCompressedRows == 0) &&
    event.baselineCompressedSystemNonempty ==
      (event.baselineCompressedRowsAvailable && event.baselineCompressedRows != 0) &&
    (!event.baselineCompressedRowsAvailable ||
      decide (event.baselineCompressedRows ≤ event.baselinePrecompressionRows)) &&
    event.baselinePreflightAttempted == event.baselineCompressedSystemNonempty &&
    event.baselinePreflightAccepted == committed && event.baselineCommitOccurred == committed

/-! ## Rows -/

structure CP2SerialPair where
  sequenceIndex : UInt64
  pairIndex : UInt64
  anchorFilteredIndex : UInt64
  anchorCameraId : UInt64
  cam0FilteredIndex : UInt64
  cam1FilteredIndex : UInt64
  cam0RecordTimeNs : UInt64
  cam1RecordTimeNs : UInt64
  cam0HeaderTimeNs : UInt64
  cam1HeaderTimeNs : UInt64
  cameraTimestampNs : UInt64
  absoluteRecordDeltaNs : UInt64
deriving DecidableEq, Repr

structure UpdateRow where
  invocationId : UInt64
  timingStartNs : UInt64
  timingEndNs : UInt64
  durationNs : UInt64
  inputFeatureCount : UInt64
  rawSystemCount : UInt64
  terminalStatus : String
  terminalSubreason : String
  nonempty : Bool
  baselinePreflightAttempted : Bool
  preflightAccepted : Bool
  committed : Bool
  primary : Bool
deriving DecidableEq, Repr

def UpdateRow.ofEvent : UpdateRow :=
  let committed := event.terminalStatus == .kCommittedCounted && event.baselineCommitOccurred
  { invocationId := event.invocationId
    timingStartNs := event.timingStartNs
    timingEndNs := event.timingEndNs
    durationNs := event.durationNs
    inputFeatureCount := event.inputFeatureCount
    rawSystemCount := event.rawSystemCount
    terminalStatus := terminalStatusName event.terminalStatus
    terminalSubreason := terminalSubreasonName event.terminalSubreason
    nonempty := event.inputFeatureCount != 0
    baselinePreflightAttempted := event.baselinePreflightAttempted
    preflightAccepted := event.baselinePreflightAccepted
    committed := committed
    primary := event.inputFeatureCount != 0 && event.baselinePreflightAccepted && committed }

structure Pose where
  position_G : List.Vector Binary64 3
  quaternion_ItoG_xyzw : List.Vector Binary64 4

/-- `finite_pose` -/
def Pose.finite (pose : Pose) : Bool :=
  pose.position_G.toList.all Binary64.isFinite && pose.quaternion_ItoG_xyzw.toList.all Binary64.isFinite

def Pose.identity : Pose :=
  ⟨⟨[⟨0⟩, ⟨0⟩, ⟨0⟩], rfl⟩, ⟨[⟨0⟩, ⟨0⟩, ⟨0⟩, ⟨0x3ff0000000000000⟩], rfl⟩⟩

structure Row where
  pair : CP2SerialPair
  enqueueNoted : Bool := false
  enqueueEntered : Bool := false
  enqueueReturned : Bool := false
  enqueueStatus : String := "not_entered"
  processingNoted : Bool := false
  processingEntered : Bool := false
  processingReturned : Bool := false
  processingStatus : String := "not_queued"
  updaterInvoked : Bool := false
  updaterInvocationIds : List UInt64 := []
  updates : List UpdateRow := []
  stateRowEmitted : Bool := false
  trajectoryIndexAvailable : Bool := false
  trajectoryIndex : UInt64 := 0
  pose : Pose := .identity

/-! ## The trace -/

inductive CP2RuntimeTraceLevel
  | kRecordedFull
  | kSequence
  | kTiming
deriving DecidableEq, Repr

structure CP2NullablePath where
  available : Bool
  value : String

/-- The part of `CP2RuntimeContext` that the trace reads. -/
structure CP2RuntimeContext where
  sequenceIndex : UInt64
  sequenceId : String
  mode : String
  traceLevel : CP2RuntimeTraceLevel
  serialTracePath : CP2NullablePath
  callbackTracePath : CP2NullablePath
  trajectoryTracePath : CP2NullablePath
  updaterTracePath : CP2NullablePath
  timingTracePath : CP2NullablePath

inductive Sink
  | serial
  | callbacks
  | trajectory
  | updater
  | timing
deriving DecidableEq, Repr

structure CP2SerialRuntimeTrace where
  context : CP2RuntimeContext
  rows : List Row := []
  nextInvocationId : UInt64 := 0
  nextTrajectoryIndex : UInt64 := 0
  failure : String := ""
  failed : Bool := false
  finalized : Bool := false
  heldCapabilityMode : Bool := false
  written : List (Sink × String) := []

variable (t : CP2SerialRuntimeTrace)

def CP2SerialRuntimeTrace.ready : Bool := !t.failed

/-- `Reject`: the first message stays. -/
def CP2SerialRuntimeTrace.reject (message : String) : CP2SerialRuntimeTrace :=
  if t.failed then t else { t with failed := true, failure := message }

/-- The body of an entry point; what it throws is the message it rejects with. -/
abbrev Note := EStateM String CP2SerialRuntimeTrace

/-- An entry point: the note is made, or it is rejected and the call returns false. -/
def attempt (x : Note Unit) (t : CP2SerialRuntimeTrace) : Bool × CP2SerialRuntimeTrace :=
  match x.run t with
  | .ok _ t => (true, t)
  | .error message t => (false, t.reject message)

/-! ## Construction -/

/-- `kStrictMaximumRecordDeltaNs` -/
def strictMaximumRecordDeltaNs : UInt64 := 20000000

variable (context : CP2RuntimeContext)

/-- The checks of `ValidateInitialPopulation` on one pair. -/
def pairValid (index : Nat) (previousAnchor : Option UInt64)
    (used : List UInt64) (pair : CP2SerialPair) : Bool :=
  let recomputedDelta :=
    if pair.cam1RecordTimeNs ≤ pair.cam0RecordTimeNs then
      pair.cam0RecordTimeNs - pair.cam1RecordTimeNs
    else pair.cam1RecordTimeNs - pair.cam0RecordTimeNs
  decide (index < 2 ^ 64) && pair.sequenceIndex == context.sequenceIndex &&
    pair.pairIndex == UInt64.ofNat index && decide (pair.anchorCameraId ≤ 1) &&
    (pair.anchorCameraId != 0 || pair.anchorFilteredIndex == pair.cam0FilteredIndex) &&
    (pair.anchorCameraId != 1 || pair.anchorFilteredIndex == pair.cam1FilteredIndex) &&
    pair.cam0FilteredIndex != pair.cam1FilteredIndex &&
    (previousAnchor.all fun anchor => decide (anchor < pair.anchorFilteredIndex)) &&
    !used.contains pair.cam0FilteredIndex && !used.contains pair.cam1FilteredIndex &&
    pair.cameraTimestampNs == pair.cam0HeaderTimeNs &&
    pair.absoluteRecordDeltaNs == recomputedDelta &&
    decide (pair.absoluteRecordDeltaNs < strictMaximumRecordDeltaNs)

/-- The loop of `ValidateInitialPopulation`. -/
def populationValid (context : CP2RuntimeContext) :
    Nat → Option UInt64 → List UInt64 → List CP2SerialPair → Bool
  | _, _, _, [] => true
  | index, previousAnchor, used, pair :: pairs =>
    pairValid context index previousAnchor used pair &&
      populationValid context (index + 1) (some pair.anchorFilteredIndex)
        (pair.cam0FilteredIndex :: pair.cam1FilteredIndex :: used) pairs

/-- The constructors. With held capabilities, these are validated first. -/
def CP2SerialRuntimeTrace.construct (heldCapabilities : Option Bool)
    (pairs : List CP2SerialPair) : CP2SerialRuntimeTrace :=
  let t : CP2SerialRuntimeTrace :=
    { context := context, heldCapabilityMode := heldCapabilities.isSome }
  if heldCapabilities = some false then
    t.reject "serial trace output capability population is invalid"
  else
    let t := { t with rows := pairs.map fun pair => { pair := pair } }
    if populationValid context 0 none [] pairs then t
    else t.reject "serial trace initial pair population is invalid"

/-! ## Notes -/

def CP2SerialRuntimeTrace.setRow (index : Nat) (row : Row) : CP2SerialRuntimeTrace :=
  { t with rows := t.rows.set index row }

def Row.enqueue (row : Row) (status : CP2SerialRuntimeEnqueueStatus) : Row :=
  { row with
    enqueueNoted := true
    enqueueEntered := true
    enqueueReturned := true
    enqueueStatus := enqueueStatusName status
    processingStatus := if status = .kQueued then "queued_unprocessed" else row.processingStatus }

def noteEnqueue (pairIndex : UInt64) (status : CP2SerialRuntimeEnqueueStatus) : Note Unit := do
  let t ← get
  if !t.ready || t.finalized then throw "serial enqueue identity is invalid"
  else
    match t.rows[pairIndex.toNat]? with
    | none => throw "serial enqueue identity is invalid"
    | some row =>
      if row.enqueueNoted then throw "serial pair was enqueued more than once"
      else modify fun t => t.setRow pairIndex.toNat (row.enqueue status)

/-- The arguments of `NoteProcessing`. -/
structure Processing where
  sequenceIndex : UInt64
  pairIndex : UInt64
  cameraTimestampNs : UInt64
  processingEntered : Bool
  processingReturned : Bool
  updaterInvoked : Bool
  stateRowEmitted : Bool
  pose : Pose
  traceFatal : Bool

/-- A row that `NoteProcessing` has been called for. -/
def Row.process (row : Row) (p : Processing) : Row :=
  { row with
    processingNoted := true
    processingEntered := p.processingEntered
    processingReturned := p.processingReturned
    updaterInvoked := p.updaterInvoked
    stateRowEmitted := p.stateRowEmitted
    processingStatus := if p.processingReturned then "processed"
      else if p.traceFatal then "trace_failure" else "process_terminated" }

def Row.emit (row : Row) (p : Processing) (trajectoryIndex : UInt64) : Row :=
  { row.process p with
    trajectoryIndexAvailable := true
    trajectoryIndex := trajectoryIndex
    pose := p.pose }

def noteProcessing (p : Processing) : Note Unit := do
  let t ← get
  if !t.ready || t.finalized || p.sequenceIndex != t.context.sequenceIndex then
    throw "serial processing identity is invalid"
  else
    match t.rows[p.pairIndex.toNat]? with
    | none => throw "serial processing identity is invalid"
    | some row =>
      if !row.enqueueNoted || row.enqueueStatus != "queued" ||
          p.cameraTimestampNs != row.pair.cameraTimestampNs || row.processingNoted ||
          !p.processingEntered || (p.stateRowEmitted && !p.processingReturned) ||
          (p.stateRowEmitted && !p.pose.finite) then
        throw "serial processing event is inconsistent"
      else do
        modify fun t => t.setRow p.pairIndex.toNat (row.process p)
        if !p.stateRowEmitted then pure ⟨⟩
        else if t.nextTrajectoryIndex.toNat + 1 = 2 ^ 64 then
          throw "trajectory index overflowed u64"
        else modify fun t => { t.setRow p.pairIndex.toNat (row.emit p t.nextTrajectoryIndex) with
          nextTrajectoryIndex := t.nextTrajectoryIndex + 1 }

/-- A row that `NoteUpdate` has been called for. -/
def Row.invoke (row : Row) (level : CP2RuntimeTraceLevel) (event : CP2LiveUpdateEvent) : Row :=
  { row with
    updaterInvocationIds := row.updaterInvocationIds ++ [event.invocationId]
    updates := if level = .kTiming then row.updates ++ [UpdateRow.ofEvent event] else row.updates }

def noteUpdate : Note Unit := do
  let t ← get
  if !t.ready || t.finalized || !event.invocationContextAvailable ||
      event.sequenceIndex != t.context.sequenceIndex ||
      decide (t.rows.length ≤ event.pairIndex.toNat) ||
      event.invocationId != t.nextInvocationId then
    throw "updater event identity is invalid or noncontiguous"
  else if decide (t.context.traceLevel = .kTiming) && !timingLifecycleValid event then
    throw "timing updater lifecycle or endpoint is invalid"
  else
    match t.rows[event.pairIndex.toNat]? with
    | none => throw "updater event identity is invalid or noncontiguous"
    | some row =>
      if !row.enqueueNoted || row.enqueueStatus != "queued" ||
          event.cameraTimestampNs != row.pair.cameraTimestampNs || !row.updates.isEmpty then
        throw "updater event does not join its queued serial pair"
      else do
        modify fun t => t.setRow event.pairIndex.toNat (row.invoke t.context.traceLevel event)
        if t.nextInvocationId.toNat + 1 = 2 ^ 64 then
          throw "updater invocation population overflowed u64"
        else modify fun t => { t with nextInvocationId := t.nextInvocationId + 1 }

/-! ## Files -/

inductive Value
  | number (n : UInt64)
  | numbers (ns : List UInt64)
  | reals (xs : List Binary64)
  | text (s : String)
  | flag (b : Bool)
  | null

def hexDigit (n : Nat) : Char := "0123456789abcdef".toList.getD n '0'

def jsonEscape (c : Char) : String :=
  if c = '"' then "\\\""
  else if c = '\\' then "\\\\"
  else if c.toNat = 8 then "\\b"
  else if c.toNat = 12 then "\\f"
  else if c = '\n' then "\\n"
  else if c = '\r' then "\\r"
  else if c = '\t' then "\\t"
  else if c.toNat < 32 then
    "\\u00" ++ (hexDigit (c.toNat / 16)).toString ++ (hexDigit (c.toNat % 16)).toString
  else c.toString

def jsonString (s : String) : String := "\"" ++ String.join (s.toList.map jsonEscape) ++ "\""

/-- What `Finalize` needs from its surroundings: the text of a binary64 value with 17 digits, and
the file system. -/
structure Surroundings where
  decimal : Binary64 → String
  write : Sink → String → String → Bool

def Value.render (decimal : Binary64 → String) : Value → String
  | .number n => toString n.toNat
  | .numbers ns => "[" ++ ",".intercalate (ns.map fun n => toString n.toNat) ++ "]"
  | .reals xs => "[" ++ ",".intercalate (xs.map decimal) ++ "]"
  | .text s => jsonString s
  | .flag b => if b then "true" else "false"
  | .null => "null"

def renderRow (decimal : Binary64 → String) (row : List (String × Value)) : String :=
  "\x7b" ++ ",".intercalate (row.map fun field =>
    "\"" ++ field.1 ++ "\":" ++ field.2.render decimal) ++ "\x7d\n"

def renderRows (decimal : Binary64 → String) (rows : List (List (String × Value))) : String :=
  String.join (rows.map (renderRow decimal))

/-- `SerializeSerial`: whole rows in a recorded run, the index of pairs elsewhere. -/
def serialRow (row : Row) : List (String × Value) :=
  let pair := row.pair
  let identity : List (String × Value) := [
    ("absolute_record_delta_ns", .number pair.absoluteRecordDeltaNs),
    ("anchor_camera_id", .number pair.anchorCameraId),
    ("anchor_filtered_index", .number pair.anchorFilteredIndex),
    ("cam0_filtered_index", .number pair.cam0FilteredIndex),
    ("cam0_header_time_ns", .number pair.cam0HeaderTimeNs),
    ("cam0_record_time_ns", .number pair.cam0RecordTimeNs),
    ("cam1_filtered_index", .number pair.cam1FilteredIndex),
    ("cam1_header_time_ns", .number pair.cam1HeaderTimeNs),
    ("cam1_record_time_ns", .number pair.cam1RecordTimeNs)]
  if context.traceLevel = .kRecordedFull then identity ++ [
    ("camera_timestamp_ns", .number pair.cameraTimestampNs),
    ("enqueue_entered", .flag row.enqueueEntered),
    ("enqueue_returned", .flag row.enqueueReturned),
    ("enqueue_status", .text row.enqueueStatus),
    ("pair_index", .number pair.pairIndex),
    ("processing_entered", .flag row.processingEntered),
    ("processing_returned", .flag row.processingReturned),
    ("processing_status", .text row.processingStatus),
    ("record_type", .text "serial_pair"),
    ("schema_version", .number 1),
    ("selected", .flag true),
    ("sequence_id", .text context.sequenceId),
    ("sequence_index", .number context.sequenceIndex),
    ("updater_invocation_ids", .numbers row.updaterInvocationIds)]
  else identity ++ [
    ("pair_index", .number pair.pairIndex),
    ("record_type", .text "pair_index"),
    ("schema_version", .number 1),
    ("sequence_id", .text context.sequenceId),
    ("sequence_index", .number context.sequenceIndex)]

/-- `SerializeCallbacks` -/
def callbackRow (index : Nat) (row : Row) : List (String × Value) :=
  let pair := row.pair
  let callback : List (String × Value) := [
    ("anchor_filtered_index", .number pair.anchorFilteredIndex),
    ("callback_index", .number (UInt64.ofNat index)),
    ("cam0_filtered_index", .number pair.cam0FilteredIndex),
    ("cam0_header_time_ns", .number pair.cam0HeaderTimeNs),
    ("cam0_record_time_ns", .number pair.cam0RecordTimeNs),
    ("cam1_filtered_index", .number pair.cam1FilteredIndex),
    ("cam1_header_time_ns", .number pair.cam1HeaderTimeNs),
    ("cam1_record_time_ns", .number pair.cam1RecordTimeNs),
    ("camera_timestamp_ns", .number pair.cameraTimestampNs),
    ("enqueue_entered", .flag row.enqueueEntered),
    ("enqueue_returned", .flag row.enqueueReturned),
    ("enqueue_status", .text row.enqueueStatus),
    ("mode", .text context.mode),
    ("pair_index", .number pair.pairIndex),
    ("processing_entered", .flag row.processingEntered),
    ("processing_returned", .flag row.processingReturned),
    ("processing_status", .text row.processingStatus),
    ("record_type", .text "serial_callback"),
    ("schema_version", .number 1),
    ("sequence_id", .text context.sequenceId),
    ("sequence_index", .number context.sequenceIndex),
    ("state_row_emitted", .flag row.stateRowEmitted),
    ("trajectory_index",
      if row.trajectoryIndexAvailable then .number row.trajectoryIndex else .null)]
  if context.traceLevel = .kTiming then callback ++ [
    ("updater_invocation_ids", .numbers row.updaterInvocationIds),
    ("updater_invoked", .flag row.updaterInvoked)]
  else callback

def trajectoryRow (index : Nat) (next : UInt64) (row : Row) : List (String × Value) := [
  ("callback_index", .number (UInt64.ofNat index)),
  ("camera_timestamp_ns", .number row.pair.cameraTimestampNs),
  ("mode", .text context.mode),
  ("pair_index", .number row.pair.pairIndex),
  ("position_G", .reals row.pose.position_G.toList),
  ("quaternion_ItoG_xyzw", .reals row.pose.quaternion_ItoG_xyzw.toList),
  ("record_type", .text "trajectory_pose"),
  ("schema_version", .number 1),
  ("sequence_id", .text context.sequenceId),
  ("sequence_index", .number context.sequenceIndex),
  ("trajectory_index", .number next)]

/-- The loop of `SerializeTrajectory`: the lines and the next index, if every check passes. -/
def trajectoryRows (context : CP2RuntimeContext) :
    Nat → UInt64 → Option UInt64 → List Row → Option (List (List (String × Value)) × UInt64)
  | _, next, _, [] => some ([], next)
  | index, next, previous, row :: rows =>
    if !row.stateRowEmitted then
      if row.trajectoryIndexAvailable then none
      else trajectoryRows context (index + 1) next previous rows
    else if !row.trajectoryIndexAvailable || row.trajectoryIndex != next || !row.pose.finite ||
        !(previous.all fun timestamp => decide (timestamp < row.pair.cameraTimestampNs)) then none
    else do
      let rest ← trajectoryRows context (index + 1) (next + 1)
        (some row.pair.cameraTimestampNs) rows
      return (trajectoryRow context index next row :: rest.1, rest.2)

def serializeTrajectory : Option (List (List (String × Value))) :=
  match trajectoryRows t.context 0 0 none t.rows with
  | none => none
  | some (lines, next) => if next ≠ t.nextTrajectoryIndex then none else some lines

/-- A line of `SerializeUpdater`. -/
def updaterRow (pair : CP2SerialPair) (update : UpdateRow) : List (String × Value) := [
  ("baseline_preflight_attempted", .flag update.baselinePreflightAttempted),
  ("camera_timestamp_ns", .number pair.cameraTimestampNs),
  ("committed", .flag update.committed),
  ("duration_ns", .number update.durationNs),
  ("input_feature_count", .number update.inputFeatureCount),
  ("invocation_id", .number update.invocationId),
  ("mode", .text context.mode),
  ("nonempty", .flag update.nonempty),
  ("pair_index", .number pair.pairIndex),
  ("preflight_accepted", .flag update.preflightAccepted),
  ("primary", .flag update.primary),
  ("raw_system_count", .number update.rawSystemCount),
  ("record_type", .text "updater_event"),
  ("schema_version", .number 1),
  ("sequence_id", .text context.sequenceId),
  ("sequence_index", .number context.sequenceIndex),
  ("terminal_status", .text update.terminalStatus),
  ("terminal_subreason", .text update.terminalSubreason),
  ("timer_clock", .text "std::chrono::steady_clock"),
  ("timer_end_ns", .number update.timingEndNs),
  ("timer_start_ns", .number update.timingStartNs)]

/-- A line of `SerializeTiming`. -/
def timingRow (pair : CP2SerialPair) (update : UpdateRow) : List (String × Value) := [
  ("cam0_record_time_ns", .number pair.cam0RecordTimeNs),
  ("camera_timestamp_ns", .number pair.cameraTimestampNs),
  ("committed", .flag update.committed),
  ("duration_ns", .number update.durationNs),
  ("invocation_id", .number update.invocationId),
  ("mode", .text context.mode),
  ("nonempty", .flag update.nonempty),
  ("preflight_accepted", .flag update.preflightAccepted),
  ("primary", .flag update.primary),
  ("record_type", .text "updater_timing"),
  ("schema_version", .number 1),
  ("sequence_id", .text context.sequenceId),
  ("sequence_index", .number context.sequenceIndex),
  ("serial_pair_index", .number pair.pairIndex),
  ("terminal_status", .text update.terminalStatus),
  ("timer_clock", .text "std::chrono::steady_clock"),
  ("timer_end_ns", .number update.timingEndNs),
  ("timer_start_ns", .number update.timingStartNs)]

def listedUpdates (rows : List Row) : List (CP2SerialPair × UpdateRow) :=
  rows.flatMap fun row => row.updates.map fun update => (row.pair, update)

/-! ## Finalization -/

/-- `WriteOutput`; the result says whether the file was written. -/
def writeOutput (e : Surroundings) (sink : Sink) (path : CP2NullablePath) (text : String) :
    Note Bool := do
  if path.available && e.write sink path.value text then do
    modify fun t => { t with written := t.written ++ [(sink, text)] }
    return true
  else return false

def processingStatusQueued (row : Row) : Bool :=
  row.processingStatus == "processed" || row.processingStatus == "queued_unprocessed" ||
    row.processingStatus == "process_terminated" || row.processingStatus == "trace_failure"

/-- The checks of `Finalize` on one row: the message of the first that fails. -/
def rowFailure (level : CP2RuntimeTraceLevel) (row : Row) : Option String :=
  if !row.enqueueNoted then some "selected serial pair was never passed to the callback"
  else if (row.enqueueStatus == "queued") != processingStatusQueued row then
    some "serial enqueue/processing transition is invalid"
  else if row.processingStatus == "processed" && !row.processingNoted then
    some "processed serial pair lacks a processing event"
  else if decide (level = .kTiming) &&
      (row.updaterInvocationIds.length != row.updates.length ||
        (!row.updates.isEmpty && !row.processingNoted)) then
    some "serial updater event population is incomplete"
  else if (List.range row.updates.length).any fun i =>
      row.updaterInvocationIds[i]? != (row.updates[i]?).map UpdateRow.invocationId then
    some "serial updater identity population is inconsistent"
  else if row.updaterInvoked != !row.updaterInvocationIds.isEmpty then
    some "serial updater-invoked flag disagrees with invocation joins"
  else none

def finalizeSequence (e : Surroundings) : Note Unit := do
  let t ← get
  let context := t.context
  let message := "sequence callback/trajectory files could not be created"
  if !context.callbackTracePath.available || !context.trajectoryTracePath.available then
    throw "sequence trace paths are unavailable"
  else
    match serializeTrajectory t with
    | none => throw message
    | some trajectory => do
      if !(← writeOutput e .callbacks context.callbackTracePath (renderRows e.decimal
          (t.rows.zipIdx.map fun entry => callbackRow context entry.2 entry.1))) then
        throw message
      else if !(← writeOutput e .trajectory context.trajectoryTracePath
          (renderRows e.decimal trajectory)) then throw message
      else pure ⟨⟩

def finalizeTiming (e : Surroundings) : Note Unit := do
  let t ← get
  let context := t.context
  let message := "timing callback/updater/sample files could not be created"
  if !context.callbackTracePath.available || !context.updaterTracePath.available ||
      !context.timingTracePath.available then throw "timing trace paths are unavailable"
  else if !(← writeOutput e .callbacks context.callbackTracePath (renderRows e.decimal
      (t.rows.zipIdx.map fun entry => callbackRow context entry.2 entry.1))) then throw message
  else if !(← writeOutput e .updater context.updaterTracePath (renderRows e.decimal
      ((listedUpdates t.rows).map fun u => updaterRow context u.1 u.2))) then throw message
  else if !(← writeOutput e .timing context.timingTracePath (renderRows e.decimal
      ((listedUpdates t.rows).map fun u => timingRow context u.1 u.2))) then throw message
  else pure ⟨⟩

def finalize (e : Surroundings) : Note Unit := do
  let t ← get
  if !t.ready || t.finalized || !t.context.serialTracePath.available then
    throw "serial trace finalization state is invalid"
  else
    match t.rows.findSome? (rowFailure t.context.traceLevel) with
    | some message => throw message
    | none => do
      if !(← writeOutput e .serial t.context.serialTracePath
          (renderRows e.decimal (t.rows.map (serialRow t.context)))) then
        throw "serial trace file could not be created"
      else do
        match t.context.traceLevel with
        | .kSequence => finalizeSequence e
        | .kTiming => finalizeTiming e
        | .kRecordedFull => pure ⟨⟩
        modify fun t => { t with finalized := true }

end Bravo.Serial
