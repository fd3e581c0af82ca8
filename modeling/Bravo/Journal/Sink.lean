import Bravo.Basic.Exec
import Bravo.Journal.Encode

/-! # The journal sink

`CP2TraceJournalSink` over an arbitrary writer: construction, `Publish` and `Finalize`. A call is
given what the writer does during it; the bytes the writer took are kept beside the sink, to be
compared with what the sink reports.
-/

namespace Bravo.Journal

open Bravo.Trace

/-! ## The writer -/

/-- What a writer asked for `size` bytes answers, and how many it took. It took what it reports,
unless it reports more than it was asked for. -/
structure WriteResponse (size : Nat) where
  success : Bool
  bytesWritten : UInt64
  taken : Nat
  taken_le : taken ≤ size
  taken_eq : bytesWritten.toNat ≤ size → taken = bytesWritten.toNat

/-- What the writer does during one call of the sink. Each attempt of one call is for fewer bytes
than the one before, so the number of bytes identifies the attempt. -/
structure Writer where
  write : (size : Nat) → WriteResponse size
  sync : UInt64 → Bool

/-- The writer's side: the bytes it took, its calls in order, each with whether it failed, and
whether it ever reported more bytes than it was asked for. -/
structure WriterLog where
  stream : List UInt8 := []
  failedCalls : List Bool := []
  overReported : Bool := false

/-! ## The sink -/

structure CP2TraceJournalSink where
  /-- `writer_` is not null. -/
  hasWriter : Bool
  maximumJournalBytes : UInt64
  recordsWritten : UInt64 := 0
  bytesWritten : UInt64 := 0
  haveIdentity : Bool := false
  sequenceIndex : UInt64 := 0
  pairIndex : UInt64 := 0
  cameraTimestampNs : UInt64 := 0
  invocationId : UInt64 := 0
  finalized : Bool := false
  failure : CP2TraceJournalFailure := .kNone

/-- The sink with its writer. -/
structure SinkState where
  sink : CP2TraceJournalSink
  log : WriterLog := {}

def SinkState.ready (s : SinkState) : Bool := s.sink.failure == .kNone

def SinkState.reject (s : SinkState) (failure : CP2TraceJournalFailure) : SinkState :=
  if s.sink.failure = .kNone then { s with sink := { s.sink with failure := failure } } else s

def WriteResponse.overReports {size : Nat} (r : WriteResponse size) : Bool :=
  decide (size < r.bytesWritten.toNat)

/-- An attempt fails if the writer says so, and also if it reports no byte or too many. -/
def WriteResponse.failed {size : Nat} (r : WriteResponse size) : Bool :=
  !r.success || r.bytesWritten == 0 || r.overReports

/-- The writer's side after one attempt to write `data`. -/
def WriterLog.record (log : WriterLog) (data : List UInt8) (r : WriteResponse data.length) :
    WriterLog where
  stream := log.stream ++ data.take r.taken
  failedCalls := log.failedCalls ++ [r.failed]
  overReported := log.overReported || r.overReports

/-- The loop of `WriteAll`. A successful attempt takes at least one byte, so the number of bytes
bounds the number of attempts. -/
def writeLoop (writer : Writer) : Nat → List UInt8 → SinkState → Bool × SinkState
  | _, [], s => (true, s)
  | 0, _, s => (false, s)
  | fuel + 1, data, s =>
    let r := writer.write data.length
    let s := { s with log := s.log.record data r }
    if data.length < r.bytesWritten.toNat then (false, s.reject .kWriteFailure)
    else if 2 ^ 64 ≤ s.sink.bytesWritten.toNat + r.bytesWritten.toNat then
      (false, s.reject .kArithmeticOverflow)
    else
      let s := { s with
        sink := { s.sink with bytesWritten := s.sink.bytesWritten + r.bytesWritten } }
      if !r.success || r.bytesWritten == 0 then (false, s.reject .kWriteFailure)
      else writeLoop writer fuel (data.drop r.bytesWritten.toNat) s

def writeAll (writer : Writer) (data : List UInt8) (s : SinkState) : Bool × SinkState :=
  if !s.ready || !s.sink.hasWriter then (false, s.reject .kWriteFailure)
  else if 2 ^ 64 ≤ s.sink.bytesWritten.toNat + data.length ∨
      s.sink.maximumJournalBytes.toNat < s.sink.bytesWritten.toNat + data.length then
    (false, s.reject .kArithmeticOverflow)
  else writeLoop writer data.length data s

def fileHeader : List UInt8 := utf8 "SchurVIO-CP2-event-journal-v1\n" ++ [0, 0]

def bootstrapFrame : WireFrame :=
  ⟨formatVersion, [⟨101, stateFileMagic⟩, ⟨102, proposalFileMagic⟩, ⟨103, rawFileMagic⟩]⟩

def preamble : List UInt8 := fileHeader ++ wireFrameBytes bootstrapFrame

def construct (hasWriter : Bool) (maximumJournalBytes : UInt64) (writer : Writer) : SinkState :=
  let s : SinkState := ⟨{ hasWriter := hasWriter, maximumJournalBytes := maximumJournalBytes }, {}⟩
  if !hasWriter then s.reject .kWriterUnavailable else (writeAll writer preamble s).2

/-- `CheckIdentity`: the failure, if there is one. -/
def checkIdentity (sink : CP2TraceJournalSink) (update : CP2LiveUpdateEvent) :
    Option CP2TraceJournalFailure :=
  if !update.invocationContextAvailable then some .kIdentityViolation
  else if !sink.haveIdentity then
    if update.invocationId = 0 then none else some .kIdentityViolation
  else if 2 ^ 64 ≤ sink.invocationId.toNat + 1 then some .kArithmeticOverflow
  else if update.sequenceIndex ≠ sink.sequenceIndex ∨
      update.invocationId ≠ sink.invocationId + 1 ∨ update.pairIndex < sink.pairIndex then
    some .kIdentityViolation
  else if update.pairIndex = sink.pairIndex ∧
      update.cameraTimestampNs ≠ sink.cameraTimestampNs then
    some .kIdentityViolation
  else none

inductive CP2RecordedSinkStatus
  | kPublished
  | kRejected
deriving DecidableEq, Repr

/-- `Publish`; the record may be a null pointer. -/
def publish (writer : Writer) (record : Option CP2RecordedUpdateEvent) (s : SinkState) :
    CP2RecordedSinkStatus × SinkState :=
  if !s.ready || s.sink.finalized then (.kRejected, s)
  else
    match record with
    | none => (.kRejected, s.reject .kNullRecord)
    | some record =>
      match checkIdentity s.sink record.update with
      | some failure => (.kRejected, s.reject failure)
      | none =>
        match validateAndEncode record with
        | .error failure => (.kRejected, s.reject failure)
        | .ok frame =>
          if 2 ^ 64 ≤ s.sink.recordsWritten.toNat + 1 then
            (.kRejected, s.reject .kArithmeticOverflow)
          else
            match writeAll writer frame s with
            | (false, s') => (.kRejected, s')
            | (true, s') =>
              (.kPublished, { s' with
                sink := { s'.sink with
                  recordsWritten := s.sink.recordsWritten + 1
                  haveIdentity := true
                  sequenceIndex := record.update.sequenceIndex
                  pairIndex := record.update.pairIndex
                  cameraTimestampNs := record.update.cameraTimestampNs
                  invocationId := record.update.invocationId } })

def finalize (writer : Writer) (s : SinkState) : Bool × SinkState :=
  if s.sink.finalized then (s.ready, s)
  else
    let s := { s with sink := { s.sink with finalized := true } }
    if !s.ready || !s.sink.hasWriter then (false, s.reject .kSyncFailure)
    else
      let synced := writer.sync s.sink.bytesWritten
      let s := { s with log := { s.log with failedCalls := s.log.failedCalls ++ [!synced] } }
      if !synced then (false, s.reject .kSyncFailure) else (true, s)

/-! ## Runs -/

inductive SinkOp
  | publish (record : Option CP2RecordedUpdateEvent)
  | finalize

/-- One call, with what the writer does during it. -/
structure SinkCall where
  op : SinkOp
  writer : Writer

inductive SinkResult
  | published
  | rejected
  | finalized (success : Bool)
deriving DecidableEq

def SinkResult.ofStatus : CP2RecordedSinkStatus → SinkResult
  | .kPublished => .published
  | .kRejected => .rejected

def runCall (s : SinkState) (call : SinkCall) : SinkResult × SinkState :=
  match call.op with
  | .publish record => (publish call.writer record s).map SinkResult.ofStatus id
  | .finalize => (finalize call.writer s).map SinkResult.finalized id

def sinkStep (s : SinkState) (call : SinkCall) (s' : SinkState) : Prop := s' = (runCall s call).2

def resultOf (e : Entry SinkState SinkCall) : SinkResult := (runCall e.pre e.input).1

/-- The frame of a record that is passed to `Publish` while the sink is ready. An invalid record
has none. -/
def offeredFrame (e : Entry SinkState SinkCall) : List (List UInt8) :=
  match e.input.op with
  | .publish (some record) =>
    if e.pre.ready then
      match validateAndEncode record with
      | .ok frame => [frame]
      | .error _ => []
    else []
  | _ => []

def offeredFrames (es : List (Entry SinkState SinkCall)) : List (List UInt8) :=
  es.flatMap offeredFrame

def publishedRecord (e : Entry SinkState SinkCall) : List CP2RecordedUpdateEvent :=
  match e.input.op, resultOf e with
  | .publish (some record), .published => [record]
  | _, _ => []

def publishedRecords (es : List (Entry SinkState SinkCall)) : List CP2RecordedUpdateEvent :=
  es.flatMap publishedRecord

end Bravo.Journal
