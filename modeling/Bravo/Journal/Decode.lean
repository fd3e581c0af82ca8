import Bravo.Journal.Sink

/-! # Decoding a journal

`CP2TraceJournalCodec::Decode`: the header, the bootstrap frame and one frame for each event. The
fragments of the events are put together to the three codec files. An error stands for a result
with that status and an empty journal.
-/

namespace Bravo.Journal

open Bravo.Trace

structure CP2TraceJournalDecodedEvent where
  sequenceIndex : UInt64
  pairIndex : UInt64
  cameraTimestampNs : UInt64
  invocationId : UInt64
  rawSystemCount : UInt64
  statePhaseCount : UInt64
  featureSummaryCount : UInt64
  core : CP2TraceJournalCoreSummary
  baselineAcceptedIds : List UInt64
  candidateAcceptedIds : List UInt64
  global : CP2TraceJournalGlobalSummary
  commitOracle : CP2CommitOracleResult
  featureSummaries : List CP2TraceJournalFeatureSummary
  sections : List WireSection

structure CP2TraceJournalDecoded where
  events : List CP2TraceJournalDecodedEvent
  stateFileBytes : List UInt8
  proposalFileBytes : List UInt8
  rawSystemFileBytes : List UInt8

def decodeRequire (c : Bool) (status : CP2TraceJournalDecodeStatus) :
    Except CP2TraceJournalDecodeStatus Unit :=
  if c then .ok () else .error status

def parsed {α : Type} (x : Option α) : Except CP2TraceJournalDecodeStatus α :=
  match x with
  | some a => .ok a
  | none => .error .kInvalidSectionValue

def canonical {α : Type} (x : Except String α) : Except CP2TraceJournalDecodeStatus α :=
  match x with
  | .ok a => .ok a
  | .error _ => .error .kCanonicalCodecFailure

theorem decodeRequire_eq_ok {c : Bool} {e : CP2TraceJournalDecodeStatus} {u : Unit} :
    decodeRequire c e = .ok u ↔ c = true := by
  cases c <;> simp [decodeRequire]

theorem parsed_eq_ok {α : Type} {x : Option α} {a : α} : parsed x = .ok a ↔ x = some a := by
  cases x <;> simp [parsed]

theorem canonical_eq_ok {α : Type} {x : Except String α} {a : α} :
    canonical x = .ok a ↔ x = .ok a := by
  cases x <;> simp [canonical]

/-! ## One event -/

def validateIds (bytes : List UInt8) (maximumCount : UInt64) : Option (List UInt64) :=
  if bytes.length % 8 ≠ 0 ∨ maximumCount.toNat < bytes.length / 8 then none
  else do
    let ids ← firstWords bytes (bytes.length / 8)
    if ids.Nodup then some ids else none

def validateEventIdentity (previous : Option CP2TraceJournalDecodedEvent) (event : ParsedCore) :
    Except CP2TraceJournalDecodeStatus Unit :=
  match previous with
  | none => decodeRequire (event.invocationId == 0) .kIdentityViolation
  | some previous =>
    if 2 ^ 64 ≤ previous.invocationId.toNat + 1 then .error .kArithmeticOverflow
    else decodeRequire (event.sequenceIndex == previous.sequenceIndex &&
      event.invocationId == previous.invocationId + 1 &&
      !decide (event.pairIndex < previous.pairIndex) &&
      !(event.pairIndex == previous.pairIndex &&
        event.cameraTimestampNs != previous.cameraTimestampNs)) .kIdentityViolation

section Decode

variable (limits : CP2TraceJournalDecodeLimits)

def appendLimited (destination source : List UInt8) :
    Except CP2TraceJournalDecodeStatus (List UInt8) :=
  if 2 ^ 64 ≤ destination.length + source.length ∨
      limits.maximumTotalBytes.toNat < destination.length + source.length then
    .error .kArithmeticOverflow
  else .ok (destination ++ source)

def codecLimits : CP2TraceDecodeLimits where
  maximumFileBytes := limits.maximumTotalBytes
  maximumPayloadBytes := min limits.maximumTotalBytes limits.maximumSectionBytes
  maximumFrames := limits.maximumTotalBytes / 40 + 1
  maximumMatrixCoefficients := limits.maximumTotalBytes / 8
  maximumTotalMatrixCoefficients := limits.maximumTotalBytes / 8
  maximumVectorRows := limits.maximumTotalBytes / 8
  maximumLayoutBlocks := limits.maximumTotalBytes / 16 + 1

/-- `exact_codec_file`, after the frames were decoded from the bytes. -/
def exactCodecFile {α : Type} (encode : List α → Except String EncodedFile) (frames : List α)
    (bytes : List UInt8) : Except CP2TraceJournalDecodeStatus Unit := do
  let file ← canonical (encode frames)
  decodeRequire (file.bytes == bytes) .kCanonicalCodecFailure

structure Fragments where
  state : List UInt8
  raw : List UInt8
  proposal : List UInt8

/-- An event up to its fragments: the sections that describe it, checked against each other and
against the event before it. -/
def decodeSummary (previous : Option CP2TraceJournalDecodedEvent) (frame : WireFrame) :
    Except CP2TraceJournalDecodeStatus (CP2TraceJournalDecodedEvent × Fragments) :=
  match frame.sections with
  | core :: baseline :: candidate :: global :: oracle :: state :: raw :: proposal :: features => do
    decodeRequire ([core, baseline, candidate, global, oracle, state, raw, proposal].map (·.tag) ==
      [1, 2, 3, 4, 5, 6, 7, 8]) .kInvalidSectionInventory
    let event ← parsed (parseEventCore core.bytes)
    decodeRequire (decide (8 + event.core.featureSummaryCount.toNat < 2 ^ 64)) .kArithmeticOverflow
    decodeRequire (frame.sections.length == 8 + event.core.featureSummaryCount.toNat)
      .kInvalidSectionInventory
    decodeRequire (features.all (·.tag == 10)) .kInvalidSectionInventory
    let baselineIds ← parsed (validateIds baseline.bytes event.core.rawSystemCount)
    let candidateIds ← parsed (validateIds candidate.bytes event.core.rawSystemCount)
    let summary ← parsed (parseGlobalSection global.bytes)
    let commitOracle ← parsed (parseOracleSection oracle.bytes)
    let flags ← parsed (wordAt core.bytes 9)
    decodeRequire (hasFlag flags 24 == (summary.nullspacePreview.status == .kAccepted) &&
      hasFlag flags 25 == (summary.schurPreview.status == .kAccepted) &&
      event.core.candidateProposalPayloadAvailable == hasFlag flags 25) .kInvalidSectionValue
    validateEventIdentity previous event
    let summaries ← parsed (features.mapM fun s => parseFeatureSection s.bytes)
    let featureIds := summaries.map (·.featureId)
    decodeRequire (decide featureIds.Nodup) .kInvalidSectionValue
    decodeRequire (orderedSubsequence baselineIds featureIds &&
      orderedSubsequence candidateIds featureIds) .kInvalidSectionValue
    return ({
      sequenceIndex := event.sequenceIndex
      pairIndex := event.pairIndex
      cameraTimestampNs := event.cameraTimestampNs
      invocationId := event.invocationId
      rawSystemCount := event.core.rawSystemCount
      statePhaseCount := event.core.statePhaseCount
      featureSummaryCount := event.core.featureSummaryCount
      core := event.core
      baselineAcceptedIds := baselineIds
      candidateAcceptedIds := candidateIds
      global := summary
      commitOracle := commitOracle
      featureSummaries := summaries
      sections := frame.sections }, ⟨state.bytes, raw.bytes, proposal.bytes⟩)
  | _ => .error .kInvalidSectionInventory

def sameIdentity (identity : CP2InvocationTraceIdentity) (event : CP2TraceJournalDecodedEvent) :
    Bool :=
  identity.sequenceIndex == event.sequenceIndex && identity.pairIndex == event.pairIndex &&
    identity.invocationId == event.invocationId

def expectedRoles (event : CP2TraceJournalDecodedEvent) : List CP2ProposalTraceRole :=
  (if event.core.baselineProposalPayloadAvailable then [.kNullspaceBaseline] else []) ++
  (if event.core.candidateProposalPayloadAvailable then [.kSchurCandidate] else [])

def checkFragments (event : CP2TraceJournalDecodedEvent) (fragments : Fragments) :
    Except CP2TraceJournalDecodeStatus Unit := do
  let state ← appendLimited limits stateFileMagic fragments.state
  let raw ← appendLimited limits rawFileMagic fragments.raw
  let proposal ← appendLimited limits proposalFileMagic fragments.proposal
  let stateFrames ← canonical (decodeStateFile state (codecLimits limits))
  let rawFrames ← canonical (decodeRawSystemFile raw (codecLimits limits))
  let proposalFrames ← canonical (decodeProposalFile proposal (codecLimits limits))
  decodeRequire (stateFrames.length == event.statePhaseCount.toNat &&
    rawFrames.length == event.rawSystemCount.toNat &&
    proposalFrames.length == (expectedRoles event).length) .kCanonicalCodecFailure
  exactCodecFile encodeStateFile stateFrames state
  exactCodecFile encodeRawSystemFile rawFrames raw
  exactCodecFile encodeProposalFile proposalFrames proposal
  decodeRequire (stateFrames.all fun f => sameIdentity f.content.invocation event)
    .kIdentityViolation
  decodeRequire (rawFrames.zipIdx.all fun p => sameIdentity p.1.content.invocation event &&
    (event.featureSummaries.map (·.featureId))[p.2]? == some p.1.content.rawSystem.featureId)
    .kIdentityViolation
  decodeRequire (((expectedRoles event).zipIdx).all fun p =>
    match proposalFrames[p.2]? with
    | some f => f.content.role == p.1 && sameIdentity f.content.invocation event
    | none => false) .kIdentityViolation

def decodeEvent (decoded : CP2TraceJournalDecoded) (frame : WireFrame) :
    Except CP2TraceJournalDecodeStatus CP2TraceJournalDecoded := do
  decodeRequire (frame.version == formatVersion) .kInvalidVersion
  let (event, fragments) ← decodeSummary decoded.events.getLast? frame
  checkFragments limits event fragments
  let state ← appendLimited limits decoded.stateFileBytes fragments.state
  let raw ← appendLimited limits decoded.rawSystemFileBytes fragments.raw
  let proposal ← appendLimited limits decoded.proposalFileBytes fragments.proposal
  return ⟨decoded.events ++ [event], state, proposal, raw⟩

/-! ## The whole journal -/

def exactFrame (frame : WireFrame) (bytes rest : List UInt8)
    (mismatch : CP2TraceJournalDecodeStatus) : Except CP2TraceJournalDecodeStatus Unit :=
  match appendFrameBytes frame with
  | none => .error .kArithmeticOverflow
  | some encoded => decodeRequire (encoded == bytes.take (bytes.length - rest.length)) mismatch

/-- The loop over the events. Every frame has bytes, so their number bounds the iterations;
`frame_count` is the number of events. -/
def decodeEvents : Nat → List UInt8 → CP2TraceJournalDecoded →
    Except CP2TraceJournalDecodeStatus CP2TraceJournalDecoded
  | _, [], decoded => .ok decoded
  | 0, _, _ => .error .kTruncatedFrame
  | fuel + 1, bytes, decoded => do
    decodeRequire (decide (decoded.events.length < limits.maximumFrames.toNat)) .kFrameLimit
    let (frame, rest) ← parseWireFrame limits bytes
    let decoded ← decodeEvent limits decoded frame
    exactFrame frame bytes rest .kCanonicalCodecFailure
    decodeEvents fuel rest decoded

def checkFiles (decoded : CP2TraceJournalDecoded) : Except CP2TraceJournalDecodeStatus Unit := do
  let stateFrames ← canonical (decodeStateFile decoded.stateFileBytes (codecLimits limits))
  let rawFrames ← canonical (decodeRawSystemFile decoded.rawSystemFileBytes (codecLimits limits))
  let proposalFrames ← canonical
    (decodeProposalFile decoded.proposalFileBytes (codecLimits limits))
  exactCodecFile encodeStateFile stateFrames decoded.stateFileBytes
  exactCodecFile encodeRawSystemFile rawFrames decoded.rawSystemFileBytes
  exactCodecFile encodeProposalFile proposalFrames decoded.proposalFileBytes

def emptyJournal : CP2TraceJournalDecoded := ⟨[], stateFileMagic, proposalFileMagic, rawFileMagic⟩

def decode (bytes : List UInt8) : Except CP2TraceJournalDecodeStatus CP2TraceJournalDecoded := do
  decodeRequire (decide (bytes.length < 2 ^ 64)) .kArithmeticOverflow
  decodeRequire (decide (bytes.length ≤ limits.maximumTotalBytes.toNat)) .kTotalBytesLimit
  decodeRequire (bytes.take fileHeader.length == fileHeader) .kInvalidHeader
  let body := bytes.drop fileHeader.length
  let (frame, rest) ← parseWireFrame limits body
  decodeRequire (frame.version == formatVersion) .kInvalidVersion
  decodeRequire (frame.sections == bootstrapFrame.sections) .kInvalidBootstrap
  exactFrame frame body rest .kInvalidBootstrap
  let decoded ← decodeEvents limits rest.length rest emptyJournal
  checkFiles limits decoded
  return decoded

end Decode

end Bravo.Journal
