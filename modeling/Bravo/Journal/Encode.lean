import Bravo.Journal.Core
import Bravo.Journal.Wire

/-! # Encoding a record

`CP2TraceJournalSink::ValidateAndEncode`: the checks on a record and the frame it becomes.
-/

namespace Bravo.Journal

open Bravo.Trace

inductive CP2TraceJournalFailure
  | kNone
  | kWriterUnavailable
  | kFileInvalid
  | kNullRecord
  | kIdentityViolation
  | kRecordInvariant
  | kArithmeticOverflow
  | kEncodingFailure
  | kWriteFailure
  | kSyncFailure
deriving DecidableEq, Repr

/-- `kFormatVersion` -/
def formatVersion : UInt64 := 1

/-- `kCanonicalFileHeaderSize` -/
def canonicalFileHeaderSize : Nat := 32

def require (c : Bool) (failure : CP2TraceJournalFailure) : Except CP2TraceJournalFailure Unit :=
  if c then .ok () else .error failure

def encoded {α : Type} (x : Except String α) : Except CP2TraceJournalFailure α :=
  match x with
  | .ok a => .ok a
  | .error _ => .error .kEncodingFailure

def checked {α : Type} (x : Option α) : Except CP2TraceJournalFailure α :=
  match x with
  | some a => .ok a
  | none => .error .kArithmeticOverflow

theorem require_eq_ok {c : Bool} {e : CP2TraceJournalFailure} {u : Unit} :
    require c e = .ok u ↔ c = true := by
  cases c <;> simp [require]

theorem encoded_eq_ok {α : Type} {x : Except String α} {a : α} : encoded x = .ok a ↔ x = .ok a := by
  cases x <;> simp [encoded]

theorem checked_eq_ok {α : Type} {x : Option α} {a : α} : checked x = .ok a ↔ x = some a := by
  cases x <;> simp [checked]

/-! ## The checks -/

section Checks

variable (record : CP2RecordedUpdateEvent)

def identityOf : CP2InvocationTraceIdentity :=
  ⟨record.update.sequenceIndex, record.update.pairIndex, record.update.invocationId⟩

def committed : Bool := record.update.terminalStatus == .kCommittedCounted

def timingValid : Bool :=
  validTerminal record.update.terminalStatus record.update.terminalSubreason &&
    record.update.timingEndpointValid &&
    decide (record.update.timingStartNs ≤ record.update.timingEndNs) &&
    record.update.durationNs == record.update.timingEndNs - record.update.timingStartNs

/-- The conditions on a record without raw systems. The two `proposal_available` flags of the
shadow result are not among them. -/
def zeroRawViolated : Bool :=
  let shadow := record.update.shadow
  shadow.rawSystems.length != 0 || shadow.result.features.length != 0 ||
    record.update.shadowEvidenceAvailable || shadow.shadowMathCompleted ||
    shadow.baselinePreviewAvailable || shadow.baselineCommitPlanned ||
    shadow.result.traversalComplete || shadow.result.rawLayoutsValid ||
    shadow.result.nullspaceAssemblyValid || shadow.result.schurAssemblyValid ||
    shadow.result.inputValid || shadow.result.duplicateFeatureId

def nonzeroRawViolated : Bool :=
  let shadow := record.update.shadow
  shadow.rawSystems.length != record.update.rawSystemCount.toNat ||
    shadow.result.features.length != record.update.rawSystemCount.toNat ||
    !record.update.shadowEvidenceAvailable || !shadow.shadowMathCompleted ||
    !shadow.result.traversalComplete

def commitCountsViolated : Bool :=
  let count : UInt64 := if committed record then 1 else 0
  record.baselineCommitCount != count || record.baselineMeanCommitCount != count ||
    record.baselineCovarianceCommitCount != count

/-- The condition on the whole record. Every enumeration of the model is in range, so the checks
of `serialized_enums_valid` do not appear. -/
def recordViolated : Bool :=
  let update := record.update
  let raw := update.rawSystemCount
  record.statePhaseCount != requiredPhases raw (committed record) ||
    decide (record.statePhases.length < record.statePhaseCount.toNat) ||
    (if raw = 0 then !zeroRawTerminalValid update.terminalStatus update.terminalSubreason
      else !nonzeroRawTerminalValid update.terminalStatus update.terminalSubreason) ||
    decide (update.inputFeatureCount < raw) ||
    (update.terminalStatus == .kEmptyInput && update.inputFeatureCount != 0) ||
    record.rawSystemPayloads.length != raw.toNat ||
    (raw != 0 && nonzeroRawViolated record) || (raw == 0 && zeroRawViolated record) ||
    record.baselineProposalPayloadAvailable != !record.baselineProposalPayload.isEmpty ||
    record.candidateProposalPayloadAvailable != !record.candidateProposalPayload.isEmpty ||
    record.baselineProposalPayloadAvailable != (update.shadow.baselinePreviewAvailable &&
      update.shadow.liveNullspaceProposal.accepted) ||
    record.candidateProposalPayloadAvailable != (update.shadow.result.schur.proposalAvailable &&
      update.shadow.result.schur.proposal.accepted) ||
    update.shadow.result.nullspace.proposalAvailable !=
      update.shadow.result.nullspace.proposal.accepted ||
    update.shadow.result.schur.proposalAvailable != update.shadow.result.schur.proposal.accepted ||
    committed record != update.baselineCommitOccurred ||
    committed record != record.baselineCommitOracleAvailable ||
    (committed record && !record.baselineProposalPayloadAvailable) ||
    commitCountsViolated record

def unusedPhasesEmpty : Bool :=
  (record.statePhases.drop record.statePhaseCount.toNat).all fun phase =>
    phase.snapshot.isNone && phase.payload.isEmpty

def stateContent (phase : CP2EncodedStatePhase) (index : Nat) :
    Except CP2TraceJournalFailure StateContent :=
  match phase.snapshot with
  | none => .error .kRecordInvariant
  | some snapshot =>
    if (phaseValue phase.phase).toNat != index || snapshot.phase != phase.phase then
      .error .kRecordInvariant
    else .ok ⟨identityOf record, phase.phase, snapshot⟩

def stateContents : Except CP2TraceJournalFailure (List StateContent) :=
  (record.statePhases.take record.statePhaseCount.toNat).zipIdx.mapM fun p =>
    stateContent record p.1 p.2

def rawContents : List RawSystemContent :=
  record.update.shadow.rawSystems.zipIdx.map fun p =>
    ⟨identityOf record, UInt64.ofNat p.2, p.1⟩

def rawIdentifiersValid : Bool :=
  let shadow := record.update.shadow
  shadow.rawSystems.map (·.featureId) == shadow.result.features.map (·.featureId) &&
    decide (shadow.rawSystems.map (·.featureId)).Nodup

/-- The proposal frames. The sink checks again here that an available payload belongs to an accepted
proposal, which `recordViolated` has already settled. -/
def proposalContents : List ProposalContent :=
  let shadow := record.update.shadow
  (if record.baselineProposalPayloadAvailable then
    [⟨identityOf record, .kNullspaceBaseline,
      ⟨shadow.liveNullspaceProposal.dx, shadow.liveNullspaceProposal.P_plus⟩⟩] else []) ++
  (if record.candidateProposalPayloadAvailable then
    [⟨identityOf record, .kSchurCandidate,
      ⟨shadow.result.schur.proposal.dx, shadow.result.schur.proposal.P_plus⟩⟩] else [])

def proposalPayloads : List (List UInt8) :=
  (if record.baselineProposalPayloadAvailable then [record.baselineProposalPayload] else []) ++
  (if record.candidateProposalPayloadAvailable then [record.candidateProposalPayload] else [])

end Checks

def orderedSubsequence (selected population : List UInt64) : Bool :=
  (population.foldl (fun rest value =>
    match rest with
    | next :: rest' => if next = value then rest' else rest
    | [] => []) selected).isEmpty

def exactPayload (file : List UInt8) (reference : CP2TracePayloadReference)
    (expected : List UInt8) : Bool :=
  decide (reference.offset.toNat + reference.length.toNat < 2 ^ 64) &&
    decide (reference.offset.toNat + reference.length.toNat ≤ file.length) &&
    reference.length.toNat == expected.length &&
    (file.drop reference.offset.toNat).take expected.length == expected

/-- `exact_payload` on every frame. -/
def exactPayloads (file : EncodedFile) (payloads : List (List UInt8)) : Bool :=
  (file.payloads.zip payloads).all fun p => exactPayload file.bytes p.1 p.2

def stripHeader (file : List UInt8) : Option (List UInt8) :=
  if file.length < canonicalFileHeaderSize then none else some (file.drop canonicalFileHeaderSize)

/-! ## The frame -/

def frames {γ : Type} (contents : List γ) : List (TraceFrame γ) := contents.map fun c => ⟨c, default⟩

def eventSections (record : CP2RecordedUpdateEvent) (stateFragment rawFragment proposalFragment :
    List UInt8) (global : List UInt64) (features : List (List UInt64)) : List WireSection :=
  [⟨1, appendWords (coreWords record)⟩,
    ⟨2, appendWords record.update.baselineAcceptedIds⟩,
    ⟨3, appendWords record.update.shadow.result.schur.acceptedIds⟩,
    ⟨4, appendWords global⟩,
    ⟨5, appendWords (oracleWords record.baselineCommitOracle)⟩,
    ⟨6, stateFragment⟩, ⟨7, rawFragment⟩, ⟨8, proposalFragment⟩] ++
    features.map fun words => ⟨10, appendWords words⟩

/-- `ValidateAndEncode`: the frame, or the failure the sink is rejected with. -/
def validateAndEncode (record : CP2RecordedUpdateEvent) :
    Except CP2TraceJournalFailure (List UInt8) := do
  let shadow := record.update.shadow
  require (timingValid record) .kRecordInvariant
  require (decide (record.rawSystemPayloads.length < 2 ^ 64) &&
    decide (shadow.rawSystems.length < 2 ^ 64) &&
    decide (shadow.result.features.length < 2 ^ 64)) .kArithmeticOverflow
  require (!recordViolated record) .kRecordInvariant
  require (unusedPhasesEmpty record) .kRecordInvariant
  require (!(record.update.rawSystemCount != 0 &&
    record.update.baselineAcceptedIds != shadow.result.nullspace.acceptedIds)) .kRecordInvariant
  let states ← stateContents record
  let encodedState ← encoded (encodeStateFile (frames states))
  require (encodedState.payloads.length == record.statePhaseCount.toNat) .kEncodingFailure
  require (exactPayloads encodedState (record.statePhases.map (·.payload))) .kRecordInvariant
  require (rawIdentifiersValid record) .kRecordInvariant
  let order := shadow.rawSystems.map (·.featureId)
  require (orderedSubsequence record.update.baselineAcceptedIds order &&
    orderedSubsequence shadow.result.schur.acceptedIds order) .kRecordInvariant
  let encodedRaw ← encoded (encodeRawSystemFile (frames (rawContents record)))
  require (encodedRaw.payloads.length == record.rawSystemPayloads.length) .kEncodingFailure
  require (exactPayloads encodedRaw record.rawSystemPayloads) .kRecordInvariant
  let encodedProposal ← encoded (encodeProposalFile (frames (proposalContents record)))
  require (encodedProposal.payloads.length == (proposalContents record).length) .kEncodingFailure
  require (exactPayloads encodedProposal (proposalPayloads record)) .kRecordInvariant
  match stripHeader encodedState.bytes, stripHeader encodedRaw.bytes,
      stripHeader encodedProposal.bytes with
  | some stateFragment, some rawFragment, some proposalFragment =>
    let features ← checked (shadow.result.features.mapM featureWords)
    require (decide record.update.baselineAcceptedIds.Nodup &&
      decide shadow.result.schur.acceptedIds.Nodup) .kRecordInvariant
    let global ← checked (globalWords shadow.result)
    require (decide (8 + shadow.result.features.length < 2 ^ 64)) .kArithmeticOverflow
    checked (appendFrameBytes ⟨formatVersion, eventSections record stateFragment rawFragment
      proposalFragment global features⟩)
  | _, _, _ => .error .kEncodingFailure

/-! ## What an encoded record satisfies -/

structure Encoding (record : CP2RecordedUpdateEvent) where
  states : List StateContent
  encodedState : EncodedFile
  encodedRaw : EncodedFile
  encodedProposal : EncodedFile
  features : List (List UInt64)
  global : List UInt64
  timing : timingValid record = true
  notViolated : recordViolated record = false
  acceptedIds : record.update.rawSystemCount ≠ 0 →
    record.update.baselineAcceptedIds = record.update.shadow.result.nullspace.acceptedIds
  states_eq : stateContents record = .ok states
  encodedState_eq : encodeStateFile (frames states) = .ok encodedState
  identifiers : rawIdentifiersValid record = true
  baselineOrder : orderedSubsequence record.update.baselineAcceptedIds
    (record.update.shadow.rawSystems.map (·.featureId)) = true
  candidateOrder : orderedSubsequence record.update.shadow.result.schur.acceptedIds
    (record.update.shadow.rawSystems.map (·.featureId)) = true
  encodedRaw_eq : encodeRawSystemFile (frames (rawContents record)) = .ok encodedRaw
  encodedProposal_eq : encodeProposalFile (frames (proposalContents record)) = .ok encodedProposal
  features_eq : record.update.shadow.result.features.mapM featureWords = some features
  baselineNodup : record.update.baselineAcceptedIds.Nodup
  candidateNodup : record.update.shadow.result.schur.acceptedIds.Nodup
  global_eq : globalWords record.update.shadow.result = some global

def Encoding.wireFrame {record : CP2RecordedUpdateEvent} (e : Encoding record) : WireFrame :=
  ⟨formatVersion, eventSections record (e.encodedState.bytes.drop canonicalFileHeaderSize)
    (e.encodedRaw.bytes.drop canonicalFileHeaderSize)
    (e.encodedProposal.bytes.drop canonicalFileHeaderSize) e.global e.features⟩

theorem appendFrameBytes_eq_some {frame : WireFrame} {bytes : List UInt8} :
    appendFrameBytes frame = some bytes ↔
      bytes = wireFrameBytes frame ∧ (wireFrameBytes frame).length < 2 ^ 63 := by
  rw [appendFrameBytes]
  split
  · simp only [reduceCtorEq, false_iff, not_and]
    omega
  · simp only [Option.some.injEq]
    constructor
    · intro h
      exact ⟨h.symm, by omega⟩
    · intro h
      exact h.1.symm

theorem stripHeader_eq_some {file fragment : List UInt8} :
    stripHeader file = some fragment ↔
      canonicalFileHeaderSize ≤ file.length ∧ fragment = file.drop canonicalFileHeaderSize := by
  rw [stripHeader]
  split
  · simp only [reduceCtorEq, false_iff, not_and]
    omega
  · simp only [Option.some.injEq]
    constructor
    · intro h
      exact ⟨by omega, h.symm⟩
    · intro h
      exact h.2.symm

/-- **The frame of a record** is that of an encoding of it. -/
theorem exists_encoding {record : CP2RecordedUpdateEvent} {frame : List UInt8}
    (h : validateAndEncode record = .ok frame) :
    ∃ e : Encoding record, frame = wireFrameBytes e.wireFrame ∧ frame.length < 2 ^ 63 := by
  unfold validateAndEncode at h
  simp only [bind_eq_ok, require_eq_ok, encoded_eq_ok] at h
  obtain ⟨_, htiming, _, -, _, hviolated, _, -, _, haccepted, states, hstates, encodedState, hstate,
    _, -, _, -, _, hidentifiers, _, horder, encodedRaw, hraw, _, -, _, -, encodedProposal, hproposal,
    _, -, _, -, h⟩ := h
  split at h
  · rename_i stateFragment rawFragment proposalFragment hs hr hp
    simp only [bind_eq_ok, require_eq_ok, checked_eq_ok, appendFrameBytes_eq_some] at h
    obtain ⟨features, hfeatures, _, hnodup, global, hglobal, _, -, rfl, hlt⟩ := h
    rw [Bool.and_eq_true] at horder
    simp only [Bool.and_eq_true, decide_eq_true_eq] at hnodup
    rw [stripHeader_eq_some] at hs hr hp
    obtain ⟨-, rfl⟩ := hs
    obtain ⟨-, rfl⟩ := hr
    obtain ⟨-, rfl⟩ := hp
    have haccepted' : record.update.rawSystemCount ≠ 0 →
        record.update.baselineAcceptedIds =
          record.update.shadow.result.nullspace.acceptedIds := by
      intro hne
      simpa [hne] using haccepted
    exact ⟨⟨states, encodedState, encodedRaw, encodedProposal, features, global, htiming,
      by simpa using hviolated, haccepted', hstates, hstate, hidentifiers, horder.1, horder.2,
      hraw, hproposal, hfeatures, hnodup.1, hnodup.2, hglobal⟩, rfl, hlt⟩
  · cases h

theorem frame_ne_nil {record : CP2RecordedUpdateEvent} {frame : List UInt8}
    (h : validateAndEncode record = .ok frame) : frame ≠ [] := by
  obtain ⟨e, rfl, -⟩ := exists_encoding h
  apply List.ne_nil_of_length_pos
  rw [length_wireFrameBytes]
  omega

end Bravo.Journal
