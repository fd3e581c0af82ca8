import Bravo.Journal.Sections

/-! # The event core

The first section of an event: identity, terminal status, counters and the flag word, as the sink
writes it and as `parse_event_core` reads it back under its cross-field conditions.
-/

namespace Bravo.Journal

open Bravo.Trace

/-! ## Terminal states -/

def validTerminal (status : CP2UpdateTerminalStatus) (subreason : CP2UpdateTerminalSubreason) :
    Bool :=
  match status with
  | .kEmptyInput => subreason == .kInputEmpty
  | .kAllRejected => subreason == .kNoFeaturesAfterCleaning ||
      subreason == .kNoFeaturesAfterTriangulation || subreason == .kNoRawSystems ||
      subreason == .kAllBaselineFeaturesRejected
  | .kEmptyAfterCompression => subreason == .kMeasurementCompressionEmpty
  | .kPreflightRejected => subreason == .kBaselinePreflightRejected
  | .kCommittedCounted => subreason == .kNone
  | .kInternalFailure => subreason == .kInvalidLiveMode || subreason == .kSnapshotMismatch ||
      subreason == .kTraceInvariantFailure

/-- `zero_raw_terminal_valid`, the same expression in the sink and in the decoder. -/
def zeroRawTerminalValid (status : CP2UpdateTerminalStatus)
    (subreason : CP2UpdateTerminalSubreason) : Bool :=
  status == .kEmptyInput ||
    (status == .kAllRejected && subreason != .kAllBaselineFeaturesRejected) ||
    (status == .kInternalFailure && subreason == .kTraceInvariantFailure)

def nonzeroRawTerminalValid (status : CP2UpdateTerminalStatus)
    (subreason : CP2UpdateTerminalSubreason) : Bool :=
  (status == .kAllRejected && subreason == .kAllBaselineFeaturesRejected) ||
    status == .kEmptyAfterCompression || status == .kPreflightRejected ||
    status == .kCommittedCounted || status == .kInternalFailure

def requiredPhases (rawSystemCount : UInt64) (committed : Bool) : UInt64 :=
  if rawSystemCount = 0 then 0 else if committed then 4 else 2

/-! ## Writing -/

/-- The flags of `event_flags`, from bit 0 on. -/
def eventFlagList (record : CP2RecordedUpdateEvent) : List Bool :=
  let update := record.update
  [update.baselinePrecompressionSystemNonempty,
    update.baselinePrecompressionRowsAvailable,
    update.baselineCompressedSystemNonempty,
    update.baselineCompressedRowsAvailable,
    update.baselinePreflightAttempted,
    update.baselinePreflightAccepted,
    update.baselineCommitOccurred,
    update.shadowEvidenceAvailable,
    record.phase01CanonicalEqual,
    record.phase01PointerGraphEqual,
    record.baselineProposalPayloadAvailable,
    record.candidateProposalPayloadAvailable,
    record.baselineCommitOracleAvailable,
    record.baselineCommitMismatch,
    record.onlineMathEvidencePassed,
    update.shadow.shadowMathCompleted,
    update.shadow.baselinePreviewAvailable,
    update.shadow.baselineCommitPlanned,
    update.shadow.result.traversalComplete,
    update.shadow.result.rawLayoutsValid,
    update.shadow.result.nullspaceAssemblyValid,
    update.shadow.result.schurAssemblyValid,
    update.shadow.result.inputValid,
    update.shadow.result.duplicateFeatureId,
    update.shadow.result.nullspace.proposalAvailable,
    update.shadow.result.schur.proposalAvailable]

def eventFlags (record : CP2RecordedUpdateEvent) : UInt64 := packFlags (eventFlagList record)

def coreWords (record : CP2RecordedUpdateEvent) : List UInt64 :=
  let update := record.update
  [update.sequenceIndex, update.pairIndex, update.cameraTimestampNs, update.invocationId,
    update.durationNs, enumWire update.terminalStatus, enumWire update.terminalSubreason,
    update.inputFeatureCount, update.rawSystemCount, eventFlags record,
    enumWire update.baselineGammaStatus, update.baselineGamma.bits,
    update.baselinePrecompressionRows, update.baselineCompressedRows, record.baselineCommitCount,
    record.baselineMeanCommitCount, record.baselineCovarianceCommitCount,
    record.candidateEkfUpdateCallCount, record.candidateMeanWriteCount,
    record.candidateCovarianceWriteCount, record.candidateTypeUpdateCallCount,
    record.candidateFeatureWriteCount, UInt64.ofNat record.rawSystemPayloads.length,
    record.statePhaseCount, UInt64.ofNat update.shadow.result.features.length]

/-! ## Parsing -/

/-- What `parse_event_core` returns: the identity and the summary of the core. -/
structure ParsedCore where
  sequenceIndex : UInt64
  pairIndex : UInt64
  cameraTimestampNs : UInt64
  invocationId : UInt64
  core : CP2TraceJournalCoreSummary

/-- `zero_raw_forbidden_flags`: bit 7 and the bits from 15 to 25. -/
def zeroRawForbiddenFlags : UInt64 :=
  ((1 : UInt64) <<< UInt64.ofNat 7) |||
    ((((1 : UInt64) <<< UInt64.ofNat 26) - 1) &&& highBits 15)

/-- The cross-field conditions of `parse_event_core`. -/
def coreInconsistent (status : CP2UpdateTerminalStatus) (subreason : CP2UpdateTerminalSubreason)
    (words : List UInt64) : Bool :=
  let committed := status == .kCommittedCounted
  let flags := word words 9
  let raw := word words 8
  let one : UInt64 := if committed then 1 else 0
  decide (word words 7 < raw) || raw != word words 22 || raw != word words 24 ||
    word words 23 != requiredPhases raw committed ||
    (if raw = 0 then !zeroRawTerminalValid status subreason
      else !nonzeroRawTerminalValid status subreason) ||
    (status == .kEmptyInput && word words 7 != 0) ||
    hasFlag flags 6 != committed || hasFlag flags 12 != committed ||
    word words 14 != one || word words 15 != one || word words 16 != one ||
    (committed && !hasFlag flags 10) || (hasFlag flags 10 && !hasFlag flags 16) ||
    (raw != 0 && (!hasFlag flags 7 || !hasFlag flags 15 || !hasFlag flags 18)) ||
    (raw == 0 && (flags &&& zeroRawForbiddenFlags != 0 || hasFlag flags 10 || hasFlag flags 11))

def parseEventCore (bytes : List UInt8) : Option ParsedCore :=
  if bytes.length ≠ 25 * 8 then none
  else do
    let words ← firstWords bytes 25
    let status ← enumOfWire CP2UpdateTerminalStatus (word words 5)
    let subreason ← enumOfWire CP2UpdateTerminalSubreason (word words 6)
    let gammaStatus ← enumOfWire CP2GammaStatus (word words 10)
    let flag := hasFlag (word words 9)
    if word words 9 &&& highBits 26 ≠ 0 then none
    else if !validTerminal status subreason then none
    else if coreInconsistent status subreason words then none
    else
      return {
        sequenceIndex := word words 0
        pairIndex := word words 1
        cameraTimestampNs := word words 2
        invocationId := word words 3
        core := {
          durationNs := word words 4
          terminalStatus := status
          terminalSubreason := subreason
          inputFeatureCount := word words 7
          rawSystemCount := word words 8
          baselinePrecompressionSystemNonempty := flag 0
          baselinePrecompressionRowsAvailable := flag 1
          baselineCompressedSystemNonempty := flag 2
          baselineCompressedRowsAvailable := flag 3
          baselinePreflightAttempted := flag 4
          baselinePreflightAccepted := flag 5
          baselineCommitOccurred := flag 6
          shadowEvidenceAvailable := flag 7
          phase01CanonicalEqual := flag 8
          phase01PointerGraphEqual := flag 9
          baselineProposalPayloadAvailable := flag 10
          candidateProposalPayloadAvailable := flag 11
          baselineCommitOracleAvailable := flag 12
          baselineCommitMismatch := flag 13
          onlineMathEvidencePassed := flag 14
          shadowMathCompleted := flag 15
          baselinePreviewAvailable := flag 16
          baselineCommitPlanned := flag 17
          traversalComplete := flag 18
          rawLayoutsValid := flag 19
          nullspaceAssemblyValid := flag 20
          schurAssemblyValid := flag 21
          inputValid := flag 22
          duplicateFeatureId := flag 23
          nullspaceProposalAvailable := flag 24
          schurProposalAvailable := flag 25
          baselineGammaStatus := gammaStatus
          baselineGamma := binary64At words 11
          baselinePrecompressionRows := word words 12
          baselineCompressedRows := word words 13
          baselineCommitCount := word words 14
          baselineMeanCommitCount := word words 15
          baselineCovarianceCommitCount := word words 16
          candidateEkfUpdateCallCount := word words 17
          candidateMeanWriteCount := word words 18
          candidateCovarianceWriteCount := word words 19
          candidateTypeUpdateCallCount := word words 20
          candidateFeatureWriteCount := word words 21
          rawPayloadCount := word words 22
          statePhaseCount := word words 23
          featureSummaryCount := word words 24 } }

def coreSummary (record : CP2RecordedUpdateEvent) : CP2TraceJournalCoreSummary where
  durationNs := record.update.durationNs
  terminalStatus := record.update.terminalStatus
  terminalSubreason := record.update.terminalSubreason
  inputFeatureCount := record.update.inputFeatureCount
  rawSystemCount := record.update.rawSystemCount
  baselinePrecompressionSystemNonempty := record.update.baselinePrecompressionSystemNonempty
  baselinePrecompressionRowsAvailable := record.update.baselinePrecompressionRowsAvailable
  baselineCompressedSystemNonempty := record.update.baselineCompressedSystemNonempty
  baselineCompressedRowsAvailable := record.update.baselineCompressedRowsAvailable
  baselinePreflightAttempted := record.update.baselinePreflightAttempted
  baselinePreflightAccepted := record.update.baselinePreflightAccepted
  baselineCommitOccurred := record.update.baselineCommitOccurred
  shadowEvidenceAvailable := record.update.shadowEvidenceAvailable
  phase01CanonicalEqual := record.phase01CanonicalEqual
  phase01PointerGraphEqual := record.phase01PointerGraphEqual
  baselineProposalPayloadAvailable := record.baselineProposalPayloadAvailable
  candidateProposalPayloadAvailable := record.candidateProposalPayloadAvailable
  baselineCommitOracleAvailable := record.baselineCommitOracleAvailable
  baselineCommitMismatch := record.baselineCommitMismatch
  onlineMathEvidencePassed := record.onlineMathEvidencePassed
  shadowMathCompleted := record.update.shadow.shadowMathCompleted
  baselinePreviewAvailable := record.update.shadow.baselinePreviewAvailable
  baselineCommitPlanned := record.update.shadow.baselineCommitPlanned
  traversalComplete := record.update.shadow.result.traversalComplete
  rawLayoutsValid := record.update.shadow.result.rawLayoutsValid
  nullspaceAssemblyValid := record.update.shadow.result.nullspaceAssemblyValid
  schurAssemblyValid := record.update.shadow.result.schurAssemblyValid
  inputValid := record.update.shadow.result.inputValid
  duplicateFeatureId := record.update.shadow.result.duplicateFeatureId
  nullspaceProposalAvailable := record.update.shadow.result.nullspace.proposalAvailable
  schurProposalAvailable := record.update.shadow.result.schur.proposalAvailable
  baselineGammaStatus := record.update.baselineGammaStatus
  baselineGamma := record.update.baselineGamma
  baselinePrecompressionRows := record.update.baselinePrecompressionRows
  baselineCompressedRows := record.update.baselineCompressedRows
  baselineCommitCount := record.baselineCommitCount
  baselineMeanCommitCount := record.baselineMeanCommitCount
  baselineCovarianceCommitCount := record.baselineCovarianceCommitCount
  candidateEkfUpdateCallCount := record.candidateEkfUpdateCallCount
  candidateMeanWriteCount := record.candidateMeanWriteCount
  candidateCovarianceWriteCount := record.candidateCovarianceWriteCount
  candidateTypeUpdateCallCount := record.candidateTypeUpdateCallCount
  candidateFeatureWriteCount := record.candidateFeatureWriteCount
  rawPayloadCount := UInt64.ofNat record.rawSystemPayloads.length
  statePhaseCount := record.statePhaseCount
  featureSummaryCount := UInt64.ofNat record.update.shadow.result.features.length

def parsedCore (record : CP2RecordedUpdateEvent) : ParsedCore :=
  ⟨record.update.sequenceIndex, record.update.pairIndex, record.update.cameraTimestampNs,
    record.update.invocationId, coreSummary record⟩

theorem hasFlag_eventFlags (record : CP2RecordedUpdateEvent) {i : Nat} (hi : i < 26) :
    hasFlag (eventFlags record) i = (eventFlagList record).getD i false :=
  hasFlag_packFlags (by simp [eventFlagList]) (by omega)

theorem parseEventCore_coreWords (record : CP2RecordedUpdateEvent) :
    parseEventCore (appendWords (coreWords record)) =
      if validTerminal record.update.terminalStatus record.update.terminalSubreason = true ∧
          coreInconsistent record.update.terminalStatus record.update.terminalSubreason
            (coreWords record) = false then
        some (parsedCore record)
      else none := by
  have hfirst : firstWords (appendWords (coreWords record)) 25 = some (coreWords record) :=
    firstWords_appendWords (coreWords record)
  have hsize : ¬ (appendWords (coreWords record)).length ≠ 25 * 8 := by
    rw [length_appendWords]
    exact not_not.mpr rfl
  have hhigh : ¬ word (coreWords record) 9 &&& highBits 26 ≠ 0 :=
    not_not.mpr (packFlags_and_highBits rfl (by decide))
  have hstatus : enumOfWire CP2UpdateTerminalStatus (word (coreWords record) 5) =
    some record.update.terminalStatus := enumOfWire_enumWire _
  have hsubreason : enumOfWire CP2UpdateTerminalSubreason (word (coreWords record) 6) =
    some record.update.terminalSubreason := enumOfWire_enumWire _
  have hgamma : enumOfWire CP2GammaStatus (word (coreWords record) 10) =
    some record.update.baselineGammaStatus := enumOfWire_enumWire _
  have hflags : word (coreWords record) 9 = eventFlags record := rfl
  unfold parseEventCore
  rw [if_neg hsize, hfirst]
  simp only [Option.bind_eq_bind, Option.bind_some, hstatus, hsubreason, hgamma, if_neg hhigh]
  cases hterm : validTerminal record.update.terminalStatus record.update.terminalSubreason with
  | false => simp
  | true =>
    cases hcore : coreInconsistent record.update.terminalStatus record.update.terminalSubreason
        (coreWords record) with
    | true => simp
    | false =>
      simp only [Bool.not_true, Bool.false_eq_true, if_false, and_self, if_true, hflags]
      have hflag : ∀ i < 26,
          hasFlag (eventFlags record) i = (eventFlagList record).getD i false :=
        fun i hi => hasFlag_eventFlags record hi
      simp only [hflag 0 (by decide), hflag 1 (by decide), hflag 2 (by decide),
        hflag 3 (by decide), hflag 4 (by decide), hflag 5 (by decide), hflag 6 (by decide),
        hflag 7 (by decide), hflag 8 (by decide), hflag 9 (by decide), hflag 10 (by decide),
        hflag 11 (by decide), hflag 12 (by decide), hflag 13 (by decide), hflag 14 (by decide),
        hflag 15 (by decide), hflag 16 (by decide), hflag 17 (by decide), hflag 18 (by decide),
        hflag 19 (by decide), hflag 20 (by decide), hflag 21 (by decide), hflag 22 (by decide),
        hflag 23 (by decide), hflag 24 (by decide), hflag 25 (by decide)]
      rfl

end Bravo.Journal
