import Bravo.Trace.CommitOracle
import Bravo.Trace.StateCodec

/-! # Recorded updates

The record that the recorded sink is given (`CP2RecordedUpdateEvent`), with the fields the journal
reads, and the typed summary that decoding returns for it.
-/

namespace Bravo.Journal

open Bravo.Trace

/-! ## Enumerations -/

/-- An enumeration goes on the wire as the index of its value in declaration order. -/
class Enumeration (α : Type) [DecidableEq α] where
  values : List α
  lookup_idxOf : ∀ a : α, values[(UInt64.ofNat (values.idxOf a)).toNat]? = some a

section Enumeration

variable {α : Type} [DecidableEq α] [Enumeration α]

def enumWire (value : α) : UInt64 := UInt64.ofNat ((Enumeration.values (α := α)).idxOf value)

def enumOfWire (α : Type) [DecidableEq α] [Enumeration α] (word : UInt64) : Option α :=
  (Enumeration.values (α := α))[word.toNat]?

@[simp] theorem enumOfWire_enumWire (a : α) : enumOfWire α (enumWire a) = some a :=
  Enumeration.lookup_idxOf a

end Enumeration

inductive CP2UpdateTerminalStatus
  | kEmptyInput
  | kAllRejected
  | kEmptyAfterCompression
  | kPreflightRejected
  | kCommittedCounted
  | kInternalFailure
deriving DecidableEq, Repr, Inhabited

instance : Enumeration CP2UpdateTerminalStatus where
  values := [.kEmptyInput, .kAllRejected, .kEmptyAfterCompression, .kPreflightRejected,
    .kCommittedCounted, .kInternalFailure]
  lookup_idxOf := by
    intro a
    cases a <;> rfl

inductive CP2UpdateTerminalSubreason
  | kInputEmpty
  | kNoFeaturesAfterCleaning
  | kNoFeaturesAfterTriangulation
  | kNoRawSystems
  | kAllBaselineFeaturesRejected
  | kMeasurementCompressionEmpty
  | kBaselinePreflightRejected
  | kInvalidLiveMode
  | kSnapshotMismatch
  | kTraceInvariantFailure
  | kNone
deriving DecidableEq, Repr, Inhabited

instance : Enumeration CP2UpdateTerminalSubreason where
  values := [.kInputEmpty, .kNoFeaturesAfterCleaning, .kNoFeaturesAfterTriangulation,
    .kNoRawSystems, .kAllBaselineFeaturesRejected, .kMeasurementCompressionEmpty,
    .kBaselinePreflightRejected, .kInvalidLiveMode, .kSnapshotMismatch, .kTraceInvariantFailure,
    .kNone]
  lookup_idxOf := by
    intro a
    cases a <;> rfl

inductive CP2GammaStatus
  | kNotReached
  | kAvailable
  | kNonfinite
deriving DecidableEq, Repr, Inhabited

instance : Enumeration CP2GammaStatus where
  values := [.kNotReached, .kAvailable, .kNonfinite]
  lookup_idxOf := by
    intro a
    cases a <;> rfl

inductive MSCKFUpdatePreviewStatus
  | kAccepted
  | kInvalidInput
  | kNonfinite
  | kFactorizationFailed
  | kNegativeDiagonal
deriving DecidableEq, Repr, Inhabited

instance : Enumeration MSCKFUpdatePreviewStatus where
  values := [.kAccepted, .kInvalidInput, .kNonfinite, .kFactorizationFailed, .kNegativeDiagonal]
  lookup_idxOf := by
    intro a
    cases a <;> rfl

inductive MSCKFUpdatePreviewStage
  | kState
  | kInputDimensions
  | kStateOrder
  | kRawInputs
  | kCrossCovariance
  | kMarginalCovariance
  | kInnovation
  | kInnovationFactorization
  | kInnovationInverse
  | kKalmanGain
  | kPosteriorCovariance
  | kPosteriorDiagonal
  | kStateIncrement
  | kAccepted
deriving DecidableEq, Repr, Inhabited

instance : Enumeration MSCKFUpdatePreviewStage where
  values := [.kState, .kInputDimensions, .kStateOrder, .kRawInputs, .kCrossCovariance,
    .kMarginalCovariance, .kInnovation, .kInnovationFactorization, .kInnovationInverse,
    .kKalmanGain, .kPosteriorCovariance, .kPosteriorDiagonal, .kStateIncrement, .kAccepted]
  lookup_idxOf := by
    intro a
    cases a <;> rfl

inductive CP2NullspaceReductionStatus
  | kAccepted
  | kInvalidDimensions
  | kNonfinite
deriving DecidableEq, Repr, Inhabited

instance : Enumeration CP2NullspaceReductionStatus where
  values := [.kAccepted, .kInvalidDimensions, .kNonfinite]
  lookup_idxOf := by
    intro a
    cases a <;> rfl

inductive CP2NullspaceReductionStage
  | kInputDimensions
  | kGivensOutput
  | kStatistics
  | kAccepted
deriving DecidableEq, Repr, Inhabited

instance : Enumeration CP2NullspaceReductionStage where
  values := [.kInputDimensions, .kGivensOutput, .kStatistics, .kAccepted]
  lookup_idxOf := by
    intro a
    cases a <;> rfl

inductive SchurReductionStatus
  | kAccepted
  | kNonfinite
  | kInsufficientRows
  | kRankDeficient
  | kIllConditioned
deriving DecidableEq, Repr, Inhabited

instance : Enumeration SchurReductionStatus where
  values := [.kAccepted, .kNonfinite, .kInsufficientRows, .kRankDeficient, .kIllConditioned]
  lookup_idxOf := by
    intro a
    cases a <;> rfl

inductive SchurReductionStage
  | kInputDimensions
  | kInsufficientRows
  | kRawInputs
  | kSigma
  | kWhitening
  | kSvdSpectrum
  | kLargestSingularValue
  | kNumericalRank
  | kConditioning
  | kQrFactors
  | kQrTransform
  | kReducedOutputs
  | kStatistics
  | kAccepted
deriving DecidableEq, Repr, Inhabited

instance : Enumeration SchurReductionStage where
  values := [.kInputDimensions, .kInsufficientRows, .kRawInputs, .kSigma, .kWhitening,
    .kSvdSpectrum, .kLargestSingularValue, .kNumericalRank, .kConditioning, .kQrFactors,
    .kQrTransform, .kReducedOutputs, .kStatistics, .kAccepted]
  lookup_idxOf := by
    intro a
    cases a <;> rfl

inductive CP2FeatureGateStage
  | kReductionUnavailable
  | kInnovationNonfinite
  | kFactorizationFailed
  | kSolveOrNISNonfinite
  | kThresholdNonfinite
  | kDecision
deriving DecidableEq, Repr, Inhabited

instance : Enumeration CP2FeatureGateStage where
  values := [.kReductionUnavailable, .kInnovationNonfinite, .kFactorizationFailed,
    .kSolveOrNISNonfinite, .kThresholdNonfinite, .kDecision]
  lookup_idxOf := by
    intro a
    cases a <;> rfl

inductive CP2StatisticComparisonStatus
  | kNotRequired
  | kAvailable
  | kReferenceUnavailable
  | kCandidateUnavailable
  | kReferenceNormNonfinite
  | kErrorNonfinite
  | kToleranceNonfinite
  | kRatioNonfinite
deriving DecidableEq, Repr, Inhabited

instance : Enumeration CP2StatisticComparisonStatus where
  values := [.kNotRequired, .kAvailable, .kReferenceUnavailable, .kCandidateUnavailable,
    .kReferenceNormNonfinite, .kErrorNonfinite, .kToleranceNonfinite, .kRatioNonfinite]
  lookup_idxOf := by
    intro a
    cases a <;> rfl

inductive CP2GateAgreementClass
  | kBothMatchAccept
  | kBothMatchReject
  | kBooleanNullspaceAcceptSchurReject
  | kBooleanNullspaceRejectSchurAccept
  | kNullspaceOnly
  | kSchurOnly
  | kNeitherDecision
deriving DecidableEq, Repr, Inhabited

instance : Enumeration CP2GateAgreementClass where
  values := [.kBothMatchAccept, .kBothMatchReject, .kBooleanNullspaceAcceptSchurReject,
    .kBooleanNullspaceRejectSchurAccept, .kNullspaceOnly, .kSchurOnly, .kNeitherDecision]
  lookup_idxOf := by
    intro a
    cases a <;> rfl

instance : Enumeration CP2CommitOracleStatus where
  values := [.kArithmeticOverflow, .kInvalidPhase, .kStructuralMismatch, .kComplete]
  lookup_idxOf := by
    intro a
    cases a <;> rfl

/-! ## The record -/

def quietNaN : Binary64 := ⟨0x7ff8000000000000⟩

structure MSCKFUpdatePreviewDiagnostics where
  status : MSCKFUpdatePreviewStatus := .kInvalidInput
  stage : MSCKFUpdatePreviewStage := .kState
  stateDimension : Int64 := 0
  measurementDimension : Int64 := 0
  jacobianDimension : Int64 := 0
  orderedJacobianDimension : Int64 := 0
  offendingOrderIndex : Int64 := -1
  offendingDiagonalIndex : Int64 := -1
  minimumPosteriorDiagonalAvailable : Bool := false
  minimumPosteriorDiagonal : Binary64 := quietNaN
  jitterCount : UInt64 := 0
  repairCount : UInt64 := 0
  alternateSolveCount : UInt64 := 0
  clampCount : UInt64 := 0
  regularizationCount : UInt64 := 0
  fallbackCount : UInt64 := 0

structure MSCKFUpdatePreviewResult where
  diagnostics : MSCKFUpdatePreviewDiagnostics := {}
  dx : VectorXd := .empty
  P_plus : MatrixXd := .empty

def MSCKFUpdatePreviewResult.accepted (preview : MSCKFUpdatePreviewResult) : Bool :=
  preview.diagnostics.status == .kAccepted

structure CP2FeatureGateCounters where
  jitterCount : UInt64 := 0
  repairCount : UInt64 := 0
  alternateSolveCount : UInt64 := 0
  clampCount : UInt64 := 0
  regularizationCount : UInt64 := 0
  silentFallbackCount : UInt64 := 0
  fallbackCount : UInt64 := 0

structure CP2FeatureGateResult where
  stage : CP2FeatureGateStage := .kReductionUnavailable
  degreesOfFreedom : Int64 := 0
  chi2Available : Bool := false
  chi2 : Binary64 := quietNaN
  thresholdAvailable : Bool := false
  threshold : Binary64 := quietNaN
  evidenceDecisionAvailable : Bool := false
  evidenceAccept : Bool := false
  lifecycleAccept : Bool := false
  counters : CP2FeatureGateCounters := {}

structure CP2SufficientStatistics where
  rawLambdaSymmetryErrorAvailable : Bool := false
  lambdaAvailable : Bool := false
  etaAvailable : Bool := false
  gammaAvailable : Bool := false
  gamma : Binary64 := quietNaN
  rawLambdaSymmetryErrorInf : Binary64 := quietNaN

structure CP2NullspaceReductionResult where
  status : CP2NullspaceReductionStatus := .kInvalidDimensions
  stage : CP2NullspaceReductionStage := .kInputDimensions
  rawRows : Int64 := 0
  reducedRows : Int64 := 0
  emittedSystemAvailable : Bool := false
  modeGammaAvailable : Bool := false
  modeGamma : Binary64 := quietNaN
  statistics : CP2SufficientStatistics := {}
  counters : CP2FeatureGateCounters := {}

structure SchurReductionResult where
  status : SchurReductionStatus := .kNonfinite
  stage : SchurReductionStage := .kInputDimensions
  rawRows : Int64 := 0
  degreesOfFreedom : Int64 := 0
  singularValuesAvailable : Bool := false
  singularRatioAvailable : Bool := false
  singularValues : Binary64 × Binary64 × Binary64 := (quietNaN, quietNaN, quietNaN)
  singularRatio : Binary64 := quietNaN
  gamma : Binary64 := quietNaN
  rawLambdaSymmetryErrorInf : Binary64 := quietNaN
  jitterCount : UInt64 := 0
  clampCount : UInt64 := 0
  regularizationCount : UInt64 := 0
  fallbackCount : UInt64 := 0

structure CP2StatisticComparison where
  status : CP2StatisticComparisonStatus := .kNotRequired
  available : Bool := false
  referenceNorm : Binary64 := quietNaN
  error : Binary64 := quietNaN
  tolerance : Binary64 := quietNaN
  ratio : Binary64 := quietNaN
  passed : Bool := false

structure CP2FeaturePairResult where
  featureId : UInt64 := 0
  rawRows : Int64 := 0
  rawLayoutValid : Bool := false
  nullspace : CP2NullspaceReductionResult := {}
  schur : SchurReductionResult := {}
  nullspaceGate : CP2FeatureGateResult := {}
  schurGate : CP2FeatureGateResult := {}
  statisticsComparisonRequired : Bool := false
  lambdaComparison : CP2StatisticComparison := {}
  etaComparison : CP2StatisticComparison := {}
  gammaComparison : CP2StatisticComparison := {}
  agreementClass : CP2GateAgreementClass := .kNeitherDecision
  rawRowMatchWeight : UInt64 := 0

structure CP2GlobalModeResult where
  acceptedIds : List UInt64 := []
  gammaStatus : CP2GammaStatus := .kNotReached
  retainedGamma : Binary64 := quietNaN
  precompressionRows : Int64 := 0
  compressedRows : Int64 := 0
  proposalAvailable : Bool := false
  proposal : MSCKFUpdatePreviewResult := {}

structure CP2ShadowMathResult where
  traversalComplete : Bool := false
  rawLayoutsValid : Bool := false
  nullspaceAssemblyValid : Bool := false
  schurAssemblyValid : Bool := false
  inputValid : Bool := false
  duplicateFeatureId : Bool := false
  features : List CP2FeaturePairResult := []
  nullspace : CP2GlobalModeResult := {}
  schur : CP2GlobalModeResult := {}

/-- `CP2LiveShadowEvidence`; of its input only the raw systems are journalled. -/
structure CP2LiveShadowEvidence where
  rawSystems : List CP2RawFeatureSystem := []
  result : CP2ShadowMathResult := {}
  shadowMathCompleted : Bool := false
  baselinePreviewAvailable : Bool := false
  liveNullspaceProposal : MSCKFUpdatePreviewResult := {}
  baselineCommitPlanned : Bool := false

structure CP2LiveUpdateEvent where
  invocationContextAvailable : Bool := false
  sequenceIndex : UInt64 := 0
  pairIndex : UInt64 := 0
  cameraTimestampNs : UInt64 := 0
  invocationId : UInt64 := 0
  timingEndpointValid : Bool := false
  timingStartNs : UInt64 := 0
  timingEndNs : UInt64 := 0
  durationNs : UInt64 := 0
  terminalStatus : CP2UpdateTerminalStatus := .kInternalFailure
  terminalSubreason : CP2UpdateTerminalSubreason := .kTraceInvariantFailure
  inputFeatureCount : UInt64 := 0
  rawSystemCount : UInt64 := 0
  baselineAcceptedIds : List UInt64 := []
  baselineGammaStatus : CP2GammaStatus := .kNotReached
  baselineGamma : Binary64 := quietNaN
  baselinePrecompressionSystemNonempty : Bool := false
  baselinePrecompressionRowsAvailable : Bool := false
  baselinePrecompressionRows : UInt64 := 0
  baselineCompressedSystemNonempty : Bool := false
  baselineCompressedRowsAvailable : Bool := false
  baselineCompressedRows : UInt64 := 0
  baselinePreflightAttempted : Bool := false
  baselinePreflightAccepted : Bool := false
  baselineCommitOccurred : Bool := false
  shadowEvidenceAvailable : Bool := false
  shadow : CP2LiveShadowEvidence := {}

/-- `CP2EncodedStatePhase`; the snapshot may be a null pointer. -/
structure CP2EncodedStatePhase where
  phase : CP2StatePhase := .kPhase0Prior
  snapshot : Option CP2CompositeStateSnapshot := none
  payload : List UInt8 := []

theorem length_statePhases : ([{}, {}, {}, {}] : List CP2EncodedStatePhase).length = 4 := rfl

structure CP2RecordedUpdateEvent where
  update : CP2LiveUpdateEvent := {}
  statePhases : List CP2EncodedStatePhase := [{}, {}, {}, {}]
  statePhases_length : statePhases.length = 4 := by exact Bravo.Journal.length_statePhases
  statePhaseCount : UInt64 := 0
  rawSystemPayloads : List (List UInt8) := []
  baselineProposalPayloadAvailable : Bool := false
  baselineProposalPayload : List UInt8 := []
  candidateProposalPayloadAvailable : Bool := false
  candidateProposalPayload : List UInt8 := []
  phase01CanonicalEqual : Bool := false
  phase01PointerGraphEqual : Bool := false
  baselineCommitOracleAvailable : Bool := false
  baselineCommitOracle : CP2CommitOracleResult := {}
  baselineCommitMismatch : Bool := false
  onlineMathEvidencePassed : Bool := false
  baselineCommitCount : UInt64 := 0
  baselineMeanCommitCount : UInt64 := 0
  baselineCovarianceCommitCount : UInt64 := 0
  candidateEkfUpdateCallCount : UInt64 := 0
  candidateMeanWriteCount : UInt64 := 0
  candidateCovarianceWriteCount : UInt64 := 0
  candidateTypeUpdateCallCount : UInt64 := 0
  candidateFeatureWriteCount : UInt64 := 0

/-! ## What decoding returns -/

structure CP2TraceJournalCounterSummary where
  jitter : UInt64
  repair : UInt64
  alternateSolve : UInt64
  clamp : UInt64
  regularization : UInt64
  silentFallback : UInt64
  fallback : UInt64

structure CP2TraceJournalCoreSummary where
  durationNs : UInt64
  terminalStatus : CP2UpdateTerminalStatus
  terminalSubreason : CP2UpdateTerminalSubreason
  inputFeatureCount : UInt64
  rawSystemCount : UInt64
  baselinePrecompressionSystemNonempty : Bool
  baselinePrecompressionRowsAvailable : Bool
  baselineCompressedSystemNonempty : Bool
  baselineCompressedRowsAvailable : Bool
  baselinePreflightAttempted : Bool
  baselinePreflightAccepted : Bool
  baselineCommitOccurred : Bool
  shadowEvidenceAvailable : Bool
  phase01CanonicalEqual : Bool
  phase01PointerGraphEqual : Bool
  baselineProposalPayloadAvailable : Bool
  candidateProposalPayloadAvailable : Bool
  baselineCommitOracleAvailable : Bool
  baselineCommitMismatch : Bool
  onlineMathEvidencePassed : Bool
  shadowMathCompleted : Bool
  baselinePreviewAvailable : Bool
  baselineCommitPlanned : Bool
  traversalComplete : Bool
  rawLayoutsValid : Bool
  nullspaceAssemblyValid : Bool
  schurAssemblyValid : Bool
  inputValid : Bool
  duplicateFeatureId : Bool
  nullspaceProposalAvailable : Bool
  schurProposalAvailable : Bool
  baselineGammaStatus : CP2GammaStatus
  baselineGamma : Binary64
  baselinePrecompressionRows : UInt64
  baselineCompressedRows : UInt64
  baselineCommitCount : UInt64
  baselineMeanCommitCount : UInt64
  baselineCovarianceCommitCount : UInt64
  candidateEkfUpdateCallCount : UInt64
  candidateMeanWriteCount : UInt64
  candidateCovarianceWriteCount : UInt64
  candidateTypeUpdateCallCount : UInt64
  candidateFeatureWriteCount : UInt64
  rawPayloadCount : UInt64
  statePhaseCount : UInt64
  featureSummaryCount : UInt64

structure CP2TraceJournalPreviewSummary where
  status : MSCKFUpdatePreviewStatus
  stage : MSCKFUpdatePreviewStage
  stateDimension : UInt64
  measurementDimension : UInt64
  jacobianDimension : UInt64
  orderedJacobianDimension : UInt64
  offendingOrderIndex : Int64
  offendingDiagonalIndex : Int64
  minimumPosteriorDiagonalAvailable : Bool
  minimumPosteriorDiagonal : Binary64
  counters : CP2TraceJournalCounterSummary

structure CP2TraceJournalGlobalSummary where
  nullspaceGammaStatus : CP2GammaStatus
  nullspaceRetainedGamma : Binary64
  schurGammaStatus : CP2GammaStatus
  schurRetainedGamma : Binary64
  nullspacePrecompressionRows : UInt64
  nullspaceCompressedRows : UInt64
  schurPrecompressionRows : UInt64
  schurCompressedRows : UInt64
  nullspacePreview : CP2TraceJournalPreviewSummary
  schurPreview : CP2TraceJournalPreviewSummary

structure CP2TraceJournalGateSummary where
  stage : CP2FeatureGateStage
  degreesOfFreedom : UInt64
  chi2Available : Bool
  chi2 : Binary64
  thresholdAvailable : Bool
  threshold : Binary64
  evidenceDecisionAvailable : Bool
  evidenceAccept : Bool
  lifecycleAccept : Bool
  counters : CP2TraceJournalCounterSummary

structure CP2TraceJournalFeatureSummary where
  featureId : UInt64
  rawRows : UInt64
  rawLayoutValid : Bool
  nullspaceStatus : CP2NullspaceReductionStatus
  nullspaceStage : CP2NullspaceReductionStage
  nullspaceRawRows : UInt64
  nullspaceReducedRows : UInt64
  nullspaceEmittedSystemAvailable : Bool
  nullspaceModeGammaAvailable : Bool
  nullspaceModeGamma : Binary64
  nullspaceRawLambdaSymmetryErrorAvailable : Bool
  nullspaceLambdaAvailable : Bool
  nullspaceEtaAvailable : Bool
  nullspaceGammaAvailable : Bool
  nullspaceRawLambdaSymmetryErrorInf : Binary64
  nullspaceGamma : Binary64
  nullspaceReducerCounters : CP2TraceJournalCounterSummary
  schurStatus : SchurReductionStatus
  schurStage : SchurReductionStage
  schurRawRows : UInt64
  schurDegreesOfFreedom : UInt64
  schurSingularValuesAvailable : Bool
  schurRatioAvailable : Bool
  schurSingularValues : Binary64 × Binary64 × Binary64
  schurRatio : Binary64
  schurRawLambdaSymmetryErrorInf : Binary64
  schurGamma : Binary64
  schurReducerCounters : CP2TraceJournalCounterSummary
  nullspaceGate : CP2TraceJournalGateSummary
  schurGate : CP2TraceJournalGateSummary
  statisticsComparisonRequired : Bool
  lambdaComparison : CP2StatisticComparison
  etaComparison : CP2StatisticComparison
  gammaComparison : CP2StatisticComparison
  agreementClass : CP2GateAgreementClass
  rawRowMatchWeight : UInt64

end Bravo.Journal
