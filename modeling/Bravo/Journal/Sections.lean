import Bravo.Basic.Words
import Bravo.Journal.Record

/-! # Journal sections

The fixed-size sections of an event: the core, the global summary, the commit oracle and the
feature summaries. Every scalar is one word. The sink writes the words one after the other; the
decoder reads them by position. Each section parses back to the summary of what was written.
-/

namespace Bravo.Journal

open Bravo.Trace List

/-! ## Scalars -/

/-- `Encoder::Boolean` -/
def boolWire (value : Bool) : UInt64 := if value then 1 else 0

def countIndexToWire (value : Int64) : Option UInt64 :=
  if value.toInt < 0 then none else some value.toUInt64

def signedIndexToWire (value : Int64) : UInt64 := value.toUInt64

/-- `words[index]` -/
def word (words : List UInt64) (index : Nat) : UInt64 := words.getD index 0

def validBoolean (value : UInt64) : Bool := decide (value ≤ 1)

def boolAt (words : List UInt64) (index : Nat) : Bool := word words index != 0

/-- `binary64_from_bits` -/
def binary64At (words : List UInt64) (index : Nat) : Binary64 := ⟨word words index⟩

@[simp] theorem validBoolean_boolWire (b : Bool) : validBoolean (boolWire b) = true := by
  cases b <;> rfl

@[simp] theorem boolWire_bne_zero (b : Bool) : (boolWire b != 0) = b := by
  cases b <;> rfl

theorem countIndexToWire_eq_some {v : Int64} {w : UInt64} :
    countIndexToWire v = some w ↔ 0 ≤ v.toInt ∧ w = v.toUInt64 := by
  unfold countIndexToWire
  split
  · simp
    omega
  · simp [eq_comm]
    omega

/-! ## Feature summaries -/

/-- `append_gate_counters` -/
def counterWords (value : CP2FeatureGateCounters) : List UInt64 :=
  [value.jitterCount, value.repairCount, value.alternateSolveCount, value.clampCount,
    value.regularizationCount, value.silentFallbackCount, value.fallbackCount]

/-- `append_gate` -/
def gateWords (value : CP2FeatureGateResult) : Option (List UInt64) := do
  let degrees ← countIndexToWire value.degreesOfFreedom
  return [enumWire value.stage, degrees, boolWire value.chi2Available, value.chi2.bits,
    boolWire value.thresholdAvailable, value.threshold.bits,
    boolWire value.evidenceDecisionAvailable, boolWire value.evidenceAccept,
    boolWire value.lifecycleAccept] ++ counterWords value.counters

/-- `append_comparison` -/
def comparisonWords (value : CP2StatisticComparison) : List UInt64 :=
  [enumWire value.status, boolWire value.available, value.referenceNorm.bits, value.error.bits,
    value.tolerance.bits, value.ratio.bits, boolWire value.passed]

/-- `append_feature` -/
def featureWords (feature : CP2FeaturePairResult) : Option (List UInt64) := do
  let rawRows ← countIndexToWire feature.rawRows
  let nullspaceRawRows ← countIndexToWire feature.nullspace.rawRows
  let nullspaceReducedRows ← countIndexToWire feature.nullspace.reducedRows
  let schurRawRows ← countIndexToWire feature.schur.rawRows
  let schurDegrees ← countIndexToWire feature.schur.degreesOfFreedom
  let nullspaceGate ← gateWords feature.nullspaceGate
  let schurGate ← gateWords feature.schurGate
  return [feature.featureId, rawRows, boolWire feature.rawLayoutValid,
      enumWire feature.nullspace.status, enumWire feature.nullspace.stage, nullspaceRawRows,
      nullspaceReducedRows, boolWire feature.nullspace.emittedSystemAvailable,
      boolWire feature.nullspace.modeGammaAvailable, feature.nullspace.modeGamma.bits,
      boolWire feature.nullspace.statistics.rawLambdaSymmetryErrorAvailable,
      boolWire feature.nullspace.statistics.lambdaAvailable,
      boolWire feature.nullspace.statistics.etaAvailable,
      boolWire feature.nullspace.statistics.gammaAvailable,
      feature.nullspace.statistics.rawLambdaSymmetryErrorInf.bits,
      feature.nullspace.statistics.gamma.bits] ++
    counterWords feature.nullspace.counters ++
    [enumWire feature.schur.status, enumWire feature.schur.stage, schurRawRows, schurDegrees,
      boolWire feature.schur.singularValuesAvailable, boolWire feature.schur.singularRatioAvailable,
      feature.schur.singularValues.1.bits, feature.schur.singularValues.2.1.bits,
      feature.schur.singularValues.2.2.bits, feature.schur.singularRatio.bits,
      feature.schur.rawLambdaSymmetryErrorInf.bits, feature.schur.gamma.bits,
      feature.schur.jitterCount, 0, 0, feature.schur.clampCount, feature.schur.regularizationCount,
      0, feature.schur.fallbackCount] ++
    nullspaceGate ++ schurGate ++ [boolWire feature.statisticsComparisonRequired] ++
    comparisonWords feature.lambdaComparison ++ comparisonWords feature.etaComparison ++
    comparisonWords feature.gammaComparison ++
    [enumWire feature.agreementClass, feature.rawRowMatchWeight]

/-- `parse_counter_words`, on the words from the base on. -/
def parseCounterWords (words : List UInt64) : CP2TraceJournalCounterSummary where
  jitter := word words 0
  repair := word words 1
  alternateSolve := word words 2
  clamp := word words 3
  regularization := word words 4
  silentFallback := word words 5
  fallback := word words 6

/-- `validate_gate_words` and `parse_gate`, on the words from the base on. -/
def parseGate (words : List UInt64) : Option CP2TraceJournalGateSummary := do
  let stage ← enumOfWire CP2FeatureGateStage (word words 0)
  if validBoolean (word words 2) && validBoolean (word words 4) && validBoolean (word words 6) &&
      validBoolean (word words 7) && validBoolean (word words 8) then
    some {
      stage := stage
      degreesOfFreedom := word words 1
      chi2Available := boolAt words 2
      chi2 := binary64At words 3
      thresholdAvailable := boolAt words 4
      threshold := binary64At words 5
      evidenceDecisionAvailable := boolAt words 6
      evidenceAccept := boolAt words 7
      lifecycleAccept := boolAt words 8
      counters := parseCounterWords (words.drop 9) }
  else none

/-- `validate_comparison_words` and `parse_comparison`, on the words from the base on. -/
def parseComparison (words : List UInt64) : Option CP2StatisticComparison := do
  let status ← enumOfWire CP2StatisticComparisonStatus (word words 0)
  if validBoolean (word words 1) && validBoolean (word words 6) then
    some {
      status := status
      available := boolAt words 1
      referenceNorm := binary64At words 2
      error := binary64At words 3
      tolerance := binary64At words 4
      ratio := binary64At words 5
      passed := boolAt words 6 }
  else none

/-- The conditions of `parse_feature_section` on single words. -/
def featureWordsValid (words : List UInt64) : Bool :=
  [2, 7, 8, 10, 11, 12, 13, 27, 28, 74].all (fun index => validBoolean (word words index)) &&
    word words 36 == 0 && word words 37 == 0 && word words 40 == 0

def parseFeatureSection (bytes : List UInt8) : Option CP2TraceJournalFeatureSummary :=
  if bytes.length ≠ 98 * 8 then none
  else do
    let words ← firstWords bytes 98
    let nullspaceStatus ← enumOfWire CP2NullspaceReductionStatus (word words 3)
    let nullspaceStage ← enumOfWire CP2NullspaceReductionStage (word words 4)
    let schurStatus ← enumOfWire SchurReductionStatus (word words 23)
    let schurStage ← enumOfWire SchurReductionStage (word words 24)
    let nullspaceGate ← parseGate (words.drop 42)
    let schurGate ← parseGate (words.drop 58)
    let lambdaComparison ← parseComparison (words.drop 75)
    let etaComparison ← parseComparison (words.drop 82)
    let gammaComparison ← parseComparison (words.drop 89)
    let agreementClass ← enumOfWire CP2GateAgreementClass (word words 96)
    if featureWordsValid words then
      some {
        featureId := word words 0
        rawRows := word words 1
        rawLayoutValid := boolAt words 2
        nullspaceStatus := nullspaceStatus
        nullspaceStage := nullspaceStage
        nullspaceRawRows := word words 5
        nullspaceReducedRows := word words 6
        nullspaceEmittedSystemAvailable := boolAt words 7
        nullspaceModeGammaAvailable := boolAt words 8
        nullspaceModeGamma := binary64At words 9
        nullspaceRawLambdaSymmetryErrorAvailable := boolAt words 10
        nullspaceLambdaAvailable := boolAt words 11
        nullspaceEtaAvailable := boolAt words 12
        nullspaceGammaAvailable := boolAt words 13
        nullspaceRawLambdaSymmetryErrorInf := binary64At words 14
        nullspaceGamma := binary64At words 15
        nullspaceReducerCounters := parseCounterWords (words.drop 16)
        schurStatus := schurStatus
        schurStage := schurStage
        schurRawRows := word words 25
        schurDegreesOfFreedom := word words 26
        schurSingularValuesAvailable := boolAt words 27
        schurRatioAvailable := boolAt words 28
        schurSingularValues := (binary64At words 29, binary64At words 30, binary64At words 31)
        schurRatio := binary64At words 32
        schurRawLambdaSymmetryErrorInf := binary64At words 33
        schurGamma := binary64At words 34
        schurReducerCounters := parseCounterWords (words.drop 35)
        nullspaceGate := nullspaceGate
        schurGate := schurGate
        statisticsComparisonRequired := boolAt words 74
        lambdaComparison := lambdaComparison
        etaComparison := etaComparison
        gammaComparison := gammaComparison
        agreementClass := agreementClass
        rawRowMatchWeight := word words 97 }
    else none

/-! What was written, as the summary that has to come back. -/

def counterSummary (value : CP2FeatureGateCounters) : CP2TraceJournalCounterSummary :=
  ⟨value.jitterCount, value.repairCount, value.alternateSolveCount, value.clampCount,
    value.regularizationCount, value.silentFallbackCount, value.fallbackCount⟩

def gateSummary (value : CP2FeatureGateResult) : CP2TraceJournalGateSummary where
  stage := value.stage
  degreesOfFreedom := value.degreesOfFreedom.toUInt64
  chi2Available := value.chi2Available
  chi2 := value.chi2
  thresholdAvailable := value.thresholdAvailable
  threshold := value.threshold
  evidenceDecisionAvailable := value.evidenceDecisionAvailable
  evidenceAccept := value.evidenceAccept
  lifecycleAccept := value.lifecycleAccept
  counters := counterSummary value.counters

def featureSummary (feature : CP2FeaturePairResult) : CP2TraceJournalFeatureSummary where
  featureId := feature.featureId
  rawRows := feature.rawRows.toUInt64
  rawLayoutValid := feature.rawLayoutValid
  nullspaceStatus := feature.nullspace.status
  nullspaceStage := feature.nullspace.stage
  nullspaceRawRows := feature.nullspace.rawRows.toUInt64
  nullspaceReducedRows := feature.nullspace.reducedRows.toUInt64
  nullspaceEmittedSystemAvailable := feature.nullspace.emittedSystemAvailable
  nullspaceModeGammaAvailable := feature.nullspace.modeGammaAvailable
  nullspaceModeGamma := feature.nullspace.modeGamma
  nullspaceRawLambdaSymmetryErrorAvailable :=
    feature.nullspace.statistics.rawLambdaSymmetryErrorAvailable
  nullspaceLambdaAvailable := feature.nullspace.statistics.lambdaAvailable
  nullspaceEtaAvailable := feature.nullspace.statistics.etaAvailable
  nullspaceGammaAvailable := feature.nullspace.statistics.gammaAvailable
  nullspaceRawLambdaSymmetryErrorInf := feature.nullspace.statistics.rawLambdaSymmetryErrorInf
  nullspaceGamma := feature.nullspace.statistics.gamma
  nullspaceReducerCounters := counterSummary feature.nullspace.counters
  schurStatus := feature.schur.status
  schurStage := feature.schur.stage
  schurRawRows := feature.schur.rawRows.toUInt64
  schurDegreesOfFreedom := feature.schur.degreesOfFreedom.toUInt64
  schurSingularValuesAvailable := feature.schur.singularValuesAvailable
  schurRatioAvailable := feature.schur.singularRatioAvailable
  schurSingularValues := feature.schur.singularValues
  schurRatio := feature.schur.singularRatio
  schurRawLambdaSymmetryErrorInf := feature.schur.rawLambdaSymmetryErrorInf
  schurGamma := feature.schur.gamma
  schurReducerCounters := ⟨feature.schur.jitterCount, 0, 0, feature.schur.clampCount,
    feature.schur.regularizationCount, 0, feature.schur.fallbackCount⟩
  nullspaceGate := gateSummary feature.nullspaceGate
  schurGate := gateSummary feature.schurGate
  statisticsComparisonRequired := feature.statisticsComparisonRequired
  lambdaComparison := feature.lambdaComparison
  etaComparison := feature.etaComparison
  gammaComparison := feature.gammaComparison
  agreementClass := feature.agreementClass
  rawRowMatchWeight := feature.rawRowMatchWeight

variable {ws : List UInt64}

theorem length_gateWords {g : CP2FeatureGateResult} (h : gateWords g = some ws) :
    ws.length = 16 := by
  obtain ⟨degrees, -, hret⟩ := Option.bind_eq_some_iff.mp h
  cases hret
  rfl

theorem parseGate_gateWords {g : CP2FeatureGateResult} {ws rest : List UInt64}
    (h : gateWords g = some ws) : parseGate (ws ++ rest) = some (gateSummary g) := by
  obtain ⟨degrees, hdegrees, hret⟩ := Option.bind_eq_some_iff.mp h
  obtain ⟨-, rfl⟩ := countIndexToWire_eq_some.mp hdegrees
  cases hret
  have hstage : enumOfWire CP2FeatureGateStage (enumWire g.stage) = some g.stage :=
    enumOfWire_enumWire _
  simp [parseGate, counterWords, word, boolAt, binary64At, hstage, parseCounterWords, gateSummary,
    counterSummary]

theorem parseComparison_comparisonWords (c : CP2StatisticComparison) (rest : List UInt64) :
    parseComparison (comparisonWords c ++ rest) = some c := by
  have hstatus : enumOfWire CP2StatisticComparisonStatus (enumWire c.status) = some c.status :=
    enumOfWire_enumWire _
  simp [parseComparison, comparisonWords, word, boolAt, binary64At, hstatus]

theorem word_drop (ws : List UInt64) (n i : Nat) : word (ws.drop n) i = word ws (n + i) := by
  simp [word, getD_eq_getElem?_getD, getElem?_drop]

theorem parseFeatureSection_featureWords {f : CP2FeaturePairResult} (h : featureWords f = some ws) :
    parseFeatureSection (appendWords ws) = some (featureSummary f) := by
  simp only [featureWords, Option.bind_eq_bind, Option.bind_eq_some_iff, countIndexToWire_eq_some]
    at h
  obtain ⟨_, ⟨-, rfl⟩, _, ⟨-, rfl⟩, _, ⟨-, rfl⟩, _, ⟨-, rfl⟩, _, ⟨-, rfl⟩, ng, hng, sg, hsg, hret⟩ := h
  have hws := Option.some.inj hret
  have hlng := length_gateWords hng
  have hlsg := length_gateWords hsg
  -- The words from the first gate on.
  have h42 : ws.drop 42 = ng ++ (sg ++ (boolWire f.statisticsComparisonRequired ::
      (comparisonWords f.lambdaComparison ++ (comparisonWords f.etaComparison ++
      (comparisonWords f.gammaComparison ++
        [enumWire f.agreementClass, f.rawRowMatchWeight]))))) := by
    rw [← hws]
    simp [counterWords]
  have h58 : ws.drop 58 = sg ++ (boolWire f.statisticsComparisonRequired ::
      (comparisonWords f.lambdaComparison ++ (comparisonWords f.etaComparison ++
      (comparisonWords f.gammaComparison ++
        [enumWire f.agreementClass, f.rawRowMatchWeight])))) := by
    rw [show 58 = 42 + 16 from rfl, ← drop_drop, h42, drop_left' hlng]
  have h74 : ws.drop 74 = boolWire f.statisticsComparisonRequired ::
      (comparisonWords f.lambdaComparison ++ (comparisonWords f.etaComparison ++
      (comparisonWords f.gammaComparison ++
        [enumWire f.agreementClass, f.rawRowMatchWeight]))) := by
    rw [show 74 = 58 + 16 from rfl, ← drop_drop, h58, drop_left' hlsg]
  have h75 : ws.drop 75 = comparisonWords f.lambdaComparison ++
      (comparisonWords f.etaComparison ++ (comparisonWords f.gammaComparison ++
        [enumWire f.agreementClass, f.rawRowMatchWeight])) := by
    rw [show 75 = 74 + 1 from rfl, ← drop_drop, h74]
    rfl
  have h82 : ws.drop 82 = comparisonWords f.etaComparison ++ (comparisonWords f.gammaComparison ++
      [enumWire f.agreementClass, f.rawRowMatchWeight]) := by
    rw [show 82 = 75 + 7 from rfl, ← drop_drop, h75]
    rfl
  have h89 : ws.drop 89 = comparisonWords f.gammaComparison ++
      [enumWire f.agreementClass, f.rawRowMatchWeight] := by
    rw [show 89 = 82 + 7 from rfl, ← drop_drop, h82]
    rfl
  have hw74 : word ws 74 = boolWire f.statisticsComparisonRequired := by
    rw [show word ws 74 = word (ws.drop 74) 0 from (word_drop ws 74 0).symm, h74]
    rfl
  have hw96 : word ws 96 = enumWire f.agreementClass := by
    rw [show word ws 96 = word (ws.drop 89) 7 from (word_drop ws 89 7).symm, h89]
    rfl
  have hw97 : word ws 97 = f.rawRowMatchWeight := by
    rw [show word ws 97 = word (ws.drop 89) 8 from (word_drop ws 89 8).symm, h89]
    rfl
  have hlen : ws.length = 98 := by
    have := congrArg List.length h42
    simp [hlng, hlsg, comparisonWords] at this
    omega
  have hfirst : firstWords (appendWords ws) 98 = some ws := by
    rw [← hlen]
    exact firstWords_appendWords ws
  have hsize : ¬ (appendWords ws).length ≠ 98 * 8 := by
    rw [length_appendWords, hlen]
    decide
  have h16 : parseCounterWords (ws.drop 16) = counterSummary f.nullspace.counters := by
    rw [← hws]
    simp [parseCounterWords, word, counterWords, counterSummary]
  have h35 : parseCounterWords (ws.drop 35) = ⟨f.schur.jitterCount, 0, 0, f.schur.clampCount,
      f.schur.regularizationCount, 0, f.schur.fallbackCount⟩ := by
    rw [← hws]
    simp [parseCounterWords, word, counterWords]
  have hvalid : featureWordsValid ws = true := by
    simp only [featureWordsValid, all_cons, all_nil, hw74, validBoolean_boolWire]
    rw [← hws]
    simp [word, counterWords]
  unfold parseFeatureSection
  rw [if_neg hsize, hfirst]
  simp only [Option.bind_eq_bind, Option.bind_some, h42, h58, h75, h82, h89, parseGate_gateWords hng,
    parseGate_gateWords hsg, parseComparison_comparisonWords, hw96, enumOfWire_enumWire, hvalid,
    if_true, hw97, h16, h35, boolAt, binary64At, hw74, boolWire_bne_zero]
  rw [← hws]
  simp [word, counterWords, featureSummary]

/-! ## The global summary -/

/-- `append_preview` -/
def previewWords (preview : MSCKFUpdatePreviewResult) : Option (List UInt64) := do
  let value := preview.diagnostics
  let stateDimension ← countIndexToWire value.stateDimension
  let measurementDimension ← countIndexToWire value.measurementDimension
  let jacobianDimension ← countIndexToWire value.jacobianDimension
  let orderedDimension ← countIndexToWire value.orderedJacobianDimension
  return [enumWire value.status, enumWire value.stage, stateDimension, measurementDimension,
    jacobianDimension, orderedDimension, signedIndexToWire value.offendingOrderIndex,
    signedIndexToWire value.offendingDiagonalIndex,
    boolWire value.minimumPosteriorDiagonalAvailable, value.minimumPosteriorDiagonal.bits,
    value.jitterCount, value.repairCount, value.alternateSolveCount, value.clampCount,
    value.regularizationCount, value.fallbackCount]

def globalWords (result : CP2ShadowMathResult) : Option (List UInt64) := do
  let nullspacePrecompression ← countIndexToWire result.nullspace.precompressionRows
  let nullspaceCompressed ← countIndexToWire result.nullspace.compressedRows
  let candidatePrecompression ← countIndexToWire result.schur.precompressionRows
  let candidateCompressed ← countIndexToWire result.schur.compressedRows
  let nullspacePreview ← previewWords result.nullspace.proposal
  let schurPreview ← previewWords result.schur.proposal
  return [enumWire result.nullspace.gammaStatus, result.nullspace.retainedGamma.bits,
      enumWire result.schur.gammaStatus, result.schur.retainedGamma.bits, nullspacePrecompression,
      nullspaceCompressed, candidatePrecompression, candidateCompressed] ++
    nullspacePreview ++ schurPreview

/-- `parse_preview` and the conditions on it, on the words from the base on. -/
def parsePreview (words : List UInt64) : Option CP2TraceJournalPreviewSummary := do
  let status ← enumOfWire MSCKFUpdatePreviewStatus (word words 0)
  let stage ← enumOfWire MSCKFUpdatePreviewStage (word words 1)
  if validBoolean (word words 8) then
    some {
      status := status
      stage := stage
      stateDimension := word words 2
      measurementDimension := word words 3
      jacobianDimension := word words 4
      orderedJacobianDimension := word words 5
      offendingOrderIndex := (word words 6).toInt64
      offendingDiagonalIndex := (word words 7).toInt64
      minimumPosteriorDiagonalAvailable := boolAt words 8
      minimumPosteriorDiagonal := binary64At words 9
      counters := {
        jitter := word words 10
        repair := word words 11
        alternateSolve := word words 12
        clamp := word words 13
        regularization := word words 14
        silentFallback := 0
        fallback := word words 15 } }
  else none

def parseGlobalSection (bytes : List UInt8) : Option CP2TraceJournalGlobalSummary :=
  if bytes.length ≠ 40 * 8 then none
  else do
    let words ← firstWords bytes 40
    let nullspaceGammaStatus ← enumOfWire CP2GammaStatus (word words 0)
    let schurGammaStatus ← enumOfWire CP2GammaStatus (word words 2)
    let nullspacePreview ← parsePreview (words.drop 8)
    let schurPreview ← parsePreview (words.drop 24)
    return {
      nullspaceGammaStatus := nullspaceGammaStatus
      nullspaceRetainedGamma := binary64At words 1
      schurGammaStatus := schurGammaStatus
      schurRetainedGamma := binary64At words 3
      nullspacePrecompressionRows := word words 4
      nullspaceCompressedRows := word words 5
      schurPrecompressionRows := word words 6
      schurCompressedRows := word words 7
      nullspacePreview := nullspacePreview
      schurPreview := schurPreview }

def previewSummary (preview : MSCKFUpdatePreviewResult) : CP2TraceJournalPreviewSummary where
  status := preview.diagnostics.status
  stage := preview.diagnostics.stage
  stateDimension := preview.diagnostics.stateDimension.toUInt64
  measurementDimension := preview.diagnostics.measurementDimension.toUInt64
  jacobianDimension := preview.diagnostics.jacobianDimension.toUInt64
  orderedJacobianDimension := preview.diagnostics.orderedJacobianDimension.toUInt64
  offendingOrderIndex := preview.diagnostics.offendingOrderIndex
  offendingDiagonalIndex := preview.diagnostics.offendingDiagonalIndex
  minimumPosteriorDiagonalAvailable := preview.diagnostics.minimumPosteriorDiagonalAvailable
  minimumPosteriorDiagonal := preview.diagnostics.minimumPosteriorDiagonal
  counters := ⟨preview.diagnostics.jitterCount, preview.diagnostics.repairCount,
    preview.diagnostics.alternateSolveCount, preview.diagnostics.clampCount,
    preview.diagnostics.regularizationCount, 0, preview.diagnostics.fallbackCount⟩

def globalSummary (result : CP2ShadowMathResult) : CP2TraceJournalGlobalSummary where
  nullspaceGammaStatus := result.nullspace.gammaStatus
  nullspaceRetainedGamma := result.nullspace.retainedGamma
  schurGammaStatus := result.schur.gammaStatus
  schurRetainedGamma := result.schur.retainedGamma
  nullspacePrecompressionRows := result.nullspace.precompressionRows.toUInt64
  nullspaceCompressedRows := result.nullspace.compressedRows.toUInt64
  schurPrecompressionRows := result.schur.precompressionRows.toUInt64
  schurCompressedRows := result.schur.compressedRows.toUInt64
  nullspacePreview := previewSummary result.nullspace.proposal
  schurPreview := previewSummary result.schur.proposal

theorem length_previewWords {p : MSCKFUpdatePreviewResult}
    (h : previewWords p = some ws) : ws.length = 16 := by
  simp only [previewWords, Option.bind_eq_bind, Option.bind_eq_some_iff] at h
  obtain ⟨_, -, _, -, _, -, _, -, hret⟩ := h
  cases hret
  rfl

theorem parsePreview_previewWords {p : MSCKFUpdatePreviewResult} {ws rest : List UInt64}
    (h : previewWords p = some ws) : parsePreview (ws ++ rest) = some (previewSummary p) := by
  simp only [previewWords, Option.bind_eq_bind, Option.bind_eq_some_iff, countIndexToWire_eq_some]
    at h
  obtain ⟨_, ⟨-, rfl⟩, _, ⟨-, rfl⟩, _, ⟨-, rfl⟩, _, ⟨-, rfl⟩, hret⟩ := h
  cases hret
  have hstatus : enumOfWire MSCKFUpdatePreviewStatus (enumWire p.diagnostics.status) =
    some p.diagnostics.status := enumOfWire_enumWire _
  have hstage : enumOfWire MSCKFUpdatePreviewStage (enumWire p.diagnostics.stage) =
    some p.diagnostics.stage := enumOfWire_enumWire _
  simp [parsePreview, word, boolAt, binary64At, signedIndexToWire, hstatus, hstage, previewSummary]

theorem parseGlobalSection_globalWords {result : CP2ShadowMathResult}
    (h : globalWords result = some ws) :
    parseGlobalSection (appendWords ws) = some (globalSummary result) := by
  simp only [globalWords, Option.bind_eq_bind, Option.bind_eq_some_iff, countIndexToWire_eq_some]
    at h
  obtain ⟨_, ⟨-, rfl⟩, _, ⟨-, rfl⟩, _, ⟨-, rfl⟩, _, ⟨-, rfl⟩, np, hnp, sp, hsp, hret⟩ := h
  have hws := Option.some.inj hret
  have hlnp := length_previewWords hnp
  have hlsp := length_previewWords hsp
  have h8 : ws.drop 8 = np ++ sp := by
    rw [← hws]
    simp
  have h24 : ws.drop 24 = sp ++ [] := by
    rw [show 24 = 8 + 16 from rfl, ← drop_drop, h8, drop_left' hlnp, append_nil]
  have hlen : ws.length = 40 := by
    rw [← hws]
    simp [hlnp, hlsp]
  have hfirst : firstWords (appendWords ws) 40 = some ws := by
    rw [← hlen]
    exact firstWords_appendWords ws
  have hsize : ¬ (appendWords ws).length ≠ 40 * 8 := by
    rw [length_appendWords, hlen]
    decide
  unfold parseGlobalSection
  rw [if_neg hsize, hfirst]
  simp only [Option.bind_eq_bind, Option.bind_some, h8, h24, parsePreview_previewWords hnp,
    parsePreview_previewWords hsp, binary64At]
  rw [← hws]
  simp [word, globalSummary]

/-! ## The commit oracle -/

def oracleFlags (value : CP2CommitOracleResult) : List Bool :=
  [value.comparisonAvailable, value.structureEqual, value.phase0Valid, value.phase2Valid,
    value.phase3Valid, value.completeFinite, value.phase0Phase2ImmutableEqual,
    value.phase2Phase3CanonicalEqual, value.completeCanonicalEqual, value.typeUpdateCallsMatch,
    value.passed]

def oracleWords (value : CP2CommitOracleResult) : List UInt64 :=
  [enumWire value.status, packFlags (oracleFlags value), value.observedTypeUpdateCalls,
    value.baselineExpectedTypeUpdateCalls, value.baselineVerifiedNominalFields,
    value.baselineNominalMismatches, value.baselineCovarianceMismatches,
    value.baselineFejMismatches, value.stateBlocksExpected, value.stateBlocksSeen,
    value.covarianceBlocksExpected, value.covarianceBlocksSeen]

/-- All bits from `n` on. -/
def highBits (n : Nat) : UInt64 := ~~~(((1 : UInt64) <<< UInt64.ofNat n) - 1)

def parseOracleSection (bytes : List UInt8) : Option CP2CommitOracleResult :=
  if bytes.length ≠ 12 * 8 then none
  else do
    let words ← firstWords bytes 12
    let status ← enumOfWire CP2CommitOracleStatus (word words 0)
    let flags := word words 1
    if flags &&& highBits 11 ≠ 0 then none
    else
      return {
        status := status
        comparisonAvailable := hasFlag flags 0
        structureEqual := hasFlag flags 1
        phase0Valid := hasFlag flags 2
        phase2Valid := hasFlag flags 3
        phase3Valid := hasFlag flags 4
        completeFinite := hasFlag flags 5
        phase0Phase2ImmutableEqual := hasFlag flags 6
        phase2Phase3CanonicalEqual := hasFlag flags 7
        completeCanonicalEqual := hasFlag flags 8
        typeUpdateCallsMatch := hasFlag flags 9
        passed := hasFlag flags 10
        observedTypeUpdateCalls := word words 2
        baselineExpectedTypeUpdateCalls := word words 3
        baselineVerifiedNominalFields := word words 4
        baselineNominalMismatches := word words 5
        baselineCovarianceMismatches := word words 6
        baselineFejMismatches := word words 7
        stateBlocksExpected := word words 8
        stateBlocksSeen := word words 9
        covarianceBlocksExpected := word words 10
        covarianceBlocksSeen := word words 11 }

theorem packFlags_and_highBits {flags : List Bool} {n : Nat} (hlen : flags.length = n) (hn : n < 64) :
    packFlags flags &&& highBits n = 0 := by
  rw [and_eq_zero_iff]
  intro i hi hmask
  rw [hasFlag_packFlags (by omega) hi]
  have hge : n ≤ i := by
    by_contra hlt
    have hone : (((1 : UInt64) <<< UInt64.ofNat n) - 1).toNat = 2 ^ n - 1 := by
      rw [UInt64.toNat_sub_of_le, toNat_one_shiftLeft hn]
      · rfl
      · rw [UInt64.le_iff_toNat_le, toNat_one_shiftLeft hn]
        exact Nat.one_le_two_pow
    have hbit : (highBits n).toNat.testBit i = false := by
      have hnot : UInt64.size - 1 - (2 ^ n - 1) = 2 ^ 64 - ((2 ^ n - 1) + 1) := by
        simp only [UInt64.size]
        omega
      have hpow : 2 ^ n - 1 < 2 ^ 64 := by
        have := Nat.pow_lt_pow_right (show 1 < 2 by decide) hn
        omega
      rw [highBits, UInt64.toNat_not, hone, hnot, Nat.testBit_two_pow_sub_succ hpow,
        Nat.testBit_two_pow_sub_one]
      simp
      omega
    rw [hbit] at hmask
    cases hmask
  rw [getD_eq_default _ _ (by omega)]

theorem parseOracleSection_oracleWords (value : CP2CommitOracleResult) :
    parseOracleSection (appendWords (oracleWords value)) = some value := by
  have hfirst : firstWords (appendWords (oracleWords value)) 12 = some (oracleWords value) :=
    firstWords_appendWords (oracleWords value)
  have hsize : ¬ (appendWords (oracleWords value)).length ≠ 12 * 8 := by
    rw [length_appendWords]
    exact not_not.mpr rfl
  have hflags : word (oracleWords value) 1 = packFlags (oracleFlags value) := rfl
  have hhigh : ¬ packFlags (oracleFlags value) &&& highBits 11 ≠ 0 :=
    not_not.mpr (packFlags_and_highBits rfl (by decide))
  have hstatus : enumOfWire CP2CommitOracleStatus (word (oracleWords value) 0) = some value.status :=
    enumOfWire_enumWire _
  have hflag : ∀ i < 11, hasFlag (packFlags (oracleFlags value)) i = (oracleFlags value).getD i false :=
    fun i hi => hasFlag_packFlags (by simp [oracleFlags]) (by omega)
  unfold parseOracleSection
  rw [if_neg hsize, hfirst]
  simp only [Option.bind_eq_bind, Option.bind_some, hstatus, hflags, if_neg hhigh,
    hflag 0 (by decide), hflag 1 (by decide), hflag 2 (by decide), hflag 3 (by decide),
    hflag 4 (by decide), hflag 5 (by decide), hflag 6 (by decide), hflag 7 (by decide),
    hflag 8 (by decide), hflag 9 (by decide), hflag 10 (by decide)]
  rfl

end Bravo.Journal
