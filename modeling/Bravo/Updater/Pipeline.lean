import Bravo.Updater.Call

/-! # The feature pipeline

The part of `UpdaterMSCKF::update` from the entry of a nonempty call to the linear system: cleaning,
triangulation, the capacity of the system, and the loop that linearizes, reduces and gates one
feature after the other. In ordinary mode the features are the working copies of a batch, in
recorded mode they are the live objects; the code is the same.
-/

namespace Bravo.Updater

open Bravo.Trace Bravo.Journal Bravo.Shadow

variable {σ : Type}

/-! ## Access -/

def writeFeature (p : FeaturePtr) (f : Feature) : Update σ Unit :=
  modify fun s => { s with heap := Function.update s.heap p f }

/-- `(*it)->to_delete = true` -/
def markDeleted (p : FeaturePtr) : Update σ Unit :=
  modify fun s => { s with heap := Function.update s.heap p { s.heap p with toDelete := true } }

def Call.proposalVec (s : Call σ) : List FeaturePtr :=
  match s.batch with
  | some batch => batch.active
  | none => s.featureVec

def Call.setProposalVec (s : Call σ) (features : List FeaturePtr) : Call σ :=
  match s.batch with
  | some batch => { s with batch := some { batch with active := features } }
  | none => { s with featureVec := features }

def clearFeatureVec : Update σ Unit := modify fun s => { s with featureVec := [] }

def nextTick : Update σ Nat := do
  let s ← get
  modify fun s => { s with tick := s.tick + 1 }
  return s.tick

/-! ## Loops over the features -/

/-- What the body of a loop does with its feature; `leave` has returned from `update`. -/
inductive Verdict
  | keep
  | drop
  | leave
deriving DecidableEq, Repr

/-- A loop with an iterator over `proposal_feature_vec`, which erases the features it drops; `kept`
are those before the iterator. The result says whether the loop ran to its end. -/
def sweep (body : FeaturePtr → Update σ Verdict) : List FeaturePtr → List FeaturePtr → Update σ Bool
  | _, [] => return true
  | kept, p :: rest => do
    match ← body p with
    | .keep => sweep body (kept ++ [p]) rest
    | .drop => do
      modify fun s => s.setProposalVec (kept ++ rest)
      sweep body kept rest
    | .leave => return false

variable (C : Callees σ) (recorded : Bool)

/-- The exit that a checked computation takes before the first raw system. -/
def leaveZeroRaw : Update σ Unit :=
  if recorded then finishRecordedZeroRaw C .kInternalFailure .kTraceInvariantFailure
  else throw (.fault .overflowError)

/-! ## Cleaning -/

/-- The body of the first loop. -/
def cleanFeature (p : FeaturePtr) : Update σ Verdict := do
  let s ← get
  let f := (s.heap p).cleanOldMeasurements C.cloneTimes
  writeFeature p f
  if 2 ^ 64 ≤ f.measurementCount then do
    leaveZeroRaw C recorded
    return .leave
  else if f.measurementCount < 2 then do
    markDeleted p
    return .drop
  else return .keep

def cleanFeatures : Update σ Bool := do
  let s ← get
  sweep (cleanFeature C recorded) [] s.proposalVec

/-! ## Triangulation -/

def initializeFeature (x : Nat → Feature → Feature × Except Fault Bool) (p : FeaturePtr) :
    Update σ Bool := do
  let n ← nextTick
  let s ← get
  let result := x n (s.heap p)
  writeFeature p result.1
  call result.2

def triangulateFeature (refineFeatures : Bool) (p : FeaturePtr) : Update σ Verdict := do
  let triangulated ← initializeFeature C.triangulate p
  let refined ← (if refineFeatures then initializeFeature C.refine p else pure true)
  if !triangulated || !refined then do
    markDeleted p
    return .drop
  else return .keep

def triangulateFeatures (refineFeatures : Bool) : Update σ Bool := do
  let s ← get
  sweep (triangulateFeature C refineFeatures) [] s.proposalVec

/-! ## Capacity -/

/-- The columns that the SLAM landmarks leave. -/
def excludeLandmarks : Int → List (Option Int) → Option Int
  | size, [] => some size
  | _, none :: _ => none
  | size, some landmark :: rest =>
    if landmark < 0 ∨ landmark > size then none else excludeLandmarks (size - landmark) rest

/-- `max_meas_size` and `max_hx_size`, where no check of their computation fails. -/
def capacityOf (features : List Feature) : Option Capacity :=
  let rows := (features.map fun f => 2 * f.measurementCount).sum
  if indexLimit ≤ rows ∨ C.maxCovarianceSize < 0 then none
  else (excludeLandmarks C.maxCovarianceSize C.landmarkSizes).map fun columns =>
    ⟨rows, columns.toNat⟩

/-! ## Recorded noncommits -/

/-- `CanonicallyEqual` with the capture of phase 0. -/
def canonicallyEqualPhase0 (phase0 : Option CP2CompositeStateSnapshot)
    (snapshot : CP2CompositeStateSnapshot) : Except Fault Bool :=
  match phase0 with
  | some phase0 => C.canonicallyEqual phase0 snapshot
  | none => .ok false

/-- `capture_recorded_phase1`: the snapshot of phase 1, its payload and `canonical_equal`. -/
def captureRecordedPhase1 : Update σ (CP2CompositeStateSnapshot × List UInt8 × Bool) := do
  match ← call (C.capture .kPhase1Precommit) with
  | none => latchTraceFatal .kPhase1Capture "CP2 phase 1 capture is incomplete"
  | some snapshot => do
    let payload ← callOrLatch (C.encodeSnapshot snapshot) .kRequiredEncoding
      "CP2 phase 1 payload encoding failed"
    let s ← get
    let equal ← call (canonicallyEqualPhase0 C s.phase0 snapshot)
    return (snapshot, payload, s.phase0Payload == payload && equal)

def setPhase (record : CP2RecordedUpdateEvent) (index : Nat) (phase : CP2EncodedStatePhase) :
    CP2RecordedUpdateEvent :=
  { record with
    statePhases := record.statePhases.set index phase
    statePhases_length := by rw [List.length_set]; exact record.statePhases_length }

/-- The snapshot pointer of a phase is null. -/
def phaseEmpty (record : CP2RecordedUpdateEvent) (index : Nat) : Bool :=
  ((record.statePhases[index]?).bind CP2EncodedStatePhase.snapshot).isNone

def installRecordedPhase01
    (phase1 : CP2CompositeStateSnapshot × List UInt8) (canonicalEqual pointerEqual : Bool) :
    Update σ Unit := do
  let s ← get
  if s.record.statePhaseCount ≠ 0 || !phaseEmpty s.record 0 || !phaseEmpty s.record 1 then
    latchTraceFatal .kConfigurationInvariant "CP2 phase 0/1 owning slots are not empty"
  else do
    callOrLatch C.ownPhases .kRequiredEncoding "CP2 could not own the complete phase 0/1 pair"
    modifyRecord fun record =>
      let record := setPhase record 0 ⟨.kPhase0Prior, s.phase0, s.phase0Payload⟩
      let record := setPhase record 1 ⟨.kPhase1Precommit, some phase1.1, phase1.2⟩
      { record with
        statePhaseCount := 2
        phase01CanonicalEqual := canonicalEqual
        phase01PointerGraphEqual := pointerEqual }

def noncommitStatus (s : Call σ) (status : CP2UpdateTerminalStatus)
    (subreason : CP2UpdateTerminalSubreason) :
    CP2UpdateTerminalStatus × CP2UpdateTerminalSubreason :=
  if !s.record.phase01CanonicalEqual || !s.record.phase01PointerGraphEqual then
    (.kInternalFailure, .kSnapshotMismatch)
  else if !s.shadowTraceValid || !s.baselineProvenanceEqual then
    (.kInternalFailure, .kTraceInvariantFailure)
  else (status, subreason)

def publishInstalledRecordedNoncommit (status : CP2UpdateTerminalStatus)
    (subreason : CP2UpdateTerminalSubreason) : Update σ Unit := do
  let s ← get
  if s.record.statePhaseCount ≠ 2 || phaseEmpty s.record 0 || phaseEmpty s.record 1 then
    latchTraceFatal .kRequiredEncoding "CP2 noncommit phase population is incomplete"
  else do
    let terminal := noncommitStatus s status subreason
    modifyEvent fun event => captureDuration C { event with
      terminalStatus := terminal.1, terminalSubreason := terminal.2 }
    let t ← get
    if !t.event.timingEndpointValid then
      latchTraceFatal .kArithmeticInvariant "CP2 noncommit duration is not representable"
    else do
      modifyRecord fun record => { record with
        onlineMathEvidencePassed := terminal.1 != .kInternalFailure &&
          s.event.baselineGammaStatus != .kNonfinite && s.shadowTraceValid && s.shadowMathValid &&
          s.baselineProvenanceEqual
        update := t.event }
      publishRecord C

def finishRecordedNoncommit (status : CP2UpdateTerminalStatus)
    (subreason : CP2UpdateTerminalSubreason) : Update σ Unit := do
  let s ← get
  if s.event.rawSystemCount = 0 then
    latchTraceFatal .kConfigurationInvariant "CP2 phase-pair finalizer requires raw evidence"
  else do
    let (snapshot, payload, equal) ← captureRecordedPhase1 C
    let pointerEqual ← call C.pointerGraphMatches
    installRecordedPhase01 C (snapshot, payload) equal pointerEqual
    publishInstalledRecordedNoncommit C status subreason

/-! ## The feature loop -/

def promotePhase0 : Update σ Unit := do
  let s ← get
  match s.phase0 with
  | none => latchTraceFatal .kPhase0Promotion "CP2 tentative phase 0 capture is incomplete"
  | some snapshot => do
    let payload ← callOrLatch (C.encodeSnapshot snapshot) .kPhase0Promotion
      "CP2 tentative phase 0 cannot be encoded"
    modify fun s => { s with phase0Payload := payload }
    let valid ← call (C.validate snapshot)
    let projection ← call (if valid then C.projectPreview snapshot else .ok none)
    match projection with
    | none =>
      latchTraceFatal .kPhase0Promotion "CP2 tentative phase 0 failed validation or projection"
    | some prior =>
      modify fun s => { s with
        priorSnapshot := prior
        shadowInput := { s.shadowInput with prior := prior }
        phase0Promoted := true }

def captureRawSystem (raw : CP2RawFeatureSystem) : Update σ Unit := do
  onlyIf recorded do
    let payload ← callOrLatch (C.encodeRawSystem raw) .kRequiredEncoding
      "CP2 raw-system payload encoding failed"
    modifyRecord fun record => { record with
      rawSystemPayloads := record.rawSystemPayloads ++ [payload] }
  modify fun s => { s with
    shadowInput := { s.shadowInput with rawSystems := s.shadowInput.rawSystems ++ [raw] } }

structure Reduced where
  H : MatrixXd
  residual : VectorXd
  gamma : Binary64
  evidence : Bool

def nullspaceReduced (A : Arithmetic) (sigmaPix : Binary64) (projected : MatrixXd × VectorXd) :
    Reduced :=
  let whitened := whitenVector A projected.2 sigmaPix
  let gamma := A.squaredNorm whitened
  ⟨projected.1, projected.2, gamma, projected.1.allFinite && projected.2.allFinite &&
    whitened.allFinite && gamma.isFinite⟩

variable (options : UpdaterOptions)

/-- The reduction of the live mode; `none` is a rejected one. The mode has been checked. -/
def reduceFeature (n : Nat) (l : Linearization) : Except Fault (Option Reduced) :=
  match options.landmarkElimination with
  | .SCHUR => do
    let r ← C.schurReduce n l.H_x l.H_f l.res
    return if r.accepted then some ⟨r.H_reduced, r.residualReduced, r.gamma, true⟩ else none
  | _ => do
    let projected ← C.nullspace n l.H_f l.H_x l.res
    return some (nullspaceReduced C.arithmetic options.sigmaPix projected)

def liveGateInput (prior : MSCKFUpdatePreviewSnapshot) (r : Reduced)
    (layout : List CP2FeatureGateLayoutBlock) : CP2FeatureGateInput where
  emittedSystemAvailable := true
  evidenceReductionAvailable := r.evidence
  H := r.H
  residual := r.residual
  priorCovariance := prior.covariance
  layout := layout
  sigmaPxSq := options.sigmaPixSq
  chi2Multiplier := options.chi2Multiplier

def acceptFeature (capacity : Capacity) (f : Feature) (r : Reduced)
    (order : Order) : Update σ Unit := do
  modify fun s => { s with
    event := { s.event with baselineAcceptedIds := s.event.baselineAcceptedIds ++ [f.featid] }
    system := s.system.addGamma C.arithmetic r.gamma }
  let s ← get
  let system ← checked (s.system.appendFeature capacity r.H r.residual order)
  modify fun s => { s with system := system }

def leaveInvalidMode : Update σ Unit :=
  if recorded then finishRecordedNoncommit C .kInternalFailure .kInvalidLiveMode
  else do
    clearFeatureVec
    finishUpdate C .kInternalFailure .kInvalidLiveMode

def linearizeFeature (recorded shadowEnabled : Bool) (f : Feature) :
    Update σ (Linearization × List CP2FeatureGateLayoutBlock) := do
  let s ← get
  onlyIf (recorded && !s.phase0Promoted) (promotePhase0 C)
  let n ← nextTick
  let l ← call (C.jacobian n f)
  let s ← get
  if s.event.rawSystemCount.toNat + 1 = 2 ^ 64 then throw (.fault .overflowError)
  else do
    modifyEvent fun event => { event with rawSystemCount := event.rawSystemCount + 1 }
    let layout ← checked (captureFeatureLayout l.Hx_order)
    onlyIf shadowEnabled (captureRawSystem C recorded ⟨f.featid, l.H_x, l.H_f, l.res, layout⟩)
    return (l, layout)

def processFeature (recorded shadowEnabled : Bool)
    (capacity : Capacity) (p : FeaturePtr) : Update σ Verdict := do
  let s ← get
  let f := s.heap p
  let (l, layout) ← linearizeFeature C recorded shadowEnabled f
  if options.landmarkElimination = .other then do
    leaveInvalidMode C recorded
    return .leave
  else do
    let n ← nextTick
    match ← call (reduceFeature C options n l) with
    | none => do
      markDeleted p
      return .drop
    | some r => do
      let s ← get
      let gate ← call (C.gate n (liveGateInput options s.priorSnapshot r layout))
      if !gate.lifecycleAccept then do
        markDeleted p
        return .drop
      else do
        acceptFeature C capacity f r l.Hx_order
        return .keep

/-- The loop, and the retained gamma behind it. -/
def processFeatures (recorded shadowEnabled : Bool) (capacity : Capacity) : Update σ Bool := do
  let s ← get
  let complete ← sweep (processFeature C options recorded shadowEnabled capacity) [] s.proposalVec
  onlyIf complete (modify fun s =>
    if s.event.rawSystemCount = 0 then s
    else { s with event := { s.event with
      baselineGammaStatus := if s.system.retainedGammaAvailable then .kAvailable else .kNonfinite
      baselineGamma := s.system.retainedGamma } })
  return complete

/-! ## The shadow -/

/-- `cp2_gamma_equal` -/
def gammaEqual (leftStatus : CP2GammaStatus) (left : Binary64) (rightStatus : CP2GammaStatus)
    (right : Binary64) : Bool :=
  leftStatus == rightStatus && (leftStatus != .kAvailable || left == right)

/-- `cp2_preview_counters_are_zero` -/
def previewCountersAreZero (d : MSCKFUpdatePreviewDiagnostics) : Bool :=
  d.jitterCount == 0 && d.repairCount == 0 && d.alternateSolveCount == 0 && d.clampCount == 0 &&
    d.regularizationCount == 0 && d.fallbackCount == 0

/-- `cp2_nullspace_reducer_counters_are_zero` -/
def nullspaceReducerCountersAreZero (c : CP2FeatureGateCounters) : Bool :=
  c.jitterCount == 0 && c.repairCount == 0 && c.alternateSolveCount == 0 && c.clampCount == 0 &&
    c.regularizationCount == 0 && c.silentFallbackCount == 0 && c.fallbackCount == 0

/-- `cp2_schur_reducer_counters_are_zero` -/
def schurReducerCountersAreZero (r : SchurReductionResult) : Bool :=
  r.jitterCount == 0 && r.clampCount == 0 && r.regularizationCount == 0 && r.fallbackCount == 0

def comparisonPassed (c : CP2StatisticComparison) : Bool := c.available && c.passed

/-- `cp2_shadow_math_evidence_passes` -/
def shadowMathEvidencePasses (r : CP2ShadowMathResult) : Bool :=
  r.traversalComplete && r.rawLayoutsValid && r.nullspaceAssemblyValid && r.schurAssemblyValid &&
    !r.duplicateFeatureId && r.nullspace.gammaStatus != .kNonfinite &&
    r.schur.gammaStatus != .kNonfinite &&
    (r.features.all fun f =>
      f.rawLayoutValid && nullspaceReducerCountersAreZero f.nullspace.counters &&
        schurReducerCountersAreZero f.schur &&
        (!f.statisticsComparisonRequired || (comparisonPassed f.lambdaComparison &&
          comparisonPassed f.etaComparison && comparisonPassed f.gammaComparison))) &&
    previewCountersAreZero r.nullspace.proposal.diagnostics &&
    previewCountersAreZero r.schur.proposal.diagnostics

/-- `cp2_proposal_payload` -/
def proposalPayload (proposal : MSCKFUpdatePreviewResult) : CP2ProposalTracePayload :=
  ⟨proposal.dx, proposal.P_plus⟩

def recordShadow (result : ShadowResult) : Update σ Unit := do
  let s ← get
  let count := s.event.shadow.rawSystems.length
  let traceValid := result.traversalComplete && result.features.length == count &&
    s.record.rawSystemPayloads.length == count
  modify fun s => { s with shadowTraceValid := traceValid }
  if !traceValid then
    latchTraceFatal .kShadowTrace "CP2 authoritative shadow traversal is incomplete"
  else do
    modify fun s => { s with
      shadowMathValid := shadowMathEvidencePasses result.toRecord
      baselineProvenanceEqual := result.rawLayoutsValid && !result.duplicateFeatureId &&
        result.nullspaceAssemblyValid && result.nullspace.acceptedIds == s.event.baselineAcceptedIds &&
        gammaEqual result.nullspace.gammaStatus result.nullspace.retainedGamma
          s.event.baselineGammaStatus s.event.baselineGamma }
    onlyIf result.nullspace.proposalAvailable do
      let payload ← callOrLatch (C.encodeProposal (proposalPayload result.nullspace.proposal))
        .kRequiredEncoding "CP2 baseline proposal encoding failed"
      modify fun s => { s with shadowProposalPayload := some payload }
    onlyIf result.schur.proposalAvailable do
      let payload ← callOrLatch (C.encodeProposal (proposalPayload result.schur.proposal))
        .kRequiredEncoding "CP2 candidate proposal encoding failed"
      modifyRecord fun record => { record with
        candidateProposalPayload := payload, candidateProposalPayloadAvailable := true }

def shadowExceptionMessage : Fault → String
  | .unknown => "CP2 authoritative shadow trace threw an unknown exception"
  | _ => "CP2 authoritative shadow trace threw an exception"

/-- The comparison of both modes. In ordinary mode an exception in it has no consequence. -/
def runShadow : Update σ Unit := do
  let s ← get
  modifyEvent fun event => { event with
    shadowEvidenceAvailable := true
    shadow := { event.shadow with rawSystems := s.shadowInput.rawSystems } }
  match C.shadow s.shadowInput with
  | .ok result => do
    modify fun s => { s with
      shadowResult := result
      event := { s.event with shadow := { s.event.shadow with
        result := result.toRecord, shadowMathCompleted := true } } }
    onlyIf recorded (recordShadow C result)
  | .error f => onlyIf recorded (latchTraceFatal .kShadowTrace (shadowExceptionMessage f))

/-- The features that remain are marked as well, so that their information is not used again. -/
def markRemaining : List FeaturePtr → Update σ Unit
  | [] => pure ⟨⟩
  | p :: rest => do
    markDeleted p
    markRemaining rest

end Bravo.Updater
