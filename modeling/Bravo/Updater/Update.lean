import Bravo.Shadow.NonInterference
import Bravo.Updater.Pipeline

/-! # `UpdaterMSCKF::update`

The rest of the call: compression, the two-pass branch, the preflight, the ordinary commit, the
recorded commit, the handlers around all of it and the entry.
-/

namespace Bravo.Updater

open Bravo.Trace Bravo.Journal Bravo.Shadow

variable {σ : Type}

/-! ## Control -/

/-- `try`/`catch`: an exception does not undo what was done before it. -/
def catching {α : Type} (x : Update σ α) (handler : Exn → Update σ α) : Update σ α := fun s =>
  match x s with
  | .ok a t => .ok a t
  | .error e t => handler e t

/-- A block behind the activity guard: the flag is cleared however the block ends. -/
def guarded {α : Type} (x : Update σ α) : Update σ α := fun s =>
  match x s with
  | .ok a t => .ok a { t with updater := { t.updater with updateActive := false } }
  | .error e t => .error e { t with updater := { t.updater with updateActive := false } }

theorem wp_catching {α : Type} {x : Update σ α} {handler : Exn → Update σ α} {Q : α → Call σ → Prop}
    {E : Exn → Call σ → Prop} {s : Call σ} :
    wp (catching x handler) Q E s ↔ wp x Q (fun e t => wp (handler e) Q E t) s := by
  simp only [wp, catching, EStateM.run]
  cases x s <;> rfl

def Call.deactivate (s : Call σ) : Call σ :=
  { s with updater := { s.updater with updateActive := false } }

theorem wp_guarded {α : Type} {x : Update σ α} {Q : α → Call σ → Prop} {E : Exn → Call σ → Prop}
    {s : Call σ} :
    wp (guarded x) Q E s ↔
      wp x (fun a t => Q a t.deactivate) (fun e t => E e t.deactivate) s := by
  simp only [wp, guarded, EStateM.run]
  cases x s <;> rfl

/-! ## The detached batch -/

variable (C : Callees σ)

/-- The constructor of `MSCKFDetachedFeatureBatch`. -/
def detachFeatures : Update σ Unit := do
  let s ← get
  if s.featureVec.any (· == .null) then throw (.fault .exception)
  else do
    call C.allocateBatch
    modify fun s => { s with
      batch := some {
        entries := s.featureVec
        active := (List.range s.featureVec.length).map .working }
      heap := fun p =>
        match p with
        | .working i => s.heap (s.featureVec.getD i .null)
        | p => s.heap p }

def MSCKFDetachedFeatureBatch.source (batch : MSCKFDetachedFeatureBatch) : FeaturePtr → Option Nat
  | .working i => if i < batch.entries.length then some i else none
  | _ => none

def cloneActive : Update σ MSCKFDetachedFeatureSet := do
  let s ← get
  match s.batch with
  | none => throw (.fault .exception)
  | some batch =>
    match batch.active.mapM batch.source with
    | none => throw (.fault .exception)
    | some sources => return ⟨batch.active.map fun p => some (s.heap p), sources⟩

/-- The loop of `AdoptGeometry`. -/
def adoptLoop (batch : MSCKFDetachedFeatureBatch) :
    List FeaturePtr → List (Option Feature) → List Nat → Update σ Unit
  | p :: active, some candidate :: features, source :: sources => do
    let s ← get
    if batch.source p ≠ some source || !featureObservationsEqual candidate (s.heap p) then
      throw (.fault .exception)
    else do
      writeFeature (.working source) ((s.heap (.working source)).adopt candidate)
      adoptLoop batch active features sources
  | [], _, _ => pure ⟨⟩
  | _, _, _ => throw (.fault .exception)

def adoptGeometry (selected : MSCKFDetachedFeatureSet) : Update σ Unit := do
  let s ← get
  match s.batch with
  | none => throw (.fault .exception)
  | some batch =>
    if selected.features.length ≠ batch.active.length ||
        selected.sourceIndices.length ≠ batch.active.length then throw (.fault .exception)
    else adoptLoop batch batch.active selected.features selected.sourceIndices

def prepareFinalization : Update σ Unit := do
  let s ← get
  match s.batch with
  | none => pure ⟨⟩
  | some batch =>
    if batch.prepared then pure ⟨⟩
    else if batch.finalized then throw (.fault .exception)
    else do
      call C.prepareFinalization
      match batch.active.mapM batch.source with
      | none => throw (.fault .exception)
      | some sources =>
        modify fun s => { s with batch := some { batch with
          finalActive := sources.map fun i => batch.entries.getD i .null
          prepared := true } }

/-- The moves of `FinalizePrepared`, entry by entry. -/
def moveEntries (heap : FeaturePtr → Feature) (entries : List FeaturePtr) : FeaturePtr → Feature :=
  (entries.zipIdx).foldl (fun h entry => Function.update h entry.1 (heap (.working entry.2))) heap

def finalizeOrdinaryFeatures : Update σ Unit := do
  let s ← get
  match s.batch with
  | none => pure ⟨⟩
  | some _ =>
    if s.finalizations ≠ 0 then throw (.fault .exception)
    else do
      prepareFinalization C
      modify fun s =>
        match s.batch with
        | none => s
        | some batch => { s with
            heap := moveEntries s.heap batch.entries
            featureVec := batch.finalActive
            batch := some { batch with finalized := true }
            finalizations := s.finalizations + 1 }

/-! ## Ordinary commit -/

def commitOrdinaryUpdate : Update σ Bool := do
  let s ← get
  if s.batch.isNone || s.meanCommits != 0 || s.covarianceCommits != 0 then return false
  else
    match C.commitPrecomputed s.state with
    | none => do
      modify fun s => { s with commitCalls := s.commitCalls ++ [false] }
      return false
    | some state => do
      modify fun s => { s with
        state := state
        commitCalls := s.commitCalls ++ [true]
        meanCommits := s.meanCommits + 1
        covarianceCommits := s.covarianceCommits + 1 }
      return true

/-- The rollback of an ordinary call: the caller reads an empty vector as nothing consumed. -/
def failOrdinary (subreason : CP2UpdateTerminalSubreason) : Update σ Unit := do
  clearFeatureVec
  finishUpdate C .kInternalFailure subreason

def rejectOrdinary (status : CP2UpdateTerminalStatus)
    (subreason : CP2UpdateTerminalSubreason) : Update σ Unit := do
  finalizeOrdinaryFeatures C
  finishUpdate C status subreason

/-- From the prepared finalization to the end: the prior is matched once more, then the one commit.
`preflight` is what the one-pass branch has set before and the two-pass branch sets here. -/
def commitOrdinary : Update σ Unit := do
  prepareFinalization C
  if !(← call C.precommitMatch) then failOrdinary C .kSnapshotMismatch
  else do
    modify fun s => { s with
      event := { s.event with baselinePreflightAccepted := true }
      liveCommitStarted := true }
    if !(← commitOrdinaryUpdate C) then do
      modify fun s => { s with liveCommitStarted := false }
      failOrdinary C .kTraceInvariantFailure
    else do
      finalizeOrdinaryFeatures C
      modifyEvent fun event =>
        let event := captureDuration C event
        { event with
          terminalStatus := if event.timingEndpointValid then .kCommittedCounted
            else .kInternalFailure
          terminalSubreason := if event.timingEndpointValid then .kNone
            else .kTraceInvariantFailure
          baselineCommitOccurred := true }
      let s ← get
      notifyObserver C s.event

/-! ## Two passes -/

/-- `msckf_preview_layout_from_order` -/
def previewLayoutFromOrder : Int → Order → Option (List MSCKFUpdatePreviewBlock)
  | _, [] => some []
  | _, none :: _ => none
  | offset, some v :: rest =>
    if v.id.toInt < 0 ∨ v.size.toInt ≤ 0 ∨ (indexLimit : Int) ≤ offset + v.size.toInt then none
    else (previewLayoutFromOrder (offset + v.size.toInt) rest).map fun blocks =>
      ⟨v.id.toInt, v.size.toInt, offset⟩ :: blocks

def rejectTwoPass : Update σ Unit :=
  rejectOrdinary C .kPreflightRejected .kBaselinePreflightRejected

def runSecondPass (passOne : MSCKFTwoPassCost) : Update σ SecondPass :=
  catching
    (do
      let clone ← cloneActive
      call (C.passTwo clone))
    fun _ => return ⟨false, passOne⟩

def selectPass (passOne : MSCKFTwoPassCost) : Update σ Unit := do
  let second ← runSecondPass C passOne
  let two := second.valid && second.cost.valid && C.passTwoAccepted passOne second.cost
  if !(← call (C.selectedCovariance two)) then rejectTwoPass C
  else if !C.selectedMeanParity two then rejectTwoPass C
  else do
    adoptGeometry (if two then second.cost.geometry else passOne.geometry)
    commitOrdinary C

def twoPassUpdate (H : MatrixXd) (residual : VectorXd) : Update σ Unit := do
  modifyEvent fun event => { event with baselinePreflightAttempted := true }
  let s ← get
  match previewLayoutFromOrder 0 s.system.Hx_order_big with
  | none | some [] => rejectTwoPass C
  | some layout =>
    if !(← call (C.priorFactor s.priorSnapshot.covariance)) then rejectTwoPass C
    else if !(← call (C.passOneMean layout H residual)) then rejectTwoPass C
    else do
      let clone ← cloneActive
      let passOne ← call (C.passOneCost clone)
      if !passOne.valid then rejectTwoPass C else selectPass C passOne

/-! ## Recorded commit -/

def unplanCommit : Update σ Unit :=
  modifyEvent fun event => { event with shadow := { event.shadow with baselineCommitPlanned := false } }

/-- The noncommit of a proposal that was planned. -/
def abandonCommit : Update σ Unit := do
  unplanCommit
  finishRecordedNoncommit C .kInternalFailure .kTraceInvariantFailure

inductive CP2CommitBoundaryStatus
  | kProofRejected
  | kCommittedFillSucceeded
  | kCommittedFillFailed
  | kCommittedEndpointInvalid
deriving DecidableEq, Repr

/-- `postcommit_fill_and_handoff` -/
def postcommitFill (p : Postcommit) : Bool := p.fillAccepted && p.handoffAccepted

/-- `CP2CommitBoundary::run`: proof, commit, endpoint, fill. -/
def commitBoundary : Update σ CP2CommitBoundaryStatus := do
  if !(← call C.finalPointerProof) then return .kProofRejected
  else do
    let s ← get
    let written := C.ekfUpdate s.state
    modify fun s => { s with state := written.1 }
    call written.2
    return if !C.finish.valid then .kCommittedEndpointInvalid
      else if postcommitFill C.postcommit then .kCommittedFillSucceeded
      else .kCommittedFillFailed

def publishCommitted (phase2 phase3 : CP2CompositeStateSnapshot)
    (typeUpdateCalls : UInt64) : Update σ Unit := do
  modifyRecord fun record => { record with phase01PointerGraphEqual := true }
  modifyEvent fun event => captureDuration C { event with
    terminalStatus := .kCommittedCounted
    terminalSubreason := .kNone
    baselineCommitOccurred := true }
  let s ← get
  if !s.event.timingEndpointValid then
    latchTraceFatal .kArithmeticInvariant "CP2 committed duration is not representable"
  else do
    let payload ← callOrLatch (C.encodeSnapshot phase3) .kRequiredEncoding
      "CP2 phase 3 payload encoding failed"
    modifyRecord fun record => { setPhase record 3 ⟨.kPhase3LivePostcommit, some phase3, payload⟩ with
      statePhaseCount := 4 }
    let phase0 := s.phase0.getD phase2
    let oracle ← call (C.compare phase0 phase2 phase3 typeUpdateCalls)
    if oracle.status = .kArithmeticOverflow then
      latchTraceFatal .kArithmeticInvariant "CP2 commit-oracle arithmetic overflowed"
    else if oracle.status = .kInvalidPhase then
      latchTraceFatal .kPostcommitException "CP2 commit-oracle phase input is invalid"
    else do
      modifyRecord fun record => { record with
        baselineCommitOracle := oracle
        baselineCommitOracleAvailable := true
        baselineCommitMismatch := !oracle.passed
        baselineCommitCount := 1
        baselineMeanCommitCount := 1
        baselineCovarianceCommitCount := 1
        onlineMathEvidencePassed := s.shadowTraceValid && s.shadowMathValid &&
          s.baselineProvenanceEqual && record.candidateProposalPayloadAvailable &&
          s.event.baselineGammaStatus != .kNonfinite &&
          s.event.shadow.result.schur.gammaStatus != .kNonfinite && oracle.passed
        update := s.event }
      publishRecord C

def commitRecorded (phase2 : CP2CompositeStateSnapshot) (payload2 : List UInt8)
    (typeUpdateCalls : UInt64) : Update σ Unit := do
  callOrLatch C.ownPostcommitPhases .kRequiredEncoding
    "CP2 could not own the precommit phase buffers"
  modifyRecord fun record =>
    setPhase (setPhase record 2 ⟨.kPhase2ExpectedPostcommit, some phase2, payload2⟩) 3
      ⟨.kPhase3LivePostcommit, none, []⟩
  modify fun s => { s with liveCommitStarted := true }
  let status ← commitBoundary C
  if status = .kProofRejected then do
    modify fun s => { s with liveCommitStarted := false }
    modifyRecord fun record =>
      { setPhase record 2 ⟨.kPhase2ExpectedPostcommit, none, []⟩ with
        phase01PointerGraphEqual := false
        statePhaseCount := 2 }
    unplanCommit
    publishInstalledRecordedNoncommit C .kInternalFailure .kSnapshotMismatch
  else
    match C.postcommit.snapshot with
    | none =>
      latchTraceFatal .kPostcommitCapture "CP2 postcommit capture or handoff is incomplete"
    | some phase3 =>
      if status ≠ .kCommittedFillSucceeded then
        latchTraceFatal .kPostcommitCapture "CP2 postcommit capture or handoff is incomplete"
      else publishCommitted C phase2 phase3 typeUpdateCalls

def prepareRecordedCommit (phase2 : CP2CompositeStateSnapshot)
    (typeUpdateCalls : UInt64) : Update σ Unit := do
  let payload2 ← callOrLatch (C.encodeSnapshot phase2) .kRequiredEncoding
    "CP2 phase 2 payload encoding failed"
  if !(← call C.preparePostcommit) then abandonCommit C
  else do
    let (snapshot, payload, equal) ← captureRecordedPhase1 C
    if !equal then do
      let pointerEqual ← call C.pointerGraphMatches
      installRecordedPhase01 C (snapshot, payload) false pointerEqual
      unplanCommit
      publishInstalledRecordedNoncommit C .kInternalFailure .kSnapshotMismatch
    else do
      installRecordedPhase01 C (snapshot, payload) true false
      commitRecorded C phase2 payload2 typeUpdateCalls

/-- The accepted proposal of recorded mode. -/
def recordedCommit (preview : MSCKFUpdatePreviewResult) : Update σ Unit := do
  let payload ← callOrLatch (C.encodeProposal (proposalPayload preview)) .kRequiredEncoding
    "CP2 live baseline proposal encoding failed"
  modify fun s => { s with
    baselineProvenanceEqual := s.baselineProvenanceEqual && s.shadowProposalPayload == some payload
    record := { s.record with
      baselineProposalPayload := payload
      baselineProposalPayloadAvailable := true } }
  let s ← get
  if !s.shadowTraceValid || !s.baselineProvenanceEqual then abandonCommit C
  else
    match s.phase0 with
    | none => throw (.fault .exception)
    | some phase0 => do
      match ← call (C.buildExpected phase0 preview) with
      | none => abandonCommit C
      | some (phase2, typeUpdateCalls) =>
        if !(← call (C.validate phase2)) then abandonCommit C
        else prepareRecordedCommit C phase2 typeUpdateCalls

/-! ## Preflight -/

/-- `cp2_preview_diagnostics_equal` -/
def previewDiagnosticsEqual (left right : MSCKFUpdatePreviewDiagnostics) : Bool :=
  left.status == right.status && left.stage == right.stage &&
    left.stateDimension == right.stateDimension &&
    left.measurementDimension == right.measurementDimension &&
    left.jacobianDimension == right.jacobianDimension &&
    left.orderedJacobianDimension == right.orderedJacobianDimension &&
    left.offendingOrderIndex == right.offendingOrderIndex &&
    left.offendingDiagonalIndex == right.offendingDiagonalIndex &&
    left.minimumPosteriorDiagonalAvailable == right.minimumPosteriorDiagonalAvailable &&
    (!left.minimumPosteriorDiagonalAvailable ||
      left.minimumPosteriorDiagonal == right.minimumPosteriorDiagonal) &&
    left.jitterCount == right.jitterCount && left.repairCount == right.repairCount &&
    left.alternateSolveCount == right.alternateSolveCount && left.clampCount == right.clampCount &&
    left.regularizationCount == right.regularizationCount &&
    left.fallbackCount == right.fallbackCount

/-- `cp2_compressed_baseline_equal` -/
def compressedBaselineEqual (shadow : GlobalMode) (H : MatrixXd) (residual : VectorXd)
    (layout : List MSCKFUpdatePreviewBlock) : Bool :=
  shadow.compressedRows == Int64.ofNat H.rows && shadow.H_compressed == H &&
    shadow.residualCompressed == residual && shadow.jacobianLayout == layout

def requireEmptyShadow : Update σ Unit :=
  modify fun s => { s with
    baselineProvenanceEqual := s.baselineProvenanceEqual &&
      s.shadowResult.nullspace.compressedRows == 0 &&
      !s.shadowResult.nullspace.proposalAvailable && s.shadowProposalPayload.isNone }

def notePreview (preview : MSCKFUpdatePreviewResult) (planned : Bool) : Update σ Unit :=
  modifyEvent fun event =>
    if event.shadowEvidenceAvailable then
      { event with shadow := { event.shadow with
          baselinePreviewAvailable := true
          liveNullspaceProposal := preview
          baselineCommitPlanned := planned || event.shadow.baselineCommitPlanned } }
    else event

def comparePreview (H : MatrixXd) (residual : VectorXd) (layout : List MSCKFUpdatePreviewBlock)
    (preview : MSCKFUpdatePreviewResult) : Update σ Unit :=
  modify fun s => { s with
    baselineProvenanceEqual := s.baselineProvenanceEqual &&
      compressedBaselineEqual s.shadowResult.nullspace H residual layout &&
      s.shadowResult.nullspace.proposalAvailable == preview.accepted &&
      s.shadowProposalPayload.isSome == preview.accepted &&
      previewDiagnosticsEqual s.shadowResult.nullspace.proposal.diagnostics preview.diagnostics }

variable (options : UpdaterOptions) (recorded : Bool)

def onePassUpdate (H : MatrixXd) (residual : VectorXd) : Update σ Unit := do
  modifyEvent fun event => { event with baselinePreflightAttempted := true }
  let s ← get
  match capturePreviewLayout s.system.Hx_order_big with
  | .error _ =>
    if recorded then finishRecordedNoncommit C .kInternalFailure .kTraceInvariantFailure
    else throw (.fault .overflowError)
  | .ok layout => do
    let preview ← call (C.preview s.priorSnapshot layout H residual
      (scaledIdentity C.arithmetic options.sigmaPixSq residual.rows))
    onlyIf recorded (comparePreview H residual layout preview)
    if !preview.accepted then do
      notePreview preview false
      if recorded then finishRecordedNoncommit C .kPreflightRejected .kBaselinePreflightRejected
      else rejectOrdinary C .kPreflightRejected .kBaselinePreflightRejected
    else do
      modifyEvent fun event => { event with baselinePreflightAccepted := true }
      notePreview preview true
      if recorded then recordedCommit C preview else commitOrdinary C

/-! ## The linear system -/

def allRejectedSubreason (afterCleaning afterTriangulation : Bool) (rawSystemCount : UInt64) :
    CP2UpdateTerminalSubreason :=
  if !afterCleaning then .kNoFeaturesAfterCleaning
  else if !afterTriangulation then .kNoFeaturesAfterTriangulation
  else if rawSystemCount = 0 then .kNoRawSystems
  else .kAllBaselineFeaturesRejected

/-- The exit without a row. -/
def leaveAllRejected (recorded afterCleaning afterTriangulation : Bool) : Update σ Unit := do
  let s ← get
  onlyIf (recorded && s.event.rawSystemCount != 0) requireEmptyShadow
  let subreason := allRejectedSubreason afterCleaning afterTriangulation s.event.rawSystemCount
  if recorded then
    if s.event.rawSystemCount = 0 then finishRecordedZeroRaw C .kAllRejected subreason
    else finishRecordedNoncommit C .kAllRejected subreason
  else rejectOrdinary C .kAllRejected subreason

/-- The rows before compression enter the event. `ct_meas` is not negative. -/
def notePrecompressionRows : Update σ Unit :=
  modify fun s =>
    if s.event.rawSystemCount = 0 then s
    else { s with
      event := { s.event with
        baselinePrecompressionRowsAvailable := true
        baselinePrecompressionRows := UInt64.ofNat s.system.ctMeas.toNat
        baselinePrecompressionSystemNonempty := decide (0 < s.system.ctMeas) }
      baselineProvenanceEqual := s.baselineProvenanceEqual &&
        (!recorded || s.shadowResult.nullspace.precompressionRows.toInt == s.system.ctMeas) }

def compressAndUpdate : Update σ Unit := do
  call C.compress
  let s ← get
  let trimmed := s.system.trim C.arithmetic
  let compressed := measurementCompress C.arithmetic trimmed.1 trimmed.2
  modifyEvent fun event => { event with
    baselineCompressedRowsAvailable := true
    baselineCompressedRows := UInt64.ofNat compressed.1.rows }
  if compressed.1.rows < 1 then
    if recorded then do
      requireEmptyShadow
      finishRecordedNoncommit C .kEmptyAfterCompression .kMeasurementCompressionEmpty
    else rejectOrdinary C .kEmptyAfterCompression .kMeasurementCompressionEmpty
  else do
    modifyEvent fun event => { event with baselineCompressedSystemNonempty := true }
    if !recorded && decide (options.maxVisualPasses = 2) &&
        decide (options.landmarkElimination = .SCHUR) then
      twoPassUpdate C compressed.1 compressed.2
    else onePassUpdate C options recorded compressed.1 compressed.2

def updateWithSystem (afterCleaning afterTriangulation : Bool) : Update σ Unit := do
  let s ← get
  onlyIf (!s.shadowInput.rawSystems.isEmpty) (runShadow C recorded)
  let s ← get
  markRemaining s.proposalVec
  notePrecompressionRows recorded
  let s ← get
  if s.system.ctMeas < 1 then leaveAllRejected C recorded afterCleaning afterTriangulation
  else compressAndUpdate C options recorded

/-! ## The body -/

def prepareShadow (table : ChiSquaredTable) (recorded shadowEnabled : Bool) : Update σ Unit := do
  onlyIf recorded do
    let phase0 ← call (C.capture .kPhase0Prior)
    modify fun s => { s with phase0 := phase0 }
  onlyIf shadowEnabled (modify fun s => { s with shadowInput := {
    prior := if recorded then {} else s.priorSnapshot
    rawSystems := []
    sigmaPx := options.sigmaPix
    sigmaPxSq := options.sigmaPixSq
    chi2Multiplier := options.chi2Multiplier
    chiSquaredTable := table } })

/-- The prior and the batch of ordinary mode. False if the call has returned. -/
def enterOrdinary : Update σ Bool := do
  let prior ← call C.capturePrior
  if !(← call C.entryMatch) then do
    failOrdinary C .kSnapshotMismatch
    return false
  else if options.maxVisualPasses = 2 ∧
      ¬ (options.landmarkElimination = .SCHUR ∧ C.visualContractSupported = true) then do
    failOrdinary C .kInvalidLiveMode
    return false
  else do
    detachFeatures C
    modify fun s => { s with priorSnapshot := prior }
    return true

/-- Cleaning, triangulation and the feature loop. The result is what is known about the features
after the first two, unless the call has returned. -/
def runPipeline (table : ChiSquaredTable)
    (recorded shadowEnabled : Bool) : Update σ (Option (Bool × Bool)) := do
  if !(← cleanFeatures C recorded) then return none
  else do
    let s ← get
    let afterCleaning := !s.proposalVec.isEmpty
    call C.cameraPoses
    let _ ← triangulateFeatures C options.refineFeatures
    let s ← get
    let afterTriangulation := !s.proposalVec.isEmpty
    match capacityOf C (s.proposalVec.map s.heap) with
    | none => do
      leaveZeroRaw C recorded
      return none
    | some capacity => do
      call C.allocateSystem
      modify fun s => { s with system := .allocate capacity }
      prepareShadow C options table recorded shadowEnabled
      if !(← processFeatures C options recorded shadowEnabled capacity) then return none
      else return some (afterCleaning, afterTriangulation)

/-- The block inside `try`. -/
def updateBody (table : ChiSquaredTable) (recorded shadowEnabled : Bool) : Update σ Unit := do
  let s ← get
  if s.featureVec.isEmpty then
    if recorded then finishRecordedZeroRaw C .kEmptyInput .kInputEmpty
    else finishUpdate C .kEmptyInput .kInputEmpty
  else do
    let entered ← (if recorded then pure true else enterOrdinary C options)
    if !entered then pure ⟨⟩
    else do
      match ← runPipeline C options table recorded shadowEnabled with
      | none => pure ⟨⟩
      | some (afterCleaning, afterTriangulation) =>
        updateWithSystem C options recorded afterCleaning afterTriangulation

def handlerReason (f : Fault) (liveCommitStarted : Bool) : CP2TraceFatalReason × String :=
  match f with
  | .overflowError => (.kArithmeticInvariant,
      if liveCommitStarted then "CP2 checked arithmetic failed after live commit entry"
      else "CP2 checked arithmetic made the authoritative trace incomplete")
  | .exception => (if liveCommitStarted then .kPostcommitException else .kRequiredEncoding,
      if liveCommitStarted then "CP2 exception after live commit entry"
      else "CP2 authoritative update trace is incomplete")
  | .unknown => (if liveCommitStarted then .kPostcommitException else .kRequiredEncoding,
      if liveCommitStarted then "CP2 unknown exception after live commit entry"
      else "CP2 authoritative update trace failed with an unknown exception")

def handle : Exn → Update σ Unit
  | .fatal reason message => throw (.fatal reason message)
  | .fault f => do
    let s ← get
    if recorded then
      latchTraceFatal (handlerReason f s.liveCommitStarted).1
        (handlerReason f s.liveCommitStarted).2
    else if s.liveCommitStarted then throw (.fault f)
    else failOrdinary C .kTraceInvariantFailure

/-! ## Entry -/

def startEvent (context : Option (CP2UpdateInvocationContext × UInt64)) (features : Nat) :
    CP2LiveUpdateEvent :=
  match context with
  | none => { inputFeatureCount := UInt64.ofNat features }
  | some (context, id) => {
      invocationContextAvailable := true
      sequenceIndex := context.sequenceIndex
      pairIndex := context.pairIndex
      cameraTimestampNs := context.cameraTimestampNs
      invocationId := id
      inputFeatureCount := UInt64.ofNat features }

/-- Take the pending context; the result is the context with its invocation id, and whether the
counter overflowed. -/
def UpdaterMSCKF.consumeContext (u : UpdaterMSCKF) :
    Option (CP2UpdateInvocationContext × UInt64) × Bool × UpdaterMSCKF :=
  match u.pendingInvocationContext with
  | none => (none, false, u)
  | some context =>
    let overflow := decide (u.nextInvocationId.toNat + 1 = 2 ^ 64)
    (some (context, u.nextInvocationId), overflow, { u with
      pendingInvocationContext := none
      nextInvocationId := if overflow then 0 else u.nextInvocationId + 1 })

/-- Behind the activity guard: the context, the configuration checks, then the guarded body. -/
def activeUpdate : Update σ Unit := do
  let s ← get
  let options := s.updater.options
  let recorded := s.updater.recordedSink
  let shadowEnabled := recorded || (s.updater.updateCallback && s.updater.shadowEnabled &&
    decide (options.landmarkElimination = .NULLSPACE))
  let (context, overflow, updater) := s.updater.consumeContext
  modify fun s => { s with updater := updater }
  if overflow then
    if recorded then
      latchTraceFatal .kArithmeticInvariant "CP2 invocation identity population exceeds u64"
    else throw (.fault .overflowError)
  else if recorded && context.isNone then
    latchTraceFatal .kConfigurationInvariant "CP2 recorded update requires invocation context"
  else if recorded && decide (options.landmarkElimination ≠ .NULLSPACE) then
    latchTraceFatal .kConfigurationInvariant "CP2 recorded mode requires nullspace live mode"
  else do
    onlyIf recorded (callOrLatch C.allocateRecord .kRequiredEncoding
      "CP2 could not allocate the owning update record")
    modify fun s => { s with
      event := startEvent context s.featureVec.length
      shadowTraceValid := !recorded
      shadowMathValid := !recorded
      baselineProvenanceEqual := !recorded }
    catching (updateBody C options s.updater.chiSquaredTable recorded shadowEnabled)
      (handle C recorded)

/-- `UpdaterMSCKF::update`, on the world it is called in. -/
def update : Update σ Unit := do
  let s ← get
  let (entered, updater) := enter C.start s.updater
  modify fun s => { s with updater := updater }
  match entered with
  | .error e => throw e
  | .ok _ => guarded (activeUpdate C)

inductive CallResult
  | returned
  | threw (e : Exn)
deriving DecidableEq, Repr

/-- A call of `update` from outside. -/
def runUpdate (w : World σ) : CallResult × World σ :=
  match update C { toWorld := w } with
  | .ok _ s => (.returned, s.toWorld)
  | .error e s => (.threw e, s.toWorld)

/-! ## A small instance -/

def unitPreview : MSCKFUpdatePreviewResult := { diagnostics := { status := .kAccepted } }

def unitShadow (input : CP2ShadowMathInput) : ShadowResult where
  traversalComplete := true
  rawLayoutsValid := true
  nullspaceAssemblyValid := true
  features := input.rawSystems.map
    (Shadow.processFeature unitArithmetic (shadowPaths unitArithmetic fun _ _ _ _ => {}) input)
  nullspace := {
    acceptedIds := [0]
    gammaStatus := .kAvailable
    retainedGamma := ⟨0⟩
    precompressionRows := 1
    compressedRows := 1
    H_compressed := unitMatrix
    residualCompressed := .zero 1
    jacobianLayout := [⟨0, 1, 0⟩]
    proposal := unitPreview
    proposalAvailable := true }

/-- Every feature with two measurements gives one row that passes the gate, and the update commits. -/
def unitCallees : Callees Unit where
  arithmetic := unitArithmetic
  start := ⟨1, true⟩
  finish := ⟨2, true⟩
  allocateRecord := .ok ⟨⟩
  capturePrior := .ok {}
  visualContractSupported := true
  entryMatch := .ok true
  precommitMatch := .ok true
  allocateBatch := .ok ⟨⟩
  cloneTimes := [⟨0⟩]
  cameraPoses := .ok ⟨⟩
  triangulate _ f := (f, .ok true)
  refine _ f := (f, .ok true)
  maxCovarianceSize := 1
  landmarkSizes := []
  allocateSystem := .ok ⟨⟩
  jacobian _ _ := .ok ⟨.zero 4 3, .zero 4 1, .zero 4, [some ⟨1, 0, 1⟩]⟩
  schurReduce _ _ _ _ := .error .exception
  nullspace _ _ _ _ := .ok (unitMatrix, .zero 1)
  gate _ _ := .ok { lifecycleAccept := true }
  compress := .ok ⟨⟩
  preview _ _ _ _ _ := .ok unitPreview
  shadow input := .ok (unitShadow input)
  encodeRawSystem _ := .ok []
  encodeProposal _ := .ok []
  encodeSnapshot _ := .ok []
  capture phase := .ok (some (sampleSnapshot phase))
  validate _ := .ok true
  projectPreview _ := .ok (some {})
  canonicallyEqual _ _ := .ok true
  pointerGraphMatches := .ok true
  buildExpected snapshot _ := .ok (some (snapshot, 1))
  preparePostcommit := .ok true
  ownPhases := .ok ⟨⟩
  ownPostcommitPhases := .ok ⟨⟩
  finalPointerProof := .ok true
  ekfUpdate s := (s, .ok ⟨⟩)
  postcommit := ⟨true, true, some (sampleSnapshot .kPhase3LivePostcommit)⟩
  compare _ _ _ _ := .ok { status := .kComplete, passed := true }
  priorFactor _ := .ok true
  passOneMean _ _ _ := .ok true
  passOneCost _ := .error .exception
  passTwo _ := .error .exception
  passTwoAccepted _ _ := false
  selectedCovariance _ := .ok true
  selectedMeanParity _ := true
  prepareFinalization := .ok ⟨⟩
  commitPrecomputed s := some s
  publish _ := .kPublished
  sinkReentries := []
  observerReentries := []

def unitWorld : World Unit where
  updater := {
    options := ⟨.NULLSPACE, 1, one, one, one, false⟩
    chiSquaredTable := []
    recordedSink := true
    updateCallback := false
    shadowEnabled := false }
  state := ⟨⟩
  heap _ := { featid := 0, observations := [(0, [⟨⟨0⟩, [], []⟩, ⟨⟨0⟩, [], []⟩])] }
  featureVec := []

/-- An updater without a sink, and one live feature. -/
def unitOrdinary : World Unit :=
  { unitWorld with
    updater := { unitWorld.updater with recordedSink := false }
    featureVec := [.live 0] }

end Bravo.Updater
