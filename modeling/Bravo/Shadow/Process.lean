import Bravo.Shadow.Gate

/-! # The shadow computation

`CP2ShadowMath::Process`: both reductions and both gates of every raw system, and for each of the
two modes the assembly of the accepted systems and its proposal. The results carry the matrices
that the journal leaves out; `toRecord` is the part that is journalled.
-/

namespace Bravo.Shadow

open Bravo.Trace Bravo.Journal

/-! ## Values -/

structure MSCKFUpdatePreviewBlock where
  covarianceId : Int := -1
  size : Int := 0
  offset : Int := -1
deriving DecidableEq, Repr

structure MSCKFUpdatePreviewSnapshot where
  covariance : MatrixXd := .empty
  stateBlocks : List MSCKFUpdatePreviewBlock := []

/-- `CP2NullspaceReductionResult` with its matrices. -/
structure NullspaceReduction extends CP2NullspaceReductionResult where
  H_reduced : MatrixXd := .empty
  residualReduced : VectorXd := .empty
  lambda : MatrixXd := .empty
  eta : VectorXd := .empty

def NullspaceReduction.accepted (r : NullspaceReduction) : Bool := r.status == .kAccepted

/-- `SchurReductionResult` with its matrices. -/
structure SchurReduction extends SchurReductionResult where
  H_reduced : MatrixXd := .empty
  residualReduced : VectorXd := .empty
  lambda : MatrixXd := .empty
  eta : VectorXd := .empty

def SchurReduction.accepted (r : SchurReduction) : Bool := r.status == .kAccepted

structure CP2ShadowMathInput where
  prior : MSCKFUpdatePreviewSnapshot := {}
  rawSystems : List CP2RawFeatureSystem := []
  sigmaPx : Binary64 := quietNaN
  sigmaPxSq : Binary64 := quietNaN
  chi2Multiplier : Binary64 := quietNaN
  chiSquaredTable : ChiSquaredTable := []

/-- `CP2FeaturePairResult` with its matrices. -/
structure FeaturePair where
  featureId : UInt64
  rawRows : Int64
  rawLayoutValid : Bool
  nullspace : NullspaceReduction
  schur : SchurReduction
  nullspaceGate : CP2FeatureGateResult
  schurGate : CP2FeatureGateResult
  statisticsComparisonRequired : Bool
  lambdaComparison : CP2StatisticComparison
  etaComparison : CP2StatisticComparison
  gammaComparison : CP2StatisticComparison
  agreementClass : CP2GateAgreementClass
  rawRowMatchWeight : UInt64

def FeaturePair.toRecord (f : FeaturePair) : CP2FeaturePairResult where
  featureId := f.featureId
  rawRows := f.rawRows
  rawLayoutValid := f.rawLayoutValid
  nullspace := f.nullspace.toCP2NullspaceReductionResult
  schur := f.schur.toSchurReductionResult
  nullspaceGate := f.nullspaceGate
  schurGate := f.schurGate
  statisticsComparisonRequired := f.statisticsComparisonRequired
  lambdaComparison := f.lambdaComparison
  etaComparison := f.etaComparison
  gammaComparison := f.gammaComparison
  agreementClass := f.agreementClass
  rawRowMatchWeight := f.rawRowMatchWeight

/-- `CP2GlobalModeResult` with its matrices. -/
structure GlobalMode extends CP2GlobalModeResult where
  H_compressed : MatrixXd := .empty
  residualCompressed : VectorXd := .empty
  jacobianLayout : List MSCKFUpdatePreviewBlock := []

/-- `CP2ShadowMathResult` with its matrices. -/
structure ShadowResult where
  traversalComplete : Bool := false
  rawLayoutsValid : Bool := false
  nullspaceAssemblyValid : Bool := false
  schurAssemblyValid : Bool := false
  inputValid : Bool := false
  duplicateFeatureId : Bool := false
  features : List FeaturePair := []
  nullspace : GlobalMode := {}
  schur : GlobalMode := {}

def ShadowResult.toRecord (r : ShadowResult) : CP2ShadowMathResult where
  traversalComplete := r.traversalComplete
  rawLayoutsValid := r.rawLayoutsValid
  nullspaceAssemblyValid := r.nullspaceAssemblyValid
  schurAssemblyValid := r.schurAssemblyValid
  inputValid := r.inputValid
  duplicateFeatureId := r.duplicateFeatureId
  features := r.features.map FeaturePair.toRecord
  nullspace := r.nullspace.toCP2GlobalModeResult
  schur := r.schur.toCP2GlobalModeResult

/-! ## The nullspace reduction -/

section Reduce

variable (A : Arithmetic)

/-- `M.array() / sigma` -/
def whitenMatrix (M : MatrixXd) (sigma : Binary64) : MatrixXd :=
  .ofFn M.rows M.cols fun i j => A.div (M.coeff i j) sigma

def whitenVector (v : VectorXd) (sigma : Binary64) : VectorXd :=
  .ofFn v.rows fun i => A.div (v.coeff i) sigma

/-- The statistics of a finite reduced system, and whether the evidence among them exists. -/
def reduceStatistics (r : NullspaceReduction) (whitened : MatrixXd) (b : VectorXd) :
    NullspaceReduction × Bool :=
  if whitened.allFinite && b.allFinite then
    let rawLambda := A.gram whitened
    let symmetryError := if rawLambda.rows * rawLambda.cols = 0 then ⟨0⟩ else A.symmetryError rawLambda
    if rawLambda.allFinite && symmetryError.isFinite then
      let lambda := A.symmetrized rawLambda
      let eta := A.transposeMul whitened b
      ({ r with
          statistics := { r.statistics with
            rawLambdaSymmetryErrorAvailable := true
            rawLambdaSymmetryErrorInf := symmetryError
            lambdaAvailable := lambda.allFinite
            etaAvailable := eta.allFinite }
          lambda := if lambda.allFinite then lambda else .empty
          eta := if eta.allFinite then eta else .empty }, true)
    else (r, false)
  else (r, false)

def reduceGamma (r : NullspaceReduction × Bool) (b : VectorXd) : NullspaceReduction :=
  if b.allFinite then
    let gamma := A.squaredNorm b
    let reduction := { r.1 with modeGamma := gamma, modeGammaAvailable := gamma.isFinite }
    if r.2 && gamma.isFinite then
      { reduction with
        statistics := { reduction.statistics with gamma := gamma, gammaAvailable := true } }
    else reduction
  else r.1

def reduceNullspace (raw : CP2RawFeatureSystem) (sigmaPx : Binary64) : NullspaceReduction :=
  let m := raw.H_f.rows
  let result : NullspaceReduction := { rawRows := Int64.ofNat m }
  if raw.H_f.cols ≠ 3 ∨ raw.H_x.rows ≠ m ∨ raw.residual.rows ≠ m ∨ m ≤ 3 then result
  else
    let projected := nullspaceProject A raw.H_f raw.H_x raw.residual
    if projected.1.rows ≠ m - 3 ∨ projected.2.rows ≠ m - 3 ∨ projected.1.cols ≠ raw.H_x.cols then
      { result with status := .kNonfinite, stage := .kGivensOutput }
    else
      let result := { result with
        reducedRows := Int64.ofNat projected.1.rows
        emittedSystemAvailable := true
        H_reduced := projected.1
        residualReduced := projected.2 }
      if !projected.1.allFinite || !projected.2.allFinite then
        { result with status := .kNonfinite, stage := .kGivensOutput }
      else
        let b := whitenVector A projected.2 sigmaPx
        let result := reduceGamma A (reduceStatistics A result (whitenMatrix A projected.1 sigmaPx) b) b
        if !result.modeGammaAvailable then
          { result with status := .kNonfinite, stage := .kStatistics }
        else { result with status := .kAccepted, stage := .kAccepted }

/-! ## Comparing statistics -/

/-- `1.0e-10` -/
def statisticsAbsoluteTolerance : Binary64 := ⟨0x3ddb7cdfd9d7bdbb⟩

/-- `1.0e-8` -/
def statisticsRelativeTolerance : Binary64 := ⟨0x3e45798ee2308c3a⟩

/-- The common part of `compare_eigen_statistic` and `compare_scalar_statistic_impl`, from the norm
of the reference on. -/
def compareStatistic (referenceNorm : Binary64) (differenceFinite : Bool) (error : Binary64) :
    CP2StatisticComparison :=
  if !referenceNorm.isFinite then { status := .kReferenceNormNonfinite }
  else if !differenceFinite || !error.isFinite then { status := .kErrorNonfinite }
  else
    let tolerance := A.add statisticsAbsoluteTolerance (A.mul statisticsRelativeTolerance referenceNorm)
    let ratio := A.div error tolerance
    if !tolerance.isFinite then { status := .kToleranceNonfinite }
    else if !A.roundsToNearest || !ratio.isFinite then { status := .kRatioNonfinite }
    else {
      status := .kAvailable
      available := true
      referenceNorm := referenceNorm
      error := error
      tolerance := tolerance
      ratio := ratio
      passed := decide (error ≤ tolerance) }

def compareMatrixStatistic (referenceAvailable : Bool) (reference : MatrixXd)
    (candidateAvailable : Bool) (candidate : MatrixXd) : CP2StatisticComparison :=
  if !referenceAvailable then { status := .kReferenceUnavailable }
  else if !candidateAvailable || reference.rows != candidate.rows ||
      reference.cols != candidate.cols then { status := .kCandidateUnavailable }
  else
    let difference := A.subMatrix candidate reference
    compareStatistic A (A.normMatrix reference) difference.allFinite (A.normMatrix difference)

def compareVectorStatistic (referenceAvailable : Bool) (reference : VectorXd)
    (candidateAvailable : Bool) (candidate : VectorXd) : CP2StatisticComparison :=
  if !referenceAvailable then { status := .kReferenceUnavailable }
  else if !candidateAvailable || reference.rows != candidate.rows then
    { status := .kCandidateUnavailable }
  else
    let difference := A.subVector candidate reference
    compareStatistic A (A.normVector reference) difference.allFinite (A.normVector difference)

def compareScalarStatistic (referenceAvailable : Bool) (reference : Binary64)
    (candidateAvailable : Bool) (candidate : Binary64) : CP2StatisticComparison :=
  if !referenceAvailable then { status := .kReferenceUnavailable }
  else if !candidateAvailable then { status := .kCandidateUnavailable }
  else
    let difference := candidate - reference
    compareStatistic A (A.abs reference) difference.isFinite (A.abs difference)

end Reduce

/-! ## Agreement -/

def classifyAgreement (nullspace schur : CP2FeatureGateResult) : CP2GateAgreementClass :=
  if nullspace.evidenceDecisionAvailable && schur.evidenceDecisionAvailable then
    if nullspace.evidenceAccept == schur.evidenceAccept then
      if nullspace.evidenceAccept then .kBothMatchAccept else .kBothMatchReject
    else if nullspace.evidenceAccept then .kBooleanNullspaceAcceptSchurReject
    else .kBooleanNullspaceRejectSchurAccept
  else if nullspace.evidenceDecisionAvailable then .kNullspaceOnly
  else if schur.evidenceDecisionAvailable then .kSchurOnly
  else .kNeitherDecision

def matchingAgreement (agreement : CP2GateAgreementClass) : Bool :=
  agreement == .kBothMatchAccept || agreement == .kBothMatchReject

def checkedIndexToU64 (value : Int64) : Option UInt64 :=
  if value.toInt < 0 then none else some value.toUInt64

/-! ## Input checks -/

/-- `checked_add_index`, on indices of which the first is known not to be negative. -/
def addIndex (left right : Int) : Option Int :=
  if left < 0 ∨ right < 0 ∨ (indexLimit : Int) ≤ left + right then none else some (left + right)

/-- The state blocks of the prior are contiguous from `offset` on. -/
def stateBlocksValid (dimension : Nat) : Int → List MSCKFUpdatePreviewBlock → Bool
  | offset, [] => decide (offset = dimension)
  | offset, block :: rest =>
    if block.covarianceId ≠ offset ∨ block.offset ≠ offset ∨ block.size ≤ 0 ∨
        block.size > dimension - offset then false
    else
      match addIndex offset block.size with
      | none => false
      | some offset => stateBlocksValid dimension offset rest

def startupInputIsValid (A : Arithmetic) (input : CP2ShadowMathInput) : Bool :=
  input.sigmaPx.isFinite && decide ((⟨0⟩ : Binary64) < input.sigmaPx) &&
    input.sigmaPxSq.isFinite && decide ((⟨0⟩ : Binary64) < input.sigmaPxSq) &&
    input.sigmaPxSq.equal (A.mul input.sigmaPx input.sigmaPx) && input.chi2Multiplier.isFinite &&
    ((List.range 499).all fun k =>
      (input.chiSquaredTable.lookup ((k + 1 : Nat) : Int)).any Binary64.isFinite) &&
    decide (input.prior.covariance.rows ≠ 0) &&
    decide (input.prior.covariance.cols = input.prior.covariance.rows) &&
    input.prior.covariance.allFinite && !input.prior.stateBlocks.isEmpty &&
    stateBlocksValid input.prior.covariance.rows 0 input.prior.stateBlocks

/-- The loop of `raw_layout_is_valid`, after the blocks `previous` which end at column `offset`. -/
def rawLayoutBlocksValid (cols : Nat) (prior : MSCKFUpdatePreviewSnapshot) :
    List CP2FeatureGateLayoutBlock → Int → List CP2FeatureGateLayoutBlock → Bool
  | _, offset, [] => decide (offset = cols)
  | previous, offset, block :: rest =>
    let id := block.covarianceId.toInt
    let size := block.size.toInt
    if id < 0 ∨ size ≤ 0 ∨ block.H_offset.toInt ≠ offset ∨ size > cols - offset ∨
        size > prior.covariance.rows - id then false
    else if !prior.stateBlocks.any fun s => id == s.covarianceId && size == s.size then false
    else if (addIndex id size).isNone then false
    else if previous.any fun p =>
        (addIndex p.covarianceId.toInt p.size.toInt).isNone ||
          rangesMeet id size p.covarianceId.toInt p.size.toInt then false
    else
      match addIndex offset size with
      | none => false
      | some offset => rawLayoutBlocksValid cols prior (previous ++ [block]) offset rest

def rawLayoutIsValid (raw : CP2RawFeatureSystem) (prior : MSCKFUpdatePreviewSnapshot) : Bool :=
  rawLayoutBlocksValid raw.H_x.cols prior [] 0 raw.jacobianLayout

/-! ## Assembly -/

/-- `GlobalAssembler`; `covariance_id_to_layout` is the position of the identifier in the layout. -/
structure GlobalAssembler where
  H : MatrixXd := .empty
  residual : VectorXd := .empty
  layout : List MSCKFUpdatePreviewBlock := []

/-- The first loop of `append`: the local layout covers the columns. -/
def localLayoutValid (cols : Nat) : Int → List CP2FeatureGateLayoutBlock → Bool
  | offset, [] => decide (offset = cols)
  | offset, block :: rest =>
    if block.covarianceId.toInt < 0 ∨ block.size.toInt ≤ 0 ∨ block.H_offset.toInt ≠ offset ∨
        block.size.toInt > cols - offset then false
    else
      match addIndex offset block.size.toInt with
      | none => false
      | some offset => localLayoutValid cols offset rest

def findBlock (layout : List MSCKFUpdatePreviewBlock) (id : Int) : Option MSCKFUpdatePreviewBlock :=
  layout.find? fun known => known.covarianceId == id

/-- The second loop: the blocks that are new are appended behind column `columns`. -/
def extendLayout : List MSCKFUpdatePreviewBlock → Int → List CP2FeatureGateLayoutBlock →
    Option (List MSCKFUpdatePreviewBlock × Int)
  | layout, columns, [] => some (layout, columns)
  | layout, columns, block :: rest =>
    let id := block.covarianceId.toInt
    let size := block.size.toInt
    match findBlock layout id with
    | some known => if known.size ≠ size then none else extendLayout layout columns rest
    | none =>
      if (addIndex id size).isNone then none
      else if layout.any fun known =>
          (addIndex known.covarianceId known.size).isNone ||
            rangesMeet id size known.covarianceId known.size then none
      else
        match addIndex columns size with
        | none => none
        | some columns' =>
          extendLayout (layout ++ [⟨id, size, columns⟩]) columns' rest

def placeBlock (layout : List MSCKFUpdatePreviewBlock) (oldRows : Nat) (local_H H : MatrixXd)
    (block : CP2FeatureGateLayoutBlock) : MatrixXd :=
  match findBlock layout block.covarianceId.toInt with
  | none => H
  | some destination =>
    H.setBlock oldRows destination.offset.toNat local_H.rows block.size.toInt.toNat fun i j =>
      local_H.coeff i (block.H_offset.toInt.toNat + j)

/-- `GlobalAssembler::append`. A failed one leaves an assembler that is not used again. -/
def GlobalAssembler.append (A : Arithmetic) (assembler : GlobalAssembler) (local_H : MatrixXd)
    (localResidual : VectorXd) (localLayout : List CP2FeatureGateLayoutBlock) :
    Option GlobalAssembler :=
  if local_H.rows = 0 ∨ localResidual.rows ≠ local_H.rows then none
  else if !localLayoutValid local_H.cols 0 localLayout then none
  else
    let oldRows := assembler.H.rows
    let oldColumns := assembler.H.cols
    match extendLayout assembler.layout oldColumns localLayout with
    | none => none
    | some (layout, newColumns) =>
      match addIndex oldRows local_H.rows with
      | none => none
      | some newRows =>
        let H := assembler.H.conservativeResize newRows.toNat newColumns.toNat A.storage
        let H := if oldColumns < newColumns.toNat ∧ 0 < oldRows then
            H.setBlock 0 oldColumns oldRows (newColumns.toNat - oldColumns) fun _ _ => ⟨0⟩
          else H
        let H := H.setBlock oldRows 0 local_H.rows newColumns.toNat fun _ _ => ⟨0⟩
        let residual := assembler.residual.conservativeResize newRows.toNat (A.storage 0)
        some {
          H := localLayout.foldl (placeBlock layout oldRows local_H) H
          residual := residual.setSegment (newRows.toNat - localResidual.rows)
            localResidual.rows localResidual.coeff
          layout := layout }

/-! ## Global modes -/

section Global

variable (A : Arithmetic)

/-- `UpdaterMSCKFPreview::ComputeFromSnapshot` -/
abbrev Preview := MSCKFUpdatePreviewSnapshot → List MSCKFUpdatePreviewBlock → MatrixXd → VectorXd →
  MatrixXd → MSCKFUpdatePreviewResult

def accumulateGamma (mode : GlobalMode) (featureGamma : Binary64) : GlobalMode :=
  if mode.gammaStatus = .kNonfinite then mode
  else
    let candidateSum := A.add mode.retainedGamma featureGamma
    if !featureGamma.isFinite || !candidateSum.isFinite then
      { mode with gammaStatus := .kNonfinite, retainedGamma := quietNaN }
    else { mode with retainedGamma := candidateSum }

/-- A mode while its features are traversed; the assembly is lost once it failed. -/
structure ModeTraversal where
  mode : GlobalMode
  assembler : Option GlobalAssembler

/-- The features of one mode: the identifier, the gamma and the reduced system of an accepted one. -/
structure AcceptedSystem where
  featureId : UInt64
  gamma : Binary64
  H : MatrixXd
  residual : VectorXd
  layout : List CP2FeatureGateLayoutBlock

def ModeTraversal.accept (t : ModeTraversal) (system : AcceptedSystem) : ModeTraversal where
  mode := accumulateGamma A
    { t.mode with acceptedIds := t.mode.acceptedIds ++ [system.featureId] } system.gamma
  assembler := t.assembler.bind fun assembler =>
    assembler.append A system.H system.residual system.layout

/-- `kAvailable` with the sum 0 and an empty assembler. -/
def ModeTraversal.start : ModeTraversal where
  mode := { gammaStatus := .kAvailable, retainedGamma := ⟨0⟩ }
  assembler := some {}

/-- `sigma_px_sq * MatrixXd::Identity(rows, rows)` -/
def scaledIdentity (sigmaPxSq : Binary64) (rows : Nat) : MatrixXd :=
  .ofFn rows rows fun i j => A.mul sigmaPxSq (if i = j then ⟨0x3ff0000000000000⟩ else ⟨0⟩)

/-- `finalize` -/
def finalizeMode (preview : Preview) (input : CP2ShadowMathInput) (suppressForGamma : Bool)
    (assembler : GlobalAssembler) (mode : GlobalMode) : GlobalMode :=
  let mode := { mode with
    precompressionRows := Int64.ofNat assembler.H.rows
    jacobianLayout := assembler.layout }
  if assembler.H.rows < 1 || suppressForGamma then mode
  else
    let compressed := measurementCompress A assembler.H assembler.residual
    let mode := { mode with
      compressedRows := Int64.ofNat compressed.1.rows
      H_compressed := compressed.1
      residualCompressed := compressed.2 }
    if compressed.1.rows < 1 then mode
    else
      let proposal := preview input.prior mode.jacobianLayout compressed.1 compressed.2
        (scaledIdentity A input.sigmaPxSq compressed.2.rows)
      { mode with proposal := proposal, proposalAvailable := proposal.accepted }

/-- The end of a mode: it is finalized if its assembly is valid. -/
def ModeTraversal.close (preview : Preview) (input : CP2ShadowMathInput)
    (suppressForGamma : CP2GammaStatus → Bool) (t : ModeTraversal) : Bool × GlobalMode :=
  match t.assembler with
  | none => (false, t.mode)
  | some assembler =>
    (true, finalizeMode A preview input (suppressForGamma t.mode.gammaStatus) assembler t.mode)

def nullspaceSystem (raw : CP2RawFeatureSystem) (feature : FeaturePair) : Option AcceptedSystem :=
  if feature.rawLayoutValid && feature.nullspace.emittedSystemAvailable &&
      feature.nullspaceGate.lifecycleAccept then
    some ⟨feature.featureId, feature.nullspace.modeGamma, feature.nullspace.H_reduced,
      feature.nullspace.residualReduced, raw.jacobianLayout⟩
  else none

def schurSystem (raw : CP2RawFeatureSystem) (feature : FeaturePair) : Option AcceptedSystem :=
  if feature.rawLayoutValid && feature.schur.accepted && feature.schurGate.lifecycleAccept then
    some ⟨feature.featureId, feature.schur.gamma, feature.schur.H_reduced,
      feature.schur.residualReduced, raw.jacobianLayout⟩
  else none

def ModeTraversal.visit (t : ModeTraversal) (system : Option AcceptedSystem) : ModeTraversal :=
  match system with
  | none => t
  | some system => t.accept A system

/-- The body of the loop of `build_global_modes`, on the nullspace mode and the Schur mode. -/
def traverse (t : ModeTraversal × ModeTraversal) (p : CP2RawFeatureSystem × FeaturePair) :
    ModeTraversal × ModeTraversal :=
  (t.1.visit A (nullspaceSystem p.1 p.2), t.2.visit A (schurSystem p.1 p.2))

def buildGlobalModes (preview : Preview) (input : CP2ShadowMathInput) (result : ShadowResult) :
    Bool × ShadowResult :=
  if input.rawSystems.isEmpty then
    (true, { result with nullspaceAssemblyValid := true, schurAssemblyValid := true })
  else
    let t := (input.rawSystems.zip result.features).foldl (traverse A) (.start, .start)
    let nullspace := t.1.close A preview input fun _ => false
    let schur := t.2.close A preview input fun status => status == .kNonfinite
    (nullspace.1 && schur.1, { result with
      nullspaceAssemblyValid := nullspace.1
      schurAssemblyValid := schur.1
      nullspace := nullspace.2
      schur := schur.2 })

/-! ### One mode at a time -/

def acceptedSystems (select : CP2RawFeatureSystem → FeaturePair → Option AcceptedSystem)
    (raws : List CP2RawFeatureSystem) (features : List FeaturePair) : List AcceptedSystem :=
  (raws.zip features).filterMap fun p => select p.1 p.2

def buildMode (preview : Preview) (input : CP2ShadowMathInput)
    (suppressForGamma : CP2GammaStatus → Bool) (systems : List AcceptedSystem) : Bool × GlobalMode :=
  (systems.foldl (ModeTraversal.accept A) .start).close A preview input suppressForGamma

theorem foldl_visit (select : CP2RawFeatureSystem × FeaturePair → Option AcceptedSystem)
    (ps : List (CP2RawFeatureSystem × FeaturePair)) (t : ModeTraversal) :
    ps.foldl (fun t p => t.visit A (select p)) t = (ps.filterMap select).foldl (ModeTraversal.accept A) t := by
  induction ps generalizing t with
  | nil => rfl
  | cons p ps ih =>
    rw [List.foldl_cons, ih, List.filterMap_cons]
    cases select p <;> rfl

theorem foldl_traverse (ps : List (CP2RawFeatureSystem × FeaturePair)) (t t' : ModeTraversal) :
    ps.foldl (traverse A) (t, t') = (ps.foldl (fun t p => t.visit A (nullspaceSystem p.1 p.2)) t,
      ps.foldl (fun t p => t.visit A (schurSystem p.1 p.2)) t') := by
  induction ps generalizing t t' with
  | nil => rfl
  | cons p ps ih => exact ih _ _

/-- Each mode has its own assembler, so the one loop over the features is one loop for each mode. -/
theorem buildGlobalModes_eq (preview : Preview) (input : CP2ShadowMathInput) (result : ShadowResult) :
    buildGlobalModes A preview input result =
      if input.rawSystems.isEmpty then
        (true, { result with nullspaceAssemblyValid := true, schurAssemblyValid := true })
      else
        let nullspace := buildMode A preview input (fun _ => false)
          (acceptedSystems nullspaceSystem input.rawSystems result.features)
        let schur := buildMode A preview input (fun status => status == .kNonfinite)
          (acceptedSystems schurSystem input.rawSystems result.features)
        (nullspace.1 && schur.1, { result with
          nullspaceAssemblyValid := nullspace.1
          schurAssemblyValid := schur.1
          nullspace := nullspace.2
          schur := schur.2 }) := by
  unfold buildGlobalModes buildMode acceptedSystems
  rw [foldl_traverse, foldl_visit, foldl_visit]

end Global

/-! ## Process -/

/-- The callees of `Process` that decide about a feature. -/
structure ShadowPaths where
  nullspace : CP2RawFeatureSystem → Binary64 → NullspaceReduction
  schur : MatrixXd → MatrixXd → VectorXd → Binary64 → SchurReduction
  nullspaceGate : CP2FeatureGateInput → ChiSquaredTable → CP2FeatureGateResult
  schurGate : CP2FeatureGateInput → ChiSquaredTable → CP2FeatureGateResult

section Process

variable (A : Arithmetic) (preview : Preview) (paths : ShadowPaths)

/-- The constructor of `CP2FeatureGateInput` on a reduced system. -/
def gateInput (H : MatrixXd) (residual : VectorXd) (input : CP2ShadowMathInput)
    (layout : List CP2FeatureGateLayoutBlock) (evidence : Bool) : CP2FeatureGateInput where
  emittedSystemAvailable := true
  evidenceReductionAvailable := evidence
  H := H
  residual := residual
  priorCovariance := input.prior.covariance
  layout := layout
  sigmaPxSq := input.sigmaPxSq
  chi2Multiplier := input.chi2Multiplier

variable (input : CP2ShadowMathInput)

def nullspaceGateInput (raw : CP2RawFeatureSystem)
    (layoutValid : Bool) (r : NullspaceReduction) : CP2FeatureGateInput :=
  if !layoutValid then {}
  else if r.accepted then gateInput r.H_reduced r.residualReduced input raw.jacobianLayout true
  else if r.emittedSystemAvailable then
    gateInput r.H_reduced r.residualReduced input raw.jacobianLayout false
  else {}

def schurGateInput (raw : CP2RawFeatureSystem) (layoutValid : Bool)
    (r : SchurReduction) : CP2FeatureGateInput :=
  if !layoutValid then {}
  else if r.accepted then gateInput r.H_reduced r.residualReduced input raw.jacobianLayout true
  else {}

/-- The body of the loop of `Process`. -/
def processFeature (raw : CP2RawFeatureSystem) : FeaturePair :=
  let layoutValid := rawLayoutIsValid raw input.prior
  let nullspace := paths.nullspace raw input.sigmaPx
  let schur := paths.schur raw.H_x raw.H_f raw.residual input.sigmaPx
  let nullspaceGate := paths.nullspaceGate (nullspaceGateInput input raw layoutValid nullspace)
    input.chiSquaredTable
  let schurGate := paths.schurGate (schurGateInput input raw layoutValid schur) input.chiSquaredTable
  let required := nullspace.accepted && schur.accepted
  let rawRows := Int64.ofNat raw.H_f.rows
  let agreement := classifyAgreement nullspaceGate schurGate
  -- A row population that the evidence cannot represent clears the layout flag again.
  let weight := if matchingAgreement agreement then checkedIndexToU64 rawRows else some 0
  { featureId := raw.featureId
    rawRows := rawRows
    rawLayoutValid := layoutValid && weight.isSome
    nullspace := nullspace
    schur := schur
    nullspaceGate := nullspaceGate
    schurGate := schurGate
    statisticsComparisonRequired := required
    lambdaComparison := if required then
        compareMatrixStatistic A nullspace.statistics.lambdaAvailable nullspace.lambda
          schur.accepted schur.lambda
      else {}
    etaComparison := if required then
        compareVectorStatistic A nullspace.statistics.etaAvailable nullspace.eta
          schur.accepted schur.eta
      else {}
    gammaComparison := if required then
        compareScalarStatistic A nullspace.statistics.gammaAvailable nullspace.statistics.gamma
          schur.accepted schur.gamma
      else {}
    agreementClass := agreement
    rawRowMatchWeight := weight.getD 0 }

/-- `CP2ShadowMath::Process`, with its reducers and gates as parameters. -/
def processWith : ShadowResult :=
  if !startupInputIsValid A input then {}
  else
    let features := input.rawSystems.map (processFeature A paths input)
    let result : ShadowResult := {
      traversalComplete := features.length == input.rawSystems.length
      rawLayoutsValid := features.all FeaturePair.rawLayoutValid
      duplicateFeatureId := !decide (input.rawSystems.map CP2RawFeatureSystem.featureId).Nodup
      features := features }
    let built := buildGlobalModes A preview input result
    { built.2 with
      inputValid := result.traversalComplete && built.1 && result.rawLayoutsValid &&
        !result.duplicateFeatureId }

def shadowPaths (schurReduce : MatrixXd → MatrixXd → VectorXd → Binary64 → SchurReduction) :
    ShadowPaths where
  nullspace := reduceNullspace A
  schur := schurReduce
  nullspaceGate := evaluate A
  schurGate := evaluate A

def process (schurReduce : MatrixXd → MatrixXd → VectorXd → Binary64 → SchurReduction)
    (input : CP2ShadowMathInput) : ShadowResult :=
  processWith A preview (shadowPaths A schurReduce) input

end Process

end Bravo.Shadow
