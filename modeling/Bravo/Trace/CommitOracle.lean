import Bravo.Trace.Postcommit
import Bravo.Trace.Sha256

/-! # The commit oracle

`CP2CommitOracle::Compare`, on the snapshot before an update, the snapshot that the update should lead to
and the one it led to. Its three traversals are compared with the payload: `snapshotPayloadEqual` decides
whether two payloads are equal, `immutablePriorFieldsEqual` whether they are up to the covariance and the
active nominal values.
-/

namespace Bravo.Trace

/-! ## The traversals -/

/-- `semantic_structure_equal`, which is `semantic_block_equal` again. -/
def semanticStructureEqual (left right : CP2SemanticStateBlock) : Bool := semanticBlockEqual left right

def activeStructureEqual (left right : CP2ActiveStateType) : Bool :=
  left.tag == right.tag && left.covarianceId == right.covarianceId && left.errorSize == right.errorSize &&
    matrixShapeEqual left.nominal right.nominal && matrixShapeEqual left.fej right.fej &&
    identityEqual left.tag.isClone left.tag.isLandmark left.identity right.identity

def fixedImuStructureEqual (left right : CP2FixedImuCalibration) : Bool :=
  left.tag == right.tag && matrixShapeEqual left.nominal right.nominal && matrixShapeEqual left.fej right.fej

def cameraStructureEqual (left right : CP2CameraFixedCalibration) : Bool :=
  left.cameraId == right.cameraId && matrixShapeEqual left.extrinsicNominal right.extrinsicNominal &&
    matrixShapeEqual left.extrinsicFej right.extrinsicFej &&
    matrixShapeEqual left.intrinsicNominal right.intrinsicNominal &&
    matrixShapeEqual left.intrinsicFej right.intrinsicFej

def cacheStructureEqual (left right : CP2CameraModelCache) : Bool :=
  left.cameraId == right.cameraId && matrixShapeEqual left.calibration right.calibration &&
    matrixShapeEqual left.K right.K && matrixShapeEqual left.D right.D

def snapshotStructureEqual (left right : CP2CompositeStateSnapshot) : Bool :=
  matrixShapeEqual left.covariance right.covariance &&
    left.semanticBlocks.length == right.semanticBlocks.length &&
    left.activeTypes.length == right.activeTypes.length &&
    left.fixedImuCalibrations.length == right.fixedImuCalibrations.length &&
    matrixShapeEqual left.timeOffsetNominal right.timeOffsetNominal &&
    matrixShapeEqual left.timeOffsetFej right.timeOffsetFej &&
    left.cameraCalibrations.length == right.cameraCalibrations.length &&
    left.cameraCaches.length == right.cameraCaches.length &&
    allEqual semanticStructureEqual left.semanticBlocks right.semanticBlocks &&
    allEqual activeStructureEqual left.activeTypes right.activeTypes &&
    allEqual fixedImuStructureEqual left.fixedImuCalibrations right.fixedImuCalibrations &&
    allEqual cameraStructureEqual left.cameraCalibrations right.cameraCalibrations &&
    allEqual cacheStructureEqual left.cameraCaches right.cameraCaches

def activeValuesEqual (left right : CP2ActiveStateType) : Bool :=
  matrixBitEqual left.nominal right.nominal && matrixBitEqual left.fej right.fej

def fixedImuValuesEqual (left right : CP2FixedImuCalibration) : Bool :=
  matrixBitEqual left.nominal right.nominal && matrixBitEqual left.fej right.fej

def cameraValuesEqual (left right : CP2CameraFixedCalibration) : Bool :=
  matrixBitEqual left.extrinsicNominal right.extrinsicNominal &&
    matrixBitEqual left.extrinsicFej right.extrinsicFej &&
    matrixBitEqual left.intrinsicNominal right.intrinsicNominal &&
    matrixBitEqual left.intrinsicFej right.intrinsicFej

def cacheValuesEqual (left right : CP2CameraModelCache) : Bool :=
  left.width == right.width && left.height == right.height &&
    matrixBitEqual left.calibration right.calibration && matrixBitEqual left.K right.K &&
    matrixBitEqual left.D right.D

/-- The loops that `snapshot_payload_equal` and `immutable_prior_fields_equal` share. -/
def fixedFieldsEqual (left right : CP2CompositeStateSnapshot) : Bool :=
  allEqual fixedImuValuesEqual left.fixedImuCalibrations right.fixedImuCalibrations &&
    matrixBitEqual left.timeOffsetNominal right.timeOffsetNominal &&
    matrixBitEqual left.timeOffsetFej right.timeOffsetFej &&
    allEqual cameraValuesEqual left.cameraCalibrations right.cameraCalibrations &&
    allEqual cacheValuesEqual left.cameraCaches right.cameraCaches

def snapshotPayloadEqual (left right : CP2CompositeStateSnapshot) : Bool :=
  snapshotStructureEqual left right && bitEqual left.timestamp right.timestamp &&
    matrixBitEqual left.covariance right.covariance &&
    allEqual activeValuesEqual left.activeTypes right.activeTypes && fixedFieldsEqual left right

def immutablePriorFieldsEqual (phase0 phase2 : CP2CompositeStateSnapshot) : Bool :=
  snapshotStructureEqual phase0 phase2 && bitEqual phase0.timestamp phase2.timestamp &&
    allEqual (fun left right => matrixBitEqual left.fej right.fej) phase0.activeTypes phase2.activeTypes &&
    fixedFieldsEqual phase0 phase2

/-! ## Comparing -/

def sizeToU64 (value : Nat) : Option UInt64 := if value < 2 ^ 64 then some (UInt64.ofNat value) else none

/-- `cp2_checked_add_u64` -/
def checkedAddU64 (left right : UInt64) : Option UInt64 :=
  if 18446744073709551615 - left < right then none else some (left + right)

/-- `cp2_checked_multiply_u64` -/
def checkedMultiplyU64 (left right : UInt64) : Option UInt64 :=
  if left != 0 && decide (18446744073709551615 / left < right) then none else some (left * right)

/-- `matrix_mismatch_count`: the population and the number of unequal coefficients. -/
def matrixMismatchCount (left right : MatrixXd) : Option (UInt64 × UInt64) := do
  if matrixShapeEqual left right then
    let population ← checkedMultiplyU64 (UInt64.ofNat left.rows) (UInt64.ofNat left.cols)
    let count ← (left.coeffs.zip right.coeffs).foldlM
      (fun count p => if bitEqual p.1 p.2 then some count else checkedAddU64 count 1) 0
    return (population, count)
  else none

def snapshotFinite (snapshot : CP2CompositeStateSnapshot) : Bool :=
  snapshot.timestamp.isFinite && snapshot.covariance.allFinite && snapshot.timeOffsetNominal.allFinite &&
    snapshot.timeOffsetFej.allFinite &&
    (snapshot.semanticBlocks.all fun block =>
      !(block.kind.isClone && !block.cloneTimestamp.isFinite) &&
        !(block.kind.isLandmark && !block.landmark.anchorTimestamp.isFinite)) &&
    (snapshot.activeTypes.all fun active =>
      active.nominal.allFinite && active.fej.allFinite &&
        !(active.tag.isClone && !active.cloneTimestamp.isFinite) &&
        !(active.tag.isLandmark && !active.landmark.anchorTimestamp.isFinite)) &&
    (snapshot.fixedImuCalibrations.all fun fixed => fixed.nominal.allFinite && fixed.fej.allFinite) &&
    (snapshot.cameraCalibrations.all fun camera =>
      camera.extrinsicNominal.allFinite && camera.extrinsicFej.allFinite &&
        camera.intrinsicNominal.allFinite && camera.intrinsicFej.allFinite) &&
    (snapshot.cameraCaches.all fun cache =>
      cache.calibration.allFinite && cache.K.allFinite && cache.D.allFinite)

def structurallyUsableStatus (status : CP2CompositeStateStatus) : Bool :=
  status == .kAccepted || status == .kNonfinite || status == .kInvalidQuaternion

def phasesAreExact (phase0 phase2 phase3 : CP2CompositeStateSnapshot) : Bool :=
  phase0.phase == .kPhase0Prior && phase2.phase == .kPhase2ExpectedPostcommit &&
    phase3.phase == .kPhase3LivePostcommit

inductive CP2CommitOracleStatus
  | kArithmeticOverflow
  | kInvalidPhase
  | kStructuralMismatch
  | kComplete
deriving DecidableEq, Repr, Inhabited

structure CP2CommitOracleResult where
  status : CP2CommitOracleStatus := .kArithmeticOverflow
  comparisonAvailable : Bool := false
  structureEqual : Bool := false
  phase0Valid : Bool := false
  phase2Valid : Bool := false
  phase3Valid : Bool := false
  completeFinite : Bool := false
  phase0Phase2ImmutableEqual : Bool := false
  phase2Phase3CanonicalEqual : Bool := false
  completeCanonicalEqual : Bool := false
  typeUpdateCallsMatch : Bool := false
  passed : Bool := false
  observedTypeUpdateCalls : UInt64 := 0
  baselineExpectedTypeUpdateCalls : UInt64 := 0
  baselineVerifiedNominalFields : UInt64 := 0
  baselineNominalMismatches : UInt64 := 0
  baselineCovarianceMismatches : UInt64 := 0
  baselineFejMismatches : UInt64 := 0
  stateBlocksExpected : UInt64 := 0
  stateBlocksSeen : UInt64 := 0
  covarianceBlocksExpected : UInt64 := 0
  covarianceBlocksSeen : UInt64 := 0
deriving DecidableEq, Repr

structure MismatchCounts where
  verifiedNominal : UInt64 := 0
  nominalMismatches : UInt64 := 0
  fejMismatches : UInt64 := 0
deriving DecidableEq, Repr

def countMismatches (counts : MismatchCounts)
    (actives : CP2ActiveStateType × CP2ActiveStateType × CP2ActiveStateType) : Option MismatchCounts := do
  let (population, mismatches) ← matrixMismatchCount actives.2.1.nominal actives.2.2.nominal
  let verifiedNominal ← checkedAddU64 counts.verifiedNominal population
  let nominalMismatches ← checkedAddU64 counts.nominalMismatches mismatches
  let (_, mismatches) ← matrixMismatchCount actives.1.fej actives.2.2.fej
  let fejMismatches ← checkedAddU64 counts.fejMismatches mismatches
  return ⟨verifiedNominal, nominalMismatches, fejMismatches⟩

section Compare

variable (unitNorm : List Binary64 → Bool) (phase0 phase2 phase3 : CP2CompositeStateSnapshot)
  (observedTypeUpdateCalls : UInt64)

/-- The result before the phases are looked at, or an overflow. -/
def comparePopulations : Option CP2CommitOracleResult := do
  let expectedTypeCalls ← sizeToU64 phase0.activeTypes.length
  let phase0Blocks ← sizeToU64 phase0.semanticBlocks.length
  let phase3Blocks ← sizeToU64 phase3.semanticBlocks.length
  let expectedCovarianceBlocks ← checkedMultiplyU64 phase0Blocks phase0Blocks
  let seenCovarianceBlocks ← checkedMultiplyU64 phase3Blocks phase3Blocks
  return {
    observedTypeUpdateCalls := observedTypeUpdateCalls
    baselineExpectedTypeUpdateCalls := expectedTypeCalls
    typeUpdateCallsMatch := observedTypeUpdateCalls == expectedTypeCalls
    stateBlocksExpected := phase0Blocks
    stateBlocksSeen := phase3Blocks
    covarianceBlocksExpected := expectedCovarianceBlocks
    covarianceBlocksSeen := seenCovarianceBlocks
    phase0Valid := validate unitNorm phase0 == .kAccepted
    phase2Valid := validate unitNorm phase2 == .kAccepted
    phase3Valid := validate unitNorm phase3 == .kAccepted
    completeFinite := snapshotFinite phase0 && snapshotFinite phase2 && snapshotFinite phase3 }

def compareCoefficients (result : CP2CommitOracleResult) : Option CP2CommitOracleResult := do
  let counts ← (phase0.activeTypes.zip (phase2.activeTypes.zip phase3.activeTypes)).foldlM countMismatches {}
  let (_, covarianceMismatches) ← matrixMismatchCount phase2.covariance phase3.covariance
  return { result with
    status := .kComplete
    comparisonAvailable := true
    baselineVerifiedNominalFields := counts.verifiedNominal
    baselineNominalMismatches := counts.nominalMismatches
    baselineCovarianceMismatches := covarianceMismatches
    baselineFejMismatches := counts.fejMismatches
    passed := result.phase0Valid && result.phase2Valid && result.phase3Valid && result.completeFinite &&
      result.completeCanonicalEqual && result.typeUpdateCallsMatch && counts.nominalMismatches == 0 &&
      covarianceMismatches == 0 && counts.fejMismatches == 0 }

def compare : CP2CommitOracleResult :=
  match comparePopulations unitNorm phase0 phase2 phase3 observedTypeUpdateCalls with
  | none => {}
  | some result =>
    if !phasesAreExact phase0 phase2 phase3 then { result with status := .kInvalidPhase }
    else if !(structurallyUsableStatus (validate unitNorm phase0) &&
        structurallyUsableStatus (validate unitNorm phase2) &&
        structurallyUsableStatus (validate unitNorm phase3) && snapshotStructureEqual phase0 phase2 &&
        snapshotStructureEqual phase0 phase3) then
      { result with status := .kStructuralMismatch }
    else
      let immutableEqual := immutablePriorFieldsEqual phase0 phase2
      let canonicalEqual := snapshotPayloadEqual phase2 phase3
      (compareCoefficients phase0 phase2 phase3 { result with
        structureEqual := true
        phase0Phase2ImmutableEqual := immutableEqual
        phase2Phase3CanonicalEqual := canonicalEqual
        completeCanonicalEqual := immutableEqual && canonicalEqual }).getD {}

end Compare

/-! ## What the traversals decide -/

theorem activeStructureEqual_and_values (left right : CP2ActiveStateType) :
    (activeStructureEqual left right && activeValuesEqual left right) = true ↔
      left.normalise = right.normalise := by
  rw [← activeTypeEqual_iff]
  simp only [activeStructureEqual, activeValuesEqual, activeTypeEqual, matrixBitEqual, Bool.and_eq_true]
  tauto

theorem fixedImuStructureEqual_and_values (left right : CP2FixedImuCalibration) :
    (fixedImuStructureEqual left right && fixedImuValuesEqual left right) = true ↔ left = right := by
  rw [← fixedImuCalibrationEqual_iff]
  simp only [fixedImuStructureEqual, fixedImuValuesEqual, fixedImuCalibrationEqual, matrixBitEqual,
    Bool.and_eq_true]
  tauto

theorem cameraStructureEqual_and_values (left right : CP2CameraFixedCalibration) :
    (cameraStructureEqual left right && cameraValuesEqual left right) = true ↔ left = right := by
  rw [← cameraCalibrationEqual_iff]
  simp only [cameraStructureEqual, cameraValuesEqual, cameraCalibrationEqual, matrixBitEqual,
    Bool.and_eq_true]
  tauto

theorem cacheStructureEqual_and_values (left right : CP2CameraModelCache) :
    (cacheStructureEqual left right && cacheValuesEqual left right) = true ↔ left = right := by
  rw [← cameraCacheEqual_iff]
  simp only [cacheStructureEqual, cacheValuesEqual, cameraCacheEqual, matrixBitEqual, Bool.and_eq_true]
  tauto

/-- What `snapshot_structure_equal` decides. -/
structure StructureEqual (left right : CP2CompositeStateSnapshot) : Prop where
  covariance : matrixShapeEqual left.covariance right.covariance = true
  semanticBlocks : left.semanticBlocks.map CP2SemanticStateBlock.normalise =
    right.semanticBlocks.map CP2SemanticStateBlock.normalise
  activeLength : left.activeTypes.length = right.activeTypes.length
  activeTypes : allEqual activeStructureEqual left.activeTypes right.activeTypes = true
  fixedLength : left.fixedImuCalibrations.length = right.fixedImuCalibrations.length
  fixedImuCalibrations :
    allEqual fixedImuStructureEqual left.fixedImuCalibrations right.fixedImuCalibrations = true
  timeOffsetNominal : matrixShapeEqual left.timeOffsetNominal right.timeOffsetNominal = true
  timeOffsetFej : matrixShapeEqual left.timeOffsetFej right.timeOffsetFej = true
  cameraLength : left.cameraCalibrations.length = right.cameraCalibrations.length
  cameraCalibrations : allEqual cameraStructureEqual left.cameraCalibrations right.cameraCalibrations = true
  cacheLength : left.cameraCaches.length = right.cameraCaches.length
  cameraCaches : allEqual cacheStructureEqual left.cameraCaches right.cameraCaches = true

theorem snapshotStructureEqual_iff {left right : CP2CompositeStateSnapshot} :
    snapshotStructureEqual left right = true ↔ StructureEqual left right := by
  have hsem : left.semanticBlocks.length = right.semanticBlocks.length ∧
      allEqual semanticStructureEqual left.semanticBlocks right.semanticBlocks = true ↔ _ :=
    length_and_allEqual_iff semanticBlockEqual_iff left.semanticBlocks right.semanticBlocks
  simp only [snapshotStructureEqual, Bool.and_eq_true, beq_iff_eq]
  constructor
  · rintro ⟨⟨⟨⟨⟨⟨⟨⟨⟨⟨⟨⟨hcov, nsem⟩, nact⟩, nfix⟩, hoff⟩, hoff'⟩, ncam⟩, ncache⟩, hsem'⟩, hact⟩, hfix⟩, hcam⟩, hcache⟩
    exact ⟨hcov, hsem.mp ⟨nsem, hsem'⟩, nact, hact, nfix, hfix, hoff, hoff', ncam, hcam, ncache, hcache⟩
  · rintro ⟨hcov, hblocks, nact, hact, nfix, hfix, hoff, hoff', ncam, hcam, ncache, hcache⟩
    obtain ⟨nsem, hsem'⟩ := hsem.mpr hblocks
    exact ⟨⟨⟨⟨⟨⟨⟨⟨⟨⟨⟨⟨hcov, nsem⟩, nact⟩, nfix⟩, hoff⟩, hoff'⟩, ncam⟩, ncache⟩, hsem'⟩, hact⟩, hfix⟩, hcam⟩, hcache⟩

theorem allEqual_both_iff {α κ : Type} {f g : α → α → Bool} {key : α → κ}
    (h : ∀ a b, (f a b && g a b) = true ↔ key a = key b) (left right : List α) :
    left.length = right.length ∧ allEqual f left right = true ∧ allEqual g left right = true ↔
      left.map key = right.map key := by
  rw [← length_and_allEqual_iff h, allEqual_and, Bool.and_eq_true]

theorem allEqual_both_id {α : Type} {f g : α → α → Bool} (h : ∀ a b, (f a b && g a b) = true ↔ a = b)
    (left right : List α) :
    left.length = right.length ∧ allEqual f left right = true ∧ allEqual g left right = true ↔ left = right := by
  rw [← length_and_allEqual_id h, allEqual_and, Bool.and_eq_true]

/-- The fields that neither traversal allows to change. -/
structure FixedEqual (left right : CP2CompositeStateSnapshot) : Prop where
  semanticBlocks : left.semanticBlocks.map CP2SemanticStateBlock.normalise =
    right.semanticBlocks.map CP2SemanticStateBlock.normalise
  fixedImuCalibrations : left.fixedImuCalibrations = right.fixedImuCalibrations
  timeOffsetNominal : left.timeOffsetNominal = right.timeOffsetNominal
  timeOffsetFej : left.timeOffsetFej = right.timeOffsetFej
  cameraCalibrations : left.cameraCalibrations = right.cameraCalibrations
  cameraCaches : left.cameraCaches = right.cameraCaches

theorem matrixShapeEqual_self (M : MatrixXd) : matrixShapeEqual M M = true := matrixShapeEqual_iff.mpr rfl

theorem structureEqual_and_fixedFieldsEqual {left right : CP2CompositeStateSnapshot} :
    snapshotStructureEqual left right = true ∧ fixedFieldsEqual left right = true ↔
      FixedEqual left right ∧ matrixShapeEqual left.covariance right.covariance = true ∧
        left.activeTypes.length = right.activeTypes.length ∧
        allEqual activeStructureEqual left.activeTypes right.activeTypes = true := by
  simp only [snapshotStructureEqual_iff, fixedFieldsEqual, Bool.and_eq_true, matrixBitEqual_iff]
  constructor
  · rintro ⟨hs, ⟨⟨⟨hfix, hoff⟩, hoff'⟩, hcam⟩, hcache⟩
    exact ⟨⟨hs.semanticBlocks,
      (allEqual_both_id fixedImuStructureEqual_and_values _ _).mp ⟨hs.fixedLength, hs.fixedImuCalibrations, hfix⟩,
      hoff, hoff',
      (allEqual_both_id cameraStructureEqual_and_values _ _).mp ⟨hs.cameraLength, hs.cameraCalibrations, hcam⟩,
      (allEqual_both_id cacheStructureEqual_and_values _ _).mp ⟨hs.cacheLength, hs.cameraCaches, hcache⟩⟩,
      hs.covariance, hs.activeLength, hs.activeTypes⟩
  · rintro ⟨hf, hcov, nact, hact⟩
    obtain ⟨nfix, hfix, hfix'⟩ := (allEqual_both_id fixedImuStructureEqual_and_values _ _).mpr hf.fixedImuCalibrations
    obtain ⟨ncam, hcam, hcam'⟩ := (allEqual_both_id cameraStructureEqual_and_values _ _).mpr hf.cameraCalibrations
    obtain ⟨ncache, hcache, hcache'⟩ := (allEqual_both_id cacheStructureEqual_and_values _ _).mpr hf.cameraCaches
    refine ⟨⟨hcov, hf.semanticBlocks, nact, hact, nfix, hfix, ?_, ?_, ncam, hcam, ncache, hcache⟩,
      ⟨⟨⟨hfix', hf.timeOffsetNominal⟩, hf.timeOffsetFej⟩, hcam'⟩, hcache'⟩
    · rw [hf.timeOffsetNominal]
      exact matrixShapeEqual_self _
    · rw [hf.timeOffsetFej]
      exact matrixShapeEqual_self _

/-- **`snapshot_payload_equal` decides the equality of payloads.** -/
theorem snapshotPayloadEqual_iff (left right : CP2CompositeStateSnapshot) :
    snapshotPayloadEqual left right = true ↔ left.payload = right.payload := by
  have hactive := allEqual_both_iff activeStructureEqual_and_values left.activeTypes right.activeTypes
  rw [payload_eq_iff, ← hactive]
  simp only [snapshotPayloadEqual, Bool.and_eq_true, bitEqual_iff, matrixBitEqual_iff]
  constructor
  · rintro ⟨⟨⟨⟨hstructure, htime⟩, hcov⟩, hvalues⟩, hfixed⟩
    obtain ⟨hf, -, nact, hact⟩ := structureEqual_and_fixedFieldsEqual.mp ⟨hstructure, hfixed⟩
    exact ⟨htime, hcov, hf.semanticBlocks, ⟨nact, hact, hvalues⟩, hf.fixedImuCalibrations,
      hf.timeOffsetNominal, hf.timeOffsetFej, hf.cameraCalibrations, hf.cameraCaches⟩
  · rintro ⟨htime, hcov, hsem, ⟨nact, hact, hvalues⟩, hfix, hoff, hoff', hcam, hcache⟩
    obtain ⟨hstructure, hfixed⟩ := structureEqual_and_fixedFieldsEqual.mpr
      ⟨⟨hsem, hfix, hoff, hoff', hcam, hcache⟩, by rw [hcov]; exact matrixShapeEqual_self _, nact, hact⟩
    exact ⟨⟨⟨⟨hstructure, htime⟩, hcov⟩, hvalues⟩, hfixed⟩

def CP2ActiveStateType.immutable (type : CP2ActiveStateType) : CP2ActiveStateType × Nat × Nat :=
  ({ type.normalise with nominal := .empty }, type.nominal.rows, type.nominal.cols)

/-- A payload but for the values of its covariance and of its active nominals. -/
def CP2CompositeStateSnapshot.immutable (s : CP2CompositeStateSnapshot) :
    CP2CompositeStateSnapshot × (Nat × Nat) × List (CP2ActiveStateType × Nat × Nat) :=
  ({ s.payload with covariance := .empty, activeTypes := [] }, (s.covariance.rows, s.covariance.cols),
    s.activeTypes.map CP2ActiveStateType.immutable)

theorem activeStructureEqual_and_fej (left right : CP2ActiveStateType) :
    (activeStructureEqual left right && matrixBitEqual left.fej right.fej) = true ↔
      left.immutable = right.immutable := by
  obtain ⟨tag, id, size, time, landmark, nominal, fej⟩ := left
  obtain ⟨tag', id', size', time', landmark', nominal', fej'⟩ := right
  simp only [activeStructureEqual, Bool.and_eq_true, beq_iff_eq, identityEqual_iff, matrixBitEqual_iff,
    matrixShapeEqual_iff, CP2ActiveStateType.immutable, CP2ActiveStateType.normalise,
    CP2ActiveStateType.mk.injEq, Prod.ext_iff]
  constructor
  · rintro ⟨⟨⟨⟨⟨⟨rfl, rfl⟩, rfl⟩, hrows, hcols⟩, -⟩, htime, hlandmark⟩, rfl⟩
    exact ⟨⟨rfl, rfl, rfl, htime, hlandmark, trivial, rfl⟩, hrows, hcols⟩
  · rintro ⟨⟨rfl, rfl, rfl, htime, hlandmark, -, rfl⟩, hrows, hcols⟩
    exact ⟨⟨⟨⟨⟨⟨rfl, rfl⟩, rfl⟩, hrows, hcols⟩, rfl, rfl⟩, htime, hlandmark⟩, rfl⟩

/-- **`immutable_prior_fields_equal` decides it but for the covariance and the active nominals.** -/
theorem immutablePriorFieldsEqual_iff (left right : CP2CompositeStateSnapshot) :
    immutablePriorFieldsEqual left right = true ↔ left.immutable = right.immutable := by
  have hactive := allEqual_both_iff activeStructureEqual_and_fej left.activeTypes right.activeTypes
  have himmutable : left.immutable = right.immutable ↔ left.timestamp = right.timestamp ∧
      FixedEqual left right ∧ matrixShapeEqual left.covariance right.covariance = true ∧
      left.activeTypes.map CP2ActiveStateType.immutable = right.activeTypes.map CP2ActiveStateType.immutable := by
    simp only [CP2CompositeStateSnapshot.immutable, CP2CompositeStateSnapshot.payload,
      CP2CompositeStateSnapshot.normalise, Prod.mk.injEq, CP2CompositeStateSnapshot.mk.injEq,
      matrixShapeEqual_iff]
    constructor
    · rintro ⟨⟨-, htime, -, hsem, -, hfix, hoff, hoff', hcam, hcache⟩, hshape, hact⟩
      exact ⟨htime, ⟨hsem, hfix, hoff, hoff', hcam, hcache⟩, hshape, hact⟩
    · rintro ⟨htime, ⟨hsem, hfix, hoff, hoff', hcam, hcache⟩, hshape, hact⟩
      exact ⟨⟨trivial, htime, trivial, hsem, trivial, hfix, hoff, hoff', hcam, hcache⟩, hshape, hact⟩
  rw [himmutable, ← hactive]
  simp only [immutablePriorFieldsEqual, Bool.and_eq_true, bitEqual_iff]
  constructor
  · rintro ⟨⟨⟨hstructure, htime⟩, hfej⟩, hfixed⟩
    obtain ⟨hf, hcov, nact, hact⟩ := structureEqual_and_fixedFieldsEqual.mp ⟨hstructure, hfixed⟩
    exact ⟨htime, hf, hcov, nact, hact, hfej⟩
  · rintro ⟨htime, hf, hcov, nact, hact, hfej⟩
    obtain ⟨hstructure, hfixed⟩ := structureEqual_and_fixedFieldsEqual.mpr ⟨hf, hcov, nact, hact⟩
    exact ⟨⟨⟨hstructure, htime⟩, hfej⟩, hfixed⟩

/-! ## The counters -/

theorem checkedAddU64_zero (value : UInt64) : checkedAddU64 value 0 = some value := by
  rw [checkedAddU64, if_neg (UInt64.not_lt_zero), UInt64.add_zero]

theorem matrixMismatchCount_self {M : MatrixXd} {population mismatches : UInt64}
    (h : matrixMismatchCount M M = some (population, mismatches)) : mismatches = 0 := by
  have hloop : ∀ coeffs : List Binary64, (coeffs.zip coeffs).foldlM
      (fun count p => if bitEqual p.1 p.2 then some count else checkedAddU64 count 1) (0 : UInt64) = some 0 := by
    intro coeffs
    induction coeffs with
    | nil => rfl
    | cons x coeffs ih =>
      rw [List.zip_cons_cons, List.foldlM_cons, if_pos (bitEqual_iff.mpr rfl)]
      exact ih
  rw [matrixMismatchCount, if_pos (matrixShapeEqual_self M), hloop] at h
  cases hpopulation : checkedMultiplyU64 (UInt64.ofNat M.rows) (UInt64.ofNat M.cols) with
  | none =>
    rw [hpopulation] at h
    cases h
  | some value =>
    rw [hpopulation] at h
    cases h
    rfl

theorem countMismatches_equal {counts counts' : MismatchCounts}
    {actives : CP2ActiveStateType × CP2ActiveStateType × CP2ActiveStateType}
    (hnominal : actives.2.1.nominal = actives.2.2.nominal) (hfej : actives.1.fej = actives.2.2.fej)
    (h : countMismatches counts actives = some counts') :
    counts'.nominalMismatches = counts.nominalMismatches ∧ counts'.fejMismatches = counts.fejMismatches := by
  rw [countMismatches, hnominal, hfej] at h
  simp only [Option.bind_eq_bind, Option.bind_eq_some_iff, Option.pure_def, Option.some.injEq, Prod.exists] at h
  obtain ⟨population, mismatches, hcount, verified, -, nominal, hadd, _, mismatches', hcount', fej, hadd', rfl⟩ := h
  rw [matrixMismatchCount_self hcount, checkedAddU64_zero] at hadd
  rw [matrixMismatchCount_self hcount', checkedAddU64_zero] at hadd'
  exact ⟨(Option.some.inj hadd).symm, (Option.some.inj hadd').symm⟩

theorem foldlM_countMismatches_equal {actives0 actives2 actives3 : List CP2ActiveStateType}
    (h02 : actives0.map CP2ActiveStateType.immutable = actives2.map CP2ActiveStateType.immutable)
    (h23 : actives2.map CP2ActiveStateType.normalise = actives3.map CP2ActiveStateType.normalise)
    {counts counts' : MismatchCounts}
    (h : (actives0.zip (actives2.zip actives3)).foldlM countMismatches counts = some counts') :
    counts'.nominalMismatches = counts.nominalMismatches ∧ counts'.fejMismatches = counts.fejMismatches := by
  induction actives0 generalizing actives2 actives3 counts with
  | nil =>
    cases h
    exact ⟨rfl, rfl⟩
  | cons a actives0 ih =>
    match actives2, actives3, h02, h23, h with
    | b :: actives2, c :: actives3, h02, h23, h =>
      obtain ⟨hab, h02⟩ := List.cons.inj h02
      obtain ⟨hbc, h23⟩ := List.cons.inj h23
      rw [List.zip_cons_cons, List.zip_cons_cons, List.foldlM_cons] at h
      obtain ⟨counts₁, hcount, hrest⟩ := Option.bind_eq_some_iff.mp h
      have hnominal : b.normalise.nominal = c.normalise.nominal := congrArg CP2ActiveStateType.nominal hbc
      have hfej : a.immutable.1.fej = b.immutable.1.fej := congrArg (fun p => p.1.fej) hab
      have hfej' : b.normalise.fej = c.normalise.fej := congrArg CP2ActiveStateType.fej hbc
      obtain ⟨hn, hf⟩ := ih h02 h23 hrest
      obtain ⟨hn', hf'⟩ := countMismatches_equal (by exact hnominal) (by exact hfej.trans hfej') hcount
      exact ⟨hn.trans hn', hf.trans hf'⟩

/-! ## The verdict -/

section Verdict

variable {unitNorm : List Binary64 → Bool} {phase0 phase2 phase3 : CP2CompositeStateSnapshot} {calls : UInt64}

theorem comparePopulations_unset {result : CP2CommitOracleResult}
    (h : comparePopulations unitNorm phase0 phase2 phase3 calls = some result) :
    result.completeCanonicalEqual = false ∧ result.passed = false := by
  simp only [comparePopulations, Option.bind_eq_bind, Option.bind_eq_some_iff, Option.pure_def,
    Option.some.injEq] at h
  obtain ⟨_, -, _, -, _, -, _, -, _, -, rfl⟩ := h
  exact ⟨rfl, rfl⟩

/-- The counters of a comparison that came to its end, over what the traversals found. -/
structure Compared (phase0 phase2 phase3 : CP2CompositeStateSnapshot) (result : CP2CommitOracleResult) : Prop where
  phases : phasesAreExact phase0 phase2 phase3 = true
  canonical : result.completeCanonicalEqual = true →
    phase0.immutable = phase2.immutable ∧ phase2.payload = phase3.payload ∧
      result.baselineNominalMismatches = 0 ∧ result.baselineCovarianceMismatches = 0 ∧
      result.baselineFejMismatches = 0
  passed : result.passed = true → result.completeCanonicalEqual = true

theorem compareCoefficients_compared {result result' : CP2CommitOracleResult}
    (hphases : phasesAreExact phase0 phase2 phase3 = true)
    (hcanonical : result.completeCanonicalEqual =
      (immutablePriorFieldsEqual phase0 phase2 && snapshotPayloadEqual phase2 phase3))
    (h : compareCoefficients phase0 phase2 phase3 result = some result') :
    Compared phase0 phase2 phase3 result' := by
  simp only [compareCoefficients, Option.bind_eq_bind, Option.bind_eq_some_iff, Option.pure_def,
    Option.some.injEq, Prod.exists] at h
  obtain ⟨counts, hcounts, _, mismatches, hcovariance, rfl⟩ := h
  refine ⟨hphases, fun hequal => ?_, fun hpassed => ?_⟩
  · have hequal : (immutablePriorFieldsEqual phase0 phase2 && snapshotPayloadEqual phase2 phase3) = true := by
      rw [← hcanonical]
      exact hequal
    rw [Bool.and_eq_true, immutablePriorFieldsEqual_iff, snapshotPayloadEqual_iff] at hequal
    obtain ⟨h02, h23⟩ := hequal
    obtain ⟨-, hcov, -, hact, -⟩ := (payload_eq_iff phase2 phase3).mp h23
    obtain ⟨hnominal, hfej⟩ := foldlM_countMismatches_equal (congrArg (fun p => p.2.2) h02) hact hcounts
    rw [hcov] at hcovariance
    exact ⟨h02, h23, hnominal, matrixMismatchCount_self hcovariance, hfej⟩
  · have hpassed : (_ && _ && _ && _ && result.completeCanonicalEqual && _ && _ && _ && _) = true := hpassed
    simp only [Bool.and_eq_true] at hpassed
    exact hpassed.1.1.1.1.2

theorem compare_cases :
    ((compare unitNorm phase0 phase2 phase3 calls).completeCanonicalEqual = false ∧
      (compare unitNorm phase0 phase2 phase3 calls).passed = false) ∨
    Compared phase0 phase2 phase3 (compare unitNorm phase0 phase2 phase3 calls) := by
  rw [compare]
  cases hpopulations : comparePopulations unitNorm phase0 phase2 phase3 calls with
  | none => exact .inl ⟨rfl, rfl⟩
  | some result =>
    obtain ⟨hunset, hunset'⟩ := comparePopulations_unset hpopulations
    dsimp only
    cases hphases : phasesAreExact phase0 phase2 phase3 with
    | false => exact .inl ⟨hunset, hunset'⟩
    | true =>
      rw [if_neg (by decide)]
      split
      case isTrue => exact .inl ⟨hunset, hunset'⟩
      case isFalse =>
          -- an overflow of the counters leaves the default result
          cases hcoefficients : compareCoefficients phase0 phase2 phase3 { result with
            structureEqual := true
            phase0Phase2ImmutableEqual := immutablePriorFieldsEqual phase0 phase2
            phase2Phase3CanonicalEqual := snapshotPayloadEqual phase2 phase3
            completeCanonicalEqual :=
              immutablePriorFieldsEqual phase0 phase2 && snapshotPayloadEqual phase2 phase3 } with
          | none => exact .inl ⟨rfl, rfl⟩
          | some result' => exact .inr (compareCoefficients_compared hphases rfl hcoefficients)

end Verdict

theorem encode_eq_of_payload_eq {a b : CP2CompositeStateSnapshot} (h : a.payload = b.payload)
    (hdomain : samePayloadDomain a.phase b.phase = true) {bytes : List UInt8}
    (ha : encodeSnapshotPayload a = .ok bytes) : encodeSnapshotPayload b = .ok bytes := by
  obtain ⟨hencodable, rfl⟩ := (encodeSnapshotPayload_eq_ok {}).mp ha
  have hb : b.Encodable := by
    have hbody : ∀ s : CP2CompositeStateSnapshot, s.payload.Encodable ↔ s.Encodable := by
      intro s
      rw [← s.encodable_normalise]
      exact ⟨fun ⟨h₁, h₂, h₃, h₄, h₅⟩ => ⟨h₁, h₂, h₃, h₄, h₅⟩, fun ⟨h₁, h₂, h₃, h₄, h₅⟩ => ⟨h₁, h₂, h₃, h₄, h₅⟩⟩
    rwa [← hbody, ← h, hbody]
  rw [(encodeSnapshotPayload_eq_ok {}).mpr ⟨hb, rfl⟩, Except.ok.injEq]
  exact ((snapshotBytes_eq_iff {} hencodable hb hdomain).mpr h).symm

theorem oracle_equality_is_byte_equality (unitNorm : List Binary64 → Bool) :
    (∀ a b : CP2CompositeStateSnapshot, a.Encodable → b.Encodable →
      samePayloadDomain a.phase b.phase = true →
        (snapshotPayloadEqual a b = true ↔ encodeSnapshotPayload a = encodeSnapshotPayload b) ∧
        (validate unitNorm a = .kAccepted → validate unitNorm b = .kAccepted →
          (snapshotPayloadEqual a b = true ↔ canonicallyEqual a b = true))) ∧
    (∀ (phase0 phase2 phase3 : CP2CompositeStateSnapshot) (calls : UInt64),
      let result := compare unitNorm phase0 phase2 phase3 calls
      (result.passed = true →
        (∀ bytes, encodeSnapshotPayload phase2 = .ok bytes ↔ encodeSnapshotPayload phase3 = .ok bytes) ∧
        (encodeSnapshotPayload phase2).toOption.map sha256Hex =
          (encodeSnapshotPayload phase3).toOption.map sha256Hex ∧
        phase0.immutable = phase2.immutable ∧
        result.baselineNominalMismatches = 0 ∧ result.baselineCovarianceMismatches = 0 ∧
        result.baselineFejMismatches = 0) ∧
      (result.completeCanonicalEqual = true →
        result.baselineCovarianceMismatches = 0 ∧ result.baselineNominalMismatches = 0 ∧
        result.baselineFejMismatches = 0)) := by
  refine ⟨fun a b ha hb hdomain => ?_, fun phase0 phase2 phase3 calls => ?_⟩
  · have hpayload := snapshotPayloadEqual_iff a b
    refine ⟨hpayload.trans (encodeSnapshotPayload_eq_iff ha hb hdomain).symm, fun _ _ => ?_⟩
    rw [hpayload, canonicallyEqual_iff, and_iff_right hdomain]
  · dsimp only
    rcases @compare_cases unitNorm phase0 phase2 phase3 calls with ⟨hcanonical, hpassed⟩ | hcompared
    · rw [hcanonical, hpassed]
      exact ⟨nofun, nofun⟩
    · refine ⟨fun hpassed => ?_, fun hcanonical => ?_⟩
      · obtain ⟨h02, h23, hnominal, hcovariance, hfej⟩ := hcompared.canonical (hcompared.passed hpassed)
        have hdomain : samePayloadDomain phase2.phase phase3.phase = true := by
          have := hcompared.phases
          simp only [phasesAreExact, Bool.and_eq_true, beq_iff_eq] at this
          rw [this.1.2, this.2]
          rfl
        have hdomain' : samePayloadDomain phase3.phase phase2.phase = true := by
          rw [samePayloadDomain_iff] at hdomain ⊢
          exact hdomain.symm
        have hbytes : ∀ bytes, encodeSnapshotPayload phase2 = .ok bytes ↔ encodeSnapshotPayload phase3 = .ok bytes :=
          fun _ => ⟨encode_eq_of_payload_eq h23 hdomain, encode_eq_of_payload_eq h23.symm hdomain'⟩
        have hoption : (encodeSnapshotPayload phase2).toOption = (encodeSnapshotPayload phase3).toOption := by
          refine Option.ext fun bytes => ?_
          have hok : ∀ x : Except String (List UInt8), x.toOption = some bytes ↔ x = .ok bytes := fun x => by
            cases x <;> simp [Except.toOption]
          rw [hok, hok]
          exact hbytes bytes
        exact ⟨hbytes, by rw [hoption], h02, hnominal, hcovariance, hfej⟩
      · obtain ⟨-, -, hnominal, hcovariance, hfej⟩ := hcompared.canonical hcanonical
        exact ⟨hcovariance, hnominal, hfej⟩

example : (compare restUnitNorm restSnapshot { restSnapshot with phase := .kPhase2ExpectedPostcommit }
    { restSnapshot with phase := .kPhase3LivePostcommit } 1).passed = true := by decide +kernel

end Bravo.Trace
