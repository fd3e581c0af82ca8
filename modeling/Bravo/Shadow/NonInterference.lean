import Bravo.Shadow.Process

/-! # The candidate cannot influence the baseline

Both modes of the shadow computation share one traversal and one result. What the result says about
one mode is a function of that mode's own reducer and gate: two runs that differ only in the other
mode's callees agree on it.
-/

namespace Bravo.Shadow

open Bravo.Trace Bravo.Journal

variable (A : Arithmetic) (preview : Preview)

/-! ## Features -/

theorem checkedIndexToU64_rows (M : MatrixXd) :
    ∃ weight, checkedIndexToU64 (Int64.ofNat M.rows) = some weight := by
  have hrows : (Int64.ofNat M.rows).toInt = M.rows := Int64.toInt_ofNat_of_lt M.rows_lt
  unfold checkedIndexToU64
  rw [hrows, if_neg (by omega)]
  exact ⟨_, rfl⟩

@[simp] theorem rawLayoutValid_processFeature (paths : ShadowPaths) (input : CP2ShadowMathInput)
    (raw : CP2RawFeatureSystem) :
    (processFeature A paths input raw).rawLayoutValid = rawLayoutIsValid raw input.prior := by
  obtain ⟨weight, hweight⟩ := checkedIndexToU64_rows raw.H_f
  unfold processFeature
  simp only [hweight]
  split <;> simp

/-! ## One mode -/

structure NullspaceSide where
  features : List (UInt64 × Bool × NullspaceReduction × CP2FeatureGateResult)
  assemblyValid : Bool
  mode : GlobalMode

def nullspaceSide (r : ShadowResult) : NullspaceSide where
  features := r.features.map fun f => (f.featureId, f.rawLayoutValid, f.nullspace, f.nullspaceGate)
  assemblyValid := r.nullspaceAssemblyValid
  mode := r.nullspace

structure SchurSide where
  features : List (UInt64 × Bool × SchurReduction × CP2FeatureGateResult)
  assemblyValid : Bool
  mode : GlobalMode

def schurSide (r : ShadowResult) : SchurSide where
  features := r.features.map fun f => (f.featureId, f.rawLayoutValid, f.schur, f.schurGate)
  assemblyValid := r.schurAssemblyValid
  mode := r.schur

section Traversal

variable {select : CP2RawFeatureSystem → FeaturePair → Option AcceptedSystem}
  {process process' : CP2RawFeatureSystem → FeaturePair}

theorem acceptedSystems_congr
    (h : ∀ raw, select raw (process raw) = select raw (process' raw))
    (raws : List CP2RawFeatureSystem) :
    acceptedSystems select raws (raws.map process) =
      acceptedSystems select raws (raws.map process') := by
  unfold acceptedSystems
  induction raws with
  | nil => rfl
  | cons raw raws ih =>
    simp only [List.map_cons, List.zip_cons_cons, List.filterMap_cons, h raw, ih]

end Traversal

section TwoRuns

variable {paths paths' : ShadowPaths} (input : CP2ShadowMathInput)

theorem nullspace_processFeature (hreduce : paths.nullspace = paths'.nullspace)
    (hgate : paths.nullspaceGate = paths'.nullspaceGate) (raw : CP2RawFeatureSystem) :
    (processFeature A paths input raw).nullspace = (processFeature A paths' input raw).nullspace ∧
      (processFeature A paths input raw).nullspaceGate =
        (processFeature A paths' input raw).nullspaceGate := by
  constructor
  · simp only [processFeature, hreduce]
  · simp only [processFeature, hreduce, hgate]

theorem schur_processFeature (hreduce : paths.schur = paths'.schur)
    (hgate : paths.schurGate = paths'.schurGate) (raw : CP2RawFeatureSystem) :
    (processFeature A paths input raw).schur = (processFeature A paths' input raw).schur ∧
      (processFeature A paths input raw).schurGate =
        (processFeature A paths' input raw).schurGate := by
  constructor
  · simp only [processFeature, hreduce]
  · simp only [processFeature, hreduce, hgate]

theorem featureId_processFeature (paths : ShadowPaths) (raw : CP2RawFeatureSystem) :
    (processFeature A paths input raw).featureId = raw.featureId := rfl

theorem nullspaceSide_processWith (hreduce : paths.nullspace = paths'.nullspace)
    (hgate : paths.nullspaceGate = paths'.nullspaceGate) :
    nullspaceSide (processWith A preview paths input) =
      nullspaceSide (processWith A preview paths' input) := by
  have hreduction : ∀ raw, (processFeature A paths input raw).nullspace =
      (processFeature A paths' input raw).nullspace :=
    fun raw => (nullspace_processFeature A input hreduce hgate raw).1
  have hdecision : ∀ raw, (processFeature A paths input raw).nullspaceGate =
      (processFeature A paths' input raw).nullspaceGate :=
    fun raw => (nullspace_processFeature A input hreduce hgate raw).2
  have hsystems := acceptedSystems_congr
    (fun raw => show nullspaceSystem raw (processFeature A paths input raw) =
        nullspaceSystem raw (processFeature A paths' input raw) by
      simp only [nullspaceSystem, rawLayoutValid_processFeature, featureId_processFeature,
        hreduction, hdecision])
    input.rawSystems
  unfold processWith nullspaceSide
  simp only [buildGlobalModes_eq]
  by_cases hstart : startupInputIsValid A input = true
  · by_cases hempty : input.rawSystems.isEmpty = true
    · simp [hstart, hempty, Function.comp_def, featureId_processFeature, hreduction, hdecision]
    · simp [hstart, hempty, Function.comp_def, featureId_processFeature, hreduction, hdecision,
        hsystems]
  · simp [hstart]

theorem schurSide_processWith (hreduce : paths.schur = paths'.schur)
    (hgate : paths.schurGate = paths'.schurGate) :
    schurSide (processWith A preview paths input) =
      schurSide (processWith A preview paths' input) := by
  have hreduction : ∀ raw, (processFeature A paths input raw).schur =
      (processFeature A paths' input raw).schur :=
    fun raw => (schur_processFeature A input hreduce hgate raw).1
  have hdecision : ∀ raw, (processFeature A paths input raw).schurGate =
      (processFeature A paths' input raw).schurGate :=
    fun raw => (schur_processFeature A input hreduce hgate raw).2
  have hsystems := acceptedSystems_congr
    (fun raw => show schurSystem raw (processFeature A paths input raw) =
        schurSystem raw (processFeature A paths' input raw) by
      simp only [schurSystem, rawLayoutValid_processFeature, featureId_processFeature,
        hreduction, hdecision])
    input.rawSystems
  unfold processWith schurSide
  simp only [buildGlobalModes_eq]
  by_cases hstart : startupInputIsValid A input = true
  · by_cases hempty : input.rawSystems.isEmpty = true
    · simp [hstart, hempty, Function.comp_def, featureId_processFeature, hreduction, hdecision]
    · simp [hstart, hempty, Function.comp_def, featureId_processFeature, hreduction, hdecision,
        hsystems]
  · simp [hstart]

end TwoRuns

/-! ## The statement -/

/-- Neither mode depends on the other one's reducer or gate, and a gate decides the same whether or
not its reduction counts as evidence. -/
theorem modes_do_not_interfere :
    (∀ (input : CP2ShadowMathInput) (nullspace : CP2RawFeatureSystem → Binary64 → NullspaceReduction)
        (gate : CP2FeatureGateInput → ChiSquaredTable → CP2FeatureGateResult)
        (schur schur' : MatrixXd → MatrixXd → VectorXd → Binary64 → SchurReduction)
        (schurGate schurGate' : CP2FeatureGateInput → ChiSquaredTable → CP2FeatureGateResult),
        nullspaceSide (processWith A preview ⟨nullspace, schur, gate, schurGate⟩ input) =
          nullspaceSide (processWith A preview ⟨nullspace, schur', gate, schurGate'⟩ input)) ∧
      (∀ (input : CP2ShadowMathInput)
        (schur : MatrixXd → MatrixXd → VectorXd → Binary64 → SchurReduction)
        (gate : CP2FeatureGateInput → ChiSquaredTable → CP2FeatureGateResult)
        (nullspace nullspace' : CP2RawFeatureSystem → Binary64 → NullspaceReduction)
        (nullspaceGate nullspaceGate' : CP2FeatureGateInput → ChiSquaredTable →
          CP2FeatureGateResult),
        schurSide (processWith A preview ⟨nullspace, schur, nullspaceGate, gate⟩ input) =
          schurSide (processWith A preview ⟨nullspace', schur, nullspaceGate', gate⟩ input)) ∧
      (∀ (input : CP2FeatureGateInput) (table : ChiSquaredTable),
        (evaluate A { input with evidenceReductionAvailable := true } table).lifecycleAccept =
          (evaluate A { input with evidenceReductionAvailable := false } table).lifecycleAccept) ∧
      ∀ (input : CP2FeatureGateInput) (table : ChiSquaredTable),
        (evaluate A input table).evidenceDecisionAvailable = true →
          (evaluate A input table).evidenceAccept = (evaluate A input table).lifecycleAccept := by
  refine ⟨?_, ?_, ?_, ?_⟩
  · intro input nullspace gate schur schur' schurGate schurGate'
    exact nullspaceSide_processWith A preview input rfl rfl
  · intro input schur gate nullspace nullspace' nullspaceGate nullspaceGate'
    exact schurSide_processWith A preview input rfl rfl
  · intro input table
    exact (lifecycleAccept_evaluate A input table true).trans
      (lifecycleAccept_evaluate A input table false).symm
  · intro input table h
    exact evidenceAccept_evaluate A h

def one : Binary64 := ⟨0x3ff0000000000000⟩

/-- The arithmetic of one zero residual under a unit prior and a unit variance: the innovation
is 2, the solution and the statistic are 0, and the factor 1 leaves a threshold as it is. -/
def unitArithmetic : Arithmetic where
  add x _ := x
  mul _ y := y
  div x _ := x
  roundsToNearest := true
  storage _ _ := ⟨0⟩
  givensJacobian _ H_x _ := H_x.coeff
  givensResidual _ _ residual := residual.coeff
  compressJacobian H _ := H.coeff
  compressResidual _ residual := residual.coeff
  gram M := M
  symmetryError _ := ⟨0⟩
  symmetrized M := M
  transposeMul _ b := b
  squaredNorm _ := ⟨0⟩
  normMatrix _ := ⟨0⟩
  normVector _ := ⟨0⟩
  subMatrix M _ := M
  subVector v _ := v
  abs x := x
  innovation _ _ _ := ⟨1, 1, [⟨0x4000000000000000⟩], by decide, one_lt_indexLimit, one_lt_indexLimit⟩
  factorizes _ := true
  solve _ residual := (residual, true)
  dot _ _ := ⟨0⟩
  quantile _ := one

def unitMatrix : MatrixXd := ⟨1, 1, [one], rfl, one_lt_indexLimit, one_lt_indexLimit⟩

def unitGateInput : CP2FeatureGateInput where
  emittedSystemAvailable := true
  evidenceReductionAvailable := true
  H := unitMatrix
  residual := ⟨[⟨0⟩], one_lt_indexLimit⟩
  priorCovariance := unitMatrix
  layout := [⟨0, 1, 0⟩]
  sigmaPxSq := one
  chi2Multiplier := one

/-- On this input the gate reaches a decision, and it is the live one. -/
theorem modes_do_not_interfere_unit :
    (evaluate unitArithmetic unitGateInput [(1, ⟨0x400ebb8bf0e8f7ae⟩)]).evidenceDecisionAvailable =
        true ∧
      (evaluate unitArithmetic unitGateInput [(1, ⟨0x400ebb8bf0e8f7ae⟩)]).evidenceAccept =
        (evaluate unitArithmetic unitGateInput [(1, ⟨0x400ebb8bf0e8f7ae⟩)]).lifecycleAccept := by
  have hdecision : (evaluate unitArithmetic unitGateInput
      [(1, ⟨0x400ebb8bf0e8f7ae⟩)]).evidenceDecisionAvailable = true := by decide
  exact ⟨hdecision, (modes_do_not_interfere unitArithmetic (fun _ _ _ _ _ => {})).2.2.2 _ _ hdecision⟩

end Bravo.Shadow
