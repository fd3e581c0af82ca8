import Bravo.Journal.Record
import Bravo.Shadow.Matrix

/-! # The per-feature gate

`CP2FeatureGate::Evaluate`. The floating-point kernels it calls are parameters (`Arithmetic`); the
layout check, the marginal covariance and the order of the checks are those of the source.
-/

namespace Bravo.Shadow

open Bravo.Trace Bravo.Journal

/-! ## Arithmetic -/

/-- The floating-point operations that the reducers, the gates and the assembly are built from, as
the compiled program evaluates them. A kernel that keeps the shape of its argument is given by the
coefficients of its result. -/
structure Arithmetic where
  add : Binary64 → Binary64 → Binary64
  mul : Binary64 → Binary64 → Binary64
  div : Binary64 → Binary64 → Binary64
  /-- `std::fegetround() == FE_TONEAREST` -/
  roundsToNearest : Bool
  storage : Nat → Nat → Binary64
  /-- The rows of `H_x` after the rotations of `nullspace_project_inplace`. -/
  givensJacobian : MatrixXd → MatrixXd → VectorXd → Nat → Nat → Binary64
  givensResidual : MatrixXd → MatrixXd → VectorXd → Nat → Binary64
  /-- The rows of `H_x` after the rotations of `measurement_compress_inplace`. -/
  compressJacobian : MatrixXd → VectorXd → Nat → Nat → Binary64
  compressResidual : MatrixXd → VectorXd → Nat → Binary64
  /-- `A.transpose() * A` -/
  gram : MatrixXd → MatrixXd
  /-- The largest row sum of `|raw_lambda - raw_lambda.transpose()|`. -/
  symmetryError : MatrixXd → Binary64
  /-- `0.5 * (raw_lambda + raw_lambda.transpose())` -/
  symmetrized : MatrixXd → MatrixXd
  /-- `A.transpose() * b` -/
  transposeMul : MatrixXd → VectorXd → VectorXd
  squaredNorm : VectorXd → Binary64
  normMatrix : MatrixXd → Binary64
  normVector : VectorXd → Binary64
  subMatrix : MatrixXd → MatrixXd → MatrixXd
  subVector : VectorXd → VectorXd → VectorXd
  abs : Binary64 → Binary64
  /-- `H * P_marg * H.transpose()` with the variance on the diagonal. -/
  innovation : MatrixXd → MatrixXd → Binary64 → MatrixXd
  /-- `LLT(S).info() == Success` -/
  factorizes : MatrixXd → Bool
  /-- `LLT(S).solve(residual)` and whether `info()` is still `Success`. -/
  solve : MatrixXd → VectorXd → VectorXd × Bool
  dot : VectorXd → VectorXd → Binary64
  /-- The 95% quantile of the chi-squared distribution. -/
  quantile : Nat → Binary64

/-! ## Projection and compression -/

section Projection

variable (A : Arithmetic)

/-- `UpdaterHelper::nullspace_project_inplace`: rotate, then drop the first `H_f.cols()` rows. -/
def nullspaceProject (H_f H_x : MatrixXd) (residual : VectorXd) : MatrixXd × VectorXd :=
  (.ofFn (H_x.rows - H_f.cols) H_x.cols fun i j =>
      A.givensJacobian H_f H_x residual (i + H_f.cols) j,
    .ofFn (residual.rows - H_f.cols) fun i => A.givensResidual H_f H_x residual (i + H_f.cols))

/-- `UpdaterHelper::measurement_compress_inplace` -/
def measurementCompress (H : MatrixXd) (residual : VectorXd) : MatrixXd × VectorXd :=
  if H.rows ≤ H.cols then (H, residual)
  else
    let r := min H.rows H.cols
    (.ofFn r H.cols (A.compressJacobian H residual), .ofFn r (A.compressResidual H residual))

theorem rows_measurementCompress_le (H : MatrixXd) (residual : VectorXd) :
    (measurementCompress A H residual).1.rows ≤ H.rows := by
  unfold measurementCompress
  split
  · exact Nat.le_refl _
  · have hr : min H.rows H.cols < indexLimit := lt_of_le_of_lt (Nat.min_le_left _ _) H.rows_lt
    simp only [MatrixXd.rows_ofFn hr H.cols_lt]
    exact Nat.min_le_left _ _

end Projection

/-! ## Layout -/

/-- An input of the gate. `emittedSystemAvailable` is false only for `ReductionUnavailable()`. -/
structure CP2FeatureGateInput where
  emittedSystemAvailable : Bool := false
  evidenceReductionAvailable : Bool := false
  H : MatrixXd := .empty
  residual : VectorXd := .empty
  priorCovariance : MatrixXd := .empty
  layout : List CP2FeatureGateLayoutBlock := []
  sigmaPxSq : Binary64 := quietNaN
  chi2Multiplier : Binary64 := quietNaN

def rangesMeet (id size id' size' : Int) : Bool :=
  decide (id < id' + size') && decide (id' < id + size)

/-- The loop of `layout_is_valid`, after the blocks `previous` which end at column `offset`. -/
def layoutBlocksValid (cols rows : Nat) :
    List CP2FeatureGateLayoutBlock → Int → List CP2FeatureGateLayoutBlock → Bool
  | _, offset, [] => decide (offset = cols)
  | previous, offset, block :: rest =>
    let id := block.covarianceId.toInt
    let size := block.size.toInt
    if size ≤ 0 ∨ id < 0 ∨ block.H_offset.toInt ≠ offset then false
    else if offset > cols ∨ size > cols - offset then false
    else if id > rows ∨ size > rows - id then false
    else if previous.any fun p =>
        rangesMeet id size p.covarianceId.toInt p.size.toInt then false
    else layoutBlocksValid cols rows (previous ++ [block]) (offset + size) rest

def layoutIsValid (input : CP2FeatureGateInput) : Bool :=
  decide (input.priorCovariance.rows = input.priorCovariance.cols) &&
    layoutBlocksValid input.H.cols input.priorCovariance.rows [] 0 input.layout

def marginalBlock (prior : MatrixXd) (P : MatrixXd)
    (blocks : CP2FeatureGateLayoutBlock × CP2FeatureGateLayoutBlock) : MatrixXd :=
  P.setBlock blocks.1.H_offset.toInt.toNat blocks.2.H_offset.toInt.toNat
    blocks.1.size.toInt.toNat blocks.2.size.toInt.toNat fun i j =>
      prior.coeff (blocks.1.covarianceId.toInt.toNat + i) (blocks.2.covarianceId.toInt.toNat + j)

/-- `P_marg`: the blocks of the prior in the order of the layout. -/
def marginalCovariance (input : CP2FeatureGateInput) : MatrixXd :=
  (input.layout.product input.layout).foldl (marginalBlock input.priorCovariance)
    (.zero input.H.cols input.H.cols)

/-! ## The gate -/

/-- `std::map<int, double>`, as the pairs of key and value. -/
abbrev ChiSquaredTable := List (Int × Binary64)

section Evaluate

variable (A : Arithmetic)

def failedStage (evidence : Bool) (stage : CP2FeatureGateStage) : CP2FeatureGateStage :=
  if evidence then stage else .kReductionUnavailable

def chi2Check (table : ChiSquaredTable) (rows : Nat) : Binary64 :=
  if rows < 500 then (table.lookup (rows : Int)).getD quietNaN else A.quantile rows

variable (input : CP2FeatureGateInput)

/-- The first part of `Evaluate`: the statistic of an emitted system, or the check that fails. None
of it looks at `evidence_reduction_available`. -/
def gateStatistic : Except CP2FeatureGateStage Binary64 :=
  if !layoutIsValid input then .error .kInnovationNonfinite
  else if !input.sigmaPxSq.isFinite || !decide ((⟨0⟩ : Binary64) < input.sigmaPxSq) then
    .error .kInnovationNonfinite
  else
    let P_marg := marginalCovariance input
    let S := A.innovation input.H P_marg input.sigmaPxSq
    if input.residual.rows = 0 ∨ input.H.rows ≠ input.residual.rows ∨ P_marg.rows ≠ input.H.cols ∨
        P_marg.cols ≠ input.H.cols ∨ S.rows ≠ input.residual.rows ∨ S.cols ≠ input.residual.rows ∨
        !input.H.allFinite ∨ !input.residual.allFinite ∨ !P_marg.allFinite ∨ !S.allFinite then
      .error .kInnovationNonfinite
    else if !A.factorizes S then .error .kFactorizationFailed
    else
      let solved := A.solve S input.residual
      let chi2 := A.dot input.residual solved.1
      if !solved.2 || !solved.1.allFinite || !chi2.isFinite then .error .kSolveOrNISNonfinite
      else .ok chi2

def evaluate (table : ChiSquaredTable) : CP2FeatureGateResult :=
  let evidence := input.evidenceReductionAvailable
  let result : CP2FeatureGateResult := { degreesOfFreedom := Int64.ofNat input.residual.rows }
  if !input.emittedSystemAvailable then result
  else
    match gateStatistic A input with
    | .error stage => { result with stage := failedStage evidence stage }
    | .ok chi2 =>
      let check := chi2Check A table input.residual.rows
      let threshold := A.mul input.chi2Multiplier check
      -- `chi2` is recorded only where the reduction is evidence.
      let result := { result with
        chi2Available := evidence
        chi2 := if evidence then chi2 else quietNaN
        lifecycleAccept := !decide (threshold < chi2) }
      if !check.isFinite || !threshold.isFinite then
        { result with stage := failedStage evidence .kThresholdNonfinite }
      else if !evidence then result
      else { result with
        thresholdAvailable := true
        threshold := threshold
        evidenceDecisionAvailable := true
        evidenceAccept := result.lifecycleAccept
        stage := .kDecision }

theorem lifecycleAccept_evaluate_eq (table : ChiSquaredTable) :
    (evaluate A input table).lifecycleAccept =
      (input.emittedSystemAvailable &&
        match gateStatistic A input with
        | .error _ => false
        | .ok chi2 =>
          !decide (A.mul input.chi2Multiplier (chi2Check A table input.residual.rows) < chi2)) := by
  unfold evaluate
  cases input.emittedSystemAvailable with
  | false => rfl
  | true =>
    cases gateStatistic A input with
    | error stage => rfl
    | ok chi2 =>
      simp only [Bool.not_true, Bool.false_eq_true, if_false, Bool.true_and]
      split_ifs <;> rfl

theorem lifecycleAccept_evaluate (table : ChiSquaredTable) (evidence : Bool) :
    (evaluate A { input with evidenceReductionAvailable := evidence } table).lifecycleAccept =
      (evaluate A input table).lifecycleAccept := by
  rw [lifecycleAccept_evaluate_eq, lifecycleAccept_evaluate_eq]
  rfl

theorem evidenceAccept_evaluate {input : CP2FeatureGateInput} {table : ChiSquaredTable}
    (h : (evaluate A input table).evidenceDecisionAvailable = true) :
    (evaluate A input table).evidenceAccept = (evaluate A input table).lifecycleAccept := by
  revert h
  unfold evaluate
  cases input.emittedSystemAvailable with
  | false => simp
  | true =>
    cases gateStatistic A input with
    | error stage => simp
    | ok chi2 =>
      simp only [Bool.not_true, Bool.false_eq_true, if_false]
      split_ifs <;> simp

end Evaluate

end Bravo.Shadow
