import Bravo.Shadow.Process

/-! # The Schur reduction

`SchurUpdate::Reduce` on binary64 matrices: the ordered rank policy on the whitened feature
Jacobian, the Householder transform of the augmented system and the statistics of its last rows. The
two factorisations are parameters. An accepted reduction has the sizes its caller relies on
(`SchurReduction.shape_of_accepted`).
-/

namespace Bravo.Shadow

open Bravo.Trace Bravo.Journal

/-! ## Factorisations -/

/-- The factorisations of the whitened `B`, as the library computes them. -/
structure Factorizations where
  /-- `JacobiSVD(B).singularValues()` -/
  singularValues : MatrixXd → VectorXd
  /-- `HouseholderQR(B).matrixQR()` -/
  matrixQR : MatrixXd → MatrixXd
  /-- `HouseholderQR(B).hCoeffs()` -/
  hCoeffs : MatrixXd → VectorXd
  /-- `HouseholderQR(B).householderQ().adjoint() * augmented` -/
  adjointMul : MatrixXd → MatrixXd → MatrixXd
  /-- `static_cast<double>` of a number of rows -/
  ofIndex : Nat → Binary64

/-- `std::numeric_limits<double>::min()` -/
def doubleMin : Binary64 := ⟨0x0010000000000000⟩

/-- `std::numeric_limits<double>::epsilon()` -/
def doubleEpsilon : Binary64 := ⟨0x3cb0000000000000⟩

/-- `kMinimumSingularRatio`, which is `1.0e-6` -/
def minimumSingularRatio : Binary64 := ⟨0x3eb0c6f7a0b5ed8d⟩

/-- `SchurReductionResult` with the fields that the journal leaves out. -/
structure SchurReport extends SchurReduction where
  numericalRankAvailable : Bool := false
  numericalRank : Nat := 0
  conditionNumberAvailable : Bool := false
  conditionNumber : Binary64 := quietNaN
  noiseVariance : Binary64 := quietNaN

/-! ## The steps -/

section Reduce

variable (A : Arithmetic) (F : Factorizations)

def scaleMatrix (scale : Binary64) (M : MatrixXd) : MatrixXd :=
  .ofFn M.rows M.cols fun i j => A.mul scale (M.coeff i j)

def scaleVector (scale : Binary64) (v : VectorXd) : VectorXd :=
  .ofFn v.rows fun i => A.mul scale (v.coeff i)

/-- `[A b]` -/
def augmentedSystem (M : MatrixXd) (b : VectorXd) : MatrixXd :=
  .ofFn M.rows (M.cols + 1) fun i j => if j < M.cols then M.coeff i j else b.coeff i

/-- `transformed.bottomRows(m - 3).leftCols(n)` -/
def reducedJacobian (m n : Nat) (transformed : MatrixXd) : MatrixXd :=
  .ofFn (m - 3) n fun i j => transformed.coeff (i + 3) j

/-- `transformed.bottomRows(m - 3).col(n)` -/
def reducedResidual (m n : Nat) (transformed : MatrixXd) : VectorXd :=
  .ofFn (m - 3) fun i => transformed.coeff (i + 3) n

def emitReduced (report : SchurReport) (sigmaPx : Binary64) (whitened : MatrixXd)
    (b : VectorXd) : SchurReport :=
  let H_reduced := scaleMatrix A sigmaPx whitened
  let residualReduced := scaleVector A sigmaPx b
  let noiseVariance := A.mul sigmaPx sigmaPx
  if !H_reduced.allFinite || !residualReduced.allFinite || !noiseVariance.isFinite ||
      !decide ((⟨0⟩ : Binary64) < noiseVariance) then
    { report with status := .kNonfinite, stage := .kReducedOutputs }
  else
    let rawLambda := A.gram whitened
    let symmetryError :=
      if rawLambda.rows * rawLambda.cols = 0 then ⟨0⟩ else A.symmetryError rawLambda
    if !rawLambda.allFinite || !symmetryError.isFinite then
      { report with status := .kNonfinite, stage := .kStatistics }
    else
      let lambda := A.symmetrized rawLambda
      let eta := A.transposeMul whitened b
      let gamma := A.squaredNorm b
      if !lambda.allFinite || !eta.allFinite || !gamma.isFinite then
        { report with status := .kNonfinite, stage := .kStatistics }
      else
        { report with
          H_reduced := H_reduced
          residualReduced := residualReduced
          noiseVariance := noiseVariance
          lambda := lambda
          eta := eta
          gamma := gamma
          rawLambdaSymmetryErrorInf := symmetryError
          degreesOfFreedom := Int64.ofNat whitened.rows
          status := .kAccepted
          stage := .kAccepted }

def transformAndEmit (report : SchurReport) (sigmaPx : Binary64) (whitened B : MatrixXd)
    (b : VectorXd) : SchurReport :=
  if !(F.matrixQR B).allFinite || !(F.hCoeffs B).allFinite then
    { report with status := .kNonfinite, stage := .kQrFactors }
  else
    let augmented := augmentedSystem whitened b
    let transformed := F.adjointMul B augmented
    if transformed.rows ≠ B.rows ∨ transformed.cols ≠ augmented.cols ∨
        transformed.allFinite = false then
      { report with status := .kNonfinite, stage := .kQrTransform }
    else
      emitReduced A report sigmaPx (reducedJacobian B.rows whitened.cols transformed)
        (reducedResidual B.rows whitened.cols transformed)

def spectrumReport (report : SchurReport) (m : Nat) (s₁ s₂ s₃ : Binary64) : SchurReport :=
  let numericalFloor := A.mul (A.mul (F.ofIndex (max m 3)) doubleEpsilon) s₁
  { report with
    numericalRank := [s₁, s₂, s₃].countP fun s => decide (numericalFloor < s)
    numericalRankAvailable := true
    singularRatio := A.div s₃ s₁
    singularRatioAvailable := true
    conditionNumber := if (⟨0⟩ : Binary64) < s₃ then A.div s₁ s₃ else report.conditionNumber
    conditionNumberAvailable := decide ((⟨0⟩ : Binary64) < s₃) }

/-- The rank policy on the whitened `B`, and what follows it. -/
def rankPolicy (report : SchurReport) (sigmaPx : Binary64) (whitened B : MatrixXd)
    (b : VectorXd) : SchurReport :=
  let spectrum := F.singularValues B
  if spectrum.rows ≠ 3 ∨ spectrum.allFinite = false then
    { report with status := .kNonfinite, stage := .kSvdSpectrum }
  else
    let s₁ := spectrum.coeff 0
    let s₂ := spectrum.coeff 1
    let s₃ := spectrum.coeff 2
    let report := { report with singularValues := (s₁, s₂, s₃), singularValuesAvailable := true }
    if !decide (doubleMin < s₁) then
      { report with status := .kRankDeficient, stage := .kLargestSingularValue }
    else
      let numericalFloor := A.mul (A.mul (F.ofIndex (max B.rows 3)) doubleEpsilon) s₁
      let report := spectrumReport A F report B.rows s₁ s₂ s₃
      -- A value at the floor is deficient, one at the conditioning threshold is not.
      if !decide (numericalFloor < s₃) then
        { report with status := .kRankDeficient, stage := .kNumericalRank }
      else if report.singularRatio < minimumSingularRatio then
        { report with status := .kIllConditioned, stage := .kConditioning }
      else transformAndEmit A F report sigmaPx whitened B b

/-- `SchurUpdate::Reduce` -/
def schurReport (H_x H_f : MatrixXd) (residual : VectorXd) (sigmaPx : Binary64) : SchurReport :=
  let report : SchurReport := { rawRows := Int64.ofNat H_f.rows }
  if H_f.cols ≠ 3 ∨ H_x.rows ≠ H_f.rows ∨ residual.rows ≠ H_f.rows then
    { report with status := .kNonfinite, stage := .kInputDimensions }
  else if H_f.rows ≤ 3 then
    { report with status := .kInsufficientRows, stage := .kInsufficientRows }
  else if !H_x.allFinite || !H_f.allFinite || !residual.allFinite then
    { report with status := .kNonfinite, stage := .kRawInputs }
  else if !sigmaPx.isFinite || !decide ((⟨0⟩ : Binary64) < sigmaPx) then
    { report with status := .kNonfinite, stage := .kSigma }
  else
    let whitened := whitenMatrix A H_x sigmaPx
    let B := whitenMatrix A H_f sigmaPx
    let b := whitenVector A residual sigmaPx
    if !whitened.allFinite || !B.allFinite || !b.allFinite then
      { report with status := .kNonfinite, stage := .kWhitening }
    else rankPolicy A F report sigmaPx whitened B b

def schurReduce (H_x H_f : MatrixXd) (residual : VectorXd) (sigmaPx : Binary64) : SchurReduction :=
  (schurReport A F H_x H_f residual sigmaPx).toSchurReduction

end Reduce

/-! ## The shape of an accepted reduction -/

/-- The sizes of the reduced system of `m` raw rows over `n` columns. -/
structure ReducedShape (m n : Nat) (H : MatrixXd) (residual : VectorXd) : Prop where
  enough : 3 < m
  rows : H.rows = m - 3
  cols : H.cols = n
  residual_rows : residual.rows = m - 3

section Shape

variable {A : Arithmetic} {F : Factorizations}

variable {sigmaPx : Binary64}

theorem shape_of_emitReduced {report : SchurReport} {whitened : MatrixXd}
    {b : VectorXd} (h : (emitReduced A report sigmaPx whitened b).accepted = true) :
    (emitReduced A report sigmaPx whitened b).H_reduced = scaleMatrix A sigmaPx whitened ∧
      (emitReduced A report sigmaPx whitened b).residualReduced = scaleVector A sigmaPx b := by
  unfold emitReduced at h ⊢
  simp only at h ⊢
  split_ifs at h ⊢
  all_goals first
    | exact ⟨rfl, rfl⟩
    | cases h

theorem rows_scaleMatrix (scale : Binary64) (M : MatrixXd) :
    (scaleMatrix A scale M).rows = M.rows := MatrixXd.rows_ofFn M.rows_lt M.cols_lt

theorem cols_scaleMatrix (scale : Binary64) (M : MatrixXd) :
    (scaleMatrix A scale M).cols = M.cols := MatrixXd.cols_ofFn M.rows_lt M.cols_lt

theorem rows_scaleVector (scale : Binary64) (v : VectorXd) :
    (scaleVector A scale v).rows = v.rows := VectorXd.rows_ofFn v.rows_lt

theorem shape_of_transformAndEmit {report : SchurReport}
    {whitened B : MatrixXd} {b : VectorXd} (henough : 3 < B.rows)
    (h : (transformAndEmit A F report sigmaPx whitened B b).accepted = true) :
    ReducedShape B.rows whitened.cols
      (transformAndEmit A F report sigmaPx whitened B b).H_reduced
      (transformAndEmit A F report sigmaPx whitened B b).residualReduced := by
  have hrows : B.rows - 3 < indexLimit := lt_of_le_of_lt (Nat.sub_le _ _) B.rows_lt
  unfold transformAndEmit at h ⊢
  simp only at h ⊢
  split_ifs at h ⊢
  · cases h
  · cases h
  · obtain ⟨hH, hres⟩ := shape_of_emitReduced h
    refine ⟨henough, ?_, ?_, ?_⟩
    · rw [hH, rows_scaleMatrix, reducedJacobian, MatrixXd.rows_ofFn hrows whitened.cols_lt]
    · rw [hH, cols_scaleMatrix, reducedJacobian, MatrixXd.cols_ofFn hrows whitened.cols_lt]
    · rw [hres, rows_scaleVector, reducedResidual, VectorXd.rows_ofFn hrows]

theorem shape_of_rankPolicy {report : SchurReport}
    {whitened B : MatrixXd} {b : VectorXd} (henough : 3 < B.rows)
    (h : (rankPolicy A F report sigmaPx whitened B b).accepted = true) :
    ReducedShape B.rows whitened.cols (rankPolicy A F report sigmaPx whitened B b).H_reduced
      (rankPolicy A F report sigmaPx whitened B b).residualReduced := by
  unfold rankPolicy at h ⊢
  simp only at h ⊢
  split_ifs at h ⊢
  all_goals first
    | exact shape_of_transformAndEmit henough h
    | cases h

theorem SchurReduction.shape_of_accepted {H_x H_f : MatrixXd} {residual : VectorXd}
    (h : (schurReduce A F H_x H_f residual sigmaPx).accepted = true) :
    ReducedShape H_f.rows H_x.cols (schurReduce A F H_x H_f residual sigmaPx).H_reduced
      (schurReduce A F H_x H_f residual sigmaPx).residualReduced := by
  have hB : (whitenMatrix A H_f sigmaPx).rows = H_f.rows :=
    MatrixXd.rows_ofFn H_f.rows_lt H_f.cols_lt
  have hcols : (whitenMatrix A H_x sigmaPx).cols = H_x.cols :=
    MatrixXd.cols_ofFn H_x.rows_lt H_x.cols_lt
  unfold schurReduce schurReport at h ⊢
  simp only at h ⊢
  split_ifs at h ⊢ with hsize henough
  all_goals first
    | (have hshape := shape_of_rankPolicy (by rw [hB]; omega) h
       rwa [hB, hcols] at hshape)
    | cases h

end Shape

end Bravo.Shadow
