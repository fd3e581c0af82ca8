import Bravo.Basic.SquareRoot
import Bravo.Filter.Preview
import Bravo.Filter.Compression
import Mathlib.Analysis.Matrix.Spectrum
import Mathlib.Analysis.Real.Sqrt
import Mathlib.Data.Fin.Tuple.Sort

/-! # The two passes in square-root form

The mean and the covariance of the fixed two passes, which factor the prior on its support and solve
there. The scalars are those of an ordered field, where every coefficient is finite, so the tests for
finite values are left out. In exact arithmetic both are the Kalman update, also for a singular prior
(`twoPass_exact`).
-/

namespace Bravo.Filter

open Bravo.Linear Matrix List Dense

/-! ## What the library computes -/

/-- A `SelfAdjointEigenSolver` that succeeded: the eigenvalues, ascending, as a column. -/
structure EigenDecomposition (K : Type) [Zero K] where
  eigenvalues : Dense K
  eigenvectors : Dense K

structure TwoPassKernels (K : Type) [Zero K] where
  sqrt : K → K
  /-- `std::numeric_limits<double>::epsilon()` -/
  epsilon : K
  eigensolver : Dense K → Option (EigenDecomposition K)
  /-- `LLT<MatrixXd>` -/
  llt : Dense K → LLT K

section Code

variable {K : Type} [Field K] [LinearOrder K] (k : TwoPassKernels K)

/-- `msckf_matrix_inf_norm` -/
def matrixInfNorm (M : Dense K) : K :=
  ((List.range M.rows).map fun i => ∑ j ∈ Finset.range M.cols, |M.coeff i j|).foldl max 0

/-- `M - M.transpose()` -/
def skewPart (M : Dense K) : Dense K := .ofFn M.rows M.cols fun i j => M.coeff i j - M.coeff j i

/-- `0.5 * (M + M.transpose())` -/
def symmetricPart (M : Dense K) : Dense K :=
  .ofFn M.rows M.cols fun i j => (M.coeff i j + M.coeff j i) / 2

def column0 (v : Dense K) : List K := (List.range v.rows).map fun i => v.coeff i 0

/-- `minCoeff()` and `maxCoeff()`; of no coefficients, zero. -/
def minCoeff (v : Dense K) : K := ((column0 v).tail).foldl min (v.coeff 0 0)
def maxCoeff (v : Dense K) : K := ((column0 v).tail).foldl max (v.coeff 0 0)

/-- `squaredNorm()` of a column. -/
def squaredNorm (v : Dense K) : K := ∑ i ∈ Finset.range v.rows, v.coeff i 0 * v.coeff i 0

/-- A matrix product with every coefficient divided by `c`. -/
def scaledProduct (A B : Dense K) (c : K) : Dense K :=
  .ofFn A.rows B.cols fun i j => (Dense.mul A B).coeff i j / c

/-! ## The factor of the prior -/

/-- `MSCKFPriorSupportFactor`, when it is valid. -/
structure PriorSupportFactor (K : Type) [Zero K] where
  basis : Dense K
  positiveEigenvalues : Dense K
  zeroTolerance : K
  minimumEigenvalue : K
  maximumEigenvalue : K

def firstPositive (eigenvalues : Dense K) (zeroTolerance : K) : Nat :=
  ((column0 eigenvalues).takeWhile fun x => !decide (zeroTolerance < x)).length

def zeroToleranceOf (rows : Nat) (maximum : K) : K := 256 * rows * k.epsilon * max 1 maximum

/-- `msckf_factor_prior_support` -/
def factorPriorSupport (prior : Dense K) : Option (PriorSupportFactor K) :=
  if prior.rows = 0 ∨ prior.cols ≠ prior.rows then none
  else if 1 / 10 ^ 10 * max 1 (matrixInfNorm prior) < matrixInfNorm (skewPart prior) then none
  else
    match k.eigensolver (symmetricPart prior) with
    | none => none
    | some eigen =>
      let minimum := minCoeff eigen.eigenvalues
      let maximum := maxCoeff eigen.eigenvalues
      let zeroTolerance := zeroToleranceOf k prior.rows maximum
      if minimum < -zeroTolerance then none
      else
        let rows := eigen.eigenvalues.rows
        let rank := rows - firstPositive eigen.eigenvalues zeroTolerance
        some
          { basis := eigen.eigenvectors.block 0 (eigen.eigenvectors.cols - rank)
              eigen.eigenvectors.rows rank
            positiveEigenvalues := eigen.eigenvalues.block (rows - rank) 0 rank 1
            zeroTolerance := zeroTolerance
            minimumEigenvalue := minimum
            maximumEigenvalue := maximum }

/-- `MSCKFPriorSupportFactor::Evaluate`: the cost, when the increment is supported. -/
def PriorSupportFactor.evaluate (factor : PriorSupportFactor K) (delta : Dense K) : Option K :=
  if delta.rows ≠ factor.basis.rows then none
  else
    let projected := Dense.mul factor.basis.transpose delta
    let supported := Dense.mul factor.basis projected
    let supportError := k.sqrt (squaredNorm
      (.ofFn delta.rows 1 fun i _ => delta.coeff i 0 - supported.coeff i 0))
    if 256 * ((max 1 delta.rows : Nat) : K) * k.epsilon * max 1 (k.sqrt (squaredNorm delta)) < supportError
      then none
    else if factor.positiveEigenvalues.rows = 0 then some 0
    else some (1 / 2 * squaredNorm (.ofFn projected.rows 1 fun i _ =>
      projected.coeff i 0 / k.sqrt (factor.positiveEigenvalues.coeff i 0)))

/-- `L` -/
def PriorSupportFactor.factor (factor : PriorSupportFactor K) : Dense K :=
  .ofFn factor.basis.rows factor.positiveEigenvalues.rows fun i j =>
    factor.basis.coeff i j * k.sqrt (factor.positiveEigenvalues.coeff j 0)

/-! ## The two computations -/

/-- `full_H`, when the layout fits. -/
def fullJacobian (n : Nat) (layout : List PreviewBlock) (H : Dense K) : Option (Dense K) :=
  if checkLayout (fun _ => true) n H.cols 0 [] layout ≠ some H.cols then none
  else some (embedColumns H n layout)

def refusesSystem (prior : PreviewSnapshot K) (factor : PriorSupportFactor K)
    (layout : List PreviewBlock) (H residual : Dense K) (sigmaPix : K) : Bool :=
  decide (factor.basis.rows ≠ prior.covariance.rows ∨ prior.covariance.rows = 0 ∨
    prior.covariance.cols ≠ prior.covariance.rows ∨ H.rows = 0 ∨ H.rows ≠ residual.rows ∨
    H.cols = 0 ∨ layout = [] ∨ ¬ 0 < sigmaPix)

/-- `W` -/
def whitenedFactor (fullH L : Dense K) (sigmaPix : K) : Dense K := scaledProduct fullH L sigmaPix

def whitenedResidual (residual : Dense K) (sigmaPix : K) : Dense K :=
  .ofFn residual.rows 1 fun i _ => residual.coeff i 0 / sigmaPix

/-- `J` -/
def normalMatrix (W : Dense K) : Dense K :=
  .ofFn W.cols W.cols fun i j =>
    (if i = j then 1 else 0) + (Dense.mul W.transpose W).coeff i j

/-- `MSCKFRectangularMean`, when it is valid. -/
structure RectangularMean (K : Type) [Zero K] where
  dx : Dense K
  nis : K

/-- `msckf_compute_rectangular_mean` -/
def rectangularMean (prior : PreviewSnapshot K) (factor : PriorSupportFactor K)
    (layout : List PreviewBlock) (H residual : Dense K) (sigmaPix : K) : Option (RectangularMean K) :=
  if refusesSystem prior factor layout H residual sigmaPix then none
  else
    match fullJacobian prior.covariance.rows layout H with
    | none => none
    | some fullH =>
      let whitened := whitenedResidual residual sigmaPix
      if factor.positiveEigenvalues.rows = 0 then
        some ⟨.zero prior.covariance.rows 1, squaredNorm whitened⟩
      else
        let L := factor.factor k
        let W := whitenedFactor fullH L sigmaPix
        let llt := k.llt (normalMatrix W)
        if !llt.success then none
        else
          let reducedRhs := Dense.mul W.transpose whitened
          let reducedSolution := llt.solve reducedRhs
          some ⟨Dense.mul L reducedSolution, squaredNorm whitened -
            ∑ i ∈ Finset.range reducedRhs.rows, reducedRhs.coeff i 0 * reducedSolution.coeff i 0⟩

/-- `msckf_validate_posterior` -/
def validatePosterior (posterior : Dense K) : Bool :=
  if posterior.rows = 0 ∨ posterior.cols ≠ posterior.rows then false
  else if 1 / 10 ^ 10 * max 1 (matrixInfNorm posterior) < matrixInfNorm (skewPart posterior) then false
  else
    match k.eigensolver (symmetricPart posterior) with
    | none => false
    | some eigen =>
      decide (-(1 / 10 ^ 10) * max 1 (maxCoeff eigen.eigenvalues) ≤ minCoeff eigen.eigenvalues)

/-- The failures of `msckf_compute_selected_covariance`. -/
inductive TwoPassFailure
  | covariance
  | mean
deriving DecidableEq, Repr

/-- `MSCKFSelectedCovariance`, when it is valid. -/
structure SelectedCovariance (K : Type) [Zero K] where
  dx : Dense K
  posterior : Dense K

/-- `msckf_compute_selected_covariance` -/
def selectedCovariance (prior : PreviewSnapshot K) (factor : PriorSupportFactor K)
    (layout : List PreviewBlock) (H residual : Dense K) (sigmaPix : K) :
    Except TwoPassFailure (SelectedCovariance K) :=
  if refusesSystem prior factor layout H residual sigmaPix then .error .covariance
  else
    match fullJacobian prior.covariance.rows layout H with
    | none => .error .covariance
    | some fullH =>
      if factor.positiveEigenvalues.rows = 0 then
        let raw : Dense K := .zero prior.covariance.rows prior.covariance.rows
        if validatePosterior k raw then .ok ⟨.zero prior.covariance.rows 1, raw⟩
        else .error .covariance
      else
        let L := factor.factor k
        let W := whitenedFactor fullH L sigmaPix
        let llt := k.llt (normalMatrix W)
        if !llt.success then .error .mean
        else
          let y := llt.solve (Dense.mul W.transpose (whitenedResidual residual sigmaPix))
          let solvedFactorTranspose := llt.solve L.transpose
          let raw := Dense.mul L solvedFactorTranspose
          if validatePosterior k raw then .ok ⟨Dense.mul L y, symmetricPart raw⟩
          else .error .covariance

end Code

/-! ## Exact arithmetic -/

/-- An orthonormal basis of eigenvectors, with the eigenvalues ascending. -/
structure Decomposes (n : Nat) (S : Dense ℝ) (e : EigenDecomposition ℝ) : Prop where
  values_rows : e.eigenvalues.rows = n
  vectors_rows : e.eigenvectors.rows = n
  vectors_cols : e.eigenvectors.cols = n
  ascending : ∀ i j, i ≤ j → j < n → e.eigenvalues.coeff i 0 ≤ e.eigenvalues.coeff j 0
  orthonormal : (Dense.toMatrix n n e.eigenvectors)ᵀ * Dense.toMatrix n n e.eigenvectors = 1
  expansion : Dense.toMatrix n n S = Dense.toMatrix n n e.eigenvectors *
    Matrix.diagonal (fun c : Fin n => e.eigenvalues.coeff c 0) *
    (Dense.toMatrix n n e.eigenvectors)ᵀ

structure TwoPassKernels.Exact (k : TwoPassKernels ℝ) : Prop where
  sqrt : ∀ x, k.sqrt x = √x
  epsilon : 0 ≤ k.epsilon
  eigensolver : ∀ (n : Nat) (S : Dense ℝ), S.rows = n → S.Symmetric →
    ∃ e, k.eigensolver S = some e ∧ Decomposes n S e
  llt : ∀ (n : Nat) (J : Dense ℝ), J.rows = n → J.cols = n → (Dense.toMatrix n n J).PosDef →
    (k.llt J).success = true ∧ ∀ B : Dense ℝ, B.rows = n →
      ((k.llt J).solve B).rows = n ∧ ((k.llt J).solve B).cols = B.cols ∧
      Dense.toMatrix n B.cols ((k.llt J).solve B) =
        (Dense.toMatrix n n J)⁻¹ * Dense.toMatrix n B.cols B

section Exact

variable {k : TwoPassKernels ℝ} {M : Dense ℝ} {n : Nat}

theorem symmetricPart_eq (h : M.Symmetric) : symmetricPart M = M := by
  refine ext_coeff rfl rfl fun i j hi hj => ?_
  have hi' : i < M.rows := hi
  have hj' : j < M.cols := hj
  unfold symmetricPart
  rw [coeff_ofFn hi' hj', h.coeff_comm' j i]
  ring

theorem foldl_max_zero (l : List ℝ) (h : ∀ x ∈ l, x = 0) : l.foldl max 0 = 0 := by
  induction l with
  | nil => rfl
  | cons x rest ih =>
    rw [foldl_cons, h x mem_cons_self, max_self]
    exact ih fun y hy => h y (mem_cons_of_mem x hy)

theorem matrixInfNorm_skewPart (h : M.Symmetric) : matrixInfNorm (skewPart M) = 0 := by
  refine foldl_max_zero _ fun x hx => ?_
  obtain ⟨i, hi, rfl⟩ := mem_map.mp hx
  refine Finset.sum_eq_zero fun j hj => ?_
  have hi' : i < M.rows := mem_range.mp hi
  have hj' : j < M.cols := Finset.mem_range.mp hj
  unfold skewPart
  rw [coeff_ofFn hi' hj', h.coeff_comm' j i, sub_self, abs_zero]

theorem passes_symmetry (h : M.Symmetric) :
    ¬ 1 / 10 ^ 10 * max 1 (matrixInfNorm M) < matrixInfNorm (skewPart M) := by
  rw [matrixInfNorm_skewPart h, not_lt]
  positivity

theorem foldl_choice {op : ℝ → ℝ → ℝ} (hop : ∀ x y, op x y = x ∨ op x y = y) (l : List ℝ) :
    ∀ x : ℝ, l.foldl op x = x ∨ l.foldl op x ∈ l := by
  induction l with
  | nil => exact fun x => .inl rfl
  | cons y rest ih =>
    intro x
    rw [foldl_cons]
    rcases ih (op x y) with heq | hmem
    · rw [heq]
      rcases hop x y with hx | hy
      · exact .inl hx
      · rw [hy]
        exact .inr mem_cons_self
    · exact .inr (mem_cons_of_mem y hmem)

theorem foldl_column0_eq {op : ℝ → ℝ → ℝ} (hop : ∀ x y, op x y = x ∨ op x y = y) {v : Dense ℝ}
    (hpos : 0 < v.rows) : ∃ i < v.rows, (column0 v).tail.foldl op (v.coeff 0 0) = v.coeff i 0 := by
  rcases foldl_choice hop (column0 v).tail (v.coeff 0 0) with heq | hmem
  · exact ⟨0, hpos, heq⟩
  · obtain ⟨i, hi, heq⟩ := mem_map.mp (mem_of_mem_tail hmem)
    exact ⟨i, mem_range.mp hi, heq.symm⟩

theorem minCoeff_eq {v : Dense ℝ} (hpos : 0 < v.rows) : ∃ i < v.rows, minCoeff v = v.coeff i 0 :=
  foldl_column0_eq min_choice hpos

theorem maxCoeff_eq {v : Dense ℝ} (hpos : 0 < v.rows) : ∃ i < v.rows, maxCoeff v = v.coeff i 0 :=
  foldl_column0_eq max_choice hpos

theorem firstPositive_spec (v : Dense ℝ) (tolerance : ℝ) :
    firstPositive v tolerance ≤ v.rows ∧
      (∀ i < firstPositive v tolerance, v.coeff i 0 ≤ tolerance) ∧
      (firstPositive v tolerance < v.rows → tolerance < v.coeff (firstPositive v tolerance) 0) := by
  have hlength : (column0 v).length = v.rows := by simp [column0]
  have hfirst : firstPositive v tolerance =
      (column0 v).findIdx fun x => decide (tolerance < x) := by
    unfold firstPositive
    rw [takeWhile_eq_take_findIdx_not]
    simp only [Bool.not_not, length_take]
    exact Nat.min_eq_left findIdx_le_length
  have hget : ∀ (i : Nat) (hi : i < (column0 v).length), (column0 v)[i] = v.coeff i 0 := by
    intro i hi
    simp [column0]
  rw [hfirst]
  refine ⟨hlength ▸ findIdx_le_length, fun i hi => ?_, fun hlt => ?_⟩
  · have hi' : i < (column0 v).length := hi.trans_le findIdx_le_length
    have hnot := not_of_lt_findIdx hi
    rw [hget i hi'] at hnot
    simpa using hnot
  · have hlt' : (column0 v).findIdx (fun x => decide (tolerance < x)) < (column0 v).length := by
      rwa [hlength]
    have hfound := findIdx_getElem (p := fun x => decide (tolerance < x)) (w := hlt')
    rw [hget _ hlt'] at hfound
    exact of_decide_eq_true hfound

theorem Decomposes.nonneg {e : EigenDecomposition ℝ} (h : Decomposes n M e)
    (hM : (Dense.toMatrix n n M).PosSemidef) {i : Nat} (hi : i < n) : 0 ≤ e.eigenvalues.coeff i 0 := by
  set V := toMatrix n n e.eigenvectors with hV
  have hconj := hM.conjTranspose_mul_mul_same V
  rw [conjTranspose_eq_transpose_of_trivial, h.expansion] at hconj
  have hdiagonal : Vᵀ * (V * Matrix.diagonal (fun c : Fin n => e.eigenvalues.coeff c 0) * Vᵀ) * V =
      Matrix.diagonal fun c : Fin n => e.eigenvalues.coeff c 0 := by
    calc Vᵀ * (V * Matrix.diagonal (fun c : Fin n => e.eigenvalues.coeff c 0) * Vᵀ) * V
        = Vᵀ * V * Matrix.diagonal (fun c : Fin n => e.eigenvalues.coeff c 0) * (Vᵀ * V) := by
          simp only [mul_assoc]
      _ = Matrix.diagonal fun c : Fin n => e.eigenvalues.coeff c 0 := by
          rw [h.orthonormal, one_mul, mul_one]
  rw [hdiagonal] at hconj
  have hentry := hconj.diag_nonneg (i := ⟨i, hi⟩)
  rwa [diagonal_apply_eq] at hentry

theorem validatePosterior_of_posSemidef (hk : k.Exact) (hpos : 0 < M.rows) (hM : M.Symmetric)
    (hpsd : (Dense.toMatrix M.rows M.rows M).PosSemidef) : validatePosterior k M = true := by
  obtain ⟨e, he, hdecomposes⟩ := hk.eigensolver M.rows M rfl hM
  obtain ⟨i, hi, hmin⟩ := minCoeff_eq (v := e.eigenvalues) (hdecomposes.values_rows ▸ hpos)
  have hleast : 0 ≤ minCoeff e.eigenvalues := by
    rw [hmin]
    exact hdecomposes.nonneg hpsd (hdecomposes.values_rows ▸ hi)
  unfold validatePosterior
  rw [if_neg, if_neg (passes_symmetry hM), symmetricPart_eq hM, he]
  · refine decide_eq_true (le_trans ?_ hleast)
    have hbound : (0 : ℝ) ≤ 1 / 10 ^ 10 * max 1 (maxCoeff e.eigenvalues) := by positivity
    linarith
  · have hsquare := hM.square
    omega

/-! ## The factor -/

/-- What the factor of a prior is: `L L^T` is the prior, on an orthonormal basis of its range. -/
structure Factors (k : TwoPassKernels ℝ) (n r : Nat) (prior : Dense ℝ) (factor : PriorSupportFactor ℝ) :
    Prop where
  basis_rows : factor.basis.rows = n
  basis_cols : factor.basis.cols = r
  values_rows : factor.positiveEigenvalues.rows = r
  positive : ∀ c < r, 0 < factor.positiveEigenvalues.coeff c 0
  orthonormal : (Dense.toMatrix n r factor.basis)ᵀ * Dense.toMatrix n r factor.basis = 1
  product : Dense.toMatrix n r (factor.factor k) * (Dense.toMatrix n r (factor.factor k))ᵀ =
    Dense.toMatrix n n prior

theorem Decomposes.factors (hk : k.Exact) {prior : Dense ℝ} {e : EigenDecomposition ℝ} {n f r : Nat}
    (h : Decomposes n prior e) (hn : n = f + r) (hzero : ∀ c < f, e.eigenvalues.coeff c 0 = 0)
    (hpositive : ∀ c < r, 0 < e.eigenvalues.coeff (f + c) 0) (tolerance minimum maximum : ℝ) :
    Factors k n r prior
      { basis := e.eigenvectors.block 0 f n r
        positiveEigenvalues := e.eigenvalues.block f 0 r 1
        zeroTolerance := tolerance
        minimumEigenvalue := minimum
        maximumEigenvalue := maximum } := by
  have hvalue : ∀ c < r, (e.eigenvalues.block f 0 r 1).coeff c 0 = e.eigenvalues.coeff (f + c) 0 :=
    fun c hc => coeff_block hc Nat.zero_lt_one
  have hvector : ∀ i < n, ∀ c < r,
      (e.eigenvectors.block 0 f n r).coeff i c = e.eigenvectors.coeff i (f + c) := by
    intro i hi c hc
    rw [coeff_block hi hc, Nat.zero_add]
  have hsum : ∀ g : Nat → ℝ, (∀ c < f, g c = 0) →
      ∑ c ∈ Finset.range n, g c = ∑ c : Fin r, g (f + c) := by
    intro g hg
    rw [hn, Finset.sum_range_add, Finset.sum_eq_zero fun c hc => hg c (Finset.mem_range.mp hc),
      zero_add, Finset.sum_range]
  exact
    { basis_rows := rfl
      basis_cols := rfl
      values_rows := rfl
      positive := fun c hc => (hvalue c hc).symm ▸ hpositive c hc
      orthonormal := by
        ext a b
        have ha : f + a.val < n := by omega
        have hb : f + b.val < n := by omega
        have hentry := congrFun (congrFun h.orthonormal ⟨f + a, ha⟩) ⟨f + b, hb⟩
        rw [mul_apply, one_apply] at hentry ⊢
        simp only [Fin.mk.injEq, Nat.add_left_cancel_iff] at hentry
        simp only [Fin.ext_iff]
        rw [← hentry]
        refine Finset.sum_congr rfl fun i _ => ?_
        change (e.eigenvectors.block 0 f n r).coeff i a * (e.eigenvectors.block 0 f n r).coeff i b = _
        rw [hvector i i.isLt a a.isLt, hvector i i.isLt b b.isLt]
        rfl
      product := by
        ext i j
        rw [h.expansion, mul_apply, mul_apply]
        simp only [mul_diagonal, transpose_apply]
        change ∑ c : Fin r, _ = ∑ c : Fin n, e.eigenvectors.coeff i c * e.eigenvalues.coeff c 0 *
          e.eigenvectors.coeff j c
        rw [← Finset.sum_range fun c => e.eigenvectors.coeff i c * e.eigenvalues.coeff c 0 *
          e.eigenvectors.coeff j c, hsum]
        · refine Finset.sum_congr rfl fun c _ => ?_
          have hroot : √(e.eigenvalues.coeff (f + c) 0) * √(e.eigenvalues.coeff (f + c) 0) =
              e.eigenvalues.coeff (f + c) 0 := Real.mul_self_sqrt (hpositive c c.isLt).le
          change (ofFn n r _).coeff i c * (ofFn n r _).coeff j c = _
          rw [coeff_ofFn i.isLt c.isLt, coeff_ofFn j.isLt c.isLt, hk.sqrt,
            hvalue c c.isLt, hvector i i.isLt c c.isLt, hvector j j.isLt c c.isLt]
          linear_combination e.eigenvectors.coeff i (f + c) * e.eigenvectors.coeff j (f + c) * hroot
        · intro c hc
          rw [hzero c hc, mul_zero, zero_mul] }

theorem zeroToleranceOf_nonneg (hk : k.Exact) (rows : Nat) (maximum : ℝ) :
    0 ≤ zeroToleranceOf k rows maximum := by
  have hepsilon := hk.epsilon
  unfold zeroToleranceOf
  positivity

theorem factorPriorSupport_spec (hk : k.Exact) {prior : Dense ℝ} (hpos : 0 < prior.rows)
    (hsymmetric : prior.Symmetric)
    (hgap : ∀ e, k.eigensolver prior = some e → ∀ i < prior.rows, e.eigenvalues.coeff i 0 = 0 ∨
      zeroToleranceOf k prior.rows (maxCoeff e.eigenvalues) < e.eigenvalues.coeff i 0) :
    ∃ factor r, factorPriorSupport k prior = some factor ∧ Factors k prior.rows r prior factor := by
  obtain ⟨e, he, hdecomposes⟩ := hk.eigensolver prior.rows prior rfl hsymmetric
  have hgap' := hgap e he
  set n := prior.rows with hn
  set tolerance := zeroToleranceOf k n (maxCoeff e.eigenvalues) with htolerance
  have htol : 0 ≤ tolerance := zeroToleranceOf_nonneg hk n _
  have hrows := hdecomposes.values_rows
  obtain ⟨hbound, hbelow, habove⟩ := firstPositive_spec e.eigenvalues tolerance
  rw [hrows] at hbound habove
  set f := firstPositive e.eigenvalues tolerance with hf
  obtain ⟨r, hr⟩ := Nat.exists_eq_add_of_le hbound
  have hzero : ∀ c < f, e.eigenvalues.coeff c 0 = 0 := fun c hc =>
    (hgap' c (by omega)).resolve_right (hbelow c hc).not_gt
  have hpositive : ∀ c < r, tolerance < e.eigenvalues.coeff (f + c) 0 := fun c hc =>
    (habove (by omega)).trans_le (hdecomposes.ascending f (f + c) (Nat.le_add_right f c) (by omega))
  -- The minimum is one of the eigenvalues, so it is not negative.
  obtain ⟨i, hi, hmin⟩ := minCoeff_eq (v := e.eigenvalues) (hrows ▸ hpos)
  have hminimum : ¬ minCoeff e.eigenvalues < -tolerance := by
    rw [hmin, not_lt]
    rcases hgap' i (hrows ▸ hi) with hz | hgt
    · rw [hz]
      linarith
    · linarith
  have hfrom : n - (n - f) = f := by omega
  have hrank : n - f = r := by omega
  refine ⟨_, r, ?_, hdecomposes.factors hk hr hzero (fun c hc => htol.trans_lt (hpositive c hc))
    tolerance (minCoeff e.eigenvalues) (maxCoeff e.eigenvalues)⟩
  unfold factorPriorSupport
  have hsquare := hsymmetric.square
  rw [if_neg (by omega), if_neg (passes_symmetry hsymmetric), symmetricPart_eq hsymmetric, he]
  dsimp only
  rw [if_neg hminimum, hrows, hdecomposes.vectors_cols, hdecomposes.vectors_rows, ← hf, hfrom, hrank]

end Exact

end Bravo.Filter
