import Bravo.Filter.TwoPass

/-! # The two passes are the Kalman update

With a factor `L` of the prior the mean and the covariance of the two passes are those of the innovation
form, on every rank and every layout, and the preview of the same system agrees with both.
-/

namespace Bravo.Filter

open Bravo.Linear Matrix Dense

section System

variable {k : TwoPassKernels ℝ} {n r m : Nat} {prior fullH residual : Dense ℝ}
  {factor : PriorSupportFactor ℝ} {sigma : ℝ}

noncomputable def kalmanGain (P : Matrix (Fin n) (Fin n) ℝ) (F : Matrix (Fin m) (Fin n) ℝ) (sigma : ℝ) :
    Matrix (Fin n) (Fin m) ℝ :=
  P * Fᵀ * (F * P * Fᵀ + sigma ^ 2 • (1 : Matrix (Fin m) (Fin m) ℝ))⁻¹

theorem toMatrix_factor_size (hf : Factors k n r prior factor) :
    (factor.factor k).rows = n ∧ (factor.factor k).cols = r :=
  ⟨hf.basis_rows, hf.values_rows⟩

theorem toMatrix_whitenedFactor (hf : Factors k n r prior factor) (hrows : fullH.rows = m)
    (hcols : fullH.cols = n) :
    Dense.toMatrix m r (whitenedFactor fullH (factor.factor k) sigma) =
      sigma⁻¹ • (Dense.toMatrix m n fullH * Dense.toMatrix n r (factor.factor k)) := by
  rw [← toMatrix_mul hrows hcols hf.values_rows]
  ext a c
  have hc : c.val < (factor.factor k).cols := by
    rw [(toMatrix_factor_size hf).2]
    exact c.isLt
  have ha : a.val < fullH.rows := hrows.symm ▸ a.isLt
  change (ofFn fullH.rows (factor.factor k).cols _).coeff a c = _
  rw [coeff_ofFn ha hc, Matrix.smul_apply, smul_eq_mul, div_eq_inv_mul]
  rfl

theorem size_whitenedFactor (hf : Factors k n r prior factor) (hrows : fullH.rows = m) :
    (whitenedFactor fullH (factor.factor k) sigma).rows = m ∧
      (whitenedFactor fullH (factor.factor k) sigma).cols = r :=
  ⟨hrows, hf.values_rows⟩

theorem toMatrix_normalMatrix {W : Dense ℝ} (hrows : W.rows = m) (hcols : W.cols = r) :
    Dense.toMatrix r r (normalMatrix W) =
      1 + (Dense.toMatrix m r W)ᵀ * Dense.toMatrix m r W := by
  rw [← toMatrix_transpose, ← toMatrix_mul (by exact hcols) (by exact hrows) hcols]
  ext a b
  have ha : a.val < W.cols := hcols.symm ▸ a.isLt
  have hb : b.val < W.cols := hcols.symm ▸ b.isLt
  change (ofFn W.cols W.cols _).coeff a b = _
  rw [coeff_ofFn ha hb, Matrix.add_apply, Matrix.one_apply]
  simp only [Fin.ext_iff]
  rfl

theorem toMatrix_whitenedResidual (hresidual : residual.rows = m) :
    Dense.toMatrix m 1 (whitenedResidual residual sigma) =
      sigma⁻¹ • Dense.toMatrix m 1 residual := by
  ext a j
  have hj : j.val = 0 := by omega
  have ha : a.val < residual.rows := hresidual.symm ▸ a.isLt
  change (ofFn residual.rows 1 _).coeff a j = _
  rw [coeff_ofFn ha j.isLt, Matrix.smul_apply, smul_eq_mul, div_eq_inv_mul]
  change _ = sigma⁻¹ * residual.coeff a j
  rw [hj]

theorem solve_normalMatrix (hk : k.Exact) {W B : Dense ℝ} (hrows : W.rows = m) (hcols : W.cols = r)
    (hB : B.rows = r) :
    (k.llt (normalMatrix W)).success = true ∧
      ((k.llt (normalMatrix W)).solve B).rows = r ∧
      ((k.llt (normalMatrix W)).solve B).cols = B.cols ∧
      Dense.toMatrix r B.cols ((k.llt (normalMatrix W)).solve B) =
        (1 + (Dense.toMatrix m r W)ᵀ * Dense.toMatrix m r W)⁻¹ * Dense.toMatrix r B.cols B := by
  have hJ := toMatrix_normalMatrix hrows hcols
  have hpd : (toMatrix r r (normalMatrix W)).PosDef := by
    rw [hJ]
    exact posDef_one_add_transpose_mul _
  obtain ⟨hsuccess, hsolve⟩ := hk.llt r (normalMatrix W) hcols hcols hpd
  obtain ⟨hsrows, hscols, hmatrix⟩ := hsolve B hB
  exact ⟨hsuccess, hsrows, hscols, hJ ▸ hmatrix⟩

theorem isUnit_det_normal (W : Matrix (Fin m) (Fin r) ℝ) : IsUnit (1 + Wᵀ * W).det :=
  (isUnit_iff_isUnit_det _).mp (posDef_one_add_transpose_mul W).isUnit

theorem toMatrix_increment (hk : k.Exact) (hf : Factors k n r prior factor) (hrows : fullH.rows = m)
    (hcols : fullH.cols = n) (hresidual : residual.rows = m) (hsigma : sigma ≠ 0) :
    let W := whitenedFactor fullH (factor.factor k) sigma
    Dense.toMatrix n 1 (Dense.mul (factor.factor k) ((k.llt (normalMatrix W)).solve
        (Dense.mul W.transpose (whitenedResidual residual sigma)))) =
      kalmanGain (Dense.toMatrix n n prior) (Dense.toMatrix m n fullH) sigma *
        Dense.toMatrix m 1 residual := by
  intro W
  obtain ⟨hLrows, hLcols⟩ := toMatrix_factor_size hf
  obtain ⟨hWrows, hWcols⟩ : W.rows = m ∧ W.cols = r := size_whitenedFactor hf hrows
  set B := mul W.transpose (whitenedResidual residual sigma) with hB
  obtain ⟨-, hsrows, hscols, hsolve⟩ := solve_normalMatrix hk (B := B) hWrows hWcols hWcols
  have hBmatrix : toMatrix r 1 B =
      (toMatrix m r W)ᵀ * (sigma⁻¹ • toMatrix m 1 residual) := by
    rw [← toMatrix_whitenedResidual hresidual, ← toMatrix_transpose]
    exact toMatrix_mul hWcols hWrows rfl
  have hsolve' : toMatrix r 1 ((k.llt (normalMatrix W)).solve B) =
      (1 + (toMatrix m r W)ᵀ * toMatrix m r W)⁻¹ * toMatrix r 1 B := hsolve
  have hgain := squareRoot_gain (toMatrix n r (factor.factor k)) (toMatrix m n fullH)
    hsigma (isUnit_det_normal _)
  rw [← toMatrix_whitenedFactor hf hrows hcols, hf.product] at hgain
  calc toMatrix n 1 (mul (factor.factor k) ((k.llt (normalMatrix W)).solve B))
      = toMatrix n r (factor.factor k) *
          toMatrix r 1 ((k.llt (normalMatrix W)).solve B) :=
        toMatrix_mul hLrows hLcols hscols
    _ = toMatrix n r (factor.factor k) *
          ((1 + (toMatrix m r W)ᵀ * toMatrix m r W)⁻¹ * (toMatrix m r W)ᵀ) *
          (sigma⁻¹ • toMatrix m 1 residual) := by
        rw [hsolve', hBmatrix]
        simp only [Matrix.mul_assoc]
    _ = _ := by
        rw [hgain, Matrix.smul_mul, Matrix.mul_smul, smul_smul, mul_inv_cancel₀ hsigma, one_smul]
        rfl

/-- The posterior in the innovation form. -/
noncomputable def kalmanPosterior (P : Matrix (Fin n) (Fin n) ℝ) (F : Matrix (Fin m) (Fin n) ℝ)
    (sigma : ℝ) : Matrix (Fin n) (Fin n) ℝ :=
  P - kalmanGain P F sigma * (F * P)

theorem toMatrix_rawPosterior (hk : k.Exact) (hf : Factors k n r prior factor)
    (hrows : fullH.rows = m) (hcols : fullH.cols = n) (hsigma : sigma ≠ 0) :
    let W := whitenedFactor fullH (factor.factor k) sigma
    let raw := Dense.mul (factor.factor k)
      ((k.llt (normalMatrix W)).solve (factor.factor k).transpose)
    (raw.rows = n ∧ raw.cols = n) ∧
      Dense.toMatrix n n raw =
        kalmanPosterior (Dense.toMatrix n n prior) (Dense.toMatrix m n fullH) sigma ∧
      (Dense.toMatrix n n raw).PosSemidef := by
  intro W raw
  obtain ⟨hLrows, hLcols⟩ := toMatrix_factor_size hf
  obtain ⟨hWrows, hWcols⟩ : W.rows = m ∧ W.cols = r := size_whitenedFactor hf hrows
  obtain ⟨-, hsrows, hscols, hsolve⟩ := solve_normalMatrix hk (B := (factor.factor k).transpose)
    hWrows hWcols hLcols
  rw [cols_transpose, hLrows] at hscols hsolve
  have hraw : toMatrix n n raw = toMatrix n r (factor.factor k) *
      ((1 + (toMatrix m r W)ᵀ * toMatrix m r W)⁻¹ *
        (toMatrix n r (factor.factor k))ᵀ) := by
    rw [← toMatrix_transpose r n, ← hsolve]
    exact toMatrix_mul hLrows hLcols hscols
  have hposterior := squareRoot_posterior (toMatrix n r (factor.factor k))
    (toMatrix m n fullH) hsigma (isUnit_det_normal _)
  rw [← toMatrix_whitenedFactor hf hrows hcols, hf.product] at hposterior
  exact ⟨⟨hLrows, hscols⟩, hraw.trans hposterior, hraw ▸ posSemidef_squareRoot_posterior _ _⟩

theorem rectangularMean_exact (hk : k.Exact) {snapshot : PreviewSnapshot ℝ} {H : Dense ℝ}
    {layout : List PreviewBlock} (hf : Factors k n r snapshot.covariance factor)
    (hrefuse : refusesSystem snapshot factor layout H residual sigma = false)
    (hfull : fullJacobian snapshot.covariance.rows layout H = some fullH) (hrows : fullH.rows = m)
    (hcols : fullH.cols = n) (hn : snapshot.covariance.rows = n) (hresidual : residual.rows = m)
    (hsigma : sigma ≠ 0) :
    ∃ mean, rectangularMean k snapshot factor layout H residual sigma = some mean ∧
      mean.dx.rows = n ∧ mean.dx.cols = 1 ∧
      Dense.toMatrix n 1 mean.dx =
        kalmanGain (Dense.toMatrix n n snapshot.covariance) (Dense.toMatrix m n fullH) sigma *
          Dense.toMatrix m 1 residual := by
  obtain ⟨hWrows, hWcols⟩ := @size_whitenedFactor k n r m _ fullH factor sigma hf hrows
  unfold rectangularMean
  rw [hrefuse, if_neg Bool.false_ne_true, hfull]
  dsimp only
  by_cases hrank : factor.positiveEigenvalues.rows = 0
  · rw [if_pos hrank]
    refine ⟨_, rfl, hn, rfl, ?_⟩
    -- Without support the prior is zero.
    have hr : r = 0 := hf.values_rows.symm.trans hrank
    have hzero : toMatrix n n snapshot.covariance = 0 := by
      rw [← hf.product]
      subst hr
      ext i j
      simp [mul_apply]
    rw [hzero, kalmanGain, Matrix.zero_mul, Matrix.zero_mul, Matrix.zero_mul]
    ext i j
    exact coeff_zero _ _ _ _
  · obtain ⟨hsuccess, -, hscols, -⟩ := solve_normalMatrix hk
      (B := mul (whitenedFactor fullH (factor.factor k) sigma).transpose
        (whitenedResidual residual sigma)) hWrows hWcols hWcols
    rw [if_neg hrank, hsuccess, Bool.not_true, if_neg Bool.false_ne_true]
    exact ⟨_, rfl, hf.basis_rows, hscols, toMatrix_increment hk hf hrows hcols hresidual hsigma⟩

theorem selectedCovariance_exact (hk : k.Exact) {snapshot : PreviewSnapshot ℝ} {H : Dense ℝ}
    {layout : List PreviewBlock} (hf : Factors k n r snapshot.covariance factor)
    (hrefuse : refusesSystem snapshot factor layout H residual sigma = false)
    (hfull : fullJacobian snapshot.covariance.rows layout H = some fullH) (hrows : fullH.rows = m)
    (hcols : fullH.cols = n) (hn : snapshot.covariance.rows = n) (hpos : 0 < n)
    (hresidual : residual.rows = m) (hsigma : sigma ≠ 0) :
    ∃ selected, selectedCovariance k snapshot factor layout H residual sigma = .ok selected ∧
      (selected.dx.rows = n ∧ selected.dx.cols = 1) ∧
      Dense.toMatrix n 1 selected.dx =
        kalmanGain (Dense.toMatrix n n snapshot.covariance) (Dense.toMatrix m n fullH) sigma *
          Dense.toMatrix m 1 residual ∧
      (selected.posterior.rows = n ∧ selected.posterior.cols = n) ∧ selected.posterior.Symmetric ∧
      Dense.toMatrix n n selected.posterior = kalmanPosterior
        (Dense.toMatrix n n snapshot.covariance) (Dense.toMatrix m n fullH) sigma ∧
      (Dense.toMatrix n n selected.posterior).PosSemidef := by
  obtain ⟨hWrows, hWcols⟩ := @size_whitenedFactor k n r m _ fullH factor sigma hf hrows
  unfold selectedCovariance
  rw [hrefuse, if_neg Bool.false_ne_true, hfull]
  dsimp only
  by_cases hrank : factor.positiveEigenvalues.rows = 0
  · have hr : r = 0 := hf.values_rows.symm.trans hrank
    have hzero : toMatrix n n snapshot.covariance = 0 := by
      rw [← hf.product]
      subst hr
      ext i j
      simp [mul_apply]
    have hmatrix : toMatrix n n (.zero n n : Dense ℝ) = 0 := by
      ext i j
      exact coeff_zero _ _ _ _
    have hsymmetric : (.zero n n : Dense ℝ).Symmetric :=
      ⟨rfl, fun i j _ _ => by rw [coeff_zero, coeff_zero]⟩
    have hpsd : (toMatrix n n (.zero n n : Dense ℝ)).PosSemidef := by
      rw [hmatrix]
      exact PosSemidef.zero
    have hvalid : validatePosterior k (.zero n n : Dense ℝ) = true :=
      validatePosterior_of_posSemidef hk hpos hsymmetric hpsd
    rw [if_pos hrank, hn, hvalid, if_pos rfl]
    refine ⟨_, rfl, ⟨rfl, rfl⟩, ?_, ⟨rfl, rfl⟩, hsymmetric, ?_, hpsd⟩
    · rw [hzero, kalmanGain, Matrix.zero_mul, Matrix.zero_mul, Matrix.zero_mul]
      ext i j
      exact coeff_zero _ _ _ _
    · rw [hmatrix, hzero, kalmanPosterior, Matrix.mul_zero, Matrix.mul_zero, sub_zero]
  · obtain ⟨hsuccess, -, hscols, -⟩ := solve_normalMatrix hk
      (B := mul (whitenedFactor fullH (factor.factor k) sigma).transpose
        (whitenedResidual residual sigma)) hWrows hWcols hWcols
    obtain ⟨⟨hraws, hrawc⟩, hmatrix, hpsd⟩ := toMatrix_rawPosterior hk hf hrows hcols hsigma
    set raw := mul (factor.factor k) ((k.llt (normalMatrix (whitenedFactor fullH
      (factor.factor k) sigma))).solve (factor.factor k).transpose) with hraw
    have hsymmetric : raw.Symmetric := by
      refine symmetric_of_toMatrix hraws hrawc ?_
      have hhermitian := hpsd.isHermitian.eq
      rwa [conjTranspose_eq_transpose_of_trivial] at hhermitian
    have hvalid : validatePosterior k raw = true :=
      validatePosterior_of_posSemidef hk (hraws ▸ hpos) hsymmetric (hraws.symm ▸ hpsd)
    rw [if_neg hrank, hsuccess, Bool.not_true, if_neg Bool.false_ne_true, hvalid, if_pos rfl]
    refine ⟨_, rfl, ⟨hf.basis_rows, hscols⟩, toMatrix_increment hk hf hrows hcols hresidual hsigma, ?_⟩
    dsimp only
    rw [symmetricPart_eq hsymmetric]
    exact ⟨⟨hraws, hrawc⟩, hsymmetric, hmatrix, hpsd⟩

/-! ## The prior cost -/

theorem toMatrix_factor (hk : k.Exact) (hf : Factors k n r prior factor) :
    Dense.toMatrix n r (factor.factor k) = Dense.toMatrix n r factor.basis *
      Matrix.diagonal fun c : Fin r => √(factor.positiveEigenvalues.coeff c 0) := by
  ext i c
  have hi : i.val < factor.basis.rows := hf.basis_rows.symm ▸ i.isLt
  have hc : c.val < factor.positiveEigenvalues.rows := hf.values_rows.symm ▸ c.isLt
  rw [mul_diagonal]
  change (ofFn _ _ _).coeff i c = _
  rw [coeff_ofFn hi hc, hk.sqrt]
  rfl

theorem evaluate_eq (hk : k.Exact) (hf : Factors k n r prior factor) {delta : Dense ℝ}
    (hrows : delta.rows = n) (hcols : delta.cols = 1) {Z : Matrix (Fin r) (Fin 1) ℝ}
    (hZ : Dense.toMatrix n 1 delta = Dense.toMatrix n r (factor.factor k) * Z) :
    factor.evaluate k delta = some (1 / 2 * ∑ c, Z c 0 ^ 2) := by
  set D := Matrix.diagonal fun c : Fin r => √(factor.positiveEigenvalues.coeff c 0) with hD
  set projected := mul factor.basis.transpose delta with hprojected
  have hprows : projected.rows = r := hf.basis_cols
  have hprojection : toMatrix r 1 projected = D * Z := by
    rw [hprojected, toMatrix_mul (by exact hf.basis_cols) (by exact hf.basis_rows) hcols,
      toMatrix_transpose, hZ, toMatrix_factor hk hf, ← Matrix.mul_assoc, ← Matrix.mul_assoc,
      hf.orthonormal, one_mul]
  have hsupported : toMatrix n 1 (mul factor.basis projected) =
      toMatrix n 1 delta := by
    rw [toMatrix_mul hf.basis_rows hf.basis_cols (by exact hcols), hprojection, hZ,
      toMatrix_factor hk hf, Matrix.mul_assoc]
  have herror : squaredNorm (.ofFn delta.rows 1 fun i _ =>
      delta.coeff i 0 - (mul factor.basis projected).coeff i 0) = 0 := by
    refine Finset.sum_eq_zero fun i hi => ?_
    have hi' : i < delta.rows := Finset.mem_range.mp hi
    have hentry := congrFun (congrFun hsupported ⟨i, hrows ▸ hi'⟩) 0
    have hentry' : (mul factor.basis projected).coeff i 0 = delta.coeff i 0 := hentry
    rw [coeff_ofFn hi' Nat.zero_lt_one, hentry', sub_self, mul_zero]
  have hepsilon := hk.epsilon
  unfold PriorSupportFactor.evaluate
  rw [if_neg (by rw [hrows, hf.basis_rows]; exact fun h => h rfl)]
  dsimp only
  rw [← hprojected, herror, hk.sqrt 0, Real.sqrt_zero, if_neg (by
    rw [not_lt]
    positivity)]
  by_cases hrank : factor.positiveEigenvalues.rows = 0
  · have hr : r = 0 := hf.values_rows.symm.trans hrank
    subst hr
    rw [if_pos hrank]
    simp
  · rw [if_neg hrank]
    congr 2
    unfold squaredNorm
    rw [rows_ofFn, hprows, Finset.sum_range]
    refine Finset.sum_congr rfl fun c _ => ?_
    have hroot : 0 < √(factor.positiveEigenvalues.coeff c 0) := Real.sqrt_pos.mpr (hf.positive c c.isLt)
    have hentry := congrFun (congrFun hprojection c) 0
    rw [hD, Matrix.diagonal_mul] at hentry
    have hentry' : projected.coeff c 0 = √(factor.positiveEigenvalues.coeff c 0) * Z c 0 := hentry
    rw [coeff_ofFn c.isLt Nat.zero_lt_one, hk.sqrt, hentry',
      mul_div_cancel_left₀ _ hroot.ne']
    ring

/-- `|r - H dx|^2 / sigma^2` -/
noncomputable def pixelCost (F : Matrix (Fin m) (Fin n) ℝ) (R : Matrix (Fin m) (Fin 1) ℝ)
    (delta : Matrix (Fin n) (Fin 1) ℝ) (sigma : ℝ) : ℝ :=
  (∑ a, (R a 0 - (F * delta) a 0) ^ 2) / sigma ^ 2

theorem kalman_minimizes (L : Matrix (Fin n) (Fin r) ℝ) (F : Matrix (Fin m) (Fin n) ℝ)
    (R : Matrix (Fin m) (Fin 1) ℝ) (hsigma : sigma ≠ 0) :
    ∃ Y : Matrix (Fin r) (Fin 1) ℝ, kalmanGain (L * Lᵀ) F sigma * R = L * Y ∧
      ∀ Z : Matrix (Fin r) (Fin 1) ℝ, pixelCost F R (L * Y) sigma + ∑ c, Y c 0 ^ 2 ≤
        pixelCost F R (L * Z) sigma + ∑ c, Z c 0 ^ 2 := by
  obtain ⟨W, hW⟩ : ∃ W, W = sigma⁻¹ • (F * L) := ⟨_, rfl⟩
  obtain ⟨Y, hY⟩ : ∃ Y, Y = (1 + Wᵀ * W)⁻¹ * (Wᵀ * (sigma⁻¹ • R)) := ⟨_, rfl⟩
  have hgain := squareRoot_gain L F hsigma (isUnit_det_normal _)
  rw [← hW] at hgain
  have hcost : ∀ Z : Matrix (Fin r) (Fin 1) ℝ,
      ((fun a => sigma⁻¹ * R a 0) - W *ᵥ fun c => Z c 0) ⬝ᵥ
        ((fun a => sigma⁻¹ * R a 0) - W *ᵥ fun c => Z c 0) = pixelCost F R (L * Z) sigma := by
    intro Z
    unfold pixelCost
    rw [Finset.sum_div]
    refine Finset.sum_congr rfl fun a _ => ?_
    have hproduct : (W *ᵥ fun c => Z c 0) a = sigma⁻¹ * (F * (L * Z)) a 0 := by
      rw [hW, ← Matrix.mul_assoc, Matrix.smul_mulVec, Pi.smul_apply, smul_eq_mul]
      rfl
    rw [Pi.sub_apply, hproduct]
    field_simp
  have hnormal : (1 + Wᵀ * W) *ᵥ (fun c => Y c 0) = Wᵀ *ᵥ fun a => sigma⁻¹ * R a 0 := by
    have hsolves : (1 + Wᵀ * W) * Y = Wᵀ * (sigma⁻¹ • R) := by
      rw [hY, ← Matrix.mul_assoc, Matrix.mul_nonsing_inv _ (isUnit_det_normal W), Matrix.one_mul]
    funext c
    exact congrFun (congrFun hsolves c) 0
  refine ⟨Y, ?_, fun Z => ?_⟩
  · have hscale : kalmanGain (L * Lᵀ) F sigma = sigma⁻¹ • (L * ((1 + Wᵀ * W)⁻¹ * Wᵀ)) := by
      rw [hgain, smul_smul, inv_mul_cancel₀ hsigma, one_smul]
      rfl
    rw [hscale, hY, Matrix.smul_mul, Matrix.mul_smul, Matrix.mul_smul, Matrix.mul_smul]
    simp only [Matrix.mul_assoc]
  · have hminimal := normalEquations_minimize W _ hnormal fun c => Z c 0
    rw [hcost, hcost] at hminimal
    simpa only [dotProduct, ← pow_two] using hminimal

end System

/-! ## The preview of the same system -/

section Agreement

variable {llt : Dense ℝ → LLT ℝ} {rotate : List ℝ → List ℝ → List ℝ}
  {eigenvalues : Dense ℝ → Option (ℝ × ℝ)} {snapshot : PreviewSnapshot ℝ}
  {layout : List PreviewBlock} {H residual : Dense ℝ} {sigma : ℝ}

theorem computeFromSnapshot_exact (hllt : Solves llt) (hsymmetric : snapshot.covariance.Symmetric)
    (hin : PreviewInput snapshot layout H residual
      (Dense.scaledIdentity residual.rows (sigma ^ 2))) (hsigma : 0 < sigma)
    (hprior : (Dense.toMatrix snapshot.covariance.rows snapshot.covariance.rows
      snapshot.covariance).PosSemidef)
    (hposterior : (kalmanPosterior (Dense.toMatrix snapshot.covariance.rows snapshot.covariance.rows
      snapshot.covariance) (Dense.toMatrix residual.rows snapshot.covariance.rows
        (embedColumns H snapshot.covariance.rows layout)) sigma).PosSemidef) :
    ∃ dx P_plus, computeFromSnapshot (exactKernels llt rotate eigenvalues) snapshot layout H residual
        (Dense.scaledIdentity residual.rows (sigma ^ 2)) = .ok (dx, P_plus) ∧
      (dx.rows = snapshot.covariance.rows ∧ dx.cols = 1) ∧
      (P_plus.rows = snapshot.covariance.rows ∧ P_plus.cols = snapshot.covariance.rows) ∧
      Dense.toMatrix snapshot.covariance.rows 1 dx =
        kalmanGain (Dense.toMatrix snapshot.covariance.rows snapshot.covariance.rows
          snapshot.covariance) (Dense.toMatrix residual.rows snapshot.covariance.rows
            (embedColumns H snapshot.covariance.rows layout)) sigma *
          Dense.toMatrix residual.rows 1 residual ∧
      Dense.toMatrix snapshot.covariance.rows snapshot.covariance.rows P_plus =
        kalmanPosterior (Dense.toMatrix snapshot.covariance.rows snapshot.covariance.rows
          snapshot.covariance) (Dense.toMatrix residual.rows snapshot.covariance.rows
            (embedColumns H snapshot.covariance.rows layout)) sigma := by
  set n := snapshot.covariance.rows with hn
  set m := residual.rows with hm
  set order := layout.map PreviewBlock.toVar with horder
  set P := toMatrix n n snapshot.covariance with hP
  set F := toMatrix m n (embedColumns H n layout) with hF
  set R : Dense ℝ := scaledIdentity m (sigma ^ 2) with hR
  have hl : Laid snapshot.toState := laid_toState hin.square hin.blocks
  have hfits := layoutFits_of_check snapshot layout 0 [] H.cols hin.layout
  have htotal : H.cols = sizeOfVars order := by
    rw [hfits.total, Nat.zero_add]
  have hRsymmetric : R.Symmetric := by
    refine symmetric_of_toMatrix (n := m) rfl rfl ?_
    rw [hR, toMatrix_scaledIdentity, transpose_smul, transpose_one]
  -- The chosen coordinates are rows of the whole Jacobian.
  have hinside : ∀ c < H.cols, snapshot.toState.pos order c < snapshot.toState.cov.rows := fun c hc =>
    hfits.inside _ (pos_mem (htotal ▸ hc))
  have hFmatrix : F = toMatrix m H.cols H * selection snapshot.toState order H.cols n :=
    toMatrix_embedColumns hin.rows hfits
  have hcolumns : chosenColumns snapshot.toState order n H.cols * (toMatrix m H.cols H)ᵀ =
      P * Fᵀ := by
    rw [hFmatrix, Matrix.transpose_mul, ← Matrix.mul_assoc]
    exact congrArg (· * (toMatrix m H.cols H)ᵀ) (chosenColumns_eq hinside)
  have hblock : toMatrix m H.cols H * chosenBlock snapshot.toState order H.cols *
      (toMatrix m H.cols H)ᵀ = F * P * Fᵀ := by
    have hchosen := chosenBlock_eq hinside
    rw [hchosen, hFmatrix, transpose_mul]
    simp only [Matrix.mul_assoc]
    rfl
  have hinnovation : innovationMatrix snapshot.toState order H R m H.cols =
      F * P * Fᵀ + sigma ^ 2 • (1 : Matrix (Fin m) (Fin m) ℝ) := by
    unfold innovationMatrix
    rw [hblock, hR, toMatrix_scaledIdentity]
  have hpd : (innovationMatrix snapshot.toState order H R m H.cols).PosDef := by
    rw [hinnovation]
    exact PosDef.posSemidef_add (posSemidef_congruence F hprior)
      (PosDef.one.smul (pow_pos hsigma 2))
  have hgain : gainMatrix snapshot.toState order H R m H.cols = kalmanGain P F sigma := by
    unfold gainMatrix kalmanGain
    rw [hinnovation]
    exact congrArg (· * _) hcolumns
  have hPsymmetric : Pᵀ = P := hsymmetric.toMatrix_transpose n
  obtain ⟨hdxsize, hPsize, hdx, hcov⟩ := @ekfProposal_exact llt rotate eigenvalues snapshot.toState
    order hl hsymmetric hllt H residual R m H.cols hin.rows rfl htotal rfl rfl hRsymmetric hpd
  have hcov' : toMatrix n n (ekfProposal (exactKernels llt rotate eigenvalues) snapshot.toState
      order H residual R).2 = kalmanPosterior P F sigma := by
    refine hcov.trans ?_
    rw [hgain]
    unfold kalmanPosterior
    congr 1
    change kalmanGain P F sigma * (chosenColumns snapshot.toState order n H.cols *
      (toMatrix m H.cols H)ᵀ)ᵀ = _
    rw [hcolumns, transpose_mul, transpose_transpose, hPsymmetric]
  have hsuccess : (llt (upperTriangle (innovation (exactKernels llt rotate eigenvalues) H
      (marginalCovariance snapshot.toState order) R))).success = true := by
    refine (hllt m (upperTriangle (innovation (exactKernels llt rotate eigenvalues) H
      (marginalCovariance snapshot.toState order) R)) rfl rfl ?_).1
    rw [@toMatrix_innovation llt rotate eigenvalues snapshot.toState order hsymmetric H R m H.cols rfl
      hRsymmetric rfl htotal]
    exact hpd
  refine ⟨_, _, computeFromSnapshot_eq_ekfProposal hin hsuccess ?_, hdxsize, hPsize, ?_, hcov'⟩
  · intro i hi
    have hentry := hposterior.diag_nonneg (i := ⟨i, hi⟩)
    rw [← hcov'] at hentry
    exact hentry
  · rw [← hgain]
    exact hdx

structure SystemInput (snapshot : PreviewSnapshot ℝ) (layout : List PreviewBlock)
    (H residual : Dense ℝ) : Prop where
  state_pos : 0 < snapshot.covariance.rows
  square : snapshot.covariance.cols = snapshot.covariance.rows
  measured_pos : 0 < residual.rows
  rows : H.rows = residual.rows
  cols_pos : 0 < H.cols
  layout : checkLayout (fun _ => true) snapshot.covariance.rows H.cols 0 [] layout = some H.cols

theorem refusesSystem_eq_false {factor : PriorSupportFactor ℝ}
    (hin : SystemInput snapshot layout H residual)
    (hbasis : factor.basis.rows = snapshot.covariance.rows) (hsigma : 0 < sigma) :
    refusesSystem snapshot factor layout H residual sigma = false := by
  have hstate := hin.state_pos
  have hmeasured := hin.measured_pos
  have hcols := hin.cols_pos
  have hrows := hin.rows
  have hlayout : layout ≠ [] := by
    rintro rfl
    have := Option.some.inj hin.layout
    omega
  refine decide_eq_false ?_
  rintro (h | h | h | h | h | h | h | h)
  · exact h hbasis
  · omega
  · exact h hin.square
  · omega
  · exact h hrows
  · omega
  · exact hlayout h
  · exact h hsigma

/-- **The fixed two passes are the Kalman update**: on every symmetric prior whose eigenvalues are zero
or above the tolerance, of whatever rank, the mean and the covariance through the factor are those of
the innovation form, they are what the preview proposes on a system it takes, and the increment has the
smallest cost on the range of the prior. `Evaluate` returns half of the quadratic form of the prior, as
the objective of a pass takes half of the weighted pixel cost. -/
theorem twoPass_exact {k : TwoPassKernels ℝ} (hk : k.Exact) (hllt : Solves llt)
    (hsymmetric : snapshot.covariance.Symmetric)
    (hgap : ∀ e, k.eigensolver snapshot.covariance = some e →
      ∀ i < snapshot.covariance.rows, e.eigenvalues.coeff i 0 = 0 ∨
        zeroToleranceOf k snapshot.covariance.rows (maxCoeff e.eigenvalues) <
          e.eigenvalues.coeff i 0)
    (hin : SystemInput snapshot layout H residual) (hsigma : 0 < sigma) :
    let n := snapshot.covariance.rows
    let m := residual.rows
    let P := Dense.toMatrix n n snapshot.covariance
    let F := Dense.toMatrix m n (embedColumns H n layout)
    let R := Dense.toMatrix m 1 residual
    ∃ factor mean selected,
      factorPriorSupport k snapshot.covariance = some factor ∧
      rectangularMean k snapshot factor layout H residual sigma = some mean ∧
      selectedCovariance k snapshot factor layout H residual sigma = .ok selected ∧
      Dense.toMatrix n 1 mean.dx =
        P * Fᵀ * (F * P * Fᵀ + sigma ^ 2 • (1 : Matrix (Fin m) (Fin m) ℝ))⁻¹ * R ∧
      Dense.toMatrix n n selected.posterior =
        P - P * Fᵀ * (F * P * Fᵀ + sigma ^ 2 • (1 : Matrix (Fin m) (Fin m) ℝ))⁻¹ * (F * P) ∧
      selected.posterior.Symmetric ∧ (Dense.toMatrix n n selected.posterior).PosSemidef ∧
      selected.dx = mean.dx ∧
      (PreviewInput snapshot layout H residual (Dense.scaledIdentity m (sigma ^ 2)) →
        computeFromSnapshot (exactKernels llt rotate eigenvalues) snapshot layout H residual
          (Dense.scaledIdentity m (sigma ^ 2)) = .ok (mean.dx, selected.posterior)) ∧
      (∃ X : Matrix (Fin n) (Fin 1) ℝ, Dense.toMatrix n 1 mean.dx = P * X) ∧
      ∃ least, factor.evaluate k mean.dx = some least ∧
        ∀ delta : Dense ℝ, delta.rows = n → delta.cols = 1 →
          (∃ X : Matrix (Fin n) (Fin 1) ℝ, Dense.toMatrix n 1 delta = P * X) →
          ∃ cost, factor.evaluate k delta = some cost ∧
            pixelCost F R (Dense.toMatrix n 1 mean.dx) sigma + 2 * least ≤
              pixelCost F R (Dense.toMatrix n 1 delta) sigma + 2 * cost := by
  intro n m P F R
  obtain ⟨factor, r, hfactor, hf⟩ := factorPriorSupport_spec hk hin.state_pos hsymmetric hgap
  have hrefuse := refusesSystem_eq_false hin hf.basis_rows hsigma
  have hfull : fullJacobian snapshot.covariance.rows layout H = some (embedColumns H n layout) := by
    unfold fullJacobian
    exact if_neg fun h => h hin.layout
  obtain ⟨hFrows, hFcols⟩ := @size_embedColumns ℝ _ H n layout
  obtain ⟨mean, hmean, hmrows, hmcols, hmdx⟩ := rectangularMean_exact hk hf hrefuse hfull
    (hFrows.trans hin.rows) hFcols rfl rfl hsigma.ne'
  obtain ⟨selected, hselected, hssize, hsdx, hpsize, hpsymmetric, hposterior, hpsd⟩ :=
    selectedCovariance_exact hk hf hrefuse hfull (hFrows.trans hin.rows) hFcols rfl hin.state_pos rfl
      hsigma.ne'
  -- a product of the factor with its transpose
  have hprior : P.PosSemidef := by
    have hproduct := posSemidef_self_mul_conjTranspose (toMatrix n r (factor.factor k))
    rw [conjTranspose_eq_transpose_of_trivial, hf.product] at hproduct
    exact hproduct
  -- the mean is the factor times the minimizer in its coordinates
  obtain ⟨Y, hY, hminimal⟩ := @kalman_minimizes n r m sigma (toMatrix n r (factor.factor k)) F R
    hsigma.ne'
  rw [hf.product] at hY
  have hmY : toMatrix n 1 mean.dx = toMatrix n r (factor.factor k) * Y := hmdx.trans hY
  refine ⟨factor, mean, selected, hfactor, hmean, hselected, hmdx, hposterior, hpsymmetric, hpsd,
    eq_of_toMatrix hssize ⟨hmrows, hmcols⟩ (hsdx.trans hmdx.symm), fun hpreview => ?_, ?_, _,
    evaluate_eq hk hf hmrows hmcols hmY, ?_⟩
  · obtain ⟨dx, P_plus, hresult, hdsize, hPsize, hdx, hcov⟩ :=
      @computeFromSnapshot_exact llt rotate eigenvalues snapshot layout H residual sigma hllt
        hsymmetric hpreview hsigma hprior (hposterior ▸ hpsd)
    rw [hresult, eq_of_toMatrix ⟨hmrows, hmcols⟩ hdsize (hmdx.trans hdx.symm),
      eq_of_toMatrix hpsize hPsize (hposterior.trans hcov.symm)]
  · refine ⟨Fᵀ * (F * P * Fᵀ + sigma ^ 2 • (1 : Matrix (Fin m) (Fin m) ℝ))⁻¹ * R, ?_⟩
    rw [hmdx, kalmanGain]
    simp only [Matrix.mul_assoc]
    rfl
  · rintro delta hrows hcols ⟨X, hX⟩
    have hZ : toMatrix n 1 delta = toMatrix n r (factor.factor k) *
        ((toMatrix n r (factor.factor k))ᵀ * X) := by
      rw [hX, ← Matrix.mul_assoc, hf.product]
    refine ⟨_, evaluate_eq hk hf hrows hcols hZ, ?_⟩
    have hcost := hminimal ((toMatrix n r (factor.factor k))ᵀ * X)
    rw [← hmY, ← hZ] at hcost
    linarith

theorem PreviewInput.toSystem {R : Dense ℝ} (hin : PreviewInput snapshot layout H residual R) :
    SystemInput snapshot layout H residual where
  state_pos := hin.state_pos
  square := hin.square
  measured_pos := hin.measured_pos
  rows := hin.rows
  cols_pos := hin.cols_pos
  layout := checkLayout_weaken layout 0 [] H.cols hin.layout

end Agreement

/-! ## Kernels -/

theorem exists_decomposes (n : Nat) {S : Dense ℝ} (hS : S.Symmetric) : ∃ e, Decomposes n S e := by
  have hA : (toMatrix n n S).IsHermitian := by
    unfold IsHermitian
    rw [conjTranspose_eq_transpose_of_trivial, hS.toMatrix_transpose]
  set order := Tuple.sort hA.eigenvalues with horder
  set U : Matrix (Fin n) (Fin n) ℝ := hA.eigenvectorUnitary.val with hU
  have hunitary : Uᵀ * U = 1 := by
    have hstar := Unitary.coe_star_mul_self hA.eigenvectorUnitary
    rwa [star_eq_conjTranspose, conjTranspose_eq_transpose_of_trivial] at hstar
  have hvectors := toMatrix_ofMatrix (U.submatrix id order)
  have hvalues : ∀ c : Fin n, (ofMatrix fun (i : Fin n) (_ : Fin 1) =>
      hA.eigenvalues (order i)).coeff c 0 = hA.eigenvalues (order c) := fun c =>
    congrFun (congrFun (toMatrix_ofMatrix fun (i : Fin n) (_ : Fin 1) =>
      hA.eigenvalues (order i)) c) 0
  refine ⟨⟨ofMatrix fun i (_ : Fin 1) => hA.eigenvalues (order i),
    ofMatrix (U.submatrix id order)⟩, rfl, rfl, rfl, fun i j hij hj => ?_, ?_, ?_⟩
  · have hmonotone := Tuple.monotone_sort hA.eigenvalues
    have hle := hmonotone (show (⟨i, hij.trans_lt hj⟩ : Fin n) ≤ ⟨j, hj⟩ from hij)
    exact (hvalues ⟨i, hij.trans_lt hj⟩).le.trans (hle.trans (hvalues ⟨j, hj⟩).ge)
  · rw [hvectors]
    ext a b
    have hentry := congrFun (congrFun hunitary (order a)) (order b)
    rw [mul_apply] at hentry ⊢
    refine hentry.trans ?_
    rw [one_apply, one_apply]
    simp only [order.injective.eq_iff]
  · rw [hvectors]
    have hspectral := hA.spectral_theorem
    rw [Unitary.conjStarAlgAut_apply] at hspectral
    refine hspectral.trans ?_
    ext i j
    rw [mul_apply, mul_apply, ← Equiv.sum_comp order]
    refine Finset.sum_congr rfl fun c _ => ?_
    rw [mul_diagonal, mul_diagonal, hvalues c]
    rfl

noncomputable def exactTwoPassKernels : TwoPassKernels ℝ where
  sqrt := Real.sqrt
  epsilon := 1 / 2 ^ 52
  eigensolver S := by
    classical
    exact if h : ∃ e, Decomposes S.rows S e then some h.choose else none
  llt J := ⟨true, fun B => Dense.ofMatrix
    ((Dense.toMatrix J.rows J.rows J)⁻¹ * Dense.toMatrix J.rows B.cols B)⟩

theorem exact_exactTwoPassKernels : exactTwoPassKernels.Exact where
  sqrt _ := rfl
  epsilon := by
    change (0 : ℝ) ≤ 1 / 2 ^ 52
    positivity
  eigensolver n S hrows hS := by
    subst hrows
    have h := exists_decomposes S.rows hS
    exact ⟨h.choose, dif_pos h, h.choose_spec⟩
  llt n J hrows _ _ := by
    subst hrows
    exact ⟨rfl, fun B _ => ⟨rfl, rfl, toMatrix_ofMatrix _⟩⟩

theorem Decomposes.eq_zero_or_one {n : Nat} {S : Dense ℝ} {e : EigenDecomposition ℝ}
    (h : Decomposes n S e)
    (hproject : Dense.toMatrix n n S * Dense.toMatrix n n S = Dense.toMatrix n n S) {i : Nat}
    (hi : i < n) : e.eigenvalues.coeff i 0 = 0 ∨ e.eigenvalues.coeff i 0 = 1 := by
  set V := toMatrix n n e.eigenvectors with hV
  set D := Matrix.diagonal fun c : Fin n => e.eigenvalues.coeff c 0 with hD
  have hVD : ∀ X : Matrix (Fin n) (Fin n) ℝ, Vᵀ * (V * X * Vᵀ) * V = X := by
    intro X
    calc Vᵀ * (V * X * Vᵀ) * V = Vᵀ * V * X * (Vᵀ * V) := by simp only [mul_assoc]
      _ = X := by rw [h.orthonormal, Matrix.one_mul, Matrix.mul_one]
  have hsquare : D * D = D := by
    have hSS : V * (D * D) * Vᵀ = V * D * Vᵀ := by
      calc V * (D * D) * Vᵀ = V * D * (Vᵀ * V) * D * Vᵀ := by
            rw [h.orthonormal, mul_one]
            simp only [mul_assoc]
        _ = (V * D * Vᵀ) * (V * D * Vᵀ) := by simp only [Matrix.mul_assoc]
        _ = V * D * Vᵀ := by rw [← h.expansion, hproject]
    rw [← hVD (D * D), hSS, hVD]
  have hentry := congrFun (congrFun hsquare ⟨i, hi⟩) ⟨i, hi⟩
  rw [hD, diagonal_mul_diagonal, diagonal_apply_eq, diagonal_apply_eq] at hentry
  have hfactor : e.eigenvalues.coeff i 0 * (e.eigenvalues.coeff i 0 - 1) = 0 := by
    change e.eigenvalues.coeff i 0 * e.eigenvalues.coeff i 0 = e.eigenvalues.coeff i 0 at hentry
    linear_combination hentry
  rcases mul_eq_zero.mp hfactor with hz | hone
  · exact .inl hz
  · exact .inr (sub_eq_zero.mp hone)

def rankOne : PreviewSnapshot ℝ where
  covariance := .ofFn 2 2 fun i j => if i = 0 ∧ j = 0 then 1 else 0
  stateBlocks := [⟨0, 2, 0⟩]

theorem toMatrix_rankOne :
    Dense.toMatrix 2 2 rankOne.covariance = Matrix.diagonal fun c : Fin 2 => if c = 0 then 1 else 0 := by
  ext i j
  refine (coeff_ofFn i.isLt j.isLt).trans ?_
  fin_cases i <;> fin_cases j <;> simp

/-- One measurement of the sum of two coordinates, of which one is known. -/
theorem twoPass_exact_rankOne :
    ∃ mean selected factor,
      rectangularMean exactTwoPassKernels rankOne factor [⟨0, 2, 0⟩] (.ofFn 1 2 fun _ _ => 1)
        (.ofFn 1 1 fun _ _ => 1) 1 = some mean ∧
      selectedCovariance exactTwoPassKernels rankOne factor [⟨0, 2, 0⟩] (.ofFn 1 2 fun _ _ => 1)
        (.ofFn 1 1 fun _ _ => 1) 1 = .ok selected ∧
      computeFromSnapshot (exactKernels inverseFactorization (fun _ q => q) fun _ => none) rankOne
        [⟨0, 2, 0⟩] (.ofFn 1 2 fun _ _ => 1) (.ofFn 1 1 fun _ _ => 1)
        (Dense.scaledIdentity 1 (1 ^ 2)) = .ok (mean.dx, selected.posterior) := by
  have hin : PreviewInput rankOne [⟨0, 2, 0⟩] (.ofFn 1 2 fun _ _ => 1) (.ofFn 1 1 fun _ _ => 1)
      (scaledIdentity 1 (1 ^ 2)) :=
    { state_pos := Nat.zero_lt_two
      square := rfl
      measured_pos := Nat.zero_lt_one
      rows := rfl
      cols_pos := Nat.zero_lt_two
      noise_rows := rfl
      noise_cols := rfl
      blocks := rfl
      layout := rfl }
  have hsymmetric : rankOne.covariance.Symmetric := by
    refine symmetric_of_toMatrix (n := 2) rfl rfl ?_
    rw [toMatrix_rankOne, diagonal_transpose]
  have hproject : toMatrix 2 2 rankOne.covariance * toMatrix 2 2 rankOne.covariance =
      toMatrix 2 2 rankOne.covariance := by
    rw [toMatrix_rankOne, diagonal_mul_diagonal]
    congr 1
    funext c
    split <;> simp
  have hgap : ∀ e, exactTwoPassKernels.eigensolver rankOne.covariance = some e →
      ∀ i < rankOne.covariance.rows, e.eigenvalues.coeff i 0 = 0 ∨
        zeroToleranceOf exactTwoPassKernels rankOne.covariance.rows (maxCoeff e.eigenvalues) <
          e.eigenvalues.coeff i 0 := by
    intro e he i hi
    obtain ⟨e', he', hdecomposes⟩ := exact_exactTwoPassKernels.eigensolver 2 rankOne.covariance rfl
      hsymmetric
    obtain rfl : e' = e := Option.some.inj (he'.symm.trans he)
    rcases hdecomposes.eq_zero_or_one hproject hi with hz | hone
    · exact .inl hz
    · refine .inr ?_
      -- The largest eigenvalue is zero or one as well.
      obtain ⟨c, hc, hmax⟩ := maxCoeff_eq (v := e'.eigenvalues)
        (hdecomposes.values_rows ▸ Nat.zero_lt_two)
      have hle : max 1 (maxCoeff e'.eigenvalues) = 1 := by
        rw [hmax]
        rcases hdecomposes.eq_zero_or_one hproject (hdecomposes.values_rows ▸ hc) with h | h <;>
          norm_num [h]
      have hrows : rankOne.covariance.rows = 2 := rfl
      unfold zeroToleranceOf
      rw [hone, hle, hrows]
      change (256 : ℝ) * (2 : Nat) * (1 / 2 ^ 52) * 1 < 1
      norm_num
  obtain ⟨factor, mean, selected, -, hmean, hselected, -, -, -, -, -, hpreview, -⟩ :=
    @twoPass_exact inverseFactorization (fun _ q => q) (fun _ => none) rankOne [⟨0, 2, 0⟩]
      (.ofFn 1 2 fun _ _ => 1) (.ofFn 1 1 fun _ _ => 1) 1 exactTwoPassKernels
      exact_exactTwoPassKernels solves_inverseFactorization hsymmetric hgap hin.toSystem one_pos
  exact ⟨mean, selected, factor, hmean, hselected, hpreview hin⟩

end Bravo.Filter
