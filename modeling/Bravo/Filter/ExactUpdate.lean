import Bravo.Basic.Numerals
import Bravo.Filter.Blocks
import Mathlib.Algebra.Order.Star.Real
import Mathlib.Data.Real.Basic
import Mathlib.LinearAlgebra.Matrix.PosDef

/-! # The update in exact arithmetic

Over the real numbers the kernels are the expressions they are written as, and a factorisation of a
positive definite matrix solves. Then the loops of `EKFUpdate` compute the Kalman gain of the chosen
coordinates (`ekfProposal_exact`).
-/

namespace Bravo.Filter

open Bravo.Linear Matrix Dense Finset

/-! ## Kernels -/

/-- The kernels without rounding; the factorisation, the eigenvalues and the update of a quaternion
are those of the library. -/
noncomputable def exactKernels (llt : Dense ℝ → LLT ℝ) (rotate : List ℝ → List ℝ → List ℝ)
    (eigenvalues : Dense ℝ → Option (ℝ × ℝ)) : Kernels ℝ where
  storage _ _ := 0
  addMulTranspose M X Y i j :=
    M.coeff i j + ∑ b ∈ Finset.range X.cols, X.coeff i b * Y.coeff j b
  congruence H P i j :=
    ∑ c ∈ Finset.range H.cols, (∑ d ∈ Finset.range H.cols, H.coeff i d * P.coeff d c) * H.coeff j c
  llt := llt
  mulSelfadjoint M S i j := ∑ b ∈ Finset.range M.cols, M.coeff i b * S.mirrorUpper.coeff b j
  subMulTranspose C X Y i j := C.coeff i j - ∑ b ∈ Finset.range X.cols, X.coeff i b * Y.coeff j b
  mulVec M v i := ∑ b ∈ Finset.range M.cols, M.coeff i b * v.coeff b 0
  dot v w := ∑ b ∈ Finset.range v.rows, v.coeff b 0 * w.coeff b 0
  rotate := rotate
  isFinite _ := true
  lt a b := decide (a < b)
  sub a b := a - b
  mul a b := a * b
  abs a := |a|
  tolerance := 1 / 10 ^ 10
  eigenvalues := eigenvalues

/-- The factorisation of a positive definite matrix succeeds and solves. -/
def Solves (llt : Dense ℝ → LLT ℝ) : Prop :=
  ∀ (m : Nat) (U : Dense ℝ), U.rows = m → U.cols = m →
    (Dense.toMatrix m m U.mirrorUpper).PosDef →
      (llt U).success = true ∧ ((llt U).solve (identity m)).rows = m ∧
        ((llt U).solve (identity m)).cols = m ∧
        Dense.toMatrix m m ((llt U).solve (identity m)) = (Dense.toMatrix m m U.mirrorUpper)⁻¹

/-! ## The parts of the gain -/

section Parts

variable {llt : Dense ℝ → LLT ℝ} {rotate : List ℝ → List ℝ → List ℝ}
  {eigenvalues : Dense ℝ → Option (ℝ × ℝ)} {st : State ℝ} {H_order : List Var}

def chosenColumns (st : State ℝ) (order : List Var) (N n : Nat) : Matrix (Fin N) (Fin n) ℝ :=
  fun i c => st.cov.coeff i (st.pos order c)

def chosenBlock (st : State ℝ) (order : List Var) (n : Nat) : Matrix (Fin n) (Fin n) ℝ :=
  fun c d => st.cov.coeff (st.pos order c) (st.pos order d)

theorem size_crossBlock (k : Kernels ℝ) (H : Dense ℝ) (m : Nat) (var : Var) :
    (crossBlock k st H_order H m var).rows = var.size ∧
      (crossBlock k st H_order H m var).cols = m := by
  unfold crossBlock
  apply size_foldl
  intro M meas
  exact ⟨rfl, rfl⟩

theorem coeff_crossBlock {H : Dense ℝ} {m : Nat} (hH : H.rows = m) {var : Var} {r a : Nat}
    (hr : r < var.size) (ha : a < m) :
    (crossBlock (exactKernels llt rotate eigenvalues) st H_order H m var).coeff r a =
      ∑ c ∈ Finset.range (sizeOfVars H_order),
        st.cov.coeff (st.at var + r) (st.pos H_order c) * H.coeff a c := by
  have hfold := coeff_foldl_columns st var.size m r a
    (fun M_i meas => .ofFn M_i.rows M_i.cols ((exactKernels llt rotate eigenvalues).addMulTranspose
      M_i (st.cov.block (st.at var) (st.at meas.1) var.size meas.1.size)
      (H.block 0 meas.2 H.rows meas.1.size)))
    (fun p c => st.cov.coeff (st.at var + r) p * H.coeff a c) (fun _ _ => ⟨rfl, rfl⟩)
    (fun M meas hrows hcols => by
      rw [coeff_ofFn (hrows ▸ hr) (hcols ▸ ha)]
      change M.coeff r a + ∑ b ∈ range meas.1.size, _ = _
      congr 1
      refine sum_congr rfl fun b hb => ?_
      rw [coeff_block hr (mem_range.mp hb),
        coeff_block (hH ▸ ha) (mem_range.mp hb), Nat.zero_add])
    H_order 0 (.zero var.size m) rfl rfl
  simpa [crossBlock] using hfold

theorem size_crossCovariance (k : Kernels ℝ) (H : Dense ℝ) (m : Nat) :
    (crossCovariance k st H_order H m).rows = st.cov.rows ∧
      (crossCovariance k st H_order H m).cols = m :=
  size_foldl (by exact fun _ _ => ⟨rfl, rfl⟩) st.vars _

theorem toMatrix_crossCovariance (hl : Laid st) {H : Dense ℝ} {m n : Nat} (hH : H.rows = m)
    (hn : n = sizeOfVars H_order) :
    Dense.toMatrix st.cov.rows m
        (crossCovariance (exactKernels llt rotate eigenvalues) st H_order H m) =
      chosenColumns st H_order st.cov.rows n * (Dense.toMatrix m n H)ᵀ := by
  ext i a
  have hrows := @coeff_foldl_rows ℝ _ st
    (crossBlock (exactKernels llt rotate eigenvalues) st H_order H m)
    (fun p a => ∑ c ∈ range (sizeOfVars H_order),
      st.cov.coeff p (st.pos H_order c) * H.coeff a c)
    m st.vars 0 st.cov.rows hl.contiguous (fun v _ => size_crossBlock _ H m v)
    (fun v _ r a hr ha => coeff_crossBlock hH hr ha) (.zero st.cov.rows m) (le_refl _) rfl i a
    i.isLt a.isLt
  rw [if_pos ⟨Nat.zero_le _, i.isLt⟩] at hrows
  change (crossCovariance _ st H_order H m).coeff i a = _
  unfold crossCovariance
  rw [hrows, Matrix.mul_apply, ← hn, sum_range]
  rfl

theorem toMatrix_innovation (hP : st.cov.Symmetric) {H R : Dense ℝ} {m n : Nat} (hR : R.rows = m)
    (hsymmetric : R.Symmetric) (hcols : H.cols = n) (hn : n = sizeOfVars H_order) :
    Dense.toMatrix m m (upperTriangle (innovation (exactKernels llt rotate eigenvalues) H
        (marginalCovariance st H_order) R)).mirrorUpper =
      Dense.toMatrix m n H * chosenBlock st H_order n * (Dense.toMatrix m n H)ᵀ +
        Dense.toMatrix m m R := by
  -- The upper triangle.
  have hupper : ∀ a b : Fin m, a ≤ b →
      (upperTriangle (innovation (exactKernels llt rotate eigenvalues) H
        (marginalCovariance st H_order) R)).coeff a b =
      (toMatrix m n H * chosenBlock st H_order n * (toMatrix m n H)ᵀ +
        toMatrix m m R) a b := by
    intro a b hab
    have ha : a.val < R.rows := hR.symm ▸ a.isLt
    have hb : b.val < R.rows := hR.symm ▸ b.isLt
    have hab' : a.val ≤ b.val := hab
    unfold upperTriangle innovation
    rw [coeff_ofFn (by exact ha) (by exact hb), if_pos hab',
      coeff_setUpper (by exact ha) (by exact hb), if_pos hab',
      coeff_setUpper (by exact ha) (by exact hb), if_pos hab', Matrix.add_apply, Matrix.mul_apply]
    congr 1
    change ∑ c ∈ range H.cols, _ = _
    rw [hcols, sum_range]
    refine sum_congr rfl fun c _ => ?_
    rw [Matrix.mul_apply, Matrix.transpose_apply, sum_range]
    congr 1
    refine sum_congr rfl fun d _ => ?_
    rw [coeff_marginalCovariance (hn ▸ d.isLt) (hn ▸ c.isLt)]
    rfl
  -- The sum is symmetric.
  have hblock : (chosenBlock st H_order n)ᵀ = chosenBlock st H_order n := by
    ext c d
    exact hP.coeff_comm' _ _
  have hsum : (toMatrix m n H * chosenBlock st H_order n * (toMatrix m n H)ᵀ +
        toMatrix m m R)ᵀ =
      toMatrix m n H * chosenBlock st H_order n * (toMatrix m n H)ᵀ +
        toMatrix m m R := by
    rw [transpose_add, transpose_mul, transpose_mul, transpose_transpose, hblock,
      hsymmetric.toMatrix_transpose, Matrix.mul_assoc]
  ext a b
  have ha : a.val < R.rows := hR.symm ▸ a.isLt
  have hb : b.val < R.rows := hR.symm ▸ b.isLt
  change (upperTriangle _).mirrorUpper.coeff a b = _
  rw [coeff_mirrorUpper (by exact ha) (by exact hb)]
  by_cases hab : a.val ≤ b.val
  · rw [if_pos hab]
    exact hupper a b hab
  · rw [if_neg hab, hupper b a (Nat.le_of_not_le hab)]
    exact congrFun (congrFun hsum a) b

end Parts

/-! ## The proposal -/

section Proposal

variable {llt : Dense ℝ → LLT ℝ} {rotate : List ℝ → List ℝ → List ℝ}
  {eigenvalues : Dense ℝ → Option (ℝ × ℝ)} {st : State ℝ} {H_order : List Var}

theorem toMatrix_mirrorUpper {m : Nat} {M : Dense ℝ} (hrows : M.rows = m) (hcols : M.cols = m)
    (h : (Dense.toMatrix m m M)ᵀ = Dense.toMatrix m m M) :
    Dense.toMatrix m m M.mirrorUpper = Dense.toMatrix m m M := by
  ext a b
  change M.mirrorUpper.coeff a b = _
  rw [coeff_mirrorUpper (hrows ▸ a.isLt) (hcols ▸ b.isLt)]
  split
  · rfl
  · exact congrFun (congrFun h a) b

def innovationMatrix (st : State ℝ) (H_order : List Var) (H R : Dense ℝ) (m n : Nat) :
    Matrix (Fin m) (Fin m) ℝ :=
  Dense.toMatrix m n H * chosenBlock st H_order n * (Dense.toMatrix m n H)ᵀ + Dense.toMatrix m m R

/-- `P*H^T*S^{-1}` -/
noncomputable def gainMatrix (st : State ℝ) (H_order : List Var) (H R : Dense ℝ) (m n : Nat) :
    Matrix (Fin st.cov.rows) (Fin m) ℝ :=
  chosenColumns st H_order st.cov.rows n * (Dense.toMatrix m n H)ᵀ *
    (innovationMatrix st H_order H R m n)⁻¹

theorem ekfProposal_exact (hl : Laid st) (hP : st.cov.Symmetric) (hllt : Solves llt)
    {H res R : Dense ℝ} {m n : Nat} (hrows : H.rows = m) (hcols : H.cols = n)
    (hn : n = sizeOfVars H_order) (hres : res.rows = m) (hR : R.rows = m) (hsymmetric : R.Symmetric)
    (hpd : (innovationMatrix st H_order H R m n).PosDef) :
    let proposal := ekfProposal (exactKernels llt rotate eigenvalues) st H_order H res R
    (proposal.1.rows = st.cov.rows ∧ proposal.1.cols = 1) ∧
      (proposal.2.rows = st.cov.rows ∧ proposal.2.cols = st.cov.rows) ∧
      Dense.toMatrix st.cov.rows 1 proposal.1 =
        gainMatrix st H_order H R m n * Dense.toMatrix m 1 res ∧
      Dense.toMatrix st.cov.rows st.cov.rows proposal.2 =
        Dense.toMatrix st.cov.rows st.cov.rows st.cov -
          gainMatrix st H_order H R m n *
            (chosenColumns st H_order st.cov.rows n * (Dense.toMatrix m n H)ᵀ)ᵀ := by
  intro proposal
  have hS := @toMatrix_innovation llt rotate eigenvalues st H_order hP H R m n hR hsymmetric hcols hn
  set U := upperTriangle (innovation (exactKernels llt rotate eigenvalues) H
    (marginalCovariance st H_order) R) with hU
  have hUrows : U.rows = m := hR
  obtain ⟨-, hXrows, hXcols, hX⟩ := hllt m U hUrows hUrows (by rw [hS]; exact hpd)
  set X := (llt U).solve (identity m) with hXdef
  have hXinv : toMatrix m m X = (innovationMatrix st H_order H R m n)⁻¹ := by
    rw [hX, hS]
    rfl
  have hinnovation : (innovationMatrix st H_order H R m n)ᵀ = innovationMatrix st H_order H R m n := by
    have hhermitian := hpd.isHermitian.eq
    rwa [conjTranspose_eq_transpose_of_trivial] at hhermitian
  have hXsymmetric : (toMatrix m m X)ᵀ = toMatrix m m X := by
    rw [hXinv, transpose_nonsing_inv, hinnovation]
  have hXmirror := toMatrix_mirrorUpper hXrows hXcols hXsymmetric
  -- The gain.
  set M_a := crossCovariance (exactKernels llt rotate eigenvalues) st H_order H res.rows with hM
  have hMcols : M_a.cols = m := (size_crossCovariance _ H res.rows).2.trans hres
  have hMmatrix : toMatrix st.cov.rows m M_a =
      chosenColumns st H_order st.cov.rows n * (toMatrix m n H)ᵀ := by
    rw [hM, hres]
    exact toMatrix_crossCovariance hl hrows hn
  set gain : Dense ℝ := .ofFn st.cov.rows res.rows
    ((exactKernels llt rotate eigenvalues).mulSelfadjoint M_a X) with hgain
  have hgainMatrix : toMatrix st.cov.rows m gain = gainMatrix st H_order H R m n := by
    ext i j
    change gain.coeff i j = _
    rw [hgain, coeff_ofFn i.isLt (hres ▸ j.isLt)]
    change ∑ b ∈ range M_a.cols, M_a.coeff i b * X.mirrorUpper.coeff b j = _
    rw [hMcols, sum_range, gainMatrix, ← hMmatrix, ← hXinv, ← hXmirror, Matrix.mul_apply]
    rfl
  have hproposal : proposal = (.ofFn st.cov.rows 1 fun i _ =>
      (exactKernels llt rotate eigenvalues).mulVec gain res i,
      (st.cov.setUpper ((exactKernels llt rotate eigenvalues).subMulTranspose st.cov gain
        M_a)).mirrorUpper) := by
    change ekfProposal _ st H_order H res R = _
    unfold ekfProposal
    rw [hR]
    rfl
  have hgcols : gain.cols = m := hres
  rw [hproposal]
  refine ⟨⟨rfl, rfl⟩, ⟨rfl, hl.square.symm⟩, ?_, ?_⟩
  · ext i j
    have hj : j.val = 0 := by omega
    change (ofFn st.cov.rows 1 _).coeff i j = _
    rw [coeff_ofFn i.isLt j.isLt]
    change ∑ b ∈ range gain.cols, gain.coeff i b * res.coeff b 0 = _
    rw [hgcols, sum_range, Matrix.mul_apply, ← hgainMatrix]
    refine sum_congr rfl fun b _ => ?_
    change _ = gain.coeff i b * res.coeff b j
    rw [hj]
  · -- The upper triangle is that of a symmetric matrix.
    have hcoeff : ∀ i j : Fin st.cov.rows,
        (exactKernels llt rotate eigenvalues).subMulTranspose st.cov gain M_a i j =
          (toMatrix st.cov.rows st.cov.rows st.cov - gainMatrix st H_order H R m n *
            (chosenColumns st H_order st.cov.rows n * (toMatrix m n H)ᵀ)ᵀ) i j := by
      intro i j
      change st.cov.coeff i j - ∑ b ∈ range gain.cols, gain.coeff i b * M_a.coeff j b = _
      rw [hgcols, sum_range, Matrix.sub_apply, Matrix.mul_apply, ← hgainMatrix, ← hMmatrix]
      rfl
    have htranspose : (gainMatrix st H_order H R m n *
          (chosenColumns st H_order st.cov.rows n * (toMatrix m n H)ᵀ)ᵀ)ᵀ =
        gainMatrix st H_order H R m n *
          (chosenColumns st H_order st.cov.rows n * (toMatrix m n H)ᵀ)ᵀ := by
      unfold gainMatrix
      rw [transpose_mul, transpose_transpose, transpose_mul, transpose_nonsing_inv, hinnovation]
      simp only [Matrix.mul_assoc]
    ext i j
    have hj : j.val < st.cov.cols := hl.square ▸ j.isLt
    have hi : i.val < st.cov.cols := hl.square ▸ i.isLt
    change (mirrorUpper _).coeff i j = _
    rw [coeff_mirrorUpper (by exact i.isLt) (by exact hj)]
    by_cases hij : i.val ≤ j.val
    · rw [if_pos hij, coeff_setUpper i.isLt hj, if_pos hij]
      exact hcoeff i j
    · have hji := Nat.le_of_not_le hij
      rw [if_neg hij, coeff_setUpper j.isLt hi, if_pos hji]
      refine (hcoeff j i).trans ?_
      rw [Matrix.sub_apply, Matrix.sub_apply]
      congr 1
      · exact hP.coeff_comm' _ _
      · exact congrFun (congrFun htranspose i) j

theorem ekfUpdate_exact (hl : Laid st) (horder : ∀ v ∈ H_order, st.Holds v) {H res R : Dense ℝ}
    (hres : res.rows = R.rows) (hR : R.Symmetric) (hrows : H.rows = res.rows)
    (hcols : H.cols = sizeOfVars H_order) :
    ekfUpdate (exactKernels llt rotate eigenvalues) st H_order H res R =
      finishUpdate (exactKernels llt rotate eigenvalues) st
        (ekfProposal (exactKernels llt rotate eigenvalues) st H_order H res R).1
        (ekfProposal (exactKernels llt rotate eigenvalues) st H_order H res R).2 := by
  unfold ekfUpdate
  have hvars : st.inRange st.vars = true := hl.inRange fun v hv => holds_of_mem hv
  have hheld := hl.inRange horder
  have hsquare := hR.square
  rw [if_neg]
  rw [hvars, hheld]
  simp only [Bool.true_eq_false, or_false]
  omega

end Proposal

end Bravo.Filter
