import Bravo.Filter.Congruence
import Bravo.Filter.ExactUpdate
import Bravo.Shadow.ReducersAgree

/-! # The compression of measurements

`measurement_compress_inplace` turns a tall system upper triangular by rotations of neighbouring rows
and keeps as many rows as there are columns. The rotations are one orthogonal transform, and the rows
dropped are zero, so the products `H^T H` and `H^T r` stay (`compress_products`); with isotropic noise
an update depends on nothing else of a system (`measurementCompressInplace_preserves_update`).
-/

namespace Bravo.Filter

open Bravo.Linear Bravo.Elimination Bravo.Shadow.Exact Matrix Dense

/-! ## The loops -/

structure Stacked (m n : Nat) where
  H_x : Matrix (Fin m) (Fin n) ℝ
  res : Fin m → ℝ

section Loops

variable (makeGivens : MakeGivens) {m n : Nat}

def compressStep (column : Fin n) (row : Nat) (work : Stacked m n) : Stacked m n :=
  if h : row + 1 < m then
    let i : Fin m := ⟨row, Nat.lt_of_succ_lt h⟩
    let j : Fin m := ⟨row + 1, h⟩
    let G := makeGivens (work.H_x i column) (work.H_x j column)
    { H_x := rotateTrailing column.val i j G.1 G.2 work.H_x
      res := rotateVector i j G.1 G.2 work.res }
  else work

/-- The inner loop from row `row` down to the row behind the diagonal. -/
def compressColumn (column : Fin n) : Nat → Stacked m n → Stacked m n
  | 0, work => work
  | row + 1, work =>
    if column.val < row + 1 then
      compressColumn column row (compressStep makeGivens column row work)
    else work

/-- The outer loop over the first `count` columns. -/
def compressLoops : Nat → Stacked m n → Stacked m n
  | 0, work => work
  | count + 1, work =>
    if h : count < n then
      compressColumn makeGivens ⟨count, h⟩ (m - 1) (compressLoops count work)
    else compressLoops count work

/-- `conservativeResize` to the first `r` rows. -/
def Stacked.topRows (r : Nat) (h : r ≤ m) (work : Stacked m n) : Stacked r n where
  H_x i l := work.H_x (Fin.castLE h i) l
  res i := work.res (Fin.castLE h i)

/-- `UpdaterHelper::measurement_compress_inplace`; a fat system is returned as it is. -/
def measurementCompressInplace (stacked : Stacked m n) : Stacked (min m n) n :=
  Stacked.topRows (min m n) (Nat.min_le_left m n)
    (if m ≤ n then stacked else compressLoops makeGivens n stacked)

end Loops

/-! ## The loops are one orthogonal transform -/

def Stacked.TransformOf {m n : Nat} (raw work : Stacked m n) : Prop :=
  ∃ Q : Matrix (Fin m) (Fin m) ℝ, Qᵀ * Q = 1 ∧ work.H_x = Q * raw.H_x ∧ work.res = Q *ᵥ raw.res

/-- The columns in front of `column` are upper triangular. -/
def Stacked.UpperBefore {m n : Nat} (column : Nat) (work : Stacked m n) : Prop :=
  ∀ (k : Fin m) (l : Fin n), l.val < column → l.val < k.val → work.H_x k l = 0

section Spec

variable {makeGivens : MakeGivens} (hgivens : ∀ p q, IsGivens (makeGivens p q) p q)
variable {m n : Nat} {raw work : Stacked m n}

include hgivens

theorem compressStep_spec {column : Fin n} {row : Nat} (hrow : row + 1 < m)
    (hbefore : column.val ≤ row) (htransform : raw.TransformOf work)
    (hupper : work.UpperBefore column.val) :
    let work' := compressStep makeGivens column row work
    raw.TransformOf work' ∧ work'.UpperBefore column.val ∧
      work'.H_x ⟨row + 1, hrow⟩ column = 0 ∧
      ∀ (k : Fin m), row + 1 < k.val → work'.H_x k column = work.H_x k column := by
  obtain ⟨Q, horthogonal, hx, hres⟩ := htransform
  set i : Fin m := ⟨row, Nat.lt_of_succ_lt hrow⟩ with hi
  set j : Fin m := ⟨row + 1, hrow⟩ with hj
  set G := makeGivens (work.H_x i column) (work.H_x j column) with hG
  have hgiven : IsGivens G (work.H_x i column) (work.H_x j column) := hgivens _ _
  have hne : i ≠ j := fun heq => by simpa [hi, hj] using congrArg Fin.val heq
  obtain ⟨hfull, hrotated⟩ := ZeroBelow.rotate hupper rfl rfl hbefore hgiven
  have hstep : compressStep makeGivens column row work =
      { H_x := rotateRows i j G.1 G.2 work.H_x, res := rotateVector i j G.1 G.2 work.res } := by
    rw [compressStep, dif_pos hrow, ← hfull]
  rw [hstep]
  refine ⟨⟨rotation i j G.1 G.2 * Q, ?_, ?_, ?_⟩, hrotated⟩
  · rw [transpose_mul_of_orthogonal (rotation_orthogonal hne hgiven.unit), horthogonal]
  · show rotateRows i j G.1 G.2 work.H_x = _
    rw [rotateRows_eq_mul, hx, Matrix.mul_assoc]
  · show rotateVector i j G.1 G.2 work.res = _
    rw [rotateVector_eq_mulVec, hres, Matrix.mulVec_mulVec]

theorem compressColumn_spec (column : Fin n) {row : Nat} (hrow : row < m) (htransform : raw.TransformOf work)
    (hupper : work.UpperBefore column.val)
    (hcleared : ∀ k : Fin m, row < k.val → column.val < k.val → work.H_x k column = 0) :
    let work' := compressColumn makeGivens column row work
    raw.TransformOf work' ∧ work'.UpperBefore (column.val + 1) :=
  column_spec (fun _ => rfl) (fun _ _ => rfl) (compressStep_spec hgivens) hrow htransform hupper hcleared

theorem compressLoops_spec (hm : 0 < m) (raw : Stacked m n) :
    ∀ count ≤ n, let work := compressLoops makeGivens count raw
      raw.TransformOf work ∧ work.UpperBefore count := by
  intro count
  induction count with
  | zero =>
    intro _
    exact ⟨⟨1, by simp, by simp [compressLoops], by simp [compressLoops]⟩,
      fun _ _ h => absurd h (Nat.not_lt_zero _)⟩
  | succ count ih =>
    intro hcount
    obtain ⟨htransform, hupper⟩ := ih (Nat.le_of_succ_le hcount)
    rw [compressLoops, dif_pos (Nat.lt_of_succ_le hcount)]
    refine compressColumn_spec hgivens ⟨count, hcount⟩ (Nat.sub_lt hm Nat.one_pos) htransform
      hupper fun k hk _ => ?_
    have := k.isLt
    omega

omit hgivens in
theorem transpose_mul_topRows {r : Nat} (h : r ≤ m) (work : Stacked m n) {l : Nat}
    (B : Matrix (Fin m) (Fin l) ℝ) (hzero : ∀ k : Fin m, r ≤ k.val → ∀ c, work.H_x k c = 0) :
    (work.topRows r h).H_xᵀ * B.submatrix (Fin.castLE h) id = work.H_xᵀ * B := by
  obtain ⟨dropped, rfl⟩ := Nat.exists_eq_add_of_le h
  ext c d
  rw [Matrix.mul_apply, Matrix.mul_apply, Fin.sum_univ_add]
  have htail : ∑ k : Fin dropped, work.H_xᵀ c (Fin.natAdd r k) * B (Fin.natAdd r k) d = 0 := by
    refine Finset.sum_eq_zero fun k _ => ?_
    rw [Matrix.transpose_apply, hzero (Fin.natAdd r k) (Nat.le_add_right r k) c, zero_mul]
  rw [htail, add_zero]
  rfl

/-- **The products of the columns and the residual stay.** -/
theorem compress_products (raw : Stacked m n) :
    let compressed := measurementCompressInplace makeGivens raw
    compressed.H_xᵀ * compressed.H_x = raw.H_xᵀ * raw.H_x ∧
      compressed.H_xᵀ * column compressed.res = raw.H_xᵀ * column raw.res := by
  intro compressed
  by_cases hfat : m ≤ n
  · have hzero : ∀ k : Fin m, min m n ≤ k.val → ∀ c, raw.H_x k c = 0 := fun k hk => by
      have := k.isLt
      omega
    have hcompressed : compressed = raw.topRows (min m n) (Nat.min_le_left m n) := by
      change measurementCompressInplace makeGivens raw = _
      rw [measurementCompressInplace, if_pos hfat]
    rw [hcompressed]
    exact ⟨transpose_mul_topRows _ raw raw.H_x hzero,
      transpose_mul_topRows _ raw (column raw.res) hzero⟩
  · have hm : 0 < m := Nat.lt_of_le_of_lt (Nat.zero_le n) (Nat.lt_of_not_le hfat)
    obtain ⟨⟨Q, horthogonal, hx, hres⟩, hupper⟩ := compressLoops_spec hgivens hm raw n (le_refl n)
    set work := compressLoops makeGivens n raw with hwork
    have hzero : ∀ k : Fin m, min m n ≤ k.val → ∀ c, work.H_x k c = 0 := fun k hk c =>
      hupper k c c.isLt (by have := c.isLt; omega)
    have hcompressed : compressed = work.topRows (min m n) (Nat.min_le_left m n) := by
      change measurementCompressInplace makeGivens raw = _
      rw [measurementCompressInplace, if_neg hfat]
    have hcolumn : column work.res = Q * column raw.res := by
      ext k d
      change work.res k = _
      rw [hres]
      rfl
    rw [hcompressed]
    constructor
    · refine (transpose_mul_topRows _ work work.H_x hzero).trans ?_
      rw [hx]
      exact transpose_mul_of_orthogonal horthogonal raw.H_x raw.H_x
    · refine (transpose_mul_topRows _ work (column work.res) hzero).trans ?_
      rw [hx, hcolumn]
      exact transpose_mul_of_orthogonal horthogonal raw.H_x (column raw.res)

end Spec

/-! ## The update is preserved -/

section Update

variable {llt : Dense ℝ → LLT ℝ} {rotate : List ℝ → List ℝ → List ℝ}
  {eigenvalues : Dense ℝ → Option (ℝ × ℝ)} {st : State ℝ} {H_order : List Var} {m n : Nat}

theorem posSemidef_chosenBlock (hl : Laid st) (horder : ∀ v ∈ H_order, st.Holds v)
    (hn : n = sizeOfVars H_order)
    (hprior : (Dense.toMatrix st.cov.rows st.cov.rows st.cov).PosSemidef) :
    (chosenBlock st H_order n).PosSemidef :=
  hprior.submatrix fun c : Fin n => ⟨st.pos H_order c, hl.pos_lt horder (hn ▸ c.isLt)⟩

theorem innovationMatrix_isotropic (H : Matrix (Fin m) (Fin n) ℝ) (noise : ℝ) :
    innovationMatrix st H_order (Dense.ofMatrix H) (Dense.scaledIdentity m noise) m n =
      H * chosenBlock st H_order n * Hᵀ + noise • 1 := by
  rw [innovationMatrix, toMatrix_ofMatrix, toMatrix_scaledIdentity]

theorem posDef_innovationMatrix (hblock : (chosenBlock st H_order n).PosSemidef)
    (H : Matrix (Fin m) (Fin n) ℝ) {noise : ℝ} (hnoise : 0 < noise) :
    (innovationMatrix st H_order (Dense.ofMatrix H) (Dense.scaledIdentity m noise) m n).PosDef := by
  rw [innovationMatrix_isotropic]
  exact PosDef.posSemidef_add (posSemidef_congruence H hblock) (PosDef.one.smul hnoise)

theorem ekfProposal_eq_of_products (hl : Laid st) (hP : st.cov.Symmetric)
    (hprior : (Dense.toMatrix st.cov.rows st.cov.rows st.cov).PosSemidef) (hllt : Solves llt)
    (horder : ∀ v ∈ H_order, st.Holds v) (hn : n = sizeOfVars H_order) {noise : ℝ}
    (hnoise : 0 < noise) {m' : Nat} (s : Stacked m n) (s' : Stacked m' n)
    (hgram : s'.H_xᵀ * s'.H_x = s.H_xᵀ * s.H_x)
    (hres : s'.H_xᵀ * column s'.res = s.H_xᵀ * column s.res) :
    ekfProposal (exactKernels llt rotate eigenvalues) st H_order (Dense.ofMatrix s'.H_x)
        (Dense.ofMatrix (column s'.res)) (Dense.scaledIdentity m' noise) =
      ekfProposal (exactKernels llt rotate eigenvalues) st H_order (Dense.ofMatrix s.H_x)
        (Dense.ofMatrix (column s.res)) (Dense.scaledIdentity m noise) := by
  have hblock := posSemidef_chosenBlock hl horder hn hprior
  -- What an update reads of a system: its Jacobian weighted by the innovation.
  have hweighted : ∀ {m l : Nat} (s : Stacked m n) (B : Matrix (Fin m) (Fin l) ℝ),
      s.H_xᵀ * (innovationMatrix st H_order (ofMatrix s.H_x) (scaledIdentity m noise) m
          n)⁻¹ * B =
        noise⁻¹ • (s.H_xᵀ * B - s.H_xᵀ * s.H_x * (noise⁻¹ • chosenBlock st H_order n *
          (1 + s.H_xᵀ * s.H_x * (noise⁻¹ • chosenBlock st H_order n))⁻¹) * (s.H_xᵀ * B)) := by
    intro m l s B
    have hpd := posDef_innovationMatrix hblock s.H_x hnoise
    rw [innovationMatrix_isotropic] at hpd ⊢
    exact transpose_mul_inv_mul_eq s.H_x _ B hnoise.ne' ((isUnit_iff_isUnit_det _).mp hpd.isUnit)
  have hexact : ∀ {m : Nat} (s : Stacked m n),
      let proposal := ekfProposal (exactKernels llt rotate eigenvalues) st H_order
        (ofMatrix s.H_x) (ofMatrix (column s.res)) (scaledIdentity m noise)
      (proposal.1.rows = st.cov.rows ∧ proposal.1.cols = 1) ∧
        (proposal.2.rows = st.cov.rows ∧ proposal.2.cols = st.cov.rows) ∧
        toMatrix st.cov.rows 1 proposal.1 = chosenColumns st H_order st.cov.rows n *
          (s.H_xᵀ * (innovationMatrix st H_order (ofMatrix s.H_x)
            (scaledIdentity m noise) m n)⁻¹ * column s.res) ∧
        toMatrix st.cov.rows st.cov.rows proposal.2 =
          toMatrix st.cov.rows st.cov.rows st.cov - chosenColumns st H_order st.cov.rows n *
            (s.H_xᵀ * (innovationMatrix st H_order (ofMatrix s.H_x)
              (scaledIdentity m noise) m n)⁻¹ * s.H_x) *
                (chosenColumns st H_order st.cov.rows n)ᵀ := by
    intro m s proposal
    obtain ⟨hfirst, hsecond, hdx, hcov⟩ := @ekfProposal_exact llt rotate eigenvalues st H_order hl hP
      hllt (ofMatrix s.H_x) (ofMatrix (column s.res)) (scaledIdentity m noise) m n
      rfl rfl hn rfl rfl (symmetric_scaledIdentity m noise)
      (posDef_innovationMatrix hblock s.H_x hnoise)
    refine ⟨hfirst, hsecond, ?_, ?_⟩
    · refine hdx.trans ?_
      rw [gainMatrix, toMatrix_ofMatrix, toMatrix_ofMatrix]
      simp only [Matrix.mul_assoc]
    · refine hcov.trans ?_
      rw [gainMatrix, toMatrix_ofMatrix, transpose_mul, transpose_transpose]
      simp only [Matrix.mul_assoc]
  obtain ⟨hfirst, hsecond, hdx, hcov⟩ := hexact s
  obtain ⟨hfirst', hsecond', hdx', hcov'⟩ := hexact s'
  refine Prod.ext (eq_of_toMatrix hfirst' hfirst ?_) (eq_of_toMatrix hsecond' hsecond ?_)
  · rw [hdx, hdx', hweighted s, hweighted s', hgram, hres]
  · rw [hcov, hcov', hweighted s, hweighted s', hgram]

/-- The compressed system has the products of the raw one, and updates every state as that one
does. -/
theorem measurementCompressInplace_preserves_update {makeGivens : MakeGivens}
    (hgivens : ∀ p q, IsGivens (makeGivens p q) p q) (hllt : Solves llt) (raw : Stacked m n) :
    let compressed := measurementCompressInplace makeGivens raw
    (compressed.H_xᵀ * compressed.H_x = raw.H_xᵀ * raw.H_x ∧
      compressed.H_xᵀ * column compressed.res = raw.H_xᵀ * column raw.res) ∧
    ∀ (st : State ℝ) (H_order : List Var) (noise : ℝ), Laid st → st.cov.Symmetric →
      (Dense.toMatrix st.cov.rows st.cov.rows st.cov).PosSemidef →
      (∀ v ∈ H_order, st.Holds v) → n = sizeOfVars H_order → 0 < noise →
      ekfProposal (exactKernels llt rotate eigenvalues) st H_order (Dense.ofMatrix compressed.H_x)
          (Dense.ofMatrix (column compressed.res)) (Dense.scaledIdentity (min m n) noise) =
        ekfProposal (exactKernels llt rotate eigenvalues) st H_order (Dense.ofMatrix raw.H_x)
          (Dense.ofMatrix (column raw.res)) (Dense.scaledIdentity m noise) ∧
      ekfUpdate (exactKernels llt rotate eigenvalues) st H_order (Dense.ofMatrix compressed.H_x)
          (Dense.ofMatrix (column compressed.res)) (Dense.scaledIdentity (min m n) noise) =
        ekfUpdate (exactKernels llt rotate eigenvalues) st H_order (Dense.ofMatrix raw.H_x)
          (Dense.ofMatrix (column raw.res)) (Dense.scaledIdentity m noise) := by
  intro compressed
  have hproducts := compress_products hgivens raw
  refine ⟨hproducts, fun st H_order noise hl hP hprior horder hn hnoise => ?_⟩
  have hproposal := @ekfProposal_eq_of_products llt rotate eigenvalues st H_order m n hl hP hprior
    hllt horder hn noise hnoise (min m n) raw compressed hproducts.1 hproducts.2
  have hguards : ∀ {m : Nat} (s : Stacked m n),
      ekfUpdate (exactKernels llt rotate eigenvalues) st H_order (ofMatrix s.H_x)
          (ofMatrix (column s.res)) (scaledIdentity m noise) =
        finishUpdate (exactKernels llt rotate eigenvalues) st
          (ekfProposal (exactKernels llt rotate eigenvalues) st H_order (ofMatrix s.H_x)
            (ofMatrix (column s.res)) (scaledIdentity m noise)).1
          (ekfProposal (exactKernels llt rotate eigenvalues) st H_order (ofMatrix s.H_x)
            (ofMatrix (column s.res)) (scaledIdentity m noise)).2 := fun s =>
    ekfUpdate_exact hl horder rfl (symmetric_scaledIdentity _ noise) rfl hn
  refine ⟨hproposal, ?_⟩
  rw [hguards compressed, hguards raw, hproposal]

noncomputable def inverseFactorization (U : Dense ℝ) : LLT ℝ where
  success := true
  solve _ := Dense.ofMatrix (Dense.toMatrix U.rows U.rows U.mirrorUpper)⁻¹

theorem solves_inverseFactorization : Solves inverseFactorization := by
  intro m U hrows _ _
  subst hrows
  exact ⟨rfl, rfl, rfl, toMatrix_ofMatrix _⟩

def plainOptions : StateOptions :=
  ⟨.kalibr, false, false, false, false, false, 1, 11, 1024⟩

theorem posSemidef_construct_plain :
    (Dense.toMatrix (State.construct (K := ℝ) plainOptions).cov.rows
      (State.construct (K := ℝ) plainOptions).cov.rows
      (State.construct (K := ℝ) plainOptions).cov).PosSemidef := by
  have hcov : (State.construct (K := ℝ) plainOptions).cov =
      scaledIdentity (sizeOfVars (constructedVariables plainOptions)) ((1 / 1000) ^ 2) := by
    simp [State.construct, constructedCov, setPrior, plainOptions]
  rw [hcov]
  have hscale := @Dense.toMatrix_scaledIdentity ℝ _ (sizeOfVars (constructedVariables plainOptions))
    ((1 / 1000) ^ 2)
  exact hscale ▸ PosSemidef.one.smul (by positivity)

/-- Twenty observations of an IMU without calibration. -/
theorem measurementCompressInplace_preserves_update_plain :
    let raw : Stacked 20 15 := ⟨fun i j => if i.val = j.val then 1 else 2, fun _ => 3⟩
    let compressed := measurementCompressInplace planeRotation raw
    ekfUpdate (exactKernels inverseFactorization (fun _ q => q) fun _ => none)
        (State.construct plainOptions) [.imu constructedImu] (Dense.ofMatrix compressed.H_x)
        (Dense.ofMatrix (column compressed.res)) (Dense.scaledIdentity 15 1) =
      ekfUpdate (exactKernels inverseFactorization (fun _ q => q) fun _ => none)
        (State.construct plainOptions) [.imu constructedImu] (Dense.ofMatrix raw.H_x)
        (Dense.ofMatrix (column raw.res)) (Dense.scaledIdentity 20 1) := by
  intro raw compressed
  have himu : ∀ v ∈ [Var.imu constructedImu], (State.construct (K := ℝ) plainOptions).Holds v := by
    intro v hv
    rw [List.mem_singleton.mp hv]
    exact holds_of_mem (imu_mem_construct plainOptions)
  exact ((measurementCompressInplace_preserves_update isGivens_planeRotation
    solves_inverseFactorization raw).2 (State.construct plainOptions) [.imu constructedImu] 1
    (laid_construct plainOptions) (symmetric_construct plainOptions) posSemidef_construct_plain himu
    rfl one_pos).2

end Update

end Bravo.Filter
