import Bravo.Shadow.ExactReducers
import Mathlib.Algebra.Order.Star.Real
import Mathlib.Analysis.Real.Sqrt
import Mathlib.Tactic.FieldSimp

/-! # The two reducers agree

The loops of the nullspace projection apply one orthogonal transform to the whole system, although
they rotate the trailing columns of `H_f` only: what stands in front of them is already zero
(`rotateTrailing_eq`). So both reducers leave the rows behind an orthogonal elimination of `H_f`, and
their statistics are the Schur complement of its normal block (`reducers_agree`).
-/

namespace Bravo.Shadow.Exact

open Matrix Bravo.Elimination Bravo.Journal

/-! ## The loops are one orthogonal transform -/

/-- A cosine and a sine that rotate `(p, q)` to `(r, 0)`. -/
structure IsGivens (G : ℝ × ℝ) (p q : ℝ) : Prop where
  unit : G.1 * G.1 + G.2 * G.2 = 1
  annihilates : G.2 * p + G.1 * q = 0

def Transformed {m n : Nat} (raw work : RawSystem m n) : Prop :=
  ∃ Q : Matrix (Fin m) (Fin m) ℝ, Qᵀ * Q = 1 ∧ work.H_f = Q * raw.H_f ∧
    work.H_x = Q * raw.H_x ∧ work.residual = Q *ᵥ raw.residual

/-- The columns in front of `column` are upper triangular. -/
def TriangularBefore {m n : Nat} (column : Nat) (work : RawSystem m n) : Prop :=
  ∀ (k : Fin m) (l : Fin 3), l.val < column → l.val < k.val → work.H_f k l = 0

section Loops

variable {makeGivens : MakeGivens} (hgivens : ∀ p q, IsGivens (makeGivens p q) p q)
variable {m n : Nat} {raw work : RawSystem m n}

theorem rotateTrailing_eq {k column : Nat} {i j : Fin m} {c s : ℝ} {M : Matrix (Fin m) (Fin k) ℝ}
    (hi : ∀ l : Fin k, l.val < column → M i l = 0) (hj : ∀ l : Fin k, l.val < column → M j l = 0) :
    rotateTrailing column i j c s M = rotateRows i j c s M := by
  funext row l
  rw [rotateTrailing]
  by_cases hl : column ≤ l.val
  · rw [if_pos hl]
  · have hbefore : l.val < column := Nat.lt_of_not_le hl
    rw [if_neg hl, rotateRows, hi l hbefore, hj l hbefore]
    by_cases hrow : row = i
    · subst hrow
      rw [if_pos rfl, hi l hbefore]
      ring
    · by_cases hrow' : row = j
      · subst hrow'
        rw [if_neg hrow, if_pos rfl, hj l hbefore]
        ring
      · rw [if_neg hrow, if_neg hrow']

/-- The columns in front of `column` are zero below the diagonal. -/
def ZeroBelow {k : Nat} (column : Nat) (M : Matrix (Fin m) (Fin k) ℝ) : Prop :=
  ∀ (row : Fin m) (l : Fin k), l.val < column → l.val < row.val → M row l = 0

/-- A rotation of two neighbouring rows behind the diagonal: the columns in front keep their shape, the
entry below is annihilated and those further down are untouched. -/
theorem ZeroBelow.rotate {k row : Nat} {M : Matrix (Fin m) (Fin k) ℝ} {column : Fin k} {i j : Fin m} {G : ℝ × ℝ}
    (h : ZeroBelow column.val M) (hi : i.val = row) (hj : j.val = row + 1) (hbefore : column.val ≤ row)
    (hG : IsGivens G (M i column) (M j column)) :
    rotateTrailing column.val i j G.1 G.2 M = rotateRows i j G.1 G.2 M ∧
      ZeroBelow column.val (rotateRows i j G.1 G.2 M) ∧ rotateRows i j G.1 G.2 M j column = 0 ∧
      ∀ l : Fin m, row + 1 < l.val → rotateRows i j G.1 G.2 M l column = M l column := by
  have hzi : ∀ l : Fin k, l.val < column.val → M i l = 0 := fun l hl => h i l hl (by omega)
  have hzj : ∀ l : Fin k, l.val < column.val → M j l = 0 := fun l hl => h j l hl (by omega)
  refine ⟨rotateTrailing_eq hzi hzj, fun r l hl hr => ?_, ?_, fun l hl => ?_⟩
  · rw [rotateRows, hzi l hl, hzj l hl, h r l hl hr]
    split_ifs <;> ring
  · rw [rotateRows, if_neg (by omega), if_pos rfl]
    exact hG.annihilates
  · rw [rotateRows, if_neg (by omega), if_neg (by omega)]

theorem column_spec {W : Type} {k : Nat} {column : Fin k} {matrix : W → Matrix (Fin m) (Fin k) ℝ} {Keeps : W → Prop}
    {step loop : Nat → W → W} (hzero : ∀ w, loop 0 w = w)
    (hsucc : ∀ row w, loop (row + 1) w = if column.val < row + 1 then loop row (step row w) else w)
    (hstep : ∀ {row w} (hrow : row + 1 < m), column.val ≤ row → Keeps w → ZeroBelow column.val (matrix w) →
      Keeps (step row w) ∧ ZeroBelow column.val (matrix (step row w)) ∧
        matrix (step row w) ⟨row + 1, hrow⟩ column = 0 ∧
        ∀ l : Fin m, row + 1 < l.val → matrix (step row w) l column = matrix w l column)
    {row : Nat} {w : W} (hrow : row < m) (hkeeps : Keeps w) (hbefore : ZeroBelow column.val (matrix w))
    (hcleared : ∀ l : Fin m, row < l.val → column.val < l.val → matrix w l column = 0) :
    Keeps (loop row w) ∧ ZeroBelow (column.val + 1) (matrix (loop row w)) := by
  -- from the last row up, the entries from `row + 1` on are zero
  have hdone : ∀ {w}, ZeroBelow column.val (matrix w) →
      (∀ l : Fin m, column.val < l.val → matrix w l column = 0) → ZeroBelow (column.val + 1) (matrix w) := by
    intro w hbefore hcolumn r l hl hr
    rcases Nat.lt_succ_iff_lt_or_eq.mp hl with hlt | heq
    · exact hbefore r l hlt hr
    · obtain rfl : l = column := Fin.ext heq
      exact hcolumn r hr
  induction row generalizing w with
  | zero =>
    rw [hzero]
    exact ⟨hkeeps, hdone hbefore fun l hl => hcleared l (by omega) hl⟩
  | succ row ih =>
    rw [hsucc]
    by_cases hcolumn : column.val < row + 1
    · obtain ⟨hkeeps', hbefore', hnext, hkept⟩ := hstep hrow (Nat.le_of_lt_succ hcolumn) hkeeps hbefore
      rw [if_pos hcolumn]
      refine ih (Nat.lt_of_succ_lt hrow) hkeeps' hbefore' fun l hl hcl => ?_
      rcases Nat.lt_or_eq_of_le (Nat.succ_le_of_lt hl) with hlt | heq
      · rw [hkept l hlt]
        exact hcleared l hlt hcl
      · obtain rfl : l = ⟨row + 1, hrow⟩ := Fin.ext heq.symm
        exact hnext
    · rw [if_neg hcolumn]
      exact ⟨hkeeps, hdone hbefore fun l hl => hcleared l (by omega) hl⟩

include hgivens

theorem givensStep_spec {column : Fin 3} {row : Nat} (hrow : row + 1 < m)
    (hbefore : column.val ≤ row) (htransformed : Transformed raw work)
    (htriangular : TriangularBefore column.val work) :
    let work' := givensStep makeGivens column row work
    Transformed raw work' ∧ TriangularBefore column.val work' ∧
      work'.H_f ⟨row + 1, hrow⟩ column = 0 ∧
      ∀ (k : Fin m), row + 1 < k.val → work'.H_f k column = work.H_f k column := by
  obtain ⟨Q, horthogonal, hf, hx, hres⟩ := htransformed
  set i : Fin m := ⟨row, Nat.lt_of_succ_lt hrow⟩ with hi
  set j : Fin m := ⟨row + 1, hrow⟩ with hj
  set G := makeGivens (work.H_f i column) (work.H_f j column) with hG
  have hgiven : IsGivens G (work.H_f i column) (work.H_f j column) := hgivens _ _
  have hne : i ≠ j := fun heq => by simpa [hi, hj] using congrArg Fin.val heq
  obtain ⟨hfull, hrotated⟩ := ZeroBelow.rotate htriangular rfl rfl hbefore hgiven
  have hstep : givensStep makeGivens column row work =
      { H_f := rotateRows i j G.1 G.2 work.H_f
        H_x := rotateRows i j G.1 G.2 work.H_x
        residual := rotateVector i j G.1 G.2 work.residual } := by
    rw [givensStep, dif_pos hrow, ← hfull]
  rw [hstep]
  refine ⟨⟨rotation i j G.1 G.2 * Q, ?_, ?_, ?_, ?_⟩, hrotated⟩
  · rw [transpose_mul_of_orthogonal (rotation_orthogonal hne hgiven.unit), horthogonal]
  · show rotateRows i j G.1 G.2 work.H_f = _
    rw [rotateRows_eq_mul, hf, Matrix.mul_assoc]
  · show rotateRows i j G.1 G.2 work.H_x = _
    rw [rotateRows_eq_mul, hx, Matrix.mul_assoc]
  · show rotateVector i j G.1 G.2 work.residual = _
    rw [rotateVector_eq_mulVec, hres, mulVec_mulVec]

theorem givensColumn_spec (column : Fin 3) {row : Nat} (hrow : row < m) (htransformed : Transformed raw work)
    (htriangular : TriangularBefore column.val work)
    (hcleared : ∀ k : Fin m, row < k.val → column.val < k.val → work.H_f k column = 0) :
    let work' := givensColumn makeGivens column row work
    Transformed raw work' ∧ TriangularBefore (column.val + 1) work' :=
  column_spec (fun _ => rfl) (fun _ _ => rfl) (givensStep_spec hgivens) hrow htransformed htriangular hcleared

/-- **The loops are one orthogonal transform that makes `H_f` upper triangular.** -/
theorem givensLoops_spec (hm : 0 < m) (raw : RawSystem m n) :
    let work := givensLoops makeGivens raw
    Transformed raw work ∧ TriangularBefore 3 work := by
  have hrow : m - 1 < m := Nat.sub_lt hm Nat.one_pos
  have hlast : ∀ (work : RawSystem m n) (column : Fin 3) (k : Fin m), m - 1 < k.val →
      column.val < k.val → work.H_f k column = 0 := fun _ _ k hk _ => by
    have := k.isLt
    omega
  have hstart : Transformed raw raw := ⟨1, by simp, by simp, by simp, by simp⟩
  have htriangular : TriangularBefore 0 raw := fun _ _ h => absurd h (Nat.not_lt_zero _)
  obtain ⟨h₀, t₀⟩ := givensColumn_spec hgivens 0 hrow hstart htriangular (hlast raw 0)
  obtain ⟨h₁, t₁⟩ := givensColumn_spec hgivens 1 hrow h₀ t₀ (hlast _ 1)
  exact givensColumn_spec hgivens 2 hrow h₁ t₁ (hlast _ 2)

end Loops

/-! ## The statistics -/

/-- The Schur complement of `B^T B` in the normal equations of `[A B | b]`. -/
noncomputable def schurComplement {m n : Nat} (A : Matrix (Fin m) (Fin n) ℝ)
    (B : Matrix (Fin m) (Fin 3) ℝ) (b : Fin m → ℝ) : Statistics n where
  lambda := Aᵀ * A - Aᵀ * B * (Bᵀ * B)⁻¹ * (Bᵀ * A)
  eta := Aᵀ *ᵥ b - (Aᵀ * B * (Bᵀ * B)⁻¹) *ᵥ (Bᵀ *ᵥ b)
  gamma := b ⬝ᵥ b - (Bᵀ *ᵥ b) ⬝ᵥ ((Bᵀ * B)⁻¹ *ᵥ (Bᵀ *ᵥ b))

section Statistics

variable {m n : Nat}

def rowsEquiv (hm : 3 < m) : Fin 3 ⊕ Fin (m - 3) ≃ Fin m :=
  finSumFinEquiv.trans (finCongr (by omega))

theorem lower_eq_bottomRows (hm : 3 < m) {k : Nat} (M : Matrix (Fin m) (Fin k) ℝ) :
    lower (rowsEquiv hm) M = bottomRows M := by
  ext i j
  have hrow : rowsEquiv hm (Sum.inr i) = ⟨i.val + 3, by omega⟩ := Fin.ext (Nat.add_comm 3 i.val)
  show M (rowsEquiv hm (Sum.inr i)) j = _
  rw [hrow]
  rfl

theorem symmetrized_gram {k : Nat} (A : Matrix (Fin k) (Fin n) ℝ) :
    symmetrized (Aᵀ * A) = Aᵀ * A := by
  rw [symmetrized, transpose_mul, transpose_transpose, ← two_smul ℝ (Aᵀ * A),
    smul_smul]
  norm_num

def column {k : Nat} (v : Fin k → ℝ) : Matrix (Fin k) (Fin 1) ℝ := fun i _ => v i

/-- **The rows behind an orthogonal elimination of `B` have the statistics of the Schur
complement**, whichever the transform is. -/
theorem statisticsOf_bottomRows (hm : 3 < m) {Q : Matrix (Fin m) (Fin m) ℝ} (hQ : Qᵀ * Q = 1)
    {B : Matrix (Fin m) (Fin 3) ℝ} (hB : bottomRows (Q * B) = 0)
    (hinj : Function.Injective B.mulVec) (A : Matrix (Fin m) (Fin n) ℝ) (b : Fin m → ℝ) :
    statisticsOf (bottomRows (Q * A)) (bottomVector (Q *ᵥ b)) = schurComplement A B b := by
  have hlower : lower (rowsEquiv hm) (Q * B) = 0 := (lower_eq_bottomRows hm _).trans hB
  have hunit := isUnit_upper hQ hlower hinj
  have hproduct : ∀ {k l : Nat} (X : Matrix (Fin m) (Fin k) ℝ) (Y : Matrix (Fin m) (Fin l) ℝ),
      (bottomRows (Q * X))ᵀ * bottomRows (Q * Y) = Xᵀ * Y - Xᵀ * B * (Bᵀ * B)⁻¹ * (Bᵀ * Y) := by
    intro k l X Y
    rw [← lower_eq_bottomRows hm, ← lower_eq_bottomRows hm]
    exact lower_mul_eq hQ hlower hunit X Y
  ext1
  · show symmetrized ((bottomRows (Q * A))ᵀ * bottomRows (Q * A)) = _
    rw [symmetrized_gram, hproduct]
    rfl
  · funext i
    exact congrFun (congrFun (hproduct A (column b)) i) 0
  · have htranspose : (column b)ᵀ * B = (Bᵀ * column b)ᵀ := by
      rw [transpose_mul, transpose_transpose]
    have hgamma := congrFun (congrFun (hproduct (column b) (column b)) 0) 0
    rw [htranspose, Matrix.mul_assoc] at hgamma
    exact hgamma

theorem whitenMatrix_eq_smul {k l : Nat} (M : Matrix (Fin k) (Fin l) ℝ) (sigma : ℝ) :
    whitenMatrix M sigma = sigma⁻¹ • M := by
  ext i j
  show M i j / sigma = sigma⁻¹ * M i j
  rw [div_eq_inv_mul]

theorem whitenVector_eq_smul {k : Nat} (v : Fin k → ℝ) (sigma : ℝ) :
    whitenVector v sigma = sigma⁻¹ • v := by
  funext i
  show v i / sigma = sigma⁻¹ * v i
  rw [div_eq_inv_mul]

theorem whitenMatrix_bottomRows (Q : Matrix (Fin m) (Fin m) ℝ) {k : Nat}
    (M : Matrix (Fin m) (Fin k) ℝ) (sigma : ℝ) :
    whitenMatrix (bottomRows (Q * M)) sigma = bottomRows (Q * whitenMatrix M sigma) := by
  rw [whitenMatrix_eq_smul, whitenMatrix_eq_smul, Matrix.mul_smul]
  rfl

theorem whitenVector_bottomVector (Q : Matrix (Fin m) (Fin m) ℝ) (v : Fin m → ℝ) (sigma : ℝ) :
    whitenVector (bottomVector (Q *ᵥ v)) sigma = bottomVector (Q *ᵥ whitenVector v sigma) := by
  rw [whitenVector_eq_smul, whitenVector_eq_smul, mulVec_smul]
  rfl

theorem whitenMatrix_injective {k l : Nat} {M : Matrix (Fin k) (Fin l) ℝ} {sigma : ℝ}
    (hsigma : 0 < sigma) (h : Function.Injective M.mulVec) :
    Function.Injective (whitenMatrix M sigma).mulVec := by
  intro v w hvw
  rw [whitenMatrix_eq_smul] at hvw
  apply h
  have hboth : sigma⁻¹ • (M *ᵥ v) = sigma⁻¹ • (M *ᵥ w) := by
    rw [← smul_mulVec, ← smul_mulVec]
    exact hvw
  exact smul_right_injective _ (inv_ne_zero hsigma.ne') hboth

end Statistics

/-! ## The innovation -/

section Innovation

variable {q n N : Nat}

/-- The normalized innovation squared by the statistics of the whitened system. -/
noncomputable def nisOf (s : Statistics n) (P : Matrix (Fin n) (Fin n) ℝ) : ℝ :=
  s.gamma - s.eta ⬝ᵥ ((P * (1 + s.lambda * P)⁻¹) *ᵥ s.eta)

theorem isUnit_innovation (A : Matrix (Fin q) (Fin n) ℝ) {P : Matrix (Fin n) (Fin n) ℝ}
    (hP : P.PosSemidef) : IsUnit (1 + A * P * Aᵀ).det := by
  have hsemidef : (A * P * Aᵀ).PosSemidef := by
    have := hP.mul_mul_conjTranspose_same A
    rwa [conjTranspose_eq_transpose_of_trivial] at this
  exact (isUnit_iff_isUnit_det _).mp (PosDef.one.add_posSemidef hsemidef).isUnit

/-- **The statistic of the gate depends on the whitened statistics only.** -/
theorem chi2_eq_nisOf {A : Matrix (Fin q) (Fin n) ℝ} {b : Fin q → ℝ} {sigma : ℝ}
    (hsigma : 0 < sigma) {prior : Matrix (Fin N) (Fin N) ℝ} (hprior : prior.PosSemidef)
    (columns : Fin n → Fin N) :
    chi2 ⟨sigma • A, sigma • b⟩ prior columns (sigma * sigma) =
      nisOf (statisticsOf A b) (prior.submatrix columns columns) := by
  set P := prior.submatrix columns columns with hPdef
  have hunit := isUnit_innovation A (hprior.submatrix columns)
  have hinnovation : innovation ⟨sigma • A, sigma • b⟩ prior columns (sigma * sigma) =
      (sigma * sigma) • (1 + A * P * Aᵀ) := by
    rw [innovation, Matrix.transpose_smul, Matrix.smul_mul, Matrix.smul_mul, Matrix.mul_smul,
      smul_smul, smul_add, add_comm]
  have hne : sigma * sigma ≠ 0 := mul_ne_zero hsigma.ne' hsigma.ne'
  have hinverse : ((sigma * sigma) • (1 + A * P * Aᵀ))⁻¹ =
      (sigma * sigma)⁻¹ • (1 + A * P * Aᵀ)⁻¹ := by
    refine inv_eq_right_inv ?_
    rw [Matrix.smul_mul, Matrix.mul_smul, smul_smul, mul_inv_cancel₀ hne, one_smul,
      mul_nonsing_inv _ hunit]
  rw [chi2, hinnovation, hinverse]
  show (sigma • b) ⬝ᵥ (((sigma * sigma)⁻¹ • (1 + A * P * Aᵀ)⁻¹) *ᵥ (sigma • b)) = _
  rw [smul_mulVec, mulVec_smul, smul_dotProduct, dotProduct_smul, dotProduct_smul,
    dotProduct_inv_mulVec A P b hunit, nisOf]
  show sigma • (sigma * sigma)⁻¹ • sigma • _ = _ - _ ⬝ᵥ ((P * (1 + symmetrized (Aᵀ * A) * P)⁻¹) *ᵥ _)
  rw [symmetrized_gram, smul_smul, smul_smul]
  have hone : sigma * (sigma * sigma)⁻¹ * sigma = 1 := by field_simp
  rw [hone, one_smul]
  rfl

end Innovation

/-! ## Agreement -/

/-- The factor of a QR decomposition of `B`: orthogonal, and `Q^T B` is upper triangular. -/
structure IsQR {m : Nat} (Q : Matrix (Fin m) (Fin m) ℝ) (B : Matrix (Fin m) (Fin 3) ℝ) : Prop where
  orthogonal : Qᵀ * Q = 1
  triangular : ∀ (k : Fin m) (l : Fin 3), l.val < k.val → (Qᵀ * B) k l = 0

section Agreement

variable {m n : Nat} {raw : RawSystem m n} {sigmaPx : ℝ}

theorem reduceNullspace_spec {makeGivens : MakeGivens}
    (hgivens : ∀ p q, IsGivens (makeGivens p q) p q) (hm : 3 < m) (hrank : raw.H_f.rank = 3)
    (hsigma : 0 < sigmaPx) :
    ∃ nullspace A b, reduceNullspace makeGivens raw sigmaPx = some nullspace ∧
      nullspace.toReducedSystem = ⟨sigmaPx • A, sigmaPx • b⟩ ∧
      nullspace.statistics = statisticsOf A b ∧
      statisticsOf A b = schurComplement (whitenMatrix raw.H_x sigmaPx)
        (whitenMatrix raw.H_f sigmaPx) (whitenVector raw.residual sigmaPx) := by
  obtain ⟨⟨Q, horthogonal, hf, hx, hres⟩, htriangular⟩ :=
    givensLoops_spec hgivens (Nat.lt_trans (by decide) hm) raw
  have hinj := whitenMatrix_injective hsigma
    (mulVec_injective_of_rank (hrank.trans (Fintype.card_fin 3).symm))
  have hzero : bottomRows (Q * raw.H_f) = 0 := by
    rw [← hf]
    ext i l
    exact htriangular _ l (by omega) (by show l.val < i.val + 3; omega)
  have hwhitened : bottomRows (Q * whitenMatrix raw.H_f sigmaPx) = 0 := by
    rw [← whitenMatrix_bottomRows, hzero, whitenMatrix_eq_smul, smul_zero]
  have hunwhiten : ∀ {k l : Nat} (M : Matrix (Fin k) (Fin l) ℝ),
      sigmaPx • whitenMatrix M sigmaPx = M := fun M => by
    rw [whitenMatrix_eq_smul, smul_smul, mul_inv_cancel₀ hsigma.ne', one_smul]
  have hunwhitenVector : ∀ {k : Nat} (v : Fin k → ℝ),
      sigmaPx • whitenVector v sigmaPx = v := fun v => by
    rw [whitenVector_eq_smul, smul_smul, mul_inv_cancel₀ hsigma.ne', one_smul]
  refine ⟨{
      toReducedSystem := nullspaceProjectInplace makeGivens raw
      statistics := statisticsOf (whitenMatrix (bottomRows (givensLoops makeGivens raw).H_x) sigmaPx)
        (whitenVector (bottomVector (givensLoops makeGivens raw).residual) sigmaPx) },
    whitenMatrix (bottomRows (givensLoops makeGivens raw).H_x) sigmaPx,
    whitenVector (bottomVector (givensLoops makeGivens raw).residual) sigmaPx, ?_, ?_, rfl, ?_⟩
  · rw [reduceNullspace, if_neg (Nat.not_le.mpr hm)]
    rfl
  · rw [hunwhiten, hunwhitenVector]
    rfl
  · rw [hx, hres, whitenMatrix_bottomRows, whitenVector_bottomVector]
    exact statisticsOf_bottomRows hm horthogonal hwhitened hinj _ _

theorem leftColumns_mul (Q : Matrix (Fin m) (Fin m) ℝ) (A : Matrix (Fin m) (Fin n) ℝ)
    (b : Fin m → ℝ) :
    leftColumns (bottomRows (Q * augmentedSystem A b)) = bottomRows (Q * A) ∧
      lastColumn (bottomRows (Q * augmentedSystem A b)) = bottomVector (Q *ᵥ b) := by
  constructor
  · ext i j
    show (Q * augmentedSystem A b) _ j.castSucc = (Q * A) _ j
    rw [mul_apply, mul_apply]
    refine Finset.sum_congr rfl fun k _ => ?_
    rw [augmentedSystem, dif_pos (by exact j.isLt)]
    rfl
  · funext i
    show (Q * augmentedSystem A b) _ (Fin.last n) = _
    rw [mul_apply]
    refine Finset.sum_congr rfl fun k _ => ?_
    rw [augmentedSystem, dif_neg (by simp)]

theorem schurReduce_spec {F : Factorizations m} (hm : 3 < m) (hrank : raw.H_f.rank = 3)
    (hsigma : 0 < sigmaPx)
    (hqr : IsQR (F.householderQ (whitenMatrix raw.H_f sigmaPx)) (whitenMatrix raw.H_f sigmaPx))
    {schur : Reduction (m - 3) n} (hschur : schurReduce F raw sigmaPx = .ok schur) :
    ∃ A b, schur.toReducedSystem = ⟨sigmaPx • A, sigmaPx • b⟩ ∧
      schur.statistics = statisticsOf A b ∧
      statisticsOf A b = schurComplement (whitenMatrix raw.H_x sigmaPx)
        (whitenMatrix raw.H_f sigmaPx) (whitenVector raw.residual sigmaPx) := by
  have hinj := whitenMatrix_injective hsigma
    (mulVec_injective_of_rank (hrank.trans (Fintype.card_fin 3).symm))
  have horthogonal := mul_eq_one_comm.mp hqr.orthogonal
  have hQ : ((F.householderQ (whitenMatrix raw.H_f sigmaPx))ᵀ)ᵀ *
      (F.householderQ (whitenMatrix raw.H_f sigmaPx))ᵀ = 1 := by
    rw [transpose_transpose]
    exact horthogonal
  have hzero : bottomRows ((F.householderQ (whitenMatrix raw.H_f sigmaPx))ᵀ *
      whitenMatrix raw.H_f sigmaPx) = 0 := by
    ext i l
    exact hqr.triangular _ l (by show l.val < i.val + 3; omega)
  unfold schurReduce at hschur
  dsimp only at hschur
  split_ifs at hschur
  obtain rfl := Except.ok.inj hschur
  obtain ⟨hleft, hlast⟩ := leftColumns_mul (F.householderQ (whitenMatrix raw.H_f sigmaPx))ᵀ
    (whitenMatrix raw.H_x sigmaPx) (whitenVector raw.residual sigmaPx)
  refine ⟨_, _, rfl, rfl, ?_⟩
  rw [hleft, hlast]
  exact statisticsOf_bottomRows hm hQ hzero hinj _ _

/-- **Schur elimination agrees with the nullspace projection.** Both emit the Schur complement of
the normal block of `H_f`, and for every prior both gates see the same statistic and decide alike. -/
theorem reducers_agree {makeGivens : MakeGivens}
    (hgivens : ∀ p q, IsGivens (makeGivens p q) p q) {F : Factorizations m} (hm : 3 < m)
    (hrank : raw.H_f.rank = 3) (hsigma : 0 < sigmaPx)
    (hqr : IsQR (F.householderQ (whitenMatrix raw.H_f sigmaPx)) (whitenMatrix raw.H_f sigmaPx))
    {schur : Reduction (m - 3) n} (hschur : schurReduce F raw sigmaPx = .ok schur) :
    ∃ nullspace, reduceNullspace makeGivens raw sigmaPx = some nullspace ∧
      schur.statistics = schurComplement (whitenMatrix raw.H_x sigmaPx)
        (whitenMatrix raw.H_f sigmaPx) (whitenVector raw.residual sigmaPx) ∧
      nullspace.statistics = schur.statistics ∧
      ∀ {N : Nat} (prior : Matrix (Fin N) (Fin N) ℝ), prior.PosSemidef →
        ∀ columns : Fin n → Fin N,
          chi2 nullspace.toReducedSystem prior columns (sigmaPx * sigmaPx) =
            chi2 schur.toReducedSystem prior columns (sigmaPx * sigmaPx) ∧
          ∀ thresholds, lifecycleAccept thresholds nullspace.toReducedSystem prior columns
              (sigmaPx * sigmaPx) =
            lifecycleAccept thresholds schur.toReducedSystem prior columns (sigmaPx * sigmaPx) := by
  obtain ⟨nullspace, A, b, hnullspace, hsystem, hstatistics, hcomplement⟩ :=
    reduceNullspace_spec hgivens hm hrank hsigma
  obtain ⟨A', b', hsystem', hstatistics', hcomplement'⟩ :=
    schurReduce_spec hm hrank hsigma hqr hschur
  have hsame : statisticsOf A b = statisticsOf A' b' := hcomplement.trans hcomplement'.symm
  refine ⟨nullspace, hnullspace, hstatistics'.trans hcomplement',
    hstatistics.trans (hsame.trans hstatistics'.symm), fun prior hprior columns => ?_⟩
  have hchi2 : chi2 nullspace.toReducedSystem prior columns (sigmaPx * sigmaPx) =
      chi2 schur.toReducedSystem prior columns (sigmaPx * sigmaPx) := by
    rw [hsystem, hsystem', chi2_eq_nisOf hsigma hprior, chi2_eq_nisOf hsigma hprior, hsame]
  refine ⟨hchi2, fun thresholds => ?_⟩
  unfold lifecycleAccept
  rw [hchi2]

end Agreement

/-! ## A small system -/

/-- The rotation of `(p, q)` onto the first axis. -/
noncomputable def planeRotation : MakeGivens := fun p q =>
  if p * p + q * q = 0 then (1, 0)
  else (p / √(p * p + q * q), -(q / √(p * p + q * q)))

theorem isGivens_planeRotation (p q : ℝ) : IsGivens (planeRotation p q) p q := by
  unfold planeRotation
  have hp := mul_self_nonneg p
  have hq := mul_self_nonneg q
  split
  · rename_i hzero
    have hq0 : q = 0 := mul_self_eq_zero.mp (by linarith)
    exact ⟨by norm_num, by rw [hq0]; ring⟩
  · rename_i hne
    have hpos : 0 < p * p + q * q := lt_of_le_of_ne (by linarith) (Ne.symm hne)
    have hsqrt : √(p * p + q * q) * √(p * p + q * q) = p * p + q * q :=
      Real.mul_self_sqrt hpos.le
    have hroot : √(p * p + q * q) ≠ 0 := (Real.sqrt_pos.mpr hpos).ne'
    refine ⟨?_, by ring⟩
    show p / _ * (p / _) + -(q / _) * -(q / _) = 1
    rw [neg_mul_neg, div_mul_div_comm, div_mul_div_comm, hsqrt, ← add_div, div_self hne]

/-- Three rows determine the feature, the last one observes the state. -/
def smallSystem : RawSystem 4 1 where
  H_x i _ := if i.val = 3 then 1 else 0
  H_f i j := if i.val = j.val then 1 else 0
  residual i := if i.val = 3 then 2 else 0

def smallFactorizations : Factorizations 4 where
  singularValues _ _ := 1
  householderQ _ := 1

theorem rank_smallSystem : smallSystem.H_f.rank = 3 := by
  have hinj : Function.Injective smallSystem.H_f.mulVecLin := by
    intro v w hvw
    funext l
    have hrow : ∀ u : Fin 3 → ℝ, smallSystem.H_f.mulVecLin u l.castSucc = u l := by
      intro u
      show ∑ j, smallSystem.H_f l.castSucc j * u j = u l
      rw [Finset.sum_eq_single l]
      · simp [smallSystem]
      · intro j _ hj
        have hval : l.val ≠ j.val := fun h => hj (Fin.ext h.symm)
        simp [smallSystem, hval]
      · simp
    rw [← hrow v, ← hrow w, hvw]
  rw [rank, LinearMap.finrank_range_of_inj hinj, Module.finrank_fintype_fun_eq_card,
    Fintype.card_fin]

/-- The last row remains in both reductions, with the same statistics. -/
theorem reducers_agree_small :
    ∃ schur nullspace, schurReduce smallFactorizations smallSystem 1 = .ok schur ∧
      reduceNullspace planeRotation smallSystem 1 = some nullspace ∧
      nullspace.statistics = schur.statistics := by
  have hB : whitenMatrix smallSystem.H_f 1 = smallSystem.H_f := by
    rw [whitenMatrix_eq_smul, inv_one, one_smul]
  have hqr : IsQR (smallFactorizations.householderQ (whitenMatrix smallSystem.H_f 1))
      (whitenMatrix smallSystem.H_f 1) := by
    rw [hB]
    refine ⟨by simp [smallFactorizations], fun k l hkl => ?_⟩
    have hne : k.val ≠ l.val := by omega
    show ((1 : Matrix (Fin 4) (Fin 4) ℝ)ᵀ * smallSystem.H_f) k l = 0
    rw [Matrix.transpose_one, Matrix.one_mul]
    exact if_neg hne
  have hmin : doubleMin < 1 := pow_lt_one₀ (by norm_num) (by norm_num) (by norm_num)
  have hfloor : ((max 4 3 : ℕ) : ℝ) * doubleEpsilon * 1 < 1 := by
    rw [doubleEpsilon]
    norm_num
  have hratio : ¬(1 : ℝ) / 1 < minimumSingularRatio := by
    rw [minimumSingularRatio]
    norm_num
  obtain ⟨schur, hschur⟩ : ∃ schur, schurReduce smallFactorizations smallSystem 1 = .ok schur := by
    rw [schurReduce, if_neg (by norm_num), if_neg (by norm_num)]
    have hsingular : ∀ B k, smallFactorizations.singularValues B k = 1 := fun _ _ => rfl
    simp only [hsingular]
    rw [if_neg (not_not.mpr hmin), if_neg (not_not.mpr hfloor), if_neg hratio]
    exact ⟨_, rfl⟩
  obtain ⟨nullspace, hnullspace, -, hsame, -⟩ := reducers_agree isGivens_planeRotation
    (by norm_num) rank_smallSystem one_pos hqr hschur
  exact ⟨schur, nullspace, hschur, hnullspace, hsame⟩

end Bravo.Shadow.Exact
