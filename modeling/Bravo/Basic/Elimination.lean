import Mathlib.LinearAlgebra.Matrix.NonsingularInverse
import Mathlib.LinearAlgebra.Matrix.Rank
import Mathlib.LinearAlgebra.Matrix.SchurComplement
import Mathlib.LinearAlgebra.Matrix.ToLin
import Mathlib.Tactic.LinearCombination

/-! # Elimination by orthogonal transforms

An orthogonal transform that brings the columns of `F` into its first rows leaves in its last rows a
system whose products are those of the complement of the range of `F`, whichever the transform is
(`lower_mul_eq`). Plane rotations are orthogonal (`transpose_rotateRows_mul`), and the quadratic
form of an inverse innovation depends on the products only (`dotProduct_inv_mulVec`).
-/

namespace Bravo.Elimination

open Matrix

/-! ## Plane rotations -/

section Rotation

variable {K ι κ μ : Type} [CommRing K] [DecidableEq ι] [Fintype ι]

/-- Rows `i` and `j` are rotated by the cosine `c` and the sine `s`. -/
def rotateRows (i j : ι) (c s : K) (M : Matrix ι κ K) : Matrix ι κ K := fun k l =>
  if k = i then c * M i l - s * M j l else if k = j then s * M i l + c * M j l else M k l

def rotateVector (i j : ι) (c s : K) (v : ι → K) : ι → K := fun k =>
  if k = i then c * v i - s * v j else if k = j then s * v i + c * v j else v k

variable {i j : ι} {c s : K}

omit [Fintype ι] in
theorem rotateRows_mul [Fintype κ] (M : Matrix ι κ K) (N : Matrix κ μ K) :
    rotateRows i j c s (M * N) = rotateRows i j c s M * N := by
  ext k l
  simp only [rotateRows, mul_apply]
  split_ifs
  · rw [Finset.mul_sum, Finset.mul_sum, ← Finset.sum_sub_distrib]
    exact Finset.sum_congr rfl fun x _ => by ring
  · rw [Finset.mul_sum, Finset.mul_sum, ← Finset.sum_add_distrib]
    exact Finset.sum_congr rfl fun x _ => by ring
  · rfl

def rotation (i j : ι) (c s : K) : Matrix ι ι K := rotateRows i j c s 1

theorem rotateRows_eq_mul (M : Matrix ι κ K) : rotateRows i j c s M = rotation i j c s * M := by
  rw [rotation, ← rotateRows_mul, Matrix.one_mul]

theorem rotateVector_eq_mulVec (v : ι → K) : rotateVector i j c s v = rotation i j c s *ᵥ v := by
  have hcol := rotateRows_eq_mul (i := i) (j := j) (c := c) (s := s) (of fun k (_ : Unit) => v k)
  funext k
  exact congrFun (congrFun hcol k) ()

theorem transpose_rotateRows_mul (hij : i ≠ j) (hunit : c * c + s * s = 1) (M : Matrix ι κ K)
    (N : Matrix ι μ K) : (rotateRows i j c s M)ᵀ * rotateRows i j c s N = Mᵀ * N := by
  ext a b
  simp only [mul_apply, transpose_apply]
  have hi : i ∈ Finset.univ := Finset.mem_univ i
  have hj : j ∈ Finset.univ.erase i := Finset.mem_erase.mpr ⟨hij.symm, Finset.mem_univ j⟩
  have hrest : ∑ k ∈ (Finset.univ.erase i).erase j,
      rotateRows i j c s M k a * rotateRows i j c s N k b =
        ∑ k ∈ (Finset.univ.erase i).erase j, M k a * N k b := by
    refine Finset.sum_congr rfl fun k hk => ?_
    obtain ⟨hkj, hk⟩ := Finset.mem_erase.mp hk
    have hki := (Finset.mem_erase.mp hk).1
    rw [rotateRows, rotateRows, if_neg hki, if_neg hkj, if_neg hki, if_neg hkj]
  rw [← Finset.add_sum_erase _ _ hi, ← Finset.add_sum_erase _ _ hj, hrest,
    ← Finset.add_sum_erase _ (fun k => M k a * N k b) hi,
    ← Finset.add_sum_erase _ (fun k => M k a * N k b) hj]
  simp only [rotateRows, if_pos, if_neg hij.symm]
  linear_combination (M i a * N i b + M j a * N j b) * hunit

theorem rotation_orthogonal (hij : i ≠ j) (hunit : c * c + s * s = 1) :
    (rotation i j c s)ᵀ * rotation i j c s = 1 := by
  rw [rotation, transpose_rotateRows_mul hij hunit, transpose_one, one_mul]

end Rotation

/-! ## The rows behind the eliminated ones -/

section Complement

variable {K ι τ β κ μ : Type} [Field K] [Fintype ι] [Fintype τ] [Fintype β] [DecidableEq ι]
  [DecidableEq τ]

def upper (e : τ ⊕ β ≃ ι) (M : Matrix ι κ K) : Matrix τ κ K := M.submatrix (e ∘ Sum.inl) id

def lower (e : τ ⊕ β ≃ ι) (M : Matrix ι κ K) : Matrix β κ K := M.submatrix (e ∘ Sum.inr) id

variable {e : τ ⊕ β ≃ ι}

omit [DecidableEq ι] [DecidableEq τ] in
theorem transpose_mul_split (X : Matrix ι κ K) (Y : Matrix ι μ K) :
    Xᵀ * Y = (upper e X)ᵀ * upper e Y + (lower e X)ᵀ * lower e Y := by
  ext a b
  simp only [Matrix.mul_apply, Matrix.add_apply, Matrix.transpose_apply]
  rw [← Equiv.sum_comp e, Fintype.sum_sum_type]
  rfl

theorem transpose_mul_of_orthogonal {Q : Matrix ι ι K} (hQ : Qᵀ * Q = 1) (X : Matrix ι κ K)
    (Y : Matrix ι μ K) : (Q * X)ᵀ * (Q * Y) = Xᵀ * Y := by
  rw [Matrix.transpose_mul, Matrix.mul_assoc, ← Matrix.mul_assoc Qᵀ, hQ, Matrix.one_mul]

/-- **The products of the lower rows are those of the complement of the range of `F`**, for every
orthogonal transform that leaves nothing of `F` in them. -/
theorem lower_mul_eq {Q : Matrix ι ι K} (hQ : Qᵀ * Q = 1) {F : Matrix ι τ K}
    (hF : lower e (Q * F) = 0) (hupper : IsUnit (upper e (Q * F)).det) (X : Matrix ι κ K)
    (Y : Matrix ι μ K) :
    (lower e (Q * X))ᵀ * lower e (Q * Y) = Xᵀ * Y - Xᵀ * F * (Fᵀ * F)⁻¹ * (Fᵀ * Y) := by
  set R := upper e (Q * F) with hR
  have hFF : Fᵀ * F = Rᵀ * R := by
    rw [← transpose_mul_of_orthogonal hQ F F, transpose_mul_split (e := e), hF]
    simp [hR]
  have hFY : Fᵀ * Y = Rᵀ * upper e (Q * Y) := by
    rw [← transpose_mul_of_orthogonal hQ F Y, transpose_mul_split (e := e), hF]
    simp [hR]
  have hXF : Xᵀ * F = (upper e (Q * X))ᵀ * R := by
    rw [← transpose_mul_of_orthogonal hQ X F, transpose_mul_split (e := e), hF]
    simp [hR]
  have hXY : Xᵀ * Y = (upper e (Q * X))ᵀ * upper e (Q * Y) +
      (lower e (Q * X))ᵀ * lower e (Q * Y) := by
    rw [← transpose_mul_of_orthogonal hQ X Y, transpose_mul_split (e := e)]
  have htranspose : IsUnit Rᵀ.det := by rwa [Matrix.det_transpose]
  have hcancel : R * (Rᵀ * R)⁻¹ * Rᵀ = 1 := by
    rw [Matrix.mul_inv_rev, ← Matrix.mul_assoc, Matrix.mul_nonsing_inv _ hupper, Matrix.one_mul,
      Matrix.nonsing_inv_mul _ htranspose]
  have hprojection : Xᵀ * F * (Fᵀ * F)⁻¹ * (Fᵀ * Y) = (upper e (Q * X))ᵀ * upper e (Q * Y) := by
    calc Xᵀ * F * (Fᵀ * F)⁻¹ * (Fᵀ * Y)
        = (upper e (Q * X))ᵀ * (R * (Rᵀ * R)⁻¹ * Rᵀ) * upper e (Q * Y) := by
          rw [hXF, hFF, hFY]
          simp only [Matrix.mul_assoc]
      _ = (upper e (Q * X))ᵀ * upper e (Q * Y) := by rw [hcancel, Matrix.mul_one]
  rw [hprojection, hXY, add_sub_cancel_left]

omit [Fintype ι] [DecidableEq ι] [DecidableEq τ] in
theorem mulVec_injective_of_rank {F : Matrix ι τ K} (hrank : F.rank = Fintype.card τ) :
    Function.Injective F.mulVec := by
  have hsum := LinearMap.finrank_range_add_finrank_ker F.mulVecLin
  have hdomain : Module.finrank K (τ → K) = Fintype.card τ := Module.finrank_fintype_fun_eq_card K
  have hker : Module.finrank K (LinearMap.ker F.mulVecLin) = 0 := by
    rw [rank] at hrank
    omega
  exact LinearMap.ker_eq_bot.mp (Submodule.finrank_eq_zero.mp hker)

omit [Fintype β] in
theorem isUnit_upper {Q : Matrix ι ι K} (hQ : Qᵀ * Q = 1) {F : Matrix ι τ K}
    (hF : lower e (Q * F) = 0) (hinj : Function.Injective F.mulVec) :
    IsUnit (upper e (Q * F)).det := by
  rw [← isUnit_iff_isUnit_det, ← mulVec_injective_iff_isUnit]
  intro v w hvw
  have hboth : (Q * F) *ᵥ v = (Q * F) *ᵥ w := by
    funext k
    obtain ⟨x, rfl⟩ := e.surjective k
    cases x with
    | inl t => exact congrFun hvw t
    | inr b =>
      have hzero : ∀ u, ((Q * F) *ᵥ u) (e (Sum.inr b)) = 0 := by
        intro u
        have hrow : ∀ l, (Q * F) (e (Sum.inr b)) l = 0 := fun l => congrFun (congrFun hF b) l
        simp [mulVec, dotProduct, hrow]
      rw [hzero, hzero]
  apply hinj
  have hback := congrArg (Qᵀ *ᵥ ·) hboth
  simpa only [Matrix.mulVec_mulVec, ← Matrix.mul_assoc, hQ, Matrix.one_mul] using hback

end Complement

/-! ## The innovation -/

section Innovation

variable {K β κ : Type} [Field K] [Fintype β] [Fintype κ] [DecidableEq β] [DecidableEq κ]

theorem inv_one_add_eq (A : Matrix β κ K) (P : Matrix κ κ K) (h : IsUnit (1 + A * P * Aᵀ).det) :
    (1 + A * P * Aᵀ)⁻¹ = 1 - A * (P * (1 + Aᵀ * A * P)⁻¹) * Aᵀ := by
  have hdet : IsUnit (1 + Aᵀ * A * P).det := by
    rwa [Matrix.mul_assoc, Matrix.det_one_add_mul_comm]
  have hcancel : (1 + Aᵀ * A * P) * (1 + Aᵀ * A * P)⁻¹ = 1 := Matrix.mul_nonsing_inv _ hdet
  refine Matrix.inv_eq_right_inv ?_
  set L := (1 + Aᵀ * A * P)⁻¹ with hL
  have hexpand : (1 + A * P * Aᵀ) * (1 - A * (P * L) * Aᵀ) =
      1 + A * P * Aᵀ - A * P * ((1 + Aᵀ * A * P) * L) * Aᵀ := by
    simp only [Matrix.mul_sub, Matrix.add_mul, Matrix.mul_add, Matrix.one_mul, Matrix.mul_one,
      Matrix.mul_assoc]
  rw [hexpand, hcancel, Matrix.mul_one, add_sub_cancel_right]

/-- **The weighted products depend on the products only**: with isotropic noise the columns enter an
update by `A^T A` and `A^T B`. -/
theorem transpose_mul_inv_mul_eq {μ : Type} (A : Matrix β κ K) (P : Matrix κ κ K) (B : Matrix β μ K)
    {noise : K} (hnoise : noise ≠ 0) (h : IsUnit (A * P * Aᵀ + noise • 1).det) :
    Aᵀ * (A * P * Aᵀ + noise • 1)⁻¹ * B =
      noise⁻¹ • (Aᵀ * B -
        Aᵀ * A * (noise⁻¹ • P * (1 + Aᵀ * A * (noise⁻¹ • P))⁻¹) * (Aᵀ * B)) := by
  have hfactor : A * P * Aᵀ + noise • 1 = noise • (1 + A * (noise⁻¹ • P) * Aᵀ) := by
    rw [smul_add, Matrix.mul_smul, Matrix.smul_mul, smul_smul, mul_inv_cancel₀ hnoise, one_smul,
      add_comm]
  have hunit : IsUnit (1 + A * (noise⁻¹ • P) * Aᵀ).det := by
    rw [hfactor, det_smul] at h
    exact isUnit_of_mul_isUnit_right h
  have hinverse : (A * P * Aᵀ + noise • 1)⁻¹ = noise⁻¹ • (1 + A * (noise⁻¹ • P) * Aᵀ)⁻¹ := by
    rw [hfactor]
    refine inv_eq_right_inv ?_
    rw [Matrix.smul_mul, Matrix.mul_smul, smul_smul, mul_inv_cancel₀ hnoise, one_smul,
      mul_nonsing_inv _ hunit]
  rw [hinverse, inv_one_add_eq A _ hunit, Matrix.mul_smul, Matrix.smul_mul, Matrix.mul_sub,
    Matrix.mul_one, Matrix.sub_mul]
  simp only [Matrix.mul_assoc]

/-- **The quadratic form of the inverse innovation depends on the products only.** -/
theorem dotProduct_inv_mulVec (A : Matrix β κ K) (P : Matrix κ κ K) (b : β → K)
    (h : IsUnit (1 + A * P * Aᵀ).det) :
    b ⬝ᵥ ((1 + A * P * Aᵀ)⁻¹ *ᵥ b) =
      b ⬝ᵥ b - (Aᵀ *ᵥ b) ⬝ᵥ ((P * (1 + Aᵀ * A * P)⁻¹) *ᵥ (Aᵀ *ᵥ b)) := by
  rw [inv_one_add_eq A P h, sub_mulVec, one_mulVec, dotProduct_sub]
  congr 1
  rw [Matrix.mul_assoc, ← Matrix.mulVec_mulVec, ← Matrix.mulVec_mulVec, Matrix.dotProduct_mulVec,
    ← mulVec_transpose]

end Innovation

end Bravo.Elimination
