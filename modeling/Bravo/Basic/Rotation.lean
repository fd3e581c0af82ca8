import Mathlib.Algebra.Order.Field.Basic
import Mathlib.LinearAlgebra.Matrix.Adjugate
import Mathlib.LinearAlgebra.Matrix.Diagonal
import Mathlib.LinearAlgebra.Matrix.Rank
import Mathlib.LinearAlgebra.Matrix.Trace
import Mathlib.Tactic
import Bravo.Basic.Numerals

/-! # Orthogonal matrices of order three

Over an ordered field. An orthogonal matrix has no entry above 1 on its diagonal, and if its determinant is -1 the
sum of its diagonal is at most 1. So a sum of the diagonal entries, weighted by descending nonnegative weights, is
largest at the diagonal matrix of 1, 1 and the determinant, and only there where the weights separate the axes.
-/

namespace Bravo

open Matrix

variable {K : Type} [Field K]

abbrev Matrix3 (K : Type) := Matrix (Fin 3) (Fin 3) K

/-- `transpose M * M = 1` -/
def Orthogonal (M : Matrix3 K) : Prop := Mᵀ * M = 1

namespace Orthogonal

variable {M N : Matrix3 K}

theorem mul_transpose (h : Orthogonal M) : M * Mᵀ = 1 := mul_eq_one_comm.mp h

theorem transpose (h : Orthogonal M) : Orthogonal Mᵀ := by
  rw [Orthogonal, transpose_transpose]
  exact h.mul_transpose

theorem mul (hM : Orthogonal M) (hN : Orthogonal N) : Orthogonal (M * N) := by
  rw [Orthogonal, transpose_mul, mul_assoc, ← mul_assoc Mᵀ, hM, one_mul]
  exact hN

theorem det_sq (h : Orthogonal M) : M.det * M.det = 1 := by
  have hdet := congrArg det h
  rwa [det_mul, det_transpose, det_one] at hdet

theorem det_cases (h : Orthogonal M) : M.det = 1 ∨ M.det = -1 := mul_self_eq_one_iff.mp h.det_sq

theorem column (h : Orthogonal M) (i j : Fin 3) :
    M 0 i * M 0 j + M 1 i * M 1 j + M 2 i * M 2 j = if i = j then 1 else 0 := by
  have hij := congrFun (congrFun h i) j
  rw [mul_apply, Fin.sum_univ_three, one_apply] at hij
  exact hij

theorem row (h : Orthogonal M) (i j : Fin 3) :
    M i 0 * M j 0 + M i 1 * M j 1 + M i 2 * M j 2 = if i = j then 1 else 0 := h.transpose.column i j

theorem adjugate (h : Orthogonal M) : M.adjugate = M.det • Mᵀ := by
  calc M.adjugate = M.adjugate * (M * Mᵀ) := by rw [h.mul_transpose, mul_one]
    _ = M.adjugate * M * Mᵀ := (mul_assoc _ _ _).symm
    _ = M.det • Mᵀ := by rw [adjugate_mul, smul_mul_assoc, one_mul]

end Orthogonal

section Order

variable [LinearOrder K] [IsStrictOrderedRing K] {M : Matrix3 K}

namespace Orthogonal

theorem diag_le_one (h : Orthogonal M) (i : Fin 3) : M i i ≤ 1 := by
  have hrow := h.row i i
  rw [if_pos rfl] at hrow
  have hsq : M i i * M i i ≤ 1 := by
    fin_cases i <;> simp only [Fin.zero_eta, Fin.mk_one, Fin.reduceFinMk] at hrow ⊢ <;>
      nlinarith only [hrow, mul_self_nonneg (M 0 1), mul_self_nonneg (M 0 2), mul_self_nonneg (M 1 0),
        mul_self_nonneg (M 1 2), mul_self_nonneg (M 2 0), mul_self_nonneg (M 2 1)]
  by_contra hlt
  have hgt : 1 < M i i := not_le.mp hlt
  nlinarith only [hsq, hgt]

theorem trace_le_one (h : Orthogonal M) (hdet : M.det = -1) : M 0 0 + M 1 1 + M 2 2 ≤ 1 := by
  have hcofactor : ∀ i j, M.adjugate i j = -(M j i) := by
    intro i j
    rw [h.adjugate, hdet, Matrix.smul_apply, transpose_apply, smul_eq_mul, neg_one_mul]
  have h00 := hcofactor 0 0
  have h11 := hcofactor 1 1
  have h22 := hcofactor 2 2
  rw [adjugate_fin_three] at h00 h11 h22
  simp only [of_apply, cons_val', cons_val_zero, cons_val_one, cons_val, empty_val', cons_val_fin_one] at h00 h11 h22
  have hr0 := h.row 0 0
  have hr1 := h.row 1 1
  have hr2 := h.row 2 2
  have hc0 := h.column 0 0
  have hc1 := h.column 1 1
  have hc2 := h.column 2 2
  rw [if_pos rfl] at hr0 hr1 hr2 hc0 hc1 hc2
  -- With a = 1 - trace, the products of a with the other three signed sums are squares.
  have h1 : (1 - (M 0 0 + M 1 1 + M 2 2)) * (1 - M 0 0 + M 1 1 + M 2 2) = (M 1 2 - M 2 1) ^ 2 := by
    linear_combination (-2 : K) * h00 - hr1 - hr2 + hc0
  have h2 : (1 - (M 0 0 + M 1 1 + M 2 2)) * (1 + M 0 0 - M 1 1 + M 2 2) = (M 0 2 - M 2 0) ^ 2 := by
    linear_combination (-2 : K) * h11 - hr0 - hr2 + hc1
  have h3 : (1 - (M 0 0 + M 1 1 + M 2 2)) * (1 + M 0 0 + M 1 1 - M 2 2) = (M 0 1 - M 1 0) ^ 2 := by
    linear_combination (-2 : K) * h22 - hr0 - hr1 + hc2
  nlinarith only [h1, h2, h3, sq_nonneg (M 1 2 - M 2 1), sq_nonneg (M 0 2 - M 2 0), sq_nonneg (M 0 1 - M 1 0)]

theorem eq_zero_of_diag (h : Orthogonal M) {i j : Fin 3} (hii : M i i = 1) (hij : j ≠ i) : M i j = 0 ∧ M j i = 0 := by
  have hrow := h.row i i
  have hcol := h.column i i
  rw [if_pos rfl] at hrow hcol
  fin_cases i <;> fin_cases j <;> first
    | exact absurd rfl hij
    | simp only [Fin.zero_eta, Fin.mk_one, Fin.reduceFinMk] at hii hrow hcol ⊢
      constructor <;> refine mul_self_eq_zero.mp (le_antisymm ?_ (mul_self_nonneg _)) <;>
        rw [hii] at hrow hcol <;>
        nlinarith only [hrow, hcol, mul_self_nonneg (M 0 1), mul_self_nonneg (M 0 2), mul_self_nonneg (M 1 0),
          mul_self_nonneg (M 1 2), mul_self_nonneg (M 2 0), mul_self_nonneg (M 2 1)]

theorem eq_diagonal (h : Orthogonal M) (h0 : M 0 0 = 1) (h1 : M 1 1 = 1) : M = diagonal ![1, 1, M.det] := by
  have h01 := h.eq_zero_of_diag h0 (j := 1) (by decide)
  have h02 := h.eq_zero_of_diag h0 (j := 2) (by decide)
  have h12 := h.eq_zero_of_diag h1 (j := 2) (by decide)
  have hdet : M.det = M 2 2 := by
    rw [det_fin_three, h0, h1, h01.1, h01.2, h02.1, h02.2, h12.1, h12.2]
    ring
  ext i j
  rw [hdet]
  fin_cases i <;> fin_cases j <;> simp [h0, h1, h01.1, h01.2, h02.1, h02.2, h12.1, h12.2]

end Orthogonal

/-! ## Weighted diagonals -/

structure Descending (w : Fin 3 → K) : Prop where
  first : w 1 ≤ w 0
  second : w 2 ≤ w 1
  nonneg : 0 ≤ w 2

def weighted (w : Fin 3 → K) (M : Matrix3 K) : K := w 0 * M 0 0 + w 1 * M 1 1 + w 2 * M 2 2

omit [LinearOrder K] [IsStrictOrderedRing K] in
theorem weighted_split (w : Fin 3 → K) (M : Matrix3 K) : w 0 + w 1 - w 2 - weighted w M =
    (w 0 - w 1) * (1 - M 0 0) + (w 1 - w 2) * (2 - M 0 0 - M 1 1) + w 2 * (1 - (M 0 0 + M 1 1 + M 2 2)) := by
  rw [weighted]
  ring

theorem weighted_le {w : Fin 3 → K} (hw : Descending w) (h : Orthogonal M) :
    weighted w M ≤ w 0 + w 1 + M.det * w 2 := by
  have h0 := h.diag_le_one 0
  have h1 := h.diag_le_one 1
  have h2 := h.diag_le_one 2
  have hw1 : 0 ≤ w 1 := hw.nonneg.trans hw.second
  have hw0 : 0 ≤ w 0 := hw1.trans hw.first
  rcases h.det_cases with hdet | hdet
  · have hsum : 0 ≤ w 0 * (1 - M 0 0) + w 1 * (1 - M 1 1) + w 2 * (1 - M 2 2) :=
      add_nonneg (add_nonneg (mul_nonneg hw0 (sub_nonneg.mpr h0)) (mul_nonneg hw1 (sub_nonneg.mpr h1)))
        (mul_nonneg hw.nonneg (sub_nonneg.mpr h2))
    rw [hdet, weighted]
    linarith only [hsum]
  · have htrace := h.trace_le_one hdet
    have hsum : 0 ≤ w 0 + w 1 - w 2 - weighted w M := by
      rw [weighted_split]
      refine add_nonneg (add_nonneg (mul_nonneg (sub_nonneg.mpr hw.first) (sub_nonneg.mpr h0))
        (mul_nonneg (sub_nonneg.mpr hw.second) ?_)) (mul_nonneg hw.nonneg (sub_nonneg.mpr htrace))
      linarith only [h0, h1]
    rw [hdet]
    linarith only [hsum]

theorem eq_of_weighted {w : Fin 3 → K} (hw : Descending w) (h : Orthogonal M) (hpos : 0 < w 1)
    (hgap : M.det = -1 → w 2 < w 1) (heq : weighted w M = w 0 + w 1 + M.det * w 2) :
    M = diagonal ![1, 1, M.det] := by
  have h0 := h.diag_le_one 0
  have h1 := h.diag_le_one 1
  have h2 := h.diag_le_one 2
  have hw0 : 0 < w 0 := hpos.trans_le hw.first
  rcases h.det_cases with hdet | hdet
  · have hsum : w 0 * (1 - M 0 0) + w 1 * (1 - M 1 1) + w 2 * (1 - M 2 2) = 0 := by
      rw [hdet, weighted] at heq
      linear_combination -heq
    have hn0 := mul_nonneg hw0.le (sub_nonneg.mpr h0)
    have hn1 := mul_nonneg hpos.le (sub_nonneg.mpr h1)
    have hn2 := mul_nonneg hw.nonneg (sub_nonneg.mpr h2)
    have hz0 : w 0 * (1 - M 0 0) = 0 := by linarith only [hsum, hn0, hn1, hn2]
    have hz1 : w 1 * (1 - M 1 1) = 0 := by linarith only [hsum, hn0, hn1, hn2]
    have he0 := (mul_eq_zero.mp hz0).resolve_left hw0.ne'
    have he1 := (mul_eq_zero.mp hz1).resolve_left hpos.ne'
    exact h.eq_diagonal (sub_eq_zero.mp he0).symm (sub_eq_zero.mp he1).symm
  · have htrace := h.trace_le_one hdet
    have hn0 := mul_nonneg (sub_nonneg.mpr hw.first) (sub_nonneg.mpr h0)
    have hlast : 0 ≤ 2 - M 0 0 - M 1 1 := by linarith only [h0, h1]
    have hn1 := mul_nonneg (sub_nonneg.mpr hw.second) hlast
    have hn2 := mul_nonneg hw.nonneg (sub_nonneg.mpr htrace)
    have hsplit := weighted_split w M
    rw [hdet] at heq
    have hz1 : (w 1 - w 2) * (2 - M 0 0 - M 1 1) = 0 := by linarith only [hsplit, heq, hn0, hn1, hn2]
    have he1 := (mul_eq_zero.mp hz1).resolve_left (sub_pos.mpr (hgap hdet)).ne'
    exact h.eq_diagonal (by linarith only [he1, h0, h1]) (by linarith only [he1, h0, h1])

end Order

/-! ## Squared distances -/

def normSq (v : Fin 3 → K) : K := v ⬝ᵥ v

def entrySum (Q H : Matrix3 K) : K := ∑ a, ∑ b, Q a b * H a b

theorem normSq_residual {Q : Matrix3 K} (hQ : Orthogonal Q) (x y w : Fin 3 → K) :
    normSq (Q *ᵥ x - y + w) = normSq x + normSq y + normSq w - 2 * (∑ a, ∑ b, Q a b * (y a * x b)) +
      2 * ((∑ a, ∑ b, w a * Q a b * x b) - ∑ a, w a * y a) := by
  have h00 := hQ.column 0 0
  have h11 := hQ.column 1 1
  have h22 := hQ.column 2 2
  have h01 := hQ.column 0 1
  have h02 := hQ.column 0 2
  have h12 := hQ.column 1 2
  rw [if_pos rfl] at h00 h11 h22
  rw [if_neg (by decide)] at h01 h02 h12
  simp only [normSq, dotProduct, mulVec, Fin.sum_univ_three, Pi.add_apply, Pi.sub_apply]
  linear_combination x 0 ^ 2 * h00 + x 1 ^ 2 * h11 + x 2 ^ 2 * h22 + 2 * x 0 * x 1 * h01 + 2 * x 0 * x 2 * h02 +
    2 * x 1 * x 2 * h12

/-- Over centred points the sum of the squares splits into what no rotation changes, the shift, and the entries of the
rotation with the cross products of the coordinates. -/
theorem sum_normSq_residual {n : Nat} {X Y : Fin n → Fin 3 → K} (hX : ∀ b, ∑ i, X i b = 0) (hY : ∀ a, ∑ i, Y i a = 0)
    {Q : Matrix3 K} (hQ : Orthogonal Q) (w : Fin 3 → K) :
    ∑ i, normSq (Q *ᵥ X i - Y i + w) = ∑ i, normSq (X i) + ∑ i, normSq (Y i) + n * normSq w -
      2 * entrySum Q (fun a b => ∑ i, Y i a * X i b) := by
  have hcross : ∑ i, ∑ a, ∑ b, Q a b * (Y i a * X i b) = entrySum Q (fun a b => ∑ i, Y i a * X i b) := by
    show _ = ∑ a, ∑ b, Q a b * ∑ i, Y i a * X i b
    rw [Finset.sum_comm]
    refine Finset.sum_congr rfl fun a _ => ?_
    rw [Finset.sum_comm]
    exact Finset.sum_congr rfl fun b _ => (Finset.mul_sum _ _ _).symm
  have hshift : ∑ i, ((∑ a, ∑ b, w a * Q a b * X i b) - ∑ a, w a * Y i a) = 0 := by
    rw [Finset.sum_sub_distrib]
    have hfirst : ∑ i, ∑ a, ∑ b, w a * Q a b * X i b = 0 := by
      rw [Finset.sum_comm]
      refine Finset.sum_eq_zero fun a _ => ?_
      rw [Finset.sum_comm]
      exact Finset.sum_eq_zero fun b _ => by rw [← Finset.mul_sum, hX, mul_zero]
    have hsecond : ∑ i, ∑ a, w a * Y i a = 0 := by
      rw [Finset.sum_comm]
      exact Finset.sum_eq_zero fun a _ => by rw [← Finset.mul_sum, hY, mul_zero]
    rw [hfirst, hsecond, sub_zero]
  calc ∑ i, normSq (Q *ᵥ X i - Y i + w)
      = ∑ i, (normSq (X i) + normSq (Y i) + normSq w - 2 * (∑ a, ∑ b, Q a b * (Y i a * X i b)) +
          2 * ((∑ a, ∑ b, w a * Q a b * X i b) - ∑ a, w a * Y i a)) :=
        Finset.sum_congr rfl fun i _ => normSq_residual hQ (X i) (Y i) w
    _ = ∑ i, normSq (X i) + ∑ i, normSq (Y i) + n * normSq w - 2 * (∑ i, ∑ a, ∑ b, Q a b * (Y i a * X i b)) +
          2 * ∑ i, ((∑ a, ∑ b, w a * Q a b * X i b) - ∑ a, w a * Y i a) := by
        rw [Finset.sum_add_distrib, Finset.sum_sub_distrib, Finset.sum_add_distrib, Finset.sum_add_distrib,
          ← Finset.mul_sum, ← Finset.mul_sum, Finset.sum_const, Finset.card_univ, Fintype.card_fin, nsmul_eq_mul]
    _ = _ := by rw [hcross, hshift, mul_zero, add_zero]

/-! ## Singular values -/

structure SvdFactors (K : Type) where
  left : Matrix3 K
  singular : Fin 3 → K
  rightTranspose : Matrix3 K

theorem entrySum_eq_trace (Q H : Matrix3 K) : entrySum Q H = (Qᵀ * H).trace := by
  simp only [entrySum, trace, diag, mul_apply, transpose_apply]
  exact Finset.sum_comm

def inAxes (f : SvdFactors K) (Q : Matrix3 K) : Matrix3 K := f.leftᵀ * Q * f.rightTransposeᵀ

theorem det_inAxes (f : SvdFactors K) (Q : Matrix3 K) : (inAxes f Q).det = (f.left * f.rightTranspose).det * Q.det := by
  rw [inAxes, det_mul, det_mul, det_mul, det_transpose, det_transpose]
  ring

section Svd

variable [LinearOrder K] {H : Matrix3 K} {f : SvdFactors K}

structure ExactSvd (H : Matrix3 K) (f : SvdFactors K) : Prop where
  left : Orthogonal f.left
  right : Orthogonal f.rightTranspose
  descending : Descending f.singular
  product : f.left * diagonal f.singular * f.rightTranspose = H

theorem ExactSvd.entrySum_eq (h : ExactSvd H f) (Q : Matrix3 K) :
    entrySum Q H = weighted f.singular (inAxes f Q) := by
  have hcycle : (Qᵀ * H).trace = (f.rightTranspose * Qᵀ * f.left * diagonal f.singular).trace := by
    rw [← h.product, mul_assoc f.left, ← mul_assoc, ← mul_assoc, trace_mul_comm,
      ← mul_assoc, ← mul_assoc]
  have htranspose : f.rightTranspose * Qᵀ * f.left = (inAxes f Q)ᵀ := by
    rw [inAxes, transpose_mul, transpose_mul, transpose_transpose, transpose_transpose, mul_assoc]
  rw [entrySum_eq_trace, hcycle, htranspose, weighted, trace_fin_three]
  simp only [mul_diagonal, transpose_apply]
  ring

theorem ExactSvd.orthogonal_inAxes (h : ExactSvd H f) {Q : Matrix3 K} (hQ : Orthogonal Q) :
    Orthogonal (inAxes f Q) := (h.left.transpose.mul hQ).mul h.right.transpose

theorem ExactSvd.eq_of_inAxes (h : ExactSvd H f) (Q : Matrix3 K) : f.left * inAxes f Q * f.rightTranspose = Q := by
  calc f.left * inAxes f Q * f.rightTranspose
      = f.left * f.leftᵀ * Q * (f.rightTransposeᵀ * f.rightTranspose) := by
        rw [inAxes]
        simp only [mul_assoc]
    _ = Q := by rw [h.left.mul_transpose, h.right, one_mul, mul_one]

theorem ExactSvd.inAxes_mul (h : ExactSvd H f) (D : Matrix3 K) : inAxes f (f.left * D * f.rightTranspose) = D := by
  calc inAxes f (f.left * D * f.rightTranspose)
      = f.leftᵀ * f.left * D * (f.rightTranspose * f.rightTransposeᵀ) := by
        rw [inAxes]
        simp only [mul_assoc]
    _ = D := by rw [h.left, h.right.mul_transpose, one_mul, mul_one]

end Svd

/-! ## The nearest rotation -/

def SvdFactors.sign (f : SvdFactors K) : K := (f.left * f.rightTranspose).det

/-- The product of the factors with the sign in place of the last singular value. -/
def SvdFactors.rotation (f : SvdFactors K) : Matrix3 K := f.left * diagonal ![1, 1, f.sign] * f.rightTranspose

section Nearest

variable [LinearOrder K] {H : Matrix3 K} {f : SvdFactors K}

theorem ExactSvd.sign_cases (h : ExactSvd H f) : f.sign = 1 ∨ f.sign = -1 := (h.left.mul h.right).det_cases

theorem ExactSvd.sign_sq (h : ExactSvd H f) : f.sign * f.sign = 1 := (h.left.mul h.right).det_sq

theorem ExactSvd.proper (h : ExactSvd H f) {D : Matrix3 K} (hD : Orthogonal D) (hdet : D.det = f.sign) :
    Orthogonal (f.left * D * f.rightTranspose) ∧ (f.left * D * f.rightTranspose).det = 1 := by
  refine ⟨(h.left.mul hD).mul h.right, ?_⟩
  have hsign : f.left.det * f.rightTranspose.det = f.sign := (det_mul _ _).symm
  rw [det_mul, det_mul, hdet, mul_right_comm, hsign, h.sign_sq]

omit [LinearOrder K] in
theorem orthogonal_diagonal {w : Fin 3 → K} (h : ∀ i, w i * w i = 1) : Orthogonal (diagonal w) := by
  rw [Orthogonal, diagonal_transpose, diagonal_mul_diagonal, ← diagonal_one]
  exact congrArg diagonal (funext h)

theorem ExactSvd.orthogonal_correction (h : ExactSvd H f) : Orthogonal (diagonal ![1, 1, f.sign]) := by
  refine orthogonal_diagonal fun i => ?_
  fin_cases i
  · exact mul_one 1
  · exact mul_one 1
  · exact h.sign_sq

omit [LinearOrder K] in
theorem det_correction (d : K) : (diagonal ![1, 1, d]).det = d := by
  rw [det_diagonal, Fin.prod_univ_three]
  simp

theorem ExactSvd.rotation_proper (h : ExactSvd H f) : Orthogonal f.rotation ∧ f.rotation.det = 1 :=
  h.proper h.orthogonal_correction (det_correction _)

theorem ExactSvd.entrySum_rotation (h : ExactSvd H f) :
    entrySum f.rotation H = f.singular 0 + f.singular 1 + f.sign * f.singular 2 := by
  rw [h.entrySum_eq, SvdFactors.rotation, h.inAxes_mul, weighted]
  simp only [diagonal_apply_eq, cons_val_zero, cons_val_one, cons_val]
  ring

variable [IsStrictOrderedRing K]

theorem ExactSvd.entrySum_le (h : ExactSvd H f) {Q : Matrix3 K} (hQ : Orthogonal Q) (hdet : Q.det = 1) :
    entrySum Q H ≤ entrySum f.rotation H := by
  have hle := weighted_le h.descending (h.orthogonal_inAxes hQ)
  rw [det_inAxes, hdet, mul_one] at hle
  rw [h.entrySum_rotation, h.entrySum_eq]
  exact hle

/-- The condition for the axes to be told apart. -/
def SvdFactors.Separated (f : SvdFactors K) : Prop := 0 < f.singular 1 ∧ (f.sign = -1 → f.singular 2 < f.singular 1)

theorem ExactSvd.eq_rotation (h : ExactSvd H f) (hsep : f.Separated) {Q : Matrix3 K} (hQ : Orthogonal Q)
    (hdet : Q.det = 1) (heq : entrySum Q H = entrySum f.rotation H) : Q = f.rotation := by
  have hsign : (inAxes f Q).det = f.sign := by rw [det_inAxes, hdet, mul_one, SvdFactors.sign]
  rw [h.entrySum_rotation, h.entrySum_eq] at heq
  have hdiag := eq_of_weighted h.descending (h.orthogonal_inAxes hQ) hsep.1 (fun hneg => hsep.2 (hsign ▸ hneg))
    (by rw [hsign]; exact heq)
  rw [hsign] at hdiag
  rw [← h.eq_of_inAxes Q, hdiag, SvdFactors.rotation]

/-- Turning the last two axes around costs nothing if they are not told apart. -/
theorem ExactSvd.exists_other (h : ExactSvd H f) (hsep : ¬ f.Separated) : ∃ Q : Matrix3 K,
    Orthogonal Q ∧ Q.det = 1 ∧ entrySum Q H = entrySum f.rotation H ∧ Q ≠ f.rotation := by
  have hzero : f.singular 1 + f.sign * f.singular 2 = 0 := by
    have hw := h.descending
    by_cases hpos : 0 < f.singular 1
    · obtain ⟨hneg, hle⟩ : f.sign = -1 ∧ f.singular 1 ≤ f.singular 2 := by
        have hnot : ¬ (f.sign = -1 → f.singular 2 < f.singular 1) := fun himp => hsep ⟨hpos, himp⟩
        obtain ⟨hneg, hnlt⟩ := Classical.not_imp.mp hnot
        exact ⟨hneg, not_lt.mp hnlt⟩
      rw [hneg, le_antisymm hle hw.second]
      ring
    · have h1 : f.singular 1 = 0 := le_antisymm (not_lt.mp hpos) (hw.nonneg.trans hw.second)
      have h2 : f.singular 2 = 0 := le_antisymm (hw.second.trans_eq h1) hw.nonneg
      rw [h1, h2, mul_zero, add_zero]
  have hD : Orthogonal (diagonal ![1, -1, -f.sign]) := by
    refine orthogonal_diagonal fun i => ?_
    fin_cases i
    · exact mul_one 1
    · show (-1 : K) * -1 = 1
      ring
    · show -f.sign * -f.sign = 1
      rw [neg_mul_neg, h.sign_sq]
  have hdet : (diagonal ![1, -1, -f.sign]).det = f.sign := by
    rw [det_diagonal, Fin.prod_univ_three]
    simp
  obtain ⟨hQ, hone⟩ := h.proper hD hdet
  refine ⟨_, hQ, hone, ?_, fun heq => ?_⟩
  · rw [h.entrySum_rotation, h.entrySum_eq, h.inAxes_mul, weighted]
    simp only [diagonal_apply_eq, cons_val_zero, cons_val_one, cons_val]
    linear_combination -2 * hzero
  · have haxes := congrArg (fun Q => inAxes f Q 1 1) heq
    simp only [SvdFactors.rotation, h.inAxes_mul, diagonal_apply_eq, cons_val_one, cons_val_zero] at haxes
    exact absurd haxes (by norm_num)

omit [IsStrictOrderedRing K] in
theorem ExactSvd.two_le_rank (h : ExactSvd H f) : 2 ≤ H.rank ↔ 0 < f.singular 1 := by
  have hunit : ∀ {M : Matrix3 K}, Orthogonal M → IsUnit M.det := fun hM => IsUnit.of_mul_eq_one _ hM.det_sq
  have hrank : H.rank = Fintype.card {i // f.singular i ≠ 0} := by
    rw [← h.product, rank_mul_eq_left_of_isUnit_det _ _ (hunit h.right),
      rank_mul_eq_right_of_isUnit_det _ _ (hunit h.left), rank_diagonal]
  have hw := h.descending
  rw [hrank]
  constructor
  · intro hcard
    by_contra hpos
    have h1 : f.singular 1 = 0 := le_antisymm (not_lt.mp hpos) (hw.nonneg.trans hw.second)
    have h2 : f.singular 2 = 0 := le_antisymm (hw.second.trans_eq h1) hw.nonneg
    have hone : ∀ i : {i // f.singular i ≠ 0}, i.1 = 0 := by
      rintro ⟨i, hi⟩
      fin_cases i
      · rfl
      · exact absurd h1 hi
      · exact absurd h2 hi
    have hle : Fintype.card {i // f.singular i ≠ 0} ≤ 1 :=
      Fintype.card_le_one_iff.mpr fun i j => Subtype.ext ((hone i).trans (hone j).symm)
    omega
  · intro hpos
    have h0 : f.singular 0 ≠ 0 := (hpos.trans_le hw.first).ne'
    refine Nat.succ_le_of_lt (Fintype.one_lt_card_iff.mpr ⟨⟨0, h0⟩, ⟨1, hpos.ne'⟩, fun heq => ?_⟩)
    have hval : (0 : Fin 3) = 1 := congrArg Subtype.val heq
    exact absurd hval (by decide)

/-! ## The singular values are those of the matrix -/

omit [IsStrictOrderedRing K] in
theorem ExactSvd.det_gram (h : ExactSvd H f) (x : K) : (x • (1 : Matrix3 K) - Hᵀ * H).det =
    (x - f.singular 0 ^ 2) * (x - f.singular 1 ^ 2) * (x - f.singular 2 ^ 2) := by
  have hgram : Hᵀ * H = f.rightTransposeᵀ * diagonal (fun i => f.singular i ^ 2) * f.rightTranspose := by
    have hsquare : diagonal f.singular * diagonal f.singular = diagonal fun i => f.singular i ^ 2 := by
      rw [diagonal_mul_diagonal]
      exact congrArg diagonal (funext fun i => (sq _).symm)
    calc Hᵀ * H = f.rightTransposeᵀ * (diagonal f.singular * (f.leftᵀ * f.left) * diagonal f.singular) *
          f.rightTranspose := by
          rw [← h.product]
          simp only [transpose_mul, diagonal_transpose, mul_assoc]
      _ = _ := by rw [h.left, mul_one, hsquare]
  have hdiag : x • (1 : Matrix3 K) - Hᵀ * H =
      f.rightTransposeᵀ * diagonal (fun i => x - f.singular i ^ 2) * f.rightTranspose := by
    have hsplit : diagonal (fun i => x - f.singular i ^ 2) = x • (1 : Matrix3 K) - diagonal fun i => f.singular i ^ 2 := by
      rw [smul_one_eq_diagonal, diagonal_sub]
    rw [hsplit, Matrix.mul_sub, Matrix.sub_mul, ← hgram, Matrix.mul_smul, Matrix.mul_one, Matrix.smul_mul, h.right]
  rw [hdiag, det_mul, det_mul, det_transpose, det_diagonal, Fin.prod_univ_three, mul_right_comm, h.right.det_sq, one_mul]

theorem descending_unique {a b : Fin 3 → K} (ha : a 1 ≤ a 0 ∧ a 2 ≤ a 1) (hb : b 1 ≤ b 0 ∧ b 2 ≤ b 1)
    (h : ∀ x, (x - a 0) * (x - a 1) * (x - a 2) = (x - b 0) * (x - b 1) * (x - b 2)) : a = b := by
  have hfirst : ∀ {a b : Fin 3 → K}, b 1 ≤ b 0 ∧ b 2 ≤ b 1 →
      (∀ x, (x - a 0) * (x - a 1) * (x - a 2) = (x - b 0) * (x - b 1) * (x - b 2)) → a 0 ≤ b 0 := by
    intro a b hb h
    have hroot := h (a 0)
    rw [sub_self, zero_mul, zero_mul] at hroot
    rcases mul_eq_zero.mp hroot.symm with hroot | hroot
    · rcases mul_eq_zero.mp hroot with hroot | hroot
      · exact (sub_eq_zero.mp hroot).le
      · exact (sub_eq_zero.mp hroot).trans_le hb.1
    · exact (sub_eq_zero.mp hroot).trans_le (hb.2.trans hb.1)
  have h0 : a 0 = b 0 := le_antisymm (hfirst hb h) (hfirst ha fun x => (h x).symm)
  -- The quotient by the first factor agrees at two points, so sum and product of the other two agree.
  have hquotient : ∀ x, x ≠ a 0 → (x - a 1) * (x - a 2) = (x - b 1) * (x - b 2) := by
    intro x hx
    refine mul_left_cancel₀ (sub_ne_zero.mpr hx) ?_
    have hx' := h x
    rw [← h0] at hx'
    linear_combination hx'
  have hone := hquotient (a 0 + 1) (by simp)
  have htwo := hquotient (a 0 + 2) (by simp)
  have hsum : a 1 + a 2 = b 1 + b 2 := by linear_combination hone - htwo
  have hprod : a 1 * a 2 = b 1 * b 2 := by linear_combination hone + (a 0 + 1) * hsum
  have hroot : (a 1 - b 1) * (a 1 - b 2) = 0 := by linear_combination a 1 * hsum - hprod
  have h1 : a 1 = b 1 := by
    rcases mul_eq_zero.mp hroot with h1 | h1
    · exact sub_eq_zero.mp h1
    · linarith only [h1, hsum, ha.2, hb.2]
  have h2 : a 2 = b 2 := by linear_combination hsum - h1
  ext i
  fin_cases i
  · exact h0
  · exact h1
  · exact h2

theorem ExactSvd.singular_eq (h : ExactSvd H f) {g : SvdFactors K} (hg : ExactSvd H g) : f.singular = g.singular := by
  have hmono : ∀ {u : SvdFactors K}, ExactSvd H u →
      u.singular 1 ^ 2 ≤ u.singular 0 ^ 2 ∧ u.singular 2 ^ 2 ≤ u.singular 1 ^ 2 := by
    intro u hu
    have hw := hu.descending
    exact ⟨pow_le_pow_left₀ (hw.nonneg.trans hw.second) hw.first 2, pow_le_pow_left₀ hw.nonneg hw.second 2⟩
  have hsquares : (fun i => f.singular i ^ 2) = fun i => g.singular i ^ 2 :=
    descending_unique (hmono h) (hmono hg) fun x => (h.det_gram x).symm.trans (hg.det_gram x)
  have hnonneg : ∀ {u : SvdFactors K}, ExactSvd H u → ∀ i, 0 ≤ u.singular i := by
    intro u hu i
    have hw := hu.descending
    fin_cases i
    · exact hw.nonneg.trans (hw.second.trans hw.first)
    · exact hw.nonneg.trans hw.second
    · exact hw.nonneg
  ext i
  exact (pow_left_inj₀ (hnonneg h i) (hnonneg hg i) (by decide)).mp (congrFun hsquares i)

theorem ExactSvd.last_eq_zero (h : ExactSvd H f) {g : SvdFactors K} (hg : ExactSvd H g) (hne : f.sign ≠ g.sign) :
    f.singular 2 = 0 := by
  have hdet : ∀ {u : SvdFactors K}, ExactSvd H u →
      H.det = u.sign * (u.singular 0 * u.singular 1 * u.singular 2) := by
    intro u hu
    rw [← hu.product, det_mul, det_mul, det_diagonal, Fin.prod_univ_three, SvdFactors.sign, det_mul]
    ring
  have hboth := (hdet h).symm.trans (hdet hg)
  rw [← h.singular_eq hg] at hboth
  have hzero : f.singular 0 * f.singular 1 * f.singular 2 = 0 := by
    have hdiff : (f.sign - g.sign) * (f.singular 0 * f.singular 1 * f.singular 2) = 0 := by
      linear_combination hboth
    exact (mul_eq_zero.mp hdiff).resolve_left (sub_ne_zero.mpr hne)
  have hw := h.descending
  rcases mul_eq_zero.mp hzero with hzero | hzero
  · rcases mul_eq_zero.mp hzero with hzero | hzero
    · exact le_antisymm (hw.second.trans (hw.first.trans_eq hzero)) hw.nonneg
    · exact le_antisymm (hw.second.trans_eq hzero) hw.nonneg
  · exact hzero

end Nearest

end Bravo
