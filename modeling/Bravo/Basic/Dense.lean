import Mathlib.Algebra.BigOperators.Fin
import Mathlib.Algebra.BigOperators.Ring.Finset
import Mathlib.Data.Matrix.Mul
import Mathlib.Tactic.Ring

/-! # Matrices that change their size

A matrix with its sizes as data, as a program resizes it, cuts blocks out of it and writes blocks
into it. What lies outside is zero, so a matrix is its sizes and its coefficients
(`Dense.ext_coeff`). Every operation is given by the coefficients of its result.
-/

namespace Bravo.Linear

structure Dense (K : Type) [Zero K] where
  rows : Nat
  cols : Nat
  coeff : Nat → Nat → K
  outside : ∀ i j, ¬ (i < rows ∧ j < cols) → coeff i j = 0

namespace Dense

section Building

variable {K : Type} [Zero K]

/-- The matrix with the coefficients `f`. -/
def ofFn (rows cols : Nat) (f : Nat → Nat → K) : Dense K where
  rows := rows
  cols := cols
  coeff i j := if i < rows ∧ j < cols then f i j else 0
  outside _ _ h := if_neg h

@[simp] theorem rows_ofFn (rows cols : Nat) (f : Nat → Nat → K) : (ofFn rows cols f).rows = rows :=
  rfl

@[simp] theorem cols_ofFn (rows cols : Nat) (f : Nat → Nat → K) : (ofFn rows cols f).cols = cols :=
  rfl

theorem coeff_ofFn {rows cols : Nat} {f : Nat → Nat → K} {i j : Nat} (hi : i < rows)
    (hj : j < cols) : (ofFn rows cols f).coeff i j = f i j :=
  if_pos ⟨hi, hj⟩

theorem ext_coeff {M N : Dense K} (hrows : M.rows = N.rows) (hcols : M.cols = N.cols)
    (h : ∀ i j, i < M.rows → j < M.cols → M.coeff i j = N.coeff i j) : M = N := by
  have hcoeff : M.coeff = N.coeff := by
    funext i j
    by_cases hin : i < M.rows ∧ j < M.cols
    · exact h i j hin.1 hin.2
    · rw [M.outside i j hin, N.outside i j (by rwa [← hrows, ← hcols])]
  cases M
  cases N
  simp only at hrows hcols hcoeff
  subst hrows hcols hcoeff
  rfl

/-! ## Blocks -/

def zero (rows cols : Nat) : Dense K := ofFn rows cols fun _ _ => 0

/-- `M.block(row, col, rows, cols)` -/
def block (M : Dense K) (row col rows cols : Nat) : Dense K :=
  ofFn rows cols fun i j => M.coeff (row + i) (col + j)

/-- `M.block(row, col, B.rows(), B.cols()) = B` -/
def setBlock (M : Dense K) (row col : Nat) (B : Dense K) : Dense K :=
  ofFn M.rows M.cols fun i j =>
    if row ≤ i ∧ i < row + B.rows ∧ col ≤ j ∧ j < col + B.cols then B.coeff (i - row) (j - col)
    else M.coeff i j

/-- `conservativeResizeLike(Zero(rows, cols))` -/
def resize (M : Dense K) (rows cols : Nat) : Dense K :=
  ofFn rows cols fun i j => if i < M.rows ∧ j < M.cols then M.coeff i j else 0

def transpose (M : Dense K) : Dense K := ofFn M.cols M.rows fun i j => M.coeff j i

/-- `M = M.selfadjointView<Eigen::Upper>()` -/
def mirrorUpper (M : Dense K) : Dense K :=
  ofFn M.rows M.cols fun i j => if i ≤ j then M.coeff i j else M.coeff j i

/-- `M.triangularView<Eigen::Upper>()` is replaced by the coefficients of `f`. -/
def setUpper (M : Dense K) (f : Nat → Nat → K) : Dense K :=
  ofFn M.rows M.cols fun i j => if i ≤ j then f i j else M.coeff i j

variable {M : Dense K} {i j : Nat}

@[simp] theorem rows_zero (rows cols : Nat) : (zero rows cols : Dense K).rows = rows := rfl
@[simp] theorem cols_zero (rows cols : Nat) : (zero rows cols : Dense K).cols = cols := rfl
@[simp] theorem rows_block (row col rows cols : Nat) : (M.block row col rows cols).rows = rows := rfl
@[simp] theorem cols_block (row col rows cols : Nat) : (M.block row col rows cols).cols = cols := rfl
@[simp] theorem rows_setBlock (row col : Nat) (B : Dense K) : (M.setBlock row col B).rows = M.rows :=
  rfl
@[simp] theorem cols_setBlock (row col : Nat) (B : Dense K) : (M.setBlock row col B).cols = M.cols :=
  rfl
@[simp] theorem rows_resize (rows cols : Nat) : (M.resize rows cols).rows = rows := rfl
@[simp] theorem cols_resize (rows cols : Nat) : (M.resize rows cols).cols = cols := rfl
@[simp] theorem rows_transpose : M.transpose.rows = M.cols := rfl
@[simp] theorem cols_transpose : M.transpose.cols = M.rows := rfl
@[simp] theorem rows_mirrorUpper : M.mirrorUpper.rows = M.rows := rfl
@[simp] theorem cols_mirrorUpper : M.mirrorUpper.cols = M.cols := rfl
@[simp] theorem rows_setUpper (f : Nat → Nat → K) : (M.setUpper f).rows = M.rows := rfl
@[simp] theorem cols_setUpper (f : Nat → Nat → K) : (M.setUpper f).cols = M.cols := rfl

theorem size_foldl {ι : Type} {step : Dense K → ι → Dense K}
    (hstep : ∀ M a, (step M a).rows = M.rows ∧ (step M a).cols = M.cols) (as : List ι) (M : Dense K) :
    (as.foldl step M).rows = M.rows ∧ (as.foldl step M).cols = M.cols := by
  induction as generalizing M with
  | nil => exact ⟨rfl, rfl⟩
  | cons a as ih =>
    obtain ⟨hrows, hcols⟩ := ih (step M a)
    exact ⟨hrows.trans (hstep M a).1, hcols.trans (hstep M a).2⟩

@[simp] theorem coeff_zero (rows cols i j : Nat) : (zero rows cols : Dense K).coeff i j = 0 := by
  unfold zero ofFn
  simp

theorem coeff_block {row col rows cols : Nat} (hi : i < rows) (hj : j < cols) :
    (M.block row col rows cols).coeff i j = M.coeff (row + i) (col + j) :=
  coeff_ofFn hi hj

theorem coeff_transpose : M.transpose.coeff i j = M.coeff j i := by
  by_cases hin : i < M.cols ∧ j < M.rows
  · exact coeff_ofFn hin.1 hin.2
  · rw [M.transpose.outside i j hin, M.outside j i (fun h => hin h.symm)]

theorem coeff_setBlock {row col : Nat} {B : Dense K} (hi : i < M.rows) (hj : j < M.cols) :
    (M.setBlock row col B).coeff i j =
      if row ≤ i ∧ i < row + B.rows ∧ col ≤ j ∧ j < col + B.cols then B.coeff (i - row) (j - col)
      else M.coeff i j :=
  coeff_ofFn hi hj

theorem coeff_resize {rows cols : Nat} (hi : i < rows) (hj : j < cols) :
    (M.resize rows cols).coeff i j = M.coeff i j := by
  unfold resize
  rw [coeff_ofFn hi hj]
  split
  · rfl
  · rename_i hout
    exact (M.outside i j hout).symm

theorem coeff_mirrorUpper (hi : i < M.rows) (hj : j < M.cols) :
    M.mirrorUpper.coeff i j = if i ≤ j then M.coeff i j else M.coeff j i :=
  coeff_ofFn hi hj

theorem coeff_setUpper {f : Nat → Nat → K} (hi : i < M.rows) (hj : j < M.cols) :
    (M.setUpper f).coeff i j = if i ≤ j then f i j else M.coeff i j :=
  coeff_ofFn hi hj

/-! ## Symmetry -/

structure Symmetric (M : Dense K) : Prop where
  square : M.rows = M.cols
  coeff_comm : ∀ i j, i < M.rows → j < M.rows → M.coeff i j = M.coeff j i

theorem symmetric_mirrorUpper (h : M.rows = M.cols) : M.mirrorUpper.Symmetric where
  square := h
  coeff_comm i j hi hj := by
    have hi' : i < M.rows := hi
    have hj' : j < M.rows := hj
    rw [coeff_mirrorUpper hi' (h ▸ hj'), coeff_mirrorUpper hj' (h ▸ hi')]
    by_cases hij : i ≤ j
    · by_cases hji : j ≤ i
      · rw [if_pos hij, if_pos hji, Nat.le_antisymm hij hji]
      · rw [if_pos hij, if_neg hji]
    · rw [if_neg hij, if_pos (Nat.le_of_not_le hij)]

theorem Symmetric.coeff_comm' (h : M.Symmetric) (i j : Nat) : M.coeff i j = M.coeff j i := by
  by_cases hin : i < M.rows ∧ j < M.rows
  · exact h.coeff_comm i j hin.1 hin.2
  · have hsquare := h.square
    rw [M.outside i j (fun hc => hin ⟨hc.1, hsquare ▸ hc.2⟩),
      M.outside j i (fun hc => hin ⟨hsquare ▸ hc.2, hc.1⟩)]

end Building

/-! ## Products -/

section Products

variable {K : Type} [CommRing K]

/-- `A * B` -/
def mul (A B : Dense K) : Dense K :=
  ofFn A.rows B.cols fun i j => ∑ k ∈ Finset.range A.cols, A.coeff i k * B.coeff k j

/-- `c * Identity(n, n)` -/
def scaledIdentity (n : Nat) (c : K) : Dense K := ofFn n n fun i j => if i = j then c else 0

def toMatrix (m n : Nat) (M : Dense K) : Matrix (Fin m) (Fin n) K := fun i j => M.coeff i j

def ofMatrix {m n : Nat} (M : Matrix (Fin m) (Fin n) K) : Dense K :=
  ofFn m n fun i j => if h : i < m ∧ j < n then M ⟨i, h.1⟩ ⟨j, h.2⟩ else 0

@[simp] theorem toMatrix_ofMatrix {m n : Nat} (M : Matrix (Fin m) (Fin n) K) :
    toMatrix m n (ofMatrix M) = M := by
  funext i j
  refine (coeff_ofFn i.isLt j.isLt).trans ?_
  rw [dif_pos ⟨i.isLt, j.isLt⟩]

theorem toMatrix_scaledIdentity (n : Nat) (c : K) :
    toMatrix n n (scaledIdentity n c) = c • (1 : Matrix (Fin n) (Fin n) K) := by
  funext i j
  refine (coeff_ofFn i.isLt j.isLt).trans ?_
  rw [Matrix.smul_apply, Matrix.one_apply, smul_eq_mul, mul_ite, mul_one, mul_zero]
  simp only [Fin.ext_iff]

theorem toMatrix_mul {m k n : Nat} {A B : Dense K} (hrows : A.rows = m) (hinner : A.cols = k)
    (hcols : B.cols = n) : toMatrix m n (mul A B) = toMatrix m k A * toMatrix k n B := by
  subst hrows hinner hcols
  funext i j
  rw [Matrix.mul_apply]
  have hcoeff : (mul A B).coeff i j = ∑ k ∈ Finset.range A.cols, A.coeff i k * B.coeff k j :=
    coeff_ofFn i.isLt j.isLt
  change (mul A B).coeff i j = _
  rw [hcoeff, Finset.sum_range]
  rfl

theorem toMatrix_transpose (m n : Nat) (M : Dense K) :
    toMatrix m n M.transpose = (toMatrix n m M).transpose := by
  funext i j
  exact coeff_transpose

theorem Symmetric.toMatrix_transpose {M : Dense K} (h : M.Symmetric) (n : Nat) :
    (toMatrix n n M).transpose = toMatrix n n M := by
  funext i j
  exact h.coeff_comm' j i

theorem eq_of_toMatrix {m n : Nat} {M N : Dense K} (hM : M.rows = m ∧ M.cols = n)
    (hN : N.rows = m ∧ N.cols = n) (h : toMatrix m n M = toMatrix m n N) : M = N := by
  refine ext_coeff (hM.1.trans hN.1.symm) (hM.2.trans hN.2.symm) fun i j hi hj => ?_
  exact congrFun (congrFun h ⟨i, hM.1 ▸ hi⟩) ⟨j, hM.2 ▸ hj⟩

theorem symmetric_of_toMatrix {n : Nat} {M : Dense K} (hrows : M.rows = n) (hcols : M.cols = n)
    (h : (toMatrix n n M).transpose = toMatrix n n M) : M.Symmetric where
  square := hrows.trans hcols.symm
  coeff_comm i j hi hj := (congrFun (congrFun h ⟨i, hrows ▸ hi⟩) ⟨j, hrows ▸ hj⟩).symm

theorem congruence_apply {m n : Nat} {A : Matrix (Fin m) (Fin n) K} (row : Fin m → (Nat → K) → K)
    (hrow : ∀ i f, ∑ k : Fin n, A i k * f k = row i f) (M : Dense K) (i j : Fin m) :
    (A * toMatrix n n M * A.transpose) i j = row j fun l => row i fun k => M.coeff k l := by
  rw [Matrix.mul_apply, ← hrow j fun l => row i fun k => M.coeff k l]
  refine Finset.sum_congr rfl fun l _ => ?_
  rw [Matrix.mul_apply, Matrix.transpose_apply, mul_comm]
  congr 1
  exact hrow i fun k => M.coeff k l

end Products

end Dense

end Bravo.Linear
