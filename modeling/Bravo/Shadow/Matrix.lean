import Bravo.Trace.Canonical

/-! # Dense matrices by their coefficients

The matrix operations that are not arithmetic: building a matrix, resizing it and copying a block
from one to another. A matrix is determined by its sizes and its coefficients (`MatrixXd.ext_coeff`),
and every operation here comes with the coefficients of its result.
-/

namespace Bravo.Trace

/-! ## Building -/

theorem length_flatMap_range {α : Type} (rows cols : Nat) (f : Nat → Nat → α) :
    ((List.range rows).flatMap fun i => (List.range cols).map (f i)).length = rows * cols := by
  rw [List.length_flatMap]
  simp

/-- The matrix with the coefficients `f`. A size no index can hold gives the empty matrix. -/
def MatrixXd.ofFn (rows cols : Nat) (f : Nat → Nat → Binary64) : MatrixXd :=
  if h : rows < indexLimit ∧ cols < indexLimit then
    ⟨rows, cols, (List.range rows).flatMap fun i => (List.range cols).map (f i),
      length_flatMap_range rows cols f, h.1, h.2⟩
  else .empty

/-- The vector with the coefficients `f`. -/
def VectorXd.ofFn (rows : Nat) (f : Nat → Binary64) : VectorXd :=
  if h : rows < indexLimit then ⟨(List.range rows).map f, by simpa using h⟩ else .empty

def VectorXd.coeff (v : VectorXd) (row : Nat) : Binary64 := v.coeffs.getD row ⟨0⟩

section OfFn

variable {rows cols : Nat} {f : Nat → Nat → Binary64}

@[simp] theorem MatrixXd.rows_ofFn (hr : rows < indexLimit) (hc : cols < indexLimit) :
    (MatrixXd.ofFn rows cols f).rows = rows := by
  rw [MatrixXd.ofFn, dif_pos ⟨hr, hc⟩]

@[simp] theorem MatrixXd.cols_ofFn (hr : rows < indexLimit) (hc : cols < indexLimit) :
    (MatrixXd.ofFn rows cols f).cols = cols := by
  rw [MatrixXd.ofFn, dif_pos ⟨hr, hc⟩]

theorem getElem?_flatMap_range {α : Type} {g : Nat → Nat → α} :
    ∀ {rows i j : Nat}, i < rows → j < cols →
      ((List.range rows).flatMap fun i => (List.range cols).map (g i))[i * cols + j]? =
        some (g i j) := by
  intro rows
  induction rows with
  | zero =>
    intro i j hi
    omega
  | succ n ih =>
    intro i j hi hj
    rw [List.range_succ, List.flatMap_append]
    have hlen := length_flatMap_range n cols g
    by_cases hlast : i < n
    · have hbound : i * cols + j < n * cols := by
        calc i * cols + j < i * cols + cols := by omega
          _ = (i + 1) * cols := by ring
          _ ≤ n * cols := Nat.mul_le_mul_right _ hlast
      rw [List.getElem?_append_left (by omega)]
      exact ih hlast hj
    · have hi' : i = n := by omega
      subst hi'
      rw [List.getElem?_append_right (by omega), hlen, Nat.add_sub_cancel_left]
      simp [hj]

theorem MatrixXd.coeff_ofFn (hr : rows < indexLimit) (hc : cols < indexLimit) {i j : Nat}
    (hi : i < rows) (hj : j < cols) : (MatrixXd.ofFn rows cols f).coeff i j = f i j := by
  unfold MatrixXd.coeff
  rw [MatrixXd.cols_ofFn hr hc, MatrixXd.ofFn, dif_pos ⟨hr, hc⟩]
  simp [List.getD, getElem?_flatMap_range hi hj]

theorem VectorXd.rows_ofFn {g : Nat → Binary64} (hr : rows < indexLimit) :
    (VectorXd.ofFn rows g).rows = rows := by
  rw [VectorXd.ofFn, dif_pos hr]
  simp [VectorXd.rows]

theorem VectorXd.coeff_ofFn {g : Nat → Binary64} (hr : rows < indexLimit) {i : Nat}
    (hi : i < rows) : (VectorXd.ofFn rows g).coeff i = g i := by
  rw [VectorXd.ofFn, dif_pos hr]
  simp [VectorXd.coeff, hi]

end OfFn

/-! ## Extensionality -/

theorem MatrixXd.ext_coeff {M N : MatrixXd} (hrows : M.rows = N.rows) (hcols : M.cols = N.cols)
    (h : ∀ i j, i < M.rows → j < M.cols → M.coeff i j = N.coeff i j) : M = N := by
  have hcoeffs : M.coeffs = N.coeffs := by
    apply List.ext_getElem
    · rw [M.length_eq, N.length_eq, hrows, hcols]
    · intro k hk hk'
      -- `k` is the position of the coefficient in row `k / cols` and column `k % cols`.
      have hkM : k < M.rows * M.cols := M.length_eq ▸ hk
      have hpos : 0 < M.cols := Nat.pos_of_mul_pos_left (Nat.lt_of_le_of_lt (Nat.zero_le k) hkM)
      have hdiv : k / M.cols < M.rows := (Nat.div_lt_iff_lt_mul hpos).mpr hkM
      have hmod : k % M.cols < M.cols := Nat.mod_lt _ hpos
      have heq := h (k / M.cols) (k % M.cols) hdiv hmod
      have hsplit : k / M.cols * M.cols + k % M.cols = k := by
        rw [Nat.mul_comm]
        exact Nat.div_add_mod k M.cols
      unfold MatrixXd.coeff at heq
      rw [← hcols, hsplit] at heq
      simpa [List.getD, hk, hk'] using heq
  cases M
  cases N
  simp_all

theorem VectorXd.ext_coeff {v w : VectorXd} (hrows : v.rows = w.rows)
    (h : ∀ i, i < v.rows → v.coeff i = w.coeff i) : v = w := by
  have hcoeffs : v.coeffs = w.coeffs := by
    apply List.ext_getElem hrows
    intro k hk hk'
    simpa [VectorXd.coeff, List.getD, hk, hk'] using h k hk
  cases v
  cases w
  simp_all

/-! ## Operations -/

def MatrixXd.zero (rows cols : Nat) : MatrixXd := .ofFn rows cols fun _ _ => ⟨0⟩

def VectorXd.zero (rows : Nat) : VectorXd := .ofFn rows fun _ => ⟨0⟩

/-- `conservativeResize`; the new coefficients are whatever the storage holds. -/
def MatrixXd.conservativeResize (M : MatrixXd) (rows cols : Nat)
    (storage : Nat → Nat → Binary64) : MatrixXd :=
  .ofFn rows cols fun i j => if i < M.rows ∧ j < M.cols then M.coeff i j else storage i j

def VectorXd.conservativeResize (v : VectorXd) (rows : Nat) (storage : Nat → Binary64) : VectorXd :=
  .ofFn rows fun i => if i < v.rows then v.coeff i else storage i

/-- `M.block(row, col, rows, cols) = source.block(sourceRow, sourceCol, rows, cols)`, with the
coefficients of the source block given by `source`. -/
def MatrixXd.setBlock (M : MatrixXd) (row col rows cols : Nat) (source : Nat → Nat → Binary64) :
    MatrixXd :=
  .ofFn M.rows M.cols fun i j =>
    if row ≤ i ∧ i < row + rows ∧ col ≤ j ∧ j < col + cols then source (i - row) (j - col)
    else M.coeff i j

/-- `v.segment(row, rows) = source` -/
def VectorXd.setSegment (v : VectorXd) (row rows : Nat) (source : Nat → Binary64) : VectorXd :=
  .ofFn v.rows fun i => if row ≤ i ∧ i < row + rows then source (i - row) else v.coeff i

section Operations

variable {M : MatrixXd} {v : VectorXd} {i j : Nat}

variable {source : Nat → Nat → Binary64} {row col rows cols : Nat}

@[simp] theorem MatrixXd.rows_setBlock : (M.setBlock row col rows cols source).rows = M.rows :=
  MatrixXd.rows_ofFn M.rows_lt M.cols_lt

@[simp] theorem MatrixXd.cols_setBlock : (M.setBlock row col rows cols source).cols = M.cols :=
  MatrixXd.cols_ofFn M.rows_lt M.cols_lt

theorem MatrixXd.coeff_setBlock
    (hi : i < M.rows) (hj : j < M.cols) :
    (M.setBlock row col rows cols source).coeff i j =
      if row ≤ i ∧ i < row + rows ∧ col ≤ j ∧ j < col + cols then source (i - row) (j - col)
      else M.coeff i j :=
  MatrixXd.coeff_ofFn M.rows_lt M.cols_lt hi hj

@[simp] theorem VectorXd.rows_setSegment {row rows : Nat} {source : Nat → Binary64} :
    (v.setSegment row rows source).rows = v.rows :=
  VectorXd.rows_ofFn v.rows_lt

theorem VectorXd.coeff_setSegment {row rows : Nat} {source : Nat → Binary64} (hi : i < v.rows) :
    (v.setSegment row rows source).coeff i =
      if row ≤ i ∧ i < row + rows then source (i - row) else v.coeff i :=
  VectorXd.coeff_ofFn v.rows_lt hi

end Operations

end Bravo.Trace
