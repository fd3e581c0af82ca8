import Bravo.Basic.Rotation
import Bravo.Types.JPLQuat

/-! # Quaternions and rotations

`rot_2_quat` over the real numbers, with no result where it divides by zero, beside `quat_2_Rot` and
`quat_multiply`. A rotation determines the products of the entries of its quaternion (`products`), a symmetric
matrix of rank one and trace one, and each branch of `rot_2_quat` reads off the row with the largest diagonal
entry.
-/

namespace Bravo.Types

open Matrix

/-! ## The code -/

noncomputable def quotient (a b : ℝ) : Option ℝ := if b = 0 then none else some (a / b)

/-- The four branches of `rot_2_quat`. -/
noncomputable def rotBranch (rot : Matrix3 ℝ) : Option (Fin 4 → ℝ) :=
  let T := rot.trace
  if rot 0 0 ≥ T ∧ rot 0 0 ≥ rot 1 1 ∧ rot 0 0 ≥ rot 2 2 then do
    let q0 := √((1 + 2 * rot 0 0 - T) / 4)
    let s ← quotient 1 (4 * q0)
    return ![q0, s * (rot 0 1 + rot 1 0), s * (rot 0 2 + rot 2 0), s * (rot 1 2 - rot 2 1)]
  else if rot 1 1 ≥ T ∧ rot 1 1 ≥ rot 0 0 ∧ rot 1 1 ≥ rot 2 2 then do
    let q1 := √((1 + 2 * rot 1 1 - T) / 4)
    let s ← quotient 1 (4 * q1)
    return ![s * (rot 0 1 + rot 1 0), q1, s * (rot 1 2 + rot 2 1), s * (rot 2 0 - rot 0 2)]
  else if rot 2 2 ≥ T ∧ rot 2 2 ≥ rot 0 0 ∧ rot 2 2 ≥ rot 1 1 then do
    let q2 := √((1 + 2 * rot 2 2 - T) / 4)
    let s ← quotient 1 (4 * q2)
    return ![s * (rot 0 2 + rot 2 0), s * (rot 1 2 + rot 2 1), q2, s * (rot 0 1 - rot 1 0)]
  else do
    let q3 := √((1 + T) / 4)
    let s ← quotient 1 (4 * q3)
    return ![s * (rot 1 2 - rot 2 1), s * (rot 2 0 - rot 0 2), s * (rot 0 1 - rot 1 0), q3]

/-- `rot_2_quat` -/
noncomputable def rot2Quat (rot : Matrix3 ℝ) : Option (Fin 4 → ℝ) := do
  let q ← rotBranch rot
  let q := if q 3 < 0 then -q else q
  if quatLength q = 0 then none else return (quatLength q)⁻¹ • q

/-! ## The products of the entries -/

/-- What the products of the entries of a quaternion are, read off its rotation. -/
noncomputable def products (R : Matrix3 ℝ) : Matrix (Fin 4) (Fin 4) ℝ :=
  (1 / 4 : ℝ) • !![1 + R 0 0 - R 1 1 - R 2 2, R 0 1 + R 1 0, R 0 2 + R 2 0, R 1 2 - R 2 1;
    R 0 1 + R 1 0, 1 + R 1 1 - R 0 0 - R 2 2, R 1 2 + R 2 1, R 2 0 - R 0 2;
    R 0 2 + R 2 0, R 1 2 + R 2 1, 1 + R 2 2 - R 0 0 - R 1 1, R 0 1 - R 1 0;
    R 1 2 - R 2 1, R 2 0 - R 0 2, R 0 1 - R 1 0, 1 + R 0 0 + R 1 1 + R 2 2]

def HasProducts (q : Fin 4 → ℝ) (R : Matrix3 ℝ) : Prop := ∀ j k, q j * q k = products R j k

variable {q p : Fin 4 → ℝ} {R : Matrix3 ℝ}

theorem quatLength_eq_one : quatLength q = 1 ↔ q 0 ^ 2 + q 1 ^ 2 + q 2 ^ 2 + q 3 ^ 2 = 1 := by
  rw [quatLength, Real.sqrt_eq_one]

theorem HasProducts.neg (h : HasProducts q R) : HasProducts (-q) R := fun j k => by
  rw [Pi.neg_apply, Pi.neg_apply, neg_mul_neg, h]

theorem HasProducts.length (h : HasProducts q R) : quatLength q = 1 := by
  rw [quatLength_eq_one, sq, sq, sq, sq, h, h, h, h]
  simp [products]
  ring

theorem HasProducts.rotation (h : HasProducts q R) : quat2Rot q = R := by
  have h00 := h 0 0
  have h01 := h 0 1
  have h02 := h 0 2
  have h03 := h 0 3
  have h11 := h 1 1
  have h12 := h 1 2
  have h13 := h 1 3
  have h22 := h 2 2
  have h23 := h 2 3
  have h33 := h 3 3
  simp [products] at h00 h01 h02 h03 h11 h12 h13 h22 h23 h33
  ext i j
  fin_cases i <;> fin_cases j <;> simp [quat2Rot, skewX, vectorPart] <;> linarith

theorem hasProducts_quat2Rot (h : quatLength q = 1) : HasProducts q (quat2Rot q) := by
  have hunit := quatLength_eq_one.mp h
  intro j k
  fin_cases j <;> fin_cases k <;> simp [products, quat2Rot, skewX, vectorPart] <;> linarith

theorem HasProducts.eq_or_neg (hq : HasProducts q R) (hp : HasProducts p R) : p = q ∨ p = -q := by
  have hsame : ∀ j k, p j * p k = q j * q k := fun j k => (hp j k).trans (hq j k).symm
  -- an entry that is not zero fixes the sign of all the others
  obtain ⟨j, hj⟩ : ∃ j, q j ≠ 0 := by
    by_contra hzero
    have hlength := hq.length
    simp [quatLength, not_exists_not.mp hzero] at hlength
  rcases mul_self_eq_mul_self_iff.mp (hsame j j) with hsign | hsign
  · refine .inl (funext fun k => mul_left_cancel₀ hj ?_)
    rw [← hsame, hsign]
  · refine .inr (funext fun k => mul_left_cancel₀ hj ?_)
    rw [Pi.neg_apply, mul_neg, ← hsame, hsign, neg_mul, neg_neg]

/-! ## The branches -/

def RankOne (R : Matrix3 ℝ) : Prop :=
  ∀ i j k, products R i i * products R j k = products R i j * products R i k

theorem HasProducts.rankOne (h : HasProducts q R) : RankOne R := fun i j k => by
  rw [← h, ← h, ← h, ← h]
  ring

theorem rankOne_of_rotation (h : Orthogonal R) (hdet : R.det = 1) : RankOne R := by
  -- every minor of a rotation is one of its entries, so the minors of the products are linear in them
  have hcofactor : ∀ i j, R.adjugate i j = R j i := fun i j => by
    rw [h.adjugate, hdet, one_smul, transpose_apply]
  have c00 := hcofactor 0 0
  have c01 := hcofactor 0 1
  have c02 := hcofactor 0 2
  have c10 := hcofactor 1 0
  have c11 := hcofactor 1 1
  have c12 := hcofactor 1 2
  have c20 := hcofactor 2 0
  have c21 := hcofactor 2 1
  have c22 := hcofactor 2 2
  simp [adjugate_fin_three] at c00 c01 c02 c10 c11 c12 c20 c21 c22
  have r00 := h.row 0 0
  have r11 := h.row 1 1
  have r22 := h.row 2 2
  have r01 := h.row 0 1
  have r02 := h.row 0 2
  have r12 := h.row 1 2
  have k00 := h.column 0 0
  have k11 := h.column 1 1
  have k22 := h.column 2 2
  have k01 := h.column 0 1
  have k02 := h.column 0 2
  have k12 := h.column 1 2
  simp at r00 r11 r22 r01 r02 r12 k00 k11 k22 k01 k02 k12
  intro i j k
  fin_cases i <;> fin_cases j <;> fin_cases k <;> simp [products] <;> grind

noncomputable def rowOf (R : Matrix3 ℝ) (i : Fin 4) : Fin 4 → ℝ := fun j => products R i j / √(products R i i)

theorem hasProducts_rowOf (h : RankOne R) {i : Fin 4} (hpos : 0 < products R i i) :
    HasProducts (rowOf R i) R := by
  intro j k
  show products R i j / _ * (products R i k / _) = _
  rw [div_mul_div_comm, Real.mul_self_sqrt hpos.le, ← h, mul_div_cancel_left₀ _ hpos.ne']

theorem branch_eq (i : Fin 4) {d : ℝ} {v : ℝ → Fin 4 → ℝ} (hpos : 0 < d) (hd : d = products R i i)
    (hv : ∀ s j, v s j = if j = i then √d else s * (4 * products R i j)) :
    ∃ i, 0 < products R i i ∧ (do let s ← quotient 1 (4 * √d); return v s) = some (rowOf R i) := by
  have hroot : 0 < √d := Real.sqrt_pos.mpr hpos
  refine ⟨i, hd ▸ hpos, ?_⟩
  rw [quotient, if_neg (mul_pos four_pos hroot).ne']
  refine congrArg some (funext fun j => ?_)
  rw [hv, rowOf, ← hd]
  split_ifs with hj
  · rw [hj, ← hd, Real.div_sqrt]
  · field_simp

/-- Each branch reads off a row whose diagonal entry is positive: it is the largest, and their sum is one. -/
theorem rotBranch_eq (R : Matrix3 ℝ) : ∃ i, 0 < products R i i ∧ rotBranch R = some (rowOf R i) := by
  unfold rotBranch
  simp only [trace_fin_three, ge_iff_le]
  split_ifs with h0 h1 h2
  · exact branch_eq 0 (by linarith) (by simp [products]; ring) fun s j => by fin_cases j <;> simp [products]
  · exact branch_eq 1 (by linarith) (by simp [products]; ring) fun s j => by fin_cases j <;> simp [products]
  · exact branch_eq 2 (by linarith) (by simp [products]; ring) fun s j => by fin_cases j <;> simp [products]
  · -- the largest of the three is below the trace, which is thus positive
    have htrace : 0 < R 0 0 + R 1 1 + R 2 2 := by
      by_contra hle
      rcases le_total (R 0 0) (R 1 1) with h01 | h01 <;> rcases le_total (R 1 1) (R 2 2) with h12 | h12 <;>
        rcases le_total (R 0 0) (R 2 2) with h02 | h02
      all_goals grind
    exact branch_eq 3 (by linarith) (by simp [products]; ring) fun s j => by fin_cases j <;> simp [products]

theorem RankOne.rot2Quat (h : RankOne R) : ∃ q, rot2Quat R = some q ∧ 0 ≤ q 3 ∧ HasProducts q R := by
  obtain ⟨i, hpos, hbranch⟩ := rotBranch_eq R
  have hrow := hasProducts_rowOf h hpos
  have hunit : ∀ q, HasProducts q R →
      (if quatLength q = 0 then none else some ((quatLength q)⁻¹ • q)) = some q := fun q hq => by
    rw [hq.length, if_neg one_ne_zero, inv_one, one_smul]
  unfold Types.rot2Quat
  rw [hbranch]
  by_cases hneg : rowOf R i 3 < 0
  · have hflip : 0 ≤ (-rowOf R i) 3 := (neg_pos.mpr hneg).le
    refine ⟨-rowOf R i, ?_, hflip, hrow.neg⟩
    simpa [hneg] using hunit _ hrow.neg
  · refine ⟨rowOf R i, ?_, not_lt.mp hneg, hrow⟩
    simpa [hneg] using hunit _ hrow

/-! ## The product -/

/-- `quat_2_Rot` with a homogeneous diagonal. -/
def homogeneous (q : Fin 4 → ℝ) : Matrix3 ℝ :=
  (2 * q 3 ^ 2 - (q 0 ^ 2 + q 1 ^ 2 + q 2 ^ 2 + q 3 ^ 2)) • (1 : Matrix3 ℝ) - (2 * q 3) • skewX (vectorPart q) +
    (2 : ℝ) • vecMulVec (vectorPart q) (vectorPart q)

theorem quat2Rot_eq_homogeneous (h : quatLength q = 1) : quat2Rot q = homogeneous q := by
  rw [homogeneous, quatLength_eq_one.mp h, quat2Rot]

theorem homogeneous_mul (q p : Fin 4 → ℝ) :
    homogeneous (leftMatrix q *ᵥ p) = homogeneous q * homogeneous p := by
  rw [leftMatrix_mulVec]
  ext i j
  rw [Matrix.mul_apply, Fin.sum_univ_three]
  fin_cases i <;> fin_cases j <;> simp [homogeneous, skewX, vectorPart] <;> ring

theorem quatLength_mul (hq : quatLength q = 1) (hp : quatLength p = 1) : quatLength (leftMatrix q *ᵥ p) = 1 := by
  rw [quatLength_eq_one] at hq hp ⊢
  calc _ = (q 0 ^ 2 + q 1 ^ 2 + q 2 ^ 2 + q 3 ^ 2) * (p 0 ^ 2 + p 1 ^ 2 + p 2 ^ 2 + p 3 ^ 2) := by
        rw [leftMatrix_mulVec]
        simp
        ring
    _ = 1 := by rw [hq, hp, one_mul]

theorem quat2Rot_quatMultiply (hq : quatLength q = 1) (hp : quatLength p = 1) :
    quat2Rot (quatMultiply q p) = quat2Rot q * quat2Rot p := by
  have hlength := quatLength_mul hq hp
  -- the product is a unit already, and both of its signs are the same rotation
  have hsign : quat2Rot (quatMultiply q p) = quat2Rot (leftMatrix q *ᵥ p) := by
    unfold quatMultiply quatnorm
    split_ifs
    · simp [quatLength_neg, hlength, quat2Rot_neg]
    · simp [hlength]
  rw [hsign, quat2Rot_eq_homogeneous hlength, homogeneous_mul, ← quat2Rot_eq_homogeneous hq,
    ← quat2Rot_eq_homogeneous hp]

/-! ## The primitives -/

/-- A rotation goes through its quaternion unchanged, the product of quaternions is that of the rotations, and a
quaternion comes back from its rotation up to the sign. -/
theorem quaternion_primitives :
    (∀ R : Matrix3 ℝ, Orthogonal R → R.det = 1 →
      ∃ q, rot2Quat R = some q ∧ quatLength q = 1 ∧ 0 ≤ q 3 ∧ quat2Rot q = R) ∧
      (∀ q p, quatLength q = 1 → quatLength p = 1 → quat2Rot (quatMultiply q p) = quat2Rot q * quat2Rot p) ∧
      ∀ q, quatLength q = 1 → rot2Quat (quat2Rot q) = some q ∨ rot2Quat (quat2Rot q) = some (-q) := by
  refine ⟨fun R h hdet => ?_, fun q p hq hp => quat2Rot_quatMultiply hq hp, fun q hq => ?_⟩
  · obtain ⟨q, hresult, hsign, hproducts⟩ := (rankOne_of_rotation h hdet).rot2Quat
    exact ⟨q, hresult, hproducts.length, hsign, hproducts.rotation⟩
  · have hproducts := hasProducts_quat2Rot hq
    obtain ⟨p, hresult, -, hp⟩ := hproducts.rankOne.rot2Quat
    rcases hproducts.eq_or_neg hp with rfl | rfl
    · exact .inl hresult
    · exact .inr hresult

example : rot2Quat !![1, 0, 0; 0, -1, 0; 0, 0, -1] = some ![1, 0, 0, 0] := by
  have hbranch : rotBranch !![1, 0, 0; 0, -1, 0; 0, 0, -1] = some ![1, 0, 0, 0] := by
    simp [rotBranch, quotient, trace_fin_three]
    norm_num
  simp [rot2Quat, hbranch, quatLength]

end Bravo.Types
