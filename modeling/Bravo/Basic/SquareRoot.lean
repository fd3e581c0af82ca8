import Bravo.Basic.Elimination
import Mathlib.Algebra.Order.Star.Real
import Mathlib.Data.Real.Basic
import Mathlib.LinearAlgebra.Matrix.PosDef
import Mathlib.LinearAlgebra.Matrix.SchurComplement
import Mathlib.Tactic.FieldSimp

/-! # Updates in square-root form

For a factor `L` of the prior and the whitened system `W = H L / σ`, the gain and the posterior through
`(1 + Wᵀ W)⁻¹` are those of the innovation form, of whatever rank the prior is, and the increment is the
least-squares solution on the range of the factor.
-/

namespace Bravo.Linear

open Matrix Elimination

section Identities

variable {K μ κ ν : Type} [Field K] [Fintype μ] [Fintype κ] [Fintype ν] [DecidableEq μ]
  [DecidableEq κ]

omit [Fintype ν] in
theorem inv_one_add_mul_transpose (W : Matrix μ κ K) (h : IsUnit (1 + Wᵀ * W).det) :
    (1 + Wᵀ * W)⁻¹ * Wᵀ = Wᵀ * (1 + W * Wᵀ)⁻¹ := by
  have h' : IsUnit (1 + W * Wᵀ).det := by rwa [det_one_add_mul_comm]
  have hpass : Wᵀ * (1 + W * Wᵀ) = (1 + Wᵀ * W) * Wᵀ := by
    simp only [Matrix.mul_add, Matrix.add_mul, Matrix.mul_one, Matrix.one_mul, Matrix.mul_assoc]
  calc (1 + Wᵀ * W)⁻¹ * Wᵀ
      = (1 + Wᵀ * W)⁻¹ * (Wᵀ * (1 + W * Wᵀ)) * (1 + W * Wᵀ)⁻¹ := by
        rw [Matrix.mul_assoc, Matrix.mul_assoc Wᵀ, Matrix.mul_nonsing_inv _ h', Matrix.mul_one]
    _ = Wᵀ * (1 + W * Wᵀ)⁻¹ := by
        rw [hpass, ← Matrix.mul_assoc, Matrix.nonsing_inv_mul _ h, Matrix.one_mul]

theorem inv_one_add_transpose_mul (W : Matrix μ κ K) (h : IsUnit (1 + Wᵀ * W).det) :
    (1 + Wᵀ * W)⁻¹ = 1 - Wᵀ * (1 + W * Wᵀ)⁻¹ * W := by
  simpa using inv_one_add_eq Wᵀ (1 : Matrix μ μ K) (by simpa using h)

omit [Fintype μ] [DecidableEq κ] in
theorem innovation_eq_smul (L : Matrix ν κ K) (H : Matrix μ ν K) {σ : K} (hσ : σ ≠ 0) :
    H * (L * Lᵀ) * Hᵀ + σ ^ 2 • (1 : Matrix μ μ K) =
      σ ^ 2 • (1 + (σ⁻¹ • (H * L)) * (σ⁻¹ • (H * L))ᵀ) := by
  have hunit : σ ^ 2 * (σ⁻¹ * σ⁻¹) = 1 := by field_simp
  rw [Matrix.transpose_smul, Matrix.smul_mul, Matrix.mul_smul, smul_smul, smul_add, smul_smul, hunit,
    one_smul, transpose_mul, add_comm]
  simp only [Matrix.mul_assoc]

omit [DecidableEq κ] in
theorem inv_innovation (L : Matrix ν κ K) (H : Matrix μ ν K) {σ : K} (hσ : σ ≠ 0) :
    (H * (L * Lᵀ) * Hᵀ + σ ^ 2 • (1 : Matrix μ μ K))⁻¹ =
      (σ⁻¹ * σ⁻¹) • (1 + (σ⁻¹ • (H * L)) * (σ⁻¹ • (H * L))ᵀ)⁻¹ := by
  rw [innovation_eq_smul L H hσ]
  by_cases h : IsUnit (1 + (σ⁻¹ • (H * L)) * (σ⁻¹ • (H * L))ᵀ).det
  · have hunit : σ ^ 2 * (σ⁻¹ * σ⁻¹) = 1 := by field_simp
    refine inv_eq_right_inv ?_
    rw [Matrix.smul_mul, Matrix.mul_smul, smul_smul, Matrix.mul_nonsing_inv _ h, hunit, one_smul]
  · have h' : ¬ IsUnit (σ ^ 2 • (1 + (σ⁻¹ • (H * L)) * (σ⁻¹ • (H * L))ᵀ)).det := by
      rw [det_smul, IsUnit.mul_iff]
      exact fun hboth => h hboth.2
    rw [nonsing_inv_apply_not_isUnit _ h, nonsing_inv_apply_not_isUnit _ h', smul_zero]

/-- **The gain in square-root form.** -/
theorem squareRoot_gain (L : Matrix ν κ K) (H : Matrix μ ν K) {σ : K} (hσ : σ ≠ 0)
    (h : IsUnit (1 + (σ⁻¹ • (H * L))ᵀ * (σ⁻¹ • (H * L))).det) :
    L * ((1 + (σ⁻¹ • (H * L))ᵀ * (σ⁻¹ • (H * L)))⁻¹ * (σ⁻¹ • (H * L))ᵀ) =
      σ • (L * Lᵀ * Hᵀ * (H * (L * Lᵀ) * Hᵀ + σ ^ 2 • (1 : Matrix μ μ K))⁻¹) := by
  have hscale : σ * (σ⁻¹ * σ⁻¹) = σ⁻¹ := by field_simp
  rw [inv_innovation L H hσ, inv_one_add_mul_transpose _ h, Matrix.mul_smul, smul_smul, hscale,
    Matrix.transpose_smul, Matrix.smul_mul, Matrix.mul_smul, Matrix.transpose_mul]
  simp only [Matrix.mul_assoc]

/-- **The posterior in square-root form.** -/
theorem squareRoot_posterior (L : Matrix ν κ K) (H : Matrix μ ν K) {σ : K} (hσ : σ ≠ 0)
    (h : IsUnit (1 + (σ⁻¹ • (H * L))ᵀ * (σ⁻¹ • (H * L))).det) :
    L * ((1 + (σ⁻¹ • (H * L))ᵀ * (σ⁻¹ • (H * L)))⁻¹ * Lᵀ) =
      L * Lᵀ - L * Lᵀ * Hᵀ * (H * (L * Lᵀ) * Hᵀ + σ ^ 2 • (1 : Matrix μ μ K))⁻¹ * (H * (L * Lᵀ)) := by
  rw [inv_one_add_transpose_mul _ h, inv_innovation L H hσ, Matrix.sub_mul, Matrix.one_mul,
    Matrix.mul_sub]
  congr 1
  simp only [Matrix.transpose_smul, Matrix.smul_mul, Matrix.mul_smul, smul_smul, Matrix.transpose_mul,
    Matrix.mul_assoc]

end Identities

section Real

variable {μ κ ν : Type} [Fintype μ] [Fintype κ] [Fintype ν] [DecidableEq μ] [DecidableEq κ]

omit [Fintype ν] [DecidableEq μ] in
theorem posDef_one_add_transpose_mul (W : Matrix μ κ ℝ) : (1 + Wᵀ * W).PosDef := by
  have hsquare := posSemidef_conjTranspose_mul_self W
  rw [conjTranspose_eq_transpose_of_trivial] at hsquare
  exact PosDef.one.add_posSemidef hsquare

omit [DecidableEq μ] in
theorem posSemidef_squareRoot_posterior (L : Matrix ν κ ℝ) (W : Matrix μ κ ℝ) :
    (L * ((1 + Wᵀ * W)⁻¹ * Lᵀ)).PosSemidef := by
  have h := (posDef_one_add_transpose_mul W).inv.posSemidef.mul_mul_conjTranspose_same L
  rwa [conjTranspose_eq_transpose_of_trivial, Matrix.mul_assoc] at h

omit [DecidableEq μ] in
theorem normalEquations_minimize (W : Matrix μ κ ℝ) (w : μ → ℝ) {y : κ → ℝ}
    (hy : (1 + Wᵀ * W) *ᵥ y = Wᵀ *ᵥ w) (z : κ → ℝ) :
    (w - W *ᵥ y) ⬝ᵥ (w - W *ᵥ y) + y ⬝ᵥ y ≤ (w - W *ᵥ z) ⬝ᵥ (w - W *ᵥ z) + z ⬝ᵥ z := by
  obtain ⟨d, rfl⟩ : ∃ d, z = y + d := ⟨z - y, by abel⟩
  -- The gradient at `y` is zero.
  have hgradient : (w - W *ᵥ y) ⬝ᵥ (W *ᵥ d) = y ⬝ᵥ d := by
    rw [add_mulVec, one_mulVec] at hy
    have hy' : Wᵀ *ᵥ (w - W *ᵥ y) = y := by
      rw [mulVec_sub, ← hy, mulVec_mulVec]
      abel
    calc (w - W *ᵥ y) ⬝ᵥ (W *ᵥ d) = (Wᵀ *ᵥ (w - W *ᵥ y)) ⬝ᵥ d := by
          rw [dotProduct_mulVec, mulVec_transpose]
      _ = y ⬝ᵥ d := by rw [hy']
  have hsplit : w - W *ᵥ (y + d) = (w - W *ᵥ y) - W *ᵥ d := by
    rw [mulVec_add]
    abel
  have hmeasured : 0 ≤ (W *ᵥ d) ⬝ᵥ (W *ᵥ d) := Finset.sum_nonneg fun i _ => mul_self_nonneg _
  have hprior : 0 ≤ d ⬝ᵥ d := Finset.sum_nonneg fun i _ => mul_self_nonneg _
  have hcomm : (W *ᵥ d) ⬝ᵥ (w - W *ᵥ y) = (w - W *ᵥ y) ⬝ᵥ (W *ᵥ d) := dotProduct_comm _ _
  rw [hsplit]
  simp only [sub_dotProduct, dotProduct_sub, add_dotProduct, dotProduct_add] at hgradient hcomm ⊢
  have hcomm' : d ⬝ᵥ y = y ⬝ᵥ d := dotProduct_comm _ _
  linarith

end Real

end Bravo.Linear
