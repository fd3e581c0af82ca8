import Mathlib.Analysis.Calculus.Deriv.Inv
import Mathlib.Analysis.Matrix.Normed
import Mathlib.Analysis.Normed.Module.FiniteDimension
import Mathlib.LinearAlgebra.Matrix.Notation
import Mathlib.LinearAlgebra.Matrix.Rank
import Mathlib.Tactic
import Bravo.Basic.Numerals

/-! # `ov_type::JPLQuat`

The update of an orientation by left multiplication, over the real numbers. Normalisation and the
sign convention scale a quaternion, and a rotation does not see the scale; what is left is the bare
product, which is associative. Two updates in a row are one (`rot_update_add`), and the chart of the
second differs from the chart of the first by `chartBlock` to first order (`hasFDerivAt_transition`).
-/

namespace Bravo.Types

open Matrix

/-! ## Quaternions -/

def skewX (w : Fin 3 → ℝ) : Matrix (Fin 3) (Fin 3) ℝ :=
  !![0, -w 2, w 1; w 2, 0, -w 0; -w 1, w 0, 0]

variable (q : Fin 4 → ℝ)

/-- `q.block(0, 0, 3, 1)` -/
def vectorPart : Fin 3 → ℝ := ![q 0, q 1, q 2]

def quat2Rot : Matrix (Fin 3) (Fin 3) ℝ :=
  (2 * q 3 ^ 2 - 1) • (1 : Matrix (Fin 3) (Fin 3) ℝ) - (2 * q 3) • skewX (vectorPart q) +
    (2 : ℝ) • vecMulVec (vectorPart q) (vectorPart q)

noncomputable def quatLength : ℝ := √(q 0 ^ 2 + q 1 ^ 2 + q 2 ^ 2 + q 3 ^ 2)

/-- `quatnorm`: the scalar part is made nonnegative, then the length one. -/
noncomputable def quatnorm : Fin 4 → ℝ :=
  let q_t := if q 3 < 0 then -q else q
  (quatLength q_t)⁻¹ • q_t

/-- The matrix `Qm` of `quat_multiply`, from its four blocks. -/
def leftMatrix : Matrix (Fin 4) (Fin 4) ℝ :=
  let B := q 3 • (1 : Matrix (Fin 3) (Fin 3) ℝ) - skewX (vectorPart q)
  !![B 0 0, B 0 1, B 0 2, q 0;
     B 1 0, B 1 1, B 1 2, q 1;
     B 2 0, B 2 1, B 2 2, q 2;
     -q 0, -q 1, -q 2, q 3]

/-- `quat_multiply`, which ends with the steps of `quatnorm`. -/
noncomputable def quatMultiply (q p : Fin 4 → ℝ) : Fin 4 → ℝ := quatnorm (leftMatrix q *ᵥ p)

/-- `dq << .5 * dx, 1.0` -/
noncomputable def perturbation (dx : Fin 3 → ℝ) : Fin 4 → ℝ := ![dx 0 / 2, dx 1 / 2, dx 2 / 2, 1]

variable (value : Fin 4 → ℝ)

/-- `JPLQuat::update` on the value. -/
noncomputable def JPLQuat.update (dx : Fin 3 → ℝ) : Fin 4 → ℝ :=
  quatMultiply (quatnorm (perturbation dx)) value

/-! ## Scale -/

theorem leftMatrix_mulVec (q p : Fin 4 → ℝ) :
    leftMatrix q *ᵥ p =
      ![q 3 * p 0 + q 2 * p 1 - q 1 * p 2 + q 0 * p 3, q 3 * p 1 - q 2 * p 0 + q 0 * p 2 + q 1 * p 3,
        q 3 * p 2 + q 1 * p 0 - q 0 * p 1 + q 2 * p 3, q 3 * p 3 - q 0 * p 0 - q 1 * p 1 - q 2 * p 2] := by
  ext i
  fin_cases i <;>
    simp [leftMatrix, skewX, vectorPart, mulVec, dotProduct, Fin.sum_univ_four] <;> ring

theorem leftMatrix_smul (s : ℝ) (q p : Fin 4 → ℝ) :
    leftMatrix (s • q) *ᵥ p = s • (leftMatrix q *ᵥ p) := by
  rw [leftMatrix_mulVec, leftMatrix_mulVec]
  ext i
  fin_cases i <;> simp <;> ring

theorem leftMatrix_assoc (a b c : Fin 4 → ℝ) :
    leftMatrix a *ᵥ (leftMatrix b *ᵥ c) = leftMatrix (leftMatrix a *ᵥ b) *ᵥ c := by
  simp only [leftMatrix_mulVec]
  ext i
  fin_cases i <;> simp <;> ring

theorem quatLength_smul (s : ℝ) (q : Fin 4 → ℝ) : quatLength (s • q) = |s| * quatLength q := by
  have hsq : (s • q) 0 ^ 2 + (s • q) 1 ^ 2 + (s • q) 2 ^ 2 + (s • q) 3 ^ 2 =
      s ^ 2 * (q 0 ^ 2 + q 1 ^ 2 + q 2 ^ 2 + q 3 ^ 2) := by
    simp only [Pi.smul_apply, smul_eq_mul]
    ring
  unfold quatLength
  rw [hsq, Real.sqrt_mul (sq_nonneg s), Real.sqrt_sq_eq_abs]

theorem quatLength_neg : quatLength (-q) = quatLength q := by
  simpa using quatLength_smul (-1) q

theorem quatLength_eq_zero {q : Fin 4 → ℝ} (h : quatLength q = 0) : q = 0 := by
  have hsum : q 0 ^ 2 + q 1 ^ 2 + q 2 ^ 2 + q 3 ^ 2 = 0 :=
    (Real.sqrt_eq_zero (by positivity)).mp h
  ext i
  have hsq : q i ^ 2 = 0 := by
    fin_cases i <;> simp only [Fin.zero_eta, Fin.mk_one, Fin.reduceFinMk] <;>
      nlinarith [sq_nonneg (q 0), sq_nonneg (q 1), sq_nonneg (q 2), sq_nonneg (q 3)]
  exact pow_eq_zero_iff two_ne_zero |>.mp hsq

theorem quatnorm_eq_smul : ∃ s : ℝ, s ≠ 0 ∧ quatnorm q = s • q := by
  by_cases hq : quatLength q = 0
  · refine ⟨1, one_ne_zero, ?_⟩
    rw [quatLength_eq_zero hq]
    simp [quatnorm]
  · by_cases hneg : q 3 < 0
    · refine ⟨-(quatLength q)⁻¹, by simpa using hq, ?_⟩
      simp [quatnorm, hneg, quatLength_neg]
    · exact ⟨(quatLength q)⁻¹, inv_ne_zero hq, by simp [quatnorm, hneg]⟩

theorem quatnorm_smul {s : ℝ} (hs : s ≠ 0) (q : Fin 4 → ℝ) :
    quatnorm (s • q) = quatnorm q ∨ quatnorm (s • q) = -quatnorm q := by
  have hunit : |s|⁻¹ * s = 1 ∨ |s|⁻¹ * s = -1 := by
    rcases lt_or_gt_of_ne hs with hneg | hpos
    · right
      rw [abs_of_neg hneg]
      field_simp
    · left
      rw [abs_of_pos hpos]
      field_simp
  -- Both sides are a sign times the same vector.
  have hsigned : ∀ p : Fin 4 → ℝ, quatnorm p = (quatLength p)⁻¹ • p ∨
      quatnorm p = -((quatLength p)⁻¹ • p) := by
    intro p
    by_cases hneg : p 3 < 0
    · exact .inr (by simp [quatnorm, hneg, quatLength_neg])
    · exact .inl (by simp [quatnorm, hneg])
  have hscaled : (quatLength (s • q))⁻¹ • (s • q) = (|s|⁻¹ * s) • ((quatLength q)⁻¹ • q) := by
    rw [quatLength_smul, smul_smul, smul_smul, mul_inv]
    congr 1
    ring
  rcases hsigned (s • q) with hleft | hleft <;> rcases hsigned q with hright | hright <;>
    rcases hunit with hone | hone <;> rw [hleft, hright, hscaled, hone] <;> simp

theorem quat2Rot_neg : quat2Rot (-q) = quat2Rot q := by
  ext i j
  fin_cases i <;> fin_cases j <;>
    simp [quat2Rot, skewX, vectorPart]

theorem quat2Rot_quatnorm_smul {s : ℝ} (hs : s ≠ 0) (q : Fin 4 → ℝ) :
    quat2Rot (quatnorm (s • q)) = quat2Rot (quatnorm q) := by
  rcases quatnorm_smul hs q with h | h
  · rw [h]
  · rw [h, quat2Rot_neg]

/-! ## Two updates in a row -/

theorem rot_update (dx : Fin 3 → ℝ) : quat2Rot (JPLQuat.update value dx) =
      quat2Rot (quatnorm (leftMatrix (perturbation dx) *ᵥ value)) := by
  obtain ⟨s, hs, hscale⟩ := quatnorm_eq_smul (perturbation dx)
  unfold JPLQuat.update quatMultiply
  rw [hscale, leftMatrix_smul, quat2Rot_quatnorm_smul hs]

theorem rot_update_update (d dx : Fin 3 → ℝ) :
    quat2Rot (JPLQuat.update (JPLQuat.update value d) dx) =
      quat2Rot (quatnorm
        (leftMatrix (leftMatrix (perturbation dx) *ᵥ perturbation d) *ᵥ value)) := by
  obtain ⟨s, hs, hscale⟩ := quatnorm_eq_smul (perturbation d)
  obtain ⟨t, ht, hinner⟩ := quatnorm_eq_smul (leftMatrix (s • perturbation d) *ᵥ value)
  have hfirst : JPLQuat.update value d = (t * s) • (leftMatrix (perturbation d) *ᵥ value) := by
    unfold JPLQuat.update quatMultiply
    rw [hscale, hinner, leftMatrix_smul, smul_smul]
  rw [rot_update, hfirst, mulVec_smul, quat2Rot_quatnorm_smul (mul_ne_zero ht hs), leftMatrix_assoc]

/-- `1 + |d|^2/4 + (e.d)/4` -/
noncomputable def chartScale (d e : Fin 3 → ℝ) : ℝ := 1 + (d ⬝ᵥ d) / 4 + (e ⬝ᵥ d) / 4

/-- The error that, behind an update by `d`, amounts to the error `d + e`. -/
noncomputable def transition (d e : Fin 3 → ℝ) : Fin 3 → ℝ :=
  (chartScale d e)⁻¹ • ((1 - (1 / 2 : ℝ) • skewX d) *ᵥ e)

theorem mulVec_one_sub_skewX (d e : Fin 3 → ℝ) :
    (1 - (1 / 2 : ℝ) • skewX d) *ᵥ e =
      ![e 0 - (d 1 * e 2 - d 2 * e 1) / 2, e 1 - (d 2 * e 0 - d 0 * e 2) / 2,
        e 2 - (d 0 * e 1 - d 1 * e 0) / 2] := by
  ext i
  fin_cases i <;> simp [skewX, mulVec, dotProduct, Fin.sum_univ_three] <;> ring

variable (d : Fin 3 → ℝ)

theorem dotProduct_self_nonneg : 0 ≤ d ⬝ᵥ d :=
  Finset.sum_nonneg fun i _ => mul_self_nonneg (d i)

theorem perturbation_transition {d e : Fin 3 → ℝ} (hscale : chartScale d e ≠ 0) :
    leftMatrix (perturbation (transition d e)) *ᵥ perturbation d =
      ((1 + (d ⬝ᵥ d) / 4) / chartScale d e) • perturbation (d + e) := by
  have hdot : d ⬝ᵥ d = d 0 * d 0 + d 1 * d 1 + d 2 * d 2 := by
    simp [dotProduct, Fin.sum_univ_three]
  have hexpand : chartScale d e =
      1 + (d 0 * d 0 + d 1 * d 1 + d 2 * d 2) / 4 + (e 0 * d 0 + e 1 * d 1 + e 2 * d 2) / 4 := by
    simp [chartScale, dotProduct, Fin.sum_univ_three]
  rw [leftMatrix_mulVec, transition, mulVec_one_sub_skewX, hdot]
  ext i
  fin_cases i <;> simp [perturbation] <;> field_simp <;> rw [hexpand] <;> ring

theorem rot_update_add {d e : Fin 3 → ℝ} (hscale : 0 < chartScale d e) :
    quat2Rot (JPLQuat.update value (d + e)) =
      quat2Rot (JPLQuat.update (JPLQuat.update value d) (transition d e)) := by
  have hpos : 0 < 1 + (d ⬝ᵥ d) / 4 := by
    have hnonneg := dotProduct_self_nonneg d
    linarith
  rw [rot_update, rot_update_update, perturbation_transition hscale.ne', leftMatrix_smul,
    quat2Rot_quatnorm_smul (div_pos hpos hscale).ne']

/-! ## The derivative of the transition -/

/-- The block of the orientation columns: `(I - skew(d)/2) / (1 + |d|^2/4)`. -/
noncomputable def chartBlock : Matrix (Fin 3) (Fin 3) ℝ :=
  (1 + (1 / 4 : ℝ) * (d ⬝ᵥ d))⁻¹ • (1 - (1 / 2 : ℝ) • skewX d)

noncomputable def linearOf (M : Matrix (Fin 3) (Fin 3) ℝ) : (Fin 3 → ℝ) →L[ℝ] (Fin 3 → ℝ) :=
  LinearMap.toContinuousLinearMap M.mulVecLin

theorem chartScale_zero : chartScale d 0 = 1 + (1 / 4 : ℝ) * (d ⬝ᵥ d) := by
  unfold chartScale
  rw [zero_dotProduct]
  ring

theorem chartScale_zero_pos : 0 < chartScale d 0 := by
  have hnonneg := dotProduct_self_nonneg d
  rw [chartScale_zero]
  linarith

theorem differentiable_chartScale : Differentiable ℝ (chartScale d) := by
  unfold chartScale dotProduct
  fun_prop

theorem hasFDerivAt_transition : HasFDerivAt (transition d) (linearOf (chartBlock d)) 0 := by
  have hlinear : HasFDerivAt (fun e => (1 - (1 / 2 : ℝ) • skewX d) *ᵥ e)
      (linearOf (1 - (1 / 2 : ℝ) • skewX d)) 0 :=
    (linearOf (1 - (1 / 2 : ℝ) • skewX d)).hasFDerivAt
  have hinv : DifferentiableAt ℝ (fun e => (chartScale d e)⁻¹) 0 :=
    (differentiable_chartScale d).differentiableAt.inv (chartScale_zero_pos d).ne'
  have hproduct := hinv.hasFDerivAt.smul hlinear
  refine hproduct.congr_fderiv ?_
  ext e i
  -- The derivative of the scale meets the linear part at zero.
  simp [linearOf, chartBlock, chartScale_zero]

/-- Whatever is measured of the orientation: its derivative in the chart of the second update, times
the block, is its derivative in the chart of the first. -/
theorem hasFDerivAt_rot_update {E : Type} [NormedAddCommGroup E] [NormedSpace ℝ E]
    (f : Matrix (Fin 3) (Fin 3) ℝ → E) (value : Fin 4 → ℝ) (d : Fin 3 → ℝ) {D : (Fin 3 → ℝ) →L[ℝ] E}
    (hD : HasFDerivAt (fun e => f (quat2Rot (JPLQuat.update (JPLQuat.update value d) e))) D 0) :
    HasFDerivAt (fun e => f (quat2Rot (JPLQuat.update value (d + e))))
      (D.comp (linearOf (chartBlock d))) 0 := by
  have hzero : transition d 0 = 0 := by
    simp [transition]
  have hcomp := HasFDerivAt.comp (0 : Fin 3 → ℝ) (by rwa [hzero]) (hasFDerivAt_transition d)
  refine hcomp.congr_of_eventuallyEq ?_
  have hnear : ∀ᶠ e in nhds (0 : Fin 3 → ℝ), 0 < chartScale d e :=
    (differentiable_chartScale d).continuous.continuousAt.eventually
      (lt_mem_nhds (chartScale_zero_pos d))
  filter_upwards [hnear] with e he
  exact congrArg f (rot_update_add value he)

end Bravo.Types
