import Mathlib.Algebra.Order.Star.Real
import Mathlib.Data.Matrix.ColumnRowPartitioned
import Mathlib.LinearAlgebra.Matrix.PosDef
import Mathlib.LinearAlgebra.Matrix.SchurComplement

/-! # The joint covariance of a state and a measurement

A measurement `H x + noise` of chosen coordinates has one covariance together with the state
(`joint`). What is left of the state once the measurement is known, and the state with what the
measurement is solved for, are both read off it.
-/

namespace Bravo.Linear

open Matrix

section Joint

variable {ι κ μ ν : Type} [Fintype ι] [Fintype κ] [Fintype μ] [Fintype ν] [DecidableEq ι]
  [DecidableEq μ]

/-- The covariance of the state and of the measurement of its coordinates `pos`. -/
def joint (P : Matrix ι ι ℝ) (pos : κ → ι) (H : Matrix μ κ ℝ) (R : Matrix μ μ ℝ) :
    Matrix (ι ⊕ μ) (ι ⊕ μ) ℝ :=
  fromBlocks P (P.submatrix id pos * Hᵀ) (P.submatrix id pos * Hᵀ)ᵀ
    (H * P.submatrix pos pos * Hᵀ + R)

variable {P : Matrix ι ι ℝ} (pos : κ → ι) (H : Matrix μ κ ℝ) {R : Matrix μ μ ℝ}

theorem posSemidef_joint (hP : P.PosSemidef) (hR : R.PosSemidef) : (joint P pos H R).PosSemidef := by
  have hsymmetric : Pᵀ = P := by
    have hhermitian := hP.isHermitian.eq
    rwa [conjTranspose_eq_transpose_of_trivial] at hhermitian
  have hstate := (hP.submatrix (Sum.elim id pos)).mul_mul_conjTranspose_same
    (fromBlocks 1 0 0 H : Matrix (ι ⊕ μ) (ι ⊕ κ) ℝ)
  have hnoise := hR.mul_mul_conjTranspose_same (fromRows 0 1 : Matrix (ι ⊕ μ) μ ℝ)
  have hblocks : P.submatrix (Sum.elim id pos) (Sum.elim id pos) =
      fromBlocks P (P.submatrix id pos) (P.submatrix pos id) (P.submatrix pos pos) := by
    ext (i | i) (j | j) <;> rfl
  have hcross : (P.submatrix id pos)ᵀ = P.submatrix pos id := by
    rw [transpose_submatrix, hsymmetric]
  rw [hblocks, conjTranspose_eq_transpose_of_trivial, fromBlocks_transpose, fromBlocks_multiply,
    fromBlocks_multiply] at hstate
  rw [conjTranspose_eq_transpose_of_trivial, transpose_fromRows, fromRows_mul,
    fromRows_mul_fromCols] at hnoise
  have hsum := hstate.add hnoise
  rw [fromBlocks_add] at hsum
  unfold joint
  rw [transpose_mul, hcross, transpose_transpose]
  simpa using hsum

/-- What is left of the state once the measurement is known. -/
theorem posSemidef_sub_gain (hP : P.PosSemidef) (hR : R.PosDef) :
    (P - P.submatrix id pos * Hᵀ * (H * P.submatrix pos pos * Hᵀ + R)⁻¹ *
      (P.submatrix id pos * Hᵀ)ᵀ).PosSemidef := by
  have hjoint := posSemidef_joint pos H hP hR.posSemidef
  have hmeasured := (hP.submatrix pos).mul_mul_conjTranspose_same H
  rw [conjTranspose_eq_transpose_of_trivial] at hmeasured
  have hpd := PosDef.posSemidef_add hmeasured hR
  have := hpd.isUnit.invertible
  have hschur := PosDef.fromBlocks₂₂ P (P.submatrix id pos * Hᵀ) hpd
  rw [conjTranspose_eq_transpose_of_trivial] at hschur
  exact hschur.mp hjoint

/-- The state with what the measurement is solved for, whatever solves. -/
theorem posSemidef_solved (hP : P.PosSemidef) (hR : R.PosSemidef) (L : Matrix ν μ ℝ) :
    (fromBlocks P (-(P.submatrix id pos * Hᵀ) * Lᵀ) (-(P.submatrix id pos * Hᵀ) * Lᵀ)ᵀ
      (L * (H * P.submatrix pos pos * Hᵀ + R) * Lᵀ)).PosSemidef := by
  have hjoint := (posSemidef_joint pos H hP hR).mul_mul_conjTranspose_same
    (fromBlocks 1 0 0 (-L) : Matrix (ι ⊕ ν) (ι ⊕ μ) ℝ)
  unfold joint at hjoint
  rw [conjTranspose_eq_transpose_of_trivial, fromBlocks_transpose, fromBlocks_multiply,
    fromBlocks_multiply] at hjoint
  rw [transpose_mul, transpose_neg, transpose_transpose]
  simpa [Matrix.mul_assoc] using hjoint

end Joint

/-! ## Steps of some coordinates -/

section Steps

variable {R ι κ : Type} [CommRing R] [Fintype ι] [Fintype κ] [DecidableEq ι] [DecidableEq κ]
  {E : Matrix ι κ R} {A B Q S : Matrix κ κ R} {P : Matrix ι ι R}

/-- A step of the coordinates that `E` embeds; the others stay. -/
def stepOf (E : Matrix ι κ R) (A : Matrix κ κ R) : Matrix ι ι R := 1 + E * (A - 1) * Eᵀ

/-- The covariance after a step with noise. -/
def stepped (E : Matrix ι κ R) (A Q : Matrix κ κ R) (P : Matrix ι ι R) : Matrix ι ι R :=
  stepOf E A * P * (stepOf E A)ᵀ + E * Q * Eᵀ

theorem stepped_one_zero : stepped E 1 0 P = P := by
  simp [stepped, stepOf]

theorem stepOf_mul_embedding (hE : Eᵀ * E = 1) : stepOf E A * E = E * A := by
  calc stepOf E A * E = E + E * (A - 1) * (Eᵀ * E) := by
        rw [stepOf, Matrix.add_mul, Matrix.one_mul, Matrix.mul_assoc (E * (A - 1))]
    _ = E * A := by
        rw [hE, Matrix.mul_one, Matrix.mul_sub, Matrix.mul_one, add_sub_cancel]

theorem stepOf_mul_stepOf (hE : Eᵀ * E = 1) : stepOf E B * stepOf E A = stepOf E (B * A) := by
  calc stepOf E B * stepOf E A = stepOf E B + stepOf E B * E * (A - 1) * Eᵀ := by
        rw [stepOf, stepOf, Matrix.mul_add, Matrix.mul_one]
        simp only [Matrix.mul_assoc]
    _ = stepOf E (B * A) := by
        rw [stepOf_mul_embedding hE, stepOf, stepOf, add_assoc, ← Matrix.add_mul, Matrix.mul_assoc E B, ← Matrix.mul_add,
          Matrix.mul_sub, Matrix.mul_one]
        congr 3
        abel

/-- Two steps are one. -/
theorem stepped_stepped (hE : Eᵀ * E = 1) :
    stepped E B S (stepped E A Q P) = stepped E (B * A) (B * Q * Bᵀ + S) P := by
  have hnoise : stepOf E B * (E * Q * Eᵀ) * (stepOf E B)ᵀ = E * (B * Q * Bᵀ) * Eᵀ := by
    have hleft := @stepOf_mul_embedding _ _ _ _ _ _ _ _ E B hE
    have hright : Eᵀ * (stepOf E B)ᵀ = Bᵀ * Eᵀ := by
      rw [← transpose_mul, hleft, transpose_mul]
    calc stepOf E B * (E * Q * Eᵀ) * (stepOf E B)ᵀ = stepOf E B * E * Q * (Eᵀ * (stepOf E B)ᵀ) := by
          simp only [Matrix.mul_assoc]
      _ = E * (B * Q * Bᵀ) * Eᵀ := by
          rw [hleft, hright]
          simp only [Matrix.mul_assoc]
  unfold stepped
  rw [Matrix.mul_add, Matrix.add_mul, hnoise, Matrix.mul_add, Matrix.add_mul, add_assoc,
    ← stepOf_mul_stepOf hE, transpose_mul]
  simp only [Matrix.mul_assoc]

end Steps

end Bravo.Linear
