import Mathlib.Analysis.SpecialFunctions.Complex.Arg
import Mathlib.Analysis.SpecialFunctions.Trigonometric.Inverse
import Mathlib.Tactic
import Bravo.Basic.Numerals

/-! # `ov_type::Landmark`

The six ways a landmark stores its position, with `get_xyz` and `set_from_xyz` over the real
numbers. A landmark keeps a current value and a first estimate. The representations by angles and
the plain ones keep them apart; the two anchored forms with a bearing always read the current value
(`getXyz_setFromXyz_iff`).
-/

namespace Bravo.Types

/-! ## Representations -/

inductive Representation
  | global3D
  | globalFullInverseDepth
  | anchored3D
  | anchoredFullInverseDepth
  | anchoredMsckfInverseDepth
  | anchoredInverseDepthSingle
  | unknown
deriving DecidableEq, Repr

abbrev Representation.size : Representation → Nat
  | .anchoredInverseDepthSingle => 1
  | _ => 3

/-- The fields of a landmark that its position is computed from. The sizes that `set_value` and
`set_fej` assert are part of the type. -/
structure Landmark (rep : Representation) where
  value : Fin rep.size → ℝ
  fej : Fin rep.size → ℝ
  uvNormZero : Fin 3 → ℝ
  uvNormZeroFej : Fin 3 → ℝ

section Formulas

variable {rep : Representation}

/-- `(getfej) ? fej() : value()` -/
def Landmark.stored (l : Landmark rep) (getfej : Bool) : Fin rep.size → ℝ :=
  if getfej then l.fej else l.value

/-- `set_fej` or `set_value` -/
def Landmark.store (l : Landmark rep) (v : Fin rep.size → ℝ) (isfej : Bool) : Landmark rep :=
  if isfej then { l with fej := v } else { l with value := v }

/-! ## Formulas -/

noncomputable def atan2 (y x : ℝ) : ℝ := Complex.arg ⟨x, y⟩

/-- `p_FinG.norm()` -/
noncomputable def vectorNorm (p : Fin 3 → ℝ) : ℝ := √(p 0 ^ 2 + p 1 ^ 2 + p 2 ^ 2)

noncomputable def ofFullInverse (v : Fin 3 → ℝ) : Fin 3 → ℝ :=
  ![1 / v 2 * Real.cos (v 0) * Real.sin (v 1), 1 / v 2 * Real.sin (v 0) * Real.sin (v 1),
    1 / v 2 * Real.cos (v 1)]

noncomputable def toFullInverse (p : Fin 3 → ℝ) : Fin 3 → ℝ :=
  let g_rho := 1 / vectorNorm p
  let g_phi := Real.arccos (g_rho * p 2)
  let g_theta := atan2 (p 1) (p 0)
  ![g_theta, g_phi, g_rho]

noncomputable def ofMsckfInverse (v : Fin 3 → ℝ) : Fin 3 → ℝ :=
  ![1 / v 2 * v 0, 1 / v 2 * v 1, 1 / v 2]

noncomputable def toMsckfInverse (p : Fin 3 → ℝ) : Fin 3 → ℝ := ![p 0 / p 2, p 1 / p 2, 1 / p 2]

/-- `Landmark::get_xyz`. The last two anchored forms do not look at the flag. -/
noncomputable def Landmark.getXyz : {rep : Representation} → Landmark rep → Bool → Fin 3 → ℝ
  | .global3D, l, getfej | .anchored3D, l, getfej => l.stored getfej
  | .globalFullInverseDepth, l, getfej | .anchoredFullInverseDepth, l, getfej =>
    ofFullInverse (l.stored getfej)
  | .anchoredMsckfInverseDepth, l, _ => ofMsckfInverse l.value
  | .anchoredInverseDepthSingle, l, _ => fun i => 1 / l.value ⟨0, Nat.one_pos⟩ * l.uvNormZero i
  | .unknown, _, _ => 0

noncomputable def Landmark.setFromXyz :
    {rep : Representation} → Landmark rep → (Fin 3 → ℝ) → Bool → Landmark rep
  | .global3D, l, p, isfej | .anchored3D, l, p, isfej => l.store p isfej
  | .globalFullInverseDepth, l, p, isfej | .anchoredFullInverseDepth, l, p, isfej =>
    l.store (toFullInverse p) isfej
  | .anchoredMsckfInverseDepth, l, p, isfej => l.store (toMsckfInverse p) isfej
  | .anchoredInverseDepthSingle, l, p, isfej =>
    let bearing : Fin 3 → ℝ := fun i => 1 / p 2 * p i
    let l := if !isfej then { l with uvNormZero := bearing } else { l with uvNormZeroFej := bearing }
    l.store (fun _ => 1 / p 2) isfej
  | .unknown, l, _, _ => l

/-! ## Round trips of the formulas -/

theorem vectorNorm_sq (p : Fin 3 → ℝ) : vectorNorm p ^ 2 = p 0 ^ 2 + p 1 ^ 2 + p 2 ^ 2 := by
  unfold vectorNorm
  exact Real.sq_sqrt (by positivity)

theorem vectorNorm_pos {p : Fin 3 → ℝ} (hp : p ≠ 0) : 0 < vectorNorm p := by
  unfold vectorNorm
  obtain ⟨i, hi⟩ := Function.ne_iff.mp hp
  have hpos : 0 < p i ^ 2 := by
    have hne : p i ≠ 0 := hi
    positivity
  refine Real.sqrt_pos.mpr ?_
  fin_cases i <;> simp only [Fin.zero_eta, Fin.mk_one, Fin.reduceFinMk] at hpos <;>
    nlinarith [sq_nonneg (p 0), sq_nonneg (p 1), sq_nonneg (p 2)]

theorem sqrt_mul_cos_sin_atan2 (x y : ℝ) :
    √(x ^ 2 + y ^ 2) * Real.cos (atan2 y x) = x ∧ √(x ^ 2 + y ^ 2) * Real.sin (atan2 y x) = y := by
  have habs : ‖(⟨x, y⟩ : ℂ)‖ = √(x ^ 2 + y ^ 2) := by
    rw [Complex.norm_eq_sqrt_sq_add_sq]
  rw [← habs]
  exact ⟨Complex.norm_mul_cos_arg _, Complex.norm_mul_sin_arg _⟩

theorem ofFullInverse_toFullInverse {p : Fin 3 → ℝ} (hp : p ≠ 0) :
    ofFullInverse (toFullInverse p) = p := by
  have hn := vectorNorm_pos hp
  have hsq := vectorNorm_sq p
  -- The cosine of the polar angle is in range, so `acos` is undone.
  have hz : (1 / vectorNorm p * p 2) ^ 2 ≤ 1 := by
    rw [mul_pow, div_pow, one_pow, one_div, inv_mul_le_one₀ (by positivity), hsq]
    nlinarith [sq_nonneg (p 0), sq_nonneg (p 1)]
  obtain ⟨hlow, hhigh⟩ := abs_le.mp ((sq_le_one_iff_abs_le_one _).mp hz)
  have hcos : Real.cos (Real.arccos (1 / vectorNorm p * p 2)) = 1 / vectorNorm p * p 2 :=
    Real.cos_arccos hlow hhigh
  have hsin : Real.sin (Real.arccos (1 / vectorNorm p * p 2)) = √(p 0 ^ 2 + p 1 ^ 2) / vectorNorm p := by
    rw [Real.sin_arccos]
    have harg : 1 - (1 / vectorNorm p * p 2) ^ 2 = (p 0 ^ 2 + p 1 ^ 2) / vectorNorm p ^ 2 := by
      rw [eq_div_iff (by positivity), mul_pow, div_pow, one_pow, sub_mul, one_mul]
      have hcancel : 1 / vectorNorm p ^ 2 * p 2 ^ 2 * vectorNorm p ^ 2 = p 2 ^ 2 := by
        field_simp
      rw [hcancel, hsq]
      ring
    rw [harg, Real.sqrt_div (by positivity), Real.sqrt_sq hn.le]
  obtain ⟨hx, hy⟩ := sqrt_mul_cos_sin_atan2 (p 0) (p 1)
  ext i
  fin_cases i
  · have hstep : 1 / (1 / vectorNorm p) * Real.cos (atan2 (p 1) (p 0)) * (√(p 0 ^ 2 + p 1 ^ 2) / vectorNorm p) =
        √(p 0 ^ 2 + p 1 ^ 2) * Real.cos (atan2 (p 1) (p 0)) := by
      field_simp
    change 1 / (1 / vectorNorm p) * Real.cos (atan2 (p 1) (p 0)) *
      Real.sin (Real.arccos (1 / vectorNorm p * p 2)) = p 0
    rw [hsin]
    exact hstep.trans hx
  · have hstep : 1 / (1 / vectorNorm p) * Real.sin (atan2 (p 1) (p 0)) * (√(p 0 ^ 2 + p 1 ^ 2) / vectorNorm p) =
        √(p 0 ^ 2 + p 1 ^ 2) * Real.sin (atan2 (p 1) (p 0)) := by
      field_simp
    change 1 / (1 / vectorNorm p) * Real.sin (atan2 (p 1) (p 0)) *
      Real.sin (Real.arccos (1 / vectorNorm p * p 2)) = p 1
    rw [hsin]
    exact hstep.trans hy
  · have hstep : 1 / (1 / vectorNorm p) * (1 / vectorNorm p * p 2) = p 2 := by
      field_simp
    change 1 / (1 / vectorNorm p) * Real.cos (Real.arccos (1 / vectorNorm p * p 2)) = p 2
    rw [hcos]
    exact hstep

/-- The bearing form stores `p` exactly when it stores what `set_from_xyz` writes for it. -/
theorem ofMsckfInverse_eq_iff {v p : Fin 3 → ℝ} (hp : p 2 ≠ 0) :
    ofMsckfInverse v = p ↔ v = toMsckfInverse p := by
  constructor
  · intro h
    have h0 := congrFun h 0
    have h1 := congrFun h 1
    have h2 := congrFun h 2
    simp only [ofMsckfInverse, Matrix.cons_val] at h0 h1 h2
    have hv : v 2 ≠ 0 := by
      intro hzero
      rw [hzero, div_zero] at h2
      exact hp h2.symm
    have hinv : v 2 = 1 / p 2 := by
      rw [← h2, one_div_one_div]
    ext i
    fin_cases i
    · simp only [toMsckfInverse, Fin.zero_eta, Matrix.cons_val_zero]
      rw [← h0, ← h2]
      field_simp
    · simp only [toMsckfInverse, Fin.mk_one, Matrix.cons_val_one, Matrix.cons_val_zero]
      rw [← h1, ← h2]
      field_simp
    · simpa [toMsckfInverse] using hinv
  · rintro rfl
    ext i
    fin_cases i <;> simp [ofMsckfInverse, toMsckfInverse] <;> field_simp

theorem scaled_bearing_eq_iff {rho : ℝ} {bearing p : Fin 3 → ℝ} (hp : p 2 ≠ 0) :
    (fun i => 1 / rho * bearing i) = p ↔ rho ≠ 0 ∧ ∀ i, bearing i = rho * p i := by
  constructor
  · intro h
    have hrho : rho ≠ 0 := by
      intro hzero
      have h2 := congrFun h 2
      rw [hzero, div_zero, zero_mul] at h2
      exact hp h2.symm
    refine ⟨hrho, fun i => ?_⟩
    rw [← congrFun h i]
    field_simp
  · rintro ⟨hrho, hbearing⟩
    ext i
    rw [hbearing]
    field_simp

end Formulas

/-! ## Round trip of the landmark -/

section RoundTrip

variable {rep : Representation}

@[simp] theorem Landmark.stored_store (l : Landmark rep) (v : Fin rep.size → ℝ) (flag : Bool) :
    (l.store v flag).stored flag = v := by
  cases flag <;> rfl

@[simp] theorem Landmark.stored_store_not (l : Landmark rep) (v : Fin rep.size → ℝ) (flag : Bool) :
    (l.store v flag).stored (!flag) = l.stored (!flag) := by
  cases flag <;> rfl

/-- The points that the representation can hold: a norm for the angles, a depth for the bearings. -/
def Representation.Holds : Representation → (Fin 3 → ℝ) → Prop
  | .global3D, _ | .anchored3D, _ => True
  | .globalFullInverseDepth, p | .anchoredFullInverseDepth, p => p ≠ 0
  | .anchoredMsckfInverseDepth, p | .anchoredInverseDepthSingle, p => p 2 ≠ 0
  | .unknown, _ => False

/-- The two forms with a bearing are safe only while the current value already is that of `p`. The
first estimate does not matter. -/
def Landmark.KeepsApart : {rep : Representation} → Landmark rep → (Fin 3 → ℝ) → Prop
  | .anchoredMsckfInverseDepth, l, p => l.value = toMsckfInverse p
  | .anchoredInverseDepthSingle, l, p =>
    l.value ⟨0, Nat.one_pos⟩ ≠ 0 ∧ ∀ i, l.uvNormZero i = l.value ⟨0, Nat.one_pos⟩ * p i
  | _, _, _ => True

/-- What `set_from_xyz` promises: the flag that was set reads `p`, the other one reads as before. -/
def Landmark.RoundTrips (l : Landmark rep) (p : Fin 3 → ℝ) (fej : Bool) : Prop :=
  (l.setFromXyz p fej).getXyz fej = p ∧ (l.setFromXyz p fej).getXyz (!fej) = l.getXyz (!fej)

theorem msckf_roundTrips_iff (l : Landmark .anchoredMsckfInverseDepth) {p : Fin 3 → ℝ}
    (hp : p 2 ≠ 0) (fej : Bool) : l.RoundTrips p fej ↔ l.value = toMsckfInverse p := by
  have hwritten : ofMsckfInverse (toMsckfInverse p) = p := (ofMsckfInverse_eq_iff hp).mpr rfl
  cases fej with
  | true =>
    -- The first estimate is written and the current value is read, twice.
    change ofMsckfInverse l.value = p ∧ ofMsckfInverse l.value = ofMsckfInverse l.value ↔ _
    rw [ofMsckfInverse_eq_iff hp]
    exact and_iff_left rfl
  | false =>
    change ofMsckfInverse (toMsckfInverse p) = p ∧
      ofMsckfInverse (toMsckfInverse p) = ofMsckfInverse l.value ↔ _
    rw [hwritten, ← ofMsckfInverse_eq_iff hp]
    exact ⟨fun h => h.2.symm, fun h => ⟨rfl, h.symm⟩⟩

theorem single_roundTrips_iff (l : Landmark .anchoredInverseDepthSingle) {p : Fin 3 → ℝ}
    (hp : p 2 ≠ 0) (fej : Bool) :
    l.RoundTrips p fej ↔
      l.value ⟨0, Nat.one_pos⟩ ≠ 0 ∧ ∀ i, l.uvNormZero i = l.value ⟨0, Nat.one_pos⟩ * p i := by
  have hwritten : (fun i => 1 / (1 / p 2) * (1 / p 2 * p i)) = p := by
    ext i
    field_simp
  rw [← scaled_bearing_eq_iff hp]
  cases fej with
  | true =>
    change (fun i => 1 / l.value ⟨0, Nat.one_pos⟩ * l.uvNormZero i) = p ∧
      (fun i => 1 / l.value ⟨0, Nat.one_pos⟩ * l.uvNormZero i) = _ ↔ _
    exact and_iff_left rfl
  | false =>
    change (fun i => 1 / (1 / p 2) * (1 / p 2 * p i)) = p ∧
      (fun i => 1 / (1 / p 2) * (1 / p 2 * p i)) =
        (fun i => 1 / l.value ⟨0, Nat.one_pos⟩ * l.uvNormZero i) ↔ _
    rw [hwritten]
    exact ⟨fun h => h.2.symm, fun h => ⟨rfl, h.symm⟩⟩

/-- For a point the representation can hold, `get_xyz` undoes `set_from_xyz` under the same flag and
is unchanged under the other flag, exactly when the representation is none of the two forms with a
bearing or the current value already is that of the point. -/
theorem getXyz_setFromXyz_iff (l : Landmark rep) {p : Fin 3 → ℝ} (hp : rep.Holds p)
    (fej : Bool) : l.RoundTrips p fej ↔ l.KeepsApart p := by
  cases rep with
  | global3D | anchored3D =>
    exact ⟨fun _ => trivial, fun _ => ⟨l.stored_store p fej, l.stored_store_not p fej⟩⟩
  | globalFullInverseDepth | anchoredFullInverseDepth =>
    refine ⟨fun _ => trivial, fun _ => ⟨?_, ?_⟩⟩
    · change ofFullInverse ((l.store (toFullInverse p) fej).stored fej) = p
      rw [Landmark.stored_store]
      exact ofFullInverse_toFullInverse hp
    · change ofFullInverse ((l.store (toFullInverse p) fej).stored (!fej)) = _
      rw [Landmark.stored_store_not]
      rfl
  | anchoredMsckfInverseDepth => exact msckf_roundTrips_iff l hp fej
  | anchoredInverseDepthSingle => exact single_roundTrips_iff l hp fej
  | unknown => exact hp.elim

theorem getXyz_setFromXyz_iff_msckf :
    (⟨![0, 0, 1], ![0, 0, 1], 0, 0⟩ : Landmark .anchoredMsckfInverseDepth).RoundTrips
        ![0, 0, 2] true ↔
      (⟨![0, 0, 1], ![0, 0, 1], 0, 0⟩ : Landmark .anchoredMsckfInverseDepth).KeepsApart ![0, 0, 2] :=
  getXyz_setFromXyz_iff _ (by simp [Representation.Holds]) true

/-- A landmark at depth one whose first estimate is set to depth two still reads depth one. -/
theorem first_estimate_not_read :
    ¬ ∀ (rep : Representation) (l : Landmark rep) (p : Fin 3 → ℝ) (fej : Bool),
      rep.Holds p → l.RoundTrips p fej := by
  intro h
  have hread := (h .anchoredMsckfInverseDepth ⟨![0, 0, 1], ![0, 0, 1], 0, 0⟩ ![0, 0, 2] true
    (by simp [Representation.Holds])).1
  have hdepth := congrFun hread 2
  simp [Landmark.setFromXyz, Landmark.store, Landmark.getXyz, ofMsckfInverse] at hdepth

end RoundTrip

end Bravo.Types
