import Mathlib.Algebra.Order.Floor.Semifield
import Mathlib.Data.Rat.Floor
import Mathlib.Tactic

/-! # Linear interpolation of a sorted list

The value between two entries of a nondecreasing list at a rational rank. It stays between the two entries and
grows with the rank.
-/

namespace Bravo

section Interpolation

def entry (xs : List Nat) (i : Nat) : ℚ := (xs.getD i 0 : Nat)

/-- The value at rank `h`, on the line between the entries below and above it. -/
def atRank (xs : List Nat) (h : ℚ) : ℚ :=
  entry xs ⌊h⌋₊ + (h - ⌊h⌋₊) * (entry xs ⌈h⌉₊ - entry xs ⌊h⌋₊)

/-- The linear quantile: the value at rank `(n - 1) * q`. -/
def interpolate (xs : List Nat) (q : ℚ) : ℚ := atRank xs ((xs.length - 1 : ℚ) * q)

variable {xs : List Nat}

theorem entry_le (hs : xs.Pairwise (· ≤ ·)) {i j : Nat} (hij : i ≤ j) (hj : j < xs.length) :
    entry xs i ≤ entry xs j := by
  have hi : i < xs.length := lt_of_le_of_lt hij hj
  unfold entry
  rw [List.getD_eq_getElem?_getD, List.getD_eq_getElem?_getD, List.getElem?_eq_getElem hi,
    List.getElem?_eq_getElem hj]
  rcases Nat.eq_or_lt_of_le hij with rfl | hlt
  · exact le_rfl
  · exact_mod_cast List.pairwise_iff_getElem.mp hs i j hi hj hlt

theorem atRank_between (hs : xs.Pairwise (· ≤ ·)) {h : ℚ} (h0 : 0 ≤ h) (hmax : ⌈h⌉₊ < xs.length) :
    entry xs ⌊h⌋₊ ≤ atRank xs h ∧ atRank xs h ≤ entry xs ⌈h⌉₊ := by
  have hle := entry_le hs (Nat.floor_le_ceil h) hmax
  have hlow : (⌊h⌋₊ : ℚ) ≤ h := Nat.floor_le h0
  have hhigh : h - ⌊h⌋₊ ≤ 1 := by
    have := Nat.lt_floor_add_one h
    linarith
  have hspan : 0 ≤ entry xs ⌈h⌉₊ - entry xs ⌊h⌋₊ := sub_nonneg.mpr hle
  have hprod : 0 ≤ (h - ⌊h⌋₊) * (entry xs ⌈h⌉₊ - entry xs ⌊h⌋₊) := mul_nonneg (sub_nonneg.mpr hlow) hspan
  have hprod' := mul_le_mul_of_nonneg_right hhigh hspan
  unfold atRank
  constructor <;> linarith

theorem atRank_mono (hs : xs.Pairwise (· ≤ ·)) {h h' : ℚ} (h0 : 0 ≤ h) (hle : h ≤ h')
    (hmax : ⌈h'⌉₊ < xs.length) : atRank xs h ≤ atRank xs h' := by
  have hceil : ⌈h⌉₊ ≤ ⌈h'⌉₊ := Nat.ceil_mono hle
  have hfloor : ⌊h⌋₊ ≤ ⌊h'⌋₊ := Nat.floor_mono hle
  have hbetween := atRank_between hs h0 (lt_of_le_of_lt hceil hmax)
  have hbetween' := atRank_between hs (le_trans h0 hle) hmax
  rcases Nat.eq_or_lt_of_le hfloor with heq | hlt
  · have hlow : (⌊h⌋₊ : ℚ) ≤ h := Nat.floor_le h0
    rcases Nat.eq_or_lt_of_le (Nat.floor_le_ceil h) with hint | hnext
    · -- The lower rank is an entry.
      calc atRank xs h ≤ entry xs ⌈h⌉₊ := hbetween.2
        _ = entry xs ⌊h'⌋₊ := by rw [← hint, heq]
        _ ≤ atRank xs h' := hbetween'.1
    · -- Both ranks lie between the same two entries.
      have hsame : ⌈h'⌉₊ = ⌈h⌉₊ := by
        have := Nat.ceil_le_floor_add_one h'
        omega
      have hspan : 0 ≤ entry xs ⌈h⌉₊ - entry xs ⌊h⌋₊ :=
        sub_nonneg.mpr (entry_le hs (Nat.floor_le_ceil h) (lt_of_le_of_lt hceil hmax))
      unfold atRank
      rw [hsame, ← heq]
      have := mul_le_mul_of_nonneg_right (sub_le_sub_right hle (⌊h⌋₊ : ℚ)) hspan
      linarith
  · calc atRank xs h ≤ entry xs ⌈h⌉₊ := hbetween.2
      _ ≤ entry xs ⌊h'⌋₊ := by
          refine entry_le hs ?_ (lt_of_le_of_lt (Nat.floor_le_ceil h') hmax)
          have := Nat.ceil_le_floor_add_one h
          omega
      _ ≤ atRank xs h' := hbetween'.1

theorem ceil_rank_lt (hne : xs ≠ []) {q : ℚ} (hq : q ≤ 1) : ⌈(xs.length - 1 : ℚ) * q⌉₊ < xs.length := by
  have hpos : 0 < xs.length := List.length_pos_iff.mpr hne
  have hcast : ((xs.length - 1 : Nat) : ℚ) = (xs.length : ℚ) - 1 := by
    rw [Nat.cast_sub hpos]
    norm_num
  have hle : ⌈(xs.length - 1 : ℚ) * q⌉₊ ≤ xs.length - 1 := by
    rw [Nat.ceil_le, hcast]
    have hn : (0 : ℚ) ≤ (xs.length : ℚ) - 1 := by rw [← hcast]; positivity
    calc ((xs.length : ℚ) - 1) * q ≤ ((xs.length : ℚ) - 1) * 1 := mul_le_mul_of_nonneg_left hq hn
      _ = (xs.length : ℚ) - 1 := mul_one _
  omega

theorem interpolate_mono (hs : xs.Pairwise (· ≤ ·)) (hne : xs ≠ []) {q q' : ℚ} (h0 : 0 ≤ q) (hle : q ≤ q')
    (h1 : q' ≤ 1) : interpolate xs q ≤ interpolate xs q' := by
  have hpos : 0 < xs.length := List.length_pos_iff.mpr hne
  have hn : (0 : ℚ) ≤ (xs.length : ℚ) - 1 := by
    have : (1 : ℚ) ≤ xs.length := by exact_mod_cast hpos
    linarith
  exact atRank_mono hs (mul_nonneg hn h0) (mul_le_mul_of_nonneg_left hle hn) (ceil_rank_lt hne h1)

theorem atRank_div (xs : List Nat) (m : Nat) {d : Nat} (hd : 0 < d) :
    atRank xs (m / d) = entry xs (m / d) +
      ((m % d : Nat) : ℚ) / d * (entry xs (if m % d = 0 then m / d else m / d + 1) - entry xs (m / d)) := by
  have hd' : (d : ℚ) ≠ 0 := by exact_mod_cast hd.ne'
  have hsplit : (m : ℚ) / d = ((m / d : Nat) : ℚ) + ((m % d : Nat) : ℚ) / d := by
    have hmod : (m : ℚ) = d * ((m / d : Nat) : ℚ) + ((m % d : Nat) : ℚ) := by exact_mod_cast (Nat.div_add_mod m d).symm
    rw [div_eq_iff hd', add_mul, div_mul_cancel₀ _ hd', mul_comm]
    exact hmod
  have hfloor : ⌊(m : ℚ) / d⌋₊ = m / d := Nat.floor_div_eq_div m d
  have hceil : ⌈(m : ℚ) / d⌉₊ = if m % d = 0 then m / d else m / d + 1 := by
    split_ifs with hrem
    · rw [hsplit, hrem]
      simp
    · have hpos : 0 < m % d := Nat.pos_of_ne_zero hrem
      rw [Nat.ceil_eq_iff (Nat.succ_ne_zero _)]
      have hlt : ((m % d : Nat) : ℚ) / d ≤ 1 := by
        rw [div_le_one (by exact_mod_cast hd)]
        exact_mod_cast (Nat.mod_lt m hd).le
      have hgt : 0 < ((m % d : Nat) : ℚ) / d := div_pos (by exact_mod_cast hpos) (by exact_mod_cast hd)
      rw [hsplit]
      constructor
      · simpa using hgt
      · push_cast
        linarith
  unfold atRank
  rw [hfloor, hceil]
  congr 2
  linarith

end Interpolation

end Bravo
