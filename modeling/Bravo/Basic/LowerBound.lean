import Mathlib.Data.List.Sort
import Mathlib.Tactic

/-! # Lower bounds and merges of sorted lists

The lower bound of a value in a nondecreasing list is the first position whose entry is not below the value.
It is what the bisection of a library and a loop that halves an interval both compute, and the two positions
around it are enough to find the nearest entry (`exists_candidate`). The last part is the merge that
intersects two increasing lists.
-/

namespace Bravo.LowerBound

open List

section Bounds

variable {α : Type} [LinearOrder α]

/-- Every entry before the position is below the value, and none from it on. -/
structure IsLowerBound (xs : List α) (x : α) (i : Nat) : Prop where
  le_length : i ≤ xs.length
  below : ∀ j a, xs[j]? = some a → j < i → a < x
  above : ∀ j a, xs[j]? = some a → i ≤ j → x ≤ a

theorem IsLowerBound.unique {xs : List α} {x : α} {i j : Nat} (hi : IsLowerBound xs x i)
    (hj : IsLowerBound xs x j) : i = j := by
  have key : ∀ {i j : Nat}, IsLowerBound xs x i → IsLowerBound xs x j → ¬ i < j := by
    intro i j hi hj hlt
    have hlen : i < xs.length := lt_of_lt_of_le hlt hj.le_length
    have hget : xs[i]? = some xs[i] := getElem?_eq_getElem hlen
    exact absurd (hi.above i _ hget le_rfl) (not_le.mpr (hj.below i _ hget hlt))
  exact le_antisymm (not_lt.mp (key hj hi)) (not_lt.mp (key hi hj))

/-- `bisect.bisect_left` of a nondecreasing list. -/
def bisectLeft (xs : List α) (x : α) : Nat := (xs.takeWhile (· < x)).length

theorem sorted_getElem? {xs : List α} (hs : xs.Pairwise (· ≤ ·)) {j k : Nat} {a b : α} (hj : xs[j]? = some a)
    (hk : xs[k]? = some b) (hjk : j ≤ k) : a ≤ b := by
  obtain ⟨hjlen, rfl⟩ := List.getElem?_eq_some_iff.mp hj
  obtain ⟨hklen, rfl⟩ := List.getElem?_eq_some_iff.mp hk
  rcases Nat.eq_or_lt_of_le hjk with rfl | hlt
  · exact le_rfl
  · exact pairwise_iff_getElem.mp hs j k hjlen hklen hlt

theorem isLowerBound_bisectLeft {xs : List α} (hs : xs.Pairwise (· ≤ ·)) (x : α) :
    IsLowerBound xs x (bisectLeft xs x) := by
  induction xs with
  | nil => exact ⟨le_rfl, by simp, by simp⟩
  | cons a as ih =>
    obtain ⟨hle, has⟩ := pairwise_cons.mp hs
    by_cases h : a < x
    · have hpos : bisectLeft (a :: as) x = bisectLeft as x + 1 := by simp [bisectLeft, h]
      rw [hpos]
      refine ⟨Nat.succ_le_succ (ih has).le_length, ?_, ?_⟩
      · rintro (_ | j) b hb hlt
        · obtain rfl : a = b := by simpa using hb
          exact h
        · exact (ih has).below j b (by simpa using hb) (by omega)
      · rintro (_ | j) b hb hle'
        · omega
        · exact (ih has).above j b (by simpa using hb) (by omega)
    · have hzero : bisectLeft (a :: as) x = 0 := by simp [bisectLeft, h]
      rw [hzero]
      refine ⟨Nat.zero_le _, by omega, fun j b hb _ => ?_⟩
      have hab : a ≤ b := sorted_getElem? hs (getElem?_cons_zero) hb (Nat.zero_le j)
      exact le_trans (not_lt.mp h) hab

end Bounds

/-! ## The nearest entry -/

section Nearest

variable {xs : List ℤ} {t : ℤ}

/-- The pair (distance, position) of one entry comes not after that of another. -/
def NotAfter (t a : ℤ) (j : Nat) (b : ℤ) (k : Nat) : Prop := |t - a| < |t - b| ∨ |t - a| = |t - b| ∧ j ≤ k

theorem NotAfter.trans {a b c : ℤ} {i j k : Nat} (h : NotAfter t a i b j) (h' : NotAfter t b j c k) :
    NotAfter t a i c k := by
  unfold NotAfter at *
  omega

theorem NotAfter.antisymm {a b : ℤ} {j k : Nat} (h : NotAfter t a j b k) (h' : NotAfter t b k a j) : j = k := by
  unfold NotAfter at *
  omega

/-- The position minimises (distance, position) over the whole list. -/
def IsNearest (xs : List ℤ) (t : ℤ) (j : Nat) : Prop :=
  ∃ a, xs[j]? = some a ∧ ∀ k b, xs[k]? = some b → NotAfter t a j b k

theorem IsNearest.unique {j k : Nat} (hj : IsNearest xs t j) (hk : IsNearest xs t k) : j = k := by
  obtain ⟨a, ha, hja⟩ := hj
  obtain ⟨b, hb, hkb⟩ := hk
  exact (hja k b hb).antisymm (hkb j a ha)

theorem exists_candidate (hs : xs.Pairwise (· ≤ ·)) {i : Nat} (hi : IsLowerBound xs t i) {k : Nat} {b : ℤ}
    (hk : xs[k]? = some b) :
    (∃ a, 0 < i ∧ xs[i - 1]? = some a ∧ xs[bisectLeft xs a]? = some a ∧ NotAfter t a (bisectLeft xs a) b k) ∨
      ∃ a, i < xs.length ∧ xs[i]? = some a ∧ NotAfter t a i b k := by
  obtain ⟨hklen, -⟩ := List.getElem?_eq_some_iff.mp hk
  rcases Nat.lt_or_ge k i with hlt | hge
  · left
    have hlen : i - 1 < xs.length := by have := hi.le_length; omega
    have hget : xs[i - 1]? = some xs[i - 1] := getElem?_eq_getElem hlen
    have hbelow := hi.below (i - 1) _ hget (by omega)
    have hba : b ≤ xs[i - 1] := sorted_getElem? hs hk hget (by omega)
    have hfirst := isLowerBound_bisectLeft hs xs[i - 1]
    have hle : bisectLeft xs xs[i - 1] ≤ i - 1 := by
      by_contra hnot
      exact absurd (hfirst.below (i - 1) _ hget (by omega)) (lt_irrefl _)
    have hflen : bisectLeft xs xs[i - 1] < xs.length := by omega
    have hfget : xs[bisectLeft xs xs[i - 1]]? = some xs[bisectLeft xs xs[i - 1]] :=
      getElem?_eq_getElem hflen
    have hvalue : xs[bisectLeft xs xs[i - 1]] = xs[i - 1] :=
      le_antisymm (sorted_getElem? hs hfget hget hle) (hfirst.above _ _ hfget le_rfl)
    refine ⟨xs[i - 1], by omega, hget, by rw [hfget, hvalue], ?_⟩
    rcases lt_or_eq_of_le hba with hlt' | rfl
    · left
      rw [abs_of_pos (by omega), abs_of_pos (by omega)]
      omega
    · refine .inr ⟨rfl, ?_⟩
      by_contra hnot
      exact absurd (hfirst.below k _ hk (by omega)) (lt_irrefl _)
  · right
    have hlen : i < xs.length := by omega
    have hget : xs[i]? = some xs[i] := getElem?_eq_getElem hlen
    have habove := hi.above i _ hget le_rfl
    have hab : xs[i] ≤ b := sorted_getElem? hs hget hk hge
    refine ⟨xs[i], hlen, hget, ?_⟩
    unfold NotAfter
    rw [abs_of_nonpos (by omega), abs_of_nonpos (by omega)]
    omega

end Nearest

/-! ## Merging -/

section Merge

variable {α : Type} [LinearOrder α]

def intersect : List α → List α → List α
  | [], _ => []
  | _ :: _, [] => []
  | a :: as, b :: bs =>
    if a = b then a :: intersect as bs
    else if a < b then intersect as (b :: bs)
    else intersect (a :: as) bs
termination_by as bs => as.length + bs.length

theorem mem_intersect {as bs : List α} (ha : as.Pairwise (· < ·)) (hb : bs.Pairwise (· < ·)) (x : α) :
    x ∈ intersect as bs ↔ x ∈ as ∧ x ∈ bs := by
  fun_induction intersect as bs with
  | case1 bs => simp
  | case2 a as => simp
  | case3 as b bs ih =>
    obtain ⟨hba, has⟩ := pairwise_cons.mp ha
    obtain ⟨hbb, hbs⟩ := pairwise_cons.mp hb
    simp only [mem_cons, ih has hbs]
    constructor
    · rintro (rfl | ⟨h, h'⟩)
      · exact ⟨.inl rfl, .inl rfl⟩
      · exact ⟨.inr h, .inr h'⟩
    · rintro ⟨rfl | h, h' | h'⟩
      · exact .inl rfl
      · exact .inl rfl
      · exact .inl h'
      · exact .inr ⟨h, h'⟩
  | case4 a as b bs hne hlt ih =>
    obtain ⟨-, has⟩ := pairwise_cons.mp ha
    obtain ⟨hbb, -⟩ := pairwise_cons.mp hb
    rw [ih has hb, mem_cons (a := x) (b := a)]
    refine ⟨fun h => ⟨.inr h.1, h.2⟩, ?_⟩
    rintro ⟨rfl | h, h'⟩
    · rcases mem_cons.mp h' with rfl | h'
      · exact absurd rfl hne
      · exact absurd (hbb _ h') (not_lt.mpr hlt.le)
    · exact ⟨h, h'⟩
  | case5 a as b bs hne hnlt ih =>
    obtain ⟨haa, -⟩ := pairwise_cons.mp ha
    obtain ⟨-, hbs⟩ := pairwise_cons.mp hb
    have hlt : b < a := lt_of_le_of_ne (not_lt.mp hnlt) (Ne.symm hne)
    rw [ih ha hbs, mem_cons (a := x) (b := b)]
    refine ⟨fun h => ⟨h.1, .inr h.2⟩, ?_⟩
    rintro ⟨h, rfl | h'⟩
    · rcases mem_cons.mp h with rfl | h
      · exact absurd rfl hne
      · exact absurd (haa _ h) (not_lt.mpr hlt.le)
    · exact ⟨h, h'⟩

theorem intersect_sublist (as bs : List α) : (intersect as bs).Sublist as := by
  fun_induction intersect as bs with
  | case1 bs => exact List.Sublist.refl _
  | case2 a as => exact nil_sublist _
  | case3 as b bs ih => exact ih.cons_cons b
  | case4 a as b bs hne hlt ih => exact ih.cons a
  | case5 a as b bs hne hnlt ih => exact ih

end Merge

end Bravo.LowerBound
