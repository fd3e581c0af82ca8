import Bravo.TimingMath.Records

/-! # The exact timing mathematics is total

Every constructor recomputes what it retains, so a computation that reaches it has to show that its own values
pass. The bounds start from the ranks: the weights have denominators of at most twenty, which keeps quantiles,
ratios and cross products far below u128.
-/

namespace Bravo.TimingMath

open List

/-! ## Ranks -/

structure Quantile (a b : Nat) : Prop where
  allowed : (a, b) ∈ allowedQuantiles
  positive : 0 < a
  lt : a < b
  small : b ≤ 20
  coprime : Nat.gcd a b = 1

theorem quantile_p50 : Quantile 1 2 := ⟨by decide, by decide, by decide, by decide, by decide⟩

theorem quantile_p95 : Quantile 19 20 := ⟨by decide, by decide, by decide, by decide, by decide⟩

theorem u64_eq {value : Nat} (h : value ≤ u64Max) (label : String) : u64 value label = .ok value := by
  simp only [u64, require_eq h, bind, Except.bind]
  rfl

theorem positiveU64_eq {value : Nat} (h : value ≤ u64Max) (hpos : value ≠ 0) (label : String) :
    positiveU64 value label = .ok value := by
  simp only [positiveU64, u64_eq h, require_eq hpos, bind, Except.bind]
  rfl

theorem canonicalAllowedPair_eq {a b : Nat} {allowed : List (Nat × Nat)} (h : (a, b) ∈ allowed)
    (ha : a ≤ u64Max) (hb : b ≤ u64Max) (ha0 : a ≠ 0) (hb0 : b ≠ 0) (hgcd : Nat.gcd a b = 1) (label : String) :
    canonicalAllowedPair a b allowed label = .ok (a, b) := by
  simp only [canonicalAllowedPair, u64_eq ha, positiveU64_eq hb hb0, require_eq h,
    require_eq (show a ≠ 0 ∧ Nat.gcd a b = 1 from ⟨ha0, hgcd⟩), bind, Except.bind]
  rfl

theorem Quantile.le_u64 {a b : Nat} (h : Quantile a b) : a ≤ u64Max ∧ b ≤ u64Max := by
  have := h.lt
  have := h.small
  unfold u64Max
  omega

theorem Quantile.canonical {a b : Nat} (h : Quantile a b) (label : String) :
    canonicalAllowedPair a b allowedQuantiles label = .ok (a, b) := by
  have := h.positive
  have := h.lt
  exact canonicalAllowedPair_eq h.allowed h.le_u64.1 h.le_u64.2 (by omega) (by omega) h.coprime label

def partsOf (n a b : Nat) : RankParts :=
  ⟨(n - 1) * a / b, if (n - 1) * a % b = 0 then (n - 1) * a / b else (n - 1) * a / b + 1,
    if (n - 1) * a % b = 0 then (0, 1)
    else ((n - 1) * a % b / Nat.gcd ((n - 1) * a % b) b, b / Nat.gcd ((n - 1) * a % b) b)⟩

section Rank

variable {n a b : Nat}

theorem scaled_lt (hn : n ≤ maxTimingSampleCount) (h : Quantile a b) : (n - 1) * a < 2 ^ 32 := by
  have := h.lt
  have := h.small
  have hle : (n - 1) * a ≤ 1000000 * 20 := Nat.mul_le_mul (by unfold maxTimingSampleCount at hn; omega) (by omega)
  omega

theorem rankParts_eq (hn : n ≤ maxTimingSampleCount) (h : Quantile a b) :
    rankParts n a b = .ok (partsOf n a b) := by
  have hscaled := scaled_lt hn h
  have hcount : n - 1 ≤ u64Max := by unfold maxTimingSampleCount at hn; unfold u64Max; omega
  have hmul : n - 1 = 0 ∨ a ≤ u64Max / (n - 1) := by
    rcases Nat.eq_zero_or_pos (n - 1) with hzero | hpos
    · exact .inl hzero
    · refine .inr ((Nat.le_div_iff_mul_le hpos).mpr ?_)
      rw [mul_comm]
      unfold u64Max
      omega
  have hproduct : checkedU64Multiply (n - 1) a "linear rank numerator" = .ok ((n - 1) * a) := by
    simp only [checkedU64Multiply, u64_eq hcount, u64_eq h.le_u64.1, require_eq hmul, bind, Except.bind]
    rfl
  have hlow : (n - 1) * a / b ≤ (n - 1) * a := Nat.div_le_self _ _
  have hadd : checkedU64Add ((n - 1) * a / b) 1 "linear high rank" = .ok ((n - 1) * a / b + 1) := by
    have hle : (n - 1) * a / b ≤ u64Max := by unfold u64Max; omega
    have hone : 1 ≤ u64Max := by decide
    have hsum : (n - 1) * a / b ≤ u64Max - 1 := by unfold u64Max; omega
    simp only [checkedU64Add, u64_eq hle, u64_eq hone, require_eq hsum, bind, Except.bind]
    rfl
  simp only [rankParts, hproduct, bind, Except.bind, partsOf]
  by_cases hrem : (n - 1) * a % b = 0
  · simp only [hrem, if_true]
    rfl
  · simp only [hrem, if_false, hadd]
    rfl

theorem partsOf_low_le (n a b : Nat) : (partsOf n a b).low ≤ (partsOf n a b).high := by
  unfold partsOf
  dsimp only
  split_ifs <;> omega

theorem partsOf_high_lt (hpos : 0 < n) (h : Quantile a b) : (partsOf n a b).high < n := by
  have hb : 0 < b := lt_trans h.positive h.lt
  have hdiv := Nat.div_add_mod ((n - 1) * a) b
  have hmod := Nat.mod_lt ((n - 1) * a) hb
  have hle : (n - 1) * a ≤ (n - 1) * b := Nat.mul_le_mul_left _ h.lt.le
  have hlow : (n - 1) * a / b ≤ n - 1 := Nat.div_le_of_le_mul (by rw [mul_comm b]; exact hle)
  unfold partsOf
  dsimp only
  split_ifs with hrem
  · omega
  · -- With a remainder the rank lies strictly below the last sample.
    have hne : (n - 1) * a / b ≠ n - 1 := by
      intro heq
      rw [heq] at hdiv
      have : b * (n - 1) = (n - 1) * b := mul_comm _ _
      omega
    omega

theorem partsOf_weight (h : Quantile a b) :
    (partsOf n a b).weight.1 ≤ (partsOf n a b).weight.2 ∧ 0 < (partsOf n a b).weight.2 ∧
      (partsOf n a b).weight.2 ≤ 20 ∧
      ((partsOf n a b).weight.1 : ℚ) / (partsOf n a b).weight.2 = (((n - 1) * a % b : Nat) : ℚ) / b := by
  have hb : 0 < b := lt_trans h.positive h.lt
  unfold partsOf
  dsimp only
  split_ifs with hrem
  · simp [hrem]
  · have hg : 0 < Nat.gcd ((n - 1) * a % b) b := Nat.gcd_pos_of_pos_right _ hb
    have hdvd := Nat.gcd_dvd_left ((n - 1) * a % b) b
    have hdvd' := Nat.gcd_dvd_right ((n - 1) * a % b) b
    refine ⟨Nat.div_le_div_right (Nat.mod_lt _ hb).le, Nat.div_pos (Nat.le_of_dvd hb hdvd') hg,
      le_trans (Nat.div_le_self _ _) h.small, ?_⟩
    have hg' : ((Nat.gcd ((n - 1) * a % b) b : Nat) : ℚ) ≠ 0 := by exact_mod_cast hg.ne'
    rw [Nat.cast_div hdvd hg', Nat.cast_div hdvd' hg', div_div_div_cancel_right₀ hg']

def rankOf (n a b : Nat) : LinearRank :=
  ⟨n, a, b, (partsOf n a b).low, (partsOf n a b).high, (partsOf n a b).weight.1, (partsOf n a b).weight.2⟩

theorem check_rankOf (hpos : 0 < n) (hn : n ≤ maxTimingSampleCount) (h : Quantile a b) :
    (rankOf n a b).check = .ok () := by
  have hcount : n ≤ u64Max := by unfold maxTimingSampleCount at hn; unfold u64Max; omega
  have hhigh := partsOf_high_lt hpos h
  have hlow := partsOf_low_le n a b
  obtain ⟨hw, hwpos, hwsmall, -⟩ := partsOf_weight (n := n) h
  have hlow64 : (partsOf n a b).low ≤ u64Max := by omega
  have hhigh64 : (partsOf n a b).high ≤ u64Max := by omega
  have hden64 : (partsOf n a b).weight.2 ≤ u64Max := by unfold u64Max; omega
  have hnum64 : (partsOf n a b).weight.1 ≤ u64Max := le_trans hw hden64
  simp only [LinearRank.check, rankOf, positiveU64_eq hcount hpos.ne', h.canonical, u64_eq hlow64, u64_eq hhigh64,
    u64_eq hnum64, positiveU64_eq hden64 hwpos.ne', rankParts_eq hn h, bind, Except.bind, Prod.mk.eta,
    and_self, require_true]
  exact require_eq hhigh

theorem linearRank_eq (hpos : 0 < n) (hn : n ≤ maxTimingSampleCount) (h : Quantile a b) :
    linearRank n a b = .ok (rankOf n a b) := by
  have hcount : n ≤ u64Max := by unfold maxTimingSampleCount at hn; unfold u64Max; omega
  have hcheck := check_rankOf hpos hn h
  unfold rankOf at hcheck
  simp only [linearRank, positiveU64_eq hcount hpos.ne', h.canonical, rankParts_eq hn h, bind, Except.bind,
    require_eq (partsOf_high_lt hpos h), hcheck]
  rfl

end Rank

/-! ## Values -/

/-- A reduced value within u64 whose denominator is at most twenty. -/
structure Small (r : RationalNanoseconds) : Prop where
  positive : 0 < r.denominator
  small : r.denominator ≤ 20
  bounded : r.numerator ≤ u64Max * r.denominator
  reduced : Nat.gcd r.numerator r.denominator = 1

variable {r : RationalNanoseconds}

theorem Small.numerator_le (h : Small r) : r.numerator ≤ u64Max * 20 :=
  le_trans h.bounded (Nat.mul_le_mul_left _ h.small)

theorem Small.check (h : Small r) : r.check = .ok () := by
  have hden : r.denominator ≤ u64Max := by have := h.small; unfold u64Max; omega
  have hnum : r.numerator ≤ u128Max := le_trans h.numerator_le (by decide)
  simp only [RationalNanoseconds.check, positiveU64_eq hden h.positive.ne', require_eq hnum,
    require_eq h.bounded, require_eq h.reduced, bind, Except.bind]

theorem Small.validated (h : Small r) (label : String) : r.validated label = .ok r :=
  validated_eq h.check _

theorem value_div_gcd {n d : Nat} (hd : 0 < d) :
    (((n / Nat.gcd n d : Nat) : ℚ) / ((d / Nat.gcd n d : Nat) : ℚ)) = n / d := by
  have hg : ((Nat.gcd n d : Nat) : ℚ) ≠ 0 := by exact_mod_cast (Nat.gcd_pos_of_pos_right n hd).ne'
  rw [Nat.cast_div (Nat.gcd_dvd_left n d) hg, Nat.cast_div (Nat.gcd_dvd_right n d) hg,
    div_div_div_cancel_right₀ hg]

theorem reducedRationalNanoseconds_spec {n d : Nat} (hd : 0 < d) (hsmall : d ≤ 20) (hn : n ≤ u64Max * d) :
    ∃ r, reducedRationalNanoseconds n d = .ok r ∧ Small r ∧ r.value = n / d := by
  have hg : 0 < Nat.gcd n d := Nat.gcd_pos_of_pos_right n hd
  obtain ⟨e, he⟩ := Nat.gcd_dvd_right n d
  have hden : d / Nat.gcd n d = e := by
    conv_lhs => lhs; rw [he]
    exact Nat.mul_div_cancel_left e hg
  have hr : Small ⟨n / Nat.gcd n d, d / Nat.gcd n d⟩ := by
    refine ⟨Nat.div_pos (Nat.le_of_dvd hd (Nat.gcd_dvd_right n d)) hg, le_trans (Nat.div_le_self _ _) hsmall, ?_,
      Nat.Coprime.gcd_eq_one (Nat.coprime_div_gcd_div_gcd hg)⟩
    show n / Nat.gcd n d ≤ u64Max * (d / Nat.gcd n d)
    rw [hden]
    refine Nat.div_le_of_le_mul (le_trans hn (le_of_eq ?_))
    conv_lhs => rw [he]
    ring
  refine ⟨_, ?_, hr, value_div_gcd hd⟩
  simp only [reducedRationalNanoseconds, RationalNanoseconds.new, hr.check, bind, Except.bind]
  rfl

/-! ## Quantiles -/

/-- A population as `_snapshot_sorted_samples` leaves it. -/
structure Population (xs : List Nat) : Prop where
  nonempty : xs ≠ []
  bounded : xs.length ≤ maxTimingSampleCount
  u64 : ∀ x ∈ xs, x ≤ u64Max
  sorted : xs.Pairwise (· ≤ ·)

theorem adjacentAll_iff {ok : Nat → Nat → Bool} {r : Nat → Nat → Prop} [IsTrans Nat r]
    (hok : ∀ a b, ok a b = true ↔ r a b) (xs : List Nat) : adjacentAll ok xs = true ↔ xs.Pairwise r := by
  rw [← isChain_iff_pairwise]
  induction xs with
  | nil => simp [adjacentAll]
  | cons a rest ih =>
    cases rest with
    | nil => simp [adjacentAll]
    | cons b rest => rw [adjacentAll, Bool.and_eq_true, hok, ih, isChain_cons_cons]

theorem fromBytes_lt (bytes : List UInt8) : fromBytes bytes < 256 ^ bytes.length := by
  induction bytes using List.reverseRecOn with
  | nil => decide
  | append_singleton bytes b ih =>
    have hb := b.toNat_lt
    rw [fromBytes, foldl_append, length_append, length_singleton, pow_succ]
    change 256 * fromBytes bytes + b.toNat < _
    omega

theorem digest_lt (message : List UInt8) : fromBytes (Fips180.sha256 message) < 2 ^ 256 := by
  have h := fromBytes_lt (Fips180.sha256 message)
  rw [Fips180.length_sha256] at h
  exact lt_of_lt_of_eq h (by norm_num)

section Quantiles

variable {xs : List Nat} {a b : Nat}

theorem interpolated_spec {n low high : Nat} (h : Quantile a b) (hle : low ≤ high) (hhigh : high ≤ u64Max) :
    ∃ r, interpolated (rankOf n a b) low high = .ok r ∧ Small r ∧
      r.value = low + (((n - 1) * a % b : Nat) : ℚ) / b * ((high : ℚ) - low) := by
  obtain ⟨hw, hwpos, hwsmall, hweight⟩ := partsOf_weight (n := n) h
  set w := (partsOf n a b).weight
  have hnum : (w.2 - w.1) * low + w.1 * high ≤ u64Max * w.2 := by
    have h1 : (w.2 - w.1) * low ≤ (w.2 - w.1) * high := Nat.mul_le_mul_left _ hle
    have h2 : (w.2 - w.1) * high + w.1 * high = w.2 * high := by rw [← Nat.add_mul, Nat.sub_add_cancel hw]
    have h3 : w.2 * high ≤ u64Max * w.2 := by rw [mul_comm]; exact Nat.mul_le_mul_right _ hhigh
    omega
  obtain ⟨r, hr, hsmall, hvalue⟩ := reducedRationalNanoseconds_spec hwpos hwsmall hnum
  refine ⟨r, hr, hsmall, hvalue.trans ?_⟩
  have hw2 : (w.2 : ℚ) ≠ 0 := by exact_mod_cast hwpos.ne'
  rw [← hweight]
  push_cast [Nat.cast_sub hw]
  field_simp
  ring

structure IsQuantile (xs : List Nat) (sha256 a b : Nat) (q : LinearQuantile) : Prop where
  check : q.check = .ok ()
  rank : q.rank = rankOf xs.length a b
  sha256 : q.populationSha256 = sha256
  samples : q.orderedSamplesNs = xs
  small : Small q.valueNs
  value : q.valueNs.value = interpolate xs (a / b)

theorem quantileFromSorted_spec (hxs : Population xs) (h : Quantile a b) :
    ∃ q, quantileFromSorted xs (a, b) (populationSha256 xs) = .ok q ∧ IsQuantile xs (populationSha256 xs) a b q := by
  have hpos : 0 < xs.length := length_pos_iff.mpr hxs.nonempty
  have hb : 0 < b := lt_trans h.positive h.lt
  have hhigh := partsOf_high_lt hpos h
  have hlow := lt_of_le_of_lt (partsOf_low_le xs.length a b) hhigh
  have hgetlow : xs[(partsOf xs.length a b).low]? = some xs[(partsOf xs.length a b).low] :=
    getElem?_eq_getElem hlow
  have hgethigh : xs[(partsOf xs.length a b).high]? = some xs[(partsOf xs.length a b).high] :=
    getElem?_eq_getElem hhigh
  set lowValue := xs[(partsOf xs.length a b).low]
  set highValue := xs[(partsOf xs.length a b).high]
  have hle : lowValue ≤ highValue := by
    have := entry_le hxs.sorted (partsOf_low_le xs.length a b) hhigh
    unfold entry at this
    rw [getD_eq_getElem?_getD, getD_eq_getElem?_getD, hgetlow, hgethigh] at this
    exact_mod_cast this
  have hlow64 : lowValue ≤ u64Max := hxs.u64 _ (getElem_mem _)
  have hhigh64 : highValue ≤ u64Max := hxs.u64 _ (getElem_mem _)
  obtain ⟨r, hr, hsmall, hvalue⟩ := interpolated_spec (n := xs.length) h hle hhigh64
  have hrank := check_rankOf hpos hxs.bounded h
  have hsorted : adjacentAll (fun a b => a ≤ b) xs = true := (adjacentAll_iff (by simp) xs).mpr hxs.sorted
  have hexact : (partsOf xs.length a b).low = (partsOf xs.length a b).high → lowValue = highValue := by
    intro heq
    have := hgetlow.symm.trans (heq ▸ hgethigh)
    exact Option.some.inj this
  have hcheck : (⟨rankOf xs.length a b, lowValue, highValue, r, populationSha256 xs, xs⟩ : LinearQuantile).check =
      .ok () := by
    have hcount : (rankOf xs.length a b).sampleCount ≤ maxTimingSampleCount := hxs.bounded
    have hlength : xs.length = (rankOf xs.length a b).sampleCount := rfl
    have hdigest : populationSha256 xs < 2 ^ 256 := digest_lt _
    have hexact' : (rankOf xs.length a b).lowIndex = (rankOf xs.length a b).highIndex → lowValue = highValue := hexact
    have hends : xs[(rankOf xs.length a b).lowIndex]? = some lowValue ∧
        xs[(rankOf xs.length a b).highIndex]? = some highValue := ⟨hgetlow, hgethigh⟩
    simp only [LinearQuantile.check, LinearRank.validated, validated_eq hrank, hsmall.validated, bind, Except.bind,
      u64_eq hlow64, u64_eq hhigh64, require_eq hle, hr, require_eq hcount, require_eq hdigest, require_eq hlength,
      require_eq hxs.u64, require_eq hsorted, require_eq hexact', require_eq hends, require_true]
  refine ⟨_, ?_, hcheck, rfl, rfl, rfl, hsmall, ?_⟩
  · have hgetlow' : xs[(rankOf xs.length a b).lowIndex]? = some lowValue := hgetlow
    have hgethigh' : xs[(rankOf xs.length a b).highIndex]? = some highValue := hgethigh
    simp only [quantileFromSorted, linearRank_eq hpos hxs.bounded h, hgetlow', hgethigh', hr, hcheck, bind,
      Except.bind]
    rfl
  · have hrankq : ((xs.length : ℚ) - 1) * ((a : ℚ) / b) = (((xs.length - 1) * a : Nat) : ℚ) / b := by
      push_cast [Nat.cast_sub (Nat.succ_le_of_lt hpos)]
      ring
    have hentry : ∀ {i : Nat} {v : Nat}, xs[i]? = some v → entry xs i = v := by
      intro i v hv
      unfold entry
      rw [getD_eq_getElem?_getD, hv]
      rfl
    rw [hvalue, interpolate, hrankq, atRank_div xs _ hb]
    have hl : entry xs ((xs.length - 1) * a / b) = lowValue := hentry hgetlow
    have hh : entry xs (if (xs.length - 1) * a % b = 0 then (xs.length - 1) * a / b
        else (xs.length - 1) * a / b + 1) = highValue := hentry hgethigh
    rw [hl, hh]

end Quantiles

end Bravo.TimingMath
