import Bravo.TimingMath.Exact

/-! # Pairs, campaigns and records

The quantiles of a population, the gates of a pair, the medians of three and the campaign, each shown to be
computed and to pass the checks of its constructor; then the records of rationals. `timing_mathematics_exact`
is the theorem about the whole.
-/

namespace Bravo.TimingMath

open List

/-! ## The quantiles of a population -/

structure Samples (samples : List Nat) : Prop where
  nonempty : samples ≠ []
  bounded : samples.length ≤ maxTimingSampleCount
  u64 : ∀ x ∈ samples, x ≤ u64Max

def sortedSamples (samples : List Nat) : List Nat := samples.insertionSort (· ≤ ·)

theorem Samples.population {samples : List Nat} (h : Samples samples) : Population (sortedSamples samples) := by
  have hperm := perm_insertionSort (· ≤ ·) samples
  refine ⟨fun hnil => h.nonempty ?_, ?_, fun x hx => h.u64 x (hperm.subset hx), pairwise_insertionSort _ _⟩
  · exact perm_nil.mp (hnil ▸ hperm.symm)
  · exact hperm.length_eq ▸ h.bounded

theorem sortedSamples_perm {samples samples' : List Nat} (h : samples.Perm samples') :
    sortedSamples samples = sortedSamples samples' := by
  have hperm := ((perm_insertionSort (· ≤ ·) samples).trans h).trans
    (perm_insertionSort (· ≤ ·) samples').symm
  exact hperm.eq_of_pairwise' (pairwise_insertionSort (· ≤ ·) _) (pairwise_insertionSort (· ≤ ·) _)

theorem snapshotSortedSamples_eq {samples : List Nat} (h : Samples samples) :
    snapshotSortedSamples samples = .ok (sortedSamples samples) := by
  simp only [snapshotSortedSamples, require_eq (length_pos_iff.mpr h.nonempty), require_eq h.bounded,
    require_eq h.u64, bind, Except.bind]
  rfl

/-- What `timing_quantiles_ns` returns for a population. -/
structure IsQuantiles (xs : List Nat) (t : TimingQuantiles) : Prop where
  check : t.check = .ok ()
  p50 : IsQuantile xs (populationSha256 xs) 1 2 t.p50
  p95 : IsQuantile xs (populationSha256 xs) 19 20 t.p95

theorem value_le_iff {r s : RationalNanoseconds} (hr : 0 < r.denominator) (hs : 0 < s.denominator) :
    r.value ≤ s.value ↔ r.numerator * s.denominator ≤ s.numerator * r.denominator := by
  unfold RationalNanoseconds.value
  rw [div_le_div_iff₀ (by exact_mod_cast hr) (by exact_mod_cast hs)]
  exact_mod_cast Iff.rfl

theorem timingQuantilesNs_spec {samples : List Nat} (h : Samples samples) :
    ∃ t, timingQuantilesNs samples = .ok t ∧ IsQuantiles (sortedSamples samples) t := by
  have hxs := h.population
  obtain ⟨p50, hp50, hq50⟩ := quantileFromSorted_spec hxs quantile_p50
  obtain ⟨p95, hp95, hq95⟩ := quantileFromSorted_spec hxs quantile_p95
  have hle : p50.valueNs.numerator * p95.valueNs.denominator ≤ p95.valueNs.numerator * p50.valueNs.denominator := by
    rw [← value_le_iff hq50.small.positive hq95.small.positive, hq50.value, hq95.value]
    exact interpolate_mono hxs.sorted hxs.nonempty (by norm_num) (by norm_num) (by norm_num)
  have hpair : (p50.rank.quantileNumerator, p50.rank.quantileDenominator) = p50Quantile ∧
      (p95.rank.quantileNumerator, p95.rank.quantileDenominator) = p95Quantile ∧
      p50.rank.sampleCount = p95.rank.sampleCount := by
    rw [hq50.rank, hq95.rank]
    exact ⟨rfl, rfl, rfl⟩
  have hcheck : (⟨p50, p95⟩ : TimingQuantiles).check = .ok () := by
    simp only [TimingQuantiles.check, LinearQuantile.validated, validated_eq hq50.check, validated_eq hq95.check,
      require_eq hpair, require_eq (hq50.sha256.trans hq95.sha256.symm),
      require_eq (hq50.samples.trans hq95.samples.symm), require_eq hle, bind, Except.bind]
  have hp50' : quantileFromSorted (sortedSamples samples) p50Quantile (populationSha256 (sortedSamples samples)) =
      .ok p50 := hp50
  have hp95' : quantileFromSorted (sortedSamples samples) p95Quantile (populationSha256 (sortedSamples samples)) =
      .ok p95 := hp95
  refine ⟨⟨p50, p95⟩, ?_, hcheck, hq50, hq95⟩
  simp only [timingQuantilesNs, snapshotSortedSamples_eq h, hp50', hp95', hcheck, bind, Except.bind]
  rfl

theorem timingQuantilesNs_perm {samples samples' : List Nat} (h : samples.Perm samples') :
    timingQuantilesNs samples = timingQuantilesNs samples' := by
  have hall : (∀ value ∈ samples, value ≤ u64Max) ↔ ∀ value ∈ samples', value ≤ u64Max :=
    forall_congr' fun value => by rw [h.mem_iff]
  have hsort := sortedSamples_perm h
  unfold sortedSamples at hsort
  unfold timingQuantilesNs snapshotSortedSamples require
  simp only [h.length_eq, hall, hsort]

/-! ## Gates -/

structure ValidRatio (r : ExactRatio) : Prop where
  numerator : r.numerator ≤ u128Max
  denominator : 0 < r.denominator ∧ r.denominator ≤ u128Max
  reduced : Nat.gcd r.numerator r.denominator = 1

theorem ValidRatio.check {r : ExactRatio} (h : ValidRatio r) : r.check = .ok () := by
  simp only [ExactRatio.check, require_eq h.numerator, require_eq h.denominator, require_eq h.reduced, bind,
    Except.bind]

theorem ValidRatio.validated {r : ExactRatio} (h : ValidRatio r) (label : String) : r.validated label = .ok r :=
  validated_eq h.check _

theorem candidateBaselineRatio_spec {b c : RationalNanoseconds} (hb : Small b) (hc : Small c)
    (hpos : b.numerator ≠ 0) :
    ∃ r, candidateBaselineRatio c b = .ok r ∧ ValidRatio r ∧ r.value = c.value / b.value := by
  have hden : 0 < c.denominator * b.numerator := Nat.mul_pos hc.positive (Nat.pos_of_ne_zero hpos)
  have hg := Nat.gcd_pos_of_pos_right (c.numerator * b.denominator) hden
  have hnum : c.numerator * b.denominator ≤ u128Max :=
    le_trans (Nat.mul_le_mul hc.numerator_le hb.small) (by decide)
  have hden128 : c.denominator * b.numerator ≤ u128Max :=
    le_trans (Nat.mul_le_mul hc.small hb.numerator_le) (by decide)
  have hr : ValidRatio ⟨c.numerator * b.denominator / Nat.gcd (c.numerator * b.denominator) (c.denominator * b.numerator),
      c.denominator * b.numerator / Nat.gcd (c.numerator * b.denominator) (c.denominator * b.numerator)⟩ := by
    refine ⟨le_trans (Nat.div_le_self _ _) hnum, ⟨?_, le_trans (Nat.div_le_self _ _) hden128⟩,
      Nat.Coprime.gcd_eq_one (Nat.coprime_div_gcd_div_gcd hg)⟩
    exact Nat.div_pos (Nat.le_of_dvd hden (Nat.gcd_dvd_right _ _)) hg
  refine ⟨_, ?_, hr, ?_⟩
  · simp only [candidateBaselineRatio, require_eq hpos, reducedExactRatio, ExactRatio.new, hr.check, bind,
      Except.bind]
    rfl
  · refine (value_div_gcd hden).trans ?_
    unfold RationalNanoseconds.value
    rw [div_div_div_eq]
    push_cast
    ring

/-- What `ratio_gate` returns. -/
structure IsGate (baseline candidate : RationalNanoseconds) (limit : Nat × Nat) (g : RatioGate) : Prop where
  check : g.check = .ok ()
  baselineNs : g.baselineNs = baseline
  candidateNs : g.candidateNs = candidate
  limits : (g.limitNumerator, g.limitDenominator) = limit
  ratio : ValidRatio g.candidateOverBaseline
  value : g.candidateOverBaseline.value = candidate.value / baseline.value
  passed : g.passed = true ↔ candidate.value ≤ limit.1 / limit.2 * baseline.value

structure Limit (limit : Nat × Nat) : Prop where
  allowed : limit ∈ allowedRatioLimits
  small : limit.1 ≤ 23 ∧ limit.2 ≤ 20
  positive : limit.1 ≠ 0 ∧ 0 < limit.2
  coprime : Nat.gcd limit.1 limit.2 = 1

theorem limit_median : Limit medianRatioLimit := ⟨by decide, by decide, by decide, by decide⟩

theorem limit_p95 : Limit p95RatioLimit := ⟨by decide, by decide, by decide, by decide⟩

theorem Limit.canonical {limit : Nat × Nat} (h : Limit limit) (label : String) :
    canonicalAllowedPair limit.1 limit.2 allowedRatioLimits label = .ok limit :=
  canonicalAllowedPair_eq h.allowed (le_trans h.small.1 (by decide)) (le_trans h.small.2 (by decide)) h.positive.1
    h.positive.2.ne' h.coprime label

theorem ratioGate_spec {b c : RationalNanoseconds} {limit : Nat × Nat} (hb : Small b) (hc : Small c)
    (hpos : b.numerator ≠ 0) (hl : Limit limit) : ∃ g, ratioGate b c limit = .ok g ∧ IsGate b c limit g := by
  obtain ⟨r, hr, hvalid, hvalue⟩ := candidateBaselineRatio_spec hb hc hpos
  have hleft : c.numerator * b.denominator * limit.2 ≤ u128Max :=
    le_trans (Nat.mul_le_mul (Nat.mul_le_mul hc.numerator_le hb.small) hl.small.2) (by decide)
  have hright : b.numerator * c.denominator * limit.1 ≤ u128Max :=
    le_trans (Nat.mul_le_mul (Nat.mul_le_mul hb.numerator_le hc.small) hl.small.1) (by decide)
  have hcross : c.numerator * b.denominator * limit.2 ≤ u128Max ∧ b.numerator * c.denominator * limit.1 ≤ u128Max :=
    ⟨hleft, hright⟩
  have hcheck : (⟨b, c, r, limit.1, limit.2, c.numerator * b.denominator * limit.2,
      b.numerator * c.denominator * limit.1,
      decide (c.numerator * b.denominator * limit.2 ≤ b.numerator * c.denominator * limit.1)⟩ : RatioGate).check =
      .ok () := by
    simp only [RatioGate.check, hb.validated, hc.validated, hvalid.validated, require_eq hpos, hr, hl.canonical,
      require_eq hcross, require_true, and_self, bind, Except.bind]
  refine ⟨_, ?_, hcheck, rfl, rfl, rfl, hvalid, hvalue, ?_⟩
  · simp only [ratioGate, hb.validated, hc.validated, hr, hl.canonical, require_eq hcross, hcheck, bind, Except.bind]
    rfl
  · rw [decide_eq_true_iff]
    unfold RationalNanoseconds.value
    have hbd : (0 : ℚ) < b.denominator := by exact_mod_cast hb.positive
    have hcd : (0 : ℚ) < c.denominator := by exact_mod_cast hc.positive
    have hld : (0 : ℚ) < limit.2 := by exact_mod_cast hl.positive.2
    rw [div_mul_div_comm, div_le_div_iff₀ hcd (mul_pos hld hbd)]
    constructor
    · intro h
      have h' : (c.numerator * b.denominator * limit.2 : ℚ) ≤ b.numerator * c.denominator * limit.1 := by
        exact_mod_cast h
      linarith
    · intro h
      have h' : (c.numerator * b.denominator * limit.2 : ℚ) ≤ b.numerator * c.denominator * limit.1 := by linarith
      exact_mod_cast h'

/-! ## The median of three -/

theorem exceeds_eq {a b : ExactRatio} (ha : ValidRatio a) (hb : ValidRatio b) :
    exceeds a b = .ok (decide (b.value < a.value)) := by
  have hcross : a.numerator * b.denominator ≤ u256Max ∧ b.numerator * a.denominator ≤ u256Max :=
    ⟨le_trans (Nat.mul_le_mul ha.numerator hb.denominator.2) (by decide),
      le_trans (Nat.mul_le_mul hb.numerator ha.denominator.2) (by decide)⟩
  have hiff : b.value < a.value ↔ b.numerator * a.denominator < a.numerator * b.denominator := by
    unfold ExactRatio.value
    rw [div_lt_div_iff₀ (by exact_mod_cast hb.denominator.1) (by exact_mod_cast ha.denominator.1)]
    exact_mod_cast Iff.rfl
  simp only [exceeds, require_eq hcross, bind, Except.bind, hiff]
  rfl

theorem compareExchange_eq {a b : ExactRatio} (ha : ValidRatio a) (hb : ValidRatio b) :
    compareExchange (a, b) = .ok (if b.value < a.value then (b, a) else (a, b)) := by
  simp only [compareExchange, exceeds_eq ha hb, bind, Except.bind]
  by_cases h : b.value < a.value <;> simp [h] <;> rfl

/-- What `median_of_three_ratios` returns. -/
structure IsMedian (a b c : ExactRatio) (m : MedianOfThreeRatio) : Prop where
  check : m.check = .ok ()
  perm : [m.orderedRatios.1, m.orderedRatios.2.1, m.orderedRatios.2.2].Perm [a, b, c]
  ordered : m.orderedRatios.1.value ≤ m.orderedRatios.2.1.value ∧
    m.orderedRatios.2.1.value ≤ m.orderedRatios.2.2.value
  middle : m.medianRatio = m.orderedRatios.2.1

theorem check_median {x y z : ExactRatio} (hx : ValidRatio x) (hy : ValidRatio y) (hz : ValidRatio z)
    (hxy : x.value ≤ y.value) (hyz : y.value ≤ z.value) :
    (⟨(x, y, z), y⟩ : MedianOfThreeRatio).check = .ok () := by
  have hsorted : decide (y.value < x.value) = false ∧ decide (z.value < y.value) = false := by
    simp [hxy, hyz]
  simp only [MedianOfThreeRatio.check, hx.validated, hy.validated, hz.validated, exceeds_eq hx hy, exceeds_eq hy hz,
    require_eq hsorted, require_true, bind, Except.bind]

theorem medianOfThreeRatios_spec {a b c : ExactRatio} (ha : ValidRatio a) (hb : ValidRatio b) (hc : ValidRatio c) :
    ∃ m, medianOfThreeRatios (a, b, c) = .ok m ∧ IsMedian a b c m := by
  -- The end of the network, once the three ratios are known to be in order.
  have hdone : ∀ {x y z : ExactRatio}, ValidRatio x → ValidRatio y → ValidRatio z → x.value ≤ y.value →
      y.value ≤ z.value → [x, y, z].Perm [a, b, c] →
      medianOfThreeRatios (a, b, c) = .ok ⟨(x, y, z), y⟩ →
      ∃ m, medianOfThreeRatios (a, b, c) = .ok m ∧ IsMedian a b c m :=
    fun hx hy hz hxy hyz hperm heq => ⟨_, heq, check_median hx hy hz hxy hyz, hperm, ⟨hxy, hyz⟩, rfl⟩
  have hrun : ∀ {x y z x' y' : ExactRatio}, ValidRatio x → ValidRatio y → ValidRatio z →
      (if b.value < a.value then (b, a) else (a, b)) = (x', y') →
      (if c.value < y'.value then (c, y') else (y', c)) = (y, z) →
      ∀ {u v : ExactRatio}, ValidRatio u → ValidRatio v → ValidRatio x' → ValidRatio y' →
      (if y.value < x'.value then (y, x') else (x', y)) = (u, v) →
      u.value ≤ v.value → v.value ≤ z.value → medianOfThreeRatios (a, b, c) = .ok ⟨(u, v, z), v⟩ := by
    intro x y z x' y' hx hy hz h1 h2 u v hu hv hx' hy' h3 huv hvz
    simp only [medianOfThreeRatios, ha.validated, hb.validated, hc.validated, compareExchange_eq ha hb, h1,
      compareExchange_eq hy' hc, h2, compareExchange_eq hx' hy, h3, check_median hu hv hz huv hvz, bind, Except.bind]
    rfl
  by_cases hab : b.value < a.value
  · by_cases hca : c.value < a.value
    · by_cases hcb : c.value < b.value
      · exact hdone hc hb ha hcb.le hab.le (by
          exact (List.Perm.swap _ _ _).trans ((List.Perm.cons _ (List.Perm.swap _ _ _)).trans (List.Perm.swap _ _ _)))
          (hrun hb hc ha (if_pos hab) (if_pos hca) hc hb hb ha (if_pos hcb) hcb.le hab.le)
      · exact hdone hb hc ha (not_lt.mp hcb) hca.le
          ((List.Perm.cons _ (List.Perm.swap _ _ _)).trans (List.Perm.swap _ _ _))
          (hrun hb hc ha (if_pos hab) (if_pos hca) hb hc hb ha (if_neg hcb) (not_lt.mp hcb) hca.le)
    · have hba : ¬ a.value < b.value := not_lt.mpr hab.le
      exact hdone hb ha hc hab.le (not_lt.mp hca) (List.Perm.swap _ _ _)
        (hrun hb ha hc (if_pos hab) (if_neg hca) hb ha hb ha (if_neg hba) hab.le (not_lt.mp hca))
  · by_cases hcb : c.value < b.value
    · by_cases hca : c.value < a.value
      · exact hdone hc ha hb hca.le (not_lt.mp hab)
          ((List.Perm.swap _ _ _).trans (List.Perm.cons _ (List.Perm.swap _ _ _)))
          (hrun ha hc hb (if_neg hab) (if_pos hcb) hc ha ha hb (if_pos hca) hca.le (not_lt.mp hab))
      · exact hdone ha hc hb (not_lt.mp hca) hcb.le (List.Perm.cons _ (List.Perm.swap _ _ _))
          (hrun ha hc hb (if_neg hab) (if_pos hcb) ha hc ha hb (if_neg hca) (not_lt.mp hca) hcb.le)
    · exact hdone ha hb hc (not_lt.mp hab) (not_lt.mp hcb) (List.Perm.refl _)
        (hrun ha hb hc (if_neg hab) (if_neg hcb) ha hb ha hb (if_neg hab) (not_lt.mp hab) (not_lt.mp hcb))

/-! ## Pairs -/

def quantileOf (samples : List Nat) (q : ℚ) : ℚ := interpolate (sortedSamples samples) q

/-- What `timing_pair_result` is given. -/
structure PairInput where
  index : Nat
  timestamps : List Nat
  baseline : List Nat
  candidate : List Nat

/-- Joined rows: strictly increasing timestamps, two populations of their size, positive baseline quantiles. -/
structure PairInput.Valid (i : PairInput) : Prop where
  index : i.index ≤ 2
  timestamps : i.timestamps.Pairwise (· < ·)
  timestamps_u64 : ∀ x ∈ i.timestamps, x ≤ u64Max
  baseline : Samples i.baseline
  candidate : Samples i.candidate
  baseline_length : i.baseline.length = i.timestamps.length
  candidate_length : i.candidate.length = i.timestamps.length
  positive_p50 : 0 < quantileOf i.baseline (1 / 2)
  positive_p95 : 0 < quantileOf i.baseline (19 / 20)

def PairInput.run (i : PairInput) : Result TimingPairResult :=
  timingPairResult i.index i.timestamps i.baseline i.candidate

def PairInput.ratio (i : PairInput) (q : ℚ) : ℚ := quantileOf i.candidate q / quantileOf i.baseline q

/-- What `timing_pair_result` returns. -/
structure IsPair (i : PairInput) (r : TimingPairResult) : Prop where
  check : r.check = .ok ()
  index : r.timingPairIndex = i.index
  ratio50 : ValidRatio r.p50Gate.candidateOverBaseline
  ratio95 : ValidRatio r.p95Gate.candidateOverBaseline
  value50 : r.p50Gate.candidateOverBaseline.value = i.ratio (1 / 2)
  value95 : r.p95Gate.candidateOverBaseline.value = i.ratio (19 / 20)
  passed : r.passed = true ↔ quantileOf i.candidate (1 / 2) ≤ 11 / 10 * quantileOf i.baseline (1 / 2) ∧
    quantileOf i.candidate (19 / 20) ≤ 23 / 20 * quantileOf i.baseline (19 / 20)

theorem numerator_ne_zero {r : RationalNanoseconds} (h : 0 < r.value) : r.numerator ≠ 0 := by
  intro hzero
  rw [RationalNanoseconds.value, hzero] at h
  simp at h

theorem PairInput.Valid.timestamps_eq {i : PairInput} (h : i.Valid) :
    validatedCommonTimestamps i.timestamps = .ok i.timestamps := by
  have hne : i.timestamps ≠ [] := by
    intro hnil
    have hlen := h.baseline_length
    rw [hnil] at hlen
    exact h.baseline.nonempty (length_eq_zero_iff.mp hlen)
  have hsorted : adjacentAll (fun a b => a < b) i.timestamps = true := (adjacentAll_iff (by simp) _).mpr h.timestamps
  simp only [validatedCommonTimestamps, require_eq hne, require_eq (h.baseline_length ▸ h.baseline.bounded),
    require_eq h.timestamps_u64, require_eq hsorted, bind, Except.bind]
  rfl

theorem PairInput.Valid.payload {i : PairInput} (h : i.Valid) :
    ∃ sha256, commonPayloadSha256 i.index i.timestamps = .ok sha256 ∧ sha256 ≤ u256Max := by
  have hindex : i.index ≤ u64Max := le_trans h.index (by decide)
  refine ⟨_, by
    simp only [commonPayloadSha256, canonicalCommonPopulationPayload, u64_eq hindex, require_eq h.index,
      h.timestamps_eq, bind, Except.bind]
    rfl, ?_⟩
  exact Nat.le_sub_one_of_lt (digest_lt _)

theorem timingPairResult_spec {i : PairInput} (h : i.Valid) : ∃ r, i.run = .ok r ∧ IsPair i r := by
  obtain ⟨base, hbase, hb⟩ := timingQuantilesNs_spec h.baseline
  obtain ⟨cand, hcand, hc⟩ := timingQuantilesNs_spec h.candidate
  have hb50 : base.p50.valueNs.value = quantileOf i.baseline (1 / 2) := by
    simpa [quantileOf] using hb.p50.value
  have hb95 : base.p95.valueNs.value = quantileOf i.baseline (19 / 20) := by
    simpa [quantileOf] using hb.p95.value
  have hc50 : cand.p50.valueNs.value = quantileOf i.candidate (1 / 2) := by
    simpa [quantileOf] using hc.p50.value
  have hc95 : cand.p95.valueNs.value = quantileOf i.candidate (19 / 20) := by
    simpa [quantileOf] using hc.p95.value
  obtain ⟨g50, hg50, h50⟩ := ratioGate_spec hb.p50.small hc.p50.small
    (numerator_ne_zero (hb50 ▸ h.positive_p50)) limit_median
  obtain ⟨g95, hg95, h95⟩ := ratioGate_spec hb.p95.small hc.p95.small
    (numerator_ne_zero (hb95 ▸ h.positive_p95)) limit_p95
  obtain ⟨sha256, hsha, hshale⟩ := h.payload
  have hindex : i.index ≤ u64Max := le_trans h.index (by decide)
  have hcount : base.p50.rank.sampleCount = i.timestamps.length ∧ cand.p50.rank.sampleCount = i.timestamps.length := by
    rw [hb.p50.rank, hc.p50.rank]
    unfold sortedSamples
    exact ⟨(length_insertionSort _ _).trans h.baseline_length,
      (length_insertionSort _ _).trans h.candidate_length⟩
  have hbinds50 : Binds g50 base.p50 cand.p50 medianRatioLimit := ⟨h50.baselineNs, h50.candidateNs, h50.limits⟩
  have hbinds95 : Binds g95 base.p95 cand.p95 p95RatioLimit := ⟨h95.baselineNs, h95.candidateNs, h95.limits⟩
  have hcheck : (⟨i.index, i.timestamps, sha256, base, cand, g50, g95, g50.passed && g95.passed⟩ :
      TimingPairResult).check = .ok () := by
    simp only [TimingPairResult.check, u64_eq hindex, require_eq h.index, h.timestamps_eq, require_eq hshale, hsha,
      TimingQuantiles.validated, validated_eq hb.check, validated_eq hc.check, require_eq hcount,
      RatioGate.validated, validated_eq h50.check, validated_eq h95.check, require_eq hbinds50, require_eq hbinds95,
      require_true, bind, Except.bind]
  refine ⟨_, ?_, hcheck, rfl, h50.ratio, h95.ratio, ?_, ?_, ?_⟩
  · simp only [PairInput.run, timingPairResult, u64_eq hindex, h.timestamps_eq, hbase, hcand, hg50, hg95, hsha,
      hcheck, require_eq (⟨h.baseline_length, h.candidate_length⟩ :
        i.baseline.length = i.timestamps.length ∧ i.candidate.length = i.timestamps.length), bind, Except.bind]
    rfl
  · rw [h50.value, hb50, hc50]
    rfl
  · rw [h95.value, hb95, hc95]
    rfl
  · rw [Bool.and_eq_true, h50.passed, h95.passed, hb50, hb95, hc50, hc95]
    simp only [medianRatioLimit, p95RatioLimit, Nat.cast_ofNat]

/-! ## Campaigns -/

def IsMiddle (a b c m : ℚ) : Prop := ∃ x z, [x, m, z].Perm [a, b, c] ∧ x ≤ m ∧ m ≤ z

theorem IsMedian.isMiddle {a b c : ExactRatio} {m : MedianOfThreeRatio} (h : IsMedian a b c m) :
    IsMiddle a.value b.value c.value m.medianRatio.value := by
  refine ⟨m.orderedRatios.1.value, m.orderedRatios.2.2.value, ?_, ?_, ?_⟩
  · rw [h.middle]
    exact h.perm.map ExactRatio.value
  · rw [h.middle]
    exact h.ordered.1
  · rw [h.middle]
    exact h.ordered.2

theorem timingCampaignResult_spec {i j k : PairInput} {a b c : TimingPairResult} (ha : IsPair i a) (hb : IsPair j b)
    (hc : IsPair k c) (hi : i.index = 0) (hj : j.index = 1) (hk : k.index = 2) :
    ∃ r, timingCampaignResult (a, b, c) = .ok r ∧
      IsMiddle (i.ratio (1 / 2)) (j.ratio (1 / 2)) (k.ratio (1 / 2)) r.medianP50.medianRatio.value ∧
      IsMiddle (i.ratio (19 / 20)) (j.ratio (19 / 20)) (k.ratio (19 / 20)) r.medianP95.medianRatio.value ∧
      r.passed = (a.passed && b.passed && c.passed) := by
  obtain ⟨m50, hm50, h50⟩ := medianOfThreeRatios_spec ha.ratio50 hb.ratio50 hc.ratio50
  obtain ⟨m95, hm95, h95⟩ := medianOfThreeRatios_spec ha.ratio95 hb.ratio95 hc.ratio95
  have hindices : a.timingPairIndex = 0 ∧ b.timingPairIndex = 1 ∧ c.timingPairIndex = 2 :=
    ⟨ha.index.trans hi, hb.index.trans hj, hc.index.trans hk⟩
  have hparts : campaignParts (a, b, c) = .ok ⟨(a, b, c), m50, m95, a.passed && b.passed && c.passed⟩ := by
    simp only [campaignParts, TimingPairResult.validated, validated_eq ha.check, validated_eq hb.check,
      validated_eq hc.check, require_eq hindices, hm50, hm95, bind, Except.bind]
    rfl
  have hcheck : (⟨(a, b, c), m50, m95, a.passed && b.passed && c.passed, a.passed && b.passed && c.passed⟩ :
      TimingCampaignResult).check = .ok () := by
    simp only [TimingCampaignResult.check, hparts, MedianOfThreeRatio.validated, validated_eq h50.check,
      validated_eq h95.check, and_self, require_true, bind, Except.bind]
  refine ⟨_, by
    simp only [timingCampaignResult, hparts, hcheck, bind, Except.bind]
    rfl, ?_, ?_, rfl⟩
  · rw [← ha.value50, ← hb.value50, ← hc.value50]
    exact h50.isMiddle
  · rw [← ha.value95, ← hb.value95, ← hc.value95]
    exact h95.isMiddle

/-! ## Records -/

theorem hexValue_hexDigit : ∀ d < 16, hexValue (hexDigit d) = some d := by decide

theorem foldlM_hexDigits (n : Nat) : ∀ (k acc : Nat),
    ((List.range k).map fun i => hexDigit (n / 16 ^ (k - 1 - i) % 16)).foldlM
      (fun m c => (hexValue c).map (16 * m + ·)) acc = some (acc * 16 ^ k + n % 16 ^ k)
  | 0, acc => by simp [Nat.mod_one]
  | k + 1, acc => by
    have hdigit := hexValue_hexDigit (n / 16 ^ k % 16) (Nat.mod_lt _ (by decide))
    have hrest : ((List.range k).map fun i => hexDigit (n / 16 ^ (k - (i + 1)) % 16)) =
        (List.range k).map fun i => hexDigit (n / 16 ^ (k - 1 - i) % 16) :=
      map_congr_left fun i _ => by rw [show k - (i + 1) = k - 1 - i by omega]
    rw [range_succ_eq_map, map_cons, List.map_map, foldlM_cons]
    simp only [Function.comp_def, Nat.succ_eq_add_one, hrest, Nat.add_sub_cancel, Nat.sub_zero, hdigit,
      Option.map_some, Option.bind_eq_bind, Option.bind_some]
    rw [foldlM_hexDigits n k, Nat.mod_pow_succ]
    congr 1
    ring

theorem u128FromHex_toHex {n : Nat} (h : n ≤ u128Max) (label label' : String) :
    ∃ s, u128ToHex n label = .ok s ∧ u128FromHex s label' = .ok n := by
  refine ⟨_, by simp only [u128ToHex, require_eq h, bind, Except.bind]; rfl, ?_⟩
  have hfold := foldlM_hexDigits n 32 0
  have hsmall : n % 16 ^ 32 = n := Nat.mod_eq_of_lt (lt_of_le_of_lt h (by decide))
  rw [Nat.zero_mul, Nat.zero_add, hsmall] at hfold
  simp only [u128FromHex, String.toList_ofList, length_map, length_range, if_true]
  simp only [Nat.reduceSub] at hfold
  rw [hfold]

theorem rationalNanoseconds_record {r : RationalNanoseconds} (h : r.check = .ok ()) :
    ∃ record, rationalNanosecondsToRecord r = .ok record ∧ rationalNanosecondsFromRecord record = .ok r := by
  have hbounds : r.numerator ≤ u128Max ∧ r.denominator ≤ u128Max := by
    obtain ⟨d, hd, hrest⟩ := bind_ok h
    obtain ⟨_, hu64, -⟩ := bind_ok hd
    exact ⟨(require_bind_ok hrest).1, le_trans (require_bind_ok hu64).1 (by decide)⟩
  obtain ⟨s, hs, hs'⟩ := u128FromHex_toHex hbounds.1 "rational numerator" "rational numerator"
  obtain ⟨t, ht, ht'⟩ := u128FromHex_toHex hbounds.2 "rational denominator" "rational denominator"
  refine ⟨⟨s, t⟩, ?_, ?_⟩
  · simp only [rationalNanosecondsToRecord, RationalNanoseconds.validated, validated_eq h, hs, ht, bind, Except.bind]
    rfl
  · simp only [rationalNanosecondsFromRecord, hs', ht', RationalNanoseconds.new, bind, Except.bind]
    rw [h]
    rfl

theorem exactRatio_record {r : ExactRatio} (h : r.check = .ok ()) :
    ∃ record, exactRatioToRecord r = .ok record ∧ exactRatioFromRecord record = .ok r := by
  have hbounds : r.numerator ≤ u128Max ∧ r.denominator ≤ u128Max := by
    obtain ⟨hnum, hrest⟩ := require_bind_ok h
    exact ⟨hnum, (require_bind_ok hrest).1.2⟩
  obtain ⟨s, hs, hs'⟩ := u128FromHex_toHex hbounds.1 "exact-ratio numerator" "exact-ratio numerator"
  obtain ⟨t, ht, ht'⟩ := u128FromHex_toHex hbounds.2 "exact-ratio denominator" "exact-ratio denominator"
  refine ⟨⟨s, t⟩, ?_, ?_⟩
  · simp only [exactRatioToRecord, ExactRatio.validated, validated_eq h, hs, ht, bind, Except.bind]
    rfl
  · simp only [exactRatioFromRecord, hs', ht', ExactRatio.new, bind, Except.bind]
    rw [h]
    rfl

/-! ## The main result -/

/-- Quantiles, gates, medians and campaign are computed on every admissible input, are the exact ones, and the
records of rationals are read back. -/
theorem timing_mathematics_exact :
    (∀ samples, Samples samples → ∃ t, timingQuantilesNs samples = .ok t ∧
      (∀ samples' : List Nat, samples'.Perm samples → timingQuantilesNs samples' = .ok t) ∧
      t.p50.valueNs.value = interpolate (sortedSamples samples) (1 / 2) ∧
      t.p95.valueNs.value = interpolate (sortedSamples samples) (19 / 20) ∧
      Nat.gcd t.p50.valueNs.numerator t.p50.valueNs.denominator = 1 ∧
      Nat.gcd t.p95.valueNs.numerator t.p95.valueNs.denominator = 1 ∧
      t.p50.valueNs.value ≤ t.p95.valueNs.value) ∧
    (∀ i : PairInput, i.Valid → ∃ r, i.run = .ok r ∧
      (r.passed = true ↔ quantileOf i.candidate (1 / 2) ≤ 11 / 10 * quantileOf i.baseline (1 / 2) ∧
        quantileOf i.candidate (19 / 20) ≤ 23 / 20 * quantileOf i.baseline (19 / 20))) ∧
    (∀ (i j k : PairInput) (a b c : TimingPairResult), i.Valid → j.Valid → k.Valid → i.run = .ok a → j.run = .ok b →
      k.run = .ok c → i.index = 0 → j.index = 1 → k.index = 2 → ∃ r, timingCampaignResult (a, b, c) = .ok r ∧
        IsMiddle (i.ratio (1 / 2)) (j.ratio (1 / 2)) (k.ratio (1 / 2)) r.medianP50.medianRatio.value ∧
        IsMiddle (i.ratio (19 / 20)) (j.ratio (19 / 20)) (k.ratio (19 / 20)) r.medianP95.medianRatio.value ∧
        r.passed = (a.passed && b.passed && c.passed)) ∧
    (∀ r : RationalNanoseconds, r.check = .ok () →
      ∃ record, rationalNanosecondsToRecord r = .ok record ∧ rationalNanosecondsFromRecord record = .ok r) ∧
    ∀ r : ExactRatio, r.check = .ok () →
      ∃ record, exactRatioToRecord r = .ok record ∧ exactRatioFromRecord record = .ok r := by
  refine ⟨fun samples h => ?_, fun i h => ?_, fun i j k a b c hi hj hk ha hb hc hi0 hj1 hk2 => ?_,
    fun r h => rationalNanoseconds_record h, fun r h => exactRatio_record h⟩
  · obtain ⟨t, ht, hq⟩ := timingQuantilesNs_spec h
    have hp50 : t.p50.valueNs.value = interpolate (sortedSamples samples) (1 / 2) := by simpa using hq.p50.value
    have hp95 : t.p95.valueNs.value = interpolate (sortedSamples samples) (19 / 20) := by simpa using hq.p95.value
    refine ⟨t, ht, fun samples' hperm => (timingQuantilesNs_perm hperm).trans ht, hp50, hp95, hq.p50.small.reduced,
      hq.p95.small.reduced, ?_⟩
    rw [hp50, hp95]
    exact interpolate_mono h.population.sorted h.population.nonempty (by norm_num) (by norm_num) (by norm_num)
  · obtain ⟨r, hr, hpair⟩ := timingPairResult_spec h
    exact ⟨r, hr, hpair.passed⟩
  · obtain ⟨a', ha', hpa⟩ := timingPairResult_spec hi
    obtain ⟨b', hb', hpb⟩ := timingPairResult_spec hj
    obtain ⟨c', hc', hpc⟩ := timingPairResult_spec hk
    obtain rfl := Except.ok.inj (ha.symm.trans ha')
    obtain rfl := Except.ok.inj (hb.symm.trans hb')
    obtain rfl := Except.ok.inj (hc.symm.trans hc')
    exact timingCampaignResult_spec hpa hpb hpc hi0 hj1 hk2

theorem timing_mathematics_exact_two : ∃ t, timingQuantilesNs [30, 10] = .ok t ∧
    t.p50.valueNs.value ≤ t.p95.valueNs.value := by
  obtain ⟨t, ht, -, -, -, -, -, hle⟩ :=
    timing_mathematics_exact.1 [30, 10] ⟨by decide, by decide, by decide⟩
  exact ⟨t, ht, hle⟩

end Bravo.TimingMath
