import Bravo.Basic.Fips180
import Bravo.Basic.Interpolation
import Mathlib.Data.List.Sort

/-! # The records of the exact timing mathematics

`cp2_timing_math.py`: every record of evidence and the checks of its constructor, which recompute what the
record retains. The checks are made again whenever a record goes into another one (`validated`). The integers
are natural numbers; the checks of types and signs are those of the type.
-/

namespace Bravo.TimingMath

structure TimingMathError where
  message : String
deriving DecidableEq, Repr

abbrev Result (α : Type) := Except TimingMathError α

def fail {α : Type} (message : String) : Result α := .error ⟨message⟩

/-- `if not p: raise TimingMathError(message)` -/
def require (p : Prop) [Decidable p] (message : String) : Result Unit := if p then .ok () else fail message

variable {message : String}

theorem require_eq {p : Prop} [Decidable p] (h : p) : require p message = .ok () := if_pos h

@[simp] theorem require_true : require True message = .ok () := if_pos trivial

theorem require_ok {p : Prop} [Decidable p] {u : Unit} (h : require p message = .ok u) : p := by
  unfold require at h
  split_ifs at h with hp
  · exact hp
  · exact absurd h nofun

theorem bind_ok {α β : Type} {x : Result α} {f : α → Result β} {b : β} (h : (x >>= f) = .ok b) :
    ∃ a, x = .ok a ∧ f a = .ok b := by
  cases x with
  | ok a => exact ⟨a, rfl, h⟩
  | error e => exact absurd h nofun

theorem require_bind_ok {p : Prop} [Decidable p] {α : Type} {f : Unit → Result α} {b : α}
    (h : (require p message >>= f) = .ok b) : p ∧ f () = .ok b := by
  obtain ⟨_, hp, hf⟩ := bind_ok h
  exact ⟨require_ok hp, hf⟩

def validated {α : Type} (check : α → Result Unit) (label : String) (value : α) : Result α :=
  match check value with
  | .ok _ => .ok value
  | .error _ => fail label

theorem validated_eq {α : Type} {check : α → Result Unit} {value : α} (h : check value = .ok ())
    (label : String) : validated check label value = .ok value := by rw [validated, h]

/-! ## Bounds -/

def u64Max : Nat := 2 ^ 64 - 1

def u128Max : Nat := 2 ^ 128 - 1

def u256Max : Nat := 2 ^ 256 - 1

def maxTimingSampleCount : Nat := 1000000

def p50Quantile : Nat × Nat := (1, 2)

def p95Quantile : Nat × Nat := (19, 20)

def medianRatioLimit : Nat × Nat := (11, 10)

def p95RatioLimit : Nat × Nat := (23, 20)

def allowedQuantiles : List (Nat × Nat) := [p50Quantile, p95Quantile]

def allowedRatioLimits : List (Nat × Nat) := [medianRatioLimit, p95RatioLimit]

def u64 (value : Nat) (label : String) : Result Nat := do
  require (value ≤ u64Max) (label ++ " is outside u64")
  return value

def positiveU64 (value : Nat) (label : String) : Result Nat := do
  let converted ← u64 value label
  require (converted ≠ 0) (label ++ " must be positive")
  return converted

def checkedU64Add (left right : Nat) (label : String) : Result Nat := do
  let lhs ← u64 left (label ++ " left operand")
  let rhs ← u64 right (label ++ " right operand")
  require (lhs ≤ u64Max - rhs) (label ++ " overflows u64 addition")
  return lhs + rhs

def checkedU64Multiply (left right : Nat) (label : String) : Result Nat := do
  let lhs ← u64 left (label ++ " left operand")
  let rhs ← u64 right (label ++ " right operand")
  require (lhs = 0 ∨ rhs ≤ u64Max / lhs) (label ++ " overflows u64 multiplication")
  return lhs * rhs

def canonicalAllowedPair (numerator denominator : Nat) (allowed : List (Nat × Nat)) (label : String) :
    Result (Nat × Nat) := do
  let num ← u64 numerator (label ++ " numerator")
  let den ← positiveU64 denominator (label ++ " denominator")
  require (num ≠ 0 ∧ Nat.gcd num den = 1) (label ++ " must be a positive canonical rational")
  require ((num, den) ∈ allowed) (label ++ " is not one of the proposed frozen values")
  return (num, den)

/-! ## Hexadecimal scalars -/

def hexDigit (n : Nat) : Char := ("0123456789abcdef".toList).getD n '0'

def hexValue (c : Char) : Option Nat :=
  if '0' ≤ c ∧ c ≤ '9' then some (c.toNat - 0x30)
  else if 'a' ≤ c ∧ c ≤ 'f' then some (c.toNat - 0x61 + 10)
  else none

/-- `format(value, "032x")` of a value below 2^128. -/
def u128ToHex (value : Nat) (label : String) : Result String := do
  require (value ≤ u128Max) (label ++ " is outside u128")
  return String.ofList ((List.range 32).map fun i => hexDigit (value / 16 ^ (31 - i) % 16))

/-- `u128_from_hex`: exactly 32 lowercase digits. -/
def u128FromHex (value label : String) : Result Nat :=
  if value.toList.length = 32 then
    match value.toList.foldlM (fun n c => (hexValue c).map (16 * n + ·)) 0 with
    | some n => .ok n
    | none => fail (label ++ " must be exactly 32 lowercase hexadecimal digits")
  else fail (label ++ " must be exactly 32 lowercase hexadecimal digits")

structure RationalRecord where
  numeratorHex : String
  denominatorHex : String
deriving DecidableEq, Repr

/-! ## Rationals -/

structure RationalNanoseconds where
  numerator : Nat
  denominator : Nat
deriving DecidableEq, Repr

namespace RationalNanoseconds

/-- `__post_init__` -/
def check (r : RationalNanoseconds) : Result Unit := do
  let denominator ← positiveU64 r.denominator "rational denominator"
  require (r.numerator ≤ u128Max) "rational numerator exceeds the retained u128 domain"
  require (r.numerator ≤ u64Max * denominator) "rational nanoseconds value exceeds u64"
  require (Nat.gcd r.numerator denominator = 1) "rational nanoseconds must be reduced"

def new (numerator denominator : Nat) : Result RationalNanoseconds := do
  check ⟨numerator, denominator⟩
  return ⟨numerator, denominator⟩

/-- `_validated_rational_nanoseconds` -/
def validated (value : RationalNanoseconds) (label : String) : Result RationalNanoseconds :=
  TimingMath.validated check (label ++ " is forged or invalid rational evidence") value

def value (r : RationalNanoseconds) : ℚ := r.numerator / r.denominator

end RationalNanoseconds

def rationalNanosecondsToRecord (value : RationalNanoseconds) : Result RationalRecord := do
  let rational ← value.validated "rational record input"
  let numerator ← u128ToHex rational.numerator "rational numerator"
  let denominator ← u128ToHex rational.denominator "rational denominator"
  return ⟨numerator, denominator⟩

def rationalNanosecondsFromRecord (record : RationalRecord) : Result RationalNanoseconds := do
  let numerator ← u128FromHex record.numeratorHex "rational numerator"
  let denominator ← u128FromHex record.denominatorHex "rational denominator"
  RationalNanoseconds.new numerator denominator

structure ExactRatio where
  numerator : Nat
  denominator : Nat
deriving DecidableEq, Repr

namespace ExactRatio

/-- `__post_init__` -/
def check (r : ExactRatio) : Result Unit := do
  require (r.numerator ≤ u128Max) "exact-ratio numerator is outside its bounded domain"
  require (0 < r.denominator ∧ r.denominator ≤ u128Max) "exact-ratio denominator is outside its bounded domain"
  require (Nat.gcd r.numerator r.denominator = 1) "exact ratio must be reduced"

def new (numerator denominator : Nat) : Result ExactRatio := do
  check ⟨numerator, denominator⟩
  return ⟨numerator, denominator⟩

/-- `_validated_exact_ratio` -/
def validated (value : ExactRatio) (label : String) : Result ExactRatio :=
  TimingMath.validated check (label ++ " is forged or invalid exact-ratio evidence") value

def value (r : ExactRatio) : ℚ := r.numerator / r.denominator

end ExactRatio

def exactRatioToRecord (value : ExactRatio) : Result RationalRecord := do
  let ratio ← value.validated "exact-ratio record input"
  let numerator ← u128ToHex ratio.numerator "exact-ratio numerator"
  let denominator ← u128ToHex ratio.denominator "exact-ratio denominator"
  return ⟨numerator, denominator⟩

def exactRatioFromRecord (record : RationalRecord) : Result ExactRatio := do
  let numerator ← u128FromHex record.numeratorHex "exact-ratio numerator"
  let denominator ← u128FromHex record.denominatorHex "exact-ratio denominator"
  ExactRatio.new numerator denominator

def reducedRationalNanoseconds (numerator denominator : Nat) : Result RationalNanoseconds :=
  let divisor := Nat.gcd numerator denominator
  RationalNanoseconds.new (numerator / divisor) (denominator / divisor)

def reducedExactRatio (numerator denominator : Nat) : Result ExactRatio :=
  let divisor := Nat.gcd numerator denominator
  ExactRatio.new (numerator / divisor) (denominator / divisor)

/-! ## Ranks -/

structure LinearRank where
  sampleCount : Nat
  quantileNumerator : Nat
  quantileDenominator : Nat
  lowIndex : Nat
  highIndex : Nat
  weightNumerator : Nat
  weightDenominator : Nat
deriving DecidableEq, Repr

/-- The part of a rank that its constructor and `linear_rank` both compute. -/
structure RankParts where
  low : Nat
  high : Nat
  weight : Nat × Nat

def rankParts (count qNum qDen : Nat) : Result RankParts := do
  let scaled ← checkedU64Multiply (count - 1) qNum "linear rank numerator"
  let low := scaled / qDen
  let remainder := scaled % qDen
  let high ← if remainder = 0 then pure low else checkedU64Add low 1 "linear high rank"
  let divisor := Nat.gcd remainder qDen
  return ⟨low, high, if remainder = 0 then (0, 1) else (remainder / divisor, qDen / divisor)⟩

namespace LinearRank

/-- `__post_init__` -/
def check (r : LinearRank) : Result Unit := do
  let count ← positiveU64 r.sampleCount "linear-rank sample count"
  let q ← canonicalAllowedPair r.quantileNumerator r.quantileDenominator allowedQuantiles "linear-rank quantile"
  let low ← u64 r.lowIndex "linear low index"
  let high ← u64 r.highIndex "linear high index"
  let weightNum ← u64 r.weightNumerator "linear weight numerator"
  let weightDen ← positiveU64 r.weightDenominator "linear weight denominator"
  let expected ← rankParts count q.1 q.2
  require (low = expected.low ∧ high = expected.high ∧ (weightNum, weightDen) = expected.weight)
    "linear-rank evidence differs from exact recomputation"
  require (high < count) "linear rank is outside its population"

/-- `_validated_linear_rank` -/
def validated (value : LinearRank) (label : String) : Result LinearRank :=
  TimingMath.validated check (label ++ " is forged or invalid linear-rank evidence") value

end LinearRank

def linearRank (sampleCount quantileNumerator quantileDenominator : Nat) : Result LinearRank := do
  let count ← positiveU64 sampleCount "sample count"
  let q ← canonicalAllowedPair quantileNumerator quantileDenominator allowedQuantiles "quantile"
  let parts ← rankParts count q.1 q.2
  require (parts.high < count) "linear rank is outside its population"
  let rank : LinearRank := ⟨count, q.1, q.2, parts.low, parts.high, parts.weight.1, parts.weight.2⟩
  rank.check
  return rank

/-! ## Quantiles -/

/-- `value.to_bytes(8, "big")` -/
def bytes8 (value : Nat) : List UInt8 := (List.range 8).map fun i => UInt8.ofNat (value / 256 ^ (7 - i))

/-- `int.from_bytes(bytes, "big")` -/
def fromBytes (bytes : List UInt8) : Nat := bytes.foldl (fun n b => 256 * n + b.toNat) 0

def domainBytes (text : String) : List UInt8 := text.toUTF8.toList ++ [0]

def populationSha256 (ordered : List Nat) : Nat :=
  fromBytes (Fips180.sha256 (domainBytes "SchurVIO-Lite CP2-E sorted u64 timing population v1" ++
    bytes8 ordered.length ++ ordered.flatMap bytes8))

structure LinearQuantile where
  rank : LinearRank
  lowValueNs : Nat
  highValueNs : Nat
  valueNs : RationalNanoseconds
  populationSha256 : Nat
  orderedSamplesNs : List Nat
deriving DecidableEq, Repr

def adjacentAll (ok : Nat → Nat → Bool) : List Nat → Bool
  | a :: b :: rest => ok a b && adjacentAll ok (b :: rest)
  | _ => true

/-- The interpolated value of a rank between two samples. -/
def interpolated (rank : LinearRank) (lowValue highValue : Nat) : Result RationalNanoseconds :=
  reducedRationalNanoseconds
    ((rank.weightDenominator - rank.weightNumerator) * lowValue + rank.weightNumerator * highValue)
    rank.weightDenominator

namespace LinearQuantile

/-- `__post_init__` -/
def check (q : LinearQuantile) : Result Unit := do
  let rank ← q.rank.validated "linear-quantile rank"
  require (rank.sampleCount ≤ maxTimingSampleCount) "linear-quantile population exceeds the resource limit"
  let value ← q.valueNs.validated "linear-quantile value"
  require (q.populationSha256 < 2 ^ 256) "population SHA-256 is outside 256 bits"
  require (q.orderedSamplesNs.length = rank.sampleCount) "linear-quantile population count differs from its rank"
  require (∀ sample ∈ q.orderedSamplesNs, sample ≤ u64Max) "retained timing sample nanoseconds is outside u64"
  require (adjacentAll (fun a b => a ≤ b) q.orderedSamplesNs = true) "retained timing population is not sorted"
  require (TimingMath.populationSha256 q.orderedSamplesNs = q.populationSha256)
    "population SHA-256 differs from retained timing samples"
  let low ← u64 q.lowValueNs "linear low value nanoseconds"
  let high ← u64 q.highValueNs "linear high value nanoseconds"
  require (low ≤ high) "linear-quantile bracketing values are unordered"
  require (rank.lowIndex = rank.highIndex → low = high) "an exact linear rank has unequal bracketing values"
  require (q.orderedSamplesNs[rank.lowIndex]? = some low ∧ q.orderedSamplesNs[rank.highIndex]? = some high)
    "linear bracketing values differ from the retained population"
  let expected ← interpolated rank low high
  require (value = expected) "linear-quantile value differs from exact interpolation"

/-- `_validated_linear_quantile` -/
def validated (value : LinearQuantile) (label : String) : Result LinearQuantile :=
  TimingMath.validated check (label ++ " is forged or invalid linear-quantile evidence") value

end LinearQuantile

structure TimingQuantiles where
  p50 : LinearQuantile
  p95 : LinearQuantile
deriving DecidableEq, Repr

namespace TimingQuantiles

/-- `__post_init__` -/
def check (t : TimingQuantiles) : Result Unit := do
  let p50 ← t.p50.validated "p50"
  let p95 ← t.p95.validated "p95"
  require ((p50.rank.quantileNumerator, p50.rank.quantileDenominator) = p50Quantile ∧
    (p95.rank.quantileNumerator, p95.rank.quantileDenominator) = p95Quantile ∧
    p50.rank.sampleCount = p95.rank.sampleCount) "timing quantiles do not contain one p50/p95 population pair"
  require (p50.populationSha256 = p95.populationSha256) "p50 and p95 do not bind the same sorted population"
  require (p50.orderedSamplesNs = p95.orderedSamplesNs) "p50 and p95 do not retain the same sorted population"
  require (p50.valueNs.numerator * p95.valueNs.denominator ≤ p95.valueNs.numerator * p50.valueNs.denominator)
    "p50 exceeds p95"

/-- `_validated_timing_quantiles` -/
def validated (value : TimingQuantiles) (label : String) : Result TimingQuantiles :=
  TimingMath.validated check (label ++ " is forged or invalid timing-quantile evidence") value

end TimingQuantiles

def snapshotSortedSamples (samples : List Nat) : Result (List Nat) := do
  require (0 < samples.length) "timing sample population is empty"
  require (samples.length ≤ maxTimingSampleCount) "timing sample population exceeds the resource limit"
  require (∀ value ∈ samples, value ≤ u64Max) "timing sample nanoseconds is outside u64"
  return samples.insertionSort (· ≤ ·)

def quantileFromSorted (ordered : List Nat) (q : Nat × Nat) (sha256 : Nat) : Result LinearQuantile := do
  let rank ← linearRank ordered.length q.1 q.2
  match ordered[rank.lowIndex]?, ordered[rank.highIndex]? with
  | some low, some high => do
    let value ← interpolated rank low high
    let quantile : LinearQuantile := ⟨rank, low, high, value, sha256, ordered⟩
    quantile.check
    return quantile
  | _, _ => fail "list index out of range"

def timingQuantilesNs (samples : List Nat) : Result TimingQuantiles := do
  let ordered ← snapshotSortedSamples samples
  let sha256 := populationSha256 ordered
  let p50 ← quantileFromSorted ordered p50Quantile sha256
  let p95 ← quantileFromSorted ordered p95Quantile sha256
  let quantiles : TimingQuantiles := ⟨p50, p95⟩
  quantiles.check
  return quantiles

/-! ## Gates -/

/-- `_candidate_baseline_ratio_from_validated` -/
def candidateBaselineRatio (candidate baseline : RationalNanoseconds) : Result ExactRatio := do
  require (baseline.numerator ≠ 0) "ratio baseline must be positive"
  reducedExactRatio (candidate.numerator * baseline.denominator) (candidate.denominator * baseline.numerator)

structure RatioGate where
  baselineNs : RationalNanoseconds
  candidateNs : RationalNanoseconds
  candidateOverBaseline : ExactRatio
  limitNumerator : Nat
  limitDenominator : Nat
  leftCrossProduct : Nat
  rightCrossProduct : Nat
  passed : Bool
deriving DecidableEq, Repr

namespace RatioGate

/-- `__post_init__` -/
def check (g : RatioGate) : Result Unit := do
  let baseline ← g.baselineNs.validated "ratio-gate baseline"
  let candidate ← g.candidateNs.validated "ratio-gate candidate"
  let retained ← g.candidateOverBaseline.validated "ratio-gate candidate/baseline ratio"
  require (baseline.numerator ≠ 0) "ratio baseline must be positive"
  let expected ← candidateBaselineRatio candidate baseline
  require (retained = expected) "retained candidate/baseline ratio differs from exact recomputation"
  let limit ← canonicalAllowedPair g.limitNumerator g.limitDenominator allowedRatioLimits "ratio-gate limit"
  let left := candidate.numerator * baseline.denominator * limit.2
  let right := baseline.numerator * candidate.denominator * limit.1
  require (left ≤ u128Max ∧ right ≤ u128Max) "ratio-gate cross product exceeds the retained u128 domain"
  require (g.leftCrossProduct = left ∧ g.rightCrossProduct = right)
    "ratio-gate cross product differs from exact recomputation"
  require (g.passed = decide (g.leftCrossProduct ≤ g.rightCrossProduct))
    "ratio-gate decision differs from exact comparison"

/-- `_validated_ratio_gate` -/
def validated (value : RatioGate) (label : String) : Result RatioGate :=
  TimingMath.validated check (label ++ " is forged or invalid ratio-gate evidence") value

end RatioGate

def ratioGate (baselineNs candidateNs : RationalNanoseconds) (limit : Nat × Nat) : Result RatioGate := do
  let baseline ← baselineNs.validated "ratio baseline"
  let candidate ← candidateNs.validated "ratio candidate"
  let exactRatio ← candidateBaselineRatio candidate baseline
  let limit ← canonicalAllowedPair limit.1 limit.2 allowedRatioLimits "ratio limit"
  let left := candidate.numerator * baseline.denominator * limit.2
  let right := baseline.numerator * candidate.denominator * limit.1
  require (left ≤ u128Max ∧ right ≤ u128Max) "ratio-gate cross product exceeds the retained u128 domain"
  let gate : RatioGate := ⟨baseline, candidate, exactRatio, limit.1, limit.2, left, right, decide (left ≤ right)⟩
  gate.check
  return gate

/-! ## Medians -/

/-- `_compare_exact_ratios(left, right) > 0` -/
def exceeds (left right : ExactRatio) : Result Bool := do
  let leftCross := left.numerator * right.denominator
  let rightCross := right.numerator * left.denominator
  require (leftCross ≤ u256Max ∧ rightCross ≤ u256Max) "ratio-ordering cross product exceeds u256"
  return decide (rightCross < leftCross)

structure MedianOfThreeRatio where
  orderedRatios : ExactRatio × ExactRatio × ExactRatio
  medianRatio : ExactRatio
deriving DecidableEq, Repr

namespace MedianOfThreeRatio

/-- `__post_init__` -/
def check (m : MedianOfThreeRatio) : Result Unit := do
  let a ← m.orderedRatios.1.validated "median ordered ratio"
  let b ← m.orderedRatios.2.1.validated "median ordered ratio"
  let c ← m.orderedRatios.2.2.validated "median ordered ratio"
  let median ← m.medianRatio.validated "median ratio"
  let first ← exceeds a b
  let second ← exceeds b c
  require (first = false ∧ second = false) "median ratios are not in nondecreasing exact order"
  require (median = b) "retained median is not the middle ordered ratio"

/-- `_validated_median` -/
def validated (value : MedianOfThreeRatio) (label : String) : Result MedianOfThreeRatio :=
  TimingMath.validated check (label ++ " is forged or invalid median evidence") value

end MedianOfThreeRatio

def compareExchange (p : ExactRatio × ExactRatio) : Result (ExactRatio × ExactRatio) := do
  let swap ← exceeds p.1 p.2
  return if swap then (p.2, p.1) else p

def medianOfThreeRatios (ratios : ExactRatio × ExactRatio × ExactRatio) : Result MedianOfThreeRatio := do
  let a ← ratios.1.validated "median input ratio"
  let b ← ratios.2.1.validated "median input ratio"
  let c ← ratios.2.2.validated "median input ratio"
  let (a, b) ← compareExchange (a, b)
  let (b, c) ← compareExchange (b, c)
  let (a, b) ← compareExchange (a, b)
  let median : MedianOfThreeRatio := ⟨(a, b, c), b⟩
  median.check
  return median

/-! ## Pairs and campaigns -/

def validatedCommonTimestamps (value : List Nat) : Result (List Nat) := do
  require (value ≠ []) "common timestamps must be one nonempty exact tuple"
  require (value.length ≤ maxTimingSampleCount) "common timestamp population exceeds the resource limit"
  require (∀ timestamp ∈ value, timestamp ≤ u64Max) "common camera timestamp is outside u64"
  require (adjacentAll (fun a b => a < b) value = true) "common camera timestamps are not strictly increasing"
  return value

def canonicalCommonPopulationPayload (timingPairIndex : Nat) (commonTimestampsNs : List Nat) :
    Result (List UInt8) := do
  let pairIndex ← u64 timingPairIndex "timing-pair index"
  require (pairIndex ≤ 2) "timing-pair index is outside the frozen three-pair campaign"
  let timestamps ← validatedCommonTimestamps commonTimestampsNs
  return domainBytes "SchurVIO-CP2-timing-common-v1" ++ bytes8 pairIndex ++ bytes8 timestamps.length ++
    timestamps.flatMap bytes8

def commonPayloadSha256 (pairIndex : Nat) (timestamps : List Nat) : Result Nat := do
  let payload ← canonicalCommonPopulationPayload pairIndex timestamps
  return fromBytes (Fips180.sha256 payload)

structure TimingPairResult where
  timingPairIndex : Nat
  commonTimestampsNs : List Nat
  commonPayloadSha256 : Nat
  baselineQuantiles : TimingQuantiles
  candidateQuantiles : TimingQuantiles
  p50Gate : RatioGate
  p95Gate : RatioGate
  passed : Bool
deriving DecidableEq, Repr

def Binds (gate : RatioGate) (baseline candidate : LinearQuantile) (limit : Nat × Nat) : Prop :=
  gate.baselineNs = baseline.valueNs ∧ gate.candidateNs = candidate.valueNs ∧
    (gate.limitNumerator, gate.limitDenominator) = limit

instance (gate : RatioGate) (baseline candidate : LinearQuantile) (limit : Nat × Nat) :
    Decidable (Binds gate baseline candidate limit) :=
  inferInstanceAs (Decidable (_ ∧ _ ∧ _))

namespace TimingPairResult

/-- `__post_init__` -/
def check (r : TimingPairResult) : Result Unit := do
  let pairIndex ← u64 r.timingPairIndex "timing-pair index"
  require (pairIndex ≤ 2) "timing-pair index is outside the frozen three-pair campaign"
  let timestamps ← validatedCommonTimestamps r.commonTimestampsNs
  require (r.commonPayloadSha256 ≤ u256Max) "common payload SHA-256 is outside u256"
  let expected ← TimingMath.commonPayloadSha256 pairIndex timestamps
  require (expected = r.commonPayloadSha256) "common payload SHA-256 differs from exact recomputation"
  let baseline ← r.baselineQuantiles.validated "baseline quantiles"
  let candidate ← r.candidateQuantiles.validated "candidate quantiles"
  require (baseline.p50.rank.sampleCount = timestamps.length ∧ candidate.p50.rank.sampleCount = timestamps.length)
    "timing quantile population count differs from the common timestamps"
  let p50 ← r.p50Gate.validated "p50 gate"
  let p95 ← r.p95Gate.validated "p95 gate"
  require (Binds p50 baseline.p50 candidate.p50 medianRatioLimit) "p50 gate does not bind the retained pair quantiles"
  require (Binds p95 baseline.p95 candidate.p95 p95RatioLimit) "p95 gate does not bind the retained pair quantiles"
  require (r.passed = (p50.passed && p95.passed)) "timing-pair decision differs from both exact gates"

/-- `_validated_timing_pair_result` -/
def validated (value : TimingPairResult) : Result TimingPairResult :=
  TimingMath.validated check "campaign pair result is forged or invalid" value

end TimingPairResult

def timingPairResult (timingPairIndex : Nat) (commonTimestampsNs baselineDurationsNs candidateDurationsNs : List Nat) :
    Result TimingPairResult := do
  let pairIndex ← u64 timingPairIndex "timing-pair index"
  let timestamps ← validatedCommonTimestamps commonTimestampsNs
  require (baselineDurationsNs.length = timestamps.length ∧ candidateDurationsNs.length = timestamps.length)
    "mode timing duration counts differ from the common timestamps"
  let baseline ← timingQuantilesNs baselineDurationsNs
  let candidate ← timingQuantilesNs candidateDurationsNs
  let p50 ← ratioGate baseline.p50.valueNs candidate.p50.valueNs medianRatioLimit
  let p95 ← ratioGate baseline.p95.valueNs candidate.p95.valueNs p95RatioLimit
  let sha256 ← commonPayloadSha256 pairIndex timestamps
  let result : TimingPairResult := ⟨pairIndex, timestamps, sha256, baseline, candidate, p50, p95, p50.passed && p95.passed⟩
  result.check
  return result

structure TimingCampaignResult where
  pairResults : TimingPairResult × TimingPairResult × TimingPairResult
  medianP50 : MedianOfThreeRatio
  medianP95 : MedianOfThreeRatio
  everyPairPassed : Bool
  passed : Bool
deriving DecidableEq, Repr

/-- What the constructor of a campaign and `timing_campaign_result` both compute of the three pairs. -/
structure CampaignParts where
  pairs : TimingPairResult × TimingPairResult × TimingPairResult
  p50 : MedianOfThreeRatio
  p95 : MedianOfThreeRatio
  every : Bool

def campaignParts (pairs : TimingPairResult × TimingPairResult × TimingPairResult) : Result CampaignParts := do
  let a ← pairs.1.validated
  let b ← pairs.2.1.validated
  let c ← pairs.2.2.validated
  require (a.timingPairIndex = 0 ∧ b.timingPairIndex = 1 ∧ c.timingPairIndex = 2)
    "timing campaign pair indices are not exactly 0,1,2"
  let p50 ← medianOfThreeRatios
    (a.p50Gate.candidateOverBaseline, b.p50Gate.candidateOverBaseline, c.p50Gate.candidateOverBaseline)
  let p95 ← medianOfThreeRatios
    (a.p95Gate.candidateOverBaseline, b.p95Gate.candidateOverBaseline, c.p95Gate.candidateOverBaseline)
  return ⟨(a, b, c), p50, p95, a.passed && b.passed && c.passed⟩

namespace TimingCampaignResult

/-- `__post_init__` -/
def check (r : TimingCampaignResult) : Result Unit := do
  let parts ← campaignParts r.pairResults
  let medianP50 ← r.medianP50.validated "campaign p50 median"
  let medianP95 ← r.medianP95.validated "campaign p95 median"
  require (medianP50 = parts.p50 ∧ medianP95 = parts.p95) "timing campaign median differs from exact pair ratios"
  require (r.everyPairPassed = parts.every) "timing campaign every-pair decision differs"
  require (r.passed = parts.every) "timing campaign decision differs from every-pair gates"

end TimingCampaignResult

def timingCampaignResult (pairResults : TimingPairResult × TimingPairResult × TimingPairResult) :
    Result TimingCampaignResult := do
  let parts ← campaignParts pairResults
  let result : TimingCampaignResult := ⟨parts.pairs, parts.p50, parts.p95, parts.every, parts.every⟩
  result.check
  return result

end Bravo.TimingMath
