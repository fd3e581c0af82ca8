import Bravo.Schema.Parameters
import Bravo.Trace.Utf8

/-! # Reading resolved parameters in C++

`ParameterReader` of `CP2OfflineReplay.cpp`, which walks over the encoded parameters and keeps the two numbers of
the replay. What it accepts is the encoding of a canonical mapping with exactly one numeric value under each of the
two names (`parse_ok`). It asks that a name starts with the prefix and not, as the writer does, that it goes on
behind it, so the one mapping that it reads and Python does not write has the bare prefix as its first name.
-/

namespace Bravo.Schema

open PyJson Trace List Reader PyStr

/-! ## Products of doubles -/

/-- The magnitude bits of `n / 2 ^ 1074` units. -/
def roundProduct (n : Nat) : Nat :=
  let k := max (Nat.log2 n - 52) 1074
  min ((k - 1074) * 2 ^ 52 + Binary64.shiftRoundEven n k) Binary64.infMagnitude

/-- The C++ product `x * y`. -/
def multiply (x y : Binary64) : Binary64 :=
  let negative := x.signbit != y.signbit
  if x.isNaN || y.isNaN then Binary64.nan
  else if x.isFinite && y.isFinite then
    Binary64.ofSignMagnitude negative (roundProduct (x.units.natAbs * y.units.natAbs))
  else if x.magnitude == 0 || y.magnitude == 0 then Binary64.nan
  else Binary64.ofSignMagnitude negative Binary64.infMagnitude

/-- `static_cast<double>` of an integer, exact up to 2^53. -/
def ofInteger (n : Int) : Binary64 := Binary64.ofUnits (n * 2 ^ 1074)

/-! ## The reader -/

def bytewiseLess : List UInt8 → List UInt8 → Bool
  | _, [] => false
  | [], _ :: _ => true
  | a :: left, b :: right => if a ≠ b then decide (a < b) else bytewiseLess left right

def endsWith (value suffix : List UInt8) : Bool :=
  decide (suffix.length ≤ value.length ∧ value.drop (value.length - suffix.length) = suffix)

structure ResolvedParameterDigest where
  sequenceIndex : UInt64
  sha256 : String
  sigmaPx : Binary64
  chi2Multiplier : Binary64
deriving DecidableEq

namespace ParameterReader

def expect (expected : List UInt8) (what : String) : Reader Unit := do
  let bytes ← takeBytes expected.length (what ++ " is truncated")
  reject (bytes != expected) "resolved-parameter domain is invalid"

def readU8 (what : String) : Reader UInt8 := do
  let bytes ← takeBytes 1 (what ++ " is truncated")
  return bytes.headD 0

def readU64 (what : String) : Reader UInt64 := do
  let bytes ← takeBytes 8 (what ++ " is truncated")
  return ofBigEndian bytes

def readString (what : String) : Reader (List UInt8) := do
  let length ← readU64 what
  reject (decide (textLimit < length.toNat)) "resolved-parameter string exceeds its bound"
  let result ← takeBytes length.toNat (what ++ " is truncated")
  reject (!CP2OfflineReplay.validUtf8 result || decide ((0 : UInt8) ∈ result))
    "resolved-parameter string is invalid UTF-8"
  return result

def integerNumeric (n : Int) : Option Binary64 := if -2 ^ 53 ≤ n ∧ n ≤ 2 ^ 53 then some (ofInteger n) else none

def readElements (inner : Reader (Option Binary64)) : Nat → Reader Unit
  | 0 => return ()
  | count + 1 => do
    let _ ← inner
    readElements inner count

def readNested (inner : Reader (Option Binary64)) (previous : Option (List UInt8)) : Nat → Reader Unit
  | 0 => return ()
  | count + 1 => do
    let key ← readString "map parameter key"
    reject (previous.any fun p => !bytewiseLess p key) "nested map parameter keys are not strictly ordered"
    let _ ← inner
    readNested inner (some key) count

/-- `ReadValue` behind the tag. -/
def readTagged (inner : Reader (Option Binary64)) (tag : UInt8) : Reader (Option Binary64) :=
  if tag = 0x62 then do
    let value ← readU8 "Boolean parameter value"
    reject (decide (1 < value)) "Boolean parameter value is invalid"
    return none
  else if tag = 0x69 then do
    let bits ← readU64 "integer parameter value"
    return integerNumeric bits.toInt64.toInt
  else if tag = 0x66 then do
    let bits ← readU64 "floating parameter value"
    reject (!(⟨bits⟩ : Binary64).isFinite) "floating parameter value is nonfinite"
    return some ⟨bits⟩
  else if tag = 0x73 then do
    let _ ← readString "string parameter value"
    return none
  else if tag = 0x6c then do
    let count ← readU64 "list parameter count"
    reject (decide (populationLimit < count.toNat)) "list parameter population exceeds its bound"
    readElements inner count.toNat
    return none
  else if tag = 0x6d then do
    let count ← readU64 "map parameter count"
    reject (decide (populationLimit < count.toNat)) "map parameter population exceeds its bound"
    readNested inner none count.toNat
    return none
  else throw "resolved-parameter value tag is forbidden"

/-- `ReadValue`, with the number of levels that are left below `kMaximumJsonDepth`; it returns the number of a
numeric value. -/
def readValue : Nat → Reader (Option Binary64)
  | 0 => throw "resolved-parameter nesting exceeds its bound"
  | levels + 1 => do
    let tag ← readU8 "resolved-parameter value tag"
    readTagged (readValue levels) tag

def maximumJsonDepth : Nat := 64

/-- `"/cp2_vio/"` -/
def namePrefix : List UInt8 := Json.utf8 "/cp2_vio/".toList

/-- `"/up_msckf_sigma_px"` -/
def sigmaSuffix : List Char := "/up_msckf_sigma_px".toList

/-- `"/up_msckf_chi2_multipler"` -/
def chi2Suffix : List Char := "/up_msckf_chi2_multipler".toList

/-- The variables of the loop of `Parse`. -/
structure LoopState where
  previous : Option (List UInt8)
  sigma : Option Binary64
  chi2 : Option Binary64

/-- The loop of `Parse`. -/
def readParameters : Nat → LoopState → Reader (Option Binary64 × Option Binary64)
  | 0, st => return (st.sigma, st.chi2)
  | count + 1, st => do
    let key ← readString "resolved-parameter name"
    reject (decide (key = []) || decide ((0 : UInt8) ∈ key) || !namePrefix.isPrefixOf key ||
      st.previous.any fun p => !bytewiseLess p key)
      "resolved-parameter names are not canonical flattened CP2 names"
    let numeric ← readValue (maximumJsonDepth + 1)
    let sigmaKey := endsWith key (Json.utf8 sigmaSuffix)
    let chi2Key := endsWith key (Json.utf8 chi2Suffix)
    reject (sigmaKey && (st.sigma.isSome || numeric.isNone)) "MSCKF sigma parameter is duplicate or nonnumeric"
    reject (chi2Key && (st.chi2.isSome || numeric.isNone)) "MSCKF chi2 multiplier is duplicate or nonnumeric"
    readParameters count
      { previous := some key
        sigma := if sigmaKey then numeric else st.sigma
        chi2 := if chi2Key then numeric else st.chi2 }

/-- `Parse` up to its last check. -/
def readTop : Reader (Option Binary64 × Option Binary64) := do
  expect resolvedParametersDomain "resolved-parameter domain"
  let tag ← readU8 "top-level parameter tag"
  reject (tag != 0x6d) "resolved parameters are not a top-level map"
  let count ← readU64 "top-level parameter count"
  reject (decide (count = 0 ∨ populationLimit < count.toNat)) "resolved-parameter population is outside its bound"
  readParameters count.toNat ⟨none, none, none⟩

def admissible (sigma chi2 : Binary64) : Bool :=
  sigma.isFinite && decide ((⟨0⟩ : Binary64) < sigma) && (multiply sigma sigma).isFinite &&
    decide ((⟨0⟩ : Binary64) < multiply sigma sigma) && chi2.isFinite

def parse (bytes : List UInt8) (sequenceIndex : UInt64) (sha256 : String) :
    Except String ResolvedParameterDigest :=
  match readTop.run ⟨bytes, 0, 0⟩ with
  | .error e => .error e
  | .ok ((some sigma, some chi2), s) =>
    if s.rest = [] ∧ admissible sigma chi2 then .ok ⟨sequenceIndex, sha256, sigma, chi2⟩
    else .error "resolved parameters are incomplete or invalid for replay"
  | .ok _ => .error "resolved parameters are incomplete or invalid for replay"

/-! ## Order and text -/

theorem bytewiseLess_iff : ∀ left right : List UInt8, bytewiseLess left right = true ↔ left < right
  | left, [] => by
    constructor
    · intro h
      cases left <;> exact absurd h nofun
    · exact fun h => absurd h (not_lt_nil left)
  | [], b :: right => ⟨fun _ => nil_lt_cons b right, fun _ => rfl⟩
  | a :: left, b :: right => by
    rw [bytewiseLess, cons_lt_cons_iff]
    by_cases hab : a = b
    · rw [if_neg (not_not.mpr hab), bytewiseLess_iff left right]
      constructor
      · exact fun h => Or.inr ⟨hab, h⟩
      · rintro (h | ⟨-, h⟩)
        · rw [hab] at h
          exact absurd h (UInt8.lt_irrefl b)
        · exact h
    · rw [if_pos hab, decide_eq_true_iff]
      constructor
      · exact fun h => Or.inl h
      · rintro (h | ⟨h, -⟩)
        · exact h
        · exact absurd h hab

theorem endsWith_iff {value suffix : List UInt8} : endsWith value suffix = true ↔ suffix <:+ value := by
  rw [endsWith, decide_eq_true_iff, suffix_iff_eq_drop]
  constructor
  · rintro ⟨-, h⟩
    exact h.symm
  · intro h
    refine ⟨?_, h.symm⟩
    have hlength := congrArg List.length h
    rw [length_drop] at hlength
    omega

variable {s s' : Cursor} {what : String}

theorem run_readU8 {b : UInt8} : (readU8 what).run s = .ok (b, s') ↔ Consumes s [b] 0 s' := by
  simp only [readU8, run_bind_eq_ok, run_takeBytes_eq_ok, run_pure_eq_ok]
  constructor
  · rintro ⟨bytes, s₁, ⟨hlen, hcons⟩, rfl, rfl⟩
    obtain ⟨b, rfl⟩ := length_eq_one_iff.mp hlen
    exact hcons
  · intro hcons
    exact ⟨[b], s', ⟨rfl, hcons⟩, rfl, rfl⟩

theorem run_readU64 {v : UInt64} :
    (readU64 what).run s = .ok (v, s') ↔ Consumes s (bigEndian v) 0 s' := by
  simp only [readU64, run_bind_eq_ok, run_takeBytes_eq_ok, run_pure_eq_ok]
  constructor
  · rintro ⟨bytes, s₁, ⟨hlen, hcons⟩, rfl, rfl⟩
    rw [bigEndian_ofBigEndian hlen]
    exact hcons
  · intro hcons
    exact ⟨bigEndian v, s', ⟨length_bigEndian v, hcons⟩, (ofBigEndian_bigEndian v).symm, rfl⟩

theorem validUtf8_iff (bytes : List UInt8) :
    CP2OfflineReplay.validUtf8 bytes = true ↔ ∃ s : PyStr, s.encode = some bytes := by
  rw [CP2OfflineReplay.validUtf8, continuationChecks_eq]
  constructor
  · intro h
    obtain ⟨cs, rfl⟩ := wellFormed_of_utf8Loop bytes h
    exact ⟨ofChars cs, encode_ofChars cs⟩
  · rintro ⟨s, h⟩
    obtain ⟨cs, -, rfl⟩ := encode_eq_some.mp h
    exact utf8Loop_flatMap cs

theorem run_readString {bytes : List UInt8} :
    (readString what).run s = .ok (bytes, s') ↔
      ∃ t : PyStr, TextFits t ∧ bytes = keyBytes t ∧ Consumes s (textBytes t) 0 s' := by
  simp only [readString, run_bind_eq_ok, run_readU64, run_reject_eq_ok, run_takeBytes_eq_ok,
    run_pure_eq_ok, decide_eq_false_iff_not, Nat.not_lt, Bool.or_eq_false_iff, Bool.not_eq_false']
  constructor
  · rintro ⟨length, _, hlength, _, s₁, ⟨hle, rfl⟩, result, s₂, ⟨hlen, hresult⟩, _, _, ⟨⟨hvalid, hzero⟩, rfl⟩, rfl, rfl⟩
    obtain ⟨t, ht⟩ := (validUtf8_iff bytes).mp hvalid
    have hkey : keyBytes t = bytes := by rw [keyBytes, ht]; rfl
    have hcount : length = UInt64.ofNat bytes.length := by rw [hlen, UInt64.ofNat_toNat]
    refine ⟨t, ⟨by rw [hkey, ht], hkey ▸ hzero, by rw [hkey, hlen]; exact hle⟩, hkey.symm, ?_⟩
    rw [textBytes, hkey, consumes_append_iff_free]
    exact ⟨s₁, hcount ▸ hlength, hresult⟩
  · rintro ⟨t, ht, rfl, hcons⟩
    obtain ⟨s₁, hlength, hresult⟩ := consumes_append_iff_free.mp hcons
    have hcount : (UInt64.ofNat (keyBytes t).length).toNat = (keyBytes t).length := by
      rw [UInt64.toNat_ofNat', Nat.mod_eq_of_lt ht.length_lt]
    refine ⟨_, s₁, hlength, (), s₁, ⟨by rw [hcount]; exact ht.bounded, rfl⟩, keyBytes t, s', ⟨hcount.symm, hresult⟩, (), s',
      ⟨⟨(validUtf8_iff _).mpr ⟨t, ht.encoded⟩, ht.zero⟩, rfl⟩, rfl, rfl⟩

/-! ## Values -/

def numericOf : Value → Option Binary64
  | .int n => integerNumeric n
  | .float x => some x
  | _ => none

def ReadsValues (levels : Nat) (inner : Reader (Option Binary64)) : Prop :=
  ∀ (numeric : Option Binary64) (s s' : Cursor), inner.run s = .ok (numeric, s') ↔
    ∃ v, Fits levels v ∧ numeric = numericOf v ∧ Consumes s (bytesOf v) 0 s'

variable {inner : Reader (Option Binary64)} {levels : Nat}

theorem run_readElements (hinner : ReadsValues levels inner)
    (count : Nat) : ∀ (u : Unit) (s s' : Cursor), (readElements inner count).run s = .ok (u, s') ↔
      ∃ items : List Value, items.length = count ∧ (∀ v ∈ items, Fits levels v) ∧
        Consumes s (items.flatMap bytesOf) 0 s' := by
  induction count with
  | zero =>
    intro u s s'
    rw [readElements, run_pure_eq_ok]
    constructor
    · rintro ⟨-, rfl⟩
      exact ⟨[], rfl, nofun, consumes_nil_iff.mpr rfl⟩
    · rintro ⟨items, hlen, -, hcons⟩
      obtain rfl := eq_nil_of_length_eq_zero hlen
      exact ⟨rfl, consumes_nil_iff.mp hcons⟩
  | succ count ih =>
    intro u s s''
    simp only [readElements, run_bind_eq_ok, ih]
    constructor
    · rintro ⟨numeric, s', hrun, items, hlen, hall, hrest⟩
      obtain ⟨v, hv, -, hcons⟩ := (hinner _ _ _).mp hrun
      refine ⟨v :: items, by rw [length_cons, hlen], forall_mem_cons.mpr ⟨hv, hall⟩, ?_⟩
      exact consumes_append_iff_free.mpr ⟨s', hcons, hrest⟩
    · rintro ⟨items, hlen, hall, hcons⟩
      obtain ⟨v, items, rfl⟩ := exists_cons_of_length_eq_add_one hlen
      obtain ⟨hv, hrest⟩ := forall_mem_cons.mp hall
      obtain ⟨s', hfirst, hitems⟩ := consumes_append_iff_free.mp hcons
      exact ⟨numericOf v, s', (hinner _ _ _).mpr ⟨v, hv, rfl, hfirst⟩, items, by simpa using hlen, hrest, hitems⟩

def Above (previous : Option (List UInt8)) (entries : List (PyStr × Value)) : Prop :=
  (∀ p ∈ previous, ∀ e ∈ entries, p < keyBytes e.1) ∧ entries.Pairwise fun a b => keyBytes a.1 < keyBytes b.1

theorem above_cons {previous : Option (List UInt8)} {e : PyStr × Value} {es : List (PyStr × Value)} :
    Above previous (e :: es) ↔ (previous.any fun p => !bytewiseLess p (keyBytes e.1)) = false ∧
      Above (some (keyBytes e.1)) es := by
  have hfirst : (previous.any fun p => !bytewiseLess p (keyBytes e.1)) = false ↔ ∀ p ∈ previous, p < keyBytes e.1 := by
    cases previous with
    | none => exact ⟨fun _ => nofun, fun _ => rfl⟩
    | some q =>
      rw [Option.any_some, Bool.not_eq_false', bytewiseLess_iff]
      exact ⟨fun h p hp => Option.some.inj hp ▸ h, fun h => h q rfl⟩
  rw [hfirst, Above, Above, pairwise_cons]
  constructor
  · rintro ⟨habove, hhead, htail⟩
    exact ⟨fun p hp => habove p hp e mem_cons_self, fun p hp => Option.some.inj hp ▸ hhead, htail⟩
  · rintro ⟨habove, hhead, htail⟩
    refine ⟨fun p hp => forall_mem_cons.mpr ⟨habove p hp, fun e' he' => ?_⟩, hhead _ rfl, htail⟩
    exact List.lt_trans (habove p hp) (hhead _ rfl e' he')

theorem run_readNested (hinner : ReadsValues levels inner)
    (count : Nat) : ∀ (previous : Option (List UInt8)) (u : Unit) (s s' : Cursor),
      (readNested inner previous count).run s = .ok (u, s') ↔
        ∃ entries : List (PyStr × Value), entries.length = count ∧ Above previous entries ∧
          (∀ e ∈ entries, TextFits e.1 ∧ Fits levels e.2) ∧ Consumes s (entries.flatMap entryBytes) 0 s' := by
  induction count with
  | zero =>
    intro previous u s s'
    rw [readNested, run_pure_eq_ok]
    constructor
    · rintro ⟨-, rfl⟩
      exact ⟨[], rfl, ⟨fun _ _ => nofun, List.Pairwise.nil⟩, nofun, consumes_nil_iff.mpr rfl⟩
    · rintro ⟨entries, hlen, -, -, hcons⟩
      obtain rfl := eq_nil_of_length_eq_zero hlen
      exact ⟨rfl, consumes_nil_iff.mp hcons⟩
  | succ count ih =>
    intro previous u s s''
    simp only [readNested, run_bind_eq_ok, run_readString, run_reject_eq_ok, ih]
    constructor
    · rintro ⟨key, _, ⟨t, ht, rfl, htext⟩, _, s₁, ⟨horder, rfl⟩, numeric, s₂, hrun, entries, hlen, habove, hall, hrest⟩
      obtain ⟨v, hv, -, hcons⟩ := (hinner _ _ _).mp hrun
      refine ⟨(t, v) :: entries, by rw [length_cons, hlen], above_cons.mpr ⟨horder, habove⟩,
        forall_mem_cons.mpr ⟨⟨ht, hv⟩, hall⟩, ?_⟩
      exact consumes_append_iff_free.mpr ⟨s₂, consumes_append_iff_free.mpr ⟨s₁, htext, hcons⟩, hrest⟩
    · rintro ⟨entries, hlen, habove, hall, hcons⟩
      obtain ⟨e, entries, rfl⟩ := exists_cons_of_length_eq_add_one hlen
      obtain ⟨⟨ht, hv⟩, hrest⟩ := forall_mem_cons.mp hall
      obtain ⟨horder, habove'⟩ := above_cons.mp habove
      obtain ⟨s₂, hfirst, hentries⟩ := consumes_append_iff_free.mp hcons
      obtain ⟨s₁, htext, hvalue⟩ := consumes_append_iff_free.mp hfirst
      exact ⟨keyBytes e.1, s₁, ⟨e.1, ht, rfl, htext⟩, (), s₁, ⟨horder, rfl⟩, numericOf e.2, s₂,
        (hinner _ _ _).mpr ⟨e.2, hv, rfl, hvalue⟩, entries, by simpa using hlen, habove', hrest, hentries⟩

theorem consumes_cons_iff {s s'' : Cursor} {b : UInt8} {bytes : List UInt8} :
    Consumes s (b :: bytes) 0 s'' ↔ ∃ s', Consumes s [b] 0 s' ∧ Consumes s' bytes 0 s'' :=
  show Consumes s ([b] ++ bytes) 0 s'' ↔ _ from consumes_append_iff_free

theorem toNat_ofNat_population {n : Nat} (h : n ≤ populationLimit) : (UInt64.ofNat n).toNat = n := by
  rw [UInt64.toNat_ofNat', Nat.mod_eq_of_lt (lt_of_le_of_lt h (by decide))]

theorem run_readTagged (hinner : ReadsValues levels inner)
    (tag : UInt8) (numeric : Option Binary64) (s s' : Cursor) :
    (readTagged inner tag).run s = .ok (numeric, s') ↔
      ∃ v bytes, Fits (levels + 1) v ∧ bytesOf v = tag :: bytes ∧ numeric = numericOf v ∧ Consumes s bytes 0 s' := by
  constructor
  · intro h
    unfold readTagged at h
    -- what the branch of each tag read is a value with that tag
    split_ifs at h with hb hi hf hs hl hm
    · simp only [run_bind_eq_ok, run_readU8, run_reject_eq_ok, run_pure_eq_ok,
        decide_eq_false_iff_not] at h
      obtain ⟨value, _, hvalue, _, s₁, ⟨hle, rfl⟩, rfl, rfl⟩ := h
      have hbit : value = 0 ∨ value = 1 := by
        have hnat : ¬ 1 < value.toNat := fun hlt => hle (UInt8.lt_iff_toNat_lt.mpr hlt)
        have hcases : value.toNat = 0 ∨ value.toNat = 1 := by omega
        exact hcases.imp (fun h0 => UInt8.toNat_inj.mp h0) fun h1 => UInt8.toNat_inj.mp h1
      rcases hbit with rfl | rfl
      · exact ⟨.bool false, [0], trivial, hb ▸ rfl, rfl, hvalue⟩
      · exact ⟨.bool true, [1], trivial, hb ▸ rfl, rfl, hvalue⟩
    · simp only [run_bind_eq_ok, run_readU64, run_pure_eq_ok] at h
      obtain ⟨bits, s₁, hbits, rfl, rfl⟩ := h
      have hrange : -2 ^ 63 ≤ bits.toInt64.toInt ∧ bits.toInt64.toInt < 2 ^ 63 :=
        ⟨Int64.le_toInt _, Int64.toInt_lt _⟩
      refine ⟨.int bits.toInt64.toInt, bigEndian bits, hrange, ?_, rfl, hbits⟩
      rw [bytesOf, Int64.ofInt_toInt, hi]
      rfl
    · simp only [run_bind_eq_ok, run_readU64, run_reject_eq_ok, run_pure_eq_ok,
        Bool.not_eq_false'] at h
      obtain ⟨bits, _, hbits, _, s₁, ⟨hfinite, rfl⟩, rfl, rfl⟩ := h
      exact ⟨.float ⟨bits⟩, bigEndian bits, hfinite, hf ▸ rfl, rfl, hbits⟩
    · simp only [run_bind_eq_ok, run_readString, run_pure_eq_ok] at h
      obtain ⟨bytes, s₁, ⟨t, ht, rfl, htext⟩, rfl, rfl⟩ := h
      exact ⟨.str t, textBytes t, ht, hs ▸ rfl, rfl, htext⟩
    · simp only [run_bind_eq_ok, run_readU64, run_reject_eq_ok, run_pure_eq_ok,
        run_readElements hinner, decide_eq_false_iff_not, Nat.not_lt] at h
      obtain ⟨count, _, hcount, _, s₁, ⟨hle, rfl⟩, _, s₂, ⟨items, hlen, hall, hitems⟩, rfl, rfl⟩ := h
      have hword : UInt64.ofNat items.length = count := by rw [hlen, UInt64.ofNat_toNat]
      refine ⟨.arr items, bigEndian count ++ items.flatMap bytesOf, ⟨hlen ▸ hle, hall⟩, ?_, rfl, ?_⟩
      · rw [bytesOf, bytesOfItems_eq, hword, hl]
      · exact consumes_append_iff_free.mpr ⟨s₁, hcount, hitems⟩
    · simp only [run_bind_eq_ok, run_readU64, run_reject_eq_ok, run_pure_eq_ok,
        run_readNested hinner, decide_eq_false_iff_not, Nat.not_lt] at h
      obtain ⟨count, _, hcount, _, s₁, ⟨hle, rfl⟩, _, s₂, ⟨entries, hlen, habove, hall, hentries⟩, rfl, rfl⟩ := h
      have hword : UInt64.ofNat entries.length = count := by rw [hlen, UInt64.ofNat_toNat]
      refine ⟨.obj entries, bigEndian count ++ entries.flatMap entryBytes, ⟨hlen ▸ hle, habove.2, hall⟩, ?_, rfl, ?_⟩
      · rw [bytesOf, bytesOfEntries_eq, hword, hm]
      · exact consumes_append_iff_free.mpr ⟨s₁, hcount, hentries⟩
    · cases h
  · rintro ⟨v, bytes, hfits, hbytes, rfl, hcons⟩
    -- the tag of the value selects its branch
    cases v with
    | null => exact absurd hfits id
    | bool b =>
      obtain ⟨rfl, rfl⟩ := List.cons.inj hbytes
      rw [readTagged, if_pos rfl]
      simp only [run_bind_eq_ok, run_readU8, run_reject_eq_ok, run_pure_eq_ok]
      exact ⟨_, s', hcons, (), s', ⟨by cases b <;> rfl, rfl⟩, rfl, rfl⟩
    | int n =>
      obtain ⟨rfl, rfl⟩ := List.cons.inj hbytes
      rw [readTagged, if_neg (by decide), if_pos rfl]
      simp only [run_bind_eq_ok, run_readU64, run_pure_eq_ok]
      refine ⟨_, s', hcons, ?_, rfl⟩
      show integerNumeric n = integerNumeric (Int64.ofInt n).toUInt64.toInt64.toInt
      exact congrArg integerNumeric (toInt_ofInt hfits).symm
    | float x =>
      obtain ⟨rfl, rfl⟩ := List.cons.inj hbytes
      rw [readTagged, if_neg (by decide), if_neg (by decide), if_pos rfl]
      simp only [run_bind_eq_ok, run_readU64, run_reject_eq_ok, run_pure_eq_ok, Bool.not_eq_false']
      exact ⟨x.bits, s', hcons, (), s', ⟨hfits, rfl⟩, rfl, rfl⟩
    | str t =>
      obtain ⟨rfl, rfl⟩ := List.cons.inj hbytes
      rw [readTagged, if_neg (by decide), if_neg (by decide), if_neg (by decide), if_pos rfl]
      simp only [run_bind_eq_ok, run_readString, run_pure_eq_ok]
      exact ⟨keyBytes t, s', ⟨t, hfits, rfl, hcons⟩, rfl, rfl⟩
    | arr items =>
      obtain ⟨rfl, rfl⟩ := List.cons.inj hbytes
      rw [bytesOfItems_eq] at hcons
      obtain ⟨s₁, hcount, hitems⟩ := consumes_append_iff_free.mp hcons
      have hword := toNat_ofNat_population hfits.1
      rw [readTagged, if_neg (by decide), if_neg (by decide), if_neg (by decide), if_neg (by decide), if_pos rfl]
      simp only [run_bind_eq_ok, run_readU64, run_reject_eq_ok, run_pure_eq_ok,
        run_readElements hinner, decide_eq_false_iff_not, Nat.not_lt]
      exact ⟨_, s₁, hcount, (), s₁, ⟨by rw [hword]; exact hfits.1, rfl⟩, (), s', ⟨items, hword.symm, hfits.2, hitems⟩,
        rfl, rfl⟩
    | obj entries =>
      obtain ⟨rfl, rfl⟩ := List.cons.inj hbytes
      rw [bytesOfEntries_eq] at hcons
      obtain ⟨s₁, hcount, hentries⟩ := consumes_append_iff_free.mp hcons
      have hword := toNat_ofNat_population hfits.1
      rw [readTagged, if_neg (by decide), if_neg (by decide), if_neg (by decide), if_neg (by decide),
        if_neg (by decide), if_pos rfl]
      simp only [run_bind_eq_ok, run_readU64, run_reject_eq_ok, run_pure_eq_ok,
        run_readNested hinner, decide_eq_false_iff_not, Nat.not_lt]
      exact ⟨_, s₁, hcount, (), s₁, ⟨by rw [hword]; exact hfits.1, rfl⟩, (), s',
        ⟨entries, hword.symm, ⟨fun _ hp => absurd hp (by simp), hfits.2.1⟩, hfits.2.2, hentries⟩, rfl, rfl⟩

theorem run_readValue (levels : Nat) : ReadsValues levels (readValue levels) := by
  induction levels with
  | zero =>
    intro numeric s s'
    constructor
    · exact nofun
    · rintro ⟨v, hfits, -⟩
      exact absurd hfits id
  | succ levels ih =>
    intro numeric s s''
    simp only [readValue, run_bind_eq_ok, run_readU8, run_readTagged ih]
    constructor
    · rintro ⟨tag, s', htag, v, bytes, hfits, hbytes, hnumeric, hcons⟩
      exact ⟨v, hfits, hnumeric, by rw [hbytes]; exact consumes_cons_iff.mpr ⟨s', htag, hcons⟩⟩
    · rintro ⟨v, hfits, hnumeric, hcons⟩
      cases hbytes : bytesOf v with
      | nil => cases v <;> first | exact absurd hfits id | exact absurd hbytes (cons_ne_nil _ _)
      | cons tag bytes =>
        rw [hbytes] at hcons
        obtain ⟨s', htag, hrest⟩ := consumes_cons_iff.mp hcons
        exact ⟨tag, s', htag, v, bytes, hfits, hbytes, hnumeric, hrest⟩

/-! ## The two numbers -/

def hasSuffix (suffix : List Char) (entry : PyStr × Value) : Bool := decide (PyStr.ofChars suffix <:+ entry.1)

/-- What the loop keeps for a name, or `none` where it fails. -/
def pick (suffix : List Char) : Option Binary64 → List (PyStr × Value) → Option (Option Binary64)
  | found, [] => some found
  | found, e :: es =>
    if hasSuffix suffix e then
      if found.isSome || (numericOf e.2).isNone then none else pick suffix (numericOf e.2) es
    else pick suffix found es

/-- Exactly one name ends with the characters, and its value is a number. -/
def OneNumeric (suffix : List Char) (entries : List (PyStr × Value)) (x : Binary64) : Prop :=
  ∃ e, entries.filter (hasSuffix suffix) = [e] ∧ numericOf e.2 = some x

variable {suffix : List Char}

theorem pick_some {y : Binary64} {entries : List (PyStr × Value)} {r : Option Binary64} :
    pick suffix (some y) entries = some r ↔ entries.filter (hasSuffix suffix) = [] ∧ r = some y := by
  induction entries with
  | nil => exact ⟨fun h => ⟨rfl, (Option.some.inj h).symm⟩, fun h => congrArg some h.2.symm⟩
  | cons e es ih =>
    rw [pick]
    by_cases he : hasSuffix suffix e = true
    · rw [if_pos he, filter_cons_of_pos he]
      exact ⟨nofun, fun h => absurd h.1 (cons_ne_nil _ _)⟩
    · rw [if_neg he, filter_cons_of_neg he, ih]

theorem pick_none {x : Binary64} {entries : List (PyStr × Value)} :
    pick suffix none entries = some (some x) ↔ OneNumeric suffix entries x := by
  induction entries with
  | nil =>
    constructor
    · exact nofun
    · rintro ⟨e, h, -⟩
      exact absurd h nofun
  | cons e es ih =>
    rw [pick, OneNumeric]
    by_cases he : hasSuffix suffix e = true
    · rw [if_pos he, filter_cons_of_pos he]
      cases hnumeric : numericOf e.2 with
      | none =>
        refine ⟨nofun, ?_⟩
        rintro ⟨e', h, hx⟩
        obtain rfl := (List.cons.inj h).1
        exact absurd (hnumeric.symm.trans hx) nofun
      | some y =>
        show pick suffix (some y) es = _ ↔ _
        rw [pick_some]
        constructor
        · rintro ⟨hnil, hx⟩
          exact ⟨e, by rw [hnil], hnumeric.trans hx.symm⟩
        · rintro ⟨e', h, hx⟩
          obtain ⟨rfl, hnil⟩ := List.cons.inj h
          exact ⟨hnil, hx.symm.trans hnumeric⟩
    · rw [if_neg he, filter_cons_of_neg he, ih, OneNumeric]

/-! ## ASCII at the ends of a string -/

def Ascii (cs : List Char) : Prop := ∀ c ∈ cs, c.toNat < 128

theorem utf8EncodeChar_ascii {c : Char} (h : c.toNat < 128) : String.utf8EncodeChar c = [UInt8.ofNat c.toNat] := by
  have hall : ∀ n < 128, String.utf8EncodeChar (Char.ofNat n) = [UInt8.ofNat n] := by decide
  have hc := hall c.toNat h
  rwa [Char.ofNat_toNat] at hc

theorem eq_of_ascii_mem {c d : Char} (h : c.toNat < 128) (hmem : UInt8.ofNat c.toNat ∈ String.utf8EncodeChar d) :
    d = c := by
  have hbyte : (UInt8.ofNat c.toNat).toNat = c.toNat := byte_toNat (by omega)
  have hd := Json.toNat_of_mem_utf8EncodeChar hmem (by rw [hbyte]; exact h)
  rw [hbyte] at hd
  rw [← Char.ofNat_toNat d, hd, Char.ofNat_toNat]

theorem utf8_append (cs ds : List Char) : Json.utf8 (cs ++ ds) = Json.utf8 cs ++ Json.utf8 ds := flatMap_append

theorem utf8_ne_nil {cs : List Char} (h : cs ≠ []) : Json.utf8 cs ≠ [] := by
  obtain ⟨c, cs, rfl⟩ := exists_cons_of_ne_nil h
  intro hnil
  have hc : String.utf8EncodeChar c = [] := (append_eq_nil_iff.mp hnil).1
  have hlen := Char.utf8Size_pos c
  rw [← String.length_utf8EncodeChar, hc] at hlen
  exact absurd hlen (Nat.lt_irrefl 0)

theorem prefix_of_utf8 : ∀ {a cs : List Char}, Ascii a → Json.utf8 a <+: Json.utf8 cs → a <+: cs
  | [], cs, _, _ => nil_prefix
  | c :: a, [], _, h => absurd (prefix_nil.mp h) (utf8_ne_nil (cons_ne_nil c a))
  | c :: a, d :: cs, ha, h => by
    have hc := ha c mem_cons_self
    obtain ⟨rest, hrest⟩ := h
    have hsplit : UInt8.ofNat c.toNat :: (Json.utf8 a ++ rest) = String.utf8EncodeChar d ++ Json.utf8 cs := by
      have := hrest
      rwa [Json.utf8, flatMap_cons, utf8EncodeChar_ascii hc] at this
    have hmem : UInt8.ofNat c.toNat ∈ String.utf8EncodeChar d := by
      cases hd : String.utf8EncodeChar d with
      | nil => exact absurd hd (fun hnil => utf8_ne_nil (cons_ne_nil d []) (by rw [Json.utf8, flatMap_singleton, hnil]))
      | cons b bs =>
        rw [hd] at hsplit
        exact (List.cons.inj hsplit).1 ▸ mem_cons_self
    obtain rfl := eq_of_ascii_mem hc hmem
    rw [utf8EncodeChar_ascii hc] at hsplit
    have htail := (List.cons.inj hsplit).2
    have hbegins := prefix_of_utf8 (fun e he => ha e (mem_cons_of_mem _ he)) ⟨rest, htail⟩
    exact cons_prefix_cons.mpr ⟨rfl, hbegins⟩

variable {a : List Char}

theorem suffix_of_utf8 (ha : Ascii a) : ∀ {cs : List Char}, Json.utf8 a <:+ Json.utf8 cs → a <:+ cs := by
  induction a using List.reverseRecOn with
  | nil => exact fun _ => nil_suffix
  | append_singleton a c ih =>
    intro cs h
    have hc := ha c (mem_append_right _ mem_cons_self)
    rcases eq_nil_or_concat' cs with rfl | ⟨cs, d, rfl⟩
    · exact absurd (suffix_nil.mp h) (utf8_ne_nil (by simp))
    · obtain ⟨rest, hrest⟩ := h
      have hone : ∀ e : Char, Json.utf8 [e] = String.utf8EncodeChar e := fun e => flatMap_singleton _ _
      rw [utf8_append, utf8_append, hone, hone, utf8EncodeChar_ascii hc, ← append_assoc] at hrest
      have hmem : UInt8.ofNat c.toNat ∈ String.utf8EncodeChar d := by
        rcases eq_nil_or_concat' (String.utf8EncodeChar d) with hnil | ⟨bs, b, hb⟩
        · exact absurd (by rw [hone, hnil]) (utf8_ne_nil (cons_ne_nil d []))
        · rw [hb, ← append_assoc] at hrest
          have hlast := (append_inj' hrest rfl).2
          rw [hb, ← singleton_inj.mp hlast]
          exact mem_append_right _ mem_cons_self
      obtain rfl := eq_of_ascii_mem hc hmem
      rw [utf8EncodeChar_ascii hc] at hrest
      have hinit := (append_inj' hrest rfl).1
      obtain ⟨front, hfront⟩ := ih (fun e he => ha e (mem_append_left _ he)) ⟨rest, hinit⟩
      exact ⟨front, by rw [← append_assoc, hfront]⟩

variable {t : PyStr}

theorem textFits_chars (h : TextFits t) : ∃ cs, t = PyStr.ofChars cs ∧ keyBytes t = Json.utf8 cs :=
  encode_eq_some.mp h.encoded

theorem ofChars_prefix_iff {a cs : List Char} : PyStr.ofChars a <+: PyStr.ofChars cs ↔ a <+: cs := by
  constructor
  · rintro ⟨rest, hrest⟩
    obtain ⟨b, ds, rfl, hb, -⟩ := map_eq_append_iff.mp hrest.symm
    obtain rfl := ofChars_injective hb
    exact prefix_append _ _
  · rintro ⟨rest, rfl⟩
    exact ⟨ofChars rest, map_append.symm⟩

theorem ofChars_suffix_iff {a cs : List Char} : PyStr.ofChars a <:+ PyStr.ofChars cs ↔ a <:+ cs := by
  constructor
  · rintro ⟨rest, hrest⟩
    obtain ⟨ds, b, rfl, -, hb⟩ := map_eq_append_iff.mp hrest.symm
    obtain rfl := ofChars_injective hb
    exact suffix_append _ _
  · rintro ⟨rest, rfl⟩
    exact ⟨ofChars rest, map_append.symm⟩

theorem prefix_keyBytes (ht : TextFits t) (ha : Ascii a) :
    Json.utf8 a <+: keyBytes t ↔ PyStr.ofChars a <+: t := by
  obtain ⟨cs, rfl, hkey⟩ := textFits_chars ht
  rw [hkey, ofChars_prefix_iff]
  constructor
  · exact prefix_of_utf8 ha
  · rintro ⟨rest, rfl⟩
    exact ⟨Json.utf8 rest, (utf8_append _ _).symm⟩

theorem suffix_keyBytes (ht : TextFits t) (ha : Ascii a) :
    Json.utf8 a <:+ keyBytes t ↔ PyStr.ofChars a <:+ t := by
  obtain ⟨cs, rfl, hkey⟩ := textFits_chars ht
  rw [hkey, ofChars_suffix_iff]
  constructor
  · exact suffix_of_utf8 ha
  · rintro ⟨rest, rfl⟩
    exact ⟨Json.utf8 rest, (utf8_append _ _).symm⟩

theorem endsWith_keyBytes (e : PyStr × Value) (h : TextFits e.1) (ha : Ascii suffix) :
    endsWith (keyBytes e.1) (Json.utf8 suffix) = hasSuffix suffix e := by
  rw [Bool.eq_iff_iff, endsWith_iff, suffix_keyBytes h ha, hasSuffix, decide_eq_true_iff]

theorem ascii_of_all {cs : List Char} (h : (cs.all fun c => decide (c.toNat < 128)) = true) : Ascii cs :=
  fun c hc => of_decide_eq_true (all_eq_true.mp h c hc)

theorem ascii_sigmaSuffix : Ascii sigmaSuffix := ascii_of_all (by decide)

theorem ascii_chi2Suffix : Ascii chi2Suffix := ascii_of_all (by decide)

theorem ascii_prefix : Ascii "/cp2_vio/".toList := ascii_of_all (by decide)

/-! ## The whole artifact -/

structure ItemFits (e : PyStr × Value) : Prop where
  text : TextFits e.1
  below : resolvedParameterPrefix <+: e.1
  value : Fits (maximumJsonDepth + 1) e.2

theorem name_checks (ht : TextFits t) :
    (decide (keyBytes t = []) || decide ((0 : UInt8) ∈ keyBytes t) || !namePrefix.isPrefixOf (keyBytes t)) = false ↔
      resolvedParameterPrefix <+: t := by
  rw [Bool.or_eq_false_iff, Bool.or_eq_false_iff, Bool.not_eq_false', isPrefixOf_iff_prefix,
    decide_eq_false_iff_not, decide_eq_false_iff_not]
  have hbegins : namePrefix <+: keyBytes t ↔ resolvedParameterPrefix <+: t := prefix_keyBytes ht ascii_prefix
  rw [hbegins]
  refine ⟨fun h => h.2, fun h => ⟨⟨?_, ht.zero⟩, h⟩⟩
  intro hnil
  have hbytes := hbegins.mpr h
  rw [hnil, prefix_nil] at hbytes
  exact absurd hbytes (by decide)

theorem run_readParameters (count : Nat) : ∀ (st : LoopState) (sigma chi2 : Option Binary64) (s s' : Cursor),
    (readParameters count st).run s = .ok ((sigma, chi2), s') ↔
      ∃ entries : List (PyStr × Value), entries.length = count ∧ Above st.previous entries ∧
        (∀ e ∈ entries, ItemFits e) ∧ pick sigmaSuffix st.sigma entries = some sigma ∧
          pick chi2Suffix st.chi2 entries = some chi2 ∧ Consumes s (entries.flatMap entryBytes) 0 s' := by
  induction count with
  | zero =>
    intro st sigma chi2 s s'
    rw [readParameters, run_pure_eq_ok]
    constructor
    · rintro ⟨heq, rfl⟩
      obtain ⟨rfl, rfl⟩ := Prod.mk.inj heq
      exact ⟨[], rfl, ⟨fun _ _ => nofun, List.Pairwise.nil⟩, nofun, rfl, rfl, consumes_nil_iff.mpr rfl⟩
    · rintro ⟨entries, hlen, -, -, hsigma, hchi2, hcons⟩
      obtain rfl := eq_nil_of_length_eq_zero hlen
      obtain rfl := Option.some.inj hsigma
      obtain rfl := Option.some.inj hchi2
      exact ⟨rfl, consumes_nil_iff.mp hcons⟩
  | succ count ih =>
    intro st sigma chi2 s s''
    -- One step of a pick is what the loop does with a name and its number.
    have hpick : ∀ {suffix : List Char} {found : Option Binary64} {e : PyStr × Value} {es : List (PyStr × Value)}
        {r : Option Binary64}, pick suffix found (e :: es) = some r ↔
          (hasSuffix suffix e && (found.isSome || (numericOf e.2).isNone)) = false ∧
            pick suffix (if hasSuffix suffix e then numericOf e.2 else found) es = some r := by
      intro suffix found e es r
      rw [pick]
      cases hasSuffix suffix e with
      | false => exact ⟨fun h => ⟨rfl, h⟩, fun h => h.2⟩
      | true =>
        cases hbad : found.isSome || (numericOf e.2).isNone with
        | false => exact ⟨fun h => ⟨rfl, h⟩, fun h => h.2⟩
        | true => exact ⟨nofun, fun h => absurd h.1 nofun⟩
    simp only [readParameters, run_bind_eq_ok, run_readString, run_reject_eq_ok,
      run_readValue (maximumJsonDepth + 1) _ _ _, ih]
    constructor
    · rintro ⟨key, _, ⟨t, ht, rfl, htext⟩, _, s₁, ⟨hname, rfl⟩, numeric, _, ⟨v, hv, rfl, hvalue⟩, _, _, ⟨hsigma, rfl⟩,
        _, s₂, ⟨hchi2, rfl⟩, entries, hlen, habove, hall, hps, hpc, hrest⟩
      rw [Bool.or_eq_false_iff] at hname
      have hitem : ItemFits (t, v) := ⟨ht, (name_checks ht).mp hname.1, hv⟩
      rw [show endsWith (keyBytes t) (Json.utf8 sigmaSuffix) = hasSuffix sigmaSuffix (t, v) from
        endsWith_keyBytes (t, v) ht ascii_sigmaSuffix] at hsigma hps
      rw [show endsWith (keyBytes t) (Json.utf8 chi2Suffix) = hasSuffix chi2Suffix (t, v) from
        endsWith_keyBytes (t, v) ht ascii_chi2Suffix] at hchi2 hpc
      refine ⟨(t, v) :: entries, by rw [length_cons, hlen], above_cons.mpr ⟨hname.2, habove⟩,
        forall_mem_cons.mpr ⟨hitem, hall⟩, hpick.mpr ⟨hsigma, hps⟩, hpick.mpr ⟨hchi2, hpc⟩, ?_⟩
      exact consumes_append_iff_free.mpr ⟨_, consumes_append_iff_free.mpr ⟨_, htext, hvalue⟩, hrest⟩
    · rintro ⟨entries, hlen, habove, hall, hps, hpc, hcons⟩
      obtain ⟨⟨t, v⟩, entries, rfl⟩ := exists_cons_of_length_eq_add_one hlen
      obtain ⟨⟨ht, hbelow, hv⟩, hrest⟩ := forall_mem_cons.mp hall
      obtain ⟨horder, habove'⟩ := above_cons.mp habove
      obtain ⟨s₂, hfirst, hentries⟩ := consumes_append_iff_free.mp hcons
      obtain ⟨s₁, htext, hvalue⟩ := consumes_append_iff_free.mp hfirst
      obtain ⟨hsigma, hps'⟩ := hpick.mp hps
      obtain ⟨hchi2, hpc'⟩ := hpick.mp hpc
      have hes : endsWith (keyBytes t) (Json.utf8 sigmaSuffix) = hasSuffix sigmaSuffix (t, v) :=
        endsWith_keyBytes (t, v) ht ascii_sigmaSuffix
      have hec : endsWith (keyBytes t) (Json.utf8 chi2Suffix) = hasSuffix chi2Suffix (t, v) :=
        endsWith_keyBytes (t, v) ht ascii_chi2Suffix
      refine ⟨keyBytes t, s₁, ⟨t, ht, rfl, htext⟩, (), s₁,
        ⟨Bool.or_eq_false_iff.mpr ⟨(name_checks ht).mpr hbelow, horder⟩, rfl⟩, numericOf v, s₂, ⟨v, hv, rfl, hvalue⟩,
        (), s₂, ⟨by rw [hes]; exact hsigma, rfl⟩, (), s₂, ⟨by rw [hec]; exact hchi2, rfl⟩, entries, by simpa using hlen,
        habove', hrest, by rw [hes]; exact hps', by rw [hec]; exact hpc', hentries⟩

/-- A top-level map that the reader accepts, up to its two numbers. -/
structure TopFits (entries : List (PyStr × Value)) : Prop where
  nonempty : entries ≠ []
  bounded : entries.length ≤ populationLimit
  ordered : entries.Pairwise fun a b => keyBytes a.1 < keyBytes b.1
  items : ∀ e ∈ entries, ItemFits e

theorem run_expect {expected : List UInt8} {u : Unit} :
    (expect expected what).run s = .ok (u, s') ↔ Consumes s expected 0 s' := by
  simp only [expect, run_bind_eq_ok, run_takeBytes_eq_ok, run_reject_eq_ok, bne_eq_false_iff_eq]
  constructor
  · rintro ⟨bytes, s₁, ⟨-, hcons⟩, rfl, rfl⟩
    exact hcons
  · intro hcons
    exact ⟨expected, s', ⟨rfl, hcons⟩, rfl, rfl⟩

theorem run_readTop {sigma chi2 : Option Binary64} :
    readTop.run s = .ok ((sigma, chi2), s') ↔ ∃ entries : List (PyStr × Value), TopFits entries ∧
      pick sigmaSuffix none entries = some sigma ∧ pick chi2Suffix none entries = some chi2 ∧
        Consumes s (resolvedParametersDomain ++ bytesOf (.obj entries)) 0 s' := by
  simp only [readTop, run_bind_eq_ok, run_expect, run_readU8, run_readU64, run_reject_eq_ok,
    run_readParameters, bne_eq_false_iff_eq, decide_eq_false_iff_not, not_or, Nat.not_lt, bytesOf, bytesOfEntries_eq]
  constructor
  · rintro ⟨_, s₁, hdomain, tag, _, htag, _, s₂, ⟨rfl, rfl⟩, count, _, hcount, _, s₃, ⟨⟨hzero, hle⟩, rfl⟩, entries, hlen,
      habove, hall, hps, hpc, hentries⟩
    have hword : UInt64.ofNat entries.length = count := by rw [hlen, UInt64.ofNat_toNat]
    have hne : entries ≠ [] := by
      rintro rfl
      exact hzero (UInt64.toNat_inj.mp hlen.symm)
    refine ⟨entries, ⟨hne, hlen ▸ hle, habove.2, hall⟩, hps, hpc, ?_⟩
    rw [hword]
    refine consumes_append_iff_free.mpr ⟨s₁, hdomain, consumes_cons_iff.mpr ⟨_, htag, ?_⟩⟩
    exact consumes_append_iff_free.mpr ⟨_, hcount, hentries⟩
  · rintro ⟨entries, ⟨hne, hle, hordered, hall⟩, hps, hpc, hcons⟩
    obtain ⟨s₁, hdomain, hrest⟩ := consumes_append_iff_free.mp hcons
    obtain ⟨s₂, htag, hrest⟩ := consumes_cons_iff.mp hrest
    obtain ⟨s₃, hcount, hentries⟩ := consumes_append_iff_free.mp hrest
    have hword := toNat_ofNat_population hle
    refine ⟨(), s₁, hdomain, 0x6d, s₂, htag, (), s₂, ⟨rfl, rfl⟩, _, s₃, hcount, (), s₃, ⟨⟨?_, by rw [hword]; exact hle⟩, rfl⟩,
      entries, hword.symm, ⟨fun _ hp => absurd hp (by simp), hordered⟩, hall, hps, hpc, hentries⟩
    intro hzero
    rw [hzero] at hword
    exact hne (eq_nil_of_length_eq_zero hword.symm)

theorem parse_ok {bytes : List UInt8} {sequenceIndex : UInt64} {sha256 : String} {d : ResolvedParameterDigest} :
    parse bytes sequenceIndex sha256 = .ok d ↔ ∃ entries : List (PyStr × Value), TopFits entries ∧
      bytes = resolvedParametersDomain ++ bytesOf (.obj entries) ∧ OneNumeric sigmaSuffix entries d.sigmaPx ∧
        OneNumeric chi2Suffix entries d.chi2Multiplier ∧ admissible d.sigmaPx d.chi2Multiplier = true ∧
          d.sequenceIndex = sequenceIndex ∧ d.sha256 = sha256 := by
  unfold parse
  constructor
  · intro h
    split at h
    · exact absurd h nofun
    · rename_i sigma chi2 s hrun
      split_ifs at h with hend
      · obtain rfl := Except.ok.inj h
        obtain ⟨entries, hfits, hps, hpc, hcons⟩ := run_readTop.mp hrun
        refine ⟨entries, hfits, ?_, pick_none.mp hps, pick_none.mp hpc, hend.2, rfl, rfl⟩
        have hrest := hcons.rest
        rw [hend.1, append_nil] at hrest
        exact hrest
    · exact absurd h nofun
  · rintro ⟨entries, hfits, rfl, hsigma, hchi2, hadmissible, rfl, rfl⟩
    have hcons : Consumes ⟨resolvedParametersDomain ++ bytesOf (.obj entries), 0, 0⟩
        (resolvedParametersDomain ++ bytesOf (.obj entries)) 0
          ⟨[], (resolvedParametersDomain ++ bytesOf (.obj entries)).length, 0⟩ :=
      ⟨(append_nil _).symm, (Nat.zero_add _).symm, rfl⟩
    have hrun := run_readTop.mpr ⟨entries, hfits, pick_none.mpr hsigma, pick_none.mpr hchi2, hcons⟩
    rw [hrun]
    exact if_pos ⟨rfl, hadmissible⟩

end ParameterReader

/-! ## The writer and the reader -/

section Agreement

open ParameterReader

variable {keyRepr : PyStr → String}

structure Leaf (name : PyStr) : Prop where
  below : resolvedParameterPrefix <+: name
  longer : name.length ≠ resolvedParameterPrefix.length

variable {entries : List (PyStr × Value)}

theorem validateNames_ok (h : validateNames entries = .ok ()) : ∀ e ∈ entries, Leaf e.1 := by
  induction entries with
  | nil => exact nofun
  | cons e es ih =>
    obtain ⟨bytes, -, hrest⟩ := bind_eq_ok.mp h
    split_ifs at hrest with hleaf
    · exact absurd hrest nofun
    · obtain ⟨hbelow, hlonger⟩ := not_or.mp hleaf
      exact forall_mem_cons.mpr ⟨⟨not_not.mp hbelow, hlonger⟩, ih hrest⟩

theorem validateNames_eq (htext : ∀ e ∈ entries, TextFits e.1)
    (hleaf : ∀ e ∈ entries, Leaf e.1) : validateNames entries = .ok () := by
  induction entries with
  | nil => rfl
  | cons e es ih =>
    obtain ⟨ht, htext⟩ := forall_mem_cons.mp htext
    obtain ⟨hl, hleaf⟩ := forall_mem_cons.mp hleaf
    rw [validateNames, ht.utf8]
    show (if _ then _ else _) = _
    rw [if_neg (not_or.mpr ⟨not_not.mpr hl.below, hl.longer⟩), ih htext hleaf]

/-- The levels of the top-level map and of what `ReadValue` accepts below it. -/
def topLevels : Nat := maximumJsonDepth + 2

variable {bytes : List UInt8}

theorem encodeResolved_ok {v : Value} (hsized : Sized topLevels v)
    (h : encodeResolvedParameters keyRepr v = .ok bytes) :
    bytes = resolvedParametersDomain ++ bytesOf (canonical v) ∧ Fits topLevels (canonical v) ∧
      ∃ entries, v = .obj entries ∧ ∀ e ∈ entries, Leaf e.1 := by
  obtain ⟨validated, hvalidated, h⟩ := bind_eq_ok.mp h
  obtain ⟨encoded, hencoded, hbytes⟩ := bind_eq_ok.mp h
  obtain rfl := Except.ok.inj hbytes
  cases v with
  | obj entries =>
    obtain ⟨⟨⟩, hnames, hsame⟩ := bind_eq_ok.mp hvalidated
    obtain rfl := Except.ok.inj hsame
    obtain ⟨hfits, rfl⟩ := encodeParameterValue_ok topLevels _ hsized _ _ hencoded
    exact ⟨rfl, hfits, entries, rfl, validateNames_ok hnames⟩
  | _ => exact absurd hvalidated nofun

theorem encodeResolved_injective {v w : Value} (hv : Sized topLevels v) (hw : Sized topLevels w)
    (h : encodeResolvedParameters keyRepr v = .ok bytes) (h' : encodeResolvedParameters keyRepr w = .ok bytes) :
    canonical v = canonical w := by
  obtain ⟨rfl, hfits, -⟩ := encodeResolved_ok hv h
  obtain ⟨hbytes, hfits', -⟩ := encodeResolved_ok hw h'
  exact (separates_bytesOf topLevels).key_eq hfits hfits' (append_cancel_left hbytes)

theorem canonical_obj (entries : List (PyStr × Value)) :
    canonical (.obj entries) = .obj ((sortByName entries).map canonicalEntry) := by
  rw [canonical, canonicalEntries_eq, sortByName_map canonicalEntry fun _ => rfl]

theorem canonical_items_perm (entries : List (PyStr × Value)) :
    ((sortByName entries).map canonicalEntry).Perm (entries.map canonicalEntry) :=
  (sortByName_perm entries).map canonicalEntry

theorem numericOf_canonical (v : Value) : numericOf (canonical v) = numericOf v := by cases v <;> rfl

theorem oneNumeric_canonical {suffix : List Char} {x : Binary64}
    (h : OneNumeric suffix entries x) : OneNumeric suffix ((sortByName entries).map canonicalEntry) x := by
  obtain ⟨e, hfilter, hnumeric⟩ := h
  refine ⟨canonicalEntry e, ?_, (numericOf_canonical e.2).trans hnumeric⟩
  have hperm := (canonical_items_perm entries).filter (hasSuffix suffix)
  rw [filter_map] at hperm
  have hsame : (hasSuffix suffix) ∘ canonicalEntry = hasSuffix suffix := rfl
  rw [filter_map, hsame] at hperm
  rw [filter_map, hsame]
  rw [hfilter] at hperm
  exact perm_singleton.mp hperm

/-- The domain of `parameters_agree`: a map within the bounds with one admissible number under each of the two names. -/
structure Readable (entries : List (PyStr × Value)) (sigma chi2 : Binary64) : Prop where
  sized : Sized topLevels (.obj entries)
  oneSigma : OneNumeric sigmaSuffix entries sigma
  oneChi2 : OneNumeric chi2Suffix entries chi2
  admitted : admissible sigma chi2 = true

theorem parse_of_encode {sigma chi2 : Binary64}
    (hreadable : Readable entries sigma chi2) (h : encodeResolvedParameters keyRepr (.obj entries) = .ok bytes)
    (sequenceIndex : UInt64) (sha256 : String) :
    parse bytes sequenceIndex sha256 = .ok ⟨sequenceIndex, sha256, sigma, chi2⟩ := by
  obtain ⟨rfl, hfits, entries', heq, hleaf⟩ := encodeResolved_ok hreadable.sized h
  obtain rfl := PyJson.obj.inj heq
  rw [canonical_obj] at hfits ⊢
  obtain ⟨hbound, hordered, hall⟩ := hfits
  have hne : entries ≠ [] := by
    rintro rfl
    obtain ⟨e, hnil, -⟩ := hreadable.oneSigma
    exact absurd hnil nofun
  refine parse_ok.mpr ⟨_, ⟨?_, hbound, hordered, fun e he => ?_⟩, rfl, oneNumeric_canonical hreadable.oneSigma,
    oneNumeric_canonical hreadable.oneChi2, hreadable.admitted, rfl, rfl⟩
  · intro hnil
    have hlength := (canonical_items_perm entries).length_eq
    rw [hnil, length_map] at hlength
    exact hne (eq_nil_of_length_eq_zero hlength.symm)
  · obtain ⟨e', he', rfl⟩ := mem_map.mp ((canonical_items_perm entries).mem_iff.mp he)
    exact ⟨(hall _ he).1, (hleaf e' he').below, (hall _ he).2⟩

theorem first_length {e : PyStr × Value} {es : List (PyStr × Value)} :
    ((resolvedParametersDomain ++ bytesOf (.obj (e :: es))).drop 36).take 8 =
      bigEndian (UInt64.ofNat (keyBytes e.1).length) := by
  have hdrop : (resolvedParametersDomain ++ bytesOf (.obj (e :: es))).drop 36 =
      bigEndian (UInt64.ofNat (keyBytes e.1).length) ++ (keyBytes e.1 ++ (bytesOf e.2 ++ es.flatMap entryBytes)) := by
    have hhead : (resolvedParametersDomain ++ [0x6d] ++ bigEndian (UInt64.ofNat (e :: es).length)).length = 36 := by
      rw [length_append, length_bigEndian]
      rfl
    rw [bytesOf, bytesOfEntries_eq, ← hhead]
    have hsplit : resolvedParametersDomain ++ 0x6d :: (bigEndian (UInt64.ofNat (e :: es).length) ++
        (e :: es).flatMap entryBytes) = (resolvedParametersDomain ++ [0x6d] ++
          bigEndian (UInt64.ofNat (e :: es).length)) ++ (e :: es).flatMap entryBytes := by
      simp only [append_assoc, cons_append, nil_append]
    rw [hsplit, drop_left, flatMap_cons, entryBytes, textBytes]
    simp only [append_assoc]
  rw [hdrop, take_left' (length_bigEndian _)]

theorem leaf_iff {t : PyStr} (ht : TextFits t) (hbelow : resolvedParameterPrefix <+: t) :
    Leaf t ↔ (keyBytes t).length ≠ 9 := by
  obtain ⟨cs, rfl, hkey⟩ := textFits_chars ht
  obtain ⟨rest, rfl⟩ := ofChars_prefix_iff.mp hbelow
  have hbytes : (keyBytes (PyStr.ofChars ("/cp2_vio/".toList ++ rest))).length = 9 + (Json.utf8 rest).length := by
    rw [hkey, utf8_append, length_append]
    rfl
  have hlength : (PyStr.ofChars ("/cp2_vio/".toList ++ rest)).length = 9 + rest.length := by
    rw [ofChars, length_map, length_append]
    rfl
  rw [hbytes]
  constructor
  · intro h hnine
    have hnil : Json.utf8 rest = [] := eq_nil_of_length_eq_zero (by omega)
    have hrest : rest = [] := by
      by_contra hne
      exact utf8_ne_nil hne hnil
    exact h.longer (by rw [hlength, hrest]; rfl)
  · intro h
    refine ⟨hbelow, fun hnine => h ?_⟩
    have hzero : rest.length = 0 := by
      have hbegins : resolvedParameterPrefix.length = 9 := rfl
      omega
    rw [eq_nil_of_length_eq_zero hzero]
    rfl

theorem leaves_iff {e : PyStr × Value} {es : List (PyStr × Value)} (h : TopFits (e :: es)) :
    (∀ e' ∈ e :: es, Leaf e'.1) ↔ Leaf e.1 := by
  refine ⟨fun hall => hall e mem_cons_self, fun hfirst => forall_mem_cons.mpr ⟨hfirst, fun e' he' => ?_⟩⟩
  obtain ⟨hitem, hitems⟩ := forall_mem_cons.mp h.items
  obtain ⟨htext, hbelow, -⟩ := hitems e' he'
  rw [leaf_iff htext hbelow]
  intro hnine
  have hbegins : namePrefix <+: keyBytes e'.1 := (prefix_keyBytes htext ascii_prefix).mpr hbelow
  have hbare : namePrefix = keyBytes e'.1 := hbegins.eq_of_length (by rw [hnine]; rfl)
  have hlt := (pairwise_cons.mp h.ordered).1 e' he'
  rw [← hbare] at hlt
  have hle : namePrefix ≤ keyBytes e.1 := List.IsPrefix.le ((prefix_keyBytes hitem.text ascii_prefix).mpr hitem.below)
  exact hle hlt

theorem fits_of_topFits (h : TopFits entries) : Fits topLevels (.obj entries) :=
  ⟨h.bounded, h.ordered, fun e he => ⟨(h.items e he).text, (h.items e he).value⟩⟩

variable (keyRepr) in
theorem encode_of_topFits (h : TopFits entries) (hleaf : ∀ e ∈ entries, Leaf e.1) :
    encodeResolvedParameters keyRepr (.obj entries) = .ok (resolvedParametersDomain ++ bytesOf (.obj entries)) := by
  have hnames := validateNames_eq (fun e he => (h.items e he).text) hleaf
  have hencode := (encodeParameterValue_eq keyRepr topLevels _ (fits_of_topFits h)).1 "resolved parameters"
  rw [encodeResolvedParameters, validateResolvedParameterMap, hnames]
  show (encodeParameterValue keyRepr "resolved parameters" (.obj entries) >>= fun bytes => _) = _
  rw [hencode]
  rfl

variable (keyRepr) in
/-- What the reader accepts is the encoding of exactly one map, unless its first name is the bare prefix. -/
theorem unique_of_parse {sequenceIndex : UInt64} {sha256 : String} {d : ResolvedParameterDigest}
    (h : parse bytes sequenceIndex sha256 = .ok d) :
    (∃ entries, Readable entries d.sigmaPx d.chi2Multiplier ∧
      encodeResolvedParameters keyRepr (.obj entries) = .ok bytes ∧
        ∀ w, Sized topLevels w → encodeResolvedParameters keyRepr w = .ok bytes →
          canonical w = canonical (.obj entries)) ↔ (bytes.drop 36).take 8 ≠ bigEndian 9 := by
  obtain ⟨entries, hfits, rfl, hsigma, hchi2, hadmissible, -, -⟩ := parse_ok.mp h
  obtain ⟨-, hcanonical, hsized⟩ := encodeParameterValue_eq keyRepr topLevels _ (fits_of_topFits hfits)
  obtain ⟨e, es, rfl⟩ := exists_cons_of_ne_nil hfits.nonempty
  have hitem := hfits.items e mem_cons_self
  have hcondition : ((resolvedParametersDomain ++ bytesOf (.obj (e :: es))).drop 36).take 8 ≠ bigEndian 9 ↔
      ∀ e' ∈ e :: es, Leaf e'.1 := by
    rw [first_length, leaves_iff hfits, leaf_iff hitem.text hitem.below]
    refine not_congr ⟨fun heq => ?_, fun heq => by rw [heq]; rfl⟩
    have hword : UInt64.ofNat (keyBytes e.1).length = 9 := by
      rw [← ofBigEndian_bigEndian (UInt64.ofNat _), heq, ofBigEndian_bigEndian]
    have hnat := congrArg UInt64.toNat hword
    rwa [UInt64.toNat_ofNat', Nat.mod_eq_of_lt (hitem.text.length_lt)] at hnat
  rw [hcondition]
  constructor
  · rintro ⟨entries', hreadable, hencode, -⟩ e' he'
    obtain ⟨hbytes, hfits', entries'', heq, hleaf⟩ := encodeResolved_ok hreadable.sized hencode
    obtain rfl := PyJson.obj.inj heq
    have hsame := (separates_bytesOf topLevels).key_eq (fits_of_topFits hfits) hfits' (append_cancel_left hbytes)
    rw [canonical_obj] at hsame
    have hitems := PyJson.obj.inj hsame
    rw [hitems] at he'
    obtain ⟨e'', he'', rfl⟩ := mem_map.mp ((canonical_items_perm entries').mem_iff.mp he')
    exact hleaf e'' he''
  · intro hleaf
    have hencode := encode_of_topFits keyRepr hfits hleaf
    exact ⟨e :: es, ⟨hsized, hsigma, hchi2, hadmissible⟩, hencode,
      fun w hw hencode' => encodeResolved_injective hw hsized hencode' hencode⟩

/-- The encoding is injective up to the order of the names, the reader returns the two numbers of every map of its
domain, and what it accepts is the encoding of exactly one such map if and only if the length of its first name is
not that of the bare prefix. -/
theorem parameters_agree (keyRepr : PyStr → String) :
    (∀ (v w : Value) (bytes : List UInt8), Sized topLevels v → Sized topLevels w →
      encodeResolvedParameters keyRepr v = .ok bytes → encodeResolvedParameters keyRepr w = .ok bytes →
        canonical v = canonical w) ∧
    (∀ (entries : List (PyStr × Value)) (sigma chi2 : Binary64) (bytes : List UInt8) (sequenceIndex : UInt64)
      (sha256 : String), Readable entries sigma chi2 → encodeResolvedParameters keyRepr (.obj entries) = .ok bytes →
        parse bytes sequenceIndex sha256 = .ok ⟨sequenceIndex, sha256, sigma, chi2⟩) ∧
    (∀ (bytes : List UInt8) (sequenceIndex : UInt64) (sha256 : String) (d : ResolvedParameterDigest),
      parse bytes sequenceIndex sha256 = .ok d →
        ((∃ entries, Readable entries d.sigmaPx d.chi2Multiplier ∧
          encodeResolvedParameters keyRepr (.obj entries) = .ok bytes ∧
            ∀ w, Sized topLevels w → encodeResolvedParameters keyRepr w = .ok bytes →
              canonical w = canonical (.obj entries)) ↔ (bytes.drop 36).take 8 ≠ bigEndian 9)) :=
  ⟨fun _ _ _ hv hw h h' => encodeResolved_injective hv hw h h',
    fun _ _ _ _ sequenceIndex sha256 hreadable h => parse_of_encode hreadable h sequenceIndex sha256,
    fun _ _ _ _ h => unique_of_parse keyRepr h⟩

def bareEntries : List (PyStr × Value) :=
  [(PyStr.lit "/cp2_vio/", .bool false), (PyStr.lit "/cp2_vio/up_msckf_chi2_multipler", .int 1),
    (PyStr.lit "/cp2_vio/up_msckf_sigma_px", .float ⟨0x3ff0000000000000⟩)]

theorem parameters_agree_two :
    parse (resolvedParametersDomain ++ bytesOf (.obj bareEntries.tail)) 7 "digest" =
      .ok ⟨7, "digest", ⟨0x3ff0000000000000⟩, ofInteger 1⟩ := by
  have htext : ∀ e ∈ bareEntries.tail, (keyBytes e.1).length ≤ textLimit ∧ Sized (maximumJsonDepth + 1) e.2 :=
    forall_mem_cons.mpr ⟨⟨by decide +kernel, trivial⟩, forall_mem_singleton.mpr ⟨by decide +kernel, trivial⟩⟩
  refine (parameters_agree fun _ => "").2.1 bareEntries.tail _ _ _ 7 "digest"
    ⟨⟨by decide, by decide +kernel, htext⟩, ⟨_, rfl, rfl⟩, ⟨_, rfl, rfl⟩, by decide +kernel⟩ ?_
  rfl

/-- The reader accepts the bare prefix as a name, which the writer writes for no map. -/
theorem bare_prefix_read :
    parse (resolvedParametersDomain ++ bytesOf (.obj bareEntries)) 0 "" =
        .ok ⟨0, "", ⟨0x3ff0000000000000⟩, ofInteger 1⟩ ∧
      ∀ keyRepr : PyStr → String, ¬ ∃ entries, Readable entries ⟨0x3ff0000000000000⟩ (ofInteger 1) ∧
        encodeResolvedParameters keyRepr (.obj entries) =
          .ok (resolvedParametersDomain ++ bytesOf (.obj bareEntries)) := by
  have hparse : parse (resolvedParametersDomain ++ bytesOf (.obj bareEntries)) 0 "" =
      .ok ⟨0, "", ⟨0x3ff0000000000000⟩, ofInteger 1⟩ := by decide +kernel
  refine ⟨hparse, ?_⟩
  rintro keyRepr ⟨entries, hreadable, hencode⟩
  have hunique := (unique_of_parse keyRepr hparse).mp ⟨entries, hreadable, hencode,
    fun w hw hencode' => encodeResolved_injective hw hreadable.sized hencode' hencode⟩
  exact hunique (by decide +kernel)

end Agreement

end Bravo.Schema
