import Bravo.Basic.Fault
import Bravo.Basic.Fips180
import Bravo.Trace.Canonical
import Bravo.Trace.Utf8

/-! # The digest is SHA-256

`CP2Sha256` takes a message in pieces and answers at any time with the FIPS 180-4 digest of what it has
taken. `Absorbed M s` is its invariant: the complete blocks of the message `M` are in the state, the rest
is in the buffer. `CP2CanonicalBuffer` keeps a hasher beside its bytes, one step behind at most.
-/

namespace Bravo.Trace

open List CP2Sha256 Fips180

open Fips180 (blocks pad sha256)

/-! ## One block -/

def HashState.words (s : HashState) : Fips180.Words := ⟨s.a, s.b, s.c, s.d, s.e, s.f, s.g, s.h⟩

theorem roundConstants_eq : roundConstants = (List.range 64).map Fips180.roundConstant := by
  decide +kernel

theorem words_new : CP2Sha256.new.state.words = Fips180.initial := by
  decide +kernel

theorem loadWord_eq (b₀ b₁ b₂ b₃ : UInt8) :
    b₀.toUInt32 <<< 24 ||| b₁.toUInt32 <<< 16 ||| b₂.toUInt32 <<< 8 ||| b₃.toUInt32 =
      UInt32.ofNat ([b₀, b₁, b₂, b₃].foldl (fun n byte => 256 * n + byte.toNat) 0) := by
  have h₀ := b₀.toNat_lt
  have h₁ := b₁.toNat_lt
  have h₂ := b₂.toNat_lt
  have h₃ := b₃.toNat_lt
  have hor : ∀ (x : Nat) (k : Nat) (y : Nat), y < 2 ^ k → x * 2 ^ k ||| y = x * 2 ^ k + y := by
    intro x k y hy
    rw [← Nat.shiftLeft_eq, Nat.shiftLeft_add_eq_or_of_lt hy]
  apply UInt32.toNat_inj.mp
  have e₀ : (b₀.toUInt32 <<< 24).toNat = b₀.toNat * 2 ^ 24 := by
    rw [UInt32.toNat_shiftLeft, UInt8.toNat_toUInt32, Nat.shiftLeft_eq]
    exact Nat.mod_eq_of_lt (by simp; omega)
  have e₁ : (b₁.toUInt32 <<< 16).toNat = b₁.toNat * 2 ^ 16 := by
    rw [UInt32.toNat_shiftLeft, UInt8.toNat_toUInt32, Nat.shiftLeft_eq]
    exact Nat.mod_eq_of_lt (by simp; omega)
  have e₂ : (b₂.toUInt32 <<< 8).toNat = b₂.toNat * 2 ^ 8 := by
    rw [UInt32.toNat_shiftLeft, UInt8.toNat_toUInt32, Nat.shiftLeft_eq]
    exact Nat.mod_eq_of_lt (by simp; omega)
  rw [UInt32.toNat_or, UInt32.toNat_or, UInt32.toNat_or, e₀, e₁, e₂, UInt8.toNat_toUInt32]
  rw [hor _ 24 _ (by omega)]
  rw [show b₀.toNat * 2 ^ 24 + b₁.toNat * 2 ^ 16 = (b₀.toNat * 2 ^ 8 + b₁.toNat) * 2 ^ 16 by ring,
    hor _ 16 _ (by omega)]
  rw [show (b₀.toNat * 2 ^ 8 + b₁.toNat) * 2 ^ 16 + b₂.toNat * 2 ^ 8 =
    (b₀.toNat * 2 ^ 16 + b₁.toNat * 2 ^ 8 + b₂.toNat) * 2 ^ 8 by ring, hor _ 8 _ (by omega)]
  rw [UInt32.toNat_ofNat']
  simp only [foldl_cons, foldl_nil]
  omega

theorem loadWords_eq (n : Nat) : ∀ {block : List UInt8}, block.length = 4 * n →
    loadWords block = (List.range n).map (Fips180.word block) := by
  induction n with
  | zero =>
    intro block h
    rw [eq_nil_of_length_eq_zero h]
    rfl
  | succ n ih =>
    intro block h
    match block, h with
    | b₀ :: b₁ :: b₂ :: b₃ :: rest, h =>
      have hrest : rest.length = 4 * n := by simpa [Nat.mul_add] using h
      rw [loadWords, ih hrest, range_succ_eq_map, map_cons, List.map_map, loadWord_eq]
      refine congrArg₂ List.cons rfl (map_congr_left fun t _ => ?_)
      show word rest t = word _ (t + 1)
      rw [word, word, Nat.mul_add, Nat.add_comm (4 * t), ← drop_drop]
      rfl

theorem getD_reverse_map (f : Nat → UInt32) {m j : Nat} (h : j < m) :
    ((List.range m).map f).reverse.getD j 0 = f (m - 1 - j) := by
  rw [getD_eq_getElem?_getD, getElem?_reverse (by simpa using h), length_map,
    length_range, getElem?_map, getElem?_range (by omega)]
  rfl

theorem expandWords_eq (block : List UInt8) (n : Nat) : ∀ {m : Nat}, 16 ≤ m →
    expandWords n ((List.range m).map (Fips180.schedule block)).reverse =
      ((List.range (m + n)).map (Fips180.schedule block)).reverse := by
  induction n with
  | zero => exact fun _ => rfl
  | succ n ih =>
    intro m hm
    have hnext : schedule block m =
        schedule block (m - 16) + smallSigma0 (schedule block (m - 15)) +
          schedule block (m - 7) + smallSigma1 (schedule block (m - 2)) := by
      rw [schedule, if_neg (by omega)]
      ac_rfl
    have hsnoc : ((List.range (m + 1)).map (schedule block)).reverse =
        schedule block m :: ((List.range m).map (schedule block)).reverse := by
      rw [range_succ, map_append, reverse_append]
      rfl
    rw [expandWords, show m + (n + 1) = m + 1 + n by omega, ← ih (by omega), hsnoc, hnext]
    rw [getD_reverse_map _ (by omega), getD_reverse_map _ (by omega), getD_reverse_map _ (by omega),
      getD_reverse_map _ (by omega)]
    rfl

theorem words_transform (s : HashState) {block : List UInt8} (h : block.length = 64) :
    (transform s block).words = Fips180.compress s.words block := by
  have hwords : (expandWords 48 (loadWords block).reverse).reverse =
      (List.range 64).map (schedule block) := by
    have hload : loadWords block = (List.range 16).map (schedule block) := by
      rw [loadWords_eq 16 h]
      refine map_congr_left fun t ht => ?_
      rw [schedule, if_pos (mem_range.mp ht)]
    rw [hload, expandWords_eq block 48 le_rfl, reverse_reverse]
  have hrounds : ∀ (ts : List Nat) (v : HashState),
      ((ts.map fun t => (roundConstant t, schedule block t)).foldl hashRound v).words =
        ts.foldl (fun v t => round (roundConstant t) (schedule block t) v) v.words := by
    intro ts
    induction ts with
    | nil => exact fun _ => rfl
    | cons t ts ih => exact fun v => ih _
  rw [transform, hwords, roundConstants_eq, zip_map']
  show HashState.words _ = (List.foldl _ s.words (List.range 64)).add s.words
  rw [← hrounds]
  simp only [HashState.words, Words.add, UInt32.add_comm]

/-! ## The message so far -/

def rest (M : List UInt8) : List UInt8 := M.drop (64 * (M.length / 64))

theorem length_rest (M : List UInt8) : (rest M).length = M.length % 64 := by
  rw [rest, length_drop]
  omega

theorem blocks_append_short {M t : List UInt8} (h : M.length % 64 + t.length < 64) :
    blocks (M ++ t) = blocks M ∧ rest (M ++ t) = rest M ++ t := by
  have hcount : (M ++ t).length / 64 = M.length / 64 := by
    rw [length_append]
    omega
  refine ⟨?_, ?_⟩
  · rw [blocks, blocks, hcount]
    refine map_congr_left fun i hi => ?_
    have hi : i < M.length / 64 := mem_range.mp hi
    rw [drop_append_of_le_length (by omega), take_append_of_le_length]
    rw [length_drop]
    omega
  · rw [rest, rest, hcount, drop_append_of_le_length (by omega)]

theorem blocks_append_full {M t : List UInt8} (h : M.length % 64 + t.length = 64) :
    blocks (M ++ t) = blocks M ++ [rest M ++ t] ∧ rest (M ++ t) = [] := by
  have hcount : (M ++ t).length / 64 = M.length / 64 + 1 := by
    rw [length_append]
    omega
  refine ⟨?_, ?_⟩
  · rw [blocks, blocks, hcount, range_succ, map_append]
    refine congrArg₂ (· ++ ·) (map_congr_left fun i hi => ?_) ?_
    · have hi : i < M.length / 64 := mem_range.mp hi
      rw [drop_append_of_le_length (by omega), take_append_of_le_length]
      rw [length_drop]
      omega
    · show [((M ++ t).drop (64 * (M.length / 64))).take 64] = [rest M ++ t]
      rw [drop_append_of_le_length (by omega), ← rest, take_of_length_le]
      rw [length_append, length_rest]
      omega
  · rw [rest, hcount, drop_eq_nil_iff, length_append]
    omega

structure Held (M : List UInt8) (s : CP2Sha256) : Prop where
  state : s.state.words = (blocks M).foldl Fips180.compress Fips180.initial
  buffer : s.buffer = rest M

/-- The invariant of the hasher: it has taken the message `M`. -/
structure Absorbed (M : List UInt8) (s : CP2Sha256) : Prop extends Held M s where
  total : s.totalBytes = UInt64.ofNat M.length

theorem absorbed_new : Absorbed [] CP2Sha256.new where
  state := words_new
  buffer := rfl
  total := rfl

variable {M : List UInt8} {s : CP2Sha256}

theorem Held.length_buffer (h : Held M s) : s.buffer.length = M.length % 64 := by
  rw [h.buffer, length_rest]

/-! ## Updating -/

/-- One round of the loop of `Update`: bytes into the buffer, which is transformed when full. -/
def CP2Sha256.fill (s : CP2Sha256) (copied : List UInt8) : CP2Sha256 :=
  let buffer := s.buffer ++ copied
  if buffer.length = 64 then { s with state := transform s.state buffer, buffer := [] }
  else { s with buffer := buffer }

/-- The loop of `Update`. A full buffer, of which it would not get rid, does not occur. -/
def CP2Sha256.absorb (s : CP2Sha256) (input : List UInt8) : CP2Sha256 :=
  if h : 0 < input.length ∧ s.buffer.length < 64 then
    let available := 64 - s.buffer.length
    (s.fill (input.take available)).absorb (input.drop available)
  else s
termination_by input.length
decreasing_by
  rw [length_drop]
  omega

theorem Held.fill {M t : List UInt8} (h : Held M s) (ht : M.length % 64 + t.length ≤ 64) :
    Held (M ++ t) (s.fill t) := by
  have hlength : (s.buffer ++ t).length = M.length % 64 + t.length := by
    rw [length_append, h.length_buffer]
  rw [CP2Sha256.fill]
  by_cases hfull : M.length % 64 + t.length = 64
  · obtain ⟨hblocks, hrest⟩ := blocks_append_full hfull
    rw [if_pos (hlength.trans hfull)]
    refine ⟨?_, hrest.symm⟩
    show (transform s.state (s.buffer ++ t)).words = _
    rw [words_transform _ (hlength.trans hfull), hblocks, foldl_append, ← h.state, h.buffer]
    rfl
  · obtain ⟨hblocks, hrest⟩ := blocks_append_short (by omega : M.length % 64 + t.length < 64)
    rw [if_neg (by omega)]
    exact ⟨by rw [hblocks]; exact h.state, by rw [hrest, ← h.buffer]⟩

theorem totalBytes_fill (s : CP2Sha256) (t : List UInt8) : (s.fill t).totalBytes = s.totalBytes := by
  rw [fill]
  split <;> rfl

theorem Held.absorb (h : Held M s) (input : List UInt8) :
    Held (M ++ input) (s.absorb input) ∧ (s.absorb input).totalBytes = s.totalBytes := by
  induction hn : input.length using Nat.strong_induction_on generalizing M s input with
  | _ n ih =>
    have hbuffer : s.buffer.length = M.length % 64 := h.length_buffer
    rw [absorb]
    split
    case isTrue hmore =>
        -- one round takes what fits, the others the rest
        have hfill := h.fill (t := input.take (64 - s.buffer.length)) (by rw [length_take]; omega)
        have := ih _ (by rw [length_drop]; omega) hfill (input.drop (64 - s.buffer.length)) rfl
        rwa [append_assoc, take_append_drop, totalBytes_fill] at this
    case isFalse hdone =>
        rw [eq_nil_of_length_eq_zero (by omega : input.length = 0), append_nil]
        exact ⟨h, rfl⟩

/-! ## Finalizing -/

theorem storeU32BigEndian_eq (w : UInt32) : storeU32BigEndian w = Fips180.wordBytes w := by
  have hbyte : ∀ k d : Nat, k < 32 → 2 ^ k = d →
      (w >>> UInt32.ofNat k).toUInt8 = UInt8.ofNat (w.toNat / d) := by
    rintro k d hk rfl
    apply UInt8.toNat_inj.mp
    rw [UInt32.toNat_toUInt8, UInt32.toNat_shiftRight, UInt32.toNat_ofNat', UInt8.toNat_ofNat',
      Nat.shiftRight_eq_div_pow, Nat.mod_eq_of_lt (by omega : k < 2 ^ 32), Nat.mod_eq_of_lt hk]
  have h₀ := hbyte 24 (256 ^ 3) (by decide) (by decide)
  have h₁ := hbyte 16 (256 ^ 2) (by decide) (by decide)
  have h₂ := hbyte 8 (256 ^ 1) (by decide) (by decide)
  have h₃ := hbyte 0 (256 ^ 0) (by decide) (by decide)
  rw [show UInt32.ofNat 0 = 0 from rfl, UInt32.shiftRight_zero] at h₃
  show [(w >>> 24).toUInt8, (w >>> 16).toUInt8, (w >>> 8).toUInt8, w.toUInt8] = [_, _, _, _]
  rw [show (w >>> 24).toUInt8 = _ from h₀, show (w >>> 16).toUInt8 = _ from h₁,
    show (w >>> 8).toUInt8 = _ from h₂, h₃]

theorem bigEndian_eq (v : UInt64) : bigEndian v = Fips180.lengthBytes v.toNat := by
  have hbyte : ∀ k d : Nat, k < 64 → 2 ^ k = d →
      (v >>> UInt64.ofNat k).toUInt8 = UInt8.ofNat (v.toNat / d) := by
    rintro k d hk rfl
    apply UInt8.toNat_inj.mp
    rw [UInt64.toNat_toUInt8, UInt64.toNat_shiftRight, UInt64.toNat_ofNat', UInt8.toNat_ofNat',
      Nat.shiftRight_eq_div_pow, Nat.mod_eq_of_lt (by omega : k < 2 ^ 64), Nat.mod_eq_of_lt hk]
  have h₇ := hbyte 0 (256 ^ 0) (by decide) (by decide)
  rw [show UInt64.ofNat 0 = 0 from rfl, UInt64.shiftRight_zero] at h₇
  show [_, _, _, _, _, _, _, v.toUInt8] = [_, _, _, _, _, _, _, _]
  rw [show (v >>> 56).toUInt8 = _ from hbyte 56 (256 ^ 7) (by decide) (by decide),
    show (v >>> 48).toUInt8 = _ from hbyte 48 (256 ^ 6) (by decide) (by decide),
    show (v >>> 40).toUInt8 = _ from hbyte 40 (256 ^ 5) (by decide) (by decide),
    show (v >>> 32).toUInt8 = _ from hbyte 32 (256 ^ 4) (by decide) (by decide),
    show (v >>> 24).toUInt8 = _ from hbyte 24 (256 ^ 3) (by decide) (by decide),
    show (v >>> 16).toUInt8 = _ from hbyte 16 (256 ^ 2) (by decide) (by decide),
    show (v >>> 8).toUInt8 = _ from hbyte 8 (256 ^ 1) (by decide) (by decide), h₇]

/-- `kMaximumMessageBytes` -/
def maximumMessageBytes : Nat := (2 ^ 64 - 1) / 8

theorem Absorbed.messageBits (h : Absorbed M s)
    (hM : M.length ≤ maximumMessageBytes) : (s.totalBytes * 8).toNat = 8 * M.length := by
  have hM : M.length ≤ 2305843009213693951 := hM
  rw [h.total, UInt64.toNat_mul, UInt64.toNat_ofNat']
  simp only [UInt64.toNat_ofNat]
  omega

theorem words_bytes (s : HashState) :
    [s.a, s.b, s.c, s.d, s.e, s.f, s.g, s.h].flatMap storeU32BigEndian = s.words.bytes := by
  rw [show storeU32BigEndian = wordBytes from funext storeU32BigEndian_eq]
  rfl

section Finalize

variable {s : CP2Sha256}

theorem digest_one (h : s.buffer.length < 56) :
    s.digest = (s.fill ([0x80] ++ List.replicate (55 - s.buffer.length) 0 ++
      bigEndian (s.totalBytes * 8))).state.words.bytes := by
  have hlength : (s.buffer ++ [0x80]).length = s.buffer.length + 1 := length_append
  have hblock : s.buffer ++ ([0x80] ++ List.replicate (55 - s.buffer.length) 0 ++
      bigEndian (s.totalBytes * 8)) = s.buffer ++ [0x80] ++
        List.replicate (56 - (s.buffer ++ [0x80]).length) 0 ++ bigEndian (s.totalBytes * 8) := by
    rw [hlength, Nat.add_comm _ 1, ← Nat.sub_sub]
    simp only [append_assoc]
  rw [fill, if_pos, digest, if_neg (by omega), ← words_bytes, hblock]
  · simp only [length_append, length_replicate, length_singleton, length_bigEndian]
    omega

theorem digest_two (h : 56 ≤ s.buffer.length) (hlt : s.buffer.length < 64) :
    s.digest = ((s.fill ([0x80] ++ List.replicate (63 - s.buffer.length) 0)).fill
      (List.replicate 56 0 ++ bigEndian (s.totalBytes * 8))).state.words.bytes := by
  have hlength : (s.buffer ++ [0x80]).length = s.buffer.length + 1 := length_append
  have hfirst : s.fill ([0x80] ++ List.replicate (63 - s.buffer.length) 0) =
      ⟨transform s.state (s.buffer ++ [0x80] ++ List.replicate (64 - (s.buffer ++ [0x80]).length) 0), [],
        s.totalBytes⟩ := by
    rw [fill, if_pos, hlength, Nat.add_comm _ 1, ← Nat.sub_sub, ← append_assoc]
    simp only [length_append, length_replicate, length_singleton]
    omega
  rw [hfirst, fill, if_pos, digest, if_pos (by omega), ← words_bytes]
  · rfl
  · simp only [length_append, length_replicate, length_nil, length_bigEndian]

end Finalize

theorem Absorbed.digest_eq (h : Absorbed M s)
    (hM : M.length ≤ maximumMessageBytes) : s.digest = sha256 M := by
  have hbuffer := h.length_buffer
  have hbits : bigEndian (s.totalBytes * 8) = lengthBytes (8 * M.length) := by
    rw [bigEndian_eq, h.messageBits hM]
  by_cases hone : M.length % 64 < 56
  · have hzeros : zeros M.length = 55 - s.buffer.length := by
      rw [zeros]
      omega
    rw [digest_one (by omega), Held.state (h.fill ?_), sha256, pad, hzeros, hbits]
    · simp only [append_assoc]
    · simp only [length_append, length_replicate, length_singleton, length_bigEndian]
      omega
  · have hzeros : List.replicate (zeros M.length) (0 : UInt8) =
        List.replicate (63 - s.buffer.length) 0 ++ List.replicate 56 0 := by
      rw [replicate_append_replicate, zeros]
      congr 1
      omega
    have hfirst := h.fill (t := [0x80] ++ List.replicate (63 - s.buffer.length) 0) (by
      simp only [length_append, length_replicate, length_singleton]
      omega)
    rw [digest_two (by omega) (by omega), Held.state (hfirst.fill ?_), sha256, pad, hzeros, hbits]
    · simp only [append_assoc]
    · simp only [length_append, length_replicate, length_singleton, length_bigEndian]
      omega

/-! ## The hasher's calls -/

/-- The arguments `data` and `size`: a null pointer, or the bytes it points at. -/
inductive RawData
  | null (size : Nat)
  | range (bytes : List UInt8)
deriving DecidableEq, Repr

def RawData.bytes : RawData → List UInt8
  | null _ => []
  | range bytes => bytes

def RawData.size : RawData → Nat
  | null size => size
  | range bytes => bytes.length

/-- `size > 0U && data == nullptr` -/
def RawData.isNull : RawData → Bool
  | null size => decide (0 < size)
  | range _ => false

theorem RawData.length_bytes {data : RawData} (h : data.isNull = false) : data.bytes.length = data.size := by
  cases data with
  | null size =>
    have : size = 0 := by simpa [isNull] using h
    rw [this]
    rfl
  | range bytes => rfl

/-- `size > kMaximumMessageBytes - total_bytes_` -/
def CP2Sha256.exceeds (s : CP2Sha256) (size : Nat) : Bool :=
  decide ((UInt64.ofNat maximumMessageBytes - s.totalBytes).toNat < size)

/-- `Update` -/
def CP2Sha256.updateRaw (data : RawData) : EStateM String CP2Sha256 Unit := fun s =>
  if data.isNull then .error "CP2 SHA-256 input pointer is null" s
  else if s.exceeds data.size then .error "CP2 SHA-256 input exceeds the 64-bit bit-length field" s
  else .ok ⟨⟩ ({ s with totalBytes := s.totalBytes + UInt64.ofNat data.size }.absorb data.bytes)

def CP2Sha256.hexDigest (s : CP2Sha256) : String :=
  String.ofList (s.digest.flatMap fun (byte : UInt8) => [hexDigit (byte >>> 4), hexDigit (byte &&& 0x0f)])

inductive HasherCall
  | update (data : RawData)
  | digest
deriving DecidableEq, Repr

inductive Answer
  | returned
  | raised (what : String)
  | digest (bytes : List UInt8)
deriving DecidableEq, Repr

def CP2Sha256.call (s : CP2Sha256) : HasherCall → Answer × CP2Sha256
  | .update data =>
    match (updateRaw data).run s with
    | .ok _ t => (.returned, t)
    | .error what t => (.raised what, t)
  | .digest => (.digest s.digest, s)

/-- What the object is for: it remembers the message and answers with the standard's digest of it. -/
def messageCall (M : List UInt8) : HasherCall → Answer × List UInt8
  | .update data =>
    if data.isNull then (.raised "CP2 SHA-256 input pointer is null", M)
    else if maximumMessageBytes < M.length + data.size then
      (.raised "CP2 SHA-256 input exceeds the 64-bit bit-length field", M)
    else (.returned, M ++ data.bytes)
  | .digest => (.digest (sha256 M), M)

def answers {σ ι α : Type} (call : σ → ι → α × σ) (s : σ) : List ι → List α × σ
  | [] => ([], s)
  | c :: cs =>
    let (a, t) := call s c
    let (as, u) := answers call t cs
    (a :: as, u)

/-- The invariant with the bound that `Update` keeps. -/
structure Bounded (M : List UInt8) (s : CP2Sha256) : Prop extends Absorbed M s where
  le : M.length ≤ maximumMessageBytes

theorem bounded_new : Bounded [] CP2Sha256.new := ⟨absorbed_new, Nat.zero_le _⟩

section Calls

variable {M : List UInt8} {s : CP2Sha256}

theorem Bounded.exceeds_iff (h : Bounded M s) (size : Nat) :
    s.exceeds size = true ↔ maximumMessageBytes < M.length + size := by
  have hle := h.le
  have hmax : maximumMessageBytes < 2 ^ 64 := by decide
  have htotal : s.totalBytes.toNat = M.length := by
    rw [h.total, UInt64.toNat_ofNat']
    exact Nat.mod_eq_of_lt (by omega)
  have hmaxNat : (UInt64.ofNat maximumMessageBytes).toNat = maximumMessageBytes := by
    rw [UInt64.toNat_ofNat']
    exact Nat.mod_eq_of_lt hmax
  rw [exceeds, decide_eq_true_eq, UInt64.toNat_sub_of_le, htotal, hmaxNat]
  · omega
  · rw [UInt64.le_iff_toNat_le, htotal, hmaxNat]
    exact hle

theorem updateRaw_null {data : RawData} (hnull : data.isNull = true) :
    (CP2Sha256.updateRaw data).run s = .error "CP2 SHA-256 input pointer is null" s := by
  show (if data.isNull then _ else _) = _
  exact if_pos hnull

theorem Bounded.updateRaw_long (h : Bounded M s) {data : RawData} (hnull : data.isNull = false)
    (hlong : maximumMessageBytes < M.length + data.size) :
    (CP2Sha256.updateRaw data).run s =
      .error "CP2 SHA-256 input exceeds the 64-bit bit-length field" s := by
  have hguard : s.exceeds data.size = true := (h.exceeds_iff _).mpr hlong
  show (if data.isNull then _ else if s.exceeds data.size then _ else _) = _
  rw [hnull, if_neg (by decide), if_pos hguard]

theorem Bounded.updateRaw_ok (h : Bounded M s) {data : RawData} (hnull : data.isNull = false)
    (hfits : M.length + data.size ≤ maximumMessageBytes) :
    ∃ t, (CP2Sha256.updateRaw data).run s = .ok ⟨⟩ t ∧ Bounded (M ++ data.bytes) t := by
  have hguard : s.exceeds data.size = false :=
    Bool.eq_false_iff.mpr fun hlong => absurd ((h.exceeds_iff _).mp hlong) (by omega)
  refine ⟨absorb { s with totalBytes := s.totalBytes + UInt64.ofNat data.size } data.bytes, ?_, ?_⟩
  · show (if data.isNull then _ else if s.exceeds data.size then _ else _) = _
    rw [hnull, if_neg (by decide), hguard, if_neg (by decide)]
  · have hheld : Held M { s with totalBytes := s.totalBytes + UInt64.ofNat data.size } := ⟨h.state, h.buffer⟩
    obtain ⟨hheld, htotal⟩ := hheld.absorb data.bytes
    refine ⟨⟨hheld, ?_⟩, ?_⟩
    · rw [htotal, h.total, length_append, RawData.length_bytes hnull, UInt64.ofNat_add]
    · rw [length_append, RawData.length_bytes hnull]
      exact hfits

theorem Bounded.call (h : Bounded M s) (c : HasherCall) :
    (s.call c).1 = (messageCall M c).1 ∧ Bounded (messageCall M c).2 (s.call c).2 := by
  cases c with
  | digest => exact ⟨congrArg Answer.digest (h.digest_eq h.le), h⟩
  | update data =>
    rw [CP2Sha256.call, messageCall]
    cases hnull : data.isNull with
    | true =>
      rw [updateRaw_null hnull]
      exact ⟨rfl, h⟩
    | false =>
      rw [if_neg (by decide)]
      by_cases hlong : maximumMessageBytes < M.length + data.size
      · rw [h.updateRaw_long hnull hlong, if_pos hlong]
        exact ⟨rfl, h⟩
      · obtain ⟨t, hrun, ht⟩ := h.updateRaw_ok hnull (by omega)
        rw [hrun, if_neg hlong]
        exact ⟨rfl, ht⟩

theorem Bounded.answers (h : Bounded M s) (calls : List HasherCall) :
    (answers CP2Sha256.call s calls).1 = (answers messageCall M calls).1 ∧
      Bounded (answers messageCall M calls).2 (answers CP2Sha256.call s calls).2 := by
  induction calls generalizing M s with
  | nil => exact ⟨rfl, h⟩
  | cons c cs ih =>
    obtain ⟨hanswer, hnext⟩ := h.call c
    obtain ⟨hanswers, hend⟩ := ih hnext
    exact ⟨congrArg₂ List.cons hanswer hanswers, hend⟩

end Calls

/-! ## One byte string -/

/-- `hex`: the digest that the standard gives a byte string, as `HexDigest` spells it. -/
def hexSha256 (bytes : List UInt8) : String :=
  String.ofList ((sha256 bytes).flatMap fun (byte : UInt8) => [hexDigit (byte >>> 4), hexDigit (byte &&& 0x0f)])

theorem Absorbed.hexDigest_eq (h : Absorbed M s)
    (hM : M.length ≤ maximumMessageBytes) : s.hexDigest = hexSha256 M := by
  rw [hexDigest, h.digest_eq hM, hexSha256]

/-! ## The canonical buffer -/

/-- `std::vector<std::uint8_t>::max_size()` -/
def vectorMaxSize : Nat := 2 ^ 63 - 1

structure CP2CanonicalBuffer where
  bytes : List UInt8
  sha256 : CP2Sha256
deriving DecidableEq, Repr

namespace CP2CanonicalBuffer

def new : CP2CanonicalBuffer := ⟨[], CP2Sha256.new⟩

def sha256Hex (b : CP2CanonicalBuffer) : String := b.sha256.hexDigest

/-- An exception of `Update` on the copy of the hasher. -/
def updatedSha256 (b : CP2CanonicalBuffer) (data : RawData) : Except String CP2Sha256 :=
  match (CP2Sha256.updateRaw data).run b.sha256 with
  | .ok _ updated => .ok updated
  | .error what _ => .error what

/-- `AppendRawBytes`, whose data may overlap the buffer. The two operations are the allocations of
`staged.assign` and `bytes_.insert`. -/
def appendRawBytes (data : RawData) (overlaps : Bool) : Faulty String CP2CanonicalBuffer Unit := do
  onlyIf data.isNull (throw "CP2 canonical input pointer is null")
  onlyIf (data.size != 0) do
    let m ← get
    onlyIf (decide (vectorMaxSize - m.state.bytes.length < data.size))
      (throw "CP2 canonical buffer size overflow")
    onlyIf (!m.state.bytes.isEmpty && overlaps) (operate id)
    let updated ← liftExcept (m.state.updatedSha256 data)
    operate id
    update fun b => { b with bytes := b.bytes ++ data.bytes }
    update fun b => { b with sha256 := updated }

def appendU64 (value : UInt64) : Faulty String CP2CanonicalBuffer Unit :=
  appendRawBytes (.range (bigEndian value)) false

def appendI64 (value : Int64) : Faulty String CP2CanonicalBuffer Unit := appendU64 value.toUInt64

def appendBinary64 (value : Binary64) : Faulty String CP2CanonicalBuffer Unit := appendU64 value.bits

def appendUtf8 (value : List UInt8) : Faulty String CP2CanonicalBuffer Unit := do
  onlyIf (!isValidUtf8 value) (throw "CP2 canonical string is not valid UTF-8")
  onlyIf (decide (2 ^ 64 - 1 < value.length)) (throw "CP2 canonical UTF-8 string exceeds u64 length")
  appendU64 (UInt64.ofNat value.length)
  appendRawBytes (.range value) false

def appendCoefficients : List Binary64 → Faulty String CP2CanonicalBuffer Unit
  | [] => return
  | coefficient :: coefficients => do
    appendBinary64 coefficient
    appendCoefficients coefficients

def appendMatrix (value : MatrixXd) : Faulty String CP2CanonicalBuffer Unit := do
  appendU64 (UInt64.ofNat value.rows)
  appendU64 (UInt64.ofNat value.cols)
  appendCoefficients value.coeffs

def appendVector (value : MatrixXd) : Faulty String CP2CanonicalBuffer Unit := do
  onlyIf (value.cols != 1) (throw "CP2 canonical vector must have exactly one column")
  appendU64 (UInt64.ofNat value.rows)
  appendU64 1
  appendCoefficients value.coeffs

inductive Append
  | raw (data : RawData) (overlaps : Bool)
  | u64 (value : UInt64)
  | i64 (value : Int64)
  | binary64 (value : Binary64)
  | utf8 (value : List UInt8)
  | matrix (value : MatrixXd)
  | vector (value : MatrixXd)

def Append.run : Append → Faulty String CP2CanonicalBuffer Unit
  | raw data overlaps => appendRawBytes data overlaps
  | u64 value => appendU64 value
  | i64 value => appendI64 value
  | binary64 value => appendBinary64 value
  | utf8 value => appendUtf8 value
  | matrix value => appendMatrix value
  | vector value => appendVector value

def runAppends : List Append → Faulty String CP2CanonicalBuffer Unit
  | [] => return
  | append :: appends => do
    let _ ← attempt append.run
    runAppends appends

def Consistent (m : Machine String CP2CanonicalBuffer) : Prop := Bounded m.state.bytes m.state.sha256

theorem updatedSha256_ok {b : CP2CanonicalBuffer} {data : RawData} {updated : CP2Sha256}
    (h : Bounded b.bytes b.sha256) (hupdated : b.updatedSha256 data = .ok updated) :
    Bounded (b.bytes ++ data.bytes) updated := by
  rw [updatedSha256] at hupdated
  cases hnull : data.isNull with
  | true =>
    rw [updateRaw_null hnull] at hupdated
    cases hupdated
  | false =>
    by_cases hlong : maximumMessageBytes < b.bytes.length + data.size
    · rw [h.updateRaw_long hnull hlong] at hupdated
      cases hupdated
    · obtain ⟨t, hrun, ht⟩ := h.updateRaw_ok hnull (by omega)
      rw [hrun] at hupdated
      cases hupdated
      exact ht

theorem appendRawBytes_preserves (data : RawData) (overlaps : Bool) :
    Preserves Consistent (appendRawBytes data overlaps) := by
  refine .bind (.of_onlyIf (.of_throw _)) fun _ => .of_onlyIf fun m hm => ?_
  rw [wp_bind, wp_get, wp_bind, wp_onlyIf]
  refine ⟨fun _ => hm, fun _ => ?_⟩
  -- the allocations change nothing
  have hrest : ∀ script, wp (do
      let updated ← liftExcept (m.state.updatedSha256 data)
      operate id
      Bravo.update fun b => { b with bytes := b.bytes ++ data.bytes }
      Bravo.update fun b => { b with sha256 := updated })
      (fun _ t => Consistent t) (fun _ t => Consistent t) ⟨m.state, script⟩ := by
    intro script
    rw [wp_bind, wp_liftExcept]
    refine ⟨fun updated hupdated => ?_, fun _ _ => hm⟩
    rw [wp_bind]
    exact wp_operate (fun _ => updatedSha256_ok hm hupdated) (fun _ _ => hm) (fun _ _ => hm)
  rw [wp_bind, wp_onlyIf]
  exact ⟨fun _ => wp_operate hrest (fun _ _ => hm) (fun _ _ => hm), fun _ => hrest _⟩

theorem appendU64_preserves (value : UInt64) : Preserves Consistent (appendU64 value) :=
  appendRawBytes_preserves _ _

theorem appendUtf8_preserves (value : List UInt8) : Preserves Consistent (appendUtf8 value) :=
  .bind (.of_onlyIf (.of_throw _)) fun _ => .bind (.of_onlyIf (.of_throw _)) fun _ =>
    .bind (appendU64_preserves _) fun _ => appendRawBytes_preserves _ _

theorem appendCoefficients_preserves (coefficients : List Binary64) :
    Preserves Consistent (appendCoefficients coefficients) := by
  induction coefficients with
  | nil => exact .of_pure _
  | cons coefficient coefficients ih => exact .bind (appendU64_preserves _) fun _ => ih

theorem appendMatrix_preserves (value : MatrixXd) : Preserves Consistent (appendMatrix value) :=
  .bind (appendU64_preserves _) fun _ => .bind (appendU64_preserves _) fun _ =>
    appendCoefficients_preserves _

theorem appendVector_preserves (value : MatrixXd) : Preserves Consistent (appendVector value) :=
  .bind (.of_onlyIf (.of_throw _)) fun _ => .bind (appendU64_preserves _) fun _ =>
    .bind (appendU64_preserves _) fun _ => appendCoefficients_preserves _

theorem append_preserves (append : Append) : Preserves Consistent append.run := by
  cases append with
  | raw data overlaps => exact appendRawBytes_preserves data overlaps
  | u64 value => exact appendU64_preserves value
  | i64 value => exact appendU64_preserves _
  | binary64 value => exact appendU64_preserves _
  | utf8 value => exact appendUtf8_preserves value
  | matrix value => exact appendMatrix_preserves value
  | vector value => exact appendVector_preserves value

theorem runAppends_preserves (appends : List Append) : Preserves Consistent (runAppends appends) := by
  induction appends with
  | nil => exact .of_pure _
  | cons append appends ih =>
    refine .bind (fun m hm => ?_) fun _ => ih
    rw [wp_attempt]
    exact append_preserves append m hm

end CP2CanonicalBuffer

/-! ## The digest is the standard's -/

/-- The bytes that the calls pass to `Update`. -/
def chunks (calls : List HasherCall) : List UInt8 :=
  calls.flatMap fun
    | .update data => data.bytes
    | .digest => []

def NoNull (calls : List HasherCall) : Prop := ∀ data, .update data ∈ calls → data.isNull = false

theorem messageCall_chunks {calls : List HasherCall} (hnull : NoNull calls)
    (hfits : (M ++ chunks calls).length ≤ maximumMessageBytes) :
    (answers messageCall M calls).2 = M ++ chunks calls ∧
      ∀ what, .raised what ∉ (answers messageCall M calls).1 := by
  induction calls generalizing M with
  | nil => exact ⟨(append_nil M).symm, fun _ h => absurd h not_mem_nil⟩
  | cons c cs ih =>
    have hnull' : NoNull cs := fun data h => hnull data (mem_cons_of_mem _ h)
    cases c with
    | digest =>
      obtain ⟨hend, hanswers⟩ := ih hnull' hfits
      refine ⟨hend, fun what h => ?_⟩
      rcases mem_cons.mp h with h | h
      · cases h
      · exact hanswers what h
    | update data =>
      have hdata : data.isNull = false := hnull data mem_cons_self
      have hsplit : M ++ chunks (.update data :: cs) = (M ++ data.bytes) ++ chunks cs := by
        rw [append_assoc]
        rfl
      have hshort : ¬ maximumMessageBytes < M.length + data.size := by
        rw [hsplit, length_append, length_append, RawData.length_bytes hdata] at hfits
        omega
      have hcall : messageCall M (.update data) = (.returned, M ++ data.bytes) := by
        rw [messageCall, hdata, if_neg (by decide), if_neg hshort]
      rw [hsplit] at hfits ⊢
      obtain ⟨hend, hanswers⟩ := ih hnull' hfits
      rw [answers, hcall]
      refine ⟨hend, fun what h => ?_⟩
      rcases mem_cons.mp h with h | h
      · cases h
      · exact hanswers what h

def CP2Sha256.after (calls : List HasherCall) : CP2Sha256 := (answers CP2Sha256.call CP2Sha256.new calls).2

theorem incremental_sha256_exact :
    (∀ calls, NoNull calls → (chunks calls).length ≤ maximumMessageBytes →
      (CP2Sha256.after calls).digest = sha256 (chunks calls) ∧
        ∀ what, .raised what ∉ (answers CP2Sha256.call CP2Sha256.new calls).1) ∧
    (∀ calls, (answers CP2Sha256.call CP2Sha256.new calls).1 = (answers messageCall [] calls).1) ∧
    (∀ calls data, data.isNull = false →
      maximumMessageBytes < (answers messageCall [] calls).2.length + data.size →
      (CP2Sha256.updateRaw data).run (CP2Sha256.after calls) =
        .error "CP2 SHA-256 input exceeds the 64-bit bit-length field" (CP2Sha256.after calls)) ∧
    (∀ appends script,
      let b := (finalState ((CP2CanonicalBuffer.runAppends appends).run ⟨.new, script⟩)).state
      b.sha256Hex = hexSha256 b.bytes) := by
  refine ⟨fun calls hnull hfits => ?_, fun calls => (bounded_new.answers calls).1,
    fun calls data hnull hlong => ?_, fun appends script => ?_⟩
  · obtain ⟨hanswers, hend⟩ := bounded_new.answers calls
    obtain ⟨hmessage, hraised⟩ := messageCall_chunks hnull (M := []) hfits
    rw [hmessage] at hend
    exact ⟨hend.digest_eq hfits, by rw [hanswers]; exact hraised⟩
  · exact (bounded_new.answers calls).2.updateRaw_long hnull hlong
  · have hend := (CP2CanonicalBuffer.runAppends_preserves appends).finalState
      (s := ⟨CP2CanonicalBuffer.new, script⟩) bounded_new
    exact hend.hexDigest_eq hend.le

end Bravo.Trace
