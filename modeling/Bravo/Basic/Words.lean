import Mathlib.Data.Nat.Bitwise
import Bravo.Basic.Reader

/-! # Words and flags

Byte strings made of 64-bit words, and words made of flags.
-/

namespace Bravo

open List

/-! ## Words -/

def appendWords (words : List UInt64) : List UInt8 := words.flatMap bigEndian

def wordAt (bytes : List UInt8) (index : Nat) : Option UInt64 :=
  if bytes.length < index * 8 + 8 then none
  else some (ofBigEndian ((bytes.drop (index * 8)).take 8))

def firstWords (bytes : List UInt8) (n : Nat) : Option (List UInt64) :=
  (List.range n).mapM (wordAt bytes)

@[simp] theorem length_appendWords (words : List UInt64) :
    (appendWords words).length = words.length * 8 := by
  simp [appendWords, length_flatMap, bigEndian]

theorem wordAt_zero_appendWords_cons (w : UInt64) (ws : List UInt64) :
    wordAt (appendWords (w :: ws)) 0 = some w := by
  have hlen : ¬ (appendWords (w :: ws)).length < 0 * 8 + 8 := by
    rw [length_appendWords, length_cons]
    omega
  rw [wordAt, if_neg hlen]
  show some (ofBigEndian ((bigEndian w ++ appendWords ws).take 8)) = some w
  rw [take_append_of_le_length (by simp [bigEndian])]
  show some (ofBigEndian (bigEndian w)) = some w
  rw [ofBigEndian_bigEndian]

theorem wordAt_succ_appendWords_cons (w : UInt64) (ws : List UInt64) (index : Nat) :
    wordAt (appendWords (w :: ws)) (index + 1) = wordAt (appendWords ws) index := by
  have hdrop : (appendWords (w :: ws)).drop ((index + 1) * 8) = (appendWords ws).drop (index * 8) := by
    show (bigEndian w ++ appendWords ws).drop _ = _
    rw [show (index + 1) * 8 = (bigEndian w).length + index * 8 by simp [bigEndian]; omega,
      drop_append]
    simp
  unfold wordAt
  rw [hdrop, length_appendWords, length_appendWords, length_cons]
  by_cases h : ws.length * 8 < index * 8 + 8
  · rw [if_pos h, if_pos (by omega)]
  · rw [if_neg h, if_neg (by omega)]

theorem wordAt_appendWords (words : List UInt64) :
    ∀ index, wordAt (appendWords words) index = words[index]? := by
  induction words with
  | nil =>
    intro index
    rw [wordAt, if_pos (by simp [appendWords])]
    rfl
  | cons w ws ih =>
    intro index
    cases index with
    | zero => exact wordAt_zero_appendWords_cons w ws
    | succ index =>
      rw [wordAt_succ_appendWords_cons, ih index]
      rfl

theorem firstWords_appendWords (words : List UInt64) :
    firstWords (appendWords words) words.length = some words := by
  unfold firstWords
  induction words with
  | nil => rfl
  | cons w ws ih =>
    rw [length_cons, range_succ_eq_map, mapM_cons, wordAt_zero_appendWords_cons,
      mapM_map]
    have hshift : (wordAt (appendWords (w :: ws)) ∘ Nat.succ) = wordAt (appendWords ws) := by
      funext index
      exact wordAt_succ_appendWords_cons w ws index
    show (do
      let rest ← (List.range ws.length).mapM (wordAt (appendWords (w :: ws)) ∘ Nat.succ)
      return w :: rest) = _
    rw [hshift, ih]
    rfl

/-! ## Flags -/

def packFlags (flags : List Bool) : UInt64 :=
  flags.zipIdx.foldl (fun word flag => if flag.1 then word ||| ((1 : UInt64) <<< UInt64.ofNat flag.2)
    else word) 0

def hasFlag (word : UInt64) (index : Nat) : Bool := (word &&& ((1 : UInt64) <<< UInt64.ofNat index)) != 0

theorem toNat_one_shiftLeft {i : Nat} (h : i < 64) :
    ((1 : UInt64) <<< UInt64.ofNat i).toNat = 2 ^ i := by
  have hi : (UInt64.ofNat i).toNat = i := by
    rw [UInt64.toNat_ofNat']
    omega
  rw [UInt64.toNat_shiftLeft, hi, Nat.mod_eq_of_lt h]
  simp [Nat.shiftLeft_eq]
  exact Nat.pow_lt_pow_right (by decide) h

theorem hasFlag_eq_testBit {word : UInt64} {i : Nat} (h : i < 64) :
    hasFlag word i = word.toNat.testBit i := by
  have hand : (word &&& ((1 : UInt64) <<< UInt64.ofNat i)).toNat = word.toNat &&& 2 ^ i := by
    rw [UInt64.toNat_and, toNat_one_shiftLeft h]
  rw [Nat.and_two_pow] at hand
  unfold hasFlag
  cases hbit : word.toNat.testBit i with
  | true =>
    rw [bne_iff_ne]
    intro hzero
    rw [hzero, hbit] at hand
    have hpos : 0 < 2 ^ i := Nat.two_pow_pos i
    simp at hand
    omega
  | false =>
    rw [bne_eq_false_iff_eq]
    apply UInt64.toNat_inj.mp
    rw [hand, hbit]
    simp

theorem and_eq_zero_iff {word mask : UInt64} :
    word &&& mask = 0 ↔ ∀ i < 64, mask.toNat.testBit i = true → hasFlag word i = false := by
  constructor
  · intro h i hi hmask
    have hbits : (word &&& mask).toNat.testBit i = false := by
      rw [h]
      simp
    rw [UInt64.toNat_and, Nat.testBit_and, hmask, Bool.and_true] at hbits
    rw [hasFlag_eq_testBit hi]
    exact hbits
  · intro h
    apply UInt64.toNat_inj.mp
    rw [UInt64.toNat_and]
    apply Nat.eq_of_testBit_eq
    intro i
    rw [Nat.testBit_and]
    by_cases hi : i < 64
    · cases hmask : mask.toNat.testBit i with
      | false => simp
      | true =>
        rw [← hasFlag_eq_testBit hi, h i hi hmask]
        simp
    · -- No bit of a word is that high.
      have hlt : mask.toNat < 2 ^ i :=
        lt_of_lt_of_le mask.toNat_lt (Nat.pow_le_pow_right (by decide) (by omega))
      rw [Nat.testBit_lt_two_pow hlt]
      simp

theorem testBit_foldl_flags {i : Nat} :
    ∀ (flags : List Bool) (start : Nat) (word : UInt64), start + flags.length ≤ 64 →
      ((flags.zipIdx start).foldl (fun word flag =>
        if flag.1 then word ||| ((1 : UInt64) <<< UInt64.ofNat flag.2) else word) word).toNat.testBit i =
        (word.toNat.testBit i || (decide (start ≤ i) && flags.getD (i - start) false)) := by
  intro flags
  induction flags with
  | nil =>
    intro start word _
    simp
  | cons flag flags ih =>
    intro start word hlen
    rw [length_cons] at hlen
    rw [zipIdx_cons, foldl_cons, ih (start + 1) _ (by omega)]
    have hword : (if flag then word ||| ((1 : UInt64) <<< UInt64.ofNat start) else word).toNat.testBit i =
        (word.toNat.testBit i || (flag && decide (start = i))) := by
      cases flag with
      | false => simp
      | true =>
        rw [if_pos rfl, UInt64.toNat_or, Nat.testBit_or, toNat_one_shiftLeft (by omega),
          Nat.testBit_two_pow]
        simp
    rw [hword]
    rcases Nat.lt_trichotomy i start with hlt | rfl | hgt
    · simp [show ¬ start = i by omega, show ¬ start ≤ i by omega, show ¬ start + 1 ≤ i by omega]
    · simp
    · have hsub : i - start = (i - (start + 1)) + 1 := by omega
      rw [hsub, getD_cons_succ]
      simp [show ¬ start = i by omega, show start ≤ i by omega, show start + 1 ≤ i by omega]

theorem hasFlag_packFlags {flags : List Bool} {i : Nat} (hlen : flags.length ≤ 64) (hi : i < 64) :
    hasFlag (packFlags flags) i = flags.getD i false := by
  rw [hasFlag_eq_testBit hi, packFlags, testBit_foldl_flags flags 0 0 (by omega)]
  simp

end Bravo
