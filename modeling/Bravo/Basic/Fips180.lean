import Mathlib.Data.Nat.NthRoot.Defs
import Mathlib.Data.Nat.Prime.Basic
import Bravo.Basic.Reader

/-! # SHA-256 as FIPS 180-4 defines it

For messages of whole bytes, section by section: the functions (4.1.2), the constants (4.2.2), padding
(5.1.1), parsing (5.2.1), the initial hash value (5.3.3) and the computation of the hash (6.2.2). The
constants are computed from the primes, as the standard explains them, and not read off its tables.
-/

namespace Bravo.Fips180

/-! ## Functions and constants -/

def rotr (n : Nat) (x : UInt32) : UInt32 := ⟨x.toBitVec.rotateRight n⟩

def shr (n : Nat) (x : UInt32) : UInt32 := ⟨x.toBitVec >>> n⟩

def ch (x y z : UInt32) : UInt32 := (x &&& y) ^^^ (~~~x &&& z)

def maj (x y z : UInt32) : UInt32 := (x &&& y) ^^^ (x &&& z) ^^^ (y &&& z)

/-- `Σ₀` -/
def bigSigma0 (x : UInt32) : UInt32 := rotr 2 x ^^^ rotr 13 x ^^^ rotr 22 x

/-- `Σ₁` -/
def bigSigma1 (x : UInt32) : UInt32 := rotr 6 x ^^^ rotr 11 x ^^^ rotr 25 x

/-- `σ₀` -/
def smallSigma0 (x : UInt32) : UInt32 := rotr 7 x ^^^ rotr 18 x ^^^ shr 3 x

/-- `σ₁` -/
def smallSigma1 (x : UInt32) : UInt32 := rotr 17 x ^^^ rotr 19 x ^^^ shr 10 x

def primes : List Nat := (List.range 312).filter fun n => Nat.Prime n

/-- The first thirty-two bits of the fractional part of the `k`-th root of `p`. -/
def fraction (k p : Nat) : UInt32 := UInt32.ofNat (Nat.nthRoot k (p * 2 ^ (32 * k)))

/-- `K` -/
def roundConstant (t : Nat) : UInt32 := fraction 3 (primes.getD t 0)

/-! ## The message -/

/-- The number of zero bytes behind the closing one bit: the smallest one that leaves eight bytes of the
last block. -/
def zeros (length : Nat) : Nat := (119 - length % 64) % 64

def lengthBytes (bits : Nat) : List UInt8 := (List.range 8).map fun i => UInt8.ofNat (bits / 256 ^ (7 - i))

def pad (message : List UInt8) : List UInt8 :=
  message ++ [0x80] ++ List.replicate (zeros message.length) 0 ++ lengthBytes (8 * message.length)

def blocks (padded : List UInt8) : List (List UInt8) :=
  (List.range (padded.length / 64)).map fun i => (padded.drop (64 * i)).take 64

/-- The word `t` of a block. -/
def word (block : List UInt8) (t : Nat) : UInt32 :=
  UInt32.ofNat (((block.drop (4 * t)).take 4).foldl (fun n byte => 256 * n + byte.toNat) 0)

/-! ## The hash -/

/-- The message schedule `W`. -/
def schedule (block : List UInt8) (t : Nat) : UInt32 :=
  if t < 16 then word block t
  else smallSigma1 (schedule block (t - 2)) + schedule block (t - 7) +
    smallSigma0 (schedule block (t - 15)) + schedule block (t - 16)

structure Words where
  a : UInt32
  b : UInt32
  c : UInt32
  d : UInt32
  e : UInt32
  f : UInt32
  g : UInt32
  h : UInt32
deriving DecidableEq, Repr

def Words.add (v w : Words) : Words :=
  ⟨v.a + w.a, v.b + w.b, v.c + w.c, v.d + w.d, v.e + w.e, v.f + w.f, v.g + w.g, v.h + w.h⟩

/-- The initial hash value `H⁽⁰⁾`. -/
def initial : Words :=
  let h := fun j => fraction 2 (primes.getD j 0)
  ⟨h 0, h 1, h 2, h 3, h 4, h 5, h 6, h 7⟩

/-- One round, with the words `K` and `W`. -/
def round (k w : UInt32) (v : Words) : Words :=
  let t₁ := v.h + bigSigma1 v.e + ch v.e v.f v.g + k + w
  let t₂ := bigSigma0 v.a + maj v.a v.b v.c
  ⟨t₁ + t₂, v.a, v.b, v.c, v.d + t₁, v.e, v.f, v.g⟩

def compress (hash : Words) (block : List UInt8) : Words :=
  ((List.range 64).foldl (fun v t => round (roundConstant t) (schedule block t) v) hash).add hash

def wordBytes (w : UInt32) : List UInt8 := (List.range 4).map fun i => UInt8.ofNat (w.toNat / 256 ^ (3 - i))

def Words.bytes (v : Words) : List UInt8 := [v.a, v.b, v.c, v.d, v.e, v.f, v.g, v.h].flatMap wordBytes

def sha256 (message : List UInt8) : List UInt8 := ((blocks (pad message)).foldl compress initial).bytes

theorem length_sha256 (message : List UInt8) : (sha256 message).length = 32 := by
  simp [sha256, Words.bytes, wordBytes]

end Bravo.Fips180
