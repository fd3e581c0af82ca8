import Bravo.Basic.Reader

/-! # The trace digest

`CP2Sha256` of `CP2Canonical.cpp`, as it computes: 32-bit words that wrap, a 64-byte buffer that is
transformed whenever it fills up, and a finalization that works on a copy. The trace codecs only
ask it for the lowercase hexadecimal digest of one byte string.
-/

namespace Bravo.Trace

/-- `kRoundConstants` -/
def roundConstants : List UInt32 :=
  [0x428a2f98, 0x71374491, 0xb5c0fbcf, 0xe9b5dba5, 0x3956c25b, 0x59f111f1, 0x923f82a4, 0xab1c5ed5,
    0xd807aa98, 0x12835b01, 0x243185be, 0x550c7dc3, 0x72be5d74, 0x80deb1fe, 0x9bdc06a7, 0xc19bf174,
    0xe49b69c1, 0xefbe4786, 0x0fc19dc6, 0x240ca1cc, 0x2de92c6f, 0x4a7484aa, 0x5cb0a9dc, 0x76f988da,
    0x983e5152, 0xa831c66d, 0xb00327c8, 0xbf597fc7, 0xc6e00bf3, 0xd5a79147, 0x06ca6351, 0x14292967,
    0x27b70a85, 0x2e1b2138, 0x4d2c6dfc, 0x53380d13, 0x650a7354, 0x766a0abb, 0x81c2c92e, 0x92722c85,
    0xa2bfe8a1, 0xa81a664b, 0xc24b8b70, 0xc76c51a3, 0xd192e819, 0xd6990624, 0xf40e3585, 0x106aa070,
    0x19a4c116, 0x1e376c08, 0x2748774c, 0x34b0bcb5, 0x391c0cb3, 0x4ed8aa4a, 0x5b9cca4f, 0x682e6ff3,
    0x748f82ee, 0x78a5636f, 0x84c87814, 0x8cc70208, 0x90befffa, 0xa4506ceb, 0xbef9a3f7, 0xc67178f2]

def rotateRight (value count : UInt32) : UInt32 :=
  value >>> count ||| value <<< (32 - count)

/-- `LoadU32BigEndian` on a whole block. -/
def loadWords : List UInt8 → List UInt32
  | b₀ :: b₁ :: b₂ :: b₃ :: rest =>
    (b₀.toUInt32 <<< 24 ||| b₁.toUInt32 <<< 16 ||| b₂.toUInt32 <<< 8 ||| b₃.toUInt32) ::
      loadWords rest
  | _ => []

def storeU32BigEndian (value : UInt32) : List UInt8 :=
  [(value >>> 24).toUInt8, (value >>> 16).toUInt8, (value >>> 8).toUInt8, value.toUInt8]

/-- `words[16 .. 63]`: `n` more words, the words so far latest first. -/
def expandWords : Nat → List UInt32 → List UInt32
  | 0, words => words
  | n + 1, words =>
    let w15 := words.getD 14 0
    let w2 := words.getD 1 0
    let s0 := rotateRight w15 7 ^^^ rotateRight w15 18 ^^^ w15 >>> 3
    let s1 := rotateRight w2 17 ^^^ rotateRight w2 19 ^^^ w2 >>> 10
    expandWords n ((words.getD 15 0 + s0 + words.getD 6 0 + s1) :: words)

structure HashState where
  a : UInt32
  b : UInt32
  c : UInt32
  d : UInt32
  e : UInt32
  f : UInt32
  g : UInt32
  h : UInt32
deriving DecidableEq, Repr

def hashRound (v : HashState) (kw : UInt32 × UInt32) : HashState :=
  let sum1 := rotateRight v.e 6 ^^^ rotateRight v.e 11 ^^^ rotateRight v.e 25
  let choice := (v.e &&& v.f) ^^^ (~~~v.e &&& v.g)
  let temporary1 := v.h + sum1 + choice + kw.1 + kw.2
  let sum0 := rotateRight v.a 2 ^^^ rotateRight v.a 13 ^^^ rotateRight v.a 22
  let majority := (v.a &&& v.b) ^^^ (v.a &&& v.c) ^^^ (v.b &&& v.c)
  ⟨temporary1 + (sum0 + majority), v.a, v.b, v.c, v.d + temporary1, v.e, v.f, v.g⟩

def transform (s : HashState) (block : List UInt8) : HashState :=
  let words := (expandWords 48 (loadWords block).reverse).reverse
  let v := (roundConstants.zip words).foldl hashRound s
  ⟨s.a + v.a, s.b + v.b, s.c + v.c, s.d + v.d, s.e + v.e, s.f + v.f, s.g + v.g, s.h + v.h⟩

structure CP2Sha256 where
  state : HashState
  /-- The first `buffer_size_` bytes of `buffer_`. -/
  buffer : List UInt8
  totalBytes : UInt64
deriving DecidableEq, Repr

def CP2Sha256.new : CP2Sha256 :=
  ⟨⟨0x6a09e667, 0xbb67ae85, 0x3c6ef372, 0xa54ff53a, 0x510e527f, 0x9b05688c, 0x1f83d9ab, 0x5be0cd19⟩,
    [], 0⟩

def CP2Sha256.push (s : CP2Sha256) (byte : UInt8) : CP2Sha256 :=
  let buffer := s.buffer ++ [byte]
  if buffer.length = 64 then { s with state := transform s.state buffer, buffer := [] }
  else { s with buffer := buffer }

/-- `Update`. Its guard against messages of 2^61 bytes or more, which no object in memory
reaches, is left out. -/
def CP2Sha256.update (s : CP2Sha256) (bytes : List UInt8) : CP2Sha256 :=
  bytes.foldl CP2Sha256.push { s with totalBytes := s.totalBytes + UInt64.ofNat bytes.length }

/-- `FinalizeCopy` -/
def CP2Sha256.digest (s : CP2Sha256) : List UInt8 :=
  let buffer := s.buffer ++ [0x80]
  let (state, buffer) :=
    if 56 < buffer.length then
      (transform s.state (buffer ++ List.replicate (64 - buffer.length) 0), [])
    else (s.state, buffer)
  let messageBits := s.totalBytes * 8
  let v := transform state
    (buffer ++ List.replicate (56 - buffer.length) 0 ++ bigEndian messageBits)
  [v.a, v.b, v.c, v.d, v.e, v.f, v.g, v.h].flatMap storeU32BigEndian

def hexDigit (n : UInt8) : Char := ("0123456789abcdef".toList).getD n.toNat '0'

/-- `sha256_hex`: the `HexDigest` of one byte string. -/
def sha256Hex (bytes : List UInt8) : String :=
  String.ofList ((CP2Sha256.new.update bytes).digest.flatMap fun (byte : UInt8) =>
    [hexDigit (byte >>> 4), hexDigit (byte &&& 0x0f)])

-- The digest of "abc".
example : (CP2Sha256.new.update [0x61, 0x62, 0x63]).digest =
    [0xba, 0x78, 0x16, 0xbf, 0x8f, 0x01, 0xcf, 0xea, 0x41, 0x41, 0x40, 0xde, 0x5d, 0xae, 0x22, 0x23,
      0xb0, 0x03, 0x61, 0xa3, 0x96, 0x17, 0x7a, 0x9c, 0xb4, 0x10, 0xff, 0x61, 0xf2, 0x00, 0x15, 0xad] := by
  decide +kernel

end Bravo.Trace
