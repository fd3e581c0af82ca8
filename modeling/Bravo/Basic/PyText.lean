import Bravo.Basic.Json

/-! # Text with lone surrogates

A Python string is a sequence of code points, among them halves of surrogate pairs, which no UTF-8 stands for.
Encoding is strict: it fails on such a half. On the other strings encoding and decoding are inverse.
-/

namespace Bravo

open List

inductive CodePoint
  | char (c : Char)
  | surrogate (n : Fin 2048)
deriving DecidableEq, Repr

namespace CodePoint

/-- `ord` -/
def value : CodePoint → Nat
  | char c => c.toNat
  | surrogate n => 0xd800 + n

def char? : CodePoint → Option Char
  | char c => some c
  | surrogate _ => none

end CodePoint

abbrev PyStr := List CodePoint

namespace PyStr

def ofChars (cs : List Char) : PyStr := cs.map CodePoint.char

def lit (s : String) : PyStr := ofChars s.toList

/-- The string without its halves of surrogate pairs. -/
def word (s : PyStr) : String := String.ofList (s.filterMap CodePoint.char?)

def chars? : PyStr → Option (List Char)
  | [] => some []
  | p :: ps => do
    let c ← p.char?
    let cs ← chars? ps
    return c :: cs

/-- `str.encode("utf-8", "strict")` -/
def encode (s : PyStr) : Option (List UInt8) := (chars? s).map Json.utf8

/-- `bytes.decode("utf-8", "strict")` -/
def decode (bytes : List UInt8) : Option PyStr := (Json.decodeUtf8 bytes).map ofChars

theorem chars?_ofChars (cs : List Char) : chars? (ofChars cs) = some cs := by
  induction cs with
  | nil => rfl
  | cons c cs ih =>
    have hcons : ofChars (c :: cs) = .char c :: ofChars cs := rfl
    rw [hcons, chars?, ih]
    rfl

variable {s : PyStr}

theorem eq_ofChars : ∀ {cs : List Char}, chars? s = some cs → s = ofChars cs := by
  induction s with
  | nil =>
    intro cs h
    obtain rfl := Option.some.inj h
    rfl
  | cons p ps ih =>
    intro cs h
    cases p with
    | surrogate n => exact absurd h nofun
    | char c =>
      obtain ⟨ds, hds, hcs⟩ := Option.bind_eq_some_iff.mp h
      obtain rfl := Option.some.inj hcs
      rw [ih hds]
      rfl

theorem chars?_eq_some {cs : List Char} : chars? s = some cs ↔ s = ofChars cs :=
  ⟨eq_ofChars, fun h => h ▸ chars?_ofChars cs⟩

theorem ofChars_injective {cs ds : List Char} (h : ofChars cs = ofChars ds) : cs = ds :=
  Option.some.inj ((chars?_ofChars cs).symm.trans (h ▸ chars?_ofChars ds))

variable {bytes : List UInt8}

theorem encode_eq_some : encode s = some bytes ↔ ∃ cs, s = ofChars cs ∧ bytes = Json.utf8 cs := by
  unfold encode
  rw [Option.map_eq_some_iff]
  constructor
  · rintro ⟨cs, hcs, rfl⟩
    exact ⟨cs, chars?_eq_some.mp hcs, rfl⟩
  · rintro ⟨cs, rfl, rfl⟩
    exact ⟨cs, chars?_ofChars cs, rfl⟩

theorem encode_ofChars (cs : List Char) : encode (ofChars cs) = some (Json.utf8 cs) :=
  encode_eq_some.mpr ⟨cs, rfl, rfl⟩

theorem utf8_of_decodeUtf8 {cs : List Char} (h : Json.decodeUtf8 bytes = some cs) :
    Json.utf8 cs = bytes := by
  obtain ⟨arr, harr, rfl⟩ := Option.map_eq_some_iff.mp h
  have hsome : bytes.toByteArray.utf8Decode?.isSome = true := by rw [harr]; rfl
  have hback := ByteArray.utf8Encode_get_utf8Decode? (h := hsome)
  have hget : bytes.toByteArray.utf8Decode?.get hsome = arr := Option.get_of_eq_some _ harr
  rw [hget] at hback
  have htext : (Json.utf8 arr.toList).toByteArray = bytes.toByteArray := hback
  have hdata := congrArg (fun b => b.data.toList) htext
  simpa using hdata

theorem decode_eq_some : decode bytes = some s ↔ encode s = some bytes := by
  rw [encode_eq_some, decode, Option.map_eq_some_iff]
  constructor
  · rintro ⟨cs, hcs, rfl⟩
    exact ⟨cs, rfl, (utf8_of_decodeUtf8 hcs).symm⟩
  · rintro ⟨cs, rfl, rfl⟩
    exact ⟨cs, Json.decodeUtf8_utf8 cs, rfl⟩

theorem encode_injective {s t : PyStr} (hs : encode s = some bytes)
    (ht : encode t = some bytes) : s = t :=
  Option.some.inj ((decode_eq_some.mpr hs).symm.trans (decode_eq_some.mpr ht))

theorem encode_append {s t : PyStr} {bytes bytes' : List UInt8} (hs : encode s = some bytes)
    (ht : encode t = some bytes') : encode (s ++ t) = some (bytes ++ bytes') := by
  obtain ⟨cs, rfl, rfl⟩ := encode_eq_some.mp hs
  obtain ⟨ds, rfl, rfl⟩ := encode_eq_some.mp ht
  refine encode_eq_some.mpr ⟨cs ++ ds, map_append.symm, ?_⟩
  exact flatMap_append.symm

theorem encode_left {s t : PyStr} (h : encode (s ++ t) = some bytes) : ∃ b, encode s = some b := by
  obtain ⟨cs, hcs, -⟩ := encode_eq_some.mp h
  obtain ⟨ds, es, -, hds, -⟩ := map_eq_append_iff.mp hcs.symm
  exact ⟨Json.utf8 ds, encode_eq_some.mpr ⟨ds, hds.symm, rfl⟩⟩

theorem encodable_iff : (∃ bytes, encode s = some bytes) ↔ ∀ p ∈ s, p.char? ≠ none := by
  constructor
  · rintro ⟨bytes, h⟩ p hp
    obtain ⟨cs, rfl, -⟩ := encode_eq_some.mp h
    obtain ⟨c, -, rfl⟩ := mem_map.mp hp
    exact nofun
  · intro h
    have hchars : ∃ cs, s = ofChars cs := by
      induction s with
      | nil => exact ⟨[], rfl⟩
      | cons p ps ih =>
        obtain ⟨cs, rfl⟩ := ih fun q hq => h q (mem_cons_of_mem _ hq)
        cases p with
        | char c => exact ⟨c :: cs, rfl⟩
        | surrogate n => exact absurd rfl (h _ mem_cons_self)
    obtain ⟨cs, rfl⟩ := hchars
    exact ⟨_, encode_ofChars cs⟩

theorem mem_of_mem_encode (h : encode s = some bytes) {b : UInt8}
    (hb : b ∈ bytes) (hlow : b.toNat < 128) : CodePoint.char (Char.ofNat b.toNat) ∈ s := by
  obtain ⟨cs, rfl, rfl⟩ := encode_eq_some.mp h
  obtain ⟨c, hc, hbc⟩ := mem_flatMap.mp hb
  have hval := Json.toNat_of_mem_utf8EncodeChar hbc hlow
  refine mem_map.mpr ⟨c, hc, ?_⟩
  rw [← hval, Char.ofNat_toNat]

end PyStr

end Bravo
