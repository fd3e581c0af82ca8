import Bravo.Basic.Binary64
import Bravo.Basic.PrefixCode
import Bravo.Basic.PyJson
import Bravo.Schema.Manifest

/-! # Resolved parameters

`encode_parameter_value` and `encode_resolved_parameters` of `cp2_schema.py`. A canonical value has its mappings
sorted by the encoded names; `bytesOf` is the encoding of a canonical value, from which the value can be read off
(`separates_bytesOf`), and the Python encoder writes the bytes of the canonical form of what it is given
(`encodeParameterValue_ok`), or refuses.
-/

namespace Bravo.Schema

open PyJson List

/-- A parameter value: `None`, which is refused, a Boolean, an integer, a float, a string, a list or a mapping. -/
abbrev Value := PyJson Binary64

/-! ## The encoder -/

def validateU64 (value : Nat) (label : String) : Result UInt64 :=
  if value < 2 ^ 64 then .ok (UInt64.ofNat value)
  else fail (label ++ " must be an integer in [0,2^64-1] and not Boolean")

def u64Bytes (value : Nat) (label : String) : Result (List UInt8) := do
  let v ← validateU64 value label
  return bigEndian v

def validateI64 (value : Int) (label : String) : Result Int64 :=
  if -2 ^ 63 ≤ value ∧ value < 2 ^ 63 then .ok (Int64.ofInt value)
  else fail (label ++ " must be an integer in [-2^63,2^63-1] and not Boolean")

def i64Bytes (value : Int) (label : String) : Result (List UInt8) := do
  let v ← validateI64 value label
  return bigEndian v.toUInt64

/-- `validate_f64` of a float -/
def validateF64 (value : Binary64) (label : String) : Result Binary64 :=
  if value.isFinite then .ok value else fail (label ++ " must be finite binary64")

def lengthPrefixed (encoded : List UInt8) (label : String) : Result (List UInt8) := do
  let length ← u64Bytes encoded.length (label ++ " byte length")
  return length ++ encoded

section Encoder

-- `repr` of a string.
variable (keyRepr : PyStr → String)

def encodedItems {α : Type} (label : String) : List (PyStr × α) → Result (List (List UInt8 × α))
  | [] => return []
  | (name, item) :: items => do
    let nameBytes ← utf8 name (label ++ " key") true
    let rest ← encodedItems label items
    return (nameBytes, item) :: rest

def sortedParameterItems {α : Type} (label : String) (items : List (PyStr × α)) : Result (List (List UInt8 × α)) := do
  let encoded ← encodedItems label items
  return encoded.insertionSort fun a b => a.1 ≤ b.1

def appendItems (label : String) : List (List UInt8 × Result (List UInt8)) → Result (List UInt8)
  | [] => return []
  | (nameBytes, item) :: items => do
    let name ← lengthPrefixed nameBytes (label ++ " key")
    let value ← item
    let rest ← appendItems label items
    return name ++ value ++ rest

mutual

def encodeParameterValue (label : String) : Value → Result (List UInt8)
  | .null => fail (label ++ " must not be null")
  | .bool b => return [0x62, cond b 1 0]
  | .int n => do
    let bytes ← i64Bytes n label
    return 0x69 :: bytes
  | .float x => do
    let finite ← validateF64 x label
    return 0x66 :: bigEndian finite.bits
  | .str s => do
    let encoded ← utf8 s label true
    let bytes ← lengthPrefixed encoded label
    return 0x73 :: bytes
  | .arr items => do
    let count ← u64Bytes items.length (label ++ " list count")
    let payload ← encodeItems label 0 items
    return 0x6c :: (count ++ payload)
  | .obj entries => do
    let items ← sortedParameterItems label (encodeEntries label entries)
    let count ← u64Bytes items.length (label ++ " map count")
    let payload ← appendItems label items
    return 0x6d :: (count ++ payload)

def encodeItems (label : String) (index : Nat) : List Value → Result (List UInt8)
  | [] => return []
  | v :: vs => do
    let bytes ← encodeParameterValue (label ++ "[" ++ toString index ++ "]") v
    let rest ← encodeItems label (index + 1) vs
    return bytes ++ rest

def encodeEntries (label : String) : List (PyStr × Value) → List (PyStr × Result (List UInt8))
  | [] => []
  | (k, v) :: kvs => (k, encodeParameterValue (label ++ "[" ++ keyRepr k ++ "]") v) :: encodeEntries label kvs

end

def resolvedParameterPrefix : PyStr := PyStr.lit "/cp2_vio/"

/-- `RESOLVED_PARAMETERS_DOMAIN`: `SchurVIO-CP2-ros-params-v1` and NUL. -/
def resolvedParametersDomain : List UInt8 :=
  [0x53, 0x63, 0x68, 0x75, 0x72, 0x56, 0x49, 0x4f, 0x2d, 0x43, 0x50, 0x32, 0x2d, 0x72, 0x6f, 0x73, 0x2d, 0x70, 0x61,
    0x72, 0x61, 0x6d, 0x73, 0x2d, 0x76, 0x31, 0x00]

def nameText (name : PyStr) : String := String.ofList (name.filterMap CodePoint.char?)

/-- The loop of `_validate_resolved_parameter_map` over the names. -/
def validateNames : List (PyStr × Value) → Result Unit
  | [] => return ()
  | (name, _) :: entries => do
    let _ ← utf8 name "resolved parameter name" true
    if ¬ resolvedParameterPrefix <+: name ∨ name.length = resolvedParameterPrefix.length then
      fail ("resolved parameter name must be a leaf below /cp2_vio/: " ++ nameText name)
    else validateNames entries

def validateResolvedParameterMap : Value → Result Value
  | .obj entries => do
    validateNames entries
    return .obj entries
  | _ => fail "resolved parameters must be a top-level map"

def encodeResolvedParameters (parameters : Value) : Result (List UInt8) := do
  let validated ← validateResolvedParameterMap parameters
  let bytes ← encodeParameterValue keyRepr "resolved parameters" validated
  return resolvedParametersDomain ++ bytes

end Encoder

/-! ## Canonical values -/

def keyBytes (name : PyStr) : List UInt8 := name.encode.getD []

def sortByName {α : Type} (entries : List (PyStr × α)) : List (PyStr × α) :=
  entries.insertionSort fun a b => keyBytes a.1 ≤ keyBytes b.1

mutual

/-- The value with the items of every mapping in the order of their encoded names. -/
def canonical : Value → Value
  | .arr items => .arr (canonicalItems items)
  | .obj entries => .obj (sortByName (canonicalEntries entries))
  | v => v

def canonicalItems : List Value → List Value
  | [] => []
  | v :: vs => canonical v :: canonicalItems vs

def canonicalEntries : List (PyStr × Value) → List (PyStr × Value)
  | [] => []
  | (k, v) :: kvs => (k, canonical v) :: canonicalEntries kvs

end

def textBytes (s : PyStr) : List UInt8 := bigEndian (UInt64.ofNat (keyBytes s).length) ++ keyBytes s

mutual

def bytesOf : Value → List UInt8
  | .null => []
  | .bool b => [0x62, cond b 1 0]
  | .int n => 0x69 :: bigEndian (Int64.ofInt n).toUInt64
  | .float x => 0x66 :: bigEndian x.bits
  | .str s => 0x73 :: textBytes s
  | .arr items => 0x6c :: (bigEndian (UInt64.ofNat items.length) ++ bytesOfItems items)
  | .obj entries => 0x6d :: (bigEndian (UInt64.ofNat entries.length) ++ bytesOfEntries entries)

def bytesOfItems : List Value → List UInt8
  | [] => []
  | v :: vs => bytesOf v ++ bytesOfItems vs

def bytesOfEntries : List (PyStr × Value) → List UInt8
  | [] => []
  | (k, v) :: kvs => textBytes k ++ bytesOf v ++ bytesOfEntries kvs

end

def entryBytes (entry : PyStr × Value) : List UInt8 := textBytes entry.1 ++ bytesOf entry.2

theorem bytesOfItems_eq (items : List Value) : bytesOfItems items = items.flatMap bytesOf := by
  induction items with
  | nil => rfl
  | cons v vs ih => rw [bytesOfItems, ih]; rfl

theorem bytesOfEntries_eq (entries : List (PyStr × Value)) : bytesOfEntries entries = entries.flatMap entryBytes := by
  induction entries with
  | nil => rfl
  | cons entry entries ih => rw [bytesOfEntries, ih]; rfl

theorem canonicalItems_eq (items : List Value) : canonicalItems items = items.map canonical := by
  induction items with
  | nil => rfl
  | cons v vs ih => rw [canonicalItems, ih]; rfl

def canonicalEntry (entry : PyStr × Value) : PyStr × Value := (entry.1, canonical entry.2)

theorem canonicalEntries_eq (entries : List (PyStr × Value)) : canonicalEntries entries = entries.map canonicalEntry := by
  induction entries with
  | nil => rfl
  | cons entry entries ih => rw [canonicalEntries, ih]; rfl

def populationLimit : Nat := 1000000

def textLimit : Nat := 16777216

/-- A string without NUL that has an encoding, within the limit of a reader. -/
structure TextFits (s : PyStr) : Prop where
  encoded : s.encode = some (keyBytes s)
  zero : (0 : UInt8) ∉ keyBytes s
  bounded : (keyBytes s).length ≤ textLimit

/-- A canonical value of fewer than `levels` levels, within the limits. -/
def Fits : Nat → Value → Prop
  | 0, _ => False
  | _ + 1, .null => False
  | _ + 1, .bool _ => True
  | _ + 1, .int n => -2 ^ 63 ≤ n ∧ n < 2 ^ 63
  | _ + 1, .float x => x.isFinite = true
  | _ + 1, .str s => TextFits s
  | levels + 1, .arr items => items.length ≤ populationLimit ∧ ∀ v ∈ items, Fits levels v
  | levels + 1, .obj entries => entries.length ≤ populationLimit ∧
      (entries.Pairwise fun a b => keyBytes a.1 < keyBytes b.1) ∧
        ∀ entry ∈ entries, TextFits entry.1 ∧ Fits levels entry.2

/-- The bounds of a reader, for a value whose mappings have distinct names. -/
def Sized : Nat → Value → Prop
  | 0, _ => False
  | _ + 1, .str s => (keyBytes s).length ≤ textLimit
  | levels + 1, .arr items => items.length ≤ populationLimit ∧ ∀ v ∈ items, Sized levels v
  | levels + 1, .obj entries => entries.length ≤ populationLimit ∧ (entries.map Prod.fst).Nodup ∧
      ∀ entry ∈ entries, (keyBytes entry.1).length ≤ textLimit ∧ Sized levels entry.2
  | _ + 1, _ => True

/-! ## The bytes determine the value -/

theorem separates_textBytes : Separates TextFits textBytes id := by
  have hbyte : Separates (fun _ : UInt8 => True) (fun b : UInt8 => [b]) id :=
    .of_length (fun _ _ => rfl) fun a b _ _ h => singleton_inj.mp h
  have hlist := Separates.list hbyte
  have hbytes : Separates TextFits textBytes (fun s => (keyBytes s).map id) := by
    intro s t x y hs ht heq
    have hflat : ∀ u : PyStr, textBytes u =
        bigEndian (UInt64.ofNat (keyBytes u).length) ++ (keyBytes u).flatMap fun b => [b] := by
      intro u
      rw [flatMap_singleton']
      rfl
    rw [hflat, hflat] at heq
    have hlength : ∀ {u : PyStr}, TextFits u → (keyBytes u).length < 2 ^ 64 := fun hu =>
      lt_of_le_of_lt hu.bounded (by decide)
    exact hlist (keyBytes s) (keyBytes t) x y ⟨hlength hs, fun _ _ => trivial⟩ ⟨hlength ht, fun _ _ => trivial⟩ heq
  refine hbytes.rekey fun s t hs ht heq => ?_
  have hkeys : keyBytes s = keyBytes t := by simpa using heq
  exact PyStr.encode_injective hs.encoded (hkeys ▸ ht.encoded)

theorem toInt_ofInt {n : Int} (h : -2 ^ 63 ≤ n ∧ n < 2 ^ 63) : (Int64.ofInt n).toInt = n :=
  Int64.toInt_ofInt_of_le (by omega) (by omega)

theorem separates_bytesOf (levels : Nat) : Separates (Fits levels) bytesOf id := by
  induction levels with
  | zero => exact fun a b x y ha => absurd ha id
  | succ levels ih =>
    have hcount : ∀ {n : Nat}, n ≤ populationLimit → n < 2 ^ 64 := fun h => lt_of_le_of_lt h (by decide)
    have hentry : Separates (fun e : PyStr × Value => TextFits e.1 ∧ Fits levels e.2) entryBytes id := by
      have htext := (separates_textBytes.part (Prod.fst : PyStr × Value → PyStr)).mono
        fun e (he : TextFits e.1 ∧ Fits levels e.2) => he.1
      have hvalue := (ih.part (Prod.snd : PyStr × Value → Value)).mono
        fun e (he : TextFits e.1 ∧ Fits levels e.2) => he.2
      exact (htext.seq hvalue).rekey fun e e' _ _ heq => heq
    -- Values with different tags differ in the first byte.
    intro v w x y hv hw heq
    cases v <;> cases w <;> first
      | exact absurd hv id
      | exact absurd hw id
      | (exfalso; simp [bytesOf] at heq; done)
      | skip
    · rename_i b b'
      have hbyte : (cond b 1 0 : UInt8) = cond b' 1 0 ∧ x = y := by simpa [bytesOf] using heq
      obtain ⟨hbyte, rfl⟩ := hbyte
      refine ⟨?_, rfl⟩
      cases b <;> cases b' <;> first | rfl | exact absurd hbyte (by decide)
    · rename_i n n'
      obtain ⟨hbits, hxy⟩ := separates_bigEndian _ _ x y trivial trivial (List.cons.inj heq).2
      have hint : Int64.ofInt n = Int64.ofInt n' := congrArg UInt64.toInt64 hbits
      have hn : n = n' := by rw [← toInt_ofInt hv, hint, toInt_ofInt hw]
      exact ⟨congrArg PyJson.int hn, hxy⟩
    · rename_i z z'
      obtain ⟨hbits, hxy⟩ := separates_bigEndian _ _ x y trivial trivial (List.cons.inj heq).2
      obtain ⟨bits⟩ := z
      obtain ⟨bits'⟩ := z'
      obtain rfl : bits = bits' := hbits
      exact ⟨rfl, hxy⟩
    · rename_i s s'
      obtain ⟨hs, hxy⟩ := separates_textBytes s s' x y hv hw (List.cons.inj heq).2
      exact ⟨congrArg PyJson.str hs, hxy⟩
    · rename_i items items'
      have htail := (List.cons.inj heq).2
      rw [bytesOfItems_eq, bytesOfItems_eq] at htail
      obtain ⟨hitems, hxy⟩ := ih.list items items' x y ⟨hcount hv.1, hv.2⟩ ⟨hcount hw.1, hw.2⟩ htail
      exact ⟨congrArg PyJson.arr (by simpa using hitems), hxy⟩
    · rename_i entries entries'
      have htail := (List.cons.inj heq).2
      rw [bytesOfEntries_eq, bytesOfEntries_eq] at htail
      obtain ⟨hentries, hxy⟩ := hentry.list entries entries' x y ⟨hcount hv.1, hv.2.2⟩ ⟨hcount hw.1, hw.2.2⟩ htail
      exact ⟨congrArg PyJson.obj (by simpa using hentries), hxy⟩

/-! ## What the encoder writes -/

section Written

variable {keyRepr : PyStr → String} {label : String} {bytes : List UInt8}

theorem u64Bytes_ok {value : Nat} (h : u64Bytes value label = .ok bytes) :
    bytes = bigEndian (UInt64.ofNat value) := by
  unfold u64Bytes validateU64 at h
  split_ifs at h
  · exact (Except.ok.inj h).symm
  · exact absurd h nofun

theorem u64Bytes_eq {value : Nat} (h : value < 2 ^ 64) (label : String) :
    u64Bytes value label = .ok (bigEndian (UInt64.ofNat value)) := by
  rw [u64Bytes, validateU64, if_pos h]
  rfl

theorem lengthPrefixed_ok {encoded bytes : List UInt8}
    (h : lengthPrefixed encoded label = .ok bytes) :
    bytes = bigEndian (UInt64.ofNat encoded.length) ++ encoded := by
  obtain ⟨length, hlength, hbytes⟩ := bind_eq_ok.mp h
  rw [u64Bytes_ok hlength] at hbytes
  exact (Except.ok.inj hbytes).symm

theorem lengthPrefixed_eq {encoded : List UInt8} (h : encoded.length < 2 ^ 64) (label : String) :
    lengthPrefixed encoded label = .ok (bigEndian (UInt64.ofNat encoded.length) ++ encoded) := by
  rw [lengthPrefixed, u64Bytes_eq h]
  rfl

variable {s : PyStr}

theorem notMem_nul_iff (h : s.encode = some bytes) :
    lit (Char.ofNat 0) ∉ s ↔ (0 : UInt8) ∉ bytes := by
  refine not_congr ⟨fun hmem => mem_encode (by decide) h hmem, fun hmem => ?_⟩
  exact PyStr.mem_of_mem_encode h hmem (by decide)

theorem textFits_of_utf8 (h : utf8 s label true = .ok bytes)
    (hbound : (keyBytes s).length ≤ textLimit) : TextFits s ∧ bytes = keyBytes s := by
  obtain ⟨hencode, hnul⟩ := utf8_ok h
  have hbytes : bytes = keyBytes s := by rw [keyBytes, hencode]; rfl
  subst hbytes
  exact ⟨⟨hencode, (notMem_nul_iff hencode).mp (hnul rfl), hbound⟩, rfl⟩

theorem TextFits.utf8 (h : TextFits s) (label : String) : utf8 s label true = .ok (keyBytes s) :=
  utf8_eq_ok label h.encoded ((notMem_nul_iff h.encoded).mpr h.zero)

theorem TextFits.length_lt (h : TextFits s) : (keyBytes s).length < 2 ^ 64 :=
  lt_of_le_of_lt h.bounded (by decide)

def valueEncoding (keyRepr : PyStr → String) (label : String) (entry : PyStr × Value) : PyStr × Result (List UInt8) :=
  (entry.1, encodeParameterValue keyRepr (label ++ "[" ++ keyRepr entry.1 ++ "]") entry.2)

theorem encodeEntries_eq (label : String) (entries : List (PyStr × Value)) :
    encodeEntries keyRepr label entries = entries.map (valueEncoding keyRepr label) := by
  induction entries with
  | nil => rfl
  | cons entry entries ih => rw [encodeEntries, ih]; rfl

def keyed {α : Type} (entry : PyStr × α) : List UInt8 × α := (keyBytes entry.1, entry.2)

theorem encodedItems_ok {α : Type} {label : String} : ∀ {items : List (PyStr × α)} {out : List (List UInt8 × α)},
    encodedItems label items = .ok out →
      out = items.map keyed ∧ ∀ item ∈ items, utf8 item.1 (label ++ " key") true = .ok (keyBytes item.1)
  | [], out, h => by
    obtain rfl := Except.ok.inj h
    exact ⟨rfl, nofun⟩
  | (name, item) :: items, out, h => by
    obtain ⟨bytes, hbytes, hrest⟩ := bind_eq_ok.mp h
    obtain ⟨rest, hitems, hout⟩ := bind_eq_ok.mp hrest
    obtain rfl := Except.ok.inj hout
    obtain ⟨rfl, hall⟩ := encodedItems_ok hitems
    have hkey : bytes = keyBytes name := by rw [keyBytes, (utf8_ok hbytes).1]; rfl
    subst hkey
    exact ⟨rfl, forall_mem_cons.mpr ⟨hbytes, hall⟩⟩

theorem encodedItems_eq {α : Type} {label : String} : ∀ {items : List (PyStr × α)},
    (∀ item ∈ items, TextFits item.1) → encodedItems label items = .ok (items.map keyed)
  | [], _ => rfl
  | (name, item) :: items, h => by
    obtain ⟨hname, hrest⟩ := forall_mem_cons.mp h
    rw [encodedItems, hname.utf8, encodedItems_eq hrest]
    rfl

variable {α : Type}

theorem sort_keyed (items : List (PyStr × α)) :
    (items.map keyed).insertionSort (fun a b : List UInt8 × α => a.1 ≤ b.1) = (sortByName items).map keyed :=
  (map_insertionSort (fun a b : PyStr × α => keyBytes a.1 ≤ keyBytes b.1)
    (fun a b : List UInt8 × α => a.1 ≤ b.1) keyed items fun _ _ _ _ => .rfl).symm

theorem sortByName_map {α β : Type} (f : PyStr × α → PyStr × β) (hf : ∀ item, (f item).1 = item.1)
    (items : List (PyStr × α)) : sortByName (items.map f) = (sortByName items).map f :=
  (map_insertionSort (fun a b : PyStr × α => keyBytes a.1 ≤ keyBytes b.1)
    (fun a b : PyStr × β => keyBytes a.1 ≤ keyBytes b.1) f items fun a _ b _ => by rw [hf a, hf b]).symm

theorem sortByName_perm (items : List (PyStr × α)) : (sortByName items).Perm items :=
  perm_insertionSort _ _

variable {items : List (PyStr × α)}

theorem sortByName_strict (hnodup : (items.map Prod.fst).Nodup)
    (hencoded : ∀ item ∈ items, item.1.encode = some (keyBytes item.1)) :
    (sortByName items).Pairwise fun a b => keyBytes a.1 < keyBytes b.1 := by
  have htotal : Std.Total fun a b : PyStr × α => keyBytes a.1 ≤ keyBytes b.1 := ⟨fun a b => List.le_total _ _⟩
  have htrans : IsTrans (PyStr × α) fun a b => keyBytes a.1 ≤ keyBytes b.1 := ⟨fun _ _ _ => List.le_trans⟩
  have hsorted := pairwise_insertionSort (fun a b : PyStr × α => keyBytes a.1 ≤ keyBytes b.1) items
  have hne : (sortByName items).Pairwise fun a b => a.1 ≠ b.1 := by
    have hperm := ((sortByName_perm items).map Prod.fst).nodup_iff.mpr hnodup
    exact pairwise_map.mp hperm
  refine List.Pairwise.imp_of_mem ?_ (hsorted.and hne)
  rintro a b ha hb ⟨hle, hname⟩
  refine Std.lt_of_le_of_ne hle fun heq => hname ?_
  have ha' := hencoded a ((sortByName_perm items).mem_iff.mp ha)
  have hb' := hencoded b ((sortByName_perm items).mem_iff.mp hb)
  exact PyStr.encode_injective ha' (heq ▸ hb')

theorem sortByName_eq_self
    (h : items.Pairwise fun a b => keyBytes a.1 < keyBytes b.1) : sortByName items = items :=
  List.Pairwise.insertionSort_eq (h.imp fun hlt => List.le_of_lt hlt)

theorem sortedParameterItems_ok
    {out : List (List UInt8 × α)} (h : sortedParameterItems label items = .ok out) :
    out = (sortByName items).map keyed ∧
      ∀ item ∈ items, utf8 item.1 (label ++ " key") true = .ok (keyBytes item.1) := by
  obtain ⟨encoded, hencoded, hout⟩ := bind_eq_ok.mp h
  obtain ⟨rfl, hall⟩ := encodedItems_ok hencoded
  exact ⟨(Except.ok.inj hout).symm.trans (sort_keyed items), hall⟩

theorem sortedParameterItems_eq
    (h : ∀ item ∈ items, TextFits item.1) :
    sortedParameterItems label items = .ok ((sortByName items).map keyed) := by
  rw [sortedParameterItems, encodedItems_eq h]
  exact congrArg Except.ok (sort_keyed items)

def Writes (keyRepr : PyStr → String) (levels : Nat) (v : Value) : Prop :=
  ∀ (label : String) (bytes : List UInt8), encodeParameterValue keyRepr label v = .ok bytes →
    Fits levels (canonical v) ∧ bytes = bytesOf (canonical v)

theorem encodeItems_ok {levels : Nat} {label : String} : ∀ {items : List Value} {index : Nat} {bytes : List UInt8},
    (∀ v ∈ items, Writes keyRepr levels v) → encodeItems keyRepr label index items = .ok bytes →
      (∀ v ∈ items, Fits levels (canonical v)) ∧ bytes = (items.map canonical).flatMap bytesOf
  | [], _, bytes, _, h => by
    obtain rfl := Except.ok.inj h
    exact ⟨nofun, rfl⟩
  | v :: vs, index, bytes, hwrites, h => by
    obtain ⟨first, hfirst, hrest⟩ := bind_eq_ok.mp h
    obtain ⟨rest, hvs, hbytes⟩ := bind_eq_ok.mp hrest
    obtain rfl := Except.ok.inj hbytes
    obtain ⟨hv, hwrites'⟩ := forall_mem_cons.mp hwrites
    obtain ⟨hfits, rfl⟩ := hv _ _ hfirst
    obtain ⟨hall, rfl⟩ := encodeItems_ok hwrites' hvs
    exact ⟨forall_mem_cons.mpr ⟨hfits, hall⟩, rfl⟩

theorem appendItems_ok {levels : Nat} {label inner : String} : ∀ {entries : List (PyStr × Value)} {bytes : List UInt8},
    (∀ e ∈ entries, Writes keyRepr levels e.2) →
      appendItems label ((entries.map (valueEncoding keyRepr inner)).map keyed) = .ok bytes →
        (∀ e ∈ entries, Fits levels (canonical e.2)) ∧ bytes = (entries.map canonicalEntry).flatMap entryBytes
  | [], bytes, _, h => by
    obtain rfl := Except.ok.inj h
    exact ⟨nofun, rfl⟩
  | (name, v) :: entries, bytes, hwrites, h => by
    obtain ⟨nameBytes, hname, h⟩ := bind_eq_ok.mp h
    obtain ⟨value, hvalue, h⟩ := bind_eq_ok.mp h
    obtain ⟨rest, hrest, h⟩ := bind_eq_ok.mp h
    obtain rfl := Except.ok.inj h
    obtain ⟨hv, hwrites'⟩ := forall_mem_cons.mp hwrites
    obtain ⟨hfits, rfl⟩ := hv _ _ hvalue
    obtain ⟨hall, rfl⟩ := appendItems_ok hwrites' hrest
    rw [lengthPrefixed_ok hname]
    exact ⟨forall_mem_cons.mpr ⟨hfits, hall⟩, rfl⟩

theorem encodeParameterValue_ok : ∀ (levels : Nat) (v : Value), Sized levels v → Writes keyRepr levels v := by
  intro levels
  induction levels with
  | zero => exact fun v hsized => absurd hsized id
  | succ levels ih =>
    intro v hsized label bytes h
    cases v with
    | null => exact absurd h nofun
    | bool b =>
      obtain rfl := Except.ok.inj h
      exact ⟨trivial, rfl⟩
    | int n =>
      obtain ⟨encoded, hencoded, hbytes⟩ := bind_eq_ok.mp h
      obtain rfl := Except.ok.inj hbytes
      unfold i64Bytes validateI64 at hencoded
      split_ifs at hencoded with hrange
      · obtain rfl := Except.ok.inj hencoded
        exact ⟨hrange, rfl⟩
      · exact absurd hencoded nofun
    | float x =>
      obtain ⟨finite, hfinite, hbytes⟩ := bind_eq_ok.mp h
      obtain rfl := Except.ok.inj hbytes
      unfold validateF64 at hfinite
      split_ifs at hfinite with hx
      · obtain rfl := Except.ok.inj hfinite
        exact ⟨hx, rfl⟩
      · exact absurd hfinite nofun
    | str s =>
      obtain ⟨encoded, hencoded, h⟩ := bind_eq_ok.mp h
      obtain ⟨text, htext, hbytes⟩ := bind_eq_ok.mp h
      obtain rfl := Except.ok.inj hbytes
      obtain ⟨hfits, rfl⟩ := textFits_of_utf8 hencoded hsized
      exact ⟨hfits, by rw [lengthPrefixed_ok htext]; rfl⟩
    | arr items =>
      obtain ⟨count, hcount, h⟩ := bind_eq_ok.mp h
      obtain ⟨payload, hpayload, hbytes⟩ := bind_eq_ok.mp h
      obtain rfl := Except.ok.inj hbytes
      obtain ⟨hall, rfl⟩ := encodeItems_ok (fun v hv => ih v (hsized.2 v hv)) hpayload
      rw [u64Bytes_ok hcount, canonical, canonicalItems_eq, bytesOf, bytesOfItems_eq, length_map]
      refine ⟨⟨by rw [length_map]; exact hsized.1, ?_⟩, rfl⟩
      exact forall_mem_map.mpr hall
    | obj entries =>
      obtain ⟨items, hitems, h⟩ := bind_eq_ok.mp h
      obtain ⟨count, hcount, h⟩ := bind_eq_ok.mp h
      obtain ⟨payload, hpayload, hbytes⟩ := bind_eq_ok.mp h
      obtain rfl := Except.ok.inj hbytes
      obtain ⟨hbound, hnodup, hsized⟩ := hsized
      obtain ⟨rfl, hnames⟩ := sortedParameterItems_ok hitems
      rw [encodeEntries_eq] at hnames hpayload hcount
      rw [sortByName_map (valueEncoding keyRepr label) fun _ => rfl] at hpayload hcount
      have hmem : ∀ e ∈ sortByName entries, e ∈ entries := fun e he => (sortByName_perm entries).mem_iff.mp he
      have htext : ∀ e ∈ entries, TextFits e.1 := fun e he =>
        (textFits_of_utf8 (hnames _ (mem_map_of_mem he)) (hsized e he).1).1
      obtain ⟨hall, rfl⟩ := appendItems_ok (fun e he => ih e.2 (hsized e (hmem e he)).2) hpayload
      have hsorted : sortByName (canonicalEntries entries) = (sortByName entries).map canonicalEntry := by
        rw [canonicalEntries_eq, sortByName_map canonicalEntry fun _ => rfl]
      have hlength := (sortByName_perm entries).length_eq
      rw [u64Bytes_ok hcount, canonical, hsorted, bytesOf, bytesOfEntries_eq]
      have hfits : Fits (levels + 1) (.obj ((sortByName entries).map canonicalEntry)) := by
        refine ⟨by rw [length_map, hlength]; exact hbound, ?_, ?_⟩
        · exact pairwise_map.mpr (sortByName_strict hnodup fun e he => (htext e he).encoded)
        · exact forall_mem_map.mpr fun e he => ⟨htext e (hmem e he), hall e he⟩
      refine ⟨hfits, ?_⟩
      simp only [length_map]

theorem encodeItems_eq (label : String) {vs : List Value}
    (h : ∀ v ∈ vs, ∀ label, encodeParameterValue keyRepr label v = .ok (bytesOf v)) :
    ∀ index, encodeItems keyRepr label index vs = .ok (vs.flatMap bytesOf) := by
  induction vs with
  | nil => exact fun _ => rfl
  | cons v vs ih =>
    intro index
    obtain ⟨hv, hrest⟩ := forall_mem_cons.mp h
    rw [encodeItems, hv, ih hrest]
    rfl

theorem appendItems_eq (label inner : String) {es : List (PyStr × Value)}
    (h : ∀ e ∈ es, TextFits e.1 ∧ ∀ label, encodeParameterValue keyRepr label e.2 = .ok (bytesOf e.2)) :
    appendItems label ((es.map (valueEncoding keyRepr inner)).map keyed) = .ok (es.flatMap entryBytes) := by
  induction es with
  | nil => rfl
  | cons e es ih =>
    obtain ⟨⟨hname, hvalue⟩, hrest⟩ := forall_mem_cons.mp h
    show (lengthPrefixed (keyBytes e.1) _ >>= fun name => encodeParameterValue keyRepr _ e.2 >>= fun value =>
      appendItems label ((es.map (valueEncoding keyRepr inner)).map keyed) >>= fun rest =>
        pure (name ++ value ++ rest)) = _
    rw [lengthPrefixed_eq hname.length_lt, hvalue, ih hrest]
    rfl

variable (keyRepr) in
theorem encodeParameterValue_eq : ∀ (levels : Nat) (v : Value), Fits levels v →
    (∀ label, encodeParameterValue keyRepr label v = .ok (bytesOf v)) ∧ canonical v = v ∧ Sized levels v := by
  intro levels
  induction levels with
  | zero => exact fun v hfits => absurd hfits id
  | succ levels ih =>
    intro v hfits
    cases v with
    | null => exact absurd hfits id
    | bool b => exact ⟨fun _ => rfl, rfl, trivial⟩
    | int n =>
      refine ⟨fun label => ?_, rfl, trivial⟩
      have hrange : -2 ^ 63 ≤ n ∧ n < 2 ^ 63 := hfits
      rw [encodeParameterValue, i64Bytes, validateI64, if_pos hrange]
      rfl
    | float x =>
      refine ⟨fun label => ?_, rfl, trivial⟩
      have hfinite : x.isFinite = true := hfits
      rw [encodeParameterValue, validateF64, if_pos hfinite]
      rfl
    | str s =>
      refine ⟨fun label => ?_, rfl, hfits.bounded⟩
      rw [encodeParameterValue, TextFits.utf8 hfits]
      show (lengthPrefixed (keyBytes s) label >>= fun bytes => _) = _
      rw [lengthPrefixed_eq (TextFits.length_lt hfits)]
      rfl
    | arr items =>
      obtain ⟨hbound, hall⟩ := hfits
      have hcount : items.length < 2 ^ 64 := lt_of_le_of_lt hbound (by decide)
      refine ⟨fun label => ?_, ?_, hbound, fun v hv => (ih v (hall v hv)).2.2⟩
      · rw [encodeParameterValue, u64Bytes_eq hcount, encodeItems_eq label (fun v hv => (ih v (hall v hv)).1), bytesOf,
          bytesOfItems_eq]
        rfl
      · rw [canonical, canonicalItems_eq]
        exact congrArg PyJson.arr ((map_congr_left fun v hv => (ih v (hall v hv)).2.1).trans (List.map_id _))
    | obj entries =>
      obtain ⟨hbound, hsorted, hall⟩ := hfits
      have hcount : entries.length < 2 ^ 64 := lt_of_le_of_lt hbound (by decide)
      -- the entries are sorted already, so their order is that of the encoding
      have hself := sortByName_eq_self hsorted
      have hitems : ∀ label : String, sortedParameterItems label (encodeEntries keyRepr label entries) =
          .ok ((entries.map (valueEncoding keyRepr label)).map keyed) := by
        intro label
        have hnames : ∀ item ∈ entries.map (valueEncoding keyRepr label), TextFits item.1 :=
          forall_mem_map.mpr fun e he => (hall e he).1
        rw [encodeEntries_eq, sortedParameterItems_eq hnames, sortByName_map (valueEncoding keyRepr label) fun _ => rfl,
          hself]
      refine ⟨fun label => ?_, ?_, hbound, ?_, fun e he => ⟨(hall e he).1.bounded, (ih e.2 (hall e he).2).2.2⟩⟩
      · rw [encodeParameterValue, hitems]
        show (u64Bytes _ _ >>= fun count => _) = _
        rw [length_map, length_map, u64Bytes_eq hcount, bytesOf, bytesOfEntries_eq]
        show (appendItems _ _ >>= fun payload => _) = _
        rw [appendItems_eq label label fun e he => ⟨(hall e he).1, (ih e.2 (hall e he).2).1⟩]
        rfl
      · have hcanonical : canonicalEntries entries = entries := by
          rw [canonicalEntries_eq]
          refine (map_congr_left fun e he => ?_).trans (List.map_id _)
          exact Prod.ext rfl (ih e.2 (hall e he).2).2.1
        rw [canonical, hcanonical, hself]
      · refine pairwise_map.mpr (hsorted.imp fun {a b} hlt heq => ?_)
        rw [heq] at hlt
        exact List.lt_irrefl _ hlt

end Written

end Bravo.Schema
