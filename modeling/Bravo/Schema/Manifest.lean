import Bravo.Basic.Lines
import Bravo.Basic.PyText
import Mathlib.Data.List.Sort
import Mathlib.Data.List.TakeWhile

/-! # Checksum manifests

`manifest_bytes` and `parse_manifest_bytes` of `cp2_schema.py` with the checks of paths and digests. A mapping
is the list of its items with distinct keys; two mappings are equal when their items are, in any order. The two
functions are inverse on what they accept, and an accepted path stays below its root.
-/

namespace Bravo.Schema

open List

structure SchemaError where
  message : String
deriving DecidableEq, Repr

abbrev Result (α : Type) := Except SchemaError α

def fail {α : Type} (message : String) : Result α := .error ⟨message⟩

def lit (c : Char) : CodePoint := .char c

def utf8 (value : PyStr) (label : String) (forbidNul : Bool) : Result (List UInt8) :=
  if forbidNul ∧ lit (Char.ofNat 0) ∈ value then fail (label ++ " must not contain NUL")
  else match value.encode with
    | some bytes => .ok bytes
    | none => fail (label ++ " is not valid UTF-8")

/-! ## Paths -/

/-- `PurePosixPath`: the root and the names below it. -/
structure PurePosixPath where
  root : PyStr
  names : List PyStr

namespace PurePosixPath

/-- Empty and dot components are dropped; exactly two leading slashes are a root of their own. -/
def ofString (value : PyStr) : PurePosixPath :=
  let rest := value.dropWhile (· = lit '/')
  let root := if value.length = rest.length then [] else if value.length = rest.length + 2 then [lit '/', lit '/']
    else [lit '/']
  ⟨root, (rest.splitOn (lit '/')).filter fun name => name ≠ [] ∧ name ≠ [lit '.']⟩

def parts (p : PurePosixPath) : List PyStr := if p.root = [] then p.names else p.root :: p.names

def isAbsolute (p : PurePosixPath) : Bool := p.root ≠ []

def toStr (p : PurePosixPath) : PyStr :=
  let text := p.root ++ [lit '/'].intercalate p.names
  if text = [] then [lit '.'] else text

end PurePosixPath

def validateRelpath (value : PyStr) (label : String) : Result PyStr := do
  let _ ← utf8 value label true
  if value = [] ∨ lit '\\' ∈ value then fail (label ++ " must be a nonempty POSIX relative path")
  else
    let pure := PurePosixPath.ofString value
    if pure.parts = [] ∨ pure.isAbsolute ∨ pure.toStr ≠ value then
      fail (label ++ " must be normalized and relative")
    else if pure.parts.any fun part => decide (part ∈ [[], [lit '.'], [lit '.', lit '.']]) then
      fail (label ++ " contains a forbidden path component")
    else return value

/-! ## Digests -/

def isHexChar (p : CodePoint) : Bool :=
  match p with
  | .char c => decide ('0' ≤ c ∧ c ≤ '9' ∨ 'a' ≤ c ∧ c ≤ 'f')
  | .surrogate _ => false

def validateSha256 (value : PyStr) (label : String) : Result PyStr :=
  if value.length = 64 ∧ value.all isHexChar then .ok value
  else fail (label ++ " must be 64 lowercase hexadecimal characters")

def isHexByte (b : UInt8) : Bool := decide (0x30 ≤ b ∧ b ≤ 0x39 ∨ 0x61 ≤ b ∧ b ≤ 0x66)

/-- `str.encode("ascii")` of hexadecimal digits -/
def asciiBytes (s : PyStr) : List UInt8 := s.map fun p => UInt8.ofNat p.value

/-- `bytes.decode("ascii")` of hexadecimal digits -/
def asciiText (bytes : List UInt8) : PyStr := bytes.map fun b => lit (Char.ofNat b.toNat)

/-! ## Writing -/

structure Mapping where
  items : List (PyStr × PyStr)
  distinct : (items.map Prod.fst).Nodup

/-- `==` of mappings -/
def Mapping.Same (m n : Mapping) : Prop := m.items.Perm n.items

def sha256sums : PyStr := PyStr.lit "SHA256SUMS"

/-- The loop body of `manifest_bytes`: the encoded path and digest of an item. -/
def manifestRecord (item : PyStr × PyStr) : Result (List UInt8 × List UInt8) := do
  let normalized ← validateRelpath item.1 "manifest path"
  if normalized = sha256sums then fail "SHA256SUMS must not list itself"
  else do
    let digest ← validateSha256 item.2 ("manifest digest for " ++ normalized.word)
    let encodedPath ← utf8 normalized "manifest path" true
    if newline ∈ encodedPath ∨ carriageReturn ∈ encodedPath then fail "manifest path contains a newline"
    else return (encodedPath, asciiBytes digest)

def space : UInt8 := 0x20

def manifestLine (record : List UInt8 × List UInt8) : List UInt8 :=
  record.2 ++ [space, space] ++ record.1 ++ [newline]

def manifestRecords : List (PyStr × PyStr) → Result (List (List UInt8 × List UInt8))
  | [] => return []
  | item :: items => do
    let record ← manifestRecord item
    let records ← manifestRecords items
    return record :: records

/-- `records.sort(key=lambda item: item[0])` -/
def sortRecords (records : List (List UInt8 × List UInt8)) : List (List UInt8 × List UInt8) :=
  records.insertionSort fun a b => a.1 ≤ b.1

/-- The bytes of items, which `manifest_bytes` is given as a mapping. -/
def itemsBytes (items : List (PyStr × PyStr)) : Result (List UInt8) := do
  let records ← manifestRecords items
  return (sortRecords records).flatMap manifestLine

def manifestBytes (entries : Mapping) : Result (List UInt8) := itemsBytes entries.items

/-! ## Reading -/

/-- `MANIFEST_LINE_PATTERN.fullmatch` -/
def matchLine (line : List UInt8) : Option (List UInt8 × List UInt8) :=
  let digest := line.take 64
  let tail := line.drop 66
  let path := tail.dropLast
  if digest.length = 64 ∧ digest.all isHexByte ∧ (line.drop 64).take 2 = [space, space] ∧
      tail.getLast? = some newline ∧ path ≠ [] ∧ newline ∉ path ∧ carriageReturn ∉ path then
    some (digest, path)
  else none

/-- The loop of `parse_manifest_bytes` over the lines from `index` on. -/
def parseLines : Nat → Option (List UInt8) → List (List UInt8) → Result (List (PyStr × PyStr))
  | _, _, [] => return []
  | index, previous, line :: lines =>
    match matchLine line with
    | none => fail ("manifest line " ++ toString index ++ " does not have the exact format")
    | some (digestBytes, pathBytes) =>
      match PyStr.decode pathBytes with
      | none => fail "manifest path is not UTF-8"
      | some path => do
        let _ ← validateRelpath path "manifest path"
        if path = sha256sums then fail "SHA256SUMS must not list itself"
        else if previous.any fun p => decide (pathBytes ≤ p) then
          fail "manifest paths are duplicated or not strictly bytewise sorted"
        else do
          let rest ← parseLines (index + 1) (some pathBytes) lines
          return (path, asciiText digestBytes) :: rest

/-- The items that `parse_manifest_bytes` collects. -/
def parseItems (raw : List UInt8) : Result (List (PyStr × PyStr)) :=
  if raw ≠ [] ∧ raw.getLast? ≠ some newline then fail "nonempty manifest must end with LF"
  else do
    let items ← parseLines 1 none (splitLines raw)
    let encoded ← itemsBytes items
    if encoded ≠ raw then fail "manifest bytes are not canonical" else return items

/-! ## Accepted paths -/

structure SafePath (path : PyStr) : Prop where
  nonempty : path ≠ []
  relative : path.head? ≠ some (lit '/')
  components : ∀ name ∈ path.splitOn (lit '/'), name ≠ [] ∧ name ≠ [lit '.'] ∧ name ≠ [lit '.', lit '.']
  characters : lit (Char.ofNat 0) ∉ path ∧ lit '\\' ∉ path
  encodable : ∃ bytes, path.encode = some bytes

variable {bytes : List UInt8} {value : PyStr}

theorem utf8_ok {label : String} {forbidNul : Bool} (h : utf8 value label forbidNul = .ok bytes) :
    value.encode = some bytes ∧ (forbidNul = true → lit (Char.ofNat 0) ∉ value) := by
  unfold utf8 at h
  split_ifs at h with hnul
  · exact absurd h nofun
  · split at h
    · rename_i bytes' hbytes
      obtain rfl := Except.ok.inj h
      exact ⟨hbytes, fun hforbid hmem => hnul ⟨hforbid, hmem⟩⟩
    · exact absurd h nofun

theorem utf8_eq_ok (label : String) (h : value.encode = some bytes)
    (hnul : lit (Char.ofNat 0) ∉ value) : utf8 value label true = .ok bytes := by
  rw [utf8, if_neg fun hand => hnul hand.2, h]

theorem notMem_of_mem_splitOn {α : Type} [DecidableEq α] {a : α} : ∀ {xs name : List α}, name ∈ xs.splitOn a →
    a ∉ name := by
  intro xs
  induction hn : xs.length using Nat.strong_induction_on generalizing xs with
  | _ n ih =>
    intro name hname
    by_cases ha : a ∈ xs
    · obtain ⟨ys, zs, rfl, hys⟩ := eq_append_cons_of_mem ha
      rw [splitOn_append_cons_self_of_not_mem hys] at hname
      rcases mem_cons.mp hname with rfl | hname
      · exact hys
      · refine ih zs.length ?_ rfl hname
        rw [← hn, length_append, length_cons]
        omega
    · rw [splitOn_eq_singleton ha] at hname
      obtain rfl := mem_singleton.mp hname
      exact ha

theorem names_of_toStr (habs : (PurePosixPath.ofString value).isAbsolute = false)
    (hstr : (PurePosixPath.ofString value).toStr = value) (hparts : (PurePosixPath.ofString value).parts ≠ []) :
    value.head? ≠ some (lit '/') ∧ (PurePosixPath.ofString value).parts = value.splitOn (lit '/') := by
  have hroot : (PurePosixPath.ofString value).root = [] := by simpa [PurePosixPath.isAbsolute] using habs
  have hnames : (PurePosixPath.ofString value).parts = (PurePosixPath.ofString value).names := by
    rw [PurePosixPath.parts, if_pos hroot]
  rw [hnames] at hparts ⊢
  have hlen : value.length = (value.dropWhile (· = lit '/')).length := by
    by_contra hne
    simp only [PurePosixPath.ofString, if_neg hne] at hroot
    split_ifs at hroot
  have hhead : value.head? ≠ some (lit '/') := by
    cases value with
    | nil => exact nofun
    | cons p ps =>
      intro heq
      obtain rfl : p = lit '/' := Option.some.inj heq
      have hle := List.length_dropWhile_le (fun q : CodePoint => decide (q = lit '/')) ps
      rw [dropWhile_cons_of_pos (by simp), length_cons] at hlen
      omega
  refine ⟨hhead, ?_⟩
  have hsep : ∀ name ∈ (PurePosixPath.ofString value).names, lit '/' ∉ name := by
    intro name hname
    exact notMem_of_mem_splitOn (mem_of_mem_filter hname)
  have hjoin : value = [lit '/'].intercalate (PurePosixPath.ofString value).names := by
    have htext := hstr
    rw [PurePosixPath.toStr, hroot, nil_append] at htext
    split_ifs at htext with hempty
    · -- The text of nonempty names is not empty.
      exfalso
      obtain ⟨name, rest, hcons⟩ := exists_cons_of_ne_nil hparts
      have hmem : name ∈ (PurePosixPath.ofString value).names := by rw [hcons]; exact mem_cons_self
      have hne : name ≠ [] := by
        have := of_mem_filter hmem
        simp only [decide_eq_true_iff] at this
        exact this.1
      rw [hcons] at hempty
      cases rest with
      | nil => exact hne (by simpa [List.intercalate] using hempty)
      | cons _ _ => simp [List.intercalate, List.intersperse] at hempty
    · exact htext.symm
  conv_rhs => rw [hjoin]
  exact (splitOn_intercalate _ hsep hparts).symm

theorem validateRelpath_ok {value out : PyStr} {label : String} (h : validateRelpath value label = .ok out) :
    out = value ∧ SafePath value := by
  unfold validateRelpath at h
  cases hutf8 : utf8 value label true with
  | error e => simp [hutf8, bind, Except.bind] at h
  | ok bytes =>
    obtain ⟨hencode, hnul⟩ := utf8_ok hutf8
    simp only [hutf8, bind, Except.bind] at h
    split_ifs at h with hempty hnormal hpart
    · exact absurd h nofun
    · exact absurd h nofun
    · exact absurd h nofun
    · obtain rfl := Except.ok.inj h
      obtain ⟨hne, hslash⟩ := not_or.mp hempty
      obtain ⟨hparts, hrest⟩ := not_or.mp hnormal
      obtain ⟨habs, hstr⟩ := not_or.mp hrest
      obtain ⟨hhead, hsplit⟩ := names_of_toStr (by simpa using habs) (not_not.mp hstr) hparts
      refine ⟨rfl, hne, hhead, fun name hname => ?_, ⟨hnul rfl, hslash⟩, bytes, hencode⟩
      have hforbidden : name ∉ [[], [lit '.'], [lit '.', lit '.']] := by
        intro hmem
        exact hpart (any_eq_true.mpr ⟨name, hsplit ▸ hname, by simpa using hmem⟩)
      simpa using hforbidden

/-! ## Records -/

structure IsRecord (item : PyStr × PyStr) (record : List UInt8 × List UInt8) : Prop where
  relpath : validateRelpath item.1 "manifest path" = .ok item.1
  other : item.1 ≠ sha256sums
  digest : item.2.length = 64 ∧ item.2.all isHexChar = true
  encoded : item.1.encode = some record.1
  unbroken : newline ∉ record.1 ∧ carriageReturn ∉ record.1
  ascii : record.2 = asciiBytes item.2

variable {record : List UInt8 × List UInt8} {item : PyStr × PyStr}

theorem manifestRecord_ok
    (h : manifestRecord item = .ok record) : IsRecord item record := by
  unfold manifestRecord at h
  cases hpath : validateRelpath item.1 "manifest path" with
  | error e => simp [hpath, bind, Except.bind] at h
  | ok path =>
    obtain ⟨rfl, hsafe⟩ := validateRelpath_ok hpath
    simp only [hpath, bind, Except.bind, validateSha256] at h
    split_ifs at h with hself hdigest
    · exact absurd h nofun
    · obtain ⟨bytes, hbytes⟩ := hsafe.encodable
      simp only [utf8_eq_ok "manifest path" hbytes hsafe.characters.1] at h
      split_ifs at h with hbreak
      · exact absurd h nofun
      · obtain rfl := Except.ok.inj h
        exact ⟨hpath, hself, hdigest, hbytes, not_or.mp hbreak, rfl⟩
    · exact absurd h nofun

theorem IsRecord.eq_ok (h : IsRecord item record) : manifestRecord item = .ok record := by
  have hutf8 := utf8_eq_ok "manifest path" h.encoded (validateRelpath_ok h.relpath).2.characters.1
  simp only [manifestRecord, h.relpath, bind, Except.bind, if_neg h.other, validateSha256, if_pos h.digest, hutf8]
  rw [if_neg (not_or.mpr h.unbroken), ← h.ascii]
  rfl

def itemOf (record : List UInt8 × List UInt8) : PyStr × PyStr :=
  ((PyStr.decode record.1).getD [], asciiText record.2)

theorem isHexChar_char {p : CodePoint} (h : isHexChar p = true) :
    ∃ c : Char, p = .char c ∧ ('0' ≤ c ∧ c ≤ '9' ∨ 'a' ≤ c ∧ c ≤ 'f') := by
  cases p with
  | char c => exact ⟨c, rfl, by simpa [isHexChar] using h⟩
  | surrogate n => exact absurd h nofun

theorem hex_toNat {c : Char} (h : '0' ≤ c ∧ c ≤ '9' ∨ 'a' ≤ c ∧ c ≤ 'f') :
    0x30 ≤ c.toNat ∧ c.toNat ≤ 0x39 ∨ 0x61 ≤ c.toNat ∧ c.toNat ≤ 0x66 := by
  simp only [Char.le_def, UInt32.le_iff_toNat_le] at h
  exact h

theorem asciiText_asciiBytes {s : PyStr} (h : s.all isHexChar = true) : asciiText (asciiBytes s) = s := by
  induction s with
  | nil => rfl
  | cons p ps ih =>
    rw [all_cons, Bool.and_eq_true] at h
    obtain ⟨c, rfl, hc⟩ := isHexChar_char h.1
    have hnat := hex_toNat hc
    have hsmall : (UInt8.ofNat c.toNat).toNat = c.toNat := by
      rw [UInt8.toNat_ofNat']
      omega
    have hhead : lit (Char.ofNat (UInt8.ofNat (CodePoint.char c).value).toNat) = .char c := by
      show lit (Char.ofNat (UInt8.ofNat c.toNat).toNat) = .char c
      rw [hsmall, Char.ofNat_toNat]
      rfl
    rw [asciiBytes, map_cons, asciiText, map_cons, hhead]
    exact congrArg (CodePoint.char c :: ·) (ih h.2)

theorem all_isHexByte {s : PyStr} (h : s.all isHexChar = true) : (asciiBytes s).all isHexByte = true := by
  rw [asciiBytes, all_map, all_eq_true]
  intro p hp
  obtain ⟨c, rfl, hc⟩ := isHexChar_char (all_eq_true.mp h p hp)
  have hnat := hex_toNat hc
  have hsmall : (UInt8.ofNat c.toNat).toNat = c.toNat := by
    rw [UInt8.toNat_ofNat']
    omega
  simp only [Function.comp_apply, isHexByte, CodePoint.value, decide_eq_true_iff, UInt8.le_iff_toNat_le, hsmall]
  exact hnat

theorem IsRecord.itemOf {item : PyStr × PyStr} {record : List UInt8 × List UInt8} (h : IsRecord item record) :
    itemOf record = item := by
  rw [Schema.itemOf, PyStr.decode_eq_some.mpr h.encoded, h.ascii, asciiText_asciiBytes h.digest.2]
  rfl

theorem IsRecord.path_ne_nil (h : IsRecord item record) : record.1 ≠ [] := by
  intro hnil
  have hdecode := PyStr.decode_eq_some.mpr h.encoded
  rw [hnil] at hdecode
  have hempty : PyStr.decode [] = some [] := PyStr.decode_eq_some.mpr rfl
  exact (validateRelpath_ok h.relpath).2.nonempty (Option.some.inj (hdecode.symm.trans hempty))

theorem hexByte_unbroken (h : bytes.all isHexByte = true) : Unbroken bytes := by
  intro b hb
  have hhex := all_eq_true.mp h b hb
  constructor
  · rintro rfl
    exact absurd hhex (by decide)
  · rintro rfl
    exact absurd hhex (by decide)

theorem IsRecord.length (h : IsRecord item record) : record.2.length = 64 := by
  rw [h.ascii, asciiBytes, length_map]
  exact h.digest.1

theorem IsRecord.matchLine {item : PyStr × PyStr} {record : List UInt8 × List UInt8} (h : IsRecord item record) :
    matchLine (manifestLine record) = some (record.2, record.1) := by
  obtain ⟨path, digest⟩ := record
  have hlen : digest.length = 64 := h.length
  have hhex : digest.all isHexByte = true := by
    have hascii : digest = asciiBytes item.2 := h.ascii
    exact hascii ▸ all_isHexByte h.digest.2
  have htake : (manifestLine (path, digest)).take 64 = digest := by
    simp [manifestLine, ← hlen]
  have hdrop : (manifestLine (path, digest)).drop 64 = space :: space :: (path ++ [newline]) := by
    simp [manifestLine, ← hlen]
  have htail : (manifestLine (path, digest)).drop 66 = path ++ [newline] := by
    rw [show 66 = 64 + 2 from rfl, ← drop_drop, hdrop]
    rfl
  have hne : path ≠ [] := h.path_ne_nil
  simp only [Schema.matchLine, htake, hdrop, htail, dropLast_concat]
  rw [if_pos ⟨hlen, hhex, rfl, by simp, hne, h.unbroken.1, h.unbroken.2⟩]

theorem IsRecord.isLine (h : IsRecord item record) : IsLine (manifestLine record) := by
  refine ⟨record.2 ++ [space, space] ++ record.1, rfl, ?_⟩
  intro b hb
  rcases mem_append.mp hb with hb | hb
  · rcases mem_append.mp hb with hb | hb
    · exact hexByte_unbroken (h.ascii ▸ all_isHexByte h.digest.2) b hb
    · simp only [mem_cons, not_mem_nil, or_false, or_self] at hb
      subst hb
      decide
  · exact ⟨fun heq => h.unbroken.1 (heq ▸ hb), fun heq => h.unbroken.2 (heq ▸ hb)⟩

theorem manifestRecords_ok : ∀ {items : List (PyStr × PyStr)} {records : List (List UInt8 × List UInt8)},
    manifestRecords items = .ok records →
      items = records.map itemOf ∧ ∀ record ∈ records, IsRecord (itemOf record) record
  | [], records, h => by
    obtain rfl := Except.ok.inj h
    exact ⟨rfl, nofun⟩
  | item :: items, records, h => by
    unfold manifestRecords at h
    cases hitem : manifestRecord item with
    | error e => simp [hitem, bind, Except.bind] at h
    | ok record =>
      cases hitems : manifestRecords items with
      | error e => simp [hitem, hitems, bind, Except.bind] at h
      | ok rest =>
        simp only [hitem, hitems, bind, Except.bind] at h
        obtain rfl := Except.ok.inj h
        obtain ⟨hrest, hall⟩ := manifestRecords_ok hitems
        have hrecord := manifestRecord_ok hitem
        refine ⟨by rw [map_cons, hrecord.itemOf, ← hrest], ?_⟩
        rintro r (_ | ⟨_, hr⟩)
        · rwa [hrecord.itemOf]
        · exact hall r hr

theorem manifestRecords_eq_ok : ∀ {records : List (List UInt8 × List UInt8)},
    (∀ record ∈ records, IsRecord (itemOf record) record) → manifestRecords (records.map itemOf) = .ok records
  | [], _ => rfl
  | record :: records, h => by
    rw [map_cons, manifestRecords, (h record mem_cons_self).eq_ok]
    simp only [bind, Except.bind, manifestRecords_eq_ok fun r hr => h r (mem_cons_of_mem _ hr)]
    rfl

/-! ## The order of the records -/

theorem sortRecords_perm (records : List (List UInt8 × List UInt8)) : (sortRecords records).Perm records :=
  perm_insertionSort _ _

theorem sortRecords_sorted (records : List (List UInt8 × List UInt8)) :
    (sortRecords records).Pairwise fun a b => a.1 ≤ b.1 := by
  have htotal : Std.Total fun a b : List UInt8 × List UInt8 => a.1 ≤ b.1 := ⟨fun a b => List.le_total a.1 b.1⟩
  have htrans : IsTrans (List UInt8 × List UInt8) fun a b => a.1 ≤ b.1 := ⟨fun _ _ _ => List.le_trans⟩
  exact pairwise_insertionSort (fun a b : List UInt8 × List UInt8 => a.1 ≤ b.1) records

theorem sortRecords_strict {records : List (List UInt8 × List UInt8)} (h : (records.map Prod.fst).Nodup) :
    (sortRecords records).Pairwise fun a b => a.1 < b.1 := by
  have hnodup : ((sortRecords records).map Prod.fst).Nodup :=
    ((sortRecords_perm records).map Prod.fst).nodup_iff.mpr h
  have hne : (sortRecords records).Pairwise fun a b => a.1 ≠ b.1 := pairwise_map.mp hnodup
  exact (sortRecords_sorted records).imp₂ (fun _ _ hle hne => Std.lt_of_le_of_ne hle hne) hne

theorem sortRecords_eq {records records' : List (List UInt8 × List UInt8)} (hperm : records.Perm records')
    (h : (records.map Prod.fst).Nodup) : sortRecords records = sortRecords records' := by
  have h' : (records'.map Prod.fst).Nodup := (hperm.map Prod.fst).nodup_iff.mp h
  refine List.Perm.eq_of_pairwise (fun a b _ _ hab hba => absurd (List.lt_trans hab hba) (List.lt_irrefl _))
    (sortRecords_strict h) (sortRecords_strict h') ?_
  exact ((sortRecords_perm records).trans hperm).trans (sortRecords_perm records').symm

theorem distinct_paths {records : List (List UInt8 × List UInt8)} (h : ((records.map itemOf).map Prod.fst).Nodup) :
    (records.map Prod.fst).Nodup := by
  have hmap : (records.map itemOf).map Prod.fst = (records.map Prod.fst).map fun p => (PyStr.decode p).getD [] := by
    rw [List.map_map, List.map_map]
    rfl
  rw [hmap] at h
  exact h.of_map _

/-! ## The lines are read back -/

theorem parseLines_eq_ok : ∀ {records : List (List UInt8 × List UInt8)} (index : Nat) (previous : Option (List UInt8)),
    (∀ record ∈ records, IsRecord (itemOf record) record) → (records.Pairwise fun a b => a.1 < b.1) →
      (∀ p ∈ previous, ∀ record ∈ records, p < record.1) →
      parseLines index previous (records.map manifestLine) = .ok (records.map itemOf)
  | [], _, _, _, _, _ => rfl
  | record :: records, _, previous, h, hsorted, hprevious => by
    have hrecord := h record mem_cons_self
    obtain ⟨hhead, htail⟩ := pairwise_cons.mp hsorted
    have hafter : previous.any (fun p => decide (record.1 ≤ p)) = false := by
      cases previous with
      | none => rfl
      | some p =>
        have hlt := hprevious p rfl record mem_cons_self
        simpa using hlt
    have hdecode : PyStr.decode record.1 = some (itemOf record).1 := PyStr.decode_eq_some.mpr hrecord.encoded
    have hdigest : asciiText record.2 = (itemOf record).2 := rfl
    rw [map_cons, parseLines, hrecord.matchLine]
    simp only [hdecode, hrecord.relpath, bind, Except.bind, if_neg hrecord.other, hafter, Bool.false_eq_true,
      if_false]
    rw [parseLines_eq_ok _ _ (fun r hr => h r (mem_cons_of_mem _ hr)) htail fun p hp r hr => by
      obtain rfl := Option.some.inj hp
      exact hhead r hr]
    rfl

theorem parseLines_increasing : ∀ {index : Nat} {lines : List (List UInt8)} {previous : Option (List UInt8)}
    {items : List (PyStr × PyStr)}, parseLines index previous lines = .ok items →
      (∀ item ∈ items, ∀ b, item.1.encode = some b → ∀ p ∈ previous, p < b) ∧
        (items.Pairwise fun x y => ∀ b c, x.1.encode = some b → y.1.encode = some c → b < c) ∧
        ∀ item ∈ items, ∃ b, item.1.encode = some b
  | _, [], _, items, h => by
    obtain rfl := Except.ok.inj h
    exact ⟨nofun, List.Pairwise.nil, nofun⟩
  | index, line :: lines, previous, items, h => by
    unfold parseLines at h
    split at h
    · exact absurd h nofun
    · rename_i digestBytes pathBytes hmatch
      split at h
      · exact absurd h nofun
      · rename_i path hdecode
        cases hpath : validateRelpath path "manifest path" with
        | error e => simp [hpath, bind, Except.bind] at h
        | ok out =>
          simp only [hpath, bind, Except.bind] at h
          split_ifs at h with hself hprevious
          · exact absurd h nofun
          · exact absurd h nofun
          · cases hrest : parseLines (index + 1) (some pathBytes) lines with
            | error e => simp [hrest] at h
            | ok rest =>
              simp only [hrest] at h
              obtain rfl := Except.ok.inj h
              obtain ⟨hafter, hpairs, hencodes⟩ := parseLines_increasing hrest
              have hencode := PyStr.decode_eq_some.mp hdecode
              have hlt : ∀ p ∈ previous, p < pathBytes := by
                intro p hp
                obtain rfl := hp
                simpa using hprevious
              refine ⟨?_, pairwise_cons.mpr ⟨?_, hpairs⟩, ?_⟩
              · rintro item (_ | ⟨_, hitem⟩) b hb p hp
                · obtain rfl := Option.some.inj (hencode.symm.trans hb)
                  exact hlt p hp
                · exact List.lt_trans (hlt p hp) (hafter item hitem b hb pathBytes rfl)
              · intro item hitem b c hb hc
                obtain rfl := Option.some.inj (hencode.symm.trans hb)
                exact hafter item hitem c hc _ rfl
              · rintro item (_ | ⟨_, hitem⟩)
                · exact ⟨pathBytes, hencode⟩
                · exact hencodes item hitem

theorem parseItems_ok {raw : List UInt8} {items : List (PyStr × PyStr)} (h : parseItems raw = .ok items) :
    parseLines 1 none (splitLines raw) = .ok items ∧ itemsBytes items = .ok raw := by
  unfold parseItems at h
  split_ifs at h
  · exact absurd h nofun
  · cases hlines : parseLines 1 none (splitLines raw) with
    | error e => simp [hlines, bind, Except.bind] at h
    | ok out =>
      cases hbytes : itemsBytes out with
      | error e => simp [hlines, hbytes, bind, Except.bind] at h
      | ok encoded =>
        simp only [hlines, hbytes, bind, Except.bind] at h
        split_ifs at h with hcanonical
        · exact absurd h nofun
        · obtain rfl := Except.ok.inj h
          exact ⟨rfl, by rw [hbytes, not_not.mp hcanonical]⟩

theorem parseItems_distinct {raw : List UInt8} {items : List (PyStr × PyStr)} (h : parseItems raw = .ok items) :
    (items.map Prod.fst).Nodup := by
  obtain ⟨-, hpairs, hencodes⟩ := parseLines_increasing (parseItems_ok h).1
  refine pairwise_map.mpr (hpairs.imp_of_mem fun {x y} hx _ hlt heq => ?_)
  obtain ⟨b, hb⟩ := hencodes x hx
  exact List.lt_irrefl b (hlt b b hb (heq ▸ hb))

def parseManifestBytes (raw : List UInt8) : Result Mapping :=
  match h : parseItems raw with
  | .ok items => .ok ⟨items, parseItems_distinct h⟩
  | .error e => .error e

theorem parseManifestBytes_ok {raw : List UInt8} {m : Mapping} :
    parseManifestBytes raw = .ok m ↔ parseItems raw = .ok m.items := by
  unfold parseManifestBytes
  split
  · rename_i items h
    constructor
    · intro heq
      obtain rfl := Except.ok.inj heq
      exact h
    · intro heq
      obtain ⟨items', hdistinct⟩ := m
      obtain rfl := Except.ok.inj (h.symm.trans heq)
      rfl
  · rename_i e h
    constructor
    · exact nofun
    · intro heq
      exact absurd (h.symm.trans heq) nofun

/-! ## The manifest -/

section Manifest

variable {entries entries' : Mapping} {raw raw' : List UInt8}

theorem manifestBytes_ok (h : manifestBytes entries = .ok raw) : ∃ records,
    entries.items = records.map itemOf ∧ (∀ record ∈ records, IsRecord (itemOf record) record) ∧
      (records.map Prod.fst).Nodup ∧ raw = (sortRecords records).flatMap manifestLine := by
  unfold manifestBytes itemsBytes at h
  cases hrecords : manifestRecords entries.items with
  | error e => simp [hrecords, bind, Except.bind] at h
  | ok records =>
    simp only [hrecords, bind, Except.bind] at h
    obtain rfl := Except.ok.inj h
    obtain ⟨hitems, hall⟩ := manifestRecords_ok hrecords
    exact ⟨records, hitems, hall, distinct_paths (hitems ▸ entries.distinct), rfl⟩

theorem parse_of_manifestBytes (h : manifestBytes entries = .ok raw) :
    ∃ parsed, parseManifestBytes raw = .ok parsed ∧ parsed.Same entries := by
  obtain ⟨records, hitems, hall, hdistinct, rfl⟩ := manifestBytes_ok h
  have hperm := sortRecords_perm records
  have hsorted : ∀ record ∈ sortRecords records, IsRecord (itemOf record) record := fun r hr => hall r (hperm.subset hr)
  have hlines : splitLines ((sortRecords records).flatMap manifestLine) = (sortRecords records).map manifestLine := by
    have hsplit := splitLines_flatten (fun line (hline : line ∈ (sortRecords records).map manifestLine) => by
      obtain ⟨r, hr, rfl⟩ := mem_map.mp hline
      exact (hsorted r hr).isLine) []
    rw [append_nil] at hsplit
    rw [flatMap_def, hsplit]
    exact append_nil _
  have hend : ¬ ((sortRecords records).flatMap manifestLine ≠ [] ∧
      ((sortRecords records).flatMap manifestLine).getLast? ≠ some newline) := by
    rintro ⟨hne, hlast⟩
    refine hlast ?_
    rw [flatMap_def]
    refine getLast?_flatten (fun line hline => ?_) fun hnil => hne (by rw [flatMap_def, hnil]; rfl)
    obtain ⟨r, hr, rfl⟩ := mem_map.mp hline
    exact (hsorted r hr).isLine
  have hparse := parseLines_eq_ok 1 none hsorted (sortRecords_strict hdistinct) nofun
  have hagain : itemsBytes ((sortRecords records).map itemOf) = .ok ((sortRecords records).flatMap manifestLine) := by
    simp only [itemsBytes, manifestRecords_eq_ok hsorted, bind, Except.bind,
      sortRecords_eq hperm ((hperm.map Prod.fst).nodup_iff.mpr hdistinct)]
    rfl
  have hresult : parseItems ((sortRecords records).flatMap manifestLine) = .ok ((sortRecords records).map itemOf) := by
    rw [parseItems, if_neg hend]
    simp only [hlines, hparse, hagain, bind, Except.bind, ne_eq, not_true_eq_false, if_false]
    rfl
  refine ⟨⟨(sortRecords records).map itemOf, parseItems_distinct hresult⟩, parseManifestBytes_ok.mpr hresult, ?_⟩
  show ((sortRecords records).map itemOf).Perm entries.items
  rw [hitems]
  exact hperm.map itemOf

theorem manifestBytes_congr (h : manifestBytes entries = .ok raw) (h' : manifestBytes entries' = .ok raw')
    (hsame : entries.Same entries') : raw = raw' := by
  obtain ⟨records, hitems, hall, hdistinct, rfl⟩ := manifestBytes_ok h
  obtain ⟨records', hitems', hall', -, rfl⟩ := manifestBytes_ok h'
  -- A record is a function of its item.
  have hback : ∀ {rs : List (List UInt8 × List UInt8)}, (∀ r ∈ rs, IsRecord (itemOf r) r) →
      (rs.map itemOf).map (fun item => ((item.1.encode).getD [], asciiBytes item.2)) = rs := by
    intro rs hrs
    rw [List.map_map]
    refine (map_congr_left fun r hr => ?_).trans (List.map_id rs)
    have hr' := hrs r hr
    simp only [Function.comp_apply, hr'.encoded, Option.getD_some, ← hr'.ascii]
    rfl
  have hperm : records.Perm records' := by
    rw [← hback hall, ← hback hall', ← hitems, ← hitems']
    exact List.Perm.map _ hsame
  rw [sortRecords_eq hperm hdistinct]

/-- An accepted path, also free of line breaks. -/
structure ManifestPath (path : PyStr) : Prop where
  safe : SafePath path
  unbroken : lit (Char.ofNat 10) ∉ path ∧ lit (Char.ofNat 13) ∉ path

theorem mem_encode {c : Char} {b : UInt8} (hc : String.utf8EncodeChar c = [b]) {path : PyStr} {bytes : List UInt8}
    (h : path.encode = some bytes) (hmem : lit c ∈ path) : b ∈ bytes := by
  obtain ⟨cs, rfl, rfl⟩ := PyStr.encode_eq_some.mp h
  obtain ⟨d, hd, heq⟩ := mem_map.mp hmem
  obtain rfl : d = c := CodePoint.char.inj heq
  exact mem_flatMap.mpr ⟨d, hd, by rw [hc]; exact mem_cons_self⟩

theorem manifestBytes_paths (h : manifestBytes entries = .ok raw) : ∀ item ∈ entries.items, ManifestPath item.1 := by
  obtain ⟨records, hitems, hall, -, -⟩ := manifestBytes_ok h
  intro item hitem
  rw [hitems] at hitem
  obtain ⟨record, hrecord, rfl⟩ := mem_map.mp hitem
  have hr := hall record hrecord
  refine ⟨(validateRelpath_ok hr.relpath).2, fun hmem => hr.unbroken.1 ?_, fun hmem => hr.unbroken.2 ?_⟩
  · exact mem_encode (by decide) hr.encoded hmem
  · exact mem_encode (by decide) hr.encoded hmem

end Manifest

/-- The writer and the reader are inverse on what they accept, equal mappings have equal bytes, and an accepted
path is a safe one. -/
theorem manifests_canonical :
    (∀ (entries : Mapping) (raw : List UInt8), manifestBytes entries = .ok raw →
      ∃ parsed, parseManifestBytes raw = .ok parsed ∧ parsed.Same entries) ∧
    (∀ (raw : List UInt8) (entries : Mapping), parseManifestBytes raw = .ok entries →
      manifestBytes entries = .ok raw) ∧
    (∀ (raw raw' : List UInt8) (entries entries' : Mapping), parseManifestBytes raw = .ok entries →
      parseManifestBytes raw' = .ok entries' → entries.Same entries' → raw = raw') ∧
    (∀ (entries : Mapping) (raw : List UInt8), manifestBytes entries = .ok raw ∨ parseManifestBytes raw = .ok entries →
      ∀ item ∈ entries.items, ManifestPath item.1) := by
  have hback : ∀ (raw : List UInt8) (entries : Mapping), parseManifestBytes raw = .ok entries →
      manifestBytes entries = .ok raw := fun raw entries h => (parseItems_ok (parseManifestBytes_ok.mp h)).2
  refine ⟨fun entries raw h => parse_of_manifestBytes h, hback, fun raw raw' entries entries' h h' hsame => ?_,
    fun entries raw h => ?_⟩
  · exact manifestBytes_congr (hback raw entries h) (hback raw' entries' h') hsame
  · exact manifestBytes_paths (h.elim id (hback raw entries))

def oneFile : Mapping :=
  ⟨[(PyStr.lit "a/é", List.replicate 64 (lit '0'))], nodup_singleton _⟩

theorem manifests_canonical_oneFile : ∃ parsed,
    parseManifestBytes (List.replicate 64 0x30 ++ [space, space, 0x61, 0x2f, 0xc3, 0xa9, newline]) = .ok parsed ∧
      parsed.Same oneFile :=
  manifests_canonical.1 oneFile _ (by decide +kernel)

end Bravo.Schema
