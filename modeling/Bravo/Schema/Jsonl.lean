import Bravo.Basic.PyJson
import Bravo.Schema.Manifest

/-! # JSON lines

`jsonl_bytes` and `strict_jsonl_loads` of `cp2_schema.py`. The writer ends every record with LF and writes all other
characters but the control characters as they are; the reader cuts its text where `str.splitlines` does, which is
also at U+0085, U+2028 and U+2029. So the two agree on the records without these characters and on no others.
The module `json` is given by its functions: `loads` with the hooks of the source, what `dumps` raises on, and the
text of a float.
-/

namespace Bravo.Schema

open PyJson List

inductive Raised
  | schemaError (e : SchemaError)
  | valueError (message : String)
  | recursionError
deriving DecidableEq, Repr

structure JsonModule (F : Type) where
  /-- `repr` of a float -/
  floatRepr : F → List Char
  /-- `math.isfinite` -/
  isFinite : F → Bool
  /-- `repr` of a string -/
  keyRepr : PyStr → String
  /-- `json.loads` with the hooks of `strict_json_loads` -/
  loads : PyStr → Except Raised (PyJson F)
  /-- What `json.dumps` raises on a value, if it does. -/
  refuses : PyJson F → Option Raised

def raise {α : Type} (message : String) : Except Raised α := .error (.schemaError ⟨message⟩)

section Functions

variable {F : Type} (json : JsonModule F)

mutual

def validateJsonTree (label : String) : PyJson F → Result Unit
  | .null => return ()
  | .bool _ => return ()
  | .int _ => return ()
  | .float x => if json.isFinite x then return () else fail (label ++ " contains a non-finite number")
  | .str s => do
    let _ ← utf8 s label false
    return ()
  | .arr items => validateItems label 0 items
  | .obj entries => validateEntries label entries

def validateItems (label : String) (index : Nat) : List (PyJson F) → Result Unit
  | [] => return ()
  | v :: vs => do
    validateJsonTree (label ++ "[" ++ toString index ++ "]") v
    validateItems label (index + 1) vs

def validateEntries (label : String) : List (PyStr × PyJson F) → Result Unit
  | [] => return ()
  | (k, v) :: kvs => do
    let _ ← utf8 k (label ++ " object key") false
    validateJsonTree (label ++ "[" ++ json.keyRepr k ++ "]") v
    validateEntries label kvs

end

def ofResult {α : Type} : Result α → Except Raised α
  | .ok a => .ok a
  | .error e => .error (.schemaError e)

/-- `strict_json_loads` of a string -/
def strictJsonLoads (document : PyStr) : Except Raised (PyJson F) := do
  let _ ← ofResult (utf8 document "JSON document" false)
  match json.loads document with
  | .error (.valueError message) => raise ("invalid JSON: " ++ message)
  | .error e => .error e
  | .ok value => do
    ofResult (validateJsonTree json "JSON value" value)
    return value

def lineFeed : CodePoint := lit (Char.ofNat 10)

def carriage : CodePoint := lit (Char.ofNat 13)

/-- Where `str.splitlines` ends a line. -/
def isLineBreak (p : CodePoint) : Bool :=
  decide (p.value ∈ [10, 11, 12, 13, 0x1c, 0x1d, 0x1e, 0x85, 0x2028, 0x2029])

/-- `str.splitlines` after the characters of a line, where CR LF is one break. -/
def splitlinesFrom (line : PyStr) (afterCarriage : Bool) : PyStr → List PyStr
  | [] => if line = [] then [] else [line]
  | p :: ps =>
    if afterCarriage ∧ p = lineFeed then splitlinesFrom [] false ps
    else if isLineBreak p then line :: splitlinesFrom [] (decide (p = carriage)) ps
    else splitlinesFrom (line ++ [p]) false ps

def splitlines (text : PyStr) : List PyStr := splitlinesFrom [] false text

/-- The loop of `strict_jsonl_loads` over the lines. -/
def readLines (physicalIndex : Nat) : List PyStr → Except Raised (List (PyJson F))
  | [] => return []
  | line :: lines =>
    if line = [] then raise ("JSONL document contains a blank line at " ++ toString physicalIndex)
    else do
      let value ← strictJsonLoads json line
      if !value.isMapping then raise ("JSONL line " ++ toString physicalIndex ++ " is not an object")
      else do
        let records ← readLines (physicalIndex + 1) lines
        return value :: records

/-- `strict_jsonl_loads` of bytes -/
def strictJsonlLoads (document : List UInt8) : Except Raised (List (PyJson F)) :=
  match PyStr.decode document with
  | none => raise "JSONL document is not UTF-8"
  | some text =>
    if carriage ∈ text then raise "JSONL document must use LF newlines only"
    else if text ≠ [] ∧ text.getLast? ≠ some lineFeed then raise "nonempty JSONL document must end with one LF"
    else readLines json 1 (splitlines text)

def jsonLineBytes (record : PyJson F) : Except Raised (List UInt8) :=
  if !record.isMapping then raise "JSONL record must be an object"
  else do
    ofResult (validateJsonTree json "JSONL record" record)
    match json.refuses record with
    | some (.valueError message) => raise ("cannot emit JSONL record: " ++ message)
    | some e => .error e
    | none =>
      match (dumps json.floatRepr record ++ [lineFeed]).encode with
      | none => raise "cannot emit JSONL record"
      | some bytes => return bytes

def jsonlBytes : List (PyJson F) → Except Raised (List UInt8)
  | [] => return []
  | record :: records => do
    let bytes ← jsonLineBytes json record
    let rest ← jsonlBytes records
    return bytes ++ rest

end Functions

/-! ## The check of a tree -/

section Tree

variable {F : Type} {json : JsonModule F}

/-- What the check of a tree asks of a string or a float. -/
def ValidLeaf (json : JsonModule F) : Leaf F → Prop
  | .chars s => ∃ bytes, s.encode = some bytes
  | .float x => json.isFinite x = true

theorem bind_ok {ε α β : Type} {x : Except ε α} {f : α → Except ε β} {b : β} :
    (x >>= f) = .ok b ↔ ∃ a, x = .ok a ∧ f a = .ok b := by
  cases x with
  | error e => exact ⟨nofun, nofun⟩
  | ok a => exact ⟨fun h => ⟨a, rfl, h⟩, fun ⟨_, ha, h⟩ => Except.ok.inj ha ▸ h⟩

theorem utf8_isOk {s : PyStr} (label : String) : (∃ bytes, utf8 s label false = .ok bytes) ↔
    ∃ bytes, s.encode = some bytes := by
  constructor
  · rintro ⟨bytes, h⟩
    exact ⟨bytes, (utf8_ok h).1⟩
  · rintro ⟨bytes, h⟩
    exact ⟨bytes, by rw [utf8, if_neg (by simp), h]⟩

mutual

theorem validateJsonTree_ok : ∀ (v : PyJson F) (label : String),
    validateJsonTree json label v = .ok () ↔ ∀ leaf ∈ leaves v, ValidLeaf json leaf
  | .null, _ | .bool _, _ | .int _, _ => ⟨fun _ _ => nofun, fun _ => rfl⟩
  | .float x, label => by
    rw [leaves, forall_mem_singleton, validateJsonTree]
    show _ ↔ json.isFinite x = true
    by_cases hx : json.isFinite x = true
    · rw [if_pos hx]
      exact ⟨fun _ => hx, fun _ => rfl⟩
    · rw [if_neg hx]
      exact ⟨nofun, fun h => absurd h hx⟩
  | .str s, label => by
    rw [leaves, forall_mem_singleton, validateJsonTree, bind_ok]
    refine Iff.trans ?_ (utf8_isOk label)
    constructor
    · rintro ⟨bytes, h, -⟩
      exact ⟨bytes, h⟩
    · rintro ⟨bytes, h⟩
      exact ⟨bytes, h, rfl⟩
  | .arr items, label => validateItems_ok items label 0
  | .obj entries, label => validateEntries_ok entries label

theorem validateItems_ok : ∀ (items : List (PyJson F)) (label : String) (index : Nat),
    validateItems json label index items = .ok () ↔ ∀ leaf ∈ itemsLeaves items, ValidLeaf json leaf
  | [], _, _ => ⟨fun _ _ => nofun, fun _ => rfl⟩
  | v :: vs, label, index => by
    rw [itemsLeaves, forall_mem_append, validateItems, bind_ok]
    constructor
    · rintro ⟨⟨⟩, hv, hvs⟩
      exact ⟨(validateJsonTree_ok v _).mp hv, (validateItems_ok vs _ _).mp hvs⟩
    · rintro ⟨hv, hvs⟩
      exact ⟨(), (validateJsonTree_ok v _).mpr hv, (validateItems_ok vs _ _).mpr hvs⟩

theorem validateEntries_ok : ∀ (entries : List (PyStr × PyJson F)) (label : String),
    validateEntries json label entries = .ok () ↔ ∀ leaf ∈ entriesLeaves entries, ValidLeaf json leaf
  | [], _ => ⟨fun _ _ => nofun, fun _ => rfl⟩
  | (k, v) :: kvs, label => by
    rw [entriesLeaves, forall_mem_cons, forall_mem_append, validateEntries, bind_ok]
    constructor
    · rintro ⟨bytes, hk, hrest⟩
      obtain ⟨⟨⟩, hv, hkvs⟩ := bind_ok.mp hrest
      exact ⟨(utf8_isOk _).mp ⟨bytes, hk⟩, (validateJsonTree_ok v _).mp hv, (validateEntries_ok kvs _).mp hkvs⟩
    · rintro ⟨hk, hv, hkvs⟩
      obtain ⟨bytes, hbytes⟩ := (utf8_isOk _).mpr hk
      exact ⟨bytes, hbytes, bind_ok.mpr ⟨(), (validateJsonTree_ok v _).mpr hv, (validateEntries_ok kvs _).mpr hkvs⟩⟩

end

end Tree

/-! ## Lines -/

theorem splitlinesFrom_unbroken {s : PyStr} (h : ∀ p ∈ s, isLineBreak p = false) (line rest : PyStr) :
    splitlinesFrom line false (s ++ lineFeed :: rest) = (line ++ s) :: splitlines rest := by
  induction s generalizing line with
  | nil => rw [append_nil]; rfl
  | cons p ps ih =>
    have hp := h p mem_cons_self
    rw [cons_append, splitlinesFrom, if_neg (by simp), hp, if_neg (by simp),
      ih (fun q hq => h q (mem_cons_of_mem _ hq)), append_assoc]
    rfl

theorem length_splitlinesFrom {s : PyStr} (h : carriage ∉ s) (line rest : PyStr) :
    (splitlinesFrom line false (s ++ lineFeed :: rest)).length =
      s.countP isLineBreak + 1 + (splitlines rest).length := by
  induction s generalizing line with
  | nil =>
    show (line :: splitlines rest).length = _
    rw [length_cons, countP_nil]
    omega
  | cons p ps ih =>
    have hps : carriage ∉ ps := fun hmem => h (mem_cons_of_mem _ hmem)
    have hp : decide (p = carriage) = false := decide_eq_false fun heq => h (heq ▸ mem_cons_self)
    rw [cons_append, splitlinesFrom, if_neg (by simp)]
    by_cases hbreak : isLineBreak p = true
    · rw [if_pos hbreak, hp, length_cons, ih hps, countP_cons_of_pos hbreak]
      omega
    · rw [if_neg hbreak, ih hps, countP_cons_of_neg hbreak]

/-! ## Writing and reading -/

section RoundTrip

variable {F : Type} {json : JsonModule F}

structure Accepted (json : JsonModule F) (record : PyJson F) : Prop where
  mapping : record.isMapping = true
  leaves : ∀ leaf ∈ leaves record, ValidLeaf json leaf
  encodable : ∃ bytes, (dumps json.floatRepr record).encode = some bytes

def lineText (json : JsonModule F) (record : PyJson F) : PyStr := dumps json.floatRepr record ++ [lineFeed]

variable {record : PyJson F}

theorem jsonLineBytes_ok {bytes : List UInt8} (h : jsonLineBytes json record = .ok bytes) :
    Accepted json record ∧ (lineText json record).encode = some bytes := by
  unfold jsonLineBytes at h
  split_ifs at h with hmapping
  · exact absurd h nofun
  · obtain ⟨⟨⟩, htree, hrest⟩ := bind_ok.mp h
    have hvalid : validateJsonTree json "JSONL record" record = .ok () := by
      cases hv : validateJsonTree json "JSONL record" record with
      | error e => rw [hv] at htree; exact absurd htree nofun
      | ok u => rfl
    split at hrest
    · exact absurd hrest nofun
    · exact absurd hrest nofun
    · split at hrest
      · exact absurd hrest nofun
      · rename_i bytes' hbytes
        obtain rfl := Except.ok.inj hrest
        exact ⟨⟨by simpa using hmapping, (validateJsonTree_ok _ _).mp hvalid, PyStr.encode_left hbytes⟩, hbytes⟩

theorem count_newline {bytes : List UInt8} (hfloat : ∀ x, Spelled (json.floatRepr x))
    (h : (lineText json record).encode = some bytes) : bytes.count newline = 1 := by
  obtain ⟨b, hb⟩ := PyStr.encode_left h
  have hline : PyStr.encode [lineFeed] = some [newline] := by decide
  obtain rfl := Option.some.inj (h.symm.trans (PyStr.encode_append hb hline))
  have hnone : newline ∉ b := by
    intro hmem
    have hchar := PyStr.mem_of_mem_encode hb hmem (by decide)
    have hprint := printable_dumps hfloat record _ hchar
    exact absurd hprint (by decide)
  rw [count_append, count_eq_zero.mpr hnone]
  rfl

theorem jsonlBytes_ok (hfloat : ∀ x, Spelled (json.floatRepr x)) : ∀ {records : List (PyJson F)} {raw : List UInt8},
    jsonlBytes json records = .ok raw → (∀ record ∈ records, Accepted json record) ∧
      PyStr.encode (records.flatMap (lineText json)) = some raw ∧ raw.count newline = records.length
  | [], raw, h => by
    obtain rfl := Except.ok.inj h
    exact ⟨nofun, rfl, rfl⟩
  | record :: records, raw, h => by
    obtain ⟨bytes, hbytes, hrest⟩ := bind_ok.mp h
    obtain ⟨rest, hrecords, hraw⟩ := bind_ok.mp hrest
    obtain rfl := Except.ok.inj hraw
    obtain ⟨haccepted, hencode⟩ := jsonLineBytes_ok hbytes
    obtain ⟨hall, htext, hcount⟩ := jsonlBytes_ok hfloat hrecords
    refine ⟨forall_mem_cons.mpr ⟨haccepted, hall⟩, PyStr.encode_append hencode htext, ?_⟩
    rw [count_append, count_newline hfloat hencode, hcount, length_cons, Nat.add_comm]

/-- A record without the characters that `str.splitlines` breaks at and `json.dumps` leaves as they are. -/
def Unbroken (record : PyJson F) : Prop := ∀ p ∈ points record, p.value ≠ 0x85 ∧ p.value ≠ 0x2028 ∧ p.value ≠ 0x2029

theorem unbroken_iff (hfloat : ∀ x, Spelled (json.floatRepr x)) :
    Unbroken record ↔ ∀ p ∈ dumps json.floatRepr record, isLineBreak p = false := by
  constructor
  · intro h p hp
    have hprint := printable_dumps hfloat record p hp
    refine decide_eq_false fun hmem => ?_
    have hvalue : p.value = 0x85 ∨ p.value = 0x2028 ∨ p.value = 0x2029 := by
      simp only [mem_cons, not_mem_nil, or_false] at hmem
      omega
    have hpoint := (mem_dumps hfloat (by omega)).mp hp
    obtain ⟨h1, h2, h3⟩ := h p hpoint
    exact hvalue.elim h1 fun hv => hv.elim h2 h3
  · intro h p hp
    refine ⟨fun hv => ?_, fun hv => ?_, fun hv => ?_⟩
    all_goals
      have hbreak := h p ((mem_dumps hfloat (by omega)).mpr hp)
      rw [isLineBreak, hv] at hbreak
      exact absurd hbreak (by decide)

theorem notMem_carriage (hfloat : ∀ x, Spelled (json.floatRepr x)) (record : PyJson F) :
    carriage ∉ dumps json.floatRepr record := fun hmem =>
  absurd (printable_dumps hfloat record _ hmem) (by decide)

theorem lineText_append (record : PyJson F) (rest : PyStr) :
    lineText json record ++ rest = dumps json.floatRepr record ++ lineFeed :: rest := by
  rw [lineText, append_assoc]
  rfl

theorem splitlines_unbroken {records : List (PyJson F)}
    (h : ∀ record ∈ records, ∀ p ∈ dumps json.floatRepr record, isLineBreak p = false) :
    splitlines (records.flatMap (lineText json)) = records.map (dumps json.floatRepr) := by
  induction records with
  | nil => rfl
  | cons record records ih =>
    rw [flatMap_cons, lineText_append, splitlines, splitlinesFrom_unbroken (h record mem_cons_self),
      ih fun r hr => h r (mem_cons_of_mem _ hr)]
    rfl

theorem unbroken_of_length (hfloat : ∀ x, Spelled (json.floatRepr x)) (records : List (PyJson F)) :
    records.length ≤ (splitlines (records.flatMap (lineText json))).length ∧
      ((splitlines (records.flatMap (lineText json))).length = records.length →
        ∀ record ∈ records, ∀ p ∈ dumps json.floatRepr record, isLineBreak p = false) := by
  induction records with
  | nil => exact ⟨Nat.zero_le _, fun _ => nofun⟩
  | cons record records ih =>
    obtain ⟨hle, heq⟩ := ih
    have hlength := length_splitlinesFrom (notMem_carriage hfloat record) [] (records.flatMap (lineText json))
    rw [flatMap_cons, lineText_append, splitlines, hlength, length_cons]
    refine ⟨by omega, fun h => forall_mem_cons.mpr ⟨fun p hp => ?_, heq (by omega)⟩⟩
    have hzero : (dumps json.floatRepr record).countP isLineBreak = 0 := by omega
    simpa using countP_eq_zero.mp hzero p hp

theorem length_readLines : ∀ {lines : List PyStr} {index : Nat} {records : List (PyJson F)},
    readLines json index lines = .ok records → records.length = lines.length
  | [], _, _, h => by
    obtain rfl := Except.ok.inj h
    rfl
  | line :: lines, index, records, h => by
    unfold readLines at h
    split_ifs at h
    · exact absurd h nofun
    · obtain ⟨value, -, hrest⟩ := bind_ok.mp h
      split_ifs at hrest
      · exact absurd hrest nofun
      · obtain ⟨rest, hlines, hrecords⟩ := bind_ok.mp hrest
        obtain rfl := Except.ok.inj hrecords
        rw [length_cons, length_cons, length_readLines hlines]

theorem isMapping_sortKeys (v : PyJson F) : (sortKeys v).isMapping = v.isMapping := by
  cases v <;> rfl

theorem isMapping_of_same {v w : PyJson F} (h : Same v w) : v.isMapping = w.isMapping := by
  rw [← isMapping_sortKeys v, h, isMapping_sortKeys]

theorem dumps_ne_nil (h : record.isMapping = true) : dumps json.floatRepr record ≠ [] := by
  cases record with
  | obj entries => exact cons_ne_nil _ _
  | _ => exact absurd h nofun

/-- `json.loads` gives back the value of a text. -/
def Inverse (json : JsonModule F) (record : PyJson F) : Prop :=
  ∃ value, json.loads (dumps json.floatRepr record) = .ok value ∧ Same value record

theorem strictJsonLoads_dumps (haccepted : Accepted json record) {value : PyJson F}
    (hloads : json.loads (dumps json.floatRepr record) = .ok value) (hsame : Same value record) :
    strictJsonLoads json (dumps json.floatRepr record) = .ok value := by
  obtain ⟨bytes, hbytes⟩ := (utf8_isOk _).mpr haccepted.encodable
  have hvalid : validateJsonTree json "JSON value" value = .ok () :=
    (validateJsonTree_ok value _).mpr fun leaf hleaf => haccepted.leaves leaf ((leaves_of_same hsame).mem_iff.mp hleaf)
  unfold strictJsonLoads
  rw [hbytes, hloads]
  simp only [ofResult, bind, Except.bind, hvalid]
  rfl

theorem readLines_dumps : ∀ {records : List (PyJson F)} (index : Nat), (∀ record ∈ records, Accepted json record) →
    (∀ record ∈ records, Inverse json record) →
      ∃ out, readLines json index (records.map (dumps json.floatRepr)) = .ok out ∧ List.Forall₂ Same out records
  | [], _, _, _ => ⟨[], rfl, .nil⟩
  | record :: records, index, haccepted, hinverse => by
    obtain ⟨hfirst, hrest⟩ := forall_mem_cons.mp haccepted
    obtain ⟨⟨value, hloads, hsame⟩, hinverses⟩ := forall_mem_cons.mp hinverse
    obtain ⟨out, hout, hall⟩ := readLines_dumps (index + 1) hrest hinverses
    have hmapping : value.isMapping = true := (isMapping_of_same hsame).trans hfirst.mapping
    refine ⟨value :: out, ?_, hall.cons hsame⟩
    rw [map_cons, readLines, if_neg (dumps_ne_nil hfirst.mapping), strictJsonLoads_dumps hfirst hloads hsame]
    simp only [bind, Except.bind, hmapping, Bool.not_true, Bool.false_eq_true, if_false, hout]
    rfl

/-- The property of `jsonl_bytes` and `strict_jsonl_loads`: the reader returns the records, one for each LF. -/
def RoundTrip (json : JsonModule F) (records : List (PyJson F)) (raw : List UInt8) : Prop :=
  ∃ out, strictJsonlLoads json raw = .ok out ∧ List.Forall₂ Same out records ∧ out.length = raw.count newline

/-- The reader returns the records that were written, one for each LF, exactly when none of their strings and keys
has U+0085, U+2028 or U+2029. -/
theorem jsonl_round_trip (hfloat : ∀ x, Spelled (json.floatRepr x)) (records : List (PyJson F)) (raw : List UInt8)
    (hraw : jsonlBytes json records = .ok raw) (hinverse : ∀ record ∈ records, Inverse json record) :
    RoundTrip json records raw ↔ ∀ record ∈ records, Unbroken record := by
  obtain ⟨haccepted, hencode, hcount⟩ := jsonlBytes_ok hfloat hraw
  have hcarriage : carriage ∉ records.flatMap (lineText json) := by
    intro hmem
    obtain ⟨record, -, hin⟩ := mem_flatMap.mp hmem
    rcases mem_append.mp hin with hin | hin
    · exact notMem_carriage hfloat record hin
    · exact absurd hin (by decide)
  have hend : ¬ (records.flatMap (lineText json) ≠ [] ∧
      (records.flatMap (lineText json)).getLast? ≠ some lineFeed) := by
    rintro ⟨hne, hlast⟩
    rcases eq_nil_or_concat' records with rfl | ⟨init, last, rfl⟩
    · exact hne rfl
    · refine hlast ?_
      rw [flatMap_append, flatMap_singleton, lineText, ← append_assoc, getLast?_concat]
  have hread : strictJsonlLoads json raw = readLines json 1 (splitlines (records.flatMap (lineText json))) := by
    simp only [strictJsonlLoads, PyStr.decode_eq_some.mpr hencode, if_neg hcarriage, if_neg hend]
  rw [RoundTrip, hread]
  constructor
  · rintro ⟨out, hout, hall, -⟩ record hrecord
    have hlength := (length_readLines hout).symm.trans hall.length_eq
    exact (unbroken_iff hfloat).mpr ((unbroken_of_length hfloat records).2 hlength record hrecord)
  · intro hunbroken
    have hlines := splitlines_unbroken fun record hrecord => (unbroken_iff hfloat).mp (hunbroken record hrecord)
    obtain ⟨out, hout, hall⟩ := readLines_dumps 1 haccepted hinverse
    refine ⟨out, by rw [hlines]; exact hout, hall, ?_⟩
    rw [hcount, hall.length_eq]

/-- A module `json` that reads the text of one record. -/
def jsonOf (record : PyJson Unit) : JsonModule Unit where
  floatRepr _ := ['1', '.', '0']
  isFinite _ := true
  keyRepr _ := "'a'"
  loads text := if text = dumps (fun _ => ['1', '.', '0']) record then .ok record
    else .error (.valueError "Unterminated string")
  refuses _ := none

def oneCharacter (c : Char) : PyJson Unit := .obj [(PyStr.lit "a", .str [.char c])]

theorem inverse_jsonOf (record : PyJson Unit) : Inverse (jsonOf record) record := ⟨record, if_pos rfl, rfl⟩

theorem jsonl_round_trip_accent :
    RoundTrip (jsonOf (oneCharacter 'é')) [oneCharacter 'é']
      [0x7b, 0x22, 0x61, 0x22, 0x3a, 0x22, 0xc3, 0xa9, 0x22, 0x7d, newline] :=
  (jsonl_round_trip (fun _ => show Spelled ['1', '.', '0'] from spelled_of_all (by decide)) [oneCharacter 'é'] _ rfl
    (forall_mem_singleton.mpr (inverse_jsonOf _))).mpr
      (forall_mem_singleton.mpr (by
        intro p hp
        have hmem : p ∈ [CodePoint.char 'a', CodePoint.char 'é'] := hp
        rcases mem_pair.mp hmem with rfl | rfl <;> decide))

/-- The writer accepts LINE SEPARATOR in a string, and the reader cuts its line there. -/
theorem jsonl_line_separator :
    jsonlBytes (jsonOf (oneCharacter (Char.ofNat 0x2028))) [oneCharacter (Char.ofNat 0x2028)] =
        .ok [0x7b, 0x22, 0x61, 0x22, 0x3a, 0x22, 0xe2, 0x80, 0xa8, 0x22, 0x7d, newline] ∧
      ¬ RoundTrip (jsonOf (oneCharacter (Char.ofNat 0x2028))) [oneCharacter (Char.ofNat 0x2028)]
        [0x7b, 0x22, 0x61, 0x22, 0x3a, 0x22, 0xe2, 0x80, 0xa8, 0x22, 0x7d, newline] := by
  refine ⟨rfl, ?_⟩
  rintro ⟨out, hout, -⟩
  have herror : strictJsonlLoads (jsonOf (oneCharacter (Char.ofNat 0x2028)))
      [0x7b, 0x22, 0x61, 0x22, 0x3a, 0x22, 0xe2, 0x80, 0xa8, 0x22, 0x7d, newline] =
        .error (.schemaError ⟨"invalid JSON: Unterminated string"⟩) := rfl
  exact absurd (herror.symm.trans hout) nofun

end RoundTrip

end Bravo.Schema
