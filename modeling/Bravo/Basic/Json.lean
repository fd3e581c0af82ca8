import Mathlib.Tactic

/-! # Canonical JSON

The JSON values without floats, their canonical text (no blanks, keys in order, only the characters
escaped that must be) and the reader that takes canonical text and nothing else. A mapping is kept as
its entries in the order of their keys. Two facts are what a user of the format relies on: the reader
returns the value that was written (`strictJson_canonicalBytes`), and the text is one line
(`canonicalBytes_no_break`).
-/

namespace Bravo

open List

inductive Json
  | null
  | bool (b : Bool)
  | int (n : Int)
  | str (s : String)
  | arr (items : List Json)
  | obj (entries : List (String × Json))

namespace Json

/-- `value[key]` -/
def field (key : String) : Json → Option Json
  | .obj entries => (entries.find? fun entry => entry.1 = key).map (·.2)
  | _ => none

/-- `set(value)` of a mapping. -/
def keys : Json → Option (List String)
  | .obj entries => some (entries.map (·.1))
  | _ => none

/-- `value is None` -/
def isNull : Option Json → Bool
  | some .null => true
  | _ => false

/-- `value == s` -/
def isStr (s : String) : Option Json → Bool
  | some (.str t) => t = s
  | _ => false

/-- `value == n`, where `True` is 1. -/
def isNat (n : Nat) : Option Json → Bool
  | some (.int m) => m = n
  | some (.bool b) => b.toNat = n
  | _ => false

/-! ## Writing -/

def quote : Char := Char.ofNat 0x22

def backslash : Char := Char.ofNat 0x5c

/-- The characters with an escape of their own, and its letter. -/
def shortEscapes : List (Char × Char) :=
  [(quote, quote), (backslash, backslash), (Char.ofNat 8, 'b'), (Char.ofNat 9, 't'), (Char.ofNat 10, 'n'),
    (Char.ofNat 12, 'f'), (Char.ofNat 13, 'r')]

def escape (c : Char) : List Char :=
  match shortEscapes.find? fun entry => entry.1 = c with
  | some entry => [backslash, entry.2]
  | none =>
    if c.toNat < 32 then
      [backslash, 'u', '0', '0', Nat.digitChar (c.toNat / 16), Nat.digitChar (c.toNat % 16)]
    else [c]

def quoted (s : String) : List Char := quote :: (s.toList.flatMap escape ++ [quote])

def intText : Int → List Char
  | .ofNat n => Nat.toDigits 10 n
  | .negSucc n => '-' :: Nat.toDigits 10 (n + 1)

def boolText : Bool → List Char
  | true => ['t', 'r', 'u', 'e']
  | false => ['f', 'a', 'l', 's', 'e']

mutual

/-- `json.dumps` with the narrow separators and without `ensure_ascii`. -/
def text : Json → List Char
  | .null => ['n', 'u', 'l', 'l']
  | .bool b => boolText b
  | .int n => intText n
  | .str s => quoted s
  | .arr items => '[' :: ((itemsText items).drop 1 ++ [']'])
  | .obj entries => '{' :: ((entriesText entries).drop 1 ++ ['}'])

def itemsText : List Json → List Char
  | [] => []
  | v :: vs => ',' :: (text v ++ itemsText vs)

def entriesText : List (String × Json) → List Char
  | [] => []
  | (k, v) :: kvs => ',' :: (quoted k ++ ':' :: (text v ++ entriesText kvs))

end

mutual

def canonical : Json → Bool
  | .arr items => canonicalItems items
  | .obj entries => decide ((entries.map (·.1)).Pairwise (· < ·)) && canonicalEntries entries
  | _ => true

def canonicalItems : List Json → Bool
  | [] => true
  | v :: vs => canonical v && canonicalItems vs

def canonicalEntries : List (String × Json) → Bool
  | [] => true
  | (_, v) :: kvs => canonical v && canonicalEntries kvs

end

/-- `str.encode("utf-8")` -/
def utf8 (cs : List Char) : List UInt8 := cs.flatMap String.utf8EncodeChar

def canonicalBytes (v : Json) : List UInt8 := utf8 v.text

/-! ## Reading -/

def hexValue (c : Char) : Option Nat := (List.range 16).find? fun n => Nat.digitChar n = c

def unescape : List Char → Option (Char × List Char)
  | [] => none
  | e :: rest =>
    match shortEscapes.find? fun entry => entry.2 = e with
    | some entry => some (entry.1, rest)
    | none =>
      match rest with
      | _ :: _ :: high :: low :: rest => do
        let high ← hexValue high
        let low ← hexValue low
        return (Char.ofNat (16 * high + low), rest)
      | _ => none

def parseChar : List Char → Option (Char × List Char)
  | [] => none
  | c :: rest => if c = backslash then unescape rest else some (c, rest)

def parseChars : Nat → List Char → Option (List Char × List Char)
  | 0, _ => none
  | fuel + 1, cs =>
    if cs.head? = some quote then some ([], cs.tail)
    else do
      let (c, rest) ← parseChar cs
      let (tail, rest) ← parseChars fuel rest
      return (c :: tail, rest)

def parseString : List Char → Option (String × List Char)
  | [] => none
  | c :: rest =>
    if c = quote then (parseChars (rest.length + 1) rest).map fun p => (String.ofList p.1, p.2)
    else none

def parseNat (cs : List Char) : Option (Nat × List Char) :=
  if cs.takeWhile Char.isDigit = [] then none
  else some (Nat.ofDigitChars 10 (cs.takeWhile Char.isDigit) 0, cs.dropWhile Char.isDigit)

def parseInt : List Char → Option (Int × List Char)
  | [] => none
  | c :: rest =>
    if c = '-' then (parseNat rest).map fun p => (-(p.1 : Int), p.2)
    else (parseNat (c :: rest)).map fun p => ((p.1 : Int), p.2)

def parseWord (word : List Char) (v : Json) (cs : List Char) : Option (Json × List Char) :=
  if word.isPrefixOf cs then some (v, cs.drop word.length) else none

def parseAtom (cs : List Char) : Option (Json × List Char) :=
  match cs.head? with
  | none => none
  | some c =>
    if c = quote then (parseString cs).map fun p => (.str p.1, p.2)
    else if c = 'n' then parseWord ['n', 'u', 'l', 'l'] .null cs
    else if c = 't' then parseWord (boolText true) (.bool true) cs
    else if c = 'f' then parseWord (boolText false) (.bool false) cs
    else (parseInt cs).map fun p => (.int p.1, p.2)

mutual

def parseValue : Nat → List Char → Option (Json × List Char)
  | 0, _ => none
  | _ + 1, [] => none
  | fuel + 1, c :: rest =>
    if c = '[' then
      if rest.head? = some ']' then some (.arr [], rest.tail)
      else (parseItems fuel (',' :: rest)).map fun p => (.arr p.1, p.2)
    else if c = '{' then
      if rest.head? = some '}' then some (.obj [], rest.tail)
      else (parseEntries fuel (',' :: rest)).map fun p => (.obj p.1, p.2)
    else parseAtom (c :: rest)

def parseItems : Nat → List Char → Option (List Json × List Char)
  | 0, _ => none
  | _ + 1, [] => none
  | fuel + 1, c :: rest =>
    if c = ']' then some ([], rest)
    else if c = ',' then do
      let (v, rest) ← parseValue fuel rest
      let (vs, rest) ← parseItems fuel rest
      return (v :: vs, rest)
    else none

def parseEntries : Nat → List Char → Option (List (String × Json) × List Char)
  | 0, _ => none
  | _ + 1, [] => none
  | fuel + 1, c :: rest =>
    if c = '}' then some ([], rest)
    else if c = ',' then do
      let (k, rest) ← parseString rest
      if rest.head? = some ':' then do
        let (v, rest) ← parseValue fuel rest.tail
        let (kvs, rest) ← parseEntries fuel rest
        return ((k, v) :: kvs, rest)
      else none
    else none

end

def decodeUtf8 (bytes : List UInt8) : Option (List Char) := bytes.toByteArray.utf8Decode?.map Array.toList

/-- The strict reader: what it returns is compared with its own canonical text, so the parser takes
canonical text only. -/
def strictJson (bytes : List UInt8) : Option Json := do
  let cs ← decodeUtf8 bytes
  let (v, rest) ← parseValue (2 * cs.length) cs
  if rest = [] ∧ v.canonical ∧ v.text = cs then some v else none

/-! ## Characters and strings -/

theorem unescape_hex {c : Char} (hc : c.toNat < 32) (rest : List Char) :
    unescape ('u' :: '0' :: '0' :: Nat.digitChar (c.toNat / 16) :: Nat.digitChar (c.toNat % 16) :: rest) =
      some (c, rest) := by
  have hfound : ∀ n < 16, hexValue (Nat.digitChar n) = some n := by decide
  have hnone : shortEscapes.find? (fun entry => entry.2 = 'u') = none := by decide
  have hvalue : Char.ofNat (16 * (c.toNat / 16) + c.toNat % 16) = c := by
    rw [Nat.div_add_mod, Char.ofNat_toNat]
  simp only [unescape, hnone, hfound _ (show c.toNat / 16 < 16 by omega),
    hfound _ (show c.toNat % 16 < 16 by omega)]
  simp [hvalue]

theorem unescape_short {entry : Char × Char} (h : entry ∈ shortEscapes) (rest : List Char) :
    unescape (entry.2 :: rest) = some (entry.1, rest) := by
  have hall : ∀ entry ∈ shortEscapes, shortEscapes.find? (fun other => other.2 = entry.2) = some entry := by
    decide
  simp only [unescape, hall entry h]

theorem parseChar_escape (c : Char) (rest : List Char) : parseChar (escape c ++ rest) = some (c, rest) := by
  unfold escape
  cases hfind : shortEscapes.find? fun entry => entry.1 = c with
  | some entry =>
    have hc : entry.1 = c := by simpa using find?_some hfind
    simpa [parseChar, hc] using unescape_short (mem_of_find?_eq_some hfind) rest
  | none =>
    by_cases hcontrol : c.toNat < 32
    · simpa [parseChar, hcontrol] using unescape_hex hcontrol rest
    · have hne : c ≠ backslash := by
        rintro rfl
        exact absurd hfind (by decide)
      simp [parseChar, hcontrol, hne]

theorem head_escape (c : Char) : (escape c).head? ≠ some quote := by
  unfold escape
  cases hfind : shortEscapes.find? fun entry => entry.1 = c with
  | some entry => simp [backslash, quote]
  | none =>
    have hne : c ≠ quote := by
      rintro rfl
      exact absurd hfind (by decide)
    by_cases hcontrol : c.toNat < 32
    · simp [hcontrol, backslash, quote]
    · simpa [hcontrol] using hne

theorem escape_ne_nil (c : Char) : escape c ≠ [] := by
  unfold escape
  split
  · simp
  · split <;> simp

theorem parseChars_escape (cs rest : List Char) :
    ∀ fuel, cs.length < fuel → parseChars fuel (cs.flatMap escape ++ quote :: rest) = some (cs, rest) := by
  induction cs with
  | nil =>
    intro fuel hfuel
    obtain ⟨fuel, rfl⟩ := Nat.exists_eq_add_of_lt hfuel
    simp [parseChars]
  | cons c cs ih =>
    intro fuel hfuel
    obtain ⟨fuel, rfl⟩ : ∃ n, fuel = n + 1 := ⟨fuel - 1, by omega⟩
    have hhead : (escape c ++ (cs.flatMap escape ++ quote :: rest)).head? ≠ some quote := by
      rw [head?_append_of_ne_nil _ (escape_ne_nil c)]
      exact head_escape c
    rw [flatMap_cons, append_assoc, parseChars, if_neg hhead, parseChar_escape]
    simp [ih fuel (by simpa using hfuel)]

theorem length_le_flatMap_escape (cs : List Char) : cs.length ≤ (cs.flatMap escape).length := by
  induction cs with
  | nil => simp
  | cons c cs ih =>
    have hpos := length_pos_iff.mpr (escape_ne_nil c)
    simp only [flatMap_cons, length_append, length_cons]
    omega

theorem parseString_quoted (s : String) (rest : List Char) :
    parseString (quoted s ++ rest) = some (s, rest) := by
  have hfuel : s.toList.length < (s.toList.flatMap escape ++ quote :: rest).length + 1 := by
    have := length_le_flatMap_escape s.toList
    simp only [length_append, length_cons]
    omega
  have h := parseChars_escape s.toList rest _ hfuel
  simp only [quoted, cons_append, append_assoc, nil_append, parseString, if_true, h]
  simp

/-! ## Numbers -/

def Ends (rest : List Char) : Prop := ∀ c, rest.head? = some c → c.isDigit = false

variable {rest : List Char}

theorem parseNat_toDigits (n : Nat) (hrest : Ends rest) :
    parseNat (Nat.toDigits 10 n ++ rest) = some (n, rest) := by
  have hdigits : ∀ c ∈ Nat.toDigits 10 n, c.isDigit = true := fun c hc =>
    Nat.isDigit_of_mem_toDigits (by decide) (by decide) hc
  have htake : (Nat.toDigits 10 n ++ rest).takeWhile Char.isDigit = Nat.toDigits 10 n := by
    rw [takeWhile_append_of_pos hdigits]
    cases rest with
    | nil => simp
    | cons c rest => simp [hrest c rfl]
  have hdrop : (Nat.toDigits 10 n ++ rest).dropWhile Char.isDigit = rest := by
    rw [dropWhile_append_of_pos hdigits]
    cases rest with
    | nil => rfl
    | cons c rest => simp [hrest c rfl]
  rw [parseNat, htake, hdrop, if_neg Nat.toDigits_ne_nil, Nat.ofDigitChars_ten_toDigits]

theorem head_toDigits (n : Nat) : ∃ c cs, Nat.toDigits 10 n = c :: cs ∧ c.isDigit = true := by
  obtain ⟨c, cs, h⟩ := exists_cons_of_ne_nil (Nat.toDigits_ne_nil (n := n) (b := 10))
  exact ⟨c, cs, h, Nat.isDigit_of_mem_toDigits (by decide) (by decide) (h ▸ mem_cons_self)⟩

theorem parseInt_intText (n : Int) (hrest : Ends rest) :
    parseInt (intText n ++ rest) = some (n, rest) := by
  cases n with
  | ofNat n =>
    obtain ⟨c, cs, h, hdigit⟩ := head_toDigits n
    have hne : c ≠ '-' := by
      rintro rfl
      exact absurd hdigit (by decide)
    have hparse := parseNat_toDigits n hrest
    rw [h, cons_append] at hparse
    simp [intText, h, parseInt, hne, hparse]
  | negSucc n =>
    simp only [intText, cons_append, parseInt, if_true, parseNat_toDigits (n + 1) hrest]
    rfl

/-! ## The round trip -/

mutual

def weight : Json → Nat
  | .arr items => 1 + itemsWeight items
  | .obj entries => 1 + entriesWeight entries
  | _ => 1

def itemsWeight : List Json → Nat
  | [] => 1
  | v :: vs => 1 + weight v + itemsWeight vs

def entriesWeight : List (String × Json) → Nat
  | [] => 1
  | (_, v) :: kvs => 1 + weight v + entriesWeight kvs

end

theorem head_text (v : Json) : ∃ c cs, v.text = c :: cs ∧ c ≠ ']' ∧ c ≠ '}' := by
  cases v with
  | null => exact ⟨_, _, rfl, by decide, by decide⟩
  | bool b => cases b <;> exact ⟨_, _, rfl, by decide, by decide⟩
  | int n =>
    cases n with
    | ofNat n =>
      obtain ⟨c, cs, h, hdigit⟩ := head_toDigits n
      refine ⟨c, cs, h, ?_, ?_⟩ <;> (rintro rfl; exact absurd hdigit (by decide))
    | negSucc n => exact ⟨_, _, rfl, by decide, by decide⟩
  | str s => exact ⟨_, _, rfl, by decide, by decide⟩
  | arr items => exact ⟨_, _, rfl, by decide, by decide⟩
  | obj entries => exact ⟨_, _, rfl, by decide, by decide⟩

theorem parseAtom_intText (n : Int) (hrest : Ends rest) :
    parseAtom (intText n ++ rest) = some (.int n, rest) := by
  have hparse := parseInt_intText n hrest
  have hhead : ∃ c cs, intText n = c :: cs ∧ c ≠ quote ∧ c ≠ 'n' ∧ c ≠ 't' ∧ c ≠ 'f' := by
    cases n with
    | ofNat n =>
      obtain ⟨c, cs, h, hdigit⟩ := head_toDigits n
      refine ⟨c, cs, h, ?_, ?_, ?_, ?_⟩ <;> (rintro rfl; exact absurd hdigit (by decide))
    | negSucc n => exact ⟨_, _, rfl, by decide, by decide, by decide, by decide⟩
  obtain ⟨c, cs, h, hquote, hn, ht, hf⟩ := hhead
  rw [h, cons_append] at hparse ⊢
  simp [parseAtom, hquote, hn, ht, hf, hparse]

theorem parseValue_intText (n : Int) (hrest : Ends rest) (fuel : Nat) :
    parseValue (fuel + 1) (intText n ++ rest) = some (.int n, rest) := by
  have hparse := parseAtom_intText n hrest
  have hhead : ∃ c cs, intText n = c :: cs ∧ c ≠ '[' ∧ c ≠ '{' := by
    cases n with
    | ofNat n =>
      obtain ⟨c, cs, h, hdigit⟩ := head_toDigits n
      refine ⟨c, cs, h, ?_, ?_⟩ <;> (rintro rfl; exact absurd hdigit (by decide))
    | negSucc n => exact ⟨_, _, rfl, by decide, by decide⟩
  obtain ⟨c, cs, h, harr, hobj⟩ := hhead
  rw [h, cons_append] at hparse ⊢
  simp [parseValue, harr, hobj, hparse]

theorem parseValue_quoted (s : String) (rest : List Char) (fuel : Nat) :
    parseValue (fuel + 1) (quoted s ++ rest) = some (.str s, rest) := by
  have hparse := parseString_quoted s rest
  have harr : quote ≠ '[' := by decide
  have hobj : quote ≠ '{' := by decide
  simp only [quoted, cons_append, append_assoc, nil_append] at hparse ⊢
  simp [parseValue, parseAtom, harr, hobj, hparse]

theorem ends_itemsText (vs : List Json) (rest : List Char) : Ends (itemsText vs ++ ']' :: rest) := by
  intro c hc
  cases vs with
  | nil =>
    obtain rfl : ']' = c := by simpa [itemsText] using hc
    rfl
  | cons v vs =>
    obtain rfl : ',' = c := by simpa [itemsText] using hc
    rfl

theorem ends_entriesText (kvs : List (String × Json)) (rest : List Char) :
    Ends (entriesText kvs ++ '}' :: rest) := by
  intro c hc
  cases kvs with
  | nil =>
    obtain rfl : '}' = c := by simpa [entriesText] using hc
    rfl
  | cons kv kvs =>
    obtain rfl : ',' = c := by simpa [entriesText] using hc
    rfl

mutual

theorem parseValue_text (v : Json) : ∀ (rest : List Char) (fuel : Nat), Ends rest → v.weight ≤ fuel →
    parseValue fuel (v.text ++ rest) = some (v, rest) := by
  intro rest fuel hrest hfuel
  obtain ⟨fuel, rfl⟩ : ∃ n, fuel = n + 1 := by
    refine ⟨fuel - 1, ?_⟩
    cases v <;> simp only [weight] at hfuel <;> omega
  match v with
  | .null => simp [text, parseValue, parseAtom, parseWord, quote]
  | .bool true => simp [text, boolText, parseValue, parseAtom, parseWord, quote]
  | .bool false => simp [text, boolText, parseValue, parseAtom, parseWord, quote]
  | .int n => exact parseValue_intText n hrest fuel
  | .str s => exact parseValue_quoted s rest fuel
  | .arr [] => simp [text, itemsText, parseValue]
  | .arr (w :: ws) =>
    have hitems := parseItems_text (w :: ws) rest fuel (by simp only [weight] at hfuel; omega)
    obtain ⟨c, cs, hc, hbracket, -⟩ := head_text w
    have htext : (Json.arr (w :: ws)).text ++ rest =
        '[' :: (w.text ++ (itemsText ws ++ ']' :: rest)) := by
      simp [text, itemsText]
    have hhead : (w.text ++ (itemsText ws ++ ']' :: rest)).head? ≠ some ']' := by
      simpa [hc] using hbracket
    simp only [itemsText, cons_append, append_assoc] at hitems
    rw [htext, parseValue, if_pos rfl, if_neg hhead, hitems]
    rfl
  | .obj [] => simp [text, entriesText, parseValue]
  | .obj ((k, w) :: kws) =>
    have hentries := parseEntries_text ((k, w) :: kws) rest fuel
      (by simp only [weight] at hfuel; omega)
    have htext : (Json.obj ((k, w) :: kws)).text ++ rest =
        '{' :: (quoted k ++ ':' :: (w.text ++ (entriesText kws ++ '}' :: rest))) := by
      simp [text, entriesText]
    have hhead : (quoted k ++ ':' :: (w.text ++ (entriesText kws ++ '}' :: rest))).head? ≠ some '}' := by
      simp [quoted, quote]
    simp only [entriesText, cons_append, append_assoc] at hentries
    rw [htext, parseValue, if_neg (by decide), if_pos rfl, if_neg hhead, hentries]
    rfl

theorem parseItems_text (vs : List Json) : ∀ (rest : List Char) (fuel : Nat), itemsWeight vs ≤ fuel →
    parseItems fuel (itemsText vs ++ ']' :: rest) = some (vs, rest) := by
  intro rest fuel hfuel
  obtain ⟨fuel, rfl⟩ : ∃ n, fuel = n + 1 := by
    refine ⟨fuel - 1, ?_⟩
    cases vs <;> simp only [itemsWeight] at hfuel <;> omega
  match vs with
  | [] => simp [itemsText, parseItems]
  | v :: vs =>
    simp only [itemsWeight] at hfuel
    have hv := parseValue_text v _ fuel (ends_itemsText vs rest) (by omega)
    have hvs := parseItems_text vs rest fuel (by omega)
    simp [itemsText, parseItems, hv, hvs]

theorem parseEntries_text (kvs : List (String × Json)) : ∀ (rest : List Char) (fuel : Nat),
    entriesWeight kvs ≤ fuel → parseEntries fuel (entriesText kvs ++ '}' :: rest) = some (kvs, rest) := by
  intro rest fuel hfuel
  obtain ⟨fuel, rfl⟩ : ∃ n, fuel = n + 1 := by
    refine ⟨fuel - 1, ?_⟩
    cases kvs <;> simp only [entriesWeight] at hfuel <;> omega
  match kvs with
  | [] => simp [entriesText, parseEntries]
  | (k, v) :: kvs =>
    simp only [entriesWeight] at hfuel
    have hk := parseString_quoted k (':' :: (v.text ++ (entriesText kvs ++ '}' :: rest)))
    have hv := parseValue_text v _ fuel (ends_entriesText kvs rest) (by omega)
    have hkvs := parseEntries_text kvs rest fuel (by omega)
    simp [entriesText, parseEntries, hk, hv, hkvs]

end

mutual

theorem weight_le (v : Json) : v.weight ≤ 2 * v.text.length := by
  match v with
  | .null => simp [weight, text]
  | .bool true => simp [weight, text, boolText]
  | .bool false => simp [weight, text, boolText]
  | .int n =>
    obtain ⟨c, cs, h, -⟩ := head_text (.int n)
    simp only [weight, h, length_cons]
    omega
  | .str s =>
    simp only [weight, text, quoted, length_cons]
    omega
  | .arr [] => simp [weight, itemsWeight, text, itemsText]
  | .arr (w :: ws) =>
    have h := itemsWeight_le (w :: ws)
    simp only [itemsText, length_cons, length_append] at h
    simp only [weight, text, itemsText, length_cons, length_append, drop_succ_cons,
      drop_zero, length_nil]
    omega
  | .obj [] => simp [weight, entriesWeight, text, entriesText]
  | .obj ((k, w) :: kws) =>
    have h := entriesWeight_le ((k, w) :: kws)
    simp only [entriesText, length_cons, length_append] at h
    simp only [weight, text, entriesText, length_cons, length_append, drop_succ_cons,
      drop_zero, length_nil]
    omega

theorem itemsWeight_le (vs : List Json) : itemsWeight vs ≤ 2 * (itemsText vs).length + 1 := by
  match vs with
  | [] => simp [itemsWeight, itemsText]
  | v :: vs =>
    have hv := weight_le v
    have hvs := itemsWeight_le vs
    simp only [itemsWeight, itemsText, length_cons, length_append]
    omega

theorem entriesWeight_le (kvs : List (String × Json)) :
    entriesWeight kvs ≤ 2 * (entriesText kvs).length + 1 := by
  match kvs with
  | [] => simp [entriesWeight, entriesText]
  | (k, v) :: kvs =>
    have hv := weight_le v
    have hkvs := entriesWeight_le kvs
    simp only [entriesWeight, entriesText, length_cons, length_append]
    omega

end

theorem decodeUtf8_utf8 (cs : List Char) : decodeUtf8 (utf8 cs) = some cs := by
  have h : (utf8 cs).toByteArray = cs.utf8Encode := rfl
  simp [decodeUtf8, h]

theorem strictJson_canonicalBytes {v : Json} (hv : v.canonical = true) :
    strictJson v.canonicalBytes = some v := by
  have hparse := parseValue_text v [] (2 * v.text.length) (fun c hc => by simp at hc) (weight_le v)
  rw [append_nil] at hparse
  simp [strictJson, canonicalBytes, decodeUtf8_utf8, hparse, hv]

/-! ## One line -/

theorem le_toNat_or (x m : UInt8) : m.toNat ≤ (x ||| m).toNat := by
  rw [UInt8.toNat_or]
  exact Nat.right_le_or

theorem toNat_of_mem_utf8EncodeChar {c : Char} {b : UInt8} (h : b ∈ String.utf8EncodeChar c)
    (hb : b.toNat < 128) : c.toNat = b.toNat := by
  rw [String.utf8EncodeChar_eq_utf8EncodeCharFast] at h
  simp only [String.utf8EncodeCharFast] at h
  -- the bytes of a longer encoding have their highest bit set
  have hhigh : ∀ (x m : UInt8), 128 ≤ m.toNat → b ≠ x ||| m := by
    rintro x m hm rfl
    exact absurd hb (by have := le_toNat_or x m; omega)
  split at h
  · rename_i hsmall
    obtain rfl := mem_singleton.mp h
    have hval : c.val.toNat ≤ 127 := by simpa [UInt32.le_iff_toNat_le] using hsmall
    rw [UInt32.toNat_toUInt8, Nat.mod_eq_of_lt (by omega)]
    rfl
  · split at h
    · simp only [mem_cons, not_mem_nil, or_false] at h
      rcases h with h | h <;> exact absurd h (hhigh _ _ (by decide))
    · split at h
      · simp only [mem_cons, not_mem_nil, or_false] at h
        rcases h with h | h | h <;> exact absurd h (hhigh _ _ (by decide))
      · simp only [mem_cons, not_mem_nil, or_false] at h
        rcases h with h | h | h | h <;> exact absurd h (hhigh _ _ (by decide))

def Plain (cs : List Char) : Prop := ∀ c ∈ cs, 32 ≤ c.toNat

theorem Plain.append {cs ds : List Char} (hc : Plain cs) (hd : Plain ds) : Plain (cs ++ ds) := by
  intro c h
  rcases mem_append.mp h with h | h
  · exact hc c h
  · exact hd c h

theorem Plain.cons {c : Char} {cs : List Char} (hc : 32 ≤ c.toNat) (hcs : Plain cs) : Plain (c :: cs) := by
  intro d h
  rcases mem_cons.mp h with rfl | h
  · exact hc
  · exact hcs d h

theorem plain_nil : Plain [] := fun c h => by cases h

theorem plain_of_all {cs : List Char} (h : (cs.all fun c => decide (32 ≤ c.toNat)) = true) : Plain cs := by
  simpa [Plain] using h

theorem Plain.drop {cs : List Char} (h : Plain cs) (n : Nat) : Plain (cs.drop n) :=
  fun c hc => h c (mem_of_mem_drop hc)

theorem plain_escape (c : Char) : Plain (escape c) := by
  have hshort : ∀ entry ∈ shortEscapes, 32 ≤ entry.2.toNat := by decide
  have hdigit : ∀ n < 16, 32 ≤ (Nat.digitChar n).toNat := by decide
  unfold escape
  cases hfind : shortEscapes.find? fun entry => entry.1 = c with
  | some entry =>
    refine Plain.cons (by decide) (Plain.cons ?_ plain_nil)
    exact hshort entry (mem_of_find?_eq_some hfind)
  | none =>
    by_cases hcontrol : c.toNat < 32
    · simp only [hcontrol, if_true]
      refine (show Plain [backslash, 'u', '0', '0'] from plain_of_all (by decide)).append ?_
      exact Plain.cons (hdigit _ (by omega)) (Plain.cons (hdigit _ (by omega)) plain_nil)
    · simp only [hcontrol, if_false]
      exact Plain.cons (by omega) plain_nil

theorem plain_quoted (s : String) : Plain (quoted s) := by
  refine Plain.cons (by decide) (Plain.append ?_ (Plain.cons (by decide) plain_nil))
  intro d hd
  obtain ⟨c, -, hc⟩ := mem_flatMap.mp hd
  exact plain_escape c d hc

theorem plain_toDigits (n : Nat) : Plain (Nat.toDigits 10 n) := by
  intro c hc
  have hdigit := Nat.isDigit_of_mem_toDigits (by decide) (by decide) hc
  simp only [Char.isDigit, Bool.and_eq_true, decide_eq_true_eq] at hdigit
  have hle : 48 ≤ c.toNat := hdigit.1
  omega

theorem plain_intText : ∀ n : Int, Plain (intText n)
  | .ofNat n => plain_toDigits n
  | .negSucc n => Plain.cons (by decide) (plain_toDigits (n + 1))

mutual

theorem plain_text : ∀ v : Json, Plain v.text
  | .null => plain_of_all (by decide)
  | .bool true => plain_of_all (by decide)
  | .bool false => plain_of_all (by decide)
  | .int n => plain_intText n
  | .str s => plain_quoted s
  | .arr items => Plain.cons (by decide)
      (((plain_itemsText items).drop 1).append (Plain.cons (by decide) plain_nil))
  | .obj entries => Plain.cons (by decide)
      (((plain_entriesText entries).drop 1).append (Plain.cons (by decide) plain_nil))

theorem plain_itemsText : ∀ vs : List Json, Plain (itemsText vs)
  | [] => plain_nil
  | v :: vs => Plain.cons (by decide) ((plain_text v).append (plain_itemsText vs))

theorem plain_entriesText : ∀ kvs : List (String × Json), Plain (entriesText kvs)
  | [] => plain_nil
  | (k, v) :: kvs => Plain.cons (by decide)
      ((plain_quoted k).append (Plain.cons (by decide) ((plain_text v).append (plain_entriesText kvs))))

end

theorem canonicalBytes_no_break (v : Json) : ∀ b ∈ v.canonicalBytes, 32 ≤ b.toNat := by
  intro b hb
  obtain ⟨c, hc, hmem⟩ := mem_flatMap.mp hb
  have hplain := plain_text v c hc
  by_cases hlow : b.toNat < 128
  · rw [← toNat_of_mem_utf8EncodeChar hmem hlow]
    exact hplain
  · omega

end Json

end Bravo
