import Bravo.Strict.Values

/-! # The flat parser

`StrictObjectParser` of `CP2RuntimeContext.cpp`: one object whose values are null, Booleans, unsigned
integers and strings. It looks for a key among those before it as soon as it has read it. Where it
returns without a status of its own, the caller's stays (`none`).
-/

namespace Bravo.Strict

open List

/-! ## Flat objects -/

inductive FlatValue
  | null
  | bool (b : Bool)
  | u64 (n : Nat)
  | string (s : Bytes)

inductive FlatText : Bytes → FlatValue → Prop
  | null : FlatText nullWord .null
  | true : FlatText trueWord (.bool .true)
  | false : FlatText falseWord (.bool .false)
  | u64 {int : Bytes} (hint : Integer int) (hfits : decimal int < 2 ^ 64) : FlatText int (.u64 (decimal int))
  | string {raw s : Bytes} (h : Str raw s) : FlatText raw (.string s)

structure FlatMember where
  lead : Bytes := []
  keyRaw : Bytes
  keyAfter : Bytes := []
  key : Bytes
  before : Bytes := []
  raw : Bytes
  after : Bytes := []
  value : FlatValue

def FlatMember.text (m : FlatMember) : Bytes :=
  m.lead ++ (m.keyRaw ++ (m.keyAfter ++ colon :: (m.before ++ (m.raw ++ m.after))))

structure FlatMember.Valid (m : FlatMember) : Prop where
  lead : Blank m.lead
  keyAfter : Blank m.keyAfter
  before : Blank m.before
  after : Blank m.after
  key : Str m.keyRaw m.key
  value : FlatText m.raw m.value

def FlatMember.entry (m : FlatMember) : Bytes × FlatValue := (m.key, m.value)

inductive FlatDocument : Bytes → List (Bytes × FlatValue) → Prop
  | empty {w w' w'' : Bytes} (hw : Blank w) (hw' : Blank w') (hw'' : Blank w'') :
      FlatDocument (w ++ openBrace :: (w' ++ closeBrace :: w'')) []
  | entries {w w' : Bytes} {ms : List FlatMember} (hw : Blank w) (hw' : Blank w') (hne : ms ≠ [])
      (hms : ∀ m ∈ ms, m.Valid) (hdistinct : (ms.map (·.key)).Nodup) :
      FlatDocument (w ++ openBrace :: (commaSeparated (ms.map FlatMember.text) ++ closeBrace :: w'))
        (mapOf (ms.map FlatMember.entry))

/-! ## The parser -/

inductive CP2RuntimeContextStatus
  | kInvalidJson
  | kDuplicateKey
deriving DecidableEq

def Messages.const {ε : Type} (e : ε) : Messages ε :=
  ⟨e, e, e, e, e, e, e, e, e, e, e, e, e, e, e, e, e, e, e, e, e, e, e, e, e, e, e, e, e⟩

namespace CP2RuntimeContext

abbrev FlatParser := Parser (Option CP2RuntimeContextStatus)

def invalid : Option CP2RuntimeContextStatus := some .kInvalidJson

def messages : Messages (Option CP2RuntimeContextStatus) := .const invalid

def parseDigits : FlatParser Unit := do
  let b ← byteAt 0
  if b = 0x30 then do
    advance 1
    let s ← get
    if s.rest.head?.any isDigit then fail invalid else return ⟨⟩
  else skipDigits

def parseInteger : FlatParser FlatValue := do
  let start ← get
  parseDigits
  let s ← get
  match magnitude 0 (start.rest.take (start.rest.length - s.rest.length)) with
  | none => fail invalid
  | some n => return .u64 n

def parseValue : FlatParser FlatValue := do
  let s ← get
  if s.rest = [] then fail invalid
  else do
    let b ← byteAt 0
    if b = quote then do
      let output ← string messages
      return .string output
    else if s.rest.take 4 = nullWord then do
      advance 4
      return .null
    else if s.rest.take 4 = trueWord then do
      advance 4
      return .bool true
    else if s.rest.take 5 = falseWord then do
      advance 5
      return .bool false
    else if isDigit b = false then fail invalid
    else parseInteger

def parseEntries : Nat → List (Bytes × FlatValue) → FlatParser (List (Bytes × FlatValue))
  | 0, _ => throw .diverges
  | fuel + 1, output => do
    let s ← get
    if s.rest = [] then fail invalid
    else do
      let key ← string messages
      if key ∈ output.map (·.1) then fail (some .kDuplicateKey)
      else do
        skip
        if ← take colon then do
          skip
          let v ← parseValue
          let output := (emplace key v output).getD output
          skip
          if ← take closeBrace then do
            skip
            let s ← get
            if s.rest = [] then return output else fail invalid
          else if ← take comma then do
            skip
            parseEntries fuel output
          else fail invalid
        else fail invalid

def parse (fuel : Nat) : FlatParser (List (Bytes × FlatValue)) := do
  skip
  if ← take openBrace then do
    skip
    if ← take closeBrace then do
      skip
      let s ← get
      if s.rest = [] then return [] else fail none
    else parseEntries fuel []
  else fail invalid

/-- `StrictObjectParser(document).Parse`, into an empty map. -/
def parseObject (document : Bytes) : Except (Stop (Option CP2RuntimeContextStatus)) (List (Bytes × FlatValue)) :=
  outcome (parse (document.length + 1)) document

/-! ## Values -/

section Values

variable {k : Nat} {rest : Bytes}

theorem wp_parseDigits {Q : Unit → Scan → Prop} {E : Stop (Option CP2RuntimeContextStatus) → Scan → Prop}
    {b : UInt8} (hb : isDigit b = true) :
    wp parseDigits Q E ⟨b :: rest, k⟩ ↔ wp (integerPart messages) Q E ⟨b :: rest, k⟩ := by
  by_cases hzero : b = 0x30
  · subst hzero
    simp [parseDigits, integerPart, messages, Messages.const]
  · have hrange : 0x31 ≤ b ∧ b ≤ 0x39 := by
      have hdigit := isDigit_iff.mp hb
      have hne : b.toNat ≠ 0x30 := fun h => hzero (UInt8.toNat_inj.mp h)
      simp only [UInt8.le_iff_toNat_le]
      exact ⟨by change 0x31 ≤ b.toNat; omega, hdigit.2⟩
    simp [parseDigits, integerPart, hzero, hrange]

theorem parseInteger_sound {b : UInt8} (hb : isDigit b = true) :
    wp parseInteger (fun v t => ∃ raw, FlatText raw v ∧ b :: rest = raw ++ t.rest ∧ t.nodes = k) Refuses
      ⟨b :: rest, k⟩ := by
  simp only [parseInteger, wp_bind, wp_get, wp_parseDigits hb]
  refine wp_mono (integerPart_sound messages (b :: rest)) ?_ fun _ _ h => h
  rintro _ ⟨rest', k'⟩ ⟨int, hint, hrest, rfl⟩
  simp only at hrest
  rw [hrest, take_sub_length, magnitude_eq int 0 (by decide) hint.digits_all]
  by_cases hfits : decimalFrom 0 int < 2 ^ 64
  · rw [if_pos hfits]
    exact ⟨int, .u64 hint hfits, rfl, rfl⟩
  · rw [if_neg hfits]
    exact ⟨_, rfl⟩

theorem parseValue_sound (rest : Bytes) (k : Nat) :
    wp parseValue (fun v t => ∃ raw, FlatText raw v ∧ rest = raw ++ t.rest ∧ t.nodes = k) Refuses ⟨rest, k⟩ := by
  unfold parseValue
  cases rest with
  | nil => simp
  | cons b rest =>
  simp only [wp_bind, wp_get, wp_ite, wp_fail, refuses_fail, implies_true, true_and, wp_byteAt,
    getElem?_cons_zero, Option.some.injEq, reduceCtorEq, false_implies, and_true]
  rintro - b' rfl
  have hword : ∀ (word : Bytes) (v : FlatValue), (b :: rest).take word.length = word → FlatText word v →
      wp (advance word.length) (fun _ t => ∃ raw, FlatText raw v ∧ b :: rest = raw ++ t.rest ∧ t.nodes = k)
        (Refuses (ε := Option CP2RuntimeContextStatus)) ⟨b :: rest, k⟩ := fun word v htake htext =>
    wp_advance_word htake fun tail htail => ⟨word, htext, htail, rfl⟩
  refine ⟨fun _ => ?_, fun _ => ⟨fun hnull => hword nullWord .null hnull .null, fun _ =>
    ⟨fun htrue => hword trueWord (.bool true) htrue .true, fun _ =>
    ⟨fun hfalse => hword falseWord (.bool false) hfalse .false, fun _ => fun hdigit => ?_⟩⟩⟩⟩
  · refine wp_mono (string_sound messages (b :: rest) k) ?_ fun _ _ h => h
    rintro out t ⟨raw, hstr, hrest, ht⟩
    exact ⟨raw, .string hstr, hrest, ht⟩
  · exact parseInteger_sound (by simpa using hdigit)

theorem parseValue_complete {Q : FlatValue → Scan → Prop}
    {E : Stop (Option CP2RuntimeContextStatus) → Scan → Prop} {raw : Bytes} {v : FlatValue}
    (h : FlatText raw v) (hrest : Ends rest) (hQ : Q v ⟨rest, k⟩) : wp parseValue Q E ⟨raw ++ rest, k⟩ := by
  cases h with
  | null => simp [parseValue, quote, hQ]
  | true => simp [parseValue, quote, hQ]
  | false => simp [parseValue, quote, hQ]
  | u64 hint hfits =>
    obtain ⟨b, tail, rfl⟩ := exists_cons_of_ne_nil hint.ne_nil
    have hb := hint.digits_all b mem_cons_self
    have hcall : wp parseInteger Q E ⟨b :: (tail ++ rest), k⟩ := by
      simp only [parseInteger, wp_bind, wp_get, wp_parseDigits hb]
      rw [← cons_append]
      refine integerPart_complete messages hint hrest.digits ?_
      have hsum : decimalFrom 0 (b :: tail) < 2 ^ 64 := hfits
      rw [take_sub_length, magnitude_eq _ 0 (by decide) hint.digits_all, if_pos hsum]
      exact hQ
    have hne : ∀ c : UInt8, isDigit c = true ∨ b ≠ c := fun c => by
      by_cases hc : b = c
      · exact .inl (hc ▸ hb)
      · exact .inr hc
    have hquote : b ≠ quote := (hne quote).resolve_left (by decide)
    have hn : b ≠ 0x6e := (hne 0x6e).resolve_left (by decide)
    have ht : b ≠ 0x74 := (hne 0x74).resolve_left (by decide)
    have hf : b ≠ 0x66 := (hne 0x66).resolve_left (by decide)
    rw [cons_append]
    simp [parseValue, hquote, hn, ht, hf, hb, hcall]
  | string h =>
    have hcall := string_complete messages (Q := fun out t => Q (.string out) t) (E := E) h rest hQ
    obtain ⟨tail, rfl⟩ := h.head
    simpa [parseValue] using hcall

theorem FlatText.endsBlank {raw : Bytes} {v : FlatValue} (h : FlatText raw v) (tail : Bytes) :
    EndsBlank (raw ++ tail) := by
  cases h with
  | u64 hint =>
    obtain ⟨b, tail', rfl⟩ := exists_cons_of_ne_nil hint.ne_nil
    have hb := isDigit_iff.mp (hint.digits_all b mem_cons_self)
    refine endsBlank_cons ?_
    rw [Bool.eq_false_iff]
    intro hblank
    rcases isBlank_iff.mp hblank with rfl | rfl | rfl | rfl <;> exact absurd hb (by decide)
  | string h =>
    obtain ⟨tail', rfl⟩ := h.head
    exact endsBlank_cons rfl
  | _ => exact endsBlank_cons rfl

end Values

/-! ## Objects -/

section Objects

def ReadsEntries (output : List (Bytes × FlatValue)) (rest : Bytes) (out : List (Bytes × FlatValue))
    (_ : Scan) : Prop :=
  ∃ (ms : List FlatMember) (w : Bytes), ms ≠ [] ∧ (∀ m ∈ ms, m.Valid) ∧ (ms.map (·.key)).Nodup ∧
    (∀ m ∈ ms, m.key ∉ output.map (·.1)) ∧ Blank w ∧
    rest = commaSeparated (ms.map FlatMember.text) ++ closeBrace :: w ∧
    out = insertAll (ms.map FlatMember.entry) output

theorem ReadsEntries.skip {output out : List (Bytes × FlatValue)} {rest : Bytes} {t : Scan}
    (h : ReadsEntries output (rest.dropWhile isBlank) out t) : ReadsEntries output rest out t := by
  obtain ⟨ms, w, hne, hvalid, hnodup, hnew, hw, hrest, hout⟩ := h
  obtain ⟨e, ms, rfl⟩ := exists_cons_of_ne_nil hne
  obtain ⟨w', hw', hsplit⟩ := exists_blank rest
  rw [forall_mem_cons] at hvalid
  refine ⟨{ e with lead := w' ++ e.lead } :: ms, w, cons_ne_nil _ _, forall_mem_cons.mpr
    ⟨{ hvalid.1 with lead := hw'.append hvalid.1.lead }, hvalid.2⟩, hnodup,
    forall_mem_cons.mpr (forall_mem_cons.mp hnew), hw, ?_, hout⟩
  rw [← hsplit, hrest]
  cases ms with
  | nil => simp [commaSeparated, FlatMember.text]
  | cons e' ms => simp [commaSeparated, FlatMember.text]

theorem parseEntries_sound (fuel : Nat) : ∀ (output : List (Bytes × FlatValue)) (rest : Bytes) (k : Nat),
    rest.length < fuel → wp (parseEntries fuel output) (ReadsEntries output rest) Refuses ⟨rest, k⟩ := by
  induction fuel with
  | zero => exact fun _ _ _ h => absurd h (Nat.not_lt_zero _)
  | succ fuel ih =>
    intro output rest k hfuel
    rw [parseEntries]
    simp only [wp_bind, wp_get, wp_ite, wp_fail, refuses_fail, implies_true, true_and]
    intro _
    refine wp_mono (string_sound messages rest k) ?_ fun _ _ h => h
    rintro key ⟨rest₁, k₁⟩ ⟨keyRaw, hkey, rfl, rfl⟩
    have hpos := length_pos_iff.mpr hkey.ne_nil
    rw [length_append] at hfuel
    change keyRaw.length + rest₁.length < fuel + 1 at hfuel
    obtain ⟨w₁, hw₁, hsplit₁⟩ := exists_blank rest₁
    intro hmem
    simp only [wp_skip, wp_take]
    refine ⟨fun rest₂ hrest₂ => ⟨fun _ => ?_, trivial⟩, fun _ => ⟨by rintro ⟨⟩, trivial⟩⟩
    obtain ⟨w₂, hw₂, hsplit₂⟩ := exists_blank rest₂
    refine wp_mono (parseValue_sound (rest₂.dropWhile isBlank) k₁) ?_ fun _ _ h => h
    rintro v ⟨rest₃, k₃⟩ ⟨raw, hraw, hrest₃, rfl⟩
    obtain ⟨w₃, hw₃, hsplit₃⟩ := exists_blank rest₃
    -- the entry that was read, with the blanks around its parts
    let e : FlatMember := { keyRaw, keyAfter := w₁, key, before := w₂, raw, after := w₃, value := v }
    have hvalid : e.Valid := ⟨Blank.nil, hw₁, hw₂, hw₃, hkey, hraw⟩
    have htext : ∀ tail, w₃ ++ tail = rest₃ → keyRaw ++ rest₁ = e.text ++ tail := fun tail htail => by
      rw [← hsplit₁, hrest₂, ← hsplit₂, hrest₃, ← htail]
      simp [e, FlatMember.text]
    have hemplace : (emplace key v output).getD output = insertEntry key v output := by
      rw [emplace, if_neg hmem]
      rfl
    rw [hemplace]
    refine ⟨fun rest₄ hrest₄ => ⟨fun _ => ?_, fun h => absurd trivial h⟩, fun _ => ⟨by rintro ⟨⟩, fun _ =>
      ⟨fun rest₄ hrest₄ => ⟨fun _ => ?_, trivial⟩, fun _ => ⟨by rintro ⟨⟩, trivial⟩⟩⟩⟩
    · -- the end of the document
      rw [hrest₄] at hsplit₃
      refine ⟨fun hend => ?_, trivial⟩
      refine ⟨[e], rest₄, cons_ne_nil _ _, by simpa using hvalid, nodup_singleton _, ?_,
        blank_of_dropWhile hend, htext _ hsplit₃, rfl⟩
      simpa using hmem
    · -- behind a comma the loop goes on with less text
      have hskip := length_dropWhile_le rest₄
      have hlength : rest₄.length < rest₁.length := by
        have h₁ := length_dropWhile_le rest₁
        have h₂ := length_dropWhile_le rest₂
        have h₃ := length_dropWhile_le rest₃
        rw [hrest₂] at h₁
        rw [hrest₃, length_append] at h₂
        change raw.length + rest₃.length ≤ rest₂.length at h₂
        rw [hrest₄] at h₃
        simp only [length_cons] at h₁ h₃
        omega
      refine wp_mono (ih (insertEntry key v output) (rest₄.dropWhile isBlank) k₃ (by omega)) ?_
        fun _ _ h => h
      intro out t h
      obtain ⟨ms, w, hne, hvalids, hnodup, hnew, hw, hrest', hout⟩ := h.skip
      obtain ⟨e', ms, rfl⟩ := exists_cons_of_ne_nil hne
      refine ⟨e :: e' :: ms, w, cons_ne_nil _ _, forall_mem_cons.mpr ⟨hvalid, hvalids⟩,
        nodup_cons.mpr ⟨?_, hnodup⟩, forall_mem_cons.mpr ⟨hmem, ?_⟩, hw, ?_, hout⟩
      · intro hin
        obtain ⟨e'', hmem'', heq⟩ := mem_map.mp hin
        exact hnew e'' hmem'' (mem_insertEntry.mpr (.inl heq))
      · exact fun e'' hmem'' hin => hnew e'' hmem'' (mem_insertEntry.mpr (.inr hin))
      · rw [hrest₄, hrest'] at hsplit₃
        rw [htext _ hsplit₃]
        simp [commaSeparated]

theorem parse_sound (document : Bytes) :
    wp (parse (document.length + 1)) (fun out _ => FlatDocument document out) Refuses ⟨document, 0⟩ := by
  obtain ⟨w, hw, hsplit⟩ := exists_blank document
  have hlength := length_dropWhile_le document
  simp only [parse, wp_bind, wp_skip, wp_take, wp_ite, wp_get, wp_pure, wp_fail, refuses_fail, implies_true]
  refine ⟨fun rest hrest => ⟨fun _ => ?_, trivial⟩, fun _ => ⟨by rintro ⟨⟩, trivial⟩⟩
  rw [hrest] at hsplit hlength
  have hskip := length_dropWhile_le rest
  refine ⟨fun rest₂ hrest₂ => ⟨fun _ => ⟨fun hend => ?_, trivial⟩, fun h => absurd trivial h⟩,
    fun _ => ⟨by rintro ⟨⟩, fun _ => ?_⟩⟩
  · obtain ⟨w', hw', hsplit'⟩ := exists_blank rest
    rw [hrest₂] at hsplit'
    rw [← hsplit, ← hsplit']
    exact .empty hw hw' (blank_of_dropWhile hend)
  · simp only [length_cons] at hlength
    refine wp_mono (parseEntries_sound _ [] (rest.dropWhile isBlank) 0 (by omega)) ?_ fun _ _ h => h
    intro out t h
    obtain ⟨ms, w', hne, hvalid, hnodup, -, hw', hrest', rfl⟩ := h.skip
    rw [← hsplit, hrest']
    exact .entries hw hw' hne hvalid hnodup

section Complete

variable {k : Nat} {Q : List (Bytes × FlatValue) → Scan → Prop}
  {E : Stop (Option CP2RuntimeContextStatus) → Scan → Prop}

theorem entries_round {fuel : Nat} {output : List (Bytes × FlatValue)} {e : FlatMember} {b : UInt8}
    {tail : Bytes} (he : e.Valid) (hnew : e.key ∉ output.map (·.1)) (hb : b = closeBrace ∨ b = comma)
    (hlast : b = closeBrace → tail.dropWhile isBlank = [] ∧ Q (insertEntry e.key e.value output) ⟨[], k⟩)
    (hnext : b = comma → wp (parseEntries fuel (insertEntry e.key e.value output)) Q E
      ⟨tail.dropWhile isBlank, k⟩) :
    wp (parseEntries (fuel + 1) output) Q E
      ⟨e.keyRaw ++ (e.keyAfter ++ colon :: (e.before ++ (e.raw ++ (e.after ++ b :: tail)))), k⟩ := by
  have hdelimiter : IsDelimiter b := hb.elim (fun h => .inr (.inr h)) .inl
  have hskip := hdelimiter.dropWhile he.after tail
  have hcolon : ∀ tail', (e.keyAfter ++ colon :: tail').dropWhile isBlank = colon :: tail' := fun _ =>
    dropWhile_blank he.keyAfter (endsBlank_cons rfl)
  have hbefore : (e.before ++ (e.raw ++ (e.after ++ b :: tail))).dropWhile isBlank =
      e.raw ++ (e.after ++ b :: tail) := dropWhile_blank he.before (FlatText.endsBlank he.value _)
  obtain ⟨keyTail, hhead⟩ := he.key.head
  have hne : e.keyRaw ++ (e.keyAfter ++ colon :: (e.before ++ (e.raw ++ (e.after ++ b :: tail)))) ≠ [] := by
    simp [hhead]
  have hemplace : (emplace e.key e.value output).getD output = insertEntry e.key e.value output := by
    rw [emplace, if_neg hnew]
    rfl
  rw [parseEntries]
  simp only [wp_bind, wp_get, wp_ite]
  refine ⟨fun h => absurd h hne, fun _ => string_complete messages he.key _ ⟨fun h => absurd h hnew, fun _ => ?_⟩⟩
  simp only [wp_skip, wp_take, hcolon]
  refine ⟨?_, fun h => absurd rfl h⟩
  rintro rest' hrest
  obtain rfl := tail_eq_of_cons_eq hrest
  refine ⟨fun _ => ?_, fun h => absurd trivial h⟩
  rw [hbefore]
  refine parseValue_complete he.value (ends_blank he.after (hdelimiter.ends tail)) ?_
  rw [hemplace]
  simp only [hskip]
  rcases hb with rfl | rfl
  · obtain ⟨hend, hQ⟩ := hlast rfl
    refine ⟨fun rest' hrest => ⟨fun _ => ?_, fun h => absurd trivial h⟩, fun h => absurd rfl h⟩
    obtain rfl := tail_eq_of_cons_eq hrest
    rw [hend]
    exact ⟨fun _ => hQ, fun h => absurd rfl h⟩
  · simpa [comma, closeBrace] using hnext rfl

theorem parseEntries_complete {w : Bytes} (hw : Blank w) : ∀ (ms : List FlatMember), ms ≠ [] →
    (∀ m ∈ ms, m.Valid) → (ms.map (·.key)).Nodup → ∀ (fuel : Nat) (output : List (Bytes × FlatValue)),
      (∀ m ∈ ms, m.key ∉ output.map (·.1)) → ms.length ≤ fuel →
      Q (insertAll (ms.map FlatMember.entry) output) ⟨[], k⟩ →
      wp (parseEntries fuel output) Q E
        ⟨(commaSeparated (ms.map FlatMember.text) ++ closeBrace :: w).dropWhile isBlank, k⟩ := by
  intro ms
  induction ms with
  | nil => exact fun h => absurd rfl h
  | cons e ms ih =>
    intro _ hvalid hnodup fuel output hnew hfuel hQ
    rw [forall_mem_cons] at hvalid hnew
    rw [map_cons, nodup_cons] at hnodup
    rw [length_cons] at hfuel
    obtain ⟨fuel, rfl⟩ : ∃ n, fuel = n + 1 := ⟨fuel - 1, by omega⟩
    have hskip : ∀ tail, (e.text ++ tail).dropWhile isBlank =
        e.keyRaw ++ (e.keyAfter ++ colon :: (e.before ++ (e.raw ++ (e.after ++ tail)))) := fun tail => by
      obtain ⟨keyTail, hhead⟩ := hvalid.1.key.head
      have htext : e.text ++ tail =
          e.lead ++ (e.keyRaw ++ (e.keyAfter ++ colon :: (e.before ++ (e.raw ++ (e.after ++ tail))))) := by
        simp [FlatMember.text]
      rw [htext]
      exact dropWhile_blank hvalid.1.lead (by rw [hhead]; exact endsBlank_cons rfl)
    cases ms with
    | nil =>
      simp only [map_cons, map_nil, commaSeparated] at hQ ⊢
      rw [hskip]
      exact entries_round hvalid.1 hnew.1 (.inl rfl) (fun _ => ⟨dropWhile_of_blank hw, hQ⟩)
        fun h => absurd h (by decide)
    | cons e' ms =>
      rw [map_cons, map_cons, commaSeparated_cons, append_assoc, cons_append, hskip]
      refine entries_round hvalid.1 hnew.1 (.inr rfl) (fun h => absurd h (by decide)) fun _ => ?_
      refine ih (cons_ne_nil _ _) hvalid.2 hnodup.2 fuel (insertEntry e.key e.value output) ?_
        (by omega) hQ
      intro e'' hmem hin
      rcases mem_insertEntry.mp hin with heq | hin
      · exact hnodup.1 (heq ▸ mem_map_of_mem hmem)
      · exact hnew.2 e'' hmem hin

end Complete

theorem length_le_commaSeparated (ms : List FlatMember) :
    ms.length ≤ (commaSeparated (ms.map FlatMember.text)).length := by
  induction ms with
  | nil => exact Nat.zero_le _
  | cons e ms ih =>
    have hpos : 1 ≤ e.text.length := by
      simp only [FlatMember.text, length_append, length_cons]
      omega
    cases ms with
    | nil => simpa [commaSeparated] using hpos
    | cons e' ms =>
      simp only [map_cons, commaSeparated_cons, length_append, length_cons] at ih ⊢
      omega

theorem parse_complete {document : Bytes} {out : List (Bytes × FlatValue)} (h : FlatDocument document out) :
    wp (parse (document.length + 1)) (fun out' _ => out' = out) (fun _ _ => False) ⟨document, 0⟩ := by
  cases h with
  | @empty w w' w'' hw hw' hw'' =>
    have hskip : (w ++ openBrace :: (w' ++ closeBrace :: w'')).dropWhile isBlank =
        openBrace :: (w' ++ closeBrace :: w'') := dropWhile_blank hw (endsBlank_cons rfl)
    have hskip' : (w' ++ closeBrace :: w'').dropWhile isBlank = closeBrace :: w'' :=
      dropWhile_blank hw' (endsBlank_cons rfl)
    have hend := dropWhile_of_blank hw''
    simp only [parse, wp_bind, wp_skip, wp_take, wp_ite, wp_get, wp_pure, hskip]
    refine ⟨fun rest hrest => ⟨fun _ => ?_, fun h => absurd trivial h⟩, fun h => absurd rfl h⟩
    obtain rfl := tail_eq_of_cons_eq hrest
    rw [hskip']
    refine ⟨fun rest hrest => ⟨fun _ => ⟨fun _ => trivial, fun h => ?_⟩, fun h => absurd trivial h⟩,
      fun h => absurd rfl h⟩
    obtain rfl := tail_eq_of_cons_eq hrest
    exact absurd hend h
  | @entries w w' ms hw hw' hne hms hdistinct =>
    have hskip : (w ++ openBrace :: (commaSeparated (ms.map FlatMember.text) ++ closeBrace :: w')).dropWhile
        isBlank = openBrace :: (commaSeparated (ms.map FlatMember.text) ++ closeBrace :: w') :=
      dropWhile_blank hw (endsBlank_cons rfl)
    have hle := length_le_commaSeparated ms
    have hcall := parseEntries_complete (Q := fun out' _ => out' = mapOf (ms.map FlatMember.entry))
      (E := fun _ _ => False) (k := 0) hw' ms hne hms hdistinct
      ((w ++ openBrace :: (commaSeparated (ms.map FlatMember.text) ++ closeBrace :: w')).length + 1) []
      (by simp) (by simp only [length_append, length_cons]; omega) rfl
    have hopen : ((commaSeparated (ms.map FlatMember.text) ++ closeBrace :: w').dropWhile isBlank).head? ≠
        some closeBrace := by
      obtain ⟨e, ms, rfl⟩ := exists_cons_of_ne_nil hne
      have he := hms e mem_cons_self
      obtain ⟨tail', hraw⟩ := he.key.head
      have hsplit : ∃ tail'', commaSeparated ((e :: ms).map FlatMember.text) ++ closeBrace :: w' =
          e.lead ++ quote :: tail'' := by
        cases ms with
        | nil => exact ⟨_, by simp [commaSeparated, FlatMember.text, hraw]; rfl⟩
        | cons e' ms => exact ⟨_, by simp [commaSeparated, FlatMember.text, hraw]; rfl⟩
      obtain ⟨tail'', hsplit⟩ := hsplit
      rw [hsplit, dropWhile_blank he.lead (endsBlank_cons rfl)]
      exact fun h => absurd (Option.some.inj h) (by decide)
    simp only [parse, wp_bind, wp_skip, wp_take, wp_ite, wp_get, wp_pure, hskip]
    refine ⟨fun rest hrest => ⟨fun _ => ?_, fun h => absurd trivial h⟩, fun h => absurd rfl h⟩
    obtain rfl := tail_eq_of_cons_eq hrest
    refine ⟨fun tail htail => absurd ?_ hopen, fun _ => ⟨by rintro ⟨⟩, fun _ => hcall⟩⟩
    exact (congrArg List.head? htail).trans rfl

end Objects

end CP2RuntimeContext

end Bravo.Strict
