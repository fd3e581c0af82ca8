import Bravo.Strict.Parser

/-! # Reading strings

What each part of the parsers does, as rules for `wp`: the part returns exactly where its text is in the
grammar, and it neither reads out of bounds nor runs out of rounds.
-/

namespace Bravo.Strict

open List

/-! ## Bytes -/

section Reading

variable {ε : Type} {s : Scan}

variable {E : Stop ε → Scan → Prop}

@[simp] theorem wp_map {α β : Type} {Q : β → Scan → Prop} (f : α → β)
    (x : Parser ε α) : wp (f <$> x) Q E s ↔ wp x (fun a => Q (f a)) E s := by
  rw [map_eq_pure_bind, wp_bind]
  rfl

@[simp] theorem wp_fail {α : Type} {Q : α → Scan → Prop} (e : ε) :
    wp (fail e) Q E s ↔ E (.fail e) s := Iff.rfl

@[simp] theorem wp_byteAt {Q : UInt8 → Scan → Prop} (i : Nat) :
    wp (byteAt i) Q E s ↔
      (∀ b, s.rest[i]? = some b → Q b s) ∧ (s.rest[i]? = none → E .outOfBounds s) := by
  simp only [byteAt, wp_bind, wp_get]
  cases h : s.rest[i]? <;> simp

variable {Q : Unit → Scan → Prop}

@[simp] theorem wp_advance (n : Nat) :
    wp (advance n) Q E s ↔ (s.rest.length < n → E .outOfBounds s) ∧
      (¬ s.rest.length < n → Q ⟨⟩ { s with rest := s.rest.drop n }) := by
  simp [advance]

@[simp] theorem wp_skip :
    wp skip Q E s ↔ Q ⟨⟩ { s with rest := s.rest.dropWhile isBlank } := Iff.rfl

@[simp] theorem wp_skipDigits :
    wp skipDigits Q E s ↔ Q ⟨⟩ { s with rest := s.rest.dropWhile isDigit } := Iff.rfl

@[simp] theorem wp_take {Q : Bool → Scan → Prop} (b : UInt8) :
    wp (take b) Q E s ↔ (∀ rest, s.rest = b :: rest → Q true { s with rest }) ∧
      (s.rest.head? ≠ some b → Q false s) := by
  unfold take
  cases h : s.rest with
  | nil => simp [h]
  | cons c rest =>
    by_cases hc : c = b
    · subst hc
      simp [h]
    · simp [h, hc]

theorem wp_advance_word {word rest : Bytes} {k : Nat}
    (h : rest.take word.length = word) (hQ : ∀ tail, rest = word ++ tail → Q ⟨⟩ ⟨tail, k⟩) :
    wp (advance word.length) Q E ⟨rest, k⟩ := by
  have hsplit := take_append_drop word.length rest
  rw [h] at hsplit
  have hlength := congrArg List.length hsplit
  rw [length_append] at hlength
  rw [wp_advance]
  exact ⟨fun h => absurd h (by simp only; omega), fun _ => hQ _ hsplit.symm⟩

end Reading

def Refuses {ε : Type} (e : Stop ε) (_ : Scan) : Prop := ∃ message, e = .fail message

@[simp] theorem refuses_fail {ε : Type} (e : ε) (s : Scan) : Refuses (.fail e) s := ⟨e, rfl⟩

/-! ## Escapes -/

theorem hexDigit_lt {b : UInt8} {n : Nat} (h : hexDigit b = some n) : n < 16 := by
  unfold hexDigit at h
  simp only [UInt8.le_iff_toNat_le] at h
  split_ifs at h with h₁ h₂ h₃
  · have : b.toNat ≤ 0x39 := h₁.2
    injection h
    omega
  · have : b.toNat ≤ 0x66 := h₂.2
    injection h
    omega
  · have : b.toNat ≤ 0x46 := h₃.2
    injection h
    omega

theorem shiftLeft_or {n digit : Nat} (h : digit < 16) : n <<< 4 ||| digit = n * 16 + digit := by
  rw [← Nat.shiftLeft_add_eq_or_of_lt (i := 4) (by omega), Nat.shiftLeft_eq]

section Escapes

variable {ε : Type} (m : Messages ε) {s : Scan}

theorem hex4_complete {Q : Nat → Scan → Prop} {E : Stop ε → Scan → Prop} {hex rest : Bytes} {n k : Nat}
    (h : Hex4 hex n) (hQ : Q n ⟨rest, k⟩) : wp (hex4 m) Q E ⟨hex ++ rest, k⟩ := by
  cases h with
  | @mk a b c d i j k l ha hb hc hd =>
    have hj := hexDigit_lt hb
    have hk := hexDigit_lt hc
    have hl := hexDigit_lt hd
    simp [hex4, hex4Loop, ha, hb, hc, hd, shiftLeft_or, hj, hk, hl, hQ]

theorem hex4_sound {Q : Nat → Scan → Prop} {E : Stop ε → Scan → Prop}
    (hQ : ∀ hex n rest, Hex4 hex n → s.rest = hex ++ rest → Q n { s with rest })
    (hE : ∀ message, E (.fail message) s) : wp (hex4 m) Q E s := by
  match hs : s.rest with
  | a :: b :: c :: d :: rest =>
    cases ha : hexDigit a with
    | none => simp [hex4, hex4Loop, hs, ha, hE]
    | some i =>
    cases hb : hexDigit b with
    | none => simp [hex4, hex4Loop, hs, ha, hb, hE]
    | some j =>
    cases hc : hexDigit c with
    | none => simp [hex4, hex4Loop, hs, ha, hb, hc, hE]
    | some k =>
    cases hd : hexDigit d with
    | none => simp [hex4, hex4Loop, hs, ha, hb, hc, hd, hE]
    | some l =>
      have := hQ [a, b, c, d] _ rest (.mk ha hb hc hd) hs
      simpa [hex4, hex4Loop, hs, ha, hb, hc, hd, shiftLeft_or, hexDigit_lt ha, hexDigit_lt hb,
        hexDigit_lt hc, hexDigit_lt hd] using this
  | [] | [_] | [_, _] | [_, _, _] => simp [hex4, hs, hE]

theorem appendUtf8_eq (c : Char) : appendUtf8 c.toNat = String.utf8EncodeChar c := by
  have hor : ∀ a i b : Nat, b < 2 ^ i → a <<< i ||| b = b + a * 2 ^ i := fun a i b hb => by
    rw [← Nat.shiftLeft_add_eq_or_of_lt hb, Nat.shiftLeft_eq, Nat.add_comm]
  have hvalid : c.val.toNat < 0xd800 ∨ 0xdfff < c.val.toNat ∧ c.val.toNat < 0x110000 := c.valid
  change appendUtf8 c.val.toNat = _
  dsimp only [String.utf8EncodeChar, appendUtf8]
  generalize c.val.toNat = v at hvalid
  have hmask : ∀ n : Nat, n &&& 0x3f = n % 64 := fun n => Nat.and_two_pow_sub_one_eq_mod n 6
  have htail : ∀ n : Nat, 0x80 ||| n &&& 0x3f = n % 64 + 128 := fun n => by
    rw [hmask]
    exact hor 2 6 _ (Nat.mod_lt _ (by decide))
  have hsix : v >>> 6 = v / 64 := Nat.shiftRight_eq_div_pow v 6
  have htwelve : v >>> 12 = v / 4096 := Nat.shiftRight_eq_div_pow v 12
  have heighteen : v >>> 18 = v / 262144 := Nat.shiftRight_eq_div_pow v 18
  simp only [htail, hsix, htwelve, heighteen, toByte]
  split_ifs with h₁ h₂ h₃
  · rfl
  · have hlead : 0xc0 ||| v / 64 = v / 64 % 32 + 192 := by
      rw [Nat.mod_eq_of_lt (by omega)]
      exact hor 3 6 _ (by omega)
    rw [hlead]
  · have hlead : 0xe0 ||| v / 4096 = v / 4096 % 16 + 224 := by
      rw [Nat.mod_eq_of_lt (by omega)]
      exact hor 14 4 _ (by omega)
    rw [hlead]
  · have hlead : 0xf0 ||| v / 262144 = v / 262144 % 8 + 240 := by
      rw [Nat.mod_eq_of_lt (by omega)]
      exact hor 30 3 _ (by omega)
    rw [hlead]

theorem Hex4.lt {hex : Bytes} {n : Nat} (h : Hex4 hex n) : n < 0x10000 := by
  cases h with
  | mk ha hb hc hd =>
    have := hexDigit_lt ha
    have := hexDigit_lt hb
    have := hexDigit_lt hc
    have := hexDigit_lt hd
    omega

theorem exists_toNat {n : Nat} (h : n.isValidChar) : ∃ c : Char, c.toNat = n := Trace.exists_char h

def IsEscape (raw bytes : Bytes) : Prop :=
  raw ≠ [] ∧ ∀ raw' s', Chars raw' s' → Chars (backslash :: (raw ++ raw')) (bytes ++ s')

theorem lowSurrogate_sound {Q : Nat → Scan → Prop} {first : Nat}
    (hQ : ∀ hex low rest, Hex4 hex low → (0xdc00 ≤ low ∧ low ≤ 0xdfff) →
      s.rest = backslash :: lowerU :: (hex ++ rest) →
      Q (0x10000 + (first - 0xd800) * 0x400 + (low - 0xdc00)) { s with rest }) :
    wp (lowSurrogate m first) Q Refuses s := by
  match hs : s.rest with
  | [] | [_] => simp [lowSurrogate, hs]
  | b :: b' :: rest =>
    by_cases hb : b ≠ backslash ∨ b' ≠ lowerU
    · have hrefuse : b = backslash → b' = lowerU → False := fun h h' => hb.elim (absurd h) (absurd h')
      simp only [lowSurrogate, wp_bind, wp_get, wp_ite, hs, wp_byteAt]
      simp only [getElem?_cons_zero, getElem?_cons_succ]
      simp
      exact fun h h' => (hrefuse h h').elim
    · obtain ⟨rfl, rfl⟩ : b = backslash ∧ b' = lowerU := by
        simpa only [not_or, not_not] using hb
      have hcall : wp (hex4 m) (fun second t => wp (if second < 0xdc00 ∨ 0xdfff < second then
          fail m.lowSurrogateInvalid
          else pure (0x10000 + (first - 0xd800) <<< 10 + (second - 0xdc00))) Q Refuses t) Refuses
          { s with rest } := by
        refine hex4_sound m (fun hex low rest' hhex hrest => ?_) fun message => refuses_fail _ _
        rw [wp_ite]
        refine ⟨fun _ => ⟨_, rfl⟩, fun hlow => ?_⟩
        rw [wp_pure, Nat.shiftLeft_eq]
        refine hQ hex low rest' hhex (by omega) ?_
        rw [hs]
        exact congrArg (fun l => backslash :: lowerU :: l) hrest
      simpa [lowSurrogate, hs] using hcall

theorem unicodeEscape_sound {Q : Bytes → Scan → Prop}
    (hQ : ∀ raw bytes rest, IsEscape (lowerU :: raw) bytes → s.rest = raw ++ rest →
      Q bytes { s with rest }) : wp (unicodeEscape m) Q Refuses s := by
  unfold unicodeEscape
  rw [wp_bind]
  refine hex4_sound m (fun hex first rest hhex hrest => ?_) fun message => refuses_fail _ _
  have hlt := hhex.lt
  simp only [wp_ite, wp_bind, wp_pure, wp_fail, refuses_fail, implies_true, true_and]
  refine ⟨fun hhigh => ?_, fun hhigh hlow => ?_⟩
  · refine lowSurrogate_sound m fun hex' low rest' hhex' hlow hrest' => ?_
    obtain ⟨c, hc⟩ := exists_toNat (n := 0x10000 + (first - 0xd800) * 0x400 + (low - 0xdc00))
      (.inr (by omega))
    rw [← hc, appendUtf8_eq]
    refine hQ (hex ++ backslash :: lowerU :: hex') _ rest' ⟨by rintro ⟨⟩, fun raw' s' h => ?_⟩ ?_
    · simpa using Chars.pair hhex hhex' hhigh hlow hc h
    · simpa [hrest] using hrest'
  · obtain ⟨c, rfl⟩ := exists_toNat (n := first) (by rw [Nat.isValidChar]; omega)
    rw [appendUtf8_eq]
    exact hQ hex _ rest ⟨by rintro ⟨⟩, fun raw' s' h => Chars.unicode hhex h⟩ hrest

theorem escape_sound {Q : Bytes → Scan → Prop}
    (hQ : ∀ raw bytes rest, IsEscape raw bytes → s.rest = raw ++ rest → Q bytes { s with rest }) :
    wp (escape m) Q Refuses s := by
  cases hs : s.rest with
  | nil => simp [escape, hs]
  | cons e rest =>
    cases he : simpleEscapes.lookup e with
    | some b =>
      have hmem : (e, b) ∈ simpleEscapes := by
        obtain ⟨l, r, h, -⟩ := lookup_eq_some_iff.mp he
        rw [h]
        exact mem_append_right _ mem_cons_self
      have := hQ [e] [b] rest ⟨nofun, fun raw' s' h => .escape hmem h⟩ hs
      simpa [escape, hs, he] using this
    | none =>
      by_cases hu : e = lowerU
      · subst hu
        have hcall : wp (unicodeEscape m) Q Refuses { s with rest } :=
          unicodeEscape_sound m fun raw bytes rest' h hrest =>
            hQ (lowerU :: raw) bytes rest' h (by rw [hs]; exact congrArg (lowerU :: ·) hrest)
        simpa [escape, hs, he] using hcall
      · simp [escape, hs, he, hu]

theorem validUtf8_iff {bytes : Bytes} :
    Trace.utf8Loop Trace.continuationChecks bytes = true ↔ Trace.WellFormedUtf8 bytes := by
  rw [Trace.continuationChecks_eq]
  refine ⟨Trace.wellFormed_of_utf8Loop bytes, ?_⟩
  rintro ⟨cs, rfl⟩
  exact Trace.utf8Loop_flatMap cs

theorem wp_stringLoop_cons {Q : Bytes → Scan → Prop} {E : Stop ε → Scan → Prop} {b : UInt8} {rest : Bytes}
    {k : Nat} (fuel : Nat) (output : Bytes) :
    wp (stringLoop m (fuel + 1) output) Q E ⟨b :: rest, k⟩ ↔
      if b = quote then
        if Trace.utf8Loop Trace.continuationChecks output then Q output ⟨rest, k⟩
        else E (.fail m.notUtf8) ⟨rest, k⟩
      else if b < 0x20 then E (.fail m.controlByte) ⟨rest, k⟩
      else if b ≠ backslash then wp (stringLoop m fuel (output ++ [b])) Q E ⟨rest, k⟩
      else wp (escape m) (fun bytes t => wp (stringLoop m fuel (output ++ bytes)) Q E t) E ⟨rest, k⟩ := by
  have hlength : ¬ (b :: rest).length < 1 := by simp
  have hstep : wp (stringLoop m (fuel + 1) output) Q E ⟨b :: rest, k⟩ ↔
      wp (if b = quote then
          if Trace.utf8Loop Trace.continuationChecks output then pure output else fail m.notUtf8
        else if b < 0x20 then fail m.controlByte
        else if b ≠ backslash then stringLoop m fuel (output ++ [b])
        else do
          let bytes ← escape m
          stringLoop m fuel (output ++ bytes)) Q E ⟨rest, k⟩ := by
    rw [stringLoop]
    simp only [wp_bind, wp_get]
    rw [if_neg (cons_ne_nil b rest)]
    simp only [wp_bind, wp_byteAt, wp_advance]
    simp
  rw [hstep]
  split_ifs <;> simp

theorem stringLoop_sound (fuel : Nat) : ∀ (output rest : Bytes) (k : Nat), rest.length < fuel →
    wp (stringLoop m fuel output) (fun out t => ∃ raw s', Chars raw s' ∧ rest = raw ++ quote :: t.rest ∧
      out = output ++ s' ∧ Trace.WellFormedUtf8 out ∧ t.nodes = k) Refuses ⟨rest, k⟩ := by
  induction fuel with
  | zero => exact fun _ _ _ h => absurd h (Nat.not_lt_zero _)
  | succ fuel ih =>
    intro output rest k hfuel
    cases rest with
    | nil => simp [stringLoop]
    | cons b rest =>
      rw [length_cons] at hfuel
      rw [wp_stringLoop_cons]
      split_ifs with hquote hutf8 hcontrol hplain
      · subst hquote
        exact ⟨[], [], .nil, rfl, (append_nil _).symm, validUtf8_iff.mp hutf8, rfl⟩
      · exact refuses_fail _ _
      · exact refuses_fail _ _
      · refine wp_mono (ih (output ++ [b]) rest k (by omega)) ?_ fun _ _ h => h
        rintro out t ⟨raw, s', hchars, rfl, rfl, hout, ht⟩
        refine ⟨b :: raw, b :: s', .plain (UInt8.not_lt.mp hcontrol) hquote hplain hchars, rfl, ?_, ?_, ht⟩
        · rw [append_assoc]
          rfl
        · exact hout
      · obtain rfl : b = backslash := not_not.mp hplain
        refine escape_sound m fun raw bytes rest' hescape hrest => ?_
        have hlength := congrArg List.length hrest
        rw [length_append] at hlength
        have hpos := length_pos_iff.mpr hescape.1
        refine wp_mono (ih (output ++ bytes) rest' k (by simp only at hlength; omega)) ?_ fun _ _ h => h
        rintro out t ⟨raw', s', hchars, rfl, rfl, hout, ht⟩
        refine ⟨backslash :: (raw ++ raw'), bytes ++ s', hescape.2 raw' s' hchars, ?_, ?_, hout, ht⟩
        · simpa using hrest
        · rw [append_assoc]

theorem string_sound (rest : Bytes) (k : Nat) :
    wp (string m) (fun out t => ∃ raw, Str raw out ∧ rest = raw ++ t.rest ∧ t.nodes = k) Refuses ⟨rest, k⟩ := by
  simp only [string, wp_bind, wp_take, wp_ite, wp_get]
  refine ⟨fun rest' hrest => ⟨fun _ => ?_, fun h => absurd trivial h⟩,
    fun _ => ⟨by rintro ⟨⟩, fun _ => ⟨_, rfl⟩⟩⟩
  refine wp_mono (stringLoop_sound m _ [] rest' k (Nat.lt_succ_self _)) ?_ fun _ _ h => h
  rintro out t ⟨raw, s', hchars, rfl, rfl, hout, ht⟩
  refine ⟨quote :: (raw ++ [quote]), .mk hchars hout, ?_, ht⟩
  rw [hrest]
  simp

/-! ## Every string is read -/

variable {Q : Bytes → Scan → Prop} {E : Stop ε → Scan → Prop} {k : Nat}

theorem escape_simple {e b : UInt8} {rest : Bytes} (he : (e, b) ∈ simpleEscapes) (hQ : Q [b] ⟨rest, k⟩) :
    wp (escape m) Q E ⟨e :: rest, k⟩ := by
  have hall : simpleEscapes.all (fun entry => simpleEscapes.lookup entry.1 == some entry.2) = true := by decide
  have hlookup : simpleEscapes.lookup e = some b := eq_of_beq (all_eq_true.mp hall _ he)
  simp [escape, hlookup, hQ]

theorem escape_unicode {hex rest : Bytes} {c : Char} (hhex : Hex4 hex c.toNat)
    (hQ : Q (String.utf8EncodeChar c) ⟨rest, k⟩) : wp (escape m) Q E ⟨lowerU :: (hex ++ rest), k⟩ := by
  have hvalid : c.toNat < 0xd800 ∨ 0xdfff < c.toNat ∧ c.toNat < 0x110000 := c.valid
  have hlookup : simpleEscapes.lookup lowerU = none := by decide
  have hcall : wp (unicodeEscape m) Q E ⟨hex ++ rest, k⟩ := by
    unfold unicodeEscape
    rw [wp_bind]
    refine hex4_complete m hhex ?_
    rw [if_neg (by omega), if_neg (by omega), appendUtf8_eq]
    exact hQ
  simpa [escape, hlookup] using hcall

theorem escape_pair {hex hex' rest : Bytes} {high low : Nat} {c : Char} (hhex : Hex4 hex high)
    (hhex' : Hex4 hex' low) (hhigh : 0xd800 ≤ high ∧ high ≤ 0xdbff) (hlow : 0xdc00 ≤ low ∧ low ≤ 0xdfff)
    (hc : c.toNat = 0x10000 + (high - 0xd800) * 0x400 + (low - 0xdc00))
    (hQ : Q (String.utf8EncodeChar c) ⟨rest, k⟩) :
    wp (escape m) Q E ⟨lowerU :: (hex ++ backslash :: lowerU :: (hex' ++ rest)), k⟩ := by
  have hlookup : simpleEscapes.lookup lowerU = none := by decide
  have hsecond : wp (hex4 m) (fun second t => wp (if second < 0xdc00 ∨ 0xdfff < second then
      fail m.lowSurrogateInvalid
      else pure (0x10000 + (high - 0xd800) <<< 10 + (second - 0xdc00)))
      (fun codepoint t => Q (appendUtf8 codepoint) t) E t) E ⟨hex' ++ rest, k⟩ := by
    refine hex4_complete m hhex' ?_
    rw [if_neg (by omega), wp_pure, Nat.shiftLeft_eq, ← hc, appendUtf8_eq]
    exact hQ
  have hcall : wp (unicodeEscape m) Q E ⟨hex ++ backslash :: lowerU :: (hex' ++ rest), k⟩ := by
    unfold unicodeEscape
    rw [wp_bind]
    refine hex4_complete m hhex ?_
    rw [if_pos hhigh]
    simpa [lowSurrogate] using hsecond
  simpa [escape, hlookup] using hcall

theorem stringLoop_complete {raw s' : Bytes} (h : Chars raw s') (rest : Bytes) :
    ∀ (fuel : Nat) (output : Bytes), raw.length < fuel → Trace.WellFormedUtf8 (output ++ s') →
      Q (output ++ s') ⟨rest, k⟩ → wp (stringLoop m fuel output) Q E ⟨raw ++ quote :: rest, k⟩ := by
  induction h with
  | nil =>
    intro fuel output hfuel hutf8 hQ
    obtain ⟨fuel, rfl⟩ : ∃ n, fuel = n + 1 := ⟨fuel - 1, by simp only [length_nil] at hfuel; omega⟩
    rw [append_nil] at hutf8 hQ
    rw [nil_append, wp_stringLoop_cons, if_pos rfl, if_pos (validUtf8_iff.mpr hutf8)]
    exact hQ
  | @plain b raw s' hcontrol hquote hbackslash _ ih =>
    intro fuel output hfuel hutf8 hQ
    obtain ⟨fuel, rfl⟩ : ∃ n, fuel = n + 1 := ⟨fuel - 1, by omega⟩
    rw [cons_append, wp_stringLoop_cons, if_neg hquote, if_neg (UInt8.not_lt.mpr hcontrol), if_pos hbackslash]
    refine ih fuel (output ++ [b]) (by simpa using hfuel) ?_ ?_ <;> simpa
  | @escape e b raw s' he _ ih =>
    intro fuel output hfuel hutf8 hQ
    obtain ⟨fuel, rfl⟩ : ∃ n, fuel = n + 1 := ⟨fuel - 1, by omega⟩
    rw [cons_append, wp_stringLoop_cons, if_neg (by decide), if_neg (by decide), if_neg (by decide)]
    refine escape_simple m he ?_
    simp only [length_cons] at hfuel
    refine ih fuel (output ++ [b]) (by omega) ?_ ?_ <;> simpa
  | @unicode hex raw s' c hhex _ ih =>
    intro fuel output hfuel hutf8 hQ
    obtain ⟨fuel, rfl⟩ : ∃ n, fuel = n + 1 := ⟨fuel - 1, by omega⟩
    rw [cons_append, wp_stringLoop_cons, if_neg (by decide), if_neg (by decide), if_neg (by decide)]
    simp only [length_cons, length_append] at hfuel
    rw [cons_append, append_assoc]
    refine escape_unicode m hhex (ih fuel _ (by omega) ?_ ?_) <;> simpa
  | @pair hex hex' raw s' high low c hhex hhex' hhigh hlow hc _ ih =>
    intro fuel output hfuel hutf8 hQ
    obtain ⟨fuel, rfl⟩ : ∃ n, fuel = n + 1 := ⟨fuel - 1, by omega⟩
    rw [cons_append, wp_stringLoop_cons, if_neg (by decide), if_neg (by decide), if_neg (by decide)]
    simp only [length_cons, length_append] at hfuel
    simp only [cons_append, append_assoc]
    refine escape_pair m hhex hhex' hhigh hlow hc (ih fuel _ (by omega) ?_ ?_) <;> simpa

theorem string_complete {raw s' : Bytes} (h : Str raw s') (rest : Bytes) (hQ : Q s' ⟨rest, k⟩) :
    wp (string m) Q E ⟨raw ++ rest, k⟩ := by
  cases h with
  | @mk raw s' hchars hutf8 =>
    have hcall := stringLoop_complete m (Q := Q) (E := E) (k := k) hchars rest
      ((raw ++ quote :: rest).length + 1) [] (by simp) hutf8 hQ
    simpa [string] using hcall

end Escapes

end Bravo.Strict
