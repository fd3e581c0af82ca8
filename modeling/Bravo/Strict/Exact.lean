import Bravo.Strict.Flat

/-! # The parsers accept exactly their grammar

The whole documents, and the writers of JSON strings: what `json_quote` and `json_string` write is a
string in its quotes that denotes what they were given.
-/

namespace Bravo.Strict

/-! ## Documents -/

section Documents

variable {ε F : Type} (m : Messages ε) (read : Bytes → Option F) (bounds : Bounds)

theorem parse_sound (input : Bytes) :
    wp (parse m read bounds (rounds input)) (fun v _ => Document read bounds input v) Refuses ⟨input, 0⟩ := by
  obtain ⟨w, hw, hsplit⟩ := exists_blank input
  have hlength := length_dropWhile_le input
  simp only [parse, wp_bind, wp_skip]
  refine wp_mono ((sound m read bounds _).value 0 (input.dropWhile isBlank) 0 (by unfold rounds; omega)
    (Nat.zero_le _)) ?_ fun _ _ h => h
  rintro v ⟨rest, k⟩ ⟨raw, n, htext, hrest, rfl, hle⟩
  simp only [wp_get, wp_ite, wp_pure, wp_fail, refuses_fail, implies_true, and_true]
  intro hend
  refine ⟨w, raw, rest, n, ?_, hw, blank_of_dropWhile hend, by simpa using hle, htext⟩
  rw [← hsplit, hrest]

theorem parse_complete {input : Bytes} {v : JsonValue F} (h : Document read bounds input v) :
    wp (parse m read bounds (rounds input)) (fun v' _ => v' = v) (fun _ _ => False) ⟨input, 0⟩ := by
  obtain ⟨w, raw, w', n, rfl, hw, hw', hn, htext⟩ := h
  have hskip : (w ++ (raw ++ w')).dropWhile isBlank = raw ++ w' := dropWhile_blank hw (htext.endsBlank w')
  have hends : Ends w' := by
    have hnil : Ends ([] : Bytes) := by rintro _ ⟨⟩
    simpa using ends_blank hw' hnil
  simp only [parse, wp_bind, wp_skip, hskip]
  refine value_complete m htext _ w' 0 _ _ ?_ hends (by omega) ?_
  · simp only [rounds, List.length_append]
    omega
  · simp [dropWhile_of_blank hw']

end Documents

theorem outcome_exact {ε α : Type} {x : Parser ε α} {input : Bytes} {Accepts : α → Prop}
    (hsound : wp x (fun v _ => Accepts v) Refuses ⟨input, 0⟩)
    (hcomplete : ∀ v, Accepts v → wp x (fun v' _ => v' = v) (fun _ _ => False) ⟨input, 0⟩) :
    (∀ v, outcome x input = .ok v ↔ Accepts v) ∧
      ((∃ v, outcome x input = .ok v) ∨ ∃ message, outcome x input = .error (.fail message)) := by
  unfold wp at hsound hcomplete
  unfold outcome
  cases hrun : x.run ⟨input, 0⟩ with
  | ok v t =>
    simp only [hrun] at hsound hcomplete
    refine ⟨fun v' => ⟨?_, fun hv' => ?_⟩, .inl ⟨v, rfl⟩⟩
    · rintro h
      obtain rfl := Except.ok.inj h
      exact hsound
    · rw [hcomplete v' hv']
  | error e t =>
    simp only [hrun] at hsound hcomplete
    obtain ⟨message, rfl⟩ := hsound
    exact ⟨fun v' => ⟨nofun, fun hv' => (hcomplete v' hv').elim⟩, .inr ⟨message, rfl⟩⟩

/-! ## The writers of strings -/

/-- `hex[i]` -/
def hexChar (i : Nat) : UInt8 :=
  [0x30, 0x31, 0x32, 0x33, 0x34, 0x35, 0x36, 0x37, 0x38, 0x39, 0x61, 0x62, 0x63, 0x64, 0x65, 0x66].getD i 0

def escapeByte (byte : UInt8) : Bytes :=
  if byte = 0x22 then [0x5c, 0x22]
  else if byte = 0x5c then [0x5c, 0x5c]
  else if byte = 0x08 then [0x5c, 0x62]
  else if byte = 0x0c then [0x5c, 0x66]
  else if byte = 0x0a then [0x5c, 0x6e]
  else if byte = 0x0d then [0x5c, 0x72]
  else if byte = 0x09 then [0x5c, 0x74]
  else if byte < 0x20 then
    [0x5c, 0x75, 0x30, 0x30, hexChar (byte >>> 4).toNat, hexChar (byte &&& 0x0f).toNat]
  else [byte]

/-- `json_string` of `CP2OfflineReplay.cpp` and of `CP2SerialRuntimeTrace.cpp`. -/
def jsonString (value : Bytes) : Bytes := quote :: (value.flatMap escapeByte ++ [quote])

/-- `json_quote` of `CP2RecordedAssemble.cpp`, which throws on what is not UTF-8. -/
def CP2RecordedAssemble.jsonQuote (value : Bytes) : Option Bytes :=
  if Trace.CP2RecordedAssemble.validUtf8 value then some (jsonString value) else none

theorem hexDigit_hexChar {i : Nat} (h : i < 16) : hexDigit (hexChar i) = some i := by
  have hall : ∀ i < 16, hexDigit (hexChar i) = some i := by decide
  exact hall i h

theorem Chars.escapeByte {raw s : Bytes} (byte : UInt8) (h : Chars raw s) :
    Chars (Strict.escapeByte byte ++ raw) (byte :: s) := by
  unfold Strict.escapeByte
  split_ifs with h₁ h₂ h₃ h₄ h₅ h₆ h₇ hcontrol
  · subst h₁
    exact .escape (by decide) h
  · subst h₂
    exact .escape (by decide) h
  · subst h₃
    exact .escape (by decide) h
  · subst h₄
    exact .escape (by decide) h
  · subst h₅
    exact .escape (by decide) h
  · subst h₆
    exact .escape (by decide) h
  · subst h₇
    exact .escape (by decide) h
  · have hlt : byte.toNat < 0x20 := UInt8.lt_iff_toNat_lt.mp hcontrol
    have hhigh : (byte >>> 4).toNat = byte.toNat / 16 := by
      rw [UInt8.toNat_shiftRight]
      exact Nat.shiftRight_eq_div_pow _ 4
    have hlow : (byte &&& 0x0f).toNat = byte.toNat % 16 := by
      rw [UInt8.toNat_and]
      exact Nat.and_two_pow_sub_one_eq_mod _ 4
    obtain ⟨c, hc⟩ := exists_toNat (n := byte.toNat) (.inl (by omega))
    have hencode : String.utf8EncodeChar c = [byte] := by
      have hval : c.val.toNat = byte.toNat := hc
      dsimp only [String.utf8EncodeChar]
      rw [hval, if_pos (by omega), UInt8.ofNat_toNat]
    have hhex : Hex4 [0x30, 0x30, hexChar (byte >>> 4).toNat, hexChar (byte &&& 0x0f).toNat] c.toNat := by
      have hsum : ((0 * 16 + 0) * 16 + byte.toNat / 16) * 16 + byte.toNat % 16 = c.toNat := by omega
      rw [← hsum, hhigh, hlow]
      exact .mk (by decide) (by decide) (hexDigit_hexChar (by omega)) (hexDigit_hexChar (by omega))
    simpa [hencode] using Chars.unicode hhex h
  · exact .plain (UInt8.not_lt.mp hcontrol) h₁ h₂ h

theorem str_jsonString {s : Bytes} (h : Trace.WellFormedUtf8 s) : Str (jsonString s) s := by
  refine .mk ?_ h
  clear h
  induction s with
  | nil => exact .nil
  | cons b s ih => exact ih.escapeByte b

theorem document_jsonString {F : Type} (read : Bytes → Option F) {s : Bytes} (h : Trace.WellFormedUtf8 s) :
    Document read jsonBounds (jsonString s) (.string s) :=
  ⟨[], jsonString s, [], 1, by simp, Blank.nil, Blank.nil, by decide,
    .string (Nat.zero_le _) (str_jsonString h)⟩

theorem outcome_string {ε : Type} (m : Messages ε) {s : Bytes} (h : Trace.WellFormedUtf8 s) :
    outcome (string m) (jsonString s) = .ok s := by
  have hcall := string_complete m (Q := fun out _ => out = s) (E := fun _ _ => False) (k := 0)
    (str_jsonString h) [] rfl
  rw [List.append_nil] at hcall
  unfold wp at hcall
  unfold outcome
  cases hrun : (string m).run ⟨jsonString s, 0⟩ with
  | ok v t =>
    simp only [hrun] at hcall
    rw [hcall]
  | error e t =>
    simp only [hrun] at hcall

/-- The strict parsers take exactly the documents of their grammar and return what they denote, neither
read out of bounds nor loop, and undo the writers of strings. -/
theorem strict_parsers_exact {F : Type} (read : Bytes → Option F) (input : Bytes) :
    (∀ v, CP2RecordedAssemble.parseJson read input = .ok v ↔ Document read jsonBounds input v) ∧
      (∀ v, CP2OfflineReplay.parseJson read input = .ok v ↔ Document read jsonBounds input v) ∧
      (∀ out, CP2RuntimeContext.parseObject input = .ok out ↔ FlatDocument input out) ∧
      ((∃ v, CP2RecordedAssemble.parseJson read input = .ok v) ∨
        ∃ message, CP2RecordedAssemble.parseJson read input = .error (.fail message)) ∧
      ((∃ v, CP2OfflineReplay.parseJson read input = .ok v) ∨
        ∃ message, CP2OfflineReplay.parseJson read input = .error (.fail message)) ∧
      ((∃ out, CP2RuntimeContext.parseObject input = .ok out) ∨
        ∃ status, CP2RuntimeContext.parseObject input = .error (.fail status)) ∧
      ∀ s, Trace.WellFormedUtf8 s →
        CP2RecordedAssemble.jsonQuote s = some (jsonString s) ∧
        outcome (string recordedMessages) (jsonString s) = .ok s ∧
        outcome (string replayMessages) (jsonString s) = .ok s ∧
        outcome (string CP2RuntimeContext.messages) (jsonString s) = .ok s ∧
        CP2RecordedAssemble.parseJson read (jsonString s) = .ok (.string s) ∧
        CP2OfflineReplay.parseJson read (jsonString s) = .ok (.string s) := by
  have hrecorded := fun input => outcome_exact (parse_sound recordedMessages read jsonBounds input)
    fun v => parse_complete recordedMessages read jsonBounds
  have hreplay := fun input => outcome_exact (parse_sound replayMessages read jsonBounds input)
    fun v => parse_complete replayMessages read jsonBounds
  have hflat := outcome_exact (CP2RuntimeContext.parse_sound input) fun out =>
    CP2RuntimeContext.parse_complete
  refine ⟨(hrecorded input).1, (hreplay input).1, hflat.1, (hrecorded input).2, (hreplay input).2, hflat.2,
    fun s hs => ⟨?_, outcome_string _ hs, outcome_string _ hs, outcome_string _ hs,
      ((hrecorded _).1 _).mpr (document_jsonString read hs),
      ((hreplay _).1 _).mpr (document_jsonString read hs)⟩⟩
  exact if_pos (validUtf8_iff.mpr hs)

theorem strict_parsers_exact_letter :
    CP2RecordedAssemble.parseJson (fun _ => (none : Option Unit)) (jsonString [0x41]) = .ok (.string [0x41]) :=
  ((strict_parsers_exact (fun _ => (none : Option Unit)) []).2.2.2.2.2.2 [0x41] ⟨['A'], by decide⟩).2.2.2.2.1

end Bravo.Strict
