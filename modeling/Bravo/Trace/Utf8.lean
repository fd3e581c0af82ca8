import Bravo.Trace.Snapshot

/-! # Well-formed UTF-8

The validators of `CP2Canonical.cpp`, `CP2StateTraceCodec.cpp`, `CP2RuntimeContext.cpp`,
`CP2RecordedAssemble.cpp` and `CP2OfflineReplay.cpp`. Each is one loop over the bytes that looks at
the first byte of a character and then at the one, two or three bytes behind it; the copies differ
in how they check these. All five accept exactly the concatenations of encoded characters, a `Char`
being a Unicode scalar value.
-/

namespace Bravo.Trace

/-! ## The loop and its copies -/

/-- What a validator asks of the bytes behind a first byte. -/
structure TailChecks where
  two : UInt8 → Bool
  three : UInt8 → UInt8 → UInt8 → Bool
  four : UInt8 → UInt8 → UInt8 → UInt8 → Bool

def utf8Loop (t : TailChecks) : List UInt8 → Bool
  | [] => true
  | first :: rest =>
    if first ≤ 0x7f then utf8Loop t rest
    else if 0xc2 ≤ first ∧ first ≤ 0xdf then
      match rest with
      | second :: rest => t.two second && utf8Loop t rest
      | _ => false
    else if 0xe0 ≤ first ∧ first ≤ 0xef then
      match rest with
      | second :: third :: rest => t.three first second third && utf8Loop t rest
      | _ => false
    else if 0xf0 ≤ first ∧ first ≤ 0xf4 then
      match rest with
      | second :: third :: fourth :: rest => t.four first second third fourth && utf8Loop t rest
      | _ => false
    else false
termination_by structural l => l

/-- Not `byte < low || byte > high`. -/
def within (low high byte : UInt8) : Bool := decide (low ≤ byte ∧ byte ≤ high)

def windowChecks : TailChecks where
  two second := within 0x80 0xbf second
  three first second third :=
    within 0x80 0xbf third &&
      (if first = 0xe0 then within 0xa0 0xbf second
        else if first = 0xed then within 0x80 0x9f second
        else within 0x80 0xbf second)
  four first second third fourth :=
    within 0x80 0xbf third && within 0x80 0xbf fourth &&
      (if first = 0xf0 then within 0x90 0xbf second
        else if first = 0xf4 then within 0x80 0x8f second
        else within 0x80 0xbf second)

def CP2CanonicalBuffer.isValidUtf8 (value : List UInt8) : Bool := utf8Loop windowChecks value

def isContinuation (value : UInt8) : Bool := value &&& 0xc0 == 0x80

/-- Every byte behind the first one is a continuation; what is overlong, a surrogate or too large
is excluded one by one. -/
def continuationChecks : TailChecks where
  two second := isContinuation second
  three first second third :=
    !(!isContinuation second || !isContinuation third || (first == 0xe0 && second < 0xa0) ||
      (first == 0xed && 0xa0 ≤ second))
  four first second third fourth :=
    !(!isContinuation second || !isContinuation third || !isContinuation fourth ||
      (first == 0xf0 && second < 0x90) || (first == 0xf4 && 0x90 ≤ second))

/-- `valid_utf8` of `CP2RuntimeContext.cpp` -/
def CP2RuntimeContext.validUtf8 (value : List UInt8) : Bool := utf8Loop continuationChecks value

/-- `valid_utf8` of `CP2RecordedAssemble.cpp` -/
def CP2RecordedAssemble.validUtf8 (value : List UInt8) : Bool := utf8Loop continuationChecks value

/-- `valid_utf8` of `CP2OfflineReplay.cpp` -/
def CP2OfflineReplay.validUtf8 (value : List UInt8) : Bool := utf8Loop continuationChecks value

/-! ## The checks agree -/

theorem within_eq_true {low high byte : UInt8} :
    within low high byte = true ↔ low.toNat ≤ byte.toNat ∧ byte.toNat ≤ high.toNat := by
  rw [within, decide_eq_true_eq, UInt8.le_iff_toNat_le, UInt8.le_iff_toNat_le]

set_option maxRecDepth 2000 in
theorem isContinuation_eq (b : UInt8) : isContinuation b = within 0x80 0xbf b := by
  have h : ∀ n < 256, isContinuation (UInt8.ofNat n) = within 0x80 0xbf (UInt8.ofNat n) := by decide
  have hb := h b.toNat b.toNat_lt
  rwa [UInt8.ofNat_toNat] at hb

def IsTail (byte : UInt8) : Prop := 0x80 ≤ byte.toNat ∧ byte.toNat ≤ 0xbf

section Checks

variable {first second third fourth : UInt8}

theorem windowChecks_two : windowChecks.two second = true ↔ IsTail second := within_eq_true

theorem windowChecks_three : windowChecks.three first second third = true ↔
    (IsTail second ∧ IsTail third) ∧ (first.toNat = 0xe0 → 0xa0 ≤ second.toNat) ∧
      (first.toNat = 0xed → second.toNat ≤ 0x9f) := by
  have he0 : first = 0xe0 ↔ first.toNat = 0xe0 := UInt8.toNat_inj.symm
  have hed : first = 0xed ↔ first.toNat = 0xed := UInt8.toNat_inj.symm
  simp only [windowChecks, Bool.and_eq_true, within_eq_true, IsTail, he0, hed]
  split
  · simp only [within_eq_true]
    simp
    omega
  · split
    · simp only [within_eq_true]
      simp
      omega
    · simp only [within_eq_true]
      simp
      omega

theorem windowChecks_four : windowChecks.four first second third fourth = true ↔
    (IsTail second ∧ IsTail third ∧ IsTail fourth) ∧ (first.toNat = 0xf0 → 0x90 ≤ second.toNat) ∧
      (first.toNat = 0xf4 → second.toNat ≤ 0x8f) := by
  have hf0 : first = 0xf0 ↔ first.toNat = 0xf0 := UInt8.toNat_inj.symm
  have hf4 : first = 0xf4 ↔ first.toNat = 0xf4 := UInt8.toNat_inj.symm
  simp only [windowChecks, Bool.and_eq_true, within_eq_true, IsTail, hf0, hf4]
  split
  · simp only [within_eq_true]
    simp
    omega
  · split
    · simp only [within_eq_true]
      simp
      omega
    · simp only [within_eq_true]
      simp
      omega

theorem continuationChecks_three : continuationChecks.three first second third = true ↔
    (IsTail second ∧ IsTail third) ∧ (first.toNat = 0xe0 → 0xa0 ≤ second.toNat) ∧
      (first.toNat = 0xed → second.toNat ≤ 0x9f) := by
  have he0 : first = 0xe0 ↔ first.toNat = 0xe0 := UInt8.toNat_inj.symm
  have hed : first = 0xed ↔ first.toNat = 0xed := UInt8.toNat_inj.symm
  simp [continuationChecks, isContinuation_eq, within_eq_true, IsTail, he0, hed, UInt8.lt_iff_toNat_lt,
    UInt8.le_iff_toNat_le]
  omega

theorem continuationChecks_four : continuationChecks.four first second third fourth = true ↔
    (IsTail second ∧ IsTail third ∧ IsTail fourth) ∧ (first.toNat = 0xf0 → 0x90 ≤ second.toNat) ∧
      (first.toNat = 0xf4 → second.toNat ≤ 0x8f) := by
  have hf0 : first = 0xf0 ↔ first.toNat = 0xf0 := UInt8.toNat_inj.symm
  have hf4 : first = 0xf4 ↔ first.toNat = 0xf4 := UInt8.toNat_inj.symm
  simp [continuationChecks, isContinuation_eq, within_eq_true, IsTail, hf0, hf4, UInt8.lt_iff_toNat_lt,
    UInt8.le_iff_toNat_le]
  omega

end Checks

theorem continuationChecks_eq : continuationChecks = windowChecks := by
  have htwo : continuationChecks.two = windowChecks.two := funext isContinuation_eq
  have hthree : continuationChecks.three = windowChecks.three := by
    funext first second third
    rw [Bool.eq_iff_iff, continuationChecks_three, windowChecks_three]
  have hfour : continuationChecks.four = windowChecks.four := by
    funext first second third fourth
    rw [Bool.eq_iff_iff, continuationChecks_four, windowChecks_four]
  calc continuationChecks
      = ⟨continuationChecks.two, continuationChecks.three, continuationChecks.four⟩ := rfl
    _ = ⟨windowChecks.two, windowChecks.three, windowChecks.four⟩ := by rw [htwo, hthree, hfour]
    _ = windowChecks := rfl

theorem validUtf8_eq_utf8Loop (value : List UInt8) : validUtf8 value = utf8Loop windowChecks value := by
  induction value using utf8Loop.induct with
  | case1 => rfl
  | case2 first rest h ih =>
    rw [validUtf8.eq_def, utf8Loop.eq_def]
    dsimp only
    rw [if_pos h, if_pos h, ih]
  | case3 first h h₂ second rest ih =>
    rw [validUtf8.eq_def, utf8Loop.eq_def]
    dsimp only
    rw [if_neg h, if_neg h, if_pos h₂, if_pos h₂, ih]
    rfl
  | case4 first rest h h₂ hrest =>
    rw [validUtf8.eq_def, utf8Loop.eq_def]
    dsimp only
    rw [if_neg h, if_neg h, if_pos h₂, if_pos h₂]
    rcases rest with _ | ⟨second, rest⟩
    · rfl
    · exact absurd rfl (hrest second rest)
  | case5 first h h₂ h₃ second third rest ih =>
    rw [validUtf8.eq_def, utf8Loop.eq_def]
    dsimp only
    rw [if_neg h, if_neg h, if_neg h₂, if_neg h₂, if_pos h₃, if_pos h₃, ih]
    rfl
  | case6 first rest h h₂ h₃ hrest =>
    rw [validUtf8.eq_def, utf8Loop.eq_def]
    dsimp only
    rw [if_neg h, if_neg h, if_neg h₂, if_neg h₂, if_pos h₃, if_pos h₃]
    rcases rest with _ | ⟨second, _ | ⟨third, rest⟩⟩
    · rfl
    · rfl
    · exact absurd rfl (hrest second third rest)
  | case7 first h h₂ h₃ h₄ second third fourth rest ih =>
    rw [validUtf8.eq_def, utf8Loop.eq_def]
    dsimp only
    rw [if_neg h, if_neg h, if_neg h₂, if_neg h₂, if_neg h₃, if_neg h₃, if_pos h₄, if_pos h₄, ih]
    rfl
  | case8 first rest h h₂ h₃ h₄ hrest =>
    rw [validUtf8.eq_def, utf8Loop.eq_def]
    dsimp only
    rw [if_neg h, if_neg h, if_neg h₂, if_neg h₂, if_neg h₃, if_neg h₃, if_pos h₄, if_pos h₄]
    rcases rest with _ | ⟨second, _ | ⟨third, _ | ⟨fourth, rest⟩⟩⟩
    · rfl
    · rfl
    · rfl
    · exact absurd rfl (hrest second third fourth rest)
  | case9 first rest h h₂ h₃ h₄ =>
    rw [validUtf8.eq_def, utf8Loop.eq_def]
    dsimp only
    rw [if_neg h, if_neg h, if_neg h₂, if_neg h₂, if_neg h₃, if_neg h₃, if_neg h₄, if_neg h₄]

/-! ## Encoded characters -/

section Characters

variable {t : TailChecks} {first second third fourth : UInt8} {rest : List UInt8}

theorem byte_range {low high : UInt8} :
    low ≤ first ∧ first ≤ high ↔ low.toNat ≤ first.toNat ∧ first.toNat ≤ high.toNat := by
  rw [UInt8.le_iff_toNat_le, UInt8.le_iff_toNat_le]

theorem utf8Loop_one (h : first.toNat ≤ 0x7f) : utf8Loop t (first :: rest) = utf8Loop t rest := by
  have h₁ : first ≤ 0x7f := UInt8.le_iff_toNat_le.mpr h
  rw [utf8Loop.eq_def]
  exact if_pos h₁

theorem utf8Loop_two (h : 0xc2 ≤ first.toNat ∧ first.toNat ≤ 0xdf) :
    utf8Loop t (first :: second :: rest) = (t.two second && utf8Loop t rest) := by
  have h₁ : ¬ first ≤ 0x7f := by
    rw [UInt8.le_iff_toNat_le]
    exact fun hle => absurd (le_trans h.1 hle) (by decide)
  have h₂ : 0xc2 ≤ first ∧ first ≤ 0xdf := byte_range.mpr h
  rw [utf8Loop.eq_def]
  exact (if_neg h₁).trans (if_pos h₂)

theorem utf8Loop_three (h : 0xe0 ≤ first.toNat ∧ first.toNat ≤ 0xef) :
    utf8Loop t (first :: second :: third :: rest) = (t.three first second third && utf8Loop t rest) := by
  have h₁ : ¬ first ≤ 0x7f := by
    rw [UInt8.le_iff_toNat_le]
    exact fun hle => absurd (le_trans h.1 hle) (by decide)
  have h₂ : ¬ (0xc2 ≤ first ∧ first ≤ 0xdf) := by
    rw [byte_range]
    exact fun hle => absurd (le_trans h.1 hle.2) (by decide)
  have h₃ : 0xe0 ≤ first ∧ first ≤ 0xef := byte_range.mpr h
  rw [utf8Loop.eq_def]
  exact (if_neg h₁).trans ((if_neg h₂).trans (if_pos h₃))

theorem utf8Loop_four (h : 0xf0 ≤ first.toNat ∧ first.toNat ≤ 0xf4) :
    utf8Loop t (first :: second :: third :: fourth :: rest) =
      (t.four first second third fourth && utf8Loop t rest) := by
  have h₁ : ¬ first ≤ 0x7f := by
    rw [UInt8.le_iff_toNat_le]
    exact fun hle => absurd (le_trans h.1 hle) (by decide)
  have h₂ : ¬ (0xc2 ≤ first ∧ first ≤ 0xdf) := by
    rw [byte_range]
    exact fun hle => absurd (le_trans h.1 hle.2) (by decide)
  have h₃ : ¬ (0xe0 ≤ first ∧ first ≤ 0xef) := by
    rw [byte_range]
    exact fun hle => absurd (le_trans h.1 hle.2) (by decide)
  have h₄ : 0xf0 ≤ first ∧ first ≤ 0xf4 := byte_range.mpr h
  rw [utf8Loop.eq_def]
  exact (if_neg h₁).trans ((if_neg h₂).trans ((if_neg h₃).trans (if_pos h₄)))

theorem exists_char {n : Nat} (h : n.isValidChar) : ∃ c : Char, c.val.toNat = n := ⟨Char.ofNatAux n h, rfl⟩

theorem ofNat_eq {n : Nat} (byte : UInt8) (h : n = byte.toNat) : UInt8.ofNat n = byte := by
  rw [h, UInt8.ofNat_toNat]

theorem exists_char_one (h : first.toNat ≤ 0x7f) : ∃ c, String.utf8EncodeChar c = [first] := by
  obtain ⟨c, hc⟩ := exists_char (n := first.toNat) (by left; omega)
  refine ⟨c, ?_⟩
  dsimp only [String.utf8EncodeChar]
  rw [hc, if_pos h, UInt8.ofNat_toNat]

theorem exists_char_two (h : 0xc2 ≤ first.toNat ∧ first.toNat ≤ 0xdf) (hsecond : IsTail second) :
    ∃ c, String.utf8EncodeChar c = [first, second] := by
  unfold IsTail at hsecond
  obtain ⟨c, hc⟩ := exists_char (n := (first.toNat - 0xc0) * 64 + (second.toNat - 0x80)) (by left; omega)
  refine ⟨c, ?_⟩
  dsimp only [String.utf8EncodeChar]
  rw [hc, if_neg (by omega), if_pos (by omega), ofNat_eq first (by omega), ofNat_eq second (by omega)]

theorem exists_char_three (h : 0xe0 ≤ first.toNat ∧ first.toNat ≤ 0xef)
    (hchecks : windowChecks.three first second third = true) :
    ∃ c, String.utf8EncodeChar c = [first, second, third] := by
  obtain ⟨⟨hsecond, hthird⟩, hoverlong, hsurrogate⟩ := windowChecks_three.mp hchecks
  unfold IsTail at hsecond hthird
  obtain ⟨c, hc⟩ := exists_char (n := (first.toNat - 0xe0) * 4096 + (second.toNat - 0x80) * 64 +
    (third.toNat - 0x80)) (by
      rw [Nat.isValidChar]
      omega)
  refine ⟨c, ?_⟩
  dsimp only [String.utf8EncodeChar]
  rw [hc, if_neg (by omega), if_neg (by omega), if_pos (by omega), ofNat_eq first (by omega),
    ofNat_eq second (by omega), ofNat_eq third (by omega)]

theorem exists_char_four (h : 0xf0 ≤ first.toNat ∧ first.toNat ≤ 0xf4)
    (hchecks : windowChecks.four first second third fourth = true) :
    ∃ c, String.utf8EncodeChar c = [first, second, third, fourth] := by
  obtain ⟨⟨hsecond, hthird, hfourth⟩, hoverlong, hlarge⟩ := windowChecks_four.mp hchecks
  unfold IsTail at hsecond hthird hfourth
  obtain ⟨c, hc⟩ := exists_char (n := (first.toNat - 0xf0) * 262144 + (second.toNat - 0x80) * 4096 +
    (third.toNat - 0x80) * 64 + (fourth.toNat - 0x80)) (by
      rw [Nat.isValidChar]
      omega)
  refine ⟨c, ?_⟩
  dsimp only [String.utf8EncodeChar]
  rw [hc, if_neg (by omega), if_neg (by omega), if_neg (by omega), ofNat_eq first (by omega),
    ofNat_eq second (by omega), ofNat_eq third (by omega), ofNat_eq fourth (by omega)]

theorem byte_toNat {n : Nat} (h : n < 256) : (UInt8.ofNat n).toNat = n := by
  rw [UInt8.toNat_ofNat']
  exact Nat.mod_eq_of_lt h

theorem utf8Loop_char (c : Char) (rest : List UInt8) :
    utf8Loop windowChecks (String.utf8EncodeChar c ++ rest) = utf8Loop windowChecks rest := by
  have hvalid : c.val.toNat < 0xd800 ∨ 0xdfff < c.val.toNat ∧ c.val.toNat < 0x110000 := c.valid
  dsimp only [String.utf8EncodeChar]
  generalize c.val.toNat = v at hvalid
  by_cases h₁ : v ≤ 0x7f
  · rw [if_pos h₁]
    exact utf8Loop_one (by rw [byte_toNat (by omega)]; exact h₁)
  rw [if_neg h₁]
  by_cases h₂ : v ≤ 0x7ff
  · rw [if_pos h₂]
    have hfirst := byte_toNat (n := v / 64 % 0x20 + 0xc0) (by omega)
    have hsecond := byte_toNat (n := v % 0x40 + 0x80) (by omega)
    have hchecks : windowChecks.two (UInt8.ofNat (v % 0x40 + 0x80)) = true := by
      rw [windowChecks_two, IsTail, hsecond]
      omega
    refine (utf8Loop_two (by rw [hfirst]; omega)).trans ?_
    rw [hchecks, Bool.true_and]
    rfl
  rw [if_neg h₂]
  by_cases h₃ : v ≤ 0xffff
  · rw [if_pos h₃]
    have hfirst := byte_toNat (n := v / 4096 % 0x10 + 0xe0) (by omega)
    have hsecond := byte_toNat (n := v / 64 % 0x40 + 0x80) (by omega)
    have hthird := byte_toNat (n := v % 0x40 + 0x80) (by omega)
    have hchecks : windowChecks.three (UInt8.ofNat (v / 4096 % 0x10 + 0xe0))
        (UInt8.ofNat (v / 64 % 0x40 + 0x80)) (UInt8.ofNat (v % 0x40 + 0x80)) = true := by
      rw [windowChecks_three, IsTail, IsTail, hfirst, hsecond, hthird]
      omega
    refine (utf8Loop_three (by rw [hfirst]; omega)).trans ?_
    rw [hchecks, Bool.true_and]
    rfl
  · rw [if_neg h₃]
    have hfirst := byte_toNat (n := v / 262144 % 0x08 + 0xf0) (by omega)
    have hsecond := byte_toNat (n := v / 4096 % 0x40 + 0x80) (by omega)
    have hthird := byte_toNat (n := v / 64 % 0x40 + 0x80) (by omega)
    have hfourth := byte_toNat (n := v % 0x40 + 0x80) (by omega)
    have hchecks : windowChecks.four (UInt8.ofNat (v / 262144 % 0x08 + 0xf0))
        (UInt8.ofNat (v / 4096 % 0x40 + 0x80)) (UInt8.ofNat (v / 64 % 0x40 + 0x80))
        (UInt8.ofNat (v % 0x40 + 0x80)) = true := by
      rw [windowChecks_four, IsTail, IsTail, IsTail, hfirst, hsecond, hthird, hfourth]
      omega
    refine (utf8Loop_four (by rw [hfirst]; omega)).trans ?_
    rw [hchecks, Bool.true_and]
    rfl

end Characters

/-! ## The validators -/

def WellFormedUtf8 (bytes : List UInt8) : Prop := ∃ cs : List Char, bytes = cs.flatMap String.utf8EncodeChar

theorem WellFormedUtf8.cons {bytes rest : List UInt8} (h : WellFormedUtf8 rest)
    (hc : ∃ c, String.utf8EncodeChar c = bytes) : WellFormedUtf8 (bytes ++ rest) := by
  obtain ⟨c, rfl⟩ := hc
  obtain ⟨cs, rfl⟩ := h
  exact ⟨c :: cs, rfl⟩

theorem utf8Loop_flatMap (cs : List Char) :
    utf8Loop windowChecks (cs.flatMap String.utf8EncodeChar) = true := by
  induction cs with
  | nil => rfl
  | cons c cs ih =>
    rw [List.flatMap_cons, utf8Loop_char]
    exact ih

theorem wellFormed_of_utf8Loop (bytes : List UInt8) :
    utf8Loop windowChecks bytes = true → WellFormedUtf8 bytes := by
  induction bytes using utf8Loop.induct with
  | case1 => exact fun _ => ⟨[], rfl⟩
  | case2 first rest h ih =>
    intro hloop
    have hfirst : first.toNat ≤ 0x7f := UInt8.le_iff_toNat_le.mp h
    rw [utf8Loop_one hfirst] at hloop
    exact (ih hloop).cons (exists_char_one hfirst)
  | case3 first h h₂ second rest ih =>
    intro hloop
    have hfirst := byte_range.mp h₂
    rw [utf8Loop_two hfirst, Bool.and_eq_true] at hloop
    exact (ih hloop.2).cons (exists_char_two hfirst (windowChecks_two.mp hloop.1))
  | case5 first h h₂ h₃ second third rest ih =>
    intro hloop
    have hfirst := byte_range.mp h₃
    rw [utf8Loop_three hfirst, Bool.and_eq_true] at hloop
    exact (ih hloop.2).cons (exists_char_three hfirst hloop.1)
  | case7 first h h₂ h₃ h₄ second third fourth rest ih =>
    intro hloop
    have hfirst := byte_range.mp h₄
    rw [utf8Loop_four hfirst, Bool.and_eq_true] at hloop
    exact (ih hloop.2).cons (exists_char_four hfirst hloop.1)
  -- a character that is cut short, or no first byte at all
  | case4 first rest h h₂ hrest =>
    rw [utf8Loop.eq_def]
    dsimp only
    rw [if_neg h, if_pos h₂]
    rcases rest with _ | ⟨second, rest⟩
    · intro hloop
      cases hloop
    · exact absurd rfl (hrest second rest)
  | case6 first rest h h₂ h₃ hrest =>
    rw [utf8Loop.eq_def]
    dsimp only
    rw [if_neg h, if_neg h₂, if_pos h₃]
    rcases rest with _ | ⟨second, _ | ⟨third, rest⟩⟩
    · intro hloop
      cases hloop
    · intro hloop
      cases hloop
    · exact absurd rfl (hrest second third rest)
  | case8 first rest h h₂ h₃ h₄ hrest =>
    rw [utf8Loop.eq_def]
    dsimp only
    rw [if_neg h, if_neg h₂, if_neg h₃, if_pos h₄]
    rcases rest with _ | ⟨second, _ | ⟨third, _ | ⟨fourth, rest⟩⟩⟩
    · intro hloop
      cases hloop
    · intro hloop
      cases hloop
    · intro hloop
      cases hloop
    · exact absurd rfl (hrest second third fourth rest)
  | case9 first rest h h₂ h₃ h₄ =>
    rw [utf8Loop.eq_def]
    dsimp only
    rw [if_neg h, if_neg h₂, if_neg h₃, if_neg h₄]
    intro hloop
    cases hloop

/-- Every validator accepts exactly well-formed UTF-8. -/
theorem utf8_validators_exact (value : List UInt8) :
    (CP2CanonicalBuffer.isValidUtf8 value = true ↔ WellFormedUtf8 value) ∧
      validUtf8 value = CP2CanonicalBuffer.isValidUtf8 value ∧
      CP2RuntimeContext.validUtf8 value = CP2CanonicalBuffer.isValidUtf8 value ∧
      CP2RecordedAssemble.validUtf8 value = CP2CanonicalBuffer.isValidUtf8 value ∧
      CP2OfflineReplay.validUtf8 value = CP2CanonicalBuffer.isValidUtf8 value := by
  have hcopy : utf8Loop continuationChecks value = utf8Loop windowChecks value := by
    rw [continuationChecks_eq]
  refine ⟨⟨wellFormed_of_utf8Loop value, ?_⟩, validUtf8_eq_utf8Loop value, hcopy, hcopy, hcopy⟩
  rintro ⟨cs, rfl⟩
  exact utf8Loop_flatMap cs

end Bravo.Trace
