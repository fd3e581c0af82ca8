import Bravo.Strict.Strings

/-! # Reading numbers

The parsers take as many digits as there are, so a number is read where nothing stands behind it that
could go on with it (`Ends`). The sum of the digits is kept below `2 ^ 64` before it is formed.
-/

namespace Bravo.Strict

open List

/-! ## Digits -/

def EndsDigits (rest : Bytes) : Prop := ∀ b, rest.head? = some b → isDigit b = false

def Ends (rest : Bytes) : Prop :=
  ∀ b, rest.head? = some b → isDigit b = false ∧ b ≠ point ∧ b ≠ lowerE ∧ b ≠ upperE

theorem Ends.digits {rest : Bytes} (h : Ends rest) : EndsDigits rest := fun b hb => (h b hb).1

theorem endsDigits_cons {b : UInt8} {rest : Bytes} (h : isDigit b = false) : EndsDigits (b :: rest) := by
  rintro c hc
  obtain rfl : b = c := by simpa using hc
  exact h

theorem takeWhile_all {p : UInt8 → Bool} {rest : Bytes} : ∀ b ∈ rest.takeWhile p, p b = true := fun b hb => by
  simpa using all_eq_true.mp all_takeWhile b hb

theorem digits_takeWhile (rest : Bytes) : Digits (rest.takeWhile isDigit) := takeWhile_all

theorem dropWhile_digits {ds rest : Bytes} (hds : Digits ds) (hrest : EndsDigits rest) :
    (ds ++ rest).dropWhile isDigit = rest := by
  rw [dropWhile_append_of_pos hds]
  cases rest with
  | nil => rfl
  | cons b rest => simp [hrest b rfl]

theorem isDigit_iff {b : UInt8} : isDigit b = true ↔ 0x30 ≤ b.toNat ∧ b.toNat ≤ 0x39 := by
  simp [isDigit, UInt8.le_iff_toNat_le]

theorem isDigit_of_range {b : UInt8} (h : 0x31 ≤ b ∧ b ≤ 0x39) : isDigit b = true := by
  simp only [UInt8.le_iff_toNat_le] at h
  have h₁ : 0x31 ≤ b.toNat := h.1
  have h₂ : b.toNat ≤ 0x39 := h.2
  exact isDigit_iff.mpr ⟨by omega, h₂⟩

theorem take_sub_length (raw rest : Bytes) :
    (raw ++ rest).take ((raw ++ rest).length - rest.length) = raw := by
  rw [length_append, Nat.add_sub_cancel, take_left]

/-! ## Sums of digits -/

theorem le_decimalFrom (ds : Bytes) : ∀ n, n ≤ decimalFrom n ds := by
  induction ds with
  | nil => exact fun n => le_refl n
  | cons b ds ih =>
    intro n
    calc n ≤ n * 10 + (b.toNat - 0x30) := by omega
      _ ≤ decimalFrom (n * 10 + (b.toNat - 0x30)) ds := ih _
      _ = decimalFrom n (b :: ds) := rfl

theorem magnitude_eq (ds : Bytes) : ∀ n < 2 ^ 64, Digits ds →
    magnitude n ds = if decimalFrom n ds < 2 ^ 64 then some (decimalFrom n ds) else none := by
  induction ds with
  | nil =>
    intro n hn _
    rw [magnitude]
    exact (if_pos hn).symm
  | cons b ds ih =>
    intro n hn hds
    have hb := isDigit_iff.mp (hds b mem_cons_self)
    rw [magnitude]
    by_cases hover : (2 ^ 64 - 1 - (b.toNat - 0x30)) / 10 < n
    · have hle := le_decimalFrom ds (n * 10 + (b.toNat - 0x30))
      have hbig : ¬ decimalFrom n (b :: ds) < 2 ^ 64 := by
        change ¬ decimalFrom (n * 10 + (b.toNat - 0x30)) ds < 2 ^ 64
        omega
      rw [if_neg hbig]
      exact if_pos hover
    · refine (if_neg hover).trans ?_
      exact ih _ (by omega) fun c hc => hds c (mem_cons_of_mem b hc)

/-! ## The parts of a number -/

section Parts

variable {ε F : Type} (m : Messages ε) {k : Nat}

theorem integerPart_sound (rest : Bytes) :
    wp (integerPart m) (fun _ t => ∃ int, Integer int ∧ rest = int ++ t.rest ∧ t.nodes = k) Refuses
      ⟨rest, k⟩ := by
  cases rest with
  | nil => simp [integerPart]
  | cons b rest =>
    by_cases hzero : b = 0x30
    · subst hzero
      have hzero : ∃ int, Integer int ∧ (0x30 : UInt8) :: rest = int ++ rest := ⟨[0x30], .zero, rfl⟩
      simp [integerPart, hzero]
    · by_cases hrange : 0x31 ≤ b ∧ b ≤ 0x39
      · have hdigit := isDigit_of_range hrange
        have hint : ∃ int, Integer int ∧ b :: rest = int ++ rest.dropWhile isDigit :=
          ⟨b :: rest.takeWhile isDigit, .digits hrange (digits_takeWhile rest), by simp⟩
        simpa [integerPart, hzero, hrange, hdigit] using hint
      · have hrefuse : (0x31 ≤ b → b ≤ 0x39 → False) := fun h h' => hrange ⟨h, h'⟩
        simp [integerPart, hzero]
        exact fun h h' => (hrefuse h h').elim

variable {E : Stop ε → Scan → Prop}

theorem integerPart_complete {Q : Unit → Scan → Prop} {int rest : Bytes}
    (h : Integer int) (hrest : EndsDigits rest) (hQ : Q ⟨⟩ ⟨rest, k⟩) :
    wp (integerPart m) Q E ⟨int ++ rest, k⟩ := by
  cases h with
  | zero =>
    cases rest with
    | nil => simp [integerPart, hQ]
    | cons b rest => simp [integerPart, hrest b rfl, hQ]
  | @digits d ds hd hds =>
    have hzero : d ≠ 0x30 := by
      rintro rfl
      exact absurd hd.1 (by decide)
    have hdigit := isDigit_of_range hd
    simp [integerPart, hzero, hd, hdigit, dropWhile_digits hds hrest, hQ]

theorem someDigits_sound (empty : ε) (rest : Bytes) :
    wp (someDigits empty) (fun _ t => ∃ ds, Digits ds ∧ ds ≠ [] ∧ rest = ds ++ t.rest ∧ t.nodes = k) Refuses
      ⟨rest, k⟩ := by
  have hsplit := takeWhile_append_dropWhile (p := isDigit) (l := rest)
  simp only [someDigits, wp_bind, wp_get, wp_skipDigits, wp_ite, wp_pure]
  refine ⟨fun _ => ⟨_, rfl⟩, fun hlength => ?_⟩
  refine ⟨rest.takeWhile isDigit, digits_takeWhile rest, ?_, hsplit.symm, trivial⟩
  intro hnil
  rw [hnil, nil_append] at hsplit
  exact hlength (by rw [hsplit])

theorem someDigits_complete {Q : Unit → Scan → Prop} {ds rest : Bytes}
    (empty : ε) (hds : Digits ds) (hne : ds ≠ []) (hrest : EndsDigits rest) (hQ : Q ⟨⟩ ⟨rest, k⟩) :
    wp (someDigits empty) Q E ⟨ds ++ rest, k⟩ := by
  have hlength : (ds ++ rest).length ≠ rest.length := by
    have := length_pos_iff.mpr hne
    rw [length_append]
    omega
  simp only [someDigits, wp_bind, wp_get, wp_skipDigits, wp_ite, wp_pure, dropWhile_digits hds hrest]
  exact ⟨fun h => absurd h hlength, fun _ => hQ⟩

theorem fraction_sound (rest : Bytes) :
    wp (fraction m) (fun b t => ∃ frac, Fraction frac ∧ rest = frac ++ t.rest ∧ (b = true ↔ frac ≠ []) ∧
      t.nodes = k) Refuses ⟨rest, k⟩ := by
  simp only [fraction, wp_bind, wp_take, wp_ite, wp_pure]
  refine ⟨fun rest' hrest => ⟨fun _ => ?_, fun h => absurd trivial h⟩,
    fun _ => ⟨by rintro ⟨⟩, fun _ => ⟨[], .none, rfl, by simp, trivial⟩⟩⟩
  refine wp_mono (someDigits_sound m.fractionEmpty rest') ?_ fun _ _ h => h
  rintro _ t ⟨ds, hds, hne, rfl, ht⟩
  exact ⟨point :: ds, .some hds hne, hrest, by simp, ht⟩

theorem fraction_complete {Q : Bool → Scan → Prop} {frac rest : Bytes}
    (h : Fraction frac) (hdigits : EndsDigits rest) (hpoint : rest.head? ≠ some point)
    (hQ : Q (decide (frac ≠ [])) ⟨rest, k⟩) : wp (fraction m) Q E ⟨frac ++ rest, k⟩ := by
  cases h with
  | none =>
    have hnot : ∀ rest', rest ≠ point :: rest' := by
      rintro rest' rfl
      exact hpoint rfl
    simpa [fraction, hnot, hpoint] using hQ
  | @some ds hds hne =>
    have hcall := someDigits_complete m.fractionEmpty (Q := fun _ t => Q true t) (E := E) hds hne hdigits
      (by simpa using hQ)
    simpa [fraction] using hcall

theorem exponent_sound (rest : Bytes) :
    wp (exponent m) (fun b t => ∃ exp, Exponent exp ∧ rest = exp ++ t.rest ∧ (b = true ↔ exp ≠ []) ∧
      t.nodes = k) Refuses ⟨rest, k⟩ := by
  have hdigits : ∀ e sign rest', (e = lowerE ∨ e = upperE) → ExponentSign sign →
      rest = e :: (sign ++ rest') →
      wp (someDigits m.exponentEmpty) (fun _ t => ∃ exp, Exponent exp ∧ rest = exp ++ t.rest ∧
        (true = true ↔ exp ≠ []) ∧ t.nodes = k) Refuses ⟨rest', k⟩ := by
    rintro e sign rest' he hsign rfl
    refine wp_mono (someDigits_sound m.exponentEmpty rest') ?_ fun _ _ h => h
    rintro _ t ⟨ds, hds, hne, rfl, ht⟩
    exact ⟨e :: (sign ++ ds), .some he hsign hds hne, by simp, by simp, ht⟩
  have hnone : ∃ exp, Exponent exp ∧ rest = exp ++ rest ∧ (false = true ↔ exp ≠ []) :=
    ⟨[], .none, rfl, by simp⟩
  cases rest with
  | nil => simpa [exponent] using hnone
  | cons e rest =>
    by_cases he : e = lowerE ∨ e = upperE
    · cases rest with
      | nil =>
        have hcall := hdigits e [] [] he .none rfl
        rcases he with rfl | rfl <;> simpa [exponent] using hcall
      | cons b rest =>
        by_cases hb : b = plus ∨ b = minus
        · have hcall := hdigits e [b] rest he (.some hb) rfl
          rcases he with rfl | rfl <;> rcases hb with rfl | rfl <;> simpa [exponent] using hcall
        · have hcall := hdigits e [] (b :: rest) he .none rfl
          obtain ⟨hplus, hminus⟩ := not_or.mp hb
          rcases he with rfl | rfl <;> simpa [exponent, hplus, hminus] using hcall
    · obtain ⟨hlower, hupper⟩ := not_or.mp he
      simpa [exponent, hlower, hupper] using hnone

theorem exponent_complete {Q : Bool → Scan → Prop} {exp rest : Bytes}
    (h : Exponent exp) (hrest : Ends rest) (hQ : Q (decide (exp ≠ [])) ⟨rest, k⟩) :
    wp (exponent m) Q E ⟨exp ++ rest, k⟩ := by
  cases h with
  | none =>
    cases rest with
    | nil => simpa [exponent] using hQ
    | cons b rest =>
      obtain ⟨-, -, he, he'⟩ := hrest b rfl
      simpa [exponent, he, he'] using hQ
  | @some e sign ds he hsign hds hne =>
    have hcall := someDigits_complete m.exponentEmpty (Q := fun _ t => Q true t) (E := E) hds hne
      hrest.digits (by simpa using hQ)
    cases hsign with
    | none =>
      obtain ⟨d, ds, rfl⟩ := exists_cons_of_ne_nil hne
      have hd := isDigit_iff.mp (hds d mem_cons_self)
      have hplus : d ≠ plus := by
        rintro rfl
        exact absurd hd.1 (by decide)
      have hminus : d ≠ minus := by
        rintro rfl
        exact absurd hd.1 (by decide)
      rcases he with rfl | rfl <;> simpa [exponent, hplus, hminus] using hcall
    | @some b hb =>
      rcases he with rfl | rfl <;> rcases hb with rfl | rfl <;> simpa [exponent] using hcall

end Parts

/-! ## Numbers -/

section Numbers

variable {ε F : Type} (m : Messages ε) (read : Bytes → Option F) {k : Nat}

theorem Integer.digits_all {int : Bytes} (h : Integer int) : Digits int := by
  cases h with
  | zero => simp [Digits, isDigit]
  | digits hd hds =>
    intro b hb
    rcases mem_cons.mp hb with rfl | hb
    · exact isDigit_of_range hd
    · exact hds b hb

theorem Integer.ne_nil {int : Bytes} (h : Integer int) : int ≠ [] := by
  cases h <;> simp

theorem integerValue_eq {negative : Bool} {int : Bytes} (hint : Integer int) :
    (integerValue m negative int : Parser ε (JsonValue F)) =
      if 2 ^ 64 ≤ decimal int then fail m.exceedsU64
      else if negative = false then pure (.u64 (decimal int))
      else if 2 ^ 63 < decimal int then fail m.belowI64
      else pure (.i64 (-(decimal int : Int))) := by
  unfold integerValue
  rw [magnitude_eq int 0 (by decide) hint.digits_all, show decimalFrom 0 int = decimal int from rfl]
  by_cases hfits : decimal int < 2 ^ 64
  · rw [if_pos hfits, if_neg (not_le.mpr hfits)]
  · rw [if_neg hfits, if_pos (not_lt.mp hfits)]

def numberTail (start : Bytes) (negative : Bool) : Parser ε (JsonValue F) := do
  let digits ← get
  integerPart m
  let hasFraction ← fraction m
  let hasExponent ← exponent m
  let s ← get
  if hasFraction || hasExponent then
    match read (start.take (start.length - s.rest.length)) with
    | none => fail m.notFinite
    | some x => return .double x
  else integerValue m negative (digits.rest.take (digits.rest.length - s.rest.length))

theorem number_eq : number m read = (do
    let start ← get
    let negative ← take minus
    numberTail m read start.rest negative) := rfl

def signOf (negative : Bool) : Bytes := if negative then [minus] else []

theorem sign_signOf (negative : Bool) : Sign (signOf negative) := by
  cases negative
  · exact .none
  · exact .minus

theorem numberTail_sound (negative : Bool) (rest : Bytes) :
    wp (numberTail m read (signOf negative ++ rest) negative)
      (fun v t => ∃ raw, Number read raw v ∧ signOf negative ++ rest = raw ++ t.rest ∧ t.nodes = k) Refuses
      ⟨rest, k⟩ := by
  simp only [numberTail, wp_bind, wp_get]
  refine wp_mono (integerPart_sound m rest) ?_ fun _ _ h => h
  rintro _ ⟨rest₁, k₁⟩ ⟨int, hint, hrest, rfl⟩
  refine wp_mono (fraction_sound m rest₁) ?_ fun _ _ h => h
  rintro hasFraction ⟨rest₂, k₂⟩ ⟨frac, hfrac, rfl, hfraction, rfl⟩
  refine wp_mono (exponent_sound m rest₂) ?_ fun _ _ h => h
  rintro hasExponent ⟨rest₃, k₃⟩ ⟨exp, hexp, rfl, hexponent, rfl⟩
  simp only at hrest
  subst hrest
  rw [wp_ite]
  refine ⟨fun hfloating => ?_, fun hinteger => ?_⟩
  · have hne : frac ≠ [] ∨ exp ≠ [] := by
      rw [Bool.or_eq_true] at hfloating
      exact hfloating.imp hfraction.mp hexponent.mp
    have htoken : signOf negative ++ (int ++ (frac ++ (exp ++ rest₃))) =
        (signOf negative ++ (int ++ (frac ++ exp))) ++ rest₃ := by simp
    rw [htoken, take_sub_length]
    cases hread : read (signOf negative ++ (int ++ (frac ++ exp))) with
    | none => exact ⟨_, rfl⟩
    | some x => exact ⟨_, .floating (sign_signOf negative) hint hfrac hexp hne hread, rfl, rfl⟩
  · obtain ⟨hfracNil, hexpNil⟩ : frac = [] ∧ exp = [] := by
      rw [Bool.or_eq_true, not_or, hfraction, hexponent] at hinteger
      exact ⟨not_not.mp hinteger.1, not_not.mp hinteger.2⟩
    subst hfracNil hexpNil
    simp only [nil_append, take_sub_length]
    rw [integerValue_eq m hint]
    simp only [wp_ite, wp_pure, wp_fail, refuses_fail, implies_true, true_and]
    intro hfits
    refine ⟨?_, ?_⟩
    · rintro rfl
      exact ⟨int, .unsigned hint (not_le.mp hfits), rfl, trivial⟩
    · intro hnegative hsmall
      obtain rfl : negative = true := by simpa using hnegative
      exact ⟨minus :: int, .negative hint (not_lt.mp hsmall), rfl, trivial⟩

theorem number_sound (rest : Bytes) :
    wp (number m read) (fun v t => ∃ raw, Number read raw v ∧ rest = raw ++ t.rest ∧ t.nodes = k) Refuses
      ⟨rest, k⟩ := by
  simp only [number_eq, wp_bind, wp_get, wp_take]
  refine ⟨?_, fun _ => numberTail_sound m read false rest⟩
  rintro rest' rfl
  exact numberTail_sound m read true rest'

variable {Q : JsonValue F → Scan → Prop} {E : Stop ε → Scan → Prop}

theorem numberTail_complete {negative : Bool}
    {int frac exp rest : Bytes} (hint : Integer int) (hfrac : Fraction frac) (hexp : Exponent exp)
    (hrest : Ends rest) (hQ : wp (if frac ≠ [] ∨ exp ≠ [] then
        match read (signOf negative ++ (int ++ (frac ++ exp))) with
        | none => fail m.notFinite
        | some x => pure (.double x)
      else integerValue m negative int) Q E ⟨rest, k⟩) :
    wp (numberTail m read (signOf negative ++ (int ++ (frac ++ (exp ++ rest)))) negative) Q E
      ⟨int ++ (frac ++ (exp ++ rest)), k⟩ := by
  have hexpEnds : EndsDigits (exp ++ rest) := by
    cases hexp with
    | none => exact hrest.digits
    | some he _ _ _ => rcases he with rfl | rfl <;> exact endsDigits_cons rfl
  have hfracEnds : EndsDigits (frac ++ (exp ++ rest)) := by
    cases hfrac with
    | none => exact hexpEnds
    | some _ _ => exact endsDigits_cons rfl
  have hpoint : (exp ++ rest).head? ≠ some point := by
    cases hexp with
    | none => exact fun h => (hrest point h).2.1 rfl
    | some he _ _ _ => rcases he with rfl | rfl <;> exact fun h => absurd (Option.some.inj h) (by decide)
  simp only [numberTail, wp_bind, wp_get]
  refine integerPart_complete m hint hfracEnds ?_
  refine fraction_complete m hfrac hexpEnds hpoint ?_
  refine exponent_complete m hexp hrest ?_
  have htoken : signOf negative ++ (int ++ (frac ++ (exp ++ rest))) =
      (signOf negative ++ (int ++ (frac ++ exp))) ++ rest := by simp
  by_cases hne : frac ≠ [] ∨ exp ≠ []
  · rw [if_pos hne] at hQ
    rw [if_pos (by simpa using hne), htoken, take_sub_length]
    exact hQ
  · rw [if_neg hne] at hQ
    obtain ⟨rfl, rfl⟩ : frac = [] ∧ exp = [] := by simpa only [not_or, not_not] using hne
    rw [if_neg (by simp)]
    simp only [nil_append, take_sub_length]
    exact hQ

theorem wp_number_sign (negative : Bool) {int tail : Bytes} (hint : Integer int)
    (h : wp (numberTail m read (signOf negative ++ (int ++ tail)) negative) Q E ⟨int ++ tail, k⟩) :
    wp (number m read) Q E ⟨signOf negative ++ (int ++ tail), k⟩ := by
  simp only [number_eq, wp_bind, wp_get, wp_take]
  cases negative with
  | true =>
    refine ⟨fun rest hrest => ?_, fun hhead => absurd rfl hhead⟩
    obtain rfl : int ++ tail = rest := tail_eq_of_cons_eq hrest
    exact h
  | false =>
    obtain ⟨d, ds, rfl⟩ := exists_cons_of_ne_nil hint.ne_nil
    have hd := isDigit_iff.mp (hint.digits_all d mem_cons_self)
    have hminus : d ≠ minus := by
      rintro rfl
      exact absurd hd.1 (by decide)
    exact ⟨fun rest hrest => absurd (head_eq_of_cons_eq hrest) hminus, fun _ => h⟩

theorem number_complete {raw rest : Bytes}
    {v : JsonValue F} (h : Number read raw v) (hrest : Ends rest) (hQ : Q v ⟨rest, k⟩) :
    wp (number m read) Q E ⟨raw ++ rest, k⟩ := by
  cases h with
  | unsigned hint hfits =>
    have htext : raw ++ rest = signOf false ++ (raw ++ ([] ++ ([] ++ rest))) := rfl
    rw [htext]
    refine wp_number_sign m read false hint ?_
    refine numberTail_complete m read hint .none .none hrest ?_
    rw [if_neg (by simp), integerValue_eq m hint, if_neg (not_le.mpr hfits), if_pos rfl]
    exact hQ
  | @negative int hint hfits =>
    have htext : minus :: int ++ rest = signOf true ++ (int ++ ([] ++ ([] ++ rest))) := rfl
    rw [htext]
    refine wp_number_sign m read true hint ?_
    refine numberTail_complete m read hint .none .none hrest ?_
    have hsmall : decimal int < 2 ^ 64 := lt_of_le_of_lt hfits (by decide)
    rw [if_neg (by simp), integerValue_eq m hint, if_neg (not_le.mpr hsmall), if_neg (by decide),
      if_neg (not_lt.mpr hfits)]
    exact hQ
  | @floating sign int frac exp x hsign hint hfrac hexp hne hread =>
    obtain ⟨negative, rfl⟩ : ∃ negative, sign = signOf negative := by
      cases hsign with
      | none => exact ⟨false, rfl⟩
      | minus => exact ⟨true, rfl⟩
    simp only [append_assoc]
    refine wp_number_sign m read negative hint ?_
    refine numberTail_complete m read hint hfrac hexp hrest ?_
    rw [if_pos hne, hread]
    exact hQ

end Numbers

end Bravo.Strict
