import Mathlib.Tactic

/-! # Readers of byte strings

A reader consumes bytes from a cursor and may fail. The cursor also carries a budget counter,
for formats that bound the total number of items over a whole file.

`Reads L r D F` says in one equivalence what a reader accepts: it returns the value `a` exactly
when `a` fits the format `F` and the bytes ahead begin with the encoding of `a`. Both directions
of a round trip are read off it. The rules follow the shape of a do-block: one bind rule for
each field read, one rule for a check, one for a counted list.
-/

namespace Bravo

open List

/-! ## Big-endian words -/

def bigEndian (v : UInt64) : List UInt8 :=
  [(v >>> 56).toUInt8, (v >>> 48).toUInt8, (v >>> 40).toUInt8, (v >>> 32).toUInt8,
    (v >>> 24).toUInt8, (v >>> 16).toUInt8, (v >>> 8).toUInt8, v.toUInt8]

def ofBigEndian (bytes : List UInt8) : UInt64 :=
  bytes.foldl (fun value byte => value <<< 8 ||| byte.toUInt64) 0

@[simp] theorem length_bigEndian (v : UInt64) : (bigEndian v).length = 8 := rfl

theorem toNat_shiftIn {x : UInt64} (b : UInt8) (hx : x.toNat < 2 ^ 56) :
    (x <<< 8 ||| b.toUInt64).toNat = x.toNat * 256 + b.toNat := by
  have hb : b.toNat < 2 ^ 8 := b.toNat_lt
  have hshift : (x <<< 8).toNat = x.toNat <<< 8 := by
    rw [UInt64.toNat_shiftLeft]
    have : x.toNat <<< 8 = x.toNat * 256 := by rw [Nat.shiftLeft_eq]
    simp only [UInt64.toNat_ofNat]
    norm_num
    rw [this]
    omega
  rw [UInt64.toNat_or, hshift, UInt8.toNat_toUInt64, ← Nat.shiftLeft_add_eq_or_of_lt hb,
    Nat.shiftLeft_eq]

theorem toNat_ofBigEndian (b₀ b₁ b₂ b₃ b₄ b₅ b₆ b₇ : UInt8) :
    (ofBigEndian [b₀, b₁, b₂, b₃, b₄, b₅, b₆, b₇]).toNat =
      b₀.toNat * 2 ^ 56 + b₁.toNat * 2 ^ 48 + b₂.toNat * 2 ^ 40 + b₃.toNat * 2 ^ 32 +
        b₄.toNat * 2 ^ 24 + b₅.toNat * 2 ^ 16 + b₆.toNat * 2 ^ 8 + b₇.toNat := by
  have h₀ := b₀.toNat_lt
  have h₁ := b₁.toNat_lt
  have h₂ := b₂.toNat_lt
  have h₃ := b₃.toNat_lt
  have h₄ := b₄.toNat_lt
  have h₅ := b₅.toNat_lt
  have h₆ := b₆.toNat_lt
  have h₇ := b₇.toNat_lt
  simp only [ofBigEndian, foldl_cons, foldl_nil]
  have e₀ := toNat_shiftIn (x := 0) b₀ (by decide)
  have e₁ := toNat_shiftIn b₁ (by rw [e₀]; simp; omega)
  have e₂ := toNat_shiftIn b₂ (by rw [e₁, e₀]; simp; omega)
  have e₃ := toNat_shiftIn b₃ (by rw [e₂, e₁, e₀]; simp; omega)
  have e₄ := toNat_shiftIn b₄ (by rw [e₃, e₂, e₁, e₀]; simp; omega)
  have e₅ := toNat_shiftIn b₅ (by rw [e₄, e₃, e₂, e₁, e₀]; simp; omega)
  have e₆ := toNat_shiftIn b₆ (by rw [e₅, e₄, e₃, e₂, e₁, e₀]; simp; omega)
  have e₇ := toNat_shiftIn b₇ (by rw [e₆, e₅, e₄, e₃, e₂, e₁, e₀]; simp; omega)
  rw [e₇, e₆, e₅, e₄, e₃, e₂, e₁, e₀]
  simp
  omega

theorem ofBigEndian_bigEndian (v : UInt64) : ofBigEndian (bigEndian v) = v := by
  have hv := v.toNat_lt
  apply UInt64.toNat_inj.mp
  rw [bigEndian, toNat_ofBigEndian]
  simp only [UInt64.toNat_toUInt8, UInt64.toNat_shiftRight, UInt64.toNat_ofNat, Nat.shiftRight_eq_div_pow]
  norm_num
  omega

theorem bigEndian_ofBigEndian {bytes : List UInt8} (h : bytes.length = 8) :
    bigEndian (ofBigEndian bytes) = bytes := by
  obtain ⟨b₀, b₁, b₂, b₃, b₄, b₅, b₆, b₇, rfl⟩ : ∃ b₀ b₁ b₂ b₃ b₄ b₅ b₆ b₇,
      bytes = [b₀, b₁, b₂, b₃, b₄, b₅, b₆, b₇] := by
    match bytes, h with
    | [b₀, b₁, b₂, b₃, b₄, b₅, b₆, b₇], _ => exact ⟨_, _, _, _, _, _, _, _, rfl⟩
  have h₀ := b₀.toNat_lt
  have h₁ := b₁.toNat_lt
  have h₂ := b₂.toNat_lt
  have h₃ := b₃.toNat_lt
  have h₄ := b₄.toNat_lt
  have h₅ := b₅.toNat_lt
  have h₆ := b₆.toNat_lt
  have h₇ := b₇.toNat_lt
  have hv := toNat_ofBigEndian b₀ b₁ b₂ b₃ b₄ b₅ b₆ b₇
  -- Each byte is a quotient and remainder of the word.
  have hbyte : ∀ (k : UInt64) (j : Nat) (b : UInt8), k.toNat % 64 = j →
      (ofBigEndian [b₀, b₁, b₂, b₃, b₄, b₅, b₆, b₇]).toNat / 2 ^ j % 2 ^ 8 = b.toNat →
      (ofBigEndian [b₀, b₁, b₂, b₃, b₄, b₅, b₆, b₇] >>> k).toUInt8 = b := by
    intro k j b hk hb
    apply UInt8.toNat_inj.mp
    rw [UInt64.toNat_toUInt8, UInt64.toNat_shiftRight, Nat.shiftRight_eq_div_pow, hk]
    exact hb
  have hlast : (ofBigEndian [b₀, b₁, b₂, b₃, b₄, b₅, b₆, b₇]).toUInt8 = b₇ := by
    apply UInt8.toNat_inj.mp
    rw [UInt64.toNat_toUInt8, hv]
    omega
  rw [bigEndian, hbyte 56 56 b₀ rfl, hbyte 48 48 b₁ rfl, hbyte 40 40 b₂ rfl, hbyte 32 32 b₃ rfl,
    hbyte 24 24 b₄ rfl, hbyte 16 16 b₅ rfl, hbyte 8 8 b₆ rfl, hlast]
  all_goals
    rw [hv]
    omega

/-! ## Cursors -/

/-- The bytes ahead, the number of bytes read, and the budget spent so far. -/
structure Cursor where
  rest : List UInt8
  position : Nat
  spent : Nat

/-- From `s` to `s'` the bytes `bytes` were read and `cost` was spent. -/
structure Consumes (s : Cursor) (bytes : List UInt8) (cost : Nat) (s' : Cursor) : Prop where
  rest : s.rest = bytes ++ s'.rest
  position : s'.position = s.position + bytes.length
  spent : s'.spent = s.spent + cost

theorem consumes_nil_iff {s s' : Cursor} : Consumes s [] 0 s' ↔ s' = s := by
  constructor
  · rintro ⟨hr, hp, hc⟩
    cases s
    cases s'
    simp_all
  · rintro rfl
    exact ⟨rfl, rfl, rfl⟩

theorem consumes_append_iff {s s'' : Cursor} {bs₁ bs₂ : List UInt8} {c₁ c₂ : Nat} :
    Consumes s (bs₁ ++ bs₂) (c₁ + c₂) s'' ↔
      ∃ s', Consumes s bs₁ c₁ s' ∧ Consumes s' bs₂ c₂ s'' := by
  constructor
  · rintro ⟨hr, hp, hc⟩
    refine ⟨⟨bs₂ ++ s''.rest, s.position + bs₁.length, s.spent + c₁⟩, ⟨?_, rfl, rfl⟩,
      ⟨rfl, ?_, ?_⟩⟩
    · rw [hr, append_assoc]
    · rw [hp, length_append]
      show _ = s.position + bs₁.length + bs₂.length
      omega
    · show _ = s.spent + c₁ + c₂
      omega
  · rintro ⟨s', ⟨hr, hp, hc⟩, ⟨hr', hp', hc'⟩⟩
    refine ⟨?_, ?_, by omega⟩
    · rw [hr, hr', append_assoc]
    · rw [hp', hp, length_append]
      omega

theorem consumes_append_iff_free {s s'' : Cursor} {bs₁ bs₂ : List UInt8} :
    Consumes s (bs₁ ++ bs₂) 0 s'' ↔ ∃ s', Consumes s bs₁ 0 s' ∧ Consumes s' bs₂ 0 s'' := by
  rw [← consumes_append_iff]

/-! ## Readers -/

/-- A program that consumes bytes; it returns a value or fails with a message. -/
abbrev Reader (α : Type) := StateT Cursor (Except String) α

section Readers

variable {α β : Type}

theorem bind_eq_ok {ε : Type} {x : Except ε α} {f : α → Except ε β} {b : β} :
    x >>= f = .ok b ↔ ∃ a, x = .ok a ∧ f a = .ok b := by
  cases x with
  | ok a => simp [bind, Except.bind]
  | error e => simp [bind, Except.bind]

theorem Reader.run_bind_eq_ok {r : Reader α} {k : α → Reader β} {s s'' : Cursor} {b : β} :
    (r >>= k).run s = .ok (b, s'') ↔
      ∃ a s', r.run s = .ok (a, s') ∧ (k a).run s' = .ok (b, s'') := by
  rw [StateT.run_bind, bind_eq_ok]
  constructor
  · rintro ⟨⟨a, s'⟩, h₁, h₂⟩
    exact ⟨a, s', h₁, h₂⟩
  · rintro ⟨a, s', h₁, h₂⟩
    exact ⟨(a, s'), h₁, h₂⟩

variable {s s' : Cursor}

theorem Reader.run_pure_eq_ok {a b : α} :
    (pure a : Reader α).run s = .ok (b, s') ↔ b = a ∧ s' = s := by
  show Except.ok (a, s) = Except.ok (b, s') ↔ _
  simp [eq_comm]

/-- Fail with `e` if the condition holds. -/
def reject (c : Bool) (e : String) : Reader Unit := if c then throw e else pure ⟨⟩

variable {e : String}

theorem run_reject_eq_ok {c : Bool} {u : Unit} :
    (reject c e).run s = .ok (u, s') ↔ c = false ∧ s' = s := by
  cases c with
  | true =>
    simp only [reject, if_true, Bool.true_eq_false, false_and, iff_false]
    intro h
    cases h
  | false =>
    simp only [reject, Bool.false_eq_true, if_false, true_and]
    rw [Reader.run_pure_eq_ok]
    simp

def Reader.lift (x : Except String α) : Reader α := fun s =>
  match x with
  | .ok a => .ok (a, s)
  | .error e => .error e

theorem Reader.run_lift_eq_ok {x : Except String α} {a : α} :
    (Reader.lift x).run s = .ok (a, s') ↔ x = .ok a ∧ s' = s := by
  show (match x with | .ok a => Except.ok (a, s) | .error e => .error e) = _ ↔ _
  cases x with
  | ok b => simp [eq_comm]
  | error e => simp

theorem run_dite_eq_ok {P : Prop} [Decidable P] {f : P → α} {a : α} :
    (if h : P then pure (f h) else throw e : Reader α).run s = .ok (a, s') ↔
      (∃ h : P, a = f h) ∧ s' = s := by
  split
  · rename_i h
    rw [Reader.run_pure_eq_ok]
    simp [h]
  · rename_i h
    refine iff_of_false (fun hrun => by cases hrun) ?_
    rintro ⟨⟨hP, -⟩, -⟩
    exact h hP

/-- Take exactly `n` bytes, or fail with `e`. -/
def takeBytes (n : Nat) (e : String) : Reader (List UInt8) := fun s =>
  if s.rest.length < n then .error e
  else .ok (s.rest.take n, ⟨s.rest.drop n, s.position + n, s.spent⟩)

theorem run_takeBytes_eq_ok {n : Nat} {bytes : List UInt8} :
    (takeBytes n e).run s = .ok (bytes, s') ↔ bytes.length = n ∧ Consumes s bytes 0 s' := by
  show (if s.rest.length < n then _ else _) = _ ↔ _
  split
  · rename_i hlt
    refine iff_of_false (fun h => by cases h) ?_
    rintro ⟨rfl, hr, _, _⟩
    rw [hr, length_append] at hlt
    omega
  · rename_i hge
    constructor
    · intro h
      cases h
      refine ⟨?_, ⟨?_, ?_, rfl⟩⟩
      · rw [length_take]
        omega
      · exact (take_append_drop n s.rest).symm
      · show s.position + n = s.position + (s.rest.take n).length
        rw [length_take]
        omega
    · rintro ⟨rfl, hr, hp, hc⟩
      cases s'
      simp_all

/-! ## Formats -/

/-- What a reader accepts: the bytes of a value, what it spends, and which values are within
bounds. -/
structure Format (α : Type) where
  bytes : α → List UInt8
  cost : α → Nat
  fits : α → Prop

@[simp] def Format.empty : Format α := ⟨fun _ => [], fun _ => 0, fun _ => True⟩

@[simp] def Format.check (P : α → Prop) : Format α := ⟨fun _ => [], fun _ => 0, P⟩

@[simp] def Format.part (F : Format α) (f : β → α) : Format β :=
  ⟨fun b => F.bytes (f b), fun b => F.cost (f b), fun b => F.fits (f b)⟩

@[simp] def Format.seq (F G : Format α) : Format α :=
  ⟨fun a => F.bytes a ++ G.bytes a, fun a => F.cost a + G.cost a, fun a => F.fits a ∧ G.fits a⟩

@[simp] def Format.tagged (G : β → Format α) (f : α → β) : Format α :=
  ⟨fun a => (G (f a)).bytes a, fun a => (G (f a)).cost a, fun a => (G (f a)).fits a⟩

def Format.list (F : Format α) : Format (List α) :=
  ⟨fun l => l.flatMap F.bytes, fun l => (l.map F.cost).sum, fun l => ∀ a ∈ l, F.fits a⟩

/-- With a budget of `L`, the reader `r` returns exactly the values of `D` in the format `F`. -/
def Reads (L : Nat) (r : Reader α) (D : α → Prop) (F : Format α) : Prop :=
  ∀ s, s.spent ≤ L → ∀ a s', r.run s = .ok (a, s') ↔
    D a ∧ F.fits a ∧ Consumes s (F.bytes a) (F.cost a) s' ∧ s'.spent ≤ L

variable {L : Nat} {D : α → Prop} {F G : Format α}

theorem Reads.congr {r : Reader α} (h : Reads L r D F) (hbytes : ∀ a, D a → F.bytes a = G.bytes a)
    (hcost : ∀ a, D a → F.cost a = G.cost a) (hfits : ∀ a, D a → (F.fits a ↔ G.fits a)) :
    Reads L r D G := by
  intro s hs a s'
  rw [h s hs a s']
  refine and_congr_right fun hD => ?_
  rw [hbytes a hD, hcost a hD, hfits a hD]

theorem Reads.pure {a : α} (hD : ∀ b, D b ↔ b = a) : Reads L (Pure.pure a) D Format.empty := by
  intro s hs b s'
  rw [Reader.run_pure_eq_ok, hD]
  show _ ↔ b = a ∧ True ∧ Consumes s [] 0 s' ∧ s'.spent ≤ L
  rw [consumes_nil_iff]
  constructor
  · rintro ⟨rfl, rfl⟩
    exact ⟨rfl, trivial, rfl, hs⟩
  · rintro ⟨rfl, -, rfl, -⟩
    exact ⟨rfl, rfl⟩

/-- One field of a record: the reader of the rest knows the field's value. -/
theorem Reads.bind {r : Reader β} {k : β → Reader α} {F : Format β} (f : α → β)
    (hr : Reads L r (fun _ => True) F) (hk : ∀ b, Reads L (k b) (fun a => D a ∧ f a = b) G) :
    Reads L (r >>= k) D ((F.part f).seq G) := by
  intro s hs a s''
  rw [Reader.run_bind_eq_ok]
  show _ ↔ D a ∧ (F.fits (f a) ∧ G.fits a) ∧
    Consumes s (F.bytes (f a) ++ G.bytes a) (F.cost (f a) + G.cost a) s'' ∧ s''.spent ≤ L
  constructor
  · rintro ⟨b, s', h₁, h₂⟩
    obtain ⟨-, hfit, hcons, hspent⟩ := (hr s hs b s').mp h₁
    obtain ⟨⟨hD, rfl⟩, hfit', hcons', hspent'⟩ := (hk b s' hspent a s'').mp h₂
    exact ⟨hD, ⟨hfit, hfit'⟩, consumes_append_iff.mpr ⟨s', hcons, hcons'⟩, hspent'⟩
  · rintro ⟨hD, ⟨hfit, hfit'⟩, hcons, hspent⟩
    obtain ⟨s', h₁, h₂⟩ := consumes_append_iff.mp hcons
    have hs' : s'.spent ≤ L := by
      have := h₂.spent
      omega
    exact ⟨f a, s', (hr s hs _ _).mpr ⟨trivial, hfit, h₁, hs'⟩,
      (hk _ s' hs' _ _).mpr ⟨⟨hD, rfl⟩, hfit', h₂, hspent⟩⟩

theorem Reads.bindTag {r : Reader β} {k : β → Reader α} {F : Format β} {G : β → Format α} (f : α → β)
    (hr : Reads L r (fun _ => True) F) (hk : ∀ b, Reads L (k b) (fun a => D a ∧ f a = b) (G b)) :
    Reads L (r >>= k) D ((F.part f).seq (Format.tagged G f)) := by
  refine Reads.bind f hr fun b => (hk b).congr ?_ ?_ ?_
  · rintro a ⟨-, rfl⟩
    rfl
  · rintro a ⟨-, rfl⟩
    rfl
  · rintro a ⟨-, rfl⟩
    rfl

theorem Reads.reject {c : Bool} {k : Reader α} (P : α → Prop)
    (hP : ∀ a, D a → (P a ↔ c = false)) (hk : c = false → Reads L k D G) :
    Reads L (Bravo.reject c e >>= fun _ => k) D ((Format.check P).seq G) := by
  intro s hs a s'
  rw [Reader.run_bind_eq_ok]
  show _ ↔ D a ∧ (P a ∧ G.fits a) ∧ Consumes s ([] ++ G.bytes a) (0 + G.cost a) s' ∧ s'.spent ≤ L
  rw [nil_append, Nat.zero_add]
  constructor
  · rintro ⟨u, s₁, h₁, h₂⟩
    obtain ⟨hc, rfl⟩ := run_reject_eq_ok.mp h₁
    obtain ⟨hD, hfit, hrest⟩ := (hk hc s₁ hs a s').mp h₂
    exact ⟨hD, ⟨(hP a hD).mpr hc, hfit⟩, hrest⟩
  · rintro ⟨hD, ⟨hPa, hfit⟩, hrest⟩
    have hc := (hP a hD).mp hPa
    exact ⟨⟨⟩, s, run_reject_eq_ok.mpr ⟨hc, rfl⟩, (hk hc s hs a s').mpr ⟨hD, hfit, hrest⟩⟩

/-- Read `n` entries. -/
def readMany (r : Reader α) : Nat → Reader (List α)
  | 0 => Pure.pure []
  | n + 1 => do
    let a ← r
    let l ← readMany r n
    return a :: l

theorem readMany_reads {r : Reader α} (hr : Reads L r (fun _ => True) F) (n : Nat) :
    Reads L (readMany r n) (fun l => l.length = n) F.list := by
  induction n with
  | zero =>
    refine (Reads.pure (a := []) ?_).congr ?_ ?_ ?_
    · intro l
      exact length_eq_zero_iff
    · intro l hl
      rw [length_eq_zero_iff.mp hl]
      rfl
    · intro l hl
      rw [length_eq_zero_iff.mp hl]
      rfl
    · intro l hl
      rw [length_eq_zero_iff.mp hl]
      simp [Format.empty, Format.list]
  | succ n ih =>
    intro s hs l s''
    simp only [readMany, Reader.run_bind_eq_ok, Reader.run_pure_eq_ok]
    constructor
    · rintro ⟨a, s₁, h₁, t, s₂, h₂, rfl, rfl⟩
      obtain ⟨-, hfit, hcons, hspent⟩ := (hr s hs a s₁).mp h₁
      obtain ⟨hlen, hfits, hcons', hspent'⟩ := (ih s₁ hspent t s'').mp h₂
      refine ⟨by rw [length_cons, hlen], ?_, ?_, hspent'⟩
      · intro b hb
        rcases mem_cons.mp hb with rfl | hb
        · exact hfit
        · exact hfits b hb
      · exact consumes_append_iff.mpr ⟨s₁, hcons, hcons'⟩
    · rintro ⟨hlen, hfits, hcons, hspent⟩
      obtain ⟨a, t, rfl⟩ := exists_cons_of_length_eq_add_one hlen
      obtain ⟨s₁, hcons₁, hcons₂⟩ := consumes_append_iff.mp hcons
      have hs₁ : s₁.spent ≤ L := by
        have := hcons₂.spent
        omega
      refine ⟨a, s₁, (hr s hs a s₁).mpr ⟨trivial, hfits a mem_cons_self, hcons₁, hs₁⟩, t, s'',
        (ih s₁ hs₁ t s'').mpr ⟨by simpa using hlen, ?_, hcons₂, hspent⟩, rfl, rfl⟩
      intro b hb
      exact hfits b (mem_cons_of_mem a hb)

theorem mapM_eq_ok_iff {ε : Type} {encode : α → Except ε β} {E : α → Prop} {f : α → β}
    (h : ∀ a b, encode a = .ok b ↔ E a ∧ b = f a) :
    ∀ (l : List α) (bs : List β), l.mapM encode = .ok bs ↔ (∀ a ∈ l, E a) ∧ bs = l.map f := by
  intro l
  induction l with
  | nil =>
    intro bs
    rw [mapM_nil]
    show Except.ok [] = Except.ok bs ↔ _
    simp [eq_comm]
  | cons a l ih =>
    intro bs
    simp only [mapM_cons, bind_eq_ok, h, ih, forall_mem_cons, map_cons]
    constructor
    · rintro ⟨b, ⟨ha, rfl⟩, bs', ⟨hl, rfl⟩, hret⟩
      cases hret
      exact ⟨⟨ha, hl⟩, rfl⟩
    · rintro ⟨⟨ha, hl⟩, rfl⟩
      exact ⟨f a, ⟨ha, rfl⟩, l.map f, ⟨hl, rfl⟩, rfl⟩

/-- Run a reader on a whole byte string: nothing may be left over. Gives the value and the
budget spent. -/
def runAll (r : Reader α) (e : String) (bytes : List UInt8) (spent : Nat) :
    Except String (α × Nat) :=
  match r.run ⟨bytes, 0, spent⟩ with
  | .ok (a, s) => if s.rest.isEmpty then .ok (a, s.spent) else .error e
  | .error e => .error e

theorem Reads.runAll_eq_ok {r : Reader α} (h : Reads L r D F) {bytes : List UInt8}
    {spent spent' : Nat} (hs : spent ≤ L) {a : α} :
    runAll r e bytes spent = .ok (a, spent') ↔
      D a ∧ F.fits a ∧ bytes = F.bytes a ∧ spent' = spent + F.cost a ∧ spent' ≤ L := by
  unfold runAll
  constructor
  · intro hrun
    split at hrun
    · rename_i a' s hr
      split at hrun
      · rename_i hempty
        cases hrun
        obtain ⟨hD, hfit, hcons, hle⟩ := (h ⟨bytes, 0, spent⟩ hs a s).mp hr
        refine ⟨hD, hfit, ?_, hcons.spent, hle⟩
        have := hcons.rest
        rwa [List.isEmpty_iff.mp hempty, append_nil] at this
      · cases hrun
    · cases hrun
  · rintro ⟨hD, hfit, rfl, rfl, hle⟩
    have hr := (h ⟨F.bytes a, 0, spent⟩ hs a
      ⟨[], (F.bytes a).length, spent + F.cost a⟩).mpr
      ⟨hD, hfit, ⟨by simp, by simp, rfl⟩, hle⟩
    rw [hr]
    rfl

end Readers

end Bravo
