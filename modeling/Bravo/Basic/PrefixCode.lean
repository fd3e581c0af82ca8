import Bravo.Basic.Reader

/-! # Codes that can be taken apart

A code of values as strings, of which each string says where it ends: two strings that start with codes
and are equal start with codes of equal values and go on equally. What is read off a value this way is
its key, as a code may leave parts of the value out. -/

namespace Bravo

open List

variable {α β γ κ ι : Type}

/-- On the values of `D`, the code determines the key and where it ends. -/
def Separates (D : α → Prop) (code : α → List β) (key : α → κ) : Prop :=
  ∀ a b x y, D a → D b → code a ++ x = code b ++ y → key a = key b ∧ x = y

namespace Separates

variable {D : α → Prop} {code : α → List β} {key : α → κ}

theorem key_eq (h : Separates D code key) {a b : α} (ha : D a) (hb : D b) (heq : code a = code b) :
    key a = key b :=
  (h a b [] [] ha hb (by rw [heq])).1

theorem mono (h : Separates D code key) {D' : α → Prop} (hD : ∀ a, D' a → D a) :
    Separates D' code key :=
  fun a b x y ha hb => h a b x y (hD a ha) (hD b hb)

theorem part (h : Separates D code key) (f : γ → α) :
    Separates (fun c => D (f c)) (fun c => code (f c)) (fun c => key (f c)) :=
  fun a b x y ha hb => h (f a) (f b) x y ha hb

theorem total (h : Separates (fun _ => True) code key) (f : γ → α) {D' : γ → Prop} :
    Separates D' (fun c => code (f c)) (fun c => key (f c)) :=
  (h.part f).mono fun _ _ => trivial

theorem rekey (h : Separates D code key) {key' : α → ι}
    (hkey : ∀ a b, D a → D b → key a = key b → key' a = key' b) : Separates D code key' := by
  intro a b x y ha hb heq
  obtain ⟨hk, hxy⟩ := h a b x y ha hb heq
  exact ⟨hkey a b ha hb hk, hxy⟩

theorem congr (h : Separates D code key) {code' : α → List β} (hcode : ∀ a, D a → code' a = code a) :
    Separates D code' key := by
  intro a b x y ha hb heq
  rw [hcode a ha, hcode b hb] at heq
  exact h a b x y ha hb heq

theorem of_length {n : Nat} (hlength : ∀ a, D a → (code a).length = n)
    (hinj : ∀ a b, D a → D b → code a = code b → key a = key b) : Separates D code key := by
  intro a b x y ha hb heq
  obtain ⟨hcode, hxy⟩ := append_inj heq ((hlength a ha).trans (hlength b hb).symm)
  exact ⟨hinj a b ha hb hcode, hxy⟩

theorem const (fixed : List β) : Separates D (fun _ => fixed) fun _ => () :=
  fun _ _ _ _ _ _ heq => ⟨rfl, append_cancel_left heq⟩

theorem append (h : Separates D code key) {code' : α → List β} {key' : α → ι}
    (h' : ∀ k, Separates (fun a => D a ∧ key a = k) code' key') :
    Separates D (fun a => code a ++ code' a) (fun a => (key a, key' a)) := by
  intro a b x y ha hb heq
  rw [append_assoc, append_assoc] at heq
  obtain ⟨hkey, hrest⟩ := h a b _ _ ha hb heq
  obtain ⟨hkey', hxy⟩ := h' (key b) a b x y ⟨ha, hkey⟩ ⟨hb, rfl⟩ hrest
  exact ⟨Prod.ext hkey hkey', hxy⟩

theorem seq (h : Separates D code key) {code' : α → List β} {key' : α → ι} (h' : Separates D code' key') :
    Separates D (fun a => code a ++ code' a) (fun a => (key a, key' a)) :=
  h.append fun _ => h'.mono fun _ ha => ha.1

theorem flatMap (h : Separates D code key) (n : Nat) :
    Separates (fun as : List α => as.length = n ∧ ∀ a ∈ as, D a) (fun as => as.flatMap code)
      (fun as => as.map key) := by
  induction n with
  | zero =>
    rintro as bs x y ⟨ha, -⟩ ⟨hb, -⟩ heq
    rw [eq_nil_of_length_eq_zero ha, eq_nil_of_length_eq_zero hb] at heq ⊢
    exact ⟨rfl, heq⟩
  | succ n ih =>
    rintro as bs x y ⟨hlen, has⟩ ⟨hlen', hbs⟩ heq
    match as, bs with
    | a :: as, b :: bs =>
      dsimp only at heq
      rw [flatMap_cons, flatMap_cons, append_assoc, append_assoc] at heq
      obtain ⟨hkey, hrest⟩ := h a b _ _ (has a mem_cons_self) (hbs b mem_cons_self) heq
      obtain ⟨hkeys, hxy⟩ := ih as bs x y
        ⟨Nat.succ.inj hlen, fun c hc => has c (mem_cons_of_mem _ hc)⟩
        ⟨Nat.succ.inj hlen', fun c hc => hbs c (mem_cons_of_mem _ hc)⟩ hrest
      exact ⟨congrArg₂ List.cons hkey hkeys, hxy⟩

end Separates

/-! ## Words and counted lists -/

theorem separates_bigEndian : Separates (fun _ => True) bigEndian id :=
  .of_length (fun v _ => length_bigEndian v) fun a b _ _ heq => by
    rw [id, id, ← ofBigEndian_bigEndian a, heq, ofBigEndian_bigEndian]

theorem separates_count :
    Separates (fun as : List α => as.length < 2 ^ 64) (fun as => bigEndian (UInt64.ofNat as.length))
      List.length := by
  refine (separates_bigEndian.total fun as : List α => UInt64.ofNat as.length).rekey fun a b ha hb heq => ?_
  have := congrArg UInt64.toNat heq
  rwa [id, id, UInt64.toNat_ofNat', UInt64.toNat_ofNat', Nat.mod_eq_of_lt ha, Nat.mod_eq_of_lt hb] at this

theorem Separates.list {D : α → Prop} {code : α → List UInt8} {key : α → κ} (h : Separates D code key) :
    Separates (fun as : List α => as.length < 2 ^ 64 ∧ ∀ a ∈ as, D a)
      (fun as => bigEndian (UInt64.ofNat as.length) ++ as.flatMap code) (fun as => as.map key) :=
  ((separates_count.mono fun _ ha => ha.1).append fun n => (h.flatMap n).mono fun _ ha => ⟨ha.2, ha.1.2⟩)
    |>.rekey fun _ _ _ _ heq => congrArg Prod.snd heq

end Bravo
