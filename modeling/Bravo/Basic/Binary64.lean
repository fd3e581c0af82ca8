import Mathlib.Tactic

/-! # IEEE-754 binary64 values

A binary64 value is its bit pattern. Nothing here goes through a host float: finiteness, the
order and the rounding of a difference are read off the sign and magnitude of the pattern, so
that every definition can be evaluated and reasoned about.

The magnitudes below `infMagnitude` are the finite ones, `infMagnitude` itself is infinity and
everything above is a NaN. For non-NaN values the numeric order is the order of the signed
magnitudes (`key`), with `+0` and `-0` on the same key.
-/

namespace Bravo

structure Binary64 where
  bits : UInt64
deriving DecidableEq, Repr, Inhabited

namespace Binary64

def magnitude (x : Binary64) : Nat := x.bits.toNat % 2 ^ 63

def signbit (x : Binary64) : Bool := decide (2 ^ 63 ≤ x.bits.toNat)

def infMagnitude : Nat := 2047 * 2 ^ 52

/-- `std::isnan`. -/
def isNaN (x : Binary64) : Bool := decide (infMagnitude < x.magnitude)

/-- `std::isfinite`. -/
def isFinite (x : Binary64) : Bool := decide (x.magnitude < infMagnitude)

/-- The signed magnitude; the numeric order of non-NaN values is the order of their keys. -/
def key (x : Binary64) : Int := if x.signbit then -(x.magnitude : Int) else x.magnitude

/-- The C++ comparison `x < y`; false as soon as one side is a NaN. -/
instance : LT Binary64 := ⟨fun x y => x.isNaN = false ∧ y.isNaN = false ∧ x.key < y.key⟩

/-- The C++ comparison `x <= y`; false as soon as one side is a NaN. -/
instance : LE Binary64 := ⟨fun x y => x.isNaN = false ∧ y.isNaN = false ∧ x.key ≤ y.key⟩

instance (x y : Binary64) : Decidable (x < y) :=
  inferInstanceAs (Decidable (x.isNaN = false ∧ y.isNaN = false ∧ x.key < y.key))

instance (x y : Binary64) : Decidable (x ≤ y) :=
  inferInstanceAs (Decidable (x.isNaN = false ∧ y.isNaN = false ∧ x.key ≤ y.key))

/-- The C++ comparison `x == y` on doubles: not the equality of bit patterns. -/
def equal (x y : Binary64) : Bool :=
  !x.isNaN && !y.isNaN && decide (x.key = y.key)

theorem isNaN_of_isFinite {x : Binary64} (h : x.isFinite = true) : x.isNaN = false := by
  simp only [isFinite, isNaN, decide_eq_true_eq, decide_eq_false_iff_not] at *
  omega

variable {x y : Binary64}

theorem le_of_not_lt (hx : x.isNaN = false) (hy : y.isNaN = false) (h : ¬ y < x) : x ≤ y := by
  refine ⟨hx, hy, ?_⟩
  by_contra hcon
  exact h ⟨hy, hx, by omega⟩

theorem not_le_of_lt (h : x < y) : ¬ y ≤ x := by
  rintro ⟨_, _, hle⟩
  have hlt : x.key < y.key := h.2.2
  omega

theorem le_trans' {x y z : Binary64} (hxy : x ≤ y) (hyz : y ≤ z) : x ≤ z := by
  obtain ⟨hx, _, h₁⟩ := hxy
  obtain ⟨_, hz, h₂⟩ := hyz
  exact ⟨hx, hz, by omega⟩

/-! ## Differences

Every finite value is an integer multiple of `2 ^ (-1074)`. `units` is that integer, a
difference of two finite values is the difference of their units, and `ofUnits` rounds a number
of units to the nearest value, ties to even. Writing the rounded significand `q` of a number
with `k` excess bits as `k * 2 ^ 52 + q` is the whole encoding: a carry out of the significand
lands in the exponent field. -/

/-- A finite value in units of `2 ^ (-1074)`. -/
def units (x : Binary64) : Int :=
  let exponent := x.magnitude / 2 ^ 52
  let fraction := x.magnitude % 2 ^ 52
  let n : Nat := if exponent = 0 then fraction else (2 ^ 52 + fraction) * 2 ^ (exponent - 1)
  if x.signbit then -(n : Int) else n

/-- `n / 2 ^ k`, rounded to the nearest integer, ties to even. -/
def shiftRoundEven (n k : Nat) : Nat :=
  let q := n / 2 ^ k
  let r := n % 2 ^ k
  if 2 * r < 2 ^ k then q
  else if 2 ^ k < 2 * r then q + 1
  else q + q % 2

/-- The magnitude bits of `n` units. -/
def roundMagnitude (n : Nat) : Nat :=
  let k := Nat.log2 n - 52
  min (k * 2 ^ 52 + shiftRoundEven n k) infMagnitude

def ofSignMagnitude (negative : Bool) (m : Nat) : Binary64 :=
  ⟨UInt64.ofNat (if negative then 2 ^ 63 + m else m)⟩

/-- The value nearest to a number of units; an exact zero is `+0`. -/
def ofUnits (n : Int) : Binary64 := ofSignMagnitude (decide (n < 0)) (roundMagnitude n.natAbs)

def nan : Binary64 := ⟨0x7ff8000000000000⟩

def negate (x : Binary64) : Binary64 := ofSignMagnitude (!x.signbit) x.magnitude

/-- The C++ difference `x - y`. -/
def sub (x y : Binary64) : Binary64 :=
  if x.isNaN || y.isNaN then nan
  else if x.isFinite && y.isFinite then
    -- `-0 - (+0)` is the one exact zero that keeps its sign.
    if x.signbit && !y.signbit && x.magnitude == 0 && y.magnitude == 0 then x
    else ofUnits (x.units - y.units)
  else if x.isFinite then negate y
  else if y.isFinite then x
  else if x.signbit == y.signbit then nan
  else x

instance : Sub Binary64 := ⟨sub⟩

theorem magnitude_ofSignMagnitude {negative : Bool} {m : Nat} (h : m < 2 ^ 63) :
    (ofSignMagnitude negative m).magnitude = m := by
  unfold ofSignMagnitude magnitude
  cases negative with
  | true =>
    simp only [if_true, UInt64.toNat_ofNat']
    omega
  | false =>
    simp only [Bool.false_eq_true, if_false, UInt64.toNat_ofNat']
    omega

theorem roundMagnitude_le (n : Nat) : roundMagnitude n ≤ infMagnitude := Nat.min_le_right _ _

theorem isNaN_ofUnits (n : Int) : (ofUnits n).isNaN = false := by
  have h := roundMagnitude_le n.natAbs
  have hlt : roundMagnitude n.natAbs < 2 ^ 63 :=
    Nat.lt_of_le_of_lt h (by decide)
  rw [isNaN, ofUnits, magnitude_ofSignMagnitude hlt]
  simpa using h

theorem isNaN_sub_of_isFinite (hx : x.isFinite = true) (hy : y.isFinite = true) :
    (x - y).isNaN = false := by
  show (sub x y).isNaN = false
  unfold sub
  simp only [isNaN_of_isFinite hx, isNaN_of_isFinite hy, hx, hy, Bool.or_self, Bool.and_self,
    Bool.false_eq_true, if_false, if_true]
  split
  · exact isNaN_of_isFinite hx
  · exact isNaN_ofUnits _

/-- A finite subtrahend leaves an infinite minuend alone, so no NaN arises either. -/
theorem isNaN_sub_of_isFinite_right (hx : x.isNaN = false)
    (hy : y.isFinite = true) : (x - y).isNaN = false := by
  by_cases hfin : x.isFinite = true
  · exact isNaN_sub_of_isFinite hfin hy
  · show (sub x y).isNaN = false
    unfold sub
    simp [hx, isNaN_of_isFinite hy, hy, hfin]

-- `1.5 - 1.0 = 0.5`, and a tie of `2 ^ 53 - (-1)` rounds to even.
example : (⟨0x3ff8000000000000⟩ - ⟨0x3ff0000000000000⟩ : Binary64) = ⟨0x3fe0000000000000⟩ := by
  decide +kernel
example : (⟨0x4340000000000000⟩ - ⟨0xbff0000000000000⟩ : Binary64) = ⟨0x4340000000000000⟩ := by
  decide +kernel

theorem signbit_ofSignMagnitude_false {m : Nat} (h : m < 2 ^ 63) : (ofSignMagnitude false m).signbit = false := by
  unfold ofSignMagnitude signbit
  simp only [Bool.false_eq_true, if_false, UInt64.toNat_ofNat', decide_eq_false_iff_not, not_le]
  omega

theorem unitsOfMagnitude_mono {m n : Nat} (h : m ≤ n) :
    (if m / 2 ^ 52 = 0 then m % 2 ^ 52 else (2 ^ 52 + m % 2 ^ 52) * 2 ^ (m / 2 ^ 52 - 1)) ≤
      if n / 2 ^ 52 = 0 then n % 2 ^ 52 else (2 ^ 52 + n % 2 ^ 52) * 2 ^ (n / 2 ^ 52 - 1) := by
  rcases Nat.lt_or_ge (m / 2 ^ 52) (n / 2 ^ 52) with hlt | hge
  · -- the exponent grows: the significand of `m` is less than twice the least one
    rw [if_neg (by omega : n / 2 ^ 52 ≠ 0)]
    have hleast : 2 ^ 52 * 2 ^ (n / 2 ^ 52 - 1) ≤ (2 ^ 52 + n % 2 ^ 52) * 2 ^ (n / 2 ^ 52 - 1) :=
      Nat.mul_le_mul_right _ (Nat.le_add_right _ _)
    refine le_trans ?_ hleast
    by_cases hm : m / 2 ^ 52 = 0
    · rw [if_pos hm]
      calc m % 2 ^ 52 ≤ 2 ^ 52 * 1 := by omega
        _ ≤ 2 ^ 52 * 2 ^ (n / 2 ^ 52 - 1) := Nat.mul_le_mul_left _ Nat.one_le_two_pow
    · rw [if_neg hm]
      calc (2 ^ 52 + m % 2 ^ 52) * 2 ^ (m / 2 ^ 52 - 1) ≤ (2 ^ 52 * 2) * 2 ^ (m / 2 ^ 52 - 1) :=
            Nat.mul_le_mul_right _ (by omega)
        _ = 2 ^ 52 * 2 ^ (m / 2 ^ 52) := by
            rw [Nat.mul_assoc, ← Nat.pow_succ', Nat.succ_eq_add_one, Nat.sub_add_cancel (by omega)]
        _ ≤ 2 ^ 52 * 2 ^ (n / 2 ^ 52 - 1) := Nat.mul_le_mul_left _ (Nat.pow_le_pow_right (by decide) (by omega))
  · have heq : m / 2 ^ 52 = n / 2 ^ 52 := le_antisymm (Nat.div_le_div_right h) hge
    have hfraction : m % 2 ^ 52 ≤ n % 2 ^ 52 := by omega
    rw [heq]
    split
    · exact hfraction
    · exact Nat.mul_le_mul_right _ (by omega)

theorem units_mono (h : x.key ≤ y.key) : x.units ≤ y.units := by
  unfold key at h
  unfold units
  dsimp only
  have hxy := unitsOfMagnitude_mono (m := x.magnitude) (n := y.magnitude)
  have hyx := unitsOfMagnitude_mono (m := y.magnitude) (n := x.magnitude)
  cases hx : x.signbit <;> cases hy : y.signbit <;> simp only [hx, hy, if_true, if_false, Bool.false_eq_true] at h ⊢
  · exact_mod_cast hxy (by omega)
  · have hzero : x.magnitude = 0 := by omega
    have hzero' : y.magnitude = 0 := by omega
    rw [hzero, hzero']
    decide
  · omega
  · have hle := hyx (by omega)
    omega

theorem zero_le_sub (hx : x.isFinite = true) (hy : y.isFinite = true) (h : y ≤ x) :
    (⟨0⟩ : Binary64) ≤ x - y := by
  refine ⟨by decide, isNaN_sub_of_isFinite hx hy, ?_⟩
  have hunits := units_mono h.2.2
  show (0 : Int) ≤ (sub x y).key
  unfold sub
  simp only [isNaN_of_isFinite hx, isNaN_of_isFinite hy, hx, hy, Bool.or_self, Bool.and_self,
    Bool.false_eq_true, if_false, if_true]
  split
  · next hzero =>
      simp only [Bool.and_eq_true, beq_iff_eq] at hzero
      rw [key, hzero.1.2]
      split <;> simp
  · have hlt : roundMagnitude (x.units - y.units).natAbs < 2 ^ 63 :=
      Nat.lt_of_le_of_lt (roundMagnitude_le _) (by decide)
    rw [ofUnits, decide_eq_false (by omega), key, signbit_ofSignMagnitude_false hlt]
    simp

theorem sub_self {x : Binary64} (hx : x.isFinite = true) : x - x = ⟨0⟩ := by
  show sub x x = ⟨0⟩
  unfold sub
  simp only [isNaN_of_isFinite hx, hx, Bool.or_self, Bool.and_self, Bool.false_eq_true, if_false, if_true,
    Bool.and_not_self, Bool.false_and, Int.sub_self]
  rfl

/-! ## Maxima

`std::max(a, b)` is `a < b ? b : a`, so a NaN second argument is dropped. -/

/-- `std::max`. -/
def max (a b : Binary64) : Binary64 := if a < b then b else a

theorem le_max_left {a b : Binary64} (ha : a.isNaN = false) : a ≤ max a b := by
  unfold max
  split
  · rename_i h
    obtain ⟨h₁, h₂, h₃⟩ := h
    exact ⟨h₁, h₂, by omega⟩
  · exact ⟨ha, ha, by omega⟩

theorem le_max_right {a b : Binary64} (ha : a.isNaN = false) (hb : b.isNaN = false) :
    b ≤ max a b := by
  unfold max
  split
  · exact ⟨hb, hb, by omega⟩
  · rename_i h
    exact le_of_not_lt hb ha h

theorem max_le {a b c : Binary64} (ha : a ≤ c) (hb : b ≤ c) : max a b ≤ c := by
  unfold max
  split
  · exact hb
  · exact ha

theorem isNaN_max {a b : Binary64} (ha : a.isNaN = false) : (max a b).isNaN = false :=
  (le_max_left ha).2.1

theorem foldl_max_le_iff {α : Type} {f : α → Binary64} {c : Binary64} :
    ∀ (l : List α) (a : Binary64), a.isNaN = false →
      (∀ s ∈ l, (f s).isNaN = false) →
      (l.foldl (fun r s => max r (f s)) a ≤ c ↔ a ≤ c ∧ ∀ s ∈ l, f s ≤ c) := by
  intro l
  induction l with
  | nil =>
    intro a _ _
    simp
  | cons s l ih =>
    intro a ha hf
    have hs : (f s).isNaN = false := hf s List.mem_cons_self
    have hmax : max a (f s) ≤ c ↔ a ≤ c ∧ f s ≤ c := by
      constructor
      · intro h
        exact ⟨le_trans' (le_max_left ha) h,
          le_trans' (le_max_right ha hs) h⟩
      · rintro ⟨h₁, h₂⟩
        exact max_le h₁ h₂
    rw [List.foldl_cons, ih _ (isNaN_max ha) (fun t ht => hf t (List.mem_cons_of_mem s ht)), hmax]
    simp only [List.forall_mem_cons, and_assoc]

theorem le_foldl_max {α : Type} {f : α → Binary64} :
    ∀ (l : List α) (a : Binary64), a.isNaN = false →
      a ≤ l.foldl (fun r s => max r (f s)) a := by
  intro l
  induction l with
  | nil =>
    intro a ha
    exact ⟨ha, ha, le_refl _⟩
  | cons s l ih =>
    intro a ha
    exact le_trans' (le_max_left ha) (ih _ (isNaN_max ha))

theorem natAbs_key (x : Binary64) : x.key.natAbs = x.magnitude := by
  unfold key
  split <;> simp

theorem isFinite_of_le {x c : Binary64} (hx : (⟨0⟩ : Binary64) ≤ x) (hc : x ≤ c)
    (hfin : c.key < infMagnitude) : x.isFinite = true := by
  have hnonneg : 0 ≤ x.key := hx.2.2
  have hle : x.key ≤ c.key := hc.2.2
  have habs := natAbs_key x
  rw [isFinite, decide_eq_true_eq]
  omega

end Binary64

end Bravo
