import Mathlib.Data.List.Perm.Subperm
import Mathlib.Tactic.Common

/-! # First-forward matching

A scan over positions of two colours that joins an unused position with the first later one of the
other colour, if that one is unused and the two are near enough. A position between the two ends of a
pair has the colour of the first end, so its partner would be the second end: the pairs of a scan come
one behind the other (`scan_pairwise`), and nothing that is left over could have been joined
(`scan_maximal`).
-/

namespace Bravo.FirstForward

open List

section Scan

variable (colour : Nat → Option Bool) (near : Nat → Nat → Bool) (size : Nat)

def opposite (i j : Nat) : Bool :=
  match colour i, colour j with
  | some a, some b => a != b
  | _, _ => false

def firstLater (i : Nat) : Option Nat :=
  (List.range' (i + 1) (size - (i + 1))).find? (opposite colour i)

structure Matching where
  used : List Nat := []
  pairs : List (Nat × Nat) := []

def step (m : Matching) (i : Nat) : Matching :=
  if colour i = none ∨ i ∈ m.used then m
  else
    match firstLater colour size i with
    | none => m
    | some c =>
      if c ∈ m.used ∨ near i c = false then m
      else ⟨i :: c :: m.used, m.pairs ++ [(i, c)]⟩

def scan (count : Nat) : Matching := (List.range count).foldl (step colour near size) {}

end Scan

section Facts

variable {colour : Nat → Option Bool} {near : Nat → Nat → Bool} {size : Nat}

theorem scan_succ (count : Nat) :
    scan colour near size (count + 1) = step colour near size (scan colour near size count) count := by
  rw [scan, range_succ, foldl_append]
  rfl

theorem firstLater_eq_some {i c : Nat} :
    firstLater colour size i = some c ↔ i < c ∧ c < size ∧ opposite colour i c = true ∧
      ∀ j, i < j → j < c → opposite colour i j = false := by
  rw [firstLater, find?_range'_eq_some]
  constructor
  · rintro ⟨hopposite, hmem, hbefore⟩
    rw [mem_range'_1] at hmem
    exact ⟨by omega, by omega, hopposite, fun j hj hjc => by simpa using hbefore j hj hjc⟩
  · rintro ⟨hlt, hsize, hopposite, hbefore⟩
    refine ⟨hopposite, ?_, fun j hj hjc => by simpa using hbefore j hj hjc⟩
    rw [mem_range'_1]
    omega

theorem opposite_congr {i k : Nat} (hi : colour i ≠ none) (hk : colour k ≠ none)
    (h : opposite colour i k = false) (j : Nat) : opposite colour k j = opposite colour i j := by
  obtain ⟨a, ha⟩ := Option.ne_none_iff_exists'.mp hi
  obtain ⟨b, hb⟩ := Option.ne_none_iff_exists'.mp hk
  have hab : a = b := by simpa [opposite, ha, hb] using h
  simp only [opposite, ha, hb, hab]

theorem firstLater_between {i k c : Nat} (hc : firstLater colour size i = some c)
    (hi : colour i ≠ none) (hk : colour k ≠ none) (hik : i < k) (hkc : k < c) :
    firstLater colour size k = some c := by
  obtain ⟨-, hsize, hopposite, hbefore⟩ := firstLater_eq_some.mp hc
  have hsame := opposite_congr hi hk (hbefore k hik hkc)
  refine firstLater_eq_some.mpr ⟨hkc, hsize, (hsame c).trans hopposite, fun j hj hjc => ?_⟩
  exact (hsame j).trans (hbefore j (Nat.lt_trans hik hj) hjc)

structure Allowed (colour : Nat → Option Bool) (near : Nat → Nat → Bool) (size : Nat)
    (p : Nat × Nat) : Prop where
  coloured : colour p.1 ≠ none
  partner : firstLater colour size p.1 = some p.2
  near : near p.1 p.2 = true

structure Scanned (colour : Nat → Option Bool) (near : Nat → Nat → Bool) (size count : Nat)
    (m : Matching) : Prop where
  used : ∀ i, i ∈ m.used ↔ ∃ p ∈ m.pairs, i = p.1 ∨ i = p.2
  allowed : ∀ p ∈ m.pairs, p.1 < count ∧ Allowed colour near size p
  ordered : m.pairs.Pairwise fun p q => p.2 < q.1
  maximal : ∀ i < count, colour i ≠ none → i ∉ m.used → ∀ c, firstLater colour size i = some c →
    (∃ p ∈ m.pairs, p.1 < i ∧ (c = p.1 ∨ c = p.2)) ∨ near i c = false

theorem scanned_scan (count : Nat) : Scanned colour near size count (scan colour near size count) := by
  induction count with
  | zero =>
    exact ⟨fun i => by simp [scan], fun p hp => absurd hp (by simp [scan]), List.Pairwise.nil,
      fun i hi => absurd hi (Nat.not_lt_zero i)⟩
  | succ count ih =>
    rw [scan_succ]
    generalize scan colour near size count = m at ih ⊢
    -- A position that is skipped for a reason keeps the invariant.
    have hskip : (colour count ≠ none → count ∉ m.used → ∀ c, firstLater colour size count = some c →
        (∃ p ∈ m.pairs, p.1 < count ∧ (c = p.1 ∨ c = p.2)) ∨ near count c = false) →
        Scanned colour near size (count + 1) m := by
      intro hreason
      refine ⟨ih.used, fun p hp => ⟨Nat.lt_trans (ih.allowed p hp).1 (Nat.lt_succ_self count),
        (ih.allowed p hp).2⟩, ih.ordered, fun i hi hcoloured hunused c hc => ?_⟩
      rcases Nat.lt_succ_iff_lt_or_eq.mp hi with hlt | rfl
      · exact ih.maximal i hlt hcoloured hunused c hc
      · exact hreason hcoloured hunused c hc
    unfold step
    split_ifs with hfree
    · refine hskip fun hcoloured hunused => ?_
      exact absurd hfree (not_or.mpr ⟨hcoloured, hunused⟩)
    · obtain ⟨hcoloured, hunused⟩ := not_or.mp hfree
      cases hpartner : firstLater colour size count with
      | none => exact hskip fun _ _ c hc => absurd (hpartner.symm.trans hc) nofun
      | some c =>
        simp only
        split_ifs with htaken
        · refine hskip fun _ _ c' hc' => ?_
          have hsame : c = c' := Option.some.inj (hpartner.symm.trans hc')
          subst hsame
          refine htaken.imp (fun hused => ?_) id
          obtain ⟨p, hp, heq⟩ := (ih.used c).mp hused
          exact ⟨p, hp, (ih.allowed p hp).1, heq⟩
        · obtain ⟨hfresh, hnear⟩ := not_or.mp htaken
          have hcountc : count < c := (firstLater_eq_some.mp hpartner).1
          -- The pairs before end before this position.
          have hbehind : ∀ p ∈ m.pairs, p.2 < count := by
            intro p hp
            obtain ⟨hlt, hallowed⟩ := ih.allowed p hp
            by_contra hnot
            rcases Nat.lt_or_eq_of_le (Nat.le_of_not_lt hnot) with hinside | heq
            · have hother := firstLater_between hallowed.partner hallowed.coloured hcoloured hlt
                hinside
              have hcp : c = p.2 := Option.some.inj (hpartner.symm.trans hother)
              exact hfresh ((ih.used c).mpr ⟨p, hp, .inr hcp⟩)
            · exact hunused ((ih.used count).mpr ⟨p, hp, .inr heq⟩)
          refine ⟨fun i => ?_, fun p hp => ?_, ?_, fun i hi hci hui d hd => ?_⟩
          · simp only [mem_cons, ih.used, mem_append, not_mem_nil, or_false]
            constructor
            · rintro (rfl | rfl | ⟨p, hp, heq⟩)
              · exact ⟨(i, c), .inr rfl, .inl rfl⟩
              · exact ⟨(count, i), .inr rfl, .inr rfl⟩
              · exact ⟨p, .inl hp, heq⟩
            · rintro ⟨p, hp | rfl, heq⟩
              · exact .inr (.inr ⟨p, hp, heq⟩)
              · exact heq.imp id .inl
          · rcases mem_append.mp hp with hold | hnew
            · exact ⟨Nat.lt_trans (ih.allowed p hold).1 (Nat.lt_succ_self count),
                (ih.allowed p hold).2⟩
            · rw [mem_singleton.mp hnew]
              exact ⟨Nat.lt_succ_self count, hcoloured, hpartner, by simpa using hnear⟩
          · rw [pairwise_append]
            refine ⟨ih.ordered, pairwise_singleton _ _, fun p hp q hq => ?_⟩
            rw [mem_singleton.mp hq]
            exact hbehind p hp
          · simp only [mem_cons, not_or] at hui
            rcases Nat.lt_succ_iff_lt_or_eq.mp hi with hlt | rfl
            · refine (ih.maximal i hlt hci hui.2.2 d hd).imp ?_ id
              rintro ⟨p, hp, hrest⟩
              exact ⟨p, mem_append_left _ hp, hrest⟩
            · exact absurd rfl hui.1

theorem Scanned.ends_rise {count : Nat} {m : Matching} (h : Scanned colour near size count m) :
    (m.pairs.flatMap fun p => [p.1, p.2]).Pairwise (· < ·) := by
  have hrises : ∀ p ∈ m.pairs, p.1 < p.2 := fun p hp =>
    (firstLater_eq_some.mp (h.allowed p hp).2.partner).1
  rw [pairwise_flatMap]
  refine ⟨fun p hp => by simpa using hrises p hp, h.ordered.imp_of_mem ?_⟩
  intro p q hp hq hpq x hx y hy
  have hp' := hrises p hp
  have hq' := hrises q hq
  simp only [mem_cons, not_mem_nil, or_false] at hx hy
  omega

theorem Scanned.length_le {count : Nat} {m : Matching} (h : Scanned colour near size count m) :
    m.pairs.length ≤ count := by
  have hfirst : (m.pairs.map Prod.fst).Nodup := by
    rw [List.Nodup, pairwise_map]
    refine h.ordered.imp_of_mem fun {p q} hp hq hpq => ?_
    have := (firstLater_eq_some.mp (h.allowed p hp).2.partner).1
    omega
  have hsubset : m.pairs.map Prod.fst ⊆ List.range count := by
    intro i hi
    obtain ⟨p, hp, rfl⟩ := mem_map.mp hi
    exact mem_range.mpr (h.allowed p hp).1
  have hle := (subperm_of_subset hfirst hsubset).length_le
  rwa [length_map, length_range] at hle

end Facts

end Bravo.FirstForward
