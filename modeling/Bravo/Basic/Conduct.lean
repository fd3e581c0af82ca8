import Bravo.Basic.Fault

/-! # What a program does

What a program under faults can do is said once, so that each invariant is a short case analysis.
`Does A x`: whatever the outcome of `x`, the world it leaves is reached by acts of the relation `A`.
-/

namespace Bravo

section Conduct

variable {ε σ α β : Type} {A B : σ → σ → Prop}

/-! ## Acts -/

abbrev Acts (A : σ → σ → Prop) : σ → σ → Prop := Relation.ReflTransGen A

def Does (A : σ → σ → Prop) (x : Faulty ε σ α) : Prop :=
  ∀ m, wp x (fun _ m' => Acts A m.state m'.state) (fun _ m' => Acts A m.state m'.state) m

namespace Does

variable {x : Faulty ε σ α}

theorem mono (hx : Does A x) (h : ∀ s s', A s s' → B s s') : Does B x :=
  fun m => wp_mono (hx m) (fun _ _ => Relation.ReflTransGen.mono h _ _)
    (fun _ _ => Relation.ReflTransGen.mono h _ _)

theorem of_pure (a : α) : Does A (pure a : Faulty ε σ α) := fun _ => .refl

theorem of_throw (e : ε) : Does A (throw e : Faulty ε σ α) := fun _ => .refl

theorem of_reports (hx : Reports x) : Does A x :=
  fun _ => hx.wp (fun _ _ h => h ▸ .refl) (fun _ _ h => h ▸ .refl)

theorem bind {x : Faulty ε σ β} {k : β → Faulty ε σ α} (hx : Does A x) (hk : ∀ b, Does A (k b)) :
    Does A (x >>= k) := by
  intro m
  rw [wp_bind]
  refine wp_mono (hx m) (fun b m₁ h₁ => ?_) (fun _ _ h => h)
  exact wp_mono (hk b m₁) (fun _ _ h => h₁.trans h) (fun _ _ h => h₁.trans h)

theorem after {x : Faulty ε σ β} {k : β → Faulty ε σ α} (hx : Reports x) (hk : ∀ b, Does A (k b)) :
    Does A (x >>= k) :=
  bind (of_reports hx) hk

theorem of_update {f : σ → σ} (h : ∀ s, Acts A s (f s)) : Does A (update f : Faulty ε σ Unit) :=
  fun m => h m.state

theorem of_operate {f : σ → σ} (h : ∀ s, Acts A s (f s)) : Does A (operate f : Faulty ε σ Unit) :=
  fun m => wp_operate (fun _ => h m.state) (fun _ _ => .refl) (fun _ _ => h m.state)

theorem ite {c : Prop} [Decidable c] {x y : Faulty ε σ α} (hx : Does A x) (hy : Does A y) :
    Does A (if c then x else y) := by
  split
  · exact hx
  · exact hy

theorem of_onlyIf {c : Bool} {x : Faulty ε σ Unit} (hx : Does A x) : Does A (onlyIf c x) := by
  cases c
  · exact of_pure _
  · exact hx

theorem of_onSome {o : Option β} {f : β → Faulty ε σ Unit} (hf : ∀ b, Does A (f b)) :
    Does A (onSome o f) := by
  cases o with
  | none => exact of_pure _
  | some b => exact hf b

theorem of_attempt (hx : Does A x) : Does A (attempt x) := fun m => by
  rw [wp_attempt]
  exact hx m

theorem of_get {k : Machine ε σ → Faulty ε σ α} (hk : ∀ m, Does A (k m)) : Does A (get >>= k) :=
  bind (fun _ => .refl) hk

theorem of_rescue {x : Faulty (Exit ε) σ α} (hx : Does A x) : Does A (rescue x) :=
  fun m => wp_rescue (wp_mono (hx m) (fun _ _ h => h) (fun _ _ h => ⟨fun _ _ => h, fun _ => h⟩))

theorem preserves {P : σ → Prop} (hx : Does A x) (h : ∀ s s', A s s' → P s → P s') :
    Preserves (fun m => P m.state) x := by
  intro m hm
  have hacts : ∀ s', Acts A m.state s' → P s' := fun s' hs => by
    induction hs with
    | refl => exact hm
    | tail _ hact ih => exact h _ _ hact ih
  exact wp_mono (hx m) (fun _ _ hs => hacts _ hs) (fun _ _ hs => hacts _ hs)

end Does

end Conduct

end Bravo
