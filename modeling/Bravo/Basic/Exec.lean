import Mathlib.Tactic

/-! # Stateful programs with exceptions, and runs of a transition system

C++ code that mutates an object and may throw is a program in `EStateM ε σ`: an exception
leaves the mutations made before it in place. The first part collects the rules by which such
programs are taken apart. The second part is about runs: a list of steps of a transition
system, each entry holding the state before, the input and the state after.
-/

namespace Bravo

universe u

/-! ## Programs -/

section Programs

variable {ε σ τ α β : Type u}

def finalState : EStateM.Result ε σ α → σ
  | .ok _ s => s
  | .error _ s => s

@[simp] theorem finalState_ok (a : α) (s : σ) :
    finalState (.ok a s : EStateM.Result ε σ α) = s := rfl

@[simp] theorem finalState_error (e : ε) (s : σ) :
    finalState (.error e s : EStateM.Result ε σ α) = s := rfl

def liftExcept (x : Except ε α) : EStateM ε σ α :=
  match x with
  | .ok a => pure a
  | .error e => throw e

def onlyIf (c : Bool) (x : EStateM ε σ PUnit) : EStateM ε σ PUnit := if c then x else pure ⟨⟩

/-- A statement on the object behind a pointer, skipped when the pointer is null. -/
def onSome (x : Option α) (f : α → EStateM ε σ PUnit) : EStateM ε σ PUnit :=
  match x with
  | some a => f a
  | none => pure ⟨⟩

/-! ### Weakest preconditions

`wp x Q E s`: started in `s`, `x` returns with `Q` or throws with `E`. One equation for each
construct, all of them simp lemmas, so that `simp` with the definition of a program turns a
goal about its run into goals about its callees. -/

def wp (x : EStateM ε σ α) (Q : α → σ → Prop) (E : ε → σ → Prop) (s : σ) : Prop :=
  match x.run s with
  | .ok a t => Q a t
  | .error e t => E e t

variable {Q : α → σ → Prop} {E : ε → σ → Prop} {s : σ}

variable {x : EStateM ε σ α}

theorem wp_of_ok {a : α} {t : σ} (h : x.run s = .ok a t) : wp x Q E s ↔ Q a t := by
  rw [wp, h]

theorem wp_of_error {e : ε} {t : σ} (h : x.run s = .error e t) : wp x Q E s ↔ E e t := by
  rw [wp, h]

instance decidableWp {x : EStateM ε σ α} [∀ a t, Decidable (Q a t)] [∀ e t, Decidable (E e t)] :
    Decidable (wp x Q E s) :=
  match h : x.run s with
  | .ok a t => decidable_of_iff (Q a t) (wp_of_ok h).symm
  | .error e t => decidable_of_iff (E e t) (wp_of_error h).symm

theorem wp_ok_iff : wp x Q (fun _ _ => False) s ↔ ∃ a t, x.run s = .ok a t ∧ Q a t := by
  unfold wp
  cases hrun : x.run s with
  | ok a t => simp
  | error e t => simp

theorem wp_iff_finalState {P : σ → Prop} :
    wp x (fun _ t => P t) (fun _ t => P t) s ↔ P (finalState (x.run s)) := by
  unfold wp
  cases x.run s <;> rfl

theorem wp_finalState (x : EStateM ε σ α) (s : σ) :
    wp x (fun _ t => t = finalState (x.run s)) (fun _ t => t = finalState (x.run s)) s := by
  unfold wp
  cases x.run s <;> rfl

theorem wp_mono {Q' : α → σ → Prop} {E' : ε → σ → Prop} (h : wp x Q E s)
    (hQ : ∀ a t, Q a t → Q' a t) (hE : ∀ e t, E e t → E' e t) : wp x Q' E' s := by
  unfold wp at *
  cases hrun : x.run s with
  | ok a t =>
    rw [hrun] at h
    exact hQ a t h
  | error e t =>
    rw [hrun] at h
    exact hE e t h

theorem wp_trivial (x : EStateM ε σ α) (s : σ) : wp x (fun _ _ => True) (fun _ _ => True) s := by
  unfold wp
  cases x.run s <;> trivial

theorem wp_and {Q' : α → σ → Prop} {E' : ε → σ → Prop} (h : wp x Q E s)
    (h' : wp x Q' E' s) : wp x (fun a t => Q a t ∧ Q' a t) (fun e t => E e t ∧ E' e t) s := by
  unfold wp at *
  cases hrun : x.run s with
  | ok a t =>
    rw [hrun] at h h'
    exact ⟨h, h'⟩
  | error e t =>
    rw [hrun] at h h'
    exact ⟨h, h'⟩

@[simp] theorem wp_pure (a : α) : wp (pure a) Q E s ↔ Q a s := Iff.rfl

@[simp] theorem wp_throw (e : ε) : wp (throw e) Q E s ↔ E e s := Iff.rfl

@[simp] theorem wp_get {Q : σ → σ → Prop} : wp get Q E s ↔ Q s s := Iff.rfl

@[simp] theorem wp_modify {Q : PUnit → σ → Prop} (f : σ → σ) :
    wp (modify f) Q E s ↔ Q ⟨⟩ (f s) := Iff.rfl

@[simp] theorem wp_bind (x : EStateM ε σ β) (g : β → EStateM ε σ α) :
    wp (x >>= g) Q E s ↔ wp x (fun b t => wp (g b) Q E t) E s := by
  unfold wp
  rw [EStateM.run_bind]
  cases x.run s <;> rfl

@[simp] theorem wp_liftExcept (x : Except ε α) :
    wp (liftExcept x) Q E s ↔ (∀ a, x = .ok a → Q a s) ∧ (∀ e, x = .error e → E e s) := by
  cases x with
  | ok b => simp [liftExcept]
  | error e => simp [liftExcept]

@[simp] theorem wp_ite {c : Prop} [Decidable c] (x y : EStateM ε σ α) :
    wp (if c then x else y) Q E s ↔ (c → wp x Q E s) ∧ (¬ c → wp y Q E s) := by
  split <;> simp [*]

@[simp] theorem wp_onlyIf {Q : PUnit → σ → Prop} (c : Bool) (x : EStateM ε σ PUnit) :
    wp (onlyIf c x) Q E s ↔ (c = true → wp x Q E s) ∧ (c = false → Q ⟨⟩ s) := by
  cases c <;> simp [onlyIf]

@[simp] theorem wp_onSome {Q : PUnit → σ → Prop} (x : Option β) (f : β → EStateM ε σ PUnit) :
    wp (onSome x f) Q E s ↔ (∀ b, x = some b → wp (f b) Q E s) ∧ (x = none → Q ⟨⟩ s) := by
  cases x <;> simp [onSome]

/-! ### Frames -/

/-- Whatever its outcome, `x` leaves the part `f` of the state as it was. -/
def Keeps (f : σ → τ) (x : EStateM ε σ α) : Prop :=
  ∀ s, wp x (fun _ t => f t = f s) (fun _ t => f t = f s) s

theorem Keeps.wp {f : σ → τ} {x : EStateM ε σ α} (hx : Keeps f x)
    (hQ : ∀ a t, f t = f s → Q a t) (hE : ∀ e t, f t = f s → E e t) : wp x Q E s :=
  wp_mono (hx s) hQ hE

theorem Keeps.wp_then {f : σ → τ} {x : EStateM ε σ β} {g : β → EStateM ε σ α} (hx : Keeps f x)
    (hg : ∀ b t, f t = f s → Bravo.wp (g b) Q E t) (hE : ∀ e t, f t = f s → E e t) :
    Bravo.wp (x >>= g) Q E s := by
  rw [wp_bind]
  exact hx.wp hg hE

section Frames

variable {f : σ → τ}

theorem Keeps.of_pure (a : α) : Keeps f (pure a : EStateM ε σ α) := fun _ => rfl

theorem Keeps.of_throw (e : ε) : Keeps f (throw e : EStateM ε σ α) := fun _ => rfl

theorem Keeps.of_modify {g : σ → σ} (h : ∀ s, f (g s) = f s) :
    Keeps f (modify g : EStateM ε σ PUnit) := h

theorem Keeps.bind {x : EStateM ε σ β} {g : β → EStateM ε σ α} (hx : Keeps f x)
    (hg : ∀ b, Keeps f (g b)) : Keeps f (x >>= g) := by
  intro s
  rw [wp_bind]
  refine wp_mono (hx s) (fun b t ht => ?_) (fun _ _ he => he)
  exact wp_mono (hg b t) (fun _ _ hu => hu.trans ht) (fun _ _ hu => hu.trans ht)

theorem Keeps.of_get {g : σ → EStateM ε σ α} (hg : ∀ s, Keeps f (g s)) : Keeps f (get >>= g) :=
  Keeps.bind (fun _ => rfl) hg

theorem Keeps.ite {c : Prop} [Decidable c] {x y : EStateM ε σ α} (hx : Keeps f x)
    (hy : Keeps f y) : Keeps f (if c then x else y) := by
  split
  · exact hx
  · exact hy

theorem Keeps.of_onlyIf {c : Bool} {x : EStateM ε σ PUnit} (hx : Keeps f x) :
    Keeps f (onlyIf c x) := by
  cases c
  · exact Keeps.of_pure _
  · exact hx

end Frames

/-! ### Preservation -/

/-- Whatever its outcome, `x` started where `P` holds ends where `P` holds. -/
def Preserves (P : σ → Prop) (x : EStateM ε σ α) : Prop :=
  ∀ s, P s → wp x (fun _ t => P t) (fun _ t => P t) s

section Preservation

variable {P : σ → Prop}

theorem Preserves.of_keeps {f : σ → τ} {x : EStateM ε σ α} (hx : Keeps f x)
    (hP : ∀ {s t}, f t = f s → P s → P t) : Preserves P x :=
  fun _ hs => hx.wp (fun _ _ h => hP h hs) (fun _ _ h => hP h hs)

theorem Preserves.of_throw (e : ε) : Preserves P (throw e : EStateM ε σ α) := fun _ hs => hs

theorem Preserves.or {P' : σ → Prop} {x : EStateM ε σ α} (hx : Preserves P x) (hx' : Preserves P' x) :
    Preserves (fun s => P s ∨ P' s) x := by
  rintro s (hs | hs)
  · exact wp_mono (hx s hs) (fun _ _ h => .inl h) (fun _ _ h => .inl h)
  · exact wp_mono (hx' s hs) (fun _ _ h => .inr h) (fun _ _ h => .inr h)

theorem Preserves.of_pure (a : α) : Preserves P (pure a : EStateM ε σ α) := fun _ hs => hs

theorem Preserves.of_modify {g : σ → σ} (h : ∀ s, P s → P (g s)) :
    Preserves P (modify g : EStateM ε σ PUnit) := h

theorem Preserves.bind {x : EStateM ε σ β} {g : β → EStateM ε σ α} (hx : Preserves P x)
    (hg : ∀ b, Preserves P (g b)) : Preserves P (x >>= g) := by
  intro s hs
  rw [wp_bind]
  exact wp_mono (hx s hs) (fun b t ht => hg b t ht) (fun _ _ ht => ht)

theorem Preserves.of_get {g : σ → EStateM ε σ α} (hg : ∀ s, Preserves P (g s)) :
    Preserves P (get >>= g) :=
  Preserves.bind (fun _ hs => hs) hg

theorem Preserves.of_lift {x : Except ε β} {g : β → EStateM ε σ α} (hg : ∀ b, Preserves P (g b)) :
    Preserves P (liftExcept x >>= g) := by
  refine Preserves.bind (fun s hs => ?_) hg
  rw [wp_liftExcept]
  exact ⟨fun _ _ => hs, fun _ _ => hs⟩

theorem Preserves.ite {c : Prop} [Decidable c] {x y : EStateM ε σ α} (hx : Preserves P x)
    (hy : Preserves P y) : Preserves P (if c then x else y) := by
  split
  · exact hx
  · exact hy

theorem Preserves.of_onlyIf {c : Bool} {x : EStateM ε σ PUnit} (hx : Preserves P x) :
    Preserves P (onlyIf c x) := by
  cases c
  · exact Preserves.of_pure _
  · exact hx

theorem Preserves.of_onSome {x : Option β} {f : β → EStateM ε σ PUnit}
    (hf : ∀ b, Preserves P (f b)) : Preserves P (onSome x f) := by
  cases x with
  | none => exact Preserves.of_pure _
  | some b => exact hf b

theorem Preserves.finalState {x : EStateM ε σ α} (hx : Preserves P x) {s : σ} (hs : P s) :
    P (Bravo.finalState (x.run s)) :=
  wp_iff_finalState.mp (hx s hs)

end Preservation

/-! ### Two programs

`relWp x y Q E s t`: where `x` returns from `s`, `y` returns from `t` and the two ends are related by
`Q`; where `x` throws, `E` holds and nothing is said about `y`. -/

section Relational

variable {γ δ : Type u} {Q : α → β → σ → τ → Prop} {t : τ}

def relWp (x : EStateM ε σ α) (y : EStateM ε τ β) (Q : α → β → σ → τ → Prop) (E : ε → σ → Prop)
    (s : σ) (t : τ) : Prop :=
  wp x (fun a s' => wp y (fun b t' => Q a b s' t') (fun _ _ => False) t) E s

theorem relWp_mono {x : EStateM ε σ α} {y : EStateM ε τ β} {Q' : α → β → σ → τ → Prop}
    {E' : ε → σ → Prop} (h : relWp x y Q E s t) (hQ : ∀ a b s' t', Q a b s' t' → Q' a b s' t')
    (hE : ∀ e s', E e s' → E' e s') : relWp x y Q' E' s t :=
  wp_mono h (fun a s' hy => wp_mono hy (fun b t' => hQ a b s' t') (fun _ _ hfalse => hfalse)) hE

theorem relWp_pure {a : α} {b : β} (h : Q a b s t) : relWp (pure a) (pure b) Q E s t := h

theorem relWp_get {Q : σ → τ → σ → τ → Prop} (h : Q s t s t) : relWp get get Q E s t := h

theorem relWp_modify {Q : PUnit → PUnit → σ → τ → Prop} {f : σ → σ} {g : τ → τ}
    (h : Q ⟨⟩ ⟨⟩ (f s) (g t)) : relWp (modify f) (modify g) Q E s t := h

theorem relWp_throw {y : EStateM ε τ β} {e : ε} (h : E e s) : relWp (throw e) y Q E s t := h

theorem relWp_bind {x : EStateM ε σ α} {y : EStateM ε τ β} {f : α → EStateM ε σ γ}
    {g : β → EStateM ε τ δ} {Q : γ → δ → σ → τ → Prop}
    (h : relWp x y (fun a b s' t' => relWp (f a) (g b) Q E s' t') E s t) :
    relWp (x >>= f) (y >>= g) Q E s t := by
  unfold relWp at *
  rw [wp_bind]
  refine wp_mono h (fun a s' hy => ?_) (fun e s' he => he)
  -- `y` returns one value, at which `f a` and `g b` are related
  obtain ⟨b, t', hrun, hf⟩ := wp_ok_iff.mp hy
  refine wp_mono hf (fun c s'' hg => ?_) (fun e s'' he => he)
  rw [wp_bind]
  exact (wp_of_ok hrun).mpr hg

end Relational

end Programs

/-! ## Runs -/

structure Entry (σ ι : Type u) where
  pre : σ
  input : ι
  post : σ

section Runs

variable {σ ι : Type u} {step : σ → ι → σ → Prop} {init : σ}

/-- `Run step init es s`: the steps `es`, in order, lead from `init` to `s`. -/
inductive Run (step : σ → ι → σ → Prop) (init : σ) : List (Entry σ ι) → σ → Prop
  | nil : Run step init [] init
  | snoc {es : List (Entry σ ι)} {s s' : σ} {i : ι} :
      Run step init es s → step s i s' → Run step init (es ++ [⟨s, i, s'⟩]) s'

variable {es : List (Entry σ ι)} {s : σ}

theorem Run.invariant {P : σ → Prop} (hinit : P init) (hstep : ∀ s i s', P s → step s i s' → P s')
    (h : Run step init es s) : P s := by
  induction h with
  | nil => exact hinit
  | snoc _ hs ih => exact hstep _ _ _ ih hs

theorem Run.history {P : List (Entry σ ι) → σ → Prop} (hinit : P [] init)
    (hstep : ∀ es s i s', P es s → step s i s' → P (es ++ [⟨s, i, s'⟩]) s')
    (h : Run step init es s) : P es s := by
  induction h with
  | nil => exact hinit
  | snoc _ hs ih => exact hstep _ _ _ _ ih hs

theorem Run.cons {init' : σ} {i : ι} (hs : step init i init')
    (h : Run step init' es s) : Run step init (⟨init, i, init'⟩ :: es) s := by
  induction h with
  | nil => exact Run.snoc Run.nil hs
  | snoc _ hs' ih => exact Run.snoc ih hs'

theorem Run.entry {P : σ → Prop} (hinit : P init) (hstep : ∀ s i s', P s → step s i s' → P s')
    (h : Run step init es s) : ∀ e ∈ es, P e.pre ∧ step e.pre e.input e.post := by
  induction h with
  | nil =>
    intro e he
    cases he
  | snoc hr hs ih =>
    intro e he
    rcases List.mem_append.mp he with he | he
    · exact ih e he
    · rw [List.mem_singleton] at he
      subst he
      exact ⟨hr.invariant hinit hstep, hs⟩

theorem Run.nil_inv (h : Run step init [] s) : s = init := by
  generalize hes : ([] : List (Entry σ ι)) = es at h
  cases h with
  | nil => rfl
  | snoc _ _ => simp at hes

theorem Run.snoc_inv {e : Entry σ ι} (h : Run step init (es ++ [e]) s) :
    Run step init es e.pre ∧ step e.pre e.input e.post ∧ s = e.post := by
  generalize hes : es ++ [e] = es' at h
  cases h with
  | nil => simp at hes
  | snoc hr hs =>
    obtain ⟨rfl, he⟩ := List.append_inj' hes rfl
    cases he
    exact ⟨hr, hs, rfl⟩

theorem Run.split {es₁ : List (Entry σ ι)} (es₂ : List (Entry σ ι)) :
    ∀ {s : σ}, Run step init (es₁ ++ es₂) s → ∃ t, Run step init es₁ t ∧ Run step t es₂ s := by
  induction es₂ using List.reverseRecOn with
  | nil =>
    intro s h
    rw [List.append_nil] at h
    exact ⟨s, h, Run.nil⟩
  | append_singleton es₂ e ih =>
    intro s h
    rw [← List.append_assoc] at h
    obtain ⟨hr, hs, rfl⟩ := h.snoc_inv
    obtain ⟨t, h₁, h₂⟩ := ih hr
    exact ⟨t, h₁, Run.snoc h₂ hs⟩

theorem Run.uncons {e : Entry σ ι} (h : Run step init (e :: es) s) :
    e.pre = init ∧ step e.pre e.input e.post ∧ Run step e.post es s := by
  rw [← List.singleton_append] at h
  obtain ⟨t, h₁, h₂⟩ := Run.split es h
  rw [← List.nil_append [e]] at h₁
  obtain ⟨hpre, hs, rfl⟩ := h₁.snoc_inv
  exact ⟨hpre.nil_inv, hs, h₂⟩

end Runs

end Bravo
