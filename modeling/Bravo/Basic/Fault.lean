import Bravo.Basic.Exec

/-! # Programs under faults

A program that works on the world `σ` through operations that can raise. What they raise is a script,
one entry for each operation in the order in which they are called: nothing, or an exception, raised
before the operation has taken effect or after it. A script that has run out raises nothing, so the
finite scripts are all runs. A property of every run is a property of every script.
-/

namespace Bravo

open List hiding modify

structure Raise (ε : Type) where
  exn : ε
  applied : Bool := false
deriving DecidableEq, Repr

structure Machine (ε σ : Type) where
  state : σ
  script : List (Option (Raise ε)) := []

abbrev Faulty (ε σ : Type) := EStateM ε (Machine ε σ)

section Faults

variable {ε σ τ α β : Type}

def operate (f : σ → σ) : Faulty ε σ Unit := fun m =>
  match m.script with
  | [] => .ok ⟨⟩ ⟨f m.state, []⟩
  | none :: rest => .ok ⟨⟩ ⟨f m.state, rest⟩
  | some r :: rest => .error r.exn ⟨if r.applied then f m.state else m.state, rest⟩

def query (g : σ → α) : Faulty ε σ α := do
  operate id
  let m ← get
  return g m.state

/-- An operation whose refusal is a raise as well: `f` is its effect where it is not refused. -/
def operateChecked (f : σ → Except ε σ) : Faulty ε σ Unit := do
  let m ← get
  match f m.state with
  | .error e => do
    operate id
    throw e
  | .ok s => operate fun _ => s

def update (f : σ → σ) : Faulty ε σ Unit := modify fun m => { m with state := f m.state }

/-- `try`/`except BaseException`: the exception is a value of the program. -/
def attempt (x : EStateM ε τ α) : EStateM ε τ (Except ε α) := fun s =>
  match x s with
  | .ok a t => .ok (.ok a) t
  | .error e t => .ok (.error e) t

/-- How a program that may die ends early: by an exception, or killed, which no handler catches. -/
inductive Exit (ε : Type)
  | raised (e : ε)
  | killed
deriving DecidableEq, Repr

/-- `try`/`except BaseException` of a process that may die. -/
def rescue (x : EStateM (Exit ε) τ α) : EStateM (Exit ε) τ (Except ε α) := fun s =>
  match x s with
  | .ok a t => .ok (.ok a) t
  | .error (.raised e) t => .ok (.error e) t
  | .error .killed t => .error .killed t

def gather (f : α → EStateM ε τ (List β)) : List α → EStateM ε τ (List β)
  | [] => return []
  | a :: as => do
    let first ← f a
    let rest ← gather f as
    return first ++ rest

variable {m : Machine ε σ}

/-! ## Rules -/

variable {E : ε → Machine ε σ → Prop} {Q : Unit → Machine ε σ → Prop}

theorem wp_operate {f : σ → σ}
    (hok : ∀ script, Q ⟨⟩ ⟨f m.state, script⟩) (hbefore : ∀ e script, E e ⟨m.state, script⟩)
    (hafter : ∀ e script, E e ⟨f m.state, script⟩) : wp (operate f) Q E m := by
  obtain ⟨s, script⟩ := m
  rcases script with _ | ⟨_ | ⟨e, _ | _⟩, rest⟩
  · exact hok []
  · exact hok rest
  · exact hbefore e rest
  · exact hafter e rest

theorem wp_operate_head {f : σ → σ}
    (hok : m.script.head?.join = none → Q ⟨⟩ ⟨f m.state, m.script.tail⟩)
    (hraise : ∀ r, m.script.head?.join = some r →
      E r.exn ⟨if r.applied then f m.state else m.state, m.script.tail⟩) : wp (operate f) Q E m := by
  obtain ⟨s, script⟩ := m
  rcases script with _ | ⟨_ | r, rest⟩
  · exact hok rfl
  · exact hok rfl
  · exact hraise r rfl

/-- The next `n` operations raise nothing. -/
def Quiet (n : Nat) (script : List (Option (Raise ε))) : Prop := ∀ entry ∈ script.take n, entry = none

variable {script : List (Option (Raise ε))}

theorem quiet_succ {n : Nat} :
    Quiet (n + 1) script ↔ script.head?.join = none ∧ Quiet n script.tail := by
  cases script with
  | nil => simp [Quiet]
  | cons entry rest => simp [Quiet]

theorem quiet_zero (script : List (Option (Raise ε))) : Quiet 0 script := by simp [Quiet]

theorem quiet_add {n k : Nat} :
    Quiet (n + k) script ↔ Quiet n script ∧ Quiet k (script.drop n) := by
  simp only [Quiet, take_add, mem_append]
  exact ⟨fun h => ⟨fun e he => h e (.inl he), fun e he => h e (.inr he)⟩,
    fun h e he => he.elim (h.1 e) (h.2 e)⟩

theorem wp_operate_quiet {f : σ → σ} {n : Nat} (hquiet : Quiet (n + 1) m.script)
    (hok : Quiet n m.script.tail → Q ⟨⟩ ⟨f m.state, m.script.tail⟩) : wp (operate f) Q E m := by
  obtain ⟨hhead, htail⟩ := quiet_succ.mp hquiet
  refine wp_operate_head (fun _ => hok htail) (fun r hr => ?_)
  rw [hhead] at hr
  cases hr

instance {n : Nat} {script : List (Option (Raise ε))} : Decidable (Quiet n script) :=
  decidable_of_iff ((script.take n).all Option.isNone = true) (by simp [Quiet])

/-- The next `n` operations of `m` raised nothing, and `m'` is what follows them. -/
structure Passed (n : Nat) (m m' : Machine ε σ) : Prop where
  quiet : Quiet n m.script
  rest : m'.script = m.script.drop n

theorem Passed.refl (m : Machine ε σ) : Passed 0 m m := ⟨quiet_zero _, rfl⟩

theorem Passed.trans {n k : Nat} {m m₁ m₂ : Machine ε σ} (h₁ : Passed n m m₁) (h₂ : Passed k m₁ m₂) :
    Passed (n + k) m m₂ where
  quiet := quiet_add.mpr ⟨h₁.quiet, h₁.rest ▸ h₂.quiet⟩
  rest := by rw [h₂.rest, h₁.rest, drop_drop]

theorem Passed.not_quiet {n j k : Nat} {m m' : Machine ε σ} (h : Passed n m m') (hj : ¬ Quiet j m'.script)
    (hle : n + j ≤ k) : ¬ Quiet k m.script := by
  intro hk
  obtain ⟨l, rfl⟩ := Nat.exists_eq_add_of_le hle
  exact hj (h.rest ▸ (quiet_add.mp (quiet_add.mp hk).1).2)

theorem wp_operate_passed (f : σ → σ) (m : Machine ε σ) :
    wp (operate f) (fun _ m' => Passed 1 m m' ∧ m'.state = f m.state)
      (fun _ m' => ¬ Quiet 1 m.script ∧ (m'.state = m.state ∨ m'.state = f m.state)) m := by
  refine wp_operate_head (fun hhead => ?_) (fun r hr => ⟨fun hquiet => ?_, ?_⟩)
  · exact ⟨⟨quiet_succ.mpr ⟨hhead, quiet_zero _⟩, drop_one.symm⟩, rfl⟩
  · rw [(quiet_succ.mp hquiet).1] at hr
    cases hr
  · cases r.applied
    · exact .inl rfl
    · exact .inr rfl

theorem wp_query_passed (g : σ → α) (m : Machine ε σ) :
    wp (query g) (fun a m' => Passed 1 m m' ∧ m'.state = m.state ∧ a = g m.state)
      (fun _ m' => ¬ Quiet 1 m.script ∧ m'.state = m.state) m := by
  rw [query, wp_bind]
  refine wp_mono (wp_operate_passed id m) (fun _ m₁ h₁ => ?_) (fun _ m₁ h₁ => ⟨h₁.1, h₁.2.elim id id⟩)
  rw [wp_bind, wp_get]
  exact ⟨h₁.1, h₁.2, congrArg g h₁.2⟩

theorem not_quiet_of_head {r : Raise ε} (h : script.head?.join = some r) : ¬ Quiet 1 script := by
  intro hquiet
  rw [(quiet_succ.mp hquiet).1] at h
  cases h

theorem wp_operateChecked_passed {f : σ → Except ε σ} {m : Machine ε σ} {s : σ} (hf : f m.state = .ok s) :
    wp (operateChecked f) (fun _ m' => Passed 1 m m' ∧ m'.state = s)
      (fun _ m' => ∃ r, m.script.head?.join = some r ∧ m'.state = if r.applied then s else m.state) m := by
  rw [operateChecked, wp_bind, wp_get, hf]
  refine wp_operate_head (fun hhead => ?_) (fun r hr => ⟨r, hr, rfl⟩)
  exact ⟨⟨quiet_succ.mpr ⟨hhead, quiet_zero _⟩, drop_one.symm⟩, rfl⟩

/-- `x` performs `n` operations: it returns where they raise nothing, and it raises otherwise. -/
def Performs (n : Nat) (x : Faulty ε σ α) (G : α → σ → Prop) (B : σ → Prop) (m : Machine ε σ) : Prop :=
  wp x (fun a m' => Passed n m m' ∧ G a m'.state) (fun _ m' => ¬ Quiet n m.script ∧ B m'.state) m

section Performs

variable {n k : Nat} {x : Faulty ε σ α} {f : α → Faulty ε σ β} {G : α → σ → Prop} {G' : β → σ → Prop} {B : σ → Prop}

theorem Performs.pure {a : α} (h : G a m.state) : Performs 0 (Pure.pure a) G B m := ⟨.refl m, h⟩

theorem Performs.bind (hx : Performs n x G B m) (hf : ∀ a m₁, G a m₁.state → Performs k (f a) G' B m₁) :
    Performs (n + k) (x >>= f) G' B m := by
  rw [Performs, wp_bind]
  refine wp_mono hx (fun a m₁ h₁ => ?_) (fun _ _ h => ⟨(Passed.refl m).not_quiet h.1 (by omega), h.2⟩)
  exact wp_mono (hf a m₁ h₁.2) (fun _ _ h => ⟨h₁.1.trans h.1, h.2⟩) (fun _ _ h => ⟨h₁.1.not_quiet h.1 le_rfl, h.2⟩)

theorem Performs.wp_then (hx : Performs n x G B m) {Q : β → Machine ε σ → Prop} {E : ε → Machine ε σ → Prop}
    (hQ : ∀ a m₁, G a m₁.state → wp (f a) Q E m₁) (hE : ∀ e m₁, B m₁.state → E e m₁) : wp (x >>= f) Q E m :=
  (wp_bind _ _).mpr (wp_mono hx (fun a m₁ h => hQ a m₁ h.2) fun e m₁ h => hE e m₁ h.2)

theorem Performs.mono {G' : α → σ → Prop} (hx : Performs n x G B m) (hG : ∀ a s, G a s → G' a s) :
    Performs n x G' B m := wp_mono hx (fun a _ h => ⟨h.1, hG a _ h.2⟩) fun _ _ h => h

theorem performs_operate (f : σ → σ) (hbefore : B m.state) (hafter : B (f m.state)) :
    Performs 1 (operate f) (fun _ s => s = f m.state) B m :=
  wp_mono (wp_operate_passed f m) (fun _ _ h => h) fun _ _ h => ⟨h.1, h.2.elim (· ▸ hbefore) (· ▸ hafter)⟩

theorem performs_query (g : σ → α) (hB : B m.state) :
    Performs 1 (query g) (fun a s => s = m.state ∧ a = g m.state) B m :=
  wp_mono (wp_query_passed g m) (fun _ _ h => h) fun _ _ h => ⟨h.1, h.2 ▸ hB⟩

theorem performs_operateChecked {f : σ → Except ε σ} {s : σ} (hf : f m.state = .ok s) (hbefore : B m.state)
    (hafter : B s) : Performs 1 (operateChecked f) (fun _ t => t = s) B m := by
  refine wp_mono (wp_operateChecked_passed hf) (fun _ _ h => h) (fun _ m₁ h₁ => ?_)
  obtain ⟨r, hr, hstate⟩ := h₁
  refine ⟨not_quiet_of_head hr, ?_⟩
  rw [hstate]
  split
  · exact hafter
  · exact hbefore

end Performs

variable {g : σ → α}

theorem wp_query {Q : α → Machine ε σ → Prop}
    (hok : ∀ script, Q (g m.state) ⟨m.state, script⟩) (herr : ∀ e script, E e ⟨m.state, script⟩) :
    wp (query g) Q E m := by
  rw [query, wp_bind]
  refine wp_operate (fun script => ?_) herr herr
  rw [wp_bind, wp_get]
  exact hok script

theorem wp_operateChecked {f : σ → Except ε σ}
    (hok : ∀ s script, f m.state = .ok s → Q ⟨⟩ ⟨s, script⟩)
    (hbefore : ∀ e script, E e ⟨m.state, script⟩)
    (hafter : ∀ e s script, f m.state = .ok s → E e ⟨s, script⟩) : wp (operateChecked f) Q E m := by
  rw [operateChecked, wp_bind, wp_get]
  cases hf : f m.state with
  | error e =>
    rw [wp_bind]
    exact wp_operate (fun script => hbefore e script) hbefore hbefore
  | ok s =>
    exact wp_operate (fun script => hok s script hf) hbefore (fun e script => hafter e s script hf)

@[simp] theorem wp_update {f : σ → σ} :
    wp (update f) Q E m ↔ Q ⟨⟩ { m with state := f m.state } := Iff.rfl

@[simp] theorem wp_attempt {x : EStateM ε τ α} {Q : Except ε α → τ → Prop} {E : ε → τ → Prop} {s : τ} :
    wp (attempt x) Q E s ↔ wp x (fun a t => Q (.ok a) t) (fun e t => Q (.error e) t) s := by
  unfold wp attempt EStateM.run
  dsimp only
  cases x s <;> rfl

variable {x : EStateM (Exit ε) τ α}

theorem wp_rescue {Q : Except ε α → τ → Prop} {E : Exit ε → τ → Prop} {s : τ}
    (h : wp x (fun a t => Q (.ok a) t)
      (fun e t => (∀ e', e = .raised e' → Q (.error e') t) ∧ (e = .killed → E .killed t)) s) :
    wp (rescue x) Q E s := by
  unfold wp rescue EStateM.run at *
  dsimp only
  match hx : x s with
  | .ok a t =>
    rw [hx] at h
    exact h
  | .error (.raised e) t =>
    rw [hx] at h
    exact h.1 e rfl
  | .error .killed t =>
    rw [hx] at h
    exact h.2 rfl

theorem Performs.rescue {n j : Nat} {x : Faulty (Exit ε) σ α} {f : Except ε α → Faulty (Exit ε) σ β} {G : α → σ → Prop}
    {G' : β → σ → Prop} {B : σ → Prop} {m : Machine (Exit ε) σ} (hx : Performs n x G B m)
    (hok : ∀ a m₁, G a m₁.state → Performs j (f (.ok a)) G' B m₁)
    (herror : ∀ e m₁, B m₁.state → wp (f (.error e)) (fun _ _ => False) (fun _ m' => B m'.state) m₁) :
    Performs (n + j) (Bravo.rescue x >>= f) G' B m := by
  rw [Performs, wp_bind]
  refine wp_rescue (wp_mono hx (fun a m₁ h₁ => ?_) (fun _ m₁ h₁ => ?_))
  · exact wp_mono (hok a m₁ h₁.2) (fun _ _ h => ⟨h₁.1.trans h.1, h.2⟩)
      (fun _ _ h => ⟨h₁.1.not_quiet h.1 le_rfl, h.2⟩)
  · have hraised := (Passed.refl m).not_quiet (k := n + j) h₁.1 (by omega)
    exact ⟨fun e _ => wp_mono (herror e m₁ h₁.2) (fun _ _ => False.elim) (fun _ _ h => ⟨hraised, h⟩),
      fun _ => ⟨hraised, h₁.2⟩⟩

theorem wp_rescue_killed (x : EStateM (Exit ε) τ α) (s : τ) :
    wp (rescue x) (fun _ _ => True) (fun e _ => e = .killed) s :=
  wp_rescue (wp_mono (wp_trivial x s) (fun _ _ _ => trivial) (fun _ _ _ => ⟨fun _ _ => trivial, fun _ => rfl⟩))

/-! ## Frames -/

/-- Whatever its outcome, the program leaves the world as it was. -/
abbrev Reports (x : Faulty ε σ α) : Prop := Keeps Machine.state x

theorem reports_operate_id : Reports (operate id : Faulty ε σ Unit) :=
  fun _ => wp_operate (fun _ => rfl) (fun _ _ => rfl) (fun _ _ => rfl)

theorem reports_query (g : σ → α) : Reports (query g : Faulty ε σ α) :=
  fun _ => wp_query (fun _ => rfl) (fun _ _ => rfl)

/-- The program reports `g` of the world, or raises, and leaves the world as it was. -/
def Observes (x : Faulty ε σ α) (g : σ → α) : Prop :=
  ∀ m, wp x (fun a m' => m'.state = m.state ∧ a = g m.state) (fun _ m' => m'.state = m.state) m

theorem Observes.reports {x : Faulty ε σ α} (hx : Observes x g) : Reports x :=
  fun m => wp_mono (hx m) (fun _ _ h => h.1) (fun _ _ h => h)

theorem Observes.wp {x : Faulty ε σ α} (hx : Observes x g) {Q : α → Machine ε σ → Prop}
    (hQ : ∀ m', m'.state = m.state → Q (g m.state) m')
    (hE : ∀ e m', m'.state = m.state → E e m') : Bravo.wp x Q E m :=
  wp_mono (hx m) (fun _ m' h => h.2 ▸ hQ m' h.1) (fun e m' h => hE e m' h)

theorem observes_query (g : σ → α) : Observes (query g : Faulty ε σ α) g :=
  fun _ => wp_query (fun _ => ⟨rfl, rfl⟩) (fun _ _ => rfl)

theorem observes_pure (a : α) : Observes (pure a : Faulty ε σ α) fun _ => a := fun _ => ⟨rfl, rfl⟩

theorem Observes.bind {x : Faulty ε σ α} {k : α → Faulty ε σ β} {h : α → σ → β}
    (hx : Observes x g) (hk : ∀ a, Observes (k a) (h a)) : Observes (x >>= k) fun s => h (g s) s := by
  intro m
  rw [wp_bind]
  refine hx.wp (fun m₁ h₁ => ?_) (fun _ m₁ h₁ => h₁)
  refine (hk _).wp (fun m₂ h₂ => ?_) (fun _ m₂ h₂ => h₂.trans h₁)
  exact ⟨h₂.trans h₁, by rw [h₁]⟩

theorem Observes.of_reports {x : Faulty ε σ β} {k : β → Faulty ε σ α} (hx : Reports x)
    (hk : ∀ b, Observes (k b) g) : Observes (x >>= k) g := by
  intro m
  refine hx.wp_then (fun b m₁ h₁ => ?_) (fun _ m₁ h₁ => h₁)
  refine (hk b).wp (fun m₂ h₂ => ?_) (fun _ m₂ h₂ => h₂.trans h₁)
  exact ⟨h₂.trans h₁, by rw [h₁]⟩

theorem wp_gather_checks {f : α → Faulty ε σ (List β)} {P : α → σ → Prop}
    (hf : ∀ a m, wp (f a) (fun _ m' => m'.state = m.state ∧ P a m.state)
      (fun _ m' => m'.state = m.state) m) (as : List α) :
    ∀ m, wp (gather f as) (fun _ m' => m'.state = m.state ∧ ∀ a ∈ as, P a m.state)
      (fun _ m' => m'.state = m.state) m := by
  induction as with
  | nil =>
    intro m
    exact ⟨rfl, fun a ha => by cases ha⟩
  | cons a as ih =>
    intro m
    rw [gather, wp_bind]
    refine wp_mono (hf a m) (fun _ m₁ h₁ => ?_) (fun _ _ he => he)
    rw [wp_bind]
    refine wp_mono (ih m₁) (fun _ m₂ h₂ => ?_) (fun _ m₂ h₂ => h₂.trans h₁.1)
    refine ⟨h₂.1.trans h₁.1, fun a' ha' => ?_⟩
    rcases mem_cons.mp ha' with rfl | ha'
    · exact h₁.2
    · exact h₁.1 ▸ h₂.2 a' ha'

theorem Keeps.of_attempt {f : τ → β} {x : EStateM ε τ α} (hx : Keeps f x) : Keeps f (attempt x) := by
  intro s
  rw [wp_attempt]
  exact hx s

theorem Preserves.of_rescue {P : τ → Prop} (hx : Preserves P x) : Preserves P (rescue x) :=
  fun s hs => wp_rescue (wp_mono (hx s hs) (fun _ _ h => h) (fun _ _ h => ⟨fun _ _ => h, fun _ => h⟩))

theorem Keeps.of_rescue {f : τ → β} (hx : Keeps f x) : Keeps f (rescue x) :=
  fun s => wp_rescue (wp_mono (hx s) (fun _ _ h => h) (fun _ _ h => ⟨fun _ _ => h, fun _ => h⟩))

theorem Keeps.wp_rescue {f : τ → β} (hx : Keeps f x)
    {Q : Except ε α → τ → Prop} {E : Exit ε → τ → Prop} {s : τ} (hQ : ∀ a t, f t = f s → Q a t)
    (hE : ∀ t, f t = f s → E .killed t) : Bravo.wp (rescue x) Q E s :=
  Bravo.wp_rescue (hx.wp (fun a t h => hQ _ t h) (fun e t h => ⟨fun e' _ => hQ _ t h, fun _ => hE t h⟩))

theorem Keeps.of_gather {γ : Type} {g : τ → γ} {f : α → EStateM ε τ (List β)} (hf : ∀ a, Keeps g (f a)) :
    ∀ as, Keeps g (gather f as)
  | [] => Keeps.of_pure _
  | a :: as => Keeps.bind (hf a) fun _ => Keeps.bind (Keeps.of_gather hf as) fun _ => Keeps.of_pure _

theorem Preserves.of_gather {P : τ → Prop} {f : α → EStateM ε τ (List β)} {as : List α}
    (hf : ∀ a ∈ as, Preserves P (f a)) : Preserves P (gather f as) := by
  induction as with
  | nil => exact Preserves.of_pure _
  | cons a as ih =>
    refine Preserves.bind (hf a mem_cons_self) (fun _ => ?_)
    refine Preserves.bind (ih fun a' ha' => hf a' (mem_cons_of_mem a ha')) (fun _ => ?_)
    exact Preserves.of_pure _

theorem Reports.keeps {f : σ → τ} {x : Faulty ε σ α} (hx : Reports x) :
    Keeps (fun m : Machine ε σ => f m.state) x :=
  fun _ => hx.wp (fun _ _ h => congrArg f h) (fun _ _ h => congrArg f h)

theorem Reports.preserves {P : σ → Prop} {x : Faulty ε σ α} (hx : Reports x) :
    Preserves (fun m : Machine ε σ => P m.state) x :=
  Preserves.of_keeps hx fun h hP => by rwa [h]

theorem Preserves.of_operate {P : σ → Prop} {g : σ → σ} (h : ∀ s, P s → P (g s)) :
    Preserves (fun m : Machine ε σ => P m.state) (operate g : Faulty ε σ Unit) :=
  fun m hm => wp_operate (fun _ => h _ hm) (fun _ _ => hm) (fun _ _ => h _ hm)

theorem Preserves.of_update {P : σ → Prop} {g : σ → σ} (h : ∀ s, P s → P (g s)) :
    Preserves (fun m : Machine ε σ => P m.state) (update g : Faulty ε σ Unit) :=
  fun m hm => h m.state hm

theorem Keeps.of_update {f : σ → τ} {g : σ → σ} (h : ∀ s, f (g s) = f s) :
    Keeps (fun m : Machine ε σ => f m.state) (update g : Faulty ε σ Unit) := fun m => h m.state

theorem Keeps.of_operate {f : σ → τ} {g : σ → σ} (h : ∀ s, f (g s) = f s) :
    Keeps (fun m : Machine ε σ => f m.state) (operate g : Faulty ε σ Unit) :=
  fun _ => wp_operate (fun _ => h _) (fun _ _ => rfl) (fun _ _ => h _)

end Faults

end Bravo
