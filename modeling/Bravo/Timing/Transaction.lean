import Bravo.Timing.Restoration

/-! # Runs of a host-control transaction

One transaction under any sequence of its calls. `apply` captures, journals and mutates, and restores
on its own failure; what holds between the calls is an invariant by the state of the transaction, what
holds at every instant of a call is that the host has its captured values or they are in the journal.
-/

namespace Bravo.Timing

section Apply

variable {p : Profile} {b : Backend} {h₀ : Host} {clock : Nat → Nat}
variable {m : Machine (Exit ControlError) Control}

/-! ## The capture -/

theorem leaves_applyCheckpoint (name : String) (journal : Bool) :
    Leaves calm (checkpoint .apply name journal) :=
  leaves_checkpoint (fun _ _ => rfl) (fun _ _ => rfl) _ _ _

theorem reports_validateSmtTopology : Reports (validateSmtTopology p b) := by
  unfold validateSmtTopology
  cases b.smtSiblingGroups with
  | none => exact .of_pure _
  | some groups => exact .bind (reports_query _) fun _ => .of_onlyIf (.of_throw _)

def Control.capturedAs (p : Profile) (clock : Nat → Nat) (s : Control) : Control :=
  { s with
    readings := s.readings + 1
    snapshot := some (captureOf p s.host.settings)
    priorReceipt := some ⟨p.sha256, "prior", clock s.readings, .prior (captureOf p s.host.settings)⟩
    state := .captured }

/-- An `apply` that raised before its snapshot was kept: nothing was captured, or the capture is
forgotten. -/
def Uncaptured (s s' : Control) : Prop :=
  books s' = books s ∨
    books s' = books { s with
      readings := s.readings + 1, snapshot := none, priorReceipt := none, state := .new }

theorem leaves_applyReady : Leaves calm (applyReady p b) := by
  refine .bind (leaves_applyCheckpoint _ _) (fun _ => ?_)
  refine .bind reports_operate_id.keeps (fun _ => ?_)
  refine .bind (leaves_applyCheckpoint _ _) (fun _ => ?_)
  exact .bind reports_validateSmtTopology.keeps fun _ => leaves_applyCheckpoint _ _

theorem wp_applyCapture (hnew : m.state.state = .new) :
    wp (applyCapture p b clock)
      (fun snapshot m' => snapshot = captureOf p m.state.host.settings ∧
        calm m'.state = calm (m.state.capturedAs p clock))
      (fun e m' => m'.state.host = m.state.host ∧ m'.state.durable = m.state.durable ∧
        (e ≠ .killed → Uncaptured m.state m'.state)) m := by
  rw [applyCapture, wp_bind, wp_read, wp_bind, wp_onlyIf]
  refine ⟨fun hne => by simp [hnew] at hne, fun _ => ?_⟩
  have hleft : ∀ {e : Exit ControlError} {m' : Machine (Exit ControlError) Control},
      calm m'.state = calm m.state →
        m'.state.host = m.state.host ∧ m'.state.durable = m.state.durable ∧
          (e ≠ .killed → Uncaptured m.state m'.state) := by
    intro e m' h
    have hbooks := congrArg Prod.snd h
    exact ⟨congrArg Prod.fst h, congrArg Prod.fst hbooks, fun _ => .inl hbooks⟩
  refine Keeps.wp_then leaves_applyReady (fun _ m₁ h₁ => ?_) (fun _ m₁ h₁ => hleft h₁)
  rw [wp_bind]
  refine (observes_capture p b).wp (fun m₂ h₂ => ?_) (fun _ m₂ h₂ => hleft (h₂ ▸ h₁))
  have hcalm : calm m₂.state = calm m.state := h₂ ▸ h₁
  simp only [calm, books, Prod.mk.injEq] at hcalm
  have hkept : calm (m₂.state.capturedAs p clock) = calm (m.state.capturedAs p clock) := by
    simp [calm, books, Control.capturedAs, hcalm]
  rw [wp_bind, wp_receipt, wp_bind, wp_update, wp_bind, confirmCapture, wp_bind, ← h₂]
  refine Keeps.wp_rescue (leaves_applyCheckpoint _ _) (fun outcome m₃ h₃ => ?_) (fun m₃ h₃ => ?_)
  · have h₃ : calm m₃.state = calm (m.state.capturedAs p clock) := h₃.trans hkept
    cases outcome with
    | ok _ => exact ⟨congrArg _ (congrArg Host.settings hcalm.1), h₃⟩
    | error e =>
      simp only [calm, books, Control.capturedAs, Prod.mk.injEq] at h₃
      refine ⟨h₃.1, h₃.2.1, fun _ => .inr ?_⟩
      simp [books, h₃]
  · have h₃ : calm m₃.state = calm (m.state.capturedAs p clock) := h₃.trans hkept
    exact ⟨congrArg Prod.fst h₃, congrArg Prod.fst (congrArg Prod.snd h₃), fun hne => absurd rfl hne⟩

/-! ## The journal -/

/-- What an `apply` writes only at its ends. -/
def kept (s : Control) := (s.readings, ledger s, s.restoredReceipt)

/-- What the creation of the journal leaves. -/
def still (s : Control) := (s.host, kept s, s.state)

theorem leaves_journalCreate (snapshot : ControlSnapshot) : Leaves still (journalCreate snapshot) := by
  refine .bind reports_operate_id.keeps (fun _ => ?_)
  refine .bind (.of_rescue (.bind (.of_operate fun _ => rfl)
    fun _ => reports_operate_id.keeps)) (fun outcome => ?_)
  cases outcome with
  | ok _ => exact .of_update fun _ => rfl
  | error e => exact .bind (.of_rescue (.of_operate fun _ => rfl)) fun _ => .of_throw _

variable {snapshot : ControlSnapshot}

theorem wp_journalCreate :
    wp (journalCreate snapshot) (fun _ m' => m'.state.durable = some snapshot) (fun _ _ => True) m := by
  have hcreate : ∀ m : Machine (Exit ControlError) Control,
      wp (do operate fun s : Control => { s with durable := some snapshot }; operate id)
        (fun _ m' => m'.state.durable = some snapshot) (fun _ _ => True) m := by
    intro m
    rw [wp_bind]
    refine wp_operate (fun script => ?_) (fun _ _ => trivial) (fun _ _ => trivial)
    exact wp_operate (fun script => rfl) (fun _ _ => trivial) (fun _ _ => trivial)
  rw [journalCreate]
  refine Keeps.wp_then (f := Machine.state) reports_operate_id (fun _ m₁ _ => ?_) (fun _ _ _ => trivial)
  rw [wp_bind]
  refine wp_rescue (wp_mono (hcreate m₁) (fun _ m₂ h₂ => h₂) (fun e m₂ _ => ⟨fun e' _ => ?_, fun _ => trivial⟩))
  rw [wp_bind]
  exact wp_rescue (wp_operate (fun _ => trivial) (fun _ _ => ⟨fun _ _ => trivial, fun _ => trivial⟩)
    (fun _ _ => ⟨fun _ _ => trivial, fun _ => trivial⟩))

/-- After a captured `apply` has begun: the host is safe, and the transaction is not marked restored. -/
structure Begun (s s' : Control) : Prop where
  kept : Timing.kept s' = Timing.kept s
  state : s'.state ≠ .restored

theorem begun_of_still {s s' : Control} (h : still s' = still s) (hstate : s.state ≠ .restored) :
    Begun s s' := by
  simp only [still, Prod.mk.injEq] at h
  exact ⟨h.2.1, h.2.2 ▸ hstate⟩

theorem wp_applyJournal {guardianEnabled : Bool} (hstate : m.state.state ≠ .restored) :
    wp (applyJournal guardianEnabled snapshot)
      (fun _ m' => m'.state.host = m.state.host ∧ Begun m.state m'.state ∧
        m'.state.durable = some snapshot)
      (fun _ m' => m'.state.host = m.state.host ∧ Begun m.state m'.state) m := by
  have hcheckpoint : ∀ name journal, Leaves calm (checkpoint .apply name journal) :=
    fun _ _ => leaves_applyCheckpoint _ _
  have hguardian : Leaves calm (onlyIf guardianEnabled (do
      checkpoint .apply "before_guardian"
      operate id
      update fun s => { s with guardian := some {} }
      checkpoint .apply "after_guardian")) := by
    refine .of_onlyIf (.bind (hcheckpoint _ _) fun _ => ?_)
    refine .bind reports_operate_id.keeps (fun _ => ?_)
    exact .bind (.of_update fun _ => rfl) fun _ => hcheckpoint _ _
  have hcalm : ∀ {s t : Control}, calm t = calm s → still t = still s := by
    intro s t h
    simp only [calm, books, Prod.mk.injEq] at h
    simp [still, kept, ledger, h]
  have herr : ∀ {t : Control}, still t = still m.state → t.host = m.state.host ∧ Begun m.state t :=
    fun h => ⟨congrArg Prod.fst h, begun_of_still h hstate⟩
  refine Keeps.wp_then (hcheckpoint _ _) (fun _ m₁ h₁ => ?_) (fun _ m₁ h₁ => herr (hcalm h₁))
  have h₁ := hcalm h₁
  rw [wp_bind]
  refine wp_mono (wp_and (leaves_journalCreate snapshot m₁) wp_journalCreate) (fun _ m₂ h₂ => ?_)
    (fun _ m₂ h₂ => herr (h₂.1.trans h₁))
  -- the journal is there from here on
  have hstill : still m₂.state = still m.state := h₂.1.trans h₁
  simp only [still, Prod.mk.injEq] at hstill
  rw [setState, wp_bind, wp_update]
  have hjournaled : ∀ {t : Control}, calm t = calm { m₂.state with state := .journaled } →
      t.host = m.state.host ∧ Begun m.state t ∧ t.durable = some snapshot := by
    intro t h
    have hfields := h
    simp only [calm, books, Prod.mk.injEq] at hfields
    refine ⟨hfields.1.trans hstill.1, ⟨?_, ?_⟩, hfields.2.1.trans h₂.2⟩
    · rw [← hstill.2.1]
      simp [kept, ledger, hfields]
    · simp [hfields]
  refine Keeps.wp_then (hcheckpoint _ _) (fun _ m₃ h₃ => ?_)
    (fun _ m₃ h₃ => ⟨(hjournaled h₃).1, (hjournaled h₃).2.1⟩)
  refine hguardian.wp (fun _ m₄ h₄ => hjournaled (h₄.trans h₃)) (fun _ m₄ h₄ => ?_)
  exact ⟨(hjournaled (h₄.trans h₃)).1, (hjournaled (h₄.trans h₃)).2.1⟩

/-! ## The mutations -/

section Mutations

variable {β : Type} {f : Control → β}

theorem leaves_mutation (hf : Frame f) {label : String} {x : Controlling Unit} (hx : Leaves f x) :
    Leaves f (mutation label x) :=
  .bind (leaves_checkpoint hf.history hf.guardian _ _ _) fun _ =>
    .bind hx fun _ => leaves_checkpoint hf.history hf.guardian _ _ _

theorem leaves_applyModule (hf : Frame f) (snapshot : ControlSnapshot) (entry : ModuleAction × Nat) :
    Leaves f (applyModule b snapshot entry) := by
  refine .bind (.of_onlyIf ?_) fun _ => .of_pure _
  refine .bind (leaves_mutation hf (.of_operate fun s => hf.settings s _)) (fun _ => ?_)
  exact .bind (observes_query _).reports.keeps fun _ => .of_onlyIf (.of_throw _)

theorem leaves_applyService (hf : Frame f) (snapshot : ControlSnapshot) (entry : ServiceAction × Nat) :
    Leaves f (applyService b snapshot entry) := by
  refine .bind (.of_onlyIf ?_) fun _ => .of_pure _
  refine .bind (leaves_mutation hf (.of_operate fun s => hf.settings s _)) (fun _ => ?_)
  exact .bind (observes_query _).reports.keeps fun _ => .of_onlyIf (.of_throw _)

theorem leaves_applyWrite (hf : Frame f) (entry : Write × Nat) : Leaves f (applyWrite b entry) := by
  refine .bind (leaves_mutation hf (.of_operate fun s => hf.settings s _)) (fun _ => ?_)
  refine .bind (observes_query _).reports.keeps (fun _ => ?_)
  refine .bind (reports_parseControlValue _ _ _).keeps (fun _ => ?_)
  exact .bind (.of_onlyIf (.of_throw _)) fun _ => .of_pure _

theorem leaves_holdDmaLatency
    (hd : ∀ s held, f { s with host := { s.host with dmaHeld := held } } = f s) :
    Leaves f holdDmaLatency := by
  intro m
  have hs : ∀ s, (if m.state.host.dmaHeld then
        Except.error (Exit.raised (ControlError.control "DMA-latency descriptor is already held"))
      else .ok { m.state with host := { m.state.host with dmaHeld := true } }) = .ok s →
      f s = f m.state := by
    intro s h
    split at h
    · cases h
    · cases h
      exact hd m.state true
  exact wp_operateChecked (fun s _ h => hs s h) (fun _ _ => rfl) (fun _ s _ h => hs s h)

end Mutations

def deep (s : Control) := (s.durable, kept s)

theorem wp_holdMutation :
    wp (mutation "dma_latency_hold" holdDmaLatency)
      (fun _ m' => m'.state.host.dmaHeld = true ∧ (deep m'.state, m'.state.state) = (deep m.state, m.state.state))
      (fun _ m' => (deep m'.state, m'.state.state) = (deep m.state, m.state.state)) m := by
  let f (s : Control) := (deep s, s.state)
  have hframe : Frame f := ⟨fun _ _ => rfl, fun _ _ => rfl, fun _ _ => rfl⟩
  have hheld : wp (mutation "dma_latency_hold" holdDmaLatency)
      (fun _ m' => m'.state.host.dmaHeld = true) (fun _ _ => True) m := by
    refine Keeps.wp_then (leaves_applyCheckpoint _ _) (fun _ m₁ _ => ?_) (fun _ _ _ => trivial)
    rw [holdDmaLatency, wp_bind]
    refine wp_operateChecked (fun s script h => ?_) (fun _ _ => trivial) (fun _ _ _ _ => trivial)
    have hs : s.host.dmaHeld = true := by
      split at h
      · cases h
      · cases h
        rfl
    refine (leaves_applyCheckpoint _ _).wp (fun _ m₂ h₂ => ?_) (fun _ _ _ => trivial)
    have h₂ : m₂.state.host = s.host := congrArg Prod.fst h₂
    rw [h₂, hs]
  exact wp_mono (wp_and hheld (leaves_mutation hframe (leaves_holdDmaLatency fun _ _ => rfl) m))
    (fun _ _ h => h) (fun _ _ h => h.2)

theorem wp_applyMutations (hstate : m.state.state ≠ .restored) :
    wp (applyMutations p b snapshot)
      (fun _ m' => deep m'.state = deep m.state ∧ m'.state.state = .applied ∧ m'.state.host.dmaHeld = true)
      (fun _ m' => deep m'.state = deep m.state ∧ m'.state.state ≠ .restored) m := by
  let f (s : Control) := (deep s, s.state)
  have hframe : Frame f := ⟨fun _ _ => rfl, fun _ _ => rfl, fun _ _ => rfl⟩
  rw [applyMutations]
  refine Keeps.wp_then (f := Machine.state) reports_operate_id (fun _ m₁ h₁ => ?_)
    (fun _ m₁ h₁ => by rw [h₁]; exact ⟨rfl, hstate⟩)
  rw [setState, wp_bind, wp_update, h₁]
  have herr : ∀ {t : Control}, f t = f { m.state with state := .applying } →
      deep t = deep m.state ∧ t.state ≠ .restored := by
    intro t h
    have h := Prod.mk.injEq .. ▸ h
    exact ⟨h.1, by simp [h.2]⟩
  refine Keeps.wp_then (Keeps.of_gather (leaves_applyModule hframe snapshot) _) (fun _ m₂ h₂ => ?_)
    (fun _ m₂ h₂ => herr h₂)
  refine Keeps.wp_then (Keeps.of_gather (leaves_applyService hframe snapshot) _) (fun _ m₃ h₃ => ?_)
    (fun _ m₃ h₃ => herr (h₃.trans h₂))
  refine Keeps.wp_then (Keeps.of_gather (leaves_applyWrite hframe) _) (fun _ m₄ h₄ => ?_)
    (fun _ m₄ h₄ => herr (h₄.trans (h₃.trans h₂)))
  refine Keeps.wp_then (leaves_mutation hframe (Keeps.of_operate fun _ => rfl)) (fun _ m₅ h₅ => ?_)
    (fun _ m₅ h₅ => herr (h₅.trans (h₄.trans (h₃.trans h₂))))
  have hsame := h₅.trans (h₄.trans (h₃.trans h₂))
  rw [wp_bind]
  refine wp_mono wp_holdMutation (fun _ m₆ h₆ => ?_) (fun _ m₆ h₆ => herr (h₆.trans hsame))
  exact ⟨(herr (h₆.2.trans hsame)).1, rfl, h₆.1⟩

/-! ## The applied record -/

/-- What `capture_applied_state` reads. -/
def appliedOf (p : Profile) (s : Settings) : AppliedState where
  values := valuesOf p.writes s
  modulesLoaded := sortedNames ((p.moduleActions.map (·.name)).filter s.modules)
  servicesActive := sortedNames ((p.serviceActions.map (·.name)).filter s.services)
  processAffinity := s.affinity
  dmaLatencyUs := p.dmaLatencyUs

theorem wp_check {α : Type} {ask : Controlling α} {g : Control → α} (hask : Observes ask g)
    {pass : α → Controlling (List Unit)} {P : Control → Prop}
    (hpass : ∀ m : Machine (Exit ControlError) Control,
      wp (pass (g m.state)) (fun _ m' => m'.state = m.state ∧ P m.state) (fun _ m' => m'.state = m.state) m)
    (m : Machine (Exit ControlError) Control) :
    wp (ask >>= pass) (fun _ m' => m'.state = m.state ∧ P m.state) (fun _ m' => m'.state = m.state) m := by
  rw [wp_bind]
  refine hask.wp (fun m₁ h₁ => ?_) (fun _ m₁ h₁ => h₁)
  rw [← h₁]
  exact hpass m₁

theorem wp_validateWrite (write : Write) :
    wp (validateWrite b write)
      (fun _ m' => m'.state = m.state ∧ m.state.host.settings.texts write.path = write.desiredText)
      (fun _ m' => m'.state = m.state) m := by
  refine wp_check (P := fun s : Control => s.host.settings.texts write.path = write.desiredText)
    (observes_query _) (fun m => ?_) m
  refine Keeps.wp_then (f := Machine.state) (reports_parseControlValue _ _ _) (fun _ m₁ h₁ => ?_)
    (fun _ m₁ h₁ => h₁)
  rw [wp_bind, wp_onlyIf]
  exact ⟨fun _ => h₁, fun heq => ⟨h₁, by simpa using heq⟩⟩

theorem wp_validateModule (action : ModuleAction) :
    wp (validateModule action)
      (fun _ m' => m'.state = m.state ∧ m.state.host.settings.modules action.name = true)
      (fun _ m' => m'.state = m.state) m := by
  refine wp_check (P := fun s : Control => s.host.settings.modules action.name = true)
    (observes_query _) (fun m => ?_) m
  rw [wp_bind, wp_onlyIf]
  exact ⟨fun _ => rfl, fun heq => ⟨rfl, by simpa using heq⟩⟩

theorem wp_validateService (action : ServiceAction) :
    wp (validateService action)
      (fun _ m' => m'.state = m.state ∧ m.state.host.settings.services action.name = false)
      (fun _ m' => m'.state = m.state) m := by
  refine wp_check (P := fun s : Control => s.host.settings.services action.name = false)
    (observes_query _) (fun m => ?_) m
  rw [wp_bind, wp_onlyIf]
  exact ⟨fun _ => rfl, fun heq => ⟨rfl, heq⟩⟩

theorem wp_validateApplied :
    wp (validateApplied p b)
      (fun _ m' => m'.state = m.state ∧ (m.state.host.dmaHeld = true → Desired p m.state.host))
      (fun _ m' => m'.state = m.state) m := by
  rw [validateApplied, wp_bind, wp_read, wp_bind, wp_onlyIf]
  refine ⟨fun _ => rfl, fun _ => ?_⟩
  refine Keeps.wp_then reports_validateSmtTopology (fun _ m₁ h₁ => ?_) (fun _ m₁ h₁ => h₁)
  rw [wp_bind]
  refine wp_mono (wp_gather_checks (P := fun write (s : Control) =>
    s.host.settings.texts write.path = write.desiredText) (fun write m => wp_validateWrite write) _ m₁)
    (fun _ m₂ h₂ => ?_) (fun _ m₂ h₂ => h₂.trans h₁)
  have hsame₂ := h₂.1.trans h₁
  rw [wp_bind]
  refine (observes_query _).wp (fun m₃ h₃ => ?_) (fun _ m₃ h₃ => h₃.trans hsame₂)
  have hsame₃ := h₃.trans hsame₂
  rw [wp_bind, wp_onlyIf]
  refine ⟨fun _ => hsame₃, fun haffinity => ?_⟩
  rw [wp_bind]
  refine wp_mono (wp_gather_checks (P := fun action (s : Control) =>
    s.host.settings.modules action.name = true) (fun action m => wp_validateModule action) _ m₃)
    (fun _ m₄ h₄ => ?_) (fun _ m₄ h₄ => h₄.trans hsame₃)
  have hsame₄ := h₄.1.trans hsame₃
  rw [wp_bind]
  refine wp_mono (wp_gather_checks (P := fun action (s : Control) =>
    s.host.settings.services action.name = false) (fun action m => wp_validateService action) _ m₄)
    (fun _ m₅ h₅ => ?_) (fun _ m₅ h₅ => h₅.trans hsame₄)
  have hsame₅ := h₅.1.trans hsame₄
  have hdma : Reports (onlyIf b.dmaLatencyActive (do
      let held ← query fun s : Control => s.host.dmaHeld
      onlyIf (!held) (failControl "DMA-latency descriptor is no longer held"))) :=
    .of_onlyIf (.bind (reports_query _) fun _ => .of_onlyIf (.of_throw _))
  refine hdma.wp (fun _ m₆ h₆ => ⟨h₆.trans hsame₅, fun hheld => ?_⟩) (fun _ m₆ h₆ => h₆.trans hsame₅)
  refine ⟨fun write hwrite => ?_, fun action haction => ?_, fun action haction => ?_, ?_, hheld⟩
  · rw [← h₁]
    exact h₂.2 write hwrite
  · rw [← hsame₃]
    exact h₄.2 action haction
  · rw [← hsame₄]
    exact h₅.2 action haction
  · rw [← hsame₂]
    simpa using haffinity

theorem reports_validateApplied : Reports (validateApplied p b) :=
  fun _ => wp_mono wp_validateApplied (fun _ _ h => h.1) (fun _ _ h => h)

theorem observes_captureAppliedState :
    Observes (captureAppliedState p b) fun s => appliedOf p s.host.settings := by
  let modules (s : Control) := sortedNames ((p.moduleActions.map (·.name)).filter s.host.settings.modules)
  refine .of_reports (observes_read _).reports fun _ => ?_
  refine .of_reports (.of_onlyIf (.of_throw _)) fun _ => ?_
  refine .of_reports reports_validateApplied fun _ => ?_
  refine .bind (h := fun active (s : Control) =>
    AppliedState.mk (valuesOf p.writes s.host.settings) (modules s) (sortedNames active)
      s.host.settings.affinity p.dmaLatencyUs)
    (observes_namesWhere (fun name => observes_query _) _) fun active => ?_
  refine .bind (h := fun loaded (s : Control) =>
    AppliedState.mk (valuesOf p.writes s.host.settings) (sortedNames loaded) (sortedNames active)
      s.host.settings.affinity p.dmaLatencyUs)
    (observes_namesWhere (fun name => observes_query _) _) fun loaded => ?_
  refine .bind (h := fun values (s : Control) =>
    AppliedState.mk values (sortedNames loaded) (sortedNames active) s.host.settings.affinity p.dmaLatencyUs)
    (observes_readValues _) fun values => ?_
  exact .bind (h := fun cpus _ =>
    AppliedState.mk values (sortedNames loaded) (sortedNames active) cpus p.dmaLatencyUs)
    (observes_query _) fun cpus => observes_pure _

theorem wp_recordApplied (hheld : m.state.host.dmaHeld = true) :
    wp (recordApplied p b clock)
      (fun _ m' => Desired p m.state.host ∧ m'.state = { m.state with
        readings := m.state.readings + 1
        appliedReceipt := some ⟨p.sha256, "applied", clock m.state.readings,
          .applied (appliedOf p m.state.host.settings)⟩ })
      (fun _ m' => m'.state = m.state) m := by
  rw [recordApplied, wp_bind]
  refine wp_mono wp_validateApplied (fun _ m₁ h₁ => ?_) (fun _ _ he => he)
  rw [wp_bind]
  refine observes_captureAppliedState.wp (fun m₂ h₂ => ?_) (fun _ m₂ h₂ => h₂.trans h₁.1)
  rw [wp_bind, wp_receipt, wp_update, h₂, h₁.1]
  exact ⟨h₁.2 hheld, rfl⟩

/-! ## The second `try` block -/

structure Applied (p : Profile) (h₀ : Host) (clock : Nat → Nat) (s s' : Control) : Prop where
  desired : Desired p s'.host
  durable : s'.durable = some (captureOf p h₀.settings)
  state : s'.state = .applied
  ledger : (s'.snapshot, s'.priorReceipt, s'.hadAbnormalRecovery, s'.restoredReceipt) =
    (s.snapshot, s.priorReceipt, s.hadAbnormalRecovery, s.restoredReceipt)
  receipt : ∃ reading ≥ s.readings, s'.readings = reading + 1 ∧ s'.appliedReceipt =
    some ⟨p.sha256, "applied", clock reading, .applied (appliedOf p s'.host.settings)⟩

theorem Applied.of_calm {s s' t t' : Control} (h : Applied p h₀ clock s s') (hs : calm t = calm s)
    (hs' : calm t' = calm s') : Applied p h₀ clock t t' := by
  simp only [calm, books, Prod.mk.injEq] at hs hs'
  obtain ⟨reading, hreading, hnext, hreceipt⟩ := h.receipt
  have hledger := h.ledger
  simp only [Prod.mk.injEq] at hledger
  refine ⟨hs'.1 ▸ h.desired, hs'.2.1.trans h.durable, ?_, ?_, reading, ?_, ?_, ?_⟩
  · simp [hs', h.state]
  · simp [hs, hs', hledger]
  · simpa [hs] using hreading
  · simp [hs', hnext]
  · simp [hs', hreceipt]

theorem wp_applyControls {guardianEnabled : Bool} (hrestored : Restored p h₀ m.state.host)
    (hstate : m.state.state ≠ .restored) :
    wp (applyControls p b clock guardianEnabled (captureOf p h₀.settings))
      (fun _ m' => Applied p h₀ clock m.state m'.state)
      (fun _ m' => Safe p h₀ m'.state ∧ Begun m.state m'.state) m := by
  rw [applyControls, wp_bind]
  refine wp_mono (wp_applyJournal hstate) (fun _ m₁ h₁ => ?_) (fun _ m₁ h₁ => ?_)
  · obtain ⟨hhost, hbegun, hdurable⟩ := h₁
    have herr : ∀ {t : Control}, deep t = deep m₁.state → t.state ≠ .restored →
        Safe p h₀ t ∧ Begun m.state t := by
      intro t hdeep ht
      have hdeep : t.durable = m₁.state.durable ∧ kept t = kept m₁.state := Prod.mk.injEq .. ▸ hdeep
      exact ⟨.inr (hdeep.1.trans hdurable), ⟨hdeep.2.trans hbegun.kept, ht⟩⟩
    rw [wp_bind]
    refine wp_mono (wp_applyMutations hbegun.state) (fun _ m₂ h₂ => ?_) (fun _ m₂ h₂ => herr h₂.1 h₂.2)
    obtain ⟨hdeep, happlied, hheld⟩ := h₂
    refine wp_mono (wp_recordApplied hheld) (fun _ m₃ h₃ => ?_) (fun _ m₃ h₃ => ?_)
    · obtain ⟨hdesired, hstate₃⟩ := h₃
      have hdeep : m₂.state.durable = m₁.state.durable ∧ kept m₂.state = kept m₁.state :=
        Prod.mk.injEq .. ▸ hdeep
      have hkept := hdeep.2.trans hbegun.kept
      simp only [kept, ledger, Prod.mk.injEq] at hkept
      rw [hstate₃]
      refine ⟨hdesired, hdeep.1.trans hdurable, happlied, ?_, m₂.state.readings, hkept.1.ge, rfl, rfl⟩
      simp [hkept]
    · rw [h₃]
      exact herr hdeep (by simp [happlied])
  · obtain ⟨hhost, hbegun⟩ := h₁
    exact ⟨.inl (hhost ▸ hrestored), hbegun⟩

/-! ## The two calls -/

/-- Where the controls get applied and recorded, the last checkpoint of `apply` does not raise. -/
def Validates (p : Profile) (b : Backend) (clock : Nat → Nat) (guardianEnabled : Bool)
    (m : Machine (Exit ControlError) Control) : Prop :=
  wp (do let snapshot ← applyCapture p b clock; applyControls p b clock guardianEnabled snapshot)
    (fun _ m' => wp (checkpoint .apply "validated") (fun _ _ => True) (fun e _ => e = .killed) m')
    (fun _ _ => True) m

instance (p : Profile) (b : Backend) (clock : Nat → Nat) (guardianEnabled : Bool)
    (m : Machine (Exit ControlError) Control) : Decidable (Validates p b clock guardianEnabled m) :=
  inferInstanceAs (Decidable (wp _ _ _ _))

/-- How an `apply` of a new transaction fails. -/
inductive ApplyFailed (p : Profile) (h₀ : Host) (clock : Nat → Nat) (validates : Prop) (s : Control)
    (e : ControlError) (s' : Control) : Prop
  | uncaptured (host : s'.host = s.host) (books : Uncaptured s s')
  | restored (between : Control) (finished : Finished p h₀ clock between s')
      (applied : validates → between.appliedReceipt = s.appliedReceipt)
  | abnormal (message : String) (indeterminate : e = .indeterminate message) (between : Control)
      (abnormal : Abnormal between s') (snapshot : between.snapshot = some (captureOf p h₀.settings))

theorem wp_restore (hstate : m.state.state ≠ .restored)
    (hsnapshot : m.state.snapshot = some (captureOf p h₀.settings)) (hsafe : Safe p h₀ m.state) :
    wp (restore p b clock) (fun _ m' => Finished p h₀ clock m.state m'.state)
      (fun e m' => Safe p h₀ m'.state ∧ (e ≠ .killed → Abnormal m.state m'.state)) m := by
  rw [restore, wp_bind, wp_read, wp_bind, wp_read, if_neg hstate, hsnapshot]
  exact wp_restoreSnapshot hsafe

theorem wp_captured (guardianEnabled : Bool) (validates : Prop) (hrestored : Restored p h₀ m.state.host)
    (hstate : m.state.state ≠ .restored) (hsnapshot : m.state.snapshot = some (captureOf p h₀.settings))
    (hlast : wp (applyControls p b clock guardianEnabled (captureOf p h₀.settings)) (fun _ m' => validates →
      wp (checkpoint .apply "validated") (fun _ _ => True) (fun e _ => e = .killed) m')
      (fun _ _ => True) m) :
    wp (do applyControls p b clock guardianEnabled (captureOf p h₀.settings); checkpoint .apply "validated")
      (fun _ m' => Applied p h₀ clock m.state m'.state)
      (fun e m' => Safe p h₀ m'.state ∧ m'.state.state ≠ .restored ∧
        m'.state.snapshot = some (captureOf p h₀.settings) ∧
        (validates → e ≠ .killed → m'.state.appliedReceipt = m.state.appliedReceipt)) m := by
  rw [wp_bind]
  refine wp_mono (wp_and (wp_applyControls hrestored hstate) hlast) (fun _ m₁ h₁ => ?_) (fun _ m₁ h₁ => ?_)
  · obtain ⟨happlied, hlast⟩ := h₁
    have hcheckpoint : wp (checkpoint .apply "validated") (fun _ _ => True)
        (fun e _ => validates → e = .killed) m₁ := by
      by_cases hv : validates
      · exact wp_mono (hlast hv) (fun _ _ h => h) (fun _ _ h _ => h)
      · exact wp_mono (wp_trivial _ m₁) (fun _ _ h => h) (fun _ _ _ h => absurd h hv)
    refine wp_mono (wp_and (leaves_applyCheckpoint "validated" true m₁) hcheckpoint) (fun _ m₂ h₂ => ?_)
      (fun e m₂ h₂ => ?_)
    · exact happlied.of_calm rfl h₂.1
    · have h := happlied.of_calm rfl h₂.1
      have hledger := h.ledger
      simp only [Prod.mk.injEq] at hledger
      exact ⟨.inr h.durable, by simp [h.state], hledger.1.trans hsnapshot,
        fun hv hne => absurd (h₂.2 hv) hne⟩
  · obtain ⟨⟨hsafe, hbegun⟩, _⟩ := h₁
    have hkept := hbegun.kept
    simp only [kept, ledger, Prod.mk.injEq] at hkept
    exact ⟨hsafe, hbegun.state, hkept.2.1.1.trans hsnapshot, fun _ _ => hkept.2.1.2.2.1⟩

theorem wp_apply {guardianEnabled : Bool} (validates : Prop) (hnew : m.state.state = .new)
    (hrestored : Restored p h₀ m.state.host)
    (hvalidates : validates → Validates p b clock guardianEnabled m) :
    wp (apply p b clock guardianEnabled)
      (fun _ m' => Applied p h₀ clock (m.state.capturedAs p clock) m'.state)
      (fun e m' => Safe p h₀ m'.state ∧
        ∀ e', e = .raised e' → ApplyFailed p h₀ clock validates m.state e' m'.state) m := by
  have hcapture : captureOf p m.state.host.settings = captureOf p h₀.settings := captureOf_eq_iff.mpr hrestored.agrees
  have hlast : wp (applyCapture p b clock) (fun snapshot m₁ =>
      wp (applyControls p b clock guardianEnabled snapshot) (fun _ m' => validates →
        wp (checkpoint .apply "validated") (fun _ _ => True) (fun e _ => e = .killed) m')
        (fun _ _ => True) m₁) (fun _ _ => True) m := by
    rw [← wp_bind]
    by_cases hv : validates
    · exact wp_mono (hvalidates hv) (fun _ _ h _ => h) (fun _ _ h => h)
    · exact wp_mono (wp_trivial _ m) (fun _ _ _ h => absurd h hv) (fun _ _ h => h)
  rw [apply, wp_bind]
  refine wp_mono (wp_and (wp_applyCapture hnew) hlast) (fun snapshot m₁ h₁ => ?_) (fun e m₁ h₁ => ?_)
  · obtain ⟨⟨rfl, hcalm⟩, hlast⟩ := h₁
    have hfields := hcalm
    simp only [calm, books, Control.capturedAs, Prod.mk.injEq] at hfields
    have hstate : m₁.state.state ≠ .restored := by simp [hfields]
    rw [hcapture] at hlast ⊢
    have hinner := wp_captured (b := b) guardianEnabled validates
      (hfields.1 ▸ hrestored) hstate (by simp [hfields, hcapture]) hlast
    rw [wp_bind]
    refine wp_rescue (wp_mono hinner (fun _ m₂ h₂ => ?_) (fun e m₂ h₂ => ⟨fun applyError he => ?_, fun he => ?_⟩))
    · exact h₂.of_calm hcalm.symm rfl
    · -- the attempt failed: the restoration runs
      obtain ⟨hsafe₂, hstate₂, hsnapshot₂, happlied₂⟩ := h₂
      rw [wp_bind]
      refine wp_rescue (wp_mono (wp_restore hstate₂ hsnapshot₂ hsafe₂) (fun _ m₃ h₃ => ?_)
        (fun e' m₃ h₃ => ⟨fun restoreError he' => ?_, fun he' => ?_⟩))
      · refine ⟨.inl h₃.restored, fun e' he' => .restored m₂.state h₃ fun hv => ?_⟩
        rw [happlied₂ hv (by simp [he])]
        simp [hfields]
      · refine ⟨h₃.1, fun e'' he'' => ?_⟩
        cases he''
        exact .abnormal _ rfl m₂.state (h₃.2 (by simp [he'])) hsnapshot₂
      · exact ⟨h₃.1, fun e'' he'' => by cases he''⟩
    · exact ⟨h₂.1, fun e'' he'' => by cases he''⟩
  · obtain ⟨⟨hhost, hdurable, hbooks⟩, _⟩ := h₁
    refine ⟨.inl (hhost ▸ hrestored), fun e' he => .uncaptured hhost (hbooks ?_)⟩
    rw [he]
    exact fun hne => by cases hne

end Apply

/-! ## Runs -/

inductive Call
  | apply
  | validateApplied
  | captureAppliedState
  | restore
  | controlReceipts
deriving DecidableEq, Repr

inductive Reply
  | nothing
  | snapshot (snapshot : ControlSnapshot)
  | state (state : AppliedState)
  | receipts (receipts : ControlReceipts)
deriving DecidableEq, Repr

structure Invocation where
  call : Call
  script : List (Option (Raise (Exit ControlError)))
  outcome : Except ControlError Reply

/-- A transaction: its profile, the host's backend and clock, and whether the guardian is enabled. -/
structure Setup where
  profile : Profile
  backend : Backend
  clock : Nat → Nat
  guardianEnabled : Bool

namespace Setup

def invoke (t : Setup) : Call → Controlling Reply
  | .apply => do
    let snapshot ← apply t.profile t.backend t.clock t.guardianEnabled
    return .snapshot snapshot
  | .validateApplied => do
    validateApplied t.profile t.backend
    return .nothing
  | .captureAppliedState => do
    let state ← captureAppliedState t.profile t.backend
    return .state state
  | .restore => do
    restore t.profile t.backend t.clock
    return .nothing
  | .controlReceipts => do
    let receipts ← controlReceipts
    return .receipts receipts

/-- A call on a state: its outcome, if the process survives it, and the state after it. -/
def call (t : Setup) (s : Control) (c : Call) (script : List (Option (Raise (Exit ControlError)))) :
    Option (Except ControlError Reply) × Control :=
  match (t.invoke c).run ⟨s, script⟩ with
  | .ok reply m => (some (.ok reply), m.state)
  | .error (.raised e) m => (some (.error e), m.state)
  | .error .killed m => (none, m.state)

def after (t : Setup) : Control → List (Call × List (Option (Raise (Exit ControlError)))) → Control
  | s, [] => s
  | s, (c, script) :: calls => t.after (t.call s c script).2 calls

def step (t : Setup) (s : Control) (i : Invocation) (s' : Control) : Prop :=
  match (t.invoke i.call).run ⟨s, i.script⟩ with
  | .ok reply m => i.outcome = .ok reply ∧ s' = m.state
  | .error (.raised e) m => i.outcome = .error e ∧ s' = m.state
  | .error .killed _ => False

def history (t : Setup) : Control → List (Call × List (Option (Raise (Exit ControlError)))) →
    List (Entry Control Invocation)
  | _, [] => []
  | s, (c, script) :: calls =>
    let (outcome, s') := t.call s c script
    match outcome with
    | some outcome => ⟨s, ⟨c, script, outcome⟩, s'⟩ :: t.history s' calls
    | none => t.history s' calls

end Setup

section Runs

variable {t : Setup} {s s' : Control} {i : Invocation}

theorem step_of_call {c : Call} {script : List (Option (Raise (Exit ControlError)))}
    {outcome : Except ControlError Reply} (h : (t.call s c script).1 = some outcome) :
    t.step s ⟨c, script, outcome⟩ (t.call s c script).2 := by
  unfold Setup.call at h ⊢
  unfold Setup.step
  dsimp only
  cases hrun : (t.invoke c).run ⟨s, script⟩ with
  | ok reply m =>
    rw [hrun] at h
    exact ⟨(Option.some.inj h).symm, rfl⟩
  | error e m =>
    rw [hrun] at h
    cases e with
    | raised e => exact ⟨(Option.some.inj h).symm, rfl⟩
    | killed => cases h

theorem history_length_le (calls : List (Call × List (Option (Raise (Exit ControlError))))) :
    ∀ s : Control, (t.history s calls).length ≤ calls.length := by
  induction calls with
  | nil => exact fun _ => Nat.le_refl 0
  | cons entry calls ih =>
    intro s
    obtain ⟨c, script⟩ := entry
    simp only [Setup.history]
    cases (t.call s c script).1 with
    | some outcome => exact Nat.succ_le_succ (ih _)
    | none => exact Nat.le_succ_of_le (ih _)

theorem run_history (calls : List (Call × List (Option (Raise (Exit ControlError))))) :
    ∀ {s : Control}, (t.history s calls).length = calls.length →
      Run t.step s (t.history s calls) (t.after s calls) := by
  induction calls with
  | nil => exact fun _ => Run.nil
  | cons entry calls ih =>
    intro s h
    obtain ⟨c, script⟩ := entry
    simp only [Setup.history, Setup.after] at h ⊢
    cases houtcome : (t.call s c script).1 with
    | none =>
      rw [houtcome] at h
      have hle := history_length_le (t := t) calls (t.call s c script).2
      simp only [List.length_cons] at h
      omega
    | some outcome =>
      rw [houtcome] at h
      exact Run.cons (step_of_call houtcome) (ih (Nat.succ.inj h))

theorem wp_of_step {Q : Reply → Machine (Exit ControlError) Control → Prop}
    {E : Exit ControlError → Machine (Exit ControlError) Control → Prop} (hstep : t.step s i s')
    (h : wp (t.invoke i.call) Q E ⟨s, i.script⟩) :
    (∃ reply script, i.outcome = .ok reply ∧ Q reply ⟨s', script⟩) ∨
      ∃ e script, i.outcome = .error e ∧ E (.raised e) ⟨s', script⟩ := by
  unfold Setup.step at hstep
  unfold wp at h
  cases hrun : (t.invoke i.call).run ⟨s, i.script⟩ with
  | ok reply m =>
    rw [hrun] at hstep h
    obtain ⟨houtcome, rfl⟩ := hstep
    exact .inl ⟨reply, m.script, houtcome, h⟩
  | error e m =>
    rw [hrun] at hstep h
    cases e with
    | raised e =>
      obtain ⟨houtcome, rfl⟩ := hstep
      exact .inr ⟨e, m.script, houtcome, h⟩
    | killed => exact hstep.elim

/-- Between its calls: a new transaction is on the untouched host, a restored one on the restored host,
and in every other state the snapshot is held and the host is safe. -/
def Settled (p : Profile) (h₀ : Host) (s : Control) : Prop :=
  match s.state with
  | .new => Restored p h₀ s.host ∧ s.snapshot = none
  | .restored => Restored p h₀ s.host
  | .applied | .indeterminate | .recoveredByGuardian =>
    Safe p h₀ s ∧ s.snapshot = some (captureOf p h₀.settings)
  | _ => False

theorem Settled.safe {p : Profile} {h₀ : Host} (h : Settled p h₀ s) : Safe p h₀ s := by
  unfold Settled at h
  cases hstate : s.state <;> simp only [hstate] at h
  · exact .inl h.1
  · exact h.1
  · exact h.1
  · exact h.1
  · exact .inl h

theorem reports_controlReceipts : Reports controlReceipts := by
  intro m
  rw [controlReceipts, wp_bind, wp_get]
  dsimp only
  split
  · split
    · exact rfl
    · split
      · exact rfl
      · exact rfl
  · exact rfl

def Promise (p : Profile) (h₀ : Host) (call : Call) (outcome : Except ControlError Reply)
    (s s' : Control) : Prop :=
  match call, outcome with
  | .apply, .ok _ => Desired p s'.host ∧ s'.durable = some (captureOf p h₀.settings)
  | .apply, .error e =>
    if s.state = .new then (∀ message, e ≠ .indeterminate message) → Restored p h₀ s'.host
    else s' = s
  | .restore, .ok _ => Restored p h₀ s'.host
  | _, _ => True

/-- The call's guarantee: it leaves the transaction settled with its promise kept, and dying in it leaves
the host safe. -/
abbrev Kept (p : Profile) (h₀ : Host) (call : Call) (m : Machine (Exit ControlError) Control)
    (x : Controlling Reply) : Prop :=
  wp x (fun reply m' => Settled p h₀ m'.state ∧ Promise p h₀ call (.ok reply) m.state m'.state)
    (fun e m' => Safe p h₀ m'.state ∧
      ∀ e', e = .raised e' → Settled p h₀ m'.state ∧ Promise p h₀ call (.error e') m.state m'.state) m

section Kept

variable {p : Profile} {h₀ : Host} {m : Machine (Exit ControlError) Control}

theorem kept_of_reports {call : Call} {x : Controlling Reply} (hx : Reports x)
    (h : Settled p h₀ m.state) (hcall : call ≠ .apply) (hcall' : call ≠ .restore) : Kept p h₀ call m x := by
  have hpromise : ∀ outcome s s', Promise p h₀ call outcome s s' := by
    intro outcome s s'
    cases call <;> trivial
  refine hx.wp (fun reply m' h' => ?_) (fun e m' h' => ?_)
  · rw [h']
    exact ⟨h, hpromise _ _ _⟩
  · rw [h']
    exact ⟨h.safe, fun e' _ => ⟨h, hpromise _ _ _⟩⟩

theorem Abnormal.settled {s s' : Control} (h : Abnormal s s') (hsafe : Safe p h₀ s')
    (hsnapshot : s.snapshot = some (captureOf p h₀.settings)) : Settled p h₀ s' := by
  unfold Settled
  rcases h.state with hstate | hstate <;> rw [hstate] <;> exact ⟨hsafe, h.snapshot.trans hsnapshot⟩

theorem Finished.settled {clock : Nat → Nat} {s s' : Control} (h : Finished p h₀ clock s s') :
    Settled p h₀ s' := by
  unfold Settled
  rw [h.state]
  exact h.restored

theorem kept_restore (h : Settled p h₀ m.state) (hp : t.profile = p) :
    Kept p h₀ .restore m (t.invoke .restore) := by
  subst hp
  rw [Kept, Setup.invoke, wp_bind]
  cases hstate : m.state.state with
  | new =>
    have hsettled := h
    simp only [Settled, hstate] at h
    rw [restore, wp_bind, wp_read, wp_bind, wp_read, if_neg (by simp [hstate]), h.2]
    exact ⟨hsettled, h.1⟩
  | restored =>
    have hsettled := h
    simp only [Settled, hstate] at h
    rw [restore, wp_bind, wp_read, wp_bind, wp_read, if_pos hstate]
    exact ⟨hsettled, h⟩
  | captured | journaled | applying | restoring => simp [Settled, hstate] at h
  | applied | recoveredByGuardian | indeterminate =>
    simp only [Settled, hstate] at h
    refine wp_mono (wp_restore (by simp [hstate]) h.2 h.1) (fun _ m' h' => ?_) (fun e m' h' => ?_)
    · exact ⟨h'.settled, h'.restored⟩
    · refine ⟨h'.1, fun e' he => ⟨(h'.2 (by simp [he])).settled h'.1 h.2, trivial⟩⟩

theorem kept_apply (h : Settled p h₀ m.state) (hp : t.profile = p) :
    Kept p h₀ .apply m (t.invoke .apply) := by
  subst hp
  rw [Kept, Setup.invoke, wp_bind]
  by_cases hnew : m.state.state = .new
  · have hfresh := h
    simp only [Settled, hnew] at hfresh
    refine wp_mono (wp_apply False hnew hfresh.1 False.elim) (fun _ m' h' => ?_)
      (fun e m' h' => ?_)
    · have hledger := h'.ledger
      simp only [Prod.mk.injEq, Control.capturedAs] at hledger
      have hcapture := captureOf_eq_iff.mpr hfresh.1.agrees
      refine ⟨?_, h'.desired, h'.durable⟩
      unfold Settled
      rw [h'.state]
      exact ⟨.inr h'.durable, by rw [hledger.1, hcapture]⟩
    · refine ⟨h'.1, fun e' he => ?_⟩
      have hpromise : ∀ {s' : Control}, ((∀ message, e' ≠ .indeterminate message) →
          Restored t.profile h₀ s'.host) → Promise t.profile h₀ .apply (.error e') m.state s' := by
        intro s' hs'
        simp only [Promise, hnew, if_true]
        exact hs'
      cases h'.2 e' he with
      | uncaptured hhost hbooks =>
        have hrestored : Restored t.profile h₀ m'.state.host := hhost ▸ hfresh.1
        refine ⟨?_, hpromise fun _ => hrestored⟩
        have hstate : m'.state.state = .new ∧ m'.state.snapshot = none := by
          rcases hbooks with hbooks | hbooks <;> simp only [books, Prod.mk.injEq] at hbooks
          · simp [hbooks, hnew, hfresh.2]
          · simp [hbooks]
        unfold Settled
        rw [hstate.1]
        exact ⟨hrestored, hstate.2⟩
      | restored between hfinished _ =>
        exact ⟨hfinished.settled, hpromise fun _ => hfinished.restored⟩
      | abnormal message hmessage between habnormal hsnapshot =>
        exact ⟨habnormal.settled h'.1 hsnapshot, hpromise fun hne => absurd hmessage (hne message)⟩
  · rw [apply, wp_bind, applyCapture, wp_bind, wp_read, wp_bind, wp_onlyIf]
    refine ⟨fun _ => ⟨h.safe, fun e' _ => ⟨h, ?_⟩⟩, fun hfalse => ?_⟩
    · simp [Promise, hnew]
    · simp [hnew] at hfalse

theorem kept_invoke (h : Settled t.profile h₀ m.state) (call : Call) :
    Kept t.profile h₀ call m (t.invoke call) := by
  cases call with
  | apply => exact kept_apply h rfl
  | validateApplied =>
    refine kept_of_reports ?_ h (by simp) (by simp)
    exact .bind reports_validateApplied fun _ => .of_pure _
  | captureAppliedState =>
    refine kept_of_reports ?_ h (by simp) (by simp)
    exact .bind observes_captureAppliedState.reports fun _ => .of_pure _
  | restore => exact kept_restore h rfl
  | controlReceipts =>
    refine kept_of_reports ?_ h (by simp) (by simp)
    exact .bind reports_controlReceipts fun _ => .of_pure _

end Kept

theorem settled_step {h₀ : Host} (h : Settled t.profile h₀ s) (hstep : t.step s i s') :
    Settled t.profile h₀ s' ∧ Promise t.profile h₀ i.call i.outcome s s' := by
  rcases wp_of_step hstep (kept_invoke h i.call) with ⟨reply, script, houtcome, hkept⟩ | ⟨e, script, houtcome, hkept⟩
  · rw [houtcome]
    exact hkept
  · rw [houtcome]
    exact hkept.2 e rfl

end Runs

/-- A transaction restores the host or says that it did not. On every run: an `apply` that returns
leaves every control at its desired value and the captured snapshot in the journal; one that a new
transaction makes and that raises another exception than the indeterminate one leaves the host as
captured; one in any other state is refused and changes nothing; a `restore` that returns leaves the host
as captured. And at every instant, a death in the middle of a call included, the host has its captured
values or the journal holds them. -/
theorem host_control_transaction (t : Setup) (h₀ : Host)
    {es : List (Entry Control Invocation)} {s : Control} (hrun : Run t.step { host := h₀ } es s) :
    (∀ e ∈ es, Promise t.profile h₀ e.input.call e.input.outcome e.pre e.post) ∧
      ∀ call script, Safe t.profile h₀ (finalState ((t.invoke call).run ⟨s, script⟩)).state := by
  have hinit : Settled t.profile h₀ { host := h₀ } :=
    ⟨⟨⟨fun _ _ => rfl, fun _ _ => rfl, fun _ _ => rfl, rfl⟩, id⟩, rfl⟩
  have hstep : ∀ s i s', Settled t.profile h₀ s → t.step s i s' →
      Settled t.profile h₀ s' := fun s i s' h hs => (settled_step h hs).1
  refine ⟨fun e he => ?_, fun call script => ?_⟩
  · obtain ⟨hsettled, hs⟩ := hrun.entry hinit hstep e he
    exact (settled_step hsettled hs).2
  · have hsettled := hrun.invariant hinit hstep
    refine (wp_iff_finalState (P := fun m' : Machine (Exit ControlError) Control =>
      Safe t.profile h₀ m'.state)).mp ?_
    exact wp_mono (kept_invoke (m := ⟨s, script⟩) hsettled call) (fun _ _ h => h.1.safe) (fun _ _ h => h.1)

/-! ### A small transaction -/

def boostWrite : Write := ⟨"/sys/devices/system/cpu/cpufreq/boost", "0", "integer"⟩

/-- One control, no module, no service and no guardian, on a backend that accepts every text. -/
def smallSetup : Setup where
  profile := ⟨"profile", [boostWrite], [], [], [0], [], 0⟩
  backend := { command := fun _ s => s, parseControlValue := fun _ _ => .ok ⟨⟩ }
  clock := id
  guardianEnabled := false

def smallHost : Host where
  settings := { texts := fun _ => "1", modules := fun _ => false, services := fun _ => false, affinity := [0, 1] }

theorem host_control_transaction_small :
    (∀ e ∈ smallSetup.history { host := smallHost } [(.apply, []), (.restore, [])],
      Promise smallSetup.profile smallHost e.input.call e.input.outcome e.pre e.post) ∧
    ∀ call script, Safe smallSetup.profile smallHost
      (finalState ((smallSetup.invoke call).run
        ⟨smallSetup.after { host := smallHost } [(.apply, []), (.restore, [])], script⟩)).state :=
  host_control_transaction smallSetup smallHost (run_history _ (by decide +kernel))

/-- The call raised `TimingControlError`. -/
def isControlError : Except ControlError Reply → Bool
  | .error (.control _) => true
  | _ => false

/-- A second `apply` is refused with the controls still applied. -/
theorem host_control_transaction_second_apply :
    ∃ (es : List (Entry Control Invocation)) (s : Control),
      Run smallSetup.step { host := smallHost } es s ∧ ∃ e ∈ es, e.input.call = .apply ∧
        (∃ message, e.input.outcome = .error (.control message)) ∧
        ¬ Restored smallSetup.profile smallHost e.post.host := by
  refine ⟨_, _, run_history [(.apply, []), (.apply, [])] (by decide +kernel), ?_⟩
  have hany : (smallSetup.history { host := smallHost } [(.apply, []), (.apply, [])]).any (fun e =>
      decide (e.input.call = .apply) && decide (e.post.host.settings.affinity = [0]) &&
        isControlError e.input.outcome) = true := by decide +kernel
  obtain ⟨e, he, hfacts⟩ := List.any_eq_true.mp hany
  simp only [Bool.and_eq_true, decide_eq_true_eq] at hfacts
  refine ⟨e, he, hfacts.1.1, ?_, fun hrestored => ?_⟩
  · have hrefused := hfacts.2
    unfold isControlError at hrefused
    split at hrefused
    · next message heq => exact ⟨message, heq⟩
    · cases hrefused
  · have haffinity : [0] = [0, 1] := hfacts.1.2.symm.trans hrestored.agrees.affinity
    simp at haffinity

end Bravo.Timing
