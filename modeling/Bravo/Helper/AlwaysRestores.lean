import Bravo.Helper.Acts

/-! # Is the host always restored?

A helper process that has entered `backend.apply` is to call `backend.restore` with the captured prior
before it ends. Each attempt to restore records `restoration_started` first (`data_free_restore_started` in a
trial) and lets a failure of that record pass: the last attempt restores the host exactly where the record
can be written.
-/

namespace Bravo.Helper

open Bravo.Json List

section AlwaysRestores

variable {η α β : Type} {c : Config η} {E : Event η → Prop} {T : SessionState → Prop}

/-! ## The calls of a log -/

def Event.isApply : Event η → Bool
  | .applyEntered .. => true
  | _ => false

def Event.isRestore : Event η → Bool
  | .restoreEntered _ => true
  | _ => false

/-- Every mutation is of a captured prior, and is followed by a restoration of that prior. -/
def Restores (log : List (Event η)) : Prop :=
  ∀ before prior host journal pending after, log = before ++ .applyEntered prior host journal pending :: after →
    .captured prior ∈ before ∧ .restoreEntered prior ∈ after

def Untouched (log : List (Event η)) : Prop := ∀ e ∈ log, e.isApply = false ∧ e.isRestore = false

def EnteredAt (log : List (Event η)) (prior : Json) (after : List (Event η)) : Prop :=
  ∃ before host journal pending, log = before ++ .applyEntered prior host journal pending :: after ∧
    .captured prior ∈ before ∧ (∀ e ∈ before, e.isApply = false) ∧ ∀ e ∈ after, e.isApply = false

variable {prior : Json} {e : Event η}

theorem EnteredAt.concat {log after : List (Event η)} (h : EnteredAt log prior after)
    (he : e.isApply = false) : EnteredAt (log ++ [e]) prior (after ++ [e]) := by
  obtain ⟨before, host, journal, pending, rfl, hcaptured, hbefore, hafter⟩ := h
  refine ⟨before, host, journal, pending, by simp, hcaptured, hbefore, fun e' he' => ?_⟩
  rcases mem_append.mp he' with he' | he'
  · exact hafter e' he'
  · rw [mem_singleton.mp he']
    exact he

theorem cut_unique {P : α → Bool} {before after before' after' : List α} {a a' : α}
    (h : before ++ a :: after = before' ++ a' :: after') (hbefore : ∀ e ∈ before, P e = false)
    (hafter : ∀ e ∈ after, P e = false) (ha' : P a' = true) : before = before' ∧ a = a' ∧ after = after' := by
  rcases append_eq_append_iff.mp h with ⟨mid, hmid, hrest⟩ | ⟨mid, hmid, hrest⟩
  · cases mid with
    | nil =>
      rw [append_nil] at hmid
      obtain ⟨rfl, rfl⟩ := List.cons.inj hrest
      exact ⟨hmid.symm, rfl, rfl⟩
    | cons b mid =>
      -- the second cut lies behind the first
      obtain ⟨rfl, rfl⟩ := List.cons.inj hrest
      have := hafter a' (mem_append_right _ mem_cons_self)
      rw [ha'] at this
      cases this
  · cases mid with
    | nil =>
      rw [append_nil] at hmid
      obtain ⟨rfl, rfl⟩ := List.cons.inj hrest
      exact ⟨hmid, rfl, rfl⟩
    | cons b mid =>
      obtain ⟨rfl, rfl⟩ := List.cons.inj hrest
      have := hbefore a' (hmid ▸ mem_append_right _ mem_cons_self)
      rw [ha'] at this
      cases this

theorem EnteredAt.restores_iff {log after : List (Event η)} (h : EnteredAt log prior after) :
    Restores log ↔ .restoreEntered prior ∈ after := by
  obtain ⟨before, host, journal, pending, rfl, hcaptured, hbefore, hafter⟩ := h
  refine ⟨fun hrestores => (hrestores before prior host journal pending after rfl).2, fun hmem => ?_⟩
  intro before' prior' host' journal' pending' after' hlog
  obtain ⟨rfl, hevent, rfl⟩ := cut_unique (P := Event.isApply) hlog hbefore hafter rfl
  cases hevent
  exact ⟨hcaptured, hmem⟩

/-! ## Where a process stands -/

def Mutated (prior : Json) (w : World η) : Prop :=
  ∃ after, EnteredAt w.log prior after ∧ ∀ e ∈ after, e.isRestore = false

def Restored (prior : Json) (w : World η) : Prop :=
  ∃ after, EnteredAt w.log prior after ∧ .restoreEntered prior ∈ after

variable {w w' : World η}

theorem Act.mutated (hE : ∀ e, E e → e.isApply = false ∧ e.isRestore = false)
    (h : Act c E T w w') (hw : Mutated prior w) : Mutated prior w' := by
  obtain ⟨after, hentered, hafter⟩ := hw
  rcases h.log with hlog | ⟨e, hlog, he⟩
  · exact ⟨after, hlog ▸ hentered, hafter⟩
  · refine ⟨after ++ [e], hlog ▸ hentered.concat (hE e he).1, fun e' he' => ?_⟩
    rcases mem_append.mp he' with he' | he'
    · exact hafter e' he'
    · rw [mem_singleton.mp he']
      exact (hE e he).2

theorem Act.restored (hE : ∀ e, E e → e.isApply = false)
    (h : Act c E T w w') (hw : Restored prior w) : Restored prior w' := by
  obtain ⟨after, hentered, hmem⟩ := hw
  rcases h.log with hlog | ⟨e, hlog, he⟩
  · exact ⟨after, hlog ▸ hentered, hmem⟩
  · exact ⟨after ++ [e], hlog ▸ hentered.concat (hE e he), mem_append_left _ hmem⟩

theorem Begin.untouched (hE : ∀ e, E e → e.isApply = false ∧ e.isRestore = false)
    (h : Begin c E T w w') (hw : Untouched w.log) : Untouched w'.log := by
  rcases h.log with hlog | ⟨e, hlog, he⟩
  · exact hlog ▸ hw
  · intro e' he'
    rw [hlog] at he'
    rcases mem_append.mp he' with he' | he'
    · exact hw e' he'
    · rw [mem_singleton.mp he']
      exact hE e he

def ServeEvent (e : Event η) : Prop := e.isApply = false ∧ e.isRestore = false

theorem untouched_of_acts (hE : ∀ e, E e → ServeEvent e) (h : Acts (Begin c E T) w w')
    (hw : Untouched w.log) : Untouched w'.log := by
  induction h with
  | refl => exact hw
  | tail _ hact ih => exact hact.untouched hE ih

theorem mem_log_of_acts (h : Acts (Act c E T) w w') (he : e ∈ w.log) : e ∈ w'.log := by
  induction h with
  | refl => exact he
  | tail _ hact ih =>
    rcases hact.log with hlog | ⟨_, hlog, _⟩
    · exact hlog ▸ ih
    · exact hlog ▸ mem_append_left _ ih

theorem begin_of_acts (h : Acts (Act c E T) w w') : Acts (Begin c E T) w w' :=
  Relation.ReflTransGen.mono (fun _ _ => .act) _ _ h

/-- From here an attempt to restore can begin. -/
def Enterable (state : SessionState) : Prop :=
  state = .restoring ∨ .restoring ∈ state.allowed ∧ .indeterminate ∈ state.allowed

/-- The host was mutated and nothing stands in the way of a restoration but its first record. -/
structure Ready (prior : Json) (w : World η) : Prop where
  mutated : Mutated prior w
  prior : w.session.prior = some prior
  journal : w.journal.isSome = true
  state : Enterable w.session.state

theorem Act.ready (hE : ∀ e, E e → e.isApply = false ∧ e.isRestore = false)
    (hT : ∀ t, T t → Enterable t) (h : Act c E T w w') (hw : Ready prior w) :
    Ready prior w' where
  mutated := h.mutated hE hw.mutated
  prior := h.prior.trans hw.prior
  journal := h.journal hw.journal
  state := h.state.elim (fun hsame => hsame ▸ hw.state) (hT _)

/-! ## A session up to its restore command -/

/-- What is at hand between the capture and the mutation. -/
structure Captured (prior : Json) (w : World η) : Prop where
  untouched : Untouched w.log
  captured : .captured prior ∈ w.log
  prior : w.session.prior = some prior

theorem Act.captured {prior : Json} (hE : ∀ e, E e → e.isApply = false ∧ e.isRestore = false) {w w' : World η}
    (h : Act c E T w w') (hw : Captured prior w) : Captured prior w' where
  untouched := (Begin.act h).untouched hE hw.untouched
  captured := by
    rcases h.log with hlog | ⟨e, hlog, _⟩
    · exact hlog ▸ hw.captured
    · exact hlog ▸ mem_append_left _ hw.captured
  prior := h.prior.trans hw.prior

theorem Created.captured {j : Journal} (h : Created c j w w')
    (hw : Captured prior w) : Captured prior w' ∧ w'.journal.isSome = true := by
  obtain ⟨bytes, chunks, draws, _, _, rfl⟩ := h
  refine ⟨⟨fun e he => ?_, mem_append_left _ hw.captured, hw.prior⟩, rfl⟩
  rcases mem_append.mp he with he | he
  · exact hw.untouched e he
  · rcases mem_pair.mp he with rfl | rfl
    · exact ⟨rfl, rfl⟩
    · exact ⟨rfl, rfl⟩

theorem CaptureEvent.isCall (h : CaptureEvent e) : e.isApply = false ∧ e.isRestore = false := by
  cases e <;> first | exact ⟨rfl, rfl⟩ | cases h

variable {m : Machine (Exit HelperError) (World η)}

theorem wp_capturePrior (x : Expected) (hm : Untouched m.state.log) :
    wp (capturePrior c x)
      (fun prior m' => Captured prior.1 m'.state ∧ m'.state.journal.isSome = true)
      (fun _ m' => Untouched m'.state.log) m := by
  have hbegin : ∀ {w w' : World η}, Acts (Begin c CaptureEvent CaptureState) w w' → Untouched w.log →
      Untouched w'.log := untouched_of_acts fun _ => CaptureEvent.isCall
  have hact : ∀ {prior : Json} {w w' : World η}, Acts (Act c CaptureEvent CaptureState) w w' →
      Captured prior w ∧ w.journal.isSome = true → Captured prior w' ∧ w'.journal.isSome = true := fun h hw => by
    induction h with
    | refl => exact hw
    | tail _ hact ih => exact ⟨hact.captured (fun _ => CaptureEvent.isCall) ih.1, hact.journal ih.2⟩
  rw [capturePrior, wp_bind]
  refine wp_mono (wp_observePrior (E := CaptureEvent) (T := CaptureState) (fun _ => trivial) (.inl rfl) m)
    (fun prior m₁ h₁ => ?_) (fun _ _ h => hbegin h hm)
  have hcaptured : Captured prior m₁.state := ⟨hbegin h₁.1 hm, h₁.2.2, h₁.2.1⟩
  refine Keeps.wp_then (f := Machine.state) (reports_ofExcept _) (fun priorBytes m₂ h₂ => ?_)
    (fun _ _ h => h ▸ hcaptured.untouched)
  refine Keeps.wp_then (f := Machine.state) reports_boundary (fun _ m₃ h₃ => ?_)
    (fun _ _ h => h ▸ h₂ ▸ hcaptured.untouched)
  rw [← h₂, ← h₃] at hcaptured
  rw [wp_bind, wp_read]
  cases m₃.state.session.nonceSha256 with
  | none => exact hcaptured.untouched
  | some nonceSha256 =>
    rw [wp_bind, persistPrior, wp_bind]
    refine wp_mono (wp_journalCreate (c := c) (E := CaptureEvent) (T := CaptureState) _ _ _ _ (fun _ => trivial)
      (by simp [CaptureEvent]) m₃) (fun _ m₄ h₄ => ?_) (fun _ _ h => hbegin h hcaptured.untouched)
    obtain ⟨identifier, hcreated⟩ := h₄.2
    have hheld := hcreated.captured hcaptured
    refine Keeps.wp_then (f := Machine.state) reports_currentJournal (fun j m₅ h₅ => ?_)
      (fun _ _ h => h ▸ hheld.1.untouched)
    rw [← h₅] at hheld
    refine wp_mono (does_persistEvidence (E := CaptureEvent) (T := CaptureState) x prior _ _ (fun _ h => h)
      (.inr rfl) m₅) (fun _ _ h => hact h hheld) (fun _ _ h => (hact h hheld).1.untouched)

theorem Captured.mutate {w : World η} (h : Captured prior w) {host : η}
    {journal : Option JournalName} {pending : List JournalName} :
    Mutated prior { w with log := w.log ++ [.applyEntered prior host journal pending] } :=
  ⟨[], ⟨w.log, host, journal, pending, rfl, h.captured, fun e he => (h.untouched e he).1, fun e he => by cases he⟩,
    fun e he => by cases he⟩

def ServeState (t : SessionState) : Prop := Enterable t

theorem ready_of_acts (h : Acts (Act c ServeEvent ServeState) w w')
    (hw : Ready prior w) : Ready prior w' := by
  induction h with
  | refl => exact hw
  | tail _ hact ih => exact hact.ready (fun _ he => he) (fun _ ht => ht) ih

/-- What a session leaves that was cut short, or let go. -/
def Touched (w : World η) : Prop := Untouched w.log ∨ ∃ prior, Ready prior w

theorem wp_apply (x : Expected) (hm : Untouched m.state.log) :
    wp (apply c x) (fun _ m' => ∃ prior, Ready prior m'.state) (fun _ m' => Touched m'.state) m := by
  have hbegin : ∀ {w w' : World η}, Acts (Act c ServeEvent ServeState) w w' → Untouched w.log →
      Untouched w'.log := fun h hw => untouched_of_acts (fun _ he => he) (begin_of_acts h) hw
  rw [apply, wp_bind]
  refine wp_mono (does_receiveExactCommand (c := c) (E := ServeEvent) (T := ServeState) _ _ _ m)
    (fun _ m₁ h₁ => ?_) (fun _ _ h => .inl (hbegin h hm))
  rw [wp_bind]
  refine wp_mono (does_acceptCommand (c := c) (E := ServeEvent) (T := ServeState) _ _ _ (fun _ => ⟨rfl, rfl⟩) m₁)
    (fun _ m₂ h₂ => ?_) (fun _ _ h => .inl (hbegin (h₁.trans h) hm))
  have hm₂ := hbegin (h₁.trans h₂) hm
  refine Keeps.wp_then (f := Machine.state) reports_boundary (fun _ m₃ h₃ => ?_) (fun _ _ h => .inl (h ▸ hm₂))
  rw [← h₃] at hm₂
  rw [wp_bind]
  refine wp_mono (wp_capturePrior x hm₂) (fun prior m₄ h₄ => ?_) (fun _ _ h => .inl h)
  refine Keeps.wp_then (f := Machine.state) reports_boundary (fun _ m₅ h₅ => ?_)
    (fun _ _ h => .inl (h ▸ h₄.1.untouched))
  refine Keeps.wp_then (f := Machine.state) reports_boundary (fun _ m₆ h₆ => ?_)
    (fun _ _ h => .inl (h ▸ h₅ ▸ h₄.1.untouched))
  rw [← h₅, ← h₆] at h₄
  simp only [transition, failWith, setSession, wp_bind, wp_read, wp_onlyIf, wp_raise, wp_update]
  refine ⟨fun _ => .inl h₄.1.untouched, fun _ => ?_⟩
  -- from the note of the mutation on, all is ready for a restoration
  simp only [backendApply, note, wp_bind, wp_read, wp_update]
  have hready : Ready prior.1 { m₆.state with
      log := m₆.state.log ++ [.applyEntered prior.1 m₆.state.host (m₆.state.journal.map (·.name))
        ((m₆.state.directory.map (·.1)).filter JournalName.isPending)]
      session := { m₆.state.session with
        state := .applying, history := m₆.state.session.history ++ [.applying], mutationPossible := true } } :=
    ⟨h₄.1.mutate, h₄.1.prior, h₄.2, .inr (by simp [SessionState.allowed])⟩
  refine wp_mono (does_interact (c := c) (E := ServeEvent) (T := ServeState)
    (fun _ => .of_reports reports_boundary) _ _) (fun _ m₇ h₇ => ?_) (fun _ _ h => .inr ⟨_, ready_of_acts h hready⟩)
  refine wp_mono (does_recordApplied (E := ServeEvent) (T := ServeState) x prior.2 (fun e he => ?_)
    (.inr (by simp [SessionState.allowed])) m₇)
    (fun _ _ h => ⟨_, ready_of_acts h (ready_of_acts h₇ hready)⟩)
    (fun _ _ h => .inr ⟨_, ready_of_acts h (ready_of_acts h₇ hready)⟩)
  cases e <;> first | exact ⟨rfl, rfl⟩ | cases he

theorem enterable_observed (post : Bool) (runIndex : Nat) : Enterable (.observed runIndex post) := by
  cases post
  · exact .inr (by simp [SessionState.allowed])
  · exact .inr (by simp [SessionState.allowed])

theorem wp_serve (x : Expected) (hm : Untouched m.state.log) :
    wp (serve c x) (fun _ m' => ∃ prior, Ready prior m'.state) (fun _ m' => Touched m'.state) m := by
  refine Keeps.wp_then (f := Machine.state) (reports_pendingJournal c) (fun pending m₁ h₁ => ?_)
    (fun _ _ h => .inl (h ▸ hm))
  refine Keeps.wp_then (f := Machine.state) (reports_onlyIf (Keeps.bind reports_operate_id fun _ =>
    reports_raise _)) (fun _ m₂ h₂ => ?_) (fun _ _ h => .inl (h ▸ h₁ ▸ hm))
  rw [← h₁, ← h₂] at hm
  rw [setSession, wp_bind, wp_update, wp_bind]
  have hhandshake : ∀ {w w' : World η}, Acts (Begin c ServeEvent fun _ => True) w w' → Untouched w.log →
      Untouched w'.log := untouched_of_acts fun _ he => he
  have hevent : ∀ e : Event η, HandshakeEvent e → ServeEvent e := fun e he => by
    cases e <;> first | exact ⟨rfl, rfl⟩ | cases he
  refine wp_mono (does_handshake (c := c) (E := ServeEvent) (T := fun _ => True) x hevent trivial _)
    (fun _ m₃ h₃ => ?_) (fun _ _ h => .inl (hhandshake h hm))
  rw [wp_bind]
  refine wp_mono (wp_apply x (hhandshake h₃ hm)) (fun _ m₄ h₄ => ?_) (fun _ _ h => h)
  obtain ⟨prior, hready⟩ := h₄
  have hrest : Does (Act c ServeEvent ServeState) (do
      observeSlots c x formalRunCount
      let _ ← receiveExactCommand "cp2e_privileged_restore" restoreSequence false
      acceptCommand "cp2e_privileged_restore" restoreSequence none) := by
    refine .bind (does_observeSlots x (fun post runIndex e he => ?_) (fun post runIndex =>
      enterable_observed post runIndex) _) fun _ => .bind (does_receiveExactCommand _ _ _) fun _ =>
        does_acceptCommand _ _ _ fun _ => ⟨rfl, rfl⟩
    cases e <;> first | exact ⟨rfl, rfl⟩ | cases he
  exact wp_mono (hrest m₄) (fun _ _ h => ⟨prior, ready_of_acts h hready⟩)
    (fun _ _ h => .inr ⟨prior, ready_of_acts h hready⟩)

/-! ## An attempt to restore -/

/-- Where an attempt gets to the host: its first record can be written, and the boundaries around it raise
nothing where faults are injected. -/
def EntersRestoration (c : Config η) (injectFaults : Bool) (reason : String)
    (m : Machine (Exit HelperError) (World η)) : Prop :=
  match injectFaults with
  | false => ∃ j bytes, Recordable c "restoration_started" (reasonPayload reason) j bytes m
  | true => Quiet 1 m.script ∧
      (∃ j bytes, Recordable c "restoration_started" (reasonPayload reason) j bytes ⟨m.state, m.script.tail⟩) ∧
      Quiet 2 (m.script.drop 6)

theorem Recordable.congr {event : String} {payload : Option Json} {j : Journal} {bytes : List UInt8}
    {m m' : Machine (Exit HelperError) (World η)} (h : Recordable c event payload j bytes m)
    (hjournal : m'.state.journal = m.state.journal) (hdirectory : m'.state.directory = m.state.directory)
    (hscript : m'.script = m.script) : Recordable c event payload j bytes m' where
  handle := hjournal.trans h.handle
  valid := h.valid
  bounded := h.bounded
  opened := h.opened
  found := by
    rw [← h.found, fileExists, fileExists, hdirectory]
  records := h.records
  encoded := h.encoded
  fits := by
    have hfits := h.fits
    rwa [fileBytes, hdirectory]
  quiet := hscript ▸ h.quiet

theorem wp_enterRestoring (hstate : Enterable m.state.session.state) : wp (enterRestoring : Helping η Unit)
      (fun _ m' => m'.state.journal = m.state.journal ∧ m'.state.directory = m.state.directory ∧
        m'.script = m.script) (fun _ _ => False) m := by
  simp only [enterRestoring, transition, failWith, setSession, wp_bind, wp_read, wp_onlyIf, wp_raise, wp_update]
  refine ⟨fun hne => ⟨fun hrefused => ?_, fun _ => ⟨trivial, trivial, trivial⟩⟩, fun _ => ⟨trivial, trivial, trivial⟩⟩
  rcases hstate with hsame | ⟨hallowed, _⟩
  · simp [hsame] at hne
  · simp [hallowed] at hrefused

theorem wp_record (event : String) (payload : Option Json) (m : Machine (Exit HelperError) (World η)) :
    wp (journalAppend c event payload)
      (fun _ m' => (∃ j bytes, Recordable c event payload j bytes m) ∧ m'.script = m.script.drop 5)
      (fun _ _ => ¬ ∃ j bytes, Recordable c event payload j bytes m) m := by
  by_cases hrecordable : ∃ j bytes, Recordable c event payload j bytes m
  · obtain ⟨j, bytes, h⟩ := hrecordable
    exact wp_mono (wp_journalAppend_of_recordable h) (fun _ _ hscript => ⟨⟨j, bytes, h⟩, hscript⟩)
      (fun _ _ h => h.elim)
  · refine wp_mono (wp_journalAppend c _ _ m) (fun _ _ h => ?_) (fun _ _ _ => hrecordable)
    obtain ⟨j, bytes, h, _, hscript⟩ := h
    exact ⟨⟨j, bytes, h⟩, hscript⟩

theorem wp_boundaryIf_true (m : Machine (Exit HelperError) (World η)) :
    wp (boundaryIf true : Helping η Unit)
      (fun _ m' => m.script.head?.join = none ∧ m'.state = m.state ∧ m'.script = m.script.tail)
      (fun _ _ => m.script.head?.join ≠ none) m := by
  show wp (operate id) _ _ m
  refine wp_operate_head (fun hnone => ⟨hnone, rfl, rfl⟩) (fun r hr => ?_)
  rw [hr]
  simp

theorem not_exists_of_congr {reason : String} {m m' : Machine (Exit HelperError) (World η)}
    (hjournal : m'.state.journal = m.state.journal) (hdirectory : m'.state.directory = m.state.directory)
    (hscript : m'.script = m.script)
    (h : ¬ ∃ j bytes, Recordable c "restoration_started" (reasonPayload reason) j bytes m') :
    ¬ ∃ j bytes, Recordable c "restoration_started" (reasonPayload reason) j bytes m := by
  rintro ⟨j, bytes, hrecordable⟩
  exact h ⟨j, bytes, hrecordable.congr hjournal hdirectory hscript⟩

theorem wp_enterRestoration (injectFaults : Bool) (reason : String)
    (hstate : Enterable m.state.session.state) :
    wp (enterRestoration c injectFaults reason) (fun _ _ => EntersRestoration c injectFaults reason m)
      (fun _ _ => ¬ EntersRestoration c injectFaults reason m) m := by
  rw [enterRestoration, wp_bind]
  refine wp_mono (wp_enterRestoring hstate) (fun _ m₁ h₁ => ?_) (fun _ _ h => h.elim)
  obtain ⟨hjournal, hdirectory, hscript⟩ := h₁
  cases injectFaults with
  | false =>
    show wp (journalAppend c "restoration_started" (reasonPayload reason) >>= fun _ => _) _ _ m₁
    rw [wp_bind]
    refine wp_mono (wp_record _ _ m₁) (fun _ _ h => ?_) (fun _ _ h => ?_)
    · obtain ⟨j, bytes, hrecordable⟩ := h.1
      exact ⟨j, bytes, hrecordable.congr hjournal.symm hdirectory.symm hscript.symm⟩
    · exact not_exists_of_congr hjournal hdirectory hscript h
  | true =>
    rw [wp_bind]
    refine wp_mono (wp_boundaryIf_true m₁) (fun _ m₂ h₂ => ?_) (fun _ _ h hcondition => ?_)
    · rw [wp_bind]
      refine wp_mono (wp_record _ _ m₂) (fun _ m₃ h₃ => ?_) (fun _ _ h hcondition => ?_)
      · have hquiet : m₃.script = m.script.drop 6 := by
          rw [h₃.2, h₂.2.2, hscript, ← drop_one, drop_drop]
        rw [wp_bind]
        refine wp_mono (wp_boundaryIf_true m₃) (fun _ m₄ h₄ => ?_) (fun _ _ h hcondition => ?_)
        · refine wp_mono (wp_boundaryIf_true m₄) (fun _ m₅ h₅ => ?_) (fun _ _ h hcondition => ?_)
          · refine ⟨quiet_succ.mpr ⟨hscript ▸ h₂.1, quiet_zero _⟩, ?_, ?_⟩
            · obtain ⟨j, bytes, hrecordable⟩ := h₃.1
              exact ⟨j, bytes, hrecordable.congr (h₂.2.1 ▸ hjournal.symm) (h₂.2.1 ▸ hdirectory.symm)
                (h₂.2.2 ▸ hscript ▸ rfl)⟩
            · rw [← hquiet]
              exact quiet_succ.mpr ⟨h₄.1, quiet_succ.mpr ⟨h₄.2.2 ▸ h₅.1, quiet_zero _⟩⟩
          · have htwo := hquiet ▸ hcondition.2.2
            exact h (h₄.2.2 ▸ (quiet_succ.mp (quiet_succ.mp htwo).2).1)
        · exact h (quiet_succ.mp (hquiet ▸ hcondition.2.2)).1
      · refine not_exists_of_congr (m := ⟨m.state, m.script.tail⟩) ?_ ?_ ?_ h hcondition.2.1
        · rw [h₂.2.1]
          exact hjournal
        · rw [h₂.2.1]
          exact hdirectory
        · rw [h₂.2.2, hscript]
    · exact h (hscript ▸ (quiet_succ.mp hcondition.1).1)

theorem EmergencyEvent.isApply (h : EmergencyEvent e) : e.isApply = false := by
  cases e with
  | applyEntered prior host journal pending =>
    rcases h with h | h
    · cases h
    · cases h
  | _ => rfl

theorem preserves_restored (prior : Json) {x : Helping η α} (hx : Does (Act c EmergencyEvent T) x) :
    Preserves (fun m => Restored prior m.state) x :=
  hx.preserves fun _ _ hact => hact.restored fun _ => EmergencyEvent.isApply

theorem Mutated.noted {w : World η} (h : Mutated prior w) :
    Restored prior { w with log := w.log ++ [.restoreEntered prior] } := by
  obtain ⟨after, hentered, _⟩ := h
  exact ⟨after ++ [.restoreEntered prior], hentered.concat rfl, mem_append_right _ mem_cons_self⟩

theorem wp_restoreStopped (injectFaults : Bool) (stopped : Except HelperError (Option Json))
    (hm : Mutated prior m.state) :
    wp (restoreStopped c injectFaults prior stopped) (fun _ m' => Restored prior m'.state)
      (fun _ m' => Restored prior m'.state) m := by
  rw [restoreStopped, backendRestore, wp_bind, wp_bind, note, wp_update, wp_bind, wp_read]
  refine wp_mono (preserves_restored (c := c) (T := fun _ => True) _
    (does_interact (fun _ => .of_reports (reports_boundaryIf injectFaults)) _) _ hm.noted) (fun _ m₁ h₁ => ?_)
    (fun _ _ h => h)
  refine Preserves.bind (P := fun m => Restored prior m.state) (reports_boundaryIf _).preserves (fun _ => ?_) m₁ h₁
  refine Preserves.bind (preserves_restored (c := c) (T := fun _ => True) _ (does_validateAgainst _ _
    fun _ => .inl trivial)) fun restored => ?_
  refine .bind (reports_ofExcept _).preserves fun restoredBytes => ?_
  cases stopped with
  | error e => exact (reports_raise e).preserves
  | ok _ =>
    refine .bind (reports_ofExcept _).preserves fun priorBytes => ?_
    refine .bind (reports_refuse _ _).preserves fun _ => .bind ?_ fun _ => .of_pure _
    exact .of_update fun _ h => h

/-- Behind its first record an attempt calls `backend.restore`, whatever stopping the guardian raises. -/
theorem wp_restoreHost (injectFaults : Bool) (hm : Mutated prior m.state) :
    wp (restoreHost c injectFaults prior) (fun _ m' => Restored prior m'.state)
      (fun e m' => e ≠ .killed → Restored prior m'.state) m := by
  have hstop : Does (Act c ServeEvent fun _ => True) (stopPopulationGuardOnce c) :=
    does_stopPopulationGuardOnce ⟨rfl, rfl⟩
  have hkeep : Preserves (fun m => Mutated prior m.state) (stopPopulationGuardOnce c) :=
    hstop.preserves fun _ _ hact => hact.mutated fun _ he => he
  rw [restoreHost, wp_bind]
  refine wp_rescue (wp_mono (hkeep m hm) (fun stopped m₁ h₁ => ?_) (fun e m₁ h₁ => ⟨fun e' _ => ?_, fun _ h =>
    absurd rfl h⟩))
  · exact wp_mono (wp_restoreStopped injectFaults (.ok stopped) h₁) (fun _ _ h => h) (fun _ _ h _ => h)
  · exact wp_mono (wp_restoreStopped injectFaults (.error e') h₁) (fun _ _ h => h) (fun _ _ h _ => h)

theorem wp_restore (acknowledge injectFaults : Bool) (reason : String) (hm : Ready prior m.state)
    (hstate : m.state.session.state ≠ .restored) :
    wp (restore c acknowledge injectFaults reason)
      (fun _ m' => EntersRestoration c injectFaults reason m ∧ Restored prior m'.state)
      (fun e m' => e ≠ .killed →
        (EntersRestoration c injectFaults reason m ∧ Restored prior m'.state) ∨
        (¬ EntersRestoration c injectFaults reason m ∧ Ready prior m'.state ∧
          m'.state.session.state ∈ [m.state.session.state, .restoring] ∧
          m' = finalState ((enterRestoration c injectFaults reason).run m))) m := by
  have henter : Does (Act c ServeEvent fun t => t = .restoring) (enterRestoration c injectFaults reason) :=
    does_enterRestoration injectFaults reason ⟨rfl, rfl⟩ rfl
  have hstay : Preserves (fun m' => Ready prior m'.state ∧
      m'.state.session.state ∈ [m.state.session.state, .restoring]) (enterRestoration c injectFaults reason) :=
    henter.preserves (P := fun w => Ready prior w ∧ w.session.state ∈ [m.state.session.state, .restoring])
      fun w w' hact hw => ⟨hact.ready (fun _ he => he) (fun t ht => .inl ht) hw.1, by
        rcases hact.state with hsame | hnew
        · exact hsame ▸ hw.2
        · rw [hnew]
          simp⟩
  obtain ⟨j, hj⟩ := Option.isSome_iff_exists.mp hm.journal
  rw [restore, wp_bind, wp_read]
  simp only [id, hm.prior, hj]
  rw [wp_onlyIf]
  refine ⟨fun _ => ?_, fun hsame => absurd hsame (by simpa using hstate)⟩
  rw [wp_bind]
  have hrun := wp_and (wp_and (hstay m ⟨hm, mem_cons_self⟩) (wp_enterRestoration injectFaults reason hm.state))
    (wp_finalState (enterRestoration c injectFaults reason) m)
  refine wp_mono hrun (fun _ m₁ h₁ => ?_) (fun e m₁ h₁ _ => .inr ⟨h₁.1.2, h₁.1.1.1, h₁.1.1.2, h₁.2⟩)
  rw [wp_bind]
  refine wp_mono (wp_restoreHost injectFaults h₁.1.1.1.mutated) (fun restored m₂ h₂ => ?_)
    (fun e _ h he => .inl ⟨h₁.1.2, h he⟩)
  have hfinish : Does (Act c EmergencyEvent EmergencyState)
      (finishRestoration c acknowledge injectFaults restored.1 restored.2) :=
    does_finishRestoration acknowledge injectFaults _ _ (fun _ he => .inl he) (.inl (.inr rfl))
  exact wp_mono (preserves_restored _ hfinish m₂ h₂) (fun _ _ h => ⟨h₁.1.2, h⟩) (fun _ _ h _ => .inl ⟨h₁.1.2, h⟩)

/-! ## The emergency -/

/-- Where the record of an emergency leaves the process, written or not. -/
def requested (c : Config η) (reason : String) (m : Machine (Exit HelperError) (World η)) :
    Machine (Exit HelperError) (World η) :=
  finalState ((requestRecovery c reason).run
    { m with state := { m.state with session := { m.state.session with abnormalRecovery := true } } })

def Lost (prior : Json) (w : World η) : Prop := Mutated prior w ∧ w.session.state = .indeterminate

theorem not_restored_of_enterable {state : SessionState} (h : Enterable state) :
    state ≠ .restored ∧ state ≠ .closed := by
  refine ⟨?_, ?_⟩
  · rintro rfl
    simp [Enterable, SessionState.allowed] at h
  · rintro rfl
    simp [Enterable, SessionState.allowed] at h

theorem wp_emergencyRestore (reason : String) (hm : Ready prior m.state) :
    wp (emergencyRestore c reason)
      (fun _ m' => EntersRestoration c false reason (requested c reason m) ∧ Restored prior m'.state)
      (fun e m' => e ≠ .killed →
        (EntersRestoration c false reason (requested c reason m) ∧ Restored prior m'.state) ∨
        (¬ EntersRestoration c false reason (requested c reason m) ∧ Lost prior m'.state)) m := by
  obtain ⟨hrestored, hclosed⟩ := not_restored_of_enterable hm.state
  obtain ⟨j, hj⟩ := Option.isSome_iff_exists.mp hm.journal
  rw [emergencyRestore, setSession, wp_bind, wp_update, wp_bind, wp_read, wp_onlyIf]
  refine ⟨fun _ => ?_, fun hskip => ?_⟩
  · rw [emergencyAttempt, wp_bind]
    have hready : Ready prior { m.state with session := { m.state.session with abnormalRecovery := true } } :=
      ⟨hm.mutated, hm.prior, hm.journal, hm.state⟩
    have hrequest : Does (Act c ServeEvent fun _ => False) (requestRecovery c reason) :=
      does_requestRecovery reason ⟨rfl, rfl⟩
    have hstay : Preserves (fun m' => Ready prior m'.state) (requestRecovery c reason) :=
      hrequest.preserves fun w w' hact hw => hact.ready (fun _ he => he) (fun t ht => ht.elim) hw
    have hkilled : wp (requestRecovery c reason) (fun _ _ => True) (fun e _ => e = .killed)
        { m with state := { m.state with session := { m.state.session with abnormalRecovery := true } } } := by
      rw [requestRecovery, wp_bind]
      exact wp_mono (wp_rescue_killed _ _) (fun _ _ _ => trivial) (fun _ _ h => h)
    refine wp_mono (wp_and (wp_and (hstay _ hready) (wp_finalState (requestRecovery c reason) _)) hkilled)
      (fun _ m₁ h₁ => ?_) (fun e m₁ h₁ he => absurd h₁.2 he)
    · obtain ⟨⟨hm₁, hfinal⟩, _⟩ := h₁
      have hreq : m₁ = requested c reason m := hfinal
      rw [wp_bind, ← hreq]
      refine wp_rescue (wp_mono (wp_restore false false reason hm₁ (not_restored_of_enterable hm₁.state).1)
        (fun _ m₂ h₂ => h₂) (fun e m₂ h₂ => ⟨fun e' he' => ?_, fun hkilled hne => absurd rfl hne⟩))
      have hcases := h₂ (by rw [he']; exact fun h => by cases h)
      simp only [wp_bind, wp_read, wp_onlyIf, indeterminate, wp_raise, transition, failWith, setSession, wp_update]
      rcases hcases with ⟨hentered, hrestored⟩ | ⟨hentered, hready, hstate, _⟩
      · exact ⟨fun _ => ⟨fun _ _ => .inl ⟨hentered, hrestored⟩, fun _ _ => .inl ⟨hentered, hrestored⟩⟩,
          fun _ _ => .inl ⟨hentered, hrestored⟩⟩
      · -- from where an attempt can begin, `indeterminate` is allowed
        have hallowed : SessionState.indeterminate ∈ m₂.state.session.state.allowed := by
          rcases hready.state with hsame | ⟨_, hallowed⟩
          · rw [hsame]
            simp [SessionState.allowed]
          · exact hallowed
        refine ⟨fun _ => ⟨fun hrefused => ?_, fun _ _ => .inr ⟨hentered, hready.mutated, rfl⟩⟩, fun hkeep => ?_⟩
        · simp [hallowed] at hrefused
        · refine fun _ => .inr ⟨hentered, hready.mutated, ?_⟩
          simpa [hallowed] using hkeep
  · simp [hm.prior, hj, hrestored, hclosed] at hskip

theorem preserves_lost (reason : String) :
    Preserves (fun m => Lost prior m.state) (emergencyRestore c reason) := by
  intro m hm
  rw [emergencyRestore, setSession, wp_bind, wp_update, wp_bind, wp_read, wp_onlyIf]
  have hlost : Lost prior { m.state with session := { m.state.session with abnormalRecovery := true } } :=
    ⟨hm.1, hm.2⟩
  refine ⟨fun _ => ?_, fun _ => hlost⟩
  have hact : ∀ {w w' : World η}, Act c ServeEvent (fun _ => False) w w' → Lost prior w → Lost prior w' :=
    fun h hw => ⟨h.mutated (fun _ he => he) hw.1, h.state.elim (fun hsame => hsame.trans hw.2) False.elim⟩
  have hrequest : Preserves (fun m => Lost prior m.state) (requestRecovery c reason) :=
    (does_requestRecovery (T := fun _ => False) reason ⟨rfl, rfl⟩).preserves fun _ _ => hact
  rw [emergencyAttempt, wp_bind]
  refine wp_mono (hrequest _ hlost) (fun _ m₁ h₁ => ?_) (fun _ _ h => h)
  have hrestore : wp (restore c false false reason) (fun _ m' => Lost prior m'.state)
      (fun _ m' => Lost prior m'.state) m₁ := by
    rw [restore, wp_bind, wp_read]
    dsimp only [id]
    split
    · have hrefused : SessionState.indeterminate ≠ .restoring ∧
          SessionState.restoring ∉ SessionState.indeterminate.allowed := by
        simp [SessionState.allowed]
      rw [wp_onlyIf]
      refine ⟨fun _ => ?_, fun _ => h₁⟩
      simp only [enterRestoration, enterRestoring, transition, failWith, wp_bind, wp_read, wp_onlyIf, wp_raise, h₁.2]
      refine ⟨fun _ => ⟨fun _ => h₁, fun hallowed => absurd hallowed (by simp [SessionState.allowed])⟩,
        fun hsame => absurd hsame (by simp)⟩
    · exact h₁
  rw [wp_bind]
  refine wp_rescue (wp_mono hrestore (fun _ _ h => h) (fun e m₂ h₂ => ⟨fun e' _ => ?_, fun _ => h₂⟩))
  simp only [wp_bind, wp_read, wp_onlyIf, indeterminate, wp_raise, h₂.2]
  exact ⟨fun hne => absurd hne (by simp), fun _ => h₂⟩

/-! ## The end of a session -/

theorem preserves_closeSession {P : List (Event η) → Prop} (hP : ∀ log descriptor, P log → P (log ++ [.closed descriptor]))
    (originalError : Option HelperError) : Preserves (fun m => P m.state.log) (closeSession c originalError) := by
  have hclosed : ∀ {w w' : World η}, Act c (fun e => ∃ d, e = .closed d) (fun _ => True) w w' → P w.log → P w'.log := by
    intro w w' h hw
    rcases h.log with hlog | ⟨e, hlog, d, rfl⟩
    · exact hlog ▸ hw
    · exact hlog ▸ hP _ d hw
  have hcollect : ∀ descriptor (closer : Helping η Unit),
      Does (Act c (fun e => ∃ d, e = .closed d) fun _ => True) closer →
      Preserves (fun m => P m.state.log) (collect descriptor closer) :=
    fun descriptor _ hcloser => (does_collect ⟨descriptor, rfl⟩ hcloser).preserves fun _ _ => hclosed
  refine .bind (hcollect _ _ (does_callMethod _)) fun _ => ?_
  refine .bind (hcollect _ _ (does_callMethod _)) fun _ => ?_
  refine .bind (hcollect _ _ does_evidenceClose) fun _ => ?_
  have hreads : ∀ {β : Type} (f : World η → β), Preserves (fun m => P m.state.log) (read f : Helping η β) :=
    fun f => Reports.preserves (P := fun w : World η => P w.log) (reports_read f)
  refine .bind (hreads _) fun state => ?_
  refine .bind (.of_onlyIf ((does_transition trivial).preserves fun _ _ => hclosed)) fun _ => ?_
  refine Preserves.bind ?_ fun _ => Reports.preserves (P := fun w : World η => P w.log) (reports_refuse _ _)
  exact .bind (hreads _) fun w => .of_update (P := fun w : World η => P w.log) fun _ h => h

variable {log : List (Event η)}

theorem Restored.concat_closed {d : String}
    (h : ∃ after, EnteredAt log prior after ∧ .restoreEntered prior ∈ after) :
    ∃ after, EnteredAt (log ++ [.closed d]) prior after ∧ .restoreEntered prior ∈ after := by
  obtain ⟨after, hentered, hmem⟩ := h
  exact ⟨after ++ [.closed d], hentered.concat rfl, mem_append_left _ hmem⟩

theorem Mutated.concat_closed {d : String}
    (h : ∃ after, EnteredAt log prior after ∧ ∀ e ∈ after, e.isRestore = false) :
    ∃ after, EnteredAt (log ++ [.closed d]) prior after ∧ ∀ e ∈ after, e.isRestore = false := by
  obtain ⟨after, hentered, hafter⟩ := h
  refine ⟨after ++ [.closed d], hentered.concat rfl, fun e he => ?_⟩
  rcases mem_append.mp he with he | he
  · exact hafter e he
  · rw [mem_singleton.mp he]
    rfl

def Unmutated (log : List (Event η)) : Prop := ∀ e ∈ log, e.isApply = false

theorem Unmutated.restores (h : Unmutated log) : Restores log := by
  intro before prior host journal pending after hlog
  have hmem := h (.applyEntered prior host journal pending) (hlog ▸ mem_append_right _ mem_cons_self)
  cases hmem

theorem Unmutated.concat (h : Unmutated log) (he : e.isApply = false) : Unmutated (log ++ [e]) := by
  intro e' he'
  rcases mem_append.mp he' with he' | he'
  · exact h e' he'
  · rw [mem_singleton.mp he']
    exact he

def Decided (possible : Prop) (log : List (Event η)) : Prop :=
  (possible ∧ (Unmutated log ∨ ∃ prior after, EnteredAt log prior after ∧ .restoreEntered prior ∈ after)) ∨
  (¬ possible ∧ ∃ prior after, EnteredAt log prior after ∧ ∀ e ∈ after, e.isRestore = false)

theorem Decided.restores_iff {possible : Prop} (h : Decided possible log) :
    Restores log ↔ possible := by
  rcases h with ⟨hpossible, hun | ⟨prior, after, hentered, hmem⟩⟩ | ⟨hnot, prior, after, hentered, hafter⟩
  · exact iff_of_true hun.restores hpossible
  · exact iff_of_true (hentered.restores_iff.mpr hmem) hpossible
  · refine iff_of_false (fun hrestores => ?_) hnot
    cases hafter _ (hentered.restores_iff.mp hrestores)

theorem Decided.concat_closed {possible : Prop} {d : String} (h : Decided possible log) :
    Decided possible (log ++ [.closed d]) := by
  rcases h with ⟨hpossible, hun | ⟨prior, after, hentered, hmem⟩⟩ | ⟨hnot, prior, after, hentered, hafter⟩
  · exact .inl ⟨hpossible, .inl (hun.concat rfl)⟩
  · exact .inl ⟨hpossible, .inr ⟨prior, Restored.concat_closed ⟨after, hentered, hmem⟩⟩⟩
  · exact .inr ⟨hnot, prior, Mutated.concat_closed ⟨after, hentered, hafter⟩⟩

/-! ## A whole session -/

/-- Where a session that mutates the host gets to restore it. If it served to the end, the requested attempt
gets to the host or the one behind it does; if it was cut short, the emergency's attempt does. -/
def RestorationPossible (c : Config η) (x : Expected) (m : Machine (Exit HelperError) (World η)) : Prop :=
  match (serve c x).run m with
  | .ok _ served =>
    EntersRestoration c true "normal_request" served ∨
    EntersRestoration c false "normal_restore_failure" (requested c "normal_restore_failure"
      (finalState ((enterRestoration c true "normal_request").run served)))
  | .error (.raised e) cut =>
    Unmutated cut.state.log ∨ EntersRestoration c false e.kind.typeName (requested c e.kind.typeName cut)
  | .error .killed _ => True

theorem wp_requestRestore {served : Machine (Exit HelperError) (World η)}
    (hm : Ready prior served.state) (possible : Prop) (hpossible : possible ↔
      (EntersRestoration c true "normal_request" served ∨
      EntersRestoration c false "normal_restore_failure" (requested c "normal_restore_failure"
        (finalState ((enterRestoration c true "normal_request").run served))))) :
    wp (requestRestore c) (fun _ m' => possible ∧ Restored prior m'.state)
      (fun e m' => e ≠ .killed → (possible ∧ Restored prior m'.state) ∨ (¬ possible ∧ Lost prior m'.state))
      served := by
  rw [requestRestore, wp_bind]
  refine wp_rescue (wp_mono (wp_restore true true _ hm (not_restored_of_enterable hm.state).1)
    (fun _ m₁ h₁ => ⟨hpossible.mpr (.inl h₁.1), h₁.2⟩) (fun e m₁ h₁ => ⟨fun e' he' => ?_, fun _ h => absurd rfl h⟩))
  subst he'
  rw [wp_bind]
  rcases h₁ (by simp) with ⟨hentered, hrestored⟩ | ⟨hentered, hready, _, hfinal⟩
  · -- the host was restored, and stays so
    have hkeep := preserves_restored (c := c) prior (does_emergencyRestore (T := EmergencyState)
      "normal_restore_failure" (fun _ he => he) (fun _ ht => ht)) m₁ hrestored
    refine wp_mono hkeep (fun _ _ h _ => ?_) (fun _ _ h _ => ?_)
    · exact .inl ⟨hpossible.mpr (.inl hentered), h⟩
    · exact .inl ⟨hpossible.mpr (.inl hentered), h⟩
  · refine wp_mono (wp_emergencyRestore "normal_restore_failure" hready) (fun _ _ h _ => ?_) (fun _ _ h hne => ?_)
    · exact .inl ⟨hpossible.mpr (.inr (hfinal ▸ h.1)), h.2⟩
    · rcases h hne with h | h
      · exact .inl ⟨hpossible.mpr (.inr (hfinal ▸ h.1)), h.2⟩
      · refine .inr ⟨fun hp => ?_, h.2⟩
        rcases hpossible.mp hp with hp | hp
        · exact hentered hp
        · exact h.1 (hfinal ▸ hp)

theorem unmutated_of_touched {w : World η} (h : Untouched w.log) : Unmutated w.log := fun e he => (h e he).1

theorem preserves_unmutated (reason : String) :
    Preserves (fun m => Unmutated m.state.log) (emergencyRestore c reason) :=
  Does.preserves (P := fun w : World η => Unmutated w.log)
    (does_emergencyRestore (T := EmergencyState) reason (fun _ he => he) (fun _ ht => ht)) fun w w' hact hw => by
      rcases hact.log with hlog | ⟨e, hlog, he⟩
      · exact hlog ▸ hw
      · exact hlog ▸ hw.concat (EmergencyEvent.isApply he)

theorem not_unmutated {w : World η} (h : Mutated prior w) : ¬ Unmutated w.log := by
  obtain ⟨after, ⟨before, host, journal, pending, hlog, _⟩, _⟩ := h
  intro hun
  have happly := hun (.applyEntered prior host journal pending) (hlog ▸ mem_append_right _ mem_cons_self)
  cases happly

theorem wp_recoverSession (e : HelperError) {cut : Machine (Exit HelperError) (World η)} (hcut : Touched cut.state)
    (possible : Prop) (hpossible : possible ↔ (Unmutated cut.state.log ∨
      EntersRestoration c false e.kind.typeName (requested c e.kind.typeName cut))) :
    wp (recoverSession c e) (fun _ m' => Decided possible m'.state.log)
      (fun e' m' => e' ≠ .killed → Decided possible m'.state.log) cut := by
  rw [recoverSession, wp_bind]
  rcases hcut with huntouched | ⟨prior, hready⟩
  · have hun := unmutated_of_touched huntouched
    have hyes := hpossible.mpr (.inl hun)
    refine wp_rescue (wp_mono (preserves_unmutated e.kind.typeName cut hun) (fun _ m₁ h₁ => ?_)
      (fun e' m₁ h₁ => ⟨fun e'' _ => ?_, fun _ h => absurd rfl h⟩))
    · show Decided possible m₁.state.log
      exact .inl ⟨hyes, .inl h₁⟩
    · show Decided possible m₁.state.log
      exact .inl ⟨hyes, .inl h₁⟩
  · have hmutated : ¬ Unmutated cut.state.log := not_unmutated hready.mutated
    refine wp_rescue (wp_mono (wp_emergencyRestore e.kind.typeName hready) (fun _ m₁ h₁ => ?_)
      (fun e' m₁ h₁ => ⟨fun e'' he'' => ?_, fun _ h => absurd rfl h⟩))
    · show Decided possible m₁.state.log
      exact .inl ⟨hpossible.mpr (.inr h₁.1), .inr ⟨prior, h₁.2⟩⟩
    · show Decided possible m₁.state.log
      rcases h₁ (by rw [he'']; simp) with h | h
      · exact .inl ⟨hpossible.mpr (.inr h.1), .inr ⟨prior, h.2⟩⟩
      · exact .inr ⟨fun hp => (hpossible.mp hp).elim hmutated h.1, prior, h.2.1⟩

theorem wp_closeFailed (originalError : HelperError) {possible : Prop}
    (hm : Decided possible m.state.log) :
    wp (do
        closeSession c (some originalError)
        raise originalError : Helping η Unit)
      (fun _ m' => Decided possible m'.state.log) (fun _ m' => Decided possible m'.state.log) m :=
  Preserves.bind (preserves_closeSession (P := Decided possible) (fun _ _ h => h.concat_closed) _)
    (fun _ => Reports.preserves (P := fun w : World η => Decided possible w.log) (reports_raise _)) m hm

theorem wp_run_decided (x : Expected) (hm : m.state.log = []) :
    wp (run c x) (fun _ m' => Decided (RestorationPossible c x m) m'.state.log)
      (fun e m' => e ≠ .killed → Decided (RestorationPossible c x m) m'.state.log) m := by
  have huntouched : Untouched m.state.log := by
    intro e he
    rw [hm] at he
    cases he
  have hserve := wp_serve (c := c) x huntouched
  rw [run, wp_bind]
  refine wp_rescue ?_
  rw [attemptSession, wp_bind]
  cases hrun : (serve c x).run m with
  | ok u served =>
    obtain ⟨prior, hready⟩ := (wp_of_ok hrun).mp hserve
    have hpossible : RestorationPossible c x m ↔ (EntersRestoration c true "normal_request" served ∨
        EntersRestoration c false "normal_restore_failure" (requested c "normal_restore_failure"
          (finalState ((enterRestoration c true "normal_request").run served)))) := by
      rw [RestorationPossible, hrun]
    rw [wp_of_ok hrun]
    refine wp_mono (wp_requestRestore hready _ hpossible) (fun _ m₁ h₁ => ?_)
      (fun e m₁ h₁ => ⟨fun e' he' => ?_, fun _ h => absurd rfl h⟩)
    · have hdecided : Decided (RestorationPossible c x m) m₁.state.log := .inl ⟨h₁.1, .inr ⟨prior, h₁.2⟩⟩
      exact wp_mono (preserves_closeSession (P := Decided _) (fun _ _ h => h.concat_closed) none m₁ hdecided)
        (fun _ _ h => h) (fun _ _ h _ => h)
    · rw [wp_bind]
      rcases h₁ (by rw [he']; simp) with ⟨hyes, hrestored⟩ | ⟨hno, hlost⟩
      · have hkeep := preserves_restored (c := c) prior (does_recoverSession (T := EmergencyState) e'
          (fun _ he => he) (fun _ ht => ht)) m₁ hrestored
        refine wp_mono hkeep (fun original m₂ h₂ => ?_) (fun _ _ h₂ _ => .inl ⟨hyes, .inr ⟨prior, h₂⟩⟩)
        exact wp_mono (wp_closeFailed original (.inl ⟨hyes, .inr ⟨prior, h₂⟩⟩)) (fun _ _ h => h) (fun _ _ h _ => h)
      · have hkeep : wp (recoverSession c e') (fun _ m' => Lost prior m'.state) (fun _ m' => Lost prior m'.state)
            m₁ := by
          rw [recoverSession, wp_bind]
          refine Preserves.of_rescue (preserves_lost e'.kind.typeName) m₁ hlost |> fun h => wp_mono h
            (fun outcome m₂ h₂ => ?_) (fun _ _ h => h)
          cases outcome with
          | ok _ => exact h₂
          | error recovery => exact h₂
        refine wp_mono hkeep (fun original m₂ h₂ => ?_) (fun _ _ h₂ _ => .inr ⟨hno, prior, h₂.1⟩)
        exact wp_mono (wp_closeFailed original (.inr ⟨hno, prior, h₂.1⟩)) (fun _ _ h => h) (fun _ _ h _ => h)
  | error exit cut =>
    have htouched := (wp_of_error hrun).mp hserve
    rw [wp_of_error hrun]
    refine ⟨fun e he => ?_, fun _ h => absurd rfl h⟩
    subst he
    have hpossible : RestorationPossible c x m ↔ (Unmutated cut.state.log ∨
        EntersRestoration c false e.kind.typeName (requested c e.kind.typeName cut)) := by
      rw [RestorationPossible, hrun]
    rw [wp_bind]
    refine wp_mono (wp_recoverSession e htouched _ hpossible) (fun original m₁ h₁ => ?_) (fun _ _ h => h)
    exact wp_mono (wp_closeFailed original h₁) (fun _ _ h => h) (fun _ _ h _ => h)

/-! ## A trial -/

def trialUpToRestore (c : Config η) (binding : Binding) (peer : PeerCredentials) :
    Helping η ((Json × List UInt8) × TrialDigests × Bool) := do
  let captured ← trialCapture c binding peer
  let digests ← trialMutation c captured.1
  return (captured, digests)

def trialFromRestore (c : Config η) (r : (Json × List UInt8) × TrialDigests × Bool) : Helping η TrialReceipt := do
  match ← rescue (trialRestoration c r.1.1 r.1.2) with
  | .ok restored =>
    return ⟨r.2.1.applied, r.2.1.probe, restored.2, c.sha256 r.1.2, restored.1, r.2.2⟩
  | .error _ => do
    let _ ← rescue journalClose
    raise ⟨.dataFreeReversibilityIndeterminate, "data-free feasibility restoration is indeterminate"⟩

/-- Where a trial that mutates the host gets to restore it. -/
def TrialRestorationPossible (c : Config η) (binding : Binding) (peer : PeerCredentials)
    (m : Machine (Exit HelperError) (World η)) : Prop :=
  match (trialUpToRestore c binding peer).run m with
  | .ok _ m₁ => Unmutated m₁.state.log ∨ ∃ j bytes, Recordable c "data_free_restore_started" none j bytes m₁
  | .error _ _ => True

theorem wp_trialCapture (binding : Binding) (peer : PeerCredentials) (hm : Untouched m.state.log) :
    wp (trialCapture c binding peer)
      (fun captured m' => Untouched m'.state.log ∧ .captured captured.1 ∈ m'.state.log)
      (fun _ m' => Unmutated m'.state.log) m := by
  have hbegin : ∀ {w w' : World η}, Acts (Begin c CaptureEvent CaptureState) w w' → Untouched w.log →
      Untouched w'.log := untouched_of_acts fun _ => CaptureEvent.isCall
  have hun := unmutated_of_touched hm
  refine Keeps.wp_then (f := Machine.state) (reports_pendingJournal c) (fun pending m₁ h₁ => ?_)
    (fun _ _ h => h ▸ hun)
  refine Keeps.wp_then (f := Machine.state) (reports_onlyIf (Keeps.bind reports_operate_id fun _ =>
    reports_raise _)) (fun _ m₂ h₂ => ?_) (fun _ _ h => h ▸ h₁ ▸ hun)
  rw [← h₁, ← h₂] at hm
  rw [wp_bind]
  refine wp_mono (does_callMethod (c := c) (E := CaptureEvent) (T := CaptureState) _ m₂) (fun prior m₃ h₃ => ?_)
    (fun _ _ h => unmutated_of_touched (hbegin (begin_of_acts h) hm))
  have hm₃ := hbegin (begin_of_acts h₃) hm
  rw [wp_bind, note, wp_update]
  have hcaptured : Captured prior { m₃.state with
      log := m₃.state.log ++ [.captured prior], session := { m₃.state.session with prior := some prior } } :=
    ⟨fun e he => by
      rcases mem_append.mp he with he | he
      · exact hm₃ e he
      · rw [mem_singleton.mp he]
        exact ⟨rfl, rfl⟩, mem_append_right _ mem_cons_self, rfl⟩
  refine Keeps.wp_then (f := Machine.state) (reports_ofExcept _) (fun priorBytes m₄ h₄ => ?_) (fun _ _ h => ?_)
  · rw [wp_bind]
    refine wp_mono (does_urandom (E := CaptureEvent) (T := CaptureState) c 32 m₄) (fun nonce m₅ h₅ => ?_) (fun _ _ h => ?_)
    · have hm₅ : Untouched m₅.state.log ∧ .captured prior ∈ m₅.state.log := by
        refine ⟨hbegin (begin_of_acts h₅) ?_, ?_⟩
        · rw [h₄]
          exact hcaptured.untouched
        · refine mem_log_of_acts h₅ ?_
          rw [h₄]
          exact hcaptured.captured
      rw [wp_bind]
      refine wp_mono (wp_journalCreate (c := c) (E := CaptureEvent) (T := CaptureState) _ _ _ _ (fun _ => trivial)
        (by simp [CaptureEvent]) m₅) (fun _ m₆ h₆ => ?_) (fun _ _ h => unmutated_of_touched (hbegin h hm₅.1))
      obtain ⟨identifier, bytes, chunks, draws, _, _, hw⟩ := h₆.2
      refine ⟨hbegin h₆.1 hm₅.1, ?_⟩
      rw [hw]
      exact mem_append_left _ hm₅.2
    · refine unmutated_of_touched (hbegin (begin_of_acts h) ?_)
      rw [h₄]
      exact hcaptured.untouched
  · rw [h]
    exact unmutated_of_touched hcaptured.untouched

/-- What a trial leaves when it begins to restore. -/
def TrialTouched (prior : Json) (w : World η) : Prop :=
  (Untouched w.log ∧ .captured prior ∈ w.log) ∨ Mutated prior w

theorem trialTouched_of_acts (h : Acts (Act c ServeEvent T) w w')
    (hw : TrialTouched prior w) : TrialTouched prior w' := by
  rcases hw with ⟨huntouched, hcaptured⟩ | hmutated
  · exact .inl ⟨untouched_of_acts (fun _ he => he) (begin_of_acts h) huntouched, mem_log_of_acts h hcaptured⟩
  · refine .inr ?_
    induction h with
    | refl => exact hmutated
    | tail _ hact ih => exact hact.mutated (fun _ he => he) ih

theorem wp_trialApply
    (hm : Untouched m.state.log ∧ .captured prior ∈ m.state.log) :
    wp (trialApply c prior) (fun _ m' => TrialTouched prior m'.state) (fun _ m' => TrialTouched prior m'.state) m := by
  have hrecord : ∀ event payload, Does (Act c ServeEvent fun _ => False) (journalAppend c event payload) :=
    fun _ payload => does_journalAppend c payload ⟨rfl, rfl⟩
  rw [trialApply, wp_bind]
  refine wp_mono (hrecord _ _ m) (fun _ m₁ h₁ => ?_) (fun _ _ h => trialTouched_of_acts h (.inl hm))
  have huntouched := untouched_of_acts (fun _ he => he) (begin_of_acts h₁) hm.1
  have hcaptured := mem_log_of_acts h₁ hm.2
  rw [wp_bind, backendApply, wp_bind, wp_read, wp_bind, note, wp_update]
  have hmutated : TrialTouched prior { m₁.state with
      log := m₁.state.log ++ [.applyEntered prior m₁.state.host (m₁.state.journal.map (·.name))
        ((m₁.state.directory.map (·.1)).filter JournalName.isPending)] } :=
    .inr ⟨[], ⟨_, _, _, _, rfl, hcaptured, fun e he => (huntouched e he).1, fun e he => by cases he⟩,
      fun e he => by cases he⟩
  refine wp_mono (does_interact (c := c) (E := ServeEvent) (T := fun _ => False) (fun label => hrecord _ _) _ _)
    (fun _ m₂ h₂ => ?_) (fun _ _ h => trialTouched_of_acts h hmutated)
  have hrest : Does (Act c ServeEvent fun _ => False) (trialApplied c) :=
    .bind (does_callMethod _) fun _ => .after (reports_ofExcept _) fun _ => .of_pure _
  exact wp_mono (hrest m₂) (fun _ _ h => trialTouched_of_acts h (trialTouched_of_acts h₂ hmutated))
    (fun _ _ h => trialTouched_of_acts h (trialTouched_of_acts h₂ hmutated))

theorem does_trialProbe (appliedSha256 : String) : Does (Act c ServeEvent fun _ => False) (trialProbe c appliedSha256) := by
  refine .bind (does_journalAppend c _ ⟨rfl, rfl⟩) fun _ => ?_
  cases c.backend.validateDataFreeFeasibility with
  | none => exact .of_throw _
  | some operation =>
    refine .bind (does_callMethod _) fun probe => .after (reports_refuse _ _) fun _ => ?_
    exact .after (reports_ofExcept _) fun _ => .of_pure _

/-- Whatever the first `try` block raises is let pass. -/
theorem wp_trialMutation
    (hm : Untouched m.state.log ∧ .captured prior ∈ m.state.log) :
    wp (trialMutation c prior) (fun _ m' => TrialTouched prior m'.state) (fun e _ => e = .killed) m := by
  rw [trialMutation, wp_bind]
  refine wp_rescue (wp_mono (wp_trialApply hm) (fun applied m₁ h₁ => ?_) (fun _ m₁ h₁ => ⟨fun _ _ => h₁, fun _ => rfl⟩))
  rw [wp_bind]
  refine wp_rescue (wp_mono (does_trialProbe applied m₁) (fun probe m₂ h₂ => ?_)
    (fun _ m₂ h₂ => ⟨fun _ _ => trialTouched_of_acts h₂ h₁, fun _ => rfl⟩))
  have hm₂ := trialTouched_of_acts h₂ h₁
  rw [wp_bind]
  exact wp_rescue (wp_mono (does_journalAppend (T := fun _ => False) c _ ⟨rfl, rfl⟩ m₂)
    (fun _ _ h => trialTouched_of_acts h hm₂) (fun _ _ h => ⟨fun _ _ => trialTouched_of_acts h hm₂, fun _ => rfl⟩))

def NoMutation (e : Event η) : Prop := e.isApply = false

theorem does_trialRestored (priorBytes : List UInt8) :
    Does (Act c NoMutation fun _ => False) (trialRestored c prior priorBytes) := by
  refine .bind (does_validateAgainst _ _ fun _ => rfl) fun _ => .after (reports_ofExcept _) fun _ => ?_
  refine .after (reports_refuse _ _) fun _ => .bind (does_callMethod _) fun _ => ?_
  refine .bind (does_journalAppend c _ rfl) fun _ => .after reports_currentJournal fun _ => ?_
  exact .bind (does_journalComplete c rfl fun _ _ => rfl) fun _ => .of_pure _

theorem wp_trialRestore (priorBytes : List UInt8) (hm : Mutated prior m.state) :
    wp (trialRestore c prior priorBytes) (fun _ m' => Restored prior m'.state) (fun _ m' => Restored prior m'.state)
      m := by
  have hkeep : ∀ {β : Type} {x : Helping η β}, Does (Act c NoMutation fun _ => False) x →
      Preserves (fun m => Restored prior m.state) x :=
    fun hx => hx.preserves fun _ _ hact => hact.restored fun _ he => he
  rw [trialRestore, wp_bind, backendRestore, wp_bind, note, wp_update, wp_bind, wp_read]
  refine wp_mono (hkeep (does_interact (fun label => does_journalAppend (E := NoMutation) (T := fun _ => False) c _
    rfl) _) _ hm.noted) (fun _ m₁ h₁ => ?_) (fun _ _ h => h)
  exact hkeep (does_trialRestored priorBytes) m₁ h₁

/-- The second `try` block restores the host exactly where its first record can be written. -/
theorem wp_trialRestoration (priorBytes : List UInt8)
    (hm : TrialTouched prior m.state) (possible : Prop) (hpossible : possible ↔ (Unmutated m.state.log ∨
      ∃ j bytes, Recordable c "data_free_restore_started" none j bytes m)) :
    wp (trialRestoration c prior priorBytes) (fun _ m' => Decided possible m'.state.log)
      (fun _ m' => Decided possible m'.state.log) m := by
  have hstart : Does (Act c ServeEvent fun _ => False) (journalAppend c "data_free_restore_started" none) :=
    does_journalAppend c none ⟨rfl, rfl⟩
  rw [trialRestoration, wp_bind]
  rcases hm with huntouched | hmutated
  · have hyes := hpossible.mpr (.inl (unmutated_of_touched huntouched.1))
    have hkeep : ∀ {β : Type} {x : Helping η β}, Does (Act c NoMutation fun _ => False) x →
        Preserves (fun m => Unmutated m.state.log) x :=
      fun hx => Does.preserves (P := fun w : World η => Unmutated w.log) hx fun w w' hact hw => by
        rcases hact.log with hlog | ⟨e, hlog, he⟩
        · exact hlog ▸ hw
        · exact hlog ▸ hw.concat he
    have hrestore : Does (Act c NoMutation fun _ => False) (trialRestore c prior priorBytes) :=
      .bind (does_backendRestore c prior rfl fun _ => does_journalAppend c _ rfl) fun _ => does_trialRestored priorBytes
    have hall : Preserves (fun m => Unmutated m.state.log) (trialRestoration c prior priorBytes) :=
      .bind (hkeep (does_journalAppend c none rfl)) fun _ => hkeep hrestore
    refine wp_mono ((wp_bind _ _).mp (hall m (unmutated_of_touched huntouched.1))) (fun _ m₁ h₁ => ?_)
      (fun _ _ h => .inl ⟨hyes, .inl h⟩)
    exact wp_mono h₁ (fun _ _ h => .inl ⟨hyes, .inl h⟩) (fun _ _ h => .inl ⟨hyes, .inl h⟩)
  · have hkeep : Preserves (fun m => Mutated prior m.state) (journalAppend c "data_free_restore_started" none) :=
      hstart.preserves fun _ _ hact => hact.mutated fun _ he => he
    refine wp_mono (wp_and (hkeep m hmutated) (wp_record "data_free_restore_started" none m)) (fun _ m₁ h₁ => ?_)
      (fun _ m₁ h₁ => .inr ⟨fun hp => (hpossible.mp hp).elim (not_unmutated hmutated) h₁.2, prior, h₁.1⟩)
    have hyes := hpossible.mpr (.inr h₁.2.1)
    exact wp_mono (wp_trialRestore priorBytes h₁.1) (fun _ _ h => .inl ⟨hyes, .inr ⟨prior, h⟩⟩)
      (fun _ _ h => .inl ⟨hyes, .inr ⟨prior, h⟩⟩)

theorem wp_trial_decided (binding : Binding) (peer : PeerCredentials) (hm : m.state.log = []) :
    wp (runDataFreeReversibility c binding peer)
      (fun _ m' => Decided (TrialRestorationPossible c binding peer m) m'.state.log)
      (fun e m' => e ≠ .killed → Decided (TrialRestorationPossible c binding peer m) m'.state.log) m := by
  have huntouched : Untouched m.state.log := by
    intro e he
    rw [hm] at he
    cases he
  have hsplit : runDataFreeReversibility c binding peer = trialUpToRestore c binding peer >>= trialFromRestore c := by
    rw [runDataFreeReversibility, trialUpToRestore, bind_assoc]
    refine bind_congr fun captured => ?_
    rw [bind_assoc]
    refine bind_congr fun digests => ?_
    rfl
  have hfirst : wp (trialUpToRestore c binding peer) (fun r m' => TrialTouched r.1.1 m'.state)
      (fun e m' => e ≠ .killed → Unmutated m'.state.log) m := by
    rw [trialUpToRestore, wp_bind]
    refine wp_mono (wp_trialCapture binding peer huntouched) (fun captured m₁ h₁ => ?_) (fun _ _ h _ => h)
    rw [wp_bind]
    exact wp_mono (wp_trialMutation h₁) (fun _ _ h => h) (fun _ _ h hne => absurd h hne)
  rw [hsplit, wp_bind]
  cases hrun : (trialUpToRestore c binding peer).run m with
  | error e m₁ =>
    rw [wp_of_error hrun]
    intro hne
    refine .inl ⟨?_, .inl ((wp_of_error hrun).mp hfirst hne)⟩
    rw [TrialRestorationPossible, hrun]
    trivial
  | ok r m₁ =>
    have htouched := (wp_of_ok hrun).mp hfirst
    have hpossible : TrialRestorationPossible c binding peer m ↔ (Unmutated m₁.state.log ∨
        ∃ j bytes, Recordable c "data_free_restore_started" none j bytes m₁) := by
      rw [TrialRestorationPossible, hrun]
    rw [wp_of_ok hrun, trialFromRestore, wp_bind]
    refine wp_rescue (wp_mono (wp_trialRestoration r.1.2 htouched _ hpossible) (fun _ _ h => h)
      (fun e m₂ h₂ => ⟨fun _ _ => ?_, fun _ h => absurd rfl h⟩))
    have hclose : Preserves (fun m' => Decided (TrialRestorationPossible c binding peer m) m'.state.log)
        (rescue journalClose : Helping η (Except HelperError Unit)) :=
      .of_rescue (.of_operate (P := fun w : World η =>
        Decided (TrialRestorationPossible c binding peer m) w.log) fun _ h => h)
    rw [wp_bind]
    exact wp_mono (hclose m₂ h₂) (fun _ _ h _ => h) (fun _ _ h _ => h)

/-! ## The result -/

/-- The log of a process that starts with an empty one and does not die says that every mutation is followed
by a restoration of the captured prior exactly where that is possible: for a session, and for a trial. -/
theorem helper_restores_iff (c : Config η) (x : Expected) (binding : Binding) (peer : PeerCredentials) (host : η)
    (directory : List (JournalName × List UInt8)) (inbox : List Json) (chunks : List Nat) (draws : Nat)
    (script : List (Option (Raise (Exit HelperError)))) :
    (wp (run c x)
      (fun _ m' => Restores m'.state.log ↔
        RestorationPossible c x ⟨World.start host directory inbox chunks draws [], script⟩)
      (fun e m' => e ≠ .killed → (Restores m'.state.log ↔
        RestorationPossible c x ⟨World.start host directory inbox chunks draws [], script⟩))
      ⟨World.start host directory inbox chunks draws [], script⟩) ∧
    (wp (runDataFreeReversibility c binding peer)
      (fun _ m' => Restores m'.state.log ↔
        TrialRestorationPossible c binding peer ⟨World.start host directory inbox chunks draws [], script⟩)
      (fun e m' => e ≠ .killed → (Restores m'.state.log ↔
        TrialRestorationPossible c binding peer ⟨World.start host directory inbox chunks draws [], script⟩))
      ⟨World.start host directory inbox chunks draws [], script⟩) := by
  constructor
  · exact wp_mono (wp_run_decided x rfl) (fun _ _ h => h.restores_iff) (fun _ _ h hne => (h hne).restores_iff)
  · exact wp_mono (wp_trial_decided binding peer rfl) (fun _ _ h => h.restores_iff)
      (fun _ _ h hne => (h hne).restores_iff)

end AlwaysRestores

/-! ## A restoration that is skipped -/

def stillMethod {α : Type} (a : α) : Method Unit α := fun host => (host, .ok a)

def stillBackend : Backend Unit where
  capturePrior := stillMethod (.obj [])
  apply := fun _ host => .done host
  validateApplied := stillMethod (.obj [])
  startPopulationGuard := fun _ _ => stillMethod (.obj [])
  validatePopulation := fun _ => stillMethod (.obj [])
  observe := fun _ _ => stillMethod (.obj [])
  stopPopulationGuard := stillMethod (.obj [])
  restore := fun _ host => .done host
  validateRestored := stillMethod
  close := stillMethod ⟨⟩
  validateDataFreeFeasibility := none
  guardianBindIdentity := fun _ _ => stillMethod ⟨⟩
  guardianSeal := fun _ => stillMethod (.obj [])
  guardianClose := stillMethod ⟨⟩

def stillConfig : Config Unit where
  sha256 := fun _ => noDigest
  urandom := fun _ n => String.ofList (List.replicate (2 * n) '0')
  backend := stillBackend

def zeroBinding : Binding := ⟨noDigest, noDigest, noDigest, noDigest, noDigest, noDigest, noDigest⟩

def fullDisk : List (Option (Raise (Exit HelperError))) :=
  List.replicate 21 none ++ [some ⟨.raised ⟨.other "OSError", "No space left on device"⟩, false⟩]

def skipsRestoration {α : Type} :
    EStateM.Result (Exit HelperError) (Machine (Exit HelperError) (World Unit)) α → Bool
  | .error (.raised _) m => m.state.log.any Event.isApply && !m.state.log.any Event.isRestore
  | _ => false

theorem not_restores_of_skips {α : Type}
    {r : EStateM.Result (Exit HelperError) (Machine (Exit HelperError) (World Unit)) α}
    (h : skipsRestoration r = true) : ¬ Restores (finalState r).state.log := by
  match r with
  | .ok _ _ => cases h
  | .error .killed _ => cases h
  | .error (.raised e) m =>
    obtain ⟨hany, hnone⟩ := Bool.and_eq_true_iff.mp h
    obtain ⟨event, hmem, hevent⟩ := any_eq_true.mp hany
    intro hrestores
    cases event with
    | applyEntered prior host journal pending =>
      obtain ⟨before, after, hlog⟩ := append_of_mem hmem
      have hrestored := (hrestores before prior host journal pending after hlog).2
      have hfound : m.state.log.any Event.isRestore = true :=
        any_eq_true.mpr ⟨_, hlog ▸ mem_append_right _ (mem_cons_of_mem _ hrestored), rfl⟩
      simp [hfound] at hnone
    | _ => cases hevent

/-- A trial whose journal fails when it is to record the restoration leaves the host mutated. -/
theorem trial_skips_restoration :
    ¬ Restores (finalState ((runDataFreeReversibility stillConfig zeroBinding ⟨1, 2, 3⟩).run
      ⟨World.start ⟨⟩ [] [] [] 0 [], fullDisk⟩)).state.log :=
  not_restores_of_skips (by decide +kernel)

end Bravo.Helper
