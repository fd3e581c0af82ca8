import Bravo.Basic.Conduct
import Bravo.Helper.Trial

/-! # What the helper's programs do

The worlds of a helper process change by a few acts. Which events an act may note is a parameter `E`, and
which session states it may enter is a parameter `T`: each program is a sequence of acts for the events and
states of its own, and an invariant is checked against the acts alone.
-/

namespace Bravo.Helper

open Bravo.Json List

section Acts

variable {η α β : Type}

/-! ## Acts -/

structure SameCore (s s' : Session) : Prop where
  state : s'.state = s.state
  history : s'.history = s.history
  sessionId : s'.sessionId = s.sessionId
  prior : s'.prior = s.prior
  abnormalRecovery : s'.abnormalRecovery = s.abnormalRecovery
  recoveryPreflightCompleted : s'.recoveryPreflightCompleted = s.recoveryPreflightCompleted
  mutationPossible : s'.mutationPossible = s.mutationPossible
  populationStopAttempted : s'.populationStopAttempted = s.populationStopAttempted
  transcript : s'.transcript = s.transcript
  terminalReceipt : s'.terminalReceipt = s.terminalReceipt

structure SameJournal (j j' : Journal) : Prop where
  identifier : j'.identifier = j.identifier
  binding : j'.binding = j.binding
  prior : j'.prior = j.prior

def pendingNames (w : World η) : List JournalName := (w.directory.map (·.1)).filter JournalName.isPending

def Event.plain : Event η → Bool
  | .transcribed _ | .created _ | .applyEntered .. | .guardStopped | .renamed .. => false
  | _ => true

def SameDigest (c : Config η) (prior restored : Json) : Prop :=
  ∃ priorBytes restoredBytes, canonicalControlStateBytes prior = .ok priorBytes ∧
    canonicalControlStateBytes restored = .ok restoredBytes ∧ c.sha256 restoredBytes = c.sha256 priorBytes

inductive Act (c : Config η) (E : Event η → Prop) (T : SessionState → Prop) : World η → World η → Prop
  /-- The backend moves the host, or packets, write counts and random numbers are used up. -/
  | outside (w : World η) (host : η) (inbox : List Json) (chunks : List Nat) (draws : Nat) :
      Act c E T w { w with host := host, inbox := inbox, chunks := chunks, draws := draws }
  | evidence (w : World η) (e : ControlEvidence) : Act c E T w { w with evidence := e }
  | note (w : World η) (e : Event η) : e.plain = true → E e → Act c E T w { w with log := w.log ++ [e] }
  | write (w : World η) (name : JournalName) (bytes : List UInt8) : Act c E T w (appendBytes name bytes w)
  | handle (w : World η) (j j' : Journal) : w.journal = some j → SameJournal j j' →
      Act c E T w { w with journal := some j' }
  | rename (w : World η) (j : Journal) : w.journal = some j → E (.renamed j.name j.prior) →
      Act c E T w { renameFile j.name j.name.renamed w with log := w.log ++ [.renamed j.name j.prior] }
  | enter (w : World η) (t : SessionState) : t ∈ w.session.state.allowed → T t →
      Act c E T w { w with session := { w.session with state := t, history := w.session.history ++ [t] } }
  | session (w : World η) (s : Session) : SameCore w.session s → Act c E T w { w with session := s }
  | transcribe (w : World η) (line : TranscriptLine) : E (.transcribed line.event) →
      Act c E T w { w with
        session := { w.session with transcript := w.session.transcript ++ [line] }
        log := w.log ++ [.transcribed line.event] }
  | stopGuard (w : World η) : w.session.populationStopAttempted = false → E .guardStopped →
      Act c E T w { w with
        session := { w.session with
          populationStopAttempted := true
          populationStopCount := w.session.populationStopCount + 1 }
        log := w.log ++ [.guardStopped] }
  | prove (w : World η) (prior restored : Json) : w.log.getLast? = some (.validated prior restored) →
      w.session.prior = some prior → SameDigest c prior restored → E (.validated prior restored) →
      Act c E T w { w with session := { w.session with mutationPossible := false } }
  | request (w : World η) : Act c E T w { w with session := { w.session with abnormalRecovery := true } }

variable {c : Config η} {E E' : Event η → Prop} {T T' : SessionState → Prop}

variable {w w' : World η}

theorem Act.prior (h : Act c E T w w') : w'.session.prior = w.session.prior := by
  cases h with
  | session s hs => exact hs.prior
  | _ => rfl

theorem Act.log (h : Act c E T w w') : w'.log = w.log ∨ ∃ e, w'.log = w.log ++ [e] ∧ E e := by
  cases h with
  | note e _ he => exact .inr ⟨e, rfl, he⟩
  | rename j hj he => exact .inr ⟨_, rfl, he⟩
  | transcribe line he => exact .inr ⟨_, rfl, he⟩
  | stopGuard hfresh he => exact .inr ⟨_, rfl, he⟩
  | _ => exact .inl rfl

theorem Act.journal (h : Act c E T w w') (hw : w.journal.isSome = true) :
    w'.journal.isSome = true := by
  cases h with
  | handle j j' _ _ => rfl
  | _ => exact hw

theorem Act.state (h : Act c E T w w') :
    w'.session.state = w.session.state ∨ T w'.session.state := by
  cases h with
  | enter t _ ht => exact .inr ht
  | session s hs => exact .inl hs.state
  | _ => exact .inl rfl

/-! ## Rules -/

section Rules

variable {m : Machine (Exit HelperError) (World η)} {E : Exit HelperError → Machine (Exit HelperError) (World η) → Prop}

variable {Q : α → Machine (Exit HelperError) (World η) → Prop}

@[simp] theorem wp_read {f : World η → α} : wp (read f) Q E m ↔ Q (f m.state) m := Iff.rfl

@[simp] theorem wp_raise {e : HelperError} : wp (raise e) Q E m ↔ E (.raised e) m := Iff.rfl

@[simp] theorem wp_ofExcept {x : Except HelperError α} :
    wp (ofExcept x) Q E m ↔ (∀ a, x = .ok a → Q a m) ∧ (∀ e, x = .error e → E (.raised e) m) := by
  cases x with
  | ok a => simp [ofExcept]
  | error e => simp [ofExcept]

end Rules

/-! ## Programs that only report -/

theorem reports_raise (e : HelperError) : Reports (raise e : Helping η α) := fun _ => rfl

theorem reports_onlyIf {b : Bool} {x : Helping η Unit} (hx : Reports x) : Reports (onlyIf b x) :=
  .of_onlyIf hx

theorem reports_refuse (b : Bool) (e : HelperError) : Reports (onlyIf b (raise e) : Helping η Unit) :=
  reports_onlyIf (reports_raise e)

theorem reports_ofExcept (x : Except HelperError α) : Reports (ofExcept x : Helping η α) := by
  cases x with
  | ok a => exact .of_pure a
  | error e => exact reports_raise e

theorem reports_read (f : World η → α) : Reports (read f : Helping η α) := fun _ => rfl

theorem reports_boundary : Reports (boundary : Helping η Unit) := reports_operate_id

theorem reports_boundaryIf (b : Bool) : Reports (boundaryIf b : Helping η Unit) :=
  reports_onlyIf reports_boundary

theorem reports_sendPacket (value : Json) : Reports (sendPacket value : Helping η Unit) :=
  .bind (reports_ofExcept _) fun _ => reports_operate_id

theorem reports_sessionId : Reports (sessionId : Helping η String) := by
  refine .bind (reports_read _) fun id => ?_
  cases id with
  | none => exact reports_raise _
  | some id => exact .of_pure id

theorem reports_sendAck (recordType : String) (sequence : Nat) (payload : Json) :
    Reports (sendAck recordType sequence payload : Helping η Unit) :=
  .bind reports_sessionId fun _ => .bind (reports_read _) fun _ => reports_sendPacket _

theorem reports_recordSha256 (c : Config η) (value : Json) : Reports (recordSha256 c value : Helping η String) :=
  .bind (reports_ofExcept _) fun _ => .of_pure _

theorem reports_currentJournal : Reports (currentJournal : Helping η Journal) := by
  refine .bind (reports_read _) fun j => ?_
  cases j with
  | none => exact reports_raise _
  | some j => exact .of_pure j

theorem reports_verifyName (j : Journal) : Reports (verifyName j : Helping η Unit) :=
  .bind (reports_refuse _ _) fun _ => .bind (reports_read _) fun _ =>
    .bind (reports_refuse _ _) fun _ => reports_operate_id

theorem reports_verifyCompleteChain (c : Config η) : Reports (verifyCompleteChain c : Helping η Unit) :=
  .bind reports_currentJournal fun j => .bind (reports_verifyName j) fun _ =>
    .bind (reports_query _) fun _ => .bind (reports_refuse _ _) fun _ =>
      .bind (reports_refuse _ _) fun _ => .bind (reports_refuse _ _) fun _ =>
        .bind (reports_ofExcept _) fun _ => reports_refuse _ _

theorem reports_pendingJournal (c : Config η) : Reports (pendingJournal c : Helping η (Option Journal)) := by
  refine .bind (reports_query _) fun files => ?_
  match files with
  | [] => exact .of_pure _
  | [(identifier, raw)] =>
    exact .bind reports_operate_id fun _ => .bind (reports_ofExcept _) fun _ => .of_pure _
  | _ :: _ :: _ => exact reports_raise _

theorem reports_evidenceReadExact : Reports (evidenceReadExact : Helping η Unit) :=
  .bind (reports_query _) fun _ => .bind (reports_refuse _ _) fun _ => reports_refuse _ _

/-! ## The journal -/

@[simp] theorem appendBytes_nil (name : JournalName) (w : World η) : appendBytes name [] w = w := by
  have hsame : (w.directory.map fun entry : JournalName × List UInt8 =>
      if entry.1 = name then (entry.1, entry.2 ++ []) else entry) = w.directory := by
    rw [map_congr_left (g := id), List.map_id]
    intro entry _
    split
    · simp
    · rfl
  rw [appendBytes, hsame]

@[simp] theorem appendBytes_append (name : JournalName) (a b : List UInt8) (w : World η) :
    appendBytes name b (appendBytes name a w) = appendBytes name (a ++ b) w := by
  simp only [appendBytes, List.map_map]
  congr 1
  refine map_congr_left fun entry _ => ?_
  by_cases h : entry.1 = name
  · simp [h]
  · simp [h]

/-- The world with more bytes at the end of a file. -/
def Torn (w w' : World η) : Prop :=
  ∃ name bytes chunks, w' = { appendBytes name bytes w with chunks := chunks }

theorem Torn.refl (w : World η) : Torn w w := ⟨.pending "", [], w.chunks, by rw [appendBytes_nil]⟩

theorem wp_writeAll (name : JournalName) (bytes : List UInt8) (m : Machine (Exit HelperError) (World η)) :
    wp (writeAll name bytes)
      (fun _ m' => (∃ chunks, m'.state = { appendBytes name bytes m.state with chunks := chunks }) ∧
        Quiet 2 m.script ∧ m'.script = m.script.drop 2)
      (fun _ m' => Torn m.state m'.state) m := by
  rw [writeAll, wp_bind, wp_read, wp_bind, wp_update, wp_bind]
  generalize (m.state.chunks.headD bytes.length) = count
  have hall : appendBytes name (bytes.drop count) (appendBytes name (bytes.take count)
      { m.state with chunks := m.state.chunks.tail }) =
        { appendBytes name bytes m.state with chunks := m.state.chunks.tail } := by
    rw [appendBytes_append, take_append_drop]
    rfl
  have hnone : Torn m.state { m.state with chunks := m.state.chunks.tail } :=
    ⟨name, [], m.state.chunks.tail, by rw [appendBytes_nil]⟩
  have hpart : Torn m.state (appendBytes name (bytes.take count) { m.state with chunks := m.state.chunks.tail }) :=
    ⟨name, bytes.take count, m.state.chunks.tail, rfl⟩
  refine wp_operate_head (fun hfirst => ?_) (fun r _ => ?_)
  · refine wp_operate_head (fun hsecond => ?_) (fun r _ => ?_)
    · refine ⟨⟨_, hall⟩, quiet_succ.mpr ⟨hfirst, quiet_succ.mpr ⟨hsecond, quiet_zero _⟩⟩, ?_⟩
      show m.script.tail.tail = m.script.drop 2
      rw [← drop_one, ← drop_one, drop_drop]
    · dsimp only
      split
      · exact ⟨name, bytes, _, hall⟩
      · exact hpart
  · dsimp only
    split
    · exact hpart
    · exact hnone

def Journal.recorded (c : Config η) (j : Journal) (bytes : List UInt8) : Journal :=
  { j with previousSha256 := c.sha256 bytes, records := j.records + 1 }

/-- Where an append of these bytes returns: the handle is open and its name is there, neither bound is
reached, and none of its five operations raises. -/
structure Recordable (c : Config η) (event : String) (payload : Option Json) (j : Journal) (bytes : List UInt8)
    (m : Machine (Exit HelperError) (World η)) : Prop where
  handle : m.state.journal = some j
  valid : validEvent event = true
  bounded : ∀ p, payload = some p → ∃ b,
    boundedCanonicalJsonBytes maxJournalBytes "canonical privileged journal payload" p = .ok b
  opened : j.closed = false
  found : fileExists j.name m.state = true
  records : j.records < maxJournalRecords
  encoded : boundedCanonicalJsonBytes maxJournalBytes "canonical privileged journal record"
    (j.record event payload) = .ok bytes
  fits : (fileBytes j.name m.state).length + bytes.length ≤ maxJournalBytes
  quiet : Quiet 5 m.script

def Recorded (c : Config η) (event : String) (j : Journal) (bytes : List UInt8) (w w' : World η) : Prop :=
  ∃ chunks, w' = { appendBytes j.name bytes w with
    chunks := chunks, journal := some (j.recorded c bytes), log := w.log ++ [.recorded event] }

theorem wp_checkPayload (payload : Option Json) (m : Machine (Exit HelperError) (World η)) :
    wp (onSome payload fun p => do
        let _ ← ofExcept (boundedCanonicalJsonBytes maxJournalBytes "canonical privileged journal payload" p))
      (fun _ m' => m' = m ∧ ∀ p, payload = some p → ∃ b,
        boundedCanonicalJsonBytes maxJournalBytes "canonical privileged journal payload" p = .ok b)
      (fun _ m' => m' = m) m := by
  rw [wp_onSome]
  refine ⟨fun p hp => ?_, fun hp => ⟨rfl, fun p hp' => by rw [hp] at hp'; cases hp'⟩⟩
  rw [wp_bind, wp_ofExcept]
  refine ⟨fun b hb => ⟨rfl, fun p' hp' => ⟨b, ?_⟩⟩, fun _ _ => rfl⟩
  rw [hp] at hp'
  cases hp'
  exact hb

variable {m : Machine (Exit HelperError) (World η)}

theorem wp_checkPayload_of_bounded {payload : Option Json} (h : ∀ p, payload = some p → ∃ b,
      boundedCanonicalJsonBytes maxJournalBytes "canonical privileged journal payload" p = .ok b) :
    wp (onSome payload fun p => do
        let _ ← ofExcept (boundedCanonicalJsonBytes maxJournalBytes "canonical privileged journal payload" p))
      (fun _ m' => m' = m) (fun _ _ => False) m := by
  rw [wp_onSome]
  refine ⟨fun p hp => ?_, fun _ => rfl⟩
  obtain ⟨b, hb⟩ := h p hp
  rw [wp_bind, wp_ofExcept, hb]
  exact ⟨fun _ _ => rfl, fun _ hbad => (by cases hbad)⟩

theorem wp_journalAppend (c : Config η) (event : String) (payload : Option Json)
    (m : Machine (Exit HelperError) (World η)) :
    wp (journalAppend c event payload)
      (fun _ m' => ∃ j bytes, Recordable c event payload j bytes m ∧ Recorded c event j bytes m.state m'.state ∧
        m'.script = m.script.drop 5)
      (fun _ m' => Torn m.state m'.state) m := by
  unfold journalAppend currentJournal verifyName
  simp only [wp_bind, wp_read]
  cases hj : m.state.journal with
  | none => exact .refl _
  | some j =>
    simp only [wp_pure]
    rw [wp_onlyIf]
    refine ⟨fun _ => .refl _, fun hevent => ?_⟩
    refine wp_mono (wp_checkPayload payload m) (fun _ m₁ h₁ => ?_) (fun _ m₁ h₁ => h₁ ▸ .refl _)
    obtain ⟨rfl, hpayload⟩ := h₁
    rw [wp_onlyIf]
    refine ⟨fun _ => .refl _, fun hopened => ?_⟩
    rw [wp_onlyIf]
    refine ⟨fun _ => .refl _, fun hfound => ?_⟩
    refine wp_operate_head (fun hname => ?_) (fun r _ => ?_)
    · rw [wp_onlyIf]
      refine ⟨fun _ => .refl _, fun hrecords => ?_⟩
      rw [wp_ofExcept]
      refine ⟨fun bytes hbytes => ?_, fun _ _ => .refl _⟩
      rw [wp_onlyIf]
      refine ⟨fun _ => .refl _, fun hfits => ?_⟩
      refine wp_operate_head (fun hseek => ?_) (fun r _ => ?_)
      · refine wp_mono (wp_writeAll j.name bytes _) (fun _ m₂ h₂ => ?_) (fun _ _ h => h)
        obtain ⟨⟨chunks, hstate⟩, hquiet, hscript⟩ := h₂
        refine wp_operate_head (fun hsync => ?_) (fun r _ => ?_)
        · refine ⟨j, bytes, ?_, ⟨chunks, ?_⟩, ?_⟩
          · simp only [Bool.not_eq_false', decide_eq_false_iff_not, not_le, not_lt] at hevent hfound hrecords hfits
            refine ⟨hj, hevent, hpayload, hopened, hfound, hrecords, hbytes, hfits, ?_⟩
            refine quiet_succ.mpr ⟨hname, quiet_succ.mpr ⟨hseek, ?_⟩⟩
            refine (quiet_add (n := 2) (k := 1)).mpr ⟨hquiet, quiet_succ.mpr ⟨?_, quiet_zero _⟩⟩
            exact hscript ▸ hsync
          · exact congrArg (fun w : World η => { w with
              journal := some (j.recorded c bytes), log := w.log ++ [Event.recorded event] }) hstate
          · show m₂.script.tail = m₁.script.drop 5
            rw [hscript]
            show (m₁.script.tail.tail.drop 2).tail = m₁.script.drop 5
            rw [← drop_one, ← drop_one, ← drop_one, drop_drop, drop_drop, drop_drop]
        · simpa using ⟨j.name, bytes, chunks, hstate⟩
      · simpa using .refl m₁.state
    · simpa using .refl m₁.state

variable {event : String}

theorem wp_journalAppend_of_recordable {payload : Option Json} {j : Journal} {bytes : List UInt8}
    (h : Recordable c event payload j bytes m) :
    wp (journalAppend c event payload) (fun _ m' => m'.script = m.script.drop 5) (fun _ _ => False) m := by
  have hrecords : decide (maxJournalRecords ≤ j.records) = false := by simpa using h.records
  unfold journalAppend currentJournal verifyName
  simp only [wp_bind, wp_read, h.handle, wp_pure]
  rw [h.valid, wp_onlyIf]
  refine ⟨fun hbad => (by cases hbad), fun _ => ?_⟩
  refine wp_mono (wp_checkPayload_of_bounded h.bounded) (fun _ m₁ h₁ => ?_) (fun _ _ hfalse => hfalse)
  rw [h₁, h.opened, wp_onlyIf]
  refine ⟨fun hbad => (by cases hbad), fun _ => ?_⟩
  rw [h.found, wp_onlyIf]
  refine ⟨fun hbad => (by cases hbad), fun _ => wp_operate_quiet h.quiet fun hquiet => ?_⟩
  rw [hrecords, wp_onlyIf]
  refine ⟨fun hbad => (by cases hbad), fun _ => ?_⟩
  rw [wp_ofExcept, h.encoded]
  refine ⟨fun b hb => ?_, fun _ hbad => (by cases hbad)⟩
  obtain rfl := Except.ok.inj hb
  rw [wp_onlyIf]
  refine ⟨fun hbad => absurd h.fits (by simpa using hbad), fun _ => wp_operate_quiet hquiet fun hquiet => ?_⟩
  rw [writeAll, wp_bind, wp_read, wp_bind, wp_update, wp_bind]
  refine wp_operate_quiet hquiet fun hquiet => wp_operate_quiet hquiet fun hquiet => ?_
  refine wp_operate_quiet hquiet fun _ => ?_
  show m.script.tail.tail.tail.tail.tail = m.script.drop 5
  simp only [← drop_one, drop_drop]

theorem Torn.acts (h : Torn w w') : Acts (Act c E T) w w' := by
  obtain ⟨name, bytes, chunks, rfl⟩ := h
  exact .tail (.single (.write w name bytes)) (.outside _ w.host w.inbox chunks w.draws)

theorem Recorded.acts {j : Journal} {bytes : List UInt8}
    (h : Recorded c event j bytes w w') (hj : w.journal = some j) (hE : E (.recorded event)) :
    Acts (Act c E T) w w' := by
  obtain ⟨chunks, rfl⟩ := h
  refine .tail (.tail (.tail (.single (.write w j.name bytes)) (.outside _ w.host w.inbox chunks w.draws))
    (.handle _ j (j.recorded c bytes) hj ⟨rfl, rfl, rfl⟩)) (.note _ (.recorded event) rfl hE)

theorem does_journalAppend (c : Config η) (payload : Option Json) (hE : E (.recorded event)) :
    Does (Act c E T) (journalAppend c event payload) := by
  intro m
  refine wp_mono (wp_journalAppend c event payload m) (fun _ m' h => ?_) (fun _ m' h => h.acts)
  obtain ⟨j, bytes, hj, hw, _⟩ := h
  exact hw.acts hj.handle hE

theorem does_journalComplete (c : Config η) (hrecord : E (.recorded "journal_completed"))
    (hrename : ∀ name prior, E (.renamed name prior)) : Does (Act c E T) (journalComplete c) := by
  refine .bind (does_journalAppend c none hrecord) fun _ => ?_
  refine .bind (.of_reports (reports_verifyCompleteChain c)) fun _ => ?_
  intro m
  unfold currentJournal
  simp only [wp_bind, wp_read]
  cases hj : m.state.journal with
  | none => exact .refl
  | some j =>
    simp only [wp_pure]
    refine (reports_verifyName j).wp (fun _ m₁ h₁ => ?_) (fun _ m₁ h₁ => h₁ ▸ .refl)
    refine wp_query (fun script₁ => ?_) (fun _ _ => h₁ ▸ .refl)
    rw [wp_onlyIf]
    refine ⟨fun _ => h₁ ▸ .refl, fun _ => ?_⟩
    rw [h₁]
    have hrenamed : Act c E T m.state { renameFile j.name j.name.renamed m.state with
        log := m.state.log ++ [.renamed j.name j.prior] } := .rename m.state j hj (hrename _ _)
    have hnamed : Acts (Act c E T) m.state { renameFile j.name j.name.renamed m.state with
        log := m.state.log ++ [.renamed j.name j.prior]
        journal := some { j with name := j.name.renamed } } :=
      .tail (.single hrenamed) (.handle _ j { j with name := j.name.renamed } hj ⟨rfl, rfl, rfl⟩)
    refine wp_operate (fun script₂ => ?_) (fun _ _ => .refl) (fun _ _ => .refl)
    refine wp_operate (fun script₃ => ?_) (fun _ _ => .refl) (fun _ _ => .single hrenamed)
    refine wp_operate (fun script₄ => ?_) (fun _ _ => hnamed) (fun _ _ => hnamed)
    exact hnamed.tail (.handle _ { j with name := j.name.renamed }
      { j with name := j.name.renamed, closed := true } rfl ⟨rfl, rfl, rfl⟩)

/-! ## The backend -/

theorem does_setHost (host : η) : Does (Act c E T) (setHost host : Helping η Unit) :=
  .of_update fun w => .single (.outside w host w.inbox w.chunks w.draws)

theorem does_callMethod (f : Method η α) : Does (Act c E T) (callMethod f) := by
  intro m
  have hmoved : Acts (Act c E T) m.state { m.state with host := (f m.state.host).1 } :=
    .single (.outside m.state _ m.state.inbox m.state.chunks m.state.draws)
  unfold wp callMethod EStateM.run
  dsimp only
  rcases hf : f m.state.host with ⟨host, _ | a⟩
  · rw [hf] at hmoved
    exact hmoved
  · rw [hf] at hmoved
    exact hmoved

theorem does_interact {boundary : String → Helping η Unit} (hb : ∀ label, Does (Act c E T) (boundary label))
    (i : Interaction η) : Does (Act c E T) (interact boundary i) := by
  induction i with
  | done host => exact does_setHost host
  | raised host e => exact .bind (does_setHost host) fun _ => .of_throw e
  | call host label next ih =>
    rw [interact]
    refine .bind (does_setHost host) fun _ => .bind (.of_rescue (hb label)) fun outcome => ?_
    cases outcome with
    | ok _ => exact ih none
    | error e => exact ih (some e)

theorem does_note {e : Event η} (hplain : e.plain = true) (hE : E e) : Does (Act c E T) (note e) :=
  .of_update fun w => .single (.note w e hplain hE)

theorem does_backendRestore (c : Config η) (prior : Json) {boundary : String → Helping η Unit}
    (hE : E (.restoreEntered prior)) (hb : ∀ label, Does (Act c E T) (boundary label)) :
    Does (Act c E T) (backendRestore c prior boundary) := by
  refine .bind (does_note rfl hE) fun _ => ?_
  exact .bind (.of_reports (reports_read _)) fun host => does_interact hb _

theorem does_validateAgainst (f : Json → Method η Json) (prior : Json)
    (hE : ∀ restored, E (.validated prior restored)) : Does (Act c E T) (validateAgainst f prior) :=
  .bind (does_callMethod (f prior)) fun restored =>
    .bind (does_note rfl (hE restored)) fun _ => .of_pure restored

/-! ## Control evidence -/

theorem does_setEvidence (f : ControlEvidence → ControlEvidence) :
    Does (Act c E T) (update (setEvidence f) : Helping η Unit) :=
  .of_update fun w => .single (.evidence w (f w.evidence))

theorem does_operateEvidence (f : ControlEvidence → ControlEvidence) :
    Does (Act c E T) (operate (setEvidence f) : Helping η Unit) :=
  .of_operate fun w => .single (.evidence w (f w.evidence))

theorem does_evidenceBind (binding : Binding) (session journal : String) :
    Does (Act c E T) (evidenceBind binding session journal : Helping η Unit) :=
  .after (reports_refuse _ _) fun _ => .after (reports_refuse _ _) fun _ =>
    .after (reports_read _) fun _ => .after (reports_refuse _ _) fun _ => does_setEvidence _

theorem does_useChunk : Does (Act c E T) (update fun w : World η => { w with chunks := w.chunks.tail } :
    Helping η Unit) :=
  .of_update fun w => .single (.outside w w.host w.inbox w.chunks.tail w.draws)

theorem does_evidenceAppend (c : Config η) (phase : String) (state : Json) (hE : E (.evidenced phase)) :
    Does (Act c E T) (evidenceAppend c phase state) := by
  refine .after (reports_read _) fun e => ?_
  match e.identity with
  | none => exact .of_throw _
  | some (binding, session, journal) =>
    refine .after (reports_refuse _ _) fun _ => .after (reports_refuse _ _) fun _ => ?_
    refine .after (reports_refuse _ _) fun _ => .after (reports_refuse _ _) fun _ => ?_
    refine .after (reports_ofExcept _) fun stateBytes => .after (reports_ofExcept _) fun encoded => ?_
    refine .after (reports_refuse _ _) fun _ => .after reports_evidenceReadExact fun _ => ?_
    refine .after (reports_read _) fun count => .bind does_useChunk fun _ => ?_
    refine .bind (does_operateEvidence _) fun _ => .bind (does_operateEvidence _) fun _ => ?_
    refine .after reports_operate_id fun _ => .after (reports_query _) fun held => ?_
    refine .after (reports_refuse _ _) fun _ => .bind (.of_update fun w => ?_) fun _ => ?_
    · exact .tail (.single (.note w (.evidenced phase) rfl hE)) (.evidence _ _)
    · exact .after (reports_read _) fun _ => .after (reports_ofExcept _) fun _ => .of_pure _

theorem does_evidenceSeal (c : Config η) : Does (Act c E T) (evidenceSeal c) := by
  refine .after (reports_read _) fun e => .after (reports_refuse _ _) fun _ => ?_
  refine .after (reports_refuse _ _) fun _ => .after (reports_refuse _ _) fun _ => ?_
  refine .after reports_evidenceReadExact fun _ => .after reports_operate_id fun _ => ?_
  match e.identity with
  | none => exact .of_throw _
  | some (binding, session, journal) =>
    exact .after (reports_ofExcept _) fun _ => .bind (does_setEvidence _) fun _ => .of_pure _

theorem does_evidenceClose : Does (Act c E T) (evidenceClose : Helping η Unit) := by
  refine .after (reports_read _) fun e => .of_onlyIf ?_
  refine .bind (.of_rescue (.of_reports reports_evidenceReadExact)) fun verified => ?_
  refine .bind (does_operateEvidence _) fun _ => ?_
  cases verified with
  | ok _ => exact .of_pure _
  | error e => exact .of_throw _

/-! ## The session -/

theorem does_setSession {f : Session → Session} (hf : ∀ s, SameCore s (f s)) :
    Does (Act c E T) (setSession f : Helping η Unit) :=
  .of_update fun w => .single (.session w (f w.session) (hf w.session))

theorem does_transition {t : SessionState} (hT : T t) : Does (Act c E T) (transition t : Helping η Unit) := by
  intro m
  unfold transition failWith
  simp only [wp_bind, wp_read, wp_onlyIf, wp_raise]
  refine ⟨fun _ => .refl, fun hallowed => .single (.enter m.state t ?_ hT)⟩
  simpa using hallowed

theorem does_appendTranscript (c : Config η) (payload : Json) (hE : E (.transcribed event)) :
    Does (Act c E T) (appendTranscript c event payload) := by
  refine .after (reports_read _) fun transcript => .after (reports_refuse _ _) fun _ => ?_
  refine .after (reports_ofExcept _) fun encoded => .after (reports_refuse _ _) fun _ => ?_
  exact fun m => .single (.transcribe m.state ⟨event, encoded⟩ hE)

theorem does_recvPacket : Does (Act c E T) (recvPacket : Helping η Json) := by
  refine .after reports_operate_id fun _ => .after (reports_read _) fun inbox => ?_
  cases inbox with
  | nil => exact .of_throw _
  | cons message rest =>
    refine .bind (.of_update fun w => ?_) fun _ => .of_pure _
    exact .single (.outside w w.host rest w.chunks w.draws)

theorem does_receiveExactCommand (recordType : String) (sequence : Nat) (observe : Bool) :
    Does (Act c E T) (receiveExactCommand recordType sequence observe : Helping η Json) :=
  .bind does_recvPacket fun _ => .after (reports_read _) fun _ =>
    .after (reports_ofExcept _) fun _ => .of_pure _

theorem does_acceptCommand (recordType : String) (sequence : Nat) (observation : Option (String × Nat))
    (hE : ∀ id, E (.accepted ⟨recordType, sequence, id, observation⟩)) :
    Does (Act c E T) (acceptCommand recordType sequence observation : Helping η Unit) :=
  .after (reports_read _) fun _ => does_note rfl (hE _)

theorem does_urandom (c : Config η) (n : Nat) : Does (Act c E T) (urandom c n) :=
  .after (reports_read _) fun _ => .bind
    (.of_update fun w => .single (.outside w w.host w.inbox w.chunks (w.draws + 1))) fun _ => .of_pure _

/-! ## Observations and the guardian -/

theorem does_takeStopAttempt (hE : E .guardStopped) :
    Does (Act c E T) (takeStopAttempt : Helping η Session) := by
  intro m
  unfold takeStopAttempt indeterminate
  simp only [wp_bind, wp_read, wp_onlyIf, wp_raise]
  exact ⟨fun _ => .refl, fun hfresh => .single (.stopGuard m.state hfresh hE)⟩

theorem does_stopPopulationGuard (hE : E .guardStopped) : Does (Act c E T) (stopPopulationGuard c) := by
  refine .bind (does_takeStopAttempt hE) fun s => .bind (does_callMethod _) fun terminalState => ?_
  refine .after (reports_ofExcept _) fun _ => .after (reports_refuse _ _) fun _ => ?_
  refine .bind (does_callMethod _) fun populationSeal => .after (reports_read _) fun count => ?_
  refine .after (reports_refuse _ _) fun _ => ?_
  refine .bind (does_setSession fun _ => ⟨rfl, rfl, rfl, rfl, rfl, rfl, rfl, rfl, rfl, rfl⟩) fun _ => ?_
  refine .after (reports_recordSha256 c _) fun sealSha256 => ?_
  exact .bind (does_setSession fun _ => ⟨rfl, rfl, rfl, rfl, rfl, rfl, rfl, rfl, rfl, rfl⟩)
    fun _ => .of_pure _

theorem does_stopPopulationGuardOnce (hE : E .guardStopped) :
    Does (Act c E T) (stopPopulationGuardOnce c) := by
  refine .after (reports_read _) fun s => ?_
  match s.populationGuardStarted, s.populationSeal with
  | false, _ => exact .of_pure _
  | true, some _ => exact .of_pure _
  | true, none => exact .bind (does_stopPopulationGuard hE) fun _ => .of_pure _

def ObserveEvent (post : Bool) (runIndex : Nat) : Event η → Prop
  | .accepted command => command.recordType = "cp2e_privileged_observe"
  | .guardStopped => True
  | .recorded event => event = "run_" ++ toString runIndex ++ "_" ++ phaseText post ++ "_telemetry_captured"
  | .transcribed event => event = "run_slot_observation"
  | _ => False

theorem does_observe (x : Expected) (post : Bool) (runIndex sequence : Nat)
    (hE : ∀ e, ObserveEvent post runIndex e → E e) (hT : T (.observed runIndex post)) :
    Does (Act c E T) (observe c x post runIndex sequence) := by
  refine .bind (does_receiveExactCommand _ _ _) fun value => .after (reports_refuse _ _) fun _ => ?_
  refine .bind (does_acceptCommand _ _ _ fun id => hE _ rfl) fun _ => .after reports_boundary fun _ => ?_
  refine .bind (does_callMethod _) fun population => .after (reports_recordSha256 c _) fun _ => ?_
  refine .bind (does_callMethod _) fun receipt => .after (reports_ofExcept _) fun _ => ?_
  refine .after (reports_recordSha256 c _) fun _ => .bind ?_ fun sealedPopulation => ?_
  · exact .ite (does_stopPopulationGuardOnce (hE _ trivial)) (.of_pure _)
  refine .after (reports_read _) fun _ => .after reports_boundary fun _ => ?_
  refine .bind (does_journalAppend c _ (hE _ rfl)) fun _ => .after reports_boundary fun _ => ?_
  refine .bind (does_transition hT) fun _ => ?_
  refine .bind (does_appendTranscript c _ (hE _ rfl)) fun _ => .after reports_boundary fun _ => ?_
  exact .after (reports_sendAck _ _ _) fun _ => .of_reports reports_boundary

theorem does_observeSlots (x : Expected) (hE : ∀ post runIndex e, ObserveEvent post runIndex e → E e)
    (hT : ∀ post runIndex, T (.observed runIndex post)) (left : Nat) :
    Does (Act c E T) (observeSlots c x left) := by
  induction left with
  | zero => exact .of_pure _
  | succ left ih =>
    refine .bind (does_observe x false _ _ (hE _ _) (hT _ _)) fun _ => ?_
    exact .bind (does_observe x true _ _ (hE _ _) (hT _ _)) fun _ => ih

/-! ## The applied state -/

def AppliedEvent : Event η → Prop
  | .evidenced phase => phase = "applied"
  | .recorded event => event = "applied_validated"
  | .transcribed event => event = "apply"
  | _ => False

theorem does_recordApplied (x : Expected) (priorSha256 : String) (hE : ∀ e, AppliedEvent e → E e)
    (hT : T .applied) : Does (Act c E T) (recordApplied c x priorSha256) := by
  refine .after reports_boundary fun _ => .bind (does_callMethod _) fun applied => ?_
  refine .after (reports_ofExcept _) fun _ => .bind (does_evidenceAppend c _ _ (hE _ rfl)) fun _ => ?_
  refine .after (reports_recordSha256 c _) fun _ => .after reports_sessionId fun id => ?_
  refine .bind (does_callMethod _) fun _ => .bind (does_callMethod _) fun _ => ?_
  refine .bind (does_setSession fun _ => ⟨rfl, rfl, rfl, rfl, rfl, rfl, rfl, rfl, rfl, rfl⟩) fun _ => ?_
  refine .after (reports_recordSha256 c _) fun _ => .bind (does_callMethod _) fun _ => ?_
  refine .after (reports_ofExcept _) fun _ => .after reports_boundary fun _ => ?_
  refine .bind (does_journalAppend c _ (hE _ rfl)) fun _ => .bind (does_transition hT) fun _ => ?_
  refine .after (reports_read _) fun _ => .bind (does_appendTranscript c _ (hE _ rfl)) fun _ => ?_
  refine .after reports_boundary fun _ => .after (reports_sendAck _ _ _) fun _ => ?_
  exact .of_reports reports_boundary

/-! ## Restoration -/

def RestoreEvent : Event η → Prop
  | .guardStopped | .restoreEntered _ | .validated _ _ | .renamed _ _ => True
  | .evidenced phase => phase = "restored"
  | .recorded event => event ∈ ["restoration_started", "restoration_validated", "journal_completed"]
  | .transcribed event => event = "restore"
  | _ => False

def RestoreState (t : SessionState) : Prop := t = .restoring ∨ t = .restored

theorem does_enterRestoration (injectFaults : Bool) (reason : String)
    (hE : E (.recorded "restoration_started")) (hT : T .restoring) :
    Does (Act c E T) (enterRestoration c injectFaults reason) := by
  refine .bind (.after (reports_read _) fun state => .of_onlyIf (does_transition hT)) fun _ => ?_
  refine .after (reports_boundaryIf _) fun _ => .bind (does_journalAppend c _ hE) fun _ => ?_
  exact .after (reports_boundaryIf _) fun _ => .of_reports (reports_boundaryIf _)

theorem wp_validateAgainst (f : Json → Method η Json) {prior : Json} (hE : ∀ restored, E (.validated prior restored))
    (m : Machine (Exit HelperError) (World η)) :
    wp (validateAgainst f prior)
      (fun restored m' => Acts (Act c E T) m.state m'.state ∧
        m'.state.log.getLast? = some (.validated prior restored))
      (fun _ m' => Acts (Act c E T) m.state m'.state) m := by
  rw [validateAgainst, wp_bind]
  refine wp_mono (does_callMethod (c := c) (E := E) (T := T) (f prior) m) (fun restored m₁ h₁ => ?_) (fun _ _ h => h)
  exact ⟨h₁.tail (.note _ (.validated prior restored) rfl (hE restored)), getLast?_concat ..⟩

theorem prior_of_acts (h : Acts (Act c E T) w w') : w'.session.prior = w.session.prior := by
  induction h with
  | refl => rfl
  | tail _ hact ih => exact hact.prior.trans ih

theorem does_restoreHost (injectFaults : Bool) {prior : Json} (hE : ∀ e, RestoreEvent e → E e)
    (hprior : m.state.session.prior = some prior) :
    wp (restoreHost c injectFaults prior) (fun _ m' => Acts (Act c E T) m.state m'.state)
      (fun _ m' => Acts (Act c E T) m.state m'.state) m := by
  have hstopped := Does.of_rescue (does_stopPopulationGuardOnce (c := c) (T := T) (hE .guardStopped trivial))
  have hrestored := does_backendRestore (T := T) c prior (hE (.restoreEntered prior) trivial)
    fun _ => .of_reports (reports_boundaryIf injectFaults)
  rw [restoreHost, wp_bind]
  refine wp_mono (hstopped m) (fun stopped m₁ h₁ => ?_) (fun _ _ h => h)
  rw [restoreStopped, wp_bind]
  refine wp_mono (hrestored m₁) (fun _ m₂ h₂ => ?_) (fun _ _ h => h₁.trans h)
  refine Keeps.wp_then (f := Machine.state) (reports_boundaryIf _) (fun _ m₃ h₃ => ?_) (fun _ m₃ h₃ => ?_)
  · rw [wp_bind]
    refine wp_mono (wp_validateAgainst (c := c) (T := T) c.backend.validateRestored
      (fun r => hE (.validated prior r) trivial) m₃) (fun restored m₄ h₄ => ?_) (fun _ _ h => ?_)
    · have hacts : Acts (Act c E T) m.state m₄.state := (h₁.trans h₂).trans (h₃ ▸ h₄.1)
      rw [wp_bind, wp_ofExcept]
      refine ⟨fun restoredBytes hrestoredBytes => ?_, fun _ _ => hacts⟩
      cases stopped with
      | error e => exact hacts
      | ok _ =>
        simp only [wp_bind, wp_ofExcept, wp_onlyIf]
        refine ⟨fun priorBytes hpriorBytes => ⟨fun _ => hacts, fun hsame => ?_⟩, fun _ _ => hacts⟩
        refine hacts.tail (.prove _ prior restored h₄.2 ((prior_of_acts hacts).trans hprior) ?_ (hE _ trivial))
        exact ⟨priorBytes, restoredBytes, hpriorBytes, hrestoredBytes, by simpa using hsame⟩
    · exact (h₁.trans h₂).trans (h₃ ▸ h)
  · exact h₃ ▸ h₁.trans h₂

theorem does_sealEvidence (restoredSha256 : String) (restored : Json) (hE : E (.evidenced "restored")) :
    Does (Act c E T) (sealEvidence c restoredSha256 restored) := by
  refine .after (reports_read _) fun evidenceSeal => ?_
  cases evidenceSeal with
  | some _ => exact .after (reports_read _) fun _ => .of_pure _
  | none =>
    refine .after (reports_read _) fun e => .bind ?_ fun checkpoint => ?_
    · cases e.rows.getLast? with
      | none => exact does_evidenceAppend c _ _ hE
      | some row =>
        refine .ite ?_ (does_evidenceAppend c _ _ hE)
        exact .after (reports_refuse _ _) fun _ => .of_pure _
    · refine .bind (does_evidenceSeal c) fun _ => ?_
      refine .bind (does_setSession fun _ => ⟨rfl, rfl, rfl, rfl, rfl, rfl, rfl, rfl, rfl, rfl⟩) fun _ => ?_
      refine .after (reports_recordSha256 c _) fun _ => ?_
      exact .bind (does_setSession fun _ => ⟨rfl, rfl, rfl, rfl, rfl, rfl, rfl, rfl, rfl, rfl⟩)
        fun _ => .of_pure _

theorem does_finishRestoration (acknowledge injectFaults : Bool) (restoredSha256 : String) (restored : Json)
    (hE : ∀ e, RestoreEvent e → E e) (hT : T .restored) :
    Does (Act c E T) (finishRestoration c acknowledge injectFaults restoredSha256 restored) := by
  refine .after (reports_boundaryIf _) fun _ => .bind (does_sealEvidence _ _ (hE _ rfl)) fun _ => ?_
  refine .after (reports_recordSha256 c _) fun _ => .after (reports_read _) fun _ => ?_
  refine .after (reports_read _) fun _ => .bind (does_journalAppend c _ (hE _ (by simp [RestoreEvent]))) fun _ => ?_
  refine .after (reports_boundaryIf _) fun _ => .bind (does_journalComplete c (hE _ (by simp [RestoreEvent]))
    fun _ _ => hE _ trivial) fun _ => ?_
  refine .after reports_currentJournal fun _ => .after (reports_ofExcept _) fun _ => ?_
  refine .bind (does_setSession fun _ => ⟨rfl, rfl, rfl, rfl, rfl, rfl, rfl, rfl, rfl, rfl⟩) fun _ => ?_
  refine .bind (does_transition hT) fun _ => .after (reports_read _) fun _ => ?_
  refine .bind (does_appendTranscript c _ (hE _ rfl)) fun _ => .after (reports_boundaryIf _) fun _ => ?_
  refine .of_onlyIf (.after (reports_boundaryIf _) fun _ => ?_)
  exact .after (reports_sendAck _ _ _) fun _ => .of_reports (reports_boundaryIf _)

theorem does_restore (acknowledge injectFaults : Bool) (reason : String) (hE : ∀ e, RestoreEvent e → E e)
    (hT : ∀ t, RestoreState t → T t) : Does (Act c E T) (restore c acknowledge injectFaults reason) := by
  intro m
  rw [restore, wp_bind, wp_read]
  dsimp only [id]
  split
  · rename_i prior j hprior hj
    rw [wp_onlyIf]
    refine ⟨fun _ => ?_, fun _ => .refl⟩
    rw [wp_bind]
    refine wp_mono (does_enterRestoration injectFaults reason (hE _ (by simp [RestoreEvent])) (hT _ (.inl rfl)) m)
      (fun _ m₁ h₁ => ?_) (fun _ _ h => h)
    rw [wp_bind]
    refine wp_mono (does_restoreHost injectFaults hE ((prior_of_acts h₁).trans hprior)) (fun restored m₂ h₂ => ?_)
      (fun _ _ h => h₁.trans h)
    exact wp_mono (does_finishRestoration acknowledge injectFaults _ _ hE (hT _ (.inr rfl)) m₂)
      (fun _ _ h => (h₁.trans h₂).trans h) (fun _ _ h => (h₁.trans h₂).trans h)
  · exact .refl

def EmergencyEvent (e : Event η) : Prop := RestoreEvent e ∨ e = .recorded "abnormal_recovery_requested"

def EmergencyState (t : SessionState) : Prop := RestoreState t ∨ t = .indeterminate

theorem does_requestRecovery (reason : String) (hE : E (.recorded "abnormal_recovery_requested")) :
    Does (Act c E T) (requestRecovery c reason) :=
  .bind (.of_rescue (does_journalAppend c _ hE)) fun _ => .of_pure _

theorem does_emergencyAttempt (reason : String) (hE : ∀ e, EmergencyEvent e → E e)
    (hT : ∀ t, EmergencyState t → T t) : Does (Act c E T) (emergencyAttempt c reason) := by
  refine .bind (does_requestRecovery reason (hE _ (.inr rfl))) fun _ => ?_
  refine .bind (.of_rescue (does_restore false false reason (fun e he => hE e (.inl he))
    fun t ht => hT t (.inl ht))) fun outcome => ?_
  cases outcome with
  | ok _ => exact .of_pure _
  | error e =>
    refine .after (reports_read _) fun state => ?_
    exact .bind (.of_onlyIf (does_transition (hT _ (.inr rfl)))) fun _ => .of_throw _

theorem does_emergencyRestore (reason : String) (hE : ∀ e, EmergencyEvent e → E e)
    (hT : ∀ t, EmergencyState t → T t) : Does (Act c E T) (emergencyRestore c reason) := by
  refine .bind (.of_update fun w => .single (.request w)) fun _ => .after (reports_read _) fun w => ?_
  exact .of_onlyIf (does_emergencyAttempt reason hE hT)

theorem does_recoverSession (e : HelperError) (hE : ∀ e, EmergencyEvent e → E e)
    (hT : ∀ t, EmergencyState t → T t) : Does (Act c E T) (recoverSession c e) := by
  refine .bind (.of_rescue (does_emergencyRestore _ hE hT)) fun outcome => ?_
  cases outcome with
  | ok _ => exact .of_pure _
  | error recovery => exact .of_pure _

theorem does_collect {descriptor : String} {closer : Helping η Unit} (hE : E (.closed descriptor))
    (hcloser : Does (Act c E T) closer) : Does (Act c E T) (collect descriptor closer) := by
  refine .bind (.of_rescue hcloser) fun outcome => ?_
  cases outcome with
  | ok _ => exact .bind (does_note rfl hE) fun _ => .of_pure _
  | error e => exact .of_pure _

/-! ## Before the mutation -/

/-- What a session or a trial does besides: it identifies itself, captures the prior state, creates its
journal and enters `apply`. -/
inductive Begin (c : Config η) (E : Event η → Prop) (T : SessionState → Prop) : World η → World η → Prop
  | act {w w' : World η} : Act c E T w w' → Begin c E T w w'
  | preflight (w : World η) :
      Begin c E T w { w with session := { w.session with recoveryPreflightCompleted := true } }
  | identify (w : World η) (id nonceSha256 : String) : E (.accepted ⟨"cp2e_privileged_hello", 0, id, none⟩) →
      Begin c E T w { w with
        session := { w.session with sessionId := some id, nonceSha256 := some nonceSha256 }
        log := w.log ++ [.accepted ⟨"cp2e_privileged_hello", 0, id, none⟩] }
  | capture (w : World η) (prior : Json) : E (.captured prior) →
      Begin c E T w { w with
        session := { w.session with prior := some prior }, log := w.log ++ [.captured prior] }
  | create (w : World η) (identifier : String) : pendingNames w = [] → E (.created (.pending identifier)) →
      Begin c E T w { w with directory := w.directory ++ [(.pending identifier, [])] }
  | created (w : World η) (name : JournalName) : E (.created name) →
      Begin c E T w { w with log := w.log ++ [.created name] }
  | hold (w : World η) (j : Journal) : E (.created j.name) → Begin c E T w { w with journal := some j }
  | drop (w : World η) (name : JournalName) : E (.created name) → Begin c E T w { w with journal := none }

theorem Begin.log (h : Begin c E T w w') : w'.log = w.log ∨ ∃ e, w'.log = w.log ++ [e] ∧ E e := by
  cases h with
  | act h => exact h.log
  | identify id nonceSha256 he => exact .inr ⟨_, rfl, he⟩
  | capture prior he => exact .inr ⟨_, rfl, he⟩
  | created name he => exact .inr ⟨_, rfl, he⟩
  | _ => exact .inl rfl

theorem does_begin {x : Helping η α} (hx : Does (Act c E T) x) : Does (Begin c E T) x :=
  hx.mono fun _ _ => .act

theorem wp_createFile (identifier : String) :
    wp (createFile (.pending identifier))
      (fun _ m' => m'.state = { m.state with directory := m.state.directory ++ [(.pending identifier, [])] })
      (fun _ m' => m'.state = m.state ∨
        m'.state = { m.state with directory := m.state.directory ++ [(.pending identifier, [])] }) m := by
  refine wp_operateChecked (fun s script hs => ?_) (fun _ _ => .inl rfl) (fun _ s script hs => ?_)
  · split at hs
    · cases hs
    · exact (Except.ok.inj hs).symm
  · split at hs
    · cases hs
    · exact .inr (Except.ok.inj hs).symm

theorem pendingNames_eq (w : World η) :
    pendingNames w = (pendingFiles w).map fun file => JournalName.pending file.1 := by
  unfold pendingNames pendingFiles
  induction w.directory with
  | nil => rfl
  | cons entry rest ih =>
    rcases entry with ⟨identifier | _, raw⟩
    · rw [map_cons, filter_cons_of_pos rfl, ih]
      rfl
    · rw [map_cons, filter_cons_of_neg (by simp [JournalName.isPending]), ih]
      rfl

theorem wp_pendingJournal (c : Config η) (m : Machine (Exit HelperError) (World η)) :
    wp (pendingJournal c) (fun found m' => m'.state = m.state ∧ (found.isSome = false → pendingNames m.state = []))
      (fun _ m' => m'.state = m.state) m := by
  rw [pendingJournal, wp_bind]
  refine wp_query (fun script => ?_) (fun _ _ => rfl)
  match hfiles : pendingFiles m.state with
  | [] => exact ⟨rfl, fun _ => by rw [pendingNames_eq, hfiles]; rfl⟩
  | [(identifier, raw)] =>
    refine Keeps.wp_then (f := Machine.state) reports_operate_id (fun _ m₁ h₁ => ?_) (fun _ m₁ h₁ => h₁)
    rw [wp_bind, wp_ofExcept]
    exact ⟨fun j _ => ⟨h₁, fun hnone => by cases hnone⟩, fun _ _ => h₁⟩
  | _ :: _ :: _ => exact rfl

def newJournal (binding : Binding) (peer : PeerCredentials) (nonceSha256 : String) (prior : Json)
    (identifier : String) : Journal :=
  JournalIdentity.journal ⟨binding, peer, nonceSha256, prior⟩ identifier 0 noDigest

def priorPayload (prior : Json) : Json := .obj [("prior", prior)]

def Created (c : Config η) (j : Journal) (w w' : World η) : Prop :=
  ∃ bytes chunks draws, boundedCanonicalJsonBytes maxJournalBytes "canonical privileged journal record"
      (j.record "prior_state_captured" (some (priorPayload j.prior))) = .ok bytes ∧ pendingNames w = [] ∧
    w' = { w with
      directory := w.directory ++ [(j.name, bytes)], chunks := chunks, draws := draws
      journal := some (j.recorded c bytes)
      log := w.log ++ [.created j.name, .recorded "prior_state_captured"] }

theorem not_mem_of_pendingNames {w : World η} (h : pendingNames w = []) (identifier : String) :
    ∀ entry ∈ w.directory, entry.1 ≠ .pending identifier := by
  intro entry hentry hname
  have hmem : JournalName.pending identifier ∈ pendingNames w :=
    mem_filter.mpr ⟨mem_map.mpr ⟨entry, hentry, hname⟩, rfl⟩
  rw [h] at hmem
  cases hmem

theorem appendBytes_new {w : World η} (h : pendingNames w = []) (identifier : String) (bytes : List UInt8) :
    appendBytes (.pending identifier) bytes
      { w with directory := w.directory ++ [(.pending identifier, [])] } =
        { w with directory := w.directory ++ [(.pending identifier, bytes)] } := by
  have hothers := not_mem_of_pendingNames h identifier
  have hold : (w.directory.map fun entry : JournalName × List UInt8 =>
      if entry.1 = .pending identifier then (entry.1, entry.2 ++ bytes) else entry) = w.directory := by
    rw [map_congr_left (g := id), List.map_id]
    exact fun entry hentry => if_neg (hothers entry hentry)
  simp only [appendBytes, map_append, hold]
  simp

theorem wp_recordPrior (j : Journal) (hcreated : ∀ name, E (.created name))
    (hrecord : E (.recorded "prior_state_captured")) (m : Machine (Exit HelperError) (World η)) :
    wp (rescue (do
        operate id
        update fun w : World η => { w with journal := some j }
        journalAppend c "prior_state_captured" (some (priorPayload j.prior))
        operate id))
      (fun outcome m' => Acts (Begin c E T) m.state m'.state ∧ (outcome.isOk = true →
        ∃ bytes, boundedCanonicalJsonBytes maxJournalBytes "canonical privileged journal record"
          (j.record "prior_state_captured" (some (priorPayload j.prior))) = .ok bytes ∧
        Recorded c "prior_state_captured" j bytes { m.state with journal := some j } m'.state))
      (fun _ m' => Acts (Begin c E T) m.state m'.state) m := by
  have hheld : Acts (Begin c E T) m.state { m.state with journal := some j } :=
    .single (.hold m.state j (hcreated _))
  refine wp_rescue (wp_mono (Q := fun _ m' => Acts (Begin c E T) m.state m'.state ∧
      ∃ bytes, boundedCanonicalJsonBytes maxJournalBytes "canonical privileged journal record"
          (j.record "prior_state_captured" (some (priorPayload j.prior))) = .ok bytes ∧
        Recorded c "prior_state_captured" j bytes { m.state with journal := some j } m'.state)
    (E := fun _ m' => Acts (Begin c E T) m.state m'.state) ?_ (fun _ m' h => ⟨h.1, fun _ => h.2⟩)
    (fun e m' h => ⟨fun _ _ => ⟨h, fun hok => by cases hok⟩, fun _ => h⟩))
  simp only [wp_bind, wp_update]
  refine reports_operate_id.wp (fun _ m₁ h₁ => ?_) (fun _ _ h => by rw [h])
  rw [h₁]
  refine wp_mono (wp_journalAppend c "prior_state_captured" _ _) (fun _ m₂ h₂ => ?_) (fun _ m₂ h₂ => ?_)
  · obtain ⟨j', bytes, hj', hw, _⟩ := h₂
    obtain rfl : j = j' := Option.some.inj hj'.handle
    have hacts : Acts (Begin c E T) m.state m₂.state :=
      hheld.trans (Relation.ReflTransGen.mono (fun _ _ => .act) _ _ (hw.acts hj'.handle hrecord))
    refine reports_operate_id.wp (fun _ m₃ h₃ => ?_) (fun _ m₃ h₃ => by rw [h₃]; exact hacts)
    rw [h₃]
    exact ⟨hacts, bytes, hj'.encoded, hw⟩
  · exact hheld.trans (Relation.ReflTransGen.mono (fun _ _ => .act) _ _ h₂.acts)

theorem wp_journalCreate (binding : Binding) (peer : PeerCredentials) (nonceSha256 : String) (prior : Json)
    (hcreated : ∀ name, E (.created name)) (hrecord : E (.recorded "prior_state_captured"))
    (m : Machine (Exit HelperError) (World η)) :
    wp (journalCreate c binding peer nonceSha256 prior)
      (fun _ m' => Acts (Begin c E T) m.state m'.state ∧
        ∃ identifier, Created c (newJournal binding peer nonceSha256 prior identifier) m.state m'.state)
      (fun _ m' => Acts (Begin c E T) m.state m'.state) m := by
  refine Keeps.wp_then (f := Machine.state) (reports_refuse _ _) (fun _ m₁ h₁ => ?_) (fun _ _ h => h ▸ .refl)
  refine Keeps.wp_then (f := Machine.state) (reports_ofExcept _) (fun _ m₂ h₂ => ?_) (fun _ _ h => h₁ ▸ h ▸ .refl)
  rw [wp_bind]
  have hm₂ : m₂.state = m.state := h₂.trans h₁
  refine wp_mono (wp_pendingJournal c m₂) (fun found m₃ h₃ => ?_) (fun _ _ h => hm₂ ▸ h ▸ .refl)
  have hm₃ : m₃.state = m.state := h₃.1.trans hm₂
  simp only [wp_bind, wp_onlyIf, indeterminate, wp_raise]
  refine ⟨fun _ => hm₃ ▸ .refl, fun hfound => ?_⟩
  have hnone : pendingNames m.state = [] := hm₂ ▸ h₃.2 hfound
  -- one random number is used up
  simp only [urandom, wp_bind, wp_read, wp_update, wp_pure, hm₃]
  generalize c.urandom m.state.draws 16 = identifier
  have hdrawn : Acts (Begin c E T) m.state { m.state with draws := m.state.draws + 1 } :=
    .single (.act (.outside m.state m.state.host m.state.inbox m.state.chunks _))
  refine reports_operate_id.wp (fun _ m₄ h₄ => ?_) (fun _ _ h => by rw [h]; exact hdrawn)
  have hfile : Acts (Begin c E T) m.state { m.state with
      draws := m.state.draws + 1, directory := m.state.directory ++ [(.pending identifier, [])] } :=
    hdrawn.tail (.create _ identifier hnone (hcreated _))
  refine wp_mono (wp_createFile identifier) (fun _ m₅ h₅ => ?_) (fun _ m₅ h₅ => ?_)
  · rw [h₄] at h₅
    have hnoted := hfile.tail (.created _ (.pending identifier) (hcreated _))
    rw [note, wp_update, h₅]
    refine wp_mono (wp_recordPrior (newJournal binding peer nonceSha256 prior identifier) hcreated hrecord _)
      (fun outcome m₆ h₆ => ?_) (fun _ _ h => hnoted.trans h)
    cases outcome with
    | error e => exact (hnoted.trans h₆.1).tail (.drop _ (.pending identifier) (hcreated _))
    | ok _ =>
      obtain ⟨bytes, hbytes, chunks, hw⟩ := h₆.2 rfl
      refine ⟨hnoted.trans h₆.1, identifier, bytes, chunks, m.state.draws + 1, hbytes, hnone, ?_⟩
      have happended := congrArg World.directory (appendBytes_new hnone identifier bytes)
      rw [hw]
      simp only [appendBytes] at happended ⊢
      rw [show (newJournal binding peer nonceSha256 prior identifier).name = .pending identifier from rfl,
        happended, append_assoc]
      rfl
  · rcases h₅ with h₅ | h₅
    · rw [h₅, h₄]
      exact hdrawn
    · rw [h₅, h₄]
      exact hfile

def HandshakeEvent : Event η → Prop
  | .accepted command => command.recordType = "cp2e_privileged_hello"
  | .transcribed event => event ∈ ["challenge", "hello"]
  | _ => False

theorem does_handshake (x : Expected) (hE : ∀ e, HandshakeEvent e → E e) (hT : T .authenticated) :
    Does (Begin c E T) (handshake c x) := by
  refine .after reports_boundary fun _ => .after reports_operate_id fun _ => ?_
  refine .bind (does_begin (does_setSession fun _ => ⟨rfl, rfl, rfl, rfl, rfl, rfl, rfl, rfl, rfl, rfl⟩)) fun _ => ?_
  refine .after reports_boundary fun _ => .after (reports_refuse _ _) fun _ => ?_
  refine .bind (does_begin (does_urandom c 32)) fun challengeNonce => .after reports_boundary fun _ => ?_
  refine .after (reports_sendPacket _) fun _ => ?_
  refine Does.bind (does_begin (does_appendTranscript c _ (hE (.transcribed "challenge") (by simp [HandshakeEvent])))) fun _ => ?_
  refine .after reports_boundary fun _ => .after reports_boundary fun _ => ?_
  refine .bind (does_begin does_recvPacket) fun message => .after reports_boundary fun _ => ?_
  refine .after (reports_ofExcept _) fun hello => .after reports_boundary fun _ => ?_
  refine .after (reports_refuse _ _) fun _ => .after reports_boundary fun _ => ?_
  refine .bind (fun m => .single (.identify m.state _ _ (hE _ rfl))) fun _ => ?_
  refine Does.bind (does_begin (does_appendTranscript c _ (hE (.transcribed "hello") (by simp [HandshakeEvent])))) fun _ => ?_
  refine .bind (does_begin (does_transition hT)) fun _ => .after reports_boundary fun _ => ?_
  exact .after (reports_sendAck _ _ _) fun _ => .of_reports reports_boundary

def CaptureEvent : Event η → Prop
  | .captured _ | .created _ => True
  | .evidenced phase => phase = "prior"
  | .recorded event => event ∈ ["prior_state_captured", "prior_control_evidence_durable"]
  | _ => False

def CaptureState (t : SessionState) : Prop := t = .capturingPrior ∨ t = .priorCaptured

theorem wp_observePrior (hE : ∀ prior, E (.captured prior)) (hT : T .capturingPrior)
    (m : Machine (Exit HelperError) (World η)) :
    wp (observePrior c)
      (fun prior m' => Acts (Begin c E T) m.state m'.state ∧ m'.state.session.prior = some prior ∧
        .captured prior ∈ m'.state.log)
      (fun _ m' => Acts (Begin c E T) m.state m'.state) m := by
  rw [observePrior, wp_bind]
  refine wp_mono (does_begin (does_transition hT) m) (fun _ m₁ h₁ => ?_) (fun _ _ h => h)
  rw [wp_bind]
  refine wp_mono (does_begin (does_callMethod c.backend.capturePrior) m₁) (fun prior m₂ h₂ => ?_)
    (fun _ _ h => h₁.trans h)
  exact ⟨(h₁.trans h₂).tail (.capture m₂.state prior (hE prior)), rfl, mem_append_right _ mem_cons_self⟩

theorem does_persistEvidence (x : Expected) (prior : Json) (priorSha256 identifier : String)
    (hE : ∀ e, CaptureEvent e → E e) (hT : T .priorCaptured) :
    Does (Act c E T) (persistEvidence c x prior priorSha256 identifier) := by
  refine .bind (does_setSession fun _ => ⟨rfl, rfl, rfl, rfl, rfl, rfl, rfl, rfl, rfl, rfl⟩) fun _ => ?_
  refine .after reports_sessionId fun id => .bind (does_evidenceBind _ _ _) fun _ => ?_
  refine .bind (does_evidenceAppend c _ _ (hE _ rfl)) fun _ => .after (reports_recordSha256 c _) fun _ => ?_
  exact Does.bind (does_journalAppend c _ (hE (.recorded "prior_control_evidence_durable")
    (by simp [CaptureEvent]))) fun _ => does_transition hT

end Acts

end Bravo.Helper
