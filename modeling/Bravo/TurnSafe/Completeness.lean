import Bravo.TurnSafe.Envelope
import Bravo.Basic.Conduct

/-! # The TurnSafe sink is complete

Where `Finalize` succeeds, the file is the output and no callback is open, so that it has a line for each callback
that was begun; where it fails, the file is removed. Behind it the sink has no stream, and nothing is written.
-/

namespace Bravo.TurnSafe

open List

variable {Data : Type} {C : Callees Data} {o : Options} {s : Site Data}
variable {α : Type} {script : List (Option (Raise Exn))}

/-! ## Finalize -/

/-- The file of this run is under no name but the one that `unlink` removes. -/
structure Removable (s : Site Data) : Prop where
  temporary : s.renamed = true → ∀ text, s.temporary ≠ .written text
  output : s.renamed = false → ∀ text, s.output ≠ .written text
  named : s.renamed = false → ∀ text, s.temporary = .written text → s.temporaryPath ≠ ""

/-- The file of this run is under neither name. -/
def Removed (s : Site Data) : Prop := ∀ text, s.temporary ≠ .written text ∧ s.output ≠ .written text

theorem Removable.removed (h : Removable s) : Removed s.unlink := by
  intro text
  unfold Site.unlink
  split
  · next hrenamed => exact ⟨h.temporary hrenamed text, fun hfalse => (by cases hfalse)⟩
  · next hrenamed =>
      have hrenamed : s.renamed = false := by simpa using hrenamed
      split
      · exact ⟨fun hfalse => (by cases hfalse), h.output hrenamed text⟩
      · next hpath => exact ⟨fun htext => h.named hrenamed text htext (not_not.mp hpath), h.output hrenamed text⟩

theorem unlink_fields (s : Site Data) :
    s.unlink.finalized = s.finalized ∧ s.unlink.stream = s.stream ∧ s.unlink.reported = s.reported := by
  unfold Site.unlink
  repeat' split
  all_goals exact ⟨rfl, rfl, rfl⟩

theorem removable_rename (s : Site Data) : Removable s.rename where
  temporary := fun _ _ hfalse => (by cases hfalse)
  output := fun hfalse => (by cases hfalse)
  named := fun hfalse => (by cases hfalse)

/-- What the pieces of `Finalize` before the rename leave as it was. -/
def files (s : Site Data) : Bool × Bool × String × Entry × Entry × List (CallbackRecord Data) :=
  (s.finalized, s.renamed, s.temporaryPath, s.temporary, s.output, s.reported)

variable {m : Machine Exn (Site Data)}

theorem wp_onSuccess {success : Bool} {x : Method Data Bool} {Q : Bool → Machine Exn (Site Data) → Prop}
    {E : Exn → Machine Exn (Site Data) → Prop} :
    wp (onSuccess success x) Q E m ↔ (success = true → wp x Q E m) ∧ (success = false → Q false m) := by
  cases success <;> simp [onSuccess]

theorem wp_finalFlush : wp (finalFlush : Method Data Bool)
    (fun b m' => (b = true → m'.state = s) ∧ (b = false → ∃ reason, m'.state = s.disable reason)) (fun _ _ => False)
    ⟨s, script⟩ := by
  rw [finalFlush, wp_bind, wp_attempt, wp_bind]
  have hfail : ∀ reason, (false = true → s.disable reason = s) ∧ (false = false → ∃ r, s.disable reason = s.disable r) :=
    fun reason => ⟨fun hfalse => (by cases hfalse), fun _ => ⟨reason, rfl⟩⟩
  refine wp_inject (fun script => ?_) (fun e _ => hfail e.reason)
  rw [wp_bind]
  refine wp_call (fun script => ?_) (fun _ => hfail .outputFinalFlushOrFsyncFailed)
  rw [Bool.not_true, if_neg Bool.false_ne_true, wp_bind]
  refine wp_call (fun script => ?_) (fun _ => hfail .outputFinalFlushOrFsyncFailed)
  exact ⟨fun _ => rfl, fun hfalse => (by cases hfalse)⟩

theorem wp_closeStream (success : Bool) : wp (closeStream success : Method Data Bool)
    (fun b m' => files m'.state = files s ∧ m'.state.stream = false ∧
      (b = true → success = true ∧ m'.state = { s with stream := false }))
    (fun _ m' => files m'.state = files s) ⟨s, script⟩ := by
  have hflush : wp (onSuccess success finalFlush : Method Data Bool)
      (fun b m' => files m'.state = files s ∧ (b = true → success = true ∧ m'.state = s)) (fun _ _ => False)
      ⟨s, script⟩ := by
    refine wp_onSuccess.mpr ⟨fun hsuccess => wp_mono wp_finalFlush (fun b m' h => ?_) (fun _ _ h => h), fun _ => ?_⟩
    · cases b with
      | true => exact ⟨by rw [h.1 rfl], fun _ => ⟨hsuccess, h.1 rfl⟩⟩
      | false =>
        obtain ⟨reason, hstate⟩ := h.2 rfl
        exact ⟨by rw [hstate]; rfl, fun hfalse => (by cases hfalse)⟩
    · exact ⟨rfl, fun hfalse => (by cases hfalse)⟩
  rw [closeStream, wp_bind]
  refine wp_mono hflush (fun flushed m₁ h₁ => ?_) (fun _ _ hfalse => hfalse.elim)
  obtain ⟨s₁, script⟩ := m₁
  obtain ⟨hfiles, hflushed⟩ := h₁
  dsimp only at hfiles hflushed
  rw [wp_bind]
  refine wp_inject (fun script => ?_) (fun _ _ => hfiles)
  rw [fclose, bind_assoc, wp_bind]
  refine wp_call (fun script => ?_) (fun script => ?_)
  · refine ⟨hfiles, rfl, fun hb => ?_⟩
    obtain ⟨hsuccess, hs₁⟩ := hflushed hb
    exact ⟨hsuccess, by rw [← hs₁]; rfl⟩
  · exact ⟨hfiles, rfl, fun hfalse => (by cases hfalse)⟩

def settled (s : Site Data) : Bool × Bool × Bool × String × Entry × Entry × List (CallbackRecord Data) :=
  (s.stream, files s)

theorem wp_publish : wp (publish : Method Data Bool)
    (fun b m' => (b = true → m'.state = s.rename) ∧ (b = false → settled m'.state = settled s))
    (fun _ m' => settled m'.state = settled s) ⟨s, script⟩ := by
  rw [publish, wp_bind]
  refine wp_inject (fun script => ?_) (fun _ _ => rfl)
  rw [wp_bind]
  refine wp_call (fun script => ?_) (fun script => ?_)
  · exact ⟨fun _ => rfl, fun hfalse => (by cases hfalse)⟩
  · exact ⟨fun hfalse => (by cases hfalse), fun _ => rfl⟩

theorem wp_syncDirectory : wp (syncDirectory : Method Data Bool)
    (fun b m' => settled m'.state = settled s ∧ (b = true → m'.state = s))
    (fun _ m' => settled m'.state = settled s) ⟨s, script⟩ := by
  rw [syncDirectory, wp_bind]
  refine wp_inject (fun script => ?_) (fun _ _ => rfl)
  have hfail : ∀ script, wp (do
      onlyIf (!false) (disable .outputDirectoryFsyncFailed)
      return false : Method Data Bool)
      (fun b m' => settled m'.state = settled s ∧ (b = true → m'.state = s))
      (fun _ m' => settled m'.state = settled s) ⟨s, script⟩ :=
    fun script => ⟨rfl, fun hfalse => (by cases hfalse)⟩
  rw [wp_bind]
  refine wp_call (fun script => ?_) (fun script => ?_)
  · rw [wp_bind]
    refine wp_onSuccess.mpr ⟨fun _ => wp_call (fun script => ?_) hfail, fun hfalse => (by cases hfalse)⟩
    exact ⟨rfl, fun _ => rfl⟩
  · rw [wp_bind]
    exact wp_onSuccess.mpr ⟨fun hfalse => (by cases hfalse), fun _ => hfail script⟩

theorem Removable.of_files {t : Site Data} (h : Removable s) (hfiles : files t = files s) : Removable t := by
  simp only [files, Prod.mk.injEq] at hfiles
  obtain ⟨-, hrenamed, hpath, htemporary, houtput, -⟩ := hfiles
  refine ⟨?_, ?_, ?_⟩
  · rw [hrenamed, htemporary]
    exact h.temporary
  · rw [hrenamed, houtput]
    exact h.output
  · rw [hrenamed, htemporary, hpath]
    exact h.named

/-- The output has a line for each callback of `past`, with its index, its timestamp and its update. -/
def Finished (C : Callees Data) (o : Options) (past : History Data) (s : Site Data) : Prop :=
  ∃ text, s.output = .written text ∧ Complete C o text s.reported ∧
    s.reported.map (·.callbackIndex) = List.range past.begun.length ∧ s.reported.map (·.noted) = past.begun

/-- After `Finalize`. -/
structure Closed (s : Site Data) : Prop where
  finalized : s.finalized = true
  stream : s.stream = false
  reported : Reported s.reported

theorem wp_conclude {closed : Bool} (hfinalized : s.finalized = true) (hstream : s.stream = false)
    (hreported : Reported s.reported) (hremovable : Removable s) :
    wp (conclude closed : Method Data Bool)
      (fun b m' => Closed m'.state ∧ (b = true → closed = true ∧ m'.state = { s.rename with active := true }) ∧
        (b = false → Removed m'.state))
      (fun _ m' => m'.state.finalized = true ∧ Reported m'.state.reported ∧ Removable m'.state) ⟨s, script⟩ := by
  -- a failure behind some of the pieces removes the file
  have hremove : ∀ {t : Site Data} {script}, t.finalized = true → t.stream = false → Reported t.reported → Removable t →
      wp (do
        onlyIf (!false) (update Site.unlink)
        update fun s => { s with active := false }
        return false : Method Data Bool)
        (fun b m' => Closed m'.state ∧ (b = true → closed = true ∧ m'.state = { s.rename with active := true }) ∧
          (b = false → Removed m'.state))
        (fun _ m' => m'.state.finalized = true ∧ Reported m'.state.reported ∧ Removable m'.state) ⟨t, script⟩ := by
    intro t script hfinalized hstream hreported hremovable
    obtain ⟨hf, hs, hr⟩ := unlink_fields t
    exact ⟨⟨hf.trans hfinalized, hs.trans hstream, hr ▸ hreported⟩, fun hfalse => (by cases hfalse),
      fun _ => hremovable.removed⟩
  have hsettled : ∀ {t u : Site Data}, settled u = settled t → t.finalized = true → t.stream = false →
      Reported t.reported → Removable t → u.finalized = true ∧ u.stream = false ∧ Reported u.reported ∧ Removable u := by
    intro t u hu hf hs hr hm
    simp only [settled, Prod.mk.injEq] at hu
    obtain ⟨hstream, hfiles⟩ := hu
    have hfields := hfiles
    simp only [files, Prod.mk.injEq] at hfields
    exact ⟨hfields.1.trans hf, hstream.trans hs, hfields.2.2.2.2.2 ▸ hr, hm.of_files hfiles⟩
  rw [conclude, wp_bind]
  refine wp_onSuccess.mpr ⟨fun hclosed => ?_, fun _ => ?_⟩
  case refine_2 =>
    rw [wp_bind]
    exact wp_onSuccess.mpr ⟨fun hfalse => (by cases hfalse), fun _ => hremove hfinalized hstream hreported hremovable⟩
  refine wp_mono wp_publish (fun published m₁ h₁ => ?_) (fun _ m₁ h₁ => ?_)
  case refine_2 =>
    obtain ⟨hf, -, hr, hm⟩ := hsettled h₁ hfinalized hstream hreported hremovable
    exact ⟨hf, hr, hm⟩
  obtain ⟨s₁, script⟩ := m₁
  dsimp only at h₁
  rw [wp_bind]
  refine wp_onSuccess.mpr ⟨fun hpublished => ?_, fun hfailed => ?_⟩
  case refine_2 =>
    obtain ⟨hf, hs, hr, hm⟩ := hsettled (h₁.2 hfailed) hfinalized hstream hreported hremovable
    exact hremove hf hs hr hm
  have hs₁ := h₁.1 hpublished
  subst hs₁
  refine wp_mono wp_syncDirectory (fun synced m₂ h₂ => ?_) (fun _ m₂ h₂ => ?_)
  case refine_2 =>
    obtain ⟨hf, -, hr, hm⟩ := hsettled h₂ hfinalized hstream hreported (removable_rename s)
    exact ⟨hf, hr, hm⟩
  obtain ⟨s₂, script⟩ := m₂
  obtain ⟨hu, hsynced⟩ := h₂
  obtain ⟨hf, hs, hr, hm⟩ := hsettled hu hfinalized hstream hreported (removable_rename s)
  cases synced with
  | false => exact hremove hf hs hr hm
  | true =>
    have hs₂ := hsynced rfl
    dsimp only at hs₂
    subst hs₂
    exact ⟨⟨hf, hs, hr⟩, fun _ => ⟨hclosed, rfl⟩, fun hfalse => (by cases hfalse)⟩

theorem wp_finalizeBody {past : History Data} (h : Standing C o past s) :
    wp (finalizeBody : Method Data Bool)
      (fun b m' => Closed m'.state ∧ (b = true → Finished C o past m'.state) ∧ (b = false → Removed m'.state))
      (fun _ m' => m'.state.finalized = true ∧ Reported m'.state.reported ∧ Removable m'.state) ⟨s, script⟩ := by
  have hfinish : files s.finish = files { s with finalized := true, renamed := false } ∧ s.finish.stream = s.stream ∧
      (s.finish.active = true → s.active = true ∧ s.currentAvailable = false) := by
    unfold Site.finish
    cases hactive : s.active <;> cases hcurrent : s.currentAvailable <;> simp [files, Site.disable, *]
  obtain ⟨hfiles, hstream, hactive⟩ := hfinish
  have hremovable : Removable s.finish :=
    .of_files (s := { s with finalized := true, renamed := false })
      ⟨fun hfalse => (by cases hfalse), fun _ => h.output, fun _ => h.named⟩ hfiles
  have hfields := hfiles
  simp only [files, Prod.mk.injEq] at hfields
  obtain ⟨hfinalized, hrenamed, hpath, htemporary, houtput, hreported⟩ := hfields
  have hreported' : Reported s.finish.reported := hreported ▸ h.reported
  have hclose : wp (onSuccess s.finish.stream (closeStream s.finish.active) : Method Data Bool)
      (fun closed m' => files m'.state = files s.finish ∧ m'.state.stream = false ∧
        (closed = true → s.finish.active = true ∧ m'.state = { s.finish with stream := false }))
      (fun _ m' => files m'.state = files s.finish) ⟨s.finish, script⟩ :=
    wp_onSuccess.mpr ⟨fun _ => wp_closeStream _, fun hclosed => ⟨rfl, hclosed, fun hfalse => (by cases hfalse)⟩⟩
  rw [finalizeBody, wp_bind, wp_update, wp_bind, wp_get, wp_bind]
  refine wp_mono hclose (fun closed m₁ h₁ => ?_) (fun _ m₁ h₁ => ?_)
  case refine_2 =>
    have hfields := h₁
    simp only [files, Prod.mk.injEq] at hfields
    exact ⟨hfields.1.trans hfinalized, hfields.2.2.2.2.2 ▸ hreported', hremovable.of_files h₁⟩
  obtain ⟨s₁, script⟩ := m₁
  obtain ⟨hsame, hstream₁, hclosed⟩ := h₁
  dsimp only at hsame hstream₁ hclosed
  have hfields := hsame
  simp only [files, Prod.mk.injEq] at hfields
  refine wp_mono (wp_conclude (hfields.1.trans hfinalized) hstream₁ (hfields.2.2.2.2.2 ▸ hreported')
    (hremovable.of_files hsame)) (fun b m₂ h₂ => ⟨h₂.1, fun hb => ?_, h₂.2.2⟩) (fun _ _ he => he)
  obtain ⟨hb, hs₂⟩ := h₂.2.1 hb
  obtain ⟨hactive₁, hs₁⟩ := hclosed hb
  obtain ⟨hrunning, hopen⟩ := hactive hactive₁
  have he := h.envelope hrunning
  obtain ⟨text, htext, hcomplete⟩ := he.file
  have hopened : s.opened = s.reported := by rw [Site.opened, hopen, if_neg Bool.false_ne_true, append_nil]
  have houtput₂ : m₂.state.output = s.temporary := by rw [hs₂, hs₁]; exact htemporary
  have hreported₂ : m₂.state.reported = s.reported := by rw [hs₂, hs₁]; exact hreported
  refine ⟨text, houtput₂.trans htext, hreported₂ ▸ hcomplete, ?_, ?_⟩
  · rw [hreported₂, ← hopened, he.indices]
  · rw [hreported₂, ← hopened, he.noted]

theorem wp_finalize {past : History Data} (h : Standing C o past s) :
    wp (finalize : Method Data Bool)
      (fun b m' => Closed m'.state ∧ (b = true → Finished C o past m'.state) ∧ (b = false → Removed m'.state))
      (fun _ _ => False) ⟨s, script⟩ := by
  rw [finalize, wp_bind, wp_get]
  dsimp only
  rw [h.running, if_neg Bool.false_ne_true, wp_bind, wp_attempt]
  refine wp_mono (wp_finalizeBody h) (fun _ _ h => h) (fun e m₁ h₁ => ?_)
  obtain ⟨s₁, script⟩ := m₁
  obtain ⟨hfinalized, hreported, hremovable⟩ := h₁
  dsimp only at hfinalized hreported hremovable
  have hrest : ∀ {t : Site Data} {script}, t.finalized = true → t.stream = false → Reported t.reported → Removable t →
      wp (do
        update Site.unlink
        disable e.reason
        return false : Method Data Bool)
        (fun b m' => Closed m'.state ∧ (b = true → Finished C o past m'.state) ∧ (b = false → Removed m'.state))
        (fun _ _ => False) ⟨t, script⟩ := by
    intro t script hfinalized hstream hreported hremovable
    obtain ⟨hf, hs, hr⟩ := unlink_fields t
    exact ⟨⟨hf.trans hfinalized, hs.trans hstream, hr ▸ hreported⟩, fun hfalse => (by cases hfalse),
      fun _ => hremovable.removed⟩
  rw [wp_bind, wp_get, wp_bind, wp_onlyIf]
  refine ⟨fun _ => ?_, fun hstream => hrest hfinalized hstream hreported hremovable⟩
  rw [fclose, bind_assoc, wp_bind]
  have hclosed : Removable { s₁ with stream := false } := hremovable.of_files rfl
  exact wp_call (fun _ => hrest hfinalized rfl hreported hclosed) (fun _ => hrest hfinalized rfl hreported hclosed)

/-! ## Sealed sinks and sticky reasons -/

/-- What a call behind `Finalize` leaves as it was. -/
def contents (s : Site Data) : Entry × Entry × List (CallbackRecord Data) := (s.temporary, s.output, s.reported)

def Sticks (s s' : Site Data) : Prop := ∀ reason, s.failureReason = some reason → s'.failureReason = some reason

structure Moves (s s' : Site Data) : Prop where
  reason : Sticks s s'
  finalized : s'.finalized = s.finalized
  stream : s'.stream = s.stream

structure Act (s s' : Site Data) : Prop extends Moves s s' where
  sealed : s.stream = false → contents s' = contents s

theorem sticks_disable (s : Site Data) (reason : DisableReason) : Sticks s (s.disable reason) := fun reason' h => by
  rw [Site.disable, h]
  rfl

theorem act_disable (s : Site Data) (reason : DisableReason) : Act s (s.disable reason) :=
  ⟨⟨sticks_disable s reason, rfl, rfl⟩, fun _ => rfl⟩

theorem Moves.of_acts {s s' : Site Data} (h : Acts Moves s s') : Moves s s' := by
  induction h with
  | refl => exact ⟨fun _ h => h, rfl, rfl⟩
  | tail _ hact ih =>
    exact ⟨fun r hs => hact.reason r (ih.reason r hs), hact.finalized.trans ih.finalized, hact.stream.trans ih.stream⟩

theorem Act.of_acts {s s' : Site Data} (h : Acts Act s s') : Act s s' := by
  refine ⟨.of_acts (Relation.ReflTransGen.mono (fun _ _ hact => hact.toMoves) _ _ h), fun hstream => ?_⟩
  induction h with
  | refl => rfl
  | tail hacts hact ih =>
    have hmoves := Moves.of_acts (Relation.ReflTransGen.mono (fun _ _ hact => hact.toMoves) _ _ hacts)
    exact (hact.sealed (hmoves.stream.trans hstream)).trans ih

variable {A : Site Data → Site Data → Prop}

theorem does_disable (hA : ∀ s reason, A s (s.disable reason)) (reason : DisableReason) :
    Does A (disable reason : Method Data Unit) :=
  .of_update fun s => .single (hA s reason)

theorem does_guarded (hA : ∀ s reason, A s (s.disable reason))
    {body : Method Data Unit} (h : Does A body) : Does A (guarded body) := by
  refine .bind (.of_attempt h) fun done => ?_
  cases done with
  | ok _ => exact .of_pure _
  | error e => exact does_disable hA _

theorem does_call {effect : Site Data → Site Data} (h : ∀ s, A s (effect s)) :
    Does A (call effect : Method Data Bool) := by
  refine .bind (.of_attempt (.of_reports reports_operate_id)) fun done => ?_
  cases done with
  | ok _ => exact .bind (.of_update fun s => .single (h s)) fun _ => .of_pure _
  | error e => exact .of_pure _

theorem does_inject : Does A (inject : Method Data Unit) :=
  .of_reports reports_operate_id

theorem Moves.of_eq {s' : Site Data} (hreason : s'.failureReason = s.failureReason)
    (hfinalized : s'.finalized = s.finalized) (hstream : s'.stream = s.stream) : Moves s s' :=
  ⟨fun _ h => hreason.trans h, hfinalized, hstream⟩

theorem Act.of_eq {s' : Site Data} (hreason : s'.failureReason = s.failureReason)
    (hfinalized : s'.finalized = s.finalized) (hstream : s'.stream = s.stream) (hcontents : contents s' = contents s) :
    Act s s' :=
  ⟨.of_eq hreason hfinalized hstream, fun _ => hcontents⟩

theorem moves_push (c : Char) (s : Site Data) : Moves s (s.push c) := by
  unfold Site.push
  split <;> exact .of_eq rfl rfl rfl

theorem does_fwrite (cs : List Char) : Does Moves (fwrite cs : Method Data Bool) := by
  induction cs with
  | nil => exact .of_pure _
  | cons c cs ih =>
    exact .bind (does_call (moves_push c)) fun _ => .ite ih (.of_pure _)

theorem does_writeLine_moves (line : Line) (record : Option (CallbackRecord Data)) :
    Does Moves (writeLine o line record) := by
  have hdisable : ∀ reason, Does Moves (do
      disable reason
      return false : Method Data Bool) := fun reason =>
    .bind (does_disable (fun s r => (act_disable s r).toMoves) reason) fun _ => .of_pure _
  refine .bind (.of_attempt (.of_get fun m => ?_)) fun written => ?_
  · refine .ite (.of_pure _) (.ite (hdisable _) (.bind does_inject fun _ => ?_))
    refine .bind (does_fwrite _) fun _ => .ite (hdisable _) (.bind does_inject fun _ => ?_)
    refine .bind (does_call fun _ => .of_eq rfl rfl rfl) fun _ => .ite (hdisable _) ?_
    exact .bind (.of_update fun s => .single (.of_eq rfl rfl rfl)) fun _ => .of_pure _
  · cases written with
    | ok b => exact .of_pure _
    | error e => exact hdisable _

theorem does_writeLine (line : Line) (record : Option (CallbackRecord Data)) : Does Act (writeLine o line record) := by
  intro m
  cases hstream : m.state.stream with
  | true =>
    have hact : ∀ {s' : Site Data}, Acts Moves m.state s' → Acts Act m.state s' := fun h =>
      .single ⟨.of_acts h, fun hfalse => by rw [hstream] at hfalse; cases hfalse⟩
    exact wp_mono (does_writeLine_moves line record m) (fun _ _ h => hact h) (fun _ _ h => hact h)
  | false =>
    rw [writeLine, wp_bind, wp_attempt, wp_bind, wp_get]
    dsimp only
    rw [hstream, Bool.not_false, Bool.or_true, if_pos rfl]
    exact .refl

theorem does_store (index : Nat) (f : CallbackRecord Data → CallbackRecord Data) : Does Act (store index f) := by
  refine .of_update fun s => .single ?_
  split <;> exact .of_eq rfl rfl rfl rfl

theorem does_captureInterval (s : Site Data) (timestamp : Binary64) (a : BeginArguments Data) :
    Does Act (captureInterval C s timestamp a) := by
  refine .bind (.of_reports (reports_imuSupport s timestamp a)) fun support => ?_
  refine .bind does_inject fun _ => .bind (.of_reports (reports_liftExcept _)) fun interval => ?_
  exact does_store _ _

theorem does_beginCallback (timestamp : Binary64) (a : BeginArguments Data) : Does Act (beginCallback C o timestamp a) := by
  refine does_guarded act_disable (.of_get fun m => .ite (.of_pure _) ?_)
  refine .ite (does_disable act_disable _) (.bind does_inject fun _ => ?_)
  refine .bind (.of_update fun s => .single (.of_eq rfl rfl rfl rfl)) fun _ => ?_
  refine .bind (.of_onlyIf (.of_onSome fun state => .bind does_inject fun _ => does_store _ _)) fun _ => ?_
  exact .of_onlyIf (does_captureInterval _ _ _)

theorem does_recordFrontend (record : FrontendRecord Data) : Does Act (recordFrontend record) := by
  refine does_guarded act_disable (.bind does_inject fun _ => .of_get fun m => .ite (.of_pure _) ?_)
  exact .bind does_inject fun _ => .of_update fun s => .single (.of_eq rfl rfl rfl rfl)

theorem does_recordUpdate (record : UpdateRecord Data) : Does Act (recordUpdate record) := by
  refine does_guarded act_disable (.bind does_inject fun _ => .of_get fun m => .ite (.of_pure _) ?_)
  exact .ite (does_disable act_disable _) (.of_update fun s => .single (.of_eq rfl rfl rfl rfl))

theorem act_measure (s : Site Data) : Act s s.measure := by
  unfold Site.measure
  dsimp only
  repeat' split
  all_goals exact .of_eq rfl rfl rfl rfl

theorem does_endCallback (a : EndArguments) : Does Act (endCallback C o a) := by
  have hset : ∀ {f : Site Data → Site Data}, (∀ s, Act s (f s)) → Does Act (update f : Method Data Unit) :=
    fun hf => .of_update fun s => .single (hf s)
  refine does_guarded act_disable (.of_get fun m => .ite (.of_pure _) ?_)
  refine .bind (.of_onlyIf (.bind does_inject fun _ => hset fun _ => .of_eq rfl rfl rfl rfl)) fun _ => ?_
  refine .bind does_inject fun _ => .bind (hset fun _ => .of_eq rfl rfl rfl rfl) fun _ => ?_
  refine .bind (hset act_measure) fun _ => .bind (hset fun _ => .of_eq rfl rfl rfl rfl) fun _ => ?_
  refine .bind does_inject fun _ => .of_get fun m => ?_
  refine .bind (.of_reports (reports_liftExcept _)) fun line => .bind (does_writeLine _ _) fun _ => ?_
  refine .bind (.of_onlyIf (hset fun _ => .of_eq rfl rfl rfl rfl)) fun _ => .bind does_inject fun _ => ?_
  exact hset fun _ => .of_eq rfl rfl rfl rfl

theorem does_onSuccess {success : Bool} {x : Method Data Bool} (hx : Does A x) :
    Does A (onSuccess success x) :=
  .ite hx (.of_pure _)

theorem does_finalize : Does Sticks (finalize : Method Data Bool) := by
  have hset : ∀ {f : Site Data → Site Data}, (∀ s, (f s).failureReason = s.failureReason) →
      Does Sticks (update f : Method Data Unit) :=
    fun hf => .of_update fun s => .single fun _ hs => (hf s).trans hs
  have hcall : ∀ {f : Site Data → Site Data}, (∀ s, (f s).failureReason = s.failureReason) →
      Does Sticks (call f : Method Data Bool) := fun hf => does_call fun s _ hs => (hf s).trans hs
  have hdisable : ∀ reason, Does Sticks (do
      disable reason
      return false : Method Data Bool) := fun reason =>
    .bind (does_disable sticks_disable reason) fun _ => .of_pure _
  have hunlink : Does Sticks (update Site.unlink : Method Data Unit) := hset fun s => by
    unfold Site.unlink
    repeat' split
    all_goals rfl
  have hfclose : Does Sticks (fclose : Method Data Bool) :=
    .bind (hcall fun _ => rfl) fun _ => .bind (hset fun _ => rfl) fun _ => .of_pure _
  have hflush : Does Sticks (finalFlush : Method Data Bool) := by
    refine .bind (.of_attempt (.bind does_inject fun _ => ?_)) fun flushed => ?_
    · refine .bind (hcall fun _ => rfl) fun _ => .ite (hdisable _) ?_
      exact .bind (hcall fun _ => rfl) fun _ => .ite (hdisable _) (.of_pure _)
    · cases flushed with
      | ok b => exact .of_pure _
      | error e => exact hdisable _
  have hclose : ∀ success, Does Sticks (closeStream success : Method Data Bool) := fun success =>
    .bind (does_onSuccess hflush) fun _ => .bind does_inject fun _ =>
      .bind hfclose fun _ => .ite (.of_pure _) (hdisable _)
  have hpublish : Does Sticks (publish : Method Data Bool) :=
    .bind does_inject fun _ => .bind (hcall fun _ => rfl) fun _ => .ite (.of_pure _) (hdisable _)
  have hsync : Does Sticks (syncDirectory : Method Data Bool) :=
    .bind does_inject fun _ => .bind (hcall fun _ => rfl) fun _ =>
      .bind (does_onSuccess (hcall fun _ => rfl)) fun _ =>
        .bind (.of_onlyIf (does_disable sticks_disable _)) fun _ => .of_pure _
  have hconclude : ∀ closed, Does Sticks (conclude closed : Method Data Bool) := fun closed =>
    .bind (does_onSuccess hpublish) fun _ => .bind (does_onSuccess hsync) fun _ =>
      .bind (.of_onlyIf hunlink) fun _ => .bind (hset fun _ => rfl) fun _ => .of_pure _
  refine .of_get fun m => .ite (.of_pure _) ?_
  refine .bind (.of_attempt ?_) fun done => ?_
  · refine .bind (.of_update fun s => .single ?_) fun _ => .of_get fun m => ?_
    · unfold Site.finish
      dsimp only
      split
      · exact sticks_disable _ _
      · exact fun _ hs => hs
    · exact .bind (does_onSuccess (hclose _)) hconclude
  · cases done with
    | ok b => exact .of_pure _
    | error e =>
      refine .of_get fun m => .bind (.of_onlyIf (.bind hfclose fun _ => .of_pure _)) fun _ => ?_
      exact .bind hunlink fun _ => hdisable _

/-! ## Runs -/

theorem wp_perform {past : History Data} {call : Call Data} (h : Standing C o past s) (hcall : call ≠ .finalize) :
    wp (perform C o call) (fun _ m' => Standing C o (past.call call) m'.state) (fun _ _ => False) ⟨s, script⟩ := by
  cases call with
  | beginCallback timestamp a => exact wp_beginCallback timestamp a h
  | recordFrontend record => exact wp_recordFrontend record h
  | recordUpdate record => exact wp_recordUpdate record h
  | endCallback a => exact wp_endCallback a h
  | reportComponentFailure reason => exact wp_reportComponentFailure reason h
  | finalize => exact absurd rfl hcall

theorem does_perform {call : Call Data} (hcall : call ≠ .finalize) : Does Act (perform C o call) := by
  cases call with
  | beginCallback timestamp a => exact does_beginCallback timestamp a
  | recordFrontend record => exact does_recordFrontend record
  | recordUpdate record => exact does_recordUpdate record
  | endCallback a => exact does_endCallback a
  | reportComponentFailure reason => exact does_disable act_disable _
  | finalize => exact absurd rfl hcall

theorem performed_concat (m : Machine Exn (Site Data)) (calls : List (Call Data)) (call : Call Data) :
    performed C o m (calls ++ [call]) = finalState ((perform C o call).run (performed C o m calls)) := by
  rw [performed, foldl_append]
  rfl

theorem finalState_of_wp {x : Method Data Unit} {P : Machine Exn (Site Data) → Prop}
    (h : wp x (fun _ m' => P m') (fun _ _ => False) m) : P (finalState (x.run m)) :=
  wp_iff_finalState.mp (wp_mono h (fun _ _ h => h) (fun _ _ h => h.elim))

theorem standing_performed (temporary output : Bool) (script : List (Option (Raise Exn))) {calls : List (Call Data)}
    (hcalls : .finalize ∉ calls) :
    Standing C o (historyOf calls) (performed C o (initialized C o temporary output script) calls).state := by
  induction calls using List.reverseRecOn with
  | nil =>
    have hinit : wp (initializeSink C o) (fun _ m' => Standing C o {} m'.state) (fun _ _ => False)
        ⟨Site.start temporary output, script⟩ := wp_initializeSink (starting_start temporary output)
    exact wp_iff_finalState.mp (wp_mono hinit (fun _ _ h => h) (fun _ _ h => h.elim))
  | append_singleton calls call ih =>
    have hbefore := ih fun hmem => hcalls (mem_append_left _ hmem)
    rw [performed_concat, historyOf, foldl_append]
    exact finalState_of_wp (P := fun m' => Standing C o _ m'.state) (wp_perform hbefore fun heq =>
      hcalls (heq ▸ mem_append_right _ (mem_singleton_self _)))

theorem closed_perform (h : Closed m.state) (call : Call Data) :
    Closed (finalState ((perform C o call).run m)).state ∧
      contents (finalState ((perform C o call).run m)).state = contents m.state := by
  suffices hrun : wp (perform C o call) (fun _ m' => Closed m'.state ∧ contents m'.state = contents m.state)
      (fun _ m' => Closed m'.state ∧ contents m'.state = contents m.state) m from wp_iff_finalState.mp hrun
  have hact : ∀ {s' : Site Data}, Acts Act m.state s' → Closed s' ∧ contents s' = contents m.state := by
    intro s' hacts
    have hact := Act.of_acts hacts
    have hcontents := hact.sealed h.stream
    refine ⟨⟨hact.finalized.trans h.finalized, hact.stream.trans h.stream, ?_⟩, hcontents⟩
    simp only [contents, Prod.mk.injEq] at hcontents
    exact hcontents.2.2 ▸ h.reported
  by_cases hcall : call = .finalize
  · subst hcall
    show wp (do let _ ← finalize; return () : Method Data Unit) _ _ _
    rw [wp_bind, finalize, wp_bind, wp_get, h.finalized, if_pos rfl]
    exact ⟨h, rfl⟩
  · exact wp_mono (does_perform hcall m) (fun _ _ h => hact h) (fun _ _ h => hact h)

theorem closed_performed (h : Closed m.state) (calls : List (Call Data)) :
    Closed (performed C o m calls).state ∧ contents (performed C o m calls).state = contents m.state := by
  induction calls using List.reverseRecOn with
  | nil => exact ⟨h, rfl⟩
  | append_singleton calls call ih =>
    rw [performed_concat]
    obtain ⟨hclosed, hcontents⟩ := ih
    have hcall := closed_perform (C := C) (o := o) hclosed call
    exact ⟨hcall.1, hcall.2.trans hcontents⟩

theorem sticks_perform (call : Call Data) : Does Sticks (perform C o call) := by
  by_cases hcall : call = .finalize
  · subst hcall
    exact .bind does_finalize fun _ => .of_pure _
  · exact (does_perform hcall).mono fun _ _ hact => hact.reason

theorem standing_or_closed (temporary output : Bool) (script : List (Option (Raise Exn))) (calls : List (Call Data)) :
    (∃ past, Standing C o past (performed C o (initialized C o temporary output script) calls).state) ∨
      Closed (performed C o (initialized C o temporary output script) calls).state := by
  induction calls using List.reverseRecOn with
  | nil => exact .inl ⟨_, standing_performed temporary output script not_mem_nil⟩
  | append_singleton calls call ih =>
    rw [performed_concat]
    rcases ih with ⟨past, hstanding⟩ | hclosed
    · by_cases hcall : call = .finalize
      · subst hcall
        right
        refine finalState_of_wp (P := fun m' => Closed m'.state) ?_
        show wp (do let _ ← finalize; return () : Method Data Unit) _ _ _
        rw [wp_bind]
        exact wp_mono (wp_finalize hstanding) (fun _ _ h => h.1) (fun _ _ h => h)
      · left
        exact ⟨_, finalState_of_wp (P := fun m' => Standing C o _ m'.state) (wp_perform hstanding hcall)⟩
    · right
      exact (closed_perform hclosed call).1

/-- In every run, whatever fails: the first reason is never replaced; the first `Finalize` leaves the file with a
line for each callback begun before it, with the update recorded in it, as the output where it returns true,
removes the file where it returns false, and nothing is written behind it; and the durations that are reported
are right. -/
theorem turnSafe_sink_complete (C : Callees Data) (o : Options) (temporary output : Bool)
    (script : List (Option (Raise Exn))) :
    (∀ calls more reason,
      (performed C o (initialized C o temporary output script) calls).state.failureReason = some reason →
      (performed C o (initialized C o temporary output script) (calls ++ more)).state.failureReason = some reason) ∧
    (∀ before, .finalize ∉ before →
      wp finalize
        (fun success m' => (success = true → Finished C o (historyOf before) m'.state) ∧
          (success = false → Removed m'.state) ∧
          ∀ after, contents (performed C o m' after).state = contents m'.state)
        (fun _ _ => False) (performed C o (initialized C o temporary output script) before)) ∧
    ∀ calls, Reported (performed C o (initialized C o temporary output script) calls).state.reported := by
  refine ⟨fun calls more reason hreason => ?_, fun before hbefore => ?_, fun calls => ?_⟩
  · induction more using List.reverseRecOn with
    | nil => rwa [append_nil]
    | append_singleton more call ih =>
      rw [← append_assoc, performed_concat]
      exact ((sticks_perform (C := C) (o := o) call).preserves
        (P := fun s => s.failureReason = some reason) fun _ _ hsticks => hsticks reason).finalState ih
  · refine wp_mono (wp_finalize (standing_performed temporary output script hbefore)) (fun _ m' h => ?_) (fun _ _ h => h)
    exact ⟨h.2.1, h.2.2, fun after => (closed_performed h.1 after).2⟩
  · rcases standing_or_closed (C := C) (o := o) temporary output script calls with ⟨_, hstanding⟩ | hclosed
    · exact hstanding.reported
    · exact hclosed.reported

/-- Two callbacks, the first with an update: `Finalize` returns true. -/
example :
    let C : Callees Unit := ⟨fun _ => .ok ⟨['H'], by decide⟩, fun _ _ => .ok ⟨['.'], by decide⟩, fun _ => .ok ()⟩
    let o : Options := { outputPath := "turnsafe.jsonl" }
    let m := performed C o (initialized C o false true []) [.beginCallback ⟨1⟩ {}, .recordUpdate {}, .endCallback {},
      .beginCallback ⟨2⟩ {}, .endCallback {}]
    wp finalize (fun success m' => success = true ∧ m'.state.reported.map (·.updateAvailable) = [true, false] ∧
      m'.state.output = .written ("H\n".toList ++ callbackHead ++ "0.\n".toList ++ callbackHead ++ "1.\n".toList))
      (fun _ _ => False) m := by
  decide +kernel

end Bravo.TurnSafe
