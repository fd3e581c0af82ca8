import Bravo.Updater.Update

/-! # Recorded calls publish once or latch

Every exit of a recorded call publishes one record or ends with the fatal latch set. The pieces of
`update` come in two kinds: those that leave the updater, the state and the publications alone
(`Silent`), and those that may also end the call (`Settles`). The rules for both are stated once;
each piece of the source then has a one-line specification.
-/

namespace Bravo.Updater

open Bravo.Trace Bravo.Journal Bravo.Shadow UpdaterMSCKF

variable {σ α β : Type}

/-! ## Frames -/

def eventIdentity (event : CP2LiveUpdateEvent) : Bool × UInt64 × UInt64 × UInt64 × UInt64 :=
  (event.invocationContextAvailable, event.sequenceIndex, event.pairIndex,
    event.cameraTimestampNs, event.invocationId)

structure Quiet (s t : Call σ) : Prop where
  state : t.state = s.state
  published : t.published = s.published
  recordPublished : t.recordPublished = s.recordPublished
  updater : t.updater = s.updater
  identity : eventIdentity t.event = eventIdentity s.event

theorem Quiet.refl (s : Call σ) : Quiet s s := ⟨rfl, rfl, rfl, rfl, rfl⟩

variable {s t u : Call σ}

theorem Quiet.trans (h : Quiet s t) (h' : Quiet t u) : Quiet s u :=
  ⟨h'.state.trans h.state, h'.published.trans h.published,
    h'.recordPublished.trans h.recordPublished, h'.updater.trans h.updater,
    h'.identity.trans h.identity⟩

/-- Everything of the updater stays but the freeze and the latch, which keeps its first reason. -/
structure Kept (u v : UpdaterMSCKF) : Prop where
  options : v.options = u.options
  recordedSink : v.recordedSink = u.recordedSink
  updateActive : v.updateActive = u.updateActive
  pending : v.pendingInvocationContext = u.pendingInvocationContext
  nextInvocationId : v.nextInvocationId = u.nextInvocationId
  first : u.traceFatalReason ≠ .kNone → v.traceFatalReason = u.traceFatalReason

theorem Kept.refl (u : UpdaterMSCKF) : Kept u u := ⟨rfl, rfl, rfl, rfl, rfl, fun _ => rfl⟩

theorem Kept.trans {u v w : UpdaterMSCKF} (h : Kept u v) (h' : Kept v w) : Kept u w where
  options := h'.options.trans h.options
  recordedSink := h'.recordedSink.trans h.recordedSink
  updateActive := h'.updateActive.trans h.updateActive
  pending := h'.pending.trans h.pending
  nextInvocationId := h'.nextInvocationId.trans h.nextInvocationId
  first hu := by
    have hv := h.first hu
    rw [h'.first (hv ▸ hu), hv]

theorem Kept.latch (u : UpdaterMSCKF) (reason : CP2TraceFatalReason) : Kept u (u.latch reason) := by
  unfold UpdaterMSCKF.latch
  split
  · rename_i h
    exact ⟨rfl, rfl, rfl, rfl, rfl, fun hu => absurd h hu⟩
  · exact .refl u

variable {reason : CP2TraceFatalReason}

theorem latch_ne_none (u : UpdaterMSCKF) (h : reason ≠ .kNone) :
    (u.latch reason).traceFatalReason ≠ .kNone := by
  unfold latch
  split
  · exact h
  · assumption

theorem Kept.of_reenter {u : UpdaterMSCKF} (hactive : u.updateActive = true) (r : Reentry) :
    Kept u (reenter u r) := by
  have hfrozen : ∀ v : UpdaterMSCKF, Kept v { v with configurationFrozen := true } :=
    fun v => ⟨rfl, rfl, rfl, rfl, rfl, fun _ => rfl⟩
  cases r with
  | setContext context =>
    simp only [reenter, setInvocationContext, hactive, Bool.true_or, if_true]
    exact .refl u
  | update start =>
    simp only [reenter, enter]
    cases start.valid with
    | false => exact (hfrozen u).trans (.latch _ _)
    | true =>
      simp only [Bool.not_true, Bool.false_eq_true, if_false, if_true, hactive]
      split_ifs <;> exact ⟨rfl, rfl, hactive.symm, rfl, rfl, fun _ => rfl⟩

theorem Kept.reentries {u : UpdaterMSCKF} (hactive : u.updateActive = true) (rs : List Reentry) :
    Kept u (rs.foldl reenter u) := by
  induction rs generalizing u with
  | nil => exact .refl u
  | cons r rs ih =>
    have h := Kept.of_reenter hactive r
    exact h.trans (ih (h.updateActive.trans hactive))

/-! ## Ends of a call -/

/-- One record was published and accepted; the state was written only for a commit. -/
def Published (s t : Call σ) : Prop :=
  ∃ record, t.published = s.published ++ [⟨record, .kPublished⟩] ∧
    eventIdentity record.update = eventIdentity s.event ∧
    (t.state = s.state ∨ record.update.terminalStatus = .kCommittedCounted) ∧
    Kept s.updater t.updater

/-- An exception: a fatal one comes with its latch, any other before the record is published. -/
def Failed (s t : Call σ) (e : Exn) : Prop :=
  Kept s.updater t.updater ∧
    match e with
    | .fault _ => t.published = s.published
    | .fatal reason _ =>
      (t.published = s.published ∨ ∃ record, t.published = s.published ++ [⟨record, .kRejected⟩]) ∧
        t.updater.traceFatalReason ≠ .kNone ∧ reason = t.updater.traceFatalReason

theorem Published.of_quiet (h : Quiet s t) (h' : Published t u) : Published s u := by
  obtain ⟨record, hpublished, hidentity, hstate, hkept⟩ := h'
  exact ⟨record, h.published ▸ hpublished, hidentity.trans h.identity, h.state ▸ hstate,
    h.updater ▸ hkept⟩

theorem Failed.of_quiet {e : Exn} (h : Quiet s t) (h' : Failed t u e) : Failed s u e := by
  unfold Failed at *
  rw [h.published, h.updater] at h'
  exact h'

/-- A piece that the surroundings see nothing of, unless it latches. -/
def Silent (x : Update σ α) : Prop :=
  ∀ s, wp x (fun _ t => Quiet s t) (fun e t => Failed s t e) s

/-- A piece of a call whose record is not yet published. Where `ended` holds of its result it has
published the record, elsewhere it was quiet. -/
def Settles (ended : α → Bool) (x : Update σ α) : Prop :=
  ∀ s, s.recordPublished = false → s.updater.updateActive = true →
    wp x (fun a t => if ended a then Published s t else Quiet s t) (fun e t => Failed s t e) s

/-! ## Rules -/

variable {x : Update σ α}

theorem Silent.settles (h : Silent x) : Settles (fun _ => false) x :=
  fun s _ _ => h s

theorem Silent.of_pure (a : α) : Silent (pure a : Update σ α) := fun s => Quiet.refl s

variable {f : α → Update σ β}

theorem Silent.bind (hx : Silent x) (hf : ∀ a, Silent (f a)) : Silent (x >>= f) := by
  intro s
  rw [wp_bind]
  refine wp_mono (hx s) (fun a t ht => ?_) (fun e t ht => ht)
  exact wp_mono (hf a t) (fun b u hu => ht.trans hu) (fun e u hu => hu.of_quiet ht)

theorem Silent.of_get {f : Call σ → Update σ α} (hf : ∀ s, Silent (f s)) : Silent (get >>= f) := by
  intro s
  rw [wp_bind]
  exact hf s s

theorem Silent.of_modify {f : Call σ → Call σ} (h : ∀ s, Quiet s (f s)) :
    Silent (modify f : Update σ Unit) := fun s => h s

variable {ended : α → Bool}

theorem Settles.bind {ended' : β → Bool}
    (hx : Settles ended x) (hf : ∀ a, ended a = false → Settles ended' (f a))
    (hend : ∀ a, ended a = true → ∃ b, f a = pure b ∧ ended' b = true) :
    Settles ended' (x >>= f) := by
  intro s hs hactive
  rw [wp_bind]
  refine wp_mono (hx s hs hactive) (fun a t ht => ?_) (fun e t ht => ht)
  cases hend' : ended a with
  | true =>
    obtain ⟨b, hb, hb'⟩ := hend a hend'
    rw [hb]
    simpa [hend', hb'] using ht
  | false =>
    simp only [hend', Bool.false_eq_true, if_false] at ht
    refine wp_mono (hf a hend' t (ht.recordPublished.trans hs) (ht.updater ▸ hactive))
      (fun b u hu => ?_) (fun e u hu => hu.of_quiet ht)
    split at hu
    · rename_i h
      rw [if_pos h]
      exact hu.of_quiet ht
    · rename_i h
      rw [if_neg h]
      exact ht.trans hu

theorem Silent.then {ended : β → Bool} (hx : Silent x)
    (hf : ∀ a, Settles ended (f a)) : Settles ended (x >>= f) :=
  hx.settles.bind (fun a _ => hf a) (fun _ h => absurd h (by simp))

theorem Settles.of_pure {a : α} (h : ended a = false) : Settles ended (pure a : Update σ α) := by
  intro s _ _
  rw [wp_pure, h]
  exact .refl s

theorem Settles.of_get {f : Call σ → Update σ α} (hf : ∀ s, Settles ended (f s)) :
    Settles ended (get >>= f) := by
  intro s hs hactive
  rw [wp_bind]
  exact hf s s hs hactive

theorem Silent.ite {c : Prop} [Decidable c] {x y : Update σ α} (hx : Silent x) (hy : Silent y) :
    Silent (if c then x else y) := by
  split
  · exact hx
  · exact hy

theorem Settles.ite {c : Prop} [Decidable c] {x y : Update σ α}
    (hx : Settles ended x) (hy : Settles ended y) : Settles ended (if c then x else y) := by
  split
  · exact hx
  · exact hy

theorem Silent.of_onlyIf {c : Bool} {x : Update σ Unit} (hx : Silent x) : Silent (onlyIf c x) := by
  cases c
  · exact .of_pure _
  · exact hx

theorem Silent.settles_any (h : ∀ s, wp x (fun _ _ => False) (fun e t => Failed s t e) s)
    (ended : α → Bool) : Settles ended x := by
  intro s _ _
  exact wp_mono (h s) (fun _ _ hfalse => hfalse.elim) (fun _ _ he => he)

/-! ## Small pieces -/

theorem silent_throw (f : Fault) : Silent (throw (.fault f) : Update σ α) :=
  fun _ => ⟨.refl _, rfl⟩

theorem settles_throw (f : Fault) (ended : α → Bool) :
    Settles ended (throw (.fault f) : Update σ α) :=
  Silent.settles_any (x := throw (.fault f)) (fun _ => ⟨Kept.refl _, rfl⟩) ended

theorem silent_call (x : Except Fault α) : Silent (call x : Update σ α) := by
  cases x with
  | ok a => exact .of_pure a
  | error f => exact silent_throw f

theorem silent_checked (x : Except String α) : Silent (checked x : Update σ α) := by
  cases x with
  | ok a => exact .of_pure a
  | error _ => exact silent_throw _

theorem wp_latchTraceFatal (h : reason ≠ .kNone) (message : String) (s : Call σ) :
    wp (latchTraceFatal reason message : Update σ α) (fun _ _ => False)
      (fun e t => Failed s t e) s := by
  simp only [latchTraceFatal, modifyUpdater, wp_bind, wp_modify, wp_get, wp_throw]
  exact ⟨.latch _ _, .inl rfl, latch_ne_none _ h, rfl⟩

theorem silent_latchTraceFatal (h : reason ≠ .kNone)
    (message : String) : Silent (latchTraceFatal reason message : Update σ α) :=
  fun s => wp_mono (wp_latchTraceFatal h message s) (fun _ _ hfalse => hfalse.elim)
    (fun _ _ he => he)

theorem settles_latchTraceFatal (h : reason ≠ .kNone) (message : String) (ended : α → Bool) :
    Settles ended (latchTraceFatal reason message : Update σ α) :=
  Silent.settles_any (wp_latchTraceFatal h message) ended

theorem silent_callOrLatch (x : Except Fault α) (h : reason ≠ .kNone) (message : String) :
    Silent (callOrLatch x reason message : Update σ α) := by
  cases x with
  | ok a => exact .of_pure a
  | error _ => exact silent_latchTraceFatal h message

theorem silent_modifyRecord (f : CP2RecordedUpdateEvent → CP2RecordedUpdateEvent) :
    Silent (modifyRecord f : Update σ Unit) :=
  .of_modify fun _ => ⟨rfl, rfl, rfl, rfl, rfl⟩

theorem silent_modifyEvent {f : CP2LiveUpdateEvent → CP2LiveUpdateEvent}
    (h : ∀ event, eventIdentity (f event) = eventIdentity event) :
    Silent (modifyEvent f : Update σ Unit) :=
  .of_modify fun s => ⟨rfl, rfl, rfl, rfl, h s.event⟩

theorem silent_nextTick : Silent (nextTick : Update σ Nat) := by
  refine .of_get fun s => .bind ?_ fun _ => .of_pure _
  exact .of_modify fun _ => ⟨rfl, rfl, rfl, rfl, rfl⟩

theorem silent_writeFeature (p : FeaturePtr) (f : Feature) :
    Silent (writeFeature p f : Update σ Unit) :=
  .of_modify fun _ => ⟨rfl, rfl, rfl, rfl, rfl⟩

theorem silent_markDeleted (p : FeaturePtr) : Silent (markDeleted p : Update σ Unit) :=
  .of_modify fun _ => ⟨rfl, rfl, rfl, rfl, rfl⟩

theorem silent_setProposalVec (features : List FeaturePtr) :
    Silent (modify fun s : Call σ => s.setProposalVec features : Update σ Unit) :=
  Silent.of_modify fun s => by
    unfold Call.setProposalVec
    cases s.batch <;> exact ⟨rfl, rfl, rfl, rfl, rfl⟩

/-! ## Publishing -/

variable (C : Callees σ)

theorem wp_publishRecord {s : Call σ} (hs : s.recordPublished = false)
    (hactive : s.updater.updateActive = true) :
    wp (publishRecord C) (fun _ t => t.published = s.published ++ [⟨s.record, .kPublished⟩] ∧
      t.state = s.state ∧ Kept s.updater t.updater) (fun e t => Failed s t e) s := by
  have hsink := Kept.reentries hactive C.sinkReentries
  simp only [publishRecord, wp_bind, wp_get, hs, Bool.false_eq_true, if_false, wp_modify]
  by_cases hstatus : C.publish s.record = .kPublished
  · simp only [hstatus, ne_eq, not_true_eq_false, if_false, notifyObserver, wp_bind, wp_modify]
    refine ⟨trivial, trivial, ?_⟩
    split
    · exact hsink.trans (.reentries (hsink.updateActive.trans hactive) _)
    · exact hsink
  · have hrejected : C.publish s.record = .kRejected := by
      cases h : C.publish s.record with
      | kPublished => exact absurd h hstatus
      | kRejected => rfl
    simp only [hrejected, ne_eq, reduceCtorEq, not_false_eq_true, if_true, latchTraceFatal,
      modifyUpdater, wp_bind, wp_modify, wp_get, wp_throw]
    exact ⟨hsink.trans (.latch _ _), .inr ⟨s.record, rfl⟩, latch_ne_none _ (by decide), rfl⟩

theorem settles_publishRecord (g : CP2RecordedUpdateEvent → CP2RecordedUpdateEvent)
    (event : CP2LiveUpdateEvent) (hg : ∀ record, (g record).update = event) (s : Call σ)
    (hs : s.recordPublished = false) (hactive : s.updater.updateActive = true)
    (hevent : eventIdentity event = eventIdentity s.event) :
    wp (do modifyRecord g; publishRecord C) (fun _ t => Published s t) (fun e t => Failed s t e) s := by
  simp only [wp_bind, modifyRecord, wp_modify]
  refine wp_mono (wp_publishRecord C hs hactive) (fun _ t ht => ?_) (fun e t he => he)
  exact ⟨g s.record, ht.1, by rw [hg, hevent], .inl ht.2.1, ht.2.2⟩

variable (status : CP2UpdateTerminalStatus) (subreason : CP2UpdateTerminalSubreason)

theorem settles_finishRecordedZeroRaw :
    Settles (fun _ => true) (finishRecordedZeroRaw C status subreason) := by
  unfold finishRecordedZeroRaw
  refine Silent.then (silent_modifyEvent ?_) fun _ => ?_
  · exact fun _ => rfl
  intro s hs hactive
  rw [wp_bind, wp_get]
  split
  · exact settles_latchTraceFatal (by decide) _ _ s hs hactive
  · split
    · exact settles_latchTraceFatal (by decide) _ _ s hs hactive
    · exact settles_publishRecord C _ s.event (fun _ => rfl) s hs hactive rfl

/-! ## Noncommits -/

theorem silent_captureRecordedPhase1 : Silent (captureRecordedPhase1 C) := by
  refine (silent_call _).bind fun snapshot => ?_
  cases snapshot with
  | none => exact silent_latchTraceFatal (by decide) _
  | some snapshot =>
    refine (silent_callOrLatch _ (by decide) _).bind fun payload => .of_get fun s => ?_
    exact (silent_call _).bind fun equal => .of_pure _

theorem silent_installRecordedPhase01
    (phase1 : CP2CompositeStateSnapshot × List UInt8) (canonicalEqual pointerEqual : Bool) :
    Silent (installRecordedPhase01 C phase1 canonicalEqual pointerEqual) := by
  refine .of_get fun s => .ite (silent_latchTraceFatal (by decide) _) ?_
  exact (silent_callOrLatch _ (by decide) _).bind fun _ => silent_modifyRecord _

theorem settles_publishInstalledRecordedNoncommit :
    Settles (fun _ => true) (publishInstalledRecordedNoncommit C status subreason) := by
  refine .of_get fun s => .ite (settles_latchTraceFatal (by decide) _ _) ?_
  refine Silent.then (silent_modifyEvent ?_) fun _ => ?_
  · exact fun _ => rfl
  intro t ht hactive
  rw [wp_bind, wp_get]
  split
  · exact settles_latchTraceFatal (by decide) _ _ t ht hactive
  · exact settles_publishRecord C _ t.event (fun _ => rfl) t ht hactive rfl

theorem settles_finishRecordedNoncommit :
    Settles (fun _ => true) (finishRecordedNoncommit C status subreason) := by
  refine .of_get fun s => .ite (settles_latchTraceFatal (by decide) _ _) ?_
  refine (silent_captureRecordedPhase1 C).then fun phase1 => ?_
  refine (silent_call _).then fun pointerEqual => ?_
  refine (silent_installRecordedPhase01 C _ _ _).then fun _ => ?_
  exact settles_publishInstalledRecordedNoncommit C status subreason

/-! ## The pipeline -/

theorem settles_sweep {body : FeaturePtr → Update σ Verdict}
    (h : ∀ p, Settles (fun v => v == .leave) (body p)) (rest : List FeaturePtr) :
    ∀ kept, Settles (fun complete => !complete) (sweep body kept rest) := by
  induction rest with
  | nil => exact fun kept => .of_pure rfl
  | cons p rest ih =>
    intro kept
    refine (h p).bind (fun v hv => ?_) (fun v hv => ?_)
    · cases v with
      | keep => exact ih _
      | drop => exact (silent_setProposalVec _).then fun _ => ih _
      | leave => exact absurd hv (by decide)
    · cases v with
      | keep => exact absurd hv (by decide)
      | drop => exact absurd hv (by decide)
      | leave => exact ⟨false, rfl, rfl⟩

theorem silent_sweep {body : FeaturePtr → Update σ Verdict} (h : ∀ p, Silent (body p))
    (rest : List FeaturePtr) : ∀ kept, Silent (sweep body kept rest) := by
  induction rest with
  | nil => exact fun kept => .of_pure _
  | cons p rest ih =>
    intro kept
    refine (h p).bind fun v => ?_
    cases v with
    | keep => exact ih _
    | drop => exact (silent_setProposalVec _).bind fun _ => ih _
    | leave => exact .of_pure _

theorem settles_drop (p : FeaturePtr) :
    Settles (fun v => v == .leave) (do markDeleted p; return .drop : Update σ Verdict) :=
  (silent_markDeleted p).then fun _ => .of_pure rfl

theorem Settles.then_leave {x : Update σ Unit} (hx : Settles (fun _ => true) x) :
    Settles (fun v => v == .leave) (do x; return .leave : Update σ Verdict) :=
  hx.bind (fun _ h => absurd h (by simp)) fun _ _ => ⟨.leave, rfl, rfl⟩

theorem settles_cleanFeature (p : FeaturePtr) :
    Settles (fun v => v == .leave) (cleanFeature C true p) := by
  refine .of_get fun s => (silent_writeFeature _ _).then fun _ => ?_
  refine .ite (.then_leave ?_) (.ite (settles_drop p) (.of_pure rfl))
  exact settles_finishRecordedZeroRaw C _ _

theorem silent_initializeFeature (x : Nat → Feature → Feature × Except Fault Bool)
    (p : FeaturePtr) : Silent (initializeFeature x p : Update σ Bool) := by
  refine silent_nextTick.bind fun n => .of_get fun s => ?_
  exact (silent_writeFeature _ _).bind fun _ => silent_call _

theorem silent_triangulateFeature (refineFeatures : Bool) (p : FeaturePtr) :
    Silent (triangulateFeature C refineFeatures p) := by
  refine (silent_initializeFeature _ p).bind fun triangulated => .bind ?_ fun refined => ?_
  · exact .ite (silent_initializeFeature _ p) (.of_pure _)
  · refine .ite ?_ (.of_pure _)
    exact (silent_markDeleted p).bind fun _ => .of_pure _

theorem silent_promotePhase0 : Silent (promotePhase0 C) := by
  refine .of_get fun s => ?_
  cases s.phase0 with
  | none => exact silent_latchTraceFatal (by decide) _
  | some snapshot =>
    refine (silent_callOrLatch _ (by decide) _).bind fun payload => .bind ?_ fun _ => ?_
    · exact .of_modify fun _ => ⟨rfl, rfl, rfl, rfl, rfl⟩
    refine (silent_call _).bind fun valid => (silent_call _).bind fun projection => ?_
    cases projection with
    | none => exact silent_latchTraceFatal (by decide) _
    | some prior => exact .of_modify fun _ => ⟨rfl, rfl, rfl, rfl, rfl⟩

theorem silent_captureRawSystem (recorded : Bool) (raw : CP2RawFeatureSystem) :
    Silent (captureRawSystem C recorded raw) := by
  refine .bind (.of_onlyIf ?_) fun _ => ?_
  · exact (silent_callOrLatch _ (by decide) _).bind fun payload => silent_modifyRecord _
  · exact .of_modify fun _ => ⟨rfl, rfl, rfl, rfl, rfl⟩

theorem silent_linearizeFeature (recorded shadowEnabled : Bool) (f : Feature) :
    Silent (linearizeFeature C recorded shadowEnabled f) := by
  refine .of_get fun s => .bind (.of_onlyIf (silent_promotePhase0 C)) fun _ => ?_
  refine silent_nextTick.bind fun n => (silent_call _).bind fun l => .of_get fun s => ?_
  refine .ite (silent_throw _) (.bind (silent_modifyEvent ?_) fun _ => ?_)
  · exact fun _ => rfl
  refine (silent_checked _).bind fun layout => .bind (.of_onlyIf ?_) fun _ => ?_
  · exact silent_captureRawSystem C _ _
  · exact .of_pure _

theorem silent_acceptFeature (capacity : Capacity) (f : Feature) (r : Reduced)
    (order : Order) : Silent (acceptFeature C capacity f r order) := by
  refine .bind (.of_modify fun _ => ⟨rfl, rfl, rfl, rfl, rfl⟩) fun _ => ?_
  refine .of_get fun s => (silent_checked _).bind fun system => ?_
  exact .of_modify fun _ => ⟨rfl, rfl, rfl, rfl, rfl⟩

variable (options : UpdaterOptions)

theorem settles_processFeature (shadowEnabled : Bool) (capacity : Capacity) (p : FeaturePtr) :
    Settles (fun v => v == .leave) (processFeature C options true shadowEnabled capacity p) := by
  refine .of_get fun s => (silent_linearizeFeature C _ _ _).then fun l => ?_
  refine .ite (.then_leave (settles_finishRecordedNoncommit C _ _)) ?_
  refine silent_nextTick.then fun n => (silent_call _).then fun reduced => ?_
  cases reduced with
  | none => exact settles_drop p
  | some r =>
    refine .of_get fun s => (silent_call _).then fun gate => ?_
    refine .ite (settles_drop p) ?_
    exact (silent_acceptFeature C _ _ _ _).then fun _ => .of_pure rfl

theorem settles_processFeatures (shadowEnabled : Bool) (capacity : Capacity) :
    Settles (fun complete => !complete) (processFeatures C options true shadowEnabled capacity) := by
  refine .of_get fun s => .bind
    (settles_sweep (settles_processFeature C options shadowEnabled capacity) _ _)
    (fun complete hcomplete => ?_) (fun complete hcomplete => ?_)
  · refine Silent.then (Silent.of_onlyIf (Silent.of_modify fun s => ?_)) fun _ =>
      Settles.of_pure hcomplete
    split <;> exact ⟨rfl, rfl, rfl, rfl, rfl⟩
  · cases complete with
    | true => exact absurd hcomplete (by decide)
    | false => exact ⟨false, rfl, rfl⟩

variable (table : ChiSquaredTable)

theorem silent_prepareShadow (recorded shadowEnabled : Bool) :
    Silent (prepareShadow C options table recorded shadowEnabled) := by
  refine .bind (.of_onlyIf ((silent_call _).bind fun phase0 => ?_)) fun _ =>
    .of_onlyIf (.of_modify fun _ => ⟨rfl, rfl, rfl, rfl, rfl⟩)
  exact .of_modify fun _ => ⟨rfl, rfl, rfl, rfl, rfl⟩

theorem Settles.then_none {x : Update σ Unit} (hx : Settles (fun _ => true) x) :
    Settles (fun result => result.isNone) (do x; return none : Update σ (Option α)) :=
  hx.bind (fun _ h => absurd h (by simp)) fun _ _ => ⟨none, rfl, rfl⟩

theorem settles_linearSystem (shadowEnabled : Bool) (capacity : Capacity) (result : α) :
    Settles (fun r => r.isNone) (do
      call C.allocateSystem
      modify fun s => { s with system := .allocate capacity }
      prepareShadow C options table true shadowEnabled
      if !(← processFeatures C options true shadowEnabled capacity) then return none
      else return some result : Update σ (Option α)) := by
  refine (silent_call _).then fun _ => Silent.then ?_ fun _ => ?_
  · exact Silent.of_modify fun _ => ⟨rfl, rfl, rfl, rfl, rfl⟩
  refine (silent_prepareShadow C options table _ _).then fun _ => ?_
  refine (settles_processFeatures C options shadowEnabled capacity).bind
    (fun complete hcomplete => ?_) (fun complete hcomplete => ?_)
  · cases complete with
    | false => exact absurd hcomplete (by decide)
    | true => exact .of_pure rfl
  · cases complete with
    | true => exact absurd hcomplete (by decide)
    | false => exact ⟨none, rfl, rfl⟩

theorem settles_runPipeline (shadowEnabled : Bool) :
    Settles (fun result => result.isNone) (runPipeline C options table true shadowEnabled) := by
  have hclean : Settles (fun complete => !complete) (cleanFeatures C true) :=
    .of_get fun s => settles_sweep (settles_cleanFeature C) _ _
  have htriangulate : Silent (triangulateFeatures C options.refineFeatures) :=
    .of_get fun s => silent_sweep (silent_triangulateFeature C _) _ _
  refine hclean.bind (fun complete hcomplete => ?_) (fun complete hcomplete => ?_)
  · cases complete with
    | false => exact absurd hcomplete (by decide)
    | true =>
      refine .of_get fun s => (silent_call _).then fun _ => ?_
      refine htriangulate.then fun _ => .of_get fun s => ?_
      cases capacityOf C (s.proposalVec.map s.heap) with
      | none => exact .then_none (settles_finishRecordedZeroRaw C _ _)
      | some capacity => exact settles_linearSystem C options table shadowEnabled capacity _
  · cases complete with
    | true => exact absurd hcomplete (by decide)
    | false => exact ⟨none, rfl, rfl⟩

/-! ## The commit -/

/-- Like `Quiet`, but the state was written. -/
structure Wrote (s t : Call σ) : Prop where
  published : t.published = s.published
  recordPublished : t.recordPublished = s.recordPublished
  updater : t.updater = s.updater
  identity : eventIdentity t.event = eventIdentity s.event

def Committed (s t : Call σ) : Prop :=
  ∃ record, t.published = s.published ++ [⟨record, .kPublished⟩] ∧
    eventIdentity record.update = eventIdentity s.event ∧
    record.update.terminalStatus = .kCommittedCounted ∧ Kept s.updater t.updater

theorem Committed.published {s t u : Call σ} (h : Wrote s t) (h' : Committed t u) :
    Published s u := by
  obtain ⟨record, hpublished, hidentity, hstatus, hkept⟩ := h'
  exact ⟨record, h.published ▸ hpublished, hidentity.trans h.identity, .inr hstatus,
    h.updater ▸ hkept⟩

theorem Failed.of_wrote {e : Exn} (h : Wrote s t) (h' : Failed t u e) : Failed s u e := by
  unfold Failed at *
  rw [h.published, h.updater] at h'
  exact h'

theorem Committed.of_quiet (h : Quiet s t) (h' : Committed t u) : Committed s u := by
  obtain ⟨record, hpublished, hidentity, hstatus, hkept⟩ := h'
  exact ⟨record, h.published ▸ hpublished, hidentity.trans h.identity, hstatus,
    h.updater ▸ hkept⟩

/-- A piece behind the write of the state: it publishes the record of the commit or fails. -/
def Commits (x : Update σ Unit) : Prop :=
  ∀ s, s.recordPublished = false → s.updater.updateActive = true →
    wp x (fun _ t => Committed s t) (fun e t => Failed s t e) s

theorem Silent.commits {f : α → Update σ Unit} {s : Call σ} (hx : Silent x)
    (hf : ∀ a t, Quiet s t → wp (f a) (fun _ u => Committed t u) (fun e u => Failed t u e) t) :
    wp (x >>= f) (fun _ t => Committed s t) (fun e t => Failed s t e) s := by
  rw [wp_bind]
  refine wp_mono (hx s) (fun a t ht => ?_) (fun e t he => he)
  exact wp_mono (hf a t ht) (fun _ u hu => hu.of_quiet ht) (fun e u hu => hu.of_quiet ht)

theorem commits_latchTraceFatal (h : reason ≠ .kNone)
    (message : String) : Commits (latchTraceFatal reason message : Update σ Unit) :=
  fun s _ _ => wp_mono (wp_latchTraceFatal h message s) (fun _ _ hfalse => hfalse.elim)
    (fun _ _ he => he)

theorem commits_publishRecord (g : CP2RecordedUpdateEvent → CP2RecordedUpdateEvent)
    (event : CP2LiveUpdateEvent) (hg : ∀ record, (g record).update = event)
    (hstatus : event.terminalStatus = .kCommittedCounted) (s : Call σ)
    (hs : s.recordPublished = false) (hactive : s.updater.updateActive = true)
    (hevent : eventIdentity event = eventIdentity s.event) :
    wp (do modifyRecord g; publishRecord C) (fun _ t => Committed s t)
      (fun e t => Failed s t e) s := by
  simp only [wp_bind, modifyRecord, wp_modify]
  refine wp_mono (wp_publishRecord C hs hactive) (fun _ t ht => ?_) (fun e t he => he)
  exact ⟨g s.record, ht.1, by rw [hg, hevent], by rw [hg, hstatus], ht.2.2⟩

theorem commits_publishCommitted (phase2 phase3 : CP2CompositeStateSnapshot)
    (typeUpdateCalls : UInt64) : Commits (publishCommitted C phase2 phase3 typeUpdateCalls) := by
  intro s₀ hs₀ hactive₀
  refine (silent_modifyRecord _).commits fun _ s₁ hs₁ => ?_
  unfold modifyEvent
  rw [wp_bind, wp_modify, wp_bind, wp_get]
  -- the event that the record will carry
  set s : Call σ := { s₁ with event := captureDuration C { s₁.event with
    terminalStatus := .kCommittedCounted
    terminalSubreason := .kNone
    baselineCommitOccurred := true } }
  have hquiet : Quiet s₁ s := ⟨rfl, rfl, rfl, rfl, rfl⟩
  have hrecord : s.recordPublished = false := hs₁.recordPublished.trans hs₀
  have hactive : s.updater.updateActive = true := by
    rw [hquiet.updater, hs₁.updater, hactive₀]
  refine wp_mono (Q := fun _ t => Committed s t) (E := fun e t => Failed s t e) ?_
    (fun _ t ht => ht.of_quiet hquiet) (fun e t he => he.of_quiet hquiet)
  split
  · exact commits_latchTraceFatal (by decide) _ s hrecord hactive
  refine (silent_callOrLatch _ (by decide) _).commits fun payload s₂ hs₂ => ?_
  refine (silent_modifyRecord _).commits fun _ s₃ hs₃ => ?_
  refine (silent_call _).commits fun oracle s₄ hs₄ => ?_
  have h₄ : Quiet s s₄ := (hs₂.trans hs₃).trans hs₄
  have hrecord₄ : s₄.recordPublished = false := h₄.recordPublished.trans hrecord
  have hactive₄ : s₄.updater.updateActive = true := h₄.updater ▸ hactive
  split
  · exact commits_latchTraceFatal (by decide) _ s₄ hrecord₄ hactive₄
  split
  · exact commits_latchTraceFatal (by decide) _ s₄ hrecord₄ hactive₄
  · exact commits_publishRecord C _ s.event (fun _ => rfl) rfl s₄ hrecord₄ hactive₄
      h₄.identity.symm

/-! ### The boundary -/

theorem wp_commitBoundary (s : Call σ) :
    wp (commitBoundary C) (fun status t => if status = .kProofRejected then Quiet s t else Wrote s t)
      (fun e t => Failed s t e) s := by
  unfold commitBoundary
  rw [wp_bind]
  refine wp_mono (silent_call _ s) (fun proof t ht => ?_) (fun e t he => he)
  split
  · simpa using ht
  · rw [wp_bind, wp_get, wp_bind, wp_modify, wp_bind]
    cases (C.ekfUpdate t.state).2 with
    | error f => exact ⟨ht.updater ▸ .refl _, ht.published⟩
    | ok _ =>
      simp only [call, wp_pure]
      rw [if_neg (by split_ifs <;> decide)]
      exact ⟨ht.published, ht.recordPublished, ht.updater, ht.identity⟩

theorem silent_unplanCommit : Silent (unplanCommit : Update σ Unit) :=
  silent_modifyEvent fun _ => rfl

theorem Settles.after {x : Update σ Unit} (hx : Settles (fun _ => true) x) {s t : Call σ}
    (h : Quiet s t) (hs : s.recordPublished = false) (hactive : s.updater.updateActive = true) :
    wp x (fun _ u => Published s u) (fun e u => Failed s u e) t := by
  refine wp_mono (hx t (h.recordPublished.trans hs) (h.updater ▸ hactive)) (fun _ u hu => ?_)
    (fun e u he => he.of_quiet h)
  exact .of_quiet h hu

theorem Commits.after {x : Update σ Unit} (hx : Commits x) {s t : Call σ} (h : Wrote s t)
    (hs : s.recordPublished = false) (hactive : s.updater.updateActive = true) :
    wp x (fun _ u => Published s u) (fun e u => Failed s u e) t :=
  wp_mono (hx t (h.recordPublished.trans hs) (h.updater ▸ hactive))
    (fun _ _ hu => Committed.published h hu) (fun _ _ he => he.of_wrote h)

theorem settles_commitRecorded (phase2 : CP2CompositeStateSnapshot)
    (payload2 : List UInt8) (typeUpdateCalls : UInt64) :
    Settles (fun _ => true) (commitRecorded C phase2 payload2 typeUpdateCalls) := by
  refine (silent_callOrLatch _ (by decide) _).then fun _ => ?_
  refine (silent_modifyRecord _).then fun _ => Silent.then ?_ fun _ => ?_
  · exact Silent.of_modify fun _ => ⟨rfl, rfl, rfl, rfl, rfl⟩
  intro s hs hactive
  rw [wp_bind]
  refine wp_mono (wp_commitBoundary C s) (fun status t ht => ?_) (fun e t he => he)
  simp only [if_true]
  by_cases hproof : status = .kProofRejected
  · rw [if_pos hproof] at ht ⊢
    refine Settles.after ?_ ht hs hactive
    refine Silent.then (Silent.of_modify fun _ => ⟨rfl, rfl, rfl, rfl, rfl⟩) fun _ => ?_
    refine (silent_modifyRecord _).then fun _ => silent_unplanCommit.then fun _ => ?_
    exact settles_publishInstalledRecordedNoncommit C _ _
  · rw [if_neg hproof] at ht ⊢
    cases C.postcommit.snapshot with
    | none => exact (commits_latchTraceFatal (by decide) _).after ht hs hactive
    | some phase3 =>
      by_cases hfill : status = .kCommittedFillSucceeded
      · simp only [hfill, ne_eq, not_true_eq_false, if_false]
        exact (commits_publishCommitted C phase2 phase3 typeUpdateCalls).after ht hs hactive
      · simp only [hfill, ne_eq, not_false_eq_true, if_true]
        exact (commits_latchTraceFatal (by decide) _).after ht hs hactive

theorem settles_abandonCommit : Settles (fun _ => true) (abandonCommit C) :=
  silent_unplanCommit.then fun _ => settles_finishRecordedNoncommit C _ _

theorem settles_prepareRecordedCommit (phase2 : CP2CompositeStateSnapshot)
    (typeUpdateCalls : UInt64) :
    Settles (fun _ => true) (prepareRecordedCommit C phase2 typeUpdateCalls) := by
  refine (silent_callOrLatch _ (by decide) _).then fun payload2 => ?_
  refine (silent_call _).then fun prepared => .ite (settles_abandonCommit C) ?_
  refine (silent_captureRecordedPhase1 C).then fun phase1 => .ite ?_ ?_
  · refine (silent_call _).then fun pointerEqual => ?_
    refine (silent_installRecordedPhase01 C _ _ _).then fun _ => ?_
    exact silent_unplanCommit.then fun _ => settles_publishInstalledRecordedNoncommit C _ _
  · refine (silent_installRecordedPhase01 C _ _ _).then fun _ => ?_
    exact settles_commitRecorded C _ _ _

theorem settles_recordedCommit (preview : MSCKFUpdatePreviewResult) :
    Settles (fun _ => true) (recordedCommit C preview) := by
  refine (silent_callOrLatch _ (by decide) _).then fun payload => Silent.then ?_ fun _ => ?_
  · exact Silent.of_modify fun _ => ⟨rfl, rfl, rfl, rfl, rfl⟩
  refine .of_get fun s => .ite (settles_abandonCommit C) ?_
  cases s.phase0 with
  | none => exact settles_throw _ _
  | some phase0 =>
    refine (silent_call _).then fun expected => ?_
    cases expected with
    | none => exact settles_abandonCommit C
    | some expected =>
      refine (silent_call _).then fun valid => .ite (settles_abandonCommit C) ?_
      exact settles_prepareRecordedCommit C _ _

/-! ## Behind the pipeline -/

theorem silent_recordShadow (result : ShadowResult) : Silent (recordShadow C result) := by
  refine .of_get fun s => .bind ?_ fun _ => ?_
  · exact .of_modify fun _ => ⟨rfl, rfl, rfl, rfl, rfl⟩
  refine .ite (silent_latchTraceFatal (by decide) _) (.bind ?_ fun _ => ?_)
  · exact .of_modify fun _ => ⟨rfl, rfl, rfl, rfl, rfl⟩
  refine .bind (.of_onlyIf ?_) fun _ => .of_onlyIf ?_
  · refine (silent_callOrLatch _ (by decide) _).bind fun payload => ?_
    exact .of_modify fun _ => ⟨rfl, rfl, rfl, rfl, rfl⟩
  · exact (silent_callOrLatch _ (by decide) _).bind fun payload => silent_modifyRecord _

theorem silent_runShadow (recorded : Bool) : Silent (runShadow C recorded) := by
  refine .of_get fun s => .bind (silent_modifyEvent fun _ => rfl) fun _ => ?_
  cases C.shadow s.shadowInput with
  | error f => exact .of_onlyIf (silent_latchTraceFatal (by decide) _)
  | ok result =>
    refine .bind (.of_modify fun _ => ⟨rfl, rfl, rfl, rfl, rfl⟩) fun _ => ?_
    exact .of_onlyIf (silent_recordShadow C result)

theorem silent_markRemaining (features : List FeaturePtr) :
    Silent (markRemaining features : Update σ Unit) := by
  induction features with
  | nil => exact .of_pure _
  | cons p rest ih => exact (silent_markDeleted p).bind fun _ => ih

theorem silent_requireEmptyShadow : Silent (requireEmptyShadow : Update σ Unit) :=
  .of_modify fun _ => ⟨rfl, rfl, rfl, rfl, rfl⟩

theorem silent_notePreview (preview : MSCKFUpdatePreviewResult) (planned : Bool) :
    Silent (notePreview preview planned : Update σ Unit) :=
  silent_modifyEvent fun event => by split <;> rfl

theorem silent_notePrecompressionRows (recorded : Bool) :
    Silent (notePrecompressionRows recorded : Update σ Unit) :=
  .of_modify fun s => by
    split
    · exact .refl s
    · exact ⟨rfl, rfl, rfl, rfl, rfl⟩

theorem settles_leaveAllRejected (afterCleaning afterTriangulation : Bool) :
    Settles (fun _ => true) (leaveAllRejected C true afterCleaning afterTriangulation) := by
  refine Settles.of_get fun s => (Silent.of_onlyIf silent_requireEmptyShadow).then fun _ => ?_
  rw [if_pos rfl]
  refine .ite ?_ ?_
  · exact settles_finishRecordedZeroRaw C _ _
  · exact settles_finishRecordedNoncommit C _ _

theorem settles_onePassUpdate (H : MatrixXd)
    (residual : VectorXd) : Settles (fun _ => true) (onePassUpdate C options true H residual) := by
  refine Silent.then (silent_modifyEvent fun _ => rfl) fun _ => Settles.of_get fun s => ?_
  cases capturePreviewLayout s.system.Hx_order_big with
  | error _ => exact settles_finishRecordedNoncommit C _ _
  | ok layout =>
    refine (silent_call _).then fun preview => Silent.then (Silent.of_onlyIf ?_) fun _ => ?_
    · exact Silent.of_modify fun _ => ⟨rfl, rfl, rfl, rfl, rfl⟩
    refine .ite ?_ ?_
    · exact (silent_notePreview _ _).then fun _ => settles_finishRecordedNoncommit C _ _
    · refine Silent.then (silent_modifyEvent fun _ => rfl) fun _ => ?_
      exact (silent_notePreview _ _).then fun _ => settles_recordedCommit C preview

theorem settles_compressAndUpdate : Settles (fun _ => true) (compressAndUpdate C options true) := by
  refine (silent_call _).then fun _ => .of_get fun s => ?_
  refine Silent.then (silent_modifyEvent fun _ => rfl) fun _ => Settles.ite ?_ ?_
  · exact silent_requireEmptyShadow.then fun _ => settles_finishRecordedNoncommit C _ _
  · refine Silent.then (silent_modifyEvent fun _ => rfl) fun _ => ?_
    -- the two-pass branch is for ordinary mode only
    rw [if_neg (by simp)]
    exact settles_onePassUpdate C options _ _

theorem settles_updateWithSystem (afterCleaning afterTriangulation : Bool) :
    Settles (fun _ => true) (updateWithSystem C options true afterCleaning afterTriangulation) := by
  refine Settles.of_get fun s => (Silent.of_onlyIf (silent_runShadow C _)).then fun _ => ?_
  refine Settles.of_get fun s => (silent_markRemaining _).then fun _ => ?_
  refine (silent_notePrecompressionRows _).then fun _ => .of_get fun s => ?_
  exact .ite (settles_leaveAllRejected C _ _) (settles_compressAndUpdate C options)

theorem settles_updateBody (shadowEnabled : Bool) :
    Settles (fun _ => true) (updateBody C options table true shadowEnabled) := by
  refine .of_get fun s => .ite ?_ ?_
  · exact settles_finishRecordedZeroRaw C _ _
  rw [if_pos rfl, pure_bind, if_neg (by simp)]
  refine (settles_runPipeline C options table shadowEnabled).bind (fun result hresult => ?_)
    (fun result hresult => ?_)
  · cases result with
    | none => exact absurd hresult (by simp)
    | some known => exact settles_updateWithSystem C options known.1 known.2
  · cases result with
    | none => exact ⟨⟨⟩, rfl, rfl⟩
    | some known => exact absurd hresult (by simp)

/-! ## The call -/

/-- The call ends with the latch set; at most one record was offered, and it was rejected. -/
def Latched (s t : Call σ) (e : Exn) : Prop :=
  Kept s.updater t.updater ∧
    (t.published = s.published ∨ ∃ record, t.published = s.published ++ [⟨record, .kRejected⟩]) ∧
    t.updater.traceFatalReason ≠ .kNone ∧ ∃ message, e = .fatal t.updater.traceFatalReason message

theorem latched_latchTraceFatal (h : reason ≠ .kNone)
    (message : String) (s : Call σ) {Q : α → Call σ → Prop} :
    wp (latchTraceFatal reason message : Update σ α) Q (fun e t => Latched s t e) s := by
  simp only [latchTraceFatal, modifyUpdater, wp_bind, wp_modify, wp_get, wp_throw]
  exact ⟨.latch _ _, .inl rfl, latch_ne_none _ h, message, rfl⟩

theorem handlerReason_ne_none (f : Fault) (liveCommitStarted : Bool) :
    (handlerReason f liveCommitStarted).1 ≠ .kNone := by
  cases f <;> cases liveCommitStarted <;> decide

theorem latched_handle {s t : Call σ} {e : Exn} (h : Failed s t e)
    {Q : Unit → Call σ → Prop} : wp (handle C true e) Q (fun e t => Latched s t e) t := by
  cases e with
  | fatal reason message =>
    obtain ⟨hkept, hpublished, hreason, rfl⟩ := h
    exact ⟨hkept, hpublished, hreason, message, rfl⟩
  | fault f =>
    obtain ⟨hkept, hpublished⟩ := h
    simp only [handle, wp_bind, wp_get, if_true]
    refine wp_mono (latched_latchTraceFatal (handlerReason_ne_none f t.liveCommitStarted) _ t
      (Q := Q)) (fun _ _ hq => hq) (fun e u hu => ?_)
    obtain ⟨hkept', hpublished', hreason⟩ := hu
    rw [hpublished] at hpublished'
    exact ⟨hkept.trans hkept', hpublished', hreason⟩

theorem wp_activeUpdate {s : Call σ} (hs : s.recordPublished = false)
    (hactive : s.updater.updateActive = true) (hrecorded : s.updater.recordedSink = true)
    (hmode : s.updater.options.landmarkElimination = .NULLSPACE) :
    wp (activeUpdate C)
      (fun _ t => ∃ context record, s.updater.pendingInvocationContext = some context ∧
        s.updater.nextInvocationId.toNat + 1 < 2 ^ 64 ∧
        t.published = s.published ++ [⟨record, .kPublished⟩] ∧
        eventIdentity record.update = eventIdentity
          (startEvent (some (context, s.updater.nextInvocationId)) s.featureVec.length) ∧
        (t.state = s.state ∨ record.update.terminalStatus = .kCommittedCounted) ∧
        Kept s.updater.consumeContext.2.2 t.updater)
      (fun e t => Latched { s with updater := s.updater.consumeContext.2.2 } t e) s := by
  unfold activeUpdate
  rw [wp_bind, wp_get]
  simp only [hrecorded, Bool.true_or, wp_bind, wp_modify, Bool.true_and, if_true]
  cases hpending : s.updater.pendingInvocationContext with
  | none =>
    simp only [consumeContext, hpending, Bool.false_eq_true, if_false,
      Option.isNone_none, if_true]
    exact latched_latchTraceFatal (by decide) _ _
  | some context =>
    by_cases hoverflow : s.updater.nextInvocationId.toNat + 1 = 2 ^ 64
    · simp only [consumeContext, hpending, hoverflow, decide_true, if_true]
      exact latched_latchTraceFatal (by decide) _ _
    simp only [consumeContext, hpending, hoverflow, decide_false, hmode,
      Bool.false_eq_true, if_false, Option.isNone_some, ne_eq, not_true_eq_false, onlyIf, if_true]
    have hid : s.updater.nextInvocationId.toNat + 1 < 2 ^ 64 := by
      have := s.updater.nextInvocationId.toNat_lt
      omega
    cases C.allocateRecord with
    | error _ => exact latched_latchTraceFatal (by decide) _ _
    | ok _ =>
      simp only [callOrLatch, pure_bind, wp_bind, wp_modify, wp_catching]
      refine wp_mono (settles_updateBody C _ _ _ _ hs hactive) (fun _ t ht => ?_)
        (fun e t ht => latched_handle C ht)
      obtain ⟨record, hpublished, hidentity, hstate, hkept⟩ := ht
      exact ⟨context, record, rfl, hid, hpublished, hidentity, hstate, hkept⟩

/-! ## Whole calls -/

structure Recorded (u : UpdaterMSCKF) : Prop where
  sink : u.recordedSink = true
  mode : u.options.landmarkElimination = .NULLSPACE
  inactive : u.updateActive = false

/-- The record carries the invocation context and the id that the call took. -/
def Carries (record : CP2RecordedUpdateEvent) (context : CP2UpdateInvocationContext)
    (id : UInt64) : Prop :=
  eventIdentity record.update =
    (true, context.sequenceIndex, context.pairIndex, context.cameraTimestampNs, id)

/-- A call that returned: its one record was accepted and carries the context it consumed. -/
structure CallReturned (w w' : World σ) (context : CP2UpdateInvocationContext)
    (record : CP2RecordedUpdateEvent) : Prop where
  pending : w.updater.pendingInvocationContext = some context
  consumed : w'.updater.pendingInvocationContext = none
  representable : w.updater.nextInvocationId.toNat + 1 < 2 ^ 64
  nextInvocationId : w'.updater.nextInvocationId = w.updater.nextInvocationId + 1
  published : w'.published = w.published ++ [⟨record, .kPublished⟩]
  carries : Carries record context w.updater.nextInvocationId
  state : w'.state = w.state ∨ record.update.terminalStatus = .kCommittedCounted

/-- A call that threw: the exception is fatal and latched, and no record was accepted. -/
structure CallLatched (w w' : World σ) (result : CallResult) : Prop where
  latched : w'.updater.traceFatalReason ≠ .kNone
  fatal : ∃ message, result = .threw (.fatal w'.updater.traceFatalReason message)
  published : w'.published = w.published ∨
    ∃ record, w'.published = w.published ++ [⟨record, .kRejected⟩]
  pending : w'.updater.pendingInvocationContext = w.updater.pendingInvocationContext ∨
    w'.updater.pendingInvocationContext = none

structure CallRefused (w w' : World σ) (result : CallResult) : Prop where
  fatal : ∃ message, result = .threw (.fatal w.updater.traceFatalReason message)
  reason : w'.updater.traceFatalReason = w.updater.traceFatalReason
  published : w'.published = w.published
  state : w'.state = w.state
  pending : w'.updater.pendingInvocationContext = w.updater.pendingInvocationContext
  nextInvocationId : w'.updater.nextInvocationId = w.updater.nextInvocationId

theorem consumeContext_fields (u : UpdaterMSCKF) :
    u.consumeContext.2.2.pendingInvocationContext = none ∧
      u.consumeContext.2.2.recordedSink = u.recordedSink ∧
      u.consumeContext.2.2.options = u.options ∧
      u.consumeContext.2.2.traceFatalReason = u.traceFatalReason ∧
      u.consumeContext.2.2.updateActive = u.updateActive := by
  unfold consumeContext
  cases h : u.pendingInvocationContext with
  | none => exact ⟨h, rfl, rfl, rfl, rfl⟩
  | some context => exact ⟨rfl, rfl, rfl, rfl, rfl⟩

theorem runUpdate_eq (w : World σ) (P : CallResult → World σ → Prop)
    (h : wp (update C) (fun _ t => P .returned t.toWorld) (fun e t => P (.threw e) t.toWorld)
      { toWorld := w }) : P (runUpdate C w).1 (runUpdate C w).2 := by
  unfold wp EStateM.run at h
  unfold runUpdate
  cases hrun : update C { toWorld := w } with
  | ok _ t =>
    rw [hrun] at h
    exact h
  | error e t =>
    rw [hrun] at h
    exact h

theorem Recorded.frozen {u : UpdaterMSCKF} (h : Recorded u) :
    Recorded { u with configurationFrozen := true } := ⟨h.sink, h.mode, h.inactive⟩

theorem runUpdate_latched {w : World σ} (hw : Recorded w.updater)
    (hlatched : w.updater.traceFatalReason ≠ .kNone) :
    CallRefused w (runUpdate C w).2 (runUpdate C w).1 ∧ Recorded (runUpdate C w).2.updater := by
  refine runUpdate_eq C w (fun result w' => CallRefused w w' result ∧ Recorded w'.updater) ?_
  have htrue : w.updater.traceFatalLatched = true := by simpa [traceFatalLatched]
  unfold update
  rw [wp_bind, wp_get]
  cases hstart : C.start.valid with
  | false =>
    simp only [enter, hstart, latch, hlatched, if_false, Bool.not_false, if_true,
      Bool.false_eq_true, wp_bind, wp_modify, wp_throw]
    exact ⟨⟨⟨_, rfl⟩, rfl, rfl, rfl, rfl, rfl⟩, hw.frozen⟩
  | true =>
    have htrue' : ({ w.updater with configurationFrozen := true } : UpdaterMSCKF).traceFatalLatched
        = true := htrue
    simp only [enter, hstart, Bool.not_true, if_true, Bool.false_eq_true, if_false, htrue',
      wp_bind, wp_modify, wp_throw]
    exact ⟨⟨⟨_, rfl⟩, rfl, rfl, rfl, rfl, rfl⟩, hw.frozen⟩

theorem runUpdate_cases {w : World σ} (hw : Recorded w.updater)
    (hlatched : w.updater.traceFatalReason = .kNone) :
    (((runUpdate C w).1 = .returned ∧
        ∃ context record, CallReturned w (runUpdate C w).2 context record) ∨
      CallLatched w (runUpdate C w).2 (runUpdate C w).1) ∧
    Recorded (runUpdate C w).2.updater := by
  refine runUpdate_eq C w (fun result w' => ((result = .returned ∧
    ∃ context record, CallReturned w w' context record) ∨ CallLatched w w' result) ∧
    Recorded w'.updater) ?_
  unfold update
  rw [wp_bind, wp_get]
  cases hstart : C.start.valid with
  | false =>
    simp only [enter, hstart, latch, hlatched, Bool.not_false, if_true,
      Bool.false_eq_true, if_false, wp_bind, wp_modify, wp_throw]
    exact ⟨.inr ⟨by simp, ⟨_, rfl⟩, .inl rfl, .inl rfl⟩, hw.sink, hw.mode, hw.inactive⟩
  | true =>
    set u : UpdaterMSCKF := { w.updater with configurationFrozen := true } with hu
    have hfalse : u.traceFatalLatched = false := by
      simp [hu, traceFatalLatched, hlatched]
    have hinactive : u.updateActive = false := hw.inactive
    simp only [enter, hstart, Bool.not_true, if_true, Bool.false_eq_true, if_false, ← hu,
      hfalse, hinactive, wp_bind, wp_modify, wp_guarded]
    -- the updater that the body runs with
    set v : UpdaterMSCKF := { u with updateActive := true }
    obtain ⟨hpending, hsink, hoptions, -, -⟩ := consumeContext_fields v
    have hafter : ∀ t : Call σ, Kept v.consumeContext.2.2 t.updater →
        Recorded t.deactivate.updater := fun t ht =>
      ⟨(ht.recordedSink.trans hsink).trans hw.sink,
        by rw [← hw.mode]; exact congrArg _ (ht.options.trans hoptions), rfl⟩
    refine wp_mono (wp_activeUpdate C rfl rfl hw.sink hw.mode) (fun _ t ht => ?_)
      (fun e t ht => ?_)
    · obtain ⟨context, record, hcontext, hid, hpublished, hidentity, hstate, hkept⟩ := ht
      have hcontext' : v.pendingInvocationContext = some context := hcontext
      have hnext : v.consumeContext.2.2.nextInvocationId = v.nextInvocationId + 1 := by
        simp only [consumeContext, hcontext']
        rw [if_neg]
        exact fun h => absurd (of_decide_eq_true h) (Nat.ne_of_lt hid)
      refine ⟨.inl ⟨trivial, context, record, hcontext, hkept.pending.trans hpending, hid,
        hkept.nextInvocationId.trans hnext, hpublished, hidentity, hstate⟩, hafter t hkept⟩
    · obtain ⟨hkept, hpublished, hreason, message, rfl⟩ := ht
      exact ⟨.inr ⟨hreason, ⟨message, rfl⟩, hpublished, .inr (hkept.pending.trans hpending)⟩,
        hafter t hkept⟩

end Bravo.Updater
