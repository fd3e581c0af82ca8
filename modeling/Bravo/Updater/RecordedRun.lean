import Bravo.Updater.Recorded

/-! # Runs of a recorded updater

Any sequence of `set_cp2_invocation_context` and `update`, with arbitrary callees in each call. The
invariant ties together the contexts that were accepted, those that were consumed, and the records
that the sink took.
-/

namespace Bravo.Updater

open Bravo.Trace Bravo.Journal Bravo.Shadow List

variable {σ : Type}

/-! ## Operations -/

/-- What the owner of an updater does with it. The State and the features of a call are the
caller's, and may have changed in any way since the last call. -/
inductive Op (σ : Type)
  | setContext (context : CP2UpdateInvocationContext)
  | update (C : Callees σ) (state : σ) (heap : FeaturePtr → Feature) (featureVec : List FeaturePtr)

def World.given (w : World σ) (state : σ) (heap : FeaturePtr → Feature)
    (featureVec : List FeaturePtr) : World σ :=
  { w with state := state, heap := heap, featureVec := featureVec }

def perform (w : World σ) : Op σ → World σ
  | .setContext context => { w with updater := (w.updater.setInvocationContext context).2 }
  | .update C state heap featureVec => (runUpdate C (w.given state heap featureVec)).2

def Step (w : World σ) (op : Op σ) (w' : World σ) : Prop := w' = perform w op

/-- A new updater with a sink, in nullspace mode. -/
structure Fresh (w : World σ) : Prop where
  recorded : Recorded w.updater
  pending : w.updater.pendingInvocationContext = none
  nextInvocationId : w.updater.nextInvocationId = 0
  traceFatalReason : w.updater.traceFatalReason = .kNone
  published : w.published = []

/-! ## Accounts -/

def Accepted (e : Entry (World σ) (Op σ)) : Option CP2UpdateInvocationContext :=
  match e.input with
  | .setContext context =>
    if (e.pre.updater.setInvocationContext context).1 then some context else none
  | .update .. => none

/-- The context that an operation took away. -/
def Consumed (e : Entry (World σ) (Op σ)) : Option CP2UpdateInvocationContext :=
  match e.input with
  | .setContext _ => none
  | .update .. =>
    if e.post.updater.pendingInvocationContext.isNone then e.pre.updater.pendingInvocationContext
    else none

def publishedRecords (w : World σ) : List CP2RecordedUpdateEvent :=
  (w.published.filter fun p => p.status = .kPublished).map Publication.record

structure Accounts (es : List (Entry (World σ) (Op σ))) (w : World σ) : Prop where
  recorded : Recorded w.updater
  /-- Every accepted context is consumed once, in order, or still pending. -/
  contexts : es.filterMap Consumed ++ w.updater.pendingInvocationContext.toList =
    es.filterMap Accepted
  carries : ∀ (i : Nat) record, (publishedRecords w)[i]? = some record →
    record.update.invocationId.toNat = i ∧
      ∃ context, (es.filterMap Consumed)[i]? = some context ∧
        Carries record context record.update.invocationId
  counted : w.updater.traceFatalReason = .kNone →
    (publishedRecords w).length = (es.filterMap Consumed).length ∧
      w.updater.nextInvocationId.toNat = (es.filterMap Consumed).length

theorem accounts_nil {w : World σ} (h : Fresh w) : Accounts [] w where
  recorded := h.recorded
  contexts := by simp [h.pending]
  carries := by simp [publishedRecords, h.published]
  counted := by simp [publishedRecords, h.published, h.nextInvocationId]

theorem publishedRecords_congr {w w' : World σ} (h : w'.published = w.published) :
    publishedRecords w' = publishedRecords w := by
  unfold publishedRecords
  rw [h]

theorem publishedRecords_append (w w' : World σ) (p : Publication)
    (h : w'.published = w.published ++ [p]) :
    publishedRecords w' = publishedRecords w ++
      (if p.status = .kPublished then [p.record] else []) := by
  unfold publishedRecords
  rw [h, filter_append, map_append]
  cases hstatus : p.status <;> simp [hstatus]

theorem Carries.id {record : CP2RecordedUpdateEvent} {context : CP2UpdateInvocationContext}
    {id : UInt64} (h : Carries record context id) : record.update.invocationId = id :=
  congrArg (fun identity => identity.2.2.2.2) h

theorem filterMap_snoc {α β : Type} (f : α → Option β) (as : List α) (a : α) :
    (as ++ [a]).filterMap f = as.filterMap f ++ (f a).toList := by
  rw [filterMap_append]
  cases h : f a <;> simp [h]

theorem getElem?_append_of_some {α : Type} {as : List α} {i : Nat} {a : α} (h : as[i]? = some a)
    (bs : List α) : (as ++ bs)[i]? = some a := by
  rw [getElem?_append_left (List.getElem?_eq_some_iff.mp h).1, h]

/-! ## One operation -/

section Steps

variable {es : List (Entry (World σ) (Op σ))} {w : World σ} {w' : World σ}

theorem Accounts.of_records (h : Accounts es w) (e : Entry (World σ) (Op σ))
    (hrecorded : Recorded w'.updater) (hpublished : publishedRecords w' = publishedRecords w)
    (hcontexts : (Consumed e).toList ++ w'.updater.pendingInvocationContext.toList =
      w.updater.pendingInvocationContext.toList ++ (Accepted e).toList)
    (hcounted : w'.updater.traceFatalReason = .kNone → w.updater.traceFatalReason = .kNone ∧
      Consumed e = none ∧ w'.updater.nextInvocationId = w.updater.nextInvocationId) :
    Accounts (es ++ [e]) w' where
  recorded := hrecorded
  contexts := by
    rw [filterMap_snoc, filterMap_snoc, append_assoc, hcontexts, ← append_assoc,
      h.contexts]
  carries i record hi := by
    rw [hpublished] at hi
    obtain ⟨hid, context, hcontext, hcarries⟩ := h.carries i record hi
    refine ⟨hid, context, ?_, hcarries⟩
    rw [filterMap_snoc]
    exact getElem?_append_of_some hcontext _
  counted hnone := by
    obtain ⟨hnone', hconsumed, hnext⟩ := hcounted hnone
    rw [filterMap_snoc, hconsumed, hpublished, hnext, Option.toList_none, append_nil]
    exact h.counted hnone'

theorem accounts_setContext (h : Accounts es w) (context : CP2UpdateInvocationContext)
    (hstep : Step w (.setContext context) w') :
    Accounts (es ++ [⟨w, .setContext context, w'⟩]) w' := by
  subst hstep
  have hset : w.updater.setInvocationContext context =
      if w.updater.pendingInvocationContext.isSome || w.updater.traceFatalLatched then
        (false, w.updater)
      else (true, { w.updater with pendingInvocationContext := some context }) := by
    simp [UpdaterMSCKF.setInvocationContext, h.recorded.inactive]
  by_cases hrefused : (w.updater.pendingInvocationContext.isSome || w.updater.traceFatalLatched) = true
  · rw [if_pos hrefused] at hset
    have hidle : perform w (.setContext context) = w := by
      rw [perform, hset]
    rw [hidle]
    refine h.of_records _ h.recorded rfl ?_ (fun hnone => ⟨hnone, rfl, rfl⟩)
    simp [Consumed, Accepted, hset]
  · rw [if_neg hrefused] at hset
    have hpending : w.updater.pendingInvocationContext = none := by
      cases hp : w.updater.pendingInvocationContext with
      | none => rfl
      | some _ => simp [hp] at hrefused
    refine h.of_records _ ?_ ?_ ?_ (fun hnone => ?_)
    · rw [perform, hset]
      exact ⟨h.recorded.sink, h.recorded.mode, h.recorded.inactive⟩
    · rfl
    · simp [Consumed, Accepted, perform, hset, hpending]
    · rw [perform, hset] at hnone ⊢
      exact ⟨hnone, rfl, rfl⟩

theorem Accounts.of_returned (h : Accounts es w) {C : Callees σ} {state : σ}
    {heap : FeaturePtr → Feature} {featureVec : List FeaturePtr}
    {context : CP2UpdateInvocationContext} {record : CP2RecordedUpdateEvent}
    (hnone : w.updater.traceFatalReason = .kNone) (hrecorded : Recorded w'.updater)
    (hcall : CallReturned (w.given state heap featureVec) w' context record) :
    Accounts (es ++ [⟨w, .update C state heap featureVec, w'⟩]) w' := by
  have hpending : w.updater.pendingInvocationContext = some context := hcall.pending
  have hconsumed : Consumed ⟨w, .update C state heap featureVec, w'⟩ = some context := by
    simp [Consumed, hcall.consumed, hpending]
  have hpublished : publishedRecords w' = publishedRecords w ++ [record] :=
    publishedRecords_append w w' ⟨record, .kPublished⟩ hcall.published
  obtain ⟨hcount, hnext⟩ := h.counted hnone
  have hid : record.update.invocationId = w.updater.nextInvocationId := hcall.carries.id
  refine ⟨hrecorded, ?_, fun i r hi => ?_, fun _ => ?_⟩
  · rw [filterMap_snoc, filterMap_snoc, hconsumed, hcall.consumed, ← h.contexts, hpending]
    simp [Accepted]
  · rw [hpublished] at hi
    rw [filterMap_snoc, hconsumed]
    by_cases hlt : i < (publishedRecords w).length
    · rw [getElem?_append_left hlt] at hi
      obtain ⟨hi, context', hcontext', hcarries⟩ := h.carries i r hi
      exact ⟨hi, context', getElem?_append_of_some hcontext' _, hcarries⟩
    · rw [getElem?_append_right (Nat.le_of_not_lt hlt), getElem?_singleton] at hi
      have hi' : i = (publishedRecords w).length := by
        by_contra hne
        rw [if_neg (by omega)] at hi
        cases hi
      rw [if_pos (by omega)] at hi
      cases hi
      refine ⟨by rw [hid, hnext, hi', hcount], context, ?_, hid ▸ hcall.carries⟩
      rw [hi', hcount]
      simp
  · have hlt : w.updater.nextInvocationId.toNat + 1 < 2 ^ 64 := hcall.representable
    have hsucc : w'.updater.nextInvocationId.toNat = w.updater.nextInvocationId.toNat + 1 := by
      rw [hcall.nextInvocationId]
      simpa [World.given] using Nat.mod_eq_of_lt hlt
    rw [filterMap_snoc, hconsumed, hpublished, hsucc]
    simp [hcount, hnext]

theorem accounts_update (h : Accounts es w) (C : Callees σ) (state : σ)
    (heap : FeaturePtr → Feature) (featureVec : List FeaturePtr)
    (hstep : Step w (.update C state heap featureVec) w') :
    Accounts (es ++ [⟨w, .update C state heap featureVec, w'⟩]) w' := by
  have hgiven : Recorded (w.given state heap featureVec).updater := h.recorded
  by_cases hnone : w.updater.traceFatalReason = .kNone
  · obtain ⟨hcall, hrecorded⟩ := runUpdate_cases C hgiven hnone
    rw [← show w' = (runUpdate C (w.given state heap featureVec)).2 from hstep] at hcall hrecorded
    rcases hcall with ⟨-, context, record, hcall⟩ | hcall
    · exact h.of_returned hnone hrecorded hcall
    · refine h.of_records _ hrecorded ?_ ?_ (fun hnone' => absurd hnone' hcall.latched)
      · rcases hcall.published with hp | ⟨record, hp⟩
        · exact publishedRecords_congr hp
        · rw [publishedRecords_append w w' ⟨record, .kRejected⟩ hp]
          simp
      · rcases hcall.pending with hp | hp
        · have hp' : w'.updater.pendingInvocationContext = w.updater.pendingInvocationContext := hp
          simp only [Consumed, Accepted, hp']
          cases w.updater.pendingInvocationContext <;> simp
        · simp [Consumed, Accepted, hp]
  · obtain ⟨hcall, hrecorded⟩ := runUpdate_latched C hgiven hnone
    rw [← show w' = (runUpdate C (w.given state heap featureVec)).2 from hstep] at hcall hrecorded
    have hpending : w'.updater.pendingInvocationContext = w.updater.pendingInvocationContext :=
      hcall.pending
    refine h.of_records _ hrecorded ?_ ?_ (fun hnone' => absurd (hcall.reason ▸ hnone') hnone)
    · exact publishedRecords_congr hcall.published
    · simp only [Consumed, Accepted, hpending]
      cases w.updater.pendingInvocationContext <;> simp

end Steps

theorem accounts_run {w₀ w : World σ} {es : List (Entry (World σ) (Op σ))} (hfresh : Fresh w₀)
    (hrun : Run Step w₀ es w) : Accounts es w := by
  refine hrun.history (accounts_nil hfresh) fun es w op w' h hstep => ?_
  cases op with
  | setContext context => exact accounts_setContext h context hstep
  | update C state heap featureVec => exact accounts_update h C state heap featureVec hstep

/-! ## The latch -/

/-- What no operation changes once the latch is set. -/
structure Stopped (w w' : World σ) : Prop where
  reason : w'.updater.traceFatalReason = w.updater.traceFatalReason
  published : w'.published = w.published
  pending : w'.updater.pendingInvocationContext = w.updater.pendingInvocationContext
  nextInvocationId : w'.updater.nextInvocationId = w.updater.nextInvocationId

theorem Stopped.trans {w w' w'' : World σ} (h : Stopped w w') (h' : Stopped w' w'') :
    Stopped w w'' :=
  ⟨h'.reason.trans h.reason, h'.published.trans h.published, h'.pending.trans h.pending,
    h'.nextInvocationId.trans h.nextInvocationId⟩

theorem stopped_step {w w' : World σ} {op : Op σ} (hrecorded : Recorded w.updater)
    (hlatched : w.updater.traceFatalReason ≠ .kNone) (hstep : Step w op w') : Stopped w w' := by
  subst hstep
  cases op with
  | setContext context =>
    have htrue : w.updater.traceFatalLatched = true := by simpa [UpdaterMSCKF.traceFatalLatched]
    have hset : w.updater.setInvocationContext context = (false, w.updater) := by
      simp [UpdaterMSCKF.setInvocationContext, htrue]
    rw [perform, hset]
    exact ⟨rfl, rfl, rfl, rfl⟩
  | update C state heap featureVec =>
    have hcall := (runUpdate_latched C
      (show Recorded (w.given state heap featureVec).updater from hrecorded) hlatched).1
    exact ⟨hcall.reason, hcall.published, hcall.pending, hcall.nextInvocationId⟩

theorem recorded_step {w w' : World σ} {op : Op σ} (hrecorded : Recorded w.updater)
    (hstep : Step w op w') : Recorded w'.updater := by
  subst hstep
  cases op with
  | setContext context =>
    simp only [perform, UpdaterMSCKF.setInvocationContext]
    split
    · exact hrecorded
    · exact ⟨hrecorded.sink, hrecorded.mode, hrecorded.inactive⟩
  | update C state heap featureVec =>
    have hgiven : Recorded (w.given state heap featureVec).updater := hrecorded
    by_cases hnone : w.updater.traceFatalReason = .kNone
    · exact (runUpdate_cases C hgiven hnone).2
    · exact (runUpdate_latched C hgiven hnone).2

/-- Behind the first latched operation of a run everything stays as that operation left it. -/
theorem stopped_run {w₀ w : World σ} {es : List (Entry (World σ) (Op σ))}
    (hrecorded : Recorded w₀.updater) (hrun : Run Step w₀ es w) :
    ∀ e ∈ es, e.post.updater.traceFatalReason ≠ .kNone → Stopped e.post w := by
  have hhistory : Recorded w.updater ∧
      ∀ e ∈ es, e.post.updater.traceFatalReason ≠ .kNone → Stopped e.post w := by
    refine hrun.history (P := fun es w => Recorded w.updater ∧
      ∀ e ∈ es, e.post.updater.traceFatalReason ≠ .kNone → Stopped e.post w)
      ⟨hrecorded, fun e he => absurd he not_mem_nil⟩ fun es w op w' h hstep => ?_
    refine ⟨recorded_step h.1 hstep, fun e he hlatched => ?_⟩
    rcases mem_append.mp he with he | he
    · have hstopped := h.2 e he hlatched
      exact hstopped.trans (stopped_step h.1 (hstopped.reason ▸ hlatched) hstep)
    · rw [mem_singleton] at he
      subst he
      exact ⟨rfl, rfl, rfl, rfl⟩
  exact hhistory.2

/-! ## The contract -/

/-- What is promised of one call, which found `w` and the State `state` and left `w'`. -/
structure CallContract (w w' : World σ) (state : σ) (result : CallResult) : Prop where
  /-- One accepted record and a normal return, or a latched fatal exception. -/
  once : (result = .returned ∧ ∃ record, w'.published = w.published ++ [⟨record, .kPublished⟩]) ∨
    (w'.updater.traceFatalReason ≠ .kNone ∧
      (∃ message, result = .threw (.fatal w'.updater.traceFatalReason message)) ∧
      publishedRecords w' = publishedRecords w)
  /-- The State is written only for a committed record or in front of the latch. -/
  written : w'.state = state ∨ w'.updater.traceFatalReason ≠ .kNone ∨
    ∃ record, w'.published = w.published ++ [⟨record, .kPublished⟩] ∧
      record.update.terminalStatus = .kCommittedCounted
  /-- Behind the latch a call publishes nothing, writes nothing and consumes nothing. -/
  stopped : w.updater.traceFatalReason ≠ .kNone → Stopped w w' ∧ w'.state = state

theorem callContract {w : World σ} (hrecorded : Recorded w.updater) (C : Callees σ) (state : σ)
    (heap : FeaturePtr → Feature) (featureVec : List FeaturePtr) :
    CallContract w (runUpdate C (w.given state heap featureVec)).2 state
      (runUpdate C (w.given state heap featureVec)).1 := by
  have hgiven : Recorded (w.given state heap featureVec).updater := hrecorded
  by_cases hnone : w.updater.traceFatalReason = .kNone
  · refine ⟨?_, ?_, fun h => absurd hnone h⟩
    · rcases (runUpdate_cases C hgiven hnone).1 with ⟨hreturned, context, record, hcall⟩ | hcall
      · exact Or.inl ⟨hreturned, record, hcall.published⟩
      · refine Or.inr ⟨hcall.latched, hcall.fatal, ?_⟩
        rcases hcall.published with hp | ⟨record, hp⟩
        · exact publishedRecords_congr hp
        · rw [publishedRecords_append w _ ⟨record, .kRejected⟩ hp]
          simp
    · rcases (runUpdate_cases C hgiven hnone).1 with ⟨-, context, record, hcall⟩ | hcall
      · rcases hcall.state with hstate | hstatus
        · exact Or.inl hstate
        · exact Or.inr (Or.inr ⟨record, hcall.published, hstatus⟩)
      · exact Or.inr (Or.inl hcall.latched)
  · have hcall := (runUpdate_latched C hgiven hnone).1
    have hlatched : (runUpdate C (w.given state heap featureVec)).2.updater.traceFatalReason ≠
        .kNone := hcall.reason ▸ hnone
    obtain ⟨message, hfatal⟩ := hcall.fatal
    refine ⟨Or.inr ⟨hlatched, ⟨message, ?_⟩, publishedRecords_congr hcall.published⟩,
      Or.inl hcall.state, fun _ => ⟨⟨hcall.reason, hcall.published, hcall.pending, hcall.nextInvocationId⟩,
        hcall.state⟩⟩
    rw [hfatal, hcall.reason]

/-- Every call of a run publishes exactly one record and returns, or latches. The first reason
stays, and behind it nothing is published, written or consumed. The records are numbered from zero,
each with the context that was consumed for it, and no context is consumed twice. -/
theorem recorded_updates_publish_once_or_latch {w₀ w : World σ}
    {es : List (Entry (World σ) (Op σ))} (hfresh : Fresh w₀) (hrun : Run Step w₀ es w) :
    (∀ e ∈ es, ∀ C state heap featureVec, e.input = .update C state heap featureVec →
      CallContract e.pre e.post state (runUpdate C (e.pre.given state heap featureVec)).1) ∧
    (∀ e ∈ es, e.post.updater.traceFatalReason ≠ .kNone → Stopped e.post w) ∧
    es.filterMap Consumed ++ w.updater.pendingInvocationContext.toList = es.filterMap Accepted ∧
    (∀ (i : Nat) record, (publishedRecords w)[i]? = some record →
      record.update.invocationId.toNat = i ∧
        ∃ context, (es.filterMap Consumed)[i]? = some context ∧
          Carries record context record.update.invocationId) := by
  have haccounts := accounts_run hfresh hrun
  refine ⟨?_, stopped_run hfresh.recorded hrun, haccounts.contexts, haccounts.carries⟩
  intro e he C state heap featureVec hinput
  obtain ⟨hrecorded, hstep⟩ := hrun.entry (P := fun w => Recorded w.updater) hfresh.recorded
    (fun _ _ _ h hstep => recorded_step h hstep) e he
  have hpost : e.post = (runUpdate C (e.pre.given state heap featureVec)).2 := by
    rw [hinput] at hstep
    exact hstep
  rw [hpost]
  exact callContract hrecorded C state heap featureVec

def unitOps : List (Op Unit) :=
  [.setContext ⟨0, 3, 5⟩, .update unitCallees ⟨⟩ unitWorld.heap [.live 0], .setContext ⟨1, 4, 6⟩,
    .update unitCallees ⟨⟩ unitWorld.heap []]

theorem recorded_updates_publish_once_or_latch_unit :
    ∃ (es : List (Entry (World Unit) (Op Unit))) (w : World Unit), es.map Entry.input = unitOps ∧
      (publishedRecords w).map (fun record => record.update.terminalStatus) = [.kCommittedCounted, .kEmptyInput] ∧
      es.filterMap Consumed ++ w.updater.pendingInvocationContext.toList = es.filterMap Accepted := by
  have hfresh : Fresh unitWorld := ⟨⟨rfl, rfl, rfl⟩, rfl, rfl, rfl, rfl⟩
  have hnil : Run Step unitWorld [] unitWorld := Run.nil
  have hrun := (((hnil.snoc (rfl : Step unitWorld (.setContext ⟨0, 3, 5⟩) _)).snoc
    (rfl : Step _ (.update unitCallees ⟨⟩ unitWorld.heap [.live 0]) _)).snoc
    (rfl : Step _ (.setContext ⟨1, 4, 6⟩) _)).snoc (rfl : Step _ (.update unitCallees ⟨⟩ unitWorld.heap []) _)
  exact ⟨_, _, rfl, by decide +kernel, (recorded_updates_publish_once_or_latch hfresh hrun).2.2.1⟩

end Bravo.Updater
