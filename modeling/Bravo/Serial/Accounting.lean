import Bravo.Serial.RuntimeTrace
import Mathlib.Data.Fintype.Card
import Mathlib.Data.List.Nodup

/-! # The trace accounts for every event

A trace is used through four entry points, in any order. What it holds is described by the list of
the notes it accepted (`Ledger`): every row by the notes that name it, and the two counters by their
numbers. A note that is rejected leaves a trace that rejects everything from then on.
-/

namespace Bravo.Serial

open Bravo.Trace Bravo.Journal List CP2SerialRuntimeTrace

/-! ## Runs -/

inductive Op
  | enqueue (pairIndex : UInt64) (status : CP2SerialRuntimeEnqueueStatus)
  | processing (p : Processing)
  | update (event : CP2LiveUpdateEvent)
  | finalize (e : Surroundings)

def Op.note : Op → Note Unit
  | .enqueue pairIndex status => noteEnqueue pairIndex status
  | .processing p => noteProcessing p
  | .update event => noteUpdate event
  | .finalize e => Serial.finalize e

def perform (op : Op) (t : CP2SerialRuntimeTrace) : Bool × CP2SerialRuntimeTrace :=
  attempt op.note t

def step (t : CP2SerialRuntimeTrace) (op : Op) (t' : CP2SerialRuntimeTrace) : Prop :=
  (perform op t).2 = t'

def accepted (es : List (Entry CP2SerialRuntimeTrace Op)) : List Op :=
  es.filterMap fun e => if (perform e.input e.pre).1 then some e.input else none

theorem accepted_append (es es' : List (Entry CP2SerialRuntimeTrace Op)) :
    accepted (es ++ es') = accepted es ++ accepted es' := filterMap_append

theorem perform_cases (op : Op) (t : CP2SerialRuntimeTrace) :
    (∃ t', op.note.run t = .ok ⟨⟩ t' ∧ perform op t = (true, t')) ∨
      ∃ message t', op.note.run t = .error message t' ∧
        perform op t = (false, t'.reject message) := by
  unfold perform attempt
  cases hrun : op.note.run t with
  | ok _ t' => exact .inl ⟨t', rfl, rfl⟩
  | error message t' => exact .inr ⟨message, t', rfl, rfl⟩

/-! ## What the notes say -/

def enqueues (ops : List Op) : List (Nat × CP2SerialRuntimeEnqueueStatus) :=
  ops.filterMap fun
    | .enqueue pairIndex status => some (pairIndex.toNat, status)
    | _ => none

def processings (ops : List Op) : List Processing :=
  ops.filterMap fun
    | .processing p => some p
    | _ => none

def updates (ops : List Op) : List CP2LiveUpdateEvent :=
  ops.filterMap fun
    | .update event => some event
    | _ => none

def emissions (ps : List Processing) : List Processing := ps.filter Processing.stateRowEmitted

def statusesOf (index : Nat) (qs : List (Nat × CP2SerialRuntimeEnqueueStatus)) :
    List CP2SerialRuntimeEnqueueStatus :=
  (qs.filter fun q => q.1 == index).map Prod.snd

def processingsOf (index : Nat) (ps : List Processing) : List Processing :=
  ps.filter fun p => p.pairIndex.toNat == index

def updatesOf (index : Nat) (us : List CP2LiveUpdateEvent) : List CP2LiveUpdateEvent :=
  us.filter fun event => event.pairIndex.toNat == index

section Notes

variable (ops : List Op)

theorem enqueues_append (ops' : List Op) : enqueues (ops ++ ops') = enqueues ops ++ enqueues ops' :=
  filterMap_append

theorem processings_append (ops' : List Op) :
    processings (ops ++ ops') = processings ops ++ processings ops' := filterMap_append

theorem updates_append (ops' : List Op) : updates (ops ++ ops') = updates ops ++ updates ops' :=
  filterMap_append

end Notes

/-! ## The entry points -/

section Specs

variable {t : CP2SerialRuntimeTrace}

theorem ready_iff : t.ready = true ↔ t.failed = false := by
  unfold ready
  cases t.failed <;> simp

theorem wp_noteEnqueue (pairIndex : UInt64) (status : CP2SerialRuntimeEnqueueStatus) :
    wp (noteEnqueue pairIndex status)
      (fun _ t' => t.failed = false ∧ ∃ row, t.rows[pairIndex.toNat]? = some row ∧
        row.enqueueNoted = false ∧ t' = t.setRow pairIndex.toNat (row.enqueue status))
      (fun _ t' => t' = t) t := by
  unfold noteEnqueue
  rw [wp_bind, wp_get]
  split
  · rfl
  rename_i hready
  simp only [Bool.or_eq_true, Bool.not_eq_true', not_or, Bool.not_eq_false] at hready
  cases hrow : t.rows[pairIndex.toNat]? with
  | none => rfl
  | some row =>
    simp only
    split
    · rfl
    · rename_i hnoted
      exact ⟨ready_iff.mp hready.1, row, rfl, eq_false_of_ne_true hnoted, rfl⟩

structure JoinsRow (p : Processing) (row : Row) : Prop where
  enqueued : row.enqueueNoted = true
  queued : row.enqueueStatus = "queued"
  timestamp : p.cameraTimestampNs = row.pair.cameraTimestampNs
  unprocessed : row.processingNoted = false

theorem wp_noteProcessing (p : Processing) :
    wp (noteProcessing p)
      (fun _ t' => t.failed = false ∧ ∃ row, t.rows[p.pairIndex.toNat]? = some row ∧
        JoinsRow p row ∧
        ((p.stateRowEmitted = false ∧ t' = t.setRow p.pairIndex.toNat (row.process p)) ∨
          (p.stateRowEmitted = true ∧ t.nextTrajectoryIndex.toNat + 1 ≠ 2 ^ 64 ∧
            t' = { t.setRow p.pairIndex.toNat (row.emit p t.nextTrajectoryIndex) with
              nextTrajectoryIndex := t.nextTrajectoryIndex + 1 })))
      (fun _ t' => t' = t ∨
        (t.failed = false ∧ t'.failed = false ∧ t.nextTrajectoryIndex.toNat + 1 = 2 ^ 64)) t := by
  unfold noteProcessing
  rw [wp_bind, wp_get]
  split
  · exact .inl rfl
  rename_i hready
  simp only [Bool.or_eq_true, Bool.not_eq_true', not_or, Bool.not_eq_false] at hready
  have hfailed := ready_iff.mp hready.1.1
  cases hrow : t.rows[p.pairIndex.toNat]? with
  | none => exact .inl rfl
  | some row =>
    simp only
    split
    · exact .inl rfl
    rename_i hjoin
    simp only [Bool.or_eq_true, Bool.not_eq_true', bne_iff_ne, not_or, Bool.not_eq_false,
      Bool.not_eq_true, ne_eq, not_not] at hjoin
    obtain ⟨⟨⟨⟨⟨⟨henqueued, hqueued⟩, htimestamp⟩, hprocessed⟩, _⟩, _⟩, _⟩ := hjoin
    have hjoins : JoinsRow p row := ⟨henqueued, hqueued, htimestamp, hprocessed⟩
    rw [wp_bind, wp_modify]
    split
    · rename_i hemitted
      exact ⟨hfailed, row, rfl, hjoins, .inl ⟨by simpa using hemitted, rfl⟩⟩
    · rename_i hemitted
      split
      · rename_i hoverflow
        exact .inr ⟨hfailed, hfailed, hoverflow⟩
      · rename_i hroom
        refine ⟨hfailed, row, rfl, hjoins, .inr ⟨by simpa using hemitted, hroom, ?_⟩⟩
        -- the row is written twice
        unfold setRow Row.emit Row.process
        simp only [set_set]

structure JoinsUpdate (event : CP2LiveUpdateEvent) (t : CP2SerialRuntimeTrace) (row : Row) :
    Prop where
  next : event.invocationId = t.nextInvocationId
  enqueued : row.enqueueNoted = true
  queued : row.enqueueStatus = "queued"
  empty : row.updates = []

theorem wp_noteUpdate (event : CP2LiveUpdateEvent) :
    wp (noteUpdate event)
      (fun _ t' => t.failed = false ∧ ∃ row, t.rows[event.pairIndex.toNat]? = some row ∧
        JoinsUpdate event t row ∧ t.nextInvocationId.toNat + 1 ≠ 2 ^ 64 ∧
        t' = { t.setRow event.pairIndex.toNat (row.invoke t.context.traceLevel event) with
          nextInvocationId := t.nextInvocationId + 1 })
      (fun _ t' => t' = t ∨ (t.failed = false ∧ ∃ row,
        t.rows[event.pairIndex.toNat]? = some row ∧ JoinsUpdate event t row ∧
        t.nextInvocationId.toNat + 1 = 2 ^ 64 ∧
        t' = t.setRow event.pairIndex.toNat (row.invoke t.context.traceLevel event))) t := by
  unfold noteUpdate
  rw [wp_bind, wp_get]
  split
  · exact .inl rfl
  rename_i hready
  simp only [Bool.or_eq_true, Bool.not_eq_true', bne_iff_ne, not_or, Bool.not_eq_false,
    ne_eq, not_not] at hready
  have hfailed := ready_iff.mp hready.1.1.1.1.1
  have hnext : event.invocationId = t.nextInvocationId := hready.2
  split
  · exact .inl rfl
  cases hrow : t.rows[event.pairIndex.toNat]? with
  | none => exact .inl rfl
  | some row =>
    simp only
    split
    · exact .inl rfl
    rename_i hjoin
    simp only [Bool.or_eq_true, Bool.not_eq_true', bne_iff_ne, not_or, Bool.not_eq_false,
      ne_eq, not_not, List.isEmpty_iff] at hjoin
    obtain ⟨⟨⟨henqueued, hqueued⟩, _⟩, hempty⟩ := hjoin
    have hjoins : JoinsUpdate event t row := ⟨hnext, henqueued, hqueued, hempty⟩
    rw [wp_bind, wp_modify]
    split
    · rename_i hoverflow
      exact .inr ⟨hfailed, row, rfl, hjoins, hoverflow, rfl⟩
    · rename_i hroom
      exact ⟨hfailed, row, rfl, hjoins, hroom, rfl⟩

/-! ### Finalization -/

variable (e : Surroundings)

def serialText (t : CP2SerialRuntimeTrace) : String :=
  renderRows e.decimal (t.rows.map (serialRow t.context))

def callbackText (t : CP2SerialRuntimeTrace) : String :=
  renderRows e.decimal (t.rows.zipIdx.map fun entry => callbackRow t.context entry.2 entry.1)

def updaterText (t : CP2SerialRuntimeTrace) : String :=
  renderRows e.decimal ((listedUpdates t.rows).map fun u => updaterRow t.context u.1 u.2)

def timingText (t : CP2SerialRuntimeTrace) : String :=
  renderRows e.decimal ((listedUpdates t.rows).map fun u => timingRow t.context u.1 u.2)

def CompleteFiles (t : CP2SerialRuntimeTrace) (files : List (Sink × String)) : Prop :=
  match t.context.traceLevel with
  | .kRecordedFull => files = [(.serial, serialText e t)]
  | .kSequence => ∃ lines, serializeTrajectory t = some lines ∧
      files = [(.serial, serialText e t), (.callbacks, callbackText e t),
        (.trajectory, renderRows e.decimal lines)]
  | .kTiming => files = [(.serial, serialText e t), (.callbacks, callbackText e t),
      (.updater, updaterText e t), (.timing, timingText e t)]

def CP2SerialRuntimeTrace.write (t : CP2SerialRuntimeTrace) (files : List (Sink × String)) :
    CP2SerialRuntimeTrace :=
  { t with written := t.written ++ files }

theorem CP2SerialRuntimeTrace.write_write (files files' : List (Sink × String)) :
    (t.write files).write files' = t.write (files ++ files') := by
  unfold write
  simp only [append_assoc]

theorem wp_writeOutput (sink : Sink) (path : CP2NullablePath) (text : String)
    {Q : Bool → CP2SerialRuntimeTrace → Prop} {E : String → CP2SerialRuntimeTrace → Prop}
    (htrue : Q true (t.write [(sink, text)])) (hfalse : Q false t) :
    wp (writeOutput e sink path text) Q E t := by
  unfold writeOutput
  split
  · exact htrue
  · exact hfalse

def Wrote (t t' : CP2SerialRuntimeTrace) : Prop := ∃ files, t' = t.write files

theorem Wrote.refl (t : CP2SerialRuntimeTrace) : Wrote t t := by
  refine ⟨[], ?_⟩
  unfold write
  rw [append_nil]

theorem wp_finalizeSequence (files : List (Sink × String)) : wp (finalizeSequence e)
      (fun _ t' => ∃ lines, serializeTrajectory (t.write files) = some lines ∧
        t' = t.write (files ++ [(.callbacks, callbackText e t),
          (.trajectory, renderRows e.decimal lines)]))
      (fun _ t' => Wrote t t') (t.write files) := by
  unfold finalizeSequence
  rw [wp_bind, wp_get]
  dsimp only
  split
  · exact ⟨files, rfl⟩
  cases hlines : serializeTrajectory (t.write files) with
  | none => exact ⟨files, rfl⟩
  | some lines =>
    simp only [wp_bind]
    refine wp_writeOutput e _ _ _ ?_ ⟨files, rfl⟩
    rw [write_write]
    simp only [Bool.not_true, Bool.false_eq_true, if_false, wp_bind]
    refine wp_writeOutput e _ _ _ ?_ ⟨_, rfl⟩
    rw [write_write, append_assoc]
    exact ⟨lines, rfl, rfl⟩

theorem wp_finalizeTiming (files : List (Sink × String)) : wp (finalizeTiming e)
      (fun _ t' => t' = t.write (files ++ [(.callbacks, callbackText e t),
        (.updater, updaterText e t), (.timing, timingText e t)]))
      (fun _ t' => Wrote t t') (t.write files) := by
  unfold finalizeTiming
  rw [wp_bind, wp_get]
  dsimp only
  split
  · exact ⟨files, rfl⟩
  rw [wp_bind]
  refine wp_writeOutput e _ _ _ ?_ ⟨files, rfl⟩
  rw [write_write]
  simp only [Bool.not_true, Bool.false_eq_true, if_false, wp_bind]
  refine wp_writeOutput e _ _ _ ?_ ⟨_, rfl⟩
  rw [write_write]
  simp only [Bool.not_true, Bool.false_eq_true, if_false, wp_bind]
  refine wp_writeOutput e _ _ _ ?_ ⟨_, rfl⟩
  rw [write_write, append_assoc, append_assoc]
  rfl

theorem wp_finalize : wp (Serial.finalize e) (fun _ t' => t.failed = false ∧
        (∀ row ∈ t.rows, rowFailure t.context.traceLevel row = none) ∧
        ∃ files, CompleteFiles e t files ∧ t' = { t.write files with finalized := true })
      (fun _ t' => Wrote t t' ∧ (t.failed = true → t' = t)) t := by
  unfold Serial.finalize
  rw [wp_bind, wp_get]
  split
  · exact ⟨.refl t, fun _ => rfl⟩
  rename_i hready
  simp only [Bool.or_eq_true, Bool.not_eq_true', not_or, Bool.not_eq_false] at hready
  have hfailed := ready_iff.mp hready.1.1
  have hnot : t.failed = true → False := by
    rw [hfailed]
    exact Bool.false_ne_true
  split
  · exact ⟨.refl t, fun _ => rfl⟩
  rename_i hrows
  rw [findSome?_eq_none_iff] at hrows
  rw [wp_bind]
  refine wp_writeOutput e _ _ _ ?_ ⟨.refl t, fun _ => rfl⟩
  simp only [Bool.not_true, Bool.false_eq_true, if_false]
  have hlost : ∀ t', Wrote t t' → Wrote t t' ∧ (t.failed = true → t' = t) :=
    fun t' h => ⟨h, fun ht => (hnot ht).elim⟩
  cases hlevel : t.context.traceLevel with
  | kRecordedFull =>
    refine ⟨hfailed, hlevel ▸ hrows, _, ?_, rfl⟩
    rw [CompleteFiles, hlevel]
    rfl
  | kSequence =>
    rw [wp_bind]
    refine wp_mono (wp_finalizeSequence e _) (fun _ t' ht => ?_) (fun _ t' ht => hlost t' ht)
    obtain ⟨lines, hlines, rfl⟩ := ht
    refine ⟨hfailed, hlevel ▸ hrows, _, ?_, rfl⟩
    rw [CompleteFiles, hlevel]
    exact ⟨lines, hlines, rfl⟩
  | kTiming =>
    rw [wp_bind]
    refine wp_mono (wp_finalizeTiming e _) (fun _ t' ht => ?_) (fun _ t' ht => hlost t' ht)
    subst ht
    refine ⟨hfailed, hlevel ▸ hrows, _, ?_, rfl⟩
    rw [CompleteFiles, hlevel]
    rfl

end Specs

/-! ## Failure is sticky -/

variable {t : CP2SerialRuntimeTrace}

theorem perform_failed (h : t.failed = true) (op : Op) : perform op t = (false, t) := by
  have hwp : wp op.note (fun _ _ => False) (fun _ t' => t' = t) t := by
    have hnot : t.failed = false → False := by
      intro hfalse
      rw [h] at hfalse
      cases hfalse
    cases op with
    | enqueue pairIndex status =>
      exact wp_mono (wp_noteEnqueue pairIndex status) (fun _ _ ht => hnot ht.1) (fun _ _ ht => ht)
    | processing p =>
      refine wp_mono (wp_noteProcessing p) (fun _ _ ht => hnot ht.1) (fun _ _ ht => ?_)
      exact ht.elim id fun ht => (hnot ht.1).elim
    | update event =>
      refine wp_mono (wp_noteUpdate event) (fun _ _ ht => hnot ht.1) (fun _ _ ht => ?_)
      exact ht.elim id fun ht => (hnot ht.1).elim
    | finalize e =>
      exact wp_mono (wp_finalize e) (fun _ _ ht => hnot ht.1) (fun _ _ ht => ht.2 h)
  unfold wp at hwp
  unfold perform attempt
  cases hrun : op.note.run t with
  | ok _ t' =>
    rw [hrun] at hwp
    exact hwp.elim
  | error message t' =>
    rw [hrun] at hwp
    obtain rfl : t' = t := hwp
    exact congrArg (Prod.mk false) (if_pos h)

theorem wp_note_failed (h : t.failed = false) (op : Op) :
    wp op.note (fun _ t' => t'.failed = false) (fun _ t' => t'.failed = false) t := by
  cases op with
  | enqueue pairIndex status =>
    refine wp_mono (wp_noteEnqueue pairIndex status) (fun _ t' ht => ?_) (fun _ t' ht => ?_)
    · obtain ⟨_, _, _, _, rfl⟩ := ht
      exact h
    · rw [ht]
      exact h
  | processing p =>
    refine wp_mono (wp_noteProcessing p) (fun _ t' ht => ?_) (fun _ t' ht => ?_)
    · obtain ⟨_, _, _, _, ⟨_, rfl⟩ | ⟨_, _, rfl⟩⟩ := ht
      · exact h
      · exact h
    · rcases ht with rfl | ht
      · exact h
      · exact ht.2.1
  | update event =>
    refine wp_mono (wp_noteUpdate event) (fun _ t' ht => ?_) (fun _ t' ht => ?_)
    · obtain ⟨_, _, _, _, _, rfl⟩ := ht
      exact h
    · rcases ht with rfl | ⟨_, _, _, _, _, rfl⟩
      · exact h
      · exact h
  | finalize e =>
    refine wp_mono (wp_finalize e) (fun _ t' ht => ?_) (fun _ t' ht => ?_)
    · obtain ⟨_, _, _, _, rfl⟩ := ht
      exact h
    · obtain ⟨⟨_, rfl⟩, _⟩ := ht
      exact h

theorem reject_of_not_failed (h : t.failed = false) (message : String) :
    t.reject message = { t with failed := true, failure := message } := by
  unfold CP2SerialRuntimeTrace.reject
  rw [h, if_neg Bool.false_ne_true]

theorem perform_error {t t' : CP2SerialRuntimeTrace} (h : t.failed = false) {op : Op}
    {message : String} (hrun : op.note.run t = .error message t') :
    perform op t = (false, { t' with failed := true, failure := message }) := by
  have hfailed := wp_note_failed h op
  unfold wp at hfailed
  rw [hrun] at hfailed
  unfold perform attempt
  rw [hrun]
  exact congrArg (Prod.mk false) (reject_of_not_failed hfailed message)

theorem perform_ok (h : t.failed = false) {op : Op}
    (hok : (perform op t).1 = true) : (perform op t).2.failed = false := by
  have hfailed := wp_note_failed h op
  unfold wp at hfailed
  rcases perform_cases op t with ⟨t', hrun, heq⟩ | ⟨message, t', hrun, heq⟩
  · rw [hrun] at hfailed
    rw [heq]
    exact hfailed
  · rw [heq] at hok
    cases hok

/-- The message of the first rejected call stays, and every later call is rejected. -/
structure Sticky (es : List (Entry CP2SerialRuntimeTrace Op)) (s : CP2SerialRuntimeTrace) :
    Prop where
  first : ∀ before e after message t', es = before ++ e :: after → e.pre.failed = false →
    e.input.note.run e.pre = .error message t' →
      s.failed = true ∧ s.failure = message ∧ ∀ e' ∈ after, (perform e'.input e'.pre).1 = false
  failed : s.failed = true ↔ ∃ e ∈ es, (perform e.input e.pre).1 = false

section Runs

variable {init s : CP2SerialRuntimeTrace} {es : List (Entry CP2SerialRuntimeTrace Op)}

theorem run_failed (hinit : init.failed = true) (h : Run step init es s) :
    s = init ∧ ∀ e ∈ es, (perform e.input e.pre).1 = false := by
  have hstep : ∀ t op t', t = init → step t op t' → t' = init := by
    rintro t op t' rfl hstep
    rw [← hstep, perform_failed hinit]
  refine ⟨h.invariant (P := fun t => t = init) rfl hstep, fun e he => ?_⟩
  have hpre := (h.entry (P := fun t => t = init) rfl hstep e he).1
  rw [hpre, perform_failed hinit]

theorem first_of_run {before after : List (Entry CP2SerialRuntimeTrace Op)}
    {e : Entry CP2SerialRuntimeTrace Op} {message : String} {t' : CP2SerialRuntimeTrace}
    (h : Run step init (before ++ e :: after) s) (hpre : e.pre.failed = false)
    (hrun : e.input.note.run e.pre = .error message t') :
    s.failed = true ∧ s.failure = message ∧ ∀ e' ∈ after, (perform e'.input e'.pre).1 = false := by
  obtain ⟨t, _, hrest⟩ := Run.split _ h
  obtain ⟨_, hstep, hafter⟩ := hrest.uncons
  have hpost : e.post = { t' with failed := true, failure := message } := by
    calc e.post = (perform e.input e.pre).2 := hstep.symm
      _ = { t' with failed := true, failure := message } := by rw [perform_error hpre hrun]
  rw [hpost] at hafter
  obtain ⟨rfl, hrejected⟩ := run_failed rfl hafter
  exact ⟨rfl, rfl, hrejected⟩

theorem failed_of_run (hinit : init.failed = false) (h : Run step init es s) :
    s.failed = true ↔ ∃ e ∈ es, (perform e.input e.pre).1 = false := by
  induction h with
  | nil => simp [hinit]
  | @snoc es s s' op _ hs ih =>
    have hs' : (perform op s).2 = s' := hs
    simp only [mem_append, mem_singleton]
    cases hpre : s.failed with
    | true =>
      have heq := perform_failed hpre op
      rw [heq] at hs'
      refine ⟨fun _ => ⟨_, .inr rfl, by rw [heq]⟩, fun _ => ?_⟩
      rw [← hs']
      exact hpre
    | false =>
      rcases perform_cases op s with ⟨t', _, heq⟩ | ⟨message, t', hrun, heq⟩
      · -- accepted: nothing has been rejected so far
        have hok := perform_ok hpre (congrArg Prod.fst heq)
        rw [hs'] at hok
        constructor
        · intro hfailed
          rw [hok] at hfailed
          cases hfailed
        · rintro ⟨e, he | rfl, hrejected⟩
          · have hfailed := ih.mpr ⟨e, he, hrejected⟩
            rw [hpre] at hfailed
            cases hfailed
          · rw [heq] at hrejected
            cases hrejected
      · refine ⟨fun _ => ⟨_, .inr rfl, by rw [heq]⟩, fun _ => ?_⟩
        rw [← hs', perform_error hpre hrun]

theorem sticky_of_run (hinit : init.failed = false) (h : Run step init es s) : Sticky es s := by
  refine ⟨fun before e after message t' heq hpre hrun => ?_, failed_of_run hinit h⟩
  subst heq
  exact first_of_run h hpre hrun

end Runs

/-! ## The ledger of a row -/

def EnqueueLedger (qs : List (Nat × CP2SerialRuntimeEnqueueStatus)) (index : Nat) (row : Row) :
    Prop :=
  (statusesOf index qs).map enqueueStatusName = if row.enqueueNoted then [row.enqueueStatus] else []

structure ProcessLedger (ps : List Processing) (index : Nat) (row : Row) : Prop where
  processed : (processingsOf index ps).map
      (fun p => (p.cameraTimestampNs, p.updaterInvoked, p.stateRowEmitted)) =
    if row.processingNoted then
      [(row.pair.cameraTimestampNs, row.updaterInvoked, row.stateRowEmitted)] else []
  fresh : row.processingNoted = false → row.updaterInvoked = false ∧ row.stateRowEmitted = false
  available : row.trajectoryIndexAvailable = row.stateRowEmitted
  trajectory : ∀ (k : Nat) (p : Processing), (emissions ps)[k]? = some p →
    p.pairIndex.toNat = index → row.trajectoryIndex.toNat = k

/-- The update notes of a row. Only a failed trace holds an id that was not accepted, the last one
there is. -/
structure UpdateLedger (level : CP2RuntimeTraceLevel) (us : List CP2LiveUpdateEvent) (failed : Bool)
    (index : Nat) (row : Row) : Prop where
  ids : ∃ lost, row.updaterInvocationIds =
      (updatesOf index us).map CP2LiveUpdateEvent.invocationId ++ lost ∧
    (∀ id ∈ lost, id.toNat + 1 = 2 ^ 64) ∧ (failed = false → lost = [])
  updates : failed = false → row.updates =
    if level = .kTiming then (updatesOf index us).map UpdateRow.ofEvent else []
  single : level = .kTiming → (updatesOf index us).length ≤ 1

section RowLedgers

variable {index : Nat} {row : Row} {qs : List (Nat × CP2SerialRuntimeEnqueueStatus)}

theorem EnqueueLedger.other
    (h : EnqueueLedger qs index row) {q : Nat × CP2SerialRuntimeEnqueueStatus} (hq : q.1 ≠ index) :
    EnqueueLedger (qs ++ [q]) index row := by
  unfold EnqueueLedger statusesOf at *
  have hnone : [q].filter (fun q => q.1 == index) = [] := by simp [hq]
  rw [filter_append, hnone, append_nil]
  exact h

theorem EnqueueLedger.enqueue
    (h : EnqueueLedger qs index row) (hrow : row.enqueueNoted = false)
    (status : CP2SerialRuntimeEnqueueStatus) :
    EnqueueLedger (qs ++ [(index, status)]) index (row.enqueue status) := by
  unfold EnqueueLedger statusesOf at *
  rw [hrow, if_neg Bool.false_ne_true] at h
  have hone : [(index, status)].filter (fun q => q.1 == index) = [(index, status)] := by simp
  rw [filter_append, hone, map_append, map_append, h]
  rfl

theorem EnqueueLedger.queued
    (h : EnqueueLedger qs index row) (hrow : row.enqueueNoted = true)
    (hstatus : row.enqueueStatus = "queued") : (index, .kQueued) ∈ qs := by
  unfold EnqueueLedger statusesOf at h
  rw [hrow, if_pos rfl, hstatus, List.map_map] at h
  have hmem : "queued" ∈ (qs.filter fun q => q.1 == index).map (enqueueStatusName ∘ Prod.snd) := by
    rw [h]
    exact mem_singleton.mpr rfl
  obtain ⟨q, hq, hname⟩ := mem_map.mp hmem
  obtain ⟨hq, hindex⟩ := mem_filter.mp hq
  have hfirst : q.1 = index := by simpa using hindex
  have hsecond : q.2 = .kQueued := enqueueStatusName_eq_queued hname
  rw [← hfirst, ← hsecond]
  exact hq

theorem emissions_append (ps ps' : List Processing) :
    emissions (ps ++ ps') = emissions ps ++ emissions ps' := filter_append _ _

variable {ps : List Processing} {p : Processing}

theorem mem_processingsOf_of_emission {k : Nat}
    (h : (emissions ps)[k]? = some p) (hp : p.pairIndex.toNat = index) :
    p ∈ processingsOf index ps := by
  have hmem : p ∈ emissions ps := mem_of_getElem? h
  refine mem_filter.mpr ⟨(mem_filter.mp hmem).1, ?_⟩
  simp [hp]

theorem ProcessLedger.length_le (h : ProcessLedger ps index row) :
    (processingsOf index ps).length ≤ 1 := by
  have hlength := congrArg List.length h.processed
  rw [length_map] at hlength
  rw [hlength]
  split <;> simp

theorem ProcessLedger.eq_nil (h : ProcessLedger ps index row)
    (hrow : row.processingNoted = false) : processingsOf index ps = [] := by
  have hprocessed := h.processed
  rw [hrow, if_neg Bool.false_ne_true] at hprocessed
  exact map_eq_nil_iff.mp hprocessed

theorem ProcessLedger.other (h : ProcessLedger ps index row)
    (hp : p.pairIndex.toNat ≠ index) : ProcessLedger (ps ++ [p]) index row := by
  have hsame : processingsOf index (ps ++ [p]) = processingsOf index ps := by
    unfold processingsOf
    have hnone : [p].filter (fun p => p.pairIndex.toNat == index) = [] := by simp [hp]
    rw [filter_append, hnone, append_nil]
  refine ⟨by rw [hsame]; exact h.processed, h.fresh, h.available, fun k q hk hq => ?_⟩
  rw [emissions_append] at hk
  by_cases hlt : k < (emissions ps).length
  · rw [getElem?_append_left hlt] at hk
    exact h.trajectory k q hk hq
  · -- the new emission belongs to another row
    rw [getElem?_append_right (Nat.le_of_not_lt hlt)] at hk
    have hmem : q ∈ [p] := mem_of_mem_filter (mem_of_getElem? hk)
    rw [mem_singleton] at hmem
    exact absurd (hmem ▸ hq) hp

theorem processingsOf_snoc
    (hnil : processingsOf index ps = []) (hp : p.pairIndex.toNat = index) :
    processingsOf index (ps ++ [p]) = [p] := by
  unfold processingsOf at *
  rw [filter_append, hnil, nil_append]
  simp [hp]

theorem ProcessLedger.process (h : ProcessLedger ps index row)
    (hjoins : JoinsRow p row) (hp : p.pairIndex.toNat = index)
    (hemitted : p.stateRowEmitted = false) : ProcessLedger (ps ++ [p]) index (row.process p) := by
  have hnil := h.eq_nil hjoins.unprocessed
  refine ⟨?_, fun hnoted => Bool.noConfusion hnoted, ?_, fun k q hk hq => ?_⟩
  · rw [processingsOf_snoc hnil hp, map_singleton, hjoins.timestamp]
    rfl
  · calc row.trajectoryIndexAvailable = row.stateRowEmitted := h.available
      _ = false := (h.fresh hjoins.unprocessed).2
      _ = p.stateRowEmitted := hemitted.symm
  · -- the row has emitted nothing
    have hmem := mem_processingsOf_of_emission hk hq
    rw [processingsOf_snoc hnil hp, mem_singleton] at hmem
    have hemits := (mem_filter.mp (mem_of_getElem? hk)).2
    rw [hmem, hemitted] at hemits
    cases hemits

theorem ProcessLedger.emit (h : ProcessLedger ps index row)
    (hjoins : JoinsRow p row) (hp : p.pairIndex.toNat = index)
    (hemitted : p.stateRowEmitted = true) {next : UInt64}
    (hnext : next.toNat = (emissions ps).length) :
    ProcessLedger (ps ++ [p]) index (row.emit p next) := by
  have hnil := h.eq_nil hjoins.unprocessed
  refine ⟨?_, fun hnoted => Bool.noConfusion hnoted, hemitted.symm, fun k q hk hq => ?_⟩
  · rw [processingsOf_snoc hnil hp, map_singleton, hjoins.timestamp]
    rfl
  · have hone : emissions [p] = [p] := by simp [emissions, hemitted]
    rw [emissions_append, hone] at hk
    by_cases hlt : k < (emissions ps).length
    · rw [getElem?_append_left hlt] at hk
      have hmem := mem_processingsOf_of_emission hk hq
      rw [hnil] at hmem
      exact absurd hmem not_mem_nil
    · have hk' := (List.getElem?_eq_some_iff.mp hk).1
      rw [length_append, length_singleton] at hk'
      change next.toNat = k
      omega

variable {level : CP2RuntimeTraceLevel} {us : List CP2LiveUpdateEvent} {event : CP2LiveUpdateEvent}

theorem UpdateLedger.other
    {failed : Bool} (h : UpdateLedger level us failed index row)
    (hevent : event.pairIndex.toNat ≠ index) :
    UpdateLedger level (us ++ [event]) failed index row := by
  have hsame : updatesOf index (us ++ [event]) = updatesOf index us := by
    unfold updatesOf
    have hnone : [event].filter (fun event => event.pairIndex.toNat == index) = [] := by
      simp [hevent]
    rw [filter_append, hnone, append_nil]
  obtain ⟨hids, hupdates, hsingle⟩ := h
  exact ⟨hsame ▸ hids, hsame ▸ hupdates, hsame ▸ hsingle⟩

theorem updatesOf_snoc (us : List CP2LiveUpdateEvent) (hevent : event.pairIndex.toNat = index) :
    updatesOf index (us ++ [event]) = updatesOf index us ++ [event] := by
  unfold updatesOf
  rw [filter_append]
  simp [hevent]

theorem UpdateLedger.invoke
    (h : UpdateLedger level us false index row)
    (hempty : row.updates = []) (hevent : event.pairIndex.toNat = index) :
    UpdateLedger level (us ++ [event]) false index (row.invoke level event) := by
  obtain ⟨⟨lost, hids, _, hlost⟩, hupdates, _⟩ := h
  rw [hlost rfl, append_nil] at hids
  have hupdates := hupdates rfl
  refine ⟨⟨[], ?_, fun _ hid => absurd hid not_mem_nil, fun _ => rfl⟩, fun _ => ?_, fun hlevel => ?_⟩
  · rw [updatesOf_snoc us hevent, map_append, append_nil]
    exact congrArg (· ++ [event.invocationId]) hids
  · rw [updatesOf_snoc us hevent]
    unfold Row.invoke
    by_cases hlevel : level = .kTiming
    · simp only [hlevel, if_true] at hupdates ⊢
      rw [hupdates, map_append]
      rfl
    · simp only [hlevel, if_false] at hupdates ⊢
      exact hupdates
  · rw [hlevel, if_pos rfl, hempty] at hupdates
    have hnil : updatesOf index us = [] := map_eq_nil_iff.mp hupdates.symm
    rw [updatesOf_snoc us hevent, hnil]
    exact Nat.le_refl 1

theorem UpdateLedger.overflow
    (h : UpdateLedger level us false index row) (hid : event.invocationId.toNat + 1 = 2 ^ 64) :
    UpdateLedger level us true index (row.invoke level event) := by
  obtain ⟨⟨lost, hids, _, hlost⟩, _, hsingle⟩ := h
  rw [hlost rfl, append_nil] at hids
  refine ⟨⟨[event.invocationId], congrArg (· ++ [event.invocationId]) hids, fun id hmem => ?_,
    fun hfalse => Bool.noConfusion hfalse⟩, fun hfalse => Bool.noConfusion hfalse, hsingle⟩
  rw [mem_singleton.mp hmem]
  exact hid

theorem UpdateLedger.fail
    (h : UpdateLedger level us false index row) : UpdateLedger level us true index row := by
  obtain ⟨⟨lost, hids, hlast, _⟩, _, hsingle⟩ := h
  exact ⟨⟨lost, hids, hlast, fun hfalse => Bool.noConfusion hfalse⟩,
    fun hfalse => Bool.noConfusion hfalse, hsingle⟩

end RowLedgers

/-! ## Counters -/

theorem toNat_succ {next : UInt64} (hroom : next.toNat + 1 ≠ 2 ^ 64) :
    (next + 1).toNat = next.toNat + 1 := by
  have hlt := next.toNat_lt
  rw [UInt64.toNat_add]
  exact Nat.mod_eq_of_lt (by simpa using by omega)

theorem length_le_of_nodup {ids : List UInt64} (h : ids.Nodup) : ids.length ≤ 2 ^ 64 := by
  have hinjective : Function.Injective UInt64.toNat := fun a b => UInt64.toNat_inj.mp
  have hbounded : ids.map UInt64.toNat ⊆ List.range (2 ^ 64) := by
    intro n hn
    obtain ⟨id, _, rfl⟩ := mem_map.mp hn
    exact mem_range.mpr id.toNat_lt
  have hle := ((h.map hinjective).subperm hbounded).length_le
  rw [length_map, length_range] at hle
  exact hle

theorem length_le_of_populationValid (context : CP2RuntimeContext) (pairs : List CP2SerialPair) :
    ∀ (index : Nat) (previous : Option UInt64) {used : List UInt64}, used.Nodup →
      populationValid context index previous used pairs = true →
      used.length + 2 * pairs.length ≤ 2 ^ 64 := by
  induction pairs with
  | nil => exact fun _ _ used hused _ => length_le_of_nodup hused
  | cons pair pairs ih =>
    intro index previous used hused hvalid
    rw [populationValid, Bool.and_eq_true] at hvalid
    obtain ⟨hpair, hrest⟩ := hvalid
    simp only [pairValid, Bool.and_eq_true, bne_iff_ne, Bool.not_eq_true',
      contains_eq_mem, decide_eq_false_iff_not] at hpair
    obtain ⟨⟨⟨⟨⟨⟨⟨_, hdifferent⟩, _⟩, hcam0⟩, hcam1⟩, _⟩, _⟩, _⟩ := hpair
    have hnodup : (pair.cam0FilteredIndex :: pair.cam1FilteredIndex :: used).Nodup := by
      rw [nodup_cons, nodup_cons, mem_cons, not_or]
      exact ⟨⟨hdifferent, hcam0⟩, hcam1, hused⟩
    have hle := ih _ _ hnodup hrest
    rw [length_cons, length_cons] at hle
    rw [length_cons]
    omega

/-! ## The ledger of a trace -/

structure Enqueued (rows : List Row) (qs : List (Nat × CP2SerialRuntimeEnqueueStatus)) : Prop where
  row : ∀ index row, rows[index]? = some row → EnqueueLedger qs index row
  lt : ∀ q ∈ qs, q.1 < rows.length

structure Processed (rows : List Row) (ps : List Processing) (next : UInt64) : Prop where
  row : ∀ index row, rows[index]? = some row → ProcessLedger ps index row
  lt : ∀ p ∈ ps, p.pairIndex.toNat < rows.length
  next : next.toNat = (emissions ps).length

structure Updated (level : CP2RuntimeTraceLevel) (rows : List Row) (us : List CP2LiveUpdateEvent)
    (failed : Bool) (next : UInt64) : Prop where
  row : ∀ index row, rows[index]? = some row → UpdateLedger level us failed index row
  lt : ∀ event ∈ us, event.pairIndex.toNat < rows.length
  next : next.toNat = us.length
  ids : us.map (fun event => event.invocationId.toNat) = List.range us.length

def Joined (pairs : List CP2SerialPair) (ops : List Op) : Prop :=
  ∀ before p after, ops = before ++ Op.processing p :: after →
    Op.enqueue p.pairIndex .kQueued ∈ before ∧
      ∃ pair, pairs[p.pairIndex.toNat]? = some pair ∧ p.cameraTimestampNs = pair.cameraTimestampNs

structure Ledger (context : CP2RuntimeContext) (pairs : List CP2SerialPair) (ops : List Op)
    (t : CP2SerialRuntimeTrace) : Prop where
  context_eq : t.context = context
  pairs_eq : t.rows.map Row.pair = pairs
  enqueued : Enqueued t.rows (enqueues ops)
  processed : Processed t.rows (processings ops) t.nextTrajectoryIndex
  updated : Updated context.traceLevel t.rows (updates ops) t.failed t.nextInvocationId
  joined : Joined pairs ops

/-! ### Rows -/

section Rows

variable {rows : List Row} {index : Nat} {row row' : Row}

theorem getElem?_set_cases {i : Nat} {found : Row} (h : (rows.set index row')[i]? = some found) :
    (i = index ∧ found = row') ∨ (index ≠ i ∧ rows[i]? = some found) := by
  rw [getElem?_set] at h
  split at h
  · rename_i heq
    split at h
    · exact .inl ⟨heq.symm, (Option.some.inj h).symm⟩
    · cases h
  · rename_i hne
    exact .inr ⟨hne, h⟩

theorem map_pair_set (hrow : rows[index]? = some row) (hpair : row'.pair = row.pair) :
    (rows.set index row').map Row.pair = rows.map Row.pair := by
  apply ext_getElem?
  intro i
  rw [getElem?_map, getElem?_map, getElem?_set]
  split
  · rename_i heq
    subst heq
    have hlt := (List.getElem?_eq_some_iff.mp hrow).1
    rw [if_pos hlt, hrow, Option.map_some, Option.map_some, hpair]
  · rfl

theorem lt_length_of_getElem? (hrow : rows[index]? = some row) : index < rows.length :=
  (List.getElem?_eq_some_iff.mp hrow).1

theorem Enqueued.set {qs : List (Nat × CP2SerialRuntimeEnqueueStatus)} (h : Enqueued rows qs)
    (hrow : EnqueueLedger qs index row') : Enqueued (rows.set index row') qs := by
  refine ⟨fun i found hfound => ?_, fun q hq => by rw [length_set]; exact h.lt q hq⟩
  rcases getElem?_set_cases hfound with ⟨rfl, rfl⟩ | ⟨_, hfound⟩
  · exact hrow
  · exact h.row i found hfound

theorem Enqueued.enqueue {qs : List (Nat × CP2SerialRuntimeEnqueueStatus)} (h : Enqueued rows qs)
    (hrow : rows[index]? = some row) (hnoted : row.enqueueNoted = false)
    (status : CP2SerialRuntimeEnqueueStatus) :
    Enqueued (rows.set index (row.enqueue status)) (qs ++ [(index, status)]) := by
  refine ⟨fun i found hfound => ?_, fun q hq => ?_⟩
  · rcases getElem?_set_cases hfound with ⟨rfl, rfl⟩ | ⟨hne, hfound⟩
    · exact (h.row _ _ hrow).enqueue hnoted status
    · exact (h.row _ _ hfound).other hne
  · rw [length_set]
    rw [mem_append, mem_singleton] at hq
    rcases hq with hq | rfl
    · exact h.lt q hq
    · exact lt_length_of_getElem? hrow

variable {ps : List Processing} {next : UInt64}

theorem Processed.set (h : Processed rows ps next)
    (hrow : ProcessLedger ps index row') : Processed (rows.set index row') ps next := by
  refine ⟨fun i found hfound => ?_, fun p hp => by rw [length_set]; exact h.lt p hp, h.next⟩
  rcases getElem?_set_cases hfound with ⟨rfl, rfl⟩ | ⟨_, hfound⟩
  · exact hrow
  · exact h.row i found hfound

theorem Processed.snoc {ps : List Processing} {next next' : UInt64} (h : Processed rows ps next)
    {p : Processing} (hrow : rows[p.pairIndex.toNat]? = some row)
    (hrow' : ProcessLedger (ps ++ [p]) p.pairIndex.toNat row')
    (hnext : next'.toNat = (emissions (ps ++ [p])).length) :
    Processed (rows.set p.pairIndex.toNat row') (ps ++ [p]) next' := by
  refine ⟨fun i found hfound => ?_, fun q hq => ?_, hnext⟩
  · rcases getElem?_set_cases hfound with ⟨rfl, rfl⟩ | ⟨hne, hfound⟩
    · exact hrow'
    · exact (h.row _ _ hfound).other hne
  · rw [length_set]
    rw [mem_append, mem_singleton] at hq
    rcases hq with hq | rfl
    · exact h.lt q hq
    · exact lt_length_of_getElem? hrow

theorem Processed.process (h : Processed rows ps next)
    {p : Processing} (hrow : rows[p.pairIndex.toNat]? = some row) (hjoins : JoinsRow p row)
    (hemitted : p.stateRowEmitted = false) :
    Processed (rows.set p.pairIndex.toNat (row.process p)) (ps ++ [p]) next := by
  refine h.snoc hrow ((h.row _ _ hrow).process hjoins rfl hemitted) ?_
  have hnone : emissions [p] = [] := by simp [emissions, hemitted]
  rw [emissions_append, hnone, append_nil]
  exact h.next

theorem Processed.emit (h : Processed rows ps next)
    {p : Processing} (hrow : rows[p.pairIndex.toNat]? = some row) (hjoins : JoinsRow p row)
    (hemitted : p.stateRowEmitted = true) (hroom : next.toNat + 1 ≠ 2 ^ 64) :
    Processed (rows.set p.pairIndex.toNat (row.emit p next)) (ps ++ [p]) (next + 1) := by
  refine h.snoc hrow ((h.row _ _ hrow).emit hjoins rfl hemitted h.next) ?_
  have hone : emissions [p] = [p] := by simp [emissions, hemitted]
  rw [emissions_append, hone, length_append, length_singleton, ← h.next]
  exact toNat_succ hroom

theorem Processed.length_le (h : Processed rows ps next) : ps.length ≤ rows.length := by
  have hnodup : (ps.map fun p => p.pairIndex.toNat).Nodup := by
    rw [nodup_iff_count_le_one]
    intro i
    by_cases hlt : i < rows.length
    · have hle := (h.row i _ (getElem?_eq_getElem hlt)).length_le
      rw [count_eq_countP, countP_map, countP_eq_length_filter]
      exact hle
    · rw [count_eq_zero_of_not_mem]
      · exact Nat.zero_le 1
      · intro hmem
        obtain ⟨p, hp, rfl⟩ := mem_map.mp hmem
        exact hlt (h.lt p hp)
  have hbounded : (ps.map fun p => p.pairIndex.toNat) ⊆ List.range rows.length := by
    intro i hi
    obtain ⟨p, hp, rfl⟩ := mem_map.mp hi
    exact mem_range.mpr (h.lt p hp)
  have hle := (hnodup.subperm hbounded).length_le
  rw [length_map, length_range] at hle
  exact hle

theorem Processed.no_overflow (h : Processed rows ps next)
    (hrows : 2 * rows.length ≤ 2 ^ 64) : next.toNat + 1 ≠ 2 ^ 64 := by
  have hemissions : (emissions ps).length ≤ ps.length := length_filter_le _ _
  have hprocessings := h.length_le
  have hnext := h.next
  omega

section Updates

variable {level : CP2RuntimeTraceLevel} {us : List CP2LiveUpdateEvent} {failed : Bool}
  {next : UInt64}

theorem Updated.set (h : Updated level rows us failed next)
    (hrow : UpdateLedger level us failed index row') :
    Updated level (rows.set index row') us failed next := by
  refine ⟨fun i found hfound => ?_, fun event hevent => ?_, h.next, h.ids⟩
  · rcases getElem?_set_cases hfound with ⟨rfl, rfl⟩ | ⟨_, hfound⟩
    · exact hrow
    · exact h.row i found hfound
  · rw [length_set]
    exact h.lt event hevent

theorem Updated.fail (h : Updated level rows us false next) : Updated level rows us true next :=
  ⟨fun i found hfound => (h.row i found hfound).fail, h.lt, h.next, h.ids⟩

theorem Updated.invoke (h : Updated level rows us false next) {event : CP2LiveUpdateEvent}
    (hrow : rows[event.pairIndex.toNat]? = some row) (hempty : row.updates = [])
    (hid : event.invocationId = next) (hroom : next.toNat + 1 ≠ 2 ^ 64) :
    Updated level (rows.set event.pairIndex.toNat (row.invoke level event)) (us ++ [event]) false
      (next + 1) := by
  refine ⟨fun i found hfound => ?_, fun e he => ?_, ?_, ?_⟩
  · rcases getElem?_set_cases hfound with ⟨rfl, rfl⟩ | ⟨hne, hfound⟩
    · exact (h.row _ _ hrow).invoke hempty rfl
    · exact (h.row _ _ hfound).other hne
  · rw [length_set]
    rw [mem_append, mem_singleton] at he
    rcases he with he | rfl
    · exact h.lt e he
    · exact lt_length_of_getElem? hrow
  · rw [length_append, length_singleton, ← h.next]
    exact toNat_succ hroom
  · rw [map_append, h.ids, length_append, length_singleton, range_succ,
      map_singleton, hid, h.next]

end Updates

end Rows

/-! ### Steps -/

section Steps

variable {context : CP2RuntimeContext} {pairs : List CP2SerialPair} {ops : List Op}
  {t : CP2SerialRuntimeTrace}

theorem Joined.snoc (h : Joined pairs ops) {op : Op}
    (hop : ∀ p, op = .processing p → Op.enqueue p.pairIndex .kQueued ∈ ops ∧
      ∃ pair, pairs[p.pairIndex.toNat]? = some pair ∧
        p.cameraTimestampNs = pair.cameraTimestampNs) : Joined pairs (ops ++ [op]) := by
  intro before p after heq
  induction after using List.reverseRecOn with
  | nil =>
    obtain ⟨rfl, hlast⟩ := append_inj' heq rfl
    exact hop p (singleton_inj.mp hlast)
  | append_singleton after last _ =>
    rw [← cons_append, ← append_assoc] at heq
    obtain ⟨hfront, _⟩ := append_inj' heq rfl
    exact h before p after hfront

theorem Ledger.rows_length (h : Ledger context pairs ops t) : t.rows.length = pairs.length := by
  rw [← h.pairs_eq, length_map]

theorem Ledger.mem_enqueue (h : Ledger context pairs ops t) {pairIndex : UInt64} {row : Row}
    (hrow : t.rows[pairIndex.toNat]? = some row) (hnoted : row.enqueueNoted = true)
    (hqueued : row.enqueueStatus = "queued") : Op.enqueue pairIndex .kQueued ∈ ops := by
  have hmem := (h.enqueued.row _ _ hrow).queued hnoted hqueued
  obtain ⟨op, hop, hq⟩ := mem_filterMap.mp hmem
  cases op with
  | enqueue pairIndex' status =>
    have heq := Option.some.inj hq
    have hindex : pairIndex' = pairIndex := UInt64.toNat_inj.mp (congrArg Prod.fst heq)
    have hstatus : status = .kQueued := congrArg Prod.snd heq
    rw [← hindex, ← hstatus]
    exact hop
  | processing p => cases hq
  | update event => cases hq
  | finalize e => cases hq

theorem Ledger.reject (h : Ledger context pairs ops t) (hfailed : t.failed = false)
    (message : String) : Ledger context pairs ops (t.reject message) := by
  rw [reject_of_not_failed hfailed]
  have hupdated := h.updated
  rw [hfailed] at hupdated
  exact ⟨h.context_eq, h.pairs_eq, h.enqueued, h.processed, hupdated.fail, h.joined⟩

theorem Ledger.wp_enqueue (h : Ledger context pairs ops t) (hfailed : t.failed = false)
    (pairIndex : UInt64) (status : CP2SerialRuntimeEnqueueStatus) :
    wp (noteEnqueue pairIndex status)
      (fun _ t' => Ledger context pairs (ops ++ [.enqueue pairIndex status]) t')
      (fun message t' => Ledger context pairs ops (t'.reject message)) t := by
  refine wp_mono (wp_noteEnqueue pairIndex status) (fun _ t' ht => ?_) (fun message t' ht => ?_)
  · obtain ⟨_, row, hrow, hnoted, rfl⟩ := ht
    have hprocess := h.processed.row _ _ hrow
    have hupdate := h.updated.row _ _ hrow
    refine ⟨h.context_eq, ?_, ?_, ?_, ?_, h.joined.snoc fun p hp => nomatch hp⟩
    · rw [← h.pairs_eq]
      exact map_pair_set hrow rfl
    · rw [enqueues_append]
      exact h.enqueued.enqueue hrow hnoted status
    · rw [processings_append, show processings [Op.enqueue pairIndex status] = [] from rfl,
        append_nil]
      exact h.processed.set
        ⟨hprocess.processed, hprocess.fresh, hprocess.available, hprocess.trajectory⟩
    · rw [updates_append, show updates [Op.enqueue pairIndex status] = [] from rfl, append_nil]
      exact h.updated.set ⟨hupdate.ids, hupdate.updates, hupdate.single⟩
  · subst ht
    exact h.reject hfailed message

theorem Ledger.wp_processing (h : Ledger context pairs ops t) (hfailed : t.failed = false)
    (hpairs : 2 * pairs.length ≤ 2 ^ 64) (p : Processing) :
    wp (noteProcessing p)
      (fun _ t' => Ledger context pairs (ops ++ [.processing p]) t')
      (fun message t' => Ledger context pairs ops (t'.reject message)) t := by
  have hroom := h.processed.no_overflow (h.rows_length ▸ hpairs)
  refine wp_mono (wp_noteProcessing p) (fun _ t' ht => ?_) (fun message t' ht => ?_)
  · obtain ⟨_, row, hrow, hjoins, ht⟩ := ht
    have hjoined : Joined pairs (ops ++ [.processing p]) := by
      refine h.joined.snoc fun q hq => ?_
      cases hq
      refine ⟨h.mem_enqueue hrow hjoins.enqueued hjoins.queued, row.pair, ?_, hjoins.timestamp⟩
      rw [← h.pairs_eq, getElem?_map, hrow]
      rfl
    have henqueues : enqueues (ops ++ [.processing p]) = enqueues ops := by
      rw [enqueues_append, show enqueues [Op.processing p] = [] from rfl, append_nil]
    have hupdates : updates (ops ++ [.processing p]) = updates ops := by
      rw [updates_append, show updates [Op.processing p] = [] from rfl, append_nil]
    have henqueue := h.enqueued.row _ _ hrow
    have hupdate := h.updated.row _ _ hrow
    have hprocessings : processings (ops ++ [.processing p]) = processings ops ++ [p] :=
      processings_append _ _
    rcases ht with ⟨hemitted, rfl⟩ | ⟨hemitted, _, rfl⟩
    · refine ⟨h.context_eq, ?_, henqueues ▸ h.enqueued.set henqueue, ?_, ?_, hjoined⟩
      · rw [← h.pairs_eq]
        exact map_pair_set hrow rfl
      · rw [hprocessings]
        exact h.processed.process hrow hjoins hemitted
      · rw [hupdates]
        exact h.updated.set ⟨hupdate.ids, hupdate.updates, hupdate.single⟩
    · refine ⟨h.context_eq, ?_, henqueues ▸ h.enqueued.set henqueue, ?_, ?_, hjoined⟩
      · rw [← h.pairs_eq]
        exact map_pair_set hrow rfl
      · rw [hprocessings]
        exact h.processed.emit hrow hjoins hemitted hroom
      · rw [hupdates]
        exact h.updated.set ⟨hupdate.ids, hupdate.updates, hupdate.single⟩
  · rcases ht with rfl | ⟨_, _, hoverflow⟩
    · exact h.reject hfailed message
    · exact absurd hoverflow hroom

theorem Ledger.wp_update (h : Ledger context pairs ops t) (hfailed : t.failed = false)
    (event : CP2LiveUpdateEvent) :
    wp (noteUpdate event)
      (fun _ t' => Ledger context pairs (ops ++ [.update event]) t')
      (fun message t' => Ledger context pairs ops (t'.reject message)) t := by
  have henqueues : enqueues (ops ++ [.update event]) = enqueues ops := by
    rw [enqueues_append, show enqueues [Op.update event] = [] from rfl, append_nil]
  have hprocessings : processings (ops ++ [.update event]) = processings ops := by
    rw [processings_append, show processings [Op.update event] = [] from rfl, append_nil]
  have hupdates : updates (ops ++ [.update event]) = updates ops ++ [event] := updates_append _ _
  have hupdated := h.updated
  rw [hfailed] at hupdated
  refine wp_mono (wp_noteUpdate event) (fun _ t' ht => ?_) (fun message t' ht => ?_)
  · obtain ⟨_, row, hrow, hjoins, hroom, rfl⟩ := ht
    have henqueue := h.enqueued.row _ _ hrow
    have hprocess := h.processed.row _ _ hrow
    refine ⟨h.context_eq, ?_, henqueues ▸ h.enqueued.set henqueue, ?_, ?_,
      h.joined.snoc fun p hp => nomatch hp⟩
    · rw [← h.pairs_eq]
      exact map_pair_set hrow rfl
    · rw [hprocessings]
      exact h.processed.set
        ⟨hprocess.processed, hprocess.fresh, hprocess.available, hprocess.trajectory⟩
    · rw [hupdates, h.context_eq]
      change Updated _ _ _ t.failed _
      rw [hfailed]
      exact hupdated.invoke hrow hjoins.empty hjoins.next hroom
  · rcases ht with rfl | ⟨_, row, hrow, hjoins, hlast, rfl⟩
    · exact h.reject hfailed message
    · -- the last id is stored, and the note is rejected
      have hid : event.invocationId.toNat + 1 = 2 ^ 64 := by
        rw [hjoins.next]
        exact hlast
      have henqueue := h.enqueued.row _ _ hrow
      have hprocess := h.processed.row _ _ hrow
      have hfail := hupdated.fail
      rw [reject_of_not_failed (by exact hfailed)]
      refine ⟨h.context_eq, ?_, h.enqueued.set henqueue, ?_, ?_, h.joined⟩
      · rw [← h.pairs_eq]
        exact map_pair_set hrow rfl
      · exact h.processed.set
          ⟨hprocess.processed, hprocess.fresh, hprocess.available, hprocess.trajectory⟩
      · rw [h.context_eq]
        exact hfail.set ((hupdated.row _ _ hrow).overflow hid)

theorem Ledger.write (h : Ledger context pairs ops t) (files : List (Sink × String)) :
    Ledger context pairs ops (t.write files) :=
  ⟨h.context_eq, h.pairs_eq, h.enqueued, h.processed, h.updated, h.joined⟩

theorem Ledger.wp_finalize (h : Ledger context pairs ops t) (hfailed : t.failed = false)
    (e : Surroundings) :
    wp (Serial.finalize e)
      (fun _ t' => Ledger context pairs (ops ++ [.finalize e]) t')
      (fun message t' => Ledger context pairs ops (t'.reject message)) t := by
  have henqueues : enqueues (ops ++ [.finalize e]) = enqueues ops := by
    rw [enqueues_append, show enqueues [Op.finalize e] = [] from rfl, append_nil]
  have hprocessings : processings (ops ++ [.finalize e]) = processings ops := by
    rw [processings_append, show processings [Op.finalize e] = [] from rfl, append_nil]
  have hupdates : updates (ops ++ [.finalize e]) = updates ops := by
    rw [updates_append, show updates [Op.finalize e] = [] from rfl, append_nil]
  refine wp_mono (Serial.wp_finalize e) (fun _ t' ht => ?_) (fun message t' ht => ?_)
  · obtain ⟨_, _, files, _, rfl⟩ := ht
    have hjoined : Joined pairs (ops ++ [.finalize e]) := h.joined.snoc fun p hp => nomatch hp
    exact ⟨h.context_eq, h.pairs_eq, henqueues ▸ h.enqueued, hprocessings ▸ h.processed,
      hupdates ▸ h.updated, hjoined⟩
  · obtain ⟨⟨files, rfl⟩, _⟩ := ht
    exact (h.write files).reject hfailed message

theorem Ledger.perform (h : Ledger context pairs ops t) (hpairs : 2 * pairs.length ≤ 2 ^ 64)
    (op : Op) :
    Ledger context pairs (ops ++ if (perform op t).1 then [op] else []) (perform op t).2 := by
  cases hfailed : t.failed with
  | true =>
    rw [perform_failed hfailed, if_neg Bool.false_ne_true, append_nil]
    exact h
  | false =>
    have hwp : wp op.note (fun _ t' => Ledger context pairs (ops ++ [op]) t')
        (fun message t' => Ledger context pairs ops (t'.reject message)) t := by
      cases op with
      | enqueue pairIndex status => exact h.wp_enqueue hfailed pairIndex status
      | processing p => exact h.wp_processing hfailed hpairs p
      | update event => exact h.wp_update hfailed event
      | finalize e => exact h.wp_finalize hfailed e
    unfold wp at hwp
    rcases perform_cases op t with ⟨t', hrun, heq⟩ | ⟨message, t', hrun, heq⟩
    · rw [heq, if_pos rfl]
      rw [hrun] at hwp
      exact hwp
    · rw [heq, if_neg Bool.false_ne_true, append_nil]
      rw [hrun] at hwp
      exact hwp

end Steps

/-! ## Runs from an accepted population -/

section Accounts

variable {context : CP2RuntimeContext} {held : Option Bool} {pairs : List CP2SerialPair}

theorem construct_accepted
    (h : (CP2SerialRuntimeTrace.construct context held pairs).failed = false) :
    populationValid context 0 none [] pairs = true ∧
      CP2SerialRuntimeTrace.construct context held pairs =
        { context := context, heldCapabilityMode := held.isSome,
          rows := pairs.map fun pair => { pair := pair } } := by
  unfold CP2SerialRuntimeTrace.construct at *
  simp only at *
  split at h
  · cases h
  split at h
  · rename_i hheld hvalid
    exact ⟨hvalid, by rw [if_neg hheld, if_pos hvalid]⟩
  · cases h

theorem ledger_construct
    (h : (CP2SerialRuntimeTrace.construct context held pairs).failed = false) :
    Ledger context pairs [] (CP2SerialRuntimeTrace.construct context held pairs) := by
  rw [(construct_accepted h).2]
  have hrow : ∀ (index : Nat) (row : Row),
      (pairs.map fun pair => ({ pair := pair } : Row))[index]? = some row →
        ∃ pair, row = { pair := pair } := by
    intro index row hrow
    rw [getElem?_map, Option.map_eq_some_iff] at hrow
    obtain ⟨pair, _, rfl⟩ := hrow
    exact ⟨pair, rfl⟩
  refine ⟨rfl, by simp [Function.comp_def], ⟨fun index row hfound => ?_, ?_⟩,
    ⟨fun index row hfound => ?_, ?_, rfl⟩, ⟨fun index row hfound => ?_, ?_, rfl, rfl⟩, ?_⟩
  · obtain ⟨pair, rfl⟩ := hrow index row hfound
    rfl
  · exact fun q hq => absurd hq not_mem_nil
  · obtain ⟨pair, rfl⟩ := hrow index row hfound
    refine ⟨rfl, fun _ => ⟨rfl, rfl⟩, rfl, fun k p hk => ?_⟩
    simp [emissions, processings] at hk
  · exact fun p hp => absurd hp not_mem_nil
  · obtain ⟨pair, rfl⟩ := hrow index row hfound
    refine ⟨⟨[], rfl, fun id hid => absurd hid not_mem_nil, fun _ => rfl⟩, fun _ => ?_,
      fun _ => Nat.zero_le 1⟩
    split <;> rfl
  · exact fun event hevent => absurd hevent not_mem_nil
  · intro before p after heq
    simp at heq

theorem ledger_of_run {es : List (Entry CP2SerialRuntimeTrace Op)} {s : CP2SerialRuntimeTrace}
    (hinit : (CP2SerialRuntimeTrace.construct context held pairs).failed = false)
    (h : Run step (CP2SerialRuntimeTrace.construct context held pairs) es s) :
    Ledger context pairs (accepted es) s := by
  have hpairs := length_le_of_populationValid context pairs 0 none nodup_nil
    (construct_accepted hinit).1
  rw [length_nil, Nat.zero_add] at hpairs
  refine h.history (P := fun es s => Ledger context pairs (accepted es) s)
    (ledger_construct hinit) fun es t op t' ht hstep => ?_
  have hperform := ht.perform hpairs op
  rw [show (perform op t).2 = t' from hstep] at hperform
  have haccepted : accepted (es ++ [⟨t, op, t'⟩]) =
      accepted es ++ if (perform op t).1 then [op] else [] := by
    rw [accepted_append]
    unfold accepted
    simp only [filterMap_cons, filterMap_nil]
    split <;> rename_i hnote <;> split at hnote <;> simp_all
  rw [haccepted]
  exact hperform

end Accounts

end Bravo.Serial
