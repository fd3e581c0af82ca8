import Bravo.Journal.Sink

/-! # The journal stream is a canonical prefix

Whatever the writer does, the bytes it took are the preamble and the published frames in order,
followed by a part of one more frame at most, and the sink's counters agree with them.
-/

namespace Bravo.Journal

open Bravo.Trace List SinkState

/-! ## Rejecting -/

variable {s : SinkState}

theorem SinkState.ready_iff : s.ready = true ↔ s.sink.failure = .kNone := by
  simp [ready]

theorem SinkState.reject_of_ready (h : s.ready = true) (failure : CP2TraceJournalFailure) :
    s.reject failure = { s with sink := { s.sink with failure := failure } } := by
  rw [reject, if_pos (ready_iff.mp h)]

theorem SinkState.reject_of_not_ready (h : s.ready = false)
    (failure : CP2TraceJournalFailure) : s.reject failure = s := by
  rw [reject, if_neg]
  intro hnone
  rw [ready_iff.mpr hnone] at h
  cases h

/-! ## One `WriteAll` -/

/-- What the loop of `WriteAll` did with `data`: its first `n` bytes went into the stream, and only
the last attempt can have failed. -/
structure Wrote (data : List UInt8) (s : SinkState) (ok : Bool) (s' : SinkState) (n : Nat) :
    Prop where
  le : n ≤ data.length
  sink : s'.sink =
    { s.sink with bytesWritten := s'.sink.bytesWritten, failure := s'.sink.failure }
  stream : s'.log.stream = s.log.stream ++ data.take n
  bound : s'.sink.bytesWritten.toNat ≤ s.sink.bytesWritten.toNat + data.length
  counted : s'.log.overReported = false →
    s.log.overReported = false ∧ s'.sink.bytesWritten.toNat = s.sink.bytesWritten.toNat + n
  complete : ok = true → n = data.length ∧ s'.sink.failure = .kNone
  failed : ok = false → s'.sink.failure = .kWriteFailure
  calls : ∃ calls, (∀ c ∈ calls, c = false) ∧
    s'.log.failedCalls = s.log.failedCalls ++ calls ++ if ok then [] else [true]

def SinkState.attempted (s : SinkState) (data : List UInt8) (r : WriteResponse data.length) :
    SinkState :=
  ⟨{ s.sink with bytesWritten := s.sink.bytesWritten + r.bytesWritten }, s.log.record data r⟩

section Attempt

variable {data : List UInt8} {s : SinkState} {r : WriteResponse data.length}

theorem WriteResponse.le_of_not_overReports (h : r.overReports = false) :
    r.bytesWritten.toNat ≤ data.length := by
  simpa [WriteResponse.overReports] using h

theorem SinkState.attempted_bytes (h : r.overReports = false)
    (hlt : s.sink.bytesWritten.toNat + data.length < 2 ^ 64) :
    (s.attempted data r).sink.bytesWritten.toNat =
      s.sink.bytesWritten.toNat + r.bytesWritten.toNat := by
  have hle := WriteResponse.le_of_not_overReports h
  rw [attempted, UInt64.toNat_add]
  omega

/-- An attempt that reports too many bytes ends the loop, and none of them is counted. -/
theorem wrote_of_overReports (hready : s.ready = true) (h : r.overReports = true) :
    Wrote data s false (SinkState.reject ⟨s.sink, s.log.record data r⟩ .kWriteFailure)
      r.taken := by
  have hready' : ready ⟨s.sink, s.log.record data r⟩ = true := hready
  rw [reject_of_ready hready']
  refine ⟨r.taken_le, rfl, rfl, Nat.le_add_right _ _, ?_, ?_, fun _ => rfl, [], ?_, ?_⟩
  · intro hnot
    simp [WriterLog.record, h] at hnot
  · intro hok
    cases hok
  · intro c hc
    cases hc
  · simp [WriterLog.record, WriteResponse.failed, h]

theorem wrote_of_failed (hready : s.ready = true) (hover : r.overReports = false)
    (hfailed : r.failed = true) (hlt : s.sink.bytesWritten.toNat + data.length < 2 ^ 64) :
    Wrote data s false ((s.attempted data r).reject .kWriteFailure) r.bytesWritten.toNat := by
  have hle := WriteResponse.le_of_not_overReports hover
  have hbytes := attempted_bytes hover hlt
  have hready' : (s.attempted data r).ready = true := hready
  rw [reject_of_ready hready']
  refine ⟨hle, rfl, ?_, ?_, ?_, ?_, fun _ => rfl, [], ?_, ?_⟩
  · simp only [attempted, WriterLog.record, r.taken_eq hle]
  · simp only [hbytes]
    omega
  · intro hnot
    simp only [attempted, WriterLog.record, Bool.or_eq_false_iff] at hnot
    exact ⟨hnot.1, hbytes⟩
  · intro hok
    cases hok
  · intro c hc
    cases hc
  · simp [attempted, WriterLog.record, hfailed]

theorem Wrote.after_attempt {s' : SinkState} {ok : Bool} {n : Nat} (hover : r.overReports = false)
    (hfailed : r.failed = false) (hlt : s.sink.bytesWritten.toNat + data.length < 2 ^ 64)
    (h : Wrote (data.drop r.bytesWritten.toNat) (s.attempted data r) ok s' n) :
    Wrote data s ok s' (r.bytesWritten.toNat + n) := by
  have hle := WriteResponse.le_of_not_overReports hover
  have hbytes := attempted_bytes hover hlt
  have hn := h.le
  rw [length_drop] at hn
  refine ⟨by omega, h.sink, ?_, ?_, ?_, ?_, h.failed, ?_⟩
  · have hstream := h.stream
    rw [attempted, WriterLog.record, r.taken_eq hle] at hstream
    rw [hstream, append_assoc, take_add]
  · have hbound := h.bound
    rw [hbytes, length_drop] at hbound
    omega
  · intro hreported
    obtain ⟨hlog, hcount⟩ := h.counted hreported
    rw [hbytes] at hcount
    rw [attempted, WriterLog.record, Bool.or_eq_false_iff] at hlog
    exact ⟨hlog.1, by omega⟩
  · intro hok
    obtain ⟨hn, hnone⟩ := h.complete hok
    rw [length_drop] at hn
    exact ⟨by omega, hnone⟩
  · obtain ⟨calls, hcalls, heq⟩ := h.calls
    refine ⟨false :: calls, ?_, ?_⟩
    · intro c hc
      rcases mem_cons.mp hc with rfl | hc
      · rfl
      · exact hcalls c hc
    · rw [heq, attempted, WriterLog.record, hfailed]
      simp

end Attempt

theorem wrote_nil (hready : s.ready = true) : Wrote [] s true s 0 := by
  refine ⟨le_rfl, rfl, ?_, le_rfl, ?_, ?_, ?_, [], ?_, ?_⟩
  all_goals simp [ready_iff.mp hready]

theorem writeLoop_succ {writer : Writer} {fuel : Nat} {data : List UInt8}
    (hdata : data ≠ []) (hlt : s.sink.bytesWritten.toNat + data.length < 2 ^ 64) :
    writeLoop writer (fuel + 1) data s =
      let r := writer.write data.length
      if r.overReports then (false, SinkState.reject ⟨s.sink, s.log.record data r⟩ .kWriteFailure)
      else if r.failed then (false, (s.attempted data r).reject .kWriteFailure)
      else writeLoop writer fuel (data.drop r.bytesWritten.toNat) (s.attempted data r) := by
  obtain ⟨b, bs, rfl⟩ := exists_cons_of_ne_nil hdata
  simp only [writeLoop]
  generalize hr : writer.write (b :: bs).length = r
  by_cases hover : r.overReports = true
  · have hlong : (b :: bs).length < r.bytesWritten.toNat := by
      simpa [WriteResponse.overReports] using hover
    rw [if_pos hlong, if_pos hover]
  · have hle : r.bytesWritten.toNat ≤ (b :: bs).length := by
      simpa [WriteResponse.overReports] using hover
    rw [if_neg (by omega), if_neg (by omega), if_neg hover]
    have hfailed : r.failed = (!r.success || r.bytesWritten == 0) := by
      rw [Bool.not_eq_true] at hover
      rw [WriteResponse.failed, hover, Bool.or_false]
    rw [hfailed]
    rfl

theorem writeLoop_wrote (writer : Writer) :
    ∀ (fuel : Nat) (data : List UInt8) (s : SinkState), data.length ≤ fuel → s.ready = true →
      s.sink.bytesWritten.toNat + data.length < 2 ^ 64 →
      ∃ n, Wrote data s (writeLoop writer fuel data s).1 (writeLoop writer fuel data s).2 n := by
  intro fuel
  induction fuel with
  | zero =>
    intro data s hfuel hready hlt
    obtain rfl := eq_nil_of_length_eq_zero (Nat.le_zero.mp hfuel)
    exact ⟨0, wrote_nil hready⟩
  | succ fuel ih =>
    intro data s hfuel hready hlt
    by_cases hdata : data = []
    · subst hdata
      exact ⟨0, wrote_nil hready⟩
    · rw [writeLoop_succ hdata hlt]
      generalize writer.write data.length = r
      by_cases hover : r.overReports = true
      · simp only [if_pos hover]
        exact ⟨_, wrote_of_overReports hready hover⟩
      · rw [Bool.not_eq_true] at hover
        by_cases hfailed : r.failed = true
        · simp only [hover, hfailed]
          exact ⟨_, wrote_of_failed hready hover hfailed hlt⟩
        · rw [Bool.not_eq_true] at hfailed
          simp only [hover, hfailed]
          have hle := WriteResponse.le_of_not_overReports hover
          have hbytes := attempted_bytes hover hlt
          have hpos : 0 < data.length := length_pos_of_ne_nil hdata
          have hzero : r.bytesWritten.toNat ≠ 0 := by
            intro h
            have : r.bytesWritten = 0 := UInt64.toNat_inj.mp h
            simp [WriteResponse.failed, this] at hfailed
          obtain ⟨n, hn⟩ := ih (data.drop r.bytesWritten.toNat) (s.attempted data r)
            (by rw [length_drop]; omega) hready
            (by rw [hbytes, length_drop]; omega)
          exact ⟨_, hn.after_attempt hover hfailed hlt⟩

/-- **The two outcomes of `WriteAll`** on a ready sink: the frame does not fit, and nothing is
written; or it fits, and the loop runs. -/
theorem writeAll_cases (writer : Writer) (data : List UInt8) (hready : s.ready = true)
    (hwriter : s.sink.hasWriter = true) :
    writeAll writer data s = (false, s.reject .kArithmeticOverflow) ∨
    s.sink.bytesWritten.toNat + data.length ≤ s.sink.maximumJournalBytes.toNat ∧
      ∃ n, Wrote data s (writeAll writer data s).1 (writeAll writer data s).2 n := by
  have hguard : ¬ (!s.ready || !s.sink.hasWriter) = true := by
    simp [hready, hwriter]
  rw [writeAll, if_neg hguard]
  by_cases hfits : 2 ^ 64 ≤ s.sink.bytesWritten.toNat + data.length ∨
      s.sink.maximumJournalBytes.toNat < s.sink.bytesWritten.toNat + data.length
  · rw [if_pos hfits]
    exact .inl rfl
  · rw [if_neg hfits]
    exact .inr ⟨by omega, writeLoop_wrote writer _ _ _ le_rfl hready (by omega)⟩

/-! ## One call -/

/-- Whatever failure a record is refused with, the sink is not ready afterwards, and the failure
is not one of the writer. -/
def Refuses {α : Type} (x : Except CP2TraceJournalFailure α) : Prop :=
  ∀ failure, x = .error failure → failure ≠ .kNone ∧ failure ≠ .kWriteFailure

section Refuses

variable {α β : Type}

theorem Refuses.error {failure : CP2TraceJournalFailure}
    (h : failure ≠ .kNone ∧ failure ≠ .kWriteFailure) :
    Refuses (.error failure : Except CP2TraceJournalFailure α) := by
  intro e he
  cases he
  exact h

theorem Refuses.ok (a : α) : Refuses (.ok a) := by
  intro e he
  cases he

theorem Refuses.bind {x : Except CP2TraceJournalFailure α}
    {f : α → Except CP2TraceJournalFailure β} (hx : Refuses x) (hf : ∀ a, Refuses (f a)) :
    Refuses (x >>= f) := by
  intro e he
  cases x with
  | ok a => exact hf a e he
  | error e' =>
    cases he
    exact hx e rfl

theorem refuses_require (c : Bool) {failure : CP2TraceJournalFailure}
    (h : failure ≠ .kNone ∧ failure ≠ .kWriteFailure) : Refuses (require c failure) := by
  cases c with
  | true => exact .ok ()
  | false => exact .error h

theorem refuses_encoded (x : Except String α) : Refuses (encoded x) := by
  cases x with
  | ok a => exact .ok a
  | error _ => exact .error (by decide)

theorem refuses_checked (x : Option α) : Refuses (checked x) := by
  cases x with
  | some a => exact .ok a
  | none => exact .error (by decide)

theorem refuses_mapM {f : α → Except CP2TraceJournalFailure β} (hf : ∀ a, Refuses (f a)) :
    ∀ xs : List α, Refuses (xs.mapM f) := by
  intro xs
  induction xs with
  | nil => exact .ok []
  | cons x xs ih =>
    rw [mapM_cons]
    exact (hf x).bind fun _ => ih.bind fun _ => .ok _

end Refuses

theorem refuses_stateContents (record : CP2RecordedUpdateEvent) :
    Refuses (stateContents record) := by
  apply refuses_mapM
  intro p
  unfold stateContent
  split
  · exact .error (by decide)
  · split
    · exact .error (by decide)
    · exact .ok _

theorem refuses_validateAndEncode (record : CP2RecordedUpdateEvent) :
    Refuses (validateAndEncode record) := by
  unfold validateAndEncode
  refine (refuses_require _ (by decide)).bind fun _ => ?_
  refine (refuses_require _ (by decide)).bind fun _ => ?_
  refine (refuses_require _ (by decide)).bind fun _ => ?_
  refine (refuses_require _ (by decide)).bind fun _ => ?_
  refine (refuses_require _ (by decide)).bind fun _ => ?_
  refine (refuses_stateContents record).bind fun states => ?_
  refine (refuses_encoded _).bind fun encodedState => ?_
  refine (refuses_require _ (by decide)).bind fun _ => ?_
  refine (refuses_require _ (by decide)).bind fun _ => ?_
  refine (refuses_require _ (by decide)).bind fun _ => ?_
  refine (refuses_require _ (by decide)).bind fun _ => ?_
  refine (refuses_encoded _).bind fun encodedRaw => ?_
  refine (refuses_require _ (by decide)).bind fun _ => ?_
  refine (refuses_require _ (by decide)).bind fun _ => ?_
  refine (refuses_encoded _).bind fun encodedProposal => ?_
  refine (refuses_require _ (by decide)).bind fun _ => ?_
  refine (refuses_require _ (by decide)).bind fun _ => ?_
  split
  · refine (refuses_checked _).bind fun features => ?_
    refine (refuses_require _ (by decide)).bind fun _ => ?_
    refine (refuses_checked _).bind fun global => ?_
    exact (refuses_require _ (by decide)).bind fun _ => refuses_checked _
  · exact .error (by decide)

theorem checkIdentity_refuses {sink : CP2TraceJournalSink} {update : CP2LiveUpdateEvent}
    {failure : CP2TraceJournalFailure} (h : checkIdentity sink update = some failure) :
    failure ≠ .kNone ∧ failure ≠ .kWriteFailure := by
  unfold checkIdentity at h
  repeat' split at h
  all_goals simp at h
  all_goals subst h
  all_goals decide

def SinkState.advance (s : SinkState) (recordsWritten : UInt64) (update : CP2LiveUpdateEvent) :
    SinkState :=
  { s with
    sink := { s.sink with
      recordsWritten := recordsWritten
      haveIdentity := true
      sequenceIndex := update.sequenceIndex
      pairIndex := update.pairIndex
      cameraTimestampNs := update.cameraTimestampNs
      invocationId := update.invocationId } }

def SinkState.close (s : SinkState) : SinkState := { s with sink := { s.sink with finalized := true } }

def SinkState.sync (s : SinkState) (success : Bool) : SinkState :=
  { s with log := { s.log with failedCalls := s.log.failedCalls ++ [!success] } }

inductive CallOutcome (s : SinkState) (call : SinkCall) : SinkResult → SinkState → Prop
  | ignored {record : Option CP2RecordedUpdateEvent} (hop : call.op = .publish record)
      (hoff : s.ready = false ∨ s.sink.finalized = true) : CallOutcome s call .rejected s
  | refused {record : Option CP2RecordedUpdateEvent} {failure : CP2TraceJournalFailure}
      (hop : call.op = .publish record) (hready : s.ready = true)
      (hopen : s.sink.finalized = false)
      (hfailure : failure ≠ .kNone ∧ failure ≠ .kWriteFailure) :
      CallOutcome s call .rejected (s.reject failure)
  | torn {record : CP2RecordedUpdateEvent} {frame : List UInt8} {s' : SinkState} {n : Nat}
      (hop : call.op = .publish (some record)) (hready : s.ready = true)
      (hopen : s.sink.finalized = false) (hframe : validateAndEncode record = .ok frame)
      (hfits : s.sink.bytesWritten.toNat + frame.length ≤ s.sink.maximumJournalBytes.toNat)
      (hall : writeAll call.writer frame s = (false, s')) (hwrote : Wrote frame s false s' n) :
      CallOutcome s call .rejected s'
  | published {record : CP2RecordedUpdateEvent} {frame : List UInt8} {s' : SinkState} {n : Nat}
      (hop : call.op = .publish (some record)) (hready : s.ready = true)
      (hopen : s.sink.finalized = false) (hidentity : checkIdentity s.sink record.update = none)
      (hframe : validateAndEncode record = .ok frame)
      (hrecords : s.sink.recordsWritten.toNat + 1 < 2 ^ 64)
      (hfits : s.sink.bytesWritten.toNat + frame.length ≤ s.sink.maximumJournalBytes.toNat)
      (hwrote : Wrote frame s true s' n) :
      CallOutcome s call .published (s'.advance (s.sink.recordsWritten + 1) record.update)
  | again (hop : call.op = .finalize) (hdone : s.sink.finalized = true) :
      CallOutcome s call (.finalized s.ready) s
  | unready (hop : call.op = .finalize) (hopen : s.sink.finalized = false)
      (hready : s.ready = false) : CallOutcome s call (.finalized false) s.close
  | synced (hop : call.op = .finalize) (hopen : s.sink.finalized = false)
      (hready : s.ready = true) : CallOutcome s call (.finalized true) (s.close.sync true)
  | unsynced (hop : call.op = .finalize) (hopen : s.sink.finalized = false)
      (hready : s.ready = true) :
      CallOutcome s call (.finalized false) ((s.close.sync false).reject .kSyncFailure)

theorem publish_outcome {call : SinkCall}
    (hwriter : s.ready = true → s.sink.hasWriter = true) {record : Option CP2RecordedUpdateEvent}
    (hop : call.op = .publish record) :
    CallOutcome s call (runCall s call).1 (runCall s call).2 := by
  simp only [runCall, hop, publish]
  by_cases hoff : (!s.ready || s.sink.finalized) = true
  · rw [if_pos hoff]
    exact CallOutcome.ignored hop (by simpa using hoff)
  · have hready : s.ready = true := by
      cases h : s.ready <;> simp [h] at hoff ⊢
    have hopen : s.sink.finalized = false := by
      cases h : s.sink.finalized <;> simp [h] at hoff ⊢
    rw [if_neg hoff]
    cases record with
    | none => exact CallOutcome.refused hop hready hopen (by decide)
    | some record =>
      cases hidentity : checkIdentity s.sink record.update with
      | some failure =>
        simp only [hidentity]
        exact CallOutcome.refused hop hready hopen (checkIdentity_refuses hidentity)
      | none =>
        cases hframe : validateAndEncode record with
        | error failure =>
          simp only [hidentity, hframe]
          exact CallOutcome.refused hop hready hopen
            (refuses_validateAndEncode record failure hframe)
        | ok frame =>
          simp only [hidentity, hframe]
          by_cases hrecords : 2 ^ 64 ≤ s.sink.recordsWritten.toNat + 1
          · simp only [if_pos hrecords]
            exact CallOutcome.refused hop hready hopen (by decide)
          · simp only [if_neg hrecords]
            rcases writeAll_cases call.writer frame hready (hwriter hready) with
              hall | ⟨hfits, n, hwrote⟩
            · simp only [hall]
              exact CallOutcome.refused hop hready hopen (by decide)
            · generalize hall : writeAll call.writer frame s = result at hwrote
              obtain ⟨ok, s'⟩ := result
              cases ok with
              | false => exact CallOutcome.torn hop hready hopen hframe hfits hall hwrote
              | true =>
                exact CallOutcome.published hop hready hopen hidentity hframe
                  (by omega) hfits hwrote

theorem finalize_outcome {call : SinkCall}
    (hwriter : s.ready = true → s.sink.hasWriter = true) (hop : call.op = .finalize) :
    CallOutcome s call (runCall s call).1 (runCall s call).2 := by
  simp only [runCall, hop, finalize]
  by_cases hdone : s.sink.finalized = true
  · rw [if_pos hdone]
    exact CallOutcome.again hop hdone
  · rw [if_neg hdone]
    rw [Bool.not_eq_true] at hdone
    by_cases hready : s.ready = true
    · have hguard : ¬ (!s.close.ready || !s.close.sink.hasWriter) = true := by
        have hready' : s.close.ready = true := hready
        have hwriter' : s.close.sink.hasWriter = true := hwriter hready
        simp [hready', hwriter']
      simp only [close] at hguard
      simp only [if_neg hguard]
      cases call.writer.sync s.sink.bytesWritten with
      | false => exact CallOutcome.unsynced hop hdone hready
      | true => exact CallOutcome.synced hop hdone hready
    · rw [Bool.not_eq_true] at hready
      have hready' : s.close.ready = false := hready
      have hguard : (!s.close.ready || !s.close.sink.hasWriter) = true := by
        simp [hready']
      simp only [close] at hguard
      simp only [if_pos hguard]
      have hreject := reject_of_not_ready hready' .kSyncFailure
      simp only [close] at hreject
      rw [hreject]
      exact CallOutcome.unready hop hdone hready

/-- **Everything a call can do**, on a sink that has a writer while it is ready. -/
theorem runCall_outcome (hwriter : s.ready = true → s.sink.hasWriter = true)
    (call : SinkCall) : CallOutcome s call (runCall s call).1 (runCall s call).2 := by
  cases hop : call.op with
  | publish record => exact publish_outcome hwriter hop
  | finalize => exact finalize_outcome hwriter hop

/-! ## The stream over a run -/

/-- The frame of a record, as `Publish` writes it. -/
def frameOf (record : CP2RecordedUpdateEvent) : List UInt8 :=
  (validateAndEncode record).toOption.getD []

def publishedFrames (es : List (Entry SinkState SinkCall)) : List (List UInt8) :=
  (publishedRecords es).map frameOf

def completeFrames : List (List UInt8) → List UInt8 → Nat
  | [], _ => 0
  | frame :: frames, bytes =>
    if frame <+: bytes then completeFrames frames (bytes.drop frame.length) + 1 else 0

theorem frameOf_eq {record : CP2RecordedUpdateEvent} {frame : List UInt8}
    (h : validateAndEncode record = .ok frame) : frameOf record = frame := by
  rw [frameOf, h]
  rfl

theorem offeredFrames_snoc (es : List (Entry SinkState SinkCall)) (e : Entry SinkState SinkCall) :
    offeredFrames (es ++ [e]) = offeredFrames es ++ offeredFrame e := by
  simp [offeredFrames]

theorem publishedRecords_snoc (es : List (Entry SinkState SinkCall))
    (e : Entry SinkState SinkCall) :
    publishedRecords (es ++ [e]) = publishedRecords es ++ publishedRecord e := by
  simp [publishedRecords]

theorem publishedFrames_snoc (es : List (Entry SinkState SinkCall)) (e : Entry SinkState SinkCall) :
    publishedFrames (es ++ [e]) = publishedFrames es ++ (publishedRecord e).map frameOf := by
  simp [publishedFrames, publishedRecords_snoc]

section Entries

variable {e : Entry SinkState SinkCall}

theorem offeredFrame_of_not_ready (h : e.pre.ready = false) : offeredFrame e = [] := by
  rw [offeredFrame]
  split
  · rw [h]
    rfl
  · rfl

theorem offeredFrame_of_finalize (h : e.input.op = .finalize) : offeredFrame e = [] := by
  rw [offeredFrame, h]

theorem offeredFrame_of_frame {record : CP2RecordedUpdateEvent} {frame : List UInt8}
    (hop : e.input.op = .publish (some record)) (hready : e.pre.ready = true)
    (hframe : validateAndEncode record = .ok frame) : offeredFrame e = [frame] := by
  rw [offeredFrame, hop]
  simp only [hready, hframe, if_true]

theorem publishedRecord_of_ne (h : resultOf e ≠ .published) : publishedRecord e = [] := by
  rw [publishedRecord]
  split
  · contradiction
  · rfl

theorem publishedRecord_of_published {record : CP2RecordedUpdateEvent}
    (hop : e.input.op = .publish (some record)) (h : resultOf e = .published) :
    publishedRecord e = [record] := by
  rw [publishedRecord, hop, h]

end Entries

/-- The stream against the frames that were offered and published. -/
inductive StreamShape (es : List (Entry SinkState SinkCall)) (s : SinkState) : Prop
  | unopened (hready : s.ready = false) (hstream : s.log.stream <+: preamble)
      (hoffered : offeredFrames es = []) (hpublished : publishedRecords es = [])
  /-- The published frames, and a part of the next one if its write failed. -/
  | opened (rest : List (List UInt8)) (torn : List UInt8)
      (hoffered : offeredFrames es = publishedFrames es ++ rest)
      (hstream : s.log.stream = preamble ++ (publishedFrames es).flatten ++ torn)
      (htorn : torn <+: rest.headD [])
      (hfailed : torn ≠ [] → s.sink.failure = .kWriteFailure ∧
        s.log.failedCalls.getLast? = some true)
      (hrest : s.ready = true → s.sink.finalized = false → rest = [])

structure WriterAgrees (maximum : UInt64) (s : SinkState) : Prop where
  maximum_eq : s.sink.maximumJournalBytes = maximum
  bytes_le : s.sink.bytesWritten.toNat ≤ maximum.toNat
  bytes_eq : s.log.overReported = false → s.sink.bytesWritten.toNat = s.log.stream.length
  writer : s.ready = true → s.sink.hasWriter = true
  succeeded : s.ready = true → ∀ c ∈ s.log.failedCalls, c = false
  firstFailureLast : ∀ c ∈ s.log.failedCalls.dropLast, c = false

structure JournalInvariant (maximum : UInt64) (es : List (Entry SinkState SinkCall))
    (s : SinkState) : Prop where
  shape : StreamShape es s
  records : s.sink.recordsWritten.toNat = (publishedRecords es).length
  agrees : WriterAgrees maximum s

section Agrees

variable {maximum : UInt64} {s : SinkState}

theorem SinkState.not_ready_reject {failure : CP2TraceJournalFailure} (h : failure ≠ .kNone) :
    (s.reject failure).ready = false := by
  cases hready : s.ready with
  | false => rw [reject_of_not_ready hready, hready]
  | true =>
    rw [reject_of_ready hready]
    simpa [ready] using h

theorem SinkState.reject_log (failure : CP2TraceJournalFailure) :
    (s.reject failure).log = s.log := by
  unfold reject
  split <;> rfl

theorem WriterAgrees.reject (h : WriterAgrees maximum s) {failure : CP2TraceJournalFailure}
    (hfailure : failure ≠ .kNone) : WriterAgrees maximum (s.reject failure) := by
  cases hready : s.ready with
  | false =>
    rw [reject_of_not_ready hready]
    exact h
  | true =>
    have hnot := not_ready_reject (s := s) hfailure
    rw [reject_of_ready hready] at hnot ⊢
    refine ⟨h.maximum_eq, h.bytes_le, h.bytes_eq, ?_, ?_, h.firstFailureLast⟩
    all_goals
      intro hready'
      rw [hnot] at hready'
      cases hready'

theorem WriterAgrees.wrote {data : List UInt8} {s' : SinkState} {ok : Bool} {n : Nat}
    (h : WriterAgrees maximum s) (hready : s.ready = true)
    (hfits : s.sink.bytesWritten.toNat + data.length ≤ s.sink.maximumJournalBytes.toNat)
    (hw : Wrote data s ok s' n) : WriterAgrees maximum s' := by
  have hsink := hw.sink
  obtain ⟨calls, hcalls, hlog⟩ := hw.calls
  have hall : ∀ c ∈ s.log.failedCalls ++ calls, c = false := by
    intro c hc
    rcases mem_append.mp hc with hc | hc
    · exact h.succeeded hready c hc
    · exact hcalls c hc
  refine ⟨?_, ?_, ?_, ?_, ?_, ?_⟩
  · rw [hsink]
    exact h.maximum_eq
  · rw [h.maximum_eq] at hfits
    exact hw.bound.trans hfits
  · intro hover
    obtain ⟨hover', hcount⟩ := hw.counted hover
    rw [hcount, hw.stream, h.bytes_eq hover', length_append, length_take,
      Nat.min_eq_left hw.le]
  · intro _
    rw [hsink]
    exact h.writer hready
  · intro hready'
    cases ok with
    | true =>
      rw [hlog]
      simpa using hall
    | false =>
      rw [ready_iff, hw.failed rfl] at hready'
      cases hready'
  · rw [hlog]
    cases ok with
    | true =>
      intro c hc
      refine hall c (mem_of_mem_dropLast ?_)
      simpa using hc
    | false =>
      simpa using hall

theorem WriterAgrees.close (h : WriterAgrees maximum s) : WriterAgrees maximum s.close :=
  ⟨h.maximum_eq, h.bytes_le, h.bytes_eq, h.writer, h.succeeded, h.firstFailureLast⟩

theorem WriterAgrees.synced (h : WriterAgrees maximum s) (hready : s.ready = true) :
    WriterAgrees maximum (s.sync true) := by
  have hall : ∀ c ∈ s.log.failedCalls ++ [false], c = false := by
    intro c hc
    rcases mem_append.mp hc with hc | hc
    · exact h.succeeded hready c hc
    · exact mem_singleton.mp hc
  exact ⟨h.maximum_eq, h.bytes_le, h.bytes_eq, h.writer, fun _ => hall,
    fun c hc => hall c (mem_of_mem_dropLast hc)⟩

theorem WriterAgrees.unsynced (h : WriterAgrees maximum s) (hready : s.ready = true) :
    WriterAgrees maximum ((s.sync false).reject .kSyncFailure) := by
  have hready' : (s.sync false).ready = true := hready
  have hne : CP2TraceJournalFailure.kSyncFailure ≠ .kNone := by decide
  have hnot := not_ready_reject (s := s.sync false) hne
  rw [reject_of_ready hready'] at hnot ⊢
  refine ⟨h.maximum_eq, h.bytes_le, h.bytes_eq, ?_, ?_, ?_⟩
  · intro hr
    rw [hnot] at hr
    cases hr
  · intro hr
    rw [hnot] at hr
    cases hr
  · intro c hc
    refine h.succeeded hready c ?_
    simpa [sync] using hc

end Agrees

/-! ### The start -/

theorem construct_invariant (hasWriter : Bool) (maximum : UInt64) (writer : Writer) :
    JournalInvariant maximum [] (construct hasWriter maximum writer) := by
  unfold construct
  set s₀ : SinkState := ⟨{ hasWriter := hasWriter, maximumJournalBytes := maximum }, {}⟩ with hs₀
  have hready₀ : s₀.ready = true := rfl
  -- the sink before anything is written, and after a failure at this point
  have hfresh : hasWriter = true → WriterAgrees maximum s₀ := by
    intro hwriter
    refine ⟨rfl, Nat.zero_le _, fun _ => rfl, fun _ => hwriter, ?_, ?_⟩
    · intro _ c hc
      cases hc
    · intro c hc
      cases hc
  by_cases hwriter : hasWriter = true
  · rw [if_neg (by simp [hwriter])]
    rcases writeAll_cases writer preamble hready₀ hwriter with hall | ⟨hfits, n, hwrote⟩
    · rw [hall]
      refine ⟨.unopened (not_ready_reject (by decide)) ?_ rfl rfl, rfl,
        (hfresh hwriter).reject (by decide)⟩
      rw [reject_log]
      exact nil_prefix
    · generalize writeAll writer preamble s₀ = result at hwrote
      obtain ⟨ok, s⟩ := result
      have hstream : s.log.stream = preamble.take n := by
        rw [hwrote.stream]
        rfl
      have hrecords : s.sink.recordsWritten.toNat = 0 := by
        rw [hwrote.sink]
        rfl
      refine ⟨?_, hrecords, (hfresh hwriter).wrote hready₀ hfits hwrote⟩
      cases ok with
      | false =>
        have hnot : s.ready = false := by
          rw [ready, hwrote.failed rfl]
          rfl
        exact .unopened hnot (hstream ▸ take_prefix n preamble) rfl rfl
      | true =>
        refine .opened [] [] rfl ?_ nil_prefix ?_ ?_
        · rw [hstream, (hwrote.complete rfl).1, take_length]
          simp [publishedFrames, publishedRecords]
        · intro h
          contradiction
        · intro _ _
          rfl
  · rw [Bool.not_eq_true] at hwriter
    rw [if_pos (by simp [hwriter])]
    have hnot : (s₀.reject .kWriterUnavailable).ready = false :=
      not_ready_reject (by decide)
    rw [reject_of_ready hready₀] at hnot ⊢
    refine ⟨.unopened hnot nil_prefix rfl rfl, rfl, rfl, Nat.zero_le _,
      fun _ => rfl, ?_, ?_, ?_⟩
    · intro h
      rw [hnot] at h
      cases h
    · intro _ c hc
      cases hc
    · intro c hc
      cases hc

/-! ### One call -/

section Step

variable {maximum : UInt64} {es : List (Entry SinkState SinkCall)} {s s' : SinkState}

variable {call : SinkCall}

theorem StreamShape.quiet (h : StreamShape es s)
    (hresult : resultOf ⟨s, call, s'⟩ ≠ .published) (hlog : s'.log.stream = s.log.stream)
    (hready : s'.ready = true → s.ready = true)
    (hoffered : offeredFrame ⟨s, call, s'⟩ ≠ [] → s.ready = true ∧
      (s.sink.finalized = true ∨ s'.ready = false))
    (hfailed : s.ready = false → s'.sink.failure = s.sink.failure ∧
      s'.log.failedCalls = s.log.failedCalls)
    (hclosed : s'.sink.finalized = false → s.sink.finalized = false) :
    StreamShape (es ++ [⟨s, call, s'⟩]) s' := by
  have hpublished := publishedRecord_of_ne hresult
  cases h with
  | unopened hnot hstream ho hp =>
    refine .unopened ?_ (hlog ▸ hstream) ?_ ?_
    · cases h : s'.ready with
      | false => rfl
      | true =>
        rw [hready h] at hnot
        cases hnot
    · rw [offeredFrames_snoc, ho, offeredFrame_of_not_ready hnot]
      rfl
    · rw [publishedRecords_snoc, hp, hpublished]
      rfl
  | opened rest torn ho hstream htorn htornFailed hrest =>
    have hframes : publishedFrames (es ++ [⟨s, call, s'⟩]) = publishedFrames es := by
      rw [publishedFrames_snoc, hpublished, map_nil, append_nil]
    by_cases hnothing : torn = []
    · subst hnothing
      refine .opened (rest ++ offeredFrame ⟨s, call, s'⟩) [] ?_ ?_ nil_prefix
        ?_ ?_
      · rw [offeredFrames_snoc, ho, hframes, append_assoc]
      · rw [hlog, hstream, hframes]
      · intro h
        contradiction
      · intro hready' hopen'
        have hempty := hrest (hready hready') (hclosed hopen')
        have hnone : offeredFrame ⟨s, call, s'⟩ = [] := by
          by_contra hsome
          obtain ⟨_, hfin | hnot⟩ := hoffered hsome
          · rw [hclosed hopen'] at hfin
            cases hfin
          · rw [hnot] at hready'
            cases hready'
        rw [hempty, hnone]
        rfl
    · -- a torn frame: the sink is not ready, and nothing more is offered
      obtain ⟨hfailure, hlast⟩ := htornFailed hnothing
      have hnot : s.ready = false := by
        rw [ready, hfailure]
        rfl
      refine .opened rest torn ?_ ?_ htorn ?_ ?_
      · rw [offeredFrames_snoc, offeredFrame_of_not_ready hnot, ho, hframes, append_nil]
      · rw [hlog, hstream, hframes]
      · intro _
        obtain ⟨h₁, h₂⟩ := hfailed hnot
        rw [h₁, h₂]
        exact ⟨hfailure, hlast⟩
      · intro hready' _
        rw [hready hready'] at hnot
        cases hnot

theorem StreamShape.exact (h : StreamShape es s) (hready : s.ready = true)
    (hopen : s.sink.finalized = false) :
    offeredFrames es = publishedFrames es ∧
      s.log.stream = preamble ++ (publishedFrames es).flatten := by
  cases h with
  | unopened hnot =>
    rw [hnot] at hready
    cases hready
  | opened rest torn ho hstream htorn hfailed hrest =>
    obtain rfl := hrest hready hopen
    obtain rfl := prefix_nil.mp htorn
    rw [append_nil] at ho hstream
    exact ⟨ho, hstream⟩

theorem StreamShape.torn (h : StreamShape es s) (hready : s.ready = true)
    (hopen : s.sink.finalized = false) {record : CP2RecordedUpdateEvent}
    {frame : List UInt8} {n : Nat} (hop : call.op = .publish (some record))
    (hframe : validateAndEncode record = .ok frame) (hwrote : Wrote frame s false s' n)
    (hresult : resultOf ⟨s, call, s'⟩ ≠ .published) : StreamShape (es ++ [⟨s, call, s'⟩]) s' := by
  obtain ⟨ho, hstream⟩ := h.exact hready hopen
  obtain ⟨calls, _, hlog⟩ := hwrote.calls
  have hframes : publishedFrames (es ++ [⟨s, call, s'⟩]) = publishedFrames es := by
    rw [publishedFrames_snoc, publishedRecord_of_ne hresult, map_nil, append_nil]
  refine .opened [frame] (frame.take n) ?_ ?_ (List.take_prefix n frame) ?_ ?_
  · rw [offeredFrames_snoc, ho, hframes, offeredFrame_of_frame hop hready hframe]
  · rw [hwrote.stream, hstream, hframes]
  · intro _
    refine ⟨hwrote.failed rfl, ?_⟩
    rw [hlog]
    simp
  · intro hready'
    rw [ready, hwrote.failed rfl] at hready'
    cases hready'

theorem StreamShape.published (h : StreamShape es s) (hready : s.ready = true)
    (hopen : s.sink.finalized = false) {record : CP2RecordedUpdateEvent}
    {frame : List UInt8} (hop : call.op = .publish (some record))
    (hframe : validateAndEncode record = .ok frame)
    (hstream' : s'.log.stream = s.log.stream ++ frame)
    (hresult : resultOf ⟨s, call, s'⟩ = .published) : StreamShape (es ++ [⟨s, call, s'⟩]) s' := by
  obtain ⟨ho, hstream⟩ := h.exact hready hopen
  have hframes : publishedFrames (es ++ [⟨s, call, s'⟩]) = publishedFrames es ++ [frame] := by
    rw [publishedFrames_snoc, publishedRecord_of_published hop hresult, map_singleton,
      frameOf_eq hframe]
  refine .opened [] [] ?_ ?_ nil_prefix ?_ ?_
  · rw [offeredFrames_snoc, ho, hframes, offeredFrame_of_frame hop hready hframe, append_nil]
  · rw [hstream', hstream, hframes]
    simp
  · intro h
    contradiction
  · intro _ _
    rfl

/-- **One call** keeps the invariant. -/
theorem JournalInvariant.step (h : JournalInvariant maximum es s)
    (hs : sinkStep s call s') : JournalInvariant maximum (es ++ [⟨s, call, s'⟩]) s' := by
  have hout := runCall_outcome h.agrees.writer call
  have hresult : resultOf ⟨s, call, s'⟩ = (runCall s call).1 := rfl
  rw [sinkStep] at hs
  rw [← hs] at hout
  generalize (runCall s call).1 = result at hout hresult
  clear hs
  -- every case but `published` leaves the number of published records as it was
  have hcount : result ≠ .published →
      (publishedRecords (es ++ [⟨s, call, s'⟩])).length = (publishedRecords es).length := by
    intro hne
    rw [publishedRecords_snoc, publishedRecord_of_ne (hresult ▸ hne), append_nil]
  cases hout with
  | ignored hop hoff =>
    refine ⟨h.shape.quiet (by rw [hresult]; decide) rfl id ?_ (fun _ => ⟨rfl, rfl⟩) id, ?_,
      h.agrees⟩
    · intro hsome
      cases hready : s.ready with
      | false =>
        exact absurd (offeredFrame_of_not_ready hready) hsome
      | true =>
        rw [hready] at hoff
        exact ⟨rfl, .inl (by simpa using hoff)⟩
    · rw [hcount (by decide)]
      exact h.records
  | refused hop hready hopen hfailure =>
    have hnot := not_ready_reject (s := s) hfailure.1
    refine ⟨h.shape.quiet (by rw [hresult]; decide) ?_ ?_ ?_ ?_ ?_, ?_,
      h.agrees.reject hfailure.1⟩
    · rw [reject_log]
    · intro _
      exact hready
    · intro _
      exact ⟨hready, .inr hnot⟩
    · intro hoff
      rw [hready] at hoff
      cases hoff
    · intro _
      exact hopen
    · rw [hcount (by decide), reject_of_ready hready]
      exact h.records
  | torn hop hready hopen hframe hfits _ hwrote =>
    refine ⟨h.shape.torn hready hopen hop hframe hwrote (by rw [hresult]; decide), ?_,
      h.agrees.wrote hready hfits hwrote⟩
    rw [hcount (by decide), hwrote.sink]
    exact h.records
  | @published record frame t n hop hready hopen hidentity hframe hrecords hfits hwrote =>
    have hstream : t.log.stream = s.log.stream ++ frame := by
      rw [hwrote.stream, (hwrote.complete rfl).1, take_length]
    have hagrees := h.agrees.wrote hready hfits hwrote
    refine ⟨h.shape.published hready hopen hop hframe hstream hresult, ?_,
      ⟨hagrees.maximum_eq, hagrees.bytes_le, hagrees.bytes_eq, hagrees.writer,
        hagrees.succeeded, hagrees.firstFailureLast⟩⟩
    rw [publishedRecords_snoc, publishedRecord_of_published hop hresult, length_append,
      ← h.records]
    simp only [advance, UInt64.toNat_add, length_singleton, UInt64.toNat_one]
    omega
  | again hop hdone =>
    refine ⟨h.shape.quiet (by rw [hresult]; simp) rfl id ?_ (fun _ => ⟨rfl, rfl⟩) id, ?_,
      h.agrees⟩
    · intro hsome
      exact absurd (offeredFrame_of_finalize hop) hsome
    · rw [hcount (by simp)]
      exact h.records
  | unready hop hopen hready =>
    refine ⟨h.shape.quiet (by rw [hresult]; simp) rfl id ?_ (fun _ => ⟨rfl, rfl⟩) ?_, ?_,
      h.agrees.close⟩
    · intro hsome
      exact absurd (offeredFrame_of_finalize hop) hsome
    · intro _
      exact hopen
    · rw [hcount (by simp)]
      exact h.records
  | synced hop hopen hready =>
    refine ⟨h.shape.quiet (by rw [hresult]; simp) rfl id ?_ ?_ ?_, ?_,
      h.agrees.close.synced hready⟩
    · intro hsome
      exact absurd (offeredFrame_of_finalize hop) hsome
    · intro hoff
      rw [hready] at hoff
      cases hoff
    · intro _
      exact hopen
    · rw [hcount (by simp)]
      exact h.records
  | unsynced hop hopen hready =>
    have hready' : (s.close.sync false).ready = true := hready
    refine ⟨h.shape.quiet (by rw [hresult]; simp) ?_ ?_ ?_ ?_ ?_, ?_,
      h.agrees.close.unsynced hready⟩
    · rw [reject_log]
      rfl
    · intro _
      exact hready
    · intro hsome
      exact absurd (offeredFrame_of_finalize hop) hsome
    · intro hoff
      rw [hready] at hoff
      cases hoff
    · intro _
      exact hopen
    · rw [hcount (by simp), reject_of_ready hready']
      exact h.records

end Step

variable {es : List (Entry SinkState SinkCall)}

/-- **Every run** keeps the invariant. -/
theorem journal_invariant {hasWriter : Bool} {maximum : UInt64} {writer : Writer}
    (h : Run sinkStep (construct hasWriter maximum writer) es s) : JournalInvariant maximum es s :=
  h.history (construct_invariant hasWriter maximum writer)
    fun _ _ _ _ hinv hstep => hinv.step hstep

/-! ### Complete frames -/

theorem offeredFrames_ne_nil (es : List (Entry SinkState SinkCall)) :
    ∀ frame ∈ offeredFrames es, frame ≠ [] := by
  intro frame hframe
  obtain ⟨e, _, he⟩ := mem_flatMap.mp hframe
  rw [offeredFrame] at he
  split at he
  · split at he
    · split at he
      · rename_i hok
        rw [mem_singleton] at he
        subst he
        exact frame_ne_nil hok
      · cases he
    · cases he
  · cases he

theorem completeFrames_nil {frames : List (List UInt8)} (h : ∀ frame ∈ frames, frame ≠ []) :
    completeFrames frames [] = 0 := by
  cases frames with
  | nil => rfl
  | cons frame frames =>
    rw [completeFrames, if_neg]
    intro hprefix
    exact h frame mem_cons_self (prefix_nil.mp hprefix)

theorem completeFrames_append (frames rest : List (List UInt8)) (bytes : List UInt8) :
    completeFrames (frames ++ rest) (frames.flatten ++ bytes) =
      frames.length + completeFrames rest bytes := by
  induction frames with
  | nil => simp
  | cons frame frames ih =>
    rw [cons_append, flatten_cons, append_assoc, completeFrames,
      if_pos (prefix_append frame _), drop_left' rfl, ih, length_cons]
    omega

theorem completeFrames_torn {rest : List (List UInt8)} {torn : List UInt8}
    (hrest : ∀ frame ∈ rest, frame ≠ []) (h : torn <+: rest.headD []) :
    completeFrames rest torn = 0 ∨ completeFrames rest torn = 1 ∧ torn ≠ [] := by
  cases rest with
  | nil => exact .inl rfl
  | cons frame rest =>
    rw [headD_cons] at h
    by_cases hwhole : frame <+: torn
    · obtain rfl : torn = frame := h.eq_of_length_le hwhole.length_le
      right
      refine ⟨?_, hrest torn mem_cons_self⟩
      rw [completeFrames, if_pos hwhole, drop_length,
        completeFrames_nil fun frame hf => hrest frame (mem_cons_of_mem torn hf)]
    · left
      rw [completeFrames, if_neg hwhole]

theorem StreamShape.stream_prefix
    (h : StreamShape es s) : s.log.stream <+: preamble ++ (offeredFrames es).flatten := by
  cases h with
  | unopened _ hstream _ _ => exact hstream.trans (prefix_append _ _)
  | opened rest torn ho hstream htorn _ _ =>
    rw [hstream, ho, flatten_append, append_assoc, prefix_append_right_inj,
      prefix_append_right_inj]
    cases rest with
    | nil => exact htorn
    | cons frame rest => exact htorn.trans (prefix_append _ _)

theorem StreamShape.complete
    (h : StreamShape es s) :
    completeFrames (offeredFrames es) (s.log.stream.drop preamble.length) =
      (publishedRecords es).length ∨
    completeFrames (offeredFrames es) (s.log.stream.drop preamble.length) =
      (publishedRecords es).length + 1 ∧ s.sink.failure = .kWriteFailure ∧
      s.log.failedCalls.getLast? = some true := by
  have hne := offeredFrames_ne_nil es
  cases h with
  | unopened _ _ ho hp =>
    rw [ho, hp]
    exact .inl rfl
  | opened rest torn ho hstream htorn hfailed _ =>
    have hlength : (publishedFrames es).length = (publishedRecords es).length := by
      rw [publishedFrames, length_map]
    rw [ho] at hne
    rw [ho, hstream, append_assoc, drop_left' rfl, completeFrames_append, hlength]
    have hrest : ∀ frame ∈ rest, frame ≠ [] :=
      fun frame hf => hne frame (mem_append_right _ hf)
    rcases completeFrames_torn hrest htorn with hnone | ⟨hone, hsome⟩
    · left
      rw [hnone, Nat.add_zero]
    · right
      rw [hone]
      exact ⟨rfl, hfailed hsome⟩

/-! ### After a failure, and after `Finalize` -/

theorem runCall_of_not_ready (h : s.ready = false) (call : SinkCall) :
    (runCall s call).2.ready = false ∧ (runCall s call).2.log = s.log ∧
      (runCall s call).2.sink.failure = s.sink.failure ∧
      ∀ record, call.op = .publish record → (runCall s call).1 = .rejected := by
  have hout := runCall_outcome (by rw [h]; intro hr; cases hr) call
  generalize (runCall s call).1 = result at hout
  generalize (runCall s call).2 = s' at hout
  cases hout with
  | ignored => exact ⟨h, rfl, rfl, fun _ _ => rfl⟩
  | again hop => exact ⟨h, rfl, rfl, fun record hr => by rw [hop] at hr; cases hr⟩
  | unready hop => exact ⟨h, rfl, rfl, fun record hr => by rw [hop] at hr; cases hr⟩
  | refused _ hready => rw [h] at hready; cases hready
  | torn _ hready => rw [h] at hready; cases hready
  | published _ hready => rw [h] at hready; cases hready
  | synced _ _ hready => rw [h] at hready; cases hready
  | unsynced _ _ hready => rw [h] at hready; cases hready

theorem run_of_not_ready {t s : SinkState} (h : Run sinkStep t es s) (ht : t.ready = false) :
    s.ready = false ∧ s.log = t.log ∧ s.sink.failure = t.sink.failure ∧
      ∀ e ∈ es, ∀ record, e.input.op = .publish record → resultOf e = .rejected := by
  induction h with
  | nil =>
    refine ⟨ht, rfl, rfl, ?_⟩
    intro e he
    cases he
  | @snoc es s s' call _ hs ih =>
    obtain ⟨hready, hlog, hfailure, hrejected⟩ := ih
    obtain ⟨hready', hlog', hfailure', hrejected'⟩ := runCall_of_not_ready hready call
    rw [sinkStep] at hs
    rw [← hs] at hready' hlog' hfailure'
    refine ⟨hready', hlog'.trans hlog, hfailure'.trans hfailure, ?_⟩
    intro e he
    rcases mem_append.mp he with he | he
    · exact hrejected e he
    · rw [mem_singleton] at he
      subst he
      exact hrejected'

theorem runCall_of_finalized (h : s.sink.finalized = true) (call : SinkCall) :
    (runCall s call).2 = s ∧
      (call.op = .finalize → (runCall s call).1 = .finalized s.ready) := by
  cases hop : call.op with
  | publish record =>
    refine ⟨?_, fun hfinal => by cases hfinal⟩
    simp only [runCall, hop, publish, h, Bool.or_true, if_true]
    rfl
  | finalize =>
    simp only [runCall, hop, finalize, h, if_true]
    exact ⟨rfl, fun _ => rfl⟩

theorem run_of_finalized {t s : SinkState}
    (h : Run sinkStep t es s) (ht : t.sink.finalized = true) :
    s = t ∧ ∀ e ∈ es, e.input.op = .finalize → resultOf e = .finalized t.ready := by
  induction h with
  | nil =>
    refine ⟨rfl, ?_⟩
    intro e he
    cases he
  | @snoc es s s' call _ hs ih =>
    obtain ⟨rfl, hresults⟩ := ih
    obtain ⟨hsame, hresult⟩ := runCall_of_finalized ht call
    rw [sinkStep, hsame] at hs
    subst hs
    refine ⟨rfl, ?_⟩
    intro e he
    rcases mem_append.mp he with he | he
    · exact hresults e he
    · rw [mem_singleton] at he
      subst he
      exact hresult

theorem finalize_result {call : SinkCall} (hop : call.op = .finalize)
    (hwriter : s.ready = true → s.sink.hasWriter = true) :
    (runCall s call).2.sink.finalized = true ∧
      (runCall s call).1 = .finalized (runCall s call).2.ready := by
  have hout := runCall_outcome hwriter call
  generalize (runCall s call).1 = result at hout
  generalize (runCall s call).2 = s' at hout
  cases hout with
  | again _ hdone => exact ⟨hdone, rfl⟩
  | unready _ _ hready =>
    have hready' : s.close.ready = false := hready
    exact ⟨rfl, by rw [hready']⟩
  | synced _ _ hready =>
    have hready' : (s.close.sync true).ready = true := hready
    exact ⟨rfl, by rw [hready']⟩
  | unsynced _ _ hready =>
    have hready' : (s.close.sync false).ready = true := hready
    rw [reject_of_ready hready']
    exact ⟨rfl, rfl⟩
  | ignored hop' => rw [hop] at hop'; cases hop'
  | refused hop' => rw [hop] at hop'; cases hop'
  | torn hop' => rw [hop] at hop'; cases hop'
  | published hop' => rw [hop] at hop'; cases hop'

/-! ### The whole run -/

/-- **The journal stream is a canonical prefix**, whatever the writer does and in whatever order
`Publish` and `Finalize` are called. `records_written` counts the published records; a frame that
the writer took completely while reporting a failure is in the stream and not in that count. -/
theorem journal_stream_canonical {hasWriter : Bool} {maximum : UInt64} {writer : Writer}
    {es : List (Entry SinkState SinkCall)} {s : SinkState}
    (h : Run sinkStep (construct hasWriter maximum writer) es s) :
    s.log.stream <+: preamble ++ (offeredFrames es).flatten ∧
    s.sink.bytesWritten ≤ maximum ∧
    (s.log.overReported = false → s.sink.bytesWritten.toNat = s.log.stream.length) ∧
    s.sink.recordsWritten.toNat = (publishedRecords es).length ∧
    (completeFrames (offeredFrames es) (s.log.stream.drop preamble.length) =
        s.sink.recordsWritten.toNat ∨
      completeFrames (offeredFrames es) (s.log.stream.drop preamble.length) =
        s.sink.recordsWritten.toNat + 1 ∧
      s.sink.failure = .kWriteFailure ∧ s.log.failedCalls.getLast? = some true) ∧
    (∀ c ∈ s.log.failedCalls.dropLast, c = false) ∧
    (∀ es₁ t es₂, es = es₁ ++ es₂ → Run sinkStep (construct hasWriter maximum writer) es₁ t →
      Run sinkStep t es₂ s → t.ready = false →
      s.log = t.log ∧ s.sink.failure = t.sink.failure ∧
        ∀ e ∈ es₂, ∀ record, e.input.op = .publish record → resultOf e = .rejected) ∧
    (∀ es₁ e es₂, es = es₁ ++ e :: es₂ → e.input.op = .finalize →
      s.log = e.post.log ∧
        ∀ e' ∈ es₂, e'.input.op = .finalize → resultOf e' = resultOf e) := by
  have hinv := journal_invariant h
  refine ⟨hinv.shape.stream_prefix, UInt64.le_iff_toNat_le.mpr hinv.agrees.bytes_le,
    hinv.agrees.bytes_eq, hinv.records, ?_, hinv.agrees.firstFailureLast, ?_, ?_⟩
  · rw [hinv.records]
    exact hinv.shape.complete
  · intro es₁ t es₂ _ _ hrun ht
    obtain ⟨-, hlog, hfailure, hrejected⟩ := run_of_not_ready hrun ht
    exact ⟨hlog, hfailure, hrejected⟩
  · intro es₁ e es₂ hes hop
    subst hes
    obtain ⟨t, hrun₁, hrun₂⟩ := Run.split (e :: es₂) h
    obtain ⟨rfl, hs, hrest⟩ := hrun₂.uncons
    have hwriter := (journal_invariant hrun₁).agrees.writer
    obtain ⟨hdone, hresult⟩ := finalize_result hop hwriter
    rw [sinkStep] at hs
    rw [← hs] at hdone hresult
    obtain ⟨rfl, hresults⟩ := run_of_finalized hrest hdone
    exact ⟨rfl, fun e' he' hop' => (hresults e' he' hop').trans hresult.symm⟩

/-! ### A frame that is complete and not counted -/

theorem toNat_ofNat_min (size : Nat) : (UInt64.ofNat (min size 65536)).toNat = min size 65536 := by
  rw [UInt64.toNat_ofNat']
  omega

/-- A writer that takes up to 65536 bytes at a time and reports success or failure. -/
def takingWriter (success : Bool) : Writer where
  write size :=
    ⟨success, UInt64.ofNat (min size 65536), min size 65536, Nat.min_le_left _ _,
      fun _ => (toNat_ofNat_min size).symm⟩
  sync _ := true

def emptyInputRecord : CP2RecordedUpdateEvent where
  update := {
    invocationContextAvailable := true
    timingEndpointValid := true
    terminalStatus := .kEmptyInput
    terminalSubreason := .kInputEmpty }

def sampleSink : SinkState := construct true 1000000 (takingWriter true)

def failedCall : SinkCall := ⟨.publish (some emptyInputRecord), takingWriter false⟩

def failedRun : List (Entry SinkState SinkCall) :=
  [⟨sampleSink, failedCall, (runCall sampleSink failedCall).2⟩]

theorem run_failedRun : Run sinkStep sampleSink failedRun (runCall sampleSink failedCall).2 :=
  Run.cons rfl Run.nil

theorem journal_stream_canonical_failed_write :
    (runCall sampleSink failedCall).2.log.stream <+:
        preamble ++ (offeredFrames failedRun).flatten ∧
      (runCall sampleSink failedCall).2.sink.bytesWritten ≤ 1000000 :=
  ⟨(journal_stream_canonical run_failedRun).1, (journal_stream_canonical run_failedRun).2.1⟩

/-- A frame can be complete in the stream without being counted. -/
theorem records_written_misses_complete_frame :
    ¬ ∀ (hasWriter : Bool) (maximum : UInt64) (writer : Writer)
        (es : List (Entry SinkState SinkCall)) (s : SinkState),
      Run sinkStep (construct hasWriter maximum writer) es s →
        s.sink.recordsWritten.toNat =
          completeFrames (offeredFrames es) (s.log.stream.drop preamble.length) := by
  intro h
  have heq := h true 1000000 (takingWriter true) failedRun _ run_failedRun
  have hrecords : (runCall sampleSink failedCall).2.sink.recordsWritten.toNat = 0 := by
    decide +kernel
  have hcomplete : completeFrames (offeredFrames failedRun)
      ((runCall sampleSink failedCall).2.log.stream.drop preamble.length) = 1 := by
    decide +kernel
  rw [hrecords, hcomplete] at heq
  cases heq

end Bravo.Journal
