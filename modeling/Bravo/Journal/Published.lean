import Bravo.Journal.RoundTrip

/-! # Journals whose writer accepts everything

When no write fails, the stream is the preamble and the published frames, and their identities are
in order. Decoding it gives every published record back, if none of them claims a proposal without
raw systems.
-/

namespace Bravo.Journal

open Bravo.Trace List SinkState

/-! ## Accepting writers -/

/-- Every write succeeds and takes at least one byte of what it is given. -/
def Writer.Accepts (writer : Writer) : Prop :=
  ∀ size, 0 < size → (writer.write size).failed = false

variable {writer : Writer}

theorem writeLoop_accepts (h : writer.Accepts) :
    ∀ (fuel : Nat) (data : List UInt8) (s : SinkState), data.length ≤ fuel →
      s.sink.bytesWritten.toNat + data.length < 2 ^ 64 →
      (writeLoop writer fuel data s).1 = true := by
  intro fuel
  induction fuel with
  | zero =>
    intro data s hfuel _
    obtain rfl := eq_nil_of_length_eq_zero (Nat.le_zero.mp hfuel)
    rfl
  | succ fuel ih =>
    intro data s hfuel hlt
    by_cases hdata : data = []
    · subst hdata
      rfl
    · have hpos : 0 < data.length := length_pos_of_ne_nil hdata
      have hfailed := h data.length hpos
      rw [writeLoop_succ hdata hlt]
      generalize writer.write data.length = r at hfailed
      have hover : r.overReports = false := by
        simp only [WriteResponse.failed, Bool.or_eq_false_iff] at hfailed
        exact hfailed.2
      have hzero : r.bytesWritten.toNat ≠ 0 := by
        intro h
        have : r.bytesWritten = 0 := UInt64.toNat_inj.mp h
        simp [WriteResponse.failed, this] at hfailed
      have hle := WriteResponse.le_of_not_overReports hover
      have hbytes := attempted_bytes hover hlt
      simp only [hover, hfailed]
      apply ih
      · rw [length_drop]
        omega
      · rw [hbytes, length_drop]
        omega

theorem writeAll_accepts (h : writer.Accepts) {data : List UInt8} {s : SinkState}
    (hready : s.ready = true) (hwriter : s.sink.hasWriter = true)
    (hfits : s.sink.bytesWritten.toNat + data.length ≤ s.sink.maximumJournalBytes.toNat) :
    (writeAll writer data s).1 = true := by
  have hlt := s.sink.maximumJournalBytes.toNat_lt
  have hguard : ¬ (!s.ready || !s.sink.hasWriter) = true := by
    simp [hready, hwriter]
  rw [writeAll, if_neg hguard, if_neg (by omega)]
  exact writeLoop_accepts h _ _ _ le_rfl (by omega)

/-! ## The identity of the last record -/

structure JournalIdentity where
  sequenceIndex : UInt64
  pairIndex : UInt64
  cameraTimestampNs : UInt64
  invocationId : UInt64

def journalIdentity (u : CP2LiveUpdateEvent) : JournalIdentity :=
  ⟨u.sequenceIndex, u.pairIndex, u.cameraTimestampNs, u.invocationId⟩

def SinkState.lastIdentity (s : SinkState) : Option JournalIdentity :=
  if s.sink.haveIdentity then
    some ⟨s.sink.sequenceIndex, s.sink.pairIndex, s.sink.cameraTimestampNs, s.sink.invocationId⟩
  else none

theorem lastIdentity_reject (s : SinkState) (failure : CP2TraceJournalFailure) :
    (s.reject failure).lastIdentity = s.lastIdentity := by
  unfold SinkState.reject
  split <;> rfl

theorem lastIdentity_wrote {data : List UInt8} {s s' : SinkState} {ok : Bool} {n : Nat}
    (h : Wrote data s ok s' n) : s'.lastIdentity = s.lastIdentity := by
  rw [lastIdentity, h.sink]
  rfl

variable {record : CP2RecordedUpdateEvent}

theorem ordered_of_checkIdentity {s : SinkState} {records : List CP2RecordedUpdateEvent}
    (hlast : s.lastIdentity = records.getLast?.map fun r => journalIdentity r.update)
    (hordered : IdentitiesOrdered (records.map (·.update)))
    (hcheck : checkIdentity s.sink record.update = none) :
    IdentitiesOrdered ((records ++ [record]).map (·.update)) := by
  unfold checkIdentity at hcheck
  split_ifs at hcheck with hcontext hfirst hzero hoverflow hfollows htimestamp
  · -- the first record
    have hnone : s.lastIdentity = none := by
      rw [lastIdentity, if_neg (by simpa using hfirst)]
    rw [hnone] at hlast
    have hempty : records = [] := by
      cases records with
      | nil => rfl
      | cons r records => simp at hlast
    subst hempty
    refine ⟨?_, List.IsChain.singleton _⟩
    intro u hu
    cases hu
    exact hzero
  · -- a later one: the sink remembers the one before
    have hsome : s.lastIdentity = some ⟨s.sink.sequenceIndex, s.sink.pairIndex,
        s.sink.cameraTimestampNs, s.sink.invocationId⟩ := by
      rw [lastIdentity, if_pos (by simpa using hfirst)]
    rw [hsome] at hlast
    rcases eq_nil_or_concat records with rfl | ⟨records, r, rfl⟩
    · cases hlast
    rw [concat_eq_append] at hlast hordered ⊢
    rw [getLast?_concat, Option.map_some, Option.some.injEq] at hlast
    simp only [journalIdentity, JournalIdentity.mk.injEq] at hlast
    obtain ⟨hsequence, hpair, htime, hinvocation⟩ := hlast
    rw [hsequence, hpair, hinvocation] at hfollows
    rw [hpair, htime] at htimestamp
    rw [hinvocation] at hoverflow
    simp only [not_or, ne_eq, not_not] at hfollows
    have hf : Follows r.update record.update := by
      refine ⟨by omega, hfollows.1, hfollows.2.1, hfollows.2.2, ?_⟩
      intro hsame
      by_contra hne
      exact htimestamp ⟨hsame, hne⟩
    refine ⟨?_, ?_⟩
    · intro u hu
      apply hordered.first
      rw [map_append, map_append, append_assoc] at hu
      rw [map_append]
      cases hrecords : records.map (·.update) with
      | nil =>
        rw [hrecords] at hu
        exact hu
      | cons v vs =>
        rw [hrecords] at hu
        exact hu
    · rw [map_append, map_singleton, isChain_append]
      refine ⟨hordered.chain, List.IsChain.singleton _, ?_⟩
      intro x hx y hy
      rw [map_append, map_singleton, getLast?_concat] at hx
      cases hx
      cases hy
      exact hf

/-! ## Runs -/

structure AcceptedInvariant (maximum : UInt64) (es : List (Entry SinkState SinkCall))
    (s : SinkState) : Prop where
  journal : JournalInvariant maximum es s
  stream : s.log.stream = preamble ++ (publishedFrames es).flatten
  ordered : IdentitiesOrdered ((publishedRecords es).map (·.update))
  last : s.lastIdentity = (publishedRecords es).getLast?.map fun r => journalIdentity r.update
  encodes : ∀ r ∈ publishedRecords es, ∃ frame, validateAndEncode r = .ok frame

section Step

variable {maximum : UInt64} {es : List (Entry SinkState SinkCall)} {s s' : SinkState}

theorem AcceptedInvariant.quiet (h : AcceptedInvariant maximum es s) {call : SinkCall}
    (hs : sinkStep s call s') (hresult : resultOf ⟨s, call, s'⟩ ≠ .published)
    (hlog : s'.log.stream = s.log.stream) (hidentity : s'.lastIdentity = s.lastIdentity) :
    AcceptedInvariant maximum (es ++ [⟨s, call, s'⟩]) s' := by
  have hrecords : publishedRecords (es ++ [⟨s, call, s'⟩]) = publishedRecords es := by
    rw [publishedRecords_snoc, publishedRecord_of_ne hresult, append_nil]
  refine ⟨h.journal.step hs, ?_, ?_, ?_, ?_⟩
  · rw [hlog, h.stream, publishedFrames, publishedFrames, hrecords]
  · rw [hrecords]
    exact h.ordered
  · rw [hidentity, hrecords]
    exact h.last
  · rw [hrecords]
    exact h.encodes

theorem AcceptedInvariant.step (h : AcceptedInvariant maximum es s) {call : SinkCall}
    (haccepts : call.writer.Accepts) (hs : sinkStep s call s') :
    AcceptedInvariant maximum (es ++ [⟨s, call, s'⟩]) s' := by
  have hwriter := h.journal.agrees.writer
  have hout := runCall_outcome hwriter call
  have hresult : resultOf ⟨s, call, s'⟩ = (runCall s call).1 := rfl
  have hstep : s' = (runCall s call).2 := hs
  rw [← hstep] at hout
  generalize (runCall s call).1 = result at hout hresult
  clear hstep
  cases hout with
  | ignored hop => exact h.quiet hs (by rw [hresult]; decide) rfl rfl
  | refused hop hready hopen hfailure =>
    refine h.quiet hs (by rw [hresult]; decide) ?_ (lastIdentity_reject s _)
    rw [reject_log]
  | torn hop hready hopen hframe hfits hall hwrote =>
    have htrue := writeAll_accepts haccepts hready (hwriter hready) hfits
    rw [hall] at htrue
    cases htrue
  | @published record frame t n hop hready hopen hidentity hframe hrecords hfits hwrote =>
    have hpublished := publishedRecord_of_published hop hresult
    have hnew := publishedRecords_snoc es ⟨s, call, t.advance (s.sink.recordsWritten + 1)
      record.update⟩
    rw [hpublished] at hnew
    refine ⟨h.journal.step hs, ?_, ?_, ?_, ?_⟩
    · show t.log.stream = _
      rw [hwrote.stream, (hwrote.complete rfl).1, take_length, h.stream, publishedFrames,
        publishedFrames, hnew, map_append, map_singleton, frameOf_eq hframe]
      simp
    · rw [hnew]
      exact ordered_of_checkIdentity h.last h.ordered hidentity
    · rw [hnew, getLast?_concat]
      rfl
    · rw [hnew]
      intro r hr
      rcases mem_append.mp hr with hr | hr
      · exact h.encodes r hr
      · rw [mem_singleton.mp hr]
        exact ⟨frame, hframe⟩
  | again hop => exact h.quiet hs (by rw [hresult]; simp) rfl rfl
  | unready hop => exact h.quiet hs (by rw [hresult]; simp) rfl rfl
  | synced hop => exact h.quiet hs (by rw [hresult]; simp) rfl rfl
  | unsynced hop hopen hready =>
    refine h.quiet hs (by rw [hresult]; simp) ?_ ?_
    · rw [reject_log]
      rfl
    · rw [lastIdentity_reject]
      rfl

end Step

/-! ### The start -/

theorem construct_accepts {maximum : UInt64} (h : writer.Accepts)
    (hfits : preamble.length ≤ maximum.toNat) :
    AcceptedInvariant maximum [] (construct true maximum writer) := by
  have hjournal := construct_invariant true maximum writer
  unfold construct at hjournal ⊢
  set s₀ : SinkState := ⟨{ hasWriter := true, maximumJournalBytes := maximum }, {}⟩ with hs₀
  have hroom : s₀.sink.bytesWritten.toNat + preamble.length ≤ s₀.sink.maximumJournalBytes.toNat := by
    show 0 + preamble.length ≤ maximum.toNat
    omega
  have hok := writeAll_accepts h (s := s₀) rfl rfl hroom
  rw [if_neg (by decide)] at hjournal ⊢
  rcases writeAll_cases writer preamble (s := s₀) rfl rfl with hall | ⟨-, n, hwrote⟩
  · rw [hall] at hok
    cases hok
  · rw [hok] at hwrote
    refine ⟨hjournal, ?_, ⟨?_, List.IsChain.nil⟩, ?_, ?_⟩
    · rw [hwrote.stream, (hwrote.complete rfl).1, take_length]
      simp [hs₀, publishedFrames, publishedRecords]
    · intro u hu
      cases hu
    · rw [lastIdentity_wrote hwrote]
      rfl
    · intro r hr
      cases hr

theorem construct_rejects {maximum : UInt64} (writer : Writer)
    (hfits : maximum.toNat < preamble.length) :
    (construct true maximum writer).ready = false ∧
      (construct true maximum writer).log.stream = [] := by
  have hguard : 2 ^ 64 ≤ (0 : UInt64).toNat + preamble.length ∨
      maximum.toNat < (0 : UInt64).toNat + preamble.length := by
    right
    show maximum.toNat < 0 + preamble.length
    omega
  have hall : writeAll writer preamble ⟨{ hasWriter := true, maximumJournalBytes := maximum }, {}⟩ =
      (false, SinkState.reject ⟨{ hasWriter := true, maximumJournalBytes := maximum }, {}⟩
        .kArithmeticOverflow) := by
    rw [writeAll, if_neg (by simp [SinkState.ready]), if_pos hguard]
  rw [construct, if_neg (by decide), hall]
  exact ⟨not_ready_reject (by decide), by rw [reject_log]⟩

theorem run_accepted {maximum : UInt64} (h : writer.Accepts)
    (hfits : preamble.length ≤ maximum.toNat) {es : List (Entry SinkState SinkCall)}
    {s : SinkState} (hrun : Run sinkStep (construct true maximum writer) es s) :
    (∀ e ∈ es, e.input.writer.Accepts) → AcceptedInvariant maximum es s := by
  induction hrun with
  | nil =>
    intro _
    exact construct_accepts h hfits
  | @snoc es s s' call _ hs ih =>
    intro haccepts
    have hlast : call.writer.Accepts := haccepts ⟨s, call, s'⟩ (by simp)
    exact (ih fun e he => haccepts e (mem_append_left _ he)).step hlast hs

/-! ## Publishing and decoding -/

structure Reproduces (record : CP2RecordedUpdateEvent) (event : CP2TraceJournalDecodedEvent) :
    Prop where
  sequenceIndex : event.sequenceIndex = record.update.sequenceIndex
  pairIndex : event.pairIndex = record.update.pairIndex
  cameraTimestampNs : event.cameraTimestampNs = record.update.cameraTimestampNs
  invocationId : event.invocationId = record.update.invocationId
  rawSystemCount : event.rawSystemCount = record.update.rawSystemCount
  statePhaseCount : event.statePhaseCount = record.statePhaseCount
  featureSummaryCount : event.featureSummaryCount.toNat = record.update.shadow.result.features.length
  core : event.core = coreSummary record
  baselineAcceptedIds : event.baselineAcceptedIds = record.update.baselineAcceptedIds
  candidateAcceptedIds :
    event.candidateAcceptedIds = record.update.shadow.result.schur.acceptedIds
  global : event.global = globalSummary record.update.shadow.result
  commitOracle : event.commitOracle = record.baselineCommitOracle
  featureSummaries :
    event.featureSummaries = record.update.shadow.result.features.map featureSummary
  sections : wireFrameBytes ⟨formatVersion, event.sections⟩ = frameOf record

def stateFramesOf (record : CP2RecordedUpdateEvent) : List StateContent :=
  (stateContents record).toOption.getD []

/-- Decoding the stream gives exactly the records back, and the files of all their frames. -/
def RoundTrips (limits : CP2TraceJournalDecodeLimits) (stream : List UInt8)
    (records : List CP2RecordedUpdateEvent) : Prop :=
  ∃ decoded, decode limits stream = .ok decoded ∧
    List.Forall₂ Reproduces records decoded.events ∧
    (∃ file, encodeStateFile (frames (records.flatMap stateFramesOf)) = .ok file ∧
      decoded.stateFileBytes = file.bytes) ∧
    (∃ file, encodeRawSystemFile (frames (records.flatMap rawContents)) = .ok file ∧
      decoded.rawSystemFileBytes = file.bytes) ∧
    ∃ file, encodeProposalFile (frames (records.flatMap proposalContents)) = .ok file ∧
      decoded.proposalFileBytes = file.bytes

theorem exists_published {records : List CP2RecordedUpdateEvent}
    (h : ∀ r ∈ records, ∃ frame, validateAndEncode r = .ok frame) :
    ∃ ps : List Published, ps.map (·.record) = records ∧
      ∀ p ∈ ps, p.frame = frameOf p.record := by
  induction records with
  | nil => exact ⟨[], rfl, fun p hp => by cases hp⟩
  | cons r records ih =>
    obtain ⟨ps, hps, hframes⟩ := ih fun r' hr' => h r' (mem_cons_of_mem r hr')
    obtain ⟨frame, hframe⟩ := h r mem_cons_self
    obtain ⟨e, rfl, hsmall⟩ := exists_encoding hframe
    refine ⟨⟨r, e, hsmall⟩ :: ps, by rw [map_cons, hps], ?_⟩
    intro p hp
    rcases mem_cons.mp hp with rfl | hp
    · exact (frameOf_eq hframe).symm
    · exact hframes p hp

theorem Published.reproduces (p : Published) (hframe : p.frame = frameOf p.record) :
    Reproduces p.record p.encoding.event := by
  refine ⟨rfl, rfl, rfl, rfl, rfl, rfl, ?_, rfl, rfl, rfl, rfl, rfl, rfl, hframe⟩
  have hfeatures := p.encoding.facts.counts_eq.2
  show (UInt64.ofNat p.record.update.shadow.result.features.length).toNat = _
  rw [hfeatures, UInt64.ofNat_toNat]

theorem JournalOf.roundTrips {ps : List Published} {decoded : CP2TraceJournalDecoded}
    (h : JournalOf ps decoded) (hframes : ∀ p ∈ ps, p.frame = frameOf p.record)
    {limits : CP2TraceJournalDecodeLimits} {stream : List UInt8}
    (hdecode : decode limits stream = .ok decoded) :
    RoundTrips limits stream (ps.map (·.record)) := by
  obtain ⟨stateFile, hstate, hstateBytes⟩ := h.state
  obtain ⟨rawFile, hraw, hrawBytes⟩ := h.raw
  obtain ⟨proposalFile, hproposal, hproposalBytes⟩ := h.proposal
  have hstates : (ps.map (·.record)).flatMap stateFramesOf = ps.flatMap (·.encoding.states) := by
    rw [flatMap_map]
    apply flatMap_congr
    intro p _
    rw [stateFramesOf, p.encoding.states_eq]
    rfl
  refine ⟨decoded, hdecode, ?_, ⟨stateFile, ?_, hstateBytes.symm⟩, ⟨rawFile, ?_, hrawBytes.symm⟩,
    proposalFile, ?_, hproposalBytes.symm⟩
  · rw [h.events, List.forall₂_map_left_iff, List.forall₂_map_right_iff, List.forall₂_same]
    intro p hp
    exact p.reproduces (hframes p hp)
  · rw [encodeStateFile, contents_frames, hstates]
    exact hstate
  · rw [encodeRawSystemFile, contents_frames, flatMap_map]
    exact hraw
  · rw [encodeProposalFile, contents_frames, flatMap_map]
    exact hproposal

theorem decode_nil (limits : CP2TraceJournalDecodeLimits) :
    decode limits [] = .error .kInvalidHeader := by
  have hheader : ((([] : List UInt8).take fileHeader.length) == fileHeader) = false := by
    decide +kernel
  have hfits : decodeRequire (decide (([] : List UInt8).length ≤ limits.maximumTotalBytes.toNat))
      .kTotalBytesLimit = .ok () := by
    rw [decodeRequire_eq_ok, decide_eq_true_eq]
    exact Nat.zero_le _
  rw [decode, hfits, hheader]
  rfl

/-- **What was published is decoded again**, unless the journal has no room for its preamble or a
record without raw systems claims a proposal. -/
theorem journal_round_trip_iff {maximum : UInt64} {writer : Writer}
    {es : List (Entry SinkState SinkCall)} {s : SinkState} {limits : CP2TraceJournalDecodeLimits}
    (hrun : Run sinkStep (construct true maximum writer) es s) (hwriter : writer.Accepts)
    (haccepts : ∀ e ∈ es, e.input.writer.Accepts)
    (hcover : LimitsCover limits s.log.stream (publishedRecords es)) :
    RoundTrips limits s.log.stream (publishedRecords es) ↔
      preamble.length ≤ maximum.toNat ∧
        ∀ r ∈ publishedRecords es, zeroRawClaimsProposal r = false := by
  by_cases hroom : preamble.length ≤ maximum.toNat
  · have hinv := run_accepted hwriter hroom hrun haccepts
    obtain ⟨ps, hps, hframes⟩ := exists_published hinv.encodes
    have hstream : s.log.stream = preamble ++ framesBytes ps := by
      rw [hinv.stream, publishedFrames, ← hps, List.map_map, framesBytes, List.flatMap]
      congr 2
      apply map_congr_left
      intro p hp
      exact (hframes p hp).symm
    have hordered := hinv.ordered
    rw [hstream] at hcover ⊢
    rw [← hps] at hcover hordered ⊢
    rw [List.map_map] at hordered
    have hdecode := decode_published hordered hcover
    constructor
    · rintro ⟨decoded, hok, -⟩
      refine ⟨hroom, ?_⟩
      split_ifs at hdecode with hclaims
      · rw [hok] at hdecode
        cases hdecode
      · intro r hr
        obtain ⟨p, hp, rfl⟩ := mem_map.mp hr
        simp only [any_eq_true, not_exists, not_and, Bool.not_eq_true] at hclaims
        exact hclaims p hp
    · rintro ⟨-, hclean⟩
      have hnone : ¬ ps.any (fun p => zeroRawClaimsProposal p.record) = true := by
        simp only [any_eq_true, not_exists, not_and, Bool.not_eq_true]
        intro p hp
        exact hclean p.record (mem_map_of_mem hp)
      rw [if_neg hnone] at hdecode
      obtain ⟨decoded, hok, hjournal⟩ := hdecode
      exact hjournal.roundTrips hframes hok
  · -- the sink was rejected when it was constructed, and the stream is empty
    have hempty : s.log.stream = [] := by
      obtain ⟨hnot, hstream⟩ := construct_rejects writer (not_le.mp hroom)
      rw [(run_of_not_ready hrun hnot).2.1, hstream]
    refine iff_of_false ?_ fun h => hroom h.1
    rintro ⟨decoded, hok, -⟩
    rw [hempty, decode_nil] at hok
    cases hok

/-! ### A record that is published and cannot be decoded -/

theorem takingWriter_accepts : (takingWriter true).Accepts := by
  intro size hpos
  have htoNat := toNat_ofNat_min size
  have hzero : UInt64.ofNat (min size 65536) ≠ 0 := by
    intro h
    rw [h] at htoNat
    have : (0 : UInt64).toNat = 0 := rfl
    omega
  have hover : decide (size < (UInt64.ofNat (min size 65536)).toNat) = false := by
    rw [htoNat, decide_eq_false_iff_not]
    omega
  show (!true || UInt64.ofNat (min size 65536) == 0 ||
    decide (size < (UInt64.ofNat (min size 65536)).toNat)) = false
  rw [hover, beq_false_of_ne hzero]
  rfl

theorem wireFrame_unique (e e' : Encoding record) : e.wireFrame = e'.wireFrame := by
  have hstates := Except.ok.inj (e.states_eq.symm.trans e'.states_eq)
  have hstate := e.encodedState_eq
  rw [hstates, e'.encodedState_eq] at hstate
  have hraw := Except.ok.inj (e.encodedRaw_eq.symm.trans e'.encodedRaw_eq)
  have hproposal := Except.ok.inj (e.encodedProposal_eq.symm.trans e'.encodedProposal_eq)
  have hfeatures := Option.some.inj (e.features_eq.symm.trans e'.features_eq)
  have hglobal := Option.some.inj (e.global_eq.symm.trans e'.global_eq)
  rw [Encoding.wireFrame, Encoding.wireFrame, ← Except.ok.inj hstate, hraw, hproposal, hfeatures,
    hglobal]

theorem sectionsWithin_of_length {n : Nat}
    {limits : CP2TraceJournalDecodeLimits} (e : Encoding record)
    (hframe : (validateAndEncode record).toOption.map List.length = some n)
    (hcount : n ≤ limits.maximumSectionsPerFrame.toNat)
    (hbytes : n ≤ limits.maximumSectionBytes.toNat) :
    SectionsWithin limits e.wireFrame.sections := by
  have hlength : (wireFrameBytes e.wireFrame).length = n := by
    cases hencode : validateAndEncode record with
    | error failure =>
      rw [hencode] at hframe
      cases hframe
    | ok frame =>
      rw [hencode] at hframe
      obtain ⟨e', rfl, -⟩ := exists_encoding hencode
      rw [wireFrame_unique e e']
      exact Option.some.inj hframe
  rw [length_wireFrameBytes] at hlength
  refine ⟨?_, ?_⟩
  · have := length_sections_ge e.wireFrame.sections
    omega
  · intro section_ hsection
    have := length_section_le hsection
    omega

/-- A record of an update without raw systems whose shadow result claims an accepted nullspace
proposal. -/
def claimingRecord : CP2RecordedUpdateEvent where
  update := {
    invocationContextAvailable := true
    timingEndpointValid := true
    terminalStatus := .kEmptyInput
    terminalSubreason := .kInputEmpty
    shadow := {
      result := {
        nullspace := {
          proposalAvailable := true
          proposal := { diagnostics := { status := .kAccepted } } } } } }

def publishCall (record : CP2RecordedUpdateEvent) : SinkCall :=
  ⟨.publish (some record), takingWriter true⟩

def publishRun (record : CP2RecordedUpdateEvent) : List (Entry SinkState SinkCall) :=
  [⟨sampleSink, publishCall record, (runCall sampleSink (publishCall record)).2⟩]

theorem run_publishRun (record : CP2RecordedUpdateEvent) :
    Run sinkStep sampleSink (publishRun record) (runCall sampleSink (publishCall record)).2 :=
  Run.cons rfl Run.nil

theorem limitsCover_publishRun
    (hframe : (validateAndEncode record).toOption.map List.length = some 768)
    (hstream : (runCall sampleSink (publishCall record)).2.log.stream.length = 968)
    (hrecords : (publishedRecords (publishRun record)).length = 1) :
    LimitsCover {} (runCall sampleSink (publishCall record)).2.log.stream
      (publishedRecords (publishRun record)) := by
  refine ⟨?_, ?_, ⟨by decide, by decide +kernel⟩, ?_⟩
  · rw [hstream]
    decide
  · rw [hrecords]
    decide
  · intro r hr e
    have hrecord : r = record := by
      obtain ⟨entry, hentry, hr⟩ := mem_flatMap.mp hr
      rw [publishRun, mem_singleton] at hentry
      subst hentry
      simp only [publishedRecord, publishCall] at hr
      split at hr
      · rename_i heq _
        cases heq
        exact mem_singleton.mp hr
      · cases hr
    subst hrecord
    exact sectionsWithin_of_length e hframe (by decide) (by decide)

theorem journal_round_trip_iff_empty_input :
    publishedRecords (publishRun emptyInputRecord) ≠ [] ∧
      RoundTrips {} (runCall sampleSink (publishCall emptyInputRecord)).2.log.stream
        (publishedRecords (publishRun emptyInputRecord)) := by
  have hrecords : (publishedRecords (publishRun emptyInputRecord)).length = 1 := by
    decide +kernel
  have hclean : (publishedRecords (publishRun emptyInputRecord)).all
      (fun r => !zeroRawClaimsProposal r) = true := by
    decide +kernel
  have hcover : LimitsCover {} (runCall sampleSink (publishCall emptyInputRecord)).2.log.stream
      (publishedRecords (publishRun emptyInputRecord)) :=
    limitsCover_publishRun (by decide +kernel) (by decide +kernel) hrecords
  have haccepts : ∀ e ∈ publishRun emptyInputRecord, e.input.writer.Accepts := by
    intro e he
    rw [publishRun, mem_singleton] at he
    rw [he]
    exact takingWriter_accepts
  refine ⟨ne_nil_of_length_pos (by omega), ?_⟩
  refine (journal_round_trip_iff (run_publishRun emptyInputRecord) takingWriter_accepts haccepts
    hcover).mpr ⟨by rw [length_preamble.1]; decide, ?_⟩
  intro r hr
  simpa using all_eq_true.mp hclean r hr

/-- The record is published by a writer that accepts everything, and the decoder rejects the
journal. -/
theorem published_record_not_decoded :
    Run sinkStep (construct true 1000000 (takingWriter true)) (publishRun claimingRecord)
        (runCall sampleSink (publishCall claimingRecord)).2 ∧
      publishedRecords (publishRun claimingRecord) ≠ [] ∧
      (∀ e ∈ publishRun claimingRecord, e.input.writer.Accepts) ∧
      LimitsCover {} (runCall sampleSink (publishCall claimingRecord)).2.log.stream
        (publishedRecords (publishRun claimingRecord)) ∧
      ¬ RoundTrips {} (runCall sampleSink (publishCall claimingRecord)).2.log.stream
        (publishedRecords (publishRun claimingRecord)) := by
  have hrecords : (publishedRecords (publishRun claimingRecord)).length = 1 := by
    decide +kernel
  have hrejected : (decode {} (runCall sampleSink
      (publishCall claimingRecord)).2.log.stream).isOk = false := by
    decide +kernel
  refine ⟨run_publishRun claimingRecord, ne_nil_of_length_pos (by omega), ?_,
    limitsCover_publishRun (by decide +kernel) (by decide +kernel) hrecords, ?_⟩
  · intro e he
    rw [publishRun, mem_singleton] at he
    rw [he]
    exact takingWriter_accepts
  · rintro ⟨decoded, hok, -⟩
    rw [hok] at hrejected
    cases hrejected

end Bravo.Journal
