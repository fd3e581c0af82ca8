import Bravo.Journal.Decode
import Bravo.Journal.Stream
import Bravo.Trace.Fragment

/-! # Decoding what was published

The sink and the decoder check a record each in its own way. They agree on every record but one
kind: a record without raw systems whose shadow result claims a proposal. Apart from these, what
was published is decoded to the same events, and the fragments make up the files of all frames.
-/

namespace Bravo.Journal

open Bravo.Trace List

/-! ## What the sink has checked -/

/-- The conditions of `recordViolated` that the decoder checks again. -/
structure RecordFacts (record : CP2RecordedUpdateEvent) : Prop where
  phasesFit : record.statePhaseCount.toNat ≤ record.statePhases.length
  phases : record.statePhaseCount = requiredPhases record.update.rawSystemCount (committed record)
  terminal : if record.update.rawSystemCount = 0 then
      zeroRawTerminalValid record.update.terminalStatus record.update.terminalSubreason = true
    else nonzeroRawTerminalValid record.update.terminalStatus record.update.terminalSubreason = true
  inputs : ¬ record.update.inputFeatureCount < record.update.rawSystemCount
  emptyInput : record.update.terminalStatus = .kEmptyInput → record.update.inputFeatureCount = 0
  payloads : record.rawSystemPayloads.length = record.update.rawSystemCount.toNat
  nonzero : record.update.rawSystemCount ≠ 0 → nonzeroRawViolated record = false
  zero : record.update.rawSystemCount = 0 → zeroRawViolated record = false
  baseline : record.baselineProposalPayloadAvailable =
    (record.update.shadow.baselinePreviewAvailable &&
      record.update.shadow.liveNullspaceProposal.accepted)
  candidate : record.candidateProposalPayloadAvailable =
    (record.update.shadow.result.schur.proposalAvailable &&
      record.update.shadow.result.schur.proposal.accepted)
  nullspaceAvailable : record.update.shadow.result.nullspace.proposalAvailable =
    record.update.shadow.result.nullspace.proposal.accepted
  schurAvailable : record.update.shadow.result.schur.proposalAvailable =
    record.update.shadow.result.schur.proposal.accepted
  commit : committed record = record.update.baselineCommitOccurred
  oracle : committed record = record.baselineCommitOracleAvailable
  committedBaseline : committed record = true → record.baselineProposalPayloadAvailable = true
  counts : commitCountsViolated record = false

theorem recordFacts_of_not_violated {record : CP2RecordedUpdateEvent}
    (h : recordViolated record = false) : RecordFacts record := by
  simp only [recordViolated, Bool.or_eq_false_iff, bne_eq_false_iff_eq, decide_eq_false_iff_not,
    Bool.and_eq_false_imp, beq_iff_eq, bne_iff_ne] at h
  obtain ⟨⟨⟨⟨⟨⟨⟨⟨⟨⟨⟨⟨⟨⟨⟨⟨⟨hphases, hfit⟩, hterminal⟩, hinputs⟩, hempty⟩, hpayloads⟩, hnonzero⟩, hzero⟩,
    -⟩, -⟩, hbaseline⟩, hcandidate⟩, hnullspace⟩, hschur⟩, hcommit⟩, horacle⟩, hcommitted⟩,
    hcounts⟩ := h
  refine ⟨by omega, hphases, ?_, hinputs, hempty, hpayloads, hnonzero, hzero, hbaseline, hcandidate,
    hnullspace, hschur, hcommit, horacle, ?_, hcounts⟩
  · split_ifs at hterminal ⊢
    · simpa using hterminal
    · simpa using hterminal
  · intro hc
    simpa using hcommitted hc

def zeroRawClaimsProposal (record : CP2RecordedUpdateEvent) : Bool :=
  record.update.rawSystemCount == 0 && (record.update.shadow.result.nullspace.proposalAvailable ||
    record.update.shadow.result.schur.proposalAvailable)

section Facts

variable {record : CP2RecordedUpdateEvent}

theorem RecordFacts.counts_eq (h : RecordFacts record) :
    record.update.shadow.rawSystems.length = record.update.rawSystemCount.toNat ∧
      record.update.shadow.result.features.length = record.update.rawSystemCount.toNat := by
  by_cases hraw : record.update.rawSystemCount = 0
  · have hzero := h.zero hraw
    simp only [zeroRawViolated, Bool.or_eq_false_iff, bne_eq_false_iff_eq] at hzero
    obtain ⟨⟨⟨⟨⟨⟨⟨⟨⟨⟨⟨hsystems, hfeatures⟩, -⟩, -⟩, -⟩, -⟩, -⟩, -⟩, -⟩, -⟩, -⟩, -⟩ := hzero
    rw [hraw, hsystems, hfeatures]
    exact ⟨rfl, rfl⟩
  · have hnonzero := h.nonzero hraw
    simp only [nonzeroRawViolated, Bool.or_eq_false_iff, bne_eq_false_iff_eq] at hnonzero
    obtain ⟨⟨⟨⟨hsystems, hfeatures⟩, -⟩, -⟩, -⟩ := hnonzero
    exact ⟨hsystems, hfeatures⟩

theorem RecordFacts.zero_flags (h : RecordFacts record) (hraw : record.update.rawSystemCount = 0) :
    ∀ i, i = 7 ∨ 15 ≤ i ∧ i ≤ 23 → (eventFlagList record).getD i false = false := by
  have hzero := h.zero hraw
  simp only [zeroRawViolated, Bool.or_eq_false_iff, bne_eq_false_iff_eq] at hzero
  obtain ⟨⟨⟨⟨⟨⟨⟨⟨⟨⟨⟨-, -⟩, h7⟩, h15⟩, h16⟩, h17⟩, h18⟩, h19⟩, h20⟩, h21⟩, h22⟩, h23⟩ := hzero
  intro i hi
  rcases hi with rfl | ⟨hlo, hhi⟩
  · exact h7
  · interval_cases i
    all_goals assumption

theorem zeroRawForbidden_bits :
    ∀ i < 64, zeroRawForbiddenFlags.toNat.testBit i = true ↔ i = 7 ∨ 15 ≤ i ∧ i ≤ 25 := by
  decide

theorem RecordFacts.forbidden_iff (h : RecordFacts record)
    (hraw : record.update.rawSystemCount = 0) :
    eventFlags record &&& zeroRawForbiddenFlags = 0 ↔
      record.update.shadow.result.nullspace.proposalAvailable = false ∧
        record.update.shadow.result.schur.proposalAvailable = false := by
  have hflag : ∀ i < 26, hasFlag (eventFlags record) i = (eventFlagList record).getD i false :=
    fun i hi => hasFlag_eventFlags record hi
  rw [and_eq_zero_iff]
  constructor
  · intro hbits
    have h24 := hbits 24 (by decide) ((zeroRawForbidden_bits 24 (by decide)).mpr (by decide))
    have h25 := hbits 25 (by decide) ((zeroRawForbidden_bits 25 (by decide)).mpr (by decide))
    rw [hflag 24 (by decide)] at h24
    rw [hflag 25 (by decide)] at h25
    exact ⟨h24, h25⟩
  · rintro ⟨h24, h25⟩ i hi hmask
    have hset := (zeroRawForbidden_bits i hi).mp hmask
    rw [hflag i (by omega)]
    by_cases hhigh : 24 ≤ i
    · have hcases : i = 24 ∨ i = 25 := by omega
      rcases hcases with rfl | rfl
      · exact h24
      · exact h25
    · exact h.zero_flags hraw i (by omega)

/-- **The core of a record that passed the sink is inconsistent for the decoder** exactly if the
record has no raw systems and claims a proposal. -/
theorem RecordFacts.coreInconsistent_eq (h : RecordFacts record) :
    coreInconsistent record.update.terminalStatus record.update.terminalSubreason
      (coreWords record) = zeroRawClaimsProposal record := by
  obtain ⟨hsystems, hfeatures⟩ := h.counts_eq
  -- the words and the flags that the decoder reads
  have hpayloadWord : word (coreWords record) 22 = record.update.rawSystemCount := by
    show UInt64.ofNat record.rawSystemPayloads.length = _
    rw [h.payloads, UInt64.ofNat_toNat]
  have hfeatureWord : word (coreWords record) 24 = record.update.rawSystemCount := by
    show UInt64.ofNat record.update.shadow.result.features.length = _
    rw [hfeatures, UInt64.ofNat_toNat]
  have hcommitted : (record.update.terminalStatus == .kCommittedCounted) = committed record := rfl
  have hcounts := h.counts
  simp only [commitCountsViolated, Bool.or_eq_false_iff, bne_eq_false_iff_eq] at hcounts
  obtain ⟨⟨hcount, hmean⟩, hcovariance⟩ := hcounts
  have hflag : ∀ i < 26, hasFlag (eventFlags record) i = (eventFlagList record).getD i false :=
    fun i hi => hasFlag_eventFlags record hi
  have h6 : hasFlag (eventFlags record) 6 = committed record := by
    rw [hflag 6 (by decide), h.commit]
    rfl
  have h12 : hasFlag (eventFlags record) 12 = committed record := by
    rw [hflag 12 (by decide), h.oracle]
    rfl
  have h10 : hasFlag (eventFlags record) 10 = record.baselineProposalPayloadAvailable :=
    hflag 10 (by decide)
  have h11 : hasFlag (eventFlags record) 11 = record.candidateProposalPayloadAvailable :=
    hflag 11 (by decide)
  have h16 : hasFlag (eventFlags record) 16 = record.update.shadow.baselinePreviewAvailable :=
    hflag 16 (by decide)
  have hwords : word (coreWords record) 7 = record.update.inputFeatureCount ∧
      word (coreWords record) 8 = record.update.rawSystemCount ∧
      word (coreWords record) 9 = eventFlags record ∧
      word (coreWords record) 14 = record.baselineCommitCount ∧
      word (coreWords record) 15 = record.baselineMeanCommitCount ∧
      word (coreWords record) 16 = record.baselineCovarianceCommitCount ∧
      word (coreWords record) 23 = record.statePhaseCount := ⟨rfl, rfl, rfl, rfl, rfl, rfl, rfl⟩
  obtain ⟨hw7, hw8, hw9, hw14, hw15, hw16, hw23⟩ := hwords
  -- what the sink has excluded
  have hempty : (record.update.terminalStatus == .kEmptyInput &&
      record.update.inputFeatureCount != 0) = false := by
    cases hstatus : record.update.terminalStatus == .kEmptyInput with
    | false => rfl
    | true => simp [h.emptyInput (by simpa using hstatus)]
  have hbaseline : (committed record && !record.baselineProposalPayloadAvailable) = false := by
    cases hc : committed record with
    | false => rfl
    | true => simp [h.committedBaseline hc]
  have hpreview : (record.baselineProposalPayloadAvailable &&
      !record.update.shadow.baselinePreviewAvailable) = false := by
    rw [h.baseline]
    cases record.update.shadow.baselinePreviewAvailable <;> simp
  unfold coreInconsistent zeroRawClaimsProposal
  simp only [hw7, hw8, hw9, hw14, hw15, hw16, hw23, hpayloadWord, hfeatureWord, hcommitted, h6, h12,
    h10, h11, h16, hempty, hbaseline, hpreview, hcount, hmean, hcovariance, ← h.phases,
    bne_self_eq_false, Bool.or_false, decide_eq_false h.inputs, Bool.false_or]
  have hterminal := h.terminal
  by_cases hraw : record.update.rawSystemCount = 0
  · -- of the flags that are forbidden without raw systems only those of a proposal can be set
    rw [if_pos hraw] at hterminal ⊢
    have hpreviewFlag : record.update.shadow.baselinePreviewAvailable = false :=
      h.zero_flags hraw 16 (by decide)
    have hbaselineFlag : record.baselineProposalPayloadAvailable = false := by
      rw [h.baseline, hpreviewFlag, Bool.false_and]
    have hcandidateFlag : record.candidateProposalPayloadAvailable =
        record.update.shadow.result.schur.proposalAvailable := by
      rw [h.candidate, ← h.schurAvailable, Bool.and_self]
    have hforbidden := h.forbidden_iff hraw
    have hbits : (eventFlags record &&& zeroRawForbiddenFlags != 0) =
        (record.update.shadow.result.nullspace.proposalAvailable ||
          record.update.shadow.result.schur.proposalAvailable) := by
      rw [Bool.eq_iff_iff, bne_iff_ne, ne_eq, hforbidden]
      cases record.update.shadow.result.nullspace.proposalAvailable <;>
        cases record.update.shadow.result.schur.proposalAvailable <;> decide
    rw [hraw, hbits, hbaselineFlag, hcandidateFlag, hterminal]
    cases record.update.shadow.result.nullspace.proposalAvailable <;>
      cases record.update.shadow.result.schur.proposalAvailable <;> rfl
  · -- the flags that raw systems ask for are set
    rw [if_neg hraw] at hterminal ⊢
    have hnonzero := h.nonzero hraw
    simp only [nonzeroRawViolated, Bool.or_eq_false_iff, bne_eq_false_iff_eq,
      Bool.not_eq_false'] at hnonzero
    obtain ⟨⟨⟨-, hevidence⟩, hmath⟩, htraversal⟩ := hnonzero
    have h7 : hasFlag (eventFlags record) 7 = true := (hflag 7 (by decide)).trans hevidence
    have h15 : hasFlag (eventFlags record) 15 = true := (hflag 15 (by decide)).trans hmath
    have h18 : hasFlag (eventFlags record) 18 = true := (hflag 18 (by decide)).trans htraversal
    have hraw' : (record.update.rawSystemCount == 0) = false := by
      simpa using hraw
    simp [hterminal, h7, h15, h18, hraw']

end Facts

/-! ## The sections of an event -/

theorem length_le_of_orderedSubsequence {selected population : List UInt64}
    (h : orderedSubsequence selected population = true) : selected.length ≤ population.length := by
  unfold orderedSubsequence at h
  induction population generalizing selected with
  | nil =>
    have hnil : selected = [] := List.isEmpty_iff.mp h
    rw [hnil]
  | cons value population ih =>
    rw [foldl_cons] at h
    have hrest := ih h
    rw [length_cons]
    cases selected with
    | nil => simp
    | cons next rest =>
      rw [length_cons]
      simp only at hrest
      split at hrest
      · omega
      · rw [length_cons] at hrest
        omega

theorem validateIds_appendWords {ids : List UInt64} {maximum : UInt64} (hnodup : ids.Nodup)
    (hle : ids.length ≤ maximum.toNat) : validateIds (appendWords ids) maximum = some ids := by
  have hcount : (appendWords ids).length / 8 = ids.length := by
    rw [length_appendWords]
    omega
  have hguard : ¬ ((appendWords ids).length % 8 ≠ 0 ∨
      maximum.toNat < (appendWords ids).length / 8) := by
    rw [hcount, length_appendWords]
    omega
  rw [validateIds, if_neg hguard, hcount, firstWords_appendWords]
  simp [hnodup]

theorem mapM_parseFeatureSection {features : List CP2FeaturePairResult} :
    ∀ {words : List (List UInt64)}, features.mapM featureWords = some words →
      (words.map fun ws => (⟨10, appendWords ws⟩ : WireSection)).mapM
        (fun s => parseFeatureSection s.bytes) = some (features.map featureSummary) := by
  induction features with
  | nil =>
    intro words h
    cases h
    rfl
  | cons f features ih =>
    intro words h
    simp only [mapM_cons, Option.bind_eq_bind, Option.bind_eq_some_iff] at h
    obtain ⟨ws, hws, rest, hrest, hret⟩ := h
    cases hret
    rw [map_cons, mapM_cons, parseFeatureSection_featureWords hws, ih hrest]
    rfl

theorem length_of_mapM_featureWords {features : List CP2FeaturePairResult} :
    ∀ {words : List (List UInt64)}, features.mapM featureWords = some words →
      words.length = features.length := by
  induction features with
  | nil =>
    intro words h
    cases h
    rfl
  | cons f features ih =>
    intro words h
    simp only [mapM_cons, Option.bind_eq_bind, Option.bind_eq_some_iff] at h
    obtain ⟨ws, -, rest, hrest, hret⟩ := h
    cases hret
    rw [length_cons, length_cons, ih hrest]

section Summary

variable {record : CP2RecordedUpdateEvent}

def Encoding.event (e : Encoding record) : CP2TraceJournalDecodedEvent where
  sequenceIndex := record.update.sequenceIndex
  pairIndex := record.update.pairIndex
  cameraTimestampNs := record.update.cameraTimestampNs
  invocationId := record.update.invocationId
  rawSystemCount := record.update.rawSystemCount
  statePhaseCount := record.statePhaseCount
  featureSummaryCount := UInt64.ofNat record.update.shadow.result.features.length
  core := coreSummary record
  baselineAcceptedIds := record.update.baselineAcceptedIds
  candidateAcceptedIds := record.update.shadow.result.schur.acceptedIds
  global := globalSummary record.update.shadow.result
  commitOracle := record.baselineCommitOracle
  featureSummaries := record.update.shadow.result.features.map featureSummary
  sections := e.wireFrame.sections

def Encoding.fragments (e : Encoding record) : Fragments :=
  ⟨fragmentOf stateFile e.encodedState, fragmentOf rawSystemFile e.encodedRaw,
    fragmentOf proposalFile e.encodedProposal⟩

theorem Encoding.facts (e : Encoding record) : RecordFacts record := recordFacts_of_not_violated e.notViolated

theorem Encoding.terminal (e : Encoding record) :
    validTerminal record.update.terminalStatus record.update.terminalSubreason = true := by
  have h := e.timing
  simp only [timingValid, Bool.and_eq_true] at h
  exact h.1.1.1

theorem Encoding.featureIds (e : Encoding record) :
    (record.update.shadow.result.features.map featureSummary).map
      (·.featureId) = record.update.shadow.rawSystems.map (·.featureId) ∧
    (record.update.shadow.rawSystems.map (·.featureId)).Nodup := by
  have h := e.identifiers
  simp only [rawIdentifiersValid, Bool.and_eq_true, beq_iff_eq, decide_eq_true_eq] at h
  refine ⟨?_, h.2⟩
  rw [h.1, List.map_map]
  rfl

theorem magic_lengths : stateFile.magic.length = canonicalFileHeaderSize ∧
    rawSystemFile.magic.length = canonicalFileHeaderSize ∧
    proposalFile.magic.length = canonicalFileHeaderSize := by
  decide +kernel

theorem Encoding.sections_eq (e : Encoding record) : e.wireFrame.sections =
    ⟨1, appendWords (coreWords record)⟩ ::
    ⟨2, appendWords record.update.baselineAcceptedIds⟩ ::
    ⟨3, appendWords record.update.shadow.result.schur.acceptedIds⟩ ::
    ⟨4, appendWords e.global⟩ ::
    ⟨5, appendWords (oracleWords record.baselineCommitOracle)⟩ ::
    ⟨6, e.fragments.state⟩ :: ⟨7, e.fragments.raw⟩ :: ⟨8, e.fragments.proposal⟩ ::
    e.features.map fun words => ⟨10, appendWords words⟩ := by
  simp only [Encoding.fragments, fragmentOf, magic_lengths.1, magic_lengths.2.1, magic_lengths.2.2]
  rfl

theorem Encoding.length_sections (e : Encoding record)
    (hlt : (wireFrameBytes e.wireFrame).length < 2 ^ 63) :
    e.wireFrame.sections.length =
      8 + (UInt64.ofNat record.update.shadow.result.features.length).toNat ∧
    e.wireFrame.sections.length < 2 ^ 64 := by
  have hcount : e.wireFrame.sections.length =
      8 + record.update.shadow.result.features.length := by
    rw [e.sections_eq]
    simp only [length_cons, length_map, length_of_mapM_featureWords e.features_eq]
    omega
  have hbytes := length_sections_ge e.wireFrame.sections
  rw [length_wireFrameBytes] at hlt
  rw [UInt64.toNat_ofNat']
  omega

/-- **The sections of a record decode to its event**, unless it has no raw systems and claims a
proposal. -/
theorem Encoding.decodeSummary_ok (e : Encoding record)
    {previous : Option CP2TraceJournalDecodedEvent}
    (hidentity : validateEventIdentity previous (parsedCore record) = .ok ())
    (hlt : (wireFrameBytes e.wireFrame).length < 2 ^ 63)
    (hclaims : zeroRawClaimsProposal record = false) :
    decodeSummary previous e.wireFrame = .ok (e.event, e.fragments) := by
  have hfacts := e.facts
  obtain ⟨hsystems, hfeatures⟩ := hfacts.counts_eq
  obtain ⟨hids, hnodup⟩ := e.featureIds
  obtain ⟨hcount, hcountlt⟩ := e.length_sections hlt
  have hconsistent : coreInconsistent record.update.terminalStatus
      record.update.terminalSubreason (coreWords record) = false := by
    rw [hfacts.coreInconsistent_eq, hclaims]
  have hcore : parseEventCore (appendWords (coreWords record)) = some (parsedCore record) := by
    rw [parseEventCore_coreWords, if_pos ⟨e.terminal, hconsistent⟩]
  have hpopulation : (record.update.shadow.rawSystems.map (·.featureId)).length =
      record.update.rawSystemCount.toNat := by
    rw [length_map, hsystems]
  have hbaseline : validateIds (appendWords record.update.baselineAcceptedIds)
      record.update.rawSystemCount = some record.update.baselineAcceptedIds :=
    validateIds_appendWords e.baselineNodup
      (hpopulation ▸ length_le_of_orderedSubsequence e.baselineOrder)
  have hcandidate : validateIds (appendWords record.update.shadow.result.schur.acceptedIds)
      record.update.rawSystemCount = some record.update.shadow.result.schur.acceptedIds :=
    validateIds_appendWords e.candidateNodup
      (hpopulation ▸ length_le_of_orderedSubsequence e.candidateOrder)
  have hglobal := parseGlobalSection_globalWords e.global_eq
  have horacle := parseOracleSection_oracleWords record.baselineCommitOracle
  have hflags : wordAt (appendWords (coreWords record)) 9 = some (eventFlags record) :=
    wordAt_appendWords (coreWords record) 9
  have hsummaries := mapM_parseFeatureSection e.features_eq
  simp only [decodeSummary, e.sections_eq, bind_eq_ok, decodeRequire_eq_ok, parsed_eq_ok]
  refine ⟨(), rfl, parsedCore record, hcore, (), ?_, (), ?_, (), ?_, _, hbaseline, _, hcandidate,
    _, hglobal, _, horacle, _, hflags, (), ?_, (), hidentity, _, hsummaries, (), ?_, (), ?_, ?_⟩
  · rw [decide_eq_true_eq]
    exact hcount ▸ hcountlt
  · rw [← e.sections_eq, hcount]
    exact beq_self_eq_true _
  · simp
  · have h24 : hasFlag (eventFlags record) 24 =
        record.update.shadow.result.nullspace.proposal.accepted :=
      (hasFlag_eventFlags record (by decide)).trans hfacts.nullspaceAvailable
    have h25 : hasFlag (eventFlags record) 25 =
        record.update.shadow.result.schur.proposal.accepted :=
      (hasFlag_eventFlags record (by decide)).trans hfacts.schurAvailable
    have hpayload : (parsedCore record).core.candidateProposalPayloadAvailable =
        record.update.shadow.result.schur.proposal.accepted := by
      show record.candidateProposalPayloadAvailable = _
      rw [hfacts.candidate, hfacts.schurAvailable, Bool.and_self]
    rw [h24, h25, hpayload, beq_self_eq_true, Bool.and_true]
    exact Bool.and_eq_true_iff.mpr ⟨beq_self_eq_true _, beq_self_eq_true _⟩
  · rw [hids, decide_eq_true_eq]
    exact hnodup
  · rw [hids, e.baselineOrder, e.candidateOrder]
    rfl
  · rw [← e.sections_eq]
    rfl

theorem Encoding.decodeSummary_error (e : Encoding record)
    (previous : Option CP2TraceJournalDecodedEvent) (hclaims : zeroRawClaimsProposal record = true) :
    decodeSummary previous e.wireFrame = .error .kInvalidSectionValue := by
  have hinconsistent : coreInconsistent record.update.terminalStatus
      record.update.terminalSubreason (coreWords record) = true := by
    rw [e.facts.coreInconsistent_eq, hclaims]
  have hcore : parseEventCore (appendWords (coreWords record)) = none := by
    rw [parseEventCore_coreWords, if_neg]
    rw [hinconsistent]
    simp
  simp only [decodeSummary, e.sections_eq, hcore]
  rfl

end Summary

/-! ## The fragments of an event -/

section Limits

variable {limits : CP2TraceJournalDecodeLimits}

theorem bytesLimit_codecLimits (limits : CP2TraceJournalDecodeLimits) :
    BytesLimit (codecLimits limits) limits.maximumTotalBytes.toNat := by
  have hlt := limits.maximumTotalBytes.toNat_lt
  have hframes : (limits.maximumTotalBytes / 40 + 1).toNat =
      limits.maximumTotalBytes.toNat / 40 + 1 := by
    rw [UInt64.toNat_add, UInt64.toNat_div]
    show (limits.maximumTotalBytes.toNat / 40 + 1) % 2 ^ 64 = _
    omega
  have hlayout : (limits.maximumTotalBytes / 16 + 1).toNat =
      limits.maximumTotalBytes.toNat / 16 + 1 := by
    rw [UInt64.toNat_add, UInt64.toNat_div]
    show (limits.maximumTotalBytes.toNat / 16 + 1) % 2 ^ 64 = _
    omega
  have heighth : (limits.maximumTotalBytes / 8).toNat = limits.maximumTotalBytes.toNat / 8 := by
    rw [UInt64.toNat_div]
    rfl
  refine ⟨le_rfl, ?_, ?_, ?_, ?_, ?_⟩
  · show _ ≤ (limits.maximumTotalBytes / 40 + 1).toNat
    omega
  · exact heighth.ge
  · exact heighth.ge
  · exact heighth.ge
  · show _ ≤ (limits.maximumTotalBytes / 16 + 1).toNat
    omega

theorem payloadWithin_of_fragment {γ η : Type} {K : FrameFile γ η} {cs : List γ}
    {file : EncodedFile} (henc : encodeFile K cs = .ok file)
    (htotal : file.bytes.length ≤ limits.maximumTotalBytes.toNat)
    (hsection : (fragmentOf K file).length ≤ limits.maximumSectionBytes.toNat) :
    ∀ c ∈ cs, PayloadWithin K (codecLimits limits) c := by
  intro c hc payload hpayload
  have hle := length_payload_le_of_encodeFrames (encodeFile_eq_ok.mp henc).2 c hc payload hpayload
  rw [fragmentOf, length_drop] at hsection
  show payload.length ≤ (if limits.maximumTotalBytes ≤ limits.maximumSectionBytes then
    limits.maximumTotalBytes else limits.maximumSectionBytes).toNat
  split
  · omega
  · omega

theorem appendLimited_ok {destination source : List UInt8}
    (h : destination.length + source.length ≤ limits.maximumTotalBytes.toNat) :
    appendLimited limits destination source = .ok (destination ++ source) := by
  have hlt := limits.maximumTotalBytes.toNat_lt
  rw [appendLimited, if_neg (by omega)]

theorem appendLimited_magic {γ η : Type} {K : FrameFile γ η} {cs : List γ} {file : EncodedFile}
    (henc : encodeFile K cs = .ok file)
    (htotal : file.bytes.length ≤ limits.maximumTotalBytes.toNat) :
    appendLimited limits K.magic (fragmentOf K file) = .ok file.bytes := by
  have hbytes := bytes_eq_magic_append henc
  rw [hbytes, length_append] at htotal
  rw [appendLimited_ok htotal, ← hbytes]

end Limits

section Contents

variable {record : CP2RecordedUpdateEvent}

theorem stateContent_eq_ok {phase : CP2EncodedStatePhase} {index : Nat} {c : StateContent}
    (h : stateContent record phase index = .ok c) : c.invocation = identityOf record := by
  unfold stateContent at h
  split at h
  · cases h
  · split at h
    · cases h
    · cases h
      rfl

theorem mapM_stateContent {ps : List (CP2EncodedStatePhase × Nat)} :
    ∀ {cs : List StateContent}, ps.mapM (fun p => stateContent record p.1 p.2) = .ok cs →
      cs.length = ps.length ∧ ∀ c ∈ cs, c.invocation = identityOf record := by
  induction ps with
  | nil =>
    intro cs h
    cases h
    exact ⟨rfl, fun c hc => by cases hc⟩
  | cons p ps ih =>
    intro cs h
    simp only [mapM_cons, bind_eq_ok] at h
    obtain ⟨c, hc, rest, hrest, hret⟩ := h
    cases hret
    obtain ⟨hlength, hmem⟩ := ih hrest
    refine ⟨by rw [length_cons, length_cons, hlength], ?_⟩
    intro c' hc'
    rcases mem_cons.mp hc' with rfl | hc'
    · exact stateContent_eq_ok hc
    · exact hmem c' hc'

theorem Encoding.states_spec (e : Encoding record) :
    e.states.length = record.statePhaseCount.toNat ∧
      ∀ c ∈ e.states, c.invocation = identityOf record := by
  obtain ⟨hlength, hmem⟩ := mapM_stateContent e.states_eq
  have hfit := e.facts.phasesFit
  refine ⟨?_, hmem⟩
  rw [hlength, length_zipIdx, length_take]
  omega

theorem rawContents_invocation {c : RawSystemContent} (hc : c ∈ rawContents record) :
    c.invocation = identityOf record := by
  obtain ⟨p, -, rfl⟩ := mem_map.mp hc
  rfl

theorem proposalContents_invocation {c : ProposalContent} (hc : c ∈ proposalContents record) :
    c.invocation = identityOf record := by
  unfold proposalContents at hc
  rcases mem_append.mp hc with hc | hc
  all_goals
    split at hc
    · rw [mem_singleton.mp hc]
    · cases hc

theorem rawContents_featureId (record : CP2RecordedUpdateEvent) (i : Nat) :
    (rawContents record)[i]?.map (·.rawSystem.featureId) =
      (record.update.shadow.rawSystems.map (·.featureId))[i]? := by
  simp only [rawContents, getElem?_map, getElem?_zipIdx, Option.map_map, Nat.zero_add]
  rfl

theorem proposalContents_roles (e : Encoding record) :
    (proposalContents record).map (·.role) = expectedRoles e.event := by
  unfold proposalContents expectedRoles
  show _ = (if record.baselineProposalPayloadAvailable then _ else _) ++
    (if record.candidateProposalPayloadAvailable then _ else _)
  cases record.baselineProposalPayloadAvailable <;>
    cases record.candidateProposalPayloadAvailable <;> rfl

theorem sameIdentity_event (e : Encoding record) {identity : CP2InvocationTraceIdentity}
    (h : identity = identityOf record) : sameIdentity identity e.event = true := by
  rw [h]
  simp [sameIdentity, identityOf, Encoding.event]

structure Encoding.Within (e : Encoding record) (limits : CP2TraceJournalDecodeLimits) : Prop where
  state : e.encodedState.bytes.length ≤ limits.maximumTotalBytes.toNat
  raw : e.encodedRaw.bytes.length ≤ limits.maximumTotalBytes.toNat
  proposal : e.encodedProposal.bytes.length ≤ limits.maximumTotalBytes.toNat
  stateSection : e.fragments.state.length ≤ limits.maximumSectionBytes.toNat
  rawSection : e.fragments.raw.length ≤ limits.maximumSectionBytes.toNat
  proposalSection : e.fragments.proposal.length ≤ limits.maximumSectionBytes.toNat

section Files

variable {limits : CP2TraceJournalDecodeLimits}

theorem contents_frames {γ : Type} (cs : List γ) : (frames cs).map (·.content) = cs := by
  simp [frames, Function.comp_def]

theorem Encoding.stateFile_eq (e : Encoding record) :
    encodeFile stateFile e.states = .ok e.encodedState := by
  have h := e.encodedState_eq
  rw [encodeStateFile, contents_frames] at h
  exact h

theorem Encoding.rawFile_eq (e : Encoding record) :
    encodeFile rawSystemFile (rawContents record) = .ok e.encodedRaw := by
  have h := e.encodedRaw_eq
  rw [encodeRawSystemFile, contents_frames] at h
  exact h

theorem Encoding.proposalFile_eq (e : Encoding record) :
    encodeFile proposalFile (proposalContents record) = .ok e.encodedProposal := by
  have h := e.encodedProposal_eq
  rw [encodeProposalFile, contents_frames] at h
  exact h

theorem Encoding.payloadsWithin (e : Encoding record) (h : e.Within limits) :
    (∀ c ∈ e.states, PayloadWithin stateFile (codecLimits limits) c) ∧
    (∀ c ∈ rawContents record, PayloadWithin rawSystemFile (codecLimits limits) c) ∧
    ∀ c ∈ proposalContents record, PayloadWithin proposalFile (codecLimits limits) c :=
  ⟨payloadWithin_of_fragment e.stateFile_eq h.state h.stateSection,
    payloadWithin_of_fragment e.rawFile_eq h.raw h.rawSection,
    payloadWithin_of_fragment e.proposalFile_eq h.proposal h.proposalSection⟩

theorem exactCodecFile_of_decode {γ η : Type} {K : FrameFile γ η} {codec : CP2TraceDecodeLimits}
    (spec : FrameSpec K codec) {bytes : List UInt8} {fs : List (TraceFrame γ)}
    (h : decodeFile K codec bytes = .ok fs) :
    exactCodecFile (fun fs => encodeFile K (fs.map (·.content))) fs bytes = .ok () := by
  have henc := ((decodeFile_eq_ok_iff spec).mp h).1
  rw [exactCodecFile, henc]
  simp [canonical, decodeRequire, bind, Except.bind]

variable {file : EncodedFile}

theorem decode_stateFile {cs : List StateContent} (henc : encodeFile stateFile cs = .ok file)
    (hsize : file.bytes.length ≤ limits.maximumTotalBytes.toNat)
    (hpayloads : ∀ c ∈ cs, PayloadWithin stateFile (codecLimits limits) c) :
    ∃ fs, decodeStateFile file.bytes (codecLimits limits) = .ok fs ∧
      fs.map (·.content) = cs.map StateContent.normalise ∧
      exactCodecFile encodeStateFile fs file.bytes = .ok () := by
  obtain ⟨fs, hdec, hcontent, -⟩ := decodeFile_encodeFile (stateSpec (codecLimits limits))
    (encodeStateFile_normalise henc)
    (stateFile_within (bytesLimit_codecLimits limits) henc hsize hpayloads)
  exact ⟨fs, hdec, hcontent, exactCodecFile_of_decode (stateSpec _) hdec⟩

theorem decode_rawFile {cs : List RawSystemContent} (henc : encodeFile rawSystemFile cs = .ok file)
    (hsize : file.bytes.length ≤ limits.maximumTotalBytes.toNat)
    (hpayloads : ∀ c ∈ cs, PayloadWithin rawSystemFile (codecLimits limits) c) :
    ∃ fs, decodeRawSystemFile file.bytes (codecLimits limits) = .ok fs ∧
      fs.map (·.content) = cs ∧ exactCodecFile encodeRawSystemFile fs file.bytes = .ok () := by
  obtain ⟨fs, hdec, hcontent, -⟩ := decodeFile_encodeFile (rawSystemSpec (codecLimits limits)) henc
    (rawFile_fits (bytesLimit_codecLimits limits) henc hsize hpayloads)
  exact ⟨fs, hdec, hcontent, exactCodecFile_of_decode (rawSystemSpec _) hdec⟩

theorem decode_proposalFile {cs : List ProposalContent}
    (henc : encodeFile proposalFile cs = .ok file)
    (hsize : file.bytes.length ≤ limits.maximumTotalBytes.toNat)
    (hpayloads : ∀ c ∈ cs, PayloadWithin proposalFile (codecLimits limits) c) :
    ∃ fs, decodeProposalFile file.bytes (codecLimits limits) = .ok fs ∧
      fs.map (·.content) = cs ∧ exactCodecFile encodeProposalFile fs file.bytes = .ok () := by
  obtain ⟨fs, hdec, hcontent, -⟩ := decodeFile_encodeFile (proposalSpec (codecLimits limits)) henc
    (proposalFile_fits (bytesLimit_codecLimits limits) henc hsize hpayloads)
  exact ⟨fs, hdec, hcontent, exactCodecFile_of_decode (proposalSpec _) hdec⟩

/-- **The fragments of a record pass the decoder.** -/
theorem Encoding.checkFragments_ok (e : Encoding record) (h : e.Within limits) :
    checkFragments limits e.event e.fragments = .ok () := by
  obtain ⟨hstates, hraws, hproposals⟩ := e.payloadsWithin h
  obtain ⟨hlength, hinvocation⟩ := e.states_spec
  obtain ⟨stateFrames, hstate, hstateContents, hstateExact⟩ :=
    decode_stateFile e.stateFile_eq h.state hstates
  obtain ⟨rawFrames, hraw, hrawContents, hrawExact⟩ := decode_rawFile e.rawFile_eq h.raw hraws
  obtain ⟨proposalFrames, hproposal, hproposalContents, hproposalExact⟩ :=
    decode_proposalFile e.proposalFile_eq h.proposal hproposals
  have hroles := proposalContents_roles e
  obtain ⟨hids, -⟩ := e.featureIds
  simp only [checkFragments, bind_eq_ok, decodeRequire_eq_ok, canonical_eq_ok]
  refine ⟨_, appendLimited_magic e.stateFile_eq h.state, _, appendLimited_magic e.rawFile_eq h.raw,
    _, appendLimited_magic e.proposalFile_eq h.proposal, stateFrames, hstate, rawFrames, hraw,
    proposalFrames, hproposal, (), ?_, (), hstateExact, (), hrawExact, (), hproposalExact, (), ?_,
    (), ?_, ?_⟩
  · have hstateCount : stateFrames.length = record.statePhaseCount.toNat := by
      rw [← hlength, ← length_map (·.content), hstateContents, length_map]
    have hrawCount : rawFrames.length = record.update.rawSystemCount.toNat := by
      rw [← length_map (·.content), hrawContents, ← e.facts.counts_eq.1]
      simp [rawContents]
    have hproposalCount : proposalFrames.length = (expectedRoles e.event).length := by
      rw [← length_map (·.content), hproposalContents, ← hroles, length_map]
    rw [hproposalCount]
    show (stateFrames.length == record.statePhaseCount.toNat &&
      rawFrames.length == record.update.rawSystemCount.toNat && _) = true
    rw [hstateCount, hrawCount]
    simp
  · rw [all_eq_true]
    intro f hf
    have hmem : f.content ∈ e.states.map StateContent.normalise :=
      hstateContents ▸ mem_map_of_mem hf
    obtain ⟨c, hc, hcf⟩ := mem_map.mp hmem
    refine sameIdentity_event e ?_
    rw [← hcf]
    exact hinvocation c hc
  · rw [all_eq_true]
    rintro ⟨f, i⟩ hf
    have hget : rawFrames[i]? = some f := (mk_mem_zipIdx_iff_getElem?).mp hf
    have hmem : f.content ∈ rawContents record :=
      hrawContents ▸ mem_map_of_mem (mem_of_getElem? hget)
    have hfeature := rawContents_featureId record i
    rw [← hrawContents, getElem?_map, hget] at hfeature
    rw [Bool.and_eq_true, beq_iff_eq]
    refine ⟨sameIdentity_event e (rawContents_invocation hmem), ?_⟩
    show ((record.update.shadow.result.features.map featureSummary).map (·.featureId))[i]? = _
    rw [hids, ← hfeature]
    rfl
  · rw [all_eq_true]
    rintro ⟨role, i⟩ hrole
    have hget : (expectedRoles e.event)[i]? = some role := (mk_mem_zipIdx_iff_getElem?).mp hrole
    rw [← hroles, ← hproposalContents, List.map_map, getElem?_map] at hget
    obtain ⟨f, hf, hfrole⟩ := Option.map_eq_some_iff.mp hget
    have hmem : f.content ∈ proposalContents record :=
      hproposalContents ▸ mem_map_of_mem (mem_of_getElem? hf)
    simp only [hf]
    rw [Bool.and_eq_true, beq_iff_eq]
    exact ⟨hfrole, sameIdentity_event e (proposalContents_invocation hmem)⟩

end Files

end Contents

/-! ## The order of the events -/

/-- The identity of an update relative to the one published before it. -/
structure Follows (u v : CP2LiveUpdateEvent) : Prop where
  fits : u.invocationId.toNat + 1 < 2 ^ 64
  sequence : v.sequenceIndex = u.sequenceIndex
  invocation : v.invocationId = u.invocationId + 1
  pair : ¬ v.pairIndex < u.pairIndex
  timestamp : v.pairIndex = u.pairIndex → v.cameraTimestampNs = u.cameraTimestampNs

structure IdentitiesOrdered (us : List CP2LiveUpdateEvent) : Prop where
  first : ∀ u, us.head? = some u → u.invocationId = 0
  chain : us.IsChain Follows

structure Later (u v : CP2LiveUpdateEvent) : Prop where
  sequence : v.sequenceIndex = u.sequenceIndex
  pair : u.pairIndex ≤ v.pairIndex
  invocation : u.invocationId < v.invocationId

theorem Follows.later {u v : CP2LiveUpdateEvent} (h : Follows u v) : Later u v := by
  refine ⟨h.sequence, UInt64.not_lt.mp h.pair, ?_⟩
  have hfits := h.fits
  rw [h.invocation, UInt64.lt_iff_toNat_lt, UInt64.toNat_add]
  show u.invocationId.toNat < (u.invocationId.toNat + 1) % 2 ^ 64
  omega

theorem Later.trans {u v w : CP2LiveUpdateEvent} (h : Later u v) (h' : Later v w) : Later u w :=
  ⟨h'.sequence.trans h.sequence, UInt64.le_trans h.pair h'.pair,
    UInt64.lt_trans h.invocation h'.invocation⟩

theorem IdentitiesOrdered.pairwise {us : List CP2LiveUpdateEvent} (h : IdentitiesOrdered us) :
    us.Pairwise Later := by
  have hchain : us.IsChain Later := h.chain.imp fun _ _ hf => hf.later
  have : IsTrans CP2LiveUpdateEvent Later := ⟨fun _ _ _ => Later.trans⟩
  exact isChain_iff_pairwise.mp hchain

theorem Later.invocationBefore {r r' : CP2RecordedUpdateEvent} (h : Later r.update r'.update) :
    InvocationBefore (identityOf r) (identityOf r') :=
  invocationBefore_of_le h.sequence h.pair h.invocation

/-! ## All events -/

structure Published where
  record : CP2RecordedUpdateEvent
  encoding : Encoding record
  small : (wireFrameBytes encoding.wireFrame).length < 2 ^ 63

def Published.frame (p : Published) : List UInt8 := wireFrameBytes p.encoding.wireFrame

theorem Published.fragments_le (p : Published) :
    p.encoding.fragments.state.length ≤ p.frame.length ∧
    p.encoding.fragments.raw.length ≤ p.frame.length ∧
    p.encoding.fragments.proposal.length ≤ p.frame.length := by
  have hle : ∀ t bytes, (⟨t, bytes⟩ : WireSection) ∈ p.encoding.wireFrame.sections →
      bytes.length ≤ p.frame.length := by
    intro t bytes hmem
    have hsection : bytes.length ≤ (p.encoding.wireFrame.sections.flatMap sectionBytes).length :=
      length_section_le hmem
    rw [Published.frame, length_wireFrameBytes]
    omega
  refine ⟨hle 6 _ ?_, hle 7 _ ?_, hle 8 _ ?_⟩
  all_goals
    rw [p.encoding.sections_eq]
    simp

structure JournalOf (ps : List Published) (decoded : CP2TraceJournalDecoded) : Prop where
  events : decoded.events = ps.map (·.encoding.event)
  state : ∃ file, encodeFile stateFile (ps.flatMap (·.encoding.states)) = .ok file ∧
    file.bytes = decoded.stateFileBytes
  raw : ∃ file, encodeFile rawSystemFile (ps.flatMap fun p => rawContents p.record) = .ok file ∧
    file.bytes = decoded.rawSystemFileBytes
  proposal : ∃ file,
    encodeFile proposalFile (ps.flatMap fun p => proposalContents p.record) = .ok file ∧
      file.bytes = decoded.proposalFileBytes

theorem journalOf_nil : JournalOf [] emptyJournal :=
  ⟨rfl, ⟨⟨_, _⟩, rfl, rfl⟩, ⟨⟨_, _⟩, rfl, rfl⟩, ⟨⟨_, _⟩, rfl, rfl⟩⟩

section Loop

variable {limits : CP2TraceJournalDecodeLimits}

theorem extend_file {γ η : Type} {K : FrameFile γ η} {cs₁ cs₂ : List γ} {file₂ : EncodedFile}
    {bytes : List UInt8} (h₁ : ∃ file, encodeFile K cs₁ = .ok file ∧ file.bytes = bytes)
    (h₂ : encodeFile K cs₂ = .ok file₂)
    (hval : K.validate cs₁ = .ok () → K.validate cs₂ = .ok () → K.validate (cs₁ ++ cs₂) = .ok ())
    (hsize : bytes.length + (fragmentOf K file₂).length < 2 ^ 64) :
    ∃ file, encodeFile K (cs₁ ++ cs₂) = .ok file ∧ file.bytes = bytes ++ fragmentOf K file₂ := by
  obtain ⟨file₁, henc₁, rfl⟩ := h₁
  exact encodeFile_append (hval (encodeFile_eq_ok.mp henc₁).1 (encodeFile_eq_ok.mp h₂).1) henc₁ h₂
    hsize

variable {p : Published}

theorem validateEventIdentity_ok {ps : List Published}
    (h : IdentitiesOrdered ((ps ++ [p]).map (·.record.update))) :
    validateEventIdentity (ps.map (·.encoding.event)).getLast? (parsedCore p.record) = .ok () := by
  rcases eq_nil_or_concat ps with rfl | ⟨ps, q, rfl⟩
  · have hfirst := h.first p.record.update rfl
    show decodeRequire (p.record.update.invocationId == 0) _ = _
    rw [hfirst]
    rfl
  · have hchain := h.chain
    rw [concat_eq_append, append_assoc, map_append] at hchain
    have hlast : Follows q.record.update p.record.update := by
      have htail := hchain.right_of_append
      simpa using htail
    rw [concat_eq_append, map_append, map_singleton, getLast?_concat]
    have hfits : ¬ 2 ^ 64 ≤ q.encoding.event.invocationId.toNat + 1 := by
      have hlt : q.encoding.event.invocationId.toNat + 1 < 2 ^ 64 := hlast.fits
      omega
    simp only [validateEventIdentity]
    rw [if_neg hfits, decodeRequire_eq_ok]
    show (p.record.update.sequenceIndex == q.record.update.sequenceIndex &&
      p.record.update.invocationId == q.record.update.invocationId + 1 &&
      !decide (p.record.update.pairIndex < q.record.update.pairIndex) &&
      !(p.record.update.pairIndex == q.record.update.pairIndex &&
        p.record.update.cameraTimestampNs != q.record.update.cameraTimestampNs)) = true
    simp only [Bool.and_eq_true, beq_iff_eq, Bool.not_eq_true', decide_eq_false_iff_not,
      Bool.and_eq_false_imp, bne_eq_false_iff_eq]
    exact ⟨⟨⟨hlast.sequence, hlast.invocation⟩, hlast.pair⟩, hlast.timestamp⟩

structure EventFits (limits : CP2TraceJournalDecodeLimits) (decoded : CP2TraceJournalDecoded)
    (p : Published) : Prop where
  sections : SectionsWithin limits p.encoding.wireFrame.sections
  alone : canonicalFileHeaderSize + p.frame.length ≤ limits.maximumTotalBytes.toNat
  state : decoded.stateFileBytes.length + p.frame.length ≤ limits.maximumTotalBytes.toNat
  raw : decoded.rawSystemFileBytes.length + p.frame.length ≤ limits.maximumTotalBytes.toNat
  proposal : decoded.proposalFileBytes.length + p.frame.length ≤ limits.maximumTotalBytes.toNat

variable {decoded : CP2TraceJournalDecoded}

theorem EventFits.within
    (h : EventFits limits decoded p) : p.encoding.Within limits := by
  have hsection : ∀ t bytes, (⟨t, bytes⟩ : WireSection) ∈ p.encoding.wireFrame.sections →
      bytes.length ≤ limits.maximumSectionBytes.toNat :=
    fun t bytes hmem => h.sections.bytes _ hmem
  have hfile : ∀ {γ η : Type} {K : FrameFile γ η} {cs : List γ} {file : EncodedFile},
      encodeFile K cs = .ok file → K.magic.length = canonicalFileHeaderSize →
      (fragmentOf K file).length ≤ p.frame.length →
      file.bytes.length ≤ limits.maximumTotalBytes.toNat := by
    intro γ η K cs file henc hmagic hle
    have halone := h.alone
    rw [bytes_eq_magic_append henc, length_append]
    omega
  obtain ⟨hstate, hraw, hproposal⟩ := p.fragments_le
  refine ⟨hfile p.encoding.stateFile_eq magic_lengths.1 hstate,
    hfile p.encoding.rawFile_eq magic_lengths.2.1 hraw,
    hfile p.encoding.proposalFile_eq magic_lengths.2.2 hproposal, hsection 6 _ ?_, hsection 7 _ ?_,
    hsection 8 _ ?_⟩
  all_goals
    rw [p.encoding.sections_eq]
    simp

def CP2TraceJournalDecoded.extend (decoded : CP2TraceJournalDecoded) (p : Published) :
    CP2TraceJournalDecoded :=
  ⟨decoded.events ++ [p.encoding.event], decoded.stateFileBytes ++ p.encoding.fragments.state,
    decoded.proposalFileBytes ++ p.encoding.fragments.proposal,
    decoded.rawSystemFileBytes ++ p.encoding.fragments.raw⟩

theorem JournalOf.extend {ps : List Published}
    (h : JournalOf ps decoded) (hordered : IdentitiesOrdered ((ps ++ [p]).map (·.record.update)))
    (hfits : EventFits limits decoded p) : JournalOf (ps ++ [p]) (decoded.extend p) := by
  have hbefore : ∀ q ∈ ps, InvocationBefore (identityOf q.record) (identityOf p.record) := by
    intro q hq
    have hpairs := hordered.pairwise
    rw [map_append, pairwise_append] at hpairs
    exact (hpairs.2.2 _ (mem_map_of_mem hq) _ (by simp)).invocationBefore
  obtain ⟨hstate, hraw, hproposal⟩ := p.fragments_le
  have hlt := limits.maximumTotalBytes.toNat_lt
  have hfs := hfits.state
  have hfr := hfits.raw
  have hfp := hfits.proposal
  refine ⟨?_, ?_, ?_, ?_⟩
  · show decoded.events ++ [p.encoding.event] = _
    rw [h.events, map_append]
    rfl
  · rw [flatMap_append, flatMap_singleton]
    refine extend_file h.state p.encoding.stateFile_eq
      (fun h₁ h₂ => validateStateFrameSequence_append h₁ h₂ ?_)
      (show _ + p.encoding.fragments.state.length < 2 ^ 64 by omega)
    intro c₁ hc₁ c₂ hc₂
    obtain ⟨q, hq, hc₁⟩ := mem_flatMap.mp hc₁
    rw [q.encoding.states_spec.2 c₁ hc₁, p.encoding.states_spec.2 c₂ hc₂]
    exact hbefore q hq
  · rw [flatMap_append, flatMap_singleton]
    refine extend_file h.raw p.encoding.rawFile_eq
      (fun h₁ h₂ => validateRawFrameSequence_append h₁ h₂ ?_)
      (show _ + p.encoding.fragments.raw.length < 2 ^ 64 by omega)
    intro c₁ hc₁ c₂ hc₂
    obtain ⟨q, hq, hc₁⟩ := mem_flatMap.mp hc₁
    rw [rawContents_invocation hc₁, rawContents_invocation hc₂]
    exact hbefore q hq
  · rw [flatMap_append, flatMap_singleton]
    refine extend_file h.proposal p.encoding.proposalFile_eq
      (fun h₁ h₂ => validateProposalFrameSequence_append h₁ h₂ ?_)
      (show _ + p.encoding.fragments.proposal.length < 2 ^ 64 by omega)
    intro c₁ hc₁ c₂ hc₂
    obtain ⟨q, hq, hc₁⟩ := mem_flatMap.mp hc₁
    rw [proposalContents_invocation hc₁, proposalContents_invocation hc₂]
    exact hbefore q hq

/-- **One event** is decoded and its fragments extend the files. -/
theorem decodeEvent_ok {ps : List Published}
    (h : JournalOf ps decoded) (hordered : IdentitiesOrdered ((ps ++ [p]).map (·.record.update)))
    (hfits : EventFits limits decoded p) (hclaims : zeroRawClaimsProposal p.record = false) :
    decodeEvent limits decoded p.encoding.wireFrame = .ok (decoded.extend p) := by
  obtain ⟨hstate, hraw, hproposal⟩ := p.fragments_le
  have hfs := hfits.state
  have hfr := hfits.raw
  have hfp := hfits.proposal
  have hidentity := validateEventIdentity_ok hordered
  rw [← h.events] at hidentity
  have hsummary := p.encoding.decodeSummary_ok hidentity p.small hclaims
  have hcheck := p.encoding.checkFragments_ok hfits.within
  simp only [decodeEvent, bind_eq_ok, decodeRequire_eq_ok, Prod.exists]
  exact ⟨(), rfl, _, _, hsummary, (), hcheck, _, appendLimited_ok (by omega), _,
    appendLimited_ok (by omega), _, appendLimited_ok (by omega), rfl⟩

theorem decodeEvent_error
    (hclaims : zeroRawClaimsProposal p.record = true) :
    decodeEvent limits decoded p.encoding.wireFrame = .error .kInvalidSectionValue := by
  have hsummary := p.encoding.decodeSummary_error decoded.events.getLast? hclaims
  have hversion : decodeRequire (p.encoding.wireFrame.version == formatVersion) .kInvalidVersion =
    .ok () := rfl
  rw [decodeEvent, hversion]
  show (do let x ← decodeSummary decoded.events.getLast? p.encoding.wireFrame; _) = _
  rw [hsummary]
  rfl

theorem exactFrame_ok {frame : WireFrame} (hsmall : (wireFrameBytes frame).length < 2 ^ 63)
    (rest : List UInt8) (mismatch : CP2TraceJournalDecodeStatus) :
    exactFrame frame (wireFrameBytes frame ++ rest) rest mismatch = .ok () := by
  have henc : appendFrameBytes frame = some (wireFrameBytes frame) :=
    appendFrameBytes_eq_some.mpr ⟨rfl, hsmall⟩
  have hlength : (wireFrameBytes frame ++ rest).length - rest.length =
      (wireFrameBytes frame).length := by
    rw [length_append]
    omega
  simp only [exactFrame, henc]
  rw [hlength, take_left' rfl, beq_self_eq_true]
  rfl

def framesBytes (ps : List Published) : List UInt8 := ps.flatMap (·.frame)

/-- The sizes that decoding the remaining events needs. -/
structure RestFits (limits : CP2TraceJournalDecodeLimits) (decoded : CP2TraceJournalDecoded)
    (qs : List Published) : Prop where
  sections : ∀ q ∈ qs, SectionsWithin limits q.encoding.wireFrame.sections
  count : decoded.events.length + qs.length ≤ limits.maximumFrames.toNat
  alone : canonicalFileHeaderSize + (framesBytes qs).length ≤ limits.maximumTotalBytes.toNat
  state : decoded.stateFileBytes.length + (framesBytes qs).length ≤
    limits.maximumTotalBytes.toNat
  raw : decoded.rawSystemFileBytes.length + (framesBytes qs).length ≤
    limits.maximumTotalBytes.toNat
  proposal : decoded.proposalFileBytes.length + (framesBytes qs).length ≤
    limits.maximumTotalBytes.toNat

theorem length_framesBytes_cons (q : Published) (qs : List Published) :
    (framesBytes (q :: qs)).length = q.frame.length + (framesBytes qs).length := by
  rw [framesBytes, flatMap_cons, length_append]
  rfl

variable {qs : List Published} {q : Published}

theorem RestFits.head
    (h : RestFits limits decoded (q :: qs)) : EventFits limits decoded q := by
  obtain ⟨hsections, -, halone, hstate, hraw, hproposal⟩ := h
  rw [length_framesBytes_cons] at halone hstate hraw hproposal
  exact ⟨hsections q mem_cons_self, by omega, by omega, by omega, by omega⟩

theorem RestFits.tail
    (h : RestFits limits decoded (q :: qs)) : RestFits limits (decoded.extend q) qs := by
  obtain ⟨hsections, hcount, halone, hstate, hraw, hproposal⟩ := h
  obtain ⟨hs, hr, hp⟩ := q.fragments_le
  rw [length_framesBytes_cons] at halone hstate hraw hproposal
  rw [length_cons] at hcount
  refine ⟨fun q' hq' => hsections q' (mem_cons_of_mem q hq'), ?_, by omega, ?_, ?_, ?_⟩
  all_goals
    simp only [CP2TraceJournalDecoded.extend, length_append, length_singleton]
    omega

theorem IdentitiesOrdered.initial {us vs : List CP2LiveUpdateEvent}
    (h : IdentitiesOrdered (us ++ vs)) : IdentitiesOrdered us := by
  refine ⟨?_, h.chain.left_of_append⟩
  intro u hu
  apply h.first
  rw [head?_append, hu]
  rfl

theorem decodeEvents_cons {fuel : Nat} (hfuel : (framesBytes (q :: qs)).length ≤ fuel)
    (hsections : SectionsWithin limits q.encoding.wireFrame.sections)
    (hcount : decoded.events.length < limits.maximumFrames.toNat) :
    ∃ fuel', (framesBytes qs).length ≤ fuel' ∧
      decodeEvents limits fuel (framesBytes (q :: qs)) decoded = (do
        let decoded ← decodeEvent limits decoded q.encoding.wireFrame
        decodeEvents limits fuel' (framesBytes qs) decoded) := by
  have hpos : 0 < q.frame.length := by
    rw [Published.frame, length_wireFrameBytes]
    omega
  have hsmall : (bodyBytes q.encoding.wireFrame).length < 2 ^ 64 := by
    have hsmall := q.small
    rw [length_wireFrameBytes] at hsmall
    rw [length_bodyBytes]
    omega
  rw [length_framesBytes_cons] at hfuel
  obtain ⟨fuel', rfl⟩ : ∃ fuel', fuel = fuel' + 1 := ⟨fuel - 1, by omega⟩
  refine ⟨fuel', by omega, ?_⟩
  have hbytes : framesBytes (q :: qs) = q.frame ++ framesBytes qs := rfl
  have hparse : parseWireFrame limits (framesBytes (q :: qs)) =
      .ok (q.encoding.wireFrame, framesBytes qs) :=
    parseWireFrame_append hsections hsmall _
  have hexact := exactFrame_ok q.small (framesBytes qs) .kCanonicalCodecFailure
  have hframe : decodeRequire (decide (decoded.events.length < limits.maximumFrames.toNat))
      .kFrameLimit = .ok () := by
    rw [decide_eq_true hcount]
    rfl
  obtain ⟨b, bs, hcons⟩ : ∃ b bs, framesBytes (q :: qs) = b :: bs := by
    refine exists_cons_of_ne_nil (ne_nil_of_length_pos ?_)
    rw [length_framesBytes_cons]
    omega
  have hne : b :: bs ≠ [] := cons_ne_nil b bs
  rw [hcons, decodeEvents.eq_3 _ _ _ _ hne, ← hcons, hframe, hparse]
  show (do
    let decoded ← decodeEvent limits decoded q.encoding.wireFrame
    exactFrame q.encoding.wireFrame (framesBytes (q :: qs)) (framesBytes qs)
      .kCanonicalCodecFailure
    decodeEvents limits fuel' (framesBytes qs) decoded) = _
  rw [hbytes, Published.frame, hexact]
  rfl

/-- **All events**: either every record is decoded, or the first one without raw systems that
claims a proposal ends the decoding. -/
theorem decodeEvents_published :
    ∀ {ps : List Published} {decoded : CP2TraceJournalDecoded} {fuel : Nat},
      JournalOf ps decoded → IdentitiesOrdered ((ps ++ qs).map (·.record.update)) →
      RestFits limits decoded qs → (framesBytes qs).length ≤ fuel →
      if qs.any (fun q => zeroRawClaimsProposal q.record) then
        decodeEvents limits fuel (framesBytes qs) decoded = .error .kInvalidSectionValue
      else ∃ decoded', decodeEvents limits fuel (framesBytes qs) decoded = .ok decoded' ∧
        JournalOf (ps ++ qs) decoded' ∧ RestFits limits decoded' [] := by
  induction qs with
  | nil =>
    intro ps decoded fuel h _ hfits _
    rw [if_neg (by simp), append_nil]
    refine ⟨decoded, ?_, h, hfits⟩
    cases fuel <;> rfl
  | cons q qs ih =>
    intro ps decoded fuel h hordered hfits hfuel
    have hcount : decoded.events.length < limits.maximumFrames.toNat := by
      have := hfits.count
      rw [length_cons] at this
      omega
    obtain ⟨fuel', hfuel', hstep⟩ := decodeEvents_cons hfuel
      (hfits.sections q mem_cons_self) hcount
    rw [hstep]
    cases hclaims : zeroRawClaimsProposal q.record with
    | true =>
      rw [if_pos (by simp [hclaims]), decodeEvent_error hclaims]
      rfl
    | false =>
      have hassoc : ps ++ q :: qs = (ps ++ [q]) ++ qs := by simp
      rw [hassoc] at hordered ⊢
      have hprefix : IdentitiesOrdered ((ps ++ [q]).map (·.record.update)) := by
        rw [map_append] at hordered
        exact hordered.initial
      rw [decodeEvent_ok h hprefix hfits.head hclaims]
      have hrest := ih (h.extend hprefix hfits.head) hordered hfits.tail hfuel'
      rw [any_cons, hclaims, Bool.false_or]
      exact hrest

end Loop

/-! ## The whole journal -/

structure LimitsCover (limits : CP2TraceJournalDecodeLimits) (stream : List UInt8)
    (records : List CP2RecordedUpdateEvent) : Prop where
  bytes : stream.length ≤ limits.maximumTotalBytes.toNat
  frames : records.length ≤ limits.maximumFrames.toNat
  bootstrap : SectionsWithin limits bootstrapFrame.sections
  sections : ∀ record ∈ records, ∀ e : Encoding record,
    SectionsWithin limits e.wireFrame.sections

section Journal

variable {limits : CP2TraceJournalDecodeLimits} {ps : List Published}

theorem length_preamble : preamble.length = 200 ∧ fileHeader.length = 32 ∧
    (wireFrameBytes bootstrapFrame).length = 168 ∧ (bodyBytes bootstrapFrame).length < 2 ^ 64 := by
  decide +kernel

theorem length_frame_le {p : Published} (hp : p ∈ ps) :
    p.frame.length ≤ (framesBytes ps).length := by
  rw [framesBytes, length_flatMap]
  exact le_sum_of_mem (mem_map_of_mem (f := fun p : Published => p.frame.length) hp)

theorem restFits_of_cover
    (h : LimitsCover limits (preamble ++ framesBytes ps) (ps.map (·.record))) :
    RestFits limits emptyJournal ps := by
  have hbytes := h.bytes
  have hcount := h.frames
  rw [length_append, length_preamble.1] at hbytes
  rw [length_map] at hcount
  have hmagic : stateFileMagic.length = 32 ∧ rawFileMagic.length = 32 ∧
      proposalFileMagic.length = 32 := magic_lengths
  refine ⟨fun q hq => h.sections q.record (mem_map_of_mem hq) q.encoding, ?_, ?_, ?_, ?_, ?_⟩
  · simpa [emptyJournal] using hcount
  · simp only [canonicalFileHeaderSize]
    omega
  · simp only [emptyJournal, hmagic.1]
    omega
  · simp only [emptyJournal, hmagic.2.1]
    omega
  · simp only [emptyJournal, hmagic.2.2]
    omega

theorem RestFits.eventFits {decoded : CP2TraceJournalDecoded} (h : RestFits limits decoded ps)
    {p : Published} (hp : p ∈ ps) : EventFits limits decoded p := by
  obtain ⟨hsections, -, halone, hstate, hraw, hproposal⟩ := h
  have hle := length_frame_le hp
  exact ⟨hsections p hp, by omega, by omega, by omega, by omega⟩

theorem checkFiles_ok {decoded : CP2TraceJournalDecoded} (h : JournalOf ps decoded)
    (hwithin : ∀ p ∈ ps, p.encoding.Within limits) (hsizes : RestFits limits decoded []) :
    checkFiles limits decoded = .ok () := by
  obtain ⟨stateFile, hstate, hstateBytes⟩ := h.state
  obtain ⟨rawFile, hraw, hrawBytes⟩ := h.raw
  obtain ⟨proposalFile, hproposal, hproposalBytes⟩ := h.proposal
  have hstateSize : stateFile.bytes.length ≤ limits.maximumTotalBytes.toNat := by
    rw [hstateBytes]
    exact le_of_add_le_left hsizes.state
  have hrawSize : rawFile.bytes.length ≤ limits.maximumTotalBytes.toNat := by
    rw [hrawBytes]
    exact le_of_add_le_left hsizes.raw
  have hproposalSize : proposalFile.bytes.length ≤ limits.maximumTotalBytes.toNat := by
    rw [hproposalBytes]
    exact le_of_add_le_left hsizes.proposal
  obtain ⟨stateFrames, hstateDecoded, -, hstateExact⟩ := decode_stateFile hstate
    hstateSize fun c hc => by
      obtain ⟨p, hp, hc⟩ := mem_flatMap.mp hc
      exact (p.encoding.payloadsWithin (hwithin p hp)).1 c hc
  obtain ⟨rawFrames, hrawDecoded, -, hrawExact⟩ := decode_rawFile hraw
    hrawSize fun c hc => by
      obtain ⟨p, hp, hc⟩ := mem_flatMap.mp hc
      exact (p.encoding.payloadsWithin (hwithin p hp)).2.1 c hc
  obtain ⟨proposalFrames, hproposalDecoded, -, hproposalExact⟩ := decode_proposalFile hproposal
    hproposalSize fun c hc => by
      obtain ⟨p, hp, hc⟩ := mem_flatMap.mp hc
      exact (p.encoding.payloadsWithin (hwithin p hp)).2.2 c hc
  rw [hstateBytes] at hstateDecoded hstateExact
  rw [hrawBytes] at hrawDecoded hrawExact
  rw [hproposalBytes] at hproposalDecoded hproposalExact
  simp only [checkFiles, bind_eq_ok, canonical_eq_ok]
  exact ⟨_, hstateDecoded, _, hrawDecoded, _, hproposalDecoded, (), hstateExact, (), hrawExact,
    hproposalExact⟩

theorem decode_preamble (h : LimitsCover limits (preamble ++ framesBytes ps) (ps.map (·.record))) :
    decode limits (preamble ++ framesBytes ps) = (do
      let decoded ← decodeEvents limits (framesBytes ps).length (framesBytes ps) emptyJournal
      checkFiles limits decoded
      return decoded) := by
  have hlt := limits.maximumTotalBytes.toNat_lt
  have hbytes := h.bytes
  have hfits : decodeRequire (decide ((preamble ++ framesBytes ps).length < 2 ^ 64))
      .kArithmeticOverflow = .ok () ∧
      decodeRequire (decide ((preamble ++ framesBytes ps).length ≤
        limits.maximumTotalBytes.toNat)) .kTotalBytesLimit = .ok () := by
    constructor
    · rw [decodeRequire_eq_ok, decide_eq_true_eq]
      omega
    · rw [decodeRequire_eq_ok, decide_eq_true_eq]
      exact hbytes
  have hstart : preamble ++ framesBytes ps =
      fileHeader ++ (wireFrameBytes bootstrapFrame ++ framesBytes ps) := by
    rw [preamble, append_assoc]
  have hheader : decodeRequire ((preamble ++ framesBytes ps).take fileHeader.length == fileHeader)
      .kInvalidHeader = .ok () := by
    rw [decodeRequire_eq_ok, hstart, take_left' rfl]
    exact beq_self_eq_true _
  have hbody : (preamble ++ framesBytes ps).drop fileHeader.length =
      wireFrameBytes bootstrapFrame ++ framesBytes ps := by
    rw [hstart, drop_left' rfl]
  have hparse := parseWireFrame_append h.bootstrap length_preamble.2.2.2 (framesBytes ps)
  have hwhole : (wireFrameBytes bootstrapFrame).length < 2 ^ 63 := by
    rw [length_preamble.2.2.1]
    decide
  have hexact := exactFrame_ok hwhole (framesBytes ps) .kInvalidBootstrap
  have hbootstrap : decodeRequire (bootstrapFrame.version == formatVersion) .kInvalidVersion =
      .ok () ∧ decodeRequire (bootstrapFrame.sections == bootstrapFrame.sections)
        .kInvalidBootstrap = .ok () := by
    refine ⟨rfl, ?_⟩
    rw [decodeRequire_eq_ok]
    exact beq_self_eq_true _
  rw [decode, hfits.1, hfits.2, hheader, hbody]
  dsimp only
  rw [hparse]
  show (do
    decodeRequire (bootstrapFrame.version == formatVersion) .kInvalidVersion
    decodeRequire (bootstrapFrame.sections == bootstrapFrame.sections) .kInvalidBootstrap
    exactFrame bootstrapFrame (wireFrameBytes bootstrapFrame ++ framesBytes ps) (framesBytes ps)
      .kInvalidBootstrap
    let decoded ← decodeEvents limits (framesBytes ps).length (framesBytes ps) emptyJournal
    checkFiles limits decoded
    return decoded) = _
  rw [hbootstrap.1, hbootstrap.2, hexact]
  rfl

theorem decode_published (hordered : IdentitiesOrdered (ps.map (·.record.update)))
    (h : LimitsCover limits (preamble ++ framesBytes ps) (ps.map (·.record))) :
    if ps.any (fun p => zeroRawClaimsProposal p.record) then
      decode limits (preamble ++ framesBytes ps) = .error .kInvalidSectionValue
    else ∃ decoded, decode limits (preamble ++ framesBytes ps) = .ok decoded ∧
      JournalOf ps decoded := by
  have hfits := restFits_of_cover h
  have hevents := decodeEvents_published journalOf_nil hordered hfits le_rfl
  rw [decode_preamble h]
  split_ifs at hevents ⊢ with hclaims
  · rw [hevents]
    rfl
  · obtain ⟨decoded, hdecoded, hjournal, hsizes⟩ := hevents
    refine ⟨decoded, ?_, hjournal⟩
    have hcheck := checkFiles_ok hjournal (fun p hp => (hfits.eventFits hp).within) hsizes
    rw [hdecoded]
    show (do checkFiles limits decoded; pure decoded) = _
    rw [hcheck]
    rfl

end Journal

end Bravo.Journal
