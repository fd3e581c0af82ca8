import Bravo.Updater.Baseline
import Bravo.Updater.Lifecycle

/-! # The provenance of the live baseline

The loop starts with an empty system and an empty shadow input, so both sides of the comparison agree
behind it, and `recorded_baseline_provenance_equal`, which the rest of a recorded call computes from
the shadow, stays true to the end of the call.
-/

namespace Bravo.Updater

open Bravo.Trace Bravo.Journal Bravo.Shadow List

variable {σ : Type}

section Entry

variable {C : Callees σ} {options : UpdaterOptions} {table : ChiSquaredTable}
variable {prior : MSCKFUpdatePreviewSnapshot} {vars landmarks : List Variable}
variable {snapshot : CP2CompositeStateSnapshot} {recorded : Bool} {capacity : Capacity}
variable {schurReduce : MatrixXd → MatrixXd → VectorXd → Binary64 → SchurReduction}

/-! ## In front of the loop -/

/-- The state of a call in which the linear system has just been allocated. -/
structure LoopEntry (C : Callees σ) (prior : MSCKFUpdatePreviewSnapshot) (landmarks : List Variable)
    (recorded : Bool) (capacity : Capacity) (s : Call σ) : Prop where
  distinct : (s.proposalVec.map fun p => (s.heap p).featid).Nodup
  fits : capacityOf C (s.proposalVec.map s.heap) = some capacity
  covariance : C.maxCovarianceSize = prior.covariance.rows
  landmarkSizes : C.landmarkSizes = landmarks.map fun v => some v.size.toInt
  system : s.system = .allocate capacity
  count : s.event.rawSystemCount = 0
  acceptedIds : s.event.baselineAcceptedIds = []
  gammaStatus : s.event.baselineGammaStatus = .kNotReached
  payloads : s.record.rawSystemPayloads = []
  proposal : s.shadowProposalPayload = none
  promoted : s.phase0Promoted = false
  priorSnapshot : recorded = false → s.priorSnapshot = prior

theorem excludeLandmarks_eq (landmarks : List Variable) :
    ∀ {size columns : Int}, excludeLandmarks size (landmarks.map fun v => some v.size.toInt) =
      some columns → columns = size - total landmarks := by
  induction landmarks with
  | nil =>
    intro size columns h
    rw [map_nil, excludeLandmarks, Option.some.injEq] at h
    simp [← h, total]
  | cons v landmarks ih =>
    intro size columns h
    rw [map_cons, excludeLandmarks] at h
    split at h
    · cases h
    · rename_i hbounds
      have hwidth : (v.width : Int) = v.size.toInt := Int.toNat_of_nonneg (by omega)
      rw [ih h, total_cons]
      omega

theorem LoopEntry.room (hvars : StateVariables prior vars landmarks) {s : Call σ}
    (h : LoopEntry C prior landmarks recorded capacity s) :
    Room capacity vars ∧
      capacity.maxMeasSize = ((s.proposalVec.map s.heap).map fun f => 2 * f.measurementCount).sum := by
  have hcapacity := h.fits
  unfold capacityOf at hcapacity
  simp only at hcapacity
  split at hcapacity
  · cases hcapacity
  · rename_i hbounds
    obtain ⟨columns, hcolumns, rfl⟩ := Option.map_eq_some_iff.mp hcapacity
    rw [h.covariance, h.landmarkSizes] at hcolumns
    have heq := excludeLandmarks_eq landmarks hcolumns
    have htotal := hvars.total_le
    have hrows : prior.covariance.rows < indexLimit := prior.covariance.rows_lt
    refine ⟨⟨Nat.lt_of_not_le fun hle => hbounds (.inl hle), ?_, ?_⟩, rfl⟩
    · show columns.toNat < indexLimit
      omega
    · show total vars ≤ columns.toNat
      omega

theorem length_le_rows {features : List Feature} (h : ∀ f ∈ features, 2 ≤ f.measurementCount) :
    features.length ≤ (features.map fun f => 2 * f.measurementCount).sum := by
  induction features with
  | nil => exact Nat.le_refl 0
  | cons f features ih =>
    have hf := h f mem_cons_self
    have hrest := ih fun g hg => h g (mem_cons_of_mem _ hg)
    rw [length_cons, map_cons, sum_cons]
    omega

variable (schurReduce)

theorem wp_prepareShadow_loop (hrecorded : recorded = true → RecordedPrior C prior snapshot)
    (hroom : Room capacity vars) {s : Call σ}
    (h : LoopEntry C prior landmarks recorded capacity s) :
    wp (prepareShadow C options table recorded true)
      (fun _ t => t.proposalVec = s.proposalVec ∧ LoopAt C options table prior vars snapshot recorded
        capacity schurReduce s.heap [] s.proposalVec t)
      (fun _ _ => False) s := by
  have hstart : ∀ {t : Call σ}, t.shadowInput.rawSystems = [] →
      PriorAt options table prior snapshot recorded t → t.heap = s.heap → t.system = s.system →
      t.event = s.event → t.record = s.record → t.shadowProposalPayload = s.shadowProposalPayload →
      LoopAt C options table prior vars snapshot recorded capacity schurReduce s.heap []
        s.proposalVec t := by
    intro t hraws hprior hheap hsystem hevent hrecord hproposal
    have hmode : traversal C.arithmetic schurReduce options table prior [] = .start := rfl
    refine ⟨hprior, fun hne => absurd rfl hne, fun p _ => by rw [hheap], ?_, ?_, ?_, ?_, ?_, ?_, ?_,
      ?_, ?_⟩
    · rw [hevent, h.count]
      rfl
    · rw [hraws]
      rfl
    · rw [hraws]
      intro raw hraw
      cases hraw
    · rw [hraws, hmode, hevent, h.acceptedIds]
      rfl
    · rw [hraws, hmode, hsystem, h.system]
      exact ⟨rfl, fun _ => rfl⟩
    · rw [hevent]
      exact h.gammaStatus
    · intro _
      rw [hrecord, h.payloads, hraws]
      rfl
    · exact hproposal.trans h.proposal
    · rw [hraws, hmode, hsystem, h.system]
      exact ⟨[], {}, ⟨nodup_nil, nil_subset _⟩, rfl, .start hroom.rows hroom.cols,
        Nat.zero_le _⟩
  cases recorded with
  | false =>
    simp only [prepareShadow, onlyIf, if_true, Bool.false_eq_true, if_false, wp_bind, wp_pure,
      wp_modify]
    refine ⟨rfl, hstart rfl ⟨rfl, fun _ => ⟨h.priorSnapshot rfl, h.priorSnapshot rfl⟩, fun htrue => ?_⟩
      rfl rfl rfl rfl rfl⟩
    cases htrue
  | true =>
    simp only [prepareShadow, onlyIf, if_true, wp_bind, (hrecorded rfl).capture, call, wp_pure,
      wp_modify]
    refine ⟨rfl, hstart rfl ⟨rfl, fun hready => ?_, fun _ => rfl⟩ rfl rfl rfl rfl rfl⟩
    rcases hready with hfalse | hpromoted
    · cases hfalse
    · rw [h.promoted] at hpromoted
      cases hpromoted

theorem wp_processFeatures_loop {s : Call σ}
    (hcall : NullspaceCall C options table prior vars landmarks (s.proposalVec.map s.heap))
    (hrecorded : recorded = true → RecordedPrior C prior snapshot)
    (h : LoopEntry C prior landmarks recorded capacity s) :
    wp (do
        prepareShadow C options table recorded true
        processFeatures C options recorded true capacity)
      (fun complete t => complete = true ∧ ∃ u, t = gammaNoted u ∧
        LoopAt C options table prior vars snapshot recorded capacity schurReduce s.heap s.proposalVec
          [] u)
      (fun _ _ => False) s := by
  obtain ⟨hroom, hrows⟩ := h.room hcall.stateVariables
  have hlength : s.proposalVec.length < 2 ^ 64 := by
    have hmeasured : ∀ f ∈ s.proposalVec.map s.heap, 2 ≤ f.measurementCount := by
      intro f hf
      obtain ⟨l, us, -, hl⟩ := hcall.jacobian 0 f hf
      have henough := hl.enough
      have hfrows := hl.H_f_rows
      omega
    have hle := length_le_rows hmeasured
    rw [length_map, ← hrows] at hle
    have hlimit : capacity.maxMeasSize < 2 ^ 63 := hroom.rows
    omega
  rw [wp_bind]
  refine wp_mono (wp_prepareShadow_loop schurReduce hrecorded hroom h) (fun _ t ht => ?_) (fun _ _ he => he)
  obtain ⟨hvec, hloop⟩ := ht
  unfold processFeatures
  rw [wp_bind, wp_get, wp_bind, hvec]
  refine wp_mono (wp_sweep_loop hcall hroom hrecorded s.proposalVec [] []
    (fun p hp => mem_map_of_mem hp) (List.Nodup.of_map _ h.distinct) (by simpa using hlength)
    ?_ hloop) (fun complete u hu => ?_) (fun _ _ he => he)
  · rw [nil_append, hrows, List.map_map]
    exact Nat.le_refl _
  · obtain ⟨rfl, hu⟩ := hu
    simp only [onlyIf, if_true, wp_bind, wp_modify, wp_pure]
    exact ⟨trivial, u, rfl, hu⟩

end Entry

/-! ## Behind the shadow -/

structure Evidence where
  equal : Bool
  result : ShadowResult
  payload : Option (List UInt8)
  system : LiveSystem
  prior : MSCKFUpdatePreviewSnapshot

def evidenceOf (s : Call σ) : Evidence where
  equal := s.baselineProvenanceEqual
  result := s.shadowResult
  payload := s.shadowProposalPayload
  system := s.system
  prior := s.priorSnapshot

section Frames

variable {α : Type}

theorem evidence_latchTraceFatal (reason : CP2TraceFatalReason) (message : String) :
    Keeps evidenceOf (latchTraceFatal reason message : Update σ α) :=
  .bind (.of_modify fun _ => rfl) fun _ => .of_get fun _ => .of_throw _

theorem evidence_callOrLatch (x : Except Fault α) (reason : CP2TraceFatalReason) (message : String) :
    Keeps evidenceOf (callOrLatch x reason message : Update σ α) := by
  cases x with
  | ok a => exact .of_pure a
  | error _ => exact evidence_latchTraceFatal _ _

theorem evidence_modifyRecord (g : CP2RecordedUpdateEvent → CP2RecordedUpdateEvent) :
    Keeps evidenceOf (modifyRecord g : Update σ Unit) :=
  .of_modify fun _ => rfl

theorem evidence_modifyEvent (g : CP2LiveUpdateEvent → CP2LiveUpdateEvent) :
    Keeps evidenceOf (modifyEvent g : Update σ Unit) :=
  .of_modify fun _ => rfl

theorem evidence_publishRecord (C : Callees σ) : Keeps evidenceOf (publishRecord C) := by
  refine .of_get fun s => .ite (evidence_latchTraceFatal _ _) ?_
  refine .bind (.of_modify fun _ => rfl) fun _ => ?_
  refine .ite (evidence_latchTraceFatal _ _) ?_
  exact .bind (.of_modify fun _ => rfl) fun _ => .of_modify fun _ => rfl

theorem evidence_finishRecordedZeroRaw (C : Callees σ) (status : CP2UpdateTerminalStatus)
    (subreason : CP2UpdateTerminalSubreason) :
    Keeps evidenceOf (finishRecordedZeroRaw C status subreason) := by
  refine .bind (evidence_modifyEvent _) fun _ => .of_get fun s => ?_
  refine .ite (evidence_latchTraceFatal _ _) (.ite (evidence_latchTraceFatal _ _) ?_)
  exact .bind (evidence_modifyRecord _) fun _ => evidence_publishRecord C

theorem evidence_captureRecordedPhase1 (C : Callees σ) :
    Keeps evidenceOf (captureRecordedPhase1 C) := by
  refine Keeps.bind (Keeps.of_call _) fun captured => ?_
  cases captured with
  | none => exact evidence_latchTraceFatal _ _
  | some snapshot =>
    refine .bind (evidence_callOrLatch _ _ _) fun payload => .of_get fun s => ?_
    exact Keeps.bind (Keeps.of_call _) fun _ => Keeps.of_pure _

theorem evidence_installRecordedPhase01 (C : Callees σ)
    (phase1 : CP2CompositeStateSnapshot × List UInt8) (canonicalEqual pointerEqual : Bool) :
    Keeps evidenceOf (installRecordedPhase01 C phase1 canonicalEqual pointerEqual) := by
  refine .of_get fun s => .ite (evidence_latchTraceFatal _ _) ?_
  exact .bind (evidence_callOrLatch _ _ _) fun _ => evidence_modifyRecord _

theorem evidence_publishInstalledRecordedNoncommit (C : Callees σ) (status : CP2UpdateTerminalStatus)
    (subreason : CP2UpdateTerminalSubreason) :
    Keeps evidenceOf (publishInstalledRecordedNoncommit C status subreason) := by
  refine .of_get fun s => .ite (evidence_latchTraceFatal _ _) ?_
  refine .bind (.of_modify fun _ => rfl) fun _ => .of_get fun t => ?_
  refine .ite (evidence_latchTraceFatal _ _) ?_
  exact .bind (evidence_modifyRecord _) fun _ => evidence_publishRecord C

theorem evidence_finishRecordedNoncommit (C : Callees σ) (status : CP2UpdateTerminalStatus)
    (subreason : CP2UpdateTerminalSubreason) :
    Keeps evidenceOf (finishRecordedNoncommit C status subreason) := by
  refine .of_get fun s => .ite (evidence_latchTraceFatal _ _) ?_
  refine .bind (evidence_captureRecordedPhase1 C) fun phase1 => ?_
  refine Keeps.bind (Keeps.of_call _) fun pointerEqual => ?_
  exact .bind (evidence_installRecordedPhase01 C _ _ _) fun _ =>
    evidence_publishInstalledRecordedNoncommit C status subreason

theorem evidence_unplanCommit : Keeps evidenceOf (unplanCommit : Update σ Unit) :=
  evidence_modifyEvent _

theorem evidence_abandonCommit (C : Callees σ) : Keeps evidenceOf (abandonCommit C) :=
  .bind evidence_unplanCommit fun _ => evidence_finishRecordedNoncommit C _ _

theorem evidence_commitBoundary (C : Callees σ) : Keeps evidenceOf (commitBoundary C) := by
  refine Keeps.bind (Keeps.of_call _) fun proved => Keeps.ite (Keeps.of_pure _) ?_
  refine .of_get fun s => .bind (.of_modify fun _ => rfl) fun _ => ?_
  exact Keeps.bind (Keeps.of_call _) fun _ => Keeps.of_pure _

theorem evidence_publishCommitted (C : Callees σ) (phase2 phase3 : CP2CompositeStateSnapshot)
    (typeUpdateCalls : UInt64) :
    Keeps evidenceOf (publishCommitted C phase2 phase3 typeUpdateCalls) := by
  refine .bind (evidence_modifyRecord _) fun _ => ?_
  refine .bind (.of_modify fun _ => rfl) fun _ => .of_get fun s => ?_
  refine .ite (evidence_latchTraceFatal _ _) ?_
  refine .bind (evidence_callOrLatch _ _ _) fun payload => ?_
  refine .bind (evidence_modifyRecord _) fun _ => ?_
  refine Keeps.bind (Keeps.of_call _) fun oracle => ?_
  refine .ite (evidence_latchTraceFatal _ _) (.ite (evidence_latchTraceFatal _ _) ?_)
  exact .bind (evidence_modifyRecord _) fun _ => evidence_publishRecord C

theorem evidence_commitRecorded (C : Callees σ) (phase2 : CP2CompositeStateSnapshot)
    (payload2 : List UInt8) (typeUpdateCalls : UInt64) :
    Keeps evidenceOf (commitRecorded C phase2 payload2 typeUpdateCalls) := by
  refine .bind (evidence_callOrLatch _ _ _) fun _ => ?_
  refine .bind (evidence_modifyRecord _) fun _ => ?_
  refine .bind (.of_modify fun _ => rfl) fun _ => ?_
  refine .bind (evidence_commitBoundary C) fun status => .ite ?_ ?_
  · refine .bind (.of_modify fun _ => rfl) fun _ => ?_
    refine .bind (evidence_modifyRecord _) fun _ => ?_
    exact .bind evidence_unplanCommit fun _ =>
      evidence_publishInstalledRecordedNoncommit C _ _
  · cases C.postcommit.snapshot with
    | none => exact evidence_latchTraceFatal _ _
    | some phase3 =>
      exact .ite (evidence_latchTraceFatal _ _) (evidence_publishCommitted C _ _ _)

theorem evidence_prepareRecordedCommit (C : Callees σ) (phase2 : CP2CompositeStateSnapshot)
    (typeUpdateCalls : UInt64) :
    Keeps evidenceOf (prepareRecordedCommit C phase2 typeUpdateCalls) := by
  refine .bind (evidence_callOrLatch _ _ _) fun payload2 => ?_
  refine Keeps.bind (Keeps.of_call _) fun prepared => Keeps.ite (evidence_abandonCommit C) ?_
  refine .bind (evidence_captureRecordedPhase1 C) fun phase1 => .ite ?_ ?_
  · refine Keeps.bind (Keeps.of_call _) fun pointerEqual => ?_
    refine .bind (evidence_installRecordedPhase01 C _ _ _) fun _ => ?_
    exact .bind evidence_unplanCommit fun _ =>
      evidence_publishInstalledRecordedNoncommit C _ _
  · exact .bind (evidence_installRecordedPhase01 C _ _ _) fun _ =>
      evidence_commitRecorded C _ _ _

theorem evidence_markRemaining (features : List FeaturePtr) :
    Keeps evidenceOf (markRemaining features : Update σ Unit) := by
  induction features with
  | nil => exact .of_pure _
  | cons p features ih => exact .bind (.of_modify fun _ => rfl) fun _ => ih

theorem evidence_notePreview (preview : MSCKFUpdatePreviewResult) (planned : Bool) :
    Keeps evidenceOf (notePreview preview planned : Update σ Unit) :=
  evidence_modifyEvent _

end Frames

/-! ## The comparisons -/

section Comparisons

variable {α : Type} {C : Callees σ} {preview : Preview} {options : UpdaterOptions}
variable {prior : MSCKFUpdatePreviewSnapshot}

/-- However the piece ends, `recorded_baseline_provenance_equal` is true. -/
def Proven (x : Update σ α) (s : Call σ) : Prop :=
  wp x (fun _ t => t.baselineProvenanceEqual = true) (fun _ t => t.baselineProvenanceEqual = true) s

variable {s : Call σ}

theorem Keeps.proven {x : Update σ α} (hx : Keeps evidenceOf x)
    (hs : s.baselineProvenanceEqual = true) : Proven x s :=
  hx.wp (fun _ _ h => (congrArg Evidence.equal h).trans hs)
    (fun _ _ h => (congrArg Evidence.equal h).trans hs)

def payloadOf (C : Callees σ) (mode : GlobalMode) : Option (List UInt8) :=
  if mode.proposalAvailable then (C.encodeProposal (proposalPayload mode.proposal)).toOption else none

/-- The evidence that a recorded call has against the live baseline of the state `t`. -/
structure Agreeing (C : Callees σ) (preview : Preview) (options : UpdaterOptions)
    (prior : MSCKFUpdatePreviewSnapshot) (t : Call σ) (e : Evidence) : Prop where
  equal : e.equal = true
  same : SameBaseline C.arithmetic preview options prior e.result t
  payload : e.payload = payloadOf C e.result.nullspace
  available : e.payload.isSome = e.result.nullspace.proposalAvailable
  system : e.system = t.system
  prior_eq : e.prior = prior

variable {t : Call σ}

theorem Keeps.proven_bind {β : Type} {x : Update σ α} {f : α → Update σ β} (hx : Keeps evidenceOf x)
    (hs : Agreeing C preview options prior t (evidenceOf s))
    (hf : ∀ a u, Agreeing C preview options prior t (evidenceOf u) → u.shadowResult = s.shadowResult →
      Proven (f a) u) : Proven (x >>= f) s := by
  rw [Proven, wp_bind]
  exact hx.wp (fun a u h => hf a u (by rw [h]; exact hs) (congrArg Evidence.result h))
    (fun _ _ h => (congrArg Evidence.equal h).trans hs.equal)

theorem agreeing_requireEmptyShadow
    (hs : Agreeing C preview options prior t (evidenceOf s))
    (hrows : s.shadowResult.nullspace.compressedRows = 0)
    (hnone : s.shadowResult.nullspace.proposalAvailable = false) {f : Unit → Update σ Unit}
    (hf : ∀ u, u.baselineProvenanceEqual = true → Proven (f ⟨⟩) u) :
    Proven (requireEmptyShadow >>= f) s := by
  have hequal : s.baselineProvenanceEqual = true := hs.equal
  have hpayload : s.shadowProposalPayload.isSome = false := hs.available.trans hnone
  rw [Proven, requireEmptyShadow, wp_bind, wp_modify]
  refine hf _ ?_
  simp [hequal, hrows, hnone, Option.isSome_eq_false_iff.mp hpayload]

theorem proven_recordedCommit (hs : Agreeing C preview options prior t (evidenceOf s))
    (haccepted : s.shadowResult.nullspace.proposalAvailable = true) :
    Proven (recordedCommit C s.shadowResult.nullspace.proposal) s := by
  have hequal : s.baselineProvenanceEqual = true := hs.equal
  have hpayload : s.shadowProposalPayload = payloadOf C s.shadowResult.nullspace := hs.payload
  rw [payloadOf, if_pos haccepted] at hpayload
  rw [Proven, recordedCommit, wp_bind]
  cases hencode : C.encodeProposal (proposalPayload s.shadowResult.nullspace.proposal) with
  | error f =>
    simp only [callOrLatch, latchTraceFatal, modifyUpdater, wp_bind, wp_modify, wp_get, wp_throw]
    exact hequal
  | ok payload =>
    rw [hencode] at hpayload
    simp only [callOrLatch, wp_pure, wp_bind, wp_modify, wp_get]
    -- both payloads come from one encoder
    have hsame : (s.baselineProvenanceEqual && s.shadowProposalPayload == some payload) = true := by
      simp [hequal, hpayload, Except.toOption]
    rw [wp_ite]
    refine ⟨fun _ => Keeps.proven (evidence_abandonCommit C) hsame, fun _ => ?_⟩
    cases s.phase0 with
    | none => exact hsame
    | some phase0 =>
      refine Keeps.proven (Keeps.bind (Keeps.of_call _) fun expected => ?_) hsame
      cases expected with
      | none => exact evidence_abandonCommit C
      | some expected =>
        exact Keeps.bind (Keeps.of_call _) fun valid =>
          .ite (evidence_abandonCommit C) (evidence_prepareRecordedCommit C _ _)

theorem proven_onePassUpdate (hpreview : ∀ p layout H residual R, C.preview p layout H residual R =
      .ok (preview p layout H residual R))
    (hs : Agreeing C preview options prior t (evidenceOf s)) (hrows : 1 ≤ t.system.ctMeas)
    (hcompressed : 1 ≤ (measurementCompress C.arithmetic (t.system.trim C.arithmetic).1
      (t.system.trim C.arithmetic).2).1.rows) :
    Proven (onePassUpdate C options true
      (measurementCompress C.arithmetic (t.system.trim C.arithmetic).1
        (t.system.trim C.arithmetic).2).1
      (measurementCompress C.arithmetic (t.system.trim C.arithmetic).1
        (t.system.trim C.arithmetic).2).2) s := by
  unfold onePassUpdate
  refine Keeps.proven_bind (evidence_modifyEvent _) hs fun _ u hu _ => ?_
  obtain ⟨hc1, hc2, hc3, hlayout, -, hproposal⟩ := hu.same.compressed hrows
  obtain ⟨hproposal, havailable⟩ := hproposal hcompressed
  have hequal : u.baselineProvenanceEqual = true := hu.equal
  have hsystem : u.system = t.system := hu.system
  have hprior : u.priorSnapshot = prior := hu.prior_eq
  have hpayload : u.shadowProposalPayload.isSome = u.shadowResult.nullspace.proposalAvailable :=
    hu.available
  set live := measurementCompress C.arithmetic (t.system.trim C.arithmetic).1
    (t.system.trim C.arithmetic).2 with hlive
  -- what the shadow holds is what the live baseline has compressed
  change u.shadowResult.nullspace.compressedRows = _ at hc1
  change u.shadowResult.nullspace.H_compressed = _ at hc2
  change u.shadowResult.nullspace.residualCompressed = _ at hc3
  change _ = Except.ok u.shadowResult.nullspace.jacobianLayout at hlayout
  change u.shadowResult.nullspace.proposal = preview prior u.shadowResult.nullspace.jacobianLayout _ _ _
    at hproposal
  change u.shadowResult.nullspace.proposalAvailable = u.shadowResult.nullspace.proposal.accepted
    at havailable
  have hcompared : compressedBaselineEqual u.shadowResult.nullspace live.1 live.2
      u.shadowResult.nullspace.jacobianLayout = true := by
    simp [compressedBaselineEqual, hc1, hc2, hc3]
  rw [Proven, wp_bind, wp_get, hsystem]
  simp only [hlayout, hprior, hpreview, call, wp_bind, wp_pure]
  rw [← hproposal]
  have hdiagnostics : ∀ d : MSCKFUpdatePreviewDiagnostics, previewDiagnosticsEqual d d = true := by
    intro d
    simp [previewDiagnosticsEqual]
  -- the flag that the comparison leaves
  have hflag : (u.baselineProvenanceEqual &&
      compressedBaselineEqual u.shadowResult.nullspace live.1 live.2
        u.shadowResult.nullspace.jacobianLayout &&
      u.shadowResult.nullspace.proposalAvailable == u.shadowResult.nullspace.proposal.accepted &&
      u.shadowProposalPayload.isSome == u.shadowResult.nullspace.proposal.accepted &&
      previewDiagnosticsEqual u.shadowResult.nullspace.proposal.diagnostics
        u.shadowResult.nullspace.proposal.diagnostics) = true := by
    rw [hequal, hcompared, hdiagnostics, hpayload, havailable]
    simp
  simp only [onlyIf, if_true, comparePreview, wp_modify, hflag]
  set v : Call σ := { u with baselineProvenanceEqual := true } with hv
  have hagree : Agreeing C preview options prior t (evidenceOf v) := by
    have hsame : evidenceOf v = evidenceOf u := by
      rw [hv, evidenceOf, evidenceOf, hequal]
    rw [hsame]
    exact hu
  rw [wp_ite]
  refine ⟨fun _ => ?_, fun haccepted => ?_⟩
  · exact Keeps.proven_bind (evidence_notePreview _ _) hagree fun _ x hx _ =>
      Keeps.proven (evidence_finishRecordedNoncommit C _ _) hx.equal
  · have haccepted : v.shadowResult.nullspace.proposalAvailable = true := by
      rw [Bool.not_eq_true', Bool.not_eq_false] at haccepted
      exact havailable.trans haccepted
    refine Keeps.proven_bind (evidence_modifyEvent _) hagree fun _ x hx hxv => ?_
    refine Keeps.proven_bind (evidence_notePreview _ _) hx fun _ y hy hyx => ?_
    have hresult : y.shadowResult = u.shadowResult := hyx.trans hxv
    rw [← hresult]
    exact proven_recordedCommit hy (by rw [hresult]; exact haccepted)

theorem agreeing_rows (hs : Agreeing C preview options prior t (evidenceOf s)) :
    s.shadowResult.nullspace.precompressionRows.toInt = s.system.ctMeas := by
  have hsystem : s.system = t.system := hs.system
  rw [hsystem]
  exact hs.same.precompressionRows

theorem proven_leaveAllRejected (afterCleaning afterTriangulation : Bool)
    (hs : Agreeing C preview options prior t (evidenceOf s)) (hrows : t.system.ctMeas < 1) :
    Proven (leaveAllRejected C true afterCleaning afterTriangulation) s := by
  obtain ⟨hcompressed, hnone⟩ := hs.same.empty hrows
  have hexit : ∀ u : Call σ, u.baselineProvenanceEqual = true →
      Proven (if s.event.rawSystemCount = 0 then
          finishRecordedZeroRaw C .kAllRejected
            (allRejectedSubreason afterCleaning afterTriangulation s.event.rawSystemCount)
        else finishRecordedNoncommit C .kAllRejected
          (allRejectedSubreason afterCleaning afterTriangulation s.event.rawSystemCount)) u :=
    fun u hu => Keeps.proven
      (.ite (evidence_finishRecordedZeroRaw C _ _) (evidence_finishRecordedNoncommit C _ _)) hu
  unfold leaveAllRejected
  rw [Proven, wp_bind, wp_get]
  cases hcount : (true && s.event.rawSystemCount != 0) with
  | false => exact hexit s hs.equal
  | true => exact agreeing_requireEmptyShadow hs hcompressed hnone hexit

theorem proven_compressAndUpdate (hpreview : ∀ p layout H residual R,
      C.preview p layout H residual R = .ok (preview p layout H residual R))
    (hs : Agreeing C preview options prior t (evidenceOf s)) (hrows : 1 ≤ t.system.ctMeas) :
    Proven (compressAndUpdate C options true) s := by
  unfold compressAndUpdate
  refine Keeps.proven_bind (Keeps.of_call _) hs fun _ u hu _ => ?_
  have hsystem : u.system = t.system := hu.system
  rw [Proven, wp_bind, wp_get]
  simp only [hsystem]
  refine Keeps.proven_bind (evidence_modifyEvent _) hu fun _ v hv _ => ?_
  obtain ⟨hc1, -, -, -, hnone, -⟩ := hv.same.compressed hrows
  rw [Proven, wp_ite]
  refine ⟨fun hempty => ?_, fun hsome => ?_⟩
  · have hzero : v.shadowResult.nullspace.compressedRows = 0 := by
      have hrows : (measurementCompress C.arithmetic (t.system.trim C.arithmetic).1
        (t.system.trim C.arithmetic).2).1.rows = 0 := by omega
      exact hc1.trans (by rw [hrows]; rfl)
    exact agreeing_requireEmptyShadow hv hzero (hnone hempty) fun x hx =>
      Keeps.proven (evidence_finishRecordedNoncommit C _ _) hx
  · refine Keeps.proven_bind (evidence_modifyEvent _) hv fun _ x hx _ => ?_
    exact proven_onePassUpdate hpreview hx hrows (by omega)

theorem evidence_notePrecompressionRows
    (hs : Agreeing C preview options prior t (evidenceOf s)) {f : Unit → Update σ Unit}
    (hf : ∀ u, Agreeing C preview options prior t (evidenceOf u) → Proven (f ⟨⟩) u) :
    Proven (notePrecompressionRows true >>= f) s := by
  have hequal : s.baselineProvenanceEqual = true := hs.equal
  have hrows := agreeing_rows hs
  rw [Proven, notePrecompressionRows, wp_bind, wp_modify]
  refine hf _ ?_
  split
  · exact hs
  · have hsame : evidenceOf s = ⟨s.baselineProvenanceEqual &&
        (!true || s.shadowResult.nullspace.precompressionRows.toInt == s.system.ctMeas),
        s.shadowResult, s.shadowProposalPayload, s.system, s.priorSnapshot⟩ := by
      simp [evidenceOf, hequal, hrows]
    show Agreeing C preview options prior t ⟨_, _, _, _, _⟩
    rw [← hsame]
    exact hs

/-! ## The shadow -/

theorem wp_runShadow_agreeing {result : ShadowResult} (hshadow : C.shadow t.shadowInput = .ok result)
    (hsame : SameBaseline C.arithmetic preview options prior result t)
    (hraws : t.shadowInput.rawSystems ≠ []) (htraversal : result.traversalComplete = true)
    (hfeatures : result.features.length = t.shadowInput.rawSystems.length)
    (hpayloads : t.record.rawSystemPayloads.length = t.shadowInput.rawSystems.length)
    (hpayload : t.shadowProposalPayload = none) (hprior : t.priorSnapshot = prior) :
    wp (runShadow C true) (fun _ u => Agreeing C preview options prior t (evidenceOf u))
      (fun _ u => u.baselineProvenanceEqual = true) t := by
  obtain ⟨hlayouts, hduplicate, hassembly⟩ := hsame.valid hraws
  have htrace : (result.traversalComplete &&
      result.features.length == t.shadowInput.rawSystems.length &&
      t.record.rawSystemPayloads.length == t.shadowInput.rawSystems.length) = true := by
    simp [htraversal, hfeatures, hpayloads]
  have hequal : (result.rawLayoutsValid && !result.duplicateFeatureId && result.nullspaceAssemblyValid &&
      result.nullspace.acceptedIds == t.event.baselineAcceptedIds &&
      gammaEqual result.nullspace.gammaStatus result.nullspace.retainedGamma
        t.event.baselineGammaStatus t.event.baselineGamma) = true := by
    rw [hlayouts, hduplicate, hassembly, hsame.acceptedIds, gammaEqual, ← hsame.gammaStatus]
    cases hcase : result.nullspace.gammaStatus with
    | kAvailable => simp [hsame.gamma hcase]
    | kNotReached => simp
    | kNonfinite => simp
  have hagree : ∀ payload, payload = payloadOf C result.nullspace →
      payload.isSome = result.nullspace.proposalAvailable →
      Agreeing C preview options prior t ⟨true, result, payload, t.system, t.priorSnapshot⟩ :=
    fun payload hpayload havailable => ⟨rfl, hsame, hpayload, havailable, rfl, hprior⟩
  -- the candidate's proposal has no part in the comparison
  have hcandidate : ∀ u : Call σ, Agreeing C preview options prior t (evidenceOf u) →
      wp (onlyIf result.schur.proposalAvailable do
          let payload ← callOrLatch (C.encodeProposal (proposalPayload result.schur.proposal))
            .kRequiredEncoding "CP2 candidate proposal encoding failed"
          modifyRecord fun record => { record with
            candidateProposalPayload := payload, candidateProposalPayloadAvailable := true })
        (fun _ v => Agreeing C preview options prior t (evidenceOf v))
        (fun _ v => v.baselineProvenanceEqual = true) u := by
    intro u hu
    have hkeeps : Keeps evidenceOf (onlyIf result.schur.proposalAvailable do
          let payload ← callOrLatch (C.encodeProposal (proposalPayload result.schur.proposal))
            .kRequiredEncoding "CP2 candidate proposal encoding failed"
          modifyRecord fun record => { record with
            candidateProposalPayload := payload, candidateProposalPayloadAvailable := true } :
          Update σ Unit) :=
      .of_onlyIf (.bind (evidence_callOrLatch _ _ _) fun _ => evidence_modifyRecord _)
    exact hkeeps.wp (fun _ v hv => by rw [hv]; exact hu)
      (fun _ v hv => (congrArg Evidence.equal hv).trans hu.equal)
  unfold runShadow recordShadow
  simp only [wp_bind, wp_get, wp_modify, modifyEvent, hshadow, onlyIf, if_true, htrace, hequal,
    Bool.not_true, Bool.false_eq_true, if_false]
  cases hproposal : result.nullspace.proposalAvailable with
  | false =>
    simp only [Bool.false_eq_true, if_false, wp_pure]
    refine hcandidate _ (hagree _ ?_ ?_)
    · rw [payloadOf, hproposal]
      exact hpayload
    · rw [hproposal]
      exact congrArg Option.isSome hpayload
  | true =>
    simp only [if_true, wp_bind]
    cases hencode : C.encodeProposal (proposalPayload result.nullspace.proposal) with
    | error f =>
      simp only [callOrLatch, latchTraceFatal, modifyUpdater, wp_bind, wp_modify, wp_get, wp_throw]
    | ok payload =>
      simp only [callOrLatch, wp_pure, wp_modify]
      refine hcandidate _ (hagree _ ?_ ?_)
      · rw [payloadOf, hproposal, hencode]
        rfl
      · rw [hproposal]
        rfl

theorem proven_updateWithSystem {result : ShadowResult}
    (hpreview : ∀ p layout H residual R, C.preview p layout H residual R =
      .ok (preview p layout H residual R)) (hshadow : C.shadow t.shadowInput = .ok result)
    (hsame : SameBaseline C.arithmetic preview options prior result t)
    (hraws : t.shadowInput.rawSystems ≠ []) (htraversal : result.traversalComplete = true)
    (hfeatures : result.features.length = t.shadowInput.rawSystems.length)
    (hpayloads : t.record.rawSystemPayloads.length = t.shadowInput.rawSystems.length)
    (hpayload : t.shadowProposalPayload = none) (hprior : t.priorSnapshot = prior)
    (afterCleaning afterTriangulation : Bool) :
    Proven (updateWithSystem C options true afterCleaning afterTriangulation) t := by
  have hsome : (!t.shadowInput.rawSystems.isEmpty) = true := by simpa using hraws
  unfold updateWithSystem
  rw [Proven, wp_bind, wp_get, wp_bind, hsome]
  refine wp_mono (wp_runShadow_agreeing hshadow hsame hraws htraversal hfeatures hpayloads hpayload
    hprior) (fun _ u hu => ?_) (fun _ _ he => he)
  rw [wp_bind, wp_get]
  refine Keeps.proven_bind (evidence_markRemaining _) hu fun _ v hv _ => ?_
  refine evidence_notePrecompressionRows hv fun x hx => ?_
  have hsystem : x.system = t.system := hx.system
  rw [Proven, wp_bind, wp_get, hsystem, wp_ite]
  exact ⟨fun hrows => proven_leaveAllRejected _ _ hx hrows, fun hrows =>
    proven_compressAndUpdate hpreview hx (by omega)⟩

end Comparisons

/-! ## Both sides of a call -/

theorem process_features (A : Arithmetic) (preview : Preview)
    (schurReduce : MatrixXd → MatrixXd → VectorXd → Binary64 → SchurReduction)
    (input : CP2ShadowMathInput) (hstartup : startupInputIsValid A input = true) :
    (process A preview schurReduce input).traversalComplete = true ∧
      (process A preview schurReduce input).features.length = input.rawSystems.length := by
  have hbuilt : ∀ result : ShadowResult,
      (buildGlobalModes A preview input result).2.traversalComplete = result.traversalComplete ∧
        (buildGlobalModes A preview input result).2.features = result.features := by
    intro result
    unfold buildGlobalModes
    split <;> exact ⟨rfl, rfl⟩
  rw [process, processWith, hstartup]
  simp only [Bool.not_true, Bool.false_eq_true, if_false]
  obtain ⟨htraversal, hfeatures⟩ := hbuilt {
    traversalComplete := (input.rawSystems.map
      (Shadow.processFeature A (shadowPaths A schurReduce) input)).length == input.rawSystems.length
    rawLayoutsValid := (input.rawSystems.map
      (Shadow.processFeature A (shadowPaths A schurReduce) input)).all FeaturePair.rawLayoutValid
    duplicateFeatureId := !decide (input.rawSystems.map CP2RawFeatureSystem.featureId).Nodup
    features := input.rawSystems.map (Shadow.processFeature A (shadowPaths A schurReduce) input) }
  refine ⟨htraversal.trans ?_, ?_⟩
  · rw [length_map]
    exact beq_self_eq_true _
  · rw [hfeatures, length_map]

section Baseline

variable {C : Callees σ} {options : UpdaterOptions} {table : ChiSquaredTable}
variable {prior : MSCKFUpdatePreviewSnapshot} {vars landmarks : List Variable}
variable {snapshot : CP2CompositeStateSnapshot} {recorded : Bool} {capacity : Capacity}

/-- What the two sides of a call come to behind the loop. -/
structure BaselineEqual (C : Callees σ) (preview : Preview)
    (schurReduce : MatrixXd → MatrixXd → VectorXd → Binary64 → SchurReduction)
    (options : UpdaterOptions) (table : ChiSquaredTable) (prior : MSCKFUpdatePreviewSnapshot)
    (recorded : Bool) (ids : List UInt64) (t : Call σ) : Prop where
  rawIds : t.shadowInput.rawSystems.map CP2RawFeatureSystem.featureId = ids
  input : t.shadowInput.rawSystems ≠ [] →
    t.shadowInput = shadowInputOf options table prior t.shadowInput.rawSystems
  same : SameBaseline C.arithmetic preview options prior (process C.arithmetic preview schurReduce
    (shadowInputOf options table prior t.shadowInput.rawSystems)) t
  /-- In recorded mode the comparison of both stays true to the end of the call. -/
  provenance : recorded = true → t.shadowInput.rawSystems ≠ [] →
    ∀ afterCleaning afterTriangulation,
      Proven (updateWithSystem C options true afterCleaning afterTriangulation) t

/-- **The live baseline is the shadow's baseline.** The loop of a nullspace call runs to its end, and
what it leaves is what the nullspace half of `Process` computes from the raw systems it has seen. -/
theorem live_baseline_eq_shadow (preview : Preview)
    (schurReduce : MatrixXd → MatrixXd → VectorXd → Binary64 → SchurReduction) {s : Call σ}
    (hcall : NullspaceCall C options table prior vars landmarks (s.proposalVec.map s.heap))
    (hrecorded : recorded = true → RecordedPrior C prior snapshot)
    (hshadow : ∀ input, C.shadow input = .ok (process C.arithmetic preview schurReduce input))
    (hpreview : ∀ p layout H residual R, C.preview p layout H residual R =
      .ok (preview p layout H residual R))
    (hstartup : startupInputIsValid C.arithmetic (shadowInputOf options table prior []) = true)
    (hentry : LoopEntry C prior landmarks recorded capacity s) :
    wp (do
        prepareShadow C options table recorded true
        processFeatures C options recorded true capacity)
      (fun complete t => complete = true ∧ BaselineEqual C preview schurReduce options table prior
        recorded (s.proposalVec.map fun p => (s.heap p).featid) t)
      (fun _ _ => False) s := by
  refine wp_mono (wp_processFeatures_loop schurReduce hcall hrecorded hentry)
    (fun complete t ht => ?_) (fun _ _ he => he)
  obtain ⟨hcomplete, u, rfl, hu⟩ := ht
  obtain ⟨hsystem, hinput, -⟩ := gammaNoted_frame u
  obtain ⟨hroom, -⟩ := hentry.room hcall.stateVariables
  have hsame := hu.sameBaseline preview hcall hroom hstartup hentry.distinct
  have hnonempty : u.shadowInput.rawSystems ≠ [] → s.proposalVec ≠ [] := by
    intro hraws hdone
    have hids := hu.ids
    rw [hdone] at hids
    exact hraws (map_eq_nil_iff.mp hids)
  have hpromoted : u.shadowInput.rawSystems ≠ [] →
      u.priorSnapshot = prior ∧ u.shadowInput.prior = prior :=
    fun hraws => hu.priorAt.promoted (hu.ready (hnonempty hraws))
  have hshadowInput : u.shadowInput.rawSystems ≠ [] →
      u.shadowInput = shadowInputOf options table prior u.shadowInput.rawSystems := by
    intro hraws
    calc u.shadowInput = shadowInputOf options table u.shadowInput.prior u.shadowInput.rawSystems :=
          hu.priorAt.input
      _ = shadowInputOf options table prior u.shadowInput.rawSystems := by rw [(hpromoted hraws).2]
  have hframe : (gammaNoted u).record = u.record ∧
      (gammaNoted u).shadowProposalPayload = u.shadowProposalPayload ∧
      (gammaNoted u).priorSnapshot = u.priorSnapshot := by
    unfold gammaNoted
    split <;> exact ⟨rfl, rfl, rfl⟩
  obtain ⟨hrecord, hpayload, hprior⟩ := hframe
  refine ⟨hcomplete, ⟨?_, ?_, ?_, fun htrue hraws afterCleaning afterTriangulation => ?_⟩⟩
  · rw [hinput]
    exact hu.ids
  · rw [hinput]
    exact hshadowInput
  · rw [hinput]
    exact hsame
  · rw [hinput] at hraws
    obtain ⟨htraversal, hfeatures⟩ := process_features C.arithmetic preview schurReduce
      (shadowInputOf options table prior u.shadowInput.rawSystems) hstartup
    refine proven_updateWithSystem hpreview ?_ hsame (by rw [hinput]; exact hraws) htraversal
      (by rw [hinput]; exact hfeatures) ?_ (hpayload.trans hu.proposal)
      (hprior.trans (hpromoted hraws).1) afterCleaning afterTriangulation
    · rw [hshadow, hinput, hshadowInput hraws]
      rfl
    · rw [hrecord, hinput]
      exact hu.payloads htrue

end Baseline

/-! ## A small call -/

def zeroArithmetic : Arithmetic :=
  { unitArithmetic with
    squaredNorm := fun v => if v.allFinite then ⟨0⟩ else quietNaN
    innovation := fun _ _ _ => unitMatrix }

def smallTable : ChiSquaredTable :=
  (List.range 499).map fun k => (((k + 1 : Nat) : Int), ⟨0x400ebb8bf0e8f7ae⟩)

theorem lookup_smallTable {k : Nat} (hk : k < 499) :
    smallTable.lookup ((k + 1 : Nat) : Int) = some ⟨0x400ebb8bf0e8f7ae⟩ := by
  have hlookup : ∀ ks : List Nat, k ∈ ks →
      (ks.map fun k => (((k + 1 : Nat) : Int), (⟨0x400ebb8bf0e8f7ae⟩ : Binary64))).lookup
        ((k + 1 : Nat) : Int) = some ⟨0x400ebb8bf0e8f7ae⟩ := by
    intro ks
    induction ks with
    | nil =>
      intro hk
      cases hk
    | cons a ks ih =>
      intro hk
      rw [map_cons, lookup_cons]
      split
      · rfl
      · rename_i hne
        rcases mem_cons.mp hk with rfl | hk
        · simp at hne
        · exact ih hk
  exact hlookup _ (mem_range.mpr hk)

def smallPrior : MSCKFUpdatePreviewSnapshot := ⟨unitMatrix, [⟨0, 1, 0⟩]⟩

def smallVariable : Variable := ⟨1, 0, 1⟩

def smallFeature (featid : UInt64) : Feature where
  featid := featid
  observations := [(0, [⟨⟨0⟩, [1, 2], [3, 4]⟩, ⟨one, [5, 6], [7, 8]⟩])]

def smallLinearization (f : Feature) : Linearization where
  H_f := .ofFn 4 3 fun i j => if i = j then one else ⟨0⟩
  H_x := .ofFn 4 1 fun i _ => if i = 3 then one else ⟨0⟩
  res := .ofFn 4 fun _ => if f.featid = 5 then one else ⟨0x4000000000000000⟩
  Hx_order := [some smallVariable]

def zeroPreview : Preview := fun prior _ _ residual _ => {
  dx := .ofFn prior.covariance.rows fun _ => ⟨0⟩
  P_plus := prior.covariance
  diagnostics := { measurementDimension := Int64.ofNat residual.rows } }

def smallCallees : Callees Unit :=
  { unitCallees with
    arithmetic := zeroArithmetic
    jacobian := fun _ f => .ok (smallLinearization f)
    nullspace := fun _ H_f H_x res => .ok (nullspaceProject zeroArithmetic H_f H_x res)
    gate := fun _ input => .ok (evaluate zeroArithmetic input smallTable)
    preview := fun prior layout H residual R => .ok (zeroPreview prior layout H residual R)
    shadow := fun input => .ok (process zeroArithmetic zeroPreview (fun _ _ _ _ => {}) input)
    projectPreview := fun _ => .ok (some smallPrior) }

def smallCall : Call Unit where
  toWorld := { unitWorld with
    heap := fun p => smallFeature (if p = .live 0 then 5 else 6)
    featureVec := [.live 0, .live 1] }
  system := .allocate ⟨8, 1⟩

theorem linearizes_small (featid : UInt64) : Linearizes [smallVariable] (smallFeature featid)
    (smallLinearization (smallFeature featid)) [smallVariable] where
  H_f_rows := rfl
  enough := show 4 ≤ 4 from le_rfl
  H_f_cols := rfl
  H_x_rows := rfl
  res_rows := rfl
  order := rfl
  nodup := by decide
  subset := List.Subset.refl _
  H_x_cols := rfl

theorem stateVariables_small : StateVariables smallPrior [smallVariable] [] where
  addresses := by decide
  ids := by decide
  blocks := by
    intro v hv
    rw [append_nil, mem_singleton] at hv
    subst hv
    exact ⟨⟨0, 1, 0⟩, mem_singleton.mpr rfl, by decide, by decide⟩
  tiled := by decide

set_option maxRecDepth 4000 in
/-- Two features with one row each, in recorded mode. -/
theorem live_baseline_eq_shadow_small :
    wp (do
        prepareShadow smallCallees unitWorld.updater.options smallTable true true
        processFeatures smallCallees unitWorld.updater.options true true ⟨8, 1⟩)
      (fun complete t => complete = true ∧ BaselineEqual smallCallees zeroPreview (fun _ _ _ _ => {})
        unitWorld.updater.options smallTable smallPrior true [5, 6] t)
      (fun _ _ => False) smallCall := by
  have hcall : NullspaceCall smallCallees unitWorld.updater.options smallTable smallPrior
      [smallVariable] [] (smallCall.proposalVec.map smallCall.heap) := {
    mode := rfl
    norm := by
      intro v hv
      show (if v.allFinite then (⟨0⟩ : Binary64) else quietNaN).isFinite = false
      rw [hv]
      decide
    stateVariables := stateVariables_small
    jacobian := fun _ f hf => by
      obtain ⟨p, -, rfl⟩ := mem_map.mp hf
      exact ⟨_, [smallVariable], rfl, linearizes_small _⟩
    nullspace := fun _ _ _ _ => rfl
    gate := fun _ _ => rfl }
  have hprior : RecordedPrior smallCallees smallPrior (sampleSnapshot .kPhase0Prior) :=
    ⟨rfl, ⟨_, rfl⟩, rfl, rfl, fun _ => ⟨_, rfl⟩⟩
  have hentry : LoopEntry smallCallees smallPrior [] true ⟨8, 1⟩ smallCall := {
    distinct := by decide
    fits := rfl
    covariance := by decide
    landmarkSizes := rfl
    system := rfl
    count := rfl
    acceptedIds := rfl
    gammaStatus := rfl
    payloads := rfl
    proposal := rfl
    promoted := rfl
    priorSnapshot := fun h => by cases h }
  have htable : ((List.range 499).all fun k =>
      ((shadowInputOf unitWorld.updater.options smallTable smallPrior []).chiSquaredTable.lookup
        ((k + 1 : Nat) : Int)).any Binary64.isFinite) = true := by
    rw [all_eq_true]
    intro k hk
    show (smallTable.lookup ((k + 1 : Nat) : Int)).any Binary64.isFinite = true
    rw [lookup_smallTable (mem_range.mp hk)]
    decide
  have hstartup : startupInputIsValid smallCallees.arithmetic
      (shadowInputOf unitWorld.updater.options smallTable smallPrior []) = true := by
    rw [startupInputIsValid, htable]
    decide
  have hids : smallCall.proposalVec.map (fun p => (smallCall.heap p).featid) = [5, 6] := rfl
  have hshadow : ∀ input, smallCallees.shadow input =
      .ok (process smallCallees.arithmetic zeroPreview (fun _ _ _ _ => {}) input) := fun _ => rfl
  have hpreview : ∀ p layout H residual R, smallCallees.preview p layout H residual R =
      .ok (zeroPreview p layout H residual R) := fun _ _ _ _ _ => rfl
  rw [← hids]
  -- the call is a variable from here on: the program is not run
  generalize smallCall = s at hcall hentry ⊢
  exact live_baseline_eq_shadow zeroPreview (fun _ _ _ _ => {}) hcall (fun _ => hprior) hshadow hpreview hstartup
    hentry

end Bravo.Updater
