import Bravo.Serial.RuntimeTrace
import Bravo.Updater.Update

/-! # The events of ordinary calls pass the lifecycle check

The fields of an event that `timing_lifecycle_valid` looks at are set at different places of the
call. `Stage` collects them; every piece of the call either leaves the stage alone or takes it one
step further, and each exit reports a stage that fits its status.
-/

namespace Bravo.Updater

open Bravo.Trace Bravo.Journal Bravo.Shadow Bravo.Serial List

variable {σ α β : Type}

/-! ## Stages -/

structure Stage where
  inputFeatureCount : UInt64 := 0
  rawSystemCount : UInt64 := 0
  precompressionNonempty : Bool := false
  precompressionAvailable : Bool := false
  precompressionRows : UInt64 := 0
  compressedNonempty : Bool := false
  compressedAvailable : Bool := false
  compressedRows : UInt64 := 0
  preflightAttempted : Bool := false
  preflightAccepted : Bool := false
  commitOccurred : Bool := false

def stageOf (event : CP2LiveUpdateEvent) : Stage where
  inputFeatureCount := event.inputFeatureCount
  rawSystemCount := event.rawSystemCount
  precompressionNonempty := event.baselinePrecompressionSystemNonempty
  precompressionAvailable := event.baselinePrecompressionRowsAvailable
  precompressionRows := event.baselinePrecompressionRows
  compressedNonempty := event.baselineCompressedSystemNonempty
  compressedAvailable := event.baselineCompressedRowsAvailable
  compressedRows := event.baselineCompressedRows
  preflightAttempted := event.baselinePreflightAttempted
  preflightAccepted := event.baselinePreflightAccepted
  commitOccurred := event.baselineCommitOccurred

def progress (s : Call σ) : Stage × Int × List CP2LiveUpdateEvent :=
  (stageOf s.event, s.system.ctMeas, s.terminal)

theorem stageOf_of_progress {s t : Call σ} (h : progress t = progress s) :
    stageOf t.event = stageOf s.event := congrArg (fun view => view.1) h

theorem terminal_of_progress {s t : Call σ} (h : progress t = progress s) :
    t.terminal = s.terminal := congrArg (fun view => view.2.2) h

def Reported (w : World σ) (s : Call σ) : Prop :=
  ∃ events, s.terminal = w.terminal ++ events ∧ ∀ event ∈ events,
    event.terminalStatus ≠ .kInternalFailure → timingLifecycleValid event = true

def Unreported (w : World σ) (s : Call σ) : Prop := s.terminal = w.terminal

theorem Unreported.reported {w : World σ} {s : Call σ} (h : Unreported w s) : Reported w s :=
  ⟨[], by rw [append_nil]; exact h, fun _ he => absurd he not_mem_nil⟩

theorem Unreported.of_progress {w : World σ} {s t : Call σ} (h : Unreported w s)
    (ht : progress t = progress s) : Unreported w t :=
  (terminal_of_progress ht).trans h

/-! ## Exits -/

def Stage.event (stage : Stage) (status : CP2UpdateTerminalStatus)
    (subreason : CP2UpdateTerminalSubreason) : CP2LiveUpdateEvent where
  timingEndpointValid := true
  terminalStatus := status
  terminalSubreason := subreason
  inputFeatureCount := stage.inputFeatureCount
  rawSystemCount := stage.rawSystemCount
  baselinePrecompressionSystemNonempty := stage.precompressionNonempty
  baselinePrecompressionRowsAvailable := stage.precompressionAvailable
  baselinePrecompressionRows := stage.precompressionRows
  baselineCompressedSystemNonempty := stage.compressedNonempty
  baselineCompressedRowsAvailable := stage.compressedAvailable
  baselineCompressedRows := stage.compressedRows
  baselinePreflightAttempted := stage.preflightAttempted
  baselinePreflightAccepted := stage.preflightAccepted
  baselineCommitOccurred := stage.commitOccurred

def Stage.Fits (stage : Stage) (status : CP2UpdateTerminalStatus)
    (subreason : CP2UpdateTerminalSubreason) : Prop :=
  timingLifecycleValid (stage.event status subreason) = true

variable {event : CP2LiveUpdateEvent}

theorem timingLifecycleValid_of_fits
    (hvalid : event.timingEndpointValid = true) (hle : event.timingStartNs ≤ event.timingEndNs)
    (hduration : event.durationNs = event.timingEndNs - event.timingStartNs)
    (h : (stageOf event).Fits event.terminalStatus event.terminalSubreason) :
    timingLifecycleValid event = true := by
  unfold Stage.Fits at h
  rw [← h]
  -- the clocks of the bare event work
  have hclock : ((0 : UInt64) == 0 - 0) = true := by decide
  simp only [timingLifecycleValid, terminalPairValid, reconstructedStatus, Stage.event, stageOf,
    hvalid, hle, hduration, hclock, decide_true, beq_self_eq_true]
  rfl

theorem steadyClockDuration_eq {C : Callees σ} {d : UInt64}
    (h : steadyClockDuration C.start C.finish = some d) :
    C.start.nanoseconds ≤ C.finish.nanoseconds ∧ d = C.finish.nanoseconds - C.start.nanoseconds := by
  unfold steadyClockDuration at h
  split at h
  · cases h
  · rename_i hvalid
    cases h
    simp only [Bool.or_eq_true, decide_eq_true_eq, not_or] at hvalid
    exact ⟨UInt64.not_lt.mp hvalid.2, rfl⟩

theorem timingLifecycleValid_captured (C : Callees σ)
    (hstart : event.timingStartNs = C.start.nanoseconds)
    (hend : event.timingEndNs = C.finish.nanoseconds)
    (hvalid : event.timingEndpointValid = (steadyClockDuration C.start C.finish).isSome)
    (hduration : event.durationNs = (steadyClockDuration C.start C.finish).getD 0)
    (hclocks : (steadyClockDuration C.start C.finish).isSome = true)
    (h : (stageOf event).Fits event.terminalStatus event.terminalSubreason) :
    timingLifecycleValid event = true := by
  obtain ⟨d, hd⟩ := Option.isSome_iff_exists.mp hclocks
  obtain ⟨hle, heq⟩ := steadyClockDuration_eq hd
  refine timingLifecycleValid_of_fits (hvalid.trans hclocks) ?_ ?_ h
  · rw [hstart, hend]
    exact hle
  · rw [hduration, hd, hstart, hend]
    exact heq

section Exits

variable {w : World σ}

theorem reported_append {s t : Call σ} {event : CP2LiveUpdateEvent} (hs : Unreported w s)
    (ht : t.terminal = s.terminal ++ [event])
    (h : event.terminalStatus ≠ .kInternalFailure → timingLifecycleValid event = true) :
    Reported w t := by
  refine ⟨[event], by rw [ht, hs], fun e he => ?_⟩
  rw [mem_singleton] at he
  subst he
  exact h

theorem wp_finishUpdate_reported (C : Callees σ) {status : CP2UpdateTerminalStatus}
    {subreason : CP2UpdateTerminalSubreason} {s : Call σ} (hs : Unreported w s)
    (hfits : status ≠ .kInternalFailure → (stageOf s.event).Fits status subreason)
    {E : Exn → Call σ → Prop} :
    wp (finishUpdate C status subreason) (fun _ t => Reported w t) E s := by
  simp only [finishUpdate, modifyEvent, wp_bind, wp_modify, wp_get, notifyObserver]
  refine reported_append hs rfl fun hstatus => ?_
  cases hclocks : (steadyClockDuration C.start C.finish).isSome with
  | false => simp [captureDuration, hclocks] at hstatus
  | true =>
    refine timingLifecycleValid_captured C rfl rfl rfl rfl hclocks ?_
    simp only [captureDuration, hclocks, if_true] at hstatus ⊢
    exact hfits hstatus

theorem wp_failOrdinary_reported (C : Callees σ) (subreason : CP2UpdateTerminalSubreason)
    {s : Call σ} (hs : Unreported w s) {E : Exn → Call σ → Prop} :
    wp (failOrdinary C subreason) (fun _ t => Reported w t) E s := by
  simp only [failOrdinary, clearFeatureVec, wp_bind, wp_modify]
  refine wp_finishUpdate_reported C ?_ fun h => absurd rfl h
  exact hs

end Exits

/-! ### The stages of the exits -/

section Stages

variable {n raw rows compressed : UInt64}

def countedStage (n raw rows : UInt64) : Stage where
  inputFeatureCount := n
  rawSystemCount := raw
  precompressionNonempty := rows != 0
  precompressionAvailable := true
  precompressionRows := rows

def compressedStage (n raw rows compressed : UInt64) : Stage :=
  { countedStage n raw rows with
    compressedNonempty := compressed != 0
    compressedAvailable := true
    compressedRows := compressed
    preflightAttempted := compressed != 0 }

theorem fits_emptyInput : ({} : Stage).Fits .kEmptyInput .kInputEmpty := by
  unfold Stage.Fits
  decide

theorem fits_noRawSystems (hn : n ≠ 0) {subreason : CP2UpdateTerminalSubreason}
    (hsubreason : subreason = .kNoFeaturesAfterCleaning ∨
      subreason = .kNoFeaturesAfterTriangulation ∨ subreason = .kNoRawSystems) :
    ({ inputFeatureCount := n } : Stage).Fits .kAllRejected subreason := by
  unfold Stage.Fits
  have hle : (0 : UInt64) ≤ n := UInt64.zero_le
  rcases hsubreason with rfl | rfl | rfl <;>
    simp [timingLifecycleValid, terminalPairValid, reconstructedStatus, Stage.event, hn, hle]

theorem fits_allRejected (hn : n ≠ 0) (hraw : raw ≠ 0) (hle : raw ≤ n) :
    (countedStage n raw 0).Fits .kAllRejected .kAllBaselineFeaturesRejected := by
  unfold Stage.Fits
  simp [timingLifecycleValid, terminalPairValid, reconstructedStatus, Stage.event, countedStage, hn,
    hraw, hle]

theorem fits_emptyAfterCompression (hn : n ≠ 0) (hraw : raw ≠ 0) (hle : raw ≤ n)
    (hrows : rows ≠ 0) :
    (compressedStage n raw rows 0).Fits .kEmptyAfterCompression .kMeasurementCompressionEmpty := by
  unfold Stage.Fits
  simp [timingLifecycleValid, terminalPairValid, reconstructedStatus, Stage.event, compressedStage,
    countedStage, hn, hraw, hle, hrows]

theorem fits_preflightRejected (hn : n ≠ 0) (hraw : raw ≠ 0) (hle : raw ≤ n) (hrows : rows ≠ 0)
    (hcompressed : compressed ≠ 0) (hcompressed_le : compressed ≤ rows) :
    (compressedStage n raw rows compressed).Fits .kPreflightRejected
      .kBaselinePreflightRejected := by
  unfold Stage.Fits
  simp [timingLifecycleValid, terminalPairValid, reconstructedStatus, Stage.event, compressedStage,
    countedStage, hn, hraw, hle, hrows, hcompressed, hcompressed_le]

theorem fits_committed (hn : n ≠ 0) (hraw : raw ≠ 0) (hle : raw ≤ n) (hrows : rows ≠ 0)
    (hcompressed : compressed ≠ 0) (hcompressed_le : compressed ≤ rows) :
    { compressedStage n raw rows compressed with
      preflightAccepted := true, commitOccurred := true }.Fits .kCommittedCounted .kNone := by
  unfold Stage.Fits
  simp [timingLifecycleValid, terminalPairValid, reconstructedStatus, Stage.event, compressedStage,
    countedStage, hn, hraw, hle, hrows, hcompressed, hcompressed_le]

end Stages

/-! ## Frames -/

theorem Keeps.of_call {τ : Type} {f : Call σ → τ} (x : Except Fault α) :
    Keeps f (call x : Update σ α) := by
  cases x with
  | ok a => exact .of_pure a
  | error f => exact .of_throw _

theorem keeps_checked (x : Except String α) : Keeps progress (checked x : Update σ α) := by
  cases x with
  | ok a => exact .of_pure a
  | error _ => exact .of_throw _

def progressVec (s : Call σ) : (Stage × Int × List CP2LiveUpdateEvent) × List FeaturePtr :=
  (progress s, s.proposalVec)

theorem keepsVec_initializeFeature (x : Nat → Feature → Feature × Except Fault Bool)
    (p : FeaturePtr) : Keeps progressVec (initializeFeature x p : Update σ Bool) := by
  refine .bind (.of_get fun s => .bind (.of_modify fun _ => rfl) fun _ =>
    .of_pure _) fun n => .of_get fun s => ?_
  exact Keeps.bind (Keeps.of_modify fun _ => rfl) fun _ => Keeps.of_call _

theorem keepsVec_markDeleted (p : FeaturePtr) : Keeps progressVec (markDeleted p : Update σ Unit) :=
  .of_modify fun _ => rfl

theorem keepsVec_cleanFeature (C : Callees σ) (p : FeaturePtr) :
    Keeps progressVec (cleanFeature C false p) := by
  refine .of_get fun s => .bind (.of_modify fun _ => rfl) fun _ => ?_
  refine .ite (.bind (.of_throw _) fun _ => .of_pure _) ?_
  refine .ite ?_ (.of_pure _)
  exact .bind (keepsVec_markDeleted p) fun _ => .of_pure _

theorem keepsVec_triangulateFeature (C : Callees σ) (refineFeatures : Bool) (p : FeaturePtr) :
    Keeps progressVec (triangulateFeature C refineFeatures p) := by
  refine .bind (keepsVec_initializeFeature _ p) fun triangulated => .bind ?_ fun _ => ?_
  · exact .ite (keepsVec_initializeFeature _ p) (.of_pure _)
  · refine .ite ?_ (.of_pure _)
    exact .bind (keepsVec_markDeleted p) fun _ => .of_pure _

theorem progress_setProposalVec (s : Call σ) (features : List FeaturePtr) :
    progress (s.setProposalVec features) = progress s := by
  unfold Call.setProposalVec
  cases s.batch <;> rfl

theorem proposalVec_setProposalVec (s : Call σ) (features : List FeaturePtr) :
    (s.setProposalVec features).proposalVec = features := by
  unfold Call.setProposalVec Call.proposalVec
  cases s.batch <;> rfl

theorem wp_sweep_le {body : FeaturePtr → Update σ Verdict}
    (hbody : ∀ p, Keeps progressVec (body p)) {m : Nat} (rest : List FeaturePtr) :
    ∀ (kept : List FeaturePtr) {s : Call σ}, (kept ++ rest).length ≤ m → s.proposalVec.length ≤ m →
      wp (sweep body kept rest)
        (fun _ t => progress t = progress s ∧ t.proposalVec.length ≤ m)
        (fun _ t => progress t = progress s) s := by
  induction rest with
  | nil => exact fun kept s _ hs => ⟨rfl, hs⟩
  | cons p rest ih =>
    intro kept s hlength hs
    rw [sweep, wp_bind]
    refine wp_mono (hbody p s) (fun v t ht => ?_) (fun _ t ht => congrArg Prod.fst ht)
    have hprogress : progress t = progress s := congrArg Prod.fst ht
    have hvec : t.proposalVec = s.proposalVec := congrArg Prod.snd ht
    cases v with
    | keep =>
      have h := ih (kept ++ [p]) (s := t) (by simpa using hlength) (by rw [hvec]; exact hs)
      rw [hprogress] at h
      exact h
    | drop =>
      have hdrop : (kept ++ rest).length ≤ m := by
        rw [length_append, length_cons] at hlength
        rw [length_append]
        omega
      rw [wp_bind, wp_modify]
      have h := ih kept (s := t.setProposalVec (kept ++ rest)) hdrop
        (by rw [proposalVec_setProposalVec]; exact hdrop)
      rw [progress_setProposalVec, hprogress] at h
      exact h
    | leave => exact ⟨hprogress, by rw [hvec]; exact hs⟩

/-! ## The feature loop -/

theorem addEigenIndex_ok {left right sum : Int} {message : String}
    (h : addEigenIndex left right message = .ok sum) : sum = left + right := by
  unfold addEigenIndex at h
  cases hadd : addIndex left right with
  | none => simp [hadd] at h
  | some value =>
    rw [hadd] at h
    cases h
    unfold addIndex at hadd
    split at hadd
    · cases hadd
    · exact (Option.some.inj hadd).symm

theorem ctMeas_appendFeature {capacity : Capacity} {system system' : LiveSystem} {H : MatrixXd}
    {res : VectorXd} {order : Order} (h : system.appendFeature capacity H res order = .ok system')
    (hpos : 0 ≤ system.ctMeas) : 0 ≤ system'.ctMeas ∧ system'.ctMeas ≤ capacity.maxMeasSize := by
  unfold LiveSystem.appendFeature at h
  split at h
  · cases h
  obtain ⟨rows, hrows, h⟩ := bind_eq_ok.mp h
  have hsum := addEigenIndex_ok hrows
  split at h
  · cases h
  rename_i hle
  obtain ⟨⟨appended, ctHx⟩, _, h⟩ := bind_eq_ok.mp h
  simp only at h
  by_cases hcomplete : ctHx ≠ H.cols
  · rw [if_pos hcomplete] at h
    cases h
  · rw [if_neg hcomplete] at h
    cases h
    exact ⟨by simp only; omega, by simp only; omega⟩

/-- A call in front of the end of its feature loop: `k` features have been processed, and the system
may hold up to `limit` rows. -/
structure Early (w : World σ) (n : UInt64) (k limit : Nat) (s : Call σ) : Prop where
  unreported : Unreported w s
  stage : stageOf s.event = { inputFeatureCount := n, rawSystemCount := s.event.rawSystemCount }
  raw : s.event.rawSystemCount.toNat ≤ k
  empty : s.event.rawSystemCount = 0 → s.system.ctMeas = 0
  nonneg : 0 ≤ s.system.ctMeas
  le_limit : s.system.ctMeas ≤ limit

section Loop

variable {w : World σ} {n : UInt64} {k limit : Nat}

theorem Early.of_progress {s t : Call σ} (h : Early w n k limit s)
    (ht : progress t = progress s) : Early w n k limit t := by
  have hstage := stageOf_of_progress ht
  have hraw : t.event.rawSystemCount = s.event.rawSystemCount :=
    congrArg Stage.rawSystemCount hstage
  have hrows : t.system.ctMeas = s.system.ctMeas := congrArg (fun view => view.2.1) ht
  refine ⟨h.unreported.of_progress ht, ?_, ?_, ?_, ?_, ?_⟩
  · rw [hstage, h.stage, hraw]
  · rw [hraw]
    exact h.raw
  · rw [hraw, hrows]
    exact h.empty
  · rw [hrows]
    exact h.nonneg
  · rw [hrows]
    exact h.le_limit

/-- One more raw system, which the feature may enter the large system with. -/
structure Counted (w : World σ) (n : UInt64) (k limit : Nat) (s : Call σ) : Prop
    extends Early w n (k + 1) limit s where
  counted : s.event.rawSystemCount ≠ 0

theorem Counted.of_progress {s t : Call σ} (h : Counted w n k limit s)
    (ht : progress t = progress s) : Counted w n k limit t := by
  have hraw : t.event.rawSystemCount = s.event.rawSystemCount :=
    congrArg (fun view => Stage.rawSystemCount view.1) ht
  exact ⟨h.toEarly.of_progress ht, by rw [hraw]; exact h.counted⟩

theorem Keeps.wp_early {x : Update σ α} (hx : Keeps progress x) {s : Call σ}
    {Q : α → Call σ → Prop} (hQ : ∀ a t, progress t = progress s → Q a t)
    (hs : Unreported w s) : wp x Q (fun _ t => Unreported w t) s :=
  hx.wp hQ (fun _ _ ht => hs.of_progress ht)

theorem wp_linearizeFeature (C : Callees σ) (shadowEnabled : Bool) (f : Feature) {s : Call σ}
    (h : Early w n k limit s) :
    wp (linearizeFeature C false shadowEnabled f) (fun _ t => Counted w n k limit t)
      (fun _ t => Unreported w t) s := by
  unfold linearizeFeature
  rw [wp_bind, wp_get, Bool.false_and, onlyIf, if_neg (by simp), wp_bind, wp_pure]
  simp only [nextTick, wp_bind, wp_get, wp_modify, wp_pure]
  refine Keeps.wp_early (Keeps.of_call _) (fun l t ht => ?_) h.unreported
  have ht' : Early w n k limit t := h.of_progress ht
  split
  · exact ht'.unreported
  rename_i hrange
  simp only [modifyEvent, wp_bind, wp_modify]
  have hlt := t.event.rawSystemCount.toNat_lt
  have hsucc : (t.event.rawSystemCount + 1).toNat = t.event.rawSystemCount.toNat + 1 := by
    rw [UInt64.toNat_add]
    exact Nat.mod_eq_of_lt (by simpa using by omega)
  have hne : t.event.rawSystemCount + 1 ≠ 0 := by
    intro hzero
    rw [hzero] at hsucc
    simp at hsucc
  have hcounted : Counted w n k limit { t with
      event := { t.event with rawSystemCount := t.event.rawSystemCount + 1 } } := by
    refine ⟨⟨ht'.unreported, ?_, ?_, fun hzero => absurd hzero hne, ht'.nonneg, ht'.le_limit⟩, hne⟩
    · have hstage := ht'.stage
      simp only [stageOf, Stage.mk.injEq] at hstage ⊢
      tauto
    · simp only [hsucc]
      exact Nat.succ_le_succ ht'.raw
  refine Keeps.wp_early (keeps_checked _) (fun layout u hu => ?_) hcounted.unreported
  have hu' := hcounted.of_progress hu
  cases shadowEnabled with
  | false => exact hu'
  | true =>
    simp only [onlyIf, captureRawSystem, if_true, Bool.false_eq_true, if_false, pure_bind, wp_modify]
    exact hu'.of_progress rfl

variable {capacity : Capacity}

theorem wp_acceptFeature (C : Callees σ) (hlimit : capacity.maxMeasSize = limit)
    (f : Feature) (r : Reduced) (order : Order) {s : Call σ} (h : Counted w n k limit s) :
    wp (acceptFeature C capacity f r order) (fun _ t => Early w n (k + 1) limit t)
      (fun _ t => Unreported w t) s := by
  unfold acceptFeature
  rw [wp_bind, wp_modify, wp_bind, wp_get, wp_bind]
  set t : Call σ := { s with
    event := { s.event with baselineAcceptedIds := s.event.baselineAcceptedIds ++ [f.featid] }
    system := s.system.addGamma C.arithmetic r.gamma } with ht
  have hrows : (s.system.addGamma C.arithmetic r.gamma).ctMeas = s.system.ctMeas := by
    unfold LiveSystem.addGamma
    split
    · rfl
    · simp only
      split <;> rfl
  have hprogress : progress t = progress s := by
    simp only [progress, ht, hrows]
    rfl
  cases happend : t.system.appendFeature capacity r.H r.residual order with
  | error _ => exact h.unreported
  | ok system =>
    have ht' := h.of_progress hprogress
    obtain ⟨hnonneg, hle⟩ := ctMeas_appendFeature happend ht'.nonneg
    simp only [checked, wp_pure, wp_modify]
    refine ⟨ht'.unreported, ht'.stage, ht'.raw, fun hzero => absurd hzero ht'.counted, hnonneg, ?_⟩
    rw [← hlimit]
    exact hle

theorem wp_processFeature (C : Callees σ) (options : UpdaterOptions) (shadowEnabled : Bool)
    (hlimit : capacity.maxMeasSize = limit) (p : FeaturePtr) {s : Call σ}
    (h : Early w n k limit s) :
    wp (processFeature C options false shadowEnabled capacity p)
      (fun v t => if v = .leave then Reported w t else Early w n (k + 1) limit t)
      (fun _ t => Unreported w t) s := by
  have hdrop : ∀ {t : Call σ}, Counted w n k limit t →
      wp (do markDeleted p; return Verdict.drop)
        (fun v t => if v = .leave then Reported w t else Early w n (k + 1) limit t)
        (fun _ t => Unreported w t) t := by
    intro t ht
    simp only [markDeleted, wp_bind, wp_modify, wp_pure, reduceCtorEq, if_false]
    exact .of_progress ht.toEarly rfl
  unfold processFeature
  rw [wp_bind, wp_get, wp_bind]
  refine wp_mono (wp_linearizeFeature C shadowEnabled (s.heap p) h) (fun l t ht => ?_)
    (fun _ _ he => he)
  obtain ⟨l, layout⟩ := l
  simp only
  split
  · rw [wp_bind]
    have hleft : leaveInvalidMode C false = failOrdinary C .kInvalidLiveMode := rfl
    rw [hleft]
    exact wp_mono (wp_failOrdinary_reported C _ ht.unreported) (fun _ u hu => hu) (fun _ _ he => he)
  simp only [nextTick, wp_bind, wp_get, wp_modify, wp_pure]
  refine Keeps.wp_early (Keeps.of_call _) (fun reduced u hu => ?_) ht.unreported
  have hu' : Counted w n k limit u := ht.of_progress hu
  cases reduced with
  | none => exact hdrop hu'
  | some r =>
    simp only [wp_bind, wp_get]
    refine Keeps.wp_early (Keeps.of_call _) (fun gate v hv => ?_) hu'.unreported
    have hv' := hu'.of_progress hv
    split
    · exact hdrop hv'
    · rw [wp_bind]
      exact wp_mono (wp_acceptFeature C hlimit _ r _ hv') (fun _ x hx => hx) (fun _ _ he => he)

theorem wp_sweep_processFeature (C : Callees σ) (options : UpdaterOptions) (shadowEnabled : Bool)
    (hlimit : capacity.maxMeasSize = limit) (rest : List FeaturePtr) :
    ∀ (kept : List FeaturePtr) {k : Nat} {s : Call σ}, Early w n k limit s →
      wp (sweep (processFeature C options false shadowEnabled capacity) kept rest)
        (fun complete t => if complete then Early w n (k + rest.length) limit t else Reported w t)
        (fun _ t => Unreported w t) s := by
  induction rest with
  | nil => exact fun kept k s h => h
  | cons p rest ih =>
    intro kept k s h
    have hlength : k + 1 + rest.length = k + (p :: rest).length := by
      rw [length_cons]
      omega
    rw [sweep, wp_bind, ← hlength]
    refine wp_mono (wp_processFeature C options shadowEnabled hlimit p h) (fun v t ht => ?_)
      (fun _ _ he => he)
    cases v with
    | keep => exact ih (kept ++ [p]) ht
    | drop =>
      rw [wp_bind, wp_modify]
      exact ih kept (.of_progress ht (progress_setProposalVec _ _))
    | leave => exact ht

end Loop

/-! ## Behind the loop -/

theorem Keeps.of_catching {τ : Type} {f : Call σ → τ} {x : Update σ α} {handler : Exn → Update σ α}
    (hx : Keeps f x) (hhandler : ∀ e, Keeps f (handler e)) : Keeps f (catching x handler) := by
  intro s
  rw [wp_catching]
  refine wp_mono (hx s) (fun _ _ ht => ht) (fun e t ht => ?_)
  exact wp_mono (hhandler e t) (fun _ _ hu => hu.trans ht) (fun _ _ hu => hu.trans ht)

theorem keeps_cloneActive : Keeps progress (cloneActive : Update σ MSCKFDetachedFeatureSet) := by
  refine .of_get fun s => ?_
  cases s.batch with
  | none => exact .of_throw _
  | some batch =>
    simp only
    cases batch.active.mapM batch.source with
    | none => exact .of_throw _
    | some sources => exact .of_pure _

theorem keeps_adoptLoop (batch : MSCKFDetachedFeatureBatch) (active : List FeaturePtr) :
    ∀ (features : List (Option Feature)) (sources : List Nat),
      Keeps progress (adoptLoop batch active features sources : Update σ Unit) := by
  induction active with
  | nil =>
    intro features sources
    unfold adoptLoop
    exact .of_pure _
  | cons p active ih =>
    intro features sources
    rcases features with _ | ⟨_ | candidate, features⟩
    · exact .of_throw _
    · exact .of_throw _
    rcases sources with _ | ⟨source, sources⟩
    · exact .of_throw _
    refine .of_get fun s => .ite (.of_throw _) ?_
    exact .bind (.of_modify fun _ => rfl) fun _ => ih features sources

theorem keeps_adoptGeometry (selected : MSCKFDetachedFeatureSet) :
    Keeps progress (adoptGeometry selected : Update σ Unit) := by
  refine .of_get fun s => ?_
  cases s.batch with
  | none => exact .of_throw _
  | some batch => exact .ite (.of_throw _) (keeps_adoptLoop batch _ _ _)

theorem keeps_prepareFinalization (C : Callees σ) : Keeps progress (prepareFinalization C) := by
  refine .of_get fun s => ?_
  cases s.batch with
  | none => exact .of_pure _
  | some batch =>
    refine .ite (.of_pure _) (.ite (.of_throw _) ?_)
    refine Keeps.bind (Keeps.of_call _) fun _ => ?_
    cases batch.active.mapM batch.source with
    | none => exact .of_throw _
    | some sources => exact .of_modify fun _ => rfl

theorem keeps_finalizeOrdinaryFeatures (C : Callees σ) :
    Keeps progress (finalizeOrdinaryFeatures C) := by
  refine .of_get fun s => ?_
  cases s.batch with
  | none => exact .of_pure _
  | some batch =>
    refine .ite (.of_throw _) ?_
    refine .bind (keeps_prepareFinalization C) fun _ => .of_modify fun t => ?_
    cases hbatch : t.batch <;> rfl

theorem keeps_commitOrdinaryUpdate (C : Callees σ) : Keeps progress (commitOrdinaryUpdate C) := by
  refine .of_get fun s => .ite (.of_pure _) ?_
  cases C.commitPrecomputed s.state with
  | none => exact .bind (.of_modify fun _ => rfl) fun _ => .of_pure _
  | some state => exact .bind (.of_modify fun _ => rfl) fun _ => .of_pure _

theorem keeps_runSecondPass (C : Callees σ) (passOne : MSCKFTwoPassCost) :
    Keeps progress (runSecondPass C passOne) := by
  refine Keeps.of_catching ?_ fun _ => Keeps.of_pure _
  exact Keeps.bind keeps_cloneActive fun _ => Keeps.of_call _

theorem keeps_runShadow (C : Callees σ) : Keeps progress (runShadow C false) := by
  refine .of_get fun s => .bind (.of_modify fun _ => rfl) fun _ => ?_
  cases C.shadow s.shadowInput with
  | ok result => exact .bind (.of_modify fun _ => rfl) fun _ => .of_pure _
  | error f => exact .of_pure _

theorem keeps_markRemaining (features : List FeaturePtr) :
    Keeps progress (markRemaining features : Update σ Unit) := by
  induction features with
  | nil => exact .of_pure _
  | cons p rest ih => exact .bind (.of_modify fun _ => rfl) fun _ => ih

section Exits

variable {w : World σ} {s : Call σ}

/-- A piece that returns with its event reported, or throws in front of it. -/
def Exits (w : World σ) (x : Update σ Unit) (s : Call σ) : Prop :=
  wp x (fun _ t => Reported w t) (fun _ t => Unreported w t) s

theorem Exits.bind {x : Update σ α} {f : α → Update σ Unit} (hx : Keeps progress x)
    (hs : Unreported w s) (hf : ∀ a t, progress t = progress s → Exits w (f a) t) :
    Exits w (x >>= f) s := by
  unfold Exits
  rw [wp_bind]
  exact Keeps.wp_early hx hf hs

variable (C : Callees σ)

theorem exits_failOrdinary (subreason : CP2UpdateTerminalSubreason)
    (hs : Unreported w s) : Exits w (failOrdinary C subreason) s :=
  wp_failOrdinary_reported C subreason hs

theorem exits_rejectOrdinary {status : CP2UpdateTerminalStatus}
    {subreason : CP2UpdateTerminalSubreason} (hs : Unreported w s)
    (hfits : (stageOf s.event).Fits status subreason) :
    Exits w (rejectOrdinary C status subreason) s := by
  refine .bind (keeps_finalizeOrdinaryFeatures C) hs fun _ t ht => ?_
  refine wp_finishUpdate_reported C (hs.of_progress ht) fun _ => ?_
  have hstage := stageOf_of_progress ht
  rw [hstage]
  exact hfits

def Stage.commit (stage : Stage) : Stage :=
  { stage with preflightAccepted := true, commitOccurred := true }

structure Attempted (w : World σ) (s : Call σ) : Prop where
  unreported : Unreported w s
  rejects : (stageOf s.event).Fits .kPreflightRejected .kBaselinePreflightRejected
  commits : (stageOf s.event).commit.Fits .kCommittedCounted .kNone

theorem Attempted.of_progress {s t : Call σ} (h : Attempted w s) (ht : progress t = progress s) :
    Attempted w t := by
  have hstage := stageOf_of_progress ht
  refine ⟨h.unreported.of_progress ht, ?_, ?_⟩
  · rw [hstage]
    exact h.rejects
  · rw [hstage]
    exact h.commits

theorem exits_commitOrdinary (hs : Unreported w s)
    (hcommits : (stageOf s.event).commit.Fits .kCommittedCounted .kNone) :
    Exits w (commitOrdinary C) s := by
  refine .bind (keeps_prepareFinalization C) hs fun _ t ht => ?_
  refine Exits.bind (Keeps.of_call _) (hs.of_progress ht) fun equal u hu => ?_
  have hu' : progress u = progress s := hu.trans ht
  have hunreported : Unreported w u := hs.of_progress hu'
  cases equal with
  | false => exact exits_failOrdinary C _ hunreported
  | true =>
    simp only [Exits, Bool.not_true, Bool.false_eq_true, if_false, wp_bind, wp_modify]
    refine Keeps.wp_early (keeps_commitOrdinaryUpdate C) (fun committed v hv => ?_) hunreported
    have hv' : Unreported w v := (terminal_of_progress hv).trans hunreported
    cases committed with
    | false => exact exits_failOrdinary C _ hv'
    | true =>
      refine Exits.bind (keeps_finalizeOrdinaryFeatures C) hv' fun _ x hx => ?_
      have hstage : (stageOf x.event).commit = (stageOf s.event).commit := by
        calc (stageOf x.event).commit = (stageOf v.event).commit := by
              rw [stageOf_of_progress hx]
          _ = (stageOf u.event).commit := by
              rw [stageOf_of_progress hv]
              rfl
          _ = (stageOf s.event).commit := by rw [stageOf_of_progress hu']
      simp only [Exits, modifyEvent, wp_bind, wp_modify, wp_get, notifyObserver]
      refine reported_append (hv'.of_progress hx) rfl fun hstatus => ?_
      cases hclocks : (steadyClockDuration C.start C.finish).isSome with
      | false => simp [captureDuration, hclocks] at hstatus
      | true =>
        refine timingLifecycleValid_captured C rfl rfl rfl rfl hclocks ?_
        simp only [captureDuration, hclocks, if_true]
        rw [← hstage] at hcommits
        have haccepted : x.event.baselinePreflightAccepted = true :=
          congrArg Stage.preflightAccepted
            ((stageOf_of_progress hx).trans (stageOf_of_progress hv))
        simp only [stageOf, haccepted]
        exact hcommits

theorem exits_rejectTwoPass (h : Attempted w s) : Exits w (rejectTwoPass C) s :=
  exits_rejectOrdinary C h.unreported h.rejects

theorem exits_selectPass (passOne : MSCKFTwoPassCost) (h : Attempted w s) :
    Exits w (selectPass C passOne) s := by
  refine .bind (keeps_runSecondPass C passOne) h.unreported fun second t ht => ?_
  have ht' := h.of_progress ht
  refine Exits.bind (Keeps.of_call _) ht'.unreported fun valid u hu => ?_
  have hu' := ht'.of_progress hu
  cases valid with
  | false => exact exits_rejectTwoPass C hu'
  | true =>
    simp only [Bool.not_true, Bool.false_eq_true, if_false]
    split
    · exact exits_rejectTwoPass C hu'
    · refine .bind (keeps_adoptGeometry _) hu'.unreported fun _ v hv => ?_
      have hv' := hu'.of_progress hv
      exact exits_commitOrdinary C hv'.unreported hv'.commits

def Call.attempt (s : Call σ) : Call σ :=
  { s with event := { s.event with baselinePreflightAttempted := true } }

theorem exits_twoPassUpdate (H : MatrixXd) (residual : VectorXd)
    (h : Attempted w s.attempt) : Exits w (twoPassUpdate C H residual) s := by
  unfold Exits twoPassUpdate
  simp only [modifyEvent, wp_bind, wp_modify, wp_get]
  change Exits w _ s.attempt
  split
  · exact exits_rejectTwoPass C h
  · exact exits_rejectTwoPass C h
  refine Exits.bind (Keeps.of_call _) h.unreported fun factored t ht => ?_
  have ht' := h.of_progress ht
  cases factored with
  | false => exact exits_rejectTwoPass C ht'
  | true =>
    refine Exits.bind (Keeps.of_call _) ht'.unreported fun solved u hu => ?_
    have hu' := ht'.of_progress hu
    cases solved with
    | false => exact exits_rejectTwoPass C hu'
    | true =>
      refine .bind keeps_cloneActive hu'.unreported fun clone v hv => ?_
      have hv' := hu'.of_progress hv
      refine Exits.bind (Keeps.of_call _) hv'.unreported fun passOne x hx => ?_
      have hx' := hv'.of_progress hx
      split
      · exact exits_rejectTwoPass C hx'
      · exact exits_selectPass C passOne hx'

theorem keeps_notePreview (preview : MSCKFUpdatePreviewResult) (planned : Bool) :
    Keeps progress (notePreview preview planned : Update σ Unit) := by
  refine .of_modify fun s => ?_
  simp only
  split <;> rfl

variable (options : UpdaterOptions)

theorem exits_onePassUpdate (H : MatrixXd) (residual : VectorXd) (h : Attempted w s.attempt) :
    Exits w (onePassUpdate C options false H residual) s := by
  unfold Exits onePassUpdate
  simp only [modifyEvent, wp_bind, wp_modify, wp_get]
  change Exits w _ s.attempt
  split
  · exact h.unreported
  refine Exits.bind (Keeps.of_call _) h.unreported fun preview t ht => ?_
  have ht' := h.of_progress ht
  simp only [onlyIf, Bool.false_eq_true, if_false, pure_bind]
  cases hpreview : preview.accepted with
  | false =>
    refine .bind (keeps_notePreview preview false) ht'.unreported fun _ u hu => ?_
    have hu' := ht'.of_progress hu
    exact exits_rejectOrdinary C hu'.unreported hu'.rejects
  | true =>
    simp only [Exits, Bool.not_true, Bool.false_eq_true, if_false, wp_bind, wp_modify]
    refine Keeps.wp_early (keeps_notePreview preview true) (fun _ u hu => ?_) ht'.unreported
    refine exits_commitOrdinary C ((terminal_of_progress hu).trans ht'.unreported) ?_
    rw [stageOf_of_progress hu]
    exact ht'.commits

/-! ### The linear system -/

theorem rows_conservativeResize_le (M : MatrixXd) (rows cols : Nat)
    (storage : Nat → Nat → Binary64) : (M.conservativeResize rows cols storage).rows ≤ rows := by
  unfold MatrixXd.conservativeResize MatrixXd.ofFn
  split
  · exact Nat.le_refl _
  · exact Nat.zero_le _

theorem ofNat_ne_zero {rows : Nat} (hpos : 0 < rows) (hlt : rows < 2 ^ 64) :
    UInt64.ofNat rows ≠ 0 := by
  intro hzero
  have htoNat := congrArg UInt64.toNat hzero
  rw [UInt64.toNat_ofNat_of_lt' hlt] at htoNat
  exact Nat.ne_of_gt hpos htoNat

theorem ofNat_le_ofNat {m rows : Nat} (hle : m ≤ rows) (hlt : rows < 2 ^ 64) :
    UInt64.ofNat m ≤ UInt64.ofNat rows := by
  rw [UInt64.le_iff_toNat_le, UInt64.toNat_ofNat_of_lt' (Nat.lt_of_le_of_lt hle hlt),
    UInt64.toNat_ofNat_of_lt' hlt]
  exact hle

variable {n raw : UInt64}

theorem exits_compressAndUpdate (hs : Unreported w s)
    (hn : n ≠ 0) (hraw : raw ≠ 0) (hle : raw ≤ n) (hpos : 0 < s.system.ctMeas)
    (hlt : s.system.ctMeas < indexLimit)
    (hstage : stageOf s.event = countedStage n raw (UInt64.ofNat s.system.ctMeas.toNat)) :
    Exits w (compressAndUpdate C options false) s := by
  refine Exits.bind (Keeps.of_call _) hs fun _ t ht => ?_
  have ht' := hs.of_progress ht
  have hrows : t.system.ctMeas = s.system.ctMeas := congrArg (fun view => view.2.1) ht
  rw [← stageOf_of_progress ht, ← hrows] at hstage
  rw [← hrows] at hpos hlt
  have hlt64 : t.system.ctMeas.toNat < 2 ^ 64 := by
    unfold indexLimit at hlt
    omega
  have hne : UInt64.ofNat t.system.ctMeas.toNat ≠ 0 := ofNat_ne_zero (by omega) hlt64
  simp only [Exits, modifyEvent, wp_bind, wp_get, wp_modify]
  set trimmed := t.system.trim C.arithmetic with htrimmed
  set compressed := measurementCompress C.arithmetic trimmed.1 trimmed.2 with hcompressed
  have hcompressed_le : compressed.1.rows ≤ t.system.ctMeas.toNat := by
    calc compressed.1.rows ≤ trimmed.1.rows := rows_measurementCompress_le _ _ _
      _ ≤ t.system.ctMeas.toNat := rows_conservativeResize_le _ _ _ _
  have hle64 : UInt64.ofNat compressed.1.rows ≤ UInt64.ofNat t.system.ctMeas.toNat :=
    ofNat_le_ofNat hcompressed_le hlt64
  by_cases hempty : compressed.1.rows < 1
  · rw [if_pos hempty, if_neg (by simp)]
    refine exits_rejectOrdinary C ht' ?_
    change ({ stageOf t.event with
      compressedAvailable := true
      compressedRows := UInt64.ofNat compressed.1.rows } : Stage).Fits _ _
    rw [hstage, Nat.lt_one_iff.mp hempty]
    exact fits_emptyAfterCompression hn hraw hle hne
  · have hcompressed_ne : UInt64.ofNat compressed.1.rows ≠ 0 :=
      ofNat_ne_zero (by omega) (Nat.lt_of_le_of_lt hcompressed_le hlt64)
    rw [if_neg hempty, wp_bind, wp_modify]
    set u : Call σ := { t with
      event := { t.event with
        baselineCompressedRowsAvailable := true
        baselineCompressedRows := UInt64.ofNat compressed.1.rows
        baselineCompressedSystemNonempty := true } }
    have hstage' : stageOf u.attempt.event =
        compressedStage n raw (UInt64.ofNat t.system.ctMeas.toNat)
          (UInt64.ofNat compressed.1.rows) := by
      calc stageOf u.attempt.event = { stageOf t.event with
            compressedAvailable := true
            compressedRows := UInt64.ofNat compressed.1.rows
            compressedNonempty := true
            preflightAttempted := true } := rfl
        _ = _ := by rw [hstage, compressedStage, bne_iff_ne.mpr hcompressed_ne]
    have hattempt : Attempted w u.attempt := by
      refine ⟨ht', ?_, ?_⟩
      · rw [hstage']
        exact fits_preflightRejected hn hraw hle hne hcompressed_ne hle64
      · rw [hstage']
        exact fits_committed hn hraw hle hne hcompressed_ne hle64
    split
    · exact exits_twoPassUpdate C _ _ hattempt
    · exact exits_onePassUpdate C options _ _ hattempt

/-! ## The body -/

/-- Behind the loop: what is known about the features, where one of them gave a raw system. -/
structure Looped (w : World σ) (n : UInt64) (afterCleaning afterTriangulation : Bool)
    (s : Call σ) : Prop where
  unreported : Unreported w s
  nonempty : n ≠ 0
  stage : stageOf s.event = { inputFeatureCount := n, rawSystemCount := s.event.rawSystemCount }
  raw : s.event.rawSystemCount ≤ n
  remained : s.event.rawSystemCount ≠ 0 → afterCleaning = true ∧ afterTriangulation = true
  empty : s.event.rawSystemCount = 0 → s.system.ctMeas = 0
  nonneg : 0 ≤ s.system.ctMeas
  lt_limit : s.system.ctMeas < indexLimit

theorem Looped.of_progress {afterCleaning afterTriangulation : Bool} {s t : Call σ}
    (h : Looped w n afterCleaning afterTriangulation s) (ht : progress t = progress s) :
    Looped w n afterCleaning afterTriangulation t := by
  have hstage := stageOf_of_progress ht
  have hraw : t.event.rawSystemCount = s.event.rawSystemCount :=
    congrArg Stage.rawSystemCount hstage
  have hrows : t.system.ctMeas = s.system.ctMeas := congrArg (fun view => view.2.1) ht
  refine ⟨h.unreported.of_progress ht, h.nonempty, ?_, ?_, ?_, ?_, ?_, ?_⟩
  · rw [hstage, h.stage, hraw]
  · rw [hraw]
    exact h.raw
  · rw [hraw]
    exact h.remained
  · rw [hraw, hrows]
    exact h.empty
  · rw [hrows]
    exact h.nonneg
  · rw [hrows]
    exact h.lt_limit

theorem allRejectedSubreason_zero (afterCleaning afterTriangulation : Bool) :
    allRejectedSubreason afterCleaning afterTriangulation 0 = .kNoFeaturesAfterCleaning ∨
      allRejectedSubreason afterCleaning afterTriangulation 0 = .kNoFeaturesAfterTriangulation ∨
      allRejectedSubreason afterCleaning afterTriangulation 0 = .kNoRawSystems := by
  cases afterCleaning <;> cases afterTriangulation <;> simp [allRejectedSubreason]

theorem allRejectedSubreason_ne_zero (hraw : raw ≠ 0) :
    allRejectedSubreason true true raw = .kAllBaselineFeaturesRejected := by
  simp [allRejectedSubreason, hraw]

theorem exits_updateWithSystem
    {afterCleaning afterTriangulation : Bool} (h : Looped w n afterCleaning afterTriangulation s) :
    Exits w (updateWithSystem C options false afterCleaning afterTriangulation) s := by
  unfold updateWithSystem Exits
  rw [wp_bind, wp_get]
  refine Exits.bind (Keeps.of_onlyIf (keeps_runShadow C)) h.unreported fun _ t ht => ?_
  have ht' := h.of_progress ht
  unfold Exits
  rw [wp_bind, wp_get]
  refine Exits.bind (keeps_markRemaining _) ht'.unreported fun _ u hu => ?_
  have hu' := ht'.of_progress hu
  simp only [Exits, notePrecompressionRows, wp_bind, wp_modify, wp_get]
  by_cases hraw : u.event.rawSystemCount = 0
  · -- no raw system, so no row either
    have hempty := hu'.empty hraw
    rw [if_pos hraw, if_pos (by omega)]
    simp only [leaveAllRejected, onlyIf, Bool.false_and, Bool.false_eq_true, if_false, pure_bind,
      wp_bind, wp_get]
    refine exits_rejectOrdinary C hu'.unreported ?_
    rw [hu'.stage, hraw]
    exact fits_noRawSystems h.nonempty (allRejectedSubreason_zero _ _)
  · obtain ⟨hcleaned, htriangulated⟩ := hu'.remained hraw
    rw [if_neg hraw]
    set v : Call σ := { u with
      event := { u.event with
        baselinePrecompressionRowsAvailable := true
        baselinePrecompressionRows := UInt64.ofNat u.system.ctMeas.toNat
        baselinePrecompressionSystemNonempty := decide (0 < u.system.ctMeas) }
      baselineProvenanceEqual := u.baselineProvenanceEqual &&
        (!false || u.shadowResult.nullspace.precompressionRows.toInt == u.system.ctMeas) }
    have hlt64 : u.system.ctMeas.toNat < 2 ^ 64 := by
      have hlt := hu'.lt_limit
      unfold indexLimit at hlt
      omega
    have hnonneg := hu'.nonneg
    have hnonempty : decide (0 < u.system.ctMeas) = (UInt64.ofNat u.system.ctMeas.toNat != 0) := by
      by_cases hpos : 0 < u.system.ctMeas
      · rw [decide_eq_true hpos, bne_iff_ne.mpr (ofNat_ne_zero (by omega) hlt64)]
      · have hzero : u.system.ctMeas = 0 := by omega
        rw [hzero]
        rfl
    have hstage : stageOf v.event = countedStage n u.event.rawSystemCount
        (UInt64.ofNat u.system.ctMeas.toNat) := by
      calc stageOf v.event = { stageOf u.event with
            precompressionNonempty := decide (0 < u.system.ctMeas)
            precompressionAvailable := true
            precompressionRows := UInt64.ofNat u.system.ctMeas.toNat } := rfl
        _ = _ := by rw [hu'.stage, hnonempty, countedStage]
    -- no rows: every feature was rejected; else the compression follows
    by_cases hrows : u.system.ctMeas < 1
    · rw [if_pos hrows]
      simp only [leaveAllRejected, onlyIf, Bool.false_and, Bool.false_eq_true, if_false, pure_bind,
        wp_bind, wp_get]
      refine exits_rejectOrdinary C hu'.unreported ?_
      have hzero : u.system.ctMeas = 0 := by omega
      have hsubreason : allRejectedSubreason afterCleaning afterTriangulation
          v.event.rawSystemCount = .kAllBaselineFeaturesRejected := by
        rw [hcleaned, htriangulated]
        exact allRejectedSubreason_ne_zero hraw
      rw [hsubreason, hstage, hzero]
      exact fits_allRejected h.nonempty hraw hu'.raw
    · rw [if_neg hrows]
      have hpos : 0 < v.system.ctMeas := by
        change 0 < u.system.ctMeas
        omega
      exact exits_compressAndUpdate C options hu'.unreported h.nonempty hraw hu'.raw hpos
        hu'.lt_limit hstage

theorem wp_processFeatures (shadowEnabled : Bool)
    {capacity : Capacity} {k : Nat} (h : Early w n k capacity.maxMeasSize s) :
    wp (processFeatures C options false shadowEnabled capacity)
      (fun complete t => if complete then
        Early w n (k + s.proposalVec.length) capacity.maxMeasSize t else Reported w t)
      (fun _ t => Unreported w t) s := by
  unfold processFeatures
  rw [wp_bind, wp_get, wp_bind]
  refine wp_mono (wp_sweep_processFeature C options shadowEnabled rfl _ [] h)
    (fun complete t ht => ?_) (fun _ _ he => he)
  cases complete with
  | false => exact ht
  | true =>
    simp only [onlyIf, if_true, wp_bind, wp_modify, wp_pure]
    refine .of_progress ht ?_
    split <;> rfl

theorem keepsVec_prepareShadow (table : ChiSquaredTable)
    (shadowEnabled : Bool) : Keeps progressVec (prepareShadow C options table false shadowEnabled) := by
  refine .bind (.of_onlyIf ?_) fun _ => .of_onlyIf (.of_modify fun _ => rfl)
  exact Keeps.bind (Keeps.of_call _) fun _ => Keeps.of_modify fun _ => rfl

theorem maxMeasSize_lt {C : Callees σ} {features : List Feature} {capacity : Capacity}
    (h : capacityOf C features = some capacity) : capacity.maxMeasSize < indexLimit := by
  unfold capacityOf at h
  simp only at h
  split at h
  · cases h
  · rename_i hbounds
    obtain ⟨columns, _, rfl⟩ := Option.map_eq_some_iff.mp h
    exact Nat.lt_of_not_le fun hle => hbounds (.inl hle)

theorem isEmpty_of_length {features : List FeaturePtr} {raw : UInt64} (hraw : raw ≠ 0)
    (hle : raw.toNat ≤ features.length) : (!features.isEmpty) = true := by
  cases features with
  | nil =>
    have hzero : raw.toNat = 0 := Nat.le_zero.mp hle
    exact absurd (UInt64.toNat_inj.mp hzero) hraw
  | cons p features => rfl

theorem wp_runPipeline (table : ChiSquaredTable)
    (shadowEnabled : Bool) (hs : Unreported w s) (hn : n ≠ 0)
    (hstage : stageOf s.event = { inputFeatureCount := n })
    (hlength : s.proposalVec.length ≤ n.toNat) :
    wp (runPipeline C options table false shadowEnabled)
      (fun result t => match result with
        | none => Reported w t
        | some (afterCleaning, afterTriangulation) => Looped w n afterCleaning afterTriangulation t)
      (fun _ t => Unreported w t) s := by
  unfold runPipeline cleanFeatures
  rw [wp_bind, wp_bind, wp_get]
  refine wp_mono (wp_sweep_le (keepsVec_cleanFeature C) _ [] (Nat.le_of_eq rfl) (Nat.le_refl _))
    (fun complete t ht => ?_) (fun _ _ he => hs.of_progress he)
  obtain ⟨ht, hcleaned⟩ := ht
  have hunreported : Unreported w t := hs.of_progress ht
  cases complete with
  | false => exact hunreported.reported
  | true =>
    simp only [Bool.not_true, Bool.false_eq_true, if_false, wp_bind, wp_get]
    refine Keeps.wp (f := progressVec) (Keeps.of_call C.cameraPoses) (fun _ u hu => ?_)
      (fun _ _ he => hunreported.of_progress (congrArg Prod.fst he))
    have hu' : progress u = progress t := congrArg Prod.fst hu
    have hvec : u.proposalVec = t.proposalVec := congrArg Prod.snd hu
    have hunreported' : Unreported w u := hunreported.of_progress hu'
    -- neither sweep before the loop touches what the event reports
    simp only [triangulateFeatures, wp_bind, wp_get]
    refine wp_mono (wp_sweep_le (keepsVec_triangulateFeature C options.refineFeatures) _ []
      (Nat.le_of_eq rfl) (Nat.le_refl _))
      (fun _ v hv => ?_) (fun _ _ he => hunreported'.of_progress he)
    obtain ⟨hv, htriangulated⟩ := hv
    have hv' : progress v = progress s := hv.trans (hu'.trans ht)
    cases hcapacity : capacityOf C (v.proposalVec.map v.heap) with
    | none => exact hs.of_progress hv'
    | some capacity =>
      simp only [wp_bind]
      refine Keeps.wp (f := progressVec) (Keeps.of_call C.allocateSystem) (fun _ x hx => ?_)
        (fun _ _ he => hs.of_progress ((congrArg Prod.fst he).trans hv'))
      have hx' : progress x = progress s := (congrArg Prod.fst hx).trans hv'
      have hxvec : x.proposalVec = v.proposalVec := congrArg Prod.snd hx
      simp only [wp_modify]
      set y : Call σ := { x with system := .allocate capacity }
      have hy : Early w n 0 capacity.maxMeasSize y := by
        have hraw : y.event.rawSystemCount = 0 :=
          congrArg Stage.rawSystemCount ((stageOf_of_progress hx').trans hstage)
        refine ⟨(terminal_of_progress hx').trans hs, ?_, ?_, fun _ => rfl, Int.le_refl 0, Int.natCast_nonneg _⟩
        · rw [hraw]
          exact (stageOf_of_progress hx').trans hstage
        · rw [hraw]
          exact Nat.le_refl 0
      refine (keepsVec_prepareShadow C options table shadowEnabled).wp (fun _ z hz => ?_)
        (fun _ _ he => hy.unreported.of_progress (congrArg Prod.fst he))
      have hz' : Early w n 0 capacity.maxMeasSize z := hy.of_progress (congrArg Prod.fst hz)
      have hzvec : z.proposalVec = v.proposalVec := by
        calc z.proposalVec = x.proposalVec := congrArg Prod.snd hz
          _ = v.proposalVec := hxvec
      refine wp_mono (wp_processFeatures C options shadowEnabled hz') (fun complete r hr => ?_)
        (fun _ _ he => he)
      cases complete with
      | false => exact hr
      | true =>
        -- every raw system is a feature that both sweeps have left
        have hraw : r.event.rawSystemCount.toNat ≤ v.proposalVec.length := by
          calc r.event.rawSystemCount.toNat ≤ 0 + z.proposalVec.length := hr.raw
            _ = v.proposalVec.length := by rw [Nat.zero_add, hzvec]
        have hrawt : r.event.rawSystemCount.toNat ≤ t.proposalVec.length := by
          calc r.event.rawSystemCount.toNat ≤ v.proposalVec.length := hraw
            _ ≤ u.proposalVec.length := htriangulated
            _ = t.proposalVec.length := by rw [hvec]
        refine ⟨hr.unreported, hn, hr.stage, ?_, fun hne => ?_, hr.empty, hr.nonneg, ?_⟩
        · rw [UInt64.le_iff_toNat_le]
          exact hrawt.trans (hcleaned.trans hlength)
        · exact ⟨isEmpty_of_length hne hrawt, isEmpty_of_length hne hraw⟩
        · have hlimit := maxMeasSize_lt hcapacity
          have hrows := hr.le_limit
          omega

theorem wp_call {x : Except Fault α} {Q : α → Call σ → Prop} {E : Exn → Call σ → Prop} :
    wp (call x) Q E s ↔ (∀ a, x = .ok a → Q a s) ∧ (∀ f, x = .error f → E (.fault f) s) := by
  cases x with
  | ok a => simp [call]
  | error f => simp [call]

theorem wp_detachFeatures_progress : wp (detachFeatures C)
      (fun _ t => progress t = progress s ∧ t.proposalVec.length = s.featureVec.length)
      (fun _ t => progress t = progress s) s := by
  unfold detachFeatures
  rw [wp_bind, wp_get]
  split
  · rfl
  · rw [wp_bind, wp_call]
    exact ⟨fun _ _ => ⟨rfl, by simp [Call.proposalVec]⟩, fun _ _ => rfl⟩

theorem wp_enterOrdinary_reported (hs : Unreported w s) : wp (enterOrdinary C options)
      (fun entered t => if entered then
        progress t = progress s ∧ t.proposalVec.length = s.featureVec.length else Reported w t)
      (fun _ t => Unreported w t) s := by
  have hfail : ∀ subreason : CP2UpdateTerminalSubreason,
      wp (do failOrdinary C subreason; return false)
        (fun entered t => if entered then
          progress t = progress s ∧ t.proposalVec.length = s.featureVec.length else Reported w t)
        (fun _ t => Unreported w t) s := by
    intro subreason
    simp only [wp_bind, wp_pure, Bool.false_eq_true, if_false]
    exact wp_failOrdinary_reported C subreason hs
  unfold enterOrdinary
  rw [wp_bind, wp_call]
  refine ⟨fun prior _ => ?_, fun _ _ => hs⟩
  rw [wp_bind, wp_call]
  refine ⟨fun equal _ => ?_, fun _ _ => hs⟩
  cases equal with
  | false => exact hfail _
  | true =>
    simp only [Bool.not_true, Bool.false_eq_true, if_false]
    split
    · exact hfail _
    · simp only [wp_bind, wp_pure, wp_modify]
      exact wp_mono (wp_detachFeatures_progress C) (fun _ v hv => hv) (fun _ v hv => hs.of_progress hv)

/-! ## The whole call -/

theorem exits_updateBody (table : ChiSquaredTable)
    (shadowEnabled : Bool) (hs : Unreported w s) (hlt : s.featureVec.length < 2 ^ 64)
    (hstage : stageOf s.event = { inputFeatureCount := UInt64.ofNat s.featureVec.length }) :
    Exits w (updateBody C options table false shadowEnabled) s := by
  unfold updateBody Exits
  rw [wp_bind, wp_get]
  cases hempty : s.featureVec with
  | nil =>
    rw [hempty] at hstage
    exact wp_finishUpdate_reported C hs fun _ => by
      rw [hstage]
      exact fits_emptyInput
  | cons p rest =>
    have hpos : 0 < s.featureVec.length := by
      rw [hempty]
      exact Nat.succ_pos _
    simp only [isEmpty_cons, Bool.false_eq_true, if_false, wp_bind]
    refine wp_mono (wp_enterOrdinary_reported C options hs) (fun entered t ht => ?_) (fun _ _ he => he)
    cases entered with
    | false => exact ht
    | true =>
      obtain ⟨hprogress, hlength⟩ := ht
      simp only [Bool.not_true, Bool.false_eq_true, if_false, wp_bind]
      refine wp_mono (wp_runPipeline C options table shadowEnabled (hs.of_progress hprogress)
        (ofNat_ne_zero hpos hlt) ((stageOf_of_progress hprogress).trans hstage) ?_)
        (fun result u hu => ?_) (fun _ _ he => he)
      · rw [hlength, UInt64.toNat_ofNat_of_lt' hlt]
      · cases result with
        | none => exact hu
        | some known => exact exits_updateWithSystem C options hu

theorem wp_handle_reported (e : Exn) (hs : Unreported w s) :
    wp (handle C false e) (fun _ t => Reported w t) (fun _ t => Reported w t) s := by
  cases e with
  | fatal reason message => exact hs.reported
  | fault f =>
    simp only [handle, wp_bind, wp_get, Bool.false_eq_true, if_false]
    split
    · exact hs.reported
    · exact wp_failOrdinary_reported C _ hs

theorem wp_activeUpdate_reported (hs : Unreported w s)
    (hordinary : s.updater.recordedSink = false) (hlt : s.featureVec.length < 2 ^ 64) :
    wp (activeUpdate C) (fun _ t => Reported w t) (fun _ t => Reported w t) s := by
  unfold activeUpdate
  rw [wp_bind, wp_get, hordinary]
  simp only [wp_bind, wp_modify, Bool.false_and, Bool.false_eq_true, if_false, onlyIf, pure_bind,
    Bool.false_or, Bool.not_false]
  split
  · exact hs.reported
  rw [wp_bind, wp_modify, wp_catching]
  refine wp_mono (exits_updateBody C _ _ _ ?_ ?_ ?_) (fun _ _ ht => ht)
    (fun e t ht => wp_handle_reported C e ht)
  · exact hs
  · exact hlt
  · cases (s.updater.consumeContext).1 <;> rfl

theorem recordedSink_enter (start : CP2SteadyClockEndpoint) (u : UpdaterMSCKF) :
    (enter start u).2.recordedSink = u.recordedSink := by
  have hlatch : ∀ v : UpdaterMSCKF, (v.latch .kArithmeticInvariant).recordedSink = v.recordedSink := by
    intro v
    unfold UpdaterMSCKF.latch
    split <;> rfl
  unfold enter
  cases start.valid with
  | false => exact hlatch _
  | true =>
    simp only [Bool.not_true, Bool.false_eq_true, if_false, if_true]
    split
    · rfl
    · split <;> rfl

theorem runUpdate_reported (w : World σ)
    (hordinary : w.updater.recordedSink = false) (hlt : w.featureVec.length < 2 ^ 64) :
    ∃ events, (runUpdate C w).2.terminal = w.terminal ++ events ∧ ∀ event ∈ events,
      event.terminalStatus ≠ .kInternalFailure → timingLifecycleValid event = true := by
  have h : wp (update C) (fun _ t => Reported w t) (fun _ t => Reported w t) { toWorld := w } := by
    unfold update
    rw [wp_bind, wp_get, wp_bind, wp_modify]
    split
    · exact Unreported.reported rfl
    · rw [wp_guarded]
      refine wp_activeUpdate_reported C rfl ?_ hlt
      rw [recordedSink_enter]
      exact hordinary
  unfold runUpdate
  unfold wp EStateM.run at h
  cases hrun : update C { toWorld := w } with
  | ok _ s =>
    rw [hrun] at h
    exact h
  | error e s =>
    rw [hrun] at h
    exact h

end Exits

/-! ## The trace -/

structure LifecycleChain (event : CP2LiveUpdateEvent) : Prop where
  status : event.terminalStatus = reconstructedStatus event
  raw_le : event.rawSystemCount ≤ event.inputFeatureCount
  precompression : event.baselinePrecompressionRowsAvailable = (event.rawSystemCount != 0)
  precompressionNonempty : event.baselinePrecompressionSystemNonempty =
    (event.baselinePrecompressionRowsAvailable && event.baselinePrecompressionRows != 0)
  compressed : event.baselineCompressedRowsAvailable = event.baselinePrecompressionSystemNonempty
  compressedNonempty : event.baselineCompressedSystemNonempty =
    (event.baselineCompressedRowsAvailable && event.baselineCompressedRows != 0)
  compressed_le : event.baselineCompressedRowsAvailable = true →
    event.baselineCompressedRows ≤ event.baselinePrecompressionRows
  attempted : event.baselinePreflightAttempted = event.baselineCompressedSystemNonempty
  accepted : event.baselinePreflightAccepted = (event.terminalStatus == .kCommittedCounted)
  committed : event.baselineCommitOccurred = (event.terminalStatus == .kCommittedCounted)

theorem lifecycleChain_of_valid
    (h : timingLifecycleValid event = true) : LifecycleChain event := by
  simp only [timingLifecycleValid, Bool.and_eq_true, beq_iff_eq, decide_eq_true_eq] at h
  obtain ⟨⟨⟨⟨⟨⟨⟨⟨⟨⟨⟨⟨_, hstatus⟩, hraw⟩, hprecompression⟩, _⟩, hnonempty⟩, hcompressed⟩, _⟩,
    hcompressedNonempty⟩, hle⟩, hattempted⟩, haccepted⟩, hcommitted⟩ := h
  refine ⟨hstatus, hraw, hprecompression, hnonempty, hcompressed, hcompressedNonempty, ?_,
    hattempted, haccepted, hcommitted⟩
  intro havailable
  rw [havailable] at hle
  simpa using hle

structure Joins (t : CP2SerialRuntimeTrace) (event : CP2LiveUpdateEvent) : Prop where
  ready : t.ready = true
  open_ : t.finalized = false
  context : event.invocationContextAvailable = true
  sequence : event.sequenceIndex = t.context.sequenceIndex
  next : event.invocationId = t.nextInvocationId
  room : t.nextInvocationId.toNat + 1 < 2 ^ 64
  queued : ∃ row, t.rows[event.pairIndex.toNat]? = some row ∧ row.enqueueNoted = true ∧
    row.enqueueStatus = "queued" ∧ event.cameraTimestampNs = row.pair.cameraTimestampNs ∧
    row.updates = []

theorem noteUpdate_of_joins {t : CP2SerialRuntimeTrace}
    (h : Joins t event) (hvalid : timingLifecycleValid event = true) :
    ∃ t', (noteUpdate event).run t = .ok ⟨⟩ t' := by
  obtain ⟨row, hrow, hnoted, hstatus, htimestamp, hupdates⟩ := h.queued
  have hlt : event.pairIndex.toNat < t.rows.length := (List.getElem?_eq_some_iff.mp hrow).1
  have hrun : wp (noteUpdate event) (fun _ _ => True) (fun _ _ => False) t := by
    have hidentity : (!t.ready || t.finalized || !event.invocationContextAvailable ||
        event.sequenceIndex != t.context.sequenceIndex ||
        decide (t.rows.length ≤ event.pairIndex.toNat) ||
        event.invocationId != t.nextInvocationId) = false := by
      simp [h.ready, h.open_, h.context, h.sequence, h.next, hlt]
    have hjoin : (!row.enqueueNoted || row.enqueueStatus != "queued" ||
        event.cameraTimestampNs != row.pair.cameraTimestampNs || !row.updates.isEmpty) = false := by
      simp [hnoted, hstatus, htimestamp, hupdates]
    unfold noteUpdate
    rw [wp_bind, wp_get, hidentity, if_neg Bool.false_ne_true, hvalid, Bool.not_true,
      Bool.and_false, if_neg Bool.false_ne_true, hrow]
    simp only [hjoin, Bool.false_eq_true, if_false, wp_bind, wp_modify,
      if_neg (Nat.ne_of_lt h.room)]
  obtain ⟨_, t', ht', _⟩ := wp_ok_iff.mp hrun
  exact ⟨t', ht'⟩

/-- Every terminal event of an ordinary call that is no failure is in order, and no trace that it
joins rejects it. -/
theorem ordinary_events_pass_lifecycle (C : Callees σ) (w : World σ)
    (hordinary : w.updater.recordedSink = false) (hlt : w.featureVec.length < 2 ^ 64) :
    ∃ events, (runUpdate C w).2.terminal = w.terminal ++ events ∧ ∀ event ∈ events,
      event.terminalStatus ≠ .kInternalFailure →
        timingLifecycleValid event = true ∧ LifecycleChain event ∧
          ∀ t : CP2SerialRuntimeTrace, Joins t event →
            ∃ t', (noteUpdate event).run t = .ok ⟨⟩ t' := by
  obtain ⟨events, hevents, hvalid⟩ := runUpdate_reported C w hordinary hlt
  refine ⟨events, hevents, fun event hevent hstatus => ?_⟩
  have h := hvalid event hevent hstatus
  exact ⟨h, lifecycleChain_of_valid h, fun t ht => noteUpdate_of_joins ht h⟩

theorem ordinary_events_pass_lifecycle_unit : ∃ events, (runUpdate unitCallees unitOrdinary).2.terminal = events ∧
    events.map CP2LiveUpdateEvent.terminalStatus = [.kCommittedCounted] ∧
    ∀ event ∈ events, timingLifecycleValid event = true := by
  have hcommitted : (runUpdate unitCallees unitOrdinary).2.terminal.map CP2LiveUpdateEvent.terminalStatus =
      [.kCommittedCounted] := by decide +kernel
  obtain ⟨events, hevents, hvalid⟩ := ordinary_events_pass_lifecycle unitCallees unitOrdinary rfl (by decide)
  change _ = events at hevents
  rw [hevents] at hcommitted
  refine ⟨events, hevents, hcommitted, fun event hevent => (hvalid event hevent ?_).1⟩
  have hstatus := mem_map_of_mem (f := CP2LiveUpdateEvent.terminalStatus) hevent
  rw [hcommitted] at hstatus
  rw [mem_singleton.mp hstatus]
  decide

end Bravo.Updater
