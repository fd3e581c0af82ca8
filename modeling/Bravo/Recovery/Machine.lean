import Bravo.Recovery.Callback

/-! # The recovery machine

What a callback can do to the recovery fields, without the objects around them: a transition
system on `LongGapRecovery` whose steps are labelled with the events of the callback
(`RecoveryStep`). `step_refines` says that every callback that returns is such a step. All
invariants of the recovery are proved on this machine and then hold of the code.
-/

namespace Bravo.Recovery

/-! ## The abstract steps -/

section Machine

variable (o : VioManagerOptions) (norm : Vector3d → Binary64)
variable (accepted : Option LongGapRecoveryPoseSample)

def LongGapRecovery.attempted (r : LongGapRecovery) : LongGapRecovery :=
  { r with attemptCount := r.attemptCount + 1 }

def LongGapRecovery.failed (r : LongGapRecovery) : LongGapRecovery :=
  { r with phase := .FAILED, failureCount := r.failureCount + 1, consensus := [] }

def LongGapRecovery.committed (r : LongGapRecovery) : LongGapRecovery :=
  { r with
    epochId := r.epochId + 1
    commitCount := r.commitCount + 1
    phase := .WARMUP
    consensus := [] }

/-- An attempt without a commit: terminal when the attempts are used up. -/
inductive Settles (r : LongGapRecovery) : List Event → LongGapRecovery → Prop
  | retry : r.attemptCount < o.longGapRecoveryMaxAttempts → Settles r [] r
  | exhausted : o.longGapRecoveryMaxAttempts ≤ r.attemptCount →
      Settles r [.recoveryFailed] r.failed

/-- One recovery attempt, on a frame whose accepted pose, if any, is `accepted`. -/
inductive AttemptStep (r : LongGapRecovery) : List Event → LongGapRecovery → Prop
  | reject {evs : List Event} {r' : LongGapRecovery} :
      accepted = none → Settles o { r.attempted with consensus := [] } evs r' →
      AttemptStep r (.attempt false :: evs) r'
  | collect {s : LongGapRecoveryPoseSample} {evs : List Event} {r' : LongGapRecovery} :
      accepted = some s → s.p_IinG.allFinite = true →
      (r.consensus.length : Int) + 1 < o.longGapRecoveryConsensusFrames →
      Settles o { r.attempted with consensus := r.consensus ++ [s] } evs r' →
      AttemptStep r (.attempt true :: .acceptedPose s :: evs) r'
  | scatter {s : LongGapRecoveryPoseSample} {evs : List Event} {r' : LongGapRecovery} :
      accepted = some s → s.p_IinG.allFinite = true →
      o.longGapRecoveryConsensusFrames ≤ (r.consensus.length : Int) + 1 →
      consensusPasses norm o (r.consensus ++ [s]) = false →
      Settles o { r.attempted with consensus := [] } evs r' →
      AttemptStep r (.attempt true :: .acceptedPose s :: .consensusReject :: evs) r'
  | commit {s : LongGapRecoveryPoseSample} :
      accepted = some s → s.p_IinG.allFinite = true →
      o.longGapRecoveryConsensusFrames ≤ (r.consensus.length : Int) + 1 →
      consensusPasses norm o (r.consensus ++ [s]) = true →
      AttemptStep r
        [.attempt true, .acceptedPose s, .consensusPass, .commitCall s.R_GtoI s.p_IinG,
          .relocalizationCommit]
        r.attempted.committed

def Event.isOrdinary : Event → Bool
  | .zeroVelocityUpdater => true
  | .featurePropagateUpdate => true
  | _ => false

inductive RecoveryStep (r : LongGapRecovery) : List Event → LongGapRecovery → Prop
  | ordinary {evs : List Event} :
      r.phase = .TRACKING ∨ r.phase = .WARMUP → evs.all Event.isOrdinary = true →
      RecoveryStep r evs r
  | warmupComplete {evs : List Event} :
      r.phase = .WARMUP → evs.all Event.isOrdinary = true →
      RecoveryStep r (evs ++ [.warmupComplete]) { r with phase := .TRACKING }
  | degraded : r.phase = .FAILED → RecoveryStep r [.degradedFrame] r
  | attempt {evs : List Event} {r' : LongGapRecovery} :
      r.phase = .REACQUIRING → AttemptStep o norm accepted r evs r' → RecoveryStep r evs r'
  | trigger {evs : List Event} {r' : LongGapRecovery} :
      r.phase = .TRACKING → AttemptStep o norm accepted r.triggered evs r' →
      RecoveryStep r (.trigger :: evs) r'

end Machine

/-! ## Frames of the callees -/

section Frames

variable {O : Objects} (o : VioManagerOptions) (norm : Vector3d → Binary64)
variable (cb : CameraCallback O)

/-- The pose the relocalizer accepts on this frame, if it does. -/
def acceptedSample : Option LongGapRecoveryPoseSample :=
  match cb.recover with
  | .ok recovery =>
    if recovery.accepted then some ⟨cb.timestamp, recovery.R_GtoI, recovery.p_IinG⟩ else none
  | .error _ => none

def view (m : VioManager O) : LongGapRecovery × List Event := (m.recovery, m.log)

theorem resetFeatureEpoch_keeps_view : Keeps view (resetFeatureEpoch o cb) := by
  intro m
  simp [resetFeatureEpoch, renewAruco, renewZupt, seedTrackers, view]

theorem feedTrackers_keeps_view : Keeps view (feedTrackers cb) := by
  intro m
  simp [feedTrackers, view]

theorem finishInitThread_keeps_view (outcome : InitOutcome O) :
    Keeps view (finishInitThread outcome) := by
  intro m
  cases outcome <;> simp [finishInitThread, view]

theorem propagate_keeps_view : Keeps view (propagate cb) := by
  intro m
  simp [propagate, view]

theorem updateWithFeatures_keeps_view : Keeps view (updateWithFeatures cb) := by
  intro m
  simp [updateWithFeatures, view]

theorem trimAfterZupt_keeps_view (zupt : O.ZeroVelocity) : Keeps view (trimAfterZupt cb zupt) := by
  intro m
  simp [trimAfterZupt, view]

/-! ## The callback refines the machine -/

/-- `x` returns with the view that `P` relates to the present one. -/
def Moves (x : EStateM Exn (VioManager O) PUnit) (m : VioManager O)
    (P : List Event → LongGapRecovery → Prop) : Prop :=
  wp x (fun _ m' => ∃ evs r', P evs r' ∧ view m' = (r', m.log ++ evs)) (fun _ _ => True) m

theorem commitLongGapRecovery_moves (R_GtoI : Matrix3d) (p_IinG : Vector3d) (m : VioManager O) :
    Moves (commitLongGapRecovery o cb R_GtoI p_IinG) m
      (fun evs r' => evs = [.relocalizationCommit] ∧ r' = m.recovery.committed) := by
  simp only [Moves, commitLongGapRecovery, emit, wp_bind, wp_get, wp_liftExcept, wp_modify,
    implies_true, and_true]
  intro recovered _ propagator _ propagator' _ _ _
  refine (resetFeatureEpoch_keeps_view o cb).wp (fun _ m' hm' => ?_) (fun _ _ _ => trivial)
  obtain ⟨hr, hl⟩ := Prod.mk.inj hm'
  refine ⟨_, _, ⟨rfl, rfl⟩, ?_⟩
  simp only [view, hr, hl]
  rfl

theorem failIfExhausted_moves (m : VioManager O) :
    Moves (failIfExhausted o) m (Settles o m.recovery) := by
  simp only [Moves, failIfExhausted, modifyRecovery, emit, wp_bind, wp_get, wp_onlyIf, wp_modify,
    decide_eq_true_eq, decide_eq_false_iff_not]
  refine ⟨fun h => ?_, fun h => ?_⟩
  · exact ⟨_, _, .exhausted h, rfl⟩
  · exact ⟨_, _, .retry (by omega), by simp [view]⟩

theorem Moves.prepend {x : EStateM Exn (VioManager O) PUnit} {m m₁ : VioManager O}
    {P P' : List Event → LongGapRecovery → Prop} (h : Moves x m₁ P) (pre : List Event)
    (hlog : m₁.log = m.log ++ pre) (hP : ∀ evs r', P evs r' → P' (pre ++ evs) r') :
    wp x (fun _ m' => ∃ evs r', P' evs r' ∧ view m' = (r', m.log ++ evs)) (fun _ _ => True) m₁ := by
  refine wp_mono h (fun _ m' hm' => ?_) (fun _ _ _ => trivial)
  obtain ⟨evs, r', hevs, hview⟩ := hm'
  exact ⟨pre ++ evs, r', hP evs r' hevs, by rw [hview, hlog, List.append_assoc]⟩

/-- What an attempt does once the sample of its frame is in, or the list is cleared. -/
inductive Decides (r : LongGapRecovery) : List Event → LongGapRecovery → Prop
  | wait {evs : List Event} {r' : LongGapRecovery} :
      (r.consensus.length : Int) < o.longGapRecoveryConsensusFrames →
      Settles o r evs r' → Decides r evs r'
  | scatter {evs : List Event} {r' : LongGapRecovery} :
      o.longGapRecoveryConsensusFrames ≤ (r.consensus.length : Int) →
      consensusPasses norm o r.consensus = false →
      Settles o { r with consensus := [] } evs r' → Decides r (.consensusReject :: evs) r'
  | commit {v : LongGapRecoveryPoseSample} :
      o.longGapRecoveryConsensusFrames ≤ (r.consensus.length : Int) →
      consensusPasses norm o r.consensus = true → r.consensus.getLast? = some v →
      Decides r [.consensusPass, .commitCall v.R_GtoI v.p_IinG, .relocalizationCommit] r.committed

theorem decideConsensus_moves (hframes : 0 < o.longGapRecoveryConsensusFrames)
    (m : VioManager O) (samples : List LongGapRecoveryPoseSample)
    (hsamples : m.recovery.consensus = samples) :
    Moves (decideConsensus o norm cb samples) m (Decides o norm m.recovery) := by
  subst hsamples
  unfold decideConsensus
  split
  case isFalse hfew =>
    exact (failIfExhausted_moves o m).prepend [] (by simp)
      (fun evs r' h => Decides.wait (by omega) h)
  case isTrue hmany =>
    split
    case isTrue hpass =>
      simp only [Moves, commitVerified, emit, wp_onSome, wp_bind, wp_modify]
      refine ⟨fun v hv => ?_, fun hnone => ?_⟩
      · refine (commitLongGapRecovery_moves o cb v.R_GtoI v.p_IinG _).prepend
          [.consensusPass, .commitCall v.R_GtoI v.p_IinG] (by simp) ?_
        rintro evs r' ⟨rfl, rfl⟩
        exact Decides.commit hmany hpass hv
      · rw [List.getLast?_eq_none_iff] at hnone
        rw [hnone] at hmany
        simp at hmany
        omega
    case isFalse hpass =>
      simp only [Moves, emit, modifyRecovery, wp_bind, wp_modify]
      refine (failIfExhausted_moves o _).prepend [.consensusReject] rfl ?_
      intro evs r' h
      exact Decides.scatter hmany (by simpa using hpass) h

theorem processLongGapRecoveryFrame_moves (hframes : 0 < o.longGapRecoveryConsensusFrames)
    (m : VioManager O) (hphase : m.recovery.phase = .REACQUIRING) :
    Moves (processLongGapRecoveryFrame o norm cb) m (AttemptStep o norm (acceptedSample cb) m.recovery) := by
  simp only [Moves, processLongGapRecoveryFrame, wp_bind, wp_get]
  rw [if_neg (by rw [hphase]; decide), if_pos hphase]
  simp only [modifyRecovery, emit, wp_bind, wp_get, wp_modify, wp_liftExcept, implies_true,
    and_true]
  intro recovery hrecover
  unfold collectSample
  split
  case isTrue hacc =>
    have hsample : acceptedSample cb =
        some ⟨cb.timestamp, recovery.R_GtoI, recovery.p_IinG⟩ := by
      simp [acceptedSample, hrecover, hacc]
    simp only [modifyRecovery, emit, wp_bind, wp_modify]
    refine Moves.prepend (decideConsensus_moves o norm cb hframes _ _ ?_)
      [.attempt true, .acceptedPose ⟨cb.timestamp, recovery.R_GtoI, recovery.p_IinG⟩] ?_ ?_
    · rfl
    · simp [hacc]
    have hfin := (recovery.finite hacc).2
    intro evs r' h
    cases h with
    | wait hlen hset => exact AttemptStep.collect hsample hfin (by simpa using hlen) hset
    | scatter hlen hpass hset => exact AttemptStep.scatter hsample hfin (by simpa using hlen) hpass hset
    | commit hlen hpass hlast =>
      simp only [List.getLast?_concat, Option.some.injEq] at hlast
      subst hlast
      exact AttemptStep.commit hsample hfin (by simpa using hlen) hpass
  case isFalse hacc =>
    simp only [modifyRecovery, wp_modify]
    have hsample : acceptedSample cb = none := by simp [acceptedSample, hrecover, hacc]
    refine Moves.prepend (decideConsensus_moves o norm cb hframes _ _ ?_) [.attempt false] ?_ ?_
    · rfl
    · simp [hacc]
    intro evs r' h
    cases h with
    | wait _ hset => exact AttemptStep.reject hsample hset
    | scatter hlen _ _ =>
      simp at hlen
      omega
    | commit hlen _ _ =>
      simp at hlen
      omega

/-! ### Ordinary processing -/

/-- The recovery fields are as they were, and only ordinary events were added. -/
def OrdinaryView (m m' : VioManager O) : Prop :=
  ∃ evs, evs.all Event.isOrdinary = true ∧ view m' = (m.recovery, m.log ++ evs)

variable {m m' : VioManager O}

theorem OrdinaryView.of_view_eq (h : view m' = view m) :
    OrdinaryView m m' := ⟨[], rfl, by rw [h]; simp [view]⟩

theorem OrdinaryView.of_view_eq_emit {e : Event}
    (he : e.isOrdinary = true) (h : view m' = (m.recovery, m.log ++ [e])) : OrdinaryView m m' :=
  ⟨[e], by simp [he], h⟩

theorem OrdinaryView.trans {m₁ m₂ m₃ : VioManager O} (h : OrdinaryView m₁ m₂)
    (h' : OrdinaryView m₂ m₃) : OrdinaryView m₁ m₃ := by
  obtain ⟨evs, hall, hview⟩ := h
  obtain ⟨evs', hall', hview'⟩ := h'
  obtain ⟨hr, hl⟩ := Prod.mk.inj hview
  refine ⟨evs ++ evs', by rw [List.all_append, hall, hall']; rfl, ?_⟩
  rw [hview', hr, hl, List.append_assoc]

theorem initializeIfDue_keeps_view : Keeps view (initializeIfDue o cb) := by
  intro m
  simp only [initializeIfDue, tryToInitialize, wp_bind, wp_get, wp_onlyIf, wp_ite, wp_modify,
    wp_pure, wp_liftExcept]
  refine ⟨fun _ => ⟨fun _ => rfl, fun _ => ⟨fun _ => rfl, fun _ => ⟨fun _ => ⟨?_, fun _ _ => rfl⟩,
    fun _ => rfl⟩⟩⟩, fun _ => trivial⟩
  intro outcome _
  exact (finishInitThread_keeps_view outcome).wp (fun _ _ h => h) (fun _ _ h => h)

theorem zeroVelocity_ordinary (m : VioManager O) :
    wp (zeroVelocity o cb) (fun _ m' => OrdinaryView m m') (fun _ _ => True) m := by
  simp only [zeroVelocity, wp_bind, wp_get]
  split
  · exact .of_view_eq rfl
  · rename_i zupt _
    simp only [emit, wp_ite, wp_bind, wp_get, wp_modify, wp_onlyIf, wp_liftExcept, wp_pure,
      implies_true, and_true]
    refine ⟨fun _ => ⟨fun _ r _ => ⟨fun _ => ?_, fun _ => ?_⟩, fun _ => ⟨fun _ => ?_, fun _ => ?_⟩⟩,
      fun _ => .of_view_eq rfl⟩
    · exact (trimAfterZupt_keeps_view cb zupt).wp
        (fun _ _ h => .of_view_eq_emit rfl h) (fun _ _ _ => trivial)
    · exact .of_view_eq_emit rfl rfl
    · exact (trimAfterZupt_keeps_view cb zupt).wp
        (fun _ _ h => .of_view_eq_emit rfl h) (fun _ _ _ => trivial)
    · exact .of_view_eq_emit rfl rfl

theorem doFeaturePropagateUpdate_ordinary (m : VioManager O) :
    wp (doFeaturePropagateUpdate o cb) (fun _ m' => OrdinaryView m m') (fun _ _ => True) m := by
  simp only [doFeaturePropagateUpdate, emit, wp_bind, wp_modify, wp_get, wp_ite, wp_pure,
    wp_onlyIf]
  refine ⟨fun _ => .of_view_eq_emit rfl rfl, fun _ => ?_⟩
  refine (propagate_keeps_view cb).wp (fun _ m' hm' => ⟨fun _ => ?_, fun _ => ?_⟩)
    (fun _ _ _ => trivial)
  · exact (updateWithFeatures_keeps_view cb).wp
      (fun _ _ h => .of_view_eq_emit rfl (h.trans hm')) (fun _ _ _ => trivial)
  · exact .of_view_eq_emit rfl hm'

theorem ordinaryProcessing_moves (m : VioManager O)
    (hphase : m.recovery.phase = .TRACKING ∨ m.recovery.phase = .WARMUP) :
    Moves (ordinaryProcessing o cb) m (RecoveryStep o norm (acceptedSample cb) m.recovery) := by
  have hstay : ∀ m', OrdinaryView m m' →
      ∃ evs r', RecoveryStep o norm (acceptedSample cb) m.recovery evs r' ∧ view m' = (r', m.log ++ evs) := by
    rintro m' ⟨evs, hall, hview⟩
    exact ⟨evs, m.recovery, RecoveryStep.ordinary hphase hall, hview⟩
  simp only [Moves, ordinaryProcessing, wp_bind, wp_onlyIf, wp_get]
  refine wp_mono (zeroVelocity_ordinary o cb m) (fun ended m₁ h₁ => ⟨fun _ => ?_, fun _ => ?_⟩)
    (fun _ _ _ => trivial)
  · refine (initializeIfDue_keeps_view o cb).wp (fun _ m₂ h₂ => ⟨fun _ => ?_, fun _ => ?_⟩)
      (fun _ _ _ => trivial)
    · have hm₂ : OrdinaryView m m₂ := h₁.trans (.of_view_eq h₂)
      refine wp_mono (doFeaturePropagateUpdate_ordinary o cb m₂) (fun _ m₃ h₃ => ?_)
        (fun _ _ _ => trivial)
      obtain ⟨evs, hall, hview⟩ := hm₂.trans h₃
      obtain ⟨hr, hl⟩ := Prod.mk.inj hview
      simp only [completeWarmup, modifyRecovery, emit, wp_bind, wp_get, wp_onlyIf, wp_modify]
      refine ⟨fun hwarm => ?_, fun _ => hstay m₃ ⟨evs, hall, hview⟩⟩
      have hwarmup : m.recovery.phase = .WARMUP := by
        rw [← hr]
        simp only [Bool.and_eq_true, beq_iff_eq] at hwarm
        exact hwarm.1.1.2
      refine ⟨_, _, RecoveryStep.warmupComplete hwarmup hall, ?_⟩
      simp only [view, hr, hl, List.append_assoc]
    · exact hstay m₂ (h₁.trans (.of_view_eq h₂))
  · exact hstay m₁ h₁

/-! ### The whole callback -/

theorem view_callbackBegin (m : VioManager O) : view (callbackBegin cb m) = view m := by
  refine (wp_iff_finalState (P := fun m' => view m' = view m)).mp ?_
  simp only [joinInitThread, wp_bind, wp_get, wp_onSome, wp_onlyIf]
  exact ⟨fun outcome _ => ⟨fun _ => finishInitThread_keeps_view outcome m, fun _ => trivial⟩,
    fun _ => trivial⟩

theorem processLongGapRecoveryFrame_degraded (m : VioManager O)
    (hphase : m.recovery.phase = .FAILED) :
    Moves (processLongGapRecoveryFrame o norm cb) m (RecoveryStep o norm (acceptedSample cb) m.recovery) := by
  simp only [Moves, processLongGapRecoveryFrame, wp_bind, wp_get]
  rw [if_pos hphase]
  exact ⟨_, _, RecoveryStep.degraded hphase, rfl⟩

theorem trackImageAndUpdate_triggers (henabled : o.longGapRecoveryEnabled = true)
    (hframes : 0 < o.longGapRecoveryConsensusFrames) (m : VioManager O)
    (hgap : longGap o cb m = true) :
    Moves (trackImageAndUpdate o norm cb) m (fun evs r' => ∃ evs', evs = .trigger :: evs' ∧
      AttemptStep o norm (acceptedSample cb) m.recovery.triggered evs' r') := by
  simp only [Moves, trackImageAndUpdate, modifyRecovery, emit, wp_bind, wp_get, wp_onlyIf,
    wp_modify, henabled, Bool.true_and]
  refine ⟨fun _ => ?_, fun hno => absurd hgap (by simp [hno])⟩
  refine (feedTrackers_keeps_view cb).wp (fun _ m₁ h₁ => ?_) (fun _ _ _ => trivial)
  obtain ⟨hr, hl⟩ := Prod.mk.inj h₁
  have hphase : m₁.recovery.phase = .REACQUIRING := by rw [hr]; rfl
  rw [if_pos (by rw [hphase]; rfl)]
  refine Moves.prepend (processLongGapRecoveryFrame_moves o norm cb hframes m₁ hphase)
    [.trigger] hl ?_
  intro evs r' h
  rw [hr] at h
  exact ⟨evs, rfl, h⟩

theorem trackImageAndUpdate_moves (henabled : o.longGapRecoveryEnabled = true)
    (hframes : 0 < o.longGapRecoveryConsensusFrames) (m : VioManager O) :
    Moves (trackImageAndUpdate o norm cb) m
      (RecoveryStep o norm (acceptedSample cb) m.recovery) := by
  by_cases hgap : longGap o cb m = true
  · have htrack : m.recovery.phase = .TRACKING := by
      simp only [longGap, Bool.and_eq_true, beq_iff_eq] at hgap
      exact hgap.1.1.2
    refine .prepend (trackImageAndUpdate_triggers o norm cb henabled hframes m hgap) []
      (by simp) ?_
    rintro evs r' ⟨evs', rfl, h⟩
    exact RecoveryStep.trigger htrack h
  · simp only [Moves, trackImageAndUpdate, modifyRecovery, emit, wp_bind, wp_get, wp_onlyIf,
      wp_modify, henabled, Bool.true_and]
    refine ⟨fun h => absurd h hgap, fun _ => ?_⟩
    refine (feedTrackers_keeps_view cb).wp (fun _ m₁ h₁ => ?_) (fun _ _ _ => trivial)
    obtain ⟨hr, hl⟩ := Prod.mk.inj h₁
    rw [← hr, ← hl]
    cases hphase : m₁.recovery.phase with
    | REACQUIRING =>
      rw [if_pos (by rfl)]
      exact wp_mono (processLongGapRecoveryFrame_moves o norm cb hframes m₁ hphase)
        (fun _ _ hmoved => by
          obtain ⟨evs, r', h, hview⟩ := hmoved
          exact ⟨evs, r', RecoveryStep.attempt hphase h, hview⟩)
        (fun _ _ h => h)
    | FAILED =>
      rw [if_pos (by rfl)]
      exact processLongGapRecoveryFrame_degraded o norm cb m₁ hphase
    | TRACKING =>
      rw [if_neg (by decide)]
      exact ordinaryProcessing_moves o norm cb m₁ (.inl hphase)
    | WARMUP =>
      rw [if_neg (by decide)]
      exact ordinaryProcessing_moves o norm cb m₁ (.inr hphase)

theorem events_of_moves {P : List Event → LongGapRecovery → Prop}
    (hmoves : Moves (trackImageAndUpdate o norm cb) (callbackBegin cb m) P)
    (h : Step o norm m cb m') : P (events ⟨m, cb, m'⟩) m'.recovery := by
  obtain ⟨-, hl⟩ := Prod.mk.inj (view_callbackBegin cb m)
  rw [Moves, wp_of_ok h, hl] at hmoves
  obtain ⟨evs, r', hstep, hview⟩ := hmoves
  obtain ⟨hr', hl'⟩ := Prod.mk.inj hview
  have hevs : events ⟨m, cb, m'⟩ = evs := by
    show m'.log.drop m.log.length = evs
    rw [hl', List.drop_left]
  rw [hevs, hr']
  exact hstep

/-- **Every callback that returns is a step of the machine**, and its events are the labels. -/
theorem step_refines (henabled : o.longGapRecoveryEnabled = true)
    (hframes : 0 < o.longGapRecoveryConsensusFrames) (h : Step o norm m cb m') :
    RecoveryStep o norm (acceptedSample cb) m.recovery (events ⟨m, cb, m'⟩) m'.recovery := by
  obtain ⟨hr, -⟩ := Prod.mk.inj (view_callbackBegin cb m)
  rw [← hr]
  exact events_of_moves o norm cb (trackImageAndUpdate_moves o norm cb henabled hframes _) h

theorem step_triggers (henabled : o.longGapRecoveryEnabled = true)
    (hframes : 0 < o.longGapRecoveryConsensusFrames)
    (h : Step o norm m cb m') (hgap : longGap o cb (callbackBegin cb m) = true) :
    ∃ evs, events ⟨m, cb, m'⟩ = .trigger :: evs ∧
      AttemptStep o norm (acceptedSample cb) m.recovery.triggered evs m'.recovery := by
  obtain ⟨hr, -⟩ := Prod.mk.inj (view_callbackBegin cb m)
  rw [← hr]
  exact events_of_moves o norm cb
    (trackImageAndUpdate_triggers o norm cb henabled hframes _ hgap) h

end Frames

end Bravo.Recovery
