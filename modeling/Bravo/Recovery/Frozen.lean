import Bravo.Recovery.Imu
import Bravo.Recovery.Machine

/-! # The live state is frozen while recovering

Between the trigger and the commit, and for good once the recovery has failed, the callbacks and the
inertial feed only read the state: the trackers are the only objects a callback writes, and a feed
writes buffers.

Exceptions are included: what is said of a callback holds in the state it leaves, however it ends.
-/

namespace Bravo.Recovery

variable {O : Objects} (o : VioManagerOptions) (norm : Vector3d → Binary64)

/-! ## Steering

The initialization thread and the recovery do not meet: outside tracking the manager is initialized,
and an initialized manager has no such thread. -/

def steering (m : VioManager O) : Bool × Bool × LongGapRecoveryPhase :=
  (m.isInitializedVio, m.threadInitRunning, m.recovery.phase)

structure Steady (m : VioManager O) : Prop where
  joined : m.isInitializedVio = true → m.threadInitRunning = false
  initialized : m.recovery.phase ≠ .TRACKING → m.isInitializedVio = true

theorem Steady.of_steering {m m' : VioManager O} (h : Steady m) (heq : steering m' = steering m) :
    Steady m' := by
  obtain ⟨hinit, hrest⟩ := Prod.mk.inj heq
  obtain ⟨hrunning, hphase⟩ := Prod.mk.inj hrest
  refine ⟨?_, ?_⟩
  · rw [hinit, hrunning]
    exact h.joined
  · rw [hinit, hphase]
    exact h.initialized

section Steering

variable (cb : CameraCallback O)

theorem keeps_steering_feedTrackers : Keeps steering (feedTrackers cb) := by
  intro m
  simp [feedTrackers, steering]

theorem keeps_steering_propagate : Keeps steering (propagate cb) := by
  intro m
  simp [propagate, steering]

theorem keeps_steering_updateWithFeatures : Keeps steering (updateWithFeatures cb) := by
  intro m
  simp [updateWithFeatures, steering]

theorem keeps_steering_trimAfterZupt (zupt : O.ZeroVelocity) :
    Keeps steering (trimAfterZupt cb zupt) := by
  intro m
  simp [trimAfterZupt, steering]

theorem keeps_steering_resetFeatureEpoch : Keeps steering (resetFeatureEpoch o cb) := by
  intro m
  simp [resetFeatureEpoch, renewAruco, renewZupt, seedTrackers, steering]

theorem keeps_steering_doFeaturePropagateUpdate : Keeps steering (doFeaturePropagateUpdate o cb) := by
  refine .bind (.of_modify fun _ => rfl) fun _ => .of_get fun m => ?_
  refine .ite (.of_pure _) (.bind (keeps_steering_propagate cb) fun _ => ?_)
  exact .of_get fun m => .of_onlyIf (keeps_steering_updateWithFeatures cb)

theorem keeps_steering_zeroVelocity : Keeps steering (zeroVelocity o cb) := by
  refine .of_get fun m => ?_
  split
  · exact .of_pure _
  · refine .ite ?_ (.of_pure _)
    refine .bind (.of_modify fun _ => rfl) fun _ => .bind ?_ fun _ => ?_
    · refine .of_onlyIf (fun m => ?_)
      simp [steering]
    · refine .of_get fun m => ?_
      exact .bind (.of_onlyIf (keeps_steering_trimAfterZupt cb _)) fun _ => .of_pure _

theorem preserves_steady_finishInitThread (outcome : InitOutcome O) :
    Preserves Steady (finishInitThread outcome) := by
  intro m hm
  cases outcome with
  | failure => exact ⟨fun _ => rfl, hm.initialized⟩
  | success state propagator trackFEATS trackARUCO timestamp moving =>
    exact ⟨fun _ => rfl, hm.initialized⟩

theorem preserves_steady_initializeIfDue : Preserves Steady (initializeIfDue o cb) := by
  intro m hm
  simp only [initializeIfDue, wp_bind, wp_get, wp_onlyIf]
  refine ⟨fun hinit => ?_, fun _ => hm⟩
  have hinit : m.isInitializedVio = false := by simpa using hinit
  have htracking : m.recovery.phase = .TRACKING := by
    by_contra hphase
    rw [hm.initialized hphase] at hinit
    cases hinit
  have hidle : ∀ m' : VioManager O, m'.recovery.phase = .TRACKING → m'.isInitializedVio = false →
      Steady m' := by
    intro m' hphase hfalse
    refine ⟨fun htrue => ?_, fun hne => absurd hphase hne⟩
    rw [hfalse] at htrue
    cases htrue
  simp only [tryToInitialize, wp_bind, wp_get, wp_ite, wp_modify, wp_pure, wp_onlyIf, wp_liftExcept]
  refine ⟨fun _ => hidle _ htracking rfl, fun hrunning => ⟨fun _ => ?_, fun _ => ⟨fun _ => ?_, fun _ => ?_⟩⟩⟩
  · exact ⟨fun _ => eq_false_of_ne_true hrunning, fun hne => absurd htracking hne⟩
  · refine ⟨fun outcome _ => ?_, fun _ _ => hidle _ htracking hinit⟩
    cases outcome with
    | failure => exact hidle _ htracking rfl
    | success state propagator trackFEATS trackARUCO timestamp moving => exact hidle _ htracking rfl
  · exact hidle _ htracking rfl

theorem preserves_steady_completeWarmup : Preserves Steady (completeWarmup o cb) := by
  intro m hm
  simp only [completeWarmup, modifyRecovery, emit, wp_bind, wp_get, wp_onlyIf, wp_modify]
  exact ⟨fun _ => ⟨hm.joined, fun hne => absurd rfl hne⟩, fun _ => hm⟩

theorem preserves_steady_ordinaryProcessing : Preserves Steady (ordinaryProcessing o cb) := by
  have hsteady : ∀ {s t : VioManager O}, steering t = steering s → Steady s → Steady t :=
    fun h hs => hs.of_steering h
  refine .bind (.of_keeps (keeps_steering_zeroVelocity o cb) hsteady) fun ended => ?_
  refine .of_onlyIf (.bind (preserves_steady_initializeIfDue o cb) fun _ => ?_)
  refine .of_get fun m => .of_onlyIf ?_
  refine .bind (.of_keeps (keeps_steering_doFeaturePropagateUpdate o cb) hsteady) ?_
  exact fun _ => preserves_steady_completeWarmup o cb

/-! ### The recovery attempt -/

def Settled (m : VioManager O) : Prop := m.isInitializedVio = true ∧ m.threadInitRunning = false

theorem Settled.steady {m : VioManager O} (h : Settled m) : Steady m := ⟨fun _ => h.2, fun _ => h.1⟩

theorem Steady.settled {m : VioManager O} (h : Steady m) (hphase : m.recovery.phase ≠ .TRACKING) :
    Settled m :=
  ⟨h.initialized hphase, h.joined (h.initialized hphase)⟩

theorem Settled.of_steering {m m' : VioManager O} (heq : steering m' = steering m) (h : Settled m) :
    Settled m' := by
  obtain ⟨hinit, hrest⟩ := Prod.mk.inj heq
  obtain ⟨hrunning, -⟩ := Prod.mk.inj hrest
  exact ⟨hinit.trans h.1, hrunning.trans h.2⟩

theorem preserves_settled_modifyRecovery (f : LongGapRecovery → LongGapRecovery) :
    Preserves (Settled (O := O)) (modifyRecovery f) :=
  .of_modify fun _ hm => hm

theorem preserves_settled_emit (e : Event) : Preserves (Settled (O := O)) (emit e) :=
  .of_modify fun _ hm => hm

theorem preserves_settled_commit (R_GtoI : Matrix3d) (p_IinG : Vector3d) :
    Preserves Settled (commitLongGapRecovery o cb R_GtoI p_IinG) := by
  have hmodify : ∀ {f : VioManager O → VioManager O},
      (∀ m, (f m).threadInitRunning = m.threadInitRunning) →
      (∀ m, m.isInitializedVio = true → (f m).isInitializedVio = true) →
      Preserves Settled (modify f : EStateM Exn (VioManager O) PUnit) :=
    fun hrunning hinit m hm => ⟨hinit m hm.1, (hrunning m).trans hm.2⟩
  refine .of_get fun m => .of_lift fun recovered => ?_
  refine .bind (hmodify (fun _ => rfl) fun _ h => h) fun _ => ?_
  refine .of_get fun m => .of_lift fun propagator => ?_
  refine .bind (hmodify (fun _ => rfl) fun _ h => h) fun _ => ?_
  refine .of_get fun m => .of_get fun m => .of_lift fun propagator => ?_
  refine .bind (hmodify (fun _ => rfl) fun _ h => h) fun _ => ?_
  refine .bind (hmodify (fun _ => rfl) fun _ _ => rfl) fun _ => ?_
  refine .of_lift fun _ => .bind (hmodify (fun _ => rfl) fun _ h => h) fun _ => ?_
  refine .bind (.of_keeps (keeps_steering_resetFeatureEpoch o cb)
    .of_steering) fun _ => ?_
  refine .bind (hmodify (fun _ => rfl) fun _ h => h) fun _ => ?_
  exact preserves_settled_emit _

theorem preserves_settled_failIfExhausted : Preserves (Settled (O := O)) (failIfExhausted o) := by
  refine .of_get fun m => .of_onlyIf ?_
  exact .bind (preserves_settled_modifyRecovery _) fun _ => preserves_settled_emit _

theorem preserves_settled_decideConsensus (samples : List LongGapRecoveryPoseSample) :
    Preserves Settled (decideConsensus o norm cb samples) := by
  refine .ite (.ite ?_ ?_) (preserves_settled_failIfExhausted o)
  · refine .of_onSome fun verified => ?_
    refine .bind (preserves_settled_emit _) fun _ => ?_
    refine .bind (preserves_settled_emit _) fun _ => ?_
    exact preserves_settled_commit o cb _ _
  · refine .bind (preserves_settled_emit _) fun _ => ?_
    refine .bind (preserves_settled_modifyRecovery _) fun _ => ?_
    exact preserves_settled_failIfExhausted o

theorem preserves_settled_processLongGapRecoveryFrame :
    Preserves Settled (processLongGapRecoveryFrame o norm cb) := by
  refine .of_get fun m => .ite (preserves_settled_emit _) (.ite ?_ ?_)
  · refine .bind (preserves_settled_modifyRecovery _) fun _ => ?_
    refine .of_lift fun recovery => ?_
    refine .bind (preserves_settled_emit _) fun _ => ?_
    refine .bind (.ite ?_ (preserves_settled_modifyRecovery _)) fun _ => ?_
    · exact .bind (preserves_settled_modifyRecovery _) fun _ => preserves_settled_emit _
    · exact .of_get fun m => preserves_settled_decideConsensus o norm cb _
  · exact .of_pure _

/-! ### A whole callback -/

theorem preserves_steady_joinInitThread : Preserves Steady (joinInitThread cb) := by
  refine .of_get fun m => .of_onSome fun outcome => ?_
  exact .of_onlyIf (preserves_steady_finishInitThread outcome)

theorem preserves_steady_trackImageAndUpdate :
    Preserves Steady (trackImageAndUpdate o norm cb) := by
  have hfeed : Preserves Steady (feedTrackers cb) :=
    .of_keeps (keeps_steering_feedTrackers cb) fun h hs => hs.of_steering h
  have hrest : Preserves Steady (do
      feedTrackers cb
      let m ← get
      if o.longGapRecoveryEnabled &&
          (m.recovery.phase == .REACQUIRING || m.recovery.phase == .FAILED) then
        processLongGapRecoveryFrame o norm cb
      else
        ordinaryProcessing o cb) := by
    refine .bind hfeed fun _ m hm => ?_
    rw [wp_bind, wp_get, wp_ite]
    refine ⟨fun hphase => ?_, fun _ => preserves_steady_ordinaryProcessing o cb m hm⟩
    have hne : m.recovery.phase ≠ .TRACKING := by
      intro htracking
      rw [htracking] at hphase
      simp at hphase
    exact wp_mono (preserves_settled_processLongGapRecoveryFrame o norm cb m (hm.settled hne))
      (fun _ _ h => h.steady) (fun _ _ h => h.steady)
  intro m hm
  unfold trackImageAndUpdate
  rw [wp_bind, wp_get, wp_bind, wp_onlyIf]
  refine ⟨fun hgap => ?_, fun _ => hrest m hm⟩
  have hinit : m.isInitializedVio = true := by
    simp only [longGap, Bool.and_eq_true] at hgap
    exact hgap.1.1.1.2
  rw [wp_bind, modifyRecovery, wp_modify, emit, wp_modify]
  exact hrest _ ⟨hm.joined, fun _ => hinit⟩

end Steering

/-! ## Callbacks while recovering -/

section Recovering

variable (cb : CameraCallback O)

/-- Between the trigger and the commit, or after the last attempt. -/
def Recovering (m : VioManager O) : Prop :=
  m.recovery.phase = .REACQUIRING ∨ m.recovery.phase = .FAILED

variable {m : VioManager O}

theorem Recovering.ne_tracking (h : Recovering m) : m.recovery.phase ≠ .TRACKING := by
  rcases h with h | h
  · rw [h]
    decide
  · rw [h]
    decide

/-- The state object and the fields next to it that ordinary processing writes. -/
structure LiveState (O : Objects) (Cache : Type) where
  state : Shared (FilterState O)
  isInitializedVio : Bool
  timelastupdate : Binary64
  didZuptUpdate : Bool
  propagation : Cache

def still (m : VioManager O) : LiveState O O.Propagator :=
  ⟨m.state, m.isInitializedVio, m.timelastupdate, m.didZuptUpdate, m.propagator⟩

def Event.isCommitCall : Event → Bool
  | .commitCall _ _ => true
  | _ => false

/-- A commit was called after the events `log`. -/
def CommitCalled (log : List Event) (m : VioManager O) : Prop :=
  ∃ evs, m.log = log ++ evs ∧ evs.any Event.isCommitCall = true

theorem CommitCalled.of_log_eq {log : List Event} {m m' : VioManager O} (heq : m'.log = m.log)
    (h : CommitCalled log m) : CommitCalled log m' := by
  obtain ⟨evs, hlog, hcall⟩ := h
  exact ⟨evs, heq.trans hlog, hcall⟩

theorem preserves_commitCalled_emit (log : List Event) (e : Event) :
    Preserves (CommitCalled (O := O) log) (emit e) := by
  refine .of_modify fun m hm => ?_
  obtain ⟨evs, hlog, hcall⟩ := hm
  refine ⟨evs ++ [e], ?_, by rw [List.any_append, hcall, Bool.true_or]⟩
  show m.log ++ [e] = log ++ (evs ++ [e])
  rw [hlog, List.append_assoc]

theorem preserves_commitCalled_commit (log : List Event) (R_GtoI : Matrix3d) (p_IinG : Vector3d) :
    Preserves (CommitCalled log) (commitLongGapRecovery o cb R_GtoI p_IinG) := by
  have hmodify : ∀ {f : VioManager O → VioManager O}, (∀ m, (f m).log = m.log) →
      Preserves (CommitCalled log) (modify f : EStateM Exn (VioManager O) PUnit) :=
    fun hf m hm => hm.of_log_eq (hf m)
  refine .of_get fun m => .of_lift fun recovered => ?_
  refine .bind (hmodify fun _ => rfl) fun _ => ?_
  refine .of_get fun m => .of_lift fun propagator => ?_
  refine .bind (hmodify fun _ => rfl) fun _ => ?_
  refine .of_get fun m => .of_get fun m => .of_lift fun propagator => ?_
  refine .bind (hmodify fun _ => rfl) fun _ => ?_
  refine .bind (hmodify fun _ => rfl) fun _ => ?_
  refine .of_lift fun _ => .bind (hmodify fun _ => rfl) fun _ => ?_
  refine .bind (.of_keeps (resetFeatureEpoch_keeps_view o cb)
    fun h hs => hs.of_log_eq (Prod.mk.inj h).2) fun _ => ?_
  refine .bind (hmodify fun _ => rfl) fun _ => ?_
  exact preserves_commitCalled_emit log _

/-- What a callback of a recovering manager `m` leaves behind: a commit was called, or the live state
is as it was and the manager still recovers. -/
def CommitsOrHolds (m m' : VioManager O) : Prop :=
  CommitCalled m.log m' ∨ (still m' = still m ∧ Recovering m')

theorem failIfExhausted_holds {m m₁ : VioManager O} (hstill : still m₁ = still m)
    (hphase : Recovering m₁) :
    wp (failIfExhausted o) (fun _ m' => CommitsOrHolds m m') (fun _ m' => CommitsOrHolds m m') m₁ := by
  simp only [failIfExhausted, modifyRecovery, emit, wp_bind, wp_get, wp_onlyIf, wp_modify]
  exact ⟨fun _ => .inr ⟨hstill, .inr rfl⟩, fun _ => .inr ⟨hstill, hphase⟩⟩

theorem decideConsensus_holds {m m₁ : VioManager O} (evs : List Event)
    (samples : List LongGapRecoveryPoseSample) (hstill : still m₁ = still m)
    (hphase : Recovering m₁) (hlog : m₁.log = m.log ++ evs) :
    wp (decideConsensus o norm cb samples) (fun _ m' => CommitsOrHolds m m')
      (fun _ m' => CommitsOrHolds m m') m₁ := by
  unfold decideConsensus
  rw [wp_ite]
  refine ⟨fun _ => ?_, fun _ => failIfExhausted_holds o hstill hphase⟩
  rw [wp_ite]
  refine ⟨fun _ => ?_, fun _ => ?_⟩
  · -- the call is announced before the commit begins
    simp only [commitVerified, emit, wp_onSome, wp_bind, wp_modify]
    refine ⟨fun verified _ => ?_, fun _ => .inr ⟨hstill, hphase⟩⟩
    have hcalled : CommitCalled m.log ({ m₁ with
        log := m₁.log ++ [.consensusPass] ++ [.commitCall verified.R_GtoI verified.p_IinG] } :
          VioManager O) := by
      refine ⟨evs ++ [.consensusPass, .commitCall verified.R_GtoI verified.p_IinG], ?_,
        by simp [Event.isCommitCall]⟩
      show m₁.log ++ [.consensusPass] ++ [.commitCall verified.R_GtoI verified.p_IinG] = _
      rw [hlog, List.append_assoc, List.append_assoc]
      rfl
    exact wp_mono (preserves_commitCalled_commit o cb m.log _ _ _ hcalled)
      (fun _ _ h => .inl h) (fun _ _ h => .inl h)
  · simp only [emit, modifyRecovery, wp_bind, wp_modify]
    exact failIfExhausted_holds o hstill hphase

/-- **An attempt only reads the live state until it commits.** -/
theorem processLongGapRecoveryFrame_holds {m m₁ : VioManager O} (hstill : still m₁ = still m)
    (hlog : m₁.log = m.log) (hphase : Recovering m₁) :
    wp (processLongGapRecoveryFrame o norm cb) (fun _ m' => CommitsOrHolds m m')
      (fun _ m' => CommitsOrHolds m m') m₁ := by
  simp only [processLongGapRecoveryFrame, wp_bind, wp_get, wp_ite]
  refine ⟨fun _ => .inr ⟨hstill, hphase⟩, fun hfailed => ⟨fun hreacquiring => ?_, fun hother => ?_⟩⟩
  · simp only [modifyRecovery, emit, wp_modify, wp_liftExcept]
    refine ⟨fun recovery _ => ?_, fun _ _ => .inr ⟨hstill, hphase⟩⟩
    unfold collectSample
    rw [wp_ite]
    refine ⟨fun _ => ?_, fun _ => ?_⟩
    · simp only [modifyRecovery, emit, wp_bind, wp_modify]
      refine decideConsensus_holds o norm cb [.attempt recovery.accepted,
          .acceptedPose ⟨cb.timestamp, recovery.R_GtoI, recovery.p_IinG⟩] _ ?_ ?_ ?_
      · exact hstill
      · exact hphase
      · show m₁.log ++ [.attempt recovery.accepted] ++ _ = _
        rw [hlog, List.append_assoc]
        rfl
    · simp only [modifyRecovery, wp_modify]
      refine decideConsensus_holds o norm cb [.attempt recovery.accepted] _ ?_ ?_ ?_
      · exact hstill
      · exact hphase
      · show m₁.log ++ [.attempt recovery.accepted] = _
        rw [hlog]
  · exact absurd (hphase.resolve_right hfailed) hother

theorem keeps_still_feedTrackers :
    Keeps (fun m : VioManager O => (still m, view m)) (feedTrackers cb) := by
  intro m
  simp [feedTrackers, still, view]

theorem longGap_eq_false (hphase : Recovering m) : longGap o cb m = false := by
  have hne : (m.recovery.phase == .TRACKING) = false := by
    rw [beq_eq_false_iff_ne]
    exact hphase.ne_tracking
  simp [longGap, hne]

theorem callbackBegin_of_settled (hm : Settled m) : callbackBegin cb m = m := by
  refine wp_iff_finalState (P := fun m' => m' = m).mp ?_
  simp only [joinInitThread, wp_bind, wp_get, wp_onSome, wp_onlyIf]
  refine ⟨fun outcome _ => ⟨fun hrunning => ?_, fun _ => trivial⟩, fun _ => trivial⟩
  rw [hm.2] at hrunning
  cases hrunning

theorem trackImageAndUpdate_holds (henabled : o.longGapRecoveryEnabled = true)
    (hphase : Recovering m) :
    wp (trackImageAndUpdate o norm cb) (fun _ m' => CommitsOrHolds m m')
      (fun _ m' => CommitsOrHolds m m') m := by
  simp only [trackImageAndUpdate, wp_bind, wp_get, wp_onlyIf, longGap_eq_false o cb hphase]
  refine ⟨fun h => (by cases h), fun _ => ?_⟩
  refine (keeps_still_feedTrackers cb).wp (fun _ m₁ h₁ => ?_) (fun _ m₁ h₁ => ?_)
  · obtain ⟨hstill, hview⟩ := Prod.mk.inj h₁
    obtain ⟨hr, hl⟩ := Prod.mk.inj hview
    have hphase₁ : Recovering m₁ := by rw [Recovering, hr]; exact hphase
    rw [wp_ite]
    refine ⟨fun _ => processLongGapRecoveryFrame_holds o norm cb hstill hl hphase₁, fun hno => ?_⟩
    simp only [henabled, Bool.true_and, Bool.or_eq_true, beq_iff_eq] at hno
    exact absurd hphase₁ hno
  · obtain ⟨hstill, hview⟩ := Prod.mk.inj h₁
    obtain ⟨hr, -⟩ := Prod.mk.inj hview
    exact .inr ⟨hstill, by rw [Recovering, hr]; exact hphase⟩

theorem trackImageAndUpdate_degrades (henabled : o.longGapRecoveryEnabled = true)
    (hphase : m.recovery.phase = .FAILED) :
    wp (trackImageAndUpdate o norm cb)
      (fun _ m' => still m' = still m ∧ m'.recovery.phase = .FAILED)
      (fun _ m' => still m' = still m ∧ m'.recovery.phase = .FAILED) m := by
  simp only [trackImageAndUpdate, wp_bind, wp_get, wp_onlyIf, longGap_eq_false o cb (.inr hphase)]
  refine ⟨fun h => (by cases h), fun _ => ?_⟩
  refine (keeps_still_feedTrackers cb).wp (fun _ m₁ h₁ => ?_) (fun _ m₁ h₁ => ?_)
  · obtain ⟨hstill, hview⟩ := Prod.mk.inj h₁
    obtain ⟨hr, -⟩ := Prod.mk.inj hview
    have hphase₁ : m₁.recovery.phase = .FAILED := by rw [hr]; exact hphase
    rw [wp_ite]
    refine ⟨fun _ => ?_, fun hno => absurd (by rw [henabled, hphase₁]; rfl) hno⟩
    simp only [processLongGapRecoveryFrame, emit, wp_bind, wp_get, wp_ite, wp_modify]
    exact ⟨fun _ => ⟨hstill, hphase₁⟩, fun hno => absurd hphase₁ hno⟩
  · obtain ⟨hstill, hview⟩ := Prod.mk.inj h₁
    obtain ⟨hr, -⟩ := Prod.mk.inj hview
    exact ⟨hstill, by rw [hr]; exact hphase⟩

end Recovering

/-! ## Inputs -/

section Inputs

/-- The live state with the cache of the fast propagation; the buffer of measurements is no part of
it. -/
def liveState (m : VioManager O.withPropagator) :
    LiveState O.withPropagator (PropagationCache O.Matrix) :=
  ⟨m.state, m.isInitializedVio, m.timelastupdate, m.didZuptUpdate, m.propagator.cache⟩

theorem liveState_eq_of_still_eq {m m' : VioManager O.withPropagator} (h : still m' = still m) :
    liveState m' = liveState m := by
  injection h with hstate hinit htime hzupt hpropagator
  rw [liveState, liveState, hstate, hinit, htime, hzupt, hpropagator]

@[simp] theorem cache_cleanOldImuMeasurements {Matrix : Type} (p : Propagator Matrix)
    (oldest : Binary64) : (p.cleanOldImuMeasurements oldest).cache = p.cache := by
  unfold Propagator.cleanOldImuMeasurements
  split <;> rfl

@[simp] theorem cache_feedImu {Matrix : Type} (p : Propagator Matrix) (message : ImuData)
    (oldest : Binary64) : (p.feedImu message oldest).cache = p.cache := by
  rw [Propagator.feedImu, cache_cleanOldImuMeasurements]
  rfl

theorem keeps_feedMeasurementImu (R : Accessors O.withPropagator) (message : ImuData) :
    Keeps (fun m => (liveState m, steering m, m.log)) (feedMeasurementImu o R message) := by
  intro m
  simp [feedMeasurementImu, liveState, steering]

theorem feedMeasurementImu_holds (R : Accessors O.withPropagator) (message : ImuData)
    (m : VioManager O.withPropagator) :
    let m' := finalState ((feedMeasurementImu o R message).run m)
    liveState m' = liveState m ∧ steering m' = steering m := by
  have hkeeps := wp_iff_finalState.mp (keeps_feedMeasurementImu o R message m)
  obtain ⟨hlive, hrest⟩ := Prod.mk.inj hkeeps
  exact ⟨hlive, (Prod.mk.inj hrest).1⟩

def Commits (e : Entry (VioManager O.withPropagator) (Input O)) : Prop :=
  (e.post.log.drop e.pre.log.length).any Event.isCommitCall = true

instance (e : Entry (VioManager O.withPropagator) (Input O)) : Decidable (Commits e) :=
  inferInstanceAs (Decidable (_ = _))

theorem CommitCalled.commits {e : Entry (VioManager O.withPropagator) (Input O)}
    (h : CommitCalled e.pre.log e.post) : Commits e := by
  obtain ⟨evs, hlog, hcall⟩ := h
  rw [Commits, hlog, List.drop_left]
  exact hcall

variable {m m' : VioManager O.withPropagator} {input : Input O}

/-- **Every input leaves a steady manager steady.** -/
theorem LiveStep.steady (h : LiveStep o norm m input m') (hm : Steady m) : Steady m' := by
  subst h
  cases input with
  | camera R cb =>
    have hbegin := (preserves_steady_joinInitThread
      { cb with recover := relocalizeLive R cb m }).finalState hm
    exact (preserves_steady_trackImageAndUpdate o norm
      { cb with recover := relocalizeLive R cb m }).finalState hbegin
  | imu R message =>
    exact hm.of_steering (feedMeasurementImu_holds o R message m).2

theorem LiveStep.holds (henabled : o.longGapRecoveryEnabled = true)
    (h : LiveStep o norm m input m') (hm : Steady m) (hphase : Recovering m) :
    Commits ⟨m, input, m'⟩ ∨ (liveState m' = liveState m ∧ Recovering m') := by
  subst h
  cases input with
  | camera R cb =>
    have hholds := wp_iff_finalState.mp (trackImageAndUpdate_holds o norm
      { cb with recover := relocalizeLive R cb m } henabled hphase)
    rw [handleInput, feedMeasurementCamera,
      callbackBegin_of_settled _ (hm.settled hphase.ne_tracking)]
    rcases hholds with hcalled | ⟨hstill, hphase'⟩
    · exact Or.inl (CommitCalled.commits hcalled)
    · exact .inr ⟨liveState_eq_of_still_eq hstill, hphase'⟩
  | imu R message =>
    obtain ⟨hlive, hsteer⟩ := feedMeasurementImu_holds o R message m
    have hphase' := (Prod.mk.inj (Prod.mk.inj hsteer).2).2
    exact .inr ⟨hlive, by rw [Recovering, handleInput, hphase']; exact hphase⟩

theorem LiveStep.degrades (henabled : o.longGapRecoveryEnabled = true)
    (h : LiveStep o norm m input m') (hm : Steady m) (hphase : m.recovery.phase = .FAILED) :
    liveState m' = liveState m ∧ m'.recovery.phase = .FAILED := by
  subst h
  cases input with
  | camera R cb =>
    obtain ⟨hstill, hphase'⟩ := wp_iff_finalState.mp (trackImageAndUpdate_degrades o norm
      { cb with recover := relocalizeLive R cb m } henabled hphase)
    rw [handleInput, feedMeasurementCamera,
      callbackBegin_of_settled _ (hm.settled (by rw [hphase]; decide))]
    exact ⟨liveState_eq_of_still_eq hstill, hphase'⟩
  | imu R message =>
    obtain ⟨hlive, hsteer⟩ := feedMeasurementImu_holds o R message m
    exact ⟨hlive, ((Prod.mk.inj (Prod.mk.inj hsteer).2).2).trans hphase⟩

/-! ## Runs -/

variable {parts : Parts O.withPropagator} {m₀ s s' : VioManager O.withPropagator}
variable {es es' : List (Entry (VioManager O.withPropagator) (Input O))}

theorem steady_new (hnew : newVioManager o parts = .ok m₀) : Steady m₀ := by
  unfold newVioManager at hnew
  split at hnew
  · cases hnew
  · cases hnew
    exact ⟨fun h => (by cases h), fun h => absurd rfl h⟩

theorem steady_of_run (hnew : newVioManager o parts = .ok m₀) (hrun : Run (LiveStep o norm) m₀ es s) :
    Steady s :=
  hrun.invariant (steady_new o hnew) fun _ _ _ hm h => h.steady o norm hm

theorem run_holds (henabled : o.longGapRecoveryEnabled = true) (hs : Steady s)
    (hphase : Recovering s) (hrun : Run (LiveStep o norm) s es' s')
    (hquiet : ∀ e ∈ es', ¬ Commits e) : liveState s' = liveState s ∧ Recovering s' := by
  suffices hall : Steady s' ∧ ((∀ e ∈ es', ¬ Commits e) → liveState s' = liveState s ∧ Recovering s')
    from hall.2 hquiet
  refine hrun.history (P := fun es t => Steady t ∧
    ((∀ e ∈ es, ¬ Commits e) → liveState t = liveState s ∧ Recovering t)) ⟨hs, fun _ => ⟨rfl, hphase⟩⟩ ?_
  rintro es t input t' ⟨ht, hbefore⟩ hstep
  refine ⟨hstep.steady o norm ht, fun hnone => ?_⟩
  obtain ⟨hlive, hphase⟩ := hbefore fun e he => hnone e (List.mem_append_left _ he)
  rcases hstep.holds o norm henabled ht hphase with hcommits | ⟨hlive', hphase'⟩
  · exact absurd hcommits (hnone _ (by simp))
  · exact ⟨hlive'.trans hlive, hphase'⟩

/-- **The live state is frozen while recovering.** From every reachable state in which the manager
reacquires or has failed, no sequence of camera callbacks and inertial measurements without a commit
changes the live state, and after a failure no sequence at all does. -/
theorem live_state_frozen (henabled : o.longGapRecoveryEnabled = true)
    (hnew : newVioManager o parts = .ok m₀) (hrun : Run (LiveStep o norm) m₀ es s)
    (hphase : Recovering s) (hrun' : Run (LiveStep o norm) s es' s') :
    ((∀ e ∈ es', ¬ Commits e) → liveState s' = liveState s) ∧
      (s.recovery.phase = .FAILED → liveState s' = liveState s ∧ s'.recovery.phase = .FAILED) := by
  have hs := steady_of_run o norm hnew hrun
  refine ⟨fun hquiet => (run_holds o norm henabled hs hphase hrun' hquiet).1, fun hfailed => ?_⟩
  refine (hrun'.invariant (P := fun t => Steady t ∧ liveState t = liveState s ∧
    t.recovery.phase = .FAILED) ⟨hs, rfl, hfailed⟩ ?_).2
  rintro t input t' ⟨ht, hlive, hphase⟩ hstep
  obtain ⟨hlive', hphase'⟩ := hstep.degrades o norm henabled ht hphase
  exact ⟨hstep.steady o norm ht, hlive'.trans hlive, hphase'⟩

end Inputs

/-! ### An outage with a feed -/

section Rest

def playInputs (m : VioManager O.withPropagator) : List (Input O) →
    List (Entry (VioManager O.withPropagator) (Input O)) × VioManager O.withPropagator
  | [] => ([], m)
  | input :: inputs =>
    let m' := finalState (handleInput o norm m input)
    let r := playInputs m' inputs
    (⟨m, input, m'⟩ :: r.1, r.2)

theorem run_playInputs (inputs : List (Input O)) :
    ∀ m : VioManager O.withPropagator,
      Run (LiveStep o norm) m (playInputs o norm m inputs).1 (playInputs o norm m inputs).2 := by
  induction inputs with
  | nil => exact fun m => Run.nil
  | cons input inputs ih => exact fun m => Run.cons rfl (ih _)

def restPropagator : Propagator Unit := ⟨[], true, ⟨0x3ff0000000000000⟩, (), (), ⟨0⟩⟩

/-- `restState`, next to a propagator that is spelled out. -/
def restLiveState (t : Binary64) (clones : Nat) : FilterState restObjects.withPropagator :=
  ⟨t, default, default, clones, ()⟩

def restAccessors : Accessors restObjects.withPropagator where
  calibDt := fun _ => ⟨0⟩
  cloneTimes := fun _ => []
  calibration := fun _ => ⟨default, default, 640, 480, default, default⟩
  correspondences := fun _ _ => []
  imuRot := fun _ => default
  meanRate := fun _ _ _ => default
  rotate := fun _ _ predicted => predicted
  selectImuReadings := fun readings _ _ => readings
  recover := fun _ _ _ => .ok rejectedResult
  feedInitializer := fun initializer _ _ => initializer
  feedZupt := fun zupt _ _ => zupt
  initWindowTime := ⟨0x4000000000000000⟩

/-- `restCallback`, with the same spelled-out propagator. -/
def restLiveCallback (t : Binary64) (clones : Nat) : CameraCallback restObjects.withPropagator where
  timestamp := t
  initThread := none
  feedNewCamera := .ok
  feedNewCameraAruco := .ok
  tryUpdate := fun z s => .ok ⟨false, z, s⟩
  initializeState := .ok (.success (restLiveState t 0) restPropagator () none t false)
  propagateAndClone := fun p _ => .ok (p, restLiveState t clones)
  visualUpdate := fun p s f a => .ok ⟨p, s, f, a⟩
  recover := .ok rejectedResult
  getMarginalCovariance := fun _ => .ok ()
  imuCovarianceUsable := fun _ => true
  makeFreshStateWithCalibration := fun _ => .ok (restLiveState ⟨0xbff0000000000000⟩ 0)
  rot2Quat := fun _ => (Vector3d.zero, ⟨0x3ff0000000000000⟩)
  recoveryCovariance := id
  setInitialCovariance := fun s _ => .ok s
  invalidateCache := .ok
  cleanOldImuMeasurements := fun p _ => .ok p
  cleanOldImuMeasurementsZupt := fun z _ => .ok z
  lockCameraQueue := .ok ()
  makeTracker := fun _ => .ok ()
  makeTrackAruco := fun _ => .ok ()
  makeInitializer := fun _ => .ok ()
  makeUpdaterZUPT := fun _ _ => .ok ()

def restLiveParts : Parts restObjects.withPropagator :=
  ⟨restLiveState ⟨0xbff0000000000000⟩ 0, restPropagator, (), none, (), none⟩

def restLiveManager : VioManager restObjects.withPropagator :=
  { state := ⟨0, restLiveParts.state⟩
    propagator := restPropagator
    trackFEATS := ()
    trackARUCO := none
    initializer := ()
    updaterZUPT := none
    isInitializedVio := false
    cameraQueueInit := []
    timelastupdate := ⟨0xbff0000000000000⟩
    startupTime := ⟨0xbff0000000000000⟩
    threadInitRunning := false
    threadInitSuccess := false
    didZuptUpdate := false
    hasMovedSinceZupt := false
    recovery := ⟨.TRACKING, 0, [], 0, 0, 0, 0⟩
    log := [] }

theorem newVioManager_restLive : newVioManager frozenOptions restLiveParts = .ok restLiveManager := rfl

def outageInputs : List (Input restObjects) :=
  [.camera restAccessors (restLiveCallback ⟨0x3ff0000000000000⟩ 0),
    .camera restAccessors (restLiveCallback ⟨0x3ff4000000000000⟩ 4),
    .camera restAccessors (restLiveCallback ⟨0x4020000000000000⟩ 5)]

def reacquiringInputs : List (Input restObjects) :=
  [.imu restAccessors ⟨⟨0x4020000000000000⟩, Vector3d.zero, Vector3d.zero⟩,
    .camera restAccessors (restLiveCallback ⟨0x4020800000000000⟩ 5)]

/-- The manager after `outageInputs`. -/
def recoveringManager : VioManager restObjects.withPropagator :=
  (playInputs frozenOptions axisNorm restLiveManager outageInputs).2

/-- The feed and the frame after the outage change nothing. -/
theorem live_state_frozen_outage :
    recoveringManager.recovery.phase = .REACQUIRING ∧
      liveState (playInputs frozenOptions axisNorm recoveringManager reacquiringInputs).2 =
        liveState recoveringManager :=
  ⟨by decide +kernel,
    (live_state_frozen frozenOptions axisNorm rfl newVioManager_restLive
      (run_playInputs frozenOptions axisNorm outageInputs restLiveManager)
      (.inl (by decide +kernel))
      (run_playInputs frozenOptions axisNorm reacquiringInputs recoveringManager)).1
      (by decide +kernel)⟩

end Rest

end Bravo.Recovery
