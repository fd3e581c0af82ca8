import Bravo.Recovery.Callback

/-! # Atomicity of the recovery commit

`commit_long_gap_recovery` is announced as an atomic replacement of the stale window. It stages
the new filter state off to the side, but once that state is live the rest of the epoch (caches,
trackers, initializer, zero-velocity updater, first frame) is built in place, and the recovery
fields are written last. The results here say what a throw leaves behind, and that the commit is
atomic exactly when no callee after the swap throws.
-/

namespace Bravo.Recovery

section Atomicity

variable {O : Objects} (o : VioManagerOptions) (cb : CameraCallback O)

/-! ## The covered fields -/

structure Covered (O : Objects) where
  state : Shared (FilterState O)
  trackFEATS : O.Tracker
  trackARUCO : Option O.Tracker
  initializer : O.Initializer
  updaterZUPT : Option O.ZeroVelocity
  startupTime : Binary64
  timelastupdate : Binary64
  isInitializedVio : Bool
  cameraQueueInit : List Binary64
  epochId : UInt64
  commitCount : UInt64
  phase : LongGapRecoveryPhase
  consensus : List LongGapRecoveryPoseSample

variable (m : VioManager O)

def covered : Covered O where
  state := m.state
  trackFEATS := m.trackFEATS
  trackARUCO := m.trackARUCO
  initializer := m.initializer
  updaterZUPT := m.updaterZUPT
  startupTime := m.startupTime
  timelastupdate := m.timelastupdate
  isInitializedVio := m.isInitializedVio
  cameraQueueInit := m.cameraQueueInit
  epochId := m.recovery.epochId
  commitCount := m.recovery.commitCount
  phase := m.recovery.phase
  consensus := m.recovery.consensus

/-! ### What the callees build

Each of these holds of what a callee returns; when it throws, it holds of nothing. -/

/-- An optional part: absent when it is not in use, else built by `make`. -/
def OptionalPart {α : Type} (inUse : Bool) (make : α → Prop) (part : Option α) : Prop :=
  if inUse then ∃ a, make a ∧ part = some a else part = none

theorem optionalPart_true {α : Type} {make : α → Prop} {part : Option α} :
    OptionalPart true make part ↔ ∃ a, make a ∧ part = some a := Iff.rfl

theorem optionalPart_false {α : Type} {make : α → Prop} {part : Option α} :
    OptionalPart false make part ↔ part = none := Iff.rfl

/-- The frontend of a new epoch: fresh trackers that have seen one frame, and what hangs on
them. -/
def Frontend (state : FilterState O) (propagator : O.Propagator) (trackFEATS : O.Tracker)
    (trackARUCO : Option O.Tracker) (initializer : O.Initializer)
    (updaterZUPT : Option O.ZeroVelocity) : Prop :=
  ∃ fresh, cb.makeTracker state = .ok fresh ∧ cb.makeInitializer fresh = .ok initializer ∧
    OptionalPart o.tryZupt (fun z => cb.makeUpdaterZUPT fresh propagator = .ok z) updaterZUPT ∧
    cb.feedNewCamera fresh = .ok trackFEATS ∧
    OptionalPart o.useAruco
      (fun a => ∃ fresh, cb.makeTrackAruco state = .ok fresh ∧ cb.feedNewCameraAruco fresh = .ok a)
      trackARUCO

def RenewedPropagator (recovered : FilterState O) (old new : O.Propagator) : Prop :=
  ∃ invalidated, cb.invalidateCache old = .ok invalidated ∧
    cb.cleanOldImuMeasurements invalidated recovered = .ok new

/-- The covered fields after a complete commit of the staged state `recovered`. -/
structure PostCommit (m : VioManager O) (recovered : FilterState O) (c : Covered O) : Prop where
  state : c.state = ⟨m.state.addr + 1, recovered⟩
  frontend : ∃ propagator, RenewedPropagator cb recovered m.propagator propagator ∧
    Frontend o cb recovered propagator c.trackFEATS c.trackARUCO c.initializer c.updaterZUPT
  startupTime : c.startupTime = cb.timestamp
  timelastupdate : c.timelastupdate = cb.timestamp
  isInitializedVio : c.isInitializedVio = true
  cameraQueueInit : c.cameraQueueInit = []
  epochId : c.epochId = m.recovery.epochId + 1
  commitCount : c.commitCount = m.recovery.commitCount + 1
  phase : c.phase = .WARMUP
  consensus : c.consensus = []

/-- The commit leaves all covered fields as they were, or all at their post-commit values. -/
def AtomicCommit (R_GtoI : Matrix3d) (p_IinG : Vector3d) (m : VioManager O) : Prop :=
  let c := covered (finalState ((commitLongGapRecovery o cb R_GtoI p_IinG).run m))
  c = covered m ∨
    ∃ recovered, stageRecoveredState cb m.state.val R_GtoI p_IinG = .ok recovered ∧
      PostCommit o cb m recovered c

/-- No callee after the state swap throws: the propagator can be renewed, the camera queue
locked and the frontend built. -/
def EpochBuilds (recovered : FilterState O) (propagator : O.Propagator) : Prop :=
  ∃ propagator', RenewedPropagator cb recovered propagator propagator' ∧
    cb.lockCameraQueue = .ok () ∧
    ∃ trackFEATS trackARUCO initializer updaterZUPT,
      Frontend o cb recovered propagator' trackFEATS trackARUCO initializer updaterZUPT

theorem AtomicCommit.addr_or_phase {R_GtoI : Matrix3d} {p_IinG : Vector3d} {m : VioManager O}
    (h : AtomicCommit o cb R_GtoI p_IinG m) :
    let m' := finalState ((commitLongGapRecovery o cb R_GtoI p_IinG).run m)
    m'.state.addr = m.state.addr ∨ m'.recovery.phase = .WARMUP := by
  rcases h with hsame | ⟨recovered, -, hpost⟩
  · exact Or.inl (congrArg (fun c => c.state.addr) hsame)
  · exact Or.inr hpost.phase

/-! ## What a throw leaves behind -/

def SameEpoch (m m' : VioManager O) : Prop := m'.state = m.state ∧ m'.recovery = m.recovery

theorem renewAruco_spec : wp (renewAruco o cb)
      (fun _ m' => ∃ aruco, m' = { m with trackARUCO := aruco } ∧
        OptionalPart o.useAruco (fun a => cb.makeTrackAruco m.state.val = .ok a) aruco)
      (fun _ m' => SameEpoch m m' ∧ o.useAruco = true ∧
        ∀ a, cb.makeTrackAruco m.state.val ≠ .ok a) m := by
  simp only [renewAruco, wp_bind, wp_modify, wp_get, wp_onlyIf, wp_liftExcept, OptionalPart]
  refine ⟨fun huse => ⟨fun a ha => ?_, fun e he => ?_⟩, fun hno => ?_⟩
  · exact ⟨some a, rfl, by simp [huse, ha]⟩
  · exact ⟨⟨rfl, rfl⟩, huse, by simp [he]⟩
  · exact ⟨none, rfl, by simp [hno]⟩

theorem renewZupt_spec : wp (renewZupt o cb)
      (fun _ m' => ∃ zupt, m' = { m with updaterZUPT := zupt } ∧
        OptionalPart o.tryZupt (fun z => cb.makeUpdaterZUPT m.trackFEATS m.propagator = .ok z) zupt)
      (fun _ m' => SameEpoch m m' ∧ o.tryZupt = true ∧
        ∀ z, cb.makeUpdaterZUPT m.trackFEATS m.propagator ≠ .ok z) m := by
  simp only [renewZupt, wp_bind, wp_modify, wp_get, wp_onlyIf, wp_liftExcept, OptionalPart]
  refine ⟨fun huse => ⟨fun z hz => ?_, fun e he => ?_⟩, fun hno => ?_⟩
  · exact ⟨some z, rfl, by simp [huse, hz]⟩
  · exact ⟨⟨rfl, rfl⟩, huse, by simp [he]⟩
  · exact ⟨none, rfl, by simp [hno]⟩

theorem seedTrackers_spec : wp (seedTrackers cb)
      (fun _ m' => ∃ tracker aruco, m' = { m with trackFEATS := tracker, trackARUCO := aruco } ∧
        cb.feedNewCamera m.trackFEATS = .ok tracker ∧ (m.trackARUCO = none → aruco = none) ∧
        ∀ a, m.trackARUCO = some a → ∃ fed, cb.feedNewCameraAruco a = .ok fed ∧ aruco = some fed)
      (fun _ m' => SameEpoch m m' ∧
        ((∀ t, cb.feedNewCamera m.trackFEATS ≠ .ok t) ∨
          ∃ a, m.trackARUCO = some a ∧ ∀ fed, cb.feedNewCameraAruco a ≠ .ok fed)) m := by
  simp only [seedTrackers, wp_bind, wp_modify, wp_get, wp_onSome, wp_liftExcept]
  refine ⟨fun t ht => ⟨fun a ha => ⟨fun fed hfed => ?_, fun e he => ?_⟩, fun hno => ?_⟩,
    fun e he => ?_⟩
  · exact ⟨t, some fed, rfl, ht, by simp [ha], by simp [ha, hfed]⟩
  · exact ⟨⟨rfl, rfl⟩, Or.inr ⟨a, ha, by simp [he]⟩⟩
  · exact ⟨t, none, by simp [hno], ht, fun _ => rfl, by simp [hno]⟩
  · exact ⟨⟨rfl, rfl⟩, Or.inl (by simp [he])⟩

/-- `reset_feature_epoch` builds a frontend, or no frontend can be built; it never touches the
filter state or the recovery fields. -/
theorem resetFeatureEpoch_spec : wp (resetFeatureEpoch o cb)
      (fun _ m' => ∃ tracker aruco initializer zupt,
        m' = { m with
          trackFEATS := tracker
          trackARUCO := aruco
          initializer := initializer
          updaterZUPT := zupt } ∧
        Frontend o cb m.state.val m.propagator tracker aruco initializer zupt)
      (fun _ m' => SameEpoch m m' ∧
        ∀ t a i z, ¬ Frontend o cb m.state.val m.propagator t a i z) m := by
  simp only [resetFeatureEpoch, wp_bind, wp_get, wp_liftExcept, wp_modify]
  refine ⟨fun fresh hfresh => ?_, fun e he => ⟨⟨rfl, rfl⟩, ?_⟩⟩
  case refine_2 =>
    rintro t a i z ⟨fresh, hfresh, -⟩
    rw [he] at hfresh
    cases hfresh
  -- Every later callee is called on the same fresh tracker.
  have hsame : ∀ t, cb.makeTracker m.state.val = .ok t → t = fresh := by
    intro t ht
    rw [hfresh] at ht
    cases ht
    rfl
  refine wp_mono (renewAruco_spec o cb _) (fun _ m₁ h₁ => ⟨fun i hi => ?_, fun e he => ?_⟩)
    (fun e m₁ h₁ => ?_)
  · obtain ⟨aruco, rfl, haruco⟩ := h₁
    refine wp_mono (renewZupt_spec o cb _) (fun _ m₂ h₂ => ?_) (fun e m₂ h₂ => ?_)
    · obtain ⟨zupt, rfl, hzupt⟩ := h₂
      refine wp_mono (seedTrackers_spec cb _) (fun _ m₃ h₃ => ?_) (fun e m₃ h₃ => ?_)
      · obtain ⟨tracker, fed, rfl, hfeed, hnone, hsome⟩ := h₃
        refine ⟨tracker, fed, i, zupt, rfl, fresh, hfresh, hi, hzupt, hfeed, ?_⟩
        cases huse : o.useAruco with
        | true =>
          rw [huse, optionalPart_true] at haruco
          obtain ⟨a, ha, rfl⟩ := haruco
          obtain ⟨a', ha', rfl⟩ := hsome a rfl
          exact optionalPart_true.mpr ⟨a', ⟨a, ha, ha'⟩, rfl⟩
        | false =>
          rw [huse, optionalPart_false] at haruco
          exact optionalPart_false.mpr (hnone haruco)
      · obtain ⟨hepoch, hthrow⟩ := h₃
        refine ⟨hepoch, ?_⟩
        rintro t a i' z ⟨fresh', hfresh', -, -, hfeed, hopt⟩
        rw [hsame fresh' hfresh'] at hfeed
        rcases hthrow with hthrow | ⟨a', ha', hthrow⟩
        · exact hthrow t hfeed
        · cases huse : o.useAruco with
          | true =>
            rw [huse, optionalPart_true] at haruco hopt
            obtain ⟨a₁, ha₁, rfl⟩ := haruco
            obtain ⟨a₂, ⟨a₃, ha₃, hfed⟩, -⟩ := hopt
            cases ha'
            cases ha₁.symm.trans ha₃
            exact hthrow a₂ hfed
          | false =>
            rw [huse, optionalPart_false] at haruco
            rw [haruco] at ha'
            cases ha'
    · obtain ⟨hepoch, huse, hthrow⟩ := h₂
      refine ⟨hepoch, ?_⟩
      rintro t a i' z ⟨fresh', hfresh', -, hopt, -⟩
      rw [hsame fresh' hfresh', huse, optionalPart_true] at hopt
      obtain ⟨z', hz', -⟩ := hopt
      exact hthrow z' hz'
  · obtain ⟨aruco, rfl, -⟩ := h₁
    refine ⟨⟨rfl, rfl⟩, ?_⟩
    rintro t a i z ⟨fresh', hfresh', hi, -⟩
    rw [hsame fresh' hfresh'] at hi
    rw [he] at hi
    cases hi
  · obtain ⟨hepoch, huse, hthrow⟩ := h₁
    refine ⟨hepoch, ?_⟩
    rintro t a i z ⟨fresh', -, -, -, -, hopt⟩
    rw [huse, optionalPart_true] at hopt
    obtain ⟨a', ⟨a₁, ha₁, -⟩, -⟩ := hopt
    exact hthrow a₁ ha₁

/-- The three outcomes of a commit: it returns with a complete new epoch; it throws while
staging, with nothing changed; or it throws after the swap, with the new filter state and the
old recovery fields. -/
theorem commitLongGapRecovery_spec (R_GtoI : Matrix3d) (p_IinG : Vector3d) (m : VioManager O) :
    wp (commitLongGapRecovery o cb R_GtoI p_IinG)
      (fun _ m' => ∃ recovered, stageRecoveredState cb m.state.val R_GtoI p_IinG = .ok recovered ∧
        EpochBuilds o cb recovered m.propagator ∧ PostCommit o cb m recovered (covered m'))
      (fun _ m' =>
        (∃ e, stageRecoveredState cb m.state.val R_GtoI p_IinG = .error e ∧ m' = m) ∨
        ∃ recovered, stageRecoveredState cb m.state.val R_GtoI p_IinG = .ok recovered ∧
          ¬ EpochBuilds o cb recovered m.propagator ∧
          m'.state = ⟨m.state.addr + 1, recovered⟩ ∧ m'.recovery = m.recovery) m := by
  simp only [commitLongGapRecovery, emit, wp_bind, wp_get, wp_liftExcept, wp_modify]
  refine ⟨fun recovered hstage => ?_, fun e he => Or.inl ⟨e, he, trivial⟩⟩
  refine ⟨fun p₁ h₁ => ⟨fun p₂ h₂ => ⟨fun _ hlock => ?_, fun e he => ?_⟩, fun e he => ?_⟩,
    fun e he => ?_⟩
  · refine wp_mono (resetFeatureEpoch_spec o cb _) (fun _ m' h => ?_) (fun e m' h => ?_)
    · obtain ⟨t, a, i, z, rfl, hfront⟩ := h
      have hprop : RenewedPropagator cb recovered m.propagator p₂ := ⟨p₁, h₁, h₂⟩
      refine ⟨recovered, hstage, ⟨p₂, hprop, hlock, t, a, i, z, hfront⟩, ?_⟩
      exact ⟨rfl, ⟨p₂, hprop, hfront⟩, rfl, rfl, rfl, rfl, rfl, rfl, rfl, rfl⟩
    · obtain ⟨⟨hstate, hrec⟩, hno⟩ := h
      refine Or.inr ⟨recovered, hstage, ?_, hstate, hrec⟩
      rintro ⟨p₃, ⟨p₁', h₁', h₂'⟩, -, t, a, i, z, hfront⟩
      simp_all
  · refine Or.inr ⟨recovered, hstage, ?_, rfl, trivial⟩
    rintro ⟨p₃, -, hlock, -⟩
    simp_all
  · refine Or.inr ⟨recovered, hstage, ?_, rfl, trivial⟩
    rintro ⟨p₃, ⟨p₁', h₁', h₂'⟩, -⟩
    simp_all
  · refine Or.inr ⟨recovered, hstage, ?_, rfl, trivial⟩
    rintro ⟨p₃, ⟨p₁', h₁', h₂'⟩, -⟩
    simp_all

/-- **The commit is atomic exactly when no callee after the state swap throws.** A throw before
the swap changes nothing; a throw after it leaves a replaced state with the old recovery
fields. -/
theorem commit_atomic_iff (R_GtoI : Matrix3d) (p_IinG : Vector3d) (m : VioManager O) :
    AtomicCommit o cb R_GtoI p_IinG m ↔
      ∀ recovered, stageRecoveredState cb m.state.val R_GtoI p_IinG = .ok recovered →
        EpochBuilds o cb recovered m.propagator := by
  have hspec := commitLongGapRecovery_spec o cb R_GtoI p_IinG m
  unfold AtomicCommit wp at *
  cases hrun : (commitLongGapRecovery o cb R_GtoI p_IinG).run m with
  | ok u m' =>
    rw [hrun] at hspec
    obtain ⟨recovered, hstage, hbuilds, hpost⟩ := hspec
    constructor
    · intro _ recovered' hstage'
      rw [hstage] at hstage'
      cases hstage'
      exact hbuilds
    · intro _
      exact Or.inr ⟨recovered, hstage, hpost⟩
  | error e m' =>
    rw [hrun] at hspec
    rcases hspec with ⟨e', he', rfl⟩ | ⟨recovered, hstage, hno, hstate, hrec⟩
    · constructor
      · intro _ recovered hstage
        rw [he'] at hstage
        cases hstage
      · intro _
        exact Or.inl rfl
    · constructor
      · rintro (hsame | ⟨recovered', -, hpost⟩)
        · -- the state object has changed
          have haddr : m'.state.addr = m.state.addr := congrArg (fun c => c.state.addr) hsame
          rw [hstate] at haddr
          simp at haddr
        · -- the epoch counter has not
          have hepoch : m'.recovery.epochId = m.recovery.epochId + 1 := hpost.epochId
          rw [hrec] at hepoch
          simp at hepoch
      · intro hall
        exact absurd (hall recovered hstage) hno

/-- The third accepted frame of an activation, on which the new tracker cannot be allocated. -/
def exhaustedCallback : CameraCallback restObjects :=
  { restCallback ⟨0x4021000000000000⟩ 5 originResult with
    makeTracker := fun _ => .error "std::bad_alloc" }

/-- The manager of `outageCallbacks` before its last callback. -/
def reacquiringManager : VioManager restObjects :=
  (outageRun.1.getLast?.map (·.pre)).getD restManager

/-- A tracker that cannot be allocated leaves the replaced state with phase REACQUIRING. -/
theorem commit_not_atomic_on_bad_alloc :
    reacquiringManager.recovery.phase = .REACQUIRING ∧
      ¬ AtomicCommit frozenOptions exhaustedCallback default Vector3d.zero reacquiringManager := by
  refine ⟨by decide +kernel, fun h => ?_⟩
  exact absurd h.addr_or_phase (by decide +kernel)

end Atomicity

end Bravo.Recovery
