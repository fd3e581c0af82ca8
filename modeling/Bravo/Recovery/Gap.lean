import Bravo.Recovery.Invariant

/-! # Long gaps and ordinary processing

The trigger test runs once, at the start of a callback, and only on an initialized manager in
phase TRACKING whose state has a finite time. This module says which gaps can then still reach
the zero-velocity updater or `do_feature_propagate_update`, and shows the two that do: a gap
during warm-up, and a gap before the callback that completes the initialization.
-/

namespace Bravo.Recovery

section Gap

variable {O : Objects} {o : VioManagerOptions} {norm : Vector3d → Binary64}

def ReachesOrdinary (e : Entry (VioManager O) (CameraCallback O)) : Prop :=
  .zeroVelocityUpdater ∈ events e ∨ .featurePropagateUpdate ∈ events e

instance (e : Entry (VioManager O) (CameraCallback O)) : Decidable (ReachesOrdinary e) :=
  inferInstanceAs (Decidable (_ ∨ _))

/-- `message.timestamp - state->_timestamp` when the callback begins. -/
def gapAtBegin (e : Entry (VioManager O) (CameraCallback O)) : Binary64 :=
  e.input.timestamp - (callbackBegin e.input e.pre).state.val.timestamp

variable {r r' : LongGapRecovery} {evs : List Event} {v : Option LongGapRecoveryPoseSample}

theorem attemptStep_not_ordinary (h : AttemptStep o norm v r evs r') :
    ∀ e ∈ evs, e.isOrdinary = false := by
  have hsettles : ∀ {b : LongGapRecovery} {evs : List Event}, Settles o b evs r' →
      ∀ e ∈ evs, e.isOrdinary = false := by
    intro b evs hb
    cases hb <;> simp [Event.isOrdinary]
  cases h with
  | reject _ hset => simpa [Event.isOrdinary] using hsettles hset
  | collect _ _ _ hset => simpa [Event.isOrdinary] using hsettles hset
  | scatter _ _ _ _ hset => simpa [Event.isOrdinary] using hsettles hset
  | commit _ _ _ _ => simp [Event.isOrdinary]

theorem isFinite_threshold (h : frozenRecoveryContract o = true) :
    o.longGapRecoveryThreshold.isNaN = false := by
  have hequal : o.longGapRecoveryThreshold.equal ⟨0x3fe0000000000000⟩ = true := by
    simp only [frozenRecoveryContract, Bool.and_eq_true] at h
    tauto
  simp only [Binary64.equal, Bool.and_eq_true, Bool.not_eq_true'] at hequal
  exact hequal.1.1

theorem not_reachesOrdinary_of_longGap (hb : FrozenBounds o)
    {e : Entry (VioManager O) (CameraCallback O)} (hs : Step o norm e.pre e.input e.post)
    (hgap : longGap o e.input (callbackBegin e.input e.pre) = true) : ¬ ReachesOrdinary e := by
  obtain ⟨evs, hevs, hatt⟩ :=
    step_triggers o norm e.input hb.enabled (by rw [hb.frames]; decide) hs hgap
  have hevs' : events e = .trigger :: evs := hevs
  have hnot : ∀ ev : Event, ev.isOrdinary = true → ev ∉ events e := by
    intro ev hord hmem
    rw [hevs'] at hmem
    rcases List.mem_cons.mp hmem with rfl | hmem
    · cases hord
    · rw [attemptStep_not_ordinary hatt ev hmem] at hord
      cases hord
  rintro (h | h)
  · exact hnot _ rfl h
  · exact hnot _ rfl h

theorem recoveryStep_phase_of_ordinary (h : RecoveryStep o norm v r evs r') {ev : Event}
    (hord : ev.isOrdinary = true) (hmem : ev ∈ evs) : r.phase = .TRACKING ∨ r.phase = .WARMUP := by
  cases h with
  | ordinary hphase _ => exact hphase
  | warmupComplete hphase _ => exact Or.inr hphase
  | degraded _ =>
    rw [List.mem_singleton.mp hmem] at hord
    cases hord
  | attempt _ hatt =>
    rw [attemptStep_not_ordinary hatt ev hmem] at hord
    cases hord
  | trigger hphase _ => exact Or.inl hphase

variable {parts : Parts O} {m₀ m : VioManager O}
variable {es : List (Entry (VioManager O) (CameraCallback O))}

/-- **No ordinary processing across a gap that the trigger test sees.** In every run, a callback
that begins initialized, outside warm-up and with a finite state time, and reaches ordinary
processing, begins with a gap that does not exceed the threshold. -/
theorem no_ordinary_processing_across_gap (henabled : o.longGapRecoveryEnabled = true)
    (hnew : newVioManager o parts = .ok m₀) (hrun : Run (Step o norm) m₀ es m) :
    ∀ e ∈ es, (callbackBegin e.input e.pre).isInitializedVio = true →
      e.pre.recovery.phase ≠ .WARMUP →
      (callbackBegin e.input e.pre).state.val.timestamp.isFinite = true →
      ReachesOrdinary e →
      ¬ o.longGapRecoveryThreshold < gapAtBegin e ∧
        (e.input.timestamp.isNaN = false → gapAtBegin e ≤ o.longGapRecoveryThreshold) := by
  intro e he hinit hwarm hfin hord
  obtain ⟨hb, -⟩ := newVioManager_ok henabled hnew
  obtain ⟨-, hs⟩ := hrun.entry (P := fun _ => True) trivial (fun _ _ _ _ _ => trivial) e he
  have hphase : (callbackBegin e.input e.pre).recovery.phase = .TRACKING := by
    have hr : (callbackBegin e.input e.pre).recovery = e.pre.recovery :=
      (Prod.mk.inj (view_callbackBegin e.input e.pre)).1
    rw [hr]
    have hstep := step_refines o norm e.input hb.enabled (by rw [hb.frames]; decide) hs
    refine Or.resolve_right ?_ hwarm
    rcases hord with h | h
    · exact recoveryStep_phase_of_ordinary hstep rfl h
    · exact recoveryStep_phase_of_ordinary hstep rfl h
  have hle : ¬ o.longGapRecoveryThreshold < gapAtBegin e := by
    intro hlt
    refine not_reachesOrdinary_of_longGap hb hs ?_ hord
    simp only [longGap, henabled, hinit, hphase, hfin, Bool.and_eq_true, decide_eq_true_eq]
    exact ⟨by decide, hlt⟩
  refine ⟨hle, fun hnum => Binary64.le_of_not_lt ?_ ?_ hle⟩
  · exact Binary64.isNaN_sub_of_isFinite_right hnum hfin
  · exact isFinite_threshold (newVioManager_contract henabled hnew)

/-- A callback of `outageCallbacks` before the outage reaches ordinary processing. -/
theorem no_ordinary_processing_across_gap_outage :
    (∃ e ∈ outageRun.1, (callbackBegin e.input e.pre).isInitializedVio = true ∧
      e.pre.recovery.phase ≠ .WARMUP ∧
      (callbackBegin e.input e.pre).state.val.timestamp.isFinite = true ∧ ReachesOrdinary e) ∧
    ∀ e ∈ outageRun.1, (callbackBegin e.input e.pre).isInitializedVio = true →
      e.pre.recovery.phase ≠ .WARMUP →
      (callbackBegin e.input e.pre).state.val.timestamp.isFinite = true →
      ReachesOrdinary e →
      ¬ frozenOptions.longGapRecoveryThreshold < gapAtBegin e ∧
        (e.input.timestamp.isNaN = false →
          gapAtBegin e ≤ frozenOptions.longGapRecoveryThreshold) :=
  ⟨by decide +kernel,
    no_ordinary_processing_across_gap rfl newVioManager_frozenOptions outageRun_run⟩

/-! ## The gaps that are not seen -/

/-- Initialization, tracking, an outage and its commit, then a second outage during warm-up. -/
def warmupGapCallbacks : List (CameraCallback restObjects) :=
  outageCallbacks ++ [restCallback ⟨0x4034000000000000⟩ 1 rejectedResult]

def initializationGapCallbacks : List (CameraCallback restObjects) :=
  [restCallback ⟨0x3ff0000000000000⟩ 0 rejectedResult,
    restCallback ⟨0x4034000000000000⟩ 1 rejectedResult]

/-- The last callback of a run is processed as usual, and initialized, across a gap longer than
the threshold. -/
def endsAcrossGap (r : List (Entry (VioManager restObjects) (CameraCallback restObjects)) ×
    VioManager restObjects) : Bool :=
  match r.1.getLast? with
  | some e => decide (ReachesOrdinary e) && r.2.isInitializedVio &&
      decide (frozenOptions.longGapRecoveryThreshold < gapAtBegin e)
  | none => false

theorem exists_of_endsAcrossGap
    {r : List (Entry (VioManager restObjects) (CameraCallback restObjects)) ×
      VioManager restObjects} (h : endsAcrossGap r = true) :
    ∃ e ∈ r.1, ReachesOrdinary e ∧
      ¬ gapAtBegin e ≤ frozenOptions.longGapRecoveryThreshold := by
  unfold endsAcrossGap at h
  split at h
  · rename_i e hlast
    simp only [Bool.and_eq_true, decide_eq_true_eq] at h
    exact ⟨e, List.mem_of_getLast? hlast, h.1.1, Binary64.not_le_of_lt h.2⟩
  · cases h

/-- Both gaps reach ordinary processing: the one during warm-up and the one before the callback
that completes the initialization. -/
theorem ordinary_processing_across_gap :
    (play frozenOptions axisNorm restManager warmupGapCallbacks).map endsAcrossGap = some true ∧
    (play frozenOptions axisNorm restManager initializationGapCallbacks).map endsAcrossGap =
      some true ∧
    ¬ ∀ (es : List (Entry (VioManager restObjects) (CameraCallback restObjects)))
        (m : VioManager restObjects), Run (Step frozenOptions axisNorm) restManager es m →
        ∀ e ∈ es, ReachesOrdinary e → gapAtBegin e ≤ frozenOptions.longGapRecoveryThreshold := by
  have hwarmup : (play frozenOptions axisNorm restManager warmupGapCallbacks).map endsAcrossGap =
      some true := by decide +kernel
  refine ⟨hwarmup, by decide +kernel, fun hall => ?_⟩
  obtain ⟨r, hplay, hends⟩ := Option.map_eq_some_iff.mp hwarmup
  obtain ⟨e, he, hord, hgap⟩ := exists_of_endsAcrossGap hends
  exact hgap (hall r.1 r.2 (run_of_play hplay) e he hord)

end Gap

end Bravo.Recovery
