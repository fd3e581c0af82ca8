import Bravo.Recovery.Machine

/-! # The invariant of the recovery machine

`RecoveryInv` ties the seven recovery fields together at every callback boundary, and
`PhaseChange` lists the ways a callback can change the phase. Both are proved for one step of
the machine and then for whole runs of the manager.
-/

namespace Bravo.Recovery

def one (c : Prop) [Decidable c] : UInt64 := if c then 1 else 0

/-- The accounting of activations, commits and failures, and the bounds on the retained
samples and attempts. -/
structure RecoveryInv (r : LongGapRecovery) : Prop where
  activations :
    r.activationCount = r.commitCount + r.failureCount + one (r.phase = .REACQUIRING)
  epoch : r.epochId = r.commitCount
  failures : r.failureCount = one (r.phase = .FAILED)
  samples : r.consensus.length ≤ 2
  samples_empty : r.phase ≠ .REACQUIRING → r.consensus = []
  attempts : r.phase = .REACQUIRING → 1 ≤ r.attemptCount ∧ r.attemptCount ≤ 9
  attempts_le : r.attemptCount ≤ 10

/-- How one callback can change the phase, and what it then counts. A trigger and the first
attempt of the new activation are one callback; that attempt can neither commit nor fail. -/
inductive PhaseChange (r r' : LongGapRecovery) : Prop
  | none : r'.phase = r.phase → r'.commitCount = r.commitCount →
      r'.failureCount = r.failureCount → r'.activationCount = r.activationCount →
      PhaseChange r r'
  | trigger : r.phase = .TRACKING → r'.phase = .REACQUIRING → r'.commitCount = r.commitCount →
      r'.failureCount = r.failureCount → r'.activationCount = r.activationCount + 1 →
      r'.attemptCount = 1 → PhaseChange r r'
  | commit : r.phase = .REACQUIRING → r'.phase = .WARMUP → r'.commitCount = r.commitCount + 1 →
      r'.failureCount = r.failureCount → r'.activationCount = r.activationCount →
      PhaseChange r r'
  | failure : r.phase = .REACQUIRING → r'.phase = .FAILED → r'.commitCount = r.commitCount →
      r'.failureCount = r.failureCount + 1 → r'.activationCount = r.activationCount →
      PhaseChange r r'
  | warm : r.phase = .WARMUP → r'.phase = .TRACKING → r'.commitCount = r.commitCount →
      r'.failureCount = r.failureCount → r'.activationCount = r.activationCount →
      PhaseChange r r'

section Steps

variable {o : VioManagerOptions} {norm : Vector3d → Binary64} {r r' : LongGapRecovery}
variable {evs : List Event} {v : Option LongGapRecoveryPoseSample}

/-- What holds between a trigger and the end of its first attempt, and at the start of every
later attempt: the accounting already counts this activation. -/
structure AttemptInv (r : LongGapRecovery) : Prop where
  phase : r.phase = .REACQUIRING
  activations : r.activationCount = r.commitCount + r.failureCount + 1
  epoch : r.epochId = r.commitCount
  failures : r.failureCount = 0
  samples : r.consensus.length ≤ 2
  attempts : 0 ≤ r.attemptCount
  attempts_le : r.attemptCount ≤ 9

theorem RecoveryInv.attemptInv (h : RecoveryInv r) (hphase : r.phase = .REACQUIRING) :
    AttemptInv r where
  phase := hphase
  activations := by rw [h.activations, hphase]; rfl
  epoch := h.epoch
  failures := by rw [h.failures, hphase]; rfl
  samples := h.samples
  attempts := by have := (h.attempts hphase).1; omega
  attempts_le := (h.attempts hphase).2

theorem RecoveryInv.triggered (h : RecoveryInv r) (hphase : r.phase = .TRACKING) :
    AttemptInv r.triggered where
  phase := rfl
  activations := by
    show r.activationCount + 1 = r.commitCount + r.failureCount + 1
    rw [h.activations, hphase]
    simp [one]
  epoch := h.epoch
  failures := by
    show r.failureCount = 0
    rw [h.failures, hphase]
    rfl
  samples := by simp [LongGapRecovery.triggered]
  attempts := by simp [LongGapRecovery.triggered]
  attempts_le := by simp [LongGapRecovery.triggered]

theorem settles_inv (hmax : o.longGapRecoveryMaxAttempts = 10) {b : LongGapRecovery}
    (h : Settles o b evs r') (hphase : b.phase = .REACQUIRING)
    (hact : b.activationCount = b.commitCount + b.failureCount + 1)
    (hepoch : b.epochId = b.commitCount) (hfail : b.failureCount = 0)
    (hlen : b.consensus.length ≤ 2) (hlo : 1 ≤ b.attemptCount) (hhi : b.attemptCount ≤ 10) :
    RecoveryInv r' := by
  cases h with
  | retry hlt =>
    refine ⟨?_, hepoch, ?_, hlen, fun hne => absurd hphase hne, fun _ => ⟨hlo, by omega⟩, hhi⟩
    · rw [hact, hphase]
      rfl
    · rw [hfail, hphase]
      rfl
  | exhausted hge =>
    refine ⟨?_, hepoch, ?_, by simp [LongGapRecovery.failed], fun _ => rfl, ?_, hhi⟩
    · show b.activationCount = b.commitCount + (b.failureCount + 1) + 0
      rw [hact, hfail]
      simp
    · show b.failureCount + 1 = 1
      rw [hfail]
      rfl
    · intro hp
      cases hp

theorem attemptStep_inv (hmax : o.longGapRecoveryMaxAttempts = 10)
    (hframes : o.longGapRecoveryConsensusFrames = 3) (hi : AttemptInv r)
    (h : AttemptStep o norm v r evs r') : RecoveryInv r' := by
  have hlo : 1 ≤ r.attemptCount + 1 := by have := hi.attempts; omega
  have hhi : r.attemptCount + 1 ≤ 10 := by have := hi.attempts_le; omega
  cases h with
  | reject _ hset =>
    exact settles_inv hmax hset hi.phase hi.activations hi.epoch hi.failures (by simp) hlo hhi
  | collect _ _ hlen hset =>
    refine settles_inv hmax hset hi.phase hi.activations hi.epoch hi.failures ?_ hlo hhi
    rw [hframes] at hlen
    simp only [List.length_append, List.length_cons, List.length_nil]
    omega
  | scatter _ _ _ _ hset =>
    exact settles_inv hmax hset hi.phase hi.activations hi.epoch hi.failures (by simp) hlo hhi
  | commit _ _ _ _ =>
    refine ⟨?_, ?_, ?_, by simp [LongGapRecovery.committed], fun _ => rfl, ?_, hhi⟩
    · show r.activationCount = (r.commitCount + 1) + r.failureCount + 0
      rw [hi.activations, hi.failures]
      simp
    · show r.epochId + 1 = r.commitCount + 1
      rw [hi.epoch]
    · show r.failureCount = 0
      exact hi.failures
    · intro hp
      cases hp

/-- **The invariant is preserved by every callback.** -/
theorem recoveryStep_inv (hmax : o.longGapRecoveryMaxAttempts = 10)
    (hframes : o.longGapRecoveryConsensusFrames = 3) (hi : RecoveryInv r)
    (h : RecoveryStep o norm v r evs r') : RecoveryInv r' := by
  cases h with
  | ordinary _ _ => exact hi
  | warmupComplete hphase _ =>
    have hne : r.phase ≠ .REACQUIRING := by rw [hphase]; decide
    refine ⟨?_, hi.epoch, ?_, hi.samples, fun _ => hi.samples_empty hne, ?_, hi.attempts_le⟩
    · rw [hi.activations, hphase]
      rfl
    · rw [hi.failures, hphase]
      rfl
    · intro hp
      cases hp
  | degraded _ => exact hi
  | attempt hphase hatt => exact attemptStep_inv hmax hframes (hi.attemptInv hphase) hatt
  | trigger hphase hatt => exact attemptStep_inv hmax hframes (hi.triggered hphase) hatt

/-! ## Phase changes -/

structure PhaseStep (r : LongGapRecovery) (evs : List Event) (r' : LongGapRecovery) : Prop where
  change : PhaseChange r r'
  commits : .relocalizationCommit ∈ evs ↔ r.phase = .REACQUIRING ∧ r'.phase = .WARMUP
  failures : .recoveryFailed ∈ evs ↔ r.phase = .REACQUIRING ∧ r'.phase = .FAILED
  triggers : .trigger ∈ evs ↔ r.phase = .TRACKING ∧ r'.phase = .REACQUIRING
  failed : r.phase = .FAILED → r'.phase = .FAILED

theorem not_mem_of_all_ordinary (h : evs.all Event.isOrdinary = true) {e : Event}
    (he : e.isOrdinary = false) : e ∉ evs := by
  intro hmem
  have := List.all_eq_true.mp h e hmem
  rw [he] at this
  cases this

/-- The three ways an attempt can end: it stays in the activation, it gives up, or it commits.
A commit needs three samples, so it is never the first attempt. -/
inductive AttemptEnd (o : VioManagerOptions) (r : LongGapRecovery) (evs : List Event)
    (r' : LongGapRecovery) : Prop
  | retry : r'.phase = .REACQUIRING → r'.commitCount = r.commitCount →
      r'.failureCount = r.failureCount → r'.activationCount = r.activationCount →
      r'.attemptCount = r.attemptCount + 1 → .relocalizationCommit ∉ evs →
      .recoveryFailed ∉ evs → AttemptEnd o r evs r'
  | failure : r'.phase = .FAILED → r'.commitCount = r.commitCount →
      r'.failureCount = r.failureCount + 1 → r'.activationCount = r.activationCount →
      o.longGapRecoveryMaxAttempts ≤ r.attemptCount + 1 → .relocalizationCommit ∉ evs →
      .recoveryFailed ∈ evs → AttemptEnd o r evs r'
  | commit : r'.phase = .WARMUP → r'.commitCount = r.commitCount + 1 →
      r'.failureCount = r.failureCount → r'.activationCount = r.activationCount →
      o.longGapRecoveryConsensusFrames ≤ (r.consensus.length : Int) + 1 →
      .relocalizationCommit ∈ evs → .recoveryFailed ∉ evs → AttemptEnd o r evs r'

theorem settles_end {cs : List LongGapRecoveryPoseSample} (pre : List Event)
    (h : Settles o { r.attempted with consensus := cs } evs r') (hphase : r.phase = .REACQUIRING)
    (hcommit : .relocalizationCommit ∉ pre) (hfailed : .recoveryFailed ∉ pre) :
    AttemptEnd o r (pre ++ evs) r' := by
  cases h with
  | retry _ =>
    refine .retry hphase rfl rfl rfl rfl ?_ ?_
    · simpa using hcommit
    · simpa using hfailed
  | exhausted hge =>
    refine .failure rfl rfl rfl rfl hge ?_ ?_
    · simpa using hcommit
    · simp

theorem attemptStep_end (hphase : r.phase = .REACQUIRING) (h : AttemptStep o norm v r evs r') :
    AttemptEnd o r evs r' := by
  cases h with
  | reject _ hset =>
    exact settles_end [.attempt false] hset hphase (by simp) (by simp)
  | @collect s evs _ _ _ _ hset =>
    exact settles_end [.attempt true, .acceptedPose s] hset hphase (by simp) (by simp)
  | @scatter s evs _ _ _ _ _ hset =>
    exact settles_end [.attempt true, .acceptedPose s, .consensusReject] hset hphase
      (by simp) (by simp)
  | commit _ _ hlen _ => exact .commit rfl rfl rfl rfl hlen (by simp) (by simp)

theorem attemptStep_no_trigger (h : AttemptStep o norm v r evs r') : .trigger ∉ evs := by
  have hsettles : ∀ {b : LongGapRecovery} {evs : List Event}, Settles o b evs r' →
      .trigger ∉ evs := by
    intro b evs hb
    cases hb <;> simp
  cases h with
  | reject _ hset => simpa using hsettles hset
  | collect _ _ _ hset => simpa using hsettles hset
  | scatter _ _ _ _ hset => simpa using hsettles hset
  | commit _ _ _ _ => simp

/-- **Every callback changes the phase only in the listed ways.** -/
theorem recoveryStep_phase (hmax : o.longGapRecoveryMaxAttempts = 10)
    (hframes : o.longGapRecoveryConsensusFrames = 3) (h : RecoveryStep o norm v r evs r') :
    PhaseStep r evs r' := by
  cases h with
  | ordinary hphase hall =>
    have hne : r.phase ≠ .REACQUIRING := by rcases hphase with h | h <;> rw [h] <;> decide
    refine ⟨.none rfl rfl rfl rfl, ?_, ?_, ?_, fun h => h⟩
    · exact iff_of_false (not_mem_of_all_ordinary hall rfl) (fun h => hne h.1)
    · exact iff_of_false (not_mem_of_all_ordinary hall rfl) (fun h => hne h.1)
    · exact iff_of_false (not_mem_of_all_ordinary hall rfl) (fun h => hne h.2)
  | @warmupComplete evs hphase hall =>
    have hnot : ∀ {e : Event}, e.isOrdinary = false → e ≠ .warmupComplete →
        e ∉ evs ++ [.warmupComplete] := by
      intro e he hne
      simp [not_mem_of_all_ordinary hall he, hne]
    refine ⟨.warm hphase rfl rfl rfl rfl, ?_, ?_, ?_, ?_⟩
    · exact iff_of_false (hnot rfl (by simp)) (by simp [hphase])
    · exact iff_of_false (hnot rfl (by simp)) (by simp [hphase])
    · exact iff_of_false (hnot rfl (by simp)) (by simp [hphase])
    · simp [hphase]
  | degraded hphase =>
    refine ⟨.none rfl rfl rfl rfl, ?_, ?_, ?_, fun h => h⟩ <;> simp [hphase]
  | attempt hphase hatt =>
    have hno := attemptStep_no_trigger hatt
    cases attemptStep_end hphase hatt with
    | retry hp hc hf ha _ hnc hnf =>
      refine ⟨.none (hp.trans hphase.symm) hc hf ha, ?_, ?_, ?_, ?_⟩ <;>
        simp [hphase, hp, hnc, hnf, hno]
    | failure hp hc hf ha _ hnc hyf =>
      refine ⟨.failure hphase hp hc hf ha, ?_, ?_, ?_, ?_⟩ <;>
        simp [hphase, hp, hnc, hyf, hno]
    | commit hp hc hf ha _ hyc hnf =>
      refine ⟨.commit hphase hp hc hf ha, ?_, ?_, ?_, ?_⟩ <;>
        simp [hphase, hp, hyc, hnf, hno]
  | trigger hphase hatt =>
    -- The first attempt starts from no sample and no attempt, so it only retries.
    cases attemptStep_end rfl hatt with
    | retry hp hc hf ha hcount hnc hnf =>
      refine ⟨.trigger hphase hp hc hf ha hcount, ?_, ?_, ?_, ?_⟩ <;>
        simp [hphase, hp, hnc, hnf]
    | failure _ _ _ _ hge _ _ =>
      rw [hmax] at hge
      simp [LongGapRecovery.triggered] at hge
    | commit _ _ _ _ hlen _ _ =>
      rw [hframes] at hlen
      simp [LongGapRecovery.triggered] at hlen

end Steps

/-! ## Runs -/

section Runs

variable {O : Objects} {o : VioManagerOptions} {norm : Vector3d → Binary64}
variable {parts : Parts O} {m₀ m : VioManager O}
variable {es : List (Entry (VioManager O) (CameraCallback O))}

structure FrozenBounds (o : VioManagerOptions) : Prop where
  enabled : o.longGapRecoveryEnabled = true
  attempts : o.longGapRecoveryMaxAttempts = 10
  frames : o.longGapRecoveryConsensusFrames = 3

theorem frozenBounds_of_contract (henabled : o.longGapRecoveryEnabled = true)
    (hcontract : frozenRecoveryContract o = true) : FrozenBounds o := by
  simp only [frozenRecoveryContract, Bool.and_eq_true, beq_iff_eq] at hcontract
  refine ⟨henabled, ?_, ?_⟩
  · tauto
  · tauto

theorem newVioManager_contract (henabled : o.longGapRecoveryEnabled = true)
    (hnew : newVioManager o parts = .ok m₀) : frozenRecoveryContract o = true := by
  unfold newVioManager at hnew
  split at hnew
  · cases hnew
  · rename_i hfrozen
    simpa [henabled] using hfrozen

theorem newVioManager_ok (henabled : o.longGapRecoveryEnabled = true)
    (hnew : newVioManager o parts = .ok m₀) :
    FrozenBounds o ∧ view m₀ = (⟨.TRACKING, 0, [], 0, 0, 0, 0⟩, []) := by
  refine ⟨frozenBounds_of_contract henabled (newVioManager_contract henabled hnew), ?_⟩
  unfold newVioManager at hnew
  split at hnew
  · cases hnew
  · cases hnew
    rfl

theorem recoveryInv_new : RecoveryInv ⟨.TRACKING, 0, [], 0, 0, 0, 0⟩ where
  activations := rfl
  epoch := rfl
  failures := rfl
  samples := by simp
  samples_empty := fun _ => rfl
  attempts := fun h => by cases h
  attempts_le := by simp

theorem step_inv (hb : FrozenBounds o) {cb : CameraCallback O} {m' : VioManager O}
    (hi : RecoveryInv m.recovery) (h : Step o norm m cb m') : RecoveryInv m'.recovery :=
  recoveryStep_inv hb.attempts hb.frames hi
    (step_refines o norm cb hb.enabled (by rw [hb.frames]; decide) h)

/-- **The recovery state machine.** In every run of an enabled manager the accounting of
activations, commits, failures, samples and attempts holds after every callback, and every
callback changes the phase only along an edge of the machine: a commit is exactly the edge into
WARMUP, a failure exactly the edge into FAILED, and FAILED is never left. -/
theorem recovery_state_machine (henabled : o.longGapRecoveryEnabled = true)
    (hnew : newVioManager o parts = .ok m₀) (hrun : Run (Step o norm) m₀ es m) :
    RecoveryInv m.recovery ∧
      ∀ e ∈ es, RecoveryInv e.pre.recovery ∧ RecoveryInv e.post.recovery ∧
        PhaseStep e.pre.recovery (events e) e.post.recovery := by
  obtain ⟨hb, hview⟩ := newVioManager_ok henabled hnew
  have hinit : RecoveryInv m₀.recovery := by
    have hr : m₀.recovery = _ := (Prod.mk.inj hview).1
    rw [hr]
    exact recoveryInv_new
  have hstep : ∀ (s : VioManager O) (i : CameraCallback O) (s' : VioManager O),
      RecoveryInv s.recovery → Step o norm s i s' → RecoveryInv s'.recovery :=
    fun s i s' => step_inv hb
  refine ⟨hrun.invariant (P := fun m => RecoveryInv m.recovery) hinit hstep, fun e he => ?_⟩
  obtain ⟨hpre, hs⟩ := hrun.entry (P := fun m => RecoveryInv m.recovery) hinit hstep e he
  refine ⟨hpre, step_inv hb hpre hs, ?_⟩
  exact recoveryStep_phase hb.attempts hb.frames
    (step_refines o norm e.input hb.enabled (by rw [hb.frames]; decide) hs)

/-- The outage of `outageCallbacks`: one activation, committed by its third attempt. -/
theorem recovery_state_machine_outage :
    outageRun.1.length = 6 ∧ outageRun.2.recovery.phase = .WARMUP ∧
      RecoveryInv outageRun.2.recovery ∧
      ∀ e ∈ outageRun.1, RecoveryInv e.pre.recovery ∧ RecoveryInv e.post.recovery ∧
        PhaseStep e.pre.recovery (events e) e.post.recovery :=
  ⟨by decide +kernel, by decide +kernel,
    recovery_state_machine rfl newVioManager_frozenOptions outageRun_run⟩

end Runs

end Bravo.Recovery
