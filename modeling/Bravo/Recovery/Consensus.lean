import Bravo.Recovery.Invariant

/-! # A commit is a consensus of three frames

The retained samples are a window on the history: they are the accepted poses of the last
callbacks, all of one activation (`Retained`). With that a commit can be traced back to the
three frames that license it, and three such frames can be followed forward to their commit.
-/

namespace Bravo.Recovery

open List

/-! ## The radius test -/

section Radius

variable {o : VioManagerOptions} {norm : Vector3d → Binary64}
variable {samples : List LongGapRecoveryPoseSample}

/-- Every retained position lies within the stationary radius of the component-wise median. -/
def WithinRadius (o : VioManagerOptions) (norm : Vector3d → Binary64)
    (samples : List LongGapRecoveryPoseSample) : Prop :=
  ∀ s ∈ samples, norm (s.p_IinG - componentMedian samples) ≤ o.longGapRecoveryStationaryRadiusM

/-- `norm` makes no NaN of its own, as Eigen's `norm`, a root of a sum of squares, does. -/
def NormKeepsNumbers (norm : Vector3d → Binary64) : Prop :=
  ∀ v : Vector3d, v.x.isNaN = false → v.y.isNaN = false → v.z.isNaN = false →
    (norm v).isNaN = false

theorem axisNorm_keepsNumbers : NormKeepsNumbers axisNorm := by
  intro v hx _ _
  have hlt : v.x.magnitude < 2 ^ 63 := Nat.mod_lt _ (by decide)
  rw [axisNorm, Binary64.isNaN, Binary64.magnitude_ofSignMagnitude hlt]
  exact hx

theorem sortedMedian_mem {values : List Binary64} (h : values ≠ []) :
    sortedMedian values ∈ values := by
  have hlen : values.length / 2 <
      (values.insertionSort (fun a b => ¬ b < a)).length := by
    rw [length_insertionSort]
    have := length_pos_iff.mpr h
    omega
  rw [sortedMedian, getElem?_eq_getElem hlen, Option.getD_some]
  exact (perm_insertionSort _ values).mem_iff.mp (getElem_mem hlen)

theorem isFinite_sortedMedian {f : LongGapRecoveryPoseSample → Binary64} (hne : samples ≠ [])
    (hf : ∀ s ∈ samples, (f s).isFinite = true) :
    (sortedMedian (samples.map f)).isFinite = true := by
  have hmem : sortedMedian (samples.map f) ∈ samples.map f := sortedMedian_mem (by simpa using hne)
  obtain ⟨s, hs, heq⟩ := mem_map.mp hmem
  rw [← heq]
  exact hf s hs

theorem isNaN_norm_sub (hnorm : NormKeepsNumbers norm)
    (hfin : ∀ s ∈ samples, s.p_IinG.allFinite = true) {s : LongGapRecoveryPoseSample}
    (hs : s ∈ samples) : (norm (s.p_IinG - componentMedian samples)).isNaN = false := by
  have hne : samples ≠ [] := ne_nil_of_mem hs
  simp only [Vector3d.allFinite, Bool.and_eq_true] at hfin
  apply hnorm
  · exact Binary64.isNaN_sub_of_isFinite (hfin s hs).1.1
      (isFinite_sortedMedian hne fun t ht => (hfin t ht).1.1)
  · exact Binary64.isNaN_sub_of_isFinite (hfin s hs).1.2
      (isFinite_sortedMedian hne fun t ht => (hfin t ht).1.2)
  · exact Binary64.isNaN_sub_of_isFinite (hfin s hs).2
      (isFinite_sortedMedian hne fun t ht => (hfin t ht).2)

theorem stationaryRadius_of_contract (h : frozenRecoveryContract o = true) :
    o.longGapRecoveryStationaryRadiusM.equal ⟨0x3fb999999999999a⟩ = true := by
  simp only [frozenRecoveryContract, Bool.and_eq_true] at h
  tauto

/-- The test passes exactly when every position lies within the radius: no NaN can hide behind
`std::max`, and the largest distance is finite because the radius is. -/
theorem consensusPasses_iff (hnorm : NormKeepsNumbers norm)
    (hradius : o.longGapRecoveryStationaryRadiusM.equal ⟨0x3fb999999999999a⟩ = true)
    (hfin : ∀ s ∈ samples, s.p_IinG.allFinite = true) :
    consensusPasses norm o samples = true ↔ WithinRadius o norm samples := by
  have hzero : (⟨0⟩ : Binary64).isNaN = false := by decide
  obtain ⟨hnan, hkey⟩ : o.longGapRecoveryStationaryRadiusM.isNaN = false ∧
      o.longGapRecoveryStationaryRadiusM.key = (⟨0x3fb999999999999a⟩ : Binary64).key := by
    simp only [Binary64.equal, Bool.and_eq_true, Bool.not_eq_true', decide_eq_true_eq] at hradius
    exact ⟨hradius.1.1, hradius.2⟩
  have hpos : (⟨0⟩ : Binary64) ≤ o.longGapRecoveryStationaryRadiusM := by
    refine ⟨hzero, hnan, ?_⟩
    rw [hkey]
    decide
  have hle : maximumRadius norm samples ≤ o.longGapRecoveryStationaryRadiusM ↔
      (⟨0⟩ : Binary64) ≤ o.longGapRecoveryStationaryRadiusM ∧ WithinRadius o norm samples :=
    Binary64.foldl_max_le_iff samples ⟨0⟩ hzero (fun s hs => isNaN_norm_sub hnorm hfin hs)
  have hfinite : maximumRadius norm samples ≤ o.longGapRecoveryStationaryRadiusM →
      (maximumRadius norm samples).isFinite = true := by
    intro h
    refine Binary64.isFinite_of_le (Binary64.le_foldl_max samples ⟨0⟩ hzero) h ?_
    rw [hkey]
    decide
  rw [consensusPasses, Bool.and_eq_true, decide_eq_true_eq]
  constructor
  · rintro ⟨_, h⟩
    exact (hle.mp h).2
  · intro h
    have hmax := hle.mpr ⟨hpos, h⟩
    exact ⟨hfinite hmax, hmax⟩

end Radius

/-! ## The retained samples are the last frames -/

section Window

variable {O : Objects} {o : VioManagerOptions} {norm : Vector3d → Binary64}
variable {es : List (Entry (VioManager O) (CameraCallback O))}

/-- A callback that was a recovery attempt on which the relocalizer accepted the pose `s`. -/
structure AcceptedAttempt (e : Entry (VioManager O) (CameraCallback O))
    (s : LongGapRecoveryPoseSample) : Prop where
  attempt : .attempt true ∈ events e
  accepted : acceptedSample e.input = some s

/-- The samples `cs` are the accepted poses of the last callbacks of `es`, all of activation
`activation`, with no trigger after the first of them and no commit. -/
inductive Retained (activation : UInt64) :
    List (Entry (VioManager O) (CameraCallback O)) → List LongGapRecoveryPoseSample → Prop
  | nil {es : List (Entry (VioManager O) (CameraCallback O))} : Retained activation es []
  | snoc {es : List (Entry (VioManager O) (CameraCallback O))}
      {cs : List LongGapRecoveryPoseSample} {e : Entry (VioManager O) (CameraCallback O)}
      {s : LongGapRecoveryPoseSample} :
      Retained activation es cs → AcceptedAttempt e s → s.p_IinG.allFinite = true →
      e.post.recovery.activationCount = activation → (cs ≠ [] → .trigger ∉ events e) →
      .relocalizationCommit ∉ events e → Retained activation (es ++ [e]) (cs ++ [s])

theorem Retained.allFinite {activation : UInt64} {cs : List LongGapRecoveryPoseSample}
    (h : Retained activation es cs) : ∀ s ∈ cs, s.p_IinG.allFinite = true := by
  induction h with
  | nil => simp
  | snoc _ _ hfin _ _ _ ih =>
    intro s hs
    rcases mem_append.mp hs with hs | hs
    · exact ih s hs
    · rw [mem_singleton.mp hs]
      exact hfin

variable {s : LongGapRecoveryPoseSample}

theorem Retained.snoc_inv {activation : UInt64} {cs : List LongGapRecoveryPoseSample}
    (h : Retained activation es (cs ++ [s])) :
    ∃ es' e, es = es' ++ [e] ∧ Retained activation es' cs ∧ AcceptedAttempt e s ∧
      e.post.recovery.activationCount = activation ∧ (cs ≠ [] → .trigger ∉ events e) ∧
      .relocalizationCommit ∉ events e := by
  generalize hcs : cs ++ [s] = cs' at h
  cases h with
  | nil => simp at hcs
  | @snoc es' cs' e s' hr hacc _ hact htrig hcommit =>
    obtain ⟨rfl, hs⟩ := append_inj' hcs rfl
    cases hs
    exact ⟨es', e, rfl, hr, hacc, hact, htrig, hcommit⟩

variable {r r' : LongGapRecovery} {evs : List Event} {v : Option LongGapRecoveryPoseSample}

/-- After an attempt the samples are either gone or the old ones and the accepted pose. -/
theorem attemptStep_consensus (h : AttemptStep o norm v r evs r') :
    r'.consensus = [] ∨
      ∃ s, v = some s ∧ s.p_IinG.allFinite = true ∧ r'.consensus = r.consensus ++ [s] ∧
        r'.activationCount = r.activationCount ∧ .attempt true ∈ evs := by
  have hsettles : ∀ {b : LongGapRecovery} {evs : List Event}, Settles o b evs r' →
      r'.consensus = [] ∨ r' = b := by
    intro b evs hb
    cases hb with
    | retry _ => exact Or.inr rfl
    | exhausted _ => exact Or.inl rfl
  cases h with
  | reject _ hset =>
    rcases hsettles hset with h | h
    · exact Or.inl h
    · exact Or.inl (by rw [h])
  | collect hv hfin _ hset =>
    rcases hsettles hset with h | h
    · exact Or.inl h
    · exact Or.inr ⟨_, hv, hfin, by rw [h], by rw [h]; rfl, by simp⟩
  | scatter _ _ _ _ hset =>
    rcases hsettles hset with h | h
    · exact Or.inl h
    · exact Or.inl (by rw [h])
  | commit _ _ _ _ => exact Or.inl rfl

theorem retained_step (hb : FrozenBounds o) {e : Entry (VioManager O) (CameraCallback O)}
    (hi : RecoveryInv e.pre.recovery)
    (hret : Retained e.pre.recovery.activationCount es e.pre.recovery.consensus)
    (hs : Step o norm e.pre e.input e.post) :
    Retained e.post.recovery.activationCount (es ++ [e]) e.post.recovery.consensus := by
  have hstep : RecoveryStep o norm (acceptedSample e.input) e.pre.recovery (events e)
      e.post.recovery := step_refines o norm e.input hb.enabled (by rw [hb.frames]; decide) hs
  have hphase := recoveryStep_phase hb.attempts hb.frames hstep
  have hi' := recoveryStep_inv hb.attempts hb.frames hi hstep
  by_cases hre : e.post.recovery.phase = .REACQUIRING
  case neg =>
    rw [hi'.samples_empty hre]
    exact Retained.nil
  have hnocommit : .relocalizationCommit ∉ events e := by
    rw [hphase.commits, hre]
    simp
  generalize hevs : events e = evs at *
  generalize hpost : e.post.recovery = r' at *
  generalize hpre : e.pre.recovery = r at *
  cases hstep with
  | ordinary htw _ =>
    rcases htw with h | h <;> rw [h] at hre <;> cases hre
  | warmupComplete _ _ => cases hre
  | degraded hf => rw [hf] at hre; cases hre
  | attempt hp hatt =>
    rcases attemptStep_consensus hatt with h | ⟨s, hv, hfin, hcs, hact, hmem⟩
    · rw [h]
      exact Retained.nil
    · rw [hcs, hact]
      exact Retained.snoc hret ⟨by rw [hevs]; exact hmem, hv⟩ hfin (by rw [hpost, hact])
        (fun _ => by rw [hevs]; exact attemptStep_no_trigger hatt) (by rw [hevs]; exact hnocommit)
  | trigger hp hatt =>
    rcases attemptStep_consensus hatt with h | ⟨s, hv, hfin, hcs, hact, hmem⟩
    · rw [h]
      exact Retained.nil
    · rw [hcs]
      refine Retained.snoc Retained.nil ⟨?_, hv⟩ hfin (by rw [hpost]) (fun h => absurd rfl h) ?_
      · rw [hevs]
        exact mem_cons_of_mem _ hmem
      · rw [hevs]
        exact hnocommit

theorem retained_run {m₀ m : VioManager O} {parts : Parts O}
    (henabled : o.longGapRecoveryEnabled = true) (hnew : newVioManager o parts = .ok m₀)
    (hrun : Run (Step o norm) m₀ es m) :
    RecoveryInv m.recovery ∧ Retained m.recovery.activationCount es m.recovery.consensus := by
  obtain ⟨hb, hview⟩ := newVioManager_ok henabled hnew
  have hr : m₀.recovery = _ := (Prod.mk.inj hview).1
  refine hrun.history (P := fun es m => RecoveryInv m.recovery ∧
    Retained m.recovery.activationCount es m.recovery.consensus) ?_ ?_
  · rw [hr]
    exact ⟨recoveryInv_new, Retained.nil⟩
  · rintro es s cb s' ⟨hi, hret⟩ hs
    exact ⟨step_inv hb hi hs, retained_step (e := ⟨s, cb, s'⟩) hb hi hret hs⟩

/-! ## Commits and consensus -/

/-- Three consecutive callbacks that were accepted attempts of one activation. -/
structure ConsensusWindow (e₁ e₂ e₃ : Entry (VioManager O) (CameraCallback O))
    (s₁ s₂ s₃ : LongGapRecoveryPoseSample) : Prop where
  first : AcceptedAttempt e₁ s₁
  second : AcceptedAttempt e₂ s₂
  third : AcceptedAttempt e₃ s₃
  activation₁ : e₁.post.recovery.activationCount = e₃.post.recovery.activationCount
  activation₂ : e₂.post.recovery.activationCount = e₃.post.recovery.activationCount

theorem attemptStep_commitCall {R_GtoI : Matrix3d} {p_IinG : Vector3d}
    (h : AttemptStep o norm v r evs r') (hmem : .commitCall R_GtoI p_IinG ∈ evs) :
    ∃ s, v = some s ∧ s.p_IinG.allFinite = true ∧
      o.longGapRecoveryConsensusFrames ≤ (r.consensus.length : Int) + 1 ∧
      consensusPasses norm o (r.consensus ++ [s]) = true ∧ R_GtoI = s.R_GtoI ∧
      p_IinG = s.p_IinG ∧ .attempt true ∈ evs ∧ r'.activationCount = r.activationCount := by
  have hsettles : ∀ {b : LongGapRecovery} {evs : List Event}, Settles o b evs r' →
      .commitCall R_GtoI p_IinG ∉ evs := by
    intro b evs hb
    cases hb <;> simp
  cases h with
  | reject _ hset =>
    have := hsettles hset
    simp_all
  | collect _ _ _ hset =>
    have := hsettles hset
    simp_all
  | scatter _ _ _ _ hset =>
    have := hsettles hset
    simp_all
  | @commit s hv hfin hlen hpass =>
    simp only [mem_cons, reduceCtorEq, false_or, Event.commitCall.injEq, not_mem_nil,
      or_false] at hmem
    exact ⟨s, hv, hfin, hlen, hpass, hmem.1, hmem.2, by simp, rfl⟩

theorem commit_window (hb : FrozenBounds o) (hnorm : NormKeepsNumbers norm)
    (hradius : o.longGapRecoveryStationaryRadiusM.equal ⟨0x3fb999999999999a⟩ = true)
    {e : Entry (VioManager O) (CameraCallback O)} (hi : RecoveryInv e.pre.recovery)
    (hret : Retained e.pre.recovery.activationCount es e.pre.recovery.consensus)
    (hs : Step o norm e.pre e.input e.post) {R_GtoI : Matrix3d} {p_IinG : Vector3d}
    (hmem : .commitCall R_GtoI p_IinG ∈ events e) :
    ∃ es' e₁ e₂ s₁ s₂ s₃, es = es' ++ [e₁, e₂] ∧ ConsensusWindow e₁ e₂ e s₁ s₂ s₃ ∧
      WithinRadius o norm [s₁, s₂, s₃] ∧ R_GtoI = s₃.R_GtoI ∧ p_IinG = s₃.p_IinG ∧
      (.trigger ∉ events e₂ ∧ .trigger ∉ events e) ∧
      (.relocalizationCommit ∉ events e₁ ∧ .relocalizationCommit ∉ events e₂) := by
  have hstep : RecoveryStep o norm (acceptedSample e.input) e.pre.recovery (events e)
      e.post.recovery := step_refines o norm e.input hb.enabled (by rw [hb.frames]; decide) hs
  generalize hevs : events e = evs at *
  generalize hpost : e.post.recovery = r' at *
  cases hstep with
  | ordinary _ hall => exact absurd hmem (not_mem_of_all_ordinary hall rfl)
  | warmupComplete _ hall =>
    have := not_mem_of_all_ordinary hall (e := .commitCall R_GtoI p_IinG) rfl
    simp_all
  | degraded _ => simp at hmem
  | attempt hphase hatt =>
    obtain ⟨s₃, hv, hfin, hlen, hpass, hR, hp, hacc, hact⟩ := attemptStep_commitCall hatt hmem
    -- Two samples were retained, so the window reaches back exactly two callbacks.
    have hsamples := hi.samples
    rw [hb.frames] at hlen
    obtain ⟨s₁, s₂, hcs⟩ : ∃ s₁ s₂, e.pre.recovery.consensus = [s₁] ++ [s₂] :=
      length_eq_two.mp (by omega)
    rw [hcs] at hret hpass
    obtain ⟨es₂, e₂, rfl, hret₂, hacc₂, hact₂, htrig₂, hcom₂⟩ := hret.snoc_inv
    rw [← nil_append [s₁]] at hret₂
    obtain ⟨es₁, e₁, rfl, -, hacc₁, hact₁, -, hcom₁⟩ := hret₂.snoc_inv
    have hfinite : ∀ s ∈ [s₁, s₂, s₃], s.p_IinG.allFinite = true := by
      intro s hs
      have := hret.allFinite
      simp_all
      rcases hs with rfl | rfl | rfl <;> tauto
    refine ⟨es₁, e₁, e₂, s₁, s₂, s₃, by simp, ⟨hacc₁, hacc₂, ⟨?_, hv⟩, ?_, ?_⟩, ?_, hR, hp,
      ⟨htrig₂ (by simp), attemptStep_no_trigger hatt⟩, hcom₁, hcom₂⟩
    · rw [hevs]
      exact hacc
    · rw [hpost, hact, hact₁]
    · rw [hpost, hact, hact₂]
    · exact (consensusPasses_iff hnorm hradius hfinite).mp hpass
  | trigger _ hatt =>
    simp only [mem_cons, reduceCtorEq, false_or] at hmem
    obtain ⟨_, _, _, hlen, _⟩ := attemptStep_commitCall hatt hmem
    rw [hb.frames] at hlen
    simp [LongGapRecovery.triggered] at hlen

theorem attemptStep_activation (h : AttemptStep o norm v r evs r') :
    r'.activationCount = r.activationCount := by
  have hsettles : ∀ {b : LongGapRecovery} {evs : List Event}, Settles o b evs r' →
      r'.activationCount = b.activationCount := by
    intro b evs hb
    cases hb <;> rfl
  cases h with
  | reject _ hset => exact (hsettles hset).trans rfl
  | collect _ _ _ hset => exact (hsettles hset).trans rfl
  | scatter _ _ _ _ hset => exact (hsettles hset).trans rfl
  | commit _ _ _ _ => rfl

theorem recoveryStep_attempt {b : Bool} (h : RecoveryStep o norm v r evs r')
    (hmem : .attempt b ∈ evs) :
    (r.phase = .REACQUIRING ∧ AttemptStep o norm v r evs r') ∨
      ∃ evs', evs = .trigger :: evs' ∧ AttemptStep o norm v r.triggered evs' r' := by
  cases h with
  | ordinary _ hall => exact absurd hmem (not_mem_of_all_ordinary hall rfl)
  | warmupComplete _ hall =>
    have := not_mem_of_all_ordinary hall (e := .attempt b) rfl
    simp_all
  | degraded _ => simp at hmem
  | attempt hphase hatt => exact Or.inl ⟨hphase, hatt⟩
  | trigger _ hatt => exact Or.inr ⟨_, rfl, hatt⟩

theorem recoveryStep_attempt_same {b : Bool} (h : RecoveryStep o norm v r evs r')
    (hmem : .attempt b ∈ evs) (hact : r'.activationCount = r.activationCount) :
    r.phase = .REACQUIRING ∧ AttemptStep o norm v r evs r' := by
  rcases recoveryStep_attempt h hmem with hatt | ⟨evs', -, hatt⟩
  · exact hatt
  · have hcount : r.activationCount + 1 = r.activationCount :=
      (attemptStep_activation hatt).symm.trans hact
    simp at hcount

/-- An accepted pose after which the activation goes on and nothing was cleared has been kept. -/
theorem attemptStep_collects (hv : v = some s)
    (h : AttemptStep o norm v r evs r') (hphase : r'.phase = .REACQUIRING)
    (hclear : .consensusReject ∉ evs) :
    r'.consensus = r.consensus ++ [s] ∧
      (r.consensus.length : Int) + 1 < o.longGapRecoveryConsensusFrames := by
  cases h with
  | reject hnone _ =>
    rw [hnone] at hv
    cases hv
  | collect hsome _ hlen hset =>
    rw [hsome] at hv
    cases hv
    cases hset with
    | retry _ => exact ⟨rfl, hlen⟩
    | exhausted _ => cases hphase
  | scatter _ _ _ _ _ => simp at hclear
  | commit _ _ _ _ => cases hphase

theorem attemptStep_commits (hv : v = some s) (h : AttemptStep o norm v r evs r')
    (hlen : o.longGapRecoveryConsensusFrames ≤ (r.consensus.length : Int) + 1)
    (hpass : s.p_IinG.allFinite = true → consensusPasses norm o (r.consensus ++ [s]) = true) :
    .commitCall s.R_GtoI s.p_IinG ∈ evs := by
  cases h with
  | reject hnone _ =>
    rw [hnone] at hv
    cases hv
  | collect _ _ hfew _ => omega
  | scatter hsome hfin _ hfail _ =>
    rw [hsome] at hv
    cases hv
    rw [hpass hfin] at hfail
    cases hfail
  | commit hsome _ _ _ =>
    rw [hsome] at hv
    cases hv
    simp

theorem window_commits (hb : FrozenBounds o) (hnorm : NormKeepsNumbers norm)
    (hradius : o.longGapRecoveryStationaryRadiusM.equal ⟨0x3fb999999999999a⟩ = true)
    {e₁ e₂ e₃ : Entry (VioManager O) (CameraCallback O)} {s₁ s₂ s₃ : LongGapRecoveryPoseSample}
    (hret : Retained e₃.pre.recovery.activationCount es e₃.pre.recovery.consensus)
    (hs₁ : Step o norm e₁.pre e₁.input e₁.post) (hs₂ : Step o norm e₂.pre e₂.input e₂.post)
    (hs₃ : Step o norm e₃.pre e₃.input e₃.post) (h₁₂ : e₂.pre = e₁.post) (h₂₃ : e₃.pre = e₂.post)
    (hw : ConsensusWindow e₁ e₂ e₃ s₁ s₂ s₃) (hclear₁ : .consensusReject ∉ events e₁)
    (hclear₂ : .consensusReject ∉ events e₂) (hwithin : WithinRadius o norm [s₁, s₂, s₃]) :
    .commitCall s₃.R_GtoI s₃.p_IinG ∈ events e₃ := by
  have hrefine : ∀ {e : Entry (VioManager O) (CameraCallback O)},
      Step o norm e.pre e.input e.post → RecoveryStep o norm (acceptedSample e.input)
        e.pre.recovery (events e) e.post.recovery := fun hs =>
    step_refines o norm _ hb.enabled (by rw [hb.frames]; decide) hs
  obtain ⟨hphase₃, hatt₃⟩ := recoveryStep_attempt_same (hrefine hs₃) hw.third.attempt
    (by rw [h₂₃, hw.activation₂])
  obtain ⟨hphase₂, hatt₂⟩ := recoveryStep_attempt_same (hrefine hs₂) hw.second.attempt
    (by rw [h₁₂, hw.activation₁, hw.activation₂])
  rw [h₂₃] at hphase₃
  rw [h₁₂] at hphase₂
  obtain ⟨hcs₂, hlen₂⟩ := attemptStep_collects hw.second.accepted hatt₂ hphase₃ hclear₂
  -- Nothing was retained before the first of the three, or the second would have decided.
  have hcs₁ : e₁.post.recovery.consensus = [s₁] := by
    rw [hb.frames, h₁₂] at hlen₂
    rcases recoveryStep_attempt (hrefine hs₁) hw.first.attempt with ⟨-, hatt₁⟩ | ⟨evs', hevs, hatt₁⟩
    · obtain ⟨hcs, -⟩ := attemptStep_collects hw.first.accepted hatt₁ hphase₂ hclear₁
      rw [hcs] at hlen₂ ⊢
      have hnil : e₁.pre.recovery.consensus = [] := by
        apply length_eq_zero_iff.mp
        simp at hlen₂
        omega
      rw [hnil]
      rfl
    · rw [hevs] at hclear₁
      exact (attemptStep_collects hw.first.accepted hatt₁ hphase₂
        (fun h => hclear₁ (mem_cons_of_mem _ h))).1
  have hcs₃ : e₃.pre.recovery.consensus = [s₁] ++ [s₂] := by
    rw [h₂₃, hcs₂, h₁₂, hcs₁]
  refine attemptStep_commits hw.third.accepted hatt₃ ?_ (fun hfin => ?_)
  · rw [hcs₃, hb.frames]
    simp
  · have hfinite : ∀ s ∈ [s₁] ++ [s₂] ++ [s₃], s.p_IinG.allFinite = true := by
      rw [hcs₃] at hret
      intro s hs
      rcases mem_append.mp hs with hs | hs
      · exact hret.allFinite s hs
      · rw [mem_singleton.mp hs]
        exact hfin
    rw [hcs₃]
    exact (consensusPasses_iff hnorm hradius hfinite).mpr hwithin

variable {m₀ m : VioManager O} {parts : Parts O}

/-- **A commit is a consensus of three frames.** Every call of the commit happens on the third
of three consecutive accepted attempts of one activation whose positions lie within the
stationary radius of their median, with the pose accepted on that very frame; and three such
frames, with no clearing between them, always end in a commit. -/
theorem commit_on_consensus (hnorm : NormKeepsNumbers norm)
    (henabled : o.longGapRecoveryEnabled = true) (hnew : newVioManager o parts = .ok m₀)
    (hrun : Run (Step o norm) m₀ es m) :
    (∀ pre e post R_GtoI p_IinG, es = pre ++ e :: post →
      .commitCall R_GtoI p_IinG ∈ events e →
      ∃ pre' e₁ e₂ s₁ s₂ s₃, pre = pre' ++ [e₁, e₂] ∧ ConsensusWindow e₁ e₂ e s₁ s₂ s₃ ∧
        WithinRadius o norm [s₁, s₂, s₃] ∧ R_GtoI = s₃.R_GtoI ∧ p_IinG = s₃.p_IinG ∧
        (.trigger ∉ events e₂ ∧ .trigger ∉ events e) ∧
        (.relocalizationCommit ∉ events e₁ ∧ .relocalizationCommit ∉ events e₂)) ∧
    (∀ pre e₁ e₂ e₃ post s₁ s₂ s₃, es = pre ++ e₁ :: e₂ :: e₃ :: post →
      ConsensusWindow e₁ e₂ e₃ s₁ s₂ s₃ → .consensusReject ∉ events e₁ →
      .consensusReject ∉ events e₂ → WithinRadius o norm [s₁, s₂, s₃] →
      .commitCall s₃.R_GtoI s₃.p_IinG ∈ events e₃) := by
  obtain ⟨hb, -⟩ := newVioManager_ok henabled hnew
  have hradius := stationaryRadius_of_contract (newVioManager_contract henabled hnew)
  constructor
  · rintro pre e post R p rfl hmem
    obtain ⟨t, hpre, hrest⟩ := Run.split _ hrun
    obtain ⟨rfl, hs, -⟩ := hrest.uncons
    obtain ⟨hi, hret⟩ := retained_run henabled hnew hpre
    exact commit_window hb hnorm hradius hi hret hs hmem
  · rintro pre e₁ e₂ e₃ post s₁ s₂ s₃ rfl hw hclear₁ hclear₂ hwithin
    obtain ⟨t, hpre, hrest⟩ := Run.split _ hrun
    obtain ⟨rfl, hs₁, hrest₁⟩ := hrest.uncons
    obtain ⟨h₁₂, hs₂, hrest₂⟩ := hrest₁.uncons
    obtain ⟨h₂₃, hs₃, -⟩ := hrest₂.uncons
    have hrun₂ : Run (Step o norm) m₀ (pre ++ [e₁]) e₂.pre := by
      rw [h₁₂]
      exact Run.snoc hpre hs₁
    obtain ⟨-, hret⟩ := retained_run henabled hnew (Run.snoc hrun₂ hs₂)
    rw [← h₂₃] at hret
    exact window_commits hb hnorm hradius hret hs₁ hs₂ hs₃ h₁₂ h₂₃ hw hclear₁ hclear₂ hwithin

/-- The committed outage of `outageCallbacks`, on a norm that is exact on its positions. -/
theorem commit_on_consensus_outage :
    (∃ R_GtoI p_IinG, ∃ e ∈ outageRun.1, .commitCall R_GtoI p_IinG ∈ events e) ∧
    (∀ pre e post R_GtoI p_IinG, outageRun.1 = pre ++ e :: post →
      .commitCall R_GtoI p_IinG ∈ events e →
      ∃ pre' e₁ e₂ s₁ s₂ s₃, pre = pre' ++ [e₁, e₂] ∧ ConsensusWindow e₁ e₂ e s₁ s₂ s₃ ∧
        WithinRadius frozenOptions axisNorm [s₁, s₂, s₃] ∧ R_GtoI = s₃.R_GtoI ∧
        p_IinG = s₃.p_IinG ∧
        (.trigger ∉ events e₂ ∧ .trigger ∉ events e) ∧
        (.relocalizationCommit ∉ events e₁ ∧ .relocalizationCommit ∉ events e₂)) :=
  ⟨⟨default, Vector3d.zero, by decide +kernel⟩,
    (commit_on_consensus axisNorm_keepsNumbers rfl newVioManager_frozenOptions outageRun_run).1⟩

end Window

end Bravo.Recovery
