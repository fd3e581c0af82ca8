import Bravo.Updater.Update

/-! # The pipeline on detached copies

In ordinary mode the pipeline runs on working copies of the features. Here it is related to the same
pipeline on the live objects themselves: both take the same branches, a working copy always equals
the live object of the other run, and the features that remain are the same. What the first run does
before it ends is invisible from outside.
-/

namespace Bravo.Updater

open List hiding modify

open Bravo.Trace Bravo.Journal Bravo.Shadow

variable {σ α β : Type}

/-! ## Relations -/

structure LocalStep (s s' : Call σ) : Prop where
  world : s'.toWorld = s.toWorld
  batch : s'.batch = s.batch
  liveCommitStarted : s'.liveCommitStarted = s.liveCommitStarted
  meanCommits : s'.meanCommits = s.meanCommits
  covarianceCommits : s'.covarianceCommits = s.covarianceCommits
  finalizations : s'.finalizations = s.finalizations

theorem LocalStep.refl (s : Call σ) : LocalStep s s := ⟨rfl, rfl, rfl, rfl, rfl, rfl⟩

/-- An ordinary call that has neither committed nor finalized: from outside it looks like `w`. -/
structure Backstage (w : World σ) (s : Call σ) : Prop where
  state : s.state = w.state
  live : ∀ n, s.heap (.live n) = w.heap (.live n)
  terminal : s.terminal = w.terminal
  commitCalls : s.commitCalls = w.commitCalls
  liveCommitStarted : s.liveCommitStarted = false
  meanCommits : s.meanCommits = 0
  covarianceCommits : s.covarianceCommits = 0
  finalizations : s.finalizations = 0

theorem Backstage.of_local {w : World σ} {s s' : Call σ} (h : Backstage w s)
    (hs : LocalStep s s') : Backstage w s' where
  state := hs.world ▸ h.state
  live n := by rw [hs.world]; exact h.live n
  terminal := hs.world ▸ h.terminal
  commitCalls := hs.world ▸ h.commitCalls
  liveCommitStarted := hs.liveCommitStarted.trans h.liveCommitStarted
  meanCommits := hs.meanCommits.trans h.meanCommits
  covarianceCommits := hs.covarianceCommits.trans h.covarianceCommits
  finalizations := hs.finalizations.trans h.finalizations

/-- The live object behind entry `i`. -/
def World.entry (w : World σ) (i : Nat) : FeaturePtr := w.featureVec.getD i .null

/-- The batch of a call on `w` whose working copies `indices` are still active. -/
def detachedBatch (w : World σ) (indices : List Nat) : MSCKFDetachedFeatureBatch where
  entries := w.featureVec
  active := indices.map .working

/-- `s` runs on working copies, `t` on the live objects. -/
structure Mirrors (w : World σ) (s t : Call σ) : Prop extends Backstage w s where
  active : ∃ indices, indices.Sublist (List.range w.featureVec.length) ∧
    s.batch = some (detachedBatch w indices) ∧ t.featureVec = indices.map w.entry
  twins : ∀ i < w.featureVec.length, s.heap (.working i) = t.heap (w.entry i)
  others : ∀ n, .live n ∉ w.featureVec → t.heap (.live n) = w.heap (.live n)
  inPlace : t.batch = none

structure Synced (s t : Call σ) : Prop where
  tick : s.tick = t.tick
  system : s.system = t.system
  rawSystemCount : s.event.rawSystemCount = t.event.rawSystemCount
  priorSnapshot : s.priorSnapshot = t.priorSnapshot

theorem Mirrors.of_local {w : World σ} {s s' t t' : Call σ} (h : Mirrors w s t)
    (hs : LocalStep s s') (ht : LocalStep t t') : Mirrors w s' t' where
  toBackstage := h.toBackstage.of_local hs
  active := by
    rw [hs.batch, ht.world]
    exact h.active
  twins i hi := by
    rw [hs.world, ht.world]
    exact h.twins i hi
  others n hn := by
    rw [ht.world]
    exact h.others n hn
  inPlace := ht.batch.trans h.inPlace

structure DistinctFeatures (w : World σ) : Prop where
  live : ∀ p ∈ w.featureVec, ∃ n, p = .live n
  nodup : w.featureVec.Nodup

theorem DistinctFeatures.entry_inj {w : World σ} (hw : DistinctFeatures w) {i j : Nat}
    (hi : i < w.featureVec.length) (hj : j < w.featureVec.length) (h : w.entry i = w.entry j) :
    i = j := by
  unfold World.entry at h
  rw [getD_eq_getElem _ _ hi, getD_eq_getElem _ _ hj] at h
  exact (List.Nodup.getElem_inj_iff hw.nodup).mp h

/-! ## The end of a failed call -/

/-- A failed ordinary call: nothing happened, and the caller gets no feature back. -/
structure RolledBack (w : World σ) (s : Call σ) : Prop where
  state : s.state = w.state
  live : ∀ n, s.heap (.live n) = w.heap (.live n)
  featureVec : s.featureVec = []
  commitCalls : s.commitCalls = w.commitCalls ∨ s.commitCalls = w.commitCalls ++ [false]
  finalizations : s.finalizations = 0
  event : ∃ event, s.terminal = w.terminal ++ [event] ∧ event.terminalStatus = .kInternalFailure

def Thrown (w : World σ) (e : Exn) (s : Call σ) : Prop := Backstage w s ∧ ∃ f, e = .fault f

/-- One program on the working copies, one on the live objects. Where `ended` holds of the result,
the call is over. -/
def Tracks (w : World σ) (ended : α → Bool) (x y : Update σ α) : Prop :=
  ∀ s t, Mirrors w s t → Synced s t →
    relWp x y
      (fun a b s' t' => a = b ∧ if ended a then RolledBack w s' else Mirrors w s' t' ∧ Synced s' t')
      (Thrown w) s t

/-! ## Rules -/

section Rules

variable {w : World σ} {ended : α → Bool}

theorem Tracks.of_pure {a : α} (h : ended a = false) : Tracks w ended (pure a) (pure a) := by
  intro s t hm hs
  refine relWp_pure ⟨rfl, ?_⟩
  rw [h]
  exact ⟨hm, hs⟩

theorem Tracks.bind {x y : Update σ α} {f g : α → Update σ β} {ended : β → Bool}
    (hx : Tracks w (fun _ => false) x y) (hf : ∀ a, Tracks w ended (f a) (g a)) :
    Tracks w ended (x >>= f) (y >>= g) := by
  intro s t hm hs
  refine relWp_bind (relWp_mono (hx s t hm hs) (fun a b s' t' h => ?_) (fun e s' he => he))
  obtain ⟨rfl, hm', hs'⟩ := h
  exact hf a s' t' hm' hs'

theorem Tracks.bind_ended {x y : Update σ α} {f g : α → Update σ β}
    {ended' : β → Bool} (hx : Tracks w ended x y)
    (hf : ∀ a, ended a = false → Tracks w ended' (f a) (g a))
    (hend : ∀ a, ended a = true → ∃ b, f a = pure b ∧ g a = pure b ∧ ended' b = true) :
    Tracks w ended' (x >>= f) (y >>= g) := by
  intro s t hm hs
  refine relWp_bind (relWp_mono (hx s t hm hs) (fun a b s' t' h => ?_) (fun e s' he => he))
  obtain ⟨rfl, h⟩ := h
  cases ha : ended a with
  | false =>
    rw [ha] at h
    exact hf a ha s' t' h.1 h.2
  | true =>
    obtain ⟨b, hfb, hgb, hb⟩ := hend a ha
    rw [hfb, hgb]
    refine relWp_pure ⟨rfl, ?_⟩
    rw [hb]
    rw [ha] at h
    exact h

theorem Tracks.of_get {f g : Call σ → Update σ α}
    (h : ∀ s t, Mirrors w s t → Synced s t → Tracks w ended (f s) (g t)) :
    Tracks w ended (get >>= f) (get >>= g) := by
  intro s t hm hs
  exact relWp_bind (relWp_get (h s t hm hs s t hm hs))

theorem Tracks.of_modify {f g : Call σ → Call σ}
    (h : ∀ s t, Mirrors w s t → Synced s t → Mirrors w (f s) (g t) ∧ Synced (f s) (g t)) :
    Tracks w (fun _ => false) (modify f) (modify g) := by
  intro s t hm hs
  exact relWp_modify ⟨rfl, h s t hm hs⟩

theorem Tracks.of_local {f : Call σ → Call σ} (hlocal : ∀ s, LocalStep s (f s))
    (hsync : ∀ s t, Synced s t → Synced (f s) (f t)) :
    Tracks w (fun _ => false) (modify f) (modify f) :=
  .of_modify fun s t hm hs => ⟨hm.of_local (hlocal s) (hlocal t), hsync s t hs⟩

theorem Tracks.ite {c : Prop} [Decidable c] {x x' y y' : Update σ α}
    (hx : c → Tracks w ended x x') (hy : ¬ c → Tracks w ended y y') :
    Tracks w ended (if c then x else y) (if c then x' else y') := by
  split
  · rename_i h
    exact hx h
  · rename_i h
    exact hy h

theorem Tracks.of_onlyIf {c : Bool} {x y : Update σ Unit} (h : Tracks w (fun _ => false) x y) :
    Tracks w (fun _ => false) (onlyIf c x) (onlyIf c y) := by
  cases c with
  | false => exact .of_pure rfl
  | true => exact h

theorem tracks_throw (f : Fault) (y : Update σ α) (ended : α → Bool) :
    Tracks w ended (throw (.fault f)) y :=
  fun _ _ hm _ => relWp_throw ⟨hm.toBackstage, f, rfl⟩

theorem tracks_throw_bind (f : Fault) (g : α → Update σ β) (y : Update σ β) (ended : β → Bool) :
    Tracks w ended ((throw (.fault f) : Update σ α) >>= g) y :=
  fun _ _ hm _ => relWp_throw ⟨hm.toBackstage, f, rfl⟩

theorem tracks_call (x : Except Fault α) : Tracks w (fun _ => false) (call x) (call x) := by
  cases x with
  | ok a => exact .of_pure rfl
  | error f => exact tracks_throw f _ _

theorem tracks_checked (x : Except String α) :
    Tracks w (fun _ => false) (checked x) (checked x) := by
  cases x with
  | ok a => exact .of_pure rfl
  | error _ => exact tracks_throw _ _ _

end Rules

/-! ## Features -/

section Features

variable {w : World σ} {i : Nat}

theorem DistinctFeatures.entry_mem {w : World σ} (hi : i < w.featureVec.length) :
    w.entry i ∈ w.featureVec := by
  unfold World.entry
  rw [getD_eq_getElem _ _ hi]
  exact getElem_mem hi

variable {s t : Call σ}

theorem Mirrors.write (hw : DistinctFeatures w) (h : Mirrors w s t)
    (hi : i < w.featureVec.length) (f : Feature) :
    Mirrors w { s with heap := Function.update s.heap (.working i) f }
      { t with heap := Function.update t.heap (w.entry i) f } where
  state := h.state
  live n := by
    have hne : FeaturePtr.live n ≠ .working i := by simp
    simp only [Function.update_of_ne hne]
    exact h.live n
  terminal := h.terminal
  commitCalls := h.commitCalls
  liveCommitStarted := h.liveCommitStarted
  meanCommits := h.meanCommits
  covarianceCommits := h.covarianceCommits
  finalizations := h.finalizations
  active := h.active
  twins j hj := by
    by_cases hij : j = i
    · subst hij
      simp
    · have hentry : w.entry j ≠ w.entry i := fun heq => hij (hw.entry_inj hj hi heq)
      simp only [Function.update_of_ne hentry, ne_eq, FeaturePtr.working.injEq, hij,
        not_false_eq_true, Function.update_of_ne]
      exact h.twins j hj
  others n hn := by
    have hne : FeaturePtr.live n ≠ w.entry i := fun heq =>
      hn (heq ▸ DistinctFeatures.entry_mem hi)
    simp only [Function.update_of_ne hne]
    exact h.others n hn
  inPlace := h.inPlace

theorem tracks_writeFeature (hw : DistinctFeatures w) (hi : i < w.featureVec.length) (f : Feature) :
    Tracks w (fun _ => false) (writeFeature (.working i) f) (writeFeature (w.entry i) f) :=
  .of_modify fun _ _ hm hs =>
    ⟨hm.write hw hi f, hs.tick, hs.system, hs.rawSystemCount, hs.priorSnapshot⟩

theorem tracks_markDeleted (hw : DistinctFeatures w) (hi : i < w.featureVec.length) :
    Tracks w (fun _ => false) (markDeleted (.working i)) (markDeleted (w.entry i)) :=
  .of_modify fun s t hm hs => by
    rw [← hm.twins i hi]
    exact ⟨hm.write hw hi _, hs.tick, hs.system, hs.rawSystemCount, hs.priorSnapshot⟩

theorem tracks_drop (hw : DistinctFeatures w) (hi : i < w.featureVec.length) :
    Tracks w (fun v => v == Verdict.leave) (do markDeleted (.working i); return Verdict.drop)
      (do markDeleted (w.entry i); return Verdict.drop) :=
  (tracks_markDeleted hw hi).bind fun _ => .of_pure rfl

theorem tracks_nextTick : Tracks w (fun _ => false) nextTick nextTick := by
  refine .of_get fun s t _ hs => ?_
  refine .bind (.of_local (fun _ => ⟨rfl, rfl, rfl, rfl, rfl, rfl⟩) ?_) fun _ => ?_
  · exact fun s t hs => ⟨congrArg (· + 1) hs.tick, hs.system, hs.rawSystemCount, hs.priorSnapshot⟩
  · rw [hs.tick]
    exact .of_pure rfl

theorem Mirrors.setProposalVec (h : Mirrors w s t) {indices : List Nat}
    (hindices : indices.Sublist (List.range w.featureVec.length)) :
    Mirrors w (s.setProposalVec (indices.map .working)) (t.setProposalVec (indices.map w.entry)) := by
  obtain ⟨old, -, hbatch, -⟩ := h.active
  have hs : s.setProposalVec (indices.map .working) =
      { s with batch := some (detachedBatch w indices) } := by
    simp [Call.setProposalVec, hbatch, detachedBatch]
  have ht : t.setProposalVec (indices.map w.entry) =
      { t with featureVec := indices.map w.entry } := by
    simp [Call.setProposalVec, h.inPlace]
  rw [hs, ht]
  exact ⟨⟨h.state, h.live, h.terminal, h.commitCalls, h.liveCommitStarted, h.meanCommits,
    h.covarianceCommits, h.finalizations⟩, ⟨indices, hindices, rfl, rfl⟩, h.twins, h.others,
    h.inPlace⟩

theorem Synced.setProposalVec (h : Synced s t) (features features' : List FeaturePtr) :
    Synced (s.setProposalVec features) (t.setProposalVec features') := by
  unfold Call.setProposalVec
  cases s.batch <;> cases t.batch <;> exact ⟨h.tick, h.system, h.rawSystemCount, h.priorSnapshot⟩

theorem tracks_sweep {body body' : FeaturePtr → Update σ Verdict} {leaves : Bool}
    (hbody : ∀ i < w.featureVec.length,
      Tracks w (fun v => leaves && v == .leave) (body (.working i)) (body' (w.entry i)))
    (rest : List Nat) :
    ∀ kept : List Nat, (kept ++ rest).Sublist (List.range w.featureVec.length) →
      Tracks w (fun complete => leaves && !complete)
        (sweep body (kept.map .working) (rest.map .working))
        (sweep body' (kept.map w.entry) (rest.map w.entry)) := by
  induction rest with
  | nil => exact fun kept _ => .of_pure (Bool.and_false leaves)
  | cons i rest ih =>
    intro kept hsub
    have hi : i < w.featureVec.length := mem_range.mp (hsub.subset (by simp))
    refine (hbody i hi).bind_ended (fun v hv => ?_) (fun v hv => ?_)
    · cases v with
      | keep =>
        have h := ih (kept ++ [i]) (by simpa using hsub)
        rw [map_append, map_append] at h
        exact h
      | drop =>
        have hrest : (kept ++ rest).Sublist (List.range w.featureVec.length) :=
          (List.Sublist.append_left (sublist_cons_self i rest) kept).trans hsub
        refine .bind (.of_modify fun s t hm hs => ?_) fun _ => ih kept hrest
        rw [← map_append, ← map_append]
        exact ⟨hm.setProposalVec hrest, hs.setProposalVec _ _⟩
      | leave =>
        refine .of_pure ?_
        simpa using hv
    · cases v with
      | keep => exact absurd hv (by simp)
      | drop => exact absurd hv (by simp)
      | leave => exact ⟨false, rfl, rfl, by simpa using hv⟩

theorem Mirrors.proposalVec (h : Mirrors w s t) :
    ∃ indices : List Nat, indices.Sublist (List.range w.featureVec.length) ∧
      s.proposalVec = indices.map .working ∧ t.proposalVec = indices.map w.entry := by
  obtain ⟨indices, hindices, hbatch, hvec⟩ := h.active
  refine ⟨indices, hindices, ?_, ?_⟩
  · simp [Call.proposalVec, hbatch, detachedBatch]
  · simp [Call.proposalVec, h.inPlace, hvec]

theorem Mirrors.isEmpty_proposalVec (h : Mirrors w s t) :
    s.proposalVec.isEmpty = t.proposalVec.isEmpty := by
  obtain ⟨indices, -, hs, ht⟩ := h.proposalVec
  rw [hs, ht, isEmpty_map, isEmpty_map]

theorem Mirrors.features (h : Mirrors w s t) :
    s.proposalVec.map s.heap = t.proposalVec.map t.heap := by
  obtain ⟨indices, hindices, hs, ht⟩ := h.proposalVec
  rw [hs, ht, List.map_map, List.map_map]
  refine map_congr_left fun i hi => ?_
  exact h.twins i (mem_range.mp (hindices.subset hi))

theorem Mirrors.sweep {body body' : FeaturePtr → Update σ Verdict} {s t : Call σ}
    (h : Mirrors w s t) (leaves : Bool) (hbody : ∀ i < w.featureVec.length,
      Tracks w (fun v => leaves && v == .leave) (body (.working i)) (body' (w.entry i))) :
    Tracks w (fun complete => leaves && !complete) (sweep body [] s.proposalVec)
      (sweep body' [] t.proposalVec) := by
  obtain ⟨indices, hindices, hs, ht⟩ := h.proposalVec
  rw [hs, ht]
  exact tracks_sweep hbody indices [] hindices

end Features

/-! ## The pipeline -/

section Pipeline

variable {w : World σ} (C : Callees σ)

theorem tracks_cleanFeature (hw : DistinctFeatures w) {i : Nat} (hi : i < w.featureVec.length) :
    Tracks w (fun v => v == .leave) (cleanFeature C false (.working i))
      (cleanFeature C false (w.entry i)) := by
  refine .of_get fun s t hm _ => ?_
  rw [← hm.twins i hi]
  refine (tracks_writeFeature hw hi _).bind fun _ => .ite (fun _ => ?_) fun _ => ?_
  · exact tracks_throw_bind .overflowError _ _ _
  · exact .ite (fun _ => tracks_drop hw hi) fun _ => .of_pure rfl

theorem tracks_initializeFeature (x : Nat → Feature → Feature × Except Fault Bool)
    (hw : DistinctFeatures w) {i : Nat} (hi : i < w.featureVec.length) :
    Tracks w (fun _ => false) (initializeFeature x (.working i)) (initializeFeature x (w.entry i)) := by
  refine tracks_nextTick.bind fun n => .of_get fun s t hm _ => ?_
  rw [← hm.twins i hi]
  exact (tracks_writeFeature hw hi _).bind fun _ => tracks_call _

theorem tracks_triangulateFeature (refineFeatures : Bool)
    (hw : DistinctFeatures w) {i : Nat} (hi : i < w.featureVec.length) :
    Tracks w (fun _ => false) (triangulateFeature C refineFeatures (.working i))
      (triangulateFeature C refineFeatures (w.entry i)) := by
  refine (tracks_initializeFeature _ hw hi).bind fun triangulated => .bind ?_ fun refined => ?_
  · exact .ite (fun _ => tracks_initializeFeature _ hw hi) fun _ => .of_pure rfl
  · refine .ite (fun _ => ?_) fun _ => .of_pure rfl
    exact (tracks_markDeleted hw hi).bind fun _ => .of_pure rfl

theorem tracks_captureRawSystem (raw : CP2RawFeatureSystem) :
    Tracks w (fun _ => false) (captureRawSystem C false raw) (captureRawSystem C false raw) := by
  refine .bind (.of_pure rfl) fun _ => ?_
  exact .of_local (fun _ => ⟨rfl, rfl, rfl, rfl, rfl, rfl⟩)
    fun _ _ hs => ⟨hs.tick, hs.system, hs.rawSystemCount, hs.priorSnapshot⟩

theorem tracks_countRawSystem :
    Tracks w (fun _ => false)
      (modifyEvent fun event => { event with rawSystemCount := event.rawSystemCount + 1 })
      (modifyEvent fun event => { event with rawSystemCount := event.rawSystemCount + 1 }) :=
  .of_local (fun _ => ⟨rfl, rfl, rfl, rfl, rfl, rfl⟩)
    fun _ _ hs => ⟨hs.tick, hs.system, congrArg (· + 1) hs.rawSystemCount, hs.priorSnapshot⟩

theorem tracks_linearizeFeature (shadowEnabled : Bool) (f : Feature) :
    Tracks w (fun _ => false) (linearizeFeature C false shadowEnabled f)
      (linearizeFeature C false shadowEnabled f) := by
  refine .of_get fun s t _ _ => .bind (.of_pure rfl) fun _ => ?_
  refine tracks_nextTick.bind fun n => (tracks_call _).bind fun l => ?_
  refine .of_get fun s t _ hs => ?_
  rw [hs.rawSystemCount]
  refine .ite (fun _ => tracks_throw _ _ _) fun _ => tracks_countRawSystem.bind fun _ => ?_
  refine (tracks_checked _).bind fun layout => ?_
  exact .bind (.of_onlyIf (tracks_captureRawSystem C _)) fun _ => .of_pure rfl

theorem tracks_acceptFeature (capacity : Capacity) (f : Feature) (r : Reduced) (order : Order) :
    Tracks w (fun _ => false) (acceptFeature C capacity f r order)
      (acceptFeature C capacity f r order) := by
  refine .bind (.of_local (fun _ => ⟨rfl, rfl, rfl, rfl, rfl, rfl⟩) ?_) fun _ => ?_
  · intro s t hs
    refine ⟨hs.tick, ?_, hs.rawSystemCount, hs.priorSnapshot⟩
    simp only [hs.system]
  refine .of_get fun s t _ hs => ?_
  rw [hs.system]
  refine (tracks_checked _).bind fun system => ?_
  exact .of_local (fun _ => ⟨rfl, rfl, rfl, rfl, rfl, rfl⟩)
    fun _ _ hs => ⟨hs.tick, rfl, hs.rawSystemCount, hs.priorSnapshot⟩

/-! ### Failing -/

/-- What an ending leaves of the state behind it. -/
structure Notified (event : CP2LiveUpdateEvent) (s s' : Call σ) : Prop where
  state : s'.state = s.state
  heap : s'.heap = s.heap
  featureVec : s'.featureVec = s.featureVec
  commitCalls : s'.commitCalls = s.commitCalls
  finalizations : s'.finalizations = s.finalizations
  terminal : s'.terminal = s.terminal ++ [event]

variable {E : Exn → Call σ → Prop}

theorem wp_notifyObserver (event : CP2LiveUpdateEvent) {s : Call σ} :
    wp (notifyObserver C event) (fun _ s' => Notified event s s') E s :=
  ⟨rfl, rfl, rfl, rfl, rfl, rfl⟩

theorem wp_finishUpdate (status : CP2UpdateTerminalStatus)
    (subreason : CP2UpdateTerminalSubreason) {s : Call σ} :
    wp (finishUpdate C status subreason) (fun _ s' => ∃ event, Notified event s s' ∧
      event.terminalStatus = if (steadyClockDuration C.start C.finish).isSome then status
        else .kInternalFailure) E s := by
  simp only [finishUpdate, modifyEvent, wp_bind, wp_modify, wp_get]
  refine wp_mono (wp_notifyObserver C _) (fun _ s' h => ?_) (fun _ _ he => he)
  exact ⟨_, ⟨h.state, h.heap, h.featureVec, h.commitCalls, h.finalizations, h.terminal⟩, rfl⟩

/-- What a rollback relies on: nothing was written, and no commit succeeded. -/
structure Undone (w : World σ) (s : Call σ) : Prop where
  state : s.state = w.state
  live : ∀ n, s.heap (.live n) = w.heap (.live n)
  terminal : s.terminal = w.terminal
  commitCalls : s.commitCalls = w.commitCalls ∨ s.commitCalls = w.commitCalls ++ [false]
  finalizations : s.finalizations = 0

theorem Backstage.undone {s : Call σ} (h : Backstage w s) : Undone w s :=
  ⟨h.state, h.live, h.terminal, .inl h.commitCalls, h.finalizations⟩

theorem wp_failOrdinary (subreason : CP2UpdateTerminalSubreason) {s : Call σ}
    (h : Undone w s) : wp (failOrdinary C subreason) (fun _ s' => RolledBack w s') E s := by
  simp only [failOrdinary, clearFeatureVec, wp_bind, wp_modify]
  refine wp_mono (wp_finishUpdate C _ _) (fun _ s' hs' => ?_) (fun _ _ he => he)
  obtain ⟨event, hnotified, hstatus⟩ := hs'
  refine ⟨hnotified.state.trans h.state, fun n => ?_, hnotified.featureVec, ?_,
    hnotified.finalizations.trans h.finalizations, event, ?_, by simpa using hstatus⟩
  · rw [hnotified.heap]
    exact h.live n
  · rw [hnotified.commitCalls]
    exact h.commitCalls
  · rw [hnotified.terminal]
    exact congrArg (· ++ [event]) h.terminal

theorem tracks_leaveInvalidMode :
    Tracks w (fun v => v == Verdict.leave) (do leaveInvalidMode C false; return Verdict.leave)
      (do leaveInvalidMode C false; return Verdict.leave) := by
  intro s t hm _
  refine relWp_bind ?_
  have hleft : leaveInvalidMode C false = failOrdinary C .kInvalidLiveMode := rfl
  rw [hleft]
  refine wp_mono (wp_failOrdinary C _ hm.toBackstage.undone) (fun _ s' hs' => ?_) (fun _ _ he => he)
  simp only [failOrdinary, clearFeatureVec, wp_bind, wp_modify]
  refine wp_mono (wp_finishUpdate C _ _) (fun _ t' _ => ?_) (fun _ _ he => he)
  exact relWp_pure ⟨rfl, hs'⟩

variable (options : UpdaterOptions)

theorem tracks_processFeature (shadowEnabled : Bool)
    (capacity : Capacity) (hw : DistinctFeatures w) {i : Nat} (hi : i < w.featureVec.length) :
    Tracks w (fun v => v == .leave)
      (processFeature C options false shadowEnabled capacity (.working i))
      (processFeature C options false shadowEnabled capacity (w.entry i)) := by
  refine .of_get fun s t hm _ => ?_
  rw [← hm.twins i hi]
  refine (tracks_linearizeFeature C _ _).bind fun l => ?_
  refine .ite (fun _ => tracks_leaveInvalidMode C) fun _ => ?_
  refine tracks_nextTick.bind fun n => (tracks_call _).bind fun reduced => ?_
  cases reduced with
  | none => exact tracks_drop hw hi
  | some r =>
    refine .of_get fun s t _ hs => ?_
    rw [hs.priorSnapshot]
    refine (tracks_call _).bind fun gate => .ite (fun _ => tracks_drop hw hi) fun _ => ?_
    exact (tracks_acceptFeature C _ _ _ _).bind fun _ => .of_pure rfl

theorem tracks_processFeatures (shadowEnabled : Bool)
    (capacity : Capacity) (hw : DistinctFeatures w) :
    Tracks w (fun complete => !complete) (processFeatures C options false shadowEnabled capacity)
      (processFeatures C options false shadowEnabled capacity) := by
  refine .of_get fun s t hm _ => .bind_ended
    (hm.sweep true fun i hi => tracks_processFeature C options shadowEnabled capacity hw hi)
    (fun complete hcomplete => ?_) (fun complete hcomplete => ?_)
  · refine .bind (.of_onlyIf (.of_local (fun s => ?_) fun s t hs => ?_)) fun _ =>
      .of_pure hcomplete
    · split <;> exact ⟨rfl, rfl, rfl, rfl, rfl, rfl⟩
    · rw [hs.rawSystemCount]
      split
      · exact hs
      · exact ⟨hs.tick, hs.system, hs.rawSystemCount, hs.priorSnapshot⟩
  · cases complete with
    | true => exact absurd hcomplete (by decide)
    | false => exact ⟨false, rfl, rfl, rfl⟩

theorem tracks_prepareShadow (table : ChiSquaredTable) (shadowEnabled : Bool) :
    Tracks w (fun _ => false) (prepareShadow C options table false shadowEnabled)
      (prepareShadow C options table false shadowEnabled) := by
  refine .bind (.of_pure rfl) fun _ => .of_onlyIf ?_
  exact .of_local (fun _ => ⟨rfl, rfl, rfl, rfl, rfl, rfl⟩)
    fun _ _ hs => ⟨hs.tick, hs.system, hs.rawSystemCount, hs.priorSnapshot⟩

theorem tracks_runPipeline (table : ChiSquaredTable)
    (shadowEnabled : Bool) (hw : DistinctFeatures w) :
    Tracks w (fun result => result.isNone) (runPipeline C options table false shadowEnabled)
      (runPipeline C options table false shadowEnabled) := by
  have hclean : Tracks w (fun complete => !complete) (cleanFeatures C false)
      (cleanFeatures C false) :=
    .of_get fun s t hm _ => hm.sweep true fun i hi => tracks_cleanFeature C hw hi
  have htriangulate : Tracks w (fun _ => false) (triangulateFeatures C options.refineFeatures)
      (triangulateFeatures C options.refineFeatures) :=
    .of_get fun s t hm _ => hm.sweep false fun i hi => tracks_triangulateFeature C _ hw hi
  refine hclean.bind_ended (fun complete hcomplete => ?_) (fun complete hcomplete => ?_)
  · cases complete with
    | false => exact absurd hcomplete (by decide)
    | true =>
      refine .of_get fun s t hm _ => (tracks_call _).bind fun _ => ?_
      rw [hm.isEmpty_proposalVec]
      refine htriangulate.bind fun _ => .of_get fun s t hm _ => ?_
      rw [hm.isEmpty_proposalVec, hm.features]
      cases capacityOf C (t.proposalVec.map t.heap) with
      | none => exact tracks_throw_bind .overflowError _ _ _
      | some capacity =>
        refine (tracks_call _).bind fun _ => .bind (.of_local ?_ ?_) fun _ => ?_
        · exact fun _ => ⟨rfl, rfl, rfl, rfl, rfl, rfl⟩
        · exact fun _ _ hs => ⟨hs.tick, rfl, hs.rawSystemCount, hs.priorSnapshot⟩
        refine (tracks_prepareShadow C options table _).bind fun _ => ?_
        refine (tracks_processFeatures C options _ capacity hw).bind_ended
          (fun complete hcomplete => ?_) (fun complete hcomplete => ?_)
        · cases complete with
          | false => exact absurd hcomplete (by decide)
          | true => exact .of_pure rfl
        · cases complete with
          | true => exact absurd hcomplete (by decide)
          | false => exact ⟨none, rfl, rfl, rfl⟩
  · cases complete with
    | true => exact absurd hcomplete (by decide)
    | false => exact ⟨none, rfl, rfl, rfl⟩

end Pipeline

end Bravo.Updater
