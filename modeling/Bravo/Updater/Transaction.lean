import Bravo.Updater.Detached

/-! # An ordinary update is a transaction

An ordinary call commits once, rejects its proposal, or rolls back. In the first two cases it moves
the working copies back to the live objects, which then are what the pipeline would have made of them
in place; in the last case the caller sees neither a written State nor a touched feature.
-/

namespace Bravo.Updater

open List hiding modify

open Bravo.Trace Bravo.Journal Bravo.Shadow

variable {σ α β : Type}

/-! ## The steps in place -/

def UpdaterMSCKF.collectsShadow (u : UpdaterMSCKF) : Bool :=
  u.updateCallback && u.shadowEnabled && decide (u.options.landmarkElimination = .NULLSPACE)

/-- Cleaning, triangulation, reduction, gating and the marks, on the live objects. -/
def inPlaceUpdate (C : Callees σ) : Update σ Unit := do
  let s ← get
  let prior ← call C.capturePrior
  modify fun s => { s with priorSnapshot := prior }
  match ← runPipeline C s.updater.options s.updater.chiSquaredTable false
    s.updater.collectsShadow with
  | none => pure ⟨⟩
  | some _ => do
    let s ← get
    markRemaining s.proposalVec

def adoptFeatures : List FeaturePtr → List (Option Feature) → (FeaturePtr → Feature) →
    FeaturePtr → Feature
  | p :: features, some candidate :: candidates, heap =>
    adoptFeatures features candidates (Function.update heap p ((heap p).adopt candidate))
  | _, _, heap => heap

def inPlaceClone (w : World σ) (t : Call σ) : MSCKFDetachedFeatureSet :=
  ⟨t.featureVec.map fun p => some (t.heap p), t.featureVec.map w.featureVec.idxOf⟩

/-- The geometry of the selected pass: that of pass two where it is valid and accepted. -/
def selectedGeometry (C : Callees σ) (clone : MSCKFDetachedFeatureSet) :
    Option MSCKFDetachedFeatureSet :=
  match C.passOneCost clone with
  | .error _ => none
  | .ok passOne =>
    match C.passTwo clone with
    | .error _ => some passOne.geometry
    | .ok second =>
      if second.valid && second.cost.valid && C.passTwoAccepted passOne second.cost then
        some second.cost.geometry
      else some passOne.geometry

def UpdaterOptions.twoPass (options : UpdaterOptions) : Bool :=
  decide (options.maxVisualPasses = 2) && decide (options.landmarkElimination = .SCHUR)

def CommittedFeatures (C : Callees σ) (w : World σ) (options : UpdaterOptions) (t : Call σ)
    (heap : FeaturePtr → Feature) : Prop :=
  if options.twoPass then
    ∃ selected, selectedGeometry C (inPlaceClone w t) = some selected ∧
      heap = adoptFeatures t.featureVec selected.features t.heap
  else heap = t.heap

/-! ## Outcomes -/

structure EmptyCall (w : World σ) (u : Call σ) : Prop where
  input : w.featureVec = []
  state : u.state = w.state
  heap : u.heap = w.heap
  featureVec : u.featureVec = w.featureVec
  commitCalls : u.commitCalls = w.commitCalls
  finalizations : u.finalizations = 0
  event : ∃ event, u.terminal = w.terminal ++ [event] ∧ event.terminalStatus = .kEmptyInput

/-- A call that rejected its proposal, where `t` is the end of the steps in place. -/
structure RejectedCall (w : World σ) (t u : Call σ) : Prop where
  state : u.state = w.state
  commitCalls : u.commitCalls = w.commitCalls
  finalizations : u.finalizations = 1
  live : ∀ n, u.heap (.live n) = t.heap (.live n)
  featureVec : u.featureVec = t.featureVec
  event : ∃ event, u.terminal = w.terminal ++ [event] ∧
    (event.terminalStatus = .kAllRejected ∨ event.terminalStatus = .kEmptyAfterCompression ∨
      event.terminalStatus = .kPreflightRejected)

structure CommittedCall (C : Callees σ) (w : World σ) (heap : FeaturePtr → Feature)
    (featureVec : List FeaturePtr) (u : Call σ) : Prop where
  state : C.commitPrecomputed w.state = some u.state
  commitCalls : u.commitCalls = w.commitCalls ++ [true]
  finalizations : u.finalizations = 1
  live : ∀ n, u.heap (.live n) = heap (.live n)
  featureVec : u.featureVec = featureVec
  event : ∃ event, u.terminal = w.terminal ++ [event] ∧
    event.terminalStatus = .kCommittedCounted

def Settled (C : Callees σ) (w : World σ) (options : UpdaterOptions) (t u : Call σ) : Prop :=
  RolledBack w u ∨ RejectedCall w t u ∨
    ∃ heap, CommittedFeatures C w options t heap ∧ CommittedCall C w heap t.featureVec u

def ValidClocks (C : Callees σ) : Prop := (steadyClockDuration C.start C.finish).isSome = true

/-! ## Finalization -/

section Finalization

variable {w : World σ}

theorem foldl_moves_of_notMem (heap : FeaturePtr → Feature) {p : FeaturePtr}
    (entries : List FeaturePtr) :
    ∀ (k : Nat) (h : FeaturePtr → Feature), p ∉ entries →
      ((entries.zipIdx k).foldl
        (fun h entry => Function.update h entry.1 (heap (.working entry.2))) h) p = h p := by
  induction entries with
  | nil => exact fun _ _ _ => rfl
  | cons q entries ih =>
    intro k h hp
    rw [mem_cons, not_or] at hp
    rw [zipIdx_cons, foldl_cons, ih (k + 1) _ hp.2]
    exact Function.update_of_ne hp.1 _ _

theorem foldl_moves_of_getElem (heap : FeaturePtr → Feature) (entries : List FeaturePtr) :
    ∀ (k : Nat) (h : FeaturePtr → Feature), entries.Nodup → ∀ (i : Nat) (p : FeaturePtr),
      entries[i]? = some p →
      ((entries.zipIdx k).foldl
        (fun h entry => Function.update h entry.1 (heap (.working entry.2))) h) p =
        heap (.working (k + i)) := by
  induction entries with
  | nil =>
    intro k h _ i p hp
    simp at hp
  | cons q entries ih =>
    intro k h hnodup i p hp
    rw [nodup_cons] at hnodup
    rw [zipIdx_cons, foldl_cons]
    cases i with
    | zero =>
      have hq : q = p := by simpa using hp
      subst hq
      rw [foldl_moves_of_notMem heap entries (k + 1) _ hnodup.1]
      simp
    | succ i =>
      rw [ih (k + 1) _ hnodup.2 i p (by simpa using hp)]
      congr 2
      omega

variable {s t : Call σ}

theorem moveEntries_live (hw : DistinctFeatures w)
    (hlive : ∀ n, s.heap (.live n) = w.heap (.live n))
    (htwins : ∀ i < w.featureVec.length, s.heap (.working i) = t.heap (w.entry i))
    (hothers : ∀ n, .live n ∉ w.featureVec → t.heap (.live n) = w.heap (.live n)) (n : Nat) :
    moveEntries s.heap w.featureVec (.live n) = t.heap (.live n) := by
  unfold moveEntries
  by_cases hmem : .live n ∈ w.featureVec
  · obtain ⟨i, hi⟩ := mem_iff_getElem?.mp hmem
    obtain ⟨hlt, hget⟩ := List.getElem?_eq_some_iff.mp hi
    rw [foldl_moves_of_getElem s.heap w.featureVec 0 s.heap hw.nodup i _ hi, Nat.zero_add,
      htwins i hlt]
    congr 1
    unfold World.entry
    rw [getD_eq_getElem _ _ hlt, hget]
  · rw [foldl_moves_of_notMem s.heap w.featureVec 0 s.heap hmem, hlive n, hothers n hmem]

/-- The prepared batch of a call; `t` is the run in place. -/
structure Prepared (w : World σ) (s t : Call σ) : Prop where
  batch : ∃ indices, s.batch = some { detachedBatch w indices with
    finalActive := t.featureVec, prepared := true }
  live : ∀ n, s.heap (.live n) = w.heap (.live n)
  twins : ∀ i < w.featureVec.length, s.heap (.working i) = t.heap (w.entry i)
  others : ∀ n, .live n ∉ w.featureVec → t.heap (.live n) = w.heap (.live n)
  finalizations : s.finalizations = 0

theorem mapM_source (all : List Nat) {indices : List Nat} (h : ∀ i ∈ indices, i < w.featureVec.length) :
    (indices.map FeaturePtr.working).mapM (detachedBatch w all).source = some indices := by
  induction indices with
  | nil => rfl
  | cons i indices ih =>
    have hi : i < w.featureVec.length := h i mem_cons_self
    have hsource : (detachedBatch w all).source (.working i) = some i := by
      simp [MSCKFDetachedFeatureBatch.source, detachedBatch, hi]
    rw [map_cons, mapM_cons, hsource, ih fun j hj => h j (mem_cons_of_mem i hj)]
    rfl

theorem wp_prepareFinalization (C : Callees σ) (h : Mirrors w s t) :
    wp (prepareFinalization C) (fun _ u => Prepared w u t ∧ Backstage w u) (Thrown w) s := by
  obtain ⟨indices, hindices, hbatch, hvec⟩ := h.active
  have hlt : ∀ i ∈ indices, i < w.featureVec.length := fun i hi =>
    mem_range.mp (hindices.subset hi)
  unfold prepareFinalization
  rw [wp_bind, wp_get, hbatch]
  simp only [detachedBatch, Bool.false_eq_true, if_false]
  rw [wp_bind]
  cases C.prepareFinalization with
  | error f => exact ⟨h.toBackstage, f, rfl⟩
  | ok _ =>
    have hsource := mapM_source indices hlt
    simp only [detachedBatch] at hsource
    simp only [call, wp_pure, hsource, wp_modify]
    refine ⟨⟨⟨indices, ?_⟩, h.live, h.twins, h.others, h.finalizations⟩, h.state, h.live,
      h.terminal, h.commitCalls, h.liveCommitStarted, h.meanCommits, h.covarianceCommits,
      h.finalizations⟩
    simp only [detachedBatch, hvec]
    rfl

structure Finalized (t s u : Call σ) : Prop where
  live : ∀ n, u.heap (.live n) = t.heap (.live n)
  featureVec : u.featureVec = t.featureVec
  finalizations : u.finalizations = 1
  state : u.state = s.state
  terminal : u.terminal = s.terminal
  commitCalls : u.commitCalls = s.commitCalls

theorem finalized_of_prepared (hw : DistinctFeatures w) (h : Prepared w s t)
    {Q : Unit → Call σ → Prop} {E : Exn → Call σ → Prop} (hQ : ∀ u, Finalized t s u → Q ⟨⟩ u) :
    wp (modify fun s : Call σ =>
      match s.batch with
      | none => s
      | some batch => { s with
          heap := moveEntries s.heap batch.entries
          featureVec := batch.finalActive
          batch := some { batch with finalized := true }
          finalizations := s.finalizations + 1 }) Q E s := by
  obtain ⟨indices, hbatch⟩ := h.batch
  rw [wp_modify, hbatch]
  refine hQ _ ⟨fun n => ?_, rfl, ?_, rfl, rfl, rfl⟩
  · exact moveEntries_live hw h.live h.twins h.others n
  · simp only [h.finalizations]

theorem wp_finalizeOrdinaryFeatures (C : Callees σ) (hw : DistinctFeatures w) (h : Mirrors w s t) :
    wp (finalizeOrdinaryFeatures C) (fun _ u => ∃ v, Backstage w v ∧ Finalized t v u) (Thrown w)
      s := by
  obtain ⟨indices, -, hbatch, -⟩ := h.active
  unfold finalizeOrdinaryFeatures
  rw [wp_bind, wp_get, hbatch]
  simp only [h.finalizations, ne_eq, not_true_eq_false, if_false]
  rw [wp_bind]
  refine wp_mono (wp_prepareFinalization C h) (fun _ v hv => ?_) (fun _ _ he => he)
  exact finalized_of_prepared hw hv.1 fun u hu => ⟨v, hv.2, hu⟩

theorem wp_finalize_prepared (C : Callees σ) (hw : DistinctFeatures w)
    (h : Prepared w s t) {E : Exn → Call σ → Prop} :
    wp (finalizeOrdinaryFeatures C) (fun _ u => Finalized t s u) E s := by
  obtain ⟨indices, hbatch⟩ := h.batch
  have hprepared : wp (prepareFinalization C) (fun _ u => u = s) E s := by
    unfold prepareFinalization
    rw [wp_bind, wp_get, hbatch]
    rfl
  unfold finalizeOrdinaryFeatures
  rw [wp_bind, wp_get, hbatch]
  simp only [h.finalizations, ne_eq, not_true_eq_false, if_false]
  rw [wp_bind]
  refine wp_mono hprepared (fun _ v hv => ?_) (fun _ _ he => he)
  subst hv
  exact finalized_of_prepared hw h fun u hu => hu

end Finalization

/-! ## Ends -/

section Ends

variable {w : World σ}

theorem wp_rejectOrdinary (C : Callees σ) (hclocks : ValidClocks C) (hw : DistinctFeatures w)
    {status : CP2UpdateTerminalStatus} (hstatus : status = .kAllRejected ∨
      status = .kEmptyAfterCompression ∨ status = .kPreflightRejected)
    (subreason : CP2UpdateTerminalSubreason) {s t : Call σ} (h : Mirrors w s t) :
    wp (rejectOrdinary C status subreason) (fun _ u => RejectedCall w t u) (Thrown w) s := by
  unfold rejectOrdinary
  rw [wp_bind]
  refine wp_mono (wp_finalizeOrdinaryFeatures C hw h) (fun _ u hu => ?_) (fun _ _ he => he)
  obtain ⟨v, hv, hfinal⟩ := hu
  refine wp_mono (wp_finishUpdate C status subreason) (fun _ u' hu' => ?_) (fun _ _ he => he)
  obtain ⟨event, hnotified, hevent⟩ := hu'
  rw [if_pos (show (steadyClockDuration C.start C.finish).isSome = true from hclocks)] at hevent
  refine ⟨(hnotified.state.trans hfinal.state).trans hv.state,
    (hnotified.commitCalls.trans hfinal.commitCalls).trans hv.commitCalls,
    hnotified.finalizations.trans hfinal.finalizations, fun n => ?_,
    hnotified.featureVec.trans hfinal.featureVec, event, ?_, by rw [hevent]; exact hstatus⟩
  · rw [hnotified.heap, hfinal.live n]
  · rw [hnotified.terminal, hfinal.terminal, hv.terminal]

theorem wp_commitOrdinary (C : Callees σ) (hclocks : ValidClocks C) (hw : DistinctFeatures w)
    {s t : Call σ} (h : Mirrors w s t) :
    wp (commitOrdinary C)
      (fun _ u => RolledBack w u ∨ CommittedCall C w t.heap t.featureVec u) (Thrown w) s := by
  unfold commitOrdinary
  rw [wp_bind]
  refine wp_mono (wp_prepareFinalization C h) (fun _ v hv => ?_) (fun _ _ he => he)
  obtain ⟨hprepared, hv⟩ := hv
  rw [wp_bind]
  cases C.precommitMatch with
  | error f => exact ⟨hv, f, rfl⟩
  | ok agrees =>
    simp only [call, wp_pure]
    cases agrees with
    | false =>
      refine wp_mono (wp_failOrdinary C _ hv.undone) (fun _ u hu => .inl hu) (fun _ _ he => he)
    | true =>
      obtain ⟨indices, hbatch⟩ := hprepared.batch
      simp only [Bool.not_true, Bool.false_eq_true, if_false, wp_bind, wp_modify,
        commitOrdinaryUpdate, wp_get, hbatch, Option.isNone_some, hv.meanCommits,
        hv.covarianceCommits, bne_self_eq_false, Bool.or_false, hv.state]
      cases hcommit : C.commitPrecomputed w.state with
      | none =>
        simp only [wp_bind, wp_modify, wp_pure, Bool.not_false, if_true]
        refine wp_mono (wp_failOrdinary C _ ?_) (fun _ u hu => .inl hu) (fun _ _ he => he)
        exact ⟨hv.state, hv.live, hv.terminal, .inr (by rw [hv.commitCalls]), hv.finalizations⟩
      | some state =>
        simp only [wp_bind, wp_modify, wp_pure, Bool.not_true, Bool.false_eq_true, if_false]
        refine wp_mono (wp_finalize_prepared C hw (t := t) ?_) (fun _ u hu => ?_)
          (fun _ _ he => he)
        · exact ⟨⟨indices, rfl⟩, hprepared.live, hprepared.twins, hprepared.others,
            hprepared.finalizations⟩
        simp only [modifyEvent, wp_modify, wp_get]
        refine wp_mono (wp_notifyObserver C _) (fun _ u' hu' => .inr ?_) (fun _ _ he => he)
        have hstate : u'.state = state := hu'.state.trans hu.state
        have hend := hu'.terminal.trans
          (congrArg (· ++ [_]) (hu.terminal.trans hv.terminal))
        refine ⟨by rw [hstate, hcommit], ?_, hu'.finalizations.trans hu.finalizations,
          fun n => ?_, hu'.featureVec.trans hu.featureVec, _, hend, if_pos hclocks⟩
        · rw [hu'.commitCalls, ← hv.commitCalls]
          exact hu.commitCalls
        · rw [hu'.heap]
          exact hu.live n

end Ends

/-! ## Rules -/

/-- A piece that touches only local variables, also when it throws. -/
def LocalPiece (x : Update σ α) : Prop :=
  ∀ s, wp x (fun _ s' => LocalStep s s') (fun e s' => LocalStep s s' ∧ ∃ f, e = .fault f) s

theorem LocalPiece.of_modify {f : Call σ → Call σ} (h : ∀ s, LocalStep s (f s)) :
    LocalPiece (modify f : Update σ Unit) := fun s => h s

theorem localPiece_pure (a : α) : LocalPiece (pure a : Update σ α) := fun s => LocalStep.refl s

theorem localPiece_modifyEvent (f : CP2LiveUpdateEvent → CP2LiveUpdateEvent) :
    LocalPiece (modifyEvent f : Update σ Unit) :=
  .of_modify fun _ => ⟨rfl, rfl, rfl, rfl, rfl, rfl⟩

theorem localPiece_call (x : Except Fault α) : LocalPiece (call x : Update σ α) := by
  intro s
  cases x with
  | ok a => exact .refl s
  | error f => exact ⟨.refl s, f, rfl⟩

theorem localPiece_runShadow (C : Callees σ) : LocalPiece (runShadow C false) := by
  intro s
  unfold runShadow
  rw [wp_bind, wp_get, modifyEvent, wp_bind, wp_modify]
  cases C.shadow s.shadowInput with
  | error f => exact ⟨rfl, rfl, rfl, rfl, rfl, rfl⟩
  | ok result =>
    rw [wp_bind, wp_modify]
    exact ⟨rfl, rfl, rfl, rfl, rfl, rfl⟩

/-- A piece behind the pipeline that ends the call; `t` is the end of the steps in place. -/
def Closes (C : Callees σ) (w : World σ) (options : UpdaterOptions) (t : Call σ)
    (x : Update σ Unit) : Prop :=
  ∀ s, Mirrors w s t → wp x (fun _ u => Settled C w options t u) (Thrown w) s

section Rules

variable {C : Callees σ} {w : World σ} {options : UpdaterOptions} {t : Call σ}

theorem Mirrors.of_localStep {s s' : Call σ} (h : Mirrors w s t) (hs : LocalStep s s') :
    Mirrors w s' t := h.of_local hs (.refl t)

theorem LocalPiece.closes {x : Update σ α} {f : α → Update σ Unit} (hx : LocalPiece x)
    (hf : ∀ a, Closes C w options t (f a)) : Closes C w options t (x >>= f) := by
  intro s hm
  rw [wp_bind]
  refine wp_mono (hx s) (fun a s' hs' => hf a s' (hm.of_localStep hs')) (fun e s' he => ?_)
  exact ⟨hm.toBackstage.of_local he.1, he.2⟩

theorem Closes.of_get {f : Call σ → Update σ Unit} (hf : ∀ s, Closes C w options t (f s)) :
    Closes C w options t (get >>= f) := fun s hm => hf s s hm

theorem Closes.ite {c : Prop} [Decidable c] {x y : Update σ Unit} (hx : Closes C w options t x)
    (hy : Closes C w options t y) : Closes C w options t (if c then x else y) := by
  split
  · exact hx
  · exact hy

theorem closes_throw (f : Fault) : Closes C w options t (throw (.fault f)) :=
  fun _ hm => ⟨hm.toBackstage, f, rfl⟩

variable (hclocks : ValidClocks C) (hw : DistinctFeatures w)
include hclocks hw

theorem closes_rejectOrdinary {status : CP2UpdateTerminalStatus} (hstatus : status = .kAllRejected ∨
      status = .kEmptyAfterCompression ∨ status = .kPreflightRejected)
    (subreason : CP2UpdateTerminalSubreason) :
    Closes C w options t (rejectOrdinary C status subreason) := by
  intro s hm
  exact wp_mono (wp_rejectOrdinary C hclocks hw hstatus subreason hm)
    (fun _ u hu => .inr (.inl hu)) (fun _ _ he => he)

theorem closes_commitOrdinary (honePass : options.twoPass = false) :
    Closes C w options t (commitOrdinary C) := by
  intro s hm
  refine wp_mono (wp_commitOrdinary C hclocks hw hm) (fun _ u hu => ?_) (fun _ _ he => he)
  rcases hu with hu | hu
  · exact .inl hu
  · refine .inr (.inr ⟨t.heap, ?_, hu⟩)
    simp [CommittedFeatures, honePass]

theorem closes_onePassUpdate (honePass : options.twoPass = false) (H : MatrixXd)
    (residual : VectorXd) : Closes C w options t (onePassUpdate C options false H residual) := by
  refine (localPiece_modifyEvent _).closes fun _ => .of_get fun s => ?_
  cases capturePreviewLayout s.system.Hx_order_big with
  | error _ => exact closes_throw _
  | ok layout =>
    refine (localPiece_call _).closes fun preview => ?_
    refine LocalPiece.closes (localPiece_pure ()) fun _ => Closes.ite ?_ ?_
    · refine (localPiece_modifyEvent _).closes fun _ => ?_
      exact closes_rejectOrdinary hclocks hw (by simp) _
    · refine (localPiece_modifyEvent _).closes fun _ => (localPiece_modifyEvent _).closes fun _ => ?_
      exact closes_commitOrdinary hclocks hw honePass

end Rules

/-! ## Two passes -/

section TwoPasses

variable {C : Callees σ} {w : World σ} {options : UpdaterOptions} {t : Call σ}

theorem DistinctFeatures.idxOf_entry (hw : DistinctFeatures w) {i : Nat}
    (hi : i < w.featureVec.length) : w.featureVec.idxOf (w.entry i) = i := by
  unfold World.entry
  rw [getD_eq_getElem _ _ hi]
  exact hw.nodup.idxOf_getElem i hi

theorem wp_cloneActive (hw : DistinctFeatures w) {s : Call σ} (h : Mirrors w s t)
    {E : Exn → Call σ → Prop} :
    wp cloneActive (fun clone u => clone = inPlaceClone w t ∧ u = s) E s := by
  obtain ⟨indices, hindices, hbatch, hvec⟩ := h.active
  have hlt : ∀ i ∈ indices, i < w.featureVec.length := fun i hi =>
    mem_range.mp (hindices.subset hi)
  have hsource := mapM_source indices hlt
  have hactive : (detachedBatch w indices).active = indices.map .working := rfl
  unfold cloneActive
  simp only [wp_bind, wp_get, hbatch, hactive, hsource, wp_pure]
  refine ⟨?_, trivial⟩
  unfold inPlaceClone
  rw [hvec, List.map_map, List.map_map, List.map_map]
  congr 1
  · refine map_congr_left fun i hi => ?_
    exact congrArg some (h.twins i (hlt i hi))
  · conv_lhs => rw [← List.map_id indices]
    refine map_congr_left fun i hi => ?_
    exact (hw.idxOf_entry (hlt i hi)).symm

theorem wp_adoptLoop (hw : DistinctFeatures w) (all : List Nat) (rest : List Nat) :
    ∀ (features : List (Option Feature)) (sources : List Nat) {s t : Call σ}, Mirrors w s t →
      (∀ i ∈ rest, i < w.featureVec.length) →
      wp (adoptLoop (detachedBatch w all) (rest.map .working) features sources)
        (fun _ u => Mirrors w u { t with
          heap := adoptFeatures (rest.map w.entry) features t.heap }) (Thrown w) s := by
  induction rest with
  | nil =>
    intro features sources s t hm _
    simpa [adoptLoop, adoptFeatures] using hm
  | cons i rest ih =>
    intro features sources s t hm hlt
    have hi : i < w.featureVec.length := hlt i mem_cons_self
    have hthrown : Thrown w (.fault .exception) s := ⟨hm.toBackstage, _, rfl⟩
    rcases features with _ | ⟨_ | candidate, features⟩
    · exact hthrown
    · exact hthrown
    rcases sources with _ | ⟨source, sources⟩
    · exact hthrown
    have hsource : (detachedBatch w all).source (.working i) = some i := by
      simp [MSCKFDetachedFeatureBatch.source, detachedBatch, hi]
    simp only [map_cons, adoptLoop, wp_bind, wp_get, hsource]
    split
    · exact hthrown
    · rename_i hcheck
      have heq : i = source := by
        by_contra hne
        simp [hne] at hcheck
      subst heq
      simp only [wp_bind, writeFeature, wp_modify, adoptFeatures]
      have hm' := hm.write hw hi ((s.heap (.working i)).adopt candidate)
      rw [hm.twins i hi] at hm' ⊢
      exact ih features sources hm' fun j hj => hlt j (mem_cons_of_mem i hj)

theorem wp_adoptGeometry (hw : DistinctFeatures w) (selected : MSCKFDetachedFeatureSet)
    {s : Call σ} (h : Mirrors w s t) :
    wp (adoptGeometry selected) (fun _ u => Mirrors w u { t with
      heap := adoptFeatures t.featureVec selected.features t.heap }) (Thrown w) s := by
  obtain ⟨indices, hindices, hbatch, hvec⟩ := h.active
  unfold adoptGeometry
  simp only [wp_bind, wp_get, hbatch]
  split
  · exact ⟨h.toBackstage, _, rfl⟩
  · have hloop := wp_adoptLoop hw indices indices selected.features selected.sourceIndices h
      fun i hi => mem_range.mp (hindices.subset hi)
    rw [← hvec] at hloop
    exact hloop

theorem wp_runSecondPass (hw : DistinctFeatures w) (passOne : MSCKFTwoPassCost) {s : Call σ}
    (h : Mirrors w s t) {E : Exn → Call σ → Prop} :
    wp (runSecondPass C passOne) (fun second u => u = s ∧ second =
      match C.passTwo (inPlaceClone w t) with
      | .ok second => second
      | .error _ => ⟨false, passOne⟩) E s := by
  unfold runSecondPass
  rw [wp_catching, wp_bind]
  refine wp_mono (wp_cloneActive hw h) (fun clone u hu => ?_) (fun _ _ he => he)
  obtain ⟨rfl, rfl⟩ := hu
  cases C.passTwo (inPlaceClone w t) with
  | ok second => exact ⟨rfl, rfl⟩
  | error f => exact ⟨rfl, rfl⟩

variable (hclocks : ValidClocks C) (hw : DistinctFeatures w)
include hclocks hw

theorem closes_adoptAndCommit (htwoPass : options.twoPass = true)
    {selected : MSCKFDetachedFeatureSet}
    (hselected : selectedGeometry C (inPlaceClone w t) = some selected) :
    Closes C w options t (do adoptGeometry selected; commitOrdinary C) := by
  intro s hm
  rw [wp_bind]
  refine wp_mono (wp_adoptGeometry hw selected hm) (fun _ u hu => ?_) (fun _ _ he => he)
  refine wp_mono (wp_commitOrdinary C hclocks hw hu) (fun _ v hv => ?_) (fun _ _ he => he)
  rcases hv with hv | hv
  · exact .inl hv
  · refine .inr (.inr ⟨_, ?_, hv⟩)
    simp only [CommittedFeatures, htwoPass, if_true]
    exact ⟨selected, hselected, rfl⟩

theorem closes_selectPass (htwoPass : options.twoPass = true) {passOne : MSCKFTwoPassCost}
    (hpassOne : C.passOneCost (inPlaceClone w t) = .ok passOne) :
    Closes C w options t (selectPass C passOne) := by
  have hreject : Closes C w options t (rejectTwoPass C) :=
    closes_rejectOrdinary hclocks hw (by simp) _
  intro s hm
  unfold selectPass
  rw [wp_bind]
  refine wp_mono (wp_runSecondPass hw passOne hm) (fun second u hu => ?_) (fun _ _ he => he)
  obtain ⟨rfl, hsecond⟩ := hu
  -- the selection depends on the two costs alone
  set two := second.valid && second.cost.valid && C.passTwoAccepted passOne second.cost with htwo
  have hselected : selectedGeometry C (inPlaceClone w t) =
      some (if two then second.cost.geometry else passOne.geometry) := by
    unfold selectedGeometry
    rw [hpassOne]
    cases hpassTwo : C.passTwo (inPlaceClone w t) with
    | error f =>
      rw [hpassTwo] at hsecond
      simp [htwo, hsecond]
    | ok second' =>
      rw [hpassTwo] at hsecond
      simp only at hsecond
      subst hsecond
      simp only [← htwo]
      split <;> rfl
  refine (localPiece_call _).closes (fun covariance => ?_) u hm
  refine .ite hreject (.ite hreject ?_)
  exact closes_adoptAndCommit hclocks hw htwoPass hselected

theorem closes_twoPassUpdate (htwoPass : options.twoPass = true) (H : MatrixXd)
    (residual : VectorXd) : Closes C w options t (twoPassUpdate C H residual) := by
  have hreject : Closes C w options t (rejectTwoPass C) :=
    closes_rejectOrdinary hclocks hw (by simp) _
  refine (localPiece_modifyEvent _).closes fun _ => .of_get fun s => ?_
  rcases previewLayoutFromOrder 0 s.system.Hx_order_big with _ | ⟨_ | ⟨block, layout⟩⟩
  · exact hreject
  · exact hreject
  refine (localPiece_call _).closes fun factored => .ite hreject ?_
  refine (localPiece_call _).closes fun meaned => .ite hreject ?_
  intro s hm
  rw [wp_bind]
  refine wp_mono (wp_cloneActive hw hm) (fun clone u hu => ?_) (fun _ _ he => he)
  obtain ⟨rfl, rfl⟩ := hu
  rw [wp_bind]
  cases hpassOne : C.passOneCost (inPlaceClone w t) with
  | error f => exact ⟨hm.toBackstage, f, rfl⟩
  | ok passOne =>
    exact Closes.ite hreject (closes_selectPass hclocks hw htwoPass hpassOne) u hm

end TwoPasses

/-! ## Behind the pipeline -/

section Behind

variable {C : Callees σ} {w : World σ} {options : UpdaterOptions} {t : Call σ}

theorem relWp_markRemaining (hw : DistinctFeatures w) (indices : List Nat)
    {E : Exn → Call σ → Prop} :
    ∀ {s t : Call σ}, (∀ i ∈ indices, i < w.featureVec.length) → Mirrors w s t →
      relWp (markRemaining (indices.map .working)) (markRemaining (indices.map w.entry))
        (fun _ _ s' t' => Mirrors w s' t') E s t := by
  induction indices with
  | nil => exact fun _ hm => relWp_pure hm
  | cons i indices ih =>
    intro s t hlt hm
    have hi : i < w.featureVec.length := hlt i mem_cons_self
    refine relWp_bind (relWp_modify ?_)
    rw [← hm.twins i hi]
    exact ih (fun j hj => hlt j (mem_cons_of_mem i hj)) (hm.write hw hi _)

variable (hclocks : ValidClocks C) (hw : DistinctFeatures w)
include hclocks hw

theorem closes_leaveAllRejected (afterCleaning afterTriangulation : Bool) :
    Closes C w options t (leaveAllRejected C false afterCleaning afterTriangulation) := by
  refine .of_get fun s => (localPiece_pure ()).closes fun _ => ?_
  exact closes_rejectOrdinary hclocks hw (by simp) _

theorem closes_compressAndUpdate : Closes C w options t (compressAndUpdate C options false) := by
  refine (localPiece_call _).closes fun _ => .of_get fun s => ?_
  refine (localPiece_modifyEvent _).closes fun _ => .ite ?_ ?_
  · exact closes_rejectOrdinary hclocks hw (by simp) _
  refine (localPiece_modifyEvent _).closes fun _ => ?_
  by_cases htwoPass : options.twoPass = true
  · have hbranch := htwoPass
    unfold UpdaterOptions.twoPass at hbranch
    rw [Bool.not_false, Bool.true_and, if_pos hbranch]
    exact closes_twoPassUpdate hclocks hw htwoPass _ _
  · have hbranch := htwoPass
    unfold UpdaterOptions.twoPass at hbranch
    rw [Bool.not_false, Bool.true_and, if_neg hbranch]
    exact closes_onePassUpdate hclocks hw (by simpa using htwoPass) _ _

theorem wp_updateWithSystem (afterCleaning afterTriangulation : Bool) {s : Call σ}
    (h : Mirrors w s t) :
    wp (updateWithSystem C options false afterCleaning afterTriangulation)
      (fun _ u => ∃ t', (markRemaining t.proposalVec).run t = .ok ⟨⟩ t' ∧ Settled C w options t' u)
      (Thrown w) s := by
  unfold updateWithSystem
  rw [wp_bind, wp_get, wp_bind]
  have hshadow : LocalPiece (onlyIf (!s.shadowInput.rawSystems.isEmpty) (runShadow C false)) := by
    cases !s.shadowInput.rawSystems.isEmpty with
    | false => exact localPiece_pure _
    | true => exact localPiece_runShadow C
  refine wp_mono (hshadow s) (fun _ s₁ hs₁ => ?_)
    (fun e s₁ he => ⟨h.toBackstage.of_local he.1, he.2⟩)
  have hm₁ := h.of_localStep hs₁
  obtain ⟨indices, hindices, hvec, hvec'⟩ := hm₁.proposalVec
  rw [wp_bind, wp_get, wp_bind, hvec, hvec']
  refine wp_mono (relWp_markRemaining hw indices
    (fun i hi => mem_range.mp (hindices.subset hi)) hm₁) (fun _ s₂ hs₂ => ?_) (fun _ _ he => he)
  obtain ⟨_, t', hrun, hm₂⟩ := wp_ok_iff.mp hs₂
  have hnote : LocalPiece (notePrecompressionRows (σ := σ) false) :=
    .of_modify fun s => by
      split
      · exact .refl s
      · exact ⟨rfl, rfl, rfl, rfl, rfl, rfl⟩
  have hrest : Closes C w options t' (do
      notePrecompressionRows false
      let s ← get
      if s.system.ctMeas < 1 then leaveAllRejected C false afterCleaning afterTriangulation
      else compressAndUpdate C options false) :=
    hnote.closes fun _ => .of_get fun s =>
      .ite (closes_leaveAllRejected hclocks hw _ _) (closes_compressAndUpdate hclocks hw)
  exact wp_mono (hrest s₂ hm₂) (fun _ u hu => ⟨t', hrun, hu⟩) (fun _ _ he => he)

end Behind

/-! ## The call -/

/-- A call of ordinary mode behind its entry, before it has done anything. -/
structure Started (w : World σ) (s : Call σ) : Prop extends Backstage w s where
  heap : s.heap = w.heap
  featureVec : s.featureVec = w.featureVec
  batch : s.batch = none
  tick : s.tick = 0
  system : s.system = {}
  rawSystemCount : s.event.rawSystemCount = 0

def Transaction (C : Callees σ) (w : World σ) (u : Call σ) : Prop :=
  EmptyCall w u ∨ RolledBack w u ∨
    ∃ t, (inPlaceUpdate C).run { toWorld := w } = .ok ⟨⟩ t ∧
      (RejectedCall w t u ∨ ∃ heap, CommittedFeatures C w w.updater.options t heap ∧
        CommittedCall C w heap t.featureVec u)

def inPlaceStart (w : World σ) (prior : MSCKFUpdatePreviewSnapshot) : Call σ :=
  { toWorld := w, priorSnapshot := prior }

section Calls

variable {C : Callees σ} {w : World σ}

theorem wp_detachFeatures (hw : DistinctFeatures w) {s : Call σ} (h : Started w s)
    (prior : MSCKFUpdatePreviewSnapshot) :
    wp (do detachFeatures C; modify fun s => { s with priorSnapshot := prior })
      (fun _ u => Mirrors w u (inPlaceStart w prior) ∧ Synced u (inPlaceStart w prior))
      (Thrown w) s := by
  have hnull : s.featureVec.any (· == .null) = false := by
    rw [h.featureVec, any_eq_false]
    intro p hp
    obtain ⟨n, rfl⟩ := hw.live p hp
    simp
  rw [wp_bind, detachFeatures, wp_bind, wp_get, hnull]
  simp only [Bool.false_eq_true, if_false, wp_bind]
  cases C.allocateBatch with
  | error f => exact ⟨h.toBackstage, f, rfl⟩
  | ok _ =>
    simp only [call, wp_pure, wp_modify]
    refine ⟨⟨⟨h.state, h.live, h.terminal, h.commitCalls, h.liveCommitStarted, h.meanCommits,
      h.covarianceCommits, h.finalizations⟩, ⟨List.range w.featureVec.length, List.Sublist.refl _,
      ?_, ?_⟩, fun i _ => ?_, fun n _ => rfl, rfl⟩, h.tick, h.system, h.rawSystemCount, rfl⟩
    · rw [h.featureVec]
      rfl
    · exact ext_getElem (by simp [inPlaceStart]) fun i hi _ => by
        have hlt : i < w.featureVec.length := hi
        rw [getElem_map, getElem_range, World.entry, getD_eq_getElem _ _ hlt]
        rfl
    · simp only [h.featureVec, h.heap]
      rfl

theorem wp_enterOrdinary (hw : DistinctFeatures w) (options : UpdaterOptions) {s : Call σ}
    (h : Started w s) :
    wp (enterOrdinary C options) (fun entered u =>
      if entered then ∃ prior, C.capturePrior = .ok prior ∧ Mirrors w u (inPlaceStart w prior) ∧
        Synced u (inPlaceStart w prior)
      else RolledBack w u) (Thrown w) s := by
  have hfail : ∀ subreason, wp (do failOrdinary C subreason; return false)
      (fun entered u =>
        if entered then ∃ prior, C.capturePrior = .ok prior ∧ Mirrors w u (inPlaceStart w prior) ∧
          Synced u (inPlaceStart w prior)
        else RolledBack w u) (Thrown w) s := fun subreason => by
    rw [wp_bind]
    exact wp_mono (wp_failOrdinary C subreason h.toBackstage.undone) (fun _ u hu => hu)
      (fun _ _ he => he)
  unfold enterOrdinary
  rw [wp_bind]
  cases hprior : C.capturePrior with
  | error f => exact ⟨h.toBackstage, f, rfl⟩
  | ok prior =>
    rw [hprior] at hfail
    simp only [call, wp_pure, wp_bind]
    cases C.entryMatch with
    | error f => exact ⟨h.toBackstage, f, rfl⟩
    | ok agrees =>
      simp only [wp_pure]
      split
      · exact hfail _
      split
      · exact hfail _
      · have hdetach := wp_detachFeatures (C := C) hw h prior
        simp only [wp_bind] at hdetach ⊢
        refine wp_mono hdetach (fun _ u hu => ?_) (fun _ _ he => he)
        exact wp_mono hu (fun _ v hv => ⟨prior, rfl, hv⟩) (fun _ _ he => he)

theorem run_inPlaceUpdate {prior : MSCKFUpdatePreviewSnapshot} (hprior : C.capturePrior = .ok prior)
    {known : Bool × Bool} {t t' : Call σ}
    (hpipeline : (runPipeline C w.updater.options w.updater.chiSquaredTable false
      w.updater.collectsShadow).run (inPlaceStart w prior) = .ok (some known) t)
    (hmarks : (markRemaining t.proposalVec).run t = .ok ⟨⟩ t') :
    (inPlaceUpdate C).run { toWorld := w } = .ok ⟨⟩ t' := by
  have hwp : wp (inPlaceUpdate C) (fun _ u => u = t') (fun _ _ => False) { toWorld := w } := by
    unfold inPlaceUpdate
    rw [wp_bind, wp_get, wp_bind, hprior]
    simp only [call, wp_pure, wp_bind, wp_modify]
    refine (wp_of_ok hpipeline).mpr ?_
    rw [wp_bind, wp_get]
    exact (wp_of_ok hmarks).mpr rfl
  obtain ⟨_, u, hrun, rfl⟩ := wp_ok_iff.mp hwp
  exact hrun

variable (hclocks : ValidClocks C) (hw : DistinctFeatures w)
include hclocks hw

theorem wp_updateBody {s : Call σ} (h : Started w s) :
    wp (updateBody C w.updater.options w.updater.chiSquaredTable false w.updater.collectsShadow)
      (fun _ u => Transaction C w u) (Thrown w) s := by
  unfold updateBody
  rw [wp_bind, wp_get, h.featureVec]
  split
  · rename_i hempty
    refine wp_mono (wp_finishUpdate C _ _) (fun _ u hu => .inl ?_) (fun _ _ he => he)
    obtain ⟨event, hnotified, hstatus⟩ := hu
    rw [if_pos (show (steadyClockDuration C.start C.finish).isSome = true from hclocks)] at hstatus
    exact ⟨List.isEmpty_iff.mp hempty, hnotified.state.trans h.state, hnotified.heap.trans h.heap,
      hnotified.featureVec.trans h.featureVec, hnotified.commitCalls.trans h.commitCalls,
      hnotified.finalizations.trans h.finalizations, event, by rw [hnotified.terminal, h.terminal],
      hstatus⟩
  · rw [if_neg (by simp), wp_bind]
    refine wp_mono (wp_enterOrdinary hw w.updater.options h) (fun entered u hu => ?_)
      (fun _ _ he => he)
    cases entered with
    | false => exact .inr (.inl hu)
    | true =>
      obtain ⟨prior, hprior, hm, hs⟩ := hu
      rw [if_neg (by simp), wp_bind]
      refine wp_mono (tracks_runPipeline C w.updater.options w.updater.chiSquaredTable
        w.updater.collectsShadow hw u _ hm hs) (fun result v hv => ?_) (fun _ _ he => he)
      obtain ⟨result', t, hrun, rfl, hv⟩ := wp_ok_iff.mp hv
      cases result with
      | none => exact .inr (.inl hv)
      | some known =>
        refine wp_mono (wp_updateWithSystem hclocks hw known.1 known.2 hv.1)
          (fun _ u' hu' => ?_) (fun _ _ he => he)
        obtain ⟨t', hmarks, hsettled⟩ := hu'
        rcases hsettled with hsettled | hsettled
        · exact .inr (.inl hsettled)
        · exact .inr (.inr ⟨t', run_inPlaceUpdate hprior hrun hmarks, hsettled⟩)

omit hclocks hw in
theorem wp_handleOrdinary {s : Call σ} {e : Exn} (h : Thrown w e s) {E : Exn → Call σ → Prop} :
    wp (handle C false e) (fun _ u => RolledBack w u) E s := by
  obtain ⟨hs, f, rfl⟩ := h
  simp only [handle, wp_bind, wp_get, Bool.false_eq_true, if_false, hs.liveCommitStarted]
  exact wp_failOrdinary C _ hs.undone

end Calls

/-- The entry conditions of an ordinary call: no sink, no call under way, no latch, and an invocation
id for the context that is pending, if there is one. -/
structure OrdinaryEntry (C : Callees σ) (u : UpdaterMSCKF) : Prop where
  ordinary : u.recordedSink = false
  inactive : u.updateActive = false
  unlatched : u.traceFatalReason = .kNone
  representable : u.pendingInvocationContext.isSome → u.nextInvocationId.toNat + 1 < 2 ^ 64
  clocks : ValidClocks C

theorem ValidClocks.start {C : Callees σ} (h : ValidClocks C) : C.start.valid = true := by
  unfold ValidClocks steadyClockDuration at h
  cases hstart : C.start.valid with
  | true => rfl
  | false => simp [hstart] at h

theorem rolledBack_deactivate {w : World σ} {u : Call σ} (h : RolledBack w u) :
    RolledBack w u.deactivate :=
  ⟨h.state, h.live, h.featureVec, h.commitCalls, h.finalizations, h.event⟩

theorem transaction_deactivate {C : Callees σ} {w : World σ} {u : Call σ}
    (h : Transaction C w u) : Transaction C w u.deactivate := by
  rcases h with h | h | ⟨t, ht, h | ⟨heap, hheap, h⟩⟩
  · exact .inl ⟨h.input, h.state, h.heap, h.featureVec, h.commitCalls, h.finalizations, h.event⟩
  · exact .inr (.inl (rolledBack_deactivate h))
  · exact .inr (.inr ⟨t, ht, .inl ⟨h.state, h.commitCalls, h.finalizations, h.live,
      h.featureVec, h.event⟩⟩)
  · exact .inr (.inr ⟨t, ht, .inr ⟨heap, hheap, h.state, h.commitCalls, h.finalizations,
      h.live, h.featureVec, h.event⟩⟩)

theorem consumeContext_overflow {u : UpdaterMSCKF}
    (h : u.pendingInvocationContext.isSome → u.nextInvocationId.toNat + 1 < 2 ^ 64) :
    u.consumeContext.2.1 = false := by
  unfold UpdaterMSCKF.consumeContext
  cases hpending : u.pendingInvocationContext with
  | none => rfl
  | some context =>
    have hlt := h (by simp [hpending])
    simp only [decide_eq_false_iff_not]
    omega

theorem wp_activeOrdinary {C : Callees σ} {w : World σ} (hclocks : ValidClocks C)
    (hw : DistinctFeatures w) {v : UpdaterMSCKF} (hordinary : w.updater.recordedSink = false)
    (hrepresentable : v.pendingInvocationContext.isSome → v.nextInvocationId.toNat + 1 < 2 ^ 64)
    (hoptions : v.options = w.updater.options ∧ v.chiSquaredTable = w.updater.chiSquaredTable ∧
      v.recordedSink = w.updater.recordedSink ∧ v.updateCallback = w.updater.updateCallback ∧
      v.shadowEnabled = w.updater.shadowEnabled) {E : Exn → Call σ → Prop} :
    wp (activeUpdate C) (fun _ u => Transaction C w u) E { toWorld := { w with updater := v } } := by
  obtain ⟨hoptions, htable, hsink, hcallback, hshadow⟩ := hoptions
  have hcollects : (v.updateCallback && v.shadowEnabled &&
      decide (w.updater.options.landmarkElimination = .NULLSPACE)) = w.updater.collectsShadow := by
    rw [UpdaterMSCKF.collectsShadow, hcallback, hshadow]
  unfold activeUpdate
  rw [wp_bind, wp_get]
  simp only [hsink, hordinary, Bool.false_or, Bool.false_and, Bool.false_eq_true, if_false,
    wp_bind, wp_modify, consumeContext_overflow hrepresentable, onlyIf, wp_pure, wp_catching,
    hcollects, hoptions, htable]
  refine wp_mono (wp_updateBody hclocks hw ?_) (fun _ u hu => hu) (fun e u he => ?_)
  · refine ⟨⟨rfl, fun _ => rfl, rfl, rfl, rfl, rfl, rfl, rfl⟩, rfl, rfl, rfl, rfl, rfl, ?_⟩
    cases v.consumeContext.1 <;> rfl
  · exact wp_mono (wp_handleOrdinary he) (fun _ u hu => .inr (.inl hu)) (fun _ _ he => he)

/-- Every ordinary call on distinct live features returns, with one terminal event, and is a
transaction: committed or rejected with the features that the steps in place leave, or rolled back. -/
theorem ordinary_update_is_transaction (C : Callees σ) {w : World σ}
    (hentry : OrdinaryEntry C w.updater) (hw : DistinctFeatures w) :
    ∃ u, (update C).run { toWorld := w } = .ok ⟨⟩ u ∧ Transaction C w u := by
  have hwp : wp (update C) (fun _ u => Transaction C w u) (fun _ _ => False) { toWorld := w } := by
    unfold update
    rw [wp_bind, wp_get]
    simp only [enter, hentry.clocks.start, Bool.not_true, if_true, Bool.false_eq_true, if_false,
      UpdaterMSCKF.traceFatalLatched, hentry.unlatched, bne_self_eq_false, hentry.inactive, wp_bind,
      wp_modify, wp_guarded]
    have hactive := wp_activeOrdinary (E := fun _ _ => False) hentry.clocks hw
      (v := { w.updater with
        configurationFrozen := true, updateActive := true, traceFatalReason := .kNone })
      hentry.ordinary hentry.representable ⟨rfl, rfl, rfl, rfl, rfl⟩
    exact wp_mono hactive (fun _ u hu => transaction_deactivate hu) (fun _ _ he => he)
  obtain ⟨_, u, hrun, hu⟩ := wp_ok_iff.mp hwp
  exact ⟨u, hrun, hu⟩

theorem ordinary_update_is_transaction_unit :
    (runUpdate unitCallees unitOrdinary).2.terminal.map CP2LiveUpdateEvent.terminalStatus =
        [.kCommittedCounted] ∧
      ∃ u, (update unitCallees).run { toWorld := unitOrdinary } = .ok ⟨⟩ u ∧
        Transaction unitCallees unitOrdinary u := by
  refine ⟨by decide +kernel, ordinary_update_is_transaction unitCallees ?_ ?_⟩
  · exact ⟨rfl, rfl, rfl, fun h => absurd h (by decide), by unfold ValidClocks; decide⟩
  · refine ⟨fun p hp => ⟨0, ?_⟩, by decide⟩
    simpa [unitOrdinary] using hp

end Bravo.Updater
