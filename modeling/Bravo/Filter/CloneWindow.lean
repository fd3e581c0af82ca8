import Bravo.Filter.Lifecycle

/-! # The window of clones

While time goes forward, `augment_clone` enters its clone behind the others and
`marginalize_old_clone` takes the first one out. So the state holds the clones of the last
timestamps, and no more than its options allow once every clone is followed by a marginalization
(`clone_window`).
-/

namespace Bravo.Filter

open Bravo.Linear List

/-! ## What leaves the clones alone -/

/-- The times of the clones, in the order of the map. -/
def State.window (st : State ℝ) : List ℝ := st.clonesIMU.map (·.1)

def State.frame (st : State ℝ) : List (ℝ × PoseJPL) × ℝ × StateOptions :=
  (st.clonesIMU, st.timestamp, st.options)

section Frame

variable {k : Kernels ℝ} {storage : Nat → Nat → ℝ} {st st' : State ℝ}

theorem frame_refreshCameras : (refreshCameras st).frame = st.frame := by
  unfold refreshCameras
  split <;> rfl

theorem frame_ekfPropagation {order_NEW order_OLD : List Var} {Phi Q : Dense ℝ}
    (h : ekfPropagation st order_NEW order_OLD Phi Q = some st') : st'.frame = st.frame := by
  unfold ekfPropagation at h
  cases order_NEW with
  | nil => cases h
  | cons first rest =>
    dsimp only at h
    split_ifs at h
    cases h
    rfl

theorem frame_ekfUpdate {H_order : List Var} {H res R : Dense ℝ}
    (h : ekfUpdate k st H_order H res R = some st') : st'.frame = st.frame := by
  unfold ekfUpdate finishUpdate at h
  dsimp only at h
  split_ifs at h
  cases h
  exact frame_refreshCameras

theorem frame_commitPrecomputedUpdate {dx posterior : Dense ℝ} {policy : CovariancePolicy}
    (h : commitPrecomputedUpdate k st dx posterior policy = some st') : st'.frame = st.frame := by
  unfold commitPrecomputedUpdate at h
  split_ifs at h
  cases h
  exact frame_refreshCameras

theorem frame_marginalize {marg : Var} (h : marginalize storage st marg = some st') :
    st'.frame = st.frame := by
  unfold marginalize at h
  split_ifs at h
  cases h
  rfl

theorem frame_marginalizeFeatures {order : List (Nat × Landmark)} :
    ∀ {st : State ℝ}, marginalizeFeatures storage order st = some st' → st'.frame = st.frame := by
  induction order with
  | nil =>
    intro st h
    cases h
    rfl
  | cons feature rest ih =>
    intro st h
    unfold marginalizeFeatures at h
    split at h
    · obtain ⟨between, hmarg, hrest⟩ := Option.bind_eq_some_iff.mp h
      have hframe := frame_marginalize hmarg
      exact (ih hrest).trans hframe
    · exact ih h

theorem frame_delayedInit {inverse : Dense ℝ → Nat → Nat → ℝ} {makeGivens : ℝ → ℝ → ℝ × ℝ}
    {quantile : Nat → ℝ} {featid size : Nat} {value fej : List ℝ} {H_order : List Var}
    {system : InitSystem ℝ} {sigmaPixSq chi2Mult : ℝ}
    (h : delayedInit k inverse makeGivens quantile st featid size value fej H_order system sigmaPixSq
      chi2Mult = some st') : st'.frame = st.frame := by
  unfold delayedInit at h
  obtain ⟨result, hresult, rfl⟩ := Option.map_eq_some_iff.mp h
  have hkept : result.2.frame = st.frame := by
    unfold initializeVariable at hresult
    dsimp only at hresult
    split_ifs at hresult with _ _ _ hupdate
    · cases hresult
      rfl
    all_goals
      obtain ⟨made, hmade, hlast⟩ := Option.bind_eq_some_iff.mp hresult
      have hframe : made.frame = st.frame := by
        unfold initializeInvertible at hmade
        dsimp only at hmade
        split_ifs at hmade
        cases hmade
        rfl
    · obtain ⟨updated, hupdated, rfl⟩ := Option.map_eq_some_iff.mp hlast
      exact (frame_ekfUpdate hupdated).trans hframe
    · cases hlast
      exact hframe
  split
  · exact hkept
  · exact hkept

end Frame

/-! ## The ends of the window -/

section Ends

variable {storage : Nat → Nat → ℝ} {st st' : State ℝ}

theorem insertClone_last {time : ℝ} {pose : PoseJPL} {clones : List (ℝ × PoseJPL)}
    (hpast : ∀ clone ∈ clones, clone.1 < time) :
    insertClone time pose clones = clones ++ [(time, pose)] := by
  induction clones with
  | nil => rfl
  | cons clone rest ih =>
    obtain ⟨hclone, hrest⟩ := forall_mem_cons.mp hpast
    rw [insertClone, if_neg hclone.not_gt, ih hrest, cons_append]

theorem margtimestep_first {first : ℝ × PoseJPL} {rest : List (ℝ × PoseJPL)}
    (hclones : st.clonesIMU = first :: rest) (hlater : ∀ clone ∈ rest, first.1 < clone.1) :
    st.margtimestep = some first.1 := by
  rw [State.margtimestep, hclones, foldl_cons]
  refine foldlRecOn (motive := fun oldest => oldest = some first.1) _ _ rfl ?_
  rintro _ rfl clone hclone
  simp [(hlater clone hclone).not_gt]

/-- The clone that leaves is the first one. -/
theorem marginalizeOldClone_tail (hincreasing : st.window.Pairwise (· < ·))
    (h : marginalizeOldClone storage st = some st') :
    st'.window = (if st.options.maxCloneSize < st.window.length then st.window.tail else st.window) ∧
      st'.timestamp = st.timestamp ∧ st'.options = st.options := by
  have hlength : st.window.length = st.clonesIMU.length := length_map _
  unfold marginalizeOldClone at h
  rw [hlength]
  split at h
  · rename_i hmany
    rw [if_pos hmany]
    unfold State.window at hincreasing ⊢
    cases hclones : st.clonesIMU with
    | nil => simp [State.margtimestep, hclones] at h
    | cons first rest =>
      rw [hclones, map_cons, pairwise_cons] at hincreasing
      have hlater : ∀ clone ∈ rest, first.1 < clone.1 := fun clone hclone =>
        hincreasing.1 clone.1 (mem_map_of_mem hclone)
      rw [margtimestep_first hclones hlater, Option.bind_some, marginalizeCloneAt, hclones,
        find?_cons_of_pos (by simp)] at h
      obtain ⟨kept, hkept, rfl⟩ := Option.map_eq_some_iff.mp h
      have hframe := frame_marginalize hkept
      simp only [State.frame, Prod.mk.injEq] at hframe
      obtain ⟨hsame, htime, hoptions⟩ := hframe
      refine ⟨?_, htime, hoptions⟩
      dsimp only
      rw [hsame, hclones, filter_cons_of_neg (by simp), map_cons, tail_cons, filter_eq_self.mpr]
      exact fun clone hclone => by simpa using (hlater clone hclone).ne'
  · rename_i hfew
    rw [if_neg hfew]
    cases h
    exact ⟨rfl, rfl, rfl⟩

end Ends

/-! ## Runs -/

/-- Timestamps go forward, and clones leave through `marginalize_old_clone` only. -/
def Call.Forward (st : State ℝ) : Call → Prop
  | setTimestamp time => st.timestamp < time
  | marginalizeClone _ => False
  | _ => True

/-- The time of the clone that a call makes. -/
def Call.cloned (st : State ℝ) : Call → Option ℝ
  | augmentClone _ => some st.timestamp
  | _ => none

def Call.backlog (n : Nat) : Call → Nat
  | augmentClone _ => n + 1
  | marginalizeOldClone => n - 1
  | _ => n

def clonedTimes (es : List (Entry (State ℝ) Call)) : List ℝ :=
  es.filterMap fun e => e.input.cloned e.pre

/-- The clones that no marginalization has followed yet. -/
def backlog (es : List (Entry (State ℝ) Call)) : Nat :=
  es.foldl (fun n e => e.input.backlog n) 0

/-- What holds of the window in a run that goes forward. -/
structure Windowed (o : StateOptions) (es : List (Entry (State ℝ) Call)) (st : State ℝ) : Prop where
  sound : Sound st
  options : st.options = o
  increasing : st.window.Pairwise (· < ·)
  past : ∀ time ∈ st.window, time ≤ st.timestamp
  latest : st.window <:+ clonedTimes es
  full : st.window = clonedTimes es ∨ o.maxCloneSize ≤ st.window.length
  bounded : st.window.length ≤ o.maxCloneSize + backlog es

section Runs

variable {L : Numerics} {o : StateOptions} {es : List (Entry (State ℝ) Call)} {st st' : State ℝ} {c : Call}

theorem clonedTimes_snoc (post : State ℝ) :
    clonedTimes (es ++ [⟨st, c, post⟩]) = clonedTimes es ++ (c.cloned st).toList := by
  unfold clonedTimes
  rw [filterMap_append]
  cases h : c.cloned st <;> simp [h]

theorem backlog_snoc (post : State ℝ) :
    backlog (es ++ [⟨st, c, post⟩]) = c.backlog (backlog es) := by
  unfold backlog
  rw [foldl_append, foldl_cons, foldl_nil]

/-- A call that does not touch the clones, at a later time or at the same. -/
theorem Windowed.congr (hw : Windowed o es st) (hs : Sound st') (hclones : st'.clonesIMU = st.clonesIMU)
    (htime : st.timestamp ≤ st'.timestamp) (hoptions : st'.options = st.options)
    (hcloned : c.cloned st = none) (hbacklog : c.backlog (backlog es) = backlog es) :
    Windowed o (es ++ [⟨st, c, st'⟩]) st' := by
  have hwindow : st'.window = st.window := by rw [State.window, hclones, State.window]
  refine ⟨hs, hoptions.trans hw.options, hwindow ▸ hw.increasing,
    fun time hin => (hw.past time (hwindow ▸ hin)).trans htime, ?_, ?_, ?_⟩
  · rw [clonedTimes_snoc, hcloned, Option.toList_none, append_nil, hwindow]
    exact hw.latest
  · rw [clonedTimes_snoc, hcloned, Option.toList_none, append_nil, hwindow]
    exact hw.full
  · rw [backlog_snoc, hbacklog, hwindow]
    exact hw.bounded

theorem Windowed.augmentClone (hw : Windowed o es st) {last_w : Fin 3 → ℝ} (hs : Sound st')
    (htime : ∀ clone ∈ st.clonesIMU, clone.1 ≠ st.timestamp)
    (h : Filter.augmentClone st last_w = some st') :
    Windowed o (es ++ [⟨st, .augmentClone last_w, st'⟩]) st' := by
  obtain ⟨-, -, hclones, hsame, hoptions⟩ := augmentClone_fields hw.sound.laid hw.sound.holds_pose h
  have hpast : ∀ clone ∈ st.clonesIMU, clone.1 < st.timestamp := fun clone hclone =>
    (hw.past clone.1 (mem_map_of_mem hclone)).lt_of_ne (htime clone hclone)
  have hwindow : st'.window = st.window ++ [st.timestamp] := by
    unfold State.window
    rw [hclones, insertClone_last hpast, map_append]
    rfl
  have hbounded := hw.bounded
  refine ⟨hs, hoptions.trans hw.options, ?_, ?_, ?_, ?_, ?_⟩
  · rw [hwindow, pairwise_append]
    refine ⟨hw.increasing, pairwise_singleton _ _, fun time hin last hlast => ?_⟩
    obtain ⟨clone, hclone, rfl⟩ := mem_map.mp hin
    exact mem_singleton.mp hlast ▸ hpast clone hclone
  · intro time hin
    rw [hwindow, mem_append, mem_singleton] at hin
    rw [hsame]
    exact hin.elim (hw.past time) le_of_eq
  · rw [hwindow, clonedTimes_snoc]
    obtain ⟨gone, hgone⟩ := hw.latest
    exact ⟨gone, by rw [← append_assoc, hgone]; rfl⟩
  · rw [hwindow, clonedTimes_snoc]
    refine hw.full.imp (fun hall => by rw [hall]; rfl) fun hmany => ?_
    rw [length_append]
    omega
  · rw [hwindow, length_append, backlog_snoc]
    simp only [Call.backlog, length_singleton]
    omega

theorem Windowed.marginalizeOldClone (hw : Windowed o es st) {storage : Nat → Nat → ℝ} (hs : Sound st')
    (hmax : 0 ≤ st.options.maxCloneSize) (h : Filter.marginalizeOldClone storage st = some st') :
    Windowed o (es ++ [⟨st, .marginalizeOldClone, st'⟩]) st' := by
  obtain ⟨hwindow, htime, hoptions⟩ := marginalizeOldClone_tail hw.increasing h
  rw [hw.options] at hwindow hmax
  have hbounded := hw.bounded
  have hlength := @length_tail _ st.window
  have hsublist : st'.window <:+ st.window := by
    rw [hwindow]
    split
    · exact tail_suffix _
    · exact suffix_refl _
  refine ⟨hs, hoptions.trans hw.options, hw.increasing.sublist hsublist.sublist,
    fun time hin => htime ▸ hw.past time (hsublist.mem hin), ?_, ?_, ?_⟩
  · rw [clonedTimes_snoc]
    exact (hsublist.trans hw.latest).trans ((append_nil _).symm ▸ suffix_refl _)
  · rw [clonedTimes_snoc, hwindow]
    split
    · exact .inr (by omega)
    · exact hw.full.imp_left fun hall => hall.trans (append_nil _).symm
  · rw [backlog_snoc, hwindow]
    dsimp only [Call.backlog]
    split
    · rw [hlength]
      omega
    · rename_i hfew
      exact (not_lt.mp hfew).trans (le_add_of_nonneg_right (Int.natCast_nonneg _))

theorem Windowed.call (hw : Windowed o es st) (hllt : Solves L.llt) (hstep : Call.Step L st c st')
    (hforward : c.Forward st) : Windowed o (es ++ [⟨st, c, st'⟩]) st' := by
  obtain ⟨hpromised, hresult⟩ := hstep
  have hs : Sound st' := by
    obtain ⟨_, hresult', hs'⟩ := hw.sound.call hllt hpromised
    rwa [Option.some.inj (hresult.symm.trans hresult')]
  have hframed : st'.frame = st.frame → c.cloned st = none → c.backlog (backlog es) = backlog es →
      Windowed o (es ++ [⟨st, c, st'⟩]) st' := fun hframe hcloned hbacklog => by
    simp only [State.frame, Prod.mk.injEq] at hframe
    exact hw.congr hs hframe.1 hframe.2.1.ge hframe.2.2 hcloned hbacklog
  cases c with
  | setTimestamp time =>
    cases hresult
    exact hw.congr hs rfl (le_of_lt hforward) rfl rfl rfl
  | setValue v value =>
    cases hresult
    exact hframed rfl rfl rfl
  | setMarg landmark =>
    cases hresult
    exact hframed rfl rfl rfl
  | propagate order_NEW order_OLD Phi Q => exact hframed (frame_ekfPropagation hresult) rfl rfl
  | augmentClone last_w => exact hw.augmentClone hs hpromised hresult
  | update H_order H res R => exact hframed (frame_ekfUpdate hresult) rfl rfl
  | commit dx posterior policy =>
    refine hframed ?_ rfl rfl
    cases hcommit : commitPrecomputedUpdate L.kernels st dx posterior policy with
    | none =>
      rw [Call.run, hcommit] at hresult
      cases hresult
      rfl
    | some committed =>
      rw [Call.run, hcommit] at hresult
      cases hresult
      exact frame_commitPrecomputedUpdate hcommit
  | marginalizeClone time => exact hforward.elim
  | marginalizeOldClone => exact hw.marginalizeOldClone hs hpromised hresult
  | marginalizeSlam order => exact hframed (frame_marginalizeFeatures hresult) rfl rfl
  | delayedInit featid size value fej H_order system sigmaPixSq chi2Mult =>
    exact hframed (frame_delayedInit hresult) rfl rfl

/-- The state holds the last clones that were made. None has left while there were too few, and there
are no more than allowed besides those that no marginalization has followed. -/
theorem clone_window (hllt : Solves L.llt) (o : StateOptions) (hmax : 0 ≤ o.maxCloneSize)
    (cameras : List (Nat × List ℝ))
    (hcameras : { State.construct (K := ℝ) o with cameras := cameras }.camerasPresent = true)
    (hrun : Run (fun st call st' => Call.Step L st call st' ∧ call.Forward st)
      { State.construct o with cameras := cameras } es st) :
    st.window.Pairwise (· < ·) ∧ st.window <:+ clonedTimes es ∧
      (st.window = clonedTimes es ∨ o.maxCloneSize ≤ st.window.length) ∧
      st.window.length ≤ o.maxCloneSize + backlog es := by
  have hstart : Windowed o [] { State.construct o with cameras := cameras } :=
    ⟨sound_construct o hcameras, rfl, Pairwise.nil, fun _ hin => (not_mem_nil hin).elim,
      suffix_refl _, .inl rfl, hmax.trans (le_add_of_nonneg_right le_rfl)⟩
  have hw : Windowed o es st := hrun.history hstart fun _ _ _ _ hw hstep =>
    hw.call hllt hstep.1 hstep.2
  exact ⟨hw.increasing, hw.latest, hw.full, hw.bounded⟩

/-- Of two clones the first one is marginalized where one is allowed. -/
theorem clone_window_plain :
    let o : StateOptions := { plainOptions with maxCloneSize := 1 }
    ∃ st₁ st₂ st₃, Filter.augmentClone { State.construct (K := ℝ) o with timestamp := 1 } 0 = some st₁ ∧
      Filter.augmentClone { st₁ with timestamp := 2 } 0 = some st₂ ∧
      Filter.marginalizeOldClone plainNumerics.storage st₂ = some st₃ ∧ st₃.window = [2] := by
  intro o
  have hllt : Solves plainNumerics.llt := solves_inverseFactorization
  have hsound := @sound_construct o [] rfl
  have hstart : Windowed o [] (State.construct o) := ⟨hsound, rfl, Pairwise.nil,
    fun _ hin => (not_mem_nil hin).elim, suffix_refl _, .inl rfl, Int.zero_le_ofNat _⟩
  have hstep₀ : Call.Step plainNumerics (State.construct o) (.setTimestamp 1) { State.construct o with timestamp := 1 } ∧
      Call.Forward (State.construct o) (.setTimestamp 1) := ⟨⟨trivial, rfl⟩, show (-1 : ℝ) < 1 by norm_num⟩
  have hw₀ := hstart.call hllt hstep₀.1 hstep₀.2
  obtain ⟨st₁, hresult₁, -⟩ := @Sound.augmentClone _ hw₀.sound 0 fun _ hclone => (not_mem_nil hclone).elim
  have hstep₁ : Call.Step plainNumerics _ (.augmentClone 0) st₁ := ⟨fun _ hclone => (not_mem_nil hclone).elim, hresult₁⟩
  have hw₁ := hw₀.call hllt hstep₁ trivial
  have hone : st₁.timestamp = 1 := (augmentClone_fields hw₀.sound.laid hw₀.sound.holds_pose hresult₁).2.2.2.1
  have hstep₂ : Call.Step plainNumerics st₁ (.setTimestamp 2) { st₁ with timestamp := 2 } := ⟨trivial, rfl⟩
  have hforward : st₁.timestamp < 2 := hone ▸ one_lt_two
  have hw₂ := hw₁.call hllt hstep₂ hforward
  have hother : ∀ clone ∈ st₁.clonesIMU, clone.1 ≠ (2 : ℝ) := fun clone hclone =>
    ((hw₁.past clone.1 (mem_map_of_mem hclone)).trans_lt hforward).ne
  obtain ⟨st₂, hresult₂, -⟩ := @Sound.augmentClone _ hw₂.sound 0 hother
  have hstep₃ : Call.Step plainNumerics { st₁ with timestamp := 2 } (.augmentClone 0) st₂ := ⟨hother, hresult₂⟩
  have hw₃ := hw₂.call hllt hstep₃ trivial
  have hmax : 0 ≤ st₂.options.maxCloneSize := by
    rw [hw₃.options]
    decide
  obtain ⟨st₃, hresult₃, -⟩ : ∃ st₃, Filter.marginalizeOldClone plainNumerics.storage st₂ = some st₃ ∧ Sound st₃ :=
    hw₃.sound.marginalizeOldClone hmax
  obtain ⟨-, hlatest, hfull, -⟩ := clone_window hllt o (by decide) [] rfl (.snoc (.snoc (.snoc (.snoc (.snoc .nil
    hstep₀) ⟨hstep₁, trivial⟩) ⟨hstep₂, hforward⟩) ⟨hstep₃, trivial⟩) (i := Call.marginalizeOldClone) ⟨⟨hmax, hresult₃⟩, trivial⟩)
  refine ⟨st₁, st₂, st₃, hresult₁, hresult₂, hresult₃, ?_⟩
  change st₃.window <:+ [1, 2] at hlatest
  change st₃.window = [1, 2] ∨ (1 : ℤ) ≤ st₃.window.length at hfull
  have hshort : st₃.window.length ≤ 1 := by
    have hmade : st₂.window.length ≤ 2 := hw₃.latest.length_le
    rw [(marginalizeOldClone_tail hw₃.increasing hresult₃).1, hw₃.options]
    split
    · rw [length_tail]
      omega
    · rename_i hfew
      exact Int.ofNat_le.mp (not_lt.mp hfew)
  have hlength : st₃.window.length = 1 := by
    rcases hfull with hall | hsome
    · rw [hall] at hshort
      norm_num at hshort
    · omega
  rw [suffix_iff_eq_drop.mp hlatest, hlength]
  rfl

end Runs

end Bravo.Filter
