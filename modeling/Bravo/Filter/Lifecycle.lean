import Bravo.Basic.Exec
import Bravo.Filter.Compression
import Bravo.Filter.Initialize

/-! # The life of a filter state

From its construction on, a state goes through propagations, clones, updates, new landmarks and
marginalizations in any order. Each of them keeps the layout and the positive semidefinite covariance
(`Sound`), so in every state of a run a call that meets what its callers promise returns
(`filter_run_sound`).
-/

namespace Bravo.Filter

open Bravo.Linear Matrix List Dense

/-! ## The invariant -/

/-- What the maps and the named variables of a state point to. -/
def State.Entries (st : State ℝ) : Prop :=
  .imu st.imu ∈ st.vars ∧
  (st.options.doCalibCameraTimeoffset = true →
    .vec st.calibDt 1 ∈ st.vars ∧ ∀ feature ∈ st.featuresSLAM, feature.2.ptr ≠ st.calibDt) ∧
  (st.clonesIMU.map (·.2.ptr)).Nodup ∧ (st.featuresSLAM.map (·.2.ptr)).Nodup ∧
  (st.featuresSLAM.map (·.1)).Nodup ∧ st.camerasPresent = true

/-- What every operation keeps. -/
structure Sound (st : State ℝ) : Prop where
  laid : Laid st
  entries : st.Entries
  posSemidef : (toMatrix st.cov.rows st.cov.rows st.cov).PosSemidef

theorem Sound.cameras {st : State ℝ} (hs : Sound st) : st.camerasPresent = true :=
  hs.entries.2.2.2.2.2

/-- Values, the covariance and the cameras may change. -/
theorem Sound.congr {st : State ℝ} (hs : Sound st) {time : ℝ} {cov : Dense ℝ} {heap : Heap ℝ}
    {cameras : List (Nat × List ℝ)} (hid : ∀ x < st.heap.next, heap.id x = st.heap.id x)
    (hnext : st.heap.next ≤ heap.next) (hrows : cov.rows = st.cov.rows) (hcols : cov.cols = st.cov.rows)
    (hcov : (toMatrix st.cov.rows st.cov.rows cov).PosSemidef)
    (hcameras : { st with cameras := cameras }.camerasPresent = true) :
    Sound { st with timestamp := time, cov := cov, heap := heap, cameras := cameras } := by
  obtain ⟨himu, hoffset, hclones, hfeatures, hfeatids, -⟩ := hs.entries
  exact ⟨hs.laid.congr rfl (fun x hx => hid x (hs.laid.allocated x hx)) hnext hrows hcols rfl rfl,
    ⟨himu, hoffset, hclones, hfeatures, hfeatids, hcameras⟩, hrows ▸ hcov⟩

theorem symmetric_of_posSemidef {cov : Dense ℝ} (hsquare : cov.rows = cov.cols)
    (h : (toMatrix cov.rows cov.rows cov).PosSemidef) : cov.Symmetric := by
  have hhermitian := h.isHermitian.eq
  rw [conjTranspose_eq_transpose_of_trivial] at hhermitian
  exact symmetric_of_toMatrix rfl hsquare.symm hhermitian

/-- What the libraries evaluate. -/
structure Numerics where
  llt : Dense ℝ → LLT ℝ
  rotate : List ℝ → List ℝ → List ℝ
  eigenvalues : Dense ℝ → Option (ℝ × ℝ)
  inverse : Dense ℝ → Nat → Nat → ℝ
  makeGivens : ℝ → ℝ → ℝ × ℝ
  quantile : Nat → ℝ
  storage : Nat → Nat → ℝ

noncomputable abbrev Numerics.kernels (L : Numerics) : Kernels ℝ :=
  exactKernels L.llt L.rotate L.eigenvalues

/-! ## The first state -/

section Construct

/-- Every prior keeps what blocks on the diagonal keep. -/
theorem constructedCov_induct {P : Dense ℝ → Prop} (o : StateOptions) (h : Heap ℝ)
    (hzero : P (scaledIdentity (sizeOfVars (constructedVariables o)) ((1 / 1000) ^ 2)))
    (hprior : ∀ enabled v offset count sigma cov, P cov →
      P (setPrior h enabled v offset count sigma cov)) : P (constructedCov o h) := by
  unfold constructedCov
  refine foldlRecOn _ _ (foldlRecOn _ _ ?_ fun cov hcov i _ => ?_) fun cov hcov i _ => ?_
  · iterate 6 apply hprior
    exact hzero
  · exact hprior _ _ _ _ _ _ (hprior _ _ _ _ _ _ hcov)
  · exact hprior _ _ _ _ _ _ (hprior _ _ _ _ _ _ hcov)

theorem posSemidef_construct (o : StateOptions) :
    (toMatrix (State.construct (K := ℝ) o).cov.rows (State.construct (K := ℝ) o).cov.rows
      (State.construct (K := ℝ) o).cov).PosSemidef := by
  -- The covariance is diagonal, with no negative entry.
  have hidentity : ∀ (n : Nat) (sigma : ℝ) i j, (scaledIdentity n (sigma ^ 2)).coeff i j = 0 ∨
      i = j ∧ 0 ≤ (scaledIdentity n (sigma ^ 2)).coeff i j := by
    intro n sigma i j
    dsimp only [scaledIdentity, Dense.ofFn]
    split_ifs with hin heq
    · exact .inr ⟨heq, sq_nonneg sigma⟩
    all_goals exact .inl rfl
  have hdiagonal : ∀ i j, (State.construct (K := ℝ) o).cov.coeff i j = 0 ∨
      i = j ∧ 0 ≤ (State.construct (K := ℝ) o).cov.coeff i j := by
    refine constructedCov_induct (P := fun cov => ∀ i j, cov.coeff i j = 0 ∨ i = j ∧ 0 ≤ cov.coeff i j)
      o _ (hidentity _ _) fun enabled v offset count sigma cov hcov i j => ?_
    dsimp only [setPrior, Dense.setBlock, Dense.ofFn]
    split_ifs with henabled
    · dsimp only
      split_ifs
      · refine (hidentity count sigma _ _).imp_right fun ⟨heq, hnonneg⟩ => ⟨?_, hnonneg⟩
        omega
      · exact hcov i j
      · exact .inl rfl
    · exact hcov i j
  set cov := (State.construct (K := ℝ) o).cov
  have hmatrix : toMatrix cov.rows cov.rows cov = Matrix.diagonal fun i : Fin cov.rows => cov.coeff i i := by
    ext i j
    by_cases heq : i = j
    · rw [heq, diagonal_apply_eq]
      rfl
    · rw [diagonal_apply_ne _ heq]
      exact (hdiagonal i j).resolve_right fun h => heq (Fin.ext h.1)
  rw [hmatrix]
  refine PosSemidef.diagonal fun i => ?_
  rcases hdiagonal i i with hzero | ⟨-, hnonneg⟩
  · exact hzero.ge
  · exact hnonneg

theorem sound_construct (o : StateOptions) {cameras : List (Nat × List ℝ)}
    (hcameras : { State.construct (K := ℝ) o with cameras := cameras }.camerasPresent = true) :
    Sound { State.construct (K := ℝ) o with cameras := cameras } where
  laid := by
    have hl := laid_construct (K := ℝ) o
    exact hl.congr rfl (fun _ _ => rfl) (le_refl _) rfl hl.square.symm rfl rfl
  entries := by
    refine ⟨imu_mem_construct (K := ℝ) o, fun hoffset => ⟨?_, fun feature hfeature => by cases hfeature⟩, nodup_nil,
      nodup_nil, nodup_nil, hcameras⟩
    exact mem_map.mpr ⟨(constructedDt, o.doCalibCameraTimeoffset),
      mem_filter.mpr ⟨mem_append_left _ (by simp), hoffset⟩, rfl⟩
  posSemidef := posSemidef_construct o

end Construct

/-! ## Updates -/

section Update

variable {L : Numerics} {st : State ℝ}

theorem updateVariables_spec (k : Kernels ℝ) (dx : Dense ℝ) :
    (updateVariables k st dx).next = st.heap.next ∧
      ∀ x, (updateVariables k st dx).id x = st.heap.id x := by
  unfold updateVariables
  refine foldlRecOn (motive := fun h : Heap ℝ => h.next = st.heap.next ∧ ∀ x, h.id x = st.heap.id x) _ _
    ⟨rfl, fun _ => rfl⟩ fun h hkept v _ => ⟨?_, fun x => ?_⟩
  · exact (Var.next_setValue v _).trans hkept.1
  · exact (Var.id_setValue v _ x).trans (hkept.2 x)

/-- The end of an update and of a commit. -/
theorem Sound.refresh (hs : Sound st) (k : Kernels ℝ) (dx cov : Dense ℝ)
    (hrows : cov.rows = st.cov.rows) (hcols : cov.cols = st.cov.rows)
    (hcov : (toMatrix st.cov.rows st.cov.rows cov).PosSemidef) :
    ∃ heap cameras, refreshCameras { st with cov := cov, heap := updateVariables k st dx } =
        { st with cov := cov, heap := heap, cameras := cameras } ∧
      Sound { st with cov := cov, heap := heap, cameras := cameras } := by
  obtain ⟨hnext, hid⟩ := @updateVariables_spec st k dx
  unfold refreshCameras
  split
  · refine ⟨_, _, rfl, hs.congr (fun x _ => hid x) hnext.ge hrows hcols hcov ?_⟩
    -- The cameras keep their keys.
    have hpresent := hs.cameras
    unfold State.camerasPresent at hpresent ⊢
    rw [Bool.or_eq_true, all_eq_true] at hpresent ⊢
    refine hpresent.imp_right fun hall calib hcalib => ?_
    obtain ⟨camera, hcamera, hkey⟩ := any_eq_true.mp (hall calib hcalib)
    refine any_eq_true.mpr ⟨_, mem_map_of_mem hcamera, ?_⟩
    split <;> exact hkey
  · exact ⟨_, st.cameras, rfl, hs.congr (fun x _ => hid x) hnext.ge hrows hcols hcov hs.cameras⟩

/-- `EKFUpdate` with a positive definite noise returns. -/
theorem Sound.ekfUpdate (hs : Sound st) (hllt : Solves L.llt) {H_order : List Var} (H res R : Dense ℝ)
    (horder : ∀ v ∈ H_order, st.Holds v) (hres : res.rows = R.rows) (hrows : H.rows = res.rows)
    (hcols : H.cols = sizeOfVars H_order) (hR : R.Symmetric)
    (hpd : (toMatrix R.rows R.rows R).PosDef) :
    ∃ cov heap cameras, ekfUpdate L.kernels st H_order H res R =
        some { st with cov := cov, heap := heap, cameras := cameras } ∧
      Sound { st with cov := cov, heap := heap, cameras := cameras } := by
  set n := sizeOfVars H_order with hn
  have hsymmetric := symmetric_of_posSemidef hs.laid.square hs.posSemidef
  have hblock := posSemidef_chosenBlock hs.laid horder hn hs.posSemidef
  have hinnovation : (innovationMatrix st H_order H R R.rows n).PosDef :=
    PosDef.posSemidef_add (posSemidef_congruence _ hblock) hpd
  obtain ⟨-, ⟨hcovRows, hcovCols⟩, -, hcov⟩ := @ekfProposal_exact L.llt L.rotate L.eigenvalues st H_order
    hs.laid hsymmetric hllt H res R R.rows n (hrows.trans hres) hcols hn hres rfl hR hinnovation
  have hposterior := posSemidef_sub_gain
    (fun c : Fin n => ⟨st.pos H_order c, hs.laid.pos_lt horder c.isLt⟩)
    (toMatrix R.rows n H) hs.posSemidef hpd
  obtain ⟨heap, cameras, hrefresh, hsound⟩ := hs.refresh L.kernels (ekfProposal L.kernels st H_order H res R).1 _
    hcovRows hcovCols (by rw [hcov]; exact hposterior)
  refine ⟨_, heap, cameras, ?_, hsound⟩
  have hneg : L.kernels.foundNeg (ekfProposal L.kernels st H_order H res R).2 = false :=
    foundNeg_of_posSemidef hcovRows (by rw [hcov]; exact hposterior)
  have hpresent : { st with
      cov := (ekfProposal L.kernels st H_order H res R).2
      heap := updateVariables L.kernels st (ekfProposal L.kernels st H_order H res R).1 }.camerasPresent = true :=
    hs.cameras
  rw [ekfUpdate_exact hs.laid horder hres hR hrows hcols, finishUpdate, if_neg (by
    exact fun hfound => Bool.false_ne_true (hneg.symm.trans hfound))]
  exact (if_pos hpresent).trans (congrArg some hrefresh)

/-- `EKFPropagation` returns. -/
theorem Sound.ekfPropagation (hs : Sound st) {first : Var} {rest order_OLD : List Var}
    {Phi Q : Dense ℝ} (hNEW : ∀ v ∈ first :: rest, st.Holds v)
    (hconsecutive : st.consecutive (first :: rest) = true) (hnonempty : order_OLD ≠ [])
    (hOLD : ∀ v ∈ order_OLD, st.Holds v) (hrows : Phi.rows = sizeOfVars (first :: rest))
    (hcols : Phi.cols = sizeOfVars order_OLD) (hQrows : Q.rows = Phi.rows) (hQ : Q.Symmetric)
    (hnoise : (toMatrix Phi.rows Phi.rows Q).PosSemidef) :
    ∃ st', ekfPropagation st (first :: rest) order_OLD Phi Q = some st' ∧ Sound st' := by
  have hsymmetric := symmetric_of_posSemidef hs.laid.square hs.posSemidef
  obtain ⟨cov, hcovRows, hcovCols, -, hresult, -, hkept⟩ := ekfPropagation_congruence hs.laid
    hsymmetric hNEW hconsecutive hnonempty hOLD hrows hcols hQrows hQ
  obtain ⟨hcov, hneg⟩ := hkept hs.posSemidef hnoise
  refine ⟨{ st with cov := cov }, by rw [hresult, hneg]; rfl, ?_⟩
  exact hs.congr (fun _ _ => rfl) (le_refl _) hcovRows hcovCols hcov hs.cameras

end Update

/-! ## Variables that leave -/

section Marginalize

variable {storage : Nat → Nat → ℝ} {st : State ℝ}

/-- A clone or a landmark leaves together with its entry. -/
theorem Sound.marginalized (hs : Sound st) {marg : Var} (hmarg : marg ∈ st.vars)
    (himu : marg ≠ .imu st.imu)
    (hdt : st.options.doCalibCameraTimeoffset = true → marg.ptr ≠ st.calibDt)
    {clones : List (ℝ × PoseJPL)} {features : List (Nat × Landmark)}
    (hclones : clones.Sublist st.clonesIMU) (hfeatures : features.Sublist st.featuresSLAM)
    (hclonesNe : ∀ clone ∈ clones, clone.2.ptr ≠ marg.ptr)
    (hfeaturesNe : ∀ feature ∈ features, feature.2.ptr ≠ marg.ptr) :
    Sound { marginalized storage st marg with clonesIMU := clones, featuresSLAM := features } := by
  obtain ⟨himuIn, hoffset, hclonesNodup, hfeaturesNodup, hfeatids, hcameras⟩ := hs.entries
  have hkept : ∀ v ∈ st.vars, v.ptr ≠ marg.ptr → v ∈ st.vars.filter (·.ptr != marg.ptr) :=
    fun v hv hne => mem_filter.mpr ⟨hv, by simpa using hne⟩
  refine ⟨laid_marginalized hs.laid hmarg (fun c hc => ⟨hclones.subset hc, hclonesNe c hc⟩)
    (fun f hf => ⟨hfeatures.subset hf, hfeaturesNe f hf⟩), ⟨?_, fun hcalib => ⟨?_, fun f hf => ?_⟩,
      hclonesNodup.sublist (hclones.map _), hfeaturesNodup.sublist (hfeatures.map _),
      hfeatids.sublist (hfeatures.map _), hcameras⟩, ?_⟩
  · exact hkept _ himuIn fun hptr => himu (hs.laid.eq_of_ptr hmarg himuIn hptr.symm)
  · exact hkept _ (hoffset hcalib).1 (hdt hcalib).symm
  · exact (hoffset hcalib).2 f (hfeatures.subset hf)
  · -- The rows and columns that are left.
    obtain ⟨hid, hfits, -⟩ := hs.laid.holds_range (holds_of_mem hmarg)
    have hsymmetric := symmetric_of_posSemidef hs.laid.square hs.posSemidef
    have hsubmatrix := hs.posSemidef.submatrix
      fun i : Fin (st.cov.rows - marg.size) => (⟨keptFrom (st.at marg) marg.size i, by
        unfold keptFrom
        split <;> omega⟩ : Fin st.cov.rows)
    have hmatrix : toMatrix (st.cov.rows - marg.size) (st.cov.rows - marg.size)
        (marginalizedCov storage st.cov (st.at marg) marg.size) = _ :=
      Matrix.ext fun i j => coeff_marginalizedCov hsymmetric hfits i.isLt j.isLt
    exact hmatrix ▸ hsubmatrix

theorem Sound.marginalizeCloneAt (hs : Sound st) {time : ℝ}
    (htime : ∃ clone ∈ st.clonesIMU, clone.1 = time) :
    ∃ st', marginalizeCloneAt storage time st = some st' ∧ Sound st' := by
  obtain ⟨found, hfound, hat⟩ := htime
  have hsome : (st.clonesIMU.find? (·.1 == time)).isSome :=
    find?_isSome.mpr ⟨found, hfound, by simpa using hat⟩
  obtain ⟨clone, hclone⟩ := Option.isSome_iff_exists.mp hsome
  have hmem := mem_of_find?_eq_some hclone
  have hkey : clone.1 = time := by simpa using find?_some hclone
  have hin := hs.laid.clones clone hmem
  unfold Filter.marginalizeCloneAt
  rw [hclone]
  refine ⟨_, congrArg (Option.map _) (marginalize_of_mem hs.laid hin), hs.marginalized hin (by simp)
    (fun hcalib hptr => ?_) filter_sublist (Sublist.refl _) (fun other hother hptr => ?_)
      fun feature hfeature hptr => ?_⟩
  · exact absurd (hs.laid.eq_of_ptr hin (hs.entries.2.1 hcalib).1 hptr) (by simp)
  · obtain ⟨hother, hne⟩ := mem_filter.mp hother
    rw [inj_on_of_nodup_map hs.entries.2.2.1 hother hmem hptr, hkey] at hne
    simp at hne
  · exact absurd (hs.laid.eq_of_ptr (hs.laid.features feature hfeature) hin hptr)
      (by simp [Landmark.toVar])

/-- The oldest time is that of a clone. -/
theorem margtimestep_of_ne_nil (hne : st.clonesIMU ≠ []) :
    ∃ clone ∈ st.clonesIMU, st.margtimestep = some clone.1 := by
  obtain ⟨first, rest, hclones⟩ := exists_cons_of_ne_nil hne
  rw [State.margtimestep, hclones, foldl_cons]
  refine foldlRecOn (motive := fun oldest => ∃ clone ∈ first :: rest, oldest = some clone.1) _ _
    ⟨first, mem_cons_self, rfl⟩ ?_
  rintro _ ⟨clone, hclone, rfl⟩ other hother
  by_cases hlt : other.1 < clone.1
  · exact ⟨other, mem_cons_of_mem _ hother, by simp [hlt]⟩
  · exact ⟨clone, hclone, by simp [hlt]⟩

theorem Sound.marginalizeOldClone (hs : Sound st) (hmax : 0 ≤ st.options.maxCloneSize) :
    ∃ st', marginalizeOldClone storage st = some st' ∧ Sound st' := by
  unfold Filter.marginalizeOldClone
  split
  · rename_i hmany
    have hne : st.clonesIMU ≠ [] := ne_nil_of_length_pos (by omega)
    obtain ⟨clone, hclone, htime⟩ := margtimestep_of_ne_nil hne
    rw [htime, Option.bind_some]
    exact hs.marginalizeCloneAt ⟨clone, hclone, rfl⟩
  · exact ⟨st, rfl, hs⟩

theorem Sound.marginalizeFeatures {order : List (Nat × Landmark)} :
    ∀ {st : State ℝ}, Sound st → (∀ feature ∈ order, feature ∈ st.featuresSLAM) →
      (order.map (·.1)).Nodup → ∃ st', marginalizeFeatures storage order st = some st' ∧ Sound st' := by
  induction order with
  | nil => exact fun hs _ _ => ⟨_, rfl, hs⟩
  | cons feature rest ih =>
    intro st hs hin hnodup
    rw [map_cons, nodup_cons] at hnodup
    have hrest : ∀ other ∈ rest, other ∈ st.featuresSLAM := fun other h => hin other (mem_cons_of_mem _ h)
    have hmem := hin feature mem_cons_self
    have hvar := hs.laid.features feature hmem
    unfold Filter.marginalizeFeatures
    split
    · rw [marginalize_of_mem hs.laid hvar, Option.bind_some]
      refine ih (hs.marginalized hvar (by simp [Landmark.toVar])
        (fun hcalib => (hs.entries.2.1 hcalib).2 feature hmem) (Sublist.refl _) filter_sublist
          (fun clone hclone hptr => ?_) fun other hother hptr => ?_)
        (fun other hother => mem_filter.mpr ⟨hrest other hother, ?_⟩) hnodup.2
      · exact absurd (hs.laid.eq_of_ptr (hs.laid.clones clone hclone) hvar hptr) (by simp [Landmark.toVar])
      · obtain ⟨hother, hne⟩ := mem_filter.mp hother
        rw [inj_on_of_nodup_map hs.entries.2.2.2.1 hother hmem hptr] at hne
        simp at hne
      · have hkey : other.1 ≠ feature.1 := fun heq => hnodup.1 (heq ▸ mem_map_of_mem hother)
        simpa using hkey
    · exact ih hs hrest hnodup.2

end Marginalize

/-! ## Variables that enter -/

section Enter

variable {L : Numerics} {st : State ℝ}

theorem insertClone_perm (time : ℝ) (pose : PoseJPL) (clones : List (ℝ × PoseJPL)) :
    (insertClone time pose clones).Perm ((time, pose) :: clones) := by
  induction clones with
  | nil => exact .refl _
  | cons clone rest ih =>
    unfold insertClone
    split
    · exact .refl _
    · exact (ih.cons clone).trans (.swap _ _ _)

/-- What a clone adds, with and without the time offset. -/
theorem augmentClone_fields (hl : Laid st) (hpose : st.Holds (.poseJPL st.imu.pose))
    {last_w : Fin 3 → ℝ} {st' : State ℝ} (h : augmentClone st last_w = some st') :
    let copy : PoseJPL := ⟨st.heap.next, st.heap.next + 1, st.heap.next + 2⟩
    st'.heap = (Var.poseJPL copy).setLocalId st.cov.rows
        ((Var.poseJPL st.imu.pose).clone st.heap).2 ∧
      st'.vars = st.vars ++ [.poseJPL copy] ∧
      st'.clonesIMU = insertClone st.timestamp copy st.clonesIMU ∧ st'.timestamp = st.timestamp ∧
      st'.options = st.options := by
  have hclone := clone_of_holds hl hpose
  have hcopy : ((Var.poseJPL st.imu.pose).clone st.heap).1 =
      .poseJPL ⟨st.heap.next, st.heap.next + 1, st.heap.next + 2⟩ := rfl
  generalize (Var.poseJPL st.imu.pose).clone st.heap = made at hclone hcopy ⊢
  rw [hcopy] at hclone
  unfold augmentClone at h
  rw [hclone] at h
  split at h
  · cases h
  · dsimp only at h
    split at h
    · split at h
      · cases h
      · cases h
        exact ⟨rfl, rfl, rfl, rfl, rfl⟩
    · cases h
      exact ⟨rfl, rfl, rfl, rfl, rfl⟩

theorem Sound.holds_pose (hs : Sound st) : st.Holds (.poseJPL st.imu.pose) :=
  ⟨_, hs.entries.1, .inr (by simp [Var.checkIfSubvariable, IMU.checkIfSubvariable, Var.ptr])⟩

theorem Sound.augmentClone (hs : Sound st) {last_w : Fin 3 → ℝ}
    (htime : ∀ clone ∈ st.clonesIMU, clone.1 ≠ st.timestamp) :
    ∃ st', augmentClone st last_w = some st' ∧ Sound st' := by
  obtain ⟨himu, hoffset, hclonesNodup, hfeatures, hfeatids, hcameras⟩ := hs.entries
  have hpose := hs.holds_pose
  have hv : st.imu.v < st.heap.next :=
    hs.laid.allocated _ (mem_flatMap.mpr ⟨_, himu, by simp [Var.ptrs, Var.parts]⟩)
  have hdt := fun hcalib => holds_of_mem (hoffset hcalib).1
  obtain ⟨heap, vars, clones, hresult⟩ := @augmentClone_eq ℝ _ st last_w _ hs.laid hpose hv hdt htime
  obtain ⟨st', hst', hrows, hcols, -, -, hcov⟩ := augmentClone_congruence hs.laid
    (symmetric_of_posSemidef hs.laid.square hs.posSemidef) himu hdt htime
  obtain rfl := Option.some.inj (hst'.symm.trans hresult)
  obtain ⟨hheap, hvars, hclones, -⟩ := augmentClone_fields hs.laid hpose hresult
  set copy : PoseJPL := ⟨st.heap.next, st.heap.next + 1, st.heap.next + 2⟩
  dsimp only at hheap hvars hclones
  have hnew : ∀ x ∈ (Var.poseJPL copy).ptrs, st.heap.next ≤ x ∧ x < st.heap.next + 3 := fun x hx =>
    (Var.poseJPL st.imu.pose).mem_ptrs_allocate.mp hx
  have hnext : heap.next = st.heap.next + 3 := by
    rw [hheap, Var.next_setLocalId]
    rfl
  have hold : ∀ x ∈ st.vars.flatMap Var.ptrs, x < st.heap.next := hs.laid.allocated
  have hperm := insertClone_perm st.timestamp copy st.clonesIMU
  have hkept : ∀ v ∈ st.vars, v ∈ vars := fun v hv => hvars ▸ mem_append_left _ hv
  refine ⟨_, hresult, hs.laid.append (v := .poseJPL copy) hvars (by simp [Var.size])
    ((Var.poseJPL st.imu.pose).nodup_ptrs_allocate st.heap.next) (fun x hx => ⟨fun hin => ?_, ?_⟩)
    hheap (fun x hx => Var.id_clone (hold x hx)) (hnext ▸ Nat.le_add_right _ _) hrows hcols
    (fun clone hclone => ?_) (fun feature hfeature => hkept _ (hs.laid.features feature hfeature)),
    ⟨hkept _ himu, fun hcalib => ⟨hkept _ (hoffset hcalib).1, (hoffset hcalib).2⟩, ?_, hfeatures, hfeatids,
      hcameras⟩, hrows ▸ hcov hs.posSemidef⟩
  · exact Nat.not_lt.mpr (hnew x hx).1 (hold x hin)
  · exact (hnew x hx).2.trans_eq hnext.symm
  · rcases mem_cons.mp (hperm.mem_iff.mp (hclones ▸ hclone)) with rfl | hin
    · exact hvars ▸ mem_append_right _ mem_cons_self
    · exact hkept _ (hs.laid.clones clone hin)
  · -- The objects of the copy are new.
    show (clones.map (·.2.ptr)).Nodup
    rw [hclones, (hperm.map _).nodup_iff, map_cons, nodup_cons]
    refine ⟨fun hin => ?_, hclonesNodup⟩
    obtain ⟨clone, hclone, hptr⟩ := mem_map.mp hin
    have hlt := hold clone.2.ptr
      (mem_flatMap.mpr ⟨_, hs.laid.clones clone hclone, (Var.poseJPL clone.2).ptr_mem_ptrs⟩)
    exact absurd hptr hlt.ne

theorem block_scaledIdentity {m at' size : Nat} (hfits : at' + size ≤ m) (c : ℝ) :
    (scaledIdentity m c).block at' at' size size = scaledIdentity size c := by
  refine ext_coeff rfl rfl fun i j hi hj => ?_
  have hi' : i < size := hi
  have hj' : j < size := hj
  rw [coeff_block hi' hj', scaledIdentity, scaledIdentity, coeff_ofFn (by omega) (by omega),
    coeff_ofFn hi' hj']
  simp

/-- What `delayed_init` gives to `initialize`: variables of the state and matching sizes. -/
structure InitSystem.Fits (system : InitSystem ℝ) (st : State ℝ) (H_order : List Var) (size : Nat) :
    Prop where
  order : ∀ v ∈ H_order, st.Holds v
  size_pos : 0 < size
  rows : size ≤ system.res.rows
  H_R : system.H_R.rows = system.res.rows ∧ system.H_R.cols = sizeOfVars H_order
  H_L : system.H_L.rows = system.res.rows ∧ system.H_L.cols = size

/-- A new variable is refused, or it is behind the others. -/
theorem Sound.initializeVariable (hs : Sound st) (hllt : Solves L.llt) {v : Var} {H_order : List Var}
    {system : InitSystem ℝ} (hfits : system.Fits st H_order v.size) (hnodup : v.ptrs.Nodup)
    (hfresh : ∀ x ∈ v.ptrs, x ∉ st.vars.flatMap Var.ptrs ∧ x < st.heap.next) {noise : ℝ}
    (hnoise : 0 < noise) (chi2Mult : ℝ) :
    ∃ result, initializeVariable L.kernels L.inverse L.makeGivens L.quantile st v H_order system
        (scaledIdentity system.res.rows noise) chi2Mult = some result ∧
      (result = (false, st) ∨ ∃ cov heap cameras,
        result = (true, { st with
          cov := cov, heap := heap, cameras := cameras, vars := st.vars ++ [v] }) ∧
        Sound result.2) := by
  obtain ⟨horder, hsize, hrows, hH_R, hH_L⟩ := hfits
  have hadmits := admits_of_fresh (m := system.res.rows) (by omega) (hfresh _ v.ptr_mem_ptrs).1 noise
  have hrange := hs.laid.inRange horder
  have hnoiseRows : (scaledIdentity system.res.rows noise).rows = system.res.rows := rfl
  unfold Filter.initializeVariable
  rw [hadmits, hrange, if_neg (by simp), if_neg (by simp only [Bool.true_eq_false, or_false]; omega)]
  dsimp only
  split
  · exact ⟨_, rfl, .inl rfl⟩
  set work := separate L.makeGivens system
  have hpd : (toMatrix (system.res.rows - v.size) (system.res.rows - v.size)
      (scaledIdentity (system.res.rows - v.size) noise)).PosDef := by
    rw [toMatrix_scaledIdentity]
    exact PosDef.one.smul hnoise
  rw [hnoiseRows, block_scaledIdentity (by omega), block_scaledIdentity (by omega)]
  obtain ⟨cov, heap, hresult, -, hlaid, hcov⟩ := initializeInvertible_spec L.inverse
    hs.laid hs.posSemidef hsize hnodup hfresh horder (work.H_R.block 0 0 v.size system.H_R.cols)
    (work.H_L.block 0 0 v.size v.size) (work.res.block 0 0 v.size 1) hnoise.le
    ⟨rfl, hH_R.2⟩ ⟨rfl, rfl⟩ rfl
  have hsound : Sound { st with cov := cov, heap := heap, vars := st.vars ++ [v] } :=
    ⟨hlaid, hs.entries.imp (mem_append_left _) fun hrest => hrest.imp_left fun hoffset hcalib =>
      ⟨mem_append_left _ (hoffset hcalib).1, (hoffset hcalib).2⟩, hcov⟩
  rw [hresult, Option.bind_some]
  split
  · obtain ⟨cov', heap', cameras, hupdate, hupdated⟩ := hsound.ekfUpdate hllt
      (work.H_R.block v.size 0 (system.res.rows - v.size) system.H_R.cols)
      (work.res.block v.size 0 (system.res.rows - v.size) 1)
      (scaledIdentity (system.res.rows - v.size) noise)
      (fun w hw => by
        obtain ⟨top, htop, hincludes⟩ := horder w hw
        exact ⟨top, mem_append_left _ htop, hincludes⟩) rfl rfl hH_R.2
      (symmetric_scaledIdentity _ _) hpd
    rw [hupdate, Option.map_some]
    exact ⟨_, rfl, .inr ⟨_, _, _, rfl, hupdated⟩⟩
  · exact ⟨_, rfl, .inr ⟨cov, heap, st.cameras, rfl, hsound⟩⟩

theorem Heap.id_reserve {h : Heap ℝ} {count x : Nat} (hx : x < h.next) :
    (h.reserve count).id x = h.id x := by
  have hcell : (h.reserve count).cells x = h.cells x := if_neg (Nat.not_le.mpr hx)
  rw [Heap.id, hcell]
  rfl

theorem Sound.delayedInit (hs : Sound st) (hllt : Solves L.llt) {size : Nat} {H_order : List Var}
    {system : InitSystem ℝ} (hfits : system.Fits st H_order size) {noise : ℝ} (hnoise : 0 < noise)
    (featid : Nat) (value fej : List ℝ) (chi2Mult : ℝ) :
    ∃ st', delayedInit L.kernels L.inverse L.makeGivens L.quantile st featid size value fej H_order system
        noise chi2Mult = some st' ∧ Sound st' := by
  set landmark : Landmark := ⟨st.heap.next, size⟩
  set heap := landmark.toVar.setFej fej (landmark.toVar.setValue value (st.heap.reserve 1))
  have hold : ∀ v ∈ st.vars, v.ptr < st.heap.next := fun v hv =>
    hs.laid.allocated _ (mem_flatMap.mpr ⟨v, hv, v.ptr_mem_ptrs⟩)
  have hmade : Sound { st with heap := heap } := hs.congr (fun x hx => by
    rw [Var.id_setFej, Var.id_setValue, Heap.id_reserve hx]) (Nat.le_succ _) rfl
      hs.laid.square.symm hs.posSemidef hs.cameras
  have hfits' : system.Fits { st with heap := heap } H_order landmark.toVar.size :=
    ⟨hfits.order, hfits.size_pos, hfits.rows, hfits.H_R, hfits.H_L⟩
  obtain ⟨result, hresult, hcases⟩ := hmade.initializeVariable hllt hfits'
    (nodup_singleton _)
    (fun x hx => by
      obtain rfl := mem_singleton.mp hx
      exact ⟨fun hin => (hs.laid.allocated _ hin).ne rfl, Nat.lt_succ_self _⟩) hnoise chi2Mult
  unfold Filter.delayedInit
  dsimp only
  rw [hresult, Option.map_some]
  rcases hcases with rfl | ⟨cov, heap', cameras, rfl, hsound⟩
  · exact ⟨_, rfl, by rw [if_neg (by simp)]; exact hmade⟩
  split
  · -- The landmark is entered under its id.
    rename_i hnew
    have hl := hsound.laid
    obtain ⟨himu, hoffset, hclones, hfeatures, hfeatids, hcameras⟩ := hsound.entries
    refine ⟨_, rfl, ⟨hl.square, hl.contiguous, hl.consistent, hl.nodup, hl.allocated, hl.clones,
      forall_mem_cons.mpr ⟨mem_append_right _ mem_cons_self, hl.features⟩⟩,
      ⟨himu, fun hcalib => ⟨(hoffset hcalib).1, forall_mem_cons.mpr ⟨?_, (hoffset hcalib).2⟩⟩, hclones,
        nodup_cons.mpr ⟨fun hin => ?_, hfeatures⟩, nodup_cons.mpr ⟨fun hin => ?_, hfeatids⟩, hcameras⟩,
      hsound.posSemidef⟩
    · exact (hold _ (hs.entries.2.1 hcalib).1).ne'
    · obtain ⟨feature, hfeature, heq⟩ := mem_map.mp hin
      exact (hold _ (hs.laid.features feature hfeature)).ne heq
    · obtain ⟨feature, hfeature, heq⟩ := mem_map.mp hin
      exact hnew.2 feature hfeature heq
  · exact ⟨_, rfl, hsound⟩

end Enter

/-! ## Runs -/

/-- A call on the state, with its arguments. -/
inductive Call
  | setTimestamp (time : ℝ)
  | setValue (v : Var) (value : List ℝ)
  | setMarg (landmark : Landmark)
  | propagate (order_NEW order_OLD : List Var) (Phi Q : Dense ℝ)
  | augmentClone (last_w : Fin 3 → ℝ)
  | update (H_order : List Var) (H res R : Dense ℝ)
  | commit (dx posterior : Dense ℝ) (policy : CovariancePolicy)
  | marginalizeClone (time : ℝ)
  | marginalizeOldClone
  | marginalizeSlam (order : List (Nat × Landmark))
  | delayedInit (featid size : Nat) (value fej : List ℝ) (H_order : List Var) (system : InitSystem ℝ)
      (sigmaPixSq chi2Mult : ℝ)

/-- The state after a call; `none` where the program ends. A refused commit changes nothing. -/
noncomputable def Call.run (L : Numerics) (st : State ℝ) : Call → Option (State ℝ)
  | setTimestamp time => some { st with timestamp := time }
  | setValue v value => some { st with heap := v.setValue value st.heap }
  | setMarg landmark =>
    let cell := { st.heap.cells landmark.ptr with shouldMarg := true }
    some { st with heap := { st.heap with
      cells := Function.update st.heap.cells landmark.ptr cell } }
  | propagate order_NEW order_OLD Phi Q => ekfPropagation st order_NEW order_OLD Phi Q
  | augmentClone last_w => Filter.augmentClone st last_w
  | update H_order H res R => ekfUpdate L.kernels st H_order H res R
  | commit dx posterior policy =>
    some ((commitPrecomputedUpdate L.kernels st dx posterior policy).getD st)
  | marginalizeClone time => marginalizeCloneAt L.storage time st
  | marginalizeOldClone => Filter.marginalizeOldClone L.storage st
  | marginalizeSlam order => marginalizeFeatures L.storage order st
  | delayedInit featid size value fej H_order system sigmaPixSq chi2Mult =>
    Filter.delayedInit L.kernels L.inverse L.makeGivens L.quantile st featid size value fej H_order
      system sigmaPixSq chi2Mult

/-- What the callers promise: variables of the state, matching sizes and proper covariances. -/
def Call.Promised (st : State ℝ) : Call → Prop
  | propagate order_NEW order_OLD Phi Q => order_NEW ≠ [] ∧ order_OLD ≠ [] ∧
      (∀ v ∈ order_NEW ++ order_OLD, st.Holds v) ∧ st.consecutive order_NEW = true ∧
      Phi.rows = sizeOfVars order_NEW ∧ Phi.cols = sizeOfVars order_OLD ∧ Q.rows = Phi.rows ∧
      Q.Symmetric ∧ (toMatrix Phi.rows Phi.rows Q).PosSemidef
  | augmentClone _ => ∀ clone ∈ st.clonesIMU, clone.1 ≠ st.timestamp
  | update H_order H res R => (∀ v ∈ H_order, st.Holds v) ∧ res.rows = R.rows ∧ H.rows = res.rows ∧
      H.cols = sizeOfVars H_order ∧ R.Symmetric ∧ (toMatrix R.rows R.rows R).PosDef
  | commit _ posterior _ => (toMatrix st.cov.rows st.cov.rows posterior).PosSemidef
  | marginalizeClone time => ∃ clone ∈ st.clonesIMU, clone.1 = time
  | marginalizeOldClone => 0 ≤ st.options.maxCloneSize
  | marginalizeSlam order => order.Perm st.featuresSLAM
  | delayedInit _ size _ _ H_order system sigmaPixSq _ => system.Fits st H_order size ∧ 0 < sigmaPixSq
  | _ => True

/-- One call of a run. -/
def Call.Step (L : Numerics) (st : State ℝ) (call : Call) (st' : State ℝ) : Prop :=
  call.Promised st ∧ call.run L st = some st'

section Runs

variable {L : Numerics} {st : State ℝ}

/-- A call that meets its promise returns, and the state stays sound. -/
theorem Sound.call (hs : Sound st) (hllt : Solves L.llt) {call : Call} (hcall : call.Promised st) :
    ∃ st', call.run L st = some st' ∧ Sound st' := by
  have hsquare := hs.laid.square.symm
  cases call with
  | setTimestamp time =>
    exact ⟨_, rfl, hs.congr (fun _ _ => rfl) (le_refl _) rfl hsquare hs.posSemidef hs.cameras⟩
  | setValue v value =>
    exact ⟨_, rfl, hs.congr (fun _ _ => Var.id_setValue _ _ _) (Var.next_setValue _ _).ge rfl hsquare
      hs.posSemidef hs.cameras⟩
  | setMarg landmark =>
    refine ⟨_, rfl, hs.congr (fun x _ => ?_) (le_refl _) rfl hsquare hs.posSemidef hs.cameras⟩
    by_cases heq : x = landmark.ptr <;> simp [Heap.id, heq]
  | propagate order_NEW order_OLD Phi Q =>
    obtain ⟨hNEW, hOLD, hheld, hconsecutive, hrows, hcols, hQrows, hQ, hnoise⟩ := hcall
    obtain ⟨first, rest, rfl⟩ := exists_cons_of_ne_nil hNEW
    exact hs.ekfPropagation (fun v hv => hheld v (mem_append_left _ hv)) hconsecutive hOLD
      (fun v hv => hheld v (mem_append_right _ hv)) hrows hcols hQrows hQ hnoise
  | augmentClone last_w => exact hs.augmentClone hcall
  | update H_order H res R =>
    obtain ⟨horder, hres, hrows, hcols, hR, hpd⟩ := hcall
    obtain ⟨cov, heap, cameras, hresult, hsound⟩ := hs.ekfUpdate hllt H res R horder hres hrows hcols hR hpd
    exact ⟨_, hresult, hsound⟩
  | commit dx posterior policy =>
    refine ⟨_, rfl, ?_⟩
    unfold commitPrecomputedUpdate
    split_ifs with hsizes
    iterate 4 exact hs
    obtain ⟨heap, cameras, hrefresh, hsound⟩ := hs.refresh L.kernels dx posterior (by tauto)
      (by tauto) hcall
    rw [hrefresh]
    exact hsound
  | marginalizeClone time => exact hs.marginalizeCloneAt hcall
  | marginalizeOldClone => exact hs.marginalizeOldClone hcall
  | marginalizeSlam order =>
    exact hs.marginalizeFeatures (fun feature hfeature => hcall.mem_iff.mp hfeature)
      ((hcall.map _).nodup_iff.mpr hs.entries.2.2.2.2.1)
  | delayedInit featid size value fej H_order system sigmaPixSq chi2Mult =>
    exact hs.delayedInit hllt hcall.1 hcall.2 featid value fej chi2Mult

/-- Every state of a run is sound, and in it every call that meets its promise returns. -/
theorem filter_run_sound (hllt : Solves L.llt) (o : StateOptions) (cameras : List (Nat × List ℝ))
    (hcameras : { State.construct (K := ℝ) o with cameras := cameras }.camerasPresent = true)
    {es : List (Entry (State ℝ) Call)}
    (hrun : Run (fun st call st' => Call.Step L st call st')
      { State.construct o with cameras := cameras } es st) :
    Sound st ∧ ∀ call : Call, call.Promised st → ∃ st', call.run L st = some st' := by
  have hsound : Sound st := hrun.invariant (sound_construct o hcameras)
    fun st call st' hs ⟨hpromised, hresult⟩ => by
      obtain ⟨_, hresult', hs'⟩ := hs.call hllt hpromised
      rwa [Option.some.inj (hresult.symm.trans hresult')]
  refine ⟨hsound, fun call hcall => ?_⟩
  obtain ⟨st', hresult, -⟩ := hsound.call hllt hcall
  exact ⟨st', hresult⟩

noncomputable def plainNumerics : Numerics :=
  ⟨inverseFactorization, fun _ q => q, fun _ => none, fun _ _ _ => 0, fun _ _ => (1, 0), fun _ => 1, fun _ _ => 0⟩

/-- A clone at the first timestamp, an update with the IMU, and a commit that keeps the covariance. -/
theorem filter_run_sound_plain :
    ∃ st₁ st₂ st₃, Filter.augmentClone { State.construct (K := ℝ) plainOptions with timestamp := 1 } 0 = some st₁ ∧
      ekfUpdate plainNumerics.kernels st₁ [.imu st₁.imu] (ofFn 1 15 fun _ _ => 1) (ofFn 1 1 fun _ _ => 2)
        (scaledIdentity 1 1) = some st₂ ∧
      Call.run plainNumerics st₂ (.commit (ofFn st₂.cov.rows 1 fun _ _ => 3) st₂.cov .legacyNonnegativeDiagonal) = some st₃ ∧
      Sound st₃ := by
  have hsound := fun {es st} => @filter_run_sound plainNumerics st solves_inverseFactorization plainOptions [] rfl es
  have hrun₁ : Run (fun st call st' => Call.Step plainNumerics st call st') (State.construct plainOptions) _
      { State.construct plainOptions with timestamp := 1 } := .snoc .nil (i := Call.setTimestamp 1) ⟨trivial, rfl⟩
  have hfirst : (Call.augmentClone 0).Promised { State.construct (K := ℝ) plainOptions with timestamp := 1 } :=
    fun clone hclone => by cases hclone
  obtain ⟨st₁, hresult₁⟩ := (hsound hrun₁).2 _ hfirst
  have hrun₂ := hrun₁.snoc ⟨hfirst, hresult₁⟩
  have hupdate : (Call.update [.imu st₁.imu] (ofFn 1 15 fun _ _ => 1) (ofFn 1 1 fun _ _ => 2)
      (scaledIdentity 1 1)).Promised st₁ := by
    refine ⟨fun v hv => ?_, rfl, rfl, rfl, symmetric_scaledIdentity 1 1, ?_⟩
    · rw [mem_singleton.mp hv]
      exact holds_of_mem (hsound hrun₂).1.entries.1
    · show (toMatrix 1 1 _).PosDef
      rw [toMatrix_scaledIdentity]
      exact PosDef.one.smul one_pos
  obtain ⟨st₂, hresult₂⟩ := (hsound hrun₂).2 _ hupdate
  have hrun₃ := hrun₂.snoc ⟨hupdate, hresult₂⟩
  have hcommit : (Call.commit (ofFn st₂.cov.rows 1 fun _ _ => 3) st₂.cov .legacyNonnegativeDiagonal).Promised st₂ :=
    (hsound hrun₃).1.posSemidef
  obtain ⟨st₃, hresult₃⟩ := (hsound hrun₃).2 _ hcommit
  exact ⟨st₁, st₂, st₃, hresult₁, hresult₂, hresult₃, (hsound (hrun₃.snoc ⟨hcommit, hresult₃⟩)).1⟩

end Runs

end Bravo.Filter
