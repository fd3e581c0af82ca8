import Bravo.Filter.Layout

/-! # The constructed state is laid out

Giving out ids in order lays the variables out (`place_spec`), and the objects of the constructor
are all different. Every prior is a block on the diagonal, so the first covariance is symmetric.
-/

namespace Bravo.Filter

open Bravo.Linear List

section Place

variable {K : Type}

@[simp] theorem next_place (vs : List Var) : ∀ (id : Int) (h : Heap K), (place id vs h).next = h.next := by
  induction vs with
  | nil => exact fun _ _ => rfl
  | cons v rest ih =>
    intro id h
    rw [place, ih, Var.next_setLocalId]

theorem place_of_notMem {vs : List Var} {x : Ptr} (hx : x ∉ vs.flatMap Var.ptrs) :
    ∀ (id : Int) (h : Heap K), (place id vs h).id x = h.id x := by
  induction vs with
  | nil => exact fun _ _ => rfl
  | cons v rest ih =>
    intro id h
    rw [flatMap_cons, mem_append, not_or] at hx
    rw [place, ih hx.2, Var.id_setLocalId_of_notMem hx.1]

theorem place_spec {vs : List Var} (hsize : ∀ v ∈ vs, 0 < v.size) :
    ∀ (start : Nat) (h : Heap K), (vs.flatMap Var.ptrs).Nodup →
      Contiguous (place start vs h) start vs (start + sizeOfVars vs) ∧
        ∀ v ∈ vs, v.Consistent (place start vs h) := by
  induction vs with
  | nil => exact fun start h _ => ⟨by simp [Contiguous, sizeOfVars], fun v hv => by cases hv⟩
  | cons v rest ih =>
    intro start h hnodup
    rw [flatMap_cons, nodup_append'] at hnodup
    obtain ⟨hv, hrest, hdisjoint⟩ := hnodup
    obtain ⟨hcontiguous, hconsistent⟩ :=
      ih (fun w hw => hsize w (mem_cons_of_mem v hw)) (start + v.size)
        (v.setLocalId start h) hrest
    -- What is placed later does not reach `v`.
    have hkept : ∀ x ∈ v.ptrs, (place (start + v.size : Nat) rest (v.setLocalId start h)).id x =
        (v.setLocalId start h).id x := fun x hx => place_of_notMem (fun hin => hdisjoint hx hin) _ _
    have hid : (start : Int) ≠ -1 := by omega
    have hplace : place start (v :: rest) h =
        place (start + v.size : Nat) rest (v.setLocalId start h) := by
      rw [place]
      push_cast
      rfl
    rw [hplace]
    refine ⟨⟨?_, hsize v mem_cons_self, ?_⟩, ?_⟩
    · rw [hkept _ v.ptr_mem_ptrs, Var.id_ptr_setLocalId hv hid]
    · have hstop : start + sizeOfVars (v :: rest) = start + v.size + sizeOfVars rest := by
        simp [sizeOfVars, Nat.add_assoc]
      rw [hstop]
      exact hcontiguous
    · intro w hw
      rcases mem_cons.mp hw with rfl | hw
      · exact (Var.consistent_setLocalId hv hid).of_eq hkept
      · exact hconsistent w hw

end Place

/-! ## The objects -/

theorem ptrs_constructedObjects (o : StateOptions) :
    ((constructedObjects o).map (·.1)).flatMap Var.ptrs = List.range (13 + 4 * o.numCameras) := by
  have hcameras : ∀ n : Nat, (((List.range n).flatMap fun i =>
      [((.poseJPL (constructedCameraPose i) : Var), o.doCalibCameraPose),
        (constructedIntrinsics i, o.doCalibCameraIntrinsics)]).map (·.1)).flatMap Var.ptrs =
      (List.range (4 * n)).map (13 + ·) := by
    intro n
    induction n with
    | zero => rfl
    | succ n ih =>
      rw [range_succ, flatMap_append, map_append, flatMap_append, ih]
      have hnext : 4 * (n + 1) = 4 * n + 4 := by ring
      rw [hnext, range_add, map_append]
      congr 1
      simp [Var.ptrs, Var.parts, constructedCameraPose, constructedIntrinsics, range_succ]
      have hplaces : ((14 + 4 * n : Nat) = 13 + (4 * n + 1)) ∧ ((15 + 4 * n : Nat) = 13 + (4 * n + 2)) ∧
          ((16 + 4 * n : Nat) = 13 + (4 * n + 3)) := by omega
      exact hplaces
  unfold constructedObjects
  rw [map_append, flatMap_append, hcameras, range_add]
  congr 1

theorem size_constructedVariables (o : StateOptions) : ∀ v ∈ constructedVariables o, 0 < v.size := by
  intro v hv
  obtain ⟨object, hobject, rfl⟩ := mem_map.mp hv
  have hin := (mem_filter.mp hobject).1
  unfold constructedObjects at hin
  rcases mem_append.mp hin with hfixed | hcamera
  · simp only [mem_cons, not_mem_nil, or_false] at hfixed
    rcases hfixed with rfl | rfl | rfl | rfl | rfl | rfl | rfl <;> exact Nat.succ_pos _
  · obtain ⟨i, -, hpair⟩ := mem_flatMap.mp hcamera
    simp only [mem_cons, not_mem_nil, or_false] at hpair
    rcases hpair with rfl | rfl <;> exact Nat.succ_pos _

theorem sublist_constructedVariables (o : StateOptions) :
    ((constructedVariables o).flatMap Var.ptrs).Sublist (List.range (13 + 4 * o.numCameras)) := by
  rw [← ptrs_constructedObjects]
  exact List.Sublist.flatMap ((filter_sublist).map _) _

/-! ## The state -/

section Construct

variable {K : Type} [Field K] (o : StateOptions)

@[simp] theorem next_constructedHeap :
    (constructedHeap (K := K) o).next = 13 + 4 * o.numCameras := by
  have hfold : ∀ (objects : List (Var × Bool)) (h : Heap K),
      (objects.foldl (fun h object => object.1.setFej object.1.initialValue
        (object.1.setValue object.1.initialValue h)) h).next = h.next := by
    intro objects
    induction objects with
    | nil => exact fun _ => rfl
    | cons object rest ih =>
      intro h
      rw [foldl_cons, ih, Var.next_setFej, Var.next_setValue]
  unfold constructedHeap
  simp [hfold]

theorem symmetric_scaledIdentity (n : Nat) (c : K) : (Dense.scaledIdentity n c).Symmetric where
  square := rfl
  coeff_comm i j hi hj := by
    have hi' : i < n := hi
    have hj' : j < n := hj
    unfold Dense.scaledIdentity
    rw [Dense.coeff_ofFn hi' hj', Dense.coeff_ofFn hj' hi']
    simp only [eq_comm]

theorem symmetric_setBlock {M B : Dense K} (hM : M.Symmetric) (hB : B.Symmetric) (at' : Nat) :
    (M.setBlock at' at' B).Symmetric where
  square := hM.square
  coeff_comm i j hi hj := by
    have hi' : i < M.rows := hi
    have hj' : j < M.rows := hj
    rw [Dense.coeff_setBlock hi' (hM.square ▸ hj'), Dense.coeff_setBlock hj' (hM.square ▸ hi'),
      ← hB.square, hB.coeff_comm' (j - at') (i - at'), hM.coeff_comm' j i]
    by_cases hin : at' ≤ i ∧ i < at' + B.rows ∧ at' ≤ j ∧ j < at' + B.rows
    · rw [if_pos hin, if_pos ⟨hin.2.2.1, hin.2.2.2, hin.1, hin.2.1⟩]
    · rw [if_neg hin, if_neg fun h => hin ⟨h.2.2.1, h.2.2.2, h.1, h.2.1⟩]

theorem symmetric_setPrior {h : Heap K} {enabled : Bool} {v : Var} {offset count : Nat} {sigma : K}
    {cov : Dense K} (hcov : cov.Symmetric) :
    (setPrior h enabled v offset count sigma cov).Symmetric ∧
      (setPrior h enabled v offset count sigma cov).rows = cov.rows := by
  unfold setPrior
  split
  · exact ⟨symmetric_setBlock hcov (symmetric_scaledIdentity _ _) _, rfl⟩
  · exact ⟨hcov, rfl⟩

theorem constructedCov_spec (h : Heap K) : (constructedCov o h).Symmetric ∧
      (constructedCov o h).rows = sizeOfVars (constructedVariables o) := by
  -- A loop over the cameras sets priors only.
  have hloop : ∀ (step : Dense K → Nat → Dense K) (cameras : List Nat) (cov : Dense K),
      (∀ cov i, cov.Symmetric → (step cov i).Symmetric ∧ (step cov i).rows = cov.rows) →
      cov.Symmetric → (cameras.foldl step cov).Symmetric ∧ (cameras.foldl step cov).rows = cov.rows := by
    intro step cameras
    induction cameras with
    | nil => exact fun cov _ hcov => ⟨hcov, rfl⟩
    | cons i rest ih =>
      intro cov hstep hcov
      obtain ⟨hsymmetric, hrows⟩ := hstep cov i hcov
      obtain ⟨hrest, hrest'⟩ := ih (step cov i) hstep hsymmetric
      exact ⟨hrest, hrest'.trans hrows⟩
  have hpair : ∀ (enabled : Bool) (v : Nat → Var) (a b c d : Nat) (s t : K) (cov : Dense K) (i : Nat),
      cov.Symmetric →
      (setPrior h enabled (v i) a b s (setPrior h enabled (v i) c d t cov)).Symmetric ∧
        (setPrior h enabled (v i) a b s (setPrior h enabled (v i) c d t cov)).rows = cov.rows := by
    intro enabled v a b c d s t cov i hcov
    have hinner := @symmetric_setPrior K _ h enabled (v i) c d t cov hcov
    have houter := @symmetric_setPrior K _ h enabled (v i) a b s _ hinner.1
    exact ⟨houter.1, houter.2.trans hinner.2⟩
  have h0 := symmetric_scaledIdentity (sizeOfVars (constructedVariables o)) ((1 / 1000 : K) ^ 2)
  have h1 := @symmetric_setPrior K _ h o.doCalibImuIntrinsics constructedDw 0 6 (5 / 1000) _ h0
  have h2 := @symmetric_setPrior K _ h o.doCalibImuIntrinsics constructedDa 0 6 (8 / 1000) _ h1.1
  have h3 := @symmetric_setPrior K _ h (o.doCalibImuIntrinsics && o.doCalibImuGSensitivity)
    constructedTg 0 9 (5 / 1000) _ h2.1
  have h4 := @symmetric_setPrior K _ h (o.doCalibImuIntrinsics && o.imuModel == .kalibr)
    constructedGyro 0 3 (5 / 1000) _ h3.1
  have h5 := @symmetric_setPrior K _ h (o.doCalibImuIntrinsics && o.imuModel != .kalibr)
    constructedAcc 0 3 (5 / 1000) _ h4.1
  have h6 := @symmetric_setPrior K _ h o.doCalibCameraTimeoffset constructedDt 0 1 (1 / 100) _ h5.1
  have h7 := hloop _ (List.range o.numCameras) _ (fun cov i hcov => hpair o.doCalibCameraPose
    (fun i => .poseJPL (constructedCameraPose i)) 3 3 0 3 (15 / 1000) (5 / 1000) cov i hcov) h6.1
  have h8 := hloop _ (List.range o.numCameras) _ (fun cov i hcov => hpair o.doCalibCameraIntrinsics
    constructedIntrinsics 4 4 0 4 (5 / 1000) 1 cov i hcov) h7.1
  exact ⟨h8.1, h8.2.trans (h7.2.trans (h6.2.trans (h5.2.trans (h4.2.trans (h3.2.trans
    (h2.2.trans h1.2))))))⟩

theorem laid_construct : Laid (State.construct (K := K) o) := by
  have hsublist := sublist_constructedVariables o
  have hnodup : ((constructedVariables o).flatMap Var.ptrs).Nodup := nodup_range.sublist hsublist
  obtain ⟨hsymmetric, hrows⟩ := constructedCov_spec (K := K) o
    (place 0 (constructedVariables o) (constructedHeap o))
  obtain ⟨hcontiguous, hconsistent⟩ := place_spec (K := K) (size_constructedVariables o) 0
    (constructedHeap o) hnodup
  refine ⟨hsymmetric.square, ?_, hconsistent, hnodup, ?_, ?_, ?_⟩
  · have hstop : (State.construct (K := K) o).cov.rows = 0 + sizeOfVars (constructedVariables o) := by
      rw [Nat.zero_add]
      exact hrows
    rw [hstop]
    exact hcontiguous
  · intro x hx
    have hlt := mem_range.mp (hsublist.subset hx)
    change x < (place 0 (constructedVariables o) (constructedHeap (K := K) o)).next
    rw [next_place, next_constructedHeap]
    exact hlt
  · exact fun clone hclone => by cases hclone
  · exact fun feature hfeature => by cases hfeature

theorem symmetric_construct : (State.construct (K := K) o).cov.Symmetric :=
  (constructedCov_spec o _).1

theorem imu_mem_construct :
    .imu (State.construct (K := K) o).imu ∈ (State.construct (K := K) o).vars :=
  mem_map.mpr ⟨(.imu constructedImu, true), by simp [constructedObjects], rfl⟩

end Construct

end Bravo.Filter
