import Bravo.Filter.TwoPassExact

/-! # The preview and the live update

What the preview of a live state accepts, `EKFUpdate` and `CommitPrecomputedUpdate` do: over any
arithmetic whose comparison orders the finite values, with the same matrix operations behind all of them
(`compute_eq_live`).
-/

namespace Bravo.Filter

open Bravo.Linear List Heap Var

/-! ## The code -/

section Code

variable {K : Type} [Zero K] [One K] [Add K] (k : Kernels K)

def captureSnapshot (st : State K) : PreviewSnapshot K where
  covariance := st.cov
  stateBlocks := st.vars.map fun v => ⟨st.id v, v.size, st.id v⟩

/-- The layout of a Jacobian whose first column is `ordered_column`. -/
def layoutFrom (st : State K) (orderedColumn : Nat) (H_order : List Var) : List PreviewBlock :=
  (columnsOf orderedColumn H_order).map fun meas => ⟨st.id meas.1, meas.1.size, meas.2⟩

def compute (st : State K) (H_order : List Var) (H residual R : Dense K) :
    Except (PreviewStatus × PreviewStage) (Dense K × Dense K) :=
  computeFromSnapshot k (captureSnapshot st) (layoutFrom st 0 H_order) H residual R

/-- `UpdaterMSCKFPreview::ComputeMeanFromSnapshot`; an accepted mean is `dx` and `nis`. -/
def computeMeanFromSnapshot (snapshot : PreviewSnapshot K) (layout : List PreviewBlock)
    (H residual R : Dense K) : Except (PreviewStatus × PreviewStage) (Dense K × K) :=
  let P := snapshot.covariance
  let n := P.rows
  let m := residual.rows
  if n = 0 ∨ m = 0 ∨ P.cols ≠ n ∨ H.rows ≠ m ∨ H.cols = 0 ∨ R.rows ≠ m ∨ R.cols ≠ m ∨
      layout = [] then .error (.invalidInput, .inputDimensions)
  else if snapshot.stateBlocks = [] ∨ checkStateBlocks n 0 none snapshot.stateBlocks ≠ some n then
    .error (.invalidInput, .stateOrder)
  else
    match checkLayout (containedByStateBlock snapshot.stateBlocks) n H.cols 0 [] layout with
    | none => .error (.invalidInput, .stateOrder)
    | some ordered =>
      if ordered ≠ H.cols then .error (.invalidInput, .inputDimensions)
      else if !(k.allFinite P && k.allFinite H && k.allFinite residual && k.allFinite R) then
        .error (.nonfinite, .rawInputs)
      else
        let M := previewCross k P snapshot.stateBlocks layout H m
        let P_small := previewMarginal k P layout H.cols
        let S := innovation k H P_small R
        let llt := k.llt (upperTriangle S)
        let Sinv := llt.solve (identity m)
        let gain : Dense K := .ofFn n m (k.mulSelfadjoint M Sinv)
        let dx : Dense K := .ofFn n 1 fun i _ => k.mulVec gain residual i
        let solvedResidual : Dense K := .ofFn m 1 fun i _ => k.mulVec Sinv.mirrorUpper residual i
        let nis := k.dot residual solvedResidual
        if !k.allFinite M then .error (.nonfinite, .crossCovariance)
        else if !k.allFinite P_small then .error (.nonfinite, .marginalCovariance)
        else if !k.allFinite (upperTriangle S) then .error (.nonfinite, .innovation)
        else if !llt.success then .error (.factorizationFailed, .innovationFactorization)
        else if !k.allFinite Sinv then .error (.nonfinite, .innovationInverse)
        else if !k.allFinite gain then .error (.nonfinite, .kalmanGain)
        else if !k.allFinite dx || !k.allFinite solvedResidual || !k.isFinite nis then
          .error (.nonfinite, .stateIncrement)
        else .ok (dx, nis)

/-! ## What an accepted preview says -/

def previewGain (snapshot : PreviewSnapshot K) (layout : List PreviewBlock) (H residual R : Dense K) :
    Dense K :=
  let M := previewCross k snapshot.covariance snapshot.stateBlocks layout H residual.rows
  let S := innovation k H (previewMarginal k snapshot.covariance layout H.cols) R
  .ofFn snapshot.covariance.rows residual.rows
    (k.mulSelfadjoint M ((k.llt (upperTriangle S)).solve (identity residual.rows)))

variable {k} {snapshot : PreviewSnapshot K} {layout : List PreviewBlock} {H residual R : Dense K}

structure AcceptedPreview (k : Kernels K) (snapshot : PreviewSnapshot K) (layout : List PreviewBlock)
    (H residual R dx P_plus : Dense K) : Prop where
  state_pos : snapshot.covariance.rows ≠ 0
  square : snapshot.covariance.cols = snapshot.covariance.rows
  rows : H.rows = residual.rows
  noise_rows : R.rows = residual.rows
  noise_cols : R.cols = residual.rows
  blocks : checkStateBlocks snapshot.covariance.rows 0 none snapshot.stateBlocks =
    some snapshot.covariance.rows
  fits : checkLayout (containedByStateBlock snapshot.stateBlocks) snapshot.covariance.rows H.cols 0
    [] layout = some H.cols
  dx_eq : dx = .ofFn snapshot.covariance.rows 1 fun i _ =>
    k.mulVec (previewGain k snapshot layout H residual R) residual i
  posterior_eq : P_plus = (snapshot.covariance.setUpper (k.subMulTranspose snapshot.covariance
    (previewGain k snapshot layout H residual R)
    (previewCross k snapshot.covariance snapshot.stateBlocks layout H residual.rows))).mirrorUpper
  posterior_finite : k.allFinite P_plus = true
  diagonal : k.lt (k.minOf (diagonal P_plus)) 0 = false
  dx_finite : k.allFinite dx = true

section Guards

variable {ε α : Type} {a : α}

theorem of_guard {c : Prop} [Decidable c] {e : ε} {x : Except ε α}
    (h : (if c then .error e else x) = .ok a) : ¬ c ∧ x = .ok a := by
  by_cases hc : c
  · rw [if_pos hc] at h
    cases h
  · rw [if_neg hc] at h
    exact ⟨hc, h⟩

theorem of_finite_guard {b : Bool} {e : ε} {x : Except ε α}
    (h : (if (!b) = true then .error e else x) = .ok a) : b = true ∧ x = .ok a := by
  obtain ⟨hb, hx⟩ := of_guard h
  cases b
  · exact absurd rfl hb
  · exact ⟨rfl, hx⟩

theorem of_match {o : Option Nat} {e : ε} {f : Nat → Except ε α}
    (h : (match o with
      | none => Except.error e
      | some x => f x) = .ok a) : ∃ x, o = some x ∧ f x = .ok a := by
  cases o with
  | none => cases h
  | some x => exact ⟨x, rfl, h⟩

end Guards

theorem computeFromSnapshot_ok {dx P_plus : Dense K}
    (h : computeFromSnapshot k snapshot layout H residual R = .ok (dx, P_plus)) :
    AcceptedPreview k snapshot layout H residual R dx P_plus := by
  unfold computeFromSnapshot at h
  obtain ⟨hsizes, h⟩ := of_guard h
  obtain ⟨hblocks, h⟩ := of_guard h
  obtain ⟨ordered, hlayout, h⟩ := of_match h
  obtain ⟨hordered, h⟩ := of_guard h
  obtain ⟨-, h⟩ := of_guard h
  obtain ⟨-, h⟩ := of_guard h
  obtain ⟨-, h⟩ := of_guard h
  obtain ⟨-, h⟩ := of_guard h
  obtain ⟨-, h⟩ := of_guard h
  obtain ⟨-, h⟩ := of_guard h
  obtain ⟨-, h⟩ := of_guard h
  obtain ⟨hposterior, h⟩ := of_finite_guard h
  obtain ⟨hdiagonal, h⟩ := of_guard h
  obtain ⟨hdx, h⟩ := of_finite_guard h
  obtain ⟨rfl, rfl⟩ := Prod.mk.inj (Except.ok.inj h)
  obtain rfl := not_not.mp hordered
  simp only [not_or, ne_eq, not_not] at hsizes hblocks
  obtain ⟨hstate, -, hsquare, hrows, -, hnoise, hnoise', -⟩ := hsizes
  exact
    { state_pos := hstate
      square := hsquare
      rows := hrows
      noise_rows := hnoise
      noise_cols := hnoise'
      blocks := hblocks.2
      fits := hlayout
      dx_eq := rfl
      posterior_eq := rfl
      posterior_finite := hposterior
      diagonal := Bool.eq_false_iff.mpr hdiagonal
      dx_finite := hdx }

theorem computeMeanFromSnapshot_ok {dx : Dense K} {nis : K}
    (h : computeMeanFromSnapshot k snapshot layout H residual R = .ok (dx, nis)) :
    dx = .ofFn snapshot.covariance.rows 1 fun i _ =>
      k.mulVec (previewGain k snapshot layout H residual R) residual i := by
  unfold computeMeanFromSnapshot at h
  obtain ⟨-, h⟩ := of_guard h
  obtain ⟨-, h⟩ := of_guard h
  obtain ⟨ordered, -, h⟩ := of_match h
  obtain ⟨-, h⟩ := of_guard h
  obtain ⟨-, h⟩ := of_guard h
  obtain ⟨-, h⟩ := of_guard h
  obtain ⟨-, h⟩ := of_guard h
  obtain ⟨-, h⟩ := of_guard h
  obtain ⟨-, h⟩ := of_guard h
  obtain ⟨-, h⟩ := of_guard h
  obtain ⟨-, h⟩ := of_guard h
  obtain ⟨-, h⟩ := of_guard h
  exact (Prod.mk.inj (Except.ok.inj h)).1.symm

end Code

/-! ## The blocks of a live state -/

section Blocks

variable {K : Type} [Zero K] {st : State K}

theorem runningOffsets_layoutFrom (order : List Var) :
    ∀ it : Nat, (runningOffsets it (layoutFrom st it order)).map
        (fun row => (row.1.start, row.1.length, row.2)) =
      (columnsOf it order).map fun meas => (st.at meas.1, meas.1.size, meas.2) := by
  induction order with
  | nil => exact fun _ => rfl
  | cons v rest ih =>
    intro it
    have hrest := ih (it + v.size)
    unfold layoutFrom at hrest ⊢
    rw [columnsOf, map_cons, runningOffsets, map_cons, map_cons]
    exact congrArg _ hrest

theorem describes_captureSnapshot (order : List Var) :
    Describes st order (captureSnapshot st).stateBlocks (layoutFrom st 0 order) where
  state := by
    unfold captureSnapshot
    rw [List.map_map]
    rfl
  columns := by
    unfold layoutFrom
    rw [List.map_map]
    rfl
  offsets := runningOffsets_layoutFrom order 0

theorem contiguousFrom_of_check (vs : List Var) :
    ∀ (expected : Nat) (previous : Option Int) (stop : Nat),
      checkStateBlocks st.cov.rows expected previous
        (vs.map fun v => ⟨st.id v, v.size, st.id v⟩) = some stop →
      contiguousFrom st expected vs = some stop ∧ st.inRange vs = true := by
  induction vs with
  | nil => exact fun _ _ _ h => ⟨h, rfl⟩
  | cons v rest ih =>
    intro expected previous stop h
    rw [map_cons, checkStateBlocks] at h
    split at h
    · cases h
    rename_i hrange
    split at h
    · cases h
    rename_i horder
    obtain ⟨hrest, hin⟩ := ih _ _ _ h
    have hid : st.id v = expected := by
      by_contra hne
      exact horder (.inl hne)
    simp only [not_or, not_lt, not_le] at hrange
    obtain ⟨hnonneg, hpos, -, hfits, -⟩ := hrange
    constructor
    · rw [contiguousFrom, if_neg]
      · exact hrest
      · rintro (hne | hzero | hlong)
        · exact hne hid
        · omega
        · omega
    · refine all_eq_true.mpr fun w hw => ?_
      rcases mem_cons.mp hw with rfl | hw
      · exact decide_eq_true ⟨hnonneg, by omega⟩
      · exact all_eq_true.mp hin w hw

theorem inRange_of_check {contained : PreviewBlock → Bool} {cols : Nat} (order : List Var) :
    ∀ (it : Nat) (covered : List Nat) (stop : Nat),
      checkLayout contained st.cov.rows cols it covered (layoutFrom st it order) = some stop →
      stop = it + sizeOfVars order ∧ st.inRange order = true := by
  induction order with
  | nil => exact fun _ _ _ h => ⟨(Option.some.inj h).symm, rfl⟩
  | cons v rest ih =>
    intro it covered stop h
    unfold layoutFrom at h
    rw [columnsOf, map_cons, checkLayout] at h
    split at h
    · cases h
    rename_i hrange
    split at h
    · cases h
    split at h
    · cases h
    obtain ⟨hstop, hin⟩ := ih (it + v.size) _ _ h
    simp only [not_or, not_lt, not_le] at hrange
    obtain ⟨hnonneg, -, -, hfits, -⟩ := hrange
    refine ⟨by rw [hstop, sizeOfVars_cons, Nat.add_assoc], all_eq_true.mpr fun w hw => ?_⟩
    rcases mem_cons.mp hw with rfl | hw
    · exact decide_eq_true ⟨hnonneg, by omega⟩
    · exact all_eq_true.mp hin w hw

end Blocks

/-! ## Finite values -/

section Order

variable {K : Type} [Zero K] [One K] [Add K] {k : Kernels K}

/-- The comparison orders the finite values; a difference of a value with itself is zero; a tolerance
relative to a scale from one on is not negative. -/
structure Kernels.FiniteOrder (k : Kernels K) : Prop where
  zero_finite : k.isFinite 0 = true
  irrefl : ∀ a, k.isFinite a = true → k.lt a a = false
  trans : ∀ a b c, k.isFinite a = true → k.isFinite b = true → k.isFinite c = true →
    k.lt a b = true → k.lt b c = true → k.lt a c = true
  cotrans : ∀ a b c, k.isFinite a = true → k.isFinite b = true → k.isFinite c = true →
    k.lt a c = true → k.lt a b = true ∨ k.lt b c = true
  abs_sub_self : ∀ a, k.isFinite a = true → k.abs (k.sub a a) = 0
  scale : ∀ b, k.lt (k.mul k.tolerance (k.max 1 b)) 0 = false

omit [Add K] in
theorem not_lt_minOf (hk : k.FiniteOrder) (rest : List K) :
    ∀ x : K, (∀ y ∈ x :: rest, k.isFinite y = true) →
      ∀ y ∈ x :: rest, k.lt y (k.minOf (x :: rest)) = false := by
  induction rest with
  | nil =>
    intro x hfinite y hy
    rw [mem_singleton.mp hy]
    exact hk.irrefl x (hfinite x mem_cons_self)
  | cons z rest ih =>
    intro x hfinite
    set pick := if k.lt z x then z else x with hpick
    have hx := hfinite x mem_cons_self
    have hz := hfinite z (mem_cons_of_mem x mem_cons_self)
    have hpfinite : k.isFinite pick = true := by
      rw [hpick]
      split
      · exact hz
      · exact hx
    have hrest : ∀ y ∈ pick :: rest, k.isFinite y = true := by
      intro y hy
      rcases mem_cons.mp hy with rfl | hy
      · exact hpfinite
      · exact hfinite y (mem_cons_of_mem x (mem_cons_of_mem z hy))
    have hleast : k.minOf (x :: z :: rest) = k.minOf (pick :: rest) := rfl
    have hbelow := ih pick hrest
    have hlfinite : k.isFinite (k.minOf (pick :: rest)) = true := hrest _ (minOf_mem k pick rest)
    have hp := hbelow pick mem_cons_self
    rw [hleast]
    -- The one that was not picked is not below the one that was.
    have hother : k.lt x (k.minOf (pick :: rest)) = false ∧
        k.lt z (k.minOf (pick :: rest)) = false := by
      cases hzx : k.lt z x with
      | true =>
        have hpz : pick = z := by rw [hpick, if_pos hzx]
        rw [← Bool.not_eq_true, ← Bool.not_eq_true]
        rw [hpz] at hp hlfinite ⊢
        refine ⟨fun hlt => ?_, by simpa using hp⟩
        rw [hk.trans z x _ hz hx hlfinite hzx hlt] at hp
        cases hp
      | false =>
        have hpx : pick = x := by rw [hpick, if_neg (by simp [hzx])]
        rw [← Bool.not_eq_true, ← Bool.not_eq_true]
        rw [hpx] at hp hlfinite ⊢
        refine ⟨by simpa using hp, fun hlt => ?_⟩
        rcases hk.cotrans z x _ hz hx hlfinite hlt with h | h
        · rw [hzx] at h
          cases h
        · rw [hp] at h
          cases h
    intro y hy
    rcases mem_cons.mp hy with rfl | hy
    · exact hother.1
    · rcases mem_cons.mp hy with rfl | hy
      · exact hother.2
      · exact hbelow y (mem_cons_of_mem pick hy)

omit [Add K] in
theorem diagonal_nonneg (hk : k.FiniteOrder) {M : Dense K} (hsquare : M.rows = M.cols)
    (hfinite : k.allFinite M = true) (h : k.lt (k.minOf (diagonal M)) 0 = false) :
    (diagonal M).any (fun x => k.lt x 0) = false := by
  have hentries : ∀ x ∈ diagonal M, k.isFinite x = true := by
    intro x hx
    obtain ⟨i, hi, rfl⟩ := mem_map.mp hx
    exact all_eq_true.mp (all_eq_true.mp hfinite i hi) i (hsquare ▸ hi)
  cases hlist : diagonal M with
  | nil => rfl
  | cons x rest =>
    rw [hlist] at hentries h
    refine any_eq_false.mpr fun y hy hneg => ?_
    have hleast := hentries _ (minOf_mem k x rest)
    rcases hk.cotrans y _ 0 (hentries y hy) hleast hk.zero_finite hneg with hlt | hlt
    · rw [not_lt_minOf hk rest x hentries y hy] at hlt
      cases hlt
    · rw [h] at hlt
      cases hlt

omit [Add K] in
theorem symmetryError_eq_zero (hk : k.FiniteOrder) {M : Dense K} (hM : M.Symmetric)
    (hfinite : k.allFinite M = true) : symmetryError k M = 0 := by
  have hmaxOf : ∀ l : List K, (∀ x ∈ l, x = 0) → k.maxOf l = 0 := by
    intro l hl
    cases l with
    | nil => rfl
    | cons x rest =>
      obtain rfl := hl x mem_cons_self
      change rest.foldl (fun best y => if k.lt best y then y else best) 0 = 0
      have hrest : ∀ y ∈ rest, y = 0 := fun y hy => hl y (mem_cons_of_mem _ hy)
      clear hl
      induction rest with
      | nil => rfl
      | cons y rest ih =>
        rw [foldl_cons, hrest y mem_cons_self, ite_self]
        exact ih fun z hz => hrest z (mem_cons_of_mem y hz)
  refine hmaxOf _ fun x hx => ?_
  obtain ⟨i, hi, hx⟩ := mem_flatMap.mp hx
  obtain ⟨j, hj, rfl⟩ := mem_map.mp hx
  have hi' : i < M.rows := mem_range.mp hi
  have hj' : j < M.cols := mem_range.mp hj
  rw [Dense.coeff_ofFn hi' hj', hM.coeff_comm' j i]
  exact hk.abs_sub_self _ (all_eq_true.mp (all_eq_true.mp hfinite i hi) j hj)

end Order

/-! ## The segments of the increment -/

section Segments

variable {K : Type} {h h' : Heap K} {x : Ptr}

theorem Heap.cells_setValue (ptr : Ptr) (value : List K) :
    (h.setValue ptr value).cells x =
      if x = ptr then { h.cells ptr with value := value } else h.cells x := by
  unfold setValue
  simp [Function.update_apply]

theorem Heap.agree_setValue (ptr : Ptr) (value : List K) (hx : h.cells x = h'.cells x) :
    (h.setValue ptr value).cells x = (h'.setValue ptr value).cells x := by
  rw [Heap.cells_setValue, Heap.cells_setValue]
  split
  · rename_i heq
    subst heq
    rw [hx]
  · exact hx

theorem PoseJPL.agree_setValue (pose : PoseJPL) (new : List K) (hx : h.cells x = h'.cells x) :
    (pose.setValue new h).cells x = (pose.setValue new h').cells x :=
  Heap.agree_setValue _ _ (Heap.agree_setValue _ _ (Heap.agree_setValue _ _ hx))

theorem Var.agree_setValue (v : Var) (new : List K) (hx : h.cells x = h'.cells x) :
    (v.setValue new h).cells x = (v.setValue new h').cells x := by
  cases v with
  | vec ptr size => exact Heap.agree_setValue _ _ hx
  | jplQuat ptr => exact Heap.agree_setValue _ _ hx
  | poseJPL pose => exact pose.agree_setValue new hx
  | imu i =>
    exact Heap.agree_setValue _ _ (Heap.agree_setValue _ _ (Heap.agree_setValue _ _
      (Heap.agree_setValue _ _ (i.pose.agree_setValue (new.take 7) hx))))

theorem Heap.cells_setValue_of_ne {ptr : Ptr} (value : List K) (hx : x ≠ ptr) :
    (h.setValue ptr value).cells x = h.cells x := by
  rw [cells_setValue, if_neg hx]

theorem Var.cells_setValue_of_notMem (v : Var) (new : List K) (hx : x ∉ v.ptrs) :
    (v.setValue new h).cells x = h.cells x := by
  cases v with
  | vec ptr size =>
    exact cells_setValue_of_ne _ (by simpa [ptrs, parts] using hx)
  | jplQuat ptr =>
    exact cells_setValue_of_ne _ (by simpa [ptrs, parts] using hx)
  | poseJPL pose =>
    simp only [ptrs, parts, map_cons, map_nil, mem_cons, not_mem_nil,
      or_false, not_or] at hx
    obtain ⟨hptr, hq, hp⟩ := hx
    simp only [setValue, PoseJPL.setValue]
    rw [cells_setValue_of_ne _ hptr, cells_setValue_of_ne _ hp,
      cells_setValue_of_ne _ hq]
  | imu i =>
    simp only [ptrs, parts, map_cons, map_nil, mem_cons, not_mem_nil,
      or_false, not_or] at hx
    obtain ⟨hptr, hpose, hq, hp, hv, hbg, hba⟩ := hx
    simp only [setValue, PoseJPL.setValue]
    rw [cells_setValue_of_ne _ hptr, cells_setValue_of_ne _ hba,
      cells_setValue_of_ne _ hbg, cells_setValue_of_ne _ hv,
      cells_setValue_of_ne _ hpose, cells_setValue_of_ne _ hp,
      cells_setValue_of_ne _ hq]

variable [Add K] (rotate : List K → List K → List K)

theorem Var.boxplus_congr (v : Var) (dx : List K) (heq : ∀ y ∈ v.ptrs, h.cells y = h'.cells y) :
    v.boxplus rotate h dx = v.boxplus rotate h' dx := by
  have hvalue : ∀ y ∈ v.ptrs, h.value y = h'.value y := fun y hy => by
    unfold value
    rw [heq y hy]
  cases v with
  | vec ptr size => rw [boxplus, boxplus, hvalue ptr (by simp [ptrs, parts])]
  | jplQuat ptr => rw [boxplus, boxplus, hvalue ptr (by simp [ptrs, parts])]
  | poseJPL pose =>
    rw [boxplus, boxplus, hvalue pose.q (by simp [ptrs, parts]),
      hvalue pose.ptr (by simp [ptrs, parts])]
  | imu i =>
    rw [boxplus, boxplus, hvalue i.pose.q (by simp [ptrs, parts]),
      hvalue i.ptr (by simp [ptrs, parts])]

theorem Var.update_congr (v : Var) (dx : List K) (heq : ∀ y ∈ v.ptrs, h.cells y = h'.cells y) {x : Ptr}
    (hx : x ∈ v.ptrs) : (v.update rotate dx h).cells x = (v.update rotate dx h').cells x := by
  unfold update
  rw [v.boxplus_congr rotate dx heq]
  exact v.agree_setValue _ (heq x hx)

theorem foldl_update {segment : Var → List K} (vs : List Var) :
    ∀ h : Heap K, (vs.flatMap Var.ptrs).Nodup →
      (∀ v ∈ vs, ∀ x ∈ v.ptrs,
        (vs.foldl (fun h v => v.update rotate (segment v) h) h).cells x =
          (v.update rotate (segment v) h).cells x) ∧
      ∀ x ∉ vs.flatMap Var.ptrs,
        (vs.foldl (fun h v => v.update rotate (segment v) h) h).cells x = h.cells x := by
  induction vs with
  | nil => exact fun _ _ => ⟨nofun, fun _ _ => rfl⟩
  | cons v rest ih =>
    intro h hnodup
    rw [flatMap_cons] at hnodup
    obtain ⟨-, hrest, hdisjoint⟩ := nodup_append'.mp hnodup
    obtain ⟨hmember, houtside⟩ := ih (v.update rotate (segment v) h) hrest
    have hkeep : ∀ y ∉ v.ptrs, (v.update rotate (segment v) h).cells y = h.cells y := fun y hy =>
      v.cells_setValue_of_notMem _ hy
    constructor
    · intro w hw x hx
      rw [foldl_cons]
      rcases mem_cons.mp hw with rfl | hw
      · exact houtside x fun hin => hdisjoint hx hin
      · rw [hmember w hw x hx]
        refine w.update_congr rotate _ (fun y hy => hkeep y fun hin => ?_) hx
        exact hdisjoint hin (mem_flatMap.mpr ⟨w, hw, hy⟩)
    · intro x hx
      rw [flatMap_cons, mem_append, not_or] at hx
      rw [foldl_cons, houtside x hx.2, hkeep x hx.1]

end Segments

/-! ## The live update -/

section Live

variable {K : Type} [Zero K] [One K] [Add K] {k : Kernels K} {st : State K} {H_order : List Var}
  {H residual R dx P_plus : Dense K}

theorem AcceptedPreview.eq_proposal
    (h : AcceptedPreview k (captureSnapshot st) (layoutFrom st 0 H_order) H residual R dx P_plus) :
    (dx, P_plus) = ekfProposal k st H_order H residual R := by
  have hdescribes : Describes st H_order _ _ := describes_captureSnapshot H_order
  obtain ⟨htotal, -⟩ := inRange_of_check H_order 0 [] H.cols h.fits
  have hcross : previewCross k st.cov (captureSnapshot st).stateBlocks (layoutFrom st 0 H_order) H
      residual.rows = crossCovariance k st H_order H residual.rows :=
    h.rows ▸ previewCross_eq H hdescribes
  have hmarginal : previewMarginal k st.cov (layoutFrom st 0 H_order) H.cols =
      marginalCovariance st H_order := previewMarginal_eq hdescribes (by rw [htotal, Nat.zero_add])
  have hgain : previewGain k (captureSnapshot st) (layoutFrom st 0 H_order) H residual R =
      .ofFn st.cov.rows residual.rows (k.mulSelfadjoint (crossCovariance k st H_order H residual.rows)
        ((k.llt (upperTriangle (innovation k H (marginalCovariance st H_order) R))).solve
          (identity R.rows))) := by
    unfold previewGain
    rw [h.noise_rows]
    change Dense.ofFn st.cov.rows residual.rows (k.mulSelfadjoint (previewCross k st.cov _ _ H _)
      ((k.llt (upperTriangle (innovation k H (previewMarginal k st.cov _ _) R))).solve _)) = _
    rw [hcross, hmarginal]
  rw [h.dx_eq, h.posterior_eq, hgain]
  unfold ekfProposal
  change (_, (st.cov.setUpper (k.subMulTranspose st.cov _ (previewCross k st.cov _ _ H _))).mirrorUpper)
    = _
  rw [hcross]
  rfl

/-- **What the preview accepts is what the live update does**: `EKFUpdate` does not end the program, it
stores `P_plus` and gives every variable its segment of `dx`, and the commit of `dx` and `P_plus` under
the legacy policy accepts them and leaves the same state. An accepted mean is the same `dx`. -/
theorem compute_eq_live (hk : k.FiniteOrder) (hcameras : st.camerasPresent = true)
    (hcompute : compute k st H_order H residual R = .ok (dx, P_plus)) :
    ∃ updated, ekfUpdate k st H_order H residual R = some updated ∧
      commitPrecomputedUpdate k st dx P_plus .legacyNonnegativeDiagonal = some updated ∧
      updated.cov = P_plus ∧
      ((st.vars.flatMap Var.ptrs).Nodup →
        (∀ v ∈ st.vars, ∀ x ∈ v.ptrs, updated.heap.cells x =
          (v.update k.rotate (segmentOf dx (st.at v) v.size) st.heap).cells x) ∧
        ∀ x ∉ st.vars.flatMap Var.ptrs, updated.heap.cells x = st.heap.cells x) ∧
      ∀ mean nis, computeMeanFromSnapshot k (captureSnapshot st) (layoutFrom st 0 H_order) H residual R =
        .ok (mean, nis) → mean = dx := by
  have h := computeFromSnapshot_ok hcompute
  have hproposal := h.eq_proposal
  obtain ⟨hcontiguous, hvars⟩ := contiguousFrom_of_check st.vars 0 none st.cov.rows h.blocks
  obtain ⟨htotal, horder⟩ := inRange_of_check H_order 0 [] H.cols h.fits
  have hsquare : st.cov.rows = st.cov.cols := h.square.symm
  -- what the checks of the live methods ask of the preview's result
  have hPsize : P_plus.rows = st.cov.rows ∧ P_plus.cols = st.cov.rows := by
    rw [h.posterior_eq]
    exact ⟨rfl, h.square⟩
  have hdxsize : dx.rows = st.cov.rows ∧ dx.cols = 1 := by
    rw [h.dx_eq]
    exact ⟨rfl, rfl⟩
  have hsymmetric : P_plus.Symmetric := by
    rw [h.posterior_eq]
    exact Dense.symmetric_mirrorUpper hsquare
  have hdiagonal := diagonal_nonneg hk hsymmetric.square h.posterior_finite h.diagonal
  set updated := refreshCameras { st with cov := P_plus, heap := updateVariables k st dx } with hupdated
  have hfields : updated.cov = P_plus ∧ updated.heap = updateVariables k st dx := by
    rw [hupdated]
    unfold refreshCameras
    split <;> exact ⟨rfl, rfl⟩
  refine ⟨updated, ?_, ?_, hfields.1, fun hnodup => ?_, fun mean nis hmean => ?_⟩
  · -- the update forms the same proposal behind its own checks
    have hguard : ¬ (residual.rows ≠ R.rows ∨ R.cols ≠ R.rows ∨ H.rows ≠ residual.rows ∨
        H.cols ≠ sizeOfVars H_order ∨ st.inRange st.vars = false ∨ st.inRange H_order = false) := by
      rintro (hne | hne | hne | hne | hne | hne)
      · exact hne h.noise_rows.symm
      · exact hne (h.noise_cols.trans h.noise_rows.symm)
      · exact hne h.rows
      · exact hne (by rw [htotal, Nat.zero_add])
      · rw [hvars] at hne
        cases hne
      · rw [horder] at hne
        cases hne
    unfold ekfUpdate
    rw [if_neg hguard]
    dsimp only
    rw [← hproposal]
    unfold finishUpdate
    rw [if_neg (by rw [Kernels.foundNeg, hdiagonal]; exact Bool.false_ne_true)]
    exact if_pos hcameras
  · -- the commit accepts it: the posterior is symmetric with a nonnegative diagonal
    have hsizes : ¬ (st.cov.rows = 0 ∨ st.cov.cols ≠ st.cov.rows ∨ dx.rows ≠ st.cov.rows ∨ dx.cols ≠ 1 ∨
        P_plus.rows ≠ st.cov.rows ∨ P_plus.cols ≠ st.cov.rows ∨ k.allFinite dx = false ∨
        k.allFinite P_plus = false) := by
      rintro (hz | hne | hne | hne | hne | hne | hne | hne)
      · exact h.state_pos hz
      · exact hne h.square
      · exact hne hdxsize.1
      · exact hne hdxsize.2
      · exact hne hPsize.1
      · exact hne hPsize.2
      · rw [h.dx_finite] at hne
        cases hne
      · rw [h.posterior_finite] at hne
        cases hne
    have haccepts : CovariancePolicy.legacyNonnegativeDiagonal.accepts k P_plus = true := by
      unfold CovariancePolicy.accepts
      dsimp only
      rw [symmetryError_eq_zero hk hsymmetric h.posterior_finite, hk.scale, hdiagonal]
      rfl
    unfold commitPrecomputedUpdate
    rw [if_neg hsizes, if_neg fun hne => hne hcontiguous, haccepts, hcameras]
    rfl
  · rw [hfields.2]
    exact foldl_update k.rotate st.vars st.heap hnodup
  · rw [computeMeanFromSnapshot_ok hmean, h.dx_eq]

end Live

/-! ## A pose and a scalar -/

theorem finiteOrder_exactKernels (llt : Dense ℝ → LLT ℝ) (rotate : List ℝ → List ℝ → List ℝ)
    (eigenvalues : Dense ℝ → Option (ℝ × ℝ)) : (exactKernels llt rotate eigenvalues).FiniteOrder where
  zero_finite := rfl
  irrefl a _ := decide_eq_false (lt_irrefl a)
  trans _ _ _ _ _ _ hab hbc :=
    decide_eq_true ((of_decide_eq_true hab).trans (of_decide_eq_true hbc))
  cotrans a b c _ _ _ hac := by
    rcases lt_or_ge a b with hab | hba
    · exact .inl (decide_eq_true hab)
    · exact .inr (decide_eq_true (hba.trans_lt (of_decide_eq_true hac)))
  abs_sub_self a _ := by
    change |a - a| = 0
    rw [sub_self, abs_zero]
  scale b := by
    refine decide_eq_false (not_lt.mpr ?_)
    change 0 ≤ 1 / 10 ^ 10 * (if decide ((1 : ℝ) < b) = true then b else 1)
    split
    · rename_i hb
      have := (of_decide_eq_true hb : (1 : ℝ) < b)
      positivity
    · positivity

noncomputable def plainKernels : Kernels ℝ := exactKernels inverseFactorization (fun _ q => q) fun _ => none

def posedState : State ℝ where
  options := ⟨.kalibr, false, false, false, false, false, 1, 11, 1024⟩
  timestamp := 0
  imu := constructedImu
  calibDt := 12
  clonesIMU := []
  featuresSLAM := []
  camIntrinsics := []
  cameras := []
  cov := Dense.scaledIdentity 7 1
  vars := [.poseJPL ⟨0, 1, 2⟩, .vec 3 1]
  heap := { cells := fun x => { id := [0, 0, 3, 6].getD x (-1) }, next := 4 }

/-- A row over the scalar and the position of the pose, against their order in the state. -/
theorem compute_eq_live_posed : ∃ dx P_plus updated,
    ekfUpdate plainKernels posedState [.vec 3 1, .vec 2 3] (.ofFn 1 4 fun _ j => j + 1)
      (.ofFn 1 1 fun _ _ => 3) (Dense.scaledIdentity 1 (1 ^ 2)) = some updated ∧
    commitPrecomputedUpdate plainKernels posedState dx P_plus .legacyNonnegativeDiagonal = some updated := by
  have hin : PreviewInput (captureSnapshot posedState) (layoutFrom posedState 0 [.vec 3 1, .vec 2 3])
      (.ofFn 1 4 fun _ j => j + 1) (.ofFn 1 1 fun _ _ => 3) (Dense.scaledIdentity 1 (1 ^ 2)) :=
    { state_pos := show 0 < 7 by decide
      square := rfl
      measured_pos := Nat.zero_lt_one
      rows := rfl
      cols_pos := show 0 < 4 by decide
      noise_rows := rfl
      noise_cols := rfl
      blocks := rfl
      layout := rfl }
  have hcov : Dense.toMatrix 7 7 (captureSnapshot posedState).covariance = 1 := by
    have hscale := @Dense.toMatrix_scaledIdentity ℝ _ 7 1
    rwa [one_smul] at hscale
  have hsymmetric : (captureSnapshot posedState).covariance.Symmetric := by
    refine Dense.symmetric_of_toMatrix (n := 7) rfl rfl ?_
    rw [hcov, Matrix.transpose_one]
  have hposterior : ∀ F : Matrix (Fin 1) (Fin 7) ℝ, (kalmanPosterior 1 F 1).PosSemidef := by
    intro F
    have hpsd := posSemidef_squareRoot_posterior (1 : Matrix (Fin 7) (Fin 7) ℝ) ((1 : ℝ)⁻¹ • (F * (1 : Matrix (Fin 7) (Fin 7) ℝ)))
    rw [squareRoot_posterior (1 : Matrix (Fin 7) (Fin 7) ℝ) F one_ne_zero (isUnit_det_normal _),
      Matrix.transpose_one, Matrix.mul_one] at hpsd
    exact hpsd
  obtain ⟨dx, P_plus, hcompute, -⟩ := @computeFromSnapshot_exact inverseFactorization (fun _ q => q)
    (fun _ => none) _ _ _ _ 1 solves_inverseFactorization hsymmetric hin one_pos
    (hcov ▸ Matrix.PosSemidef.one) (hcov ▸ hposterior _)
  obtain ⟨updated, hlive, hcommit, -⟩ := compute_eq_live (finiteOrder_exactKernels _ _ _) rfl hcompute
  exact ⟨dx, P_plus, updated, hlive, hcommit⟩

end Bravo.Filter
