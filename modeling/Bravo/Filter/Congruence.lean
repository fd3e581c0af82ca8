import Bravo.Basic.Numerals
import Bravo.Filter.Construct
import Bravo.Filter.Propagation
import Mathlib.Algebra.Order.Star.Real
import Mathlib.LinearAlgebra.Matrix.PosDef

/-! # Propagation and augmentation are congruences

`EKFPropagation` replaces the covariance `P` by `A P A^T + E Q E^T` and `augment_clone` replaces it by
`B P B^T`, whatever the layout of the variables. So both keep it symmetric and positive semidefinite.
-/

namespace Bravo.Filter

open Bravo.Linear Matrix List Dense

/-! ## The transition -/

section Transition

variable {K : Type} [Field K]

/-- The identity, but for `p` rows that are those of `Phi` on the coordinates of `order_OLD`. -/
def transition (st : State K) (start p : Nat) (order_OLD : List Var) (Phi : Dense K) (n : Nat) :
    Matrix (Fin n) (Fin n) K := fun i k =>
  if start ≤ i.val ∧ i.val < start + p then
    ∑ c ∈ Finset.range (sizeOfVars order_OLD),
      if st.pos order_OLD c = k.val then Phi.coeff (i - start) c else 0
  else if i = k then 1 else 0

/-- The `p` coordinates from `start` on. -/
def embedding (start p n : Nat) : Matrix (Fin n) (Fin p) K := fun i a =>
  if i.val = start + a.val then 1 else 0

def transitionRow (st : State K) (start p : Nat) (order_OLD : List Var) (Phi : Dense K) (i : Nat)
    (f : Nat → K) : K :=
  if start ≤ i ∧ i < start + p then
    ∑ c ∈ Finset.range (sizeOfVars order_OLD), Phi.coeff (i - start) c * f (st.pos order_OLD c)
  else f i

def embeddingRow (start p i : Nat) (f : Nat → K) : K :=
  if start ≤ i ∧ i < start + p then f (i - start) else 0

variable {st : State K} {start p n : Nat} {order_OLD : List Var} {Phi : Dense K}

theorem sum_ite_eq_val {n x : Nat} (hx : x < n) (c : K) (f : Nat → K) :
    ∑ k : Fin n, (if x = k.val then c else 0) * f k = c * f x := by
  rw [Finset.sum_eq_single ⟨x, hx⟩]
  · rw [if_pos rfl]
  · intro k _ hne
    rw [if_neg (fun h => hne (Fin.ext h.symm)), zero_mul]
  · exact fun h => absurd (Finset.mem_univ _) h

theorem sum_transition (hpos : ∀ c < sizeOfVars order_OLD, st.pos order_OLD c < n) (i : Fin n)
    (f : Nat → K) :
    ∑ k : Fin n, transition st start p order_OLD Phi n i k * f k =
      transitionRow st start p order_OLD Phi i f := by
  unfold transition transitionRow
  by_cases hin : start ≤ i.val ∧ i.val < start + p
  · simp only [if_pos hin, Finset.sum_mul]
    rw [Finset.sum_comm]
    refine Finset.sum_congr rfl fun c hc => ?_
    exact sum_ite_eq_val (hpos c (Finset.mem_range.mp hc)) _ f
  · simp only [if_neg hin]
    have hone := sum_ite_eq_val i.isLt (1 : K) f
    rw [one_mul] at hone
    rw [← hone]
    refine Finset.sum_congr rfl fun k _ => ?_
    simp only [Fin.ext_iff]

theorem sum_embedding (i : Fin n) (f : Nat → K) :
    ∑ a : Fin p, embedding start p n i a * f a = embeddingRow start p i f := by
  unfold embedding embeddingRow
  by_cases hin : start ≤ i.val ∧ i.val < start + p
  · rw [if_pos hin]
    have hone := sum_ite_eq_val (show i.val - start < p by omega) (1 : K) f
    rw [one_mul] at hone
    rw [← hone]
    refine Finset.sum_congr rfl fun a _ => ?_
    have hiff : i.val = start + a.val ↔ i.val - start = a.val := by omega
    simp only [hiff]
  · rw [if_neg hin]
    refine Finset.sum_eq_zero fun a _ => ?_
    rw [if_neg (by omega), zero_mul]

theorem toMatrix_propagatedCov {Q : Dense K} (hP : st.cov.Symmetric)
    (hQrows : Q.rows = Phi.rows) (hQ : Q.Symmetric)
    (hpos : ∀ c < sizeOfVars order_OLD, st.pos order_OLD c < st.cov.rows) :
    Dense.toMatrix st.cov.rows st.cov.rows (propagatedCov st start order_OLD Phi Q) =
      transition st start Phi.rows order_OLD Phi st.cov.rows *
          Dense.toMatrix st.cov.rows st.cov.rows st.cov *
          (transition st start Phi.rows order_OLD Phi st.cov.rows)ᵀ +
        (embedding start Phi.rows st.cov.rows : Matrix _ _ K) * Dense.toMatrix Phi.rows Phi.rows Q *
          (embedding start Phi.rows st.cov.rows : Matrix _ _ K)ᵀ := by
  have hQcols : Q.cols = Phi.rows := hQ.square ▸ hQrows
  ext i j
  rw [Matrix.add_apply,
    congruence_apply (fun i f => transitionRow st start Phi.rows order_OLD Phi i f)
      (sum_transition hpos),
    congruence_apply (fun i f => embeddingRow start Phi.rows i f) sum_embedding]
  change (propagatedCov st start order_OLD Phi Q).coeff i j = _
  rw [coeff_propagatedCov hP.square ⟨hQrows, hQcols⟩ i.isLt j.isLt]
  simp only [transitionRow, embeddingRow]
  by_cases hi : start ≤ i.val ∧ i.val < start + Phi.rows
  · have ha : i.val - start < Phi.rows := by omega
    by_cases hj : start ≤ j.val ∧ j.val < start + Phi.rows
    · -- Both in the new variables: `Phi P Phi^T + Q`.
      have hb : j.val - start < Phi.rows := by omega
      have hmirror : Q.mirrorUpper.coeff (i.val - start) (j.val - start) =
          Q.coeff (i.val - start) (j.val - start) := by
        rw [coeff_mirrorUpper (hQrows ▸ ha) (hQcols ▸ hb)]
        split
        · rfl
        · exact hQ.coeff_comm' _ _
      simp only [if_pos hi, if_pos hj]
      rw [coeff_phiCovPhiT ⟨hQrows, hQcols⟩ ha hb, hmirror, add_comm]
      congr 1
      simp only [Finset.mul_sum]
      rw [Finset.sum_comm]
      refine Finset.sum_congr rfl fun c hc => ?_
      rw [coeff_covPhiT (hpos c (Finset.mem_range.mp hc)) hb, Finset.mul_sum]
      exact Finset.sum_congr rfl fun d _ => by ring
    · simp only [if_pos hi, if_neg hj, add_zero]
      rw [coeff_covPhiT j.isLt ha]
      refine Finset.sum_congr rfl fun c _ => ?_
      rw [hP.coeff_comm', mul_comm]
  · by_cases hj : start ≤ j.val ∧ j.val < start + Phi.rows
    · have hb : j.val - start < Phi.rows := by omega
      simp only [if_neg hi, if_pos hj, add_zero]
      rw [coeff_covPhiT i.isLt hb]
      exact Finset.sum_congr rfl fun c _ => mul_comm _ _
    · simp only [if_neg hi, if_neg hj, add_zero]

end Transition

/-! ## The clone -/

section Clone

variable {K : Type} [Field K]

/-- Where a coordinate of the grown covariance comes from. -/
def clonedFrom (n oldLoc i : Nat) : Nat := if i < n then i else oldLoc + (i - n)

theorem coeff_clonedCorner {cov : Dense K} {oldLoc size a b : Nat}
    (hfits : oldLoc + size ≤ cov.rows) (ha : a < cov.rows + size) (hb : b < cov.rows + size) :
    (clonedCorner cov oldLoc size).coeff a b =
      if cov.rows ≤ a ∧ cov.rows ≤ b then
        cov.coeff (oldLoc + (a - cov.rows)) (oldLoc + (b - cov.rows))
      else cov.coeff a b := by
  unfold clonedCorner
  rw [coeff_setBlock (by exact ha) (by exact hb), rows_block, cols_block,
    coeff_resize ha hb]
  by_cases hin : cov.rows ≤ a ∧ cov.rows ≤ b
  · rw [if_pos (by omega), if_pos hin, coeff_block (by omega) (by omega),
      coeff_resize (by omega) (by omega)]
  · rw [if_neg (by omega), if_neg hin]

theorem coeff_clonedColumns {cov : Dense K} {oldLoc size a b : Nat}
    (hfits : oldLoc + size ≤ cov.rows) (ha : a < cov.rows + size) (hb : b < cov.rows + size) :
    (clonedColumns cov oldLoc size).coeff a b =
      if cov.rows ≤ b then
        cov.coeff (clonedFrom cov.rows oldLoc a) (oldLoc + (b - cov.rows))
      else cov.coeff a b := by
  unfold clonedColumns clonedFrom
  rw [coeff_setBlock (by exact ha) (by exact hb), rows_block, cols_block,
    coeff_clonedCorner hfits ha hb]
  by_cases hcol : cov.rows ≤ b
  · rw [if_pos hcol]
    by_cases hrow : a < cov.rows
    · rw [if_pos (by omega), if_pos hrow, coeff_block (by omega) (by omega), Nat.sub_zero,
        coeff_clonedCorner hfits (by omega) (by omega), if_neg (by omega), Nat.zero_add]
    · rw [if_neg (by omega), if_neg hrow, if_pos (by omega)]
  · rw [if_neg (by omega), if_neg hcol, if_neg (by omega)]

theorem coeff_clonedCov {cov : Dense K} {oldLoc size i j : Nat}
    (hfits : oldLoc + size ≤ cov.rows) (hi : i < cov.rows + size) (hj : j < cov.rows + size) :
    (clonedCov cov oldLoc size).coeff i j =
      cov.coeff (clonedFrom cov.rows oldLoc i) (clonedFrom cov.rows oldLoc j) := by
  unfold clonedCov
  rw [coeff_setBlock (by exact hi) (by exact hj), rows_block, cols_block,
    coeff_clonedColumns hfits hi hj]
  unfold clonedFrom
  by_cases hcol : cov.rows ≤ j
  · rw [if_neg (by omega), if_pos hcol, if_neg (Nat.not_lt.mpr hcol)]
  · by_cases hrow : i < cov.rows
    · rw [if_neg (by omega), if_neg hcol, if_pos hrow, if_pos (Nat.lt_of_not_le hcol)]
    · rw [if_pos (by omega), if_neg hrow, if_pos (Nat.lt_of_not_le hcol),
        coeff_block (by omega) (by omega), Nat.sub_zero,
        coeff_clonedColumns hfits (by omega) (by omega), if_neg (by omega), Nat.zero_add]

theorem coeff_offsetCov {cov : Dense K} {loc dt i j : Nat} {dnc : Nat → K}
    (hsquare : cov.rows = cov.cols) (hloc : loc + 6 = cov.rows) (hdt : dt < loc)
    (hi : i < cov.rows) (hj : j < cov.rows) :
    (offsetCov cov loc dt dnc).coeff i j =
      (if loc ≤ j then cov.coeff i j + cov.coeff i dt * dnc (j - loc) else cov.coeff i j) +
        if loc ≤ i then
          dnc (i - loc) *
            (if loc ≤ j then cov.coeff dt j + cov.coeff dt dt * dnc (j - loc) else cov.coeff dt j)
        else 0 := by
  have hj' : j < cov.cols := hsquare ▸ hj
  -- What the first write leaves in the columns of the clone.
  have hcolumns : ∀ a, a < cov.rows →
      (cov.setBlock 0 loc (.ofFn cov.rows 6 fun i a =>
        cov.coeff i (loc + a) + cov.coeff i dt * dnc a)).coeff a j =
      if loc ≤ j then cov.coeff a j + cov.coeff a dt * dnc (j - loc) else cov.coeff a j := by
    intro a ha
    rw [coeff_setBlock ha hj']
    by_cases hcol : loc ≤ j
    · rw [if_pos (by simp only [rows_ofFn, cols_ofFn]; omega), if_pos hcol,
        coeff_ofFn (by omega) (by omega), Nat.sub_zero]
      congr 2
      omega
    · rw [if_neg (by simp only [rows_ofFn, cols_ofFn]; omega), if_neg hcol]
  unfold offsetCov
  rw [coeff_setBlock (by exact hi) (by exact hj'), hcolumns i hi]
  by_cases hrow : loc ≤ i
  · rw [if_pos (by simp only [rows_ofFn, cols_ofFn]; omega), if_pos hrow,
      coeff_ofFn (by omega) (by omega)]
    have hback : loc + (i - loc) = i := by omega
    rw [hback, Nat.sub_zero, hcolumns i hi, hcolumns dt (by omega)]
  · rw [if_neg (by simp only [rows_ofFn, cols_ofFn]; omega), if_neg hrow, add_zero]

end Clone

/-! ## Finding a variable -/

section Find

theorem Var.ptr_of_check {top v : Var} {check : Ptr} (hnodup : top.ptrs.Nodup)
    (h : top.checkIfSubvariable check = some v) : v.ptr = check ∧ top.ptr ≠ check := by
  cases top with
  | vec => cases h
  | jplQuat => cases h
  | poseJPL x =>
    simp only [Var.ptrs, Var.parts, map_cons, map_nil, nodup_cons, mem_cons,
      not_mem_nil, or_false, not_or] at hnodup
    simp only [Var.checkIfSubvariable, PoseJPL.checkIfSubvariable] at h
    grind [Var.ptr]
  | imu x =>
    simp only [Var.ptrs, Var.parts, map_cons, map_nil, nodup_cons, mem_cons,
      not_mem_nil, or_false, not_or] at hnodup
    simp only [Var.checkIfSubvariable, IMU.checkIfSubvariable, PoseJPL.checkIfSubvariable] at h
    grind [Var.ptr]

theorem checkIfSubvariable_of_notMem {top : Var} {check : Ptr} (hnodup : top.ptrs.Nodup)
    (h : check ∉ top.ptrs) : top.checkIfSubvariable check = none := by
  cases hfound : top.checkIfSubvariable check with
  | none => rfl
  | some part =>
    obtain ⟨offset, hpart, -, -⟩ := Var.part_of_check hfound
    have hptr := (Var.ptr_of_check hnodup hfound).1
    exact absurd (mem_map.mpr ⟨_, hpart, hptr⟩) h

theorem findVariable_of_includes {vars : List Var} {top v : Var}
    (hnodup : (vars.flatMap Var.ptrs).Nodup) (htop : top ∈ vars) (hsize : 0 < top.size)
    (hv : top.Includes v) : findVariable vars v.ptr = some v := by
  obtain ⟨offset, hpart, -, -⟩ := hv.part hsize
  have hmem : v.ptr ∈ top.ptrs := mem_map.mpr ⟨_, hpart, rfl⟩
  induction vars with
  | nil => cases htop
  | cons w rest ih =>
    rw [flatMap_cons, nodup_append'] at hnodup
    obtain ⟨hw, hrest, hdisjoint⟩ := hnodup
    rcases mem_cons.mp htop with rfl | htop
    · unfold findVariable
      rw [findSome?_cons]
      rcases hv with rfl | hv
      · simp
      · have hne := (Var.ptr_of_check hw hv).2
        simp [hne, hv]
    · -- The variables in front do not own the address.
      have hout : v.ptr ∉ w.ptrs := fun hin =>
        hdisjoint hin (mem_flatMap.mpr ⟨top, htop, hmem⟩)
      have hne : w.ptr ≠ v.ptr := fun heq => hout (heq ▸ w.ptr_mem_ptrs)
      have hnone := checkIfSubvariable_of_notMem hw hout
      have hfound := ih hrest htop
      unfold findVariable at hfound ⊢
      rw [findSome?_cons, if_neg hne, hnone]
      exact hfound

variable {K : Type} [Zero K] {st : State K}

theorem Laid.findVariable (hl : Laid st) {v : Var} (hv : st.Holds v) :
    findVariable st.vars v.ptr = some v := by
  obtain ⟨top, htop, hincludes⟩ := hv
  obtain ⟨-, -, -, -, hsize⟩ := hl.contiguous.range htop
  exact findVariable_of_includes hl.nodup htop hsize hincludes

theorem Laid.ptr_lt (hl : Laid st) {v : Var} (hv : st.Holds v) : v.ptr < st.heap.next := by
  obtain ⟨top, htop, hincludes⟩ := hv
  obtain ⟨-, -, -, -, hsize⟩ := hl.contiguous.range htop
  obtain ⟨offset, hpart, -, -⟩ := hincludes.part hsize
  exact hl.allocated _ (mem_flatMap.mpr ⟨top, htop, mem_map.mpr ⟨_, hpart, rfl⟩⟩)

end Find

/-! ## The augmentation -/

section Augmentation

variable {K : Type} [Field K]

/-- The rows of the clone: those of the pose, and the time offset times its Jacobian. -/
def augmentation (st : State K) (last_w : Fin 3 → K) (n : Nat) : Matrix (Fin (n + 6)) (Fin n) K :=
  fun i k =>
    if i.val < n then if i.val = k.val then 1 else 0
    else
      (if st.at (.poseJPL st.imu.pose) + (i.val - n) = k.val then 1 else 0) +
        if st.options.doCalibCameraTimeoffset then
          if st.at (.vec st.calibDt 1) = k.val then
            dncDt last_w (st.heap.value st.imu.v) (i.val - n)
          else 0
        else 0

def augmentationRow (st : State K) (last_w : Fin 3 → K) (n i : Nat) (f : Nat → K) : K :=
  if i < n then f i
  else
    f (st.at (.poseJPL st.imu.pose) + (i - n)) +
      if st.options.doCalibCameraTimeoffset then
        dncDt last_w (st.heap.value st.imu.v) (i - n) * f (st.at (.vec st.calibDt 1))
      else 0

variable {st : State K} {last_w : Fin 3 → K} {n : Nat}

theorem sum_augmentation (hpose : st.at (.poseJPL st.imu.pose) + 6 ≤ n)
    (hdt : st.options.doCalibCameraTimeoffset = true → st.at (.vec st.calibDt 1) < n)
    (i : Fin (n + 6)) (f : Nat → K) :
    ∑ k : Fin n, augmentation st last_w n i k * f k = augmentationRow st last_w n i f := by
  unfold augmentation augmentationRow
  by_cases hi : i.val < n
  · simp only [if_pos hi]
    simpa using sum_ite_eq_val hi (1 : K) f
  · simp only [if_neg hi, add_mul, Finset.sum_add_distrib]
    congr 1
    · simpa using sum_ite_eq_val (show st.at (.poseJPL st.imu.pose) + (i.val - n) < n by omega)
        (1 : K) f
    · by_cases hoffset : st.options.doCalibCameraTimeoffset = true
      · simp only [if_pos hoffset]
        exact sum_ite_eq_val (hdt hoffset) _ f
      · simp only [if_neg hoffset, zero_mul, Finset.sum_const_zero]

theorem clone_of_holds (hl : Laid st) {v : Var} (hv : st.Holds v) :
    clone st v = some ((v.clone st.heap).1, { st with
      cov := clonedCov st.cov (st.at v) v.size
      heap := (v.clone st.heap).1.setLocalId st.cov.rows (v.clone st.heap).2
      vars := st.vars ++ [(v.clone st.heap).1] }) := by
  have hrange : st.inRange [v] = true := hl.inRange fun w hw => by
    rw [mem_singleton.mp hw]
    exact hv
  unfold clone
  rw [hl.findVariable hv]
  simp [hrange]

/-- The covariance that `augment_clone` leaves. -/
def augmentedCov (st : State K) (last_w : Fin 3 → K) : Dense K :=
  let cloned := clonedCov st.cov (st.at (.poseJPL st.imu.pose)) 6
  if st.options.doCalibCameraTimeoffset then
    offsetCov cloned st.cov.rows (st.at (.vec st.calibDt 1))
      (dncDt last_w (st.heap.value st.imu.v))
  else cloned

theorem size_augmentedCov : (augmentedCov st last_w).rows = st.cov.rows + 6 ∧
    (augmentedCov st last_w).cols = st.cov.rows + 6 := by
  unfold augmentedCov
  split <;> exact ⟨rfl, rfl⟩

theorem toMatrix_augmentedCov (hpose : st.at (.poseJPL st.imu.pose) + 6 ≤ st.cov.rows)
    (hdt : st.options.doCalibCameraTimeoffset = true → st.at (.vec st.calibDt 1) < st.cov.rows) :
    Dense.toMatrix (st.cov.rows + 6) (st.cov.rows + 6) (augmentedCov st last_w) =
      augmentation st last_w st.cov.rows * Dense.toMatrix st.cov.rows st.cov.rows st.cov *
        (augmentation st last_w st.cov.rows)ᵀ := by
  ext i j
  rw [congruence_apply (fun i f => augmentationRow st last_w st.cov.rows i f)
    (sum_augmentation hpose hdt)]
  change (augmentedCov st last_w).coeff i j = _
  have hcloned : ∀ a b, a < st.cov.rows + 6 → b < st.cov.rows + 6 →
      (clonedCov st.cov (st.at (.poseJPL st.imu.pose)) 6).coeff a b =
        st.cov.coeff (clonedFrom st.cov.rows (st.at (.poseJPL st.imu.pose)) a)
          (clonedFrom st.cov.rows (st.at (.poseJPL st.imu.pose)) b) :=
    fun a b ha hb => coeff_clonedCov hpose ha hb
  unfold augmentedCov
  simp only [augmentationRow]
  by_cases hoffset : st.options.doCalibCameraTimeoffset = true
  · have hdtlt := hdt hoffset
    simp only [if_pos hoffset]
    rw [coeff_offsetCov rfl rfl hdtlt i.isLt j.isLt, hcloned i j i.isLt j.isLt,
      hcloned i _ i.isLt (by omega), hcloned _ j (by omega) j.isLt, hcloned _ _ (by omega) (by omega)]
    have hdtfrom : clonedFrom st.cov.rows (st.at (.poseJPL st.imu.pose)) (st.at (.vec st.calibDt 1)) =
        st.at (.vec st.calibDt 1) := if_pos hdtlt
    rw [hdtfrom]
    unfold clonedFrom
    -- The four blocks, by where the row and the column stand.
    by_cases hi : i.val < st.cov.rows <;> by_cases hj : j.val < st.cov.rows
    · simp only [if_pos hi, if_pos hj, if_neg (Nat.not_le.mpr hi), if_neg (Nat.not_le.mpr hj), add_zero]
    · simp only [if_pos hi, if_neg hj, if_neg (Nat.not_le.mpr hi), if_pos (Nat.le_of_not_lt hj)]
      ring
    · simp only [if_neg hi, if_pos hj, if_pos (Nat.le_of_not_lt hi), if_neg (Nat.not_le.mpr hj)]
    · simp only [if_neg hi, if_neg hj, if_pos (Nat.le_of_not_lt hi), if_pos (Nat.le_of_not_lt hj)]
      ring
  · simp only [if_neg hoffset, add_zero]
    rw [hcloned i j i.isLt j.isLt]
    unfold clonedFrom
    by_cases hi : i.val < st.cov.rows <;> by_cases hj : j.val < st.cov.rows
    · simp only [if_pos hi, if_pos hj]
    · simp only [if_pos hi, if_neg hj]
    · simp only [if_neg hi, if_pos hj]
    · simp only [if_neg hi, if_neg hj]

variable [LinearOrder K]

theorem augmentClone_eq (hl : Laid st) (hpose : st.Holds (.poseJPL st.imu.pose))
    (hv : st.imu.v < st.heap.next)
    (hdt : st.options.doCalibCameraTimeoffset = true → st.Holds (.vec st.calibDt 1))
    (htime : ∀ clone ∈ st.clonesIMU, clone.1 ≠ st.timestamp) :
    ∃ heap vars clones, augmentClone st last_w = some { st with
      cov := augmentedCov st last_w, heap := heap, vars := vars, clonesIMU := clones } := by
  have hnone : (st.clonesIMU.any fun clone => clone.1 == st.timestamp) = false := by
    rw [any_eq_false]
    intro clone hclone
    simpa using htime clone hclone
  -- The copy and the heap with its ids.
  set copy : PoseJPL := ⟨st.heap.next, st.heap.next + 1, st.heap.next + 2⟩ with hcopy
  set made := ((Var.poseJPL st.imu.pose).clone st.heap).2 with hmade
  set heap := (Var.poseJPL copy).setLocalId st.cov.rows made with hheap
  have hid : heap.id copy.ptr = st.cov.rows :=
    Var.id_ptr_setLocalId (v := .poseJPL copy)
      ((Var.poseJPL st.imu.pose).nodup_ptrs_allocate st.heap.next) (by omega)
  have hold : ∀ x : Nat, x < st.heap.next →
      heap.id x = st.heap.id x ∧ heap.value x = st.heap.value x := by
    intro x hx
    have hout : x ∉ (Var.poseJPL copy).ptrs := fun hin =>
      Nat.not_lt.mpr ((Var.poseJPL st.imu.pose).mem_ptrs_allocate.mp hin).1 hx
    rw [hheap, Var.id_setLocalId_of_notMem hout, Var.value_setLocalId, hmade, Var.id_clone hx,
      Var.value_clone hx]
    exact ⟨rfl, rfl⟩
  have hclone : clone st (.poseJPL st.imu.pose) = some (.poseJPL copy, { st with
      cov := clonedCov st.cov (st.at (.poseJPL st.imu.pose)) 6
      heap := heap
      vars := st.vars ++ [.poseJPL copy] }) := clone_of_holds hl hpose
  refine ⟨heap, st.vars ++ [.poseJPL copy], insertClone st.timestamp copy st.clonesIMU, ?_⟩
  unfold augmentClone
  rw [hnone, hclone]
  by_cases hoffset : st.options.doCalibCameraTimeoffset = true
  · obtain ⟨hdtid, hdtfits, -⟩ := hl.holds_range (hdt hoffset)
    have hdtlt : st.at (.vec st.calibDt 1) < st.cov.rows := hdtfits
    have hdtptr : st.calibDt < st.heap.next := hl.ptr_lt (hdt hoffset)
    have hdtheap : heap.id st.calibDt = st.at (.vec st.calibDt 1) :=
      ((hold _ hdtptr).1).trans hdtid
    have hrows : (clonedCov st.cov (st.at (.poseJPL st.imu.pose)) 6).rows = st.cov.rows + 6 := rfl
    simp only [Bool.false_eq_true, if_false, hoffset, if_true, hdtheap, hid, hrows,
      (hold _ hv).2, augmentedCov, Int.toNat_natCast]
    rw [if_neg (by omega)]
  · simp only [Bool.false_eq_true, if_false, hoffset, augmentedCov]

end Augmentation

/-! ## Both functions -/

section Real

theorem symmetric_congruence {m n : Nat} (A : Matrix (Fin m) (Fin n) ℝ) {P : Matrix (Fin n) (Fin n) ℝ}
    (hP : Pᵀ = P) : (A * P * Aᵀ)ᵀ = A * P * Aᵀ := by
  rw [transpose_mul, transpose_mul, transpose_transpose, hP, Matrix.mul_assoc]

theorem posSemidef_congruence {m n : Nat} (A : Matrix (Fin m) (Fin n) ℝ)
    {P : Matrix (Fin n) (Fin n) ℝ} (hP : P.PosSemidef) : (A * P * Aᵀ).PosSemidef := by
  have hcongruence := hP.mul_mul_conjTranspose_same A
  rwa [conjTranspose_eq_transpose_of_trivial] at hcongruence

theorem foundNeg_of_posSemidef {n : Nat} {M : Dense ℝ} (hrows : M.rows = n)
    (hM : (Dense.toMatrix n n M).PosSemidef) : foundNeg M = false := by
  refine any_eq_false.mpr fun x hx => ?_
  obtain ⟨i, hi, rfl⟩ := mem_map.mp hx
  have hlt : i < n := hrows ▸ mem_range.mp hi
  have hdiag : 0 ≤ M.coeff i i := hM.diag_nonneg (i := ⟨i, hlt⟩)
  simpa using hdiag

variable {st : State ℝ}

/-- `EKFPropagation` replaces `P` by `A P A^T + E Q E^T`; it ends the program exactly when that has a
negative diagonal entry. Symmetry and positive semidefiniteness are kept, and then it does not. -/
theorem ekfPropagation_congruence (hl : Laid st) (hP : st.cov.Symmetric) {first : Var}
    {rest order_OLD : List Var} {Phi Q : Dense ℝ} (hNEW : ∀ v ∈ first :: rest, st.Holds v)
    (hconsecutive : st.consecutive (first :: rest) = true) (hnonempty : order_OLD ≠ [])
    (hOLD : ∀ v ∈ order_OLD, st.Holds v) (hrows : Phi.rows = sizeOfVars (first :: rest))
    (hcols : Phi.cols = sizeOfVars order_OLD) (hQrows : Q.rows = Phi.rows) (hQ : Q.Symmetric) :
    ∃ cov : Dense ℝ, cov.rows = st.cov.rows ∧ cov.cols = st.cov.rows ∧
      Dense.toMatrix st.cov.rows st.cov.rows cov =
        transition st (st.at first) Phi.rows order_OLD Phi st.cov.rows *
            Dense.toMatrix st.cov.rows st.cov.rows st.cov *
            (transition st (st.at first) Phi.rows order_OLD Phi st.cov.rows)ᵀ +
          (embedding (st.at first) Phi.rows st.cov.rows : Matrix _ _ ℝ) *
            Dense.toMatrix Phi.rows Phi.rows Q *
            (embedding (st.at first) Phi.rows st.cov.rows : Matrix _ _ ℝ)ᵀ ∧
      ekfPropagation st (first :: rest) order_OLD Phi Q =
        (if foundNeg cov then none else some { st with cov := cov }) ∧
      cov.Symmetric ∧
      ((toMatrix st.cov.rows st.cov.rows st.cov).PosSemidef →
        (toMatrix Phi.rows Phi.rows Q).PosSemidef →
          (toMatrix st.cov.rows st.cov.rows cov).PosSemidef ∧ foundNeg cov = false) := by
  have hpos : ∀ c < sizeOfVars order_OLD, st.pos order_OLD c < st.cov.rows :=
    fun c hc => hl.pos_lt hOLD hc
  have hmatrix := @toMatrix_propagatedCov ℝ _ st (st.at first) order_OLD Phi Q hP hQrows hQ hpos
  refine ⟨propagatedCov st (st.at first) order_OLD Phi Q, rfl, hl.square.symm, hmatrix, ?_, ?_, ?_⟩
  · unfold ekfPropagation
    have hempty : (order_OLD.isEmpty || !st.consecutive (first :: rest)) = false := by
      simp [hconsecutive, hnonempty]
    have hsizes : ¬ (sizeOfVars (first :: rest) ≠ Phi.rows ∨ sizeOfVars order_OLD ≠ Phi.cols ∨
        sizeOfVars (first :: rest) ≠ Q.cols ∨ sizeOfVars (first :: rest) ≠ Q.rows ∨
        st.inRange (first :: rest) = false ∨ st.inRange order_OLD = false) := by
      have hnew := hl.inRange hNEW
      have hold := hl.inRange hOLD
      have hQcols := hQ.square
      rw [hnew, hold]
      simp only [Bool.true_eq_false, or_false]
      omega
    simp only [hempty, Bool.false_eq_true, if_false, if_neg hsizes]
  · refine symmetric_of_toMatrix (n := st.cov.rows) rfl hl.square.symm ?_
    rw [hmatrix, transpose_add, symmetric_congruence _ (hP.toMatrix_transpose _),
      symmetric_congruence _ (hQ.toMatrix_transpose _)]
  · intro hprior hnoise
    have hsum := (posSemidef_congruence
      (transition st (st.at first) Phi.rows order_OLD Phi st.cov.rows) hprior).add
        (posSemidef_congruence (embedding (st.at first) Phi.rows st.cov.rows) hnoise)
    rw [← hmatrix] at hsum
    exact ⟨hsum, foundNeg_of_posSemidef rfl hsum⟩

theorem augmentClone_congruence (hl : Laid st) (hP : st.cov.Symmetric)
    (himu : .imu st.imu ∈ st.vars) {last_w : Fin 3 → ℝ}
    (hdt : st.options.doCalibCameraTimeoffset = true → st.Holds (.vec st.calibDt 1))
    (htime : ∀ clone ∈ st.clonesIMU, clone.1 ≠ st.timestamp) :
    ∃ st', augmentClone st last_w = some st' ∧ st'.cov.rows = st.cov.rows + 6 ∧
      st'.cov.cols = st.cov.rows + 6 ∧
      Dense.toMatrix (st.cov.rows + 6) (st.cov.rows + 6) st'.cov =
        augmentation st last_w st.cov.rows * Dense.toMatrix st.cov.rows st.cov.rows st.cov *
          (augmentation st last_w st.cov.rows)ᵀ ∧
      st'.cov.Symmetric ∧
      ((Dense.toMatrix st.cov.rows st.cov.rows st.cov).PosSemidef →
        (Dense.toMatrix (st.cov.rows + 6) (st.cov.rows + 6) st'.cov).PosSemidef) := by
  have hpose : st.Holds (.poseJPL st.imu.pose) :=
    ⟨_, himu, .inr (by simp [Var.checkIfSubvariable, IMU.checkIfSubvariable, Var.ptr])⟩
  obtain ⟨-, hfits, -⟩ := hl.holds_range hpose
  have hdtlt : st.options.doCalibCameraTimeoffset = true →
      st.at (.vec st.calibDt 1) < st.cov.rows := fun hoffset => by
    obtain ⟨-, hdtfits, -⟩ := hl.holds_range (hdt hoffset)
    exact hdtfits
  have hv : st.imu.v < st.heap.next :=
    hl.allocated _ (mem_flatMap.mpr ⟨_, himu, by simp [Var.ptrs, Var.parts]⟩)
  obtain ⟨heap, vars, clones, hresult⟩ := @augmentClone_eq ℝ _ st last_w _ hl hpose hv hdt htime
  obtain ⟨hrows, hcols⟩ := @size_augmentedCov ℝ _ st last_w
  have hmatrix := @toMatrix_augmentedCov ℝ _ st last_w hfits hdtlt
  refine ⟨_, hresult, hrows, hcols, hmatrix, ?_, fun hprior => ?_⟩
  · refine symmetric_of_toMatrix hrows hcols ?_
    rw [hmatrix, symmetric_congruence _ (hP.toMatrix_transpose _)]
  · rw [hmatrix]
    exact posSemidef_congruence _ hprior

/-- Both functions, from a laid out state with a symmetric covariance. -/
theorem propagation_and_augmentation_congruent (hl : Laid st) (hP : st.cov.Symmetric) :
    (∀ (first : Var) (rest order_OLD : List Var) (Phi Q : Dense ℝ),
      (∀ v ∈ first :: rest, st.Holds v) → st.consecutive (first :: rest) = true → order_OLD ≠ [] →
      (∀ v ∈ order_OLD, st.Holds v) → Phi.rows = sizeOfVars (first :: rest) →
      Phi.cols = sizeOfVars order_OLD → Q.rows = Phi.rows → Q.Symmetric →
      ∃ cov : Dense ℝ, cov.rows = st.cov.rows ∧ cov.cols = st.cov.rows ∧
        Dense.toMatrix st.cov.rows st.cov.rows cov =
          transition st (st.at first) Phi.rows order_OLD Phi st.cov.rows *
              Dense.toMatrix st.cov.rows st.cov.rows st.cov *
              (transition st (st.at first) Phi.rows order_OLD Phi st.cov.rows)ᵀ +
            (embedding (st.at first) Phi.rows st.cov.rows : Matrix _ _ ℝ) *
              Dense.toMatrix Phi.rows Phi.rows Q *
              (embedding (st.at first) Phi.rows st.cov.rows : Matrix _ _ ℝ)ᵀ ∧
        ekfPropagation st (first :: rest) order_OLD Phi Q =
          (if foundNeg cov then none else some { st with cov := cov }) ∧
        cov.Symmetric ∧
        ((toMatrix st.cov.rows st.cov.rows st.cov).PosSemidef →
          (toMatrix Phi.rows Phi.rows Q).PosSemidef →
            (toMatrix st.cov.rows st.cov.rows cov).PosSemidef ∧ foundNeg cov = false)) ∧
    (∀ last_w : Fin 3 → ℝ, .imu st.imu ∈ st.vars →
      (st.options.doCalibCameraTimeoffset = true → st.Holds (.vec st.calibDt 1)) →
      (∀ clone ∈ st.clonesIMU, clone.1 ≠ st.timestamp) →
      ∃ st', augmentClone st last_w = some st' ∧ st'.cov.rows = st.cov.rows + 6 ∧
        st'.cov.cols = st.cov.rows + 6 ∧
        toMatrix (st.cov.rows + 6) (st.cov.rows + 6) st'.cov =
          augmentation st last_w st.cov.rows * toMatrix st.cov.rows st.cov.rows st.cov *
            (augmentation st last_w st.cov.rows)ᵀ ∧
        st'.cov.Symmetric ∧
        ((toMatrix st.cov.rows st.cov.rows st.cov).PosSemidef →
          (toMatrix (st.cov.rows + 6) (st.cov.rows + 6) st'.cov).PosSemidef)) :=
  ⟨fun _ _ _ _ _ hNEW hconsecutive hnonempty hOLD hrows hcols hQrows hQ =>
    ekfPropagation_congruence hl hP hNEW hconsecutive hnonempty hOLD hrows hcols hQrows hQ,
    fun _ himu hdt htime => augmentClone_congruence hl hP himu hdt htime⟩

def offsetOptions : StateOptions :=
  ⟨.kalibr, false, false, false, false, true, 1, 11, 1024⟩

/-- The IMU is propagated over itself and the time offset, and the clone of a turning IMU is augmented. -/
theorem propagation_and_augmentation_congruent_constructed :
    (∃ cov : Dense ℝ, ekfPropagation (State.construct offsetOptions) [.imu constructedImu]
        [.imu constructedImu, constructedDt] (.ofFn 15 16 fun i j => (i + 2 * j : ℝ)) (scaledIdentity 15 5) =
      (if foundNeg cov then none else some { State.construct offsetOptions with cov := cov }) ∧ cov.Symmetric) ∧
    ∃ st', augmentClone (State.construct (K := ℝ) offsetOptions) ![1, 2, 3] = some st' ∧ st'.cov.Symmetric := by
  obtain ⟨hpropagation, haugmentation⟩ := propagation_and_augmentation_congruent
    (laid_construct offsetOptions) (symmetric_construct (K := ℝ) offsetOptions)
  have himu := holds_of_mem (imu_mem_construct (K := ℝ) offsetOptions)
  have hdt : (State.construct (K := ℝ) offsetOptions).Holds constructedDt := holds_of_mem (mem_of_elem_eq_true rfl)
  constructor
  · obtain ⟨cov, -, -, -, hresult, hsymmetric, -⟩ := hpropagation (.imu constructedImu) []
      [.imu constructedImu, constructedDt] (.ofFn 15 16 fun i j => (i + 2 * j : ℝ)) (scaledIdentity 15 5)
      (forall_mem_singleton.mpr himu) rfl (by simp) (forall_mem_cons.mpr ⟨himu, forall_mem_singleton.mpr hdt⟩)
      rfl rfl rfl (symmetric_scaledIdentity 15 5)
    exact ⟨cov, hresult, hsymmetric⟩
  · obtain ⟨st', hresult, -, -, -, hsymmetric, -⟩ := haugmentation ![1, 2, 3] (imu_mem_construct offsetOptions)
      (fun _ => hdt) (fun clone hclone => by cases hclone)
    exact ⟨st', hresult, hsymmetric⟩

end Real

end Bravo.Filter
