import Bravo.Basic.Elimination
import Bravo.Basic.Joint
import Bravo.Filter.Congruence
import Bravo.Filter.ExactUpdate
import Bravo.Filter.Marginalize

/-! # Variables that enter the state

`initializeVariable` separates a system into a part that is solved for a new variable and a part without it,
tests the second, and then appends the variable and updates with the rest. What is appended lies
behind the covariance (`Laid.append`), and the covariance stays positive semidefinite whatever the
rotations and the inverse are (`initializeInvertible_spec`).
-/

namespace Bravo.Filter

open Bravo.Linear Bravo.Elimination Matrix List Dense

/-! ## The functions -/

section Functions

variable {K : Type} [Field K] [LinearOrder K] (k : Kernels K) (inverse : Dense K → Nat → Nat → K)
  (makeGivens : K → K → K × K) (quantile : Nat → K)

/-- `M.block(row, column, 2, M.cols() - column).applyOnTheLeft(0, 1, G.adjoint())` -/
def rotatePair (column row : Nat) (G : K × K) (M : Dense K) : Dense K :=
  .ofFn M.rows M.cols fun i j =>
    if column ≤ j then rotateRows row (row + 1) G.1 G.2 M.coeff i j else M.coeff i j

/-- The Jacobians of the state and of the new variable, and the residual. -/
structure InitSystem (K : Type) [Zero K] where
  H_R : Dense K
  H_L : Dense K
  res : Dense K

def separateStep (column row : Nat) (work : InitSystem K) : InitSystem K :=
  let G := makeGivens (work.H_L.coeff row column) (work.H_L.coeff (row + 1) column)
  { H_R := rotatePair 0 row G work.H_R
    H_L := rotatePair column row G work.H_L
    res := rotatePair 0 row G work.res }

/-- The inner loop from row `row` down to the row behind the diagonal. -/
def separateColumn (column : Nat) : Nat → InitSystem K → InitSystem K
  | 0, work => work
  | row + 1, work =>
    if column < row + 1 then
      separateColumn column row (separateStep makeGivens column row work)
    else work

def separate (work : InitSystem K) : InitSystem K :=
  (List.range work.H_L.cols).foldl
    (fun w column => separateColumn makeGivens column (work.H_L.rows - 1) w) work

/-- The checks in front of both functions: the variable is new and the noise isotropic. -/
def State.admits (st : State K) (newVariable : Var) (R : Dense K) : Bool :=
  decide ((∀ v ∈ st.vars, v.ptr ≠ newVariable.ptr) ∧ R.rows = R.cols ∧ 0 < R.rows ∧
    ∀ r < R.rows, ∀ c < R.cols, R.coeff r c = if r = c then R.coeff 0 0 else 0)

/-- The grown covariance: the cross terms, their transpose, and `P_LL`. -/
def initializedCov (cov cross P_LL : Dense K) (size : Nat) : Dense K :=
  let grown := cov.resize (cov.rows + size) (cov.rows + size)
  let grown := grown.setBlock 0 cov.rows cross
  let grown := grown.setBlock cov.rows 0 (grown.block 0 cov.rows cov.rows size).transpose
  grown.setBlock cov.rows cov.rows P_LL

/-- `StateHelper::initialize_invertible` -/
def initializeInvertible (st : State K) (newVariable : Var) (H_order : List Var)
    (H_R H_L R res : Dense K) : Option (State K) :=
  if !st.admits newVariable R then none
  else if res.rows ≠ R.rows ∨ H_L.rows ≠ res.rows ∨ H_L.rows ≠ H_R.rows ∨ H_L.rows ≠ H_L.cols ∨
      H_L.rows ≠ newVariable.size ∨ H_R.cols ≠ sizeOfVars H_order ∨ st.inRange st.vars = false ∨
      st.inRange H_order = false then none
  else
    let M_a := crossCovariance k st H_order H_R res.rows
    let M := innovation k H_R (marginalCovariance st H_order) R
    let H_Linv : Dense K := .ofFn H_L.rows H_L.rows (inverse H_L)
    let P_LL := (H_Linv.mul (upperTriangle M).mirrorUpper).mul H_Linv.transpose
    let cross := mul (.ofFn M_a.rows M_a.cols fun i j => -M_a.coeff i j) H_Linv.transpose
    let heap := newVariable.update k.rotate (segmentOf (H_Linv.mul res) 0 newVariable.size) st.heap
    some { st with
      cov := initializedCov st.cov cross P_LL newVariable.size
      heap := newVariable.setLocalId st.cov.rows heap
      vars := st.vars ++ [newVariable] }

/-- `StateHelper::initialize`: whether the variable passed the test, and the state. -/
def initializeVariable (st : State K) (newVariable : Var) (H_order : List Var) (system : InitSystem K)
    (R : Dense K) (chi2Mult : K) : Option (Bool × State K) :=
  let n := newVariable.size
  if !st.admits newVariable R then none
  else if n ≠ system.H_L.cols ∨ R.rows < n ∨ system.res.rows ≠ R.rows ∨ system.H_L.rows ≠ R.rows ∨
      system.H_R.rows ≠ R.rows ∨ system.H_R.cols ≠ sizeOfVars H_order ∨
      st.inRange H_order = false then none
  else
    let work := separate makeGivens system
    let rest := R.rows - n
    let Hup := work.H_R.block n 0 rest system.H_R.cols
    let resup := work.res.block n 0 rest 1
    let Rup := R.block n n rest rest
    let P_up := marginalCovariance st H_order
    let S : Dense K := .ofFn rest rest fun i j =>
      ((Hup.mul P_up).mul Hup.transpose).coeff i j + Rup.coeff i j
    let chi2 := k.dot resup ((k.llt (upperTriangle S.transpose)).solve resup)
    if k.lt (k.mul chi2Mult (quantile system.res.rows)) chi2 then some (false, st)
    else
      (initializeInvertible k inverse st newVariable H_order (work.H_R.block 0 0 n system.H_R.cols)
          (work.H_L.block 0 0 n n) (R.block 0 0 n n) (work.res.block 0 0 n 1)).bind fun st' =>
        if 0 < rest then (ekfUpdate k st' H_order Hup resup Rup).map (true, ·)
        else some (true, st')

/-- The end of `UpdaterSLAM::delayed_init` for one feature. -/
def delayedInit (st : State K) (featid size : Nat) (value fej : List K) (H_order : List Var)
    (system : InitSystem K) (sigmaPixSq chi2Mult : K) : Option (State K) :=
  let landmark : Landmark := ⟨st.heap.next, size⟩
  let heap := landmark.toVar.setFej fej (landmark.toVar.setValue value (st.heap.reserve 1))
  (initializeVariable k inverse makeGivens quantile { st with heap := heap } landmark.toVar H_order
      system (scaledIdentity system.res.rows sigmaPixSq) chi2Mult).map fun result =>
    if result.1 ∧ ∀ feature ∈ result.2.featuresSLAM, feature.1 ≠ featid then
      { result.2 with featuresSLAM := (featid, landmark) :: result.2.featuresSLAM }
    else result.2

end Functions

/-! ## The layout -/

section Relayout

variable {K : Type} [Zero K] {st st' : State K} {v : Var}

/-- The layout does not depend on the values. -/
theorem Laid.congr (hl : Laid st) (hvars : st'.vars = st.vars)
    (hid : ∀ x ∈ st.vars.flatMap Var.ptrs, st'.heap.id x = st.heap.id x)
    (hnext : st.heap.next ≤ st'.heap.next) (hrows : st'.cov.rows = st.cov.rows)
    (hcols : st'.cov.cols = st.cov.rows) (hclones : st'.clonesIMU = st.clonesIMU)
    (hfeatures : st'.featuresSLAM = st.featuresSLAM) : Laid st' := by
  refine ⟨hrows.trans hcols.symm, ?_, ?_, hvars ▸ hl.nodup, ?_, ?_, ?_⟩
  · rw [hvars, hrows]
    exact hl.contiguous.congr fun v hv => hid _ (mem_flatMap.mpr ⟨v, hv, v.ptr_mem_ptrs⟩)
  · intro v hv
    rw [hvars] at hv
    exact (hl.consistent v hv).of_eq fun x hx => hid x (mem_flatMap.mpr ⟨v, hv, hx⟩)
  · intro x hx
    rw [hvars] at hx
    exact (hl.allocated x hx).trans_le hnext
  · rw [hvars, hclones]
    exact hl.clones
  · rw [hvars, hfeatures]
    exact hl.features

/-- A variable of new objects goes behind the others. -/
theorem Laid.append (hl : Laid st) (hvars : st'.vars = st.vars ++ [v]) (hsize : 0 < v.size)
    (hnodup : v.ptrs.Nodup)
    (hfresh : ∀ x ∈ v.ptrs, x ∉ st.vars.flatMap Var.ptrs ∧ x < st'.heap.next) {heap : Heap K}
    (hheap : st'.heap = v.setLocalId st.cov.rows heap)
    (hid : ∀ x ∈ st.vars.flatMap Var.ptrs, heap.id x = st.heap.id x)
    (hnext : st.heap.next ≤ st'.heap.next) (hrows : st'.cov.rows = st.cov.rows + v.size)
    (hcols : st'.cov.cols = st.cov.rows + v.size)
    (hclones : ∀ clone ∈ st'.clonesIMU, .poseJPL clone.2 ∈ st'.vars)
    (hfeatures : ∀ feature ∈ st'.featuresSLAM, feature.2.toVar ∈ st'.vars) : Laid st' := by
  have hid' : ∀ x ∈ st.vars.flatMap Var.ptrs, st'.heap.id x = st.heap.id x := fun x hx => by
    rw [hheap, Var.id_setLocalId_of_notMem fun hin => (hfresh x hin).1 hx, hid x hx]
  have hne : (st.cov.rows : Int) ≠ -1 := by omega
  refine ⟨hrows.trans hcols.symm, ?_, ?_, ?_, ?_, hclones, hfeatures⟩
  · rw [hvars, hrows, contiguous_append]
    refine ⟨st.cov.rows,
      hl.contiguous.congr fun w hw => hid' _ (mem_flatMap.mpr ⟨w, hw, w.ptr_mem_ptrs⟩), ?_, hsize, rfl⟩
    rw [hheap, Var.id_ptr_setLocalId hnodup hne]
  · intro w hw
    rw [hvars] at hw
    rcases mem_append.mp hw with hw | hw
    · exact (hl.consistent w hw).of_eq fun x hx => hid' x (mem_flatMap.mpr ⟨w, hw, hx⟩)
    · rw [mem_singleton.mp hw, hheap]
      exact Var.consistent_setLocalId hnodup hne
  · rw [hvars, flatMap_append, flatMap_singleton, nodup_append']
    exact ⟨hl.nodup, hnodup, fun x hx hin => (hfresh x hin).1 hx⟩
  · intro x hx
    rw [hvars, flatMap_append, flatMap_singleton, mem_append] at hx
    rcases hx with hx | hx
    · exact (hl.allocated x hx).trans_le hnext
    · exact (hfresh x hx).2

end Relayout

/-! ## The covariance -/

section Covariance

variable {llt : Dense ℝ → LLT ℝ} {rotate : List ℝ → List ℝ → List ℝ}
  {eigenvalues : Dense ℝ → Option (ℝ × ℝ)} {st : State ℝ} {v : Var} {H_order : List Var} {m n : Nat}

/-- The grown covariance as blocks. -/
theorem posSemidef_initializedCov {cov cross P_LL : Dense ℝ} {size : Nat}
    (hcross : cross.rows = cov.rows ∧ cross.cols = size)
    (hP_LL : P_LL.rows = size ∧ P_LL.cols = size)
    (h : (fromBlocks (toMatrix cov.rows cov.rows cov) (toMatrix cov.rows size cross)
      (toMatrix cov.rows size cross)ᵀ (toMatrix size size P_LL)).PosSemidef) :
    (toMatrix (cov.rows + size) (cov.rows + size)
      (initializedCov cov cross P_LL size)).PosSemidef := by
  have hblocks : toMatrix (cov.rows + size) (cov.rows + size) (initializedCov cov cross P_LL size) =
      (fromBlocks (toMatrix cov.rows cov.rows cov) (toMatrix cov.rows size cross)
        (toMatrix cov.rows size cross)ᵀ (toMatrix size size P_LL)).submatrix
          finSumFinEquiv.symm finSumFinEquiv.symm := by
    ext i j
    change (initializedCov cov cross P_LL size).coeff i j = _
    unfold initializedCov
    rw [coeff_setBlock (by exact i.isLt) (by exact j.isLt),
      coeff_setBlock (by exact i.isLt) (by exact j.isLt),
      coeff_setBlock (by exact i.isLt) (by exact j.isLt), coeff_resize i.isLt j.isLt, hP_LL.1, hP_LL.2,
      rows_transpose, cols_transpose, coeff_transpose, rows_block, cols_block, hcross.1, hcross.2]
    -- The four blocks, from the last write to the first.
    induction i using Fin.addCases with
    | left i =>
      induction j using Fin.addCases with
      | left j =>
        simp only [Fin.val_castAdd, submatrix_apply, finSumFinEquiv_symm_apply_castAdd,
          fromBlocks_apply₁₁]
        rw [if_neg (by omega), if_neg (by omega), if_neg (by omega)]
        rfl
      | right j =>
        simp only [Fin.val_castAdd, Fin.val_natAdd, submatrix_apply,
          finSumFinEquiv_symm_apply_castAdd, finSumFinEquiv_symm_apply_natAdd, fromBlocks_apply₁₂]
        rw [if_neg (by omega), if_neg (by omega), if_pos (by omega), Nat.sub_zero,
          Nat.add_sub_cancel_left]
        rfl
    | right i =>
      induction j using Fin.addCases with
      | left j =>
        simp only [Fin.val_castAdd, Fin.val_natAdd, submatrix_apply,
          finSumFinEquiv_symm_apply_castAdd, finSumFinEquiv_symm_apply_natAdd, fromBlocks_apply₂₁]
        rw [if_neg (by omega), if_pos (by omega), coeff_block (by omega) (by omega),
          coeff_setBlock (by simp; omega) (by simp), hcross.1, hcross.2, if_pos (by omega)]
        simp only [Nat.sub_zero, Nat.zero_add, Nat.add_sub_cancel_left]
        rfl
      | right j =>
        simp only [Fin.val_natAdd, submatrix_apply, finSumFinEquiv_symm_apply_natAdd,
          fromBlocks_apply₂₂]
        rw [if_pos (by omega), Nat.add_sub_cancel_left, Nat.add_sub_cancel_left]
        rfl
  rw [hblocks]
  exact h.submatrix _

theorem admits_of_fresh (hm : 0 < m) (hptr : v.ptr ∉ st.vars.flatMap Var.ptrs) (noise : ℝ) :
    st.admits v (scaledIdentity m noise) = true := by
  have hcorner : (scaledIdentity m noise).coeff 0 0 = noise := by
    rw [scaledIdentity, coeff_ofFn hm hm, if_pos rfl]
  refine decide_eq_true ⟨fun w hw heq => ?_, rfl, hm, fun r hr c hc => ?_⟩
  · exact hptr (mem_flatMap.mpr ⟨w, hw, heq ▸ w.ptr_mem_ptrs⟩)
  · rw [hcorner]
    exact coeff_ofFn hr hc

/-- The covariance of the state together with what a system is solved for. -/
theorem posSemidef_solvedCov (hl : Laid st)
    (hprior : (toMatrix st.cov.rows st.cov.rows st.cov).PosSemidef)
    (horder : ∀ w ∈ H_order, st.Holds w) {H_R H_Linv : Dense ℝ} {noise : ℝ} (hnoise : 0 ≤ noise)
    (hH_R : H_R.rows = m ∧ H_R.cols = sizeOfVars H_order) (hH_L : H_Linv.rows = m ∧ H_Linv.cols = m)
    {M_a M cross P_LL : Dense ℝ}
    (hM_a : M_a = crossCovariance (exactKernels llt rotate eigenvalues) st H_order H_R m)
    (hM : M = innovation (exactKernels llt rotate eigenvalues) H_R (marginalCovariance st H_order)
      (scaledIdentity m noise))
    (hcrossDef : cross = mul (.ofFn M_a.rows M_a.cols fun i j => -M_a.coeff i j) H_Linv.transpose)
    (hP_LL : P_LL = (H_Linv.mul (upperTriangle M).mirrorUpper).mul H_Linv.transpose) :
    (toMatrix (st.cov.rows + m) (st.cov.rows + m)
      (initializedCov st.cov cross P_LL m)).PosSemidef := by
  set N := st.cov.rows
  set n := sizeOfVars H_order
  have hsymmetric : st.cov.Symmetric := symmetric_of_toMatrix rfl hl.square.symm (by
    have hhermitian := hprior.isHermitian.eq
    rwa [conjTranspose_eq_transpose_of_trivial] at hhermitian)
  have hcross : toMatrix N m M_a = chosenColumns st H_order N n * (toMatrix m n H_R)ᵀ :=
    hM_a ▸ toMatrix_crossCovariance hl hH_R.1 rfl
  have hmeasured := @toMatrix_innovation llt rotate eigenvalues st H_order hsymmetric H_R
    (scaledIdentity m noise) m n rfl (symmetric_scaledIdentity _ _) hH_R.2 rfl
  rw [← hM] at hmeasured
  have hR : (toMatrix m m (scaledIdentity m noise)).PosSemidef := by
    rw [toMatrix_scaledIdentity]
    exact PosSemidef.one.smul hnoise
  have hsolved := posSemidef_solved (fun c : Fin n => ⟨st.pos H_order c, hl.pos_lt horder c.isLt⟩)
    (toMatrix m n H_R) hprior hR (toMatrix m m H_Linv)
  have hM_aSize : M_a.rows = N ∧ M_a.cols = m :=
    hM_a ▸ size_crossCovariance _ H_R m
  have hcrossMatrix : toMatrix N m cross =
      -(chosenColumns st H_order N n * (toMatrix m n H_R)ᵀ) * (toMatrix m m H_Linv)ᵀ := by
    rw [hcrossDef, toMatrix_mul (k := m) (by exact hM_aSize.1) (by exact hM_aSize.2)
      (by exact hH_L.1), toMatrix_transpose, ← hcross]
    congr 1
    ext i j
    exact coeff_ofFn (hM_aSize.1.symm ▸ i.isLt) (hM_aSize.2.symm ▸ j.isLt)
  have hP_LLMatrix : toMatrix m m P_LL =
      toMatrix m m H_Linv * (toMatrix m n H_R * chosenBlock st H_order n * (toMatrix m n H_R)ᵀ +
        toMatrix m m (scaledIdentity m noise)) * (toMatrix m m H_Linv)ᵀ := by
    have hMSize : (upperTriangle M).mirrorUpper.cols = m := by
      rw [hM]
      rfl
    rw [hP_LL, toMatrix_mul (k := m) (by exact hH_L.1) (by exact hMSize) (by exact hH_L.1),
      toMatrix_transpose, toMatrix_mul hH_L.1 hH_L.2 hMSize, ← hmeasured]
  subst hcrossDef hP_LL
  refine posSemidef_initializedCov ⟨hM_aSize.1, hH_L.1⟩ ⟨hH_L.1, hH_L.1⟩ ?_
  rw [hcrossMatrix, hP_LLMatrix]
  exact hsolved

/-- The new variable is behind the others, and the covariance is that of the state together with
what the system is solved for. -/
theorem initializeInvertible_spec (inverse : Dense ℝ → Nat → Nat → ℝ) (hl : Laid st)
    (hprior : (toMatrix st.cov.rows st.cov.rows st.cov).PosSemidef) (hsize : 0 < v.size)
    (hnodup : v.ptrs.Nodup) (hfresh : ∀ x ∈ v.ptrs, x ∉ st.vars.flatMap Var.ptrs ∧ x < st.heap.next)
    (horder : ∀ w ∈ H_order, st.Holds w) (H_R H_L res : Dense ℝ) {noise : ℝ} (hnoise : 0 ≤ noise)
    (hH_R : H_R.rows = v.size ∧ H_R.cols = sizeOfVars H_order)
    (hH_L : H_L.rows = v.size ∧ H_L.cols = v.size) (hres : res.rows = v.size) :
    ∃ (cov : Dense ℝ) (heap : Heap ℝ),
      initializeInvertible (exactKernels llt rotate eigenvalues) inverse st v H_order H_R H_L
          (scaledIdentity v.size noise) res =
        some { st with cov := cov, heap := heap, vars := st.vars ++ [v] } ∧
      heap.next = st.heap.next ∧
      Laid { st with cov := cov, heap := heap, vars := st.vars ++ [v] } ∧
      (toMatrix cov.rows cov.rows cov).PosSemidef := by
  set k := exactKernels llt rotate eigenvalues
  set H_Linv : Dense ℝ := .ofFn H_L.rows H_L.rows (inverse H_L)
  have hsquare : H_Linv.rows = v.size ∧ H_Linv.cols = v.size := ⟨hH_L.1, hH_L.1⟩
  have hposSemidef := posSemidef_solvedCov hl hprior horder hnoise hH_R hsquare
    (congrArg (crossCovariance k st H_order H_R) hres) rfl rfl rfl
  refine ⟨initializedCov _ _ _ _, v.setLocalId st.cov.rows (v.update k.rotate
    (segmentOf (H_Linv.mul res) 0 v.size) st.heap), ?_, ?_, ?_, hposSemidef⟩
  · have hadmits := admits_of_fresh (m := v.size) hsize (hfresh _ v.ptr_mem_ptrs).1 noise
    have hvars := hl.inRange fun w hw => holds_of_mem hw
    have hrange := hl.inRange horder
    have hrows : (scaledIdentity v.size noise).rows = v.size := rfl
    unfold initializeInvertible
    rw [hadmits, hvars, hrange, if_neg (by simp), if_neg]
    simp only [Bool.true_eq_false, or_false]
    omega
  · rw [Var.next_setLocalId]
    exact Var.next_setValue _ _
  · refine hl.append rfl hsize hnodup (fun x hx => ⟨(hfresh x hx).1, ?_⟩) rfl
      (fun x _ => Var.id_setValue _ _ _) ?_ rfl rfl ?_ ?_
    · rw [Var.next_setLocalId]
      exact (hfresh x hx).2.trans_eq (Var.next_setValue _ _).symm
    · rw [Var.next_setLocalId]
      exact (Var.next_setValue _ _).ge
    · exact fun clone hclone => mem_append_left _ (hl.clones clone hclone)
    · exact fun feature hfeature => mem_append_left _ (hl.features feature hfeature)

end Covariance

end Bravo.Filter
