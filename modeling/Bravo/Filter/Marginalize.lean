import Bravo.Filter.Construct

/-! # Variables that leave the state

`marginalize` drops the rows and columns of a variable and moves the ids behind it forward, which
lays the remaining variables out again (`laid_marginalized`). The functions that choose a variable,
`marginalize_old_clone` and `marginalize_slam`, call it and then forget the entry of their map.
-/

namespace Bravo.Filter

open Bravo.Linear List Dense

/-! ## The functions -/

section Functions

variable {K : Type} [Zero K] (storage : Nat → Nat → K)

/-- `Cov_new`, of which every coefficient is written. -/
def marginalizedCov (cov : Dense K) (margId margSize : Nat) : Dense K :=
  let x2 := cov.rows - margId - margSize
  let new : Dense K := .ofFn (cov.rows - margSize) (cov.rows - margSize) storage
  let new := new.setBlock 0 0 (cov.block 0 0 margId margId)
  let new := new.setBlock 0 margId (cov.block 0 (margId + margSize) margId x2)
  let new := new.setBlock margId 0 (new.block 0 margId margId x2).transpose
  new.setBlock margId margId (cov.block (margId + margSize) (margId + margSize) x2 x2)

/-- What is beyond the marginal variable moves forward. -/
def moveForward (marg : Var) (margId : Int) (vs : List Var) (h : Heap K) : Heap K :=
  vs.foldl (fun h v =>
    if v.ptr ≠ marg.ptr ∧ margId < h.id v.ptr then v.setLocalId (h.id v.ptr - marg.size) h else h) h

/-- The state without a variable. -/
def marginalized (st : State K) (marg : Var) : State K :=
  { st with
    cov := marginalizedCov storage st.cov (st.at marg) marg.size
    heap := marg.setLocalId (-1) (moveForward marg (st.id marg) st.vars st.heap)
    vars := st.vars.filter (·.ptr != marg.ptr) }

def marginalize (st : State K) (marg : Var) : Option (State K) :=
  if (∀ v ∈ st.vars, v.ptr ≠ marg.ptr) ∨ st.inRange [marg] = false then none
  else some (marginalized storage st marg)

/-- `marginalize(state, _clones_IMU.at(time))` and `_clones_IMU.erase(time)` -/
def marginalizeCloneAt [DecidableEq K] (time : K) (st : State K) : Option (State K) :=
  match st.clonesIMU.find? (·.1 == time) with
  | none => none
  | some clone =>
    (marginalize storage st (.poseJPL clone.2)).map fun st' =>
      { st' with clonesIMU := st'.clonesIMU.filter (·.1 != time) }

/-- The oldest time; `INFINITY` is `none`. -/
def State.margtimestep [LinearOrder K] (st : State K) : Option K :=
  st.clonesIMU.foldl (fun time clone =>
    match time with
    | none => some clone.1
    | some t => some (if clone.1 < t then clone.1 else t)) none

def marginalizeOldClone [LinearOrder K] (st : State K) : Option (State K) :=
  if st.options.maxCloneSize < st.clonesIMU.length then
    st.margtimestep.bind fun time => marginalizeCloneAt storage time st
  else some st

/-- The loop of `marginalize_slam` over the map, in the order in which it is walked. -/
def marginalizeFeatures : List (Nat × Landmark) → State K → Option (State K)
  | [], st => some st
  | feature :: rest, st =>
    if (st.heap.cells feature.2.ptr).shouldMarg ∧
        4 * (st.options.maxArucoFeatures : Int) < (feature.1 : Int).bmod (2 ^ 32) then
      (marginalize storage st feature.2.toVar).bind fun st' =>
        marginalizeFeatures rest
          { st' with featuresSLAM := st'.featuresSLAM.filter (·.1 != feature.1) }
    else marginalizeFeatures rest st

end Functions

/-! ## The covariance -/

section Covariance

variable {K : Type} [Zero K] {storage : Nat → Nat → K}

/-- Where a coordinate that is left comes from. -/
def keptFrom (margId margSize i : Nat) : Nat := if i < margId then i else i + margSize

theorem coeff_marginalizedCov {cov : Dense K} {margId margSize i j : Nat} (hcov : cov.Symmetric)
    (hfits : margId + margSize ≤ cov.rows) (hi : i < cov.rows - margSize)
    (hj : j < cov.rows - margSize) :
    (marginalizedCov storage cov margId margSize).coeff i j =
      cov.coeff (keptFrom margId margSize i) (keptFrom margId margSize j) := by
  unfold marginalizedCov keptFrom
  -- The blocks are read off from the last write to the first.
  rw [coeff_setBlock (by exact hi) (by exact hj), coeff_setBlock (by exact hi) (by exact hj),
    coeff_setBlock (by exact hi) (by exact hj), coeff_setBlock (by exact hi) (by exact hj),
    rows_transpose, cols_transpose, coeff_transpose, rows_block, cols_block, rows_block, cols_block,
    rows_block, cols_block, rows_block, cols_block]
  by_cases hrow : i < margId <;> by_cases hcol : j < margId
  · rw [if_neg (by omega), if_neg (by omega), if_neg (by omega), if_pos (by omega), if_pos hrow,
      if_pos hcol, coeff_block (by omega) (by omega)]
    simp
  · rw [if_neg (by omega), if_neg (by omega), if_pos (by omega), if_pos hrow, if_neg hcol,
      coeff_block (by omega) (by omega)]
    congr 1 <;> omega
  · rw [if_neg (by omega), if_pos (by omega), if_neg hrow, if_pos hcol,
      coeff_block (by omega) (by omega), coeff_setBlock (by simp; omega) (by simp; omega),
      if_pos (by simp; omega), coeff_block (by omega) (by omega), hcov.coeff_comm']
    congr 1 <;> omega
  · rw [if_pos (by omega), if_neg hrow, if_neg hcol, coeff_block (by omega) (by omega)]
    congr 1 <;> omega

end Covariance

/-! ## The layout -/

section Relayout

variable {K : Type} {h h' : Heap K} {vs ws : List Var} {marg : Var} {start stop : Nat}

theorem Contiguous.congr (hc : Contiguous h start vs stop)
    (hid : ∀ v ∈ vs, h'.id v.ptr = h.id v.ptr) : Contiguous h' start vs stop := by
  induction vs generalizing start with
  | nil => exact hc
  | cons v rest ih =>
    obtain ⟨hstart, hsize, hrest⟩ := hc
    exact ⟨(hid v mem_cons_self).trans hstart, hsize,
      ih hrest fun w hw => hid w (mem_cons_of_mem v hw)⟩

theorem contiguous_append : Contiguous h start (vs ++ ws) stop ↔
    ∃ mid, Contiguous h start vs mid ∧ Contiguous h mid ws stop := by
  induction vs generalizing start with
  | nil => simp [Contiguous]
  | cons v rest ih =>
    simp only [cons_append, Contiguous, ih]
    constructor
    · rintro ⟨hstart, hsize, mid, hrest, hws⟩
      exact ⟨mid, ⟨hstart, hsize, hrest⟩, hws⟩
    · rintro ⟨mid, ⟨hstart, hsize, hrest⟩, hws⟩
      exact ⟨hstart, hsize, mid, hrest, hws⟩

theorem moveForward_front {margId : Nat} (hc : Contiguous h start vs margId) :
    moveForward marg margId vs h = h := by
  induction vs generalizing start with
  | nil => rfl
  | cons v rest ih =>
    obtain ⟨hstart, hsize, hrest⟩ := hc
    have hle := Contiguous.stop_eq hrest
    have hskip : ¬ (v.ptr ≠ marg.ptr ∧ (margId : Int) < h.id v.ptr) := by omega
    have hmoved := ih hrest
    unfold moveForward at hmoved ⊢
    rw [foldl_cons, if_neg hskip, hmoved]

theorem moveForward_back {margId : Nat} (hpos : 0 < marg.size) :
    ∀ {start : Nat} {h : Heap K}, margId ≤ start → (vs.flatMap Var.ptrs).Nodup →
      (∀ v ∈ vs, v.ptr ≠ marg.ptr) → Contiguous h (start + marg.size) vs stop →
      moveForward marg margId vs h = place start vs h := by
  induction vs with
  | nil => exact fun _ _ _ _ => rfl
  | cons v rest ih =>
    intro start h hle hnodup hne hc
    obtain ⟨hstart, hsize, hrest⟩ := hc
    rw [flatMap_cons, nodup_append'] at hnodup
    obtain ⟨-, hnodup, hdisjoint⟩ := hnodup
    have hid : h.id v.ptr - marg.size = start := by omega
    have hmove : v.ptr ≠ marg.ptr ∧ (margId : Int) < h.id v.ptr :=
      ⟨hne v mem_cons_self, by omega⟩
    have hshifted : Contiguous (v.setLocalId start h) (start + v.size + marg.size) rest stop := by
      rw [Nat.add_right_comm]
      refine hrest.congr fun w hw => Var.id_setLocalId_of_notMem fun hin => ?_
      exact hdisjoint hin (mem_flatMap.mpr ⟨w, hw, w.ptr_mem_ptrs⟩)
    have hmoved := ih (by omega) hnodup (fun w hw => hne w (mem_cons_of_mem v hw)) hshifted
    unfold moveForward at hmoved ⊢
    rw [foldl_cons, if_pos hmove, hid, hmoved, place]
    push_cast
    rfl

/-- The loop gives out the ids of the variables behind the marginal one again. -/
theorem moveForward_around {front back : List Var} {margId : Nat} (hpos : 0 < marg.size)
    (hfront : Contiguous h start front margId) (hnodup : (back.flatMap Var.ptrs).Nodup)
    (hne : ∀ v ∈ back, v.ptr ≠ marg.ptr) (hback : Contiguous h (margId + marg.size) back stop) :
    moveForward marg margId (front ++ marg :: back) h = place margId back h := by
  have hskip : moveForward marg margId (front ++ marg :: back) h =
      moveForward marg margId back (moveForward marg margId front h) := by
    simp [moveForward, foldl_append]
  rw [hskip, moveForward_front hfront, moveForward_back hpos (le_refl _) hnodup hne hback]

end Relayout

section Marginalize

variable {K : Type} [Zero K] {storage : Nat → Nat → K} {st : State K} {marg : Var}

/-- An address belongs to one variable only. -/
theorem Laid.eq_of_ptr (hl : Laid st) {v w : Var} (hv : v ∈ st.vars) (hw : w ∈ st.vars)
    (hptr : v.ptr = w.ptr) : v = w := by
  by_contra hne
  have hsymm : Std.Symm (Function.onFun List.Disjoint Var.ptrs) := ⟨fun _ _ hd => hd.symm⟩
  have hdisjoint := (nodup_flatMap.mp hl.nodup).2.forall hv hw hne
  exact hdisjoint v.ptr_mem_ptrs (hptr ▸ w.ptr_mem_ptrs)

theorem marginalize_of_mem (hl : Laid st) (hmarg : marg ∈ st.vars) :
    marginalize storage st marg = some (marginalized storage st marg) := by
  have hrange : st.inRange [marg] = true := hl.inRange fun v hv => by
    rw [mem_singleton.mp hv]
    exact holds_of_mem hmarg
  unfold marginalize
  rw [hrange, if_neg]
  simp only [Bool.true_eq_false, or_false]
  exact fun hnone => hnone marg hmarg rfl

/-- The remaining variables are laid out, once the maps point to them only. -/
theorem laid_marginalized (hl : Laid st) (hmarg : marg ∈ st.vars) {clones : List (K × PoseJPL)}
    {features : List (Nat × Landmark)}
    (hclones : ∀ clone ∈ clones, clone ∈ st.clonesIMU ∧ clone.2.ptr ≠ marg.ptr)
    (hfeatures : ∀ feature ∈ features, feature ∈ st.featuresSLAM ∧ feature.2.ptr ≠ marg.ptr) :
    Laid { marginalized storage st marg with clonesIMU := clones, featuresSLAM := features } := by
  obtain ⟨front, back, hvars⟩ := append_of_mem hmarg
  have hcontiguous := hl.contiguous
  have hnodup := hl.nodup
  rw [hvars, contiguous_append] at hcontiguous
  rw [hvars, flatMap_append, flatMap_cons, nodup_append', nodup_append'] at hnodup
  obtain ⟨margId, hfront, hid, hpos, hback⟩ := hcontiguous
  obtain ⟨-, ⟨hnodupMarg, hnodupBack, hdisjointMarg⟩, hdisjoint⟩ := hnodup
  have hdisjointFront : ∀ x ∈ front.flatMap Var.ptrs, x ∉ marg.ptrs ∧ x ∉ back.flatMap Var.ptrs :=
    fun x hx => by
      have hout : x ∉ marg.ptrs ++ back.flatMap Var.ptrs := hdisjoint hx
      rwa [mem_append, not_or] at hout
  have hfrontNe : ∀ v ∈ front, v.ptr ≠ marg.ptr := fun v hv heq =>
    (hdisjointFront v.ptr (mem_flatMap.mpr ⟨v, hv, v.ptr_mem_ptrs⟩)).1 (heq ▸ marg.ptr_mem_ptrs)
  have hbackNe : ∀ v ∈ back, v.ptr ≠ marg.ptr := fun v hv heq =>
    hdisjointMarg (heq ▸ marg.ptr_mem_ptrs) (mem_flatMap.mpr ⟨v, hv, v.ptr_mem_ptrs⟩)
  have hremaining : st.vars.filter (·.ptr != marg.ptr) = front ++ back := by
    rw [hvars, filter_append, filter_cons_of_neg (by simp),
      filter_eq_self.mpr (by simpa using hfrontNe), filter_eq_self.mpr (by simpa using hbackNe)]
  have hat : st.id marg = margId := hid
  have hatNat : st.at marg = margId := by
    rw [State.at, hat]
    rfl
  set moved := moveForward marg (st.id marg) st.vars st.heap with hmovedDef
  have hmoved : moved = place margId back st.heap := by
    rw [hmovedDef, hat, hvars, moveForward_around hpos hfront hnodupBack hbackNe hback]
  obtain ⟨hplaced, hconsistent⟩ := @place_spec K back
    (fun v hv => (hback.range hv).choose_spec.2.2.2) margId st.heap hnodupBack
  -- The marginal variable itself is outside of them.
  have hfrontId : ∀ x ∈ front.flatMap Var.ptrs, (marg.setLocalId (-1) moved).id x = st.heap.id x :=
    fun x hx => by
      rw [Var.id_setLocalId_of_notMem (hdisjointFront x hx).1, hmoved,
        place_of_notMem (hdisjointFront x hx).2]
  have hbackId : ∀ x ∈ back.flatMap Var.ptrs, (marg.setLocalId (-1) moved).id x =
      (place margId back st.heap).id x := fun x hx => by
    rw [Var.id_setLocalId_of_notMem (fun hin => hdisjointMarg hin hx), hmoved]
  have hsublist : (st.vars.filter (·.ptr != marg.ptr)).Sublist st.vars := filter_sublist
  have hstop := hback.stop_eq
  refine ⟨rfl, ?_, ?_, hl.nodup.sublist (hsublist.flatMap _), ?_, ?_, ?_⟩
  · show Contiguous _ 0 (st.vars.filter _) (st.cov.rows - marg.size)
    rw [hremaining, contiguous_append]
    refine ⟨margId, hfront.congr fun v hv => hfrontId _ (mem_flatMap.mpr ⟨v, hv, v.ptr_mem_ptrs⟩), ?_⟩
    have hrows : st.cov.rows - marg.size = margId + sizeOfVars back := by omega
    rw [hrows]
    exact hplaced.congr fun v hv => hbackId _ (mem_flatMap.mpr ⟨v, hv, v.ptr_mem_ptrs⟩)
  · intro v hv
    have hin : v ∈ front ++ back := hremaining ▸ hv
    rcases mem_append.mp hin with hin | hin
    · exact (hl.consistent v (hsublist.subset hv)).of_eq fun x hx =>
        hfrontId x (mem_flatMap.mpr ⟨v, hin, hx⟩)
    · exact (hconsistent v hin).of_eq fun x hx => hbackId x (mem_flatMap.mpr ⟨v, hin, hx⟩)
  · intro x hx
    show x < (marg.setLocalId (-1) moved).next
    rw [Var.next_setLocalId, hmoved, next_place]
    exact hl.allocated x ((hsublist.flatMap _).subset hx)
  · intro clone hclone
    obtain ⟨hin, hne⟩ := hclones clone hclone
    exact mem_filter.mpr ⟨hl.clones clone hin, by simpa [Var.ptr] using hne⟩
  · intro feature hfeature
    obtain ⟨hin, hne⟩ := hfeatures feature hfeature
    exact mem_filter.mpr ⟨hl.features feature hin, by simpa [Var.ptr, Landmark.toVar] using hne⟩

end Marginalize

end Bravo.Filter
