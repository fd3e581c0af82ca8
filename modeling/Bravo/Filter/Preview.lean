import Bravo.Filter.ExactUpdate
import Bravo.Filter.Congruence

/-! # `UpdaterMSCKFPreview::ComputeFromSnapshot`

The preview of an update works on a snapshot of the covariance with its blocks, not on the live state.
Its checks of the blocks come first; then its loops are those of `EKFUpdate` on the variables that the
blocks describe (`computeFromSnapshot_eq_ekfProposal`).
-/

namespace Bravo.Filter

open Bravo.Linear Matrix List

/-! ## Blocks -/

/-- `MSCKFUpdatePreviewBlock` -/
structure PreviewBlock where
  covarianceId : Int
  size : Int
  offset : Int
deriving DecidableEq, Repr

def PreviewBlock.start (b : PreviewBlock) : Nat := b.covarianceId.toNat
def PreviewBlock.length (b : PreviewBlock) : Nat := b.size.toNat
def PreviewBlock.column (b : PreviewBlock) : Nat := b.offset.toNat

def PreviewBlock.coordinates (b : PreviewBlock) : List Nat := (List.range b.length).map (b.start + ·)

/-- `MSCKFUpdatePreviewSnapshot` -/
structure PreviewSnapshot (K : Type) [Zero K] where
  covariance : Dense K
  stateBlocks : List PreviewBlock

/-- The state blocks from `expected` on; behind the first one `previous` is an id. -/
def checkStateBlocks (n : Nat) : Nat → Option Int → List PreviewBlock → Option Nat
  | expected, _, [] => some expected
  | expected, previous, block :: rest =>
    if block.covarianceId < 0 ∨ block.size ≤ 0 ∨ block.offset < 0 ∨ n - block.size < block.offset ∨
        block.covarianceId ≠ block.offset then none
    else if block.offset ≠ expected ∨ previous.any (block.covarianceId ≤ ·) then none
    else checkStateBlocks n (expected + block.length) (some block.covarianceId) rest

/-- The blocks of a Jacobian with `cols` columns, from `expected` on; `covered` are the coordinates so
far, and `contained` is asked of every block. -/
def checkLayout (contained : PreviewBlock → Bool) (n cols : Nat) :
    Nat → List Nat → List PreviewBlock → Option Nat
  | expected, _, [] => some expected
  | expected, covered, block :: rest =>
    if block.covarianceId < 0 ∨ block.size ≤ 0 ∨ block.offset ≠ expected ∨
        n - block.size < block.covarianceId ∨ cols - block.size < block.offset then none
    else if !contained block then none
    else if block.coordinates.any (covered.contains ·) then none
    else checkLayout contained n cols (expected + block.length) (covered ++ block.coordinates) rest

def containedByStateBlock (stateBlocks : List PreviewBlock) (block : PreviewBlock) : Bool :=
  stateBlocks.any fun stateBlock =>
    decide (stateBlock.offset ≤ block.covarianceId ∧
      block.covarianceId ≤ stateBlock.offset + stateBlock.size - block.size)

/-! ## The preview -/

/-- `MSCKFUpdatePreviewStatus`, without the accepted one. -/
inductive PreviewStatus
  | invalidInput
  | nonfinite
  | factorizationFailed
  | negativeDiagonal
deriving DecidableEq, Repr

/-- `MSCKFUpdatePreviewStage`, where the preview stops. -/
inductive PreviewStage
  | inputDimensions
  | stateOrder
  | rawInputs
  | crossCovariance
  | marginalCovariance
  | innovation
  | innovationFactorization
  | innovationInverse
  | kalmanGain
  | posteriorCovariance
  | posteriorDiagonal
  | stateIncrement
deriving DecidableEq, Repr

section Preview

variable {K : Type} [Zero K] [One K] [Add K] (k : Kernels K)

/-- `M`, one block of rows for each state block. -/
def previewCross (P : Dense K) (stateBlocks layout : List PreviewBlock) (H : Dense K) (m : Nat) :
    Dense K :=
  stateBlocks.foldl
    (fun M stateBlock => M.setBlock stateBlock.column 0
      (layout.foldl
        (fun M_block block => .ofFn M_block.rows M_block.cols (k.addMulTranspose M_block
          (P.block stateBlock.column block.start stateBlock.length block.length)
          (H.block 0 block.column m block.length)))
        (.zero stateBlock.length m)))
    (.zero P.rows m)

/-- The blocks with the running `row` or `col`. -/
def runningOffsets : Nat → List PreviewBlock → List (PreviewBlock × Nat)
  | _, [] => []
  | offset, block :: rest => (block, offset) :: runningOffsets (offset + block.length) rest

/-- `P_small`, whose storage is not initialised. -/
def previewMarginal (P : Dense K) (layout : List PreviewBlock) (cols : Nat) : Dense K :=
  (runningOffsets 0 layout).foldl
    (fun P_small row =>
      (runningOffsets 0 layout).foldl
        (fun P_small col => P_small.setBlock row.2 col.2
          (P.block row.1.start col.1.start row.1.length col.1.length))
        P_small)
    (.ofFn cols cols k.storage)

/-- `UpdaterMSCKFPreview::ComputeFromSnapshot`; an accepted preview is `dx` and `P_plus`. -/
def computeFromSnapshot (snapshot : PreviewSnapshot K) (layout : List PreviewBlock)
    (H residual R : Dense K) : Except (PreviewStatus × PreviewStage) (Dense K × Dense K) :=
  let P := snapshot.covariance
  let n := P.rows
  let m := residual.rows
  if n = 0 ∨ m = 0 ∨ P.cols ≠ n ∨ H.rows ≠ m ∨ H.cols = 0 ∨ R.rows ≠ m ∨ R.cols ≠ m ∨
      layout = [] then .error (.invalidInput, .inputDimensions)
  else if snapshot.stateBlocks = [] ∨ checkStateBlocks n 0 none snapshot.stateBlocks ≠ some n then
    .error (.invalidInput, .stateOrder)
  else
    match checkLayout (containedByStateBlock snapshot.stateBlocks) n H.cols 0 [] layout with
    | none => .error (.invalidInput, .stateOrder)
    | some ordered =>
      if ordered ≠ H.cols then .error (.invalidInput, .inputDimensions)
      else if !(k.allFinite P && k.allFinite H && k.allFinite residual && k.allFinite R) then
        .error (.nonfinite, .rawInputs)
      else
        let M := previewCross k P snapshot.stateBlocks layout H m
        let P_small := previewMarginal k P layout H.cols
        let S := innovation k H P_small R
        let llt := k.llt (upperTriangle S)
        let Sinv := llt.solve (identity m)
        let gain : Dense K := .ofFn n m (k.mulSelfadjoint M Sinv)
        let P_plus := (P.setUpper (k.subMulTranspose P gain M)).mirrorUpper
        let dx : Dense K := .ofFn n 1 fun i _ => k.mulVec gain residual i
        if !k.allFinite M then .error (.nonfinite, .crossCovariance)
        else if !k.allFinite P_small then .error (.nonfinite, .marginalCovariance)
        else if !k.allFinite (upperTriangle S) then .error (.nonfinite, .innovation)
        else if !llt.success then .error (.factorizationFailed, .innovationFactorization)
        else if !k.allFinite Sinv then .error (.nonfinite, .innovationInverse)
        else if !k.allFinite gain then .error (.nonfinite, .kalmanGain)
        else if !k.allFinite P_plus then .error (.nonfinite, .posteriorCovariance)
        else if k.lt (k.minOf (diagonal P_plus)) 0 then .error (.negativeDiagonal, .posteriorDiagonal)
        else if !k.allFinite dx then .error (.nonfinite, .stateIncrement)
        else .ok (dx, P_plus)

end Preview

/-! ## The blocks as variables -/

section Bridge

variable {K : Type} [Zero K]

def PreviewBlock.toVar (b : PreviewBlock) : Var := .vec b.start b.length

def PreviewSnapshot.toState (snapshot : PreviewSnapshot K) : State K where
  options := ⟨.kalibr, false, false, false, false, false, 0, 0, 0⟩
  timestamp := 0
  imu := ⟨0, ⟨0, 0, 0⟩, 0, 0, 0⟩
  calibDt := 0
  clonesIMU := []
  featuresSLAM := []
  camIntrinsics := []
  cameras := []
  cov := snapshot.covariance
  vars := snapshot.stateBlocks.map PreviewBlock.toVar
  heap := { cells := fun ptr => { id := ptr }, next := snapshot.covariance.rows }

@[simp] theorem at_toState (snapshot : PreviewSnapshot K) (b : PreviewBlock) :
    snapshot.toState.at b.toVar = b.start := rfl

@[simp] theorem size_toVar (b : PreviewBlock) : b.toVar.size = b.length := rfl

omit [Zero K] in
theorem contiguous_of_check (h : Heap K) (hid : ∀ ptr, h.id ptr = ptr) {n : Nat}
    (blocks : List PreviewBlock) :
    ∀ (expected : Nat) (previous : Option Int) (stop : Nat),
      checkStateBlocks n expected previous blocks = some stop →
      Contiguous h expected (blocks.map PreviewBlock.toVar) stop ∧
        ∀ b ∈ blocks, b.column = b.start := by
  induction blocks with
  | nil =>
    intro expected previous stop hcheck
    exact ⟨Option.some.inj hcheck, by simp⟩
  | cons b rest ih =>
    intro expected previous stop hcheck
    rw [checkStateBlocks] at hcheck
    split at hcheck
    · cases hcheck
    rename_i hrange
    split at hcheck
    · cases hcheck
    rename_i horder
    obtain ⟨hrest, hcolumn⟩ := ih _ _ _ hcheck
    have hoffset : b.offset = expected := by
      by_contra hne
      exact horder (.inl hne)
    have hstart : b.start = expected := by
      unfold PreviewBlock.start
      omega
    refine ⟨⟨?_, ?_, hrest⟩, ?_⟩
    · rw [hid]
      exact_mod_cast hstart
    · change 0 < b.size.toNat
      omega
    · intro c hc
      rcases mem_cons.mp hc with rfl | hc
      · unfold PreviewBlock.column PreviewBlock.start
        omega
      · exact hcolumn c hc

omit [Zero K] in
theorem nodup_ptrs_of_contiguous (h : Heap K) (hid : ∀ ptr, h.id ptr = ptr)
    (blocks : List PreviewBlock) :
    ∀ start stop : Nat, Contiguous h start (blocks.map PreviewBlock.toVar) stop →
      ((blocks.map PreviewBlock.toVar).flatMap Var.ptrs).Nodup ∧
        ∀ x ∈ (blocks.map PreviewBlock.toVar).flatMap Var.ptrs, start ≤ x ∧ x < stop := by
  induction blocks with
  | nil => exact fun _ _ _ => ⟨nodup_nil, by simp⟩
  | cons b rest ih =>
    rintro start stop ⟨hat, hpos, hrest⟩
    obtain ⟨hnodup, hrange⟩ := ih (start + b.toVar.size) stop hrest
    have hptr : b.start = start := by
      rw [hid] at hat
      exact_mod_cast hat
    have hstop : stop = start + b.toVar.size + _ := Contiguous.stop_eq hrest
    have hlt : start < stop := by omega
    have hptrs : b.toVar.ptrs = [start] := by
      rw [← hptr]
      rfl
    rw [map_cons, flatMap_cons, hptrs]
    refine ⟨nodup_cons.mpr ⟨fun hmem => ?_, hnodup⟩, ?_⟩
    · have := (hrange start hmem).1
      omega
    · intro x hx
      rcases mem_cons.mp hx with heq | hx
      · exact ⟨heq.ge, heq.trans_lt hlt⟩
      · obtain ⟨hge, hbelow⟩ := hrange x hx
        exact ⟨by omega, hbelow⟩

theorem laid_toState {snapshot : PreviewSnapshot K}
    (hsquare : snapshot.covariance.cols = snapshot.covariance.rows)
    (hcheck : checkStateBlocks snapshot.covariance.rows 0 none snapshot.stateBlocks =
      some snapshot.covariance.rows) : Laid snapshot.toState := by
  have hid : ∀ ptr, snapshot.toState.heap.id ptr = ptr := fun _ => rfl
  obtain ⟨hcontiguous, -⟩ := contiguous_of_check snapshot.toState.heap hid snapshot.stateBlocks _ _ _
    hcheck
  obtain ⟨hnodup, hrange⟩ := nodup_ptrs_of_contiguous snapshot.toState.heap hid snapshot.stateBlocks
    _ _ hcontiguous
  exact
    { square := hsquare.symm
      contiguous := hcontiguous
      consistent := by
        intro v hv part hpart
        obtain ⟨b, -, rfl⟩ := mem_map.mp hv
        obtain rfl : part = (b.start, 0) := by simpa [PreviewBlock.toVar, Var.parts] using hpart
        simp [hid, PreviewBlock.toVar, Var.ptr]
      nodup := hnodup
      allocated := fun x hx => (hrange x hx).2
      clones := nofun
      features := nofun }

structure LayoutFits (snapshot : PreviewSnapshot K) (layout : List PreviewBlock)
    (covered : List Nat) (expected stop : Nat) : Prop where
  columns : ∀ it : Nat, it = expected → columnsOf it (layout.map PreviewBlock.toVar) =
    layout.map fun b => (b.toVar, b.column)
  offsets : (runningOffsets expected layout).map (fun row => (row.1.toVar, row.2)) =
    columnsOf expected (layout.map PreviewBlock.toVar)
  total : stop = expected + sizeOfVars (layout.map PreviewBlock.toVar)
  nodup : (snapshot.toState.positions (layout.map PreviewBlock.toVar)).Nodup
  fresh : ∀ x ∈ snapshot.toState.positions (layout.map PreviewBlock.toVar), x ∉ covered
  inside : ∀ x ∈ snapshot.toState.positions (layout.map PreviewBlock.toVar),
    x < snapshot.covariance.rows

theorem positions_cons (snapshot : PreviewSnapshot K) (b : PreviewBlock) (rest : List PreviewBlock) :
    snapshot.toState.positions ((b :: rest).map PreviewBlock.toVar) =
      b.coordinates ++ snapshot.toState.positions (rest.map PreviewBlock.toVar) := rfl

theorem layoutFits_of_check (snapshot : PreviewSnapshot K) {contained : PreviewBlock → Bool}
    {cols : Nat} (layout : List PreviewBlock) :
    ∀ (expected : Nat) (covered : List Nat) (stop : Nat),
      checkLayout contained snapshot.covariance.rows cols expected covered layout = some stop →
      LayoutFits snapshot layout covered expected stop := by
  induction layout with
  | nil =>
    intro expected covered stop hcheck
    obtain rfl := Option.some.inj hcheck
    exact
      { columns := fun _ _ => rfl
        offsets := rfl
        total := rfl
        nodup := nodup_nil
        fresh := nofun
        inside := nofun }
  | cons b rest ih =>
    intro expected covered stop hcheck
    rw [checkLayout] at hcheck
    split at hcheck
    · cases hcheck
    rename_i hrange
    split at hcheck
    · cases hcheck
    split at hcheck
    · cases hcheck
    rename_i hcovered
    -- `covered` has the coordinates of the blocks before, so those behind avoid this one
    have hrest := ih _ _ _ hcheck
    have hcolumn : b.column = expected := by
      unfold PreviewBlock.column
      omega
    have hinside : b.start + b.length ≤ snapshot.covariance.rows := by
      unfold PreviewBlock.start PreviewBlock.length
      omega
    have hnew : ∀ x ∈ b.coordinates, x ∉ covered := by
      intro x hx hmem
      exact hcovered (any_eq_true.mpr ⟨x, hx, contains_iff_mem.mpr hmem⟩)
    have hmem : ∀ x ∈ b.coordinates, b.start ≤ x ∧ x < b.start + b.length := by
      intro x hx
      obtain ⟨c, hc, rfl⟩ := mem_map.mp hx
      have := mem_range.mp hc
      omega
    have hdistinct : b.coordinates.Nodup :=
      nodup_range.map fun _ _ => Nat.add_left_cancel
    exact
      { columns := by
          rintro it rfl
          rw [map_cons, columnsOf, size_toVar, hrest.columns _ rfl, map_cons, hcolumn]
        offsets := by
          rw [runningOffsets, map_cons, hrest.offsets]
          rfl
        total := by
          rw [hrest.total, map_cons, sizeOfVars_cons, size_toVar]
          omega
        nodup := by
          rw [positions_cons]
          refine nodup_append'.mpr ⟨hdistinct, hrest.nodup, fun x hx hx' => ?_⟩
          exact hrest.fresh x hx' (mem_append_right _ hx)
        fresh := by
          intro x hx
          rw [positions_cons] at hx
          rcases mem_append.mp hx with hx | hx
          · exact hnew x hx
          · exact fun hin => hrest.fresh x hx (mem_append_left _ hin)
        inside := by
          intro x hx
          rw [positions_cons] at hx
          rcases mem_append.mp hx with hx | hx
          · have := hmem x hx
            omega
          · exact hrest.inside x hx }

theorem checkLayout_weaken {contained : PreviewBlock → Bool} {n cols : Nat}
    (layout : List PreviewBlock) :
    ∀ (expected : Nat) (covered : List Nat) (stop : Nat),
      checkLayout contained n cols expected covered layout = some stop →
      checkLayout (fun _ => true) n cols expected covered layout = some stop := by
  induction layout with
  | nil => exact fun _ _ _ h => h
  | cons b rest ih =>
    intro expected covered stop hcheck
    rw [checkLayout] at hcheck ⊢
    split at hcheck
    · cases hcheck
    rename_i hrange
    split at hcheck
    · cases hcheck
    split at hcheck
    · cases hcheck
    rename_i hcovered
    rw [if_neg hrange, if_neg (by simp), if_neg hcovered]
    exact ih _ _ _ hcheck

end Bridge

/-! ## The loops -/

structure Describes {K : Type} [Zero K] (st : State K) (order : List Var)
    (stateBlocks layout : List PreviewBlock) : Prop where
  state : stateBlocks.map (fun b => (b.column, b.length)) = st.vars.map fun v => (st.at v, v.size)
  columns : layout.map (fun b => (b.start, b.length, b.column)) =
    (columnsOf 0 order).map fun meas => (st.at meas.1, meas.1.size, meas.2)
  offsets : (runningOffsets 0 layout).map (fun row => (row.1.start, row.1.length, row.2)) =
    (columnsOf 0 order).map fun meas => (st.at meas.1, meas.1.size, meas.2)

section Loops

variable {K : Type} [Zero K] {st : State K} {order : List Var} {stateBlocks layout : List PreviewBlock}

theorem LayoutFits.describes {snapshot : PreviewSnapshot K} {stop : Nat}
    (hfits : LayoutFits snapshot layout [] 0 stop)
    (hblocks : ∀ b ∈ snapshot.stateBlocks, b.column = b.start) :
    Describes snapshot.toState (layout.map PreviewBlock.toVar) snapshot.stateBlocks layout where
  state := by
    change _ = (snapshot.stateBlocks.map PreviewBlock.toVar).map _
    rw [List.map_map]
    refine map_congr_left fun b hb => ?_
    rw [hblocks b hb]
    rfl
  columns := by
    rw [hfits.columns 0 rfl, List.map_map]
    rfl
  offsets := by
    rw [← hfits.offsets, List.map_map]
    rfl

theorem previewCross_eq {k : Kernels K} (H : Dense K) (hd : Describes st order stateBlocks layout) :
    previewCross k st.cov stateBlocks layout H H.rows = crossCovariance k st order H H.rows := by
  have hinner : ∀ block : Nat × Nat,
      layout.foldl (fun M_block b => .ofFn M_block.rows M_block.cols (k.addMulTranspose M_block
        (st.cov.block block.1 b.start block.2 b.length) (H.block 0 b.column H.rows b.length)))
        (Dense.zero block.2 H.rows) =
      (columnsOf 0 order).foldl (fun M_i meas => .ofFn M_i.rows M_i.cols (k.addMulTranspose M_i
        (st.cov.block block.1 (st.at meas.1) block.2 meas.1.size)
        (H.block 0 meas.2 H.rows meas.1.size))) (.zero block.2 H.rows) := by
    intro block
    have hfold := congrArg (List.foldl (fun (M_block : Dense K) (b : Nat × Nat × Nat) =>
      .ofFn M_block.rows M_block.cols (k.addMulTranspose M_block
        (st.cov.block block.1 b.1 block.2 b.2.1) (H.block 0 b.2.2 H.rows b.2.1)))
      (.zero block.2 H.rows)) hd.columns
    rwa [foldl_map, foldl_map] at hfold
  have houter := congrArg (List.foldl (fun (M : Dense K) (block : Nat × Nat) =>
    M.setBlock block.1 0 ((columnsOf 0 order).foldl (fun M_i meas => Dense.ofFn M_i.rows M_i.cols
      (k.addMulTranspose M_i (st.cov.block block.1 (st.at meas.1) block.2 meas.1.size)
        (H.block 0 meas.2 H.rows meas.1.size))) (Dense.zero block.2 H.rows)))
    (Dense.zero st.cov.rows H.rows)) hd.state
  rw [foldl_map, foldl_map] at houter
  refine Eq.trans ?_ houter
  exact foldl_ext _ _ _ fun M b _ => congrArg (M.setBlock b.column 0) (hinner (b.column, b.length))

theorem previewMarginal_eq {k : Kernels K} {cols : Nat} (hd : Describes st order stateBlocks layout)
    (hcols : cols = sizeOfVars order) :
    previewMarginal k st.cov layout cols = marginalCovariance st order := by
  -- The loops are those of the marginal covariance on another first matrix.
  have hinner : ∀ (row : Nat × Nat × Nat) (M : Dense K),
      (runningOffsets 0 layout).foldl (fun P_small col => P_small.setBlock row.2.2 col.2
        (st.cov.block row.1 col.1.start row.2.1 col.1.length)) M =
      (columnsOf 0 order).foldl (fun cov j => cov.setBlock row.2.2 j.2
        (st.cov.block row.1 (st.at j.1) row.2.1 j.1.size)) M := by
    intro row M
    have hfold := congrArg (List.foldl (fun (P_small : Dense K) (col : Nat × Nat × Nat) =>
      P_small.setBlock row.2.2 col.2.2 (st.cov.block row.1 col.1 row.2.1 col.2.1)) M) hd.offsets
    rwa [foldl_map, foldl_map] at hfold
  have hloops : previewMarginal k st.cov layout cols =
      (columnsOf 0 order).foldl
        (fun cov i => (columnsOf 0 order).foldl
          (fun cov j => cov.setBlock i.2 j.2 (st.cov.block (st.at i.1) (st.at j.1) i.1.size j.1.size))
          cov)
        (.ofFn cols cols k.storage) := by
    have houter := congrArg (List.foldl (fun (P_small : Dense K) (row : Nat × Nat × Nat) =>
      (columnsOf 0 order).foldl (fun cov j => cov.setBlock row.2.2 j.2
        (st.cov.block row.1 (st.at j.1) row.2.1 j.1.size)) P_small) (.ofFn cols cols k.storage))
      hd.offsets
    rw [foldl_map, foldl_map] at houter
    refine Eq.trans ?_ houter
    exact foldl_ext _ _ _ fun M row _ => hinner (row.1.start, row.1.length, row.2) M
  obtain ⟨hrows, hcols'⟩ := @size_foldl_marginal K _ st (columnsOf 0 order) (columnsOf 0 order)
    (.ofFn cols cols k.storage)
  obtain ⟨hrows', hcols''⟩ := @size_marginalCovariance K _ st order
  rw [hloops]
  refine Dense.ext_coeff (hrows.trans (hcols.trans hrows'.symm))
    (hcols'.trans (hcols.trans hcols''.symm)) fun c d hc hd' => ?_
  rw [hrows] at hc
  rw [hcols'] at hd'
  have hc' : c < cols := hc
  have hd'' : d < cols := hd'
  have hcoeff := @coeff_foldl_marginal K _ st order order 0 (.ofFn cols cols k.storage) c d hcols hc hd'
  rw [if_pos (by omega), Nat.sub_zero] at hcoeff
  rw [hcoeff, coeff_marginalCovariance (hcols ▸ hc') (hcols ▸ hd'')]

theorem minOf_mem (k : Kernels K) (x : K) (rest : List K) : k.minOf (x :: rest) ∈ x :: rest := by
  change rest.foldl (fun best y => if k.lt y best then y else best) x ∈ x :: rest
  induction rest generalizing x with
  | nil => exact mem_cons_self
  | cons y rest ih =>
    rw [foldl_cons]
    rcases mem_cons.mp (ih (if k.lt y x then y else x)) with heq | hmem
    · rw [heq]
      split
      · exact mem_cons_of_mem _ mem_cons_self
      · exact mem_cons_self
    · exact mem_cons_of_mem _ (mem_cons_of_mem _ hmem)

end Loops

/-! ## The preview in exact arithmetic -/

section Exact

variable {llt : Dense ℝ → LLT ℝ} {rotate : List ℝ → List ℝ → List ℝ}
  {eigenvalues : Dense ℝ → Option (ℝ × ℝ)} {snapshot : PreviewSnapshot ℝ}
  {layout : List PreviewBlock} {H residual R : Dense ℝ}

theorem allFinite_exactKernels (M : Dense ℝ) :
    (exactKernels llt rotate eigenvalues).allFinite M = true := by
  unfold Kernels.allFinite
  exact all_eq_true.mpr fun i _ => all_eq_true.mpr fun j _ => rfl

theorem not_lt_minOf_diagonal {M : Dense ℝ} (hpos : 0 < M.rows)
    (h : ∀ i < M.rows, 0 ≤ M.coeff i i) :
    ¬ (exactKernels llt rotate eigenvalues).lt
      ((exactKernels llt rotate eigenvalues).minOf (diagonal M)) 0 = true := by
  obtain ⟨n, hn⟩ := Nat.exists_eq_succ_of_ne_zero hpos.ne'
  have hdiagonal : diagonal M = M.coeff 0 0 :: (List.range n).map fun i => M.coeff (i + 1) (i + 1) := by
    unfold diagonal
    rw [hn, range_succ_eq_map, map_cons, List.map_map]
    rfl
  have hmem := minOf_mem (exactKernels llt rotate eigenvalues) (M.coeff 0 0)
    ((List.range n).map fun i => M.coeff (i + 1) (i + 1))
  rw [← hdiagonal] at hmem
  obtain ⟨i, hi, heq⟩ := mem_map.mp hmem
  rw [← heq]
  change ¬ decide (M.coeff i i < 0) = true
  rw [decide_eq_true_eq, not_lt]
  exact h i (mem_range.mp hi)

structure PreviewInput (snapshot : PreviewSnapshot ℝ) (layout : List PreviewBlock)
    (H residual R : Dense ℝ) : Prop where
  state_pos : 0 < snapshot.covariance.rows
  square : snapshot.covariance.cols = snapshot.covariance.rows
  measured_pos : 0 < residual.rows
  rows : H.rows = residual.rows
  cols_pos : 0 < H.cols
  noise_rows : R.rows = residual.rows
  noise_cols : R.cols = residual.rows
  blocks : checkStateBlocks snapshot.covariance.rows 0 none snapshot.stateBlocks =
    some snapshot.covariance.rows
  layout : checkLayout (containedByStateBlock snapshot.stateBlocks) snapshot.covariance.rows H.cols 0
    [] layout = some H.cols

theorem computeFromSnapshot_eq_ekfProposal (hin : PreviewInput snapshot layout H residual R)
    (hsuccess : (llt (upperTriangle (innovation (exactKernels llt rotate eigenvalues) H
      (marginalCovariance snapshot.toState (layout.map PreviewBlock.toVar)) R))).success = true)
    (hdiagonal : ∀ i < snapshot.covariance.rows,
      0 ≤ (ekfProposal (exactKernels llt rotate eigenvalues) snapshot.toState
        (layout.map PreviewBlock.toVar) H residual R).2.coeff i i) :
    computeFromSnapshot (exactKernels llt rotate eigenvalues) snapshot layout H residual R =
      .ok (ekfProposal (exactKernels llt rotate eigenvalues) snapshot.toState
        (layout.map PreviewBlock.toVar) H residual R) := by
  have hstate := hin.state_pos
  have hmeasured := hin.measured_pos
  have hcols := hin.cols_pos
  have hfits := layoutFits_of_check snapshot layout 0 [] H.cols hin.layout
  obtain ⟨-, hcolumn⟩ := contiguous_of_check snapshot.toState.heap (fun _ => rfl) snapshot.stateBlocks
    _ _ _ hin.blocks
  have hdescribes := hfits.describes hcolumn
  have hcross : previewCross (exactKernels llt rotate eigenvalues) snapshot.covariance
      snapshot.stateBlocks layout H residual.rows = _ :=
    hin.rows ▸ previewCross_eq H hdescribes
  have hmarginal : previewMarginal (exactKernels llt rotate eigenvalues) snapshot.covariance layout
      H.cols = _ := previewMarginal_eq hdescribes (by rw [hfits.total, Nat.zero_add])
  have hlayout : layout ≠ [] := by
    rintro rfl
    have := hfits.total
    simp [sizeOfVars] at this
    omega
  have hblocks : snapshot.stateBlocks ≠ [] := by
    intro hnil
    have := hin.blocks
    rw [hnil] at this
    have := Option.some.inj this
    omega
  -- every check passes: the sizes, the layout, and finite values
  unfold computeFromSnapshot
  simp only [hcross, hmarginal, allFinite_exactKernels]
  rw [if_neg (by
      rintro (h | h | h | h | h | h | h | h)
      · omega
      · omega
      · exact h hin.square
      · exact h hin.rows
      · omega
      · exact h hin.noise_rows
      · exact h hin.noise_cols
      · exact hlayout h),
    if_neg (by
      rintro (h | h)
      · exact hblocks h
      · exact h hin.blocks), hin.layout]
  dsimp only
  rw [if_neg (by simp), if_neg (by simp), if_neg (by simp), if_neg (by simp), if_neg (by simp),
    if_neg (by
      rw [Bool.not_eq_true', Bool.not_eq_false]
      exact hsuccess),
    if_neg (by simp), if_neg (by simp), if_neg (by simp)]
  refine (if_neg (not_lt_minOf_diagonal ?_ fun i hi => ?_)).trans ?_
  · exact hstate
  · have hentry := hdiagonal i hi
    unfold ekfProposal at hentry
    rw [hin.noise_rows] at hentry
    exact hentry
  · rw [if_neg (by simp)]
    unfold ekfProposal
    rw [hin.noise_rows]
    rfl

end Exact

/-! ## The Jacobian on the whole state -/

section Selection

def selection (st : State ℝ) (order : List Var) (n N : Nat) : Matrix (Fin n) (Fin N) ℝ := fun c j =>
  if st.pos order c = j then 1 else 0

variable {st : State ℝ} {order : List Var} {n : Nat}

theorem sum_selection (hinside : ∀ c < n, st.pos order c < st.cov.rows) (c : Fin n) (f : Nat → ℝ) :
    ∑ j : Fin st.cov.rows, selection st order n st.cov.rows c j * f j = f (st.pos order c) := by
  unfold selection
  rw [sum_ite_eq_val (hinside c c.isLt), one_mul]

theorem chosenColumns_eq (hinside : ∀ c < n, st.pos order c < st.cov.rows) :
    chosenColumns st order st.cov.rows n =
      Dense.toMatrix st.cov.rows st.cov.rows st.cov * (selection st order n st.cov.rows)ᵀ := by
  ext i c
  rw [Matrix.mul_apply]
  simp only [Matrix.transpose_apply, mul_comm (Dense.toMatrix _ _ _ _ _)]
  exact (sum_selection hinside c fun j => st.cov.coeff i j).symm

theorem chosenBlock_eq (hinside : ∀ c < n, st.pos order c < st.cov.rows) :
    chosenBlock st order n = selection st order n st.cov.rows *
      Dense.toMatrix st.cov.rows st.cov.rows st.cov * (selection st order n st.cov.rows)ᵀ := by
  ext c d
  rw [Matrix.mul_assoc, ← chosenColumns_eq hinside, Matrix.mul_apply]
  exact (sum_selection hinside c fun j => st.cov.coeff j (st.pos order d)).symm

end Selection

section Embedding

variable {K : Type} [Zero K] {snapshot : PreviewSnapshot K} {H : Dense K}

def embedColumns (H : Dense K) (n : Nat) (layout : List PreviewBlock) : Dense K :=
  layout.foldl
    (fun full block => full.setBlock 0 block.start (H.block 0 block.column H.rows block.length))
    (.zero H.rows n)

theorem coeff_foldl_embed (layout : List PreviewBlock) :
    ∀ (it : Nat) (full : Dense K), full.rows = H.rows → full.cols = snapshot.covariance.rows →
      (∀ at' : Nat, at' = it → columnsOf at' (layout.map PreviewBlock.toVar) =
        layout.map fun b => (b.toVar, b.column)) →
      (snapshot.toState.positions (layout.map PreviewBlock.toVar)).Nodup →
      (∀ x ∈ snapshot.toState.positions (layout.map PreviewBlock.toVar),
        x < snapshot.covariance.rows) →
      ∀ a < H.rows,
        (∀ c < sizeOfVars (layout.map PreviewBlock.toVar),
          (layout.foldl (fun full block => full.setBlock 0 block.start
            (H.block 0 block.column H.rows block.length)) full).coeff a
              (snapshot.toState.pos (layout.map PreviewBlock.toVar) c) = H.coeff a (it + c)) ∧
        ∀ j < snapshot.covariance.rows,
          j ∉ snapshot.toState.positions (layout.map PreviewBlock.toVar) →
          (layout.foldl (fun full block => full.setBlock 0 block.start
            (H.block 0 block.column H.rows block.length)) full).coeff a j = full.coeff a j := by
  induction layout with
  | nil => exact fun _ _ _ _ _ _ _ _ _ => ⟨fun _ hc => absurd hc (Nat.not_lt_zero _), fun _ _ _ => rfl⟩
  | cons b rest ih =>
    intro it full hrows hcols hcolumns hnodup hinside a ha
    have hhead := hcolumns it rfl
    rw [map_cons, columnsOf, map_cons, size_toVar] at hhead
    obtain ⟨hpair, htail⟩ := List.cons.inj hhead
    have hcolumn : it = b.column := (Prod.mk.inj hpair).2
    rw [positions_cons] at hnodup hinside
    obtain ⟨-, hrest, hdisjoint⟩ := nodup_append'.mp hnodup
    have hrec := ih (it + b.length) (full.setBlock 0 b.start (H.block 0 b.column H.rows b.length))
      hrows hcols (fun _ h => h ▸ htail) hrest
      (fun x hx => hinside x (mem_append_right _ hx)) a ha
    have hmem : ∀ c < b.length, b.start + c ∈ b.coordinates := fun c hc =>
      mem_map.mpr ⟨c, mem_range.mpr hc, rfl⟩
    rw [foldl_cons, map_cons]
    constructor
    · intro c hc
      rw [sizeOfVars_cons, size_toVar] at hc
      by_cases hfirst : c < b.length
      · have hpos : snapshot.toState.pos (b.toVar :: rest.map PreviewBlock.toVar) c = b.start + c :=
          pos_cons_lt hfirst
        have hlt : b.start + c < snapshot.covariance.rows :=
          hinside _ (mem_append_left _ (hmem c hfirst))
        rw [hpos, hrec.2 _ hlt fun hin => hdisjoint (hmem c hfirst) hin,
          Dense.coeff_setBlock (hrows ▸ ha) (hcols ▸ hlt), Dense.rows_block, Dense.cols_block,
          if_pos (by omega), Dense.coeff_block (by omega) (by omega), hcolumn]
        congr 1 <;> omega
      · obtain ⟨d, rfl⟩ := Nat.exists_eq_add_of_le (Nat.le_of_not_lt hfirst)
        have hpos : snapshot.toState.pos (b.toVar :: rest.map PreviewBlock.toVar) (b.length + d) =
            snapshot.toState.pos (rest.map PreviewBlock.toVar) d := pos_cons_add d
        rw [hpos, hrec.1 d (by omega), Nat.add_assoc]
    · intro j hj hout
      have hout' : j ∉ b.coordinates ++
          snapshot.toState.positions (rest.map PreviewBlock.toVar) := hout
      rw [mem_append, not_or] at hout'
      rw [hrec.2 j hj hout'.2, Dense.coeff_setBlock (hrows ▸ ha) (hcols ▸ hj), Dense.rows_block,
        Dense.cols_block, if_neg]
      rintro ⟨-, -, hge, hlt⟩
      have := hmem (j - b.start) (by omega)
      rw [Nat.add_sub_cancel' hge] at this
      exact hout'.1 this

theorem size_embedColumns (n : Nat) (layout : List PreviewBlock) :
    (embedColumns H n layout).rows = H.rows ∧ (embedColumns H n layout).cols = n :=
  Dense.size_foldl (by exact fun _ _ => ⟨rfl, rfl⟩) layout _

end Embedding

theorem toMatrix_embedColumns {snapshot : PreviewSnapshot ℝ} {layout : List PreviewBlock}
    {H : Dense ℝ} {m : Nat} (hrows : H.rows = m) (hfits : LayoutFits snapshot layout [] 0 H.cols) :
    Dense.toMatrix m snapshot.covariance.rows (embedColumns H snapshot.covariance.rows layout) =
      Dense.toMatrix m H.cols H *
        selection snapshot.toState (layout.map PreviewBlock.toVar) H.cols snapshot.covariance.rows := by
  have htotal : H.cols = sizeOfVars (layout.map PreviewBlock.toVar) := by
    rw [hfits.total, Nat.zero_add]
  ext a j
  obtain ⟨hchosen, hother⟩ := @coeff_foldl_embed ℝ _ snapshot H layout 0
    (.zero H.rows snapshot.covariance.rows) rfl rfl hfits.columns hfits.nodup hfits.inside a
    (hrows ▸ a.isLt)
  rw [Matrix.mul_apply]
  change (embedColumns H snapshot.covariance.rows layout).coeff a j = _
  have hlength := @length_positions ℝ _ snapshot.toState (layout.map PreviewBlock.toVar)
  by_cases hmem : j.val ∈ snapshot.toState.positions (layout.map PreviewBlock.toVar)
  · obtain ⟨c, hc, hj⟩ := getElem_of_mem hmem
    have hc' : c < H.cols := by omega
    have hpos : snapshot.toState.pos (layout.map PreviewBlock.toVar) c = j := by
      unfold State.pos
      rw [getD_eq_getElem _ _ hc, hj]
    rw [Finset.sum_eq_single ⟨c, hc'⟩]
    · have hcoeff := hchosen c (by omega)
      rw [hpos, Nat.zero_add] at hcoeff
      unfold selection
      rw [if_pos hpos, mul_one]
      exact hcoeff
    · intro d _ hne
      unfold selection
      rw [if_neg, mul_zero]
      intro hd
      have hd' : d.val < (snapshot.toState.positions (layout.map PreviewBlock.toVar)).length := by
        omega
      unfold State.pos at hd
      rw [getD_eq_getElem _ _ hd', ← hj] at hd
      exact hne (Fin.ext ((List.Nodup.getElem_inj_iff hfits.nodup).mp hd))
    · exact fun h => absurd (Finset.mem_univ _) h
  · have hzero := hother j j.isLt hmem
    rw [Dense.coeff_zero] at hzero
    refine hzero.trans (Finset.sum_eq_zero fun c _ => ?_).symm
    unfold selection
    rw [if_neg, mul_zero]
    intro hpos
    exact hmem (hpos ▸ pos_mem (by omega))

end Bravo.Filter
