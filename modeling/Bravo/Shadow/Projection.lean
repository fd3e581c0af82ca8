import Bravo.Filter.Preview
import Bravo.Shadow.Process
import Bravo.Trace.Postcommit

/-! # The projection of a composite state

`CP2CompositeStateAdapter::ProjectPreview` and the checks of the layout behind it. `Validate` goes once over
the active types and once over the semantic blocks; both turn out to tile the covariance, the second more
finely than the first.
-/

namespace Bravo.Shadow

open Bravo.Trace List

/-! ## The code -/

/-- The state block of an active type; both numbers must be an `Eigen::Index`. -/
def projectBlock (active : CP2ActiveStateType) : Except CP2CompositeStateStatus MSCKFUpdatePreviewBlock :=
  if active.covarianceId.toNat < indexLimit ∧ active.errorSize.toNat < indexLimit then
    .ok ⟨active.covarianceId.toNat, active.errorSize.toNat, active.covarianceId.toNat⟩
  else .error .kInvalidShape

def projectPreview (unitNorm : List Binary64 → Bool) (snapshot : CP2CompositeStateSnapshot) :
    Except CP2CompositeStateStatus MSCKFUpdatePreviewSnapshot :=
  if snapshot.phase ≠ .kPhase0Prior then .error .kInvalidPhase
  else if validate unitNorm snapshot ≠ .kAccepted then .error (validate unitNorm snapshot)
  else do
    let stateBlocks ← snapshot.activeTypes.mapM projectBlock
    return ⟨snapshot.covariance, stateBlocks⟩

/-- A state block as `ComputeFromSnapshot` reads it. -/
def MSCKFUpdatePreviewBlock.toPreview (b : MSCKFUpdatePreviewBlock) : Filter.PreviewBlock :=
  ⟨b.covarianceId, b.size, b.offset⟩

/-! ## Tilings -/

/-- Nonempty blocks (first coordinate, size), each beginning where the one before it ends. -/
def Tiles : Nat → List (Nat × Nat) → Nat → Prop
  | start, [], stop => start = stop
  | start, block :: rest, stop => block.1 = start ∧ 0 < block.2 ∧ Tiles (start + block.2) rest stop

variable {blocks : List (Nat × Nat)} {start stop : Nat}

theorem Tiles.le (h : Tiles start blocks stop) : start ≤ stop := by
  induction blocks generalizing start with
  | nil => exact le_of_eq h
  | cons block rest ih =>
    have := ih h.2.2
    omega

theorem Tiles.coordinates (h : Tiles start blocks stop) :
    blocks.flatMap (fun block => List.range' block.1 block.2) = List.range' start (stop - start) := by
  induction blocks generalizing start with
  | nil =>
    obtain rfl : start = stop := h
    simp
  | cons block rest ih =>
    obtain ⟨rfl, -, hrest⟩ := h
    have hle := hrest.le
    rw [flatMap_cons, ih hrest, show stop - block.1 = block.2 + (stop - (block.1 + block.2)) by omega]
    exact range'_append_1

/-! ## What `Validate` asks -/

theorem requireThat_eq_ok {c : Bool} {status : CP2CompositeStateStatus} {u : Unit} :
    requireThat c status = .ok u ↔ c = true := by
  unfold requireThat
  cases c <;> simp

theorem bind_eq_error {α β ε : Type} {x : Except ε α} {f : α → Except ε β} {status : ε} :
    x >>= f = .error status ↔ x = .error status ∨ ∃ a, x = .ok a ∧ f a = .error status := by
  cases x <;> simp [bind, Except.bind]

theorem requireThat_eq_error {c : Bool} {status status' : CP2CompositeStateStatus} :
    requireThat c status = .error status' ↔ c = false ∧ status = status' := by
  unfold requireThat
  cases c <;> simp

variable {actives : List CP2ActiveStateType} {n : Nat}

theorem validateActiveTypes_ne {p : ActivePartition} :
    validateActiveTypes n p actives ≠ .error .kAccepted := by
  induction actives generalizing p with
  | nil => exact nofun
  | cons active actives ih =>
    have htag : ∀ q, validateActiveTag q active ≠ .error .kAccepted := by
      intro q
      unfold validateActiveTag
      cases active.tag <;> simp [bind_eq_error, requireThat_eq_error, pure, Except.pure]
    simp [validateActiveTypes, bind_eq_error, requireThat_eq_error, ih, htag]

theorem validateSemanticBlocks_ne {blocks : List CP2SemanticStateBlock} :
    validateSemanticBlocks actives blocks ≠ .error .kAccepted := by
  induction actives generalizing blocks with
  | nil => simp [validateSemanticBlocks, requireThat_eq_error]
  | cons active actives ih =>
    unfold validateSemanticBlocks
    split <;> simp [bind_eq_error, requireThat_eq_error, ih]

theorem forM_validateActiveValues_ne {snapshot : CP2CompositeStateSnapshot} :
    forM actives (validateActiveValues snapshot) ≠ .error .kAccepted := by
  have hone : ∀ active, validateActiveValues snapshot active ≠ .error .kAccepted := by
    intro active
    unfold validateActiveValues validateAnchor
    repeat' split
    all_goals simp [bind_eq_error, requireThat_eq_error, pure, Except.pure]
  induction actives with
  | nil => exact nofun
  | cons active actives ih => simpa [forM_cons, bind_eq_error, hone] using fun _ _ => ih

theorem validateChecks_of_accepted {unitNorm : List Binary64 → Bool} {snapshot : CP2CompositeStateSnapshot}
    (h : validate unitNorm snapshot = .kAccepted) : validateChecks unitNorm snapshot = .ok () := by
  unfold validate at h
  split at h
  · assumption
  · rename_i status hstatus
    subst h
    simp [validateChecks, bind_eq_error, requireThat_eq_error, validateActiveTypes_ne, validateSemanticBlocks_ne,
      forM_validateActiveValues_ne] at hstatus

def extent (active : CP2ActiveStateType) : Nat × Nat := (active.covarianceId.toNat, active.errorSize.toNat)

theorem validateActiveTag_ok {p p' : ActivePartition} {active : CP2ActiveStateType}
    (h : validateActiveTag p active = .ok p') :
    p'.expectedOffset = p.expectedOffset ∧ p'.prior = p.prior ∧
      p'.imuCount = p.imuCount + (active.tag == .kImu).toNat ∧
      (active.tag = .kImu → p.prior = [] ∧ active.errorSize = 15) ∧
      (active.tag = .kClone → active.errorSize = 6) := by
  unfold validateActiveTag at h
  cases htag : active.tag with
  | kImu =>
    simp only [htag, bind_eq_ok, requireThat_eq_ok, Bool.and_eq_true, beq_iff_eq, List.isEmpty_iff] at h
    obtain ⟨-, ⟨⟨⟨hprior, -⟩, hsize⟩, -⟩, ⟨⟩⟩ := h
    exact ⟨rfl, rfl, rfl, fun _ => ⟨hprior, hsize⟩, by simp⟩
  | kClone =>
    simp only [htag, bind_eq_ok, requireThat_eq_ok, Bool.and_eq_true, beq_iff_eq] at h
    obtain ⟨-, ⟨hsize, -⟩, -, -, -, -, ⟨⟩⟩ := h
    exact ⟨rfl, rfl, rfl, by simp, fun _ => hsize⟩
  | kSlamLandmark =>
    simp only [htag, bind_eq_ok, requireThat_eq_ok] at h
    obtain ⟨-, -, -, -, -, -, ⟨⟩⟩ := h
    exact ⟨rfl, rfl, rfl, by simp, by simp⟩

/-- The entries tile the covariance; none behind the first is an IMU. -/
structure Partitioned (p p' : ActivePartition) (actives : List CP2ActiveStateType) : Prop where
  tiles : Tiles p.expectedOffset.toNat (actives.map extent) p'.expectedOffset.toNat
  imuCount : p'.imuCount = p.imuCount + actives.countP (·.tag == .kImu)
  imu : p.prior ≠ [] → ∀ active ∈ actives, active.tag ≠ .kImu
  tail : ∀ active ∈ actives.tail, active.tag ≠ .kImu
  sizes : ∀ active ∈ actives,
    (active.tag = .kImu → active.errorSize = 15) ∧ (active.tag = .kClone → active.errorSize = 6)

theorem validateActiveTypes_ok {p p' : ActivePartition}
    (h : validateActiveTypes n p actives = .ok p') : Partitioned p p' actives := by
  induction actives generalizing p with
  | nil =>
    cases h
    exact ⟨rfl, rfl, nofun, nofun, nofun⟩
  | cons active actives ih =>
    simp only [validateActiveTypes, bind_eq_ok, requireThat_eq_ok, Bool.and_eq_true, bne_iff_ne, ne_eq,
      beq_iff_eq, decide_eq_true_eq] at h
    obtain ⟨-, ⟨⟨⟨⟨hsize, hid⟩, -⟩, hwrap⟩, hle⟩, -, -, p₁, htag, hrest⟩ := h
    obtain ⟨hoffset, hprior, himu, hfirst, hclone⟩ := validateActiveTag_ok htag
    have hoffset' : p₁.expectedOffset.toNat = p.expectedOffset.toNat + active.errorSize.toNat := by
      rw [hoffset, UInt64.toNat_ofNat', Nat.mod_eq_of_lt hwrap]
    -- behind an entry the prior is not empty, so that an IMU is refused
    have hrec := ih (p := { p₁ with prior := p₁.prior ++ [active] }) hrest
    have hrestImu := hrec.imu (append_ne_nil_of_right_ne_nil _ (cons_ne_nil _ _))
    have hpos : 0 < active.errorSize.toNat :=
      Nat.pos_of_ne_zero fun hzero => hsize (UInt64.toNat_inj.mp hzero)
    refine ⟨⟨congrArg UInt64.toNat hid, hpos, hoffset' ▸ hrec.tiles⟩, ?_, fun hne => ?_, hrestImu, ?_⟩
    · rw [hrec.imuCount, countP_cons, himu]
      cases active.tag == .kImu
      · simp
      · simp
        omega
    · exact forall_mem_cons.mpr ⟨fun hkind => hne (hfirst hkind).1, hrestImu⟩
    · exact forall_mem_cons.mpr ⟨⟨fun hkind => (hfirst hkind).2, hclone⟩, hrec.sizes⟩

def Refines (group : List CP2SemanticStateBlock) (block : MSCKFUpdatePreviewBlock) : Prop :=
  group.flatMap (fun s => List.range' s.covarianceId.toNat s.errorSize.toNat) =
    List.range' block.covarianceId.toNat block.size.toNat

def blockOf (active : CP2ActiveStateType) : MSCKFUpdatePreviewBlock :=
  ⟨active.covarianceId.toNat, active.errorSize.toNat, active.covarianceId.toNat⟩

theorem validateSemanticBlocks_ok {blocks : List CP2SemanticStateBlock}
    (himu : ∀ active ∈ actives, active.tag ≠ .kImu)
    (hclone : ∀ active ∈ actives, active.tag = .kClone → active.errorSize = 6)
    (hbound : ∀ active ∈ actives, active.covarianceId.toNat + active.errorSize.toNat < 2 ^ 64)
    (h : validateSemanticBlocks actives blocks = .ok ()) :
    ∃ groups : List (List CP2SemanticStateBlock), groups.flatten = blocks ∧
      List.Forall₂ Refines groups (actives.map blockOf) := by
  induction actives generalizing blocks with
  | nil =>
    simp only [validateSemanticBlocks, requireThat_eq_ok, List.isEmpty_iff] at h
    exact ⟨[], h.symm, .nil⟩
  | cons active actives ih =>
    obtain ⟨himu₁, himu⟩ := forall_mem_cons.mp himu
    obtain ⟨hclone₁, hclone⟩ := forall_mem_cons.mp hclone
    obtain ⟨hbound₁, hbound⟩ := forall_mem_cons.mp hbound
    unfold validateSemanticBlocks at h
    split at h
    · rename_i htag
      exact absurd htag himu₁
    · rename_i theta position rest htag
      simp only [bind_eq_ok, requireThat_eq_ok, Bool.and_eq_true, beq_iff_eq] at h
      obtain ⟨-, -, -, ⟨⟨⟨⟨⟨⟨⟨-, -⟩, hid⟩, hid'⟩, hsize⟩, hsize'⟩, -⟩, -⟩, hrest⟩ := h
      obtain ⟨groups, hflat, hgroups⟩ := ih himu hclone hbound hrest
      refine ⟨[theta, position] :: groups, by simp [hflat], .cons ?_ hgroups⟩
      have hsix := hclone₁ htag
      -- a clone is two blocks of three, one behind the other
      have hnext : position.covarianceId.toNat = active.covarianceId.toNat + 3 := by
        rw [hid', UInt64.toNat_add]
        rw [hsix] at hbound₁
        simp at hbound₁ ⊢
        omega
      simp [Refines, blockOf, hid, hnext, hsize, hsize', hsix]
    · rename_i landmark rest htag
      simp only [bind_eq_ok, requireThat_eq_ok, Bool.and_eq_true, beq_iff_eq] at h
      obtain ⟨-, -, -, ⟨⟨⟨-, hid⟩, hsize⟩, -⟩, hrest⟩ := h
      obtain ⟨groups, hflat, hgroups⟩ := ih himu hclone hbound hrest
      refine ⟨[landmark] :: groups, by simp [hflat], .cons ?_ hgroups⟩
      simp [Refines, blockOf, hid, hsize]
    · cases h

/-! ## The two checks of the layout -/

theorem stateBlocksValid_of_tiles {n start : Nat}
    (h : Tiles start (actives.map extent) n) (hn : n < indexLimit) :
    stateBlocksValid n start (actives.map blockOf) = true := by
  induction actives generalizing start with
  | nil => simpa [stateBlocksValid, Tiles] using h
  | cons active actives ih =>
    obtain ⟨hid, hpos, hrest⟩ := h
    have hle := hrest.le
    simp only [extent] at hid hpos hrest hle
    have hadd : addIndex start (active.errorSize.toNat : Nat) =
        some ((start + active.errorSize.toNat : Nat) : Int) := by
      unfold addIndex
      rw [if_neg (by omega)]
      rfl
    simp only [map_cons, stateBlocksValid, blockOf, hid]
    rw [if_neg (by simp; omega), hadd]
    exact ih hrest

theorem checkStateBlocks_of_tiles {n start : Nat}
    (h : Tiles start (actives.map extent) n) {previous : Option Int}
    (hprevious : ∀ p, previous = some p → p < start) :
    Filter.checkStateBlocks n start previous ((actives.map blockOf).map (·.toPreview)) = some n := by
  induction actives generalizing start previous with
  | nil => exact congrArg some h
  | cons active actives ih =>
    obtain ⟨hid, hpos, hrest⟩ := h
    have hle := hrest.le
    simp only [extent] at hid hpos hrest hle
    simp only [map_cons, Filter.checkStateBlocks, blockOf, MSCKFUpdatePreviewBlock.toPreview, hid]
    rw [if_neg (by omega), if_neg]
    · exact ih hrest fun p hp => by
        obtain rfl := Option.some.inj hp
        omega
    · rintro (hne | hany)
      · exact hne rfl
      · cases previous with
        | none => simp at hany
        | some p =>
          have := hprevious p rfl
          simp at hany
          omega

/-! ## The projection -/

theorem projectBlock_ok {active : CP2ActiveStateType} (hn : n < indexLimit)
    (h : active.covarianceId.toNat + active.errorSize.toNat ≤ n) :
    projectBlock active = .ok (blockOf active) := by
  unfold projectBlock
  exact if_pos ⟨by omega, by omega⟩

theorem Tiles.bounded (h : Tiles start blocks stop) :
    ∀ block ∈ blocks, 0 < block.2 ∧ block.1 + block.2 ≤ stop := by
  induction blocks generalizing start with
  | nil => exact nofun
  | cons block rest ih =>
    obtain ⟨rfl, hpos, hrest⟩ := h
    exact forall_mem_cons.mpr ⟨⟨hpos, hrest.le⟩, ih hrest⟩

/-- The prior covers each coordinate of the covariance once, in order. -/
structure Partition (prior : MSCKFUpdatePreviewSnapshot) : Prop where
  nonempty : ∀ block ∈ prior.stateBlocks,
    0 < block.size ∧ 0 ≤ block.covarianceId ∧ block.offset = block.covarianceId
  coordinates : prior.stateBlocks.flatMap (fun block => List.range' block.covarianceId.toNat block.size.toNat) =
    List.range prior.covariance.rows

/-- What `startup_input_is_valid` asks of the rest of its input. -/
structure Admissible (A : Arithmetic) (input : CP2ShadowMathInput) : Prop where
  sigma : input.sigmaPx.isFinite = true ∧ (⟨0⟩ : Binary64) < input.sigmaPx
  sigmaSq : input.sigmaPxSq.isFinite = true ∧ (⟨0⟩ : Binary64) < input.sigmaPxSq ∧
    input.sigmaPxSq.equal (A.mul input.sigmaPx input.sigmaPx) = true
  multiplier : input.chi2Multiplier.isFinite = true
  table : ∀ k < 499, (input.chiSquaredTable.lookup ((k + 1 : Nat) : Int)).any Binary64.isFinite = true

variable {unitNorm : List Binary64 → Bool} {snapshot : CP2CompositeStateSnapshot}

theorem accepted_blocks (h : validate unitNorm snapshot = .kAccepted) :
    0 < snapshot.covariance.rows ∧ snapshot.covariance.cols = snapshot.covariance.rows ∧
      snapshot.covariance.allFinite = true ∧ snapshot.activeTypes ≠ [] ∧
      Tiles 0 (snapshot.activeTypes.map extent) snapshot.covariance.rows ∧
      ∃ groups : List (List CP2SemanticStateBlock), groups.flatten = snapshot.semanticBlocks ∧
        List.Forall₂ Refines groups (snapshot.activeTypes.map blockOf) := by
  have hchecks := validateChecks_of_accepted h
  simp only [validateChecks, bind_eq_ok, requireThat_eq_ok, Bool.and_eq_true, decide_eq_true_eq, beq_iff_eq] at hchecks
  obtain ⟨-, ⟨hrows, hcols⟩, -, hne, p, htypes, -, ⟨hoffset, himu⟩, -, hlength, -, hfive, ⟨⟩, hsemantic, -, -, -, -,
    -, -, -, -, -, -, -, ⟨⟨⟨-, hfinite⟩, -⟩, -⟩, -⟩ := hchecks
  obtain ⟨htiles, hcount, -, htail, hsizes⟩ := validateActiveTypes_ok htypes
  rw [hoffset] at htiles
  refine ⟨hrows, hcols, hfinite, by simpa using hne, htiles, ?_⟩
  have hbounded := htiles.bounded
  have hsmall : snapshot.covariance.rows < 2 ^ 63 := snapshot.covariance.rows_lt
  obtain ⟨first, actives, hactives⟩ := exists_cons_of_ne_nil (by simpa using hne)
  rw [hactives] at htiles hcount htail hsizes hsemantic hbounded ⊢
  -- the only IMU stands first
  have hfirst : first.tag = .kImu := by
    rw [countP_cons, countP_eq_zero.mpr fun a ha => by simpa using htail a ha, himu] at hcount
    by_contra hother
    simp [hother] at hcount
  have hrest : validateSemanticBlocks actives (snapshot.semanticBlocks.drop 5) = .ok () := by
    simpa [validateSemanticBlocks, hfirst] using hsemantic
  obtain ⟨groups, hflat, hgroups⟩ := validateSemanticBlocks_ok htail
    (fun a ha => (hsizes a (mem_cons_of_mem _ ha)).2)
    (fun a ha => (hbounded (extent a) (mem_map_of_mem (mem_cons_of_mem _ ha))).2.trans_lt (by omega)) hrest
  refine ⟨snapshot.semanticBlocks.take 5 :: groups, by rw [flatten_cons, hflat, take_append_drop],
    .cons ?_ hgroups⟩
  have hfive := (length_and_allEqual_id (fun _ _ => beq_iff_eq) _ _).mp
    ⟨by simp [imuBlocks, hlength]; omega, hfive⟩
  have hcoordinates := congrArg (List.flatMap fun k => List.range' k.2.1.toNat k.2.2.toNat) hfive
  rw [flatMap_map] at hcoordinates
  have hid : first.covarianceId.toNat = 0 := htiles.1
  simp only [Refines, blockOf, hid, (hsizes first mem_cons_self).1 hfirst]
  exact hcoordinates.trans (by decide)

theorem mapM_projectBlock (hn : n < indexLimit)
    (h : ∀ active ∈ actives, active.covarianceId.toNat + active.errorSize.toNat ≤ n) :
    actives.mapM projectBlock = .ok (actives.map blockOf) := by
  induction actives with
  | nil => rfl
  | cons active actives ih =>
    obtain ⟨hfirst, hrest⟩ := forall_mem_cons.mp h
    rw [mapM_cons, projectBlock_ok hn hfirst, ih hrest]
    rfl

theorem projection_partitions (h : validate unitNorm snapshot = .kAccepted) :
    (snapshot.phase ≠ .kPhase0Prior → projectPreview unitNorm snapshot = .error .kInvalidPhase) ∧
      (snapshot.phase = .kPhase0Prior → ∃ prior, projectPreview unitNorm snapshot = .ok prior ∧
        prior.covariance = snapshot.covariance ∧ Partition prior ∧
        (∀ A input, input.prior = prior → (startupInputIsValid A input = true ↔ Admissible A input)) ∧
        (0 < prior.covariance.rows ∧ prior.covariance.cols = prior.covariance.rows ∧ prior.stateBlocks ≠ [] ∧
          Filter.checkStateBlocks prior.covariance.rows 0 none (prior.stateBlocks.map (·.toPreview)) =
            some prior.covariance.rows) ∧
        ∃ groups : List (List CP2SemanticStateBlock), groups.flatten = snapshot.semanticBlocks ∧
          List.Forall₂ Refines groups prior.stateBlocks) := by
  obtain ⟨hrows, hcols, hfinite, hne, htiles, hgroups⟩ := accepted_blocks h
  have hn := snapshot.covariance.rows_lt
  have hblocks := mapM_projectBlock hn fun a ha => (htiles.bounded (extent a) (mem_map_of_mem ha)).2
  refine ⟨fun hphase => if_pos hphase, fun hphase => ⟨⟨snapshot.covariance, snapshot.activeTypes.map blockOf⟩, ?_,
    rfl, ⟨?_, ?_⟩, ?_, ⟨hrows, hcols, ?_, ?_⟩, hgroups⟩⟩
  · rw [projectPreview, if_neg (not_not.mpr hphase), if_neg (not_not.mpr h), hblocks]
    rfl
  · exact forall_mem_map.mpr fun a ha =>
      ⟨Int.natCast_pos.mpr (htiles.bounded (extent a) (mem_map_of_mem ha)).1, Int.natCast_nonneg _, rfl⟩
  · have hcoordinates := htiles.coordinates
    rw [flatMap_map, Nat.sub_zero, ← range_eq_range'] at hcoordinates
    rw [flatMap_map]
    exact hcoordinates
  · intro A input hinput
    have hlayout := stateBlocksValid_of_tiles htiles hn
    simp only [startupInputIsValid, Bool.and_eq_true, decide_eq_true_eq, all_eq_true, mem_range, and_assoc,
      hinput]
    constructor
    · rintro ⟨hsigma, hsigma', hsq, hsq', hequal, hmultiplier, htable, -⟩
      exact ⟨⟨hsigma, hsigma'⟩, ⟨hsq, hsq', hequal⟩, hmultiplier, htable⟩
    · rintro ⟨⟨hsigma, hsigma'⟩, ⟨hsq, hsq', hequal⟩, hmultiplier, htable⟩
      exact ⟨hsigma, hsigma', hsq, hsq', hequal, hmultiplier, htable, hrows.ne', hcols, hfinite, by simpa using hne,
        hlayout⟩
  · simpa using hne
  · exact checkStateBlocks_of_tiles htiles nofun

/-- A snapshot of another phase is accepted and has no projection. -/
theorem accepted_without_projection :
    ¬ ∀ snapshot, validate restUnitNorm snapshot = .kAccepted →
      ∃ prior, projectPreview restUnitNorm snapshot = .ok prior := by
  intro h
  obtain ⟨prior, hprior⟩ := h { restSnapshot with phase := .kPhase1Precommit } (by decide +kernel)
  cases hprior

theorem projection_at_rest :
    ∃ prior, projectPreview restUnitNorm restSnapshot = .ok prior ∧ Partition prior := by
  have hvalid : validate restUnitNorm restSnapshot = .kAccepted := by decide +kernel
  obtain ⟨prior, hprior, -, hpartition, -⟩ := (projection_partitions hvalid).2 rfl
  exact ⟨prior, hprior, hpartition⟩

end Bravo.Shadow
