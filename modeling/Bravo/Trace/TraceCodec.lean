import Bravo.Trace.FrameFile

/-! # Raw-system and proposal files

`CP2TraceCodec`: the payloads of raw feature systems and of proposals, with their validation, and
the two framed files. Both decoders accept exactly what the encoders produce, within the limits.
-/

namespace Bravo.Trace

open List

/-! ## Raw systems -/

/-- `CP2FeatureGateLayoutBlock`: its fields are `Eigen::Index` values. -/
structure CP2FeatureGateLayoutBlock where
  covarianceId : Int64
  size : Int64
  H_offset : Int64
deriving DecidableEq, Repr

structure CP2RawFeatureSystem where
  featureId : UInt64
  H_x : MatrixXd
  H_f : MatrixXd
  residual : VectorXd
  jacobianLayout : List CP2FeatureGateLayoutBlock
deriving DecidableEq, Repr

/-- `SchurVIO-CP2-raw-system-v1` with its zero byte. -/
def rawSystemDomain : List UInt8 :=
  [0x53, 0x63, 0x68, 0x75, 0x72, 0x56, 0x49, 0x4f, 0x2d, 0x43, 0x50, 0x32, 0x2d, 0x72, 0x61, 0x77,
    0x2d, 0x73, 0x79, 0x73, 0x74, 0x65, 0x6d, 0x2d, 0x76, 0x31, 0x00]

/-- The loop of `validate_raw_layout_encoding`: the blocks from column `expectedOffset` on, after
blocks with the covariance ranges `ranges`. -/
def checkLayout (cols : Nat) : Int → List (Int × Int) → List CP2FeatureGateLayoutBlock →
    Except String Unit
  | expectedOffset, _, [] =>
    if expectedOffset ≠ cols then .error "raw Jacobian layout does not cover every H_x column"
    else .ok ⟨⟩
  | expectedOffset, ranges, block :: blocks =>
    let id := block.covarianceId.toInt
    let size := block.size.toInt
    if id < 0 ∨ size ≤ 0 ∨ block.H_offset.toInt ≠ expectedOffset ∨ cols - expectedOffset < size then
      .error "raw Jacobian layout is not an exact ordered column partition"
    else if ranges.any (fun range => range.1 == id) ∨ (indexLimit : Int) - 1 - id < size then
      .error "raw Jacobian layout has a duplicate or overflowing covariance ID"
    else if ranges.any (fun range => decide (id < range.2) && decide (range.1 < id + size)) then
      .error "raw Jacobian layout covariance ranges overlap"
    else
      checkLayout cols (expectedOffset + size) (ranges ++ [(id, id + size)]) blocks

/-- `validate_raw_layout_encoding`. A residual always has one column. -/
def validateRawLayoutEncoding (raw : CP2RawFeatureSystem) : Except String Unit :=
  if raw.H_x.rows ≠ raw.H_f.rows ∨ raw.residual.rows ≠ raw.H_x.rows then
    .error "raw system matrix and residual row dimensions disagree"
  else checkLayout raw.H_x.cols 0 [] raw.jacobianLayout

/-- `checked_u64` on an `Eigen::Index`. -/
def checkedIndexU64 (value : Int64) (what : String) : Except String UInt64 :=
  if value.toInt < 0 then .error (what ++ " is not a u64") else .ok value.toUInt64

def encodeLayoutBlock (block : CP2FeatureGateLayoutBlock) : Except String (List UInt8) := do
  let covarianceId ← checkedIndexU64 block.covarianceId "raw covariance ID"
  let size ← checkedIndexU64 block.size "raw layout size"
  return appendU64 covarianceId ++ appendU64 size

def encodeRawSystemPayload (raw : CP2RawFeatureSystem) : Except String (List UInt8) := do
  validateRawLayoutEncoding raw
  let count ← checkedU64 raw.jacobianLayout.length "raw layout count"
  let blocks ← raw.jacobianLayout.mapM encodeLayoutBlock
  return rawSystemDomain ++ appendU64 raw.featureId ++ appendMatrix raw.H_x ++
    appendMatrix raw.H_f ++ appendVector raw.residual ++ appendU64 count ++ blocks.flatten

section Decode

variable (limits : CP2TraceDecodeLimits)

def checkLayoutCount (count : UInt64) : Reader Unit := fun s =>
  if limits.maximumLayoutBlocks < count ∨ s.rest.length / 16 < count.toNat then
    .error "raw layout count exceeds configured limit"
  else .ok (⟨⟩, s)

/-- The layout blocks from column `H_offset` on. -/
def readLayoutBlocks : Nat → Nat → Reader (List CP2FeatureGateLayoutBlock)
  | 0, _ => return []
  | n + 1, H_offset => do
    let covarianceId ← readU64 "raw layout covariance ID"
    let size ← readU64 "raw layout size"
    reject (decide (indexLimit ≤ covarianceId.toNat) || decide (indexLimit ≤ size.toNat) ||
        decide (indexLimit - 1 - H_offset < size.toNat))
      "raw layout metadata exceeds Eigen::Index"
    let blocks ← readLayoutBlocks n (H_offset + size.toNat)
    return ⟨covarianceId.toInt64, size.toInt64, Int64.ofNat H_offset⟩ :: blocks

def readLayout : Reader (List CP2FeatureGateLayoutBlock) := do
  let count ← readU64 "raw layout count"
  checkLayoutCount limits count
  readLayoutBlocks count.toNat 0

def readRawSystem : Reader CP2RawFeatureSystem := do
  expectBytes rawSystemDomain "raw-system domain"
  let featureId ← readU64 "raw feature ID"
  let H_x ← readMatrix limits "raw H_x"
  let H_f ← readMatrix limits "raw H_f"
  let residual ← readVector limits "raw residual"
  let jacobianLayout ← readLayout limits
  return ⟨featureId, H_x, H_f, residual, jacobianLayout⟩

/-- `decode_raw_system_payload`, with the coefficients read so far. -/
def decodeRawSystemPayload (payload : List UInt8) (spent : Nat) :
    Except String (CP2RawFeatureSystem × Nat) :=
  if limits.maximumPayloadBytes.toNat < payload.length then
    .error "CP2 payload exceeds configured byte limit"
  else do
    let (raw, spent) ← runAll (readRawSystem limits) "raw-system payload has trailing bytes"
      payload spent
    validateRawLayoutEncoding raw
    return (raw, spent)

end Decode

/-! ### The layout -/

/-- The blocks lie side by side from column `H_offset` on, within `Eigen::Index`. -/
def LayoutFrom : Nat → List CP2FeatureGateLayoutBlock → Prop
  | _, [] => True
  | H_offset, block :: blocks =>
    0 ≤ block.covarianceId.toInt ∧ 0 ≤ block.size.toInt ∧
      block.H_offset = Int64.ofNat H_offset ∧ H_offset + block.size.toInt.toNat < indexLimit ∧
      LayoutFrom (H_offset + block.size.toInt.toNat) blocks

def appendLayoutBlock (block : CP2FeatureGateLayoutBlock) : List UInt8 :=
  appendU64 block.covarianceId.toUInt64 ++ appendU64 block.size.toUInt64

/-- A word and the signed value of the same bits agree below the index limit, and only there is
the signed value nonnegative. -/
theorem toInt_toInt64 (v : UInt64) :
    v.toInt64.toInt = if 2 * v.toNat < 2 ^ 64 then (v.toNat : Int) else v.toNat - 2 ^ 64 := by
  show v.toBitVec.toInt = _
  rw [BitVec.toInt_eq_toNat_cond]
  rfl

theorem toInt_eq_of_toUInt64_lt {v : Int64} (h : v.toUInt64.toNat < indexLimit) :
    v.toInt = v.toUInt64.toNat := by
  have hlt : v.toUInt64.toNat < 2 ^ 63 := h
  have hv : v.toInt = _ := toInt_toInt64 v.toUInt64
  rw [if_pos (by omega)] at hv
  exact hv

theorem toUInt64_lt_of_nonneg {v : Int64} (h : 0 ≤ v.toInt) : v.toUInt64.toNat < indexLimit := by
  have hv : v.toInt = _ := toInt_toInt64 v.toUInt64
  have hlt := v.toUInt64.toNat_lt
  show v.toUInt64.toNat < 2 ^ 63
  by_contra hge
  rw [if_neg (by omega)] at hv
  omega

theorem readLayoutBlocks_reads {L : Nat} (n : Nat) :
    ∀ H_offset < indexLimit, Reads L (readLayoutBlocks n H_offset)
      (fun blocks => blocks.length = n ∧ LayoutFrom H_offset blocks)
      ⟨fun blocks => blocks.flatMap appendLayoutBlock, fun _ => 0, fun _ => True⟩ := by
  induction n with
  | zero =>
    intro H_offset _ s hs blocks s'
    simp only [readLayoutBlocks, Reader.run_pure_eq_ok]
    constructor
    · rintro ⟨rfl, rfl⟩
      exact ⟨⟨rfl, trivial⟩, trivial, consumes_nil_iff.mpr rfl, hs⟩
    · rintro ⟨⟨hlen, -⟩, -, hcons, -⟩
      obtain rfl := length_eq_zero_iff.mp hlen
      exact ⟨rfl, consumes_nil_iff.mp hcons⟩
  | succ n ih =>
    intro H_offset hH s hs blocks s'
    simp only [readLayoutBlocks, Reader.run_bind_eq_ok, run_readU64_eq_ok, run_reject_eq_ok,
      Reader.run_pure_eq_ok, Bool.or_eq_false_iff, decide_eq_false_iff_not, not_le, not_lt]
    constructor
    · rintro ⟨id, s₁, h₁, size, s₂, h₂, _, s₃, ⟨⟨⟨hid, hsize⟩, hsum⟩, rfl⟩, rest, s₄, hrest, rfl,
        rfl⟩
      have hs₃ : s₃.spent ≤ L := by
        rw [h₂.spent, h₁.spent]
        exact hs
      have hsize' : size.toInt64.toInt = size.toNat := toInt_eq_of_toUInt64_lt hsize
      have hid' : id.toInt64.toInt = id.toNat := toInt_eq_of_toUInt64_lt hid
      obtain ⟨⟨hlen, hfrom⟩, -, hcons, hspent⟩ := (ih _ (by omega) s₃ hs₃ rest s').mp hrest
      refine ⟨⟨by simp [hlen], ?_⟩, trivial, ?_, hspent⟩
      · refine ⟨by rw [hid']; omega, by rw [hsize']; omega, rfl, ?_, ?_⟩
        · show H_offset + size.toInt64.toInt.toNat < indexLimit
          rw [hsize', Int.toNat_natCast]
          omega
        · show LayoutFrom (H_offset + size.toInt64.toInt.toNat) rest
          rw [hsize', Int.toNat_natCast]
          exact hfrom
      · refine consumes_append_iff_free.mpr ⟨s₃, ?_, hcons⟩
        exact consumes_append_iff_free.mpr ⟨s₁, h₁, h₂⟩
    · rintro ⟨⟨hlen, hfrom⟩, -, hcons, hspent⟩
      obtain ⟨block, rest, rfl⟩ := exists_cons_of_length_eq_add_one hlen
      obtain ⟨hid, hsize, hoff, hsum, hfrom'⟩ := hfrom
      obtain ⟨s₂, h₁₂, h₃⟩ := consumes_append_iff_free.mp hcons
      obtain ⟨s₁, h₁, h₂⟩ := consumes_append_iff_free.mp h₁₂
      have hid' := toUInt64_lt_of_nonneg hid
      have hsize' := toUInt64_lt_of_nonneg hsize
      have hnat : block.size.toInt.toNat = block.size.toUInt64.toNat := by
        rw [toInt_eq_of_toUInt64_lt hsize', Int.toNat_natCast]
      have hs₂ : s₂.spent ≤ L := by
        rw [h₂.spent, h₁.spent]
        exact hs
      rw [hnat] at hsum hfrom'
      refine ⟨_, s₁, h₁, _, s₂, h₂, ⟨⟩, s₂, ⟨⟨⟨hid', hsize'⟩, by omega⟩, rfl⟩, rest, s',
        (ih _ hsum s₂ hs₂ rest s').mpr ⟨⟨by simpa using hlen, hfrom'⟩, trivial, h₃, hspent⟩, ?_, rfl⟩
      rw [← hoff]
      rfl

section RawPayload

variable (limits : CP2TraceDecodeLimits)

def layoutFormat : Format (List CP2FeatureGateLayoutBlock) where
  bytes blocks := appendU64 (UInt64.ofNat blocks.length) ++ blocks.flatMap appendLayoutBlock
  cost _ := 0
  fits blocks := LayoutFrom 0 blocks ∧ blocks.length ≤ limits.maximumLayoutBlocks.toNat

theorem length_flatMap_appendLayoutBlock (blocks : List CP2FeatureGateLayoutBlock) :
    (blocks.flatMap appendLayoutBlock).length = blocks.length * 16 := by
  simp [length_flatMap, appendLayoutBlock]

theorem run_checkLayoutCount_eq_ok {count : UInt64} {u : Unit} {s s' : Cursor} :
    (checkLayoutCount limits count).run s = .ok (u, s') ↔
      (count ≤ limits.maximumLayoutBlocks ∧ count.toNat * 16 ≤ s.rest.length) ∧ s' = s := by
  show (if _ then _ else _) = _ ↔ _
  split
  · rename_i h
    refine iff_of_false (fun h => by cases h) ?_
    rintro ⟨⟨hmax, hrest⟩, -⟩
    rcases h with h | h
    · exact absurd hmax (UInt64.not_le.mpr h)
    · omega
  · rename_i h
    rw [not_or, UInt64.not_lt] at h
    simp only [Except.ok.injEq, Prod.mk.injEq, true_and]
    constructor
    · intro heq
      exact ⟨⟨h.1, by omega⟩, heq.symm⟩
    · rintro ⟨-, rfl⟩
      rfl

theorem readLayout_reads {L : Nat} :
    Reads L (readLayout limits) (fun _ => True) (layoutFormat limits) := by
  intro s hs blocks s'
  simp only [readLayout, Reader.run_bind_eq_ok, run_readU64_eq_ok, run_checkLayoutCount_eq_ok]
  constructor
  · rintro ⟨count, s₁, h₁, _, s₂, ⟨⟨hmax, -⟩, rfl⟩, hread⟩
    have hs₂ : s₂.spent ≤ L := by
      rw [h₁.spent]
      exact hs
    obtain ⟨⟨hlen, hfrom⟩, -, hcons, hspent⟩ :=
      (readLayoutBlocks_reads count.toNat 0 (by decide) s₂ hs₂ blocks s').mp hread
    refine ⟨trivial, ⟨hfrom, ?_⟩, ?_, hspent⟩
    · rw [hlen]
      exact UInt64.le_iff_toNat_le.mp hmax
    · show Consumes s (appendU64 (UInt64.ofNat blocks.length) ++ _) 0 s'
      rw [hlen, UInt64.ofNat_toNat]
      exact consumes_append_iff_free.mpr ⟨s₂, h₁, hcons⟩
  · rintro ⟨-, ⟨hfrom, hmax⟩, hcons, hspent⟩
    obtain ⟨s₁, h₁, h₂⟩ := consumes_append_iff_free.mp hcons
    have hlt := limits.maximumLayoutBlocks.toNat_lt
    have hcount : (UInt64.ofNat blocks.length).toNat = blocks.length := by
      rw [UInt64.toNat_ofNat']
      omega
    have hs₁ : s₁.spent ≤ L := by
      rw [h₁.spent]
      exact hs
    refine ⟨_, s₁, h₁, ⟨⟩, s₁, ⟨⟨?_, ?_⟩, rfl⟩, ?_⟩
    · rw [UInt64.le_iff_toNat_le, hcount]
      exact hmax
    · -- The blocks themselves are ahead, sixteen bytes each.
      rw [hcount, h₂.rest, length_append, length_flatMap_appendLayoutBlock]
      omega
    · rw [hcount]
      exact (readLayoutBlocks_reads _ 0 (by decide) s₁ hs₁ blocks s').mpr
        ⟨⟨rfl, hfrom⟩, trivial, h₂, hspent⟩

def rawSystemBytes (raw : CP2RawFeatureSystem) : List UInt8 :=
  rawSystemDomain ++ appendU64 raw.featureId ++ appendMatrix raw.H_x ++ appendMatrix raw.H_f ++
    appendVector raw.residual ++ appendU64 (UInt64.ofNat raw.jacobianLayout.length) ++
    raw.jacobianLayout.flatMap appendLayoutBlock

def rawSystemCoefficients (raw : CP2RawFeatureSystem) : Nat :=
  raw.H_x.coeffs.length + raw.H_f.coeffs.length + raw.residual.coeffs.length

structure RawSystemFits (raw : CP2RawFeatureSystem) : Prop where
  H_x : raw.H_x.coeffs.length ≤ limits.maximumMatrixCoefficients.toNat
  H_f : raw.H_f.coeffs.length ≤ limits.maximumMatrixCoefficients.toNat
  residual : raw.residual.coeffs.length ≤ limits.maximumMatrixCoefficients.toNat
  residual_rows : raw.residual.coeffs.length ≤ limits.maximumVectorRows.toNat
  layout : raw.jacobianLayout.length ≤ limits.maximumLayoutBlocks.toNat

theorem readRawSystem_reads :
    Reads limits.budget (readRawSystem limits) (fun _ => True)
      ⟨rawSystemBytes, rawSystemCoefficients,
        fun raw => LayoutFrom 0 raw.jacobianLayout ∧ RawSystemFits limits raw⟩ := by
  refine .congr
    (.bind (fun _ => ⟨⟩) (expectBytes_reads _ _) fun _ =>
      .bind CP2RawFeatureSystem.featureId (readU64_reads _) fun featureId =>
      .bind CP2RawFeatureSystem.H_x (readMatrix_reads limits _) fun H_x =>
      .bind CP2RawFeatureSystem.H_f (readMatrix_reads limits _) fun H_f =>
      .bind CP2RawFeatureSystem.residual (readVector_reads limits _) fun residual =>
      .bind CP2RawFeatureSystem.jacobianLayout (readLayout_reads limits) fun layout =>
      .pure ?_) ?_ ?_ ?_
  · rintro ⟨⟩
    simp
    tauto
  · intro raw _
    simp [layoutFormat, rawSystemBytes]
  · intro raw _
    simp [layoutFormat, rawSystemCoefficients]
    omega
  · intro raw _
    simp [layoutFormat]
    constructor
    · rintro ⟨hx, hf, ⟨hr, hr'⟩, hfrom, hlay⟩
      exact ⟨hfrom, hx, hf, hr', hr, hlay⟩
    · rintro ⟨hfrom, hx, hf, hr', hr, hlay⟩
      exact ⟨hx, hf, ⟨hr, hr'⟩, hfrom, hlay⟩

/-- A validated layout lies side by side, and has at most as many blocks as columns. -/
theorem layoutFrom_of_checkLayout {cols : Nat} (hcols : cols < indexLimit) :
    ∀ {blocks : List CP2FeatureGateLayoutBlock} {offset : Nat} {ranges : List (Int × Int)},
      offset ≤ cols → checkLayout cols offset ranges blocks = .ok ⟨⟩ →
      LayoutFrom offset blocks ∧ offset + blocks.length ≤ cols := by
  intro blocks
  induction blocks with
  | nil =>
    intro offset ranges hoff _
    exact ⟨trivial, by simpa using hoff⟩
  | cons block blocks ih =>
    intro offset ranges hoff h
    simp only [checkLayout] at h
    split_ifs at h with h₁ h₂ h₃
    simp only [not_or, not_lt, not_le, ne_eq, Decidable.not_not] at h₁
    obtain ⟨hid, hsize, hH, hfit⟩ := h₁
    have hnat : (offset : Int) + block.size.toInt = (offset + block.size.toInt.toNat : Nat) := by
      omega
    rw [hnat] at h
    obtain ⟨hfrom, hlen⟩ := ih (by omega) h
    have hlt : offset < 2 ^ 63 := lt_of_le_of_lt hoff hcols
    refine ⟨⟨hid, by omega, ?_, by omega, hfrom⟩, ?_⟩
    · apply Int64.toInt_inj.mp
      rw [hH, Int64.toInt_ofNat_of_lt hlt]
    · rw [length_cons]
      omega

variable {raw : CP2RawFeatureSystem}

theorem layoutFrom_of_validate
    (h : validateRawLayoutEncoding raw = .ok ⟨⟩) :
    LayoutFrom 0 raw.jacobianLayout ∧ raw.jacobianLayout.length < indexLimit := by
  unfold validateRawLayoutEncoding at h
  split_ifs at h
  obtain ⟨hfrom, hlen⟩ := layoutFrom_of_checkLayout raw.H_x.cols_lt (Nat.zero_le _) h
  have := raw.H_x.cols_lt
  exact ⟨hfrom, by omega⟩

theorem mapM_encodeLayoutBlock {blocks : List CP2FeatureGateLayoutBlock} :
    ∀ {H_offset : Nat}, LayoutFrom H_offset blocks →
      blocks.mapM encodeLayoutBlock = .ok (blocks.map appendLayoutBlock) := by
  induction blocks with
  | nil =>
    intro H_offset _
    rfl
  | cons block blocks ih =>
    rintro H_offset ⟨hid, hsize, -, -, hfrom⟩
    have hblock : encodeLayoutBlock block = .ok (appendLayoutBlock block) := by
      rw [encodeLayoutBlock, checkedIndexU64, checkedIndexU64, if_neg (by omega),
        if_neg (by omega)]
      rfl
    rw [mapM_cons, hblock, ih hfrom]
    rfl

theorem encodeRawSystemPayload_eq_ok {payload : List UInt8} :
    encodeRawSystemPayload raw = .ok payload ↔
      validateRawLayoutEncoding raw = .ok ⟨⟩ ∧ payload = rawSystemBytes raw := by
  simp only [encodeRawSystemPayload, bind_eq_ok, checkedU64_eq_ok]
  constructor
  · rintro ⟨_, hval, count, hcount, blocks, hblocks, h⟩
    cases h
    refine ⟨hval, ?_⟩
    rw [mapM_encodeLayoutBlock (layoutFrom_of_validate hval).1] at hblocks
    cases hblocks
    rw [rawSystemBytes, ← hcount, UInt64.ofNat_toNat, List.flatMap]
  · rintro ⟨hval, rfl⟩
    obtain ⟨hfrom, hlen⟩ := layoutFrom_of_validate hval
    exact ⟨⟨⟩, hval, _, toNat_ofNat_of_lt hlen, _, mapM_encodeLayoutBlock hfrom, rfl⟩

/-- **The payload decoder accepts exactly the encodings within the limits.** -/
theorem decodeRawSystemPayload_eq_ok {payload : List UInt8} {spent spent' : Nat}
    (hs : spent ≤ limits.budget) :
    decodeRawSystemPayload limits payload spent = .ok (raw, spent') ↔
      encodeRawSystemPayload raw = .ok payload ∧
        (RawSystemFits limits raw ∧ payload.length ≤ limits.maximumPayloadBytes.toNat) ∧
        spent' = spent + rawSystemCoefficients raw ∧ spent' ≤ limits.budget := by
  unfold decodeRawSystemPayload
  rw [encodeRawSystemPayload_eq_ok]
  split_ifs with hmax
  · refine iff_of_false (fun h => by cases h) ?_
    rintro ⟨-, ⟨-, hle⟩, -⟩
    omega
  · simp only [bind_eq_ok, Prod.exists, (readRawSystem_reads limits).runAll_eq_ok hs]
    constructor
    · rintro ⟨raw', spent'', ⟨-, ⟨-, hfits⟩, hbytes, hcost, hle⟩, _, hval, h⟩
      cases h
      exact ⟨⟨hval, hbytes⟩, ⟨hfits, by omega⟩, hcost, hle⟩
    · rintro ⟨⟨hval, hbytes⟩, ⟨hfits, -⟩, hcost, hle⟩
      exact ⟨raw, spent', ⟨trivial, ⟨(layoutFrom_of_validate hval).1, hfits⟩, hbytes, hcost, hle⟩,
        ⟨⟩, hval, rfl⟩

end RawPayload

/-! ## Proposals -/

inductive CP2ProposalTraceRole
  | kNullspaceBaseline
  | kSchurCandidate
deriving DecidableEq, Repr

def proposalRoleValue : CP2ProposalTraceRole → UInt8
  | .kNullspaceBaseline => 0
  | .kSchurCandidate => 1

structure CP2ProposalTracePayload where
  dx : VectorXd
  P_plus : MatrixXd
deriving DecidableEq, Repr

/-- `SchurVIO-CP2-proposal-v1` with its zero byte. -/
def proposalDomain : List UInt8 :=
  [0x53, 0x63, 0x68, 0x75, 0x72, 0x56, 0x49, 0x4f, 0x2d, 0x43, 0x50, 0x32, 0x2d, 0x70, 0x72, 0x6f,
    0x70, 0x6f, 0x73, 0x61, 0x6c, 0x2d, 0x76, 0x31, 0x00]

/-- The lower triangle of row `row` mirrors the upper one, bit for bit. -/
def rowMirrored (P : MatrixXd) (row : Nat) : Bool :=
  (List.range row).all fun column => P.coeff row column == P.coeff column row

/-- The covariance checks of `validate_proposal`, row by row. -/
def checkCovarianceRows (P : MatrixXd) : List Nat → Except String Unit
  | [] => .ok ()
  | row :: rows =>
    if P.coeff row row < ⟨0⟩ then
      .error "accepted proposal covariance has a negative diagonal"
    else if !rowMirrored P row then
      .error "accepted proposal covariance is not bitwise mirrored"
    else checkCovarianceRows P rows

def validateProposal (proposal : CP2ProposalTracePayload) : Except String Unit :=
  if proposal.dx.rows = 0 ∨ proposal.P_plus.rows ≠ proposal.P_plus.cols ∨
      proposal.dx.rows ≠ proposal.P_plus.rows then
    .error "proposal dx and P_plus dimensions disagree"
  else if !proposal.dx.allFinite || !proposal.P_plus.allFinite then
    .error "accepted proposal payload must be finite"
  else checkCovarianceRows proposal.P_plus (List.range proposal.P_plus.rows)

def proposalBytes (proposal : CP2ProposalTracePayload) : List UInt8 :=
  proposalDomain ++ appendVector proposal.dx ++ appendMatrix proposal.P_plus

def encodeProposalPayload (proposal : CP2ProposalTracePayload) : Except String (List UInt8) := do
  validateProposal proposal
  return proposalBytes proposal

section ProposalPayload

variable (limits : CP2TraceDecodeLimits)

def readProposal : Reader CP2ProposalTracePayload := do
  expectBytes proposalDomain "proposal domain"
  let dx ← readVector limits "proposal dx"
  let P_plus ← readMatrix limits "proposal P_plus"
  return ⟨dx, P_plus⟩

def decodeProposalPayload (payload : List UInt8) (spent : Nat) :
    Except String (CP2ProposalTracePayload × Nat) :=
  if limits.maximumPayloadBytes.toNat < payload.length then
    .error "CP2 payload exceeds configured byte limit"
  else do
    let (proposal, spent) ← runAll (readProposal limits) "proposal payload has trailing bytes"
      payload spent
    validateProposal proposal
    return (proposal, spent)

def proposalCoefficients (proposal : CP2ProposalTracePayload) : Nat :=
  proposal.dx.coeffs.length + proposal.P_plus.coeffs.length

structure ProposalFits (proposal : CP2ProposalTracePayload) : Prop where
  dx : proposal.dx.coeffs.length ≤ limits.maximumMatrixCoefficients.toNat
  dx_rows : proposal.dx.coeffs.length ≤ limits.maximumVectorRows.toNat
  P_plus : proposal.P_plus.coeffs.length ≤ limits.maximumMatrixCoefficients.toNat

theorem readProposal_reads :
    Reads limits.budget (readProposal limits) (fun _ => True)
      ⟨proposalBytes, proposalCoefficients, ProposalFits limits⟩ := by
  refine .congr
    (.bind (fun _ => ⟨⟩) (expectBytes_reads _ _) fun _ =>
      .bind CP2ProposalTracePayload.dx (readVector_reads limits _) fun dx =>
      .bind CP2ProposalTracePayload.P_plus (readMatrix_reads limits _) fun P_plus =>
      .pure ?_) ?_ ?_ ?_
  · rintro ⟨⟩
    simp
  · intro proposal _
    simp [proposalBytes]
  · intro proposal _
    simp [proposalCoefficients]
  · intro proposal _
    simp
    constructor
    · rintro ⟨⟨hr, hd⟩, hP⟩
      exact ⟨hd, hr, hP⟩
    · rintro ⟨hd, hr, hP⟩
      exact ⟨⟨hr, hd⟩, hP⟩

theorem encodeProposalPayload_eq_ok {proposal : CP2ProposalTracePayload} {payload : List UInt8} :
    encodeProposalPayload proposal = .ok payload ↔
      validateProposal proposal = .ok () ∧ payload = proposalBytes proposal := by
  simp only [encodeProposalPayload, bind_eq_ok]
  constructor
  · rintro ⟨_, hval, h⟩
    cases h
    exact ⟨hval, rfl⟩
  · rintro ⟨hval, rfl⟩
    exact ⟨(), hval, rfl⟩

theorem decodeProposalPayload_eq_ok {payload : List UInt8} {spent spent' : Nat}
    {proposal : CP2ProposalTracePayload} (hs : spent ≤ limits.budget) :
    decodeProposalPayload limits payload spent = .ok (proposal, spent') ↔
      encodeProposalPayload proposal = .ok payload ∧
        (ProposalFits limits proposal ∧ payload.length ≤ limits.maximumPayloadBytes.toNat) ∧
        spent' = spent + proposalCoefficients proposal ∧ spent' ≤ limits.budget := by
  unfold decodeProposalPayload
  rw [encodeProposalPayload_eq_ok]
  split_ifs with hmax
  · refine iff_of_false (fun h => by cases h) ?_
    rintro ⟨-, ⟨-, hle⟩, -⟩
    omega
  · simp only [bind_eq_ok, Prod.exists, (readProposal_reads limits).runAll_eq_ok hs]
    constructor
    · rintro ⟨proposal', spent'', ⟨-, hfits, hbytes, hcost, hle⟩, _, hval, h⟩
      cases h
      exact ⟨⟨hval, hbytes⟩, ⟨hfits, by omega⟩, hcost, hle⟩
    · rintro ⟨⟨hval, hbytes⟩, ⟨hfits, -⟩, hcost, hle⟩
      exact ⟨proposal, spent', ⟨trivial, hfits, hbytes, hcost, hle⟩, (), hval, rfl⟩

end ProposalPayload

/-! ## The two files -/

structure RawSystemContent where
  invocation : CP2InvocationTraceIdentity
  featureOrdinal : UInt64
  rawSystem : CP2RawFeatureSystem
deriving DecidableEq, Repr

abbrev CP2RawSystemTraceFrame := TraceFrame RawSystemContent

structure ProposalContent where
  invocation : CP2InvocationTraceIdentity
  role : CP2ProposalTraceRole
  proposal : CP2ProposalTracePayload
deriving DecidableEq, Repr

abbrev CP2ProposalTraceFrame := TraceFrame ProposalContent

/-- The order of `std::tuple` on words. -/
def lexLess : List UInt64 → List UInt64 → Bool
  | a :: as, b :: bs => decide (a < b) || (a == b && lexLess as bs)
  | _, _ => false

def invocationKey (invocation : CP2InvocationTraceIdentity) : List UInt64 :=
  [invocation.sequenceIndex, invocation.pairIndex, invocation.invocationId]

def rawFrameKey (c : RawSystemContent) : List UInt64 :=
  invocationKey c.invocation ++ [c.featureOrdinal, c.rawSystem.featureId]

def proposalFrameKey (c : ProposalContent) : List UInt64 :=
  invocationKey c.invocation ++ [(proposalRoleValue c.role).toUInt64]

/-- The loop variables of `validate_raw_frame_sequence`. -/
structure RawSequence where
  previous : Option (List UInt64)
  activeInvocation : CP2InvocationTraceIdentity
  expectedOrdinal : UInt64
  activeFeatureIds : List UInt64

def RawSequence.next (q : RawSequence) (c : RawSystemContent) : Except String RawSequence :=
  let key := rawFrameKey c
  if q.previous.any fun previous => !lexLess previous key then
    .error "raw-system frames are not in strict lexicographic order"
  else
    let q := if q.previous.isNone || c.invocation != q.activeInvocation then
        { q with activeInvocation := c.invocation, expectedOrdinal := 0, activeFeatureIds := [] }
      else q
    if c.featureOrdinal ≠ q.expectedOrdinal then
      .error "raw-system feature ordinals are not contiguous from zero"
    else if q.activeFeatureIds.contains c.rawSystem.featureId then
      .error "duplicate feature ID within one invocation"
    else if q.expectedOrdinal = 0xffffffffffffffff then
      .error "raw-system feature ordinal overflows u64"
    else
      .ok { q with
        previous := some key
        expectedOrdinal := q.expectedOrdinal + 1
        activeFeatureIds := c.rawSystem.featureId :: q.activeFeatureIds }

def validateRawFrameSequence (cs : List RawSystemContent) : Except String Unit := do
  let _ ← cs.foldlM RawSequence.next ⟨none, default, 0, []⟩
  return ()

def validateProposalFrameSequence : List ProposalContent → Except String Unit
  | c :: c' :: cs =>
    if !lexLess (proposalFrameKey c) (proposalFrameKey c') then
      .error "proposal frames are not in strict lexicographic order"
    else validateProposalFrameSequence (c' :: cs)
  | _ => .ok ()

structure RawFrameHeader where
  invocation : CP2InvocationTraceIdentity
  featureOrdinal : UInt64
  featureId : UInt64
deriving DecidableEq

def appendInvocation (invocation : CP2InvocationTraceIdentity) : List UInt8 :=
  appendU64 invocation.sequenceIndex ++ appendU64 invocation.pairIndex ++
    appendU64 invocation.invocationId

def readInvocation (name : String) : Reader CP2InvocationTraceIdentity := do
  let sequenceIndex ← readU64 (name ++ " frame sequence index")
  let pairIndex ← readU64 (name ++ " frame pair index")
  let invocationId ← readU64 (name ++ " frame invocation ID")
  return ⟨sequenceIndex, pairIndex, invocationId⟩

def readRawFrameHeader : Reader RawFrameHeader := do
  let invocation ← readInvocation "raw"
  let featureOrdinal ← readU64 "raw frame feature ordinal"
  let featureId ← readU64 "raw frame feature ID"
  return ⟨invocation, featureOrdinal, featureId⟩

/-- `SchurVIO-CP2-raw-file-v1`, padded to 32 bytes. -/
def rawFileMagic : List UInt8 :=
  [0x53, 0x63, 0x68, 0x75, 0x72, 0x56, 0x49, 0x4f, 0x2d, 0x43, 0x50, 0x32, 0x2d, 0x72, 0x61, 0x77,
    0x2d, 0x66, 0x69, 0x6c, 0x65, 0x2d, 0x76, 0x31, 0x0a, 0x00, 0x00, 0x00, 0x00, 0x00, 0x00, 0x00]

/-- `SchurVIO-CP2-proposal-file-v1`, padded to 32 bytes. -/
def proposalFileMagic : List UInt8 :=
  [0x53, 0x63, 0x68, 0x75, 0x72, 0x56, 0x49, 0x4f, 0x2d, 0x43, 0x50, 0x32, 0x2d, 0x70, 0x72, 0x6f,
    0x70, 0x6f, 0x73, 0x61, 0x6c, 0x2d, 0x66, 0x69, 0x6c, 0x65, 0x2d, 0x76, 0x31, 0x0a, 0x00, 0x00]

def rawSystemFile : FrameFile RawSystemContent RawFrameHeader where
  name := "raw"
  longName := "raw-system"
  magic := rawFileMagic
  header c := ⟨c.invocation, c.featureOrdinal, c.rawSystem.featureId⟩
  appendHeader h := appendInvocation h.invocation ++ appendU64 h.featureOrdinal ++
    appendU64 h.featureId
  readHeader := readRawFrameHeader
  encodePayload c := encodeRawSystemPayload c.rawSystem
  decodePayload limits h payload spent := do
    let (raw, spent) ← decodeRawSystemPayload limits payload spent
    if raw.featureId ≠ h.featureId then
      .error "raw frame feature ID does not match its canonical payload"
    else
      return (⟨h.invocation, h.featureOrdinal, raw⟩, spent)
  validate := validateRawFrameSequence

def reservedBytes : List UInt8 := List.replicate 7 0

def readProposalFrameHeader : Reader (CP2ProposalTraceRole × CP2InvocationTraceIdentity) := do
  let role ← readU8 "proposal frame role"
  reject (decide (1 < role)) "invalid proposal frame role"
  expectBytes reservedBytes "proposal frame reserved bytes"
  let invocation ← readInvocation "proposal"
  return (if role = 0 then .kNullspaceBaseline else .kSchurCandidate, invocation)

def proposalFile : FrameFile ProposalContent (CP2ProposalTraceRole × CP2InvocationTraceIdentity) where
  name := "proposal"
  longName := "proposal"
  magic := proposalFileMagic
  header c := (c.role, c.invocation)
  appendHeader h := [proposalRoleValue h.1] ++ reservedBytes ++ appendInvocation h.2
  readHeader := readProposalFrameHeader
  encodePayload c := encodeProposalPayload c.proposal
  decodePayload limits h payload spent := do
    let (proposal, spent) ← decodeProposalPayload limits payload spent
    return (⟨h.2, h.1, proposal⟩, spent)
  validate := validateProposalFrameSequence

/-- `EncodeRawSystemFile`. The references the frames carry are not looked at. -/
def encodeRawSystemFile (frames : List CP2RawSystemTraceFrame) : Except String EncodedFile :=
  encodeFile rawSystemFile (frames.map (·.content))

def decodeRawSystemFile (file : List UInt8) (limits : CP2TraceDecodeLimits) :
    Except String (List CP2RawSystemTraceFrame) :=
  decodeFile rawSystemFile limits file

def encodeProposalFile (frames : List CP2ProposalTraceFrame) : Except String EncodedFile :=
  encodeFile proposalFile (frames.map (·.content))

def decodeProposalFile (file : List UInt8) (limits : CP2TraceDecodeLimits) :
    Except String (List CP2ProposalTraceFrame) :=
  decodeFile proposalFile limits file

/-! ## Round trips -/

section RoundTrip

variable {limits : CP2TraceDecodeLimits}

theorem readInvocation_reads {L : Nat} (name : String) :
    Reads L (readInvocation name) (fun _ => True)
      ⟨appendInvocation, fun _ => 0, fun _ => True⟩ := by
  refine .congr
    (.bind CP2InvocationTraceIdentity.sequenceIndex (readU64_reads _) fun _ =>
      .bind CP2InvocationTraceIdentity.pairIndex (readU64_reads _) fun _ =>
      .bind CP2InvocationTraceIdentity.invocationId (readU64_reads _) fun _ =>
      .pure ?_) ?_ ?_ ?_
  · rintro ⟨⟩
    simp
    tauto
  · intro invocation _
    simp [appendInvocation]
  · intro invocation _
    simp
  · intro invocation _
    simp

theorem readRawFrameHeader_reads {L : Nat} :
    Reads L readRawFrameHeader (fun _ => True)
      ⟨rawSystemFile.appendHeader, fun _ => 0, fun _ => True⟩ := by
  refine .congr
    (.bind RawFrameHeader.invocation (readInvocation_reads _) fun _ =>
      .bind RawFrameHeader.featureOrdinal (readU64_reads _) fun _ =>
      .bind RawFrameHeader.featureId (readU64_reads _) fun _ => .pure ?_) ?_ ?_ ?_
  · rintro ⟨⟩
    simp
    tauto
  · intro h _
    simp [rawSystemFile]
  · intro h _
    simp
  · intro h _
    simp

def rawSystemSpec (limits : CP2TraceDecodeLimits) : FrameSpec rawSystemFile limits where
  cost c := rawSystemCoefficients c.rawSystem
  fits c := RawSystemFits limits c.rawSystem
  header_reads := readRawFrameHeader_reads
  decode_iff := by
    intro h payload spent spent' c hs
    simp only [rawSystemFile, bind_eq_ok, Prod.exists, decodeRawSystemPayload_eq_ok limits hs]
    constructor
    · rintro ⟨raw, spent₁, ⟨henc, hfits, hcost, hle⟩, hret⟩
      split_ifs at hret with hid
      cases hret
      exact ⟨⟨by rw [not_not.mp hid], henc⟩, hfits, hcost, hle⟩
    · rintro ⟨⟨rfl, henc⟩, hfits, hcost, hle⟩
      refine ⟨c.rawSystem, spent', ⟨henc, hfits, hcost, hle⟩, ?_⟩
      rw [if_neg (by simp)]
      rfl

theorem readProposalFrameHeader_reads {L : Nat} :
    Reads L readProposalFrameHeader (fun _ => True)
      ⟨proposalFile.appendHeader, fun _ => 0, fun _ => True⟩ := by
  refine .congr
    (.bind (fun h => proposalRoleValue h.1) (readU8_reads _) fun role =>
      .reject (fun _ => True) ?_ fun hrole =>
      .bind (fun _ => ()) (expectBytes_reads _ _) fun _ =>
      .bind Prod.snd (readInvocation_reads _) fun invocation => .pure ?_) ?_ ?_ ?_
  · rintro ⟨role', invocation⟩ ⟨-, rfl⟩
    cases role' <;> simp [proposalRoleValue]
  · -- A role byte is 0 or 1, and stands for exactly one role.
    rintro ⟨role', invocation'⟩
    have hcases : role = 0 ∨ role = 1 := by
      rw [decide_eq_false_iff_not, UInt8.not_lt, UInt8.le_iff_toNat_le] at hrole
      have : role.toNat = 0 ∨ role.toNat = 1 := by
        have h1 : (1 : UInt8).toNat = 1 := rfl
        omega
      rcases this with h | h
      · exact .inl (UInt8.toNat_inj.mp h)
      · exact .inr (UInt8.toNat_inj.mp h)
    rcases hcases with rfl | rfl <;> cases role' <;> simp [proposalRoleValue]
  · intro h _
    simp [proposalFile]
  · intro h _
    simp
  · intro h _
    simp

def proposalSpec (limits : CP2TraceDecodeLimits) : FrameSpec proposalFile limits where
  cost c := proposalCoefficients c.proposal
  fits c := ProposalFits limits c.proposal
  header_reads := readProposalFrameHeader_reads
  decode_iff := by
    intro h payload spent spent' c hs
    simp only [proposalFile, bind_eq_ok, Prod.exists, decodeProposalPayload_eq_ok limits hs]
    constructor
    · rintro ⟨proposal, spent₁, ⟨henc, hfits, hcost, hle⟩, hret⟩
      cases hret
      exact ⟨⟨rfl, henc⟩, hfits, hcost, hle⟩
    · rintro ⟨⟨rfl, henc⟩, hfits, hcost, hle⟩
      exact ⟨c.proposal, spent', ⟨henc, hfits, hcost, hle⟩, rfl⟩

/-- **Raw-system and proposal files are exact encodings.** Whatever the encoders accept and the
limits allow is decoded to the same frames with the reported references, and whatever the
decoders accept is the encoding of what they return. -/
theorem traceFiles_bijective (limits : CP2TraceDecodeLimits) :
    ((∀ frames file, encodeRawSystemFile frames = .ok file →
        FileFits (rawSystemSpec limits) (frames.map (·.content)) file.bytes →
        ∃ decoded, decodeRawSystemFile file.bytes limits = .ok decoded ∧
          decoded.map (·.content) = frames.map (·.content) ∧
          decoded.map (·.payload) = file.payloads) ∧
      ∀ bytes decoded, decodeRawSystemFile bytes limits = .ok decoded →
        encodeRawSystemFile decoded = .ok ⟨bytes, decoded.map (·.payload)⟩) ∧
    (∀ frames file, encodeProposalFile frames = .ok file →
        FileFits (proposalSpec limits) (frames.map (·.content)) file.bytes →
        ∃ decoded, decodeProposalFile file.bytes limits = .ok decoded ∧
          decoded.map (·.content) = frames.map (·.content) ∧
          decoded.map (·.payload) = file.payloads) ∧
      ∀ bytes decoded, decodeProposalFile bytes limits = .ok decoded →
        encodeProposalFile decoded = .ok ⟨bytes, decoded.map (·.payload)⟩ := by
  refine ⟨⟨?_, ?_⟩, ?_, ?_⟩
  · intro frames file henc hfits
    exact decodeFile_encodeFile (rawSystemSpec limits) henc hfits
  · intro bytes decoded hdec
    exact ((decodeFile_eq_ok_iff (rawSystemSpec limits)).mp hdec).1
  · intro frames file henc hfits
    exact decodeFile_encodeFile (proposalSpec limits) henc hfits
  · intro bytes decoded hdec
    exact ((decodeFile_eq_ok_iff (proposalSpec limits)).mp hdec).1

def sampleRawSystem : CP2RawFeatureSystem where
  featureId := 7
  H_x := ⟨2, 1, [⟨0x3ff0000000000000⟩, ⟨0x4000000000000000⟩], rfl, by decide, one_lt_indexLimit⟩
  H_f := ⟨2, 1, [⟨0⟩, ⟨0x3ff0000000000000⟩], rfl, by decide, one_lt_indexLimit⟩
  residual := ⟨[⟨0⟩, ⟨0x8000000000000000⟩], by decide⟩
  jacobianLayout := [⟨3, 1, 0⟩]

def sampleProposal : CP2ProposalTracePayload where
  dx := ⟨[⟨0x3ff0000000000000⟩], one_lt_indexLimit⟩
  P_plus := ⟨1, 1, [⟨0x4000000000000000⟩], rfl, one_lt_indexLimit, one_lt_indexLimit⟩

def sampleRawContent : RawSystemContent := ⟨⟨0, 1, 2⟩, 0, sampleRawSystem⟩

def sampleProposalContent : ProposalContent := ⟨⟨0, 1, 2⟩, .kSchurCandidate, sampleProposal⟩

theorem exists_ok_of_length {x : Except String EncodedFile} {n : Nat}
    (h : x.toOption.map (·.bytes.length) = some n) :
    ∃ file, x = .ok file ∧ file.bytes.length = n := by
  cases x with
  | error e => simp [Except.toOption] at h
  | ok file => exact ⟨file, rfl, by simpa [Except.toOption] using h⟩

/-- Both samples, framed for one invocation, are encoded and decoded again. -/
theorem traceFiles_bijective_sample :
    (∃ file, encodeRawSystemFile [⟨sampleRawContent, default⟩] = .ok file ∧
      ∃ decoded, decodeRawSystemFile file.bytes {} = .ok decoded ∧
        decoded.map (·.content) = [sampleRawContent] ∧
        encodeRawSystemFile decoded = .ok ⟨file.bytes, decoded.map (·.payload)⟩) ∧
    ∃ file, encodeProposalFile [⟨sampleProposalContent, default⟩] = .ok file ∧
      ∃ decoded, decodeProposalFile file.bytes {} = .ok decoded ∧
        decoded.map (·.content) = [sampleProposalContent] ∧
        encodeProposalFile decoded = .ok ⟨file.bytes, decoded.map (·.payload)⟩ := by
  obtain ⟨⟨hraw, hraw'⟩, hprop, hprop'⟩ := traceFiles_bijective {}
  constructor
  · have hsize : (encodeRawSystemFile [⟨sampleRawContent, default⟩]).toOption.map (·.bytes.length) =
        some 235 := by
      decide +kernel
    obtain ⟨file, henc, hlen⟩ := exists_ok_of_length hsize
    have hfits : FileFits (rawSystemSpec {}) [sampleRawContent] file.bytes := by
      refine ⟨by rw [hlen]; decide, by decide, ?_, by decide⟩
      intro c hc
      refine ⟨?_, payloadWithin_of_encodeFile henc (by rw [hlen]; decide) c hc⟩
      obtain rfl := mem_singleton.mp hc
      exact ⟨by decide, by decide, by decide, by decide, by decide⟩
    obtain ⟨decoded, hdec, hcontent, -⟩ := hraw _ file henc hfits
    exact ⟨file, henc, decoded, hdec, hcontent, hraw' _ _ hdec⟩
  · have hsize : (encodeProposalFile [⟨sampleProposalContent, default⟩]).toOption.map (·.bytes.length) =
        some 145 := by
      decide
    obtain ⟨file, henc, hlen⟩ := exists_ok_of_length hsize
    have hfits : FileFits (proposalSpec {}) [sampleProposalContent] file.bytes := by
      refine ⟨by rw [hlen]; decide, by decide, ?_, by decide⟩
      intro c hc
      refine ⟨?_, payloadWithin_of_encodeFile henc (by rw [hlen]; decide) c hc⟩
      obtain rfl := mem_singleton.mp hc
      exact ⟨by decide, by decide, by decide⟩
    obtain ⟨decoded, hdec, hcontent, -⟩ := hprop _ file henc hfits
    exact ⟨file, henc, decoded, hdec, hcontent, hprop' _ _ hdec⟩

end RoundTrip

end Bravo.Trace
