import Bravo.Trace.StateCodec

/-! # Files in fragments

A file that is encoded for each invocation on its own can be put together: the bytes after the
magic do not depend on where they stand, so the fragments in order are the file of all frames,
provided that the invocations are in order. A limit on the bytes of a file bounds everything else
that its decoder limits.
-/

namespace Bravo.Trace

open List

/-! ## Concatenation -/

section Append

variable {γ η : Type} {K : FrameFile γ η} {cs : List γ}

theorem encodeFrames_shift :
    ∀ {output fragment : List UInt8} {rs : List CP2TracePayloadReference},
      encodeFrames K output cs = .ok (output ++ fragment, rs) →
      ∀ output' : List UInt8, output'.length + fragment.length < 2 ^ 64 →
        ∃ rs', encodeFrames K output' cs = .ok (output' ++ fragment, rs') := by
  induction cs with
  | nil =>
    intro output fragment rs h output' _
    have hnil : fragment = [] := by
      have hout : output = output ++ fragment := (Prod.mk.inj (Except.ok.inj h)).1
      exact self_eq_append_right.mp hout
    exact ⟨[], by rw [hnil, append_nil]; rfl⟩
  | cons c cs ih =>
    intro output fragment rs h output' hlt
    simp only [encodeFrames, bind_eq_ok, Prod.exists] at h
    obtain ⟨next, r, h₁, final, rs', h₂, h₃⟩ := h
    cases h₃
    obtain ⟨payload, henc, rfl, -, -⟩ := (encodeFrame_eq_ok K).mp h₁
    obtain ⟨rest, hrest⟩ := prefix_of_encodeFrames h₂
    rw [hrest] at h₂
    obtain rfl : fragment = frameBytes K c payload ++ rest := by
      rw [append_assoc] at hrest
      exact append_cancel_left hrest
    rw [length_append] at hlt
    have hlt' : (output' ++ frameBytes K c payload).length < 2 ^ 64 := by
      rw [length_append]
      omega
    have hframe := (encodeFrame_eq_ok K).mpr ⟨payload, henc, rfl, hlt', rfl⟩
    obtain ⟨rs'', htail⟩ := ih h₂ (output' ++ frameBytes K c payload)
      (by rw [length_append]; omega)
    rw [← append_assoc]
    exact ⟨_, encodeFrames_cons_eq_ok.mpr ⟨_, hframe, htail⟩⟩

theorem encodeFrames_append {cs₁ cs₂ : List γ} :
    ∀ {output middle final : List UInt8} {rs₁ rs₂ : List CP2TracePayloadReference},
      encodeFrames K output cs₁ = .ok (middle, rs₁) →
      encodeFrames K middle cs₂ = .ok (final, rs₂) →
      encodeFrames K output (cs₁ ++ cs₂) = .ok (final, rs₁ ++ rs₂) := by
  induction cs₁ with
  | nil =>
    intro output middle final rs₁ rs₂ h₁ h₂
    cases h₁
    exact h₂
  | cons c cs₁ ih =>
    intro output middle final rs₁ rs₂ h₁ h₂
    simp only [encodeFrames, bind_eq_ok, Prod.exists] at h₁
    obtain ⟨next, r, hframe, middle', rs', htail, hret⟩ := h₁
    cases hret
    exact encodeFrames_cons_eq_ok.mpr ⟨next, hframe, ih htail h₂⟩

def fragmentOf (K : FrameFile γ η) (file : EncodedFile) : List UInt8 :=
  file.bytes.drop K.magic.length

theorem bytes_eq_magic_append {file : EncodedFile} (h : encodeFile K cs = .ok file) :
    file.bytes = K.magic ++ fragmentOf K file := by
  obtain ⟨rest, hrest⟩ := prefix_of_encodeFrames (encodeFile_eq_ok.mp h).2
  rw [fragmentOf, hrest, drop_left' rfl]

/-- **A file in two fragments.** -/
theorem encodeFile_append {cs₁ cs₂ : List γ} {file₁ file₂ : EncodedFile}
    (hval : K.validate (cs₁ ++ cs₂) = .ok ()) (h₁ : encodeFile K cs₁ = .ok file₁)
    (h₂ : encodeFile K cs₂ = .ok file₂)
    (hlt : file₁.bytes.length + (fragmentOf K file₂).length < 2 ^ 64) :
    ∃ file, encodeFile K (cs₁ ++ cs₂) = .ok file ∧
      file.bytes = file₁.bytes ++ fragmentOf K file₂ := by
  have hframes₁ := (encodeFile_eq_ok.mp h₁).2
  have hframes₂ := (encodeFile_eq_ok.mp h₂).2
  rw [bytes_eq_magic_append h₂] at hframes₂
  obtain ⟨rs, hshift⟩ := encodeFrames_shift hframes₂ file₁.bytes hlt
  exact ⟨⟨_, _⟩, encodeFile_eq_ok.mpr ⟨hval, encodeFrames_append hframes₁ hshift⟩, rfl⟩

theorem sum_le_of_encodeFrames {weight : γ → Nat} :
    ∀ {output final : List UInt8} {rs : List CP2TracePayloadReference},
      encodeFrames K output cs = .ok (final, rs) →
      (∀ c ∈ cs, ∀ payload, K.encodePayload c = .ok payload →
        weight c ≤ (frameBytes K c payload).length) →
      output.length + (cs.map weight).sum ≤ final.length := by
  induction cs with
  | nil =>
    intro output final rs h _
    cases h
    simp
  | cons c cs ih =>
    intro output final rs h hweight
    simp only [encodeFrames, bind_eq_ok, Prod.exists] at h
    obtain ⟨next, r, h₁, final', rs', h₂, h₃⟩ := h
    cases h₃
    obtain ⟨payload, henc, rfl, -, -⟩ := (encodeFrame_eq_ok K).mp h₁
    have hhead := hweight c mem_cons_self payload henc
    have htail := ih h₂ fun c' hc' => hweight c' (mem_cons_of_mem c hc')
    rw [length_append] at htail
    rw [map_cons, sum_cons]
    omega

end Append

/-! ## Limits that follow from the size

The journal decoder derives the limits of the codecs from the number of bytes it accepts. -/

/-- Whatever fits into `total` bytes is within these limits. -/
structure BytesLimit (limits : CP2TraceDecodeLimits) (total : Nat) : Prop where
  file : total ≤ limits.maximumFileBytes.toNat
  frames : total / 40 ≤ limits.maximumFrames.toNat
  matrix : total / 8 ≤ limits.maximumMatrixCoefficients.toNat
  budget : total / 8 ≤ limits.budget
  rows : total / 8 ≤ limits.maximumVectorRows.toNat
  layout : total / 16 ≤ limits.maximumLayoutBlocks.toNat

section Sizes

variable {limits : CP2TraceDecodeLimits} {total : Nat}

theorem BytesLimit.matrixWithin (h : BytesLimit limits total) {n : Nat} (hn : 8 * n ≤ total) :
    n ≤ limits.maximumMatrixCoefficients.toNat := by
  have := h.matrix
  omega

theorem BytesLimit.layoutWithin (h : BytesLimit limits total) {n : Nat} (hn : 16 * n ≤ total) :
    n ≤ limits.maximumLayoutBlocks.toNat := by
  have := h.layout
  omega

/-- **A file within the size is within all limits**, if its frames are. -/
theorem fileFits_of_size {γ η : Type} {K : FrameFile γ η} {spec : FrameSpec K limits} {cs : List γ}
    {file : EncodedFile} (h : BytesLimit limits total) (henc : encodeFile K cs = .ok file)
    (hfile : file.bytes.length ≤ total) (hheader : ∀ η, 32 ≤ (K.appendHeader η).length)
    (hcost : ∀ c ∈ cs, ∀ payload, K.encodePayload c = .ok payload →
      8 * spec.cost c ≤ payload.length)
    (hfits : ∀ c ∈ cs, spec.Fits c) : FileFits spec cs file.bytes := by
  have hframes := (encodeFile_eq_ok.mp henc).2
  have hcount : K.magic.length + (cs.map fun _ => 40).sum ≤ file.bytes.length := by
    refine sum_le_of_encodeFrames hframes ?_
    intro c _ payload _
    have := hheader (K.header c)
    rw [length_frameBytes]
    omega
  have hcosts : K.magic.length + (cs.map fun c => 8 * spec.cost c).sum ≤ file.bytes.length := by
    refine sum_le_of_encodeFrames hframes ?_
    intro c hc payload hp
    have := hcost c hc payload hp
    rw [length_frameBytes]
    omega
  have hbytes := h.file
  have hmax := h.frames
  have hbudget := h.budget
  rw [map_const', sum_replicate, smul_eq_mul] at hcount
  rw [sum_map_mul_left] at hcosts
  exact ⟨by omega, by omega, hfits, by omega⟩

/-! ### Raw systems and proposals -/

theorem length_rawSystemBytes (raw : CP2RawFeatureSystem) :
    8 * rawSystemCoefficients raw + 16 * raw.jacobianLayout.length ≤ (rawSystemBytes raw).length := by
  have hlayout := length_flatMap_appendLayoutBlock raw.jacobianLayout
  simp only [rawSystemBytes, rawSystemCoefficients, length_append, length_appendMatrix,
    length_appendVector, hlayout]
  omega

theorem length_proposalBytes (proposal : CP2ProposalTracePayload) :
    8 * proposalCoefficients proposal ≤ (proposalBytes proposal).length := by
  simp only [proposalBytes, proposalCoefficients, length_append, length_appendMatrix,
    length_appendVector]
  omega

theorem rawSystemFits_of_size (h : BytesLimit limits total) {c : RawSystemContent}
    {payload : List UInt8} (henc : rawSystemFile.encodePayload c = .ok payload)
    (hle : payload.length ≤ total) : RawSystemFits limits c.rawSystem := by
  obtain ⟨-, rfl⟩ := encodeRawSystemPayload_eq_ok.mp henc
  have hlength := length_rawSystemBytes c.rawSystem
  have hrows := h.rows
  rw [rawSystemCoefficients] at hlength
  exact ⟨h.matrixWithin (by omega), h.matrixWithin (by omega), h.matrixWithin (by omega), by omega,
    h.layoutWithin (by omega)⟩

theorem proposalFits_of_size (h : BytesLimit limits total) {c : ProposalContent}
    {payload : List UInt8} (henc : proposalFile.encodePayload c = .ok payload)
    (hle : payload.length ≤ total) : ProposalFits limits c.proposal := by
  obtain ⟨-, rfl⟩ := encodeProposalPayload_eq_ok.mp henc
  have hlength := length_proposalBytes c.proposal
  have hrows := h.rows
  rw [proposalCoefficients] at hlength
  exact ⟨h.matrixWithin (by omega), by omega, h.matrixWithin (by omega)⟩

end Sizes

/-! ### Snapshots -/

section SnapshotSizes

variable (limits : CP2TraceDecodeLimits)

/-- A format in which a coefficient takes eight bytes, and a value at least sixteen. -/
structure SizedFormat {α : Type} (F : Format α) : Prop where
  cost : ∀ a, 8 * F.cost a ≤ (F.bytes a).length
  minimum : ∀ a, 16 ≤ (F.bytes a).length

section Sized

variable {α : Type} {F : Format α}

theorem SizedFormat.list_cost (h : SizedFormat F) (l : List α) :
    8 * (l.map F.cost).sum ≤ ((listFormat limits F).bytes l).length := by
  have hflat : 8 * (l.map F.cost).sum ≤ (l.flatMap F.bytes).length := by
    rw [length_flatMap, ← sum_map_mul_left]
    exact sum_le_sum fun a _ => h.cost a
  simp only [listFormat, Format.list, length_append, length_appendU64]
  omega

theorem SizedFormat.list_length (h : SizedFormat F) (l : List α) :
    16 * l.length ≤ ((listFormat limits F).bytes l).length := by
  have hflat := length_list_bytes_ge fun a (_ : a ∈ l) => h.minimum a
  simp only [listFormat, length_append, length_appendU64]
  omega

theorem SizedFormat.entry_cost (h : SizedFormat F) {l : List α} {a : α} (ha : a ∈ l) :
    8 * F.cost a ≤ ((listFormat limits F).bytes l).length := by
  have hentry := le_sum_of_mem (mem_map_of_mem (f := F.cost) ha)
  have hlist := h.list_cost limits l
  omega

end Sized

theorem sized_semanticBlockFormat : SizedFormat semanticBlockFormat := by
  refine ⟨fun b => Nat.zero_le _, fun b => ?_⟩
  have := length_semanticBlock_ge b
  omega

theorem sized_activeTypeFormat : SizedFormat (activeTypeFormat limits) := by
  refine ⟨fun t => ?_, fun t => ?_⟩
  · simp only [activeTypeFormat, length_append, length_appendMatrix]
    omega
  · have := length_activeType_ge limits t
    omega

theorem sized_fixedImuCalibrationFormat : SizedFormat (fixedImuCalibrationFormat limits) := by
  refine ⟨fun c => ?_, fun c => ?_⟩
  · simp only [fixedImuCalibrationFormat, length_append, length_appendMatrix]
    omega
  · have := length_fixedImuCalibration_ge limits c
    omega

theorem sized_cameraCalibrationFormat : SizedFormat (cameraCalibrationFormat limits) := by
  refine ⟨fun c => ?_, fun c => ?_⟩
  · simp only [cameraCalibrationFormat, length_append, length_appendMatrix]
    omega
  · have := length_cameraCalibration_ge limits c
    omega

theorem sized_cameraCacheFormat : SizedFormat (cameraCacheFormat limits) := by
  refine ⟨fun c => ?_, fun c => ?_⟩
  · simp only [cameraCacheFormat, length_append, length_appendMatrix]
    omega
  · have := length_cameraCache_ge limits c
    omega

theorem length_snapshotBytes (s : CP2CompositeStateSnapshot) :
    8 * s.covariance.coeffs.length + 8 * s.timeOffsetNominal.coeffs.length +
      8 * s.timeOffsetFej.coeffs.length +
      ((listFormat limits semanticBlockFormat).bytes s.semanticBlocks).length +
      ((listFormat limits (activeTypeFormat limits)).bytes s.activeTypes).length +
      ((listFormat limits (fixedImuCalibrationFormat limits)).bytes s.fixedImuCalibrations).length +
      ((listFormat limits (cameraCalibrationFormat limits)).bytes s.cameraCalibrations).length +
      ((listFormat limits (cameraCacheFormat limits)).bytes s.cameraCaches).length ≤
    (snapshotBytes limits s).length := by
  simp only [snapshotBytes, length_append, length_appendMatrix]
  omega

theorem snapshotCoefficients_le (s : CP2CompositeStateSnapshot) :
    8 * snapshotCoefficients s ≤ (snapshotBytes limits s).length := by
  have hparts := length_snapshotBytes limits s
  have hactive := (sized_activeTypeFormat limits).list_cost limits s.activeTypes
  have hfixed := (sized_fixedImuCalibrationFormat limits).list_cost limits s.fixedImuCalibrations
  have hcamera := (sized_cameraCalibrationFormat limits).list_cost limits s.cameraCalibrations
  have hcache := (sized_cameraCacheFormat limits).list_cost limits s.cameraCaches
  simp only [activeTypeFormat, fixedImuCalibrationFormat, cameraCalibrationFormat,
    cameraCacheFormat] at hactive hfixed hcamera hcache hparts
  rw [snapshotCoefficients]
  omega

theorem snapshotFits_of_size {total : Nat} (h : BytesLimit limits total)
    {s : CP2CompositeStateSnapshot} (hle : (snapshotBytes limits s).length ≤ total) :
    SnapshotFits limits s := by
  have hparts := length_snapshotBytes limits s
  have hsemantic := sized_semanticBlockFormat.list_length limits s.semanticBlocks
  have hactive := (sized_activeTypeFormat limits).list_length limits s.activeTypes
  have hfixed := (sized_fixedImuCalibrationFormat limits).list_length limits s.fixedImuCalibrations
  have hcamera := (sized_cameraCalibrationFormat limits).list_length limits s.cameraCalibrations
  have hcache := (sized_cameraCacheFormat limits).list_length limits s.cameraCaches
  refine ⟨h.matrixWithin (by omega), h.layoutWithin (by omega), h.layoutWithin (by omega), ?_,
    h.layoutWithin (by omega), ?_, h.matrixWithin (by omega), h.matrixWithin (by omega),
    h.layoutWithin (by omega), ?_, h.layoutWithin (by omega), ?_⟩
  · intro t ht
    have hcost : 8 * (t.nominal.coeffs.length + t.fej.coeffs.length) ≤ _ :=
      (sized_activeTypeFormat limits).entry_cost limits ht
    exact ⟨h.matrixWithin (by omega), h.matrixWithin (by omega)⟩
  · intro c hc
    have hcost : 8 * (c.nominal.coeffs.length + c.fej.coeffs.length) ≤ _ :=
      (sized_fixedImuCalibrationFormat limits).entry_cost limits hc
    exact ⟨h.matrixWithin (by omega), h.matrixWithin (by omega)⟩
  · intro c hc
    have hcost : 8 * (c.extrinsicNominal.coeffs.length + c.extrinsicFej.coeffs.length +
        c.intrinsicNominal.coeffs.length + c.intrinsicFej.coeffs.length) ≤ _ :=
      (sized_cameraCalibrationFormat limits).entry_cost limits hc
    exact ⟨h.matrixWithin (by omega), h.matrixWithin (by omega), h.matrixWithin (by omega),
      h.matrixWithin (by omega)⟩
  · intro c hc
    have hcost : 8 * (c.calibration.coeffs.length + c.K.coeffs.length + c.D.coeffs.length) ≤ _ :=
      (sized_cameraCacheFormat limits).entry_cost limits hc
    exact ⟨h.matrixWithin (by omega), h.matrixWithin (by omega), h.matrixWithin (by omega)⟩

end SnapshotSizes

/-! ### The three files -/

section Files

variable {limits : CP2TraceDecodeLimits} {total : Nat} {file : EncodedFile}

theorem payload_le_of_encodeFile {γ η : Type} {K : FrameFile γ η} {cs : List γ}
    (henc : encodeFile K cs = .ok file) {c : γ} (hc : c ∈ cs) {payload : List UInt8}
    (hpayload : K.encodePayload c = .ok payload) : payload.length ≤ file.bytes.length := by
  have := length_payload_le_of_encodeFrames (encodeFile_eq_ok.mp henc).2 c hc payload hpayload
  omega

theorem payload_of_mem {γ η : Type} {K : FrameFile γ η} {cs : List γ} :
    ∀ {output final : List UInt8} {rs : List CP2TracePayloadReference},
      encodeFrames K output cs = .ok (final, rs) →
      ∀ c ∈ cs, ∃ payload, K.encodePayload c = .ok payload := by
  induction cs with
  | nil =>
    intro output final rs _ c hc
    cases hc
  | cons c cs ih =>
    intro output final rs h c' hc'
    simp only [encodeFrames, bind_eq_ok, Prod.exists] at h
    obtain ⟨next, r, h₁, final', rs', h₂, -⟩ := h
    obtain ⟨payload, henc, -, -, -⟩ := (encodeFrame_eq_ok K).mp h₁
    rcases mem_cons.mp hc' with rfl | hc'
    · exact ⟨payload, henc⟩
    · exact ih h₂ c' hc'

theorem rawFile_fits (h : BytesLimit limits total) {cs : List RawSystemContent}
    (henc : encodeFile rawSystemFile cs = .ok file) (hfile : file.bytes.length ≤ total)
    (hpayloads : ∀ c ∈ cs, PayloadWithin rawSystemFile limits c) :
    FileFits (rawSystemSpec limits) cs file.bytes := by
  refine fileFits_of_size h henc hfile (fun _ => by simp [rawSystemFile, appendInvocation]) ?_ ?_
  · intro c _ payload hp
    obtain ⟨-, rfl⟩ := encodeRawSystemPayload_eq_ok.mp hp
    have := length_rawSystemBytes c.rawSystem
    show 8 * rawSystemCoefficients c.rawSystem ≤ _
    omega
  · intro c hc
    obtain ⟨payload, hp⟩ := payload_of_mem (encodeFile_eq_ok.mp henc).2 c hc
    have hle := payload_le_of_encodeFile henc hc hp
    exact ⟨rawSystemFits_of_size h hp (by omega), hpayloads c hc⟩

theorem proposalFile_fits (h : BytesLimit limits total) {cs : List ProposalContent}
    (henc : encodeFile proposalFile cs = .ok file) (hfile : file.bytes.length ≤ total)
    (hpayloads : ∀ c ∈ cs, PayloadWithin proposalFile limits c) :
    FileFits (proposalSpec limits) cs file.bytes := by
  refine fileFits_of_size h henc hfile
    (fun _ => by simp [proposalFile, appendInvocation, reservedBytes]) ?_ ?_
  · intro c _ payload hp
    obtain ⟨-, rfl⟩ := encodeProposalPayload_eq_ok.mp hp
    exact length_proposalBytes c.proposal
  · intro c hc
    obtain ⟨payload, hp⟩ := payload_of_mem (encodeFile_eq_ok.mp henc).2 c hc
    have hle := payload_le_of_encodeFile henc hc hp
    exact ⟨proposalFits_of_size h hp (by omega), hpayloads c hc⟩

theorem stateFile_within (h : BytesLimit limits total) {cs : List StateContent}
    (henc : encodeFile stateFile cs = .ok file) (hfile : file.bytes.length ≤ total)
    (hpayloads : ∀ c ∈ cs, PayloadWithin stateFile limits c) :
    FileFits (stateSpec limits) (cs.map StateContent.normalise) file.bytes := by
  have hval : validateStateFrameSequence cs = .ok () := (encodeFile_eq_ok.mp henc).1
  have henc' := encodeStateFile_normalise henc
  refine fileFits_of_size h henc' hfile
    (fun _ => by simp [stateFile, appendInvocation, reservedBytes]) ?_ ?_
  · intro c _ payload hp
    obtain ⟨-, rfl⟩ := (encodeSnapshotPayload_eq_ok limits).mp hp
    exact snapshotCoefficients_le limits c.snapshot
  · intro c' hc'
    obtain ⟨c, hc, rfl⟩ := mem_map.mp hc'
    obtain ⟨payload, hp⟩ := payload_of_mem (encodeFile_eq_ok.mp henc').2 _ hc'
    have hle := payload_le_of_encodeFile henc' hc' hp
    obtain ⟨-, hbytes⟩ := (encodeSnapshotPayload_eq_ok limits).mp hp
    refine ⟨⟨phase_eq_of_validate hval c hc, c.snapshot.normalise_idem, ?_⟩, ?_⟩
    · exact snapshotFits_of_size limits h (hbytes ▸ (by omega))
    · intro payload' hp'
      exact hpayloads c hc payload' (encodeSnapshotPayload_normalise_eq_ok.mp hp')

end Files

/-! ## The order of the invocations -/

/-- One invocation comes before another in every file. -/
def InvocationBefore (i j : CP2InvocationTraceIdentity) : Prop :=
  lexLess (invocationKey i) (invocationKey j) = true

theorem lexLess_append {xs ys : List UInt64} (us vs : List UInt64) (h : lexLess xs ys = true) :
    lexLess (xs ++ us) (ys ++ vs) = true := by
  induction xs generalizing ys with
  | nil => cases ys <;> cases h
  | cons x xs ih =>
    cases ys with
    | nil => cases h
    | cons y ys =>
      simp only [cons_append, lexLess, Bool.or_eq_true, Bool.and_eq_true] at h ⊢
      rcases h with h | ⟨h, htail⟩
      · exact Or.inl h
      · exact Or.inr ⟨h, ih htail⟩

theorem lexLess_irrefl (xs : List UInt64) : lexLess xs xs = false := by
  induction xs with
  | nil => rfl
  | cons x xs ih => simp [lexLess, ih]

theorem InvocationBefore.ne {i j : CP2InvocationTraceIdentity} (h : InvocationBefore i j) :
    j ≠ i := by
  intro heq
  rw [heq, InvocationBefore, lexLess_irrefl] at h
  cases h

theorem invocationBefore_of_le {i j : CP2InvocationTraceIdentity}
    (hsequence : j.sequenceIndex = i.sequenceIndex) (hpair : i.pairIndex ≤ j.pairIndex)
    (hinvocation : i.invocationId < j.invocationId) : InvocationBefore i j := by
  simp only [InvocationBefore, invocationKey, lexLess, hsequence, Bool.or_eq_true,
    Bool.and_eq_true, decide_eq_true_eq, beq_iff_eq]
  right
  refine ⟨trivial, ?_⟩
  rcases UInt64.lt_or_eq_of_le hpair with hlt | heq
  · exact Or.inl hlt
  · exact Or.inr ⟨heq, Or.inl hinvocation⟩

/-! ### State files -/

section State

theorem checkStateOrder_append {ts₁ ts₂ : List StateFrameTag} :
    ∀ {previous : Option (List UInt64)}, checkStateOrder previous ts₁ = .ok () →
      checkStateOrder none ts₂ = .ok () →
      (∀ t₁ ∈ ts₁, ∀ t₂ ∈ ts₂, InvocationBefore t₁.invocation t₂.invocation) →
      (∀ key, previous = some key → ∀ t₂ ∈ ts₂, lexLess key (stateFrameKey t₂) = true) →
      checkStateOrder previous (ts₁ ++ ts₂) = .ok () := by
  induction ts₁ with
  | nil =>
    intro previous _ h₂ _ hprevious
    cases ts₂ with
    | nil => rfl
    | cons t ts₂ =>
      simp only [nil_append, checkStateOrder] at h₂ ⊢
      split_ifs at h₂ with hphase hnone
      rw [if_neg hphase, if_neg]
      · exact h₂
      · cases previous with
        | none => simp
        | some key => simp [hprevious key rfl t mem_cons_self]
  | cons t ts₁ ih =>
    intro previous h₁ h₂ hbefore hprevious
    simp only [cons_append, checkStateOrder] at h₁ ⊢
    split_ifs at h₁ with hphase hless
    rw [if_neg hphase, if_neg hless]
    refine ih h₁ h₂ (fun t₁ ht₁ => hbefore t₁ (mem_cons_of_mem t ht₁)) ?_
    intro key hkey t₂ ht₂
    cases hkey
    exact lexLess_append _ _ (hbefore t mem_cons_self t₂ ht₂)

theorem span_append {α : Type} {p : α → Bool} (xs : List α) {ys : List α}
    (hys : ∀ y ∈ ys, p y = false) :
    (xs ++ ys).takeWhile p = xs.takeWhile p ∧ (xs ++ ys).dropWhile p = xs.dropWhile p ++ ys := by
  induction xs with
  | nil =>
    cases ys with
    | nil => exact ⟨rfl, rfl⟩
    | cons y ys =>
      have hy := hys y mem_cons_self
      simp [hy]
  | cons x xs ih =>
    cases hx : p x with
    | true => simp [hx, ih.1, ih.2]
    | false => simp [hx]

theorem checkStateGroups_mono {fuel more : Nat} {ts : List StateFrameTag}
    (h : checkStateGroups fuel ts = .ok ()) : checkStateGroups (more + fuel) ts = .ok () := by
  induction fuel generalizing ts with
  | zero =>
    cases ts with
    | nil => cases more <;> rfl
    | cons t ts => cases h
  | succ fuel ih =>
    cases ts with
    | nil => rfl
    | cons t ts =>
      simp only [checkStateGroups, bind_eq_ok] at h ⊢
      obtain ⟨u, hgroup, hrest⟩ := h
      exact ⟨u, hgroup, ih hrest⟩

theorem checkStateGroups_append {fuel₁ fuel₂ : Nat} {ts₁ ts₂ : List StateFrameTag}
    (h₁ : checkStateGroups fuel₁ ts₁ = .ok ()) (h₂ : checkStateGroups fuel₂ ts₂ = .ok ())
    (hne : ∀ t₁ ∈ ts₁, ∀ t₂ ∈ ts₂, t₂.invocation ≠ t₁.invocation) :
    checkStateGroups (fuel₁ + fuel₂) (ts₁ ++ ts₂) = .ok () := by
  induction fuel₁ generalizing ts₁ with
  | zero =>
    cases ts₁ with
    | nil => simpa using h₂
    | cons t ts₁ => cases h₁
  | succ fuel₁ ih =>
    cases ts₁ with
    | nil => exact checkStateGroups_mono h₂
    | cons t ts₁ =>
      have hothers : ∀ t₂ ∈ ts₂, (t₂.invocation == t.invocation) = false := by
        intro t₂ ht₂
        simpa using hne t mem_cons_self t₂ ht₂
      obtain ⟨htake, hdrop⟩ := span_append
        (p := fun t₂ : StateFrameTag => t₂.invocation == t.invocation) ts₁ hothers
      rw [Nat.add_right_comm]
      simp only [cons_append, checkStateGroups, bind_eq_ok, htake, hdrop] at h₁ ⊢
      obtain ⟨u, hgroup, hrest⟩ := h₁
      refine ⟨u, hgroup, ih hrest ?_⟩
      intro t₁ ht₁
      exact hne t₁ (mem_cons_of_mem t ((dropWhile_suffix _).mem ht₁))

theorem validateStateFrameSequence_append {cs₁ cs₂ : List StateContent}
    (h₁ : validateStateFrameSequence cs₁ = .ok ()) (h₂ : validateStateFrameSequence cs₂ = .ok ())
    (hbefore : ∀ c₁ ∈ cs₁, ∀ c₂ ∈ cs₂, InvocationBefore c₁.invocation c₂.invocation) :
    validateStateFrameSequence (cs₁ ++ cs₂) = .ok () := by
  obtain ⟨_, horder₁, hgroups₁⟩ := bind_eq_ok.mp h₁
  obtain ⟨_, horder₂, hgroups₂⟩ := bind_eq_ok.mp h₂
  have htags : ∀ t₁ ∈ cs₁.map StateContent.tag, ∀ t₂ ∈ cs₂.map StateContent.tag,
      InvocationBefore t₁.invocation t₂.invocation := by
    intro t₁ ht₁ t₂ ht₂
    obtain ⟨c₁, hc₁, rfl⟩ := mem_map.mp ht₁
    obtain ⟨c₂, hc₂, rfl⟩ := mem_map.mp ht₂
    exact hbefore c₁ hc₁ c₂ hc₂
  rw [validateStateFrameSequence, map_append, length_append, bind_eq_ok]
  refine ⟨(), checkStateOrder_append horder₁ horder₂ htags ?_,
    checkStateGroups_append hgroups₁ hgroups₂ ?_⟩
  · intro key hkey
    cases hkey
  · intro t₁ ht₁ t₂ ht₂
    exact (htags t₁ ht₁ t₂ ht₂).ne

end State

/-! ### Raw-system files -/

section Raw

theorem RawSequence.next_eq_first {q : RawSequence} {c : RawSystemContent}
    (hkey : ∀ key, q.previous = some key → lexLess key (rawFrameKey c) = true)
    (hnew : q.previous = none ∨ c.invocation ≠ q.activeInvocation) :
    q.next c = RawSequence.next ⟨none, default, 0, []⟩ c := by
  have hless : ¬ (q.previous.any fun previous => !lexLess previous (rawFrameKey c)) = true := by
    cases hprevious : q.previous with
    | none => simp
    | some key => simp [hkey key hprevious]
  have hreset : (q.previous.isNone || c.invocation != q.activeInvocation) = true := by
    rcases hnew with h | h
    · simp [h]
    · simp [h]
  simp only [RawSequence.next, if_neg hless, if_pos hreset, Option.any_none, Option.isNone_none,
    Bool.true_or, if_true, Bool.false_eq_true, if_false]

theorem RawSequence.last_next {q q' : RawSequence} {c : RawSystemContent} (h : q.next c = .ok q') :
    q'.previous = some (rawFrameKey c) ∧ q'.activeInvocation = c.invocation := by
  by_cases hreset : (q.previous.isNone || c.invocation != q.activeInvocation) = true
  · simp only [RawSequence.next, if_pos hreset] at h
    split_ifs at h
    cases h
    exact ⟨rfl, rfl⟩
  · simp only [RawSequence.next, if_neg hreset] at h
    split_ifs at h
    cases h
    have hsame : c.invocation = q.activeInvocation := by
      rw [Bool.or_eq_true, not_or] at hreset
      simpa using hreset.2
    exact ⟨rfl, hsame.symm⟩

theorem RawSequence.last_foldlM {cs : List RawSystemContent} :
    ∀ {q q' : RawSequence}, cs.foldlM RawSequence.next q = .ok q' →
      (q' = q ∨ ∃ c ∈ cs, q'.previous = some (rawFrameKey c) ∧
        q'.activeInvocation = c.invocation) := by
  induction cs with
  | nil =>
    intro q q' h
    cases h
    exact Or.inl rfl
  | cons c cs ih =>
    intro q q' h
    rw [foldlM_cons, bind_eq_ok] at h
    obtain ⟨q₁, hnext, hrest⟩ := h
    right
    rcases ih hrest with rfl | ⟨c', hc', hlast⟩
    · exact ⟨c, mem_cons_self, RawSequence.last_next hnext⟩
    · exact ⟨c', mem_cons_of_mem c hc', hlast⟩

theorem validateRawFrameSequence_append {cs₁ cs₂ : List RawSystemContent}
    (h₁ : validateRawFrameSequence cs₁ = .ok ()) (h₂ : validateRawFrameSequence cs₂ = .ok ())
    (hbefore : ∀ c₁ ∈ cs₁, ∀ c₂ ∈ cs₂, InvocationBefore c₁.invocation c₂.invocation) :
    validateRawFrameSequence (cs₁ ++ cs₂) = .ok () := by
  obtain ⟨q₁, hfold₁, -⟩ := bind_eq_ok.mp h₁
  obtain ⟨q₂, hfold₂, -⟩ := bind_eq_ok.mp h₂
  rw [validateRawFrameSequence, foldlM_append, hfold₁]
  cases cs₂ with
  | nil => rfl
  | cons c₂ cs₂ =>
    have hfirst : q₁.next c₂ = RawSequence.next ⟨none, default, 0, []⟩ c₂ := by
      rcases RawSequence.last_foldlM hfold₁ with rfl | ⟨c₁, hc₁, hkey, hactive⟩
      · rfl
      · have hb := hbefore c₁ hc₁ c₂ mem_cons_self
        refine RawSequence.next_eq_first ?_ (Or.inr (hactive ▸ hb.ne))
        intro key hsome
        rw [hkey] at hsome
        cases hsome
        exact lexLess_append _ _ hb
    rw [foldlM_cons] at hfold₂
    have hfold : (c₂ :: cs₂).foldlM RawSequence.next q₁ = .ok q₂ := by
      rw [foldlM_cons, hfirst]
      exact hfold₂
    show ((c₂ :: cs₂).foldlM RawSequence.next q₁ >>= fun _ => pure ()) = .ok ()
    rw [hfold]
    rfl

end Raw

/-! ### Proposal files -/

theorem validateProposalFrameSequence_append {cs₁ cs₂ : List ProposalContent}
    (h₁ : validateProposalFrameSequence cs₁ = .ok ())
    (h₂ : validateProposalFrameSequence cs₂ = .ok ())
    (hbefore : ∀ c₁ ∈ cs₁, ∀ c₂ ∈ cs₂, InvocationBefore c₁.invocation c₂.invocation) :
    validateProposalFrameSequence (cs₁ ++ cs₂) = .ok () := by
  induction cs₁ with
  | nil => exact h₂
  | cons c₁ cs₁ ih =>
    have hrest := fun c hc => hbefore c (mem_cons_of_mem c₁ hc)
    cases cs₁ with
    | nil =>
      cases cs₂ with
      | nil => rfl
      | cons c₂ cs₂ =>
        have hless := lexLess_append [(proposalRoleValue c₁.role).toUInt64]
          [(proposalRoleValue c₂.role).toUInt64]
          (hbefore c₁ mem_cons_self c₂ mem_cons_self)
        simp only [singleton_append, validateProposalFrameSequence]
        rw [if_neg (by simp [proposalFrameKey, hless])]
        exact h₂
    | cons c cs₁ =>
      simp only [cons_append, validateProposalFrameSequence] at h₁ ih ⊢
      split_ifs at h₁ with hless
      rw [if_neg hless]
      exact ih h₁ hrest

end Bravo.Trace
