import Bravo.Trace.SnapshotCodec

/-! # State files

`CP2StateTraceCodec`: the framed file of the snapshots of each invocation. What is encoded and
decoded comes back normalised; what is decoded encodes to the same bytes.
-/

namespace Bravo.Trace

open List

structure StateContent where
  invocation : CP2InvocationTraceIdentity
  phase : CP2StatePhase
  snapshot : CP2CompositeStateSnapshot
deriving DecidableEq, Repr

abbrev CP2StateTraceFrame := TraceFrame StateContent

structure StateFrameTag where
  invocation : CP2InvocationTraceIdentity
  phase : CP2StatePhase
  snapshotPhase : CP2StatePhase
deriving DecidableEq

def StateContent.tag (c : StateContent) : StateFrameTag := ⟨c.invocation, c.phase, c.snapshot.phase⟩

def stateFrameKey (t : StateFrameTag) : List UInt64 :=
  invocationKey t.invocation ++ [(phaseValue t.phase).toUInt64]

/-- The first loop of `validate_state_frame_sequence`: phases and order. -/
def checkStateOrder : Option (List UInt64) → List StateFrameTag → Except String Unit
  | _, [] => .ok ()
  | previous, t :: ts =>
    if t.phase ≠ t.snapshotPhase then .error "state frame phase does not match snapshot phase"
    else if previous.any fun previous => !lexLess previous (stateFrameKey t) then
      .error "state frames are not in strict lexicographic order"
    else checkStateOrder (some (stateFrameKey t)) ts

/-- The phases of one invocation are `[0, 1]` or `[0, 1, 2, 3]`. -/
def checkPhasePopulation (group : List StateFrameTag) : Except String Unit :=
  if group.length ≠ 2 ∧ group.length ≠ 4 then
    .error "state invocation has an illegal phase population"
  else if group.zipIdx.any fun p => (phaseValue p.1.phase).toNat != p.2 then
    .error "state invocation phases are not exactly [0,1] or [0,1,2,3]"
  else .ok ()

/-- The second loop: one invocation after the other. A group has a frame, so the number of frames
bounds the number of iterations. -/
def checkStateGroups : Nat → List StateFrameTag → Except String Unit
  | _, [] => .ok ()
  | 0, _ => .error "no progress"
  | fuel + 1, t :: ts => do
    checkPhasePopulation (t :: ts.takeWhile (·.invocation == t.invocation))
    checkStateGroups fuel (ts.dropWhile (·.invocation == t.invocation))

def validateStateFrameSequence (cs : List StateContent) : Except String Unit := do
  checkStateOrder none (cs.map StateContent.tag)
  checkStateGroups cs.length (cs.map StateContent.tag)

/-- `SchurVIO-CP2-state-file-v1`, padded to 32 bytes. -/
def stateFileMagic : List UInt8 := utf8 "SchurVIO-CP2-state-file-v1\n" ++ List.replicate 5 0

def readStateFrameHeader : Reader (CP2StatePhase × CP2InvocationTraceIdentity) := do
  let value ← readU8 "state frame phase"
  let phase ← Reader.lift (parsePhase value)
  expectBytes reservedBytes "state frame reserved bytes"
  let invocation ← readInvocation "state"
  return (phase, invocation)

def stateFile : FrameFile StateContent (CP2StatePhase × CP2InvocationTraceIdentity) where
  name := "state"
  longName := "state"
  magic := stateFileMagic
  header c := (c.phase, c.invocation)
  appendHeader h := [phaseValue h.1] ++ reservedBytes ++ appendInvocation h.2
  readHeader := readStateFrameHeader
  encodePayload c := encodeSnapshotPayload c.snapshot
  decodePayload limits h payload spent := do
    let (snapshot, spent) ← decodeSnapshotPayload limits payload h.1 spent
    return (⟨h.2, h.1, snapshot⟩, spent)
  validate := validateStateFrameSequence

/-- `EncodeStateFile`. The references the frames carry are not looked at. -/
def encodeStateFile (frames : List CP2StateTraceFrame) : Except String EncodedFile :=
  encodeFile stateFile (frames.map (·.content))

def decodeStateFile (file : List UInt8) (limits : CP2TraceDecodeLimits) :
    Except String (List CP2StateTraceFrame) :=
  decodeFile stateFile limits file

/-! ## Round trips -/

theorem parsePhase_eq_ok {value : UInt8} {phase : CP2StatePhase} :
    parsePhase value = .ok phase ↔ value = phaseValue phase := by
  unfold parsePhase
  constructor
  · intro h
    split_ifs at h with h₀ h₁ h₂ h₃
    all_goals
      cases h
      assumption
  · rintro rfl
    cases phase <;> rfl

theorem readPhase_reads {L : Nat} :
    Reads L (readU8 "state frame phase" >>= fun value => Reader.lift (parsePhase value))
      (fun _ => True) ⟨fun phase => [phaseValue phase], fun _ => 0, fun _ => True⟩ := by
  intro s hs phase s'
  have hbyte := readU8_reads (L := L) "state frame phase" s hs
  simp only [Reader.run_bind_eq_ok, hbyte, Reader.run_lift_eq_ok, parsePhase_eq_ok]
  constructor
  · rintro ⟨value, s₁, ⟨-, -, hcons, hspent⟩, rfl, rfl⟩
    exact ⟨trivial, trivial, hcons, hspent⟩
  · rintro ⟨-, -, hcons, hspent⟩
    exact ⟨phaseValue phase, s', ⟨trivial, trivial, hcons, hspent⟩, rfl, rfl⟩

theorem readStateFrameHeader_reads {L : Nat} :
    Reads L readStateFrameHeader (fun _ => True)
      ⟨stateFile.appendHeader, fun _ => 0, fun _ => True⟩ := by
  have hassoc : readStateFrameHeader = (do
      let phase ← readU8 "state frame phase" >>= fun value => Reader.lift (parsePhase value)
      expectBytes reservedBytes "state frame reserved bytes"
      let invocation ← readInvocation "state"
      return (phase, invocation)) := by
    simp [readStateFrameHeader, bind_assoc]
  rw [hassoc]
  refine Reads.congr
    (Reads.bind Prod.fst readPhase_reads fun _ =>
      Reads.bind (fun _ => ()) (expectBytes_reads _ _) fun _ =>
      Reads.bind Prod.snd (readInvocation_reads _) fun _ => Reads.pure ?_) ?_ ?_ ?_
  · rintro ⟨⟩
    simp
  · intro h _
    simp [stateFile]
  · intro h _
    simp
  · intro h _
    simp

/-- What the decoder of state files asks of a frame: nothing that is not written, and the limits. -/
def stateSpec (limits : CP2TraceDecodeLimits) : FrameSpec stateFile limits where
  cost c := snapshotCoefficients c.snapshot
  fits c := c.phase = c.snapshot.phase ∧ c.snapshot.normalise = c.snapshot ∧
    SnapshotFits limits c.snapshot
  header_reads := readStateFrameHeader_reads
  decode_iff := by
    intro h payload spent spent' c hs
    simp only [stateFile, bind_eq_ok, Prod.exists, decodeSnapshotPayload_eq_ok limits hs]
    constructor
    · rintro ⟨snapshot, spent₁, ⟨⟨hphase, henc⟩, ⟨hfits, hlen⟩, hcost, hle⟩, hret⟩
      cases hret
      exact ⟨⟨rfl, henc⟩, ⟨⟨hphase.symm, hfits⟩, hlen⟩, hcost, hle⟩
    · rintro ⟨⟨rfl, henc⟩, ⟨⟨hphase, hfits⟩, hlen⟩, hcost, hle⟩
      exact ⟨c.snapshot, spent', ⟨⟨hphase.symm, henc⟩, ⟨hfits, hlen⟩, hcost, hle⟩, rfl⟩

def StateContent.normalise (c : StateContent) : StateContent :=
  { c with snapshot := c.snapshot.normalise }

structure StateFileWithin (limits : CP2TraceDecodeLimits) (cs : List StateContent)
    (bytes : List UInt8) : Prop where
  file : bytes.length ≤ limits.maximumFileBytes.toNat
  frames : cs.length ≤ limits.maximumFrames.toNat
  snapshots : ∀ c ∈ cs, SnapshotFits limits c.snapshot
  payloads : ∀ c ∈ cs, PayloadWithin stateFile limits c
  coefficients : (cs.map fun c => snapshotCoefficients c.snapshot).sum ≤
    limits.maximumTotalMatrixCoefficients.toNat

theorem phase_eq_of_checkStateOrder :
    ∀ {ts : List StateFrameTag} {previous : Option (List UInt64)},
      checkStateOrder previous ts = .ok () → ∀ t ∈ ts, t.phase = t.snapshotPhase := by
  intro ts
  induction ts with
  | nil =>
    intro previous _ t ht
    cases ht
  | cons t ts ih =>
    intro previous h t' ht'
    simp only [checkStateOrder] at h
    split_ifs at h with hphase hless
    rcases mem_cons.mp ht' with rfl | ht'
    · exact not_not.mp hphase
    · exact ih h t' ht'

theorem phase_eq_of_validate {cs : List StateContent}
    (h : validateStateFrameSequence cs = .ok ()) : ∀ c ∈ cs, c.phase = c.snapshot.phase := by
  obtain ⟨_, horder, -⟩ := bind_eq_ok.mp h
  intro c hc
  exact phase_eq_of_checkStateOrder horder c.tag (mem_map_of_mem hc)

theorem validateStateFrameSequence_normalise (cs : List StateContent) :
    validateStateFrameSequence (cs.map StateContent.normalise) = validateStateFrameSequence cs := by
  have htag : (cs.map StateContent.normalise).map StateContent.tag = cs.map StateContent.tag := by
    rw [List.map_map]
    rfl
  rw [validateStateFrameSequence, htag, length_map]
  rfl

theorem encodeStateFile_normalise {cs : List StateContent} {file : EncodedFile}
    (h : encodeFile stateFile cs = .ok file) :
    encodeFile stateFile (cs.map StateContent.normalise) = .ok file := by
  obtain ⟨hval, hframes⟩ := encodeFile_eq_ok.mp h
  refine encodeFile_eq_ok.mpr
    ⟨?_, encodeFrames_map (g := StateContent.normalise) (fun _ => rfl) ?_ hframes⟩
  · show validateStateFrameSequence _ = _
    rw [validateStateFrameSequence_normalise]
    exact hval
  · intro c payload hc
    exact encodeSnapshotPayload_normalise_eq_ok.mpr hc

theorem fileFits_normalise {limits : CP2TraceDecodeLimits} {cs : List StateContent}
    {bytes : List UInt8} (hval : validateStateFrameSequence cs = .ok ())
    (h : StateFileWithin limits cs bytes) :
    FileFits (stateSpec limits) (cs.map StateContent.normalise) bytes where
  file := h.file
  frames := by
    rw [length_map]
    exact h.frames
  fits := by
    intro c' hc'
    obtain ⟨c, hc, rfl⟩ := mem_map.mp hc'
    refine ⟨⟨phase_eq_of_validate hval c hc, c.snapshot.normalise_idem,
      snapshotFits_normalise limits (h.snapshots c hc)⟩, ?_⟩
    intro payload hpayload
    exact h.payloads c hc payload (encodeSnapshotPayload_normalise_eq_ok.mp hpayload)
  coefficients := by
    have hcost : (cs.map StateContent.normalise).map (stateSpec limits).cost =
        cs.map fun c => snapshotCoefficients c.snapshot := by
      rw [List.map_map]
      apply map_congr_left
      intro c _
      exact snapshotCoefficients_normalise c.snapshot
    rw [hcost]
    exact h.coefficients

/-- **State files are exact encodings.** Frames within the limits come back normalised with the
reported references, and whatever the decoder accepts is the encoding of what it returns. -/
theorem stateFile_exact (limits : CP2TraceDecodeLimits) :
    (∀ frames file, encodeStateFile frames = .ok file →
      StateFileWithin limits (frames.map (·.content)) file.bytes →
      ∃ decoded, decodeStateFile file.bytes limits = .ok decoded ∧
        decoded.map (·.content) = frames.map (·.content.normalise) ∧
        decoded.map (·.payload) = file.payloads) ∧
    ∀ bytes decoded, decodeStateFile bytes limits = .ok decoded →
      encodeStateFile decoded = .ok ⟨bytes, decoded.map (·.payload)⟩ := by
  constructor
  · intro frames file henc hwithin
    have hval : validateStateFrameSequence (frames.map (·.content)) = .ok () :=
      (encodeFile_eq_ok.mp henc).1
    obtain ⟨decoded, hdec, hcontent, hpayload⟩ := decodeFile_encodeFile (stateSpec limits)
      (encodeStateFile_normalise henc) (fileFits_normalise hval hwithin)
    refine ⟨decoded, hdec, ?_, hpayload⟩
    rw [hcontent, List.map_map]
    rfl
  · intro bytes decoded hdec
    exact ((decodeFile_eq_ok_iff (stateSpec limits)).mp hdec).1

/-- A state of one clone and one landmark; its IMU block carries a landmark that is not written. -/
def sampleSnapshot (phase : CP2StatePhase) : CP2CompositeStateSnapshot where
  phase := phase
  timestamp := ⟨0x3ff0000000000000⟩
  covariance := ⟨1, 1, [⟨0x3ff0000000000000⟩], rfl, one_lt_indexLimit, one_lt_indexLimit⟩
  semanticBlocks := [⟨.kImuTheta, 0, 3, ⟨1⟩, ⟨9, .kUnknown, 4, ⟨5⟩⟩⟩,
    ⟨.kCloneTheta, 3, 3, ⟨0x3ff0000000000000⟩, {}⟩,
    ⟨.kSlamLandmark, 6, 3, ⟨0⟩, ⟨7, .kGlobal3D, -1, ⟨0⟩⟩⟩]
  activeTypes := [⟨.kImu, 0, 3, ⟨2⟩, {}, .empty, .empty⟩]
  fixedImuCalibrations := [⟨.kDw, .empty, .empty⟩]
  timeOffsetNominal := .empty
  timeOffsetFej := .empty
  cameraCalibrations := [⟨0, .empty, .empty, .empty, .empty⟩]
  cameraCaches := [⟨0, 640, 480, .empty, .empty, .empty⟩]

def sampleStateFrames : List CP2StateTraceFrame :=
  [⟨⟨⟨0, 1, 2⟩, .kPhase0Prior, sampleSnapshot .kPhase0Prior⟩, default⟩,
    ⟨⟨⟨0, 1, 2⟩, .kPhase1Precommit, sampleSnapshot .kPhase1Precommit⟩, default⟩]

/-- The sample is encoded and comes back normalised. -/
theorem stateFile_exact_sample :
    ∃ file, encodeStateFile sampleStateFrames = .ok file ∧
      ∃ decoded, decodeStateFile file.bytes {} = .ok decoded ∧
        decoded.map (·.content) = sampleStateFrames.map (·.content.normalise) ∧
        encodeStateFile decoded = .ok ⟨file.bytes, decoded.map (·.payload)⟩ := by
  obtain ⟨hdecode, hencode⟩ := stateFile_exact {}
  have hsize : (encodeStateFile sampleStateFrames).toOption.map (·.bytes.length) = some 1214 := by
    decide +kernel
  obtain ⟨file, henc, hlen⟩ := exists_ok_of_length hsize
  have hwithin : StateFileWithin {} (sampleStateFrames.map (·.content)) file.bytes := by
    refine ⟨by rw [hlen]; decide, by decide, ?_,
      payloadWithin_of_encodeFile henc (by rw [hlen]; decide), by decide⟩
    intro c hc
    have hsnapshot : ∃ phase, c.snapshot = sampleSnapshot phase := by
      simp only [sampleStateFrames, map_cons, map_nil, mem_cons, not_mem_nil,
        or_false] at hc
      rcases hc with rfl | rfl
      · exact ⟨_, rfl⟩
      · exact ⟨_, rfl⟩
    obtain ⟨phase, hphase⟩ := hsnapshot
    rw [hphase]
    constructor
    all_goals simp [sampleSnapshot, MatrixWithin, MatrixXd.empty]
  obtain ⟨decoded, hdec, hcontent, -⟩ := hdecode _ file henc hwithin
  exact ⟨file, henc, decoded, hdec, hcontent, hencode _ _ hdec⟩

end Bravo.Trace
