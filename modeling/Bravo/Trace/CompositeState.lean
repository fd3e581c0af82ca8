import Bravo.Basic.PrefixCode
import Bravo.Trace.SnapshotCodec

/-! # Equality of composite states

`CP2CompositeStateAdapter`'s `Validate` and `CanonicallyEqual`, and when two snapshots have one payload:
`payload` forgets the phase and the fields that their entry does not write, and the canonical bytes of a
domain determine it (`encodeSnapshotPayload_eq_iff`).
-/

namespace Bravo.Trace

/-! ## What the bytes of a snapshot determine -/

theorem separates_appendU64 : Separates (fun _ => True) appendU64 id := separates_bigEndian

theorem separates_appendI64 : Separates (fun _ => True) appendI64 id :=
  (separates_appendU64.part Int64.toUInt64).rekey fun a b _ _ heq => by
    have := congrArg UInt64.toInt64 heq
    simpa using this

theorem separates_appendBinary64 : Separates (fun _ => True) appendBinary64 id :=
  (separates_appendU64.part Binary64.bits).rekey fun ⟨_⟩ ⟨_⟩ _ _ heq => congrArg Binary64.mk heq

theorem separates_dimension {dimension : MatrixXd → Nat} (h : ∀ M, dimension M < indexLimit) :
    Separates (fun _ => True) (fun M => appendU64 (UInt64.ofNat (dimension M))) dimension :=
  (separates_appendU64.part fun M => UInt64.ofNat (dimension M)).rekey fun a b _ _ heq => by
    have := congrArg UInt64.toNat heq
    have ha : dimension a < 2 ^ 63 := h a
    have hb : dimension b < 2 ^ 63 := h b
    rwa [id, id, UInt64.toNat_ofNat', UInt64.toNat_ofNat', Nat.mod_eq_of_lt (by omega),
      Nat.mod_eq_of_lt (by omega)] at this

theorem separates_appendMatrix : Separates (fun _ => True) appendMatrix id := by
  have hcoeffs : ∀ k : Nat × Nat, Separates (fun M : MatrixXd => True ∧ (M.rows, M.cols) = k)
      (fun M => M.coeffs.flatMap appendBinary64) MatrixXd.coeffs := by
    rintro ⟨rows, cols⟩
    refine ((separates_appendBinary64.flatMap (rows * cols)).part MatrixXd.coeffs).mono ?_ |>.rekey ?_
    · rintro M ⟨-, hshape⟩
      cases hshape
      exact ⟨M.length_eq, fun _ _ => trivial⟩
    · intro M N _ _ heq
      simpa using heq
  refine ((separates_dimension MatrixXd.rows_lt).seq (separates_dimension MatrixXd.cols_lt)
    |>.append hcoeffs).rekey fun M N _ _ heq => ?_
  cases M
  cases N
  cases heq
  rfl

theorem separates_appendUtf8 : Separates (fun value => value.length < 2 ^ 64) appendUtf8 id :=
  (separates_count.append fun n => .of_length (n := n) (fun _ ha => ha.2) fun _ _ _ _ heq => heq).rekey
    fun _ _ _ _ heq => congrArg Prod.snd heq

section Enum

variable {κ : Type} [DecidableEq κ] {spellings : List (κ × List UInt8)}

theorem separates_spelling (hspelled : Spelled spellings) :
    Separates (fun k => (spellings.lookup k).isSome) (fun k => appendUtf8 (spelling spellings k)) id := by
  have hlookup : ∀ k, (spellings.lookup k).isSome → spellings.lookup k = some (spelling spellings k) := by
    intro k hk
    obtain ⟨v, hv⟩ := Option.isSome_iff_exists.mp hk
    rw [spelling, hv, Option.getD_some]
  refine (separates_appendUtf8.part (spelling spellings)).mono (fun k hk => ?_) |>.rekey
    fun k k' hk hk' heq => ?_
  · have hshort : (spelling spellings k).length ≤ 29 :=
      (hspelled _ (mem_of_lookup_eq_some (hlookup k hk))).2.2.2
    show (spelling spellings k).length < 2 ^ 64
    omega
  · have hparse : parseEnum spellings _ "" = .ok k := (parseEnum_eq_ok hspelled).mpr (hlookup k hk)
    have hparse' : parseEnum spellings _ "" = .ok k' := (parseEnum_eq_ok hspelled).mpr (hlookup k' hk')
    rw [show spelling spellings k = spelling spellings k' from heq, hparse'] at hparse
    exact (Except.ok.inj hparse).symm

end Enum

theorem separates_landmark :
    Separates (fun i : CP2LandmarkIdentity => i.representation ≠ .kUnknown) landmarkFormat.bytes id := by
  have hrepresentation := ((separates_spelling spelled_landmarkRepresentationStrings).part
    CP2LandmarkIdentity.representation).mono fun i hi => (isSome_landmarkRepresentation _).mpr hi
  refine ((separates_appendU64.total CP2LandmarkIdentity.featureId).seq
    hrepresentation |>.seq (separates_appendI64.total CP2LandmarkIdentity.anchorCameraId)
    |>.seq (separates_appendBinary64.total CP2LandmarkIdentity.anchorTimestamp)).rekey fun i j _ _ heq => ?_
  cases i
  cases j
  cases heq
  rfl

theorem separates_identity (isClone isLandmark : Bool) :
    Separates (IdentityEncodable isClone isLandmark) (identityFormat isClone isLandmark).bytes
      (normaliseIdentity isClone isLandmark) := by
  cases isClone with
  | true =>
    exact separates_appendBinary64.total Prod.fst |>.rekey
      fun p q _ _ heq => Prod.ext heq rfl
  | false =>
    cases isLandmark with
    | true =>
      exact (separates_landmark.part Prod.snd).mono (fun _ hp => hp rfl rfl) |>.rekey
        fun p q _ _ heq => Prod.ext rfl heq
    | false => exact (Separates.const []).rekey fun _ _ _ _ _ => rfl

theorem separates_identity_behind {α κ : Type} {D : α → Prop} {key : α → κ} (isClone isLandmark : α → Bool)
    (isCloneOf isLandmarkOf : κ → Bool) (identity : α → Binary64 × CP2LandmarkIdentity)
    (hclone : ∀ a, isClone a = isCloneOf (key a)) (hlandmark : ∀ a, isLandmark a = isLandmarkOf (key a))
    (hD : ∀ a, D a → IdentityEncodable (isClone a) (isLandmark a) (identity a)) (k : κ) :
    Separates (fun a => D a ∧ key a = k) (fun a => (identityFormat (isClone a) (isLandmark a)).bytes (identity a))
      (fun a => normaliseIdentity (isClone a) (isLandmark a) (identity a)) := by
  refine ((separates_identity (isCloneOf k) (isLandmarkOf k)).part identity).mono ?_ |>.congr ?_ |>.rekey ?_
  · rintro a ⟨ha, rfl⟩
    rw [← hclone, ← hlandmark]
    exact hD a ha
  · rintro a ⟨-, rfl⟩
    rw [← hclone, ← hlandmark]
  · rintro a b ⟨-, rfl⟩ ⟨-, hb⟩ heq
    rw [hclone, hlandmark, hclone b, hlandmark b, hb]
    exact heq

theorem separates_semanticBlock :
    Separates CP2SemanticStateBlock.Encodable semanticBlockFormat.bytes CP2SemanticStateBlock.normalise := by
  have hkind := ((separates_spelling spelled_semanticKindStrings).part CP2SemanticStateBlock.kind).mono
    fun b (_ : b.Encodable) => isSome_semanticKind b.kind
  refine (hkind.seq (separates_appendU64.total CP2SemanticStateBlock.covarianceId)
    |>.seq (separates_appendU64.total CP2SemanticStateBlock.errorSize)
    |>.append (separates_identity_behind (fun b : CP2SemanticStateBlock => b.kind.isClone) (fun b => b.kind.isLandmark)
      (fun k => k.1.1.isClone) (fun k => k.1.1.isLandmark) CP2SemanticStateBlock.identity
      (fun _ => rfl) (fun _ => rfl) fun _ hb => hb)).rekey fun b c _ _ heq => ?_
  simp only [Prod.mk.injEq, id] at heq
  obtain ⟨⟨⟨hkind, hid⟩, hsize⟩, hidentity⟩ := heq
  rw [CP2SemanticStateBlock.normalise, CP2SemanticStateBlock.normalise]
  rw [hidentity, hkind, hid, hsize]

variable (limits : CP2TraceDecodeLimits)

theorem separates_activeType :
    Separates CP2ActiveStateType.Encodable (activeTypeFormat limits).bytes CP2ActiveStateType.normalise := by
  have htag := ((separates_spelling spelled_activeTypeTagStrings).part CP2ActiveStateType.tag).mono
    fun t (_ : t.Encodable) => isSome_activeTypeTag t.tag
  refine (htag.seq (separates_appendU64.total CP2ActiveStateType.covarianceId)
    |>.seq (separates_appendU64.total CP2ActiveStateType.errorSize)
    |>.append (separates_identity_behind (fun t : CP2ActiveStateType => t.tag.isClone) (fun t => t.tag.isLandmark)
      (fun k => k.1.1.isClone) (fun k => k.1.1.isLandmark) CP2ActiveStateType.identity
      (fun _ => rfl) (fun _ => rfl) fun _ ht => ht)
    |>.seq (separates_appendMatrix.total CP2ActiveStateType.nominal)
    |>.seq (separates_appendMatrix.total CP2ActiveStateType.fej)).rekey
      fun t u _ _ heq => ?_
  simp only [Prod.mk.injEq, id] at heq
  obtain ⟨⟨⟨⟨⟨htag, hid⟩, hsize⟩, hidentity⟩, hnominal⟩, hfej⟩ := heq
  rw [CP2ActiveStateType.normalise, CP2ActiveStateType.normalise]
  rw [hidentity, htag, hid, hsize, hnominal, hfej]

theorem separates_fixedImuCalibration :
    Separates (fun _ => True) (fixedImuCalibrationFormat limits).bytes id := by
  have htag := ((separates_spelling spelled_fixedImuTagStrings).part CP2FixedImuCalibration.tag).mono
    fun c (_ : True) => isSome_fixedImuTag c.tag
  refine (htag.seq (separates_appendMatrix.part CP2FixedImuCalibration.nominal)
    |>.seq (separates_appendMatrix.part CP2FixedImuCalibration.fej)).rekey fun c d _ _ heq => ?_
  cases c
  cases d
  cases heq
  rfl

theorem separates_cameraCalibration :
    Separates (fun _ => True) (cameraCalibrationFormat limits).bytes id := by
  refine ((separates_appendU64.part CP2CameraFixedCalibration.cameraId)
    |>.seq (separates_appendMatrix.part CP2CameraFixedCalibration.extrinsicNominal)
    |>.seq (separates_appendMatrix.part CP2CameraFixedCalibration.extrinsicFej)
    |>.seq (separates_appendMatrix.part CP2CameraFixedCalibration.intrinsicNominal)
    |>.seq (separates_appendMatrix.part CP2CameraFixedCalibration.intrinsicFej)).rekey fun c d _ _ heq => ?_
  cases c
  cases d
  cases heq
  rfl

theorem separates_cameraCache : Separates (fun _ => True) (cameraCacheFormat limits).bytes id := by
  refine ((separates_appendU64.part CP2CameraModelCache.cameraId)
    |>.seq (Separates.const (appendUtf8 cameraModelTag))
    |>.seq (separates_appendI64.part CP2CameraModelCache.width)
    |>.seq (separates_appendI64.part CP2CameraModelCache.height)
    |>.seq (separates_appendMatrix.part CP2CameraModelCache.calibration)
    |>.seq (separates_appendMatrix.part CP2CameraModelCache.K)
    |>.seq (separates_appendMatrix.part CP2CameraModelCache.D)).rekey fun c d _ _ heq => ?_
  cases c
  cases d
  cases heq
  rfl

def CP2CompositeStateSnapshot.payload (s : CP2CompositeStateSnapshot) : CP2CompositeStateSnapshot :=
  { s.normalise with phase := .kPhase0Prior }

theorem separates_body :
    Separates CP2CompositeStateSnapshot.Encodable (fun s => appendBinary64 s.timestamp ++
      appendMatrix s.covariance ++ (listFormat limits semanticBlockFormat).bytes s.semanticBlocks ++
      (listFormat limits (activeTypeFormat limits)).bytes s.activeTypes ++
      (listFormat limits (fixedImuCalibrationFormat limits)).bytes s.fixedImuCalibrations ++
      appendMatrix s.timeOffsetNominal ++ appendMatrix s.timeOffsetFej ++
      (listFormat limits (cameraCalibrationFormat limits)).bytes s.cameraCalibrations ++
      (listFormat limits (cameraCacheFormat limits)).bytes s.cameraCaches)
      CP2CompositeStateSnapshot.payload := by
  refine ((separates_appendBinary64.total CP2CompositeStateSnapshot.timestamp)
    |>.seq (separates_appendMatrix.total CP2CompositeStateSnapshot.covariance)
    |>.seq ((separates_semanticBlock.list.part CP2CompositeStateSnapshot.semanticBlocks).mono
      fun s hs => hs.semanticBlocks)
    |>.seq (((separates_activeType limits).list.part CP2CompositeStateSnapshot.activeTypes).mono
      fun s hs => hs.activeTypes)
    |>.seq (((separates_fixedImuCalibration limits).list.part
      CP2CompositeStateSnapshot.fixedImuCalibrations).mono fun s hs => ⟨hs.fixedImuCalibrations, fun _ _ => trivial⟩)
    |>.seq (separates_appendMatrix.total CP2CompositeStateSnapshot.timeOffsetNominal)
    |>.seq (separates_appendMatrix.total CP2CompositeStateSnapshot.timeOffsetFej)
    |>.seq (((separates_cameraCalibration limits).list.part
      CP2CompositeStateSnapshot.cameraCalibrations).mono fun s hs => ⟨hs.cameraCalibrations, fun _ _ => trivial⟩)
    |>.seq (((separates_cameraCache limits).list.part
      CP2CompositeStateSnapshot.cameraCaches).mono fun s hs => ⟨hs.cameraCaches, fun _ _ => trivial⟩)).rekey
      fun s t _ _ heq => ?_
  simp only [Prod.mk.injEq, id, List.map_id] at heq
  obtain ⟨⟨⟨⟨⟨⟨⟨⟨htime, hcov⟩, hsem⟩, hact⟩, hfix⟩, hoff⟩, hoff'⟩, hcam⟩, hcache⟩ := heq
  simp only [CP2CompositeStateSnapshot.payload, CP2CompositeStateSnapshot.normalise, htime, hcov, hsem, hact,
    hfix, hoff, hoff', hcam, hcache]

def samePayloadDomain (left right : CP2StatePhase) : Bool :=
  (isPriorPhase left && isPriorPhase right) || (!isPriorPhase left && !isPriorPhase right)

theorem samePayloadDomain_iff {left right : CP2StatePhase} :
    samePayloadDomain left right = true ↔ isPriorPhase left = isPriorPhase right := by
  rw [samePayloadDomain]
  cases isPriorPhase left <;> cases isPriorPhase right <;> decide

/-- **Within a domain, equal payload bytes are equal payloads.** -/
theorem snapshotBytes_eq_iff {a b : CP2CompositeStateSnapshot}
    (ha : a.Encodable) (hb : b.Encodable) (hdomain : samePayloadDomain a.phase b.phase = true) :
    snapshotBytes limits a = snapshotBytes limits b ↔ a.payload = b.payload := by
  have hprefix : appendDomain a.phase = appendDomain b.phase := by
    rw [appendDomain, appendDomain, samePayloadDomain_iff.mp hdomain]
  constructor
  · intro heq
    rw [snapshotBytes, snapshotBytes, hprefix] at heq
    exact (separates_body limits).key_eq ha hb (List.append_cancel_left heq)
  · intro heq
    -- the bytes are those of the normalised snapshots, whose bodies are equal
    rw [← snapshotBytes_normalise, ← snapshotBytes_normalise limits b]
    have hbody : ∀ s : CP2CompositeStateSnapshot, s.normalise = { s.payload with phase := s.phase } := fun _ => rfl
    rw [hbody a, hbody b, heq, snapshotBytes, snapshotBytes, hprefix]

theorem encodeSnapshotPayload_of_encodable {s : CP2CompositeStateSnapshot} (hs : s.Encodable) :
    encodeSnapshotPayload s = .ok (snapshotBytes {} s) :=
  (encodeSnapshotPayload_eq_ok {}).mpr ⟨hs, rfl⟩

theorem encodeSnapshotPayload_eq_iff {a b : CP2CompositeStateSnapshot} (ha : a.Encodable) (hb : b.Encodable)
    (hdomain : samePayloadDomain a.phase b.phase = true) :
    encodeSnapshotPayload a = encodeSnapshotPayload b ↔ a.payload = b.payload := by
  rw [encodeSnapshotPayload_of_encodable ha, encodeSnapshotPayload_of_encodable hb, Except.ok.injEq]
  exact snapshotBytes_eq_iff {} ha hb hdomain

/-! ## Canonical equality -/

def bitEqual (left right : Binary64) : Bool := left.bits == right.bits

def allEqual {α : Type} (equal : α → α → Bool) (left right : List α) : Bool :=
  (left.zip right).all fun p => equal p.1 p.2

def matrixShapeEqual (left right : MatrixXd) : Bool := left.rows == right.rows && left.cols == right.cols

def matrixBitEqual (left right : MatrixXd) : Bool :=
  matrixShapeEqual left right && allEqual bitEqual left.coeffs right.coeffs

def landmarkIdentityEqual (left right : CP2LandmarkIdentity) : Bool :=
  left.featureId == right.featureId && left.representation == right.representation &&
    left.anchorCameraId == right.anchorCameraId && bitEqual left.anchorTimestamp right.anchorTimestamp

/-- The last checks of `semantic_block_equal` and of `active_type_equal`: what identifies the entry. -/
def identityEqual (isClone isLandmark : Bool) (left right : Binary64 × CP2LandmarkIdentity) : Bool :=
  if isClone then bitEqual left.1 right.1
  else if isLandmark then landmarkIdentityEqual left.2 right.2
  else true

def semanticBlockEqual (left right : CP2SemanticStateBlock) : Bool :=
  left.kind == right.kind && left.covarianceId == right.covarianceId && left.errorSize == right.errorSize &&
    identityEqual left.kind.isClone left.kind.isLandmark left.identity right.identity

def activeTypeEqual (left right : CP2ActiveStateType) : Bool :=
  left.tag == right.tag && left.covarianceId == right.covarianceId && left.errorSize == right.errorSize &&
    matrixBitEqual left.nominal right.nominal && matrixBitEqual left.fej right.fej &&
    identityEqual left.tag.isClone left.tag.isLandmark left.identity right.identity

def fixedImuCalibrationEqual (left right : CP2FixedImuCalibration) : Bool :=
  left.tag == right.tag && matrixBitEqual left.nominal right.nominal && matrixBitEqual left.fej right.fej

def cameraCalibrationEqual (left right : CP2CameraFixedCalibration) : Bool :=
  left.cameraId == right.cameraId && matrixBitEqual left.extrinsicNominal right.extrinsicNominal &&
    matrixBitEqual left.extrinsicFej right.extrinsicFej &&
    matrixBitEqual left.intrinsicNominal right.intrinsicNominal &&
    matrixBitEqual left.intrinsicFej right.intrinsicFej

def cameraCacheEqual (left right : CP2CameraModelCache) : Bool :=
  left.cameraId == right.cameraId && left.width == right.width && left.height == right.height &&
    matrixBitEqual left.calibration right.calibration && matrixBitEqual left.K right.K &&
    matrixBitEqual left.D right.D

def canonicallyEqual (left right : CP2CompositeStateSnapshot) : Bool :=
  samePayloadDomain left.phase right.phase && bitEqual left.timestamp right.timestamp &&
    matrixBitEqual left.covariance right.covariance &&
    left.semanticBlocks.length == right.semanticBlocks.length &&
    left.activeTypes.length == right.activeTypes.length &&
    left.fixedImuCalibrations.length == right.fixedImuCalibrations.length &&
    matrixBitEqual left.timeOffsetNominal right.timeOffsetNominal &&
    matrixBitEqual left.timeOffsetFej right.timeOffsetFej &&
    left.cameraCalibrations.length == right.cameraCalibrations.length &&
    left.cameraCaches.length == right.cameraCaches.length &&
    allEqual semanticBlockEqual left.semanticBlocks right.semanticBlocks &&
    allEqual activeTypeEqual left.activeTypes right.activeTypes &&
    allEqual fixedImuCalibrationEqual left.fixedImuCalibrations right.fixedImuCalibrations &&
    allEqual cameraCalibrationEqual left.cameraCalibrations right.cameraCalibrations &&
    allEqual cameraCacheEqual left.cameraCaches right.cameraCaches

theorem bitEqual_iff {left right : Binary64} : bitEqual left right = true ↔ left = right := by
  cases left
  cases right
  simp [bitEqual]

theorem bitEqual_iff_id (left right : Binary64) : bitEqual left right = true ↔ id left = id right :=
  bitEqual_iff

theorem allEqual_iff {α κ : Type} {equal : α → α → Bool} {key : α → κ}
    (h : ∀ a b, equal a b = true ↔ key a = key b) {left right : List α} (hlength : left.length = right.length) :
    allEqual equal left right = true ↔ left.map key = right.map key := by
  induction left generalizing right with
  | nil =>
    rw [List.eq_nil_of_length_eq_zero hlength.symm]
    exact iff_of_true rfl rfl
  | cons a left ih =>
    match right, hlength with
    | b :: right, hlength =>
      have hrest := ih (Nat.succ.inj hlength)
      rw [allEqual, List.zip_cons_cons, List.all_cons, Bool.and_eq_true, ← allEqual, hrest, h,
        List.map_cons, List.map_cons, List.cons.injEq]

theorem allEqual_and {α : Type} (f g : α → α → Bool) (left right : List α) :
    allEqual (fun a b => f a b && g a b) left right = (allEqual f left right && allEqual g left right) := by
  rw [Bool.eq_iff_iff, Bool.and_eq_true]
  simp only [allEqual, List.all_eq_true, Bool.and_eq_true]
  exact forall₂_and

theorem matrixShapeEqual_iff {left right : MatrixXd} :
    matrixShapeEqual left right = true ↔ (left.rows, left.cols) = (right.rows, right.cols) := by
  simp [matrixShapeEqual]

theorem matrixBitEqual_iff {left right : MatrixXd} : matrixBitEqual left right = true ↔ left = right := by
  rw [matrixBitEqual, Bool.and_eq_true, matrixShapeEqual_iff]
  constructor
  · rintro ⟨hshape, hcoeffs⟩
    have hrows : left.rows = right.rows := congrArg Prod.fst hshape
    have hcols : left.cols = right.cols := congrArg Prod.snd hshape
    have hlength : left.coeffs.length = right.coeffs.length := by
      rw [left.length_eq, right.length_eq, hrows, hcols]
    have hcoeffs : left.coeffs = right.coeffs := by
      have := (allEqual_iff bitEqual_iff_id hlength).mp hcoeffs
      rwa [List.map_id, List.map_id] at this
    cases left
    cases right
    cases hrows
    cases hcols
    cases hcoeffs
    rfl
  · rintro rfl
    exact ⟨rfl, (allEqual_iff bitEqual_iff_id rfl).mpr rfl⟩

theorem landmarkIdentityEqual_iff {left right : CP2LandmarkIdentity} :
    landmarkIdentityEqual left right = true ↔ left = right := by
  cases left
  cases right
  simp [landmarkIdentityEqual, bitEqual_iff, and_assoc]

theorem identityEqual_iff {isClone isLandmark : Bool} {left right : Binary64 × CP2LandmarkIdentity} :
    identityEqual isClone isLandmark left right = true ↔
      normaliseIdentity isClone isLandmark left = normaliseIdentity isClone isLandmark right := by
  cases isClone with
  | true => simp [identityEqual, normaliseIdentity, bitEqual_iff]
  | false =>
    cases isLandmark with
    | true => simp [identityEqual, normaliseIdentity, landmarkIdentityEqual_iff]
    | false => simp [identityEqual, normaliseIdentity]

theorem semanticBlockEqual_iff (left right : CP2SemanticStateBlock) :
    semanticBlockEqual left right = true ↔ left.normalise = right.normalise := by
  obtain ⟨kind, id, size, time, landmark⟩ := left
  obtain ⟨kind', id', size', time', landmark'⟩ := right
  simp only [semanticBlockEqual, Bool.and_eq_true, beq_iff_eq, identityEqual_iff,
    CP2SemanticStateBlock.normalise, CP2SemanticStateBlock.mk.injEq, Prod.ext_iff]
  constructor
  · rintro ⟨⟨⟨rfl, rfl⟩, rfl⟩, htime, hlandmark⟩
    exact ⟨rfl, rfl, rfl, htime, hlandmark⟩
  · rintro ⟨rfl, rfl, rfl, htime, hlandmark⟩
    exact ⟨⟨⟨rfl, rfl⟩, rfl⟩, htime, hlandmark⟩

theorem activeTypeEqual_iff (left right : CP2ActiveStateType) :
    activeTypeEqual left right = true ↔ left.normalise = right.normalise := by
  obtain ⟨tag, id, size, time, landmark, nominal, fej⟩ := left
  obtain ⟨tag', id', size', time', landmark', nominal', fej'⟩ := right
  simp only [activeTypeEqual, Bool.and_eq_true, beq_iff_eq, identityEqual_iff, matrixBitEqual_iff,
    CP2ActiveStateType.normalise, CP2ActiveStateType.mk.injEq, Prod.ext_iff]
  constructor
  · rintro ⟨⟨⟨⟨⟨rfl, rfl⟩, rfl⟩, rfl⟩, rfl⟩, htime, hlandmark⟩
    exact ⟨rfl, rfl, rfl, htime, hlandmark, rfl, rfl⟩
  · rintro ⟨rfl, rfl, rfl, htime, hlandmark, rfl, rfl⟩
    exact ⟨⟨⟨⟨⟨rfl, rfl⟩, rfl⟩, rfl⟩, rfl⟩, htime, hlandmark⟩

theorem fixedImuCalibrationEqual_iff (left right : CP2FixedImuCalibration) :
    fixedImuCalibrationEqual left right = true ↔ left = right := by
  cases left
  cases right
  simp [fixedImuCalibrationEqual, matrixBitEqual_iff, and_assoc]

theorem cameraCalibrationEqual_iff (left right : CP2CameraFixedCalibration) :
    cameraCalibrationEqual left right = true ↔ left = right := by
  cases left
  cases right
  simp [cameraCalibrationEqual, matrixBitEqual_iff, and_assoc]

theorem cameraCacheEqual_iff (left right : CP2CameraModelCache) :
    cameraCacheEqual left right = true ↔ left = right := by
  cases left
  cases right
  simp [cameraCacheEqual, matrixBitEqual_iff, and_assoc]

theorem length_and_allEqual_iff {α κ : Type} {equal : α → α → Bool} {key : α → κ}
    (h : ∀ a b, equal a b = true ↔ key a = key b) (left right : List α) :
    left.length = right.length ∧ allEqual equal left right = true ↔ left.map key = right.map key := by
  constructor
  · rintro ⟨hlength, hloop⟩
    exact (allEqual_iff h hlength).mp hloop
  · intro hkeys
    have hlength : left.length = right.length := by simpa using congrArg List.length hkeys
    exact ⟨hlength, (allEqual_iff h hlength).mpr hkeys⟩

theorem payload_eq_iff (a b : CP2CompositeStateSnapshot) :
    a.payload = b.payload ↔
      a.timestamp = b.timestamp ∧ a.covariance = b.covariance ∧
      a.semanticBlocks.map CP2SemanticStateBlock.normalise = b.semanticBlocks.map CP2SemanticStateBlock.normalise ∧
      a.activeTypes.map CP2ActiveStateType.normalise = b.activeTypes.map CP2ActiveStateType.normalise ∧
      a.fixedImuCalibrations = b.fixedImuCalibrations ∧ a.timeOffsetNominal = b.timeOffsetNominal ∧
      a.timeOffsetFej = b.timeOffsetFej ∧ a.cameraCalibrations = b.cameraCalibrations ∧
      a.cameraCaches = b.cameraCaches := by
  cases a
  cases b
  simp [CP2CompositeStateSnapshot.payload, CP2CompositeStateSnapshot.normalise]

theorem length_and_allEqual_id {α : Type} {equal : α → α → Bool} (h : ∀ a b, equal a b = true ↔ a = b)
    (left right : List α) : left.length = right.length ∧ allEqual equal left right = true ↔ left = right := by
  have := length_and_allEqual_iff (fun a b => (h a b : equal a b = true ↔ id a = id b)) left right
  rwa [List.map_id', List.map_id'] at this

theorem canonicallyEqual_iff (a b : CP2CompositeStateSnapshot) :
    canonicallyEqual a b = true ↔ samePayloadDomain a.phase b.phase = true ∧ a.payload = b.payload := by
  rw [payload_eq_iff, ← length_and_allEqual_iff semanticBlockEqual_iff,
    ← length_and_allEqual_iff activeTypeEqual_iff, ← length_and_allEqual_id fixedImuCalibrationEqual_iff,
    ← length_and_allEqual_id cameraCalibrationEqual_iff, ← length_and_allEqual_id cameraCacheEqual_iff]
  simp only [canonicallyEqual, Bool.and_eq_true, beq_iff_eq, bitEqual_iff, matrixBitEqual_iff]
  constructor
  · rintro ⟨⟨⟨⟨⟨⟨⟨⟨⟨⟨⟨⟨⟨⟨hdomain, htime⟩, hcov⟩, nsem⟩, nact⟩, nfix⟩, hoff⟩, hoff'⟩, ncam⟩, ncache⟩, hsem⟩, hact⟩,
      hfix⟩, hcam⟩, hcache⟩
    exact ⟨hdomain, htime, hcov, ⟨nsem, hsem⟩, ⟨nact, hact⟩, ⟨nfix, hfix⟩, hoff, hoff', ⟨ncam, hcam⟩, ncache, hcache⟩
  · rintro ⟨hdomain, htime, hcov, ⟨nsem, hsem⟩, ⟨nact, hact⟩, ⟨nfix, hfix⟩, hoff, hoff', ⟨ncam, hcam⟩, ncache, hcache⟩
    exact ⟨⟨⟨⟨⟨⟨⟨⟨⟨⟨⟨⟨⟨⟨hdomain, htime⟩, hcov⟩, nsem⟩, nact⟩, nfix⟩, hoff⟩, hoff'⟩, ncam⟩, ncache⟩, hsem⟩, hact⟩,
      hfix⟩, hcam⟩, hcache⟩

/-! ## Validation -/

inductive CP2CompositeStateStatus
  | kAccepted
  | kNullState
  | kInvalidPhase
  | kIncompleteStructure
  | kInvalidPointerGraph
  | kInvalidActivePartition
  | kInvalidSemanticPartition
  | kInvalidIdentity
  | kInvalidShape
  | kNonfinite
  | kInvalidQuaternion
  | kInvalidProposal
  | kNotPrepared
deriving DecidableEq, Repr

/-- A check of `Validate`. -/
def requireThat (c : Bool) (status : CP2CompositeStateStatus) : Except CP2CompositeStateStatus Unit :=
  if c then .ok () else .error status

def MatrixXd.hasShape (M : MatrixXd) (rows cols : Nat) : Bool := M.rows == rows && M.cols == cols

structure ActivePartition where
  expectedOffset : UInt64 := 0
  imuCount : Nat := 0
  cloneCount : Nat := 0
  landmarkCount : Nat := 0
  previousClone : Option Binary64 := none
  prior : List CP2ActiveStateType := []

def CP2LandmarkRepresentation.isGlobal (representation : CP2LandmarkRepresentation) : Bool :=
  representation == .kGlobal3D || representation == .kGlobalFullInverseDepth

def CP2LandmarkRepresentation.isAnchored (representation : CP2LandmarkRepresentation) : Bool :=
  representation == .kAnchored3D || representation == .kAnchoredFullInverseDepth ||
    representation == .kAnchoredMsckfInverseDepth || representation == .kAnchoredInverseDepthSingle

def validateActiveTag (p : ActivePartition) (active : CP2ActiveStateType) :
    Except CP2CompositeStateStatus ActivePartition := do
  match active.tag with
  | .kImu =>
    requireThat (p.prior.isEmpty && active.covarianceId == 0 && active.errorSize == 15 &&
      active.nominal.rows == 16) .kInvalidActivePartition
    return { p with imuCount := p.imuCount + 1 }
  | .kClone =>
    requireThat (active.errorSize == 6 && active.nominal.rows == 7) .kInvalidShape
    requireThat active.cloneTimestamp.isFinite .kNonfinite
    requireThat (p.previousClone.all fun previous => decide (previous < active.cloneTimestamp)) .kInvalidIdentity
    return { p with cloneCount := p.cloneCount + 1, previousClone := some active.cloneTimestamp }
  | .kSlamLandmark =>
    let requiredSize := if active.landmark.representation = .kAnchoredInverseDepthSingle then 1 else 3
    requireThat (active.landmark.representation != .kUnknown) .kInvalidIdentity
    requireThat (active.errorSize.toNat == requiredSize && active.nominal.rows == requiredSize) .kInvalidShape
    requireThat (p.prior.all fun prior =>
      !(prior.tag == .kSlamLandmark && prior.landmark.featureId == active.landmark.featureId)) .kInvalidIdentity
    return { p with landmarkCount := p.landmarkCount + 1 }

def validateActiveTypes (covarianceDimension : Nat) (p : ActivePartition) :
    List CP2ActiveStateType → Except CP2CompositeStateStatus ActivePartition
  | [] => .ok p
  | active :: actives => do
    let updatedOffset := p.expectedOffset.toNat + active.errorSize.toNat
    requireThat (active.errorSize != 0 && active.covarianceId == p.expectedOffset &&
      decide (p.expectedOffset.toNat ≤ covarianceDimension) && decide (updatedOffset < 2 ^ 64) &&
      decide (updatedOffset ≤ covarianceDimension)) .kInvalidActivePartition
    requireThat (active.nominal.cols == 1 && active.fej.cols == 1 && active.nominal.rows == active.fej.rows)
      .kInvalidShape
    let p ← validateActiveTag { p with expectedOffset := UInt64.ofNat updatedOffset } active
    validateActiveTypes covarianceDimension { p with prior := p.prior ++ [active] } actives

def validateSemanticBlocks :
    List CP2ActiveStateType → List CP2SemanticStateBlock → Except CP2CompositeStateStatus Unit
  | [], blocks => requireThat blocks.isEmpty .kInvalidSemanticPartition
  | active :: actives, blocks =>
    match active.tag, blocks with
    | .kImu, blocks => validateSemanticBlocks actives blocks
    | .kClone, theta :: position :: blocks => do
      requireThat (theta.cloneTimestamp.isFinite && position.cloneTimestamp.isFinite) .kNonfinite
      requireThat (theta.kind == .kCloneTheta && position.kind == .kClonePosition &&
        theta.covarianceId == active.covarianceId && position.covarianceId == active.covarianceId + 3 &&
        theta.errorSize == 3 && position.errorSize == 3 &&
        bitEqual theta.cloneTimestamp active.cloneTimestamp &&
        bitEqual position.cloneTimestamp active.cloneTimestamp) .kInvalidSemanticPartition
      validateSemanticBlocks actives blocks
    | .kSlamLandmark, landmark :: blocks => do
      requireThat landmark.landmark.anchorTimestamp.isFinite .kNonfinite
      requireThat (landmark.kind == .kSlamLandmark && landmark.covarianceId == active.covarianceId &&
        landmark.errorSize == active.errorSize && landmarkIdentityEqual landmark.landmark active.landmark)
        .kInvalidSemanticPartition
      validateSemanticBlocks actives blocks
    | _, _ => .error .kInvalidSemanticPartition

/-- `imu_kinds` and the offsets that go with them. -/
def imuBlocks : List (CP2SemanticStateKind × UInt64) :=
  [(.kImuTheta, 0), (.kImuPosition, 3), (.kImuVelocity, 6), (.kImuGyroBias, 9), (.kImuAccelBias, 12)]

/-- `fixed_tags` and `fixed_rows` -/
def fixedImuShapes : List (CP2FixedImuCalibrationTag × Nat) :=
  [(.kDw, 6), (.kDa, 6), (.kTg, 9), (.kGyroToImu, 4), (.kAccelToImu, 4)]

def cameraShapes (index : Nat) (calibration : CP2CameraFixedCalibration) (cache : CP2CameraModelCache) : Bool :=
  calibration.cameraId == UInt64.ofNat index && cache.cameraId == calibration.cameraId &&
    calibration.extrinsicNominal.hasShape 7 1 && calibration.extrinsicFej.hasShape 7 1 &&
    calibration.intrinsicNominal.hasShape 8 1 && calibration.intrinsicFej.hasShape 8 1 &&
    decide (0 < cache.width) && decide (0 < cache.height) && cache.calibration.hasShape 8 1 &&
    cache.K.hasShape 3 3 && cache.D.hasShape 4 1

/-- The identity of a landmark against the clones and the cameras. -/
def validateAnchor (snapshot : CP2CompositeStateSnapshot) (identity : CP2LandmarkIdentity) :
    Except CP2CompositeStateStatus Unit := do
  requireThat identity.anchorTimestamp.isFinite .kNonfinite
  if identity.representation.isGlobal then
    requireThat (identity.anchorCameraId == -1 && identity.anchorTimestamp.bits == 0xbff0000000000000)
      .kInvalidIdentity
  else if identity.representation.isAnchored then
    requireThat (decide (0 ≤ identity.anchorCameraId) &&
      decide (identity.anchorCameraId.toUInt64.toNat < snapshot.cameraCalibrations.length)) .kInvalidIdentity
    requireThat ((snapshot.activeTypes.countP fun candidate =>
      candidate.tag == .kClone && bitEqual candidate.cloneTimestamp identity.anchorTimestamp) == 1) .kInvalidIdentity
  else
    .error .kInvalidIdentity

section Validate

-- The test of `is_unit_quaternion` on four coefficients: Eigen's squared norm is close to one.
variable (unitNorm : List Binary64 → Bool)

def isUnitQuaternion (matrix : MatrixXd) : Bool :=
  decide (4 ≤ matrix.rows) && matrix.cols == 1 && unitNorm (matrix.coeffs.take 4)

variable (snapshot : CP2CompositeStateSnapshot)

def validateActiveValues (active : CP2ActiveStateType) : Except CP2CompositeStateStatus Unit := do
  requireThat (active.nominal.allFinite && active.fej.allFinite) .kNonfinite
  if active.tag = .kSlamLandmark then validateAnchor snapshot active.landmark else return ()

/-- `Validate`, up to the status of an accepted snapshot. -/
def validateChecks : Except CP2CompositeStateStatus Unit := do
  requireThat (decide (0 < snapshot.covariance.rows) && snapshot.covariance.cols == snapshot.covariance.rows)
    .kInvalidShape
  requireThat (!snapshot.activeTypes.isEmpty) .kInvalidActivePartition
  let p ← validateActiveTypes snapshot.covariance.rows {} snapshot.activeTypes
  requireThat (p.expectedOffset.toNat == snapshot.covariance.rows && p.imuCount == 1) .kInvalidActivePartition
  requireThat (snapshot.semanticBlocks.length == 5 + 2 * p.cloneCount + p.landmarkCount) .kInvalidSemanticPartition
  requireThat (allEqual (fun left right => left == right)
    ((snapshot.semanticBlocks.take 5).map fun block => (block.kind, block.covarianceId, block.errorSize))
    (imuBlocks.map fun block => (block.1, block.2, 3))) .kInvalidSemanticPartition
  validateSemanticBlocks snapshot.activeTypes (snapshot.semanticBlocks.drop 5)
  requireThat (snapshot.fixedImuCalibrations.length == 5) .kInvalidShape
  requireThat ((snapshot.fixedImuCalibrations.zip fixedImuShapes).all fun p =>
    p.1.tag == p.2.1 && p.1.nominal.hasShape p.2.2 1 && p.1.fej.hasShape p.2.2 1) .kInvalidShape
  requireThat (snapshot.timeOffsetNominal.hasShape 1 1 && snapshot.timeOffsetFej.hasShape 1 1) .kInvalidShape
  requireThat (!snapshot.cameraCalibrations.isEmpty &&
    snapshot.cameraCalibrations.length == snapshot.cameraCaches.length) .kInvalidShape
  requireThat ((snapshot.cameraCalibrations.zip snapshot.cameraCaches).zipIdx.all fun p =>
    cameraShapes p.2 p.1.1 p.1.2) .kInvalidShape
  requireThat (snapshot.timestamp.isFinite && snapshot.covariance.allFinite &&
    snapshot.timeOffsetNominal.allFinite && snapshot.timeOffsetFej.allFinite) .kNonfinite
  snapshot.activeTypes.forM (validateActiveValues snapshot)
  requireThat (snapshot.fixedImuCalibrations.all fun fixed => fixed.nominal.allFinite && fixed.fej.allFinite)
    .kNonfinite
  requireThat (snapshot.cameraCalibrations.all fun calibration =>
    calibration.extrinsicNominal.allFinite && calibration.extrinsicFej.allFinite &&
      calibration.intrinsicNominal.allFinite && calibration.intrinsicFej.allFinite) .kNonfinite
  requireThat (snapshot.cameraCaches.all fun cache =>
    cache.calibration.allFinite && cache.K.allFinite && cache.D.allFinite) .kNonfinite
  requireThat (snapshot.activeTypes.all fun active => !(active.tag == .kImu || active.tag == .kClone) ||
    (isUnitQuaternion unitNorm active.nominal && isUnitQuaternion unitNorm active.fej)) .kInvalidQuaternion
  requireThat (((snapshot.fixedImuCalibrations.drop 3).take 2).all fun fixed =>
    isUnitQuaternion unitNorm fixed.nominal && isUnitQuaternion unitNorm fixed.fej) .kInvalidQuaternion
  requireThat (snapshot.cameraCalibrations.all fun calibration =>
    isUnitQuaternion unitNorm calibration.extrinsicNominal &&
      isUnitQuaternion unitNorm calibration.extrinsicFej) .kInvalidQuaternion

/-- `Validate`. A phase outside the enumeration does not occur here. -/
def validate : CP2CompositeStateStatus :=
  match validateChecks unitNorm snapshot with
  | .ok _ => .kAccepted
  | .error status => status

end Validate

end Bravo.Trace
