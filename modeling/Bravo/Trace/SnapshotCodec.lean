import Bravo.Trace.Snapshot

/-! # Snapshots, read and written

The bytes each entry of a snapshot takes, and that the decoder of a payload accepts exactly the
encodings of normalised snapshots within the limits (`decodeSnapshotPayload_eq_ok`).
-/

namespace Bravo.Trace

open List CP2SemanticStateBlock Reader CP2CompositeStateSnapshot CP2CameraFixedCalibration

/-! ## What the entries read -/

section Enum

variable {κ : Type} [DecidableEq κ] (spellings : List (κ × List UInt8))

def spelling (k : κ) : List UInt8 := (spellings.lookup k).getD []

/-- Every spelling stands for one value, is valid UTF-8 and short. -/
def Spelled : Prop :=
  ∀ entry ∈ spellings, spellings.lookup entry.1 = some entry.2 ∧
    spellings.find? (fun entry' => entry.2 == entry'.2) = some entry ∧
    validUtf8 entry.2 = true ∧ entry.2.length ≤ 29

instance : Decidable (Spelled spellings) :=
  inferInstanceAs (Decidable (∀ entry ∈ spellings, _ ∧ _ ∧ _ ∧ _))

@[simp] def enumFormat : Format κ :=
  ⟨fun k => appendUtf8 (spelling spellings k), fun _ => 0, fun k => (spellings.lookup k).isSome⟩

variable {spellings} {v : List UInt8}

theorem mem_of_lookup_eq_some {k : κ} (h : spellings.lookup k = some v) : (k, v) ∈ spellings := by
  induction spellings with
  | nil => simp at h
  | cons entry entries ih =>
    obtain ⟨k', v'⟩ := entry
    rw [lookup_cons] at h
    by_cases hk : k = k'
    · subst hk
      simp only [beq_self_eq_true] at h
      cases h
      exact mem_cons_self
    · rw [beq_false_of_ne hk] at h
      exact mem_cons_of_mem _ (ih h)

variable {what : String}

theorem parseEnum_eq_ok (hspelled : Spelled spellings) {value : List UInt8} {k : κ} :
    parseEnum spellings value what = .ok k ↔ spellings.lookup k = some value := by
  unfold parseEnum
  constructor
  · intro h
    split at h
    · rename_i entry hfind
      cases h
      have hval : value = entry.2 := by
        have := find?_some hfind
        simpa using this
      rw [hval]
      exact (hspelled entry (mem_of_find?_eq_some hfind)).1
    · cases h
  · intro h
    obtain ⟨-, hfind, -, -⟩ := hspelled _ (mem_of_lookup_eq_some h)
    rw [hfind]

theorem enumString_eq_ok {k : κ} :
    enumString spellings k what = .ok v ↔
      (spellings.lookup k).isSome ∧ v = spelling spellings k := by
  unfold enumString spelling
  cases spellings.lookup k with
  | none => simp
  | some v' => simp [eq_comm]

variable (limits : CP2TraceDecodeLimits)

theorem run_readUtf8_eq_ok {s s' : Cursor} :
    (readUtf8 limits what).run s = .ok (v, s') ↔
      (v.length ≤ limits.maximumPayloadBytes.toNat ∧ validUtf8 v = true) ∧
        Consumes s (appendUtf8 v) 0 s' := by
  simp only [readUtf8, run_bind_eq_ok, run_readU64_eq_ok, run_readBytes_eq_ok,
    run_reject_eq_ok, run_pure_eq_ok, Bool.not_eq_false']
  constructor
  · rintro ⟨count, s₁, h₁, value, s₂, ⟨hle, hlen, h₂⟩, _, s₃, ⟨hvalid, rfl⟩, rfl, rfl⟩
    refine ⟨⟨?_, hvalid⟩, ?_⟩
    · rw [hlen]
      exact UInt64.le_iff_toNat_le.mp hle
    · rw [appendUtf8, hlen, UInt64.ofNat_toNat]
      exact consumes_append_iff_free.mpr ⟨s₁, h₁, h₂⟩
  · rintro ⟨⟨hle, hvalid⟩, hcons⟩
    obtain ⟨s₁, h₁, h₂⟩ := consumes_append_iff_free.mp hcons
    have hlt := limits.maximumPayloadBytes.toNat_lt
    have hlen : (UInt64.ofNat v.length).toNat = v.length := by
      rw [UInt64.toNat_ofNat']
      omega
    refine ⟨_, s₁, h₁, v, s', ⟨?_, hlen.symm, h₂⟩, (), s', ⟨hvalid, rfl⟩, rfl, rfl⟩
    rw [UInt64.le_iff_toNat_le, hlen]
    exact hle

theorem readEnum_reads {L : Nat} (hspelled : Spelled spellings)
    (hmax : 29 ≤ limits.maximumPayloadBytes.toNat) (what : String) :
    Reads L (readEnum limits spellings what) (fun _ => True) (enumFormat spellings) := by
  intro s hs k s'
  simp only [readEnum, run_bind_eq_ok, run_readUtf8_eq_ok, run_lift_eq_ok,
    parseEnum_eq_ok hspelled]
  constructor
  · rintro ⟨v, s₁, ⟨-, hcons⟩, hlookup, rfl⟩
    have hspell : spelling spellings k = v := by rw [spelling, hlookup, Option.getD_some]
    refine ⟨trivial, ?_, ?_, ?_⟩
    · show (spellings.lookup k).isSome = true
      rw [hlookup]
      rfl
    · show Consumes s (appendUtf8 (spelling spellings k)) 0 s'
      rw [hspell]
      exact hcons
    · rw [hcons.spent]
      exact hs
  · rintro ⟨-, hfits, hcons, -⟩
    obtain ⟨v, hlookup⟩ := Option.isSome_iff_exists.mp hfits
    obtain ⟨-, -, hvalid, hlen⟩ := hspelled _ (mem_of_lookup_eq_some hlookup)
    have hspell : spelling spellings k = v := by rw [spelling, hlookup, Option.getD_some]
    have hcons' : Consumes s (appendUtf8 (spelling spellings k)) 0 s' := hcons
    rw [hspell] at hcons'
    exact ⟨v, s', ⟨⟨le_trans hlen hmax, hvalid⟩, hcons'⟩, hlookup, rfl⟩

end Enum

theorem spelled_tables :
    (Spelled semanticKindStrings ∧ Spelled activeTypeTagStrings ∧ Spelled fixedImuTagStrings ∧
      Spelled landmarkRepresentationStrings) ∧
    (∀ entry ∈ semanticKindStrings, 9 ≤ entry.2.length) ∧
    (∀ entry ∈ activeTypeTagStrings, 3 ≤ entry.2.length) ∧
    (∀ entry ∈ fixedImuTagStrings, 2 ≤ entry.2.length) ∧
    cameraModelTag.length = 9 ∧ validUtf8 cameraModelTag = true := by
  decide +kernel

theorem spelled_semanticKindStrings : Spelled semanticKindStrings := spelled_tables.1.1

theorem spelled_activeTypeTagStrings : Spelled activeTypeTagStrings := spelled_tables.1.2.1

theorem spelled_fixedImuTagStrings : Spelled fixedImuTagStrings := spelled_tables.1.2.2.1

theorem spelled_landmarkRepresentationStrings : Spelled landmarkRepresentationStrings :=
  spelled_tables.1.2.2.2

theorem length_cameraModelTag : cameraModelTag.length = 9 := spelled_tables.2.2.2.2.1

theorem validUtf8_cameraModelTag : validUtf8 cameraModelTag = true := spelled_tables.2.2.2.2.2

theorem length_spelling_ge {κ : Type} [DecidableEq κ] {spellings : List (κ × List UInt8)} {n : Nat}
    (h : ∀ entry ∈ spellings, n ≤ entry.2.length) {k : κ} (hk : (spellings.lookup k).isSome) :
    n ≤ (spelling spellings k).length := by
  obtain ⟨v, hv⟩ := Option.isSome_iff_exists.mp hk
  rw [spelling, hv, Option.getD_some]
  exact h _ (mem_of_lookup_eq_some hv)

section List

variable {α : Type} (limits : CP2TraceDecodeLimits)

def listFormat (F : Format α) : Format (List α) :=
  ⟨fun l => appendU64 (UInt64.ofNat l.length) ++ F.list.bytes l, F.list.cost,
    fun l => F.list.fits l ∧ l.length ≤ limits.maximumLayoutBlocks.toNat⟩

variable {F : Format α} {minimum : Nat}

theorem length_list_bytes_ge :
    ∀ {l : List α}, (∀ a ∈ l, minimum ≤ (F.bytes a).length) →
      l.length * minimum ≤ (F.list.bytes l).length := by
  intro l
  induction l with
  | nil => simp
  | cons a l ih =>
    intro h
    have ha := h a mem_cons_self
    have hl := ih fun b hb => h b (mem_cons_of_mem a hb)
    show (l.length + 1) * minimum ≤ (F.bytes a ++ F.list.bytes l).length
    rw [length_append, Nat.add_mul]
    omega

theorem run_checkListCount_eq_ok {what : String} {count : UInt64} {u : Unit} {s s' : Cursor} :
    (checkListCount limits what minimum count).run s = .ok (u, s') ↔
      (count.toNat ≤ limits.maximumLayoutBlocks.toNat ∧
        (0 < minimum → count.toNat ≤ s.rest.length / minimum)) ∧ s' = s := by
  show (if _ then _ else _) = _ ↔ _
  split
  · rename_i h
    refine iff_of_false (fun h => by cases h) ?_
    rintro ⟨⟨hmax, hrest⟩, -⟩
    rw [UInt64.lt_iff_toNat_lt] at h
    rcases h with h | ⟨hpos, h⟩
    · omega
    · have := hrest hpos
      omega
  · rename_i h
    rw [not_or, not_and, UInt64.lt_iff_toNat_lt] at h
    simp only [Except.ok.injEq, Prod.mk.injEq, true_and]
    constructor
    · intro heq
      refine ⟨⟨by omega, fun hpos => ?_⟩, heq.symm⟩
      have := h.2 hpos
      omega
    · rintro ⟨-, rfl⟩
      rfl

/-- The guard on the number of entries rejects no list whose entries are as long as it assumes. -/
theorem readList_reads {L : Nat} {r : Reader α} (what : String)
    (hr : Reads L r (fun _ => True) F) (hmin : ∀ a, F.fits a → minimum ≤ (F.bytes a).length) :
    Reads L (readList limits what minimum r) (fun _ => True) (listFormat limits F) := by
  intro s hs l s'
  simp only [readList, readListCount, run_bind_eq_ok, run_readU64_eq_ok,
    run_checkListCount_eq_ok, run_pure_eq_ok]
  constructor
  · rintro ⟨count, s₁, ⟨_, _, h₁, _, _, ⟨⟨hmax, -⟩, rfl⟩, rfl, rfl⟩, hmany⟩
    have hs₁ : s₁.spent ≤ L := by
      rw [h₁.spent]
      exact hs
    obtain ⟨hlen, hfits, hcons, hspent⟩ := (readMany_reads hr _ s₁ hs₁ l s').mp hmany
    refine ⟨trivial, ⟨hfits, by rw [hlen]; exact hmax⟩, ?_, hspent⟩
    show Consumes s (appendU64 (UInt64.ofNat l.length) ++ F.list.bytes l) (F.list.cost l) s'
    rw [hlen, UInt64.ofNat_toNat, ← Nat.zero_add (F.list.cost l)]
    exact consumes_append_iff.mpr ⟨s₁, h₁, hcons⟩
  · rintro ⟨-, ⟨hfits, hmax⟩, hcons, hspent⟩
    have hcons' : Consumes s (appendU64 (UInt64.ofNat l.length) ++ F.list.bytes l)
        (0 + F.list.cost l) s' := by
      rw [Nat.zero_add]
      exact hcons
    obtain ⟨s₁, h₁, h₂⟩ := consumes_append_iff.mp hcons'
    have hlt := limits.maximumLayoutBlocks.toNat_lt
    have hcount : (UInt64.ofNat l.length).toNat = l.length := by
      rw [UInt64.toNat_ofNat']
      omega
    have hs₁ : s₁.spent ≤ L := by
      rw [h₁.spent]
      exact hs
    refine ⟨_, s₁, ⟨_, s₁, h₁, (), s₁, ⟨⟨?_, ?_⟩, rfl⟩, rfl, rfl⟩, ?_⟩
    · rw [hcount]
      exact hmax
    · -- The entries themselves are ahead.
      intro hpos
      have hge := length_list_bytes_ge (F := F) fun a ha => hmin a (hfits a ha)
      rw [hcount, Nat.le_div_iff_mul_le hpos, h₂.rest, length_append]
      omega
    · rw [hcount]
      exact (readMany_reads hr _ s₁ hs₁ l s').mpr ⟨rfl, hfits, h₂, hspent⟩

theorem encodeList_eq_ok {what : String} {encode : α → Except String (List UInt8)} {E : α → Prop}
    (h : ∀ a b, encode a = .ok b ↔ E a ∧ b = F.bytes a) {l : List α} {bytes : List UInt8} :
    encodeList what encode l = .ok bytes ↔
      (l.length < 2 ^ 64 ∧ ∀ a ∈ l, E a) ∧ bytes = (listFormat limits F).bytes l := by
  simp only [encodeList, bind_eq_ok, checkedU64_eq_ok, mapM_eq_ok_iff h]
  constructor
  · rintro ⟨count, hcount, _, ⟨hE, rfl⟩, hret⟩
    cases hret
    have hlt := count.toNat_lt
    refine ⟨⟨by omega, hE⟩, ?_⟩
    show appendU64 count ++ _ = appendU64 (UInt64.ofNat l.length) ++ F.list.bytes l
    rw [← hcount, UInt64.ofNat_toNat]
    rfl
  · rintro ⟨⟨hlt, hE⟩, rfl⟩
    refine ⟨UInt64.ofNat l.length, ?_, _, ⟨hE, rfl⟩, rfl⟩
    rw [UInt64.toNat_ofNat']
    omega

end List

/-! ### Entries -/

section Entries

def normaliseIdentity (isClone isLandmark : Bool) (p : Binary64 × CP2LandmarkIdentity) :
    Binary64 × CP2LandmarkIdentity :=
  if isClone then (p.1, {}) else if isLandmark then (⟨0⟩, p.2) else (⟨0⟩, {})

def IdentityEncodable (isClone isLandmark : Bool) (p : Binary64 × CP2LandmarkIdentity) : Prop :=
  isClone = false → isLandmark = true → p.2.representation ≠ .kUnknown

def CP2SemanticStateBlock.identity (block : CP2SemanticStateBlock) :
    Binary64 × CP2LandmarkIdentity :=
  (block.cloneTimestamp, block.landmark)

def CP2SemanticStateBlock.normalise (block : CP2SemanticStateBlock) : CP2SemanticStateBlock :=
  let identity := normaliseIdentity block.kind.isClone block.kind.isLandmark block.identity
  { block with cloneTimestamp := identity.1, landmark := identity.2 }

def CP2SemanticStateBlock.Encodable (block : CP2SemanticStateBlock) : Prop :=
  IdentityEncodable block.kind.isClone block.kind.isLandmark block.identity

def CP2ActiveStateType.identity (type : CP2ActiveStateType) : Binary64 × CP2LandmarkIdentity :=
  (type.cloneTimestamp, type.landmark)

def CP2ActiveStateType.normalise (type : CP2ActiveStateType) : CP2ActiveStateType :=
  let identity := normaliseIdentity type.tag.isClone type.tag.isLandmark type.identity
  { type with cloneTimestamp := identity.1, landmark := identity.2 }

def CP2ActiveStateType.Encodable (type : CP2ActiveStateType) : Prop :=
  IdentityEncodable type.tag.isClone type.tag.isLandmark type.identity

def MatrixWithin (limits : CP2TraceDecodeLimits) (M : MatrixXd) : Prop :=
  M.coeffs.length ≤ limits.maximumMatrixCoefficients.toNat

def landmarkFormat : Format CP2LandmarkIdentity where
  bytes i := appendU64 i.featureId ++
    appendUtf8 (spelling landmarkRepresentationStrings i.representation) ++
    appendI64 i.anchorCameraId ++ appendBinary64 i.anchorTimestamp
  cost _ := 0
  fits i := i.representation ≠ .kUnknown

def identityFormat (isClone isLandmark : Bool) : Format (Binary64 × CP2LandmarkIdentity) where
  bytes p := if isClone then appendBinary64 p.1 else if isLandmark then landmarkFormat.bytes p.2
    else []
  cost _ := 0
  fits p := normaliseIdentity isClone isLandmark p = p ∧ IdentityEncodable isClone isLandmark p

def semanticBlockFormat : Format CP2SemanticStateBlock where
  bytes b := appendUtf8 (spelling semanticKindStrings b.kind) ++ appendU64 b.covarianceId ++
    appendU64 b.errorSize ++
    (identityFormat b.kind.isClone b.kind.isLandmark).bytes b.identity
  cost _ := 0
  fits b := b.normalise = b ∧ b.Encodable

variable (limits : CP2TraceDecodeLimits)

def activeTypeFormat : Format CP2ActiveStateType where
  bytes t := appendUtf8 (spelling activeTypeTagStrings t.tag) ++ appendU64 t.covarianceId ++
    appendU64 t.errorSize ++
    (identityFormat t.tag.isClone t.tag.isLandmark).bytes t.identity ++
    appendMatrix t.nominal ++ appendMatrix t.fej
  cost t := t.nominal.coeffs.length + t.fej.coeffs.length
  fits t := (t.normalise = t ∧ t.Encodable) ∧ MatrixWithin limits t.nominal ∧
    MatrixWithin limits t.fej

def fixedImuCalibrationFormat : Format CP2FixedImuCalibration where
  bytes c := appendUtf8 (spelling fixedImuTagStrings c.tag) ++ appendMatrix c.nominal ++
    appendMatrix c.fej
  cost c := c.nominal.coeffs.length + c.fej.coeffs.length
  fits c := MatrixWithin limits c.nominal ∧ MatrixWithin limits c.fej

def cameraCalibrationFormat : Format CP2CameraFixedCalibration where
  bytes c := appendU64 c.cameraId ++ appendMatrix c.extrinsicNominal ++
    appendMatrix c.extrinsicFej ++ appendMatrix c.intrinsicNominal ++ appendMatrix c.intrinsicFej
  cost c := c.extrinsicNominal.coeffs.length + c.extrinsicFej.coeffs.length +
    c.intrinsicNominal.coeffs.length + c.intrinsicFej.coeffs.length
  fits c := MatrixWithin limits c.extrinsicNominal ∧ MatrixWithin limits c.extrinsicFej ∧
    MatrixWithin limits c.intrinsicNominal ∧ MatrixWithin limits c.intrinsicFej

def cameraCacheFormat : Format CP2CameraModelCache where
  bytes c := appendU64 c.cameraId ++ appendUtf8 cameraModelTag ++ appendI64 c.width ++
    appendI64 c.height ++ appendMatrix c.calibration ++ appendMatrix c.K ++ appendMatrix c.D
  cost c := c.calibration.coeffs.length + c.K.coeffs.length + c.D.coeffs.length
  fits c := MatrixWithin limits c.calibration ∧ MatrixWithin limits c.K ∧ MatrixWithin limits c.D

theorem isSome_landmarkRepresentation (r : CP2LandmarkRepresentation) :
    (landmarkRepresentationStrings.lookup r).isSome ↔ r ≠ .kUnknown := by
  cases r <;> decide

theorem isSome_semanticKind (k : CP2SemanticStateKind) : (semanticKindStrings.lookup k).isSome := by
  cases k <;> decide

theorem isSome_activeTypeTag (k : CP2ActiveStateTypeTag) :
    (activeTypeTagStrings.lookup k).isSome := by
  cases k <;> decide

theorem isSome_fixedImuTag (k : CP2FixedImuCalibrationTag) :
    (fixedImuTagStrings.lookup k).isSome := by
  cases k <;> decide

theorem CP2SemanticStateBlock.normalise_eq_iff (b : CP2SemanticStateBlock) :
    b.normalise = b ↔
      normaliseIdentity b.kind.isClone b.kind.isLandmark b.identity = b.identity := by
  cases b
  simp [normalise, identity, Prod.ext_iff]

theorem CP2ActiveStateType.normalise_eq_iff (t : CP2ActiveStateType) :
    t.normalise = t ↔ normaliseIdentity t.tag.isClone t.tag.isLandmark t.identity = t.identity := by
  cases t
  simp [CP2ActiveStateType.normalise, CP2ActiveStateType.identity, Prod.ext_iff]

section Reads

variable {limits} {L : Nat} (hmax : 29 ≤ limits.maximumPayloadBytes.toNat)
include hmax

theorem readLandmarkIdentity_reads :
    Reads L (readLandmarkIdentity limits) (fun _ => True) landmarkFormat := by
  refine .congr
    (.bind CP2LandmarkIdentity.featureId (readU64_reads _) fun _ =>
      .bind CP2LandmarkIdentity.representation
        (readEnum_reads limits spelled_landmarkRepresentationStrings hmax _) fun _ =>
      .bind CP2LandmarkIdentity.anchorCameraId (readI64_reads _) fun _ =>
      .bind CP2LandmarkIdentity.anchorTimestamp (readBinary64_reads _) fun _ =>
      .pure ?_) ?_ ?_ ?_
  · rintro ⟨⟩
    simp
    tauto
  · intro i _
    simp [landmarkFormat]
  · intro i _
    simp [landmarkFormat]
  · intro i _
    simpa [landmarkFormat] using isSome_landmarkRepresentation i.representation

theorem readIdentity_reads (isClone isLandmark : Bool) (name : String) :
    Reads L (readIdentity limits isClone isLandmark name) (fun _ => True)
      (identityFormat isClone isLandmark) := by
  -- Which fields are written depends on the entry's tag alone.
  cases isClone with
  | true =>
    intro s hs p s'
    obtain ⟨cloneTimestamp, landmark⟩ := p
    have hread := readBinary64_reads (L := L) (name ++ " clone timestamp") s hs
    simp only [readIdentity, if_true, run_bind_eq_ok, run_pure_eq_ok, hread]
    constructor
    · rintro ⟨t, s₁, ⟨-, -, hcons, hspent⟩, heq, rfl⟩
      cases heq
      exact ⟨trivial, ⟨rfl, fun h => by cases h⟩, hcons, hspent⟩
    · rintro ⟨-, ⟨hnorm, -⟩, hcons, hspent⟩
      refine ⟨cloneTimestamp, s', ⟨trivial, trivial, hcons, hspent⟩, ?_, rfl⟩
      exact hnorm.symm
  | false =>
    cases isLandmark with
    | true =>
      intro s hs p s'
      obtain ⟨cloneTimestamp, landmark⟩ := p
      have hread := readLandmarkIdentity_reads (L := L) hmax s hs
      simp only [readIdentity, Bool.false_eq_true, if_false, if_true, run_bind_eq_ok,
        run_pure_eq_ok, hread]
      constructor
      · rintro ⟨t, s₁, ⟨-, hfits, hcons, hspent⟩, heq, rfl⟩
        cases heq
        exact ⟨trivial, ⟨rfl, fun _ _ => hfits⟩, hcons, hspent⟩
      · rintro ⟨-, ⟨hnorm, henc⟩, hcons, hspent⟩
        refine ⟨landmark, s', ⟨trivial, henc rfl rfl, hcons, hspent⟩, ?_, rfl⟩
        exact hnorm.symm
    | false =>
      intro s hs p s'
      simp only [readIdentity, Bool.false_eq_true, if_false, run_pure_eq_ok]
      constructor
      · rintro ⟨rfl, rfl⟩
        exact ⟨trivial, ⟨rfl, fun _ h => by cases h⟩, consumes_nil_iff.mpr rfl, hs⟩
      · rintro ⟨-, ⟨hnorm, -⟩, hcons, -⟩
        exact ⟨hnorm.symm, consumes_nil_iff.mp hcons⟩

theorem readSemanticBlock_reads :
    Reads L (readSemanticBlock limits) (fun _ => True) semanticBlockFormat := by
  refine .congr
    (.bindTag kind
      (readEnum_reads limits spelled_semanticKindStrings hmax _) fun kind =>
      .bind covarianceId (readU64_reads _) fun _ =>
      .bind errorSize (readU64_reads _) fun _ =>
      .bind identity (readIdentity_reads hmax _ _ _) fun _ =>
      .pure ?_) ?_ ?_ ?_
  · rintro ⟨⟩
    simp [identity]
    aesop
  · intro b _
    simp [semanticBlockFormat]
  · intro b _
    simp [semanticBlockFormat, identityFormat]
  · intro b _
    simp [semanticBlockFormat, isSome_semanticKind, identityFormat, normalise_eq_iff]
    exact fun _ => Iff.rfl

theorem readActiveType_reads :
    Reads limits.budget (readActiveType limits) (fun _ => True) (activeTypeFormat limits) := by
  refine .congr
    (.bindTag CP2ActiveStateType.tag
      (readEnum_reads limits spelled_activeTypeTagStrings hmax _) fun tag =>
      .bind CP2ActiveStateType.covarianceId (readU64_reads _) fun _ =>
      .bind CP2ActiveStateType.errorSize (readU64_reads _) fun _ =>
      .bind CP2ActiveStateType.identity (readIdentity_reads hmax _ _ _) fun _ =>
      .bind CP2ActiveStateType.nominal (readMatrix_reads limits _) fun _ =>
      .bind CP2ActiveStateType.fej (readMatrix_reads limits _) fun _ =>
      .pure ?_) ?_ ?_ ?_
  · rintro ⟨⟩
    simp [CP2ActiveStateType.identity]
    aesop
  · intro t _
    simp [activeTypeFormat]
  · intro t _
    simp [activeTypeFormat, identityFormat]
  · intro t _
    simp [activeTypeFormat, isSome_activeTypeTag, identityFormat, CP2ActiveStateType.normalise_eq_iff]
    rfl

theorem readFixedImuCalibration_reads :
    Reads limits.budget (readFixedImuCalibration limits) (fun _ => True)
      (fixedImuCalibrationFormat limits) := by
  refine .congr
    (.bind CP2FixedImuCalibration.tag
      (readEnum_reads limits spelled_fixedImuTagStrings hmax _) fun tag =>
      .bind CP2FixedImuCalibration.nominal (readMatrix_reads limits _) fun _ =>
      .bind CP2FixedImuCalibration.fej (readMatrix_reads limits _) fun _ =>
      .pure ?_) ?_ ?_ ?_
  · rintro ⟨⟩
    simp
    tauto
  · intro c _
    simp [fixedImuCalibrationFormat]
  · intro c _
    simp [fixedImuCalibrationFormat]
  · intro c _
    simp [fixedImuCalibrationFormat, isSome_fixedImuTag]
    rfl

theorem readCameraModelTag_reads :
    Reads L (readCameraModelTag limits) (fun _ => True)
      (constFormat (appendUtf8 cameraModelTag)) := by
  intro s hs u s'
  simp only [readCameraModelTag, run_bind_eq_ok, run_readUtf8_eq_ok, run_reject_eq_ok,
    bne_eq_false_iff_eq]
  constructor
  · rintro ⟨v, s₁, ⟨-, hcons⟩, rfl, rfl⟩
    refine ⟨trivial, trivial, hcons, ?_⟩
    rw [hcons.spent]
    exact hs
  · rintro ⟨-, -, hcons, -⟩
    have hlen : cameraModelTag.length ≤ 29 := by
      rw [length_cameraModelTag]
      decide
    exact ⟨_, s', ⟨⟨le_trans hlen hmax, validUtf8_cameraModelTag⟩, hcons⟩, rfl, rfl⟩

omit hmax in
theorem readCameraCalibration_reads :
    Reads limits.budget (readCameraCalibration limits) (fun _ => True)
      (cameraCalibrationFormat limits) := by
  refine .congr
    (.bind cameraId (readU64_reads _) fun _ =>
      .bind extrinsicNominal (readMatrix_reads limits _) fun _ =>
      .bind extrinsicFej (readMatrix_reads limits _) fun _ =>
      .bind intrinsicNominal (readMatrix_reads limits _) fun _ =>
      .bind intrinsicFej (readMatrix_reads limits _) fun _ =>
      .pure ?_) ?_ ?_ ?_
  · rintro ⟨⟩
    simp
    tauto
  · intro c _
    simp [cameraCalibrationFormat]
  · intro c _
    simp [cameraCalibrationFormat]
    omega
  · intro c _
    simp [cameraCalibrationFormat]
    rfl

theorem readCameraCache_reads :
    Reads limits.budget (readCameraCache limits) (fun _ => True) (cameraCacheFormat limits) := by
  refine .congr
    (.bind CP2CameraModelCache.cameraId (readU64_reads _) fun _ =>
      .bind (fun _ => ()) (readCameraModelTag_reads hmax) fun _ =>
      .bind CP2CameraModelCache.width (readI64_reads _) fun _ =>
      .bind CP2CameraModelCache.height (readI64_reads _) fun _ =>
      .bind CP2CameraModelCache.calibration (readMatrix_reads limits _) fun _ =>
      .bind CP2CameraModelCache.K (readMatrix_reads limits _) fun _ =>
      .bind CP2CameraModelCache.D (readMatrix_reads limits _) fun _ =>
      .pure ?_) ?_ ?_ ?_
  · rintro ⟨⟩
    simp
    tauto
  · intro c _
    simp [cameraCacheFormat]
  · intro c _
    simp [cameraCacheFormat]
    omega
  · intro c _
    simp [cameraCacheFormat]
    rfl

end Reads

/-! The smallest entry of each list has exactly the size the decoder assumes. -/

theorem length_semanticBlock_ge (b : CP2SemanticStateBlock) :
    33 ≤ (semanticBlockFormat.bytes b).length := by
  have hkind : 9 ≤ (spelling semanticKindStrings b.kind).length :=
    length_spelling_ge spelled_tables.2.1 (isSome_semanticKind b.kind)
  simp [semanticBlockFormat]
  omega

theorem length_activeType_ge (t : CP2ActiveStateType) :
    59 ≤ ((activeTypeFormat limits).bytes t).length := by
  have htag : 3 ≤ (spelling activeTypeTagStrings t.tag).length :=
    length_spelling_ge spelled_tables.2.2.1 (isSome_activeTypeTag t.tag)
  simp [activeTypeFormat]
  omega

theorem length_fixedImuCalibration_ge (c : CP2FixedImuCalibration) :
    42 ≤ ((fixedImuCalibrationFormat limits).bytes c).length := by
  have htag : 2 ≤ (spelling fixedImuTagStrings c.tag).length :=
    length_spelling_ge spelled_tables.2.2.2.1 (isSome_fixedImuTag c.tag)
  simp [fixedImuCalibrationFormat]
  omega

theorem length_cameraCalibration_ge (c : CP2CameraFixedCalibration) :
    72 ≤ ((cameraCalibrationFormat limits).bytes c).length := by
  simp [cameraCalibrationFormat]
  omega

theorem length_cameraCache_ge (c : CP2CameraModelCache) :
    89 ≤ ((cameraCacheFormat limits).bytes c).length := by
  simp [cameraCacheFormat, length_cameraModelTag]
  omega

end Entries

/-! ## Snapshots, both ways -/

section Snapshot

def CP2CompositeStateSnapshot.normalise (s : CP2CompositeStateSnapshot) :
    CP2CompositeStateSnapshot :=
  { s with
    semanticBlocks := s.semanticBlocks.map CP2SemanticStateBlock.normalise
    activeTypes := s.activeTypes.map CP2ActiveStateType.normalise }

/-- Every landmark that is written has a spelled representation, and every list a 64-bit count. -/
structure CP2CompositeStateSnapshot.Encodable (s : CP2CompositeStateSnapshot) : Prop where
  semanticBlocks : s.semanticBlocks.length < 2 ^ 64 ∧ ∀ b ∈ s.semanticBlocks, b.Encodable
  activeTypes : s.activeTypes.length < 2 ^ 64 ∧ ∀ t ∈ s.activeTypes, t.Encodable
  fixedImuCalibrations : s.fixedImuCalibrations.length < 2 ^ 64
  cameraCalibrations : s.cameraCalibrations.length < 2 ^ 64
  cameraCaches : s.cameraCaches.length < 2 ^ 64

def snapshotCoefficients (s : CP2CompositeStateSnapshot) : Nat :=
  s.covariance.coeffs.length +
    (s.activeTypes.map fun t => t.nominal.coeffs.length + t.fej.coeffs.length).sum +
    (s.fixedImuCalibrations.map fun c => c.nominal.coeffs.length + c.fej.coeffs.length).sum +
    s.timeOffsetNominal.coeffs.length + s.timeOffsetFej.coeffs.length +
    (s.cameraCalibrations.map fun c => c.extrinsicNominal.coeffs.length +
      c.extrinsicFej.coeffs.length + c.intrinsicNominal.coeffs.length +
      c.intrinsicFej.coeffs.length).sum +
    (s.cameraCaches.map fun c => c.calibration.coeffs.length + c.K.coeffs.length +
      c.D.coeffs.length).sum

variable (limits : CP2TraceDecodeLimits)

structure SnapshotFits (s : CP2CompositeStateSnapshot) : Prop where
  covariance : MatrixWithin limits s.covariance
  semanticBlocks : s.semanticBlocks.length ≤ limits.maximumLayoutBlocks.toNat
  activeTypes : s.activeTypes.length ≤ limits.maximumLayoutBlocks.toNat
  activeMatrices : ∀ t ∈ s.activeTypes, MatrixWithin limits t.nominal ∧ MatrixWithin limits t.fej
  fixedImuCalibrations : s.fixedImuCalibrations.length ≤ limits.maximumLayoutBlocks.toNat
  fixedImuMatrices : ∀ c ∈ s.fixedImuCalibrations,
    MatrixWithin limits c.nominal ∧ MatrixWithin limits c.fej
  timeOffsetNominal : MatrixWithin limits s.timeOffsetNominal
  timeOffsetFej : MatrixWithin limits s.timeOffsetFej
  cameraCalibrations : s.cameraCalibrations.length ≤ limits.maximumLayoutBlocks.toNat
  cameraMatrices : ∀ c ∈ s.cameraCalibrations,
    MatrixWithin limits c.extrinsicNominal ∧ MatrixWithin limits c.extrinsicFej ∧
      MatrixWithin limits c.intrinsicNominal ∧ MatrixWithin limits c.intrinsicFej
  cameraCaches : s.cameraCaches.length ≤ limits.maximumLayoutBlocks.toNat
  cacheMatrices : ∀ c ∈ s.cameraCaches,
    MatrixWithin limits c.calibration ∧ MatrixWithin limits c.K ∧ MatrixWithin limits c.D

def snapshotBytes (s : CP2CompositeStateSnapshot) : List UInt8 :=
  appendDomain s.phase ++ (appendBinary64 s.timestamp ++ appendMatrix s.covariance ++
    (listFormat limits semanticBlockFormat).bytes s.semanticBlocks ++
    (listFormat limits (activeTypeFormat limits)).bytes s.activeTypes ++
    (listFormat limits (fixedImuCalibrationFormat limits)).bytes s.fixedImuCalibrations ++
    appendMatrix s.timeOffsetNominal ++ appendMatrix s.timeOffsetFej ++
    (listFormat limits (cameraCalibrationFormat limits)).bytes s.cameraCalibrations ++
    (listFormat limits (cameraCacheFormat limits)).bytes s.cameraCaches)

theorem map_eq_self_iff {α : Type} {f : α → α} {l : List α} : l.map f = l ↔ ∀ a ∈ l, f a = a := by
  have h := map_inj_left (l := l) (f := f) (g := id)
  rw [List.map_id] at h
  exact h

theorem CP2CompositeStateSnapshot.normalise_eq_iff (s : CP2CompositeStateSnapshot) :
    s.normalise = s ↔
      (∀ b ∈ s.semanticBlocks, b.normalise = b) ∧ ∀ t ∈ s.activeTypes, t.normalise = t := by
  rw [← map_eq_self_iff, ← map_eq_self_iff]
  cases s
  simp [normalise]

theorem snapshotFits_iff (s : CP2CompositeStateSnapshot) :
    (MatrixWithin limits s.covariance ∧
      (listFormat limits semanticBlockFormat).fits s.semanticBlocks ∧
      (listFormat limits (activeTypeFormat limits)).fits s.activeTypes ∧
      (listFormat limits (fixedImuCalibrationFormat limits)).fits s.fixedImuCalibrations ∧
      MatrixWithin limits s.timeOffsetNominal ∧ MatrixWithin limits s.timeOffsetFej ∧
      (listFormat limits (cameraCalibrationFormat limits)).fits s.cameraCalibrations ∧
      (listFormat limits (cameraCacheFormat limits)).fits s.cameraCaches) ↔
    s.Encodable ∧ s.normalise = s ∧ SnapshotFits limits s := by
  rw [CP2CompositeStateSnapshot.normalise_eq_iff]
  constructor
  · rintro ⟨hcov, ⟨hsem, hsem'⟩, ⟨hact, hact'⟩, ⟨hfix, hfix'⟩, hoff, hoff', ⟨hcam, hcam'⟩, hcache,
      hcache'⟩
    have hlt := limits.maximumLayoutBlocks.toNat_lt
    refine ⟨⟨⟨by omega, fun b hb => (hsem b hb).2⟩, ⟨by omega, fun t ht => (hact t ht).1.2⟩,
      by omega, by omega, by omega⟩, ⟨fun b hb => (hsem b hb).1, fun t ht => (hact t ht).1.1⟩, ?_⟩
    exact ⟨hcov, hsem', hact', fun t ht => (hact t ht).2, hfix', hfix, hoff, hoff', hcam', hcam,
      hcache', hcache⟩
  · rintro ⟨henc, ⟨hsem, hact⟩, hfits⟩
    exact ⟨hfits.covariance, ⟨fun b hb => ⟨hsem b hb, henc.semanticBlocks.2 b hb⟩,
      hfits.semanticBlocks⟩, ⟨fun t ht => ⟨⟨hact t ht, henc.activeTypes.2 t ht⟩,
      hfits.activeMatrices t ht⟩, hfits.activeTypes⟩, ⟨hfits.fixedImuMatrices,
      hfits.fixedImuCalibrations⟩, hfits.timeOffsetNominal, hfits.timeOffsetFej,
      ⟨hfits.cameraMatrices, hfits.cameraCalibrations⟩, hfits.cacheMatrices, hfits.cameraCaches⟩

theorem readSnapshot_reads (hmax : 29 ≤ limits.maximumPayloadBytes.toNat) (phase : CP2StatePhase) :
    Reads limits.budget (readSnapshot limits phase) (fun s => s.phase = phase)
      ⟨snapshotBytes limits, snapshotCoefficients,
        fun s => s.Encodable ∧ s.normalise = s ∧ SnapshotFits limits s⟩ := by
  refine .congr
    (.bind (fun _ => ()) (expectBytes_reads _ _) fun _ =>
      .bind timestamp (readBinary64_reads _) fun _ =>
      .bind covariance (readMatrix_reads limits _) fun _ =>
      .bind semanticBlocks
        (readList_reads limits _ (readSemanticBlock_reads hmax)
          fun b _ => length_semanticBlock_ge b) fun _ =>
      .bind activeTypes
        (readList_reads limits _ (readActiveType_reads hmax)
          fun t _ => length_activeType_ge limits t) fun _ =>
      .bind fixedImuCalibrations
        (readList_reads limits _ (readFixedImuCalibration_reads hmax)
          fun c _ => length_fixedImuCalibration_ge limits c) fun _ =>
      .bind timeOffsetNominal (readMatrix_reads limits _) fun _ =>
      .bind timeOffsetFej (readMatrix_reads limits _) fun _ =>
      .bind cameraCalibrations
        (readList_reads limits _ readCameraCalibration_reads
          fun c _ => length_cameraCalibration_ge limits c) fun _ =>
      .bind cameraCaches
        (readList_reads limits _ (readCameraCache_reads hmax)
          fun c _ => length_cameraCache_ge limits c) fun _ =>
      .pure ?_) ?_ ?_ ?_
  · rintro ⟨⟩
    simp
    tauto
  · rintro s rfl
    simp [snapshotBytes]
  · intro s _
    simp [listFormat, Format.list, semanticBlockFormat, activeTypeFormat, fixedImuCalibrationFormat, cameraCalibrationFormat, cameraCacheFormat, snapshotCoefficients]
    omega
  · intro s _
    simp
    exact snapshotFits_iff limits s

/-! ### The encoder -/

theorem appendLandmarkIdentity_eq_ok {i : CP2LandmarkIdentity} {bytes : List UInt8} :
    appendLandmarkIdentity i = .ok bytes ↔
      i.representation ≠ .kUnknown ∧ bytes = landmarkFormat.bytes i := by
  simp only [appendLandmarkIdentity, bind_eq_ok, enumString_eq_ok, isSome_landmarkRepresentation]
  constructor
  · rintro ⟨_, ⟨hrep, rfl⟩, hret⟩
    cases hret
    exact ⟨hrep, rfl⟩
  · rintro ⟨hrep, rfl⟩
    exact ⟨_, ⟨hrep, rfl⟩, rfl⟩

theorem appendIdentity_eq_ok {isClone isLandmark : Bool} {p : Binary64 × CP2LandmarkIdentity}
    {bytes : List UInt8} :
    appendIdentity isClone isLandmark p.1 p.2 = .ok bytes ↔
      IdentityEncodable isClone isLandmark p ∧ bytes = (identityFormat isClone isLandmark).bytes p := by
  cases isClone with
  | true => simp [appendIdentity, IdentityEncodable, identityFormat, eq_comm]
  | false =>
    cases isLandmark with
    | true => simp [appendIdentity, IdentityEncodable, identityFormat, appendLandmarkIdentity_eq_ok]
    | false => simp [appendIdentity, IdentityEncodable, identityFormat, eq_comm]

theorem encodeSemanticBlock_eq_ok (b : CP2SemanticStateBlock) (bytes : List UInt8) :
    encodeSemanticBlock b = .ok bytes ↔ b.Encodable ∧ bytes = semanticBlockFormat.bytes b := by
  have hid : ∀ {bs : List UInt8},
      appendIdentity b.kind.isClone b.kind.isLandmark b.cloneTimestamp b.landmark = .ok bs ↔ _ :=
    appendIdentity_eq_ok (p := b.identity)
  simp only [encodeSemanticBlock, bind_eq_ok, enumString_eq_ok, isSome_semanticKind, hid]
  constructor
  · rintro ⟨_, ⟨-, rfl⟩, _, ⟨henc, rfl⟩, hret⟩
    cases hret
    exact ⟨henc, rfl⟩
  · rintro ⟨henc, rfl⟩
    exact ⟨_, ⟨trivial, rfl⟩, _, ⟨henc, rfl⟩, rfl⟩

theorem encodeActiveType_eq_ok (t : CP2ActiveStateType) (bytes : List UInt8) :
    encodeActiveType t = .ok bytes ↔ t.Encodable ∧ bytes = (activeTypeFormat limits).bytes t := by
  have hid : ∀ {bs : List UInt8},
      appendIdentity t.tag.isClone t.tag.isLandmark t.cloneTimestamp t.landmark = .ok bs ↔ _ :=
    appendIdentity_eq_ok (p := t.identity)
  simp only [encodeActiveType, bind_eq_ok, enumString_eq_ok, isSome_activeTypeTag, hid]
  constructor
  · rintro ⟨_, ⟨-, rfl⟩, _, ⟨henc, rfl⟩, hret⟩
    cases hret
    exact ⟨henc, rfl⟩
  · rintro ⟨henc, rfl⟩
    exact ⟨_, ⟨trivial, rfl⟩, _, ⟨henc, rfl⟩, rfl⟩

theorem encodeFixedImuCalibration_eq_ok (c : CP2FixedImuCalibration) (bytes : List UInt8) :
    encodeFixedImuCalibration c = .ok bytes ↔
      True ∧ bytes = (fixedImuCalibrationFormat limits).bytes c := by
  simp only [encodeFixedImuCalibration, bind_eq_ok, enumString_eq_ok, isSome_fixedImuTag, true_and]
  constructor
  · rintro ⟨_, rfl, hret⟩
    cases hret
    rfl
  · rintro rfl
    exact ⟨_, rfl, rfl⟩

theorem encodeCameraCalibration_eq_ok (c : CP2CameraFixedCalibration) (bytes : List UInt8) :
    encodeCameraCalibration c = .ok bytes ↔
      True ∧ bytes = (cameraCalibrationFormat limits).bytes c := by
  simp [encodeCameraCalibration, cameraCalibrationFormat, eq_comm]

theorem encodeCameraCache_eq_ok (c : CP2CameraModelCache) (bytes : List UInt8) :
    encodeCameraCache c = .ok bytes ↔ True ∧ bytes = (cameraCacheFormat limits).bytes c := by
  simp [encodeCameraCache, cameraCacheFormat, eq_comm]

variable {s : CP2CompositeStateSnapshot} {payload : List UInt8}

theorem encodeSnapshotPayload_eq_ok :
    encodeSnapshotPayload s = .ok payload ↔ s.Encodable ∧ payload = snapshotBytes limits s := by
  simp only [encodeSnapshotPayload, encodeSnapshotBody, bind_eq_ok,
    encodeList_eq_ok limits encodeSemanticBlock_eq_ok,
    encodeList_eq_ok limits (encodeActiveType_eq_ok limits),
    encodeList_eq_ok limits (encodeFixedImuCalibration_eq_ok limits),
    encodeList_eq_ok limits (encodeCameraCalibration_eq_ok limits),
    encodeList_eq_ok limits (encodeCameraCache_eq_ok limits)]
  constructor
  · rintro ⟨_, ⟨_, ⟨hsem, rfl⟩, _, ⟨hact, rfl⟩, _, ⟨hfix, rfl⟩, _, ⟨hcam, rfl⟩, _, ⟨hcache, rfl⟩,
      hbody⟩, hret⟩
    cases hbody
    cases hret
    exact ⟨⟨hsem, hact, hfix.1, hcam.1, hcache.1⟩, rfl⟩
  · rintro ⟨henc, rfl⟩
    exact ⟨_, ⟨_, ⟨henc.semanticBlocks, rfl⟩, _, ⟨henc.activeTypes, rfl⟩, _,
      ⟨⟨henc.fixedImuCalibrations, fun _ _ => trivial⟩, rfl⟩, _,
      ⟨⟨henc.cameraCalibrations, fun _ _ => trivial⟩, rfl⟩, _,
      ⟨⟨henc.cameraCaches, fun _ _ => trivial⟩, rfl⟩, rfl⟩, rfl⟩

/-! ### The decoder -/

theorem length_appendDomain_ge (phase : CP2StatePhase) : 31 ≤ (appendDomain phase).length := by
  cases phase <;> decide +kernel

theorem length_ge_of_decodeSnapshotPayload {phase : CP2StatePhase}
    {spent spent' : Nat} (hs : spent ≤ limits.budget)
    (h : runAll (readSnapshot limits phase) "state snapshot payload has trailing bytes" payload
      spent = .ok (s, spent')) : 31 ≤ payload.length := by
  unfold runAll at h
  split at h
  · rename_i a s' hrun
    simp only [readSnapshot, run_bind_eq_ok] at hrun
    obtain ⟨u, s₁, hdomain, -⟩ := hrun
    obtain ⟨-, -, hcons, -⟩ := (expectBytes_reads (L := limits.budget) _ _ _ hs u s₁).mp hdomain
    have hlen := congrArg List.length hcons.rest
    have hge := length_appendDomain_ge phase
    simp only [constFormat, length_append] at hlen
    omega
  · cases h

/-- **The payload decoder accepts exactly the encodings of normalised snapshots within the
limits.** -/
theorem decodeSnapshotPayload_eq_ok {phase : CP2StatePhase}
    {spent spent' : Nat} (hs : spent ≤ limits.budget) :
    decodeSnapshotPayload limits payload phase spent = .ok (s, spent') ↔
      (s.phase = phase ∧ encodeSnapshotPayload s = .ok payload) ∧
        ((s.normalise = s ∧ SnapshotFits limits s) ∧
          payload.length ≤ limits.maximumPayloadBytes.toNat) ∧
        spent' = spent + snapshotCoefficients s ∧ spent' ≤ limits.budget := by
  unfold decodeSnapshotPayload
  rw [encodeSnapshotPayload_eq_ok limits]
  by_cases hlen : limits.maximumPayloadBytes.toNat < payload.length
  · rw [if_pos hlen]
    refine iff_of_false (fun h => by cases h) ?_
    rintro ⟨-, ⟨-, hle⟩, -⟩
    omega
  rw [if_neg hlen]
  by_cases hmax : 29 ≤ limits.maximumPayloadBytes.toNat
  · rw [(readSnapshot_reads limits hmax phase).runAll_eq_ok hs]
    constructor
    · rintro ⟨hphase, ⟨henc, hfits⟩, hbytes, hcost, hle⟩
      exact ⟨⟨hphase, henc, hbytes⟩, ⟨hfits, by omega⟩, hcost, hle⟩
    · rintro ⟨⟨hphase, henc, hbytes⟩, ⟨hfits, -⟩, hcost, hle⟩
      exact ⟨hphase, ⟨henc, hfits⟩, hbytes, hcost, hle⟩
  · -- No payload is that short, so a smaller limit admits none at all.
    refine iff_of_false ?_ ?_
    · intro h
      have := length_ge_of_decodeSnapshotPayload limits hs h
      omega
    · rintro ⟨⟨-, -, hbytes⟩, -⟩
      have hge := length_appendDomain_ge s.phase
      rw [hbytes, snapshotBytes, length_append] at hlen
      omega

/-! ### Normalised snapshots -/

theorem normaliseIdentity_idem (c l : Bool) (p : Binary64 × CP2LandmarkIdentity) :
    normaliseIdentity c l (normaliseIdentity c l p) = normaliseIdentity c l p := by
  cases c <;> cases l <;> rfl

theorem identityFormat_bytes_normalise (c l : Bool) (p : Binary64 × CP2LandmarkIdentity) :
    (identityFormat c l).bytes (normaliseIdentity c l p) = (identityFormat c l).bytes p := by
  cases c <;> cases l <;> rfl

theorem identityEncodable_normalise (c l : Bool) (p : Binary64 × CP2LandmarkIdentity) :
    IdentityEncodable c l (normaliseIdentity c l p) ↔ IdentityEncodable c l p := by
  cases c <;> cases l <;> simp [IdentityEncodable, normaliseIdentity]

theorem semanticBlockFormat_bytes_normalise (b : CP2SemanticStateBlock) :
    semanticBlockFormat.bytes b.normalise = semanticBlockFormat.bytes b := by
  show _ ++ (identityFormat b.kind.isClone b.kind.isLandmark).bytes
    (normaliseIdentity b.kind.isClone b.kind.isLandmark b.identity) = _
  rw [identityFormat_bytes_normalise]
  rfl

theorem activeTypeFormat_bytes_normalise (t : CP2ActiveStateType) :
    (activeTypeFormat limits).bytes t.normalise = (activeTypeFormat limits).bytes t := by
  show _ ++ (identityFormat t.tag.isClone t.tag.isLandmark).bytes
    (normaliseIdentity t.tag.isClone t.tag.isLandmark t.identity) ++ _ ++ _ = _
  rw [identityFormat_bytes_normalise]
  rfl

theorem CP2CompositeStateSnapshot.normalise_idem (s : CP2CompositeStateSnapshot) :
    s.normalise.normalise = s.normalise := by
  rw [normalise_eq_iff]
  constructor
  · intro b hb
    obtain ⟨b', -, rfl⟩ := mem_map.mp hb
    rw [CP2SemanticStateBlock.normalise_eq_iff]
    exact normaliseIdentity_idem _ _ _
  · intro t ht
    obtain ⟨t', -, rfl⟩ := mem_map.mp ht
    rw [CP2ActiveStateType.normalise_eq_iff]
    exact normaliseIdentity_idem _ _ _

theorem CP2CompositeStateSnapshot.encodable_normalise (s : CP2CompositeStateSnapshot) :
    s.normalise.Encodable ↔ s.Encodable := by
  have hsem : (∀ b ∈ s.normalise.semanticBlocks, b.Encodable) ↔
      ∀ b ∈ s.semanticBlocks, b.Encodable := by
    show (∀ b ∈ s.semanticBlocks.map _, _) ↔ _
    rw [forall_mem_map]
    exact forall₂_congr fun b _ => identityEncodable_normalise _ _ b.identity
  have hact : (∀ t ∈ s.normalise.activeTypes, t.Encodable) ↔ ∀ t ∈ s.activeTypes, t.Encodable := by
    show (∀ t ∈ s.activeTypes.map _, _) ↔ _
    rw [forall_mem_map]
    exact forall₂_congr fun t _ => identityEncodable_normalise _ _ t.identity
  constructor
  · rintro ⟨⟨h₁, h₁'⟩, ⟨h₂, h₂'⟩, h₃, h₄, h₅⟩
    exact ⟨⟨by simpa [normalise] using h₁, hsem.mp h₁'⟩, ⟨by simpa [normalise] using h₂, hact.mp h₂'⟩,
      h₃, h₄, h₅⟩
  · rintro ⟨⟨h₁, h₁'⟩, ⟨h₂, h₂'⟩, h₃, h₄, h₅⟩
    exact ⟨⟨by simpa [normalise] using h₁, hsem.mpr h₁'⟩,
      ⟨by simpa [normalise] using h₂, hact.mpr h₂'⟩, h₃, h₄, h₅⟩

theorem snapshotBytes_normalise (s : CP2CompositeStateSnapshot) :
    snapshotBytes limits s.normalise = snapshotBytes limits s := by
  have hsem : (listFormat limits semanticBlockFormat).bytes s.normalise.semanticBlocks =
      (listFormat limits semanticBlockFormat).bytes s.semanticBlocks := by
    simp [listFormat, Format.list, CP2CompositeStateSnapshot.normalise, flatMap_map,
      semanticBlockFormat_bytes_normalise]
  have hact : (listFormat limits (activeTypeFormat limits)).bytes s.normalise.activeTypes =
      (listFormat limits (activeTypeFormat limits)).bytes s.activeTypes := by
    simp [listFormat, Format.list, CP2CompositeStateSnapshot.normalise, flatMap_map,
      activeTypeFormat_bytes_normalise]
  unfold snapshotBytes
  rw [hsem, hact]
  rfl

/-- **A snapshot and its normalisation have the same encoding.** -/
theorem encodeSnapshotPayload_normalise_eq_ok :
    encodeSnapshotPayload s.normalise = .ok payload ↔ encodeSnapshotPayload s = .ok payload := by
  rw [encodeSnapshotPayload_eq_ok {}, encodeSnapshotPayload_eq_ok {},
    encodable_normalise, snapshotBytes_normalise]

theorem snapshotFits_normalise (h : SnapshotFits limits s) :
    SnapshotFits limits s.normalise where
  covariance := h.covariance
  semanticBlocks := by simpa [CP2CompositeStateSnapshot.normalise] using h.semanticBlocks
  activeTypes := by simpa [CP2CompositeStateSnapshot.normalise] using h.activeTypes
  activeMatrices := by
    intro t ht
    obtain ⟨t', ht', rfl⟩ := mem_map.mp ht
    exact h.activeMatrices t' ht'
  fixedImuCalibrations := h.fixedImuCalibrations
  fixedImuMatrices := h.fixedImuMatrices
  timeOffsetNominal := h.timeOffsetNominal
  timeOffsetFej := h.timeOffsetFej
  cameraCalibrations := h.cameraCalibrations
  cameraMatrices := h.cameraMatrices
  cameraCaches := h.cameraCaches
  cacheMatrices := h.cacheMatrices

theorem snapshotCoefficients_normalise (s : CP2CompositeStateSnapshot) :
    snapshotCoefficients s.normalise = snapshotCoefficients s := by
  simp [snapshotCoefficients, CP2CompositeStateSnapshot.normalise, List.map_map,
    Function.comp_def, CP2ActiveStateType.normalise]

end Snapshot

end Bravo.Trace
