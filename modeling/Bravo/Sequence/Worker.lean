import Bravo.Sequence.Association

/-! # The direct worker and its transport

The integer fields of a request and of a response of the direct-math worker, the checks of
`decode_sequence_request` and `decode_sequence_response`, and `evaluate_sequence_request`, which decodes what
it is about to return. The numerical stack and the checks of the arrays it produces are parameters. The worker
joins rows with `cp2_sequence_math`, its decoder with the codec's own copy; `sequence_joins_agree` says that
the second never refuses what the first has made.
-/

namespace Bravo.Sequence

open Bravo.LowerBound List TimestampAssociation

def sequences : List String := ["MH_01_easy", "MH_03_medium", "V1_01_easy"]

def maxPoseCount : Nat := 1000000

def maxArrayElements : Nat := 9 * maxPoseCount

def codecFail {α : Type} (message : String) : Except Error α := .error (.sequenceMathCodecError message)

/-! ## Arrays of bits -/

structure ArrayRecord where
  shape : List Nat
  bits : List String
deriving DecidableEq, Repr

def hexDigit (c : Char) : Option Nat :=
  if '0' ≤ c ∧ c ≤ '9' then some (c.toNat - 0x30)
  else if 'a' ≤ c ∧ c ≤ 'f' then some (c.toNat - 0x61 + 10)
  else none

def hexNumber (s : String) : Option Nat := s.toList.foldlM (fun n c => (hexDigit c).map (16 * n + ·)) 0

/-- `bits_to_f64`: sixteen lowercase digits whose exponent is not all ones. -/
def bitsToF64 (label value : String) : Except Error Nat :=
  match hexNumber value with
  | some n =>
    if value.toList.length ≠ 16 then codecFail (label ++ " must be exactly 16 lowercase hexadecimal digits")
    else if n / 2 ^ 52 % 2 ^ 11 = 2 ^ 11 - 1 then codecFail (label ++ " encodes a nonfinite binary64")
    else .ok n
  | none => codecFail (label ++ " must be exactly 16 lowercase hexadecimal digits")

def arrayRecord (expectedShape : List Nat) (label : String) (record : ArrayRecord) : Except Error ArrayRecord :=
  if record.shape ≠ expectedShape then codecFail (label ++ " shape differs")
  else if maxArrayElements < expectedShape.prod then codecFail (label ++ " element count exceeds its frozen bound")
  else if record.bits.length ≠ expectedShape.prod then
    codecFail (label ++ " bit population differs from its shape")
  else do
    for (bits, index) in record.bits.zipIdx do
      let _ ← bitsToF64 (label ++ " bits[" ++ toString index ++ "]") bits
    return record

/-! ## Requests -/

/-- `_timestamps` of the codec -/
def boundedTimestamps (label : String) (unique : Bool) (values : List ℤ) : Except Error (List ℤ) :=
  if maxPoseCount < values.length then codecFail (label ++ " must be one bounded timestamp array")
  else if values.all isU64 then
    if adjacent (fun a b => decide (b < a ∨ unique ∧ b = a)) values then
      codecFail (label ++ " timestamps reverse or violate uniqueness")
    else .ok values
  else codecFail (label ++ " timestamp is not u64")

structure PoseRecord where
  timestampsNs : List ℤ
  positions : ArrayRecord
  quaternionsXyzw : ArrayRecord
deriving DecidableEq, Repr

structure RequestRecord where
  schemaVersion : ℤ
  recordType : String
  sequenceIndex : ℤ
  sequenceId : String
  nullspace : PoseRecord
  schur : PoseRecord
  groundTruth : PoseRecord
deriving DecidableEq, Repr

structure SequenceMathRequest where
  sequenceIndex : Nat
  sequenceId : String
  nullspace : PoseRecord
  schur : PoseRecord
  groundTruth : PoseRecord
  sha256 : String
deriving DecidableEq, Repr

def poseRecord (label positions quaternions : String) (unique : Bool) (record : PoseRecord) :
    Except Error PoseRecord := do
  let stamps ← boundedTimestamps label unique record.timestampsNs
  let positions ← arrayRecord [stamps.length, 3] positions record.positions
  let quaternions ← arrayRecord [stamps.length, 4] quaternions record.quaternionsXyzw
  return ⟨stamps, positions, quaternions⟩

/-- `decode_sequence_request` of a parsed document -/
def decodeSequenceRequest (sha256 : String) (record : RequestRecord) : Except Error SequenceMathRequest :=
  if record.schemaVersion ≠ 1 ∨ record.recordType ≠ "cp2_d_sequence_math_request" then
    codecFail "sequence-math request identity differs"
  else if isU64 record.sequenceIndex then
    if sequences[record.sequenceIndex.toNat]? ≠ some record.sequenceId then
      codecFail "sequence-math request sequence differs from the frozen inventory"
    else do
      let nullspace ← poseRecord "nullspace" "nullspace positions" "nullspace stored quaternions" true record.nullspace
      let schur ← poseRecord "schur" "schur positions" "schur stored quaternions" true record.schur
      let groundTruth ← poseRecord "ground truth" "ground-truth positions" "ground-truth quaternions" false
        record.groundTruth
      return ⟨record.sequenceIndex.toNat, record.sequenceId, nullspace, schur, groundTruth, sha256⟩
  else codecFail "sequence index is not u64"

/-! ## Responses -/

structure AssociationRecord where
  estimatorIndex : ℤ
  estimatorTimestampNs : ℤ
  groundTruthIndex : ℤ
  groundTruthTimestampNs : ℤ
  absoluteDifferenceNs : ℤ
deriving DecidableEq, Repr

def TimestampAssociation.asRecord (row : TimestampAssociation) : AssociationRecord :=
  ⟨row.estimatorIndex, row.estimatorTimestampNs, row.groundTruthIndex, row.groundTruthTimestampNs,
    row.absoluteDifferenceNs⟩

def AssociationRecord.fields (record : AssociationRecord) : List (String × ℤ) :=
  [("estimator_index", record.estimatorIndex), ("estimator_timestamp_ns", record.estimatorTimestampNs),
    ("ground_truth_index", record.groundTruthIndex), ("ground_truth_timestamp_ns", record.groundTruthTimestampNs),
    ("absolute_difference_ns", record.absoluteDifferenceNs)]

section Response

variable {φ : Type}

/-- A response; `arrays` is what the numerical stack contributes. -/
structure ResponseRecord (φ : Type) where
  schemaVersion : ℤ
  recordType : String
  sequenceIndex : ℤ
  sequenceId : String
  requestSha256 : String
  sharedTimestampsNs : List ℤ
  associations : List AssociationRecord
  sourceCount : ℤ
  appliedIdenticallyToBothModes : Bool
  arrays : φ

def checkAssociations : List AssociationRecord → List TimestampAssociation → Except Error (List AssociationRecord)
  | [], _ => return []
  | record :: rest, expected =>
    match record.fields.find? fun field => !isU64 field.2 with
    | some (key, _) => codecFail ("association " ++ key ++ " is not u64")
    | none =>
      match expected with
      | [] => .error .indexError
      | row :: expected =>
        if record ≠ row.asRecord then
          codecFail "response association differs from independent nearest-row replay"
        else do
          let retained ← checkAssociations rest expected
          return record :: retained

/-- `decode_sequence_response` of a parsed document -/
def decodeSequenceResponse (checkArrays : SequenceMathRequest → List AssociationRecord → φ → Except Error Unit)
    (sha256 : String) (requestRecord : RequestRecord) (record : ResponseRecord φ) : Except Error Unit := do
  let request ← decodeSequenceRequest sha256 requestRecord
  if record.schemaVersion ≠ 1 ∨ record.recordType ≠ "cp2_d_sequence_math_response" then
    codecFail "sequence-math response identity differs"
  else if record.sequenceIndex ≠ request.sequenceIndex ∨ record.sequenceId ≠ request.sequenceId ∨
      record.requestSha256 ≠ request.sha256 then
    codecFail "sequence-math response does not bind its exact request"
  else do
    let fullShared := shared request.nullspace.timestampsNs request.schur.timestampsNs
    let expected ← nearestAssociations fullShared request.groundTruth.timestampsNs
    let kept ← boundedTimestamps "shared" true record.sharedTimestampsNs
    if kept ≠ expected.map (·.estimatorTimestampNs) ∨ kept.length < 3 then
      codecFail "response shared timestamps are not the exact associated subset of the complete mode intersection"
    else if record.associations.length ≠ kept.length then
      codecFail "response association population differs"
    else do
      let retained ← checkAssociations record.associations expected
      if record.sourceCount ≠ kept.length ∨ !record.appliedIdenticallyToBothModes then
        codecFail "response alignment population/reuse marker differs"
      else checkArrays request retained record.arrays

/-! ## The worker -/

def workerFail {α : Type} (message : String) : Except Error α := .error (.sequenceMathWorkerError message)

/-- `except SequenceMathCodecError as exc: raise SequenceMathWorkerError(prefix + str(exc))` -/
def relabel {α : Type} (before : String) : Except Error α → Except Error α
  | .error (.sequenceMathCodecError message) => workerFail (before ++ message)
  | result => result

/-- `evaluate_sequence_request` up to the response it encodes. `validate` is the check of the ground-truth
quaternions, `numerics` everything behind the join. -/
def respond (validate : SequenceMathRequest → Except Error Unit)
    (numerics : SequenceMathRequest → List ℤ → List TimestampAssociation → Except Error φ)
    (sha256 : String) (requestRecord : RequestRecord) : Except Error (ResponseRecord φ) := do
  let request ← relabel "" (decodeSequenceRequest sha256 requestRecord)
  validate request
  let fullShared ← sharedTimestampIntersection request.nullspace.timestampsNs request.schur.timestampsNs
  if fullShared.length < 3 then workerFail "shared trajectory population contains fewer than three poses"
  else do
    let associations ← associateNearestGroundTruth fullShared request.groundTruth.timestampsNs
    if associations.length < 3 then workerFail "associated shared trajectory contains fewer than three poses"
    else do
      let kept := associations.map (·.estimatorTimestampNs)
      let arrays ← numerics request kept associations
      return ⟨1, "cp2_d_sequence_math_response", request.sequenceIndex, request.sequenceId, sha256, kept,
        associations.map TimestampAssociation.asRecord, kept.length, true, arrays⟩

def selfCheck (checkArrays : SequenceMathRequest → List AssociationRecord → φ → Except Error Unit)
    (sha256 : String) (requestRecord : RequestRecord) (response : ResponseRecord φ) :
    Except Error (ResponseRecord φ) := do
  relabel "self-invalid direct response: " (decodeSequenceResponse checkArrays sha256 requestRecord response)
  return response

def evaluateSequenceRequest (validate : SequenceMathRequest → Except Error Unit)
    (numerics : SequenceMathRequest → List ℤ → List TimestampAssociation → Except Error φ)
    (checkArrays : SequenceMathRequest → List AssociationRecord → φ → Except Error Unit)
    (sha256 : String) (requestRecord : RequestRecord) : Except Error (ResponseRecord φ) := do
  let response ← respond validate numerics sha256 requestRecord
  selfCheck checkArrays sha256 requestRecord response

/-! ## What a request promises -/

theorem boundedTimestamps_ok {label : String} {unique : Bool} {values out : List ℤ}
    (h : boundedTimestamps label unique values = .ok out) :
    out = values ∧ values.length ≤ maxPoseCount ∧ Nondecreasing values ∧ (unique = true → Increasing values) := by
  unfold boundedTimestamps at h
  split_ifs at h with hlen hu64 hadjacent
  · exact absurd h nofun
  · exact absurd h nofun
  · obtain rfl := Except.ok.inj h
    have hall := all_isU64.mp hu64
    rw [Bool.not_eq_true] at hadjacent
    refine ⟨rfl, not_lt.mp hlen, ⟨hall, ?_⟩, fun hunique => ⟨hall, ?_⟩⟩
    · cases unique with
      | true =>
        refine ((adjacent_eq_false (r := (· < ·)) ?_ _).mp hadjacent).imp le_of_lt
        intro a b
        simp only [true_and, decide_eq_false_iff_not]
        omega
      | false =>
        refine (adjacent_eq_false (r := (· ≤ ·)) ?_ _).mp hadjacent
        intro a b
        simp only [Bool.false_eq_true, false_and, or_false, decide_eq_false_iff_not, not_lt]
    · subst hunique
      refine (adjacent_eq_false (r := (· < ·)) ?_ _).mp hadjacent
      intro a b
      simp only [true_and, decide_eq_false_iff_not]
      omega
  · exact absurd h nofun

theorem boundedTimestamps_eq_ok (label : String) {values : List ℤ} (h : Increasing values)
    (hlen : values.length ≤ maxPoseCount) : boundedTimestamps label true values = .ok values := by
  have hadjacent : adjacent (fun a b => decide (b < a ∨ true = true ∧ b = a)) values = false := by
    refine (adjacent_eq_false (r := (· < ·)) ?_ _).mpr h.sorted
    intro a b
    simp only [true_and, decide_eq_false_iff_not]
    omega
  rw [boundedTimestamps, if_neg (not_lt.mpr hlen), if_pos (all_isU64.mpr h.u64), hadjacent]
  rfl

theorem poseRecord_ok {label positions quaternions : String} {unique : Bool} {record out : PoseRecord}
    (h : poseRecord label positions quaternions unique record = .ok out) :
    out.timestampsNs.length ≤ maxPoseCount ∧ Nondecreasing out.timestampsNs ∧
      (unique = true → Increasing out.timestampsNs) := by
  unfold poseRecord at h
  cases hstamps : boundedTimestamps label unique record.timestampsNs with
  | error e => simp [hstamps, bind, Except.bind] at h
  | ok stamps =>
    obtain ⟨rfl, hspec⟩ := boundedTimestamps_ok hstamps
    rw [hstamps] at h
    simp only [bind, Except.bind] at h
    split at h
    · exact absurd h nofun
    · split at h
      · exact absurd h nofun
      · obtain rfl := Except.ok.inj h
        exact hspec

/-- What `decode_sequence_request` has checked of the timestamps. -/
structure Accepted (request : SequenceMathRequest) : Prop where
  nullspace : Increasing request.nullspace.timestampsNs
  schur : Increasing request.schur.timestampsNs
  groundTruth : Nondecreasing request.groundTruth.timestampsNs
  nullspace_length : request.nullspace.timestampsNs.length ≤ maxPoseCount
  groundTruth_length : request.groundTruth.timestampsNs.length ≤ maxPoseCount

variable {request : SequenceMathRequest}

theorem decodeSequenceRequest_accepted {sha256 : String} {record : RequestRecord}
    (h : decodeSequenceRequest sha256 record = .ok request) : Accepted request ∧ request.sha256 = sha256 := by
  unfold decodeSequenceRequest at h
  split_ifs at h
  · exact absurd h nofun
  · exact absurd h nofun
  · simp only [bind, Except.bind] at h
    split at h
    · exact absurd h nofun
    · next nullspace hnull =>
        split at h
        · exact absurd h nofun
        · next schur hschur =>
            split at h
            · exact absurd h nofun
            · next groundTruth hground =>
                obtain rfl := Except.ok.inj h
                exact ⟨⟨(poseRecord_ok hnull).2.2 rfl, (poseRecord_ok hschur).2.2 rfl, (poseRecord_ok hground).2.1,
                  (poseRecord_ok hnull).1, (poseRecord_ok hground).1⟩, rfl⟩
  · exact absurd h nofun

/-! ## The rows of a join -/

section Rows

variable {estimator groundTruth : List ℤ} {rows : List TimestampAssociation}

theorem NearestRows.kept_increasing (h : NearestRows estimator groundTruth rows) (he : Increasing estimator) :
    Increasing (rows.map (·.estimatorTimestampNs)) := by
  refine ⟨fun v hv => ?_, pairwise_map.mpr (h.ordered.imp_of_mem fun {row row'} hrow hrow' hlt => ?_)⟩
  · obtain ⟨row, hrow, rfl⟩ := mem_map.mp hv
    exact he.u64 _ (mem_of_getElem? (h.fields row hrow).1)
  · obtain ⟨hlen, hget⟩ := List.getElem?_eq_some_iff.mp (h.fields row hrow).1
    obtain ⟨hlen', hget'⟩ := List.getElem?_eq_some_iff.mp (h.fields row' hrow').1
    rw [← hget, ← hget']
    exact pairwise_iff_getElem.mp he.sorted _ _ hlen hlen' hlt

theorem NearestRows.length_le (h : NearestRows estimator groundTruth rows) (he : Increasing estimator) :
    rows.length ≤ estimator.length := by
  have hnodup : (rows.map (·.estimatorTimestampNs)).Nodup := (h.kept_increasing he).sorted.imp ne_of_lt
  have hsubset : rows.map (·.estimatorTimestampNs) ⊆ estimator := by
    intro v hv
    obtain ⟨row, hrow, rfl⟩ := mem_map.mp hv
    exact mem_of_getElem? (h.fields row hrow).1
  have hle := (subperm_of_subset hnodup hsubset).length_le
  rwa [length_map] at hle

theorem NearestRows.fields_u64 (h : NearestRows estimator groundTruth rows) (he : Increasing estimator)
    (hg : Nondecreasing groundTruth) (helen : estimator.length ≤ maxPoseCount)
    (hglen : groundTruth.length ≤ maxPoseCount) : ∀ row ∈ rows, ∀ field ∈ row.asRecord.fields, isU64 field.2 = true := by
  intro row hrow field hfield
  obtain ⟨hstamp, hground, hdiff⟩ := h.fields row hrow
  have hi : row.estimatorIndex < maxPoseCount :=
    lt_of_lt_of_le (List.getElem?_eq_some_iff.mp hstamp).1 helen
  have hj : row.groundTruthIndex < maxPoseCount :=
    lt_of_lt_of_le (List.getElem?_eq_some_iff.mp hground).1 hglen
  have ht := he.u64 _ (mem_of_getElem? hstamp)
  have hb := hg.u64 _ (mem_of_getElem? hground)
  unfold maxPoseCount at hi hj
  have hd : 0 ≤ row.absoluteDifferenceNs ∧ row.absoluteDifferenceNs ≤ u64Max := by
    rw [hdiff]
    exact ⟨abs_nonneg _, abs_le.mpr ⟨by omega, by omega⟩⟩
  simp only [AssociationRecord.fields, asRecord, mem_cons, not_mem_nil, or_false] at hfield
  unfold isU64 u64Max at *
  rcases hfield with rfl | rfl | rfl | rfl | rfl <;> simp only [decide_eq_true_eq] <;> omega

theorem checkAssociations_asRecord : ∀ rows : List TimestampAssociation,
    (∀ row ∈ rows, ∀ field ∈ row.asRecord.fields, isU64 field.2 = true) →
      checkAssociations (rows.map TimestampAssociation.asRecord) rows =
        .ok (rows.map TimestampAssociation.asRecord)
  | [], _ => rfl
  | row :: rows, h => by
    have hfields : row.asRecord.fields.find? (fun field => !isU64 field.2) = none :=
      find?_eq_none.mpr fun field hfield => by simp [h row mem_cons_self field hfield]
    rw [map_cons, checkAssociations, hfields]
    simp only [ne_eq, not_true_eq_false, if_false, bind, Except.bind,
      checkAssociations_asRecord rows fun r hr => h r (mem_cons_of_mem _ hr)]
    rfl

end Rows

/-! ## The response of an accepted request -/

theorem relabel_eq_ok {α : Type} {before : String} {x : Except Error α} {a : α} (h : relabel before x = .ok a) :
    x = .ok a := by
  unfold relabel at h
  split at h
  · exact absurd h nofun
  · exact h

structure Joined (numerics : SequenceMathRequest → List ℤ → List TimestampAssociation → Except Error φ)
    (sha256 : String) (requestRecord : RequestRecord) (request : SequenceMathRequest)
    (rows : List TimestampAssociation) (response : ResponseRecord φ) : Prop where
  decoded : decodeSequenceRequest sha256 requestRecord = .ok request
  nearest : NearestRows (shared request.nullspace.timestampsNs request.schur.timestampsNs)
    request.groundTruth.timestampsNs rows
  replayed : nearestAssociations (shared request.nullspace.timestampsNs request.schur.timestampsNs)
    request.groundTruth.timestampsNs = .ok rows
  enough : 3 ≤ rows.length
  numerics : numerics request (rows.map (·.estimatorTimestampNs)) rows = .ok response.arrays
  response : response = ⟨1, "cp2_d_sequence_math_response", request.sequenceIndex, request.sequenceId, sha256,
    rows.map (·.estimatorTimestampNs), rows.map TimestampAssociation.asRecord, rows.length, true, response.arrays⟩

variable {validate : SequenceMathRequest → Except Error Unit}
  {numerics : SequenceMathRequest → List ℤ → List TimestampAssociation → Except Error φ}
  {sha256 : String} {requestRecord : RequestRecord} {response : ResponseRecord φ}

theorem Accepted.shared {request : SequenceMathRequest} (h : Accepted request) :
    Increasing (shared request.nullspace.timestampsNs request.schur.timestampsNs) :=
  h.nullspace.sublist (intersect_sublist _ _)

theorem Accepted.shared_length (h : Accepted request) :
    (Sequence.shared request.nullspace.timestampsNs request.schur.timestampsNs).length ≤ maxPoseCount :=
  le_trans (intersect_sublist _ _).length_le h.nullspace_length

theorem respond_joined (h : respond validate numerics sha256 requestRecord = .ok response) :
    ∃ request rows, Joined numerics sha256 requestRecord request rows response := by
  unfold respond at h
  cases hdecode : relabel "" (decodeSequenceRequest sha256 requestRecord) with
  | error e => simp [hdecode, bind, Except.bind] at h
  | ok request =>
    have hdecoded := relabel_eq_ok hdecode
    obtain ⟨haccepted, -⟩ := decodeSequenceRequest_accepted hdecoded
    cases hvalid : validate request with
    | error e => simp [hdecode, hvalid, bind, Except.bind] at h
    | ok _ =>
      have hshared := sharedTimestampIntersection_eq haccepted.nullspace haccepted.schur
      simp only [hdecode, hvalid, hshared, bind, Except.bind] at h
      split_ifs at h with hfew
      · exact absurd h nofun
      · have hsome : shared request.nullspace.timestampsNs request.schur.timestampsNs ≠ [] := by
          intro hnil
          rw [hnil] at hfew
          exact hfew (by decide)
        have hne : request.groundTruth.timestampsNs ≠ [] := by
          intro hnil
          rw [hnil, associateNearestGroundTruth_nil haccepted.shared hsome] at h
          exact absurd h nofun
        obtain ⟨rows, hrows, hnearest⟩ :=
          associateNearestGroundTruth_spec haccepted.shared haccepted.groundTruth hne
        simp only [hrows] at h
        split_ifs at h with hfewer
        · exact absurd h nofun
        · cases harrays : numerics request (rows.map (·.estimatorTimestampNs)) rows with
          | error e => simp [harrays] at h
          | ok arrays =>
            simp only [harrays] at h
            obtain rfl := Except.ok.inj h
            refine ⟨request, rows, hdecoded, hnearest, ?_, not_lt.mp hfewer, harrays, ?_⟩
            · rw [nearestAssociations_eq haccepted.shared haccepted.groundTruth hne, hrows]
            · simp

theorem decodeSequenceResponse_joined {rows : List TimestampAssociation}
    (checkArrays : SequenceMathRequest → List AssociationRecord → φ → Except Error Unit)
    (h : Joined numerics sha256 requestRecord request rows response) :
    decodeSequenceResponse checkArrays sha256 requestRecord response =
      checkArrays request (rows.map TimestampAssociation.asRecord) response.arrays := by
  obtain ⟨haccepted, hsha⟩ := decodeSequenceRequest_accepted h.decoded
  have hkept := boundedTimestamps_eq_ok "shared" (h.nearest.kept_increasing haccepted.shared) (by
    rw [length_map]
    exact le_trans (h.nearest.length_le haccepted.shared) haccepted.shared_length)
  have hassociations := checkAssociations_asRecord rows (h.nearest.fields_u64 haccepted.shared
    haccepted.groundTruth haccepted.shared_length haccepted.groundTruth_length)
  rw [h.response]
  simp only [decodeSequenceResponse, h.decoded, h.replayed, hkept, hassociations, bind, Except.bind, hsha,
    ne_eq, not_true_eq_false, or_self, if_false, length_map, false_or, Bool.not_true, Bool.false_eq_true]
  rw [if_neg (not_lt.mpr h.enough)]

end Response

/-! ## The main results -/

/-- Both associations are the nearest rows, both intersections the sorted common timestamps, and what the
worker's own check refuses is never one of the integer fields. -/
theorem sequence_joins_agree {φ : Type} (validate : SequenceMathRequest → Except Error Unit)
    (numerics : SequenceMathRequest → List ℤ → List TimestampAssociation → Except Error φ)
    (checkArrays : SequenceMathRequest → List AssociationRecord → φ → Except Error Unit) :
    (∀ estimator groundTruth : List ℤ, Increasing estimator → Nondecreasing groundTruth → groundTruth ≠ [] →
      ∃ rows, associateNearestGroundTruth estimator groundTruth = .ok rows ∧
        nearestAssociations estimator groundTruth = .ok rows ∧ NearestRows estimator groundTruth rows) ∧
    (∀ nullspace schur : List ℤ, Increasing nullspace → Increasing schur →
      ∃ common, sharedTimestampIntersection nullspace schur = .ok common ∧ shared nullspace schur = common ∧
        common.Pairwise (· < ·) ∧ ∀ t, t ∈ common ↔ t ∈ nullspace ∧ t ∈ schur) ∧
    ∀ (sha256 : String) (requestRecord : RequestRecord) (response : ResponseRecord φ),
      respond validate numerics sha256 requestRecord = .ok response →
      ∃ request, decodeSequenceRequest sha256 requestRecord = .ok request ∧
        evaluateSequenceRequest validate numerics checkArrays sha256 requestRecord =
          match checkArrays request response.associations response.arrays with
          | .error (.sequenceMathCodecError message) => workerFail ("self-invalid direct response: " ++ message)
          | .error e => .error e
          | .ok _ => .ok response := by
  refine ⟨fun estimator groundTruth he hg hne => ?_, fun nullspace schur hn hs => ?_,
    fun sha256 requestRecord response h => ?_⟩
  · obtain ⟨rows, hrows, hnearest⟩ := associateNearestGroundTruth_spec he hg hne
    exact ⟨rows, hrows, (nearestAssociations_eq he hg hne).trans hrows, hnearest⟩
  · exact ⟨_, sharedTimestampIntersection_eq hn hs, rfl, hn.sorted.sublist (intersect_sublist _ _),
      mem_intersect hn.sorted hs.sorted⟩
  · obtain ⟨request, rows, hjoined⟩ := respond_joined h
    refine ⟨request, hjoined.decoded, ?_⟩
    have hassociations : response.associations = rows.map asRecord := by
      rw [hjoined.response]
    simp only [evaluateSequenceRequest, h, selfCheck, bind, Except.bind,
      decodeSequenceResponse_joined checkArrays hjoined, hassociations]
    cases hcheck : checkArrays request (rows.map asRecord) response.arrays with
    | ok _ => rfl
    | error e => cases e <;> rfl

def threePoses : PoseRecord where
  timestampsNs := [10, 20, 30]
  positions := ⟨[3, 3], replicate 9 "3ff0000000000000"⟩
  quaternionsXyzw := ⟨[3, 4], replicate 12 "3fe0000000000000"⟩

/-- Two rows of the ground truth at one distance, and a request that is answered. -/
theorem sequence_joins_agree_tie :
    (∃ rows, associateNearestGroundTruth [10, 20] [5, 15, 15, 30000000] = .ok rows ∧
      nearestAssociations [10, 20] [5, 15, 15, 30000000] = .ok rows ∧
      NearestRows [10, 20] [5, 15, 15, 30000000] rows) ∧
    let record : RequestRecord :=
      ⟨1, "cp2_d_sequence_math_request", 1, "MH_03_medium", threePoses, threePoses, threePoses⟩
    ∃ response, respond (fun _ => .ok ()) (fun _ _ _ => .ok ()) "0f" record = .ok response ∧
      evaluateSequenceRequest (fun _ => .ok ()) (fun _ _ _ => .ok ()) (fun _ _ _ => .ok ()) "0f" record =
        .ok response := by
  have hagree := @sequence_joins_agree Unit (fun _ => .ok ()) (fun _ _ _ => .ok ()) fun _ _ _ => .ok ()
  refine ⟨hagree.1 _ _ ⟨by decide, by decide⟩ ⟨by decide, by decide⟩ (by decide), ?_⟩
  intro record
  have hanswered : (respond (fun _ => .ok ()) (fun _ _ _ => .ok ()) "0f" record).toBool = true := by decide +kernel
  cases hrespond : respond (fun _ => .ok ()) (fun _ _ _ => .ok ()) "0f" record with
  | error e => simp [hrespond, Except.toBool] at hanswered
  | ok response =>
    obtain ⟨_, -, hevaluate⟩ := hagree.2.2 "0f" record response hrespond
    exact ⟨response, rfl, hevaluate⟩

end Bravo.Sequence
