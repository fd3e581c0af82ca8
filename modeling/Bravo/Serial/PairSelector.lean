import Bravo.Basic.FirstForward
import Bravo.Serial.RuntimeTrace

/-! # Serial pairing, in C++ and in Python

`CP2SerialPairSelector::Select` and `_select_pair_evidence` of `cp2_pair_index_extract.py`. Both scan
the filtered messages once and join a camera message with the first later one of the other camera. They
are two runs of one first-forward matching (`selectAt_step`, `pyStep_eq`), which gives the contract of
the pairs and the equality of the rows (`pairing_contract`). The Python text asks in addition that the
record times of camera 0 advance from the first pair to the last.
-/

namespace Bravo.Serial

open Bravo.FirstForward List

/-! ## The selector -/

/-- `CP2SerialMessageKind`, with the values outside the enumeration. -/
inductive CP2SerialMessageKind
  | kImu
  | kCamera0
  | kCamera1
  | other (raw : UInt8)
deriving DecidableEq, Repr

/-- `cp2_serial_message_kind_valid` -/
def CP2SerialMessageKind.valid : CP2SerialMessageKind → Bool
  | .other _ => false
  | _ => true

/-- `cp2_serial_message_is_camera` -/
def CP2SerialMessageKind.isCamera (kind : CP2SerialMessageKind) : Bool :=
  kind == .kCamera0 || kind == .kCamera1

/-- `cp2_serial_camera_id` -/
def CP2SerialMessageKind.cameraId (kind : CP2SerialMessageKind) : UInt64 :=
  if kind = .kCamera0 then 0 else 1

structure CP2SerialFilteredMessage where
  kind : CP2SerialMessageKind := .kImu
  recordTimeNs : UInt64 := 0
  headerTimeNs : UInt64 := 0
deriving DecidableEq, Repr

inductive CP2SerialPairingStatus
  | kAccepted
  | kInvalidMessageKind
  | kRecordTimeReversed
  | kPairCountOverflow
  | kAllocationFailure
deriving DecidableEq, Repr

structure CP2SerialPairingResult where
  status : CP2SerialPairingStatus := .kAllocationFailure
  pairs : List CP2SerialPair := []
deriving DecidableEq, Repr

/-- `cp2_absolute_u64_difference` -/
def absoluteU64Difference (left right : UInt64) : UInt64 :=
  if right ≤ left then left - right else right - left

section Select

variable (sequenceIndex : UInt64) (messages : List CP2SerialFilteredMessage)

/-- `messages[index]` -/
def messageAt (index : Nat) : CP2SerialFilteredMessage := messages.getD index {}

def checkRecords (previous : Option UInt64) :
    List CP2SerialFilteredMessage → Option CP2SerialPairingStatus
  | [] => none
  | message :: rest =>
    if !message.kind.valid then some .kInvalidMessageKind
    else if previous.any fun time => decide (message.recordTimeNs < time) then
      some .kRecordTimeReversed
    else checkRecords (some message.recordTimeNs) rest

/-- The loop for the candidate; `messages.size()` when there is none. -/
def candidateIndex (otherKind : CP2SerialMessageKind) (anchorIndex : Nat) : Nat :=
  ((List.range' (anchorIndex + 1) (messages.length - (anchorIndex + 1))).find? fun index =>
    (messageAt messages index).kind == otherKind).getD messages.length

def makePair (pairIndex : UInt64) (anchorIndex candidateIndex : Nat) : CP2SerialPair :=
  let anchor := messageAt messages anchorIndex
  let candidate := messageAt messages candidateIndex
  let anchorIsCam0 := anchor.kind == .kCamera0
  let cam0Index := if anchorIsCam0 then anchorIndex else candidateIndex
  let cam1Index := if anchorIsCam0 then candidateIndex else anchorIndex
  let cam0 := messageAt messages cam0Index
  let cam1 := messageAt messages cam1Index
  { sequenceIndex := sequenceIndex
    pairIndex := pairIndex
    anchorFilteredIndex := UInt64.ofNat anchorIndex
    anchorCameraId := anchor.kind.cameraId
    cam0FilteredIndex := UInt64.ofNat cam0Index
    cam1FilteredIndex := UInt64.ofNat cam1Index
    cam0RecordTimeNs := cam0.recordTimeNs
    cam1RecordTimeNs := cam1.recordTimeNs
    cam0HeaderTimeNs := cam0.headerTimeNs
    cam1HeaderTimeNs := cam1.headerTimeNs
    cameraTimestampNs := cam0.headerTimeNs
    absoluteRecordDeltaNs := absoluteU64Difference anchor.recordTimeNs candidate.recordTimeNs }

structure PairScan where
  used : Nat → Bool := fun _ => false
  selected : List CP2SerialPair := []
  nextPairIndex : UInt64 := 0

/-- The body of the second loop. -/
def selectAt (scan : PairScan) (anchorIndex : Nat) : Except CP2SerialPairingStatus PairScan :=
  let anchor := messageAt messages anchorIndex
  if !anchor.kind.isCamera || scan.used anchorIndex then .ok scan
  else
    let otherKind := if anchor.kind = .kCamera0 then .kCamera1 else .kCamera0
    let candidateIndex := candidateIndex messages otherKind anchorIndex
    if candidateIndex = messages.length ∨ scan.used candidateIndex = true then .ok scan
    else
      let candidate := messageAt messages candidateIndex
      let absoluteDelta := absoluteU64Difference anchor.recordTimeNs candidate.recordTimeNs
      if strictMaximumRecordDeltaNs ≤ absoluteDelta then .ok scan
      else if scan.nextPairIndex = 18446744073709551615 then .error .kPairCountOverflow
      else
        .ok {
          used := fun index => index == anchorIndex || index == candidateIndex || scan.used index
          selected := scan.selected ++
            [makePair sequenceIndex messages scan.nextPairIndex anchorIndex candidateIndex]
          nextPairIndex := scan.nextPairIndex + 1 }

/-- `CP2SerialPairSelector::Select`; the flag says whether its vectors can be allocated. -/
def select (allocates : Bool) : CP2SerialPairingResult :=
  match checkRecords none messages with
  | some status => ⟨status, []⟩
  | none =>
    if !allocates then ⟨.kAllocationFailure, []⟩
    else
      match (List.range messages.length).foldlM (selectAt sequenceIndex messages) {} with
      | .error status => ⟨status, []⟩
      | .ok scan => ⟨.kAccepted, scan.selected⟩

end Select

/-! ## The extractor -/

/-- A `(kind, record_time, header_time)` tuple. -/
structure PyMessage where
  kind : String
  recordTime : Int
  headerTime : Int
deriving DecidableEq, Repr

/-- A `pair_index` row, without its schema version and record type. -/
structure PairRow where
  sequenceIndex : Int
  sequenceId : String
  pairIndex : Nat
  anchorFilteredIndex : Nat
  anchorCameraId : Nat
  cam0FilteredIndex : Nat
  cam1FilteredIndex : Nat
  cam0RecordTimeNs : Int
  cam1RecordTimeNs : Int
  cam0HeaderTimeNs : Int
  cam1HeaderTimeNs : Int
  absoluteRecordDeltaNs : Int
deriving DecidableEq, Repr

/-- A `filtered_message` row, without its schema version and record type. -/
structure WitnessRow where
  sequenceIndex : Int
  sequenceId : String
  filteredIndex : Nat
  kind : String
  cameraId : Option Nat
  recordTimeNs : Int
  headerTimeNs : Int
deriving DecidableEq, Repr

section Extract

variable (sequenceIndex : Int) (sequenceId : String)

def pyItemValid (previous : Option Int) (item : PyMessage) : Bool :=
  ["imu", "cam0", "cam1"].contains item.kind &&
    decide (0 ≤ item.recordTime ∧ item.recordTime ≤ 2 ^ 64 - 1) &&
    decide (0 ≤ item.headerTime ∧ item.headerTime ≤ 2 ^ 64 - 1) &&
    !(item.kind == "imu" && item.headerTime != 0) &&
    !(previous.any fun time => decide (item.recordTime < time))

def pyNormalize : Option Int → List PyMessage → Bool
  | _, [] => true
  | previous, item :: rest =>
    pyItemValid previous item && pyNormalize (some item.recordTime) rest

def witnessRow (item : PyMessage) (ordinal : Nat) : WitnessRow where
  sequenceIndex := sequenceIndex
  sequenceId := sequenceId
  filteredIndex := ordinal
  kind := item.kind
  cameraId := if item.kind = "cam0" then some 0 else if item.kind = "cam1" then some 1 else none
  recordTimeNs := item.recordTime
  headerTimeNs := item.headerTime

variable (normalized : List PyMessage)

def pyAt (ordinal : Nat) : PyMessage := normalized.getD ordinal ⟨"imu", 0, 0⟩

/-- `next(.., None)` -/
def pyCandidate (other : String) (anchorIndex : Nat) : Option Nat :=
  (List.range' (anchorIndex + 1) (normalized.length - (anchorIndex + 1))).find? fun ordinal =>
    (pyAt normalized ordinal).kind == other

def pyRow (pairIndex anchorIndex candidateIndex : Nat) : PairRow :=
  let anchor := pyAt normalized anchorIndex
  let candidate := pyAt normalized candidateIndex
  let cam0Index := if anchor.kind = "cam0" then anchorIndex else candidateIndex
  let cam1Index := if anchor.kind = "cam0" then candidateIndex else anchorIndex
  let cam0 := pyAt normalized cam0Index
  let cam1 := pyAt normalized cam1Index
  { sequenceIndex := sequenceIndex
    sequenceId := sequenceId
    pairIndex := pairIndex
    anchorFilteredIndex := anchorIndex
    anchorCameraId := if anchor.kind = "cam0" then 0 else 1
    cam0FilteredIndex := cam0Index
    cam1FilteredIndex := cam1Index
    cam0RecordTimeNs := cam0.recordTime
    cam1RecordTimeNs := cam1.recordTime
    cam0HeaderTimeNs := cam0.headerTime
    cam1HeaderTimeNs := cam1.headerTime
    absoluteRecordDeltaNs := |anchor.recordTime - candidate.recordTime| }

/-- `used` and `pair_rows` -/
structure PyScan where
  used : List Nat := []
  pairRows : List PairRow := []

/-- The body of the second loop. -/
def pyStep (scan : PyScan) (anchorIndex : Nat) : PyScan :=
  let anchor := pyAt normalized anchorIndex
  if ["cam0", "cam1"].contains anchor.kind = false ∨ anchorIndex ∈ scan.used then scan
  else
    let other := if anchor.kind = "cam0" then "cam1" else "cam0"
    match pyCandidate normalized other anchorIndex with
    | none => scan
    | some candidateIndex =>
      if candidateIndex ∈ scan.used then scan
      else
        let candidate := pyAt normalized candidateIndex
        -- STRICT_PAIR_DELTA_NS
        if 20000000 ≤ |anchor.recordTime - candidate.recordTime| then scan
        else {
          used := anchorIndex :: candidateIndex :: scan.used
          pairRows := scan.pairRows ++ [pyRow sequenceIndex sequenceId normalized
            scan.pairRows.length anchorIndex candidateIndex] }

/-- The pair rows and the witness rows of `_select_pair_evidence`, before they are written as lines of
JSON; `none` is an exception. -/
def selectPairEvidence (messages : List PyMessage) : Option (List PairRow × List WitnessRow) :=
  if !pyNormalize none messages then none
  else
    let scan := (List.range messages.length).foldl (pyStep sequenceIndex sequenceId messages) {}
    match scan.pairRows.head?, scan.pairRows.getLast? with
    | some first, some last =>
      if scan.pairRows.length < 2 ∨ last.cam0RecordTimeNs ≤ first.cam0RecordTimeNs then none
      else
        some (scan.pairRows, messages.zipIdx.map fun item =>
          witnessRow sequenceIndex sequenceId item.1 item.2)
    | _, _ => none

end Extract

/-! ## Both are one matching -/

section Matching

variable {sequenceIndex : UInt64} {messages : List CP2SerialFilteredMessage}

def colourOf (messages : List CP2SerialFilteredMessage) (index : Nat) : Option Bool :=
  match (messageAt messages index).kind with
  | .kCamera0 => some false
  | .kCamera1 => some true
  | _ => none

def nearBy (messages : List CP2SerialFilteredMessage) (i j : Nat) : Bool :=
  decide (absoluteU64Difference (messageAt messages i).recordTimeNs
    (messageAt messages j).recordTimeNs < strictMaximumRecordDeltaNs)

def rowsOf (sequenceIndex : UInt64) (messages : List CP2SerialFilteredMessage)
    (chosen : List (Nat × Nat)) (start : Nat) : List CP2SerialPair :=
  (chosen.zipIdx start).map fun p => makePair sequenceIndex messages (UInt64.ofNat p.2) p.1.1 p.1.2

theorem colourOf_eq_none_iff {index : Nat} :
    colourOf messages index = none ↔ (messageAt messages index).kind.isCamera = false := by
  unfold colourOf
  cases (messageAt messages index).kind <;> simp [CP2SerialMessageKind.isCamera]

theorem kind_beq_eq_opposite {i j : Nat} (hi : colourOf messages i ≠ none) :
    ((messageAt messages j).kind ==
        if (messageAt messages i).kind = .kCamera0 then .kCamera1 else .kCamera0) =
      opposite (colourOf messages) i j := by
  unfold opposite colourOf at *
  cases hki : (messageAt messages i).kind <;> cases hkj : (messageAt messages j).kind <;>
    simp_all

theorem candidateIndex_eq {i : Nat} (hi : colourOf messages i ≠ none) :
    candidateIndex messages
        (if (messageAt messages i).kind = .kCamera0 then .kCamera1 else .kCamera0) i =
      (firstLater (colourOf messages) messages.length i).getD messages.length := by
  unfold candidateIndex firstLater
  congr 2
  funext j
  exact kind_beq_eq_opposite hi

structure SelectorRuns (sequenceIndex : UInt64) (messages : List CP2SerialFilteredMessage)
    (scan : PairScan) (m : Matching) : Prop where
  used : ∀ i, scan.used i = decide (i ∈ m.used)
  selected : scan.selected = rowsOf sequenceIndex messages m.pairs 0
  next : scan.nextPairIndex = UInt64.ofNat m.pairs.length

theorem selectAt_step (hsize : messages.length < 2 ^ 64) {scan : PairScan} {m : Matching} {k : Nat}
    (hk : k < messages.length)
    (hm : Scanned (colourOf messages) (nearBy messages) messages.length k m)
    (hruns : SelectorRuns sequenceIndex messages scan m) :
    ∃ scan', selectAt sequenceIndex messages scan k = .ok scan' ∧
      SelectorRuns sequenceIndex messages scan'
        (FirstForward.step (colourOf messages) (nearBy messages) messages.length m k) := by
  unfold selectAt FirstForward.step
  simp only
  by_cases hcoloured : colourOf messages k = none
  · have hcamera := colourOf_eq_none_iff.mp hcoloured
    rw [if_pos (by simp [hcamera]), if_pos (Or.inl hcoloured)]
    exact ⟨scan, rfl, hruns⟩
  have hcamera : (messageAt messages k).kind.isCamera = true := by
    by_contra hnot
    exact hcoloured (colourOf_eq_none_iff.mpr (Bool.eq_false_iff.mpr hnot))
  rw [hcamera, hruns.used, candidateIndex_eq hcoloured]
  by_cases hunused : k ∈ m.used
  · rw [if_pos (by simp [hunused]), if_pos (.inr hunused)]
    exact ⟨scan, rfl, hruns⟩
  rw [if_neg (by simp [hunused]), if_neg (not_or.mpr ⟨hcoloured, hunused⟩)]
  cases hpartner : firstLater (colourOf messages) messages.length k with
  | none =>
    rw [Option.getD_none, if_pos (.inl rfl)]
    exact ⟨scan, rfl, hruns⟩
  | some c =>
    have hc := (firstLater_eq_some.mp hpartner).2.1
    rw [Option.getD_some, hruns.used]
    simp only [decide_eq_true_eq]
    by_cases hfresh : c ∈ m.used
    · rw [if_pos (.inr hfresh), if_pos (.inl hfresh)]
      exact ⟨scan, rfl, hruns⟩
    rw [if_neg (not_or.mpr ⟨Nat.ne_of_lt hc, hfresh⟩)]
    by_cases hnear : nearBy messages k c = true
    · have hbelow := of_decide_eq_true hnear
      have hcount := hm.length_le
      -- a pair index for each pair of messages, so it does not reach its bound
      have hnext : scan.nextPairIndex ≠ 18446744073709551615 := by
        rw [hruns.next]
        intro heq
        have := congrArg UInt64.toNat heq
        rw [UInt64.toNat_ofNat', Nat.mod_eq_of_lt (by omega)] at this
        have hmax : (18446744073709551615 : UInt64).toNat = 2 ^ 64 - 1 := rfl
        omega
      rw [if_neg (UInt64.not_le.mpr hbelow), if_neg hnext,
        if_neg (not_or.mpr ⟨hfresh, by simp [hnear]⟩)]
      refine ⟨_, rfl, fun i => ?_, ?_, ?_⟩
      · simp only [mem_cons, hruns.used]
        by_cases hik : i = k
        · simp [hik]
        · by_cases hic : i = c
          · simp [hic]
          · simp [hik, hic]
      · rw [hruns.selected, hruns.next, rowsOf, rowsOf, zipIdx_append, map_append]
        simp
      · rw [hruns.next, length_append, length_singleton]
        simp
    · have hfar : strictMaximumRecordDeltaNs ≤ absoluteU64Difference
          (messageAt messages k).recordTimeNs (messageAt messages c).recordTimeNs := by
        have := of_decide_eq_false (Bool.eq_false_iff.mpr hnear)
        exact UInt64.not_lt.mp this
      rw [if_pos hfar, if_pos (.inr (Bool.eq_false_iff.mpr hnear))]
      exact ⟨scan, rfl, hruns⟩

theorem selector_runs (hsize : messages.length < 2 ^ 64) :
    ∀ count ≤ messages.length, ∃ scan,
      (List.range count).foldlM (selectAt sequenceIndex messages) {} = .ok scan ∧
        SelectorRuns sequenceIndex messages scan
          (FirstForward.scan (colourOf messages) (nearBy messages) messages.length count) := by
  intro count
  induction count with
  | zero => exact fun _ => ⟨{}, rfl, fun i => by simp [FirstForward.scan], rfl, rfl⟩
  | succ count ih =>
    intro hcount
    obtain ⟨scan, hscan, hruns⟩ := ih (Nat.le_of_succ_le hcount)
    obtain ⟨scan', hstep, hruns'⟩ := selectAt_step hsize (Nat.lt_of_succ_le hcount)
      (scanned_scan count) hruns
    refine ⟨scan', ?_, by rwa [scan_succ]⟩
    rw [range_succ, foldlM_append, hscan]
    change List.foldlM (selectAt sequenceIndex messages) scan [count] = _
    rw [foldlM_cons, hstep]
    rfl

/-! ## The initial population -/

theorem absoluteU64Difference_comm (a b : UInt64) :
    absoluteU64Difference a b = absoluteU64Difference b a := by
  unfold absoluteU64Difference
  by_cases hba : b ≤ a
  · by_cases hab : a ≤ b
    · rw [UInt64.le_antisymm hab hba]
    · rw [if_pos hba, if_neg hab]
  · rw [if_neg hba, if_pos (UInt64.le_of_lt (UInt64.not_le.mp hba))]

theorem kind_of_colour {i : Nat} (hi : colourOf messages i ≠ none) :
    (messageAt messages i).kind = .kCamera0 ∨ (messageAt messages i).kind = .kCamera1 := by
  unfold colourOf at hi
  cases hkind : (messageAt messages i).kind <;> simp_all

theorem pairValid_makePair (hsize : messages.length < 2 ^ 64) {context : CP2RuntimeContext}
    (hcontext : context.sequenceIndex = sequenceIndex) {index : Nat} (hindex : index < 2 ^ 64)
    {previous : Option UInt64} {used : List UInt64} {p : Nat × Nat}
    (hp : Allowed (colourOf messages) (nearBy messages) messages.length p)
    (hprevious : ∀ a ∈ previous, a.toNat < p.1) (hused : ∀ u ∈ used, u.toNat < p.1) :
    pairValid context index previous used
      (makePair sequenceIndex messages (UInt64.ofNat index) p.1 p.2) = true := by
  obtain ⟨hlt, hbound, -, -⟩ := firstLater_eq_some.mp hp.partner
  have hfirst : (UInt64.ofNat p.1).toNat = p.1 := by
    rw [UInt64.toNat_ofNat', Nat.mod_eq_of_lt (by omega)]
  have hsecond : (UInt64.ofNat p.2).toNat = p.2 := by
    rw [UInt64.toNat_ofNat', Nat.mod_eq_of_lt (by omega)]
  have hne : UInt64.ofNat p.1 ≠ UInt64.ofNat p.2 := fun heq => by
    have := congrArg UInt64.toNat heq
    omega
  have hnear := of_decide_eq_true hp.near
  have hanchor : ∀ a ∈ previous, a < UInt64.ofNat p.1 := fun a ha => by
    rw [UInt64.lt_iff_toNat_lt, hfirst]
    exact hprevious a ha
  have hnotUsed : ∀ i, p.1 ≤ i → i < 2 ^ 64 → UInt64.ofNat i ∉ used := fun i hi hlimit hmem => by
    have := hused _ hmem
    rw [UInt64.toNat_ofNat', Nat.mod_eq_of_lt hlimit] at this
    omega
  have hunused₁ := hnotUsed p.1 (Nat.le_refl _) (by omega)
  have hunused₂ := hnotUsed p.2 hlt.le (by omega)
  have hall : (previous.all fun anchor => decide (anchor < UInt64.ofNat p.1)) = true := by
    cases previous with
    | none => rfl
    | some a => exact decide_eq_true (hanchor a rfl)
  have hzero : (0 : UInt64) ≤ 1 := by decide
  have hone : (1 : UInt64) ≤ 1 := by decide
  unfold pairValid makePair
  rcases kind_of_colour hp.coloured with hkind | hkind
  · simp only [hkind, CP2SerialMessageKind.cameraId, hcontext, hall, hunused₁, hunused₂, hindex, hzero,
      beq_self_eq_true, if_true, contains_eq_mem, decide_false, decide_true, Bool.not_false,
      Bool.and_true, Bool.true_and, bne_self_eq_false, Bool.or_true]
    have hdelta := hnear
    unfold absoluteU64Difference at hdelta ⊢
    simp [hne, hdelta]
  · have hcam : (CP2SerialMessageKind.kCamera1 == .kCamera0) = false := rfl
    rw [absoluteU64Difference_comm] at hnear
    simp only [hkind, hcam, CP2SerialMessageKind.cameraId, hcontext, hall, hunused₁, hunused₂, hindex,
      hone, absoluteU64Difference_comm (messageAt messages p.1).recordTimeNs, beq_self_eq_true,
      Bool.false_eq_true, if_false, contains_eq_mem, decide_false, decide_true, Bool.not_false,
      Bool.and_true, Bool.true_and, reduceCtorEq]
    have hdelta := hnear
    unfold absoluteU64Difference at hdelta ⊢
    simp [hne.symm, hdelta]

theorem populationValid_rowsOf (hsize : messages.length < 2 ^ 64) {context : CP2RuntimeContext}
    (hcontext : context.sequenceIndex = sequenceIndex) (chosen : List (Nat × Nat)) :
    ∀ (start : Nat) (previous : Option UInt64) (used : List UInt64),
      (∀ p ∈ chosen, Allowed (colourOf messages) (nearBy messages) messages.length p) →
      chosen.Pairwise (fun p q => p.2 < q.1) → start + chosen.length ≤ 2 ^ 64 →
      (∀ p ∈ chosen, ∀ a ∈ previous, a.toNat < p.1) → (∀ p ∈ chosen, ∀ u ∈ used, u.toNat < p.1) →
      populationValid context start previous used
        (rowsOf sequenceIndex messages chosen start) = true := by
  induction chosen with
  | nil => exact fun _ _ _ _ _ _ _ _ => rfl
  | cons p rest ih =>
    intro start previous used hallowed hordered hlength hprevious hused
    rw [length_cons] at hlength
    obtain ⟨hfirst, hrest⟩ := pairwise_cons.mp hordered
    have hp := hallowed p mem_cons_self
    obtain ⟨hlt, hbound, -, -⟩ := firstLater_eq_some.mp hp.partner
    have hends : ∀ i, i = p.1 ∨ i = p.2 → (UInt64.ofNat i).toNat ≤ p.2 := by
      intro i hi
      rw [UInt64.toNat_ofNat', Nat.mod_eq_of_lt (by omega)]
      omega
    rw [rowsOf, zipIdx_cons, map_cons, populationValid, Bool.and_eq_true]
    refine ⟨pairValid_makePair hsize hcontext (by omega) hp (hprevious p mem_cons_self)
      (hused p mem_cons_self), ?_⟩
    refine ih (start + 1) _ _ (fun q hq => hallowed q (mem_cons_of_mem _ hq)) hrest (by omega)
      ?_ ?_
    · intro q hq a ha
      have ha' : UInt64.ofNat p.1 = a := by simpa [makePair] using ha
      have := hends p.1 (.inl rfl)
      have := hfirst q hq
      rw [← ha']
      omega
    · intro q hq u hu
      have hbehind := hfirst q hq
      rcases mem_cons.mp hu with rfl | hu
      · have := hends (if (messageAt messages p.1).kind == .kCamera0 then p.1 else p.2)
          (by split <;> simp)
        exact Nat.lt_of_le_of_lt this hbehind
      rcases mem_cons.mp hu with rfl | hu
      · have := hends (if (messageAt messages p.1).kind == .kCamera0 then p.2 else p.1)
          (by split <;> simp)
        exact Nat.lt_of_le_of_lt this hbehind
      · have := hused p mem_cons_self u hu
        omega

/-! ## The extractor runs the matching -/

def CP2SerialMessageKind.pyName : CP2SerialMessageKind → String
  | .kImu => "imu"
  | .kCamera0 => "cam0"
  | .kCamera1 => "cam1"
  | .other _ => ""

def CP2SerialFilteredMessage.toPy (message : CP2SerialFilteredMessage) : PyMessage :=
  ⟨message.kind.pyName, message.recordTimeNs.toNat, message.headerTimeNs.toNat⟩

def CP2SerialPair.toRow (sequenceId : String) (pair : CP2SerialPair) : PairRow where
  sequenceIndex := pair.sequenceIndex.toNat
  sequenceId := sequenceId
  pairIndex := pair.pairIndex.toNat
  anchorFilteredIndex := pair.anchorFilteredIndex.toNat
  anchorCameraId := pair.anchorCameraId.toNat
  cam0FilteredIndex := pair.cam0FilteredIndex.toNat
  cam1FilteredIndex := pair.cam1FilteredIndex.toNat
  cam0RecordTimeNs := pair.cam0RecordTimeNs.toNat
  cam1RecordTimeNs := pair.cam1RecordTimeNs.toNat
  cam0HeaderTimeNs := pair.cam0HeaderTimeNs.toNat
  cam1HeaderTimeNs := pair.cam1HeaderTimeNs.toNat
  absoluteRecordDeltaNs := pair.absoluteRecordDeltaNs.toNat

theorem pyAt_map (messages : List CP2SerialFilteredMessage) (index : Nat) :
    pyAt (messages.map CP2SerialFilteredMessage.toPy) index = (messageAt messages index).toPy := by
  unfold pyAt messageAt
  rw [getD_eq_getElem?_getD, getD_eq_getElem?_getD, getElem?_map]
  cases messages[index]? <;> rfl

theorem abs_sub_eq (a b : UInt64) :
    |(a.toNat : Int) - b.toNat| = (absoluteU64Difference a b).toNat := by
  unfold absoluteU64Difference
  split
  · rename_i h
    have h' := UInt64.le_iff_toNat_le.mp h
    rw [UInt64.toNat_sub_of_le _ _ h, abs_of_nonneg (by omega)]
    omega
  · rename_i h
    have h' : a ≤ b := UInt64.le_of_lt (UInt64.not_le.mp h)
    have h'' := UInt64.le_iff_toNat_le.mp h'
    rw [UInt64.toNat_sub_of_le _ _ h', abs_of_nonpos (by omega)]
    omega

theorem pyCandidate_eq {i : Nat} (hi : colourOf messages i ≠ none) :
    pyCandidate (messages.map CP2SerialFilteredMessage.toPy)
        (if (messageAt messages i).toPy.kind = "cam0" then "cam1" else "cam0") i =
      firstLater (colourOf messages) messages.length i := by
  unfold pyCandidate firstLater
  rw [length_map]
  congr 1
  funext j
  rw [pyAt_map, ← kind_beq_eq_opposite hi]
  unfold CP2SerialFilteredMessage.toPy
  cases (messageAt messages i).kind <;> cases (messageAt messages j).kind <;>
    simp [CP2SerialMessageKind.pyName]

theorem pyRow_eq (hsize : messages.length < 2 ^ 64) {sequenceId : String} {index : Nat}
    (hindex : index < 2 ^ 64) {p : Nat × Nat} (hfirst : p.1 < messages.length)
    (hsecond : p.2 < messages.length) (hcoloured : colourOf messages p.1 ≠ none) :
    pyRow sequenceIndex.toNat sequenceId (messages.map CP2SerialFilteredMessage.toPy) index p.1 p.2 =
      (makePair sequenceIndex messages (UInt64.ofNat index) p.1 p.2).toRow sequenceId := by
  have hofNat : ∀ i, i < 2 ^ 64 → (UInt64.ofNat i).toNat = i := fun i hi => by
    rw [UInt64.toNat_ofNat', Nat.mod_eq_of_lt hi]
  unfold pyRow makePair CP2SerialPair.toRow
  simp only [pyAt_map]
  rcases kind_of_colour hcoloured with hkind | hkind
  · simp [CP2SerialFilteredMessage.toPy, hkind, CP2SerialMessageKind.pyName,
      CP2SerialMessageKind.cameraId, hofNat index hindex, hofNat p.1 (by omega),
      hofNat p.2 (by omega), abs_sub_eq]
  · simp [CP2SerialFilteredMessage.toPy, hkind, CP2SerialMessageKind.pyName,
      CP2SerialMessageKind.cameraId, hofNat index hindex, hofNat p.1 (by omega),
      hofNat p.2 (by omega), abs_sub_eq]

structure ExtractorRuns (sequenceIndex : UInt64) (sequenceId : String)
    (messages : List CP2SerialFilteredMessage) (scan : PyScan) (m : Matching) : Prop where
  used : scan.used = m.used
  rows : scan.pairRows = (rowsOf sequenceIndex messages m.pairs 0).map (CP2SerialPair.toRow sequenceId)

theorem pyStep_eq (hsize : messages.length < 2 ^ 64) {sequenceId : String} {scan : PyScan}
    {m : Matching} {k : Nat} (hk : k < messages.length)
    (hm : Scanned (colourOf messages) (nearBy messages) messages.length k m)
    (hruns : ExtractorRuns sequenceIndex sequenceId messages scan m) :
    ExtractorRuns sequenceIndex sequenceId messages
      (pyStep sequenceIndex.toNat sequenceId (messages.map CP2SerialFilteredMessage.toPy) scan k)
      (FirstForward.step (colourOf messages) (nearBy messages) messages.length m k) := by
  unfold pyStep FirstForward.step
  simp only [pyAt_map, hruns.used]
  have hcamera : ["cam0", "cam1"].contains (messageAt messages k).toPy.kind = false ↔
      colourOf messages k = none := by
    unfold CP2SerialFilteredMessage.toPy colourOf
    cases (messageAt messages k).kind <;> simp [CP2SerialMessageKind.pyName]
  by_cases hfree : colourOf messages k = none ∨ k ∈ m.used
  · rw [if_pos hfree, if_pos (hfree.imp hcamera.mpr id)]
    exact hruns
  obtain ⟨hcoloured, hunused⟩ := not_or.mp hfree
  rw [if_neg hfree, if_neg (not_or.mpr ⟨fun h => hcoloured (hcamera.mp h), hunused⟩),
    pyCandidate_eq hcoloured]
  cases hpartner : firstLater (colourOf messages) messages.length k with
  | none => exact hruns
  | some c =>
    have hc := (firstLater_eq_some.mp hpartner).2.1
    have hcount := hm.length_le
    have hdelta : (20000000 : Int) ≤ |(messageAt messages k).toPy.recordTime -
        (messageAt messages c).toPy.recordTime| ↔ nearBy messages k c = false := by
      unfold CP2SerialFilteredMessage.toPy nearBy
      simp only [abs_sub_eq, decide_eq_false_iff_not, UInt64.not_lt, UInt64.le_iff_toNat_le]
      exact Int.ofNat_le
    simp only
    by_cases hfresh : c ∈ m.used
    · rw [if_pos hfresh, if_pos (.inl hfresh)]
      exact hruns
    by_cases hnear : nearBy messages k c = false
    · rw [if_neg hfresh, if_pos (hdelta.mpr hnear), if_pos (.inr hnear)]
      exact hruns
    rw [if_neg hfresh, if_neg (fun h => hnear (hdelta.mp h)), if_neg (not_or.mpr ⟨hfresh, hnear⟩)]
    refine ⟨rfl, ?_⟩
    have hlength : ((rowsOf sequenceIndex messages m.pairs 0).map
        (CP2SerialPair.toRow sequenceId)).length = m.pairs.length := by
      simp [rowsOf]
    have hrow := @pyRow_eq sequenceIndex messages hsize sequenceId m.pairs.length (by omega) (k, c)
      hk hc hcoloured
    rw [hruns.rows, hlength, hrow]
    simp only [rowsOf, zipIdx_append, map_append]
    simp

theorem extractor_runs (hsize : messages.length < 2 ^ 64) (sequenceId : String) :
    ∀ count ≤ messages.length, ExtractorRuns sequenceIndex sequenceId messages
      ((List.range count).foldl (pyStep sequenceIndex.toNat sequenceId
        (messages.map CP2SerialFilteredMessage.toPy)) {})
      (FirstForward.scan (colourOf messages) (nearBy messages) messages.length count) := by
  intro count
  induction count with
  | zero => exact fun _ => ⟨rfl, rfl⟩
  | succ count ih =>
    intro hcount
    rw [range_succ, foldl_append, scan_succ]
    exact pyStep_eq hsize (Nat.lt_of_succ_le hcount) (scanned_scan count)
      (ih (Nat.le_of_succ_le hcount))

theorem pyNormalize_of_checkRecords :
    ∀ (messages : List CP2SerialFilteredMessage) (previous : Option UInt64),
      checkRecords previous messages = none →
      (∀ message ∈ messages, message.kind = .kImu → message.headerTimeNs = 0) →
      pyNormalize (previous.map fun time => (time.toNat : Int))
        (messages.map CP2SerialFilteredMessage.toPy) = true := by
  intro messages
  induction messages with
  | nil => exact fun _ _ _ => rfl
  | cons message rest ih =>
    intro previous hrecords himu
    rw [checkRecords] at hrecords
    split_ifs at hrecords with hvalid hreversed
    have hrest := ih _ hrecords fun m hm => himu m (mem_cons_of_mem _ hm)
    rw [map_cons, pyNormalize, Bool.and_eq_true]
    refine ⟨?_, hrest⟩
    have hrecord := message.recordTimeNs.toNat_lt
    have hheader := message.headerTimeNs.toNat_lt
    have hprevious : (previous.map fun time => (time.toNat : Int)).any
        (fun time => decide ((message.recordTimeNs.toNat : Int) < time)) = false := by
      cases previous with
      | none => rfl
      | some time => simpa [UInt64.le_iff_toNat_le] using hreversed
    unfold pyItemValid CP2SerialFilteredMessage.toPy
    simp only [hprevious]
    have hzero : message.kind = .kImu → message.headerTimeNs.toNat = 0 := fun hkind => by
      rw [himu message mem_cons_self hkind]
      rfl
    cases hkind : message.kind with
    | kImu =>
      simp [CP2SerialMessageKind.pyName, hzero hkind]
      omega
    | kCamera0 =>
      simp [CP2SerialMessageKind.pyName]
      omega
    | kCamera1 =>
      simp [CP2SerialMessageKind.pyName]
      omega
    | other raw => simp [hkind, CP2SerialMessageKind.valid] at hvalid

/-! ## The contract -/

/-- The first later message of the opposite camera. -/
def PartnerOf (messages : List CP2SerialFilteredMessage) (i c : Nat) : Prop :=
  i < c ∧ c < messages.length ∧ opposite (colourOf messages) i c = true ∧
    ∀ j, i < j → j < c → opposite (colourOf messages) i j = false

/-- The contract of the selection, as positions of anchors and candidates. -/
structure FirstForwardContract (messages : List CP2SerialFilteredMessage)
    (chosen : List (Nat × Nat)) : Prop where
  ordered : chosen.Pairwise fun p q => p.2 < q.1
  disjoint : (chosen.flatMap fun p => [p.1, p.2]).Pairwise (· < ·)
  rule : ∀ p ∈ chosen, PartnerOf messages p.1 p.2 ∧ nearBy messages p.1 p.2 = true
  /-- A camera message that is left over has no partner, or one that is used or too far. -/
  maximal : ∀ i, colourOf messages i ≠ none → (∀ p ∈ chosen, i ≠ p.1 ∧ i ≠ p.2) →
    ∀ c, PartnerOf messages i c →
      (∃ p ∈ chosen, p.1 < i ∧ (c = p.1 ∨ c = p.2)) ∨ nearBy messages i c = false

theorem contract_of_scanned {m : Matching} (hm : Scanned (colourOf messages) (nearBy messages)
    messages.length messages.length m) : FirstForwardContract messages m.pairs where
  ordered := hm.ordered
  disjoint := hm.ends_rise
  rule p hp := ⟨firstLater_eq_some.mp (hm.allowed p hp).2.partner, (hm.allowed p hp).2.near⟩
  maximal i hi hfree c hc := by
    refine hm.maximal i (Nat.lt_trans hc.1 hc.2.1) hi (fun hused => ?_) c
      (firstLater_eq_some.mpr hc)
    obtain ⟨p, hp, heq⟩ := (hm.used i).mp hused
    exact heq.elim (hfree p hp).1 (hfree p hp).2

theorem select_accepted (hsize : messages.length < 2 ^ 64) {allocates : Bool}
    (haccepted : (select sequenceIndex messages allocates).status = .kAccepted) :
    checkRecords none messages = none ∧
      (select sequenceIndex messages allocates).pairs = rowsOf sequenceIndex messages
        (FirstForward.scan (colourOf messages) (nearBy messages) messages.length
          messages.length).pairs 0 := by
  obtain ⟨scan, hscan, hruns⟩ := @selector_runs sequenceIndex messages hsize messages.length
    (le_refl _)
  unfold select at haccepted ⊢
  cases hrecords : checkRecords none messages with
  | some status =>
    have hrejected : ∀ (ms : List CP2SerialFilteredMessage) (previous : Option UInt64),
        checkRecords previous ms ≠ some .kAccepted := by
      intro ms
      induction ms with
      | nil => exact fun _ => nofun
      | cons message rest ih =>
        intro previous
        rw [checkRecords]
        split_ifs
        · exact nofun
        · exact nofun
        · exact ih _
    rw [hrecords] at haccepted
    exact absurd (hrecords.trans (congrArg some haccepted)) (hrejected messages none)
  | none =>
    rw [hrecords] at haccepted
    cases allocates with
    | false => exact absurd haccepted nofun
    | true =>
      simp only [hscan, Bool.not_true, Bool.false_eq_true, if_false]
      exact ⟨trivial, hruns.selected⟩

/-- **The pairing contract, in C++ and in Python.** -/
theorem pairing_contract (sequenceIndex : UInt64) (messages : List CP2SerialFilteredMessage)
    (allocates : Bool) (hsize : messages.length < 2 ^ 64)
    (haccepted : (select sequenceIndex messages allocates).status = .kAccepted) :
    let pairs := (select sequenceIndex messages allocates).pairs
    (∃ chosen, pairs = rowsOf sequenceIndex messages chosen 0 ∧
      FirstForwardContract messages chosen) ∧
    (∀ context : CP2RuntimeContext, context.sequenceIndex = sequenceIndex →
      populationValid context 0 none [] pairs = true) ∧
    ∀ (sequenceId : String) (first last : CP2SerialPair),
      (∀ message ∈ messages, message.kind = .kImu → message.headerTimeNs = 0) →
      pairs.head? = some first → pairs.getLast? = some last → 2 ≤ pairs.length →
      first.cam0RecordTimeNs < last.cam0RecordTimeNs →
      ∃ witness, selectPairEvidence sequenceIndex.toNat sequenceId
          (messages.map CP2SerialFilteredMessage.toPy) =
        some (pairs.map (CP2SerialPair.toRow sequenceId), witness) := by
  intro pairs
  obtain ⟨hrecords, hpairs⟩ := select_accepted hsize haccepted
  have hscanned := @scanned_scan (colourOf messages) (nearBy messages) messages.length
    messages.length
  refine ⟨⟨_, hpairs, contract_of_scanned hscanned⟩, fun context hcontext => ?_,
    fun sequenceId first last himu hfirst hlast hlength hadvances => ?_⟩
  · change populationValid context 0 none [] (select sequenceIndex messages allocates).pairs = true
    rw [hpairs]
    have hcount := hscanned.length_le
    exact populationValid_rowsOf hsize hcontext _ 0 none [] (fun p hp => (hscanned.allowed p hp).2)
      hscanned.ordered (by omega) (fun _ _ _ ha => nomatch ha) fun _ _ _ hu => nomatch hu
  · have hruns := @extractor_runs sequenceIndex messages hsize sequenceId messages.length (le_refl _)
    have hrows := hruns.rows
    rw [← hpairs] at hrows
    change _ = pairs.map (CP2SerialPair.toRow sequenceId) at hrows
    have hnormal := pyNormalize_of_checkRecords messages none hrecords himu
    rw [Option.map_none] at hnormal
    have hadvances' : first.cam0RecordTimeNs.toNat < last.cam0RecordTimeNs.toNat :=
      UInt64.lt_iff_toNat_lt.mp hadvances
    unfold selectPairEvidence
    simp only [hnormal, Bool.not_true, Bool.false_eq_true, if_false, length_map, hrows,
      head?_map, hfirst, getLast?_map, hlast, Option.map_some]
    rw [if_neg]
    · exact ⟨_, rfl⟩
    · simp only [CP2SerialPair.toRow, not_or, not_lt, not_le]
      exact ⟨hlength, by exact_mod_cast hadvances'⟩

def twoPairs : List CP2SerialFilteredMessage :=
  [⟨.kCamera0, 0, 1⟩, ⟨.kImu, 0, 0⟩, ⟨.kCamera1, 10, 1⟩, ⟨.kCamera1, 1000000, 2⟩,
    ⟨.kCamera0, 1000010, 2⟩]

theorem pairing_contract_twoPairs :
    (∀ context : CP2RuntimeContext, context.sequenceIndex = 7 →
      populationValid context 0 none [] (select 7 twoPairs true).pairs = true) ∧
    ∃ witness, selectPairEvidence 7 "a" (twoPairs.map CP2SerialFilteredMessage.toPy) =
      some ((select 7 twoPairs true).pairs.map (CP2SerialPair.toRow "a"), witness) := by
  obtain ⟨-, hpopulation, hpython⟩ := pairing_contract 7 twoPairs true (by decide) (by decide +kernel)
  refine ⟨hpopulation, ?_⟩
  have hends : ∃ first last, (select 7 twoPairs true).pairs = [first, last] ∧
      first.cam0RecordTimeNs < last.cam0RecordTimeNs :=
    ⟨makePair 7 twoPairs 0 0 2, makePair 7 twoPairs 1 3 4, by decide +kernel, by decide +kernel⟩
  obtain ⟨first, last, hpairs, hadvances⟩ := hends
  exact hpython "a" first last (by decide) (by rw [hpairs]; rfl) (by rw [hpairs]; rfl)
    (by rw [hpairs]; exact le_refl 2) hadvances

def equalRecords : List CP2SerialFilteredMessage :=
  [⟨.kCamera0, 5, 1⟩, ⟨.kCamera1, 5, 1⟩, ⟨.kCamera0, 5, 2⟩, ⟨.kCamera1, 5, 2⟩]

/-- The selector accepts them, and the extractor fails. -/
theorem extractor_asks_record_times :
    (select 0 equalRecords true).status = .kAccepted ∧
      (select 0 equalRecords true).pairs.map (fun pair => pair.cam0HeaderTimeNs) = [1, 2] ∧
      (∀ message ∈ equalRecords, message.kind = .kImu → message.headerTimeNs = 0) ∧
      selectPairEvidence 0 "a" (equalRecords.map CP2SerialFilteredMessage.toPy) = none := by
  refine ⟨by decide +kernel, by decide +kernel, by decide, by decide +kernel⟩

end Matching

end Bravo.Serial
