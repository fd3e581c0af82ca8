import Mathlib.Data.List.Sort
import Bravo.Basic.Exec

/-! # Exact-header pairing

`KaistVioSerialPairSelector::Select`: the two cameras of a filtered bag are joined where their header
times are equal, and a pair is dispatched at the earlier of its two indices. An index is a `size_t`,
which fits in the `uint64_t` it is stored in, and is a natural number here; the counters and the times
are `uint64_t`. Which allocations fail is a list, and with its end they succeed.

The headers of one camera increase with its indices. So the pairs found in header order are already in
anchor order, and sorting them and checking their headers change nothing.
-/

namespace Bravo.Serial.KaistVio

open List hiding modify

/-! ## Messages and results -/

/-- `KaistVioSerialMessageKind`, with the values outside the enumeration. -/
inductive MessageKind
  | imu
  | camera0
  | camera1
  | other (raw : UInt8)
deriving DecidableEq, Repr

def MessageKind.valid : MessageKind → Bool
  | imu | camera0 | camera1 => true
  | other _ => false

structure Message where
  kind : MessageKind := .imu
  recordTimeNs : UInt64 := 0
  headerTimeNs : UInt64 := 0
deriving DecidableEq, Repr, Inhabited

structure Pair where
  anchorFilteredIndex : Nat
  cam0FilteredIndex : Nat
  cam1FilteredIndex : Nat
  cameraTimestampNs : UInt64
  absoluteRecordDeltaNs : UInt64
deriving DecidableEq, Repr

inductive PairingStatus
  | accepted
  | invalidMessageKind
  | recordTimeReversed
  | zeroCameraHeader
  | duplicateCameraHeader
  | cameraHeaderOrderReversed
  | noExactPairs
  | indexOverflow
  | allocationFailure
deriving DecidableEq, Repr

structure PairingResult where
  status : PairingStatus := .allocationFailure
  pairs : List Pair := []
  camera0Count : UInt64 := 0
  camera1Count : UInt64 := 0
  camera0WithoutMatch : UInt64 := 0
  camera1WithoutMatch : UInt64 := 0
  recordDeltaAtOrAbove20ms : UInt64 := 0
  maximumRecordDeltaNs : UInt64 := 0
deriving DecidableEq, Repr

/-- `kRecordDeltaAuditThresholdNs` -/
def recordDeltaAuditThresholdNs : UInt64 := 20000000

def absoluteDifference (left right : UInt64) : UInt64 := if right ≤ left then left - right else right - left

def increment (value : UInt64) : Option UInt64 := if value = 18446744073709551615 then none else some (value + 1)

/-! ## A map by header time -/

def emplace (header : UInt64) (index : Nat) : List (UInt64 × Nat) → List (UInt64 × Nat)
  | [] => [(header, index)]
  | entry :: entries =>
    if header < entry.1 then (header, index) :: entry :: entries
    else if header = entry.1 then entry :: entries
    else entry :: emplace header index entries

def find (byHeader : List (UInt64 × Nat)) (header : UInt64) : Option Nat :=
  (byHeader.find? fun entry => entry.1 == header).map Prod.snd

/-! ## The program -/

inductive Camera
  | camera0
  | camera1
deriving DecidableEq, Repr

def Camera.kind : Camera → MessageKind
  | camera0 => .camera0
  | camera1 => .camera1

structure CameraScan where
  count : UInt64 := 0
  byHeader : List (UInt64 × Nat) := []
  previousHeader : Option UInt64 := none
deriving DecidableEq, Repr

structure Work where
  camera0 : CameraScan := {}
  camera1 : CameraScan := {}
  selected : List Pair := []
  maximumRecordDeltaNs : UInt64 := 0
  recordDeltaAtOrAbove20ms : UInt64 := 0
  /-- Which of the next allocations fail. -/
  failures : List Bool := []
deriving DecidableEq, Repr

def Work.scan (w : Work) : Camera → CameraScan
  | .camera0 => w.camera0
  | .camera1 => w.camera1

def Work.setScan (w : Work) (scan : CameraScan) : Camera → Work
  | .camera0 => { w with camera0 := scan }
  | .camera1 => { w with camera1 := scan }

inductive Stop
  | rejected (status : PairingStatus)
  | badAlloc
deriving DecidableEq, Repr

abbrev Selecting := EStateM Stop Work

def allocate : Selecting Unit := fun w =>
  match w.failures with
  | [] => .ok ⟨⟩ w
  | false :: failures => .ok ⟨⟩ { w with failures := failures }
  | true :: failures => .error .badAlloc { w with failures := failures }

def checkRecords (previousRecord : Option UInt64) : List Message → Option PairingStatus
  | [] => none
  | message :: messages =>
    if !message.kind.valid then some .invalidMessageKind
    else if previousRecord.any fun previous => decide (message.recordTimeNs < previous) then
      some .recordTimeReversed
    else checkRecords (some message.recordTimeNs) messages

def receiveCamera (camera : Camera) (message : Message) (index : Nat) : Selecting Unit := do
  let w ← get
  let scan := w.scan camera
  match increment scan.count with
  | none => throw (.rejected .indexOverflow)
  | some count =>
    modify fun w => w.setScan { scan with count := count } camera
    onlyIf (message.headerTimeNs == 0) (throw (.rejected .zeroCameraHeader))
    onlyIf (scan.previousHeader.any fun previous => message.headerTimeNs == previous)
      (throw (.rejected .duplicateCameraHeader))
    onlyIf (scan.previousHeader.any fun previous => decide (message.headerTimeNs < previous))
      (throw (.rejected .cameraHeaderOrderReversed))
    allocate
    onlyIf (find scan.byHeader message.headerTimeNs).isSome (throw (.rejected .duplicateCameraHeader))
    modify fun w => w.setScan
      ⟨count, emplace message.headerTimeNs index scan.byHeader, some message.headerTimeNs⟩ camera

def receive (message : Message) (index : Nat) : Selecting Unit :=
  match message.kind with
  | .camera0 => receiveCamera .camera0 message index
  | .camera1 => receiveCamera .camera1 message index
  | _ => return

def scanMessages (index : Nat) : List Message → Selecting Unit
  | [] => return
  | message :: messages => do
    receive message index
    scanMessages (index + 1) messages

def makePair (messages : List Message) (header : UInt64) (camera0Index camera1Index : Nat) : Pair where
  anchorFilteredIndex := min camera0Index camera1Index
  cam0FilteredIndex := camera0Index
  cam1FilteredIndex := camera1Index
  cameraTimestampNs := header
  absoluteRecordDeltaNs := absoluteDifference (messages.getD camera0Index default).recordTimeNs
    (messages.getD camera1Index default).recordTimeNs

/-- `selected` and its statistics with one more pair. -/
def select1 (pair : Pair) : Selecting Unit := do
  modify fun w => { w with selected := w.selected ++ [pair] }
  modify fun w => { w with maximumRecordDeltaNs := max w.maximumRecordDeltaNs pair.absoluteRecordDeltaNs }
  onlyIf (decide (recordDeltaAuditThresholdNs ≤ pair.absoluteRecordDeltaNs)) do
    let w ← get
    match increment w.recordDeltaAtOrAbove20ms with
    | none => throw (.rejected .indexOverflow)
    | some count => modify fun w => { w with recordDeltaAtOrAbove20ms := count }

/-- The third loop, over `camera0_by_header`. -/
def joinHeaders (messages : List Message) : List (UInt64 × Nat) → Selecting Unit
  | [] => return
  | entry :: entries => do
    let w ← get
    onSome (find w.camera1.byHeader entry.1) fun camera1Index =>
      select1 (makePair messages entry.1 entry.2 camera1Index)
    joinHeaders messages entries

/-- `std::sort` by anchor. The anchors are distinct, so that its order among equals does not matter. -/
def sortPairs (selected : List Pair) : List Pair :=
  selected.insertionSort fun left right => left.anchorFilteredIndex ≤ right.anchorFilteredIndex

def headerReversed : List Pair → Bool
  | left :: right :: pairs =>
    decide (right.cameraTimestampNs ≤ left.cameraTimestampNs) || headerReversed (right :: pairs)
  | _ => false

def finish : Selecting PairingResult := do
  let w ← get
  let selected := sortPairs w.selected
  onlyIf selected.isEmpty (throw (.rejected .noExactPairs))
  onlyIf (headerReversed selected) (throw (.rejected .cameraHeaderOrderReversed))
  let pairCount := UInt64.ofNat selected.length
  return {
    status := .accepted
    pairs := selected
    camera0Count := w.camera0.count
    camera1Count := w.camera1.count
    camera0WithoutMatch := w.camera0.count - pairCount
    camera1WithoutMatch := w.camera1.count - pairCount
    recordDeltaAtOrAbove20ms := w.recordDeltaAtOrAbove20ms
    maximumRecordDeltaNs := w.maximumRecordDeltaNs }

def joinCameras (messages : List Message) : Selecting Unit := do
  let w ← get
  onlyIf (!w.camera0.byHeader.isEmpty && !w.camera1.byHeader.isEmpty) allocate
  joinHeaders messages w.camera0.byHeader

/-- The guarded block of `Select`. -/
def selectPairs (messages : List Message) : Selecting PairingResult := do
  scanMessages 0 messages
  joinCameras messages
  finish

def select (failures : List Bool) (messages : List Message) : PairingResult :=
  match checkRecords none messages with
  | some status => { status := status }
  | none =>
    match (selectPairs messages).run { failures := failures } with
    | .ok result _ => result
    | .error (.rejected status) w => {
        status := status
        camera0Count := w.camera0.count
        camera1Count := w.camera1.count
        recordDeltaAtOrAbove20ms := w.recordDeltaAtOrAbove20ms
        maximumRecordDeltaNs := w.maximumRecordDeltaNs }
    | .error .badAlloc _ => { status := .allocationFailure }

/-! ## The scan -/

def entries (camera : Camera) (messages : List Message) : List (UInt64 × Nat) :=
  messages.zipIdx.filterMap fun entry =>
    if entry.1.kind = camera.kind then some (entry.1.headerTimeNs, entry.2) else none

variable {messages : List Message}

theorem mem_entries {camera : Camera} {header : UInt64} {index : Nat} :
    (header, index) ∈ entries camera messages ↔
      ∃ message, messages[index]? = some message ∧ message.kind = camera.kind ∧
        message.headerTimeNs = header := by
  simp only [entries, mem_filterMap, Prod.exists, mem_zipIdx_iff_getElem?]
  constructor
  · rintro ⟨message, i, hmessage, hentry⟩
    split at hentry
    case isTrue hkind =>
        cases hentry
        exact ⟨message, hmessage, hkind, rfl⟩
    case isFalse => cases hentry
  · rintro ⟨message, hmessage, hkind, rfl⟩
    exact ⟨message, index, hmessage, if_pos hkind⟩

theorem entries_snoc (camera : Camera) (messages : List Message) (message : Message) :
    entries camera (messages ++ [message]) = entries camera messages ++
      if message.kind = camera.kind then [(message.headerTimeNs, messages.length)] else [] := by
  rw [entries, zipIdx_append, filterMap_append, ← entries]
  refine congrArg (entries camera messages ++ ·) ?_
  show (List.filterMap _ [(message, 0 + messages.length)]) = _
  rw [Nat.zero_add]
  split
  case isTrue hkind => exact filterMap_cons_some (by exact if_pos hkind)
  case isFalse hkind => exact filterMap_cons_none (by exact if_neg hkind)

def Ordered (byHeader : List (UInt64 × Nat)) : Prop :=
  byHeader.Pairwise fun a b => a.1 < b.1 ∧ a.2 < b.2

structure Scanned (camera : Camera) (messages : List Message) (scan : CameraScan) : Prop where
  byHeader : scan.byHeader = entries camera messages
  ordered : Ordered scan.byHeader
  previous : ∀ entry ∈ scan.byHeader, ∃ previous, scan.previousHeader = some previous ∧ entry.1 ≤ previous
  count : scan.count.toNat = scan.byHeader.length

theorem increment_eq_some {value next : UInt64} (h : increment value = some next) :
    next.toNat = value.toNat + 1 := by
  rw [increment] at h
  split at h
  case isTrue => cases h
  case isFalse hmax =>
      cases h
      have hlt := value.toNat_lt
      have hne : value.toNat ≠ 18446744073709551615 := fun heq => hmax (UInt64.toNat_inj.mp heq)
      rw [UInt64.toNat_add]
      show (value.toNat + 1) % 2 ^ 64 = _
      exact Nat.mod_eq_of_lt (by omega)

variable {byHeader : List (UInt64 × Nat)}

theorem emplace_last {header : UInt64} {index : Nat} (h : ∀ entry ∈ byHeader, entry.1 < header) :
    emplace header index byHeader = byHeader ++ [(header, index)] := by
  induction byHeader with
  | nil => rfl
  | cons entry rest ih =>
    have hentry : entry.1 < header := h entry mem_cons_self
    rw [emplace, if_neg (UInt64.lt_asymm hentry), if_neg (UInt64.ne_of_lt hentry).symm,
      ih fun e he => h e (mem_cons_of_mem _ he)]
    rfl

theorem Scanned.snoc {camera : Camera} {messages : List Message} {scan : CameraScan}
    (h : Scanned camera messages scan) {message : Message} (hkind : message.kind = camera.kind)
    (hbehind : ∀ entry ∈ scan.byHeader, entry.1 < message.headerTimeNs) {count : UInt64}
    (hcount : increment scan.count = some count) :
    Scanned camera (messages ++ [message])
      ⟨count, emplace message.headerTimeNs messages.length scan.byHeader, some message.headerTimeNs⟩ := by
  have hemplace : emplace message.headerTimeNs messages.length scan.byHeader = _ := emplace_last hbehind
  refine ⟨?_, ?_, ?_, ?_⟩
  · show emplace _ _ _ = _
    rw [hemplace, entries_snoc, if_pos hkind, h.byHeader]
  · show Ordered (emplace _ _ _)
    rw [hemplace]
    refine pairwise_append.mpr ⟨h.ordered, pairwise_singleton _ _, fun a ha b hb => ?_⟩
    rw [mem_singleton] at hb
    subst hb
    refine ⟨hbehind a ha, ?_⟩
    -- an entry has the index of a message before this one
    rw [h.byHeader] at ha
    obtain ⟨_, hmessage, -⟩ := mem_entries.mp ha
    exact (List.getElem?_eq_some_iff.mp hmessage).1
  · intro entry hentry
    refine ⟨_, rfl, ?_⟩
    rw [hemplace, mem_append, mem_singleton] at hentry
    rcases hentry with hentry | rfl
    · exact UInt64.le_of_lt (hbehind entry hentry)
    · exact UInt64.le_refl _
  · show count.toNat = (emplace _ _ _).length
    rw [hemplace, increment_eq_some hcount, h.count, length_append]
    rfl

theorem Scanned.other {camera : Camera} {scan : CameraScan}
    (h : Scanned camera messages scan) {message : Message} (hkind : message.kind ≠ camera.kind) :
    Scanned camera (messages ++ [message]) scan where
  byHeader := by rw [h.byHeader, entries_snoc, if_neg hkind, append_nil]
  ordered := h.ordered
  previous := h.previous
  count := h.count

structure ScanInv (messages : List Message) (w : Work) : Prop where
  scanned : ∀ camera, Scanned camera messages (w.scan camera)
  selected : w.selected = []
  maximum : w.maximumRecordDeltaNs = 0
  atOrAbove : w.recordDeltaAtOrAbove20ms = 0

theorem scanInv_start (failures : List Bool) : ScanInv [] { failures := failures } where
  scanned := fun camera => by
    cases camera <;> exact ⟨rfl, List.Pairwise.nil, fun _ h => absurd h not_mem_nil, rfl⟩
  selected := rfl
  maximum := rfl
  atOrAbove := rfl

variable {w : Work}

theorem wp_allocate {Q : Unit → Work → Prop} {E : Stop → Work → Prop}
    (hok : ∀ failures, Q ⟨⟩ { w with failures := failures })
    (hfail : ∀ failures, E .badAlloc { w with failures := failures }) : wp allocate Q E w := by
  obtain ⟨_, _, _, _, _, _ | ⟨_ | _, failures⟩⟩ := w
  · exact hok []
  · exact hok failures
  · exact hfail failures

def Refused (stop : Stop) : Prop := stop ≠ .rejected .accepted

theorem wp_receiveCamera (h : ScanInv messages w) (camera : Camera)
    (message : Message) (hkind : message.kind = camera.kind) :
    wp (receiveCamera camera message messages.length) (fun _ w' => ScanInv (messages ++ [message]) w')
      (fun stop _ => Refused stop) w := by
  rw [receiveCamera, wp_bind, wp_get]
  dsimp only
  cases hcount : increment (w.scan camera).count with
  | none =>
    rw [wp_throw]
    rintro ⟨⟩
  | some count =>
    simp only [wp_bind, wp_modify, wp_onlyIf, wp_throw]
    refine ⟨fun _ => by rintro ⟨⟩, fun _ => ⟨fun _ => by rintro ⟨⟩, fun hduplicate => ⟨fun _ => by rintro ⟨⟩, fun hreversed => ?_⟩⟩⟩
    refine wp_allocate (fun failures => ⟨fun _ => by rintro ⟨⟩, fun _ => ?_⟩) (fun _ => by rintro ⟨⟩)
    have hbehind : ∀ entry ∈ (w.scan camera).byHeader, entry.1 < message.headerTimeNs := by
      intro entry hentry
      obtain ⟨previous, hprevious, hle⟩ := (h.scanned camera).previous entry hentry
      rw [hprevious] at hduplicate hreversed
      have hne : message.headerTimeNs ≠ previous := fun heq => by simp [heq] at hduplicate
      have hnlt : ¬ message.headerTimeNs < previous := fun hlt => by simp [hlt] at hreversed
      rw [UInt64.le_iff_toNat_le] at hle
      rw [UInt64.lt_iff_toNat_lt] at hnlt ⊢
      have : message.headerTimeNs.toNat ≠ previous.toNat := fun heq => hne (UInt64.toNat_inj.mp heq)
      omega
    have hscan := (h.scanned camera).snoc hkind hbehind hcount
    refine ⟨fun c => ?_, ?_, ?_, ?_⟩
    · by_cases hc : c = camera
      · subst hc
        cases c <;> exact hscan
      · have hother : message.kind ≠ c.kind := by
          rw [hkind]
          cases c <;> cases camera <;> simp_all [Camera.kind]
        have := (h.scanned c).other hother
        cases c <;> cases camera <;> first | exact absurd rfl hc | exact this
    · cases camera <;> exact h.selected
    · cases camera <;> exact h.maximum
    · cases camera <;> exact h.atOrAbove

theorem wp_receive (h : ScanInv messages w) (message : Message) :
    wp (receive message messages.length) (fun _ w' => ScanInv (messages ++ [message]) w')
      (fun stop _ => Refused stop) w := by
  rw [receive]
  split
  case h_1 hkind => exact wp_receiveCamera h .camera0 message hkind
  case h_2 hkind => exact wp_receiveCamera h .camera1 message hkind
  case h_3 h0 h1 =>
      have hother : ∀ camera : Camera, message.kind ≠ camera.kind := fun camera => by
        cases camera
        · exact h0
        · exact h1
      exact ⟨fun c => (h.scanned c).other (hother c), h.selected, h.maximum, h.atOrAbove⟩

theorem wp_scanMessages (messages : List Message) {done : List Message} (h : ScanInv done w) :
    wp (scanMessages done.length messages) (fun _ w' => ScanInv (done ++ messages) w')
      (fun stop _ => Refused stop) w := by
  induction messages generalizing done w with
  | nil =>
    rw [append_nil]
    exact h
  | cons message messages ih =>
    rw [scanMessages, wp_bind]
    refine wp_mono (wp_receive h message) (fun _ w' hw' => ?_) (fun _ _ hstop => hstop)
    have := ih hw'
    rwa [length_append, length_singleton, append_assoc] at this

/-! ## The join -/

def joined (messages : List Message) (camera0 camera1 : List (UInt64 × Nat)) : List Pair :=
  camera0.filterMap fun entry => (find camera1 entry.1).map (makePair messages entry.1 entry.2)

theorem Ordered.compare (h : Ordered byHeader) {a b : UInt64 × Nat}
    (ha : a ∈ byHeader) (hb : b ∈ byHeader) :
    a = b ∨ (a.1 < b.1 ∧ a.2 < b.2) ∨ (b.1 < a.1 ∧ b.2 < a.2) := by
  induction byHeader with
  | nil => exact absurd ha not_mem_nil
  | cons entry rest ih =>
    obtain ⟨hfirst, hrest⟩ := pairwise_cons.mp h
    rcases mem_cons.mp ha with hae | ha'
    · rcases mem_cons.mp hb with hbe | hb'
      · exact .inl (hae.trans hbe.symm)
      · exact .inr (.inl (hae ▸ hfirst b hb'))
    · rcases mem_cons.mp hb with hbe | hb'
      · exact .inr (.inr (hbe ▸ hfirst a ha'))
      · exact ih hrest ha' hb'

theorem find_eq_some (h : Ordered byHeader) {header : UInt64} {index : Nat} :
    find byHeader header = some index ↔ (header, index) ∈ byHeader := by
  rw [find, Option.map_eq_some_iff]
  constructor
  · rintro ⟨entry, hentry, rfl⟩
    have hheader : entry.1 = header := by simpa using find?_some hentry
    rw [← hheader]
    exact mem_of_find?_eq_some hentry
  · intro hmem
    obtain ⟨entry, hentry⟩ : ∃ entry, byHeader.find? (fun entry => entry.1 == header) = some entry := by
      rw [← Option.isSome_iff_exists, find?_isSome]
      exact ⟨_, hmem, by simp⟩
    have hheader : entry.1 = header := by simpa using find?_some hentry
    refine ⟨entry, hentry, ?_⟩
    rcases h.compare (mem_of_find?_eq_some hentry) hmem with heq | ⟨hlt, -⟩ | ⟨hlt, -⟩
    · rw [heq]
    · exact absurd hheader (UInt64.ne_of_lt hlt)
    · exact absurd hheader (UInt64.ne_of_lt hlt).symm

variable {camera0 camera1 : List (UInt64 × Nat)}

theorem mem_joined (h : Ordered camera1) {pair : Pair} :
    pair ∈ joined messages camera0 camera1 ↔
      (pair.cameraTimestampNs, pair.cam0FilteredIndex) ∈ camera0 ∧
      (pair.cameraTimestampNs, pair.cam1FilteredIndex) ∈ camera1 ∧
      pair = makePair messages pair.cameraTimestampNs pair.cam0FilteredIndex pair.cam1FilteredIndex := by
  rw [joined, mem_filterMap]
  constructor
  · rintro ⟨entry, hentry, hpair⟩
    obtain ⟨camera1Index, hfind, rfl⟩ := Option.map_eq_some_iff.mp hpair
    exact ⟨hentry, (find_eq_some h).mp hfind, rfl⟩
  · rintro ⟨h0, h1, hpair⟩
    refine ⟨_, h0, ?_⟩
    show Option.map _ (find camera1 pair.cameraTimestampNs) = _
    rw [(find_eq_some h).mpr h1, hpair]
    rfl

def Increasing (pairs : List Pair) : Prop :=
  pairs.Pairwise fun p q =>
    p.anchorFilteredIndex < q.anchorFilteredIndex ∧ p.cam0FilteredIndex < q.cam0FilteredIndex ∧
      p.cam1FilteredIndex < q.cam1FilteredIndex ∧ p.cameraTimestampNs < q.cameraTimestampNs

/-- Camera 0 gives the order, and camera 1 follows because its headers increase with its indices. -/
theorem increasing_joined (messages : List Message)
    (h0 : Ordered camera0) (h1 : Ordered camera1) : Increasing (joined messages camera0 camera1) := by
  refine pairwise_filterMap.mpr (h0.imp fun {a b} hab p hp q hq => ?_)
  obtain ⟨i, hi, rfl⟩ := Option.map_eq_some_iff.mp hp
  obtain ⟨j, hj, rfl⟩ := Option.map_eq_some_iff.mp hq
  have hij : i < j := by
    rcases h1.compare ((find_eq_some h1).mp hi) ((find_eq_some h1).mp hj) with heq | ⟨-, hlt⟩ | ⟨hlt, -⟩
    · exact absurd (congrArg Prod.fst heq) (UInt64.ne_of_lt hab.1)
    · exact hlt
    · exact absurd hab.1 (UInt64.lt_asymm hlt)
  refine ⟨?_, hab.2, hij, hab.1⟩
  show min a.2 i < min b.2 j
  have := hab.2
  omega

theorem length_joined_le
    (h0 : Ordered camera0) (h1 : Ordered camera1) :
    (joined messages camera0 camera1).length ≤ camera0.length ∧
      (joined messages camera0 camera1).length ≤ camera1.length := by
  refine ⟨length_filterMap_le _ _, ?_⟩
  -- the indices of camera 1 are distinct and occur in its map
  have hsub : (joined messages camera0 camera1).map (fun p => (p.cameraTimestampNs, p.cam1FilteredIndex)) ⊆
      camera1 := by
    intro entry hentry
    obtain ⟨pair, hpair, rfl⟩ := mem_map.mp hentry
    exact ((mem_joined h1).mp hpair).2.1
  have hnodup : ((joined messages camera0 camera1).map
      (fun p => (p.cameraTimestampNs, p.cam1FilteredIndex))).Nodup := by
    refine pairwise_map.mpr ((increasing_joined messages h0 h1).imp fun hpq heq => ?_)
    exact absurd (congrArg Prod.fst heq) (UInt64.ne_of_lt hpq.2.2.2)
  have := (subperm_of_subset hnodup hsub).length_le
  rwa [length_map] at this

structure Measured (selected : List Pair) (maximum atOrAbove : UInt64) : Prop where
  maximum : maximum = (selected.map Pair.absoluteRecordDeltaNs).foldl max 0
  atOrAbove : atOrAbove.toNat =
    selected.countP fun pair => decide (recordDeltaAuditThresholdNs ≤ pair.absoluteRecordDeltaNs)

/-- What holds behind the headers `done` of camera 0. -/
structure JoinInv (messages : List Message) (scan0 scan1 : CameraScan) (done : List (UInt64 × Nat))
    (w : Work) : Prop where
  camera0 : w.camera0 = scan0
  camera1 : w.camera1 = scan1
  selected : w.selected = joined messages done scan1.byHeader
  measured : Measured w.selected w.maximumRecordDeltaNs w.recordDeltaAtOrAbove20ms

/-- The statuses of the third loop and of the block behind it: none is that of a reversed header. -/
def NotReversed (stop : Stop) : Prop := Refused stop ∧ stop ≠ .rejected .cameraHeaderOrderReversed

theorem wp_select1 (h : Measured w.selected w.maximumRecordDeltaNs w.recordDeltaAtOrAbove20ms)
    (pair : Pair) :
    wp (select1 pair) (fun _ w' => w'.camera0 = w.camera0 ∧ w'.camera1 = w.camera1 ∧
        w'.selected = w.selected ++ [pair] ∧
        Measured w'.selected w'.maximumRecordDeltaNs w'.recordDeltaAtOrAbove20ms)
      (fun stop _ => NotReversed stop) w := by
  have hmaximum : max w.maximumRecordDeltaNs pair.absoluteRecordDeltaNs =
      ((w.selected ++ [pair]).map Pair.absoluteRecordDeltaNs).foldl max 0 := by
    rw [map_append, foldl_append, ← h.maximum]
    rfl
  simp only [select1, wp_bind, wp_modify, wp_onlyIf, wp_get, decide_eq_true_eq, decide_eq_false_iff_not]
  refine ⟨fun hlong => ?_, fun hshort => ⟨trivial, trivial, trivial, hmaximum, ?_⟩⟩
  · cases hcount : increment w.recordDeltaAtOrAbove20ms with
    | none =>
      rw [wp_throw]
      exact ⟨by rintro ⟨⟩, by rintro ⟨⟩⟩
    | some count =>
      refine ⟨rfl, rfl, rfl, hmaximum, ?_⟩
      show count.toNat = _
      rw [increment_eq_some hcount, h.atOrAbove, countP_append, countP_singleton,
        if_pos (decide_eq_true hlong)]
  · show w.recordDeltaAtOrAbove20ms.toNat = _
    rw [h.atOrAbove, countP_append, countP_singleton, if_neg (by simpa using hshort)]
    rfl

theorem wp_joinHeaders {scan0 scan1 : CameraScan}
    (camera0 : List (UInt64 × Nat)) {done : List (UInt64 × Nat)}
    (h : JoinInv messages scan0 scan1 done w) :
    wp (joinHeaders messages camera0) (fun _ w' => JoinInv messages scan0 scan1 (done ++ camera0) w')
      (fun stop _ => NotReversed stop) w := by
  induction camera0 generalizing done w with
  | nil =>
    rw [append_nil]
    exact h
  | cons entry camera0 ih =>
    have hsnoc : ∀ rest, joined messages (done ++ [entry]) rest = joined messages done rest ++
        ((find rest entry.1).map (makePair messages entry.1 entry.2)).toList := by
      intro rest
      rw [joined, filterMap_append, ← joined]
      refine congrArg (joined messages done rest ++ ·) ?_
      rw [filterMap_cons]
      cases (find rest entry.1).map (makePair messages entry.1 entry.2) <;> rfl
    rw [joinHeaders, wp_bind, wp_get, wp_bind, wp_onSome, h.camera1,
      show done ++ entry :: camera0 = (done ++ [entry]) ++ camera0 by simp]
    refine ⟨fun camera1Index hfind => ?_, fun hfind => ih ⟨h.camera0, h.camera1, ?_, h.measured⟩⟩
    · refine wp_mono (wp_select1 h.measured _) (fun _ w' hw' => ih ?_) fun _ _ hstop => hstop
      obtain ⟨h0, h1, hselected, hmeasured⟩ := hw'
      refine ⟨h0.trans h.camera0, h1.trans h.camera1, ?_, hmeasured⟩
      rw [hselected, h.selected, hsnoc, hfind]
      rfl
    · rw [h.selected, hsnoc, hfind, Option.map_none, Option.toList_none, append_nil]

theorem wp_joinCameras (h : ScanInv messages w) :
    wp (joinCameras messages)
      (fun _ w' => JoinInv messages w.camera0 w.camera1 w.camera0.byHeader w')
      (fun stop _ => NotReversed stop) w := by
  have hstart : ∀ failures, JoinInv messages w.camera0 w.camera1 [] { w with failures := failures } := by
    intro failures
    refine ⟨rfl, rfl, h.selected, ?_⟩
    show Measured w.selected w.maximumRecordDeltaNs w.recordDeltaAtOrAbove20ms
    rw [h.selected, h.maximum, h.atOrAbove]
    exact ⟨rfl, rfl⟩
  rw [joinCameras, wp_bind, wp_get, wp_bind, wp_onlyIf]
  exact ⟨fun _ => wp_allocate (fun failures => wp_joinHeaders _ (hstart failures)) fun _ => ⟨nofun, nofun⟩,
    fun _ => wp_joinHeaders _ (hstart w.failures)⟩

/-! ## The end -/

theorem sortPairs_of_increasing {selected : List Pair} (h : Increasing selected) :
    sortPairs selected = selected :=
  List.Pairwise.insertionSort_eq (h.imp fun hpq => Nat.le_of_lt hpq.1)

theorem headerReversed_of_increasing {selected : List Pair} (h : Increasing selected) :
    headerReversed selected = false := by
  match selected, h with
  | [], _ => rfl
  | [_], _ => rfl
  | left :: right :: pairs, h =>
    obtain ⟨hfirst, hrest⟩ := pairwise_cons.mp h
    have hlt : ¬ right.cameraTimestampNs ≤ left.cameraTimestampNs :=
      UInt64.not_le.mpr (hfirst right mem_cons_self).2.2.2
    rw [headerReversed, headerReversed_of_increasing hrest, decide_eq_false hlt]
    rfl

def EqualHeaders (messages : List Message) (camera0Index camera1Index : Nat) : Prop :=
  ∃ a b, messages[camera0Index]? = some a ∧ messages[camera1Index]? = some b ∧
    a.kind = .camera0 ∧ b.kind = .camera1 ∧ a.headerTimeNs = b.headerTimeNs

structure Exact (messages : List Message) (result : PairingResult) : Prop where
  pair_iff : ∀ i j, (∃ pair ∈ result.pairs, pair.cam0FilteredIndex = i ∧ pair.cam1FilteredIndex = j) ↔
    EqualHeaders messages i j
  pair_eq : ∀ pair ∈ result.pairs, ∃ a b, messages[pair.cam0FilteredIndex]? = some a ∧
    messages[pair.cam1FilteredIndex]? = some b ∧
    pair.anchorFilteredIndex = min pair.cam0FilteredIndex pair.cam1FilteredIndex ∧
    pair.cameraTimestampNs = a.headerTimeNs ∧
    pair.absoluteRecordDeltaNs = absoluteDifference a.recordTimeNs b.recordTimeNs
  increasing : Increasing result.pairs
  camera0Count : result.camera0Count.toNat = messages.countP fun message => message.kind = .camera0
  camera1Count : result.camera1Count.toNat = messages.countP fun message => message.kind = .camera1
  camera0WithoutMatch : result.camera0WithoutMatch.toNat + result.pairs.length = result.camera0Count.toNat
  camera1WithoutMatch : result.camera1WithoutMatch.toNat + result.pairs.length = result.camera1Count.toNat
  measured : Measured result.pairs result.maximumRecordDeltaNs result.recordDeltaAtOrAbove20ms

theorem length_entries (camera : Camera) (messages : List Message) :
    (entries camera messages).length = messages.countP fun message => message.kind = camera.kind := by
  induction messages using List.reverseRecOn with
  | nil => rfl
  | append_singleton messages message ih =>
    rw [entries_snoc, length_append, ih, countP_append, countP_singleton]
    by_cases hkind : message.kind = camera.kind
    · rw [if_pos hkind, if_pos (decide_eq_true hkind)]
      rfl
    · rw [if_neg hkind, if_neg (by simpa using hkind)]
      rfl

theorem withoutMatch_add {count : UInt64} {pairs : List Pair} (h : pairs.length ≤ count.toNat) :
    (count - UInt64.ofNat pairs.length).toNat + pairs.length = count.toNat := by
  have hlt := count.toNat_lt
  have hlength : (UInt64.ofNat pairs.length).toNat = pairs.length := by
    rw [UInt64.toNat_ofNat']
    exact Nat.mod_eq_of_lt (by omega)
  rw [UInt64.toNat_sub_of_le, hlength]
  · omega
  · rw [UInt64.le_iff_toNat_le, hlength]
    exact h

theorem wp_finish {w₀ w : Work} (hscan : ScanInv messages w₀)
    (h : JoinInv messages w₀.camera0 w₀.camera1 w₀.camera0.byHeader w) :
    wp finish (fun result _ => result.status = .accepted ∧ Exact messages result) (fun stop _ => NotReversed stop) w := by
  have scan0 := hscan.scanned .camera0
  have scan1 := hscan.scanned .camera1
  have hincreasing : Increasing w.selected := by
    rw [h.selected]
    exact increasing_joined messages scan0.ordered scan1.ordered
  rw [finish, wp_bind, wp_get]
  simp only [sortPairs_of_increasing hincreasing, headerReversed_of_increasing hincreasing]
  rw [wp_bind, wp_onlyIf]
  refine ⟨fun _ => ?_, fun _ => ?_⟩
  · rw [wp_throw]
    exact ⟨nofun, nofun⟩
  rw [wp_bind, wp_onlyIf]
  refine ⟨nofun, fun _ => ?_⟩
  have hcount0 : w.camera0.count.toNat = (entries .camera0 messages).length := by
    rw [h.camera0, ← scan0.byHeader]
    exact scan0.count
  have hcount1 : w.camera1.count.toNat = (entries .camera1 messages).length := by
    rw [h.camera1, ← scan1.byHeader]
    exact scan1.count
  have hmem : ∀ pair, pair ∈ w.selected ↔
      (pair.cameraTimestampNs, pair.cam0FilteredIndex) ∈ entries .camera0 messages ∧
      (pair.cameraTimestampNs, pair.cam1FilteredIndex) ∈ entries .camera1 messages ∧
      pair = makePair messages pair.cameraTimestampNs pair.cam0FilteredIndex pair.cam1FilteredIndex := by
    intro pair
    rw [h.selected, ← scan0.byHeader, ← scan1.byHeader]
    exact mem_joined scan1.ordered
  obtain ⟨hle0, hle1⟩ : (joined messages _ _).length ≤ _ ∧ _ := length_joined_le scan0.ordered scan1.ordered
  refine ⟨rfl, fun i j => ⟨?_, ?_⟩, fun pair hpair => ?_, hincreasing, ?_, ?_, ?_, ?_, h.measured⟩
  · rintro ⟨pair, hpair, rfl, rfl⟩
    obtain ⟨h0, h1, -⟩ := (hmem pair).mp hpair
    obtain ⟨a, ha, hakind, haheader⟩ := mem_entries.mp h0
    obtain ⟨b, hb, hbkind, hbheader⟩ := mem_entries.mp h1
    exact ⟨a, b, ha, hb, hakind, hbkind, haheader.trans hbheader.symm⟩
  · rintro ⟨a, b, ha, hb, hakind, hbkind, hheader⟩
    refine ⟨makePair messages a.headerTimeNs i j, (hmem _).mpr ⟨?_, ?_, rfl⟩, rfl, rfl⟩
    · exact mem_entries.mpr ⟨a, ha, hakind, rfl⟩
    · exact mem_entries.mpr ⟨b, hb, hbkind, hheader.symm⟩
  · obtain ⟨h0, h1, hpair⟩ := (hmem pair).mp hpair
    obtain ⟨a, ha, -, haheader⟩ := mem_entries.mp h0
    obtain ⟨b, hb, -, -⟩ := mem_entries.mp h1
    refine ⟨a, b, ha, hb, congrArg Pair.anchorFilteredIndex hpair, haheader.symm, ?_⟩
    rw [congrArg Pair.absoluteRecordDeltaNs hpair, makePair, getD_eq_getElem?_getD,
      getD_eq_getElem?_getD, ha, hb]
    rfl
  · exact hcount0.trans (length_entries .camera0 messages)
  · exact hcount1.trans (length_entries .camera1 messages)
  · refine withoutMatch_add ?_
    rw [hcount0, h.selected, ← scan0.byHeader]
    exact hle0
  · refine withoutMatch_add ?_
    rw [hcount1, h.selected, ← scan1.byHeader]
    exact hle1

theorem wp_selectPairs (failures : List Bool) (messages : List Message) :
    wp (selectPairs messages) (fun result _ => result.status = .accepted ∧ Exact messages result)
      (fun stop _ => Refused stop ∧ (stop = .rejected .cameraHeaderOrderReversed →
        ∃ w, (scanMessages 0 messages).run { failures := failures } = .error stop w))
      { failures := failures } := by
  have hscan := wp_scanMessages messages (scanInv_start failures)
  rw [selectPairs, wp_bind]
  unfold wp at hscan ⊢
  cases hrun : (scanMessages 0 messages).run { failures := failures } with
  | error stop w =>
    have : (scanMessages ([] : List Message).length messages).run { failures := failures } = _ := hrun
    rw [this] at hscan
    exact ⟨hscan, fun _ => ⟨w, rfl⟩⟩
  | ok u w =>
    have hinv : ScanInv messages w := by
      have : (scanMessages ([] : List Message).length messages).run { failures := failures } = _ := hrun
      rw [this] at hscan
      exact hscan
    show wp (joinCameras messages >>= fun _ => finish) _ _ w
    rw [wp_bind]
    have hlate : ∀ stop, NotReversed stop → Refused stop ∧ (stop = .rejected .cameraHeaderOrderReversed →
        ∃ w' : Work, (EStateM.Result.ok u w : EStateM.Result Stop Work Unit) = .error stop w') :=
      fun stop hstop => ⟨hstop.1, fun heq => absurd heq hstop.2⟩
    refine wp_mono (wp_joinCameras hinv) (fun _ w' hw' => ?_) fun _ _ hstop => hlate _ hstop
    exact wp_mono (wp_finish hinv hw') (fun _ _ hexact => hexact) fun _ _ hstop => hlate _ hstop

theorem checkRecords_status {previous : Option UInt64} {status : PairingStatus}
    (h : checkRecords previous messages = some status) :
    status = .invalidMessageKind ∨ status = .recordTimeReversed := by
  induction messages generalizing previous with
  | nil => cases h
  | cons message messages ih =>
    rw [checkRecords] at h
    split at h
    · exact .inl (Option.some.inj h).symm
    · split at h
      · exact .inr (Option.some.inj h).symm
      · exact ih h

theorem select_exact_pairs (failures : List Bool) (messages : List Message) :
    ((select failures messages).status = .accepted → Exact messages (select failures messages)) ∧
    ((select failures messages).status = .cameraHeaderOrderReversed →
      ∃ w, (scanMessages 0 messages).run { failures := failures } =
        .error (.rejected .cameraHeaderOrderReversed) w) := by
  rw [select]
  cases hrecords : checkRecords none messages with
  | some status =>
    -- an early return of the first loop, with another status
    rcases checkRecords_status hrecords with rfl | rfl
    · exact ⟨nofun, nofun⟩
    · exact ⟨nofun, nofun⟩
  | none =>
    have hselect := wp_selectPairs failures messages
    unfold wp at hselect
    dsimp only
    cases hrun : (selectPairs messages).run { failures := failures } with
    | ok result w =>
      rw [hrun] at hselect
      refine ⟨fun _ => hselect.2, fun h => ?_⟩
      exact absurd (hselect.1.symm.trans h) nofun
    | error stop w =>
      rw [hrun] at hselect
      cases stop with
      | badAlloc => exact ⟨nofun, nofun⟩
      | rejected status =>
        refine ⟨fun h => absurd (congrArg Stop.rejected h) hselect.1, fun h => ?_⟩
        have hstatus : status = .cameraHeaderOrderReversed := h
        subst hstatus
        exact hselect.2 rfl

/-- An IMU message, two pairs in the other camera order each, and a message without a match. -/
theorem select_exact_pairs_two :
    let messages : List Message := [⟨.camera1, 10, 7⟩, ⟨.imu, 11, 3⟩, ⟨.camera0, 12, 7⟩, ⟨.camera0, 13, 8⟩,
      ⟨.camera0, 14, 9⟩, ⟨.camera1, 20000014, 9⟩]
    (select [] messages).pairs = [⟨0, 2, 0, 7, 2⟩, ⟨4, 4, 5, 9, 20000000⟩] ∧ Exact messages (select [] messages) :=
  ⟨by decide, (select_exact_pairs [] _).1 (by decide)⟩

end Bravo.Serial.KaistVio
