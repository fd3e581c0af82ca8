import Bravo.Basic.Json
import Bravo.Basic.Lines
import Bravo.Timing.Restoration
import Bravo.Trace.Sha256

/-! # The recovery journal file

`_JournalHandle` appends one canonical JSON line for each event, chained by the digest of the line
before. The guardian appends through a copy of the handle that it refreshes first, and the transaction
refreshes its own before it goes on, so one handle stands for both. A crash leaves a prefix of the file.
The checks of the name and of the inode are left out: the file stays where it was created.
-/

namespace Bravo.Timing

open Bravo.Json Bravo.Trace

def maxJournalBytes : Nat := 8 * 1024 * 1024

def maxJournalRecords : Nat := 4096

def noDigest : String := String.ofList (List.replicate 64 '0')

/-! ## Snapshots as records -/

def ControlValue.asRecord (v : ControlValue) : Json :=
  .obj [("parser", .str v.parser), ("path", .str v.path), ("text", .str v.text)]

def ControlSnapshot.asRecord (s : ControlSnapshot) : Json :=
  .obj [("modules_preexisting", .arr (s.modulesPreexisting.map .str)),
    ("process_affinity", .arr (s.processAffinity.map fun cpu : Nat => .int cpu)),
    ("record_type", .str "cp2_timing_control_prior_state"), ("schema_version", .int 1),
    ("services_active", .arr (s.servicesActive.map .str)), ("values", .arr (s.values.map (·.asRecord)))]

def components : List Char → List (List Char)
  | [] => [[]]
  | c :: cs =>
    if c = '/' then [] :: components cs
    else match components cs with
      | [] => [[c]]
      | component :: rest => (c :: component) :: rest

def isabs (path : String) : Bool := path.toList.head? = some '/'

/-- One component of the loop of `posixpath.normpath`, on the components so far in reverse. -/
def normStep (absolute : Bool) (kept : List (List Char)) (component : List Char) : List (List Char) :=
  if component = [] ∨ component = ['.'] then kept
  else if component ≠ ['.', '.'] ∨ (!absolute && kept.isEmpty) ∨ kept.head? = some ['.', '.'] then
    component :: kept
  else kept.tail

def normpath (path : String) : String :=
  let cs := path.toList
  let slashes := if cs.take 2 = ['/', '/'] ∧ cs.take 3 ≠ ['/', '/', '/'] then ['/', '/']
    else if isabs path then ['/'] else []
  let kept := (components cs).foldl (normStep (isabs path)) []
  let normal := slashes ++ ['/'].intercalate kept.reverse
  if normal = [] then "." else String.ofList normal

def allowedModules : List String := ["k10temp", "msr"]

def allowedService : String := "irqbalance"

def refuse {α : Type} (message : String) : Except ControlError α := .error (.control message)

variable (b : Backend)

def snapshotValue (item : Json) : Except ControlError ControlValue :=
  if item.keys ≠ some ["parser", "path", "text"] then refuse "control snapshot value keys differ"
  else match item.field "path", item.field "parser", item.field "text" with
    | some (.str path), some (.str parser), some (.str text) =>
      if !isabs path ∨ normpath path ≠ path then
        refuse "control snapshot path is not exact absolute syntax"
      else do
        b.parseControlValue text parser
        return ⟨path, parser, text⟩
    | _, _, _ => .error (.other "control snapshot value is not a string")

def string? : Json → Option String
  | .str s => some s
  | _ => none

def snapshotNames (allowed : List String) (message : String) : Option Json → Except ControlError (List String)
  | some (.arr items) =>
    match items.mapM string? with
    | some names =>
      if names.Pairwise (· < ·) ∧ ∀ name ∈ names, name ∈ allowed then .ok names else refuse message
    | none => refuse message
  | _ => refuse message

def plainU64 (label : String) : Json → Except ControlError Nat
  | .int n => if 0 ≤ n ∧ n < 2 ^ 64 then .ok n.toNat
      else refuse (label ++ " is outside the unsigned 64-bit domain")
  | _ => refuse (label ++ " is outside the unsigned 64-bit domain")

def snapshotAffinity : Option Json → Except ControlError (List Nat)
  | some (.arr items) => do
    let cpus ← items.mapM (plainU64 "snapshot affinity CPU")
    if cpus ≠ [] ∧ cpus.Pairwise (· < ·) ∧ ∀ cpu ∈ cpus.getLast?, cpu ≤ 4095 then .ok cpus
    else refuse "control snapshot affinity is not sorted, unique, and bounded"
  | _ => refuse "control snapshot affinity is not a list"

def snapshotFromRecord (value : Json) : Except ControlError ControlSnapshot := do
  if value.keys ≠ some ["modules_preexisting", "process_affinity", "record_type", "schema_version",
      "services_active", "values"] then refuse "control snapshot journal keys differ"
  else if !isNat 1 (value.field "schema_version") ||
      !isStr "cp2_timing_control_prior_state" (value.field "record_type") then
    refuse "control snapshot journal identity differs"
  else match value.field "values" with
    | some (.arr items) => do
      let values ← items.mapM (snapshotValue b)
      let modules ← snapshotNames allowedModules "control snapshot module population is not canonical"
        (value.field "modules_preexisting")
      let services ← snapshotNames [allowedService] "control snapshot service population is not canonical"
        (value.field "services_active")
      let cpus ← snapshotAffinity (value.field "process_affinity")
      return ⟨values, modules, services, cpus⟩
    | _ => refuse "control snapshot values are not a list"

/-! ## The handle -/

structure JournalHandle where
  payload : List UInt8 := []
  profileSha256 : String
  transactionId : String
  nextSequence : Nat := 0
  previousSha256 : String := noDigest

abbrev Journaling := EStateM ControlError JournalHandle

def failJournal {α : Type} (message : String) : Journaling α := throw (.control message)

/-- `[a-z0-9_.:-]+`, at most 192 characters. -/
def validEvent (event : String) : Bool :=
  event.toList ≠ [] && decide (event.toList.length ≤ 192) &&
    event.toList.all fun c => c.isLower || c.isDigit || [Char.ofNat 0x5f, '.', ':', '-'].contains c

def eventRecord (profileSha256 transactionId : String) (sequence : Nat) (previous event : String)
    (snapshot : Json) : Json :=
  .obj [("event", .str event), ("previous_sha256", .str previous), ("profile_sha256", .str profileSha256),
    ("record_type", .str "cp2_timing_control_journal_event"), ("schema_version", .int 1),
    ("sequence", .int sequence), ("snapshot", snapshot), ("transaction_id", .str transactionId)]

def JournalHandle.record (h : JournalHandle) (event : String) (snapshot : Json) : Json :=
  eventRecord h.profileSha256 h.transactionId h.nextSequence h.previousSha256 event snapshot

def canonicalJson (v : Json) : List UInt8 := v.canonicalBytes ++ [newline]

/-- `_JournalHandle.append`: the bound on the bytes is checked before the write, the one on the records
after it. -/
def JournalHandle.append (event : String) (snapshot : Json) : Journaling Unit := do
  onlyIf (!validEvent event) (failJournal "recovery journal event name is invalid")
  let h ← get
  let payload := canonicalJson (h.record event snapshot)
  onlyIf (maxJournalBytes < h.payload.length + payload.length)
    (failJournal "recovery journal exceeds its byte bound")
  modify fun h => { h with
    payload := h.payload ++ payload
    previousSha256 := sha256Hex payload
    nextSequence := h.nextSequence + 1 }
  onlyIf (maxJournalRecords < h.nextSequence + 1) (failJournal "recovery journal exceeds its record bound")

def exactKeys : List String :=
  ["event", "previous_sha256", "profile_sha256", "record_type", "schema_version", "sequence", "snapshot",
    "transaction_id"]

/-- The snapshot of a record is the prior state in the first record and null in the others. -/
def checkSnapshot (sequence : Nat) (record : Json) : Except ControlError Unit :=
  if sequence = 0 then
    if !isStr "prior_state_captured" (record.field "event") || isNull (record.field "snapshot") then
      refuse "recovery journal lacks its unique prior-state record"
    else do
      let _ ← snapshotFromRecord b ((record.field "snapshot").getD .null)
      return ⟨⟩
  else if !isNull (record.field "snapshot") then refuse "recovery journal repeats the prior-state snapshot"
  else return ⟨⟩

def checkRecord (h : JournalHandle) (sequence : Nat) (previous : String) (record : Json) :
    Except ControlError Unit :=
  if record.keys ≠ some exactKeys then refuse "recovery journal record keys differ"
  else if !isNat 1 (record.field "schema_version") ||
      !isStr "cp2_timing_control_journal_event" (record.field "record_type") ||
      !isStr h.profileSha256 (record.field "profile_sha256") ||
      !isStr h.transactionId (record.field "transaction_id") ||
      !isNat sequence (record.field "sequence") || !isStr previous (record.field "previous_sha256") then
    refuse "recovery journal identity or hash chain differs"
  else checkSnapshot b sequence record

/-- Canonical text is not refused, so it is read first. -/
def strictJournalJson (payload : List UInt8) : Except ControlError Json :=
  match strictJson payload with
  | some (.obj entries) => .ok (.obj entries)
  | _ => refuse ((b.jsonRefusal payload).getD "control journal record is not canonically encoded")

/-- The loop of `records` over the lines. -/
def readChain (b : Backend) (h : JournalHandle) : Nat → String → List (List UInt8) →
    Except ControlError (List Json)
  | _, _, [] => .ok []
  | sequence, previous, line :: lines => do
    if line.getLast? ≠ some newline then refuse "recovery journal has an unterminated record"
    else do
      let record ← strictJournalJson b line.dropLast
      checkRecord b h sequence previous record
      let rest ← readChain b h (sequence + 1) (sha256Hex line) lines
      return record :: rest

def JournalHandle.records (h : JournalHandle) : Except ControlError (List Json) :=
  if h.payload = [] ∨ maxJournalBytes < h.payload.length then
    refuse "recovery journal byte count is invalid"
  else if h.payload.getLast? ≠ some newline then refuse "recovery journal read is incomplete"
  else if maxJournalRecords < (splitLines h.payload).length then
    refuse "recovery journal record count is invalid"
  else readChain b h 0 noDigest (splitLines h.payload)

def JournalHandle.refreshChain : Journaling Unit := do
  let h ← get
  let records ← liftExcept (h.records b)
  modify fun h => { h with
    nextSequence := records.length
    previousSha256 := sha256Hex ((splitLines h.payload).getLastD []) }

inductive JournalCall
  | append (event : String)
  | refreshChain

def JournalCall.run : JournalCall → Journaling Unit
  | .append event => JournalHandle.append event .null
  | .refreshChain => JournalHandle.refreshChain b

def JournalHandle.perform (h : JournalHandle) (call : JournalCall) : JournalHandle :=
  finalState ((call.run b).run h)

def handleOf : EStateM.Result ControlError JournalHandle Unit → Except ControlError JournalHandle
  | .ok _ h => .ok h
  | .error e _ => .error e

def createJournal (profileSha256 transactionId : String) (snapshot : ControlSnapshot) :
    Except ControlError JournalHandle :=
  handleOf ((JournalHandle.append "prior_state_captured" snapshot.asRecord).run
    { profileSha256 := profileSha256, transactionId := transactionId })

/-! ## Recovery -/

/-- `os.urandom(16).hex()` as the reader admits it. -/
def validTransactionId (id : String) : Bool :=
  id.toList.length = 32 && id.toList.all fun c => c.isDigit || decide ('a' ≤ c ∧ c ≤ 'f')

/-- `_open_existing_journal`, from the bytes of the file on. -/
def openExistingJournal (profileSha256 : String) (payload : List UInt8) :
    Except ControlError JournalHandle :=
  if payload = [] ∨ maxJournalBytes < payload.length then
    refuse "existing recovery journal byte count is invalid"
  else
    let firstLine := (splitLines payload).headD []
    if firstLine.getLast? ≠ some newline then refuse "existing recovery journal first record is incomplete"
    else do
      let first ← strictJournalJson b firstLine.dropLast
      match first.field "transaction_id" with
      | some (.str transactionId) =>
        if validTransactionId transactionId then
          handleOf ((JournalHandle.refreshChain b).run ⟨payload, profileSha256, transactionId, 0, noDigest⟩)
        else refuse "existing recovery journal transaction ID is invalid"
      | _ => refuse "existing recovery journal transaction ID is invalid"

/-- The snapshot that `recover_control_journal` restores: the journal is opened, its records are read and
the snapshot of the first one is taken. -/
def recoverySnapshot (profileSha256 : String) (payload : List UInt8) :
    Except ControlError ControlSnapshot := do
  let h ← openExistingJournal b profileSha256 payload
  let records ← h.records b
  match (records.head?.bind (·.field "snapshot")) with
  | some value => snapshotFromRecord b value
  | none => .error (.other "recovery journal has no snapshot")

end Bravo.Timing
