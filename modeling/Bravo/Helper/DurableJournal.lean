import Bravo.Helper.Packets

/-! # The recovery directory and its journals

`_DurableJournal` and `DurableJournalStore` over a directory of files. Every call that touches the file
system or runs a fault hook can raise before or after its effect, and the process can die at any of them;
neighbouring calls without an effect are one operation. The owner, mode and lock checks of descriptors are
such calls: they raise or they pass.
-/

namespace Bravo.Helper

open Bravo.Json

/-! ## Canonical bytes -/

def isMapping : Json → Bool
  | .obj _ => true
  | _ => false

/-- The values of the helper, and `json.loads` on the texts that `json.dumps` makes of them. -/
def plainJson : Packet.JsonModule Empty where
  floatRepr := Empty.elim
  loads text :=
    match (PyStr.encode text.dropLast).bind strictJson with
    | some value => .ok (PyJson.ofJson value)
    | none => .error (.valueError "Expecting value")

def boundedCanonicalJsonBytes (maximumBytes : Nat) (label : String) (value : Json) :
    Except HelperError (List UInt8) :=
  Packet.boundedCanonicalJsonBytes plainJson maximumBytes label (PyJson.ofJson value)

def canonicalJsonBytes : Json → Except HelperError (List UInt8) :=
  boundedCanonicalJsonBytes maxPacketBytes "canonical protocol record"

def canonicalControlStateBytes : Json → Except HelperError (List UInt8) :=
  boundedCanonicalJsonBytes maxControlStateBytes "canonical control state"

def strictBoundedJsonBytes (maximumBytes : Nat) (label : String) (payload : List UInt8) :
    Except HelperError Json := do
  let value ← Packet.strictBoundedJsonBytes plainJson maximumBytes label payload
  return value.toJson

/-! ## The world of a helper process -/

/-- `cp2e-privileged-<identifier>.pending` and what the renames of `complete` make of it: the first one
gives `….restored`, and each further one puts another dot before `restored`. -/
inductive JournalName
  | pending (identifier : String)
  | restored (identifier : String) (dots : Nat)
deriving DecidableEq, Repr

/-- `restored_name` -/
def JournalName.renamed : JournalName → JournalName
  | .pending identifier => .restored identifier 0
  | .restored identifier dots => .restored identifier (dots + 1)

def JournalName.isPending : JournalName → Bool
  | .pending _ => true
  | .restored _ _ => false

/-- The fields of a `_DurableJournal`. -/
structure Journal where
  name : JournalName
  identifier : String
  binding : Binding
  peer : PeerCredentials
  nonceSha256 : String
  prior : Json
  records : Nat := 0
  previousSha256 : String := noDigest
  closed : Bool := false

/-- An accepted client command: its record type, its sequence number and its further fields. -/
structure Command where
  recordType : String
  sequence : Nat
  sessionId : String
  observation : Option (String × Nat) := none
deriving DecidableEq, Repr

/-- What the helper does, in the order in which it does it. -/
inductive Event (η : Type)
  /-- A client command passed all its checks. -/
  | accepted (command : Command)
  | transcribed (event : String)
  /-- The backend returned this prior state. -/
  | captured (prior : Json)
  /-- A pending journal was created under a name that was free. -/
  | created (name : JournalName)
  /-- A journal record was written and synced. -/
  | recorded (event : String)
  | evidenced (phase : String)
  /-- `backend.apply` is entered with this prior: the host, the journal of the process, and the pending
  journals of the directory. -/
  | applyEntered (prior : Json) (host : η) (journal : Option JournalName) (pending : List JournalName)
  /-- `backend.restore` is entered with this prior. -/
  | restoreEntered (prior : Json)
  /-- A validation against this prior returned this state. -/
  | validated (prior restored : Json)
  /-- `backend.stop_population_guard` is called. -/
  | guardStopped
  | renamed (name : JournalName) (prior : Json)
  | closed (descriptor : String)

/-- `_TranscriptBuilder`: its lines with their events. -/
structure TranscriptLine where
  event : String
  bytes : List UInt8
deriving DecidableEq, Repr

structure EvidenceRow where
  phase : String
  stateSha256 : String
  recordSha256 : String
  endOffset : Nat
deriving DecidableEq, Repr

/-- `ControlEvidenceWriter`: the bytes of its file and its fields. -/
structure ControlEvidence where
  file : List UInt8 := []
  identity : Option (Binding × String × String) := none
  written : List UInt8 := []
  rows : List EvidenceRow := []
  isSealed : Bool := false
  closed : Bool := false

inductive SessionState
  | new
  | authenticated
  | capturingPrior
  | priorCaptured
  | applying
  | applied
  | observed (runIndex : Nat) (post : Bool)
  | restoring
  | restored
  | indeterminate
  | closed
deriving DecidableEq, Repr

inductive TerminalStatus
  | success
  | failClosed
  | indeterminate
deriving DecidableEq, Repr

/-- The terminal receipt; its binding and the digest of it are those of the session. -/
structure TerminalReceipt where
  abnormalRecovery : Bool
  controlEvidenceSealSha256 : Option String
  closureErrorType : Option String
  closurePassed : Bool
  errorType : Option String
  eventCount : Nat
  firstRecordSha256 : Option String
  journalId : Option String
  lastRecordSha256 : Option String
  populationSealSha256 : Option String
  populationStopCount : Nat
  restorationProved : Bool
  sessionId : Option String
  terminalJournalSha256 : Option String
  terminalStatus : TerminalStatus
  transcriptSha256 : String
  transcriptSize : Nat
deriving DecidableEq, Repr

/-- The fields of a `HelperSession`. -/
structure Session where
  state : SessionState := .new
  history : List SessionState := [.new]
  sessionId : Option String := none
  nonceSha256 : Option String := none
  actualPeer : Option PeerCredentials := none
  prior : Option Json := none
  abnormalRecovery : Bool := false
  recoveryPreflightCompleted : Bool := false
  mutationPossible : Bool := false
  populationGuardStarted : Bool := false
  populationStopAttempted : Bool := false
  populationStopCount : Nat := 0
  populationSeal : Option Json := none
  populationSealSha256 : Option String := none
  controlEvidenceSeal : Option Json := none
  controlEvidenceSealSha256 : Option String := none
  journalId : Option String := none
  terminalJournalSha256 : Option String := none
  transcript : List TranscriptLine := []
  terminalReceipt : Option TerminalReceipt := none

/-- The host, the recovery directory, the packets that are still to arrive, and the process: its journal
handle, its control evidence and its session. `chunks` are the counts that `os.write` returns short. -/
structure World (η : Type) where
  host : η
  log : List (Event η) := []
  directory : List (JournalName × List UInt8) := []
  inbox : List Json := []
  chunks : List Nat := []
  draws : Nat := 0
  journal : Option Journal := none
  evidence : ControlEvidence := {}
  session : Session := {}

/-- The world when a process starts: it has no handle, no evidence and no session yet. -/
def World.start {η : Type} (host : η) (directory : List (JournalName × List UInt8)) (inbox : List Json)
    (chunks : List Nat) (draws : Nat) (log : List (Event η)) : World η :=
  { host := host, directory := directory, inbox := inbox, chunks := chunks, draws := draws, log := log }

/-- SHA-256, the random source (the hexadecimal text of so many bytes, for each draw) and the backend. -/
structure Config (η : Type) where
  sha256 : List UInt8 → String
  urandom : Nat → Nat → String
  backend : Backend η

abbrev Helping (η α : Type) := EStateM (Exit HelperError) (Machine (Exit HelperError) (World η)) α

section Programs

variable {η α : Type}

def raise (e : HelperError) : Helping η α := throw (.raised e)

def failWith (message : String) : Helping η α := raise ⟨.privilegedHelperError, message⟩

def indeterminate (message : String) : Helping η α := raise ⟨.recoveryIndeterminate, message⟩

def ofExcept : Except HelperError α → Helping η α
  | .ok a => pure a
  | .error e => raise e

def read (f : World η → α) : Helping η α := do
  let m ← get
  return f m.state

def note (event : Event η) : Helping η Unit := update fun w => { w with log := w.log ++ [event] }

/-! ## Calls of the backend -/

def callMethod (f : Method η α) : Helping η α := fun m =>
  match f m.state.host with
  | (host, .ok a) => .ok a { m with state := { m.state with host := host } }
  | (host, .error e) => .error e { m with state := { m.state with host := host } }

def setHost (host : η) : Helping η Unit := update fun w => { w with host := host }

def interact (boundary : String → Helping η Unit) : Interaction η → Helping η Unit
  | .done host => setHost host
  | .raised host e => do
    setHost host
    throw e
  | .call host label next => do
    setHost host
    match ← rescue (boundary label) with
    | .ok _ => interact boundary (next none)
    | .error e => interact boundary (next (some e))

variable (c : Config η)

def backendApply (prior : Json) (boundary : String → Helping η Unit) : Helping η Unit := do
  let w ← read id
  note (.applyEntered prior w.host (w.journal.map (·.name))
    ((w.directory.map (·.1)).filter JournalName.isPending))
  interact boundary (c.backend.apply prior w.host)

def backendRestore (prior : Json) (boundary : String → Helping η Unit) : Helping η Unit := do
  note (.restoreEntered prior)
  let host ← read (·.host)
  interact boundary (c.backend.restore prior host)

def validateAgainst (f : Json → Method η Json) (prior : Json) : Helping η Json := do
  let restored ← callMethod (f prior)
  note (.validated prior restored)
  return restored

/-! ## Files -/

def fileBytes (name : JournalName) (w : World η) : List UInt8 :=
  ((w.directory.find? fun entry => entry.1 = name).map (·.2)).getD []

def fileExists (name : JournalName) (w : World η) : Bool := w.directory.any fun entry => entry.1 = name

def appendBytes (name : JournalName) (bytes : List UInt8) (w : World η) : World η :=
  { w with directory := w.directory.map fun entry =>
      if entry.1 = name then (entry.1, entry.2 ++ bytes) else entry }

/-- The write loop: a fault can fall between any two bytes. -/
def writeAll (name : JournalName) (bytes : List UInt8) : Helping η Unit := do
  let count ← read fun w => w.chunks.headD bytes.length
  update fun w => { w with chunks := w.chunks.tail }
  operate (appendBytes name (bytes.take count))
  operate (appendBytes name (bytes.drop count))

/-! ## The journal -/

/-- `[a-z0-9_]+`, at most 128 characters. -/
def validEvent (event : String) : Bool :=
  event.toList ≠ [] && decide (event.toList.length ≤ 128) &&
    event.toList.all fun c => c.isLower || c.isDigit || c = Char.ofNat 0x5f

def payloadRecord : Option Json → Json
  | some payload => payload
  | none => .null

namespace Journal

def record (j : Journal) (event : String) (payload : Option Json) : Json :=
  .obj [("binding", j.binding.asRecord), ("event", .str event), ("journal_id", .str j.identifier),
    ("nonce_sha256", .str j.nonceSha256), ("payload", payloadRecord payload), ("peer", j.peer.asRecord),
    ("previous_sha256", .str j.previousSha256), ("record_type", .str "cp2e_privileged_journal_event"),
    ("schema_version", .int schemaVersion), ("sequence", .int j.records)]

end Journal

def verifyName (j : Journal) : Helping η Unit := do
  onlyIf j.closed (failWith "privileged journal handle is closed")
  let found ← read (fileExists j.name)
  onlyIf (!found) (raise ⟨.other "FileNotFoundError", "privileged journal"⟩)
  operate id

def currentJournal : Helping η Journal := do
  match ← read (·.journal) with
  | some j => return j
  | none => raise ⟨.other "AttributeError", "append"⟩

/-- `_DurableJournal.append` -/
def journalAppend (event : String) (payload : Option Json) : Helping η Unit := do
  let j ← currentJournal
  onlyIf (!validEvent event) (failWith "privileged journal event name is invalid")
  onSome payload fun payload => do
    let _ ← ofExcept
      (boundedCanonicalJsonBytes maxJournalBytes "canonical privileged journal payload" payload)
  verifyName j
  onlyIf (maxJournalRecords ≤ j.records) (failWith "privileged journal record bound is exhausted")
  let encoded ← ofExcept
    (boundedCanonicalJsonBytes maxJournalBytes "canonical privileged journal record" (j.record event payload))
  let size ← read fun w => (fileBytes j.name w).length
  onlyIf (maxJournalBytes < size + encoded.length) (failWith "privileged journal exceeds its byte bound")
  operate id
  writeAll j.name encoded
  operate id
  update fun w => { w with
    journal := some { j with previousSha256 := c.sha256 encoded, records := j.records + 1 }
    log := w.log ++ [.recorded event] }

def recordKeys : List String :=
  ["binding", "event", "journal_id", "nonce_sha256", "payload", "peer", "previous_sha256", "record_type",
    "schema_version", "sequence"]

/-- An integer that is this number, and no truth value. -/
def isExactly (n : Nat) : Option Json → Bool
  | some (.int m) => m = n
  | _ => false

/-- `None` or a mapping. -/
def isPayload : Option Json → Bool
  | some .null => true
  | some (.obj _) => true
  | _ => false

def isEvent : Option Json → Bool
  | some (.str s) => s.toList ≠ [] && s.toList.all fun c => c.isLower || c.isDigit || c = Char.ofNat 0x5f
  | _ => false

def chainedRecord (identifier : String) (sequence : Nat) (previous : String) (value : Json) : Bool :=
  isStr "cp2e_privileged_journal_event" (value.field "record_type") &&
    isExactly schemaVersion (value.field "schema_version") && isExactly sequence (value.field "sequence") &&
    isStr identifier (value.field "journal_id") && isStr previous (value.field "previous_sha256") &&
    isEvent (value.field "event") && isPayload (value.field "payload")

/-- The loop of `_verify_complete_chain`: the digest of the last line and its event. -/
def verifyLines (c : Config η) (j : Journal) : Nat → String → Option Json → List (List UInt8) →
    Except HelperError (String × Option Json)
  | _, previous, lastEvent, [] => .ok (previous, lastEvent)
  | sequence, previous, _, line :: lines => do
    let value ← strictBoundedJsonBytes maxJournalBytes "privileged journal record" line
    if value.keys ≠ some recordKeys then fail "completed privileged journal record keys differ"
    else do
      let binding ← Binding.fromRecord ((value.field "binding").getD .null)
      let peer ← PeerCredentials.fromRecord ((value.field "peer").getD .null)
      if chainedRecord j.identifier sequence previous value && decide (binding = j.binding) &&
          decide (peer = j.peer) && isStr j.nonceSha256 (value.field "nonce_sha256") then
        verifyLines c j (sequence + 1) (c.sha256 line) (value.field "event") lines
      else fail "completed privileged journal identity/hash chain differs"

def verifyCompleteChain : Helping η Unit := do
  let j ← currentJournal
  verifyName j
  let raw ← query (fileBytes j.name)
  onlyIf (raw = [] || decide (maxJournalBytes < raw.length))
    (failWith "completed privileged journal size differs")
  onlyIf (raw.getLast? ≠ some newline) (failWith "completed privileged journal bytes are incomplete")
  onlyIf ((splitLines raw).length ≠ j.records) (failWith "completed privileged journal record count differs")
  let last ← ofExcept (verifyLines c j 0 noDigest none (splitLines raw))
  onlyIf (last.1 ≠ j.previousSha256 || !isStr "journal_completed" last.2)
    (failWith "completed privileged journal terminal seal differs")

def renameFile (old new : JournalName) (w : World η) : World η :=
  { w with directory := w.directory.map fun entry => if entry.1 = old then (new, entry.2) else entry }

/-- `_DurableJournal.complete` -/
def journalComplete : Helping η Unit := do
  journalAppend c "journal_completed" none
  verifyCompleteChain c
  let j ← currentJournal
  verifyName j
  let taken ← query (fileExists j.name.renamed)
  onlyIf taken (failWith "privileged completed-journal name already exists")
  operate id
  operate fun w => { renameFile j.name j.name.renamed w with log := w.log ++ [.renamed j.name j.prior] }
  update fun w => { w with journal := some { j with name := j.name.renamed } }
  operate id
  update fun w => { w with journal := some { j with name := j.name.renamed, closed := true } }

/-! ## The store -/

/-- What the first record of a journal fixes. -/
structure JournalIdentity where
  binding : Binding
  peer : PeerCredentials
  nonceSha256 : String
  prior : Json

def JournalIdentity.journal (known : JournalIdentity) (identifier : String) (records : Nat)
    (previousSha256 : String) : Journal where
  name := .pending identifier
  identifier := identifier
  binding := known.binding
  peer := known.peer
  nonceSha256 := known.nonceSha256
  prior := known.prior
  records := records
  previousSha256 := previousSha256

/-- The identity that a record of a pending journal has; the first one holds the prior state. -/
def recordIdentity (first : Option JournalIdentity) (value : Json) : Except HelperError JournalIdentity := do
  let binding ← Binding.fromRecord ((value.field "binding").getD .null)
  let peer ← PeerCredentials.fromRecord ((value.field "peer").getD .null)
  let nonce ← requireHash "pending journal nonce digest" (value.field "nonce_sha256")
  match first with
  | some known =>
    if binding = known.binding ∧ peer = known.peer ∧ nonce = known.nonceSha256 then .ok known
    else fail "pending privileged journal binding changes within its chain"
  | none =>
    if !isStr "prior_state_captured" (value.field "event") then
      fail "pending privileged journal lacks its prior record"
    else match value.field "payload" with
      | some (.obj [("prior", .obj entries)]) => .ok ⟨binding, peer, nonce, .obj entries⟩
      | some (.obj [("prior", _)]) => fail "pending privileged journal prior is not a mapping"
      | _ => fail "pending privileged journal prior payload differs"

/-- The loop of `_load`. -/
def loadLines (c : Config η) (identifier : String) : Nat → String → Option JournalIdentity →
    List (List UInt8) → Except HelperError (String × Option JournalIdentity)
  | _, previous, first, [] => .ok (previous, first)
  | sequence, previous, first, line :: lines => do
    let value ← strictBoundedJsonBytes maxJournalBytes "privileged journal record" line
    if value.keys ≠ some recordKeys then fail "pending privileged journal record keys differ"
    else if !chainedRecord identifier sequence previous value then
      fail "pending privileged journal identity/hash chain differs"
    else do
      let known ← recordIdentity first value
      loadLines c identifier (sequence + 1) (c.sha256 line) (some known) lines

/-- `_load`, from the bytes of the file on. -/
def loadJournal (identifier : String) (raw : List UInt8) : Except HelperError Journal :=
  if raw = [] ∨ maxJournalBytes < raw.length then fail "pending privileged journal inode metadata is unsafe"
  else if raw.getLast? ≠ some newline then fail "pending privileged journal bytes are incomplete"
  else if maxJournalRecords < (splitLines raw).length then
    fail "pending privileged journal record count is invalid"
  else do
    let read ← loadLines c identifier 0 noDigest none (splitLines raw)
    match read.2 with
    | none => fail "pending privileged journal is incomplete"
    | some known => return known.journal identifier (splitLines raw).length read.1

def pendingFiles (w : World η) : List (String × List UInt8) :=
  w.directory.filterMap fun entry =>
    match entry.1 with
    | .pending identifier => some (identifier, entry.2)
    | .restored _ _ => none

/-- `DurableJournalStore.pending`: no journal or the one that there is. -/
def pendingJournal : Helping η (Option Journal) := do
  let files ← query pendingFiles
  match files with
  | [] => return none
  | [(identifier, raw)] => do
    operate id
    let j ← ofExcept (loadJournal c identifier raw)
    return some j
  | _ => indeterminate "multiple pending privileged journals make recovery order ambiguous"

/-- `os.urandom(n).hex()` -/
def urandom (n : Nat) : Helping η String := do
  let draws ← read (·.draws)
  update fun w => { w with draws := w.draws + 1 }
  return c.urandom draws n

/-- `os.open` with `O_CREAT | O_EXCL`. -/
def createFile (name : JournalName) : Helping η Unit := operateChecked fun w =>
  if fileExists name w then .error (.raised ⟨.other "FileExistsError", "privileged journal"⟩)
  else .ok { w with directory := w.directory ++ [(name, [])] }

/-- `DurableJournalStore.create`; a failure keeps the file. -/
def journalCreate (binding : Binding) (peer : PeerCredentials) (nonceSha256 : String)
    (prior : Json) : Helping η Unit := do
  onlyIf (!isHash nonceSha256) (failWith "privileged journal nonce digest is not one lowercase SHA-256")
  let _ ← ofExcept (canonicalControlStateBytes prior)
  let pending ← pendingJournal c
  onlyIf pending.isSome (indeterminate "a pending privileged journal already exists")
  let identifier ← urandom c 16
  operate id
  createFile (.pending identifier)
  note (.created (.pending identifier))
  let created ← rescue (do
    operate id
    update fun w => { w with
      journal := some (JournalIdentity.journal ⟨binding, peer, nonceSha256, prior⟩ identifier 0 noDigest) }
    journalAppend c "prior_state_captured" (some (.obj [("prior", prior)]))
    operate id)
  match created with
  | .ok _ => return ⟨⟩
  | .error e => do
    update fun w => { w with journal := none }
    raise e

/-- `_DurableJournal.close` -/
def journalClose : Helping η Unit :=
  operate fun w => { w with journal := w.journal.map fun j => { j with closed := true } }

end Programs

end Bravo.Helper
