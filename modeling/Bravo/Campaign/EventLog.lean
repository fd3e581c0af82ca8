import Bravo.Basic.Fault
import Bravo.Basic.Json

/-! # The event log of the campaign

`EventLog` over the directory `control` of the artifact root: `control/events` has one directory for each
event, and an event is built in `control/.staging-…` and renamed. A rename or a sync can raise after its
effect, the other calls before it; the process can be killed at each of them. What a file of an event holds
is kept as the value that was written, since `json.loads` returns what `json.dumps` was given.
-/

namespace Bravo.Campaign

/-! ## Names -/

def digits : Nat → Nat → List Char
  | 0, _ => []
  | width + 1, n => digits width (n / 10) ++ [Nat.digitChar (n % 10)]

/-- `"{:06d}".format(n)` -/
def eventName (n : Nat) : String :=
  String.ofList (if n < 10 ^ 6 then digits 6 n else Nat.toDigits 10 n)

/-! ## The tree -/

inductive File
  | written (value : Json)
  | torn

structure EventDir where
  receipt : Option File := none
  state : Option File := none

/-- The directory `control`: its `.staging-…` entries and, if it is there, `events`. -/
structure Control where
  staging : List (String × EventDir) := []
  events : Option (List (String × EventDir)) := none

structure Tree where
  control : Option Control := none

def Tree.events (t : Tree) : List (String × EventDir) := (t.control.bind (·.events)).getD []

def Tree.staging (t : Tree) : List (String × EventDir) := (t.control.map (·.staging)).getD []

structure LogError where
  message : String
  handling : Bool := false
deriving DecidableEq, Repr

abbrev Logging (α : Type) := Faulty (Exit LogError) Tree α

/-- `self._state` -/
structure EventLog where
  completedActions : List String := []
  lastEventIndex : Nat := 0
deriving DecidableEq, Repr

def raise {α : Type} (message : String) : Logging α := throw (.raised { message := message })

def call (f : Tree → Tree) : Logging Unit := do
  operate id
  update f

def mapControl (f : Control → Control) (t : Tree) : Tree := { t with control := t.control.map f }

/-! ## Records -/

def eventSchema : String := "schurvio.icra27.cross_dataset.campaign_event.v1"

def stateSchema : String := "schurvio.icra27.cross_dataset.campaign_state.v1"

/-- `{**base, **fields}` -/
def overlay (base fields : List (String × Json)) : List (String × Json) :=
  fields ++ base.filter fun entry => !(fields.map (·.1)).contains entry.1

structure Entry where
  action : String
  fields : List (String × Json)
  recordedUtc : String

def Entry.receipt (e : Entry) (index : Nat) : Json :=
  .obj (overlay [("schema", .str eventSchema), ("event_index", .int index),
    ("recorded_utc", .str e.recordedUtc), ("action", .str e.action)] e.fields)

def stateRecord (completed : List String) (lastAction : String) (index : Nat) : Json :=
  .obj [("schema", .str stateSchema), ("last_event_index", .int index), ("last_action", .str lastAction),
    ("completed_actions", .arr (completed.map Json.str))]

/-! ## Loading -/

def loadJson (label : String) : Option File → Logging Json
  | some (.written (.obj entries)) => do
    operate id
    return .obj entries
  | some (.written _) => raise (label ++ " is not a JSON object")
  | some .torn => raise ("cannot parse " ++ label)
  | none => raise "file does not resolve"

/-- `list(state.get("completed_actions", []))`, as far as it is a list of texts. -/
def actionsOf : Option Json → List String
  | some (.arr items) => items.filterMap fun item =>
    match item with
    | .str action => some action
    | _ => none
  | _ => []

def sameText : Option Json → Option Json → Bool
  | some (.str s), some (.str t) => s = t
  | none, none => true
  | _, _ => false

/-- The loop of `_load` over the sorted directories. -/
def loadEvents (log : EventLog) (expected : Nat) : List (String × EventDir) → Logging EventLog
  | [] => return log
  | (name, directory) :: rest => do
    onlyIf (name ≠ eventName expected) (raise "campaign event sequence is ambiguous")
    let receipt ← loadJson "campaign receipt" directory.receipt
    let state ← loadJson "campaign state" directory.state
    onlyIf (!Json.isStr eventSchema (receipt.field "schema") || !Json.isNat expected (receipt.field "event_index"))
      (raise "campaign receipt schema/index mismatch")
    onlyIf (!Json.isStr stateSchema (state.field "schema") ||
      !Json.isNat expected (state.field "last_event_index")) (raise "campaign state schema/index mismatch")
    onlyIf (!sameText (state.field "last_action") (receipt.field "action"))
      (raise "campaign receipt/state action mismatch")
    loadEvents ⟨actionsOf (state.field "completed_actions"), expected⟩ (expected + 1) rest

/-- `EventLog.__init__` -/
def load : Logging EventLog := do
  match ← query (·.control) with
  | none => return {}
  | some control => do
    onlyIf (!control.staging.isEmpty) (raise "unfinished atomic campaign event exists")
    match ← query fun _ => control.events with
    | none => return {}
    | some entries => loadEvents {} 1 (entries.mergeSort fun a b => a.1 ≤ b.1)

/-! ## Appending -/

def mapStaging (name : String) (f : EventDir → EventDir) : Tree → Tree :=
  mapControl fun control => { control with
    staging := control.staging.map fun entry => if entry.1 = name then (name, f entry.2) else entry }

def removeStaging (name : String) : Tree → Tree :=
  mapControl fun control => { control with staging := control.staging.filter fun entry => entry.1 ≠ name }

/-- `_atomic_write_new` of a file of a staging directory, which `set` puts there. -/
def atomicWriteNew (name : String) (set : Option File → EventDir → EventDir) (value : Json) : Logging Unit := do
  operate id
  call (mapStaging name (set (some .torn)))
  let written ← rescue (do
    operate id
    update (mapStaging name (set (some (.written value))))
    operate id)
  match written with
  | .ok _ => return ⟨⟩
  | .error e => do
    let _ ← rescue (call (mapStaging name (set none)))
    throw (.raised e)

def EventDir.setReceipt (file : Option File) (d : EventDir) : EventDir := { d with receipt := file }

def EventDir.setState (file : Option File) (d : EventDir) : EventDir := { d with state := file }

/-- `os.rename` of a staging directory to an event. -/
def renameStaging (name final : String) : Logging Unit := operateChecked fun t =>
  if t.events.any fun entry => entry.1 = final then
    .error (.raised { message := "Directory not empty" })
  else .ok { t with control := t.control.map fun control =>
    { staging := control.staging.filter fun entry => entry.1 ≠ name
      events := control.events.map fun entries => entries ++
        ((control.staging.filter fun entry => entry.1 = name).map fun entry => (final, entry.2)) } }

/-- `if staging.exists(): shutil.rmtree(staging)` -/
def removeTree (name : String) : Logging Unit := do
  let found ← query fun t => t.staging.any fun entry => entry.1 = name
  onlyIf found (do
    call (mapStaging name (EventDir.setReceipt none))
    call (mapStaging name (EventDir.setState none))
    call (removeStaging name))

/-- The `try` block of `append`. -/
def publish (log : EventLog) (e : Entry) (staging : String) : Logging Unit := do
  let index := log.lastEventIndex + 1
  atomicWriteNew staging EventDir.setReceipt (e.receipt index)
  atomicWriteNew staging EventDir.setState (stateRecord (log.completedActions ++ [e.action]) e.action index)
  operate id
  renameStaging staging (eventName index)
  operate id

/-- `staging.mkdir` -/
def makeStaging (name : String) : Logging Unit := do
  operate id
  let found ← query fun t => t.staging.any fun entry => entry.1 = name
  onlyIf found (raise "File exists")
  update (mapControl fun control => { control with staging := control.staging ++ [(name, {})] })

/-- The directory that `append` builds its event in. -/
def stagingName (uuid : String) : String := ".staging-" ++ uuid

/-- `append` before its `try` block. -/
def openStaging (log : EventLog) (uuid : String) : Logging Unit := do
  call fun t => { t with control := some (t.control.getD {}) }
  call (mapControl fun control => { control with events := some (control.events.getD []) })
  let taken ← query fun t => t.events.any fun entry => entry.1 = eventName (log.lastEventIndex + 1)
  onlyIf taken (raise "campaign event destination already exists")
  makeStaging (stagingName uuid)

/-- The `except` clause of `append`. -/
def discardStaging (name : String) (original : LogError) : Logging EventLog := do
  match ← rescue (removeTree name) with
  | .ok _ => throw (.raised { original with handling := false })
  | .error e => throw (.raised { e with handling := true })

/-- `append`, with the hexadecimal text of the random UUID: the state of the log afterwards. -/
def append (log : EventLog) (e : Entry) (uuid : String) : Logging EventLog := do
  openStaging log uuid
  match ← rescue (publish log e (stagingName uuid)) with
  | .ok _ => return ⟨log.completedActions ++ [e.action], log.lastEventIndex + 1⟩
  | .error original => discardStaging (stagingName uuid) original

/-! ## Runs -/

structure Site where
  tree : Tree := {}
  logs : List EventLog := []

/-- A construction or an append of the `i`th log, with what its operations raise. -/
inductive Command
  | construct (script : List (Option (Raise (Exit LogError))))
  | append (i : Nat) (e : Entry) (uuid : String) (script : List (Option (Raise (Exit LogError))))

inductive Outcome
  | returned
  | raised (e : LogError)
  | killed
deriving DecidableEq, Repr

/-- What a process is after a command, where `returned` says what a return makes of its logs. -/
def Site.after {α : Type} (s : Site) (returned : α → List EventLog) :
    EStateM.Result (Exit LogError) (Machine (Exit LogError) Tree) α → Outcome × Site
  | .ok a m => (.returned, ⟨m.state, returned a⟩)
  | .error (.raised e) m => (.raised e, ⟨m.state, s.logs⟩)
  | .error .killed m => (.killed, ⟨m.state, []⟩)

def Site.perform (s : Site) : Command → Option (Outcome × Site)
  | .construct script => some (s.after (fun log => s.logs ++ [log]) (load.run ⟨s.tree, script⟩))
  | .append i e uuid script => s.logs[i]?.map fun log =>
    s.after (fun log' => s.logs.set i log') ((append log e uuid).run ⟨s.tree, script⟩)

def Site.Step (s : Site) (i : Command × Outcome) (s' : Site) : Prop := s.perform i.1 = some (i.2, s')

end Bravo.Campaign
