import Bravo.Basic.Fault

/-! # The host-control transaction

`HostControlTransaction` captures the controls of one frozen profile, journals them, applies the
profile's values and restores the captured ones. The host is abstract: its control files, modules,
services, process affinity and DMA-latency hold. Every backend call, journal operation, guardian call
and the fault injector can raise before or after its effect, and the process can die at any of them.
What a `sudo -n` command does to the host is a parameter, so is the value parser, whose results the
transaction does not use. A signal between two operations is not modelled.
-/

namespace Bravo.Timing

/-! ## The profile and the host -/

structure Write where
  path : String
  desiredText : String
  parser : String
deriving DecidableEq, Repr

structure ModuleAction where
  name : String
  modprobeArgv : List String
  removeArgv : List String
deriving DecidableEq, Repr

structure ServiceAction where
  name : String
  deactivateArgv : List String
  activateArgv : List String
deriving DecidableEq, Repr

structure Profile where
  sha256 : String
  writes : List Write
  moduleActions : List ModuleAction
  serviceActions : List ServiceAction
  cpuIds : List Nat
  smtSiblingGroups : List (List Nat)
  dmaLatencyUs : Nat
deriving DecidableEq, Repr

structure Settings where
  texts : String → String
  modules : String → Bool
  services : String → Bool
  affinity : List Nat

structure Host where
  settings : Settings
  dmaHeld : Bool := false

inductive ControlError
  | control (message : String)
  | indeterminate (message : String)
  | other (message : String)
deriving DecidableEq, Repr

/-- `str(exc)` -/
def ControlError.text : ControlError → String
  | .control message | .indeterminate message | .other message => message

/-- The backend beyond the faithful reads and writes: the effect of a command, the value parser, and the
two optional methods. -/
structure Backend where
  command : List String → Settings → Settings
  parseControlValue : String → String → Except ControlError Unit
  /-- What `json.loads` and its hooks refuse a document with. -/
  jsonRefusal : List UInt8 → Option String := fun _ => some "control journal record is not strict JSON"
  smtSiblingGroups : Option (List Nat → List (List Nat)) := none
  dmaLatencyActive : Bool := true

/-! ## Snapshots and receipts -/

structure ControlValue where
  path : String
  parser : String
  text : String
deriving DecidableEq, Repr

structure ControlSnapshot where
  values : List ControlValue
  modulesPreexisting : List String
  servicesActive : List String
  processAffinity : List Nat
deriving DecidableEq, Repr

structure AppliedState where
  values : List ControlValue
  modulesLoaded : List String
  servicesActive : List String
  processAffinity : List Nat
  dmaLatencyUs : Nat
deriving DecidableEq, Repr

/-- The record a receipt holds: `as_record` of a snapshot or the applied state. -/
inductive StateRecord
  | prior (snapshot : ControlSnapshot)
  | applied (state : AppliedState)
deriving DecidableEq, Repr

/-- A receipt; its record stands for its canonical bytes, which the encoding determines. The checks of
the constructor hold of every receipt that the transaction builds. -/
structure ControlStateReceipt where
  profileSha256 : String
  phase : String
  capturedMonotonicNs : Nat
  state : StateRecord
deriving DecidableEq, Repr

/-! ## The state of a transaction -/

inductive TransactionState
  | new
  | captured
  | journaled
  | applying
  | applied
  | restoring
  | recoveredByGuardian
  | indeterminate
  | restored
deriving DecidableEq, Repr

def TransactionState.text : TransactionState → String
  | .new => "new"
  | .captured => "captured"
  | .journaled => "journaled"
  | .applying => "applying"
  | .applied => "applied"
  | .restoring => "restoring"
  | .recoveredByGuardian => "recovered_by_guardian"
  | .indeterminate => "indeterminate"
  | .restored => "restored"

structure Guardian where
  finished : Bool := false
deriving DecidableEq, Repr

/-- The host, the journal file (the snapshot of its first record, once that record is synced under the
journal's name), the readings of the clock, and the fields of the transaction. -/
structure Control where
  host : Host
  durable : Option ControlSnapshot := none
  readings : Nat := 0
  snapshot : Option ControlSnapshot := none
  priorReceipt : Option ControlStateReceipt := none
  appliedReceipt : Option ControlStateReceipt := none
  restoredReceipt : Option ControlStateReceipt := none
  state : TransactionState := .new
  hadAbnormalRecovery : Bool := false
  boundaryHistory : List String := []
  journal : Bool := false
  guardian : Option Guardian := none

abbrev Controlling (α : Type) := EStateM (Exit ControlError) (Machine (Exit ControlError) Control) α

def failControl {α : Type} (message : String) : Controlling α := throw (.raised (.control message))

def read {α : Type} (f : Control → α) : Controlling α := do
  let m ← get
  return f m.state

/-! ## The backend -/

namespace Settings

def setText (s : Settings) (path value : String) : Settings :=
  { s with texts := fun q => if q = path then value else s.texts q }

def setAffinity (s : Settings) (cpus : List Nat) : Settings := { s with affinity := cpus }

end Settings

def onSettings (f : Settings → Settings) (s : Control) : Control :=
  { s with host := { s.host with settings := f s.host.settings } }

def requirePrivilege : Controlling Unit := operate id

def readText (path : String) : Controlling String := query fun s => s.host.settings.texts path

def writeText (path value : String) : Controlling Unit := operate (onSettings (·.setText path value))

def moduleLoaded (name : String) : Controlling Bool := query fun s => s.host.settings.modules name

def serviceActive (name : String) : Controlling Bool := query fun s => s.host.settings.services name

def command (b : Backend) (argv : List String) : Controlling Unit :=
  operate (onSettings (b.command argv))

def affinity : Controlling (List Nat) := query fun s => s.host.settings.affinity

def setAffinity (cpus : List Nat) : Controlling Unit := operate (onSettings (·.setAffinity cpus))

def holdDmaLatency : Controlling Unit := operateChecked fun s =>
  if s.host.dmaHeld then .error (.raised (.control "DMA-latency descriptor is already held"))
  else .ok { s with host := { s.host with dmaHeld := true } }

def releaseDmaLatency : Controlling Unit := operate fun s => { s with host := { s.host with dmaHeld := false } }

def parseControlValue (b : Backend) (text parser : String) : Controlling Unit :=
  match b.parseControlValue text parser with
  | .ok _ => return ⟨⟩
  | .error e => throw (.raised e)

/-! ## The journal and the guardian -/

/-- `_verify_name`: the name still resolves to the held inode. -/
def verifyJournalName : Controlling Unit := operateChecked fun s =>
  match s.durable with
  | some _ => .ok s
  | none => .error (.raised (.other "recovery journal name is absent"))

/-- `_JournalHandle.append`: the record itself is not read again by this process. -/
def journalAppend : Controlling Unit := do
  verifyJournalName
  operate id

/-- `_JournalHandle.create`: the first record is written and synced, then the directory. A failure
unlinks the name, where that does not fail as well. -/
def journalCreate (snapshot : ControlSnapshot) : Controlling Unit := do
  operate id
  match ← rescue (do
      operate fun s => { s with durable := some snapshot }
      operate id) with
  | .ok _ => update fun s => { s with journal := true }
  | .error e => do
    let _ ← rescue (operate fun s => { s with durable := none })
    throw (.raised e)

/-- `_JournalHandle.remove` -/
def journalRemove : Controlling Unit := do
  verifyJournalName
  operate fun s => { s with durable := none }
  operate id

def refreshChain : Controlling Unit := operate id

/-- `assert_alive`: the first operation is `waitpid`, the second one raises where the child has
exited. -/
def assertAlive (g : Guardian) : Controlling Unit := do
  onlyIf g.finished (failControl "external recovery guardian is no longer active")
  operate id
  match ← rescue (operate id) with
  | .ok _ => return ⟨⟩
  | .error _ => do
    update fun s => { s with guardian := some { finished := true } }
    failControl "external recovery guardian exited early"

inductive Phase
  | apply
  | restore
deriving DecidableEq, Repr

def Phase.text : Phase → String
  | .apply => "apply:"
  | .restore => "restore:"

/-- `_checkpoint`; the last operation is the fault injector. -/
def checkpoint (phase : Phase) (name : String) (journal : Bool := true) : Controlling Unit := do
  let held ← read (·.journal)
  onlyIf (journal && held) journalAppend
  update fun s => { s with boundaryHistory := s.boundaryHistory ++ [phase.text ++ name] }
  let guardian ← read (·.guardian)
  onSome guardian fun g => onlyIf (phase = .apply) (assertAlive g)
  operate id

/-! ## Capture -/

/-- `tuple(sorted(…))` -/
def sortedNames (names : List String) : List String := names.mergeSort fun a b => decide (a ≤ b)

def namesWhere (ask : String → Controlling Bool) : List String → Controlling (List String)
  | [] => return []
  | name :: names => do
    let yes ← ask name
    let rest ← namesWhere ask names
    return if yes then name :: rest else rest

def captureValues (b : Backend) : List Write → Controlling (List ControlValue)
  | [] => return []
  | write :: writes => do
    let text ← readText write.path
    parseControlValue b text write.parser
    let rest ← captureValues b writes
    return ⟨write.path, write.parser, text⟩ :: rest

def canonicalAffinity (cpus : List Nat) : Bool := cpus ≠ [] && decide (cpus.Pairwise (· < ·))

variable (p : Profile)

def capture (b : Backend) : Controlling ControlSnapshot := do
  let values ← captureValues b p.writes
  let modules ← namesWhere moduleLoaded (p.moduleActions.map (·.name))
  let services ← namesWhere serviceActive (p.serviceActions.map (·.name))
  let cpus ← affinity
  onlyIf (!canonicalAffinity cpus) (failControl "captured process affinity is empty or noncanonical")
  return ⟨values, sortedNames modules, sortedNames services, cpus⟩

def validateSmtTopology (b : Backend) : Controlling Unit :=
  match b.smtSiblingGroups with
  | none => return ⟨⟩
  | some groups => do
    let observed ← query fun _ => groups p.cpuIds
    onlyIf (!observed.isPerm p.smtSiblingGroups)
      (failControl "host SMT sibling topology differs from the frozen placement")

def monotonicNs (clock : Nat → Nat) : Controlling Nat := do
  let readings ← read (·.readings)
  update fun s => { s with readings := s.readings + 1 }
  return clock readings

def receipt (clock : Nat → Nat) (phase : String) (state : StateRecord) :
    Controlling ControlStateReceipt := do
  let now ← monotonicNs clock
  return ⟨p.sha256, phase, now, state⟩

/-! ## Recovery of a snapshot -/

/-- `try … except BaseException as exc: errors.append(prefix + str(exc))` -/
def collect (label : String) (x : Controlling Unit) : Controlling (List String) := do
  match ← rescue x with
  | .ok _ => return []
  | .error e => return [label ++ e.text]

def verifySnapshotExact (b : Backend) (snapshot : ControlSnapshot) (processLocal : Bool) :
    Controlling (List String) := do
  let values ← gather (fun v : ControlValue => collect ("verify value " ++ v.path ++ ": ") (do
      let observed ← readText v.path
      parseControlValue b observed v.parser
      onlyIf (observed ≠ v.text) (failControl "restored text differs byte-for-byte"))) snapshot.values
  let modules ← gather (fun action : ModuleAction => collect ("verify module " ++ action.name ++ ": ") (do
      let loaded ← moduleLoaded action.name
      onlyIf (loaded ≠ snapshot.modulesPreexisting.contains action.name)
        (failControl "module state differs from prior"))) p.moduleActions
  let services ← gather (fun action : ServiceAction => collect ("verify service " ++ action.name ++ ": ") (do
      let active ← serviceActive action.name
      onlyIf (active ≠ snapshot.servicesActive.contains action.name)
        (failControl "service state differs from prior"))) p.serviceActions
  let cpus ← (if processLocal then collect "verify affinity: " (do
      let cpus ← affinity
      onlyIf (cpus ≠ snapshot.processAffinity) (failControl "process affinity differs from prior"))
    else pure [])
  return values ++ modules ++ services ++ cpus

/-- One restoration action between its two boundaries; none of the three stops the others. -/
def operation (boundary : Option (String → Controlling Unit)) (label : String) (x : Controlling Unit) :
    Controlling (List String) := do
  match boundary with
  | none => collect (label ++ ": ") x
  | some boundary => do
    let before ← collect ("before_" ++ label ++ ": ") (boundary ("before_" ++ label))
    let errors ← collect (label ++ ": ") x
    let after ← collect ("after_" ++ label ++ ": ") (boundary ("after_" ++ label))
    return before ++ errors ++ after

/-- `prior_by_path[path]`, the last entry of the path. -/
def priorByPath (snapshot : ControlSnapshot) (path : String) : Option ControlValue :=
  snapshot.values.reverse.find? fun v => v.path = path

def restoreWrite (b : Backend) (path : String) (prior : ControlValue) : Controlling Unit := do
  writeText path prior.text
  let observed ← readText path
  parseControlValue b observed prior.parser
  onlyIf (observed ≠ prior.text) (failControl "restored host-control text differs exactly")

def restoreNamed (b : Backend) (ask : String → Controlling Bool) (name : String) (prior : Bool)
    (onArgv offArgv : List String) (message : String) : Controlling Unit := do
  let observed ← ask name
  onlyIf (observed ≠ prior) (command b (if prior then onArgv else offArgv))
  let settled ← ask name
  onlyIf (settled ≠ prior) (failControl message)

def restoreService (b : Backend) (snapshot : ControlSnapshot) (action : ServiceAction) : Controlling Unit :=
  restoreNamed b serviceActive action.name (snapshot.servicesActive.contains action.name)
    action.activateArgv action.deactivateArgv "service did not return to its exact prior state"

def restoreModule (b : Backend) (snapshot : ControlSnapshot) (action : ModuleAction) : Controlling Unit :=
  restoreNamed b moduleLoaded action.name (snapshot.modulesPreexisting.contains action.name)
    action.modprobeArgv action.removeArgv "module did not return to its exact prior state"

def restoreWriteAt (b : Backend) (snapshot : ControlSnapshot)
    (boundary : Option (String → Controlling Unit)) (entry : Write × Nat) : Controlling (List String) :=
  match priorByPath snapshot entry.1.path with
  | none => throw (.raised (.other entry.1.path))
  | some prior =>
    operation boundary ("write_" ++ toString entry.2) (restoreWrite b entry.1.path prior)

/-- Everything of `_recover_snapshot_exact` after the release of the DMA hold. -/
def recoverSettings (b : Backend) (snapshot : ControlSnapshot) (processLocal : Bool)
    (boundary : Option (String → Controlling Unit)) : Controlling (List String) := do
  let cpus ← (if processLocal then
      operation boundary "process_affinity" (setAffinity snapshot.processAffinity)
    else pure [])
  let writes ← gather (restoreWriteAt b snapshot boundary) p.writes.zipIdx.reverse
  let services ← gather (fun entry : ServiceAction × Nat =>
      operation boundary ("service_" ++ toString entry.2) (restoreService b snapshot entry.1))
    p.serviceActions.zipIdx.reverse
  let modules ← gather (fun entry : ModuleAction × Nat =>
      operation boundary ("module_" ++ toString entry.2) (restoreModule b snapshot entry.1))
    p.moduleActions.zipIdx.reverse
  let verified ← verifySnapshotExact p b snapshot processLocal
  return cpus ++ writes ++ services ++ modules ++ verified

def recoverSnapshotExact (b : Backend) (snapshot : ControlSnapshot) (processLocal : Bool)
    (boundary : Option (String → Controlling Unit)) : Controlling Unit := do
  let dma ← (if processLocal then operation boundary "dma_latency_release" releaseDmaLatency
    else pure [])
  let settings ← recoverSettings p b snapshot processLocal boundary
  let errors := dma ++ settings
  onlyIf (errors ≠ []) (throw (.raised (.indeterminate ("; ".intercalate errors))))

/-! ## The guardian's recovery -/

/-- What the guardian process does on `R`: a death of that process is a failure for its parent. -/
def guardianRecovery (b : Backend) (snapshot : ControlSnapshot) : Controlling Bool := do
  let started ← attempt (do refreshChain; journalAppend)
  match ← attempt (recoverSnapshotExact p b snapshot false none) with
  | .ok _ => do
    let verified ← attempt (do refreshChain; journalAppend)
    return started.isOk && verified.isOk
  | .error _ => do
    let _ ← attempt (do refreshChain; journalAppend)
    return false

/-- `_finish` with the guardian's own work in between. -/
def guardianFinish (g : Guardian) (work : Controlling Bool) : Controlling Bool := do
  onlyIf g.finished (failControl "external recovery guardian already finished")
  operate id
  let done ← work
  operate id
  update fun s => { s with guardian := some { finished := true } }
  return done

def guardianCancel (g : Guardian) : Controlling Unit := do
  let acknowledged ← guardianFinish g (pure true)
  onlyIf (!acknowledged) (failControl "external recovery guardian did not acknowledge cancellation")

def guardianRecover (b : Backend) (snapshot : ControlSnapshot) (g : Guardian) :
    Controlling Unit := do
  let done ← guardianFinish g (guardianRecovery p b snapshot)
  onlyIf (!done) (throw (.raised (.indeterminate "external recovery guardian failed")))

/-! ## The transaction -/

def setState (state : TransactionState) : Controlling Unit := update fun s => { s with state := state }

def validateWrite (b : Backend) (write : Write) : Controlling (List Unit) := do
  let observed ← readText write.path
  parseControlValue b observed write.parser
  onlyIf (observed ≠ write.desiredText)
    (failControl "host control drifted from the exact frozen text")
  return []

def validateModule (action : ModuleAction) : Controlling (List Unit) := do
  let loaded ← moduleLoaded action.name
  onlyIf (!loaded) (failControl "required telemetry module is no longer loaded")
  return []

def validateService (action : ServiceAction) : Controlling (List Unit) := do
  let active ← serviceActive action.name
  onlyIf active (failControl "timing service unexpectedly became active")
  return []

def validateApplied (b : Backend) : Controlling Unit := do
  let state ← read (·.state)
  onlyIf (state ≠ .applied && state ≠ .restoring)
    (failControl "host controls are not in a validate-able state")
  validateSmtTopology p b
  let _ ← gather (validateWrite b) p.writes
  let cpus ← affinity
  onlyIf (cpus ≠ p.cpuIds) (failControl "runner affinity drifted from the frozen profile")
  let _ ← gather validateModule p.moduleActions
  let _ ← gather validateService p.serviceActions
  onlyIf b.dmaLatencyActive (do
    let held ← query fun s => s.host.dmaHeld
    onlyIf (!held) (failControl "DMA-latency descriptor is no longer held"))

/-- The values of the applied record are read once more, without a parse. -/
def readValues : List Write → Controlling (List ControlValue)
  | [] => return []
  | write :: writes => do
    let text ← readText write.path
    let rest ← readValues writes
    return ⟨write.path, write.parser, text⟩ :: rest

def captureAppliedState (b : Backend) : Controlling AppliedState := do
  let state ← read (·.state)
  onlyIf (state ≠ .applied)
    (failControl "applied control state is unavailable outside the applied state")
  validateApplied p b
  let services ← namesWhere serviceActive (p.serviceActions.map (·.name))
  let modules ← namesWhere moduleLoaded (p.moduleActions.map (·.name))
  let values ← readValues p.writes
  let cpus ← affinity
  return ⟨values, sortedNames modules, sortedNames services, cpus, p.dmaLatencyUs⟩

def mutation (label : String) (x : Controlling Unit) : Controlling Unit := do
  checkpoint .apply ("before_" ++ label)
  x
  checkpoint .apply ("after_" ++ label)

def applyModule (b : Backend) (snapshot : ControlSnapshot) (entry : ModuleAction × Nat) :
    Controlling (List Unit) := do
  let (action, index) := entry
  onlyIf (!snapshot.modulesPreexisting.contains action.name) (do
    mutation ("module_" ++ toString index) (command b action.modprobeArgv)
    let loaded ← moduleLoaded action.name
    onlyIf (!loaded) (failControl "telemetry module did not become loaded"))
  return []

def applyService (b : Backend) (snapshot : ControlSnapshot) (entry : ServiceAction × Nat) :
    Controlling (List Unit) := do
  let (action, index) := entry
  onlyIf (snapshot.servicesActive.contains action.name) (do
    mutation ("service_" ++ toString index) (command b action.deactivateArgv)
    let active ← serviceActive action.name
    onlyIf active (failControl "timing service did not become inactive"))
  return []

def applyWrite (b : Backend) (entry : Write × Nat) : Controlling (List Unit) := do
  let (write, index) := entry
  mutation ("write_" ++ toString index) (writeText write.path write.desiredText)
  let observed ← readText write.path
  parseControlValue b observed write.parser
  onlyIf (observed ≠ write.desiredText)
    (failControl "host control did not assume its exact requested text")
  return []

/-- What `apply` asks for before it captures. -/
def applyReady (b : Backend) : Controlling Unit := do
  checkpoint .apply "before_privilege" false
  requirePrivilege
  checkpoint .apply "after_privilege" false
  validateSmtTopology p b
  checkpoint .apply "before_capture" false

def confirmCapture : Controlling Unit := do
  match ← rescue (checkpoint .apply "after_capture" false) with
  | .ok _ => return ⟨⟩
  | .error e => do
    update fun s => { s with snapshot := none, priorReceipt := none, state := .new }
    throw (.raised e)

/-- From the start of `apply` to the captured snapshot. -/
def applyCapture (b : Backend) (clock : Nat → Nat) : Controlling ControlSnapshot := do
  let state ← read (·.state)
  onlyIf (state ≠ .new)
    (failControl ("host-control transaction cannot be applied from state " ++ state.text))
  applyReady p b
  let snapshot ← capture p b
  let prior ← receipt p clock "prior" (.prior snapshot)
  update fun s => { s with snapshot := some snapshot, priorReceipt := some prior, state := .captured }
  confirmCapture
  return snapshot

def applyJournal (guardianEnabled : Bool) (snapshot : ControlSnapshot) : Controlling Unit := do
  checkpoint .apply "before_journal" false
  journalCreate snapshot
  setState .journaled
  checkpoint .apply "after_journal"
  onlyIf guardianEnabled (do
    checkpoint .apply "before_guardian"
    operate id
    update fun s => { s with guardian := some {} }
    checkpoint .apply "after_guardian")

def applyMutations (b : Backend) (snapshot : ControlSnapshot) : Controlling Unit := do
  operate id -- `_install_signal_handlers`
  setState .applying
  let _ ← gather (applyModule b snapshot) p.moduleActions.zipIdx
  let _ ← gather (applyService b snapshot) p.serviceActions.zipIdx
  let _ ← gather (applyWrite b) p.writes.zipIdx
  mutation "process_affinity" (setAffinity p.cpuIds)
  mutation "dma_latency_hold" holdDmaLatency
  setState .applied

def recordApplied (b : Backend) (clock : Nat → Nat) : Controlling Unit := do
  validateApplied p b
  let state ← captureAppliedState p b
  let applied ← receipt p clock "applied" (.applied state)
  update fun s => { s with appliedReceipt := some applied }

/-- The second `try` block up to its last checkpoint. -/
def applyControls (b : Backend) (clock : Nat → Nat) (guardianEnabled : Bool)
    (snapshot : ControlSnapshot) : Controlling Unit := do
  applyJournal guardianEnabled snapshot
  applyMutations p b snapshot
  recordApplied p b clock

def recapture (b : Backend) (clock : Nat → Nat) (snapshot : ControlSnapshot) :
    Controlling Unit := do
  let restored ← capture p b
  onlyIf (restored ≠ snapshot)
    (failControl "restored control snapshot differs from the captured prior state")
  let receipt ← receipt p clock "restored" (.prior restored)
  update fun s => { s with restoredReceipt := some receipt }

/-- The guardian is asked to recover, if it has not finished: whether it did, and its error. -/
def recoverByGuardian (b : Backend) (snapshot : ControlSnapshot) :
    Controlling (Bool × List String) := do
  let guardian ← read (·.guardian)
  match guardian with
  | some { finished := false } =>
    match ← rescue (guardianRecover p b snapshot {}) with
    | .ok _ => return (true, [])
    | .error e => return (false, [e.text])
  | _ => return (false, [])

def restoreAbnormal (b : Backend) (snapshot : ControlSnapshot) (errors : List String) :
    Controlling Unit := do
  update fun s => { s with hadAbnormalRecovery := true }
  let recovery ← recoverByGuardian p b snapshot
  setState (if recovery.1 then .recoveredByGuardian else .indeterminate)
  throw (.raised (.indeterminate ("; ".intercalate (errors ++ recovery.2))))

def cancelGuardian : Controlling Unit := do
  let guardian ← read (·.guardian)
  match guardian with
  | some { finished := false } => do
    checkpoint .restore "before_guardian_cancel"
    guardianCancel {}
    checkpoint .restore "after_guardian_cancel"
  | _ => return ⟨⟩

def restoreCleanup : Controlling Unit := do
  cancelGuardian
  let journal ← read (·.journal)
  onlyIf journal (do
    checkpoint .restore "before_journal_remove"
    journalRemove
    update fun s => { s with journal := false })
  setState .restored

/-- The recovery of the snapshot and, as long as there is no error, its recapture: the errors so far. -/
def recoverRecapture (b : Backend) (clock : Nat → Nat) (snapshot : ControlSnapshot)
    (begun : List String) : Controlling (List String) := do
  let recovered ← collect "" (recoverSnapshotExact p b snapshot true
    (some fun name => checkpoint .restore name))
  let recaptured ← (if begun ++ recovered = [] then collect "" (recapture p b clock snapshot)
    else pure [])
  return begun ++ recovered ++ recaptured

def restoreErrors (b : Backend) (clock : Nat → Nat) (snapshot : ControlSnapshot) :
    Controlling (List String) := do
  setState .restoring
  let begun ← collect "" (checkpoint .restore "begin")
  let recovered ← recoverRecapture p b clock snapshot begun
  let verified ← collect "" (checkpoint .restore "state_verified")
  return recovered ++ verified

def restoreFinish (b : Backend) (snapshot : ControlSnapshot) (errors : List String) :
    Controlling Unit := do
  if errors ≠ [] then restoreAbnormal p b snapshot errors
  else
    match ← rescue restoreCleanup with
    | .ok _ => return ⟨⟩
    | .error _ => do
      update fun s => { s with hadAbnormalRecovery := true, state := .indeterminate }
      throw (.raised (.indeterminate
        "controls were restored but recovery evidence cleanup was indeterminate"))

/-- `restore`, once there is a snapshot to restore. -/
def restoreSnapshot (b : Backend) (clock : Nat → Nat) (snapshot : ControlSnapshot) :
    Controlling Unit := do
  let state ← read (·.state)
  let journal ← read (·.journal)
  onlyIf ((state = .indeterminate || state = .recoveredByGuardian) && journal) (do
    let _ ← rescue refreshChain
    return ⟨⟩)
  let errors ← restoreErrors p b clock snapshot
  restoreFinish p b snapshot errors

def restore (b : Backend) (clock : Nat → Nat) : Controlling Unit := do
  let state ← read (·.state)
  let snapshot ← read (·.snapshot)
  if state = .restored then return ⟨⟩
  else onSome snapshot (restoreSnapshot p b clock)

def apply (p : Profile) (b : Backend) (clock : Nat → Nat) (guardianEnabled : Bool) :
    Controlling ControlSnapshot := do
  let snapshot ← applyCapture p b clock
  match ← rescue (do
      applyControls p b clock guardianEnabled snapshot
      checkpoint .apply "validated") with
  | .ok _ => return snapshot
  | .error applyError => do
    match ← rescue (restore p b clock) with
    | .ok _ => throw (.raised applyError)
    | .error restoreError => throw (.raised (.indeterminate
        ("host-control apply failed and exact restoration also failed: " ++ applyError.text ++ " / "
          ++ restoreError.text)))

structure ControlReceipts where
  prior : ControlStateReceipt
  applied : ControlStateReceipt
  restored : ControlStateReceipt
deriving DecidableEq, Repr

def controlReceipts : Controlling ControlReceipts := do
  let m ← get
  let s := m.state
  match s.priorReceipt, s.appliedReceipt, s.restoredReceipt with
  | some prior, some applied, some restored =>
    if s.state ≠ .restored ∨ s.hadAbnormalRecovery then
      failControl "passing control receipts require one clean complete transaction"
    else if prior.state ≠ restored.state then
      failControl "prior and restored control states differ"
    else return ⟨prior, applied, restored⟩
  | _, _, _ => failControl "passing control receipts require one clean complete transaction"

end Bravo.Timing
