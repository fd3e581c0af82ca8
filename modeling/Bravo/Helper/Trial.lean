import Bravo.Helper.Session

/-! # The data-free trial

`run_data_free_reversibility`, the other program that mutates the host behind a recovery journal: it
applies and restores without a session.
-/

namespace Bravo.Helper

open Bravo.Json

section Programs

variable {η : Type}

structure TrialReceipt where
  appliedStateSha256 : Option String
  feasibilityProbeSha256 : Option String
  journalId : String
  priorStateSha256 : String
  restoredStateSha256 : String
  passed : Bool
deriving DecidableEq, Repr

def labelled (label : String) : Json := .obj [("label", .str label)]

def stateSha256Payload (digest : String) : Json := .obj [("state_sha256", .str digest)]

structure TrialDigests where
  applied : Option String := none
  probe : Option String := none

variable (c : Config η)

def trialApplied : Helping η String := do
  let applied ← callMethod c.backend.validateApplied
  let appliedBytes ← ofExcept (canonicalControlStateBytes applied)
  return c.sha256 appliedBytes

/-- The first `try` block, up to the digest of the applied state. -/
def trialApply (prior : Json) : Helping η String := do
  journalAppend c "data_free_apply_started" none
  backendApply c prior fun label => journalAppend c "data_free_apply_boundary" (some (labelled label))
  trialApplied c

/-- The next part of the first `try` block: the digest of the feasibility probe. -/
def trialProbe (appliedSha256 : String) : Helping η String := do
  journalAppend c "data_free_applied_validated" (some (stateSha256Payload appliedSha256))
  match c.backend.validateDataFreeFeasibility with
  | none => failWith "backend lacks the exact data-free feasibility probe"
  | some operation => do
    let probe ← callMethod operation
    onlyIf (!isMapping probe) (failWith "data-free feasibility probe is not a canonical mapping")
    let probeBytes ← ofExcept (canonicalJsonBytes probe)
    return c.sha256 probeBytes

/-- The first `try` block: the digests that it got to, and whether it raised nothing. -/
def trialMutation (prior : Json) : Helping η (TrialDigests × Bool) := do
  match ← rescue (trialApply c prior) with
  | .error _ => return ({}, false)
  | .ok applied =>
    match ← rescue (trialProbe c applied) with
    | .error _ => return ({ applied := some applied }, false)
    | .ok probe => do
      let recorded ← rescue (journalAppend c "data_free_feasibility_validated"
        (some (.obj [("probe_sha256", .str probe)])))
      return ({ applied := some applied, probe := some probe }, recorded.isOk)

/-- The second `try` block behind `backend.restore`: the digest of the restored state and the journal. -/
def trialRestored (prior : Json) (priorBytes : List UInt8) : Helping η (String × String) := do
  let restored ← validateAgainst c.backend.validateRestored prior
  let restoredBytes ← ofExcept (canonicalControlStateBytes restored)
  onlyIf (restoredBytes ≠ priorBytes) (raise ⟨.dataFreeReversibilityIndeterminate,
    "restored full state differs byte-for-byte from durable prior"⟩)
  callMethod c.backend.close
  journalAppend c "data_free_restoration_validated" (some (stateSha256Payload (c.sha256 restoredBytes)))
  let j ← currentJournal
  journalComplete c
  return (c.sha256 restoredBytes, j.identifier)

def trialRestore (prior : Json) (priorBytes : List UInt8) : Helping η (String × String) := do
  backendRestore c prior fun label => journalAppend c "data_free_restore_boundary" (some (labelled label))
  trialRestored c prior priorBytes

/-- The second `try` block. -/
def trialRestoration (prior : Json) (priorBytes : List UInt8) : Helping η (String × String) := do
  journalAppend c "data_free_restore_started" none
  trialRestore c prior priorBytes

/-- The part of `run_data_free_reversibility` before its first `try` block: the captured prior state. -/
def trialCapture (binding : Binding) (peer : PeerCredentials) : Helping η (Json × List UInt8) := do
  let pending ← pendingJournal c
  onlyIf pending.isSome (do
    operate id
    raise ⟨.dataFreeReversibilityIndeterminate,
      "pending privileged journal requires recovery, not a new trial"⟩)
  let prior ← callMethod c.backend.capturePrior
  note (.captured prior)
  let priorBytes ← ofExcept (canonicalControlStateBytes prior)
  let nonce ← urandom c 32
  journalCreate c binding peer (c.sha256 (fromHex nonce.toList)) prior
  return (prior, priorBytes)

def runDataFreeReversibility (binding : Binding) (peer : PeerCredentials) :
    Helping η TrialReceipt := do
  let captured ← trialCapture c binding peer
  let digests ← trialMutation c captured.1
  match ← rescue (trialRestoration c captured.1 captured.2) with
  | .ok restored =>
    return ⟨digests.1.applied, digests.1.probe, restored.2, c.sha256 captured.2, restored.1, digests.2⟩
  | .error _ => do
    let _ ← rescue journalClose
    raise ⟨.dataFreeReversibilityIndeterminate, "data-free feasibility restoration is indeterminate"⟩

end Programs

end Bravo.Helper
