import Bravo.Basic.Fault
import Bravo.Basic.Json
import Bravo.Basic.Lines

/-! # The values of the privileged helper

Errors, bounds, the binding and the peer of a session, and what a backend may do when it
is called. SHA-256 is a parameter of the programs, since what they prove of each other rests on its being
injective.
-/

namespace Bravo.Helper

open Bravo.Json

/-! ## Errors -/

inductive ErrorKind
  | privilegedHelperError
  | protocolError
  | peerClosed
  | recoveryIndeterminate
  | dataFreeReversibilityIndeterminate
  | other (name : String)
deriving DecidableEq, Repr

structure HelperError where
  kind : ErrorKind
  message : String
deriving DecidableEq, Repr

/-- `type(exc).__name__` -/
def ErrorKind.typeName : ErrorKind → String
  | .privilegedHelperError => "PrivilegedHelperError"
  | .protocolError => "ProtocolError"
  | .peerClosed => "PeerClosed"
  | .recoveryIndeterminate => "RecoveryIndeterminate"
  | .dataFreeReversibilityIndeterminate => "DataFreeReversibilityIndeterminate"
  | .other name => name

/-- `isinstance(exc, RecoveryIndeterminate)` -/
def HelperError.isRecoveryIndeterminate (e : HelperError) : Bool :=
  e.kind = .recoveryIndeterminate || e.kind = .dataFreeReversibilityIndeterminate

def fail {α : Type} (message : String) : Except HelperError α := .error ⟨.privilegedHelperError, message⟩

def protocolError {α : Type} (message : String) : Except HelperError α := .error ⟨.protocolError, message⟩

/-- `raise ProtocolError(str(exc)) from exc` -/
def asProtocolError {α : Type} : Except HelperError α → Except HelperError α :=
  Except.mapError fun e => { e with kind := .protocolError }

/-! ## Bounds -/

def schemaVersion : Nat := 2

def formalRunCount : Nat := 6

def restoreSequence : Nat := 2 + 2 * formalRunCount

def maxPacketBytes : Nat := 64 * 1024

def maxJournalBytes : Nat := 8 * 1024 * 1024

def maxJournalRecords : Nat := 4096

def maxTranscriptBytes : Nat := 2 * 1024 * 1024

def maxTranscriptRecords : Nat := 18

def maxControlStateBytes : Nat := 8 * 1024 * 1024

def maxControlEvidenceRows : Nat := 3

/-! ## Hashes, bindings and peers -/

def isHex (c : Char) : Bool := c.isDigit || decide ('a' ≤ c ∧ c ≤ 'f')

/-- `[0-9a-f]{n}` -/
def isHexOf (n : Nat) (s : String) : Bool := s.toList.length = n && s.toList.all isHex

def isHash (s : String) : Bool := isHexOf 64 s

def requireHash (label : String) : Option Json → Except HelperError String
  | some (.str s) => if isHash s then .ok s else fail (label ++ " is not one lowercase SHA-256")
  | _ => fail (label ++ " is not one lowercase SHA-256")

def noDigest : String := String.ofList (List.replicate 64 '0')

structure Binding where
  profileSha256 : String
  planSha256 : String
  sourceSha256 : String
  protocolCoreSha256 : String
  rootLauncherSha256 : String
  importClosureSha256 : String
  sudoersSha256 : String
deriving DecidableEq, Repr

namespace Binding

def asRecord (b : Binding) : Json :=
  .obj [("import_closure_sha256", .str b.importClosureSha256), ("plan_sha256", .str b.planSha256),
    ("profile_sha256", .str b.profileSha256), ("protocol_core_sha256", .str b.protocolCoreSha256),
    ("root_launcher_sha256", .str b.rootLauncherSha256), ("source_sha256", .str b.sourceSha256),
    ("sudoers_sha256", .str b.sudoersSha256)]

def fromRecord (value : Json) : Except HelperError Binding :=
  if value.keys ≠ some ["import_closure_sha256", "plan_sha256", "profile_sha256", "protocol_core_sha256",
      "root_launcher_sha256", "source_sha256", "sudoers_sha256"] then
    protocolError "hello binding keys differ from the frozen schema"
  else asProtocolError do
    let importClosure ← requireHash "import_closure_sha256" (value.field "import_closure_sha256")
    let plan ← requireHash "plan_sha256" (value.field "plan_sha256")
    let profile ← requireHash "profile_sha256" (value.field "profile_sha256")
    let protocolCore ← requireHash "protocol_core_sha256" (value.field "protocol_core_sha256")
    let rootLauncher ← requireHash "root_launcher_sha256" (value.field "root_launcher_sha256")
    let source ← requireHash "source_sha256" (value.field "source_sha256")
    let sudoers ← requireHash "sudoers_sha256" (value.field "sudoers_sha256")
    return ⟨profile, plan, source, protocolCore, rootLauncher, importClosure, sudoers⟩

end Binding

structure PeerCredentials where
  pid : Nat
  uid : Nat
  gid : Nat
deriving DecidableEq, Repr

namespace PeerCredentials

def asRecord (p : PeerCredentials) : Json :=
  .obj [("gid", .int p.gid), ("pid", .int p.pid), ("uid", .int p.uid)]

def credential (label : String) : Option Json → Except HelperError Nat
  | some (.int n) => if 0 ≤ n ∧ n < 2 ^ 31 then .ok n.toNat else fail ("peer " ++ label ++ " is invalid")
  | _ => fail ("peer " ++ label ++ " is invalid")

def fromRecord (value : Json) : Except HelperError PeerCredentials :=
  if value.keys ≠ some ["gid", "pid", "uid"] then
    protocolError "SO_PEERCRED keys differ from the frozen schema"
  else asProtocolError do
    let pid ← credential "pid" (value.field "pid")
    let uid ← credential "uid" (value.field "uid")
    let gid ← credential "gid" (value.field "gid")
    return ⟨pid, uid, gid⟩

end PeerCredentials

/-! ## Backends -/

/-- What a backend method that is given a boundary callback does with the host: it calls the boundary with
a label, told what the boundary raised, and returns or raises in the end. A death is an exit that no
handler sees. -/
inductive Interaction (η : Type)
  | done (host : η)
  | raised (host : η) (e : Exit HelperError)
  | call (host : η) (label : String) (next : Option HelperError → Interaction η)

/-- A backend method without a callback: the host it leaves and what it returns or raises. -/
abbrev Method (η α : Type) := η → η × Except (Exit HelperError) α

/-- The backend and the guardian's evidence writer as the helper sees them: any results and any exceptions.
The methods that a backend may lack are optional. -/
structure Backend (η : Type) where
  capturePrior : Method η Json
  apply : Json → η → Interaction η
  validateApplied : Method η Json
  startPopulationGuard : PeerCredentials → String → Method η Json
  validatePopulation : String → Method η Json
  observe : String → Nat → Method η Json
  stopPopulationGuard : Method η Json
  restore : Json → η → Interaction η
  validateRestored : Json → Method η Json
  close : Method η Unit
  validateDataFreeFeasibility : Option (Method η Json)
  guardianBindIdentity : PeerCredentials → String → Method η Unit
  guardianSeal : Json → Method η Json
  guardianClose : Method η Unit

end Bravo.Helper
