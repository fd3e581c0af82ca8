import Bravo.Helper.DurableJournal

/-! # The helper session

`HelperSession` with the control-evidence writer and the transcript it fills. A packet that the transport
refuses is an exception of the receiving call. The labels of the fault hooks are left out: a hook raises or
it does not.
-/

namespace Bravo.Helper

open Bravo.Json

section Programs

variable {η α : Type}

/-! ## Control evidence -/

def maxControlEvidenceLineBytes : Nat := maxControlStateBytes + 4096

def maxControlEvidenceBytes : Nat := maxControlEvidenceRows * maxControlEvidenceLineBytes

def optionalStr : Option String → Json
  | some s => .str s
  | none => .null

namespace EvidenceRow

def asRecord (row : EvidenceRow) (sequence : Nat) : Json :=
  .obj [("end_offset_bytes", .int row.endOffset), ("phase", .str row.phase),
    ("record_sha256", .str row.recordSha256), ("sequence", .int sequence),
    ("state_sha256", .str row.stateSha256)]

end EvidenceRow

namespace ControlEvidence

def rowRecords (e : ControlEvidence) : Json :=
  .arr (e.rows.zipIdx.map fun entry => entry.1.asRecord entry.2)

/-- `_checkpoint`; the device and the inode of the held file are left out. -/
def checkpoint (c : Config η) (e : ControlEvidence) : Json :=
  .obj [("evidence_sha256", .str (c.sha256 e.written)), ("evidence_size_bytes", .int e.written.length),
    ("last_record_sha256", optionalStr (e.rows.getLast?.map (·.recordSha256))),
    ("row_count", .int e.rows.length), ("rows", e.rowRecords)]

def allowedNext (e : ControlEvidence) : List String :=
  match e.rows.map (·.phase) with
  | [] => ["prior"]
  | ["prior"] => ["applied", "restored"]
  | ["prior", "applied"] => ["restored"]
  | _ => []

def stateSha256 (phase : String) (e : ControlEvidence) : Option String :=
  (e.rows.find? fun row => row.phase = phase).map (·.stateSha256)

def record (c : Config η) (e : ControlEvidence) (binding : Binding) (sessionId journalId phase : String)
    (state : Json) (stateSha256 : String) : Json :=
  .obj [("binding_digest", .str (c.sha256 (binding.asRecord.canonicalBytes ++ [newline]))),
    ("journal_id", .str journalId), ("phase", .str phase),
    ("previous_record_sha256", .str ((e.rows.getLast?.map (·.recordSha256)).getD noDigest)),
    ("record_type", .str "cp2e_control_state"), ("schema_version", .int schemaVersion),
    ("sequence", .int e.rows.length), ("session_id", .str sessionId), ("state", state),
    ("state_sha256", .str stateSha256)]

def sealRecord (c : Config η) (e : ControlEvidence) (binding : Binding) (sessionId journalId : String) : Json :=
  .obj [("binding_digest", .str (c.sha256 (binding.asRecord.canonicalBytes ++ [newline]))),
    ("evidence_sha256", .str (c.sha256 e.written)), ("evidence_size_bytes", .int e.written.length),
    ("first_record_sha256", optionalStr (e.rows.head?.map (·.recordSha256))), ("journal_id", .str journalId),
    ("last_record_sha256", optionalStr (e.rows.getLast?.map (·.recordSha256))),
    ("phases", .arr (e.rows.map fun row => .str row.phase)),
    ("record_type", .str "cp2e_control_evidence_terminal"), ("restoration_matches_prior", .bool true),
    ("row_count", .int e.rows.length), ("rows", e.rowRecords), ("schema_version", .int schemaVersion),
    ("session_id", .str sessionId)]

end ControlEvidence

def setEvidence (f : ControlEvidence → ControlEvidence) (w : World η) : World η :=
  { w with evidence := f w.evidence }

/-- `ControlEvidenceWriter.bind_identity` -/
def evidenceBind (binding : Binding) (sessionId journalId : String) : Helping η Unit := do
  onlyIf (!isHash sessionId) (failWith "control evidence session ID is not one lowercase SHA-256")
  onlyIf (!isHexOf 32 journalId) (failWith "control evidence journal ID is invalid")
  let e ← read (·.evidence)
  onlyIf (e.identity.isSome || e.rows ≠ []) (failWith "control evidence identity was bound late or twice")
  update (setEvidence fun e => { e with identity := some (binding, sessionId, journalId) })

/-- `_read_exact`: the held file has exactly the bytes that were written. -/
def evidenceReadExact : Helping η Unit := do
  let e ← query (·.evidence)
  onlyIf e.closed (failWith "control evidence descriptor is closed")
  onlyIf (e.file ≠ e.written) (indeterminate "control evidence held inode changed")

variable (c : Config η)

/-- `ControlEvidenceWriter.append` -/
def evidenceAppend (phase : String) (state : Json) : Helping η Json := do
  let e ← read (·.evidence)
  match e.identity with
  | none => indeterminate "control evidence identity is not bound"
  | some (binding, sessionId, journalId) => do
    onlyIf e.isSealed (indeterminate "control evidence append followed its terminal seal")
    onlyIf (maxControlEvidenceRows ≤ e.rows.length)
      (indeterminate "control evidence row-count bound is exhausted")
    onlyIf (!isMapping state) (failWith "full control state is not a mapping")
    onlyIf (!e.allowedNext.contains phase) (indeterminate "control evidence phase order differs")
    let stateBytes ← ofExcept (canonicalControlStateBytes state)
    let stateSha256 := c.sha256 stateBytes
    let encoded ← ofExcept (boundedCanonicalJsonBytes maxControlEvidenceLineBytes
      "canonical control evidence row" (e.record c binding sessionId journalId phase state stateSha256))
    onlyIf (maxControlEvidenceBytes < e.written.length + encoded.length)
      (indeterminate "control evidence total-byte bound is exhausted")
    evidenceReadExact
    let count ← read fun w => w.chunks.headD encoded.length
    update fun w => { w with chunks := w.chunks.tail }
    operate (setEvidence fun e => { e with file := e.file ++ encoded.take count })
    operate (setEvidence fun e => { e with file := e.file ++ encoded.drop count })
    operate id
    let candidate := e.written ++ encoded
    let held ← query (·.evidence)
    onlyIf (held.file ≠ candidate) (indeterminate "control evidence held inode changed")
    let row : EvidenceRow := ⟨phase, stateSha256, c.sha256 encoded, candidate.length⟩
    update fun w => { w with
      evidence := { w.evidence with written := candidate, rows := e.rows ++ [row] }
      log := w.log ++ [.evidenced phase] }
    let checkpoint ← read fun w => w.evidence.checkpoint c
    let _ ← ofExcept (canonicalJsonBytes checkpoint)
    return checkpoint

def successPhases : List String := ["prior", "applied", "restored"]

def failClosedPhases : List String := ["prior", "restored"]

/-- `ControlEvidenceWriter.seal` -/
def evidenceSeal : Helping η Json := do
  let e ← read (·.evidence)
  onlyIf e.isSealed (failWith "control evidence was sealed twice")
  onlyIf (e.rows.map (·.phase) ≠ successPhases && e.rows.map (·.phase) ≠ failClosedPhases)
    (indeterminate "control evidence phase population cannot seal")
  onlyIf (e.stateSha256 "prior" ≠ e.stateSha256 "restored")
    (indeterminate "control evidence prior/restored digests differ")
  evidenceReadExact
  operate id
  match e.identity with
  | none => raise ⟨.other "TypeError", "control evidence identity"⟩
  | some (binding, sessionId, journalId) => do
    let value := e.sealRecord c binding sessionId journalId
    let _ ← ofExcept (canonicalJsonBytes value)
    update (setEvidence fun e => { e with isSealed := true })
    return value

/-- `ControlEvidenceWriter.close` -/
def evidenceClose : Helping η Unit := do
  let e ← read (·.evidence)
  onlyIf (!e.closed) (do
    let verified ← rescue evidenceReadExact
    operate (setEvidence fun e => { e with closed := true })
    match verified with
    | .ok _ => return ⟨⟩
    | .error e => indeterminate ("control evidence close-time verification failed: " ++ e.message))

/-! ## The session -/

/-- What a session is bound to; the credentials are those that the socket reports. -/
structure Expected where
  binding : Binding
  peer : PeerCredentials
  socketPeer : PeerCredentials
  runSlots : Nat → Json
  validateRawObservationReceipt : Json → Nat → String → Except HelperError Unit

def setSession (f : Session → Session) : Helping η Unit := update fun w => { w with session := f w.session }

def boundary : Helping η Unit := operate id

/-- `_boundary` -/
def boundaryIf (enabled : Bool) : Helping η Unit := onlyIf enabled boundary

namespace SessionState

/-- `_ALLOWED_TRANSITIONS` -/
def allowed : SessionState → List SessionState
  | .new => [.authenticated, .closed]
  | .authenticated => [.capturingPrior, .restoring, .closed]
  | .capturingPrior => [.priorCaptured, .restoring, .indeterminate, .closed]
  | .priorCaptured => [.applying, .restoring, .indeterminate]
  | .applying => [.applied, .restoring, .indeterminate]
  | .applied => [.observed 0 false, .restoring, .indeterminate]
  | .observed runIndex false => [.observed runIndex true, .restoring, .indeterminate]
  | .observed runIndex true =>
    [if runIndex + 1 = formalRunCount then .restoring else .observed (runIndex + 1) false, .restoring,
      .indeterminate]
  | .restoring => [.restored, .indeterminate]
  | .restored => [.closed]
  | .indeterminate => [.closed]
  | .closed => []

def text : SessionState → String
  | .new => "new"
  | .authenticated => "authenticated"
  | .capturingPrior => "capturing_prior"
  | .priorCaptured => "prior_captured"
  | .applying => "applying"
  | .applied => "applied"
  | .observed runIndex post =>
    "run_" ++ toString runIndex ++ (if post then "_post_observed" else "_pre_observed")
  | .restoring => "restoring"
  | .restored => "restored"
  | .indeterminate => "indeterminate"
  | .closed => "closed"

end SessionState

def transition (following : SessionState) : Helping η Unit := do
  let state ← read (·.session.state)
  onlyIf (!state.allowed.contains following)
    (failWith ("forbidden helper state transition " ++ state.text ++ " -> " ++ following.text))
  setSession fun s => { s with state := following, history := s.history ++ [following] }

def recordSha256 (value : Json) : Helping η String := do
  let bytes ← ofExcept (canonicalJsonBytes value)
  return c.sha256 bytes

def appendTranscript (event : String) (payload : Json) : Helping η Unit := do
  let transcript ← read (·.session.transcript)
  onlyIf (maxTranscriptRecords ≤ transcript.length)
    (failWith "privileged transcript event is invalid or exceeds its count bound")
  let value : Json := .obj [("event", .str event), ("event_index", .int transcript.length),
    ("payload", payload),
    ("previous_record_sha256", .str ((transcript.getLast?.map fun line => c.sha256 line.bytes).getD noDigest)),
    ("record_type", .str "cp2e_privileged_transcript_event"), ("schema_version", .int schemaVersion)]
  let encoded ← ofExcept (canonicalJsonBytes value)
  onlyIf (maxTranscriptBytes < (transcript.map (·.bytes.length)).sum + encoded.length)
    (failWith "privileged transcript exceeds its byte bound")
  setSession fun s => { s with transcript := s.transcript ++ [⟨event, encoded⟩] }
  note (.transcribed event)

/-! ## Packets -/

def sendPacket (value : Json) : Helping η Unit := do
  let _ ← ofExcept (canonicalJsonBytes value)
  operate id

def recvPacket : Helping η Json := do
  operate id
  match ← read (·.inbox) with
  | [] => raise ⟨.peerClosed, "privileged helper peer closed its session"⟩
  | message :: rest => do
    update fun w => { w with inbox := rest }
    return message

def messageIdentity (value : Json) (recordType : String) (sequence : Nat) : Except HelperError Unit :=
  if !isMapping value then protocolError "protocol message is not a mapping"
  else if !isExactly schemaVersion (value.field "schema_version") then
    protocolError "protocol schema version differs"
  else if !isStr recordType (value.field "record_type") then protocolError "protocol record type differs"
  else if !isExactly sequence (value.field "sequence") then protocolError "protocol sequence differs"
  else .ok ⟨⟩

def sessionId : Helping η String := do
  match ← read (·.session.sessionId) with
  | some id => return id
  | none => failWith "session ID is absent"

def sendAck (recordType : String) (sequence : Nat) (payload : Json) : Helping η Unit := do
  let id ← sessionId
  let state ← read (·.session.state)
  sendPacket (.obj [("payload", payload), ("record_type", .str recordType),
    ("schema_version", .int schemaVersion), ("sequence", .int sequence), ("session_id", .str id),
    ("state", .str state.text)])

def nibble (c : Char) : UInt8 :=
  if c.isDigit then UInt8.ofNat (c.toNat - 48) else UInt8.ofNat (c.toNat - 87)

def fromHex : List Char → List UInt8
  | high :: low :: rest => (nibble high * 16 + nibble low) :: fromHex rest
  | _ => []

def bindingDigest (binding : Binding) : String :=
  c.sha256 (binding.asRecord.canonicalBytes ++ [newline])

variable (x : Expected)

def derivedSessionId (challengeNonce clientNonce : String) : String :=
  c.sha256 ((Json.obj [("binding_digest", .str (bindingDigest c x.binding)),
    ("challenge_nonce", .str challengeNonce), ("client_nonce", .str clientNonce),
    ("peer", x.peer.asRecord)]).canonicalBytes ++ [newline])

def checkHello (message : Json) (challengeNonce : String) : Except HelperError (String × Binding) := do
  messageIdentity message "cp2e_privileged_hello" 0
  if message.keys ≠ some ["binding", "challenge_nonce", "client_nonce", "record_type", "schema_version",
      "sequence"] then protocolError "hello keys differ from the frozen schema"
  else match message.field "client_nonce" with
    | some (.str clientNonce) =>
      if !isHash clientNonce then protocolError "client nonce is not exactly 256 bits"
      else if !isStr challengeNonce (message.field "challenge_nonce") then
        protocolError "hello does not echo the fresh helper challenge"
      else do
        let binding ← Binding.fromRecord ((message.field "binding").getD .null)
        return (clientNonce, binding)
    | _ => protocolError "client nonce is not exactly 256 bits"

def identify (id nonceSha256 : String) : Helping η Unit := do
  setSession fun s => { s with sessionId := some id, nonceSha256 := some nonceSha256 }
  note (.accepted ⟨"cp2e_privileged_hello", 0, id, none⟩)

def handshake : Helping η Unit := do
  boundary
  operate id
  setSession fun s => { s with actualPeer := some x.socketPeer }
  boundary
  onlyIf (x.socketPeer ≠ x.peer)
    (raise ⟨.protocolError, "SO_PEERCRED differs from the expected client identity"⟩)
  let challengeNonce ← urandom c 32
  boundary
  sendPacket (.obj [("binding_digest", .str (bindingDigest c x.binding)),
    ("challenge_nonce", .str challengeNonce), ("record_type", .str "cp2e_privileged_challenge"),
    ("schema_version", .int schemaVersion), ("sequence", .int 0)])
  appendTranscript c "challenge" (.obj [("binding", x.binding.asRecord),
    ("binding_digest", .str (bindingDigest c x.binding)), ("challenge_nonce", .str challengeNonce),
    ("peer", x.socketPeer.asRecord)])
  boundary
  boundary
  let message ← recvPacket
  boundary
  let hello ← ofExcept (checkHello message challengeNonce)
  boundary
  onlyIf (hello.2 ≠ x.binding)
    (raise ⟨.protocolError, "hello binding differs from the frozen helper identity"⟩)
  boundary
  let id := derivedSessionId c x challengeNonce hello.1
  let nonceSha256 := c.sha256 (fromHex challengeNonce.toList ++ fromHex hello.1.toList)
  identify id nonceSha256
  appendTranscript c "hello" (.obj [("binding", x.binding.asRecord),
    ("challenge_nonce", .str challengeNonce), ("client_nonce", .str hello.1),
    ("nonce_sha256", .str nonceSha256), ("peer", x.socketPeer.asRecord), ("session_id", .str id)])
  transition .authenticated
  boundary
  sendAck "cp2e_privileged_hello_ack" 0 (.obj [("binding_digest", .str (bindingDigest c x.binding)),
    ("nonce_sha256", .str nonceSha256), ("peer", x.socketPeer.asRecord)])
  boundary

/-- The checks of a command; the extra keys are those of an observation. -/
def checkCommand (value : Json) (recordType : String) (sequence : Nat) (observe : Bool)
    (session : Option String) : Except HelperError Unit := do
  messageIdentity value recordType sequence
  let expected := if observe then
      ["phase", "record_type", "run_index", "schema_version", "sequence", "session_id"]
    else ["record_type", "schema_version", "sequence", "session_id"]
  if value.keys ≠ some expected then protocolError "client command keys differ from the frozen schema"
  else match session, value.field "session_id" with
    | some id, found =>
      (if isStr id found then .ok ⟨⟩ else protocolError "client command session ID differs")
    | none, found => (if isNull found then .ok ⟨⟩ else protocolError "client command session ID differs")

def receiveExactCommand (recordType : String) (sequence : Nat) (observe : Bool) : Helping η Json := do
  let value ← recvPacket
  let session ← read (·.session.sessionId)
  ofExcept (checkCommand value recordType sequence observe session)
  return value

def acceptCommand (recordType : String) (sequence : Nat) (observation : Option (String × Nat)) :
    Helping η Unit := do
  let session ← read (·.session.sessionId)
  note (.accepted ⟨recordType, sequence, session.getD "", observation⟩)

/-! ## Apply -/

def observePrior : Helping η Json := do
  transition .capturingPrior
  let prior ← callMethod c.backend.capturePrior
  note (.captured prior)
  setSession fun s => { s with prior := some prior }
  return prior

def persistEvidence (prior : Json) (priorSha256 identifier : String) : Helping η Unit := do
  setSession fun s => { s with journalId := some identifier }
  let id ← sessionId
  evidenceBind x.binding id identifier
  let checkpoint ← evidenceAppend c "prior" prior
  let checkpointSha256 ← recordSha256 c checkpoint
  journalAppend c "prior_control_evidence_durable" (some (.obj
    [("control_evidence_checkpoint", checkpoint),
      ("control_evidence_checkpoint_sha256", .str checkpointSha256), ("state_sha256", .str priorSha256)]))
  transition .priorCaptured

/-- The journal and the control evidence get the captured state. -/
def persistPrior (nonceSha256 : String) (prior : Json) (priorSha256 : String) : Helping η Unit := do
  journalCreate c x.binding x.peer nonceSha256 prior
  let j ← currentJournal
  persistEvidence c x prior priorSha256 j.identifier

/-- Everything of `_apply` before the mutation: the prior state is captured and made durable. It returns
the prior state and its digest. -/
def capturePrior : Helping η (Json × String) := do
  let prior ← observePrior c
  let priorBytes ← ofExcept (canonicalControlStateBytes prior)
  boundary
  match ← read (·.session.nonceSha256) with
  | none => failWith "nonce digest is absent"
  | some nonceSha256 => do
    persistPrior c x nonceSha256 prior (c.sha256 priorBytes)
    return (prior, c.sha256 priorBytes)

/-- What `_apply` does with the validated state. -/
def recordApplied (priorSha256 : String) : Helping η Unit := do
  boundary
  let applied ← callMethod c.backend.validateApplied
  let appliedBytes ← ofExcept (canonicalControlStateBytes applied)
  let appliedSha256 := c.sha256 appliedBytes
  let checkpoint ← evidenceAppend c "applied" applied
  let checkpointSha256 ← recordSha256 c checkpoint
  let id ← sessionId
  callMethod (c.backend.guardianBindIdentity x.peer id)
  let populationBinding ← callMethod (c.backend.startPopulationGuard x.peer id)
  setSession fun s => { s with populationGuardStarted := true }
  let populationBindingSha256 ← recordSha256 c populationBinding
  let populationState ← callMethod (c.backend.validatePopulation "applied")
  let _ ← ofExcept (canonicalJsonBytes populationState)
  boundary
  journalAppend c "applied_validated" (some (.obj [("control_evidence_checkpoint", checkpoint),
    ("control_evidence_checkpoint_sha256", .str checkpointSha256), ("population_binding", populationBinding),
    ("population_binding_sha256", .str populationBindingSha256), ("state_sha256", .str appliedSha256)]))
  transition .applied
  let journalId ← read (·.session.journalId)
  appendTranscript c "apply" (.obj [("applied_state_sha256", .str appliedSha256),
    ("control_evidence_checkpoint", checkpoint),
    ("control_evidence_checkpoint_sha256", .str checkpointSha256), ("journal_id", optionalStr journalId),
    ("population_binding", populationBinding), ("population_binding_sha256", .str populationBindingSha256),
    ("population_state", populationState), ("prior_state_sha256", .str priorSha256)])
  boundary
  sendAck "cp2e_privileged_apply_ack" 1 (.obj [("applied_state_sha256", .str appliedSha256),
    ("control_evidence_checkpoint", checkpoint),
    ("control_evidence_checkpoint_sha256", .str checkpointSha256), ("journal_id", optionalStr journalId),
    ("population_binding", populationBinding), ("population_state", populationState),
    ("prior_state_sha256", .str priorSha256)])
  boundary

def apply : Helping η Unit := do
  let _ ← receiveExactCommand "cp2e_privileged_apply" 1 false
  acceptCommand "cp2e_privileged_apply" 1 none
  boundary
  let prior ← capturePrior c x
  boundary
  boundary
  transition .applying
  setSession fun s => { s with mutationPossible := true }
  backendApply c prior.1 fun _ => boundary
  recordApplied c x prior.2

/-! ## Observations -/

def takeStopAttempt : Helping η Session := do
  let s ← read (·.session)
  onlyIf s.populationStopAttempted
    (indeterminate "population guardian stop was already attempted without a proved seal")
  setSession fun s => { s with
    populationStopAttempted := true
    populationStopCount := s.populationStopCount + 1 }
  note .guardStopped
  return s

def stopPopulationGuard : Helping η Json := do
  let s ← takeStopAttempt
  let terminalState ← callMethod c.backend.stopPopulationGuard
  let _ ← ofExcept (canonicalJsonBytes terminalState)
  onlyIf (s.actualPeer.isNone || s.sessionId.isNone) (failWith "population guardian identity is absent")
  let populationSeal ← callMethod (c.backend.guardianSeal terminalState)
  let count ← read (·.session.populationStopCount)
  onlyIf (count ≠ 1) (failWith "population guardian was stopped more than once")
  setSession fun s => { s with populationSeal := some populationSeal }
  let sealSha256 ← recordSha256 c populationSeal
  setSession fun s => { s with populationSealSha256 := some sealSha256 }
  return populationSeal

def stopPopulationGuardOnce : Helping η (Option Json) := do
  let s ← read (·.session)
  match s.populationGuardStarted, s.populationSeal with
  | false, _ => return none
  | true, some populationSeal => return some populationSeal
  | true, none => do
    let populationSeal ← stopPopulationGuard c
    return some populationSeal

def phaseText (post : Bool) : String := if post then "post" else "pre"

def observe (post : Bool) (runIndex sequence : Nat) : Helping η Unit := do
  let value ← receiveExactCommand "cp2e_privileged_observe" sequence true
  onlyIf (!isStr (phaseText post) (value.field "phase") || !isExactly runIndex (value.field "run_index") ||
      decide (formalRunCount ≤ runIndex))
    (raise ⟨.protocolError, "telemetry phase/run index differs from the exact state-machine slot"⟩)
  acceptCommand "cp2e_privileged_observe" sequence (some (phaseText post, runIndex))
  boundary
  let populationPhase := "run_" ++ toString runIndex ++ "_" ++ phaseText post
  let population ← callMethod (c.backend.validatePopulation populationPhase)
  let populationSha256 ← recordSha256 c population
  let receipt ← callMethod (c.backend.observe (phaseText post) runIndex)
  ofExcept (x.validateRawObservationReceipt receipt runIndex (phaseText post))
  let receiptSha256 ← recordSha256 c receipt
  let last := post && decide (runIndex + 1 = formalRunCount)
  let sealedPopulation ← (if last then stopPopulationGuardOnce c else pure none)
  let sealSha256 ← read (·.session.populationSealSha256)
  let sealedSha256 := if sealedPopulation.isSome then optionalStr sealSha256 else .null
  boundary
  journalAppend c (populationPhase ++ "_telemetry_captured") (some (.obj
    [("population_seal_sha256", sealedSha256), ("population_sha256", .str populationSha256),
      ("receipt_sha256", .str receiptSha256), ("run_slot", x.runSlots runIndex)]))
  boundary
  transition (.observed runIndex post)
  appendTranscript c "run_slot_observation" (.obj [("phase", .str (phaseText post)),
    ("population", population), ("population_seal", sealedPopulation.getD .null),
    ("population_seal_sha256", sealedSha256), ("population_sha256", .str populationSha256),
    ("receipt", receipt), ("receipt_sha256", .str receiptSha256), ("run_slot", x.runSlots runIndex)])
  boundary
  sendAck "cp2e_privileged_observe_ack" sequence (.obj [("phase", .str (phaseText post)),
    ("population", population), ("population_seal", sealedPopulation.getD .null), ("receipt", receipt),
    ("receipt_sha256", .str receiptSha256), ("run_index", .int runIndex), ("run_slot", x.runSlots runIndex)])
  boundary

def observeSlots (c : Config η) (x : Expected) : Nat → Helping η Unit
  | 0 => return ⟨⟩
  | left + 1 => do
    let runIndex := formalRunCount - (left + 1)
    observe c x false runIndex (2 + 2 * runIndex)
    observe c x true runIndex (2 + 2 * runIndex + 1)
    observeSlots c x left

/-! ## Restoration -/

def enterRestoring : Helping η Unit := do
  let state ← read (·.session.state)
  onlyIf (state ≠ .restoring) (transition .restoring)

def reasonPayload (reason : String) : Option Json := some (.obj [("reason", .str reason)])

/-- The part of `_restore` before the host is touched. -/
def enterRestoration (injectFaults : Bool) (reason : String) : Helping η Unit := do
  enterRestoring
  boundaryIf injectFaults
  journalAppend c "restoration_started" (reasonPayload reason)
  boundaryIf injectFaults
  boundaryIf injectFaults

/-- The host is restored and validated against the prior state; the digest of both is returned. `stopped` is
what stopping the guardian gave: its error is raised only then. -/
def restoreStopped (injectFaults : Bool) (prior : Json)
    (stopped : Except HelperError (Option Json)) : Helping η (String × Json) := do
  backendRestore c prior fun _ => boundaryIf injectFaults
  boundaryIf injectFaults
  let restored ← validateAgainst c.backend.validateRestored prior
  let restoredBytes ← ofExcept (canonicalControlStateBytes restored)
  match stopped with
  | .error e => raise e
  | .ok _ => do
    let priorBytes ← ofExcept (canonicalControlStateBytes prior)
    onlyIf (c.sha256 restoredBytes ≠ c.sha256 priorBytes)
      (failWith "restored full state differs from the canonical prior state")
    setSession fun s => { s with mutationPossible := false }
    return (c.sha256 restoredBytes, restored)

def restoreHost (injectFaults : Bool) (prior : Json) : Helping η (String × Json) := do
  let stopped ← rescue (stopPopulationGuardOnce c)
  restoreStopped c injectFaults prior stopped

/-- The control-evidence row of the restored state and the seal; a retry finds them written. -/
def sealEvidence (restoredSha256 : String) (restored : Json) : Helping η (Json × Json) := do
  match ← read (·.session.controlEvidenceSeal) with
  | some evidenceSealed => do
    let checkpoint ← read fun w => w.evidence.checkpoint c
    return (checkpoint, evidenceSealed)
  | none => do
    let e ← read (·.evidence)
    let checkpoint ← (match e.rows.getLast? with
      | some row =>
        if row.phase = "restored" then do
          onlyIf (row.stateSha256 ≠ restoredSha256)
            (indeterminate "retried restoration differs from durable control evidence")
          return e.checkpoint c
        else evidenceAppend c "restored" restored
      | none => evidenceAppend c "restored" restored)
    let evidenceSealed ← evidenceSeal c
    setSession fun s => { s with controlEvidenceSeal := some evidenceSealed }
    let sealSha256 ← recordSha256 c evidenceSealed
    setSession fun s => { s with controlEvidenceSealSha256 := some sealSha256 }
    return (checkpoint, evidenceSealed)

def finishRestoration (acknowledge injectFaults : Bool) (restoredSha256 : String)
    (restored : Json) : Helping η Unit := do
  boundaryIf injectFaults
  let evidence ← sealEvidence c restoredSha256 restored
  let checkpointSha256 ← recordSha256 c evidence.1
  let sealSha256 ← read (·.session.controlEvidenceSealSha256)
  let populationSealSha256 ← read (·.session.populationSealSha256)
  journalAppend c "restoration_validated" (some (.obj [("control_evidence_checkpoint", evidence.1),
    ("control_evidence_checkpoint_sha256", .str checkpointSha256), ("control_evidence_seal", evidence.2),
    ("control_evidence_seal_sha256", optionalStr sealSha256),
    ("population_seal_sha256", optionalStr populationSealSha256), ("state_sha256", .str restoredSha256)]))
  boundaryIf injectFaults
  journalComplete c
  let j ← currentJournal
  let terminal ← ofExcept (requireHash "terminal privileged journal digest" (some (.str j.previousSha256)))
  setSession fun s => { s with terminalJournalSha256 := some terminal }
  transition .restored
  let abnormal ← read (·.session.abnormalRecovery)
  appendTranscript c "restore" (.obj [("abnormal_recovery", .bool abnormal),
    ("control_evidence_seal", evidence.2), ("control_evidence_seal_sha256", optionalStr sealSha256),
    ("population_seal_sha256", optionalStr populationSealSha256), ("prior_state_sha256", .str restoredSha256),
    ("prior_state_sha256_matches", .bool true), ("restored_state_sha256", .str restoredSha256),
    ("terminal_journal_sha256", .str terminal)])
  boundaryIf injectFaults
  onlyIf acknowledge (do
    boundaryIf injectFaults
    sendAck "cp2e_privileged_restore_ack" restoreSequence (.obj [("abnormal_recovery", .bool abnormal),
      ("control_evidence_seal", evidence.2), ("control_evidence_seal_sha256", optionalStr sealSha256),
      ("prior_state_sha256", .str restoredSha256), ("restored_state_sha256", .str restoredSha256),
      ("terminal_journal_sha256", .str terminal)])
    boundaryIf injectFaults)

def restore (acknowledge injectFaults : Bool) (reason : String) : Helping η Unit := do
  let w ← read id
  match w.session.prior, w.journal with
  | some prior, some _ => onlyIf (w.session.state ≠ .restored) (do
      enterRestoration c injectFaults reason
      let restored ← restoreHost c injectFaults prior
      finishRestoration c acknowledge injectFaults restored.1 restored.2)
  | _, _ => return ⟨⟩

/-- The record of an emergency; a failure of the journal is let pass. -/
def requestRecovery (reason : String) : Helping η Unit := do
  let _ ← rescue (journalAppend c "abnormal_recovery_requested" (some (.obj [("reason", .str reason)])))

/-- The part of `_emergency_restore` behind the guard. -/
def emergencyAttempt (reason : String) : Helping η Unit := do
  requestRecovery c reason
  match ← rescue (restore c false false reason) with
  | .ok _ => return ⟨⟩
  | .error e => do
    let state ← read (·.session.state)
    onlyIf (state ≠ .indeterminate && state.allowed.contains .indeterminate) (transition .indeterminate)
    indeterminate ("exact emergency restoration could not be proved: " ++ e.message)

def emergencyRestore (reason : String) : Helping η Unit := do
  setSession fun s => { s with abnormalRecovery := true }
  let w ← read id
  onlyIf (w.session.prior.isSome && w.journal.isSome && w.session.state ≠ .restored &&
    w.session.state ≠ .closed) (emergencyAttempt c reason)

/-! ## The run -/

/-- The events of a session that succeeds. -/
def exactSuccessNames : List String :=
  ["challenge", "hello", "apply"] ++ List.replicate (2 * formalRunCount) "run_slot_observation" ++ ["restore"]

def sealTerminalReceipt (originalError closureError : Option HelperError) : Helping η Unit := do
  let w ← read id
  let s := w.session
  let closurePassed := closureError.isNone
  let restorationProved := s.recoveryPreflightCompleted && !s.mutationPossible &&
    !(originalError.any HelperError.isRecoveryIndeterminate)
  let success := originalError.isNone && closurePassed && restorationProved && !s.abnormalRecovery &&
    decide (s.populationStopCount = 1) && s.populationSealSha256.isSome &&
    s.controlEvidenceSealSha256.isSome &&
    (match s.controlEvidenceSeal.bind (·.field "phases") with
      | some (.arr [prior, applied, restored]) => isStr "prior" (some prior) &&
          isStr "applied" (some applied) && isStr "restored" (some restored)
      | _ => false) &&
    s.terminalJournalSha256.isSome && decide (s.transcript.map (·.event) = exactSuccessNames)
  let terminalStatus : TerminalStatus := if success then .success
    else if restorationProved && closurePassed then .failClosed else .indeterminate
  let cause := if closureError.isSome then closureError else originalError
  let errorType : Option String := match terminalStatus with
    | .success => none
    | .failClosed => some ((originalError.map (·.kind.typeName)).getD "TerminalInvariantError")
    | .indeterminate => some ((cause.map (·.kind.typeName)).getD "RecoveryIndeterminate")
  let transcript := s.transcript.flatMap (·.bytes)
  let receipt : TerminalReceipt := {
    abnormalRecovery := s.abnormalRecovery
    controlEvidenceSealSha256 := s.controlEvidenceSealSha256
    closureErrorType := closureError.map (·.kind.typeName)
    closurePassed := closurePassed
    errorType := errorType
    eventCount := s.transcript.length
    firstRecordSha256 := s.transcript.head?.map fun line => c.sha256 line.bytes
    journalId := s.journalId
    lastRecordSha256 := s.transcript.getLast?.map fun line => c.sha256 line.bytes
    populationSealSha256 := s.populationSealSha256
    populationStopCount := s.populationStopCount
    restorationProved := restorationProved
    sessionId := s.sessionId
    terminalJournalSha256 := s.terminalJournalSha256
    terminalStatus := terminalStatus
    transcriptSha256 := c.sha256 transcript
    transcriptSize := transcript.length }
  setSession fun s => { s with terminalReceipt := some receipt }

/-- The part of `run` up to the accepted restore command. -/
def serve : Helping η Unit := do
  let pending ← pendingJournal c
  onlyIf pending.isSome (do
    operate id
    indeterminate "pending privileged recovery must be reconciled before a new session")
  setSession fun s => { s with recoveryPreflightCompleted := true }
  handshake c x
  apply c x
  observeSlots c x formalRunCount
  let _ ← receiveExactCommand "cp2e_privileged_restore" restoreSequence false
  acceptCommand "cp2e_privileged_restore" restoreSequence none

/-- The `try` block of `run` behind the requests. -/
def requestRestore : Helping η Unit := do
  match ← rescue (restore c true true "normal_request") with
  | .ok _ => return ⟨⟩
  | .error e => do
    emergencyRestore c "normal_restore_failure"
    raise e

def attemptSession : Helping η Unit := do
  serve c x
  requestRestore c

/-- The error that `run` reports: that of the recovery where it is indeterminate. -/
def recoverSession (e : HelperError) : Helping η HelperError := do
  match ← rescue (emergencyRestore c e.kind.typeName) with
  | .ok _ => return e
  | .error recovery => return if recovery.isRecoveryIndeterminate then recovery else e

def collect (descriptor : String) (closer : Helping η Unit) : Helping η (List HelperError) := do
  match ← rescue closer with
  | .ok _ => do
    note (.closed descriptor)
    return []
  | .error e => return [e]

def closureErrorOf : List HelperError → Option HelperError
  | [] => none
  | [e] => some e
  | errors => some ⟨.recoveryIndeterminate, "multiple privileged descriptor-closure operations failed: " ++
      ",".intercalate (errors.map (·.kind.typeName))⟩

/-- The `finally` block of `run`. -/
def closeSession (originalError : Option HelperError) : Helping η Unit := do
  let backendErrors ← collect "backend" (callMethod c.backend.close)
  let guardianErrors ← collect "guardian" (callMethod c.backend.guardianClose)
  let evidenceErrors ← collect "control_evidence" evidenceClose
  let closureError := closureErrorOf (backendErrors ++ guardianErrors ++ evidenceErrors)
  let state ← read (·.session.state)
  onlyIf (state ≠ .indeterminate && state ≠ .closed && state.allowed.contains .closed) (transition .closed)
  sealTerminalReceipt c originalError closureError
  onlyIf closureError.isSome (indeterminate "privileged descriptor closure failed")

def run : Helping η Unit := do
  match ← rescue (attemptSession c x) with
  | .ok _ => closeSession c none
  | .error e => do
    let originalError ← recoverSession c e
    closeSession c (some originalError)
    raise originalError

end Programs

end Bravo.Helper
