-- SUMMARY: Local writes to the ledger.
import Vincent.Mesh.Ledger

/-!
# Local writes

Each of the three calls checks its request, binds the author's key, verifies the
signature (`prepare`), writes the event to the log, and then changes the ledger
(`commitAppend`).

A key stays bound when a later check fails, so the calls return the ledger along with
their result.
-/

namespace Vincent.Mesh

open Vincent.Python Vincent.Check

/-- The arguments of `append`. -/
structure AppendRequest where
  eventType : String
  nodeId : String
  payload : Dict
  signature : String
  sequence : Int
  ephemeral : Bool
  publicKey : String
  publicKeyAlgo : String
  protocolVersion : String
  timestampBucketS : Int

/-- The arguments of the two private appends. -/
structure PrivateRequest where
  nodeId : String
  payload : Dict
  signature : String
  sequence : Int
  publicKey : String
  publicKeyAlgo : String
  protocolVersion : String
  timestamp : PyFloat

/-- A call of one of the three appends. -/
inductive AppendCall where
  | append (req : AppendRequest)
  | privateDmMessage (req : PrivateRequest)
  | privateGateMessage (req : PrivateRequest)

/-- An event that is ready to be written, with the sequence counter it advances. -/
structure Prepared where
  event : ChainEvent
  slot : SequenceSlot
  sequence : Int

/-! ## Checks the appends share -/

/-- `len(payload_json.encode("utf-8"))`. -/
def payloadBytes (env : Env) (payload : Dict) : Nat := (canonicalJson env.rt payload).utf8ByteSize

/-- The sequence is positive and above the last one of its counter. -/
def checkAppendSequence (net : Infonet) (slot : SequenceSlot) (sequence : Int) : Verdict := do
  require (0 < sequence) (.invalid "sequence is required and must be > 0")
  let last := net.lastSequence slot
  require (last < sequence) (.invalid s!"Replay detected: sequence {sequence} <= last {last}")

/-- From the size of the payload to the binding of the node id to its key. -/
def checkAppendIdentity (env : Env) (payload : Dict)
    (protocolVersion signature publicKey publicKeyAlgo nodeId : String) : Verdict := do
  require (payloadBytes env payload ≤ maxPayloadBytes) (.invalid "payload exceeds max size")
  require (protocolVersion = Mesh.protocolVersion) (.invalid "Unsupported protocol_version")
  require (¬ (signature = "" ∨ publicKey = "" ∨ publicKeyAlgo = ""))
    (.invalid "Missing signature fields")
  require (parsePublicKeyAlgo env.rt publicKeyAlgo ≠ "") (.invalid "Unsupported public_key_algo")
  require (env.verifyNodeBinding nodeId publicKey) (.invalid "node_id mismatch")

/-- `str(protocol_version or PROTOCOL_VERSION)`. -/
def protocolVersionOrDefault (version : String) : String :=
  if version = "" then protocolVersion else version

/-- The signature of an event covers one of its signature payloads. -/
def checkSignature (env : Env) (e : ChainEvent) (sequence : Int) (payload : Dict) : Verdict := do
  let candidates ← orFail (signaturePayloads env.rt e.eventType payload) .raised
  let verified ← orFail (anySignatureVerifies env e sequence candidates) .raised
  require (verified = true) (.invalid "Invalid signature")

/-- A `key_revoke` names only the key that signs it; the names are for the errors. -/
def checkKeyRevokeMatches (payload : Dict) (publicKey publicKeyAlgo keyName algoName : String) :
    Verdict := do
  let key := Dict.get payload "revoked_public_key"
  require (¬ (key.truthy ∧ ¬ key.eq (.str publicKey)))
    (.invalid s!"revoked_public_key must match {keyName}")
  let algo := Dict.get payload "revoked_public_key_algo"
  require (¬ (algo.truthy ∧ ¬ algo.eq (.str publicKeyAlgo)))
    (.invalid s!"revoked_public_key_algo must match {algoName}")

/-! ## `append` -/

/-- The payload that `append` stores, after the checks of its fields. -/
def appendPayload (env : Env) (req : AppendRequest) : Except Fault Dict := do
  let payload ← orFail (normalizePayload env.rt req.eventType req.payload) .raised
  validateEventPayload env.rt env.extensionValidators req.eventType payload
  validatePublicLedgerPayload env.rt env.extensionValidators req.eventType payload
  return if req.eventType = "message" then
      if Dict.contains payload "ephemeral" then payload
      else Dict.set payload "ephemeral" (.bool req.ephemeral)
    else Dict.pop payload "ephemeral"

/-- The checks of `append` before it binds the key. -/
def appendChecks (env : Env) (net : Infonet) (req : AppendRequest) : Except Fault Dict := do
  require (req.eventType ∈ env.activeAppendEventTypes)
    (.invalid s!"Unsupported event_type: {req.eventType}")
  checkAppendSequence net (.node req.nodeId) req.sequence
  let payload ← appendPayload env req
  checkAppendIdentity env payload (protocolVersionOrDefault req.protocolVersion) req.signature
    req.publicKey req.publicKeyAlgo req.nodeId
  return payload

/-- The time that `append` stamps an event with: the clock, or the start of its bucket. -/
def appendTime (call : Call) (bucketS : Int) : ℚ :=
  if 0 < bucketS then (call.now / bucketS).floor * bucketS else call.now

/-- The event that `append` builds from its request and the stored payload. -/
def appendEvent (env : Env) (call : Call) (net : Infonet) (req : AppendRequest)
    (payload : Dict) : ChainEvent :=
  ChainEvent.init env call {
    eventId := ""
    prevHash := net.headHash
    eventType := req.eventType
    nodeId := req.nodeId
    payload := payload
    timestamp := .float (.finite (appendTime call req.timestampBucketS))
    sequence := .int req.sequence
    signature := req.signature
    networkId := ""
    publicKey := req.publicKey
    publicKeyAlgo := req.publicKeyAlgo
    protocolVersion := protocolVersionOrDefault req.protocolVersion }

/-- The checks of `append` after it has bound the key. -/
def appendBoundChecks (env : Env) (call : Call) (net : Infonet) (req : AppendRequest)
    (payload : Dict) : Verdict := do
  checkSignature env (appendEvent env call net req payload) req.sequence payload
  require (¬ (net.revoked call.now req.publicKey ∧ req.eventType ≠ "key_revoke"))
    (.invalid "public key is revoked")
  onlyIf (req.eventType = "key_revoke")
    (checkKeyRevokeMatches payload req.publicKey req.publicKeyAlgo "event public_key"
      "event public_key_algo")

/-! ## The private appends -/

/-- The event that a private append builds. -/
def privateEvent (env : Env) (call : Call) (net : Infonet) (eventType : String)
    (req : PrivateRequest) (payload : Dict) : ChainEvent :=
  ChainEvent.init env call {
    eventId := ""
    prevHash := net.headHash
    eventType := eventType
    nodeId := req.nodeId
    payload := payload
    timestamp := timestampOrNow (.float req.timestamp) call
    sequence := .int req.sequence
    signature := req.signature
    networkId := ""
    publicKey := req.publicKey
    publicKeyAlgo := req.publicKeyAlgo
    protocolVersion := protocolVersionOrDefault req.protocolVersion }

/-- `append_private_dm_message` before it binds the key. -/
def privateDmChecks (env : Env) (call : Call) (net : Infonet) (req : PrivateRequest) :
    Except Fault Dict := do
  checkAppendSequence net (sequenceTableForEvent env.rt "dm_message" req.nodeId) req.sequence
  require (¬ (Dict.contains req.payload "message" ∨ Dict.contains req.payload "plaintext" ∨
      Dict.contains req.payload "_local_plaintext"))
    (.invalid "private DM ledger payload must not contain plaintext")
  require (env.rt.lower (strip (Dict.text env.rt req.payload "transport_lock")) = "private_strong")
    (.invalid "DM hashchain spool requires private_strong transport_lock")
  let payload ← orFail (normalizePayload env.rt "dm_message" req.payload) .raised
  validatePrivateDmLedgerPayload env.rt env.extensionValidators payload
  net.checkDmSpool env call.now payload req.nodeId
  checkAppendIdentity env payload (protocolVersionOrDefault req.protocolVersion) req.signature
    req.publicKey req.publicKeyAlgo req.nodeId
  return payload

/-- `append_private_gate_message` before it binds the key. -/
def privateGateChecks (env : Env) (net : Infonet) (req : PrivateRequest) : Except Fault Dict := do
  checkAppendSequence net (sequenceTableForEvent env.rt "gate_message" req.nodeId) req.sequence
  require (¬ (Dict.contains req.payload "message" ∨ Dict.contains req.payload "_local_plaintext" ∨
      Dict.contains req.payload "_local_reply_to"))
    (.invalid "private gate ledger payload must not contain plaintext")
  require (env.rt.lower (strip (Dict.text env.rt req.payload "transport_lock")) = "private_strong")
    (.invalid "gate messages require private_strong transport_lock")
  let payload ← orFail (normalizePayload env.rt "gate_message" req.payload) .raised
  validatePrivateGateLedgerPayload env.rt env.extensionValidators payload
  checkAppendIdentity env payload (protocolVersionOrDefault req.protocolVersion) req.signature
    req.publicKey req.publicKeyAlgo req.nodeId
  return payload

/-- The checks of a private append after it has bound the key. -/
def privateBoundChecks (env : Env) (call : Call) (net : Infonet) (eventType : String)
    (req : PrivateRequest) (payload : Dict) : Verdict := do
  checkSignature env (privateEvent env call net eventType req payload) req.sequence payload
  require (net.revoked call.now req.publicKey = false) (.invalid "public key is revoked")

/-! ## The calls -/

namespace AppendCall

def nodeId : AppendCall → String
  | .append req => req.nodeId
  | .privateDmMessage req => req.nodeId
  | .privateGateMessage req => req.nodeId

def publicKey : AppendCall → String
  | .append req => req.publicKey
  | .privateDmMessage req => req.publicKey
  | .privateGateMessage req => req.publicKey

/-- The checks before the key is bound. -/
def checks (env : Env) (call : Call) (net : Infonet) : AppendCall → Except Fault Dict
  | .append req => appendChecks env net req
  | .privateDmMessage req => privateDmChecks env call net req
  | .privateGateMessage req => privateGateChecks env net req

/-- The checks after the key is bound. -/
def boundChecks (env : Env) (call : Call) (net : Infonet) (payload : Dict) : AppendCall → Verdict
  | .append req => appendBoundChecks env call net req payload
  | .privateDmMessage req => privateBoundChecks env call net "dm_message" req payload
  | .privateGateMessage req => privateBoundChecks env call net "gate_message" req payload

/-- The event of a call whose checks have passed. -/
def prepared (env : Env) (call : Call) (net : Infonet) (payload : Dict) : AppendCall → Prepared
  | .append req => ⟨appendEvent env call net req payload, .node req.nodeId, req.sequence⟩
  | .privateDmMessage req =>
    ⟨privateEvent env call net "dm_message" req payload,
      sequenceTableForEvent env.rt "dm_message" req.nodeId, req.sequence⟩
  | .privateGateMessage req =>
    ⟨privateEvent env call net "gate_message" req payload,
      sequenceTableForEvent env.rt "gate_message" req.nodeId, req.sequence⟩

/-- A call up to the event it builds. -/
def prepare (env : Env) (call : Call) (net : Infonet) (c : AppendCall) :
    Infonet × Except Fault Prepared :=
  match c.checks env call net with
  | .error fault => (net, .error fault)
  | .ok payload =>
    match net.bindPublicKey c.publicKey c.nodeId with
    | .error reason => (net, .error (.invalid reason))
    | .ok net =>
      match c.boundChecks env call net payload with
      | .error fault => (net, .error fault)
      | .ok () => (net, .ok (c.prepared env call net payload))

end AppendCall

namespace Infonet

/-- An accepted event enters the chain and its tables. -/
def recordEvent (env : Env) (call : Call) (net : Infonet) (slot : SequenceSlot) (sequence : Int)
    (e : ChainEvent) : Infonet :=
  ({ net with
    events := net.events ++ [e]
    eventIndex := Function.update net.eventIndex e.eventId (some net.events.length)
    headHash := e.eventId
    replayFilter := net.replayFilter.add env call.now e.eventId } : Infonet).setSequence slot sequence

/-- An accepted `key_revoke` takes effect. -/
def applyIfRevocation (env : Env) (net : Infonet) (e : ChainEvent) : Except String Infonet :=
  if e.eventType = "key_revoke" then net.applyRevocation env.rt e else .ok net

/-- The rest of an append, once its event is in the log. -/
def commitAppend (env : Env) (call : Call) (net : Infonet) (p : Prepared) :
    Infonet × Except Fault ChainEvent :=
  let net := (net.recordEvent env call p.slot p.sequence p.event).invalidateMerkleCache
  match net.applyIfRevocation env p.event with
  | .error exn => (net, .error (.raised exn))
  | .ok net => (net.save, .ok p.event)

/-- One of the three appends. -/
def append (env : Env) (call : Call) (net : Infonet) (c : AppendCall) :
    Infonet × Except Fault ChainEvent :=
  match c.prepare env call net with
  | (net, .error fault) => (net, .error fault)
  | (net, .ok p) => net.commitAppend env call p

end Infonet

end Vincent.Mesh
