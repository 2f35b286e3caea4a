-- SUMMARY: `ingest_events`: the acceptance rules for events of other nodes.
import Vincent.Mesh.Append

/-!
# Events of other nodes

`ingestEvents` goes through a batch in order and skips every event that fails a
check. An exception leaves the loop at once: what was accepted before stays, but
the batch is not saved.
-/

namespace Vincent.Mesh

open Vincent.Python Vincent.Check

/-- How an event of a batch is skipped. -/
inductive Skip where
  | duplicate
  | fault (f : Fault)

/-- A check whose failure puts the event among the rejected ones. -/
def demand (c : Prop) [Decidable c] (reason : String) : Except Skip Unit :=
  require c (.fault (.invalid reason))

/-- Run a validator. -/
def demandOk (v : Verdict) : Except Skip Unit := orFail v .fault

@[simp] theorem demand_eq_ok {c : Prop} [Decidable c] {reason : String} :
    demand c reason = .ok () ↔ c := require_eq_ok

@[simp] theorem demandOk_eq_ok {v : Verdict} : demandOk v = .ok () ↔ v = .ok () := orFail_eq_ok

/-! ## The checks -/

/-- The ledger rules for the payload of an event, by its type. -/
def validateLedgerPayload (env : Env) (eventType : String) (payload : Dict) : Verdict :=
  if eventType = "gate_message" then
    validatePrivateGateLedgerPayload env.rt env.extensionValidators payload
  else if eventType = "dm_message" then
    validatePrivateDmLedgerPayload env.rt env.extensionValidators payload
  else validatePublicLedgerPayload env.rt env.extensionValidators eventType payload

/-- The timestamp is within `ingest_event_max_age_s()` of the clock. -/
def checkFresh (env : Env) (call : Call) (e : ChainEvent) : Verdict :=
  if env.ingestEventMaxAgeS = 0 then .ok ()
  else do
    let stamp ← orFail (safeInt env.rt (e.timestamp.or (.int 0)) 0) .raised
    require (¬ (0 < stamp ∧ env.ingestEventMaxAgeS < |call.now.floor - stamp|))
      (.invalid "Event timestamp outside freshness window")

/-- The checks up to the replay filter. They read the sequence of the event. -/
def ingestHeader (env : Env) (net : Infonet) (e : ChainEvent) : Except Skip Int := do
  let sequence ← orFail (e.seq env.rt) (fun exn => .fault (.raised exn))
  demand (e.eventType ∈ allowedEventTypes) "Unsupported event_type"
  demand (¬ (e.eventId = "" ∨ e.prevHash = "")) "Missing event_id or prev_hash"
  require (net.eventIndex e.eventId = none) .duplicate
  return sequence

/-- The checks from the replay filter to the node binding. The filter has been
    rotated. -/
def ingestBody (env : Env) (call : Call) (net : Infonet) (expectedPrev : String)
    (e : ChainEvent) (sequence : Int) : Except Skip Unit := do
  require (net.replayFilter.seen env e.eventId = false) .duplicate
  demand (e.prevHash = expectedPrev) "prev_hash does not match head"
  demand (e.networkId = networkId) "network_id mismatch"
  demand (e.prevHash = net.headHash) "prev_hash does not match head"
  demand (0 < sequence) "Invalid sequence"
  let last := net.lastSequence (sequenceTableForEvent env.rt e.eventType e.nodeId)
  demand (last < sequence) "Replay detected"
  demandOk (checkFresh env call e)
  demandOk (validateEventPayload env.rt env.extensionValidators e.eventType e.payload)
  demandOk (validateLedgerPayload env e.eventType e.payload)
  demandOk (onlyIf (e.eventType = "dm_message")
    (net.checkDmSpool env call.now e.payload e.nodeId))
  demand (¬ (e.eventType = "message" ∧ Dict.contains e.payload "ephemeral" = false))
    "Missing ephemeral flag"
  demand (payloadBytes env e.payload ≤ maxPayloadBytes) "Payload too large"
  demand (e.protocolVersion = "" ∨ e.protocolVersion = protocolVersion)
    "Unsupported protocol_version"
  demand (¬ (e.signature = "" ∨ e.publicKey = "" ∨ e.publicKeyAlgo = ""))
    "Missing signature fields"
  demand (parsePublicKeyAlgo env.rt e.publicKeyAlgo ≠ "") "Unsupported public_key_algo"
  demandOk (onlyIf (e.eventType = "key_revoke")
    (checkKeyRevokeMatches e.payload e.publicKey e.publicKeyAlgo "public_key" "public_key_algo"))
  demand (¬ (net.revoked call.now e.publicKey ∧ e.eventType ≠ "key_revoke"))
    "public key is revoked"
  demand (last < sequence) s!"Replay detected: sequence {sequence} <= last {last}"
  demand (env.verifyNodeBinding e.nodeId e.publicKey) "node_id mismatch"

/-- The checks after the key is bound. -/
def ingestBound (env : Env) (call : Call) (e : ChainEvent) (sequence : Int) :
    Except Skip Unit := do
  demandOk (checkSignature env e sequence e.payload)
  let computed := (ChainEvent.init env call e).eventId
  demand (ChainEvent.hashMatches env call e)
    ("event_id hash mismatch: Hash mismatch on event load: computed " ++ slice computed 16 ++
      ", stored " ++ slice e.eventId 16)

namespace Infonet

/-- The replay filter is rotated when it is asked about an event. -/
def rotateFilter (net : Infonet) (call : Call) : Infonet :=
  { net with replayFilter := net.replayFilter.rotateIfNeeded call.now }

/-- One event of a batch. -/
def ingestEvent (env : Env) (call : Call) (net : Infonet) (expectedPrev : String)
    (e : ChainEvent) : Infonet × Except Skip Unit :=
  match ingestHeader env net e with
  | .error skip => (net, .error skip)
  | .ok sequence =>
    let net := net.rotateFilter call
    match ingestBody env call net expectedPrev e sequence with
    | .error skip => (net, .error skip)
    | .ok () =>
      match net.bindPublicKey e.publicKey e.nodeId with
      | .error reason => (net, .error (.fault (.invalid reason)))
      | .ok net =>
        match ingestBound env call e sequence with
        | .error skip => (net, .error skip)
        | .ok () =>
          let slot := sequenceTableForEvent env.rt e.eventType e.nodeId
          let net := net.recordEvent env call slot sequence e
          match net.applyIfRevocation env e with
          | .error exn => (net, .error (.fault (.raised exn)))
          | .ok net => (net, .ok ())

end Infonet

/-! ## Batches -/

/-- An item of a batch as it comes over the wire. -/
inductive WireItem where
  | event (e : ChainEvent)
  /-- Something that is no JSON object. -/
  | notObject
  /-- A field has a wrong type: a key may be bound before it is refused, or a builtin raises. -/
  | illTyped (prevHash : String) (bound : Option (String × String)) (fault : Fault)

/-- The answer of `ingest_events`. -/
structure IngestResult where
  accepted : Nat := 0
  duplicates : Nat := 0
  rejected : List (Nat × String) := []
deriving DecidableEq, Repr

namespace IngestResult

def accept (r : IngestResult) : IngestResult := { r with accepted := r.accepted + 1 }

/-- Book a skipped event, or leave the loop with an exception. -/
def skip (r : IngestResult) (idx : Nat) : Skip → Except String IngestResult
  | .duplicate => .ok { r with duplicates := r.duplicates + 1 }
  | .fault (.invalid reason) => .ok { r with rejected := r.rejected ++ [(idx, reason)] }
  | .fault (.raised exn) => .error exn

end IngestResult

namespace Infonet

/-- One item of a batch. -/
def ingestItem (env : Env) (call : Call) (net : Infonet) (expectedPrev : String) :
    WireItem → Infonet × Except Skip Unit
  | .event e => net.ingestEvent env call expectedPrev e
  | .notObject => (net, .error (.fault (.invalid "Event is not an object")))
  | .illTyped _ none fault => (net, .error (.fault fault))
  | .illTyped _ (some (publicKey, nodeId)) fault =>
    match net.bindPublicKey publicKey nodeId with
    | .error reason => (net, .error (.fault (.invalid reason)))
    | .ok net => (net, .error (.fault fault))

/-- The loop of `ingest_events`. -/
def ingestLoop (env : Env) (call : Call) :
    List WireItem → Nat → String → IngestResult → Infonet →
      Infonet × Except String IngestResult
  | [], _, _, result, net => (net, .ok result)
  | item :: items, idx, expectedPrev, result, net =>
    match net.ingestItem env call expectedPrev item with
    | (net, .ok ()) => ingestLoop env call items (idx + 1) net.headHash result.accept net
    | (net, .error s) =>
      match result.skip idx s with
      | .error exn => (net, .error exn)
      | .ok result => ingestLoop env call items (idx + 1) expectedPrev result net

def ingestEvents (env : Env) (call : Call) (net : Infonet) (items : List WireItem) :
    Infonet × Except String IngestResult :=
  match ingestLoop env call items 0 net.headHash {} net with
  | (net, .error exn) => (net, .error exn)
  | (net, .ok result) =>
    if 0 < result.accepted then (net.invalidateMerkleCache.save, .ok result) else (net, .ok result)

end Infonet

end Vincent.Mesh
