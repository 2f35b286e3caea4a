-- SUMMARY: The private gate store: verification, fingerprints, and its entry points.
import Vincent.General.Run
import Vincent.Mesh.Event
import Vincent.Python.Number

/-!
# The private gate store

An event from a peer is checked against its signature and the author's access, given
the id that its content hashes to, and compared with two indexes: the event ids, and
the replay fingerprints of the last thirty days.

Whether the write to disk, before the memory changes, succeeds is a parameter of the
call.
-/

namespace Vincent.Mesh

open Vincent.Python Vincent.Check

/-! ## Events -/

/-- An event as `_sanitize_private_gate_event` leaves it. Its type is `gate_message`. -/
structure GateEvent where
  eventId : String
  nodeId : String
  timestamp : PyFloat
  sequence : Int
  signature : String
  publicKey : String
  publicKeyAlgo : String
  protocolVersion : String
  payload : Dict

namespace Gate

/-- `event.get("payload") if isinstance(event.get("payload"), dict) else {}`. -/
def payloadOf (event : Dict) : Dict :=
  match Dict.get event "payload" with
  | .dict p => p
  | _ => []

/-- `float(event.get("timestamp", 0) or 0)`. -/
def timestampOf (rt : Runtime) (event : Dict) : Except String PyFloat :=
  pyFloat rt ((Dict.get event "timestamp" (.int 0)).or (.int 0))

/-- `str(gate_id or "").strip().lower()`. -/
def gateKey (rt : Runtime) (gateId : String) : String := rt.lower (strip gateId)

/-- `build_gate_replay_fingerprint`. -/
def replayFingerprint (env : Env) (gateId : String) (timestamp : PyFloat) (payload : Dict) : String :=
  env.sha256 (canonicalJson env.rt [
    ("gate", .str (gateKey env.rt gateId)),
    ("event_type", .str "gate_message"),
    ("timestamp", .float timestamp),
    ("ciphertext", .str (Dict.text env.rt payload "ciphertext")),
    ("nonce", .str (Dict.text env.rt payload "nonce")),
    ("format", .str (Dict.text env.rt payload "format"))])

/-- `_synth_event_id`, for an event that came without an id. -/
def synthEventId (env : Env) (gateId : String) (e : GateEvent) : String :=
  env.sha256 (canonicalJson env.rt [
    ("gate", .str (gateKey env.rt gateId)),
    ("event_type", .str "gate_message"),
    ("timestamp", .float e.timestamp),
    ("ciphertext", .str (Dict.text env.rt e.payload "ciphertext")),
    ("format", .str (Dict.text env.rt e.payload "format"))])

/-- A key that holds a non-empty string. -/
def localText (payload : Dict) (k : String) : Dict :=
  match Dict.get payload k with
  | .str s => if s = "" then [] else [(k, .str s)]
  | _ => []

/-- `_sanitize_private_gate_event`. -/
def sanitize (rt : Runtime) (gateId : String) (event : Dict) : Except String GateEvent := do
  let payload := payloadOf event
  let timestamp ← timestampOf rt event
  let sequence ← pyInt rt ((Dict.get event "sequence" (.int 0)).or (.int 0))
  let epoch ← safeInt rt ((Dict.get payload "epoch" (.int 0)).or (.int 0)) 0
  let format := (Dict.get payload "format" (.str "mls1")).or (.str "mls1")
  return {
    eventId := Dict.text rt event "event_id"
    nodeId := Dict.text rt event "node_id"
    timestamp
    sequence
    signature := Dict.text rt event "signature"
    publicKey := Dict.text rt event "public_key"
    publicKeyAlgo := Dict.text rt event "public_key_algo"
    protocolVersion := Dict.text rt event "protocol_version"
    payload := [
      ("gate", .str (gateKey rt gateId)),
      ("ciphertext", .str (Dict.text rt payload "ciphertext")),
      ("nonce", .str (Dict.text rt payload "nonce")),
      ("sender_ref", .str (Dict.text rt payload "sender_ref")),
      ("format", .str (format.toStr rt))]
      ++ (if 0 < epoch then [("epoch", .int epoch)] else [])
      ++ Protocol.optText "envelope_hash" (strip (Dict.text rt payload "envelope_hash"))
      ++ Protocol.optText "gate_envelope" (strip (Dict.text rt payload "gate_envelope"))
      ++ Protocol.optText "transport_lock"
          (rt.lower (strip (Dict.text rt payload "transport_lock")))
      ++ Protocol.optText "reply_to" (strip (Dict.text rt payload "reply_to"))
      -- stamped after decryption, and never sent to a peer
      ++ localText payload "_local_plaintext"
      ++ localText payload "_local_reply_to" }

/-- `_private_gate_event_id`. -/
def eventId (env : Env) (gateId nodeId : String) (sequence : Int) (payload : Dict)
    (timestamp : PyFloat) (includeReplyTo : Bool) : Except String String := do
  let signed ← privateGateSignaturePayload env.rt gateId payload includeReplyTo
  return env.sha256 (gateId ++ ":" ++ nodeId ++ ":" ++ canonicalJson env.rt signed ++ ":" ++
    env.rt.strFloat timestamp ++ ":" ++ toString sequence)

/-! ## Verification -/

/-- Older clients signed without the reply reference, without the epoch, or without both. -/
structure Unsigned where
  replyTo : Bool
  epoch : Bool

/-- The payloads that the signature may cover, with what each leaves out. -/
def signedVariants (rt : Runtime) (gateId : String) (payload : Dict) :
    Except String (List (Dict × Unsigned)) := do
  let full ← privateGateSignaturePayload rt gateId payload
  let noReply ← privateGateSignaturePayload rt gateId payload false
  let hasReply := strip (Dict.text rt payload "reply_to") ≠ ""
  return [(full, ⟨false, false⟩)]
    ++ (if hasReply then [(noReply, ⟨true, false⟩)] else [])
    ++ (if Dict.contains full "epoch" then
          [(Dict.pop full "epoch", ⟨false, true⟩)]
          ++ (if hasReply then [(Dict.pop noReply "epoch", ⟨true, true⟩)] else [])
        else [])

/-- The loop over the variants: the first that the signature covers. -/
def firstVerified (env : Env) (nodeId publicKey algo signature : String) (sequence : Int) :
    List (Dict × Unsigned) → Except String (Option Unsigned)
  | [] => .ok none
  | (candidate, unsigned) :: rest => do
    let text ← buildSignaturePayload env.rt "gate_message" nodeId sequence candidate
    if env.verifySignature publicKey algo signature text then return some unsigned
    else firstVerified env nodeId publicKey algo signature sequence rest

/-- `s.encode("ascii")` does not raise. -/
def isAscii (s : String) : Bool := s.toList.all fun c => c.val < 128

/-- The author that verification reads. -/
def authorOf (rt : Runtime) (event : Dict) : String :=
  strip ((((Dict.get event "node_id" (.str "")).or
    (Dict.get event "sender_id" (.str ""))).or (.str "")).toStr rt)

/-- The sequence that verification reads. -/
def sequenceOf (rt : Runtime) (event : Dict) : Except String Int :=
  safeInt rt ((Dict.get event "sequence" (.int 0)).or (.int 0)) 0

/-- `_verify_private_gate_transport_event`, where `canEnter` is the author's access, with a
reason. -/
def verifyTransportEvent (env : Env) (canEnter : String → String → String → String → Option String)
    (gateId : String) (event : Dict) : Except Fault GateEvent := do
  let rt := env.rt
  let payload := payloadOf event
  let nodeId := authorOf rt event
  let publicKey := strip (Dict.text rt event "public_key")
  let publicKeyAlgo := strip (Dict.text rt event "public_key_algo")
  let signature := strip (Dict.text rt event "signature")
  let sequence ← orFail (sequenceOf rt event) .raised
  require (nodeId ≠ "" ∧ publicKey ≠ "" ∧ publicKeyAlgo ≠ "" ∧ signature ≠ "")
    (.invalid "missing private gate auth fields")
  require (0 < sequence) (.invalid "invalid private gate sequence")
  require (strip (Dict.text rt event "protocol_version") = protocolVersion)
    (.invalid "Unsupported protocol_version")
  let signed ← orFail (privateGateSignaturePayload rt gateId payload) .raised
  validateEventPayload rt env.extensionValidators "gate_message" signed
  require (env.verifyNodeBinding nodeId publicKey) (.invalid "node_id mismatch")
  let algo := parsePublicKeyAlgo rt publicKeyAlgo
  require (algo ≠ "") (.invalid "Unsupported public_key_algo")
  let variants ← orFail (signedVariants rt gateId payload) .raised
  let verified ← orFail (firstVerified env nodeId publicKey algo signature sequence variants) .raised
  match verified with
  | none => throw (.invalid "Invalid signature")
  | some unsigned =>
    let envelopeHash := strip (Dict.text rt payload "envelope_hash")
    let gateEnvelope := strip (Dict.text rt payload "gate_envelope")
    require (envelopeHash = "" ∨ gateEnvelope ≠ "")
      (.invalid "gate_envelope required when envelope_hash is present")
    require (envelopeHash = "" ∨ isAscii gateEnvelope) (.raised "UnicodeEncodeError")
    require (envelopeHash = "" ∨ env.sha256 gateEnvelope = envelopeHash)
      (.invalid "gate_envelope does not match envelope_hash")
    match canEnter gateId nodeId publicKey publicKeyAlgo with
    | some reason => throw (.invalid ("private gate access denied: " ++ reason))
    | none =>
      let payloadForId := if unsigned.epoch then Dict.pop payload "epoch" else payload
      let timestamp ← orFail (timestampOf rt event) .raised
      let expected ← orFail
        (eventId env gateId nodeId sequence payloadForId timestamp (!unsigned.replyTo)) .raised
      let provided := strip (Dict.text rt event "event_id")
      require (provided = "" ∨ provided = expected) (.invalid "private gate event_id mismatch")
      let sanitized ← orFail (sanitize rt gateId event) .raised
      let stored := if unsigned.replyTo then Dict.pop sanitized.payload "reply_to"
        else sanitized.payload
      return { sanitized with
        payload := if unsigned.epoch then Dict.pop stored "epoch" else stored
        eventId := if provided = "" then expected else provided }

end Gate

/-! ## The store -/

/-- The memory of `GateMessageStore`. -/
structure GateStore where
  gates : String → List GateEvent := fun _ => []
  eventIndex : List (String × GateEvent) := []
  /-- Each fingerprint with its event, whose timestamp decides when the entry is pruned. -/
  replayIndex : List (String × GateEvent) := []
  replayPruneCounter : Nat := 0

/-- What a call on the store reads from its surroundings. -/
structure GateCall where
  now : ℚ
  /-- `_authorize_private_gate_transport_author`: gate, node, key and algorithm. -/
  canEnter : String → String → String → String → Option String
  /-- `int(s, 16)` does not raise. -/
  isHex : String → Bool
  /-- The write to disk succeeds. -/
  persisted : Bool

namespace GateStore

/-- The order of a gate: timestamp, sequence, event id. -/
def precedes (a b : GateEvent) : Bool :=
  a.timestamp.lt b.timestamp || (!b.timestamp.lt a.timestamp &&
    (a.sequence < b.sequence || (a.sequence = b.sequence && a.eventId ≤ b.eventId)))

def sortGate (events : List GateEvent) : List GateEvent :=
  events.insertionSort fun a b => precedes a b

def replayWindowS : ℚ := 86400 * 30

def replayPruneInterval : Nat := 256

def pruneReplayIndex (store : GateStore) (now : ℚ) : GateStore :=
  { store with replayIndex :=
      store.replayIndex.filter fun kv => !kv.2.timestamp.lt (.finite (now - replayWindowS)) }

def maybePruneReplayIndex (store : GateStore) (now : ℚ) : GateStore :=
  let store := { store with replayPruneCounter := store.replayPruneCounter + 1 }
  if store.replayPruneCounter % replayPruneInterval = 0 then store.pruneReplayIndex now else store

/-- `fingerprint in self._replay_index`. -/
def knowsFingerprint (store : GateStore) (fingerprint : String) : Bool :=
  (store.replayIndex.lookup fingerprint).isSome

/-- `event_id in self._event_index`. -/
def knowsId (store : GateStore) (eventId : String) : Bool := (store.eventIndex.lookup eventId).isSome

/-- The memory after new events were written to disk. -/
def commit (store : GateStore) (call : GateCall) (gateId : String)
    (new : List (GateEvent × String)) : GateStore :=
  maybePruneReplayIndex { store with
    gates := Function.update store.gates gateId (sortGate (store.gates gateId ++ new.map Prod.fst))
    eventIndex := new.map (fun c => (c.1.eventId, c.1)) ++ store.eventIndex
    replayIndex := new.map (fun c => (c.2, c.1)) ++ store.replayIndex } call.now

/-- The event that `append` stores: sanitized, with an id of its own if it came without one. -/
def cleanEvent (env : Env) (gateId : String) (event : Dict) : Except String GateEvent := do
  let clean ← Gate.sanitize env.rt gateId event
  return if strip clean.eventId = "" then { clean with eventId := Gate.synthEventId env gateId clean }
    else clean

/-- `append`, with the event it returns. An empty gate id returns the argument. -/
def append (env : Env) (call : GateCall) (store : GateStore) (gateId : String) (event : Dict) :
    GateStore × Except String (Option GateEvent) :=
  let gateId := Gate.gateKey env.rt gateId
  if gateId = "" then (store, .ok none)
  else match cleanEvent env gateId event with
  | .error exn => (store, .error exn)
  | .ok clean =>
    let fingerprint := Gate.replayFingerprint env gateId clean.timestamp clean.payload
    match store.replayIndex.lookup fingerprint, store.eventIndex.lookup clean.eventId with
    | some existing, _ => (store, .ok (some existing))
    | none, some existing => (store, .ok (some existing))
    | none, none =>
      if call.persisted then (store.commit call gateId [(clean, fingerprint)], .ok (some clean))
      else (store, .error "OSError")

/-! ## Ingest -/

/-- What `ingest_peer_events` returns. -/
structure IngestCounts where
  accepted : Nat := 0
  duplicates : Nat := 0
  rejected : Nat := 0

/-- The loop variables of `ingest_peer_events`. -/
structure Batch where
  candidates : List (GateEvent × String) := []
  counts : IngestCounts := {}

def Batch.reject (batch : Batch) : Batch :=
  { batch with counts := { batch.counts with rejected := batch.counts.rejected + 1 } }

def Batch.duplicate (batch : Batch) : Batch :=
  { batch with counts := { batch.counts with duplicates := batch.counts.duplicates + 1 } }

def Batch.knowsFingerprint (batch : Batch) (fingerprint : String) : Bool :=
  batch.candidates.any fun c => c.2 = fingerprint

def Batch.knowsId (batch : Batch) (eventId : String) : Bool :=
  batch.candidates.any fun c => c.1.eventId = eventId

/-- A number, as the comparison with the clock sees it. -/
def asNumber : PyVal → Option PyFloat
  | .bool b => some (.finite (if b then 1 else 0))
  | .int n => some (.finite n)
  | .float x => some x
  | _ => none

/-- The checks on the shape of an event: a sealed gate message from the last thirty days. -/
def wellFormed (call : GateCall) (event : Dict) : Bool :=
  (match Dict.get event "payload" with
    | .dict p => (Dict.get p "ciphertext").truthy
    | _ => false) &&
  (Dict.get event "event_type").eq (.str "gate_message") &&
  match asNumber (Dict.get event "timestamp" (.int 0)) with
  | none => false
  | some ts =>
    !(PyFloat.finite (call.now + 300)).lt ts && !ts.lt (.finite (call.now - 86400 * 30))

/-- One round of the loop of `ingest_peer_events`. -/
def screen (env : Env) (call : GateCall) (store : GateStore) (gateId : String) (batch : Batch)
    (event : PyVal) : Except String Batch :=
  match event with
  | .dict event =>
    if !wellFormed call event then .ok batch.reject
    else do
      let timestamp ← Gate.timestampOf env.rt event
      let fingerprint := Gate.replayFingerprint env gateId timestamp (Gate.payloadOf event)
      if store.knowsFingerprint fingerprint || batch.knowsFingerprint fingerprint then
        return batch.duplicate
      let provided := Dict.text env.rt event "event_id"
      if provided ≠ "" ∧ ¬ (provided.length = 64 ∧ call.isHex provided) then return batch.reject
      if provided ≠ "" ∧ (store.knowsId provided || batch.knowsId provided) then
        return batch.duplicate
      match Gate.verifyTransportEvent env call.canEnter gateId event with
      | .error (.raised exn) => .error exn
      | .error (.invalid _) => return batch.reject
      | .ok clean =>
        if store.knowsId clean.eventId || batch.knowsId clean.eventId then return batch.duplicate
        return { batch with candidates := batch.candidates ++ [(clean, fingerprint)] }
  | _ => .ok batch.reject

def ingestPeerEvents (env : Env) (call : GateCall) (store : GateStore) (gateId : String)
    (events : List PyVal) : GateStore × Except String IngestCounts :=
  let gateId := Gate.gateKey env.rt gateId
  if gateId = "" then (store, .ok {})
  else match events.foldlM (screen env call store gateId) {} with
  | .error exn => (store, .error exn)
  | .ok batch =>
    let counts := { batch.counts with accepted := batch.candidates.length }
    if batch.candidates = [] then (store, .ok counts)
    else if call.persisted then (store.commit call gateId batch.candidates, .ok counts)
    else (store, .error "OSError")

end GateStore

end Vincent.Mesh
