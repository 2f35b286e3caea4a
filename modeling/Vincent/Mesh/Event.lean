-- SUMMARY: Chain events, their ids, and the text that a signature covers.
import Vincent.Mesh.Schema

/-!
# Chain events

A chain event names its predecessor by hash, and its own id is the hash of its
content. This file has the event record, the computation of its id, and the
signature payload of `mesh_crypto.py`.

The cryptographic primitives are fields of `Env`: the code takes them from
`hashlib` and `cryptography`.
-/

namespace Vincent.Mesh

open Vincent.Python Vincent.Check

/-- What a node computes with. It does not change while the node runs. -/
structure Env where
  rt : Runtime
  /-- `hashlib.sha256(s.encode("utf-8")).hexdigest()`. -/
  sha256 : String → String
  sha256_ne_empty : ∀ s, sha256 s ≠ ""
  /-- `verify_signature(public_key, algo, signature, payload)`. -/
  verifySignature : String → String → String → String → Bool
  /-- `verify_node_binding(node_id, public_key)`. -/
  verifyNodeBinding : String → String → Bool
  /-- The bit positions of a value in a replay filter with the given salt. -/
  filterPositions : Nat → String → List Nat
  /-- Whether the economy layer has been imported, which runs `perform_cutover`. -/
  cutoverDone : Bool
  /-- The payload validators of the economy layer. -/
  validateInfonetEventPayload : String → Dict → Verdict
  dmHashchainSpoolLimit : Nat
  dmHashchainSpoolSenderLimit : Nat
  dmHashchainSpoolTtlS : Nat
  spoolLimit_pos : 1 ≤ dmHashchainSpoolLimit
  spoolSenderLimit_pos : 1 ≤ dmHashchainSpoolSenderLimit
  spoolTtl_ge : 60 ≤ dmHashchainSpoolTtlS
  /-- `ingest_event_max_age_s()`. Zero disables the freshness check. -/
  ingestEventMaxAgeS : Nat

/-- What one call reads from its surroundings: the clock, and the salt that
    `os.urandom` gives to a replay filter made in the call. -/
structure Call where
  now : ℚ
  now_pos : 0 < now
  salt : Nat

/-- A hash to run examples on: a polynomial of the bytes of the text. -/
def polynomialHash (base modulus seed : Nat) (s : String) : Nat :=
  s.toByteArray.data.toList.foldl (fun n b => (base * n + b.toNat) % modulus) seed

/-- A node to run examples on: every signature verifies, and the limits are the
    defaults of the code. -/
def plainEnv (cutoverDone : Bool := false) : Env where
  rt := asciiRuntime
  sha256 s := "h" ++ toString (polynomialHash 257 (2 ^ 61) 0 s)
  sha256_ne_empty s := by simp [String.ext_iff]
  verifySignature _ _ _ _ := true
  verifyNodeBinding _ _ := true
  filterPositions salt s := [polynomialHash 31 1000000 salt s]
  cutoverDone := cutoverDone
  validateInfonetEventPayload _ _ := .ok ()
  dmHashchainSpoolLimit := 2
  dmHashchainSpoolSenderLimit := 1
  dmHashchainSpoolTtlS := 3600
  spoolLimit_pos := Nat.zero_lt_two
  spoolSenderLimit_pos := Nat.one_pos
  spoolTtl_ge := by decide
  ingestEventMaxAgeS := 86400

theorem pos_s0 : 0 < 1700000000 := by decide
theorem pos_s1 : 0 < 1700000001 := by decide
theorem pos_s10 : 0 < 1700000010 := by decide
theorem pos_d0 : 0 < 1700100000 := by decide
theorem pos_d10 : 0 < 1700100010 := by decide

/-- A call at a whole second. -/
def callAt (now : Nat) (salt : Nat := 0) (h : 0 < now := by
    first | exact Nat.one_pos | exact pos_s0 | exact pos_s1 | exact pos_s10 | exact pos_d0 | exact pos_d10 | decide) :
    Call where
  now := now
  now_pos := by exact_mod_cast h
  salt := salt

/-! ## Event types -/

def infonetEconomyEventTypes : List String :=
  ["uprep", "downrep", "prediction_create", "prediction_place", "truth_stake_place",
    "truth_stake_resolve", "market_snapshot", "evidence_submit", "resolution_stake",
    "bootstrap_resolution_vote", "resolution_finalize", "dispute_open", "dispute_stake",
    "dispute_resolve", "gate_enter", "gate_exit", "gate_lock", "gate_suspend_file",
    "gate_suspend_vote", "gate_suspend_execute", "gate_shutdown_file", "gate_shutdown_vote",
    "gate_shutdown_execute", "gate_unsuspend", "gate_shutdown_appeal_file",
    "gate_shutdown_appeal_vote", "gate_shutdown_appeal_resolve", "petition_file",
    "petition_sign", "petition_vote", "challenge_file", "challenge_vote", "petition_execute",
    "upgrade_propose", "upgrade_sign", "upgrade_vote", "upgrade_challenge",
    "upgrade_challenge_vote", "upgrade_signal_ready", "upgrade_activate", "node_register",
    "identity_rotate", "citizenship_claim", "coin_transfer", "coin_mint", "bounty_create",
    "bounty_claim", "post_create", "post_reply"]

/-- `ALLOWED_EVENT_TYPES`, which the peer paths consult. The cutover leaves it alone. -/
def allowedEventTypes : List String := publicLedgerEventTypes

/-- `ACTIVE_APPEND_EVENT_TYPES`, which the cutover extends. -/
def Env.activeAppendEventTypes (env : Env) : List String :=
  if env.cutoverDone then activePublicLedgerEventTypes ++ infonetEconomyEventTypes
  else activePublicLedgerEventTypes

/-- `_EXTENSION_VALIDATORS`, which the cutover fills. -/
def Env.extensionValidators (env : Env) : ExtensionValidators :=
  if env.cutoverDone then
    infonetEconomyEventTypes.map fun et => (et, env.validateInfonetEventPayload et)
  else []

/-! ## Events -/

/-- An event as the ledger stores it. The code compares and hashes the timestamp
    and the sequence as the JSON values they are. `extra` holds the keys outside
    the content of the event, such as local annotations. -/
structure ChainEvent where
  eventId : String
  prevHash : String
  eventType : String
  nodeId : String
  payload : Dict
  timestamp : PyVal
  sequence : PyVal
  signature : String
  networkId : String
  publicKey : String
  publicKeyAlgo : String
  protocolVersion : String
  extra : Dict := []

/-- `timestamp or time.time()`. -/
def timestampOrNow (t : PyVal) (call : Call) : PyVal := t.or (.float (.finite call.now))

theorem timestampOrNow_float (x : PyFloat) (call : Call) :
    ∃ y, timestampOrNow (.float x) call = .float y := by
  unfold timestampOrNow PyVal.or
  split
  · exact ⟨x, rfl⟩
  · exact ⟨.finite call.now, rfl⟩

namespace ChainEvent

/-- `_safe_int(evt.get("sequence", 0) or 0, 0)`. -/
def seq (rt : Runtime) (e : ChainEvent) : Except String Int :=
  safeInt rt (e.sequence.or (.int 0)) 0

def computeHash (env : Env) (e : ChainEvent) : String :=
  env.sha256 (e.prevHash ++ ":" ++ e.eventType ++ ":" ++ e.nodeId ++ ":" ++
    canonicalJson env.rt e.payload ++ ":" ++ e.timestamp.toStr env.rt ++ ":" ++
    e.sequence.toStr env.rt ++ ":" ++ e.networkId)

/-- The constructor: it fills the defaults in and computes the id. -/
def init (env : Env) (call : Call) (e : ChainEvent) : ChainEvent :=
  let e := { e with
    timestamp := timestampOrNow e.timestamp call
    networkId := if e.networkId = "" then Mesh.networkId else e.networkId
    protocolVersion :=
      if e.protocolVersion = "" then Mesh.protocolVersion else e.protocolVersion }
  { e with eventId := computeHash env e }

/-- `from_dict(e)` succeeds: the id recomputed from the content is the stored one. -/
def hashMatches (env : Env) (call : Call) (e : ChainEvent) : Bool :=
  (init env call e).eventId == e.eventId

theorem timestampOrNow_truthy (t : PyVal) (call : Call) : (timestampOrNow t call).truthy := by
  unfold timestampOrNow PyVal.or
  split
  · assumption
  · simpa [PyVal.truthy] using call.now_pos.ne'

theorem timestampOrNow_of_truthy {t : PyVal} (h : t.truthy) (call : Call) :
    timestampOrNow t call = t := by
  simp [timestampOrNow, PyVal.or, h]

/-- A stored event with a timestamp keeps the id it was built with, whenever it
    is checked. -/
theorem hashMatches_init (env : Env) (c c' : Call) (e : ChainEvent)
    (hnet : e.networkId = Mesh.networkId) :
    hashMatches env c' (init env c e) := by
  have hne : Mesh.networkId ≠ "" := by decide
  have hstamp := timestampOrNow_of_truthy (timestampOrNow_truthy e.timestamp c) c'
  simp [hashMatches, init, computeHash, hstamp, hnet, hne]

/-- The clock plays no part in the check of an event that carries a timestamp. -/
theorem hashMatches_congr {env : Env} {c c' : Call} {e : ChainEvent}
    (h : e.timestamp.truthy) : hashMatches env c e = hashMatches env c' e := by
  simp [hashMatches, init, computeHash, timestampOrNow_of_truthy h]

end ChainEvent

/-! ## Signatures -/

def parsePublicKeyAlgo (rt : Runtime) (value : String) : String :=
  let val := rt.upper (strip value)
  if val ∈ ["ED25519", "EDDSA"] then "Ed25519"
  else if val ∈ ["ECDSA", "ECDSA_P256", "P-256", "P256"] then "ECDSA_P256"
  else ""

/-- `build_signature_payload`. The gate envelope is never part of it. -/
def buildSignaturePayload (rt : Runtime) (eventType nodeId : String) (sequence : Int)
    (payload : Dict) : Except String String := do
  let normalized ← normalizePayload rt eventType payload
  let normalized :=
    if eventType = "gate_message" then Dict.pop normalized "gate_envelope" else normalized
  return String.intercalate "|" [protocolVersion, networkId, eventType, nodeId,
    toString sequence, canonicalJson rt normalized]

def privateGateSignaturePayload (rt : Runtime) (gateId : String) (payload : Dict)
    (includeReplyTo : Bool := true) : Except String Dict := do
  let epoch ← safeInt rt ((Dict.get payload "epoch" (.int 0)).or (.int 0)) 0
  let format := (Dict.get payload "format" (.str "mls1")).or (.str "mls1")
  let replyTo := strip (Dict.text rt payload "reply_to")
  normalizePayload rt "gate_message" ([
    ("gate", .str (rt.lower (strip gateId))),
    ("ciphertext", .str (Dict.text rt payload "ciphertext")),
    ("nonce", .str (Dict.text rt payload "nonce")),
    ("sender_ref", .str (Dict.text rt payload "sender_ref")),
    ("format", .str (format.toStr rt))]
    ++ (if 0 < epoch then [("epoch", .int epoch)] else [])
    ++ Protocol.optText "envelope_hash" (strip (Dict.text rt payload "envelope_hash"))
    ++ Protocol.optText "transport_lock"
        (rt.lower (strip (Dict.text rt payload "transport_lock")))
    ++ (if includeReplyTo then Protocol.optText "reply_to" replyTo else []))

/-- Drop the entries whose JSON text occurred before. -/
def dedupByJson (rt : Runtime) (seen : List String) : List Dict → List Dict
  | [] => []
  | v :: vs =>
    let material := canonicalJson rt v
    if material ∈ seen then dedupByJson rt seen vs else v :: dedupByJson rt (material :: seen) vs

/-- `_private_gate_signature_payload_variants`: older clients signed without the
    reply reference, without the epoch, or without both. -/
def privateGateSignaturePayloadVariants (rt : Runtime) (gateId : String) (payload : Dict) :
    Except String (List Dict) := do
  let full ← privateGateSignaturePayload rt gateId payload
  let noReply ← privateGateSignaturePayload rt gateId payload false
  let replyTo := strip (Dict.text rt payload "reply_to")
  let hasReply := replyTo ≠ ""
  return dedupByJson rt [] ([full]
    ++ (if hasReply then [noReply] else [])
    ++ (if Dict.contains full "epoch" then
          [Dict.pop full "epoch"] ++ (if hasReply then [Dict.pop noReply "epoch"] else [])
        else []))

/-- The payloads one of which the signature of an event must cover. -/
def signaturePayloads (rt : Runtime) (eventType : String) (payload : Dict) :
    Except String (List Dict) :=
  if eventType = "gate_message" then
    privateGateSignaturePayloadVariants rt (Dict.text rt payload "gate") payload
  else .ok [payload]

/-- The signature loop: some candidate payload verifies. The first exception ends it. -/
def anySignatureVerifies (env : Env) (e : ChainEvent) (sequence : Int) :
    List Dict → Except String Bool
  | [] => .ok false
  | candidate :: rest => do
    let text ← buildSignaturePayload env.rt e.eventType e.nodeId sequence candidate
    if env.verifySignature e.publicKey e.publicKeyAlgo e.signature text then return true
    else anySignatureVerifies env e sequence rest

end Vincent.Mesh
