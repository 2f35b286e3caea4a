-- SUMMARY: The guard of signed writes, and what a rejected request leaves.
import Vincent.General.OrderedMap
import Vincent.Mesh.GateStore
import Vincent.Signed.WriteVerify

/-!
# The guard of signed writes

A guarded endpoint prepares the request, applies the policies of the transport lock,
of the signed context and of freshness, and verifies the signature, before the handler
runs.

Preparing a sealed message takes its sender token out of the table.
-/

namespace Vincent.Signed

open Vincent.Python Vincent.Mesh

inductive SignedWriteKind where
  | dmRegister
  | dmSend
  | dmPoll
  | dmCount
  | dmBlock
  | dmWitness
  | trustVouch
  | meshSend
  | meshVote
  | meshReport
  | identityRotate
  | identityRevoke
  | gateCreate
  | gateMessage
  | oraclePredict
  | oracleStake
deriving DecidableEq

namespace SignedWriteKind

def value : SignedWriteKind → String
  | dmRegister => "dm_register"
  | dmSend => "dm_send"
  | dmPoll => "dm_poll"
  | dmCount => "dm_count"
  | dmBlock => "dm_block"
  | dmWitness => "dm_witness"
  | trustVouch => "trust_vouch"
  | meshSend => "mesh_send"
  | meshVote => "mesh_vote"
  | meshReport => "mesh_report"
  | identityRotate => "identity_rotate"
  | identityRevoke => "identity_revoke"
  | gateCreate => "gate_create"
  | gateMessage => "gate_message"
  | oraclePredict => "oracle_predict"
  | oracleStake => "oracle_stake"

/-- `CONTENT_PRIVATE_SIGNED_WRITE_KINDS`. -/
def contentPrivate (kind : SignedWriteKind) : Bool :=
  kind ∈ [dmRegister, dmSend, dmPoll, dmCount, dmBlock, dmWitness, gateMessage, trustVouch,
    identityRotate, identityRevoke]

/-- `_QUEUEABLE_CONTENT_PRIVATE_KINDS`. -/
def queueable (kind : SignedWriteKind) : Bool := kind ∈ [dmSend, gateMessage]

/-- The kinds whose lock is capped by what the DM lane of the node offers. -/
def onDmLane (kind : SignedWriteKind) : Bool :=
  kind ∈ [dmPoll, dmCount, dmSend, dmRegister, dmBlock, dmWitness]

/-- `_content_private_required_transport_tier`. -/
def requiredTransportTier (_ : SignedWriteKind) : String := "private_strong"

end SignedWriteKind

structure PreparedSignedWrite where
  kind : SignedWriteKind
  eventType : String
  body : Dict
  nodeId : String
  sequence : Int
  publicKey : String
  publicKeyAlgo : String
  signature : String
  protocolVersion : String
  payload : Dict
  verifiedReplyTo : String := ""
  senderTokenHash : String := ""

/-- A request to a guarded endpoint. There is no body where it is not JSON. -/
structure WriteRequest where
  kind : SignedWriteKind
  body : Option PyVal
  /-- `request.path_params["gate_id"]`. -/
  gateId : String := ""
  /-- `_request_scope_path(request)`. -/
  scopePath : String

/-- The answer of the guard, or what it hands on to the handler. -/
inductive Answer where
  /-- The status 422. -/
  | unprocessable (detail : String)
  | refused (detail : String)
  /-- A refusal that is retryable, and asks for a new signature. -/
  | resign (detail : String) (signedContext payload : Dict) (signaturePayload : String)
  | stale (maxAgeS : Nat)
  /-- The status 503 of `_revocation_retry_response`. -/
  | revocationRetry
  | passed (prepared : PreparedSignedWrite) (reason verifiedReplyTo : String)

/-- The request is not handed on to the handler. -/
def Answer.rejected : Answer → Bool
  | .passed .. => false
  | _ => true

def Answer.resignRequired : Answer → Bool
  | .resign .. => true
  | _ => false

/-- An exception, or a `_SignedWriteAbort`. -/
inductive Stop where
  | raised (exn : String)
  | abort (answer : Answer)

/-- An entry of `_sender_tokens`. -/
structure SenderToken where
  senderId : String
  publicKey : String
  publicKeyAlgo : String
  protocolVersion : String
  recipientId : String
  deliveryClass : String
  recipientTokenHash : String
  expiresAt : Int

/-- The sender tokens that have not run out, and the write gate. -/
structure GuardState where
  senderTokens : OrderedMap String SenderToken
  gate : WriteGate

structure GuardEnv extends WriteEnv where
  /-- `signed_write_content_private_transport_lock_required()`. -/
  transportLockRequired : Bool
  /-- `signed_write_context_required()`. -/
  contextRequired : Bool
  /-- `signed_write_max_age_s()`. -/
  maxAgeS : Nat
  /-- `get_transport_tier()`. -/
  transportTier : String
  /-- `rns_enabled` in the state of the supervisor. -/
  rnsEnabled : Bool
  /-- `derive_node_id(public_key)`, which raises where the key is not base64. -/
  deriveNodeId : String → Except String String
  /-- `_validate_gate_vote_context(voter_id, gate)`: the gate, or why it is refused. -/
  validateGateVoteContext : String → String → Except String String

section Model

variable (env : GuardEnv)

/-- An exception of a builtin. -/
def orRaise {α : Type} (x : Except String α) : Except Stop α := Check.orFail x .raised

def refuse {α : Type} (detail : String) : Except Stop α := .error (.abort (.refused detail))

def demandThat (c : Prop) [Decidable c] (detail : String) : Except Stop Unit :=
  Check.require c (.abort (.refused detail))

/-- `str(body.get(k, "") or "").strip()`. -/
def trimmed (body : Dict) (k : String) : String := strip (Dict.text env.rt body k)

/-- `str(body.get(k, dflt) or dflt)`. -/
def bodyText (body : Dict) (k dflt : String) : String :=
  ((Dict.get body k (.str dflt)).or (.str dflt)).toStr env.rt

/-- `_safe_int(body.get(k, 0) or 0)`. -/
def bodyInt (body : Dict) (k : String) : Except Stop Int :=
  orRaise (safeInt env.rt ((Dict.get body k (.int 0)).or (.int 0)) 0)

/-- `_safe_float(v)`. -/
def safeFloat (v : PyVal) : Except Stop PyFloat := do
  let parsed ← orRaise (catching ["TypeError", "ValueError"] (pyFloat env.rt v) (.finite 0))
  return match parsed with
    | .nan | .inf | .negInf => .finite 0
    | x => x

/-! ## Preparation -/

/-- The fields of most kinds, taken as they are or stripped. -/
def preparedOf (kind : SignedWriteKind) (eventType : String) (body : Dict) (nodeId : String)
    (text : String → String) (payload : Dict) : Except Stop PreparedSignedWrite := do
  let sequence ← bodyInt env body "sequence"
  return {
    kind, eventType, body, nodeId, sequence, payload
    publicKey := text "public_key"
    publicKeyAlgo := text "public_key_algo"
    signature := text "signature"
    protocolVersion := text "protocol_version" }

def prepareMeshSend (body : Dict) : Except Stop PreparedSignedWrite :=
  preparedOf env .meshSend "message" body
    (((Dict.get body "node_id" (Dict.get body "sender_id" (.str "anonymous"))).or
      (.str "anonymous")).toStr env.rt)
    (Dict.text env.rt body)
    ([("message", Dict.get body "message" (.str "")),
      ("destination", Dict.get body "destination" (.str "")),
      ("channel", Dict.get body "channel" (.str "LongFast")),
      ("priority", .str (env.rt.lower (bodyText env body "priority" "normal"))),
      ("ephemeral", .bool (Dict.get body "ephemeral" (.bool false)).truthy)] ++
      (if (Dict.get body "transport_lock").truthy = true then
        [("transport_lock", .str (Dict.text env.rt body "transport_lock"))] else []))

def prepareMeshVote (body : Dict) : Except Stop PreparedSignedWrite := do
  let voterId := Dict.text env.rt body "voter_id"
  let gate ← Check.orFail (env.validateGateVoteContext voterId (Dict.text env.rt body "gate"))
    fun detail => .abort (.refused detail)
  let body := Dict.set body "gate" (.str gate)
  let prepared ← preparedOf env .meshVote "vote" body voterId (Dict.text env.rt body)
    [("target_id", Dict.get body "target_id" (.str "")), ("vote", Dict.get body "vote" (.int 0)),
      ("gate", .str gate)]
  return { prepared with
    publicKey := Dict.text env.rt body "voter_pubkey"
    signature := Dict.text env.rt body "voter_sig" }

def prepareMeshReport (body : Dict) : Except Stop PreparedSignedWrite :=
  preparedOf env .meshReport "abuse_report" body (Dict.text env.rt body "reporter_id")
    (Dict.text env.rt body)
    [("target_id", Dict.get body "target_id" (.str "")),
      ("reason", Dict.get body "reason" (.str "")), ("gate", Dict.get body "gate" (.str "")),
      ("evidence", Dict.get body "evidence" (.str ""))]

def prepareIdentityRotate (body : Dict) : Except Stop PreparedSignedWrite := do
  let timestamp ← bodyInt env body "timestamp"
  let field (k : String) : String × PyVal := (k, .str (trimmed env body k))
  let prepared ← preparedOf env .identityRotate "key_rotate" body (trimmed env body "new_node_id")
    (trimmed env body)
    [field "old_node_id", field "old_public_key", field "old_public_key_algo",
      field "new_public_key", field "new_public_key_algo", ("timestamp", .int timestamp),
      field "old_signature"]
  return { prepared with
    publicKey := trimmed env body "new_public_key"
    publicKeyAlgo := trimmed env body "new_public_key_algo"
    signature := trimmed env body "new_signature" }

def prepareIdentityRevoke (body : Dict) : Except Stop PreparedSignedWrite := do
  let revokedAt ← bodyInt env body "revoked_at"
  let graceUntil ← bodyInt env body "grace_until"
  preparedOf env .identityRevoke "key_revoke" body (trimmed env body "node_id") (trimmed env body)
    [("revoked_public_key", .str (trimmed env body "public_key")),
      ("revoked_public_key_algo", .str (trimmed env body "public_key_algo")),
      ("revoked_at", .int revokedAt), ("grace_until", .int graceUntil),
      ("reason", .str (trimmed env body "reason"))]

def prepareGateCreate (body : Dict) : Except Stop PreparedSignedWrite := do
  let prepared ← preparedOf env .gateCreate "gate_create" body
    (Dict.text env.rt body "creator_id") (Dict.text env.rt body)
    [("gate_id", Dict.get body "gate_id" (.str "")),
      ("display_name", Dict.get body "display_name" (Dict.get body "gate_id" (.str ""))),
      ("rules", Dict.get body "rules" (.dict []))]
  return { prepared with
    publicKey := Dict.text env.rt body "creator_pubkey"
    signature := Dict.text env.rt body "creator_sig" }

def isCanonicalSha256Hex (value : String) : Bool :=
  let candidate := strip value
  candidate.length = 64 && candidate = env.rt.lower candidate &&
    candidate.toList.all fun ch => ch ∈ "0123456789abcdef".toList

def prepareGateMessage (gateId : String) (body : Dict) : Except Stop PreparedSignedWrite := do
  let gateEnvelope := trimmed env body "gate_envelope"
  let envelopeHash := trimmed env body "envelope_hash"
  demandThat (gateEnvelope ≠ "" → envelopeHash ≠ "") "gate_envelope requires signed envelope_hash"
  demandThat (envelopeHash ≠ "" → gateEnvelope ≠ "")
    "gate_envelope required when envelope_hash is present"
  demandThat (envelopeHash ≠ "" → isCanonicalSha256Hex env envelopeHash = true)
    "invalid envelope_hash"
  demandThat (envelopeHash ≠ "" → Gate.isAscii gateEnvelope = true) "invalid gate_envelope"
  demandThat (envelopeHash ≠ "" → env.sha256 gateEnvelope = envelopeHash)
    "gate_envelope does not match envelope_hash"
  let epoch ← bodyInt env body "epoch"
  let nonce := ((Dict.get body "nonce" (Dict.get body "iv" (.str ""))).or (.str "")).toStr env.rt
  let prepared ← preparedOf env .gateMessage "gate_message" body
    (Dict.text env.rt body "sender_id") (Dict.text env.rt body)
    ([("gate", .str gateId), ("ciphertext", .str (Dict.text env.rt body "ciphertext")),
      ("nonce", .str nonce), ("sender_ref", .str (Dict.text env.rt body "sender_ref")),
      ("format", .str (bodyText env body "format" "mls1"))] ++
      (if 0 < epoch then [("epoch", .int epoch)] else []) ++
      Protocol.optText "envelope_hash" envelopeHash)
  return { prepared with verifiedReplyTo := trimmed env body "reply_to" }

def prepareDmRegister (body : Dict) : Except Stop PreparedSignedWrite := do
  let timestamp ← bodyInt env body "timestamp"
  preparedOf env .dmRegister "dm_key" body (trimmed env body "agent_id") (trimmed env body)
    [("dh_pub_key", .str (trimmed env body "dh_pub_key")),
      ("dh_algo", .str (trimmed env body "dh_algo")), ("timestamp", .int timestamp)]

def normalizedMailboxClaims (mailboxClaims : PyVal) : Except Stop (List PyVal) :=
  match mailboxClaims.or (.list []) with
  | .list claims => .ok <| (claims.take 32).filterMap fun claim =>
      match claim with
      | .dict claim => some <| .dict
          [("type", .str (env.rt.lower (Dict.text env.rt claim "type"))),
            ("token", .str (Dict.text env.rt claim "token"))]
      | _ => none
  -- What a text or a dict is read as holds no dicts.
  | .str _ | .dict _ => .ok []
  | _ => .error (.raised "TypeError")

def prepareDmMailbox (kind : SignedWriteKind) (eventType : String) (body : Dict) :
    Except Stop PreparedSignedWrite := do
  let claims ← normalizedMailboxClaims env (Dict.get body "mailbox_claims" (.list []))
  let body := Dict.set body "mailbox_claims" (.list claims)
  let timestamp ← bodyInt env body "timestamp"
  preparedOf env kind eventType body (trimmed env body "agent_id") (trimmed env body)
    [("mailbox_claims", .list claims), ("timestamp", .int timestamp),
      ("nonce", .str (trimmed env body "nonce"))]

def prepareDmBlock (body : Dict) : Except Stop PreparedSignedWrite :=
  preparedOf env .dmBlock "dm_block" body (trimmed env body "agent_id") (trimmed env body)
    [("blocked_id", .str (trimmed env body "blocked_id")),
      ("action", .str (env.rt.lower (strip (bodyText env body "action" "block"))))]

def prepareDmWitness (body : Dict) : Except Stop PreparedSignedWrite := do
  let timestamp ← bodyInt env body "timestamp"
  preparedOf env .dmWitness "dm_key_witness" body (trimmed env body "witness_id")
    (trimmed env body)
    [("target_id", .str (trimmed env body "target_id")),
      ("dh_pub_key", .str (trimmed env body "dh_pub_key")), ("timestamp", .int timestamp)]

def prepareTrustVouch (body : Dict) : Except Stop PreparedSignedWrite := do
  let timestamp ← bodyInt env body "timestamp"
  preparedOf env .trustVouch "trust_vouch" body (trimmed env body "voucher_id")
    (trimmed env body)
    [("target_id", .str (trimmed env body "target_id")), ("note", .str (trimmed env body "note")),
      ("timestamp", .int timestamp)]

def prepareOraclePredict (body : Dict) : Except Stop PreparedSignedWrite := do
  let amount ← safeFloat env (Dict.get body "stake_amount" (.int 0))
  preparedOf env .oraclePredict "prediction" body (Dict.text env.rt body "node_id")
    (Dict.text env.rt body)
    [("market_title", Dict.get body "market_title" (.str "")),
      ("side", Dict.get body "side" (.str "")), ("stake_amount", .float amount)]

def prepareOracleStake (body : Dict) : Except Stop PreparedSignedWrite := do
  let amount ← safeFloat env (Dict.get body "amount" (.int 0))
  let days ← orRaise (safeInt env.rt (Dict.get body "duration_days" (.int 1)) 1)
  preparedOf env .oracleStake "stake" body (Dict.text env.rt body "staker_id")
    (Dict.text env.rt body)
    [("message_id", Dict.get body "message_id" (.str "")),
      ("poster_id", Dict.get body "poster_id" (.str "")),
      ("side", .str (env.rt.lower (Dict.text env.rt body "side"))), ("amount", .float amount),
      ("duration_days", .int days)]

/-- What `consume_wormhole_dm_sender_token` checks of the entry that it took. -/
def checkSenderToken (now : ℚ) (recipientId deliveryClass recipientToken : String) :
    Option SenderToken → Except Stop SenderToken
  | none => refuse "sender_token invalid or expired"
  | some entry => do
    demandThat (strip recipientId ≠ "" → entry.recipientId = strip recipientId)
      "sender_token recipient mismatch"
    demandThat (entry.deliveryClass = env.rt.lower (strip deliveryClass))
      "sender_token delivery_class mismatch"
    demandThat (entry.recipientTokenHash = env.sha256 recipientToken)
      "sender_token mailbox binding mismatch"
    demandThat (entry.expiresAt = 0 ∨ ⌊now⌋ ≤ entry.expiresAt) "sender_token expired"
    .ok entry

/-- `str(token_result.get(k, "") or dflt)`. -/
def orText (value dflt : String) : String := if value = "" then dflt else value

/-- The rest of a sealed or open message, with the entry of its sender token if it has one. -/
def prepareDmSend (body : Dict) (entry : Option SenderToken) :
    Except Stop PreparedSignedWrite := do
  let senderToken := trimmed env body "sender_token"
  let supplied (value : SenderToken → String) (k : String) : String :=
    orText ((entry.map value).getD "") (trimmed env body k)
  let bodyRecipient := trimmed env body "recipient_id"
  let recipientId := orText bodyRecipient ((entry.map SenderToken.recipientId).getD "")
  let senderId := supplied SenderToken.senderId "sender_id"
  let publicKey := supplied SenderToken.publicKey "public_key"
  let publicKeyAlgo := supplied SenderToken.publicKeyAlgo "public_key_algo"
  let version := supplied SenderToken.protocolVersion "protocol_version"
  let deliveryClass := env.rt.lower (trimmed env body "delivery_class")
  let recipientToken := trimmed env body "recipient_token"
  let senderTokenHash :=
    if entry.isSome then env.sha256 senderToken else trimmed env body "sender_token_hash"
  let senderSeal := trimmed env body "sender_seal"
  let derivedSenderId ←
    if publicKey ≠ "" ∧ env.verifyNodeBinding senderId publicKey = false then
      orRaise (env.deriveNodeId publicKey)
    else .ok senderId
  demandThat (senderSeal ≠ "" → derivedSenderId ≠ "") "sender_seal requires a valid public key"
  demandThat (senderSeal ≠ "" → senderId ≠ "" → senderId = derivedSenderId)
    "sender_id does not match sender_seal public key"
  let senderId := if senderSeal = "" then senderId else derivedSenderId
  let body := [("sender_id", senderId), ("recipient_id", recipientId),
      ("delivery_class", deliveryClass), ("recipient_token", recipientToken),
      ("public_key", publicKey), ("public_key_algo", publicKeyAlgo),
      ("protocol_version", version), ("sender_token_hash", senderTokenHash)].foldl
    (fun body field => Dict.set body field.1 (.str field.2)) body
  let timestamp ← bodyInt env body "timestamp"
  let format := env.rt.lower (strip (bodyText env body "format" "mls1"))
  let prepared ← preparedOf env .dmSend "dm_message" body senderId (trimmed env body)
    ([("recipient_id", .str recipientId), ("delivery_class", .str deliveryClass),
      ("recipient_token", .str recipientToken), ("ciphertext", .str (trimmed env body "ciphertext")),
      ("format", .str (orText format "mls1")), ("msg_id", .str (trimmed env body "msg_id")),
      ("timestamp", .int timestamp)] ++
      Protocol.optText "session_welcome" (trimmed env body "session_welcome") ++
      Protocol.optText "sender_seal" senderSeal ++
      Protocol.optText "relay_salt" (env.rt.lower (trimmed env body "relay_salt")))
  return { prepared with publicKey, publicKeyAlgo, protocolVersion := version, senderTokenHash }

/-- The body of a request, which must be a JSON object. -/
def requestBody (r : WriteRequest) : Except Stop Dict :=
  match r.body with
  | none => .error (.abort (.unprocessable "invalid JSON body"))
  | some (.dict body) => .ok body
  | some _ => .error (.abort (.unprocessable "Request body must be a JSON object"))

/-- The preparation of the kinds that take no token. -/
def prepareOther (r : WriteRequest) (body : Dict) : Except Stop PreparedSignedWrite :=
  match r.kind with
  | .meshSend => prepareMeshSend env body
  | .meshVote => prepareMeshVote env body
  | .meshReport => prepareMeshReport env body
  | .identityRotate => prepareIdentityRotate env body
  | .identityRevoke => prepareIdentityRevoke env body
  | .gateCreate => prepareGateCreate env body
  | .gateMessage => do
    demandThat (trimmed env body "message" = "")
      "Plaintext gate messages are no longer accepted. Submit an encrypted gate envelope."
    prepareGateMessage env r.gateId body
  | .dmRegister => prepareDmRegister env body
  | .dmSend => prepareDmSend env body none
  | .dmPoll => prepareDmMailbox env .dmPoll "dm_poll" body
  | .dmCount => prepareDmMailbox env .dmCount "dm_count" body
  | .dmBlock => prepareDmBlock env body
  | .dmWitness => prepareDmWitness env body
  | .trustVouch => prepareTrustVouch env body
  | .oraclePredict => prepareOraclePredict env body
  | .oracleStake => prepareOracleStake env body

/-- `_prepare_signed_write`, with the sender tokens that it leaves. -/
def prepareSignedWrite (now : ℚ) (r : WriteRequest) (tokens : OrderedMap String SenderToken) :
    OrderedMap String SenderToken × Except Stop PreparedSignedWrite :=
  match requestBody r with
  | .error stop => (tokens, .error stop)
  | .ok body =>
    let senderToken := trimmed env body "sender_token"
    if r.kind = .dmSend ∧ senderToken ≠ "" then
      -- `_sender_tokens.pop(token, None)` comes before every check.
      (tokens.filter fun kv => kv.1 ≠ senderToken, do
        let entry ← checkSenderToken env now (trimmed env body "recipient_id")
          (trimmed env body "delivery_class") (trimmed env body "recipient_token")
          (tokens.lookup senderToken)
        prepareDmSend env body (some entry))
    else (tokens, prepareOther env r body)

/-! ## Policies -/

def transportTierOrder : String → Option Nat
  | "public_degraded" => some 0
  | "private_control_only" => some 1
  | "private_transitional" => some 2
  | "private_strong" => some 3
  | _ => none

def normalizeTransportTier (value : String) : String :=
  let candidate := env.rt.lower (strip value)
  if (transportTierOrder candidate).isSome then candidate else "public_degraded"

def transportTierIsSufficient (current required : String) : Bool :=
  (transportTierOrder (normalizeTransportTier env required)).getD 0 ≤
    (transportTierOrder (normalizeTransportTier env current)).getD 0

/-- `release_lane_required_tier("dm")`. -/
def dmReleaseTier : String := if env.rnsEnabled then "private_strong" else "private_transitional"

/-- `_apply_content_private_transport_lock_policy`, which may drop a lock that it would refuse. -/
def applyTransportLockPolicy (p : PreparedSignedWrite) : Except Stop PreparedSignedWrite :=
  if p.kind.contentPrivate = false then .ok p
  else
    let unlocked (detail : String) : Except Stop PreparedSignedWrite :=
      if env.transportLockRequired then refuse detail else .ok p
    let raw := env.rt.lower (trimmed env p.body "transport_lock")
    let normalized := normalizeTransportTier env raw
    let required := p.kind.requiredTransportTier
    let lock :=
      if p.kind.onDmLane = true ∧
          transportTierIsSufficient env (dmReleaseTier env) normalized = false then
        dmReleaseTier env
      else normalized
    if raw = "" then unlocked "transport_lock is required on content-private signed writes"
    else if normalized = "public_degraded" then
      unlocked "transport_lock cannot be public_degraded on a content-private signed write"
    else if transportTierIsSufficient env normalized required = false then
      unlocked ("transport_lock " ++ normalized ++ " is weaker than required content-private tier " ++
        required)
    else if transportTierIsSufficient env env.transportTier lock = false ∧
        p.kind.queueable = false then
      unlocked ("current transport tier " ++ env.transportTier ++
        " does not satisfy signed transport_lock " ++ normalized)
    else .ok { p with payload := Dict.set p.payload "transport_lock" (.str normalized) }

/-- `_signed_context_sequence_domain`. -/
def sequenceDomainOf (p : PreparedSignedWrite) : String :=
  match p.kind with
  | .dmBlock => "dm_block:" ++ env.rt.lower (strip (bodyText env p.payload "action" "block"))
  | .dmRegister | .dmSend | .dmPoll | .dmCount | .dmWitness | .trustVouch | .identityRotate
  | .identityRevoke | .gateMessage => p.kind.value
  | _ => p.eventType

/-- The arguments of `build_signed_context` and `validate_signed_context`, with their target
fields. -/
def requestMeaning (p : PreparedSignedWrite) (scopePath : String) : RequestMeaning where
  eventType := p.eventType
  kind := p.kind.value
  endpoint := scopePath
  laneFloor := p.kind.requiredTransportTier
  sequenceDomain := sequenceDomainOf env p
  nodeId := p.nodeId
  sequence := p.sequence
  gateId := if p.kind = .gateMessage then Dict.text env.rt p.payload "gate" else ""
  recipientId := if p.kind = .dmSend then Dict.text env.rt p.payload "recipient_id" else ""
  targetId :=
    if p.kind = .dmWitness ∨ p.kind = .trustVouch then Dict.text env.rt p.payload "target_id"
    else if p.kind = .dmBlock then Dict.text env.rt p.payload "blocked_id"
    else ""

/-- The refusal with `_canonical_signed_write_retry_payload`. -/
def askToResign {α : Type} (p : PreparedSignedWrite) (scopePath detail : String) :
    Except Stop α := do
  let payload := Dict.pop p.payload signedContextField
  let context ← orRaise (buildSignedContext env.toWriteEnv (requestMeaning env p scopePath) payload)
  let payload := Dict.set payload signedContextField (.dict context)
  let text ← orRaise (buildSignaturePayload env.rt p.eventType p.nodeId p.sequence payload)
  .error (.abort (.resign detail context payload text))

def applySignedContextPolicy (p : PreparedSignedWrite) (scopePath : String) :
    Except Stop PreparedSignedWrite :=
  match Dict.get p.body signedContextField with
  | .dict supplied => do
    let p := { p with payload := Dict.set p.payload signedContextField (.dict supplied) }
    let (ok, reason) ← orRaise
      (validateSignedContext env.toWriteEnv (requestMeaning env p scopePath) p.payload)
    if ok = true then .ok p else askToResign env p scopePath reason
  | _ =>
    if env.contextRequired = true ∧ p.kind.contentPrivate = true then
      askToResign env p scopePath "signed_context is required on this signed write"
    else .ok p

/-- `_apply_signed_write_freshness_policy`. -/
def applyFreshnessPolicy (now : ℚ) (p : PreparedSignedWrite) : Except Stop Unit := do
  if env.maxAgeS = 0 then .ok ()
  else
    let timestamp ← bodyInt env p.payload "timestamp"
    Check.require (timestamp ≤ 0 ∨ |⌊now⌋ - timestamp| ≤ env.maxAgeS)
      (.abort (.stale env.maxAgeS))

/-- The policies, one after the other. -/
def applyPolicies (now : ℚ) (scopePath : String) (p : PreparedSignedWrite) :
    Except Stop PreparedSignedWrite := do
  let p ← applyTransportLockPolicy env p
  let p ← applySignedContextPolicy env p scopePath
  applyFreshnessPolicy env now p
  .ok p

/-! ## The guard -/

def PreparedSignedWrite.event (p : PreparedSignedWrite) : SignedEvent where
  eventType := p.eventType
  nodeId := p.nodeId
  sequence := p.sequence
  publicKey := p.publicKey
  publicKeyAlgo := p.publicKeyAlgo
  signature := p.signature
  protocolVersion := p.protocolVersion

def revocationRetryableFailure (now : ℚ) (gate : WriteGate) (reason : String) : Bool :=
  strip reason = precheckUnavailableDetail &&
    (gate.inFlight || (0 < gate.lastFailureAt && now - gate.lastFailureAt < refreshFailFastWindow))

/-- The answer to what the verification came to. -/
def answerOf (now : ℚ) (p : PreparedSignedWrite) (gate : WriteGate) (ok : Bool)
    (reason verifiedReplyTo : String) : Answer :=
  if ok = true then .passed p reason verifiedReplyTo
  else if revocationRetryableFailure now gate reason = true then .revocationRetry
  else .refused reason

/-- The verification of a prepared write, with the write gate after it. -/
def verifyPrepared (now : ℚ) (p : PreparedSignedWrite) (gate : WriteGate) :
    Except String (WriteGate × Answer) :=
  if p.kind = .gateMessage then do
    let (gate, (ok, reason), replyTo) ←
      verifyGateMessageSignedWrite env.toWriteEnv now p.event p.payload p.verifiedReplyTo gate
    return (gate, answerOf now p gate ok reason replyTo)
  else do
    let (gate, ok, reason) ← verifySignedWrite env.toWriteEnv now p.event p.payload gate
    return (gate, answerOf now p gate ok reason p.verifiedReplyTo)

/-- `requires_signed_write` up to the handler: the state after, and the answer or an exception. -/
def requiresSignedWrite (now : ℚ) (r : WriteRequest) (s : GuardState) :
    GuardState × Except String Answer :=
  let (senderTokens, prepared) := prepareSignedWrite env now r s.senderTokens
  let s := { s with senderTokens }
  match prepared >>= applyPolicies env now r.scopePath with
  | .error (.raised exn) => (s, .error exn)
  | .error (.abort answer) => (s, .ok answer)
  | .ok p =>
    match verifyPrepared env now p s.gate with
    | .error exn => (s, .error exn)
    | .ok (gate, answer) => ({ s with gate }, .ok answer)

/-- The request presents a sender token that is in the table. -/
def PresentsToken (r : WriteRequest) (s : GuardState) : Prop :=
  r.kind = .dmSend ∧ ∃ body, requestBody r = .ok body ∧
    (s.senderTokens.lookup (trimmed env body "sender_token")).isSome = true ∧
    trimmed env body "sender_token" ≠ ""

end Model

section

variable {env : GuardEnv} {now : ℚ} {r : WriteRequest} {s : GuardState}
  {tokens : OrderedMap String SenderToken}

theorem filter_eq_self_iff {k : String} :
    (tokens.filter fun kv => kv.1 ≠ k) = tokens ↔ tokens.lookup k = none := by
  constructor
  · intro h
    have hgone := @OrderedMap.lookup_filter_self _ _ _ k tokens
    rwa [h] at hgone
  · intro h
    apply List.filter_eq_self.mpr
    intro kv hkv
    have hne := List.lookup_eq_none_iff.mp h kv hkv
    simpa using Ne.symm (by simpa using hne)

/-- Preparing changes the table exactly where the request presents a token that is in it. -/
theorem prepareSignedWrite_tokens :
    (prepareSignedWrite env now r s.senderTokens).1 = s.senderTokens ↔ ¬ PresentsToken env r s := by
  unfold prepareSignedWrite PresentsToken
  cases hbody : requestBody r with
  | error stop =>
    refine iff_of_true rfl fun h => ?_
    obtain ⟨-, body, hok, -⟩ := h
    cases hok
  | ok body =>
    dsimp only
    split_ifs with hsends
    · rw [filter_eq_self_iff, ← Option.not_isSome_iff_eq_none]
      refine not_congr ⟨fun h => ⟨hsends.1, body, rfl, h, hsends.2⟩, ?_⟩
      rintro ⟨-, body', hbody', hheld, -⟩
      cases hbody'
      exact hheld
    · refine iff_of_true rfl fun h => hsends ?_
      obtain ⟨hkind, body', hbody', -, hne⟩ := h
      cases hbody'
      exact ⟨hkind, hne⟩

theorem requiresSignedWrite_tokens : (requiresSignedWrite env now r s).1.senderTokens =
    (prepareSignedWrite env now r s.senderTokens).1 := by
  unfold requiresSignedWrite
  dsimp only
  split
  · rfl
  · rfl
  · split <;> rfl

theorem requiresSignedWrite_state : (requiresSignedWrite env now r s).1 =
    { senderTokens := (prepareSignedWrite env now r s.senderTokens).1
      gate := (requiresSignedWrite env now r s).1.gate } :=
  congrArg (fun tokens => GuardState.mk tokens _) requiresSignedWrite_tokens

theorem verifyPrepared_sameLedger {p : PreparedSignedWrite} {gate gate' : WriteGate}
    {answer : Answer} (h : verifyPrepared env now p gate = .ok (gate', answer)) :
    SameLedger gate.ledger gate'.ledger := by
  unfold verifyPrepared at h
  split_ifs at h
  · obtain ⟨⟨gate₁, result, replyTo⟩, hverify, h⟩ := Check.bind_eq_ok.mp h
    cases h
    exact verifyGateMessageSignedWrite_sameLedger hverify
  · obtain ⟨⟨gate₁, result⟩, hverify, h⟩ := Check.bind_eq_ok.mp h
    cases h
    exact verifySignedWrite_sameLedger hverify

/-- The guard does not write to the ledger. -/
theorem requiresSignedWrite_sameLedger :
    SameLedger s.gate.ledger (requiresSignedWrite env now r s).1.gate.ledger := by
  unfold requiresSignedWrite
  dsimp only
  split
  · exact .refl _
  · exact .refl _
  · split
    · exact .refl _
    · rename_i hverify
      exact verifyPrepared_sameLedger hverify

/-- What stops a request before the verification leaves the write gate as it was. -/
theorem resign_gate {s' : GuardState} {answer : Answer}
    (h : requiresSignedWrite env now r s = (s', .ok answer))
    (hresign : answer.resignRequired = true) : s'.gate = s.gate := by
  unfold requiresSignedWrite at h
  dsimp only at h
  split at h
  · cases h
  · cases h
    rfl
  · rename_i p _
    split at h
    · cases h
    · rename_i gate answer' hverify
      cases h
      exfalso
      unfold verifyPrepared at hverify
      split_ifs at hverify
      · obtain ⟨⟨gate₁, ⟨ok, reason⟩, replyTo⟩, -, hverify⟩ := Check.bind_eq_ok.mp hverify
        cases hverify
        unfold answerOf at hresign
        split_ifs at hresign <;> cases hresign
      · obtain ⟨⟨gate₁, ok, reason⟩, -, hverify⟩ := Check.bind_eq_ok.mp hverify
        cases hverify
        unfold answerOf at hresign
        split_ifs at hresign <;> cases hresign

/-- A message whose token was taken is refused when it is sent again. -/
theorem refused_again (h : PresentsToken env r s) (now' : ℚ) (gate : WriteGate) :
    (requiresSignedWrite env now' r
      { senderTokens := (prepareSignedWrite env now r s.senderTokens).1, gate }).2 =
      .ok (.refused "sender_token invalid or expired") := by
  obtain ⟨hkind, body, hbody, -, hne⟩ := h
  have hgone := @OrderedMap.lookup_filter_self _ _ _ (trimmed env body "sender_token")
    s.senderTokens
  have htokens : (prepareSignedWrite env now r s.senderTokens).1 =
      s.senderTokens.filter fun kv => kv.1 ≠ trimmed env body "sender_token" := by
    unfold prepareSignedWrite
    rw [hbody]
    dsimp only
    rw [if_pos ⟨hkind, hne⟩]
  have hprepared : (prepareSignedWrite env now' r
      (s.senderTokens.filter fun kv => kv.1 ≠ trimmed env body "sender_token")).2 =
      .error (.abort (.refused "sender_token invalid or expired")) := by
    unfold prepareSignedWrite
    rw [hbody]
    dsimp only
    rw [if_pos ⟨hkind, hne⟩, hgone]
    rfl
  unfold requiresSignedWrite
  dsimp only
  rw [htokens, hprepared]
  rfl

/-- A rejected request leaves tokens and ledger exactly where it presents no token of the table. -/
theorem rejected_write_unchanged {answer : Answer}
    (h : (requiresSignedWrite env now r s).2 = .ok answer) (hrejected : answer.rejected = true) :
    ((requiresSignedWrite env now r s).1.senderTokens = s.senderTokens ∧
        SameLedger s.gate.ledger (requiresSignedWrite env now r s).1.gate.ledger ↔
      ¬ PresentsToken env r s) ∧
    (answer.resignRequired = true →
      ((∀ now' r', requiresSignedWrite env now' r' (requiresSignedWrite env now r s).1 =
          requiresSignedWrite env now' r' s) ↔ ¬ PresentsToken env r s)) := by
  have htokens : (requiresSignedWrite env now r s).1.senderTokens = s.senderTokens ↔
      ¬ PresentsToken env r s := requiresSignedWrite_tokens ▸ prepareSignedWrite_tokens
  refine ⟨⟨fun hsame => htokens.mp hsame.1, fun hnone =>
    ⟨htokens.mpr hnone, requiresSignedWrite_sameLedger⟩⟩, fun hresign => ⟨?_, ?_⟩⟩
  · intro hagain hpresents
    have hfirst := congrArg Prod.snd (hagain now r)
    rw [requiresSignedWrite_state, refused_again hpresents, h] at hfirst
    cases hfirst
    cases hresign
  · intro hnone now' r'
    have hstate : (requiresSignedWrite env now r s).1 = s := by
      have hgate := @resign_gate env now r s _ answer (Prod.ext rfl h) hresign
      exact congrArg₂ GuardState.mk (htokens.mpr hnone) hgate
    rw [hstate]

end

/-! ## A sealed message without a signed context -/

/-- A node that asks for signed contexts, and whose other settings are off. -/
def askingEnv : GuardEnv where
  toEnv := plainEnv
  revocationTtl := 0
  revocationEnforce := false
  legacyDmSignatureCompat := false
  legacyGateSignatureCompat := false
  transportLockRequired := false
  contextRequired := true
  maxAgeS := 0
  transportTier := "private_strong"
  rnsEnabled := true
  deriveNodeId key := .ok key
  validateGateVoteContext _ gate := .ok gate

def heldToken : SenderToken where
  senderId := "!sb_sender"
  publicKey := "key"
  publicKeyAlgo := "Ed25519"
  protocolVersion := protocolVersion
  recipientId := "!sb_peer"
  deliveryClass := "request"
  recipientTokenHash := plainEnv.sha256 ""
  expiresAt := 0

def heldTokens : GuardState where
  senderTokens := [("token", heldToken)]
  gate := { clock := 0, ledger := quietLedger }

/-- A message that presents the token that it is given. -/
def sealedMessage (senderToken : String) : WriteRequest where
  kind := .dmSend
  body := some <| .dict [("sender_token", .str senderToken), ("recipient_id", .str "!sb_peer"),
    ("delivery_class", .str "request"), ("ciphertext", .str "c"), ("sequence", .int 1)]
  scopePath := "/api/mesh/dm/send"

theorem asks_to_resign (senderToken : String)
    (h : Check.okAnd (requiresSignedWrite askingEnv 10 (sealedMessage senderToken) heldTokens).2
      Answer.resignRequired = true) :
    ∃ answer, (requiresSignedWrite askingEnv 10 (sealedMessage senderToken) heldTokens).2 =
      .ok answer ∧ answer.resignRequired = true ∧ answer.rejected = true := by
  obtain ⟨answer, hanswer, hresign⟩ := Check.okAnd_iff.mp h
  refine ⟨answer, hanswer, hresign, ?_⟩
  cases answer with
  | resign => rfl
  | _ => cases hresign

/-- A message without a token leaves the tokens as they were. -/
theorem rejected_write_unchanged_sample :
    (requiresSignedWrite askingEnv 10 (sealedMessage "") heldTokens).1.senderTokens =
      heldTokens.senderTokens := by
  obtain ⟨answer, hanswer, -, hrejected⟩ := asks_to_resign "" (by decide +kernel)
  refine ((rejected_write_unchanged hanswer hrejected).1.mpr ?_).1
  rintro ⟨-, body, hbody, -, hne⟩
  cases hbody
  exact hne (by decide +kernel)

/-- A message with a token is asked to be signed again, loses it, and is then refused. -/
theorem not_rejected_write_unchanged : ∃ answer,
    (requiresSignedWrite askingEnv 10 (sealedMessage "token") heldTokens).2 = .ok answer ∧
      answer.resignRequired = true ∧ answer.rejected = true ∧
      (requiresSignedWrite askingEnv 10 (sealedMessage "token") heldTokens).1.senderTokens ≠
        heldTokens.senderTokens ∧
      (requiresSignedWrite askingEnv 11 (sealedMessage "token")
        (requiresSignedWrite askingEnv 10 (sealedMessage "token") heldTokens).1).2 =
        .ok (.refused "sender_token invalid or expired") := by
  obtain ⟨answer, hanswer, hresign, hrejected⟩ := asks_to_resign "token" (by decide +kernel)
  have hpresents : PresentsToken askingEnv (sealedMessage "token") heldTokens :=
    ⟨rfl, _, rfl, by decide +kernel, by decide +kernel⟩
  refine ⟨answer, hanswer, hresign, hrejected, fun h => ?_, ?_⟩
  · rw [requiresSignedWrite_tokens] at h
    exact prepareSignedWrite_tokens.mp h hpresents
  · rw [requiresSignedWrite_state]
    exact refused_again hpresents 11 _

end Vincent.Signed
