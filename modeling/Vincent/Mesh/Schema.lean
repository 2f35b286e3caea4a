-- SUMMARY: Payload schemas of ledger events: field checks and ledger field rules.
import Vincent.Mesh.Protocol

/-!
# Payload schemas

`validateEventPayload` decides whether a payload is in canonical form and passes the
field checks of its event type. Three more validators say which fields a ledger payload
may carry.

An event type outside the registry falls through to the validators that the economy
layer registers at its cutover.
-/

namespace Vincent.Mesh

open Vincent.Python Vincent.Check

/-- How a validator ends when it does not pass: it names a reason, or a builtin
    raises. -/
inductive Fault where
  | invalid (reason : String)
  | raised (exn : String)
deriving DecidableEq, Repr

abbrev Verdict := Except Fault Unit

namespace Schema

/-! ## Sealed ciphertexts -/

def sealedCiphertextPrefixes : List String := ["x3dh1:", "dm1:", "mls1:", "sealed:"]

def stripSealedCiphertextPrefix (rt : Runtime) (value : String) : String :=
  match sealedCiphertextPrefixes.find? (startsWith (rt.lower value)) with
  | some p => String.ofList (value.toList.drop p.length)
  | none => value

def sealedCiphertextHasKnownPrefix (rt : Runtime) (value : String) : Bool :=
  sealedCiphertextPrefixes.any (startsWith (rt.lower (strip value)))

/-- The six bits of a base64 character, with `-` and `_` allowed or not. -/
def base64Value (urlSafe : Bool) (c : Char) : Option Nat :=
  if 'A' ≤ c ∧ c ≤ 'Z' then some (c.toNat - 65)
  else if 'a' ≤ c ∧ c ≤ 'z' then some (c.toNat - 71)
  else if '0' ≤ c ∧ c ≤ '9' then some (c.toNat + 4)
  else if c = '+' ∨ (urlSafe ∧ c = '-') then some 62
  else if c = '/' ∨ (urlSafe ∧ c = '_') then some 63
  else none

def base64Groups : List Nat → List Nat
  | a :: b :: c :: d :: rest =>
    (a * 4 + b / 16) :: ((b % 16) * 16 + c / 4) :: ((c % 4) * 64 + d) :: base64Groups rest
  | [a, b, c] => [a * 4 + b / 16, (b % 16) * 16 + c / 4]
  | [a, b] => [a * 4 + b / 16]
  | _ => []

/-- `base64.b64decode(padded, altchars, validate=True)`. -/
def b64decode (urlSafe : Bool) (padded : List Char) : Option (List Nat) :=
  let body := padded.takeWhile (· != '=')
  let padding := padded.dropWhile (· != '=')
  if padding.all (· == '=') && padding.length ≤ 2 && padded.length % 4 == 0 then
    (body.mapM (base64Value urlSafe)).map base64Groups
  else none

/-- `_decode_base64ish`: the standard alphabet first, then the URL-safe one. -/
def decodeBase64ish (value : String) : Option (List Nat) :=
  let raw := (strip value).toList
  if raw.isEmpty || raw.any isSpace then none
  else
    let padded := raw ++ List.replicate ((4 - raw.length % 4) % 4) '='
    b64decode false padded <|> b64decode true padded

def decodeSealedCiphertextValue (rt : Runtime) (value : String) : Option (List Nat) :=
  let raw := strip value
  if raw = "" then none else decodeBase64ish (stripSealedCiphertextPrefix rt raw)

/-- `_byte_entropy(data) < 2.5`, as exponentials of the entropy of `n` bytes to the power `2 n`. -/
def entropyBelowFloor (data : List Nat) : Bool :=
  let n := data.length
  let weight := (data.dedup.map fun b => data.count b ^ (2 * data.count b)).prod
  n ^ (2 * n) < 2 ^ (5 * n) * weight

def isPrintable (b : Nat) : Bool := (32 ≤ b && b ≤ 126) || b == 9 || b == 10 || b == 13

def isUtf8 (data : List Nat) : Bool :=
  (String.fromUTF8? (ByteArray.mk (data.map UInt8.ofNat).toArray)).isSome

/-- `_validate_sealed_bytes_field`, with its default bounds. -/
def validateSealedBytesField (rt : Runtime) (payload : Dict) (fieldName : String) : Verdict := do
  let raw := strip (Dict.text rt payload fieldName)
  match decodeSealedCiphertextValue rt raw with
  | none => throw (.invalid s!"{fieldName} must be base64-encoded sealed bytes")
  | some data =>
    require (8 ≤ data.length) (.invalid s!"{fieldName} is too short")
    -- a known wire prefix marks a structured envelope, which may be low in entropy
    if !sealedCiphertextHasKnownPrefix rt raw && 32 ≤ data.length then
      require (¬ (9 * data.length < 10 * data.countP isPrintable ∧ isUtf8 data))
        (.invalid s!"{fieldName} looks like encoded plaintext")
      require (entropyBelowFloor data = false)
        (.invalid s!"{fieldName} entropy is too low for sealed bytes")

/-! ## Field checks, one validator for each event type -/

variable (rt : Runtime)

def requireFields (payload : Dict) : List String → Verdict
  | [] => .ok ()
  | key :: fields =>
    if Dict.contains payload key then requireFields payload fields
    else throw (.invalid s!"Missing field: {key}")

/-- `_safe_int(payload.get(k, 0) or 0, 0)`. -/
def intOrZero (payload : Dict) (k : String) : Except Fault Int :=
  orFail (safeInt rt ((Dict.get payload k (.int 0)).or (.int 0)) 0) .raised

/-- `str(payload.get(k, "")).strip()` is empty. -/
def blank (payload : Dict) (k : String) : Bool := strip (Protocol.field rt payload k) == ""

def isBool : PyVal → Bool
  | .bool _ => true
  | _ => false

def isDict : PyVal → Bool
  | .dict _ => true
  | _ => false

def validateMessage (payload : Dict) : Verdict := do
  requireFields payload ["message", "destination", "channel", "priority", "ephemeral"]
  require ((Dict.get payload "priority").inStrings ["normal", "high", "emergency", "low"])
    (.invalid "Invalid priority")
  require (isBool (Dict.get payload "ephemeral")) (.invalid "ephemeral must be boolean")

def validateGateMessage (payload : Dict) : Verdict := do
  requireFields payload ["gate", "ciphertext", "nonce", "sender_ref"]
  require (Dict.contains payload "message" = false)
    (.invalid "plaintext gate message field is not allowed")
  require (rt.lower (strip (Protocol.field rt payload "gate")) ≠ "")
    (.invalid "gate cannot be empty")
  if Dict.contains payload "epoch" then
    let epoch ← intOrZero rt payload "epoch"
    require (0 < epoch) (.invalid "epoch must be a positive integer")
  else
    require (¬ (blank rt payload "ciphertext" ∧ blank rt payload "nonce" ∧
        blank rt payload "sender_ref"))
      (.invalid "epoch must be a positive integer")
  require (blank rt payload "ciphertext" = false) (.invalid "ciphertext cannot be empty")
  require (blank rt payload "nonce" = false) (.invalid "nonce cannot be empty")
  require (blank rt payload "sender_ref" = false) (.invalid "sender_ref cannot be empty")
  let payloadFormat := ((Dict.get payload "format" (.str "mls1")).or (.str "mls1")).toStr rt
  require (rt.lower (strip payloadFormat) = "mls1") (.invalid "Unsupported gate message format")

def validateVote (payload : Dict) : Verdict := do
  requireFields payload ["target_id", "vote", "gate"]
  let vote := Dict.get payload "vote"
  require (vote.eq (.int (-1)) ∨ vote.eq (.int 1)) (.invalid "Invalid vote")

def validateGateCreate (payload : Dict) : Verdict := do
  requireFields payload ["gate_id", "display_name", "rules"]
  require (isDict (Dict.get payload "rules")) (.invalid "rules must be an object")

def validatePrediction (payload : Dict) : Verdict :=
  requireFields payload ["market_title", "side", "stake_amount"]

def validateStake (payload : Dict) : Verdict :=
  requireFields payload ["message_id", "poster_id", "side", "amount", "duration_days"]

def validateDmBlock (payload : Dict) : Verdict := do
  requireFields payload ["blocked_id", "action"]
  require ((Dict.get payload "action").inStrings ["block", "unblock"]) (.invalid "Invalid action")

def validateDmKey (payload : Dict) : Verdict := do
  requireFields payload ["dh_pub_key", "dh_algo", "timestamp"]
  require ((Dict.get payload "dh_algo").inStrings ["X25519", "ECDH", "ECDH_P256"])
    (.invalid "Invalid dh_algo")

def validateDmMessage (payload : Dict) : Verdict := do
  requireFields payload
    ["recipient_id", "delivery_class", "recipient_token", "ciphertext", "msg_id", "timestamp"]
  let deliveryClass := rt.lower (Protocol.field rt payload "delivery_class")
  require (deliveryClass = "request" ∨ deliveryClass = "shared") (.invalid "Invalid delivery_class")
  require (¬ (deliveryClass = "shared" ∧ blank rt payload "recipient_token"))
    (.invalid "recipient_token required for shared delivery")
  let dmFormat := rt.lower (strip
    (((Dict.get payload "format" (.str "mls1")).or (.str "mls1")).toStr rt))
  require (dmFormat = "mls1" ∨ dmFormat = "dm1") (.invalid s!"Unknown DM format: {dmFormat}")

def validateMailboxClaims : PyVal → Verdict
  | .list claims => do
    require (claims ≠ []) (.invalid "mailbox_claims must be a non-empty list")
    claims.forM fun claim =>
      match claim with
      | .dict d => do
        let claimType := rt.lower (Protocol.field rt d "type")
        require (claimType = "self" ∨ claimType = "requests" ∨ claimType = "shared")
          (.invalid "Invalid mailbox claim type")
        require (blank rt d "token" = false)
          (.invalid s!"{claimType} mailbox claims require token")
      | _ => throw (.invalid "mailbox_claims entries must be objects")
  | _ => throw (.invalid "mailbox_claims must be a non-empty list")

def validateDmPoll (payload : Dict) : Verdict := do
  requireFields payload ["mailbox_claims", "timestamp", "nonce"]
  validateMailboxClaims rt (Dict.get payload "mailbox_claims")

def validateDmCount (payload : Dict) : Verdict := validateDmPoll rt payload

def validateKeyRotate (payload : Dict) : Verdict :=
  requireFields payload ["old_node_id", "old_public_key", "old_public_key_algo",
    "new_public_key", "new_public_key_algo", "timestamp", "old_signature"]

def validateKeyRevoke (payload : Dict) : Verdict := do
  requireFields payload
    ["revoked_public_key", "revoked_public_key_algo", "revoked_at", "grace_until", "reason"]
  let revokedAt ← intOrZero rt payload "revoked_at"
  let graceUntil ← intOrZero rt payload "grace_until"
  require (0 < revokedAt) (.invalid "revoked_at must be a positive timestamp")
  require (revokedAt ≤ graceUntil) (.invalid "grace_until must be >= revoked_at")

def validateAbuseReport (payload : Dict) : Verdict := do
  requireFields payload ["target_id", "reason"]
  require (blank rt payload "reason" = false) (.invalid "reason cannot be empty")

/-- `SCHEMA_REGISTRY`, as `get_schema` reads it. -/
def getSchema (eventType : String) : Option (Dict → Verdict) :=
  if eventType = "message" then some validateMessage
  else if eventType = "gate_message" then some (validateGateMessage rt)
  else if eventType = "vote" then some validateVote
  else if eventType = "gate_create" then some validateGateCreate
  else if eventType = "prediction" then some validatePrediction
  else if eventType = "stake" then some validateStake
  else if eventType = "dm_block" then some validateDmBlock
  else if eventType = "dm_key" then some validateDmKey
  else if eventType = "dm_message" then some (validateDmMessage rt)
  else if eventType = "dm_poll" then some (validateDmPoll rt)
  else if eventType = "dm_count" then some (validateDmCount rt)
  else if eventType = "key_rotate" then some validateKeyRotate
  else if eventType = "key_revoke" then some (validateKeyRevoke rt)
  else if eventType = "abuse_report" then some (validateAbuseReport rt)
  else none

end Schema

/-! ## Event types -/

def activePublicLedgerEventTypes : List String :=
  ["message", "vote", "gate_create", "prediction", "stake", "key_rotate", "key_revoke",
    "abuse_report"]

def legacyPublicLedgerEventTypes : List String := ["gate_message", "dm_message"]

def publicLedgerEventTypes : List String :=
  activePublicLedgerEventTypes ++ legacyPublicLedgerEventTypes

abbrev ExtensionValidators := List (String × (Dict → Verdict))

def validateEventPayload (rt : Runtime) (ext : ExtensionValidators) (eventType : String)
    (payload : Dict) : Verdict :=
  match Schema.getSchema rt eventType with
  | none =>
    match ext.lookup eventType with
    | some validator => validator payload
    | none => throw (.invalid "Unknown event_type")
  | some validate => do
    let normalized ← orFail (normalizePayload rt eventType payload) .raised
    require (Dict.eq normalized payload) (.invalid "Payload is not normalized")
    require (¬ (eventType ≠ "message" ∧ eventType ≠ "gate_message" ∧
        Dict.contains payload "ephemeral"))
      (.invalid "ephemeral not allowed for this event type")
    validate payload

/-! ## Ledger field rules -/

def publicLedgerForbiddenFields : List String :=
  ["ip", "ip_address", "origin_ip", "source_ip", "client_ip", "host", "hostname", "origin",
    "originator", "originator_hint", "routing_hint", "route", "route_hint", "route_reason",
    "routed_via", "transport", "transport_handle", "transport_lock", "recipient_id",
    "recipient_token", "delivery_class", "mailbox_claims", "dh_pub_key", "sender_token"]

def privateGateLedgerAllowedFields : List String :=
  ["gate", "ciphertext", "nonce", "sender_ref", "format", "epoch", "gate_envelope",
    "envelope_hash", "reply_to", "transport_lock", "signed_context"]

def privateDmLedgerAllowedFields : List String :=
  ["recipient_id", "delivery_class", "recipient_token", "ciphertext", "msg_id", "timestamp",
    "format", "session_welcome", "sender_seal", "relay_salt", "transport_lock", "signed_context"]

/-- The keys that satisfy `p`, trimmed and lowered, sorted and joined for an error text. -/
def keysWhere (rt : Runtime) (payload : Dict) (p : String → Bool) : List String :=
  (payload.map (·.1)).filter fun key => p (rt.lower (strip key))

def joinKeys (keys : List String) : String :=
  String.intercalate ", " (keys.insertionSort (· ≤ ·))

def validatePrivateGateLedgerPayload (rt : Runtime) (ext : ExtensionValidators)
    (payload : Dict) : Verdict := do
  validateEventPayload rt ext "gate_message" payload
  let unexpected := keysWhere rt payload (fun key => !privateGateLedgerAllowedFields.contains key)
  require (unexpected = []) (.invalid
    s!"private gate ledger payload contains unsupported fields: {joinKeys unexpected}")
  require (¬ (Dict.contains payload "message" ∨ Dict.contains payload "_local_plaintext" ∨
      Dict.contains payload "_local_reply_to"))
    (.invalid "private gate ledger payload must not contain plaintext")
  let transportLock := rt.lower (strip (Dict.text rt payload "transport_lock"))
  require (transportLock = "" ∨ transportLock ∈ ["private", "private_strong", "rns", "onion"])
    (.invalid "gate messages require private transport_lock")
  Schema.validateSealedBytesField rt payload "ciphertext"
  Schema.validateSealedBytesField rt payload "nonce"

def validatePrivateDmLedgerPayload (rt : Runtime) (ext : ExtensionValidators)
    (payload : Dict) : Verdict := do
  validateEventPayload rt ext "dm_message" payload
  let unexpected := keysWhere rt payload (fun key => !privateDmLedgerAllowedFields.contains key)
  require (unexpected = []) (.invalid
    s!"private DM ledger payload contains unsupported fields: {joinKeys unexpected}")
  require (¬ (Dict.contains payload "message" ∨ Dict.contains payload "plaintext" ∨
      Dict.contains payload "_local_plaintext"))
    (.invalid "private DM ledger payload must not contain plaintext")
  require (rt.lower (strip (Dict.text rt payload "transport_lock")) = "private_strong")
    (.invalid "DM hashchain spool requires private_strong transport_lock")
  require (strip (Dict.text rt payload "ciphertext") ≠ "") (.invalid "ciphertext cannot be empty")
  Schema.validateSealedBytesField rt payload "ciphertext"

def validatePublicLedgerPayload (rt : Runtime) (ext : ExtensionValidators) (eventType : String)
    (payload : Dict) : Verdict :=
  if eventType = "gate_message" then validatePrivateGateLedgerPayload rt ext payload
  else do
    require (eventType ∈ publicLedgerEventTypes ∨ (ext.lookup eventType).isSome)
      (.invalid s!"{eventType} is not allowed on the public ledger")
    let forbidden := keysWhere rt payload publicLedgerForbiddenFields.contains
    require (forbidden = []) (.invalid
      s!"public ledger payload contains forbidden fields: {joinKeys forbidden}")
    let destination := rt.lower (strip (Dict.text rt payload "destination"))
    require (¬ (eventType = "message" ∧ destination ≠ "" ∧ destination ≠ "broadcast"))
      (.invalid "public ledger message destination must be broadcast")

end Vincent.Mesh
