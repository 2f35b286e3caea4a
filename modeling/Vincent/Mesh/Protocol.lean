-- SUMMARY: Canonical payloads of mesh events, a normalizer for each type.
import Vincent.General.Check
import Vincent.Python.Value

/-!
# Canonical payloads

`normalizePayload` rebuilds a payload from the fields its event type knows. It
coerces every field to its type, drops the fields it does not know, and copies a
signed context when there is one. It can raise only the `OverflowError` that
`int` raises on an infinite float.
-/

namespace Vincent.Mesh

open Vincent.Python Vincent.Check

def protocolVersion : String := "infonet/2"

def networkId : String := "sb-testnet-0"

def signedContextField : String := "signed_context"

namespace Protocol

variable (rt : Runtime)

/-- `str(d.get(k, dflt))`. -/
def field (d : Dict) (k : String) (dflt : String := "") : String :=
  (Dict.get d k (.str dflt)).toStr rt

/-- `_safe_int(d.get(k, 0), 0)` as a payload value. -/
def intField (d : Dict) (k : String) : Except String PyVal :=
  .int <$> safeInt rt (Dict.get d k (.int 0)) 0

/-- A text field that is left out when it is empty. -/
def optText (k s : String) : Dict := if s = "" then [] else [(k, .str s)]

def transportLock (payload : Dict) : Dict :=
  optText "transport_lock" (rt.lower (strip (Dict.text rt payload "transport_lock")))

def normalizeSignedContext : PyVal → Except String Dict
  | .dict value => do
    let version ← intField rt value "version"
    let sequence ← intField rt value "sequence"
    return [
      ("protocol", .str (Dict.text rt value "protocol")),
      ("version", version),
      ("event_type", .str (Dict.text rt value "event_type")),
      ("kind", .str (Dict.text rt value "kind")),
      ("endpoint", .str (Dict.text rt value "endpoint")),
      ("lane_floor", .str (rt.lower (strip (Dict.text rt value "lane_floor")))),
      ("sequence_domain", .str (Dict.text rt value "sequence_domain")),
      ("node_id", .str (Dict.text rt value "node_id")),
      ("sequence", sequence),
      ("body_hash", .str (rt.lower (strip (Dict.text rt value "body_hash"))))]
      ++ optText "gate_id" (rt.lower (strip (Dict.text rt value "gate_id")))
      ++ optText "recipient_id" (strip (Dict.text rt value "recipient_id"))
      ++ optText "target_id" (strip (Dict.text rt value "target_id"))
  | _ => return []

def copySignedContext (normalized payload : Dict) : Except String Dict := do
  let signedContext ← normalizeSignedContext rt (Dict.get payload signedContextField)
  return if signedContext.isEmpty then normalized
    else Dict.set normalized signedContextField (.dict signedContext)

variable {rt} in
/-- A signed context is the only field that `_copy_signed_context` touches. -/
theorem copySignedContext_lookup {normalized payload result : Dict}
    (h : copySignedContext rt normalized payload = .ok result) {k : String}
    (hk : k ≠ signedContextField) : List.lookup k result = List.lookup k normalized := by
  unfold copySignedContext at h
  simp only [bind_eq_ok, pure_eq_ok] at h
  obtain ⟨context, _, rfl⟩ := h
  split
  · rfl
  · exact Dict.lookup_set_of_ne _ hk

def normalizeNumber (value : PyVal) : PyVal :=
  match toFloat rt value with
  | none => .int 0
  | some (.finite q) => if q.den = 1 then .int q.num else .float (.finite q)
  | some .negZero => .int 0
  | some x => .float x

def normalizeMessagePayload (payload : Dict) : Except String Dict :=
  copySignedContext rt ([
    ("message", .str (field rt payload "message")),
    ("destination", .str (field rt payload "destination")),
    ("channel", .str (field rt payload "channel" "LongFast")),
    ("priority", .str (field rt payload "priority" "normal")),
    ("ephemeral", .bool (Dict.get payload "ephemeral" (.bool false)).truthy)]
    ++ transportLock rt payload) payload

def normalizeGateMessagePayload (payload : Dict) : Except String Dict := do
  let epoch ← safeInt rt (Dict.get payload "epoch" (.int 0)) 0
  let format := (Dict.get payload "format" (.str "mls1")).or (.str "mls1")
  copySignedContext rt ([
    ("gate", .str (rt.lower (strip (field rt payload "gate")))),
    ("ciphertext", .str (field rt payload "ciphertext")),
    ("nonce", .str ((Dict.get payload "nonce" (Dict.get payload "iv" (.str ""))).toStr rt)),
    ("sender_ref", .str (field rt payload "sender_ref")),
    ("format", .str (rt.lower (strip (format.toStr rt))))]
    ++ (if 0 < epoch then [("epoch", .int epoch)] else [])
    -- the envelope rides along so that peers can decrypt without a key exchange
    ++ optText "gate_envelope" (strip (Dict.text rt payload "gate_envelope"))
    ++ optText "envelope_hash" (strip (Dict.text rt payload "envelope_hash"))
    ++ optText "reply_to" (strip (Dict.text rt payload "reply_to"))
    ++ transportLock rt payload) payload

def normalizeVotePayload (payload : Dict) : Except String Dict := do
  let vote ← intField rt payload "vote"
  copySignedContext rt [
    ("target_id", .str (field rt payload "target_id")),
    ("vote", vote),
    ("gate", .str (field rt payload "gate"))] payload

def normalizeGateCreatePayload (payload : Dict) : Except String Dict :=
  let rules := match Dict.get payload "rules" (.dict []) with
    | .dict d => d
    | _ => []
  copySignedContext rt [
    ("gate_id", .str (rt.lower (field rt payload "gate_id"))),
    ("display_name", .str (slice (field rt payload "display_name") 64)),
    ("rules", .dict rules)] payload

def normalizePredictionPayload (payload : Dict) : Dict := [
  ("market_title", .str (field rt payload "market_title")),
  ("side", .str (field rt payload "side")),
  ("stake_amount", normalizeNumber rt (Dict.get payload "stake_amount" (.float (.finite 0))))]

def normalizeStakePayload (payload : Dict) : Except String Dict := do
  let days ← intField rt payload "duration_days"
  return [
    ("message_id", .str (field rt payload "message_id")),
    ("poster_id", .str (field rt payload "poster_id")),
    ("side", .str (field rt payload "side")),
    ("amount", normalizeNumber rt (Dict.get payload "amount" (.float (.finite 0)))),
    ("duration_days", days)]

def normalizeDmKeyPayload (payload : Dict) : Except String Dict := do
  let timestamp ← intField rt payload "timestamp"
  copySignedContext rt ([
    ("dh_pub_key", .str (field rt payload "dh_pub_key")),
    ("dh_algo", .str (field rt payload "dh_algo")),
    ("timestamp", timestamp)]
    ++ transportLock rt payload) payload

def normalizeDmMessagePayload (payload : Dict) : Except String Dict := do
  let timestamp ← intField rt payload "timestamp"
  let format := (Dict.get payload "format" (.str "dm1")).or (.str "dm1")
  let welcome := Dict.get payload "session_welcome"
  copySignedContext rt ([
    ("recipient_id", .str (field rt payload "recipient_id")),
    ("delivery_class", .str (rt.lower (field rt payload "delivery_class"))),
    ("recipient_token", .str (field rt payload "recipient_token")),
    ("ciphertext", .str (field rt payload "ciphertext")),
    ("msg_id", .str (field rt payload "msg_id")),
    ("timestamp", timestamp),
    ("format", .str (rt.lower (strip (format.toStr rt))))]
    ++ (if welcome.truthy then [("session_welcome", .str (welcome.toStr rt))] else [])
    ++ optText "sender_seal" (Dict.text rt payload "sender_seal")
    ++ optText "relay_salt" (rt.lower (strip (Dict.text rt payload "relay_salt")))
    ++ transportLock rt payload) payload

def normalizeMailboxClaims (payload : Dict) : List PyVal :=
  match Dict.get payload "mailbox_claims" (.list []) with
  | .list claims => claims.filterMap fun claim =>
    match claim with
    | .dict d => some (.dict [
        ("type", .str (rt.lower (field rt d "type"))),
        ("token", .str (field rt d "token"))])
    | _ => none
  | _ => []

def normalizeDmPollPayload (payload : Dict) : Except String Dict := do
  let timestamp ← intField rt payload "timestamp"
  copySignedContext rt ([
    ("mailbox_claims", .list (normalizeMailboxClaims rt payload)),
    ("timestamp", timestamp),
    ("nonce", .str (field rt payload "nonce"))]
    ++ transportLock rt payload) payload

def normalizeDmCountPayload (payload : Dict) : Except String Dict :=
  normalizeDmPollPayload rt payload

def normalizeDmBlockPayload (payload : Dict) : Except String Dict :=
  copySignedContext rt ([
    ("blocked_id", .str (field rt payload "blocked_id")),
    ("action", .str (rt.lower (field rt payload "action" "block")))]
    ++ transportLock rt payload) payload

def normalizeDmKeyWitnessPayload (payload : Dict) : Except String Dict := do
  let timestamp ← intField rt payload "timestamp"
  copySignedContext rt ([
    ("target_id", .str (field rt payload "target_id")),
    ("dh_pub_key", .str (field rt payload "dh_pub_key")),
    ("timestamp", timestamp)]
    ++ transportLock rt payload) payload

def normalizeTrustVouchPayload (payload : Dict) : Except String Dict := do
  let timestamp ← intField rt payload "timestamp"
  copySignedContext rt ([
    ("target_id", .str (field rt payload "target_id")),
    ("note", .str (slice (field rt payload "note") 140)),
    ("timestamp", timestamp)]
    ++ transportLock rt payload) payload

def normalizeKeyRotatePayload (payload : Dict) : Except String Dict := do
  let timestamp ← intField rt payload "timestamp"
  copySignedContext rt ([
    ("old_node_id", .str (field rt payload "old_node_id")),
    ("old_public_key", .str (field rt payload "old_public_key")),
    ("old_public_key_algo", .str (field rt payload "old_public_key_algo")),
    ("new_public_key", .str (field rt payload "new_public_key")),
    ("new_public_key_algo", .str (field rt payload "new_public_key_algo")),
    ("timestamp", timestamp),
    ("old_signature", .str (field rt payload "old_signature"))]
    ++ transportLock rt payload) payload

def normalizeKeyRevokePayload (payload : Dict) : Except String Dict := do
  let revokedAt ← intField rt payload "revoked_at"
  let graceUntil ← intField rt payload "grace_until"
  copySignedContext rt ([
    ("revoked_public_key", .str (field rt payload "revoked_public_key")),
    ("revoked_public_key_algo", .str (field rt payload "revoked_public_key_algo")),
    ("revoked_at", revokedAt),
    ("grace_until", graceUntil),
    ("reason", .str (slice (field rt payload "reason") 140))]
    ++ transportLock rt payload) payload

variable {rt} in
/-- The fields of a canonical `key_revoke` that the ledger reads. -/
theorem normalizeKeyRevokePayload_fields {payload result : Dict}
    (h : normalizeKeyRevokePayload rt payload = .ok result) :
    ∃ key : String, ∃ revokedAt graceUntil : Int,
      List.lookup "revoked_public_key" result = some (.str key) ∧
      List.lookup "revoked_at" result = some (.int revokedAt) ∧
      List.lookup "grace_until" result = some (.int graceUntil) := by
  unfold normalizeKeyRevokePayload intField at h
  simp only [bind_eq_ok] at h
  obtain ⟨at', hat, grace', hgrace, hcopy⟩ := h
  have hint : ∀ {v : PyVal} {x : Except String Int}, PyVal.int <$> x = .ok v → ∃ n, v = .int n := by
    rintro v (_ | n) hv
    · cases hv
    · exact ⟨n, (Except.ok.inj hv).symm⟩
  obtain ⟨revokedAt, rfl⟩ := hint hat
  obtain ⟨graceUntil, rfl⟩ := hint hgrace
  refine ⟨field rt payload "revoked_public_key", revokedAt, graceUntil, ?_, ?_, ?_⟩ <;>
    rw [copySignedContext_lookup hcopy (by decide)] <;> rfl

def normalizeAbuseReportPayload (payload : Dict) : Dict := [
  ("target_id", .str (field rt payload "target_id")),
  ("reason", .str (slice (field rt payload "reason") 280)),
  ("gate", .str (field rt payload "gate")),
  ("evidence", .str (slice (field rt payload "evidence") 256))]

/-- `_f` of the SAR normalizer: a number that falls back to zero. An integer too
    large for a double raises. -/
def sarFloat (payload : Dict) (k : String) : Except String PyVal :=
  let value := (Dict.get payload k (.float (.finite 0))).or (.float (.finite 0))
  match toFloat rt value, value with
  | some x, _ => .ok (.float x)
  | none, .int _ => .error "OverflowError"
  | none, _ => .ok (.float (.finite 0))

def normalizeSarAnomalyPayload (payload : Dict) : Except String Dict := do
  let lat ← sarFloat rt payload "lat"
  let lon ← sarFloat rt payload "lon"
  let magnitude ← sarFloat rt payload "magnitude"
  let confidence ← sarFloat rt payload "confidence"
  let count ← safeInt rt ((Dict.get payload "scene_count" (.int 0)).or (.int 0)) 0
  return [
    ("anomaly_id", .str (slice (field rt payload "anomaly_id") 128)),
    ("kind", .str (slice (field rt payload "kind") 48)),
    ("lat", lat),
    ("lon", lon),
    ("magnitude", magnitude),
    ("magnitude_unit", .str (slice (field rt payload "magnitude_unit") 32)),
    ("confidence", confidence),
    ("first_seen", .str (slice (field rt payload "first_seen") 32)),
    ("last_seen", .str (slice (field rt payload "last_seen") 32)),
    ("stack_id", .str (slice (field rt payload "stack_id") 64)),
    ("scene_count", .int count),
    ("evidence_hash", .str (slice (field rt payload "evidence_hash") 128)),
    ("solver", .str (slice (field rt payload "solver") 64)),
    ("source_constellation", .str (slice (field rt payload "source_constellation") 64))]

end Protocol

open Protocol in
/-- `normalize_payload`. A type it does not know keeps its payload. -/
def normalizePayload (rt : Runtime) (eventType : String) (payload : Dict) : Except String Dict :=
  if eventType = "message" then normalizeMessagePayload rt payload
  else if eventType = "gate_message" then normalizeGateMessagePayload rt payload
  else if eventType = "vote" then normalizeVotePayload rt payload
  else if eventType = "gate_create" then normalizeGateCreatePayload rt payload
  else if eventType = "prediction" then .ok (normalizePredictionPayload rt payload)
  else if eventType = "stake" then normalizeStakePayload rt payload
  else if eventType = "dm_key" then normalizeDmKeyPayload rt payload
  else if eventType = "dm_message" then normalizeDmMessagePayload rt payload
  else if eventType = "dm_poll" then normalizeDmPollPayload rt payload
  else if eventType = "dm_count" then normalizeDmCountPayload rt payload
  else if eventType = "dm_block" then normalizeDmBlockPayload rt payload
  else if eventType = "dm_key_witness" then normalizeDmKeyWitnessPayload rt payload
  else if eventType = "trust_vouch" then normalizeTrustVouchPayload rt payload
  else if eventType = "key_rotate" then normalizeKeyRotatePayload rt payload
  else if eventType = "key_revoke" then normalizeKeyRevokePayload rt payload
  else if eventType = "abuse_report" then .ok (normalizeAbuseReportPayload rt payload)
  else if eventType = "sar_anomaly" then normalizeSarAnomalyPayload rt payload
  else .ok payload

end Vincent.Mesh
