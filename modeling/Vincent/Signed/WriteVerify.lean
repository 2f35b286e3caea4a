-- SUMMARY: Verification of signed writes.
import Vincent.Signed.RevocationCache

/-!
# Verification of signed writes

`verify_signed_write` checks the signature over the normalized payload, and then the
preflight. `verify_gate_message_signed_write` does so for each payload that a gate
message may have. A signed context names the request that a payload is meant for.
-/

namespace Vincent.Signed

open Vincent.Python Vincent.Mesh Vincent.Run

/-- The settings of signed writes. -/
structure WriteEnv extends Env where
  /-- `signed_revocation_cache_ttl_s()`. -/
  revocationTtl : Nat
  /-- `signed_revocation_cache_enforce()`. -/
  revocationEnforce : Bool
  /-- `_legacy_dm_signature_compat_enabled()`. -/
  legacyDmSignatureCompat : Bool
  /-- `_legacy_gate_signature_compat_enabled()`. -/
  legacyGateSignatureCompat : Bool

variable (env : WriteEnv)

def WriteEnv.revocation : RevocationEnv := ⟨env.rt, env.revocationTtl, env.revocationEnforce⟩

/-! ## The signed context -/

def payloadBodyHash (eventType : String) (payload : Dict) : Except String String := do
  let normalized ← normalizePayload env.rt eventType (Dict.pop payload signedContextField)
  return env.sha256 (canonicalJson env.rt (Dict.pop normalized signedContextField))

/-- What a signed context names besides the payload. -/
structure RequestMeaning where
  eventType : String
  kind : String
  endpoint : String
  laneFloor : String
  sequenceDomain : String
  nodeId : String
  sequence : Int
  gateId : String := ""
  recipientId : String := ""
  targetId : String := ""
deriving DecidableEq

def buildSignedContext (m : RequestMeaning) (payload : Dict) : Except String Dict := do
  let bodyHash ← payloadBodyHash env m.eventType payload
  return [
    ("protocol", .str "vincent_os"),
    ("version", .int 1),
    ("event_type", .str m.eventType),
    ("kind", .str m.kind),
    ("endpoint", .str m.endpoint),
    ("lane_floor", .str (env.rt.lower (strip m.laneFloor))),
    ("sequence_domain", .str m.sequenceDomain),
    ("node_id", .str m.nodeId),
    ("sequence", .int m.sequence),
    ("body_hash", .str bodyHash)]
    ++ (if m.gateId = "" then [] else [("gate_id", .str (env.rt.lower (strip m.gateId)))])
    ++ (if m.recipientId = "" then [] else [("recipient_id", .str (strip m.recipientId))])
    ++ (if m.targetId = "" then [] else [("target_id", .str (strip m.targetId))])

def validateSignedContext (m : RequestMeaning) (payload : Dict) :
    Except String (Bool × String) := do
  let supplied ← Protocol.normalizeSignedContext env.rt (Dict.get payload signedContextField)
  if supplied.isEmpty then return (true, "signed_context_absent")
  else
    let expected ← buildSignedContext env m payload
    return if Dict.eq supplied expected then (true, "signed_context_ok")
      else (false, "signed_context_mismatch")

/-! ## Signatures -/

def normalizeDmMessagePayloadLegacy (payload : Dict) : Except String Dict := do
  let timestamp ← Protocol.intField env.rt payload "timestamp"
  return [
    ("recipient_id", .str (Protocol.field env.rt payload "recipient_id")),
    ("delivery_class", .str (env.rt.lower (Protocol.field env.rt payload "delivery_class"))),
    ("recipient_token", .str (Protocol.field env.rt payload "recipient_token")),
    ("ciphertext", .str (Protocol.field env.rt payload "ciphertext")),
    ("msg_id", .str (Protocol.field env.rt payload "msg_id")),
    ("timestamp", timestamp)]

/-- Whether the signature of the event covers the payload. -/
def signatureCovers (e : SignedEvent) (payload : Dict) : Except String Bool := do
  let text ← buildSignaturePayload env.rt e.eventType e.nodeId e.sequence payload
  return env.verifySignature e.publicKey (parsePublicKeyAlgo env.rt e.publicKeyAlgo) e.signature
    text

/-- The checks of `verify_signed_event` before the signature: why the event is refused. -/
def refusedFields (e : SignedEvent) : Option String :=
  if e.protocolVersion = "" then some "Missing protocol_version"
  else if e.protocolVersion ≠ protocolVersion then
    some ("Unsupported protocol_version: " ++ e.protocolVersion)
  else if e.signature = "" ∨ e.publicKey = "" ∨ e.publicKeyAlgo = "" then
    some "Missing signature or public key"
  else if e.sequence ≤ 0 then some "Missing or invalid sequence"
  else if env.verifyNodeBinding e.nodeId e.publicKey = false then
    some "node_id does not match public key"
  else if parsePublicKeyAlgo env.rt e.publicKeyAlgo = "" then some "Unsupported public_key_algo"
  else none

def verifySignedEvent (e : SignedEvent) (payload : Dict) : Except String (Bool × String) :=
  match refusedFields env e with
  | some reason => .ok (false, reason)
  | none => do
    let normalized ← normalizePayload env.rt e.eventType payload
    if ← signatureCovers env e normalized then return (true, "ok")
    else if e.eventType = "dm_message" ∧ env.legacyDmSignatureCompat = true then
      let legacy ← normalizeDmMessagePayloadLegacy env payload
      return if ← signatureCovers env e legacy then (true, "legacy_dm_signature_compat")
        else (false, "Invalid signature")
    else return (false, "Invalid signature")

/-- `preflight_signed_event_integrity` with no other call running, stage by stage. -/
def preflightSignedEventIntegrity (now : ℚ) (e : SignedEvent) (gate : WriteGate) :
    WriteGate × (Bool × String) :=
  let i := gate.calls.length
  let gate := run (gateStep env.revocation) gate
    [.check now e, .resume now i, .resume now i, .resume now i]
  (gate, (gate.results.getLast?.map PreflightResult.result).getD (false, ""))

/-- The preflight after a signature check that gave `(true, reason)`. -/
def afterSignature (now : ℚ) (e : SignedEvent) (gate : WriteGate) (reason : String) :
    WriteGate × (Bool × String) :=
  let (gate, ok, integrityReason) := preflightSignedEventIntegrity env now e gate
  (gate, ok, if ok = true then reason else integrityReason)

def verifySignedWrite (now : ℚ) (e : SignedEvent) (payload : Dict) (gate : WriteGate) :
    Except String (WriteGate × (Bool × String)) := do
  let (ok, reason) ← verifySignedEvent env e payload
  return if ok = true then afterSignature env now e gate reason else (gate, false, reason)

/-- What a gate message may be signed with, each with its reason and the reply that it verifies. -/
def gateVariants (normalized : Dict) (replyTo : String) : List (Dict × String × String) :=
  let primary := if replyTo = "" then normalized else Dict.set normalized "reply_to" (.str replyTo)
  [(primary, "ok", replyTo)] ++
    if env.legacyGateSignatureCompat = true then
      (if replyTo = "" then []
        else [(Dict.pop primary "reply_to", "legacy_gate_reply_signature_compat", "")]) ++
      (if Dict.contains primary "epoch" then
        [(Dict.pop primary "epoch", "legacy_gate_epoch_signature_compat", replyTo)] ++
          if replyTo = "" then []
          else [(Dict.pop (Dict.pop primary "epoch") "reply_to",
            "legacy_gate_epoch_reply_signature_compat", "")]
       else [])
    else []

/-- The loop over the variants: the first that is accepted, or the reason of the last one. -/
def firstAccepted (e : SignedEvent) (replyTo reason : String) :
    List (Dict × String × String) → Except String (Bool × String × String)
  | [] => .ok (false, reason, replyTo)
  | (candidate, candidateReason, candidateReplyTo) :: rest => do
    let (ok, reason) ← verifySignedEvent env { e with eventType := "gate_message" } candidate
    if ok = true then return (true, candidateReason, candidateReplyTo)
    else firstAccepted e replyTo reason rest

def verifyGateMessageSignedWrite (now : ℚ) (e : SignedEvent) (payload : Dict) (replyTo : String)
    (gate : WriteGate) : Except String (WriteGate × (Bool × String) × String) := do
  let normalized ← normalizePayload env.rt "gate_message" payload
  let (ok, reason, effectiveReplyTo) ←
    firstAccepted env e replyTo "Invalid signature" (gateVariants env normalized replyTo)
  if ok = true then
    let (gate, result) := afterSignature env now { e with eventType := "gate_message" } gate reason
    return (gate, result, effectiveReplyTo)
  else return (gate, (false, reason), effectiveReplyTo)

/-! ## What the preflight leaves alone -/

section

variable {env : WriteEnv} {now : ℚ} {e : SignedEvent} {gate gate' : WriteGate}
  {payload : Dict}

/-- The ledgers agree in everything but the table of revocations. -/
def SameLedger (net net' : Infonet) : Prop := { net with revocations := net'.revocations } = net'

theorem SameLedger.refl (net : Infonet) : SameLedger net net := rfl

theorem SameLedger.trans {net net' net'' : Infonet} (h : SameLedger net net')
    (h' : SameLedger net' net'') : SameLedger net net'' := by
  unfold SameLedger at h h' ⊢
  rw [← h', ← h]

theorem gateStep_sameLedger (renv : RevocationEnv) (s : WriteGate) (a : GateStep)
    (h : ∀ now net, a ≠ .ledger now net) : SameLedger s.ledger (gateStep renv s a).ledger := by
  cases a with
  | ledger now net => exact absurd rfl (h now net)
  | check now e =>
    change SameLedger s.ledger (s.look renv now e).ledger
    unfold WriteGate.look
    split <;> exact .refl _
  | resume now i =>
    unfold gateStep
    dsimp only
    split
    · exact .refl _
    · split
      · unfold WriteGate.enter
        split_ifs <;> exact .refl _
      · unfold WriteGate.compute
        dsimp only
        split
        · exact .refl _
        · split <;> exact rfl
      · exact .refl _

theorem preflight_sameLedger :
    SameLedger gate.ledger (preflightSignedEventIntegrity env now e gate).1.ledger := by
  unfold preflightSignedEventIntegrity
  dsimp only [run]
  refine .trans (gateStep_sameLedger _ _ _ ?_) (.trans (gateStep_sameLedger _ _ _ ?_)
    (.trans (gateStep_sameLedger _ _ _ ?_) (gateStep_sameLedger _ _ _ ?_))) <;>
  · intro _ _ h
    cases h

theorem verifySignedWrite_sameLedger {result : Bool × String}
    (h : verifySignedWrite env now e payload gate = .ok (gate', result)) :
    SameLedger gate.ledger gate'.ledger := by
  unfold verifySignedWrite at h
  obtain ⟨⟨ok, reason⟩, -, h⟩ := Check.bind_eq_ok.mp h
  dsimp only at h
  split_ifs at h
  · cases h
    exact preflight_sameLedger
  · cases h
    exact .refl _

theorem verifyGateMessageSignedWrite_sameLedger {replyTo effective : String} {result : Bool × String}
    (h : verifyGateMessageSignedWrite env now e payload replyTo gate =
      .ok (gate', result, effective)) : SameLedger gate.ledger gate'.ledger := by
  unfold verifyGateMessageSignedWrite at h
  obtain ⟨normalized, -, h⟩ := Check.bind_eq_ok.mp h
  obtain ⟨⟨ok, reason, effective'⟩, -, h⟩ := Check.bind_eq_ok.mp h
  dsimp only at h
  split_ifs at h
  · cases h
    exact preflight_sameLedger
  · cases h
    exact .refl _

end

end Vincent.Signed
