-- SUMMARY: The state of a DM relay, its keys, what it prunes and writes to its file.
import Vincent.General.OrderedMap
import Vincent.Python.Float
import Mathlib.Data.Finset.Image

/-!
# The DM relay

A relay holds messages in mailboxes and metadata in tables. Mailboxes are named
by peppered hashes, and so are the senders that a recipient blocks. The tables
are pruned by age, written to a file as a whole, and read back from it.
-/

namespace Vincent.Dm

open Vincent.Python

/-- The settings of a relay, as its accessors return them. -/
structure RelayConfig where
  requestMailboxLimit : Nat := 12
  sharedMailboxLimit : Nat := 48
  selfMailboxLimit : Nat := 12
  perSenderPendingLimit : Nat := 2
  nonceTtlSeconds : Nat := 300
  nonceCacheMaxEntries : Nat := 4096
  noncePerAgentMax : Nat := 256
  dmKeyTtlSeconds : Nat := 30 * 86400
  prekeyLookupAliasTtlSeconds : Nat := 14 * 86400
  witnessTtlSeconds : Nat := 14 * 86400
  mailboxBindingTtlSeconds : Nat := 3 * 86400
  maxMsgBytes : Nat := 8192
  persistSpoolEnabled : Bool := false
  metadataPersistEnabled : Bool := false
  requestMailbox_pos : 1 ≤ requestMailboxLimit := by decide
  sharedMailbox_pos : 1 ≤ sharedMailboxLimit := by decide
  selfMailbox_pos : 1 ≤ selfMailboxLimit := by decide
  perSender_pos : 1 ≤ perSenderPendingLimit := by decide
  nonceTtl_ge : 30 ≤ nonceTtlSeconds := by decide
  nonceCache_pos : 1 ≤ nonceCacheMaxEntries := by decide
  noncePerAgent_pos : 1 ≤ noncePerAgentMax := by decide
  dmKeyTtl_ge : 86400 ≤ dmKeyTtlSeconds := by decide
  aliasTtl_ge : 86400 ≤ prekeyLookupAliasTtlSeconds := by decide
  witnessTtl_ge : 86400 ≤ witnessTtlSeconds := by decide
  bindingTtl_ge : 86400 ≤ mailboxBindingTtlSeconds := by decide

/-- What a relay runs in. -/
structure RelayEnv where
  rt : Runtime
  cfg : RelayConfig
  /-- `hashlib.sha256(s.encode("utf-8")).hexdigest()`. -/
  sha256 : String → String
  sha256_ne_empty : ∀ s, sha256 s ≠ ""
  sha256_no_space : ∀ s, ∀ c ∈ (sha256 s).toList, isSpace c = false
  /-- `_get_token_pepper()`. -/
  tokenPepper : String
  /-- `_validate_bundle_record` at a time, of a bundle, a public key and an agent. -/
  validateBundleRecord : ℚ → Dict → String → String → Except String Unit
  /-- `transparency_fingerprint_for_bundle_record`. -/
  transparencyFingerprint : Dict → String

def ttlSeconds : ℚ := 3600

def epochSeconds : ℚ := 6 * 60 * 60

/-! ## Tables -/

structure DMMessage where
  senderId : String
  ciphertext : String
  timestamp : PyFloat
  msgId : String
  deliveryClass : String
  senderSeal : String := ""
  relaySalt : String := ""
  senderBlockRef : String := ""
  payloadFormat : String := "dm1"
  sessionWelcome : String := ""
deriving DecidableEq, Repr

/-- An accepted DH key of an agent. -/
structure DhKey where
  dhPubKey : String
  dhAlgo : String
  timestamp : Int
  signature : String
  publicKey : String
  publicKeyAlgo : String
  protocolVersion : String
  sequence : Int
  bundleFingerprint : String
deriving DecidableEq, Repr

/-- One publication in the log of an agent's prekey bundles. -/
structure Publication where
  index : Int
  sequence : Int
  signedAt : Int
  publicationFingerprint : String
  previousHead : String
  head : String
  observedAt : Int
deriving DecidableEq, Repr

/-- What `_advance_prekey_transparency` adds to a bundle. -/
structure PrekeyTransparency where
  head : String
  size : Int
  fingerprint : String
  log : List Publication
deriving DecidableEq, Repr

/-- An accepted prekey bundle of an agent. -/
structure PrekeyBundle where
  bundle : Dict
  signature : String
  publicKey : String
  publicKeyAlgo : String
  protocolVersion : String
  sequence : Int
  updatedAt : Int
  transparency : PrekeyTransparency

/-- The token that an agent has bound to a kind of mailbox. -/
structure MailboxBinding where
  tokenHash : String
  boundAt : ℚ
  lastUsed : ℚ
  expiresAt : ℚ
deriving DecidableEq, Repr

structure Witness where
  witnessId : String
  dhPubKey : String
  timestamp : Int
deriving DecidableEq, Repr

/-- A lookup handle for the bundle of an agent. -/
structure LookupAlias where
  agentId : String
  updatedAt : ℚ
  expiresAt : Int
  maxUses : Int
  useCount : Int
  lastUsedAt : ℚ
deriving DecidableEq, Repr

/-- The nonces of one agent with their expiry, in the order of insertion. -/
abbrev NonceCache := OrderedMap String ℚ

/-- A relay. A table without an entry for a key holds `none` or the empty collection there. -/
structure Relay where
  mailboxes : String → List DMMessage := fun _ => []
  dhKeys : String → Option DhKey := fun _ => none
  prekeyBundles : String → Option PrekeyBundle := fun _ => none
  /-- By agent and kind of mailbox. -/
  mailboxBindings : String → String → Option MailboxBinding := fun _ _ => none
  witnesses : String → List Witness := fun _ => []
  blocks : String → Finset String := fun _ => ∅
  nonceCaches : OrderedMap String NonceCache := []
  prekeyLookupAliases : String → Option LookupAlias := fun _ => none

section Model

variable (env : RelayEnv)

/-! ## Hashes -/

def pepperToken (token : String) : String := env.sha256 (env.tokenPepper ++ "|" ++ token)

def hashedMailboxToken (token : String) : String := env.sha256 token

def legacySenderBlockRef (senderId : String) : String :=
  let sender := strip senderId
  if sender = "" then "" else "ref:" ++ pepperToken env ("block|" ++ sender)

def senderBlockScope (recipientId recipientToken deliveryClass : String) : String :=
  let recipient := strip recipientId
  if recipient ≠ "" then "recipient|" ++ recipient
  else
    let token := strip recipientToken
    if token ≠ "" ∧ env.rt.lower (strip deliveryClass) = "shared" then
      "shared|" ++ hashedMailboxToken env token
    else ""

def senderBlockRef (senderId scope : String) : String :=
  let sender := strip senderId
  if sender = "" then ""
  else
    let material := if scope ≠ "" then "block|" ++ scope ++ "|" ++ sender else "block|" ++ sender
    "ref:" ++ pepperToken env material

/-- The references under which a sender may be blocked. -/
def senderBlockRefs (senderId recipientId recipientToken deliveryClass : String) : Finset String :=
  ({legacySenderBlockRef env senderId, senderBlockRef env senderId
    (senderBlockScope env recipientId recipientToken deliveryClass)} : Finset String).filter (· ≠ "")

def canonicalBlockedId (blockedId scope : String) : String :=
  let blocked := strip blockedId
  if blocked = "" then ""
  else if startsWith blocked "ref:" then blocked
  else senderBlockRef env blocked scope

def messageBlockRef (message : DMMessage) : String :=
  let blockRef := strip message.senderBlockRef
  if blockRef ≠ "" then blockRef
  else
    let senderId := strip message.senderId
    if senderId = "" ∨ startsWith senderId "sealed:" ∨ startsWith senderId "sender_token:" then ""
    else legacySenderBlockRef env senderId

def epochBucket (now : ℚ) : Int := (now / epochSeconds).floor

/-- `_mailbox_key` for the kinds that change with the epoch. -/
def mailboxKey (mailboxType mailboxValue : String) (epoch : Int) : String :=
  pepperToken env (mailboxType ++ "|" ++ toString epoch ++ "|" ++ mailboxValue)

/-! ## Bindings -/

def mailboxBindingIdleTtlSeconds : Nat := min env.cfg.mailboxBindingTtlSeconds (12 * 60 * 60)

def mailboxBindingRefreshAfterSeconds : Nat :=
  max (15 * 60) (min env.cfg.mailboxBindingTtlSeconds (12 * 60 * 60))

def mailboxBindingExpiresAt (boundAt lastUsed : ℚ) : ℚ :=
  if boundAt ≤ 0 then 0
  else min (boundAt + env.cfg.mailboxBindingTtlSeconds)
    (lastUsed + mailboxBindingIdleTtlSeconds env)

/-- `_coerce_mailbox_binding_entry`: nothing for an entry without a token. -/
def coerceMailboxBindingEntry (now : ℚ) (entry : MailboxBinding) : Option MailboxBinding :=
  let tokenHash := strip entry.tokenHash
  let boundAt := if entry.boundAt = 0 then now else entry.boundAt
  let lastUsed := if entry.lastUsed = 0 then boundAt else entry.lastUsed
  if tokenHash = "" then none
  else some { tokenHash, boundAt, lastUsed,
              expiresAt := mailboxBindingExpiresAt env boundAt lastUsed }

/-- What is left of a binding at a time. -/
def liveBinding (now : ℚ) (entry : MailboxBinding) : Option MailboxBinding :=
  (coerceMailboxBindingEntry env now entry).filter fun normalized => now ≤ normalized.expiresAt

def pruneStaleMailboxBindings (now : ℚ) (s : Relay) : Relay :=
  { s with mailboxBindings := fun agentId kind =>
      (s.mailboxBindings agentId kind).bind (liveBinding env now) }

/-! ## Pruning -/

def DhKey.stale (now : ℚ) (entry : DhKey) : Bool :=
  env.cfg.dmKeyTtlSeconds < now - entry.timestamp

def PrekeyBundle.stale (now : ℚ) (entry : PrekeyBundle) : Bool :=
  env.cfg.dmKeyTtlSeconds < now - entry.updatedAt

/-- The alias is past its dates or its uses. -/
def LookupAlias.stale (now : ℚ) (record : LookupAlias) : Bool :=
  env.cfg.prekeyLookupAliasTtlSeconds < now - record.updatedAt ∨
    (0 < record.expiresAt ∧ (record.expiresAt : ℚ) < now) ∨
    (0 < record.maxUses ∧ record.maxUses ≤ record.useCount)

def pruneStaleMetadata (now : ℚ) (s : Relay) : Relay :=
  let prekeyBundles := fun agentId => (s.prekeyBundles agentId).filter fun e => !e.stale env now
  pruneStaleMailboxBindings env now { s with
    dhKeys := fun agentId => (s.dhKeys agentId).filter fun e => !e.stale env now
    prekeyBundles
    prekeyLookupAliases := fun handle => (s.prekeyLookupAliases handle).filter fun record =>
      record.agentId ≠ "" && (prekeyBundles record.agentId).isSome && !record.stale env now
    witnesses := fun targetId => (s.witnesses targetId).filter fun witness =>
      now - witness.timestamp ≤ env.cfg.witnessTtlSeconds }

/-- The message is not yet expired. -/
def DMMessage.fresh (now : ℚ) (m : DMMessage) : Bool :=
  ((PyFloat.finite now).sub m.timestamp).lt (.finite ttlSeconds)

def cleanupExpired (now : ℚ) (s : Relay) : Relay :=
  { s with mailboxes := fun key => (s.mailboxes key).filter (DMMessage.fresh now) }

/-! ## The file -/

/-- What `_flush` writes. -/
structure RelayFile where
  dhKeys : String → Option DhKey
  prekeyBundles : String → Option PrekeyBundle
  prekeyLookupAliases : String → Option LookupAlias
  witnesses : String → List Witness
  blocks : String → Finset String
  nonceCaches : OrderedMap String NonceCache
  /-- Only where metadata are persisted. -/
  mailboxBindings : Option (String → String → Option MailboxBinding)
  /-- Only where the spool is persisted. -/
  mailboxes : Option (String → List DMMessage)

/-- The payload of `_flush`. -/
def filePayload (s : Relay) : RelayFile where
  dhKeys := s.dhKeys
  prekeyBundles := s.prekeyBundles
  prekeyLookupAliases := s.prekeyLookupAliases
  witnesses := s.witnesses
  blocks := s.blocks
  nonceCaches := s.nonceCaches
  mailboxBindings := if env.cfg.metadataPersistEnabled then
      some fun agentId kind => (s.mailboxBindings agentId kind).filter fun entry =>
        strip entry.tokenHash ≠ ""
    else none
  mailboxes := if env.cfg.persistSpoolEnabled then some s.mailboxes else none

/-- A message that is read back has a reference, if its sender is known. -/
def restoreMessage (message : DMMessage) : DMMessage :=
  if message.senderBlockRef = "" then
    { message with senderBlockRef := messageBlockRef env message }
  else message

/-- The nonces of an agent that are read back: those that are live, by their expiry. -/
def restoreNonces (now : ℚ) (entries : NonceCache) : NonceCache :=
  (entries.filter fun entry => now < entry.2).insertionSort fun a b => a.2 ≤ b.2

/-- `_load` of a fresh relay. -/
def load (now : ℚ) (file : RelayFile) : Relay :=
  pruneStaleMetadata env now {
    dhKeys := file.dhKeys
    prekeyBundles := file.prekeyBundles
    prekeyLookupAliases := file.prekeyLookupAliases
    witnesses := file.witnesses
    blocks := fun agentId => ((file.blocks agentId).filter fun v => strip v ≠ "").image
      fun v => canonicalBlockedId env v ""
    nonceCaches := (file.nonceCaches.map fun entry => (entry.1, restoreNonces now entry.2)).filter
      fun entry => entry.2 ≠ []
    mailboxes := match env.cfg.persistSpoolEnabled, file.mailboxes with
      | true, some mailboxes => fun key => (mailboxes key).map (restoreMessage env)
      | _, _ => fun _ => []
    mailboxBindings := match env.cfg.metadataPersistEnabled, file.mailboxBindings with
      | true, some bindings => fun agentId kind =>
          (bindings agentId kind).bind (coerceMailboxBindingEntry env now)
      | _, _ => fun _ _ => none }

end Model

end Vincent.Dm
