-- SUMMARY: Deposits, replicas, claims and blocks on a DM relay.
import Vincent.Dm.Relay

/-!
# Mailboxes

A request goes to the mailbox of the epoch, its replica to that of the token that the
recipient has bound. A claim rebinds the token and reads four mailboxes. A block
purges the mailboxes that a recipient reads, and a deposit looks the blocks up.
-/

namespace Vincent.Dm

open Vincent.Python

section Model

variable (env : RelayEnv)

/-! ## Limits -/

def mailboxLimitForClass (deliveryClass : String) : Nat :=
  if deliveryClass = "request" then env.cfg.requestMailboxLimit
  else if deliveryClass = "shared" then env.cfg.sharedMailboxLimit
  else env.cfg.selfMailboxLimit

def perSenderPendingCount (key ref : String) (s : Relay) : Nat :=
  if key = "" ∨ ref = "" then 0
  else (s.mailboxes key).countP fun m => m.senderBlockRef = ref

/-- A message is appended to a mailbox. -/
def append (key : String) (m : DMMessage) (s : Relay) : Relay :=
  { s with mailboxes := Function.update s.mailboxes key (s.mailboxes key ++ [m]) }

/-! ## Deposits -/

/-- The arguments of `deposit`, with the message id that it makes up if none is given. -/
structure Deposit where
  senderId : String
  rawSenderId : String := ""
  recipientId : String := ""
  ciphertext : String
  msgId : String := ""
  freshId : String := "dm"
  deliveryClass : String
  recipientToken : String := ""
  senderSeal : String := ""
  senderTokenHash : String := ""
  payloadFormat : String := "dm1"
  sessionWelcome : String := ""

namespace Deposit

variable (d : Deposit)

def authoritySender : String := strip (if d.rawSenderId ≠ "" then d.rawSenderId else d.senderId)

def blockRef : String :=
  senderBlockRef env d.authoritySender
    (senderBlockScope env d.recipientId d.recipientToken d.deliveryClass)

def blockedRefs : Finset String :=
  senderBlockRefs env d.authoritySender d.recipientId d.recipientToken d.deliveryClass

def id : String := if d.msgId = "" then d.freshId else d.msgId

/-- The mailbox of the deposit, or why there is none. -/
def mailbox (now : ℚ) : Except String String :=
  if d.deliveryClass = "request" then
    if d.senderTokenHash = "" then .error "sender_token required for request delivery"
    else .ok (mailboxKey env "requests" d.recipientId (epochBucket now))
  else if d.deliveryClass = "shared" then
    if d.recipientToken = "" then .error "recipient_token required for shared delivery"
    else .ok (hashedMailboxToken env d.recipientToken)
  else .error "Unsupported delivery_class"

/-- The message that is stored. -/
def message (now : ℚ) : DMMessage where
  senderId := if d.senderTokenHash ≠ "" then "sender_token:" ++ d.senderTokenHash else d.senderId
  ciphertext := d.ciphertext
  timestamp := .finite now
  msgId := d.id
  deliveryClass := d.deliveryClass
  senderSeal := d.senderSeal
  senderBlockRef := d.blockRef env
  payloadFormat := if d.payloadFormat = "" then "dm1" else d.payloadFormat
  sessionWelcome := d.sessionWelcome

end Deposit

/-- What a deposit or a replica comes to: the message id, and whether it was held already. -/
structure Receipt where
  msgId : String
  duplicate : Bool := false
deriving DecidableEq, Repr

def deposit (now : ℚ) (d : Deposit) (s : Relay) : Relay × Except String Receipt :=
  if d.recipientId ≠ "" ∧ ∃ ref ∈ d.blockedRefs env, ref ∈ s.blocks d.recipientId then
    (s, .error "Recipient is not accepting your messages")
  else if env.cfg.maxMsgBytes < d.ciphertext.length then
    (s, .error ("Message too large (" ++ toString d.ciphertext.length ++ " > " ++
      toString env.cfg.maxMsgBytes ++ ")"))
  else
    let s := cleanupExpired now s
    match d.mailbox env now with
    | .error detail => (s, .error detail)
    | .ok key =>
      let pending := perSenderPendingCount key (d.blockRef env) s
      if mailboxLimitForClass env d.deliveryClass ≤ (s.mailboxes key).length then
        (s, .error "Recipient mailbox full")
      else if env.cfg.perSenderPendingLimit ≤ pending then
        (s, .error ("Recipient already has " ++ toString pending ++ " unread message" ++
          (if pending ≠ 1 then "s" else "") ++
          " from you. Wait for them to read your messages before sending more."))
      else if (s.mailboxes key).any fun m => m.msgId = d.id then
        (s, .ok { msgId := d.id, duplicate := true })
      else (append key (d.message env now) s, .ok { msgId := d.id })

/-! ## Bindings -/

/-- The token that an agent has bound, once the bindings are pruned. Pruning leaves every entry
    normalized. -/
def boundToken (now : ℚ) (agentId mailboxType : String) (s : Relay) : String :=
  (((s.mailboxBindings (strip agentId) mailboxType).bind (liveBinding env now)).map
    (·.tokenHash)).getD ""

/-- The binding to a token that is used now. -/
def refreshedBinding (now : ℚ) (tokenHash : String) (current : Option MailboxBinding) :
    MailboxBinding :=
  let boundAt := match current with
    | some entry =>
      if entry.tokenHash = tokenHash ∧
          now - entry.boundAt < mailboxBindingRefreshAfterSeconds env then entry.boundAt
      else now
    | none => now
  { tokenHash, boundAt, lastUsed := now, expiresAt := mailboxBindingExpiresAt env boundAt now }

def rememberMailboxBinding (now : ℚ) (agentId mailboxType token : String) (s : Relay) : Relay :=
  let s := pruneStaleMailboxBindings env now s
  let bindings := s.mailboxBindings (strip agentId)
  let entry := refreshedBinding env now (hashedMailboxToken env token) (bindings mailboxType)
  let bindings := Function.update bindings mailboxType (some entry)
  { s with mailboxBindings := Function.update s.mailboxBindings (strip agentId) bindings }

/-- `mailbox_key_for_delivery` of a request. -/
def requestKeyForDelivery (now : ℚ) (recipientId : String) (s : Relay) : String :=
  let bound := boundToken env now recipientId "requests" s
  if bound ≠ "" then bound else mailboxKey env "requests" (strip recipientId) (epochBucket now)

/-! ## Replicas -/

/-- What `accept_replica` reads of an envelope. -/
structure Replica where
  msgId : String
  mailboxKey : String
  senderBlockRef : String
  ciphertext : String
  deliveryClass : String
  recipientId : String
  recipientToken : String

def readReplica (envelope : Dict) (localNodeId : String) : Replica :=
  let field k := strip (Dict.text env.rt envelope k)
  let deliveryClass := env.rt.lower (field "delivery_class")
  let recipientId := field "recipient_id"
  let recipientToken := field "recipient_token"
  let deliveryClass :=
    if deliveryClass ∈ ["request", "shared", "self"] then deliveryClass
    else if recipientId ≠ "" ∧ recipientToken = "" then "request"
    else if recipientToken ≠ "" then "shared"
    else deliveryClass
  { msgId := field "msg_id", mailboxKey := field "mailbox_key",
    senderBlockRef := field "sender_block_ref", ciphertext := Dict.text env.rt envelope "ciphertext",
    deliveryClass, recipientToken
    recipientId := if deliveryClass = "request" ∧ recipientId = "" then strip localNodeId
      else recipientId }

/-- The relay and the mailbox that a replica is for. A lookup of the binding prunes. -/
def replicaMailbox (now : ℚ) (r : Replica) (s : Relay) : Relay × String :=
  if r.deliveryClass = "request" ∧ r.recipientId ≠ "" then
    (pruneStaleMailboxBindings env now s, requestKeyForDelivery env now r.recipientId s)
  else if r.deliveryClass = "shared" ∧ r.recipientToken ≠ "" then
    (s, hashedMailboxToken env r.recipientToken)
  else (s, r.mailboxKey)

/-- The message that is stored for an envelope. -/
def replicaMessage (envelope : Dict) (r : Replica) (timestamp : PyFloat) : DMMessage where
  senderId := Dict.text env.rt envelope "sender_id"
  ciphertext := r.ciphertext
  timestamp
  msgId := r.msgId
  deliveryClass := ((Dict.get envelope "delivery_class" (.str "shared")).or (.str "shared")).toStr env.rt
  senderSeal := Dict.text env.rt envelope "sender_seal"
  relaySalt := Dict.text env.rt envelope "relay_salt"
  senderBlockRef := r.senderBlockRef
  payloadFormat := ((Dict.get envelope "payload_format" (.str "dm1")).or (.str "dm1")).toStr env.rt
  sessionWelcome := Dict.text env.rt envelope "session_welcome"

/-- `accept_replica` of an envelope, at a node with the given DM identity. -/
def acceptReplica (now : ℚ) (localNodeId : String) (envelope : Dict) (s : Relay) :
    Relay × Except String Receipt :=
  let r := readReplica env envelope localNodeId
  let (s, key) := replicaMailbox env now r s
  if r.msgId = "" ∨ key = "" ∨ r.senderBlockRef = "" ∨ r.ciphertext = "" then
    (s, .error "envelope missing required fields")
  else
    let s := cleanupExpired now s
    let classLimit := if r.deliveryClass ∈ ["request", "shared", "self"] then
        mailboxLimitForClass env r.deliveryClass
      else env.cfg.sharedMailboxLimit
    if (s.mailboxes key).any fun m => m.msgId = r.msgId then
      (s, .ok { msgId := r.msgId, duplicate := true })
    else if classLimit ≤ (s.mailboxes key).length then (s, .error "Recipient mailbox full")
    else if env.cfg.perSenderPendingLimit ≤ perSenderPendingCount key r.senderBlockRef s then
      (s, .error "Per-sender cap reached on this relay; refusing replica")
    else
      let stamp := (Dict.get envelope "timestamp" (.float (.finite now))).or (.float (.finite now))
      match pyFloat env.rt stamp with
      | .error exn => (s, .error exn)
      | .ok timestamp =>
        (append key (replicaMessage env envelope r timestamp) s, .ok { msgId := r.msgId })

/-! ## Claims -/

structure MailboxClaim where
  type : String
  token : String := ""
deriving DecidableEq, Repr

/-- The kind of mailbox whose token the claim binds, if it does. -/
def MailboxClaim.binds (claim : MailboxClaim) : Option String :=
  let type := env.rt.lower (strip claim.type)
  if (type = "requests" ∨ type = "self") ∧ strip claim.token ≠ "" then some type else none

def mailboxKeysForClaim (now : ℚ) (agentId : String) (claim : MailboxClaim) (s : Relay) :
    Relay × List String :=
  let token := strip claim.token
  match claim.binds env with
  | some type =>
    (rememberMailboxBinding env now agentId type token s,
      [boundToken env now agentId type s, hashedMailboxToken env token,
        mailboxKey env type agentId (epochBucket now),
        mailboxKey env type agentId (epochBucket now - 1)].filter fun key => key ≠ "")
  | none =>
    (s, if env.rt.lower (strip claim.type) = "shared" ∧ token ≠ "" then
        [hashedMailboxToken env token] else [])

/-- The relay after the first claims of a call, and the mailboxes that they read. -/
def claimKeys (now : ℚ) (agentId : String) : List MailboxClaim → Relay → Relay × List String
  | [], s => (s, [])
  | claim :: claims, s =>
    let (s, keys) := mailboxKeysForClaim env now agentId claim s
    let (s, more) := claimKeys now agentId claims s
    (s, keys ++ more)

/-- The messages of the mailboxes, each id once. -/
def readMailboxes (mailboxes : String → List DMMessage) (keys : List String) : List DMMessage :=
  (keys.flatMap mailboxes).foldl
    (fun read m => if read.any fun m' => m'.msgId = m.msgId then read else read ++ [m]) []

/-- In the order of their timestamps. -/
def sortMessages (messages : List DMMessage) : List DMMessage :=
  messages.insertionSort fun a b => (b.timestamp.lt a.timestamp) = false

/-- `_collect_from_keys` with `destructive=True`: the messages, and whether more are left. -/
def collectFromKeys (keys : List String) (limit : Nat) (s : Relay) :
    Relay × List DMMessage × Bool :=
  let messages := sortMessages (readMailboxes s.mailboxes keys)
  if 0 < limit ∧ limit < messages.length then
    let kept := messages.take limit
    ({ s with mailboxes := fun key =>
        if key ∈ keys then
          (s.mailboxes key).filter fun m => !(kept.any fun m' => m'.msgId = m.msgId)
        else s.mailboxes key }, kept, true)
  else
    ({ s with mailboxes := fun key => if key ∈ keys then [] else s.mailboxes key }, messages, false)

def collectClaims (now : ℚ) (agentId : String) (claims : List MailboxClaim) (limit : Nat)
    (s : Relay) : Relay × List DMMessage × Bool :=
  let (s, keys) := claimKeys env now agentId (claims.take 32) (cleanupExpired now s)
  collectFromKeys keys.dedup limit s

/-- `count_claims` and `claim_message_ids`: the messages that a claim would collect. -/
def peekClaims (now : ℚ) (agentId : String) (claims : List MailboxClaim) (s : Relay) :
    Relay × List DMMessage :=
  let (s, keys) := claimKeys env now agentId (claims.take 32) (cleanupExpired now s)
  (s, sortMessages (readMailboxes s.mailboxes keys.dedup))

def countClaims (now : ℚ) (agentId : String) (claims : List MailboxClaim) (s : Relay) :
    Relay × Nat :=
  let (s, messages) := peekClaims env now agentId claims s
  (s, messages.length)

def claimMessageIds (now : ℚ) (agentId : String) (claims : List MailboxClaim) (s : Relay) :
    Relay × List String :=
  let (s, messages) := peekClaims env now agentId claims s
  (s, (messages.map (·.msgId)).filter fun id => id ≠ "")

/-! ## Blocks -/

def legacyMailboxToken (agentId : String) (epoch : Int) : String :=
  env.sha256 ("sb_dm|" ++ toString epoch ++ "|" ++ agentId)

/-- The mailboxes that a block purges. -/
def purgeKeys (now : ℚ) (agentId : String) (s : Relay) : List String :=
  let epoch := epochBucket now
  let raw := [legacyMailboxToken env agentId epoch, legacyMailboxToken env agentId (epoch - 1)]
  raw.map (pepperToken env) ++ raw ++
    [boundToken env now agentId "requests" s, boundToken env now agentId "self" s].filter (· ≠ "") ++
    [mailboxKey env "self" agentId epoch, mailboxKey env "requests" agentId epoch,
      mailboxKey env "self" agentId (epoch - 1), mailboxKey env "requests" agentId (epoch - 1)]

/-- The reference under which an agent blocks a sender. -/
def blockedRef (agentId blockedId : String) : String :=
  canonicalBlockedId env blockedId (senderBlockScope env agentId "" "request")

/-- The reference without a scope, if the blocked id is no reference. -/
def legacyBlockedRef (blockedId : String) : Option String :=
  let label := strip blockedId
  if label ≠ "" ∧ ¬ startsWith label "ref:" then some (legacySenderBlockRef env label) else none

def block (now : ℚ) (agentId blockedId : String) (s : Relay) : Relay :=
  let ref := blockedRef env agentId blockedId
  if ref = "" then s
  else
    let keys := purgeKeys env now agentId s
    let s := pruneStaleMailboxBindings env now s
    { s with
      blocks := Function.update s.blocks agentId (insert ref (s.blocks agentId))
      mailboxes := fun key =>
        if key ∈ keys then (s.mailboxes key).filter fun m =>
          messageBlockRef env m ≠ ref ∧ some (messageBlockRef env m) ≠ legacyBlockedRef env blockedId
        else s.mailboxes key }

def unblock (agentId blockedId : String) (s : Relay) : Relay :=
  let ref := blockedRef env agentId blockedId
  if ref = "" then s
  else
    let refs := (s.blocks agentId).filter fun r => r ≠ ref ∧ some r ≠ legacyBlockedRef env blockedId
    { s with blocks := Function.update s.blocks agentId refs }

end Model

/-! ## What an operation does -/

section

variable {env : RelayEnv} {now : ℚ} {d : Deposit} {s : Relay}

@[simp] theorem Deposit.message_senderBlockRef :
    (d.message env now).senderBlockRef = d.blockRef env := by
  simp only [Deposit.message]

@[simp] theorem Deposit.message_msgId : (d.message env now).msgId = d.id := by
  simp only [Deposit.message]

@[simp] theorem Deposit.message_timestamp : (d.message env now).timestamp = .finite now := by
  simp only [Deposit.message]

/-- The deposit is stored in a mailbox. -/
structure Deposit.Stored (env : RelayEnv) (now : ℚ) (d : Deposit) (s : Relay) (key : String) :
    Prop where
  mailbox : d.mailbox env now = .ok key
  unblocked : d.recipientId = "" ∨ ∀ ref ∈ d.blockedRefs env, ref ∉ s.blocks d.recipientId
  room : ((cleanupExpired now s).mailboxes key).length < mailboxLimitForClass env d.deliveryClass
  pending : perSenderPendingCount key (d.blockRef env) (cleanupExpired now s) <
    env.cfg.perSenderPendingLimit
  new : ∀ m ∈ (cleanupExpired now s).mailboxes key, m.msgId ≠ d.id

/-- A deposit leaves the relay, or cleans it up, or stores its message. -/
theorem deposit_cases (env : RelayEnv) (now : ℚ) (d : Deposit) (s : Relay) :
    (((deposit env now d s).1 = s ∨ (deposit env now d s).1 = cleanupExpired now s) ∧
      ∀ r, (deposit env now d s).2 = .ok r → r.duplicate = true) ∨
    ∃ key, d.Stored env now s key ∧ deposit env now d s =
      (append key (d.message env now) (cleanupExpired now s), .ok { msgId := d.id }) := by
  unfold deposit
  split_ifs with hblocked hsize
  · exact .inl ⟨.inl rfl, fun r hr => by cases hr⟩
  · exact .inl ⟨.inl rfl, fun r hr => by cases hr⟩
  · dsimp only
    cases hkey : d.mailbox env now with
    | error detail => exact .inl ⟨.inr rfl, fun r hr => by cases hr⟩
    | ok key =>
      dsimp only
      by_cases hfull : mailboxLimitForClass env d.deliveryClass ≤
        ((cleanupExpired now s).mailboxes key).length
      · rw [if_pos hfull]
        exact .inl ⟨.inr rfl, fun r hr => by cases hr⟩
      rw [if_neg hfull]
      by_cases hcap : env.cfg.perSenderPendingLimit ≤
        perSenderPendingCount key (d.blockRef env) (cleanupExpired now s)
      · rw [if_pos hcap]
        exact .inl ⟨.inr rfl, fun r hr => by cases hr⟩
      rw [if_neg hcap]
      split_ifs with hheld
      · exact .inl ⟨.inr rfl, fun r hr => by cases hr; rfl⟩
      · refine .inr ⟨key, ⟨hkey, ?_, not_le.mp hfull, not_le.mp hcap, ?_⟩, rfl⟩
        · rcases eq_or_ne d.recipientId "" with hrecipient | hrecipient
          · exact .inl hrecipient
          · exact .inr fun ref href hheld => hblocked ⟨hrecipient, ref, href, hheld⟩
        · simpa using hheld

variable {localNodeId : String} {envelope : Dict}

/-- The replica is stored, with the timestamp. -/
structure Replica.Stored (env : RelayEnv) (now : ℚ) (envelope : Dict) (r : Replica) (s : Relay)
    (timestamp : PyFloat) : Prop where
  msgId : r.msgId ≠ ""
  blockRef : r.senderBlockRef ≠ ""
  ciphertext : r.ciphertext ≠ ""
  key : (replicaMailbox env now r s).2 ≠ ""
  new : ∀ m ∈ (cleanupExpired now s).mailboxes (replicaMailbox env now r s).2, m.msgId ≠ r.msgId
  pending : perSenderPendingCount (replicaMailbox env now r s).2 r.senderBlockRef
    (cleanupExpired now s) < env.cfg.perSenderPendingLimit
  stamp : pyFloat env.rt ((Dict.get envelope "timestamp" (.float (.finite now))).or
    (.float (.finite now))) = .ok timestamp

theorem replicaMailbox_cases (env : RelayEnv) (now : ℚ) (r : Replica) (s : Relay) :
    (replicaMailbox env now r s).1 = s ∨
      (replicaMailbox env now r s).1 = pruneStaleMailboxBindings env now s := by
  unfold replicaMailbox
  split_ifs
  · exact .inr rfl
  · exact .inl rfl
  · exact .inl rfl

theorem replicaMailbox_mailboxes (env : RelayEnv) (now : ℚ) (r : Replica) (s : Relay) :
    (replicaMailbox env now r s).1.mailboxes = s.mailboxes := by
  rcases replicaMailbox_cases env now r s with h | h
  · rw [h]
  · rw [h]
    rfl

theorem replicaMailbox_blocks (env : RelayEnv) (now : ℚ) (r : Replica) (s : Relay) :
    (replicaMailbox env now r s).1.blocks = s.blocks := by
  rcases replicaMailbox_cases env now r s with h | h
  · rw [h]
  · rw [h]
    rfl

theorem cleanupExpired_mailboxes (now : ℚ) (s s' : Relay) (h : s.mailboxes = s'.mailboxes) :
    (cleanupExpired now s).mailboxes = (cleanupExpired now s').mailboxes := by
  unfold cleanupExpired
  rw [h]

theorem perSenderPendingCount_congr {s s' : Relay} (h : s.mailboxes = s'.mailboxes)
    (key ref : String) : perSenderPendingCount key ref s = perSenderPendingCount key ref s' := by
  unfold perSenderPendingCount
  rw [h]

/-- A replica leaves the relay up to its bindings, or cleans it up, or is stored. -/
theorem acceptReplica_cases (env : RelayEnv) (now : ℚ) (localNodeId : String) (envelope : Dict)
    (s : Relay) :
    (((acceptReplica env now localNodeId envelope s).1 =
          (replicaMailbox env now (readReplica env envelope localNodeId) s).1 ∨
        (acceptReplica env now localNodeId envelope s).1 = cleanupExpired now
          (replicaMailbox env now (readReplica env envelope localNodeId) s).1) ∧
      ∀ r, (acceptReplica env now localNodeId envelope s).2 = .ok r → r.duplicate = true) ∨
    ∃ timestamp, (readReplica env envelope localNodeId).Stored env now envelope s timestamp ∧
      acceptReplica env now localNodeId envelope s =
        (append (replicaMailbox env now (readReplica env envelope localNodeId) s).2
          (replicaMessage env envelope (readReplica env envelope localNodeId) timestamp)
          (cleanupExpired now
            (replicaMailbox env now (readReplica env envelope localNodeId) s).1),
          .ok { msgId := (readReplica env envelope localNodeId).msgId }) := by
  unfold acceptReplica
  generalize readReplica env envelope localNodeId = r
  dsimp only
  generalize (if r.deliveryClass ∈ ["request", "shared", "self"] then
    mailboxLimitForClass env r.deliveryClass else env.cfg.sharedMailboxLimit) = limit
  have hmailboxes := cleanupExpired_mailboxes now _ _ (replicaMailbox_mailboxes env now r s)
  have hcount := perSenderPendingCount_congr hmailboxes (replicaMailbox env now r s).2
    r.senderBlockRef
  by_cases hmissing :
    r.msgId = "" ∨ (replicaMailbox env now r s).2 = "" ∨ r.senderBlockRef = "" ∨ r.ciphertext = ""
  · rw [if_pos hmissing]
    exact .inl ⟨.inl rfl, fun r hr => by cases hr⟩
  rw [if_neg hmissing]
  push Not at hmissing
  obtain ⟨hid, hkey, href, htext⟩ := hmissing
  split_ifs with hheld hfull hcap
  · exact .inl ⟨.inr rfl, fun r hr => by cases hr; rfl⟩
  · exact .inl ⟨.inr rfl, fun r hr => by cases hr⟩
  · exact .inl ⟨.inr rfl, fun r hr => by cases hr⟩
  · cases hstamp : pyFloat env.rt ((Dict.get envelope "timestamp" (.float (.finite now))).or
      (.float (.finite now))) with
    | error exn => exact .inl ⟨.inr rfl, fun r hr => by cases hr⟩
    | ok timestamp =>
      refine .inr ⟨timestamp, ⟨hid, href, htext, hkey, ?_, ?_, hstamp⟩, rfl⟩
      · rw [hmailboxes] at hheld
        simpa using hheld
      · exact hcount ▸ not_le.mp hcap

/-! ## Claims touch mailboxes only by collecting -/

variable {agentId : String}

theorem mailboxKeysForClaim_mailboxes (claim : MailboxClaim) (s : Relay) :
    (mailboxKeysForClaim env now agentId claim s).1.mailboxes = s.mailboxes := by
  unfold mailboxKeysForClaim
  dsimp only
  split <;> rfl

theorem mailboxKeysForClaim_blocks (claim : MailboxClaim) (s : Relay) :
    (mailboxKeysForClaim env now agentId claim s).1.blocks = s.blocks := by
  unfold mailboxKeysForClaim
  dsimp only
  split <;> rfl

theorem claimKeys_mailboxes (claims : List MailboxClaim) (s : Relay) :
    (claimKeys env now agentId claims s).1.mailboxes = s.mailboxes := by
  induction claims generalizing s with
  | nil => rfl
  | cons claim claims ih => exact (ih _).trans (mailboxKeysForClaim_mailboxes claim s)

theorem claimKeys_blocks (claims : List MailboxClaim) (s : Relay) :
    (claimKeys env now agentId claims s).1.blocks = s.blocks := by
  induction claims generalizing s with
  | nil => rfl
  | cons claim claims ih => exact (ih _).trans (mailboxKeysForClaim_blocks claim s)

theorem collectFromKeys_blocks (keys : List String) (limit : Nat) (s : Relay) :
    (collectFromKeys keys limit s).1.blocks = s.blocks := by
  unfold collectFromKeys
  dsimp only
  split <;> rfl

theorem collectFromKeys_sublist (keys : List String) (limit : Nat) (s : Relay) (key : String) :
    ((collectFromKeys keys limit s).1.mailboxes key).Sublist (s.mailboxes key) := by
  unfold collectFromKeys
  dsimp only
  split <;> dsimp only <;> split
  · exact List.filter_sublist
  · exact List.Sublist.refl _
  · exact List.nil_sublist _
  · exact List.Sublist.refl _

theorem collectClaims_blocks (claims : List MailboxClaim) (limit : Nat) (s : Relay) :
    (collectClaims env now agentId claims limit s).1.blocks = s.blocks :=
  (collectFromKeys_blocks _ _ _).trans (claimKeys_blocks _ _)

theorem collectClaims_sublist (claims : List MailboxClaim) (limit : Nat) (s : Relay)
    (key : String) :
    ((collectClaims env now agentId claims limit s).1.mailboxes key).Sublist (s.mailboxes key) := by
  refine (collectFromKeys_sublist _ _ _ _).trans ?_
  rw [claimKeys_mailboxes]
  exact List.filter_sublist

theorem load_mailboxes (env : RelayEnv) (now : ℚ) (file : RelayFile) :
    (load env now file).mailboxes = (fun _ => []) ∨
      ∃ mailboxes, file.mailboxes = some mailboxes ∧
        (load env now file).mailboxes = fun key => (mailboxes key).map (restoreMessage env) := by
  unfold load pruneStaleMetadata pruneStaleMailboxBindings
  dsimp only
  cases env.cfg.persistSpoolEnabled with
  | false => exact .inl rfl
  | true =>
    cases file.mailboxes with
    | none => exact .inl rfl
    | some mailboxes => exact .inr ⟨mailboxes, rfl, rfl⟩

end

/-! ## References -/

section

variable {env : RelayEnv}

theorem strip_ref (material : String) :
    strip ("ref:" ++ pepperToken env material) = "ref:" ++ pepperToken env material := by
  apply strip_of_no_space
  intro c hc
  rw [String.toList_append, List.mem_append] at hc
  rcases hc with hc | hc
  · have hletters : "ref:".toList = ['r', 'e', 'f', ':'] := rfl
    simp only [hletters, List.mem_cons, List.not_mem_nil, or_false] at hc
    rcases hc with rfl | rfl | rfl | rfl <;> rfl
  · exact env.sha256_no_space _ c hc

theorem ref_ne_empty (material : String) : "ref:" ++ pepperToken env material ≠ "" := by
  simp [String.ext_iff]

theorem startsWith_ref (hash : String) : startsWith ("ref:" ++ hash) "ref:" = true := by
  simp [startsWith]

theorem messageBlockRef_of_ref {m : DMMessage} (h : strip m.senderBlockRef ≠ "") :
    messageBlockRef env m = strip m.senderBlockRef := by
  unfold messageBlockRef
  rw [if_pos h]

theorem strip_legacySenderBlockRef (senderId : String) :
    strip (legacySenderBlockRef env senderId) = legacySenderBlockRef env senderId := by
  unfold legacySenderBlockRef
  dsimp only
  split
  · rfl
  · exact strip_ref _

theorem strip_messageBlockRef {m : DMMessage} (h : m.senderBlockRef = "") :
    strip (messageBlockRef env m) = messageBlockRef env m := by
  have hblank : ¬ strip m.senderBlockRef ≠ "" := by
    rw [h]
    decide
  unfold messageBlockRef
  rw [if_neg hblank]
  dsimp only
  split
  · rfl
  · exact strip_legacySenderBlockRef _

/-- Reading a message back keeps what it is known by. -/
theorem messageBlockRef_restore (m : DMMessage) :
    messageBlockRef env (restoreMessage env m) = messageBlockRef env m := by
  unfold restoreMessage
  split_ifs with hempty
  · by_cases hnone : messageBlockRef env m = ""
    · simp [hnone, ← hempty]
    · have hstrip : strip (messageBlockRef env m) = messageBlockRef env m :=
        strip_messageBlockRef hempty
      rw [messageBlockRef_of_ref (by rwa [hstrip]), hstrip]
  · rfl

end

end Vincent.Dm
