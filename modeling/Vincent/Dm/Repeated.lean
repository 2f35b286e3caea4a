-- SUMMARY: Depositing a message again, and distinct message ids.
import Vincent.Dm.Blocked

/-!
# Repeated deposits

A deposit looks for its message after it has checked the size, the mailbox and the
cap, in the mailbox of the present epoch; a replica is looked for first, in the
mailbox that its recipient has bound. Both clean up before.
-/

namespace Vincent.Dm.Repeated

open Vincent.Python Vincent.Run

section Model

variable (env : RelayEnv)

inductive MailAction where
  | deposit (d : Deposit)
  | acceptReplica (localNodeId : String) (envelope : Dict)
  | countClaims (agentId : String) (claims : List MailboxClaim)
  | claimMessageIds (agentId : String) (claims : List MailboxClaim)
  | collectClaims (agentId : String) (claims : List MailboxClaim) (limit : Nat)
  | block (agentId blockedId : String)
  | unblock (agentId blockedId : String)
  | cleanup
  | flush
  | reload

/-- An action at a time. -/
def mailStep (node : RelayNode) : ℚ × MailAction → RelayNode
  | (now, .deposit d) => { node with relay := (deposit env now d node.relay).1 }
  | (now, .acceptReplica localNodeId envelope) =>
    { node with relay := (acceptReplica env now localNodeId envelope node.relay).1 }
  | (now, .countClaims agentId claims) =>
    { node with relay := (countClaims env now agentId claims node.relay).1 }
  | (now, .claimMessageIds agentId claims) =>
    { node with relay := (claimMessageIds env now agentId claims node.relay).1 }
  | (now, .collectClaims agentId claims limit) =>
    { node with relay := (collectClaims env now agentId claims limit node.relay).1 }
  | (now, .block agentId blockedId) => { node with relay := block env now agentId blockedId node.relay }
  | (_, .unblock agentId blockedId) => { node with relay := unblock env agentId blockedId node.relay }
  | (now, .cleanup) => { node with relay := cleanupExpired now node.relay }
  | (now, .flush) => node.flush env now
  | (now, .reload) => node.reload env now

/-- The call says that the message is held already, and leaves the mailboxes as they were. -/
def Duplicated (result : Relay × Except String Receipt) (msgId : String) (s : Relay) : Prop :=
  result.2 = .ok { msgId, duplicate := true } ∧ result.1.mailboxes = s.mailboxes

/-- The recipient does not block the sender. -/
def Deposit.Unblocked (d : Deposit) (s : Relay) : Prop :=
  d.recipientId = "" ∨ ∀ ref ∈ d.blockedRefs env, ref ∉ s.blocks d.recipientId

/-- Nothing in the mailboxes is expired. -/
def NoneExpired (now : ℚ) (s : Relay) : Prop := ∀ key, ∀ m ∈ s.mailboxes key, m.fresh now = true

/-- The message is in the mailbox. -/
def Holds (key msgId : String) (s : Relay) : Prop := ∃ m ∈ s.mailboxes key, m.msgId = msgId

/-- The ciphertext fits, the mailbox holds the message and has room, and nothing is expired. -/
structure FindsDeposit (now : ℚ) (d : Deposit) (s : Relay) : Prop where
  size : d.ciphertext.length ≤ env.cfg.maxMsgBytes
  held : ∃ key, d.mailbox env now = .ok key ∧ Holds key d.msgId s ∧
    (s.mailboxes key).length < mailboxLimitForClass env d.deliveryClass ∧
    perSenderPendingCount key (d.blockRef env) s < env.cfg.perSenderPendingLimit
  unexpired : NoneExpired now s

/-- The envelope has the required fields, the mailbox that it goes to now holds the message, and
    nothing is expired. -/
structure FindsReplica (now : ℚ) (r : Replica) (s : Relay) : Prop where
  msgId : r.msgId ≠ ""
  blockRef : r.senderBlockRef ≠ ""
  ciphertext : r.ciphertext ≠ ""
  key : (replicaMailbox env now r s).2 ≠ ""
  held : Holds (replicaMailbox env now r s).2 r.msgId s
  unexpired : NoneExpired now s

/-- No mailbox holds an id twice. -/
def Distinct (mailboxes : String → List DMMessage) : Prop :=
  ∀ key, ((mailboxes key).map (·.msgId)).Nodup

/-- Neither the relay nor its file holds an id twice in a mailbox. -/
structure DistinctNode (node : RelayNode) : Prop where
  relay : Distinct node.relay.mailboxes
  file : ∀ file, node.file = some file → ∀ mailboxes, file.mailboxes = some mailboxes →
    Distinct mailboxes

end Model

/-! ## When a repeat is found -/

section

variable {env : RelayEnv} {now : ℚ} {d : Deposit} {s s' : Relay} {key msgId : String}

/-- A cleanup leaves the mailboxes as they are where nothing is expired, and only there. -/
theorem cleanupExpired_mailboxes_eq :
    (cleanupExpired now s).mailboxes = s.mailboxes ↔ NoneExpired now s := by
  constructor
  · intro h key m hm
    rw [← h] at hm
    exact (List.mem_filter.mp hm).2
  · intro h
    exact funext fun key => List.filter_eq_self.mpr (h key)

theorem any_msgId_iff {messages : List DMMessage} :
    (messages.any fun m => m.msgId = msgId) = true ↔ ∃ m ∈ messages, m.msgId = msgId := by
  simp

theorem deposit_duplicated_iff (hid : d.msgId ≠ "") (hunblocked : Deposit.Unblocked env d s) :
    Duplicated (deposit env now d s) d.msgId s ↔ FindsDeposit env now d s := by
  have hdid : d.id = d.msgId := if_neg hid
  have hblocked : ¬ (d.recipientId ≠ "" ∧ ∃ ref ∈ d.blockedRefs env, ref ∈ s.blocks d.recipientId) := by
    rintro ⟨hrecipient, ref, href, hheld⟩
    exact hunblocked.elim hrecipient fun hnone => hnone ref href hheld
  have hcount (key : String) (hkept : (cleanupExpired now s).mailboxes = s.mailboxes) :=
    perSenderPendingCount_congr hkept key (d.blockRef env)
  unfold Duplicated deposit
  rw [if_neg hblocked, hdid]
  constructor
  · rintro ⟨hresult, hmailboxes⟩
    by_cases hsize : env.cfg.maxMsgBytes < d.ciphertext.length
    · rw [if_pos hsize] at hresult
      cases hresult
    rw [if_neg hsize] at hresult hmailboxes
    dsimp only at hresult hmailboxes
    cases hkey : d.mailbox env now with
    | error detail =>
      rw [hkey] at hresult
      cases hresult
    | ok key =>
      rw [hkey] at hresult hmailboxes
      dsimp only at hresult hmailboxes
      by_cases hfull : mailboxLimitForClass env d.deliveryClass ≤
        ((cleanupExpired now s).mailboxes key).length
      · rw [if_pos hfull] at hresult
        cases hresult
      rw [if_neg hfull] at hresult hmailboxes
      by_cases hcap : env.cfg.perSenderPendingLimit ≤
        perSenderPendingCount key (d.blockRef env) (cleanupExpired now s)
      · rw [if_pos hcap] at hresult
        cases hresult
      rw [if_neg hcap] at hresult hmailboxes
      by_cases hheld : ((cleanupExpired now s).mailboxes key).any fun m => m.msgId = d.msgId
      · rw [if_pos hheld] at hmailboxes
        dsimp only at hmailboxes
        rw [hmailboxes] at hfull hheld
        rw [hcount key hmailboxes] at hcap
        exact ⟨not_lt.mp hsize, ⟨key, hkey, any_msgId_iff.mp hheld, not_le.mp hfull,
          not_le.mp hcap⟩, cleanupExpired_mailboxes_eq.mp hmailboxes⟩
      · rw [if_neg hheld] at hresult
        cases hresult
  · rintro ⟨hsize, ⟨key, hkey, hheld, hroom, hpending⟩, hexpired⟩
    have hmailboxes := cleanupExpired_mailboxes_eq.mpr hexpired
    rw [if_neg (not_lt.mpr hsize), hkey]
    dsimp only
    rw [hcount key hmailboxes, hmailboxes, if_neg (not_le.mpr hroom), if_neg (not_le.mpr hpending),
      if_pos (any_msgId_iff.mpr hheld)]
    exact ⟨rfl, hmailboxes⟩

variable {localNodeId : String} {envelope : Dict}

theorem acceptReplica_duplicated_iff :
    Duplicated (acceptReplica env now localNodeId envelope s)
        (readReplica env envelope localNodeId).msgId s ↔
      FindsReplica env now (readReplica env envelope localNodeId) s := by
  unfold Duplicated acceptReplica
  generalize readReplica env envelope localNodeId = r
  dsimp only
  generalize (if r.deliveryClass ∈ ["request", "shared", "self"] then
    mailboxLimitForClass env r.deliveryClass else env.cfg.sharedMailboxLimit) = limit
  have hmailboxes := replicaMailbox_mailboxes env now r s
  have hclean : (cleanupExpired now (replicaMailbox env now r s).1).mailboxes =
      (cleanupExpired now s).mailboxes := cleanupExpired_mailboxes now _ _ hmailboxes
  constructor
  · rintro ⟨hresult, hsame⟩
    by_cases hmissing : r.msgId = "" ∨ (replicaMailbox env now r s).2 = "" ∨
      r.senderBlockRef = "" ∨ r.ciphertext = ""
    · rw [if_pos hmissing] at hresult
      cases hresult
    rw [if_neg hmissing] at hresult hsame
    push Not at hmissing
    obtain ⟨hid, hkey, href, htext⟩ := hmissing
    by_cases hheld : ((cleanupExpired now (replicaMailbox env now r s).1).mailboxes
      (replicaMailbox env now r s).2).any fun m => m.msgId = r.msgId
    · rw [if_pos hheld] at hsame
      rw [hsame] at hheld
      exact ⟨hid, href, htext, hkey, any_msgId_iff.mp hheld,
        cleanupExpired_mailboxes_eq.mp (hclean ▸ hsame)⟩
    · rw [if_neg hheld] at hresult
      by_cases hfull : limit ≤ ((cleanupExpired now (replicaMailbox env now r s).1).mailboxes
        (replicaMailbox env now r s).2).length
      · rw [if_pos hfull] at hresult
        cases hresult
      rw [if_neg hfull] at hresult
      by_cases hcap : env.cfg.perSenderPendingLimit ≤ perSenderPendingCount
        (replicaMailbox env now r s).2 r.senderBlockRef
        (cleanupExpired now (replicaMailbox env now r s).1)
      · rw [if_pos hcap] at hresult
        cases hresult
      rw [if_neg hcap] at hresult
      split at hresult <;> cases hresult
  · rintro ⟨hid, href, htext, hkey, hheld, hexpired⟩
    have hsame := hclean.trans (cleanupExpired_mailboxes_eq.mpr hexpired)
    have hpresent : ¬ (r.msgId = "" ∨ (replicaMailbox env now r s).2 = "" ∨
        r.senderBlockRef = "" ∨ r.ciphertext = "") := by
      push Not
      exact ⟨hid, hkey, href, htext⟩
    rw [if_neg hpresent, hsame, if_pos (any_msgId_iff.mpr hheld)]
    exact ⟨rfl, hsame⟩

/-! ## Ids stay distinct -/

theorem Distinct.of_sublist (h : Distinct s.mailboxes)
    (hsub : ∀ key, (s'.mailboxes key).Sublist (s.mailboxes key)) : Distinct s'.mailboxes :=
  fun key => (h key).sublist ((hsub key).map _)

theorem cleanupExpired_sublist (key : String) :
    ((cleanupExpired now s).mailboxes key).Sublist (s.mailboxes key) :=
  List.filter_sublist

theorem Distinct.append (h : Distinct s.mailboxes) {m : DMMessage}
    (hnew : ∀ m' ∈ s.mailboxes key, m'.msgId ≠ m.msgId) :
    Distinct (append key m s).mailboxes := by
  intro key'
  unfold Dm.append
  dsimp only
  rcases eq_or_ne key' key with rfl | hne
  · rw [Function.update_self, List.map_append, List.map_singleton]
    refine List.nodup_append'.mpr ⟨h key', List.nodup_singleton _, ?_⟩
    intro id hid hid'
    obtain ⟨m', hm', rfl⟩ := List.mem_map.mp hid
    exact hnew m' hm' (List.mem_singleton.mp hid')
  · rw [Function.update_of_ne hne]
    exact h key'

theorem Distinct.deposit (h : Distinct s.mailboxes) :
    Distinct (deposit env now d s).1.mailboxes := by
  rcases deposit_cases env now d s with ⟨hsame, -⟩ | ⟨key, hstored, heq⟩
  · rcases hsame with hsame | hsame
    · rw [hsame]
      exact h
    · rw [hsame]
      exact h.of_sublist cleanupExpired_sublist
  · rw [heq]
    refine Distinct.append (h.of_sublist cleanupExpired_sublist) fun m hm => ?_
    rw [Deposit.message_msgId]
    exact hstored.new m hm

theorem Distinct.acceptReplica (h : Distinct s.mailboxes) :
    Distinct (acceptReplica env now localNodeId envelope s).1.mailboxes := by
  have hmailboxes := replicaMailbox_mailboxes env now (readReplica env envelope localNodeId) s
  have hclean := cleanupExpired_mailboxes now _ _ hmailboxes
  have hdistinct : Distinct (cleanupExpired now s).mailboxes := h.of_sublist cleanupExpired_sublist
  rcases acceptReplica_cases env now localNodeId envelope s with
    ⟨hsame, -⟩ | ⟨timestamp, hstored, heq⟩
  · rcases hsame with hsame | hsame
    · rw [hsame, hmailboxes]
      exact h
    · rw [hsame, hclean]
      exact hdistinct
  · rw [heq]
    refine Distinct.append (hclean ▸ hdistinct) fun m hm => ?_
    rw [hclean] at hm
    exact hstored.new m hm

theorem Distinct.peekClaims {agentId : String} {claims : List MailboxClaim}
    (h : Distinct s.mailboxes) : Distinct (peekClaims env now agentId claims s).1.mailboxes := by
  unfold Dm.peekClaims
  dsimp only
  rw [claimKeys_mailboxes]
  exact h.of_sublist cleanupExpired_sublist

theorem block_sublist (agentId blockedId key : String) :
    ((block env now agentId blockedId s).mailboxes key).Sublist (s.mailboxes key) := by
  unfold block
  dsimp only
  split
  · exact List.Sublist.refl _
  · dsimp only
    split
    · exact List.filter_sublist
    · exact List.Sublist.refl _

theorem unblock_sublist (agentId blockedId key : String) :
    ((unblock env agentId blockedId s).mailboxes key).Sublist (s.mailboxes key) := by
  unfold unblock
  dsimp only
  split
  · exact List.Sublist.refl _
  · exact List.Sublist.refl _

theorem Distinct.load {file : RelayFile}
    (h : ∀ mailboxes, file.mailboxes = some mailboxes → Distinct mailboxes) :
    Distinct (load env now file).mailboxes := by
  rcases load_mailboxes env now file with hspool | ⟨mailboxes, hspool, hload⟩
  · rw [hspool]
    exact fun _ => List.nodup_nil
  · rw [hload]
    intro key
    have hids : DMMessage.msgId ∘ restoreMessage env = DMMessage.msgId := by
      funext m
      dsimp only [Function.comp_apply]
      unfold restoreMessage
      split <;> rfl
    rw [List.map_map, hids]
    exact h mailboxes hspool key

theorem mailStep_distinct {node : RelayNode} (h : DistinctNode node) (a : ℚ × MailAction) :
    DistinctNode (mailStep env node a) := by
  obtain ⟨now, a⟩ := a
  cases a <;> dsimp only [mailStep]
  case deposit d => exact ⟨h.relay.deposit, h.file⟩
  case acceptReplica localNodeId envelope => exact ⟨h.relay.acceptReplica, h.file⟩
  case countClaims agentId claims => exact ⟨h.relay.peekClaims, h.file⟩
  case claimMessageIds agentId claims => exact ⟨h.relay.peekClaims, h.file⟩
  case collectClaims agentId claims limit =>
    exact ⟨h.relay.of_sublist (collectClaims_sublist claims limit node.relay), h.file⟩
  case block agentId blockedId => exact ⟨h.relay.of_sublist (block_sublist agentId blockedId), h.file⟩
  case unblock agentId blockedId =>
    have hdistinct : Distinct (unblock env agentId blockedId node.relay).mailboxes :=
      h.relay.of_sublist (unblock_sublist agentId blockedId)
    exact ⟨hdistinct, h.file⟩
  case cleanup => exact ⟨h.relay.of_sublist cleanupExpired_sublist, h.file⟩
  case flush =>
    refine ⟨h.relay, fun file hfile mailboxes hspool => ?_⟩
    cases hfile
    unfold filePayload at hspool
    dsimp only at hspool
    split at hspool
    · cases hspool
      exact h.relay
    · cases hspool
  case reload =>
    refine ⟨?_, h.file⟩
    unfold RelayNode.reload
    dsimp only
    cases hfile : node.file with
    | none => exact fun _ => List.nodup_nil
    | some file => exact Distinct.load (h.file file hfile)

theorem run_distinct {node : RelayNode} (h : DistinctNode node) (as : List (ℚ × MailAction)) :
    DistinctNode (run (mailStep env) node as) := by
  induction as generalizing node with
  | nil => exact h
  | cons a as ih => exact ih (mailStep_distinct h a)

end

/-! ## Repeats -/

/-- When a deposit or replica is answered as held; in no run does a mailbox hold an id twice. -/
theorem repeated_iff (env : RelayEnv) :
    (∀ (now : ℚ) (d : Deposit) (s : Relay), d.msgId ≠ "" → Deposit.Unblocked env d s →
      (Duplicated (deposit env now d s) d.msgId s ↔ FindsDeposit env now d s)) ∧
    (∀ (now : ℚ) (localNodeId : String) (envelope : Dict) (s : Relay),
      Duplicated (acceptReplica env now localNodeId envelope s)
          (readReplica env envelope localNodeId).msgId s ↔
        FindsReplica env now (readReplica env envelope localNodeId) s) ∧
    ∀ (node : RelayNode) (as : List (ℚ × MailAction)), DistinctNode node →
      Distinct (run (mailStep env) node as).relay.mailboxes :=
  ⟨fun _ _ _ hid hunblocked => deposit_duplicated_iff hid hunblocked,
    fun _ _ _ _ => acceptReplica_duplicated_iff,
    fun _ as h => (run_distinct h as).relay⟩

/-- A retry in an empty relay, and a run from it. -/
theorem repeated_iff_sample :
    (Duplicated (deposit plainRelayEnv 110 (requestOf "eve" "ana" "m1") {}) "m1" {} ↔
      FindsDeposit plainRelayEnv 110 (requestOf "eve" "ana" "m1") {}) ∧
    Distinct (run (mailStep plainRelayEnv) ⟨{}, none⟩ [(100, .deposit (requestOf "eve" "ana" "m1")),
      (110, .acceptReplica "" (envelopeOf "eve" "ana" "m1")), (120, .flush),
      (130, .reload)]).relay.mailboxes := by
  have h := repeated_iff plainRelayEnv
  refine ⟨h.1 110 (requestOf "eve" "ana" "m1") {} (by decide +kernel)
    (.inr fun _ _ hblocked => absurd hblocked (Finset.notMem_empty _)), ?_⟩
  exact h.2.2 ⟨{}, none⟩ _ ⟨fun _ => List.nodup_nil, fun file hfile => by cases hfile⟩

theorem requestOf_mailbox (env : RelayEnv) (now : ℚ) (senderId recipientId msgId : String) :
    (requestOf senderId recipientId msgId).mailbox env now =
      .ok (mailboxKey env "requests" recipientId (epochBucket now)) := by
  simp [Deposit.mailbox, requestOf]

/-- A relay with two requests from one sender. -/
@[irreducible] def twoRequests : Relay :=
  (deposit plainRelayEnv 110 (requestOf "eve" "ana" "m2")
    (deposit plainRelayEnv 100 (requestOf "eve" "ana" "m1") {}).1).1

/-- The retry of the first of two messages is refused: the sender is at its cap. -/
theorem not_repeated :
    ¬ ∀ (env : RelayEnv) (before now : ℚ) (d : Deposit) (s : Relay) (key : String) (m : DMMessage),
      before ≤ now → d.msgId ≠ "" → Deposit.Unblocked env d s → d.mailbox env before = .ok key →
      m ∈ s.mailboxes key → m.msgId = d.msgId → m.fresh now = true →
      Duplicated (deposit env now d s) d.msgId s := by
  intro h
  have hunblocked : Deposit.Unblocked plainRelayEnv (requestOf "eve" "ana" "m1") twoRequests := by
    right
    decide +kernel
  have hheld : (requestOf "eve" "ana" "m1").message plainRelayEnv 100 ∈
      twoRequests.mailboxes (mailboxKey plainRelayEnv "requests" "ana" (epochBucket 100)) := by
    decide +kernel
  have hfresh : ((requestOf "eve" "ana" "m1").message plainRelayEnv 100).fresh 120 = true := by
    decide +kernel
  have hrefused : (deposit plainRelayEnv 120 (requestOf "eve" "ana" "m1") twoRequests).2 ≠
      .ok { msgId := "m1", duplicate := true } := by
    decide +kernel
  obtain ⟨hresult, -⟩ := h plainRelayEnv 100 120 (requestOf "eve" "ana" "m1") twoRequests
    (mailboxKey plainRelayEnv "requests" "ana" (epochBucket 100))
    ((requestOf "eve" "ana" "m1").message plainRelayEnv 100) (by decide) (by simp [requestOf])
    hunblocked (requestOf_mailbox plainRelayEnv 100 "eve" "ana" "m1") hheld
    Deposit.message_msgId hfresh
  exact hrefused hresult

end Vincent.Dm.Repeated
