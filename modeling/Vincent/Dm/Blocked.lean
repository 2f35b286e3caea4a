-- SUMMARY: A blocked sender: when no message of the sender is held for the recipient.
import Vincent.Dm.Mailboxes
import Vincent.Dm.Keys

/-!
# Blocked senders

A deposit of a blocked sender is refused. A replica is not: its reference is never
looked up. A block purges the mailboxes that are named after the recipient or bound by
it now, and no others.
-/

namespace Vincent.Dm

open Vincent.Python Vincent.Run

section Model

variable (env : RelayEnv)

inductive BlockAction where
  | block (agentId blockedId : String)
  | unblock (agentId blockedId : String)
  | deposit (d : Deposit)
  | acceptReplica (localNodeId : String) (envelope : Dict)
  | collectClaims (agentId : String) (claims : List MailboxClaim) (limit : Nat)
  | flush
  | reload

/-- An action at a time. -/
def blockStep (node : RelayNode) : ℚ × BlockAction → RelayNode
  | (now, .block agentId blockedId) => { node with relay := block env now agentId blockedId node.relay }
  | (_, .unblock agentId blockedId) => { node with relay := unblock env agentId blockedId node.relay }
  | (now, .deposit d) => { node with relay := (deposit env now d node.relay).1 }
  | (now, .acceptReplica localNodeId envelope) =>
    { node with relay := (acceptReplica env now localNodeId envelope node.relay).1 }
  | (now, .collectClaims agentId claims limit) =>
    { node with relay := (collectClaims env now agentId claims limit node.relay).1 }
  | (now, .flush) => node.flush env now
  | (now, .reload) => node.reload env now

/-- The message has the reference of the sender in the scope of the recipient. -/
def DMMessage.OfSender (recipientId senderId : String) (m : DMMessage) : Prop :=
  messageBlockRef env m = blockedRef env recipientId senderId

/-- No message of the sender for the recipient is held. -/
def NoneHeld (recipientId senderId : String) (s : Relay) : Prop :=
  ∀ key, ∀ m ∈ s.mailboxes key, ¬ m.OfSender env recipientId senderId

/-- No one unblocks the sender, its messages have its own reference, and a reload finds
everything. -/
def KeepsBlocked (recipientId senderId : String) (node : RelayNode) : ℚ × BlockAction → Prop
  | (_, .unblock agentId blockedId) => agentId = recipientId →
    blockedRef env recipientId blockedId ≠ blockedRef env recipientId senderId ∧
      legacyBlockedRef env blockedId ≠ some (blockedRef env recipientId senderId)
  | (now, .deposit d) => (d.message env now).OfSender env recipientId senderId →
    d.recipientId = recipientId ∧ d.blockRef env = blockedRef env recipientId senderId
  | (_, .acceptReplica localNodeId envelope) =>
    (readReplica env envelope localNodeId).senderBlockRef ≠ blockedRef env recipientId senderId
  | (_, .reload) => ∃ file, node.file = some file ∧ file.blocks = node.relay.blocks ∧
    ∀ mailboxes, file.mailboxes = some mailboxes → mailboxes = node.relay.mailboxes
  | _ => True

end Model

/-! ## Messages of a sender -/

section

variable {env : RelayEnv} {recipientId senderId : String} {now : ℚ} {s : Relay}

/-- The name of a sender is not a reference. -/
def IsSender (senderId : String) : Prop :=
  strip senderId ≠ "" ∧ startsWith (strip senderId) "ref:" = false

theorem blockedRef_eq (hsender : IsSender senderId) : blockedRef env recipientId senderId =
    senderBlockRef env (strip senderId) (senderBlockScope env recipientId "" "request") := by
  unfold blockedRef canonicalBlockedId
  dsimp only
  rw [if_neg hsender.1, hsender.2, if_neg Bool.false_ne_true]

theorem senderBlockRef_eq (hsender : IsSender senderId) (scope : String) : ∃ material,
    senderBlockRef env (strip senderId) scope = "ref:" ++ pepperToken env material := by
  unfold senderBlockRef
  dsimp only
  rw [strip_strip, if_neg hsender.1]
  exact ⟨_, rfl⟩

theorem strip_blockedRef (hsender : IsSender senderId) :
    strip (blockedRef env recipientId senderId) = blockedRef env recipientId senderId := by
  obtain ⟨material, hmaterial⟩ := senderBlockRef_eq hsender
    (senderBlockScope env recipientId "" "request")
  rw [blockedRef_eq hsender, hmaterial, strip_ref]

theorem blockedRef_ne_empty (hsender : IsSender senderId) :
    blockedRef env recipientId senderId ≠ "" := by
  obtain ⟨material, hmaterial⟩ := senderBlockRef_eq hsender
    (senderBlockScope env recipientId "" "request")
  rw [blockedRef_eq hsender, hmaterial]
  exact ref_ne_empty material

theorem senderBlockScope_recipient (hrecipient : strip recipientId ≠ "") (token deliveryClass : String) :
    senderBlockScope env recipientId token deliveryClass = "recipient|" ++ strip recipientId := by
  unfold senderBlockScope
  dsimp only
  rw [if_pos hrecipient]

/-- A deposit of the sender for the recipient is under the reference that is blocked. -/
theorem Deposit.blockRef_eq {d : Deposit} (hsender : IsSender senderId)
    (hrecipient : strip recipientId ≠ "") (hfrom : d.authoritySender = strip senderId)
    (hto : d.recipientId = recipientId) :
    d.blockRef env = blockedRef env recipientId senderId := by
  unfold Deposit.blockRef
  rw [blockedRef_eq hsender, hfrom, hto, senderBlockScope_recipient hrecipient,
    senderBlockScope_recipient hrecipient]

theorem readReplica_senderBlockRef (envelope : Dict) (localNodeId : String) :
    (readReplica env envelope localNodeId).senderBlockRef =
      strip (Dict.text env.rt envelope "sender_block_ref") := rfl

/-! ## What is kept -/

variable {node : RelayNode}

/-- The sender is blocked, and none of its messages is held. -/
structure Shut (env : RelayEnv) (recipientId senderId : String) (s : Relay) : Prop where
  blocked : blockedRef env recipientId senderId ∈ s.blocks recipientId
  none : NoneHeld env recipientId senderId s

theorem NoneHeld.of_sublist {s' : Relay} (h : NoneHeld env recipientId senderId s)
    (hsub : ∀ key, (s'.mailboxes key).Sublist (s.mailboxes key)) :
    NoneHeld env recipientId senderId s' :=
  fun key m hm => h key m ((hsub key).subset hm)

theorem NoneHeld.append {key : String} {m : DMMessage} (h : NoneHeld env recipientId senderId s)
    (hm : ¬ m.OfSender env recipientId senderId) :
    NoneHeld env recipientId senderId (append key m s) := by
  intro key' m' hm'
  unfold Dm.append at hm'
  dsimp only at hm'
  rcases eq_or_ne key' key with rfl | hkey
  · rw [Function.update_self] at hm'
    rcases List.mem_append.mp hm' with hm' | hm'
    · exact h key' m' hm'
    · rwa [List.mem_singleton.mp hm']
  · rw [Function.update_of_ne hkey] at hm'
    exact h key' m' hm'

theorem NoneHeld.cleanup (h : NoneHeld env recipientId senderId s) :
    NoneHeld env recipientId senderId (cleanupExpired now s) :=
  h.of_sublist fun _ => List.filter_sublist

/-- A deposit of the sender is refused, and the others are not its messages. -/
theorem Shut.deposit {d : Deposit} (h : Shut env recipientId senderId s)
    (hsender : IsSender senderId) (hrecipient : recipientId ≠ "")
    (hkeeps : (d.message env now).OfSender env recipientId senderId →
      d.recipientId = recipientId ∧ d.blockRef env = blockedRef env recipientId senderId) :
    Shut env recipientId senderId (deposit env now d s).1 := by
  rcases deposit_cases env now d s with ⟨hsame | hcleaned, -⟩ | ⟨key, hstored, heq⟩
  · rw [hsame]
    exact h
  · rw [hcleaned]
    exact ⟨h.blocked, h.none.cleanup⟩
  · rw [heq]
    refine ⟨h.blocked, h.none.cleanup.append fun hof => ?_⟩
    obtain ⟨hto, href⟩ := hkeeps hof
    rcases hstored.unblocked with hempty | hunblocked
    · exact hrecipient (hto ▸ hempty)
    · have hheld : blockedRef env recipientId senderId ∈ s.blocks d.recipientId := by
        rw [hto]
        exact h.blocked
      refine hunblocked (blockedRef env recipientId senderId) ?_ hheld
      unfold Deposit.blockedRefs senderBlockRefs
      unfold Deposit.blockRef at href
      simp [href, blockedRef_ne_empty hsender]

theorem replicaMessage_ref {envelope : Dict} {localNodeId : String} {timestamp : PyFloat} :
    strip (replicaMessage env envelope (readReplica env envelope localNodeId)
      timestamp).senderBlockRef = (readReplica env envelope localNodeId).senderBlockRef := by
  simp only [replicaMessage, readReplica_senderBlockRef, strip_strip]

theorem Shut.acceptReplica {localNodeId : String} {envelope : Dict}
    (h : Shut env recipientId senderId s)
    (hkeeps : (readReplica env envelope localNodeId).senderBlockRef ≠
      blockedRef env recipientId senderId) :
    Shut env recipientId senderId (acceptReplica env now localNodeId envelope s).1 := by
  have hblocks := replicaMailbox_blocks env now (readReplica env envelope localNodeId) s
  have hnone : NoneHeld env recipientId senderId
      (replicaMailbox env now (readReplica env envelope localNodeId) s).1 := by
    apply h.none.of_sublist
    rw [replicaMailbox_mailboxes]
    exact fun _ => List.Sublist.refl _
  rcases acceptReplica_cases env now localNodeId envelope s with
    ⟨hsame | hcleaned, -⟩ | ⟨timestamp, hstored, heq⟩
  · rw [hsame]
    exact ⟨hblocks ▸ h.blocked, hnone⟩
  · rw [hcleaned]
    exact ⟨hblocks ▸ h.blocked, hnone.cleanup⟩
  · rw [heq]
    refine ⟨hblocks ▸ h.blocked, hnone.cleanup.append fun hof => hkeeps ?_⟩
    unfold DMMessage.OfSender at hof
    rwa [messageBlockRef_of_ref (replicaMessage_ref.trans_ne hstored.blockRef),
      replicaMessage_ref] at hof

/-- A block leaves the other blocks, and a sublist of each mailbox. -/
theorem Shut.block {agentId blockedId : String} (h : Shut env recipientId senderId s) :
    Shut env recipientId senderId (block env now agentId blockedId s) := by
  unfold Dm.block
  dsimp only
  split_ifs
  · exact h
  · refine ⟨?_, h.none.of_sublist fun key => ?_⟩
    · dsimp only
      rcases eq_or_ne recipientId agentId with rfl | hne
      · rw [Function.update_self]
        exact Finset.mem_insert_of_mem h.blocked
      · rw [Function.update_of_ne hne]
        exact h.blocked
    · dsimp only
      split
      · exact List.filter_sublist
      · exact List.Sublist.refl _

theorem Shut.unblock {agentId blockedId : String} (h : Shut env recipientId senderId s)
    (hkeeps : agentId = recipientId →
      blockedRef env recipientId blockedId ≠ blockedRef env recipientId senderId ∧
        legacyBlockedRef env blockedId ≠ some (blockedRef env recipientId senderId)) :
    Shut env recipientId senderId (unblock env agentId blockedId s) := by
  unfold Dm.unblock
  dsimp only
  split_ifs
  · exact h
  · refine ⟨?_, h.none⟩
    dsimp only
    rcases eq_or_ne recipientId agentId with rfl | hne
    · obtain ⟨href, hlegacy⟩ := hkeeps rfl
      rw [Function.update_self, Finset.mem_filter]
      exact ⟨h.blocked, href.symm, hlegacy.symm⟩
    · rw [Function.update_of_ne hne]
      exact h.blocked

/-- A reload finds the block and the messages in the file. -/
theorem Shut.load {file : RelayFile} (h : Shut env recipientId senderId s)
    (hsender : IsSender senderId) (hblocks : file.blocks = s.blocks)
    (hmailboxes : ∀ mailboxes, file.mailboxes = some mailboxes → mailboxes = s.mailboxes) :
    Shut env recipientId senderId (load env now file) := by
  obtain ⟨material, hmaterial⟩ := senderBlockRef_eq hsender
    (senderBlockScope env recipientId "" "request")
  have href : blockedRef env recipientId senderId = _ := (blockedRef_eq hsender).trans hmaterial
  have hstrip : strip (blockedRef env recipientId senderId) = _ := strip_blockedRef hsender
  have hne : blockedRef env recipientId senderId ≠ "" := blockedRef_ne_empty hsender
  constructor
  · refine Finset.mem_image.mpr ⟨blockedRef env recipientId senderId, ?_, ?_⟩
    · rw [Finset.mem_filter, hblocks, hstrip]
      exact ⟨h.blocked, hne⟩
    · unfold canonicalBlockedId
      dsimp only
      rw [hstrip, if_neg hne, href, startsWith_ref, if_pos rfl]
  · intro key m hm
    rcases load_mailboxes env now file with hspool | ⟨mailboxes, hspool, hload⟩
    · rw [hspool] at hm
      exact absurd hm List.not_mem_nil
    · rw [hload, hmailboxes mailboxes hspool] at hm
      obtain ⟨m', hm', rfl⟩ := List.mem_map.mp hm
      unfold DMMessage.OfSender
      rw [messageBlockRef_restore]
      exact h.none key m' hm'

theorem blockStep_shut (hsender : IsSender senderId) (hrecipient : recipientId ≠ "")
    (h : Shut env recipientId senderId node.relay) {a : ℚ × BlockAction}
    (hkeeps : KeepsBlocked env recipientId senderId node a) :
    Shut env recipientId senderId (blockStep env node a).relay := by
  obtain ⟨now, a⟩ := a
  cases a <;> dsimp only [blockStep, KeepsBlocked] at hkeeps ⊢
  case block agentId blockedId => exact h.block
  case unblock agentId blockedId => exact h.unblock hkeeps
  case deposit d => exact h.deposit hsender hrecipient hkeeps
  case acceptReplica localNodeId envelope => exact h.acceptReplica hkeeps
  case collectClaims agentId claims limit =>
    exact ⟨(collectClaims_blocks claims limit node.relay).symm ▸ h.blocked,
      h.none.of_sublist (collectClaims_sublist claims limit node.relay)⟩
  case flush => exact ⟨h.blocked, h.none⟩
  case reload =>
    obtain ⟨file, hfile, hblocks, hmailboxes⟩ := hkeeps
    simp only [RelayNode.reload, hfile]
    exact h.load hsender hblocks hmailboxes

theorem shut_run (hsender : IsSender senderId) (hrecipient : recipientId ≠ "")
    {as : List (ℚ × BlockAction)} (h : Shut env recipientId senderId node.relay)
    (hrun : Along (blockStep env) (KeepsBlocked env recipientId senderId) node as) :
    Shut env recipientId senderId (run (blockStep env) node as).relay := by
  have hstep : ∀ node a, Shut env recipientId senderId node.relay →
      KeepsBlocked env recipientId senderId node a →
      Shut env recipientId senderId (blockStep env node a).relay :=
    fun _ _ hshut hkeeps => blockStep_shut hsender hrecipient hshut hkeeps
  exact invariant hstep h hrun

/-- A block shuts the sender out, where its messages are in the mailboxes that are purged. -/
theorem shut_block (hsender : IsSender senderId)
    (hpurged : ∀ key, ∀ m ∈ s.mailboxes key, m.OfSender env recipientId senderId →
      key ∈ purgeKeys env now recipientId s) :
    Shut env recipientId senderId (block env now recipientId senderId s) := by
  unfold Dm.block
  dsimp only
  rw [if_neg (blockedRef_ne_empty hsender)]
  constructor
  · dsimp only
    rw [Function.update_self]
    exact Finset.mem_insert_self _ _
  · intro key m hm hof
    dsimp only at hm
    split at hm
    · rename_i hkey
      have hm := (List.mem_filter.mp hm).2
      simp only [decide_eq_true_eq] at hm
      exact hm.1 hof
    · rename_i hkey
      exact hkey (hpurged key m hm hof)

/-- Where the sender is not blocked, what a deposit comes to depends on the mailboxes. -/
theorem deposit_congr {d : Deposit} {s' : Relay} (h : s.mailboxes = s'.mailboxes)
    (hfree : ¬ (d.recipientId ≠ "" ∧ ∃ ref ∈ d.blockedRefs env, ref ∈ s.blocks d.recipientId))
    (hfree' : ¬ (d.recipientId ≠ "" ∧ ∃ ref ∈ d.blockedRefs env, ref ∈ s'.blocks d.recipientId)) :
    (deposit env now d s).2 = (deposit env now d s').2 := by
  have hmailboxes := cleanupExpired_mailboxes now s s' h
  unfold Dm.deposit
  rw [if_neg hfree, if_neg hfree']
  by_cases hsize : env.cfg.maxMsgBytes < d.ciphertext.length
  · rw [if_pos hsize, if_pos hsize]
  rw [if_neg hsize, if_neg hsize]
  dsimp only
  cases d.mailbox env now with
  | error detail => rfl
  | ok key =>
    dsimp only
    rw [hmailboxes, perSenderPendingCount_congr hmailboxes]
    split_ifs <;> rfl

/-- After an unblock, a deposit of the sender comes to what it does where no one is blocked. -/
theorem deposit_unblock {d : Deposit} {now' : ℚ} (hsender : IsSender senderId)
    (hrecipient : strip recipientId ≠ "") (hfrom : d.authoritySender = strip senderId)
    (hto : d.recipientId = recipientId) :
    (deposit env now' d (unblock env recipientId senderId s)).2 =
      (deposit env now' d { s with blocks := fun _ => ∅ }).2 := by
  have hlegacy : legacyBlockedRef env senderId = some (legacySenderBlockRef env (strip senderId)) := by
    unfold legacyBlockedRef
    dsimp only
    rw [if_pos ⟨hsender.1, by rw [hsender.2]; decide⟩]
  have hblocked : ¬ (d.recipientId ≠ "" ∧ ∃ ref ∈ d.blockedRefs env,
      ref ∈ (unblock env recipientId senderId s).blocks d.recipientId) := by
    rintro ⟨-, ref, href, hheld⟩
    unfold Dm.unblock at hheld
    dsimp only at hheld
    rw [if_neg (blockedRef_ne_empty hsender)] at hheld
    dsimp only at hheld
    rw [hto, Function.update_self, Finset.mem_filter] at hheld
    obtain ⟨-, hscoped, hunscoped⟩ := hheld
    unfold Deposit.blockedRefs senderBlockRefs at href
    simp only [Finset.mem_filter, Finset.mem_insert, Finset.mem_singleton] at href
    rcases href.1 with href | href
    · rw [hlegacy, ← hfrom, ← href] at hunscoped
      exact hunscoped rfl
    · have hdeposit : d.blockRef env = blockedRef env recipientId senderId :=
        Deposit.blockRef_eq hsender hrecipient hfrom hto
      unfold Deposit.blockRef at hdeposit
      exact hscoped (href.trans hdeposit)
  have hmailboxes : (unblock env recipientId senderId s).mailboxes = s.mailboxes := by
    unfold Dm.unblock
    dsimp only
    split <;> rfl
  refine deposit_congr hmailboxes hblocked ?_
  rintro ⟨-, ref, -, hheld⟩
  exact absurd hheld (Finset.notMem_empty ref)

end

/-- No message of a blocked sender is held, until it is unblocked; then it is like one that no one
    blocks. -/
theorem blocked_stays (env : RelayEnv) (node : RelayNode) (recipientId senderId : String)
    (now : ℚ) (between : List (ℚ × BlockAction))
    (hsender : IsSender senderId) (hrecipient : strip recipientId ≠ "")
    (hpurged : ∀ key, ∀ m ∈ node.relay.mailboxes key, m.OfSender env recipientId senderId →
      key ∈ purgeKeys env now recipientId node.relay)
    (hrun : Along (blockStep env) (KeepsBlocked env recipientId senderId)
      (blockStep env node (now, .block recipientId senderId)) between) :
    let s := (run (blockStep env) node ((now, .block recipientId senderId) :: between)).relay
    NoneHeld env recipientId senderId s ∧
      ∀ now' d, d.authoritySender = strip senderId → d.recipientId = recipientId →
        (deposit env now' d (unblock env recipientId senderId s)).2 =
          (deposit env now' d { s with blocks := fun _ => ∅ }).2 := by
  have hnonempty : recipientId ≠ "" := by
    rintro rfl
    exact hrecipient (by decide)
  have hblock : Shut env recipientId senderId
      (blockStep env node (now, .block recipientId senderId)).relay := by
    dsimp only [blockStep]
    exact shut_block hsender hpurged
  have hshut : Shut env recipientId senderId
      (run (blockStep env) (blockStep env node (now, .block recipientId senderId)) between).relay :=
    shut_run hsender hnonempty hblock hrun
  rw [run_cons]
  exact ⟨hshut.none, fun _ _ hfrom hto => deposit_unblock hsender hrecipient hfrom hto⟩

/-- A request of a sender to a recipient. -/
def requestOf (senderId recipientId msgId : String) : Deposit where
  senderId
  recipientId
  msgId
  ciphertext := "text"
  deliveryClass := "request"
  senderTokenHash := "token"

theorem blocked_stays_sample :
    NoneHeld plainRelayEnv "ana" "eve" (run (blockStep plainRelayEnv)
      ⟨append (mailboxKey plainRelayEnv "requests" "ana" 0)
        ((requestOf "eve" "ana" "m1").message plainRelayEnv 90) {}, none⟩
      [(100, .block "ana" "eve"), (110, .deposit (requestOf "eve" "ana" "m2")), (120, .flush),
        (130, .reload)]).relay := by
  refine (blocked_stays plainRelayEnv _ "ana" "eve" 100
    [(110, .deposit (requestOf "eve" "ana" "m2")), (120, .flush), (130, .reload)]
    ⟨by decide +kernel, by decide +kernel⟩ (by decide +kernel) ?_ ?_).1
  · intro key m hm _
    have hkey : key = mailboxKey plainRelayEnv "requests" "ana" 0 := by
      by_contra hne
      simp [append, Function.update_of_ne hne] at hm
    subst hkey
    decide +kernel
  · refine ⟨fun _ => ⟨rfl, by decide +kernel⟩, trivial, ⟨_, rfl, rfl, ?_⟩, trivial⟩
    intro mailboxes hspool
    cases hspool

/-- The envelope of a request, as another relay sends it. -/
def envelopeOf (senderId recipientId msgId : String) : Dict :=
  [("msg_id", .str msgId), ("mailbox_key", .str "k"), ("recipient_id", .str recipientId),
    ("sender_block_ref", .str (blockedRef plainRelayEnv recipientId senderId)),
    ("ciphertext", .str "text"), ("delivery_class", .str "request"),
    ("timestamp", .float (.finite 105))]

/-- A replica of a message of the sender is accepted after the block. -/
theorem not_blocked_stays :
    ¬ ∀ (env : RelayEnv) (recipientId senderId : String) (now : ℚ)
      (between : List (ℚ × BlockAction)), IsSender senderId → strip recipientId ≠ "" →
      (∀ a ∈ between, ∀ agentId blockedId, a.2 ≠ .unblock agentId blockedId) →
      NoneHeld env recipientId senderId
        (run (blockStep env) ⟨{}, none⟩ ((now, .block recipientId senderId) :: between)).relay := by
  intro h
  have hnone := h plainRelayEnv "ana" "eve" 100
    [(110, .acceptReplica "" (envelopeOf "eve" "ana" "m1"))]
    ⟨by decide +kernel, by decide +kernel⟩ (by decide +kernel) (by simp)
    (mailboxKey plainRelayEnv "requests" "ana" 0)
  revert hnone
  unfold DMMessage.OfSender
  decide +kernel

end Vincent.Dm
