-- SUMMARY: When the cap on unread messages holds over all mailboxes.
import Vincent.Dm.Blocked

/-!
# The per-sender cap

The relay counts the unread messages of a sender in one mailbox, by the reference that
a message carries. Who it is from is not what its reference says, so the sender is a
label that the relay does not see.
-/

namespace Vincent.Dm

open Vincent.Python Vincent.Run

section Model

variable (env : RelayEnv)

inductive CapAction where
  | deposit (d : Deposit)
  | acceptReplica (localNodeId : String) (envelope : Dict)
  | collectClaims (agentId : String) (claims : List MailboxClaim) (limit : Nat)
  | cleanup
  | flush
  | reload

/-- An action at a time. -/
def capStep (node : RelayNode) : ℚ × CapAction → RelayNode
  | (now, .deposit d) => { node with relay := (deposit env now d node.relay).1 }
  | (now, .acceptReplica localNodeId envelope) =>
    { node with relay := (acceptReplica env now localNodeId envelope node.relay).1 }
  | (now, .collectClaims agentId claims limit) =>
    { node with relay := (collectClaims env now agentId claims limit node.relay).1 }
  | (now, .cleanup) => { node with relay := cleanupExpired now node.relay }
  | (now, .flush) => node.flush env now
  | (now, .reload) => node.reload env now

/-- The mailboxes that a requests claim of the recipient reads besides that of its own token. -/
def requestMailboxes (now : ℚ) (recipientId : String) (s : Relay) : Finset String :=
  {boundToken env now recipientId "requests" s,
    mailboxKey env "requests" recipientId (epochBucket now),
    mailboxKey env "requests" recipientId (epochBucket now - 1)}

/-- The unexpired requests of the labelled sender in the mailboxes. -/
def pendingFrom (isFrom : DMMessage → Bool) (now : ℚ) (keys : Finset String) (s : Relay) : Nat :=
  ∑ key ∈ keys, (s.mailboxes key).countP fun m =>
    m.deliveryClass = "request" ∧ isFrom m ∧ m.fresh now

/-- No message of the sender is in another mailbox. -/
def NoneElsewhere (isFrom : DMMessage → Bool) (key : String) (s : Relay) : Prop :=
  ∀ key', key' ≠ key → ∀ m ∈ s.mailboxes key', isFrom m = false

/-- A message of the sender has its reference, goes where its others are, and a reload finds
them. -/
def KeepsCap (isFrom : DMMessage → Bool) (recipientId senderId : String) (node : RelayNode) :
    ℚ × CapAction → Prop
  | (now, .deposit d) => isFrom (d.message env now) = true →
    d.authoritySender = strip senderId ∧ d.recipientId = recipientId ∧
      ∀ key, d.mailbox env now = .ok key →
        NoneElsewhere isFrom key (cleanupExpired now node.relay)
  | (now, .acceptReplica localNodeId envelope) => ∀ timestamp,
    isFrom (replicaMessage env envelope (readReplica env envelope localNodeId) timestamp) = true →
      (readReplica env envelope localNodeId).senderBlockRef = blockedRef env recipientId senderId ∧
        NoneElsewhere isFrom
          (replicaMailbox env now (readReplica env envelope localNodeId) node.relay).2
          (cleanupExpired now node.relay)
  | (_, .reload) => ∃ file, node.file = some file ∧
    ∀ mailboxes, file.mailboxes = some mailboxes → mailboxes = node.relay.mailboxes
  | _ => True

end Model

/-! ## The cap -/

section

variable {env : RelayEnv} {isFrom : DMMessage → Bool} {ref : String} {now : ℚ} {s s' : Relay}
  {recipientId senderId : String} {node : RelayNode}

/-- The messages of the sender have its reference and are in one mailbox, within the limit. -/
structure Capped (env : RelayEnv) (isFrom : DMMessage → Bool) (ref : String) (s : Relay) :
    Prop where
  refs : ∀ key, ∀ m ∈ s.mailboxes key, isFrom m = true → m.senderBlockRef = ref
  one : ∃ key, NoneElsewhere isFrom key s ∧
    (s.mailboxes key).countP isFrom ≤ env.cfg.perSenderPendingLimit

theorem Capped.of_sublist (h : Capped env isFrom ref s)
    (hsub : ∀ key, (s'.mailboxes key).Sublist (s.mailboxes key)) : Capped env isFrom ref s' := by
  obtain ⟨key, hnone, hcount⟩ := h.one
  refine ⟨fun key m hm => h.refs key m ((hsub key).subset hm), key, ?_, ?_⟩
  · exact fun key' hkey m hm => hnone key' hkey m ((hsub key').subset hm)
  · exact ((hsub key).countP_le).trans hcount

theorem Capped.cleanup (h : Capped env isFrom ref s) :
    Capped env isFrom ref (cleanupExpired now s) :=
  h.of_sublist fun _ => List.filter_sublist

/-- Where the messages of the sender have its reference, the relay counts them all. -/
theorem countP_le_pending (href : ref ≠ "") {key : String} (hkey : key ≠ "")
    (h : ∀ m ∈ s.mailboxes key, isFrom m = true → m.senderBlockRef = ref) :
    (s.mailboxes key).countP isFrom ≤ perSenderPendingCount key ref s := by
  unfold perSenderPendingCount
  rw [if_neg (not_or.mpr ⟨hkey, href⟩)]
  exact List.countP_mono_left fun m hm hfrom => by simpa using h m hm hfrom

/-- A message under the reference goes into the mailbox of the others where there is room. -/
theorem Capped.append (h : Capped env isFrom ref s) (href : ref ≠ "") {key : String}
    (hkey : key ≠ "") {m : DMMessage} (hm : isFrom m = true →
      m.senderBlockRef = ref ∧ NoneElsewhere isFrom key s ∧
        perSenderPendingCount key ref s < env.cfg.perSenderPendingLimit) :
    Capped env isFrom ref (append key m s) := by
  have hmailbox (key' : String) : (Dm.append key m s).mailboxes key' =
      if key' = key then s.mailboxes key ++ [m] else s.mailboxes key' := by
    simp [Dm.append, Function.update_apply]
  constructor
  · intro key' m' hm' hfrom
    rw [hmailbox] at hm'
    split at hm'
    · rcases List.mem_append.mp hm' with hm' | hm'
      · exact h.refs key m' hm' hfrom
      · rw [List.mem_singleton.mp hm'] at hfrom ⊢
        exact (hm hfrom).1
    · exact h.refs key' m' hm' hfrom
  · cases hfrom : isFrom m with
    | true =>
      obtain ⟨-, hnone, hroom⟩ := hm hfrom
      refine ⟨key, ?_, ?_⟩
      · intro key' hkey' m' hm'
        rw [hmailbox, if_neg hkey'] at hm'
        exact hnone key' hkey' m' hm'
      · have hcount := countP_le_pending href hkey (h.refs key)
        rw [hmailbox, if_pos rfl, List.countP_append, List.countP_singleton, hfrom, if_pos rfl]
        omega
    | false =>
      obtain ⟨one, hnone, hcount⟩ := h.one
      refine ⟨one, ?_, ?_⟩
      · intro key' hkey' m' hm'
        rw [hmailbox] at hm'
        split at hm'
        · rename_i heq
          subst heq
          rcases List.mem_append.mp hm' with hm' | hm'
          · exact hnone key' hkey' m' hm'
          · rw [List.mem_singleton.mp hm', hfrom]
        · exact hnone key' hkey' m' hm'
      · rw [hmailbox]
        split
        · rename_i heq
          subst heq
          rw [List.countP_append, List.countP_singleton, hfrom]
          simpa using hcount
        · exact hcount

theorem Deposit.mailbox_ne_empty {d : Deposit} {key : String} (h : d.mailbox env now = .ok key) :
    key ≠ "" := by
  unfold Deposit.mailbox at h
  split_ifs at h
  · cases h
    exact env.sha256_ne_empty _
  · cases h
    exact env.sha256_ne_empty _

theorem Capped.deposit {d : Deposit} (hsender : IsSender senderId)
    (hrecipient : strip recipientId ≠ "")
    (h : Capped env isFrom (blockedRef env recipientId senderId) s)
    (hkeeps : isFrom (d.message env now) = true →
      d.authoritySender = strip senderId ∧ d.recipientId = recipientId ∧
        ∀ key, d.mailbox env now = .ok key → NoneElsewhere isFrom key (cleanupExpired now s)) :
    Capped env isFrom (blockedRef env recipientId senderId) (deposit env now d s).1 := by
  rcases deposit_cases env now d s with ⟨hsame | hcleaned, -⟩ | ⟨key, hstored, heq⟩
  · rw [hsame]
    exact h
  · rw [hcleaned]
    exact h.cleanup
  · rw [heq]
    apply h.cleanup.append (blockedRef_ne_empty hsender)
      (Deposit.mailbox_ne_empty hstored.mailbox)
    intro hfrom
    obtain ⟨hauthor, hto, hnone⟩ := hkeeps hfrom
    have href : d.blockRef env = blockedRef env recipientId senderId :=
      Deposit.blockRef_eq hsender hrecipient hauthor hto
    have hpending := hstored.pending
    rw [href] at hpending
    exact ⟨by rw [Deposit.message_senderBlockRef, href], hnone key hstored.mailbox, hpending⟩

theorem Capped.acceptReplica {localNodeId : String} {envelope : Dict} (href : ref ≠ "")
    (h : Capped env isFrom ref s)
    (hkeeps : ∀ timestamp, isFrom (replicaMessage env envelope
        (readReplica env envelope localNodeId) timestamp) = true →
      (readReplica env envelope localNodeId).senderBlockRef = ref ∧
        NoneElsewhere isFrom (replicaMailbox env now (readReplica env envelope localNodeId) s).2
          (cleanupExpired now s)) :
    Capped env isFrom ref (acceptReplica env now localNodeId envelope s).1 := by
  have hmailboxes := replicaMailbox_mailboxes env now (readReplica env envelope localNodeId) s
  have hcapped : Capped env isFrom ref
      (replicaMailbox env now (readReplica env envelope localNodeId) s).1 := by
    apply h.of_sublist
    rw [hmailboxes]
    exact fun _ => List.Sublist.refl _
  rcases acceptReplica_cases env now localNodeId envelope s with
    ⟨hsame | hcleaned, -⟩ | ⟨timestamp, hstored, heq⟩
  · rw [hsame]
    exact hcapped
  · rw [hcleaned]
    exact hcapped.cleanup
  · rw [heq]
    apply hcapped.cleanup.append href hstored.key
    intro hfrom
    obtain ⟨hreplica, hnone⟩ := hkeeps timestamp hfrom
    have hclean := cleanupExpired_mailboxes now _ _ hmailboxes
    refine ⟨hreplica, ?_, ?_⟩
    · unfold NoneElsewhere at hnone ⊢
      rwa [hclean]
    · rw [perSenderPendingCount_congr hclean, ← hreplica]
      exact hstored.pending

/-- A message of the sender has a reference, so a reload leaves it as it is. -/
theorem Capped.load {file : RelayFile} (href : ref ≠ "")
    (hlabel : ∀ m, isFrom (restoreMessage env m) = isFrom m) (h : Capped env isFrom ref s)
    (hmailboxes : ∀ mailboxes, file.mailboxes = some mailboxes → mailboxes = s.mailboxes) :
    Capped env isFrom ref (load env now file) := by
  rcases load_mailboxes env now file with hspool | ⟨mailboxes, hspool, hload⟩
  · apply h.of_sublist
    rw [hspool]
    exact fun _ => List.nil_sublist _
  · obtain ⟨key, hnone, hcount⟩ := h.one
    have hload : (Dm.load env now file).mailboxes =
        fun key => (s.mailboxes key).map (restoreMessage env) := by
      rw [hload, hmailboxes mailboxes hspool]
    refine ⟨?_, key, ?_, ?_⟩
    · intro key m hm hfrom
      rw [hload] at hm
      obtain ⟨m', hm', rfl⟩ := List.mem_map.mp hm
      have hm'ref := h.refs key m' hm' (by rwa [← hlabel])
      unfold restoreMessage
      rw [if_neg (hm'ref.trans_ne href)]
      exact hm'ref
    · intro key' hkey m hm
      rw [hload] at hm
      obtain ⟨m', hm', rfl⟩ := List.mem_map.mp hm
      rw [hlabel]
      exact hnone key' hkey m' hm'
    · rw [hload, List.countP_map]
      have hcomp : isFrom ∘ restoreMessage env = isFrom := funext hlabel
      rwa [hcomp]

theorem capStep_capped (hsender : IsSender senderId) (hrecipient : strip recipientId ≠ "")
    (hlabel : ∀ m, isFrom (restoreMessage env m) = isFrom m)
    (h : Capped env isFrom (blockedRef env recipientId senderId) node.relay) {a : ℚ × CapAction}
    (hkeeps : KeepsCap env isFrom recipientId senderId node a) :
    Capped env isFrom (blockedRef env recipientId senderId) (capStep env node a).relay := by
  have href : blockedRef env recipientId senderId ≠ "" := blockedRef_ne_empty hsender
  obtain ⟨now, a⟩ := a
  cases a <;> dsimp only [capStep, KeepsCap] at hkeeps ⊢
  case deposit d => exact h.deposit hsender hrecipient hkeeps
  case acceptReplica localNodeId envelope => exact h.acceptReplica href hkeeps
  case collectClaims agentId claims limit =>
    exact h.of_sublist (collectClaims_sublist claims limit node.relay)
  case cleanup => exact h.cleanup
  case flush => exact h.of_sublist fun _ => List.Sublist.refl _
  case reload =>
    obtain ⟨file, hfile, hmailboxes⟩ := hkeeps
    simp only [RelayNode.reload, hfile]
    exact h.load href hlabel hmailboxes

theorem capped_run (hsender : IsSender senderId) (hrecipient : strip recipientId ≠ "")
    (hlabel : ∀ m, isFrom (restoreMessage env m) = isFrom m) {as : List (ℚ × CapAction)}
    (h : Capped env isFrom (blockedRef env recipientId senderId) node.relay)
    (hrun : Along (capStep env) (KeepsCap env isFrom recipientId senderId) node as) :
    Capped env isFrom (blockedRef env recipientId senderId) (run (capStep env) node as).relay := by
  have hstep : ∀ node a, Capped env isFrom (blockedRef env recipientId senderId) node.relay →
      KeepsCap env isFrom recipientId senderId node a →
      Capped env isFrom (blockedRef env recipientId senderId) (capStep env node a).relay :=
    fun _ _ hcapped hkeeps => capStep_capped hsender hrecipient hlabel hcapped hkeeps
  exact invariant hstep h hrun

/-- Under the cap, no set of mailboxes holds more than the limit. -/
theorem Capped.pendingFrom_le (h : Capped env isFrom ref s) (keys : Finset String) :
    pendingFrom isFrom now keys s ≤ env.cfg.perSenderPendingLimit := by
  obtain ⟨key, hnone, hcount⟩ := h.one
  have hle (key' : String) : (s.mailboxes key').countP (fun m =>
      m.deliveryClass = "request" ∧ isFrom m ∧ m.fresh now) ≤
      if key' = key then (s.mailboxes key).countP isFrom else 0 := by
    split
    · rename_i heq
      subst heq
      refine List.countP_mono_left fun m _ hm => ?_
      simp only [decide_eq_true_eq] at hm
      exact hm.2.1
    · rename_i hne
      rw [Nat.le_zero, List.countP_eq_zero]
      intro m hm
      simp [hnone key' hne m hm]
  calc pendingFrom isFrom now keys s
      ≤ ∑ key' ∈ keys, if key' = key then (s.mailboxes key).countP isFrom else 0 :=
        Finset.sum_le_sum fun key' _ => hle key'
    _ ≤ (s.mailboxes key).countP isFrom := by
        rw [Finset.sum_ite_eq']
        split
        · exact le_rfl
        · exact Nat.zero_le _
    _ ≤ env.cfg.perSenderPendingLimit := hcount

end

/-- Where the messages of a sender come into one mailbox, no more than the limit are held. -/
theorem pendingFrom_le_limit (env : RelayEnv) (node : RelayNode) (recipientId senderId : String)
    (isFrom : DMMessage → Bool) (actions : List (ℚ × CapAction)) (now : ℚ)
    (hsender : IsSender senderId) (hrecipient : strip recipientId ≠ "")
    (hlabel : ∀ m, isFrom (restoreMessage env m) = isFrom m)
    (hstart : ∀ key, ∀ m ∈ node.relay.mailboxes key, isFrom m = false)
    (hrun : Along (capStep env) (KeepsCap env isFrom recipientId senderId) node actions) :
    let s := (run (capStep env) node actions).relay
    pendingFrom isFrom now (requestMailboxes env now recipientId s) s ≤
      env.cfg.perSenderPendingLimit := by
  have hcapped : Capped env isFrom (blockedRef env recipientId senderId) node.relay := by
    refine ⟨fun key m hm hfrom => ?_, "", fun key _ => hstart key, ?_⟩
    · rw [hstart key m hm] at hfrom
      cases hfrom
    · rw [List.countP_eq_zero.mpr fun m hm => by simp [hstart "" m hm]]
      exact Nat.zero_le _
  exact (capped_run hsender hrecipient hlabel hcapped hrun).pendingFrom_le _

/-- Messages by their id. -/
def fromEve (m : DMMessage) : Bool := startsWith m.msgId "eve"

theorem pendingFrom_le_limit_sample :
    pendingFrom fromEve 130 (requestMailboxes plainRelayEnv 130 "ana"
        (run (capStep plainRelayEnv) ⟨{}, none⟩ [(100, .deposit (requestOf "eve" "ana" "eve1")),
          (110, .acceptReplica "" (envelopeOf "bob" "ana" "bob1")), (120, .flush)]).relay)
      (run (capStep plainRelayEnv) ⟨{}, none⟩ [(100, .deposit (requestOf "eve" "ana" "eve1")),
        (110, .acceptReplica "" (envelopeOf "bob" "ana" "bob1")), (120, .flush)]).relay ≤ 2 := by
  refine pendingFrom_le_limit plainRelayEnv ⟨{}, none⟩ "ana" "eve" fromEve
    [(100, .deposit (requestOf "eve" "ana" "eve1")),
      (110, .acceptReplica "" (envelopeOf "bob" "ana" "bob1")), (120, .flush)] 130
    ⟨by decide +kernel, by decide +kernel⟩ (by decide +kernel) ?_
    (fun _ _ hm => absurd hm List.not_mem_nil) ⟨?_, ?_, trivial, trivial⟩
  · intro m
    unfold restoreMessage fromEve
    split <;> rfl
  · exact fun _ => ⟨by decide +kernel, rfl, fun _ _ _ _ _ hm => absurd hm List.not_mem_nil⟩
  · intro timestamp hfrom
    have hbob : startsWith (readReplica plainRelayEnv (envelopeOf "bob" "ana" "bob1") "").msgId
        "eve" = false := by
      decide +kernel
    simp only [fromEve, replicaMessage, hbob] at hfrom
    cases hfrom

/-- Two requests on either side of an epoch boundary are in two mailboxes. -/
theorem not_pendingFrom_le_limit :
    ¬ ∀ (env : RelayEnv) (recipientId senderId : String) (deposits : List (ℚ × Deposit)) (now : ℚ),
      IsSender senderId → strip recipientId ≠ "" →
      (∀ d ∈ deposits, d.2.authoritySender = strip senderId ∧ d.2.recipientId = recipientId) →
      let s := (run (capStep env) ⟨{}, none⟩ (deposits.map fun d => (d.1, .deposit d.2))).relay
      pendingFrom (fun m => m.senderBlockRef = blockedRef env recipientId senderId) now
        (requestMailboxes env now recipientId s) s ≤ env.cfg.perSenderPendingLimit := by
  intro h
  have hcap := h plainRelayEnv "ana" "eve" [(21000, requestOf "eve" "ana" "m1"),
    (21001, requestOf "eve" "ana" "m2"), (21700, requestOf "eve" "ana" "m3"),
    (21701, requestOf "eve" "ana" "m4")] 21702 ⟨by decide +kernel, by decide +kernel⟩
    (by decide +kernel) (by decide +kernel)
  revert hcap
  decide +kernel

end Vincent.Dm
