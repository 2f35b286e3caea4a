-- SUMMARY: When exactly one collect returns a parked request.
import Vincent.Dm.Blocked

/-!
# Parked requests

A request waits in the mailbox of the epoch, or in that of the bound token. A collect
reads the mailboxes of the last two epochs, of the bound token, and of the one that it
binds instead. Once its token is no longer bound, a request is out of reach.
-/

namespace Vincent.Dm

open Vincent.Python Vincent.Run

section Model

variable (env : RelayEnv)

/-- A relay, its clock, the ids it stored, the requests accepted for a recipient, and what was
returned. -/
structure ParkState where
  relay : Relay
  clock : ℚ
  ids : List String := []
  accepted : List DMMessage := []
  returned : List DMMessage := []

inductive ParkAction where
  | deposit (d : Deposit)
  | acceptReplica (localNodeId : String) (envelope : Dict)
  | countClaims (agentId : String) (claims : List MailboxClaim)
  | claimMessageIds (agentId : String) (claims : List MailboxClaim)
  | collectClaims (agentId : String) (claims : List MailboxClaim) (limit : Nat)

/-- The message was stored. -/
def isStored : Except String Receipt → Bool
  | .ok receipt => !receipt.duplicate
  | .error _ => false

/-- The message that is stored for an envelope. -/
def replicaOf (now : ℚ) (localNodeId : String) (envelope : Dict) : DMMessage :=
  replicaMessage env envelope (readReplica env envelope localNodeId)
    ((pyFloat env.rt ((Dict.get envelope "timestamp" (.float (.finite now))).or
      (.float (.finite now)))).toOption.getD .nan)

/-- What a call made of the relay, with the message if it was stored. -/
def ParkState.after (now : ℚ) (relay : Relay) (stored : Option DMMessage) (isRequest : Prop)
    [Decidable isRequest] (s : ParkState) : ParkState :=
  { relay, clock := now
    ids := s.ids ++ (stored.map (·.msgId)).toList
    accepted := if isRequest then s.accepted ++ stored.toList else s.accepted
    returned := s.returned }

/-- An action at a time. -/
def parkStep (recipientId : String) (s : ParkState) : ℚ × ParkAction → ParkState
  | (now, .deposit d) =>
    let (relay, result) := deposit env now d s.relay
    s.after now relay (if isStored result then some (d.message env now) else none)
      (d.deliveryClass = "request" ∧ d.recipientId = recipientId)
  | (now, .acceptReplica localNodeId envelope) =>
    let r := readReplica env envelope localNodeId
    let (relay, result) := acceptReplica env now localNodeId envelope s.relay
    s.after now relay (if isStored result then some (replicaOf env now localNodeId envelope) else none)
      (r.deliveryClass = "request" ∧ r.recipientId = recipientId)
  | (now, .countClaims agentId claims) =>
    { s with relay := (countClaims env now agentId claims s.relay).1, clock := now }
  | (now, .claimMessageIds agentId claims) =>
    { s with relay := (claimMessageIds env now agentId claims s.relay).1, clock := now }
  | (now, .collectClaims agentId claims limit) =>
    let (relay, collected, _) := collectClaims env now agentId claims limit s.relay
    { s with
      relay, clock := now
      returned := if agentId = recipientId then s.returned ++ collected else s.returned }

/-- The message was accepted for the recipient, is not expired and was not returned yet. -/
structure ParkState.Unread (now : ℚ) (s : ParkState) (m : DMMessage) : Prop where
  accepted : m ∈ s.accepted
  fresh : m.fresh now = true
  unreturned : ∀ m' ∈ s.returned, m'.msgId ≠ m.msgId

/-- The message expires within the time that a message lives. -/
def ExpiresFrom (now : ℚ) (m : DMMessage) : Prop :=
  ∀ later, now + ttlSeconds ≤ later → m.fresh later = false

/-- The binding of the recipient and the mailbox that it names. -/
def BoundTo (recipientId key : String) (entry : MailboxBinding) (s : Relay) : Prop :=
  s.mailboxBindings recipientId "requests" = some entry ∧ strip entry.tokenHash = key

/-- No binding expires while unread requests are in its mailbox. -/
def LiveBindings (recipientId : String) (now : ℚ) (s : ParkState) : Prop :=
  ∀ m, s.Unread now m → ∀ key entry, m ∈ s.relay.mailboxes key →
    BoundTo recipientId key entry s.relay → (liveBinding env now entry).isSome

/-- The claims bind no other token while unread requests are in the mailbox of the one bound. -/
def SameToken (recipientId : String) (now : ℚ) (claims : List MailboxClaim) (s : ParkState) : Prop :=
  ∀ m, s.Unread now m → ∀ key entry, m ∈ s.relay.mailboxes key →
    BoundTo recipientId key entry s.relay →
    ∀ claim ∈ claims.take 32, claim.binds env = some "requests" →
      hashedMailboxToken env (strip claim.token) = key

/-- The mailboxes that a call reads. -/
def claimedMailboxes (now : ℚ) (agentId : String) (claims : List MailboxClaim) (s : Relay) :
    List String :=
  (claimKeys env now agentId (claims.take 32) (cleanupExpired now s)).2.dedup

/-- The call returns all that it reads. -/
def CollectsAll (now : ℚ) (agentId : String) (claims : List MailboxClaim) (limit : Nat)
    (s : Relay) : Prop :=
  limit = 0 ∨ (readMailboxes (cleanupExpired now s).mailboxes
    (claimedMailboxes env now agentId claims s)).length ≤ limit

/-- Bindings with unread requests stay until the collect, no one else collects, and ids tell
messages apart. -/
def KeepsParked (recipientId : String) (s : ParkState) : ℚ × ParkAction → Prop
  | (now, a) => s.clock ≤ now ∧ LiveBindings env recipientId now s ∧
    match a with
    | .deposit d => ∀ key, d.mailbox env now = .ok key → d.id ∈ s.ids →
      ∃ m ∈ (cleanupExpired now s.relay).mailboxes key, m.msgId = d.id
    | .acceptReplica localNodeId envelope =>
      let r := readReplica env envelope localNodeId
      (r.msgId ∈ s.ids → ∃ m ∈ (cleanupExpired now s.relay).mailboxes
        (replicaMailbox env now r s.relay).2, m.msgId = r.msgId) ∧
      (boundToken env now recipientId "requests" s.relay = "" →
        ExpiresFrom now (replicaOf env now localNodeId envelope))
    | .countClaims agentId claims | .claimMessageIds agentId claims =>
      strip agentId = recipientId → agentId = recipientId ∧ SameToken env recipientId now claims s
    | .collectClaims agentId claims limit =>
      if agentId = recipientId then
        CollectsAll env now agentId claims limit s.relay ∨ SameToken env recipientId now claims s
      else strip agentId ≠ recipientId ∧
        ∀ m, s.Unread now m → ∀ key, m ∈ s.relay.mailboxes key →
          key ∉ claimedMailboxes env now agentId claims s.relay

end Model

/-! ## Reading mailboxes -/

section

variable {mailboxes : String → List DMMessage} {keys : List String}

theorem foldl_read (ms read : List DMMessage) (hread : (read.map (·.msgId)).Nodup) :
    let all := ms.foldl (fun read m => if read.any fun m' => m'.msgId = m.msgId then read
      else read ++ [m]) read
    (all.map (·.msgId)).Nodup ∧ (∀ m ∈ all, m ∈ read ∨ m ∈ ms) ∧
      ∀ m, m ∈ read ∨ m ∈ ms → ∃ m' ∈ all, m'.msgId = m.msgId := by
  induction ms generalizing read with
  | nil =>
    refine ⟨hread, fun m hm => .inl hm, ?_⟩
    rintro m (hm | hm)
    · exact ⟨m, hm, rfl⟩
    · exact absurd hm List.not_mem_nil
  | cons x ms ih =>
    rw [List.foldl_cons]
    split
    · rename_i hheld
      obtain ⟨hnodup, hmem, hall⟩ := ih read hread
      refine ⟨hnodup, fun m hm => (hmem m hm).imp_right (List.mem_cons_of_mem _), ?_⟩
      rintro m (hm | hm)
      · exact hall m (.inl hm)
      · rcases List.mem_cons.mp hm with rfl | hm
        · obtain ⟨m', hm', hid⟩ := List.any_eq_true.mp hheld
          obtain ⟨m'', hm'', hid'⟩ := hall m' (.inl hm')
          exact ⟨m'', hm'', hid'.trans (of_decide_eq_true hid)⟩
        · exact hall m (.inr hm)
    · rename_i hheld
      have hnew : x.msgId ∉ read.map (·.msgId) := by
        intro hin
        obtain ⟨m', hm', hid⟩ := List.mem_map.mp hin
        exact hheld (List.any_eq_true.mpr ⟨m', hm', decide_eq_true hid⟩)
      have hread' : ((read ++ [x]).map (·.msgId)).Nodup := by
        rw [List.map_append, List.map_singleton]
        exact List.nodup_append'.mpr ⟨hread, List.nodup_singleton _, by simpa using hnew⟩
      obtain ⟨hnodup, hmem, hall⟩ := ih (read ++ [x]) hread'
      refine ⟨hnodup, fun m hm => ?_, ?_⟩
      · rcases hmem m hm with hm | hm
        · rcases List.mem_append.mp hm with hm | hm
          · exact .inl hm
          · exact .inr (List.mem_cons.mpr (.inl (List.mem_singleton.mp hm)))
        · exact .inr (List.mem_cons_of_mem _ hm)
      · rintro m (hm | hm)
        · exact hall m (.inl (List.mem_append_left _ hm))
        · rcases List.mem_cons.mp hm with rfl | hm
          · exact hall m (.inl (List.mem_append_right _ (List.mem_singleton.mpr rfl)))
          · exact hall m (.inr hm)

theorem readMailboxes_nodup : ((readMailboxes mailboxes keys).map (·.msgId)).Nodup :=
  (foldl_read _ [] List.nodup_nil).1

theorem mem_of_mem_readMailboxes {m : DMMessage} (h : m ∈ readMailboxes mailboxes keys) :
    ∃ key ∈ keys, m ∈ mailboxes key := by
  rcases (foldl_read _ [] List.nodup_nil).2.1 m h with h | h
  · exact absurd h List.not_mem_nil
  · exact List.mem_flatMap.mp h

theorem exists_readMailboxes {m : DMMessage} {key : String} (hkey : key ∈ keys)
    (h : m ∈ mailboxes key) : ∃ m' ∈ readMailboxes mailboxes keys, m'.msgId = m.msgId :=
  (foldl_read _ [] List.nodup_nil).2.2 m (.inr (List.mem_flatMap.mpr ⟨key, hkey, h⟩))

theorem sortMessages_perm (messages : List DMMessage) : (sortMessages messages).Perm messages :=
  List.perm_insertionSort _ _

/-- What a collect returns and leaves. -/
structure Collected (keys : List String) (limit : Nat) (s s' : Relay) (collected : List DMMessage) :
    Prop where
  once : (collected.map (·.msgId)).Nodup
  read : ∀ m ∈ collected, ∃ key ∈ keys, m ∈ s.mailboxes key
  left : ∀ key, ∀ m ∈ s'.mailboxes key, m ∈ s.mailboxes key ∧
    (key ∈ keys → ∀ m' ∈ collected, m.msgId ≠ m'.msgId)
  kept : ∀ key, ∀ m ∈ s.mailboxes key,
    m ∈ s'.mailboxes key ∨ key ∈ keys ∧ ∃ m' ∈ collected, m'.msgId = m.msgId
  all : (limit = 0 ∨ (readMailboxes s.mailboxes keys).length ≤ limit) →
    ∀ key ∈ keys, ∀ m ∈ s.mailboxes key, ∃ m' ∈ collected, m'.msgId = m.msgId
  bindings : s'.mailboxBindings = s.mailboxBindings

theorem collectFromKeys_collected (keys : List String) (limit : Nat) (s : Relay) :
    Collected keys limit s (collectFromKeys keys limit s).1 (collectFromKeys keys limit s).2.1 := by
  have hperm := sortMessages_perm (readMailboxes s.mailboxes keys)
  have hnodup : ((sortMessages (readMailboxes s.mailboxes keys)).map (·.msgId)).Nodup :=
    (hperm.map _).nodup_iff.mpr readMailboxes_nodup
  have hread : ∀ m ∈ sortMessages (readMailboxes s.mailboxes keys),
      ∃ key ∈ keys, m ∈ s.mailboxes key :=
    fun m hm => mem_of_mem_readMailboxes (hperm.mem_iff.mp hm)
  have hall : ∀ key ∈ keys, ∀ m ∈ s.mailboxes key,
      ∃ m' ∈ sortMessages (readMailboxes s.mailboxes keys), m'.msgId = m.msgId := by
    intro key hkey m hm
    obtain ⟨m', hm', hid⟩ := exists_readMailboxes hkey hm
    exact ⟨m', hperm.mem_iff.mpr hm', hid⟩
  have hlength := hperm.length_eq
  unfold collectFromKeys
  dsimp only
  generalize sortMessages (readMailboxes s.mailboxes keys) = messages at *
  split
  · rename_i hlimit
    dsimp only
    refine ⟨hnodup.sublist ((List.take_sublist _ _).map _), fun m hm => hread m (List.mem_of_mem_take hm),
      ?_, ?_, ?_, rfl⟩
    · intro key m hm
      dsimp only at hm
      split at hm
      · obtain ⟨hm, hkept⟩ := List.mem_filter.mp hm
        refine ⟨hm, fun _ m' hm' hid => ?_⟩
        have hany : (List.take limit messages).any (fun m' => m'.msgId = m.msgId) = true :=
          List.any_eq_true.mpr ⟨m', hm', decide_eq_true hid.symm⟩
        rw [hany] at hkept
        cases hkept
      · rename_i hkey
        exact ⟨hm, fun hin => absurd hin hkey⟩
    · intro key m hm
      dsimp only
      split
      · rename_i hkey
        cases hany : (List.take limit messages).any fun m' => m'.msgId = m.msgId with
        | true =>
          obtain ⟨m', hm', hid⟩ := List.any_eq_true.mp hany
          exact .inr ⟨hkey, m', hm', of_decide_eq_true hid⟩
        | false => exact .inl (List.mem_filter.mpr ⟨hm, by rw [hany]; rfl⟩)
      · exact .inl hm
    · rintro (rfl | hle)
      · exact absurd hlimit.1 (Nat.lt_irrefl 0)
      · omega
  · dsimp only
    refine ⟨hnodup, hread, ?_, ?_, fun _ => hall, rfl⟩
    · intro key m hm
      dsimp only at hm
      split at hm
      · exact absurd hm List.not_mem_nil
      · rename_i hkey
        exact ⟨hm, fun hin => absurd hin hkey⟩
    · intro key m hm
      dsimp only
      split
      · rename_i hkey
        exact .inr ⟨hkey, hall key hkey m hm⟩
      · exact .inl hm

end

/-! ## Bindings -/

section

variable {env : RelayEnv} {now : ℚ} {recipientId agentId key : String} {s : Relay}

theorem liveBinding_idem {entry entry' : MailboxBinding}
    (h : liveBinding env now entry = some entry') : liveBinding env now entry' = some entry' := by
  unfold liveBinding at h ⊢
  obtain ⟨hcoerce, hlive⟩ := Option.filter_eq_some_iff.mp h
  have hidem : coerceMailboxBindingEntry env now entry' = some entry' := by
    unfold coerceMailboxBindingEntry at hcoerce ⊢
    dsimp only at hcoerce ⊢
    split_ifs at hcoerce with hempty hbound hused hused <;> cases hcoerce <;>
      simp_all [strip_strip] <;> split <;> simp_all
  exact Option.filter_eq_some_iff.mpr ⟨hidem, hlive⟩

theorem liveBinding_tokenHash {entry entry' : MailboxBinding}
    (h : liveBinding env now entry = some entry') :
    entry'.tokenHash = strip entry.tokenHash ∧ entry'.tokenHash ≠ "" := by
  unfold liveBinding at h
  obtain ⟨hcoerce, -⟩ := Option.filter_eq_some_iff.mp h
  unfold coerceMailboxBindingEntry at hcoerce
  dsimp only at hcoerce
  split_ifs at hcoerce with hempty <;> cases hcoerce <;> exact ⟨rfl, hempty⟩

/-- The binding is live and names the mailbox. -/
def LiveTo (env : RelayEnv) (now : ℚ) (recipientId key : String) (s : Relay) : Prop :=
  ∃ entry entry', s.mailboxBindings recipientId "requests" = some entry ∧
    liveBinding env now entry = some entry' ∧ entry'.tokenHash = key

theorem LiveTo.bound (h : LiveTo env now recipientId key s) :
    ∃ entry, BoundTo recipientId key entry s := by
  obtain ⟨entry, entry', hentry, hlive, hkey⟩ := h
  exact ⟨entry, hentry, (liveBinding_tokenHash hlive).1.symm.trans hkey⟩

theorem LiveTo.prune (h : LiveTo env now recipientId key s) :
    LiveTo env now recipientId key (pruneStaleMailboxBindings env now s) := by
  obtain ⟨entry, entry', hentry, hlive, hkey⟩ := h
  refine ⟨entry', entry', ?_, liveBinding_idem hlive, hkey⟩
  unfold pruneStaleMailboxBindings
  dsimp only
  rw [hentry, Option.bind_some, hlive]

/-- The token that is bound is the one of the live binding. -/
theorem LiveTo.boundToken (hrecipient : strip recipientId = recipientId)
    (h : LiveTo env now recipientId key s) :
    boundToken env now recipientId "requests" s = key ∧ key ≠ "" := by
  obtain ⟨entry, entry', hentry, hlive, hkey⟩ := h
  unfold Dm.boundToken
  rw [hrecipient, hentry, Option.bind_some, hlive]
  exact ⟨hkey, hkey ▸ (liveBinding_tokenHash hlive).2⟩

theorem liveTo_of_boundToken (hrecipient : strip recipientId = recipientId)
    (h : boundToken env now recipientId "requests" s = key) (hkey : key ≠ "") :
    LiveTo env now recipientId key s := by
  unfold Dm.boundToken at h
  rw [hrecipient] at h
  cases hentry : s.mailboxBindings recipientId "requests" with
  | none =>
    rw [hentry] at h
    exact absurd h.symm hkey
  | some entry =>
    rw [hentry, Option.bind_some] at h
    cases hlive : liveBinding env now entry with
    | none =>
      rw [hlive] at h
      exact absurd h.symm hkey
    | some entry' =>
      rw [hlive] at h
      exact ⟨entry, entry', hentry, hlive, h⟩

theorem strip_hashedMailboxToken (token : String) :
    strip (hashedMailboxToken env token) = hashedMailboxToken env token :=
  strip_of_no_space (env.sha256_no_space token)

/-- Remembering another binding leaves the one of the recipient. -/
theorem LiveTo.remember {kind token : String} (h : LiveTo env now recipientId key s)
    (hother : strip agentId ≠ recipientId ∨ kind ≠ "requests") :
    LiveTo env now recipientId key (rememberMailboxBinding env now agentId kind token s) := by
  obtain ⟨entry, entry', hentry, hlive, hkey⟩ := h.prune
  refine ⟨entry, entry', ?_, hlive, hkey⟩
  unfold rememberMailboxBinding
  dsimp only
  rcases hother with hagent | hkind
  · rw [Function.update_of_ne hagent.symm]
    exact hentry
  · rcases eq_or_ne recipientId (strip agentId) with heq | hne
    · rw [heq] at hentry ⊢
      rw [Function.update_self, Function.update_of_ne hkind.symm]
      exact hentry
    · rw [Function.update_of_ne hne]
      exact hentry

theorem refreshAfter_le (env : RelayEnv) :
    (mailboxBindingRefreshAfterSeconds env : ℚ) ≤ env.cfg.mailboxBindingTtlSeconds := by
  have httl := env.cfg.bindingTtl_ge
  unfold mailboxBindingRefreshAfterSeconds
  norm_cast
  omega

/-- A binding that was live under its own name expires later still when it is used now. -/
theorem le_expiresAt_refreshed {entry : MailboxBinding}
    (hlive : liveBinding env now entry = some entry)
    (hrecent : now - entry.boundAt < mailboxBindingRefreshAfterSeconds env) :
    (if entry.boundAt = 0 then now else entry.boundAt) = entry.boundAt ∧
      now ≤ mailboxBindingExpiresAt env entry.boundAt (if now = 0 then entry.boundAt else now) := by
  unfold liveBinding at hlive
  obtain ⟨hcoerce, hnow⟩ := Option.filter_eq_some_iff.mp hlive
  have hnow := of_decide_eq_true hnow
  unfold coerceMailboxBindingEntry at hcoerce
  dsimp only at hcoerce
  have hrefresh := refreshAfter_le env
  have hidle : (0 : ℚ) ≤ mailboxBindingIdleTtlSeconds env := Nat.cast_nonneg _
  rw [if_neg (by
    intro hempty
    rw [if_pos hempty] at hcoerce
    cases hcoerce)] at hcoerce
  have hentry := Option.some.inj hcoerce
  have hbound := congrArg MailboxBinding.boundAt hentry
  have hexpires := congrArg MailboxBinding.expiresAt hentry
  dsimp only at hbound hexpires
  refine ⟨hbound, ?_⟩
  rw [hbound] at hexpires
  rw [← hexpires] at hnow
  unfold mailboxBindingExpiresAt at hnow ⊢
  split
  · rename_i hpos
    rwa [if_pos hpos] at hnow
  · rename_i hpos
    have hpos := not_le.mp hpos
    refine le_min (by linarith) ?_
    split <;> linarith

theorem liveTo_remember (hrecipient : strip recipientId = recipientId) (token : String) :
    LiveTo env now recipientId (hashedMailboxToken env token)
      (rememberMailboxBinding env now recipientId "requests" token s) := by
  have hidle : (0 : ℚ) ≤ mailboxBindingIdleTtlSeconds env := Nat.cast_nonneg _
  have httl : (0 : ℚ) ≤ env.cfg.mailboxBindingTtlSeconds := Nat.cast_nonneg _
  set current := (pruneStaleMailboxBindings env now s).mailboxBindings recipientId "requests"
    with hcurrent
  have hentry : (rememberMailboxBinding env now recipientId "requests" token s).mailboxBindings
      recipientId "requests" = some (refreshedBinding env now (hashedMailboxToken env token) current) := by
    unfold rememberMailboxBinding
    dsimp only
    rw [hrecipient, Function.update_self, Function.update_self]
  have hbound : ∃ b, (refreshedBinding env now (hashedMailboxToken env token) current).boundAt = b ∧
      (if b = 0 then now else b) = b ∧
      now ≤ mailboxBindingExpiresAt env b (if now = 0 then b else now) := by
    have hfresh : (if now = 0 then now else now) = now ∧
        now ≤ mailboxBindingExpiresAt env now (if now = 0 then now else now) := by
      refine ⟨ite_self _, ?_⟩
      rw [ite_self]
      unfold mailboxBindingExpiresAt
      split
      · assumption
      · exact le_min (by linarith) (by linarith)
    refine ⟨_, rfl, ?_⟩
    unfold refreshedBinding
    dsimp only
    cases hnone : current with
    | none => exact hfresh
    | some entry =>
      dsimp only
      split
      · rename_i hrecent
        refine le_expiresAt_refreshed ?_ hrecent.2
        rw [hcurrent] at hnone
        obtain ⟨entry', -, hlive⟩ := Option.bind_eq_some_iff.mp hnone
        exact liveBinding_idem hlive
      · exact hfresh
  obtain ⟨b, hb, hsame, hle⟩ := hbound
  set used := if now = 0 then b else now with hused
  have hcoerce : coerceMailboxBindingEntry env now
      (refreshedBinding env now (hashedMailboxToken env token) current) =
        some ⟨hashedMailboxToken env token, b, used, mailboxBindingExpiresAt env b used⟩ := by
    have hhash : strip (refreshedBinding env now (hashedMailboxToken env token) current).tokenHash =
        hashedMailboxToken env token := strip_hashedMailboxToken token
    have hlast : (refreshedBinding env now (hashedMailboxToken env token) current).lastUsed = now :=
      rfl
    have hnonempty : hashedMailboxToken env token ≠ "" := env.sha256_ne_empty token
    unfold coerceMailboxBindingEntry
    dsimp only
    rw [hhash, hlast, hb, hsame, if_neg hnonempty]
  exact ⟨_, _, hentry, Option.filter_eq_some_iff.mpr ⟨hcoerce, decide_eq_true hle⟩, rfl⟩

/-- A claim of another agent, or of another kind, leaves the binding of the recipient. -/
theorem LiveTo.claim {claim : MailboxClaim} (h : LiveTo env now recipientId key s)
    (hother : strip agentId ≠ recipientId ∨ claim.binds env ≠ some "requests") :
    LiveTo env now recipientId key (mailboxKeysForClaim env now agentId claim s).1 := by
  unfold mailboxKeysForClaim
  dsimp only
  cases hbinds : claim.binds env with
  | none => exact h
  | some kind =>
    apply h.remember
    refine hother.imp_right fun hne hkind => hne ?_
    rw [hbinds, hkind]

theorem LiveTo.claims {claims : List MailboxClaim} (h : LiveTo env now recipientId key s)
    (hother : strip agentId ≠ recipientId ∨ ∀ claim ∈ claims, claim.binds env ≠ some "requests") :
    LiveTo env now recipientId key (claimKeys env now agentId claims s).1 := by
  induction claims generalizing s with
  | nil => exact h
  | cons claim claims ih =>
    apply ih (h.claim (hother.imp_right fun hall => hall claim List.mem_cons_self))
    exact hother.imp_right fun hall c hc => hall c (List.mem_cons_of_mem _ hc)

theorem liveTo_claim (hrecipient : strip recipientId = recipientId) {claim : MailboxClaim}
    (hbinds : claim.binds env = some "requests") :
    LiveTo env now recipientId (hashedMailboxToken env (strip claim.token))
      (mailboxKeysForClaim env now recipientId claim s).1 := by
  unfold mailboxKeysForClaim
  dsimp only
  rw [hbinds]
  exact liveTo_remember hrecipient _

/-- After claims that all bind one token of the recipient, it is bound. -/
theorem liveTo_claims (hrecipient : strip recipientId = recipientId) {claims : List MailboxClaim}
    (hkey : ∀ claim ∈ claims, claim.binds env = some "requests" →
      hashedMailboxToken env (strip claim.token) = key)
    (h : LiveTo env now recipientId key s) :
    LiveTo env now recipientId key (claimKeys env now recipientId claims s).1 := by
  induction claims generalizing s with
  | nil => exact h
  | cons claim claims ih =>
    apply ih fun c hc => hkey c (List.mem_cons_of_mem _ hc)
    by_cases hbinds : claim.binds env = some "requests"
    · rw [← hkey claim List.mem_cons_self hbinds]
      exact liveTo_claim hrecipient hbinds
    · exact h.claim (.inr hbinds)

/-- Claims that bind a token of the recipient read the mailbox that was bound. -/
theorem LiveTo.mem_claimKeys (hrecipient : strip recipientId = recipientId)
    {claims : List MailboxClaim} (hbinds : ∃ claim ∈ claims, claim.binds env = some "requests")
    (h : LiveTo env now recipientId key s) : key ∈ (claimKeys env now recipientId claims s).2 := by
  induction claims generalizing s with
  | nil =>
    obtain ⟨claim, hmem, -⟩ := hbinds
    exact absurd hmem List.not_mem_nil
  | cons claim claims ih =>
    refine List.mem_append.mpr ?_
    by_cases hclaim : claim.binds env = some "requests"
    · obtain ⟨hbound, hkey⟩ := h.boundToken hrecipient
      left
      rw [hclaim]
      dsimp only
      rw [hbound]
      exact List.mem_filter.mpr ⟨List.mem_cons_self, decide_eq_true hkey⟩
    · obtain ⟨c, hc, hcbinds⟩ := hbinds
      rcases List.mem_cons.mp hc with rfl | hc
      · exact absurd hcbinds hclaim
      · exact .inr (ih ⟨c, hc, hcbinds⟩ (h.claim (.inr hclaim)))

theorem epoch_mem_claimKeys {claims : List MailboxClaim} {epoch : Int}
    (hbinds : ∃ claim ∈ claims, claim.binds env = some "requests")
    (hepoch : epoch = epochBucket now ∨ epoch = epochBucket now - 1) :
    mailboxKey env "requests" recipientId epoch ∈ (claimKeys env now recipientId claims s).2 := by
  induction claims generalizing s with
  | nil =>
    obtain ⟨claim, hmem, -⟩ := hbinds
    exact absurd hmem List.not_mem_nil
  | cons claim claims ih =>
    refine List.mem_append.mpr ?_
    obtain ⟨c, hc, hcbinds⟩ := hbinds
    rcases List.mem_cons.mp hc with rfl | hc
    · left
      rw [hcbinds]
      refine List.mem_filter.mpr ⟨?_, decide_eq_true (env.sha256_ne_empty _)⟩
      rcases hepoch with rfl | rfl <;> simp
    · exact .inr (ih ⟨c, hc, hcbinds⟩)

/-! ## Time -/

theorem fresh_mono {m : DMMessage} {now' : ℚ} (h : m.fresh now' = true) (hle : now ≤ now') :
    m.fresh now = true := by
  unfold DMMessage.fresh at h ⊢
  cases hstamp : m.timestamp <;> rw [hstamp] at h <;>
    simp [PyFloat.sub, PyFloat.neg, PyFloat.add, PyFloat.lt, PyFloat.rat?] at h ⊢
  case finite => linarith
  case negZero => exact decide_eq_true (hle.trans_lt (of_decide_eq_true h))

theorem expiresFrom_finite {m : DMMessage} (h : m.timestamp = .finite now) : ExpiresFrom now m := by
  intro later hlater
  unfold DMMessage.fresh
  rw [h]
  simp [PyFloat.sub, PyFloat.neg, PyFloat.add, PyFloat.lt, PyFloat.rat?]
  linarith

/-- A message that expires in time is read in its epoch or in the next. -/
theorem epoch_of_fresh {m : DMMessage} {accepted : ℚ} (hle : accepted ≤ now)
    (hexpires : ExpiresFrom accepted m) (hfresh : m.fresh now = true) :
    epochBucket accepted = epochBucket now ∨ epochBucket accepted = epochBucket now - 1 := by
  have hlt : now < accepted + ttlSeconds := by
    by_contra hge
    rw [hexpires now (not_lt.mp hge)] at hfresh
    cases hfresh
  unfold epochBucket
  unfold ttlSeconds at hlt
  have hpos : (0 : ℚ) < epochSeconds := by norm_num [epochSeconds]
  have hlow : (accepted / epochSeconds).floor ≤ (now / epochSeconds).floor :=
    Rat.floor_monotone (div_le_div_of_nonneg_right hle hpos.le)
  have hhigh : (now / epochSeconds).floor ≤ (accepted / epochSeconds).floor + 1 := by
    have hdiv : now / epochSeconds ≤ accepted / epochSeconds + 1 := by
      rw [div_add_one hpos.ne']
      exact div_le_div_of_nonneg_right (by norm_num [epochSeconds]; linarith) hpos.le
    exact (Rat.floor_monotone hdiv).trans Rat.floor_add_one.le
  omega

end

/-! ## What is kept -/

section

variable {env : RelayEnv} {now : ℚ} {recipientId agentId key : String} {s : ParkState}
  {relay relay' : Relay} {m : DMMessage}

/-- A claim of the recipient will read the mailbox while the message is fresh. -/
def InReach (env : RelayEnv) (recipientId key : String) (m : DMMessage) (clock : ℚ) (s : Relay) :
    Prop :=
  (∃ entry, BoundTo recipientId key entry s) ∨
    ∃ accepted ≤ clock, key = mailboxKey env "requests" recipientId (epochBucket accepted) ∧
      ExpiresFrom accepted m

/-- Ids are of one mailbox or of one returned message, and each unread request is in reach. -/
structure Parked (env : RelayEnv) (recipientId : String) (s : ParkState) : Prop where
  held_ids : ∀ key, ∀ m ∈ s.relay.mailboxes key, m.msgId ∈ s.ids
  returned_ids : ∀ m ∈ s.returned, m.msgId ∈ s.ids
  accepted_ids : ∀ m ∈ s.accepted, m.msgId ∈ s.ids
  once : (s.returned.map (·.msgId)).Nodup
  gone : ∀ m' ∈ s.returned, ∀ key, ∀ m ∈ s.relay.mailboxes key, m.msgId ≠ m'.msgId
  one : ∀ key key' m m', m ∈ s.relay.mailboxes key → m' ∈ s.relay.mailboxes key' →
    m.msgId = m'.msgId → key = key'
  reach : ∀ m, s.Unread s.clock m → ∃ key, m ∈ s.relay.mailboxes key ∧
    InReach env recipientId key m s.clock s.relay

theorem ParkState.Unread.mono {now' : ℚ} (h : s.Unread now' m) (hle : now ≤ now') : s.Unread now m :=
  ⟨h.accepted, fresh_mono h.fresh hle, h.unreturned⟩

/-- A step that keeps what is fresh, and the bindings with unread requests. -/
theorem Parked.keep (h : Parked env recipientId s) (hclock : s.clock ≤ now)
    (hsub : ∀ key, ∀ m ∈ relay.mailboxes key, m ∈ s.relay.mailboxes key)
    (hkeep : ∀ key, ∀ m ∈ s.relay.mailboxes key, m.fresh now = true → m ∈ relay.mailboxes key)
    (hbound : ∀ m, s.Unread now m → ∀ key entry, m ∈ s.relay.mailboxes key →
      BoundTo recipientId key entry s.relay → ∃ entry, BoundTo recipientId key entry relay) :
    Parked env recipientId { s with relay, clock := now } where
  held_ids key m hm := h.held_ids key m (hsub key m hm)
  returned_ids := h.returned_ids
  accepted_ids := h.accepted_ids
  once := h.once
  gone m' hm' key m hm := h.gone m' hm' key m (hsub key m hm)
  one key key' m m' hm hm' := h.one key key' m m' (hsub key m hm) (hsub key' m' hm')
  reach m hm := by
    have hm : s.Unread now m := ⟨hm.accepted, hm.fresh, hm.unreturned⟩
    obtain ⟨key, hkey, hreach⟩ := h.reach m (hm.mono hclock)
    refine ⟨key, hkeep key m hkey hm.fresh, ?_⟩
    rcases hreach with ⟨entry, hentry⟩ | ⟨accepted, hle, hepoch⟩
    · exact .inl (hbound m hm key entry hkey hentry)
    · exact .inr ⟨accepted, hle.trans hclock, hepoch⟩

/-- A message with a new id is stored, in reach if it is a request for the recipient. -/
theorem Parked.store (h : Parked env recipientId s) (hnew : m.msgId ∉ s.ids) {isRequest : Prop}
    [Decidable isRequest] (hreach : isRequest → InReach env recipientId key m s.clock s.relay) :
    Parked env recipientId (s.after s.clock (append key m s.relay) (some m) isRequest) := by
  have hmailbox (key' : String) : (append key m s.relay).mailboxes key' =
      if key' = key then s.relay.mailboxes key ++ [m] else s.relay.mailboxes key' := by
    simp [append, Function.update_apply]
  have hmem (key' : String) (m' : DMMessage) : m' ∈ (append key m s.relay).mailboxes key' ↔
      m' ∈ s.relay.mailboxes key' ∨ key' = key ∧ m' = m := by
    rw [hmailbox]
    split
    · rename_i heq
      subst heq
      simp
    · rename_i hne
      simp [hne]
  have haccepted : ∀ m' ∈ (if isRequest then s.accepted ++ [m] else s.accepted),
      m' ∈ s.accepted ∨ isRequest ∧ m' = m := by
    intro m' hm'
    split at hm'
    · rename_i hrequest
      rcases List.mem_append.mp hm' with hm' | hm'
      · exact .inl hm'
      · exact .inr ⟨hrequest, List.mem_singleton.mp hm'⟩
    · exact .inl hm'
  have hids : ∀ id ∈ s.ids, id ∈ s.ids ++ [m.msgId] := fun id hid => List.mem_append_left _ hid
  have hlast : m.msgId ∈ s.ids ++ [m.msgId] := List.mem_append_right _ (List.mem_singleton.mpr rfl)
  constructor
  · intro key' m' hm'
    rcases (hmem key' m').mp hm' with hm' | ⟨-, rfl⟩
    · exact hids _ (h.held_ids key' m' hm')
    · exact hlast
  · exact fun m' hm' => hids _ (h.returned_ids m' hm')
  · intro m' hm'
    rcases haccepted m' hm' with hm' | ⟨-, rfl⟩
    · exact hids _ (h.accepted_ids m' hm')
    · exact hlast
  · exact h.once
  · intro m' hm' key' m'' hm''
    rcases (hmem key' m'').mp hm'' with hm'' | ⟨-, rfl⟩
    · exact h.gone m' hm' key' m'' hm''
    · exact fun heq => hnew (heq ▸ h.returned_ids m' hm')
  · intro key' key'' m' m'' hm' hm'' heq
    rcases (hmem key' m').mp hm' with hold' | ⟨rfl, rfl⟩ <;>
      rcases (hmem key'' m'').mp hm'' with hold'' | ⟨rfl, rfl⟩
    · exact h.one key' key'' m' m'' hold' hold'' heq
    · exact absurd (heq ▸ h.held_ids key' m' hold') hnew
    · exact absurd (heq ▸ h.held_ids key'' m'' hold'') hnew
    · rfl
  · intro m' hm'
    rcases haccepted m' hm'.accepted with hold | ⟨hrequest, rfl⟩
    · obtain ⟨key', hkey', hreach'⟩ := h.reach m' ⟨hold, hm'.fresh, hm'.unreturned⟩
      exact ⟨key', (hmem key' m').mpr (.inl hkey'), hreach'⟩
    · exact ⟨key, (hmem key m').mpr (.inr ⟨rfl, rfl⟩), hreach hrequest⟩

theorem Parked.collect {keys : List String} {limit : Nat} {collected : List DMMessage}
    (h : Parked env recipientId s) (hmailboxes : relay.mailboxes = s.relay.mailboxes)
    (hcollected : Collected keys limit relay relay' collected)
    (hreach : ∀ m, s.Unread s.clock m → ∀ key, m ∈ s.relay.mailboxes key →
      InReach env recipientId key m s.clock s.relay →
      (∃ m' ∈ collected, m'.msgId = m.msgId) ∨ InReach env recipientId key m s.clock relay') :
    Parked env recipientId { s with relay := relay', returned := s.returned ++ collected } := by
  have hleft : ∀ key, ∀ m ∈ relay'.mailboxes key, m ∈ s.relay.mailboxes key :=
    fun key m hm => hmailboxes ▸ (hcollected.left key m hm).1
  have hread : ∀ m ∈ collected, ∃ key ∈ keys, m ∈ s.relay.mailboxes key :=
    hmailboxes ▸ hcollected.read
  constructor
  · exact fun key m hm => h.held_ids key m (hleft key m hm)
  · intro m hm
    rcases List.mem_append.mp hm with hm | hm
    · exact h.returned_ids m hm
    · obtain ⟨key, -, hkey⟩ := hread m hm
      exact h.held_ids key m hkey
  · exact h.accepted_ids
  · dsimp only
    rw [List.map_append]
    refine List.nodup_append'.mpr ⟨h.once, hcollected.once, ?_⟩
    rw [List.disjoint_left]
    intro id hid hid'
    obtain ⟨m', hm', rfl⟩ := List.mem_map.mp hid
    obtain ⟨m, hm, heq⟩ := List.mem_map.mp hid'
    obtain ⟨key, -, hkey⟩ := hread m hm
    exact h.gone m' hm' key m hkey heq
  · intro m' hm' key m hm
    rcases List.mem_append.mp hm' with hm' | hm'
    · exact h.gone m' hm' key m (hleft key m hm)
    · intro heq
      obtain ⟨key', hkeys, hkey'⟩ := hread m' hm'
      have hsame := h.one key key' m m' (hleft key m hm) hkey' heq
      exact (hcollected.left key m hm).2 (hsame ▸ hkeys) m' hm' heq
  · exact fun key key' m m' hm hm' => h.one key key' m m' (hleft key m hm) (hleft key' m' hm')
  · intro m hm
    have hnot : ∀ m' ∈ collected, m'.msgId ≠ m.msgId :=
      fun m' hm' => hm.unreturned m' (List.mem_append_right _ hm')
    have hunread : s.Unread s.clock m :=
      ⟨hm.accepted, hm.fresh, fun m' hm' => hm.unreturned m' (List.mem_append_left _ hm')⟩
    obtain ⟨key, hkey, hin⟩ := h.reach m hunread
    refine ⟨key, ?_, ?_⟩
    · rcases hcollected.kept key m (hmailboxes ▸ hkey) with hkept | ⟨-, m', hm', heq⟩
      · exact hkept
      · exact absurd heq (hnot m' hm')
    · rcases hreach m hunread key hkey hin with ⟨m', hm', heq⟩ | hin
      · exact absurd heq (hnot m' hm')
      · exact hin

/-- A collect of another agent that reads no mailbox with unread requests. -/
theorem Parked.collect_other {keys : List String} {limit : Nat} {collected : List DMMessage}
    (h : Parked env recipientId s) (hmailboxes : relay.mailboxes = s.relay.mailboxes)
    (hcollected : Collected keys limit relay relay' collected)
    (hkeys : ∀ m, s.Unread s.clock m → ∀ key, m ∈ s.relay.mailboxes key → key ∉ keys)
    (hbound : ∀ m, s.Unread s.clock m → ∀ key entry, m ∈ s.relay.mailboxes key →
      BoundTo recipientId key entry s.relay → ∃ entry, BoundTo recipientId key entry relay') :
    Parked env recipientId { s with relay := relay' } := by
  have hleft : ∀ key, ∀ m ∈ relay'.mailboxes key, m ∈ s.relay.mailboxes key :=
    fun key m hm => hmailboxes ▸ (hcollected.left key m hm).1
  constructor
  · exact fun key m hm => h.held_ids key m (hleft key m hm)
  · exact h.returned_ids
  · exact h.accepted_ids
  · exact h.once
  · exact fun m' hm' key m hm => h.gone m' hm' key m (hleft key m hm)
  · exact fun key key' m m' hm hm' => h.one key key' m m' (hleft key m hm) (hleft key' m' hm')
  · intro m hm
    have hunread : s.Unread s.clock m := ⟨hm.accepted, hm.fresh, hm.unreturned⟩
    obtain ⟨key, hkey, hin⟩ := h.reach m hunread
    refine ⟨key, ?_, ?_⟩
    · rcases hcollected.kept key m (hmailboxes ▸ hkey) with hkept | ⟨hread, -⟩
      · exact hkept
      · exact absurd hread (hkeys m hunread key hkey)
    · rcases hin with ⟨entry, hentry⟩ | hepoch
      · exact .inl (hbound m hunread key entry hkey hentry)
      · exact .inr hepoch

/-! ## Steps -/

theorem ParkState.after_none {isRequest : Prop} [Decidable isRequest] :
    s.after now relay none isRequest = { s with relay, clock := now } := by
  unfold ParkState.after
  simp

theorem isStored_new (msgId : String) : isStored (.ok { msgId }) = true := rfl

theorem isStored_false {result : Except String Receipt}
    (h : ∀ r, result = .ok r → r.duplicate = true) : isStored result = false := by
  cases result with
  | error detail => rfl
  | ok r => simp [isStored, h r rfl]

theorem LiveBindings.liveTo (h : LiveBindings env recipientId now s) (hunread : s.Unread now m)
    (hm : m ∈ s.relay.mailboxes key) {entry : MailboxBinding}
    (hentry : BoundTo recipientId key entry s.relay) :
    LiveTo env now recipientId key s.relay := by
  obtain ⟨entry', hlive⟩ := Option.isSome_iff_exists.mp (h m hunread key entry hm hentry)
  exact ⟨entry, entry', hentry.1, hlive, (liveBinding_tokenHash hlive).1.trans hentry.2⟩

/-- A relay without its expired messages. -/
theorem Parked.cleanup (h : Parked env recipientId s) (hclock : s.clock ≤ now)
    (hmailboxes : relay.mailboxes = s.relay.mailboxes)
    (hbound : ∀ m, s.Unread now m → ∀ key entry, m ∈ s.relay.mailboxes key →
      BoundTo recipientId key entry s.relay → ∃ entry, BoundTo recipientId key entry relay) :
    Parked env recipientId { s with relay := cleanupExpired now relay, clock := now } := by
  refine h.keep hclock ?_ ?_ hbound
  · intro key m hm
    exact hmailboxes ▸ (List.mem_filter.mp hm).1
  · intro key m hm hfresh
    exact List.mem_filter.mpr ⟨hmailboxes ▸ hm, hfresh⟩

theorem Parked.deposit {d : Deposit} (h : Parked env recipientId s) (hclock : s.clock ≤ now)
    (hnew : ∀ key, d.mailbox env now = .ok key → d.id ∈ s.ids →
      ∃ m ∈ (cleanupExpired now s.relay).mailboxes key, m.msgId = d.id) :
    Parked env recipientId (parkStep env recipientId s (now, .deposit d)) := by
  have hclean := h.cleanup hclock (rfl : s.relay.mailboxes = _)
    fun _ _ _ entry _ hentry => ⟨entry, hentry⟩
  unfold parkStep
  dsimp only
  rcases deposit_cases env now d s.relay with ⟨hsame | hcleaned, hresult⟩ | ⟨key, hstored, heq⟩
  · rw [isStored_false hresult, hsame]
    rw [if_neg Bool.false_ne_true, ParkState.after_none]
    exact h.keep hclock (fun _ _ hm => hm) (fun _ _ hm _ => hm)
      fun _ _ _ entry _ hentry => ⟨entry, hentry⟩
  · rw [isStored_false hresult, hcleaned, if_neg Bool.false_ne_true, ParkState.after_none]
    exact hclean
  · rw [heq]
    have hid : (d.message env now).msgId ∉ s.ids := by
      rw [Deposit.message_msgId]
      intro hin
      obtain ⟨m, hm, heq⟩ := hnew key hstored.mailbox hin
      exact hstored.new m hm heq
    refine Parked.store hclean hid ?_
    rintro ⟨hclass, hto⟩
    refine .inr ⟨now, le_rfl, ?_, expiresFrom_finite Deposit.message_timestamp⟩
    have hmailbox := hstored.mailbox
    unfold Deposit.mailbox at hmailbox
    rw [if_pos hclass] at hmailbox
    split_ifs at hmailbox
    cases hmailbox
    rw [hto]

theorem replicaMailbox_request {r : Replica} {s : Relay} (hclass : r.deliveryClass = "request")
    (hto : r.recipientId = recipientId) (hrecipient : strip recipientId = recipientId)
    (hnonempty : recipientId ≠ "") :
    (replicaMailbox env now r s).1 = pruneStaleMailboxBindings env now s ∧
      (replicaMailbox env now r s).2 =
        if boundToken env now recipientId "requests" s ≠ "" then
          boundToken env now recipientId "requests" s
        else mailboxKey env "requests" recipientId (epochBucket now) := by
  unfold replicaMailbox requestKeyForDelivery
  rw [if_pos ⟨hclass, hto ▸ hnonempty⟩, hto, hrecipient]
  exact ⟨rfl, rfl⟩

theorem Parked.acceptReplica {localNodeId : String} {envelope : Dict}
    (h : Parked env recipientId s) (hrecipient : strip recipientId = recipientId)
    (hnonempty : recipientId ≠ "") (hclock : s.clock ≤ now)
    (hlive : LiveBindings env recipientId now s)
    (hnew : (readReplica env envelope localNodeId).msgId ∈ s.ids →
      ∃ m ∈ (cleanupExpired now s.relay).mailboxes
        (replicaMailbox env now (readReplica env envelope localNodeId) s.relay).2,
        m.msgId = (readReplica env envelope localNodeId).msgId)
    (hstamp : boundToken env now recipientId "requests" s.relay = "" →
      ExpiresFrom now (replicaOf env now localNodeId envelope)) :
    Parked env recipientId (parkStep env recipientId s (now, .acceptReplica localNodeId envelope)) := by
  unfold parkStep
  dsimp only
  set r := readReplica env envelope localNodeId with hr
  set relay := (replicaMailbox env now r s.relay).1 with hrelay
  have hmailboxes : relay.mailboxes = s.relay.mailboxes := replicaMailbox_mailboxes env now r s.relay
  have hbound : ∀ m, s.Unread now m → ∀ key entry, m ∈ s.relay.mailboxes key →
      BoundTo recipientId key entry s.relay → ∃ entry, BoundTo recipientId key entry relay := by
    intro m hm key entry hkey hentry
    have hliveTo := hlive.liveTo hm hkey hentry
    rcases replicaMailbox_cases env now r s.relay with hsame | hpruned
    · exact ⟨entry, by rw [hrelay, hsame]; exact hentry⟩
    · rw [hrelay, hpruned]
      exact hliveTo.prune.bound
  have hclean := h.cleanup hclock hmailboxes hbound
  rcases acceptReplica_cases env now localNodeId envelope s.relay with
    ⟨hsame | hcleaned, hresult⟩ | ⟨timestamp, hstored, heq⟩
  · rw [isStored_false hresult, hsame, if_neg Bool.false_ne_true, ParkState.after_none]
    exact h.keep hclock (fun _ _ hm => hmailboxes ▸ hm) (fun _ _ hm _ => hmailboxes ▸ hm) hbound
  · rw [isStored_false hresult, hcleaned, if_neg Bool.false_ne_true, ParkState.after_none]
    exact hclean
  · have hmessage : replicaOf env now localNodeId envelope =
        replicaMessage env envelope r timestamp := by
      unfold replicaOf
      rw [hstored.stamp]
      rfl
    rw [heq]
    dsimp only
    rw [isStored_new, if_pos rfl, hmessage]
    have hid : (replicaMessage env envelope r timestamp).msgId ∉ s.ids := by
      intro hin
      obtain ⟨m, hm, heq⟩ := hnew hin
      exact hstored.new m hm heq
    refine hclean.store hid ?_
    rintro ⟨hclass, hto⟩
    obtain ⟨hpruned, hkey⟩ := @replicaMailbox_request env now _ _ s.relay hclass hto
      hrecipient hnonempty
    dsimp only
    rw [hrelay, hpruned, hkey]
    split
    · rename_i htoken
      exact .inl (liveTo_of_boundToken hrecipient rfl htoken).prune.bound
    · rename_i htoken
      rw [← hmessage]
      exact .inr ⟨now, le_rfl, rfl, hstamp (not_not.mp htoken)⟩

theorem Parked.peek {claims : List MailboxClaim} (h : Parked env recipientId s)
    (hrecipient : strip recipientId = recipientId) (hclock : s.clock ≤ now)
    (hlive : LiveBindings env recipientId now s)
    (hsame : strip agentId = recipientId →
      agentId = recipientId ∧ SameToken env recipientId now claims s) :
    Parked env recipientId { s with
      relay := (claimKeys env now agentId (claims.take 32) (cleanupExpired now s.relay)).1
      clock := now } := by
  refine h.keep hclock ?_ ?_ ?_
  · intro key m hm
    rw [claimKeys_mailboxes] at hm
    exact (List.mem_filter.mp hm).1
  · intro key m hm hfresh
    rw [claimKeys_mailboxes]
    exact List.mem_filter.mpr ⟨hm, hfresh⟩
  · intro m hm key entry hkey hentry
    have hliveTo : LiveTo env now recipientId key (cleanupExpired now s.relay) :=
      hlive.liveTo hm hkey hentry
    by_cases hagent : strip agentId = recipientId
    · obtain ⟨rfl, htoken⟩ := hsame hagent
      exact (liveTo_claims hrecipient (htoken m hm key entry hkey hentry) hliveTo).bound
    · exact (hliveTo.claims (.inl hagent)).bound

/-- The mailbox of an unread request is read by claims that bind a token of the recipient. -/
theorem mem_claimed {claims : List MailboxClaim} (hrecipient : strip recipientId = recipientId)
    (hbinds : ∃ claim ∈ claims.take 32, claim.binds env = some "requests")
    (hlive : LiveBindings env recipientId now s) (hm : s.Unread now m)
    (hkey : m ∈ s.relay.mailboxes key) (hin : InReach env recipientId key m now s.relay) :
    key ∈ claimedMailboxes env now recipientId claims s.relay := by
  unfold claimedMailboxes
  rw [List.mem_dedup]
  rcases hin with ⟨entry, hentry⟩ | ⟨accepted, hle, rfl, hexpires⟩
  · have hliveTo : LiveTo env now recipientId key (cleanupExpired now s.relay) :=
      hlive.liveTo hm hkey hentry
    exact hliveTo.mem_claimKeys hrecipient hbinds
  · exact epoch_mem_claimKeys hbinds (epoch_of_fresh hle hexpires hm.fresh)

theorem Parked.collectClaims {claims : List MailboxClaim} {limit : Nat}
    (h : Parked env recipientId s) (hrecipient : strip recipientId = recipientId)
    (hclock : s.clock ≤ now) (hlive : LiveBindings env recipientId now s)
    (hkeeps : if agentId = recipientId then
        CollectsAll env now agentId claims limit s.relay ∨ SameToken env recipientId now claims s
      else strip agentId ≠ recipientId ∧
        ∀ m, s.Unread now m → ∀ key, m ∈ s.relay.mailboxes key →
          key ∉ claimedMailboxes env now agentId claims s.relay) :
    Parked env recipientId
      (parkStep env recipientId s (now, .collectClaims agentId claims limit)) := by
  have hclean := h.cleanup hclock (rfl : s.relay.mailboxes = _)
    fun _ _ _ entry _ hentry => ⟨entry, hentry⟩
  have hmailboxes : (claimKeys env now agentId (claims.take 32)
      (cleanupExpired now s.relay)).1.mailboxes = (cleanupExpired now s.relay).mailboxes :=
    claimKeys_mailboxes _ _
  have hcollected := collectFromKeys_collected (claimedMailboxes env now agentId claims s.relay) limit
    (claimKeys env now agentId (claims.take 32) (cleanupExpired now s.relay)).1
  have hunread : ∀ m, ParkState.Unread now
      { s with relay := cleanupExpired now s.relay, clock := now } m → s.Unread now m :=
    fun m hm => ⟨hm.accepted, hm.fresh, hm.unreturned⟩
  have hheld : ∀ key m, m ∈ (cleanupExpired now s.relay).mailboxes key →
      m ∈ s.relay.mailboxes key := fun key m hm => (List.mem_filter.mp hm).1
  unfold parkStep Dm.collectClaims
  dsimp only
  by_cases hagent : agentId = recipientId
  · subst hagent
    rw [if_pos rfl] at hkeeps
    rw [if_pos rfl]
    refine hclean.collect hmailboxes hcollected ?_
    intro m hm key hkey hin
    have hm := hunread m hm
    have hbound : ∀ key, LiveTo env now agentId key (claimKeys env now agentId (claims.take 32)
        (cleanupExpired now s.relay)).1 → InReach env agentId key m now (collectFromKeys
          (claimedMailboxes env now agentId claims s.relay) limit (claimKeys env now agentId
            (claims.take 32) (cleanupExpired now s.relay)).1).1 := by
      intro key hliveTo
      obtain ⟨entry, hentry⟩ := hliveTo.bound
      refine .inl ⟨entry, ?_⟩
      unfold BoundTo
      rw [hcollected.bindings]
      exact hentry
    rcases hkeeps with hall | hsame
    · by_cases hbinds : ∃ claim ∈ claims.take 32, claim.binds env = some "requests"
      · left
        refine hcollected.all ?_ key
          (mem_claimed hrecipient hbinds hlive hm (hheld key m hkey) hin) m (hmailboxes ▸ hkey)
        rw [hmailboxes]
        exact hall
      · right
        rcases hin with ⟨entry, hentry⟩ | hepoch
        · have hliveTo : LiveTo env now agentId key (cleanupExpired now s.relay) :=
            hlive.liveTo hm (hheld key m hkey) hentry
          refine hbound key (hliveTo.claims (.inr fun claim hclaim hbind => ?_))
          exact hbinds ⟨claim, hclaim, hbind⟩
        · exact .inr hepoch
    · right
      rcases hin with ⟨entry, hentry⟩ | hepoch
      · have hliveTo : LiveTo env now agentId key (cleanupExpired now s.relay) :=
          hlive.liveTo hm (hheld key m hkey) hentry
        exact hbound key (liveTo_claims hrecipient
          (hsame m hm key entry (hheld key m hkey) hentry) hliveTo)
      · exact .inr hepoch
  · rw [if_neg hagent] at hkeeps
    rw [if_neg hagent]
    obtain ⟨hother, hkeys⟩ := hkeeps
    refine hclean.collect_other hmailboxes hcollected ?_ ?_
    · exact fun m hm key hkey => hkeys m (hunread m hm) key (hheld key m hkey)
    · intro m hm key entry hkey hentry
      have hliveTo : LiveTo env now recipientId key (cleanupExpired now s.relay) :=
        hlive.liveTo (hunread m hm) (hheld key m hkey) hentry
      obtain ⟨entry', hentry'⟩ := (LiveTo.claims hliveTo (.inl hother)).bound
      exact ⟨entry', (congrFun (congrFun hcollected.bindings _) _).trans hentry'.1, hentry'.2⟩

/-- One step keeps every unread request in reach. -/
theorem parkStep_parked (hrecipient : strip recipientId = recipientId) (hnonempty : recipientId ≠ "")
    (h : Parked env recipientId s) {a : ℚ × ParkAction}
    (hkeeps : KeepsParked env recipientId s a) :
    Parked env recipientId (parkStep env recipientId s a) := by
  obtain ⟨now, a⟩ := a
  obtain ⟨hclock, hlive, hkeeps⟩ := hkeeps
  cases a with
  | deposit d => exact h.deposit hclock hkeeps
  | acceptReplica localNodeId envelope =>
    exact h.acceptReplica hrecipient hnonempty hclock hlive hkeeps.1 hkeeps.2
  | countClaims agentId claims => exact h.peek hrecipient hclock hlive hkeeps
  | claimMessageIds agentId claims => exact h.peek hrecipient hclock hlive hkeeps
  | collectClaims agentId claims limit => exact h.collectClaims hrecipient hclock hlive hkeeps

/-- After a collect that reads all requests of the recipient, none is unread. -/
theorem read_all (hrecipient : strip recipientId = recipientId) (h : Parked env recipientId s)
    {claim : MailboxClaim} (hclaim : claim.binds env = some "requests") (hclock : s.clock ≤ now)
    (hlive : LiveBindings env recipientId now s) :
    ∀ m, ¬ (parkStep env recipientId s (now, .collectClaims recipientId [claim] 0)).Unread now m := by
  intro m hm
  have hclean := h.cleanup hclock (rfl : s.relay.mailboxes = _)
    fun _ _ _ entry _ hentry => ⟨entry, hentry⟩
  have hmailboxes : (claimKeys env now recipientId ([claim].take 32)
      (cleanupExpired now s.relay)).1.mailboxes = (cleanupExpired now s.relay).mailboxes :=
    claimKeys_mailboxes _ _
  have hcollected := collectFromKeys_collected
    (claimedMailboxes env now recipientId [claim] s.relay) 0
    (claimKeys env now recipientId ([claim].take 32) (cleanupExpired now s.relay)).1
  unfold parkStep Dm.collectClaims at hm
  dsimp only at hm
  rw [if_pos rfl] at hm
  have hunread : s.Unread now m :=
    ⟨hm.accepted, hm.fresh, fun m' hm' => hm.unreturned m' (List.mem_append_left _ hm')⟩
  obtain ⟨key, hkey, hin⟩ := hclean.reach m ⟨hunread.accepted, hunread.fresh, hunread.unreturned⟩
  have hbinds : ∃ c ∈ [claim].take 32, c.binds env = some "requests" :=
    ⟨claim, List.mem_singleton.mpr rfl, hclaim⟩
  have hread := mem_claimed hrecipient hbinds hlive hunread (List.mem_filter.mp hkey).1 hin
  obtain ⟨m', hm', heq⟩ := hcollected.all (.inl rfl) key hread m (hmailboxes ▸ hkey)
  exact hm.unreturned m' (List.mem_append_right _ hm') heq

end

/-- While the requests are in reach, each is returned by exactly one collect. -/
theorem requests_returned (env : RelayEnv) (recipientId : String) (relay : Relay) (clock : ℚ)
    (actions : List (ℚ × ParkAction)) (now : ℚ) (claim : MailboxClaim)
    (hrecipient : strip recipientId = recipientId) (hnonempty : recipientId ≠ "")
    (hempty : ∀ key, relay.mailboxes key = [])
    (hclaim : claim.binds env = some "requests")
    (hrun : Along (parkStep env recipientId) (KeepsParked env recipientId) { relay, clock }
      (actions ++ [(now, .collectClaims recipientId [claim] 0)])) :
    let s := run (parkStep env recipientId) { relay, clock }
      (actions ++ [(now, .collectClaims recipientId [claim] 0)])
    (s.returned.map (·.msgId)).Nodup ∧
      ∀ m ∈ s.accepted, m.fresh now = true →
        (s.returned.map (·.msgId)).count m.msgId = 1 ∧
          ∀ key, ∀ m' ∈ s.relay.mailboxes key, m'.msgId ≠ m.msgId := by
  have hstart : Parked env recipientId { relay, clock } := by
    have hnone : ∀ key m, m ∉ relay.mailboxes key := fun key m hm => by
      rw [hempty key] at hm
      exact absurd hm List.not_mem_nil
    exact ⟨fun key m hm => absurd hm (hnone key m), fun m hm => absurd hm List.not_mem_nil,
      fun m hm => absurd hm List.not_mem_nil, List.nodup_nil,
      fun m' hm' => absurd hm' List.not_mem_nil, fun key _ m _ hm => absurd hm (hnone key m),
      fun m hm => absurd hm.accepted List.not_mem_nil⟩
  rw [along_append] at hrun
  obtain ⟨hactions, hlast, -⟩ := hrun
  have hstep : ∀ s a, Parked env recipientId s → KeepsParked env recipientId s a →
      Parked env recipientId (parkStep env recipientId s a) :=
    fun _ _ h hkeeps => parkStep_parked hrecipient hnonempty h hkeeps
  have hbefore := invariant hstep hstart hactions
  have hafter := parkStep_parked hrecipient hnonempty hbefore hlast
  rw [run_append, run_cons, run_nil]
  have hread := read_all hrecipient hbefore hclaim hlast.1 hlast.2.1
  generalize parkStep env recipientId _ _ = s at hafter hread ⊢
  refine ⟨hafter.once, fun m hm hfresh => ?_⟩
  obtain ⟨m', hm', heq⟩ : ∃ m' ∈ s.returned, m'.msgId = m.msgId := by
    by_contra hnone
    push Not at hnone
    exact hread m ⟨hm, hfresh, hnone⟩
  constructor
  · exact List.count_eq_one_of_mem hafter.once (List.mem_map.mpr ⟨m', hm', heq⟩)
  · exact fun key m'' hm'' => heq ▸ hafter.gone m' hm' key m'' hm''

/-- A claim of a token. -/
def requestsClaim (token : String) : MailboxClaim where
  type := "requests"
  token

theorem requests_returned_sample :
    let s := run (parkStep plainRelayEnv "ana") { relay := {}, clock := 0 }
      [(100, .deposit (requestOf "bob" "ana" "m1")),
        (110, .collectClaims "ana" [requestsClaim "t1"] 0)]
    (s.returned.map (·.msgId)).Nodup ∧
      ∀ m ∈ s.accepted, m.fresh 110 = true →
        (s.returned.map (·.msgId)).count m.msgId = 1 ∧
          ∀ key, ∀ m' ∈ s.relay.mailboxes key, m'.msgId ≠ m.msgId := by
  apply requests_returned plainRelayEnv "ana" {} 0 [(100, .deposit (requestOf "bob" "ana" "m1"))]
    110 (requestsClaim "t1") (by decide +kernel) (by decide +kernel) (fun _ => rfl)
    (by decide +kernel)
  refine ⟨⟨by decide +kernel, ?_, ?_⟩, ⟨by decide +kernel, ?_, ?_⟩, trivial⟩
  · exact fun m hm => absurd hm.accepted List.not_mem_nil
  · exact fun _ _ hid => absurd hid List.not_mem_nil
  · intro m _ key entry _ hentry
    have hnone : (parkStep plainRelayEnv "ana" { relay := {}, clock := 0 }
        (100, .deposit (requestOf "bob" "ana" "m1"))).relay.mailboxBindings "ana" "requests" =
          none := by
      decide +kernel
    exact absurd (hnone.symm.trans hentry.1) (by simp)
  · exact .inl (.inl rfl)

/-- A count with a new token puts a replica out of reach. -/
theorem not_requests_returned :
    ¬ ∀ (env : RelayEnv) (recipientId : String) (actions : List (ℚ × ParkAction)) (now : ℚ)
      (claim : MailboxClaim), strip recipientId = recipientId → recipientId ≠ "" →
      (actions.map Prod.fst ++ [now]).Pairwise (· ≤ ·) → claim.binds env = some "requests" →
      let s := run (parkStep env recipientId) { relay := {}, clock := 0 }
        (actions ++ [(now, .collectClaims recipientId [claim] 0)])
      ∀ m ∈ s.accepted, m.fresh now = true →
        (s.returned.map (·.msgId)).count m.msgId = 1 ∧
          ∀ key, ∀ m' ∈ s.relay.mailboxes key, m'.msgId ≠ m.msgId := by
  intro h
  have hcount := (h plainRelayEnv "ana"
    [(100, .countClaims "ana" [requestsClaim "t1"]),
      (110, .acceptReplica "" (envelopeOf "bob" "ana" "m1")),
      (120, .countClaims "ana" [requestsClaim "t2"])] 130 (requestsClaim "t3")
    (by decide +kernel) (by decide +kernel) (by decide +kernel) (by decide +kernel)
    (replicaOf plainRelayEnv 110 "" (envelopeOf "bob" "ana" "m1"))
    (by decide +kernel) (by decide +kernel)).1
  revert hcount
  decide +kernel

end Vincent.Dm
