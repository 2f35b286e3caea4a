-- SUMMARY: Replaying a chain into an empty ledger at a later time.
import Vincent.Mesh.Steps
import Vincent.Mesh.Tables

/-!
# Replay at a later time

A node that joins late feeds the chain of another node to its own empty ledger.
The chain was built by appends and batches at earlier times. `Replayable` lists
what still has to hold of an event when it is replayed: everything else follows
from how the chain was built.
-/

namespace Vincent.Mesh

open Vincent.Python Vincent.Check Vincent.Run Relation

/-! ## Building a chain -/

/-- A call that changes the ledger. -/
inductive LedgerOp where
  | append (c : AppendCall)
  | ingest (items : List WireItem)

/-- The ledger after the call, whatever the call returned. -/
def LedgerOp.apply (env : Env) (call : Call) (net : Infonet) : LedgerOp → Infonet
  | .append c => (net.append env call c).1
  | .ingest items => (net.ingestEvents env call items).1

/-- The ledger that a sequence of calls builds from the empty one. -/
def build (env : Env) (start : Call) (ops : List (Call × LedgerOp)) : Infonet :=
  run (fun net op => op.2.apply env op.1 net) (Infonet.empty start) ops

theorem advances_apply {env : Env} {call : Call} (net : Infonet) (op : LedgerOp) :
    Advances env call net (op.apply env call net) := by
  cases op with
  | append c => exact advances_append net c
  | ingest items => exact advances_ingestEvents net items

/-- The node with the freshness window switched off. -/
def Env.freshnessDisabled (env : Env) : Env := { env with ingestEventMaxAgeS := 0 }

theorem Sound.freshnessDisabled {env : Env} {e : ChainEvent} (h : Sound env e) :
    Sound env.freshnessDisabled e := by
  have hsig : checkSignature env.freshnessDisabled e (e.seqNum env.rt) e.payload =
      checkSignature env e (e.seqNum env.rt) e.payload := checkSignature_congr env env.freshnessDisabled rfl rfl _ _ _
  exact ⟨h.allowed, h.eventId, h.prevHash, h.nodeId, h.network, h.sequence, h.sequencePos,
    h.payload, h.ledgerPayload, h.ephemeral, h.size, h.version, h.signed, h.algo, h.ownKey,
    h.binding, hsig.trans h.signature⟩

/-! ## The ledger of a replayed chain -/

/-- What a replay at the time of `call` needs of an event after the events `pre`. -/
structure Replayable (env : Env) (call : Call) (pre : List ChainEvent) (e : ChainEvent) : Prop where
  allowed : e.eventType ∈ allowedEventTypes
  notRevoked : revokedBy env.rt pre call.now e.publicKey → e.eventType = "key_revoke"
  unknown : e.eventId ∉ pre.map (·.eventId)
  unseen : ¬ filterCollision env call.salt pre e.eventId
  stamped : e.timestamp.truthy = true ∨ ChainEvent.hashMatches env call e = true
  /-- Past the memory cap, the builder no longer counted the archived messages. -/
  spool : maxChainMemory < pre.length → e.eventType = "dm_message" →
    (dmSpoolTargetKey env.rt e.payload).2 = "" ∨
    DmSpoolRoom env call.now (dmSpoolTargetKey env.rt e.payload) (strip e.nodeId) pre

namespace Infonet

variable (env : Env) (call : Call)

/-- The ledger of a node that has replayed a chain. -/
def replayed (chain : List ChainEvent) : Infonet := (empty call).commitAll env call chain

theorem replayed_concat (chain : List ChainEvent) (e : ChainEvent) :
    replayed env call (chain ++ [e]) = (replayed env call chain).commit env call e := by
  simp [replayed, commitAll, run_append]

@[simp] theorem replayed_events (chain : List ChainEvent) :
    (replayed env call chain).events = chain := by
  induction chain using List.reverseRecOn with
  | nil => rfl
  | append_singleton chain e ih => simp [replayed_concat, ih]

/-- The filter never rotates within one replay. -/
theorem replayed_tables (chain : List ChainEvent) (hids : ∀ e ∈ chain, e.eventId ≠ "") :
    Tables env call chain (replayed env call chain) := by
  induction chain using List.reverseRecOn with
  | nil => exact Tables.empty rfl rfl rfl
  | append_singleton chain e ih =>
    rw [replayed_concat]
    exact (ih fun e' he' => hids e' (by simp [he'])).commit (hids e (by simp))

end Infonet

/-! ## What the builder has established -/

/-- What building the chain establishes of an event, against the ledger of a replay
    that has reached it. -/
structure Guaranteed (env : Env) (now : ℚ) (net : Infonet) (e : ChainEvent) : Prop where
  eventId : e.eventId ≠ ""
  sound : e.eventType ∈ allowedEventTypes → Sound env e
  linked : e.prevHash = net.headHash
  sequence : net.lastSequence (e.slot env.rt) < e.seqNum env.rt
  bindable : net.publicKeyBindings e.publicKey = "" ∨ net.publicKeyBindings e.publicKey = e.nodeId
  spool : net.events.length ≤ maxChainMemory → e.eventType = "dm_message" →
    (dmSpoolTargetKey env.rt e.payload).2 = "" ∨
    DmSpoolRoom env now (dmSpoolTargetKey env.rt e.payload) (strip e.nodeId) net.events
  hash : ∀ later, e.timestamp.truthy = true → ChainEvent.hashMatches env later e = true

/-- The tables are those of a replay of the history, up to keys that failed calls have bound. -/
structure ReplayInv (env : Env) (call : Call) (net : Infonet) : Prop where
  headHash_ne : net.headHash ≠ ""
  head : (Infonet.replayed env call net.history).headHash = net.headHash
  sequence : ∀ slot,
    (Infonet.replayed env call net.history).lastSequence slot = net.lastSequence slot
  bindings : ∀ key, (Infonet.replayed env call net.history).publicKeyBindings key = "" ∨
    (Infonet.replayed env call net.history).publicKeyBindings key = net.publicKeyBindings key
  archived : net.coldSegments = [] ∨ maxChainMemory < net.history.length
  guaranteed : Along (fun net e => net.commit env call e) (Guaranteed env call.now)
    (Infonet.empty call) net.history

theorem Infonet.save_lastSequence (net : Infonet) (slot : SequenceSlot) :
    net.save.lastSequence slot = net.lastSequence slot := by
  cases slot <;> simp [lastSequence]

namespace ReplayInv

variable {env : Env} {call : Call} {net : Infonet}

theorem empty (start : Call) : ReplayInv env call (Infonet.empty start) where
  headHash_ne := by
    show genesisHash ≠ ""
    decide
  head := rfl
  sequence slot := by cases slot <;> rfl
  bindings _ := .inl rfl
  archived := .inl rfl
  guaranteed := trivial

/-- An accepted event is guaranteed to a replay at any later time. -/
theorem guaranteed_of_accepted {c : Call} {e : ChainEvent} (h : ReplayInv env call net)
    (htime : c.now ≤ call.now) (hacc : Accepted env c net e) :
    Guaranteed env call.now (Infonet.replayed env call net.history) e where
  eventId := hacc.eventId
  sound := fun hallowed => hacc.sound hallowed h.headHash_ne
  linked := hacc.linked.trans h.head.symm
  sequence := by rw [h.sequence]; exact hacc.sequence
  bindable := by
    rcases h.bindings e.publicKey with hnone | hsame
    · exact .inl hnone
    · rw [hsame]; exact hacc.bindable
  spool := fun hlen hdm => by
    rw [Infonet.replayed_events] at hlen ⊢
    have hhot : net.history = net.events := by
      rcases h.archived with hcold | hlong
      · simp [Infonet.history, hcold]
      · omega
    rw [hhot]
    exact (Infonet.checkDmSpool_eq_ok.mp (hacc.spool hdm)).imp_right fun hroom => hroom.mono htime
  hash := fun later hstamp => by
    have hsame : ChainEvent.hashMatches env later e = ChainEvent.hashMatches env c e :=
      ChainEvent.hashMatches_congr hstamp
    exact hsame.trans hacc.hash

theorem commit {c : Call} {e : ChainEvent} (h : ReplayInv env call net)
    (htime : c.now ≤ call.now) (hacc : Accepted env c net e) :
    ReplayInv env call (net.commit env c e) where
  headHash_ne := by simpa using hacc.eventId
  head := by simp [Infonet.commit_history, Infonet.replayed_concat]
  sequence slot := by simp [Infonet.commit_history, Infonet.replayed_concat, h.sequence]
  bindings key := by
    simp only [Infonet.commit_history, Infonet.replayed_concat, Infonet.commit_publicKeyBindings,
      Function.update_apply]
    split
    · exact .inr rfl
    · exact h.bindings key
  archived := by
    refine h.archived.imp (fun hcold => by simpa using hcold) fun hlong => ?_
    simp only [Infonet.commit_history, List.length_append, List.length_singleton]
    omega
  guaranteed := by
    rw [Infonet.commit_history, along_append]
    exact ⟨h.guaranteed, h.guaranteed_of_accepted htime hacc, trivial⟩

theorem bind {key node : String} (h : ReplayInv env call net)
    (hfree : net.publicKeyBindings key = "" ∨ net.publicKeyBindings key = node) :
    ReplayInv env call (net.setBinding key node) where
  headHash_ne := h.headHash_ne
  head := h.head
  sequence slot := by
    rw [show (net.setBinding key node).lastSequence slot = net.lastSequence slot by
      cases slot <;> rfl]
    exact h.sequence slot
  bindings key' := by
    show _ ∨ _ = Function.update net.publicKeyBindings key node key'
    rw [Function.update_apply]
    split
    · rename_i heq
      subst heq
      rcases h.bindings key' with hnone | hsame
      · exact .inl hnone
      · rcases hfree with hfree | hfree
        · exact .inl (hsame.trans hfree)
        · exact .inr (hsame.trans hfree)
    · exact h.bindings key'
  archived := h.archived
  guaranteed := h.guaranteed

theorem save (h : ReplayInv env call net) : ReplayInv env call net.save where
  headHash_ne := by simpa using h.headHash_ne
  head := by simpa using h.head
  sequence slot := by simpa [Infonet.save_lastSequence] using h.sequence slot
  bindings key := by simpa using h.bindings key
  archived := by
    rw [Infonet.history_save]
    by_cases hle : net.events.length ≤ maxChainMemory
    · rw [Infonet.save_of_le hle]
      exact h.archived
    · refine .inr ?_
      simp only [Infonet.history, List.length_append]
      omega
  guaranteed := by simpa using h.guaranteed

/-- No elementary change up to the time of the replay breaks the invariant. -/
theorem advance {c : Call} {net' : Infonet} (h : ReplayInv env call net)
    (htime : c.now ≤ call.now) (hstep : Advance env c net net') : ReplayInv env call net' := by
  cases hstep with
  | commit hacc => exact h.commit htime hacc
  | bind hfree => exact h.bind hfree
  | rotate =>
    exact ⟨h.headHash_ne, h.head, fun slot => by cases slot <;> exact h.sequence _, h.bindings,
      h.archived, h.guaranteed⟩
  | invalidate =>
    exact ⟨h.headHash_ne, h.head, fun slot => by cases slot <;> exact h.sequence _, h.bindings,
      h.archived, h.guaranteed⟩
  | save => exact h.save

theorem advances {c : Call} {net' : Infonet} (h : ReplayInv env call net)
    (htime : c.now ≤ call.now) (hsteps : Advances env c net net') : ReplayInv env call net' := by
  induction hsteps with
  | refl => exact h
  | tail _ hstep ih => exact ih.advance htime hstep

/-- Every chain that is built before the replay keeps the invariant. -/
theorem build (start : Call) {ops : List (Call × LedgerOp)}
    (htimes : ∀ op ∈ ops, op.1.now ≤ call.now) : ReplayInv env call (build env start ops) := by
  unfold Mesh.build
  generalize hnet : Infonet.empty start = net
  have h : ReplayInv env call net := hnet ▸ ReplayInv.empty start
  clear hnet
  induction ops generalizing net with
  | nil => exact h
  | cons op ops ih =>
    have hop := h.advances (htimes op (by simp)) (advances_apply net op.2)
    exact ih (fun op' hmem => htimes op' (by simp [hmem])) _ hop

end ReplayInv

/-! ## The replay -/

/-- A guaranteed event is accepted by a replay exactly when it is replayable. -/
theorem Guaranteed.accepts_iff {env : Env} {call : Call} {pre : List ChainEvent} {e : ChainEvent}
    (h : Guaranteed env call.now (Infonet.replayed env call pre) e)
    (hids : ∀ e' ∈ pre, e'.eventId ≠ "") :
    Sound env.freshnessDisabled e ∧
        Admissible env.freshnessDisabled call (Infonet.replayed env call pre) e ↔
      Replayable env call pre e := by
  have hevents := Infonet.replayed_events env call pre
  have htables := Infonet.replayed_tables env call pre hids
  have hrevoked := htables.revoked_eq call.now e.publicKey
  constructor
  · rintro ⟨hs, ha⟩
    exact {
      allowed := hs.allowed
      notRevoked := fun hrev => ha.notRevoked (hrevoked.trans hrev)
      unknown := (htables.index e.eventId h.eventId).mp ha.unknown
      unseen := (htables.unseen_iff call e.eventId).mp ha.unseen
      stamped := .inr ha.hash
      spool := fun _ hdm => by
        have hspool := Infonet.checkDmSpool_eq_ok.mp (ha.spool hdm)
        rw [hevents] at hspool
        exact hspool.imp_right fun hroom => ⟨hroom.readable, hroom.sender, hroom.total⟩ }
  · intro hr
    refine ⟨(h.sound hr.allowed).freshnessDisabled, {
      unknown := (htables.index e.eventId h.eventId).mpr hr.unknown
      unseen := (htables.unseen_iff call e.eventId).mpr hr.unseen
      linked := h.linked
      sequence := h.sequence
      fresh := by simp [checkFresh, Env.freshnessDisabled]
      spool := fun hdm => ?_
      notRevoked := fun hrev => hr.notRevoked (hrevoked.symm.trans hrev)
      bindable := h.bindable
      hash := hr.stamped.elim (h.hash call) id }⟩
    have hroom : (dmSpoolTargetKey env.rt e.payload).2 = "" ∨
        DmSpoolRoom env call.now (dmSpoolTargetKey env.rt e.payload) (strip e.nodeId) pre := by
      by_cases hlen : pre.length ≤ maxChainMemory
      · have hspool := h.spool (by rwa [hevents]) hdm
        rwa [hevents] at hspool
      · exact hr.spool (by omega) hdm
    refine Infonet.checkDmSpool_eq_ok.mpr ?_
    rw [hevents]
    exact hroom.imp_right fun hroom => ⟨hroom.readable, hroom.sender, hroom.total⟩

theorem Infonet.commitBatch_headHash (env : Env) (call : Call) (net : Infonet)
    (es : List ChainEvent) :
    (net.commitBatch env call es).headHash = (net.commitAll env call es).headHash := by
  cases es <;> simp [commitBatch, commitAll, invalidateMerkleCache]

/-- An empty ledger accepts a chain later iff each event is replayable after those before it. -/
theorem replay_accepts_iff (env : Env) (start call : Call) (ops : List (Call × LedgerOp))
    (htimes : ∀ op ∈ ops, op.1.now ≤ call.now) :
    (∃ net r, (Infonet.empty call).ingestEvents env.freshnessDisabled call
        ((build env start ops).history.map .event) = (net, .ok r) ∧
        r.accepted = (build env start ops).history.length ∧
        net.headHash = (build env start ops).headHash) ↔
      ∀ pre e post, (build env start ops).history = pre ++ e :: post →
        Replayable env call pre e := by
  have hinv : ReplayInv env call (build env start ops) := .build start htimes
  generalize build env start ops = built at hinv ⊢
  have hguaranteed := along_iff_split.mp hinv.guaranteed
  have hids : ∀ pre e post, built.history = pre ++ e :: post → ∀ e' ∈ pre, e'.eventId ≠ "" := by
    intro pre e post heq e' he'
    obtain ⟨pre₁, pre₂, rfl⟩ := List.append_of_mem he'
    exact (hguaranteed pre₁ e' (pre₂ ++ e :: post) (by simp [heq])).eventId
  have haccepts : Infonet.AcceptsAll env.freshnessDisabled call (.empty call) built.history ↔
      ∀ pre e post, built.history = pre ++ e :: post → Replayable env call pre e := by
    refine along_iff_split.trans ?_
    constructor
    · intro h pre e post heq
      exact ((hguaranteed pre e post heq).accepts_iff (hids pre e post heq)).mp (h pre e post heq)
    · intro h pre e post heq
      exact ((hguaranteed pre e post heq).accepts_iff (hids pre e post heq)).mpr (h pre e post heq)
  rw [← haccepts]
  constructor
  · rintro ⟨net, r, hingest, haccepted, -⟩
    exact Infonet.ingestEvents_accepts_iff.mp ⟨net, r, hingest, haccepted⟩
  · intro h
    refine ⟨_, _, Infonet.ingestEvents_of_acceptsAll h, rfl, ?_⟩
    rw [Infonet.commitBatch_headHash]
    exact hinv.head

/-- A chain of one message. -/
def broadcastChain : List (Call × LedgerOp) := [(callAt 1700000000, .append broadcastCall)]

theorem replay_accepts_broadcast :
    ∃ net r, (Infonet.empty (callAt 1700010000)).ingestEvents plainEnv.freshnessDisabled
        (callAt 1700010000) ((build plainEnv (callAt 1) broadcastChain).history.map .event) =
        (net, .ok r) ∧
      r.accepted = (build plainEnv (callAt 1) broadcastChain).history.length ∧
      net.headHash = (build plainEnv (callAt 1) broadcastChain).headHash := by
  refine (replay_accepts_iff plainEnv (callAt 1) (callAt 1700010000) broadcastChain
    (by norm_num [broadcastChain, callAt])).mpr ?_
  have hrun : onSingle (build plainEnv (callAt 1) broadcastChain).history (fun e =>
      decide (e.eventType ∈ allowedEventTypes) && e.timestamp.truthy) = true := by
    decide +kernel
  obtain ⟨only, heq, hrun⟩ := onSingle_iff.mp hrun
  simp only [Bool.and_eq_true, decide_eq_true_eq] at hrun
  intro pre e post hsplit
  obtain ⟨rfl, rfl, -⟩ : pre = [] ∧ e = only ∧ post = [] := by
    rw [heq] at hsplit
    rcases pre with _ | ⟨e', pre⟩ <;> simp_all
  exact {
    allowed := hrun.1
    notRevoked := fun hrev => by simp [revokedBy, revocationTable] at hrev
    unknown := by simp
    unseen := fun hcollision => by simp [filterCollision, plainEnv] at hcollision
    stamped := .inl hrun.2
    spool := fun hlen => by simp at hlen }

/-- The author `!sb_a` revokes its key, with an hour of grace. -/
def keyRevokeCall (sequence revokedAt : Int) : AppendCall := .append {
  eventType := "key_revoke"
  nodeId := "!sb_a"
  payload := [("revoked_public_key", .str "key"), ("revoked_public_key_algo", .str "Ed25519"),
    ("revoked_at", .int revokedAt), ("grace_until", .int (revokedAt + 3600)),
    ("reason", .str "rotated")]
  signature := "sig"
  sequence := sequence
  ephemeral := false
  publicKey := "key"
  publicKeyAlgo := "Ed25519"
  protocolVersion := ""
  timestampBucketS := 0 }

/-- A key is revoked, and signs one more message within its grace period. -/
def graceChain : List (Call × LedgerOp) :=
  [(callAt 1700000000, .append (keyRevokeCall 1 1700000000)),
    (callAt 1700000010, .append (broadcastCall 2))]

/-- A message from the grace period of its key is refused when it is replayed after it. -/
theorem not_replay_accepts_grace : ¬ ∀ (env : Env) (start call : Call)
    (ops : List (Call × LedgerOp)), (∀ op ∈ ops, op.1.now ≤ call.now) →
      ∃ net r, (Infonet.empty call).ingestEvents env.freshnessDisabled call
        ((build env start ops).history.map .event) = (net, .ok r) ∧
        r.accepted = (build env start ops).history.length ∧
        net.headHash = (build env start ops).headHash := by
  intro hclaim
  have hreplay := hclaim plainEnv (callAt 1) (callAt 1700010000) graceChain
    (by norm_num [graceChain, callAt])
  have hrun : onCons (build plainEnv (callAt 1) graceChain).history (fun revoke rest =>
      onSingle rest fun message => revokedBy asciiRuntime [revoke] (callAt 1700010000).now
        message.publicKey && message.eventType != "key_revoke") = true := by
    decide +kernel
  generalize build plainEnv (callAt 1) graceChain = built at hreplay hrun
  generalize callAt 1700010000 = call at hreplay hrun
  obtain ⟨net, r, hingest, haccepted, -⟩ := hreplay
  have haccepts := Infonet.ingestEvents_accepts_iff.mp ⟨net, r, hingest, haccepted⟩
  obtain ⟨revoke, _, heq, hrest⟩ := onCons_iff.mp hrun
  obtain ⟨message, rfl, hrun⟩ := onSingle_iff.mp hrest
  simp only [Bool.and_eq_true, bne_iff_ne, ne_eq] at hrun
  -- the message is the second event of the replay, and its key is revoked by then
  have hadm := (along_iff_split.mp haccepts [revoke] message [] heq).2
  have hids : ∀ e ∈ [revoke], e.eventId ≠ "" := fun e he =>
    (haccepts.sound e (by rw [heq]; exact List.mem_append_left _ he)).eventId
  have htables := Infonet.replayed_tables plainEnv.freshnessDisabled call [revoke] hids
  have hrevoked := htables.revoked_eq call.now message.publicKey
  exact hrun.2 (hadm.notRevoked (hrevoked.trans hrun.1))

end Vincent.Mesh
