-- SUMMARY: Which applied forks a batch would also accept.
import Vincent.General.LinkedChain
import Vincent.Mesh.Reachable
import Vincent.Mesh.Replay

/-!
# Forks and batches

The maps of `apply_fork` simulate the tables of a ledger that holds just the part of the
chain it keeps, so most checks of `ingest_events` hold of every event of an applied
fork. `ForkIngestable` lists those that do not, or that are made of a normalized copy of
the payload.
-/

namespace Vincent.Mesh

open Vincent.Python Vincent.Check Vincent.Run Vincent.LinkedChain

/-! ## The order of a fork -/

theorem follows_of_followChain {events ordered : List ChainEvent} {fuel : Nat} {current : String}
    (h : followChain events fuel current = .ok ordered) :
    Follows ChainEvent.eventId ChainEvent.prevHash events current ordered := by
  induction fuel generalizing current ordered with
  | zero =>
    unfold followChain at h
    split at h
    · cases h
    · rename_i hend
      cases h
      simp only [List.any_eq_true, beq_iff_eq, not_exists, not_and] at hend
      exact .stop hend
  | succ fuel ih =>
    unfold followChain at h
    split at h
    · rename_i hend
      cases h
      simp only [List.find?_eq_none, beq_iff_eq] at hend
      exact .stop hend
    · rename_i e hfind
      split at h
      · cases h
      · simp only [bind_eq_ok, pure_eq_ok] at h
        obtain ⟨rest, hrest, rfl⟩ := h
        have hpred : e.prevHash = current := by simpa using List.find?_some hfind
        exact .step (List.mem_of_find?_eq_some hfind) hpred (ih hrest)

/-- The events of a fork, in the order of their links. -/
structure Ordered (prevHash : String) (events ordered : List ChainEvent) : Prop where
  perm : ordered.Perm events
  linked : Linked ChainEvent.eventId ChainEvent.prevHash prevHash ordered
  prevHash_ne : ∀ e ∈ ordered, e.prevHash ≠ ""

theorem ordered_of_orderChainFrom {prevHash : String} {events ordered : List ChainEvent}
    (h : orderChainFrom prevHash events = .ok ordered) : Ordered prevHash events ordered := by
  unfold orderChainFrom at h
  simp only [↓check_bind_eq_ok, bind_eq_ok, require_eq_ok, pure_eq_ok] at h
  obtain ⟨hprev, hnodup, _, hfollow, hlen, rfl⟩ := h
  have hfollows := follows_of_followChain hfollow
  have hinj := List.inj_on_of_nodup_map hnodup
  exact ⟨hfollows.perm (fun a ha b hb hab => hinj ha hb hab) hlen, hfollows.linked,
    fun e he => hprev e (hfollows.subset he)⟩

/-- A planned fork goes on from an event that the ledger knows. -/
theorem Infonet.planFork_eq_ok {net : Infonet} {events : List ChainEvent} {headHash : String}
    {proofCount quorum : Int} {plan : ForkPlan}
    (h : net.planFork events headHash proofCount quorum = .ok plan) :
    ∃ prevHash, net.eventIndex prevHash = some plan.prevIndex ∧
      Ordered prevHash events plan.ordered := by
  unfold planFork at h
  cases events with
  | nil => cases h
  | cons first rest =>
    simp only [↓check_bind_eq_ok, require_eq_ok] at h
    obtain ⟨-, -, h⟩ := h
    cases hindex : net.eventIndex first.prevHash with
    | none => simp [hindex] at h
    | some prevIndex =>
      simp only [hindex, ↓check_bind_eq_ok, bind_eq_ok, require_eq_ok, pure_eq_ok] at h
      obtain ⟨-, -, ordered, horder, -, -, -, rfl⟩ := h
      exact ⟨first.prevHash, hindex, ordered_of_orderChainFrom horder⟩

/-! ## The maps of `apply_fork` and the tables of a ledger -/

/-- The ledger and the maps both come from the events `before`. -/
structure ForkTables (env : Env) (call : Call) (before : List ChainEvent) (net : Infonet)
    (maps : ForkMaps) : Prop extends Tables env call before net where
  sequence : ∀ slot, net.lastSequence slot ≤ maps.lastSeq slot.key
  nonneg : ∀ key, 0 ≤ maps.lastSeq key
  bindings : net.publicKeyBindings = maps.seenPublicKeys

/-- The entries of an event in the maps, as `apply_fork` makes them of its prefix. -/
theorem ForkMaps.addPrefix_eq_ok {env : Env} {maps maps' : ForkMaps} {e : ChainEvent}
    (h : maps.addPrefix env e = .ok maps') : maps' = {
      lastSeq := if e.nodeId ≠ "" ∧ e.seqNum env.rt ≠ 0 then
          Function.update maps.lastSeq (e.slot env.rt).key
            (max (maps.lastSeq (e.slot env.rt).key) (e.seqNum env.rt))
        else maps.lastSeq
      seenPublicKeys :=
        if e.publicKey ≠ "" ∧ e.nodeId ≠ "" ∧ maps.seenPublicKeys e.publicKey = "" then
          Function.update maps.seenPublicKeys e.publicKey e.nodeId
        else maps.seenPublicKeys } := by
  unfold addPrefix at h
  simp only [bind_eq_ok, pure_eq_ok] at h
  obtain ⟨n, hseq, rfl⟩ := h
  obtain ⟨-, rfl⟩ := ChainEvent.seq_eq_ok.mp hseq
  have hslot : sequenceTableForEvent env.rt e.eventType e.nodeId = e.slot env.rt := rfl
  simp only [hslot]
  split_ifs <;> simp_all

namespace ForkTables

variable {env : Env} {call : Call} {before : List ChainEvent} {net : Infonet} {maps : ForkMaps}
  {e : ChainEvent}

theorem rebuilt {maps' : ForkMaps} {idx : Nat} (h : ForkTables env call before net maps)
    (hmaps : maps.addPrefix env e = .ok maps') :
    ForkTables env call (before ++ [e]) (net.rebuilt env call idx e) maps' := by
  obtain rfl := ForkMaps.addPrefix_eq_ok hmaps
  refine ⟨h.toTables.rebuilt idx, fun slot => ?_, fun key => ?_, ?_⟩
  · rw [Infonet.rebuilt_lastSequence]
    have hold := h.sequence slot
    by_cases hslot : slot = e.slot env.rt
    · subst hslot
      split_ifs <;> simp_all
    · by_cases hkey : slot.key = (e.slot env.rt).key
      · split_ifs <;> simp_all
      · split_ifs <;> simp_all
  · have hold := h.nonneg key
    have hold' := h.nonneg (e.slot env.rt).key
    by_cases hkey : key = (e.slot env.rt).key
    · split_ifs <;> simp_all
    · split_ifs <;> simp_all
  · rw [Infonet.rebuilt_publicKeyBindings, h.bindings]

end ForkTables

/-! ## One event of a fork -/

/-- What the checks of `apply_fork` say of an event. -/
structure ForkChecked (env : Env) (call : Call) (maps : ForkMaps) (e : ChainEvent) : Prop where
  seq : e.seq env.rt = .ok (e.seqNum env.rt)
  allowed : e.eventType ∈ allowedEventTypes
  eventId : e.eventId ≠ ""
  nodeId : e.nodeId ≠ ""
  network : e.networkId = networkId
  version : e.protocolVersion = "" ∨ e.protocolVersion = protocolVersion
  signed : e.signature ≠ "" ∧ e.publicKey ≠ "" ∧ e.publicKeyAlgo ≠ ""
  sequence : maps.lastSeq (e.slot env.rt).key < e.seqNum env.rt
  algo : parsePublicKeyAlgo env.rt e.publicKeyAlgo ≠ ""
  binding : env.verifyNodeBinding e.nodeId e.publicKey = true
  bindable : maps.seenPublicKeys e.publicKey = "" ∨ maps.seenPublicKeys e.publicKey = e.nodeId
  hash : ChainEvent.hashMatches env call e = true

/-- The maps after an event of the fork. -/
def ForkMaps.addForked (rt : Runtime) (maps : ForkMaps) (e : ChainEvent) : ForkMaps where
  lastSeq := Function.update maps.lastSeq (e.slot rt).key (e.seqNum rt)
  seenPublicKeys := Function.update maps.seenPublicKeys e.publicKey e.nodeId

/-- The two ways to name a counter agree on the types that a fork may have. -/
theorem forkSequenceKey_eq (rt : Runtime) {e : ChainEvent} (h : e.eventType ∈ allowedEventTypes) :
    forkSequenceKey e = (e.slot rt).key := by
  unfold forkSequenceKey ChainEvent.slot sequenceTableForEvent
  rw [lower_eventType rt (List.mem_append_left _ h)]
  simp only
  split_ifs <;> rfl

theorem forkChecked_of_checkForkEvent {env : Env} {call : Call} {net : Infonet} {prevIndex : Nat}
    {maps maps' : ForkMaps} {e : ChainEvent}
    (h : net.checkForkEvent env call prevIndex maps e = .ok maps') :
    ForkChecked env call maps e ∧ maps' = maps.addForked env.rt e := by
  unfold Infonet.checkForkEvent at h
  simp only [↓check_bind_eq_ok, bind_eq_ok, orFail_eq_ok, require_eq_ok, pure_eq_ok] at h
  obtain ⟨n, hseq, hallowed, hfields, hnet, -, payload, -, -, -, hversion, hsigned, -, hlast, halgo,
    hbinding, hconflict, candidates, -, verified, -, -, hhash, rfl⟩ := h
  obtain ⟨hread, rfl⟩ := ChainEvent.seq_eq_ok.mp hseq
  have hkey := forkSequenceKey_eq env.rt hallowed
  push Not at hfields hsigned hconflict
  refine ⟨⟨hread, hallowed, hfields.1, hfields.2, hnet, hversion, hsigned, hkey ▸ hlast, halgo,
    hbinding, ?_, hhash⟩, by rw [hkey]; rfl⟩
  by_cases hfree : maps.seenPublicKeys e.publicKey = ""
  · exact .inl hfree
  · exact .inr (hconflict hfree)

/-- What `ingest_events` asks of an event of a fork beyond `apply_fork`, after the events
`before`. -/
structure ForkIngestable (env : Env) (call : Call) (before : List ChainEvent) (e : ChainEvent) :
    Prop where
  payload : validateEventPayload env.rt env.extensionValidators e.eventType e.payload = .ok ()
  ledgerPayload : validateLedgerPayload env e.eventType e.payload = .ok ()
  ephemeral : e.eventType = "message" → Dict.contains e.payload "ephemeral" = true
  size : payloadBytes env e.payload ≤ maxPayloadBytes
  signature : checkSignature env e (e.seqNum env.rt) e.payload = .ok ()
  ownKey : e.eventType = "key_revoke" → RevokesOwnKey e
  notRevoked : revokedBy env.rt before call.now e.publicKey → e.eventType = "key_revoke"
  spool : e.eventType = "dm_message" → (dmSpoolTargetKey env.rt e.payload).2 = "" ∨
    DmSpoolRoom env call.now (dmSpoolTargetKey env.rt e.payload) (strip e.nodeId) before
  unknown : e.eventId ∉ before.map (·.eventId)
  unseen : ¬ filterCollision env call.salt before e.eventId

namespace ForkTables

variable {env : Env} {call : Call} {before : List ChainEvent} {net : Infonet} {maps : ForkMaps}
  {e : ChainEvent}

theorem commit (h : ForkTables env call before net maps) (hchecked : ForkChecked env call maps e) :
    ForkTables env call (before ++ [e]) (net.commit env.freshnessDisabled call e)
      (maps.addForked env.rt e) := by
  refine ⟨h.toTables.commit hchecked.eventId, fun slot => ?_, fun key => ?_,
    by simp [ForkMaps.addForked, h.bindings]⟩
  · rw [Infonet.commit_lastSequence]
    have hold := h.sequence slot
    have hlast := hchecked.sequence
    by_cases hkey : slot.key = (e.slot env.rt).key
    · simp only [ForkMaps.addForked, hkey, Function.update_self]
      split
      · exact le_rfl
      · rw [hkey] at hold
        omega
    · have hslot : slot ≠ e.slot env.freshnessDisabled.rt := fun heq => hkey (congrArg _ heq)
      simpa [ForkMaps.addForked, hkey, hslot] using hold
  · have hold := h.nonneg key
    have hold' := h.nonneg (e.slot env.rt).key
    have hlast := hchecked.sequence
    simp only [ForkMaps.addForked, Function.update_apply]
    split <;> omega

/-- What passes the checks of `apply_fork` is accepted behind what comes before it iff it is
ingestable. -/
theorem accepts_iff (h : ForkTables env call before net maps) (hevents : net.events = before)
    (hchecked : ForkChecked env call maps e) (hlinked : e.prevHash = net.headHash)
    (hprev : e.prevHash ≠ "") :
    Sound env.freshnessDisabled e ∧ Admissible env.freshnessDisabled call net e ↔
      ForkIngestable env call before e := by
  have hrevoked := h.revoked_eq call.now e.publicKey
  have hsig : checkSignature env.freshnessDisabled e (e.seqNum env.rt) e.payload =
      checkSignature env e (e.seqNum env.rt) e.payload := checkSignature_congr env env.freshnessDisabled rfl rfl _ _ _
  constructor
  · rintro ⟨hs, ha⟩
    exact {
      payload := hs.payload
      ledgerPayload := hs.ledgerPayload
      ephemeral := hs.ephemeral
      size := hs.size
      signature := hsig ▸ hs.signature
      ownKey := hs.ownKey
      notRevoked := fun hrev => ha.notRevoked (hrevoked.trans hrev)
      spool := fun hdm => by
        have hspool := Infonet.checkDmSpool_eq_ok.mp (ha.spool hdm)
        rw [hevents] at hspool
        exact hspool.imp_right fun hroom => ⟨hroom.readable, hroom.sender, hroom.total⟩
      unknown := (h.index e.eventId hchecked.eventId).mp ha.unknown
      unseen := (h.unseen_iff call e.eventId).mp ha.unseen }
  · intro hi
    have hnonneg := h.nonneg (e.slot env.rt).key
    have hlast := hchecked.sequence
    have hcounter := h.sequence (e.slot env.rt)
    refine ⟨?_, ?_⟩
    · exact ⟨hchecked.allowed, hchecked.eventId, hprev, hchecked.nodeId, hchecked.network,
        hchecked.seq, lt_of_le_of_lt hnonneg hlast, hi.payload, hi.ledgerPayload, hi.ephemeral,
        hi.size, hchecked.version, hchecked.signed, hchecked.algo, hi.ownKey, hchecked.binding,
        hsig.trans hi.signature⟩
    · exact {
        unknown := (h.index e.eventId hchecked.eventId).mpr hi.unknown
        unseen := (h.unseen_iff call e.eventId).mpr hi.unseen
        linked := hlinked
        sequence := lt_of_le_of_lt hcounter hlast
        fresh := by simp [checkFresh, Env.freshnessDisabled]
        spool := fun hdm => by
          refine Infonet.checkDmSpool_eq_ok.mpr ?_
          rw [hevents]
          exact (hi.spool hdm).imp_right fun hroom => ⟨hroom.readable, hroom.sender, hroom.total⟩
        notRevoked := fun hrev => hi.notRevoked (hrevoked.symm.trans hrev)
        bindable := by rw [h.bindings]; exact hchecked.bindable
        hash := hchecked.hash }

/-! ## The whole fork -/

theorem rebuiltAll {es : List ChainEvent} (idx : Nat) {maps' : ForkMaps}
    (h : ForkTables env call before net maps) (hmaps : ForkMaps.ofPrefix env es maps = .ok maps') :
    ForkTables env call (before ++ es) (Infonet.rebuiltAll env call es idx net) maps' := by
  induction es generalizing before idx net maps with
  | nil =>
    cases hmaps
    simpa [Infonet.rebuiltAll] using h
  | cons e es ih =>
    simp only [ForkMaps.ofPrefix, bind_eq_ok] at hmaps
    obtain ⟨maps₁, hadd, hrest⟩ := hmaps
    simpa [Infonet.rebuiltAll] using ih (idx + 1) (h.rebuilt hadd) hrest

/-- Along a fork that passes the checks, a ledger accepts what is ingestable. -/
theorem acceptsAll_iff {checker : Infonet} {prevIndex : Nat} {ordered : List ChainEvent}
    {maps' : ForkMaps} (h : ForkTables env call before net maps) (hevents : net.events = before)
    (hchecks : checker.checkForkEvents env call prevIndex ordered maps = .ok maps')
    (hlinked : Linked ChainEvent.eventId ChainEvent.prevHash net.headHash ordered)
    (hprev : ∀ e ∈ ordered, e.prevHash ≠ "") :
    Infonet.AcceptsAll env.freshnessDisabled call net ordered ↔
      Along (fun before e => before ++ [e]) (ForkIngestable env call) before ordered := by
  induction ordered generalizing before net maps with
  | nil => exact Iff.rfl
  | cons e es ih =>
    simp only [Infonet.checkForkEvents, bind_eq_ok] at hchecks
    obtain ⟨maps₁, hcheck, hrest⟩ := hchecks
    obtain ⟨hchecked, rfl⟩ := forkChecked_of_checkForkEvent hcheck
    refine and_congr ?_ ?_
    · exact h.accepts_iff hevents hchecked hlinked.1 (hprev e (by simp))
    · refine ih (h.commit hchecked) (by simp [hevents]) hrest ?_ fun e' he' => hprev e' (by simp [he'])
      simpa using hlinked.2

end ForkTables

namespace Infonet

variable {env : Env} {call : Call}

/-- The ledger that holds the kept events, where they can be read. -/
theorem holding_eq {kept : List ChainEvent} (hread : ∀ e ∈ kept, Rebuildable env.rt e) :
    holding env call kept = rebuiltState env call { empty call with events := kept } := by
  unfold holding
  rw [rebuildState_eq_ok.mpr ⟨hread, rfl⟩]

theorem holding_events {kept : List ChainEvent} (hread : ∀ e ∈ kept, Rebuildable env.rt e) :
    (holding env call kept).events = kept := by
  rw [holding_eq hread]
  exact rebuiltAll_events kept 0 _

theorem holding_headHash {kept : List ChainEvent} (hread : ∀ e ∈ kept, Rebuildable env.rt e) :
    (holding env call kept).headHash = lastEventId kept := by
  rw [holding_eq hread]
  exact congrArg lastEventId (rebuiltAll_events kept 0 _)

theorem holding_tables (call : Call) {kept : List ChainEvent} {maps : ForkMaps}
    (hread : ∀ e ∈ kept, Rebuildable env.rt e) (hmaps : ForkMaps.ofPrefix env kept {} = .ok maps) :
    ForkTables env call kept (holding env call kept) maps := by
  have hclear : ForkTables env call [] (clearTables call { empty call with events := kept }) {} := by
    refine ⟨Tables.empty rfl rfl rfl, fun slot => ?_, fun _ => le_rfl, rfl⟩
    cases slot with
    | node key => exact le_rfl
    | domain key =>
      show (if _ then 0 else 0 : Int) ≤ 0
      split <;> exact le_rfl
  rw [holding_eq hread]
  obtain ⟨⟨hindex, hsalt, hrotate, hprevious, hactive, hrevocations⟩, hsequence, hnonneg,
    hbindings⟩ := hclear.rebuiltAll 0 hmaps
  exact ⟨⟨hindex, hsalt, hrotate, hprevious, hactive, hrevocations⟩, hsequence, hnonneg, hbindings⟩

/-- The part of the chain that a planned fork keeps ends where the fork goes on. -/
theorem Indexed.lastEventId_take {net : Infonet} {id : String} {i : Nat} (h : net.Indexed)
    (hi : net.eventIndex id = some i) : lastEventId (net.events.take (i + 1)) = id := by
  obtain ⟨e, hat, rfl⟩ := h id i hi
  simp [lastEventId, List.take_add_one, hat]

theorem checkFork_eq_ok {net : Infonet} {events : List ChainEvent} {headHash : String}
    {proofCount quorum : Int} {plan : ForkPlan}
    (h : net.checkFork env call events headHash proofCount quorum = .ok plan) :
    ∃ prevHash maps maps', net.eventIndex prevHash = some plan.prevIndex ∧
      Ordered prevHash events plan.ordered ∧
      ForkMaps.ofPrefix env (net.events.take (plan.prevIndex + 1)) {} = .ok maps ∧
      net.checkForkEvents env call plan.prevIndex plan.ordered maps = .ok maps' := by
  unfold checkFork at h
  simp only [bind_eq_ok, orFail_eq_ok, pure_eq_ok] at h
  obtain ⟨plan', hplan, maps, hmaps, maps', hforked, rfl⟩ := h
  obtain ⟨prevHash, hindex, horder⟩ := planFork_eq_ok hplan
  exact ⟨prevHash, maps, maps', hindex, horder, hmaps, hforked⟩

/-- An applied fork passed the checks, and the tables could be rebuilt from it. -/
theorem applyFork_applied {net net' : Infonet} {events : List ChainEvent}
    {headHash reason : String} {proofCount quorum : Int}
    (h : net.applyFork env call events headHash proofCount quorum = (net', .ok (true, reason))) :
    ∃ plan, net.checkFork env call events headHash proofCount quorum = .ok plan ∧
      ∀ e ∈ net.events.take (plan.prevIndex + 1) ++ plan.ordered, Rebuildable env.rt e := by
  unfold applyFork at h
  split at h
  · simp at h
  · simp at h
  · rename_i plan hplan
    refine ⟨plan, hplan, ?_⟩
    simp only at h
    split at h
    · simp at h
    · rename_i hrebuild
      exact (rebuild_eq_ok.mp hrebuild).1

end Infonet

/-- A ledger that holds just the events `kept` accepts all of `ordered`. -/
def IngestsAfter (env : Env) (call : Call) (kept ordered : List ChainEvent) : Prop :=
  ∃ net r, (Infonet.holding env call kept).ingestEvents env.freshnessDisabled call
    (ordered.map .event) = (net, .ok r) ∧ r.accepted = ordered.length

/-- The kept part accepts the events of the fork exactly when each is ingestable after those before
it. -/
theorem applyFork_ingests_iff {env : Env} {call : Call} {net net' : Infonet}
    {events : List ChainEvent} {headHash reason : String} {proofCount quorum : Int}
    (hreach : Reachable net)
    (happly : net.applyFork env call events headHash proofCount quorum =
      (net', .ok (true, reason))) :
    ∃ plan, net.checkFork env call events headHash proofCount quorum = .ok plan ∧
      plan.ordered.Perm events ∧
      (IngestsAfter env call (net.events.take (plan.prevIndex + 1)) plan.ordered ↔
        ∀ pre e post, plan.ordered = pre ++ e :: post →
          ForkIngestable env call (net.events.take (plan.prevIndex + 1) ++ pre) e) := by
  obtain ⟨plan, hcheck, hread⟩ := Infonet.applyFork_applied happly
  obtain ⟨prevHash, maps, _, hindex, horder, hmaps, hforked⟩ := Infonet.checkFork_eq_ok hcheck
  refine ⟨plan, hcheck, horder.perm, ?_⟩
  have hreadKept : ∀ e ∈ net.events.take (plan.prevIndex + 1), Rebuildable env.rt e :=
    fun e he => hread e (List.mem_append_left _ he)
  have htables := Infonet.holding_tables call hreadKept hmaps
  have hlinked : Linked ChainEvent.eventId ChainEvent.prevHash
      (Infonet.holding env call (net.events.take (plan.prevIndex + 1))).headHash plan.ordered := by
    rw [Infonet.holding_headHash hreadKept, hreach.indexed.lastEventId_take hindex]
    exact horder.linked
  have haccepts := htables.acceptsAll_iff (Infonet.holding_events hreadKept) hforked hlinked
    horder.prevHash_ne
  refine (Infonet.ingestEvents_accepts_iff.trans haccepts).trans (along_iff_split.trans ?_)
  have hrun : ∀ before pre : List ChainEvent, run (fun before e => before ++ [e]) before pre =
      before ++ pre := by
    intro before pre
    induction pre generalizing before with
    | nil => simp
    | cons e pre ih => simp [ih]
  simp only [hrun]

/-! ## Forks of one message -/

theorem messageLedger_reachable : Reachable messageLedger :=
  (Reachable.load plainEnv ⟨some⟩ (callAt 1) (callAt 1) {}).append plainEnv (callAt 1700000000)
    broadcastCall

/-- One more message after the head, with more fields in its payload. -/
def messageFork (fields : Dict) : List ChainEvent :=
  messageLedger.events.map fun e => .init plainEnv (callAt 1700000010)
    { e with prevHash := e.eventId, payload := e.payload ++ fields, sequence := .int 2 }

/-- Two peers prove the fork to the ledger. -/
def applyMessageFork (fields : Dict) : Infonet × Except String (Bool × String) :=
  messageLedger.applyFork plainEnv (callAt 1700000010) (messageFork fields)
    (Infonet.lastEventId (messageFork fields)) 2 2

theorem applyFork_ingests_message :
    ∃ plan, messageLedger.checkFork plainEnv (callAt 1700000010) (messageFork [])
        (Infonet.lastEventId (messageFork [])) 2 2 = .ok plan ∧
      plan.ordered.Perm (messageFork []) ∧
      IngestsAfter plainEnv (callAt 1700000010) (messageLedger.events.take (plan.prevIndex + 1))
        plan.ordered := by
  have happly : okAnd (applyMessageFork []).2 (fun r => r.1) = true := by decide +kernel
  have hevent : onSingle messageLedger.events (fun first => onSingle (messageFork []) fun e =>
          e.eventType == "message" && e.eventId != first.eventId &&
          okAnd (validateEventPayload asciiRuntime [] e.eventType e.payload) (fun _ => true) &&
          okAnd (validateLedgerPayload plainEnv e.eventType e.payload) (fun _ => true) &&
          Dict.contains e.payload "ephemeral" && payloadBytes plainEnv e.payload ≤ maxPayloadBytes &&
          okAnd (checkSignature plainEnv e (e.seqNum asciiRuntime) e.payload) (fun _ => true) &&
          !revokedBy asciiRuntime [first] 1700000010 e.publicKey &&
          !filterCollision plainEnv 0 [first] e.eventId) = true := by
    decide +kernel
  obtain ⟨⟨applied, reason⟩, hok, happlied⟩ := okAnd_iff.mp happly
  obtain rfl : applied = true := happlied
  obtain ⟨plan, hcheck, hperm, hiff⟩ :=
    applyFork_ingests_iff messageLedger_reachable (eq_mk_of_snd hok)
  refine ⟨plan, hcheck, hperm, hiff.mpr ?_⟩
  obtain ⟨first, hbase, hevent⟩ := onSingle_iff.mp hevent
  obtain ⟨only, hfork, hevent⟩ := onSingle_iff.mp hevent
  simp only [Bool.and_eq_true, beq_iff_eq, bne_iff_ne, decide_eq_true_eq, okAnd_iff,
    Bool.not_eq_true', decide_eq_false_iff_not, and_true] at hevent
  obtain ⟨⟨⟨⟨⟨⟨⟨⟨htype, hid⟩, _, hpayload⟩, _, hledger⟩, hephemeral⟩, hsize⟩, _, hsig⟩, hrevoked⟩,
    hunseen⟩ := hevent
  intro pre e post hsplit
  have honly : plan.ordered = [only] := List.perm_singleton.mp (hfork ▸ hperm)
  obtain ⟨rfl, rfl, rfl⟩ : pre = [] ∧ e = only ∧ post = [] := by
    rw [honly] at hsplit
    rcases pre with _ | ⟨e', pre⟩ <;> simp_all
  have hkept : messageLedger.events.take (plan.prevIndex + 1) = [first] := by simp [hbase]
  rw [hkept]
  exact {
    payload := hpayload
    ledgerPayload := hledger
    ephemeral := fun _ => hephemeral
    size := hsize
    signature := hsig
    ownKey := fun hrevoke => by simp [htype] at hrevoke
    notRevoked := fun hrev => absurd (hrev.symm.trans hrevoked) (by decide)
    spool := fun hdm => by simp [htype] at hdm
    unknown := by simpa using hid
    unseen := hunseen }

/-- A fork with an address beside the normalized fields is applied, and the batch is refused. -/
theorem not_applyFork_ingests_leaky : ¬ ∀ (env : Env) (call : Call) (net net' : Infonet)
    (events : List ChainEvent) (headHash reason : String) (proofCount quorum : Int),
    Reachable net → net.applyFork env call events headHash proofCount quorum =
      (net', .ok (true, reason)) →
    ∃ plan, net.checkFork env call events headHash proofCount quorum = .ok plan ∧
      IngestsAfter env call (net.events.take (plan.prevIndex + 1)) plan.ordered := by
  intro hclaim
  have happly : okAnd (applyMessageFork [("ip", .str "10.0.0.1")]).2 (fun r => r.1) = true := by
    decide +kernel
  have hinvalid : (messageFork [("ip", .str "10.0.0.1")]).all (fun e =>
      !okAnd (validateEventPayload asciiRuntime [] e.eventType e.payload) fun _ => true) &&
      (messageFork [("ip", .str "10.0.0.1")]).length == 1 := by
    decide +kernel
  obtain ⟨⟨applied, reason⟩, hok, happlied⟩ := okAnd_iff.mp happly
  obtain rfl : applied = true := happlied
  obtain ⟨plan, hcheck, hingests⟩ :=
    hclaim _ _ _ _ _ _ _ _ _ messageLedger_reachable (eq_mk_of_snd hok)
  obtain ⟨_, _, _, _, horder, _⟩ := Infonet.checkFork_eq_ok hcheck
  obtain ⟨net, r, hingest, haccepted⟩ := hingests
  have haccepts := Infonet.ingestEvents_accepts_iff.mp ⟨net, r, hingest, haccepted⟩
  simp only [List.all_eq_true, Bool.and_eq_true, Bool.not_eq_true', beq_iff_eq] at hinvalid
  obtain ⟨e, hmem⟩ := List.length_pos_iff_exists_mem.mp (hinvalid.2 ▸ Nat.one_pos)
  have hsound : Sound plainEnv.freshnessDisabled e :=
    haccepts.sound e (horder.perm.mem_iff.mpr hmem)
  have hvalid := hinvalid.1 e hmem
  rw [show validateEventPayload asciiRuntime [] e.eventType e.payload = .ok () from hsound.payload]
    at hvalid
  cases hvalid

end Vincent.Mesh
