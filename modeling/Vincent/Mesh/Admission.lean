-- SUMMARY: What acceptance by `ingest_events` means, and the state after it.
import Vincent.General.Run
import Vincent.Mesh.Ingest

/-!
# Admission

`Sound` collects the checks of `ingest_events` that look at the event alone, and
`Admissible` those that also look at the ledger and the clock. An event is accepted
exactly when both hold.
-/

namespace Vincent.Mesh

open Vincent.Python Vincent.Check Vincent.Run

/-- The sequence of an event, zero where reading it raises. -/
def ChainEvent.seqNum (rt : Runtime) (e : ChainEvent) : Int :=
  match e.seq rt with
  | .ok n => n
  | .error _ => 0

/-- The counter that the event advances. -/
def ChainEvent.slot (rt : Runtime) (e : ChainEvent) : SequenceSlot :=
  sequenceTableForEvent rt e.eventType e.nodeId

/-- A `key_revoke` names no key but the one that signs it. -/
def RevokesOwnKey (e : ChainEvent) : Prop :=
  ((Dict.get e.payload "revoked_public_key").truthy →
    (Dict.get e.payload "revoked_public_key").eq (.str e.publicKey)) ∧
  ((Dict.get e.payload "revoked_public_key_algo").truthy →
    (Dict.get e.payload "revoked_public_key_algo").eq (.str e.publicKeyAlgo))

/-- The checks that look at the event alone. -/
structure Sound (env : Env) (e : ChainEvent) : Prop where
  allowed : e.eventType ∈ allowedEventTypes
  eventId : e.eventId ≠ ""
  prevHash : e.prevHash ≠ ""
  nodeId : e.nodeId ≠ ""
  network : e.networkId = networkId
  sequence : e.seq env.rt = .ok (e.seqNum env.rt)
  sequencePos : 0 < e.seqNum env.rt
  payload : validateEventPayload env.rt env.extensionValidators e.eventType e.payload = .ok ()
  ledgerPayload : validateLedgerPayload env e.eventType e.payload = .ok ()
  ephemeral : e.eventType = "message" → Dict.contains e.payload "ephemeral" = true
  size : payloadBytes env e.payload ≤ maxPayloadBytes
  version : e.protocolVersion = "" ∨ e.protocolVersion = protocolVersion
  signed : e.signature ≠ "" ∧ e.publicKey ≠ "" ∧ e.publicKeyAlgo ≠ ""
  algo : parsePublicKeyAlgo env.rt e.publicKeyAlgo ≠ ""
  ownKey : e.eventType = "key_revoke" → RevokesOwnKey e
  binding : env.verifyNodeBinding e.nodeId e.publicKey = true
  signature : checkSignature env e (e.seqNum env.rt) e.payload = .ok ()

/-- The checks that also look at the ledger and the clock. -/
structure Admissible (env : Env) (call : Call) (net : Infonet) (e : ChainEvent) : Prop where
  unknown : net.eventIndex e.eventId = none
  unseen : (net.rotateFilter call).replayFilter.seen env e.eventId = false
  linked : e.prevHash = net.headHash
  sequence : net.lastSequence (e.slot env.rt) < e.seqNum env.rt
  fresh : checkFresh env call e = .ok ()
  spool : e.eventType = "dm_message" → net.checkDmSpool env call.now e.payload e.nodeId = .ok ()
  notRevoked : net.revoked call.now e.publicKey → e.eventType = "key_revoke"
  bindable : net.publicKeyBindings e.publicKey = "" ∨ net.publicKeyBindings e.publicKey = e.nodeId
  hash : ChainEvent.hashMatches env call e = true

/-! ## Signatures -/

/-- The signature loop depends on the runtime and the verifier alone. -/
theorem anySignatureVerifies_congr {env env' : Env} (hrt : env'.rt = env.rt)
    (hverify : env'.verifySignature = env.verifySignature) (e : ChainEvent) (n : Int)
    (candidates : List Dict) :
    anySignatureVerifies env' e n candidates = anySignatureVerifies env e n candidates := by
  induction candidates with
  | nil => rfl
  | cons candidate rest ih => simp only [anySignatureVerifies, ih, hrt, hverify]

theorem checkSignature_congr (env env' : Env) (hrt : env'.rt = env.rt)
    (hverify : env'.verifySignature = env.verifySignature) (e : ChainEvent) (n : Int)
    (payload : Dict) : checkSignature env' e n payload = checkSignature env e n payload := by
  simp only [checkSignature, hrt, anySignatureVerifies_congr hrt hverify]

/-! ## Revocations of accepted events -/

/-- The revocation table after an event, where reading the event does not raise. -/
def addRevocation (rt : Runtime) (table : String → Option Revocation) (e : ChainEvent) :
    String → Option Revocation :=
  if e.eventType = "key_revoke" then
    match revocationInfo rt e with
    | .ok (some info) => recordRevocation table info
    | _ => table
  else table

/-- A validated `key_revoke` can be applied. -/
theorem revocationInfo_of_valid {rt : Runtime} {ext : ExtensionValidators} {e : ChainEvent}
    (h : validateEventPayload rt ext "key_revoke" e.payload = .ok ()) :
    ∃ info, revocationInfo rt e = .ok info := by
  obtain ⟨normalized, hnorm, heq⟩ : ∃ normalized,
      Protocol.normalizeKeyRevokePayload rt e.payload = .ok normalized ∧
      Dict.eq normalized e.payload := by
    have hschema : Schema.getSchema rt "key_revoke" = some (Schema.validateKeyRevoke rt) := rfl
    have hnormalize : normalizePayload rt "key_revoke" e.payload =
        Protocol.normalizeKeyRevokePayload rt e.payload := rfl
    simp only [validateEventPayload, hschema, hnormalize, ↓check_bind_eq_ok, bind_eq_ok,
      orFail_eq_ok, require_eq_ok] at h
    obtain ⟨normalized, hnorm, heq, -⟩ := h
    exact ⟨normalized, hnorm, heq⟩
  obtain ⟨key, revokedAt, graceUntil, hkey, hat, hgrace⟩ :=
    Protocol.normalizeKeyRevokePayload_fields hnorm
  obtain ⟨_, hkey', hstr⟩ := Dict.exists_of_eq heq hkey
  obtain ⟨at', hat', hatEq⟩ := Dict.exists_of_eq heq hat
  obtain ⟨grace', hgrace', hgraceEq⟩ := Dict.exists_of_eq heq hgrace
  obtain rfl := PyVal.eq_str hstr
  have hatRat := PyVal.or_rat? (PyVal.rat?_of_eq_int hatEq) 0
  obtain ⟨n, hn⟩ := safeInt_of_rat? rt hatRat 0
  have hgraceRat := PyVal.or_rat? (PyVal.rat?_of_eq_int hgraceEq) n
  obtain ⟨m, hm⟩ := safeInt_of_rat? rt hgraceRat n
  simp only [revocationInfo, Dict.get, hkey', hat', hgrace', Option.getD_some]
  cases hpub : (PyVal.str key).or (.str e.publicKey) with
  | str k =>
    by_cases hk : k = ""
    · exact ⟨none, by simp [hk, PyVal.truthy, pure, Except.pure]⟩
    · simp [hk, PyVal.truthy, hn, hm, bind, Except.bind, pure, Except.pure]
  | _ =>
    -- one of two strings is a string
    unfold PyVal.or at hpub
    split at hpub <;> cases hpub

/-- The ledger with its revocation table updated. -/
def Infonet.withRevocation (rt : Runtime) (net : Infonet) (e : ChainEvent) : Infonet :=
  { net with revocations := addRevocation rt net.revocations e }

namespace Infonet

section
variable (rt : Runtime) (net : Infonet) (e : ChainEvent)

@[simp] theorem withRevocation_events : (net.withRevocation rt e).events = net.events := rfl

@[simp] theorem withRevocation_headHash : (net.withRevocation rt e).headHash = net.headHash := rfl

@[simp] theorem withRevocation_eventIndex :
    (net.withRevocation rt e).eventIndex = net.eventIndex := rfl

@[simp] theorem withRevocation_publicKeyBindings :
    (net.withRevocation rt e).publicKeyBindings = net.publicKeyBindings := rfl

@[simp] theorem withRevocation_coldSegments :
    (net.withRevocation rt e).coldSegments = net.coldSegments := rfl

@[simp] theorem withRevocation_replayFilter :
    (net.withRevocation rt e).replayFilter = net.replayFilter := rfl

@[simp] theorem withRevocation_lastSequence (slot : SequenceSlot) :
    (net.withRevocation rt e).lastSequence slot = net.lastSequence slot := by
  cases slot <;> rfl

@[simp] theorem withRevocation_revocations :
    (net.withRevocation rt e).revocations = addRevocation rt net.revocations e := rfl

end

end Infonet

theorem Infonet.applyIfRevocation_eq_ok {env : Env} {net net' : Infonet} {e : ChainEvent} :
    net.applyIfRevocation env e = .ok net' ↔
      (e.eventType = "key_revoke" → ∃ info, revocationInfo env.rt e = .ok info) ∧
      net' = net.withRevocation env.rt e := by
  unfold applyIfRevocation withRevocation addRevocation
  by_cases htype : e.eventType = "key_revoke"
  · simp only [htype, if_true, true_implies]
    cases hinfo : revocationInfo env.rt e with
    | error exn => simp [applyRevocation, hinfo, bind, Except.bind]
    | ok info =>
      cases info <;>
        simp [applyRevocation, hinfo, bind, Except.bind, pure, Except.pure] <;> exact eq_comm
  · simp only [htype, if_false, false_implies, true_and, Except.ok.injEq]
    exact eq_comm

/-- A `key_revoke` with a valid payload updates the table without an exception. -/
theorem applyIfRevocation_of_valid {env : Env} {net : Infonet} {e : ChainEvent}
    (hpayload : e.eventType = "key_revoke" →
      validateEventPayload env.rt env.extensionValidators e.eventType e.payload = .ok ()) :
    net.applyIfRevocation env e = .ok (net.withRevocation env.rt e) := by
  refine Infonet.applyIfRevocation_eq_ok.mpr ⟨fun hrevoke => ?_, rfl⟩
  have hvalid := hpayload hrevoke
  rw [hrevoke] at hvalid
  exact revocationInfo_of_valid hvalid

/-- An append whose event can be read as a revocation, should it be one, returns it. -/
theorem Infonet.commitAppend_eq (env : Env) (call : Call) (net : Infonet) {p : Prepared}
    (hinfo : p.event.eventType = "key_revoke" → ∃ info, revocationInfo env.rt p.event = .ok info) :
    net.commitAppend env call p =
      (((net.recordEvent env call p.slot p.sequence p.event).invalidateMerkleCache.withRevocation
        env.rt p.event).save, .ok p.event) := by
  unfold commitAppend
  simp only [applyIfRevocation_eq_ok.mpr ⟨hinfo, rfl⟩]

/-! ## One event -/

namespace Infonet

/-- The ledger after an accepted event. -/
def commit (env : Env) (call : Call) (net : Infonet) (e : ChainEvent) : Infonet :=
  let bound := (net.rotateFilter call).setBinding e.publicKey e.nodeId
  (bound.recordEvent env call (e.slot env.rt) (e.seqNum env.rt) e).withRevocation env.rt e

section
variable (env : Env) (call : Call) (net : Infonet) (e : ChainEvent)

@[simp] theorem commit_events : (net.commit env call e).events = net.events ++ [e] := by
  simp [commit, recordEvent, rotateFilter, setBinding]

@[simp] theorem commit_headHash : (net.commit env call e).headHash = e.eventId := by
  simp [commit, recordEvent]

@[simp] theorem commit_eventIndex : (net.commit env call e).eventIndex =
    Function.update net.eventIndex e.eventId (some net.events.length) := by
  simp [commit, recordEvent, rotateFilter, setBinding]

@[simp] theorem commit_publicKeyBindings : (net.commit env call e).publicKeyBindings =
    Function.update net.publicKeyBindings e.publicKey e.nodeId := by
  simp [commit, recordEvent, rotateFilter, setBinding]

@[simp] theorem commit_revocations : (net.commit env call e).revocations =
    addRevocation env.rt net.revocations e := by
  simp [commit, recordEvent, rotateFilter, setBinding]

@[simp] theorem commit_coldSegments : (net.commit env call e).coldSegments =
    net.coldSegments := by
  simp [commit, recordEvent, rotateFilter, setBinding]

@[simp] theorem commit_lastSequence (slot : SequenceSlot) :
    (net.commit env call e).lastSequence slot =
      if slot = e.slot env.rt then e.seqNum env.rt else net.lastSequence slot := by
  have h := lastSequence_setSequence net (e.slot env.rt) slot (e.seqNum env.rt)
  rw [← h]
  unfold commit recordEvent
  cases e.slot env.rt <;> cases slot <;> rfl

theorem commit_history : (net.commit env call e).history = net.history ++ [e] := by
  simp [history]

end

theorem bindPublicKey_eq_ok {net net' : Infonet} {key node : String} :
    net.bindPublicKey key node = .ok net' ↔
      key ≠ "" ∧ node ≠ "" ∧
      (net.publicKeyBindings key = "" ∨ net.publicKeyBindings key = node) ∧
      net' = net.setBinding key node := by
  unfold bindPublicKey
  by_cases hmissing : key = "" ∨ node = ""
  · rw [if_pos hmissing]
    constructor
    · rintro ⟨⟩
    · rintro ⟨hkey, hnode, -⟩
      exact absurd hmissing (by simp [hkey, hnode])
  · rw [if_neg hmissing]
    push Not at hmissing
    by_cases htaken : net.publicKeyBindings key ≠ "" ∧ net.publicKeyBindings key ≠ node
    · rw [if_pos htaken]
      constructor
      · rintro ⟨⟩
      · rintro ⟨-, -, hfree | hfree, -⟩
        · exact absurd hfree htaken.1
        · exact absurd hfree htaken.2
    · rw [if_neg htaken, Except.ok.injEq]
      have hfree : net.publicKeyBindings key = "" ∨ net.publicKeyBindings key = node := by
        by_contra hno
        push Not at hno
        exact htaken hno
      exact ⟨fun heq => ⟨hmissing.1, hmissing.2, hfree, heq.symm⟩, fun h => h.2.2.2.symm⟩

end Infonet

theorem checkKeyRevokeMatches_eq_ok {e : ChainEvent} {keyName algoName : String} :
    checkKeyRevokeMatches e.payload e.publicKey e.publicKeyAlgo keyName algoName = .ok () ↔
      RevokesOwnKey e := by
  simp only [checkKeyRevokeMatches, check_bind_eq_ok, require_eq_ok, RevokesOwnKey]
  grind

theorem ChainEvent.seq_eq_ok {rt : Runtime} {e : ChainEvent} {n : Int} :
    e.seq rt = .ok n ↔ e.seq rt = .ok (e.seqNum rt) ∧ e.seqNum rt = n := by
  unfold ChainEvent.seqNum
  cases e.seq rt <;> simp

theorem ingestHeader_eq_ok {env : Env} {net : Infonet} {e : ChainEvent} {n : Int} :
    ingestHeader env net e = .ok n ↔
      (e.seq env.rt = .ok (e.seqNum env.rt) ∧ e.seqNum env.rt = n) ∧
      e.eventType ∈ allowedEventTypes ∧ (e.eventId ≠ "" ∧ e.prevHash ≠ "") ∧
      net.eventIndex e.eventId = none := by
  unfold ingestHeader
  simp only [↓check_bind_eq_ok, bind_eq_ok, orFail_eq_ok, demand_eq_ok, require_eq_ok, pure_eq_ok]
  constructor
  · rintro ⟨m, hseq, hallowed, hids, hindex, rfl⟩
    exact ⟨ChainEvent.seq_eq_ok.mp hseq, hallowed, not_or.mp hids, hindex⟩
  · rintro ⟨hseq, hallowed, hids, hindex⟩
    exact ⟨n, ChainEvent.seq_eq_ok.mpr hseq, hallowed, not_or.mpr hids, hindex, rfl⟩

/-- Rotating the filter leaves the rest of the ledger alone, also to the checks after it. -/
theorem ingestBody_eq_ok {env : Env} {call : Call} {net : Infonet} {e : ChainEvent} {n : Int} :
    ingestBody env call (net.rotateFilter call) net.headHash e n = .ok () ↔
      (net.rotateFilter call).replayFilter.seen env e.eventId = false ∧
      e.prevHash = net.headHash ∧ e.networkId = networkId ∧ e.prevHash = net.headHash ∧
      0 < n ∧ net.lastSequence (e.slot env.rt) < n ∧ checkFresh env call e = .ok () ∧
      validateEventPayload env.rt env.extensionValidators e.eventType e.payload = .ok () ∧
      validateLedgerPayload env e.eventType e.payload = .ok () ∧
      (e.eventType = "dm_message" →
        net.checkDmSpool env call.now e.payload e.nodeId = .ok ()) ∧
      ¬ (e.eventType = "message" ∧ Dict.contains e.payload "ephemeral" = false) ∧
      payloadBytes env e.payload ≤ maxPayloadBytes ∧
      (e.protocolVersion = "" ∨ e.protocolVersion = protocolVersion) ∧
      ¬ (e.signature = "" ∨ e.publicKey = "" ∨ e.publicKeyAlgo = "") ∧
      parsePublicKeyAlgo env.rt e.publicKeyAlgo ≠ "" ∧
      (e.eventType = "key_revoke" → RevokesOwnKey e) ∧
      ¬ (net.revoked call.now e.publicKey = true ∧ e.eventType ≠ "key_revoke") ∧
      net.lastSequence (e.slot env.rt) < n ∧
      env.verifyNodeBinding e.nodeId e.publicKey = true := by
  unfold ingestBody
  simp only [check_bind_eq_ok, demand_eq_ok, demandOk_eq_ok, require_eq_ok, onlyIf_eq_ok,
    checkKeyRevokeMatches_eq_ok]
  rfl

/-- An event that passes is linked to the head, which is what the loop expects. -/
theorem ingestBody_expected {env : Env} {call : Call} {net : Infonet} {prev : String}
    {e : ChainEvent} {n : Int} (h : ingestBody env call net prev e n = .ok ()) :
    prev = net.headHash := by
  unfold ingestBody at h
  simp only [check_bind_eq_ok, demand_eq_ok, require_eq_ok] at h
  exact h.2.1.symm.trans h.2.2.2.1

theorem ingestBound_eq_ok {env : Env} {call : Call} {e : ChainEvent} {n : Int} :
    ingestBound env call e n = .ok () ↔
      checkSignature env e n e.payload = .ok () ∧ ChainEvent.hashMatches env call e = true := by
  simp [ingestBound]

namespace Infonet

/-- A sound and admissible event is accepted. -/
theorem ingestEvent_of_admissible {env : Env} {call : Call} {net : Infonet} {e : ChainEvent}
    (hs : Sound env e) (ha : Admissible env call net e) :
    net.ingestEvent env call net.headHash e = (net.commit env call e, .ok ()) := by
  have hheader : ingestHeader env net e = .ok (e.seqNum env.rt) :=
    ingestHeader_eq_ok.mpr ⟨⟨hs.sequence, rfl⟩, hs.allowed, ⟨hs.eventId, hs.prevHash⟩, ha.unknown⟩
  have hbody : ingestBody env call (net.rotateFilter call) net.headHash e (e.seqNum env.rt) =
      .ok () := by
    refine ingestBody_eq_ok.mpr ⟨ha.unseen, ha.linked, hs.network, ha.linked, hs.sequencePos,
      ha.sequence, ha.fresh, hs.payload, hs.ledgerPayload, ha.spool, ?_, hs.size, hs.version, ?_,
      hs.algo, hs.ownKey, fun h => h.2 (ha.notRevoked h.1), ha.sequence, hs.binding⟩
    · rintro ⟨hmessage, hno⟩
      simp [hs.ephemeral hmessage] at hno
    · simp [hs.signed]
  have hbind : (net.rotateFilter call).bindPublicKey e.publicKey e.nodeId =
      .ok ((net.rotateFilter call).setBinding e.publicKey e.nodeId) :=
    bindPublicKey_eq_ok.mpr ⟨hs.signed.2.1, hs.nodeId, ha.bindable, rfl⟩
  have hbound : ingestBound env call e (e.seqNum env.rt) = .ok () :=
    ingestBound_eq_ok.mpr ⟨hs.signature, ha.hash⟩
  simp only [ingestEvent, hheader, hbody, hbind, hbound,
    applyIfRevocation_of_valid fun _ => hs.payload]
  simp [commit, recordEvent, rotateFilter, setBinding, ChainEvent.slot]

/-- An event that passes every check is sound and admissible. -/
theorem admissible_of_checks {env : Env} {call : Call} {net bound : Infonet} {e : ChainEvent}
    {n : Int} (hheader : ingestHeader env net e = .ok n)
    (hbody : ingestBody env call (net.rotateFilter call) net.headHash e n = .ok ())
    (hbind : (net.rotateFilter call).bindPublicKey e.publicKey e.nodeId = .ok bound)
    (hbound : ingestBound env call e n = .ok ()) : Sound env e ∧ Admissible env call net e := by
  obtain ⟨⟨hseq, rfl⟩, hallowed, ⟨hid, hprev⟩, hunknown⟩ := ingestHeader_eq_ok.mp hheader
  obtain ⟨hunseen, hlinked, hnet, -, hpos, hlast, hfresh, hpayload, hledger, hspool, heph,
    hsize, hversion, hsigned, halgo, hown, hrev, -, hbinding⟩ := ingestBody_eq_ok.mp hbody
  obtain ⟨-, hnode, hfree, -⟩ := bindPublicKey_eq_ok.mp hbind
  obtain ⟨hsig, hhash⟩ := ingestBound_eq_ok.mp hbound
  push Not at hsigned hrev heph
  exact ⟨⟨hallowed, hid, hprev, hnode, hnet, hseq, hpos, hpayload, hledger,
      fun hm => by simpa using heph hm, hsize, hversion, hsigned, halgo, hown, hbinding, hsig⟩,
    ⟨hunknown, hunseen, hlinked, hlast, hfresh, hspool, hrev, hfree, hhash⟩⟩

/-- Only sound and admissible events are accepted. -/
theorem admissible_of_ingestEvent {env : Env} {call : Call} {net net' : Infonet} {e : ChainEvent}
    (h : net.ingestEvent env call net.headHash e = (net', .ok ())) :
    Sound env e ∧ Admissible env call net e := by
  unfold ingestEvent at h
  cases hheader : ingestHeader env net e with
  | error skip => simp [hheader] at h
  | ok n =>
    simp only [hheader] at h
    cases hbody : ingestBody env call (net.rotateFilter call) net.headHash e n with
    | error skip => simp [hbody] at h
    | ok _ =>
      simp only [hbody] at h
      cases hbind : (net.rotateFilter call).bindPublicKey e.publicKey e.nodeId with
      | error reason => simp [hbind] at h
      | ok bound =>
        simp only [hbind] at h
        cases hbound : ingestBound env call e n with
        | error skip => simp [hbound] at h
        | ok _ => exact admissible_of_checks hheader hbody hbind hbound

/-- An event is accepted exactly when it is sound and admissible. -/
theorem ingestEvent_eq_ok {env : Env} {call : Call} {net net' : Infonet} {e : ChainEvent} :
    net.ingestEvent env call net.headHash e = (net', .ok ()) ↔
      (Sound env e ∧ Admissible env call net e) ∧ net' = net.commit env call e := by
  constructor
  · intro h
    obtain ⟨hs, ha⟩ := admissible_of_ingestEvent h
    rw [ingestEvent_of_admissible hs ha] at h
    exact ⟨⟨hs, ha⟩, (Prod.mk.inj h).1.symm⟩
  · rintro ⟨⟨hs, ha⟩, rfl⟩
    exact ingestEvent_of_admissible hs ha

end Infonet

/-! ## Batches -/

/-- A skipped event is not counted as accepted. -/
theorem IngestResult.skip_accepted {r r' : IngestResult} {idx : Nat} {s : Skip}
    (h : r.skip idx s = .ok r') : r'.accepted = r.accepted := by
  rcases s with _ | ⟨_⟩ | _ <;> simp [IngestResult.skip] at h <;> simp [← h]

namespace Infonet

/-- Every event of the batch is sound, and admissible where its turn comes. -/
def AcceptsAll (env : Env) (call : Call) (net : Infonet) (es : List ChainEvent) : Prop :=
  Along (fun net e => net.commit env call e)
    (fun net e => Sound env e ∧ Admissible env call net e) net es

theorem AcceptsAll.sound {env : Env} {call : Call} {net : Infonet} {es : List ChainEvent}
    (h : AcceptsAll env call net es) : ∀ e ∈ es, Sound env e := by
  intro e he
  obtain ⟨pre, post, rfl⟩ := List.append_of_mem he
  exact (along_iff_split.mp h pre e post rfl).1

/-- The ledger after the events, with no save yet. -/
def commitAll (env : Env) (call : Call) (net : Infonet) (es : List ChainEvent) : Infonet :=
  run (fun net e => net.commit env call e) net es

/-- The loop never counts more acceptances than it has items. -/
theorem ingestLoop_accepted_le {env : Env} {call : Call} {items : List WireItem} {idx : Nat}
    {prev : String} {result result' : IngestResult} {net net' : Infonet}
    (h : ingestLoop env call items idx prev result net = (net', .ok result')) :
    result'.accepted ≤ result.accepted + items.length := by
  induction items generalizing idx prev result net with
  | nil =>
    simp only [ingestLoop, Prod.mk.injEq, Except.ok.injEq] at h
    simp [h.2]
  | cons item items ih =>
    simp only [ingestLoop] at h
    split at h
    · have hle := ih h
      simp only [IngestResult.accept] at hle
      simp only [List.length_cons]
      omega
    · split at h
      · simp at h
      · rename_i hskip
        have hle := ih h
        rw [IngestResult.skip_accepted hskip] at hle
        simp only [List.length_cons]
        omega

/-- The loop accepts a whole batch when every event is admissible in its turn. -/
theorem ingestLoop_of_acceptsAll {env : Env} {call : Call} {es : List ChainEvent} {idx : Nat}
    {result : IngestResult} {net : Infonet} (h : AcceptsAll env call net es) :
    ingestLoop env call (es.map .event) idx net.headHash result net =
      (commitAll env call net es, .ok { result with accepted := result.accepted + es.length }) := by
  induction es generalizing idx result net with
  | nil => rfl
  | cons e es ih =>
    obtain ⟨⟨hs, ha⟩, hrest⟩ := h
    simp only [List.map_cons, ingestLoop, ingestItem, ingestEvent_of_admissible hs ha]
    rw [ih hrest]
    simp [commitAll, IngestResult.accept, Nat.add_assoc, Nat.add_comm 1]

/-- A batch that is accepted as a whole is admissible event by event. -/
theorem acceptsAll_of_ingestLoop {env : Env} {call : Call} {es : List ChainEvent} {idx : Nat}
    {result result' : IngestResult} {net net' : Infonet}
    (h : ingestLoop env call (es.map .event) idx net.headHash result net = (net', .ok result'))
    (hall : result'.accepted = result.accepted + es.length) : AcceptsAll env call net es := by
  induction es generalizing idx result net with
  | nil => trivial
  | cons e es ih =>
    simp only [List.map_cons, ingestLoop, ingestItem] at h
    split at h
    · rename_i net₁ hevent
      obtain ⟨hok, rfl⟩ := ingestEvent_eq_ok.mp hevent
      refine ⟨hok, ih h ?_⟩
      simp only [List.length_cons] at hall
      simp only [IngestResult.accept]
      omega
    · -- one skipped event leaves too few for the count
      split at h
      · simp at h
      · rename_i hskip
        have hle := ingestLoop_accepted_le h
        have hsame := IngestResult.skip_accepted hskip
        simp only [List.length_map, List.length_cons] at hle hall
        omega

/-- The ledger after a batch that was accepted as a whole. -/
def commitBatch (env : Env) (call : Call) (net : Infonet) (es : List ChainEvent) : Infonet :=
  if es = [] then net else (net.commitAll env call es).invalidateMerkleCache.save

theorem commitAll_history (env : Env) (call : Call) (net : Infonet) (es : List ChainEvent) :
    (net.commitAll env call es).history = net.history ++ es := by
  unfold commitAll
  induction es generalizing net with
  | nil => simp
  | cons e es ih => simp [ih, commit_history]

theorem commitBatch_history (env : Env) (call : Call) (net : Infonet) (es : List ChainEvent) :
    (net.commitBatch env call es).history = net.history ++ es := by
  unfold commitBatch
  split
  · rename_i hnone
    simp [hnone]
  · rw [history_save]
    exact commitAll_history env call net es

theorem ingestEvents_of_acceptsAll {env : Env} {call : Call} {es : List ChainEvent}
    {net : Infonet} (h : AcceptsAll env call net es) :
    net.ingestEvents env call (es.map .event) =
      (net.commitBatch env call es, .ok { accepted := es.length }) := by
  unfold ingestEvents commitBatch
  rw [ingestLoop_of_acceptsAll h]
  cases es <;> simp [commitAll]

/-- A batch is accepted as a whole exactly when it is admissible event by event. -/
theorem ingestEvents_accepts_iff {env : Env} {call : Call} {es : List ChainEvent} {net : Infonet} :
    (∃ net' r, net.ingestEvents env call (es.map .event) = (net', .ok r) ∧
      r.accepted = es.length) ↔ AcceptsAll env call net es := by
  constructor
  · rintro ⟨net', r, h, hall⟩
    unfold ingestEvents at h
    split at h
    · simp at h
    · rename_i net₁ r₁ hloop
      have hr : r₁ = r := by
        split at h <;> simpa using (Prod.mk.inj h).2
      exact acceptsAll_of_ingestLoop hloop (by simp [hr, hall])
  · intro h
    exact ⟨_, _, ingestEvents_of_acceptsAll h, rfl⟩

end Infonet

end Vincent.Mesh
