-- SUMMARY: What a successful local write guarantees.
import Vincent.Mesh.Admission

/-!
# Local writes are admissible

The three appends and `ingest_events` check the same things by separate code.
`Appended` collects what the checks of an append establish. Together with the
event type it makes the event sound, and the ledger after the append is the
`commit` of its event.
-/

namespace Vincent.Mesh

open Vincent.Python Vincent.Check

/-! ## Event types -/

/-- A lower case letter or an underscore. -/
def isNameChar (c : Char) : Bool := ('a' ≤ c && c ≤ 'z') || c == '_'

theorem isNameChar_facts {c : Char} (h : isNameChar c) :
    isSpace c = false ∧ c.val < 128 ∧ c.toLower = c := by
  have hall : ∀ n : Fin 128, isNameChar (Char.ofNat n) = true → isSpace (Char.ofNat n) = false ∧
      (Char.ofNat n).val < 128 ∧ (Char.ofNat n).toLower = Char.ofNat n := by decide +kernel
  have hlt : c.toNat < 128 := by
    simp only [isNameChar, Bool.or_eq_true, Bool.and_eq_true, decide_eq_true_eq, beq_iff_eq] at h
    rcases h with ⟨-, hle⟩ | rfl
    · exact lt_of_le_of_lt (Char.le_def.mp hle) (by decide)
    · decide
  simpa using hall ⟨c.toNat, hlt⟩ (by simpa using h)

theorem eventTypes_isNameChar : ∀ et ∈ allowedEventTypes ++ infonetEconomyEventTypes,
    et.toList.all isNameChar = true := by
  decide +kernel

/-- Every event type is lower case ASCII without surrounding blanks. -/
theorem eventTypes_canonical {et : String}
    (h : et ∈ allowedEventTypes ++ infonetEconomyEventTypes) :
    strip et = et ∧ (∀ c ∈ et.toList, c.val < 128) ∧
      String.ofList (et.toList.map Char.toLower) = et := by
  have hname := List.all_eq_true.mp (eventTypes_isNameChar et h)
  have hkeep : ∀ cs : List Char, (∀ c ∈ cs, isNameChar c = true) → cs.dropWhile isSpace = cs := by
    intro cs hcs
    cases cs with
    | nil => rfl
    | cons c cs => simp [List.dropWhile, (isNameChar_facts (hcs c (by simp))).1]
  refine ⟨?_, fun c hc => (isNameChar_facts (hname c hc)).2.1, ?_⟩
  · rw [strip, hkeep _ hname, hkeep _ (by simpa using hname)]
    simp
  · rw [List.map_congr_left fun c hc => (isNameChar_facts (hname c hc)).2.2]
    simp

theorem lower_eventType (rt : Runtime) {et : String}
    (h : et ∈ allowedEventTypes ++ infonetEconomyEventTypes) : rt.lower (strip et) = et := by
  obtain ⟨hstrip, hascii, hlower⟩ := eventTypes_canonical h
  rw [hstrip, rt.lower_ascii et hascii, hlower]

theorem activeAppend_subset {env : Env} {et : String} (h : et ∈ env.activeAppendEventTypes) :
    et ∈ allowedEventTypes ++ infonetEconomyEventTypes := by
  unfold Env.activeAppendEventTypes at h
  simp only [allowedEventTypes, publicLedgerEventTypes, List.mem_append] at h ⊢
  split at h
  · exact (List.mem_append.mp h).imp_left .inl
  · exact .inl (.inl h)

theorem activeAppend_public {env : Env} {et : String} (h : et ∈ env.activeAppendEventTypes) :
    et ≠ "gate_message" ∧ et ≠ "dm_message" := by
  have hall : ∀ et ∈ activePublicLedgerEventTypes ++ infonetEconomyEventTypes,
      et ≠ "gate_message" ∧ et ≠ "dm_message" := by decide +kernel
  unfold Env.activeAppendEventTypes at h
  split at h
  · exact hall et h
  · exact hall et (List.mem_append_left _ h)

/-- The types that `append` takes advance the counter of their author. -/
theorem sequenceTableForEvent_active {env : Env} {et : String} (nodeId : String)
    (h : et ∈ env.activeAppendEventTypes) :
    sequenceTableForEvent env.rt et nodeId = .node nodeId := by
  obtain ⟨hgate, hdm⟩ := activeAppend_public h
  simp [sequenceTableForEvent, lower_eventType env.rt (activeAppend_subset h), hgate, hdm]

theorem getSchema_allowed (rt : Runtime) {et : String} (h : et ∈ allowedEventTypes) :
    (Schema.getSchema rt et).isSome := by
  simp only [allowedEventTypes, publicLedgerEventTypes, activePublicLedgerEventTypes,
    legacyPublicLedgerEventTypes, List.cons_append, List.nil_append, List.mem_cons,
    List.not_mem_nil, or_false] at h
  rcases h with rfl | rfl | rfl | rfl | rfl | rfl | rfl | rfl | rfl | rfl <;> rfl

/-! ## The `ephemeral` flag -/

theorem Schema.requireFields_eq_ok {payload : Dict} {fields : List String} :
    Schema.requireFields payload fields = .ok () ↔
      ∀ key ∈ fields, Dict.contains payload key = true := by
  induction fields with
  | nil => simp [Schema.requireFields]
  | cons key fields ih =>
    unfold Schema.requireFields
    split
    · rename_i hkey
      simp [ih, hkey]
    · rename_i hkey
      simp [hkey, throw, throwThe, MonadExceptOf.throw]

theorem contains_ephemeral_of_message {rt : Runtime} {ext : ExtensionValidators} {payload : Dict}
    (h : validateEventPayload rt ext "message" payload = .ok ()) :
    Dict.contains payload "ephemeral" = true := by
  have hschema : Schema.getSchema rt "message" = some Schema.validateMessage := rfl
  simp only [validateEventPayload, hschema, ↓check_bind_eq_ok, bind_eq_ok, orFail_eq_ok,
    require_eq_ok, Schema.validateMessage, Schema.requireFields_eq_ok] at h
  obtain ⟨_, _, _, _, hfields, _⟩ := h
  exact hfields _ (by simp)

/-- No other valid event of a ledger type mentions it. -/
theorem not_contains_ephemeral {rt : Runtime} {ext : ExtensionValidators} {et : String}
    {payload : Dict} (hallowed : et ∈ allowedEventTypes) (hmessage : et ≠ "message")
    (hgate : et ≠ "gate_message") (h : validateEventPayload rt ext et payload = .ok ()) :
    Dict.contains payload "ephemeral" = false := by
  obtain ⟨validate, hschema⟩ := Option.isSome_iff_exists.mp (getSchema_allowed rt hallowed)
  simp only [validateEventPayload, hschema, ↓check_bind_eq_ok, bind_eq_ok, orFail_eq_ok,
    require_eq_ok] at h
  obtain ⟨_, _, _, heph, _⟩ := h
  by_contra hcontains
  exact heph ⟨hmessage, hgate, by simpa using hcontains⟩

/-! ## The checks of an append -/

/-- What the checks of an append establish about the event it builds, against the
    ledger before the call. -/
structure Appended (env : Env) (call : Call) (net : Infonet) (p : Prepared) : Prop where
  active : p.event.eventType ∈ env.activeAppendEventTypes ∨
    p.event.eventType = "dm_message" ∨ p.event.eventType = "gate_message"
  slot : p.slot = p.event.slot env.rt
  seq : p.event.seq env.rt = .ok p.sequence
  sequencePos : 0 < p.sequence
  sequence : net.lastSequence p.slot < p.sequence
  prevHash : p.event.prevHash = net.headHash
  eventId : p.event.eventId ≠ ""
  network : p.event.networkId = networkId
  timestamp : p.event.timestamp.truthy = true
  timestampFloat : ∃ x, p.event.timestamp = .float x
  hash : ∀ later, ChainEvent.hashMatches env later p.event = true
  payload : p.event.eventType ∈ allowedEventTypes →
    validateEventPayload env.rt env.extensionValidators p.event.eventType p.event.payload = .ok () ∧
    validateLedgerPayload env p.event.eventType p.event.payload = .ok ()
  spool : p.event.eventType = "dm_message" →
    net.checkDmSpool env call.now p.event.payload p.event.nodeId = .ok ()
  size : payloadBytes env p.event.payload ≤ maxPayloadBytes
  version : p.event.protocolVersion = protocolVersion
  signed : p.event.signature ≠ "" ∧ p.event.publicKey ≠ "" ∧ p.event.publicKeyAlgo ≠ ""
  algo : parsePublicKeyAlgo env.rt p.event.publicKeyAlgo ≠ ""
  binding : env.verifyNodeBinding p.event.nodeId p.event.publicKey = true
  nodeId : p.event.nodeId ≠ ""
  bindable : net.publicKeyBindings p.event.publicKey = "" ∨
    net.publicKeyBindings p.event.publicKey = p.event.nodeId
  signature : checkSignature env p.event p.sequence p.event.payload = .ok ()
  notRevoked : net.revoked call.now p.event.publicKey → p.event.eventType = "key_revoke"
  ownKey : p.event.eventType = "key_revoke" → RevokesOwnKey p.event

theorem checkAppendSequence_eq_ok {net : Infonet} {slot : SequenceSlot} {n : Int} :
    checkAppendSequence net slot n = .ok () ↔ 0 < n ∧ net.lastSequence slot < n := by
  simp [checkAppendSequence]

theorem checkAppendIdentity_eq_ok {env : Env} {payload : Dict}
    {version signature key algo node : String} :
    checkAppendIdentity env payload version signature key algo node = .ok () ↔
      payloadBytes env payload ≤ maxPayloadBytes ∧ version = protocolVersion ∧
      (signature ≠ "" ∧ key ≠ "" ∧ algo ≠ "") ∧ parsePublicKeyAlgo env.rt algo ≠ "" ∧
      env.verifyNodeBinding node key = true := by
  simp only [checkAppendIdentity, check_bind_eq_ok, require_eq_ok, not_or, ne_eq]

/-- For a ledger type, the stored payload is the one that was validated. -/
theorem appendPayload_eq_ok {env : Env} {req : AppendRequest} {payload : Dict}
    (hallowed : req.eventType ∈ allowedEventTypes) (hgate : req.eventType ≠ "gate_message")
    (h : appendPayload env req = .ok payload) :
    validateEventPayload env.rt env.extensionValidators req.eventType payload = .ok () ∧
    validatePublicLedgerPayload env.rt env.extensionValidators req.eventType payload = .ok () := by
  unfold appendPayload at h
  simp only [↓check_bind_eq_ok, bind_eq_ok, orFail_eq_ok, pure_eq_ok] at h
  obtain ⟨normalized, -, hvalid, hpublic, rfl⟩ := h
  by_cases hmessage : req.eventType = "message"
  · rw [hmessage] at hvalid hpublic ⊢
    simp [contains_ephemeral_of_message hvalid, hvalid, hpublic]
  · have hno := not_contains_ephemeral hallowed hmessage hgate hvalid
    simp [hmessage, Dict.pop_of_not_contains hno, hvalid, hpublic]

/-- The stamp of `append` is never zero: the constructor replaces it by the clock. -/
theorem ChainEvent.init_facts (env : Env) (call : Call) (e : ChainEvent) (hnet : e.networkId = "") :
    (ChainEvent.init env call e).eventId ≠ "" ∧
    (ChainEvent.init env call e).networkId = Mesh.networkId ∧
    (ChainEvent.init env call e).timestamp.truthy = true ∧
    ∀ later, ChainEvent.hashMatches env later (ChainEvent.init env call e) = true := by
  have hne : Mesh.networkId ≠ "" := by decide
  have hinit : ChainEvent.init env call e =
      ChainEvent.init env call { e with networkId := Mesh.networkId } := by
    simp [ChainEvent.init, hnet, hne]
  refine ⟨env.sha256_ne_empty _, by simp [ChainEvent.init, hnet],
    ChainEvent.timestampOrNow_truthy _ _, fun later => ?_⟩
  rw [hinit]
  exact ChainEvent.hashMatches_init env call later _ rfl

theorem protocolVersionOrDefault_eq {version : String}
    (h : protocolVersionOrDefault version = protocolVersion) :
    (if protocolVersionOrDefault version = "" then protocolVersion
      else protocolVersionOrDefault version) = protocolVersion := by
  simp [h]

theorem seq_of_pos {rt : Runtime} {e : ChainEvent} {n : Int} (h : e.sequence = .int n) :
    e.seq rt = .ok n := by
  unfold ChainEvent.seq PyVal.or
  rw [h]
  by_cases hn : n = 0 <;> simp [PyVal.truthy, hn, safeInt]

namespace AppendCall

theorem appended_append {env : Env} {call : Call} {net bound : Infonet} {req : AppendRequest}
    {payload : Dict} (hchecks : appendChecks env net req = .ok payload)
    (hbind : net.bindPublicKey req.publicKey req.nodeId = .ok bound)
    (hbound : appendBoundChecks env call bound req payload = .ok ()) :
    Appended env call net (prepared env call bound payload (.append req)) := by
  unfold appendChecks at hchecks
  simp only [↓check_bind_eq_ok, bind_eq_ok, require_eq_ok, pure_eq_ok,
    checkAppendSequence_eq_ok, checkAppendIdentity_eq_ok] at hchecks
  obtain ⟨hactive, ⟨hpos, hlast⟩, stored, hpayload, ⟨hsize, hversion, hsigned, halgo, hnode⟩, rfl⟩ :=
    hchecks
  obtain ⟨-, hnodeId, hfree, rfl⟩ := Infonet.bindPublicKey_eq_ok.mp hbind
  simp only [appendBoundChecks, check_bind_eq_ok, require_eq_ok, onlyIf_eq_ok] at hbound
  obtain ⟨hsig, hrev, hown⟩ := hbound
  obtain ⟨hid, hnet, hstamp, hhash⟩ := ChainEvent.init_facts env call
    { eventId := "", prevHash := net.headHash, eventType := req.eventType, nodeId := req.nodeId,
      payload := stored,
      timestamp := .float (.finite (appendTime call req.timestampBucketS)),
      sequence := .int req.sequence, signature := req.signature, networkId := "",
      publicKey := req.publicKey, publicKeyAlgo := req.publicKeyAlgo,
      protocolVersion := protocolVersionOrDefault req.protocolVersion } rfl
  obtain ⟨hgate, hdm⟩ := activeAppend_public hactive
  exact {
    active := .inl hactive
    slot := (sequenceTableForEvent_active req.nodeId hactive).symm
    seq := seq_of_pos rfl
    sequencePos := hpos
    sequence := hlast
    prevHash := rfl
    eventId := hid
    network := hnet
    timestamp := hstamp
    timestampFloat := timestampOrNow_float _ _
    hash := hhash
    payload := fun hallowed => by
      obtain ⟨hvalid, hpublic⟩ := appendPayload_eq_ok hallowed hgate hpayload
      refine ⟨hvalid, ?_⟩
      simpa [validateLedgerPayload, prepared, appendEvent, ChainEvent.init, hgate, hdm] using hpublic
    spool := fun hspool => absurd hspool hdm
    size := hsize
    version := protocolVersionOrDefault_eq hversion
    signed := hsigned
    algo := halgo
    binding := hnode
    nodeId := hnodeId
    bindable := hfree
    signature := hsig
    notRevoked := fun hrevoked => by
      by_contra hno
      exact hrev ⟨hrevoked, hno⟩
    ownKey := fun hrevoke => checkKeyRevokeMatches_eq_ok.mp (hown hrevoke) }

theorem privateDmChecks_eq_ok {env : Env} {call : Call} {net : Infonet} {req : PrivateRequest}
    {payload : Dict} (h : privateDmChecks env call net req = .ok payload) :
    checkAppendSequence net (sequenceTableForEvent env.rt "dm_message" req.nodeId) req.sequence =
      .ok () ∧
    validatePrivateDmLedgerPayload env.rt env.extensionValidators payload = .ok () ∧
    net.checkDmSpool env call.now payload req.nodeId = .ok () ∧
    checkAppendIdentity env payload (protocolVersionOrDefault req.protocolVersion) req.signature
      req.publicKey req.publicKeyAlgo req.nodeId = .ok () := by
  unfold privateDmChecks at h
  simp only [↓check_bind_eq_ok, bind_eq_ok, require_eq_ok, orFail_eq_ok, pure_eq_ok] at h
  obtain ⟨hseq, -, -, normalized, -, hvalid, hspool, hidentity, rfl⟩ := h
  exact ⟨hseq, hvalid, hspool, hidentity⟩

theorem privateGateChecks_eq_ok {env : Env} {net : Infonet} {req : PrivateRequest}
    {payload : Dict} (h : privateGateChecks env net req = .ok payload) :
    checkAppendSequence net (sequenceTableForEvent env.rt "gate_message" req.nodeId) req.sequence =
      .ok () ∧
    validatePrivateGateLedgerPayload env.rt env.extensionValidators payload = .ok () ∧
    checkAppendIdentity env payload (protocolVersionOrDefault req.protocolVersion) req.signature
      req.publicKey req.publicKeyAlgo req.nodeId = .ok () := by
  unfold privateGateChecks at h
  simp only [↓check_bind_eq_ok, bind_eq_ok, require_eq_ok, orFail_eq_ok, pure_eq_ok] at h
  obtain ⟨hseq, -, -, normalized, -, hvalid, hidentity, rfl⟩ := h
  exact ⟨hseq, hvalid, hidentity⟩

/-- A private append of either type, given that its payload follows the ledger rules. -/
theorem appended_private {env : Env} {call : Call} {net bound : Infonet} {eventType : String}
    {req : PrivateRequest} {payload : Dict}
    (htype : eventType = "dm_message" ∨ eventType = "gate_message")
    (hseq : checkAppendSequence net (sequenceTableForEvent env.rt eventType req.nodeId)
      req.sequence = .ok ())
    (hvalid : validateEventPayload env.rt env.extensionValidators eventType payload = .ok () ∧
      validateLedgerPayload env eventType payload = .ok ())
    (hspool : eventType = "dm_message" →
      net.checkDmSpool env call.now payload req.nodeId = .ok ())
    (hidentity : checkAppendIdentity env payload (protocolVersionOrDefault req.protocolVersion)
      req.signature req.publicKey req.publicKeyAlgo req.nodeId = .ok ())
    (hbind : net.bindPublicKey req.publicKey req.nodeId = .ok bound)
    (hbound : privateBoundChecks env call bound eventType req payload = .ok ()) :
    Appended env call net ⟨privateEvent env call bound eventType req payload,
      sequenceTableForEvent env.rt eventType req.nodeId, req.sequence⟩ := by
  obtain ⟨hpos, hlast⟩ := checkAppendSequence_eq_ok.mp hseq
  obtain ⟨hsize, hversion, hsigned, halgo, hnode⟩ := checkAppendIdentity_eq_ok.mp hidentity
  obtain ⟨-, hnodeId, hfree, rfl⟩ := Infonet.bindPublicKey_eq_ok.mp hbind
  simp only [privateBoundChecks, check_bind_eq_ok, require_eq_ok] at hbound
  obtain ⟨hsig, hrev⟩ := hbound
  obtain ⟨hid, hnet, hstamp, hhash⟩ := ChainEvent.init_facts env call
    { eventId := "", prevHash := net.headHash, eventType := eventType, nodeId := req.nodeId,
      payload := payload, timestamp := timestampOrNow (.float req.timestamp) call,
      sequence := .int req.sequence, signature := req.signature, networkId := "",
      publicKey := req.publicKey, publicKeyAlgo := req.publicKeyAlgo,
      protocolVersion := protocolVersionOrDefault req.protocolVersion } rfl
  exact {
    active := .inr htype
    slot := rfl
    seq := seq_of_pos rfl
    sequencePos := hpos
    sequence := hlast
    prevHash := rfl
    eventId := hid
    network := hnet
    timestamp := hstamp
    timestampFloat := by
      obtain ⟨x, hx⟩ := timestampOrNow_float req.timestamp call
      simp only [privateEvent, ChainEvent.init, hx]
      exact timestampOrNow_float x call
    hash := hhash
    payload := fun _ => hvalid
    spool := hspool
    size := hsize
    version := protocolVersionOrDefault_eq hversion
    signed := hsigned
    algo := halgo
    binding := hnode
    nodeId := hnodeId
    bindable := hfree
    signature := hsig
    notRevoked := fun hrevoked => by
      have hno : net.revoked call.now req.publicKey = false := hrev
      exact absurd (hno.symm.trans hrevoked) (by decide)
    ownKey := fun hrevoke => by
      have hrevoke : eventType = "key_revoke" := hrevoke
      rcases htype with rfl | rfl <;> exact absurd hrevoke (by decide) }

/-- A successful call has established all that `Appended` says, and has bound its key. -/
theorem prepare_eq_ok {env : Env} {call : Call} {net net' : Infonet} {c : AppendCall}
    {p : Prepared} (h : c.prepare env call net = (net', .ok p)) :
    Appended env call net p ∧ net' = net.setBinding p.event.publicKey p.event.nodeId := by
  unfold prepare at h
  cases hchecks : c.checks env call net with
  | error fault => simp [hchecks] at h
  | ok payload =>
    simp only [hchecks] at h
    cases hbind : net.bindPublicKey c.publicKey c.nodeId with
    | error reason => simp [hbind] at h
    | ok bound =>
      simp only [hbind] at h
      cases hbound : c.boundChecks env call bound payload with
      | error fault => simp [hbound] at h
      | ok _ =>
        simp only [hbound, Prod.mk.injEq, Except.ok.injEq] at h
        obtain ⟨rfl, rfl⟩ := h
        have hnet := (Infonet.bindPublicKey_eq_ok.mp hbind).2.2.2
        cases c with
        | append req => exact ⟨appended_append hchecks hbind hbound, hnet⟩
        | privateDmMessage req =>
          obtain ⟨hseq, hvalid, hspool, hidentity⟩ := privateDmChecks_eq_ok hchecks
          have hevent : validateEventPayload env.rt env.extensionValidators "dm_message" payload =
              .ok () := by
            simp only [validatePrivateDmLedgerPayload, check_bind_eq_ok] at hvalid
            exact hvalid.1
          exact ⟨appended_private (.inl rfl) hseq ⟨hevent, hvalid⟩ (fun _ => hspool) hidentity
            hbind hbound, hnet⟩
        | privateGateMessage req =>
          obtain ⟨hseq, hvalid, hidentity⟩ := privateGateChecks_eq_ok hchecks
          have hevent : validateEventPayload env.rt env.extensionValidators "gate_message" payload =
              .ok () := by
            simp only [validatePrivateGateLedgerPayload, check_bind_eq_ok] at hvalid
            exact hvalid.1
          exact ⟨appended_private (.inr rfl) hseq ⟨hevent, hvalid⟩ (fun h => absurd h (by decide))
            hidentity hbind hbound, hnet⟩

end AppendCall

namespace Appended

variable {env : Env} {call : Call} {net : Infonet} {p : Prepared}

theorem seqNum_eq (h : Appended env call net p) : p.event.seqNum env.rt = p.sequence := by
  simp [ChainEvent.seqNum, h.seq]

/-- An appended event of a ledger type is sound, once its predecessor has a hash. -/
theorem sound (h : Appended env call net p) (hallowed : p.event.eventType ∈ allowedEventTypes)
    (hhead : net.headHash ≠ "") : Sound env p.event where
  allowed := hallowed
  eventId := h.eventId
  prevHash := h.prevHash ▸ hhead
  nodeId := h.nodeId
  network := h.network
  sequence := by rw [h.seqNum_eq]; exact h.seq
  sequencePos := by rw [h.seqNum_eq]; exact h.sequencePos
  payload := (h.payload hallowed).1
  ledgerPayload := (h.payload hallowed).2
  ephemeral := fun hmessage => by
    have hvalid := (h.payload hallowed).1
    rw [hmessage] at hvalid
    exact contains_ephemeral_of_message hvalid
  size := h.size
  version := .inr h.version
  signed := h.signed
  algo := h.algo
  ownKey := h.ownKey
  binding := h.binding
  signature := by rw [h.seqNum_eq]; exact h.signature

theorem revocation (h : Appended env call net p) (hrevoke : p.event.eventType = "key_revoke") :
    ∃ info, revocationInfo env.rt p.event = .ok info := by
  have hvalid := (h.payload (by rw [hrevoke]; decide)).1
  rw [hrevoke] at hvalid
  exact revocationInfo_of_valid hvalid

theorem type_mem (h : Appended env call net p) :
    p.event.eventType ∈ allowedEventTypes ++ infonetEconomyEventTypes := by
  rcases h.active with hactive | hdm | hgate
  · exact activeAppend_subset hactive
  · rw [hdm]; decide
  · rw [hgate]; decide

/-- An append leaves the ledger that accepting its event would leave. -/
theorem commitAppend (h : Appended env call net p) :
    (net.setBinding p.event.publicKey p.event.nodeId).commitAppend env call p =
      ((net.commit env call p.event).invalidateMerkleCache.save, .ok p.event) := by
  rw [Infonet.commitAppend_eq env call _ h.revocation]
  -- the replay filter is rotated once here, and twice with no effect in `commit`
  simp only [Infonet.commit, h.slot, h.seqNum_eq]
  cases p.event.slot env.rt <;>
    simp [Infonet.withRevocation, Infonet.recordEvent, Infonet.setSequence, Infonet.setBinding,
      Infonet.rotateFilter, Infonet.invalidateMerkleCache, ReplayFilter.add]

end Appended

/-- What an append that returns an event did: the event was admissible to the
    appends, and the ledger is the one that committed it. -/
theorem Infonet.append_eq_ok {env : Env} {call : Call} {net net' : Infonet} {c : AppendCall}
    {e : ChainEvent} (h : net.append env call c = (net', .ok e)) :
    ∃ p, p.event = e ∧ Appended env call net p ∧
      net' = (net.commit env call e).invalidateMerkleCache.save := by
  unfold append at h
  split at h
  · simp at h
  · rename_i bound p hprep
    obtain ⟨happ, rfl⟩ := AppendCall.prepare_eq_ok hprep
    rw [happ.commitAppend] at h
    simp only [Prod.mk.injEq, Except.ok.injEq] at h
    obtain ⟨rfl, rfl⟩ := h
    exact ⟨p, rfl, happ, rfl⟩

/-! ## Agreement between nodes -/

/-- Two ledgers in the same state. Each has a replay filter of its own salt. -/
structure SameLedger (a b : Infonet) : Prop where
  events : a.events = b.events
  headHash : a.headHash = b.headHash
  nodeSequences : a.nodeSequences = b.nodeSequences
  sequenceDomains : a.sequenceDomains = b.sequenceDomains
  eventIndex : a.eventIndex = b.eventIndex
  publicKeyBindings : a.publicKeyBindings = b.publicKeyBindings
  revocations : a.revocations = b.revocations

namespace SameLedger

variable {a b : Infonet}

theorem lastSequence (h : SameLedger a b) (slot : SequenceSlot) :
    a.lastSequence slot = b.lastSequence slot := by
  cases slot <;> simp [Infonet.lastSequence, h.nodeSequences, h.sequenceDomains]

theorem commit (h : SameLedger a b) (env : Env) (call : Call) (e : ChainEvent) :
    SameLedger (a.commit env call e) (b.commit env call e) where
  events := by simp [h.events]
  headHash := by simp
  nodeSequences := by
    unfold Infonet.commit Infonet.withRevocation Infonet.recordEvent
    cases e.slot env.rt <;> simp [Infonet.setSequence, Infonet.setBinding, Infonet.rotateFilter,
      h.nodeSequences]
  sequenceDomains := by
    unfold Infonet.commit Infonet.withRevocation Infonet.recordEvent
    cases e.slot env.rt <;> simp [Infonet.setSequence, Infonet.setBinding, Infonet.rotateFilter,
      h.sequenceDomains]
  eventIndex := by simp [h.eventIndex, h.events]
  publicKeyBindings := by simp [h.publicKeyBindings]
  revocations := by simp [h.revocations]

theorem invalidateMerkleCache (h : SameLedger a b) :
    SameLedger a.invalidateMerkleCache b.invalidateMerkleCache where
  events := h.events
  headHash := h.headHash
  nodeSequences := h.nodeSequences
  sequenceDomains := h.sequenceDomains
  eventIndex := h.eventIndex
  publicKeyBindings := h.publicKeyBindings
  revocations := h.revocations

theorem save (h : SameLedger a b) : SameLedger a.save b.save where
  events := by
    unfold Infonet.save Infonet.enforceMemoryCap
    rw [h.events]
    split <;> simp [Infonet.invalidateMerkleCache, h.events]
  headHash := by simp [h.headHash]
  nodeSequences := by simp [h.nodeSequences]
  sequenceDomains := by simp [h.sequenceDomains]
  eventIndex := by
    unfold Infonet.save Infonet.enforceMemoryCap
    rw [h.events]
    split <;> simp [Infonet.invalidateMerkleCache, h.eventIndex]
  publicKeyBindings := by simp [h.publicKeyBindings]
  revocations := by simp [h.revocations]

end SameLedger

/-- What an append of one node leaves to the ledger of another in the same state:
    the ledger-dependent checks that an append does not make itself. -/
theorem Appended.admissible_iff {env : Env} {call : Call} {a b : Infonet} {p : Prepared}
    (h : Appended env call a p) (hsame : SameLedger a b) :
    Admissible env call b p.event ↔
      b.eventIndex p.event.eventId = none ∧
      (b.rotateFilter call).replayFilter.seen env p.event.eventId = false ∧
      checkFresh env call p.event = .ok () := by
  constructor
  · intro hadm
    exact ⟨hadm.unknown, hadm.unseen, hadm.fresh⟩
  · rintro ⟨hunknown, hunseen, hfresh⟩
    exact {
      unknown := hunknown
      unseen := hunseen
      linked := hsame.headHash ▸ h.prevHash
      sequence := by
        rw [← hsame.lastSequence, ← h.slot, h.seqNum_eq]
        exact h.sequence
      fresh := hfresh
      spool := fun hdm => by
        have hspool := h.spool hdm
        simp only [Infonet.checkDmSpool, Infonet.dmSpoolActiveCounts, hsame.events] at hspool ⊢
        exact hspool
      notRevoked := fun hrevoked => h.notRevoked (by
        simpa [Infonet.revoked, hsame.revocations] using hrevoked)
      bindable := hsame.publicKeyBindings ▸ h.bindable
      hash := h.hash call }

/-- The other node accepts the event and ends in the state of the first. -/
def PeerAgrees (env : Env) (call : Call) (b a' : Infonet) (e : ChainEvent) : Prop :=
  ∃ b' r, b.ingestEvents env call [.event e] = (b', .ok r) ∧ r.accepted = 1 ∧
    b'.events = a'.events ∧ b'.headHash = a'.headHash ∧ b'.nodeSequences = a'.nodeSequences ∧
    b'.sequenceDomains = a'.sequenceDomains ∧ b'.revocations = a'.revocations

/-- A single event is accepted exactly when it is sound and admissible. -/
theorem ingestEvents_singleton_iff {env : Env} {call : Call} {net : Infonet} {e : ChainEvent} :
    (∃ net' r, net.ingestEvents env call [.event e] = (net', .ok r) ∧ r.accepted = 1) ↔
      Sound env e ∧ Admissible env call net e := by
  have h : _ ↔ Infonet.AcceptsAll env call net [e] := Infonet.ingestEvents_accepts_iff
  simpa [Infonet.AcceptsAll] using h

/-- What a node appends is accepted by one in the same state exactly when the type is one that
    peers take, the timestamp is fresh, and the event is new to its tables. -/
theorem peerAgrees_iff {env : Env} {call : Call} {a b a' : Infonet} {c : AppendCall}
    {e : ChainEvent} (hsame : SameLedger a b) (happend : a.append env call c = (a', .ok e)) :
    PeerAgrees env call b a' e ↔
      e.eventType ∈ allowedEventTypes ∧ checkFresh env call e = .ok () ∧
      a.headHash ≠ "" ∧ b.eventIndex e.eventId = none ∧
      (b.rotateFilter call).replayFilter.seen env e.eventId = false := by
  obtain ⟨p, rfl, happ, rfl⟩ := Infonet.append_eq_ok happend
  constructor
  · rintro ⟨b', r, hingest, haccepted, -⟩
    obtain ⟨hsound, hadm⟩ := ingestEvents_singleton_iff.mp ⟨b', r, hingest, haccepted⟩
    exact ⟨hsound.allowed, hadm.fresh, happ.prevHash ▸ hsound.prevHash, hadm.unknown, hadm.unseen⟩
  · rintro ⟨hallowed, hfresh, hhead, hunknown, hunseen⟩
    have hsound := happ.sound hallowed hhead
    have hadm := (happ.admissible_iff hsame).mpr ⟨hunknown, hunseen, hfresh⟩
    have haccepts : Infonet.AcceptsAll env call b [p.event] := ⟨⟨hsound, hadm⟩, trivial⟩
    have hingest := Infonet.ingestEvents_of_acceptsAll haccepts
    have hend := ((hsame.commit env call p.event).invalidateMerkleCache).save
    exact ⟨_, _, hingest, rfl, hend.events.symm, hend.headHash.symm, hend.nodeSequences.symm,
      hend.sequenceDomains.symm, hend.revocations.symm⟩

/-- A message of the author `!sb_a`. -/
def broadcastCall (sequence : Int := 1) : AppendCall := .append {
  eventType := "message"
  nodeId := "!sb_a"
  payload := [("message", .str "hello"), ("destination", .str "broadcast")]
  signature := "sig"
  sequence := sequence
  ephemeral := false
  publicKey := "key"
  publicKeyAlgo := "Ed25519"
  protocolVersion := ""
  timestampBucketS := 0 }

/-- A ledger of one message. -/
def messageLedger : Infonet :=
  ((Infonet.empty (callAt 1)).append plainEnv (callAt 1700000000) broadcastCall).1

theorem peerAgrees_broadcast : ∃ a' e,
    (Infonet.empty (callAt 1)).append (plainEnv true) (callAt 1700000000) broadcastCall =
      (a', .ok e) ∧
    PeerAgrees (plainEnv true) (callAt 1700000000) (.empty (callAt 1 7)) a' e := by
  have hrun : okAnd ((Infonet.empty (callAt 1)).append (plainEnv true) (callAt 1700000000)
      broadcastCall).2 (fun e => e.eventType ∈ allowedEventTypes &&
        okAnd (checkFresh (plainEnv true) (callAt 1700000000) e) fun _ => true) = true := by
    decide +kernel
  obtain ⟨e, hok, hcond⟩ := okAnd_iff.mp hrun
  simp only [Bool.and_eq_true, decide_eq_true_eq, okAnd_iff] at hcond
  obtain ⟨hallowed, _, hfresh, -⟩ := hcond
  have happend := eq_mk_of_snd hok
  have hsame : SameLedger (.empty (callAt 1)) (.empty (callAt 1 7)) :=
    ⟨rfl, rfl, rfl, rfl, rfl, rfl, rfl⟩
  refine ⟨_, e, happend, (peerAgrees_iff hsame happend).mpr
    ⟨hallowed, hfresh, by decide, rfl, ReplayFilter.not_seen_new _ (by simp [plainEnv])⟩⟩

/-- A coin transfer of the economy layer. -/
def coinTransferCall (sequence : Int := 1) : AppendCall := .append {
  eventType := "coin_transfer"
  nodeId := "!sb_a"
  payload := [("to", .str "!sb_b"), ("amount", .int 1)]
  signature := "sig"
  sequence := sequence
  ephemeral := false
  publicKey := "key"
  publicKeyAlgo := "Ed25519"
  protocolVersion := ""
  timestampBucketS := 0 }

/-- Peers refuse an economy event that `append` returned. -/
theorem not_peerAgrees_coinTransfer : ¬ ∀ (env : Env) (call : Call) (a b a' : Infonet)
    (c : AppendCall) (e : ChainEvent), SameLedger a b → a.append env call c = (a', .ok e) →
      PeerAgrees env call b a' e := by
  intro hclaim
  have hrun : okAnd ((Infonet.empty (callAt 1)).append (plainEnv true) (callAt 1700000000)
      coinTransferCall).2 (fun e => e.eventType ∉ allowedEventTypes) = true := by
    decide +kernel
  obtain ⟨e, hok, htype⟩ := okAnd_iff.mp hrun
  obtain ⟨b', r, hingest, haccepted, -⟩ := hclaim (plainEnv true) (callAt 1700000000)
    (.empty (callAt 1)) (.empty (callAt 1)) _ coinTransferCall e
    ⟨rfl, rfl, rfl, rfl, rfl, rfl, rfl⟩ (eq_mk_of_snd hok)
  have hsound := (ingestEvents_singleton_iff.mp ⟨b', r, hingest, haccepted⟩).1
  simp [hsound.allowed] at htype

end Vincent.Mesh
