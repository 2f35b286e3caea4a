-- SUMMARY: What a signature on a write authorises.
import Vincent.General.OrderedMap
import Vincent.Mesh.GateReplay
import Vincent.Python.JsonText
import Vincent.Signed.WriteVerify

/-!
# One meaning for a signature

A signature fits one text: the event type, the node, the sequence and the canonical
JSON of the normalized payload, which can be taken apart again. Most normalizers keep
the signed context, so the signature covers it too.
-/

namespace Vincent.Signed

open Vincent.Python Vincent.Mesh

/-- The event types whose normalizer keeps the signed context. -/
def contextTypes : List String :=
  ["message", "gate_message", "vote", "gate_create", "dm_key", "dm_message", "dm_poll", "dm_count",
    "dm_block", "dm_key_witness", "trust_vouch", "key_rotate", "key_revoke"]

/-- The event types whose normalizer leaves the signed context out. -/
def plainTypes : List String := ["prediction", "stake", "abuse_report", "sar_anomaly"]

/-- A write, and whether it goes through `verify_gate_message_signed_write`. -/
structure SignedWrite where
  event : SignedEvent
  payload : Dict
  viaGate : Bool
  replyTo : String := ""

def SignedWrite.eventType (w : SignedWrite) : String :=
  if w.viaGate then "gate_message" else w.event.eventType

/-- The event of the write under the type that is verified. -/
def SignedWrite.typed (w : SignedWrite) : SignedEvent := { w.event with eventType := w.eventType }

section Model

variable (env : WriteEnv)

/-- The write is accepted at some time, with some state of the write gate. -/
def Accepted (w : SignedWrite) : Prop :=
  w.eventType ∈ contextTypes ++ plainTypes ∧ ∃ now gate gate' reason,
    if w.viaGate then
      ∃ replyTo, verifyGateMessageSignedWrite env now w.event w.payload w.replyTo gate =
        .ok (gate', (true, reason), replyTo)
    else verifySignedWrite env now w.event w.payload gate = .ok (gate', true, reason)

/-- The payload that `verify_signed_event` is given. -/
def verifiedPayload (w : SignedWrite) : Except String Dict :=
  if w.viaGate then do
    let normalized ← normalizePayload env.rt "gate_message" w.payload
    return if w.replyTo = "" then normalized else Dict.set normalized "reply_to" (.str w.replyTo)
  else .ok w.payload

/-- The normalized payload in the text that the signature covers. -/
def signedPayload (w : SignedWrite) : Except String Dict := do
  let payload ← verifiedPayload env w
  let normalized ← normalizePayload env.rt w.eventType payload
  let normalized ← normalizePayload env.rt w.eventType normalized
  return if w.eventType = "gate_message" then Dict.pop normalized "gate_envelope" else normalized

/-- The writes have the same public key and signature. -/
def SameSignature (w w' : SignedWrite) : Prop :=
  w.event.publicKey = w'.event.publicKey ∧ w.event.signature = w'.event.signature

/-- The writes say the same, up to the order of keys in the payloads. -/
structure SameText (w w' : SignedWrite) : Prop where
  eventType : w.eventType = w'.eventType
  nodeId : w.event.nodeId = w'.event.nodeId
  sequence : w.event.sequence = w'.event.sequence
  payload : ∃ p p', signedPayload env w = .ok p ∧ signedPayload env w' = .ok p' ∧
    (PyVal.dict p).sorted = (PyVal.dict p').sorted

/-- The write carries a signed context, and it was accepted for the request. -/
def Carries (m : RequestMeaning) (w : SignedWrite) : Prop :=
  (∃ context, Dict.get w.payload signedContextField = .dict context) ∧
    ∃ reason, validateSignedContext env m w.payload = .ok (true, reason)

/-- The requests agree, in the spelling of a signed context. -/
structure SameMeaning (m m' : RequestMeaning) : Prop where
  kind : m.kind = m'.kind
  endpoint : m.endpoint = m'.endpoint
  sequenceDomain : m.sequenceDomain = m'.sequenceDomain
  laneFloor : env.rt.lower (strip m.laneFloor) = env.rt.lower (strip m'.laneFloor)
  gateId : (m.gateId = "" ↔ m'.gateId = "") ∧
    env.rt.lower (strip m.gateId) = env.rt.lower (strip m'.gateId)
  recipientId : (m.recipientId = "" ↔ m'.recipientId = "") ∧
    strip m.recipientId = strip m'.recipientId
  targetId : (m.targetId = "" ↔ m'.targetId = "") ∧ strip m.targetId = strip m'.targetId

/-- Ideal signatures, no overrides, node ids without a bar, `str.lower` and the texts of floats. -/
structure Ideal : Prop where
  binds : SignaturesBind env.toEnv
  dm : env.legacyDmSignatureCompat = false
  gate : env.legacyGateSignatureCompat = false
  nodeId : ∀ n k, env.verifyNodeBinding n k = true → '|' ∉ n.toList
  floats : FloatTexts env.rt
  lower : ∀ s, env.rt.lower (strip (env.rt.lower (strip s))) = env.rt.lower (strip s)

end Model

/-! ## What is verified -/

section

variable {env : WriteEnv} {w w' : SignedWrite} {e : SignedEvent} {payload : Dict}

/-- An event that is accepted without the overrides has a signature on its payload. -/
theorem verifySignedEvent_true (hdm : env.legacyDmSignatureCompat = false) {reason : String}
    (h : verifySignedEvent env e payload = .ok (true, reason)) :
    refusedFields env e = none ∧ ∃ normalized, normalizePayload env.rt e.eventType payload =
      .ok normalized ∧ signatureCovers env e normalized = .ok true := by
  unfold verifySignedEvent at h
  cases hrefused : refusedFields env e with
  | some detail =>
    rw [hrefused] at h
    cases h
  | none =>
    rw [hrefused] at h
    dsimp only at h
    obtain ⟨normalized, hnormalized, h⟩ := Check.bind_eq_ok.mp h
    obtain ⟨covers, hcovers, h⟩ := Check.bind_eq_ok.mp h
    refine ⟨rfl, normalized, hnormalized, ?_⟩
    cases covers with
    | true => exact hcovers
    | false =>
      simp only [Bool.false_eq_true, if_false, hdm, and_false] at h
      cases h

theorem afterSignature_true {now : ℚ} {gate gate' : WriteGate} {given reason : String} {ok : Bool}
    (h : (if ok = true then afterSignature env now e gate given else (gate, false, given)) =
      (gate', true, reason)) : ok = true := by
  cases ok with
  | true => rfl
  | false => cases h

theorem Accepted.verified (hideal : Ideal env) (h : Accepted env w) :
    ∃ payload reason, verifiedPayload env w = .ok payload ∧
      verifySignedEvent env w.typed payload = .ok (true, reason) := by
  obtain ⟨-, now, gate, gate', reason, h⟩ := h
  unfold verifiedPayload SignedWrite.typed SignedWrite.eventType
  cases hvia : w.viaGate with
  | false =>
    simp only [hvia, Bool.false_eq_true, if_false] at h ⊢
    unfold verifySignedWrite at h
    obtain ⟨⟨ok, given⟩, hverify, h⟩ := Check.bind_eq_ok.mp h
    obtain rfl := afterSignature_true (Check.pure_eq_ok.mp h)
    exact ⟨w.payload, given, rfl, hverify⟩
  | true =>
    simp only [hvia, if_true] at h ⊢
    obtain ⟨replyTo, h⟩ := h
    unfold verifyGateMessageSignedWrite at h
    obtain ⟨normalized, hnormalized, h⟩ := Check.bind_eq_ok.mp h
    obtain ⟨⟨ok, given, effective⟩, hfirst, h⟩ := Check.bind_eq_ok.mp h
    have hok : ok = true := by
      cases ok with
      | true => rfl
      | false => cases h
    subst hok
    unfold gateVariants at hfirst
    simp only [hideal.gate, Bool.false_eq_true, if_false, List.append_nil, firstAccepted] at hfirst
    obtain ⟨⟨ok, detail⟩, hverify, hfirst⟩ := Check.bind_eq_ok.mp hfirst
    cases ok with
    | false =>
      simp only [Bool.false_eq_true, if_false] at hfirst
      cases hfirst
    | true =>
      rw [hnormalized]
      exact ⟨_, detail, rfl, hverify⟩

theorem Accepted.covered (hideal : Ideal env) (h : Accepted env w) :
    ∃ p, signedPayload env w = .ok p ∧ refusedFields env w.typed = none ∧
      env.verifySignature w.event.publicKey (parsePublicKeyAlgo env.rt w.event.publicKeyAlgo)
        w.event.signature (String.intercalate "|" [protocolVersion, networkId, w.eventType,
          w.event.nodeId, toString w.event.sequence, canonicalJson env.rt p]) = true := by
  obtain ⟨payload, reason, hpayload, hverify⟩ := h.verified hideal
  obtain ⟨hfields, normalized, hnormalized, hcovers⟩ := verifySignedEvent_true hideal.dm hverify
  unfold signatureCovers buildSignaturePayload at hcovers
  obtain ⟨text, htext, hcovers⟩ := Check.bind_eq_ok.mp hcovers
  obtain ⟨twice, htwice, htext⟩ := Check.bind_eq_ok.mp htext
  obtain rfl := Check.pure_eq_ok.mp htext
  refine ⟨_, ?_, hfields, Check.pure_eq_ok.mp hcovers⟩
  unfold signedPayload
  rw [hpayload]
  simp only [Check.bind_eq_ok, Check.pure_eq_ok]
  exact ⟨payload, rfl, normalized, hnormalized, twice, htwice, rfl⟩

theorem refusedFields_nodeId (hideal : Ideal env) (h : refusedFields env e = none) :
    '|' ∉ e.nodeId.toList := by
  unfold refusedFields at h
  split_ifs at h with _ _ _ _ hbinding
  exact hideal.nodeId _ _ (by simpa using hbinding)

theorem bar_not_mem_toString (n : Int) : '|' ∉ (toString n).toList := by
  intro h
  rcases digits_int n '|' h with hdigit | hsign
  · exact absurd hdigit (by decide)
  · exact absurd hsign (by decide)

theorem bar_not_mem_eventType {t : String} (h : t ∈ contextTypes ++ plainTypes) :
    '|' ∉ t.toList := by
  have hall : ∀ t ∈ contextTypes ++ plainTypes, '|' ∉ t.toList := by decide +kernel
  exact hall t h

theorem takeWhile_bar {l r : List Char} (h : '|' ∉ l) :
    (l ++ '|' :: r).takeWhile (· ≠ '|') = l := by
  rw [List.takeWhile_append_of_pos, List.takeWhile_cons_of_neg, List.append_nil]
  · simp
  · intro ch hch
    exact decide_eq_true fun heq => h (heq ▸ hch)

theorem text_parts {t t' n n' json json' : String} {k k' : Int} (ht : '|' ∉ t.toList)
    (ht' : '|' ∉ t'.toList) (hn : '|' ∉ n.toList) (hn' : '|' ∉ n'.toList)
    (h : String.intercalate "|" [protocolVersion, networkId, t, n, toString k, json] =
      String.intercalate "|" [protocolVersion, networkId, t', n', toString k', json']) :
    t = t' ∧ n = n' ∧ k = k' ∧ json = json' := by
  have hlist := congrArg String.toList h
  simp only [String.toList_intercalate, List.map_cons, List.map_nil, List.intercalate_cons_cons,
    List.intercalate_singleton, List.append_cancel_left_eq] at hlist
  have hsplit : ∀ {l l' r r' : List Char}, '|' ∉ l → '|' ∉ l' →
      l ++ "|".toList ++ r = l' ++ "|".toList ++ r' → l = l' ∧ r = r' := by
    intro l l' r r' hl hl' heq
    have hbar : "|".toList = ['|'] := rfl
    rw [hbar, List.append_assoc, List.append_assoc, List.singleton_append,
      List.singleton_append] at heq
    have hfirst := congrArg (List.takeWhile (· ≠ '|')) heq
    rw [takeWhile_bar hl, takeWhile_bar hl'] at hfirst
    subst hfirst
    exact ⟨rfl, (List.cons.inj (List.append_cancel_left heq)).2⟩
  obtain ⟨htype, hlist⟩ := hsplit ht ht' hlist
  obtain ⟨hnode, hlist⟩ := hsplit hn hn' hlist
  obtain ⟨hsequence, hjson⟩ := hsplit (bar_not_mem_toString k) (bar_not_mem_toString k') hlist
  exact ⟨String.ext htype, String.ext hnode, 
    Int.repr_injective (toString_int k ▸ toString_int k' ▸ String.ext hsequence),
    String.ext hjson⟩

/-- Two accepted writes with the same key and signature say the same. -/
theorem sameText (hideal : Ideal env) (h : Accepted env w) (h' : Accepted env w')
    (hsame : SameSignature w w') : SameText env w w' := by
  obtain ⟨p, hp, hfields, hsigned⟩ := h.covered hideal
  obtain ⟨p', hp', hfields', hsigned'⟩ := h'.covered hideal
  rw [← hsame.2] at hsigned'
  obtain ⟨htype, hnode, hsequence, hjson⟩ := text_parts (bar_not_mem_eventType h.1)
    (bar_not_mem_eventType h'.1) (refusedFields_nodeId hideal hfields)
    (refusedFields_nodeId hideal hfields') (hideal.binds _ _ _ _ _ _ _ hsigned hsigned')
  exact ⟨htype, hnode, hsequence, p, p', hp, hp', PyVal.dumps_injective hideal.floats hjson⟩

end

/-! ## The signed context -/

section

variable {rt : Runtime}

theorem text_str {d : Dict} {k s : String} (h : List.lookup k d = some (.str s)) :
    Dict.text rt d k = s := by
  unfold Dict.text Dict.get PyVal.or
  rw [h, Option.getD_some]
  by_cases hs : s = ""
  · subst hs
    rfl
  · simp [PyVal.truthy, hs, PyVal.toStr]

theorem text_none {d : Dict} {k : String} (h : List.lookup k d = none) :
    Dict.text rt d k = "" := by
  unfold Dict.text Dict.get
  rw [h]
  rfl

theorem lookup_optText (k s : String) (d : Dict) (k' : String) :
    List.lookup k' (Protocol.optText k s ++ d) =
      if k' = k ∧ s ≠ "" then some (.str s) else List.lookup k' d := by
  unfold Protocol.optText
  by_cases hs : s = ""
  · simp [hs]
  · by_cases hk : k' = k
    · subst hk
      simp [hs]
    · have hne : (k' == k) = false := by simpa using hk
      simp [hs, hk, List.lookup, hne]

theorem lookup_optText_last (k s k' : String) : List.lookup k' (Protocol.optText k s) =
    if k' = k ∧ s ≠ "" then some (.str s) else none := by
  have h := lookup_optText k s [] k'
  rwa [List.append_nil] at h

/-- A normalized context, by its parts. -/
structure ContextParts where
  protocol : String
  version : Int
  eventType : String
  kind : String
  endpoint : String
  laneFloor : String
  sequenceDomain : String
  nodeId : String
  sequence : Int
  bodyHash : String
  gateId : String
  recipientId : String
  targetId : String

def ContextParts.dict (x : ContextParts) : Dict := [
    ("protocol", .str x.protocol),
    ("version", .int x.version),
    ("event_type", .str x.eventType),
    ("kind", .str x.kind),
    ("endpoint", .str x.endpoint),
    ("lane_floor", .str x.laneFloor),
    ("sequence_domain", .str x.sequenceDomain),
    ("node_id", .str x.nodeId),
    ("sequence", .int x.sequence),
    ("body_hash", .str x.bodyHash)]
    ++ Protocol.optText "gate_id" x.gateId
    ++ Protocol.optText "recipient_id" x.recipientId
    ++ Protocol.optText "target_id" x.targetId

/-- The parts are as normalizing leaves them. -/
structure ContextParts.Normal (rt : Runtime) (x : ContextParts) : Prop where
  laneFloor : rt.lower (strip x.laneFloor) = x.laneFloor
  bodyHash : rt.lower (strip x.bodyHash) = x.bodyHash
  gateId : rt.lower (strip x.gateId) = x.gateId
  recipientId : strip x.recipientId = x.recipientId
  targetId : strip x.targetId = x.targetId

/-- A normalized context is made of its parts, and another endpoint changes only that part. -/
theorem normalizeSignedContext_parts
    (hlower : ∀ s, rt.lower (strip (rt.lower (strip s))) = rt.lower (strip s))
    {value context : Dict} (h : Protocol.normalizeSignedContext rt (.dict value) = .ok context) :
    ∃ x : ContextParts, x.Normal rt ∧ context = x.dict ∧ ∀ endpoint,
      Protocol.normalizeSignedContext rt (.dict (Dict.set value "endpoint" (.str endpoint))) =
        .ok { x with endpoint }.dict := by
  unfold Protocol.normalizeSignedContext at h
  simp only [Check.bind_eq_ok, Check.pure_eq_ok] at h
  obtain ⟨version, hversion, sequence, hsequence, rfl⟩ := h
  have hint : ∀ {k : String} {v : PyVal}, Protocol.intField rt value k = .ok v → ∃ n, v = .int n := by
    intro k v hv
    unfold Protocol.intField at hv
    cases hsafe : safeInt rt (Dict.get value k (.int 0)) 0 with
    | error e =>
      rw [hsafe] at hv
      cases hv
    | ok n =>
      rw [hsafe] at hv
      exact ⟨n, (Except.ok.inj hv).symm⟩
  obtain ⟨version, rfl⟩ := hint hversion
  obtain ⟨sequence, rfl⟩ := hint hsequence
  refine ⟨⟨_, version, _, _, _, _, _, _, sequence, _, _, _, _⟩,
    ⟨hlower _, hlower _, hlower _, strip_strip _, strip_strip _⟩, rfl, fun endpoint => ?_⟩
  have htext : ∀ k, k ≠ "endpoint" →
      Dict.text rt (Dict.set value "endpoint" (.str endpoint)) k = Dict.text rt value k := by
    intro k hk
    unfold Dict.text
    rw [get_set_of_ne _ _ hk]
  have hnumber : ∀ k, k ≠ "endpoint" →
      Protocol.intField rt (Dict.set value "endpoint" (.str endpoint)) k =
        Protocol.intField rt value k := by
    intro k hk
    unfold Protocol.intField
    rw [get_set_of_ne _ _ hk]
  have hendpoint : Dict.text rt (Dict.set value "endpoint" (.str endpoint)) "endpoint" = endpoint :=
    text_str (Dict.lookup_set_self value "endpoint" (.str endpoint))
  unfold Protocol.normalizeSignedContext
  dsimp only
  rw [hnumber _ (by decide), hnumber _ (by decide), hversion, hsequence, hendpoint,
    htext "protocol" (by decide), htext "event_type" (by decide), htext "kind" (by decide),
    htext "lane_floor" (by decide), htext "sequence_domain" (by decide),
    htext "node_id" (by decide), htext "body_hash" (by decide), htext "gate_id" (by decide),
    htext "recipient_id" (by decide), htext "target_id" (by decide)]
  rfl

theorem text_optional {d : Dict} {k s : String}
    (h : List.lookup k d = if s ≠ "" then some (.str s) else none) : Dict.text rt d k = s := by
  by_cases hs : s = ""
  · rw [if_neg (not_not.mpr hs)] at h
    rw [text_none h, hs]
  · rw [if_pos hs] at h
    exact text_str h

theorem ContextParts.lookup_optional (x : ContextParts) :
    List.lookup "gate_id" x.dict = (if x.gateId ≠ "" then some (.str x.gateId) else none) ∧
    List.lookup "recipient_id" x.dict =
      (if x.recipientId ≠ "" then some (.str x.recipientId) else none) ∧
    List.lookup "target_id" x.dict =
      (if x.targetId ≠ "" then some (.str x.targetId) else none) := by
  unfold ContextParts.dict
  rw [List.append_assoc, List.append_assoc]
  refine ⟨?_, ?_, ?_⟩ <;>
    simp [List.lookup, lookup_optText, lookup_optText_last]

theorem ContextParts.normalize {x : ContextParts} (hx : x.Normal rt) :
    Protocol.normalizeSignedContext rt (.dict x.dict) = .ok x.dict := by
  obtain ⟨hgate, hrecipient, htarget⟩ := x.lookup_optional
  have htext : ∀ {k s : String}, List.lookup k x.dict = some (.str s) → Dict.text rt x.dict k = s :=
    text_str
  have hversion : Protocol.intField rt x.dict "version" = .ok (.int x.version) := rfl
  have hsequence : Protocol.intField rt x.dict "sequence" = .ok (.int x.sequence) := rfl
  unfold Protocol.normalizeSignedContext
  dsimp only
  rw [text_optional hgate, text_optional hrecipient, text_optional htarget, hx.gateId,
    hx.recipientId, hx.targetId, hversion, hsequence, @htext "protocol" x.protocol rfl,
    @htext "event_type" x.eventType rfl, @htext "kind" x.kind rfl,
    @htext "endpoint" x.endpoint rfl, @htext "lane_floor" x.laneFloor rfl,
    @htext "sequence_domain" x.sequenceDomain rfl, @htext "node_id" x.nodeId rfl,
    @htext "body_hash" x.bodyHash rfl, hx.laneFloor, hx.bodyHash]
  rfl

theorem ContextParts.dict_ne_nil (x : ContextParts) : x.dict.isEmpty = false := rfl

/-- A normalizer that reads a value first copies the context as the others do. -/
theorem copies_of_bind {α : Type} {x : Except String α} {fields : α → Dict} {payload result : Dict}
    (h : (x >>= fun a => Protocol.copySignedContext rt (fields a) payload) = .ok result) :
    ∃ fields, Protocol.copySignedContext rt fields payload = .ok result := by
  obtain ⟨a, _, hcopy⟩ := Check.bind_eq_ok.mp h
  exact ⟨fields a, hcopy⟩

/-- A normalizer that keeps the context copies it. -/
theorem normalizePayload_copies {t : String} (ht : t ∈ contextTypes) {payload result : Dict}
    (h : normalizePayload rt t payload = .ok result) :
    ∃ fields, Protocol.copySignedContext rt fields payload = .ok result := by
  simp only [contextTypes, List.mem_cons, List.not_mem_nil, or_false] at ht
  rcases ht with rfl | rfl | rfl | rfl | rfl | rfl | rfl | rfl | rfl | rfl | rfl | rfl | rfl
  · exact ⟨_, h⟩
  · exact copies_of_bind h
  · exact copies_of_bind h
  · exact ⟨_, h⟩
  · exact copies_of_bind h
  · exact copies_of_bind h
  · exact copies_of_bind h
  · exact copies_of_bind h
  · exact ⟨_, h⟩
  · exact copies_of_bind h
  · exact copies_of_bind h
  · exact copies_of_bind h
  · obtain ⟨_, _, h⟩ := Check.bind_eq_ok.mp h
    exact copies_of_bind h

/-- The one value under a key. -/
def OnlyAt (d : Dict) (k : String) (v : PyVal) : Prop :=
  List.lookup k d = some v ∧ ∀ v', (k, v') ∈ d → v' = v

theorem onlyAt_set (d : Dict) (k : String) (v : PyVal) : OnlyAt (Dict.set d k v) k v := by
  refine ⟨Dict.lookup_set_self d k v, fun v' hv' => ?_⟩
  unfold Dict.set at hv'
  split_ifs at hv' with hcontains
  · obtain ⟨kv, -, hkv⟩ := List.mem_map.mp hv'
    split_ifs at hkv with hkey
    · exact (Prod.mk.inj hkv).2.symm
    · rw [hkv] at hkey
      exact absurd (beq_self_eq_true k) hkey
  · rcases List.mem_append.mp hv' with hmem | hmem
    · have hsome := Dict.lookup_isSome.mpr ⟨v', hmem⟩
      exact absurd hsome (by simpa [Dict.contains] using hcontains)
    · exact (Prod.mk.inj (List.mem_singleton.mp hmem)).2

/-- Normalizing a payload once more keeps its context. -/
theorem normalizePayload_context {t : String} (ht : t ∈ contextTypes) {payload result : Dict}
    (h : normalizePayload rt t payload = .ok result) {context : Dict}
    (hcontext : Protocol.normalizeSignedContext rt (Dict.get payload signedContextField) =
      .ok context) (hne : context.isEmpty = false) :
    OnlyAt result signedContextField (.dict context) := by
  obtain ⟨fields, hcopy⟩ := normalizePayload_copies ht h
  unfold Protocol.copySignedContext at hcopy
  rw [hcontext] at hcopy
  obtain ⟨_, hsame, hcopy⟩ := Check.bind_eq_ok.mp hcopy
  obtain rfl := Except.ok.inj hsame
  rw [hne] at hcopy
  obtain rfl := Check.pure_eq_ok.mp hcopy
  exact onlyAt_set _ _ _

theorem onlyAt_pop {d : Dict} {k k' : String} {v : PyVal} (hne : k ≠ k') (h : OnlyAt d k v) :
    OnlyAt (Dict.pop d k') k v := by
  refine ⟨?_, fun v' hv' => h.2 v' (List.mem_filter.mp hv').1⟩
  have hlookup : List.lookup k (Dict.pop d k') = List.lookup k d := by
    have hfilter := @OrderedMap.lookup_filter_ne _ _ _ k' k d hne
    have hpop : Dict.pop d k' = d.filter fun kv => kv.1 ≠ k' := by
      unfold Dict.pop
      congr 1
      funext kv
      simp [bne, decide_not, beq_eq_decide]
    rw [hpop]
    exact hfilter
  rw [hlookup]
  exact h.1

theorem mem_of_lookup {d : Dict} {k : String} {v : PyVal} (h : List.lookup k d = some v) :
    (k, v) ∈ d := by
  obtain ⟨pre, post, rfl, -⟩ := List.lookup_eq_some_iff.mp h
  exact List.mem_append_right _ List.mem_cons_self

theorem ContextParts.distinct (x : ContextParts) : OrderedMap.Distinct x.dict := by
  unfold ContextParts.dict Protocol.optText OrderedMap.Distinct
  split_ifs <;> simp

theorem text_of_optional {k s t : String} {d : Dict} (h : List.lookup k d = some (.str s))
    (hd : List.lookup k d = if t ≠ "" then some (.str t) else none) : s = t := by
  rw [h] at hd
  split_ifs at hd
  exact PyVal.str.inj (Option.some.inj hd)

theorem ContextParts.text_of_mem {x : ContextParts} {k s : String}
    (h : (k, PyVal.str s) ∈ x.dict) :
    (k = "kind" → s = x.kind) ∧ (k = "endpoint" → s = x.endpoint) ∧
    (k = "sequence_domain" → s = x.sequenceDomain) ∧ (k = "lane_floor" → s = x.laneFloor) ∧
    (k = "gate_id" → s = x.gateId) ∧ (k = "recipient_id" → s = x.recipientId) ∧
    (k = "target_id" → s = x.targetId) := by
  have hlookup := x.distinct.mem_iff.mp h
  have hbase : ∀ {t : String}, List.lookup k x.dict = some (.str t) → s = t :=
    fun ht => PyVal.str.inj (Option.some.inj (hlookup.symm.trans ht))
  obtain ⟨hgate, hrecipient, htarget⟩ := x.lookup_optional
  refine ⟨?_, ?_, ?_, ?_, ?_, ?_, ?_⟩ <;> rintro rfl
  · exact hbase rfl
  · exact hbase rfl
  · exact hbase rfl
  · exact hbase rfl
  · exact text_of_optional hlookup hgate
  · exact text_of_optional hlookup hrecipient
  · exact text_of_optional hlookup htarget

/-- A part that is there in one of two contexts with the same sorted form is there in the other. -/
theorem part_of_sorted_eq {part : ContextParts → String} {k : String}
    (hlookup : ∀ x : ContextParts, List.lookup k x.dict =
      if part x ≠ "" then some (.str (part x)) else none)
    (htext : ∀ (x : ContextParts) s, (k, PyVal.str s) ∈ x.dict → s = part x) {x x' : ContextParts}
    (h : (PyVal.dict x.dict).sorted = (PyVal.dict x'.dict).sorted) : part x = part x' := by
  by_cases hx : part x = ""
  · by_cases hx' : part x' = ""
    · rw [hx, hx']
    · have hmem := mem_of_lookup ((hlookup x').trans (if_pos hx'))
      exact (htext x _ (str_mem_of_sorted_eq h.symm hmem)).symm
  · have hmem := mem_of_lookup ((hlookup x).trans (if_pos hx))
    exact htext x' _ (str_mem_of_sorted_eq h hmem)

/-- Contexts with the same sorted form have the same parts. -/
theorem ContextParts.of_sorted_eq {x x' : ContextParts}
    (h : (PyVal.dict x.dict).sorted = (PyVal.dict x'.dict).sorted) :
    x.kind = x'.kind ∧ x.endpoint = x'.endpoint ∧ x.sequenceDomain = x'.sequenceDomain ∧
    x.laneFloor = x'.laneFloor ∧ x.gateId = x'.gateId ∧ x.recipientId = x'.recipientId ∧
    x.targetId = x'.targetId := by
  have hmem : ∀ {k s : String}, List.lookup k x.dict = some (.str s) →
      (k, PyVal.str s) ∈ x'.dict := fun hlookup => str_mem_of_sorted_eq h (mem_of_lookup hlookup)
  have hkind : ("kind", PyVal.str x.kind) ∈ x'.dict := hmem rfl
  have hendpoint : ("endpoint", PyVal.str x.endpoint) ∈ x'.dict := hmem rfl
  have hdomain : ("sequence_domain", PyVal.str x.sequenceDomain) ∈ x'.dict := hmem rfl
  have hlane : ("lane_floor", PyVal.str x.laneFloor) ∈ x'.dict := hmem rfl
  refine ⟨(text_of_mem hkind).1 rfl, (text_of_mem hendpoint).2.1 rfl,
    (text_of_mem hdomain).2.2.1 rfl, (text_of_mem hlane).2.2.2.1 rfl, ?_, ?_, ?_⟩
  · exact part_of_sorted_eq (fun x => x.lookup_optional.1)
      (fun x s hs => (text_of_mem hs).2.2.2.2.1 rfl) h
  · exact part_of_sorted_eq (fun x => x.lookup_optional.2.1)
      (fun x s hs => (text_of_mem hs).2.2.2.2.2.1 rfl) h
  · exact part_of_sorted_eq (fun x => x.lookup_optional.2.2)
      (fun x s hs => (text_of_mem hs).2.2.2.2.2.2 rfl) h

end

/-! ## The expected context -/

section

variable {env : WriteEnv} {m : RequestMeaning} {x : ContextParts} {payload expected : Dict}

theorem length_optText (k s : String) :
    (Protocol.optText k s).length = if s = "" then 0 else 1 := by
  unfold Protocol.optText
  split_ifs <;> rfl

/-- The parts of a context that equals the expected one. -/
structure Expected (env : WriteEnv) (m : RequestMeaning) (x : ContextParts) : Prop where
  kind : x.kind = m.kind
  endpoint : x.endpoint = m.endpoint
  sequenceDomain : x.sequenceDomain = m.sequenceDomain
  laneFloor : x.laneFloor = env.rt.lower (strip m.laneFloor)
  gateId : if m.gateId = "" then x.gateId = "" else
    x.gateId ≠ "" ∧ x.gateId = env.rt.lower (strip m.gateId)
  recipientId : if m.recipientId = "" then x.recipientId = "" else
    x.recipientId ≠ "" ∧ x.recipientId = strip m.recipientId
  targetId : if m.targetId = "" then x.targetId = "" else
    x.targetId ≠ "" ∧ x.targetId = strip m.targetId

/-- `build_signed_context` with a hash. -/
def expectedContext (env : WriteEnv) (m : RequestMeaning) (bodyHash : String) : Dict := [
    ("protocol", .str "vincent_os"),
    ("version", .int 1),
    ("event_type", .str m.eventType),
    ("kind", .str m.kind),
    ("endpoint", .str m.endpoint),
    ("lane_floor", .str (env.rt.lower (strip m.laneFloor))),
    ("sequence_domain", .str m.sequenceDomain),
    ("node_id", .str m.nodeId),
    ("sequence", .int m.sequence),
    ("body_hash", .str bodyHash)]
    ++ (if m.gateId = "" then [] else [("gate_id", .str (env.rt.lower (strip m.gateId)))])
    ++ (if m.recipientId = "" then [] else [("recipient_id", .str (strip m.recipientId))])
    ++ (if m.targetId = "" then [] else [("target_id", .str (strip m.targetId))])

theorem buildSignedContext_eq_ok : buildSignedContext env m payload = .ok expected ↔
    ∃ bodyHash, payloadBodyHash env m.eventType payload = .ok bodyHash ∧
      expectedContext env m bodyHash = expected := by
  unfold buildSignedContext expectedContext
  simp only [Check.bind_eq_ok, Check.pure_eq_ok]

theorem lookup_expected (env : WriteEnv) (m : RequestMeaning) (bodyHash : String) :
    List.lookup "gate_id" (expectedContext env m bodyHash) =
      (if m.gateId = "" then none else some (.str (env.rt.lower (strip m.gateId)))) ∧
    List.lookup "recipient_id" (expectedContext env m bodyHash) =
      (if m.recipientId = "" then none else some (.str (strip m.recipientId))) ∧
    List.lookup "target_id" (expectedContext env m bodyHash) =
      (if m.targetId = "" then none else some (.str (strip m.targetId))) := by
  unfold expectedContext
  refine ⟨?_, ?_, ?_⟩ <;> split_ifs <;> simp [List.lookup]

theorem length_expected (env : WriteEnv) (m : RequestMeaning) (bodyHash : String) :
    (expectedContext env m bodyHash).length = 10 + (if m.gateId = "" then 0 else 1) +
      (if m.recipientId = "" then 0 else 1) + (if m.targetId = "" then 0 else 1) := by
  unfold expectedContext
  split_ifs <;> simp

theorem ContextParts.length_dict (x : ContextParts) :
    x.dict.length = 10 + (if x.gateId = "" then 0 else 1) +
      (if x.recipientId = "" then 0 else 1) + (if x.targetId = "" then 0 else 1) := by
  unfold ContextParts.dict
  simp only [List.length_append, length_optText, List.length_cons, List.length_nil]

/-- How many entries an optional part takes. -/
def taken (c : Prop) [Decidable c] : Nat := if c then 0 else 1

theorem taken_le {s t : String} {c : Prop} [Decidable c] (h : s ≠ "" → ¬ c ∧ s = t) :
    taken (s = "") ≤ taken c := by
  unfold taken
  split_ifs with hs hc hc
  · exact Nat.le_refl _
  · exact Nat.zero_le _
  · exact absurd hc (h hs).1
  · exact Nat.le_refl _

theorem part_of_taken {s t : String} {c : Prop} [Decidable c] (h : s ≠ "" → ¬ c ∧ s = t)
    (heq : taken (s = "") = taken c) : if c then s = "" else s ≠ "" ∧ s = t := by
  by_cases hs : s = ""
  · by_cases hc : c
    · rwa [if_pos hc]
    · simp [taken, hs, hc] at heq
  · obtain ⟨hc, hst⟩ := h hs
    rw [if_neg hc]
    exact ⟨hs, hst⟩

theorem part_of_lookup {d e : Dict} {k s t : String} {c : Prop} [Decidable c]
    (hstr : ∀ {k s : String}, List.lookup k d = some (.str s) → List.lookup k e = some (.str s))
    (hd : List.lookup k d = if s ≠ "" then some (.str s) else none)
    (he : List.lookup k e = if c then none else some (.str t)) (hs : s ≠ "") : ¬ c ∧ s = t := by
  rw [if_pos hs] at hd
  have hlookup := hstr hd
  rw [he] at hlookup
  split_ifs at hlookup with hc
  exact ⟨hc, (PyVal.str.inj (Option.some.inj hlookup)).symm⟩

theorem expected_of_eq {bodyHash : String}
    (h : Dict.eq x.dict (expectedContext env m bodyHash) = true) : Expected env m x := by
  have hstr : ∀ {k s : String}, List.lookup k x.dict = some (.str s) →
      List.lookup k (expectedContext env m bodyHash) = some (.str s) := by
    intro k s hlookup
    obtain ⟨w, hw, heq⟩ := Dict.exists_of_eq h hlookup
    rw [hw, PyVal.eq_str heq]
  obtain ⟨hgate, hrecipient, htarget⟩ := x.lookup_optional
  obtain ⟨hgate', hrecipient', htarget'⟩ := lookup_expected env m bodyHash
  have hg := part_of_lookup hstr hgate hgate'
  have hr := part_of_lookup hstr hrecipient hrecipient'
  have ht := part_of_lookup hstr htarget htarget'
  have hlength : 10 + taken (x.gateId = "") + taken (x.recipientId = "") +
      taken (x.targetId = "") = 10 + taken (m.gateId = "") + taken (m.recipientId = "") +
      taken (m.targetId = "") := by
    simp only [Dict.eq, Bool.and_eq_true, beq_iff_eq] at h
    exact x.length_dict.symm.trans (h.1.trans (length_expected env m bodyHash))
  have hgle := taken_le hg
  have hrle := taken_le hr
  have htle := taken_le ht
  have hbase : ∀ {k s t : String}, List.lookup k x.dict = some (.str s) →
      List.lookup k (expectedContext env m bodyHash) = some (.str t) → s = t := by
    intro k s t hx hexpected
    exact (PyVal.str.inj (Option.some.inj (hexpected.symm.trans (hstr hx)))).symm
  exact {
    kind := @hbase "kind" _ _ rfl rfl
    endpoint := @hbase "endpoint" _ _ rfl rfl
    sequenceDomain := @hbase "sequence_domain" _ _ rfl rfl
    laneFloor := @hbase "lane_floor" _ _ rfl rfl
    gateId := part_of_taken hg (by omega)
    recipientId := part_of_taken hr (by omega)
    targetId := part_of_taken ht (by omega) }

end

/-! ## What a signature authorises -/

section

variable {env : WriteEnv} {w w' : SignedWrite} {m m' : RequestMeaning}

/-- A verdict that accepts comes from a check that passed. -/
theorem of_verdict {p : Prop} [Decidable p] {s t reason : String}
    (h : (pure (if p then (true, s) else (false, t)) : Except String (Bool × String)) =
      .ok (true, reason)) : p := by
  by_contra hne
  rw [if_neg hne] at h
  cases h

theorem Carries.parts (hideal : Ideal env) (h : Carries env m w) : ∃ x : ContextParts,
    x.Normal env.rt ∧ Expected env m x ∧
    Protocol.normalizeSignedContext env.rt (Dict.get w.payload signedContextField) =
      .ok x.dict := by
  obtain ⟨⟨context, hcontext⟩, reason, hvalid⟩ := h
  unfold validateSignedContext at hvalid
  obtain ⟨supplied, hsupplied, hvalid⟩ := Check.bind_eq_ok.mp hvalid
  rw [hcontext] at hsupplied ⊢
  obtain ⟨x, hx, rfl, -⟩ := normalizeSignedContext_parts hideal.lower hsupplied
  rw [x.dict_ne_nil] at hvalid
  simp only [Bool.false_eq_true, if_false] at hvalid
  obtain ⟨expected, hexpected, hvalid⟩ := Check.bind_eq_ok.mp hvalid
  obtain ⟨bodyHash, -, rfl⟩ := buildSignedContext_eq_ok.mp hexpected
  have heq : Dict.eq x.dict (expectedContext env m bodyHash) = true := of_verdict hvalid
  exact ⟨x, hx, expected_of_eq heq, hsupplied⟩

theorem signedPayload_context (ht : w.eventType ∈ contextTypes) {x : ContextParts}
    (hx : x.Normal env.rt)
    (hcontext : Protocol.normalizeSignedContext env.rt (Dict.get w.payload signedContextField) =
      .ok x.dict) {p : Dict} (h : signedPayload env w = .ok p) :
    OnlyAt p signedContextField (.dict x.dict) := by
  unfold signedPayload at h
  obtain ⟨payload, hpayload, h⟩ := Check.bind_eq_ok.mp h
  obtain ⟨once, honce, h⟩ := Check.bind_eq_ok.mp h
  obtain ⟨twice, htwice, h⟩ := Check.bind_eq_ok.mp h
  obtain rfl := Check.pure_eq_ok.mp h
  have hkept : ∀ {d : Dict}, OnlyAt d signedContextField (.dict x.dict) →
      Protocol.normalizeSignedContext env.rt (Dict.get d signedContextField) = .ok x.dict := by
    intro d hd
    unfold Dict.get
    rw [hd.1, Option.getD_some]
    exact ContextParts.normalize hx
  have hgiven : Protocol.normalizeSignedContext env.rt (Dict.get payload signedContextField) =
      .ok x.dict := by
    unfold verifiedPayload at hpayload
    by_cases hvia : w.viaGate = true
    · rw [if_pos hvia] at hpayload
      obtain ⟨normalized, hnormalized, hpayload⟩ := Check.bind_eq_ok.mp hpayload
      obtain rfl := Check.pure_eq_ok.mp hpayload
      have hgate : OnlyAt normalized signedContextField (.dict x.dict) :=
        normalizePayload_context (by decide) hnormalized hcontext x.dict_ne_nil
      split_ifs
      · exact hkept hgate
      · rw [get_set_of_ne _ _ (by decide)]
        exact hkept hgate
    · rw [if_neg hvia] at hpayload
      exact Except.ok.inj hpayload ▸ hcontext
  have honly := normalizePayload_context ht honce hgiven x.dict_ne_nil
  have honly := normalizePayload_context ht htwice (hkept honly) x.dict_ne_nil
  split_ifs
  · exact onlyAt_pop (by decide) honly
  · exact honly

/-- Optional parts that agree in their spelling come from requests that agree. -/
theorem spelled_part {a b s t : String} {norm : String → String}
    (ha : if a = "" then s = "" else s ≠ "" ∧ s = norm a)
    (hb : if b = "" then t = "" else t ≠ "" ∧ t = norm b) (hst : s = t) :
    (a = "" ↔ b = "") ∧ norm a = norm b := by
  subst hst
  by_cases ha' : a = ""
  · rw [if_pos ha'] at ha
    by_cases hb' : b = ""
    · exact ⟨iff_of_true ha' hb', by rw [ha', hb']⟩
    · rw [if_neg hb'] at hb
      exact absurd ha hb.1
  · rw [if_neg ha'] at ha
    by_cases hb' : b = ""
    · rw [if_pos hb'] at hb
      exact absurd hb ha.1
    · rw [if_neg hb'] at hb
      exact ⟨iff_of_false ha' hb', ha.2.symm.trans hb.2⟩

/-- Where the normalizer keeps the context, the signature fits one request. -/
theorem sameMeaning (hideal : Ideal env) (ht : w.eventType ∈ contextTypes)
    (hw : Carries env m w) (hw' : Carries env m' w') (hsame : SameText env w w') :
    SameMeaning env m m' := by
  obtain ⟨x, hx, hexpected, hcontext⟩ := hw.parts hideal
  obtain ⟨x', hx', hexpected', hcontext'⟩ := hw'.parts hideal
  obtain ⟨p, p', hp, hp', hsorted⟩ := hsame.payload
  have honly := signedPayload_context ht hx hcontext hp
  have honly' := signedPayload_context (hsame.eventType ▸ ht) hx' hcontext' hp'
  obtain ⟨v, hv, hparts⟩ := mem_of_sorted_eq hsorted (mem_of_lookup honly.1)
  rw [honly'.2 v hv] at hparts
  obtain ⟨hkind, hendpoint, hdomain, hlane, hgate, hrecipient, htarget⟩ :=
    ContextParts.of_sorted_eq hparts
  exact {
    kind := hexpected.kind.symm.trans (hkind.trans hexpected'.kind)
    endpoint := hexpected.endpoint.symm.trans (hendpoint.trans hexpected'.endpoint)
    sequenceDomain :=
      hexpected.sequenceDomain.symm.trans (hdomain.trans hexpected'.sequenceDomain)
    laneFloor := hexpected.laneFloor.symm.trans (hlane.trans hexpected'.laneFloor)
    gateId := @spelled_part _ _ _ _ (fun s => env.rt.lower (strip s)) hexpected.gateId
      hexpected'.gateId hgate
    recipientId := spelled_part hexpected.recipientId hexpected'.recipientId hrecipient
    targetId := spelled_part hexpected.targetId hexpected'.targetId htarget }

/-- Setting a key does not matter to what is left without it. -/
theorem pop_set (d : Dict) (k : String) (v : PyVal) : Dict.pop (Dict.set d k v) k = Dict.pop d k := by
  unfold Dict.pop Dict.set
  split_ifs with hcontains
  · clear hcontains
    induction d with
    | nil => rfl
    | cons kv d ih =>
      by_cases hk : kv.1 = k
      · simp_all
      · simp_all
  · simp

/-- Objects that are equal stay so when the same value is set in both. -/
theorem eq_set {d e : Dict} {k : String} {v : PyVal} (hv : PyVal.eq v v = true)
    (hd : Dict.contains d k = true) (he : Dict.contains e k = true) (h : Dict.eq d e = true) :
    Dict.eq (Dict.set d k v) (Dict.set e k v) = true := by
  simp only [Dict.eq, Bool.and_eq_true, beq_iff_eq] at h ⊢
  obtain ⟨hlength, hitems⟩ := h
  refine ⟨by simp [Dict.set, hd, he, hlength], ?_⟩
  have hset : Dict.set d k v = d.map fun kv => if kv.1 == k then (k, v) else kv := if_pos hd
  rw [hset]
  clear hset hlength hd
  induction d with
  | nil => rfl
  | cons kv d ih =>
    simp only [PyVal.eqItems, Bool.and_eq_true] at hitems
    rw [List.map_cons]
    by_cases hk : kv.1 = k
    · rw [if_pos (beq_iff_eq.mpr hk)]
      simp only [PyVal.eqItems, Dict.lookup_set_self, Bool.and_eq_true]
      exact ⟨hv, ih hitems.2⟩
    · rw [if_neg (by simpa using hk)]
      simp only [PyVal.eqItems, Dict.lookup_set_of_ne v hk, Bool.and_eq_true]
      exact ⟨hitems.1, ih hitems.2⟩

/-- The write with a context for another endpoint. -/
def SignedWrite.redirected (w : SignedWrite) (context : Dict) (endpoint : String) : SignedWrite :=
  { w with
    payload := Dict.set w.payload signedContextField
      (.dict (Dict.set context "endpoint" (.str endpoint))) }

/-- A normalizer that leaves the context out does not read it. -/
theorem normalizePayload_plain {rt : Runtime} {t : String} (ht : t ∈ plainTypes) (payload : Dict)
    (v : PyVal) : normalizePayload rt t (Dict.set payload signedContextField v) =
      normalizePayload rt t payload := by
  have hget : ∀ k dflt, k ≠ signedContextField →
      Dict.get (Dict.set payload signedContextField v) k dflt = Dict.get payload k dflt :=
    fun k dflt hk => get_set_of_ne v dflt hk
  simp only [plainTypes, List.mem_cons, List.not_mem_nil, or_false] at ht
  rcases ht with rfl | rfl | rfl | rfl
  · change Except.ok (Protocol.normalizePredictionPayload rt _) =
      Except.ok (Protocol.normalizePredictionPayload rt _)
    unfold Protocol.normalizePredictionPayload Protocol.field
    simp (disch := decide) only [hget]
  · change Protocol.normalizeStakePayload rt _ = Protocol.normalizeStakePayload rt _
    unfold Protocol.normalizeStakePayload Protocol.intField Protocol.field
    simp (disch := decide) only [hget]
  · change Except.ok (Protocol.normalizeAbuseReportPayload rt _) =
      Except.ok (Protocol.normalizeAbuseReportPayload rt _)
    unfold Protocol.normalizeAbuseReportPayload Protocol.field
    simp (disch := decide) only [hget]
  · change Protocol.normalizeSarAnomalyPayload rt _ = Protocol.normalizeSarAnomalyPayload rt _
    unfold Protocol.normalizeSarAnomalyPayload Protocol.sarFloat Protocol.field
    simp (disch := decide) only [hget]

/-- Where the normalizer leaves the context out, the signature also fits the redirected write. -/
theorem redirected_accepted (hideal : Ideal env) (ht : w.eventType ∈ plainTypes)
    (h : Accepted env w) (context : Dict) (endpoint : String) :
    Accepted env (w.redirected context endpoint) := by
  obtain ⟨hknown, now, gate, gate', reason, h⟩ := h
  have hvia : w.viaGate = false := by
    by_contra hvia
    rw [SignedWrite.eventType, if_pos (eq_true_of_ne_false hvia)] at ht
    exact absurd ht (by decide)
  have htype : w.event.eventType ∈ plainTypes := by
    rw [SignedWrite.eventType, hvia] at ht
    exact ht
  refine ⟨hknown, now, gate, gate', reason, ?_⟩
  simp only [SignedWrite.redirected, hvia, Bool.false_eq_true, if_false] at h ⊢
  have hsame : ∀ v, verifySignedEvent env w.event (Dict.set w.payload signedContextField v) =
      verifySignedEvent env w.event w.payload := by
    intro v
    unfold verifySignedEvent
    simp only [normalizePayload_plain htype, hideal.dm, Bool.false_eq_true, and_false, if_false]
  unfold verifySignedWrite at h ⊢
  rw [hsame]
  exact h

theorem redirected_carries (hideal : Ideal env) (h : Carries env m w) (endpoint : String) :
    ∃ context, Carries env { m with endpoint } (w.redirected context endpoint) := by
  obtain ⟨⟨context, hcontext⟩, reason, hvalid⟩ := h
  have hget : Dict.get (w.redirected context endpoint).payload signedContextField =
      .dict (Dict.set context "endpoint" (.str endpoint)) := by
    unfold SignedWrite.redirected Dict.get
    rw [Dict.lookup_set_self, Option.getD_some]
  refine ⟨context, ⟨_, hget⟩, "signed_context_ok", ?_⟩
  unfold validateSignedContext at hvalid ⊢
  obtain ⟨supplied, hsupplied, hvalid⟩ := Check.bind_eq_ok.mp hvalid
  rw [hcontext] at hsupplied
  obtain ⟨x, -, rfl, hredirect⟩ := normalizeSignedContext_parts hideal.lower hsupplied
  rw [x.dict_ne_nil] at hvalid
  simp only [Bool.false_eq_true, if_false] at hvalid
  obtain ⟨expected, hexpected, hvalid⟩ := Check.bind_eq_ok.mp hvalid
  obtain ⟨bodyHash, hhash, rfl⟩ := buildSignedContext_eq_ok.mp hexpected
  have heq : Dict.eq x.dict (expectedContext env m bodyHash) = true := of_verdict hvalid
  have hbuilt : buildSignedContext env { m with endpoint } (w.redirected context endpoint).payload =
      .ok (expectedContext env { m with endpoint } bodyHash) := by
    refine buildSignedContext_eq_ok.mpr ⟨bodyHash, ?_, rfl⟩
    unfold payloadBodyHash SignedWrite.redirected at *
    rw [pop_set]
    exact hhash
  have hset : Dict.eq { x with endpoint }.dict (expectedContext env { m with endpoint } bodyHash) =
      true := by
    have hboth := @eq_set x.dict (expectedContext env m bodyHash) "endpoint" (.str endpoint)
      (by simp [PyVal.eq]) rfl rfl heq
    have hleft : Dict.set x.dict "endpoint" (.str endpoint) = { x with endpoint }.dict := by
      have hin : Dict.contains x.dict "endpoint" = true := rfl
      rw [Dict.set, if_pos hin]
      unfold ContextParts.dict Protocol.optText
      split_ifs <;> rfl
    have hright : Dict.set (expectedContext env m bodyHash) "endpoint" (.str endpoint) =
        expectedContext env { m with endpoint } bodyHash := by
      have hin : Dict.contains (expectedContext env m bodyHash) "endpoint" = true := rfl
      rw [Dict.set, if_pos hin]
      unfold expectedContext
      split_ifs <;> rfl
    rwa [hleft, hright] at hboth
  rw [hget, hredirect endpoint, hbuilt]
  simp only [Check.bind_eq_ok, Except.ok.injEq]
  refine ⟨_, rfl, ?_⟩
  rw [ContextParts.dict_ne_nil]
  simp only [Bool.false_eq_true, if_false, Check.bind_eq_ok, Except.ok.injEq]
  exact ⟨_, rfl, by rw [if_pos hset]; rfl⟩

/-- A signature authorises one text, and one request iff the normalizer keeps the signed context. -/
theorem signature_authorises_one (hideal : Ideal env) (h : Accepted env w) :
    (∀ w', Accepted env w' → SameSignature w w' → SameText env w w') ∧
    ∀ m, Carries env m w →
      ((∀ w' m', Accepted env w' → SameSignature w w' → Carries env m' w' →
          SameMeaning env m m') ↔
        w.eventType ∈ contextTypes) := by
  refine ⟨fun w' h' hsame => sameText hideal h h' hsame, fun m hm => ⟨fun hone => ?_,
    fun ht w' m' h' hsame hm' => sameMeaning hideal ht hm hm' (sameText hideal h h' hsame)⟩⟩
  rcases List.mem_append.mp h.1 with ht | ht
  · exact ht
  · obtain ⟨context, hcarries⟩ := redirected_carries hideal hm (m.endpoint ++ "/")
    have hsame := hone _ _ (redirected_accepted hideal ht h context (m.endpoint ++ "/")) ⟨rfl, rfl⟩
      hcarries
    have hlength := congrArg String.length hsame.endpoint
    simp at hlength

end

/-! ## A prediction -/

/-- A node where the signature of a text is the text, and a node id has no bar. -/
def textEnv : WriteEnv where
  toEnv := { textSignedEnv with verifyNodeBinding := fun n _ => !n.toList.contains '|' }
  revocationTtl := 0
  revocationEnforce := false
  legacyDmSignatureCompat := false
  legacyGateSignatureCompat := false

theorem textEnv_ideal : Ideal textEnv where
  binds := textSignedEnv_binds
  dm := rfl
  gate := rfl
  nodeId n k h := by simpa [textEnv] using h
  floats := floatTexts_ascii
  lower s := by
    change asciiRuntime.lower (strip (asciiRuntime.lower (strip s))) = asciiRuntime.lower (strip s)
    rw [strip_lower_ascii, strip_strip, lower_lower_ascii]

def predictionPayload : Dict :=
  [("market_title", .str "m"), ("side", .str "yes"), ("stake_amount", .int 1)]

def predictionMeaning : RequestMeaning where
  eventType := "prediction"
  kind := "oracle_predict"
  endpoint := "/api/mesh/oracle/predict"
  laneFloor := "private_strong"
  sequenceDomain := "prediction"
  nodeId := "ana"
  sequence := 1

/-- A signed prediction with the context of its request. -/
def prediction : SignedWrite where
  event := {
    eventType := "prediction"
    nodeId := "ana"
    sequence := 1
    publicKey := "key"
    publicKeyAlgo := "Ed25519"
    signature := match buildSignaturePayload asciiRuntime "prediction" "ana" 1 predictionPayload with
      | .ok text => text
      | .error exn => exn
    protocolVersion := protocolVersion }
  payload := match buildSignedContext textEnv predictionMeaning predictionPayload with
    | .ok context => predictionPayload ++ [(signedContextField, .dict context)]
    | .error _ => predictionPayload
  viaGate := false

theorem prediction_accepted : Accepted textEnv prediction := by
  have hok : Check.okAnd (verifySignedWrite textEnv 1 prediction.event prediction.payload
      { clock := 0, ledger := quietLedger }) (fun result => result.2.1) = true := by decide +kernel
  obtain ⟨⟨gate', ok, reason⟩, hverify, htrue⟩ := Check.okAnd_iff.mp hok
  obtain rfl : ok = true := htrue
  exact ⟨by decide, 1, _, gate', reason, hverify⟩

theorem prediction_carries : Carries textEnv predictionMeaning prediction := by
  have hok : Check.okAnd (validateSignedContext textEnv predictionMeaning prediction.payload)
      (fun result => result.1) = true := by decide +kernel
  obtain ⟨⟨ok, reason⟩, hvalid, htrue⟩ := Check.okAnd_iff.mp hok
  obtain rfl : ok = true := htrue
  exact ⟨⟨_, rfl⟩, reason, hvalid⟩

/-- The prediction is the only text under its signature, and not the only request. -/
theorem signature_authorises_one_sample :
    (∀ w, Accepted textEnv w → SameSignature prediction w → SameText textEnv prediction w) ∧
      ¬ ∀ w m, Accepted textEnv w → SameSignature prediction w → Carries textEnv m w →
        SameMeaning textEnv predictionMeaning m := by
  obtain ⟨htext, hmeaning⟩ := signature_authorises_one textEnv_ideal prediction_accepted
  refine ⟨htext, fun hone => ?_⟩
  exact absurd ((hmeaning predictionMeaning prediction_carries).mp hone) (by decide)

/-- Two predictions with one signature are accepted, with contexts that name other endpoints. -/
theorem not_signature_authorises_one : ∃ w w' m m', Accepted textEnv w ∧ Accepted textEnv w' ∧
    SameSignature w w' ∧ Carries textEnv m w ∧ Carries textEnv m' w' ∧ m.endpoint ≠ m'.endpoint := by
  obtain ⟨context, hcarries⟩ :=
    redirected_carries textEnv_ideal prediction_carries "/api/mesh/oracle/stake"
  exact ⟨prediction, _, predictionMeaning, _, prediction_accepted,
    redirected_accepted textEnv_ideal (by decide) prediction_accepted context _, ⟨rfl, rfl⟩,
    prediction_carries, hcarries, by decide⟩

end Vincent.Signed
