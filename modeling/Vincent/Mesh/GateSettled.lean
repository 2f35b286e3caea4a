-- SUMMARY: What a second sanitization does to a stored gate event.
import Vincent.Mesh.GateFiles

/-!
# Settled events

The files hold sanitized events, and a reload sanitizes them again. An event is
settled when that changes nothing. A stamp of decrypted text reaches only the two
local keys of the payload, so the stamped event has a settled form too.
-/

namespace Vincent.Mesh

open Vincent.Python Vincent.Check

/-! ## Payloads -/

namespace Gate

/-- The keys that only this node writes. -/
def isLocal (k : String) : Bool := k == "_local_plaintext" || k == "_local_reply_to"

/-- The part of a payload that goes to peers. -/
def shared (payload : Dict) : Dict := payload.filter fun kv => !isLocal kv.1

/-- The two local keys of a payload, as the sanitizer leaves them. -/
def localItems (payload : Dict) : Dict :=
  localText payload "_local_plaintext" ++ localText payload "_local_reply_to"

theorem lookup_shared {d : Dict} {k : String} (h : isLocal k = false) :
    (shared d).lookup k = d.lookup k := by
  induction d with
  | nil => rfl
  | cons kv d ih =>
    obtain ⟨key, v⟩ := kv
    by_cases hk : k = key
    · subst hk
      simp [shared, h]
    · have hne : (k == key) = false := by simpa using hk
      unfold shared at ih ⊢
      cases hlocal : isLocal key with
      | true => simpa [List.filter_cons, hlocal, List.lookup_cons, hne] using ih
      | false => simpa [List.filter_cons, hlocal, List.lookup_cons, hne] using ih

theorem lookup_shared_local {d : Dict} {k : String} (h : isLocal k = true) :
    (shared d).lookup k = none := by
  rw [List.lookup_eq_none_iff]
  intro kv hkv
  have hshared := (List.mem_filter.mp hkv).2
  by_contra heq
  obtain rfl : k = kv.1 := by simpa using heq
  simp [h] at hshared

theorem lookup_localText_of_ne {d : Dict} {k k' : String} (h : k' ≠ k) :
    (localText d k).lookup k' = none := by
  have hne : (k' == k) = false := by simpa using h
  unfold localText
  split
  · split
    · rfl
    · simp [List.lookup_cons, hne]
  · rfl

/-- The value of a local key, if it is a text that is not empty. -/
def localValue (payload : Dict) (k : String) : Option PyVal := (localText payload k).lookup k

theorem localText_congr {d d' : Dict} {k : String} (h : d.lookup k = d'.lookup k) :
    localText d k = localText d' k := by
  simp only [localText, Dict.get, h]

theorem isLocal_iff {k : String} :
    isLocal k = true ↔ k = "_local_plaintext" ∨ k = "_local_reply_to" := by
  simp [isLocal]

theorem shared_append (d d' : Dict) : shared (d ++ d') = shared d ++ shared d' :=
  List.filter_append ..

theorem shared_optText {k : String} (s : String) (h : isLocal k = false) :
    shared (Protocol.optText k s) = Protocol.optText k s := by
  unfold Protocol.optText
  split
  · rfl
  · simp [shared, h]

theorem shared_localText (d : Dict) {k : String} (h : isLocal k = true) :
    shared (localText d k) = [] := by
  unfold localText
  split
  · split
    · rfl
    · simp [shared, h]
  · rfl

theorem lookup_localItems_plaintext (d : Dict) :
    (localItems d).lookup "_local_plaintext" = localValue d "_local_plaintext" := by
  rw [localItems, List.lookup_append,
    @lookup_localText_of_ne d "_local_reply_to" "_local_plaintext" (by decide), Option.or_none]
  rfl

theorem lookup_localItems_replyTo (d : Dict) :
    (localItems d).lookup "_local_reply_to" = localValue d "_local_reply_to" := by
  rw [localItems, List.lookup_append,
    @lookup_localText_of_ne d "_local_plaintext" "_local_reply_to" (by decide), Option.none_or]
  rfl

theorem lookup_localItems_of_not (d : Dict) {k : String} (h : isLocal k = false) :
    (localItems d).lookup k = none := by
  simp only [isLocal, Bool.or_eq_false_iff, beq_eq_false_iff_ne] at h
  rw [localItems, List.lookup_append, lookup_localText_of_ne h.1, lookup_localText_of_ne h.2]
  rfl

end Gate

/-! ## Sanitizing again -/

namespace GateEvent

/-- The events are equal, as dictionaries of which the order does not matter. -/
structure Same (e c : GateEvent) : Prop where
  eventId : e.eventId = c.eventId
  nodeId : e.nodeId = c.nodeId
  timestamp : e.timestamp = c.timestamp
  sequence : e.sequence = c.sequence
  signature : e.signature = c.signature
  publicKey : e.publicKey = c.publicKey
  publicKeyAlgo : e.publicKeyAlgo = c.publicKeyAlgo
  protocolVersion : e.protocolVersion = c.protocolVersion
  payload : ∀ k, e.payload.lookup k = c.payload.lookup k

theorem Same.refl (e : GateEvent) : e.Same e :=
  ⟨rfl, rfl, rfl, rfl, rfl, rfl, rfl, rfl, fun _ => rfl⟩

section
variable {env : Env} {gateId : String} {e c : GateEvent}

/-- The sanitizer reads the payload key by key, and rewrites the local keys. -/
theorem clean_relabel (h : e.clean env gateId = .ok c) {payload : Dict}
    (hpayload : ∀ k, Gate.isLocal k = false → payload.lookup k = e.payload.lookup k) :
    GateEvent.clean env gateId { e with payload } =
      .ok { c with payload := Gate.shared c.payload ++ Gate.localItems payload } := by
  have hget : ∀ k dflt, Gate.isLocal k = false →
      Dict.get payload k dflt = Dict.get e.payload k dflt := by
    intro k dflt hk
    rw [Dict.get, Dict.get, hpayload k hk]
  have htext : ∀ k, Gate.isLocal k = false →
      Dict.text env.rt payload k = Dict.text env.rt e.payload k := by
    intro k hk
    rw [Dict.text, Dict.text, hget k _ hk]
  unfold GateEvent.clean Gate.sanitize at h ⊢
  simp only [bind_eq_ok, pure_eq_ok] at h ⊢
  obtain ⟨timestamp, htimestamp, sequence, hsequence, epoch, hepoch, rfl⟩ := h
  refine ⟨timestamp, htimestamp, sequence, hsequence, epoch, ?_, ?_⟩
  · rw [← hepoch]
    exact congrArg (fun v => safeInt env.rt (v.or (.int 0)) 0) (hget "epoch" (.int 0) rfl)
  · have hpayloadOf : Gate.payloadOf (GateEvent.toDict { e with payload }) = payload := rfl
    have hpayloadOf' : Gate.payloadOf e.toDict = e.payload := rfl
    simp only [GateEvent.mk.injEq]
    refine ⟨rfl, rfl, trivial, trivial, rfl, rfl, rfl, rfl, ?_⟩
    have hepochs : Gate.shared (if 0 < epoch then [("epoch", .int epoch)] else []) =
        if 0 < epoch then [("epoch", PyVal.int epoch)] else [] := by
      split
      · rfl
      · rfl
    simp (disch := decide) only [hpayloadOf, hpayloadOf', Gate.shared_append, Gate.shared_optText,
      Gate.shared_localText, hepochs, htext, hget, Gate.localItems, List.append_assoc,
      List.nil_append]
    rfl

end

end GateEvent

/-! ## Settled events -/

/-- The event is as the files of its gate hold it, and sanitizing it again changes nothing. -/
structure Settled (env : Env) (gateId : String) (e : GateEvent) : Prop where
  key : Gate.gateKey env.rt gateId = gateId
  gate : gateId ≠ ""
  eventId : strip e.eventId ≠ ""
  clean : e.clean env gateId = .ok e

/-- `build_gate_replay_fingerprint` of the stored form. -/
def storedFingerprint (env : Env) (gateId : String) (e : GateEvent) : String :=
  Gate.replayFingerprint env gateId e.timestamp e.payload

/-- The two events differ in their ids and in their fingerprints. -/
def Apart (env : Env) (gateId : String) (e : GateEvent) (gateId' : String) (e' : GateEvent) : Prop :=
  e.eventId ≠ e'.eventId ∧ storedFingerprint env gateId e ≠ storedFingerprint env gateId' e'

theorem Apart.symm {env : Env} {gateId gateId' : String} {e e' : GateEvent}
    (h : Apart env gateId e gateId' e') : Apart env gateId' e' gateId e :=
  ⟨h.1.symm, h.2.symm⟩

section
variable {env : Env} {gateId : String} {e c : GateEvent}

theorem storedFingerprint_congr (htimestamp : e.timestamp = c.timestamp)
    (hpayload : ∀ k, Gate.isLocal k = false → e.payload.lookup k = c.payload.lookup k) :
    storedFingerprint env gateId e = storedFingerprint env gateId c := by
  have htext : ∀ k, Gate.isLocal k = false →
      Dict.text env.rt e.payload k = Dict.text env.rt c.payload k := by
    intro k hk
    rw [Dict.text, Dict.text, Dict.get, Dict.get, hpayload k hk]
  unfold storedFingerprint Gate.replayFingerprint
  rw [htimestamp, htext "ciphertext" rfl, htext "nonce" rfl, htext "format" rfl]

theorem GateEvent.Same.storedFingerprint (h : e.Same c) :
    Mesh.storedFingerprint env gateId e = Mesh.storedFingerprint env gateId c :=
  storedFingerprint_congr h.timestamp fun k _ => h.payload k

namespace Settled

/-- A settled payload is its shared part and then the local keys. -/
theorem payload (h : Settled env gateId c) :
    c.payload = Gate.shared c.payload ++ Gate.localItems c.payload := by
  have hclean := @GateEvent.clean_relabel env gateId c c h.clean c.payload fun _ _ => rfl
  exact congrArg GateEvent.payload (Except.ok.inj (h.clean.symm.trans hclean))

theorem lookup_local (h : Settled env gateId c) {k : String} (hk : Gate.isLocal k = true) :
    c.payload.lookup k = Gate.localValue c.payload k := by
  have hlookup : c.payload.lookup k = (Gate.localItems c.payload).lookup k := by
    conv_lhs => rw [h.payload]
    rw [List.lookup_append, Gate.lookup_shared_local hk, Option.none_or]
  rcases Gate.isLocal_iff.mp hk with rfl | rfl
  · exact hlookup.trans (Gate.lookup_localItems_plaintext _)
  · exact hlookup.trans (Gate.lookup_localItems_replyTo _)

/-- A settled event lies in the gate that its payload names. -/
theorem text_gate (h : Settled env gateId c) : Dict.text env.rt c.payload "gate" = gateId := by
  have hclean := h.clean
  unfold GateEvent.clean Gate.sanitize at hclean
  simp only [bind_eq_ok, pure_eq_ok] at hclean
  obtain ⟨_, -, _, -, _, -, heq⟩ := hclean
  rw [← heq]
  simp only [List.cons_append, Dict.text, Dict.get, List.lookup_cons_self, Option.getD_some, h.key,
    PyVal.or, PyVal.truthy]
  split
  · rfl
  · rename_i hgate
    exact absurd h.gate (by simpa using hgate)

/-- Other texts under the local keys leave an event that has a settled form. -/
theorem relabel (h : Settled env gateId c) {payload : Dict}
    (hshared : ∀ k, Gate.isLocal k = false → payload.lookup k = c.payload.lookup k)
    (hlocal : ∀ k, Gate.isLocal k = true → payload.lookup k = Gate.localValue payload k) :
    ∃ c', GateEvent.clean env gateId { c with payload } = .ok c' ∧ Settled env gateId c' ∧
      GateEvent.Same { c with payload } c' := by
  have hclean := GateEvent.clean_relabel h.clean hshared
  have hlookup : ∀ k, (Gate.shared c.payload ++ Gate.localItems payload).lookup k = payload.lookup k := by
    intro k
    rw [List.lookup_append]
    cases hk : Gate.isLocal k with
    | false =>
      rw [Gate.lookup_shared hk, Gate.lookup_localItems_of_not _ hk, Option.or_none, hshared k hk]
    | true =>
      rw [Gate.lookup_shared_local hk, Option.none_or, hlocal k hk]
      rcases Gate.isLocal_iff.mp hk with rfl | rfl
      · exact Gate.lookup_localItems_plaintext _
      · exact Gate.lookup_localItems_replyTo _
  refine ⟨_, hclean, ⟨h.key, h.gate, h.eventId, ?_⟩, ⟨rfl, rfl, rfl, rfl, rfl, rfl, rfl, rfl,
    fun k => (hlookup k).symm⟩⟩
  -- the second time, the sanitizer reads the same values again
  have hagain := @GateEvent.clean_relabel env gateId c c h.clean
    (Gate.shared c.payload ++ Gate.localItems payload) fun k hk => (hlookup k).trans (hshared k hk)
  refine hagain.trans ?_
  have hitems : Gate.localItems (Gate.shared c.payload ++ Gate.localItems payload) =
      Gate.localItems payload := by
    unfold Gate.localItems
    congr 1
    · exact Gate.localText_congr (hlookup "_local_plaintext")
    · exact Gate.localText_congr (hlookup "_local_reply_to")
  rw [hitems]

theorem clean_same (h : Settled env gateId c) (hsame : e.Same c) : e.clean env gateId = .ok c := by
  have hclean := @GateEvent.clean_relabel env gateId c c h.clean e.payload
    fun k _ => hsame.payload k
  have hitems : Gate.localItems e.payload = Gate.localItems c.payload := by
    unfold Gate.localItems
    congr 1
    · exact Gate.localText_congr (hsame.payload _)
    · exact Gate.localText_congr (hsame.payload _)
  rw [hitems, ← h.payload] at hclean
  obtain ⟨h1, h2, h3, h4, h5, h6, h7, h8, -⟩ := hsame
  cases e
  cases c
  simp only at h1 h2 h3 h4 h5 h6 h7 h8
  subst h1 h2 h3 h4 h5 h6 h7 h8
  exact hclean

end Settled

/-! ## Stamps -/

theorem GateEvent.stamp_lookup_shared (e : GateEvent) (plaintext replyTo : String) {k : String}
    (hk : Gate.isLocal k = false) :
    (e.stamp plaintext replyTo).payload.lookup k = e.payload.lookup k := by
  simp only [Gate.isLocal, Bool.or_eq_false_iff, beq_eq_false_iff_ne] at hk
  unfold GateEvent.stamp
  simp only
  split
  · exact Dict.lookup_set_of_ne _ hk.1
  · rw [Dict.lookup_set_of_ne _ hk.2, Dict.lookup_set_of_ne _ hk.1]

theorem GateEvent.stamp_lookup_plaintext (e : GateEvent) (plaintext replyTo : String) :
    (e.stamp plaintext replyTo).payload.lookup "_local_plaintext" = some (.str plaintext) := by
  unfold GateEvent.stamp
  simp only
  split
  · exact Dict.lookup_set_self _ _ _
  · rw [Dict.lookup_set_of_ne _ (by decide), Dict.lookup_set_self]

theorem GateEvent.stamp_lookup_replyTo (e : GateEvent) (plaintext replyTo : String) :
    (e.stamp plaintext replyTo).payload.lookup "_local_reply_to" =
      if replyTo = "" then e.payload.lookup "_local_reply_to" else some (.str replyTo) := by
  unfold GateEvent.stamp
  simp only
  split
  · exact Dict.lookup_set_of_ne _ (by decide)
  · exact Dict.lookup_set_self _ _ _

theorem Gate.localValue_of_str {d : Dict} {k s : String} (h : d.lookup k = some (.str s)) (hs : s ≠ "") :
    Gate.localValue d k = some (.str s) := by
  simp [localValue, localText, Dict.get, h, hs]

theorem Gate.localValue_congr {d d' : Dict} {k : String} (h : d.lookup k = d'.lookup k) :
    Gate.localValue d k = Gate.localValue d' k := by
  rw [localValue, localValue, localText_congr h]

/-- A stamped event has a settled form. It is the stamped event, and keeps the fingerprint. -/
theorem Settled.stamp (h : Settled env gateId c) (hsame : e.Same c) {plaintext : String}
    (hplaintext : plaintext ≠ "") (replyTo : String) :
    ∃ c', (e.stamp plaintext replyTo).clean env gateId = .ok c' ∧ Settled env gateId c' ∧
      (e.stamp plaintext replyTo).Same c' ∧ c'.eventId = c.eventId ∧
      storedFingerprint env gateId c' = storedFingerprint env gateId c := by
  have hshared : ∀ k, Gate.isLocal k = false →
      (e.stamp plaintext replyTo).payload.lookup k = c.payload.lookup k :=
    fun k hk => (e.stamp_lookup_shared _ _ hk).trans (hsame.payload k)
  have hlocal : ∀ k, Gate.isLocal k = true → (e.stamp plaintext replyTo).payload.lookup k =
      Gate.localValue (e.stamp plaintext replyTo).payload k := by
    intro k hk
    rcases Gate.isLocal_iff.mp hk with rfl | rfl
    · have hlookup := e.stamp_lookup_plaintext plaintext replyTo
      rw [hlookup, Gate.localValue_of_str hlookup hplaintext]
    · have hlookup := e.stamp_lookup_replyTo plaintext replyTo
      by_cases hreply : replyTo = ""
      · rw [if_pos hreply, hsame.payload] at hlookup
        rw [hlookup, h.lookup_local hk, Gate.localValue_congr hlookup]
      · rw [if_neg hreply] at hlookup
        rw [hlookup, Gate.localValue_of_str hlookup hreply]
  obtain ⟨c', hclean, hsettled, hsame'⟩ := h.relabel hshared hlocal
  have heq : e.stamp plaintext replyTo = { c with payload := (e.stamp plaintext replyTo).payload } := by
    obtain ⟨h1, h2, h3, h4, h5, h6, h7, h8, -⟩ := hsame
    simp only [GateEvent.stamp, h1, h2, h3, h4, h5, h6, h7, h8]
  rw [← heq] at hclean hsame'
  refine ⟨c', hclean, hsettled, hsame', ?_, ?_⟩
  · exact hsame'.eventId.symm.trans hsame.eventId
  · refine (storedFingerprint_congr ?_ fun k hk => ?_)
    · exact hsame'.timestamp.symm.trans hsame.timestamp
    · rw [← hsame'.payload, hshared k hk]

theorem GateEvent.stampIf_eventId (e : GateEvent) (id plaintext replyTo : String) :
    (e.stampIf id plaintext replyTo).eventId = e.eventId := by
  unfold GateEvent.stampIf
  split
  · rfl
  · rfl

theorem GateEvent.stampIf_storedFingerprint (e : GateEvent) (id plaintext replyTo : String) :
    Mesh.storedFingerprint env gateId (e.stampIf id plaintext replyTo) =
      Mesh.storedFingerprint env gateId e := by
  unfold GateEvent.stampIf
  split
  · exact storedFingerprint_congr rfl fun k hk => e.stamp_lookup_shared plaintext replyTo hk
  · rfl

/-- The settled form of an event that a stamp may have reached. -/
theorem Settled.stampIf (h : Settled env gateId c) (hsame : e.Same c) (id : String)
    {plaintext : String} (hplaintext : plaintext ≠ "") (replyTo : String) :
    ∃ c', (e.stampIf id plaintext replyTo).clean env gateId = .ok c' ∧ Settled env gateId c' ∧
      (e.stampIf id plaintext replyTo).Same c' ∧ c'.eventId = c.eventId ∧
      Mesh.storedFingerprint env gateId c' = Mesh.storedFingerprint env gateId c := by
  unfold GateEvent.stampIf
  split
  · exact h.stamp hsame hplaintext replyTo
  · exact ⟨c, h.clean_same hsame, h, hsame, rfl, rfl⟩

theorem GateEvent.isStamped_stamp (e : GateEvent) {plaintext : String} (h : plaintext ≠ "")
    (replyTo : String) : (e.stamp plaintext replyTo).isStamped = true := by
  simp [isStamped, Dict.get, e.stamp_lookup_plaintext, PyVal.truthy, h]

theorem GateEvent.Same.isStamped (h : e.Same c) : e.isStamped = c.isStamped := by
  simp only [GateEvent.isStamped, Dict.get, h.payload]

end

end Vincent.Mesh
