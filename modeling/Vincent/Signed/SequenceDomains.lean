-- SUMMARY: The sequence and key binding in the preflight and the write.
import Vincent.Mesh.Reachable
import Vincent.Signed.WriteVerify

/-!
# Sequence domains

The ledger counts the gate messages and the direct messages of an author apart from
its public events. The preflight looks at the public counter for all of them.
-/

namespace Vincent.Signed

open Vincent.Python Vincent.Mesh Vincent.Check

/-! ## The two checks -/

/-- The part of the preflight that is about the sequence and the key binding: why it refuses. -/
def refusedSequence (net : Infonet) (e : SignedEvent) : Option String :=
  if e.sequence ≤ 0 then some "Missing or invalid sequence"
  else if e.sequence ≤ net.nodeSequences e.nodeId then
    some (s!"Replay detected: sequence {e.sequence} <= last " ++ s!"{net.nodeSequences e.nodeId}")
  else if net.publicKeyBindings e.publicKey ≠ "" ∧ net.publicKeyBindings e.publicKey ≠ e.nodeId then
    some s!"public key already bound to {net.publicKeyBindings e.publicKey}"
  else none

/-- The part that is about revocation. -/
def revocationVerdict (env : WriteEnv) (now : ℚ) (gate : WriteGate) (e : SignedEvent) :
    Option (Bool × String) :=
  if e.key = "" then some (e.verdict false)
  else ((gate.cache e.key).filter (CachedVerdict.usable env.revocation now)).map fun cached =>
    e.verdict cached.revoked

/-- The counter of `append_private_gate_message`, `append_private_dm_message`, or `append`. -/
def writeSlot (env : WriteEnv) (e : SignedEvent) : Option SequenceSlot :=
  if e.eventType = "gate_message" ∨ e.eventType = "dm_message" ∨
      e.eventType ∈ env.activeAppendEventTypes then
    some (sequenceTableForEvent env.rt e.eventType e.nodeId)
  else none

/-- The write path takes the sequence of the event, and binds its key. -/
def LedgerTakes (net : Infonet) (slot : SequenceSlot) (e : SignedEvent) : Prop :=
  checkAppendSequence net slot e.sequence = .ok () ∧
    ∃ net', net.bindPublicKey e.publicKey e.nodeId = .ok net'

/-- The key of the event belongs to another node. -/
def BoundElsewhere (net : Infonet) (e : SignedEvent) : Prop :=
  net.publicKeyBindings e.publicKey ≠ "" ∧ net.publicKeyBindings e.publicKey ≠ e.nodeId

section

variable {env : WriteEnv} {net : Infonet} {slot : SequenceSlot} {e : SignedEvent}

theorem refusedSequence_eq_none : refusedSequence net e = none ↔
    0 < e.sequence ∧ net.nodeSequences e.nodeId < e.sequence ∧ ¬ BoundElsewhere net e := by
  unfold refusedSequence BoundElsewhere
  split_ifs with hpositive hreplay hbound
  · exact ⟨fun h => (by cases h), fun h => absurd h.1 (not_lt.mpr hpositive)⟩
  · exact ⟨fun h => (by cases h), fun h => absurd h.2.1 (not_lt.mpr hreplay)⟩
  · exact ⟨fun h => (by cases h), fun h => absurd hbound h.2.2⟩
  · exact ⟨fun _ => ⟨not_le.mp hpositive, not_le.mp hreplay, hbound⟩, fun _ => rfl⟩

/-- The preflight of a complete event is about the sequence and the binding, and then about
revocation. -/
theorem precheck_eq (now : ℚ) (gate : WriteGate) (hversion : e.protocolVersion ≠ "")
    (hsignature : e.signature ≠ "") (hkey : e.publicKey ≠ "") (halgo : e.publicKeyAlgo ≠ "") :
    gate.precheck env.revocation now e =
      match refusedSequence gate.ledger e with
      | some detail => some (false, detail)
      | none => revocationVerdict env now gate e := by
  have hfields : ¬ (e.protocolVersion = "" ∨ e.signature = "" ∨ e.publicKey = "" ∨
      e.publicKeyAlgo = "") := by
    simp [hversion, hsignature, hkey, halgo]
  unfold WriteGate.precheck refusedSequence revocationVerdict
  rw [if_neg hfields]
  split_ifs <;> rfl

theorem ledgerTakes_iff (hkey : e.publicKey ≠ "") (hnode : e.nodeId ≠ "") :
    LedgerTakes net slot e ↔
      0 < e.sequence ∧ net.lastSequence slot < e.sequence ∧ ¬ BoundElsewhere net e := by
  have hbind : (∃ net', net.bindPublicKey e.publicKey e.nodeId = .ok net') ↔
      ¬ BoundElsewhere net e := by
    unfold Infonet.bindPublicKey BoundElsewhere
    rw [if_neg (by simp [hkey, hnode])]
    dsimp only
    split_ifs with hbound
    · exact ⟨fun ⟨_, h⟩ => (by cases h), fun h => absurd hbound h⟩
    · exact ⟨fun _ => hbound, fun _ => ⟨_, rfl⟩⟩
  unfold LedgerTakes
  rw [hbind]
  unfold checkAppendSequence
  simp only [bind_eq_ok, require_eq_ok, exists_const, and_assoc]

theorem refusedFields_of_verified {payload : Dict} {reason : String}
    (h : verifySignedEvent env e payload = .ok (true, reason)) : refusedFields env e = none := by
  unfold verifySignedEvent at h
  cases hrefused : refusedFields env e with
  | none => rfl
  | some detail =>
    rw [hrefused] at h
    cases h

theorem fields_of_verified {payload : Dict} {reason : String}
    (hverified : verifySignedEvent env e payload = .ok (true, reason)) :
    e.protocolVersion ≠ "" ∧ e.signature ≠ "" ∧ e.publicKey ≠ "" ∧ e.publicKeyAlgo ≠ "" ∧
      0 < e.sequence ∧ env.verifyNodeBinding e.nodeId e.publicKey = true := by
  have hfields := refusedFields_of_verified hverified
  unfold refusedFields at hfields
  split_ifs at hfields with hversion hother hmissing hsequence hbinding halgo
  simp only [not_or] at hmissing
  exact ⟨hversion, hmissing.1, hmissing.2.1, hmissing.2.2, not_le.mp hsequence, by simpa using hbinding⟩

/-- When the preflight and the write path agree on the sequence and the key binding. -/
theorem preflight_agrees_iff (hnoid : ∀ key, env.verifyNodeBinding "" key = false)
    (hnet : Reachable net) (gate : WriteGate) (hgate : gate.ledger = net) (now : ℚ)
    {payload : Dict} {reason : String}
    (hverified : verifySignedEvent env e payload = .ok (true, reason))
    (hslot : writeSlot env e = some slot) :
    (gate.precheck env.revocation now e =
        match refusedSequence net e with
        | some detail => some (false, detail)
        | none => revocationVerdict env now gate e) ∧
      ((refusedSequence net e = none ↔ LedgerTakes net slot e) ↔
        e.eventType ∈ env.activeAppendEventTypes ∨ BoundElsewhere net e ∨
          (net.nodeSequences e.nodeId < e.sequence ↔ net.lastSequence slot < e.sequence)) := by
  subst hgate
  obtain ⟨hversion, hsignature, hkey, halgo, hpositive, hbinding⟩ := fields_of_verified hverified
  have hnode : e.nodeId ≠ "" := by
    intro hempty
    rw [hempty, hnoid] at hbinding
    cases hbinding
  refine ⟨precheck_eq now gate hversion hsignature hkey halgo, ?_⟩
  have hpublic : e.eventType ∈ env.activeAppendEventTypes →
      gate.ledger.lastSequence slot = gate.ledger.nodeSequences e.nodeId := by
    intro hactive
    unfold writeSlot at hslot
    rw [if_pos (.inr (.inr hactive)), sequenceTableForEvent_active e.nodeId hactive] at hslot
    cases hslot
    rfl
  rw [refusedSequence_eq_none, ledgerTakes_iff hkey hnode]
  constructor
  · intro hagree
    by_cases hbound : BoundElsewhere gate.ledger e
    · exact .inr (.inl hbound)
    · refine .inr (.inr ⟨fun hnew => ?_, fun hnew => ?_⟩)
      · exact (hagree.mp ⟨hpositive, hnew, hbound⟩).2.1
      · exact (hagree.mpr ⟨hpositive, hnew, hbound⟩).2.1
  · rintro (hactive | hbound | hsame)
    · rw [hpublic hactive]
    · exact ⟨fun h => absurd hbound h.2.2, fun h => absurd hbound h.2.2⟩
    · rw [hsame]

/-- A node whose ids are not empty. -/
def namedEnv : WriteEnv where
  toEnv := { plainEnv with verifyNodeBinding := fun nodeId _ => nodeId != "" }
  revocationTtl := 300
  revocationEnforce := true
  legacyDmSignatureCompat := false
  legacyGateSignatureCompat := false

/-- The first gate message of a node. -/
def gateEvent (sequence : Int) : SignedEvent where
  eventType := "gate_message"
  nodeId := "!sb_a"
  sequence := sequence
  publicKey := "key"
  publicKeyAlgo := "Ed25519"
  signature := "sig"
  protocolVersion := protocolVersion

def gatePayload : Dict := [("gate", .str "finance"), ("ciphertext", .str "c2VhbGVk"),
  ("nonce", .str "bm9uY2U="), ("sender_ref", .str "ref")]

/-- A ledger with one public message of the node, at sequence five. -/
@[irreducible] def publicLedger : Infonet :=
  ((Infonet.load plainEnv ⟨some⟩ (callAt 1) (callAt 1) {}).1.append plainEnv (callAt 1700000000)
    (broadcastCall 5)).1

theorem publicLedger_reachable : Reachable publicLedger := by
  unfold publicLedger
  exact (Reachable.load plainEnv ⟨some⟩ (callAt 1) (callAt 1) {}).append plainEnv (callAt 1700000000)
    (broadcastCall 5)

theorem gateEvent_verified (n : Int) (hn : n = 1 ∨ n = 6) :
    verifySignedEvent namedEnv (gateEvent n) gatePayload = .ok (true, "ok") := by
  rcases hn with rfl | rfl <;> decide +kernel

def publicGate : WriteGate := { clock := 0, ledger := publicLedger }

theorem preflight_agrees_iff_later :
    (publicGate.precheck namedEnv.revocation 0 (gateEvent 6) =
        match refusedSequence publicLedger (gateEvent 6) with
        | some detail => some (false, detail)
        | none => revocationVerdict namedEnv 0 publicGate (gateEvent 6)) ∧
      ((refusedSequence publicLedger (gateEvent 6) = none ↔
          LedgerTakes publicLedger (.domain "!sb_a|gate_message") (gateEvent 6)) ↔
        (gateEvent 6).eventType ∈ namedEnv.activeAppendEventTypes ∨
          BoundElsewhere publicLedger (gateEvent 6) ∨
          (publicLedger.nodeSequences (gateEvent 6).nodeId < (gateEvent 6).sequence ↔
            publicLedger.lastSequence (.domain "!sb_a|gate_message") < (gateEvent 6).sequence)) :=
  preflight_agrees_iff (fun _ => rfl) publicLedger_reachable publicGate rfl 0
    (gateEvent_verified 6 (.inr rfl)) rfl

/-- The first gate message of a node with a public message at sequence five is refused. -/
theorem not_preflight_agrees : Reachable publicLedger ∧
    verifySignedEvent namedEnv (gateEvent 1) gatePayload = .ok (true, "ok") ∧
    writeSlot namedEnv (gateEvent 1) = some (.domain "!sb_a|gate_message") ∧
    LedgerTakes publicLedger (.domain "!sb_a|gate_message") (gateEvent 1) ∧
    refusedSequence publicLedger (gateEvent 1) ≠ none := by
  have hledger : publicLedger.nodeSequences "!sb_a" = 5 ∧
      publicLedger.sequenceDomains "!sb_a|gate_message" = 0 ∧
      publicLedger.publicKeyBindings "key" = "!sb_a" := by decide +kernel
  obtain ⟨hpublic, hdomain, hbound⟩ := hledger
  refine ⟨publicLedger_reachable, gateEvent_verified 1 (.inl rfl), rfl, ?_, ?_⟩
  · refine (ledgerTakes_iff (by decide) (by decide)).mpr ⟨by decide, ?_, fun h => ?_⟩
    · change publicLedger.sequenceDomains "!sb_a|gate_message" < 1
      rw [hdomain]
      decide
    · exact h.2 hbound
  · intro hnone
    have hnew : publicLedger.nodeSequences "!sb_a" < 1 := (refusedSequence_eq_none.mp hnone).2.1
    rw [hpublic] at hnew
    exact absurd hnew (by decide)

end

end Vincent.Signed
