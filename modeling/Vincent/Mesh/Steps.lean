-- SUMMARY: The elementary changes of appends and batches, and the invariants that follow.
import Vincent.Mesh.Appended

/-!
# What a call does to the ledger

Every append and every batch of events, also one that fails or raises, is a
sequence of the elementary changes of `Advance`. An invariant of the ledger is
shown for those changes once, and holds after any call.
-/

namespace Vincent.Mesh

open Vincent.Python Vincent.Check Relation

/-- What a local append or `ingest_events` guarantees of an event, against the ledger that takes
it. -/
structure Accepted (env : Env) (call : Call) (net : Infonet) (e : ChainEvent) : Prop where
  known : e.eventType ∈ allowedEventTypes ++ infonetEconomyEventTypes
  eventId : e.eventId ≠ ""
  nodeId : e.nodeId ≠ ""
  publicKey : e.publicKey ≠ ""
  seq : e.seq env.rt = .ok (e.seqNum env.rt)
  sequencePos : 0 < e.seqNum env.rt
  sound : e.eventType ∈ allowedEventTypes → net.headHash ≠ "" → Sound env e
  linked : e.prevHash = net.headHash
  sequence : net.lastSequence (e.slot env.rt) < e.seqNum env.rt
  bindable : net.publicKeyBindings e.publicKey = "" ∨ net.publicKeyBindings e.publicKey = e.nodeId
  notRevoked : net.revoked call.now e.publicKey → e.eventType = "key_revoke"
  spool : e.eventType = "dm_message" → net.checkDmSpool env call.now e.payload e.nodeId = .ok ()
  hash : ChainEvent.hashMatches env call e = true

theorem Appended.accepted {env : Env} {call : Call} {net : Infonet} {p : Prepared}
    (h : Appended env call net p) : Accepted env call net p.event where
  known := h.type_mem
  eventId := h.eventId
  nodeId := h.nodeId
  publicKey := h.signed.2.1
  seq := by rw [h.seqNum_eq]; exact h.seq
  sequencePos := by rw [h.seqNum_eq]; exact h.sequencePos
  sound := h.sound
  linked := h.prevHash
  sequence := by rw [← h.slot, h.seqNum_eq]; exact h.sequence
  bindable := h.bindable
  notRevoked := h.notRevoked
  spool := h.spool
  hash := h.hash call

theorem Sound.accepted {env : Env} {call : Call} {net : Infonet} {e : ChainEvent}
    (hs : Sound env e) (ha : Admissible env call net e) : Accepted env call net e where
  known := List.mem_append_left _ hs.allowed
  eventId := hs.eventId
  nodeId := hs.nodeId
  publicKey := hs.signed.2.1
  seq := hs.sequence
  sequencePos := hs.sequencePos
  sound := fun _ _ => hs
  linked := ha.linked
  sequence := ha.sequence
  bindable := ha.bindable
  notRevoked := ha.notRevoked
  spool := ha.spool
  hash := ha.hash

/-- An elementary change of the ledger. -/
inductive Advance (env : Env) (call : Call) : Infonet → Infonet → Prop
  | commit {net : Infonet} {e : ChainEvent} (h : Accepted env call net e) :
    Advance env call net (net.commit env call e)
  | bind {net : Infonet} {key node : String}
    (hfree : net.publicKeyBindings key = "" ∨ net.publicKeyBindings key = node) :
    Advance env call net (net.setBinding key node)
  | rotate (net : Infonet) : Advance env call net (net.rotateFilter call)
  | invalidate (net : Infonet) : Advance env call net net.invalidateMerkleCache
  | save (net : Infonet) : Advance env call net net.save

/-- A sequence of elementary changes. -/
abbrev Advances (env : Env) (call : Call) : Infonet → Infonet → Prop :=
  ReflTransGen (Advance env call)

variable {env : Env} {call : Call}

theorem advances_of_bind {net net' : Infonet} {key node : String}
    (h : net.bindPublicKey key node = .ok net') : Advances env call net net' := by
  obtain ⟨-, -, hfree, rfl⟩ := Infonet.bindPublicKey_eq_ok.mp h
  exact .single (.bind hfree)

theorem advances_prepare (net : Infonet) (c : AppendCall) :
    Advances env call net (c.prepare env call net).1 := by
  unfold AppendCall.prepare
  split
  · exact .refl
  · split
    · exact .refl
    · rename_i hbind
      split <;> exact advances_of_bind hbind

/-- Any append is a sequence of elementary changes. -/
theorem advances_append (net : Infonet) (c : AppendCall) :
    Advances env call net (net.append env call c).1 := by
  have hprepare : Advances env call net (c.prepare env call net).1 := advances_prepare net c
  unfold Infonet.append
  split
  · rename_i hfail
    simpa [hfail] using hprepare
  · rename_i bound p hprep
    obtain ⟨happ, rfl⟩ := AppendCall.prepare_eq_ok hprep
    rw [happ.commitAppend]
    exact ((ReflTransGen.single (.commit happ.accepted)).tail (.invalidate _)).tail (.save _)

theorem advances_ingestEvent (net : Infonet) (prev : String) (e : ChainEvent) :
    Advances env call net (net.ingestEvent env call prev e).1 := by
  have hrotate : Advances env call net (net.rotateFilter call) := .single (.rotate net)
  unfold Infonet.ingestEvent
  cases hheader : ingestHeader env net e with
  | error skip => exact .refl
  | ok n =>
    cases hbody : ingestBody env call (net.rotateFilter call) prev e n with
    | error skip => simpa [hbody] using hrotate
    | ok _ =>
      have hprev : prev = (net.rotateFilter call).headHash := ingestBody_expected hbody
      obtain rfl : prev = net.headHash := hprev
      cases hbind : (net.rotateFilter call).bindPublicKey e.publicKey e.nodeId with
      | error reason => simpa [hbody, hbind] using hrotate
      | ok bound =>
        cases hbound : ingestBound env call e n with
        | error skip =>
          simpa [hbody, hbind, hbound] using hrotate.trans (advances_of_bind hbind)
        | ok _ =>
          -- every check has passed, so this is the accepting branch
          obtain ⟨hs, ha⟩ := Infonet.admissible_of_checks hheader hbody hbind hbound
          have hok := Infonet.ingestEvent_of_admissible hs ha
          unfold Infonet.ingestEvent at hok
          rw [hheader] at hok
          simp only at hok ⊢
          rw [hok]
          exact .single (.commit (hs.accepted ha))

theorem advances_ingestItem (net : Infonet) (prev : String) (item : WireItem) :
    Advances env call net (net.ingestItem env call prev item).1 := by
  cases item with
  | event e => exact advances_ingestEvent net prev e
  | notObject => exact .refl
  | illTyped _ bound fault =>
    cases bound with
    | none => exact .refl
    | some kn =>
      obtain ⟨key, node⟩ := kn
      unfold Infonet.ingestItem
      cases hbind : net.bindPublicKey key node with
      | error reason => simpa [hbind] using .refl
      | ok bound => simpa [hbind] using advances_of_bind hbind

theorem advances_ingestLoop (items : List WireItem) (idx : Nat) (prev : String)
    (result : IngestResult) (net : Infonet) :
    Advances env call net (Infonet.ingestLoop env call items idx prev result net).1 := by
  induction items generalizing idx prev result net with
  | nil => exact .refl
  | cons item items ih =>
    have hitem : Advances env call net (net.ingestItem env call prev item).1 :=
      advances_ingestItem net prev item
    unfold Infonet.ingestLoop
    split
    · rename_i hstep
      rw [hstep] at hitem
      exact hitem.trans (ih _ _ _ _)
    · rename_i hstep
      rw [hstep] at hitem
      split
      · exact hitem
      · exact hitem.trans (ih _ _ _ _)

theorem advances_ingestEvents (net : Infonet) (items : List WireItem) :
    Advances env call net (net.ingestEvents env call items).1 := by
  have hloop : Advances env call net
      (Infonet.ingestLoop env call items 0 net.headHash {} net).1 := advances_ingestLoop _ _ _ _ _
  unfold Infonet.ingestEvents
  split
  · rename_i heq
    simpa [heq] using hloop
  · rename_i heq
    rw [heq] at hloop
    split
    · exact (hloop.tail (.invalidate _)).tail (.save _)
    · exact hloop

end Vincent.Mesh
