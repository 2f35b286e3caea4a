-- SUMMARY: What a rebuild of the tables leaves.
import Vincent.Mesh.Admission
import Vincent.Mesh.Fork

/-!
# Rebuilt tables

`_rebuild_state` recomputes the tables from the events. The lemmas here say what
it leaves alone, whether or not it raises, and what each table is when it does not.
-/

namespace Vincent.Mesh

open Vincent.Python Vincent.Check

/-! ## One event -/

/-- A rebuild can read the event. -/
structure Rebuildable (rt : Runtime) (e : ChainEvent) : Prop where
  sequence : e.seq rt = .ok (e.seqNum rt)
  revocation : e.eventType = "key_revoke" → ∃ info, revocationInfo rt e = .ok info

theorem Sound.rebuildable {env : Env} {e : ChainEvent} (h : Sound env e) :
    Rebuildable env.rt e where
  sequence := h.sequence
  revocation := fun htype => revocationInfo_of_valid (htype ▸ h.payload)

namespace Infonet

variable {env : Env} {call : Call}

/-- The ledger after an event of the loop that does not raise. -/
def rebuilt (env : Env) (call : Call) (net : Infonet) (idx : Nat) (e : ChainEvent) : Infonet :=
  let net := (net.indexEvent env call idx e).raiseSequence env.rt e (e.seqNum env.rt)
  (net.bindFirst e).withRevocation env.rt e

theorem rebuildEvent_eq_ok {net net' : Infonet} {idx : Nat} {e : ChainEvent} :
    net.rebuildEvent env call idx e = (net', .ok ()) ↔
      Rebuildable env.rt e ∧ net' = net.rebuilt env call idx e := by
  unfold rebuildEvent rebuilt
  cases hseq : e.seq env.rt with
  | error exn =>
    refine iff_of_false (by simp) ?_
    rintro ⟨hread, -⟩
    simp [hread.sequence] at hseq
  | ok n =>
    obtain ⟨hok, rfl⟩ := ChainEvent.seq_eq_ok.mp hseq
    simp only
    generalize ((net.indexEvent env call idx e).raiseSequence env.rt e
      (e.seqNum env.rt)).bindFirst e = bound
    cases happly : bound.applyIfRevocation env e with
    | error exn =>
      refine iff_of_false (by simp) ?_
      rintro ⟨hread, -⟩
      have hok' := applyIfRevocation_eq_ok.mpr ⟨hread.revocation, (rfl : _ = bound.withRevocation _ _)⟩
      simp [happly] at hok'
    | ok net₁ =>
      obtain ⟨hinfo, rfl⟩ := applyIfRevocation_eq_ok.mp happly
      constructor
      · intro h
        exact ⟨⟨hok, hinfo⟩, (Prod.mk.inj h).1.symm⟩
      · rintro ⟨-, rfl⟩
        rfl

section
variable (env : Env) (call : Call) (net : Infonet) (idx : Nat) (e : ChainEvent)

@[simp] theorem indexEvent_events : (net.indexEvent env call idx e).events = net.events := by
  unfold indexEvent; split <;> rfl

@[simp] theorem indexEvent_coldSegments :
    (net.indexEvent env call idx e).coldSegments = net.coldSegments := by
  unfold indexEvent; split <;> rfl

@[simp] theorem indexEvent_publicKeyBindings :
    (net.indexEvent env call idx e).publicKeyBindings = net.publicKeyBindings := by
  unfold indexEvent; split <;> rfl

@[simp] theorem indexEvent_revocations :
    (net.indexEvent env call idx e).revocations = net.revocations := by
  unfold indexEvent; split <;> rfl

@[simp] theorem indexEvent_lastSequence (slot : SequenceSlot) :
    (net.indexEvent env call idx e).lastSequence slot = net.lastSequence slot := by
  unfold indexEvent; split <;> cases slot <;> rfl

/-- Raising a counter and binding a key leave the rest of the ledger alone. -/
theorem bindFirst_raiseSequence_frame (n : Int) :
    let net' := (net.raiseSequence env.rt e n).bindFirst e
    net'.events = net.events ∧ net'.coldSegments = net.coldSegments ∧
    net'.eventIndex = net.eventIndex ∧ net'.replayFilter = net.replayFilter ∧
    net'.revocations = net.revocations := by
  unfold raiseSequence bindFirst
  simp only
  split_ifs <;> simp [setBinding]

@[simp] theorem rebuilt_events : (net.rebuilt env call idx e).events = net.events := by
  simp [rebuilt, bindFirst_raiseSequence_frame]

@[simp] theorem rebuilt_coldSegments :
    (net.rebuilt env call idx e).coldSegments = net.coldSegments := by
  simp [rebuilt, bindFirst_raiseSequence_frame]

theorem rebuilt_eventIndex : (net.rebuilt env call idx e).eventIndex =
    (net.indexEvent env call idx e).eventIndex := by
  simp [rebuilt, bindFirst_raiseSequence_frame]

theorem rebuilt_replayFilter : (net.rebuilt env call idx e).replayFilter =
    (net.indexEvent env call idx e).replayFilter := by
  simp [rebuilt, bindFirst_raiseSequence_frame]

theorem rebuilt_revocations : (net.rebuilt env call idx e).revocations =
    addRevocation env.rt net.revocations e := by
  simp [rebuilt, bindFirst_raiseSequence_frame]

theorem rebuilt_publicKeyBindings : (net.rebuilt env call idx e).publicKeyBindings =
    if e.publicKey ≠ "" ∧ e.nodeId ≠ "" ∧ net.publicKeyBindings e.publicKey = "" then
      Function.update net.publicKeyBindings e.publicKey e.nodeId
    else net.publicKeyBindings := by
  unfold rebuilt raiseSequence bindFirst
  simp only
  split_ifs <;> simp_all [setBinding]

theorem raiseSequence_lastSequence (slot : SequenceSlot) (n : Int) :
    (net.raiseSequence env.rt e n).lastSequence slot =
      if slot = e.slot env.rt ∧ e.nodeId ≠ "" ∧ n ≠ 0 ∧ net.lastSequence slot < n then n
      else net.lastSequence slot := by
  show Infonet.lastSequence (if e.nodeId ≠ "" ∧ n ≠ 0 ∧ net.lastSequence (e.slot env.rt) < n then
    net.setSequence (e.slot env.rt) n else net) slot = _
  by_cases hslot : slot = e.slot env.rt
  · subst hslot
    split_ifs <;> simp_all [lastSequence_setSequence]
  · simp only [hslot, false_and, if_false]
    split_ifs <;> simp [lastSequence_setSequence, hslot]

theorem rebuilt_lastSequence (slot : SequenceSlot) :
    (net.rebuilt env call idx e).lastSequence slot =
      if slot = e.slot env.rt ∧ e.nodeId ≠ "" ∧ e.seqNum env.rt ≠ 0 ∧
          net.lastSequence slot < e.seqNum env.rt then
        e.seqNum env.rt
      else net.lastSequence slot := by
  have hbind : ∀ net : Infonet, (net.bindFirst e).lastSequence slot = net.lastSequence slot := by
    intro net
    unfold bindFirst
    split <;> cases slot <;> rfl
  simp only [rebuilt, withRevocation_lastSequence, hbind, raiseSequence_lastSequence,
    indexEvent_lastSequence]

theorem rebuildEvent_frame :
    let net' := (net.rebuildEvent env call idx e).1
    net'.events = net.events ∧ net'.coldSegments = net.coldSegments ∧
    net'.eventIndex = (net.indexEvent env call idx e).eventIndex := by
  unfold rebuildEvent
  cases hseq : e.seq env.rt with
  | error exn => simp
  | ok n =>
    obtain ⟨hevents, hcold, hindex, -, -⟩ :=
      bindFirst_raiseSequence_frame env (net.indexEvent env call idx e) e n
    simp only at hevents hcold hindex ⊢
    generalize ((net.indexEvent env call idx e).raiseSequence env.rt e n).bindFirst e = bound
      at hevents hcold hindex
    cases happly : bound.applyIfRevocation env e with
    | error exn => simp [hevents, hcold, hindex]
    | ok net₁ =>
      obtain ⟨-, rfl⟩ := applyIfRevocation_eq_ok.mp happly
      simp [hevents, hcold, hindex]

end

/-! ## The loop -/

/-- The ledger after a loop that does not raise. -/
def rebuiltAll (env : Env) (call : Call) : List ChainEvent → Nat → Infonet → Infonet
  | [], _, net => net
  | e :: es, idx, net => rebuiltAll env call es (idx + 1) (net.rebuilt env call idx e)

theorem rebuiltAll_events (es : List ChainEvent) (idx : Nat) (net : Infonet) :
    (rebuiltAll env call es idx net).events = net.events := by
  induction es generalizing idx net with
  | nil => rfl
  | cons e es ih => simp [rebuiltAll, ih]

theorem rebuiltAll_coldSegments (es : List ChainEvent) (idx : Nat) (net : Infonet) :
    (rebuiltAll env call es idx net).coldSegments = net.coldSegments := by
  induction es generalizing idx net with
  | nil => rfl
  | cons e es ih => simp [rebuiltAll, ih]

theorem rebuildLoop_eq_ok {es : List ChainEvent} {idx : Nat} {net net' : Infonet} :
    rebuildLoop env call es idx net = (net', .ok ()) ↔
      (∀ e ∈ es, Rebuildable env.rt e) ∧ net' = rebuiltAll env call es idx net := by
  induction es generalizing idx net with
  | nil => simp [rebuildLoop, rebuiltAll, eq_comm]
  | cons e es ih =>
    simp only [rebuildLoop, rebuiltAll, List.forall_mem_cons]
    split
    · rename_i hfail
      refine iff_of_false (by simp) ?_
      rintro ⟨⟨hread, -⟩, -⟩
      have hok := rebuildEvent_eq_ok.mpr ⟨hread, (rfl : _ = net.rebuilt env call idx e)⟩
      simp [hfail] at hok
    · rename_i hevent
      obtain ⟨hread, rfl⟩ := rebuildEvent_eq_ok.mp hevent
      simp [ih, hread]

/-! ## The event index -/

/-- Every entry of the index is the position of the event that it names. -/
def Indexed (net : Infonet) : Prop :=
  ∀ id i, net.eventIndex id = some i → ∃ e, net.events[i]? = some e ∧ e.eventId = id

theorem Indexed.of_eq {net net' : Infonet} (h : net.Indexed) (hevents : net'.events = net.events)
    (hindex : net'.eventIndex = net.eventIndex) : net'.Indexed := by
  unfold Indexed
  rw [hevents, hindex]
  exact h

theorem indexed_of_none {net : Infonet} (h : net.eventIndex = fun _ => none) : net.Indexed := by
  intro id i hi
  simp [h] at hi

theorem Indexed.indexEvent {net : Infonet} {idx : Nat} {e : ChainEvent} (h : net.Indexed)
    (hat : net.events[idx]? = some e) : (net.indexEvent env call idx e).Indexed := by
  unfold Infonet.indexEvent
  split
  · exact h
  · intro id i hi
    simp only [Function.update_apply] at hi
    split at hi
    · rename_i hid
      cases hi
      exact ⟨e, hat, hid.symm⟩
    · exact h id i hi

/-- The loop leaves the chain alone and keeps the index right, also when it raises. -/
theorem rebuildLoop_frame (env : Env) (call : Call) (es done : List ChainEvent) {net : Infonet} (h : net.Indexed)
    (hsplit : net.events = done ++ es) :
    let net' := (rebuildLoop env call es done.length net).1
    net'.events = net.events ∧ net'.coldSegments = net.coldSegments ∧ net'.Indexed := by
  induction es generalizing done net with
  | nil => exact ⟨rfl, rfl, h⟩
  | cons e es ih =>
    obtain ⟨hevents, hcold, hindex⟩ := rebuildEvent_frame env call net done.length e
    have hstep : (net.rebuildEvent env call done.length e).1.Indexed :=
      (h.indexEvent (by simp [hsplit])).of_eq (by simp [hevents]) hindex
    simp only [rebuildLoop]
    split
    · rename_i hfail
      rw [hfail] at hevents hcold hstep
      exact ⟨hevents, hcold, hstep⟩
    · rename_i hok
      rw [hok] at hevents hcold hstep
      simp only at hevents hcold hstep
      obtain ⟨hevents', hcold', hindexed⟩ := ih (done ++ [e]) hstep (by simp [hevents, hsplit])
      rw [List.length_append, List.length_singleton] at hevents' hcold' hindexed
      exact ⟨hevents'.trans hevents, hcold'.trans hcold, hindexed⟩

theorem rebuild_frame (env : Env) (call : Call) (net : Infonet) :
    let net' := (rebuild env call net).1
    net'.events = net.events ∧ net'.coldSegments = net.coldSegments ∧ net'.Indexed := by
  have hclear : (net.clearTables call).Indexed := indexed_of_none rfl
  have hloop := rebuildLoop_frame env call net.events [] hclear rfl
  simp only [List.length_nil] at hloop
  unfold rebuild rebuildState
  cases hrun : rebuildLoop env call net.events 0 (net.clearTables call) with
  | mk net' outcome =>
    rw [hrun] at hloop
    cases outcome with
    | error exn => exact hloop
    | ok _ => exact ⟨hloop.1, hloop.2.1, hloop.2.2.of_eq rfl rfl⟩

/-- The ledger after a rebuild of the tables that does not raise. -/
def rebuiltState (env : Env) (call : Call) (net : Infonet) : Infonet :=
  let net := rebuiltAll env call net.events 0 (net.clearTables call)
  { net with headHash := lastEventId net.events }

/-- A rebuild of the tables succeeds exactly when every event can be read. -/
theorem rebuildState_eq_ok {net net' : Infonet} :
    rebuildState env call net = (net', .ok ()) ↔
      (∀ e ∈ net.events, Rebuildable env.rt e) ∧ net' = rebuiltState env call net := by
  unfold rebuildState
  cases hrun : rebuildLoop env call net.events 0 (net.clearTables call) with
  | mk net₁ outcome =>
    cases outcome with
    | error exn =>
      refine iff_of_false (by simp) ?_
      rintro ⟨hread, -⟩
      simp [rebuildLoop_eq_ok.mpr ⟨hread, rfl⟩] at hrun
    | ok _ =>
      obtain ⟨hread, rfl⟩ := rebuildLoop_eq_ok.mp hrun
      constructor
      · intro h
        exact ⟨hread, (Prod.mk.inj h).1.symm⟩
      · rintro ⟨-, rfl⟩
        rfl

/-- The counters can be rebuilt when each event by itself can be counted. -/
theorem rebuildCounters_eq_ok {rt : Runtime} {es : List ChainEvent} :
    rebuildCounters rt es = .ok () ↔
      ∀ e ∈ es, rebuildCounters rt [e] = .ok () := by
  induction es with
  | nil => simp [rebuildCounters]
  | cons e es ih =>
    rw [List.forall_mem_cons, ← ih]
    simp only [rebuildCounters, check_bind_eq_ok, and_true]

theorem rebuild_eq_ok {net net' : Infonet} :
    rebuild env call net = (net', .ok ()) ↔
      (∀ e ∈ net.events, Rebuildable env.rt e) ∧ rebuildCounters env.rt net.events = .ok () ∧
      net' = rebuiltState env call net := by
  have hevents : (rebuiltState env call net).events = net.events := rebuiltAll_events net.events 0 _
  unfold rebuild
  split
  · rename_i hstate
    refine iff_of_false (by simp) ?_
    rintro ⟨hread, -⟩
    simp [rebuildState_eq_ok.mpr ⟨hread, rfl⟩] at hstate
  · rename_i hstate
    obtain ⟨hread, rfl⟩ := rebuildState_eq_ok.mp hstate
    rw [hevents]
    constructor
    · intro h
      obtain ⟨rfl, hcounters⟩ := Prod.mk.inj h
      exact ⟨hread, hcounters, rfl⟩
    · rintro ⟨-, hcounters, rfl⟩
      rw [hcounters]

end Infonet

end Vincent.Mesh
