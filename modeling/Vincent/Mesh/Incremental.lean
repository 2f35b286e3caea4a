-- SUMMARY: The running tables and counters against the rebuilt ones.
import Vincent.Mesh.Refused
import Vincent.Mesh.Validate

/-!
# Incremental tables

Each accepted event updates the tables and the counters by hand, and a load, a fork or
a cleanup recomputes them. `ChainTables` is what both compute.
-/

namespace Vincent.Mesh

open Vincent.Python Vincent.Check Vincent.Run

/-! ## Running counters -/

/-- `_type_counts` and `_registered_nodes`. -/
@[ext] structure Counters where
  typeCounts : String → Nat := fun _ => 0
  registeredNodes : String → Bool := fun _ => false

namespace Counters

/-- `_update_counters_for_event`. -/
def count (c : Counters) (e : ChainEvent) : Counters where
  typeCounts := Function.update c.typeCounts e.eventType (c.typeCounts e.eventType + 1)
  registeredNodes :=
    if e.eventType = "node_register" ∧ e.nodeId ≠ "" then
      Function.update c.registeredNodes e.nodeId true
    else c.registeredNodes

/-- The loop of `_rebuild_counters`. It counts an event before it reads its age. -/
def rebuildLoop (rt : Runtime) : List ChainEvent → Counters → Counters
  | [], c => c
  | e :: es, c =>
    match Infonet.rebuildCounters rt [e] with
    | .error _ => c.count e
    | .ok () => rebuildLoop rt es (c.count e)

/-- The counters after a rebuild, which does not get to them if `_rebuild_state` raises. -/
def rebuild (env : Env) (call : Call) (net : Infonet) (c : Counters) : Counters :=
  match Infonet.rebuildState env call net with
  | (_, .error _) => c
  | (net, .ok ()) => rebuildLoop env.rt net.events {}

/-- The counters along the loop of `ingest_events`. -/
def ingestLoop (env : Env) (call : Call) :
    List WireItem → String → Infonet → Counters → Counters
  | [], _, _, c => c
  | item :: items, expectedPrev, net, c =>
    match net.ingestItem env call expectedPrev item, item with
    | (net, .ok ()), .event e => ingestLoop env call items net.headHash net (c.count e)
    | (_, .error (.fault (.raised _))), _ => c
    | (net, _), _ => ingestLoop env call items expectedPrev net c

/-- The counters after an operation. `reset_chain` leaves the registered nodes. -/
def apply (env : Env) (call : Call) (net : Infonet) (c : Counters) : ChainOp → Counters
  | .append req =>
    match (net.append env call req).2 with
    | .ok e => c.count e
    | .error _ => c
  | .ingestEvents items => ingestLoop env call items net.headHash net c
  | .applyFork events headHash proofCount quorum =>
    match net.checkFork env call events headHash proofCount quorum with
    | .error _ => c
    | .ok plan =>
      c.rebuild env call { net with events := net.events.take (plan.prevIndex + 1) ++ plan.ordered }
  | .cleanup =>
    match Infonet.unexpired env call.now net.events with
    | .error _ => c
    | .ok kept =>
      if kept.length = net.events.length then c
      else c.rebuild env call { net with events := kept }
  | .resetChain => { c with typeCounts := fun _ => 0 }
  | .save => c

/-- The counters of a chain. -/
def ofChain (events : List ChainEvent) : Counters := events.foldl count {}

/-- A loop that does not raise counts every event. -/
theorem rebuildLoop_eq {rt : Runtime} {es : List ChainEvent} (c : Counters)
    (h : Infonet.rebuildCounters rt es = .ok ()) : rebuildLoop rt es c = es.foldl count c := by
  induction es generalizing c with
  | nil => rfl
  | cons e es ih =>
    have hall := Infonet.rebuildCounters_eq_ok.mp h
    have hrest : Infonet.rebuildCounters rt es = .ok () :=
      Infonet.rebuildCounters_eq_ok.mpr fun e' he' => hall e' (List.mem_cons_of_mem _ he')
    simp only [rebuildLoop, hall e List.mem_cons_self, List.foldl_cons]
    exact ih (c.count e) hrest

end Counters

/-- A ledger with its running counters. -/
structure CountedNet where
  net : Infonet
  counters : Counters := {}

def countedStep (env : Env) (s : CountedNet) (a : ChainAction) : CountedNet where
  net := chainStep env s.net a
  counters := s.counters.apply (a.env env) a.call s.net a.op

/-! ## The tables of a chain -/

/-- The tables that `_rebuild_state` computes, but for the replay filter. -/
@[ext] structure ChainTables where
  eventIndex : String → Option Nat := fun _ => none
  lastSequence : SequenceSlot → Int := fun _ => 0
  publicKeyBindings : String → String := fun _ => ""
  revocations : String → Option Revocation := fun _ => none

/-- The event raises the counter. -/
def ChainEvent.Raises (rt : Runtime) (slot : SequenceSlot) (e : ChainEvent) : Prop :=
  slot = e.slot rt ∧ e.nodeId ≠ "" ∧ e.seqNum rt ≠ 0

instance (rt : Runtime) (slot : SequenceSlot) (e : ChainEvent) : Decidable (e.Raises rt slot) := by
  unfold ChainEvent.Raises
  infer_instance

/-- The counter after the event. -/
def raised (rt : Runtime) (slot : SequenceSlot) (last : Int) (e : ChainEvent) : Int :=
  if e.Raises rt slot ∧ last < e.seqNum rt then e.seqNum rt else last

namespace ChainTables

/-- The tables with one more event, at its position. -/
def add (rt : Runtime) (t : ChainTables) (idx : Nat) (e : ChainEvent) : ChainTables where
  eventIndex :=
    if e.eventId = "" then t.eventIndex else Function.update t.eventIndex e.eventId (some idx)
  lastSequence := fun slot => raised rt slot (t.lastSequence slot) e
  publicKeyBindings :=
    if e.publicKey ≠ "" ∧ e.nodeId ≠ "" ∧ t.publicKeyBindings e.publicKey = "" then
      Function.update t.publicKeyBindings e.publicKey e.nodeId
    else t.publicKeyBindings
  revocations := addRevocation rt t.revocations e

def addAll (rt : Runtime) : List ChainEvent → Nat → ChainTables → ChainTables
  | [], _, t => t
  | e :: es, idx, t => addAll rt es (idx + 1) (t.add rt idx e)

/-- The tables of a chain. -/
def ofChain (rt : Runtime) (events : List ChainEvent) : ChainTables := addAll rt events 0 {}

section
variable {rt : Runtime}

theorem addAll_concat (es : List ChainEvent) (idx : Nat) (t : ChainTables) (e : ChainEvent) :
    addAll rt (es ++ [e]) idx t = (addAll rt es idx t).add rt (idx + es.length) e := by
  induction es generalizing idx t with
  | nil => rfl
  | cons e' es ih =>
    simp only [List.cons_append, addAll, ih, List.length_cons]
    congr 1
    omega

theorem ofChain_concat (events : List ChainEvent) (e : ChainEvent) :
    ofChain rt (events ++ [e]) = (ofChain rt events).add rt events.length e := by
  simp only [ofChain, addAll_concat, Nat.zero_add]

theorem addAll_lastSequence (es : List ChainEvent) (idx : Nat) (t : ChainTables)
    (slot : SequenceSlot) :
    (addAll rt es idx t).lastSequence slot = es.foldl (raised rt slot) (t.lastSequence slot) := by
  induction es generalizing idx t with
  | nil => rfl
  | cons e es ih => exact ih (idx + 1) (t.add rt idx e)

theorem addAll_with (rt : Runtime) (es : List ChainEvent) (idx : Nat) (t : ChainTables)
    (last : SequenceSlot → Int) : ∃ last',
    addAll rt es idx { t with lastSequence := last } =
      { addAll rt es idx t with lastSequence := last' } := by
  induction es generalizing idx t last with
  | nil => exact ⟨last, rfl⟩
  | cons e es ih =>
    exact ih (idx + 1) (t.add rt idx e) fun slot => raised rt slot (last slot) e

end

end ChainTables

/-! ## Sequence counters -/

section
variable {rt : Runtime} {slot : SequenceSlot}

theorem raised_le_iff {last n : Int} {e : ChainEvent} :
    raised rt slot last e ≤ n ↔ last ≤ n ∧ (e.Raises rt slot → e.seqNum rt ≤ n) := by
  unfold raised
  split
  · rename_i hraises
    constructor
    · exact fun h => ⟨hraises.2.le.trans h, fun _ => h⟩
    · exact fun h => h.2 hraises.1
  · rename_i hkeeps
    constructor
    · intro h
      refine ⟨h, fun hraises => ?_⟩
      have hle : e.seqNum rt ≤ last := not_lt.mp fun hlt => hkeeps ⟨hraises, hlt⟩
      exact hle.trans h
    · exact fun h => h.1

/-- A counter is the least bound of its start and of the sequences that raise it. -/
theorem foldl_raised_le_iff {es : List ChainEvent} {last n : Int} :
    es.foldl (raised rt slot) last ≤ n ↔
      last ≤ n ∧ ∀ e ∈ es, e.Raises rt slot → e.seqNum rt ≤ n := by
  induction es generalizing last with
  | nil => simp
  | cons e es ih =>
    rw [List.foldl_cons, ih, raised_le_iff, List.forall_mem_cons, and_assoc]

theorem le_foldl_raised (es : List ChainEvent) (last : Int) :
    last ≤ es.foldl (raised rt slot) last := (foldl_raised_le_iff.mp le_rfl).1

theorem foldl_raised_of_le {es : List ChainEvent} {start last : Int} (hle : start ≤ last)
    (hreach : last ≤ es.foldl (raised rt slot) start) :
    es.foldl (raised rt slot) last = es.foldl (raised rt slot) start := by
  refine le_antisymm ?_ ?_
  · exact foldl_raised_le_iff.mpr ⟨hreach, (foldl_raised_le_iff.mp le_rfl).2⟩
  · exact foldl_raised_le_iff.mpr
      ⟨hle.trans (le_foldl_raised es last), (foldl_raised_le_iff.mp le_rfl).2⟩

end

/-! ## The tables of a ledger -/

namespace Infonet

/-- The tables of the ledger object. -/
def tables (net : Infonet) : ChainTables where
  eventIndex := net.eventIndex
  lastSequence := net.lastSequence
  publicKeyBindings := net.publicKeyBindings
  revocations := net.revocations

section
variable (env : Env) (call : Call) (net : Infonet)

theorem tables_rebuilt (idx : Nat) (e : ChainEvent) :
    (net.rebuilt env call idx e).tables = net.tables.add env.rt idx e := by
  refine ChainTables.ext ?_ ?_ ?_ ?_
  · simp only [tables, ChainTables.add, rebuilt_eventIndex]
    unfold indexEvent
    split <;> rfl
  · funext slot
    simp only [tables, ChainTables.add, rebuilt_lastSequence, raised, ChainEvent.Raises, and_assoc]
  · exact rebuilt_publicKeyBindings env call net idx e
  · exact rebuilt_revocations env call net idx e

theorem tables_rebuiltAll (es : List ChainEvent) (idx : Nat) :
    (rebuiltAll env call es idx net).tables = ChainTables.addAll env.rt es idx net.tables := by
  induction es generalizing idx net with
  | nil => rfl
  | cons e es ih => rw [rebuiltAll, ih, tables_rebuilt, ChainTables.addAll]

theorem tables_rebuiltState :
    (rebuiltState env call net).tables =
      ChainTables.addAll env.rt net.events 0 (net.clearTables call).tables :=
  tables_rebuiltAll env call (net.clearTables call) net.events 0

/-- The tables that `_rebuild_state` computes from the events alone. -/
theorem tables_rebuiltState_empty (events : List ChainEvent) :
    (rebuiltState env call { empty call with events := events }).tables =
      ChainTables.ofChain env.rt events := by
  have hclear : (({ empty call with events := events } : Infonet).clearTables call).tables = {} := by
    refine ChainTables.ext rfl ?_ rfl rfl
    funext slot
    cases slot with
    | node key => rfl
    | domain key =>
      simp only [tables, lastSequence, clearTables, empty]
      split <;> rfl
  rw [tables_rebuiltState, hclear]
  rfl

/-- An accepted event adds to the tables what a rebuild would. -/
theorem tables_commit {e : ChainEvent} (h : Accepted env call net e) :
    (net.commit env call e).tables = net.tables.add env.rt net.events.length e := by
  refine ChainTables.ext ?_ ?_ ?_ ?_
  · simp only [tables, ChainTables.add, commit_eventIndex, h.eventId, if_false]
  · funext slot
    simp only [tables, ChainTables.add, commit_lastSequence, raised]
    refine if_congr ⟨?_, fun hraises => hraises.1.1⟩ rfl rfl
    rintro rfl
    exact ⟨⟨rfl, h.nodeId, h.sequencePos.ne'⟩, h.sequence⟩
  · simp only [tables, ChainTables.add, commit_publicKeyBindings, ne_eq, h.publicKey, h.nodeId,
      not_false_eq_true, true_and]
    split
    · rfl
    · rename_i howned
      rw [← h.bindable.resolve_left howned, Function.update_eq_self]
  · exact commit_revocations env call net e

/-- A save that archives nothing leaves the tables and the hot chain. -/
theorem save_of_inMemory (h : net.save.coldSegments.length ≤ net.coldSegments.length) :
    net.save.tables = net.tables ∧ net.save.events = net.events := by
  by_cases hle : net.events.length ≤ maxChainMemory
  · rw [save_of_le hle]
    exact ⟨ChainTables.ext rfl (by funext slot; cases slot <;> rfl) rfl rfl, rfl⟩
  · have hmore := (save_of_gt hle).1
    omega

theorem tables_invalidate : net.invalidateMerkleCache.tables = net.tables :=
  ChainTables.ext rfl (by funext slot; cases slot <;> rfl) rfl rfl

end

end Infonet

theorem SameLedger.tables {a b : Infonet} (h : SameLedger a b) : a.tables = b.tables :=
  ChainTables.ext h.eventIndex (funext h.lastSequence) h.publicKeyBindings h.revocations

/-! ## In step with the chain -/

/-- The tables and the counters are those of the events, which a rebuild can read. -/
structure InStep (rt : Runtime) (s : CountedNet) : Prop where
  tables : s.net.tables = ChainTables.ofChain rt s.net.events
  counters : s.counters = Counters.ofChain s.net.events
  readable : ∀ e ∈ s.net.events, ForkReadable rt e

namespace InStep

variable {env : Env} {call : Call} {net net' : Infonet} {c : Counters}

theorem of_eq (h : InStep env.rt ⟨net, c⟩) (htables : net'.tables = net.tables)
    (hevents : net'.events = net.events) : InStep env.rt ⟨net', c⟩ where
  tables := by
    rw [htables, hevents]
    exact h.tables
  counters := by
    rw [hevents]
    exact h.counters
  readable := by
    rw [hevents]
    exact h.readable

theorem same (h : InStep env.rt ⟨net, c⟩) (hsame : SameLedger net' net) :
    InStep env.rt ⟨net', c⟩ := h.of_eq hsame.tables hsame.events

theorem commit (h : InStep env.rt ⟨net, c⟩) {e : ChainEvent} (hacc : Accepted env call net e)
    (hread : ForkReadable env.rt e) : InStep env.rt ⟨net.commit env call e, c.count e⟩ where
  tables := by
    rw [Infonet.tables_commit env call net hacc, Infonet.commit_events, ChainTables.ofChain_concat]
    exact congrArg (·.add env.rt net.events.length e) h.tables
  counters := by
    rw [Infonet.commit_events, Counters.ofChain, List.foldl_append]
    exact congrArg (·.count e) h.counters
  readable := by
    rw [Infonet.commit_events]
    intro e' he'
    rcases List.mem_append.mp he' with hold | hnew
    · exact h.readable e' hold
    · rw [List.mem_singleton.mp hnew]
      exact hread

/-- A save that archives nothing keeps in step. -/
theorem save (h : InStep env.rt ⟨net, c⟩)
    (hmemory : net.save.coldSegments.length ≤ net.coldSegments.length) :
    InStep env.rt ⟨net.save, c⟩ := by
  obtain ⟨htables, hevents⟩ := net.save_of_inMemory hmemory
  exact h.of_eq htables hevents

theorem invalidate (h : InStep env.rt ⟨net, c⟩) : InStep env.rt ⟨net.invalidateMerkleCache, c⟩ :=
  h.of_eq net.tables_invalidate rfl

end InStep

/-! ## What each operation has to meet -/

/-- The items of a batch whose turn comes, up to one that raises. -/
def turns (env : Env) (call : Call) : List WireItem → String → Infonet → List Turn
  | [], _, _ => []
  | item :: items, expectedPrev, net =>
    ⟨net, expectedPrev, item⟩ ::
      match net.ingestItem env call expectedPrev item with
      | (net, .ok ()) => turns env call items net.headHash net
      | (_, .error (.fault (.raised _))) => []
      | (net, .error _) => turns env call items expectedPrev net

/-- A refused item leaves no binding, and the age of an accepted one can be read. -/
def Turn.Settled (env : Env) (call : Call) (t : Turn) : Prop :=
  match t.net.ingestItem env call t.expectedPrev t.item with
  | (_, .ok ()) => ∀ e, t.item = .event e → Infonet.rebuildCounters env.rt [e] = .ok ()
  | (_, .error _) => ¬ t.LeavesTrace env call

/-- The new chain reaches every counter of the old one that the rebuild keeps. -/
def Reaches (rt : Runtime) (old new : List ChainEvent) : Prop :=
  ∀ d ∈ old, ∀ key, d.slot rt = .domain key →
    "|gate_message".toList.isSuffixOf key.toList = false → d.nodeId ≠ "" →
    ∃ e ∈ new, e.nodeId ≠ "" ∧ e.slot rt = d.slot rt ∧ d.seqNum rt ≤ e.seqNum rt

/-- Refused events leave no binding, a rebuild reads its fork, and no node is registered at a
reset. -/
def ChainOp.KeepsTables (env : Env) (call : Call) (s : CountedNet) : ChainOp → Prop
  | .append req =>
    (∃ fault, (s.net.append env call req).2 = .error fault) → ¬ req.LeavesTrace env call s.net
  | .ingestEvents items =>
    ∀ t ∈ turns env call items s.net.headHash s.net, t.Settled env call
  | .applyFork events headHash proofCount quorum =>
    ∀ plan, s.net.checkFork env call events headHash proofCount quorum = .ok plan →
      let forked := s.net.events.take (plan.prevIndex + 1) ++ plan.ordered
      (∀ e ∈ plan.ordered, ForkReadable env.rt e) ∧ Reaches env.rt s.net.events forked
  | .cleanup =>
    ∀ kept, Infonet.unexpired env call.now s.net.events = .ok kept →
      kept.length ≠ s.net.events.length → Reaches env.rt s.net.events kept
  | .resetChain => ∀ nodeId, s.counters.registeredNodes nodeId = false
  | .save => True

/-! ## Each operation -/

section
variable {env : Env} {call : Call} {net : Infonet} {c : Counters}

theorem Infonet.rebuild_of_readable {events : List ChainEvent}
    (h : ∀ e ∈ events, ForkReadable env.rt e) :
    rebuild env call { net with events := events } =
      (rebuiltState env call { net with events := events }, .ok ()) := by
  obtain ⟨hrebuildable, hcounters⟩ := forkReadable_iff.mp h
  exact rebuild_eq_ok.mpr ⟨hrebuildable, hcounters, rfl⟩

theorem Appended.forkReadable {p : Prepared} (h : Appended env call net p) :
    ForkReadable env.rt p.event where
  tables := ⟨h.accepted.seq, h.revocation⟩
  counters := by
    obtain ⟨x, hx⟩ := h.timestampFloat
    simp only [Infonet.rebuildCounters, hx, Infonet.numberOf, check_bind_eq_ok, onlyIf_eq_ok,
      and_true]
    exact fun _ => rfl

namespace InStep

theorem append (h : InStep env.rt ⟨net, c⟩) {req : AppendCall}
    (hkeeps : ChainOp.KeepsTables env call ⟨net, c⟩ (.append req))
    (hmemory : (net.append env call req).1.coldSegments.length ≤ net.coldSegments.length) :
    InStep env.rt ⟨(net.append env call req).1, c.apply env call net (.append req)⟩ := by
  cases happend : net.append env call req with
  | mk net' outcome =>
    cases outcome with
    | error fault =>
      simp only [Counters.apply, happend]
      have htrace : ¬ req.LeavesTrace env call net := hkeeps ⟨fault, by rw [happend]⟩
      exact h.same ((append_refused happend).mpr htrace)
    | ok e =>
      obtain ⟨p, rfl, happ, rfl⟩ := Infonet.append_eq_ok happend
      rw [happend] at hmemory
      simp only [Counters.apply, happend]
      have hcommit := h.commit happ.accepted happ.forkReadable
      refine hcommit.invalidate.save (hmemory.trans (le_of_eq ?_))
      exact congrArg List.length (Infonet.commit_coldSegments env call net p.event).symm

theorem ingestLoop {items : List WireItem} {prev : String} (idx : Nat) (result : IngestResult)
    (h : InStep env.rt ⟨net, c⟩)
    (hturns : ∀ t ∈ turns env call items prev net, t.Settled env call) :
    let net' := (Infonet.ingestLoop env call items idx prev result net).1
    InStep env.rt ⟨net', Counters.ingestLoop env call items prev net c⟩ ∧
      net'.coldSegments = net.coldSegments := by
  induction items generalizing idx prev result net c with
  | nil => exact ⟨h, rfl⟩
  | cons item items ih =>
    have hfirst := hturns _ List.mem_cons_self
    have hrest := fun t ht => hturns t (List.mem_cons_of_mem _ ht)
    rcases @ingestItem_cases env call net prev item with
      ⟨e, rfl, -, ⟨hs, ha⟩, hitem⟩ | ⟨skip, kept, hitem, hrefused⟩
    · simp only [Turn.Settled, hitem] at hfirst hrest
      have hcommit := h.commit (hs.accepted ha) ⟨hs.rebuildable, hfirst e rfl⟩
      simp only [Infonet.ingestLoop, Counters.ingestLoop, hitem]
      obtain ⟨hend, hcold⟩ := ih (idx + 1) result.accept hcommit hrest
      exact ⟨hend, hcold.trans (Infonet.commit_coldSegments env call net e)⟩
    · simp only [Turn.Settled, hitem] at hfirst hrest
      have hkept := h.same (hrefused.same_iff.mpr hfirst)
      have hcold : kept.coldSegments = net.coldSegments := by
        obtain ⟨_, _, rfl⟩ := hrefused.kept_eq
        rfl
      cases skip with
      | duplicate =>
        simp only [Infonet.ingestLoop, Counters.ingestLoop, hitem, IngestResult.skip]
        obtain ⟨hend, hcold'⟩ := ih (idx + 1) _ hkept hrest
        exact ⟨hend, hcold'.trans hcold⟩
      | fault f =>
        cases f with
        | invalid reason =>
          simp only [Infonet.ingestLoop, Counters.ingestLoop, hitem, IngestResult.skip]
          obtain ⟨hend, hcold'⟩ := ih (idx + 1) _ hkept hrest
          exact ⟨hend, hcold'.trans hcold⟩
        | raised exn =>
          simp only [Infonet.ingestLoop, Counters.ingestLoop, hitem, IngestResult.skip]
          exact ⟨hkept, hcold⟩

theorem ingestEvents (h : InStep env.rt ⟨net, c⟩) {items : List WireItem}
    (hkeeps : ChainOp.KeepsTables env call ⟨net, c⟩ (.ingestEvents items))
    (hmemory : (net.ingestEvents env call items).1.coldSegments.length ≤
      net.coldSegments.length) :
    InStep env.rt ⟨(net.ingestEvents env call items).1,
      c.apply env call net (.ingestEvents items)⟩ := by
  have hloop := ingestLoop 0 {} h hkeeps
  simp only at hloop
  unfold Infonet.ingestEvents at hmemory ⊢
  cases hrun : Infonet.ingestLoop env call items 0 net.headHash {} net with
  | mk net' outcome =>
    rw [hrun] at hloop hmemory
    obtain ⟨hend, hcold⟩ := hloop
    cases outcome with
    | error exn => exact hend
    | ok result =>
      simp only at hmemory ⊢
      split at hmemory
      · rename_i hsome
        rw [if_pos hsome]
        exact hend.invalidate.save (hmemory.trans (congrArg List.length hcold.symm).le)
      · rename_i hnone
        rw [if_neg hnone]
        exact hend

end InStep

/-- A start of the counters that the events reach does not show in the tables. -/
theorem ChainTables.addAll_of_reached {rt : Runtime} {es : List ChainEvent}
    {last : SequenceSlot → Int}
    (h : ∀ slot, 0 ≤ last slot ∧ last slot ≤ es.foldl (raised rt slot) 0) :
    addAll rt es 0 { lastSequence := last } = ofChain rt es := by
  obtain ⟨last', heq⟩ := addAll_with rt es 0 {} last
  have hlast : last' = (ofChain rt es).lastSequence := by
    funext slot
    have hslot := congrArg (·.lastSequence slot) heq
    simp only [addAll_lastSequence] at hslot
    rw [← hslot, foldl_raised_of_le (h slot).1 (h slot).2, ofChain, addAll_lastSequence]
  rw [heq, hlast]
  rfl

namespace InStep

theorem lastSequence_eq (h : InStep env.rt ⟨net, c⟩) (slot : SequenceSlot) :
    net.lastSequence slot = net.events.foldl (raised env.rt slot) 0 := by
  have htables := congrArg (·.lastSequence slot) h.tables
  simp only [ChainTables.ofChain, ChainTables.addAll_lastSequence] at htables
  exact htables

/-- The counters that a rebuild starts from are reached by the new chain. -/
theorem cleared (h : InStep env.rt ⟨net, c⟩) {new : List ChainEvent}
    (hreaches : Reaches env.rt net.events new) (slot : SequenceSlot) :
    0 ≤ (net.clearTables call).lastSequence slot ∧
      (net.clearTables call).lastSequence slot ≤ new.foldl (raised env.rt slot) 0 := by
  have hzero : (0 : Int) ≤ new.foldl (raised env.rt slot) 0 := le_foldl_raised new 0
  cases slot with
  | node key => exact ⟨le_rfl, hzero⟩
  | domain key =>
    simp only [Infonet.clearTables, Infonet.lastSequence]
    split
    · exact ⟨le_rfl, hzero⟩
    · rename_i hgate
      have hkept : net.sequenceDomains key = _ := h.lastSequence_eq (.domain key)
      rw [hkept]
      refine ⟨le_foldl_raised net.events 0, foldl_raised_le_iff.mpr ⟨hzero, ?_⟩⟩
      rintro d hd ⟨hslot, hnode, -⟩
      obtain ⟨e, he, henode, heslot, hle⟩ :=
        hreaches d hd key hslot.symm (Bool.eq_false_of_not_eq_true hgate) hnode
      by_cases hseq : e.seqNum env.rt = 0
      · exact (hle.trans hseq.le).trans hzero
      · refine hle.trans ((foldl_raised_le_iff.mp le_rfl).2 e he ⟨?_, henode, hseq⟩)
        exact hslot.trans heslot.symm

theorem replaced (h : InStep env.rt ⟨net, c⟩) {events : List ChainEvent}
    (hread : ∀ e ∈ events, ForkReadable env.rt e) (hreaches : Reaches env.rt net.events events)
    (hmemory : (net.replaced env call events).coldSegments.length ≤ net.coldSegments.length) :
    InStep env.rt ⟨net.replaced env call events,
      c.rebuild env call { net with events := events }⟩ := by
  obtain ⟨hevents, hcold⟩ := Infonet.rebuiltState_frame env call net events
  obtain ⟨hrebuildable, hcounters⟩ := forkReadable_iff.mp hread
  have hstate : Infonet.rebuildState env call { net with events := events } =
      (Infonet.rebuiltState env call { net with events := events }, .ok ()) :=
    Infonet.rebuildState_eq_ok.mpr ⟨hrebuildable, rfl⟩
  have hclear : (({ net with events := events } : Infonet).clearTables call).tables =
      { lastSequence := (net.clearTables call).lastSequence } :=
    ChainTables.ext rfl (by funext slot; cases slot <;> rfl) rfl rfl
  have hrebuilt : InStep env.rt ⟨Infonet.rebuiltState env call { net with events := events },
      c.rebuild env call { net with events := events }⟩ := by
    refine ⟨?_, ?_, ?_⟩
    · simp only [hevents]
      rw [Infonet.tables_rebuiltState, hclear]
      exact ChainTables.addAll_of_reached (h.cleared hreaches)
    · simp only [Counters.rebuild, hstate, hevents]
      exact Counters.rebuildLoop_eq {} hcounters
    · simp only [hevents]
      exact hread
  refine hrebuilt.invalidate.save (hmemory.trans (le_of_eq ?_))
  exact congrArg List.length hcold.symm

end InStep

end

namespace InStep

variable {env : Env} {call : Call} {net : Infonet} {c : Counters}

theorem applyFork (h : InStep env.rt ⟨net, c⟩) {events : List ChainEvent} {headHash : String}
    {proofCount quorum : Int}
    (hkeeps : ChainOp.KeepsTables env call ⟨net, c⟩ (.applyFork events headHash proofCount quorum))
    (hmemory : (net.applyFork env call events headHash proofCount quorum).1.coldSegments.length ≤
      net.coldSegments.length) :
    InStep env.rt ⟨(net.applyFork env call events headHash proofCount quorum).1,
      c.apply env call net (.applyFork events headHash proofCount quorum)⟩ := by
  unfold Infonet.applyFork at hmemory ⊢
  cases hcheck : net.checkFork env call events headHash proofCount quorum with
  | error fault =>
    simp only [Counters.apply, hcheck]
    cases fault <;> exact h
  | ok plan =>
    obtain ⟨hordered, hreaches⟩ := hkeeps plan hcheck
    have hread : ∀ e ∈ net.events.take (plan.prevIndex + 1) ++ plan.ordered,
        ForkReadable env.rt e := by
      intro e he
      rcases List.mem_append.mp he with hold | hnew
      · exact h.readable e (List.mem_of_mem_take hold)
      · exact hordered e hnew
    simp only [hcheck, Infonet.rebuild_of_readable hread] at hmemory
    simp only [Counters.apply, hcheck, Infonet.rebuild_of_readable hread]
    exact h.replaced hread hreaches hmemory

theorem cleanup (h : InStep env.rt ⟨net, c⟩)
    (hkeeps : ChainOp.KeepsTables env call ⟨net, c⟩ .cleanup)
    (hmemory : (net.cleanup env call).1.coldSegments.length ≤ net.coldSegments.length) :
    InStep env.rt ⟨(net.cleanup env call).1, c.apply env call net .cleanup⟩ := by
  unfold Infonet.cleanup at hmemory ⊢
  cases hkept : Infonet.unexpired env call.now net.events with
  | error exn =>
    simp only [Counters.apply, hkept]
    exact h
  | ok kept =>
    by_cases hall : kept.length = net.events.length
    · simp only [Counters.apply, hkept, hall, if_true]
      exact h
    · have hread : ∀ e ∈ kept, ForkReadable env.rt e := fun e he =>
        h.readable e ((Infonet.sublist_of_unexpired hkept).subset he)
      simp only [hkept, hall, if_false, Infonet.rebuild_of_readable hread] at hmemory
      simp only [Counters.apply, hkept, hall, if_false, Infonet.rebuild_of_readable hread]
      exact h.replaced hread (hkeeps kept hkept hall) hmemory

theorem empty (rt : Runtime) (start : Call) : InStep rt ⟨.empty start, {}⟩ where
  tables := ChainTables.ext rfl (by funext slot; cases slot <;> rfl) rfl rfl
  counters := rfl
  readable := fun e he => by cases he

theorem resetChain (env : Env) (hkeeps : ChainOp.KeepsTables env call ⟨net, c⟩ .resetChain) :
    InStep env.rt ⟨net.resetChain call, c.apply env call net .resetChain⟩ where
  tables := ChainTables.ext rfl (by funext slot; cases slot <;> rfl) rfl rfl
  counters := Counters.ext rfl (funext hkeeps)
  readable := fun e he => by cases he

/-- Every operation that meets its condition and archives nothing keeps in step. -/
theorem step {s : CountedNet} {a : ChainAction} (h : InStep env.rt s)
    (hkeeps : a.op.KeepsTables (a.env env) a.call s)
    (hmemory : (chainStep env s.net a).coldSegments.length ≤ s.net.coldSegments.length) :
    InStep env.rt (countedStep env s a) := by
  obtain ⟨net, c⟩ := s
  obtain ⟨call, cutoverDone, op⟩ := a
  have hstep : InStep ({ env with cutoverDone := cutoverDone } : Env).rt ⟨net, c⟩ := h
  cases op with
  | append req => exact hstep.append hkeeps hmemory
  | ingestEvents items => exact hstep.ingestEvents hkeeps hmemory
  | applyFork events headHash proofCount quorum => exact hstep.applyFork hkeeps hmemory
  | cleanup => exact hstep.cleanup hkeeps hmemory
  | resetChain => exact resetChain { env with cutoverDone := cutoverDone } hkeeps
  | save => exact hstep.save hmemory

end InStep

/-! ## Runs -/

/-- The tables and the counters are what `_rebuild_state` and `_rebuild_counters` compute from the
    events. -/
structure MatchesRebuild (env : Env) (call : Call) (s : CountedNet) (ref : Infonet) : Prop where
  rebuilds : Infonet.rebuild env call { Infonet.empty call with events := s.net.events } =
    (ref, .ok ())
  nodeSequences : s.net.nodeSequences = ref.nodeSequences
  sequenceDomains : ∀ key : String, ("|gate_message".toList.isSuffixOf key.toList ||
    "|dm_message".toList.isSuffixOf key.toList) = true →
    s.net.sequenceDomains key = ref.sequenceDomains key
  eventIndex : s.net.eventIndex = ref.eventIndex
  publicKeyBindings : s.net.publicKeyBindings = ref.publicKeyBindings
  revocations : s.net.revocations = ref.revocations
  counters : s.counters =
    Counters.rebuild env call { Infonet.empty call with events := s.net.events } {}

/-- A ledger in step is what a rebuild makes of its events. -/
theorem InStep.matches {env : Env} {s : CountedNet} (h : InStep env.rt s) (call : Call) :
    ∃ ref, MatchesRebuild env call s ref := by
  obtain ⟨hrebuildable, hcounters⟩ := forkReadable_iff.mp h.readable
  have hevents : (Infonet.rebuiltState env call
      { Infonet.empty call with events := s.net.events }).events = s.net.events :=
    (Infonet.rebuiltState_frame env call (.empty call) s.net.events).1
  have htables := h.tables.trans (Infonet.tables_rebuiltState_empty env call s.net.events).symm
  have hlast := fun slot => congrArg (·.lastSequence slot) htables
  refine ⟨_, Infonet.rebuild_eq_ok.mpr ⟨hrebuildable, hcounters, rfl⟩, ?_, ?_, ?_, ?_, ?_, ?_⟩
  · exact funext fun key => hlast (.node key)
  · exact fun key _ => hlast (.domain key)
  · exact congrArg (·.eventIndex) htables
  · exact congrArg (·.publicKeyBindings) htables
  · exact congrArg (·.revocations) htables
  · have hstate : Infonet.rebuildState env call { Infonet.empty call with events := s.net.events } =
        (Infonet.rebuiltState env call { Infonet.empty call with events := s.net.events }, .ok ()) :=
      Infonet.rebuildState_eq_ok.mpr ⟨hrebuildable, rfl⟩
    simp only [Counters.rebuild, hstate, hevents]
    rw [Counters.rebuildLoop_eq {} hcounters]
    exact h.counters

/-- Where nothing is archived and the conditions hold, tables and counters are always the rebuilt
ones. -/
theorem tables_match_rebuild (env : Env) (start call : Call) (actions : List ChainAction)
    (hrun : Along (countedStep env) (fun s a =>
      (chainStep env s.net a).coldSegments.length ≤ s.net.coldSegments.length ∧
        a.op.KeepsTables (a.env env) a.call s) ⟨.empty start, {}⟩ actions) :
    ∃ ref, MatchesRebuild env call (run (countedStep env) ⟨.empty start, {}⟩ actions) ref := by
  have hstep : ∀ s a, InStep env.rt s →
      ((chainStep env s.net a).coldSegments.length ≤ s.net.coldSegments.length ∧
        a.op.KeepsTables (a.env env) a.call s) → InStep env.rt (countedStep env s a) :=
    fun s a h hmeets => h.step hmeets.2 hmeets.1
  have hend : InStep env.rt (run (countedStep env) ⟨.empty start, {}⟩ actions) :=
    invariant hstep (InStep.empty env.rt start) hrun
  exact hend.matches call

theorem tables_match_rebuild_message : ∃ ref, MatchesRebuild plainEnv (callAt 1700000002)
    (run (countedStep plainEnv) ⟨.empty (callAt 1), {}⟩ messageRun) ref := by
  have happend : okAnd ((Infonet.empty (callAt 1)).append plainEnv (callAt 1700000000)
      broadcastCall).2 (fun _ => true) = true := by
    decide +kernel
  refine tables_match_rebuild plainEnv (callAt 1) (callAt 1700000002) messageRun ?_
  refine (along_cons ..).mpr ⟨⟨by decide +kernel, ?_⟩,
    (along_cons ..).mpr ⟨⟨by decide +kernel, trivial⟩, trivial⟩⟩
  rintro ⟨fault, hfault⟩
  have hraised : ((Infonet.empty (callAt 1)).append plainEnv (callAt 1700000000)
      broadcastCall).2 = .error fault := hfault
  rw [hraised] at happend
  cases happend

/-- A node that registers. -/
def registerCall : AppendCall := .append {
  eventType := "node_register"
  nodeId := "!sb_a"
  payload := [("public_key", .str "key"), ("public_key_algo", .str "ed25519"),
    ("node_class", .str "heavy")]
  signature := "sig"
  sequence := 1
  ephemeral := false
  publicKey := "key"
  publicKeyAlgo := "Ed25519"
  protocolVersion := ""
  timestampBucketS := 0 }

/-- A node registers, and the chain is reset. -/
def registerRun : List ChainAction :=
  [⟨callAt 1700000000, true, .append registerCall⟩, ⟨callAt 1700000001, true, .resetChain⟩]

/-- The node is still registered on the empty chain. -/
theorem not_tables_match_rebuild : ¬ ∀ (env : Env) (start call : Call)
    (actions : List ChainAction),
    Along (countedStep env) (fun s a =>
      (chainStep env s.net a).coldSegments.length ≤ s.net.coldSegments.length)
      ⟨.empty start, {}⟩ actions →
    ∃ ref, MatchesRebuild env call (run (countedStep env) ⟨.empty start, {}⟩ actions) ref := by
  intro hclaim
  obtain ⟨ref, hmatch⟩ := hclaim plainEnv (callAt 1) (callAt 1700000002) registerRun
    ((along_cons ..).mpr ⟨by decide +kernel, (along_cons ..).mpr ⟨by decide +kernel, trivial⟩⟩)
  have hkept : (run (countedStep plainEnv) ⟨.empty (callAt 1), {}⟩
      registerRun).counters.registeredNodes "!sb_a" = true := by
    decide +kernel
  have hcounters := hmatch.counters
  rw [hcounters] at hkept
  cases hkept

end Vincent.Mesh
