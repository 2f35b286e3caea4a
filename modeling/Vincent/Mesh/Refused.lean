-- SUMMARY: What a refused event leaves behind.
import Vincent.Mesh.Appended

/-!
# Refused events

An append and `ingest_events` bind the key of an event before they check its
signature, and nothing takes the binding back when the event is refused after all.
Everything else that a refused event touches is the rotation of the replay filter.
-/

namespace Vincent.Mesh

open Vincent.Python Vincent.Check Vincent.Run

/-! ## What a refused event can leave -/

namespace Infonet

/-- Nobody owns the key, and the node would. -/
def Unbound (net : Infonet) (publicKey nodeId : String) : Prop :=
  publicKey ≠ "" ∧ nodeId ≠ "" ∧ net.publicKeyBindings publicKey = ""

theorem bindPublicKey_of_unbound {net : Infonet} {publicKey nodeId : String}
    (h : net.Unbound publicKey nodeId) :
    net.bindPublicKey publicKey nodeId = .ok (net.setBinding publicKey nodeId) :=
  bindPublicKey_eq_ok.mpr ⟨h.1, h.2.1, .inl h.2.2, rfl⟩

theorem sameLedger_bind_iff {net bound : Infonet} {publicKey nodeId : String}
    (h : net.bindPublicKey publicKey nodeId = .ok bound) :
    SameLedger bound net ↔ ¬ net.Unbound publicKey nodeId := by
  obtain ⟨hkey, hnode, hfree, rfl⟩ := bindPublicKey_eq_ok.mp h
  constructor
  · rintro hsame ⟨-, -, hnone⟩
    have hbinding := congrFun hsame.publicKeyBindings publicKey
    simp only [setBinding, Function.update_self] at hbinding
    exact hnode (hbinding.trans hnone)
  · intro hbound
    have hown : net.publicKeyBindings publicKey = nodeId :=
      hfree.resolve_left fun hnone => hbound ⟨hkey, hnode, hnone⟩
    refine ⟨rfl, rfl, rfl, rfl, rfl, ?_, rfl⟩
    rw [setBinding, ← hown, Function.update_eq_self]

end Infonet

namespace SameLedger

theorem refl (net : Infonet) : SameLedger net net := ⟨rfl, rfl, rfl, rfl, rfl, rfl, rfl⟩

theorem symm {a b : Infonet} (h : SameLedger a b) : SameLedger b a :=
  ⟨h.events.symm, h.headHash.symm, h.nodeSequences.symm, h.sequenceDomains.symm, h.eventIndex.symm,
    h.publicKeyBindings.symm, h.revocations.symm⟩

theorem trans {a b c : Infonet} (hab : SameLedger a b) (hbc : SameLedger b c) : SameLedger a c :=
  ⟨hab.events.trans hbc.events, hab.headHash.trans hbc.headHash,
    hab.nodeSequences.trans hbc.nodeSequences, hab.sequenceDomains.trans hbc.sequenceDomains,
    hab.eventIndex.trans hbc.eventIndex, hab.publicKeyBindings.trans hbc.publicKeyBindings,
    hab.revocations.trans hbc.revocations⟩

end SameLedger

/-- The checks before the binding pass, and the key is nobody's. -/
def AppendCall.LeavesTrace (env : Env) (call : Call) (net : Infonet) (c : AppendCall) : Prop :=
  (∃ payload, c.checks env call net = .ok payload) ∧ net.Unbound c.publicKey c.nodeId

/-- An append that raises leaves the ledger as it was, but for a new binding. -/
theorem append_refused {env : Env} {call : Call} {net net' : Infonet} {c : AppendCall}
    {fault : Fault} (h : net.append env call c = (net', .error fault)) :
    SameLedger net' net ↔ ¬ c.LeavesTrace env call net := by
  unfold Infonet.append at h
  cases hprepare : c.prepare env call net with
  | mk bound outcome =>
    rw [hprepare] at h
    cases outcome with
    | ok p =>
      -- an event that is prepared is committed
      obtain ⟨happ, rfl⟩ := AppendCall.prepare_eq_ok hprepare
      simp only [happ.commitAppend] at h
      cases h
    | error _ =>
      cases h
      unfold AppendCall.prepare at hprepare
      cases hchecks : c.checks env call net with
      | error _ =>
        rw [hchecks] at hprepare
        cases hprepare
        refine iff_of_true (SameLedger.refl net) ?_
        rintro ⟨⟨payload, hpayload⟩, -⟩
        rw [hchecks] at hpayload
        cases hpayload
      | ok payload =>
        simp only [hchecks] at hprepare
        cases hbind : net.bindPublicKey c.publicKey c.nodeId with
        | error reason =>
          simp only [hbind] at hprepare
          cases hprepare
          refine iff_of_true (SameLedger.refl net) ?_
          rintro ⟨-, hunbound⟩
          rw [Infonet.bindPublicKey_of_unbound hunbound] at hbind
          cases hbind
        | ok withKey =>
          simp only [hbind] at hprepare
          have hsame : net' = withKey := by
            split at hprepare <;> cases hprepare
            rfl
          rw [hsame, Infonet.sameLedger_bind_iff hbind, not_iff_not]
          exact ⟨fun hunbound => ⟨⟨payload, hchecks⟩, hunbound⟩, fun htrace => htrace.2⟩

/-! ## Batches -/

/-- The key and the node that an item of a batch reaches `_bind_public_key` with. -/
def WireItem.binds (env : Env) (call : Call) (net : Infonet) (expectedPrev : String) :
    WireItem → Option (String × String)
  | .event e =>
    match ingestHeader env net e with
    | .error _ => none
    | .ok sequence =>
      match ingestBody env call (net.rotateFilter call) expectedPrev e sequence with
      | .error _ => none
      | .ok () => some (e.publicKey, e.nodeId)
  | .notObject => none
  | .illTyped _ bound _ => bound

/-- An item of a batch where its turn comes. -/
structure Turn where
  net : Infonet
  expectedPrev : String
  item : WireItem

/-- The item passes the checks before the binding, with a key that is nobody's. -/
def Turn.LeavesTrace (env : Env) (call : Call) (t : Turn) : Prop :=
  ∃ publicKey nodeId, t.item.binds env call t.net t.expectedPrev = some (publicKey, nodeId) ∧
    t.net.Unbound publicKey nodeId

/-- The ledger after the turn. -/
def Turn.after (env : Env) (call : Call) (t : Turn) : Infonet :=
  (t.net.ingestItem env call t.expectedPrev t.item).1

/-- The refused items of a batch, each with the ledger it met. An item that raises ends
    the batch. -/
def refusals (env : Env) (call : Call) : List WireItem → String → Infonet → List Turn
  | [], _, _ => []
  | item :: items, expectedPrev, net =>
    match net.ingestItem env call expectedPrev item with
    | (net', .ok ()) => refusals env call items net'.headHash net'
    | (_, .error (.fault (.raised _))) => []
    | (net', .error _) => ⟨net, expectedPrev, item⟩ :: refusals env call items expectedPrev net'

/-- The accepted events of a batch. -/
def acceptedEvents (env : Env) (call : Call) : List WireItem → String → Infonet → List ChainEvent
  | [], _, _ => []
  | item :: items, expectedPrev, net =>
    match net.ingestItem env call expectedPrev item, item with
    | (net', .ok ()), .event e => e :: acceptedEvents env call items net'.headHash net'
    | (net', _), _ => acceptedEvents env call items expectedPrev net'

/-- The same tables, and replay filters that are the same once they are rotated. -/
structure SameNode (call : Call) (a b : Infonet) : Prop extends SameLedger a b where
  filter : (a.rotateFilter call).replayFilter = (b.rotateFilter call).replayFilter

section
variable {env : Env} {call : Call} {net net' : Infonet} {prev : String}

/-- What an item that is refused keeps. -/
structure Refused (env : Env) (call : Call) (net : Infonet) (prev : String) (item : WireItem)
    (kept : Infonet) : Prop where
  kept_eq : ∃ replayFilter publicKeyBindings, kept =
    { net with replayFilter := replayFilter, publicKeyBindings := publicKeyBindings }
  filter : (kept.rotateFilter call).replayFilter = (net.rotateFilter call).replayFilter
  same_iff : SameLedger kept net ↔ ¬ (Turn.mk net prev item).LeavesTrace env call

/-- The ledger, perhaps with its filter rotated. -/
structure Started (call : Call) (net start : Infonet) : Prop where
  start_eq : ∃ replayFilter, start = { net with replayFilter := replayFilter }
  filter : (start.rotateFilter call).replayFilter = (net.rotateFilter call).replayFilter

theorem started_self (net : Infonet) : Started call net net := ⟨⟨_, rfl⟩, rfl⟩

theorem started_rotate (net : Infonet) : Started call net (net.rotateFilter call) :=
  ⟨⟨_, rfl⟩, ReplayFilter.rotateIfNeeded_rotateIfNeeded _ _⟩

theorem Started.same {start : Infonet} (h : Started call net start) : SameLedger start net := by
  obtain ⟨_, rfl⟩ := h.start_eq
  exact ⟨rfl, rfl, rfl, rfl, rfl, rfl, rfl⟩

theorem Started.kept {start : Infonet} (h : Started call net start) :
    ∃ replayFilter publicKeyBindings, start =
      { net with replayFilter := replayFilter, publicKeyBindings := publicKeyBindings } := by
  obtain ⟨replayFilter, rfl⟩ := h.start_eq
  exact ⟨replayFilter, _, rfl⟩

theorem refused_of_none {item : WireItem} {start : Infonet} (hstart : Started call net start)
    (hnone : item.binds env call net prev = none) : Refused env call net prev item start := by
  refine ⟨hstart.kept, hstart.filter, iff_of_true hstart.same ?_⟩
  rintro ⟨key, node, hbinds, -⟩
  cases hnone.symm.trans hbinds

/-- A key that belongs to another node is refused without a trace. -/
theorem refused_of_taken {item : WireItem} {start : Infonet} {key node reason : String}
    (hstart : Started call net start) (hbinds : item.binds env call net prev = some (key, node))
    (hbind : start.bindPublicKey key node = .error reason) :
    Refused env call net prev item start := by
  refine ⟨hstart.kept, hstart.filter, iff_of_true hstart.same ?_⟩
  rintro ⟨key', node', hbinds', hunbound⟩
  cases hbinds.symm.trans hbinds'
  have hfree : start.Unbound key node :=
    ⟨hunbound.1, hunbound.2.1, (congrFun hstart.same.publicKeyBindings key).trans hunbound.2.2⟩
  rw [Infonet.bindPublicKey_of_unbound hfree] at hbind
  cases hbind

theorem refused_of_bound {item : WireItem} {start bound : Infonet} {key node : String}
    (hstart : Started call net start) (hbinds : item.binds env call net prev = some (key, node))
    (hbind : start.bindPublicKey key node = .ok bound) : Refused env call net prev item bound := by
  have hsame : SameLedger bound net ↔ SameLedger bound start :=
    ⟨fun h => h.trans hstart.same.symm, fun h => h.trans hstart.same⟩
  refine ⟨?_, ?_, ?_⟩
  · obtain ⟨-, -, -, rfl⟩ := Infonet.bindPublicKey_eq_ok.mp hbind
    obtain ⟨replayFilter, rfl⟩ := hstart.start_eq
    exact ⟨replayFilter, _, rfl⟩
  · obtain ⟨-, -, -, rfl⟩ := Infonet.bindPublicKey_eq_ok.mp hbind
    exact hstart.filter
  · rw [hsame, Infonet.sameLedger_bind_iff hbind, not_iff_not, Infonet.Unbound,
      hstart.same.publicKeyBindings]
    constructor
    · exact fun hunbound => ⟨key, node, hbinds, hunbound⟩
    · rintro ⟨key', node', hbinds', hunbound⟩
      cases hbinds.symm.trans hbinds'
      exact hunbound

/-- All that an item can do: be accepted, or be refused with at most its binding kept. -/
theorem ingestItem_cases (net : Infonet) (prev : String) (item : WireItem) :
    (∃ e, item = .event e ∧ prev = net.headHash ∧ (Sound env e ∧ Admissible env call net e) ∧
      net.ingestItem env call prev item = (net.commit env call e, .ok ())) ∨
    ∃ skip kept, net.ingestItem env call prev item = (kept, .error skip) ∧
      Refused env call net prev item kept := by
  cases item with
  | notObject => exact .inr ⟨_, net, rfl, refused_of_none (started_self net) rfl⟩
  | illTyped _ bound fault =>
    cases bound with
    | none => exact .inr ⟨_, net, rfl, refused_of_none (started_self net) rfl⟩
    | some kn =>
      obtain ⟨key, node⟩ := kn
      unfold Infonet.ingestItem
      cases hbind : net.bindPublicKey key node with
      | error reason =>
        exact .inr ⟨.fault (.invalid reason), net, by simp only [hbind],
          refused_of_taken (started_self net) rfl hbind⟩
      | ok bound =>
        exact .inr ⟨.fault fault, bound, by simp only [hbind],
          refused_of_bound (started_self net) rfl hbind⟩
  | event e =>
    have hrotate : Started call net (net.rotateFilter call) := started_rotate net
    unfold Infonet.ingestItem Infonet.ingestEvent
    cases hheader : ingestHeader env net e with
    | error skip =>
      refine .inr ⟨skip, net, by simp only [hheader], refused_of_none (started_self net) ?_⟩
      simp only [WireItem.binds, hheader]
    | ok n =>
      cases hbody : ingestBody env call (net.rotateFilter call) prev e n with
      | error skip =>
        refine .inr ⟨skip, net.rotateFilter call, by simp only [hheader, hbody],
          refused_of_none hrotate ?_⟩
        simp only [WireItem.binds, hheader, hbody]
      | ok _ =>
        have hbinds : (WireItem.event e).binds env call net prev = some (e.publicKey, e.nodeId) := by
          simp only [WireItem.binds, hheader, hbody]
        have hprev : prev = (net.rotateFilter call).headHash := ingestBody_expected hbody
        cases hbind : (net.rotateFilter call).bindPublicKey e.publicKey e.nodeId with
        | error reason =>
          exact .inr ⟨.fault (.invalid reason), net.rotateFilter call,
            by simp only [hheader, hbody, hbind], refused_of_taken hrotate hbinds hbind⟩
        | ok bound =>
          cases hbound : ingestBound env call e n with
          | error skip =>
            exact .inr ⟨skip, bound, by simp only [hheader, hbody, hbind, hbound],
              refused_of_bound hrotate hbinds hbind⟩
          | ok _ =>
            obtain rfl : prev = net.headHash := hprev
            obtain ⟨hs, ha⟩ := Infonet.admissible_of_checks hheader hbody hbind hbound
            exact .inl ⟨e, rfl, rfl, ⟨hs, ha⟩, Infonet.ingestEvent_of_admissible hs ha⟩

/-! ## Ledgers that differ in the rotation of the filter -/

theorem SameNode.refl (net : Infonet) : SameNode call net net := ⟨SameLedger.refl net, rfl⟩

theorem SameNode.trans {a b c : Infonet} (hab : SameNode call a b) (hbc : SameNode call b c) :
    SameNode call a c :=
  ⟨hab.toSameLedger.trans hbc.toSameLedger, hab.filter.trans hbc.filter⟩

theorem SameNode.admissible {a b : Infonet} {e : ChainEvent} (h : SameNode call a b)
    (ha : Admissible env call a e) : Admissible env call b e where
  unknown := h.eventIndex ▸ ha.unknown
  unseen := h.filter ▸ ha.unseen
  linked := h.headHash ▸ ha.linked
  sequence := h.lastSequence _ ▸ ha.sequence
  fresh := ha.fresh
  spool hdm := by
    have hspool := ha.spool hdm
    simp only [Infonet.checkDmSpool, Infonet.dmSpoolActiveCounts, h.events] at hspool ⊢
    exact hspool
  notRevoked hrevoked := ha.notRevoked (by simpa [Infonet.revoked, h.revocations] using hrevoked)
  bindable := h.publicKeyBindings ▸ ha.bindable
  hash := ha.hash

theorem SameNode.commit {a b : Infonet} (h : SameNode call a b) (e : ChainEvent) :
    SameNode call (a.commit env call e) (b.commit env call e) := by
  refine ⟨h.toSameLedger.commit env call e, ?_⟩
  have hfilter : ∀ net : Infonet, (net.commit env call e).replayFilter =
      ((net.rotateFilter call).replayFilter).add env call.now e.eventId := by
    intro net
    unfold Infonet.commit Infonet.recordEvent Infonet.setBinding
    simp
  show ((a.commit env call e).replayFilter).rotateIfNeeded call.now =
    ((b.commit env call e).replayFilter).rotateIfNeeded call.now
  rw [hfilter, hfilter, h.filter]

/-- A refused item without a trace leaves the node the same. -/
theorem Refused.sameNode {item : WireItem} {kept : Infonet} (h : Refused env call net prev item kept)
    (htrace : ¬ (Turn.mk net prev item).LeavesTrace env call) : SameNode call kept net :=
  ⟨h.same_iff.mpr htrace, h.filter⟩

/-- If refused items leave no trace, the accepted events are accepted in turn and lead to the same
end. -/
theorem ingestLoop_accepted {items : List WireItem} {idx : Nat} {a b : Infonet}
    {result result' : IngestResult} (hsame : SameNode call a b)
    (h : Infonet.ingestLoop env call items idx a.headHash result a = (net', .ok result'))
    (htraces : ∀ t ∈ refusals env call items a.headHash a, ¬ t.LeavesTrace env call) :
    Infonet.AcceptsAll env call b (acceptedEvents env call items a.headHash a) ∧
      SameNode call net' (b.commitAll env call (acceptedEvents env call items a.headHash a)) ∧
      result'.accepted = result.accepted + (acceptedEvents env call items a.headHash a).length := by
  induction items generalizing idx a b result with
  | nil =>
    simp only [Infonet.ingestLoop, Prod.mk.injEq, Except.ok.injEq] at h
    obtain ⟨rfl, rfl⟩ := h
    exact ⟨trivial, hsame, rfl⟩
  | cons item items ih =>
    rcases @ingestItem_cases env call a a.headHash item with
      ⟨e, rfl, -, ⟨hs, ha⟩, hitem⟩ | ⟨skip, kept, hitem, hrefused⟩
    · simp only [Infonet.ingestLoop, refusals, acceptedEvents, hitem] at h htraces ⊢
      obtain ⟨haccepts, hend, hcount⟩ := ih (hsame.commit e) h htraces
      refine ⟨⟨⟨hs, hsame.admissible ha⟩, haccepts⟩, hend, ?_⟩
      rw [hcount, IngestResult.accept, List.length_cons]
      simp only
      omega
    · have hraised : ∀ exn, skip ≠ .fault (.raised exn) := by
        rintro exn rfl
        simp only [Infonet.ingestLoop, hitem, IngestResult.skip] at h
        cases h
      have hrefusals : refusals env call (item :: items) a.headHash a =
          ⟨a, a.headHash, item⟩ :: refusals env call items a.headHash kept := by
        rw [refusals, hitem]
        split
        · rename_i heq
          cases heq
        · rename_i heq
          cases heq
          exact absurd rfl (hraised _)
        · rename_i heq
          cases heq
          rfl
      have haccepted : acceptedEvents env call (item :: items) a.headHash a =
          acceptedEvents env call items a.headHash kept := by
        conv_lhs => unfold acceptedEvents
        simp only [hitem]
      rw [hrefusals] at htraces
      have hkept := hrefused.sameNode (htraces _ List.mem_cons_self)
      have hhead : a.headHash = kept.headHash := hkept.headHash.symm
      simp only [Infonet.ingestLoop, hitem] at h
      cases hskip : result.skip idx skip with
      | error exn =>
        simp only [hskip] at h
        cases h
      | ok next =>
        simp only [hskip] at h
        rw [haccepted, ← IngestResult.skip_accepted hskip]
        rw [hhead] at h htraces ⊢
        exact ih (hkept.trans hsame) h fun t ht => htraces t (List.mem_cons_of_mem _ ht)

end

/-- Refused items change nothing, and the accepted events alone lead to the same ledger. -/
def BatchTraceless (env : Env) (call : Call) (net : Infonet) (items : List WireItem) : Prop :=
  (∀ t ∈ refusals env call items net.headHash net, SameLedger (t.after env call) t.net) ∧
    ∀ net' result, net.ingestEvents env call items = (net', .ok result) →
      SameLedger net' (net.ingestEvents env call
        ((acceptedEvents env call items net.headHash net).map .event)).1

/-- The refused items are those that `ingest_events` books as rejected or duplicate. -/
theorem mem_refusals {env : Env} {call : Call} {items : List WireItem} {prev : String} {net : Infonet}
    {t : Turn} (h : t ∈ refusals env call items prev net) :
    Refused env call t.net t.expectedPrev t.item (t.after env call) := by
  induction items generalizing prev net with
  | nil => cases h
  | cons item items ih =>
    unfold refusals at h
    rcases @ingestItem_cases env call net prev item with
      ⟨e, rfl, -, -, hitem⟩ | ⟨skip, kept, hitem, hrefused⟩
    · rw [hitem] at h
      exact ih h
    · rw [hitem] at h
      split at h
      · rename_i heq
        cases heq
      · cases h
      · rename_i heq
        cases heq
        rcases List.mem_cons.mp h with rfl | h
        · rw [Turn.after, hitem]
          exact hrefused
        · exact ih h

theorem batchTraceless_iff (env : Env) (call : Call) (net : Infonet) (items : List WireItem) :
    BatchTraceless env call net items ↔
      ∀ t ∈ refusals env call items net.headHash net, ¬ t.LeavesTrace env call := by
  constructor
  · rintro ⟨hsame, -⟩ t ht
    exact (mem_refusals ht).same_iff.mp (hsame t ht)
  · intro htraces
    refine ⟨fun t ht => (mem_refusals ht).same_iff.mpr (htraces t ht), fun net' result h => ?_⟩
    unfold Infonet.ingestEvents at h
    split at h
    · cases h
    · rename_i looped result' hloop
      obtain ⟨haccepts, hend, hcount⟩ := ingestLoop_accepted (SameNode.refl net) hloop htraces
      rw [Infonet.ingestEvents_of_acceptsAll haccepts]
      cases hevents : acceptedEvents env call items net.headHash net with
      | nil =>
        rw [hevents] at hend hcount
        have hnone : ¬ 0 < result'.accepted := by
          rw [hcount]
          decide
        rw [if_neg hnone] at h
        cases h
        exact hend.toSameLedger
      | cons e es =>
        rw [hevents] at hend hcount
        have hsome : 0 < result'.accepted := by
          rw [hcount, List.length_cons]
          omega
        rw [if_pos hsome] at h
        cases h
        exact hend.toSameLedger.invalidateMerkleCache.save

/-- A node to run examples on, where only one signature verifies. -/
def strictEnv : Env := { plainEnv with verifySignature := fun _ _ signature _ => signature == "owner" }

end Vincent.Mesh
