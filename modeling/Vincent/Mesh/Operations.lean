-- SUMMARY: The operations of a running ledger as one step function.
import Vincent.Mesh.ForkAtomic

/-!
# Operations

A running ledger changes by appends, batches, forks, cleanup, reset and saves.
`chainStep` is one of them, at a time and with the event types known by then. Each
operation is a sequence of elementary changes, or replaces the hot chain and
rebuilds the tables from it.
-/

namespace Vincent.Mesh

open Vincent.Python Vincent.Check Vincent.LinkedChain Relation

/-- An operation, with its arguments. -/
inductive ChainOp where
  | append (c : AppendCall)
  | ingestEvents (items : List WireItem)
  | applyFork (events : List ChainEvent) (headHash : String) (proofCount quorum : Int)
  | cleanup
  | resetChain
  | save

/-- The ledger after the operation, whatever it returned. -/
def ChainOp.apply (env : Env) (call : Call) (net : Infonet) : ChainOp → Infonet
  | .append c => (net.append env call c).1
  | .ingestEvents items => (net.ingestEvents env call items).1
  | .applyFork events headHash proofCount quorum =>
    (net.applyFork env call events headHash proofCount quorum).1
  | .cleanup => (net.cleanup env call).1
  | .resetChain => net.resetChain call
  | .save => net.save

/-- An operation of a run. The event types can be extended while the node runs. -/
structure ChainAction where
  call : Call
  cutoverDone : Bool
  op : ChainOp

/-- The node at the time of the action. -/
def ChainAction.env (env : Env) (a : ChainAction) : Env := { env with cutoverDone := a.cutoverDone }

def chainStep (env : Env) (net : Infonet) (a : ChainAction) : Infonet :=
  a.op.apply (a.env env) a.call net

/-! ## Replacing the hot chain -/

namespace Infonet

/-- The ledger with other hot events and the tables rebuilt from them. -/
def replaced (env : Env) (call : Call) (net : Infonet) (events : List ChainEvent) : Infonet :=
  (rebuiltState env call { net with events := events }).invalidateMerkleCache.save

theorem save_of_gt {net : Infonet} (h : ¬ net.events.length ≤ maxChainMemory) :
    net.save.coldSegments.length = net.coldSegments.length + 1 ∧
    net.save.events = net.events.drop (net.events.length - maxChainMemory) ∧
    net.save.lastValidatedIndex = net.lastValidatedIndex := by
  simp only [save, enforceMemoryCap, h, if_false, invalidateMerkleCache, List.length_append,
    List.length_singleton, and_self]

theorem save_coldSegments_length (net : Infonet) :
    net.save.coldSegments.length = net.coldSegments.length ∧ net.save.events = net.events ∨
      net.save.coldSegments.length = net.coldSegments.length + 1 := by
  by_cases hle : net.events.length ≤ maxChainMemory
  · simp only [save_of_le hle, and_self, true_or]
  · exact .inr (save_of_gt hle).1

@[simp] theorem save_lastValidatedIndex (net : Infonet) :
    net.save.lastValidatedIndex = net.lastValidatedIndex := by
  by_cases hle : net.events.length ≤ maxChainMemory
  · rw [save_of_le hle]
  · exact (save_of_gt hle).2.2

theorem mem_save {net : Infonet} {e : ChainEvent} (h : e ∈ net.save.events) : e ∈ net.events := by
  by_cases hle : net.events.length ≤ maxChainMemory
  · rwa [save_of_le hle] at h
  · rw [(save_of_gt hle).2.1] at h
    exact List.mem_of_mem_drop h

@[simp] theorem commit_lastValidatedIndex (env : Env) (call : Call) (net : Infonet)
    (e : ChainEvent) : (net.commit env call e).lastValidatedIndex = net.lastValidatedIndex := by
  unfold commit recordEvent setSequence
  simp only
  split <;> rfl

section
variable (env : Env) (call : Call) (net : Infonet) (events : List ChainEvent)

theorem rebuiltState_frame :
    (rebuiltState env call { net with events := events }).events = events ∧
    (rebuiltState env call { net with events := events }).coldSegments = net.coldSegments :=
  ⟨rebuiltAll_events events 0 _, rebuiltAll_coldSegments events 0 _⟩

theorem replaced_headHash : (net.replaced env call events).headHash = lastEventId events := by
  unfold replaced
  rw [save_headHash]
  exact congrArg lastEventId (rebuiltAll_events events 0 _)

/-- Where nothing is archived on the way, the hot chain is the given one. -/
theorem replaced_events (h : (net.replaced env call events).coldSegments.length ≤
    net.coldSegments.length) : (net.replaced env call events).events = events := by
  obtain ⟨hevents, hcold⟩ := rebuiltState_frame env call net events
  unfold replaced at h ⊢
  rcases save_coldSegments_length (rebuiltState env call { net with events := events }
    ).invalidateMerkleCache with ⟨-, hsame⟩ | hmore
  · rw [hsame]
    exact hevents
  · have hcold' : (rebuiltState env call { net with events := events }
        ).invalidateMerkleCache.coldSegments = net.coldSegments := hcold
    rw [hmore, hcold'] at h
    omega

theorem mem_replaced {e : ChainEvent} (h : e ∈ (net.replaced env call events).events) :
    e ∈ events := by
  obtain ⟨hevents, -⟩ := rebuiltState_frame env call net events
  have hmem := mem_save h
  rw [show (rebuiltState env call { net with events := events }).invalidateMerkleCache.events =
    events from hevents] at hmem
  exact hmem

/-- A rebuild leaves the validation mark alone, also when it raises. -/
theorem rebuildEvent_lastValidatedIndex (idx : Nat) (e : ChainEvent) :
    (net.rebuildEvent env call idx e).1.lastValidatedIndex = net.lastValidatedIndex := by
  have hindex : (net.indexEvent env call idx e).lastValidatedIndex = net.lastValidatedIndex := by
    unfold indexEvent
    split <;> rfl
  have hbound : ∀ n, (((net.indexEvent env call idx e).raiseSequence env.rt e n).bindFirst
      e).lastValidatedIndex = net.lastValidatedIndex := by
    intro n
    rw [← hindex]
    unfold raiseSequence bindFirst setSequence
    simp only
    split_ifs <;> (try split) <;> rfl
  unfold rebuildEvent
  split
  · exact hindex
  · rename_i n _
    simp only
    split
    · exact hbound n
    · rename_i happly
      obtain ⟨-, rfl⟩ := applyIfRevocation_eq_ok.mp happly
      exact hbound n

theorem rebuildLoop_lastValidatedIndex (es : List ChainEvent) (idx : Nat) :
    (rebuildLoop env call es idx net).1.lastValidatedIndex = net.lastValidatedIndex := by
  induction es generalizing idx net with
  | nil => rfl
  | cons e es ih =>
    have hevent := rebuildEvent_lastValidatedIndex env call net idx e
    unfold rebuildLoop
    split
    · rename_i hfail
      rw [← hevent, hfail]
    · rename_i hok
      rw [ih, ← hevent, hok]

theorem rebuild_lastValidatedIndex :
    (rebuild env call net).1.lastValidatedIndex = net.lastValidatedIndex := by
  have hloop := rebuildLoop_lastValidatedIndex env call (net.clearTables call) net.events 0
  unfold rebuild rebuildState
  cases hrun : rebuildLoop env call net.events 0 (net.clearTables call) with
  | mk net' outcome =>
    rw [hrun] at hloop
    cases outcome <;> exact hloop

end

/-! ## What an operation does -/

/-- `apply_fork` does nothing, replaces the hot chain by a checked fork, or raises in the
rebuild. -/
theorem applyFork_cases (env : Env) (call : Call) (net : Infonet) (events : List ChainEvent) (headHash : String) (proofCount quorum : Int) :
    (net.applyFork env call events headHash proofCount quorum).1 = net ∨
    ∃ plan, net.checkFork env call events headHash proofCount quorum = .ok plan ∧
      let forked := net.events.take (plan.prevIndex + 1) ++ plan.ordered
      ((∀ e ∈ forked, ForkReadable env.rt e) ∧
        (net.applyFork env call events headHash proofCount quorum).1 =
          net.replaced env call forked ∨
      (¬ ∀ e ∈ forked, ForkReadable env.rt e) ∧
        (net.applyFork env call events headHash proofCount quorum).1 =
          (rebuild env call { net with events := forked }).1) := by
  unfold applyFork
  cases hcheck : net.checkFork env call events headHash proofCount quorum with
  | error fault => cases fault <;> exact .inl rfl
  | ok plan =>
    refine .inr ⟨plan, rfl, ?_⟩
    simp only [forkReadable_iff]
    cases hrebuild : rebuild env call
        { net with events := net.events.take (plan.prevIndex + 1) ++ plan.ordered } with
    | mk net' outcome =>
      cases outcome with
      | ok _ =>
        obtain ⟨hread, hcounters, rfl⟩ := rebuild_eq_ok.mp hrebuild
        exact .inl ⟨⟨hread, hcounters⟩, rfl⟩
      | error exn =>
        refine .inr ⟨fun ⟨hread, hcounters⟩ => ?_, rfl⟩
        rw [rebuild_eq_ok.mpr ⟨hread, hcounters, rfl⟩] at hrebuild
        cases hrebuild

/-- So for `cleanup`, with the events that have not expired. -/
theorem cleanup_cases (env : Env) (call : Call) (net : Infonet) :
    (net.cleanup env call).1 = net ∨
    ∃ kept, unexpired env call.now net.events = .ok kept ∧ kept.length ≠ net.events.length ∧
      ((∀ e ∈ kept, ForkReadable env.rt e) ∧
        (net.cleanup env call).1 = net.replaced env call kept ∨
      (¬ ∀ e ∈ kept, ForkReadable env.rt e) ∧
        (net.cleanup env call).1 = (rebuild env call { net with events := kept }).1) := by
  unfold cleanup
  cases hkept : unexpired env call.now net.events with
  | error exn => exact .inl rfl
  | ok kept =>
    simp only
    split
    · exact .inl rfl
    · rename_i hdrop
      refine .inr ⟨kept, rfl, hdrop, ?_⟩
      simp only [forkReadable_iff]
      cases hrebuild : rebuild env call { net with events := kept } with
      | mk net' outcome =>
        cases outcome with
        | ok _ =>
          obtain ⟨hread, hcounters, rfl⟩ := rebuild_eq_ok.mp hrebuild
          exact .inl ⟨⟨hread, hcounters⟩, rfl⟩
        | error exn =>
          refine .inr ⟨fun ⟨hread, hcounters⟩ => ?_, rfl⟩
          rw [rebuild_eq_ok.mpr ⟨hread, hcounters, rfl⟩] at hrebuild
          cases hrebuild

/-- `cleanup` keeps events in their order. -/
theorem sublist_of_unexpired {env : Env} {now : ℚ} {es kept : List ChainEvent}
    (h : unexpired env now es = .ok kept) : List.Sublist kept es := by
  induction es generalizing kept with
  | nil =>
    cases h
    exact List.Sublist.refl _
  | cons e es ih =>
    simp only [unexpired, bind_eq_ok, pure_eq_ok] at h
    obtain ⟨drop, -, rest, hrest, rfl⟩ := h
    split
    · exact (ih hrest).trans (List.sublist_cons_self e es)
    · exact (ih hrest).cons_cons e

end Infonet

/-- An operation that is no replacement is a sequence of elementary changes. -/
theorem chainStep_advances {env : Env} {net : Infonet} {a : ChainAction} (hfork : ∀ events headHash proofCount quorum,
      a.op ≠ .applyFork events headHash proofCount quorum)
    (hcleanup : a.op ≠ .cleanup) (hreset : a.op ≠ .resetChain) :
    Advances (a.env env) a.call net (chainStep env net a) := by
  unfold chainStep
  cases hop : a.op with
  | append c => exact advances_append net c
  | ingestEvents items => exact advances_ingestEvents net items
  | applyFork events headHash proofCount quorum => exact absurd hop (hfork _ _ _ _)
  | cleanup => exact absurd hop hcleanup
  | resetChain => exact absurd hop hreset
  | save => exact .single (.save net)

/-! ## Where new events come from -/

section
variable {env : Env} {call : Call} {net net' : Infonet}

/-- An elementary change brings in no event but one whose hash was checked. -/
theorem Advance.mem_events {e : ChainEvent} (h : Advance env call net net')
    (he : e ∈ net'.events) : e ∈ net.events ∨ ChainEvent.hashMatches env call e = true := by
  cases h with
  | commit hacc =>
    rw [Infonet.commit_events, List.mem_append, List.mem_singleton] at he
    exact he.imp_right fun heq => by rw [heq]; exact hacc.hash
  | bind _ => exact .inl he
  | rotate => exact .inl he
  | invalidate => exact .inl he
  | save => exact .inl (Infonet.mem_save he)

theorem Advances.mem_events {e : ChainEvent} (h : Advances env call net net')
    (he : e ∈ net'.events) : e ∈ net.events ∨ ChainEvent.hashMatches env call e = true := by
  induction h with
  | refl => exact .inl he
  | tail _ hstep ih =>
    rcases hstep.mem_events he with hold | hnew
    · exact ih hold
    · exact .inr hnew

theorem Infonet.bindPublicKey_events {key node : String}
    (h : net.bindPublicKey key node = .ok net') : net'.events = net.events := by
  obtain ⟨-, -, -, rfl⟩ := Infonet.bindPublicKey_eq_ok.mp h
  rfl

theorem mem_ingestItem {prev : String} {item : WireItem} {e : ChainEvent}
    (he : e ∈ (net.ingestItem env call prev item).1.events) : e ∈ net.events ∨ item = .event e := by
  cases item with
  | notObject => exact .inl he
  | illTyped _ bound fault =>
    cases bound with
    | none => exact .inl he
    | some kn =>
      unfold Infonet.ingestItem at he
      cases hbind : net.bindPublicKey kn.1 kn.2 with
      | error reason =>
        simp only [hbind] at he
        exact .inl he
      | ok bound =>
        simp only [hbind] at he
        exact .inl (Infonet.bindPublicKey_events hbind ▸ he)
  | event e₀ =>
    unfold Infonet.ingestItem Infonet.ingestEvent at he
    cases hheader : ingestHeader env net e₀ with
    | error skip =>
      simp only [hheader] at he
      exact .inl he
    | ok n =>
      cases hbody : ingestBody env call (net.rotateFilter call) prev e₀ n with
      | error skip =>
        simp only [hheader, hbody] at he
        exact .inl he
      | ok _ =>
        cases hbind : (net.rotateFilter call).bindPublicKey e₀.publicKey e₀.nodeId with
        | error reason =>
          simp only [hheader, hbody, hbind] at he
          exact .inl he
        | ok bound =>
          have hbound : bound.events = (net.rotateFilter call).events :=
            Infonet.bindPublicKey_events hbind
          rw [show (net.rotateFilter call).events = net.events from rfl] at hbound
          cases hlast : ingestBound env call e₀ n with
          | error skip =>
            simp only [hheader, hbody, hbind, hlast] at he
            exact .inl (hbound ▸ he)
          | ok _ =>
            simp only [hheader, hbody, hbind, hlast] at he
            -- the event is recorded before its revocation is looked at
            have hrecorded : ∀ slot m, (bound.recordEvent env call slot m e₀).events =
                net.events ++ [e₀] := fun slot m => by simp [Infonet.recordEvent, hbound]
            have hmem : e ∈ net.events ++ [e₀] := by
              split at he
              · rwa [hrecorded] at he
              · rename_i happly
                obtain ⟨-, rfl⟩ := Infonet.applyIfRevocation_eq_ok.mp happly
                rwa [Infonet.withRevocation_events, hrecorded] at he
            exact (List.mem_append.mp hmem).imp_right fun h => by rw [List.mem_singleton.mp h]

theorem mem_ingestLoop {items : List WireItem} {idx : Nat} {prev : String} {result : IngestResult}
    {e : ChainEvent} (he : e ∈ (Infonet.ingestLoop env call items idx prev result net).1.events) :
    e ∈ net.events ∨ .event e ∈ items := by
  induction items generalizing idx prev result net with
  | nil => exact .inl he
  | cons item items ih =>
    have hitem : ∀ net₁ r, net.ingestItem env call prev item = (net₁, r) → e ∈ net₁.events →
        e ∈ net.events ∨ .event e ∈ item :: items := by
      intro net₁ r hstep he₁
      have hfirst : e ∈ (net.ingestItem env call prev item).1.events := by rw [hstep]; exact he₁
      refine (mem_ingestItem hfirst).imp_right fun h => ?_
      exact h ▸ List.mem_cons_self
    unfold Infonet.ingestLoop at he
    split at he
    · rename_i hstep
      exact (ih he).elim (hitem _ _ hstep) fun h => .inr (List.mem_cons_of_mem _ h)
    · rename_i hstep
      split at he
      · exact hitem _ _ hstep he
      · exact (ih he).elim (hitem _ _ hstep) fun h => .inr (List.mem_cons_of_mem _ h)

theorem mem_ingestEvents {items : List WireItem} {e : ChainEvent}
    (he : e ∈ (net.ingestEvents env call items).1.events) : e ∈ net.events ∨ .event e ∈ items := by
  unfold Infonet.ingestEvents at he
  split at he
  · rename_i heq
    exact mem_ingestLoop (by rw [heq]; exact he)
  · rename_i heq
    have hloop : ∀ net₁ r, Infonet.ingestLoop env call items 0 net.headHash {} net = (net₁, r) →
        e ∈ net₁.events → e ∈ net.events ∨ .event e ∈ items := fun net₁ r heq he =>
      mem_ingestLoop (by rw [heq]; exact he)
    split at he
    · have hmem := Infonet.mem_save he
      exact hloop _ _ heq hmem
    · exact hloop _ _ heq he

/-- The new event of an append carries a timestamp, and its hash is right for good. -/
theorem mem_append_events {c : AppendCall} {e : ChainEvent}
    (he : e ∈ (net.append env call c).1.events) :
    e ∈ net.events ∨ ∀ later, ChainEvent.hashMatches env later e = true := by
  unfold Infonet.append at he
  split at he
  · rename_i hfail
    refine .inl ?_
    unfold AppendCall.prepare at hfail
    split at hfail
    · cases hfail
      exact he
    · split at hfail
      · cases hfail
        exact he
      · rename_i hbind
        split at hfail
        · cases hfail
          exact Infonet.bindPublicKey_events hbind ▸ he
        · cases hfail
  · rename_i hprep
    obtain ⟨happ, rfl⟩ := AppendCall.prepare_eq_ok hprep
    rw [happ.commitAppend] at he
    have hmem := Infonet.mem_save he
    simp only [Infonet.invalidateMerkleCache, Infonet.commit_events, List.mem_append,
      List.mem_singleton] at hmem
    exact hmem.imp_right fun h => by rw [h]; exact happ.hash

theorem hash_of_checkForkEvents {checker : Infonet} {prevIndex : Nat} {es : List ChainEvent}
    {maps maps' : ForkMaps} (h : checker.checkForkEvents env call prevIndex es maps = .ok maps') :
    ∀ e ∈ es, ChainEvent.hashMatches env call e = true := by
  induction es generalizing maps with
  | nil => simp
  | cons e es ih =>
    simp only [Infonet.checkForkEvents, bind_eq_ok] at h
    obtain ⟨maps₁, hcheck, hrest⟩ := h
    exact List.forall_mem_cons.mpr ⟨(forkChecked_of_checkForkEvent hcheck).1.hash, ih hrest⟩

end

end Vincent.Mesh
