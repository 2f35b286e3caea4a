-- SUMMARY: `apply_fork` leaves the old ledger, or a longer chain.
import Vincent.Mesh.ForkAdmission

/-!
# Forks are applied as a whole

Every check of `apply_fork` is made before it touches the ledger. The rebuild after it
reads fields that no check has read: `ForkReadable` says that it can.
-/

namespace Vincent.Mesh

open Vincent.Python Vincent.Check Vincent.LinkedChain

/-! ## What a fork is checked against -/

/-- The fork leads from an event near the head to the given head, and is longer than what it
replaces. -/
structure Planned (net : Infonet) (headHash : String) (plan : ForkPlan) : Prop where
  near : (net.events.length : Int) - 1 - plan.prevIndex ≤ chainLockDepth
  head : (plan.ordered.getLast?.map (·.eventId)).getD "" = headHash
  nonempty : plan.ordered ≠ []
  longer : (net.events.length : Int) - 1 - plan.prevIndex < plan.ordered.length

theorem planned_of_planFork {net : Infonet} {events : List ChainEvent} {headHash : String}
    {proofCount quorum : Int} {plan : ForkPlan}
    (h : net.planFork events headHash proofCount quorum = .ok plan) :
    Planned net headHash plan := by
  unfold Infonet.planFork at h
  cases events with
  | nil => cases h
  | cons first rest =>
    simp only [↓check_bind_eq_ok, require_eq_ok] at h
    obtain ⟨-, -, h⟩ := h
    cases hindex : net.eventIndex first.prevHash with
    | none => simp [hindex] at h
    | some prevIndex =>
      simp only [hindex, ↓check_bind_eq_ok, bind_eq_ok, require_eq_ok, pure_eq_ok] at h
      obtain ⟨-, hnear, ordered, -, hnonempty, hhead, hlonger, rfl⟩ := h
      exact ⟨hnear, hhead, hnonempty, hlonger⟩

theorem planned_of_checkFork {env : Env} {call : Call} {net : Infonet} {events : List ChainEvent}
    {headHash : String} {proofCount quorum : Int} {plan : ForkPlan}
    (h : net.checkFork env call events headHash proofCount quorum = .ok plan) :
    Planned net headHash plan := by
  unfold Infonet.checkFork at h
  simp only [bind_eq_ok, orFail_eq_ok, pure_eq_ok] at h
  obtain ⟨plan', hplan, _, _, _, _, rfl⟩ := h
  exact planned_of_planFork hplan

/-- The maps know every counter of the events that have entered them. -/
structure ForkMaps.Covers (rt : Runtime) (before : List ChainEvent) (maps : ForkMaps) : Prop where
  nonneg : ∀ key, 0 ≤ maps.lastSeq key
  counted : ∀ e ∈ before, e.nodeId ≠ "" → e.seqNum rt ≤ maps.lastSeq (e.slot rt).key

namespace ForkMaps.Covers

variable {env : Env} {before : List ChainEvent} {maps maps' : ForkMaps} {e : ChainEvent}

/-- Whoever only raises counters, up to that of one more event, covers that event too. -/
theorem add (h : maps.Covers env.rt before) (hmono : ∀ key, maps.lastSeq key ≤ maps'.lastSeq key)
    (hnew : e.nodeId ≠ "" → e.seqNum env.rt ≤ maps'.lastSeq (e.slot env.rt).key) :
    maps'.Covers env.rt (before ++ [e]) where
  nonneg key := (h.nonneg key).trans (hmono key)
  counted e' he' hnode := by
    rcases List.mem_append.mp he' with hold | hlast
    · exact (h.counted e' hold hnode).trans (hmono _)
    · obtain rfl := List.mem_singleton.mp hlast
      exact hnew hnode

theorem addPrefix (h : maps.Covers env.rt before) (hmaps : maps.addPrefix env e = .ok maps') :
    maps'.Covers env.rt (before ++ [e]) := by
  obtain rfl := ForkMaps.addPrefix_eq_ok hmaps
  refine h.add (fun key => ?_) fun hnode => ?_
  · have hupdate : maps.lastSeq key ≤ Function.update maps.lastSeq (e.slot env.rt).key
        (max (maps.lastSeq (e.slot env.rt).key) (e.seqNum env.rt)) key := by
      rw [Function.update_apply]
      split
      · rename_i hkey
        rw [hkey]
        exact le_max_left _ _
      · exact le_rfl
    dsimp only
    split
    · exact hupdate
    · exact le_rfl
  · have hzero := h.nonneg (e.slot env.rt).key
    by_cases hcount : e.seqNum env.rt = 0
    · simpa [hcount] using hzero
    · simp [hnode, hcount]

theorem ofPrefix {es : List ChainEvent} (h : maps.Covers env.rt before)
    (hmaps : ForkMaps.ofPrefix env es maps = .ok maps') : maps'.Covers env.rt (before ++ es) := by
  induction es generalizing before maps with
  | nil =>
    cases hmaps
    simpa using h
  | cons e es ih =>
    simp only [ForkMaps.ofPrefix, bind_eq_ok] at hmaps
    obtain ⟨maps₁, hadd, hrest⟩ := hmaps
    simpa using ih (h.addPrefix hadd) hrest

theorem addForked {call : Call} (h : maps.Covers env.rt before)
    (hchecked : ForkChecked env call maps e) :
    (maps.addForked env.rt e).Covers env.rt (before ++ [e]) := by
  have hlast := hchecked.sequence
  refine h.add (fun key => ?_) fun _ => by simp [ForkMaps.addForked]
  simp only [ForkMaps.addForked, Function.update_apply]
  split
  · rename_i hkey
    rw [hkey]
    exact hlast.le
  · exact le_rfl

/-- Each event of a checked fork has a sequence above all earlier ones of its counter. -/
theorem increasing {call : Call} {checker : Infonet} {prevIndex : Nat} {ordered : List ChainEvent}
    (h : maps.Covers env.rt before)
    (hchecks : checker.checkForkEvents env call prevIndex ordered maps = .ok maps') :
    ∀ pre e post, ordered = pre ++ e :: post → e.nodeId ≠ "" ∧
      ∀ e' ∈ before ++ pre, e'.nodeId = e.nodeId → e'.slot env.rt = e.slot env.rt →
        e'.seqNum env.rt < e.seqNum env.rt := by
  induction ordered generalizing before maps with
  | nil => simp
  | cons first rest ih =>
    simp only [Infonet.checkForkEvents, bind_eq_ok] at hchecks
    obtain ⟨maps₁, hcheck, hrest⟩ := hchecks
    obtain ⟨hchecked, rfl⟩ := forkChecked_of_checkForkEvent hcheck
    intro pre e post hsplit
    cases pre with
    | nil =>
      obtain ⟨rfl, rfl⟩ : first = e ∧ rest = post := by simpa using hsplit
      refine ⟨hchecked.nodeId, fun e' he' hnode hslot => ?_⟩
      have hcounted := h.counted e' (by simpa using he') (hnode ▸ hchecked.nodeId)
      rw [hslot] at hcounted
      exact lt_of_le_of_lt hcounted hchecked.sequence
    | cons e₀ pre =>
      obtain ⟨rfl, hrest'⟩ : first = e₀ ∧ rest = pre ++ e :: post := by simpa using hsplit
      simpa using ih (h.addForked hchecked) hrest pre e post hrest'

end ForkMaps.Covers

/-! ## The law -/

/-- The chain and its tables are the same. -/
structure Unchanged (net net' : Infonet) : Prop where
  events : net'.events = net.events
  headHash : net'.headHash = net.headHash
  eventIndex : net'.eventIndex = net.eventIndex
  nodeSequences : net'.nodeSequences = net.nodeSequences
  sequenceDomains : net'.sequenceDomains = net.sequenceDomains
  publicKeyBindings : net'.publicKeyBindings = net.publicKeyBindings
  revocations : net'.revocations = net.revocations

theorem Unchanged.refl (net : Infonet) : Unchanged net net := ⟨rfl, rfl, rfl, rfl, rfl, rfl, rfl⟩

/-- The history goes on from a prefix of the hot chain, behind the archive, with the fork. -/
structure ForkExtends (env : Env) (net : Infonet) (headHash : String) (net' : Infonet)
    (kept added : List ChainEvent) : Prop where
  prefixed : kept <+: net.events
  history : net'.history = net.archived ++ kept ++ added
  longer : net.history.length < net'.history.length
  locked : ∀ i e, net.events[i]? = some e → i + chainLockDepth < net.events.length - 1 →
    net'.history[net.archived.length + i]? = some e
  linked : Linked ChainEvent.eventId ChainEvent.prevHash (Infonet.lastEventId kept) added
  ends : Infonet.lastEventId (kept ++ added) = headHash ∧ net'.headHash = headHash
  increasing : ∀ pre e post, added = pre ++ e :: post →
    ∀ e' ∈ kept ++ pre, e'.nodeId = e.nodeId → e'.slot env.rt = e.slot env.rt →
      e'.seqNum env.rt < e.seqNum env.rt

/-- `apply_fork` refuses or raises and leaves the ledger as it was, or extends it. -/
structure AppliesAtomically (env : Env) (call : Call) (net : Infonet) (events : List ChainEvent)
    (headHash : String) (proofCount quorum : Int) : Prop where
  refused : ∀ net' reason, net.applyFork env call events headHash proofCount quorum =
    (net', .ok (false, reason)) → Unchanged net net'
  raised : ∀ net' exn, net.applyFork env call events headHash proofCount quorum =
    (net', .error exn) → Unchanged net net'
  applied : ∀ net' reason, net.applyFork env call events headHash proofCount quorum =
    (net', .ok (true, reason)) → ∃ kept added, ForkExtends env net headHash net' kept added

/-- The rebuild after a fork can read the event. -/
structure ForkReadable (rt : Runtime) (e : ChainEvent) : Prop where
  tables : Rebuildable rt e
  counters : Infonet.rebuildCounters rt [e] = .ok ()

theorem forkReadable_iff {rt : Runtime} {es : List ChainEvent} :
    (∀ e ∈ es, ForkReadable rt e) ↔
      (∀ e ∈ es, Rebuildable rt e) ∧ Infonet.rebuildCounters rt es = .ok () := by
  rw [Infonet.rebuildCounters_eq_ok]
  exact ⟨fun h => ⟨fun e he => (h e he).tables, fun e he => (h e he).counters⟩,
    fun h e he => ⟨h.1 e he, h.2 e he⟩⟩

section
variable {env : Env} {call : Call} {net : Infonet} {events : List ChainEvent} {headHash : String}
  {proofCount quorum : Int} {plan : ForkPlan}

/-- A fork that passes the checks makes the hot chain longer. -/
theorem Planned.length_lt (h : Planned net headHash plan) (hindex : plan.prevIndex < net.events.length) :
    net.events.length < (net.events.take (plan.prevIndex + 1) ++ plan.ordered).length := by
  have := h.longer
  rw [List.length_append, List.length_take]
  omega

/-- A checked fork extends the chain by its events. -/
theorem forkExtends_of_checkFork (hindexed : net.Indexed)
    (hcheck : net.checkFork env call events headHash proofCount quorum = .ok plan) {net' : Infonet}
    (hhistory : net'.history = net.archived ++ (net.events.take (plan.prevIndex + 1) ++ plan.ordered))
    (hhead : net'.headHash =
      Infonet.lastEventId (net.events.take (plan.prevIndex + 1) ++ plan.ordered)) :
    ForkExtends env net headHash net' (net.events.take (plan.prevIndex + 1)) plan.ordered := by
  obtain ⟨prevHash, maps, maps', hindex, horder, hmaps, hforked⟩ := Infonet.checkFork_eq_ok hcheck
  have hplanned := planned_of_checkFork hcheck
  obtain ⟨ancestor, hat, -⟩ := hindexed prevHash _ hindex
  have hlt : plan.prevIndex < net.events.length := (List.getElem?_eq_some_iff.mp hat).1
  have hlonger := hplanned.length_lt hlt
  have hends : Infonet.lastEventId (net.events.take (plan.prevIndex + 1) ++ plan.ordered) =
      headHash := by
    have hhead' := hplanned.head
    obtain ⟨es, e, hes⟩ := (List.eq_nil_or_concat' plan.ordered).resolve_left hplanned.nonempty
    rw [hes] at hhead' ⊢
    simpa [Infonet.lastEventId, ← List.append_assoc] using hhead'
  have hcovers : maps.Covers env.rt (net.events.take (plan.prevIndex + 1)) := by
    have hempty : ({} : ForkMaps).Covers env.rt [] := ⟨fun _ => le_rfl, by simp⟩
    simpa using hempty.ofPrefix hmaps
  exact {
    prefixed := List.take_prefix _ _
    history := by rw [hhistory, List.append_assoc]
    longer := by
      rw [hhistory, Infonet.history_eq, List.length_append, List.length_append]
      omega
    locked := fun i e hi hlock => by
      have hnear := hplanned.near
      have hkept : i < plan.prevIndex + 1 := by omega
      rw [hhistory, List.getElem?_append_right (by omega), Nat.add_sub_cancel_left,
        List.getElem?_append_left (by rw [List.length_take]; omega),
        List.getElem?_take_of_lt hkept, hi]
    linked := by
      rw [hindexed.lastEventId_take hindex]
      exact horder.linked
    ends := ⟨hends, hhead.trans hends⟩
    increasing := fun pre e post hsplit => (hcovers.increasing hforked pre e post hsplit).2 }

end

/-! ## Forks of one message -/

/-- One more message after the head, ephemeral, with a text where its timestamp should be. -/
def textStampFork : List ChainEvent :=
  messageLedger.events.map fun e => .init plainEnv (callAt 1700000010)
    { e with prevHash := e.eventId
             payload := Dict.set e.payload "ephemeral" (.bool true)
             timestamp := .str "soon"
             sequence := .int 2 }

end Vincent.Mesh
