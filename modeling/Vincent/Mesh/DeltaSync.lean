-- SUMMARY: Delta sync: linked pages, and the rounds that catch a peer up.
import Vincent.Mesh.Serve
import Vincent.Mesh.Validate

/-!
# Delta sync

A peer that is behind asks with a locator of its own chain and appends what it
gets. The genesis hash stands for the start of the hot chain, whatever event that
is by then, and an id stands for the position that the index has for it.
-/

namespace Vincent.Mesh

open Vincent.Python Vincent.Check Vincent.Run Vincent.LinkedChain

namespace Infonet

/-- The page for a locator is linked to the hash that it matched, if it matched one. -/
def PageLinked (net : Infonet) (locator : List String) (limit : Nat) : Prop :=
  let page := net.getEventsAfterLocator locator limit
  page.1 ≠ "" → Linked ChainEvent.eventId ChainEvent.prevHash page.1 page.2.2

/-- One round of a peer: it asks with its locator and appends the page. -/
def syncRound (server : Infonet) (limit maxEntries : Nat) (peer : Infonet) : Infonet :=
  { peer with
    events := peer.events ++
      (server.getEventsAfterLocator (peer.getLocator maxEntries) limit).2.2 }

/-- The peer's head is the ancestor that is found, and enough rounds bring it to the
    server's chain. -/
structure CatchesUp (server : Infonet) (limit maxEntries : Nat) (peer : Infonet) : Prop where
  ancestor : (server.getEventsAfterLocator (peer.getLocator maxEntries) limit).1 =
    lastEventId peer.events
  start : (server.getEventsAfterLocator (peer.getLocator maxEntries) limit).2.1 =
    peer.events.length
  rounds : ((syncRound server limit maxEntries)^[
    (server.events.length - peer.events.length + limit - 1) / limit] peer).events = server.events

/-- The pages are linked, and a peer that is behind on the same chain catches up. -/
structure SyncsFrom (net : Infonet) : Prop where
  linked : ∀ locator limit, net.PageLinked locator limit
  catchesUp : ∀ (peer : Infonet) (limit maxEntries : Nat), peer.events <+: net.events → 0 < limit →
    2 ≤ maxEntries → CatchesUp net limit maxEntries peer

/-- The index has every event of the chain at its position, and none is the genesis. -/
def Located (net : Infonet) : Prop :=
  ∀ k e, net.events[k]? = some e → e.eventId ≠ genesisHash ∧ net.eventIndex e.eventId = some k

section
variable {net : Infonet}

/-! ## Pages -/

/-- What comes after an event of a linked chain is linked to it. -/
theorem linked_drop (h : Linked ChainEvent.eventId ChainEvent.prevHash genesisHash net.events)
    {idx : Nat} {e : ChainEvent} (he : net.events[idx]? = some e) :
    Linked ChainEvent.eventId ChainEvent.prevHash e.eventId (net.events.drop (idx + 1)) := by
  rw [← List.take_append_drop (idx + 1) net.events, linked_append] at h
  have hlast : lastKey ChainEvent.eventId genesisHash (net.events.take (idx + 1)) = e.eventId := by
    obtain ⟨hlt, hget⟩ := List.getElem?_eq_some_iff.mp he
    rw [List.take_add_one, he, Option.toList_some, lastKey_concat]
  rw [hlast] at h
  exact h.2

theorem pageLinked_of_linked (hindexed : net.Indexed)
    (h : Linked ChainEvent.eventId ChainEvent.prevHash genesisHash net.events)
    (locator : List String) (limit : Nat) : net.PageLinked locator limit := by
  have hmatch : ∀ ids, (net.matchLocator limit ids).1 ≠ "" →
      Linked ChainEvent.eventId ChainEvent.prevHash (net.matchLocator limit ids).1
        (net.matchLocator limit ids).2.2 := by
    intro ids
    induction ids with
    | nil => exact fun hne => absurd rfl hne
    | cons hsh rest ih =>
      unfold matchLocator
      split
      · exact fun _ => h.of_prefix (List.take_prefix limit _)
      · split
        · rename_i idx hidx
          obtain ⟨e, he, rfl⟩ := hindexed hsh idx hidx
          have hdrop := linked_drop h he
          exact fun _ => hdrop.of_prefix (List.take_prefix limit _)
        · exact ih
  exact hmatch _

/-- The page after the genesis is the hot chain. -/
theorem linked_of_page (h : net.PageLinked [genesisHash] net.events.length) :
    Linked ChainEvent.eventId ChainEvent.prevHash genesisHash net.events := by
  have hpage : net.getEventsAfterLocator [genesisHash] net.events.length =
      (genesisHash, 0, net.events) := by
    rw [getEventsAfterLocator, if_neg (List.cons_ne_nil _ _), matchLocator, if_pos rfl,
      List.take_length]
  unfold PageLinked at h
  simp only [hpage] at h
  exact h (by decide)

/-! ## Rounds -/

theorem locatorLoop_length (events : List ChainEvent) (room : Nat) (idx step : Int) (count : Nat) :
    (locatorLoop events room idx step count).length ≤ room := by
  induction room generalizing idx step count with
  | zero => exact Nat.le_refl 0
  | succ room ih =>
    unfold locatorLoop
    split
    · exact Nat.zero_le _
    · split
      · exact Nat.zero_le _
      · exact Nat.succ_le_succ (ih _ _ _)

/-- A locator with room for two entries names the head first, and the genesis last. -/
theorem getLocator_head {peer : Infonet} {es : List ChainEvent} {e : ChainEvent}
    (h : peer.events = es ++ [e]) (room : Nat) :
    ∃ ids, peer.getLocator (room + 2) = e.eventId :: (ids ++ [genesisHash]) ∧ ids.length ≤ room := by
  have hlen : (peer.events.length : Int) - 1 = es.length := by simp [h]
  have hlast : peer.events[es.length]? = some e := by simp [h]
  unfold getLocator
  rw [if_neg (by simp [h]), hlen, show room + 2 - 1 = room + 1 by omega, locatorLoop,
    if_neg (by omega), Int.toNat_natCast, hlast]
  exact ⟨_, rfl, locatorLoop_length _ _ _ _ _⟩

/-- A peer that is behind on the chain gets the page after its head. -/
theorem page_of_prefix (h : net.Located) {peer : Infonet} (hpeer : peer.events <+: net.events)
    (limit : Nat) {maxEntries : Nat} (hroom : 2 ≤ maxEntries) :
    net.getEventsAfterLocator (peer.getLocator maxEntries) limit =
      (lastEventId peer.events, (peer.events.length : Int),
        (net.events.drop peer.events.length).take limit) := by
  obtain ⟨room, rfl⟩ : ∃ room, maxEntries = room + 2 := ⟨maxEntries - 2, by omega⟩
  rcases List.eq_nil_or_concat' peer.events with hnil | ⟨es, e, hconcat⟩
  · rw [getLocator, if_pos hnil, getEventsAfterLocator, if_neg (List.cons_ne_nil _ _), matchLocator,
      if_pos rfl, hnil]
    rfl
  · obtain ⟨ids, hids, -⟩ := getLocator_head hconcat room
    have hat : net.events[es.length]? = some e := by
      obtain ⟨rest, hrest⟩ := hpeer
      rw [← hrest, hconcat]
      simp
    obtain ⟨hgenesis, hindex⟩ := h es.length e hat
    have hlength : peer.events.length = es.length + 1 := by
      rw [hconcat, List.length_append, List.length_singleton]
    have hhead : lastEventId peer.events = e.eventId := by
      rw [lastEventId, hconcat, List.getLast?_concat]
      rfl
    rw [hids, getEventsAfterLocator, if_neg (List.cons_ne_nil _ _), matchLocator, if_neg hgenesis,
      hindex, hhead, hlength]
    rfl

/-- A round takes the peer forward by a page. -/
theorem syncRound_events (h : net.Located) {peer : Infonet} (hpeer : peer.events <+: net.events)
    (limit : Nat) {maxEntries : Nat} (hroom : 2 ≤ maxEntries) :
    (syncRound net limit maxEntries peer).events =
      net.events.take (peer.events.length + limit) := by
  have hpage := page_of_prefix h hpeer limit hroom
  unfold syncRound
  simp only [hpage]
  rw [List.take_add, ← List.prefix_iff_eq_take.mp hpeer]

theorem syncRounds_events (h : net.Located) {peer : Infonet} (hpeer : peer.events <+: net.events)
    (limit : Nat) {maxEntries : Nat} (hroom : 2 ≤ maxEntries) (n : Nat) :
    ((syncRound net limit maxEntries)^[n] peer).events =
      net.events.take (peer.events.length + n * limit) := by
  induction n with
  | zero =>
    rw [Function.iterate_zero_apply, Nat.zero_mul, Nat.add_zero]
    exact List.prefix_iff_eq_take.mp hpeer
  | succ n ih =>
    have hbehind : ((syncRound net limit maxEntries)^[n] peer).events <+: net.events :=
      ih ▸ List.take_prefix _ _
    rw [Function.iterate_succ_apply', syncRound_events h hbehind limit hroom, ih,
      List.length_take]
    -- past the end of the chain a round changes nothing
    rcases Nat.le_total (peer.events.length + n * limit) net.events.length with hle | hge
    · rw [Nat.min_eq_left hle, Nat.succ_mul, Nat.add_assoc]
    · rw [Nat.min_eq_right hge, List.take_of_length_le (by omega), List.take_of_length_le]
      rw [Nat.succ_mul]
      omega

theorem catchesUp_of_located (h : net.Located) {peer : Infonet} (hpeer : peer.events <+: net.events)
    {limit maxEntries : Nat} (hlimit : 0 < limit) (hroom : 2 ≤ maxEntries) :
    CatchesUp net limit maxEntries peer := by
  have hpage := page_of_prefix h hpeer limit hroom
  refine ⟨by rw [hpage], by rw [hpage], ?_⟩
  rw [syncRounds_events h hpeer limit hroom]
  refine List.take_of_length_le ?_
  have hceil : net.events.length - peer.events.length ≤
      (net.events.length - peer.events.length + limit - 1) / limit * limit := by
    have hdiv := Nat.div_add_mod (net.events.length - peer.events.length + limit - 1) limit
    have hmod := Nat.mod_lt (net.events.length - peer.events.length + limit - 1) hlimit
    rw [Nat.mul_comm]
    omega
  omega

/-- The page after an id that the index does not have is the start of the hot chain. -/
theorem start_of_id {id : String} {start : Nat}
    (h : (net.getEventsAfterLocator [id, genesisHash] 1).2.1 = ((start + 1 : Nat) : Int)) :
    id ≠ genesisHash ∧ net.eventIndex id = some start := by
  rw [getEventsAfterLocator, if_neg (List.cons_ne_nil _ _), matchLocator] at h
  split at h
  · simp only at h
    omega
  · rename_i hgenesis
    cases hindex : net.eventIndex id with
    | none =>
      simp only [hindex, matchLocator, if_true] at h
      omega
    | some idx =>
      simp only [hindex] at h
      exact ⟨hgenesis, congrArg some (by omega)⟩

/-- A chain on which every start catches up is located. -/
theorem located_of_catchesUp (h : ∀ peer : Infonet, peer.events <+: net.events →
    CatchesUp net 1 2 peer) : net.Located := by
  intro k e he
  have hconcat : ({ net with events := net.events.take (k + 1) } : Infonet).events =
      net.events.take k ++ [e] := by
    simp only
    rw [List.take_add_one, he, Option.toList_some]
  have hlength : (net.events.take (k + 1)).length = k + 1 := by
    rw [List.length_take]
    exact Nat.min_eq_left (List.getElem?_eq_some_iff.mp he).1
  have hstart := (h { net with events := net.events.take (k + 1) } (List.take_prefix _ _)).start
  obtain ⟨ids, hids, hnone⟩ := getLocator_head hconcat 0
  rw [hids, List.length_eq_zero_iff.mp (Nat.le_zero.mp hnone), List.nil_append, hlength] at hstart
  exact start_of_id hstart

end

/-- Delta sync works from a reachable ledger exactly where its hot chain starts at the
    genesis and is linked, and the index has every event at its position. -/
theorem syncsFrom_iff (net : Infonet) (hreach : Reachable net) :
    net.SyncsFrom ↔
      Linked ChainEvent.eventId ChainEvent.prevHash genesisHash net.events ∧ net.Located := by
  constructor
  · intro h
    refine ⟨linked_of_page (h.linked _ _), located_of_catchesUp fun peer hpeer => ?_⟩
    exact h.catchesUp peer 1 2 hpeer (by decide) (by decide)
  · rintro ⟨hlinked, hlocated⟩
    refine ⟨fun locator limit => pageLinked_of_linked hreach.indexed hlinked locator limit, ?_⟩
    exact fun peer limit maxEntries hpeer hlimit hroom =>
      catchesUp_of_located hlocated hpeer hlimit hroom

end Infonet

theorem messageLedger_located :
    Linked ChainEvent.eventId ChainEvent.prevHash genesisHash messageLedger.events ∧
      messageLedger.Located := by
  have hrun : onSingle messageLedger.events (fun e => e.prevHash == genesisHash &&
      e.eventId != genesisHash && messageLedger.eventIndex e.eventId == some 0) = true := by
    decide +kernel
  unfold Infonet.Located
  generalize messageLedger.events = events at hrun ⊢
  generalize messageLedger.eventIndex = index at hrun ⊢
  rw [onSingle_iff] at hrun
  obtain ⟨e, rfl, hrun⟩ := hrun
  simp only [Bool.and_eq_true, beq_iff_eq, bne_iff_ne] at hrun
  obtain ⟨⟨hprev, hgenesis⟩, hindex⟩ := hrun
  refine ⟨⟨hprev, trivial⟩, fun k e' he' => ?_⟩
  cases k with
  | zero =>
    cases he'
    exact ⟨hgenesis, hindex⟩
  | succ k => cases he'

theorem syncsFrom_message : messageLedger.SyncsFrom :=
  (Infonet.syncsFrom_iff messageLedger messageLedger_reachable).mpr messageLedger_located

/-! ## Answers -/

/-- The page comes right after the event that the answer names, or starts the hot chain; or the
    ledger knows nothing of the locator. -/
def Infonet.Answers (net : Infonet) (locator : List String)
    (answer : String × Int × List ChainEvent) : Prop :=
  answer.1 ∈ locator ∧
      (answer.1 = genesisHash ∧ answer.2.1 = 0 ∧ answer.2.2 <+: net.events ∨
        ∃ before e, e.eventId = answer.1 ∧ answer.2.1 = (before.length : Int) + 1 ∧
          before ++ e :: answer.2.2 <+: net.events) ∨
    answer.2 = (-1, []) ∧ ∀ id ∈ locator, id ≠ genesisHash ∧ net.eventIndex id = none

theorem Infonet.Indexed.matchLocator {net : Infonet} (h : net.Indexed) (limit : Nat)
    (locator : List String) : net.Answers locator (net.matchLocator limit locator) := by
  induction locator with
  | nil => exact .inr ⟨rfl, by simp⟩
  | cons hsh rest ih =>
    unfold Infonet.matchLocator
    split_ifs with hgenesis
    · exact .inl ⟨hgenesis ▸ List.mem_cons_self, .inl ⟨rfl, rfl, List.take_prefix _ _⟩⟩
    · cases hidx : net.eventIndex hsh with
      | none =>
        rcases ih with ⟨hmem, hpage⟩ | ⟨hpage, hnone⟩
        · exact .inl ⟨List.mem_cons_of_mem hsh hmem, hpage⟩
        · exact .inr ⟨hpage, List.forall_mem_cons.mpr ⟨⟨hgenesis, hidx⟩, hnone⟩⟩
      | some idx =>
        obtain ⟨e, he, hid⟩ := h hsh idx hidx
        obtain ⟨hlt, rfl⟩ := List.getElem?_eq_some_iff.mp he
        refine .inl ⟨List.mem_cons_self, .inr ⟨net.events.take idx, net.events[idx], hid, ?_, ?_⟩⟩
        · simp [List.length_take, Nat.min_eq_left hlt.le]
        · have hsplit : net.events.take idx ++ net.events[idx] :: net.events.drop (idx + 1) =
              net.events := by
            rw [List.getElem_cons_drop, List.take_append_drop]
          conv_rhs => rw [← hsplit]
          exact (List.prefix_append_right_inj _).mpr
            (List.cons_prefix_cons.mpr ⟨rfl, List.take_prefix _ _⟩)

/-- A reachable ledger answers any locator with a page of its hot chain that comes right after an
    event of the locator, whether the chain is linked or not. -/
theorem getEventsAfterLocator_answers (net : Infonet) (hreach : Reachable net)
    (locator : List String) (limit : Nat) :
    net.Answers (if locator = [] then [genesisHash] else locator)
      (net.getEventsAfterLocator locator limit) :=
  hreach.indexed.matchLocator limit _

theorem getEventsAfterLocator_answers_message :
    messageLedger.Answers ["x"] (messageLedger.getEventsAfterLocator ["x"] 5) := by
  have h := getEventsAfterLocator_answers messageLedger messageLedger_reachable ["x"] 5
  rw [if_neg (List.cons_ne_nil _ _)] at h
  exact h

/-- A cleanup has dropped the first event: the page after the genesis is not linked to it. -/
theorem not_syncsFrom : ¬ ∀ net : Infonet, Reachable net →
    ∀ locator limit, net.PageLinked locator limit := by
  intro hclaim
  have hreach : Reachable (run (chainStep plainEnv)
      (Infonet.load plainEnv ⟨some⟩ (callAt 1) (callAt 1) {}).1 expiryRun) :=
    (((Reachable.load plainEnv ⟨some⟩ (callAt 1) (callAt 1) {}).append plainEnv
      (callAt 1700000000) ephemeralCall).append plainEnv (callAt 1700000010)
      (broadcastCall 2)).cleanup plainEnv (callAt 1700100000)
  have hrun : ((run (chainStep plainEnv)
      (Infonet.load plainEnv ⟨some⟩ (callAt 1) (callAt 1) {}).1 expiryRun).events.head?.any
        fun e => e.prevHash != genesisHash) = true := by
    decide +kernel
  generalize run (chainStep plainEnv)
    (Infonet.load plainEnv ⟨some⟩ (callAt 1) (callAt 1) {}).1 expiryRun = net at hreach hrun
  have hlinked := Infonet.linked_of_page (hclaim net hreach [genesisHash] net.events.length)
  cases hevents : net.events with
  | nil =>
    rw [hevents] at hrun
    cases hrun
  | cons e rest =>
    rw [hevents] at hrun hlinked
    exact absurd hlinked.1 (by simpa using hrun)

end Vincent.Mesh
