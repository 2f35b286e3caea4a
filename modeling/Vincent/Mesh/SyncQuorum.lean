-- SUMMARY: Rounds of IBF sync: when an applied fork is backed by a quorum.
import Vincent.General.OrderedMap
import Vincent.General.Run
import Vincent.Python.Value
import Mathlib.Data.Finset.Card

/-!
# The quorum of a sync round

A node collects the deltas of peers by the head that they name. A head that is named
often enough wins, and its events become a fork. Who answered is read from the delta;
the peers that were asked are not looked at.
-/

namespace Vincent.SyncQuorum

open Vincent.Python Vincent.Run

section Model

variable (rt : Runtime)

/-! ## Rounds -/

structure Bucket where
  count : Nat := 0
  events : List (List PyVal) := []

structure SyncRound where
  created : ℚ
  expected : Finset String
  quorum : Nat
  responses : OrderedMap String Bucket := []
  responders : Finset String := ∅

/-- `_pending_sync`. -/
abbrev Rounds := OrderedMap String SyncRound

/-- Whether a value can be in a `set`. -/
def hashable : PyVal → Bool
  | .list _ | .dict _ => false
  | _ => true

/-- One event of `_merge_bucket_events`, with the ids seen and the events kept. -/
def mergeEvent (acc : List PyVal × List PyVal) (evt : PyVal) : Except String (List PyVal × List PyVal) :=
  match evt with
  | .dict d =>
    let eid := Dict.get d "event_id" (.str "")
    if !eid.truthy then .ok (acc.1, acc.2 ++ [evt])
    else if !hashable eid then .error "TypeError"
    else if acc.1.any (PyVal.eq eid) then .ok acc
    else .ok (eid :: acc.1, acc.2 ++ [evt])
  | _ => .ok acc

def mergeBucketEvents (bucket : Bucket) : Except String (List PyVal) :=
  (bucket.events.flatten.foldlM mergeEvent ([], [])).map Prod.snd

/-- What a sync hands to the ledger, or how it ends. -/
inductive Effect where
  | ingestOrdered (events : List PyVal)
  | applyFork (syncId headHash : String) (events : List PyVal) (count quorum : Nat)
  | raised (exn : String)

/-- The bucket that most agree on, the first of them, as `_prune_sync_rounds` looks for it. -/
def bestBucket (responses : OrderedMap String Bucket) : Bucket :=
  (responses.foldl (fun best entry =>
    if best.2.count < entry.2.count then entry else best) ("", {})).2

/-- The rounds that are left, and the events of those that are over. -/
def pruneRounds (now timeout : ℚ) : Rounds → Rounds × Except String (List (List PyVal))
  | [] => ([], .ok [])
  | (syncId, entry) :: rounds =>
    if now - entry.created < timeout then
      let (kept, merged) := pruneRounds now timeout rounds
      ((syncId, entry) :: kept, merged)
    else
      match mergeBucketEvents (bestBucket entry.responses) with
      | .error exn => ((syncId, entry) :: rounds, .error exn)
      | .ok events =>
        let (kept, merged) := pruneRounds now timeout rounds
        (kept, merged.map fun sets => if events = [] then sets else events :: sets)

def pruneSyncRounds (now : ℚ) (timeout : Int) (rounds : Rounds) : Rounds × List Effect :=
  if timeout ≤ 0 then (rounds, [])
  else
    let (kept, merged) := pruneRounds now (max 3 timeout) rounds
    match merged with
    | .ok sets => (kept, sets.map .ingestOrdered)
    | .error exn => (kept, [.raised exn])

/-- `_send_ibf_sync_init`, with the peers that are selected and the id of the round. -/
def sendIbfSyncInit (now : ℚ) (peers : List String) (syncId : String) (rounds : Rounds) : Rounds :=
  if peers = [] then rounds
  else
    rounds.insert syncId
      { created := now
        expected := peers.toFinset
        quorum := max 1 (peers.length / 2 + 1) }

/-- A delta is counted in the bucket of its head. -/
def SyncRound.respond (peerId headHash : String) (events : List PyVal) (entry : SyncRound) :
    SyncRound :=
  let bucket := (entry.responses.lookup headHash).getD {}
  { entry with
    responses := entry.responses.insert headHash
      { count := bucket.count + 1, events := bucket.events ++ [events] }
    responders := if peerId ≠ "" then insert peerId entry.responders else entry.responders }

/-- `int(entry.get("quorum", 1) or 1)`. -/
def SyncRound.needed (entry : SyncRound) : Nat := if entry.quorum = 0 then 1 else entry.quorum

/-- What a delta finds around it. -/
structure Surroundings where
  now : ℚ := 0
  timeout : Int := 0
  /-- The head of the ledger. -/
  headHash : String := ""
  /-- `apply_fork` raises. -/
  forkRaises : Bool := false

/-- The events of a round that has its quorum. -/
def resolveRound (sur : Surroundings) (syncId headHash : String) (events : List PyVal)
    (count quorum : Nat) : List Effect :=
  if headHash ≠ sur.headHash then
    .applyFork syncId headHash events count quorum ::
      if sur.forkRaises then [.ingestOrdered events] else []
  else [.ingestOrdered events]

/-- A delta for a round that is under way. -/
def countDelta (sur : Surroundings) (syncId headHash peerId : String) (events : List PyVal)
    (entry : SyncRound) (rounds : Rounds) : Rounds × List Effect :=
  if peerId ≠ "" ∧ peerId ∈ entry.responders then (rounds, [])
  else
    let entry := entry.respond peerId headHash events
    let bucket := (entry.responses.lookup headHash).getD {}
    if entry.needed ≤ bucket.count then
      let rounds := rounds.filter fun kv => kv.1 ≠ syncId
      match mergeBucketEvents bucket with
      | .error exn => (rounds, [.raised exn])
      | .ok merged =>
        if merged ≠ [] then
          (rounds, resolveRound sur syncId headHash merged bucket.count entry.needed)
        else pruneSyncRounds sur.now sur.timeout rounds
    else pruneSyncRounds sur.now sur.timeout (rounds.insert syncId entry)

def ingestWithQuorum (sur : Surroundings) (events : List PyVal) (metadata : Dict) (rounds : Rounds) :
    Rounds × List Effect :=
  let syncId := Dict.text rt metadata "sync_id"
  let headHash := Dict.text rt metadata "head_hash"
  if syncId = "" ∨ headHash = "" then (rounds, [.ingestOrdered events])
  else
    match rounds.lookup syncId with
    | none => (rounds, [.ingestOrdered events])
    | some entry => countDelta sur syncId headHash (Dict.text rt metadata "reply_to") events entry rounds

/-! ## Runs -/

/-- An `ibf_sync_delta`, with the peer that really sent it. -/
structure Delta where
  sender : String
  metadata : Dict
  body : Dict

/-- The events of a delta, if they are a list. -/
def Delta.events (d : Delta) : Option (List PyVal) :=
  match (Dict.get d.body "events").or (.list []) with
  | .list events => some events
  | _ => none

def Delta.syncId (d : Delta) : String := Dict.text rt d.metadata "sync_id"

def Delta.headHash (d : Delta) : String := Dict.text rt d.metadata "head_hash"

def Delta.replyTo (d : Delta) : String := Dict.text rt d.metadata "reply_to"

/-- `_handle_ibf_sync_delta`, up to the events that it answers with. -/
def handleIbfSyncDelta (sur : Surroundings) (d : Delta) (rounds : Rounds) : Rounds × List Effect :=
  match d.events with
  | some events => ingestWithQuorum rt sur events d.metadata rounds
  | none => (rounds, [])

/-- The rounds of a node, and the deltas that have come in. -/
structure SyncState where
  rounds : Rounds := []
  received : List Delta := []

inductive SyncAction where
  | init (now : ℚ) (peers : List String) (syncId : String)
  | delta (sur : Surroundings) (d : Delta)
  | prune (now : ℚ) (timeout : Int)

def syncStep (s : SyncState) : SyncAction → SyncState
  | .init now peers syncId => { s with rounds := sendIbfSyncInit now peers syncId s.rounds }
  | .delta sur d =>
    { rounds := (handleIbfSyncDelta rt sur d s.rounds).1, received := s.received ++ [d] }
  | .prune now timeout => { s with rounds := (pruneSyncRounds now timeout s.rounds).1 }

/-- What a step hands to the ledger. -/
def effects (s : SyncState) : SyncAction → List Effect
  | .init _ _ _ => []
  | .delta sur d => (handleIbfSyncDelta rt sur d s.rounds).2
  | .prune now timeout => (pruneSyncRounds now timeout s.rounds).2

/-- The calls of `apply_fork` among some effects, by round, head and quorum. -/
def forks : List Effect → List (String × String × Nat) :=
  List.filterMap fun
    | .applyFork syncId headHash _ _ quorum => some (syncId, headHash, quorum)
    | _ => none

/-- The calls of `apply_fork` in a run. -/
def forksOf : SyncState → List SyncAction → List (String × String × Nat)
  | _, [] => []
  | s, a :: as => forks (effects rt s a) ++ forksOf (syncStep rt s a) as

/-- A delta that is counted comes from a peer that was asked, under its own name. -/
def Labelled (s : SyncState) : SyncAction → Prop
  | .delta _ d => ∀ entry, d.events.isSome → d.syncId rt ≠ "" → d.headHash rt ≠ "" →
    s.rounds.lookup (d.syncId rt) = some entry → d.replyTo rt ∉ entry.responders →
    d.replyTo rt ≠ "" ∧ d.replyTo rt ∈ entry.expected ∧ d.sender = d.replyTo rt
  | _ => True

/-- The peers have each sent a delta for a round and a head. -/
def HaveSent (received : List Delta) (syncId headHash : String) (peers : Finset String) : Prop :=
  ∀ p ∈ peers, ∃ d ∈ received, d.sender = p ∧ d.syncId rt = syncId ∧ d.headHash rt = headHash

/-- A quorum of the peers that were asked has sent a delta for each fork that the step applies. -/
def Backed (s : SyncState) (a : SyncAction) : Prop :=
  ∀ syncId headHash quorum, (syncId, headHash, quorum) ∈ forks (effects rt s a) →
    ∃ entry, s.rounds.lookup syncId = some entry ∧ quorum = entry.quorum ∧
      ∃ peers ⊆ entry.expected, entry.quorum ≤ peers.card ∧
        HaveSent rt (syncStep rt s a).received syncId headHash peers

/-- The ids of the rounds that a run begins. -/
def begun : List SyncAction → List String :=
  List.filterMap fun
    | .init _ _ syncId => some syncId
    | _ => none

end Model

/-! ## What a step does -/

section

variable {rt : Runtime} {rounds : Rounds} {entry : SyncRound} {syncId headHash peerId : String}
  {events : List PyVal} {sur : Surroundings} {s : SyncState} {received : List Delta}

theorem forks_ingestOrdered (sets : List (List PyVal)) : forks (sets.map .ingestOrdered) = [] := by
  unfold forks
  rw [List.filterMap_map, List.filterMap_eq_nil_iff]
  exact fun _ _ => rfl

theorem pruneRounds_sublist (now timeout : ℚ) (rounds : Rounds) :
    (pruneRounds now timeout rounds).1.Sublist rounds := by
  induction rounds with
  | nil => exact List.Sublist.refl []
  | cons kv rounds ih =>
    obtain ⟨id, entry⟩ := kv
    unfold pruneRounds
    split
    · exact ih.cons_cons (id, entry)
    · split
      · exact List.Sublist.refl _
      · exact ih.cons (id, entry)

theorem pruneSyncRounds_spec (now : ℚ) (timeout : Int) (rounds : Rounds) :
    (pruneSyncRounds now timeout rounds).1.Sublist rounds ∧
      forks (pruneSyncRounds now timeout rounds).2 = [] := by
  unfold pruneSyncRounds
  split
  · exact ⟨List.Sublist.refl rounds, rfl⟩
  · have hsub := pruneRounds_sublist now (max 3 timeout) rounds
    dsimp only
    split
    · exact ⟨hsub, forks_ingestOrdered _⟩
    · exact ⟨hsub, rfl⟩

theorem forks_resolveRound (sur : Surroundings) (syncId headHash : String) {merged : List PyVal}
    {count quorum : Nat} :
    forks (resolveRound sur syncId headHash merged count quorum) = [] ∨
      forks (resolveRound sur syncId headHash merged count quorum) = [(syncId, headHash, quorum)] := by
  unfold resolveRound
  split
  · right
    cases sur.forkRaises <;> rfl
  · exact .inl rfl

/-- The number of deltas in the bucket of a head. -/
def SyncRound.countAt (entry : SyncRound) (headHash : String) : Nat :=
  ((entry.responses.lookup headHash).getD {}).count

/-- What a delta for a round under way does: it is ignored, or counted, or it decides the round. -/
inductive Outcome (entry : SyncRound) (rounds : Rounds) (syncId headHash peerId : String) :
    Rounds × List Effect → Prop where
  | ignored {rounds' : Rounds} {effs : List Effect} (hsub : rounds'.Sublist rounds)
      (hforks : forks effs = []) : Outcome entry rounds syncId headHash peerId (rounds', effs)
  | counted {events : List PyVal} {rounds' : Rounds} {effs : List Effect}
      (hnew : peerId ∉ entry.responders ∨ peerId = "")
      (hsub : rounds'.Sublist
        (OrderedMap.insert syncId (entry.respond peerId headHash events) rounds))
      (hforks : forks effs = []) : Outcome entry rounds syncId headHash peerId (rounds', effs)
  | decided {events : List PyVal} {effs : List Effect}
      (hnew : peerId ∉ entry.responders ∨ peerId = "")
      (hcount : entry.needed ≤ (entry.respond peerId headHash events).countAt headHash)
      (hforks : forks effs = [(syncId, headHash, entry.needed)]) :
      Outcome entry rounds syncId headHash peerId (rounds.filter fun kv => kv.1 ≠ syncId, effs)

theorem countDelta_outcome :
    Outcome entry rounds syncId headHash peerId
      (countDelta sur syncId headHash peerId events entry rounds) := by
  unfold countDelta
  split
  · exact .ignored (List.Sublist.refl rounds) rfl
  · rename_i hdup
    have hnew : peerId ∉ entry.responders ∨ peerId = "" := by tauto
    dsimp only
    split
    · rename_i hcount
      cases hmerge : mergeBucketEvents
          (((entry.respond peerId headHash events).responses.lookup headHash).getD {}) with
      | error exn => exact .ignored List.filter_sublist rfl
      | ok merged =>
        dsimp only
        split
        · rcases forks_resolveRound sur syncId headHash with
            hforks | hforks
          · exact .ignored List.filter_sublist hforks
          · exact .decided hnew hcount hforks
        · have hprune := pruneSyncRounds_spec sur.now sur.timeout
            (rounds.filter fun kv => kv.1 ≠ syncId)
          exact .ignored (hprune.1.trans List.filter_sublist) hprune.2
    · have hprune := pruneSyncRounds_spec sur.now sur.timeout
        (OrderedMap.insert syncId (entry.respond peerId headHash events) rounds)
      exact .counted hnew hprune.1 hprune.2

/-- A delta decides or counts in the round that it names, if it has events and a head, or does
nothing. -/
theorem handleIbfSyncDelta_outcome (rt : Runtime) (sur : Surroundings) (d : Delta) (rounds : Rounds) :
    ((handleIbfSyncDelta rt sur d rounds).1 = rounds ∧
        forks (handleIbfSyncDelta rt sur d rounds).2 = []) ∨
      ∃ entry, d.events.isSome ∧ d.syncId rt ≠ "" ∧ d.headHash rt ≠ "" ∧
        rounds.lookup (d.syncId rt) = some entry ∧
        Outcome entry rounds (d.syncId rt) (d.headHash rt) (d.replyTo rt)
          (handleIbfSyncDelta rt sur d rounds) := by
  unfold handleIbfSyncDelta
  cases hevents : d.events with
  | none => exact .inl ⟨rfl, rfl⟩
  | some events =>
    dsimp only
    unfold ingestWithQuorum
    dsimp only
    split
    · exact .inl ⟨rfl, rfl⟩
    · rename_i hnames
      rw [not_or] at hnames
      cases hlook : rounds.lookup (Dict.text rt d.metadata "sync_id") with
      | none => exact .inl ⟨rfl, rfl⟩
      | some entry => exact .inr ⟨entry, rfl, hnames.1, hnames.2, hlook, countDelta_outcome⟩

/-! ## A quorum of peers -/

/-- Each delta that a round has counted for a head is one of a peer that it asked. -/
structure Tally (rt : Runtime) (received : List Delta) (syncId : String) (entry : SyncRound) :
    Prop where
  quorum : entry.quorum ≠ 0
  named : "" ∉ entry.responders
  bucket : ∀ headHash, ∃ peers ⊆ entry.expected, peers ⊆ entry.responders ∧
    peers.card = entry.countAt headHash ∧ HaveSent rt received syncId headHash peers

/-- All rounds under way are tallied. -/
def Tallied (rt : Runtime) (s : SyncState) : Prop :=
  ∀ kv ∈ s.rounds, Tally rt s.received kv.1 kv.2

theorem countAt_respond (h : String) :
    (entry.respond peerId headHash events).countAt h =
      if h = headHash then entry.countAt headHash + 1 else entry.countAt h := by
  unfold SyncRound.countAt SyncRound.respond
  rw [OrderedMap.lookup_insert]
  split <;> rfl

theorem HaveSent.mono {received' : List Delta} {peers : Finset String}
    (h : HaveSent rt received syncId headHash peers) (hsub : received ⊆ received') :
    HaveSent rt received' syncId headHash peers := by
  intro p hp
  obtain ⟨d, hd, hrest⟩ := h p hp
  exact ⟨d, hsub hd, hrest⟩

theorem Tally.mono {received' : List Delta} (h : Tally rt received syncId entry)
    (hsub : received ⊆ received') : Tally rt received' syncId entry where
  quorum := h.quorum
  named := h.named
  bucket := by
    intro headHash
    obtain ⟨peers, hexpected, hresponders, hcard, hsent⟩ := h.bucket headHash
    exact ⟨peers, hexpected, hresponders, hcard, hsent.mono hsub⟩

/-- A delta of a peer that was asked and has not answered yet is one more for its head. -/
theorem Tally.respond (h : Tally rt received syncId entry) {d : Delta} (events : List PyVal)
    (hsync : d.syncId rt = syncId) (hnew : d.replyTo rt ∉ entry.responders)
    (hlabel : d.replyTo rt ≠ "" ∧ d.replyTo rt ∈ entry.expected ∧ d.sender = d.replyTo rt) :
    Tally rt (received ++ [d]) syncId (entry.respond (d.replyTo rt) (d.headHash rt) events) := by
  obtain ⟨hne, hexpected, hsender⟩ := hlabel
  have hresponders : (entry.respond (d.replyTo rt) (d.headHash rt) events).responders =
      insert (d.replyTo rt) entry.responders := if_pos hne
  refine ⟨h.quorum, ?_, fun headHash => ?_⟩
  · rw [hresponders, Finset.mem_insert, not_or]
    exact ⟨hne.symm, h.named⟩
  · obtain ⟨peers, hpeers, hcounted, hcard, hsent⟩ := h.bucket headHash
    have hmono : HaveSent rt (received ++ [d]) syncId headHash peers :=
      hsent.mono (List.subset_append_left received [d])
    rw [hresponders, countAt_respond]
    split
    · rename_i hhead
      subst hhead
      refine ⟨insert (d.replyTo rt) peers, Finset.insert_subset hexpected hpeers,
        Finset.insert_subset_insert _ hcounted, ?_, ?_⟩
      · rw [Finset.card_insert_of_notMem fun hmem => hnew (hcounted hmem), hcard]
      · intro p hp
        rcases Finset.mem_insert.mp hp with rfl | hp
        · exact ⟨d, List.mem_append_right _ List.mem_cons_self, hsender, hsync, rfl⟩
        · exact hmono p hp
    · exact ⟨peers, hpeers, hcounted.trans (Finset.subset_insert _ _), hcard, hmono⟩

theorem tally_new (now : ℚ) (peers : List String) :
    Tally rt received syncId
      { created := now, expected := peers.toFinset, quorum := max 1 (peers.length / 2 + 1) } where
  quorum := by
    have hpos : 1 ≤ max 1 (peers.length / 2 + 1) := le_max_left 1 _
    exact Nat.ne_of_gt hpos
  named := Finset.notMem_empty ""
  bucket := by
    intro headHash
    refine ⟨∅, Finset.empty_subset _, Finset.empty_subset _, rfl, ?_⟩
    intro p hp
    exact absurd hp (Finset.notMem_empty p)

/-- The peer that a delta names has not answered before, where the delta is counted. -/
theorem Tally.new_responder (h : Tally rt received syncId entry)
    (hnew : peerId ∉ entry.responders ∨ peerId = "") : peerId ∉ entry.responders := by
  rcases hnew with hnew | rfl
  · exact hnew
  · exact h.named

theorem Tallied.step (s : SyncState) (a : SyncAction) (h : Tallied rt s) (ha : Labelled rt s a) :
    Tallied rt (syncStep rt s a) := by
  cases a with
  | init now peers syncId =>
    intro kv hkv
    change kv ∈ sendIbfSyncInit now peers syncId s.rounds at hkv
    unfold sendIbfSyncInit at hkv
    split at hkv
    · exact h kv hkv
    · rcases OrderedMap.mem_insert hkv with rfl | hkv
      · exact tally_new now peers
      · exact h kv hkv
  | prune now timeout =>
    exact fun kv hkv => h kv ((pruneSyncRounds_spec now timeout s.rounds).1.subset hkv)
  | delta sur d =>
    have hmono : ∀ kv ∈ s.rounds, Tally rt (s.received ++ [d]) kv.1 kv.2 :=
      fun kv hkv => (h kv hkv).mono (List.subset_append_left s.received [d])
    intro kv hkv
    change kv ∈ (handleIbfSyncDelta rt sur d s.rounds).1 at hkv
    rcases handleIbfSyncDelta_outcome rt sur d s.rounds with
      ⟨heq, -⟩ | ⟨entry, hevents, hsync, hhead, hlook, houtcome⟩
    · rw [heq] at hkv
      exact hmono kv hkv
    · have hentry := h _ (OrderedMap.mem_of_lookup hlook)
      generalize hresult : handleIbfSyncDelta rt sur d s.rounds = result at hkv houtcome
      cases houtcome with
      | ignored hsub _ => exact hmono kv (hsub.subset hkv)
      | counted hnew hsub _ =>
        have hnew' := hentry.new_responder hnew
        have hlabel := ha entry hevents hsync hhead hlook hnew'
        rcases OrderedMap.mem_insert (hsub.subset hkv) with rfl | hkv
        · exact hentry.respond _ rfl hnew' hlabel
        · exact hmono kv hkv
      | decided _ _ _ => exact hmono kv (List.mem_of_mem_filter hkv)

/-- A fork that is applied has its quorum behind it. -/
theorem Tallied.backed (h : Tallied rt s) {a : SyncAction} (ha : Labelled rt s a) :
    Backed rt s a := by
  intro syncId headHash quorum hfork
  cases a with
  | init now peers syncId => cases hfork
  | prune now timeout =>
    change _ ∈ forks (pruneSyncRounds now timeout s.rounds).2 at hfork
    rw [(pruneSyncRounds_spec now timeout s.rounds).2] at hfork
    cases hfork
  | delta sur d =>
    change _ ∈ forks (handleIbfSyncDelta rt sur d s.rounds).2 at hfork
    rcases handleIbfSyncDelta_outcome rt sur d s.rounds with
      ⟨-, hnone⟩ | ⟨entry, hevents, hsync, hhead, hlook, houtcome⟩
    · rw [hnone] at hfork
      cases hfork
    · have hentry := h _ (OrderedMap.mem_of_lookup hlook)
      generalize hresult : handleIbfSyncDelta rt sur d s.rounds = result at hfork houtcome
      cases houtcome with
      | ignored _ hforks | counted _ _ hforks =>
        dsimp only at hfork
        rw [hforks] at hfork
        cases hfork
      | @decided events effs hnew hcount hforks =>
        dsimp only at hfork
        rw [hforks, List.mem_singleton] at hfork
        cases hfork
        have hneeded : entry.needed = entry.quorum := if_neg hentry.quorum
        rw [hneeded] at hcount ⊢
        have hnew' := hentry.new_responder hnew
        have hlabel := ha entry hevents hsync hhead hlook hnew'
        have htally := hentry.respond events rfl hnew' hlabel
        obtain ⟨peers, hpeers, -, hcard, hsent⟩ := htally.bucket (d.headHash rt)
        exact ⟨entry, hlook, rfl, peers, hpeers, hcard ▸ hcount, hsent⟩

/-! ## One fork a round -/

/-- The ids of the rounds under way. -/
def SyncState.ids (s : SyncState) : List String := s.rounds.map Prod.fst

/-- What a step does to the ids: a round begins, or some end, one of them with a fork. -/
theorem syncStep_ids (rt : Runtime) (s : SyncState) (a : SyncAction) {rest : List String}
    (hnodup : (s.ids ++ (begun [a] ++ rest)).Nodup) :
    ((syncStep rt s a).ids ++ rest).Sublist (s.ids ++ (begun [a] ++ rest)) ∧
      (forks (effects rt s a) = [] ∨ ∃ syncId headHash quorum,
        forks (effects rt s a) = [(syncId, headHash, quorum)] ∧ syncId ∈ s.ids ∧
        syncId ∉ (syncStep rt s a).ids) := by
  cases a with
  | init now peers syncId =>
    refine ⟨?_, .inl rfl⟩
    change (((sendIbfSyncInit now peers syncId s.rounds).map Prod.fst) ++ rest).Sublist
      (s.ids ++ (syncId :: rest))
    unfold sendIbfSyncInit
    split
    · exact (List.Sublist.refl s.ids).append (List.sublist_cons_self syncId rest)
    · have hnew : syncId ∉ s.rounds.map Prod.fst := by
        rw [List.nodup_append'] at hnodup
        exact fun hmem => hnodup.2.2 hmem List.mem_cons_self
      rw [OrderedMap.insert_new hnew, List.map_append, List.append_assoc]
      exact List.Sublist.refl _
  | prune now timeout =>
    obtain ⟨hsub, hforks⟩ := pruneSyncRounds_spec now timeout s.rounds
    exact ⟨(hsub.map Prod.fst).append (List.Sublist.refl rest), .inl hforks⟩
  | delta sur d =>
    change ((((handleIbfSyncDelta rt sur d s.rounds).1).map Prod.fst) ++ rest).Sublist
      (s.ids ++ rest) ∧ (forks (handleIbfSyncDelta rt sur d s.rounds).2 = [] ∨
        ∃ syncId headHash quorum, forks (handleIbfSyncDelta rt sur d s.rounds).2 =
          [(syncId, headHash, quorum)] ∧ syncId ∈ s.ids ∧
          syncId ∉ ((handleIbfSyncDelta rt sur d s.rounds).1).map Prod.fst)
    rcases handleIbfSyncDelta_outcome rt sur d s.rounds with
      ⟨heq, hnone⟩ | ⟨entry, -, -, -, hlook, houtcome⟩
    · rw [heq]
      exact ⟨List.Sublist.refl _, .inl hnone⟩
    · have hmem : d.syncId rt ∈ s.rounds.map Prod.fst :=
        List.mem_map.mpr ⟨_, OrderedMap.mem_of_lookup hlook, rfl⟩
      generalize hresult : handleIbfSyncDelta rt sur d s.rounds = result at houtcome
      cases houtcome with
      | ignored hsub hforks =>
        exact ⟨(hsub.map Prod.fst).append (List.Sublist.refl rest), .inl hforks⟩
      | @counted events _ _ _ hsub hforks =>
        have hkeys := @OrderedMap.keys_upsert _ _ _ (d.syncId rt)
          (fun _ => entry.respond (d.replyTo rt) (d.headHash rt) events) s.rounds
        rw [if_pos hmem] at hkeys
        refine ⟨List.Sublist.append ?_ (List.Sublist.refl rest), .inl hforks⟩
        have hkept := hsub.map Prod.fst
        rw [OrderedMap.insert, hkeys] at hkept
        exact hkept
      | decided _ _ hforks =>
        refine ⟨(List.filter_sublist.map Prod.fst).append (List.Sublist.refl rest),
          .inr ⟨_, _, _, hforks, hmem, ?_⟩⟩
        intro hkept
        obtain ⟨kv, hkv, heq⟩ := List.mem_map.mp hkept
        simpa [heq] using (List.mem_filter.mp hkv).2

/-- Each round applies one fork at most, where the ids of the rounds are different. -/
theorem forksOf_nodup {as : List SyncAction} (h : (s.ids ++ begun as).Nodup) :
    ((forksOf rt s as).map Prod.fst).Nodup ∧
      ∀ fork ∈ forksOf rt s as, fork.1 ∈ s.ids ++ begun as := by
  induction as generalizing s with
  | nil => exact ⟨List.nodup_nil, fun fork hfork => absurd hfork List.not_mem_nil⟩
  | cons a as ih =>
    have hsplit : begun (a :: as) = begun [a] ++ begun as := by
      rw [begun, ← List.filterMap_append]
      rfl
    rw [hsplit] at h ⊢
    obtain ⟨hsub, hforks⟩ := syncStep_ids rt s a h
    obtain ⟨hnodup, hids⟩ := ih (h.sublist hsub)
    have hlater : ∀ fork ∈ forksOf rt (syncStep rt s a) as,
        fork.1 ∈ s.ids ++ (begun [a] ++ begun as) := fun fork hfork => hsub.subset (hids fork hfork)
    rcases hforks with hnone | ⟨syncId, headHash, quorum, hone, hmem, hgone⟩
    · rw [forksOf, hnone, List.nil_append]
      exact ⟨hnodup, hlater⟩
    · rw [forksOf, hone]
      constructor
      · rw [List.singleton_append, List.map_cons, List.nodup_cons]
        refine ⟨?_, hnodup⟩
        intro hagain
        obtain ⟨fork, hfork, heq⟩ := List.mem_map.mp hagain
        have hin := hids fork hfork
        rw [heq, List.mem_append] at hin
        rcases hin with hin | hin
        · exact hgone hin
        · rw [List.nodup_append'] at h
          exact h.2.2 hmem (List.mem_append_right _ hin)
      · intro fork hfork
        rcases List.mem_cons.mp hfork with rfl | hfork
        · exact List.mem_append_left _ hmem
        · exact hlater fork hfork

/-- Where each delta is of a peer that was asked, a fork needs a quorum of them, and comes once a
round. -/
theorem forks_backed {as : List SyncAction} (hids : (begun as).Nodup)
    (hrun : Along (syncStep rt) (Labelled rt) {} as) :
    Along (syncStep rt) (Backed rt) {} as ∧ ((forksOf rt {} as).map Prod.fst).Nodup := by
  have hempty : Tallied rt {} := fun kv hkv => absurd hkv List.not_mem_nil
  exact ⟨Along.imp Tallied.step (fun s a hs ha => hs.backed ha) hempty hrun, (forksOf_nodup (s := {}) hids).1⟩

end

/-! ## Two deltas without a name -/

/-- A delta with one event for round `r` and head `h`. -/
def headDelta (sender replyTo : String) : Delta where
  sender := sender
  metadata := [("sync_id", .str "r"), ("head_hash", .str "h"), ("reply_to", .str replyTo)]
  body := [("events", .list [.dict [("event_id", .str "e")]])]

/-- A round over three peers, two of whom answer. -/
theorem forks_backed_sample :
    Along (syncStep asciiRuntime) (Backed asciiRuntime) {}
        [.init 0 ["a", "b", "c"] "r", .delta {} (headDelta "a" "a"), .delta {} (headDelta "b" "b")] ∧
      ((forksOf asciiRuntime {} [.init 0 ["a", "b", "c"] "r", .delta {} (headDelta "a" "a"),
        .delta {} (headDelta "b" "b")]).map Prod.fst).Nodup := by
  apply forks_backed (by decide)
  refine ⟨trivial, ?_, ?_, trivial⟩
  · intro entry _ _ _ hlook _
    have hexpected : ((run (syncStep asciiRuntime) {} [.init 0 ["a", "b", "c"] "r"]).rounds.lookup
        ((headDelta "a" "a").syncId asciiRuntime)).map SyncRound.expected = some {"a", "b", "c"} := by
      decide +kernel
    have hentry := (congrArg (Option.map SyncRound.expected) hlook).symm.trans hexpected
    rw [Option.some.inj hentry]
    decide +kernel
  · intro entry _ _ _ hlook _
    have hexpected : ((run (syncStep asciiRuntime) {}
        [.init 0 ["a", "b", "c"] "r", .delta {} (headDelta "a" "a")]).rounds.lookup
        ((headDelta "b" "b").syncId asciiRuntime)).map SyncRound.expected = some {"a", "b", "c"} := by
      decide +kernel
    have hentry := (congrArg (Option.map SyncRound.expected) hlook).symm.trans hexpected
    rw [Option.some.inj hentry]
    decide +kernel

/-- One peer that answers twice without a name makes a quorum. -/
theorem not_forks_backed : ¬ ∀ rt as, (begun as).Nodup →
    Along (syncStep rt) (Backed rt) {} as ∧ ((forksOf rt {} as).map Prod.fst).Nodup := by
  intro h
  obtain ⟨-, -, hbacked, -⟩ := (h asciiRuntime
    [.init 0 ["a", "b", "c"] "r", .delta {} (headDelta "a" ""), .delta {} (headDelta "a" "")]
    (by decide)).1
  have hfork : ("r", "h", 2) ∈ forks (effects asciiRuntime (run (syncStep asciiRuntime) {}
      [.init 0 ["a", "b", "c"] "r", .delta {} (headDelta "a" "")])
        (.delta {} (headDelta "a" ""))) := by
    decide +kernel
  obtain ⟨entry, -, hquorum, peers, -, hcard, hsent⟩ := hbacked "r" "h" 2 hfork
  have hone : peers ⊆ {"a"} := by
    intro p hp
    obtain ⟨d, hd, rfl, -⟩ := hsent p hp
    have hreceived : d ∈ [headDelta "a" "", headDelta "a" ""] := hd
    simp only [List.mem_cons, List.not_mem_nil, or_false, or_self] at hreceived
    rw [hreceived]
    exact Finset.mem_singleton_self "a"
  have hle := hcard.trans (Finset.card_le_card hone)
  rw [← hquorum, Finset.card_singleton] at hle
  exact absurd hle (by decide)

end Vincent.SyncQuorum
