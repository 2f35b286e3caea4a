-- SUMMARY: When a decision of the operator about a peer holds.
import Vincent.Mesh.Patience

/-!
# The operator's decisions

The operator changes peers in the file of the peer store. So do a sync cycle, a refresh
and a merge of a manifest, each with a copy of its own that it loaded before. Whoever
saves last writes the whole file, and a record that is announced again comes enabled.
-/

namespace Vincent.Sync

open Vincent.Python Vincent.Check Vincent.Run

section Model

variable (env : SyncEnv) (cfg : SyncSettings)

/-! ## Operations on the file -/

def peerTransportKind (peerUrl : String) : String :=
  let url := env.normalizePeerUrl peerUrl
  let onion := ".onion".toList <:+ (env.hostname url).toList
  if env.scheme url = "http" ∧ onion then "onion"
  else if env.scheme url = "https" ∧ env.hostname url ≠ "" then "clearnet"
  else if env.scheme url = "http" ∧ env.hostname url ≠ "" then "clearnet"
  else ""

/-- The body of `add_peer`, as strings. -/
structure AddCall where
  peerUrl : String
  transport : String := ""
  label : String := ""
  role : String := ""
  buckets : List String := ["sync", "push"]

/-- The peer that `add_peer` adds, unless it refuses the body. -/
def AddCall.peer (c : AddCall) : Option ManifestPeer :=
  let peerUrl := env.normalizePeerUrl (strip c.peerUrl)
  let transport := if lowered env c.transport = "" then peerTransportKind env peerUrl
    else lowered env c.transport
  if strip c.peerUrl = "" ∨ peerUrl = "" ∨ transport = "" then none
  else some
    { peerUrl, transport
      role := if lowered env c.role = "" then "relay" else lowered env c.role
      label := strip c.label }

/-- The records of `add_peer`, a bucket after another. -/
def AddCall.records (now : Time) (c : AddCall) (p : ManifestPeer) : List PeerRecord :=
  c.buckets.filterMap fun b =>
    if lowered env b = "sync" then some (makeRecord "sync" "operator" now "" p)
    else if lowered env b = "push" then some (makeRecord "push" "operator" now "" p)
    else none

/-- The keys that `remove_peer` removes, if they are there. -/
def removedKeys (peerUrl bucket : String) : List RecordKey :=
  (["bootstrap", "sync", "push"].filter fun b => lowered env bucket = "" ∨ b = lowered env bucket).map
    fun b => ⟨b, env.normalizePeerUrl (strip peerUrl)⟩

/-- The key of `toggle_peer`. -/
def toggledKey (peerUrl bucket : String) : RecordKey :=
  ⟨lowered env bucket, env.normalizePeerUrl (strip peerUrl)⟩

/-- An operation that loads the store, changes it, and saves it. -/
inductive PeerOp where
  | add (c : AddCall)
  | remove (peerUrl bucket : String)
  | toggle (peerUrl bucket : String) (enabled : Bool)
  /-- `_run_public_sync_cycle`, which saves after each peer. -/
  | cycle
  /-- `_upsert_swarm_peer_into_store`, for a peer of a manifest or of an announcement. -/
  | swarm (signerId : String) (p : ManifestPeer)
  /-- `_refresh_node_peer_store`, which may load again before it saves. -/
  | refresh (input : RefreshInput)

/-- The records that an operation of the node itself upserts. -/
def PeerOp.records (now : Time) : PeerOp → List PeerRecord
  | .swarm signerId p => swarmRecords cfg now signerId [p]
  | .refresh input => refreshRecords env cfg now input
  | _ => []

/-- Whether an operation comes to load the store. -/
def PeerOp.loads : PeerOp → Prop
  | .add c => (c.peer env).isSome
  | .remove peerUrl _ => env.normalizePeerUrl (strip peerUrl) ≠ ""
  | .toggle peerUrl bucket _ => env.normalizePeerUrl (strip peerUrl) ≠ "" ∧ lowered env bucket ≠ ""
  | .swarm _ p => cfg.privateTransportRequired = true → p.transport = "onion"
  | .cycle | .refresh _ => True

instance (op : PeerOp) : Decidable (op.loads env cfg) := by
  cases op <;> unfold PeerOp.loads <;> infer_instance

/-- What an operation goes on with when the store cannot be loaded. -/
def PeerOp.unloaded : PeerOp → Option PeerStore
  | .remove _ _ | .toggle _ _ _ => none
  | _ => some []

/-- What an operation saves of the store that it has loaded, if it saves. -/
def PeerOp.change (now : Time) (store : PeerStore) : PeerOp → Except String (Option PeerStore)
  | .add c =>
    match c.peer env with
    | none => .ok none
    | some p => (upsertAll env (c.records env now p) store).map some
  | .remove peerUrl bucket =>
    let keys := removedKeys env peerUrl bucket
    if keys.any fun k => (List.lookup k store).isSome then
      .ok (some (store.filter fun kv => kv.1 ∉ keys))
    else .ok none
  | .toggle peerUrl bucket enabled =>
    let key := toggledKey env peerUrl bucket
    match List.lookup key store with
    | none => .ok none
    | some _ => .ok (some (OrderedMap.modify key
        (fun r => { r with enabled := enabled, updatedAt := seconds now }) store))
  | .swarm signerId p => (upsertAll env (swarmRecords cfg now signerId [p]) store).map some
  | .refresh input =>
    (upsertAll env (refreshRecords env cfg now input) (pruned env cfg store)).map some
  | .cycle => .ok none

/-- The last word of the operator about the peers: enabled, disabled, or none. -/
abbrev Decisions := RecordKey → Option Bool

/-- The keys under which records are stored, once they are normalized. -/
def storedKeys (records : List PeerRecord) : List RecordKey :=
  (records.filterMap fun r => (normalizePeerRecord env r).toOption).map PeerRecord.recordKey

/-- What an operation that has saved decides. -/
def PeerOp.decide (now : Time) (decided : Decisions) : PeerOp → Decisions
  | .add c => fun k =>
    match c.peer env with
    | none => decided k
    | some p =>
      if k ∈ storedKeys env (c.records env now p) then some true else decided k
  | .remove peerUrl bucket => fun k => if k ∈ removedKeys env peerUrl bucket then none else decided k
  | .toggle peerUrl bucket enabled =>
    Function.update decided (toggledKey env peerUrl bucket) (some enabled)
  | _ => decided

/-! ## Runs -/

/-- An operation under way, with its copy of the store. -/
structure OpenOp where
  op : PeerOp
  copy : PeerStore
  /-- The copy was loaded again since, and is saved as it is. -/
  reloaded : Bool := false

/-- The file, the operations under way by their threads, and the operator's decisions. -/
structure PeerWorld where
  file : PeerStore := []
  busy : Nat → Option OpenOp := fun _ => none
  decided : Decisions := fun _ => none

/-- How a turn of a cycle ends. -/
inductive TurnEnd where
  | succeeded
  | failed (error : String) (cooldownS : Int)

def TurnEnd.mark (now : Time) : TurnEnd → PeerRecord → PeerRecord
  | .succeeded => markSuccess now
  | .failed error cooldownS => markFailure now error cooldownS

inductive PeerAction where
  | load (thread : Nat) (op : PeerOp) (readable : Bool)
  /-- `store.load()` after a manifest was pulled. -/
  | reload (thread : Nat)
  | save (thread : Nat) (now : Time)
  /-- A peer of a cycle has answered, and the cycle saves. -/
  | turn (thread : Nat) (peerUrl : String) (now : Time) (outcome : TurnEnd)
  /-- An operation ends without saving. -/
  | leave (thread : Nat)

namespace PeerWorld

def close (thread : Nat) (w : PeerWorld) : PeerWorld :=
  { w with busy := Function.update w.busy thread none }

def load (thread : Nat) (op : PeerOp) (readable : Bool) (w : PeerWorld) : PeerWorld :=
  match w.busy thread with
  | some _ => w
  | none =>
    if op.loads env cfg then
      match if readable then some w.file else op.unloaded with
      | some copy => { w with busy := Function.update w.busy thread (some { op, copy }) }
      | none => w
    else w

def reload (thread : Nat) (w : PeerWorld) : PeerWorld :=
  match w.busy thread with
  | some { op := .refresh input, .. } =>
    let loaded : OpenOp := { op := .refresh input, copy := w.file, reloaded := true }
    { w with busy := Function.update w.busy thread (some loaded) }
  | _ => w

/-- What an operation under way is about to save, if anything. -/
def saving (now : Time) (o : OpenOp) : Option PeerStore :=
  if o.reloaded then some o.copy
  else
    match o.op.change env cfg now o.copy with
    | .ok saved => saved
    | .error _ => none

def save (thread : Nat) (now : Time) (w : PeerWorld) : PeerWorld :=
  match w.busy thread with
  | none => w
  | some o =>
    match saving env cfg now o with
    | none => w.close thread
    | some store => { w.close thread with file := store, decided := o.op.decide env now w.decided }

def turn (thread : Nat) (peerUrl : String) (now : Time) (outcome : TurnEnd) (w : PeerWorld) :
    PeerWorld :=
  match w.busy thread with
  | some { op := .cycle, copy, .. } =>
    match modifyRecord env peerUrl (outcome.mark now) copy with
    | .error _ => w.close thread
    | .ok store =>
      { w with
        file := store
        busy := Function.update w.busy thread (some { op := .cycle, copy := store }) }
  | _ => w

end PeerWorld

def peerStep (w : PeerWorld) : PeerAction → PeerWorld
  | .load thread op readable => w.load env cfg thread op readable
  | .reload thread => w.reload thread
  | .save thread now => w.save env cfg thread now
  | .turn thread peerUrl now outcome => w.turn env thread peerUrl now outcome
  | .leave thread => w.close thread

/-- A store has the peers that the operator decided about as they were decided. -/
def Shows (store : PeerStore) (decided : Decisions) : Prop :=
  ∀ k b, decided k = some b → ∃ r, List.lookup k store = some r ∧ r.enabled = b

/-- An operation of the node leaves the decisions to the operator: it announces no peer that is
    disabled, and prunes none that was decided about. -/
def Defers (now : Time) (decided : Decisions) (o : OpenOp) : Prop :=
  (∀ k ∈ storedKeys env (o.op.records env cfg now), decided k ≠ some false) ∧
  ∀ input, o.op = .refresh input → cfg.privateTransportRequired = true →
    ∀ k b r, decided k = some b → List.lookup k o.copy = some r → isPrivateTransport env r.transport

/-- What is saved is no older than the decisions, and respects them. -/
def Respectful (w : PeerWorld) : PeerAction → Prop
  | .save thread now => ∀ o, w.busy thread = some o → (PeerWorld.saving env cfg now o).isSome →
    Shows o.copy w.decided ∧ (o.reloaded = false → Defers env cfg now w.decided o)
  | .turn thread peerUrl now outcome => ∀ o, w.busy thread = some o → o.op = .cycle →
    (modifyRecord env peerUrl (outcome.mark now) o.copy).isOk → Shows o.copy w.decided
  | _ => True

/-- The operator's last word holds: what was disabled is so in the file and is not asked, and what
    was added or enabled is there and enabled. -/
structure DecisionsHold (w : PeerWorld) : Prop where
  disabled : ∀ k, w.decided k = some false →
    (∃ r, List.lookup k w.file = some r ∧ r.enabled = false) ∧
      ∀ now, ∀ r ∈ eligibleSyncPeers env cfg w.file now, r.recordKey ≠ k
  enabled : ∀ k, w.decided k = some true → ∃ r, List.lookup k w.file = some r ∧ r.enabled = true

end Model

section

variable {env : SyncEnv} {cfg : SyncSettings} {store store' : PeerStore} {records : List PeerRecord}
  {r r' : PeerRecord} {k : RecordKey} {decided : Decisions} {now : Time} {w : PeerWorld}
  {thread : Nat}

/-! ## What the changes do to a record -/

theorem normalize_enabled (h : normalizePeerRecord env r = .ok r') : r'.enabled = r.enabled := by
  unfold normalizePeerRecord at h
  simp only [bind_eq_ok, require_eq_ok, exists_const] at h
  obtain ⟨-, -, -, -, -, h⟩ := h
  obtain rfl := pure_eq_ok.mp h
  rfl

theorem storedKeys_cons (h : normalizePeerRecord env r = .ok r') :
    storedKeys env (r :: records) = r'.recordKey :: storedKeys env records := by
  simp [storedKeys, h, Except.toOption]

/-- Upserts of enabled records leave the peers that they announce enabled, and the others alone. -/
theorem upsertAll_lookup (h : upsertAll env records store = .ok store')
    (henabled : ∀ r ∈ records, r.enabled = true) :
    (k ∈ storedKeys env records → ∃ r, List.lookup k store' = some r ∧ r.enabled = true) ∧
      (k ∉ storedKeys env records → List.lookup k store' = List.lookup k store) := by
  unfold upsertAll at h
  induction records generalizing store with
  | nil =>
    obtain rfl := Except.ok.inj h
    exact ⟨fun hk => absurd hk List.not_mem_nil, fun _ => rfl⟩
  | cons r records ih =>
    rw [List.foldlM_cons] at h
    obtain ⟨next, hnext, h⟩ := bind_eq_ok.mp h
    obtain ⟨r', hr', hnext⟩ := bind_eq_ok.mp hnext
    obtain rfl := pure_eq_ok.mp hnext
    obtain ⟨hannounced, hother⟩ := ih h fun x hx => henabled x (List.mem_cons_of_mem r hx)
    have hr : r'.enabled = true :=
      (normalize_enabled hr').trans (henabled r List.mem_cons_self)
    rw [storedKeys_cons hr']
    constructor
    · intro hk
      by_cases hlater : k ∈ storedKeys env records
      · exact hannounced hlater
      · have heq := (List.mem_cons.mp hk).resolve_right hlater
        rw [hother hlater, lookup_upsert, if_pos heq]
        cases List.lookup r'.recordKey store with
        | none => exact ⟨r', rfl, hr⟩
        | some existing => exact ⟨mergeRecord r' existing, rfl, hr⟩
    · intro hk
      rw [List.mem_cons, not_or] at hk
      rw [hother hk.2, lookup_upsert, if_neg hk.1]

theorem refreshRecords_enabled (input : RefreshInput) :
    ∀ r ∈ refreshRecords env cfg now input, r.enabled = true := by
  intro r hr
  simp only [refreshRecords, List.mem_append, List.mem_flatMap] at hr
  rcases hr with (⟨p, -, hr⟩ | ⟨p, -, hr⟩) | ⟨p, -, hr⟩ <;>
    · simp only [List.mem_cons, List.not_mem_nil, or_false] at hr
      rcases hr with rfl | rfl <;> rfl

theorem swarmRecords_enabled (signerId : String) (peers : List ManifestPeer) :
    ∀ r ∈ swarmRecords cfg now signerId peers, r.enabled = true := by
  intro r hr
  obtain ⟨p, -, hr⟩ := List.mem_flatMap.mp hr
  simp only [List.mem_cons, List.not_mem_nil, or_false] at hr
  rcases hr with rfl | rfl <;> rfl

theorem addRecords_enabled (c : AddCall) (p : ManifestPeer) :
    ∀ r ∈ c.records env now p, r.enabled = true := by
  intro r hr
  obtain ⟨b, -, hb⟩ := List.mem_filterMap.mp hr
  split at hb
  · cases hb
    rfl
  · split at hb
    · cases hb
      rfl
    · cases hb

/-- Upserts keep the decisions, where they announce no peer that is disabled. -/
theorem Shows.upsertAll (hs : Shows store decided) (h : upsertAll env records store = .ok store')
    (henabled : ∀ r ∈ records, r.enabled = true)
    (hdefers : ∀ k ∈ storedKeys env records, decided k ≠ some false) : Shows store' decided := by
  intro k b hk
  have hlookup := @upsertAll_lookup env store store' records k h henabled
  by_cases hmem : k ∈ storedKeys env records
  · cases b with
    | true => exact hlookup.1 hmem
    | false => exact absurd hk (hdefers k hmem)
  · rw [hlookup.2 hmem]
    exact hs k b hk

theorem Stored.filter (hs : Stored env store) (keep : RecordKey × PeerRecord → Bool) :
    Stored env (store.filter keep) where
  distinct := hs.distinct.sublist (List.filter_sublist.map Prod.fst)
  keyed k r hr := by
    have hmem := List.mem_of_mem_filter (OrderedMap.mem_of_lookup hr)
    exact hs.keyed k r (hs.distinct.mem_iff.mp hmem)

theorem lookup_filter (hs : store.Distinct) {keep : RecordKey × PeerRecord → Bool}
    (h : List.lookup k store = some r) (hkeep : keep (k, r) = true) :
    List.lookup k (store.filter keep) = some r := by
  have hdistinct : OrderedMap.Distinct (store.filter keep) :=
    List.Nodup.sublist (List.filter_sublist.map Prod.fst) hs
  exact hdistinct.mem_iff.mp (List.mem_filter.mpr ⟨hs.mem_iff.mpr h, hkeep⟩)

/-- Pruning keeps the decisions about peers that may stay. -/
theorem Shows.pruned (hs : Shows store decided) (hstored : Stored env store)
    (hprivate : cfg.privateTransportRequired = true → ∀ k b r, decided k = some b →
      List.lookup k store = some r → isPrivateTransport env r.transport) :
    Shows (pruned env cfg store) decided := by
  unfold Vincent.Sync.pruned
  split
  · rename_i hrequired
    intro k b hk
    obtain ⟨r, hr, hb⟩ := hs k b hk
    exact ⟨r, lookup_filter hstored.distinct hr (by simpa using hprivate hrequired k b r hk hr), hb⟩
  · exact hs

theorem mark_enabled (outcome : TurnEnd) (r : PeerRecord) :
    (outcome.mark now r).enabled = r.enabled ∧ (outcome.mark now r).recordKey = r.recordKey := by
  cases outcome <;> exact ⟨rfl, rfl⟩

/-- A turn of a cycle rewrites a record under its key, as it was enabled. -/
theorem modifyRecord_spec (decided : Decisions) {peerUrl : String} {outcome : TurnEnd}
    (h : modifyRecord env peerUrl (outcome.mark now) store = .ok store') (hs : Stored env store) :
    Stored env store' ∧ (Shows store decided → Shows store' decided) := by
  unfold modifyRecord at h
  dsimp only at h
  split at h
  · cases h
  · obtain rfl := Except.ok.inj h
    refine ⟨hs.modify fun x => (mark_enabled outcome x).2, ?_⟩
    intro hshows k b hk
    obtain ⟨r, hr, hb⟩ := hshows k b hk
    rw [OrderedMap.lookup_modify]
    split
    · rename_i heq
      subst heq
      exact ⟨outcome.mark now r, by rw [hr]; rfl, (mark_enabled outcome r).1.trans hb⟩
    · exact ⟨r, hr, hb⟩

/-! ## A save -/

/-- What an operation saves of a copy with the decisions has its own and theirs. -/
theorem change_shows (decided : Decisions) {o : OpenOp} (hs : Stored env o.copy)
    (hchange : o.op.change env cfg now o.copy = .ok (some store)) :
    Stored env store ∧ (Shows o.copy decided → Defers env cfg now decided o →
      Shows store (o.op.decide env now decided)) := by
  obtain ⟨op, copy, reloaded⟩ := o
  cases op with
  | add c =>
    unfold PeerOp.change at hchange
    dsimp only at hchange hs
    cases hpeer : c.peer env with
    | none =>
      rw [hpeer] at hchange
      cases hchange
    | some p =>
      rw [hpeer] at hchange
      obtain ⟨saved, hsaved, heq⟩ := map_eq_ok.mp hchange
      obtain rfl := Option.some.inj heq
      refine ⟨upsertAll_stored hsaved hs, fun hshows _ k b hk => ?_⟩
      have hlookup := @upsertAll_lookup env copy saved _ k hsaved (addRecords_enabled c p)
      simp only [PeerOp.decide, hpeer] at hk
      split at hk
      · rename_i hmem
        obtain rfl := Option.some.inj hk
        exact hlookup.1 hmem
      · rename_i hmem
        rw [hlookup.2 hmem]
        exact hshows k b hk
  | remove peerUrl bucket =>
    unfold PeerOp.change at hchange
    dsimp only at hchange hs
    split at hchange
    · obtain rfl := Option.some.inj (Except.ok.inj hchange)
      refine ⟨hs.filter _, fun hshows _ k b hk => ?_⟩
      simp only [PeerOp.decide] at hk
      split at hk
      · cases hk
      · rename_i hmem
        obtain ⟨r, hr, hb⟩ := hshows k b hk
        exact ⟨r, lookup_filter hs.distinct hr (by simpa using hmem), hb⟩
    · cases hchange
  | toggle peerUrl bucket enabled =>
    unfold PeerOp.change at hchange
    dsimp only at hchange hs
    cases hlook : List.lookup (toggledKey env peerUrl bucket) copy with
    | none =>
      rw [hlook] at hchange
      cases hchange
    | some existing =>
      rw [hlook] at hchange
      obtain rfl := Option.some.inj (Except.ok.inj hchange)
      refine ⟨hs.modify fun _ => rfl, fun hshows _ k b hk => ?_⟩
      rw [OrderedMap.lookup_modify]
      simp only [PeerOp.decide] at hk
      by_cases heq : k = toggledKey env peerUrl bucket
      · rw [heq, Function.update_self] at hk
        rw [if_pos heq, hlook]
        exact ⟨_, rfl, Option.some.inj hk⟩
      · rw [Function.update_of_ne heq] at hk
        rw [if_neg heq]
        exact hshows k b hk
  | swarm signerId p =>
    obtain ⟨saved, hsaved, heq⟩ := map_eq_ok.mp hchange
    obtain rfl := Option.some.inj heq
    exact ⟨upsertAll_stored hsaved hs, fun hshows hdefers =>
      hshows.upsertAll hsaved (swarmRecords_enabled signerId [p]) hdefers.1⟩
  | refresh input =>
    obtain ⟨saved, hsaved, heq⟩ := map_eq_ok.mp hchange
    obtain rfl := Option.some.inj heq
    refine ⟨upsertAll_stored hsaved (pruned_stored hs), fun hshows hdefers => ?_⟩
    exact (hshows.pruned hs (hdefers.2 input rfl)).upsertAll hsaved (refreshRecords_enabled input)
      hdefers.1
  | cycle => cases hchange

theorem saving_shows (decided : Decisions) {o : OpenOp} (hs : Stored env o.copy)
    (hreload : o.reloaded = true → ∃ input, o.op = .refresh input)
    (hsaving : PeerWorld.saving env cfg now o = some store) :
    Stored env store ∧ (Shows o.copy decided →
      (o.reloaded = false → Defers env cfg now decided o) →
      Shows store (o.op.decide env now decided)) := by
  unfold PeerWorld.saving at hsaving
  split at hsaving
  · rename_i hreloaded
    obtain rfl := Option.some.inj hsaving
    obtain ⟨input, hop⟩ := hreload hreloaded
    rw [hop]
    exact ⟨hs, fun hshows _ => hshows⟩
  · rename_i hreloaded
    split at hsaving
    · rename_i saved hchange
      subst hsaving
      obtain ⟨hstored, hshows⟩ := change_shows decided hs hchange
      exact ⟨hstored, fun h hdefers => hshows h (hdefers (by simpa using hreloaded))⟩
    · cases hsaving

/-! ## Runs -/

/-- The stores are in order, and the file has the decisions. -/
structure Decided (env : SyncEnv) (w : PeerWorld) : Prop where
  file : Stored env w.file
  copies : ∀ thread o, w.busy thread = some o → Stored env o.copy
  reloads : ∀ thread o, w.busy thread = some o → o.reloaded = true → ∃ input, o.op = .refresh input
  shown : Shows w.file w.decided

theorem stored_nil : Stored env [] where
  distinct := OrderedMap.distinct_nil
  keyed _ _ h := by cases h

theorem Decided.empty : Decided env {} where
  file := stored_nil
  copies _ _ h := by cases h
  reloads _ _ h := by cases h
  shown _ _ h := by cases h

theorem Decided.update (h : Decided env w) {o : Option OpenOp}
    (hcopy : ∀ o', o = some o' → Stored env o'.copy)
    (hreload : ∀ o', o = some o' → o'.reloaded = true → ∃ input, o'.op = .refresh input) :
    Decided env { w with busy := Function.update w.busy thread o } where
  file := h.file
  shown := h.shown
  copies other o' ho' := by
    dsimp only at ho'
    by_cases heq : other = thread
    · rw [heq, Function.update_self] at ho'
      exact hcopy o' ho'
    · rw [Function.update_of_ne heq] at ho'
      exact h.copies other o' ho'
  reloads other o' ho' := by
    dsimp only at ho'
    by_cases heq : other = thread
    · rw [heq, Function.update_self] at ho'
      exact hreload o' ho'
    · rw [Function.update_of_ne heq] at ho'
      exact h.reloads other o' ho'

theorem Decided.close (h : Decided env w) (thread : Nat) : Decided env (w.close thread) := by
  apply h.update
  · intro o ho
    cases ho
  · intro o ho
    cases ho

theorem Decided.load (h : Decided env w) (op : PeerOp) (readable : Bool) :
    Decided env (w.load env cfg thread op readable) := by
  unfold PeerWorld.load
  split
  · exact h
  · split
    · split
      · rename_i copy hcopy
        apply h.update
        · intro o ho
          obtain rfl := Option.some.inj ho
          cases readable with
          | true =>
            obtain rfl := Option.some.inj hcopy
            exact h.file
          | false =>
            have hempty : copy = [] := by
              cases op <;> cases hcopy <;> rfl
            rw [hempty]
            exact stored_nil
        · intro o ho hreloaded
          obtain rfl := Option.some.inj ho
          cases hreloaded
      · exact h
    · exact h

theorem Decided.reload (h : Decided env w) : Decided env (w.reload thread) := by
  unfold PeerWorld.reload
  split
  · rename_i input _ _ _
    apply h.update
    · intro o ho
      obtain rfl := Option.some.inj ho
      exact h.file
    · intro o ho _
      obtain rfl := Option.some.inj ho
      exact ⟨input, rfl⟩
  · exact h

theorem Decided.step (w : PeerWorld) (a : PeerAction) (h : Decided env w)
    (ha : Respectful env cfg w a) : Decided env (peerStep env cfg w a) := by
  cases a with
  | load thread op readable => exact h.load op readable
  | reload thread => exact h.reload
  | leave thread => exact h.close thread
  | save thread now =>
    unfold peerStep PeerWorld.save
    dsimp only
    cases hbusy : w.busy thread with
    | none => exact h
    | some o =>
      dsimp only
      cases hsaving : PeerWorld.saving env cfg now o with
      | none => exact h.close thread
      | some store =>
        obtain ⟨hcurrent, hdefers⟩ := ha o hbusy (by rw [hsaving]; rfl)
        obtain ⟨hstored, hshows⟩ := saving_shows w.decided
          (h.copies thread o hbusy) (h.reloads thread o hbusy) hsaving
        have hclosed := h.close thread
        exact ⟨hstored, hclosed.copies, hclosed.reloads, hshows hcurrent hdefers⟩
  | turn thread peerUrl now outcome =>
    unfold peerStep PeerWorld.turn
    dsimp only
    split
    · rename_i copy reloaded hbusy
      cases hmodify : modifyRecord env peerUrl (outcome.mark now) copy with
      | error exn => exact h.close thread
      | ok store =>
        have hcurrent := ha _ hbusy rfl (by rw [hmodify]; rfl)
        obtain ⟨hstored, hshows⟩ := modifyRecord_spec w.decided hmodify
          (h.copies thread _ hbusy)
        have hnext : Decided env { w with
            busy := Function.update w.busy thread (some { op := .cycle, copy := store }) } := by
          apply h.update
          · intro o ho
            obtain rfl := Option.some.inj ho
            exact hstored
          · intro o ho hreloaded
            obtain rfl := Option.some.inj ho
            cases hreloaded
        exact ⟨hstored, hnext.copies, hnext.reloads, hshows hcurrent⟩
    · exact h

theorem Decided.holds (h : Decided env w) : DecisionsHold env cfg w where
  disabled k hk := by
    refine ⟨h.shown k false hk, fun now r hr heq => ?_⟩
    obtain ⟨held, hheld, hdisabled⟩ := h.shown k false hk
    have hfiltered := (List.mem_insertionSort _).mp (List.mem_of_mem_take hr)
    obtain ⟨hvalue, hcond⟩ := List.mem_filter.mp hfiltered
    obtain ⟨-, -, henabled, -⟩ := of_decide_eq_true hcond
    have hlookup := mem_values h.file hvalue
    rw [heq, hheld] at hlookup
    obtain rfl := Option.some.inj hlookup
    rw [hdisabled] at henabled
    cases henabled
  enabled k hk := h.shown k true hk

/-- Where no copy older than a decision is saved, nor a decision undone by an announcement or a
    prune, the operator's last word holds. -/
theorem decisions_hold {as : List PeerAction}
    (hrun : Along (peerStep env cfg) (Respectful env cfg) {} as) :
    DecisionsHold env cfg (run (peerStep env cfg) {} as) :=
  (invariant Decided.step Decided.empty hrun).holds

/-- What is loaded from a file with the decisions has them. -/
theorem Decided.load_shows (h : Decided env w) {op : PeerOp} {o : OpenOp}
    (hidle : w.busy thread = none) (hloads : op.loads env cfg)
    (ho : (w.load env cfg thread op true).busy thread = some o) : Shows o.copy w.decided := by
  unfold PeerWorld.load at ho
  rw [hidle, if_pos hloads] at ho
  have hbusy : Function.update w.busy thread (some { op, copy := w.file }) thread = some o := ho
  rw [Function.update_self] at hbusy
  obtain rfl := Option.some.inj hbusy
  exact h.shown

end

/-! ## A relay that is disabled -/

/-- The operator adds a relay. -/
def addRelay : List PeerAction :=
  [.load 1 (.add { peerUrl := "http://relay.onion" }) true, .save 1 0]

/-- The operator disables it. -/
def disableRelay : List PeerAction :=
  [.load 1 (.toggle "http://relay.onion" "sync" false) true, .save 1 1]

theorem addRelay_respectful :
    Along (peerStep plainSyncEnv plainSettings) (Respectful plainSyncEnv plainSettings) {}
      addRelay := by
  refine ⟨trivial, fun o ho _ => ?_, trivial⟩
  obtain rfl := Option.some.inj ho
  constructor
  · intro k b hk
    cases hk
  · refine fun _ => ⟨fun k hk => absurd hk List.not_mem_nil, fun input heq => ?_⟩
    cases heq

/-- A relay that was added stays through a failed sync. -/
theorem decisions_hold_sample : DecisionsHold plainSyncEnv plainSettings
    (run (peerStep plainSyncEnv plainSettings) {}
      (addRelay ++ [.load 2 .cycle true, .turn 2 "http://relay.onion" 2 (.failed "timeout" 60)])) := by
  apply decisions_hold
  rw [along_append]
  refine ⟨addRelay_respectful, trivial, fun o ho _ _ => ?_, trivial⟩
  have hdecided := invariant Decided.step Decided.empty addRelay_respectful
  have hloads : PeerOp.cycle.loads plainSyncEnv plainSettings := trivial
  have hidle : (run (peerStep plainSyncEnv plainSettings) {} addRelay).busy 2 = none := by rfl
  exact hdecided.load_shows hidle hloads ho

/-- A relay that was disabled is enabled when it is announced again. -/
theorem not_decisions_hold : ¬ ∀ env cfg as,
    DecisionsHold env cfg (run (peerStep env cfg) {} as) := by
  intro h
  have hholds := h plainSyncEnv plainSettings (addRelay ++ disableRelay ++
    [.load 2 (.swarm "signer" ⟨"http://relay.onion", "onion", "relay", ""⟩) true, .save 2 2])
  have hdecided : (run (peerStep plainSyncEnv plainSettings) {} (addRelay ++ disableRelay ++
      [.load 2 (.swarm "signer" ⟨"http://relay.onion", "onion", "relay", ""⟩) true,
        .save 2 2])).decided ⟨"sync", "http://relay.onion"⟩ = some false := by
    decide +kernel
  have henabled : (List.lookup ⟨"sync", "http://relay.onion"⟩
      (run (peerStep plainSyncEnv plainSettings) {} (addRelay ++ disableRelay ++
        [.load 2 (.swarm "signer" ⟨"http://relay.onion", "onion", "relay", ""⟩) true,
          .save 2 2])).file).map PeerRecord.enabled = some true := by
    decide +kernel
  obtain ⟨r, hr, hdisabled⟩ := (hholds.disabled _ hdecided).1
  rw [hr, Option.map_some, hdisabled] at henabled
  cases henabled

end Vincent.Sync
