-- SUMMARY: Waits that peers ask for, and the runs in which they get them.
import Vincent.Mesh.SyncCycle

/-!
# Patience

A wait is kept by the cooldown of a peer: a cycle asks only peers whose cooldown is
over, each once, and merges keep the longer one. What remains is whether it is as long
as the wait, and whether a refresh clears it.
-/

namespace Vincent.Sync

open Vincent.Python Vincent.Check Vincent.Run

section

variable {env : SyncEnv} {cfg : SyncSettings} {store store' : PeerStore} {node : Node}
  {now : Time} {p : String} {w : Time} {r r' : PeerRecord} {records : List PeerRecord}

theorem seconds_le {t : Time} (ht : 0 ≤ t) : (seconds t : Time) ≤ t := by
  have hfloor : seconds t = ⌊t⌋ := by
    rw [Rat.floor_def', seconds, Int.tdiv_eq_ediv_of_nonneg (Rat.num_nonneg.mpr ht)]
  rw [hfloor]
  exact Int.floor_le t

/-! ## Stores -/

/-- Every record stands under its own key, with a normalized URL. -/
structure Stored (env : SyncEnv) (store : PeerStore) : Prop where
  distinct : store.Distinct
  keyed : ∀ k r, List.lookup k store = some r →
    k = r.recordKey ∧ env.normalizePeerUrl r.peerUrl = r.peerUrl

/-- The record of a peer cools down until the time `w`, and no refresh prunes it. -/
def Cooling (env : SyncEnv) (cfg : SyncSettings) (store : PeerStore) (p : String) (w : Time) : Prop :=
  ∃ r, List.lookup ⟨"sync", p⟩ store = some r ∧ w ≤ r.cooldownUntil ∧
    (cfg.privateTransportRequired = true → isPrivateTransport env r.transport)

theorem lookup_upsert (k : RecordKey) : List.lookup k (upsert r store) =
    if k = r.recordKey then
      some (((List.lookup r.recordKey store).map (mergeRecord r)).getD r)
    else List.lookup k store := OrderedMap.lookup_upsert

theorem Stored.upsert (hs : Stored env store) (hr : env.normalizePeerUrl r.peerUrl = r.peerUrl) :
    Stored env (upsert r store) where
  distinct := hs.distinct.upsert
  keyed k held hlookup := by
    rw [lookup_upsert] at hlookup
    split at hlookup
    · rename_i hk
      obtain rfl := Option.some.inj hlookup
      rw [hk]
      cases List.lookup r.recordKey store with
      | none => exact ⟨rfl, hr⟩
      | some existing => exact ⟨rfl, hr⟩
    · exact hs.keyed k held hlookup

/-- An upsert that is no explicit refresh of a peer keeps the cooldown of the peer. -/
theorem Cooling.upsert (h : Cooling env cfg store p w)
    (hallowed : cfg.privateTransportRequired = true → isPrivateTransport env r.transport)
    (hseed : explicitSeedRefresh r → r.peerUrl ≠ p) : Cooling env cfg (upsert r store) p w := by
  obtain ⟨existing, hlookup, hcooling, hprivate⟩ := h
  unfold Cooling
  rw [lookup_upsert]
  by_cases hk : RecordKey.mk "sync" p = r.recordKey
  · rw [if_pos hk, ← hk, hlookup]
    have hp : r.peerUrl = p := (congrArg RecordKey.peerUrl hk).symm
    refine ⟨_, rfl, ?_, hallowed⟩
    have hnot : ¬ explicitSeedRefresh r := fun h => hseed h hp
    have hmax : (mergeRecord r existing).cooldownUntil = max existing.cooldownUntil r.cooldownUntil :=
      if_neg hnot
    rw [Option.map_some, Option.getD_some, hmax]
    exact hcooling.trans (by exact_mod_cast le_max_left _ _)
  · rw [if_neg hk]
    exact ⟨existing, hlookup, hcooling, hprivate⟩

theorem lowered_private {t : String} (h : t ∈ ["onion", "rns"]) : lowered env t = t := by
  have hlower : ∀ t : String, strip t = t → t.toList.all (fun c => c.val < 128) = true →
      String.ofList (t.toList.map Char.toLower) = t → lowered env t = t := by
    intro t hstrip hascii hsame
    rw [lowered, hstrip, env.rt.lower_ascii t (by simpa using hascii), hsame]
  simp only [List.mem_cons, List.not_mem_nil, or_false] at h
  rcases h with rfl | rfl
  · exact hlower _ (by decide +kernel) (by decide +kernel) (by decide +kernel)
  · exact hlower _ (by decide +kernel) (by decide +kernel) (by decide +kernel)

theorem normalize_spec (h : normalizePeerRecord env r = .ok r') :
    env.normalizePeerUrl r'.peerUrl = r'.peerUrl ∧ r'.transport = lowered env r.transport := by
  unfold normalizePeerRecord at h
  simp only [bind_eq_ok, require_eq_ok, exists_const] at h
  obtain ⟨-, -, ⟨-, hnormal⟩, -, -, h⟩ := h
  obtain rfl := pure_eq_ok.mp h
  refine ⟨?_, rfl⟩
  dsimp only
  rw [hnormal, hnormal]

theorem normalize_allowed (h : normalizePeerRecord env r = .ok r')
    (hr : isPrivateTransport env r.transport) : isPrivateTransport env r'.transport := by
  unfold isPrivateTransport at hr ⊢
  rw [(normalize_spec h).2, lowered_private hr]
  exact hr

theorem upsertAll_stored (h : upsertAll env records store = .ok store') (hs : Stored env store) :
    Stored env store' := by
  unfold upsertAll at h
  induction records generalizing store with
  | nil =>
    obtain rfl := Except.ok.inj h
    exact hs
  | cons r records ih =>
    rw [List.foldlM_cons] at h
    obtain ⟨next, hnext, h⟩ := bind_eq_ok.mp h
    obtain ⟨r', hr', hnext⟩ := bind_eq_ok.mp hnext
    obtain rfl := pure_eq_ok.mp hnext
    exact ih h (hs.upsert (normalize_spec hr').1)

/-- The records that are upserted obey the transport policy. -/
def Allowed (env : SyncEnv) (cfg : SyncSettings) (records : List PeerRecord) : Prop :=
  ∀ r ∈ records, cfg.privateTransportRequired = true → isPrivateTransport env r.transport

theorem upsertAll_cooling (h : upsertAll env records store = .ok store')
    (hallowed : Allowed env cfg records)
    (hseed : ∀ r ∈ records, ∀ r', normalizePeerRecord env r = .ok r' → explicitSeedRefresh r' →
      r'.peerUrl ≠ p)
    (hcooling : Cooling env cfg store p w) : Cooling env cfg store' p w := by
  unfold upsertAll at h
  induction records generalizing store with
  | nil =>
    obtain rfl := Except.ok.inj h
    exact hcooling
  | cons r records ih =>
    rw [List.foldlM_cons] at h
    obtain ⟨next, hnext, h⟩ := bind_eq_ok.mp h
    obtain ⟨r', hr', hnext⟩ := bind_eq_ok.mp hnext
    obtain rfl := pure_eq_ok.mp hnext
    refine ih h (fun x hx => hallowed x (List.mem_cons_of_mem _ hx))
      (fun x hx => hseed x (List.mem_cons_of_mem _ hx)) ?_
    refine hcooling.upsert (fun hprivate => ?_) (hseed r List.mem_cons_self r' hr')
    exact normalize_allowed hr' (hallowed r List.mem_cons_self hprivate)

theorem pruned_stored (hs : Stored env store) : Stored env (pruned env cfg store) := by
  unfold pruned
  split
  · have hdistinct : OrderedMap.Distinct (store.filter fun kv => isPrivateTransport env kv.2.transport) :=
      List.Nodup.sublist (List.Sublist.map _ List.filter_sublist) hs.distinct
    refine ⟨hdistinct, fun k r hr => ?_⟩
    have hmem := List.mem_of_mem_filter (hdistinct.mem_iff.mpr hr)
    exact hs.keyed k r (hs.distinct.mem_iff.mp hmem)
  · exact hs

theorem Cooling.pruned (hs : Stored env store) (h : Cooling env cfg store p w) :
    Cooling env cfg (pruned env cfg store) p w := by
  unfold Sync.pruned
  split
  · rename_i hrequired
    obtain ⟨r, hlookup, hcooling, hprivate⟩ := h
    have hdistinct : OrderedMap.Distinct (store.filter fun kv => isPrivateTransport env kv.2.transport) :=
      List.Nodup.sublist (List.Sublist.map _ List.filter_sublist) hs.distinct
    refine ⟨r, hdistinct.mem_iff.mp (List.mem_filter.mpr ⟨hs.distinct.mem_iff.mpr hlookup, ?_⟩),
      hcooling, hprivate⟩
    simpa using hprivate hrequired
  · exact h

/-! ## Refreshes and merges -/

theorem allowed_flatMap {peers : List ManifestPeer} {f : ManifestPeer → List PeerRecord}
    (hf : ∀ q, ∀ x ∈ f q, x.transport = q.transport) :
    Allowed env cfg ((allowedPeers env cfg peers).flatMap f) := by
  intro x hx hrequired
  obtain ⟨q, hq, hxq⟩ := List.mem_flatMap.mp hx
  rw [hf q x hxq]
  exact of_decide_eq_true (List.mem_filter.mp hq).2 hrequired

theorem refreshRecords_allowed (input : RefreshInput) :
    Allowed env cfg (refreshRecords env cfg now input) := by
  intro x hx
  unfold refreshRecords at hx
  rw [List.mem_append, List.mem_append] at hx
  rcases hx with (hx | hx) | hx
  · exact allowed_flatMap (by simp [makeRecord]) x hx
  · exact allowed_flatMap (by simp [makeRecord]) x hx
  · exact allowed_flatMap (by simp [makeRecord]) x hx

theorem swarmRecords_allowed (signerId : String) (peers : List ManifestPeer) :
    Allowed env cfg (swarmRecords cfg now signerId peers) := by
  intro x hx hrequired
  obtain ⟨q, hq, hxq⟩ := List.mem_flatMap.mp hx
  have htransport : x.transport = q.transport := by
    simp only [List.mem_cons, List.not_mem_nil, or_false] at hxq
    rcases hxq with rfl | rfl <;> rfl
  have honion : q.transport = "onion" := of_decide_eq_true (List.mem_filter.mp hq).2 hrequired
  unfold isPrivateTransport
  rw [htransport, honion, lowered_private (by decide)]
  decide

theorem swarmRecords_seed {signerId : String} {peers : List ManifestPeer} {x : PeerRecord}
    (hx : x ∈ swarmRecords cfg now signerId peers) (h : normalizePeerRecord env x = .ok r') :
    ¬ explicitSeedRefresh r' := by
  rintro ⟨hbucket, -, hsource⟩
  unfold normalizePeerRecord at h
  simp only [bind_eq_ok, require_eq_ok, exists_const] at h
  obtain ⟨-, -, -, -, -, h⟩ := h
  obtain rfl := pure_eq_ok.mp h
  obtain ⟨q, -, hxq⟩ := List.mem_flatMap.mp hx
  simp only [List.mem_cons, List.not_mem_nil, or_false] at hxq
  rcases hxq with rfl | rfl
  · simp [makeRecord] at hsource
  · simp [makeRecord] at hsource

theorem mergeManifest_stored (hs : Stored env store) (signerId : String) (peers : List ManifestPeer) :
    Stored env (mergeManifest env cfg now signerId peers store) := by
  induction peers generalizing store with
  | nil => exact hs
  | cons q peers ih =>
    unfold mergeManifest
    split
    · exact hs
    · rename_i merged hmerged
      exact ih (upsertAll_stored hmerged hs)

theorem mergeManifest_cooling (signerId : String) (peers : List ManifestPeer)
    (h : Cooling env cfg store p w) :
    Cooling env cfg (mergeManifest env cfg now signerId peers store) p w := by
  induction peers generalizing store with
  | nil => exact h
  | cons q peers ih =>
    unfold mergeManifest
    split
    · exact h
    · rename_i merged hmerged
      refine ih (upsertAll_cooling hmerged (swarmRecords_allowed _ _) ?_ h)
      exact fun x hx r' hr' hseed => absurd hseed (swarmRecords_seed hx hr')

theorem refresh_stored (hs : Stored env store) (input : RefreshInput) :
    Stored env (refreshNodePeerStore env cfg now input store) := by
  unfold refreshNodePeerStore
  split
  · exact hs
  · rename_i refreshed hrefreshed
    cases hpulled : mergePulled env cfg now input store with
    | none => exact upsertAll_stored hrefreshed (pruned_stored hs)
    | some merged =>
      obtain ⟨pulled, -, hmerged⟩ := Option.bind_eq_some_iff.mp hpulled
      cases hupsert : upsertAll env (swarmRecords cfg now pulled.2 pulled.1) store with
      | error e =>
        rw [hupsert] at hmerged
        cases hmerged
      | ok s =>
        rw [hupsert] at hmerged
        obtain rfl := Option.some.inj hmerged
        exact upsertAll_stored hupsert hs

/-- A refresh keeps the cooldown of a peer, unless its own upserts count and write the peer as a seed. -/
theorem refresh_cooling (hs : Stored env store) (input : RefreshInput)
    (hseed : mergePulled env cfg now input store = none →
      ∀ r ∈ refreshRecords env cfg now input, ∀ r', normalizePeerRecord env r = .ok r' →
        explicitSeedRefresh r' → r'.peerUrl ≠ p)
    (h : Cooling env cfg store p w) :
    Cooling env cfg (refreshNodePeerStore env cfg now input store) p w := by
  unfold refreshNodePeerStore
  split
  · exact h
  · rename_i refreshed hrefreshed
    cases hpulled : mergePulled env cfg now input store with
    | none =>
      exact upsertAll_cooling hrefreshed (refreshRecords_allowed input) (hseed hpulled) (h.pruned hs)
    | some merged =>
      obtain ⟨pulled, -, hmerged⟩ := Option.bind_eq_some_iff.mp hpulled
      cases hupsert : upsertAll env (swarmRecords cfg now pulled.2 pulled.1) store with
      | error e =>
        rw [hupsert] at hmerged
        cases hmerged
      | ok s =>
        rw [hupsert] at hmerged
        obtain rfl := Option.some.inj hmerged
        refine upsertAll_cooling hupsert (swarmRecords_allowed _ _) ?_ h
        exact fun x hx r' hr' hseed => absurd hseed (swarmRecords_seed hx hr')

/-! ## Eligible peers -/

theorem mem_values (hs : Stored env store) (hr : r ∈ store.values) :
    List.lookup r.recordKey store = some r := by
  obtain ⟨kv, hkv, rfl⟩ := List.mem_map.mp hr
  have hlookup := hs.distinct.mem_iff.mp (show (kv.1, kv.2) ∈ store from hkv)
  rw [← (hs.keyed _ _ hlookup).1]
  exact hlookup

theorem values_nodup (hs : Stored env store) : store.values.Nodup := by
  have hkeys : store.values.map PeerRecord.recordKey = store.map Prod.fst := by
    unfold OrderedMap.values
    rw [List.map_map]
    refine List.map_congr_left fun kv hkv => ?_
    exact (hs.keyed kv.1 kv.2 (hs.distinct.mem_iff.mp hkv)).1.symm
  exact List.Nodup.of_map PeerRecord.recordKey (hkeys ▸ hs.distinct)

/-- A peer that is asked is one of the store, and its cooldown is over. -/
theorem mem_eligible (hs : Stored env store) (hr : r ∈ eligibleSyncPeers env cfg store now) :
    List.lookup ⟨"sync", r.peerUrl⟩ store = some r ∧ r.cooldownUntil ≤ seconds now ∧
      (cfg.privateTransportRequired = true → isPrivateTransport env r.transport) := by
  have hfiltered := (List.mem_insertionSort _).mp (List.mem_of_mem_take hr)
  obtain ⟨hvalue, hcond⟩ := List.mem_filter.mp hfiltered
  obtain ⟨hprivate, hbucket, -, hcooldown⟩ := of_decide_eq_true hcond
  refine ⟨?_, hcooldown, hprivate⟩
  have hlookup := mem_values hs hvalue
  rwa [PeerRecord.recordKey, hbucket] at hlookup

theorem eligible_nodup (hs : Stored env store) :
    ((eligibleSyncPeers env cfg store now).map PeerRecord.peerUrl).Nodup := by
  have hnodup : (eligibleSyncPeers env cfg store now).Nodup :=
    ((List.perm_insertionSort _ _).nodup_iff.mpr ((values_nodup hs).filter _)).sublist
      (List.take_sublist _ _)
  refine hnodup.map_on fun a ha b hb hsame => ?_
  have hlookup := (mem_eligible hs ha).1
  rw [hsame, (mem_eligible hs hb).1] at hlookup
  exact (Option.some.inj hlookup).symm

/-! ## Turns -/

variable {t : Turn}

/-- A wait that a turn notes is the one of a 429, which comes back without its status. -/
theorem mem_turnEvents {q : String} {time : Time} {wait : Int}
    (h : SyncEvent.limited q time wait ∈ turnEvents env r t) :
    q = r.peerUrl ∧ time = t.answeredAt ∧ ∃ retryAfter detail, t.answer = .status 429 retryAfter detail ∧
      parseRetryAfterHeader env retryAfter t.answeredAt = .ok wait ∧
      callResult env t.answeredAt t.answer = { ok := false, error := detail, retryAfterS := wait } := by
  unfold turnEvents at h
  cases hanswer : t.answer with
  | synced | failed | raised => simp [hanswer] at h
  | status code retryAfter detail =>
    rw [hanswer] at h
    dsimp only at h
    by_cases hcode : code = 429
    · subst hcode
      rw [if_pos rfl] at h
      cases hparse : parseRetryAfterHeader env retryAfter t.answeredAt with
      | error e => simp [hparse] at h
      | ok seconds =>
        simp only [hparse, List.mem_cons, reduceCtorEq, List.not_mem_nil, or_false, false_or,
          SyncEvent.limited.injEq] at h
        obtain ⟨hq, htime, rfl⟩ := h
        refine ⟨hq, htime, retryAfter, detail, rfl, hparse, ?_⟩
        unfold callResult
        dsimp only
        rw [if_pos rfl, hparse]
    · simp [hcode] at h

/-- The configured cooldown is what a 429 gets. -/
theorem cooldownSeconds_eq {failures : Nat} {result : CallResult} (h : result.httpStatusCode = 0) :
    cooldownSeconds env cfg r failures result =
      if isSeedPeer env r then cfg.seedFailureCooldownS else cfg.relayFailureCooldownS := by
  unfold cooldownSeconds
  rw [h]
  exact if_neg (by decide)

/-- What a run keeps: every wait is over, or the cooldown of its peer lasts as long. -/
structure Kept (env : SyncEnv) (cfg : SyncSettings) (node : Node) : Prop where
  stored : Stored env node.store
  clock : 0 ≤ node.clock
  patient : Patient node.log
  held : ∀ q time (wait : Int), SyncEvent.limited q time wait ∈ node.log →
    time + wait ≤ node.clock ∨ Cooling env cfg node.store q (time + wait)

/-- The peers that a cycle has still to ask: each is in the store, and none of them waits. -/
structure Asked (env : SyncEnv) (cfg : SyncSettings) (peers : List PeerRecord) (node : Node) : Prop where
  nodup : (peers.map PeerRecord.peerUrl).Nodup
  there : ∀ r ∈ peers, List.lookup ⟨"sync", r.peerUrl⟩ node.store = some r ∧
    (cfg.privateTransportRequired = true → isPrivateTransport env r.transport)
  waited : ∀ r ∈ peers, ∀ time (wait : Int), SyncEvent.limited r.peerUrl time wait ∈ node.log →
    time + wait ≤ node.clock

theorem turn_patient {log : List SyncEvent} (h : Patient log)
    (hwaited : ∀ time (wait : Int), SyncEvent.limited r.peerUrl time wait ∈ log → time + wait ≤ t.sentAt) :
    Patient (log ++ turnEvents env r t) := by
  unfold Patient
  rw [List.pairwise_append]
  refine ⟨h, ?_, fun a ha b hb => ?_⟩
  · unfold turnEvents
    refine List.pairwise_cons.mpr ⟨fun b _ => trivial, ?_⟩
    split
    · split
      · split
        · exact List.pairwise_singleton _ _
        · exact List.Pairwise.nil
      · exact List.Pairwise.nil
    · exact List.Pairwise.nil
  · cases a with
    | sent q u => trivial
    | limited q time wait =>
      cases b with
      | limited _ _ _ => trivial
      | sent q' u =>
        have hsent : SyncEvent.sent q' u = .sent r.peerUrl t.sentAt := by
          unfold turnEvents at hb
          rcases List.mem_cons.mp hb with hb | hb
          · exact hb
          · split at hb
            · split at hb
              · split at hb
                · simp at hb
                · cases hb
              · cases hb
            · cases hb
        obtain ⟨rfl, rfl⟩ := SyncEvent.sent.inj hsent
        rintro rfl
        exact hwaited time wait ha

variable {f : PeerRecord → PeerRecord}

theorem modifyRecord_ok (hs : Stored env store) (hr : List.lookup ⟨"sync", r.peerUrl⟩ store = some r) :
    modifyRecord env r.peerUrl f store = .ok (OrderedMap.modify ⟨"sync", r.peerUrl⟩ f store) := by
  unfold modifyRecord
  rw [(hs.keyed _ _ hr).2]
  dsimp only
  rw [hr]

theorem Stored.modify {k : RecordKey} (hs : Stored env store)
    (hf : ∀ x, (f x).recordKey = x.recordKey) : Stored env (OrderedMap.modify k f store) where
  distinct := hs.distinct.modify
  keyed k' x hx := by
    rw [OrderedMap.lookup_modify] at hx
    split at hx
    · rename_i hk
      obtain ⟨y, hy, rfl⟩ := Option.map_eq_some_iff.mp hx
      obtain ⟨hkey, hnormal⟩ := hs.keyed k y hy
      have hurl : (f y).peerUrl = y.peerUrl := congrArg RecordKey.peerUrl (hf y)
      rw [hk, hf y, hurl]
      exact ⟨hkey, hnormal⟩
    · exact hs.keyed k' x hx

theorem turn_kept (f : PeerRecord → PeerRecord) (node' : Node) {turns : List Turn} {peers : List PeerRecord}
    (hkept : Kept env cfg node) (hasked : Asked env cfg (r :: peers) node)
    (htimes : Ordered node.clock (t :: turns)) (hf : ∀ x, (f x).recordKey = x.recordKey)
    (hstore : node'.store = OrderedMap.modify ⟨"sync", r.peerUrl⟩ f node.store)
    (hlog : node'.log = node.log ++ turnEvents env r t) (hclock : node'.clock = t.storedAt)
    (hcools : ∀ time (wait : Int), SyncEvent.limited r.peerUrl time wait ∈ turnEvents env r t →
      time + wait ≤ (f r).cooldownUntil ∧ (f r).transport = r.transport) :
    Kept env cfg node' ∧ Asked env cfg peers node' := by
  obtain ⟨hsent, hanswered, hstored, -⟩ := htimes
  obtain ⟨hthere, hprivate⟩ := hasked.there r List.mem_cons_self
  have hlater : node.clock ≤ t.storedAt := hsent.trans (hanswered.trans hstored)
  have hwaited := hasked.waited r List.mem_cons_self
  obtain ⟨hfresh, hnodup⟩ := List.nodup_cons.mp hasked.nodup
  have hother : ∀ q, q ≠ r.peerUrl → List.lookup ⟨"sync", q⟩ node'.store =
      List.lookup ⟨"sync", q⟩ node.store := by
    intro q hq
    rw [hstore, OrderedMap.lookup_modify, if_neg fun h => hq (congrArg RecordKey.peerUrl h)]
  have hself : List.lookup ⟨"sync", r.peerUrl⟩ node'.store = some (f r) := by
    rw [hstore, OrderedMap.lookup_modify, if_pos rfl, hthere, Option.map_some]
  refine ⟨⟨hstore ▸ hkept.stored.modify hf, ?_, ?_, ?_⟩, ⟨hnodup, ?_, ?_⟩⟩
  · exact hclock ▸ hkept.clock.trans hlater
  · exact hlog ▸ turn_patient hkept.patient fun time wait h => (hwaited time wait h).trans hsent
  · intro q time wait h
    rw [hlog, List.mem_append] at h
    rw [hclock]
    rcases h with h | h
    · by_cases hq : q = r.peerUrl
      · subst hq
        exact .inl ((hwaited time wait h).trans hlater)
      · refine (hkept.held q time wait h).imp (fun h => h.trans hlater) fun h => ?_
        unfold Cooling
        rw [hother q hq]
        exact h
    · obtain ⟨rfl, -⟩ := mem_turnEvents h
      obtain ⟨hcooldown, htransport⟩ := hcools time wait h
      exact .inr ⟨f r, hself, hcooldown, fun hrequired => htransport ▸ hprivate hrequired⟩
  · intro x hx
    have hne : x.peerUrl ≠ r.peerUrl := fun h => hfresh (h ▸ List.mem_map_of_mem hx)
    rw [hother _ hne]
    exact hasked.there x (List.mem_cons_of_mem _ hx)
  · intro x hx time wait h
    have hne : x.peerUrl ≠ r.peerUrl := fun h => hfresh (h ▸ List.mem_map_of_mem hx)
    rw [hlog, List.mem_append] at h
    rw [hclock]
    rcases h with h | h
    · exact (hasked.waited x (List.mem_cons_of_mem _ hx) time wait h).trans hlater
    · exact absurd (mem_turnEvents h).1 hne

theorem ordered_storedAt {time : Time} {turns : List Turn} (h : Ordered time (t :: turns)) :
    Ordered t.storedAt turns := h.2.2.2

/-- A cycle keeps the waits of the peers that cool down long enough. -/
theorem askPeers_kept {peers : List PeerRecord} {turns : List Turn} (hkept : Kept env cfg node)
    (hasked : Asked env cfg peers node) (htimes : Ordered node.clock turns)
    (hcools : ∀ rt ∈ peers.zip turns, CoolsDown env cfg rt.1 rt.2) :
    Kept env cfg (askPeers env cfg peers turns node) := by
  induction peers generalizing turns node with
  | nil => exact hkept
  | cons r peers ih =>
    cases turns with
    | nil => exact hkept
    | cons t turns =>
      have hthere := (hasked.there r List.mem_cons_self).1
      unfold askPeers
      dsimp only
      rw [modifyRecord_ok hkept.stored hthere, modifyRecord_ok hkept.stored hthere]
      dsimp only
      split
      · rename_i hok
        refine (turn_kept (markSuccess t.storedAt) ⟨_, _, _, _⟩ hkept hasked htimes (fun _ => rfl) rfl rfl
          rfl fun time wait h => ?_).1
        obtain ⟨-, -, _, _, -, -, hresult⟩ := mem_turnEvents h
        rw [hresult] at hok
        cases hok
      · have hcooldown : ∀ time (wait : Int),
            SyncEvent.limited r.peerUrl time wait ∈ turnEvents env r t →
            time + wait ≤ (markFailure t.storedAt (callResult env t.answeredAt t.answer).error
              (cooldownSeconds env cfg r node.worker.consecutiveFailures
                (callResult env t.answeredAt t.answer)) r).cooldownUntil := by
          intro time wait h
          obtain ⟨-, rfl, retryAfter, detail, hanswer, hparse, hresult⟩ := mem_turnEvents h
          have hcool := hcools (r, t) List.mem_cons_self 429 retryAfter detail wait hanswer rfl hparse
          rw [hresult, cooldownSeconds_eq rfl]
          refine hcool.trans (le_of_eq ?_)
          dsimp only [markFailure]
          push_cast
          rfl
        have hturn := fun worker => turn_kept
          (markFailure t.storedAt (callResult env t.answeredAt t.answer).error
            (cooldownSeconds env cfg r node.worker.consecutiveFailures
              (callResult env t.answeredAt t.answer)))
          ⟨_, worker, _, _⟩ hkept hasked htimes (fun _ => rfl) rfl rfl rfl
          fun time wait h => ⟨hcooldown time wait h, rfl⟩
        split
        · exact (hturn _).1
        · exact ih (hturn _).1 (hturn _).2 (ordered_storedAt htimes)
            fun rt hrt => hcools rt (List.mem_cons_of_mem _ hrt)

theorem cycle_kept {turns : List Turn} (hkept : Kept env cfg node) (hnow : node.clock ≤ now)
    (htimes : Ordered now turns)
    (hcools : ∀ rt ∈ (eligibleSyncPeers env cfg node.store now).zip turns, CoolsDown env cfg rt.1 rt.2) :
    Kept env cfg (runPublicSyncCycle env cfg now turns node) := by
  have hlater : Kept env cfg { node with clock := now } :=
    ⟨hkept.stored, hkept.clock.trans hnow, hkept.patient,
      fun q time wait h => (hkept.held q time wait h).imp_left fun h => h.trans hnow⟩
  unfold runPublicSyncCycle
  split
  · exact ⟨hlater.stored, hlater.clock, hlater.patient, hlater.held⟩
  · refine askPeers_kept hlater ⟨eligible_nodup hkept.stored, fun r hr => ?_, fun r hr time wait h => ?_⟩
      htimes hcools
    · obtain ⟨hthere, -, hprivate⟩ := mem_eligible hkept.stored hr
      exact ⟨hthere, hprivate⟩
    · obtain ⟨hthere, hcooldown, -⟩ := mem_eligible hkept.stored hr
      rcases hlater.held _ _ _ h with hdone | ⟨x, hx, hcooling, -⟩
      · exact hdone
      · rw [hthere] at hx
        obtain rfl := Option.some.inj hx
        have hseconds : (r.cooldownUntil : Time) ≤ seconds now := by exact_mod_cast hcooldown
        exact hcooling.trans (hseconds.trans (seconds_le (hkept.clock.trans hnow)))

/-- A step keeps the waits, if the peers cool down long enough and no seed that waits is written anew. -/
theorem syncStep_kept {a : SyncAction} (hkept : Kept env cfg node)
    (h : Timely node a ∧ Honours env cfg node a) : Kept env cfg (syncStep env cfg node a) := by
  obtain ⟨htimely, hcond⟩ := h
  cases a with
  | poll now turns =>
    dsimp only [syncStep]
    split
    · exact cycle_kept hkept htimely.1 htimely.2 hcond
    · exact ⟨hkept.stored, hkept.clock.trans htimely.1, hkept.patient,
        fun q time wait h => (hkept.held q time wait h).imp_left fun h => h.trans htimely.1⟩
  | kick now turns => exact cycle_kept hkept htimely.1 htimely.2 hcond
  | refresh now input =>
    refine ⟨refresh_stored hkept.stored input, hkept.clock.trans htimely, hkept.patient, ?_⟩
    intro q time wait h
    rcases hkept.held q time wait h with hdone | hcooling
    · exact .inl (hdone.trans htimely)
    · by_cases hwaited : time + wait ≤ now
      · exact .inl hwaited
      · refine .inr (refresh_cooling hkept.stored input ?_ hcooling)
        intro hown r hr r' hr' hseed hurl
        exact hwaited (hcond hown q time wait h ⟨r, hr, r', hr', hseed, hurl⟩)
  | merge now signerId peers =>
    exact ⟨mergeManifest_stored hkept.stored signerId peers, hkept.clock.trans htimely, hkept.patient,
      fun q time wait h => (hkept.held q time wait h).imp (fun h => h.trans htimely)
        (mergeManifest_cooling signerId peers)⟩

/-- Where cooldowns last as long as the waits and no refresh ends one, peers get the patience they
ask for. -/
theorem patience_kept (env : SyncEnv) (cfg : SyncSettings) (actions : List SyncAction)
    (htimely : Along (syncStep env cfg) Timely newNode actions)
    (hcond : Along (syncStep env cfg) (Honours env cfg) newNode actions) :
    Patient (run (syncStep env cfg) newNode actions).log := by
  have hnew : Kept env cfg newNode :=
    ⟨⟨OrderedMap.distinct_nil, fun _ _ h => by cases h⟩, le_rfl, List.Pairwise.nil,
      fun _ _ _ h => absurd h (by simp [newNode])⟩
  have hboth : Along (syncStep env cfg) (fun node a => Timely node a ∧ Honours env cfg node a) newNode
      actions := by
    rw [along_iff_split] at htimely hcond ⊢
    exact fun pre a post h => ⟨htimely pre a post h, hcond pre a post h⟩
  exact (invariant (fun _ _ hkept h => syncStep_kept hkept h) hnew hboth).patient

end

/-! ## A relay that is asked too soon -/

def plainSyncEnv : SyncEnv where
  rt := asciiRuntime
  normalizePeerUrl url := url
  scheme url := String.ofList (url.toList.takeWhile (· ≠ ':'))
  hostname url := String.ofList (url.toList.drop 7)
  isDigits s := s ≠ "" ∧ s.toList.all Char.isDigit
  parseDate _ := none
  parseRetryAfterSeconds s := ((asciiRuntime.intOfStr s).getD 0).toNat

def plainSettings : SyncSettings where
  maxPeersPerCycle := 3
  intervalS := 300
  failureBackoffS := 60
  relayFailureCooldownS := 120
  seedFailureCooldownS := 15
  privateTransportRequired := true

/-- A configured relay, which answers a kick with a 429. -/
def relayLimited (retryAfter : String) : List SyncAction :=
  [.refresh 0
      { operatorPeers := [⟨"http://relay.onion", "onion", "", ""⟩]
        seedPeers := []
        manifest := ([], "")
        pulled := none },
    .kick 100 [⟨100, 100, 100, .status 429 retryAfter "slow down"⟩]]

theorem relayLimited_timely {retryAfter : String}
    (hclock : (run (syncStep plainSyncEnv plainSettings) newNode (relayLimited retryAfter)).clock = 100) :
    Along (syncStep plainSyncEnv plainSettings) Timely newNode
      (relayLimited retryAfter ++ [.kick 300 [⟨300, 300, 300, .synced⟩]]) := by
  have hfirst : (0 : Time) ≤ 100 := by norm_num
  refine ⟨le_rfl, ⟨hfirst, le_rfl, le_rfl, le_rfl, trivial⟩, ⟨?_, le_rfl, le_rfl, le_rfl, trivial⟩, trivial⟩
  refine (le_of_eq hclock).trans ?_
  norm_num

/-- The relay after a refresh. -/
def relayRecord : PeerRecord where
  bucket := "sync"
  source := "operator"
  peerUrl := "http://relay.onion"
  transport := "onion"
  role := "relay"

/-- A wait of a minute is shorter than the cooldown of a relay. -/
theorem patience_kept_sample :
    Patient (run (syncStep plainSyncEnv plainSettings) newNode
      (relayLimited "60" ++ [.kick 300 [⟨300, 300, 300, .synced⟩]])).log := by
  apply patience_kept plainSyncEnv plainSettings _ (relayLimited_timely (by decide +kernel))
  have heligible : eligibleSyncPeers plainSyncEnv plainSettings
      (run (syncStep plainSyncEnv plainSettings) newNode ((relayLimited "60").take 1)).store 100 =
      [relayRecord] := by
    decide +kernel
  have hwait : parseRetryAfterHeader plainSyncEnv "60" 100 = .ok 60 := by decide +kernel
  refine ⟨fun _ q time wait h => absurd h (by simp [newNode]), fun rt hrt => ?_, fun rt hrt => ?_, trivial⟩
  · have hpairs : rt ∈ [relayRecord].zip [⟨100, 100, 100, .status 429 "60" "slow down"⟩] :=
      heligible ▸ hrt
    obtain rfl := List.mem_singleton.mp hpairs
    intro code retryAfter detail wait hanswer _ hparse
    obtain ⟨-, rfl, -⟩ := Answer.status.inj hanswer
    obtain rfl := Except.ok.inj (hparse.symm.trans hwait)
    have hcooldown : seconds 100 + max 0 (if isSeedPeer plainSyncEnv relayRecord then
        plainSettings.seedFailureCooldownS else plainSettings.relayFailureCooldownS) = 220 := by
      decide +kernel
    have hlong : (100 : Time) + (60 : Int) ≤ (220 : Int) := by norm_num
    dsimp only
    rw [← Int.cast_add, hcooldown]
    exact hlong
  · intro code retryAfter detail wait hanswer
    obtain ⟨-, ht⟩ := List.of_mem_zip hrt
    rw [List.mem_singleton.mp ht] at hanswer
    cases hanswer

/-- A relay that asks for ten minutes is asked again after three. -/
theorem not_patience_kept : ¬ ∀ (env : SyncEnv) (cfg : SyncSettings) (actions : List SyncAction),
    Along (syncStep env cfg) Timely newNode actions →
      Patient (run (syncStep env cfg) newNode actions).log := by
  intro h
  have hclock : (run (syncStep plainSyncEnv plainSettings) newNode (relayLimited "600")).clock = 100 := by
    decide +kernel
  have hpatient := h plainSyncEnv plainSettings _ (relayLimited_timely hclock)
  have hlog : (run (syncStep plainSyncEnv plainSettings) newNode
      (relayLimited "600" ++ [.kick 300 [⟨300, 300, 300, .synced⟩]])).log =
      [.sent "http://relay.onion" 100, .limited "http://relay.onion" 100 600,
        .sent "http://relay.onion" 300] := by
    decide +kernel
  rw [hlog] at hpatient
  have hwait : (100 : Time) + (600 : Int) ≤ 300 :=
    (List.pairwise_cons.mp (List.pairwise_cons.mp hpatient).2).1 _ List.mem_cons_self rfl
  norm_num at hwait

end Vincent.Sync
