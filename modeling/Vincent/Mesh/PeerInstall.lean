-- SUMMARY: When a refresh of the peer store keeps what is configured and what was merged.
import Vincent.Mesh.Patience

/-!
# Refreshes that install

A refresh writes the configured peers into a copy of the peer store, and the pull of a
manifest writes into the file. One of the two is lost, but for the records that the
other one has too.
-/

namespace Vincent.Sync

open Vincent.Python Vincent.Check

section Model

variable (env : SyncEnv) (cfg : SyncSettings)

def upserts (records : List PeerRecord) (store : PeerStore) : PeerStore :=
  records.foldl (fun store r => upsert r store) store

/-- `merge_manifest_into_peer_store`: the records that are written, and whether no peer was
refused. -/
def mergedRecords (now : Time) (signerId : String) : List ManifestPeer → List PeerRecord × Bool
  | [] => ([], true)
  | p :: peers =>
    match (swarmRecords cfg now signerId [p]).mapM (normalizePeerRecord env) with
    | .error _ => ([], false)
    | .ok records =>
      let (more, ok) := mergedRecords now signerId peers
      (records ++ more, ok)

/-- `refresh_swarm_manifest_from_seeds`: what is written to the file, and whether a manifest was
merged. -/
def pulledRecords (now : Time) : List (List ManifestPeer × String) → List PeerRecord × Bool
  | [] => ([], false)
  | (peers, signerId) :: manifests =>
    match mergedRecords env cfg now signerId peers with
    | (records, true) => (records, true)
    | (records, false) =>
      let (more, ok) := pulledRecords now manifests
      (records ++ more, ok)

/-- `_refresh_node_peer_store`, with every manifest that the pull meets. The `pulled` of the input
    is not read. -/
def refreshPulling (now : Time) (input : RefreshInput) (manifests : List (List ManifestPeer × String))
    (store : PeerStore) : Except String PeerStore := do
  let refreshed ← upsertAll env (refreshRecords env cfg now input) (pruned env cfg store)
  let (merged, ok) := pulledRecords env cfg now manifests
  return if ok then upserts merged store else refreshed

/-- The store has a record under the key. -/
def HasKey (store : PeerStore) (k : RecordKey) : Prop := (List.lookup k store).isSome = true

/-- The keys of the records that the configuration asks for. -/
def Wanted (now : Time) (input : RefreshInput) (k : RecordKey) : Prop :=
  ∃ r ∈ refreshRecords env cfg now input, ∃ r', normalizePeerRecord env r = .ok r' ∧ r'.recordKey = k

/-- The keys of the records that the pull wrote. -/
def Pulled (now : Time) (manifests : List (List ManifestPeer × String)) (k : RecordKey) : Prop :=
  ∃ r ∈ (pulledRecords env cfg now manifests).1, r.recordKey = k

/-- Configured and merged peers are in the store, with private transports where they are
required. -/
structure Installed (now : Time) (input : RefreshInput) (manifests : List (List ManifestPeer × String))
    (final : PeerStore) : Prop where
  configured : ∀ k, Wanted env cfg now input k → HasKey final k
  merged : ∀ k, Pulled env cfg now manifests k → HasKey final k
  transport : cfg.privateTransportRequired = true → ∀ k r, List.lookup k final = some r →
    isPrivateTransport env r.transport

end Model

section

variable {env : SyncEnv} {cfg : SyncSettings} {store final : PeerStore} {now : Time}
  {records : List PeerRecord} {r : PeerRecord} {k : RecordKey}

/-! ## What upserts leave -/

/-- Under a key that is written stands the transport that was written. -/
theorem lookup_upserts (h : List.lookup k (upserts records store) = some r) :
    (∃ r' ∈ records, r'.recordKey = k ∧ r'.transport = r.transport) ∨
      (∀ r' ∈ records, r'.recordKey ≠ k) ∧ List.lookup k store = some r := by
  induction records generalizing store with
  | nil => exact .inr ⟨by simp, h⟩
  | cons first records ih =>
    rcases ih h with ⟨r', hr', hkey⟩ | ⟨hnone, hlookup⟩
    · exact .inl ⟨r', List.mem_cons_of_mem _ hr', hkey⟩
    · rw [lookup_upsert] at hlookup
      split at hlookup
      · rename_i hk
        obtain rfl := Option.some.inj hlookup
        refine .inl ⟨first, List.mem_cons_self, hk.symm, ?_⟩
        cases List.lookup first.recordKey store <;> rfl
      · rename_i hk
        refine .inr ⟨fun r' hr' => ?_, hlookup⟩
        rcases List.mem_cons.mp hr' with rfl | hr'
        · exact Ne.symm hk
        · exact hnone r' hr'

theorem hasKey_upsert : HasKey (upsert r store) k ↔ r.recordKey = k ∨ HasKey store k := by
  unfold HasKey
  rw [lookup_upsert]
  by_cases hk : k = r.recordKey
  · simp [hk]
  · rw [if_neg hk, or_iff_right (Ne.symm hk)]

theorem hasKey_upserts : HasKey (upserts records store) k ↔
    (∃ r ∈ records, r.recordKey = k) ∨ HasKey store k := by
  induction records generalizing store with
  | nil => simp [upserts]
  | cons first records ih =>
    have hrest : HasKey (upserts (first :: records) store) k ↔ _ := ih
    rw [hrest, hasKey_upsert, List.exists_mem_cons_iff, or_assoc, or_left_comm]

/-- The records are normalized and upserted one after another. -/
theorem upsertAll_eq (h : upsertAll env records store = .ok final) :
    ∃ normal, records.mapM (normalizePeerRecord env) = .ok normal ∧ final = upserts normal store := by
  unfold upsertAll at h
  induction records generalizing store with
  | nil => exact ⟨[], rfl, (Except.ok.inj h).symm⟩
  | cons r records ih =>
    rw [List.foldlM_cons] at h
    obtain ⟨next, hnext, h⟩ := bind_eq_ok.mp h
    obtain ⟨r', hr', hnext⟩ := bind_eq_ok.mp hnext
    obtain rfl := pure_eq_ok.mp hnext
    obtain ⟨normal, hnormal, rfl⟩ := ih h
    refine ⟨r' :: normal, ?_, rfl⟩
    rw [List.mapM_cons, hr', hnormal]
    rfl

/-- The records that a pull writes obey the transport policy. -/
theorem pulledRecords_private (hrequired : cfg.privateTransportRequired = true)
    (manifests : List (List ManifestPeer × String)) :
    ∀ r ∈ (pulledRecords env cfg now manifests).1, isPrivateTransport env r.transport := by
  have hmerged : ∀ signerId peers, ∀ r ∈ (mergedRecords env cfg now signerId peers).1,
      isPrivateTransport env r.transport := by
    intro signerId peers
    induction peers with
    | nil => exact fun r hr => absurd hr List.not_mem_nil
    | cons p peers ih =>
      intro r hr
      unfold mergedRecords at hr
      split at hr
      · cases hr
      · rename_i records hrecords
        rcases List.mem_append.mp hr with hr | hr
        · obtain ⟨x, hx, hnormal⟩ := (mem_mapM hrecords).mp hr
          exact normalize_allowed hnormal (swarmRecords_allowed _ _ x hx hrequired)
        · exact ih r hr
  induction manifests with
  | nil => exact fun r hr => absurd hr List.not_mem_nil
  | cons manifest manifests ih =>
    intro r hr
    unfold pulledRecords at hr
    split at hr
    · rename_i records heq
      exact hmerged _ _ r (by rw [heq]; exact hr)
    · rename_i records heq
      rcases List.mem_append.mp hr with hr | hr
      · exact hmerged _ _ r (by rw [heq]; exact hr)
      · exact ih r hr

/-- A refresh installs everything iff one side wrote no more than the other has: the file, or the
copy. -/
theorem refresh_installs_iff {input : RefreshInput} {manifests : List (List ManifestPeer × String)}
    (h : refreshPulling env cfg now input manifests store = .ok final) :
    Installed env cfg now input manifests final ↔
      if (pulledRecords env cfg now manifests).2 = true then
        (∀ k, Wanted env cfg now input k → Pulled env cfg now manifests k ∨ HasKey store k) ∧
          (cfg.privateTransportRequired = true → ∀ k r, List.lookup k store = some r →
            ¬ Pulled env cfg now manifests k → isPrivateTransport env r.transport)
      else ∀ k, Pulled env cfg now manifests k →
        Wanted env cfg now input k ∨ HasKey (pruned env cfg store) k := by
  obtain ⟨refreshed, hrefreshed, h⟩ := bind_eq_ok.mp h
  obtain ⟨normal, hnormal, rfl⟩ := upsertAll_eq hrefreshed
  have hwanted : ∀ k, Wanted env cfg now input k ↔ ∃ r ∈ normal, r.recordKey = k := by
    intro k
    unfold Wanted
    simp only [mem_mapM hnormal]
    exact ⟨fun ⟨r, hr, r', hr', hk⟩ => ⟨r', ⟨r, hr, hr'⟩, hk⟩,
      fun ⟨r', ⟨r, hr, hr'⟩, hk⟩ => ⟨r, hr, r', hr', hk⟩⟩
  cases hok : (pulledRecords env cfg now manifests).2 with
  | true =>
    obtain rfl : upserts (pulledRecords env cfg now manifests).1 store = final := by
      simpa [hok] using pure_eq_ok.mp h
    have hkey : ∀ k, HasKey (upserts (pulledRecords env cfg now manifests).1 store) k ↔
        Pulled env cfg now manifests k ∨ HasKey store k := fun k => hasKey_upserts
    rw [if_pos rfl]
    constructor
    · intro hinstalled
      refine ⟨fun k hk => (hkey k).mp (hinstalled.configured k hk), fun hrequired k r hlookup hnot => ?_⟩
      obtain ⟨r', hr'⟩ := Option.isSome_iff_exists.mp ((hkey k).mpr (.inr (by simp [HasKey, hlookup])))
      rcases lookup_upserts hr' with ⟨x, hx, hxk, -⟩ | ⟨-, hsame⟩
      · exact absurd ⟨x, hx, hxk⟩ hnot
      · obtain rfl := Option.some.inj (hsame.symm.trans hlookup)
        exact hinstalled.transport hrequired k r' hr'
    · rintro ⟨hconfigured, htransport⟩
      refine ⟨fun k hk => (hkey k).mpr (hconfigured k hk), fun k hk => (hkey k).mpr (.inl hk), ?_⟩
      intro hrequired k r hlookup
      rcases lookup_upserts hlookup with ⟨x, hx, -, htransport'⟩ | ⟨hnone, hsame⟩
      · exact htransport' ▸ pulledRecords_private hrequired manifests x hx
      · exact htransport hrequired k r hsame fun ⟨x, hx, hxk⟩ => hnone x hx hxk
  | false =>
    obtain rfl : upserts normal (pruned env cfg store) = final := by
      simpa [hok] using pure_eq_ok.mp h
    have hkey : ∀ k, HasKey (upserts normal (pruned env cfg store)) k ↔
        Wanted env cfg now input k ∨ HasKey (pruned env cfg store) k := by
      intro k
      rw [hasKey_upserts, hwanted]
    rw [if_neg Bool.false_ne_true]
    refine ⟨fun hinstalled k hk => (hkey k).mp (hinstalled.merged k hk), fun hmerged =>
      ⟨fun k hk => (hkey k).mpr (.inl hk), fun k hk => (hkey k).mpr (hmerged k hk), ?_⟩⟩
    intro hrequired k r hlookup
    rcases lookup_upserts hlookup with ⟨x, hx, -, htransport⟩ | ⟨-, hsame⟩
    · obtain ⟨y, hy, hnormal⟩ := (mem_mapM hnormal).mp hx
      exact htransport ▸ normalize_allowed hnormal (refreshRecords_allowed input y hy hrequired)
    · unfold pruned at hsame
      rw [if_pos hrequired] at hsame
      simpa using (List.mem_filter.mp (OrderedMap.mem_of_lookup hsame)).2

end

/-! ## A relay that is configured -/

def relayInput : RefreshInput where
  operatorPeers := [⟨"http://relay.onion", "onion", "", ""⟩]
  seedPeers := []
  manifest := ([], "")
  pulled := none

theorem ok_of_toOption {x : Except String PeerStore} {final : PeerStore}
    (h : x.toOption = some final) : x = .ok final := by
  cases x with
  | error e => cases h
  | ok store => exact congrArg Except.ok (Option.some.inj h)

/-- Nothing was pulled. -/
theorem refresh_installs_relay :
    ∃ final, Installed plainSyncEnv plainSettings 0 relayInput [] final := by
  have hok : (refreshPulling plainSyncEnv plainSettings 0 relayInput [] []).toOption.isSome = true := by
    decide +kernel
  obtain ⟨final, hfinal⟩ := Option.isSome_iff_exists.mp hok
  refine ⟨final, (refresh_installs_iff (ok_of_toOption hfinal)).mpr ?_⟩
  rw [if_neg (by decide)]
  rintro k ⟨r, hr, -⟩
  cases hr

/-- A manifest with another relay was pulled. -/
theorem not_refresh_installs : ¬ ∀ (env : SyncEnv) (cfg : SyncSettings) (now : Time)
    (input : RefreshInput) (manifests : List (List ManifestPeer × String)) (store final : PeerStore),
    refreshPulling env cfg now input manifests store = .ok final →
      Installed env cfg now input manifests final := by
  intro h
  let pulling := refreshPulling plainSyncEnv plainSettings 0 relayInput
    [([⟨"http://b.onion", "onion", "relay", ""⟩], "s")] []
  have hlost : pulling.toOption.map (List.lookup relayRecord.recordKey) = some none := by decide +kernel
  have hrelay : Wanted plainSyncEnv plainSettings 0 relayInput relayRecord.recordKey :=
    ⟨relayRecord, by decide +kernel, relayRecord, by decide +kernel, rfl⟩
  obtain ⟨final, hfinal, hnone⟩ := Option.map_eq_some_iff.mp hlost
  have hkey := (h _ _ _ _ _ _ final (ok_of_toOption hfinal)).configured _ hrelay
  rw [HasKey, hnone] at hkey
  cases hkey

end Vincent.Sync
