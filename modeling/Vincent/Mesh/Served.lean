-- SUMMARY: The manifest of a seed: when it verifies and lists who announced.
import Vincent.General.Sort
import Vincent.Mesh.Swarm
import Vincent.Root.Ideal

/-!
# Serving the swarm manifest

One entry that the readers of a manifest would refuse voids the whole list. A
registry that took none such, over seeds that are none such, is served: the
registry loads as it was saved, the manifest is signed as it stands, and its
readers accept it.
-/

namespace Vincent.Swarm

open Vincent.Python Vincent.Check Vincent.Run
open Vincent.Root (base64Decode idealHash idealHash_letters)

/-- `p` was announced, and its URL not again. -/
def Latest (log : List RegistryPeer) (p : RegistryPeer) : Prop :=
  ∃ pre post, log = pre ++ p :: post ∧ ∀ q ∈ post, q.peerUrl ≠ p.peerUrl

section Statement

variable (env : SwarmEnv) (cfg : SwarmSettings)

/-- The signer's two keys load and belong together. -/
structure Matching : Prop where
  privateKey_ne : signerPrivateKey cfg ≠ ""
  publicKey_ne : signerPublicKey cfg ≠ ""
  pair : ∃ privateKey publicKey, env.b64decode (signerPrivateKey cfg) = some privateKey ∧
    isKey privateKey = true ∧ env.b64decode (signerPublicKey cfg) = some publicKey ∧
    isKey publicKey = true ∧ ∀ text, ∃ raw, env.b64decode (env.sign privateKey text) = some raw ∧
      env.verify publicKey raw text = true
  sign_strip : ∀ privateKey text, strip (env.sign privateKey text) = env.sign privateKey text
  sign_ne : ∀ privateKey text, env.sign privateKey text ≠ ""

/-- A reader of a manifest accepts the entry. -/
def Valid (p : BootstrapPeer) : Prop := ∃ read, validateBootstrapPeer env p.toDict = .ok read

/-- A reader of a manifest accepts the entry and reads it as it is written. -/
def Plain (p : BootstrapPeer) : Prop := validateBootstrapPeer env p.toDict = .ok p

/-- The peer is left out at a time. -/
def Expired (now : Int) (p : RegistryPeer) : Prop :=
  0 < staleSeconds cfg ∧ isStale (staleSeconds cfg) now p

instance (now : Int) (p : RegistryPeer) : Decidable (Expired cfg now p) := by
  unfold Expired
  infer_instance

/-- The manifest lists the peer, and lists it once. -/
def Lists (m : BootstrapManifest) (p : BootstrapPeer) : Prop :=
  p ∈ m.peers ∧ (m.peers.map BootstrapPeer.key).count p.key = 1

/-- The seed serves a manifest that it just signed, which readers accept and which lists who
announced. -/
def Serves (s : SwarmState) (log : List RegistryPeer) (now : Int) : Prop :=
  ∃ m read, publishManifest env cfg s.registry now = .ok m ∧
    loadLiveBootstrapManifest env cfg s now = .ok (some m) ∧
    parseBootstrapManifestDict env m.toDict (signerPublicKey cfg) now = .ok read ∧
    ∀ p, Latest log p → ¬ Expired cfg now p → Valid env p.manifestPeer → Lists m p.manifestPeer

/-- The peer that an announcement records. -/
def announced (s : SwarmState) (a : Announcement) : Option RegistryPeer :=
  (announcedPeer env cfg s a).toOption.map Prod.fst

/-- What an announcement records is fit for the manifest, next to the seeds. -/
def Fits (seeds : List BootstrapPeer) (s : SwarmState) (a : Announcement) : Prop :=
  ∀ p, announced env cfg s a = some p →
    Plain env p.manifestPeer ∧ p.manifestPeer.key ∉ seeds.map BootstrapPeer.key

/-- The announcements come in the order of time, before `now`. -/
def Chronological (as : List Announcement) (now : Int) : Prop :=
  (as.map Announcement.now ++ [now]).Pairwise (· ≤ ·) ∧ ∀ t ∈ as.map Announcement.now ++ [now], 0 < t

end Statement

variable {env : SwarmEnv} {cfg : SwarmSettings} {seeds : List BootstrapPeer}
  {s : SwarmState} {a : Announcement} {log : List RegistryPeer} {file : Option (List RegistryPeer)}
  {p q : RegistryPeer} {now t : Int}

/-! ## Reading an object -/

theorem intAt_of_int {d : Dict} {k : String} {n : Int} (h : Dict.get d k (.int 0) = .int n) :
    intAt env d k = .ok n := by
  rw [intAt, h]
  by_cases hn : n = 0 <;> simp [PyVal.or, PyVal.truthy, pyInt, Except.mapError, hn]

theorem lowered_of_mem {s : String} (h : s ∈ allowedTransports ++ allowedRoles) :
    lowered env s = s := by
  have hcases : s = "clearnet" ∨ s = "onion" ∨ s = "participant" ∨ s = "relay" ∨ s = "seed" := by
    simpa [allowedTransports, allowedRoles] using h
  have hplain : strip s = s ∧ (∀ c ∈ s.toList, c.val < 128) ∧
      String.ofList (s.toList.map Char.toLower) = s := by
    rcases hcases with rfl | rfl | rfl | rfl | rfl <;> exact ⟨by decide, by simp, by decide⟩
  rw [lowered, hplain.1, env.rt.lower_ascii s hplain.2.1, hplain.2.2]

/-- What a reader that reads an entry as it is written knows of it. -/
structure WellFormed (env : SwarmEnv) (p : BootstrapPeer) : Prop where
  normalized : normalizePeerUrl env p.peerUrl = .ok p.peerUrl
  peerUrl_ne : p.peerUrl ≠ ""
  transport_mem : p.transport ∈ allowedTransports
  role_mem : p.role ∈ allowedRoles

theorem Plain.wellFormed {p : BootstrapPeer} (h : Plain env p) : WellFormed env p := by
  unfold Plain at h
  have htext : ∀ {k s}, Dict.get p.toDict k (.str "") = .str s → Dict.text env.rt p.toDict k = s :=
    Dict.text_of_str
  simp only [validateBootstrapPeer, demand, bind_eq_ok, require_eq_ok, exists_const, pure_eq_ok] at h
  obtain ⟨htransport, hrole, normalized, hnormalized, ⟨hne, hsame⟩, _, -, -, -, hp⟩ := h
  have hfields := congrArg (fun q => (q.peerUrl, q.transport, q.role)) hp
  simp only [Prod.mk.injEq] at hfields
  obtain ⟨hurl, ht, hr⟩ := hfields
  rw [← hsame] at hnormalized
  exact ⟨by rw [← hurl]; exact hnormalized, by rw [← hurl]; exact hne, by rw [← ht]; exact htransport,
    by rw [← hr]; exact hrole⟩

theorem WellFormed.transport_ne {p : BootstrapPeer} (h : WellFormed env p) : p.transport ≠ "" := by
  intro hempty
  have hmem := h.transport_mem
  rw [hempty] at hmem
  simp [allowedTransports] at hmem

theorem WellFormed.role_ne {p : BootstrapPeer} (h : WellFormed env p) : p.role ≠ "" := by
  intro hempty
  have hmem := h.role_mem
  rw [hempty] at hmem
  simp [allowedRoles] at hmem

/-! ## The registry file -/

/-- A file whose entries load as they stand and are fit for the manifest. -/
structure Kept (env : SwarmEnv) (seeds : List BootstrapPeer) (es : List RegistryPeer) : Prop where
  nodup : (es.map RegistryPeer.peerUrl).Nodup
  fixed : ∀ p ∈ es, normalizeEntry env p = .ok p
  plain : ∀ p ∈ es, Plain env p.manifestPeer
  apart : ∀ p ∈ es, p.manifestPeer.key ∉ seeds.map BootstrapPeer.key

theorem mapM_fixed {es : List RegistryPeer} (h : ∀ p ∈ es, normalizeEntry env p = .ok p) :
    es.mapM (normalizeEntry env) = .ok es := by
  induction es with
  | nil => rfl
  | cons p es ih =>
    rw [List.mapM_cons, h p List.mem_cons_self, ih fun q hq => h q (List.mem_cons_of_mem p hq)]
    rfl

theorem Kept.loaded (h : Kept env seeds (file.getD [])) :
    loaded env file = (file.getD []).map fun p => (p.peerUrl, p) := by
  have hmap := mapM_fixed h.fixed
  have hfold := @OrderedMap.fold_new _ _ _ [] RegistryPeer.peerUrl (file.getD []) (by simpa using h.nodup)
  rw [List.nil_append] at hfold
  rw [Swarm.loaded, load, hmap]
  exact hfold

theorem Kept.current (h : Kept env seeds (file.getD [])) :
    (currentRegistry env cfg file now).values =
      (file.getD []).filter fun p => ¬ Expired cfg now p := by
  unfold currentRegistry Expired
  rw [h.loaded]
  split
  · rename_i hpositive
    rw [pruneStale, OrderedMap.values, List.filter_map, List.map_map]
    simp [hpositive, Function.comp_def]
  · rename_i hnever
    simp [hnever, OrderedMap.values, Function.comp_def]

theorem mem_records {registry : Registry} : p ∈ records registry ↔ p ∈ registry.values :=
  List.mem_insertionSort _

theorem records_perm (registry : Registry) : (records registry).Perm registry.values :=
  List.perm_insertionSort _ _

theorem Kept.sublist {es es' : List RegistryPeer} (h : Kept env seeds es) (hsub : es'.Sublist es) :
    Kept env seeds es' where
  nodup := h.nodup.sublist (hsub.map _)
  fixed p hp := h.fixed p (hsub.subset hp)
  plain p hp := h.plain p (hsub.subset hp)
  apart p hp := h.apart p (hsub.subset hp)

theorem Kept.perm {es es' : List RegistryPeer} (h : Kept env seeds es) (hperm : es'.Perm es) :
    Kept env seeds es' where
  nodup := (hperm.map _).nodup_iff.mpr h.nodup
  fixed p hp := h.fixed p (hperm.subset hp)
  plain p hp := h.plain p (hperm.subset hp)
  apart p hp := h.apart p (hperm.subset hp)

theorem Kept.records_current (h : Kept env seeds (file.getD [])) :
    Kept env seeds (records (currentRegistry env cfg file now)) := by
  apply Kept.perm _ (records_perm _)
  rw [h.current]
  exact h.sublist List.filter_sublist

theorem Kept.mem_records_current (h : Kept env seeds (file.getD [])) :
    p ∈ records (currentRegistry env cfg file now) ↔ p ∈ file.getD [] ∧ ¬ Expired cfg now p := by
  rw [mem_records, h.current, List.mem_filter, decide_eq_true_iff]

/-! ## Announcements -/

theorem announcedPeer_spec {registry : Registry} (h : announcedPeer env cfg s a = .ok (p, registry)) :
    registry = OrderedMap.insert p.peerUrl p (loaded env s.registry) ∧ p.lastSeenAt = a.now ∧
      strip p.nodeId = p.nodeId ∧ strip p.label = p.label := by
  simp only [announcedPeer, upsertAnnouncement, bind_eq_ok, require_eq_ok, exists_const, pure_eq_ok] at h
  obtain ⟨-, normalized, -, -, _, -, -, -, h⟩ := h
  cases h
  exact ⟨rfl, rfl, strip_strip _, strip_strip _⟩

/-- An entry that is fit for the manifest loads as it was saved. -/
theorem normalizeEntry_fixed (h : WellFormed env p.manifestPeer) (hseen : p.lastSeenAt ≠ 0)
    (hnode : strip p.nodeId = p.nodeId) (hlabel : strip p.label = p.label) :
    normalizeEntry env p = .ok p := by
  have hurl : normalizePeerUrl env p.peerUrl = .ok p.peerUrl := h.normalized
  have htransport : transportOr env p.transport p.peerUrl = .ok p.transport :=
    if_pos h.transport_ne
  have hrole : lowered env p.role = p.role :=
    lowered_of_mem (List.mem_append_right _ h.role_mem)
  have hlower : lowered env p.transport = p.transport :=
    lowered_of_mem (List.mem_append_left _ h.transport_mem)
  have hne : p.peerUrl ≠ "" := h.peerUrl_ne
  have hrole_ne : p.role ≠ "" := h.role_ne
  have hrole_mem : p.role ∈ allowedRoles := h.role_mem
  simp only [normalizeEntry, bind_eq_ok, require_eq_ok, exists_const, pure_eq_ok]
  refine ⟨p.peerUrl, hurl, hne, p.transport, htransport, ?_⟩
  rw [if_pos hrole_ne, hrole, hlower, hnode, hlabel, if_pos hseen]
  exact ⟨hrole_mem, rfl⟩

theorem named_insert {k : String} {r : RegistryPeer} {m : Registry} (hr : k = r.peerUrl)
    (h : ∀ kv ∈ m, kv.1 = kv.2.peerUrl) :
    ∀ kv ∈ OrderedMap.insert k r m, kv.1 = kv.2.peerUrl := by
  unfold OrderedMap.insert
  induction m with
  | nil => simp [OrderedMap.upsert, hr]
  | cons entry m ih =>
    have htail := ih fun kv hkv => h kv (List.mem_cons_of_mem _ hkv)
    rw [OrderedMap.upsert]
    split
    · rename_i hkey
      intro kv hkv
      rcases List.mem_cons.mp hkv with rfl | hkv
      · exact hkey.trans hr
      · exact h kv (List.mem_cons_of_mem _ hkv)
    · intro kv hkv
      rcases List.mem_cons.mp hkv with rfl | hkv
      · exact h _ List.mem_cons_self
      · exact htail kv hkv

/-- The registry after an announcement holds its peer and those at other URLs. -/
theorem mem_insert_values {es : List RegistryPeer} (hnodup : (es.map RegistryPeer.peerUrl).Nodup) :
    q ∈ (OrderedMap.insert p.peerUrl p (es.map fun p => (p.peerUrl, p))).values ↔
      q = p ∨ q.peerUrl ≠ p.peerUrl ∧ q ∈ es := by
  induction es with
  | nil => simp [OrderedMap.insert, OrderedMap.upsert, OrderedMap.values]
  | cons r es ih =>
    rw [List.map_cons, List.nodup_cons] at hnodup
    have ih := ih hnodup.2
    unfold OrderedMap.insert OrderedMap.values at ih ⊢
    rw [List.map_cons, OrderedMap.upsert]
    split
    · rename_i hsame
      have hother : ∀ q ∈ es, q.peerUrl ≠ p.peerUrl := by
        intro q hq heq
        exact hnodup.1 (hsame ▸ heq ▸ List.mem_map_of_mem hq)
      simp only [List.map_cons, List.map_map, Function.comp_def, List.map_id', List.mem_cons]
      constructor
      · rintro (rfl | hq)
        · exact Or.inl rfl
        · exact Or.inr ⟨hother q hq, Or.inr hq⟩
      · rintro (rfl | ⟨hne, rfl | hq⟩)
        · exact Or.inl rfl
        · exact absurd hsame hne
        · exact Or.inr hq
    · rename_i hne
      rw [List.map_cons, List.mem_cons, ih, List.mem_cons]
      constructor
      · rintro (rfl | rfl | ⟨hq, hmem⟩)
        · exact Or.inr ⟨hne, Or.inl rfl⟩
        · exact Or.inl rfl
        · exact Or.inr ⟨hq, Or.inr hmem⟩
      · rintro (rfl | ⟨hq, rfl | hmem⟩)
        · exact Or.inr (Or.inl rfl)
        · exact Or.inl rfl
        · exact Or.inr (Or.inr ⟨hq, hmem⟩)

theorem nodup_insert_values {es : List RegistryPeer} (hnodup : (es.map RegistryPeer.peerUrl).Nodup) :
    ((OrderedMap.insert p.peerUrl p (es.map fun p => (p.peerUrl, p))).values.map
      RegistryPeer.peerUrl).Nodup := by
  have hkeys : ∀ m : Registry, (∀ kv ∈ m, kv.1 = kv.2.peerUrl) →
      m.values.map RegistryPeer.peerUrl = m.map Prod.fst := by
    intro m hm
    rw [OrderedMap.values, List.map_map]
    exact List.map_congr_left fun kv hkv => (hm kv hkv).symm
  rw [hkeys]
  · apply OrderedMap.Distinct.upsert
    simpa [OrderedMap.Distinct, Function.comp_def] using hnodup
  · apply named_insert rfl
    intro kv hkv
    obtain ⟨q, -, rfl⟩ := List.mem_map.mp hkv
    rfl

/-- What an announcement leaves in the file is fit, and holds its peer. -/
theorem Kept.announce {registry : Registry} (h : Kept env seeds (s.registry.getD []))
    (haccepted : announcedPeer env cfg s a = .ok (p, registry)) (hnow : 0 < a.now)
    (hplain : Plain env p.manifestPeer) (hapart : p.manifestPeer.key ∉ seeds.map BootstrapPeer.key) :
    Kept env seeds (records registry) ∧ ∀ q, q ∈ records registry ↔
      q = p ∨ q.peerUrl ≠ p.peerUrl ∧ q ∈ s.registry.getD [] := by
  obtain ⟨rfl, hseen, hnode, hlabel⟩ := announcedPeer_spec haccepted
  rw [h.loaded]
  have hmem := fun q => (@mem_records q _).trans (@mem_insert_values p q _ h.nodup)
  have hfixed := normalizeEntry_fixed hplain.wellFormed (by omega) hnode hlabel
  refine ⟨⟨?_, ?_, ?_, ?_⟩, hmem⟩
  · exact ((records_perm _).map _).nodup_iff.mpr (nodup_insert_values h.nodup)
  all_goals
    intro q hq
    rcases (hmem q).mp hq with rfl | ⟨-, hold⟩
  · exact hfixed
  · exact h.fixed q hold
  · exact hplain
  · exact h.plain q hold
  · exact hapart
  · exact h.apart q hold

/-! ## Signing and reading a manifest -/

theorem validatePeers_plain {kept ps : List BootstrapPeer} (hplain : ∀ p ∈ ps, Plain env p)
    (hnodup : ((kept ++ ps).map BootstrapPeer.key).Nodup) :
    validatePeers env (ps.map fun p => .dict p.toDict) kept = .ok (kept ++ ps) := by
  induction ps generalizing kept with
  | nil => rw [List.append_nil]; rfl
  | cons p ps ih =>
    have hnew : p.key ∉ kept.map BootstrapPeer.key := by
      rw [List.map_append, List.nodup_append'] at hnodup
      exact fun hmem => hnodup.2.2 hmem (List.mem_map_of_mem List.mem_cons_self)
    have hrest := @ih (kept ++ [p]) (fun q hq => hplain q (List.mem_cons_of_mem p hq))
      (by simpa using hnodup)
    have hp : validateBootstrapPeer env p.toDict = .ok p := hplain p List.mem_cons_self
    rw [List.map_cons, validatePeers, hp]
    simp only [demand, bind_eq_ok, require_eq_ok, exists_const]
    refine ⟨p, rfl, hnew, ?_⟩
    rw [hrest, List.append_assoc]
    rfl

/-- A manifest that its readers read as it is written. -/
structure Readable (env : SwarmEnv) (m : BootstrapManifest) : Prop where
  version : m.version = bootstrapManifestVersion
  signerId_strip : strip m.signerId = m.signerId
  signerId_ne : m.signerId ≠ ""
  window : 0 < m.issuedAt ∧ 0 < m.validUntil ∧ m.issuedAt < m.validUntil
  plain : ∀ p ∈ m.peers, Plain env p
  nodup : (m.peers.map BootstrapPeer.key).Nodup
  peers_ne : m.peers ≠ []

theorem Readable.validate {m : BootstrapManifest} (h : Readable env m) (hnow : now ≤ m.validUntil) :
    validateManifestPayload env m.payloadDict now = .ok { m with signature := "" } := by
  have hpeers := @validatePeers_plain env [] m.peers h.plain (by simpa using h.nodup)
  have hsigner : strip (Dict.text env.rt m.payloadDict "signer_id") = m.signerId := by
    rw [Dict.text_of_str (s := m.signerId) rfl, h.signerId_strip]
  simp only [validateManifestPayload, demand, hsigner, bind_eq_ok, require_eq_ok, exists_const,
    pure_eq_ok]
  exact ⟨m.version, intAt_of_int rfl, m.issuedAt, intAt_of_int rfl, m.validUntil, intAt_of_int rfl,
    h.version, h.signerId_ne, h.window, hnow, _, rfl, m.peers, hpeers, h.peers_ne, rfl⟩

theorem pop_signature (m : BootstrapManifest) : Dict.pop m.toDict "signature" = m.payloadDict := rfl

theorem Readable.build {m : BootstrapManifest} (h : Readable env m) :
    buildManifestPayload env m.signerId m.peers m.issuedAt m.validUntil = .ok m.payloadDict := by
  have hbuilt := h.validate h.window.2.2.le
  obtain ⟨version, issuedAt, validUntil, signerId, peers, signature⟩ := m
  have hversion : version = bootstrapManifestVersion := h.version
  have hstrip : strip signerId = signerId := h.signerId_strip
  subst hversion
  simp only [buildManifestPayload, bind_eq_ok, pure_eq_ok]
  refine ⟨⟨bootstrapManifestVersion, issuedAt, validUntil, signerId, peers, ""⟩, ?_, rfl⟩
  rw [hstrip]
  exact hbuilt

theorem Matching.signs (h : Matching env cfg) (payload : Dict) :
    ∃ signature, signManifestPayload env payload (signerPrivateKey cfg) = .ok signature ∧
      signature ≠ "" ∧ strip signature = signature ∧
      verifyManifestSignature env payload signature (signerPublicKey cfg) = .ok () := by
  obtain ⟨privateKey, publicKey, hprivate, hprivate_key, hpublic, hpublic_key, hverify⟩ := h.pair
  obtain ⟨raw, hraw, hraw_verify⟩ := hverify (canonicalJson env.rt payload)
  refine ⟨env.sign privateKey (canonicalJson env.rt payload), ?_, h.sign_ne _ _, h.sign_strip _ _, ?_⟩
  · simp only [signManifestPayload, bytesOf, hprivate, hprivate_key, if_true]
    rfl
  · simp only [verifyManifestSignature, demand, bytesOf, hraw, hpublic, hpublic_key, if_true,
      bind_eq_ok, require_eq_ok]
    exact ⟨_, rfl, _, rfl, hraw_verify⟩

/-- Whoever reads a readable manifest that was signed as it stands accepts it. -/
theorem Readable.parse {m : BootstrapManifest} (h : Readable env m) (hnow : now ≤ m.validUntil)
    (hne : m.signature ≠ "") (hstrip : strip m.signature = m.signature)
    (hverify : verifyManifestSignature env m.payloadDict m.signature (signerPublicKey cfg) = .ok ()) :
    parseBootstrapManifestDict env m.toDict (signerPublicKey cfg) now = .ok m := by
  have hsignature : strip (Dict.text env.rt m.toDict "signature") = m.signature := by
    rw [Dict.text_of_str (s := m.signature) rfl, hstrip]
  simp only [parseBootstrapManifestDict, demand, hsignature, pop_signature, bind_eq_ok, require_eq_ok,
    exists_const, pure_eq_ok]
  exact ⟨hne, (), hverify, _, h.validate hnow, rfl⟩

/-! ## Publishing -/

theorem nodup_of_peerUrls {ps : List BootstrapPeer} (h : (ps.map BootstrapPeer.peerUrl).Nodup) :
    (ps.map BootstrapPeer.key).Nodup := by
  apply List.Nodup.of_map Prod.snd
  rw [List.map_map]
  exact h

theorem seeds_nodup (h : seedManifestPeers env cfg = .ok seeds) :
    (seeds.map BootstrapPeer.key).Nodup := by
  simp only [seedManifestPeers, configuredSeedPeerUrls, dedupePeerUrls, bind_eq_ok, pure_eq_ok] at h
  obtain ⟨urls, ⟨_, -, normalized, -, hurls⟩, h⟩ := h
  have hsub : (seeds.map BootstrapPeer.peerUrl).Sublist urls := by
    clear hurls
    induction urls generalizing seeds with
    | nil =>
      cases h
      exact .slnil
    | cons url urls ih =>
      obtain ⟨o, rest, ho, hrest, rfl⟩ := filterMapM_cons_eq_ok.mp h
      simp only [bind_eq_ok, pure_eq_ok] at ho
      obtain ⟨transport, -, ho⟩ := ho
      split at ho
      · subst ho
        exact (ih hrest).cons url
      · subst ho
        exact (ih hrest).cons_cons url
  exact nodup_of_peerUrls ((hurls ▸ Sort.nodup_eraseDups normalized).sublist hsub)

theorem signerId_plain (cfg : SwarmSettings) : strip (signerId cfg) = signerId cfg ∧ signerId cfg ≠ "" := by
  unfold signerId
  dsimp only
  split
  · rename_i hne
    exact ⟨strip_strip _, hne⟩
  · exact ⟨by decide, by decide⟩

/-- The manifest over registry entries that are fit for it. -/
theorem Kept.publishes (h : Kept env seeds (file.getD [])) (hkeys : Matching env cfg)
    (hseeds : seedManifestPeers env cfg = .ok seeds) (hplain : ∀ p ∈ seeds, Plain env p)
    (hnow : 0 < now) (hsome : seeds ≠ [] ∨ ∃ p ∈ file.getD [], ¬ Expired cfg now p) :
    ∃ m, publishManifest env cfg file now = .ok m ∧
      parseBootstrapManifestDict env m.toDict (signerPublicKey cfg) now = .ok m ∧
      (m.peers.map BootstrapPeer.key).Nodup ∧
      m.peers = seeds ++ (records (currentRegistry env cfg file now)).map RegistryPeer.manifestPeer := by
  have hkept : Kept env seeds (records (currentRegistry env cfg file now)) := h.records_current
  set peers := seeds ++ (records (currentRegistry env cfg file now)).map RegistryPeer.manifestPeer
    with hpeers
  have hnodup : (peers.map BootstrapPeer.key).Nodup := by
    rw [hpeers, List.map_append, List.nodup_append']
    refine ⟨seeds_nodup hseeds, nodup_of_peerUrls ?_, ?_⟩
    · rw [List.map_map]
      exact hkept.nodup
    · intro key hseed hkey
      rw [List.map_map] at hkey
      obtain ⟨p, hp, rfl⟩ := List.mem_map.mp hkey
      exact hkept.apart p hp hseed
  have hpeers_plain : ∀ p ∈ peers, Plain env p := by
    intro p hp
    rcases List.mem_append.mp hp with hp | hp
    · exact hplain p hp
    · obtain ⟨q, hq, rfl⟩ := List.mem_map.mp hp
      exact hkept.plain q hq
  have hpeers_ne : peers ≠ [] := by
    rcases hsome with hne | ⟨p, hp, hfresh⟩
    · exact List.append_ne_nil_of_left_ne_nil hne _
    · have hmem := h.mem_records_current.mpr ⟨hp, hfresh⟩
      exact List.append_ne_nil_of_right_ne_nil _ (List.ne_nil_of_mem (List.mem_map_of_mem hmem))
  obtain ⟨hstrip, hid⟩ := signerId_plain cfg
  have hwindow : 0 < now + max 300 (ttlSeconds cfg) ∧ now < now + max 300 (ttlSeconds cfg) := by omega
  have hreadable : ∀ signature, Readable env ⟨bootstrapManifestVersion, now,
      now + max 300 (ttlSeconds cfg), signerId cfg, peers, signature⟩ := fun signature =>
    ⟨rfl, hstrip, hid, ⟨hnow, hwindow⟩, hpeers_plain, hnodup, hpeers_ne⟩
  have hbuild := (hreadable "").build
  obtain ⟨signature, hsign, hne, hsignature, hverify⟩ := hkeys.signs (BootstrapManifest.payloadDict
    ⟨bootstrapManifestVersion, now, now + max 300 (ttlSeconds cfg), signerId cfg, peers, ""⟩)
  refine ⟨⟨bootstrapManifestVersion, now, now + max 300 (ttlSeconds cfg), signerId cfg, peers,
    signature⟩, ?_, (hreadable signature).parse hwindow.2.le hne hsignature hverify, hnodup, rfl⟩
  simp only [publishManifest, demand, bind_eq_ok, require_eq_ok, exists_const, pure_eq_ok]
  exact ⟨⟨hkeys.privateKey_ne, hkeys.publicKey_ne⟩, seeds, hseeds, _, hbuild, signature, hsign, rfl⟩

/-! ## Runs -/

theorem latest_concat : Latest (log ++ [p]) q ↔ q = p ∨ q.peerUrl ≠ p.peerUrl ∧ Latest log q := by
  constructor
  · rintro ⟨pre, post, hlog, hpost⟩
    rcases List.eq_nil_or_concat' post with rfl | ⟨post, r, rfl⟩
    · exact Or.inl (List.singleton_inj.mp (List.append_inj' hlog rfl).2).symm
    · have hsplit : log ++ [p] = (pre ++ q :: post) ++ [r] := by simpa using hlog
      obtain ⟨hinit, hlast⟩ := List.append_inj' hsplit rfl
      cases hlast
      exact Or.inr ⟨fun heq => hpost p (by simp) heq.symm, pre, post, hinit,
        fun r hr => hpost r (List.mem_append_left _ hr)⟩
  · rintro (rfl | ⟨hne, pre, post, rfl, hpost⟩)
    · exact ⟨log, [], rfl, by simp⟩
    · refine ⟨pre, post ++ [p], by simp, fun r hr => ?_⟩
      rcases List.mem_append.mp hr with hr | hr
      · exact hpost r hr
      · cases List.mem_singleton.mp hr
        exact Ne.symm hne

theorem Expired.later (h : Expired cfg t p) (hle : t ≤ now) : Expired cfg now p := by
  obtain ⟨hpositive, hrole, hseen, hage⟩ := h
  exact ⟨hpositive, hrole, hseen, by omega⟩

/-- The file is fit for the manifest, and has who announced a URL last, until the entry expires. -/
structure Held (env : SwarmEnv) (cfg : SwarmSettings) (seeds : List BootstrapPeer) (s : SwarmState)
    (log : List RegistryPeer) (t : Int) : Prop where
  kept : Kept env seeds (s.registry.getD [])
  covers : ∀ p now, t ≤ now → Latest log p → ¬ Expired cfg now p → p ∈ s.registry.getD []

theorem Held.empty : Held env cfg seeds {} [] t where
  kept := ⟨List.nodup_nil, by simp, by simp, by simp⟩
  covers p now _ hlatest := by
    obtain ⟨pre, post, hlog, -⟩ := hlatest
    simp at hlog

/-- A manifest that is written at an announcement keeps what has not expired. -/
theorem Held.republish (h : Held env cfg seeds s log t) : Held env cfg seeds (republish env cfg t s) log t := by
  unfold Swarm.republish
  split
  · exact h
  · refine ⟨h.kept.records_current, fun p now hle hlatest hfresh => ?_⟩
    exact h.kept.mem_records_current.mpr
      ⟨h.covers p now hle hlatest hfresh, fun hexpired => hfresh (hexpired.later hle)⟩

theorem Held.step (h : Held env cfg seeds s log t) (hle : t ≤ a.now) (hnow : 0 < a.now)
    (hfits : Fits env cfg seeds s a) :
    Held env cfg seeds (recordPeerAnnouncement env cfg s a)
      (log ++ (announced env cfg s a).toList) a.now := by
  unfold recordPeerAnnouncement
  cases haccepted : announcedPeer env cfg s a with
  | error e =>
    have hnone : announced env cfg s a = none := by rw [announced, haccepted]; rfl
    rw [hnone]
    exact ⟨h.kept, fun p now hlater hlatest => h.covers p now (hle.trans hlater) (by simpa using hlatest)⟩
  | ok accepted =>
    obtain ⟨p, registry⟩ := accepted
    have hsome : announced env cfg s a = some p := by rw [announced, haccepted]; rfl
    obtain ⟨hplain, hapart⟩ := hfits p hsome
    obtain ⟨hkept, hmem⟩ := h.kept.announce haccepted hnow hplain hapart
    have hsaved : Held env cfg seeds { s with registry := some (records registry) } (log ++ [p]) a.now := by
      refine ⟨hkept, fun q now hlater hlatest hfresh => (hmem q).mpr ?_⟩
      rcases latest_concat.mp hlatest with rfl | ⟨hne, hlatest⟩
      · exact Or.inl rfl
      · exact Or.inr ⟨hne, h.covers q now (hle.trans hlater) hlatest hfresh⟩
    rw [hsome]
    dsimp only [Option.toList]
    split
    · exact hsaved.republish
    · exact hsaved

theorem Held.run (h : Held env cfg seeds s log t) {as : List Announcement}
    (hchron : (t :: (as.map Announcement.now ++ [now])).Pairwise (· ≤ ·))
    (hpositive : ∀ a ∈ as, 0 < a.now)
    (hfits : Along (recordPeerAnnouncement env cfg) (Fits env cfg seeds) s as) :
    Held env cfg seeds (run (recordPeerAnnouncement env cfg) s as)
      (log ++ outputs (recordPeerAnnouncement env cfg) (announced env cfg) s as) now := by
  induction as generalizing s log t with
  | nil =>
    have hle : t ≤ now := by simpa using hchron
    rw [outputs, List.append_nil]
    exact ⟨h.kept, fun p later hlater => h.covers p later (hle.trans hlater)⟩
  | cons a as ih =>
    obtain ⟨hfit, hfits⟩ := (along_cons s a as).mp hfits
    rw [List.map_cons, List.cons_append, List.pairwise_cons] at hchron
    have hstep := h.step (hchron.1 a.now List.mem_cons_self) (hpositive a List.mem_cons_self) hfit
    rw [run_cons, outputs, ← List.append_assoc]
    exact ih hstep hchron.2 (fun b hb => hpositive b (List.mem_cons_of_mem a hb)) hfits

/-- Announcements and seeds that are fit for the manifest are served at every later time. -/
theorem manifest_served (env : SwarmEnv) (cfg : SwarmSettings) (hkeys : Matching env cfg)
    (henabled : peerRegistryEnabled cfg = true) (seeds : List BootstrapPeer)
    (hseeds : seedManifestPeers env cfg = .ok seeds) (hplain : ∀ p ∈ seeds, Plain env p)
    (as : List Announcement) (now : Int) (hchron : Chronological as now)
    (hfits : Along (recordPeerAnnouncement env cfg) (Fits env cfg seeds) {} as)
    (hsome : seeds ≠ [] ∨ ∃ p, Latest (outputs (recordPeerAnnouncement env cfg) (announced env cfg) {} as) p ∧
      ¬ Expired cfg now p) :
    Serves env cfg (run (recordPeerAnnouncement env cfg) {} as)
      (outputs (recordPeerAnnouncement env cfg) (announced env cfg) {} as) now := by
  obtain ⟨hordered, hpositive⟩ := hchron
  have hnow : 0 < now := hpositive now (by simp)
  have hstart : (0 :: (as.map Announcement.now ++ [now])).Pairwise (· ≤ ·) :=
    List.pairwise_cons.mpr ⟨fun t ht => (hpositive t ht).le, hordered⟩
  have hheld := (@Held.empty env cfg seeds 0).run hstart
    (fun a ha => hpositive a.now (List.mem_append_left _ (List.mem_map_of_mem ha))) hfits
  rw [List.nil_append] at hheld
  have hsome' : seeds ≠ [] ∨ ∃ p ∈ (run (recordPeerAnnouncement env cfg) {} as).registry.getD [],
      ¬ Expired cfg now p :=
    hsome.imp_right fun ⟨p, hlatest, hfresh⟩ => ⟨p, hheld.covers p now le_rfl hlatest hfresh, hfresh⟩
  obtain ⟨m, hpublish, hparse, hnodup, hpeers⟩ :=
    hheld.kept.publishes hkeys hseeds hplain hnow hsome'
  refine ⟨m, m, hpublish, ?_, hparse, fun p hlatest hfresh _ => ?_⟩
  · simp [loadLiveBootstrapManifest, hkeys.publicKey_ne, henabled, hpublish]
  · have hmem : p.manifestPeer ∈ m.peers := by
      rw [hpeers]
      exact List.mem_append_right _ (List.mem_map_of_mem
        (hheld.kept.mem_records_current.mpr ⟨hheld.covers p now le_rfl hlatest hfresh, hfresh⟩))
    exact ⟨hmem, List.count_eq_one_of_mem hnodup (List.mem_map_of_mem hmem)⟩

/-! ## A seed -/

/-- A signature in base64 that says all of the text. -/
def sampleSign (text : String) : String :=
  String.ofList ((idealHash text).toList.flatMap (List.replicate 4))

def sampleVerify (raw : List UInt8) (text : String) : Bool :=
  base64Decode (sampleSign text) == some raw

theorem sampleSign_letters (text : String) : ∀ c ∈ (sampleSign text).toList, c = 'a' ∨ c = 'b' := by
  intro c hc
  rw [sampleSign, String.toList_ofList] at hc
  obtain ⟨letter, hletter, hc⟩ := List.mem_flatMap.mp hc
  rw [List.eq_of_mem_replicate hc]
  exact idealHash_letters text letter hletter

theorem sampleSign_decodes (text : String) : ∃ raw, base64Decode (sampleSign text) = some raw := by
  have hfours : ∀ l : List Char, (l.flatMap (List.replicate 4)).length % 4 = 0 := by
    intro l
    induction l with
    | nil => rfl
    | cons c l ih => simp [Nat.add_mod]
  refine ⟨_, if_pos ?_⟩
  rw [sampleSign, String.length_ofList]
  exact hfours _

/-- A signature of the text alone, in a network of two onion addresses. -/
def sampleEnv : SwarmEnv where
  rt := asciiRuntime
  urlparse url :=
    if url = "http://s.onion" then some ⟨"http", "s.onion", some none, ""⟩
    else if url = "http://p.onion" then some ⟨"http", "p.onion", some none, ""⟩
    else none
  b64decode := base64Decode
  sign _ text := sampleSign text
  verify _ := sampleVerify

def sampleSettings : SwarmSettings where
  signerPrivateKey := "AAAAAAAAAAAAAAAAAAAAAAAAAAAAAAAAAAAAAAAAAAA="
  signerPublicKey := "O2onvM62pC1io6jQKm8Nc2UyFXcd4kOmOsBIoYtZ2ik="
  bootstrapSeedPeers := "http://s.onion"

def sampleSeeds : List BootstrapPeer :=
  [⟨"http://s.onion", "onion", "seed", "Vincent OS bootstrap seed"⟩]

/-- An announcement of a URL and nothing else. -/
def announcementOf (peerUrl : String) : Announcement where
  body := [("peer_url", .str peerUrl)]
  now := 1

theorem sampleEnv_signs (privateKey publicKey : List UInt8) (text : String) :
    ∃ raw, sampleEnv.b64decode (sampleEnv.sign privateKey text) = some raw ∧
      sampleEnv.verify publicKey raw text = true := by
  obtain ⟨raw, hraw⟩ := sampleSign_decodes text
  have hverify : sampleVerify raw text = true := by
    rw [sampleVerify, hraw]
    exact beq_self_eq_true _
  have hdecode : sampleEnv.b64decode = base64Decode := rfl
  have hsign : sampleEnv.sign privateKey text = sampleSign text := rfl
  rw [hdecode, hsign]
  exact ⟨raw, hraw, hverify⟩

theorem key_of_any (text : String) (h : (base64Decode text).any isKey = true) :
    ∃ raw, sampleEnv.b64decode text = some raw ∧ isKey raw = true := by
  cases hraw : base64Decode text with
  | none => simp [hraw] at h
  | some raw => exact ⟨raw, hraw, by simpa [hraw] using h⟩

theorem sampleMatching : Matching sampleEnv sampleSettings where
  privateKey_ne := by decide +kernel
  publicKey_ne := by decide +kernel
  pair := by
    obtain ⟨privateKey, hprivate, hprivate_key⟩ := key_of_any (signerPrivateKey sampleSettings)
      (by decide +kernel)
    obtain ⟨publicKey, hpublic, hpublic_key⟩ := key_of_any (signerPublicKey sampleSettings)
      (by decide +kernel)
    exact ⟨privateKey, publicKey, hprivate, hprivate_key, hpublic, hpublic_key,
      sampleEnv_signs privateKey publicKey⟩
  sign_strip _ text := Root.strip_letters (sampleSign_letters text)
  sign_ne _ text := by
    intro hempty
    have hnil := congrArg String.toList hempty
    simp [sampleEnv, sampleSign, idealHash] at hnil

theorem sampleSeeds_listed : seedManifestPeers sampleEnv sampleSettings = .ok sampleSeeds := by
  decide +kernel

theorem sampleSeeds_plain : ∀ p ∈ sampleSeeds, Plain sampleEnv p := by
  intro p hp
  cases List.mem_singleton.mp hp
  unfold Plain
  decide +kernel

/-- A seed serves a peer that announced itself. -/
theorem manifest_served_sample :
    Serves sampleEnv sampleSettings
      (run (recordPeerAnnouncement sampleEnv sampleSettings) {} [announcementOf "http://p.onion"])
      (outputs (recordPeerAnnouncement sampleEnv sampleSettings) (announced sampleEnv sampleSettings) {}
        [announcementOf "http://p.onion"]) 2 := by
  have hfits : Fits sampleEnv sampleSettings sampleSeeds {} (announcementOf "http://p.onion") := by
    intro p hp
    have hannounced : announced sampleEnv sampleSettings {} (announcementOf "http://p.onion") =
        some ⟨"http://p.onion", "onion", "participant", "", "", 1, 1, 0⟩ := by decide +kernel
    rw [hannounced] at hp
    cases hp
    unfold Plain
    decide +kernel
  exact manifest_served sampleEnv sampleSettings sampleMatching (by decide +kernel) sampleSeeds
    sampleSeeds_listed sampleSeeds_plain [announcementOf "http://p.onion"] 2
    ⟨by decide, by decide⟩ ⟨hfits, trivial⟩ (Or.inl (by decide))

/-- One peer that announces the seed's own URL ends the service. -/
theorem not_manifest_served : ¬ ∀ env cfg, Matching env cfg → peerRegistryEnabled cfg = true →
    ∀ seeds, seedManifestPeers env cfg = .ok seeds → ∀ as now, Chronological as now →
      ((∃ p ∈ seeds, Valid env p) ∨
        ∃ p, Latest (outputs (recordPeerAnnouncement env cfg) (announced env cfg) {} as) p ∧
          ¬ Expired cfg now p ∧ Valid env p.manifestPeer) →
      Serves env cfg (run (recordPeerAnnouncement env cfg) {} as)
        (outputs (recordPeerAnnouncement env cfg) (announced env cfg) {} as) now := by
  intro hserves
  have hseed : ∃ p ∈ sampleSeeds, Valid sampleEnv p :=
    ⟨_, List.mem_singleton_self _, _, sampleSeeds_plain _ (List.mem_singleton_self _)⟩
  obtain ⟨m, _, hpublish, -⟩ := hserves sampleEnv sampleSettings sampleMatching (by decide +kernel)
    sampleSeeds sampleSeeds_listed [announcementOf "http://s.onion"] 2 ⟨by decide, by decide⟩
    (Or.inl hseed)
  have hrepeated : publishManifest sampleEnv sampleSettings
      (run (recordPeerAnnouncement sampleEnv sampleSettings) {} [announcementOf "http://s.onion"]).registry 2 =
        .error (.rejected "bootstrap manifest peers must be unique") := by decide +kernel
  rw [hrepeated] at hpublish
  cases hpublish

end Vincent.Swarm
