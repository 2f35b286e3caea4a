-- SUMMARY: When a witness set that verifies is a quorum of distinct keys.
import Vincent.Root.Ideal

/-!
# Quorums of keys

Receipts are told apart by their node ids and the texts of their keys. A key has
several texts in base64, and a node id of its own for each of two lengths, so a
policy may list it more than once.
-/

namespace Vincent.Root

open Vincent.Python Vincent.Check Vincent.Mesh
open Vincent.Prekey (textOr rootText_injective)

/-! ## What a quorum is -/

section Statement

variable (env : RootEnv) (manifest : Dict)

/-- The policy is the one that the root signed with the manifest. -/
def SignedPolicy (policy : WitnessPolicy) : Prop :=
  ∃ payload raw sequence text, dictAt manifest "payload" = .ok payload ∧
    dictAt payload "witness_policy" = .ok raw ∧ verifyWitnessPolicy env raw = .ok policy ∧
    intOf env manifest "sequence" = .ok sequence ∧
    buildSignaturePayload env.rt rootManifestEventType (stripped env manifest "node_id") sequence
      payload = .ok text ∧
    verifySignature env (stripped env manifest "public_key")
      (textOr env.rt manifest "public_key_algo" "Ed25519") (stripped env manifest "signature")
      text = true

/-- The receipt names a listed Ed25519 key `raw`, which has signed it for the manifest. -/
structure SignedBy (receipt : Dict) (raw : List UInt8) : Prop where
  length : raw.length = 32
  key : env.b64decode (stripped env receipt "public_key") = some raw
  listed : ∃ policy, SignedPolicy env manifest policy ∧
    ∃ d ∈ policy.witnesses, d.publicKey = stripped env receipt "public_key"
  signature : ∃ expected sequence text, witnessPayload env manifest = .ok expected ∧
    intOf env receipt "sequence" = .ok sequence ∧
    buildSignaturePayload env.rt rootWitnessEventType (stripped env receipt "node_id") sequence
      expected = .ok text ∧
    env.verifyRaw raw "Ed25519" (stripped env receipt "signature") text = true

/-- The receipt verifies, and the policy lists its signer in the group. -/
def SignedIn (receipt : Dict) (group : String) : Prop :=
  (∃ view, verifyRootManifestWitness env manifest receipt = .ok view) ∧
    ∃ policy, SignedPolicy env manifest policy ∧ ∃ d ∈ policy.witnesses,
      d.key = (stripped env receipt "node_id", stripped env receipt "public_key") ∧
        d.independenceGroup = group

/-- At least `t` of the receipts are signed by distinct keys. -/
def KeyQuorum (witnesses : List Dict) (t : Int) : Prop :=
  ∃ signers : List (Dict × List UInt8), t ≤ signers.length ∧ (signers.map Prod.snd).Nodup ∧
    ∀ p ∈ signers, p.1 ∈ witnesses ∧ SignedBy env manifest p.1 p.2

/-- At least `t` of the receipts are signed in distinct groups. -/
def GroupQuorum (witnesses : List Dict) (t : Int) : Prop :=
  ∃ signers : List (Dict × String), t ≤ signers.length ∧ (signers.map Prod.snd).Nodup ∧
    ∀ p ∈ signers, p.1 ∈ witnesses ∧ SignedIn env manifest p.1 p.2

/-- The two manifests have the same signed fields. -/
def SameSigned (manifest manifest' : Dict) : Prop :=
  ∃ fields fields', canonicalManifest env manifest = .ok fields ∧
    canonicalManifest env manifest' = .ok fields' ∧
    (PyVal.dict fields).sorted = (PyVal.dict fields').sorted

/-- Receipts that verify are a quorum of keys, of groups where it is final, and count for no other
manifest. -/
def Quorate : Prop :=
  ∀ witnesses set, verifyRootManifestWitnessSet env manifest witnesses = .ok set →
    KeyQuorum env manifest witnesses set.manifest.policy.threshold ∧
    (set.finalityMet = true → 1 < set.manifest.policy.threshold →
      GroupQuorum env manifest witnesses set.manifest.policy.threshold) ∧
    ∀ counted ∈ set.validated, ∀ manifest' witnesses' set' counted',
      verifyRootManifestWitnessSet env manifest' witnesses' = .ok set' → counted' ∈ set'.validated →
        counted'.1 = counted.1 → SameSigned env manifest manifest'

/-- What verifies is under keys of 32 bytes, and above a threshold of one, two witnesses have two
keys. -/
def Separate : Prop :=
  ∀ witnesses set, verifyRootManifestWitnessSet env manifest witnesses = .ok set →
    (∀ receipt view, verifyRootManifestWitness env manifest receipt = .ok view →
      ∃ raw, env.b64decode view.publicKey = some raw ∧ raw.length = 32) ∧
    (set.manifest.policy.threshold = 1 ∨ ∀ receipt view receipt' view',
      verifyRootManifestWitness env manifest receipt = .ok view →
      verifyRootManifestWitness env manifest receipt' = .ok view' →
        env.b64decode view.publicKey = env.b64decode view'.publicKey → view.key = view'.key)

end Statement

/-! ## What was checked of a receipt -/

variable {env : RootEnv} {manifest manifest' receipt : Dict} {witnesses : List Dict}
  {view view' : WitnessView} {set : WitnessSetView}

/-- What was checked of a receipt that verifies. -/
structure Checks (env : RootEnv) (manifest receipt : Dict) (view : WitnessView)
    (policy : WitnessPolicy) (d : Descriptor) (expected : Dict) (sequence : Int) (text : String) :
    Prop where
  root : SignedPolicy env manifest policy
  nodeId : view.nodeId = stripped env receipt "node_id"
  publicKey : view.publicKey = stripped env receipt "public_key"
  allowed : allowedWitness policy view.key = .ok d
  group : view.independenceGroup = normalizeIndependenceGroup env (.str d.independenceGroup)
    (normalizeManagementScope env (.str d.managementScope))
  payload : witnessPayload env manifest = .ok expected
  number : intOf env receipt "sequence" = .ok sequence
  signed : buildSignaturePayload env.rt rootWitnessEventType view.nodeId sequence expected = .ok text
  signature : verifySignature env view.publicKey
    (textOr env.rt receipt "public_key_algo" "Ed25519") (stripped env receipt "signature") text = true

theorem checks_of_verifies (h : verifyRootManifestWitness env manifest receipt = .ok view) :
    ∃ policy d expected sequence text,
      Checks env manifest receipt view policy d expected sequence text := by
  simp only [verifyRootManifestWitness, bind_eq_ok, raising, orFail_eq_ok, demand, require_eq_ok,
    exists_const, pure_eq_ok] at h
  obtain ⟨mview, hmanifest, -, -, sequence, hsequence, payload, -, expected, hexpected, -, -, d,
    hallowed, -, text, htext, hsignature, _, -, _, -, _, -, _, -, _, -, rfl⟩ := h
  obtain ⟨-, payload, raw, n, signed, hpayload, hraw, hpolicy, hn, hsigned, hroot⟩ :=
    manifest_eq_ok hmanifest
  exact ⟨mview.policy, d, expected, sequence, text,
    ⟨payload, raw, n, signed, hpayload, hraw, hpolicy, hn, hsigned, hroot⟩, rfl, rfl, hallowed, rfl,
    hexpected, hsequence, htext, hsignature⟩

theorem mem_of_allowedWitness {policy : WitnessPolicy} {key : String × String} {d : Descriptor}
    (h : allowedWitness policy key = .ok d) : d ∈ policy.witnesses ∧ d.key = key := by
  unfold allowedWitness at h
  split at h
  · rename_i matched hfind
    cases h
    exact ⟨List.mem_reverse.mp (List.mem_of_find?_eq_some hfind), by simpa using List.find?_some hfind⟩
  · cases h

/-- A receipt that verifies under a key of 32 bytes is signed by it. -/
theorem signedBy_of_verifies (hideal : Ideal env)
    (h : verifyRootManifestWitness env manifest receipt = .ok view) {raw : List UInt8}
    (hraw : env.b64decode view.publicKey = some raw) (hlength : raw.length = 32) :
    SignedBy env manifest receipt raw := by
  obtain ⟨policy, d, expected, sequence, text, hchecks⟩ := checks_of_verifies h
  obtain ⟨hmem, hkey⟩ := mem_of_allowedWitness hchecks.allowed
  have hverify := hchecks.signature
  rw [verifySignature, hraw] at hverify
  dsimp only at hverify
  rw [hideal.key_length _ _ _ _ hverify hlength] at hverify
  refine ⟨hlength, by rw [← hchecks.publicKey, hraw], ⟨policy, hchecks.root, d, hmem, ?_⟩,
    expected, sequence, text, hchecks.payload, hchecks.number, ?_, hverify⟩
  · rw [← hchecks.publicKey]
    exact congrArg Prod.snd hkey
  · rw [← hchecks.nodeId]
    exact hchecks.signed

/-! ## One manifest for a receipt -/

theorem fingerprint_of_witnessPayload {expected : Dict} (h : witnessPayload env manifest = .ok expected) :
    ∃ fingerprint, manifestFingerprint env manifest = .ok fingerprint ∧
      ∀ s, ("manifest_fingerprint", PyVal.str s) ∈ expected ↔ s = fingerprint := by
  simp only [witnessPayload, bind_eq_ok, pure_eq_ok] at h
  obtain ⟨_, -, _, -, fingerprint, hfingerprint, _, -, _, -, _, -, _, -, _, -, _, -, rfl⟩ := h
  exact ⟨fingerprint, hfingerprint, by simp⟩

/-- Manifests with one fingerprint have the same signed fields. -/
theorem sameSigned_of_fingerprint (hideal : Ideal env) {fingerprint : String}
    (h : manifestFingerprint env manifest = .ok fingerprint)
    (h' : manifestFingerprint env manifest' = .ok fingerprint) : SameSigned env manifest manifest' := by
  simp only [manifestFingerprint, bind_eq_ok, pure_eq_ok] at h h'
  obtain ⟨fields, hfields, hhash⟩ := h
  obtain ⟨fields', hfields', hhash'⟩ := h'
  exact ⟨fields, fields', hfields, hfields', PyVal.asciiDumps_injective hideal.float_texts
    (hideal.hash_injective (hhash.trans hhash'.symm))⟩

/-- A receipt verifies for one manifest at most, up to what is not signed. -/
theorem sameSigned_of_verifies (hideal : Ideal env)
    (h : verifyRootManifestWitness env manifest receipt = .ok view)
    (h' : verifyRootManifestWitness env manifest' receipt = .ok view') :
    SameSigned env manifest manifest' := by
  obtain ⟨_, _, expected, sequence, text, hchecks⟩ := checks_of_verifies h
  obtain ⟨_, _, expected', sequence', text', hchecks'⟩ := checks_of_verifies h'
  obtain rfl := Except.ok.inj (hchecks.number.symm.trans hchecks'.number)
  have hmem : rootWitnessEventType ∈ rootEventTypes := by simp [rootEventTypes]
  have htext := hchecks.signed
  have htext' := hchecks'.signed
  rw [buildSignaturePayload_root hmem] at htext htext'
  have hsignature := hchecks.signature
  have hsignature' := hchecks'.signature
  rw [hchecks'.publicKey, ← hchecks.publicKey] at hsignature'
  have hsame : text = text' := by
    unfold verifySignature at hsignature hsignature'
    split at hsignature
    · cases hsignature
    · rename_i raw hraw
      rw [hraw] at hsignature'
      exact hideal.signature_unique _ _ _ _ _ hsignature hsignature'
  have hjson : canonicalJson env.rt expected = canonicalJson env.rt expected' := by
    have hboth := (Except.ok.inj htext).trans (hsame.trans (Except.ok.inj htext').symm)
    rw [hchecks.nodeId, hchecks'.nodeId] at hboth
    exact rootText_injective hboth
  obtain ⟨fingerprint, hfingerprint, hentry⟩ := fingerprint_of_witnessPayload hchecks.payload
  obtain ⟨fingerprint', hfingerprint', hentry'⟩ := fingerprint_of_witnessPayload hchecks'.payload
  obtain rfl := (hentry' _).mp
    (mem_of_canonicalJson_eq hideal.float_texts hjson ((hentry fingerprint).mpr rfl))
  exact sameSigned_of_fingerprint hideal hfingerprint hfingerprint'

/-! ## Groups -/

theorem checkWitnesses_mem {items : List Dict} {kept witnesses : List Descriptor}
    (h : checkWitnesses env items kept = .ok witnesses) :
    ∀ d ∈ witnesses, d ∈ kept ∨ d.independenceGroup ≠ "" ∧ ∃ item, d = publicWitnessDescriptor env item := by
  induction items generalizing kept with
  | nil =>
    cases h
    exact fun d hd => Or.inl hd
  | cons item items ih =>
    simp only [checkWitnesses, demand, bind_eq_ok, require_eq_ok, exists_const] at h
    obtain ⟨-, -, hgroup, -, h⟩ := h
    intro d hd
    rcases ih h d hd with hold | hnew
    · rcases List.mem_append.mp hold with hold | hthis
      · exact Or.inl hold
      · obtain rfl := List.mem_singleton.mp hthis
        exact Or.inr ⟨hgroup, item, rfl⟩
    · exact Or.inr hnew

/-- A policy has its groups in the form that they are compared in. -/
theorem lower_group (hideal : Ideal env) {policy : WitnessPolicy} {raw : Dict}
    (h : verifyWitnessPolicy env raw = .ok policy) :
    ∀ d ∈ policy.witnesses, env.rt.lower (strip d.independenceGroup) = d.independenceGroup ∧
      d.independenceGroup ≠ "" := by
  simp only [verifyWitnessPolicy, demand, raising, bind_eq_ok, require_eq_ok, exists_const,
    orFail_eq_ok, pure_eq_ok] at h
  obtain ⟨-, _, -, -, items, -, witnesses, hwitnesses, -, _, -, -, rfl⟩ := h
  intro d hd
  rcases checkWitnesses_mem hwitnesses d ((List.mem_insertionSort _).mp hd) with hnil | ⟨hne, item, rfl⟩
  · cases hnil
  · refine ⟨?_, hne⟩
    rw [publicWitnessDescriptor]
    dsimp only
    unfold normalizeIndependenceGroup
    dsimp only
    split
    · exact hideal.lower_lower _
    · split
      · have hstrip : strip "local_system" = "local_system" := by decide
        rw [hstrip, env.rt.lower_ascii "local_system" (by simp)]
        simp
      · have hstrip : strip "external_unknown" = "external_unknown" := by decide
        rw [hstrip, env.rt.lower_ascii "external_unknown" (by simp)]
        simp

/-- A receipt that verifies is signed in the group that it is counted in. -/
theorem signedIn_of_verifies (hideal : Ideal env)
    (h : verifyRootManifestWitness env manifest receipt = .ok view) :
    SignedIn env manifest receipt (env.rt.lower (strip view.independenceGroup)) := by
  obtain ⟨policy, d, expected, sequence, text, hchecks⟩ := checks_of_verifies h
  obtain ⟨hmem, hkey⟩ := mem_of_allowedWitness hchecks.allowed
  obtain ⟨-, raw, -, -, -, -, hpolicy, -⟩ := hchecks.root
  obtain ⟨hlower, hne⟩ := lower_group hideal hpolicy d hmem
  have hgroup : view.independenceGroup = d.independenceGroup := by
    rw [hchecks.group, normalizeIndependenceGroup]
    simp [PyVal.or, PyVal.truthy, PyVal.toStr, hne, hlower]
  refine ⟨⟨view, h⟩, policy, hchecks.root, d, hmem, ?_, by rw [hgroup, hlower]⟩
  rw [hkey, WitnessView.key, hchecks.nodeId, hchecks.publicKey]

theorem groupQuorum_of_final (hideal : Ideal env)
    (h : verifyRootManifestWitnessSet env manifest witnesses = .ok set) (hfinal : set.finalityMet = true)
    (hmany : 1 < set.manifest.policy.threshold) :
    GroupQuorum env manifest witnesses set.manifest.policy.threshold := by
  obtain ⟨mview, validated, hview, hvalidated, -, hpos, -, rfl⟩ := witnessSet_eq_ok.mp h
  obtain ⟨hcounted, hfrom⟩ := counted_of_validated hvalidated .nil
  simp only [rootWitnessFinalityMet, decide_eq_true_eq] at hfinal
  dsimp only at hmany ⊢
  have henough : mview.policy.threshold ≤ (independenceGroups env validated).length := by
    rcases hfinal.2 with hone | henough
    · omega
    · exact henough
  have hsigner : ∀ group ∈ independenceGroups env validated, ∃ p : Dict × String, p.2 = group ∧
      p.1 ∈ witnesses ∧ SignedIn env manifest p.1 p.2 := by
    intro group hgroup
    rw [independenceGroups, List.mem_dedup] at hgroup
    obtain ⟨counted, hmem, rfl⟩ := List.mem_map.mp (List.mem_filter.mp hgroup).1
    refine ⟨(counted.1, _), rfl, ?_, signedIn_of_verifies hideal (hcounted.verifies counted hmem)⟩
    exact (hfrom counted hmem).resolve_left List.not_mem_nil
  choose! signer hgroup hwitness hsigned using hsigner
  refine ⟨(independenceGroups env validated).map signer, ?_, ?_, ?_⟩
  · rw [List.length_map]
    exact henough
  · have hsame : ((independenceGroups env validated).map signer).map Prod.snd =
        independenceGroups env validated := by
      rw [List.map_map]
      exact (List.map_congr_left hgroup).trans (List.map_id _)
    rw [hsame]
    exact List.nodup_dedup _
  · intro p hp
    obtain ⟨group, hmem, rfl⟩ := List.mem_map.mp hp
    exact ⟨hwitness group hmem, hsigned group hmem⟩

/-! ## Keys -/

/-- Receipts under distinct keys of 32 bytes are a quorum of keys. -/
theorem keyQuorum_of_counted (hideal : Ideal env) {kept : List (Dict × WitnessView)}
    (hkept : Counted env manifest kept) (hfrom : ∀ p ∈ kept, p.1 ∈ witnesses)
    (hlength : ∀ p ∈ kept, ∃ raw, env.b64decode p.2.publicKey = some raw ∧ raw.length = 32)
    (hkeys : (kept.map fun p => env.b64decode p.2.publicKey).Nodup) :
    KeyQuorum env manifest witnesses kept.length := by
  have hsigner : ∀ p ∈ kept, ∃ raw, env.b64decode p.2.publicKey = some raw ∧
      SignedBy env manifest p.1 raw := by
    intro p hp
    obtain ⟨raw, hraw, hlen⟩ := hlength p hp
    exact ⟨raw, hraw, signedBy_of_verifies hideal (hkept.verifies p hp) hraw hlen⟩
  choose! raw hraw hsigned using hsigner
  refine ⟨kept.map fun p => (p.1, raw p), by simp, ?_, ?_⟩
  · rw [List.map_map]
    refine List.Nodup.of_map some ?_
    rw [List.map_map]
    have hsame : (kept.map (some ∘ Prod.snd ∘ fun p => (p.1, raw p))) =
        kept.map fun p => env.b64decode p.2.publicKey :=
      List.map_congr_left fun p hp => (hraw p hp).symm
    rw [hsame]
    exact hkeys
  · intro q hq
    obtain ⟨p, hp, rfl⟩ := List.mem_map.mp hq
    exact ⟨hfrom p hp, hsigned p hp⟩

/-- Receipts are no quorum of more keys than they have. -/
theorem KeyQuorum.le {t : Int} (h : KeyQuorum env manifest witnesses t) {keys : List (Option (List UInt8))}
    (hkeys : ∀ receipt ∈ witnesses, ∀ raw, SignedBy env manifest receipt raw →
      env.b64decode (stripped env receipt "public_key") ∈ keys) : t ≤ keys.length := by
  obtain ⟨signers, ht, hnodup, hsigned⟩ := h
  have hsub : (signers.map Prod.snd).map some ⊆ keys := by
    intro key hkey
    rw [List.map_map] at hkey
    obtain ⟨p, hp, rfl⟩ := List.mem_map.mp hkey
    obtain ⟨hmem, hby⟩ := hsigned p hp
    have hmem := hkeys p.1 hmem p.2 hby
    rwa [hby.key] at hmem
  have hle := ((hnodup.map (Option.some_injective _)).subperm hsub).length_le
  rw [List.length_map, List.length_map] at hle
  omega

/-- The count is as claimed iff what verifies is under keys of 32 bytes, one for each witness. -/
theorem quorum_of_keys (env : RootEnv) (hideal : Ideal env) (manifest : Dict) :
    Quorate env manifest ↔ Separate env manifest := by
  constructor
  · intro hquorate witnesses set hset
    have hmany := counted_of_witnessSet hset
    have hthreshold : 0 < set.manifest.policy.threshold ∧
        set.manifest.policy.threshold ≤ set.validated.length := by
      obtain ⟨_, _, -, -, -, hpos, hle, rfl⟩ := witnessSet_eq_ok.mp hset
      exact ⟨hpos, hle⟩
    -- receipts that are as many as the threshold are under as many keys
    have hexact : ∀ kept : List (Dict × WitnessView), Counted env manifest kept →
        (kept.length : Int) ≤ set.manifest.policy.threshold → ∀ keys : List (Option (List UInt8)),
        (∀ p ∈ kept, ∀ raw, SignedBy env manifest p.1 raw →
          env.b64decode p.2.publicKey ∈ keys) → kept.length ≤ keys.length := by
      intro kept hkept hfew keys hkeys
      obtain ⟨n, hn⟩ := Int.eq_ofNat_of_zero_le hthreshold.1.le
      obtain ⟨others, hcounted, hlength⟩ := hkept.fill hmany (n := n) (by omega) (by omega)
      obtain ⟨set', hset', hmanifest, -⟩ := witnessSet_of_counted hset hcounted (by omega)
      have hquorum := (hquorate _ _ hset').1
      have hle := @KeyQuorum.le _ _ _ _ hquorum
        (keys ++ others.map fun p => env.b64decode p.2.publicKey) ?_
      · rw [hmanifest, List.length_append, List.length_map] at hle
        rw [List.length_append] at hlength
        omega
      · intro receipt hreceipt raw hby
        obtain ⟨p, hp, rfl⟩ := List.mem_map.mp hreceipt
        obtain ⟨_, _, _, _, _, hchecks⟩ := checks_of_verifies (hcounted.verifies p hp)
        rw [← hchecks.publicKey]
        rcases List.mem_append.mp hp with hkeep | hother
        · exact List.mem_append_left _ (hkeys p hkeep raw hby)
        · exact List.mem_append_right _ (List.mem_map.mpr ⟨p, hother, rfl⟩)
    constructor
    · intro receipt view hview
      have hone : Counted env manifest [(receipt, view)] := by
        simpa using Counted.nil.concat hview (by simp)
      by_contra hno
      have hle := hexact _ hone (by simp only [List.length_singleton]; omega) [] ?_
      · simp at hle
      · intro p hp raw hby
        cases List.mem_singleton.mp hp
        obtain ⟨_, _, _, _, _, hchecks⟩ := checks_of_verifies hview
        exact absurd ⟨raw, by rw [hchecks.publicKey, hby.key], hby.length⟩ hno
    · by_contra hno
      rw [not_or] at hno
      obtain ⟨hmore, hno⟩ := hno
      apply hno
      intro receipt view receipt' view' hview hview' hsame
      by_contra hne
      have htwo : Counted env manifest [(receipt, view), (receipt', view')] := by
        have hone := Counted.nil.concat hview (by simp)
        simpa using hone.concat hview' (by simpa using Ne.symm hne)
      have hle := hexact _ htwo (by simp only [List.length_cons, List.length_nil]; omega)
        [env.b64decode view.publicKey] ?_
      · simp at hle
      · intro p hp raw hby
        rcases List.mem_cons.mp hp with rfl | hp
        · exact List.mem_singleton.mpr rfl
        · cases List.mem_singleton.mp hp
          exact List.mem_singleton.mpr hsame.symm
  · intro hseparate witnesses set hset
    obtain ⟨hlength, hkeys⟩ := hseparate witnesses set hset
    have hcounted := counted_of_witnessSet hset
    have hthreshold : 0 < set.manifest.policy.threshold ∧
        set.manifest.policy.threshold ≤ set.validated.length ∧ ∀ p ∈ set.validated, p.1 ∈ witnesses := by
      obtain ⟨_, validated, -, hvalidated, -, hpos, hle, rfl⟩ := witnessSet_eq_ok.mp hset
      exact ⟨hpos, hle, fun p hp =>
        ((counted_of_validated hvalidated .nil).2 p hp).resolve_left List.not_mem_nil⟩
    refine ⟨?_, fun hfinal hmany => groupQuorum_of_final hideal hset hfinal hmany, ?_⟩
    · have hraw : ∀ p ∈ set.validated, ∃ raw, env.b64decode p.2.publicKey = some raw ∧
          raw.length = 32 := fun p hp => hlength _ _ (hcounted.verifies p hp)
      rcases hkeys with hone | hkeys
      · obtain ⟨p, hp⟩ := List.exists_mem_of_length_pos (l := set.validated) (by omega)
        have hsingle := @keyQuorum_of_counted _ _ witnesses hideal _
          (hcounted.sublist (List.singleton_sublist.mpr hp))
          (fun q hq => by cases List.mem_singleton.mp hq; exact hthreshold.2.2 p hp)
          (fun q hq => by cases List.mem_singleton.mp hq; exact hraw p hp)
          (List.nodup_singleton _)
        rw [hone]
        exact hsingle
      · have hdistinct : (set.validated.map fun p => env.b64decode p.2.publicKey).Nodup := by
          have hnodup := hcounted.nodup
          rw [List.Nodup, List.pairwise_map] at hnodup ⊢
          exact hnodup.imp_of_mem fun hp hq hne hsame =>
            hne (hkeys _ _ _ _ (hcounted.verifies _ hp) (hcounted.verifies _ hq) hsame)
        obtain ⟨signers, hmany, hrest⟩ :=
          keyQuorum_of_counted hideal hcounted hthreshold.2.2 hraw hdistinct
        exact ⟨signers, hthreshold.2.1.trans hmany, hrest⟩
    · intro counted hmem manifest' witnesses' set' counted' hset' hmem' hsame
      have hverifies' := (counted_of_witnessSet hset').verifies counted' hmem'
      rw [hsame] at hverifies'
      exact sameSigned_of_verifies hideal (hcounted.verifies counted hmem) hverifies'

/-! ## One key in two spellings -/

/-- The key of `sampleWitness`, in another spelling. -/
def sampleRespelled : Witness idealEnv where
  toSigner := idealSigner "EEEEEEEEEEEEEEEEEEEEEEEEEEEEEEEEEEEEEEEEEEF=" (by decide)
    (by decide +kernel) (by decide +kernel) (by decide +kernel)
  group := "beta"
  group_lower := by decide +kernel
  group_ne := by decide

theorem sampleKeys_ne : sampleWitness.publicKey ≠ sampleRespelled.publicKey := by
  decide +kernel

theorem sampleKeys_decode :
    base64Decode sampleWitness.publicKey = base64Decode sampleRespelled.publicKey := by
  decide +kernel

/-- A policy that asks for both spellings. -/
def sampleQuorum : Quorum idealEnv where
  witnesses := [sampleWitness, sampleRespelled]
  threshold := 2
  sorted := by
    have hnode : sampleWitness.nodeId = sampleRespelled.nodeId := by decide +kernel
    have hkey : sampleWitness.publicKey ≤ sampleRespelled.publicKey := by decide +kernel
    simp only [List.map_cons, List.map_nil, List.pairwise_cons, List.mem_singleton, forall_eq,
      List.not_mem_nil, false_implies, implies_true, List.Pairwise.nil, and_true]
    exact Or.inr ⟨hnode, hkey⟩
  nodup := by
    simp only [List.map_cons, List.map_nil, List.nodup_cons, List.mem_singleton, List.not_mem_nil,
      not_false_eq_true, List.nodup_nil, and_true]
    exact fun h => sampleKeys_ne (Prod.ext_iff.mp h).2
  threshold_pos := by decide
  threshold_le := by decide

theorem quorum_of_keys_sample :
    Quorate idealEnv (sampleRoot.manifest sampleQuorum 1) ↔
      Separate idealEnv (sampleRoot.manifest sampleQuorum 1) :=
  quorum_of_keys idealEnv idealEnv_ideal (sampleRoot.manifest sampleQuorum 1)

/-- One key signs twice and makes a quorum of two. -/
theorem not_quorum_of_keys : ¬ ∀ env, Ideal env → ∀ manifest, Quorate env manifest := by
  intro hquorate
  obtain ⟨set, hset, hmanifest, -⟩ := @witnessSet_verifies _ sampleRoot sampleQuorum 1
    one_pos [(sampleWitness, 1), (sampleRespelled, 1)]
    (by simp [sampleQuorum]) (by simpa [sampleQuorum] using sampleQuorum.nodup) (by decide)
  have hquorum := (hquorate idealEnv idealEnv_ideal _ _ _ hset).1
  have hle := @KeyQuorum.le _ _ _ _ hquorum [base64Decode sampleWitness.publicKey] ?_
  · rw [hmanifest] at hle
    exact absurd hle (by decide)
  · intro receipt hreceipt raw _
    simp only [List.map_cons, List.map_nil, List.mem_cons, List.not_mem_nil, or_false] at hreceipt
    rw [List.mem_singleton]
    rcases hreceipt with rfl | rfl
    · rw [Witness.receipt, Signer.signed_publicKey]
      rfl
    · rw [Witness.receipt, Signer.signed_publicKey]
      exact sampleKeys_decode.symm

end Vincent.Root
