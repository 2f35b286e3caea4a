-- SUMMARY: What an honest root and honest witnesses sign is accepted.
import Vincent.Root.Witnesses

/-!
# Honest roots

A root that signs its first manifest, over a policy of witnesses that each sign a
receipt for it, gets a manifest and a witness set that verify.
-/

namespace Vincent.Root

open Vincent.Python Vincent.Check Vincent.Mesh
open Vincent.Prekey (textOr toDict)

/-- A key with its node id, and the signatures that its owner makes. -/
structure Signer (env : RootEnv) where
  nodeId : String
  publicKey : String
  sign : String → String
  nodeId_strip : strip nodeId = nodeId
  nodeId_ne : nodeId ≠ ""
  publicKey_strip : strip publicKey = publicKey
  publicKey_ne : publicKey ≠ ""
  sign_strip : ∀ text, strip (sign text) = sign text
  sign_ne : ∀ text, sign text ≠ ""
  bound : verifyNodeBinding env nodeId publicKey = true
  verifies : ∀ text, verifySignature env publicKey "Ed25519" (sign text) text = true

/-- A signer that witnesses, for a group. -/
structure Witness (env : RootEnv) extends Signer env where
  group : String
  group_lower : env.rt.lower (strip group) = group
  group_ne : group ≠ ""

variable {env : RootEnv}

/-! ## Reading an object -/

theorem stripped_of_str {d : Dict} {k s : String} (h : Dict.get d k (.str "") = .str s)
    (hstrip : strip s = s) : stripped env d k = s := by
  rw [stripped, Dict.text_of_str h, hstrip]

theorem textOr_absent {d : Dict} {k dflt : String} (h : Dict.get d k (.str dflt) = .str dflt) :
    textOr env.rt d k dflt = dflt := by
  rw [textOr, h]
  by_cases hs : dflt = "" <;> simp [PyVal.or, PyVal.truthy, PyVal.toStr, hs]

theorem textOr_of_str {d : Dict} {k s dflt : String} (h : Dict.get d k (.str dflt) = .str s)
    (hs : s ≠ "") : textOr env.rt d k dflt = s := by
  rw [textOr, h]
  simp [PyVal.or, PyVal.truthy, PyVal.toStr, hs]

theorem intOf_of_int {d : Dict} {k : String} {n dflt : Int} (h : Dict.get d k (.int dflt) = .int n)
    (hn : n ≠ 0 ∨ dflt = 0) : intOf env d k dflt = .ok n := by
  rw [intOf, h]
  by_cases hzero : n = 0
  · subst hzero
    rcases hn with hn | rfl
    · exact absurd rfl hn
    · simp [PyVal.or, PyVal.truthy, safeInt]
  · simp [PyVal.or, PyVal.truthy, safeInt, hzero]

theorem dictAt_of_dict {d kvs : Dict} {k : String} (h : Dict.get d k = .dict kvs) :
    dictAt d k = .ok kvs := by
  rw [dictAt, h]
  by_cases hkvs : kvs = []
  · subst hkvs
    rfl
  · have htrue : PyVal.truthy (.dict kvs) = true := by simp [PyVal.truthy, hkvs]
    rw [PyVal.or, if_pos htrue, toDict, if_pos htrue]

/-! ## Signing -/

def rootEventTypes : List String :=
  [rootManifestEventType, rootWitnessEventType, previousRootEventType, policyChangeEventType,
    "stable_dm_root_manifest_transparency"]

/-- What is signed of a payload. -/
def signedText (env : RootEnv) (eventType nodeId : String) (sequence : Int) (payload : Dict) : String :=
  String.intercalate "|" [Mesh.protocolVersion, networkId, eventType, nodeId, toString sequence,
    canonicalJson env.rt payload]

theorem buildSignaturePayload_root {eventType : String} (h : eventType ∈ rootEventTypes)
    (nodeId : String) (sequence : Int) (payload : Dict) :
    buildSignaturePayload env.rt eventType nodeId sequence payload =
      .ok (signedText env eventType nodeId sequence payload) := by
  simp only [rootEventTypes, List.mem_cons, List.not_mem_nil, or_false] at h
  rcases h with rfl | rfl | rfl | rfl | rfl <;> rfl

theorem strip_eventType {eventType : String} (h : eventType ∈ rootEventTypes) :
    strip eventType = eventType := by
  simp only [rootEventTypes, List.mem_cons, List.not_mem_nil, or_false] at h
  apply strip_of_no_space
  rcases h with rfl | rfl | rfl | rfl | rfl <;>
    simp [rootManifestEventType, rootWitnessEventType, previousRootEventType, policyChangeEventType,
      isSpace]

namespace Signer

variable (k : Signer env) (eventType : String) (sequence : Int) (payload : Dict)

/-- What the signer signs, as it is sent. -/
def signed : Dict :=
  [("event_type", .str eventType), ("node_id", .str k.nodeId), ("public_key", .str k.publicKey),
    ("sequence", .int sequence), ("payload", .dict payload),
    ("signature", .str (k.sign (signedText env eventType k.nodeId sequence payload)))]

@[simp] theorem signed_nodeId :
    stripped env (k.signed eventType sequence payload) "node_id" = k.nodeId :=
  stripped_of_str rfl k.nodeId_strip

@[simp] theorem signed_publicKey :
    stripped env (k.signed eventType sequence payload) "public_key" = k.publicKey :=
  stripped_of_str rfl k.publicKey_strip

@[simp] theorem signed_signature : stripped env (k.signed eventType sequence payload) "signature" =
    k.sign (signedText env eventType k.nodeId sequence payload) :=
  stripped_of_str rfl (k.sign_strip _)

@[simp] theorem signed_sequence :
    intOf env (k.signed eventType sequence payload) "sequence" = .ok sequence :=
  intOf_of_int rfl (Or.inr rfl)

@[simp] theorem signed_payload : dictAt (k.signed eventType sequence payload) "payload" = .ok payload :=
  dictAt_of_dict rfl

@[simp] theorem signed_type (dflt : String) :
    textOr env.rt (k.signed eventType sequence payload) "type" dflt = dflt :=
  textOr_absent rfl

@[simp] theorem signed_publicKeyAlgo (dflt : String) :
    textOr env.rt (k.signed eventType sequence payload) "public_key_algo" dflt = dflt :=
  textOr_absent rfl

@[simp] theorem signed_protocolVersion (dflt : String) :
    textOr env.rt (k.signed eventType sequence payload) "protocol_version" dflt = dflt :=
  textOr_absent rfl

theorem signed_eventType (h : eventType ∈ rootEventTypes) :
    stripped env (k.signed eventType sequence payload) "event_type" = eventType :=
  stripped_of_str rfl (strip_eventType h)

end Signer

/-! ## Policies -/

/-- A witness as its policy lists it. -/
def Witness.descriptor (w : Witness env) : Descriptor where
  scope := "root_witness"
  label := "root-witness"
  nodeId := w.nodeId
  publicKey := w.publicKey
  publicKeyAlgo := "Ed25519"
  managementScope := "external"
  independenceGroup := w.group

/-- Witnesses in the order that a policy has them, with a threshold that they can meet. -/
structure Quorum (env : RootEnv) where
  witnesses : List (Witness env)
  threshold : Int
  sorted : (witnesses.map Witness.descriptor).Pairwise fun a b =>
    a.nodeId < b.nodeId ∨ (a.nodeId = b.nodeId ∧ a.publicKey ≤ b.publicKey)
  nodup : (witnesses.map fun w => (w.nodeId, w.publicKey)).Nodup
  threshold_pos : 0 < threshold
  threshold_le : threshold ≤ witnesses.length

def Quorum.policy (q : Quorum env) : WitnessPolicy where
  policyVersion := 1
  threshold := q.threshold
  witnesses := q.witnesses.map Witness.descriptor

/-- A quorum of one witness. -/
def Quorum.single (w : Witness env) : Quorum env where
  witnesses := [w]
  threshold := 1
  sorted := List.pairwise_singleton _ _
  nodup := List.nodup_singleton _
  threshold_pos := one_pos
  threshold_le := le_rfl

theorem lower_external : env.rt.lower (strip "external") = "external" := by
  have hstrip : strip "external" = "external" := by decide
  rw [hstrip, env.rt.lower_ascii "external" (by simp)]
  simp

theorem descriptor_read (w : Witness env) :
    publicWitnessDescriptor env w.descriptor.toDict = w.descriptor := by
  have hscope : normalizeManagementScope env
      (Dict.get w.descriptor.toDict "management_scope") = "external" := by
    have hget : Dict.get w.descriptor.toDict "management_scope" = .str "external" := rfl
    rw [hget, normalizeManagementScope]
    simp [PyVal.or, PyVal.truthy, PyVal.toStr, lower_external]
  have hgroup : normalizeIndependenceGroup env
      (Dict.get w.descriptor.toDict "independence_group") "external" = w.group := by
    have hget : Dict.get w.descriptor.toDict "independence_group" = .str w.group := rfl
    rw [hget, normalizeIndependenceGroup]
    simp [PyVal.or, PyVal.truthy, PyVal.toStr, w.group_ne, w.group_lower]
  rw [publicWitnessDescriptor, hscope, hgroup, stripped_of_str (s := w.nodeId) rfl w.nodeId_strip,
    stripped_of_str (s := w.publicKey) rfl w.publicKey_strip,
    textOr_of_str (s := "root_witness") rfl (by decide),
    textOr_of_str (s := "root-witness") rfl (by decide),
    textOr_of_str (s := "Ed25519") rfl (by decide)]
  rfl

theorem checkWitnesses_honest {kept ws : List (Witness env)}
    (h : ((kept ++ ws).map fun w => (w.nodeId, w.publicKey)).Nodup) :
    checkWitnesses env (ws.map fun w => w.descriptor.toDict) (kept.map Witness.descriptor) =
      .ok ((kept ++ ws).map Witness.descriptor) := by
  induction ws generalizing kept with
  | nil => rw [List.append_nil]; rfl
  | cons w ws ih =>
    have hnew : w.descriptor.key ∉ (kept.map Witness.descriptor).map Descriptor.key := by
      rw [List.map_append, List.nodup_append'] at h
      intro hmem
      rw [List.map_map] at hmem
      exact h.2.2 hmem (by simp [Witness.descriptor, Descriptor.key])
    have hrest := @ih (kept ++ [w]) (by simpa using h)
    rw [List.map_append, List.map_singleton] at hrest
    rw [List.map_cons, checkWitnesses, descriptor_read]
    simp only [demand, bind_eq_ok, require_eq_ok, exists_const]
    refine ⟨⟨w.nodeId_ne, w.publicKey_ne⟩, w.bound, w.group_ne, hnew, ?_⟩
    rw [hrest]
    simp

theorem dictsAt_of_list {d : Dict} {k : String} {items : List Dict}
    (h : Dict.get d k = .list (items.map .dict)) : dictsAt d k = .ok items := by
  rw [dictsAt, h]
  cases items with
  | nil => rfl
  | cons item items =>
    have htrue : PyVal.truthy (.list ((item :: items).map .dict)) = true := by simp [PyVal.truthy]
    rw [PyVal.or, if_pos htrue]
    dsimp only
    rw [List.filterMap_map]
    simp

theorem dictsAt_policy (q : Quorum env) :
    dictsAt q.policy.toDict "witnesses" = .ok (q.witnesses.map fun w => w.descriptor.toDict) :=
  dictsAt_of_list (by simp [WitnessPolicy.toDict, Quorum.policy, Dict.get, List.lookup])

theorem policy_verifies (q : Quorum env) :
    verifyWitnessPolicy env q.policy.toDict = .ok q.policy := by
  have hne : q.witnesses ≠ [] := by
    have hpos := q.threshold_pos.trans_le q.threshold_le
    exact List.length_pos_iff.mp (by omega)
  have hchecked := @checkWitnesses_honest _ [] q.witnesses q.nodup
  rw [List.map_nil, List.nil_append] at hchecked
  have htype : textOr env.rt q.policy.toDict "type" witnessPolicyType = witnessPolicyType :=
    textOr_absent rfl
  have hversion : intOf env q.policy.toDict "policy_version" = .ok 1 :=
    intOf_of_int rfl (Or.inr rfl)
  have hthreshold : intOf env q.policy.toDict "threshold" = .ok q.threshold :=
    intOf_of_int rfl (Or.inr rfl)
  simp only [verifyWitnessPolicy, demand, raising, bind_eq_ok, require_eq_ok, exists_const,
    orFail_eq_ok, pure_eq_ok]
  refine ⟨htype, 1, hversion, one_pos, _, dictsAt_policy q, _, hchecked, by simpa using hne,
    q.threshold, hthreshold, ⟨q.threshold_pos, by simpa using q.threshold_le⟩, ?_⟩
  rw [List.Pairwise.insertionSort_eq q.sorted]
  rfl

theorem policyFingerprint_honest (q : Quorum env) :
    witnessPolicyFingerprint env q.policy.toDict = .ok (stableHash env (.dict q.policy.toDict)) := by
  have hlabel : ∀ w : Witness env, canonicalWitness env w.descriptor.toDict = w.descriptor.toDict := by
    intro w
    rw [canonicalWitness, descriptor_read, Dict.text_of_str (s := "root-witness") rfl]
    rfl
  have hversion : intOf env q.policy.toDict "policy_version" 1 = .ok 1 :=
    intOf_of_int rfl (Or.inl one_ne_zero)
  have hthreshold : intOf env q.policy.toDict "threshold" = .ok q.threshold :=
    intOf_of_int rfl (Or.inr rfl)
  rw [witnessPolicyFingerprint, dictsAt_policy, hversion, hthreshold,
    textOr_of_str (s := witnessPolicyType) rfl (by decide)]
  dsimp only [bind, Except.bind, pure, Except.pure]
  simp only [List.map_map, Function.comp_def, hlabel]
  simp [WitnessPolicy.toDict, Quorum.policy, Function.comp_def]

/-! ## Manifests -/

namespace Signer

variable (root : Signer env) (q : Quorum env) (issuedAt : Int)

/-- The payload of the first manifest of a root. -/
def manifestPayload : Dict :=
  [("root_node_id", .str root.nodeId), ("root_public_key", .str root.publicKey),
    ("generation", .int 1), ("issued_at", .int issuedAt), ("expires_at", .int (issuedAt + 1)),
    ("witness_policy", .dict q.policy.toDict)]

def manifest : Dict := root.signed rootManifestEventType 1 (root.manifestPayload q issuedAt)

/-- The fingerprint of the manifest. -/
def fingerprint : String :=
  stableHash env (.dict [("type", .str rootManifestEventType), ("event_type", .str rootManifestEventType),
    ("node_id", .str root.nodeId), ("public_key", .str root.publicKey),
    ("public_key_algo", .str "Ed25519"), ("protocol_version", .str Mesh.protocolVersion),
    ("sequence", .int 1), ("payload", .dict (root.manifestPayload q issuedAt)),
    ("signature", .str (root.sign (signedText env rootManifestEventType root.nodeId 1
      (root.manifestPayload q issuedAt))))])

theorem fingerprint_eq :
    manifestFingerprint env (root.manifest q issuedAt) = .ok (root.fingerprint q issuedAt) := by
  have hevent : textOr env.rt (root.manifest q issuedAt) "event_type" rootManifestEventType =
      rootManifestEventType := textOr_of_str rfl (by decide)
  rw [manifestFingerprint, canonicalManifest, hevent]
  simp only [manifest, signed_sequence, signed_payload, signed_type, signed_nodeId, signed_publicKey,
    signed_publicKeyAlgo, signed_protocolVersion, signed_signature]
  rfl

/-- What the verifier returns of the manifest. -/
def manifestView : ManifestView where
  manifestFingerprint := root.fingerprint q issuedAt
  rootFingerprint := rootIdentityFingerprint env root.nodeId root.publicKey "Ed25519" Mesh.protocolVersion
  rootNodeId := root.nodeId
  rootPublicKey := root.publicKey
  rootPublicKeyAlgo := "Ed25519"
  generation := 1
  policy := q.policy
  policyFingerprint := stableHash env (.dict q.policy.toDict)
  rotationProven := true
  policyChangeProven := true
  previousRootFingerprint := ""
  previousPolicyFingerprint := ""

theorem lowered_empty {d : Dict} {k : String} (h : Dict.get d k (.str "") = .str "") :
    lowered env d k = "" := by
  have hempty : strip "" = "" := by decide
  rw [lowered, stripped_of_str h hempty, env.rt.lower_ascii "" (by simp)]
  rfl

theorem manifest_verifies (hissued : 0 < issuedAt) :
    verifyRootManifest env (root.manifest q issuedAt) = .ok (root.manifestView q issuedAt) := by
  let payload := root.manifestPayload q issuedAt
  have hmem : rootManifestEventType ∈ rootEventTypes := by simp [rootEventTypes]
  have hgeneration : intOf env payload "generation" = .ok 1 := intOf_of_int rfl (Or.inr rfl)
  have hissuedAt : intOf env payload "issued_at" = .ok issuedAt := intOf_of_int rfl (Or.inr rfl)
  have hexpires : intOf env payload "expires_at" = .ok (issuedAt + 1) := intOf_of_int rfl (Or.inr rfl)
  have hversion : intOf env payload "policy_version" 1 = .ok 1 := intOf_of_int rfl (Or.inl one_ne_zero)
  have hnode : stripped env payload "root_node_id" = root.nodeId := stripped_of_str rfl root.nodeId_strip
  have hkey : stripped env payload "root_public_key" = root.publicKey :=
    stripped_of_str rfl root.publicKey_strip
  have halgo : textOr env.rt payload "root_public_key_algo" "Ed25519" = "Ed25519" := textOr_absent rfl
  have hprotocol : textOr env.rt payload "protocol_version" Mesh.protocolVersion =
      Mesh.protocolVersion := textOr_absent rfl
  have hpolicy : dictAt payload "witness_policy" = .ok q.policy.toDict := dictAt_of_dict rfl
  have hfingerprint : lowered env payload "root_fingerprint" = "" := lowered_empty rfl
  have hrotation : checkRotation env payload Mesh.protocolVersion 1 = .ok true := rfl
  have hlower : env.rt.lower (strip (stableHash env (.dict q.policy.toDict))) =
      stableHash env (.dict q.policy.toDict) := env.sha256_lower _
  have hchange : checkPolicyChange env payload root.nodeId root.publicKey "Ed25519"
      (stableHash env (.dict q.policy.toDict)) = .ok true := by
    have hprevious : lowered env payload "previous_witness_policy_fingerprint" = "" :=
      lowered_empty rfl
    have hsequence : intOf env payload "previous_witness_policy_sequence" = .ok 0 :=
      intOf_of_int rfl (Or.inr rfl)
    have hsignature : stripped env payload "previous_witness_policy_signature" = "" :=
      stripped_of_str rfl (by decide)
    rw [checkPolicyChange, hprevious, hsequence, hsignature]
    rfl
  simp only [verifyRootManifest, manifest, signed_type, signed_eventType _ _ _ _ hmem, signed_nodeId,
    signed_publicKey, signed_publicKeyAlgo, signed_protocolVersion, signed_sequence, signed_signature,
    signed_payload, buildSignaturePayload_root hmem, demand, raising, bind_eq_ok, require_eq_ok,
    exists_const, orFail_eq_ok, pure_eq_ok]
  refine ⟨trivial, trivial, 1, rfl, payload, rfl,
    ⟨root.nodeId_ne, root.publicKey_ne, one_pos, root.sign_ne _⟩, hprotocol.symm, hnode.symm,
    hkey.symm, halgo.symm, 1, hgeneration, one_pos, issuedAt, hissuedAt, hissued, _, hexpires,
    lt_add_one _, root.bound, _, rfl, root.verifies _, _, hpolicy, _, policy_verifies q, 1, hversion,
    rfl, Or.inl hfingerprint, _, policyFingerprint_honest q, true, hrotation, true, ?_, _,
    root.fingerprint_eq q issuedAt, ?_⟩
  · rw [hlower]
    exact hchange
  · have hroot : lowered env payload "previous_root_fingerprint" = "" := lowered_empty rfl
    have hprevious : lowered env payload "previous_witness_policy_fingerprint" = "" :=
      lowered_empty rfl
    rw [hlower, hroot, hprevious]
    rfl

/-! ## Receipts -/

/-- What a witness of the manifest signs. -/
def receiptPayload : Dict :=
  [("manifest_type", .str rootManifestEventType), ("manifest_event_type", .str rootManifestEventType),
    ("manifest_fingerprint", .str (root.fingerprint q issuedAt)), ("root_fingerprint", .str ""),
    ("root_node_id", .str root.nodeId), ("generation", .int 1), ("issued_at", .int issuedAt),
    ("expires_at", .int (issuedAt + 1)), ("policy_version", .int 1),
    ("witness_policy_fingerprint", .str (stableHash env (.dict q.policy.toDict))),
    ("witness_threshold", .int q.threshold)]

theorem receiptPayload_eq :
    witnessPayload env (root.manifest q issuedAt) = .ok (root.receiptPayload q issuedAt) := by
  let payload := root.manifestPayload q issuedAt
  have hpayload : dictAt (root.manifest q issuedAt) "payload" = .ok payload := signed_payload ..
  have hpolicy : dictAt payload "witness_policy" = .ok q.policy.toDict := dictAt_of_dict rfl
  have hgeneration : intOf env payload "generation" = .ok 1 := intOf_of_int rfl (Or.inr rfl)
  have hissuedAt : intOf env payload "issued_at" = .ok issuedAt := intOf_of_int rfl (Or.inr rfl)
  have hexpires : intOf env payload "expires_at" = .ok (issuedAt + 1) := intOf_of_int rfl (Or.inr rfl)
  have hversion : intOf env payload "policy_version" 1 = .ok 1 := intOf_of_int rfl (Or.inl one_ne_zero)
  have hthreshold : intOf env q.policy.toDict "threshold" = .ok q.threshold :=
    intOf_of_int rfl (Or.inr rfl)
  have hnode : stripped env payload "root_node_id" = root.nodeId := stripped_of_str rfl root.nodeId_strip
  have hroot : lowered env payload "root_fingerprint" = "" := lowered_empty rfl
  have htype : textOr env.rt (root.manifest q issuedAt) "type" rootManifestEventType =
      rootManifestEventType := textOr_absent rfl
  have hevent : textOr env.rt (root.manifest q issuedAt) "event_type" rootManifestEventType =
      rootManifestEventType := textOr_of_str rfl (by decide)
  have hfingerprint : policyFingerprintOrEmpty env q.policy.toDict =
      .ok (stableHash env (.dict q.policy.toDict)) := by
    rw [policyFingerprintOrEmpty, if_neg (by simp [WitnessPolicy.toDict]), policyFingerprint_honest]
  simp only [witnessPayload, bind_eq_ok, pure_eq_ok]
  refine ⟨payload, hpayload, _, hpolicy, _, root.fingerprint_eq q issuedAt, 1, hgeneration, _,
    hissuedAt, _, hexpires, 1, hversion, _, hfingerprint, _, hthreshold, ?_⟩
  rw [htype, hevent, hroot, hnode]
  rfl

theorem receiptPayload_self :
    Dict.eq (root.receiptPayload q issuedAt) (root.receiptPayload q issuedAt) = true := by
  simp [Dict.eq, PyVal.eqItems, receiptPayload, List.lookup, PyVal.eq, PyVal.eqScalar, PyVal.rat?]

end Signer

/-- A witness of the manifest signs a receipt. -/
def Witness.receipt (w : Witness env) (root : Signer env) (q : Quorum env) (issuedAt sequence : Int) :
    Dict :=
  w.signed rootWitnessEventType sequence (root.receiptPayload q issuedAt)

variable {root : Signer env} {q : Quorum env} {issuedAt sequence : Int} {w : Witness env}

theorem allowedWitness_honest (hw : w ∈ q.witnesses) :
    allowedWitness q.policy (w.nodeId, w.publicKey) = .ok w.descriptor := by
  have hmem : w.descriptor ∈ q.policy.witnesses.reverse :=
    List.mem_reverse.mpr (List.mem_map.mpr ⟨w, hw, rfl⟩)
  rw [allowedWitness]
  cases hfind : q.policy.witnesses.reverse.find? fun d => d.key = (w.nodeId, w.publicKey) with
  | none => exact absurd (decide_eq_true rfl) (List.find?_eq_none.mp hfind _ hmem)
  | some d =>
    have hkey : d.key = (w.nodeId, w.publicKey) := by simpa using List.find?_some hfind
    obtain ⟨w', hw', rfl⟩ := List.mem_map.mp (List.mem_reverse.mp (List.mem_of_find?_eq_some hfind))
    rw [List.inj_on_of_nodup_map q.nodup hw' hw hkey]

theorem receipt_verifies (hissued : 0 < issuedAt) (hsequence : 0 < sequence) (hw : w ∈ q.witnesses) :
    ∃ view, verifyRootManifestWitness env (root.manifest q issuedAt)
        (w.receipt root q issuedAt sequence) = .ok view ∧
      view.nodeId = w.nodeId ∧ view.publicKey = w.publicKey ∧ view.independenceGroup = w.group := by
  let expected := root.receiptPayload q issuedAt
  have hmem : rootWitnessEventType ∈ rootEventTypes := by simp [rootEventTypes]
  have hgeneration : intOf env expected "generation" = .ok 1 := intOf_of_int rfl (Or.inr rfl)
  have hissuedAt : intOf env expected "issued_at" = .ok issuedAt := intOf_of_int rfl (Or.inr rfl)
  have hexpires : intOf env expected "expires_at" = .ok (issuedAt + 1) := intOf_of_int rfl (Or.inr rfl)
  have hversion : intOf env expected "policy_version" 1 = .ok 1 :=
    intOf_of_int rfl (Or.inl one_ne_zero)
  have hthreshold : intOf env expected "witness_threshold" = .ok q.threshold :=
    intOf_of_int rfl (Or.inr rfl)
  have hgroup : ∀ scope, normalizeIndependenceGroup env (.str w.group) scope = w.group := by
    intro scope
    rw [normalizeIndependenceGroup]
    simp [PyVal.or, PyVal.truthy, PyVal.toStr, w.group_ne, w.group_lower]
  have hallowed : allowedWitness (root.manifestView q issuedAt).policy (w.nodeId, w.publicKey) =
      .ok w.descriptor := allowedWitness_honest hw
  simp only [verifyRootManifestWitness, Witness.receipt, root.manifest_verifies q issuedAt hissued,
    root.receiptPayload_eq, Signer.signed_type, Signer.signed_eventType _ _ _ _ hmem,
    Signer.signed_nodeId, Signer.signed_publicKey, Signer.signed_publicKeyAlgo,
    Signer.signed_sequence, Signer.signed_signature, Signer.signed_payload,
    buildSignaturePayload_root hmem, demand, raising, bind_eq_ok, require_eq_ok, exists_const,
    orFail_eq_ok, pure_eq_ok]
  refine ⟨_, ⟨_, rfl, trivial, trivial, _, rfl, _, rfl, _, rfl,
    ⟨w.nodeId_ne, w.publicKey_ne, hsequence, w.sign_ne _⟩, root.receiptPayload_self q issuedAt,
    _, hallowed, w.bound, _, rfl, w.verifies _, 1, hgeneration, _, hissuedAt, _, hexpires, 1,
    hversion, _, hthreshold, rfl⟩, rfl, rfl, hgroup _⟩

theorem receipts_verify (hissued : 0 < issuedAt) {receipts : List (Witness env × Int)}
    (hlisted : ∀ r ∈ receipts, r.1 ∈ q.witnesses ∧ 0 < r.2) :
    ∃ counted : List (Dict × WitnessView),
      (∀ p ∈ counted, verifyRootManifestWitness env (root.manifest q issuedAt) p.1 = .ok p.2) ∧
      counted.map Prod.fst = receipts.map (fun r => r.1.receipt root q issuedAt r.2) ∧
      counted.map (fun p => p.2.key) = receipts.map fun r => (r.1.nodeId, r.1.publicKey) := by
  induction receipts with
  | nil => exact ⟨[], by simp, rfl, rfl⟩
  | cons r receipts ih =>
    obtain ⟨counted, hverifies, hfst, hkeys⟩ := ih fun r hr => hlisted r (List.mem_cons_of_mem _ hr)
    obtain ⟨hw, hsequence⟩ := hlisted r List.mem_cons_self
    obtain ⟨view, hview, hnode, hkey, -⟩ := @receipt_verifies _ root _ _ _ _ hissued hsequence hw
    refine ⟨(r.1.receipt root q issuedAt r.2, view) :: counted, ?_, ?_, ?_⟩
    · intro p hp
      rcases List.mem_cons.mp hp with rfl | hp
      · exact hview
      · exact hverifies p hp
    · rw [List.map_cons, List.map_cons, hfst]
    · rw [List.map_cons, List.map_cons, hkeys, WitnessView.key, hnode, hkey]

/-- Receipts of as many witnesses as the threshold asks for make a witness set. -/
theorem witnessSet_verifies (hissued : 0 < issuedAt) {receipts : List (Witness env × Int)}
    (hlisted : ∀ r ∈ receipts, r.1 ∈ q.witnesses ∧ 0 < r.2)
    (hnodup : (receipts.map fun r => (r.1.nodeId, r.1.publicKey)).Nodup)
    (henough : q.threshold ≤ receipts.length) :
    ∃ set, verifyRootManifestWitnessSet env (root.manifest q issuedAt)
        (receipts.map fun r => r.1.receipt root q issuedAt r.2) = .ok set ∧
      set.manifest = root.manifestView q issuedAt ∧
      set.validated.map Prod.fst = receipts.map (fun r => r.1.receipt root q issuedAt r.2) ∧
      set.validated.map (fun p => p.2.key) = receipts.map fun r => (r.1.nodeId, r.1.publicKey) := by
  obtain ⟨counted, hverifies, hfst, hkeys⟩ := @receipts_verify _ root _ _ hissued _ hlisted
  have hcounted : Counted env (root.manifest q issuedAt) ([] ++ counted) :=
    ⟨hverifies, by rw [List.nil_append, hkeys]; exact hnodup⟩
  have hvalidated := validatedWitnesses_of_counted hcounted
  have hlength : counted.length = receipts.length := by
    simpa using congrArg List.length hfst
  rw [List.nil_append, hfst] at hvalidated
  have hpos := q.threshold_pos.trans_le henough
  refine ⟨_, witnessSet_eq_ok.mpr ⟨_, counted, root.manifest_verifies q issuedAt hissued, hvalidated,
    fun hnil => ?_, q.threshold_pos, ?_, rfl⟩, rfl, hfst, hkeys⟩
  · rw [hnil, List.length_nil] at hlength
    omega
  · rw [hlength]
    exact henough

end Vincent.Root
