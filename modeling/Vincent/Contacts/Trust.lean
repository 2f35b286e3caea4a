-- SUMMARY: Trust in DM contacts: what the user decides, and what a remote peer can do.
import Vincent.Contacts.Contact
import Vincent.Python.JsonText

/-!
# Trust in contacts

The user pins an invite, confirms or recovers an identity, or acknowledges a
fingerprint. Nothing else changes a pinned fingerprint or eases an alarm, as long as
no observation lowers a broken continuity to a mismatch.
-/

namespace Vincent.Contacts

open Vincent.Python Vincent.Check Vincent.Run

section Model

variable (env : ContactEnv)

/-! ## Decisions of the user -/

/-- `int(payload.get(k, 0) or 0)`. -/
def payloadInt (payload : Dict) (k : String) : Except String Int :=
  pyInt env.rt ((Dict.get payload k).or (.int 0))

/-- The root that an invite or a fetched bundle names, as one list of fields. -/
structure RootView where
  fingerprint : String
  manifestFingerprint : String
  witnessPolicyFingerprint : String
  witnessThreshold : Int
  witnessCount : Int
  witnessDomainCount : Int
  manifestGeneration : Int
  rotationProven : Bool
  nodeId : String
  publicKey : String
  publicKeyAlgo : String

def readRoot (payload : Dict) : Except String RootView := do
  let generation ← payloadInt env payload "root_manifest_generation"
  return {
    fingerprint := lowered env (textOf env (Dict.get payload "root_fingerprint"))
    manifestFingerprint := lowered env (textOf env (Dict.get payload "root_manifest_fingerprint"))
    witnessPolicyFingerprint :=
      lowered env (textOf env (Dict.get payload "root_witness_policy_fingerprint"))
    witnessThreshold := ← payloadInt env payload "root_witness_threshold"
    witnessCount := ← payloadInt env payload "root_witness_count"
    witnessDomainCount := ← payloadInt env payload "root_witness_domain_count"
    manifestGeneration := generation
    rotationProven := generation ≤ 1 ∨ (Dict.get payload "root_rotation_proven").truthy
    nodeId := textOf env (Dict.get payload "root_node_id")
    publicKey := textOf env (Dict.get payload "root_public_key")
    publicKeyAlgo := ((Dict.get payload "root_public_key_algo").or (.str "Ed25519")).toStr env.rt }

/-- The root as the one that is pinned and the one that was observed last. -/
def pinnedRootFields (now : Int) (root : RootView) : Dict :=
  [("remotePrekeyRootFingerprint", .str root.fingerprint),
    ("remotePrekeyRootManifestFingerprint", .str root.manifestFingerprint),
    ("remotePrekeyRootWitnessPolicyFingerprint", .str root.witnessPolicyFingerprint),
    ("remotePrekeyRootWitnessThreshold", .int root.witnessThreshold),
    ("remotePrekeyRootWitnessCount", .int root.witnessCount),
    ("remotePrekeyRootWitnessDomainCount", .int root.witnessDomainCount),
    ("remotePrekeyObservedRootManifestFingerprint", .str root.manifestFingerprint),
    ("remotePrekeyObservedRootWitnessPolicyFingerprint", .str root.witnessPolicyFingerprint),
    ("remotePrekeyObservedRootWitnessThreshold", .int root.witnessThreshold),
    ("remotePrekeyObservedRootWitnessCount", .int root.witnessCount),
    ("remotePrekeyObservedRootWitnessDomainCount", .int root.witnessDomainCount),
    ("remotePrekeyRootManifestGeneration", .int root.manifestGeneration),
    ("remotePrekeyObservedRootManifestGeneration", .int root.manifestGeneration),
    ("remotePrekeyRootRotationProven", .bool root.rotationProven),
    ("remotePrekeyObservedRootRotationProven", .bool root.rotationProven),
    ("remotePrekeyRootNodeId", .str root.nodeId), ("remotePrekeyRootPublicKey", .str root.publicKey),
    ("remotePrekeyRootPublicKeyAlgo", .str root.publicKeyAlgo),
    ("remotePrekeyRootPinnedAt", .int now), ("remotePrekeyRootLastSeenAt", .int now),
    ("remotePrekeyRootMismatch", .bool false)]

/-- The anchors of an invite, cleared. -/
def clearedInvite : Dict :=
  [("invitePinnedTrustFingerprint", .str ""), ("invitePinnedNodeId", .str ""),
    ("invitePinnedPublicKey", .str ""), ("invitePinnedPublicKeyAlgo", .str ""),
    ("invitePinnedDhPubKey", .str ""), ("invitePinnedDhAlgo", .str ""),
    ("invitePinnedRootFingerprint", .str ""), ("invitePinnedRootManifestFingerprint", .str ""),
    ("invitePinnedRootWitnessPolicyFingerprint", .str ""),
    ("invitePinnedRootWitnessThreshold", .int 0), ("invitePinnedRootWitnessCount", .int 0),
    ("invitePinnedRootWitnessDomainCount", .int 0), ("invitePinnedRootManifestGeneration", .int 0),
    ("invitePinnedRootRotationProven", .bool false), ("invitePinnedRootNodeId", .str ""),
    ("invitePinnedRootPublicKey", .str ""), ("invitePinnedRootPublicKeyAlgo", .str ""),
    ("invitePinnedAt", .int 0)]

/-- `s.strip().rstrip("/")`. -/
def strippedUrl (s : String) : String :=
  String.ofList ((strip s).toList.reverse.dropWhile (· = '/')).reverse

/-- `pin_wormhole_dm_invite` of a contact that was read. -/
def pinInvite (now : Int) (peer : String) (payload : Dict) (label : String) (attested : Bool)
    (c : Dict) : Except String Dict := do
  let text := fun k => textOf env (Dict.get payload k)
  let fingerprint := lowered env (text "trust_fingerprint")
  require (fingerprint ≠ "") "invite trust_fingerprint required"
  let root ← readRoot env payload
  let dhAlgo := ((Dict.get payload "dh_algo").or (.str "X25519")).toStr env.rt
  let url := strippedUrl (text "lookup_peer_url")
  let c := updateIf (strip label ≠ "") c [("alias", .str (strip label))]
  let c := updateIf (url ≠ "") c [("invitePinnedLookupPeerUrl", .str url)]
  let c := update c [("dhPubKey", .str (text "identity_dh_pub_key")), ("dhAlgo", .str dhAlgo),
    ("invitePinnedPrekeyLookupHandle", .str (text "prekey_lookup_handle")),
    ("invitePinnedRootFingerprint", .str root.fingerprint),
    ("invitePinnedRootManifestFingerprint", .str root.manifestFingerprint),
    ("invitePinnedRootWitnessPolicyFingerprint", .str root.witnessPolicyFingerprint),
    ("invitePinnedRootWitnessThreshold", .int root.witnessThreshold),
    ("invitePinnedRootWitnessCount", .int root.witnessCount),
    ("invitePinnedRootWitnessDomainCount", .int root.witnessDomainCount),
    ("invitePinnedRootManifestGeneration", .int root.manifestGeneration),
    ("invitePinnedRootRotationProven", .bool root.rotationProven),
    ("invitePinnedRootNodeId", .str root.nodeId), ("invitePinnedRootPublicKey", .str root.publicKey),
    ("invitePinnedRootPublicKeyAlgo", .str root.publicKeyAlgo),
    ("invitePinnedIssuedAt", .int (← payloadInt env payload "issued_at")),
    ("invitePinnedExpiresAt", .int (← payloadInt env payload "expires_at")),
    ("remotePrekeyLookupMode",
      .str (if text "prekey_lookup_handle" = "" then "" else "invite_lookup_handle")),
    ("remotePrekeyObservedFingerprint", .str fingerprint),
    ("remotePrekeyObservedRootFingerprint", .str root.fingerprint)]
  let c := update c (pinnedRootFields now root)
  let c := update c [("remotePrekeyPinnedAt", .int now), ("remotePrekeyLastSeenAt", .int now),
    ("remotePrekeyMismatch", .bool false)]
  let c := if attested then update c [("invitePinnedTrustFingerprint", .str fingerprint),
      ("invitePinnedNodeId", .str peer), ("invitePinnedPublicKey", .str (text "public_key")),
      ("invitePinnedPublicKeyAlgo",
        .str (((Dict.get payload "public_key_algo").or (.str "Ed25519")).toStr env.rt)),
      ("invitePinnedDhPubKey", .str (text "identity_dh_pub_key")),
      ("invitePinnedDhAlgo", .str dhAlgo), ("invitePinnedAt", .int now)]
    else update c clearedInvite
  saved env (update c [("remotePrekeyFingerprint", .str fingerprint),
    ("trust_level", .str (if attested then "invite_pinned" else "tofu_pinned")),
    ("verified", .bool false), ("verify_inband", .bool false), ("verify_registry", .bool false),
    ("verify_mismatch", .bool false), ("verified_at", .int 0), ("updated_at", .int now)])

/-- `" ".join(s.split())` of a stripped and lowered phrase. -/
def normalizeSasPhrase (phrase : String) : String :=
  " ".intercalate ((((lowered env phrase).toList.splitOnP isSpace).filter fun word =>
    !word.isEmpty).map String.ofList)

/-- The phrase that the user has to give, as `_derive_expected_contact_sas_phrase` derives it. -/
def expectedSasPhrase (peer peerRef : String) (words : Int) (dhPubOverride : String) (c : Dict) :
    Except String String :=
  let dhPub := strip (if dhPubOverride ≠ "" then dhPubOverride
    else if textOf env (Dict.get c "dhPubKey") ≠ "" then textOf env (Dict.get c "dhPubKey")
    else textOf env (Dict.get c "invitePinnedDhPubKey"))
  if dhPub = "" then .error "peer dh identity unavailable for sas verification"
  else env.deriveSasPhrase peer dhPub (max 2 (min (if words = 0 then 8 else words) 16)) peerRef

/-- The phrase is the expected one. -/
def checkSas (peer phrase peerRef : String) (words : Int) (dhPubOverride : String) (c : Dict) :
    Except String Unit := do
  require (normalizeSasPhrase env phrase ≠ "") "sas proof required"
  let expected ← expectedSasPhrase env peer peerRef words dhPubOverride c
  require (normalizeSasPhrase env phrase = normalizeSasPhrase env expected) "sas phrase mismatch"

/-- `confirm_sas_verification` of a contact that was read. -/
def confirmSas (now : Int) (peer phrase peerRef : String) (words : Int) (c : Dict) :
    Except String Dict := do
  require (strip (textOf env (Dict.get c "remotePrekeyFingerprint")) ≠ "")
    "no pinned fingerprint to verify"
  require (trustLevel env c ∉ ["mismatch", "continuity_broken"])
    "cannot verify: acknowledge the changed fingerprint first"
  checkSas env peer phrase peerRef words "" c
  saved env (update c [("trust_level", .str "sas_verified"), ("verified", .bool true),
    ("verify_inband", .bool true), ("verified_at", .int now), ("remotePrekeyMismatch", .bool false),
    ("remotePrekeyRootMismatch", .bool false), ("verify_mismatch", .bool false),
    ("updated_at", .int now)])

/-- What the lookup of the current bundle and the check of its root give to a recovery. -/
structure Fetched where
  trustFingerprint : String
  identityDhPubKey : String
  dhAlgo : String
  root : RootView

/-- `recover_verified_root_continuity` of a contact that was read, with what was fetched. -/
def recoverContinuity (now : Int) (peer phrase peerRef : String) (words : Int)
    (fetched : Except String Fetched) (c : Dict) : Except String Dict := do
  require (trustLevel env c = "continuity_broken") "root recovery only valid for continuity_broken"
  require (flagAt c "remotePrekeyRootMismatch")
    "root recovery requires an observed stable root mismatch"
  let observed := loweredAt env c "remotePrekeyObservedFingerprint"
  let observedRoot := loweredAt env c "remotePrekeyObservedRootFingerprint"
  require (observed ≠ "" ∧ observedRoot ≠ "") "no observed stable-root candidate to recover"
  let fetched ← fetched
  require (lowered env fetched.trustFingerprint = observed ∧
      lowered env fetched.root.fingerprint = observedRoot)
    "observed root candidate changed again; refresh and compare SAS again before recovery"
  checkSas env peer phrase peerRef words fetched.identityDhPubKey c
  let c := update c [("dhPubKey", .str fetched.identityDhPubKey), ("dhAlgo", .str fetched.dhAlgo)]
  let c := update c (pinnedRootFields now { fetched.root with fingerprint := observedRoot })
  let c := update c [("remotePrekeyPinnedAt", .int now), ("remotePrekeyLastSeenAt", .int now),
    ("remotePrekeyMismatch", .bool false)]
  let c := update c (clearedInvite ++
    [("invitePinnedIssuedAt", .int 0), ("invitePinnedExpiresAt", .int 0)])
  saved env (update c [("remotePrekeyFingerprint", .str observed),
    ("trust_level", .str "sas_verified"), ("verified", .bool true), ("verify_inband", .bool true),
    ("verify_registry", .bool false), ("verify_mismatch", .bool false), ("verified_at", .int now),
    ("updated_at", .int now)])

/-- `acknowledge_changed_fingerprint` of a contact that was read. -/
def acknowledgeChanged (now : Int) (c : Dict) : Except String Dict := do
  require (trustLevel env c ∈ ["mismatch", "continuity_broken"])
    "acknowledgment only valid for mismatch or continuity_broken"
  let observed := loweredAt env c "remotePrekeyObservedFingerprint"
  let invitePinned := loweredAt env c "invitePinnedTrustFingerprint"
  let observedRoot := loweredAt env c "remotePrekeyObservedRootFingerprint"
  let invitePinnedRoot := loweredAt env c "invitePinnedRootFingerprint"
  require (observed ≠ "") "no observed fingerprint to re-pin"
  require (invitePinned = "" ∨ observed = invitePinned)
    "invite-pinned contact requires invite replacement before acknowledging changed fingerprint"
  require (flagAt c "remotePrekeyRootMismatch" = false)
    "stable root changed; recover root continuity with SAS or replace the signed invite before trusting this contact again"
  require (invitePinnedRoot = "" ∨ observedRoot = "" ∨ observedRoot = invitePinnedRoot)
    "invite-pinned contact requires invite replacement before acknowledging changed stable root"
  let c := update c [("remotePrekeyPinnedAt", .int now), ("remotePrekeyMismatch", .bool false)]
  let c := updateIf (observedRoot ≠ "") c
    [("remotePrekeyRootFingerprint", .str observedRoot),
      ("remotePrekeyRootManifestFingerprint",
        .str (loweredAt env c "remotePrekeyObservedRootManifestFingerprint")),
      ("remotePrekeyObservedRootManifestFingerprint",
        .str (loweredAt env c "remotePrekeyObservedRootManifestFingerprint")),
      ("remotePrekeyRootWitnessPolicyFingerprint",
        .str (loweredAt env c "remotePrekeyObservedRootWitnessPolicyFingerprint")),
      ("remotePrekeyRootWitnessThreshold",
        .int (intAt c "remotePrekeyObservedRootWitnessThreshold")),
      ("remotePrekeyRootWitnessCount", .int (intAt c "remotePrekeyObservedRootWitnessCount")),
      ("remotePrekeyRootWitnessDomainCount",
        .int (intAt c "remotePrekeyObservedRootWitnessDomainCount")),
      ("remotePrekeyRootManifestGeneration",
        .int (intAt c "remotePrekeyObservedRootManifestGeneration")),
      ("remotePrekeyRootRotationProven",
        .bool (intAt c "remotePrekeyObservedRootManifestGeneration" ≤ 1 ∨
          flagAt c "remotePrekeyObservedRootRotationProven")),
      ("remotePrekeyRootPinnedAt", .int now)]
  saved env (update c [("remotePrekeyFingerprint", .str observed),
    ("remotePrekeyRootMismatch", .bool false), ("trust_level", .str "tofu_pinned"),
    ("verified", .bool false), ("verify_inband", .bool false), ("verify_mismatch", .bool false),
    ("verified_at", .int 0), ("updated_at", .int now)])

/-! ## Runs -/

/-- The stored contacts, by peer. -/
abbrev ContactTable := String → Option Dict

inductive ContactAction where
  | observe (peer : String) (o : Observation)
  | upsert (peer : String) (updates : Dict)
  | sever (peer : String) (block : Bool)
  | rollForward (mapping : String → Option String) (inviteNodeId : String)
  | read
  | pinInvite (peer : String) (payload : Dict) (label : String) (attested : Bool)
  | confirmSas (peer phrase peerRef : String) (words : Int)
  | recoverContinuity (peer phrase peerRef : String) (words : Int) (fetched : Except String Fetched)
  | acknowledgeChanged (peer : String)

/-- The actions that only the user can take. -/
def ContactAction.byUser : ContactAction → Bool
  | .pinInvite .. | .confirmSas .. | .recoverContinuity .. | .acknowledgeChanged .. => true
  | _ => false

/-- A result that replaces a contact, unless it was an error. -/
def orKeep (c : Dict) : Except String Dict → Dict
  | .ok c' => c'
  | .error _ => c

/-- `_read_contacts`. What is stored is normal, so nothing is raised for it. -/
def readContacts (now : Int) (s : ContactTable) : ContactTable := fun peer =>
  (s peer).map fun c => orKeep c (readContact env now c)

/-- The contact of a peer that an operation starts from. -/
def currentContact (now : Int) (s : ContactTable) (peer : String) : Except String Dict :=
  normalizeContact env ((readContacts env now s (strip peer)).getD [])

/-- An operation on the contact of a peer, which stores nothing if it raises or rejects. -/
def change (now : Int) (s : ContactTable) (peer : String) (op : Dict → Except String Dict) : ContactTable :=
  if strip peer = "" then s
  else
    match currentContact env now s peer >>= op with
    | .error _ => readContacts env now s
    | .ok c => Function.update (readContacts env now s) (strip peer) (some c)

def contactStep (s : ContactTable) : Int × ContactAction → ContactTable
  | (now, .observe peer o) => change env now s peer (observeRemotePrekeyIdentity env now o)
  | (now, .upsert peer updates) => change env now s peer (upsertContact env now updates)
  | (now, .sever peer block) => change env now s peer (severContact env now block)
  | (now, .rollForward mapping inviteNodeId) => fun peer =>
    (readContacts env now s peer).map fun c =>
      orKeep c (normalizeContact env c >>= rollForwardLookupHandle env now mapping inviteNodeId)
  | (now, .read) => readContacts env now s
  | (now, .pinInvite peer payload label attested) =>
    change env now s peer (pinInvite env now (strip peer) payload label attested)
  | (now, .confirmSas peer phrase peerRef words) =>
    change env now s peer (confirmSas env now (strip peer) phrase peerRef words)
  | (now, .recoverContinuity peer phrase peerRef words fetched) =>
    change env now s peer (recoverContinuity env now (strip peer) phrase peerRef words fetched)
  | (now, .acknowledgeChanged peer) => change env now s peer (acknowledgeChanged env now)

/-- The trust level of a peer. -/
def levelOf (s : ContactTable) (peer : String) : String := trustLevel env ((s peer).getD
  [("trust_level", .str "unpinned")])

/-- The pinned fingerprint of a peer. -/
def fingerprintOf (s : ContactTable) (peer : String) : String :=
  textOf env (Dict.get ((s peer).getD []) "remotePrekeyFingerprint")

/-- The pin `p` at the level `l` stays, and no alarm is eased, on the way to `p'` and `l'`. -/
structure Stays (l p l' p' : String) : Prop where
  fingerprint : p ≠ "" → p' = p
  alarm : l ∈ ["mismatch", "continuity_broken"] → l' ∈ ["mismatch", "continuity_broken"]
  broken : l = "continuity_broken" → l' = "continuity_broken"
  tofu : l = "tofu_pinned" → l' ∉ ["invite_pinned", "sas_verified"]

def TrustKept (s s' : ContactTable) : Prop := ∀ peer,
  Stays (levelOf env s peer) (fingerprintOf env s peer) (levelOf env s' peer)
    (fingerprintOf env s' peer)

/-- A step that the user did not take keeps trust as it is. -/
def TrustByUserOnly (s : ContactTable) (a : Int × ContactAction) : Prop :=
  a.2.byUser = false → TrustKept env s (contactStep env s a)

/-- Under a broken continuity an observation shows the pinned identity, or another one under a
pinned root. -/
def NoDowngrade (s : ContactTable) : Int × ContactAction → Prop
  | (now, .observe peer o) => ∀ c, currentContact env now s peer = .ok c →
      trustLevel env c = "continuity_broken" → lowered env o.fingerprint ≠ "" →
      (sameIdentity env c o → transparencyConflict env c o = false) ∧
        (¬ sameIdentity env c o → loweredAt env c "invitePinnedRootFingerprint" ≠ "")
  | _ => True

end Model

section

variable {env : ContactEnv} {now : Int} {c c' value : Dict} {s : ContactTable} {o : Observation}

/-! ## Fields that are set and read -/

theorem get_set (d : Dict) (k k' : String) (v : PyVal) :
    Dict.get (Dict.set d k v) k' = if k' = k then v else Dict.get d k' := by
  unfold Dict.get
  split
  · rename_i h
    rw [h, Dict.lookup_set_self, Option.getD_some]
  · rename_i h
    rw [Dict.lookup_set_of_ne v h]

theorem get_update_of_notMem {d kvs : Dict} {k : String} (h : k ∉ kvs.map Prod.fst) :
    Dict.get (update d kvs) k = Dict.get d k := by
  unfold update
  induction kvs generalizing d with
  | nil => rfl
  | cons kv kvs ih =>
    rw [List.map_cons, List.mem_cons, not_or] at h
    rw [List.foldl_cons, ih h.2, get_set, if_neg h.1]

theorem get_updateIf_of_notMem {p : Prop} [Decidable p] {d kvs : Dict} {k : String}
    (h : k ∉ kvs.map Prod.fst) : Dict.get (updateIf p d kvs) k = Dict.get d k := by
  unfold updateIf
  split
  · exact get_update_of_notMem h
  · rfl

/-- The pinned fingerprint of a contact. -/
def pin (env : ContactEnv) (c : Dict) : String :=
  textOf env (Dict.get c "remotePrekeyFingerprint")

@[simp] theorem textOf_str (t : String) : textOf env (.str t) = t := by
  unfold textOf PyVal.or
  split
  · rfl
  · rename_i h
    simp only [PyVal.truthy, bne_iff_ne, ne_eq, not_not] at h
    rw [h]
    rfl

theorem trustLevel_of_get (h : Dict.get c' "trust_level" = Dict.get c "trust_level") :
    trustLevel env c' = trustLevel env c := by
  rw [trustLevel, trustLevel, h]

theorem pin_of_get
    (h : Dict.get c' "remotePrekeyFingerprint" = Dict.get c "remotePrekeyFingerprint") :
    pin env c' = pin env c := by
  rw [pin, pin, h]

theorem lowered_empty : lowered env "" = "" := by
  have hstrip : strip "" = "" := by decide
  rw [lowered, hstrip, env.rt.lower_ascii "" (by simp)]
  rfl

theorem strip_level {l : String} (h : l ∈ trustLevels) : strip l = l := by
  simp only [trustLevels, List.mem_cons, List.not_mem_nil, or_false] at h
  rcases h with rfl | rfl | rfl | rfl | rfl | rfl <;> decide +kernel

/-! ## Normalization -/

theorem lookup_of_mapM {fields : List (String × FieldKind)}
    (f : String → FieldKind → Except String PyVal)
    (h : (fields.mapM fun field => do return (field.1, ← f field.1 field.2)) = .ok c)
    {k : String} {kind : FieldKind} (hk : fields.lookup k = some kind) :
    f k kind = .ok (Dict.get c k) := by
  induction fields generalizing c with
  | nil => cases hk
  | cons field fields ih =>
    rw [List.mapM_cons] at h
    obtain ⟨entry, hentry, h⟩ := bind_eq_ok.mp h
    obtain ⟨rest, hrest, h⟩ := bind_eq_ok.mp h
    obtain ⟨v, hv, hpair⟩ := bind_eq_ok.mp hentry
    obtain rfl := pure_eq_ok.mp hpair
    obtain rfl := pure_eq_ok.mp h
    rw [List.lookup_cons] at hk
    rw [Dict.get, List.lookup_cons]
    cases hkey : k == field.1 with
    | true =>
      rw [hkey] at hk
      obtain rfl := Option.some.inj hk
      rw [eq_of_beq hkey]
      exact hv
    | false =>
      rw [hkey] at hk
      exact ih hrest hk

theorem normalize_level (h : normalizeContact env value = .ok c) :
    trustLevel env c =
      if trustLevel env value ∈ trustLevels then trustLevel env value else "unpinned" := by
  have hget := lookup_of_mapM (fun k kind => coerce env kind (rawField value k)) h
    (show contactFields.lookup "trust_level" = some .trustLevel by rfl)
  have hraw : rawField value "trust_level" = Dict.get value "trust_level" := by
    rw [rawField, if_neg (by decide)]
  rw [hraw, coerce] at hget
  rw [trustLevel, ← Except.ok.inj hget, textOf_str]
  change strip (if trustLevel env value ∈ trustLevels then trustLevel env value else "unpinned") = _
  split
  · rename_i hmem
    exact strip_level hmem
  · exact strip_level (by decide)

theorem normalize_pin (h : normalizeContact env value = .ok c) : pin env c = pin env value := by
  have hget := lookup_of_mapM (fun k kind => coerce env kind (rawField value k)) h
    (show contactFields.lookup "remotePrekeyFingerprint" = some .text by rfl)
  have hraw : rawField value "remotePrekeyFingerprint" =
      Dict.get value "remotePrekeyFingerprint" := by
    rw [rawField, if_neg (by decide)]
  rw [hraw, coerce] at hget
  rw [pin, ← Except.ok.inj hget, textOf_str, pin]

theorem saved_spec (h : saved env value = .ok c) (hlevel : trustLevel env value ∈ trustLevels) :
    trustLevel env c = trustLevel env value ∧ pin env c = pin env value := by
  obtain ⟨once, honce, h⟩ := bind_eq_ok.mp h
  have hlevel' := normalize_level honce
  rw [if_pos hlevel] at hlevel'
  rw [normalize_level h, hlevel', if_pos hlevel, normalize_pin h, normalize_pin honce]
  exact ⟨rfl, rfl⟩

/-! ## What each operation does to trust -/

/-- The level is one of the levels, and whatever is pinned counts as pinned. -/
structure Sound (env : ContactEnv) (c : Dict) : Prop where
  level : trustLevel env c ∈ trustLevels
  pinned : pin env c = "" ∨ lowered env (pin env c) ≠ ""
  known : trustLevel env c = "unpinned" ∨ pin env c ≠ ""

/-- The operation leaves the level and the pin. -/
def Quiet (env : ContactEnv) (c c' : Dict) : Prop :=
  trustLevel env c' = trustLevel env c ∧ pin env c' = pin env c

theorem Quiet.refl : Quiet env c c := ⟨rfl, rfl⟩

theorem Quiet.trans {c'' : Dict} (h : Quiet env c c') (h' : Quiet env c' c'') : Quiet env c c'' :=
  ⟨h'.1.trans h.1, h'.2.trans h.2⟩

theorem Quiet.sound (h : Quiet env c c') (hc : Sound env c) : Sound env c' where
  level := h.1 ▸ hc.level
  pinned := h.2 ▸ hc.pinned
  known := by rw [h.1, h.2]; exact hc.known

theorem Quiet.update {kvs : Dict} (h : Quiet env c c') (hlevel : "trust_level" ∉ kvs.map Prod.fst)
    (hpin : "remotePrekeyFingerprint" ∉ kvs.map Prod.fst) : Quiet env c (update c' kvs) :=
  ⟨(trustLevel_of_get (get_update_of_notMem hlevel)).trans h.1,
    (pin_of_get (get_update_of_notMem hpin)).trans h.2⟩

theorem Quiet.updateIf {p : Prop} [Decidable p] {kvs : Dict} (h : Quiet env c c')
    (hlevel : "trust_level" ∉ kvs.map Prod.fst)
    (hpin : "remotePrekeyFingerprint" ∉ kvs.map Prod.fst) : Quiet env c (updateIf p c' kvs) := by
  unfold Contacts.updateIf
  split
  · exact h.update hlevel hpin
  · exact h

theorem quiet_normalize (h : normalizeContact env c = .ok c')
    (hlevel : trustLevel env c ∈ trustLevels) : Quiet env c c' := by
  refine ⟨?_, normalize_pin h⟩
  rw [normalize_level h, if_pos hlevel]

theorem Quiet.normalize {c'' : Dict} (hquiet : Quiet env c c')
    (h : normalizeContact env c' = .ok c'') (hlevel : trustLevel env c ∈ trustLevels) :
    Quiet env c c'' :=
  hquiet.trans (quiet_normalize h (hquiet.1 ▸ hlevel))

theorem Quiet.saved {c'' : Dict} (hquiet : Quiet env c c') (h : saved env c' = .ok c'')
    (hlevel : trustLevel env c ∈ trustLevels) : Quiet env c c'' :=
  hquiet.trans (saved_spec h (hquiet.1 ▸ hlevel))

theorem quiet_promote (h : promoteInviteLookupMode env now c = .ok c')
    (hlevel : trustLevel env c ∈ trustLevels) : Quiet env c c' := by
  unfold promoteInviteLookupMode at h
  split at h
  · obtain rfl := Except.ok.inj h
    exact Quiet.refl
  · exact (Quiet.refl.update (by simp) (by simp)).normalize h hlevel

theorem quiet_rollForward {mapping : String → Option String} {inviteNodeId : String}
    (h : rollForwardLookupHandle env now mapping inviteNodeId c = .ok c')
    (hlevel : trustLevel env c ∈ trustLevels) : Quiet env c c' := by
  unfold rollForwardLookupHandle at h
  dsimp only at h
  split at h
  · obtain rfl := Except.ok.inj h
    exact Quiet.refl
  · split at h
    · obtain rfl := Except.ok.inj h
      exact Quiet.refl
    · exact (Quiet.refl.update (by simp) (by simp)).saved h hlevel

/-- A client cannot name the fields of trust. -/
theorem sanitize_keys {updates : Dict} {k : String} (h : k ∉ clientMutableContactFields) :
    k ∉ (sanitizeClientContactUpdates updates).map Prod.fst := by
  unfold sanitizeClientContactUpdates
  intro hmem
  obtain ⟨kv, hkv, rfl⟩ := List.mem_map.mp hmem
  obtain ⟨key, hkey, hlookup⟩ := List.mem_filterMap.mp hkv
  obtain ⟨v, -, rfl⟩ := Option.map_eq_some_iff.mp hlookup
  exact h hkey

theorem quiet_upsert {updates : Dict} (h : upsertContact env now updates c = .ok c')
    (hlevel : trustLevel env c ∈ trustLevels) : Quiet env c c' := by
  obtain ⟨merged, hmerged, h⟩ := bind_eq_ok.mp h
  have hmerge : Quiet env c merged := (Quiet.refl.update (sanitize_keys (by decide))
    (sanitize_keys (by decide))).normalize hmerged hlevel
  exact (hmerge.update (by simp) (by simp)).normalize h hlevel

theorem quiet_sever {block : Bool} (h : severContact env now block c = .ok c')
    (hlevel : trustLevel env c ∈ trustLevels) : Quiet env c c' := by
  refine Quiet.saved ?_ h hlevel
  exact ((Quiet.refl.update (by simp) (by simp)).updateIf (by simp) (by simp)).update (by simp)
    (by simp)

/-- What an observation notes before it is judged is no matter of trust. -/
theorem quiet_note {conflict : Bool} : Quiet env c (noteObservation env now o conflict c) := by
  unfold noteObservation
  dsimp only
  split
  · exact ((((Quiet.refl.update (by simp) (by simp)).updateIf (by simp) (by simp)).updateIf (by simp)
      (by simp)).updateIf (by simp) (by simp)).update (by simp) (by simp)
  · exact (((((Quiet.refl.update (by simp) (by simp)).updateIf (by simp) (by simp)).updateIf
      (by simp) (by simp)).updateIf (by simp) (by simp)).update (by simp) (by simp)).update
      (by simp) (by simp)

theorem level_update {kvs : Dict} {l : String} (h : l ∈ trustLevels)
    (hget : Dict.get (update c kvs) "trust_level" = .str l) : trustLevel env (update c kvs) = l := by
  rw [trustLevel, hget, textOf_str, strip_level h]

/-- What is pinned from an invite: the fingerprint, where none is pinned. -/
theorem pinFromInvite_spec {prior : Dict} :
    trustLevel env (pinFromInvite env now prior c) = trustLevel env c ∧
      pin env (pinFromInvite env now prior c) =
        if loweredAt env prior "remotePrekeyFingerprint" = "" ∧
            loweredAt env prior "invitePinnedTrustFingerprint" ≠ "" then
          loweredAt env prior "invitePinnedTrustFingerprint"
        else pin env c := by
  unfold pinFromInvite
  dsimp only
  constructor
  · exact (trustLevel_of_get (get_updateIf_of_notMem (by simp))).trans
      (trustLevel_of_get (get_updateIf_of_notMem (by simp)))
  · refine (pin_of_get (get_updateIf_of_notMem (by simp))).trans ?_
    unfold updateIf
    split
    · simp [pin, update, get_set]
    · rfl

/-- The pin after an observation that is accepted. -/
def judgedPin (env : ContactEnv) (prior : Dict) (o : Observation) : String :=
  if pinnedFingerprint env prior = "" then lowered env o.fingerprint
  else if loweredAt env prior "remotePrekeyFingerprint" = "" then
    loweredAt env prior "invitePinnedTrustFingerprint"
  else pin env prior

theorem firstSeen_spec : trustLevel env (firstSeen env now o c) = "tofu_pinned" ∧
    pin env (firstSeen env now o c) = lowered env o.fingerprint := by
  unfold firstSeen
  dsimp only
  constructor
  · exact level_update (by decide) (by simp [update, get_set])
  · rw [pin, get_update_of_notMem (by simp), get_updateIf_of_notMem (by simp [adoptedRoot])]
    simp [update, get_set]

/-- A level is that of a new contact, of a pinned one or an alarm. -/
theorem level_cases {l : String} (h : l ∈ trustLevels) :
    l = "unpinned" ∨ l ∈ ["tofu_pinned", "invite_pinned", "sas_verified"] ∨
      l ∈ ["mismatch", "continuity_broken"] := by
  simp only [trustLevels, List.mem_cons, List.not_mem_nil, or_false] at h
  rcases h with rfl | rfl | rfl | rfl | rfl | rfl <;> decide

theorem ne_unpinned {l : String} (h : l ∈ ["tofu_pinned", "invite_pinned", "sas_verified"] ∨
    l ∈ ["mismatch", "continuity_broken"]) : l ≠ "unpinned" := by
  rintro rfl
  revert h
  decide

/-- The level after the pinned identity was seen again. -/
def sameLevel (env : ContactEnv) (prior : Dict) (conflict : Bool) : String :=
  let priorTrust := trustLevel env prior
  let invitePinned := loweredAt env prior "invitePinnedTrustFingerprint"
  if conflict = true then
    if priorTrust ∈ ["invite_pinned", "sas_verified"] then "continuity_broken" else "mismatch"
  else if priorTrust = "unpinned" then
    if invitePinned ≠ "" ∧ pinnedFingerprint env prior = invitePinned then "invite_pinned"
    else "tofu_pinned"
  else priorTrust

theorem sameLevel_mem {prior : Dict} {conflict : Bool} (h : trustLevel env prior ∈ trustLevels) :
    sameLevel env prior conflict ∈ trustLevels := by
  unfold sameLevel
  dsimp only
  split_ifs
  all_goals first | decide | exact h

theorem sameSeen_spec {prior : Dict} {conflict : Bool} (hprior : trustLevel env prior ∈ trustLevels)
    (hc : trustLevel env c = trustLevel env prior) :
    trustLevel env (sameSeen env o prior conflict c) = sameLevel env prior conflict ∧
      pin env (sameSeen env o prior conflict c) = pin env c := by
  have hquiet : Quiet env c (updateIf (lowered env o.rootFingerprint ≠ "")
      (update c [("remotePrekeyMismatch", .bool conflict), ("remotePrekeyRootMismatch", .bool false)])
      (adoptedRoot env o)) :=
    (Quiet.refl.update (by simp) (by simp)).updateIf (by simp [adoptedRoot]) (by simp [adoptedRoot])
  have hmem : sameLevel env prior conflict ∈ trustLevels := sameLevel_mem hprior
  unfold sameSeen
  dsimp only
  generalize updateIf (lowered env o.rootFingerprint ≠ "") (update c _) _ = seen at hquiet ⊢
  unfold sameLevel at hmem ⊢
  dsimp only at hmem ⊢
  split
  · rename_i hconflict
    rw [if_pos hconflict] at hmem
    refine ⟨level_update hmem ?_, (pin_of_get (get_update_of_notMem (by simp))).trans hquiet.2⟩
    simp [update, get_set]
  · rename_i hconflict
    rw [if_neg hconflict] at hmem
    split
    · rename_i halarm
      rw [if_neg (ne_unpinned (.inr halarm))]
      refine ⟨level_update hprior ?_, (pin_of_get (get_update_of_notMem (by simp))).trans hquiet.2⟩
      simp [update, get_set]
    · rename_i halarm
      split
      · rename_i hother
        have hunpinned : trustLevel env prior = "unpinned" :=
          ((level_cases hprior).resolve_right (not_or.mpr ⟨hother, halarm⟩))
        rw [if_pos hunpinned] at hmem ⊢
        refine ⟨level_update hmem ?_, (pin_of_get (get_update_of_notMem (by simp))).trans hquiet.2⟩
        simp [update, get_set]
      · rename_i hpinned
        rw [if_neg (ne_unpinned (.inl (not_not.mp hpinned)))]
        exact ⟨hquiet.1.trans hc, hquiet.2⟩

theorem changedSeen_spec {prior : Dict} :
    trustLevel env (changedSeen env now o prior c) =
      (if trustLevel env prior ∈ ["invite_pinned", "sas_verified"] ∨
          loweredAt env prior "invitePinnedRootFingerprint" ≠ "" then "continuity_broken"
        else "mismatch") ∧
    pin env (changedSeen env now o prior c) = pin env c := by
  unfold changedSeen
  dsimp only
  constructor
  · exact level_update (by split <;> decide) (by simp [update, get_set])
  · rw [pin, get_update_of_notMem (by simp), get_updateIf_of_notMem (by simp [adoptedRoot]),
      get_update_of_notMem (by simp), pin]

/-- The level after an observation that is accepted. -/
def judgedLevel (env : ContactEnv) (prior : Dict) (o : Observation) : String :=
  if pinnedFingerprint env prior = "" then "tofu_pinned"
  else if sameIdentity env prior o then sameLevel env prior (transparencyConflict env prior o)
  else if trustLevel env prior ∈ ["invite_pinned", "sas_verified"] ∨
      loweredAt env prior "invitePinnedRootFingerprint" ≠ "" then "continuity_broken"
  else "mismatch"

theorem judgedLevel_mem {prior : Dict} (h : trustLevel env prior ∈ trustLevels) :
    judgedLevel env prior o ∈ trustLevels := by
  unfold judgedLevel
  split_ifs
  all_goals first | decide | exact sameLevel_mem h

theorem judged_spec {prior noted : Dict} (hprior : trustLevel env prior ∈ trustLevels)
    (hlevel : trustLevel env noted = trustLevel env prior)
    (hpin : pin env noted =
      if loweredAt env prior "remotePrekeyFingerprint" = "" ∧
          loweredAt env prior "invitePinnedTrustFingerprint" ≠ "" then
        loweredAt env prior "invitePinnedTrustFingerprint"
      else pin env prior) :
    let d := if pinnedFingerprint env prior = "" then firstSeen env now o noted
      else if sameIdentity env prior o then
        sameSeen env o prior (transparencyConflict env prior o) noted
      else changedSeen env now o prior noted
    trustLevel env d = judgedLevel env prior o ∧ pin env d = judgedPin env prior o := by
  dsimp only
  unfold judgedLevel judgedPin
  split
  · exact firstSeen_spec
  · rename_i hpinned
    have hnoted : pin env noted = if loweredAt env prior "remotePrekeyFingerprint" = "" then
        loweredAt env prior "invitePinnedTrustFingerprint" else pin env prior := by
      rw [hpin]
      unfold pinnedFingerprint at hpinned
      dsimp only at hpinned
      split at hpinned
      · rename_i hnone
        rw [if_pos ⟨hnone, hpinned⟩, if_pos hnone]
      · rename_i hsome
        rw [if_neg (fun h => hsome h.1), if_neg hsome]
    rw [← hnoted]
    split
    · exact sameSeen_spec hprior hlevel
    · exact changedSeen_spec

/-- What an accepted observation makes of the level and the pin. -/
theorem observe_spec {prior : Dict} (h : observeRemotePrekeyIdentity env now o prior = .ok c')
    (hprior : trustLevel env prior ∈ trustLevels) :
    lowered env o.fingerprint ≠ "" ∧ trustLevel env c' = judgedLevel env prior o ∧
      pin env c' = judgedPin env prior o := by
  unfold observeRemotePrekeyIdentity at h
  simp only [check_bind_eq_ok, require_eq_ok] at h
  obtain ⟨hfingerprint, h⟩ := h
  refine ⟨hfingerprint, ?_⟩
  have hnote : Quiet env prior
      (noteObservation env now o (transparencyConflict env prior o) prior) := quiet_note
  have hinvite : trustLevel env (pinFromInvite env now prior
      (noteObservation env now o (transparencyConflict env prior o) prior)) = _ ∧ _ :=
    pinFromInvite_spec
  rw [hnote.1, hnote.2] at hinvite
  have hjudged := @judged_spec env now o _ _ hprior hinvite.1 hinvite.2
  dsimp only at hjudged
  have hsaved := (Quiet.refl.update (by simp) (by simp)).saved h (hjudged.1 ▸ judgedLevel_mem hprior)
  exact ⟨hsaved.1.trans hjudged.1, hsaved.2.trans hjudged.2⟩

/-! ## Sound contacts -/

/-- What an accepted observation leaves pinned counts as pinned. -/
theorem judgedPin_ne {prior : Dict} (h : lowered env o.fingerprint ≠ "") :
    judgedPin env prior o ≠ "" ∧ lowered env (judgedPin env prior o) ≠ "" := by
  unfold judgedPin
  split
  · exact ⟨h, env.lowered_ne _ h⟩
  · rename_i hpinned
    unfold pinnedFingerprint at hpinned
    dsimp only at hpinned
    split
    · rename_i hnone
      rw [if_pos hnone] at hpinned
      exact ⟨hpinned, env.lowered_ne _ hpinned⟩
    · rename_i hsome
      refine ⟨?_, hsome⟩
      intro hempty
      apply hsome
      rw [loweredAt]
      change lowered env (pin env prior) = ""
      rw [hempty, lowered_empty]

/-- An observation of a sound contact leaves it sound. -/
theorem Sound.observe {prior : Dict} (hprior : Sound env prior)
    (h : observeRemotePrekeyIdentity env now o prior = .ok c') : Sound env c' := by
  obtain ⟨hfingerprint, hlevel, hpin⟩ := observe_spec h hprior.level
  have hnonempty : judgedPin env prior o ≠ "" ∧ lowered env (judgedPin env prior o) ≠ "" :=
    judgedPin_ne hfingerprint
  exact ⟨hlevel ▸ judgedLevel_mem hprior.level, .inr (hpin ▸ hnonempty.2), .inr (hpin ▸ hnonempty.1)⟩

theorem sound_pinned {kvs : Dict} {l f : String} (h : saved env (update c kvs) = .ok c')
    (hl : l ∈ trustLevels) (hlevel : Dict.get (update c kvs) "trust_level" = .str l)
    (hpin : Dict.get (update c kvs) "remotePrekeyFingerprint" = .str f) (hf : f ≠ "")
    (hlowered : lowered env f ≠ "") : Sound env c' := by
  have hset : trustLevel env (update c kvs) = l := level_update hl hlevel
  obtain ⟨hlevel', hpin'⟩ := saved_spec h (hset ▸ hl)
  have hpinned : pin env c' = f := by rw [hpin', pin, hpin, textOf_str]
  exact ⟨by rw [hlevel', hset]; exact hl, .inr (hpinned ▸ hlowered), .inr (hpinned ▸ hf)⟩

/-- A contact that was written with another level and the pin that it had is sound. -/
theorem Sound.relevel {kvs : Dict} {l : String} (hc : Sound env c) (hne : pin env c ≠ "")
    (h : saved env (update c kvs) = .ok c') (hl : l ∈ trustLevels)
    (hlevel : Dict.get (update c kvs) "trust_level" = .str l)
    (hpin : "remotePrekeyFingerprint" ∉ kvs.map Prod.fst) : Sound env c' := by
  have hset : trustLevel env (update c kvs) = l := level_update hl hlevel
  obtain ⟨hlevel', hpin'⟩ := saved_spec h (hset ▸ hl)
  have hkept : pin env c' = pin env c := hpin'.trans (pin_of_get (get_update_of_notMem hpin))
  exact ⟨by rw [hlevel', hset]; exact hl, .inr (hkept ▸ hc.pinned.resolve_left hne),
    .inr (hkept ▸ hne)⟩

theorem sound_pinInvite {peer label : String} {payload : Dict} {attested : Bool}
    (h : pinInvite env now peer payload label attested c = .ok c') : Sound env c' := by
  unfold pinInvite at h
  simp only [bind_eq_ok, require_eq_ok, exists_const] at h
  obtain ⟨hfingerprint, root, -, issued, -, expires, -, h⟩ := h
  refine sound_pinned (l := if attested then "invite_pinned" else "tofu_pinned")
    (f := lowered env (textOf env (Dict.get payload "trust_fingerprint"))) h
    (by cases attested <;> decide) ?_ ?_ hfingerprint (env.lowered_ne _ hfingerprint)
  all_goals simp [update, get_set]

theorem sound_confirmSas {peer phrase peerRef : String} {words : Int} (hc : Sound env c)
    (h : confirmSas env now peer phrase peerRef words c = .ok c') : Sound env c' := by
  unfold confirmSas at h
  simp only [check_bind_eq_ok, require_eq_ok] at h
  obtain ⟨hpinned, -, -, h⟩ := h
  have hne : pin env c ≠ "" := by
    intro hempty
    apply hpinned
    change strip (pin env c) = ""
    rw [hempty]
    decide
  exact hc.relevel (l := "sas_verified") hne h (by decide) (by simp [update, get_set]) (by simp)

theorem sound_recover {peer phrase peerRef : String} {words : Int}
    {fetched : Except String Fetched}
    (h : recoverContinuity env now peer phrase peerRef words fetched c = .ok c') : Sound env c' := by
  unfold recoverContinuity at h
  simp only [bind_eq_ok, require_eq_ok, exists_const] at h
  obtain ⟨-, -, hobserved, bundle, -, -, -, -, h⟩ := h
  refine sound_pinned (l := "sas_verified")
    (f := loweredAt env c "remotePrekeyObservedFingerprint") h (by decide) ?_ ?_ hobserved.1
    (env.lowered_ne _ hobserved.1)
  all_goals simp [update, get_set]

theorem sound_acknowledge (h : acknowledgeChanged env now c = .ok c') : Sound env c' := by
  unfold acknowledgeChanged at h
  simp only [check_bind_eq_ok, require_eq_ok] at h
  obtain ⟨-, hobserved, -, -, -, h⟩ := h
  refine sound_pinned (l := "tofu_pinned")
    (f := loweredAt env c "remotePrekeyObservedFingerprint") h (by decide) ?_ ?_ hobserved
    (env.lowered_ne _ hobserved)
  all_goals simp [update, get_set]

theorem sound_new (h : normalizeContact env [] = .ok c) :
    Sound env c ∧ trustLevel env c = "unpinned" ∧ pin env c = "" := by
  have hlevel : trustLevel env c = "unpinned" := by
    rw [normalize_level h]
    split
    · rename_i hmem
      have hempty : trustLevel env [] = strip "" := rfl
      have hnone : strip "" ∉ trustLevels := by decide
      exact absurd (hempty ▸ hmem) hnone
    · rfl
  have hpin : pin env c = "" := by
    rw [normalize_pin h]
    rfl
  exact ⟨⟨hlevel ▸ (by decide), .inl hpin, .inl hlevel⟩, hlevel, hpin⟩

/-! ## Steps -/

def AllSound (env : ContactEnv) (s : ContactTable) : Prop := ∀ peer c, s peer = some c → Sound env c

theorem quiet_readContact (hc : Sound env c) : Quiet env c (orKeep c (readContact env now c)) := by
  cases hread : readContact env now c with
  | error e => exact Quiet.refl
  | ok c' =>
    obtain ⟨normal, hnormal, h⟩ := bind_eq_ok.mp hread
    have hquiet := quiet_normalize hnormal hc.level
    exact hquiet.trans (quiet_promote h (hquiet.sound hc).level)

theorem readContacts_sound (now : Int) (hs : AllSound env s) : AllSound env (readContacts env now s) := by
  intro peer c hc
  obtain ⟨c0, hc0, rfl⟩ := Option.map_eq_some_iff.mp hc
  exact (quiet_readContact (hs peer c0 hc0)).sound (hs peer c0 hc0)

theorem readContacts_trust (now : Int) (hs : AllSound env s) (peer : String) :
    levelOf env (readContacts env now s) peer = levelOf env s peer ∧
      fingerprintOf env (readContacts env now s) peer = fingerprintOf env s peer := by
  unfold levelOf fingerprintOf readContacts
  cases hc : s peer with
  | none => exact ⟨rfl, rfl⟩
  | some c => exact quiet_readContact (hs peer c hc)

theorem currentContact_spec {peer : String} (hs : AllSound env s)
    (h : currentContact env now s peer = .ok c) :
    Sound env c ∧ trustLevel env c = levelOf env s (strip peer) ∧
      pin env c = fingerprintOf env s (strip peer) := by
  obtain ⟨hlevel, hpin⟩ := readContacts_trust now hs (strip peer)
  have hread := readContacts_sound now hs (strip peer)
  unfold currentContact at h
  rw [← hlevel, ← hpin]
  unfold levelOf fingerprintOf
  cases hc : readContacts env now s (strip peer) with
  | none =>
    rw [hc] at h
    obtain ⟨hsound, hnew, hnone⟩ := sound_new h
    refine ⟨hsound, ?_, hnone⟩
    rw [hnew]
    have hdefault : trustLevel env (update [] [("trust_level", .str "unpinned")]) = "unpinned" :=
      level_update (by decide) rfl
    exact hdefault.symm
  | some c0 =>
    rw [hc] at h
    have hquiet := quiet_normalize h (hread c0 hc).level
    exact ⟨hquiet.sound (hread c0 hc), hquiet⟩

theorem currentContact_new {peer : String} (h : s (strip peer) = none) :
    currentContact env now s peer = normalizeContact env [] := by
  rw [currentContact, readContacts, h]
  rfl

theorem stays_self (l p : String) : Stays l p l p where
  fingerprint _ := rfl
  alarm h := h
  broken h := h
  tofu h := by
    rw [h]
    decide

theorem Stays.of_eq {l p l' p' : String} (hl : l' = l) (hp : p' = p) : Stays l p l' p' := by
  rw [hl, hp]
  exact stays_self l p

theorem readContacts_kept (now : Int) (hs : AllSound env s) : TrustKept env s (readContacts env now s) :=
  fun peer => Stays.of_eq (readContacts_trust _ hs peer).1 (readContacts_trust _ hs peer).2

theorem change_sound {peer : String} {op : Dict → Except String Dict} (hs : AllSound env s)
    (hop : ∀ c c', Sound env c → op c = .ok c' → Sound env c') :
    AllSound env (change env now s peer op) := by
  unfold change
  split
  · exact hs
  · split
    · exact readContacts_sound _ hs
    · rename_i c' hc'
      obtain ⟨c, hc, hop'⟩ := bind_eq_ok.mp hc'
      intro other d hd
      by_cases hother : other = strip peer
      · rw [hother, Function.update_self] at hd
        obtain rfl := Option.some.inj hd
        exact hop c c' (currentContact_spec hs hc).1 hop'
      · rw [Function.update_of_ne hother] at hd
        exact readContacts_sound _ hs other d hd

theorem change_kept {peer : String} {op : Dict → Except String Dict} (hs : AllSound env s)
    (hop : ∀ c c', currentContact env now s peer = .ok c → Sound env c → op c = .ok c' →
      Stays (trustLevel env c) (pin env c) (trustLevel env c') (pin env c')) :
    TrustKept env s (change env now s peer op) := by
  unfold change
  split
  · exact fun _ => stays_self _ _
  · split
    · exact readContacts_kept _ hs
    · rename_i c' hc'
      obtain ⟨c, hc, hop'⟩ := bind_eq_ok.mp hc'
      obtain ⟨hsound, hlevel, hpin⟩ := currentContact_spec hs hc
      intro other
      by_cases hother : other = strip peer
      · rw [hother]
        have hstays := hop c c' hc hsound hop'
        rw [hlevel, hpin] at hstays
        rw [levelOf, fingerprintOf, levelOf, fingerprintOf, Function.update_self]
        exact hstays
      · have hread := readContacts_kept now hs other
        rw [levelOf, fingerprintOf, levelOf, fingerprintOf] at hread ⊢
        rw [Function.update_of_ne hother]
        exact hread

theorem Quiet.stays (h : Quiet env c c') :
    Stays (trustLevel env c) (pin env c) (trustLevel env c') (pin env c') := Stays.of_eq h.1 h.2

theorem Sound.pinnedFingerprint {prior : Dict} (h : Sound env prior) (hne : pin env prior ≠ "") :
    loweredAt env prior "remotePrekeyFingerprint" ≠ "" ∧ pinnedFingerprint env prior ≠ "" := by
  have hpinned : loweredAt env prior "remotePrekeyFingerprint" ≠ "" := h.pinned.resolve_left hne
  refine ⟨hpinned, ?_⟩
  unfold Contacts.pinnedFingerprint
  dsimp only
  rw [if_neg hpinned]
  exact hpinned

/-- An observation keeps the pin and the alarm of a contact, if it does not lower a broken
    continuity. -/
theorem observe_stays {prior : Dict} (hprior : Sound env prior)
    (h : observeRemotePrekeyIdentity env now o prior = .ok c')
    (hbroken : trustLevel env prior = "continuity_broken" →
      (sameIdentity env prior o → transparencyConflict env prior o = false) ∧
        (¬ sameIdentity env prior o → loweredAt env prior "invitePinnedRootFingerprint" ≠ "")) :
    Stays (trustLevel env prior) (pin env prior) (trustLevel env c') (pin env c') := by
  obtain ⟨-, hlevel, hpin⟩ := observe_spec h hprior.level
  rw [hlevel, hpin]
  have hpinned : trustLevel env prior ≠ "unpinned" → pinnedFingerprint env prior ≠ "" :=
    fun hne => (hprior.pinnedFingerprint (hprior.known.resolve_left hne)).2
  constructor
  · intro hne
    obtain ⟨hlowered, hsome⟩ := hprior.pinnedFingerprint hne
    rw [judgedPin, if_neg hsome, if_neg hlowered]
  · intro halarm
    have hne := ne_unpinned (.inr halarm)
    rw [judgedLevel, if_neg (hpinned hne)]
    split
    · unfold sameLevel
      dsimp only
      rw [if_neg hne]
      split
      · split <;> decide
      · exact halarm
    · split <;> decide
  · intro hlevel
    have hne : trustLevel env prior ≠ "unpinned" := by
      rw [hlevel]
      decide
    have hcond := hbroken hlevel
    rw [judgedLevel, if_neg (hpinned hne)]
    split
    · rename_i hsame
      rw [sameLevel, hcond.1 hsame, if_neg Bool.false_ne_true, if_neg hne]
      exact hlevel
    · rename_i hother
      rw [if_pos (.inr (hcond.2 hother))]
  · intro htofu
    have hne : trustLevel env prior ≠ "unpinned" := by
      rw [htofu]
      decide
    rw [judgedLevel, if_neg (hpinned hne)]
    split
    · unfold sameLevel
      dsimp only
      rw [if_neg hne, htofu]
      split <;> decide
    · split <;> decide

theorem rollForward_step {mapping : String → Option String} {inviteNodeId : String}
    (hs : AllSound env s) (peer : String) :
    let s' := contactStep env s (now, .rollForward mapping inviteNodeId)
    (∀ c, s' peer = some c → Sound env c) ∧
      Stays (levelOf env s peer) (fingerprintOf env s peer) (levelOf env s' peer)
        (fingerprintOf env s' peer) := by
  have hkept := readContacts_kept now hs peer
  have hread := readContacts_sound now hs peer
  unfold levelOf fingerprintOf at hkept ⊢
  dsimp only [contactStep]
  cases hc : readContacts env now s peer with
  | none =>
    rw [hc] at hkept
    exact ⟨fun c h => absurd h (by simp), hkept⟩
  | some c =>
    rw [hc] at hkept
    have hsound := hread c hc
    have hquiet : Quiet env c (orKeep c
        (normalizeContact env c >>= rollForwardLookupHandle env now mapping inviteNodeId)) := by
      cases hrolled : normalizeContact env c >>= rollForwardLookupHandle env now mapping inviteNodeId with
      | error e => exact Quiet.refl
      | ok c' =>
        obtain ⟨normal, hnormal, h⟩ := bind_eq_ok.mp hrolled
        have hnormalized := quiet_normalize hnormal hsound.level
        exact hnormalized.trans (quiet_rollForward h (hnormalized.sound hsound).level)
    refine ⟨fun c' h => ?_, ?_⟩
    · obtain rfl := Option.some.inj h
      exact hquiet.sound hsound
    · simp only [Option.getD_some, Option.map_some] at hkept ⊢
      rw [hquiet.1]
      change Stays _ _ _ (pin env _)
      rw [hquiet.2]
      exact hkept

/-- Every step leaves the contacts sound. -/
theorem contactStep_sound (hs : AllSound env s) (a : Int × ContactAction) :
    AllSound env (contactStep env s a) := by
  obtain ⟨now, action⟩ := a
  cases action with
  | observe peer o => exact change_sound hs fun c c' hc h => hc.observe h
  | upsert peer updates => exact change_sound hs fun c c' hc h => (quiet_upsert h hc.level).sound hc
  | sever peer block => exact change_sound hs fun c c' hc h => (quiet_sever h hc.level).sound hc
  | rollForward mapping inviteNodeId => exact fun peer => (rollForward_step hs peer).1
  | read => exact readContacts_sound _ hs
  | pinInvite peer payload label attested => exact change_sound hs fun c c' _ h => sound_pinInvite h
  | confirmSas peer phrase peerRef words => exact change_sound hs fun c c' hc h => sound_confirmSas hc h
  | recoverContinuity peer phrase peerRef words fetched =>
    exact change_sound hs fun c c' _ h => sound_recover h
  | acknowledgeChanged peer => exact change_sound hs fun c c' _ h => sound_acknowledge h

/-- A step that the user did not take, and that lowers no broken continuity, keeps trust. -/
theorem contactStep_kept (hs : AllSound env s) {a : Int × ContactAction}
    (hcond : NoDowngrade env s a) : TrustByUserOnly env s a := by
  intro huser
  obtain ⟨now, action⟩ := a
  cases action with
  | observe peer o =>
    refine change_kept hs fun c c' hc hsound h => observe_stays hsound h ?_
    exact fun hbroken => hcond c hc hbroken (observe_spec h hsound.level).1
  | upsert peer updates =>
    exact change_kept hs fun c c' _ hsound h => (quiet_upsert h hsound.level).stays
  | sever peer block =>
    exact change_kept hs fun c c' _ hsound h => (quiet_sever h hsound.level).stays
  | rollForward mapping inviteNodeId => exact fun peer => (rollForward_step hs peer).2
  | read => exact readContacts_kept _ hs
  | pinInvite | confirmSas | recoverContinuity | acknowledgeChanged => cases huser

theorem noDowngrade_new {peer : String} (h : s (strip peer) = none) :
    NoDowngrade env s (now, .observe peer o) := by
  intro c hc hbroken
  rw [currentContact_new h] at hc
  have hne : "unpinned" ≠ "continuity_broken" := by decide
  exact absurd ((sound_new hc).2.1.symm.trans hbroken) hne

theorem noDowngrade_upsert {peer : String} {updates : Dict} :
    NoDowngrade env s (now, .upsert peer updates) := trivial

theorem noDowngrade_read : NoDowngrade env s (now, .read) := trivial

/-- Trust rises and alarms ease only by the user, where no observation lowers a broken
continuity. -/
theorem trust_by_user_only (env : ContactEnv) (actions : List (Int × ContactAction))
    (hcond : Along (contactStep env) (NoDowngrade env) (fun _ => none) actions) :
    Along (contactStep env) (TrustByUserOnly env) (fun _ => none) actions := by
  have hnone : AllSound env fun _ => none := fun _ _ h => absurd h (by simp)
  exact hcond.imp (fun s a (hs : AllSound env s) _ => contactStep_sound hs a)
    (fun s a (hs : AllSound env s) h => contactStep_kept hs h) hnone

end

/-! ## Contacts that can be computed -/

theorem strip_ne_empty_iff {t : String} : strip t ≠ "" ↔ ∃ c ∈ t.toList, isSpace c = false := by
  have hiff : strip t = "" ↔ ∀ c ∈ t.toList, isSpace c = true := by
    rw [strip, ← String.toList_eq_nil_iff, String.toList_ofList, List.reverse_eq_nil_iff,
      List.dropWhile_eq_nil_iff]
    simp only [List.mem_reverse]
    constructor
    · intro h c hc
      rw [← List.takeWhile_append_dropWhile (p := isSpace) (l := t.toList), List.mem_append] at hc
      rcases hc with hc | hc
      · exact List.mem_takeWhile_imp hc
      · exact h c hc
    · exact fun h c hc => h c (List.dropWhile_subset _ hc)
  rw [ne_eq, hiff]
  simp

theorem exists_of_strip_ne {t : String} (h : strip t ≠ "") :
    ∃ c ∈ (strip t).toList, isSpace c = false := by
  unfold strip at h ⊢
  rw [String.toList_ofList]
  have hne : (t.toList.dropWhile isSpace).reverse.dropWhile isSpace ≠ [] := by
    intro hnil
    rw [hnil] at h
    exact h rfl
  exact ⟨_, List.mem_reverse.mpr (List.head_mem hne), List.head_dropWhile_not isSpace hne⟩

/-- An environment that redacts nothing and derives one phrase. -/
def plainContactEnv : ContactEnv where
  rt := asciiRuntime
  redactLabel s := s
  deriveSasPhrase _ _ _ _ := .ok "able baker"
  lowered_ne t h := by
    have hlower : ∀ u : String, (asciiRuntime.lower u).toList = u.toList.map Char.toLower :=
      fun u => String.toList_ofList
    have hne : ∀ u : String, (∃ c ∈ u.toList, isSpace c = false) →
        ∃ c ∈ (asciiRuntime.lower u).toList, isSpace c = false := by
      rintro u ⟨c, hc, hspace⟩
      rw [hlower]
      exact ⟨_, List.mem_map_of_mem hc, (isSpace_toLower c).trans hspace⟩
    have hstrip : strip t ≠ "" := by
      intro hempty
      rw [hempty] at h
      exact h rfl
    have hstripped := exists_of_strip_ne (strip_ne_empty_iff.mpr (hne _ (exists_of_strip_ne hstrip)))
    obtain ⟨c, hc, -⟩ := hne _ hstripped
    intro hempty
    rw [hempty] at hc
    exact absurd hc (by simp)

/-- An invite is pinned, and another fingerprint is seen. -/
def bobSeen : ContactTable :=
  run (contactStep plainContactEnv) (fun _ => none)
    [(100, .pinInvite "bob" [("trust_fingerprint", .str "aa")] "" true),
      (200, .observe "bob" { fingerprint := "bb" })]

theorem bobSeen_levels : levelOf plainContactEnv bobSeen "bob" = "continuity_broken" ∧
    levelOf plainContactEnv (contactStep plainContactEnv bobSeen
      (300, .observe "bob" { fingerprint := "cc" })) "bob" = "mismatch" := by
  decide +kernel

/-- A contact is seen for the first time, and the client then asks for a higher level. -/
theorem trust_by_user_only_sample :
    Along (contactStep plainContactEnv) (TrustByUserOnly plainContactEnv) (fun _ => none)
      [(100, .observe "bob" { fingerprint := "ab" }),
        (200, .upsert "bob" [("trust_level", .str "sas_verified")]), (300, .read)] := by
  apply trust_by_user_only
  exact ⟨noDowngrade_new rfl, noDowngrade_upsert, noDowngrade_read, trivial⟩

/-- A second changed fingerprint lowers the broken continuity of a contact to a mismatch. -/
theorem not_trust_by_user_only : ¬ ∀ (env : ContactEnv) (actions : List (Int × ContactAction)),
    Along (contactStep env) (TrustByUserOnly env) (fun _ => none) actions := by
  intro h
  have hrun := h plainContactEnv [(100, .pinInvite "bob" [("trust_fingerprint", .str "aa")] "" true),
    (200, .observe "bob" { fingerprint := "bb" }), (300, .observe "bob" { fingerprint := "cc" })]
  have hstep : TrustByUserOnly plainContactEnv bobSeen (300, .observe "bob" { fingerprint := "cc" }) :=
    along_iff_split.mp hrun [_, _] _ [] rfl
  obtain ⟨hbroken, hmismatch⟩ := bobSeen_levels
  have hlevel := (hstep rfl "bob").broken hbroken
  have hne : "mismatch" ≠ "continuity_broken" := by decide
  exact hne (hmismatch.symm.trans hlevel)

end Vincent.Contacts
