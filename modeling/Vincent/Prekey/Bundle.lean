-- SUMMARY: Prekey bundles: what is signed, and what a claim does.
import Vincent.Dm.Keys
import Vincent.Mesh.Event
import Vincent.Python.JsonText

/-!
# Prekey bundles

The bundle of an agent is signed by the agent and attested by its root. Both texts
cover the hashes of the one-time prekeys. A relay that hands out a one-time prekey
takes it from the bundle that it stores.

Signatures are ideal: one verifies for one text at most.
-/

namespace Vincent.Prekey

open Vincent.Python Vincent.Dm Vincent.Mesh Vincent.Run Vincent.Check

/-- `str(d.get(k, dflt) or dflt)`. -/
def textOr (rt : Runtime) (d : Dict) (k dflt : String) : String :=
  ((Dict.get d k (.str dflt)).or (.str dflt)).toStr rt

/-- `dict(v or {})`. A list makes a dict where it is one of pairs. -/
def toDict (v : PyVal) : Except String Dict :=
  if v.truthy then
    match v with
    | .dict kvs => .ok kvs
    | .list xs => xs.foldlM (fun d pair => match pair with
        | .list [.str k, w] => .ok (Dict.set d k w)
        | _ => .error "TypeError") []
    | _ => .error "TypeError"
  else .ok []

/-- What `verify_root_manifest` finds in a manifest that it accepts. -/
structure RootManifest where
  fingerprint : String
  generation : Int := 1
  rotationProven : Bool := true
  policyChangeProven : Bool := true
  rootNodeId : String
  rootPublicKey : String
  rootPublicKeyAlgo : String := "Ed25519"

/-- What a bundle is checked in. The checks of the root distribution read no clock. -/
structure BundleEnv where
  relay : RelayEnv
  floatTexts : FloatTexts relay.rt
  /-- `Ed25519PublicKey.verify`, of a key, a signature in hex and a text. -/
  verifyEd25519 : String → String → String → Bool
  ed25519_ideal : ∀ key sig text text', verifyEd25519 key sig text = true →
    verifyEd25519 key sig text' = true → text = text'
  /-- `verify_signature`, of a key, an algorithm, a signature in hex and a text. -/
  verifySignature : String → String → String → String → Bool
  signature_ideal : ∀ key algo sig text text', verifySignature key algo sig text = true →
    verifySignature key algo sig text' = true → text = text'
  deriveNodeId : String → String
  verifyNodeBinding : String → String → Bool
  /-- `manifest_fingerprint_for_envelope`. -/
  manifestFingerprint : Dict → String
  /-- `verify_root_manifest`, with the detail of a rejection. -/
  verifyRootManifest : Dict → Except String RootManifest
  /-- `verify_root_manifest_witness_set`. -/
  verifyWitnessSet : Dict → List Dict → Except String Unit
  /-- `verify_root_transparency_record`. -/
  verifyTransparencyRecord : Dict → Dict → List Dict → Except String Unit

/-- A prekey record, as the checks read it. -/
structure BundleRecord where
  bundle : Dict
  publicKey : String
  agentId : String
  publicKeyAlgo : Option String := none
  protocolVersion : Option String := none

/-- `str(record.get(k, dflt) or dflt)` of a text that may be missing. -/
def recordText (value : Option String) (dflt : String) : String :=
  if value.getD dflt = "" then dflt else value.getD dflt

section Model

variable (env : BundleEnv)

/-! ## What is signed -/

/-- `data.get("one_time_prekeys") or []`, each of which is asked for its key. -/
def oneTimePrekeys (bundle : Dict) : Except String (List Dict) :=
  match Dict.get bundle "one_time_prekeys" with
  | .list xs => xs.mapM fun
    | .dict item => .ok item
    | _ => .error "AttributeError"
  | v => if v.truthy then .error "AttributeError" else .ok []

def otkHash (item : Dict) : String :=
  env.relay.sha256 ((Dict.get item "public_key" (.str "")).toStr env.relay.rt)

def otkHashes (otks : List Dict) : List String :=
  (otks.map (otkHash env)).insertionSort (· ≤ ·)

/-- The fields of `_bundle_signature_core_payload` before the hashes. -/
def coreFields (data : Dict) : Except String Dict := do
  let rt := env.relay.rt
  let signedPrekeyId ← safeInt rt ((Dict.get data "signed_prekey_id" (.int 0)).or (.int 0)) 0
  let signedAt ← safeInt rt ((Dict.get data "signed_at" (.int 0)).or (.int 0)) 0
  return [("identity_dh_pub_key", .str (data.text rt "identity_dh_pub_key")),
    ("dh_algo", .str (textOr rt data "dh_algo" "X25519")),
    ("signed_prekey_id", .int signedPrekeyId),
    ("signed_prekey_pub", .str (data.text rt "signed_prekey_pub")),
    ("signed_prekey_signature", .str (data.text rt "signed_prekey_signature")),
    ("signed_at", .int signedAt),
    ("mls_key_package", .str (data.text rt "mls_key_package"))]

def bundleSignatureCorePayload (data : Dict) : Except String Dict := do
  let otks ← oneTimePrekeys data
  let fields ← coreFields env data
  return fields ++ [("one_time_prekey_hashes", .list ((otkHashes env otks).map .str))]

def bundleRootAttestationBinding (current : Dict) : Except String Dict := do
  let rt := env.relay.rt
  if current = [] then return []
  let sequence ← safeInt rt ((Dict.get current "sequence" (.int 0)).or (.int 0)) 0
  return [("type", .str (current.text rt "type")),
    ("event_type", .str (current.text rt "event_type")),
    ("protocol_version", .str (textOr rt current "protocol_version" Mesh.protocolVersion)),
    ("root_node_id", .str (strip (current.text rt "root_node_id"))),
    ("root_public_key", .str (strip (current.text rt "root_public_key"))),
    ("root_public_key_algo", .str (strip (textOr rt current "root_public_key_algo" "Ed25519"))),
    ("root_manifest_fingerprint",
      .str (rt.lower (strip (current.text rt "root_manifest_fingerprint")))),
    ("sequence", .int sequence),
    ("signature", .str (strip (current.text rt "signature"))),
    ("signer_scope", .str (textOr rt current "signer_scope" "root"))]

def bundleSignaturePayload (data : Dict) : Except String String := do
  let payload ← bundleSignatureCorePayload env data
  let binding ← bundleRootAttestationBinding env (← toDict (Dict.get data "root_attestation"))
  let payload := if binding = [] then payload
    else payload ++ [("root_attestation", .dict binding)]
  return (PyVal.dict payload).asciiDumps env.relay.rt

def bundleRootAttestationPayload (r : BundleRecord) : Except String Dict := do
  let rootManifest ← toDict (Dict.get r.bundle "root_manifest")
  let core ← bundleSignatureCorePayload env r.bundle
  return [("agent_id", .str (strip r.agentId)),
    ("public_key", .str (strip r.publicKey)),
    ("public_key_algo", .str (recordText r.publicKeyAlgo "Ed25519")),
    ("protocol_version", .str (recordText r.protocolVersion Mesh.protocolVersion)),
    ("root_manifest_fingerprint",
      .str (if rootManifest = [] then "" else env.manifestFingerprint rootManifest)),
    ("bundle_signature_payload", .str ((PyVal.dict core).asciiDumps env.relay.rt))]

/-! ## Checks -/

/-- A rejection with an empty detail gets another one. -/
def orDetail {α : Type} (detail : String) : Except String α → Except String α
  | .error "" => .error detail
  | result => result

/-- `[dict(item or {}) for item in list(v or []) if isinstance(item, dict)]`. -/
def dictItems (v : PyVal) : Except String (List Dict) :=
  match v with
  | .list xs => .ok (xs.filterMap fun
    | .dict item => some item
    | _ => none)
  | .str _ | .dict _ => .ok []
  | v => if v.truthy then .error "TypeError" else .ok []

/-- `_verify_bundle_root_distribution_impl`, without the local external sources. -/
def verifyBundleRootDistribution (bundle : Dict) : Except String RootManifest := do
  let manifest ← toDict (Dict.get bundle "root_manifest")
  let witnesses ← dictItems (Dict.get bundle "root_manifest_witnesses")
  let legacyWitness ← toDict (Dict.get bundle "root_manifest_witness")
  let witnesses := if legacyWitness ≠ [] ∧ witnesses = [] then [legacyWitness] else witnesses
  let transparencyRecord ← toDict (Dict.get bundle "root_transparency_record")
  require (manifest ≠ []) "prekey bundle root manifest required"
  require (witnesses ≠ []) "prekey bundle root witness receipts required"
  require (transparencyRecord ≠ []) "prekey bundle root transparency record required"
  let verified ← orDetail "prekey bundle root manifest invalid" (env.verifyRootManifest manifest)
  orDetail "prekey bundle root witness invalid" (env.verifyWitnessSet manifest witnesses)
  orDetail "prekey bundle root transparency record invalid"
    (env.verifyTransparencyRecord transparencyRecord manifest witnesses)
  require (verified.generation ≤ 1 ∨ verified.rotationProven)
    "prekey bundle root rotation proof required"
  require verified.policyChangeProven
    "prekey bundle root witness policy change proof required"
  return verified

/-- The root attestation, as `_verify_bundle_root_attestation_impl` reads it. -/
structure Attestation where
  rootNodeId : String
  rootPublicKey : String
  rootPublicKeyAlgo : String
  rootManifestFingerprint : String
  protocolVersion : String
  sequence : Int
  signature : String

def readAttestation (attestation : Dict) : Except String Attestation := do
  let rt := env.relay.rt
  let sequence ← safeInt rt ((Dict.get attestation "sequence" (.int 0)).or (.int 0)) 0
  let algo := Dict.get attestation "root_public_key_algo"
    (Dict.get attestation "public_key_algo" (.str "Ed25519"))
  return {
    rootNodeId := strip (attestation.text rt "root_node_id")
    rootPublicKey := strip (attestation.text rt "root_public_key")
    rootPublicKeyAlgo := strip ((algo.or (.str "Ed25519")).toStr rt)
    rootManifestFingerprint := rt.lower (strip (attestation.text rt "root_manifest_fingerprint"))
    protocolVersion := strip (textOr rt attestation "protocol_version" Mesh.protocolVersion)
    sequence
    signature := strip (attestation.text rt "signature") }

/-- The checks of an attestation against the root distribution. -/
def checkAttestedRoot (att : Attestation) (root : RootManifest) : Except String Unit := do
  let rt := env.relay.rt
  require (att.rootManifestFingerprint = rt.lower (strip root.fingerprint))
    "prekey bundle root attestation manifest mismatch"
  require (att.rootNodeId = strip root.rootNodeId ∧ att.rootPublicKey = strip root.rootPublicKey ∧
      att.rootPublicKeyAlgo = root.rootPublicKeyAlgo)
    "prekey bundle root attestation root mismatch"
  require (env.verifyNodeBinding att.rootNodeId att.rootPublicKey)
    "prekey bundle root attestation node binding invalid"

def verifyBundleRootAttestation (r : BundleRecord) : Except String Unit := do
  let rt := env.relay.rt
  let attestation ← toDict (Dict.get r.bundle "root_attestation")
  require (attestation ≠ []) "prekey bundle root attestation required"
  let root ← verifyBundleRootDistribution env r.bundle
  let att ← readAttestation env attestation
  require (att.rootNodeId ≠ "" ∧ att.rootPublicKey ≠ "" ∧ att.rootManifestFingerprint ≠ "" ∧
      0 < att.sequence ∧ att.signature ≠ "")
    "prekey bundle root attestation incomplete"
  require (att.protocolVersion = strip (recordText r.protocolVersion Mesh.protocolVersion))
    "prekey bundle root attestation protocol mismatch"
  checkAttestedRoot env att root
  let payload ← bundleRootAttestationPayload env r
  let text ← buildSignaturePayload rt "dm_prekey_root_attestation" att.rootNodeId att.sequence payload
  require (env.verifySignature att.rootPublicKey att.rootPublicKeyAlgo att.signature text)
    "prekey bundle root attestation invalid"

/-- `_verify_bundle_signature`: every exception is a rejection. -/
def verifyBundleSignature (bundle : Dict) (publicKey : String) : Except String Unit :=
  match bundleSignaturePayload env bundle with
  | .error _ => .error "Prekey bundle signature invalid"
  | .ok text =>
    if env.verifyEd25519 publicKey (bundle.text env.relay.rt "bundle_signature") text then .ok ()
    else .error "Prekey bundle signature invalid"

/-- `_max_prekey_bundle_age_s()`. -/
def maxPrekeyBundleAge : ℚ := 24 * 60 * 60 + 3 * 24 * 60 * 60

/-- `_safe_int(bundle.get("signed_at", 0) or 0)`. -/
def bundleSignedAt (bundle : Dict) : Except String Int :=
  safeInt env.relay.rt ((Dict.get bundle "signed_at" (.int 0)).or (.int 0)) 0

/-- `_validate_bundle_record`, with an exception as a reason too. -/
def validateBundleRecord (now : ℚ) (r : BundleRecord) : Except String Unit := do
  let signedAt ← bundleSignedAt env r.bundle
  require (0 < signedAt) "Prekey bundle missing signed_at"
  require (signedAt ≤ now + 299) "Prekey bundle signed_at is in the future"
  require (strip (r.bundle.text env.relay.rt "bundle_signature") ≠ "")
    "Prekey bundle missing bundle_signature"
  require (r.publicKey ≠ "") "Prekey bundle missing signing key"
  let attestation ← toDict (Dict.get r.bundle "root_attestation")
  require (attestation ≠ []) "prekey bundle root attestation required"
  verifyBundleSignature env r.bundle r.publicKey
  require (now - signedAt ≤ maxPrekeyBundleAge) "Prekey bundle is stale"
  require (strip r.agentId = "" ∨ env.deriveNodeId r.publicKey = strip r.agentId)
    "Prekey bundle public key binding mismatch"
  orDetail "Prekey bundle root attestation invalid" (verifyBundleRootAttestation env r)

/-! ## The relay -/

/-- The relay, with this check of what is registered. -/
def relayEnv : RelayEnv :=
  { env.relay with
    validateBundleRecord := fun now bundle publicKey agentId =>
      validateBundleRecord env now { bundle, publicKey, agentId } }

/-- The record that `fetch_dm_prekey_bundle` and `bootstrap_encrypt_for_peer` check. -/
def storedRecord (agentId : String) (stored : PrekeyBundle) : BundleRecord where
  bundle := stored.bundle
  publicKey := stored.publicKey
  agentId := agentId
  publicKeyAlgo := some stored.publicKeyAlgo
  protocolVersion := some stored.protocolVersion

/-- The relay after calls of `consume_one_time_prekey` at the given times. -/
def consumed (agentId : String) (s : Relay) (times : List ℚ) : Relay :=
  run (fun s now => (consumeOneTimePrekey now agentId s).1) s times

/-- The one-time prekeys that the calls hand out, in order. -/
def handedOut (agentId : String) (s : Relay) (times : List ℚ) : List PyVal :=
  outputs (fun s now => (consumeOneTimePrekey now agentId s).1)
    (fun s now => ((consumeOneTimePrekey now agentId s).2).bind Prod.snd) s times

/-- The one-time prekeys of a bundle, as the relay hands them out. -/
def publishedPrekeys (bundle : Dict) : List PyVal :=
  match Dict.get bundle "one_time_prekeys" with
  | .list xs => xs
  | _ => []

/-- The stored record still validates, and each one-time prekey was handed out once at most. -/
def StaysUsable (agentId : String) (bundle : Dict) (s : Relay) (times : List ℚ) (now : ℚ) : Prop :=
  (∃ stored, (consumed agentId s times).prekeyBundles agentId = some stored ∧
    validateBundleRecord env now (storedRecord agentId stored) = .ok ()) ∧
  handedOut agentId s times = (publishedPrekeys bundle).take times.length

end Model

/-! ## The hashes in a text -/

section

variable {env : BundleEnv} {bundle bundle' : Dict} {agentId : String} {j : Nat}

/-- The width of the hashes of one-time prekeys in a text. -/
def hashWidth (env : BundleEnv) (otks : List Dict) : Nat :=
  asciiWidth ((PyVal.list ((otkHashes env otks).map .str)).dumps env.relay.rt).toList

theorem hashWidth_eq (otks : List Dict) : hashWidth env otks =
    (otks.map fun item => asciiWidth (jsonString (otkHash env item)).toList).sum +
      (otks.length - 1) + 2 := by
  have hperm := List.perm_insertionSort (· ≤ ·) (otks.map (otkHash env))
  have hsum := (hperm.map fun h => asciiWidth (jsonString h).toList).sum_eq
  rw [hashWidth, otkHashes, asciiWidth_list, List.map_map, List.length_map, hperm.length_eq,
    List.length_map]
  simp only [List.map_map] at hsum
  exact congrArg (fun n => n + (otks.length - 1) + 2) hsum

theorem jsonString_width_pos (s : String) : 0 < asciiWidth (jsonString s).toList := by
  rw [toList_jsonString, List.cons_append, asciiWidth_cons (by decide)]
  exact Nat.succ_pos _

theorem hashWidth_drop_lt {otks : List Dict} (hne : otks ≠ []) (hj : 0 < j) :
    hashWidth env (otks.drop j) < hashWidth env otks := by
  rw [hashWidth_eq, hashWidth_eq]
  have hsplit : ((otks.drop j).map fun item => asciiWidth (jsonString (otkHash env item)).toList).sum
      < (otks.map fun item => asciiWidth (jsonString (otkHash env item)).toList).sum := by
    obtain ⟨item, rest, rfl⟩ := List.exists_cons_of_ne_nil hne
    obtain ⟨n, rfl⟩ := Nat.exists_eq_succ_of_ne_zero hj.ne'
    have hpos := jsonString_width_pos (otkHash env item)
    have hrest := congrArg (fun l => (l.map fun item =>
      asciiWidth (jsonString (otkHash env item)).toList).sum) (List.take_append_drop n rest)
    simp only [List.map_append, List.sum_append] at hrest
    rw [Nat.succ_eq_add_one, List.drop_succ_cons, List.map_cons, List.sum_cons]
    omega
  have hlength : (otks.drop j).length - 1 ≤ otks.length - 1 := by
    rw [List.length_drop]
    omega
  omega

/-! ## What a claim leaves of a bundle -/

/-- The bundle without its first one-time prekeys, and with whatever count. -/
structure Claimed (bundle : Dict) (j : Nat) (bundle' : Dict) : Prop where
  same : ∀ k, k ∉ ["one_time_prekeys", "one_time_prekey_count"] → ∀ dflt,
    Dict.get bundle' k dflt = Dict.get bundle k dflt
  prekeys : Dict.get bundle' "one_time_prekeys" =
    match Dict.get bundle "one_time_prekeys" with
    | .list xs => .list (xs.drop j)
    | v => v

theorem Claimed.refl (bundle : Dict) : Claimed bundle 0 bundle where
  same _ _ _ := rfl
  prekeys := by cases Dict.get bundle "one_time_prekeys" <;> rfl

theorem mapM_dict_eq_ok {xs : List PyVal} {items : List Dict}
    (h : xs.mapM (fun
      | .dict item => .ok item
      | _ => .error "AttributeError") = (.ok items : Except String (List Dict))) :
    xs = items.map .dict := by
  induction xs generalizing items with
  | nil =>
    obtain rfl : items = [] := by simpa [pure, Except.pure] using h.symm
    rfl
  | cons x xs ih =>
    rw [List.mapM_cons] at h
    obtain ⟨item, hitem, h⟩ := bind_eq_ok.mp h
    obtain ⟨rest, hrest, h⟩ := bind_eq_ok.mp h
    obtain rfl := pure_eq_ok.mp h
    cases x <;> cases hitem
    rw [ih hrest, List.map_cons]

theorem mapM_dict_map (items : List Dict) : (items.map PyVal.dict).mapM (fun
      | .dict item => .ok item
      | _ => .error "AttributeError") = (.ok items : Except String (List Dict)) := by
  induction items with
  | nil => rfl
  | cons item items ih =>
    rw [List.map_cons, List.mapM_cons, ih]
    rfl

theorem oneTimePrekeys_cases {items : List Dict} (h : oneTimePrekeys bundle = .ok items) :
    Dict.get bundle "one_time_prekeys" = .list (items.map .dict) ∨
      items = [] ∧ (Dict.get bundle "one_time_prekeys").truthy = false := by
  unfold oneTimePrekeys at h
  split at h
  · rename_i xs hxs
    exact .inl (by rw [hxs, mapM_dict_eq_ok h])
  · split at h
    · cases h
    · rename_i hfalsy
      cases h
      exact .inr ⟨rfl, by simpa using hfalsy⟩

theorem publishedPrekeys_eq {items : List Dict} (h : oneTimePrekeys bundle = .ok items) :
    publishedPrekeys bundle = items.map .dict := by
  unfold publishedPrekeys
  rcases oneTimePrekeys_cases h with hlist | ⟨rfl, hfalsy⟩
  · rw [hlist]
  · cases hv : Dict.get bundle "one_time_prekeys" <;> simp_all [PyVal.truthy]

theorem Claimed.oneTimePrekeys (hclaimed : Claimed bundle j bundle') {items : List Dict}
    (h : oneTimePrekeys bundle = .ok items) : oneTimePrekeys bundle' = .ok (items.drop j) := by
  unfold Prekey.oneTimePrekeys
  rw [hclaimed.prekeys]
  rcases oneTimePrekeys_cases h with hlist | ⟨rfl, hfalsy⟩
  · rw [hlist]
    dsimp only
    rw [← List.map_drop, mapM_dict_map]
  · cases hv : Dict.get bundle "one_time_prekeys" <;> simp_all [PyVal.truthy, pure, Except.pure]

theorem Claimed.coreFields (h : Claimed bundle j bundle') :
    coreFields env bundle' = coreFields env bundle := by
  simp (disch := decide) only [Prekey.coreFields, Dict.text, textOr, h.same]

theorem Claimed.bundleSignedAt (h : Claimed bundle j bundle') :
    bundleSignedAt env bundle' = bundleSignedAt env bundle := by
  simp (disch := decide) only [Prekey.bundleSignedAt, h.same]

theorem Claimed.verifyBundleRootDistribution (h : Claimed bundle j bundle') :
    verifyBundleRootDistribution env bundle' = verifyBundleRootDistribution env bundle := by
  simp (disch := decide) only [Prekey.verifyBundleRootDistribution, h.same]

/-! ## Claims one after the other -/

/-- The stored entry is that of a registration, but for `j` one-time prekeys. -/
structure Left (entry : PrekeyBundle) (j : Nat) (stored : PrekeyBundle) : Prop where
  claimed : Claimed entry.bundle j stored.bundle
  publicKey : stored.publicKey = entry.publicKey
  publicKeyAlgo : stored.publicKeyAlgo = entry.publicKeyAlgo
  protocolVersion : stored.protocolVersion = entry.protocolVersion

variable {entry stored : PrekeyBundle} {s : Relay} {now : ℚ}

theorem Claimed.set {otks : List PyVal} {x count : PyVal}
    (h : Claimed bundle j bundle') (hotks : Dict.get bundle' "one_time_prekeys" = .list (x :: otks)) :
    Claimed bundle (j + 1) (Dict.set (Dict.set bundle' "one_time_prekeys" (.list otks))
      "one_time_prekey_count" count) where
  same k hk dflt := by
    simp only [List.mem_cons, List.not_mem_nil, or_false, not_or] at hk
    rw [get_set_of_ne _ _ hk.2, get_set_of_ne _ _ hk.1]
    exact h.same k (by simp [hk.1, hk.2]) dflt
  prekeys := by
    rw [get_set_of_ne _ _ (by decide), Dict.get, Dict.lookup_set_self, Option.getD_some]
    have hdropped := h.prekeys
    rw [hotks] at hdropped
    split at hdropped
    · rename_i xs hxs
      have hxs' : x :: otks = xs.drop j := PyVal.list.inj hdropped
      rw [← List.drop_drop, ← hxs', List.drop_one, List.tail_cons]
    · rename_i hlist
      exact absurd hdropped.symm (hlist _)

theorem Claimed.exhausted (h : Claimed bundle j bundle')
    (hnone : ∀ x otks, Dict.get bundle' "one_time_prekeys" ≠ .list (x :: otks)) :
    Claimed bundle (j + 1) bundle' ∧ (publishedPrekeys bundle).drop j = [] := by
  have hdropped := h.prekeys
  unfold publishedPrekeys
  split at hdropped
  · rename_i xs hxs
    have hnil : xs.drop j = [] := by
      cases hxs' : xs.drop j with
      | nil => rfl
      | cons x otks => exact absurd (hxs' ▸ hdropped) (hnone x otks)
    refine ⟨⟨h.same, ?_⟩, hnil⟩
    rw [hdropped, hxs]
    dsimp only
    rw [← List.drop_drop, hnil, List.drop_nil]
  · rename_i hlist
    refine ⟨⟨h.same, ?_⟩, List.drop_nil⟩
    rw [hdropped]
    split
    · rename_i xs hxs
      exact absurd hxs (hlist xs)
    · rfl

/-- A claim takes the next one-time prekey, and hands it out. -/
theorem consume_step (now : ℚ) (hs : s.prekeyBundles agentId = some stored) (h : Left entry j stored) :
    ∃ stored', (consumeOneTimePrekey now agentId s).1.prekeyBundles agentId = some stored' ∧
      Left entry (j + 1) stored' ∧
      (((consumeOneTimePrekey now agentId s).2).bind Prod.snd).toList =
        ((publishedPrekeys entry.bundle).drop j).take 1 := by
  unfold consumeOneTimePrekey
  rw [hs]
  dsimp only
  split
  · rename_i x otks hotks
    refine ⟨_, Function.update_self .., ⟨h.claimed.set hotks, h.publicKey, h.publicKeyAlgo,
      h.protocolVersion⟩, ?_⟩
    have hdropped := h.claimed.prekeys
    rw [hotks] at hdropped
    unfold publishedPrekeys
    split at hdropped
    · rename_i xs hxs
      rw [← PyVal.list.inj hdropped]
      rfl
    · rename_i hlist
      exact absurd hdropped.symm (hlist _)
  · rename_i hnone
    obtain ⟨hclaimed, hnil⟩ := h.claimed.exhausted fun x otks hx => hnone x otks hx
    refine ⟨stored, hs, ⟨hclaimed, h.publicKey, h.publicKeyAlgo, h.protocolVersion⟩, ?_⟩
    rw [hnil]
    rfl

/-- After claims, as many one-time prekeys are gone, and they were handed out in order. -/
theorem consumed_left (times : List ℚ) (hs : s.prekeyBundles agentId = some stored)
    (h : Left entry j stored) :
    ∃ stored', (consumed agentId s times).prekeyBundles agentId = some stored' ∧
      Left entry (j + times.length) stored' ∧
      handedOut agentId s times = ((publishedPrekeys entry.bundle).drop j).take times.length := by
  unfold consumed handedOut
  induction times generalizing s stored j with
  | nil => exact ⟨stored, hs, h, rfl⟩
  | cons now times ih =>
    obtain ⟨next, hnext, hleft, hout⟩ := consume_step now hs h
    obtain ⟨last, hlast, hlastLeft, hrest⟩ := ih hnext hleft
    refine ⟨last, hlast, ?_, ?_⟩
    · rw [List.length_cons, Nat.add_comm times.length, ← Nat.add_assoc]
      exact hlastLeft
    · rw [outputs, hout, hrest, List.length_cons, Nat.add_comm times.length, List.take_add,
        List.drop_drop]

/-! ## Validation -/

@[simp] theorem orDetail_eq_ok {α : Type} {detail : String} {x : Except String α} {a : α} :
    orDetail detail x = .ok a ↔ x = .ok a := by
  unfold orDetail
  split <;> simp

theorem validate_eq_ok {r : BundleRecord} : validateBundleRecord env now r = .ok () ↔
    ∃ signedAt, bundleSignedAt env r.bundle = .ok signedAt ∧ 0 < signedAt ∧
      (signedAt : ℚ) ≤ now + 299 ∧ strip (r.bundle.text env.relay.rt "bundle_signature") ≠ "" ∧
      r.publicKey ≠ "" ∧ ∃ att, toDict (Dict.get r.bundle "root_attestation") = .ok att ∧
      att ≠ [] ∧ verifyBundleSignature env r.bundle r.publicKey = .ok () ∧
      now - signedAt ≤ maxPrekeyBundleAge ∧
      (strip r.agentId = "" ∨ env.deriveNodeId r.publicKey = strip r.agentId) ∧
      verifyBundleRootAttestation env r = .ok () := by
  simp [validateBundleRecord]

theorem verifyBundleSignature_eq_ok {publicKey : String} :
    verifyBundleSignature env bundle publicKey = .ok () ↔
      ∃ text, bundleSignaturePayload env bundle = .ok text ∧
        env.verifyEd25519 publicKey (bundle.text env.relay.rt "bundle_signature") text = true := by
  unfold verifyBundleSignature
  cases bundleSignaturePayload env bundle with
  | error e => simp
  | ok text => simp

theorem bundleSignaturePayload_eq_ok {text : String} :
    bundleSignaturePayload env bundle = .ok text ↔ ∃ otks fields att binding,
      oneTimePrekeys bundle = .ok otks ∧ coreFields env bundle = .ok fields ∧
      toDict (Dict.get bundle "root_attestation") = .ok att ∧
      bundleRootAttestationBinding env att = .ok binding ∧
      text = (PyVal.dict (fields ++ ("one_time_prekey_hashes",
        .list ((otkHashes env otks).map .str)) ::
        if binding = [] then [] else [("root_attestation", .dict binding)])).asciiDumps
          env.relay.rt := by
  simp only [bundleSignaturePayload, bundleSignatureCorePayload, bind_eq_ok, pure_eq_ok]
  constructor
  · rintro ⟨_, ⟨otks, hotks, fields, hfields, rfl⟩, att, hatt, binding, hbinding, rfl⟩
    refine ⟨otks, fields, att, binding, hotks, hfields, hatt, hbinding, ?_⟩
    split <;> simp
  · rintro ⟨otks, fields, att, binding, hotks, hfields, hatt, hbinding, rfl⟩
    refine ⟨_, ⟨otks, hotks, fields, hfields, rfl⟩, att, hatt, binding, hbinding, ?_⟩
    split <;> simp

/-- The agent's signature holds after claims only if they left every one-time prekey. -/
theorem Claimed.verifyBundleSignature_iff (h : Claimed bundle j bundle') {publicKey : String}
    (hvalid : verifyBundleSignature env bundle publicKey = .ok ()) :
    verifyBundleSignature env bundle' publicKey = .ok () ↔
      j = 0 ∨ publishedPrekeys bundle = [] := by
  obtain ⟨text, htext, hverify⟩ := verifyBundleSignature_eq_ok.mp hvalid
  obtain ⟨otks, fields, att, binding, hotks, hfields, hatt, hbinding, rfl⟩ :=
    bundleSignaturePayload_eq_ok.mp htext
  have hsig : bundle'.text env.relay.rt "bundle_signature" =
      bundle.text env.relay.rt "bundle_signature" := by
    rw [Dict.text, Dict.text, h.same _ (by decide)]
  have htext' := bundleSignaturePayload_eq_ok.mpr ⟨_, fields, att, binding, h.oneTimePrekeys hotks,
    h.coreFields.trans hfields, (congrArg toDict (h.same _ (by decide) _)).trans hatt, hbinding, rfl⟩
  have hpublished := publishedPrekeys_eq hotks
  rw [verifyBundleSignature_eq_ok, hsig]
  constructor
  · rintro ⟨text, htext, hverify'⟩
    obtain rfl := Except.ok.inj (htext'.symm.trans htext)
    by_contra hleft
    simp only [hpublished, List.map_eq_nil_iff, not_or] at hleft
    have hwidth := asciiWidth_of_asciiDumps_eq (env.ed25519_ideal _ _ _ _ hverify hverify')
    exact absurd hwidth (hashWidth_drop_lt hleft.2 (Nat.pos_of_ne_zero hleft.1)).ne'
  · intro hleft
    refine ⟨_, htext', ?_⟩
    have hdrop : otks.drop j = otks := by
      rcases hleft with rfl | hnil
      · rfl
      · rw [hpublished, List.map_eq_nil_iff] at hnil
        rw [hnil, List.drop_nil]
    rw [hdrop]
    exact hverify

@[simp] theorem recordText_none (dflt : String) : recordText none dflt = dflt := by
  simp [recordText]

theorem recordText_eq {value dflt : String} :
    recordText (some value) dflt = dflt ↔ value = "" ∨ value = dflt := by
  unfold recordText
  rw [Option.getD_some]
  split <;> simp_all

theorem rootText_eq {nodeId : String} {sequence : Int} {payload : Dict} {text : String} :
    buildSignaturePayload env.relay.rt "dm_prekey_root_attestation" nodeId sequence payload = .ok text ↔
      text = String.intercalate "|" [Mesh.protocolVersion, networkId, "dm_prekey_root_attestation",
        nodeId, toString sequence, canonicalJson env.relay.rt payload] := by
  simp [buildSignaturePayload, normalizePayload, eq_comm]

theorem rootText_injective {a b c d e text text' : String}
    (h : String.intercalate "|" [a, b, c, d, e, text] =
      String.intercalate "|" [a, b, c, d, e, text']) : text = text' := by
  have hlist := congrArg String.toList h
  simp only [String.toList_intercalate, List.map_cons, List.map_nil, List.intercalate_cons_cons,
    List.intercalate_singleton, List.append_cancel_left_eq] at hlist
  exact String.ext hlist

/-- The root attests the registered record and no other: also the algorithm and the version. -/
theorem attested_iff {algo version : String} {publicKey : String}
    (hcore : bundleSignatureCorePayload env bundle' = bundleSignatureCorePayload env bundle)
    (h : Claimed bundle j bundle')
    (hvalid : verifyBundleRootAttestation env { bundle, publicKey, agentId } = .ok ()) :
    verifyBundleRootAttestation env
        { bundle := bundle', publicKey, agentId, publicKeyAlgo := some algo,
          protocolVersion := some version } = .ok () ↔
      (algo = "" ∨ algo = "Ed25519") ∧ (version = "" ∨ version = Mesh.protocolVersion) := by
  have hattestation : Dict.get bundle' "root_attestation" = Dict.get bundle "root_attestation" :=
    h.same _ (by decide) _
  have hmanifest : Dict.get bundle' "root_manifest" = Dict.get bundle "root_manifest" :=
    h.same _ (by decide) _
  simp only [verifyBundleRootAttestation, bundleRootAttestationPayload, bind_eq_ok, require_eq_ok,
    exists_const, pure_eq_ok, rootText_eq] at hvalid ⊢
  rw [h.verifyBundleRootDistribution, hattestation, hmanifest, hcore]
  obtain ⟨attestation, hatt, hne, root, hroot, att, hread, hcomplete, hversion, ⟨⟩, hchecked,
    payload, ⟨manifest, hman, core, hcoreOk, rfl⟩, text, rfl, hverify⟩ := hvalid
  constructor
  · rintro ⟨attestation', hatt', -, root', hroot', att', hread', -, -, -, -, payload',
      ⟨manifest', hman', core', hcoreOk', rfl⟩, text', rfl, hverify'⟩
    obtain rfl := Except.ok.inj (hatt.symm.trans hatt')
    obtain rfl := Except.ok.inj (hread.symm.trans hread')
    have hjson := rootText_injective (env.signature_ideal _ _ _ _ _ hverify' hverify)
    have halgo := mem_of_canonicalJson_eq env.floatTexts hjson
      (show ("public_key_algo", PyVal.str (recordText (some algo) "Ed25519")) ∈ _ by simp)
    have hver := mem_of_canonicalJson_eq env.floatTexts hjson
      (show ("protocol_version", PyVal.str (recordText (some version) Mesh.protocolVersion)) ∈ _
        by simp)
    simp only [List.mem_cons, Prod.mk.injEq, PyVal.str.injEq, List.not_mem_nil, or_false] at halgo hver
    constructor
    · exact recordText_eq.mp (by simpa using halgo)
    · exact recordText_eq.mp (by simpa using hver)
  · rintro ⟨halgo, hver⟩
    refine ⟨attestation, hatt, hne, root, hroot, att, hread, hcomplete, ?_, (), hchecked, _,
      ⟨manifest, hman, core, hcoreOk, rfl⟩, _, rfl, ?_⟩
    · rw [recordText_eq.mpr hver]
      exact hversion
    · rw [recordText_eq.mpr hver, recordText_eq.mpr halgo]
      exact hverify

/-! ## After a registration -/

variable {r : BundleRegistration} {t0 : ℚ} {result : Int × PrekeyTransparency}

/-- What an accepted registration stores, and that it was valid. -/
theorem registered (h : (registerPrekeyBundle (relayEnv env) t0 r s).2 = .ok result) :
    validateBundleRecord env t0
        { bundle := r.bundle, publicKey := r.publicKey, agentId := r.agentId } = .ok () ∧
      ∃ entry, (registerPrekeyBundle (relayEnv env) t0 r s).1.prekeyBundles r.agentId = some entry ∧
        entry.bundle = r.bundle ∧ entry.publicKey = r.publicKey ∧
        entry.publicKeyAlgo = r.publicKeyAlgo ∧ entry.protocolVersion = r.protocolVersion := by
  unfold registerPrekeyBundle at h ⊢
  split at h
  · cases h
  · rename_i hvalid
    refine ⟨hvalid, ?_⟩
    dsimp only at h ⊢
    split at h
    · cases h
    · rename_i hfresh
      rw [if_neg hfresh]
      exact ⟨_, Function.update_self .., rfl, rfl, rfl, rfl⟩

/-- A valid bundle of an agent that has none is accepted. -/
theorem registers_new (r : BundleRegistration) (hnew : s.prekeyBundles r.agentId = none)
    (hvalid : validateBundleRecord env t0
      { bundle := r.bundle, publicKey := r.publicKey, agentId := r.agentId } = .ok ()) :
    ∃ result, (registerPrekeyBundle (relayEnv env) t0 r s).2 = .ok result := by
  have hchecked : (relayEnv env).validateBundleRecord t0 r.bundle r.publicKey r.agentId = .ok () :=
    hvalid
  unfold registerPrekeyBundle
  rw [hchecked, hnew]
  exact ⟨_, rfl⟩

/-- After `j` claims the record is valid if all is left and no other algorithm or version is
named. -/
theorem Left.validate_iff (h : Left entry j stored) (hclock : t0 ≤ now)
    (hvalid : validateBundleRecord env t0
      { bundle := entry.bundle, publicKey := entry.publicKey, agentId } = .ok ())
    (hage : ∀ signedAt, bundleSignedAt env entry.bundle = .ok signedAt →
      now - signedAt ≤ maxPrekeyBundleAge) :
    validateBundleRecord env now (storedRecord agentId stored) = .ok () ↔
      (j = 0 ∨ publishedPrekeys entry.bundle = []) ∧
      (entry.publicKeyAlgo = "" ∨ entry.publicKeyAlgo = "Ed25519") ∧
      (entry.protocolVersion = "" ∨ entry.protocolVersion = Mesh.protocolVersion) := by
  obtain ⟨signedAt, hsigned, hpos, hfuture, hsig, hkey, att, hatt, hne, hverify, -, hbinding,
    hattested⟩ := validate_eq_ok.mp hvalid
  have hcore : (j = 0 ∨ publishedPrekeys entry.bundle = []) →
      bundleSignatureCorePayload env stored.bundle = bundleSignatureCorePayload env entry.bundle := by
    intro hleft
    obtain ⟨text, htext, -⟩ := verifyBundleSignature_eq_ok.mp hverify
    obtain ⟨otks, -, -, -, hotks, -⟩ := bundleSignaturePayload_eq_ok.mp htext
    have hdrop : otks.drop j = otks := by
      rcases hleft with rfl | hnil
      · rfl
      · rw [publishedPrekeys_eq hotks, List.map_eq_nil_iff] at hnil
        rw [hnil, List.drop_nil]
    rw [bundleSignatureCorePayload, bundleSignatureCorePayload, h.claimed.oneTimePrekeys hotks,
      hotks, hdrop, h.claimed.coreFields]
  have hrecord : storedRecord agentId stored = {
      bundle := stored.bundle, publicKey := entry.publicKey, agentId,
      publicKeyAlgo := some entry.publicKeyAlgo, protocolVersion := some entry.protocolVersion } := by
    rw [storedRecord, h.publicKey, h.publicKeyAlgo, h.protocolVersion]
  rw [hrecord, validate_eq_ok]
  constructor
  · rintro ⟨-, -, -, -, -, -, -, -, -, hverify', -, -, hattested'⟩
    have hleft := (h.claimed.verifyBundleSignature_iff hverify).mp hverify'
    exact ⟨hleft, (attested_iff (hcore hleft) h.claimed hattested).mp hattested'⟩
  · rintro ⟨hleft, hmeta⟩
    have htext : stored.bundle.text env.relay.rt "bundle_signature" =
        entry.bundle.text env.relay.rt "bundle_signature" := by
      rw [Dict.text, Dict.text, h.claimed.same _ (by decide)]
    refine ⟨signedAt, h.claimed.bundleSignedAt.trans hsigned, hpos, by linarith, htext ▸ hsig, hkey,
      att, (congrArg toDict (h.claimed.same _ (by decide) _)).trans hatt, hne,
      (h.claimed.verifyBundleSignature_iff hverify).mpr hleft, hage signedAt hsigned, hbinding,
      (attested_iff (hcore hleft) h.claimed hattested).mpr hmeta⟩

/-- A published bundle stays valid iff no one-time prekey was handed out and it names what is
attested. -/
theorem prekey_bundle_usable (times : List ℚ)
    (haccepted : (registerPrekeyBundle (relayEnv env) t0 r s).2 = .ok result) (hclock : t0 ≤ now)
    (hage : ∀ signedAt, bundleSignedAt env r.bundle = .ok signedAt →
      now - signedAt ≤ maxPrekeyBundleAge) :
    StaysUsable env r.agentId r.bundle (registerPrekeyBundle (relayEnv env) t0 r s).1 times now ↔
      (times = [] ∨ publishedPrekeys r.bundle = []) ∧
      (r.publicKeyAlgo = "" ∨ r.publicKeyAlgo = "Ed25519") ∧
      (r.protocolVersion = "" ∨ r.protocolVersion = Mesh.protocolVersion) := by
  obtain ⟨hvalid, entry, hentry, hbundle, hkey, halgo, hversion⟩ := registered haccepted
  obtain ⟨stored, hstored, hleft, hout⟩ := consumed_left times hentry
    (⟨Claimed.refl entry.bundle, rfl, rfl, rfl⟩ : Left entry 0 entry)
  have hiff : validateBundleRecord env now (storedRecord r.agentId stored) = .ok () ↔ _ :=
    hleft.validate_iff hclock (by rw [hbundle, hkey]; exact hvalid) (by rw [hbundle]; exact hage)
  rw [Nat.zero_add, List.length_eq_zero_iff, hbundle, halgo, hversion] at hiff
  rw [← hiff]
  constructor
  · rintro ⟨⟨stored', hstored', hvalid'⟩, -⟩
    obtain rfl := Option.some.inj (hstored.symm.trans hstored')
    exact hvalid'
  · intro hvalid'
    exact ⟨⟨stored, hstored, hvalid'⟩, by rw [hout, hbundle, List.drop_zero]⟩

end

/-! ## A bundle that can be computed -/

/-- An environment where nothing was signed. -/
def unsignedEnv : BundleEnv where
  relay := plainRelayEnv
  floatTexts := floatTexts_ascii
  verifyEd25519 _ _ _ := false
  ed25519_ideal _ _ _ _ h := absurd h Bool.false_ne_true
  verifySignature _ _ _ _ := false
  signature_ideal _ _ _ _ _ h := absurd h Bool.false_ne_true
  deriveNodeId key := "of-" ++ key
  verifyNodeBinding nodeId key := nodeId = "of-" ++ key
  manifestFingerprint _ := "fp"
  verifyRootManifest _ := .ok { fingerprint := "fp", rootNodeId := "of-root", rootPublicKey := "root" }
  verifyWitnessSet _ _ := .ok ()
  verifyTransparencyRecord _ _ _ := .ok ()

/-- A bundle of `of-ana` with two one-time prekeys. -/
def signedBundle : Dict :=
  [("identity_dh_pub_key", .str "dh"), ("signed_prekey_id", .int 1), ("signed_prekey_pub", .str "spk"),
    ("signed_at", .int 1000),
    ("one_time_prekeys", .list [.dict [("prekey_id", .int 1), ("public_key", .str "o1")],
      .dict [("prekey_id", .int 2), ("public_key", .str "o2")]]),
    ("root_manifest", .dict [("generation", .int 1)]),
    ("root_manifest_witnesses", .list [.dict [("witness", .int 1)]]),
    ("root_transparency_record", .dict [("record", .int 1)]),
    ("root_attestation", .dict [("root_node_id", .str "of-root"), ("root_public_key", .str "root"),
      ("root_manifest_fingerprint", .str "fp"), ("sequence", .int 1), ("signature", .str "r")]),
    ("bundle_signature", .str "s")]

/-- The texts that the agent and its root have signed. -/
def agentText : Except String String := bundleSignaturePayload unsignedEnv signedBundle

def rootText : Except String String := do
  let payload ← bundleRootAttestationPayload unsignedEnv
    { bundle := signedBundle, publicKey := "ana", agentId := "of-ana" }
  buildSignaturePayload asciiRuntime "dm_prekey_root_attestation" "of-root" 1 payload

/-- The environment where these two texts were signed. -/
def plainBundleEnv : BundleEnv :=
  { unsignedEnv with
    verifyEd25519 := fun key sig text => key = "ana" ∧ sig = "s" ∧ agentText.toOption = some text
    ed25519_ideal := fun _ _ text text' h h' => by
      have htext := (of_decide_eq_true h).2.2
      exact Option.some.inj (htext.symm.trans (of_decide_eq_true h').2.2)
    verifySignature := fun key _ sig text => key = "root" ∧ sig = "r" ∧ rootText.toOption = some text
    signature_ideal := fun _ _ _ text text' h h' => by
      have htext := (of_decide_eq_true h).2.2
      exact Option.some.inj (htext.symm.trans (of_decide_eq_true h').2.2) }

def signedRegistration : BundleRegistration where
  agentId := "of-ana"
  bundle := signedBundle
  publicKey := "ana"
  publicKeyAlgo := "Ed25519"
  protocolVersion := "infonet/2"
  sequence := 1

theorem plainBundleEnv_agent (key sig text : String) :
    plainBundleEnv.verifyEd25519 key sig text = true ↔
      key = "ana" ∧ sig = "s" ∧ agentText.toOption = some text := decide_eq_true_iff

theorem plainBundleEnv_root (key algo sig text : String) :
    plainBundleEnv.verifySignature key algo sig text = true ↔
      key = "root" ∧ sig = "r" ∧ rootText.toOption = some text := decide_eq_true_iff

theorem bundleSignaturePayload_congr {env env' : BundleEnv} (h : env.relay = env'.relay)
    (bundle : Dict) : bundleSignaturePayload env bundle = bundleSignaturePayload env' bundle := by
  have hhash : otkHash env = otkHash env' := funext fun item => by rw [otkHash, otkHash, h]
  simp only [bundleSignaturePayload, bundleSignatureCorePayload, coreFields,
    bundleRootAttestationBinding, otkHashes, hhash, h]

theorem signed_verified : verifyBundleSignature plainBundleEnv signedBundle "ana" = .ok () := by
  have hok : okAnd agentText (fun _ => true) = true := by decide +kernel
  obtain ⟨text, htext, -⟩ := okAnd_iff.mp hok
  refine verifyBundleSignature_eq_ok.mpr
    ⟨text, (bundleSignaturePayload_congr rfl signedBundle).trans htext, ?_⟩
  have hsig : signedBundle.text plainBundleEnv.relay.rt "bundle_signature" = "s" := by decide +kernel
  rw [hsig]
  rw [plainBundleEnv_agent, htext]
  exact ⟨rfl, rfl, rfl⟩

theorem signed_attested : verifyBundleRootAttestation plainBundleEnv
    { bundle := signedBundle, publicKey := "ana", agentId := "of-ana" } = .ok () := by
  have hok : okAnd rootText (fun _ => true) = true := by decide +kernel
  obtain ⟨text, htext, -⟩ := okAnd_iff.mp hok
  obtain ⟨payload, hpayload, hbuilt⟩ := bind_eq_ok.mp htext
  have hattestation : okAnd (toDict (Dict.get signedBundle "root_attestation")) (fun att =>
      !att.isEmpty && okAnd (readAttestation plainBundleEnv att) fun read =>
        read.rootNodeId == "of-root" && read.rootPublicKey == "root" && read.signature == "r" &&
          read.rootManifestFingerprint == "fp" && read.sequence == 1 &&
          read.protocolVersion == strip Mesh.protocolVersion &&
          okAnd (verifyBundleRootDistribution plainBundleEnv signedBundle) (fun root =>
            okAnd (checkAttestedRoot plainBundleEnv read root) fun _ => true)) = true := by
    decide +kernel
  simp only [okAnd_iff, Bool.and_eq_true, beq_iff_eq, Bool.not_eq_true', List.isEmpty_eq_false_iff]
    at hattestation
  obtain ⟨att, hatt, hne, read, hread, ⟨⟨⟨⟨⟨hnode, hkey⟩, hsig⟩, hfp⟩, hseq⟩, hversion⟩, root, hroot,
    checked, hchecked, -⟩ := hattestation
  simp only [verifyBundleRootAttestation, bind_eq_ok, require_eq_ok, exists_const]
  refine ⟨att, hatt, hne, root, hroot, read, hread, ?_, ?_, checked, hchecked, payload, hpayload, text,
    ?_, ?_⟩
  · rw [hnode, hkey, hfp, hseq, hsig]
    decide
  · rw [hversion, recordText_none]
  · rw [hnode, hseq]
    exact hbuilt
  · rw [hkey, hsig]
    rw [plainBundleEnv_root, htext]
    exact ⟨rfl, rfl, rfl⟩

theorem signed_accepted : ∃ result,
    (registerPrekeyBundle (relayEnv plainBundleEnv) 1000 signedRegistration {}).2 = .ok result := by
  have hvalid : validateBundleRecord plainBundleEnv 1000
      { bundle := signedBundle, publicKey := "ana", agentId := "of-ana" } = .ok () := by
    have hparts : okAnd (toDict (Dict.get signedBundle "root_attestation")) (fun att =>
        !att.isEmpty && decide (bundleSignedAt plainBundleEnv signedBundle = .ok 1000) &&
          decide (strip (signedBundle.text plainBundleEnv.relay.rt "bundle_signature") ≠ "")) = true := by
      decide +kernel
    simp only [okAnd_iff, Bool.and_eq_true, Bool.not_eq_true', List.isEmpty_eq_false_iff,
      decide_eq_true_eq] at hparts
    obtain ⟨att, hatt, ⟨hne, hsigned⟩, hsig⟩ := hparts
    exact validate_eq_ok.mpr ⟨1000, hsigned, by norm_num, by norm_num, hsig, by decide, att, hatt, hne,
      signed_verified, by norm_num [maxPrekeyBundleAge], .inr (by decide +kernel), signed_attested⟩
  exact registers_new signedRegistration rfl hvalid

theorem signed_at (now : ℚ) (h : now ≤ 2000) :
    ∀ signedAt, bundleSignedAt plainBundleEnv signedRegistration.bundle = .ok signedAt →
      now - signedAt ≤ maxPrekeyBundleAge := by
  intro signedAt hsigned
  have hvalue : bundleSignedAt plainBundleEnv signedRegistration.bundle = .ok 1000 := by
    decide +kernel
  obtain rfl := Except.ok.inj (hvalue.symm.trans hsigned)
  norm_num [maxPrekeyBundleAge]
  linarith

/-- With no one-time prekey handed out, the bundle is valid a minute later. -/
theorem prekey_bundle_usable_sample :
    StaysUsable plainBundleEnv "of-ana" signedBundle
      (registerPrekeyBundle (relayEnv plainBundleEnv) 1000 signedRegistration {}).1 [] 1060 := by
  obtain ⟨result, haccepted⟩ := signed_accepted
  exact (prekey_bundle_usable [] haccepted (by norm_num) (signed_at 1060 (by norm_num))).mpr
    ⟨.inl rfl, .inr rfl, .inr rfl⟩

/-- A bundle with two one-time prekeys is no longer valid once one of them was handed out. -/
theorem not_prekey_bundle_usable :
    ¬ ∀ (env : BundleEnv) (r : BundleRegistration) (s : Relay) (t0 now : ℚ) (times : List ℚ)
        (result : Int × PrekeyTransparency),
      (registerPrekeyBundle (relayEnv env) t0 r s).2 = .ok result → t0 ≤ now →
      (∀ signedAt, bundleSignedAt env r.bundle = .ok signedAt →
        now - signedAt ≤ maxPrekeyBundleAge) →
      StaysUsable env r.agentId r.bundle (registerPrekeyBundle (relayEnv env) t0 r s).1 times now := by
  intro h
  obtain ⟨result, haccepted⟩ := signed_accepted
  obtain ⟨⟨stored, hstored, hvalid⟩, -⟩ := h plainBundleEnv signedRegistration {} 1000 1060 [1030]
    result haccepted (by norm_num) (signed_at 1060 (by norm_num))
  obtain ⟨hregistered, entry, hentry, hbundle, hkey, -, -⟩ := registered haccepted
  obtain ⟨stored', hstored', hleft, -⟩ := consumed_left [1030] hentry
    (⟨Claimed.refl entry.bundle, rfl, rfl, rfl⟩ : Left entry 0 entry)
  obtain rfl := Option.some.inj (hstored.symm.trans hstored')
  have hclock : (1000 : ℚ) ≤ 1060 := by norm_num
  have hiff : validateBundleRecord plainBundleEnv 1060 (storedRecord "of-ana" stored) = .ok () ↔ _ :=
    hleft.validate_iff hclock (by rw [hbundle, hkey]; exact hregistered)
      (by rw [hbundle]; exact signed_at 1060 (by norm_num))
  have hused := (hiff.mp hvalid).1
  rw [hbundle] at hused
  rcases hused with hnone | hempty
  · cases hnone
  · revert hempty
    change ¬ publishedPrekeys signedBundle = []
    exact List.cons_ne_nil _ _

end Vincent.Prekey
