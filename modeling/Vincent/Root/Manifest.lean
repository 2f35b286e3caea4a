-- SUMMARY: Stable root manifests and their witness receipts.
import Vincent.Prekey.Bundle

/-!
# Root manifests

A root key signs a manifest, which names its generation and a policy of witness
keys. A witness signs a receipt for a manifest by its fingerprint. A witness set
is final once enough of the listed witnesses have signed.
-/

namespace Vincent.Root

open Vincent.Python Vincent.Check Vincent.Mesh
open Vincent.Prekey (textOr toDict)

/-- What manifests are verified in. Keys are texts in base64, which stand for bytes. -/
structure RootEnv where
  rt : Runtime
  /-- `hashlib.sha256(s.encode("utf-8")).hexdigest()`. -/
  sha256 : String → String
  sha256_lower : ∀ s, rt.lower (strip (sha256 s)) = sha256 s
  sha256_ne : ∀ s, sha256 s ≠ ""
  /-- `base64.b64decode`, or `none` where it raises. -/
  b64decode : String → Option (List UInt8)
  /-- The digest of a key, in hex. -/
  keyDigest : List UInt8 → String
  legacyNodeIdCompatBlocked : Bool
  /-- The signature of a text under a raw key and an algorithm. -/
  verifyRaw : List UInt8 → String → String → String → Bool

/-- How a check of a manifest ends badly: it rejects with a detail, or raises. -/
inductive Failure where
  | rejected (detail : String)
  | raised (error : String)
deriving DecidableEq

abbrev Checked (α : Type) := Except Failure α

/-- A computation that may raise, within a check. -/
def raising {α : Type} (x : Except String α) : Checked α := orFail x .raised

def demand (c : Prop) [Decidable c] (detail : String) : Checked Unit := require c (.rejected detail)

def rootManifestEventType : String := "stable_dm_root_manifest"
def rootWitnessEventType : String := "stable_dm_root_manifest_witness"
def previousRootEventType : String := "stable_dm_root_manifest_previous_root"
def policyChangeEventType : String := "stable_dm_root_manifest_policy_change"
def witnessPolicyType : String := "stable_dm_root_manifest_witness_policy"

section Model

variable (env : RootEnv)

/-- `_stable_json`, hashed. -/
def stableHash (v : PyVal) : String := env.sha256 (v.asciiDumps env.rt)

/-- `str(d.get(k, "") or "").strip()`. -/
def stripped (d : Dict) (k : String) : String := strip (Dict.text env.rt d k)

/-- `str(d.get(k, "") or "").strip().lower()`. -/
def lowered (d : Dict) (k : String) : String := env.rt.lower (stripped env d k)

/-- `_safe_int(d.get(k, 0) or 0, 0)`. -/
def intOf (d : Dict) (k : String) (dflt : Int := 0) : Except String Int :=
  safeInt env.rt ((Dict.get d k (.int dflt)).or (.int dflt)) dflt

/-- `dict(d.get(k) or {})`. -/
def dictAt (d : Dict) (k : String) : Except String Dict := toDict ((Dict.get d k).or (.dict []))

/-- The objects in `list(d.get(k) or [])`. -/
def dictsAt (d : Dict) (k : String) : Except String (List Dict) :=
  match (Dict.get d k).or (.list []) with
  | .list xs => .ok (xs.filterMap fun | .dict item => some item | _ => none)
  | .dict _ | .str _ => .ok []
  | _ => .error "TypeError"

/-! ## Keys -/

/-- `verify_node_binding`: the id is the current one of the key, or the legacy one. -/
def verifyNodeBinding (nodeId publicKey : String) : Bool :=
  match env.b64decode publicKey with
  | none => false
  | some raw =>
    let digest := env.keyDigest raw
    strip nodeId = "!sb_" ++ slice digest 32 ∨
      (strip nodeId = "!sb_" ++ slice digest 16 ∧ env.legacyNodeIdCompatBlocked = false)

def verifySignature (publicKey publicKeyAlgo signature text : String) : Bool :=
  match env.b64decode publicKey with
  | none => false
  | some raw => env.verifyRaw raw (parsePublicKeyAlgo env.rt publicKeyAlgo) signature text

/-! ## Witness policies -/

/-- `_normalize_witness_management_scope`. -/
def normalizeManagementScope (value : PyVal) : String :=
  if env.rt.lower (strip ((value.or (.str "")).toStr env.rt)) = "external" then "external" else "local"

/-- `_normalize_witness_independence_group`. -/
def normalizeIndependenceGroup (value : PyVal) (managementScope : String) : String :=
  let normalized := env.rt.lower (strip ((value.or (.str "")).toStr env.rt))
  if normalized ≠ "" then normalized
  else if managementScope = "local" then "local_system" else "external_unknown"

/-- A witness as a policy lists it. -/
structure Descriptor where
  scope : String
  label : String
  nodeId : String
  publicKey : String
  publicKeyAlgo : String
  managementScope : String
  independenceGroup : String

def publicWitnessDescriptor (item : Dict) : Descriptor :=
  let scope := normalizeManagementScope env (Dict.get item "management_scope")
  { scope := textOr env.rt item "scope" "root_witness"
    label := textOr env.rt item "label" "root-witness"
    nodeId := stripped env item "node_id"
    publicKey := stripped env item "public_key"
    publicKeyAlgo := textOr env.rt item "public_key_algo" "Ed25519"
    managementScope := scope
    independenceGroup := normalizeIndependenceGroup env (Dict.get item "independence_group") scope }

def Descriptor.key (d : Descriptor) : String × String := (d.nodeId, d.publicKey)

def Descriptor.toDict (d : Descriptor) : Dict :=
  [("scope", .str d.scope), ("label", .str d.label), ("node_id", .str d.nodeId),
    ("public_key", .str d.publicKey), ("public_key_algo", .str d.publicKeyAlgo),
    ("management_scope", .str d.managementScope), ("independence_group", .str d.independenceGroup)]

/-- A policy that was verified, with its witnesses in order. -/
structure WitnessPolicy where
  policyVersion : Int
  threshold : Int
  witnesses : List Descriptor

/-- The canonical form of a witness in `witness_policy_fingerprint`. -/
def canonicalWitness (item : Dict) : Dict :=
  { publicWitnessDescriptor env item with label := Dict.text env.rt item "label" }.toDict

def witnessPolicyFingerprint (policy : Dict) : Except String String := do
  let witnesses ← dictsAt policy "witnesses"
  return stableHash env (.dict [
    ("type", .str (textOr env.rt policy "type" witnessPolicyType)),
    ("policy_version", .int (← intOf env policy "policy_version" 1)),
    ("threshold", .int (← intOf env policy "threshold")),
    ("witnesses", .list (witnesses.map fun item => .dict (canonicalWitness env item)))])

def WitnessPolicy.toDict (p : WitnessPolicy) : Dict :=
  [("type", .str witnessPolicyType), ("policy_version", .int p.policyVersion),
    ("threshold", .int p.threshold), ("witnesses", .list (p.witnesses.map fun d => .dict d.toDict))]

local instance witnessKeyLawful : LawfulBEq (String × String) := inferInstance

/-- The witnesses of a policy, each complete, bound to its key, and listed once. -/
def checkWitnesses : List Dict → List Descriptor → Checked (List Descriptor)
  | [], kept => .ok kept
  | item :: items, kept => do
    let d := publicWitnessDescriptor env item
    demand (d.nodeId ≠ "" ∧ d.publicKey ≠ "") "stable root manifest witness policy witness incomplete"
    demand (verifyNodeBinding env d.nodeId d.publicKey)
      "stable root manifest witness policy witness binding invalid"
    demand (d.independenceGroup ≠ "")
      "stable root manifest witness policy witness independence group invalid"
    demand (d.key ∉ kept.map Descriptor.key) "stable root manifest witness policy witness duplicated"
    checkWitnesses items (kept ++ [d])

def verifyWitnessPolicy (policy : Dict) : Checked WitnessPolicy := do
  demand (textOr env.rt policy "type" witnessPolicyType = witnessPolicyType)
    "stable root manifest witness policy type invalid"
  let policyVersion ← raising (intOf env policy "policy_version")
  demand (0 < policyVersion) "stable root manifest witness policy version required"
  let witnesses ← checkWitnesses env (← raising (dictsAt policy "witnesses")) []
  demand (witnesses ≠ []) "stable root manifest witness policy witnesses required"
  let threshold ← raising (intOf env policy "threshold")
  demand (0 < threshold ∧ threshold ≤ witnesses.length)
    "stable root manifest witness policy threshold invalid"
  return {
    policyVersion := policyVersion
    threshold := threshold
    witnesses := witnesses.insertionSort fun a b =>
      a.nodeId < b.nodeId ∨ (a.nodeId = b.nodeId ∧ a.publicKey ≤ b.publicKey) }

/-! ## Manifests -/

/-- `root_identity_fingerprint_for_material`. -/
def rootIdentityFingerprint (nodeId publicKey publicKeyAlgo protocolVersion : String) : String :=
  stableHash env (.dict [("root_node_id", .str (strip nodeId)), ("root_public_key", .str (strip publicKey)),
    ("root_public_key_algo", .str (if publicKeyAlgo = "" then "Ed25519" else publicKeyAlgo)),
    ("protocol_version",
      .str (if protocolVersion = "" then Mesh.protocolVersion else protocolVersion))])

/-- The canonical form of an envelope in `manifest_fingerprint_for_envelope`. -/
def canonicalManifest (manifest : Dict) : Except String Dict := do
  let sequence ← intOf env manifest "sequence"
  let payload ← dictAt manifest "payload"
  return [("type", .str (textOr env.rt manifest "type" rootManifestEventType)),
    ("event_type", .str (textOr env.rt manifest "event_type" rootManifestEventType)),
    ("node_id", .str (stripped env manifest "node_id")),
    ("public_key", .str (stripped env manifest "public_key")),
    ("public_key_algo", .str (textOr env.rt manifest "public_key_algo" "Ed25519")),
    ("protocol_version", .str (textOr env.rt manifest "protocol_version" Mesh.protocolVersion)),
    ("sequence", .int sequence), ("payload", .dict payload),
    ("signature", .str (stripped env manifest "signature"))]

/-- `manifest_fingerprint_for_envelope`. -/
def manifestFingerprint (manifest : Dict) : Except String String := do
  return stableHash env (.dict (← canonicalManifest env manifest))

def previousRootCrossPayload (payload : Dict) : Except String Dict := do
  let rt := env.rt
  return [("manifest_type", .str rootManifestEventType),
    ("manifest_event_type", .str rootManifestEventType),
    ("root_node_id", .str (stripped env payload "root_node_id")),
    ("root_public_key", .str (stripped env payload "root_public_key")),
    ("root_public_key_algo", .str (strip (textOr rt payload "root_public_key_algo" "Ed25519"))),
    ("root_fingerprint", .str (lowered env payload "root_fingerprint")),
    ("protocol_version", .str (strip (textOr rt payload "protocol_version" Mesh.protocolVersion))),
    ("generation", .int (← intOf env payload "generation")),
    ("issued_at", .int (← intOf env payload "issued_at")),
    ("expires_at", .int (← intOf env payload "expires_at")),
    ("previous_root_fingerprint", .str (lowered env payload "previous_root_fingerprint")),
    ("policy_version", .int (← intOf env payload "policy_version" 1))]

/-- `witness_policy_fingerprint(policy) if policy else ""`. -/
def policyFingerprintOrEmpty (policy : Dict) : Except String String :=
  if policy = [] then .ok "" else witnessPolicyFingerprint env policy

/-- `_previous_witness_policy_change_payload`. -/
def policyChangePayload (payload : Dict) : Except String Dict := do
  let rt := env.rt
  let policy ← dictAt payload "witness_policy"
  return [("manifest_type", .str rootManifestEventType),
    ("manifest_event_type", .str rootManifestEventType),
    ("root_node_id", .str (stripped env payload "root_node_id")),
    ("root_public_key", .str (stripped env payload "root_public_key")),
    ("root_public_key_algo", .str (strip (textOr rt payload "root_public_key_algo" "Ed25519"))),
    ("root_fingerprint", .str (lowered env payload "root_fingerprint")),
    ("protocol_version", .str (strip (textOr rt payload "protocol_version" Mesh.protocolVersion))),
    ("generation", .int (← intOf env payload "generation")),
    ("issued_at", .int (← intOf env payload "issued_at")),
    ("expires_at", .int (← intOf env payload "expires_at")),
    ("policy_version", .int (← intOf env payload "policy_version" 1)),
    ("witness_policy_fingerprint", .str (← policyFingerprintOrEmpty env policy)),
    ("previous_witness_policy_fingerprint",
      .str (lowered env payload "previous_witness_policy_fingerprint"))]

/-- What `verify_root_manifest` returns of a manifest that it accepts, as far as it is read. -/
structure ManifestView where
  manifestFingerprint : String
  rootFingerprint : String
  rootNodeId : String
  rootPublicKey : String
  rootPublicKeyAlgo : String
  generation : Int
  policy : WitnessPolicy
  policyFingerprint : String
  rotationProven : Bool
  policyChangeProven : Bool
  previousRootFingerprint : String
  previousPolicyFingerprint : String

/-- The proof that the previous root signed the change to this one. -/
def checkRotation (payload : Dict) (protocolVersion : String) (generation : Int) : Checked Bool :=
  if generation ≤ 1 then .ok true
  else do
    let fingerprint := lowered env payload "previous_root_fingerprint"
    let nodeId := stripped env payload "previous_root_node_id"
    let publicKey := stripped env payload "previous_root_public_key"
    let algo := strip (textOr env.rt payload "previous_root_public_key_algo" "Ed25519")
    let version := strip (textOr env.rt payload "previous_root_protocol_version" protocolVersion)
    let sequence ← raising (intOf env payload "previous_root_cross_sequence")
    let signature := stripped env payload "previous_root_cross_signature"
    demand (fingerprint ≠ "") "stable root manifest previous root required"
    onlyIf (nodeId ≠ "" ∨ publicKey ≠ "") (do
      demand (nodeId ≠ "" ∧ publicKey ≠ "") "stable root manifest previous root proof incomplete"
      demand (verifyNodeBinding env nodeId publicKey)
        "stable root manifest previous root binding invalid"
      demand (rootIdentityFingerprint env nodeId publicKey algo version = fingerprint)
        "stable root manifest previous root fingerprint mismatch")
    if 0 < sequence ∨ signature ≠ "" then
      demand (nodeId ≠ "" ∧ publicKey ≠ "" ∧ 0 < sequence ∧ signature ≠ "")
        "stable root manifest previous root proof incomplete"
      let text ← raising (buildSignaturePayload env.rt previousRootEventType nodeId sequence
        (← raising (previousRootCrossPayload env payload)))
      demand (verifySignature env publicKey algo signature text)
        "stable root manifest previous root proof invalid"
      return true
    else return false

/-- The proof that the root signed the change of its witness policy. -/
def checkPolicyChange (payload : Dict) (nodeId publicKey publicKeyAlgo policyFingerprint : String) :
    Checked Bool := do
  let previous := lowered env payload "previous_witness_policy_fingerprint"
  let sequence ← raising (intOf env payload "previous_witness_policy_sequence")
  let signature := stripped env payload "previous_witness_policy_signature"
  if previous ≠ "" then
    demand (previous ≠ policyFingerprint)
      "stable root manifest previous witness policy fingerprint invalid"
    if 0 < sequence ∨ signature ≠ "" then
      demand (0 < sequence ∧ signature ≠ "")
        "stable root manifest witness policy change proof incomplete"
      let text ← raising (buildSignaturePayload env.rt policyChangeEventType nodeId sequence
        (← raising (policyChangePayload env payload)))
      demand (verifySignature env publicKey publicKeyAlgo signature text)
        "stable root manifest witness policy change proof invalid"
      return true
    else return false
  else
    demand (sequence ≤ 0 ∧ signature = "")
      "stable root manifest witness policy change proof invalid"
    return true

def verifyRootManifest (manifest : Dict) : Checked ManifestView := do
  let rt := env.rt
  demand (textOr rt manifest "type" rootManifestEventType = rootManifestEventType)
    "stable root manifest type invalid"
  demand (stripped env manifest "event_type" = rootManifestEventType)
    "stable root manifest event_type invalid"
  let nodeId := stripped env manifest "node_id"
  let publicKey := stripped env manifest "public_key"
  let publicKeyAlgo := textOr rt manifest "public_key_algo" "Ed25519"
  let protocolVersion := textOr rt manifest "protocol_version" Mesh.protocolVersion
  let sequence ← raising (intOf env manifest "sequence")
  let signature := stripped env manifest "signature"
  let payload ← raising (dictAt manifest "payload")
  demand (nodeId ≠ "" ∧ publicKey ≠ "" ∧ 0 < sequence ∧ signature ≠ "")
    "stable root manifest incomplete"
  demand (protocolVersion = textOr rt payload "protocol_version" Mesh.protocolVersion)
    "stable root manifest protocol mismatch"
  demand (nodeId = stripped env payload "root_node_id") "stable root manifest signer mismatch"
  demand (publicKey = stripped env payload "root_public_key") "stable root manifest signer mismatch"
  demand (publicKeyAlgo = textOr rt payload "root_public_key_algo" "Ed25519")
    "stable root manifest signer mismatch"
  let generation ← raising (intOf env payload "generation")
  demand (0 < generation) "stable root manifest generation required"
  let issuedAt ← raising (intOf env payload "issued_at")
  demand (0 < issuedAt) "stable root manifest issued_at required"
  demand (issuedAt < (← raising (intOf env payload "expires_at")))
    "stable root manifest expires_at invalid"
  demand (verifyNodeBinding env nodeId publicKey) "stable root manifest node binding invalid"
  let text ← raising (buildSignaturePayload rt rootManifestEventType nodeId sequence payload)
  demand (verifySignature env publicKey publicKeyAlgo signature text) "stable root manifest invalid"
  let policy ← verifyWitnessPolicy env (← raising (dictAt payload "witness_policy"))
  demand ((← raising (intOf env payload "policy_version" 1)) = policy.policyVersion)
    "stable root manifest witness policy version mismatch"
  let rootFingerprint := rootIdentityFingerprint env nodeId publicKey publicKeyAlgo protocolVersion
  let named := lowered env payload "root_fingerprint"
  demand (named = "" ∨ named = rootFingerprint) "stable root manifest fingerprint mismatch"
  let policyFingerprint ← raising (witnessPolicyFingerprint env policy.toDict)
  let rotationProven ← checkRotation env payload protocolVersion generation
  let policyChangeProven ← checkPolicyChange env payload nodeId publicKey publicKeyAlgo
    (rt.lower (strip policyFingerprint))
  return {
    manifestFingerprint := ← raising (manifestFingerprint env manifest)
    rootFingerprint := rootFingerprint
    rootNodeId := nodeId
    rootPublicKey := publicKey
    rootPublicKeyAlgo := publicKeyAlgo
    generation := generation
    policy := policy
    policyFingerprint := rt.lower (strip policyFingerprint)
    rotationProven := rotationProven
    policyChangeProven := policyChangeProven
    previousRootFingerprint := lowered env payload "previous_root_fingerprint"
    previousPolicyFingerprint := lowered env payload "previous_witness_policy_fingerprint" }

/-! ## Witness receipts -/

def witnessPayload (manifest : Dict) : Except String Dict := do
  let payload ← dictAt manifest "payload"
  let policy ← dictAt payload "witness_policy"
  return [("manifest_type", .str (textOr env.rt manifest "type" rootManifestEventType)),
    ("manifest_event_type", .str (textOr env.rt manifest "event_type" rootManifestEventType)),
    ("manifest_fingerprint", .str (← manifestFingerprint env manifest)),
    ("root_fingerprint", .str (lowered env payload "root_fingerprint")),
    ("root_node_id", .str (stripped env payload "root_node_id")),
    ("generation", .int (← intOf env payload "generation")),
    ("issued_at", .int (← intOf env payload "issued_at")),
    ("expires_at", .int (← intOf env payload "expires_at")),
    ("policy_version", .int (← intOf env payload "policy_version" 1)),
    ("witness_policy_fingerprint", .str (← policyFingerprintOrEmpty env policy)),
    ("witness_threshold", .int (← intOf env policy "threshold"))]

/-- What `verify_root_manifest_witness` returns of a receipt that it accepts. -/
structure WitnessView where
  manifestFingerprint : String
  rootFingerprint : String
  nodeId : String
  publicKey : String
  publicKeyAlgo : String
  generation : Int
  issuedAt : Int
  expiresAt : Int
  policyVersion : Int
  policyFingerprint : String
  threshold : Int
  managementScope : String
  independenceGroup : String
  rotationProven : Bool
  policyChangeProven : Bool
  previousRootFingerprint : String
  previousPolicyFingerprint : String

def WitnessView.key (v : WitnessView) : String × String := (v.nodeId, v.publicKey)

/-- The result as the object that goes into `validated_witnesses`. -/
def WitnessView.toDict (v : WitnessView) : Dict :=
  [("ok", .bool true), ("manifest_fingerprint", .str v.manifestFingerprint),
    ("root_fingerprint", .str v.rootFingerprint), ("witness_node_id", .str v.nodeId),
    ("witness_public_key", .str v.publicKey), ("witness_public_key_algo", .str v.publicKeyAlgo),
    ("generation", .int v.generation), ("issued_at", .int v.issuedAt),
    ("expires_at", .int v.expiresAt), ("policy_version", .int v.policyVersion),
    ("witness_policy_fingerprint", .str v.policyFingerprint), ("witness_threshold", .int v.threshold),
    ("witness_management_scope", .str v.managementScope),
    ("witness_independence_group", .str v.independenceGroup),
    ("rotation_proven", .bool v.rotationProven), ("policy_change_proven", .bool v.policyChangeProven),
    ("previous_root_fingerprint", .str v.previousRootFingerprint),
    ("previous_witness_policy_fingerprint", .str v.previousPolicyFingerprint)]

/-- The witness that a policy lists under a node id and a key. -/
def allowedWitness (policy : WitnessPolicy) (key : String × String) : Checked Descriptor :=
  match policy.witnesses.reverse.find? fun d => d.key = key with
  | some matched => .ok matched
  | none => .error (.rejected "stable root manifest witness not allowed by policy")

def verifyRootManifestWitness (manifest witness : Dict) : Checked WitnessView := do
  let rt := env.rt
  let view ← verifyRootManifest env manifest
  demand (textOr rt witness "type" rootWitnessEventType = rootWitnessEventType)
    "stable root manifest witness type invalid"
  demand (stripped env witness "event_type" = rootWitnessEventType)
    "stable root manifest witness event_type invalid"
  let nodeId := stripped env witness "node_id"
  let publicKey := stripped env witness "public_key"
  let publicKeyAlgo := textOr rt witness "public_key_algo" "Ed25519"
  let sequence ← raising (intOf env witness "sequence")
  let signature := stripped env witness "signature"
  let payload ← raising (dictAt witness "payload")
  let expected ← raising (witnessPayload env manifest)
  demand (nodeId ≠ "" ∧ publicKey ≠ "" ∧ 0 < sequence ∧ signature ≠ "")
    "stable root manifest witness incomplete"
  demand (Dict.eq payload expected) "stable root manifest witness payload mismatch"
  let matched ← allowedWitness view.policy (nodeId, publicKey)
  demand (verifyNodeBinding env nodeId publicKey)
    "stable root manifest witness node binding invalid"
  let text ← raising (buildSignaturePayload rt rootWitnessEventType nodeId sequence expected)
  demand (verifySignature env publicKey publicKeyAlgo signature text)
    "stable root manifest witness invalid"
  let scope := normalizeManagementScope env (.str matched.managementScope)
  return {
    manifestFingerprint := lowered env expected "manifest_fingerprint"
    rootFingerprint := lowered env expected "root_fingerprint"
    nodeId := nodeId
    publicKey := publicKey
    publicKeyAlgo := publicKeyAlgo
    generation := ← raising (intOf env expected "generation")
    issuedAt := ← raising (intOf env expected "issued_at")
    expiresAt := ← raising (intOf env expected "expires_at")
    policyVersion := ← raising (intOf env expected "policy_version" 1)
    policyFingerprint := lowered env expected "witness_policy_fingerprint"
    threshold := ← raising (intOf env expected "witness_threshold")
    managementScope := scope
    independenceGroup := normalizeIndependenceGroup env (.str matched.independenceGroup) scope
    rotationProven := view.rotationProven
    policyChangeProven := view.policyChangeProven
    previousRootFingerprint := env.rt.lower (strip view.previousRootFingerprint)
    previousPolicyFingerprint := env.rt.lower (strip view.previousPolicyFingerprint) }

/-- What `verify_root_manifest_witness_set` returns of a set that it accepts. -/
structure WitnessSetView where
  manifest : ManifestView
  /-- The receipts that count, each with what was verified of it. -/
  validated : List (Dict × WitnessView)
  domainCount : Nat
  independentQuorumMet : Bool
  finalityMet : Bool

/-- The receipts that count: the first one of each listed witness. -/
def validatedWitnesses (manifest : Dict) : List Dict → List (Dict × WitnessView) →
    Checked (List (Dict × WitnessView))
  | [], kept => .ok kept
  | witness :: witnesses, kept =>
    match verifyRootManifestWitness env manifest witness with
    | .error (.rejected _) => validatedWitnesses manifest witnesses kept
    | .error (.raised e) => .error (.raised e)
    | .ok view =>
      if view.key ∈ kept.map fun counted => counted.2.key then
        validatedWitnesses manifest witnesses kept
      else validatedWitnesses manifest witnesses (kept ++ [(witness, view)])

/-- The independence groups of the receipts that count. -/
def independenceGroups (validated : List (Dict × WitnessView)) : List String :=
  ((validated.map fun counted => env.rt.lower (strip counted.2.independenceGroup)).filter
    (· ≠ "")).dedup

/-- `root_witness_finality_met`, once the quorum is met. -/
def rootWitnessFinalityMet (threshold : Int) (independentQuorumMet : Bool) : Bool :=
  0 < threshold ∧ (threshold ≤ 1 ∨ independentQuorumMet = true)

def verifyRootManifestWitnessSet (manifest : Dict) (witnesses : List Dict) : Checked WitnessSetView := do
  let view ← verifyRootManifest env manifest
  let validated ← validatedWitnesses env manifest witnesses []
  let threshold := view.policy.threshold
  demand (validated ≠ []) "stable root manifest witness receipts required"
  demand (0 < threshold ∧ threshold ≤ validated.length)
    "stable root manifest witness threshold not met"
  let groups := independenceGroups env validated
  return {
    manifest := view
    validated := validated
    domainCount := groups.length
    independentQuorumMet := threshold ≤ groups.length
    finalityMet := rootWitnessFinalityMet threshold (threshold ≤ groups.length) }

end Model

end Vincent.Root
