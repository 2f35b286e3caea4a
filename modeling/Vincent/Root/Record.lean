-- SUMMARY: Transparency records, and how one is verified.
import Vincent.Root.Manifest

/-!
# Transparency records

The root signs a record, which names a manifest by its fingerprint and the
receipts that were counted for it by the fingerprint of their set. That one is
taken over what the verifier returned of each receipt.
-/

namespace Vincent.Root

open Vincent.Python Vincent.Check Vincent.Mesh
open Vincent.Prekey (textOr)

def transparencyType : String := "stable_dm_root_manifest_transparency"
def transparencyScope : String := "local_append_only"

section Model

variable (env : RootEnv)

/-- The fields of an envelope that its fingerprint covers, with the defaults of its two types. -/
def canonicalEnvelope (envelope : Dict) (type eventType : String) : Except String Dict := do
  return [("type", .str type), ("event_type", .str eventType),
    ("node_id", .str (stripped env envelope "node_id")),
    ("public_key", .str (stripped env envelope "public_key")),
    ("public_key_algo", .str (strip (textOr env.rt envelope "public_key_algo" "Ed25519"))),
    ("protocol_version",
      .str (strip (textOr env.rt envelope "protocol_version" Mesh.protocolVersion))),
    ("sequence", .int (← intOf env envelope "sequence")),
    ("payload", .dict (← dictAt envelope "payload")),
    ("signature", .str (stripped env envelope "signature"))]

def witnessReceiptFingerprint (witness : Dict) : Except String String := do
  let canonical ← canonicalEnvelope env witness (stripped env witness "type")
    (stripped env witness "event_type")
  return stableHash env (.dict canonical)

def witnessReceiptSetFingerprint (witnesses : List Dict) : Except String String := do
  let fingerprints ← witnesses.mapM (witnessReceiptFingerprint env)
  return stableHash env (.list ((fingerprints.insertionSort (· ≤ ·)).map .str))

def transparencyBindingFingerprint (manifestFingerprint policyFingerprint setFingerprint : String) :
    String :=
  stableHash env (.dict [("manifest_fingerprint", .str (env.rt.lower (strip manifestFingerprint))),
    ("witness_policy_fingerprint", .str (env.rt.lower (strip policyFingerprint))),
    ("witness_set_fingerprint", .str (env.rt.lower (strip setFingerprint)))])

def transparencyRecordFingerprint (record : Dict) : Except String String := do
  let canonical ← canonicalEnvelope env record (textOr env.rt record "type" transparencyType)
    (textOr env.rt record "event_type" transparencyType)
  return stableHash env (.dict canonical)

/-- `transparency_record_fingerprint(record) if record else ""`. -/
def fingerprintOrEmpty (record : Dict) : Except String String :=
  if record = [] then .ok "" else transparencyRecordFingerprint env record

/-- `_record_payload`: what a record says, after `previous`, which is empty for the first one. -/
def recordPayload (view : ManifestView) (set : WitnessSetView) (previous : Dict) (now : Int) :
    Except String Dict := do
  let previousFingerprint ← fingerprintOrEmpty env previous
  let previousIndex ← intOf env (← dictAt previous "payload") "record_index"
  let manifestFingerprint := env.rt.lower (strip view.manifestFingerprint)
  let policyFingerprint := env.rt.lower (strip view.policyFingerprint)
  let setFingerprint ←
    witnessReceiptSetFingerprint env (set.validated.map fun counted => counted.2.toDict)
  return [("transparency_scope", .str transparencyScope),
    ("manifest_fingerprint", .str manifestFingerprint),
    ("root_fingerprint", .str (env.rt.lower (strip view.rootFingerprint))),
    ("generation", .int view.generation), ("witness_policy_fingerprint", .str policyFingerprint),
    ("witness_threshold", .int set.manifest.policy.threshold),
    ("witness_count", .int set.validated.length), ("witness_set_fingerprint", .str setFingerprint),
    ("binding_fingerprint",
      .str (transparencyBindingFingerprint env manifestFingerprint policyFingerprint setFingerprint)),
    ("record_index", .int (if 0 < previousIndex then previousIndex + 1 else 1)),
    ("previous_record_fingerprint", .str previousFingerprint), ("published_at", .int now)]

/-- A record that is complete, as it is read before the manifest is. -/
structure ReadRecord where
  nodeId : String
  publicKey : String
  publicKeyAlgo : String
  protocolVersion : String
  sequence : Int
  signature : String
  payload : Dict

/-- The first half of `verify_root_transparency_record`: what it checks of the record alone. -/
def readRecord (record : Dict) : Checked ReadRecord := do
  let rt := env.rt
  demand (textOr rt record "type" transparencyType = transparencyType)
    "stable root transparency record type invalid"
  demand (stripped env record "event_type" = transparencyType)
    "stable root transparency record event_type invalid"
  let nodeId := stripped env record "node_id"
  let publicKey := stripped env record "public_key"
  let sequence ← raising (intOf env record "sequence")
  let signature := stripped env record "signature"
  let payload ← raising (dictAt record "payload")
  demand (nodeId ≠ "" ∧ publicKey ≠ "" ∧ 0 < sequence ∧ signature ≠ "")
    "stable root transparency record incomplete"
  demand (textOr rt payload "transparency_scope" transparencyScope = transparencyScope)
    "stable root transparency scope invalid"
  demand (0 < (← raising (intOf env payload "published_at")))
    "stable root transparency published_at required"
  demand (0 < (← raising (intOf env payload "record_index")))
    "stable root transparency record_index required"
  demand (verifyNodeBinding env nodeId publicKey) "stable root transparency node binding invalid"
  return {
    nodeId := nodeId
    publicKey := publicKey
    publicKeyAlgo := strip (textOr rt record "public_key_algo" "Ed25519")
    protocolVersion := strip (textOr rt record "protocol_version" Mesh.protocolVersion)
    sequence := sequence
    signature := signature
    payload := payload }

/-- What `verify_root_transparency_record` returns of a record that it accepts. -/
structure RecordView where
  recordFingerprint : String
  bindingFingerprint : String
  manifestFingerprint : String
  policyFingerprint : String
  setFingerprint : String
  threshold : Int
  count : Int
  recordIndex : Int
  previousRecordFingerprint : String
  publishedAt : Int

/-- The root of the manifest signs the record, which says what was verified of the two others. -/
def checkRecord (record manifest : Dict) (r : ReadRecord) (view : ManifestView) (count : Nat)
    (setFingerprint : String) : Checked RecordView := do
  let payload := r.payload
  demand (r.nodeId = strip view.rootNodeId) "stable root transparency signer mismatch"
  demand (r.publicKey = strip view.rootPublicKey) "stable root transparency signer mismatch"
  demand (r.publicKeyAlgo = view.rootPublicKeyAlgo) "stable root transparency signer mismatch"
  demand (r.protocolVersion = strip (textOr env.rt manifest "protocol_version" Mesh.protocolVersion))
    "stable root transparency protocol mismatch"
  let manifestFingerprint := env.rt.lower (strip view.manifestFingerprint)
  let policyFingerprint := env.rt.lower (strip view.policyFingerprint)
  let binding := transparencyBindingFingerprint env manifestFingerprint policyFingerprint setFingerprint
  demand (lowered env payload "manifest_fingerprint" = manifestFingerprint)
    "stable root transparency manifest mismatch"
  demand (lowered env payload "root_fingerprint" = env.rt.lower (strip view.rootFingerprint))
    "stable root transparency root mismatch"
  demand ((← raising (intOf env payload "generation")) = view.generation)
    "stable root transparency generation mismatch"
  demand (lowered env payload "witness_policy_fingerprint" = policyFingerprint)
    "stable root transparency witness policy mismatch"
  demand ((← raising (intOf env payload "witness_threshold")) = view.policy.threshold)
    "stable root transparency witness threshold mismatch"
  demand ((← raising (intOf env payload "witness_count")) = count)
    "stable root transparency witness count mismatch"
  demand (lowered env payload "witness_set_fingerprint" = setFingerprint)
    "stable root transparency witness set mismatch"
  demand (lowered env payload "binding_fingerprint" = binding)
    "stable root transparency binding mismatch"
  let text ← raising (buildSignaturePayload env.rt transparencyType r.nodeId r.sequence payload)
  demand (verifySignature env r.publicKey r.publicKeyAlgo r.signature text)
    "stable root transparency record invalid"
  return {
    recordFingerprint := ← raising (transparencyRecordFingerprint env record)
    bindingFingerprint := binding
    manifestFingerprint := manifestFingerprint
    policyFingerprint := policyFingerprint
    setFingerprint := setFingerprint
    threshold := view.policy.threshold
    count := count
    recordIndex := ← raising (intOf env payload "record_index")
    previousRecordFingerprint := lowered env payload "previous_record_fingerprint"
    publishedAt := ← raising (intOf env payload "published_at") }

def verifyRootTransparencyRecord (record manifest : Dict) (witnesses : List Dict) :
    Checked RecordView := do
  let r ← readRecord env record
  let view ← verifyRootManifest env manifest
  let set ← verifyRootManifestWitnessSet env manifest witnesses
  let setFingerprint ← raising
    (witnessReceiptSetFingerprint env (set.validated.map fun counted => counted.2.toDict))
  checkRecord env record manifest r view set.validated.length setFingerprint

end Model

end Vincent.Root
