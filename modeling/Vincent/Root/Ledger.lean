-- SUMMARY: The transparency ledger of a node: publishing, exporting, verifying.
import Vincent.Root.Record

/-!
# The transparency ledger

A node publishes a record for a manifest and its receipts unless the last one
still fits them. It keeps the last 64 records, and exports those or fewer. Who
verifies an export follows its records from an empty link.
-/

namespace Vincent.Root

open Vincent.Python Vincent.Check Vincent.Mesh
open Vincent.Prekey (textOr)

def ledgerType : String := "stable_dm_root_manifest_transparency_ledger"
def maxRecords : Nat := 64

section Model

variable (env : RootEnv)

/-- What `sign_root_wormhole_event` returns with the payload, which it leaves as it is. -/
structure RootSignature where
  nodeId : String
  publicKey : String
  publicKeyAlgo : String := "Ed25519"
  protocolVersion : String := Mesh.protocolVersion
  sequence : Int
  signature : String

/-- What is kept of the ledger. -/
structure LedgerState where
  currentRecord : Dict := []
  records : List Dict := []

/-- The last `n` elements. -/
def lastOf {α : Type} (n : Nat) (xs : List α) : List α := xs.drop (xs.length - n)

/-- A payload with its signature, as a record. -/
def recordOf (signed : RootSignature) (payload : Dict) : Dict :=
  [("type", .str transparencyType), ("event_type", .str transparencyType),
    ("node_id", .str (strip signed.nodeId)), ("public_key", .str (strip signed.publicKey)),
    ("public_key_algo",
      .str (strip (if signed.publicKeyAlgo = "" then "Ed25519" else signed.publicKeyAlgo))),
    ("protocol_version", .str (strip
      (if signed.protocolVersion = "" then Mesh.protocolVersion else signed.protocolVersion))),
    ("sequence", .int signed.sequence), ("payload", .dict payload),
    ("signature", .str (strip signed.signature)), ("identity_scope", .str "root")]

/-- A call of `publish_root_transparency_record`: when, for what, and the root that signs. -/
structure Publication where
  now : Int
  manifest : Dict
  witnesses : List Dict
  sign : Dict → RootSignature

/-- Whether the current record still fits what is published. -/
def currentFits (s : LedgerState) (p : Publication) : Checked Bool :=
  if s.currentRecord = [] then .ok false
  else
    match verifyRootTransparencyRecord env s.currentRecord p.manifest p.witnesses with
    | .ok _ => .ok true
    | .error (.rejected _) => .ok false
    | .error (.raised e) => .error (.raised e)

/-- `publish_root_transparency_record`: the record that is new, if one is. -/
def newRecord (s : LedgerState) (p : Publication) : Checked (Option Dict) := do
  demand (p.manifest ≠ [] ∧ p.witnesses ≠ []) "stable root transparency distribution incomplete"
  let view ← verifyRootManifest env p.manifest
  let set ← verifyRootManifestWitnessSet env p.manifest p.witnesses
  if ← currentFits env s p then return none
  else
    let payload ← raising (recordPayload env view set (s.records.getLast?.getD []) p.now)
    return some (recordOf (p.sign payload) payload)

/-- The record that a call publishes. -/
def published (s : LedgerState) (p : Publication) : Option Dict := (newRecord env s p).toOption.join

/-- What a call leaves: a call that fails leaves everything as it was. -/
def publish (s : LedgerState) (p : Publication) : LedgerState :=
  match published env s p with
  | none => s
  | some record => { currentRecord := record, records := lastOf maxRecords (s.records ++ [record]) }

/-! ## Exports -/

/-- `transparency_record_chain_fingerprint`. -/
def chainFingerprint (records : List Dict) : Except String String := do
  let fingerprints ← records.mapM (transparencyRecordFingerprint env)
  return stableHash env (.list (fingerprints.map .str))

/-- How many records an export asks for: none for all of them. -/
def exportLimit (s : LedgerState) (limit : PyVal) : Except String (Option Nat) :=
  match limit with
  | .none => .ok none
  | v => do
    let n ← safeInt env.rt v (if s.records = [] then 1 else s.records.length)
    return some (max 1 n).toNat

/-- `export_root_transparency_ledger`. -/
def exportLedger (s : LedgerState) (now : Int) (limit : PyVal) : Except String Dict := do
  let records := ((← exportLimit env s limit).map fun n => lastOf n s.records).getD s.records
  let current := records.getLast?.getD s.currentRecord
  let fingerprint ← fingerprintOrEmpty env current
  let payload ← dictAt current "payload"
  return [("type", .str ledgerType), ("schema_version", .int 1),
    ("transparency_scope", .str transparencyScope), ("exported_at", .int now),
    ("record_count", .int records.length), ("current_record_fingerprint", .str fingerprint),
    ("head_binding_fingerprint", .str (lowered env payload "binding_fingerprint")),
    ("chain_fingerprint", .str (← chainFingerprint env records)),
    ("records", .list (records.map .dict))]

/-- The loop over the records of an export: their fingerprints, and the binding of the last one. -/
def checkLinks : String → String → List Dict → Checked (List String × String)
  | _, binding, [] => .ok ([], binding)
  | previous, _, record :: records => do
    let payload ← raising (dictAt record "payload")
    let fingerprint ← raising (transparencyRecordFingerprint env record)
    demand (lowered env payload "previous_record_fingerprint" = previous)
      "stable root transparency ledger chain mismatch"
    let (fingerprints, binding) ←
      checkLinks fingerprint (lowered env payload "binding_fingerprint") records
    return (fingerprint :: fingerprints, binding)

/-- What `verify_root_transparency_ledger_export` returns of a ledger that it accepts. -/
structure LedgerView where
  recordCount : Nat
  currentRecordFingerprint : String
  headBindingFingerprint : String
  chainFingerprint : String

/-- `verify_root_transparency_ledger_export`. -/
def verifyLedgerExport (ledger : Dict) : Checked LedgerView := do
  let rt := env.rt
  demand (textOr rt ledger "type" ledgerType = ledgerType)
    "stable root transparency ledger type invalid"
  demand (0 < (← raising (intOf env ledger "schema_version")))
    "stable root transparency ledger schema_version required"
  demand (textOr rt ledger "transparency_scope" transparencyScope = transparencyScope)
    "stable root transparency ledger scope invalid"
  demand (0 < (← raising (intOf env ledger "exported_at")))
    "stable root transparency ledger exported_at required"
  let records ← raising (dictsAt ledger "records")
  demand ((← raising (intOf env ledger "record_count")) = records.length)
    "stable root transparency ledger record_count mismatch"
  let (fingerprints, binding) ← checkLinks env "" "" records
  demand (lowered env ledger "current_record_fingerprint" = fingerprints.getLast?.getD "")
    "stable root transparency ledger head mismatch"
  demand (lowered env ledger "head_binding_fingerprint" = binding)
    "stable root transparency ledger binding mismatch"
  let chain ← raising (chainFingerprint env records)
  demand (lowered env ledger "chain_fingerprint" = chain)
    "stable root transparency ledger fingerprint mismatch"
  return {
    recordCount := records.length
    currentRecordFingerprint := fingerprints.getLast?.getD ""
    headBindingFingerprint := binding
    chainFingerprint := chain }

end Model

end Vincent.Root
