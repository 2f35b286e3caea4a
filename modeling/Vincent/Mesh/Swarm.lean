-- SUMMARY: The peer registry of a swarm seed, and the manifest that the seed signs.
import Vincent.Prekey.Bundle

/-!
# The swarm manifest

A peer announces its URL to a seed, which keeps it in a registry file. The manifest of
the seed has the configured seeds and the registered peers, signed just then, and is
checked as a whole by its readers.
-/

namespace Vincent.Swarm

open Vincent.Python Vincent.Check Vincent.Run
open Vincent.Prekey (textOr)

/-- What `urlparse` makes of a URL. A part that is missing is empty. -/
structure ParsedUrl where
  scheme : String
  hostname : String
  /-- `none` where `.port` raises. -/
  port : Option (Option Nat)
  path : String

structure SwarmEnv where
  rt : Runtime
  /-- `urlparse`, or `none` for a `ValueError`. -/
  urlparse : String → Option ParsedUrl
  /-- `b64decode(s, validate=True)`, or `none` where it raises. -/
  b64decode : String → Option (List UInt8)
  /-- The Ed25519 signature under a private key of a text in UTF-8, in base64. -/
  sign : List UInt8 → String → String
  /-- Whether a signature is one of a text under a public key. -/
  verify : List UInt8 → List UInt8 → String → Bool

structure SwarmSettings where
  registryDisabled : Bool := false
  registryEnabled : Bool := false
  signerPrivateKey : String
  signerPublicKey : String
  signerId : String := ""
  allowClearnetSync : Bool := false
  bootstrapSeedPeers : String := ""
  defaultSyncPeers : String := ""
  staleS : Int := 604800
  ttlS : Int := 14400

/-- How a call ends early: with a `BootstrapManifestError`, or with another exception. -/
inductive Failure where
  | rejected (detail : String)
  | raised (detail : String)
deriving DecidableEq

abbrev Checked (α : Type) := Except Failure α

def demand (c : Prop) [Decidable c] (detail : String) : Checked Unit := require c (.rejected detail)

section Model

variable (env : SwarmEnv) (cfg : SwarmSettings)

/-! ## Peer URLs -/

/-- `s.strip().lower()`. -/
def lowered (s : String) : String := env.rt.lower (strip s)

def urlparse (url : String) : Checked ParsedUrl :=
  match env.urlparse url with
  | some parsed => .ok parsed
  | none => .error (.raised "ValueError")

def portOf (parsed : ParsedUrl) : Checked (Option Nat) :=
  match parsed.port with
  | some port => .ok port
  | none => .error (.raised "ValueError")

/-- `hostname.endswith(".onion")`. -/
def endsOnion (hostname : String) : Prop := ".onion".toList <:+ hostname.toList

instance (hostname : String) : Decidable (endsOnion hostname) :=
  inferInstanceAs (Decidable (".onion".toList <:+ hostname.toList))

def netloc (scheme hostname : String) : Option Nat → String
  | none => hostname
  | some port =>
    let defaultPort := if scheme = "https" then some 443 else if scheme = "http" then some 80 else none
    if port ≠ 0 ∧ some port ≠ defaultPort then hostname ++ ":" ++ toString port else hostname

/-- `path.rstrip("/")`. -/
def rstripSlash (path : String) : String := String.ofList (path.toList.rdropWhile (· = '/'))

def normalizePeerUrl (peerUrl : String) : Checked String := do
  let raw := strip peerUrl
  if raw = "" then
    return ""
  let parsed ← urlparse env raw
  let scheme := lowered env parsed.scheme
  let hostname := lowered env parsed.hostname
  if scheme = "" ∨ hostname = "" then
    return ""
  let port ← portOf parsed
  return scheme ++ "://" ++ netloc scheme hostname port ++ rstripSlash parsed.path

def peerTransportKind (peerUrl : String) : Checked String := do
  let normalized ← normalizePeerUrl env peerUrl
  let parsed ← urlparse env normalized
  let hostname := lowered env parsed.hostname
  return if parsed.scheme = "http" ∧ endsOnion hostname then "onion"
    else if parsed.scheme = "https" ∧ hostname ≠ "" then "clearnet"
    -- plain http for LAN and testnet peers
    else if parsed.scheme = "http" ∧ hostname ≠ "" then "clearnet"
    else ""

/-! ## The manifest -/

structure BootstrapPeer where
  peerUrl : String
  transport : String
  role : String
  label : String := ""
deriving DecidableEq

def BootstrapPeer.toDict (p : BootstrapPeer) : Dict :=
  [("peer_url", .str p.peerUrl), ("transport", .str p.transport), ("role", .str p.role),
    ("label", .str p.label)]

/-- What no two peers of a manifest share. -/
def BootstrapPeer.key (p : BootstrapPeer) : String × String := (p.transport, p.peerUrl)

structure BootstrapManifest where
  version : Int
  issuedAt : Int
  validUntil : Int
  signerId : String
  peers : List BootstrapPeer
  signature : String
deriving DecidableEq

def BootstrapManifest.payloadDict (m : BootstrapManifest) : Dict :=
  [("version", .int m.version), ("issued_at", .int m.issuedAt), ("valid_until", .int m.validUntil),
    ("signer_id", .str m.signerId), ("peers", .list (m.peers.map fun p => .dict p.toDict))]

def BootstrapManifest.toDict (m : BootstrapManifest) : Dict :=
  m.payloadDict ++ [("signature", .str m.signature)]

def bootstrapManifestVersion : Int := 1
def allowedTransports : List String := ["clearnet", "onion"]
def allowedRoles : List String := ["participant", "relay", "seed"]

/-- `x or 'missing'` in a message. -/
def orMissing (s : String) : String := if s = "" then "missing" else s

def validateBootstrapPeer (peerData : Dict) : Checked BootstrapPeer := do
  let peerUrl := strip (Dict.text env.rt peerData "peer_url")
  let transport := lowered env (Dict.text env.rt peerData "transport")
  let role := lowered env (Dict.text env.rt peerData "role")
  let label := strip (Dict.text env.rt peerData "label")
  demand (transport ∈ allowedTransports) ("unsupported bootstrap transport: " ++ orMissing transport)
  demand (role ∈ allowedRoles) ("unsupported bootstrap role: " ++ orMissing role)
  let normalized ← normalizePeerUrl env peerUrl
  demand (normalized ≠ "" ∧ normalized = peerUrl) "bootstrap peer_url must be normalized"
  let parsed ← urlparse env normalized
  let hostname := lowered env parsed.hostname
  demand (transport = "clearnet" → parsed.scheme = "https" ∧ ¬ endsOnion hostname)
    "clearnet bootstrap peers must use https://"
  demand (transport = "onion" → parsed.scheme = "http" ∧ endsOnion hostname)
    "onion bootstrap peers must use http://*.onion"
  return ⟨normalized, transport, role, label⟩

local instance peerKeyLawful : LawfulBEq (String × String) := inferInstance

/-- The loop over `peers_raw`, with the peers that it has read. -/
def validatePeers : List PyVal → List BootstrapPeer → Checked (List BootstrapPeer)
  | [], peers => .ok peers
  | .dict entry :: rest, peers => do
    let peer ← validateBootstrapPeer env entry
    demand (peer.key ∉ peers.map BootstrapPeer.key) "bootstrap manifest peers must be unique"
    validatePeers rest (peers ++ [peer])
  | _ :: _, _ => .error (.rejected "bootstrap manifest peers must be objects")

/-- `int(payload.get(k, 0) or 0)`. -/
def intAt (payload : Dict) (k : String) : Checked Int :=
  (pyInt env.rt ((Dict.get payload k (.int 0)).or (.int 0))).mapError .raised

def peersAt (payload : Dict) : Checked (List PyVal) :=
  match Dict.get payload "peers" (.list []) with
  | .list peers => .ok peers
  | _ => .error (.rejected "bootstrap manifest peers must be a list")

def validateManifestPayload (payload : Dict) (now : Int) : Checked BootstrapManifest := do
  let version ← intAt env payload "version"
  let issuedAt ← intAt env payload "issued_at"
  let validUntil ← intAt env payload "valid_until"
  let signerId := strip (Dict.text env.rt payload "signer_id")
  demand (version = bootstrapManifestVersion)
    ("unsupported bootstrap manifest version: " ++ toString version)
  demand (signerId ≠ "") "bootstrap manifest signer_id is required"
  demand (0 < issuedAt ∧ 0 < validUntil ∧ issuedAt < validUntil)
    "bootstrap manifest validity window is invalid"
  demand (now ≤ validUntil) "bootstrap manifest expired"
  let entries ← peersAt payload
  let peers ← validatePeers env entries []
  demand (peers ≠ []) "bootstrap manifest must contain at least one peer"
  return ⟨version, issuedAt, validUntil, signerId, peers, ""⟩

def buildManifestPayload (signerId : String) (peers : List BootstrapPeer) (issuedAt validUntil : Int) :
    Checked Dict := do
  let manifest ← validateManifestPayload env
    (BootstrapManifest.payloadDict ⟨bootstrapManifestVersion, issuedAt, validUntil, strip signerId, peers, ""⟩)
    issuedAt
  return manifest.payloadDict

/-- Bytes of a key or a signature in base64, of the length that is asked for. -/
def bytesOf (text : String) (accepts : List UInt8 → Bool) (detail : String) : Checked (List UInt8) :=
  match env.b64decode text with
  | some raw => if accepts raw then .ok raw else .error (.rejected detail)
  | none => .error (.rejected detail)

def isKey (raw : List UInt8) : Bool := raw.length = 32

def signManifestPayload (payload : Dict) (signerPrivateKey : String) : Checked String := do
  let key ← bytesOf env signerPrivateKey isKey "bootstrap signer private key must be raw Ed25519 base64"
  return env.sign key (canonicalJson env.rt payload)

def verifyManifestSignature (payload : Dict) (signature signerPublicKey : String) : Checked Unit := do
  let raw ← bytesOf env signature (fun _ => true) "bootstrap manifest signature must be base64"
  let key ← bytesOf env signerPublicKey isKey "bootstrap signer public key must be raw Ed25519 base64"
  demand (env.verify key raw (canonicalJson env.rt payload)) "bootstrap manifest signature invalid"

def parseBootstrapManifestDict (raw : Dict) (signerPublicKey : String) (now : Int) :
    Checked BootstrapManifest := do
  let signature := strip (Dict.text env.rt raw "signature")
  let payload := Dict.pop raw "signature"
  demand (signature ≠ "") "bootstrap manifest signature is required"
  verifyManifestSignature env payload signature signerPublicKey
  let manifest ← validateManifestPayload env payload now
  return { manifest with signature := signature }

/-! ## The registry -/

structure RegistryPeer where
  peerUrl : String
  transport : String
  role : String
  nodeId : String := ""
  label : String := ""
  announcedAt : Int := 0
  lastSeenAt : Int := 0
  failureCount : Int := 0
deriving DecidableEq

def RegistryPeer.manifestPeer (p : RegistryPeer) : BootstrapPeer where
  peerUrl := p.peerUrl
  transport := p.transport
  role := p.role
  label := if p.label ≠ "" then p.label else slice p.nodeId 16

/-- `_peers`, by URL. -/
abbrev Registry := OrderedMap String RegistryPeer

/-- The key of `records`, compared. -/
def recordBefore (p q : RegistryPeer) : Prop := p.role < q.role ∨ p.role = q.role ∧ p.peerUrl ≤ q.peerUrl

instance : DecidableRel recordBefore := fun p q =>
  inferInstanceAs (Decidable (p.role < q.role ∨ p.role = q.role ∧ p.peerUrl ≤ q.peerUrl))

def records (registry : Registry) : List RegistryPeer := registry.values.insertionSort recordBefore

/-- `transport`, or where it is empty the one that the URL tells. -/
def transportOr (transport peerUrl : String) : Checked String :=
  if transport ≠ "" then .ok transport else peerTransportKind env peerUrl

/-- `_normalize_entry` of an entry that `save` wrote. -/
def normalizeEntry (entry : RegistryPeer) : Checked RegistryPeer := do
  let peerUrl ← normalizePeerUrl env entry.peerUrl
  require (peerUrl ≠ "") (.raised "registry peer_url is required")
  let transport ← transportOr env entry.transport peerUrl
  let role := lowered env (if entry.role ≠ "" then entry.role else "participant")
  require (role ∈ allowedRoles) (.raised "registry role unsupported")
  return { entry with
    peerUrl := peerUrl
    transport := lowered env transport
    role := role
    nodeId := strip entry.nodeId
    label := strip entry.label
    lastSeenAt := if entry.lastSeenAt ≠ 0 then entry.lastSeenAt else entry.announcedAt }

/-- `load`, of the records in the file if there is one. -/
def load (file : Option (List RegistryPeer)) : Checked Registry := do
  let peers ← (file.getD []).mapM (normalizeEntry env)
  return OrderedMap.fold (fun p => some p.peerUrl) (fun p _ => p) peers []

/-- A file that does not load makes an empty registry. -/
def loaded (file : Option (List RegistryPeer)) : Registry :=
  match load env file with
  | .ok registry => registry
  | .error _ => []

def upsertAnnouncement (registry : Registry) (peerUrl transport role nodeId label : String) (now : Int) :
    Checked (RegistryPeer × Registry) := do
  let normalized ← normalizePeerUrl env peerUrl
  require (normalized ≠ "") (.raised "peer_url is required")
  let resolvedTransport ← transportOr env (lowered env transport) normalized
  require (resolvedTransport ∈ allowedTransports) (.raised "unsupported peer transport")
  let resolvedRole := lowered env role
  require (resolvedRole ∈ allowedRoles) (.raised "unsupported peer role")
  let existing := registry.lookup normalized
  let peer : RegistryPeer := {
    peerUrl := normalized
    transport := resolvedTransport
    role := resolvedRole
    nodeId := strip (if nodeId ≠ "" then nodeId else (existing.map RegistryPeer.nodeId).getD "")
    label := strip (if label ≠ "" then label else (existing.map RegistryPeer.label).getD "")
    announcedAt := match existing with
      | some held => if held.announcedAt ≠ 0 then held.announcedAt else now
      | none => now
    lastSeenAt := now
    failureCount := (existing.map RegistryPeer.failureCount).getD 0 }
  return (peer, OrderedMap.insert normalized peer registry)

/-- Whether a peer has not been seen for too long. -/
def isStale (maxAgeS now : Int) (p : RegistryPeer) : Prop :=
  p.role ≠ "seed" ∧
    let lastSeen := if p.lastSeenAt ≠ 0 then p.lastSeenAt else p.announcedAt
    0 < lastSeen ∧ max 60 maxAgeS < now - lastSeen

instance (maxAgeS now : Int) (p : RegistryPeer) : Decidable (isStale maxAgeS now p) := by
  unfold isStale
  infer_instance

def pruneStale (maxAgeS now : Int) (registry : Registry) : Registry :=
  registry.filter fun kv => ¬ isStale maxAgeS now kv.2

/-! ## The seed -/

/-- The two files of a seed: the registry, and the manifest that was written last. -/
structure SwarmState where
  registry : Option (List RegistryPeer) := none
  manifest : Option Dict := none

def signerPrivateKey : String := strip cfg.signerPrivateKey

/-- Without a configured key there is none, since the fleet is not joined. -/
def signerPublicKey : String := strip cfg.signerPublicKey

def signerId : String :=
  let configured := strip cfg.signerId
  if configured ≠ "" then configured else "vincent_os-seed"

def peerRegistryEnabled : Bool :=
  !cfg.registryDisabled && (signerPrivateKey cfg != "" || cfg.registryEnabled)

/-- The loop of `parse_configured_relay_peers`, with the peers that it has taken. -/
def relayPeers : List String → List String → Checked (List String)
  | [], peers => .ok peers
  | candidate :: rest, peers => do
    let url ← normalizePeerUrl env candidate
    let transport ← peerTransportKind env url
    if url = "" ∨ transport = "" ∨ url ∈ peers then
      relayPeers rest peers
    else
      relayPeers rest (peers ++ [url])

def parseConfiguredRelayPeers (raw : String) : Checked (List String) :=
  relayPeers env ((raw.toList.splitOn ',').map String.ofList) []

def dedupePeerUrls (peers : List String) : Checked (List String) := do
  let normalized ← parseConfiguredRelayPeers env (String.intercalate "," peers)
  return normalized.eraseDups

def configuredSeedPeerUrls : Checked (List String) := do
  let primary := strip cfg.bootstrapSeedPeers
  let legacy := strip cfg.defaultSyncPeers
  let peers ← parseConfiguredRelayPeers env (if primary ≠ "" then primary else legacy)
  dedupePeerUrls env peers

def seedManifestPeers : Checked (List BootstrapPeer) := do
  let urls ← configuredSeedPeerUrls env cfg
  urls.filterMapM fun peerUrl => do
    let transport ← peerTransportKind env peerUrl
    return if ¬ cfg.allowClearnetSync ∧ transport ≠ "onion" then none
      else some ⟨peerUrl, transport, "seed", "Vincent OS bootstrap seed"⟩

/-- The age in seconds beyond which a peer is left out. -/
def staleSeconds : Int := if cfg.staleS ≠ 0 then cfg.staleS else 7 * 86400

def ttlSeconds : Int := if cfg.ttlS ≠ 0 then cfg.ttlS else 4 * 3600

/-- The registry that a manifest is made from. -/
def currentRegistry (file : Option (List RegistryPeer)) (now : Int) : Registry :=
  if 0 < staleSeconds cfg then pruneStale (staleSeconds cfg) now (loaded env file) else loaded env file

/-- `publish_registry_manifest`, before it writes any file. -/
def publishManifest (file : Option (List RegistryPeer)) (now : Int) : Checked BootstrapManifest := do
  demand (signerPrivateKey cfg ≠ "" ∧ signerPublicKey cfg ≠ "")
    "bootstrap signer keys are required to publish swarm manifest"
  let seeds ← seedManifestPeers env cfg
  let peers := seeds ++ (records (currentRegistry env cfg file now)).map RegistryPeer.manifestPeer
  let validUntil := now + max 300 (ttlSeconds cfg)
  let payload ← buildManifestPayload env (signerId cfg) peers now validUntil
  let signature ← signManifestPayload env payload (signerPrivateKey cfg)
  return ⟨bootstrapManifestVersion, now, validUntil, signerId cfg, peers, signature⟩

/-- What `write_signed_bootstrap_manifest` writes of a manifest. -/
def signedManifest (m : BootstrapManifest) : Checked Dict := do
  let payload ← buildManifestPayload env m.signerId m.peers m.issuedAt m.validUntil
  let signature ← signManifestPayload env payload (signerPrivateKey cfg)
  return payload ++ [("signature", .str signature)]

/-- `publish_registry_manifest(persist=True)`, where no exception leaves it. -/
def republish (now : Int) (s : SwarmState) : SwarmState :=
  match publishManifest env cfg s.registry now with
  | .error _ => s
  | .ok m =>
    { registry := some (records (currentRegistry env cfg s.registry now))
      manifest := match signedManifest env cfg m with
        | .ok written => some written
        | .error _ => s.manifest }

/-- `load_bootstrap_manifest` of the file that was written last. -/
def storedManifest (s : SwarmState) (now : Int) : Checked BootstrapManifest :=
  match s.manifest with
  | some raw => parseBootstrapManifestDict env raw (signerPublicKey cfg) now
  | none => .error (.rejected "bootstrap manifest not found")

def loadLiveBootstrapManifest (s : SwarmState) (now : Int) : Checked (Option BootstrapManifest) :=
  let stored : Checked (Option BootstrapManifest) :=
    match storedManifest env cfg s now with
    | .ok m => .ok (some m)
    | .error (.rejected _) => .ok none
    | .error (.raised detail) => .error (.raised detail)
  if signerPublicKey cfg = "" then .ok none
  else if peerRegistryEnabled cfg then
    match publishManifest env cfg s.registry now with
    | .ok m => .ok (some m)
    | .error (.rejected _) => stored
    | .error (.raised detail) => .error (.raised detail)
  else stored

/-- A call of `record_peer_announcement`. -/
structure Announcement where
  body : Dict
  now : Int
  /-- Whether the peer store takes the peer, which raises where it does not. -/
  storeTakes : Bool := true

/-- The peer that an announcement records, with the registry that holds it. -/
def announcedPeer (s : SwarmState) (a : Announcement) : Checked (RegistryPeer × Registry) := do
  require (peerRegistryEnabled cfg) (.raised "peer registry is not enabled on this node")
  upsertAnnouncement env (loaded env s.registry) (Dict.text env.rt a.body "peer_url")
    (Dict.text env.rt a.body "transport") (textOr env.rt a.body "role" "participant")
    (Dict.text env.rt a.body "node_id") (Dict.text env.rt a.body "label") a.now

def recordPeerAnnouncement (s : SwarmState) (a : Announcement) : SwarmState :=
  match announcedPeer env cfg s a with
  | .error _ => s
  | .ok (_, registry) =>
    let saved := { s with registry := some (records registry) }
    if a.storeTakes then republish env cfg a.now saved else saved

end Model

end Vincent.Swarm
