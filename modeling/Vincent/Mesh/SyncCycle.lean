-- SUMMARY: The sync worker: which peers a cycle asks, and how the peer store changes.
import Vincent.General.Check
import Vincent.General.OrderedMap
import Vincent.General.Run
import Vincent.Python.Value

/-!
# Sync cycles

A cycle asks the eligible peers one after another, until one answers well. A peer that
fails cools down. The worker waits between cycles, but a kick does not, and a refresh
writes the configured seeds anew.
-/

namespace Vincent.Sync

open Vincent.Python Vincent.Check Vincent.Run

/-- A time in seconds, not rounded. -/
abbrev Time := ℚ

/-- `int(now)`. -/
def seconds (t : Time) : Int := t.num.tdiv t.den

structure SyncEnv where
  rt : Runtime
  /-- `normalize_peer_url`. -/
  normalizePeerUrl : String → String
  /-- `urlparse(url).scheme`. -/
  scheme : String → String
  /-- `urlparse(url).hostname`, stripped and lowered. -/
  hostname : String → String
  /-- `str.isdigit`. -/
  isDigits : String → Bool
  /-- `parsedate_to_datetime` as a timestamp, or `none` where there is none. -/
  parseDate : String → Option Time
  /-- `_parse_retry_after_seconds`. -/
  parseRetryAfterSeconds : String → Nat

structure SyncSettings where
  maxPeersPerCycle : Nat
  intervalS : Int
  failureBackoffS : Int
  relayFailureCooldownS : Int
  seedFailureCooldownS : Int
  privateTransportRequired : Bool

/-! ## The peer store -/

structure PeerRecord where
  bucket : String
  source : String
  peerUrl : String
  transport : String
  role : String
  label : String := ""
  signerId : String := ""
  enabled : Bool := true
  addedAt : Int := 0
  updatedAt : Int := 0
  lastSeenAt : Int := 0
  lastSyncOkAt : Int := 0
  lastError : String := ""
  failureCount : Int := 0
  cooldownUntil : Int := 0
deriving DecidableEq

/-- The two parts of a `record_key`. -/
structure RecordKey where
  bucket : String
  peerUrl : String
deriving DecidableEq

def PeerRecord.recordKey (r : PeerRecord) : RecordKey := ⟨r.bucket, r.peerUrl⟩

abbrev PeerStore := OrderedMap RecordKey PeerRecord

section Model

variable (env : SyncEnv) (cfg : SyncSettings)

/-- `str(s or "").strip().lower()`. -/
def lowered (s : String) : String := env.rt.lower (strip s)

/-- `_normalize_peer_record` of a record that was made here. -/
def normalizePeerRecord (r : PeerRecord) : Except String PeerRecord := do
  let transport := lowered env r.transport
  let role := lowered env r.role
  require (transport ∈ ["clearnet", "onion"]) "unsupported peer transport"
  require (role ∈ ["participant", "relay", "seed"]) "unsupported peer role"
  let peerUrl := strip r.peerUrl
  let normalized := env.normalizePeerUrl peerUrl
  require (normalized ≠ "" ∧ normalized = peerUrl) "peer_url must be normalized"
  let onion := ".onion".toList <:+ (env.hostname normalized).toList
  require (transport = "clearnet" →
      (env.scheme normalized = "https" ∨ env.scheme normalized = "http") ∧ ¬ onion)
    "clearnet peers must use https:// (or http:// for LAN/testnet)"
  require (transport = "onion" → env.scheme normalized = "http" ∧ onion)
    "onion peers must use http://*.onion"
  return { r with
    peerUrl := normalized
    transport := transport
    role := role
    label := strip r.label
    signerId := strip r.signerId }

/-- A configured or bundled seed is written anew. -/
def explicitSeedRefresh (r : PeerRecord) : Prop :=
  r.bucket = "sync" ∧ r.role = "seed" ∧ r.source ∈ ["bundle", "bootstrap_promoted"]

instance (r : PeerRecord) : Decidable (explicitSeedRefresh r) := by
  unfold explicitSeedRefresh
  infer_instance

/-- The record that `upsert` stores over one that exists. -/
def mergeRecord (record existing : PeerRecord) : PeerRecord :=
  { record with
    label := if record.label = "" then existing.label else record.label
    signerId := if record.signerId = "" then existing.signerId else record.signerId
    addedAt := if existing.addedAt = 0 then record.addedAt else existing.addedAt
    updatedAt := max existing.updatedAt record.updatedAt
    lastSeenAt := max existing.lastSeenAt record.lastSeenAt
    lastSyncOkAt := max existing.lastSyncOkAt record.lastSyncOkAt
    lastError :=
      if explicitSeedRefresh record then ""
      else if record.lastError = "" then existing.lastError else record.lastError
    failureCount :=
      if explicitSeedRefresh record then 0 else max existing.failureCount record.failureCount
    cooldownUntil :=
      if explicitSeedRefresh record then 0 else max existing.cooldownUntil record.cooldownUntil }

/-- `PeerStore.upsert`. -/
def upsert (record : PeerRecord) (store : PeerStore) : PeerStore :=
  OrderedMap.upsert record.recordKey (fun existing => (existing.map (mergeRecord record)).getD record)
    store

/-- `_require_record`, and the write of what becomes of the record. -/
def modifyRecord (peerUrl : String) (f : PeerRecord → PeerRecord) (store : PeerStore) :
    Except String PeerStore :=
  let key : RecordKey := ⟨"sync", env.normalizePeerUrl peerUrl⟩
  match List.lookup key store with
  | none => .error "peer record not found"
  | some _ => .ok (OrderedMap.modify key f store)

/-- `mark_seen` and `mark_sync_success`. -/
def markSuccess (now : Time) (r : PeerRecord) : PeerRecord :=
  { r with
    lastSeenAt := seconds now
    lastSyncOkAt := seconds now
    lastError := ""
    failureCount := 0
    cooldownUntil := 0
    updatedAt := seconds now }

def markFailure (now : Time) (error : String) (cooldownS : Int) (r : PeerRecord) : PeerRecord :=
  { r with
    lastError := strip error
    failureCount := r.failureCount + 1
    cooldownUntil := seconds now + max 0 cooldownS
    updatedAt := seconds now }

/-! ## The worker -/

structure SyncWorkerState where
  lastSyncStartedAt : Int := 0
  lastSyncFinishedAt : Int := 0
  lastSyncOkAt : Int := 0
  nextSyncDueAt : Int := 0
  lastPeerUrl : String := ""
  lastError : String := ""
  lastOutcome : String := "idle"
  forkDetected : Bool := false
  consecutiveFailures : Nat := 0

def beginSync (state : SyncWorkerState) (peerUrl : String) (now : Time) : SyncWorkerState :=
  { state with
    lastSyncStartedAt := seconds now
    lastPeerUrl := if peerUrl = "" then state.lastPeerUrl else peerUrl
    lastError := ""
    lastOutcome := "running"
    forkDetected := false }

/-- `_failure_backoff_seconds` with its cap of half an hour. -/
def failureBackoffSeconds (baseBackoffS : Int) (consecutiveFailures : Nat) (retryAfterS : Int) : Int :=
  let base := max 0 baseBackoffS
  let grown := if 0 < base ∧ 0 < consecutiveFailures then
    base * 2 ^ min (consecutiveFailures - 1) 16 else 0
  max (min (max 0 grown) 1800) (max 0 retryAfterS)

/-- `finish_sync` of an attempt that succeeded. -/
def finishOk (state : SyncWorkerState) (peerUrl : String) (now : Time) : SyncWorkerState :=
  { state with
    lastSyncFinishedAt := seconds now
    lastSyncOkAt := seconds now
    nextSyncDueAt := seconds now + max 0 cfg.intervalS
    lastPeerUrl := if peerUrl = "" then state.lastPeerUrl else peerUrl
    lastError := ""
    lastOutcome := "ok"
    forkDetected := false
    consecutiveFailures := 0 }

/-- `finish_sync` of an attempt that failed. -/
def finishFailed (state : SyncWorkerState) (peerUrl error : String) (forked : Bool) (now : Time)
    (failureBackoffS retryAfterS : Int) : SyncWorkerState :=
  { state with
    lastSyncFinishedAt := seconds now
    nextSyncDueAt := seconds now +
      failureBackoffSeconds failureBackoffS (state.consecutiveFailures + 1) retryAfterS
    lastPeerUrl := if peerUrl = "" then state.lastPeerUrl else peerUrl
    lastError := strip error
    lastOutcome := if forked then "fork" else "error"
    forkDetected := forked
    consecutiveFailures := state.consecutiveFailures + 1 }

def finishSoloSync (state : SyncWorkerState) (now : Time) : SyncWorkerState :=
  { state with
    lastSyncFinishedAt := seconds now
    nextSyncDueAt := seconds now + max 0 cfg.intervalS
    lastPeerUrl := ""
    lastError := ""
    lastOutcome := "solo"
    forkDetected := false
    consecutiveFailures := 0 }

def shouldRunSync (state : SyncWorkerState) (now : Time) : Prop :=
  if state.lastOutcome = "running" then
    state.lastSyncStartedAt ≤ 0 ∨ 300 ≤ seconds now - state.lastSyncStartedAt
  else state.nextSyncDueAt ≤ seconds now

instance (state : SyncWorkerState) (now : Time) : Decidable (shouldRunSync state now) := by
  unfold shouldRunSync
  infer_instance

/-! ## Answers -/

def parseRetryAfterHeader (header : String) (now : Time) : Except String Int :=
  let value := strip header
  if value = "" then .ok 0
  else if env.isDigits value then
    match env.rt.intOfStr value with
    | none => .error "ValueError"
    | some n => .ok (min (max 0 n) 3600)
  else
    match env.parseDate value with
    | none => .ok 0
    | some target => .ok (min (max 0 (seconds (target - now))) 3600)

/-- What the last request to a peer comes to in `_sync_from_peer`. -/
inductive Answer where
  /-- The ledgers agree, or the page limit was reached. -/
  | synced
  /-- The payload was rejected, or reports a fork. -/
  | failed (error : String) (forked : Bool)
  /-- An HTTP status other than 200, with its `Retry-After` header. -/
  | status (code : Int) (retryAfter detail : String)
  /-- The request raised. -/
  | raised (error : String)
deriving DecidableEq

/-- What the cycle reads off a call of `_sync_from_peer`. -/
structure CallResult where
  ok : Bool
  error : String := ""
  forked : Bool := false
  retryAfterS : Int := 0
  httpStatusCode : Int := 0

/-- `_peer_sync_response`, `_sync_from_peer` and the `except` clauses of the cycle, for an
answer. -/
def callResult (answeredAt : Time) : Answer → CallResult
  | .synced => { ok := true }
  | .failed error forked => { ok := false, error := error, forked := forked }
  | .raised error => { ok := false, error := error }
  | .status code retryAfter detail =>
    if code = 429 then
      match parseRetryAfterHeader env retryAfter answeredAt with
      | .error e => { ok := false, error := e }
      | .ok r => { ok := false, error := detail, retryAfterS := r }
    else { ok := false, error := detail, httpStatusCode := code
           retryAfterS := env.parseRetryAfterSeconds retryAfter }

/-- One peer's turn in a cycle: when the request is sent, answered, and the answer stored. -/
structure Turn where
  sentAt : Time
  answeredAt : Time
  storedAt : Time
  answer : Answer
deriving DecidableEq

/-! ## Cycles -/

inductive SyncEvent where
  | sent (peer : String) (time : Time)
  /-- A 429 whose `Retry-After` is read as a number of seconds. -/
  | limited (peer : String) (time : Time) (retryAfter : Int)
deriving DecidableEq

/-- The store, the worker, and what happened so far, up to a time. -/
structure Node where
  store : PeerStore
  worker : SyncWorkerState
  log : List SyncEvent
  clock : Time

/-- `_is_private_infonet_transport`. -/
def isPrivateTransport (transport : String) : Prop := lowered env transport ∈ ["onion", "rns"]

instance (transport : String) : Decidable (isPrivateTransport env transport) := by
  unfold isPrivateTransport
  infer_instance

def seedPriority (r : PeerRecord) : Nat :=
  if lowered env r.role = "seed" ∧ lowered env r.source ∈ ["bundle", "bootstrap_promoted"] then 0 else 1

/-- The order of the key of `eligible_sync_peers`. -/
def askedBefore (a b : PeerRecord) : Bool :=
  ((compare (-a.lastSyncOkAt) (-b.lastSyncOkAt)).then <|
    (compare (seedPriority env a) (seedPriority env b)).then <|
    (compare a.failureCount b.failureCount).then <|
    (compare a.addedAt b.addedAt).then (compare a.peerUrl b.peerUrl)).isLE

/-- `eligible_sync_peers` of the filtered records. -/
def eligibleSyncPeers (store : PeerStore) (now : Time) : List PeerRecord :=
  ((store.values.filter fun r =>
    (cfg.privateTransportRequired = true → isPrivateTransport env r.transport) ∧ r.bucket = "sync" ∧
      r.enabled = true ∧ r.cooldownUntil ≤ seconds now).insertionSort
        fun a b => askedBefore env a b = true).take (max 1 cfg.maxPeersPerCycle)

def isSeedPeer (r : PeerRecord) : Prop := lowered env r.role = "seed"

instance (r : PeerRecord) : Decidable (isSeedPeer env r) := by
  unfold isSeedPeer
  infer_instance

/-- How long a failed peer cools down. -/
def cooldownSeconds (r : PeerRecord) (consecutiveFailures : Nat) (result : CallResult) : Int :=
  let cooldownS := if isSeedPeer env r then cfg.seedFailureCooldownS else cfg.relayFailureCooldownS
  if result.httpStatusCode = 429 then
    let failureCount := max r.failureCount.toNat consecutiveFailures
    max cooldownS (max result.retryAfterS (min 900 (60 * 2 ^ min failureCount 4)))
  else cooldownS

/-- What the log gains by a turn. -/
def turnEvents (r : PeerRecord) (t : Turn) : List SyncEvent :=
  .sent r.peerUrl t.sentAt ::
    match t.answer with
    | .status code retryAfter _ =>
      if code = 429 then
        match parseRetryAfterHeader env retryAfter t.answeredAt with
        | .ok seconds => [.limited r.peerUrl t.answeredAt seconds]
        | .error _ => []
      else []
    | _ => []

/-- The turns of a cycle, until a peer answers well or reports a fork. -/
def askPeers : List PeerRecord → List Turn → Node → Node
  | r :: peers, t :: turns, node =>
    let started := beginSync node.worker r.peerUrl t.sentAt
    let result := callResult env t.answeredAt t.answer
    let log := node.log ++ turnEvents env r t
    if result.ok then
      match modifyRecord env r.peerUrl (markSuccess t.storedAt) node.store with
      | .error _ => { node with worker := started, log := log, clock := t.storedAt }
      | .ok store => ⟨store, finishOk cfg started r.peerUrl t.storedAt, log, t.storedAt⟩
    else
      let cooldownS := cooldownSeconds env cfg r node.worker.consecutiveFailures result
      match modifyRecord env r.peerUrl (markFailure t.storedAt result.error cooldownS) node.store with
      | .error _ => { node with worker := started, log := log, clock := t.storedAt }
      | .ok store =>
        let failureBackoffS :=
          if isSeedPeer env r then max cfg.failureBackoffS (max 1 cooldownS) else cfg.failureBackoffS
        let updated := finishFailed started r.peerUrl result.error result.forked t.storedAt
          failureBackoffS result.retryAfterS
        let node := ⟨store, updated, log, t.storedAt⟩
        if result.forked then node else askPeers peers turns node
  | _, _, node => node

def runPublicSyncCycle (now : Time) (turns : List Turn) (node : Node) : Node :=
  match eligibleSyncPeers env cfg node.store now with
  | [] =>
    let worker := if cfg.privateTransportRequired then
        finishFailed node.worker ""
          "private Infonet requires onion/RNS transport; no clearnet sync fallback" false now
          cfg.failureBackoffS 0
      else finishSoloSync cfg node.worker now
    { node with worker := worker, clock := now }
  | peers => askPeers env cfg peers turns { node with clock := now }

/-! ## Refreshes and merges -/

/-- A peer of a bootstrap manifest. -/
structure ManifestPeer where
  peerUrl : String
  transport : String
  role : String
  label : String

/-- `make_sync_peer_record`, before it is normalized. -/
def makeRecord (bucket source : String) (now : Time) (signerId : String) (p : ManifestPeer) : PeerRecord where
  bucket := bucket
  source := source
  peerUrl := p.peerUrl
  transport := p.transport
  role := p.role
  label := p.label
  signerId := signerId
  addedAt := seconds now
  updatedAt := seconds now

/-- The upserts of records that are normalized first. Nothing is stored if one is refused. -/
def upsertAll (records : List PeerRecord) (store : PeerStore) : Except String PeerStore :=
  records.foldlM (fun store r => do return upsert (← normalizePeerRecord env r) store) store

/-- The peers that the transport policy allows. -/
def allowedPeers (peers : List ManifestPeer) : List ManifestPeer :=
  peers.filter fun p => cfg.privateTransportRequired = true → isPrivateTransport env p.transport

/-- What a refresh is given. -/
structure RefreshInput where
  /-- The configured relays, with the transport of each. -/
  operatorPeers : List ManifestPeer
  /-- The configured seeds that are no relays. -/
  seedPeers : List ManifestPeer
  /-- The peers and the signer of the manifest on disk, if it can be read. -/
  manifest : List ManifestPeer × String
  /-- The manifest that was fetched from a seed, unless the pull was skipped or failed. -/
  pulled : Option (List ManifestPeer × String)

/-- The records that `_refresh_node_peer_store` upserts, in order. -/
def refreshRecords (now : Time) (input : RefreshInput) : List PeerRecord :=
  ((allowedPeers env cfg input.operatorPeers).flatMap fun p =>
    [makeRecord "sync" "operator" now "" { p with role := "relay", label := "" },
      makeRecord "push" "operator" now "" { p with role := "relay", label := "" }]) ++
  ((allowedPeers env cfg input.seedPeers).flatMap fun p =>
    let seed := { p with role := "seed", label := "Vincent OS bootstrap seed" }
    [makeRecord "bootstrap" "bundle" now "vincent_os-bootstrap" seed,
      makeRecord "sync" "bundle" now "vincent_os-bootstrap" seed]) ++
  ((allowedPeers env cfg input.manifest.1).flatMap fun p =>
    [makeRecord "bootstrap" "bundle" now input.manifest.2 p,
      makeRecord "sync" "bootstrap_promoted" now input.manifest.2 p])

/-- The records of `_upsert_swarm_peer_into_store` for the peers of a manifest. -/
def swarmRecords (now : Time) (signerId : String) (peers : List ManifestPeer) : List PeerRecord :=
  (peers.filter fun p => cfg.privateTransportRequired = true → p.transport = "onion").flatMap fun p =>
    [makeRecord "sync" "swarm" now signerId p,
      makeRecord "push" "swarm" now "" { p with role := if p.role = "seed" then "relay" else p.role }]

/-- The records that stay when private transport is required. -/
def pruned (store : PeerStore) : PeerStore :=
  if cfg.privateTransportRequired then
    store.filter fun kv => isPrivateTransport env kv.2.transport
  else store

/-- What `refresh_swarm_manifest_from_seeds` leaves on disk, if it merged a manifest. -/
def mergePulled (now : Time) (input : RefreshInput) (store : PeerStore) : Option PeerStore :=
  input.pulled.bind fun pulled =>
    (upsertAll env (swarmRecords cfg now pulled.2 pulled.1) store).toOption

/-- `_refresh_node_peer_store`. After a pull the store is read again, as the pull left it. -/
def refreshNodePeerStore (now : Time) (input : RefreshInput) (store : PeerStore) : PeerStore :=
  match upsertAll env (refreshRecords env cfg now input) (pruned env cfg store) with
  | .error _ => store
  | .ok refreshed => (mergePulled env cfg now input store).getD refreshed

/-- `merge_manifest_into_peer_store`. The peers before one that is refused stay merged. -/
def mergeManifest (now : Time) (signerId : String) : List ManifestPeer → PeerStore → PeerStore
  | [], store => store
  | p :: peers, store =>
    match upsertAll env (swarmRecords cfg now signerId [p]) store with
    | .error _ => store
    | .ok merged => mergeManifest now signerId peers merged

inductive SyncAction where
  /-- The poll loop looks whether a cycle is due. -/
  | poll (now : Time) (turns : List Turn)
  | kick (now : Time) (turns : List Turn)
  | refresh (now : Time) (input : RefreshInput)
  | merge (now : Time) (signerId : String) (peers : List ManifestPeer)

def syncStep (node : Node) : SyncAction → Node
  | .poll now turns =>
    if shouldRunSync node.worker now then runPublicSyncCycle env cfg now turns node
    else { node with clock := now }
  | .kick now turns => runPublicSyncCycle env cfg now turns node
  | .refresh now input =>
    { node with store := refreshNodePeerStore env cfg now input node.store, clock := now }
  | .merge now signerId peers =>
    { node with store := mergeManifest env cfg now signerId peers node.store, clock := now }

/-! ## Patience -/

/-- A request does not come before a wait that its peer asked for is over. -/
def Waits : SyncEvent → SyncEvent → Prop
  | .limited p t r, .sent q u => p = q → t + r ≤ u
  | _, _ => True

/-- A peer that asked for patience got it. -/
def Patient (log : List SyncEvent) : Prop := log.Pairwise Waits

/-- The turns of a cycle follow one another. -/
def Ordered : Time → List Turn → Prop
  | _, [] => True
  | now, t :: turns => now ≤ t.sentAt ∧ t.sentAt ≤ t.answeredAt ∧ t.answeredAt ≤ t.storedAt ∧
    Ordered t.storedAt turns

/-- The times of an action do not go back. -/
def Timely (node : Node) : SyncAction → Prop
  | .poll now turns | .kick now turns => node.clock ≤ now ∧ Ordered now turns
  | .refresh now _ | .merge now _ _ => node.clock ≤ now

/-- The configured cooldown of a peer that answers a 429 is as long as what it asks for. -/
def CoolsDown (r : PeerRecord) (t : Turn) : Prop :=
  ∀ code retryAfter detail wait, t.answer = .status code retryAfter detail → code = 429 →
    parseRetryAfterHeader env retryAfter t.answeredAt = .ok wait →
    t.answeredAt + wait ≤ seconds t.storedAt +
      max 0 (if isSeedPeer env r then cfg.seedFailureCooldownS else cfg.relayFailureCooldownS)

/-- The peers of a cycle cool down long enough, and a refresh writes no seed anew that still waits. -/
def Honours (node : Node) : SyncAction → Prop
  | .poll now turns | .kick now turns =>
    ∀ rt ∈ (eligibleSyncPeers env cfg node.store now).zip turns, CoolsDown env cfg rt.1 rt.2
  | .refresh now input => mergePulled env cfg now input node.store = none →
    ∀ (p : String) (t : Time) (wait : Int), .limited p t wait ∈ node.log →
      (∃ r ∈ refreshRecords env cfg now input, ∃ r', normalizePeerRecord env r = .ok r' ∧
        explicitSeedRefresh r' ∧ r'.peerUrl = p) → t + wait ≤ now
  | .merge .. => True

/-- A node with an empty store. -/
def newNode : Node := ⟨[], {}, [], 0⟩

end Model

end Vincent.Sync
