-- SUMMARY: What a node serves to a peer that syncs.
import Vincent.General.MerkleTree
import Vincent.Mesh.Ingest

/-!
# The sync endpoint

A peer sends a locator, a list of event ids from its head backwards, and gets the
page of events after the first id that the node knows. The page is cut first, and
redacted for the transport that the request came over afterwards.
-/

namespace Vincent.Mesh

open Vincent.Python Vincent.Check

/-! ## Merkle proofs -/

def hashLeaf (env : Env) (value : String) : String := env.sha256 value

def hashPair (env : Env) (left right : String) : String := env.sha256 (left ++ right)

def buildMerkleLevels (env : Env) (leaves : List String) : List (List String) :=
  if leaves = [] then [] else Merkle.levels (hashPair env) (leaves.map (hashLeaf env))

/-- `merkle_proof_from_levels`, or `none` for an `IndexError`. -/
def merkleProofFromLevels (levels : List (List String)) (index : Nat) :
    Option (List (String × Merkle.Side)) :=
  match levels with
  | [] => some []
  | level :: _ => if level.length ≤ index then some [] else Merkle.proof? levels index

/-- `verify_merkle_proof`. The sides are in the proof, so the index plays no part. -/
def verifyMerkleProof (env : Env) (leafValue : String) (_index : Nat)
    (proof : List (String × Merkle.Side)) (root : String) : Bool :=
  Merkle.fold (hashPair env) (hashLeaf env leafValue) proof == root

/-- A proof of one event. -/
structure MerkleProof where
  index : Nat
  leaf : String
  proof : List (String × Merkle.Side)
deriving DecidableEq, Repr

/-- The part of a page that `include_proofs` adds. -/
structure MerkleProofs where
  root : String
  total : Nat
  start : Nat
  proofs : List MerkleProof
deriving DecidableEq, Repr

namespace Infonet

/-- `_get_merkle_levels`. The cache is trusted when it counts as many events. -/
def getMerkleLevels (env : Env) (net : Infonet) : Infonet × List (List String) :=
  let rebuild :=
    let levels := buildMerkleLevels env (net.events.map (·.eventId))
    ({ net with merkleLevelsCache := some levels
                merkleLevelsForEventCount := net.events.length }, levels)
  match net.merkleLevelsCache with
  | some levels =>
    if net.merkleLevelsForEventCount = net.events.length then (net, levels) else rebuild
  | none => rebuild

/-- `levels[-1][0]`, or the genesis hash. -/
def rootOfLevels (levels : List (List String)) : String :=
  (Merkle.root? levels).getD genesisHash

def getMerkleRoot (env : Env) (net : Infonet) : Infonet × String :=
  if net.events = [] then (net, genesisHash)
  else
    let (net, levels) := net.getMerkleLevels env
    let root := rootOfLevels levels
    (net, if root = "" then genesisHash else root)

/-- `get_merkle_proofs`, or `none` for an `IndexError`. -/
def getMerkleProofs (env : Env) (net : Infonet) (startIndex count : Nat) :
    Infonet × Option MerkleProofs :=
  let total := net.events.length
  if total = 0 then (net, some { root := genesisHash, total := 0, start := 0, proofs := [] })
  else
    let stop := min total (startIndex + count)
    let (net, levels) := net.getMerkleLevels env
    let proofs := (List.range' startIndex (stop - startIndex)).mapM fun idx => do
      let e ← net.events[idx]?
      let proof ← merkleProofFromLevels levels idx
      return { index := idx, leaf := e.eventId, proof := proof : MerkleProof }
    (net, proofs.map fun proofs =>
      { root := rootOfLevels levels, total := total, start := startIndex, proofs := proofs })

/-! ## Locators -/

/-- The loop of `get_locator`, with the entries that there is room for. -/
def locatorLoop (events : List ChainEvent) : Nat → Int → Int → Nat → List String
  | 0, _, _, _ => []
  | room + 1, idx, step, count =>
    if idx < 0 then []
    else
      match events[idx.toNat]? with
      | none => []
      | some e =>
        let step := if 9 ≤ count then step * 2 else step
        e.eventId :: locatorLoop events room (idx - step) step (count + 1)

/-- `get_locator`: the newest ids one by one, then in growing steps, and the genesis. -/
def getLocator (net : Infonet) (maxEntries : Nat := 32) : List String :=
  if net.events = [] then [genesisHash]
  else locatorLoop net.events (maxEntries - 1) (net.events.length - 1) 1 0 ++ [genesisHash]

/-- The locator of a chain names its head first and the genesis last. -/
theorem getLocator_concat {net : Infonet} {es : List ChainEvent} {e : ChainEvent}
    (h : net.events = es ++ [e]) :
    ∃ ids, net.getLocator = e.eventId :: (ids ++ [genesisHash]) := by
  have hlen : (net.events.length : Int) - 1 = es.length := by simp [h]
  have hlast : net.events[es.length]? = some e := by simp [h]
  refine ⟨locatorLoop net.events 30 (es.length - 1) 1 1, ?_⟩
  unfold getLocator
  rw [if_neg (by simp [h]), hlen, locatorLoop, if_neg (by omega)]
  simp [hlast]

/-- The loop of `get_events_after_locator`. -/
def matchLocator (net : Infonet) (limit : Nat) : List String → String × Int × List ChainEvent
  | [] => ("", -1, [])
  | hsh :: rest =>
    if hsh = genesisHash then (genesisHash, 0, net.events.take limit)
    else
      match net.eventIndex hsh with
      | some idx => (hsh, idx + 1, (net.events.drop (idx + 1)).take limit)
      | none => net.matchLocator limit rest

theorem matchLocator_of_unknown (net : Infonet) (h : ∀ id, net.eventIndex id = none) (limit : Nat)
    (ids : List String) :
    net.matchLocator limit (ids ++ [genesisHash]) = (genesisHash, 0, net.events.take limit) := by
  induction ids with
  | nil => simp [matchLocator]
  | cons id ids ih =>
    simp only [List.cons_append, matchLocator, h id, ih]
    split <;> rfl

def getEventsAfterLocator (net : Infonet) (locator : List String) (limit : Nat) :
    String × Int × List ChainEvent :=
  net.matchLocator limit (if locator = [] then [genesisHash] else locator)

end Infonet

/-! ## Redaction -/

def gateRedactFields : List String := ["sender_ref", "epoch", "nonce"]

def keyRotateRedactFields : List String :=
  ["old_node_id", "old_public_key", "old_public_key_algo", "old_signature"]

/-- The event without some fields of its payload. -/
def ChainEvent.popPayload (e : ChainEvent) (fields : List String) : ChainEvent :=
  { e with payload := fields.foldl Dict.pop e.payload }

/-- `_redact_gate_metadata`. A removed field reads as empty. -/
def redactGateMetadata (e : ChainEvent) : ChainEvent :=
  if e.eventType = "gate_message" then
    { e with nodeId := "", sequence := .none }.popPayload gateRedactFields
  else e

def redactKeyRotatePayload (e : ChainEvent) : ChainEvent :=
  if e.eventType = "key_rotate" then e.popPayload keyRotateRedactFields else e

def redactVoteGate (e : ChainEvent) : ChainEvent :=
  if e.eventType = "vote" then e.popPayload ["gate"] else e

def redactPublicEvent (e : ChainEvent) : ChainEvent :=
  redactVoteGate (redactKeyRotatePayload (redactGateMetadata e))

/-- The events that only travel over a private transport. -/
def ChainEvent.isPrivate (e : ChainEvent) : Bool :=
  e.eventType = "gate_message" || e.eventType = "dm_message"

def infonetSyncResponseEvents (includePrivate : Bool) (events : List ChainEvent) :
    List ChainEvent :=
  events.filterMap fun e =>
    if e.isPrivate then (if includePrivate then some e else none)
    else some (redactPublicEvent e)

/-! ## The endpoint -/

/-- The body and the surroundings of a request. -/
structure SyncRequest where
  protocolVersion : String := Mesh.protocolVersion
  /-- `none` when the locator is no list. -/
  locator : Option (List String)
  expectedHead : String := ""
  limit : Option PyVal := none
  queryLimit : Nat := 100
  includeProofs : Bool := false
  /-- `_request_appears_private_infonet_transport`. -/
  privateTransport : Bool

structure SyncPage where
  events : List ChainEvent
  matchedHash : String
  forked : Bool
  headHash : String
  count : Nat
  protocolVersion : String
  merkle : Option MerkleProofs

/-- The answers of the endpoint, by their status. -/
inductive SyncAnswer where
  | ok (page : SyncPage)
  | locatorNotList
  | unsupportedProtocol
  | headMismatch (headHash expectedHead : String)
  /-- Status 500: the handler raised, or its result could not be written as JSON. -/
  | failed (exn : String)

/-- The response encoder refuses infinities and NaN. -/
def ChainEvent.compliant (e : ChainEvent) : Bool :=
  (PyVal.dict e.payload).compliant && e.timestamp.compliant && e.sequence.compliant &&
    (PyVal.dict e.extra).compliant

/-- The limit that the endpoint uses. -/
def SyncRequest.pageLimit (rt : Runtime) (request : SyncRequest) : Nat :=
  match request.limit with
  | none => request.queryLimit
  | some limit =>
    match safeInt rt limit 0 with
    | .ok n => (max 1 (min 500 n)).toNat
    | .error _ => request.queryLimit

/-- The proofs of a page that starts at the given position, or the root alone when
    no position matched. -/
def Infonet.pageProofs (env : Env) (net : Infonet) (startIndex : Int) (count : Nat) :
    Infonet × Option MerkleProofs :=
  if 0 ≤ startIndex then net.getMerkleProofs env startIndex.toNat count
  else
    let (net, root) := net.getMerkleRoot env
    (net, some { root := root, total := net.events.length, start := 0, proofs := [] })

def infonetSyncPost (env : Env) (net : Infonet) (request : SyncRequest) : Infonet × SyncAnswer :=
  if request.protocolVersion ≠ "" ∧ request.protocolVersion ≠ Mesh.protocolVersion then
    (net, .unsupportedProtocol)
  else
    match request.locator with
    | none => (net, .locatorNotList)
    | some locator =>
      if request.expectedHead ≠ "" ∧ request.expectedHead ≠ net.headHash then
        (net, .headMismatch net.headHash request.expectedHead)
      else
        let (matchedHash, startIndex, found) :=
          net.getEventsAfterLocator locator (request.pageLimit env.rt)
        let forked := matchedHash = "" || (matchedHash = genesisHash && 1 < locator.length)
        let events := infonetSyncResponseEvents request.privateTransport found
        let page : SyncPage := {
          events := events
          matchedHash := matchedHash
          forked := forked
          headHash := net.headHash
          count := events.length
          protocolVersion := Mesh.protocolVersion
          merkle := none }
        let rendered (page : SyncPage) : SyncAnswer :=
          if events.all (·.compliant) then .ok page else .failed "ValueError"
        if request.includeProofs then
          match net.pageProofs env startIndex events.length with
          | (net, none) => (net, .failed "IndexError")
          | (net, some proofs) => (net, rendered { page with merkle := some proofs })
        else (net, rendered page)

end Vincent.Mesh
