-- SUMMARY: Rebuilding the tables, applying a fork, cleanup and reset.
import Vincent.Mesh.Ingest

/-!
# Replacing the hot chain

`apply_fork` cuts the chain at a known event and puts other events after it.
`cleanup` drops expired messages. Both rebuild every table from the events that
remain. `reset_chain` empties the ledger.

An exception can leave the rebuild half done, so it returns the ledger along with
its outcome.
-/

namespace Vincent.Mesh

open Vincent.Python Vincent.Check

def ephemeralTtl : ℚ := 86400

def messageRetentionDays : ℚ := 90

/-! ## Rebuilding the tables -/

namespace Infonet

/-- The index and the filter learn about the event. -/
def indexEvent (env : Env) (call : Call) (net : Infonet) (idx : Nat) (e : ChainEvent) : Infonet :=
  if e.eventId = "" then net else { net with
    eventIndex := Function.update net.eventIndex e.eventId (some idx)
    replayFilter := net.replayFilter.add env call.now e.eventId }

/-- The counter of the event rises to its sequence. -/
def raiseSequence (rt : Runtime) (net : Infonet) (e : ChainEvent) (sequence : Int) : Infonet :=
  let slot := sequenceTableForEvent rt e.eventType e.nodeId
  if e.nodeId ≠ "" ∧ sequence ≠ 0 ∧ net.lastSequence slot < sequence then
    net.setSequence slot sequence
  else net

/-- The first node that uses a key owns it. -/
def bindFirst (net : Infonet) (e : ChainEvent) : Infonet :=
  if e.publicKey ≠ "" ∧ e.nodeId ≠ "" ∧ net.publicKeyBindings e.publicKey = "" then
    net.setBinding e.publicKey e.nodeId
  else net

/-- One event of the loop of `_rebuild_state`. -/
def rebuildEvent (env : Env) (call : Call) (net : Infonet) (idx : Nat) (e : ChainEvent) :
    Infonet × Except String Unit :=
  let net := net.indexEvent env call idx e
  match e.seq env.rt with
  | .error exn => (net, .error exn)
  | .ok sequence =>
    let net := (net.raiseSequence env.rt e sequence).bindFirst e
    match net.applyIfRevocation env e with
    | .error exn => (net, .error exn)
    | .ok net => (net, .ok ())

def rebuildLoop (env : Env) (call : Call) :
    List ChainEvent → Nat → Infonet → Infonet × Except String Unit
  | [], _, net => (net, .ok ())
  | e :: es, idx, net =>
    match net.rebuildEvent env call idx e with
    | (net, .error exn) => (net, .error exn)
    | (net, .ok ()) => rebuildLoop env call es (idx + 1) net

/-- The tables before a rebuild: the replay domains of signed writes stay, other than
    the ones of gate messages. -/
def clearTables (call : Call) (net : Infonet) : Infonet :=
  { net with
    eventIndex := fun _ => none
    nodeSequences := fun _ => 0
    sequenceDomains := fun key =>
      if "|gate_message".toList.isSuffixOf key.toList then 0 else net.sequenceDomains key
    publicKeyBindings := fun _ => ""
    revocations := fun _ => none
    replayFilter := .new call }

/-- The id of the last event. -/
def lastEventId (events : List ChainEvent) : String :=
  (events.getLast?.map (·.eventId)).getD genesisHash

def rebuildState (env : Env) (call : Call) (net : Infonet) : Infonet × Except String Unit :=
  match rebuildLoop env call net.events 0 (net.clearTables call) with
  | (net, .error exn) => (net, .error exn)
  | (net, .ok ()) => ({ net with headHash := lastEventId net.events }, .ok ())

/-- A JSON number as a float. Anything else raises in arithmetic. -/
def numberOf (rt : Runtime) : PyVal → Except String PyFloat
  | .bool b => .ok (.finite (if b then 1 else 0))
  | .int n => match rt.floatOfInt n with
    | some q => .ok (.finite q)
    | none => .error "OverflowError"
  | .float x => .ok x
  | _ => .error "TypeError"

/-- `_rebuild_counters`, for its exceptions: it reads the age of ephemeral messages.
    The counters themselves are `Counters`. -/
def rebuildCounters (rt : Runtime) : List ChainEvent → Except String Unit
  | [] => .ok ()
  | e :: es => do
    let ephemeral := (Dict.get e.payload "ephemeral").or (Dict.get e.payload "_ephemeral")
    onlyIf ephemeral.truthy ((numberOf rt e.timestamp).map fun _ => ())
    rebuildCounters rt es

/-- `_rebuild_state`, `_rebuild_revocations` (which repeats a part of it) and
    `_rebuild_counters`. -/
def rebuild (env : Env) (call : Call) (net : Infonet) : Infonet × Except String Unit :=
  match rebuildState env call net with
  | (net, .error exn) => (net, .error exn)
  | (net, .ok ()) => (net, rebuildCounters env.rt net.events)

/-- A ledger that holds just these events. -/
def holding (env : Env) (call : Call) (events : List ChainEvent) : Infonet :=
  (rebuildState env call { empty call with events := events }).1

end Infonet

/-! ## `apply_fork` -/

/-- The loop of `_order_chain_from`. An event that leads back to an earlier one keeps
    it going until the memory is used up. -/
def followChain (events : List ChainEvent) : Nat → String → Except Fault (List ChainEvent)
  | 0, current =>
    if events.any fun e => e.prevHash == current then .error (.raised "MemoryError") else .ok []
  | fuel + 1, current =>
    match events.find? fun e => e.prevHash == current with
    | none => .ok []
    | some e =>
      if e.eventId = "" then .error (.invalid "non-contiguous fork")
      else do
        let rest ← followChain events fuel e.eventId
        return e :: rest

/-- `_order_chain_from`, where `apply_fork` turns `None` into an error. -/
def orderChainFrom (prevHash : String) (events : List ChainEvent) :
    Except Fault (List ChainEvent) := do
  require (∀ e ∈ events, e.prevHash ≠ "") (.invalid "non-contiguous fork")
  require ((events.map (·.prevHash)).Nodup) (.invalid "non-contiguous fork")
  let ordered ← followChain events events.length prevHash
  require (ordered.length = events.length) (.invalid "non-contiguous fork")
  return ordered

/-- The place of a fork: the index of the common ancestor, and its events in order. -/
structure ForkPlan where
  prevIndex : Nat
  ordered : List ChainEvent

/-- The checks of `apply_fork` on the shape of the fork. -/
def Infonet.planFork (net : Infonet) (events : List ChainEvent) (headHash : String)
    (proofCount quorum : Int) : Except Fault ForkPlan :=
  match events with
  | [] => .error (.invalid "empty fork")
  | first :: _ => do
    require (max 2 quorum ≤ proofCount) (.invalid "insufficient quorum")
    require (first.prevHash ≠ "") (.invalid "missing prev_hash")
    match net.eventIndex first.prevHash with
    | none => .error (.invalid "unknown ancestor")
    | some prevIndex =>
      let tail : Int := net.events.length - 1 - prevIndex
      require (tail ≤ chainLockDepth) (.invalid "chain lock prevents reorg")
      let ordered ← orderChainFrom first.prevHash events
      require (ordered ≠ []) (.invalid "non-contiguous fork")
      require ((ordered.getLast?.map (·.eventId)).getD "" = headHash) (.invalid "head_hash mismatch")
      require (tail < ordered.length) (.invalid "fork not longer")
      return ⟨prevIndex, ordered⟩

/-- The maps that `apply_fork` builds to check a fork against the prefix it keeps. The
    sequence map has one key for each counter, as text. -/
structure ForkMaps where
  lastSeq : String → Int := fun _ => 0
  seenPublicKeys : String → String := fun _ => ""

/-- The key of a counter in the sequence map. -/
def SequenceSlot.key : SequenceSlot → String
  | .node key => key
  | .domain key => key

/-- One event of the prefix enters the maps. -/
def ForkMaps.addPrefix (env : Env) (maps : ForkMaps) (e : ChainEvent) : Except String ForkMaps := do
  let sequence ← e.seq env.rt
  let key := (sequenceTableForEvent env.rt e.eventType e.nodeId).key
  let maps :=
    if e.nodeId ≠ "" ∧ sequence ≠ 0 then
      { maps with lastSeq := Function.update maps.lastSeq key (max (maps.lastSeq key) sequence) }
    else maps
  return if e.publicKey ≠ "" ∧ e.nodeId ≠ "" ∧ maps.seenPublicKeys e.publicKey = "" then
    { maps with seenPublicKeys := Function.update maps.seenPublicKeys e.publicKey e.nodeId }
  else maps

def ForkMaps.ofPrefix (env : Env) : List ChainEvent → ForkMaps → Except String ForkMaps
  | [], maps => .ok maps
  | e :: es, maps => do
    let maps ← maps.addPrefix env e
    ofPrefix env es maps

/-- The payload that `apply_fork` checks: a normalized copy, but for gate messages. -/
def forkPayload (env : Env) (e : ChainEvent) : Except Fault Dict :=
  if e.eventType = "gate_message" then .ok e.payload
  else orFail (normalizePayload env.rt e.eventType e.payload) .raised

/-- The key that an event of the fork has in the sequence map. -/
def forkSequenceKey (e : ChainEvent) : String :=
  if e.eventType = "gate_message" then e.nodeId ++ "|gate_message"
  else if e.eventType = "dm_message" then e.nodeId ++ "|dm_message"
  else e.nodeId

/-- The checks on one event of the fork, and the maps after it. -/
def Infonet.checkForkEvent (env : Env) (call : Call) (net : Infonet) (prevIndex : Nat)
    (maps : ForkMaps) (e : ChainEvent) : Except Fault ForkMaps := do
  let sequence ← orFail (e.seq env.rt) .raised
  require (e.eventType ∈ allowedEventTypes) (.invalid "unsupported event_type")
  require (¬ (e.eventId = "" ∨ e.nodeId = "")) (.invalid "missing fields")
  require (e.networkId = networkId) (.invalid "network mismatch")
  require ((net.eventIndex e.eventId).all fun idx => prevIndex < idx)
    (.invalid "duplicate event_id")
  let payload ← forkPayload env e
  validateEventPayload env.rt env.extensionValidators e.eventType payload
  validateLedgerPayload env e.eventType payload
  require (e.protocolVersion = "" ∨ e.protocolVersion = protocolVersion)
    (.invalid "unsupported protocol_version")
  require (¬ (e.signature = "" ∨ e.publicKey = "" ∨ e.publicKeyAlgo = ""))
    (.invalid "missing signature fields")
  require (¬ (net.revoked call.now e.publicKey ∧ e.eventType ≠ "key_revoke"))
    (.invalid "public key revoked")
  let key := forkSequenceKey e
  require (maps.lastSeq key < sequence) (.invalid "sequence replay")
  require (parsePublicKeyAlgo env.rt e.publicKeyAlgo ≠ "") (.invalid "unsupported public_key_algo")
  require (env.verifyNodeBinding e.nodeId e.publicKey) (.invalid "node_id mismatch")
  let existing := maps.seenPublicKeys e.publicKey
  require (¬ (existing ≠ "" ∧ existing ≠ e.nodeId)) (.invalid "public key binding conflict")
  let candidates ← orFail (signaturePayloads env.rt e.eventType payload) .raised
  let verified ← orFail (anySignatureVerifies env e sequence candidates) .raised
  require (verified = true) (.invalid "invalid signature")
  require (ChainEvent.hashMatches env call e) (.raised "ValueError")
  return {
    lastSeq := Function.update maps.lastSeq key sequence
    seenPublicKeys := Function.update maps.seenPublicKeys e.publicKey e.nodeId }

def Infonet.checkForkEvents (env : Env) (call : Call) (net : Infonet) (prevIndex : Nat) :
    List ChainEvent → ForkMaps → Except Fault ForkMaps
  | [], maps => .ok maps
  | e :: es, maps => do
    let maps ← net.checkForkEvent env call prevIndex maps e
    checkForkEvents env call net prevIndex es maps

/-- Every check of `apply_fork`. -/
def Infonet.checkFork (env : Env) (call : Call) (net : Infonet) (events : List ChainEvent)
    (headHash : String) (proofCount quorum : Int) : Except Fault ForkPlan := do
  let plan ← net.planFork events headHash proofCount quorum
  let kept := net.events.take (plan.prevIndex + 1)
  let maps ← orFail (ForkMaps.ofPrefix env kept {}) .raised
  let _ ← net.checkForkEvents env call plan.prevIndex plan.ordered maps
  return plan

namespace Infonet

/-- `apply_fork`. An exception of the rebuild leaves the new events in place. -/
def applyFork (env : Env) (call : Call) (net : Infonet) (events : List ChainEvent)
    (headHash : String) (proofCount quorum : Int) : Infonet × Except String (Bool × String) :=
  match net.checkFork env call events headHash proofCount quorum with
  | .error (.invalid reason) => (net, .ok (false, reason))
  | .error (.raised exn) => (net, .error exn)
  | .ok plan =>
    let forked := { net with events := net.events.take (plan.prevIndex + 1) ++ plan.ordered }
    match rebuild env call forked with
    | (net, .error exn) => (net, .error exn)
    | (net, .ok ()) => (net.invalidateMerkleCache.save, .ok (true, "applied"))

/-! ## `cleanup` and `reset_chain` -/

/-- `now - x > age` for a float `x`. -/
def olderThan (now age : ℚ) : PyFloat → Bool
  | .finite q => age < now - q
  | .negZero => age < now
  | .negInf => true
  | _ => false

/-- `cleanup` drops the event. -/
def expired (env : Env) (now : ℚ) (e : ChainEvent) : Except String Bool := do
  let ephemeral := Dict.get e.payload "ephemeral" (Dict.get e.payload "_ephemeral" (.bool false))
  let stamp ← numberOf env.rt e.timestamp
  return ephemeral.truthy &&
    (olderThan now ephemeralTtl stamp || olderThan now (messageRetentionDays * 86400) stamp)

/-- The events that `cleanup` keeps. -/
def unexpired (env : Env) (now : ℚ) : List ChainEvent → Except String (List ChainEvent)
  | [] => .ok []
  | e :: es => do
    let drop ← expired env now e
    let rest ← unexpired env now es
    return if drop then rest else e :: rest

def cleanup (env : Env) (call : Call) (net : Infonet) : Infonet × Except String Unit :=
  match unexpired env call.now net.events with
  | .error exn => (net, .error exn)
  | .ok kept =>
    if kept.length = net.events.length then (net, .ok ())
    else
      match rebuild env call { net with events := kept } with
      | (net, .error exn) => (net, .error exn)
      | (net, .ok ()) => (net.invalidateMerkleCache.save, .ok ())

/-- `reset_chain`, before its flush. The archived segments stay. -/
def resetChain (call : Call) (net : Infonet) : Infonet :=
  { net with
    events := []
    headHash := genesisHash
    nodeSequences := fun _ => 0
    sequenceDomains := fun _ => 0
    eventIndex := fun _ => none
    publicKeyBindings := fun _ => ""
    revocations := fun _ => none
    replayFilter := .new call
    lastValidatedIndex := 0
    dirty := true }

end Infonet

end Vincent.Mesh
