-- SUMMARY: The files of the gate store: segments, manifests, stamps, reload.
import Vincent.General.SegmentedLog
import Vincent.Mesh.GateReplay

/-!
# The files of the gate store

New events are appended to the segmented log of a gate, and a stamp of decrypted text
rewrites it. Any write of a file may raise, which leaves the files written before it.
`load` is a fresh store.

A full segment whose hash is unchanged is not written again by the program; here it is,
with the content it has.
-/

namespace Vincent.Mesh

open Vincent.Python Vincent.Check Vincent.Run

/-- The event as a `dict`. -/
def GateEvent.toDict (e : GateEvent) : Dict :=
  [("event_id", .str e.eventId),
    ("event_type", .str "gate_message"),
    ("timestamp", .float e.timestamp),
    ("node_id", .str e.nodeId),
    ("sequence", .int e.sequence),
    ("signature", .str e.signature),
    ("public_key", .str e.publicKey),
    ("public_key_algo", .str e.publicKeyAlgo),
    ("protocol_version", .str e.protocolVersion),
    ("payload", .dict e.payload)]

/-- `_sanitize_private_gate_event` on a stored event. -/
def GateEvent.clean (env : Env) (gateId : String) (e : GateEvent) : Except String GateEvent :=
  Gate.sanitize env.rt gateId e.toDict

/-- When a segment is full. -/
structure SegmentLimits where
  /-- `GATE_SEGMENT_EVENT_TARGET`. -/
  eventTarget : Nat
  /-- `GATE_SEGMENT_MAX_COMPRESSED_BYTES`. -/
  maxCompressedBytes : Nat
  /-- The length of the events, compressed and in base64. -/
  compressedLength : List GateEvent → Nat

namespace SegmentLimits

def countFull (limits : SegmentLimits) (events : List GateEvent) : Bool :=
  limits.eventTarget < events.length

def full (limits : SegmentLimits) (events : List GateEvent) : Bool :=
  limits.countFull events || limits.maxCompressedBytes < limits.compressedLength events

end SegmentLimits

/-! ## Writing -/

/-- The domain directory: the log of each gate, and the gates that have a manifest. -/
structure GateDisk where
  logs : String → SegmentedLog GateEvent := fun _ => {}
  manifests : List String := []

namespace GateDisk

/-- `write_domain_json` for a file of a gate. -/
def write (gateId : String) (disk : GateDisk) (w : FileWrite GateEvent) : GateDisk where
  logs := Function.update disk.logs gateId ((disk.logs gateId).write w)
  manifests :=
    match w with
    | .segment _ _ => disk.manifests
    | .manifest _ => disk.manifests.insert gateId

/-- The writes up to the one that raises, and whether all were made. -/
def writes (disk : GateDisk) (gateId : String) (ws : List (FileWrite GateEvent))
    (raisesAt : Option Nat) : GateDisk × Bool :=
  let made := match raisesAt with
    | none => ws
    | some n => ws.take n
  (made.foldl (write gateId) disk, made.length = ws.length)

/-- The writes of `_persist_gate`. -/
def persistGate (env : Env) (limits : SegmentLimits) (gateId : String) (events : List GateEvent) :
    Except String (List (FileWrite GateEvent)) := do
  let cleaned ← events.mapM (GateEvent.clean env gateId)
  return SegmentedLog.rewriteWrites limits.countFull cleaned

/-- The writes of `_persist_gate_new_events`. `held` is what the memory has for the gate. -/
def persistGateNewEvents (env : Env) (limits : SegmentLimits) (disk : GateDisk) (gateId : String)
    (held new : List GateEvent) : Except String (List (FileWrite GateEvent)) := do
  let cleaned ← new.mapM (GateEvent.clean env gateId)
  if gateId = "" || cleaned.isEmpty then return []
  match (disk.logs gateId).manifest with
  | none => persistGate env limits gateId (held ++ cleaned)
  | some numbers =>
    match numbers.getLast? with
    | none => return SegmentedLog.continueWrites limits.full [] 0 [] cleaned
    | some no =>
      let current := (disk.logs gateId).segments no
      if current.isEmpty then persistGate env limits gateId (held ++ cleaned)
      else return SegmentedLog.continueWrites limits.full numbers.dropLast no current cleaned

/-- Make planned writes. An exception before the first write leaves the files alone. -/
def persist (disk : GateDisk) (gateId : String)
    (plan : Except String (List (FileWrite GateEvent))) (raisesAt : Option Nat) : GateDisk × Bool :=
  match plan with
  | .error _ => (disk, false)
  | .ok ws => disk.writes gateId ws raisesAt

end GateDisk

/-! ## Loading -/

namespace GateStore

/-- One event of `_load_segmented_gates`. -/
def loadEvent (env : Env) (store : GateStore) (e : GateEvent) : Except String GateStore :=
  let gateId := Gate.gateKey env.rt (Dict.text env.rt e.payload "gate")
  if gateId = "" then .ok store
  else do
    let clean ← e.clean env gateId
    let event := if strip clean.eventId = "" then
        { clean with eventId := Gate.synthEventId env gateId clean }
      else clean
    let fingerprint := Gate.replayFingerprint env gateId event.timestamp event.payload
    if store.knowsFingerprint fingerprint then return store
    if event.eventId ≠ "" ∧ store.knowsId event.eventId then return store
    return {
      store with
      gates := Function.update store.gates gateId (store.gates gateId ++ [event])
      eventIndex := (event.eventId, event) :: store.eventIndex
      replayIndex := (fingerprint, event) :: store.replayIndex }

/-- `_load`: the manifests by file name, which holds the hash of the gate. -/
def load (env : Env) (now : ℚ) (disk : GateDisk) : Except String GateStore := do
  let gateIds := disk.manifests.insertionSort fun a b => env.sha256 a ≤ env.sha256 b
  let store ← (gateIds.flatMap fun gateId => (disk.logs gateId).stored).foldlM (loadEvent env) {}
  return { store.pruneReplayIndex now with gates := fun gateId => sortGate (store.gates gateId) }

end GateStore

/-! ## Stamping -/

/-- The decrypted text on an event. -/
def GateEvent.stamp (e : GateEvent) (plaintext replyTo : String) : GateEvent :=
  let stamped := Dict.set e.payload "_local_plaintext" (.str plaintext)
  { e with
    payload := if replyTo = "" then stamped
      else Dict.set stamped "_local_reply_to" (.str replyTo) }

/-- The stamp on the event of this id. -/
def GateEvent.stampIf (eventId plaintext replyTo : String) (e : GateEvent) : GateEvent :=
  if e.eventId = eventId then e.stamp plaintext replyTo else e

/-- The gates and the two indexes share their events. -/
def GateStore.stampEvent (store : GateStore) (eventId plaintext replyTo : String) : GateStore :=
  { store with
    gates := fun gateId => (store.gates gateId).map (GateEvent.stampIf eventId plaintext replyTo)
    eventIndex := store.eventIndex.map (Prod.map id (GateEvent.stampIf eventId plaintext replyTo))
    replayIndex := store.replayIndex.map (Prod.map id (GateEvent.stampIf eventId plaintext replyTo)) }

/-- The event that `stamp_local_plaintext` finds. -/
def GateStore.stampTarget (env : Env) (store : GateStore) (gateId eventId plaintext : String) :
    Option GateEvent :=
  if Gate.gateKey env.rt gateId = "" ∨ strip eventId = "" ∨ plaintext = "" then none
  else store.eventIndex.lookup (strip eventId)

/-- The event carries decrypted text. -/
def GateEvent.isStamped (e : GateEvent) : Bool := (Dict.get e.payload "_local_plaintext").truthy

/-! ## A store with its files -/

namespace GateAction

def gateId : GateAction → String
  | .append _ gateId _ => gateId
  | .ingest _ gateId _ => gateId

/-- The call, where the write to disk ends so. -/
def withPersisted (persisted : Bool) : GateAction → GateAction
  | .append call gateId event => .append { call with persisted } gateId event
  | .ingest call gateId events => .ingest { call with persisted } gateId events

/-- The events that the call writes to disk. -/
def candidates (env : Env) (store : GateStore) : GateAction → List (GateEvent × String)
  | .append _ gateId event =>
    let gateId := Gate.gateKey env.rt gateId
    if gateId = "" then []
    else match GateStore.cleanEvent env gateId event with
    | .error _ => []
    | .ok clean =>
      let fingerprint := Gate.replayFingerprint env gateId clean.timestamp clean.payload
      if store.knowsFingerprint fingerprint || store.knowsId clean.eventId then []
      else [(clean, fingerprint)]
  | .ingest call gateId events =>
    let gateId := Gate.gateKey env.rt gateId
    if gateId = "" then []
    else match events.foldlM (GateStore.screen env call store gateId) {} with
    | .error _ => []
    | .ok batch => batch.candidates

end GateAction

/-- A store with its files, and beside it the ids of calls that raised and of stamps that
succeeded. -/
structure GateNode where
  store : GateStore := {}
  disk : GateDisk := {}
  raised : List String := []
  stamped : List String := []

/-- A call on the store, and which of its writes raises. -/
inductive FiledAction where
  | post (a : GateAction) (raisesAt : Option Nat)
  | stampLocalPlaintext (gateId eventId plaintext replyTo : String) (raisesAt : Option Nat)

def filedStep (env : Env) (limits : SegmentLimits) (node : GateNode) : FiledAction → GateNode
  | .post a raisesAt =>
    let gateId := Gate.gateKey env.rt a.gateId
    let new := (a.candidates env node.store).map Prod.fst
    let (disk, persisted) := node.disk.persist gateId
      (node.disk.persistGateNewEvents env limits gateId (node.store.gates gateId) new) raisesAt
    { node with
      store := gateStep env node.store (a.withPersisted persisted)
      disk
      raised := if persisted then node.raised
        else node.raised ++ new.map GateEvent.eventId }
  | .stampLocalPlaintext gateId eventId plaintext replyTo raisesAt =>
    match node.store.stampTarget env gateId eventId plaintext with
    | none => node
    | some e =>
      if e.isStamped then { node with stamped := node.stamped ++ [e.eventId] }
      else
        -- the memory is stamped before the gate of the caller is written
        let store := node.store.stampEvent (strip eventId) plaintext replyTo
        let gateId := Gate.gateKey env.rt gateId
        let (disk, persisted) := node.disk.persist gateId
          (GateDisk.persistGate env limits gateId (store.gates gateId)) raisesAt
        { node with
          store
          disk
          stamped := if persisted then node.stamped ++ [e.eventId] else node.stamped
          raised := if persisted then node.raised else node.raised ++ [e.eventId] }

end Vincent.Mesh
