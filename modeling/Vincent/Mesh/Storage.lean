-- SUMMARY: The chain file and the write-ahead log: flush, load, replay.
import Vincent.Mesh.Fork

/-!
# The ledger on disk

An append writes the write-ahead log, a flush writes the chain file and clears the log,
and `load` is the restart: it reads the file and then replays the log.

The write of the chain file goes through `orjson`, which is not part of the repository.
`Codec` says what a later `json.loads` reads back.
-/

namespace Vincent.Mesh

open Vincent.Python Vincent.Check

/-- The content of the chain file, with the cold segments that its metadata names. -/
structure ChainFile where
  headHash : String
  nodeSequences : String → Int
  sequenceDomains : String → Int
  coldSegments : List ColdSegment
  events : List ChainEvent

/-- What is read back of what `orjson.dumps` writes, or `none` when it raises. -/
structure Codec where
  roundTrip : ChainFile → Option ChainFile

/-- A file of JSON: absent, unreadable or of the wrong shape, or read. -/
inductive JsonFile (α : Type) where
  | missing
  | corrupt
  | content (a : α)

/-- The two files. The log holds the event of one append. -/
structure Disk where
  chainFile : JsonFile ChainFile := .missing
  wal : JsonFile ChainEvent := .missing

namespace Infonet

/-- The data that `_flush` writes. -/
def toFile (net : Infonet) : ChainFile where
  headHash := net.headHash
  nodeSequences := net.nodeSequences
  sequenceDomains := net.sequenceDomains
  coldSegments := net.coldSegments
  events := net.events

/-- `_flush`, when nothing runs beside it. -/
def flush (codec : Codec) (net : Infonet) (disk : Disk) : Infonet × Disk :=
  if net.dirty then
    match codec.roundTrip net.toFile with
    | none => (net, disk)
    | some file => ({ net with dirty := false }, { chainFile := .content file, wal := .missing })
  else (net, disk)

@[simp] theorem flush_events (codec : Codec) (net : Infonet) (disk : Disk) :
    (net.flush codec disk).1.events = net.events := by
  unfold flush
  split
  · split <;> rfl
  · rfl

@[simp] theorem flush_coldSegments (codec : Codec) (net : Infonet) (disk : Disk) :
    (net.flush codec disk).1.coldSegments = net.coldSegments := by
  unfold flush
  split
  · split <;> rfl
  · rfl

/-- `_reset_to_genesis`. The archived segments stay. -/
def resetToGenesis (call : Call) (net : Infonet) : Infonet :=
  { net with
    events := []
    headHash := genesisHash
    nodeSequences := fun _ => 0
    sequenceDomains := fun _ => 0
    eventIndex := fun _ => none
    publicKeyBindings := fun _ => ""
    revocations := fun _ => none
    replayFilter := .new call
    lastValidatedIndex := 0 }

/-- The ledger object with the content of a chain file assigned to it. -/
def assigned (call : Call) (file : ChainFile) : Infonet :=
  { empty call with
    events := file.events
    headHash := file.headHash
    nodeSequences := file.nodeSequences
    sequenceDomains := file.sequenceDomains
    coldSegments := file.coldSegments }

/-- The chain file part of `_load`. A file that cannot be used is set aside. -/
def loadChain (env : Env) (codec : Codec) (call : Call) (disk : Disk) : Infonet × Disk :=
  match disk.chainFile with
  | .missing => (empty call, disk)
  | .corrupt => (resetToGenesis call (empty call), { disk with chainFile := .missing })
  | .content file =>
    if file.events.all fun e => ChainEvent.hashMatches env call e then
      match rebuild env call (assigned call file) with
      | (net, .error _) => (resetToGenesis call net, { disk with chainFile := .missing })
      | (net, .ok ()) =>
        if maxChainMemory < net.events.length then flush codec net.enforceMemoryCap disk
        else (net, disk)
    else (resetToGenesis call (empty call), { disk with chainFile := .missing })

/-- `_replay_wal`, and what `_load` does with its exception. -/
def replayWal (env : Env) (codec : Codec) (call : Call) (net : Infonet) (disk : Disk) :
    Infonet × Disk :=
  let cleared := { disk with wal := .missing }
  match disk.wal with
  | .missing => (net, disk)
  | .corrupt => (resetToGenesis call net, cleared)
  | .content e =>
    if (net.eventIndex e.eventId).isSome then (net, cleared)
    else if e.prevHash ≠ net.headHash then (net, cleared)
    else
      match net.ingestEvents env call [.event e] with
      | (net, .error _) => (resetToGenesis call net, cleared)
      | (net, .ok result) =>
        if result.accepted = 0 then (resetToGenesis call net, cleared)
        else flush codec net disk

/-- `_load`: the restart, where some time may pass between the two parts. -/
def load (env : Env) (codec : Codec) (call call' : Call) (disk : Disk) : Infonet × Disk :=
  let (net, disk) := loadChain env codec call disk
  replayWal env codec call' net disk

end Infonet

end Vincent.Mesh
