-- SUMMARY: The segment files of a gate, over every run of persists.
import Vincent.General.LinkedChain
import Vincent.Mesh.GateDurable

/-!
# Gate segments

What `_persist_gate` and `_persist_gate_new_events` write, with the hashes that chain
the segments. An append opens the last segment again, and starts the next one when it
is full.

Files are named by the digest of the gate and a number, so a file is given by its
number here.
-/

namespace Vincent.Mesh

open Vincent.Python Vincent.Check

/-! ## Model -/

/-- A segment without its hash. The version, the storage, the codec and the encoding are constants. -/
structure SegmentMaterial where
  gateDigest : String
  segmentNo : Nat
  prevSegmentHash : String
  count : Nat
  firstEventId : String
  lastEventId : String
  eventsB64 : String

structure SegmentPayload extends SegmentMaterial where
  segmentHash : String

/-- How events become text, and how a segment is hashed. -/
structure SegmentCodec where
  /-- `_encode_segment_events`. -/
  encode : List GateEvent → String
  /-- `_decode_segment_events`, of the text. -/
  decode : String → List GateEvent
  /-- `_segment_material_hash`. -/
  materialHash : SegmentMaterial → String
  /-- The event is the same after it was written and read as JSON. -/
  storable : GateEvent → Prop
  decode_encode : ∀ events, (∀ e ∈ events, storable e) → decode (encode events) = events
  /-- The hash does not collide. -/
  materialHash_events : ∀ a b, materialHash a = materialHash b → a.eventsB64 = b.eventsB64

/-- The gate and its digest, `GATE_SEGMENT_EVENT_TARGET` and `GATE_SEGMENT_MAX_COMPRESSED_BYTES`. -/
structure SegmentEnv extends SegmentCodec where
  env : Env
  gateKey : String
  gateDigest : String
  eventTarget : Nat
  maxCompressedBytes : Nat
  eventTarget_pos : 1 ≤ eventTarget
  maxCompressedBytes_pos : 1 ≤ maxCompressedBytes
  clean_storable : ∀ e e', storable e → GateEvent.clean env gateKey e = .ok e' → storable e'

/-- An entry of `segments` in a manifest, whose file has the number of the segment. -/
structure SegmentMeta where
  segmentNo : Nat
  count : Nat
  firstEventId : String
  lastEventId : String
  prevSegmentHash : String
  segmentHash : String

/-- A manifest, without the time of its update. -/
structure GateManifest where
  gateDigest : String
  segmentEventTarget : Nat
  segmentMaxCompressedBytes : Nat
  totalEvents : Nat
  segmentCount : Nat
  headSegmentHash : String
  segments : List SegmentMeta

/-- The files of a gate, and in `passed`, which is no file, the events since the last full
rewrite. -/
structure GateSegments where
  manifest : Option GateManifest := none
  files : Nat → Option SegmentPayload := fun _ => none
  passed : List GateEvent := []

namespace GateSegments

variable (senv : SegmentEnv)

def buildSegmentPayload (gateDigest : String) (segmentNo : Nat) (events : List GateEvent)
    (prevSegmentHash : String) : SegmentPayload :=
  let material : SegmentMaterial := {
    gateDigest, segmentNo, prevSegmentHash
    count := events.length
    firstEventId := (events.head?.map GateEvent.eventId).getD ""
    lastEventId := (events.getLast?.map GateEvent.eventId).getD ""
    eventsB64 := senv.encode events }
  { material with segmentHash := senv.materialHash material }

/-- `_segment_meta_from_payload`. -/
def metaOf (payload : SegmentPayload) : SegmentMeta where
  segmentNo := payload.segmentNo
  count := payload.count
  firstEventId := payload.firstEventId
  lastEventId := payload.lastEventId
  prevSegmentHash := payload.prevSegmentHash
  segmentHash := payload.segmentHash

/-- The events of `_read_segment_file`. A file whose hash does not match reads as empty. -/
def readSegmentFile (files : Nat → Option SegmentPayload) (no : Nat) :
    Option SegmentPayload × List GateEvent :=
  match files no with
  | none => (none, [])
  | some payload =>
    if payload.segmentHash ≠ "" ∧ payload.segmentHash ≠ senv.materialHash payload.toSegmentMaterial then
      (none, [])
    else (some payload, senv.decode payload.eventsB64)

def makeManifest (gateDigest : String) (totalEvents : Nat) (headSegmentHash : String)
    (segments : List SegmentMeta) : GateManifest where
  gateDigest := gateDigest
  segmentEventTarget := senv.eventTarget
  segmentMaxCompressedBytes := senv.maxCompressedBytes
  totalEvents := totalEvents
  segmentCount := segments.length
  headSegmentHash := headSegmentHash
  segments := segments

/-- The loop variables of `_persist_gate`. -/
structure Rewriting where
  files : Nat → Option SegmentPayload
  segments : List SegmentMeta := []
  prevHash : String := ""

/-- One chunk of a rewrite. -/
def Rewriting.chunk (gateDigest : String) (events : List GateEvent) (r : Rewriting)
    (segmentNo : Nat) : Rewriting :=
  let payload := buildSegmentPayload senv gateDigest segmentNo
    ((events.drop (segmentNo * senv.eventTarget)).take senv.eventTarget) r.prevHash
  { files := Function.update r.files segmentNo (some payload)
    segments := r.segments ++ [metaOf payload]
    prevHash := payload.segmentHash }

/-- `len(range(0, len(clean_events), GATE_SEGMENT_EVENT_TARGET))`. -/
def chunkCount (events : List GateEvent) : Nat :=
  (events.length + (senv.eventTarget - 1)) / senv.eventTarget

/-- `_persist_gate`. Files that only the old manifest lists are removed. -/
def persistGate (events : List GateEvent) (disk : GateSegments) : Except String GateSegments :=
  if senv.gateKey = "" then .ok disk
  else do
    let cleanEvents ← events.mapM (GateEvent.clean senv.env senv.gateKey)
    let oldNumbers := ((disk.manifest.map GateManifest.segments).getD []).map SegmentMeta.segmentNo
    let count := chunkCount senv cleanEvents
    let r := (List.range count).foldl (Rewriting.chunk senv senv.gateDigest cleanEvents) { files := disk.files }
    return {
      manifest := some (makeManifest senv senv.gateDigest cleanEvents.length r.prevHash r.segments)
      files := fun no => if no ∈ oldNumbers ∧ ¬ no < count then none else r.files no
      passed := cleanEvents }

/-- The loop variables of `_persist_gate_new_events`. -/
structure Appending where
  files : Nat → Option SegmentPayload
  segments : List SegmentMeta
  segmentNo : Nat
  eventsForSegment : List GateEvent
  prevForSegment : String

/-- `segments[-1] = meta` where the last entry is that of the segment, else `segments.append(meta)`. -/
def putMeta (segments : List SegmentMeta) (segmentNo : Nat) (entry : SegmentMeta) : List SegmentMeta :=
  if (segments.getLast?.map SegmentMeta.segmentNo) = some segmentNo then segments.dropLast ++ [entry]
  else segments ++ [entry]

/-- Close the segment. Where the manifest has it already, the file is not written again. -/
def Appending.flush (gateDigest : String) (a : Appending) : Appending :=
  let payload := buildSegmentPayload senv gateDigest a.segmentNo a.eventsForSegment a.prevForSegment
  let existingMetaMatches := a.segments.getLast?.any fun entry =>
    entry.segmentNo = a.segmentNo && entry.segmentHash = payload.segmentHash
  if existingMetaMatches then
    { a with prevForSegment := payload.segmentHash, segmentNo := a.segmentNo + 1, eventsForSegment := [] }
  else
    { files := Function.update a.files a.segmentNo (some payload)
      segments := putMeta a.segments a.segmentNo (metaOf payload)
      segmentNo := a.segmentNo + 1
      eventsForSegment := []
      prevForSegment := payload.segmentHash }

/-- What the loop does to take the next event. A segment that begins takes it whatever its size. -/
def Appending.take (gateDigest : String) (a : Appending) (event : GateEvent) : Appending :=
  let candidate := a.eventsForSegment ++ [event]
  let payload := buildSegmentPayload senv gateDigest a.segmentNo candidate a.prevForSegment
  if a.eventsForSegment ≠ [] ∧
      (senv.eventTarget < candidate.length ∨ senv.maxCompressedBytes < payload.eventsB64.length) then
    { a.flush senv gateDigest with eventsForSegment := [event] }
  else { a with eventsForSegment := candidate }

/-- The loop over the new events, and the writes after it. -/
def appendEvents (gateDigest : String) (manifest : GateManifest) (a : Appending)
    (cleanNewEvents passed : List GateEvent) : GateSegments :=
  let a := cleanNewEvents.foldl (Appending.take senv gateDigest) a
  let payload := buildSegmentPayload senv gateDigest a.segmentNo a.eventsForSegment a.prevForSegment
  { manifest := some (makeManifest senv gateDigest (manifest.totalEvents + cleanNewEvents.length)
      payload.segmentHash (putMeta a.segments a.segmentNo (metaOf payload)))
    files := Function.update a.files a.segmentNo (some payload)
    passed := passed ++ cleanNewEvents }

/-- `_persist_gate_new_events`. `held` is what the memory has for the gate. -/
def persistGateNewEvents (held newEvents : List GateEvent) (disk : GateSegments) :
    Except String GateSegments := do
  let cleanNewEvents ← newEvents.mapM (GateEvent.clean senv.env senv.gateKey)
  if senv.gateKey = "" || cleanNewEvents.isEmpty then return disk
  match disk.manifest with
  | none => persistGate senv (held ++ cleanNewEvents) disk
  | some manifest =>
    match manifest.segments.getLast? with
    | none =>
      let fresh : Appending := {
        files := disk.files, segments := [], segmentNo := 0, eventsForSegment := [], prevForSegment := "" }
      return appendEvents senv senv.gateDigest manifest fresh cleanNewEvents disk.passed
    | some lastMeta =>
      let (segmentPayload, eventsForSegment) := readSegmentFile senv disk.files lastMeta.segmentNo
      let prevForSegment := match segmentPayload with
        | some payload =>
          if payload.prevSegmentHash = "" then lastMeta.prevSegmentHash else payload.prevSegmentHash
        | none => lastMeta.prevSegmentHash
      if eventsForSegment.isEmpty then persistGate senv (held ++ cleanNewEvents) disk
      else
        let reopened : Appending := {
          files := disk.files, segments := manifest.segments, segmentNo := lastMeta.segmentNo,
          eventsForSegment, prevForSegment }
        return appendEvents senv senv.gateDigest manifest reopened cleanNewEvents disk.passed

/-- A call that writes the files of the gate. -/
inductive Call where
  | persistGate (events : List GateEvent)
  | persistGateNewEvents (held newEvents : List GateEvent)

def Call.events : Call → List GateEvent
  | .persistGate events => events
  | .persistGateNewEvents held newEvents => held ++ newEvents

def step (disk : GateSegments) : Call → Except String GateSegments
  | .persistGate events => disk.persistGate senv events
  | .persistGateNewEvents held newEvents => disk.persistGateNewEvents senv held newEvents

/-! ## Chains -/

/-- The hash of the last segment. -/
def headHash (payloads : List SegmentPayload) : String :=
  LinkedChain.lastKey SegmentPayload.segmentHash "" payloads

/-- Segments that are chained by their hashes, and the events that they hold. -/
inductive Chain (gateDigest : String) : List SegmentPayload → List GateEvent → Prop where
  | nil : Chain gateDigest [] []
  | snoc {payloads : List SegmentPayload} {events slice : List GateEvent}
      (h : Chain gateDigest payloads events) (hne : slice ≠ []) (hle : slice.length ≤ senv.eventTarget) :
      Chain gateDigest
        (payloads ++ [buildSegmentPayload senv gateDigest payloads.length slice (headHash payloads)])
        (events ++ slice)

section

variable {senv : SegmentEnv} {gateDigest : String} {payloads : List SegmentPayload}
  {events : List GateEvent}

theorem Chain.number (h : Chain senv gateDigest payloads events) :
    ∀ (i : Nat) (p : SegmentPayload), payloads[i]? = some p → p.segmentNo = i := by
  induction h with
  | nil => exact fun i p hp => absurd hp (by simp)
  | @snoc payloads events slice _ hne hle ih =>
    intro i p hp
    rcases lt_trichotomy i payloads.length with hi | rfl | hi
    · rw [List.getElem?_append_left hi] at hp
      exact ih i p hp
    · rw [List.getElem?_concat_length] at hp
      cases hp
      rfl
    · rw [List.getElem?_eq_none (by rw [List.length_append, List.length_singleton]; omega)] at hp
      cases hp

theorem Chain.linked (h : Chain senv gateDigest payloads events) :
    LinkedChain.Linked SegmentPayload.segmentHash (fun p => p.prevSegmentHash) "" payloads := by
  induction h with
  | nil => trivial
  | snoc h hne hle ih => exact LinkedChain.linked_append.mpr ⟨ih, rfl, trivial⟩

theorem Chain.count (h : Chain senv gateDigest payloads events) :
    ∀ p ∈ payloads, 1 ≤ p.count ∧ p.count ≤ senv.eventTarget := by
  induction h with
  | nil => exact fun p hp => absurd hp List.not_mem_nil
  | snoc h hne hle ih =>
    intro p hp
    rcases List.mem_append.mp hp with hp | hp
    · exact ih p hp
    · rw [List.mem_singleton.mp hp]
      exact ⟨List.length_pos_iff.mpr hne, hle⟩

theorem Chain.total (h : Chain senv gateDigest payloads events) :
    events.length = (payloads.map fun p => p.count).sum := by
  induction h with
  | nil => rfl
  | snoc h hne hle ih =>
    rw [List.length_append, ih, List.map_append, List.sum_append]
    rfl

/-- A segment whose hash is that of its content. -/
def Sealed (senv : SegmentEnv) (p : SegmentPayload) : Prop :=
  p.segmentHash = senv.materialHash p.toSegmentMaterial

theorem Chain.sealed (h : Chain senv gateDigest payloads events) : ∀ p ∈ payloads, Sealed senv p := by
  induction h with
  | nil => exact fun p hp => absurd hp List.not_mem_nil
  | snoc h hne hle ih =>
    intro p hp
    rcases List.mem_append.mp hp with hp | hp
    · exact ih p hp
    · rw [List.mem_singleton.mp hp]
      rfl

theorem Chain.decoded (h : Chain senv gateDigest payloads events)
    (hstorable : ∀ e ∈ events, senv.storable e) :
    payloads.flatMap (fun p => senv.decode p.eventsB64) = events := by
  induction h with
  | nil => rfl
  | snoc h hne hle ih =>
    rw [List.flatMap_append, ih fun e he => hstorable e (List.mem_append_left _ he)]
    congr 1
    simp only [List.flatMap_cons, List.flatMap_nil, List.append_nil]
    exact senv.decode_encode _ fun e he => hstorable e (List.mem_append_right _ he)

theorem headHash_concat (p : SegmentPayload) : headHash (payloads ++ [p]) = p.segmentHash :=
  LinkedChain.lastKey_concat _ _ _

theorem readSegmentFile_sealed {files : Nat → Option SegmentPayload} {no : Nat} {p : SegmentPayload}
    (hfile : files no = some p) (hsealed : Sealed senv p) :
    readSegmentFile senv files no = (some p, senv.decode p.eventsB64) := by
  unfold readSegmentFile
  rw [hfile]
  exact if_neg fun h => h.2 hsealed

/-- The files have the segments under their numbers. -/
def Filed (files : Nat → Option SegmentPayload) (payloads : List SegmentPayload) : Prop :=
  ∀ (i : Nat) (p : SegmentPayload), payloads[i]? = some p → files i = some p

theorem Filed.snoc {files : Nat → Option SegmentPayload} (h : Filed files payloads) (p : SegmentPayload) :
    Filed (Function.update files payloads.length (some p)) (payloads ++ [p]) := by
  intro i q hq
  rcases lt_trichotomy i payloads.length with hi | rfl | hi
  · rw [List.getElem?_append_left hi] at hq
    rw [Function.update_of_ne hi.ne]
    exact h i q hq
  · rw [List.getElem?_concat_length] at hq
    rw [Function.update_self]
    exact hq
  · rw [List.getElem?_eq_none (by rw [List.length_append, List.length_singleton]; omega)] at hq
    cases hq

/-! ## Rewriting -/

/-- The chunks that are written so far. -/
structure Rewriting.Written (senv : SegmentEnv) (gateDigest : String) (events : List GateEvent) (n : Nat)
    (r : Rewriting) (payloads : List SegmentPayload) : Prop where
  length : payloads.length = n
  chain : Chain senv gateDigest payloads (events.take (n * senv.eventTarget))
  segments : r.segments = payloads.map metaOf
  prevHash : r.prevHash = headHash payloads
  filed : Filed r.files payloads

theorem Rewriting.Written.chunk {n : Nat} {r : Rewriting}
    (h : r.Written senv gateDigest events n payloads) (hn : n * senv.eventTarget < events.length) :
    ∃ payloads', (r.chunk senv gateDigest events n).Written senv gateDigest events (n + 1) payloads' := by
  let slice := (events.drop (n * senv.eventTarget)).take senv.eventTarget
  have hpos := senv.eventTarget_pos
  have hne : slice ≠ [] := by
    rw [← List.length_pos_iff, List.length_take, List.length_drop]
    omega
  have hle : slice.length ≤ senv.eventTarget := List.length_take_le _ _
  have hchain := h.chain.snoc hne hle
  have hpayload : buildSegmentPayload senv gateDigest payloads.length slice (headHash payloads) =
      buildSegmentPayload senv gateDigest n slice r.prevHash := by
    rw [h.length, h.prevHash]
  rw [hpayload] at hchain
  refine ⟨payloads ++ [buildSegmentPayload senv gateDigest n slice r.prevHash], ?_, ?_, ?_, ?_, ?_⟩
  · rw [List.length_append, h.length]
    rfl
  · rw [Nat.succ_mul, List.take_add]
    exact hchain
  · rw [List.map_append, ← h.segments]
    rfl
  · exact (headHash_concat _).symm
  · have hfiled := h.filed.snoc (buildSegmentPayload senv gateDigest n slice r.prevHash)
    rw [h.length] at hfiled
    exact hfiled

theorem lt_of_lt_chunkCount {n : Nat} (h : n < chunkCount senv events) :
    n * senv.eventTarget < events.length := by
  have hpos := senv.eventTarget_pos
  have hle := (Nat.le_div_iff_mul_le hpos).mp (Nat.succ_le_of_lt h)
  rw [Nat.succ_mul] at hle
  omega

theorem le_chunkCount (events : List GateEvent) :
    events.length ≤ chunkCount senv events * senv.eventTarget := by
  have hpos := senv.eventTarget_pos
  have hdiv := Nat.div_add_mod (events.length + (senv.eventTarget - 1)) senv.eventTarget
  have hmod := Nat.mod_lt (events.length + (senv.eventTarget - 1)) hpos
  unfold chunkCount
  rw [Nat.mul_comm]
  omega

theorem written_fold (files : Nat → Option SegmentPayload) {n : Nat} (hn : n ≤ chunkCount senv events) :
    ∃ payloads, ((List.range n).foldl (Rewriting.chunk senv gateDigest events) { files := files }).Written
      senv gateDigest events n payloads := by
  induction n with
  | zero =>
    refine ⟨[], rfl, ?_, rfl, rfl, fun i p hp => by simp at hp⟩
    rw [Nat.zero_mul]
    exact Chain.nil
  | succ n ih =>
    obtain ⟨payloads, hwritten⟩ := ih (Nat.le_of_succ_le hn)
    rw [List.range_succ, List.foldl_append]
    exact hwritten.chunk (lt_of_lt_chunkCount hn)

/-! ## The invariant -/

/-- The manifest, if there is one, lists a chain in the files that holds the events that were
passed. -/
def Intact (senv : SegmentEnv) (disk : GateSegments) : Prop :=
  ∀ m, disk.manifest = some m → (∀ e ∈ disk.passed, senv.storable e) ∧
    ∃ payloads, Chain senv senv.gateDigest payloads disk.passed ∧
      m.segments = payloads.map metaOf ∧ m.totalEvents = disk.passed.length ∧ Filed disk.files payloads

theorem clean_storable {cleaned : List GateEvent} (hstorable : ∀ e ∈ events, senv.storable e)
    (h : events.mapM (GateEvent.clean senv.env senv.gateKey) = .ok cleaned) :
    ∀ e ∈ cleaned, senv.storable e := by
  induction events generalizing cleaned with
  | nil =>
    cases h
    exact fun e he => absurd he List.not_mem_nil
  | cons event events ih =>
    rw [List.mapM_cons] at h
    obtain ⟨e', he', h⟩ := bind_eq_ok.mp h
    obtain ⟨rest, hrest, h⟩ := bind_eq_ok.mp h
    obtain rfl := pure_eq_ok.mp h
    intro e he
    rcases List.mem_cons.mp he with rfl | he
    · exact senv.clean_storable event e (hstorable event List.mem_cons_self) he'
    · exact ih (fun e he => hstorable e (List.mem_cons_of_mem event he)) hrest e he

theorem persistGate_intact {disk disk' : GateSegments} (h : disk.persistGate senv events = .ok disk')
    (hstorable : ∀ e ∈ events, senv.storable e) (hintact : disk.Intact senv) : disk'.Intact senv := by
  unfold persistGate at h
  split at h
  · cases h
    exact hintact
  · obtain ⟨cleanEvents, hclean, h⟩ := bind_eq_ok.mp h
    obtain rfl := Except.ok.inj h
    intro m hm
    cases hm
    obtain ⟨payloads, hwritten⟩ := @written_fold senv senv.gateDigest cleanEvents disk.files
      (chunkCount senv cleanEvents) le_rfl
    refine ⟨clean_storable hstorable hclean, payloads, ?_, hwritten.segments, rfl, fun i p hp => ?_⟩
    · have hchain := hwritten.chain
      rw [List.take_of_length_le (le_chunkCount cleanEvents)] at hchain
      exact hchain
    · have hi : i < chunkCount senv cleanEvents := by
        rw [← hwritten.length]
        exact (List.getElem?_eq_some_iff.mp hp).1
      dsimp only
      rw [if_neg fun hstale => hstale.2 hi]
      exact hwritten.filed i p hp

/-! ## Appending -/

theorem buildSegmentPayload_injective {no : Nat} {prev : String} {slice slice' : List GateEvent}
    (hslice : ∀ e ∈ slice, senv.storable e) (hslice' : ∀ e ∈ slice', senv.storable e)
    (h : (buildSegmentPayload senv gateDigest no slice prev).segmentHash =
      (buildSegmentPayload senv gateDigest no slice' prev).segmentHash) :
    buildSegmentPayload senv gateDigest no slice prev = buildSegmentPayload senv gateDigest no slice' prev := by
  have hencode : senv.encode slice = senv.encode slice' := senv.materialHash_events _ _ h
  have hsame : slice = slice' := by
    rw [← senv.decode_encode slice hslice, hencode, senv.decode_encode slice' hslice']
  rw [hsame]

/-- The closed segments are a chain, and the open one is missing or begins as its file does. -/
structure Appending.Good (senv : SegmentEnv) (gateDigest : String) (events : List GateEvent) (a : Appending)
    (payloads : List SegmentPayload) (closed : List GateEvent) : Prop where
  chain : Chain senv gateDigest payloads closed
  segmentNo : a.segmentNo = payloads.length
  prev : a.prevForSegment = headHash payloads
  filed : Filed a.files payloads
  short : a.eventsForSegment.length ≤ senv.eventTarget
  all : closed ++ a.eventsForSegment = events
  storable : ∀ e ∈ events, senv.storable e
  segments : a.segments = payloads.map metaOf ∨ a.eventsForSegment ≠ [] ∧ ∃ slice : List GateEvent,
    (∀ e ∈ slice, senv.storable e) ∧ a.segments = payloads.map metaOf ++
      [metaOf (buildSegmentPayload senv gateDigest a.segmentNo slice a.prevForSegment)] ∧
    a.files a.segmentNo = some (buildSegmentPayload senv gateDigest a.segmentNo slice a.prevForSegment)

namespace Appending.Good

variable {a : Appending} {closed : List GateEvent}

theorem last_number (h : a.Good senv gateDigest events payloads closed) {entry : SegmentMeta}
    (hsegments : a.segments = payloads.map metaOf) (hentry : a.segments.getLast? = some entry) :
    entry.segmentNo ≠ a.segmentNo := by
  rw [hsegments, List.getLast?_map] at hentry
  obtain ⟨p, hp, rfl⟩ := Option.map_eq_some_iff.mp hentry
  rw [List.getLast?_eq_getElem?] at hp
  have hlt := (List.getElem?_eq_some_iff.mp hp).1
  change p.segmentNo ≠ _
  rw [h.chain.number _ p hp, h.segmentNo]
  omega

/-- The entry of the open segment is put behind those of the closed ones. -/
theorem putMeta_eq (h : a.Good senv gateDigest events payloads closed) (entry : SegmentMeta) :
    putMeta a.segments a.segmentNo entry = payloads.map metaOf ++ [entry] := by
  unfold putMeta
  rcases h.segments with hsegments | ⟨-, slice, -, hsegments, -⟩
  · rw [if_neg fun heq => ?_, hsegments]
    obtain ⟨last, hlast, hnumber⟩ := Option.map_eq_some_iff.mp heq
    exact h.last_number hsegments hlast hnumber
  · have hlast : a.segments.getLast?.map SegmentMeta.segmentNo = some a.segmentNo := by
      rw [hsegments, List.getLast?_concat]
      rfl
    rw [if_pos hlast, hsegments, List.dropLast_concat]

theorem flush (h : a.Good senv gateDigest events payloads closed) (hne : a.eventsForSegment ≠ []) :
    (a.flush senv gateDigest).Good senv gateDigest events
      (payloads ++ [buildSegmentPayload senv gateDigest a.segmentNo a.eventsForSegment a.prevForSegment])
      (closed ++ a.eventsForSegment) := by
  have hchain := h.chain.snoc hne h.short
  rw [← h.segmentNo, ← h.prev] at hchain
  have hnumber : a.segmentNo + 1 = (payloads ++
      [buildSegmentPayload senv gateDigest a.segmentNo a.eventsForSegment a.prevForSegment]).length := by
    rw [List.length_append, h.segmentNo]
    rfl
  unfold Appending.flush
  dsimp only
  split
  · rename_i hmatches
    cases hlast : a.segments.getLast? with
    | none =>
      rw [hlast] at hmatches
      cases hmatches
    | some entry =>
      rw [hlast, Option.any_some, Bool.and_eq_true, decide_eq_true_iff, decide_eq_true_iff] at hmatches
      obtain ⟨hno, hhash⟩ := hmatches
      rcases h.segments with hsegments | ⟨-, slice, hslice, hsegments, hfile⟩
      · exact absurd hno (h.last_number hsegments hlast)
      · rw [hsegments, List.getLast?_concat] at hlast
        cases hlast
        -- the file has these events already
        have hopen : ∀ e ∈ a.eventsForSegment, senv.storable e := fun e he =>
          h.storable e (h.all ▸ List.mem_append_right closed he)
        have hsame := buildSegmentPayload_injective hslice hopen hhash
        rw [hsame] at hsegments hfile
        refine ⟨hchain, hnumber, (headHash_concat _).symm, ?_, Nat.zero_le _, ?_, ?_, Or.inl ?_⟩
        · intro i p hp
          rcases lt_or_ge i payloads.length with hi | hi
          · rw [List.getElem?_append_left hi] at hp
            exact h.filed i p hp
          · have hlt := (List.getElem?_eq_some_iff.mp hp).1
            rw [List.length_append, List.length_singleton] at hlt
            obtain rfl : i = payloads.length := by omega
            rw [List.getElem?_concat_length] at hp
            cases hp
            rw [← h.segmentNo]
            exact hfile
        · rw [List.append_nil]
          exact h.all
        · exact h.storable
        · rw [List.map_append]
          exact hsegments
  · refine ⟨hchain, hnumber, (headHash_concat _).symm, ?_, Nat.zero_le _, ?_, ?_, Or.inl ?_⟩
    · have hfiled := h.filed.snoc
        (buildSegmentPayload senv gateDigest a.segmentNo a.eventsForSegment a.prevForSegment)
      rw [← h.segmentNo] at hfiled
      exact hfiled
    · rw [List.append_nil]
      exact h.all
    · exact h.storable
    · rw [h.putMeta_eq, List.map_append]
      rfl

theorem take (h : a.Good senv gateDigest events payloads closed) {event : GateEvent}
    (hevent : senv.storable event) : ∃ payloads' closed',
      (a.take senv gateDigest event).Good senv gateDigest (events ++ [event]) payloads' closed' := by
  have hstorable : ∀ e ∈ events ++ [event], senv.storable e := by
    intro e he
    rcases List.mem_append.mp he with he | he
    · exact h.storable e he
    · exact List.mem_singleton.mp he ▸ hevent
  unfold Appending.take
  dsimp only
  split
  · rename_i hfull
    obtain ⟨hchain, hnumber, hprev, hfiled, -, hall, -, hsegments⟩ := h.flush hfull.1
    have hempty : (a.flush senv gateDigest).eventsForSegment = [] := by
      unfold Appending.flush
      dsimp only
      split <;> rfl
    rw [hempty, List.append_nil] at hall
    refine ⟨_, _, hchain, hnumber, hprev, hfiled, senv.eventTarget_pos, by rw [hall], hstorable, Or.inl ?_⟩
    exact hsegments.resolve_right fun hopen => hopen.1 hempty
  · rename_i hfull
    have hshort : (a.eventsForSegment ++ [event]).length ≤ senv.eventTarget := by
      rcases eq_or_ne a.eventsForSegment [] with hempty | hne
      · rw [hempty]
        exact senv.eventTarget_pos
      · rw [← not_lt]
        exact fun hlt => hfull ⟨hne, Or.inl hlt⟩
    refine ⟨payloads, closed, h.chain, h.segmentNo, h.prev, h.filed, hshort, ?_, hstorable, ?_⟩
    · dsimp only
      rw [← List.append_assoc, h.all]
    · exact h.segments.imp_right fun hopen => ⟨by simp, hopen.2⟩

theorem fold (h : a.Good senv gateDigest events payloads closed) {new : List GateEvent}
    (hnew : ∀ e ∈ new, senv.storable e) : ∃ payloads' closed',
      (new.foldl (Appending.take senv gateDigest) a).Good senv gateDigest (events ++ new) payloads'
        closed' := by
  induction new generalizing a events payloads closed with
  | nil => exact ⟨payloads, closed, by rw [List.append_nil]; exact h⟩
  | cons event new ih =>
    obtain ⟨payloads', closed', hnext⟩ := h.take (hnew event List.mem_cons_self)
    rw [List.foldl_cons, List.append_cons]
    exact ih hnext fun e he => hnew e (List.mem_cons_of_mem event he)

theorem take_ne_nil (a : Appending) (event : GateEvent) :
    (a.take senv gateDigest event).eventsForSegment ≠ [] := by
  unfold Appending.take
  dsimp only
  split <;> simp

theorem fold_ne_nil (a : Appending) {new : List GateEvent} (hne : new ≠ []) :
    (new.foldl (Appending.take senv gateDigest) a).eventsForSegment ≠ [] := by
  induction new using List.reverseRecOn with
  | nil => exact absurd rfl hne
  | append_singleton new event _ =>
    rw [List.foldl_append]
    exact take_ne_nil _ event

end Appending.Good

/-- An append extends the chain by the new events. -/
theorem appendEvents_intact {manifest : GateManifest} {a : Appending} {closed new passed : List GateEvent}
    (h : a.Good senv senv.gateDigest passed payloads closed)
    (htotal : manifest.totalEvents = passed.length) (hne : new ≠ [])
    (hnew : ∀ e ∈ new, senv.storable e) :
    (appendEvents senv senv.gateDigest manifest a new passed).Intact senv := by
  obtain ⟨payloads', closed', hgood⟩ := h.fold hnew
  let b := new.foldl (Appending.take senv senv.gateDigest) a
  have hopen : b.eventsForSegment ≠ [] := Appending.Good.fold_ne_nil a hne
  intro m hm
  cases hm
  have hchain := hgood.chain.snoc hopen hgood.short
  rw [← hgood.segmentNo, ← hgood.prev, hgood.all] at hchain
  refine ⟨hgood.storable, _, hchain, ?_, ?_, ?_⟩
  · rw [List.map_append]
    exact hgood.putMeta_eq _
  · change manifest.totalEvents + new.length = (passed ++ new).length
    rw [htotal, List.length_append]
  · have hfiled := hgood.filed.snoc
      (buildSegmentPayload senv senv.gateDigest b.segmentNo b.eventsForSegment b.prevForSegment)
    rw [← hgood.segmentNo] at hfiled
    exact hfiled

/-- The last segment of a chain is what is opened again. -/
theorem Chain.reopen (h : Chain senv gateDigest payloads events) {last : SegmentMeta}
    (hlast : (payloads.map metaOf).getLast? = some last) :
    ∃ closed closedEvents slice, Chain senv gateDigest closed closedEvents ∧ slice ≠ [] ∧
      slice.length ≤ senv.eventTarget ∧ closedEvents ++ slice = events ∧
      last = metaOf (buildSegmentPayload senv gateDigest closed.length slice (headHash closed)) ∧
      payloads = closed ++ [buildSegmentPayload senv gateDigest closed.length slice (headHash closed)] := by
  cases h with
  | nil => cases hlast
  | @snoc closed closedEvents slice h hne hle =>
    rw [List.map_append, List.map_singleton, List.getLast?_concat] at hlast
    cases hlast
    exact ⟨closed, closedEvents, slice, h, hne, hle, rfl, rfl, rfl⟩

theorem persistGateNewEvents_intact {held new : List GateEvent} {disk disk' : GateSegments}
    (h : disk.persistGateNewEvents senv held new = .ok disk')
    (hstorable : ∀ e ∈ held ++ new, senv.storable e) (hintact : disk.Intact senv) :
    disk'.Intact senv := by
  unfold persistGateNewEvents at h
  obtain ⟨cleanNewEvents, hclean, h⟩ := bind_eq_ok.mp h
  have hcleaned : ∀ e ∈ cleanNewEvents, senv.storable e :=
    clean_storable (fun e he => hstorable e (List.mem_append_right held he)) hclean
  have hrewrite : ∀ e ∈ held ++ cleanNewEvents, senv.storable e := by
    intro e he
    rcases List.mem_append.mp he with he | he
    · exact hstorable e (List.mem_append_left new he)
    · exact hcleaned e he
  split at h
  · obtain rfl := pure_eq_ok.mp h
    exact hintact
  rename_i hnew
  rw [Bool.or_eq_true, not_or, List.isEmpty_iff] at hnew
  cases hmanifest : disk.manifest with
  | none =>
    rw [hmanifest] at h
    exact persistGate_intact h hrewrite hintact
  | some manifest =>
    rw [hmanifest] at h
    obtain ⟨hpassed, payloads, hchain, hsegments, htotal, hfiled⟩ := hintact manifest hmanifest
    dsimp only at h
    cases hlast : manifest.segments.getLast? with
    | none =>
      rw [hlast] at h
      obtain rfl := pure_eq_ok.mp h
      rw [List.getLast?_eq_none_iff.mp hlast] at hsegments
      have hnil : payloads = [] := List.map_eq_nil_iff.mp hsegments.symm
      subst hnil
      have hnone : disk.passed = [] := by
        rw [← List.length_eq_zero_iff, hchain.total]
        rfl
      let fresh : Appending := {
        files := disk.files, segments := [], segmentNo := 0, eventsForSegment := [], prevForSegment := "" }
      have hgood : fresh.Good senv senv.gateDigest disk.passed [] [] :=
        ⟨Chain.nil, rfl, rfl, hfiled, Nat.zero_le _, by rw [hnone]; rfl, hpassed, Or.inl rfl⟩
      exact appendEvents_intact hgood htotal hnew.2 hcleaned
    | some last =>
      rw [hlast] at h
      rw [hsegments] at hlast
      obtain ⟨closed, closedEvents, slice, hclosed, hslice, hle, hall, rfl, hpayloads⟩ :=
        hchain.reopen hlast
      subst hpayloads
      have hfile := hfiled closed.length _ (List.getElem?_concat_length ..)
      have hstored : ∀ e ∈ slice, senv.storable e := fun e he =>
        hpassed e (hall ▸ List.mem_append_right closedEvents he)
      let p := buildSegmentPayload senv senv.gateDigest closed.length slice (headHash closed)
      have hdecode : senv.decode p.eventsB64 = slice := senv.decode_encode slice hstored
      have hread : readSegmentFile senv disk.files (metaOf p).segmentNo = (some p, slice) := by
        rw [← hdecode]
        exact readSegmentFile_sealed hfile rfl
      have hprev : (if p.prevSegmentHash = "" then (metaOf p).prevSegmentHash else p.prevSegmentHash) =
          headHash closed := by
        split <;> rfl
      have hopen : slice.isEmpty = false := by
        rw [← Bool.not_eq_true, List.isEmpty_iff]
        exact hslice
      dsimp only at h
      rw [hread] at h
      dsimp only at h
      rw [hprev, hopen, if_neg Bool.false_ne_true] at h
      obtain rfl := pure_eq_ok.mp h
      have hbefore : Filed disk.files closed := fun i q hq => hfiled i q (by
        rw [List.getElem?_append_left (List.getElem?_eq_some_iff.mp hq).1, hq])
      have hentries : manifest.segments = closed.map metaOf ++ [metaOf p] := by
        rw [hsegments, List.map_append]
        rfl
      let reopened : Appending := {
        files := disk.files, segments := manifest.segments, segmentNo := closed.length,
        eventsForSegment := slice, prevForSegment := headHash closed }
      have hgood : reopened.Good senv senv.gateDigest disk.passed closed closedEvents :=
        ⟨hclosed, rfl, rfl, hbefore, hle, hall, hpassed,
          Or.inr ⟨hslice, slice, hstored, hentries, hfile⟩⟩
      exact appendEvents_intact hgood htotal hnew.2 hcleaned

theorem step_intact {call : Call} {disk disk' : GateSegments} (h : disk.step senv call = .ok disk')
    (hstorable : ∀ e ∈ call.events, senv.storable e) (hintact : disk.Intact senv) :
    disk'.Intact senv := by
  cases call with
  | persistGate events => exact persistGate_intact h hstorable hintact
  | persistGateNewEvents held new => exact persistGateNewEvents_intact h hstorable hintact

theorem run_intact {calls : List Call} {disk disk' : GateSegments}
    (h : calls.foldlM (step senv) disk = .ok disk')
    (hstorable : ∀ call ∈ calls, ∀ e ∈ call.events, senv.storable e) (hintact : disk.Intact senv) :
    disk'.Intact senv := by
  induction calls generalizing disk with
  | nil =>
    cases h
    exact hintact
  | cons call calls ih =>
    rw [List.foldlM_cons] at h
    obtain ⟨next, hnext, h⟩ := bind_eq_ok.mp h
    have hkept := step_intact hnext (hstorable call List.mem_cons_self) hintact
    exact ih h (fun call' hcall' => hstorable call' (List.mem_cons_of_mem call hcall')) hkept

end

/-! ## Runs -/

/-- What the manifest of a gate says of its segments. -/
structure Kept (senv : SegmentEnv) (disk : GateSegments) (m : GateManifest) : Prop where
  numbers : m.segments.map SegmentMeta.segmentNo = List.range m.segments.length
  /-- Each entry names the hash of the one before it, and the first one none. -/
  linked : LinkedChain.Linked SegmentMeta.segmentHash SegmentMeta.prevSegmentHash "" m.segments
  counts : ∀ entry ∈ m.segments, 1 ≤ entry.count ∧ entry.count ≤ senv.eventTarget
  total : m.totalEvents = (m.segments.map SegmentMeta.count).sum
  decoded : m.segments.flatMap (fun entry => (readSegmentFile senv disk.files entry.segmentNo).2) =
    disk.passed

theorem linked_metaOf {payloads : List SegmentPayload} {k : String}
    (h : LinkedChain.Linked SegmentPayload.segmentHash (fun p => p.prevSegmentHash) k payloads) :
    LinkedChain.Linked SegmentMeta.segmentHash SegmentMeta.prevSegmentHash k (payloads.map metaOf) := by
  induction payloads generalizing k with
  | nil => trivial
  | cons p payloads ih => exact ⟨h.1, ih h.2⟩

theorem Intact.kept {senv : SegmentEnv} {disk : GateSegments} (h : disk.Intact senv) {m : GateManifest}
    (hm : disk.manifest = some m) : Kept senv disk m := by
  obtain ⟨hstorable, payloads, hchain, hsegments, htotal, hfiled⟩ := h m hm
  refine ⟨?_, ?_, ?_, ?_, ?_⟩
  · rw [hsegments, List.map_map, List.length_map]
    apply List.ext_getElem?
    intro i
    rw [List.getElem?_map]
    cases hp : payloads[i]? with
    | none =>
      rw [List.getElem?_eq_none_iff] at hp
      exact (List.getElem?_eq_none (by simpa using hp)).symm
    | some p =>
      have hlt := (List.getElem?_eq_some_iff.mp hp).1
      rw [List.getElem?_range hlt]
      exact congrArg some (hchain.number i p hp)
  · rw [hsegments]
    exact linked_metaOf hchain.linked
  · intro entry hentry
    rw [hsegments] at hentry
    obtain ⟨p, hp, rfl⟩ := List.mem_map.mp hentry
    exact hchain.count p hp
  · rw [htotal, hchain.total, hsegments, List.map_map]
    rfl
  · rw [hsegments, List.flatMap_map, ← hchain.decoded hstorable]
    apply List.flatMap_congr
    intro p hp
    obtain ⟨i, hi⟩ := List.mem_iff_getElem?.mp hp
    have hfile := hfiled i p hi
    rw [← hchain.number i p hi] at hfile
    exact congrArg Prod.snd (readSegmentFile_sealed hfile (hchain.sealed p hp))

/-- Texts that have one letter for each note. -/
def noteCodec : SegmentCodec where
  encode events := String.ofList (events.map fun _ => 'n')
  decode text := text.toList.map fun _ => note
  materialHash m := m.eventsB64
  storable e := e = note
  decode_encode events h := by
    rw [String.toList_ofList, List.map_map]
    exact (List.map_congr_left fun e he => (h e he).symm).trans (List.map_id events)
  materialHash_events _ _ h := h

def noteSegments : SegmentEnv where
  toSegmentCodec := noteCodec
  env := textSignedEnv
  gateKey := "g"
  gateDigest := "d"
  eventTarget := 2
  maxCompressedBytes := 10
  eventTarget_pos := Nat.zero_lt_two
  maxCompressedBytes_pos := by decide
  clean_storable e e' h hclean := by
    obtain rfl : e = note := h
    have hnote : GateEvent.clean textSignedEnv "g" note = .ok note := settled_note.clean
    exact Except.ok.inj (hclean.symm.trans hnote)

theorem clean_notes (n : Nat) : (List.replicate n note).mapM
    (GateEvent.clean noteSegments.env noteSegments.gateKey) = .ok (List.replicate n note) := by
  induction n with
  | zero => rfl
  | succ n ih =>
    rw [List.replicate_succ, List.mapM_cons, ih]
    exact congrArg (· >>= fun e => .ok (e :: List.replicate n note)) settled_note.clean

end GateSegments

end Vincent.Mesh
