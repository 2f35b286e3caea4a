-- SUMMARY: What a restart keeps, for any event left in the write-ahead log.
import Vincent.Mesh.Reachable
import Vincent.Mesh.Tables

/-!
# Restart

`load` reads the chain file and replays the event in the log. The replay sends the
event through `ingest_events`, and a refusal resets the ledger in memory. `Loaded`
says what the tables are after the chain file, in terms of the file alone.
-/

namespace Vincent.Mesh

open Vincent.Python Vincent.Check

/-- The archived events of the file followed by the others. -/
def ChainFile.history (file : ChainFile) : List ChainEvent :=
  file.coldSegments.flatMap (·.events) ++ file.events

/-- The newest events, as many as stay in memory. -/
def hotWindow (events : List ChainEvent) : List ChainEvent :=
  events.drop (events.length - maxChainMemory)

/-- The node that first used the key. -/
def firstOwner (events : List ChainEvent) (publicKey : String) : String :=
  ((events.find? fun e => e.publicKey = publicKey ∧ e.nodeId ≠ "").map (·.nodeId)).getD ""

/-- The counter that a rebuild starts from: those of the chain start at zero. -/
def ChainFile.storedSequence (file : ChainFile) : SequenceSlot → Int
  | .node _ => 0
  | .domain key =>
    if "|gate_message".toList.isSuffixOf key.toList then 0 else file.sequenceDomains key

/-- The sequence is above everything that the file says of its counter. -/
def ChainFile.SequenceFree (rt : Runtime) (file : ChainFile) (slot : SequenceSlot) (n : Int) :
    Prop :=
  file.storedSequence slot < n ∧
  ∀ e ∈ file.events, e.slot rt = slot → e.nodeId ≠ "" → e.seqNum rt < n

/-- Nothing in the file makes the rebuild raise. -/
def ChainFile.Readable (rt : Runtime) (file : ChainFile) : Prop :=
  (∀ e ∈ file.events, Rebuildable rt e) ∧ Infonet.rebuildCounters rt file.events = .ok ()

/-- The replay of the log, at the time of `call'`, takes its event behind the file, read at
`call`. -/
structure WalReplayable (env : Env) (call call' : Call) (file : ChainFile) (e : ChainEvent) :
    Prop where
  allowed : e.eventType ∈ allowedEventTypes
  fresh : checkFresh env call' e = .ok ()
  unseen : ¬ filterCollision env call.salt file.events e.eventId
  sequence : file.SequenceFree env.rt (e.slot env.rt) (e.seqNum env.rt)
  bindable : firstOwner file.events e.publicKey = "" ∨
    firstOwner file.events e.publicKey = e.nodeId
  spool : e.eventType = "dm_message" → (dmSpoolTargetKey env.rt e.payload).2 = "" ∨
    DmSpoolRoom env call'.now (dmSpoolTargetKey env.rt e.payload) (strip e.nodeId)
      (hotWindow file.events)
  notRevoked : revokedBy env.rt file.events call'.now e.publicKey → e.eventType = "key_revoke"

/-! ## The ledger after the chain file -/

namespace Infonet

variable {env : Env} {call : Call}

/-- A rebuild raises a counter above every sequence of its events. -/
theorem rebuiltAll_lastSequence {es : List ChainEvent} {idx : Nat} {net : Infonet}
    (slot : SequenceSlot) {n : Int} (hpos : 0 < n) :
    (rebuiltAll env call es idx net).lastSequence slot < n ↔
      net.lastSequence slot < n ∧
      ∀ e ∈ es, e.slot env.rt = slot → e.nodeId ≠ "" → e.seqNum env.rt < n := by
  induction es generalizing idx net with
  | nil => simp [rebuiltAll]
  | cons e es ih =>
    have hstep : (net.rebuilt env call idx e).lastSequence slot < n ↔
        net.lastSequence slot < n ∧ (e.slot env.rt = slot → e.nodeId ≠ "" → e.seqNum env.rt < n) := by
      rw [rebuilt_lastSequence]
      split
      · rename_i hraise
        obtain ⟨rfl, hnode, -, hlt⟩ := hraise
        simp only [hnode, true_implies, ne_eq, not_false_eq_true]
        constructor <;> intro h <;> omega
      · rename_i hkeep
        refine ⟨fun hlt => ⟨hlt, fun hslot hnode => ?_⟩, And.left⟩
        by_contra hge
        exact hkeep ⟨hslot.symm, hnode, by omega, by omega⟩
    simp only [rebuiltAll, ih, hstep, List.forall_mem_cons, and_assoc]

theorem rebuiltAll_publicKeyBindings {es : List ChainEvent} {idx : Nat} {net : Infonet}
    {key : String} (hkey : key ≠ "") :
    (rebuiltAll env call es idx net).publicKeyBindings key =
      if net.publicKeyBindings key = "" then firstOwner es key
      else net.publicKeyBindings key := by
  induction es generalizing idx net with
  | nil =>
    simp only [rebuiltAll, firstOwner, List.find?_nil, Option.map_none, Option.getD_none]
    split <;> simp_all
  | cons e es ih =>
    rw [rebuiltAll, ih, rebuilt_publicKeyBindings]
    simp only [firstOwner, List.find?_cons]
    by_cases hsame : e.publicKey = key
    · subst hsame
      by_cases hnode : e.nodeId = "" <;> by_cases hfree : net.publicKeyBindings e.publicKey = "" <;>
        simp [hkey, hnode, hfree]
    · by_cases hbind : e.publicKey ≠ "" ∧ e.nodeId ≠ "" ∧ net.publicKeyBindings e.publicKey = ""
      · rw [if_pos hbind]
        simp [hsame, Function.update_of_ne (Ne.symm hsame)]
      · rw [if_neg hbind]
        simp [hsame]

end Infonet

/-- The ledger is the one that the chain file describes. -/
structure Loaded (env : Env) (call : Call) (file : ChainFile) (net : Infonet) : Prop where
  history : net.history = file.history
  events : net.events = hotWindow file.events
  headHash : net.headHash = Infonet.lastEventId file.events
  index : ∀ id, id ≠ "" →
    (net.eventIndex id = none ↔ id ∉ (hotWindow file.events).map (·.eventId))
  unseen : ∀ (later : Call) id, (net.rotateFilter later).replayFilter.seen env id = false ↔
    ¬ filterCollision env call.salt file.events id
  revoked : ∀ now key, net.revoked now key = revokedBy env.rt file.events now key
  sequence : ∀ slot n, 0 < n → (net.lastSequence slot < n ↔ file.SequenceFree env.rt slot n)
  owner : ∀ key, key ≠ "" → net.publicKeyBindings key = firstOwner file.events key

/-- The oldest events leave the memory, and the index with them. -/
theorem Infonet.enforceMemoryCap_events (net : Infonet) :
    net.enforceMemoryCap.events = hotWindow net.events := by
  unfold enforceMemoryCap hotWindow
  split
  · rename_i hfits
    rw [Nat.sub_eq_zero_of_le hfits, List.drop_zero]
  · simp only [invalidateMerkleCache]

theorem Infonet.enforceMemoryCap_index {net : Infonet} (h : ∀ id, id ≠ "" →
      (net.eventIndex id = none ↔ id ∉ net.events.map (·.eventId))) {id : String} (hid : id ≠ "") :
    net.enforceMemoryCap.eventIndex id = none ↔
      id ∉ (hotWindow net.events).map (·.eventId) := by
  unfold enforceMemoryCap hotWindow
  split
  · rename_i hfits
    rw [Nat.sub_eq_zero_of_le hfits, List.drop_zero]
    exact h id hid
  · simp only [invalidateMerkleCache]
    exact indexOf_eq_none hid

namespace Loaded

variable {env : Env} {call : Call} {file : ChainFile} {net : Infonet}

theorem enforceMemoryCap_rebuiltState (env : Env) (call : Call) (file : ChainFile) :
    Loaded env call file (Infonet.rebuiltState env call (.assigned call file)).enforceMemoryCap := by
  have htables := Tables.rebuiltState env call (.assigned call file)
  have hevents : (Infonet.rebuiltState env call (.assigned call file)).events = file.events :=
    Infonet.rebuiltAll_events file.events 0 _
  have hcold : (Infonet.rebuiltState env call (.assigned call file)).coldSegments =
      file.coldSegments := Infonet.rebuiltAll_coldSegments file.events 0 _
  have hsequence : ∀ slot n, 0 < n →
      ((Infonet.rebuiltState env call (.assigned call file)).lastSequence slot < n ↔
        file.SequenceFree env.rt slot n) := by
    intro slot n hpos
    cases slot with
    | node key => exact Infonet.rebuiltAll_lastSequence (.node key) hpos
    | domain key => exact Infonet.rebuiltAll_lastSequence (.domain key) hpos
  have howner : ∀ key, key ≠ "" →
      (Infonet.rebuiltState env call (.assigned call file)).publicKeyBindings key =
        firstOwner file.events key :=
    fun key hkey => Infonet.rebuiltAll_publicKeyBindings hkey
  have hhead : (Infonet.rebuiltState env call (.assigned call file)).headHash =
      Infonet.lastEventId file.events :=
    congrArg Infonet.lastEventId hevents
  generalize Infonet.rebuiltState env call (.assigned call file) = net at *
  have htables : Tables env call file.events net := htables
  obtain ⟨hhead', hnode, hdomain, hbindings, hrevocations, hfilter⟩ := net.enforceMemoryCap_tables
  exact {
    history := by
      rw [Infonet.history_enforceMemoryCap, Infonet.history, hevents, hcold, ChainFile.history]
    events := by rw [Infonet.enforceMemoryCap_events, hevents]
    headHash := hhead'.trans hhead
    index := fun id hid => by
      rw [Infonet.enforceMemoryCap_index (hevents ▸ htables.index) hid, hevents]
    unseen := fun later id => by
      rw [← htables.unseen_iff later id]
      simp [Infonet.rotateFilter, hfilter]
    revoked := fun now key => by
      rw [← htables.revoked_eq now key]
      simp [Infonet.revoked, hrevocations]
    sequence := fun slot n hpos => by
      rw [← hsequence slot n hpos]
      cases slot <;> simp [Infonet.lastSequence, hnode, hdomain]
    owner := fun key hkey => by rw [hbindings, howner key hkey] }

theorem flush (h : Loaded env call file net) (codec : Codec) (disk : Disk) :
    Loaded env call file (net.flush codec disk).1 := by
  have hclean : Loaded env call file { net with dirty := false } :=
    ⟨h.history, h.events, h.headHash, h.index, h.unseen, h.revoked,
      fun slot => by
        cases slot with
        | node key => exact h.sequence (.node key)
        | domain key => exact h.sequence (.domain key),
      h.owner⟩
  unfold Infonet.flush
  split
  · split
    · exact h
    · exact hclean
  · exact h

theorem loadChain (codec : Codec) {disk : Disk} (hfile : disk.chainFile = .content file)
    (hhash : ∀ e ∈ file.events, ChainEvent.hashMatches env call e = true)
    (hread : file.Readable env.rt) : Loaded env call file (Infonet.loadChain env codec call disk).1 := by
  have hrebuild : Infonet.rebuild env call (.assigned call file) =
      (Infonet.rebuiltState env call (.assigned call file), .ok ()) :=
    Infonet.rebuild_eq_ok.mpr ⟨hread.1, hread.2, rfl⟩
  have hcap := enforceMemoryCap_rebuiltState env call file
  have hevents : (Infonet.rebuiltState env call (.assigned call file)).events = file.events :=
    Infonet.rebuiltAll_events file.events 0 _
  unfold Infonet.loadChain
  rw [hfile]
  simp only [List.all_eq_true.mpr hhash, if_true, hrebuild, hevents]
  split
  · exact hcap.flush codec disk
  · rename_i hfits
    rwa [Infonet.enforceMemoryCap, if_pos (by rw [hevents]; omega)] at hcap

end Loaded

/-- A chain file that the rebuild raises on leaves an empty ledger with its archive. -/
theorem Infonet.loadChain_unreadable {env : Env} (codec : Codec) {call : Call} {disk : Disk}
    {file : ChainFile} (hfile : disk.chainFile = .content file)
    (hhash : ∀ e ∈ file.events, ChainEvent.hashMatches env call e = true)
    (hread : ¬ file.Readable env.rt) :
    (loadChain env codec call disk).1.events = [] ∧
    (loadChain env codec call disk).1.coldSegments = file.coldSegments ∧
    (loadChain env codec call disk).2.wal = disk.wal := by
  have hcold := (rebuild_frame env call (assigned call file)).2.1
  unfold loadChain
  rw [hfile]
  simp only [List.all_eq_true.mpr hhash, if_true]
  split
  · rename_i hrebuild
    rw [hrebuild] at hcold
    exact ⟨rfl, hcold, rfl⟩
  · rename_i hrebuild
    obtain ⟨hevents, hcounters, -⟩ := rebuild_eq_ok.mp hrebuild
    exact absurd ⟨hevents, hcounters⟩ hread

/-! ## The log -/

/-- Events of a ledger type are validated without the extensions. -/
theorem validateEventPayload_ext {rt : Runtime} {eventType : String}
    (hallowed : eventType ∈ allowedEventTypes) (ext : ExtensionValidators) (payload : Dict) :
    validateEventPayload rt ext eventType payload =
      validateEventPayload rt [] eventType payload := by
  obtain ⟨validate, hschema⟩ := Option.isSome_iff_exists.mp (getSchema_allowed rt hallowed)
  simp only [validateEventPayload, hschema]

theorem validateLedgerPayload_cutover {env : Env} {eventType : String}
    (hallowed : eventType ∈ allowedEventTypes) (cutoverDone : Bool) (payload : Dict) :
    validateLedgerPayload { env with cutoverDone := cutoverDone } eventType payload =
      validateLedgerPayload env eventType payload := by
  have hknown : eventType ∈ publicLedgerEventTypes := hallowed
  have hgate : "gate_message" ∈ allowedEventTypes := by decide
  have hdm : "dm_message" ∈ allowedEventTypes := by decide
  unfold validateLedgerPayload validatePrivateGateLedgerPayload validatePrivateDmLedgerPayload
    validatePublicLedgerPayload
  simp only [validateEventPayload_ext hgate, validateEventPayload_ext hdm, hknown, true_or]
  split
  · rfl
  · split
    · rfl
    · simp_all

theorem Sound.cutover {env : Env} {cutoverDone : Bool} {e : ChainEvent}
    (h : Sound { env with cutoverDone := cutoverDone } e) : Sound env e := by
  have hpayload : validateEventPayload env.rt env.extensionValidators e.eventType e.payload =
      .ok () := by
    have hvalid := h.payload
    rw [validateEventPayload_ext h.allowed] at hvalid ⊢
    exact hvalid
  have hledger : validateLedgerPayload env e.eventType e.payload = .ok () := by
    rw [← validateLedgerPayload_cutover h.allowed cutoverDone]
    exact h.ledgerPayload
  have hsig : checkSignature { env with cutoverDone := cutoverDone } e (e.seqNum env.rt) e.payload =
      checkSignature env e (e.seqNum env.rt) e.payload := checkSignature_congr env { env with cutoverDone := cutoverDone } rfl rfl _ _ _
  exact ⟨h.allowed, h.eventId, h.prevHash, h.nodeId, h.network, h.sequence, h.sequencePos,
    hpayload, hledger, h.ephemeral, h.size, h.version, h.signed, h.algo, h.ownKey, h.binding,
    hsig.symm.trans h.signature⟩

/-- An appended event is taken by a loaded ledger, whose head it follows, exactly when
    it is replayable. -/
theorem Loaded.accepts_iff {env : Env} {call call₀ : Call} {file : ChainFile}
    {net net₀ : Infonet} {cutoverDone : Bool} {p : Prepared} (h : Loaded env call file net)
    (call' : Call)
    (happ : Appended { env with cutoverDone := cutoverDone } call₀ net₀ p)
    (hnew : net.eventIndex p.event.eventId = none) (hlinked : p.event.prevHash = net.headHash)
    (hhead : net.headHash ≠ "") :
    Sound env p.event ∧ Admissible env call' net p.event ↔
      WalReplayable env call call' file p.event := by
  have hpos : 0 < p.event.seqNum env.rt := happ.accepted.sequencePos
  have hkey : p.event.publicKey ≠ "" := happ.signed.2.1
  constructor
  · rintro ⟨hs, ha⟩
    exact {
      allowed := hs.allowed
      fresh := ha.fresh
      unseen := (h.unseen call' p.event.eventId).mp ha.unseen
      sequence := (h.sequence _ _ hpos).mp ha.sequence
      bindable := h.owner _ hkey ▸ ha.bindable
      spool := fun hdm => by
        have hspool := Infonet.checkDmSpool_eq_ok.mp (ha.spool hdm)
        rwa [h.events] at hspool
      notRevoked := fun hrev => ha.notRevoked ((h.revoked _ _).trans hrev) }
  · intro hw
    refine ⟨(happ.sound hw.allowed ?_).cutover, {
      unknown := hnew
      unseen := (h.unseen call' p.event.eventId).mpr hw.unseen
      linked := hlinked
      sequence := (h.sequence _ _ hpos).mpr hw.sequence
      fresh := hw.fresh
      spool := fun hdm => by
        rw [Infonet.checkDmSpool_eq_ok, h.events]
        exact hw.spool hdm
      notRevoked := fun hrev => hw.notRevoked ((h.revoked _ _).symm.trans hrev)
      bindable := by rw [h.owner _ hkey]; exact hw.bindable
      hash := happ.hash call' }⟩
    rw [← happ.prevHash, hlinked]
    exact hhead

namespace Infonet

variable {env : Env} {call : Call} {codec : Codec} {disk : Disk} {net : Infonet} {e : ChainEvent}

theorem ingestEvent_coldSegments (env : Env) (call : Call) (net : Infonet) (prev : String)
    (e : ChainEvent) : (net.ingestEvent env call prev e).1.coldSegments = net.coldSegments := by
  have hrotate : (net.rotateFilter call).coldSegments = net.coldSegments := rfl
  unfold ingestEvent
  cases hheader : ingestHeader env net e with
  | error skip => rfl
  | ok n =>
    simp only
    generalize net.rotateFilter call = rotated at hrotate
    cases hbody : ingestBody env call rotated prev e n with
    | error skip => exact hrotate
    | ok _ =>
      cases hbind : rotated.bindPublicKey e.publicKey e.nodeId with
      | error reason => exact hrotate
      | ok bound =>
        obtain ⟨-, -, -, rfl⟩ := bindPublicKey_eq_ok.mp hbind
        cases hbound : ingestBound env call e n with
        | error skip => exact hrotate
        | ok _ =>
          simp only
          split
          · simpa [recordEvent, setBinding] using hrotate
          · rename_i happly
            obtain ⟨-, rfl⟩ := applyIfRevocation_eq_ok.mp happly
            simpa [recordEvent, setBinding] using hrotate

/-- A single event that is refused is not counted, or raises; either way nothing is
    archived. -/
theorem ingestEvents_refused (h : ¬ (Sound env e ∧ Admissible env call net e)) :
    (net.ingestEvents env call [.event e]).1.coldSegments = net.coldSegments ∧
    ∀ r, (net.ingestEvents env call [.event e]).2 = .ok r → r.accepted = 0 := by
  have hcold := ingestEvent_coldSegments env call net net.headHash e
  unfold ingestEvents ingestLoop ingestItem
  cases hevent : net.ingestEvent env call net.headHash e with
  | mk net₁ outcome =>
    rw [hevent] at hcold
    cases outcome with
    | ok _ => exact absurd (ingestEvent_eq_ok.mp hevent).1 h
    | error skip =>
      cases hskip : IngestResult.skip {} 0 skip with
      | error exn => simpa [hevent, hskip] using hcold
      | ok r =>
        have hzero : r.accepted = 0 := IngestResult.skip_accepted hskip
        simpa [hevent, hskip, ingestLoop, hzero] using hcold

theorem replayWal_missing (hwal : disk.wal = .missing) :
    (replayWal env codec call net disk).1 = net := by
  simp [replayWal, hwal]

/-- An event that the chain has, or that follows another head, is dropped. -/
theorem replayWal_stale (hwal : disk.wal = .content e)
    (h : net.eventIndex e.eventId ≠ none ∨ e.prevHash ≠ net.headHash) :
    (replayWal env codec call net disk).1 = net := by
  unfold replayWal
  simp only [hwal]
  split
  · rfl
  · rename_i hnew
    rw [if_pos]
    rcases h with hknown | hother
    · exact absurd (Option.isSome_iff_ne_none.mpr hknown) hnew
    · exact hother

theorem history_flush (codec : Codec) (net : Infonet) (disk : Disk) :
    (net.flush codec disk).1.history = net.history := by
  unfold flush
  split
  · split <;> rfl
  · rfl

theorem replayWal_accepted (hwal : disk.wal = .content e) (hnew : net.eventIndex e.eventId = none)
    (h : Sound env e ∧ Admissible env call net e) :
    (replayWal env codec call net disk).1.history = net.history ++ [e] := by
  have haccepts : AcceptsAll env call net [e] := ⟨h, trivial⟩
  have hingest : net.ingestEvents env call [.event e] = _ := ingestEvents_of_acceptsAll haccepts
  unfold replayWal
  simp only [hwal, hnew, Option.isSome_none, Bool.false_eq_true, if_false, h.2.linked, ne_eq,
    not_true_eq_false, hingest, List.length_singleton, one_ne_zero]
  rw [history_flush, commitBatch_history]

theorem replayWal_refused (hwal : disk.wal = .content e) (hnew : net.eventIndex e.eventId = none)
    (hlinked : e.prevHash = net.headHash) (h : ¬ (Sound env e ∧ Admissible env call net e)) :
    (replayWal env codec call net disk).1.history = net.coldSegments.flatMap (·.events) := by
  obtain ⟨hcold, haccepted⟩ := ingestEvents_refused h
  unfold replayWal
  simp only [hwal, hnew, Option.isSome_none, Bool.false_eq_true, if_false, hlinked, ne_eq,
    not_true_eq_false]
  cases hingest : net.ingestEvents env call [.event e] with
  | mk net₁ outcome =>
    rw [hingest] at hcold haccepted
    cases outcome with
    | error exn => simp [resetToGenesis, history, ← hcold]
    | ok r => simp [resetToGenesis, history, ← hcold, haccepted r rfl]

/-- A replay leaves the chain alone, extends it by the event of the log, or resets it. -/
theorem replayWal_history (env : Env) (codec : Codec) (call : Call) (net : Infonet)
    (hwal : disk.wal = .content e) :
    (replayWal env codec call net disk).1.history = net.history ∨
    (replayWal env codec call net disk).1.history = net.history ++ [e] ∨
    (replayWal env codec call net disk).1.history = net.coldSegments.flatMap (·.events) := by
  by_cases hnew : net.eventIndex e.eventId = none
  · by_cases hlinked : e.prevHash = net.headHash
    · by_cases hok : Sound env e ∧ Admissible env call net e
      · exact .inr (.inl (replayWal_accepted hwal hnew hok))
      · exact .inr (.inr (replayWal_refused hwal hnew hlinked hok))
    · exact .inl (by rw [replayWal_stale hwal (.inr hlinked)])
  · exact .inl (by rw [replayWal_stale hwal (.inl hnew)])

end Infonet

/-! ## The restart -/

theorem lastEventId_ne_empty {env : Env} (call : Call) {events : List ChainEvent}
    (hhash : ∀ e ∈ events, ChainEvent.hashMatches env call e = true) :
    Infonet.lastEventId events ≠ "" := by
  unfold Infonet.lastEventId
  cases hlast : events.getLast? with
  | none =>
    show genesisHash ≠ ""
    decide
  | some e =>
    have hmatch : (ChainEvent.init env call e).eventId = e.eventId := by
      simpa [ChainEvent.hashMatches] using hhash e (List.mem_of_getLast? hlast)
    show e.eventId ≠ ""
    rw [← hmatch]
    exact env.sha256_ne_empty _

/-- A rebuild can read an appended event, and its counters too. -/
theorem Appended.readable {env : Env} {call : Call} {net : Infonet} {p : Prepared}
    (h : Appended env call net p) :
    Rebuildable env.rt p.event ∧ Infonet.rebuildCounters env.rt [p.event] = .ok () := by
  obtain ⟨x, hstamp⟩ := h.timestampFloat
  refine ⟨⟨h.accepted.seq, h.revocation⟩, ?_⟩
  simp only [Infonet.rebuildCounters, hstamp, Infonet.numberOf, check_bind_eq_ok, onlyIf_eq_ok,
    and_true]
  exact fun _ => rfl

theorem hotWindow_eq_nil {events : List ChainEvent} : hotWindow events = [] ↔ events = [] := by
  unfold hotWindow maxChainMemory
  rw [List.drop_eq_nil_iff, ← List.length_eq_zero_iff]
  omega

/-- Loading cuts the chain to what fits in memory, writes it out, and so clears the log. -/
def ChainFile.Rewritten (env : Env) (codec : Codec) (call : Call) (file : ChainFile) : Prop :=
  maxChainMemory < file.events.length ∧
  (codec.roundTrip
    (Infonet.rebuiltState env call (.assigned call file)).enforceMemoryCap.toFile).isSome

theorem Infonet.loadChain_wal {env : Env} (codec : Codec) {call : Call} {disk : Disk}
    {file : ChainFile} (hfile : disk.chainFile = .content file)
    (hhash : ∀ e ∈ file.events, ChainEvent.hashMatches env call e = true)
    (hread : file.Readable env.rt) :
    (file.Rewritten env codec call → (loadChain env codec call disk).2.wal = .missing) ∧
    (¬ file.Rewritten env codec call → (loadChain env codec call disk).2.wal = disk.wal) := by
  have hrebuild : rebuild env call (.assigned call file) =
      (rebuiltState env call (.assigned call file), .ok ()) :=
    rebuild_eq_ok.mpr ⟨hread.1, hread.2, rfl⟩
  have hevents : (rebuiltState env call (.assigned call file)).events = file.events :=
    rebuiltAll_events file.events 0 _
  have hdirty : maxChainMemory < file.events.length →
      (rebuiltState env call (.assigned call file)).enforceMemoryCap.dirty = true := by
    intro hlong
    rw [enforceMemoryCap, if_neg (by rw [hevents]; omega)]
    rfl
  unfold loadChain ChainFile.Rewritten
  rw [hfile]
  simp only [List.all_eq_true.mpr hhash, if_true, hrebuild, hevents]
  split
  · rename_i hlong
    simp only [flush, hdirty hlong, if_true, hlong, true_and]
    cases codec.roundTrip (rebuiltState env call (.assigned call file)).enforceMemoryCap.toFile <;>
      simp
  · rename_i hfits
    simp [hfits]

/-- The replay drops the event: the chain in memory has it, or has another head. -/
def ChainFile.Stale (file : ChainFile) (e : ChainEvent) : Prop :=
  e.eventId ∈ (hotWindow file.events).map (·.eventId) ∨
    e.prevHash ≠ Infonet.lastEventId file.events

/-- A stale event of the log is dropped, a replayable one extends the chain, and a refused one
resets it. -/
theorem Loaded.replayWal_history {env : Env} {call call₀ : Call} {file : ChainFile}
    {net net₀ : Infonet} {cutoverDone : Bool} {p : Prepared} {disk : Disk}
    (h : Loaded env call file net) (codec : Codec) (call' : Call)
    (happ : Appended { env with cutoverDone := cutoverDone } call₀ net₀ p)
    (hwal : disk.wal = .content p.event) (hhead : net.headHash ≠ "") :
    let history := (Infonet.replayWal env codec call' net disk).1.history
    (file.Stale p.event → history = file.history) ∧
    (¬ file.Stale p.event → WalReplayable env call call' file p.event →
      history = file.history ++ [p.event]) ∧
    (¬ file.Stale p.event → ¬ WalReplayable env call call' file p.event →
      history = net.coldSegments.flatMap (·.events)) := by
  have hindex := h.index p.event.eventId happ.eventId
  have hnext : ¬ file.Stale p.event →
      net.eventIndex p.event.eventId = none ∧ p.event.prevHash = net.headHash := by
    intro hfresh
    obtain ⟨hunknown, hlinked⟩ := not_or.mp hfresh
    exact ⟨hindex.mpr hunknown, (not_not.mp hlinked).trans h.headHash.symm⟩
  refine ⟨fun hstale => ?_, fun hfresh hreplay => ?_, fun hfresh hrefused => ?_⟩
  · rw [Infonet.replayWal_stale hwal ?_, h.history]
    rcases hstale with hknown | hother
    · exact .inl fun hnone => hindex.mp hnone hknown
    · exact .inr fun heq => hother (heq.trans h.headHash)
  · obtain ⟨hnew, hlinked⟩ := hnext hfresh
    have haccepts := (h.accepts_iff call' happ hnew hlinked hhead).mpr hreplay
    rw [Infonet.replayWal_accepted hwal hnew haccepts, h.history]
  · obtain ⟨hnew, hlinked⟩ := hnext hfresh
    have haccepts := h.accepts_iff call' happ hnew hlinked hhead
    exact Infonet.replayWal_refused hwal hnew hlinked fun hok => hrefused (haccepts.mp hok)

/-- The log that a call leaves when the node stops right after writing it. -/
def logOf (env : Env) (call : Call) (net : Infonet) (c : AppendCall) : JsonFile ChainEvent :=
  match (c.prepare env call net).2 with
  | .ok p => .content p.event
  | .error _ => .missing

/-- The files of a node that stored one message and stopped during the next append. -/
def stoppedDisk (env : Env) (c : AppendCall) : Disk where
  chainFile := .content messageLedger.toFile
  wal := logOf env (callAt 1700000010) messageLedger c

end Vincent.Mesh
