-- SUMMARY: Appends, flushes and a crash: when every acknowledged event survives.
import Vincent.Mesh.Restart

/-!
# Durability

An append writes the log, changes the chain in memory and returns; a timer flushes the
chain to its file in four steps, and an append can fall between any two of them.
-/

namespace Vincent.Mesh

open Vincent.Python Vincent.Check Vincent.Run

/-- An append that has written the log and not yet returned. -/
structure Pending where
  call : Call
  cutoverDone : Bool
  prepared : Prepared
  /-- The log could be written. An append goes on without it. -/
  logged : Bool

/-- How far a flush has come. -/
inductive FlushPhase where
  | idle
  | serialized (file : ChainFile)
  | written
  | cleaned

/-- The ledger in memory and on disk, the calls in progress, and the events whose append
    has returned after its log was written. -/
structure Node where
  net : Infonet
  disk : Disk
  phase : FlushPhase := .idle
  pending : Option Pending := none
  acknowledged : List ChainEvent := []

inductive NodeAction where
  | appendLog (call : Call) (cutoverDone : Bool) (c : AppendCall) (logged : Bool)
  | appendCommit
  | flushSerialize
  | flushWrite (ok : Bool)
  | flushClean
  | flushClearLog

/-- The content of the chain file. -/
def Disk.file (disk : Disk) : ChainFile :=
  match disk.chainFile with
  | .content file => file
  | _ => {
    headHash := genesisHash
    nodeSequences := fun _ => 0
    sequenceDomains := fun _ => 0
    coldSegments := []
    events := [] }

namespace Node

variable (env : Env) (codec : Codec)

/-- One append runs at a time, and one flush. -/
def step (s : Node) : NodeAction → Node
  | .appendLog call cutoverDone c logged =>
    match s.pending with
    | some _ => s
    | none =>
      match c.prepare { env with cutoverDone := cutoverDone } call s.net with
      | (net, .error _) => { s with net := net }
      | (net, .ok p) => { s with
          net := net
          disk := if logged then { s.disk with wal := .content p.event } else s.disk
          pending := some ⟨call, cutoverDone, p, logged⟩ }
  | .appendCommit =>
    match s.pending with
    | none => s
    | some a =>
      match s.net.commitAppend { env with cutoverDone := a.cutoverDone } a.call a.prepared with
      | (net, .error _) => { s with net := net, pending := none }
      | (net, .ok e) => { s with
          net := net
          pending := none
          acknowledged := if a.logged then s.acknowledged ++ [e] else s.acknowledged }
  | .flushSerialize =>
    match s.phase with
    | .idle =>
      if s.net.dirty then
        match codec.roundTrip s.net.toFile with
        | none => s
        | some file => { s with phase := .serialized file }
      else s
    | _ => s
  | .flushWrite ok =>
    match s.phase with
    | .serialized file =>
      if ok then { s with disk := { s.disk with chainFile := .content file }, phase := .written }
      else { s with phase := .idle }
    | _ => s
  | .flushClean =>
    match s.phase with
    | .written => { s with net := { s.net with dirty := false }, phase := .cleaned }
    | _ => s
  | .flushClearLog =>
    match s.phase with
    | .cleaned => { s with disk := { s.disk with wal := .missing }, phase := .idle }
    | _ => s

/-- The four steps of a flush with nothing between them are `_flush`. -/
theorem flush_steps (s : Node) (hidle : s.phase = .idle) :
    run (step env codec) s [.flushSerialize, .flushWrite true, .flushClean, .flushClearLog] =
      { s with net := (s.net.flush codec s.disk).1, disk := (s.net.flush codec s.disk).2 } := by
  obtain ⟨net, disk, phase, pending, acknowledged⟩ := s
  obtain rfl : phase = .idle := hidle
  simp only [run_cons, run_nil]
  cases hdirty : net.dirty with
  | false => simp [step, hdirty, Infonet.flush]
  | true =>
    cases hcodec : codec.roundTrip net.toFile with
    | none => simp [step, hdirty, hcodec, Infonet.flush]
    | some file => simp [step, hdirty, hcodec, Infonet.flush]

/-- The two steps of an append with nothing between them are the append. -/
theorem append_steps (s : Node) (call : Call) (cutoverDone : Bool) (c : AppendCall) (logged : Bool)
    (hnone : s.pending = none) :
    (run (step env codec) s [.appendLog call cutoverDone c logged, .appendCommit]).net =
      (s.net.append { env with cutoverDone := cutoverDone } call c).1 := by
  simp only [run_cons, run_nil, Infonet.append]
  cases hprep : c.prepare { env with cutoverDone := cutoverDone } call s.net with
  | mk net outcome =>
    cases outcome with
    | error fault => simp [step, hnone, hprep]
    | ok p =>
      simp only [step, hnone, hprep]
      split <;> simp_all

end Node

/-! ## The invariant -/

/-- The event can be loaded at any time. -/
structure StableEvent (env : Env) (e : ChainEvent) : Prop where
  hash : ∀ later, ChainEvent.hashMatches env later e = true
  rebuildable : Rebuildable env.rt e
  counters : Infonet.rebuildCounters env.rt [e] = .ok ()

def ChainFile.Stable (env : Env) (file : ChainFile) : Prop :=
  ∀ e ∈ file.events, StableEvent env e

/-- An append of this node wrote the event, before or after the cutover. -/
def Written (env : Env) (e : ChainEvent) : Prop :=
  ∃ cutoverDone call net p,
    Appended { env with cutoverDone := cutoverDone } call net p ∧ p.event = e

/-- The event comes right after the chain of the file. -/
def ChainFile.Next (file : ChainFile) (e : ChainEvent) : Prop :=
  e.prevHash = Infonet.lastEventId file.events ∧ file.events.length ≤ maxChainMemory

namespace Node

/-- The chain file holds the chain in memory, and no flush is due or under way. -/
structure Settled (s : Node) : Prop where
  clean : s.net.dirty = false
  idle : s.phase = .idle
  events : s.disk.file.events = s.net.events
  archive : s.disk.file.coldSegments = s.net.coldSegments

/-- The step keeps acknowledged events safe: an append whose log is written starts on a
    settled node, and what a flush writes reads back as it was. -/
def Safe (env : Env) (codec : Codec) (s : Node) : NodeAction → Prop
  | .appendLog call cutoverDone c logged => logged = true → s.pending = none →
    (∃ net p, c.prepare { env with cutoverDone := cutoverDone } call s.net = (net, .ok p)) →
      s.Settled
  | .flushSerialize => ∀ file, codec.roundTrip s.net.toFile = some file → file = s.net.toFile
  | _ => True

/-- What safe steps maintain. An acknowledged event is in the chain file, or it is in the
    log and comes next; while a flush is under way, it is in what the flush writes. -/
structure Durable (env : Env) (s : Node) : Prop where
  readable : s.disk.chainFile ≠ .corrupt ∧ s.disk.wal ≠ .corrupt
  stored : s.disk.file.Stable env
  memory : ∀ e ∈ s.net.events, StableEvent env e
  head : s.net.headHash = Infonet.lastEventId s.net.events
  fits : s.net.events.length ≤ maxChainMemory
  log : ∀ e, s.disk.wal = .content e → Written env e
  pending : ∀ a, s.pending = some a → Written env a.prepared.event
  pendingLogged : ∀ a, s.pending = some a → a.logged = true →
    s.net.dirty = false ∧ s.phase = .idle ∧ s.disk.wal = .content a.prepared.event ∧
      s.disk.file.Next a.prepared.event
  inMemory : ∀ e ∈ s.acknowledged, e ∈ s.net.history
  onDisk : ∀ e ∈ s.acknowledged,
    e ∈ s.disk.file.history ∨ (s.disk.wal = .content e ∧ s.disk.file.Next e)
  serialized : ∀ file, s.phase = .serialized file →
    file.Stable env ∧ ∀ e ∈ s.acknowledged, e ∈ file.history
  flushed : s.phase = .written ∨ s.phase = .cleaned →
    ∀ e ∈ s.acknowledged, e ∈ s.disk.file.history

end Node

theorem Written.stable {env : Env} {e : ChainEvent} (h : Written env e) : StableEvent env e := by
  obtain ⟨cutoverDone, call, net, p, happ, rfl⟩ := h
  obtain ⟨hrebuild, hcounters⟩ := happ.readable
  exact ⟨happ.hash, hrebuild, hcounters⟩

/-- Before its log is written, an append changes no more than a key binding. -/
theorem AppendCall.prepare_fst (env : Env) (call : Call) (net : Infonet) (c : AppendCall) :
    (c.prepare env call net).1 = net ∨
    ∃ key node, (c.prepare env call net).1 = net.setBinding key node := by
  unfold prepare
  split
  · exact .inl rfl
  · split
    · exact .inl rfl
    · rename_i hbind
      obtain ⟨-, -, -, rfl⟩ := Infonet.bindPublicKey_eq_ok.mp hbind
      split <;> exact .inr ⟨_, _, rfl⟩

theorem hotWindow_length_le (events : List ChainEvent) :
    (hotWindow events).length ≤ maxChainMemory := by
  unfold hotWindow
  rw [List.length_drop]
  omega

theorem lastEventId_hotWindow (events : List ChainEvent) :
    Infonet.lastEventId (hotWindow events) = Infonet.lastEventId events := by
  unfold Infonet.lastEventId hotWindow
  rw [List.getLast?_drop]
  split
  · rename_i hshort
    have hnone : events = [] := by
      rw [← List.length_eq_zero_iff]
      simp only [maxChainMemory] at hshort
      omega
    simp [hnone]
  · rfl

/-- The second half of an append returns, whatever has happened to the ledger since the
    log was written. -/
theorem Infonet.commitAppend_written {env : Env} {p : Prepared} (h : Written env p.event)
    (cutoverDone : Bool) (call : Call) (net : Infonet) :
    ∃ net', net.commitAppend { env with cutoverDone := cutoverDone } call p = (net', .ok p.event) ∧
      net'.history = net.history ++ [p.event] ∧
      net'.events = hotWindow (net.events ++ [p.event]) ∧ net'.headHash = p.event.eventId := by
  obtain ⟨_, _, _, p', happ, hevent⟩ := h
  have hinfo : p.event.eventType = "key_revoke" → ∃ info, revocationInfo env.rt p.event = .ok info :=
    hevent ▸ happ.revocation
  refine ⟨_, commitAppend_eq _ call net hinfo, ?_, ?_, ?_⟩
  · rw [history_save]
    simp [history, recordEvent, invalidateMerkleCache]
  · show (enforceMemoryCap _).events = _
    rw [enforceMemoryCap_events]
    simp [recordEvent, invalidateMerkleCache]
  · simp [recordEvent, invalidateMerkleCache]

/-! ## One step -/

namespace Node.Durable

variable {env : Env} {codec : Codec} {s : Node}

/-- A ledger that differs in its tables or its dirty flag alone is as durable. -/
theorem of_net (h : s.Durable env) {net : Infonet} (hevents : net.events = s.net.events)
    (hcold : net.coldSegments = s.net.coldSegments) (hhead : net.headHash = s.net.headHash)
    (hdirty : net.dirty = s.net.dirty) : Durable env { s with net := net } where
  readable := h.readable
  stored := h.stored
  memory := by simpa [hevents] using h.memory
  head := by simpa [hevents, hhead] using h.head
  fits := by simpa [hevents] using h.fits
  log := h.log
  pending := h.pending
  pendingLogged := by simpa [hdirty] using h.pendingLogged
  inMemory := by simpa [Infonet.history, hevents, hcold] using h.inMemory
  onDisk := h.onDisk
  serialized := h.serialized
  flushed := h.flushed

theorem settled_acknowledged (h : s.Durable env) (hsettled : s.Settled) :
    ∀ e ∈ s.acknowledged, e ∈ s.disk.file.history := by
  intro e he
  have hmem := h.inMemory e he
  rwa [ChainFile.history, hsettled.events, hsettled.archive]

theorem appendLog (h : s.Durable env) (call : Call) (cutoverDone : Bool) (c : AppendCall)
    (logged : Bool) (hsafe : s.Safe env codec (.appendLog call cutoverDone c logged)) :
    (s.step env codec (.appendLog call cutoverDone c logged)).Durable env := by
  have hfst := AppendCall.prepare_fst { env with cutoverDone := cutoverDone } call s.net c
  cases hnone : s.pending with
  | some a => simpa [step, hnone] using h
  | none =>
    simp only [step, hnone]
    cases hprep : c.prepare { env with cutoverDone := cutoverDone } call s.net with
    | mk net outcome =>
      rw [hprep] at hfst
      have hbound : Durable env { s with net := net } := by
        rcases hfst with rfl | ⟨key, node, rfl⟩
        · exact h
        · exact h.of_net rfl rfl rfl rfl
      cases outcome with
      | error fault => simpa only [hnone] using hbound
      | ok p =>
        obtain ⟨happ, rfl⟩ := AppendCall.prepare_eq_ok hprep
        have hwritten : Written env p.event := ⟨cutoverDone, call, s.net, p, happ, rfl⟩
        cases logged with
        | false => exact { hbound with
            pending := fun a ha => by cases ha; exact hwritten
            pendingLogged := fun a ha hlogged => by cases ha; cases hlogged }
        | true =>
          have hsettled : s.Settled := hsafe rfl hnone ⟨_, p, hprep⟩
          have hstored := h.settled_acknowledged hsettled
          have hnext : s.disk.file.Next p.event := by
            refine ⟨?_, hsettled.events ▸ h.fits⟩
            rw [happ.prevHash, h.head, hsettled.events]
          exact {
            readable := ⟨h.readable.1, by simp⟩
            stored := h.stored
            memory := h.memory
            head := h.head
            fits := h.fits
            log := fun e he => by cases he; exact hwritten
            pending := fun a ha => by cases ha; exact hwritten
            pendingLogged := fun a ha _ => by
              cases ha
              exact ⟨hsettled.clean, hsettled.idle, rfl, hnext⟩
            inMemory := h.inMemory
            -- the log is overwritten, but the file has every event already
            onDisk := fun e he => .inl (hstored e he)
            serialized := h.serialized
            flushed := fun _ => hstored }

theorem appendCommit (h : s.Durable env) : (s.step env codec .appendCommit).Durable env := by
  cases hpending : s.pending with
  | none => simpa [step, hpending] using h
  | some a =>
    have hwritten := h.pending a hpending
    obtain ⟨net, hcommit, hhistory, hevents, hhead⟩ :=
      Infonet.commitAppend_written hwritten a.cutoverDone a.call s.net
    simp only [step, hpending, hcommit]
    have hmemory : ∀ e ∈ net.events, StableEvent env e := by
      intro e he
      rw [hevents] at he
      rcases List.mem_append.mp (List.mem_of_mem_drop he) with hold | hnew
      · exact h.memory e hold
      · exact List.mem_singleton.mp hnew ▸ hwritten.stable
    have hlast : net.headHash = Infonet.lastEventId net.events := by
      rw [hhead, hevents, lastEventId_hotWindow]
      simp [Infonet.lastEventId]
    have hfits : net.events.length ≤ maxChainMemory := hevents ▸ hotWindow_length_le _
    have hinMemory : ∀ e ∈ s.acknowledged, e ∈ net.history := fun e he => by
      rw [hhistory]
      exact List.mem_append_left _ (h.inMemory e he)
    cases hlogged : a.logged with
    | false => exact {
        readable := h.readable
        stored := h.stored
        memory := hmemory
        head := hlast
        fits := hfits
        log := h.log
        pending := by simp
        pendingLogged := by simp
        inMemory := hinMemory
        onDisk := h.onDisk
        serialized := h.serialized
        flushed := h.flushed }
    | true =>
      obtain ⟨-, hidle, hwal, hnext⟩ := h.pendingLogged a hpending hlogged
      exact {
        readable := h.readable
        stored := h.stored
        memory := hmemory
        head := hlast
        fits := hfits
        log := h.log
        pending := by simp
        pendingLogged := by simp
        inMemory := fun e he => by
          rcases List.mem_append.mp he with hold | hnew
          · exact hinMemory e hold
          · obtain rfl := List.mem_singleton.mp hnew
            simp [hhistory]
        onDisk := fun e he => by
          rcases List.mem_append.mp he with hold | hnew
          · exact h.onDisk e hold
          · obtain rfl := List.mem_singleton.mp hnew
            exact .inr ⟨hwal, hnext⟩
        serialized := fun file hphase => by simp [hidle] at hphase
        flushed := fun hphase => by simp [hidle] at hphase }

theorem flushSerialize (h : s.Durable env) (hsafe : s.Safe env codec .flushSerialize) :
    (s.step env codec .flushSerialize).Durable env := by
  simp only [step]
  split
  · rename_i hidle
    split
    · rename_i hdirty
      split
      · exact h
      · rename_i file hcodec
        obtain rfl := hsafe file hcodec
        exact { h with
          pendingLogged := fun a ha hlogged => by
            have hclean := (h.pendingLogged a ha hlogged).1
            simp [hclean] at hdirty
          serialized := fun file hphase => by
            cases hphase
            exact ⟨h.memory, h.inMemory⟩
          flushed := by simp }
    · exact h
  · exact h

theorem flushWrite (h : s.Durable env) (ok : Bool) :
    (s.step env codec (.flushWrite ok)).Durable env := by
  simp only [step]
  split
  · rename_i file hphase
    obtain ⟨hstable, hin⟩ := h.serialized file hphase
    have hbusy : ∀ a, s.pending = some a → a.logged = true → False := fun a ha hlogged => by
      simp [(h.pendingLogged a ha hlogged).2.1] at hphase
    cases ok with
    | false => exact { h with
        pendingLogged := fun a ha hlogged => (hbusy a ha hlogged).elim
        serialized := by simp
        flushed := by simp }
    | true => exact { h with
        readable := ⟨by simp, h.readable.2⟩
        stored := hstable
        pendingLogged := fun a ha hlogged => (hbusy a ha hlogged).elim
        onDisk := fun e he => .inl (hin e he)
        serialized := by simp
        flushed := fun _ => hin }
  · exact h

theorem flushClean (h : s.Durable env) : (s.step env codec .flushClean).Durable env := by
  simp only [step]
  split
  · rename_i hphase
    have hin := h.flushed (.inl hphase)
    exact { h with
      pendingLogged := fun a ha hlogged => by
        simp [(h.pendingLogged a ha hlogged).2.1] at hphase
      serialized := by simp
      flushed := fun _ => hin }
  · exact h

theorem flushClearLog (h : s.Durable env) : (s.step env codec .flushClearLog).Durable env := by
  simp only [step]
  split
  · rename_i hphase
    have hin := h.flushed (.inr hphase)
    exact { h with
      readable := ⟨h.readable.1, by simp⟩
      log := by simp
      pendingLogged := fun a ha hlogged => by
        simp [(h.pendingLogged a ha hlogged).2.1] at hphase
      onDisk := fun e he => .inl (hin e he)
      serialized := by simp
      flushed := by simp }
  · exact h

/-- Every safe step keeps the node durable. -/
theorem step {action : NodeAction} (h : s.Durable env) (hsafe : s.Safe env codec action) :
    (s.step env codec action).Durable env := by
  cases action with
  | appendLog call cutoverDone c logged => exact h.appendLog call cutoverDone c logged hsafe
  | appendCommit => exact h.appendCommit
  | flushSerialize => exact h.flushSerialize hsafe
  | flushWrite ok => exact h.flushWrite ok
  | flushClean => exact h.flushClean
  | flushClearLog => exact h.flushClearLog

theorem run {actions : List NodeAction} (h : s.Durable env)
    (hsafe : Along (Node.step env codec) (Node.Safe env codec) s actions) :
    (Run.run (Node.step env codec) s actions).Durable env :=
  invariant (fun _ _ hs hguard => hs.step hguard) h hsafe

end Node.Durable

/-! ## The crash -/

theorem ChainFile.Stable.readable {env : Env} {file : ChainFile} (h : file.Stable env) :
    file.Readable env.rt :=
  ⟨fun e he => (h e he).rebuildable, Infonet.rebuildCounters_eq_ok.mpr fun e he => (h e he).counters⟩

theorem loaded_empty (env : Env) (call : Call) :
    Loaded env call (Disk.file {}) (Infonet.empty call) := by
  have htables : Tables env call [] (Infonet.empty call) := Tables.empty rfl rfl rfl
  exact {
    history := rfl
    events := rfl
    headHash := rfl
    index := fun id _ => iff_of_true rfl List.not_mem_nil
    unseen := htables.unseen_iff
    revoked := htables.revoked_eq
    sequence := fun slot n hpos => by
      refine iff_of_true (by cases slot <;> exact hpos) ⟨?_, fun e he => absurd he List.not_mem_nil⟩
      cases slot with
      | node key => exact hpos
      | domain key =>
        show (if _ then 0 else 0 : Int) < n
        split <;> exact hpos
    owner := fun _ _ => rfl }

theorem Disk.loaded {env : Env} {disk : Disk} (codec : Codec) (call : Call)
    (hreadable : disk.chainFile ≠ .corrupt) (hstable : disk.file.Stable env) :
    Loaded env call disk.file (Infonet.loadChain env codec call disk).1 ∧
    (disk.file.Rewritten env codec call → (Infonet.loadChain env codec call disk).2.wal = .missing) ∧
    (¬ disk.file.Rewritten env codec call →
      (Infonet.loadChain env codec call disk).2.wal = disk.wal) := by
  obtain ⟨chainFile, wal⟩ := disk
  cases chainFile with
  | missing =>
    refine ⟨loaded_empty env call, fun hrewritten => ?_, fun _ => rfl⟩
    exact absurd hrewritten.1 (Nat.not_lt_zero _)
  | corrupt => exact absurd rfl hreadable
  | content file =>
    have hhash : ∀ e ∈ file.events, ChainEvent.hashMatches env call e = true :=
      fun e he => (hstable e he).hash call
    exact ⟨Loaded.loadChain codec rfl hhash hstable.readable,
      Infonet.loadChain_wal codec rfl hhash hstable.readable⟩

/-- The restart clears the log before, drops its event as stale, or replays it. -/
def Disk.LogHarmless (env : Env) (codec : Codec) (call call' : Call) (disk : Disk) : Prop :=
  ∀ e, disk.wal = .content e → disk.file.Rewritten env codec call ∨ disk.file.Stale e ∨
    WalReplayable env call call' disk.file e

/-- The ledger after a crash. -/
def Node.restart (env : Env) (codec : Codec) (call call' : Call) (s : Node) : Infonet :=
  (Infonet.load env codec call call' s.disk).1

/-- A durable node comes back with its chain file, and with the event of the log where
    that event comes next. -/
theorem Node.Durable.restart_history {env : Env} {codec : Codec} {call call' : Call} {s : Node}
    (h : s.Durable env) (hlog : s.disk.LogHarmless env codec call call') :
    s.disk.file.history <+: (s.restart env codec call call').history ∧
    ∀ e, s.disk.wal = .content e → s.disk.file.Next e → ¬ s.disk.file.Stale e →
      e ∈ (s.restart env codec call call').history := by
  obtain ⟨hloaded, hcleared, hkept⟩ := Disk.loaded codec call h.readable.1 h.stored
  show _ <+: (Infonet.replayWal env codec call' (Infonet.loadChain env codec call s.disk).1
      (Infonet.loadChain env codec call s.disk).2).1.history ∧
    ∀ e, _ → _ → _ → e ∈ (Infonet.replayWal env codec call'
      (Infonet.loadChain env codec call s.disk).1
      (Infonet.loadChain env codec call s.disk).2).1.history
  generalize (Infonet.loadChain env codec call s.disk).1 = net at hloaded
  generalize (Infonet.loadChain env codec call s.disk).2 = disk at hcleared hkept
  by_cases hrewritten : s.disk.file.Rewritten env codec call
  · rw [Infonet.replayWal_missing (hcleared hrewritten), hloaded.history]
    refine ⟨List.prefix_rfl, fun e _ hnext => ?_⟩
    have hlong := hrewritten.1
    have hfits := hnext.2
    omega
  · have hwal := hkept hrewritten
    cases hcontent : s.disk.wal with
    | corrupt => exact absurd hcontent h.readable.2
    | missing =>
      rw [Infonet.replayWal_missing (hwal.trans hcontent), hloaded.history]
      exact ⟨List.prefix_rfl, fun e he => by cases he⟩
    | content e =>
      obtain ⟨cutoverDone, call₀, net₀, p, happ, rfl⟩ := h.log e hcontent
      have hhead : net.headHash ≠ "" := hloaded.headHash ▸
        lastEventId_ne_empty call fun e he => (h.stored e he).hash _
      obtain ⟨hdropped, hreplayed, -⟩ :=
        hloaded.replayWal_history codec call' happ (hwal.trans hcontent) hhead
      rcases hlog _ hcontent with hrewritten' | hstale | hreplay
      · exact absurd hrewritten' hrewritten
      · rw [hdropped hstale]
        exact ⟨List.prefix_rfl, fun e he _ hfresh => by cases he; exact absurd hstale hfresh⟩
      · by_cases hstale : s.disk.file.Stale p.event
        · rw [hdropped hstale]
          exact ⟨List.prefix_rfl, fun e he _ hfresh => by cases he; exact absurd hstale hfresh⟩
        · rw [hreplayed hstale hreplay]
          exact ⟨List.prefix_append _ _, fun e he _ _ => by cases he; simp⟩

/-- So it comes back with every acknowledged event. -/
theorem Node.Durable.recovers {env : Env} {codec : Codec} {call call' : Call} {s : Node}
    (h : s.Durable env) (hlog : s.disk.LogHarmless env codec call call') :
    ∀ e ∈ s.acknowledged,
      e.eventId ∈ (s.restart env codec call call').history.map (·.eventId) := by
  obtain ⟨hkept, hnext⟩ := h.restart_history hlog
  intro e he
  rcases h.onDisk e he with hfile | ⟨hwal, hcomes⟩
  · exact List.mem_map_of_mem (hkept.subset hfile)
  · by_cases hstale : s.disk.file.Stale e
    · -- the event follows the head, so it can only be stale because the file has its id
      rcases hstale with hid | hother
      · obtain ⟨e', he', hsame⟩ := List.mem_map.mp hid
        have hfile : e' ∈ s.disk.file.history := List.mem_append_right _ (List.mem_of_mem_drop he')
        exact List.mem_map.mpr ⟨e', hkept.subset hfile, hsame⟩
      · exact absurd hcomes.1 hother
    · exact List.mem_map_of_mem (hnext e hwal hcomes hstale)

/-- A node that has loaded a stable chain file, or none, with no event in its log. -/
structure Node.Started (env : Env) (codec : Codec) (s : Node) : Prop where
  loaded : ∃ call, s.net = (Infonet.loadChain env codec call s.disk).1
  readable : s.disk.chainFile ≠ .corrupt
  stable : s.disk.file.Stable env
  fits : s.disk.file.events.length ≤ maxChainMemory
  log : s.disk.wal = .missing
  idle : s.phase = .idle
  pending : s.pending = none
  acknowledged : s.acknowledged = []

theorem Node.Started.durable {env : Env} {codec : Codec} {s : Node} (h : s.Started env codec) :
    s.Durable env := by
  obtain ⟨call, hnet⟩ := h.loaded
  obtain ⟨hloaded, -, -⟩ := Disk.loaded codec call h.readable h.stable
  rw [← hnet] at hloaded
  exact {
    readable := ⟨h.readable, by simp [h.log]⟩
    stored := h.stable
    memory := fun e he => h.stable e (List.mem_of_mem_drop (hloaded.events ▸ he))
    head := by rw [hloaded.headHash, hloaded.events, lastEventId_hotWindow]
    fits := hloaded.events ▸ hotWindow_length_le _
    log := by simp [h.log]
    pending := by simp [h.pending]
    pendingLogged := by simp [h.pending]
    inMemory := by simp [h.acknowledged]
    onDisk := by simp [h.acknowledged]
    serialized := by simp [h.idle]
    flushed := by simp [h.idle] }

/-- In runs of safe steps, a crash with a harmless log loses no acknowledged event. -/
theorem acknowledged_survive (env : Env) (codec : Codec) (call call' : Call) (s : Node)
    (actions : List NodeAction) (hstart : s.Started env codec)
    (hsafe : Along (Node.step env codec) (Node.Safe env codec) s actions)
    (hlog : (run (Node.step env codec) s actions).disk.LogHarmless env codec call call') :
    ∀ e ∈ (run (Node.step env codec) s actions).acknowledged,
      e.eventId ∈ ((run (Node.step env codec) s actions).restart env codec call call').history.map
        (·.eventId) :=
  (hstart.durable.run hsafe).recovers hlog

/-! ## Runs of a new node -/

/-- A node without files. -/
def newNode : Node where
  net := .empty (callAt 1)
  disk := {}

theorem newNode_started : newNode.Started plainEnv ⟨some⟩ where
  loaded := ⟨callAt 1, rfl⟩
  readable := by simp [newNode]
  stable := fun e he => absurd he List.not_mem_nil
  fits := Nat.zero_le _
  log := rfl
  idle := rfl
  pending := rfl
  acknowledged := rfl

/-- The message number `n` of the author `!sb_a`, in the second `n`. -/
def appendMessage (n : Nat) (h : 0 < n := by decide) : List NodeAction :=
  [.appendLog (callAt n 0 h) false (broadcastCall n) true, .appendCommit]

theorem acknowledged_survive_broadcast :
    ∃ e, (run (Node.step plainEnv ⟨some⟩) newNode (appendMessage 1)).acknowledged = [e] ∧
      e.eventId ∈ ((run (Node.step plainEnv ⟨some⟩) newNode (appendMessage 1)).restart plainEnv
        ⟨some⟩ (callAt 2) (callAt 2)).history.map (·.eventId) := by
  have hsafe : Along (Node.step plainEnv ⟨some⟩) (Node.Safe plainEnv ⟨some⟩) newNode
      (appendMessage 1) := ⟨fun _ _ _ => ⟨rfl, rfl, rfl, rfl⟩, trivial, trivial⟩
  have hprep : okAnd ((broadcastCall 1).prepare { plainEnv with cutoverDone := false } (callAt 1)
      (.empty (callAt 1))).2 (fun p => p.event.eventType == "message" &&
        okAnd (checkFresh plainEnv (callAt 2) p.event) fun _ => true) = true := by
    decide +kernel
  obtain ⟨p, hok, hcond⟩ := okAnd_iff.mp hprep
  simp only [Bool.and_eq_true, beq_iff_eq, okAnd_iff, and_true] at hcond
  obtain ⟨htype, _, hfresh⟩ := hcond
  generalize hbound : (broadcastCall 1).prepare { plainEnv with cutoverDone := false } (callAt 1)
    (.empty (callAt 1)) = outcome at hok
  obtain ⟨bound, _⟩ := outcome
  obtain rfl := hok
  have happ := (AppendCall.prepare_eq_ok hbound).1
  have hwritten : Written plainEnv p.event := ⟨false, _, _, p, happ, rfl⟩
  obtain ⟨net, hcommit, -⟩ := Infonet.commitAppend_written hwritten false (callAt 1) bound
  have hlogged : run (Node.step plainEnv ⟨some⟩) newNode (appendMessage 1) =
      { net := net, disk := { wal := .content p.event }, acknowledged := [p.event] } := by
    have hcall : broadcastCall ((1 : Nat) : Int) = broadcastCall 1 := rfl
    simp only [appendMessage, run_cons, run_nil, Node.step, newNode, hcall, hbound, hcommit,
      if_true, List.nil_append]
  refine ⟨p.event, by rw [hlogged], acknowledged_survive plainEnv ⟨some⟩ (callAt 2) (callAt 2)
    newNode (appendMessage 1) newNode_started hsafe ?_ p.event (by simp [hlogged])⟩
  rw [hlogged]
  intro e he
  cases he
  refine .inr (.inr {
    allowed := by rw [htype]; decide
    fresh := hfresh
    unseen := by simp [filterCollision, plainEnv, Disk.file]
    sequence := ⟨?_, fun e' he' => absurd he' List.not_mem_nil⟩
    bindable := .inl rfl
    spool := fun hdm => by simp [htype] at hdm
    notRevoked := fun hrev => by simp [revokedBy, revocationTable, Disk.file] at hrev })
  have hpos : 0 < p.event.seqNum plainEnv.rt := happ.accepted.sequencePos
  cases p.event.slot plainEnv.rt with
  | node key => exact hpos
  | domain key =>
    show (if _ then 0 else 0 : Int) < _
    split <;> exact hpos

/-- Two messages within one flush interval: the log keeps only the second, which does not
    follow the head of the chain file. -/
theorem not_acknowledged_survive : ¬ ∀ (env : Env) (codec : Codec) (call call' : Call) (s : Node)
    (actions : List NodeAction), s.Started env codec →
    ∀ e ∈ (run (Node.step env codec) s actions).acknowledged,
      e.eventId ∈ ((run (Node.step env codec) s actions).restart env codec call call').history.map
        (·.eventId) := by
  intro hclaim
  have hlost := hclaim plainEnv ⟨some⟩ (callAt 3) (callAt 3) newNode
    (appendMessage 1 ++ appendMessage 2) newNode_started
  have hrun : ((run (Node.step plainEnv ⟨some⟩) newNode
        (appendMessage 1 ++ appendMessage 2)).acknowledged.any fun e =>
      !(((run (Node.step plainEnv ⟨some⟩) newNode (appendMessage 1 ++ appendMessage 2)).restart
        plainEnv ⟨some⟩ (callAt 3) (callAt 3)).history.map (·.eventId)).contains e.eventId) = true := by
    decide +kernel
  generalize run (Node.step plainEnv ⟨some⟩) newNode (appendMessage 1 ++ appendMessage 2) = s
    at hlost hrun
  generalize (s.restart plainEnv ⟨some⟩ (callAt 3) (callAt 3)).history.map (·.eventId) = ids
    at hlost hrun
  simp only [List.any_eq_true, Bool.not_eq_true', List.contains_eq_mem,
    decide_eq_false_iff_not] at hrun
  obtain ⟨e, he, hmissing⟩ := hrun
  exact hmissing (hlost e he)

end Vincent.Mesh
