-- SUMMARY: A node over its whole life, with its files.
import Vincent.Mesh.Durability
import Vincent.Mesh.Operations

/-!
# The life of a node

A `Machine` is a ledger with its files. The record of accepted events is kept for the
statements only: no operation reads it.

Forks, cleanups and restarts build the tables of the ledger anew. `Restored` says from
what: the events of a chain file, and the replay domains that it carries.
-/

namespace Vincent.Mesh

open Vincent.Python Vincent.Check Vincent.Run Relation

/-- A node, its files, and the events it has accepted, each with the time of the call. -/
structure Machine where
  net : Infonet
  disk : Disk := {}
  accepted : List (ChainEvent × ℚ) := []

inductive MachineAction where
  | op (a : ChainAction) (logged : Bool)
  | flush
  | restart (call call' : Call)

/-- The events that the operation takes into the history. -/
def takenIn (env : Env) (net : Infonet) (a : ChainAction) : List ChainEvent :=
  match a.op with
  | .append _ | .ingestEvents _ => (chainStep env net a).history.drop net.history.length
  | .applyFork events headHash proofCount quorum =>
    match net.checkFork (a.env env) a.call events headHash proofCount quorum with
    | .ok plan => plan.ordered
    | .error _ => []
  | .cleanup | .resetChain | .save => []

/-- An append writes its event to the log before it commits it. The write can fail. -/
def Disk.logged (env : Env) (disk : Disk) (net : Infonet) (a : ChainAction) : Disk :=
  match a.op with
  | .append c =>
    match c.prepare (a.env env) a.call net with
    | (_, .ok p) => { disk with wal := .content p.event }
    | (_, .error _) => disk
  | _ => disk

def machineStep (env : Env) (codec : Codec) (s : Machine) : MachineAction → Machine
  | .op a logged => {
      net := chainStep env s.net a
      disk := if logged then s.disk.logged env s.net a else s.disk
      accepted := s.accepted ++ (takenIn env s.net a).map fun e => (e, a.call.now) }
  | .flush =>
    let (net, disk) := s.net.flush codec s.disk
    { s with net := net, disk := disk }
  | .restart call call' =>
    let (net, disk) := Infonet.load env codec call call' s.disk
    { s with net := net, disk := disk }

/-! ## Taking in events -/

/-- The ledger took these events in order; history, counters and revocations are else unchanged. -/
inductive Takes (env : Env) (call : Call) (net : Infonet) : List ChainEvent → Infonet → Prop
  | refl : Takes env call net [] net
  | accept {new : List ChainEvent} {m : Infonet} {e : ChainEvent} (h : Takes env call net new m)
    (haccepted : Accepted env call m e) : Takes env call net (new ++ [e]) (m.commit env call e)
  | frame {new : List ChainEvent} {m m' : Infonet} (h : Takes env call net new m)
    (hhistory : m'.history = m.history) (hsequence : ∀ slot, m'.lastSequence slot = m.lastSequence slot)
    (hrevocations : m'.revocations = m.revocations) : Takes env call net new m'

section
variable {env : Env} {call : Call} {net net' : Infonet} {new : List ChainEvent}

theorem Advances.takes (h : Advances env call net net') : ∃ new, Takes env call net new net' := by
  induction h with
  | refl => exact ⟨[], .refl⟩
  | tail _ hstep ih =>
    obtain ⟨new, htakes⟩ := ih
    cases hstep with
    | commit haccepted => exact ⟨_, htakes.accept haccepted⟩
    | bind _ => exact ⟨new, htakes.frame rfl (fun slot => by cases slot <;> rfl) rfl⟩
    | rotate => exact ⟨new, htakes.frame rfl (fun slot => by cases slot <;> rfl) rfl⟩
    | invalidate => exact ⟨new, htakes.frame rfl (fun slot => by cases slot <;> rfl) rfl⟩
    | save =>
      exact ⟨new, htakes.frame (Infonet.history_save _) (Infonet.save_lastSequence _)
        (Infonet.save_revocations _)⟩

namespace Takes

theorem history (h : Takes env call net new net') : net'.history = net.history ++ new := by
  induction h with
  | refl => simp
  | accept _ _ ih => rw [Infonet.commit_history, ih, List.append_assoc]
  | frame _ hhistory _ _ ih => rw [hhistory, ih]

theorem revocations (h : Takes env call net new net') :
    net'.revocations = new.foldl (addRevocation env.rt) net.revocations := by
  induction h with
  | refl => rfl
  | accept _ _ ih => simp [ih]
  | frame _ _ _ hrevocations ih => rw [hrevocations, ih]

theorem lastSequence (h : Takes env call net new net') (slot : SequenceSlot) (n : Int) :
    net'.lastSequence slot < n ↔
      net.lastSequence slot < n ∧ ∀ e ∈ new, e.slot env.rt = slot → e.seqNum env.rt < n := by
  induction h with
  | refl => simp
  | frame _ _ hsequence _ ih => rw [hsequence, ih]
  | accept _ haccepted ih =>
    have hlast := haccepted.sequence
    simp only [Infonet.commit_lastSequence, List.forall_mem_append, List.forall_mem_singleton]
    split
    · rename_i hslot
      subst hslot
      constructor
      · intro hlt
        obtain ⟨hold, hnew⟩ := ih.mp (hlast.trans hlt)
        exact ⟨hold, hnew, fun _ => hlt⟩
      · exact fun hall => hall.2.2 rfl
    · rename_i hother
      rw [ih]
      exact ⟨fun hall => ⟨hall.1, hall.2, fun hslot => absurd hslot.symm hother⟩,
        fun hall => ⟨hall.1, hall.2.1⟩⟩

end Takes

end

/-! ## Building the tables anew -/

/-- History, counters and revocations are those of the file. -/
structure Restored (rt : Runtime) (file : ChainFile) (net : Infonet) : Prop where
  history : net.history = file.history
  sequence : ∀ slot n, 0 < n → (net.lastSequence slot < n ↔ file.SequenceFree rt slot n)
  revocations : net.revocations = revocationTable rt file.events

namespace Restored

variable {env : Env} {call : Call} {net net' : Infonet} {file : ChainFile}

theorem of_eq {rt : Runtime} (h : Restored rt file net) (hhistory : net'.history = net.history)
    (hsequence : ∀ slot, net'.lastSequence slot = net.lastSequence slot)
    (hrevocations : net'.revocations = net.revocations) : Restored rt file net' :=
  ⟨hhistory.trans h.history, fun slot n hpos => by rw [hsequence, h.sequence slot n hpos],
    hrevocations.trans h.revocations⟩

theorem save {rt : Runtime} (h : Restored rt file net) : Restored rt file net.save :=
  h.of_eq (Infonet.history_save _) (Infonet.save_lastSequence _) (Infonet.save_revocations _)

theorem flush {rt : Runtime} (h : Restored rt file net) (codec : Codec) (disk : Disk) :
    Restored rt file (net.flush codec disk).1 := by
  unfold Infonet.flush
  split
  · split
    · exact h
    · exact h.of_eq rfl (fun slot => by cases slot <;> rfl) rfl
  · exact h

/-- A rebuild restores the events that it reads. -/
theorem rebuiltState (env : Env) (call : Call) (net : Infonet) :
    Restored env.rt net.toFile (Infonet.rebuiltState env call net) := by
  have hevents : (Infonet.rebuiltState env call net).events = net.events :=
    Infonet.rebuiltAll_events net.events 0 _
  have hcold : (Infonet.rebuiltState env call net).coldSegments = net.coldSegments :=
    Infonet.rebuiltAll_coldSegments net.events 0 _
  refine ⟨?_, fun slot n hpos => ?_, (Tables.rebuiltState env call net).revocations⟩
  · rw [Infonet.history, hevents, hcold]
    rfl
  · cases slot with
    | node key => exact Infonet.rebuiltAll_lastSequence (.node key) hpos
    | domain key => exact Infonet.rebuiltAll_lastSequence (.domain key) hpos

/-- So it does when only the counters of the node's own display cannot be read. -/
theorem rebuild (hread : ∀ e ∈ net.events, Rebuildable env.rt e) :
    Restored env.rt net.toFile (Infonet.rebuild env call net).1 := by
  have hstate : Infonet.rebuildState env call net = (Infonet.rebuiltState env call net, .ok ()) :=
    Infonet.rebuildState_eq_ok.mpr ⟨hread, rfl⟩
  unfold Infonet.rebuild
  rw [hstate]
  exact rebuiltState env call net

theorem applyFork {events : List ChainEvent} {headHash : String} {proofCount quorum : Int}
    {plan : ForkPlan}
    (hcheck : net.checkFork env call events headHash proofCount quorum = .ok plan)
    (hread : ∀ e ∈ net.events.take (plan.prevIndex + 1) ++ plan.ordered, Rebuildable env.rt e) :
    Restored env.rt
      { net.toFile with events := net.events.take (plan.prevIndex + 1) ++ plan.ordered }
      (net.applyFork env call events headHash proofCount quorum).1 := by
  have hraised := @rebuild env call
    { net with events := net.events.take (plan.prevIndex + 1) ++ plan.ordered } hread
  unfold Infonet.applyFork
  simp only [hcheck]
  split
  · rename_i hrebuild
    rwa [hrebuild] at hraised
  · rename_i hrebuild
    rw [hrebuild] at hraised
    exact Restored.save (hraised.of_eq rfl (fun slot => by cases slot <;> rfl) rfl)

theorem cleanup {kept : List ChainEvent}
    (hkept : Infonet.unexpired env call.now net.events = .ok kept)
    (hdrop : kept.length ≠ net.events.length) (hread : ∀ e ∈ kept, Rebuildable env.rt e) :
    Restored env.rt { net.toFile with events := kept } (net.cleanup env call).1 := by
  have hraised := @rebuild env call { net with events := kept } hread
  unfold Infonet.cleanup
  simp only [hkept, hdrop, if_false]
  split
  · rename_i hrebuild
    rwa [hrebuild] at hraised
  · rename_i hrebuild
    rw [hrebuild] at hraised
    exact Restored.save (hraised.of_eq rfl (fun slot => by cases slot <;> rfl) rfl)

/-- Whoever takes in events restores a file that has them, too. -/
theorem takes {new : List ChainEvent} (h : Restored env.rt file net)
    (htakes : Takes env call net new net') (hauthor : ∀ e ∈ new, e.nodeId ≠ "") :
    Restored env.rt { file with events := file.events ++ new } net' := by
  refine ⟨?_, fun slot n hpos => ?_, ?_⟩
  · rw [htakes.history, h.history]
    simp [ChainFile.history]
  · rw [htakes.lastSequence, h.sequence slot n hpos]
    simp only [ChainFile.SequenceFree, List.forall_mem_append, ← and_assoc]
    refine and_congr Iff.rfl (forall₂_congr fun e he => ?_)
    simp [hauthor e he]
  · rw [htakes.revocations, h.revocations, revocationTable, revocationTable, List.foldl_append]

end Restored

/-! ## The restart -/

/-- What the log adds to the ledger that the chain file has led to. -/
inductive LogTail (env : Env) (call : Call) (net : Infonet) : JsonFile ChainEvent →
    List ChainEvent → Prop
  | missing : LogTail env call net .missing []
  | stale {e : ChainEvent} (h : net.eventIndex e.eventId ≠ none ∨ e.prevHash ≠ net.headHash) :
    LogTail env call net (.content e) []
  | next {e : ChainEvent} (hnew : net.eventIndex e.eventId = none) (hsound : Sound env e)
    (hadmissible : Admissible env call net e) : LogTail env call net (.content e) [e]

/-- The restart can use the chain file, if there is one, and the log. -/
structure Recovers (env : Env) (codec : Codec) (call call' : Call) (disk : Disk)
    (tail : List ChainEvent) : Prop where
  present : disk.chainFile ≠ .corrupt
  hashes : ∀ e ∈ disk.file.events, ChainEvent.hashMatches env call e = true
  readable : disk.file.Readable env.rt
  log : LogTail env call' (Infonet.loadChain env codec call disk).1
    (Infonet.loadChain env codec call disk).2.wal tail

theorem restored_loadChain {env : Env} {codec : Codec} {call : Call} {disk : Disk}
    (hpresent : disk.chainFile ≠ .corrupt)
    (hhash : ∀ e ∈ disk.file.events, ChainEvent.hashMatches env call e = true)
    (hread : disk.file.Readable env.rt) :
    Restored env.rt disk.file (Infonet.loadChain env codec call disk).1 := by
  obtain ⟨chainFile, wal⟩ := disk
  cases chainFile with
  | corrupt => exact absurd rfl hpresent
  | missing =>
    have hloaded := loaded_empty env call
    exact ⟨rfl, hloaded.sequence, rfl⟩
  | content file =>
    have hhash : ∀ e ∈ file.events, ChainEvent.hashMatches env call e = true := hhash
    have hrebuild : Infonet.rebuild env call (.assigned call file) =
        (Infonet.rebuiltState env call (.assigned call file), .ok ()) :=
      Infonet.rebuild_eq_ok.mpr ⟨hread.1, hread.2, rfl⟩
    have hrestored : Restored env.rt file (Infonet.rebuiltState env call (.assigned call file)) :=
      Restored.rebuiltState env call (.assigned call file)
    have hcap : Restored env.rt file
        (Infonet.rebuiltState env call (.assigned call file)).enforceMemoryCap := by
      obtain ⟨-, hnode, hdomain, -, hrevocations, -⟩ :=
        (Infonet.rebuiltState env call (.assigned call file)).enforceMemoryCap_tables
      refine hrestored.of_eq (Infonet.history_enforceMemoryCap _) (fun slot => ?_) hrevocations
      cases slot <;> simp [Infonet.lastSequence, hnode, hdomain]
    unfold Infonet.loadChain
    simp only [List.all_eq_true.mpr hhash, if_true, hrebuild]
    split
    · exact hcap.flush codec _
    · exact hrestored

/-- A restart that can use its files restores the chain file, and the event of the log
    where it is the next one. -/
theorem restored_load {env : Env} {codec : Codec} {call call' : Call} {disk : Disk}
    {tail : List ChainEvent} (h : Recovers env codec call call' disk tail) :
    Restored env.rt { disk.file with events := disk.file.events ++ tail }
      (Infonet.load env codec call call' disk).1 := by
  have hloaded : Restored env.rt disk.file (Infonet.loadChain env codec call disk).1 :=
    restored_loadChain h.present h.hashes h.readable
  have hlog := h.log
  unfold Infonet.load
  generalize Infonet.loadChain env codec call disk = loaded at hloaded hlog ⊢
  obtain ⟨net, disk'⟩ := loaded
  obtain ⟨chainFile, wal⟩ := disk'
  cases hlog with
  | missing =>
    rw [Infonet.replayWal_missing rfl, List.append_nil]
    exact hloaded
  | stale hstale =>
    rw [Infonet.replayWal_stale rfl hstale, List.append_nil]
    exact hloaded
  | next hnew hsound hadmissible =>
    rename_i e
    have hnew : net.eventIndex e.eventId = none := hnew
    have hingest : net.ingestEvents env call' [.event e] = _ :=
      @Infonet.ingestEvents_of_acceptsAll env call' [e] net ⟨⟨hsound, hadmissible⟩, trivial⟩
    have htakes : Takes env call' net [e] (net.commitBatch env call' [e]) := by
      have hcommit := Takes.refl.accept (hsound.accepted hadmissible)
      exact hcommit.frame (Infonet.history_save _) (Infonet.save_lastSequence _)
        (Infonet.save_revocations _)
    have hnext := hloaded.takes htakes (by simpa using hsound.nodeId)
    unfold Infonet.replayWal
    simp only [hnew, Option.isSome_none, Bool.false_eq_true, if_false, hadmissible.linked, ne_eq,
      not_true_eq_false, hingest, List.length_singleton, one_ne_zero]
    exact hnext.flush codec _

/-! ## The outcomes of an operation -/

/-- The operation replaces the hot chain by these events. -/
def ChainAction.Replaces (env : Env) (net : Infonet) (a : ChainAction) (hot : List ChainEvent) :
    Prop :=
  (∃ events headHash proofCount quorum plan, a.op = .applyFork events headHash proofCount quorum ∧
    net.checkFork (a.env env) a.call events headHash proofCount quorum = .ok plan ∧
    hot = net.events.take (plan.prevIndex + 1) ++ plan.ordered) ∨
  a.op = .cleanup ∧ Infonet.unexpired (a.env env) a.call.now net.events = .ok hot ∧
    hot.length ≠ net.events.length

section
variable {env : Env} {net : Infonet} {a : ChainAction}

theorem applyFork_refused {call : Call} {events : List ChainEvent} {headHash : String}
    {proofCount quorum : Int} {fault : Fault}
    (h : net.checkFork env call events headHash proofCount quorum = .error fault) :
    (net.applyFork env call events headHash proofCount quorum).1 = net := by
  unfold Infonet.applyFork
  rw [h]
  cases fault <;> rfl

/-- What an append, a batch or a save takes in is what the history has gained. -/
theorem takes_takenIn (hfork : ∀ events headHash proofCount quorum,
      a.op ≠ .applyFork events headHash proofCount quorum)
    (hcleanup : a.op ≠ .cleanup) (hreset : a.op ≠ .resetChain) :
    Takes (a.env env) a.call net (takenIn env net a) (chainStep env net a) := by
  obtain ⟨new, htakes⟩ := (chainStep_advances hfork hcleanup hreset).takes
  have hgain : (chainStep env net a).history.drop net.history.length = new := by
    rw [htakes.history, List.drop_left]
  have hsame : takenIn env net a = new := by
    unfold takenIn
    cases hop : a.op with
    | append c => exact hgain
    | ingestEvents items => exact hgain
    | save =>
      have hhistory : (chainStep env net a).history = net.history := by
        simp only [chainStep, hop, ChainOp.apply, Infonet.history_save]
      rw [← hgain, hhistory, List.drop_length]
    | applyFork events headHash proofCount quorum => exact absurd hop (hfork _ _ _ _)
    | cleanup => exact absurd hop hcleanup
    | resetChain => exact absurd hop hreset
  rwa [hsame]

/-- An operation other than a reset takes in events, or replaces the hot chain. -/
theorem chainStep_takes_or_restores (hreset : a.op ≠ .resetChain)
    (hread : ∀ hot, a.Replaces env net hot → ∀ e ∈ hot, Rebuildable env.rt e) :
    (∀ hot, ¬ a.Replaces env net hot) ∧
      Takes (a.env env) a.call net (takenIn env net a) (chainStep env net a) ∨
    ∃ hot, a.Replaces env net hot ∧
      Restored env.rt { net.toFile with events := hot } (chainStep env net a) := by
  cases hop : a.op with
  | append c =>
    exact .inl ⟨by simp [ChainAction.Replaces, hop],
      takes_takenIn (by simp [hop]) (by simp [hop]) hreset⟩
  | ingestEvents items =>
    exact .inl ⟨by simp [ChainAction.Replaces, hop],
      takes_takenIn (by simp [hop]) (by simp [hop]) hreset⟩
  | save =>
    exact .inl ⟨by simp [ChainAction.Replaces, hop],
      takes_takenIn (by simp [hop]) (by simp [hop]) hreset⟩
  | resetChain => exact absurd hop hreset
  | applyFork events headHash proofCount quorum =>
    cases hcheck : net.checkFork (a.env env) a.call events headHash proofCount quorum with
    | error fault =>
      refine .inl ⟨?_, ?_⟩
      · rintro hot (⟨_, _, _, _, plan, hop', hcheck', -⟩ | ⟨hop', -⟩)
        · obtain ⟨rfl, rfl, rfl, rfl⟩ := by simpa [hop] using hop'
          rw [hcheck] at hcheck'
          cases hcheck'
        · cases hop.symm.trans hop'
      · simp only [takenIn, hop, hcheck, chainStep, ChainOp.apply, applyFork_refused hcheck]
        exact .refl
    | ok plan =>
      have hreplaces : a.Replaces env net (net.events.take (plan.prevIndex + 1) ++ plan.ordered) :=
        .inl ⟨_, _, _, _, plan, hop, hcheck, rfl⟩
      refine .inr ⟨_, hreplaces, ?_⟩
      simp only [chainStep, hop, ChainOp.apply]
      exact Restored.applyFork hcheck (hread _ hreplaces)
  | cleanup =>
    cases hkept : Infonet.unexpired (a.env env) a.call.now net.events with
    | error exn =>
      refine .inl ⟨by simp [ChainAction.Replaces, hop, hkept], ?_⟩
      simp only [takenIn, hop, chainStep, ChainOp.apply, Infonet.cleanup, hkept]
      exact .refl
    | ok kept =>
      by_cases hdrop : kept.length = net.events.length
      · refine .inl ⟨by simp [ChainAction.Replaces, hop, hkept, hdrop], ?_⟩
        simp only [takenIn, hop, chainStep, ChainOp.apply, Infonet.cleanup, hkept, hdrop, if_true]
        exact .refl
      · have hreplaces : a.Replaces env net kept := .inr ⟨hop, hkept, hdrop⟩
        refine .inr ⟨kept, hreplaces, ?_⟩
        simp only [chainStep, hop, ChainOp.apply]
        exact Restored.cleanup hkept hdrop (hread _ hreplaces)

end

end Vincent.Mesh
