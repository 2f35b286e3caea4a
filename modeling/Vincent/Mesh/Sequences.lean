-- SUMMARY: The sequence counters as replay protection, over the whole life of a node.
import Vincent.Mesh.Lifetime
import Vincent.Mesh.Validate

/-!
# Replay protection

An event is accepted above the counter of its author and domain, and so once, while no
counter falls back. Operations that rebuild the counters read the events in memory:
what they forget can be replayed.
-/

namespace Vincent.Mesh

open Vincent.Python Vincent.Check Vincent.Run

/-- Author, domain and sequence. -/
def ChainEvent.ticket (rt : Runtime) (e : ChainEvent) : String × SequenceSlot × Int :=
  (e.nodeId, e.slot rt, e.seqNum rt)

def Infonet.checkReplay (net : Infonet) (nodeId : String) (sequence : Int) : Bool :=
  sequence ≤ net.nodeSequences nodeId

/-- No author, domain and sequence twice, and the public sequences of the history are replays. -/
structure NoReplay (rt : Runtime) (s : Machine) : Prop where
  once : (s.accepted.map fun a => a.1.ticket rt).Nodup
  known : ∀ e ∈ s.net.history, e.slot rt = .node e.nodeId → ∀ sequence ≤ e.seqNum rt,
    s.net.checkReplay e.nodeId sequence = true

/-- A rebuild from the file counts the event. -/
structure ChainFile.Remembers (rt : Runtime) (file : ChainFile) (e : ChainEvent) : Prop where
  author : e.nodeId ≠ ""
  positive : 0 < e.seqNum rt
  taken : ¬ file.SequenceFree rt (e.slot rt) (e.seqNum rt)

/-- No counter falls behind an accepted event, and no author, domain and sequence comes again. -/
def KeepsCounters (env : Env) (codec : Codec) (s : Machine) : MachineAction → Prop
  | .op a _ => a.op ≠ .resetChain ∧ ∀ hot, a.Replaces env s.net hot →
    (∀ e ∈ hot, Rebuildable env.rt e) ∧
    (∀ e ∈ takenIn env s.net a, e.ticket env.rt ∉ s.accepted.map fun a => a.1.ticket env.rt) ∧
    ∀ e ∈ s.accepted.map Prod.fst ++ s.net.archived,
      ChainFile.Remembers env.rt { s.net.toFile with events := hot } e
  | .flush => True
  | .restart call call' => ∃ tail, Recovers env codec call call' s.disk tail ∧
    ∀ e ∈ s.accepted.map Prod.fst ++ (s.disk.file.history ++ tail), ChainFile.Remembers env.rt
      { s.disk.file with events := s.disk.file.events ++ tail } e

/-! ## Counted events -/

/-- The counter of the event has reached its sequence. -/
structure Counted (rt : Runtime) (net : Infonet) (e : ChainEvent) : Prop where
  author : e.nodeId ≠ ""
  positive : 0 < e.seqNum rt
  counted : e.seqNum rt ≤ net.lastSequence (e.slot rt)

theorem Counted.mono {rt : Runtime} {net net' : Infonet} {e : ChainEvent} (h : Counted rt net e)
    (hle : net.lastSequence (e.slot rt) ≤ net'.lastSequence (e.slot rt)) : Counted rt net' e :=
  ⟨h.author, h.positive, h.counted.trans hle⟩

/-- The accepted events are distinct, and counted together with the history. -/
structure Accounted (rt : Runtime) (accepted : List ChainEvent) (net : Infonet) : Prop where
  distinct : (accepted.map (ChainEvent.ticket rt)).Nodup
  counted : ∀ e ∈ accepted ++ net.history, Counted rt net e

section
variable {env : Env} {call : Call} {net net' : Infonet} {accepted new : List ChainEvent}

/-- An accepted event has a ticket of its own, and its counter rises to it. -/
theorem Accounted.commit (h : Accounted env.rt accepted net) {e : ChainEvent}
    (haccepted : Accepted env call net e) :
    Accounted env.rt (accepted ++ [e]) (net.commit env call e) := by
  have hmono : ∀ slot, net.lastSequence slot ≤ (net.commit env call e).lastSequence slot := by
    intro slot
    rw [Infonet.commit_lastSequence]
    split
    · rename_i hslot
      exact hslot ▸ haccepted.sequence.le
    · exact le_rfl
  have hnew : Counted env.rt (net.commit env call e) e :=
    ⟨haccepted.nodeId, haccepted.sequencePos, by simp⟩
  refine ⟨?_, fun e' he' => ?_⟩
  · rw [List.map_append, List.map_singleton, List.nodup_append]
    refine ⟨h.distinct, List.nodup_singleton _, ?_⟩
    intro ticket hold ticket' hlast heq
    obtain ⟨e', he', rfl⟩ := List.mem_map.mp hold
    rw [List.mem_singleton.mp hlast] at heq
    obtain ⟨-, hslot, hseq⟩ : e'.nodeId = e.nodeId ∧ e'.slot env.rt = e.slot env.rt ∧
        e'.seqNum env.rt = e.seqNum env.rt := by
      simpa [ChainEvent.ticket] using heq
    have hcounted := (h.counted e' (List.mem_append_left _ he')).counted
    rw [hslot, hseq] at hcounted
    exact absurd haccepted.sequence (not_lt.mpr hcounted)
  · rw [Infonet.commit_history] at he'
    simp only [List.mem_append, List.mem_singleton] at he'
    rcases he' with (hold | rfl) | hold | rfl
    · exact (h.counted e' (List.mem_append_left _ hold)).mono (hmono _)
    · exact hnew
    · exact (h.counted e' (List.mem_append_right _ hold)).mono (hmono _)
    · exact hnew

theorem Accounted.takes (h : Accounted env.rt accepted net) (htakes : Takes env call net new net') :
    Accounted env.rt (accepted ++ new) net' := by
  induction htakes with
  | refl => simpa using h
  | accept _ haccepted ih =>
    rw [← List.append_assoc]
    exact ih.commit haccepted
  | frame _ hhistory hsequence _ ih =>
    refine ⟨ih.distinct, fun e he => ?_⟩
    rw [hhistory] at he
    exact (ih.counted e he).mono (hsequence _).ge

/-- A restored ledger counts what its file remembers. -/
theorem Restored.counted {rt : Runtime} {file : ChainFile} (h : Restored rt file net)
    {e : ChainEvent} (hremembers : file.Remembers rt e) : Counted rt net e := by
  refine ⟨hremembers.author, hremembers.positive, ?_⟩
  by_contra hlt
  exact hremembers.taken ((h.sequence _ _ hremembers.positive).mp (not_le.mp hlt))

theorem ChainFile.remembers_of_mem {rt : Runtime} {file : ChainFile} {e : ChainEvent}
    (he : e ∈ file.events) (hauthor : e.nodeId ≠ "") (hpositive : 0 < e.seqNum rt) :
    file.Remembers rt e :=
  ⟨hauthor, hpositive, fun hfree => lt_irrefl _ (hfree.2 e he rfl hauthor)⟩

/-! ## Forks -/

/-- A relation between each event and all later ones holds pairwise. -/
theorem pairwise_of_split {R : ChainEvent → ChainEvent → Prop} {es : List ChainEvent}
    (h : ∀ pre e post, es = pre ++ e :: post → ∀ e' ∈ pre, R e' e) : es.Pairwise R := by
  induction es using List.reverseRecOn with
  | nil => exact List.Pairwise.nil
  | append_singleton es last ih =>
    rw [List.pairwise_append]
    refine ⟨ih fun pre e post hsplit => h pre e (post ++ [last]) (by simp [hsplit]),
      List.pairwise_singleton _ _, fun e' he' e he => ?_⟩
    rw [List.mem_singleton.mp he]
    exact h es last [] rfl e' he'

theorem ForkMaps.Covers.positive {before ordered : List ChainEvent} {maps maps' : ForkMaps}
    {checker : Infonet} {prevIndex : Nat} (h : maps.Covers env.rt before)
    (hchecks : checker.checkForkEvents env call prevIndex ordered maps = .ok maps') :
    ∀ e ∈ ordered, e.nodeId ≠ "" ∧ 0 < e.seqNum env.rt := by
  induction ordered generalizing before maps with
  | nil => simp
  | cons first rest ih =>
    simp only [Infonet.checkForkEvents, bind_eq_ok] at hchecks
    obtain ⟨maps₁, hcheck, hrest⟩ := hchecks
    obtain ⟨hchecked, rfl⟩ := forkChecked_of_checkForkEvent hcheck
    refine List.forall_mem_cons.mpr ⟨⟨hchecked.nodeId, ?_⟩, ih (h.addForked hchecked) hrest⟩
    exact lt_of_le_of_lt (h.nonneg _) hchecked.sequence

/-- The events of a checked fork have distinct tickets. -/
theorem distinct_of_checkFork {events : List ChainEvent} {headHash : String}
    {proofCount quorum : Int} {plan : ForkPlan}
    (hcheck : net.checkFork env call events headHash proofCount quorum = .ok plan) :
    (plan.ordered.map (ChainEvent.ticket env.rt)).Nodup ∧
      ∀ e ∈ plan.ordered, e.nodeId ≠ "" ∧ 0 < e.seqNum env.rt := by
  obtain ⟨_, maps, maps', _, _, hmaps, hforked⟩ := Infonet.checkFork_eq_ok hcheck
  have hcovers : maps.Covers env.rt (net.events.take (plan.prevIndex + 1)) := by
    have hempty : ({} : ForkMaps).Covers env.rt [] := ⟨fun _ => le_rfl, by simp⟩
    simpa using hempty.ofPrefix hmaps
  refine ⟨?_, hcovers.positive hforked⟩
  rw [List.Nodup, List.pairwise_map]
  refine pairwise_of_split fun pre e post hsplit e' he' heq => ?_
  obtain ⟨hnode, hslot, hseq⟩ : e'.nodeId = e.nodeId ∧ e'.slot env.rt = e.slot env.rt ∧
      e'.seqNum env.rt = e.seqNum env.rt := by
    simpa [ChainEvent.ticket] using heq
  have hlt := (hcovers.increasing hforked pre e post hsplit).2 e' (List.mem_append_right _ he')
    hnode hslot
  exact absurd hseq hlt.ne

/-- The events of a new hot chain come from the old one, or are taken in. -/
theorem mem_replaces {a : ChainAction} {hot : List ChainEvent} (h : a.Replaces env net hot) :
    (∀ e ∈ hot, e ∈ net.events ∨ e ∈ takenIn env net a) ∧
    ((takenIn env net a).map (ChainEvent.ticket env.rt)).Nodup ∧
      ∀ e ∈ takenIn env net a, e ∈ hot ∧ e.nodeId ≠ "" ∧ 0 < e.seqNum env.rt := by
  rcases h with ⟨events, headHash, proofCount, quorum, plan, hop, hcheck, rfl⟩ | ⟨hop, hkept, -⟩
  · have htaken : takenIn env net a = plan.ordered := by
      simp only [takenIn, hop, hcheck]
    obtain ⟨hdistinct, hpositive⟩ := distinct_of_checkFork hcheck
    rw [htaken]
    refine ⟨fun e he => ?_, hdistinct, fun e he => ⟨List.mem_append_right _ he, hpositive e he⟩⟩
    exact (List.mem_append.mp he).imp_left List.mem_of_mem_take
  · have htaken : takenIn env net a = [] := by simp only [takenIn, hop]
    rw [htaken]
    exact ⟨fun e he => .inl ((Infonet.sublist_of_unexpired hkept).subset he), List.nodup_nil,
      by simp⟩

end

/-! ## The life of a node -/

/-- The invariant of the node. -/
def Machine.Accounted (rt : Runtime) (s : Machine) : Prop :=
  Mesh.Accounted rt (s.accepted.map Prod.fst) s.net

theorem Machine.Accounted.noReplay {rt : Runtime} {s : Machine} (h : s.Accounted rt) :
    NoReplay rt s := by
  refine ⟨by simpa [Function.comp_def] using h.distinct, fun e he hslot sequence hle => ?_⟩
  have hcounted := (h.counted e (List.mem_append_right _ he)).counted
  rw [hslot] at hcounted
  exact decide_eq_true (hle.trans hcounted)

section
variable {env : Env} {codec : Codec} {s : Machine}

theorem Machine.Accounted.op (h : s.Accounted env.rt) (a : ChainAction) (logged : Bool)
    (hkeeps : KeepsCounters env codec s (.op a logged)) :
    (machineStep env codec s (.op a logged)).Accounted env.rt := by
  obtain ⟨hreset, hreplaces⟩ := hkeeps
  have haccepted : (machineStep env codec s (.op a logged)).accepted.map Prod.fst =
      s.accepted.map Prod.fst ++ takenIn env s.net a := by
    simp [machineStep, Function.comp_def]
  show Mesh.Accounted env.rt (List.map Prod.fst _) (chainStep env s.net a)
  rw [haccepted]
  rcases chainStep_takes_or_restores hreset (fun hot hhot => (hreplaces hot hhot).1) with
    ⟨-, htakes⟩ | ⟨hot, hhot, hrestored⟩
  · have hsame : Mesh.Accounted (a.env env).rt (s.accepted.map Prod.fst) s.net := h
    exact hsame.takes htakes
  · obtain ⟨-, hfresh, hremembers⟩ := hreplaces hot hhot
    obtain ⟨hmem, hdistinct, htaken⟩ := mem_replaces hhot
    have hremembered : ∀ e, e ∈ hot → e.nodeId ≠ "" → 0 < e.seqNum env.rt →
        Counted env.rt (chainStep env s.net a) e := fun e he hauthor hpositive =>
      hrestored.counted (ChainFile.remembers_of_mem he hauthor hpositive)
    have hnew : ∀ e ∈ takenIn env s.net a, Counted env.rt (chainStep env s.net a) e := by
      intro e he
      obtain ⟨hmem', hauthor, hpositive⟩ := htaken e he
      exact hremembered e hmem' hauthor hpositive
    have hold : ∀ e ∈ s.accepted.map Prod.fst ++ s.net.archived,
        Counted env.rt (chainStep env s.net a) e := fun e he => hrestored.counted (hremembers e he)
    refine ⟨?_, fun e he => ?_⟩
    · rw [List.map_append, List.nodup_append]
      refine ⟨h.distinct, hdistinct, ?_⟩
      intro ticket hticket ticket' hticket' heq
      obtain ⟨e, he, rfl⟩ := List.mem_map.mp hticket'
      refine hfresh e he ?_
      rw [List.map_map] at hticket
      exact heq ▸ hticket
    · rw [hrestored.history, ChainFile.history, List.append_assoc] at he
      rcases List.mem_append.mp he with hacc | hrest
      · exact hold e (List.mem_append_left _ hacc)
      · rcases List.mem_append.mp hrest with htake | hhist
        · exact hnew e htake
        · rcases List.mem_append.mp hhist with harch | hhot'
          · exact hold e (List.mem_append_right _ harch)
          · rcases hmem e hhot' with hevents | htake
            · have hcounted := h.counted e (List.mem_append_right _
                (List.mem_append_right _ hevents))
              exact hremembered e hhot' hcounted.author hcounted.positive
            · exact hnew e htake

theorem Machine.Accounted.flush (h : s.Accounted env.rt) :
    (machineStep env codec s .flush).Accounted env.rt := by
  have hhistory := Infonet.history_flush codec s.net s.disk
  have hsequence : ∀ slot, (s.net.flush codec s.disk).1.lastSequence slot =
      s.net.lastSequence slot := by
    intro slot
    unfold Infonet.flush
    split
    · split <;> cases slot <;> rfl
    · rfl
  refine ⟨h.distinct, fun e he => ?_⟩
  have he' : e ∈ s.accepted.map Prod.fst ++ (s.net.flush codec s.disk).1.history := he
  rw [hhistory] at he'
  exact (h.counted e he').mono (hsequence _).ge

theorem Machine.Accounted.restart (h : s.Accounted env.rt) {call call' : Call}
    (hkeeps : KeepsCounters env codec s (.restart call call')) :
    (machineStep env codec s (.restart call call')).Accounted env.rt := by
  obtain ⟨tail, hrecovers, hremembers⟩ := hkeeps
  have hrestored := restored_load hrecovers
  refine ⟨h.distinct, fun e he => hrestored.counted (hremembers e ?_)⟩
  have he' : e ∈ s.accepted.map Prod.fst ++
      (Infonet.load env codec call call' s.disk).1.history := he
  rw [hrestored.history] at he'
  simpa [ChainFile.history] using he'

theorem Machine.Accounted.step (h : s.Accounted env.rt) (action : MachineAction)
    (hkeeps : KeepsCounters env codec s action) :
    (machineStep env codec s action).Accounted env.rt := by
  cases action with
  | op a logged => exact h.op a logged hkeeps
  | flush => exact h.flush
  | restart call call' => exact h.restart hkeeps

end

/-- Where the counters are kept, nothing is accepted twice, and public sequences are known as
replays. -/
theorem accepted_once (env : Env) (codec : Codec) (start : Call) (actions : List MachineAction)
    (hrun : Along (machineStep env codec) (KeepsCounters env codec) { net := .empty start } actions) :
    NoReplay env.rt (run (machineStep env codec) { net := .empty start } actions) := by
  have hstart : Machine.Accounted env.rt { net := .empty start } :=
    ⟨List.nodup_nil, fun e he => by cases he⟩
  have hstep : ∀ s a, Machine.Accounted env.rt s → KeepsCounters env codec s a →
      Machine.Accounted env.rt (machineStep env codec s a) := fun s a h hkeeps => h.step a hkeeps
  exact (invariant hstep hstart hrun).noReplay

theorem accepted_once_message :
    NoReplay asciiRuntime (run (machineStep plainEnv ⟨some⟩) { net := .empty (callAt 1) }
      [.op ⟨callAt 1700000000, false, .append broadcastCall⟩ true, .flush,
        .op ⟨callAt 1700000010, false, .append (broadcastCall 2)⟩ true]) :=
  accepted_once plainEnv ⟨some⟩ (callAt 1)
    [.op ⟨callAt 1700000000, false, .append broadcastCall⟩ true, .flush,
      .op ⟨callAt 1700000010, false, .append (broadcastCall 2)⟩ true]
    ⟨⟨by simp, fun hot h => by simp [ChainAction.Replaces] at h⟩, trivial,
      ⟨by simp, fun hot h => by simp [ChainAction.Replaces] at h⟩, trivial⟩

/-- An ephemeral message is accepted, cleaned up after its day, and accepted again. -/
def replayRun : List MachineAction :=
  [.op ⟨callAt 1700000000, false, .append ephemeralCall⟩ true,
    .op ⟨callAt 1700100000, false, .cleanup⟩ false,
    .op ⟨callAt 1700100010, false, .append ephemeralCall⟩ true]

/-- The cleanup forgets the counter with the message. -/
theorem not_accepted_once : ¬ ∀ (env : Env) (codec : Codec) (start : Call)
    (actions : List MachineAction),
    NoReplay env.rt (run (machineStep env codec) { net := .empty start } actions) := by
  intro hclaim
  have honce := (hclaim plainEnv ⟨some⟩ (callAt 1) replayRun).once
  have hrun : ((run (machineStep plainEnv ⟨some⟩) { net := .empty (callAt 1) } replayRun
      ).accepted.map fun a => a.1.ticket asciiRuntime) =
      [("!sb_a", .node "!sb_a", 1), ("!sb_a", .node "!sb_a", 1)] := by
    decide +kernel
  rw [show plainEnv.rt = asciiRuntime from rfl, hrun] at honce
  simp at honce

end Vincent.Mesh
