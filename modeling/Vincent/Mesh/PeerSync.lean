-- SUMMARY: Syncing from a peer: when it ends, and what it keeps.
import Mathlib.Data.List.Infix
import Vincent.General.Run
import Vincent.Mesh.Reachable
import Vincent.Mesh.Serve
import Vincent.Python.Number

/-!
# Syncing from a peer

`_sync_from_peer` asks for one page after another, and `syncStep` is what it does with
one answer. An answer that reports a fork makes it clear a short chain and ask again,
in a round that is not counted.
-/

namespace Vincent.Mesh

open Vincent.Python Vincent.Check Vincent.Run Relation

/-! ## Answers of the peer -/

/-- What `_peer_sync_response` gives: it raises, or returns a JSON object. -/
inductive PeerAnswer where
  | rateLimited (message : String) (retryAfterS : Nat)
  | raised (exn : String)
  /-- The events are `none` when they are no list. -/
  | payload (forked count : PyVal) (events : Option (List WireItem))

/-- How the answers of the sync endpoint arrive. -/
def SyncAnswer.toPeerAnswer : SyncAnswer → PeerAnswer
  | .ok page => .payload (.bool page.forked) (.int page.count) (some (page.events.map .event))
  | .locatorNotList => .payload .none (.int 0) (some [])
  | .unsupportedProtocol => .raised "PeerSyncHTTPError"
  | .headMismatch _ _ => .raised "PeerSyncHTTPError"
  | .failed _ => .raised "ValueError"

/-! ## One answer -/

/-- How `_sync_from_peer` ends. -/
inductive SyncOutcome where
  | returned (ok : Bool) (error : String) (forked : Bool) (retryAfterS : Nat)
  | raised (exn : String)
deriving DecidableEq, Repr

structure SyncState where
  net : Infonet
  disk : Disk
  rounds : Nat := 0
  outcome : Option SyncOutcome := none

/-- The walk of both hydrations over a batch, for what it can raise. Neither changes
    the chain. -/
def walkHydration (net : Infonet) (eventType : String) : List WireItem → Except String Unit
  | [] => .ok ()
  | .notObject :: _ => .error "AttributeError"
  | .illTyped _ _ _ :: items => walkHydration net eventType items
  | .event e :: items =>
    if e.eventType = eventType ∧ strip e.eventId ≠ "" then
      match net.eventIndex (strip e.eventId) with
      | none => walkHydration net eventType items
      | some i =>
        if i < net.events.length then walkHydration net eventType items else .error "IndexError"
    else walkHydration net eventType items

/-- `sub in s`. -/
def containsText (s sub : String) : Bool := decide (sub.toList <:+: s.toList)

/-- `str(item.get("prev_hash", "") or "")`. -/
def WireItem.prevHash : WireItem → String
  | .event e => e.prevHash
  | .notObject => ""
  | .illTyped prevHash _ _ => prevHash

/-- The error text for rejected events. -/
def syncDetail (rt : Runtime) (net : Infonet) (items : List WireItem)
    (rejected : List (Nat × String)) : String :=
  let reasons := rejected.map fun item => strip item.2
  let summary := String.intercalate ", " (reasons.filter (· ≠ ""))
  let detail := "sync ingest rejected " ++ toString rejected.length ++ " event(s)"
  let detail := if summary = "" then detail else detail ++ ": " ++ summary
  let staleGenesis := net.events = [] ∧ items.head?.map (·.prevHash) = some genesisHash ∧
    reasons.any fun reason => containsText (rt.lower reason) "timestamp outside freshness window"
  if staleGenesis then
    detail ++ "; peer appears to be serving an expired genesis chain. " ++
      "Refresh or reset the peer chain, or perform an explicit one-time migration " ++
      "with MESH_INGEST_EVENT_MAX_AGE_S=0."
  else detail

namespace SyncState

/-- The node, its disk, and the call before its first request. -/
def start (maxRounds : Nat) (net : Infonet) (disk : Disk) : SyncState where
  net := net
  disk := disk
  outcome := if 0 < maxRounds then none else some (.returned true "" false 0)

def finish (s : SyncState) (outcome : SyncOutcome) : SyncState := { s with outcome := some outcome }

/-- The body of the next request. -/
def request (s : SyncState) (pageLimit : Nat) (privateTransport : Bool) : SyncRequest where
  locator := some s.net.getLocator
  limit := some (.int pageLimit)
  privateTransport := privateTransport

/-- `reset_chain`, with its flush. -/
def cleared (codec : Codec) (call : Call) (s : SyncState) : SyncState :=
  let (net, disk) := (s.net.resetChain call).flush codec s.disk
  { s with net := net, disk := disk }

section
variable (codec : Codec) (call : Call) (s : SyncState)

@[simp] theorem cleared_events : (s.cleared codec call).net.events = [] := by
  simp [cleared, Infonet.resetChain]

@[simp] theorem cleared_coldSegments :
    (s.cleared codec call).net.coldSegments = s.net.coldSegments := by
  simp [cleared, Infonet.resetChain]

@[simp] theorem cleared_outcome : (s.cleared codec call).outcome = s.outcome := rfl

end

/-- An answer that reports a fork. -/
def onFork (rt : Runtime) (codec : Codec) (call : Call) (count : PyVal) (s : SyncState) :
    SyncState :=
  match pyInt rt (count.or (.int 0)) with
  | .error exn => s.finish (.raised exn)
  | .ok _ =>
    if s.net.events.length < 20 then s.cleared codec call
    else s.finish (.returned false "fork detected" true 0)

/-- A page of events. -/
def onEvents (env : Env) (call : Call) (pageLimit maxRounds : Nat) (items : List WireItem)
    (s : SyncState) : SyncState :=
  if items = [] then s.finish (.returned true "" false 0)
  else
    match s.net.ingestEvents env call items with
    | (net, .error exn) => { s with net := net }.finish (.raised exn)
    | (net, .ok result) =>
      let s := { s with net := net }
      match walkHydration net "gate_message" items, walkHydration net "dm_message" items with
      | .error exn, _ => s.finish (.raised exn)
      | _, .error exn => s.finish (.raised exn)
      | .ok (), .ok () =>
        if result.rejected ≠ [] then
          s.finish (.returned false (syncDetail env.rt net items result.rejected) false 0)
        else if result.accepted = 0 ∧ items.length ≤ result.duplicates then
          s.finish (.returned true "" false 0)
        else if items.length < pageLimit then s.finish (.returned true "" false 0)
        else if s.rounds + 1 < maxRounds then { s with rounds := s.rounds + 1 }
        else { s with rounds := s.rounds + 1 }.finish (.returned true "" false 0)

end SyncState

/-- What `_sync_from_peer` does with one answer. A call that has ended takes no more. -/
def syncStep (env : Env) (codec : Codec) (pageLimit maxRounds : Nat) (s : SyncState)
    (a : Call × PeerAnswer) : SyncState :=
  if s.outcome.isSome then s
  else
    match a.2 with
    | .rateLimited message retryAfterS => s.finish (.returned false message false retryAfterS)
    | .raised exn => s.finish (.raised exn)
    | .payload forked count events =>
      if forked.truthy then s.onFork env.rt codec a.1 count
      else
        match events with
        | none => s.finish (.returned false "peer sync events must be a list" false 0)
        | some items => s.onEvents env a.1 pageLimit maxRounds items

/-- `_sync_from_peer`, with the answers that the peer gives and the times they arrive. -/
def syncFromPeer (env : Env) (codec : Codec) (pageLimit maxRounds : Nat) (net : Infonet)
    (disk : Disk) (answers : List (Call × PeerAnswer)) : SyncState :=
  run (syncStep env codec pageLimit maxRounds) (.start maxRounds net disk) answers

/-- The answer of a peer that runs the same code and holds the ledger `peer`. -/
def honestAnswer (env : Env) (peer : Infonet) (pageLimit : Nat) (privateTransport : Bool)
    (s : SyncState) : PeerAnswer :=
  (infonetSyncPost env peer (s.request pageLimit privateTransport)).2.toPeerAnswer

/-- One round against such a peer. -/
def honestStep (env : Env) (codec : Codec) (pageLimit maxRounds : Nat) (privateTransport : Bool)
    (peer : Infonet) (s : SyncState) (call : Call) : SyncState :=
  syncStep env codec pageLimit maxRounds s
    (call, honestAnswer env peer pageLimit privateTransport s)

/-! ## What a step does -/

/-- The answer makes the node clear its chain. -/
def Resets (rt : Runtime) (s : SyncState) (a : Call × PeerAnswer) : Prop :=
  s.outcome = none ∧ s.net.events.length < 20 ∧ ∃ forked count events n,
    a.2 = .payload forked count events ∧ forked.truthy ∧ pyInt rt (count.or (.int 0)) = .ok n

section
variable (env : Env) (codec : Codec) (pageLimit maxRounds : Nat) {s : SyncState}
  {a : Call × PeerAnswer}

theorem syncStep_of_ended (h : s.outcome.isSome) :
    syncStep env codec pageLimit maxRounds s a = s := by
  simp [syncStep, h]

/-- A page changes the ledger as a batch does, and ends the call or counts a round. -/
theorem SyncState.onEvents_spec (call : Call) (items : List WireItem) (s : SyncState) :
    Advances env call s.net (s.onEvents env call pageLimit maxRounds items).net ∧
      ((s.onEvents env call pageLimit maxRounds items).outcome.isSome ∨
        s.onEvents env call pageLimit maxRounds items =
          { s with net := (s.onEvents env call pageLimit maxRounds items).net
                   rounds := s.rounds + 1 } ∧ s.rounds + 1 < maxRounds) := by
  have hbatch : Advances env call s.net (s.net.ingestEvents env call items).1 :=
    advances_ingestEvents s.net items
  unfold onEvents
  split
  · exact ⟨.refl, .inl rfl⟩
  · split
    · rename_i heq
      rw [heq] at hbatch
      exact ⟨hbatch, .inl rfl⟩
    · rename_i heq
      rw [heq] at hbatch
      dsimp only
      split
      · exact ⟨hbatch, .inl rfl⟩
      · exact ⟨hbatch, .inl rfl⟩
      · split
        · exact ⟨hbatch, .inl rfl⟩
        · split
          · exact ⟨hbatch, .inl rfl⟩
          · split
            · exact ⟨hbatch, .inl rfl⟩
            · split
              · rename_i hmore
                exact ⟨hbatch, .inr ⟨rfl, hmore⟩⟩
              · exact ⟨hbatch, .inl rfl⟩

/-- An answer ends the call where it is, clears the chain, or takes in a page. -/
theorem syncStep_cases (hopen : s.outcome = none) :
    (∃ outcome, syncStep env codec pageLimit maxRounds s a = s.finish outcome) ∨
    (Resets env.rt s a ∧ syncStep env codec pageLimit maxRounds s a = s.cleared codec a.1) ∨
    (¬ Resets env.rt s a ∧ ∃ items, syncStep env codec pageLimit maxRounds s a =
      s.onEvents env a.1 pageLimit maxRounds items) := by
  obtain ⟨call, answer⟩ := a
  cases answer with
  | rateLimited message retryAfterS => exact .inl ⟨_, by simp [syncStep, hopen]; rfl⟩
  | raised exn => exact .inl ⟨_, by simp [syncStep, hopen]; rfl⟩
  | payload forked count events =>
    by_cases hfork : forked.truthy = true
    · have hstep : syncStep env codec pageLimit maxRounds s (call, .payload forked count events) =
          s.onFork env.rt codec call count := by simp [syncStep, hopen, hfork]
      rw [hstep]
      unfold SyncState.onFork
      cases hcount : pyInt env.rt (count.or (.int 0)) with
      | error exn => exact .inl ⟨_, rfl⟩
      | ok n =>
        dsimp only
        split
        · rename_i hshort
          exact .inr (.inl ⟨⟨hopen, hshort, forked, count, events, n, rfl, hfork, hcount⟩, rfl⟩)
        · exact .inl ⟨_, rfl⟩
    · have hkeep : ¬ Resets env.rt s (call, .payload forked count events) := by
        rintro ⟨-, -, _, _, _, _, hanswer, htrue, -⟩
        cases hanswer
        exact hfork htrue
      cases events with
      | none => exact .inl ⟨_, by simp [syncStep, hopen, hfork]; rfl⟩
      | some items => exact .inr (.inr ⟨hkeep, items, by simp [syncStep, hopen, hfork]⟩)

/-- An answer that does not clear the chain appends only, and ends the call or counts a round. -/
theorem syncStep_keeps (hkeep : ¬ Resets env.rt s a) :
    Advances env a.1 s.net (syncStep env codec pageLimit maxRounds s a).net ∧
      ((syncStep env codec pageLimit maxRounds s a).outcome.isSome ∨
        (syncStep env codec pageLimit maxRounds s a).rounds = s.rounds + 1 ∧
          s.rounds + 1 < maxRounds) := by
  by_cases hended : s.outcome.isSome
  · rw [syncStep_of_ended env codec pageLimit maxRounds hended]
    exact ⟨.refl, .inl hended⟩
  · rw [Option.not_isSome_iff_eq_none] at hended
    rcases syncStep_cases env codec pageLimit maxRounds (a := a) hended
      with ⟨outcome, hstep⟩ | ⟨hreset, -⟩ | ⟨-, items, hstep⟩
    · rw [hstep]
      exact ⟨.refl, .inl rfl⟩
    · exact absurd hreset hkeep
    · rw [hstep]
      obtain ⟨hadv, hend⟩ := s.onEvents_spec env pageLimit maxRounds a.1 items
      refine ⟨hadv, hend.imp_right fun ⟨heq, hmore⟩ => ⟨?_, hmore⟩⟩
      rw [heq]

end

/-! ## What the elementary changes keep -/

theorem Infonet.archived_prefix_save (net : Infonet) : net.archived <+: net.save.archived := by
  unfold Infonet.save Infonet.enforceMemoryCap
  split
  · exact List.prefix_refl _
  · simp [Infonet.archived, Infonet.invalidateMerkleCache]

section
variable {env : Env} {call : Call} {net net' : Infonet}

/-- The history only grows, and so does the archive. -/
theorem Advance.grows (h : Advance env call net net') :
    net.history <+: net'.history ∧ net.archived <+: net'.archived := by
  cases h with
  | commit _ => exact ⟨by simp [Infonet.commit_history], by simp [Infonet.archived]⟩
  | bind _ => exact ⟨List.prefix_refl _, List.prefix_refl _⟩
  | rotate => exact ⟨List.prefix_refl _, List.prefix_refl _⟩
  | invalidate => exact ⟨List.prefix_refl _, List.prefix_refl _⟩
  | save => exact ⟨by simp, net.archived_prefix_save⟩

/-- A chain does not get short: the memory cap leaves more than that. -/
theorem Advance.long (h : Advance env call net net') (hlong : 20 ≤ net.events.length) :
    20 ≤ net'.events.length := by
  cases h with
  | commit _ => simp; omega
  | bind _ => exact hlong
  | rotate => exact hlong
  | invalidate => exact hlong
  | save =>
    unfold Infonet.save Infonet.enforceMemoryCap
    split
    · exact hlong
    · rename_i hover
      simp only [Infonet.invalidateMerkleCache, List.length_drop, maxChainMemory] at hover ⊢
      omega

theorem Advances.grows (h : Advances env call net net') :
    net.history <+: net'.history ∧ net.archived <+: net'.archived := by
  induction h with
  | refl => exact ⟨List.prefix_refl _, List.prefix_refl _⟩
  | tail _ hstep ih => exact ⟨ih.1.trans hstep.grows.1, ih.2.trans hstep.grows.2⟩

theorem Advances.long (h : Advances env call net net') (hlong : 20 ≤ net.events.length) :
    20 ≤ net'.events.length := by
  induction h with
  | refl => exact hlong
  | tail _ hstep ih => exact hstep.long ih

end

/-! ## Whole calls -/

/-- The call ends after boundedly many answers, whatever they are. -/
def SyncBounded (env : Env) (codec : Codec) (pageLimit maxRounds : Nat) (net : Infonet)
    (disk : Disk) : Prop :=
  ∃ bound, ∀ answers : List (Call × PeerAnswer), bound ≤ answers.length →
    (syncFromPeer env codec pageLimit maxRounds net disk answers).outcome.isSome

/-- Whatever the answers are, a call that has ended has kept every event, or has left a
    longer chain. -/
def SyncKeeps (env : Env) (codec : Codec) (pageLimit maxRounds : Nat) (net : Infonet)
    (disk : Disk) : Prop :=
  ∀ answers : List (Call × PeerAnswer),
    let s := syncFromPeer env codec pageLimit maxRounds net disk answers
    s.outcome.isSome →
      List.Sublist net.history s.net.history ∨ net.history.length < s.net.history.length

section
variable (env : Env) (codec : Codec) (pageLimit maxRounds : Nat)

theorem run_of_ended {s : SyncState} (h : s.outcome.isSome) (answers : List (Call × PeerAnswer)) :
    run (syncStep env codec pageLimit maxRounds) s answers = s := by
  induction answers with
  | nil => rfl
  | cons a answers ih => rw [run_cons, syncStep_of_ended env codec pageLimit maxRounds h, ih]

/-- A run that never clears the chain keeps its history. -/
theorem run_history {s : SyncState} {answers : List (Call × PeerAnswer)}
    (hrun : Along (syncStep env codec pageLimit maxRounds) (fun s a => ¬ Resets env.rt s a) s
      answers) :
    s.net.history <+: (run (syncStep env codec pageLimit maxRounds) s answers).net.history := by
  have hstep : ∀ s' a, s.net.history <+: s'.net.history → ¬ Resets env.rt s' a →
      s.net.history <+: (syncStep env codec pageLimit maxRounds s' a).net.history :=
    fun s' a hs hkeep => hs.trans (syncStep_keeps env codec pageLimit maxRounds hkeep).1.grows.1
  exact invariant hstep (List.prefix_refl _) hrun

/-- Each of its answers ends the call or takes one of the rounds. -/
theorem run_rounds {s : SyncState} {answers : List (Call × PeerAnswer)}
    (hrun : Along (syncStep env codec pageLimit maxRounds) (fun s a => ¬ Resets env.rt s a) s
      answers) (hroom : s.outcome = none → s.rounds < maxRounds) :
    (run (syncStep env codec pageLimit maxRounds) s answers).outcome.isSome ∨
      s.rounds + answers.length < maxRounds := by
  induction answers generalizing s with
  | nil =>
    cases hout : s.outcome with
    | none => exact .inr (by simpa using hroom hout)
    | some outcome => exact .inl (by simp [hout])
  | cons a answers ih =>
    obtain ⟨hkeep, hrest⟩ := hrun
    rcases (syncStep_keeps env codec pageLimit maxRounds hkeep).2 with hended | ⟨hcount, hmore⟩
    · exact .inl (by rw [run_cons, run_of_ended env codec pageLimit maxRounds hended]; exact hended)
    · refine (ih hrest fun _ => by omega).imp_right fun h => ?_
      rw [hcount] at h
      simp only [List.length_cons]
      omega

theorem along_of_long {s : SyncState} (hlong : 20 ≤ s.net.events.length)
    (answers : List (Call × PeerAnswer)) :
    Along (syncStep env codec pageLimit maxRounds) (fun s a => ¬ Resets env.rt s a) s answers := by
  induction answers generalizing s with
  | nil => trivial
  | cons a answers ih =>
    have hkeep : ¬ Resets env.rt s a := fun hreset => by
      have := hreset.2.1
      omega
    exact ⟨hkeep, ih ((syncStep_keeps env codec pageLimit maxRounds hkeep).1.long hlong)⟩

theorem run_archived (s : SyncState) (answers : List (Call × PeerAnswer)) :
    s.net.archived <+: (run (syncStep env codec pageLimit maxRounds) s answers).net.archived := by
  induction answers generalizing s with
  | nil => exact List.prefix_refl _
  | cons a answers ih =>
    refine List.IsPrefix.trans ?_ (ih _)
    by_cases hkeep : Resets env.rt s a
    · rcases syncStep_cases env codec pageLimit maxRounds (a := a) hkeep.1
        with ⟨outcome, hstep⟩ | ⟨-, hstep⟩ | ⟨hno, -⟩
      · rw [hstep]
        exact List.prefix_refl _
      · rw [hstep]
        simp [Infonet.archived]
      · exact absurd hkeep hno
    · exact (syncStep_keeps env codec pageLimit maxRounds hkeep).1.grows.2

/-- What an empty peer says to a locator that names an event. -/
def forkAnswer : PeerAnswer := .payload (.bool true) (.int 0) (some [])

theorem syncStep_fork {s : SyncState} (call : Call) (hopen : s.outcome = none)
    (hshort : s.net.events.length < 20) :
    syncStep env codec pageLimit maxRounds s (call, forkAnswer) = s.cleared codec call := by
  simp [syncStep, hopen, forkAnswer, PyVal.truthy, SyncState.onFork, pyInt, PyVal.or,
    hshort]

/-- A peer that reports one fork after another keeps the call going for ever. -/
theorem run_forks (call : Call) (n : Nat) {s : SyncState} (hopen : s.outcome = none)
    (hshort : s.net.events.length < 20) :
    (run (syncStep env codec pageLimit maxRounds) s
      (List.replicate n (call, forkAnswer))).outcome = none := by
  induction n generalizing s with
  | zero => exact hopen
  | succ n ih =>
    rw [List.replicate_succ, run_cons, syncStep_fork env codec pageLimit maxRounds call hopen hshort]
    exact ih hopen (by simp)

theorem start_of_rounds {maxRounds : Nat} (hmax : 0 < maxRounds) (net : Infonet) (disk : Disk) :
    (SyncState.start maxRounds net disk).outcome = none := by
  simp [SyncState.start, hmax]

/-- One report of a fork and then an empty page leave the archive alone. -/
theorem syncFromPeer_fork_history (call : Call) (hmax : 0 < maxRounds) {net : Infonet}
    (hshort : net.events.length < 20) (disk : Disk) :
    let s := syncFromPeer env codec pageLimit maxRounds net disk
      [(call, forkAnswer), (call, .payload (.bool false) (.int 0) (some []))]
    s.outcome = some (.returned true "" false 0) ∧ s.net.history = net.archived := by
  have hfork := syncStep_fork env codec pageLimit maxRounds call (start_of_rounds hmax net disk) hshort
  simp only [syncFromPeer, run_cons, run_nil, hfork]
  have hopen := start_of_rounds hmax net disk
  have hstep : syncStep env codec pageLimit maxRounds
      ((SyncState.start maxRounds net disk).cleared codec call)
      (call, .payload (.bool false) (.int 0) (some [])) =
        ((SyncState.start maxRounds net disk).cleared codec call).finish
          (.returned true "" false 0) := by
    simp [syncStep, hopen, PyVal.truthy, SyncState.onEvents]
  rw [hstep]
  refine ⟨rfl, ?_⟩
  simp [SyncState.finish, Infonet.history, Infonet.archived, SyncState.start]

/-! ## When syncing costs no history -/

theorem syncBounded_iff (hmax : 0 < maxRounds) (net : Infonet) (disk : Disk) :
    SyncBounded env codec pageLimit maxRounds net disk ↔ 20 ≤ net.events.length := by
  constructor
  · rintro ⟨bound, hbound⟩
    by_contra hshort
    have hended := hbound (List.replicate bound (callAt 1, forkAnswer)) (by simp)
    have hopen : (syncFromPeer env codec pageLimit maxRounds net disk
        (List.replicate bound (callAt 1, forkAnswer))).outcome = none :=
      run_forks env codec pageLimit maxRounds (callAt 1) bound (start_of_rounds hmax net disk)
        (by simpa [SyncState.start] using hshort)
    simp [hopen] at hended
  · intro hlong
    refine ⟨maxRounds, fun answers hmany => ?_⟩
    have hnever := along_of_long env codec pageLimit maxRounds (s := .start maxRounds net disk) hlong answers
    exact (run_rounds env codec pageLimit maxRounds hnever fun _ => hmax).resolve_right (by omega)

theorem syncKeeps_iff (hmax : 0 < maxRounds) (net : Infonet) (disk : Disk) :
    SyncKeeps env codec pageLimit maxRounds net disk ↔
      20 ≤ net.events.length ∨ net.events = [] := by
  constructor
  · intro hkeeps
    by_contra hshort
    obtain ⟨hlen, hsome⟩ := not_or.mp hshort
    obtain ⟨hended, hhistory⟩ := syncFromPeer_fork_history env codec pageLimit maxRounds (callAt 1) hmax
      (by omega : net.events.length < 20) disk
    have hpos : 0 < net.events.length := List.length_pos_iff.mpr hsome
    have hsplit : net.history.length = net.archived.length + net.events.length := by
      simp [Infonet.history, Infonet.archived]
    rcases hkeeps _ (by rw [hended]; rfl) with hsub | hlonger
    · have := hsub.length_le
      rw [hhistory] at this
      omega
    · rw [hhistory] at hlonger
      omega
  · rintro (hlong | hempty) answers - hended
    · have hnever := along_of_long env codec pageLimit maxRounds (s := .start maxRounds net disk) hlong answers
      exact .inl (run_history env codec pageLimit maxRounds hnever).sublist
    · -- an empty hot chain has nothing to lose but the archive, and that stays
      have harchive := run_archived env codec pageLimit maxRounds (.start maxRounds net disk) answers
      have hhistory : net.history = net.archived := by
        simp [Infonet.history, Infonet.archived, hempty]
      rw [hhistory]
      exact .inl (harchive.sublist.trans (List.sublist_append_left _ _))

end

/-- A call that never clears its chain ends and keeps the history. Whatever is answered, it ends iff
the hot chain has 20 events, and costs no history iff it has 20 or none. -/
theorem sync_keeps_iff (env : Env) (codec : Codec) (pageLimit maxRounds : Nat)
    (hmax : 0 < maxRounds) (net : Infonet) (disk : Disk) :
    (∀ answers, Along (syncStep env codec pageLimit maxRounds)
        (fun s a => ¬ Resets env.rt s a) (.start maxRounds net disk) answers →
      let s := syncFromPeer env codec pageLimit maxRounds net disk answers
      net.history <+: s.net.history ∧ (maxRounds ≤ answers.length → s.outcome.isSome)) ∧
    (SyncBounded env codec pageLimit maxRounds net disk ↔ 20 ≤ net.events.length) ∧
    (SyncKeeps env codec pageLimit maxRounds net disk ↔
      20 ≤ net.events.length ∨ net.events = []) := by
  refine ⟨fun answers hrun => ⟨run_history env codec pageLimit maxRounds hrun, fun hmany => ?_⟩,
    syncBounded_iff env codec pageLimit maxRounds hmax net disk,
    syncKeeps_iff env codec pageLimit maxRounds hmax net disk⟩
  exact (run_rounds env codec pageLimit maxRounds hrun fun _ => hmax).resolve_right (by omega)

theorem sync_keeps_message :
    (∀ answers, Along (syncStep plainEnv ⟨some⟩ 100 5) (fun s a => ¬ Resets asciiRuntime s a)
        (.start 5 messageLedger {}) answers →
      let s := syncFromPeer plainEnv ⟨some⟩ 100 5 messageLedger {} answers
      messageLedger.history <+: s.net.history ∧ (5 ≤ answers.length → s.outcome.isSome)) ∧
    (SyncBounded plainEnv ⟨some⟩ 100 5 messageLedger {} ↔ 20 ≤ messageLedger.events.length) ∧
    (SyncKeeps plainEnv ⟨some⟩ 100 5 messageLedger {} ↔
      20 ≤ messageLedger.events.length ∨ messageLedger.events = []) :=
  sync_keeps_iff plainEnv ⟨some⟩ 100 5 (by decide) messageLedger {}

/-! ## An honest peer that is behind -/

/-- The limit that the endpoint makes of the one in a request. -/
theorem SyncState.request_pageLimit (rt : Runtime) (s : SyncState) (pageLimit : Nat)
    (privateTransport : Bool) :
    (s.request pageLimit privateTransport).pageLimit rt = max 1 (min 500 pageLimit) := by
  simp only [request, SyncRequest.pageLimit, safeInt]
  omega

/-- The answer that the page which matches the locator gives. -/
theorem honestAnswer_eq {env : Env} {peer : Infonet} {pageLimit : Nat} {privateTransport : Bool}
    {s : SyncState} {matchedHash : String} {start : Int} {found : List ChainEvent}
    (h : peer.getEventsAfterLocator s.net.getLocator (max 1 (min 500 pageLimit)) =
      (matchedHash, start, found)) :
    honestAnswer env peer pageLimit privateTransport s =
      let events := infonetSyncResponseEvents privateTransport found
      if events.all (·.compliant) then
        .payload (.bool (matchedHash = "" ||
          (matchedHash = genesisHash && 1 < s.net.getLocator.length)))
          (.int events.length) (some (events.map .event))
      else .raised "ValueError" := by
  have hlimit := s.request_pageLimit env.rt pageLimit privateTransport
  have hlocator : (s.request pageLimit privateTransport).locator = some s.net.getLocator := rfl
  have hprivate : (s.request pageLimit privateTransport).privateTransport = privateTransport := rfl
  unfold honestAnswer infonetSyncPost
  simp only [hlimit, hlocator, hprivate, h]
  rw [if_neg (by simp [SyncState.request]), if_neg (by simp [SyncState.request]),
    if_neg (by simp [SyncState.request])]
  dsimp only
  split <;> simp [SyncAnswer.toPeerAnswer]

/-- An empty peer takes every locator that names an event for one of a fork. -/
theorem honestAnswer_empty (env : Env) (start : Call) (pageLimit : Nat) (privateTransport : Bool)
    (s : SyncState) :
    honestAnswer env (Infonet.empty start) pageLimit privateTransport s =
      .payload (.bool (decide (s.net.events ≠ []))) (.int 0) (some []) := by
  have hmatch : ∀ ids limit, (Infonet.empty start).getEventsAfterLocator (ids ++ [genesisHash])
      limit = (genesisHash, 0, []) := fun ids limit => by
    simpa [Infonet.empty, Infonet.getEventsAfterLocator] using
      Infonet.matchLocator_of_unknown (.empty start) (fun _ => rfl) limit ids
  have hgenesis : genesisHash ≠ "" := by decide
  rcases List.eq_nil_or_concat' s.net.events with hnil | ⟨es, e, hcons⟩
  · have hlocator : s.net.getLocator = [] ++ [genesisHash] := by simp [Infonet.getLocator, hnil]
    rw [honestAnswer_eq (hlocator ▸ hmatch [] _)]
    simp [hlocator, hnil, infonetSyncResponseEvents, hgenesis]
  · obtain ⟨ids, hids⟩ := Infonet.getLocator_concat hcons
    have hlocator : s.net.getLocator = (e.eventId :: ids) ++ [genesisHash] := by simp [hids]
    rw [honestAnswer_eq (hlocator ▸ hmatch (e.eventId :: ids) _)]
    simp [hlocator, hcons, infonetSyncResponseEvents]

/-- Two rounds against an empty peer cost a short chain all its events. -/
theorem run_honest_empty (env : Env) (codec : Codec) (pageLimit : Nat) {maxRounds : Nat}
    (hmax : 0 < maxRounds) (privateTransport : Bool) (start call : Call) {net : Infonet}
    (hsome : net.events ≠ []) (hshort : net.events.length < 20) (disk : Disk) :
    let s := run (honestStep env codec pageLimit maxRounds privateTransport (.empty start))
      (.start maxRounds net disk) [call, call]
    s.outcome = some (.returned true "" false 0) ∧ s.net.history = net.archived := by
  have hopen := start_of_rounds hmax net disk
  have hfirst : honestStep env codec pageLimit maxRounds privateTransport (.empty start)
      (.start maxRounds net disk) call = (SyncState.start maxRounds net disk).cleared codec call := by
    have hfork : decide ((SyncState.start maxRounds net disk).net.events ≠ []) = true :=
      decide_eq_true hsome
    rw [honestStep, honestAnswer_empty, hfork]
    exact syncStep_fork env codec pageLimit maxRounds call hopen hshort
  have hsecond : ∀ s : SyncState, s.net.events = [] →
      honestStep env codec pageLimit maxRounds privateTransport (.empty start) s call =
        syncStep env codec pageLimit maxRounds s
          (call, .payload (.bool false) (.int 0) (some [])) := fun s hs => by
    simp [honestStep, honestAnswer_empty, hs]
  have hfork := syncFromPeer_fork_history env codec pageLimit maxRounds call hmax hshort disk
  simp only [syncFromPeer, run_cons, run_nil,
    syncStep_fork env codec pageLimit maxRounds call hopen hshort] at hfork
  simpa only [run_cons, run_nil, hfirst, hsecond _ (SyncState.cleared_events ..)] using hfork

/-- A node that holds one message loses it to an honest peer that holds nothing. -/
theorem not_sync_keeps : ¬ ∀ (env : Env) (codec : Codec) (pageLimit maxRounds : Nat)
    (privateTransport : Bool) (peer net : Infonet) (disk : Disk) (calls : List Call),
    let s := run (honestStep env codec pageLimit maxRounds privateTransport peer)
      (.start maxRounds net disk) calls
    s.outcome.isSome →
      List.Sublist net.history s.net.history ∨ net.history.length < s.net.history.length := by
  intro hclaim
  have hheld : messageLedger.events.length = 1 := by decide +kernel
  generalize messageLedger = net at hheld
  have hsome : net.events ≠ [] := List.length_pos_iff.mp (by omega)
  obtain ⟨hended, hhistory⟩ := run_honest_empty plainEnv ⟨some⟩ 100 (by decide : 0 < 5)
    false (callAt 1) (callAt 1700000010) hsome (by omega) {}
  have hsplit : net.history.length = net.archived.length + net.events.length := by
    simp [Infonet.history, Infonet.archived]
  have hlost := hclaim plainEnv ⟨some⟩ 100 5 false (.empty (callAt 1)) net {}
    [callAt 1700000010, callAt 1700000010] (by rw [hended]; rfl)
  rw [hhistory] at hlost
  rcases hlost with hsub | hlonger
  · have := hsub.length_le
    omega
  · omega

end Vincent.Mesh
