-- SUMMARY: The push loops, and when they pass only what a peer has taken.
import Vincent.General.Cursor
import Vincent.Mesh.GateReplay
import Vincent.Mesh.Operations
import Vincent.Mesh.PeerSync

/-!
# Push loops

Two background loops send ledger events and gate events to each peer, fifty at a time.
An answer with status 200 moves the position past the batch, whatever it says.

What a peer has accepted or already had is recorded beside each position, and is not
part of the program.
-/

namespace Vincent.Mesh

open Vincent.Python Vincent.Check Vincent.Run

def peerPushBatchSize : Nat := 50

/-- A status, or none where the request raises; `takes` says which events the peer then has. -/
structure PushAnswer (α : Type) where
  status : Option Nat
  takes : α → Bool

/-- One turn of a push loop: one peer, and for the gates one gate. -/
def pushTurn {α : Type} (events : List α) (c : Cursor α) (answer : PushAnswer α) : Cursor α :=
  if events.length ≤ c.position then c
  else
    let batch := c.batch peerPushBatchSize events
    { position := if answer.status = some 200 then c.position + batch.length else c.position
      taken := c.taken ++ batch.filter answer.takes }

/-- A node with its push loops. -/
structure PushNode where
  net : Infonet
  store : GateStore
  /-- `_peer_push_last_index`. -/
  peerPushLastIndex : String → Cursor ChainEvent := fun _ => {}
  /-- `_gate_push_last_count`, for a peer and a gate. -/
  gatePushLastCount : String → String → Cursor GateEvent := fun _ _ => {}

inductive PushAction where
  | ledger (a : ChainAction)
  | gates (a : GateAction)
  | pushEvents (peer : String) (answer : PushAnswer ChainEvent)
  | pushGate (peer gateId : String) (answer : PushAnswer GateEvent)

def pushStep (env : Env) (node : PushNode) : PushAction → PushNode
  | .ledger a => { node with net := chainStep env node.net a }
  | .gates a => { node with store := gateStep env node.store a }
  | .pushEvents peer answer =>
    { node with
      peerPushLastIndex :=
        Function.update node.peerPushLastIndex peer
          (pushTurn node.net.events (node.peerPushLastIndex peer) answer) }
  | .pushGate peer gateId answer =>
    { node with
      gatePushLastCount :=
        Function.update node.gatePushLastCount peer
          (Function.update (node.gatePushLastCount peer) gateId
            (pushTurn (node.store.gates gateId) (node.gatePushLastCount peer gateId) answer)) }

section
variable (env : Env) (node : PushNode) (a : GateAction) (peer gateId : String)
  (answer : PushAnswer GateEvent)

theorem pushStep_gates_store : (pushStep env node (.gates a)).store = gateStep env node.store a := rfl

theorem pushStep_gates_cursor :
    (pushStep env node (.gates a)).gatePushLastCount = node.gatePushLastCount := rfl

theorem pushStep_pushGate_store :
    (pushStep env node (.pushGate peer gateId answer)).store = node.store := rfl

theorem pushStep_pushGate_cursor :
    (pushStep env node (.pushGate peer gateId answer)).gatePushLastCount peer gateId =
      pushTurn (node.store.gates gateId) (node.gatePushLastCount peer gateId) answer := by
  simp [pushStep]

end

/-- Each event below a position has been taken by the peer. -/
structure PassesOnlyTaken (node : PushNode) : Prop where
  ledger : ∀ peer, (node.peerPushLastIndex peer).Faithful node.net.events
  gates : ∀ peer gateId, (node.gatePushLastCount peer gateId).Faithful (node.store.gates gateId)

/-- The events below a position stay, and a peer that answers 200 has taken the whole batch. -/
def KeepsPositions (env : Env) (node : PushNode) : PushAction → Prop
  | .ledger a => ∀ peer, (chainStep env node.net a).events.take (node.peerPushLastIndex peer).position =
      node.net.events.take (node.peerPushLastIndex peer).position
  | .gates a => ∀ peer gateId,
      ((gateStep env node.store a).gates gateId).take (node.gatePushLastCount peer gateId).position =
      (node.store.gates gateId).take (node.gatePushLastCount peer gateId).position
  | .pushEvents peer answer => answer.status = some 200 →
      ∀ e ∈ (node.peerPushLastIndex peer).batch peerPushBatchSize node.net.events,
        answer.takes e = true
  | .pushGate peer gateId answer => answer.status = some 200 →
      ∀ e ∈ (node.gatePushLastCount peer gateId).batch peerPushBatchSize (node.store.gates gateId),
        answer.takes e = true

/-- A turn that the peer answers in good faith keeps the cursor faithful. -/
theorem pushTurn_faithful {α : Type} {events : List α} {c : Cursor α} {answer : PushAnswer α}
    (h : c.Faithful events)
    (hanswer : answer.status = some 200 →
      ∀ e ∈ c.batch peerPushBatchSize events, answer.takes e = true) :
    (pushTurn events c answer).Faithful events := by
  unfold pushTurn
  split
  · exact h
  · simp only
    split
    · rename_i hstatus
      apply h.advance
      intro e he
      exact List.mem_filter.mpr ⟨he, hanswer hstatus e he⟩
    · exact h.take_more _

theorem PassesOnlyTaken.step {env : Env} {node : PushNode} {a : PushAction}
    (h : PassesOnlyTaken node) (hkeeps : KeepsPositions env node a) :
    PassesOnlyTaken (pushStep env node a) := by
  cases a with
  | ledger a => exact ⟨fun peer => (h.ledger peer).of_take (hkeeps peer), h.gates⟩
  | gates a =>
    exact ⟨h.ledger, fun peer gateId => (h.gates peer gateId).of_take (hkeeps peer gateId)⟩
  | pushEvents peer answer =>
    refine ⟨fun other => ?_, h.gates⟩
    simp only [pushStep, Function.update_apply]
    split
    · rename_i hpeer
      subst hpeer
      exact pushTurn_faithful (h.ledger other) hkeeps
    · exact h.ledger other
  | pushGate peer gateId answer =>
    refine ⟨h.ledger, fun other otherGate => ?_⟩
    simp only [pushStep, Function.update_apply]
    split
    · rename_i hpeer
      subst hpeer
      simp only [Function.update_apply]
      split
      · rename_i hgate
        subst hgate
        exact pushTurn_faithful (h.gates other otherGate) hkeeps
      · exact h.gates other otherGate
    · exact h.gates other otherGate

/-- A peer that accepts the batch. -/
def acceptedPush : PushAnswer GateEvent where
  status := some 200
  takes := fun _ => true

/-- A peer outside of the fleet: it answers 200 with `"skipped": "fleet_join_disabled"`, and keeps
nothing. -/
def skippedPush : PushAnswer GateEvent where
  status := some 200
  takes := fun _ => false

theorem pushTurn_position {α : Type} {events : List α} (hlength : events.length = 1)
    {answer : PushAnswer α} (h : answer.status = some 200) :
    (pushTurn events {} answer).position = 1 := by
  simp [pushTurn, hlength, h, Cursor.batch, peerPushBatchSize]

theorem pushTurn_skipped (events : List GateEvent) : (pushTurn events {} skippedPush).taken = [] := by
  unfold pushTurn
  split
  · rfl
  · simp [skippedPush]

/-- A node stores one gate message and pushes it to a peer. -/
def pushRun (answer : PushAnswer GateEvent) : PushNode :=
  run (pushStep textSignedEnv) { net := Infonet.empty (callAt 1), store := {} }
    [.gates (.ingest openCall "g" [gateMessageAt 1700000000]), .pushGate "peer" "g" answer]

theorem pushRun_store (answer : PushAnswer GateEvent) :
    (pushRun answer).store = gateStep textSignedEnv {} (.ingest openCall "g" [gateMessageAt 1700000000]) := by
  rw [pushRun, run_cons, run_cons, run_nil, pushStep_pushGate_store, pushStep_gates_store]

theorem pushRun_cursor (answer : PushAnswer GateEvent) :
    (pushRun answer).gatePushLastCount "peer" "g" = pushTurn ((gateStep textSignedEnv {}
      (.ingest openCall "g" [gateMessageAt 1700000000])).gates "g") {} answer := by
  rw [pushRun, run_cons, run_cons, run_nil, pushStep_pushGate_cursor, pushStep_gates_store,
    pushStep_gates_cursor]

end Vincent.Mesh
