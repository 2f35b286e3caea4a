-- SUMMARY: When relay processes over one file act as if in turn.
import Vincent.General.ReadModifyWrite
import Vincent.Dm.Mailboxes
import Vincent.Dm.Nonces

/-!
# Relays that share a file

With auto reload on, each operation of a relay process reads the shared file,
changes the memory, and flushes. The lock is one of the process, so two
processes may both read the file before either flushes.
-/

namespace Vincent.Dm

open Vincent.Python Vincent.Run Vincent.ReadModifyWrite

section Model

variable (env : RelayEnv)

/-- `_reload_snapshot_from_shared_relay`: what is not persisted is kept. -/
def reloadSnapshot (now : ℚ) (file : Option RelayFile) (s : Relay) : Relay :=
  match file with
  | none =>
    { mailboxes := if env.cfg.persistSpoolEnabled then fun _ => [] else s.mailboxes
      mailboxBindings :=
        if env.cfg.metadataPersistEnabled then fun _ _ => none else s.mailboxBindings }
  | some file =>
    let fresh := load env now file
    { fresh with
      mailboxes := if env.cfg.persistSpoolEnabled then fresh.mailboxes else s.mailboxes
      mailboxBindings := if env.cfg.metadataPersistEnabled then fresh.mailboxBindings
        else (pruneStaleMailboxBindings env now s).mailboxBindings }

/-- The operations that add, refuse or hand out something, and any other change of the memory. -/
inductive SharedOp where
  | consumeNonce (agentId nonce : String) (timestamp : Int)
  | deposit (d : Deposit)
  | collectClaims (agentId : String) (claims : List MailboxClaim) (limit : Nat)
  | countClaims (agentId : String) (claims : List MailboxClaim)
  | block (agentId blockedId : String)
  | unblock (agentId blockedId : String)
  | other (operation : ℚ → Relay → Relay × Bool)

inductive SharedResult where
  | nonce (accepted : Bool) (detail : String)
  | receipt (result : Except String Receipt)
  | messages (collected : List DMMessage) (hasMore : Bool)
  | count (n : Nat)
  | done

/-- The memory after an operation, whether it saves, and its result. -/
def SharedOp.exec (now : ℚ) (s : Relay) : SharedOp → Relay × Bool × SharedResult
  | .consumeNonce agentId nonce timestamp =>
    let (s, accepted, detail) := Dm.consumeNonce env now agentId nonce timestamp s
    (s, accepted, .nonce accepted detail)
  | .deposit d =>
    let (s, result) := Dm.deposit env now d s
    (s, match result with
      | .ok receipt => !receipt.duplicate
      | .error _ => false, .receipt result)
  | .collectClaims agentId claims limit =>
    let (s, collected, hasMore) := Dm.collectClaims env now agentId claims limit s
    (s, true, .messages collected hasMore)
  | .countClaims agentId claims =>
    let (s, n) := Dm.countClaims env now agentId claims s
    (s, (claims.take 32).any fun claim => (claim.binds env).isSome, .count n)
  | .block agentId blockedId =>
    (Dm.block env now agentId blockedId s, blockedRef env agentId blockedId ≠ "", .done)
  | .unblock agentId blockedId =>
    (Dm.unblock env agentId blockedId s, blockedRef env agentId blockedId ≠ "", .done)
  | .other operation =>
    let (s, saves) := operation now s
    (s, saves, .done)

/-- An operation reads at one time, and changes and flushes at another. -/
def sharedOperations :
    Operations (Option RelayFile) Relay (ℚ × SharedOp) ℚ SharedResult where
  read o file s := reloadSnapshot env o.1 file s
  modify o now s :=
    let (s, saves, result) := o.2.exec env now s
    if saves then
      let s := pruneStaleMetadata env now s
      (s, some (some (filePayload env s)), result)
    else (s, none, result)

end Model

/-- Where no process writes between the read and the write of another, it is as if done in turn. -/
theorem shared_in_turn {ι : Type*} [DecidableEq ι] (env : RelayEnv)
    (s : Shared ι (Option RelayFile) Relay (ℚ × SharedOp)) (actions : List (Action ι (ℚ × SharedOp) ℚ))
    (hidle : ∀ i, s.busy i = none)
    (hrun : Along (step (sharedOperations env)) Undisturbed s actions) :
    let ops := sharedOperations env
    let inTurn := outputs (step ops) completed s actions
    outputs (step ops) (result ops) s actions =
        outputs (sequentialStep ops) (sequentialResult ops) s inTurn ∧
      (run (step ops) s actions).file = (run (sequentialStep ops) s inTurn).file ∧
      ∀ i, (run (step ops) s actions).busy i = none →
        (run (step ops) s actions).memory i = (run (sequentialStep ops) s inTurn).memory i := by
  obtain ⟨hresults, hend⟩ := (InTurn.start hidle).run hrun
  exact ⟨hresults, hend.file, hend.idle⟩

/-- Two processes that consume the same nonce. -/
def nonceOp (now : ℚ) : ℚ × SharedOp := (now, .consumeNonce "ana" "n1" 90)

/-- Fresh processes over no file. -/
def freshProcesses : Shared Bool (Option RelayFile) Relay (ℚ × SharedOp) where
  file := none
  memory _ := {}

theorem shared_in_turn_sample :
    outputs (step (sharedOperations plainRelayEnv)) (result (sharedOperations plainRelayEnv))
        freshProcesses [.read false (nonceOp 100), .write false 101, .read true (nonceOp 102),
          .write true 103] =
      outputs (sequentialStep (sharedOperations plainRelayEnv))
        (sequentialResult (sharedOperations plainRelayEnv)) freshProcesses
        [(false, nonceOp 100, 101), (true, nonceOp 102, 103)] := by
  refine (shared_in_turn plainRelayEnv freshProcesses
    [.read false (nonceOp 100), .write false 101, .read true (nonceOp 102), .write true 103]
    (fun _ => rfl) ?_).1
  refine ⟨trivial, ?_, trivial, ?_, trivial⟩
  · intro o f hbusy
    cases hbusy
    rfl
  · intro o f hbusy
    cases hbusy
    rfl

/-- How many nonces were accepted. -/
def acceptedNonces (results : List SharedResult) : Nat :=
  results.countP fun
    | .nonce accepted _ => accepted
    | _ => false

/-- A relay that persists its spool. -/
def spoolRelayEnv : RelayEnv := { plainRelayEnv with
  cfg := { plainRelayConfig with persistSpoolEnabled := true } }

/-- Two processes that read the file before either writes it both accept the nonce. -/
theorem not_shared_in_turn :
    ¬ ∀ (env : RelayEnv) (actions : List (Action Bool (ℚ × SharedOp) ℚ)),
      env.cfg.persistSpoolEnabled = true →
      let ops := sharedOperations env
      ∃ inTurn, inTurn.Perm (outputs (step ops) completed freshProcesses actions) ∧
        (outputs (sequentialStep ops) (sequentialResult ops) freshProcesses inTurn).Perm
          (outputs (step ops) (result ops) freshProcesses actions) := by
  intro h
  obtain ⟨inTurn, hperm, hresults⟩ := h spoolRelayEnv
    [.read false (nonceOp 100), .read true (nonceOp 100), .write false 101, .write true 101] rfl
  have hcount : acceptedNonces _ = acceptedNonces _ := hresults.countP_eq _
  rw [← List.mem_permutations'] at hperm
  have hcases : ∀ ops ∈ (outputs (step (sharedOperations spoolRelayEnv)) completed freshProcesses
      [.read false (nonceOp 100), .read true (nonceOp 100), .write false 101,
        .write true 101]).permutations',
      acceptedNonces (outputs (sequentialStep (sharedOperations spoolRelayEnv))
        (sequentialResult (sharedOperations spoolRelayEnv)) freshProcesses ops) = 1 := by
    decide +kernel
  rw [hcases inTurn hperm] at hcount
  revert hcount
  decide +kernel

end Vincent.Dm
