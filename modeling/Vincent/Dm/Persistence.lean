-- SUMMARY: The save timer of a relay: when every acknowledged change is in the file.
import Vincent.Dm.Keys

/-!
# Persistence

A change marks the relay dirty and arms a timer, which builds the payload, then writes
it and clears the mark. What is changed in a copied table between the two steps is not
written, and no timer is left to write it.
-/

namespace Vincent.Dm

open Vincent.Python Vincent.Run

/-- The save timer: not alive, waiting, or in the flush with the payload that it built. -/
inductive SaveTimer where
  | idle
  | armed
  | writing (payload : RelayFile)

/-- A relay process. -/
structure Process where
  relay : Relay
  file : RelayFile
  dirty : Bool := false
  timer : SaveTimer := .idle
  /-- Whether the last write succeeded, if there was one. -/
  lastWrite : Option Bool := none

section Model

variable (env : RelayEnv)

/-- What is written: the tables that the payload shares with the relay are as they are now. -/
def RelayFile.written (payload : RelayFile) (s : Relay) : RelayFile :=
  { payload with
    dhKeys := s.dhKeys
    prekeyBundles := s.prekeyBundles
    prekeyLookupAliases := s.prekeyLookupAliases
    witnesses := s.witnesses }

/-- `_save`, where the file exists and auto reload is off. -/
def Process.save (s : Process) : Process :=
  { s with
    dirty := true
    timer := match s.timer with
      | .idle => .armed
      | timer => timer }

/-- The first step of `_flush`. -/
def Process.buildPayload (now : ℚ) (s : Process) : Process :=
  if s.dirty then
    let relay := pruneStaleMetadata env now s.relay
    { s with relay, timer := .writing (filePayload env relay) }
  else { s with timer := .idle }

inductive ProcessAction where
  /-- An operation that changes the relay and saves. -/
  | change (operation : Relay → Relay)
  /-- The timer fires. -/
  | fire (now : ℚ)
  /-- The write of the flush, which may fail. -/
  | write (ok : Bool)

def processStep (s : Process) : ProcessAction → Process
  | .change operation => { s with relay := operation s.relay }.save
  | .fire now => match s.timer with
    | .armed => s.buildPayload env now
    | _ => s
  | .write ok => match s.timer with
    | .writing payload =>
      if ok then
        { s with file := payload.written s.relay, dirty := false, timer := .idle,
                 lastWrite := some true }
      else { s with timer := .idle, lastWrite := some false }
    | _ => s

/-- The payload has the copied tables of the relay. -/
def CopiesOf (payload : RelayFile) (s : Relay) : Prop :=
  payload.blocks = s.blocks ∧ payload.nonceCaches = s.nonceCaches ∧
    payload.mailboxBindings = (filePayload env s).mailboxBindings ∧
    payload.mailboxes = (filePayload env s).mailboxes

/-- A change between the two steps of a flush leaves the copied tables as they are. -/
def KeepsPayload (s : Process) : ProcessAction → Prop
  | .change operation => ∀ payload, s.timer = .writing payload →
      CopiesOf env payload s.relay → CopiesOf env payload (operation s.relay)
  | _ => True

/-- Where no timer is alive and the last write succeeded, the file restores what the relay holds. -/
def Saved (s : Process) : Prop :=
  s.timer = .idle → s.lastWrite = some true →
    ∀ now, load env now s.file = load env now (filePayload env s.relay)

end Model

section

variable {env : RelayEnv} {relay₀ : Relay} {file₀ : RelayFile} {s : Process}

theorem written_of_copies {payload : RelayFile} {r : Relay} (h : CopiesOf env payload r) :
    payload.written r = filePayload env r := by
  obtain ⟨hblocks, hnonces, hbindings, hmailboxes⟩ := h
  unfold RelayFile.written
  rw [hblocks, hnonces, hbindings, hmailboxes]
  rfl

theorem copiesOf_filePayload {r : Relay} : CopiesOf env (filePayload env r) r :=
  ⟨rfl, rfl, rfl, rfl⟩

/-- What holds of a process that was started on a relay and its file. -/
structure Consistent (env : RelayEnv) (relay₀ : Relay) (file₀ : RelayFile) (s : Process) : Prop where
  armed : s.timer = .armed → s.dirty = true
  writing : ∀ payload, s.timer = .writing payload → CopiesOf env payload s.relay
  saved : s.timer = .idle → s.lastWrite = some true → s.file = filePayload env s.relay
  untouched : s.timer = .idle → s.lastWrite = none → s.relay = relay₀ ∧ s.file = file₀

theorem Consistent.start {dirty : Bool} :
    Consistent env relay₀ file₀ { relay := relay₀, file := file₀, dirty } where
  armed h := by cases h
  writing payload h := by cases h
  saved _ h := by cases h
  untouched _ _ := ⟨rfl, rfl⟩

theorem Consistent.step (h : Consistent env relay₀ file₀ s) {a : ProcessAction}
    (hkeeps : KeepsPayload env s a) : Consistent env relay₀ file₀ (processStep env s a) := by
  cases a with
  | change operation =>
    cases htimer : s.timer with
    | idle =>
      constructor <;> simp [processStep, Process.save, htimer]
    | armed =>
      constructor <;> simp [processStep, Process.save, htimer]
    | writing payload =>
      have hcopies := hkeeps payload htimer (h.writing payload htimer)
      constructor <;> simp [processStep, Process.save, htimer, hcopies]
  | fire now =>
    cases htimer : s.timer with
    | armed =>
      have hdirty := h.armed htimer
      simp only [processStep, htimer, Process.buildPayload, hdirty, if_true]
      constructor
      · intro hidle
        cases hidle
      · intro payload hpayload
        cases hpayload
        exact copiesOf_filePayload
      · intro hidle
        cases hidle
      · intro hidle
        cases hidle
    | idle | writing =>
      simp only [processStep, htimer]
      exact h
  | write ok =>
    cases htimer : s.timer with
    | writing payload =>
      cases ok with
      | true =>
        simp only [processStep, htimer, if_true]
        constructor
        · intro hidle
          cases hidle
        · intro payload' hpayload
          cases hpayload
        · intro _ _
          exact written_of_copies (h.writing payload htimer)
        · intro _ hnone
          cases hnone
      | false =>
        simp only [processStep, htimer, Bool.false_eq_true, if_false]
        constructor <;> simp
    | idle | armed =>
      simp only [processStep, htimer]
      exact h

end

/-- When no timer is alive and the last write did not fail, the file holds what the relay holds. -/
theorem processStep_saved (env : RelayEnv) (relay : Relay) (file : RelayFile) (dirty : Bool)
    (actions : List ProcessAction)
    (hrun : Along (processStep env) (KeepsPayload env) { relay, file, dirty } actions) :
    let s := run (processStep env) { relay, file, dirty } actions
    Saved env s ∧ (s.timer = .idle → s.lastWrite = none → s.relay = relay ∧ s.file = file) := by
  have h : Consistent env relay file (run (processStep env) { relay, file, dirty } actions) :=
    invariant (fun _ _ hs hkeeps => hs.step hkeeps) Consistent.start hrun
  refine ⟨fun hidle hwrite now => ?_, h.untouched⟩
  rw [h.saved hidle hwrite]

/-- The relay with one more reference blocked by an agent. -/
def blockRef (agentId ref : String) (s : Relay) : Relay :=
  { s with blocks := Function.update s.blocks agentId (insert ref (s.blocks agentId)) }

theorem processStep_saved_sample :
    Saved plainRelayEnv (run (processStep plainRelayEnv)
      { relay := {}, file := filePayload plainRelayEnv {} }
      [.change (blockRef "ana" "ref:bob"), .fire 100, .write true]) := by
  apply (processStep_saved plainRelayEnv {} (filePayload plainRelayEnv {}) false _ _).1
  refine ⟨?_, trivial, trivial, trivial⟩
  intro payload hpayload
  cases hpayload

/-- A block that comes between the two steps of a flush is not in the file. -/
theorem not_processStep_saved :
    ¬ ∀ (env : RelayEnv) (relay : Relay) (actions : List ProcessAction),
      Saved env (run (processStep env) { relay, file := filePayload env relay } actions) := by
  intro h
  have hsaved := h plainRelayEnv {} [.change (blockRef "ana" "ref:bob"), .fire 100,
    .change (blockRef "ana" "ref:eve"), .write true] rfl rfl 200
  have hblocks := congrArg (fun s => "ref:eve" ∈ s.blocks "ana") hsaved
  revert hblocks
  decide +kernel

end Vincent.Dm
