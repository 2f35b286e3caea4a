-- SUMMARY: The in-memory ledger (`Infonet`) and its tables.
import Mathlib.Data.Rat.Floor
import Mathlib.Logic.Function.Basic
import Mathlib.Tactic.NormNum
import Vincent.Mesh.Event

/-!
# The ledger

`Infonet` is the state of the ledger object: the hot chain, the tables derived
from it, and the metadata of the archived prefix. Tables are functions, with the
value that `dict.get` falls back to where a key is absent.

The running counters of `get_info` are in `Incremental`: no operation of the
ledger reads them.
-/

namespace Vincent.Mesh

open Vincent.Python Vincent.Check

def genesisHash : String := String.ofList (List.replicate 64 '0')

def maxChainMemory : Nat := 50000

def chainLockDepth : Nat := 6

def maxPayloadBytes : Nat := 4096

def replayFilterRotateS : ℚ := 3600

/-! ## Replay filter -/

/-- Two generations of a Bloom filter, as the lists of their set bits. -/
structure ReplayFilter where
  salt : Nat
  active : List Nat := []
  previous : List Nat := []
  lastRotate : ℚ

namespace ReplayFilter

/-- `ReplayFilter()`. -/
def new (call : Call) : ReplayFilter := { salt := call.salt, lastRotate := call.now }

def rotateIfNeeded (f : ReplayFilter) (now : ℚ) : ReplayFilter :=
  if now - f.lastRotate < replayFilterRotateS then f
  else { f with previous := f.active, active := [], lastRotate := now }

def add (env : Env) (f : ReplayFilter) (now : ℚ) (value : String) : ReplayFilter :=
  let f := f.rotateIfNeeded now
  { f with active := env.filterPositions f.salt value ++ f.active }

/-- `seen`, on a filter that has been rotated. -/
def seen (env : Env) (f : ReplayFilter) (value : String) : Bool :=
  (env.filterPositions f.salt value).all fun pos => f.active.contains pos || f.previous.contains pos

/-- A second rotation at the same time does nothing. -/
@[simp] theorem rotateIfNeeded_rotateIfNeeded (f : ReplayFilter) (now : ℚ) :
    (f.rotateIfNeeded now).rotateIfNeeded now = f.rotateIfNeeded now := by
  unfold rotateIfNeeded
  by_cases h : now - f.lastRotate < replayFilterRotateS
  · simp [h]
  · have hpos : (0 : ℚ) < replayFilterRotateS := by norm_num [replayFilterRotateS]
    simp [h, hpos]

/-- A new filter has seen nothing. -/
theorem not_seen_new {env : Env} {call : Call} {value : String} (now : ℚ)
    (h : env.filterPositions call.salt value ≠ []) :
    ((new call).rotateIfNeeded now).seen env value = false := by
  obtain ⟨pos, rest, hpos⟩ := List.exists_cons_of_ne_nil h
  unfold rotateIfNeeded new seen
  split <;> simp [hpos]

end ReplayFilter

/-! ## State -/

/-- An entry of the revocation table. -/
structure Revocation where
  publicKey : String
  publicKeyAlgo : PyVal
  revokedAt : Int
  graceUntil : Int
  reason : PyVal
  eventId : String
  nodeId : String

/-- The entry that `_apply_revocation` makes; an unhashable key raises, another one is never
found. -/
def revocationInfo (rt : Runtime) (e : ChainEvent) : Except String (Option Revocation) := do
  let publicKey := (Dict.get e.payload "revoked_public_key").or (.str e.publicKey)
  if publicKey.truthy = false then return none
  let revokedAt ← safeInt rt ((Dict.get e.payload "revoked_at" (.int 0)).or (.int 0)) 0
  let graceUntil ← safeInt rt
    ((Dict.get e.payload "grace_until" (.int revokedAt)).or (.int revokedAt)) revokedAt
  match publicKey with
  | .str key =>
    return some {
      publicKey := key
      publicKeyAlgo := (Dict.get e.payload "revoked_public_key_algo").or (.str e.publicKeyAlgo)
      revokedAt := revokedAt
      graceUntil := graceUntil
      reason := Dict.get e.payload "reason" (.str "")
      eventId := e.eventId
      nodeId := e.nodeId }
  | .list _ | .dict _ => .error "TypeError"
  | _ => return none

/-- An entry replaces one that is not newer. -/
def recordRevocation (table : String → Option Revocation) (info : Revocation) :
    String → Option Revocation :=
  if (table info.publicKey).all fun existing => existing.revokedAt ≤ info.revokedAt then
    Function.update table info.publicKey (some info)
  else table

/-- An archived prefix of the chain: its metadata, and the events of its file. -/
structure ColdSegment where
  count : Nat
  firstId : String
  lastId : String
  events : List ChainEvent

/-- The ledger object. -/
structure Infonet where
  events : List ChainEvent := []
  headHash : String := genesisHash
  nodeSequences : String → Int := fun _ => 0
  sequenceDomains : String → Int := fun _ => 0
  eventIndex : String → Option Nat := fun _ => none
  publicKeyBindings : String → String := fun _ => ""
  revocations : String → Option Revocation := fun _ => none
  coldSegments : List ColdSegment := []
  replayFilter : ReplayFilter
  lastValidatedIndex : Nat := 0
  merkleLevelsCache : Option (List (List String)) := none
  merkleLevelsForEventCount : Int := -1
  dirty : Bool := false

/-- A sequence counter: one of a node's public events, or one of a domain. -/
inductive SequenceSlot where
  | node (key : String)
  | domain (key : String)
deriving DecidableEq

def sequenceTableForEvent (rt : Runtime) (eventType nodeId : String) : SequenceSlot :=
  let normalized := rt.lower (strip eventType)
  if normalized = "gate_message" then .domain (nodeId ++ "|gate_message")
  else if normalized = "dm_message" then .domain (nodeId ++ "|dm_message")
  else .node nodeId

namespace Infonet

/-- The object before anything is loaded into it. -/
def empty (call : Call) : Infonet := { replayFilter := .new call }

/-- `table.get(key, 0)`. -/
def lastSequence (net : Infonet) : SequenceSlot → Int
  | .node key => net.nodeSequences key
  | .domain key => net.sequenceDomains key

/-- `table[key] = sequence`. -/
def setSequence (net : Infonet) (slot : SequenceSlot) (sequence : Int) : Infonet :=
  match slot with
  | .node key => { net with nodeSequences := Function.update net.nodeSequences key sequence }
  | .domain key => { net with sequenceDomains := Function.update net.sequenceDomains key sequence }

theorem lastSequence_setSequence (net : Infonet) (slot slot' : SequenceSlot) (n : Int) :
    (net.setSequence slot n).lastSequence slot' =
      if slot' = slot then n else net.lastSequence slot' := by
  cases slot <;> cases slot' <;> simp [setSequence, lastSequence, Function.update_apply]

section
variable (net : Infonet) (slot : SequenceSlot) (n : Int)

@[simp] theorem setSequence_events : (net.setSequence slot n).events = net.events := by
  cases slot <;> rfl

@[simp] theorem setSequence_headHash : (net.setSequence slot n).headHash = net.headHash := by
  cases slot <;> rfl

@[simp] theorem setSequence_eventIndex : (net.setSequence slot n).eventIndex = net.eventIndex := by
  cases slot <;> rfl

@[simp] theorem setSequence_publicKeyBindings :
    (net.setSequence slot n).publicKeyBindings = net.publicKeyBindings := by
  cases slot <;> rfl

@[simp] theorem setSequence_revocations :
    (net.setSequence slot n).revocations = net.revocations := by
  cases slot <;> rfl

@[simp] theorem setSequence_coldSegments :
    (net.setSequence slot n).coldSegments = net.coldSegments := by
  cases slot <;> rfl

@[simp] theorem setSequence_replayFilter :
    (net.setSequence slot n).replayFilter = net.replayFilter := by
  cases slot <;> rfl

end

/-! ## Keys -/

/-- `public_key_bindings[key] = node`. -/
def setBinding (net : Infonet) (publicKey nodeId : String) : Infonet :=
  { net with publicKeyBindings := Function.update net.publicKeyBindings publicKey nodeId }

def bindPublicKey (net : Infonet) (publicKey nodeId : String) : Except String Infonet :=
  if publicKey = "" ∨ nodeId = "" then .error "Missing public key binding fields"
  else
    let existing := net.publicKeyBindings publicKey
    if existing ≠ "" ∧ existing ≠ nodeId then
      .error s!"public key already bound to {existing}"
    else .ok (net.setBinding publicKey nodeId)

def applyRevocation (rt : Runtime) (net : Infonet) (e : ChainEvent) : Except String Infonet := do
  match ← revocationInfo rt e with
  | none => return net
  | some info => return { net with revocations := recordRevocation net.revocations info }

/-- `_revocation_status(public_key)[0]`. -/
def revoked (net : Infonet) (now : ℚ) (publicKey : String) : Bool :=
  (net.revocations publicKey).any fun info => info.graceUntil < now

/-! ## Memory cap -/

/-- The position of each event, where a later one wins. -/
def indexOf (events : List ChainEvent) : String → Option Nat :=
  (events.zipIdx).foldl
    (fun index p => if p.1.eventId = "" then index
      else Function.update index p.1.eventId (some p.2)) (fun _ => none)

def invalidateMerkleCache (net : Infonet) : Infonet :=
  { net with merkleLevelsCache := none, merkleLevelsForEventCount := -1 }

/-- `_enforce_memory_cap`: the oldest events move to a cold segment. -/
def enforceMemoryCap (net : Infonet) : Infonet :=
  if net.events.length ≤ maxChainMemory then net
  else
    let overflow := net.events.length - maxChainMemory
    let cold := net.events.take overflow
    let hot := net.events.drop overflow
    invalidateMerkleCache { net with
      coldSegments := net.coldSegments ++ [{
        count := cold.length
        firstId := (cold.head?.map (·.eventId)).getD ""
        lastId := (cold.getLast?.map (·.eventId)).getD ""
        events := cold }]
      events := hot
      eventIndex := indexOf hot
      dirty := true }

/-- `_save`, which leaves the write to a timer. -/
def save (net : Infonet) : Infonet := { net.enforceMemoryCap with dirty := true }

/-- The archived events followed by the hot ones. -/
def history (net : Infonet) : List ChainEvent :=
  net.coldSegments.flatMap (·.events) ++ net.events

/-- The archived events alone. -/
def archived (net : Infonet) : List ChainEvent := net.coldSegments.flatMap (·.events)

theorem history_eq (net : Infonet) : net.history = net.archived ++ net.events := rfl

@[simp] theorem history_enforceMemoryCap (net : Infonet) :
    net.enforceMemoryCap.history = net.history := by
  unfold enforceMemoryCap
  split
  · rfl
  · simp [history, invalidateMerkleCache]

@[simp] theorem history_save (net : Infonet) : net.save.history = net.history :=
  history_enforceMemoryCap net

theorem save_of_le {net : Infonet} (h : net.events.length ≤ maxChainMemory) :
    net.save = { net with dirty := true } := by
  simp [save, enforceMemoryCap, h]

/-- `validate_and_set_sequence`, which signed writes outside the ledger use. -/
def validateAndSetSequence (rt : Runtime) (net : Infonet) (nodeId : String) (sequence : Int)
    (domain : String := "") : Infonet × Except String Unit :=
  let normalized := rt.lower (strip domain)
  let slot := if normalized = "" then SequenceSlot.node nodeId
    else .domain (nodeId ++ "|" ++ normalized)
  let last := net.lastSequence slot
  if sequence ≤ 0 then (net, .error "Sequence must be a positive integer")
  else if sequence ≤ last then
    (net, .error s!"Replay detected: sequence {sequence} <= last {last}")
  else ((net.setSequence slot sequence).save, .ok ())

section
variable (net : Infonet)

theorem enforceMemoryCap_tables :
    net.enforceMemoryCap.headHash = net.headHash ∧
    net.enforceMemoryCap.nodeSequences = net.nodeSequences ∧
    net.enforceMemoryCap.sequenceDomains = net.sequenceDomains ∧
    net.enforceMemoryCap.publicKeyBindings = net.publicKeyBindings ∧
    net.enforceMemoryCap.revocations = net.revocations ∧
    net.enforceMemoryCap.replayFilter = net.replayFilter := by
  unfold enforceMemoryCap
  split <;> simp [invalidateMerkleCache]

@[simp] theorem save_headHash : net.save.headHash = net.headHash :=
  net.enforceMemoryCap_tables.1

@[simp] theorem save_nodeSequences : net.save.nodeSequences = net.nodeSequences :=
  net.enforceMemoryCap_tables.2.1

@[simp] theorem save_sequenceDomains : net.save.sequenceDomains = net.sequenceDomains :=
  net.enforceMemoryCap_tables.2.2.1

@[simp] theorem save_publicKeyBindings : net.save.publicKeyBindings = net.publicKeyBindings :=
  net.enforceMemoryCap_tables.2.2.2.1

@[simp] theorem save_revocations : net.save.revocations = net.revocations :=
  net.enforceMemoryCap_tables.2.2.2.2.1

@[simp] theorem save_replayFilter : net.save.replayFilter = net.replayFilter :=
  net.enforceMemoryCap_tables.2.2.2.2.2

end

end Infonet

/-! ## The DM spool -/

def dmSpoolTargetKey (rt : Runtime) (payload : Dict) : String × String :=
  let deliveryClass := rt.lower (strip (Dict.text rt payload "delivery_class"))
  if deliveryClass = "shared" then
    (deliveryClass, strip (Dict.text rt payload "recipient_token"))
  else (deliveryClass, strip (Dict.text rt payload "recipient_id"))

/-- The time of a spooled message, as `float` reads it. -/
def dmSpoolTime (rt : Runtime) (e : ChainEvent) : Option PyFloat :=
  toFloat rt ((Dict.get e.payload "timestamp" e.timestamp).or (.int 0))

/-- The message is older than the spool keeps it. -/
def dmSpoolExpired (env : Env) (now : ℚ) : PyFloat → Bool
  | .finite q => 0 < q && env.dmHashchainSpoolTtlS < now - q
  | _ => false

/-- The loop of `_dm_spool_active_counts`, newest events first, until both limits are reached. -/
def dmSpoolActiveCountsLoop (env : Env) (now : ℚ) (target : String × String) (senderId : String) :
    List ChainEvent → Nat → Nat → Except String (Nat × Nat)
  | [], total, sent => .ok (total, sent)
  | e :: rest, total, sent =>
    if e.eventType ≠ "dm_message" ∨ dmSpoolTargetKey env.rt e.payload ≠ target then
      dmSpoolActiveCountsLoop env now target senderId rest total sent
    else
      match dmSpoolTime env.rt e with
      | none => .error "ValueError"
      | some time =>
        if dmSpoolExpired env now time then
          dmSpoolActiveCountsLoop env now target senderId rest total sent
        else
          let total := total + 1
          let sent := if senderId ≠ "" ∧ strip e.nodeId = senderId then sent + 1 else sent
          if env.dmHashchainSpoolLimit ≤ total ∧
              (senderId = "" ∨ env.dmHashchainSpoolSenderLimit ≤ sent) then .ok (total, sent)
          else dmSpoolActiveCountsLoop env now target senderId rest total sent

def Infonet.dmSpoolActiveCounts (env : Env) (net : Infonet) (now : ℚ) (payload : Dict)
    (senderId : String) : Except String (Nat × Nat) :=
  let target := dmSpoolTargetKey env.rt payload
  if target.2 = "" then .ok (0, 0)
  else dmSpoolActiveCountsLoop env now target (strip senderId) net.events.reverse 0 0

/-- The spool has room for one more message of the sender. -/
def Infonet.checkDmSpool (env : Env) (net : Infonet) (now : ℚ) (payload : Dict)
    (senderId : String) : Verdict := do
  let (total, sent) ← orFail (net.dmSpoolActiveCounts env now payload senderId) .raised
  require (sent < env.dmHashchainSpoolSenderLimit)
    (.invalid "DM hashchain sender spool full for recipient")
  require (total < env.dmHashchainSpoolLimit) (.invalid "DM hashchain spool full for recipient")

/-- The event is in the spool of the mailbox `target`. -/
def inDmSpool (env : Env) (target : String × String) (e : ChainEvent) : Bool :=
  e.eventType = "dm_message" ∧ dmSpoolTargetKey env.rt e.payload = target

/-- The event takes a place in the spool of the mailbox `target`. -/
def liveInDmSpool (env : Env) (now : ℚ) (target : String × String) (e : ChainEvent) : Bool :=
  inDmSpool env target e && (dmSpoolTime env.rt e).any fun time => !dmSpoolExpired env now time

/-- The sender owns a place in the spool of the mailbox `target`. -/
def sentToDmSpool (env : Env) (now : ℚ) (target : String × String) (senderId : String)
    (e : ChainEvent) : Bool :=
  liveInDmSpool env now target e && (senderId ≠ "" ∧ strip e.nodeId = senderId)

/-- What the spool check means: every spooled message has a readable time, and
    neither limit is reached. -/
structure DmSpoolRoom (env : Env) (now : ℚ) (target : String × String) (senderId : String)
    (events : List ChainEvent) : Prop where
  readable : ∀ e ∈ events, inDmSpool env target e → (dmSpoolTime env.rt e).isSome
  sender : events.countP (sentToDmSpool env now target senderId) < env.dmHashchainSpoolSenderLimit
  total : events.countP (liveInDmSpool env now target) < env.dmHashchainSpoolLimit

theorem dmSpoolExpired_mono {env : Env} {now later : ℚ} (h : now ≤ later) {time : PyFloat}
    (hexp : dmSpoolExpired env now time) : dmSpoolExpired env later time := by
  cases time with
  | finite q =>
    simp only [dmSpoolExpired, Bool.and_eq_true, decide_eq_true_eq] at hexp ⊢
    exact ⟨hexp.1, lt_of_lt_of_le hexp.2 (sub_le_sub_right h q)⟩
  | _ => simp [dmSpoolExpired] at hexp

theorem liveInDmSpool_antitone {env : Env} {now later : ℚ} (h : now ≤ later)
    {target : String × String} {e : ChainEvent} (hlive : liveInDmSpool env later target e) :
    liveInDmSpool env now target e := by
  unfold liveInDmSpool at hlive ⊢
  cases htime : dmSpoolTime env.rt e with
  | none => simp [htime] at hlive
  | some time =>
    simp only [htime, Option.any_some, Bool.and_eq_true, Bool.not_eq_true'] at hlive ⊢
    refine ⟨hlive.1, ?_⟩
    by_contra hexp
    have hlater : dmSpoolExpired env later time = true :=
      dmSpoolExpired_mono h (by simpa using hexp)
    simp [hlive.2] at hlater

/-- Room in the spool stays as time goes by. -/
theorem DmSpoolRoom.mono {env : Env} {now later : ℚ} (h : now ≤ later)
    {target : String × String} {senderId : String} {events : List ChainEvent}
    (hroom : DmSpoolRoom env now target senderId events) :
    DmSpoolRoom env later target senderId events where
  readable := hroom.readable
  sender := by
    refine lt_of_le_of_lt (List.countP_mono_left fun e _ hsent => ?_) hroom.sender
    simp only [sentToDmSpool, Bool.and_eq_true] at hsent ⊢
    exact ⟨liveInDmSpool_antitone h hsent.1, hsent.2⟩
  total := lt_of_le_of_lt (List.countP_mono_left fun _ _ hlive => liveInDmSpool_antitone h hlive)
    hroom.total

/-- The loop stays below both limits exactly when the spool has room, although it stops early. -/
theorem dmSpoolActiveCountsLoop_room (env : Env) (now : ℚ) (target : String × String)
    (senderId : String) (events : List ChainEvent) (total sent : Nat) :
    (∃ total' sent', dmSpoolActiveCountsLoop env now target senderId events total sent =
        .ok (total', sent') ∧ sent' < env.dmHashchainSpoolSenderLimit ∧
        total' < env.dmHashchainSpoolLimit) ↔
      (∀ e ∈ events, inDmSpool env target e → (dmSpoolTime env.rt e).isSome) ∧
      sent + events.countP (sentToDmSpool env now target senderId) <
        env.dmHashchainSpoolSenderLimit ∧
      total + events.countP (liveInDmSpool env now target) < env.dmHashchainSpoolLimit := by
  induction events generalizing total sent with
  | nil => simp [dmSpoolActiveCountsLoop]
  | cons e rest ih =>
    by_cases hin : inDmSpool env target e
    · have hmatch : ¬ (e.eventType ≠ "dm_message" ∨ dmSpoolTargetKey env.rt e.payload ≠ target) := by
        simpa [inDmSpool] using hin
      rw [dmSpoolActiveCountsLoop, if_neg hmatch]
      cases htime : dmSpoolTime env.rt e with
      | none => simp [htime, hin]
      | some time =>
        by_cases hexp : dmSpoolExpired env now time
        · have hdead : liveInDmSpool env now target e = false := by
            simp [liveInDmSpool, htime, hexp]
          simp only [hexp, if_true]
          rw [ih]
          simp [htime, hdead, sentToDmSpool]
        · have hlive : liveInDmSpool env now target e = true := by
            simp [liveInDmSpool, htime, hexp, hin]
          have hsent : sentToDmSpool env now target senderId e =
              decide (senderId ≠ "" ∧ strip e.nodeId = senderId) := by
            simp [sentToDmSpool, hlive]
          simp only [hexp, Bool.false_eq_true, if_false, List.countP_cons, hlive, hsent, if_true,
            decide_eq_true_eq, List.mem_cons, forall_eq_or_imp, htime, Option.isSome_some,
            implies_true, true_and]
          have hcount : ∀ n : Nat, sent + (n + if senderId ≠ "" ∧ strip e.nodeId = senderId then 1
              else 0) = (if senderId ≠ "" ∧ strip e.nodeId = senderId then sent + 1 else sent) + n := by
            intro n
            split <;> omega
          rw [hcount]
          generalize (if senderId ≠ "" ∧ strip e.nodeId = senderId then sent + 1 else sent) = sent'
          by_cases hstop : env.dmHashchainSpoolLimit ≤ total + 1 ∧
              (senderId = "" ∨ env.dmHashchainSpoolSenderLimit ≤ sent')
          · -- the loop stops here, with the limit reached
            rw [if_pos hstop]
            constructor
            · rintro ⟨_, _, heq, _, hlt⟩
              simp only [Except.ok.injEq, Prod.mk.injEq] at heq
              omega
            · rintro ⟨_, _, hlt⟩
              omega
          · rw [if_neg hstop, ih]
            constructor
            · rintro ⟨hall, hs, ht⟩
              exact ⟨hall, hs, by omega⟩
            · rintro ⟨hall, hs, ht⟩
              exact ⟨hall, hs, by omega⟩
    · have hmatch : e.eventType ≠ "dm_message" ∨ dmSpoolTargetKey env.rt e.payload ≠ target := by
        by_contra hno
        exact hin (by simpa [inDmSpool] using hno)
      have hdead : liveInDmSpool env now target e = false := by simp [liveInDmSpool, hin]
      rw [dmSpoolActiveCountsLoop, if_pos hmatch, ih]
      simp [hin, hdead, sentToDmSpool]

/-- The spool check passes when the mailbox is unnamed, or has room. -/
theorem Infonet.checkDmSpool_eq_ok {env : Env} {net : Infonet} {now : ℚ} {payload : Dict}
    {senderId : String} :
    net.checkDmSpool env now payload senderId = .ok () ↔
      (dmSpoolTargetKey env.rt payload).2 = "" ∨
      DmSpoolRoom env now (dmSpoolTargetKey env.rt payload) (strip senderId) net.events := by
  have hlimit := env.spoolLimit_pos
  have hsender := env.spoolSenderLimit_pos
  unfold checkDmSpool dmSpoolActiveCounts
  by_cases hkey : (dmSpoolTargetKey env.rt payload).2 = ""
  · have hs : 0 < env.dmHashchainSpoolSenderLimit := hsender
    have hl : 0 < env.dmHashchainSpoolLimit := hlimit
    simp [hkey, hs, hl]
  · have hroom := dmSpoolActiveCountsLoop_room env now (dmSpoolTargetKey env.rt payload)
      (strip senderId) net.events.reverse 0 0
    simp only [hkey, if_false, bind_eq_ok, orFail_eq_ok, require_eq_ok, Prod.exists, false_or]
    simp only [List.mem_reverse, zero_add, List.countP_reverse] at hroom
    constructor
    · rintro ⟨total, sent, heq, _, hs, ht⟩
      obtain ⟨hread, hsent, htotal⟩ := hroom.mp ⟨total, sent, heq, hs, ht⟩
      exact ⟨hread, hsent, htotal⟩
    · rintro ⟨hread, hsent, htotal⟩
      obtain ⟨total, sent, heq, hs, ht⟩ := hroom.mpr ⟨hread, hsent, htotal⟩
      exact ⟨total, sent, heq, (), hs, ht⟩

end Vincent.Mesh
