-- SUMMARY: The cached revocation check of signed writes, over interleaved calls.
import Vincent.General.Run
import Vincent.Mesh.Ledger

/-!
# Revocations at the write gate

A verdict on a key is cached, and a refresh reads the ledger again, one at a time.

A call goes through its stages in steps of its own, so that other calls and changes of
the ledger can come between them.
-/

namespace Vincent.Signed

open Vincent.Python Vincent.Mesh Vincent.Run

/-- `_REVOCATION_REFRESH_FAIL_FAST_WINDOW_S`. -/
def refreshFailFastWindow : ℚ := 5

def precheckUnavailableDetail : String := "Signed event integrity preflight unavailable"

/-- The interpreter and the settings. -/
structure RevocationEnv where
  rt : Runtime
  /-- `signed_revocation_cache_ttl_s()`. -/
  ttl : Nat
  /-- `signed_revocation_cache_enforce()`. -/
  enforce : Bool

/-! ## The ledger -/

/-- The loop of `_rebuild_revocations`: the table that it leaves, and the exception that ended it. -/
def rebuildLoop (rt : Runtime) (table : String → Option Revocation) :
    List ChainEvent → (String → Option Revocation) × Option String
  | [] => (table, none)
  | e :: events =>
    if e.eventType = "key_revoke" then
      match revocationInfo rt e with
      | .error exn => (table, some exn)
      | .ok none => rebuildLoop rt table events
      | .ok (some info) => rebuildLoop rt (recordRevocation table info) events
    else rebuildLoop rt table events

def rebuildRevocations (rt : Runtime) (net : Infonet) : Infonet × Option String :=
  let rebuilt := rebuildLoop rt (fun _ => none) net.events
  ({ net with revocations := rebuilt.1 }, rebuilt.2)

/-! ## The cache -/

/-- An entry of `_REVOCATION_TTL_CACHE`. -/
structure CachedVerdict where
  checkedAt : ℚ
  revoked : Bool
  info : Option Revocation

/-- `ttl_s <= 0 or (now - checked_at) < float(ttl_s)`. -/
def CachedVerdict.usable (env : RevocationEnv) (now : ℚ) (cached : CachedVerdict) : Bool :=
  env.ttl = 0 || now - cached.checkedAt < env.ttl

/-- The fields of a signed event that the preflight reads. -/
structure SignedEvent where
  eventType : String
  nodeId : String
  sequence : Int
  publicKey : String
  publicKeyAlgo : String
  signature : String
  protocolVersion : String

/-- `str(public_key or "").strip()`. -/
def SignedEvent.key (e : SignedEvent) : String := strip e.publicKey

/-- Where a call of the preflight stands. -/
inductive Stage where
  /-- It has found no usable verdict in the cache. -/
  | looked (now : ℚ)
  /-- It is the refresh that is in flight. -/
  | entered
  /-- It has read the ledger. -/
  | computed (revoked : Bool) (info : Option Revocation)

def Stage.refreshing : Stage → Bool
  | .looked _ => false
  | .entered | .computed _ _ => true

structure PreflightCall where
  event : SignedEvent
  /-- The time at which the call started. -/
  start : ℚ
  stage : Stage

/-- A call that has ended. -/
structure PreflightResult where
  event : SignedEvent
  start : ℚ
  result : Bool × String

/-- The ledger, `_REVOCATION_TTL_CACHE`, `_REVOCATION_REFRESH_STATE`, the calls and their
results. -/
structure WriteGate where
  clock : ℚ
  ledger : Infonet
  cache : String → Option CachedVerdict := fun _ => none
  inFlight : Bool := false
  /-- Zero when no refresh has failed since the last one that succeeded. -/
  lastFailureAt : ℚ := 0
  lastError : String := ""
  calls : List PreflightCall := []
  results : List PreflightResult := []

variable (env : RevocationEnv)

/-- How the preflight ends on a verdict. -/
def SignedEvent.verdict (e : SignedEvent) (revoked : Bool) : Bool × String :=
  if revoked = true ∧ e.eventType ≠ "key_revoke" then (false, "public key is revoked")
  else (true, "ok")

namespace WriteGate

variable (s : WriteGate)

/-- A call that is not among the running ones ends. -/
def finish (e : SignedEvent) (start : ℚ) (result : Bool × String) : WriteGate :=
  { s with results := s.results ++ [⟨e, start, result⟩] }

/-- A running call ends. -/
def leave (i : Nat) (call : PreflightCall) (result : Bool × String) : WriteGate :=
  { s with calls := s.calls.eraseIdx i }.finish call.event call.start result

/-- A running call goes on. -/
def advance (i : Nat) (call : PreflightCall) (stage : Stage) : WriteGate :=
  { s with calls := s.calls.set i { call with stage := stage } }

/-- `preflight_signed_event_integrity` up to the first look into the cache, with a result if that
has one. -/
def precheck (now : ℚ) (e : SignedEvent) : Option (Bool × String) :=
  if e.protocolVersion = "" ∨ e.signature = "" ∨ e.publicKey = "" ∨ e.publicKeyAlgo = "" then
    some (false, "Missing signature or public key")
  else if e.sequence ≤ 0 then some (false, "Missing or invalid sequence")
  else if e.sequence ≤ s.ledger.nodeSequences e.nodeId then
    some (false, s!"Replay detected: sequence {e.sequence} <= last " ++
      s!"{s.ledger.nodeSequences e.nodeId}")
  else if s.ledger.publicKeyBindings e.publicKey ≠ "" ∧
      s.ledger.publicKeyBindings e.publicKey ≠ e.nodeId then
    some (false, s!"public key already bound to {s.ledger.publicKeyBindings e.publicKey}")
  else if e.key = "" then some (e.verdict false)
  else ((s.cache e.key).filter (CachedVerdict.usable env now)).map fun cached =>
    e.verdict cached.revoked

/-- A call starts. -/
def look (now : ℚ) (e : SignedEvent) : WriteGate :=
  match s.precheck env now e with
  | some result => { s with clock := now }.finish e now result
  | none => { s with clock := now, calls := s.calls ++ [⟨e, now, .looked now⟩] }

/-- The call asks to be the refresh that is in flight. -/
def enter (i : Nat) (call : PreflightCall) (now : ℚ) : WriteGate :=
  if env.enforce = true then
    if s.inFlight = true then s.leave i call (false, precheckUnavailableDetail)
    else if 0 < s.lastFailureAt ∧ now - s.lastFailureAt < refreshFailFastWindow then
      s.leave i call (false, precheckUnavailableDetail)
    else { s with inFlight := true }.advance i call .entered
  else s.advance i call .entered

/-- The refresh looks again, and otherwise reads the ledger. -/
def compute (i : Nat) (call : PreflightCall) (now : ℚ) : WriteGate :=
  let refreshed := if env.enforce = true then s.cache call.event.key else none
  match refreshed.filter (CachedVerdict.usable env now) with
  | some cached =>
    { s with inFlight := false }.leave i call (call.event.verdict cached.revoked)
  | none =>
    let (ledger, raised) := rebuildRevocations env.rt s.ledger
    let s := { s with ledger := ledger }
    match raised with
    | some exn =>
      { s with inFlight := false, lastFailureAt := now, lastError := exn }.leave i call
        (if env.enforce = true then (false, precheckUnavailableDetail) else call.event.verdict false)
    | none =>
      s.advance i call
        (.computed (ledger.revoked now call.event.key) (ledger.revocations call.event.key))

/-- The refresh stores its verdict, under the time at which it does so. -/
def store (i : Nat) (call : PreflightCall) (now : ℚ) (revoked : Bool)
    (info : Option Revocation) : WriteGate :=
  { s with
    cache := Function.update s.cache call.event.key (some ⟨now, revoked, info⟩)
    inFlight := false
    lastFailureAt := 0
    lastError := "" }.leave i call (call.event.verdict revoked)

end WriteGate

inductive GateStep where
  /-- The ledger changes, in any way. -/
  | ledger (now : ℚ) (net : Infonet)
  /-- A call of the preflight starts. -/
  | check (now : ℚ) (e : SignedEvent)
  /-- A running call goes one stage further. -/
  | resume (now : ℚ) (i : Nat)

def gateStep (s : WriteGate) : GateStep → WriteGate
  | .ledger now net => { s with clock := now, ledger := net }
  | .check now e => s.look env now e
  | .resume now i =>
    let s := { s with clock := now }
    match s.calls[i]? with
    | none => s
    | some call =>
      match call.stage with
      | .looked looked => s.enter env i call looked
      | .entered => s.compute env i call now
      | .computed revoked info => s.store i call now revoked info

def GateStep.now : GateStep → ℚ
  | .ledger now _ | .check now _ | .resume now _ => now

/-- The times do not decrease. -/
def Timely (s : WriteGate) (a : GateStep) : Prop := s.clock ≤ a.now

/-- From `t0` on the ledger calls the key revoked. -/
def RevokedSince (key : String) (t0 : ℚ) (s : WriteGate) : Prop :=
  t0 ≤ s.clock → s.ledger.revoked s.clock key = true

/-- What has been read is what the ledger says. -/
def Stage.Current (status : Bool) : Stage → Prop
  | .computed revoked _ => revoked = status
  | _ => True

/-- A verdict is stored while it is still what the ledger says. -/
def StoresCurrent (s : WriteGate) : GateStep → Prop
  | .resume now i => ∀ call ∈ s.calls[i]?,
      call.stage.Current (s.ledger.revoked now call.event.key)
  | _ => True

/-- Writes of the key later than the TTL after `t0` are refused, and a marked refresh runs. -/
structure ReachesGate (key : String) (t0 : ℚ) (s : WriteGate) : Prop where
  refused : ∀ r ∈ s.results, r.event.publicKey = key → r.event.eventType ≠ "key_revoke" →
    t0 + env.ttl < r.start → r.result.1 = false
  settled : s.calls = [] → s.inFlight = false

/-! ## The refresh in flight -/

variable {env}

/-- How many calls are the refresh that is in flight. -/
def refreshes (calls : List PreflightCall) : Nat :=
  calls.countP fun call => call.stage.refreshing

/-- The flag is set while a refresh runs, and at most one does. -/
def Flight (s : WriteGate) : Prop := refreshes s.calls = if s.inFlight = true then 1 else 0

theorem refreshes_eraseIdx {calls : List PreflightCall} {i : Nat} {call : PreflightCall}
    (h : calls[i]? = some call) :
    refreshes (calls.eraseIdx i) + (if call.stage.refreshing = true then 1 else 0) =
      refreshes calls := by
  obtain ⟨hi, rfl⟩ := List.getElem?_eq_some_iff.mp h
  have hperm := (List.getElem_cons_eraseIdx_perm hi).countP_eq fun c => c.stage.refreshing
  rw [List.countP_cons] at hperm
  exact hperm

theorem refreshes_set {calls : List PreflightCall} {i : Nat} {call : PreflightCall}
    (h : calls[i]? = some call) (call' : PreflightCall) :
    refreshes (calls.set i call') + (if call.stage.refreshing = true then 1 else 0) =
      refreshes calls + (if call'.stage.refreshing = true then 1 else 0) := by
  have herase := refreshes_eraseIdx h
  have hset : (calls.set i call')[i]? = some call' := by
    obtain ⟨hi, -⟩ := List.getElem?_eq_some_iff.mp h
    simp [hi]
  have hback := refreshes_eraseIdx hset
  rw [List.eraseIdx_set_eq] at hback
  omega

/-! ## A key that is revoked since `t0` -/

section
variable {key : String} {t0 : ℚ}

/-- The call comes more than the TTL after `t0`, for a write of the key that is no revocation. -/
def Late (env : RevocationEnv) (key : String) (t0 : ℚ) (e : SignedEvent) (start : ℚ) : Prop :=
  e.publicKey = key ∧ e.eventType ≠ "key_revoke" ∧ t0 + env.ttl < start

/-- What holds of the gate in a run in which the key is revoked since `t0`. -/
structure Watched (env : RevocationEnv) (key : String) (t0 : ℚ) (s : WriteGate) : Prop where
  checked_le : ∀ k c, s.cache k = some c → c.checkedAt ≤ s.clock
  cached : ∀ c, s.cache key = some c → c.revoked = false → c.checkedAt < t0
  start_le : ∀ call ∈ s.calls, call.start ≤ s.clock
  computed : ∀ call ∈ s.calls, ∀ revoked info, call.stage = .computed revoked info →
    Late env key t0 call.event call.start → revoked = true
  flight : Flight s
  refused : ∀ r ∈ s.results, Late env key t0 r.event r.start → r.result.1 = false

theorem SignedEvent.verdict_revoked {e : SignedEvent} (h : e.eventType ≠ "key_revoke") :
    (e.verdict true).1 = false := by
  simp [SignedEvent.verdict, h]

/-- A verdict that is still usable late was found after `t0`. -/
theorem Watched.usable {s : WriteGate} (hs : Watched env key t0 s) (httl : 1 ≤ env.ttl)
    {now start : ℚ} {e : SignedEvent} (hlate : Late env key t0 e start) (hnow : start ≤ now)
    {c : CachedVerdict} (hc : s.cache key = some c) (husable : c.usable env now = true) :
    c.revoked = true := by
  by_contra hrevoked
  have hold := hs.cached c hc (by simpa using hrevoked)
  have hstart := hlate.2.2
  simp only [CachedVerdict.usable, Bool.or_eq_true, decide_eq_true_eq] at husable
  rcases husable with hzero | hage
  · omega
  · linarith

/-- The key that the check looks up is the key itself, when there is no space around it. -/
theorem Late.key_eq {e : SignedEvent} {start : ℚ} (h : Late env key t0 e start)
    (hstrip : strip key = key) : e.key = key := by
  rw [SignedEvent.key, h.1, hstrip]

theorem Watched.precheck {s : WriteGate} (hs : Watched env key t0 s) (httl : 1 ≤ env.ttl)
    (hstrip : strip key = key) {now : ℚ} {e : SignedEvent} {result : Bool × String}
    (h : s.precheck env now e = some result) (hlate : Late env key t0 e now) :
    result.1 = false := by
  have hkey := hlate.key_eq hstrip
  unfold WriteGate.precheck at h
  split at h
  · exact Option.some.inj h ▸ rfl
  rename_i hfields
  split at h
  · exact Option.some.inj h ▸ rfl
  split at h
  · exact Option.some.inj h ▸ rfl
  split at h
  · exact Option.some.inj h ▸ rfl
  split at h
  · rename_i hempty
    have hpublic : e.publicKey = "" := by rw [hlate.1, ← hkey, hempty]
    exact absurd (.inr (.inr (.inl hpublic))) hfields
  · rw [hkey] at h
    obtain ⟨c, hc, rfl⟩ := Option.map_eq_some_iff.mp h
    obtain ⟨hc, husable⟩ := Option.filter_eq_some_iff.mp hc
    rw [hs.usable httl hlate le_rfl hc husable]
    exact SignedEvent.verdict_revoked hlate.2.1

theorem Watched.leave {s s' : WriteGate} (hs : Watched env key t0 s) {i : Nat}
    {call : PreflightCall} (hcall : s.calls[i]? = some call) {result : Bool × String}
    (hclock : s.clock ≤ s'.clock) (hcalls : s'.calls = s.calls.eraseIdx i)
    (hchecked : ∀ k c, s'.cache k = some c → c.checkedAt ≤ s'.clock)
    (hcached : ∀ c, s'.cache key = some c → c.revoked = false → c.checkedAt < t0)
    (hflight : (s'.inFlight = s.inFlight ∧ call.stage.refreshing = false) ∨
      (s'.inFlight = false ∧ call.stage.refreshing = true))
    (hresults : s'.results = s.results ++ [⟨call.event, call.start, result⟩])
    (hrefused : Late env key t0 call.event call.start → result.1 = false) :
    Watched env key t0 s' := by
  have hmem : ∀ c ∈ s'.calls, c ∈ s.calls := fun c hc =>
    List.mem_of_mem_eraseIdx (hcalls ▸ hc)
  refine ⟨hchecked, hcached, fun c hc => (hs.start_le c (hmem c hc)).trans hclock,
    fun c hc => hs.computed c (hmem c hc), ?_, ?_⟩
  · have hcount := refreshes_eraseIdx hcall
    have hold := hs.flight
    unfold Flight at hold ⊢
    rw [hcalls]
    rcases hflight with ⟨hsame, hstage⟩ | ⟨hclear, hstage⟩
    · rw [hsame]
      simpa [hstage, hold] using hcount
    · rw [hclear]
      simp only [hstage, if_true] at hcount
      split at hold <;> simp <;> omega
  · intro r hr hlate
    rw [hresults] at hr
    rcases List.mem_append.mp hr with hold | hnew
    · exact hs.refused r hold hlate
    · rw [List.mem_singleton.mp hnew] at hlate ⊢
      exact hrefused hlate

theorem Watched.advance {s s' : WriteGate} (hs : Watched env key t0 s) {i : Nat}
    {call : PreflightCall} (hcall : s.calls[i]? = some call) (stage : Stage)
    (hclock : s.clock ≤ s'.clock) (hcalls : s'.calls = s.calls.set i { call with stage := stage })
    (hcache : s'.cache = s.cache) (hresults : s'.results = s.results)
    (hflight : Flight s')
    (hcomputed : ∀ revoked info, stage = .computed revoked info →
      Late env key t0 call.event call.start → revoked = true) :
    Watched env key t0 s' := by
  have hmem : ∀ c ∈ s'.calls, c ∈ s.calls ∨ c = { call with stage := stage } := fun c hc =>
    List.mem_or_eq_of_mem_set (hcalls ▸ hc)
  refine ⟨fun k c hc => (hs.checked_le k c (hcache ▸ hc)).trans hclock,
    fun c hc => hs.cached c (hcache ▸ hc), ?_, ?_, hflight, fun r hr => hs.refused r (hresults ▸ hr)⟩
  · intro c hc
    rcases hmem c hc with hold | rfl
    · exact (hs.start_le c hold).trans hclock
    · exact (hs.start_le call (List.mem_of_getElem? hcall)).trans hclock
  · intro c hc
    rcases hmem c hc with hold | rfl
    · exact hs.computed c hold
    · exact hcomputed

theorem Watched.later {s : WriteGate} (hs : Watched env key t0 s) {now : ℚ} (h : s.clock ≤ now)
    (net : Infonet) : Watched env key t0 { s with clock := now, ledger := net } :=
  ⟨fun k c hc => (hs.checked_le k c hc).trans h, hs.cached,
    fun c hc => (hs.start_le c hc).trans h, hs.computed, hs.flight, hs.refused⟩

theorem Watched.look {s : WriteGate} (hs : Watched env key t0 s) (httl : 1 ≤ env.ttl)
    (hstrip : strip key = key) {now : ℚ} (h : s.clock ≤ now) (e : SignedEvent) :
    Watched env key t0 (s.look env now e) := by
  have hlater := hs.later h s.ledger
  unfold WriteGate.look
  cases hcheck : s.precheck env now e with
  | some result =>
    refine { hlater with refused := ?_ }
    intro r hr hlate
    rcases List.mem_append.mp hr with hold | hnew
    · exact hs.refused r hold hlate
    · rw [List.mem_singleton.mp hnew] at hlate ⊢
      exact hs.precheck httl hstrip hcheck hlate
  | none =>
    refine { hlater with start_le := ?_, computed := ?_, flight := ?_ }
    · intro c hc
      rcases List.mem_append.mp hc with hold | hnew
      · exact hlater.start_le c hold
      · rw [List.mem_singleton.mp hnew]
    · intro c hc
      rcases List.mem_append.mp hc with hold | hnew
      · exact hs.computed c hold
      · intro revoked info hstage
        rw [List.mem_singleton.mp hnew] at hstage
        cases hstage
    · have hold := hs.flight
      simpa [Flight, refreshes, Stage.refreshing] using hold

theorem Watched.enter {s : WriteGate} (hs : Watched env key t0 s) (henforce : env.enforce = true)
    {i : Nat} {call : PreflightCall} (hcall : s.calls[i]? = some call) {looked : ℚ}
    (hstage : call.stage = .looked looked) : Watched env key t0 (s.enter env i call looked) := by
  have hidle : call.stage.refreshing = false := by rw [hstage]; rfl
  have hleave : Watched env key t0 (s.leave i call (false, precheckUnavailableDetail)) :=
    hs.leave hcall le_rfl rfl hs.checked_le hs.cached (.inl ⟨rfl, hidle⟩) rfl fun _ => rfl
  unfold WriteGate.enter
  simp only [henforce, if_true]
  split
  · exact hleave
  rename_i hflying
  split
  · exact hleave
  · refine hs.advance hcall .entered le_rfl rfl rfl rfl ?_ (by simp)
    have hcount := refreshes_set hcall { call with stage := .entered }
    have hold := hs.flight
    simp only [Flight, hflying, hidle, Bool.false_eq_true, if_false] at hold hcount
    simp only [Flight, WriteGate.advance, if_true]
    simpa [hold, Stage.refreshing] using hcount

theorem Watched.compute {s : WriteGate} (hs : Watched env key t0 s) (httl : 1 ≤ env.ttl)
    (henforce : env.enforce = true) (hstrip : strip key = key) {i : Nat} {call : PreflightCall}
    (hcall : s.calls[i]? = some call) (hstage : call.stage = .entered)
    (hrevoked : RevokedSince key t0 (s.compute env i call s.clock)) :
    Watched env key t0 (s.compute env i call s.clock) := by
  have hactive : call.stage.refreshing = true := by rw [hstage]; rfl
  have hstart := hs.start_le call (List.mem_of_getElem? hcall)
  unfold WriteGate.compute at hrevoked ⊢
  simp only [henforce, if_true] at hrevoked ⊢
  cases hfound : (s.cache call.event.key).filter (CachedVerdict.usable env s.clock) with
  | some cached =>
    refine hs.leave hcall le_rfl rfl hs.checked_le hs.cached (.inr ⟨rfl, hactive⟩) rfl ?_
    intro hlate
    obtain ⟨hc, husable⟩ := Option.filter_eq_some_iff.mp hfound
    rw [hs.usable httl hlate hstart (hlate.key_eq hstrip ▸ hc) husable]
    exact SignedEvent.verdict_revoked hlate.2.1
  | none =>
    rw [hfound] at hrevoked
    dsimp only at hrevoked ⊢
    cases hraised : (rebuildRevocations env.rt s.ledger).2 with
    | some exn =>
      exact hs.leave hcall le_rfl rfl hs.checked_le hs.cached (.inr ⟨rfl, hactive⟩) rfl fun _ => rfl
    | none =>
      rw [hraised] at hrevoked
      refine hs.advance hcall _ le_rfl rfl rfl rfl ?_ ?_
      · have hcount := refreshes_set hcall { call with
          stage := .computed
            ((rebuildRevocations env.rt s.ledger).1.revoked s.clock call.event.key)
            ((rebuildRevocations env.rt s.ledger).1.revocations call.event.key) }
        rw [hactive] at hcount
        have hsame := Nat.add_right_cancel (m := 1) hcount
        exact hsame.trans hs.flight
      · intro revoked info heq hlate
        obtain ⟨rfl, -⟩ := Stage.computed.inj heq
        -- the ledger was read after `t0`
        have httl0 : (0 : ℚ) ≤ env.ttl := Nat.cast_nonneg _
        rw [hlate.key_eq hstrip]
        exact hrevoked (show t0 ≤ s.clock by linarith [hlate.2.2])

theorem Watched.store {s : WriteGate} (hs : Watched env key t0 s) {i : Nat} {call : PreflightCall}
    (hcall : s.calls[i]? = some call) {revoked : Bool} {info : Option Revocation}
    (hstage : call.stage = .computed revoked info)
    (hrevoked : RevokedSince key t0 (s.store i call s.clock revoked info))
    (hcurrent : revoked = s.ledger.revoked s.clock call.event.key) :
    Watched env key t0 (s.store i call s.clock revoked info) := by
  have hactive : call.stage.refreshing = true := by rw [hstage]; rfl
  refine hs.leave hcall le_rfl rfl ?_ ?_ (.inr ⟨rfl, hactive⟩) rfl ?_
  · intro k c hc
    simp only [WriteGate.store, WriteGate.leave, WriteGate.finish, Function.update_apply] at hc
    split at hc
    · rw [← Option.some.inj hc]
      exact le_rfl
    · exact hs.checked_le k c hc
  · intro c hc hnot
    simp only [WriteGate.store, WriteGate.leave, WriteGate.finish, Function.update_apply] at hc
    split at hc
    · rename_i hkey
      rw [← Option.some.inj hc] at hnot ⊢
      by_contra hafter
      have hstatus := hrevoked (not_lt.mp hafter)
      have hverdict : s.ledger.revoked s.clock key = true := hstatus
      simp only at hnot
      rw [hnot, ← hkey, hverdict] at hcurrent
      cases hcurrent
    · exact hs.cached c hc hnot
  · intro hlate
    rw [hs.computed call (List.mem_of_getElem? hcall) revoked info hstage hlate]
    exact SignedEvent.verdict_revoked hlate.2.1

theorem Watched.step {s : WriteGate} {a : GateStep} (hs : Watched env key t0 s)
    (httl : 1 ≤ env.ttl) (henforce : env.enforce = true) (hstrip : strip key = key)
    (htimely : Timely s a) (hrevoked : RevokedSince key t0 (gateStep env s a))
    (hcurrent : StoresCurrent s a) : Watched env key t0 (gateStep env s a) := by
  cases a with
  | ledger now net => exact hs.later htimely net
  | check now e => exact hs.look httl hstrip htimely e
  | resume now i =>
    have hlater := hs.later htimely s.ledger
    simp only [gateStep] at hrevoked ⊢
    split
    · exact hlater
    · rename_i call hcall
      rw [hcall] at hrevoked
      dsimp only at hrevoked
      cases hstage : call.stage with
      | looked looked => exact hlater.enter henforce hcall hstage
      | entered =>
        rw [hstage] at hrevoked
        exact hlater.compute httl henforce hstrip hcall hstage hrevoked
      | computed revoked info =>
        rw [hstage] at hrevoked
        have hsame := hcurrent call hcall
        rw [hstage] at hsame
        exact hlater.store hcall hstage hrevoked hsame

theorem watched_start (clock : ℚ) (net : Infonet) :
    Watched env key t0 { clock := clock, ledger := net } :=
  ⟨by simp, by simp, by simp, by simp, rfl, by simp⟩

/-- A revocation reaches the gate within a TTL, where each verdict is stored while it is current. -/
theorem revocation_reaches_gate (env : RevocationEnv) (clock : ℚ) (net : Infonet)
    (actions : List GateStep) (key : String) (t0 : ℚ) (henforce : env.enforce = true)
    (htimely : Along (gateStep env) Timely { clock := clock, ledger := net } actions)
    (hrevoked : Along (gateStep env) (fun s a => RevokedSince key t0 (gateStep env s a))
      { clock := clock, ledger := net } actions)
    (httl : 1 ≤ env.ttl) (hstrip : strip key = key)
    (hcurrent : Along (gateStep env) StoresCurrent { clock := clock, ledger := net } actions) :
    ReachesGate env key t0 (run (gateStep env) { clock := clock, ledger := net } actions) := by
  have hall : Along (gateStep env)
      (fun s a => Timely s a ∧ RevokedSince key t0 (gateStep env s a) ∧ StoresCurrent s a)
      { clock := clock, ledger := net } actions := by
    rw [along_iff_split] at htimely hrevoked hcurrent ⊢
    exact fun pre a post heq => ⟨htimely pre a post heq, hrevoked pre a post heq,
      hcurrent pre a post heq⟩
  have hend : Watched env key t0 (run (gateStep env) { clock := clock, ledger := net } actions) :=
    invariant
      (fun s a (hs : Watched env key t0 s) h => hs.step httl henforce hstrip h.1 h.2.1 h.2.2)
      (watched_start clock net) hall
  refine ⟨fun r hr hpublic htype hlate => hend.refused r hr ⟨hpublic, htype, hlate⟩, ?_⟩
  intro hnone
  have hflight := hend.flight
  rw [Flight, hnone] at hflight
  by_contra hflying
  simp [refreshes, hflying] at hflight

end

/-! ## Runs that can be computed -/

instance {s : WriteGate} {a : GateStep} : Decidable (Timely s a) :=
  inferInstanceAs (Decidable (s.clock ≤ a.now))

instance {key : String} {t0 : ℚ} {s : WriteGate} : Decidable (RevokedSince key t0 s) :=
  inferInstanceAs (Decidable (t0 ≤ s.clock → s.ledger.revoked s.clock key = true))

instance {status : Bool} {stage : Stage} : Decidable (stage.Current status) :=
  match stage with
  | .computed revoked _ => inferInstanceAs (Decidable (revoked = status))
  | .looked _ | .entered => inferInstanceAs (Decidable True)

instance {s : WriteGate} {a : GateStep} : Decidable (StoresCurrent s a) :=
  match a with
  | .resume now i => inferInstanceAs (Decidable (∀ call ∈ s.calls[i]?,
      call.stage.Current (s.ledger.revoked now call.event.key)))
  | .ledger _ _ | .check _ _ => inferInstanceAs (Decidable True)

/-- A gate on ASCII text, with enforcement on. -/
def gateEnv (ttl : Nat) : RevocationEnv := ⟨asciiRuntime, ttl, true⟩

/-- A ledger in which a key is revoked, without grace, at time 15. -/
def revokingLedger (key : String) : Infonet :=
  let events : List ChainEvent := [{
    eventId := "e1", prevHash := genesisHash, eventType := "key_revoke", nodeId := "node"
    payload := [("revoked_public_key", .str key), ("revoked_at", .int 15), ("grace_until", .int 15)]
    timestamp := .int 15, sequence := .int 1, signature := "sig", networkId := networkId
    publicKey := key, publicKeyAlgo := "Ed25519", protocolVersion := protocolVersion }]
  { events := events
    revocations := (rebuildLoop asciiRuntime (fun _ => none) events).1
    replayFilter := ⟨0, [], [], 0⟩ }

def quietLedger : Infonet := { replayFilter := ⟨0, [], [], 0⟩ }

def writeOf (key : String) : SignedEvent :=
  ⟨"message", "node", 1, key, "Ed25519", "sig", protocolVersion⟩

/-- A write before the revocation, and one after it whose verdict is refreshed. -/
def refreshedRun : List GateStep :=
  [.check 10 (writeOf "key"), .resume 10 0, .resume 10 0, .resume 11 0,
    .ledger 20 (revokingLedger "key"), .check 26 (writeOf "key"), .resume 26 0, .resume 26 0,
    .resume 27 0]

theorem revocation_reaches_gate_sample : ReachesGate (gateEnv 5) "key" 20
    (run (gateStep (gateEnv 5)) { clock := 10, ledger := quietLedger } refreshedRun) := by
  apply revocation_reaches_gate (gateEnv 5) 10 quietLedger refreshedRun "key" 20 rfl
  · refine ⟨?_, ?_, ?_, ?_, ?_, ?_, ?_, ?_, ?_, trivial⟩ <;> decide +kernel
  · refine ⟨?_, ?_, ?_, ?_, ?_, ?_, ?_, ?_, ?_, trivial⟩ <;> decide +kernel
  · decide
  · decide +kernel
  · refine ⟨?_, ?_, ?_, ?_, ?_, ?_, ?_, ?_, ?_, trivial⟩ <;> decide +kernel

/-- With a TTL of zero a verdict is used for ever. -/
def zeroTtlRun : List GateStep :=
  [.check 10 (writeOf "key"), .resume 10 0, .resume 10 0, .resume 11 0,
    .ledger 20 (revokingLedger "key"), .check 30 (writeOf "key")]

/-- The key is revoked after the refresh has read the ledger, and before it stores. -/
def staleStoreRun : List GateStep :=
  [.check 10 (writeOf "key"), .resume 10 0, .resume 10 0, .ledger 20 (revokingLedger "key"),
    .resume 30 0, .check 33 (writeOf "key")]

/-- The key that is revoked has a space in front of it. -/
def spacedRun : List GateStep :=
  [.ledger 20 (revokingLedger " key"), .check 30 (writeOf " key"), .resume 30 0, .resume 30 0,
    .resume 31 0]

/-- A write of the key was let through later than the TTL after `t0`. -/
def LetThrough (env : RevocationEnv) (key : String) (t0 : ℚ) (s : WriteGate) : Prop :=
  ∃ r ∈ s.results, r.event.publicKey = key ∧ r.event.eventType ≠ "key_revoke" ∧
    t0 + env.ttl < r.start ∧ r.result.1 = true

instance {env : RevocationEnv} {key : String} {t0 : ℚ} {s : WriteGate} :
    Decidable (LetThrough env key t0 s) := by
  unfold LetThrough
  infer_instance

theorem not_reachesGate {env : RevocationEnv} {key : String} {t0 : ℚ} {s : WriteGate}
    (h : LetThrough env key t0 s) : ¬ ReachesGate env key t0 s := by
  obtain ⟨r, hr, hpublic, htype, hlate, hok⟩ := h
  intro hreaches
  rw [hreaches.refused r hr hpublic htype hlate] at hok
  cases hok

/-- A TTL of zero, a late verdict, or a key with a space lets a revoked key pass later than that. -/
theorem not_revocation_reaches_gate :
    (Along (gateStep (gateEnv 0)) Timely { clock := 10, ledger := quietLedger } zeroTtlRun ∧
      Along (gateStep (gateEnv 0)) (fun s a => RevokedSince "key" 20 (gateStep (gateEnv 0) s a))
        { clock := 10, ledger := quietLedger } zeroTtlRun ∧
      ¬ ReachesGate (gateEnv 0) "key" 20
        (run (gateStep (gateEnv 0)) { clock := 10, ledger := quietLedger } zeroTtlRun)) ∧
    (Along (gateStep (gateEnv 5)) Timely { clock := 10, ledger := quietLedger } staleStoreRun ∧
      Along (gateStep (gateEnv 5)) (fun s a => RevokedSince "key" 20 (gateStep (gateEnv 5) s a))
        { clock := 10, ledger := quietLedger } staleStoreRun ∧
      ¬ ReachesGate (gateEnv 5) "key" 20
        (run (gateStep (gateEnv 5)) { clock := 10, ledger := quietLedger } staleStoreRun)) ∧
    (Along (gateStep (gateEnv 5)) Timely { clock := 10, ledger := quietLedger } spacedRun ∧
      Along (gateStep (gateEnv 5)) (fun s a => RevokedSince " key" 20 (gateStep (gateEnv 5) s a))
        { clock := 10, ledger := quietLedger } spacedRun ∧
      ¬ ReachesGate (gateEnv 5) " key" 20
        (run (gateStep (gateEnv 5)) { clock := 10, ledger := quietLedger } spacedRun)) := by
  refine ⟨⟨?_, ?_, not_reachesGate ?_⟩, ⟨?_, ?_, not_reachesGate ?_⟩,
    ⟨?_, ?_, not_reachesGate ?_⟩⟩
  · refine ⟨?_, ?_, ?_, ?_, ?_, ?_, trivial⟩ <;> decide +kernel
  · refine ⟨?_, ?_, ?_, ?_, ?_, ?_, trivial⟩ <;> decide +kernel
  · decide +kernel
  · refine ⟨?_, ?_, ?_, ?_, ?_, ?_, trivial⟩ <;> decide +kernel
  · refine ⟨?_, ?_, ?_, ?_, ?_, ?_, trivial⟩ <;> decide +kernel
  · decide +kernel
  · refine ⟨?_, ?_, ?_, ?_, ?_, trivial⟩ <;> decide +kernel
  · refine ⟨?_, ?_, ?_, ?_, ?_, trivial⟩ <;> decide +kernel
  · decide +kernel

end Vincent.Signed
