-- SUMMARY: Gates: the member set, locks, and when a lock stays.
import Vincent.Economy.ChainOrder

/-!
# Gates

A gate is locked when enough of its members have contributed to a lock. Whose
contributions count is decided by the member set at the end of the chain.
-/

namespace Vincent.Economy

open Vincent.Python Vincent.Check

/-- The values of `CONFIG` that gates read, with the ranges of `CONFIG_SCHEMA`. -/
structure GateConfig where
  gateLockCostPerMember : Nat := 10
  gateLockMinMembers : Nat := 5
  gateSuspendDurationDays : Nat := 30
  gateShutdownExecutionDelayDays : Nat := 7
  lockCost_range : 1 ≤ gateLockCostPerMember ∧ gateLockCostPerMember ≤ 1000 := by decide
  lockMembers_range : 2 ≤ gateLockMinMembers ∧ gateLockMinMembers ≤ 1000 := by decide
  suspendDuration_range :
    1 ≤ gateSuspendDurationDays ∧ gateSuspendDurationDays ≤ 365 := by decide
  executionDelay_range :
    1 ≤ gateShutdownExecutionDelayDays ∧ gateShutdownExecutionDelayDays ≤ 90 := by decide

/-! ## Events of a gate -/

def gateId (event : Dict) : String :=
  match (Dict.get (payload event) "gate_id").or (Dict.get (payload event) "gate") with
  | .str s => s
  | _ => ""

/-- The events that `events_for_gate` sorts. -/
def gateEvents (g : String) (chain : List PyVal) : List Dict :=
  (dicts chain).filter fun ev => gateId ev = g

def eventsForGate (rt : Runtime) (g : String) (chain : List PyVal) : Except String (List Dict) :=
  sortEvents rt (gateEvents g chain)

/-- `ev.get("node_id")` where it is a text that is not empty. -/
def nodeId (event : Dict) : Option String :=
  match Dict.get event "node_id" with
  | .str s => if s = "" then none else some s
  | _ => none

/-! ## Members -/

/-- The loop variables of `compute_member_set`. -/
structure MemberScan where
  members : List String := []
  shutdownSeen : Bool := false

namespace MemberScan

def add (node : String) (scan : MemberScan) : MemberScan :=
  if node ∈ scan.members then scan else { scan with members := scan.members ++ [node] }

def discard (node : String) (scan : MemberScan) : MemberScan :=
  { scan with members := scan.members.filter (· ≠ node) }

/-- One round of the loop. -/
def visit (scan : MemberScan) (event : Dict) : MemberScan :=
  if hasType "gate_shutdown_execute" event then { members := [], shutdownSeen := true }
  else
    match nodeId event with
    | none => scan
    | some node =>
      if hasType "gate_enter" event then if scan.shutdownSeen then scan else scan.add node
      else if hasType "gate_exit" event then scan.discard node
      else scan

@[simp] theorem mem_add {node n : String} {scan : MemberScan} :
    n ∈ (scan.add node).members ↔ n ∈ scan.members ∨ n = node := by
  unfold add
  split
  · rename_i h
    constructor
    · exact Or.inl
    · rintro (hn | rfl)
      · exact hn
      · exact h
  · simp

@[simp] theorem mem_discard {node n : String} {scan : MemberScan} :
    n ∈ (scan.discard node).members ↔ n ∈ scan.members ∧ n ≠ node := by
  simp [discard]

end MemberScan

def memberScan (events : List Dict) : MemberScan := events.foldl MemberScan.visit {}

def computeMemberSet (rt : Runtime) (g : String) (chain : List PyVal) :
    Except String (List String) := do
  let events ← eventsForGate rt g chain
  return (memberScan events).members

/-! ## Locks -/

/-- The locker and the time of a `gate_lock` event that pays enough. -/
def lockTerms (rt : Runtime) (cfg : GateConfig) (event : Dict) : Option (String × ℚ) :=
  if hasType "gate_lock" event then do
    let node ← nodeId event
    let paid ← finiteFloat rt ((Dict.get (payload event) "lock_cost").or (.float (.finite 0)))
    let ts ← finiteFloat rt ((Dict.get event "timestamp").or (.float (.finite 0)))
    if paid < cfg.gateLockCostPerMember then none else some (node, ts)
  else none

/-- One round of the loop of `_collect_lock_contributions`. -/
def contribute (rt : Runtime) (cfg : GateConfig) (members : List String)
    (out : List (String × ℚ)) (event : Dict) : List (String × ℚ) :=
  match lockTerms rt cfg event with
  | none => out
  | some (node, ts) =>
    if node ∈ out.map Prod.fst ∨ node ∉ members then out else out ++ [(node, ts)]

def lockContributions (rt : Runtime) (cfg : GateConfig) (members : List String)
    (events : List Dict) : List (String × ℚ) :=
  events.foldl (contribute rt cfg members) []

structure LockedGateState where
  locked : Bool
  lockedAt : Option ℚ
  lockedBy : List String
deriving DecidableEq, Repr

/-- What the contributions make of a gate. -/
def lockedState (cfg : GateConfig) (contributions : List (String × ℚ)) : LockedGateState :=
  if contributions.length < cfg.gateLockMinMembers then
    { locked := false, lockedAt := none, lockedBy := [] }
  else
    let byTime := contributions.insertionSort fun a b => a.2 ≤ b.2
    { locked := true, lockedAt := (byTime[cfg.gateLockMinMembers - 1]?).map Prod.snd,
      lockedBy := byTime.map Prod.fst }

/-- `_state`. -/
def gateState (rt : Runtime) (cfg : GateConfig) (g : String) (chain : List PyVal) :
    Except String LockedGateState := do
  let events ← eventsForGate rt g chain
  return lockedState cfg (lockContributions rt cfg (memberScan events).members events)

def isLocked (rt : Runtime) (cfg : GateConfig) (g : String) (chain : List PyVal) :
    Except String Bool :=
  LockedGateState.locked <$> gateState rt cfg g chain

def lockedAt (rt : Runtime) (cfg : GateConfig) (g : String) (chain : List PyVal) :
    Except String (Option ℚ) :=
  LockedGateState.lockedAt <$> gateState rt cfg g chain

/-! ## What members do to a lock -/

/-- The node has a lock on the chain that pays enough. -/
def Locker (rt : Runtime) (cfg : GateConfig) (events : List Dict) (node : String) : Prop :=
  ∃ ev ∈ events, ∃ ts, lockTerms rt cfg ev = some (node, ts)

/-- No node of `members` with a lock leaves, and no other one with a lock enters. -/
def KeepsLockers (rt : Runtime) (cfg : GateConfig) (events : List Dict) (members : List String)
    (event : Dict) : Prop :=
  ∀ node, nodeId event = some node → Locker rt cfg events node →
    (hasType "gate_exit" event → node ∉ members) ∧ (hasType "gate_enter" event → node ∈ members)

section

variable {rt : Runtime} {cfg : GateConfig} {events later : List Dict} {node : String}
  {members members' : List String}

/-- An event that does not move a node leaves it where it is. -/
theorem mem_visit {scan : MemberScan} {event : Dict}
    (hexecute : hasType "gate_shutdown_execute" event = false)
    (hexit : nodeId event = some node → hasType "gate_exit" event → node ∉ scan.members)
    (henter : nodeId event = some node → hasType "gate_enter" event → node ∈ scan.members) :
    node ∈ (scan.visit event).members ↔ node ∈ scan.members := by
  unfold MemberScan.visit
  rw [hexecute]
  cases hnode : nodeId event with
  | none => rfl
  | some n =>
    simp only [Bool.false_eq_true, if_false]
    split
    · rename_i hkind
      split
      · rfl
      · rw [MemberScan.mem_add]
        constructor
        · rintro (h | rfl)
          · exact h
          · exact henter hnode hkind
        · exact Or.inl
    · split
      · rename_i hkind
        rw [MemberScan.mem_discard]
        constructor
        · exact And.left
        · intro h
          refine ⟨h, ?_⟩
          rintro rfl
          exact hexit hnode hkind h
      · rfl

/-- Events that keep the lockers leave each of them a member or not, as it was. -/
theorem mem_foldl_visit (hlocker : Locker rt cfg events node) (scan : MemberScan)
    (hexecute : ∀ ev ∈ later, hasType "gate_shutdown_execute" ev = false)
    (hkeeps : ∀ ev ∈ later, KeepsLockers rt cfg events members ev)
    (hscan : node ∈ scan.members ↔ node ∈ members) :
    node ∈ (later.foldl MemberScan.visit scan).members ↔ node ∈ members := by
  induction later generalizing scan with
  | nil => exact hscan
  | cons ev later ih =>
    apply ih _ (fun e he => hexecute e (List.mem_cons_of_mem _ he))
      (fun e he => hkeeps e (List.mem_cons_of_mem _ he))
    have hkeep := hkeeps ev List.mem_cons_self
    refine (mem_visit (hexecute ev List.mem_cons_self) ?_ ?_).trans hscan
    · intro hnode hkind
      rw [hscan]
      exact (hkeep node hnode hlocker).1 hkind
    · intro hnode hkind
      rw [hscan]
      exact (hkeep node hnode hlocker).2 hkind

/-- The contributions depend on the members only as far as these are lockers. -/
theorem foldl_contribute_congr (h : ∀ n, Locker rt cfg events n → (n ∈ members ↔ n ∈ members'))
    (out : List (String × ℚ)) :
    events.foldl (contribute rt cfg members) out = events.foldl (contribute rt cfg members') out := by
  induction events generalizing out with
  | nil => rfl
  | cons ev events ih =>
    have hstep : contribute rt cfg members out ev = contribute rt cfg members' out ev := by
      unfold contribute
      cases hterms : lockTerms rt cfg ev with
      | none => rfl
      | some terms =>
        have hmem := h terms.1 ⟨ev, List.mem_cons_self, terms.2, hterms⟩
        simp only [hmem]
    rw [List.foldl_cons, List.foldl_cons, hstep]
    exact ih (fun n ⟨e, he, hterms⟩ => h n ⟨e, List.mem_cons_of_mem _ he, hterms⟩) _

/-- More events add contributions behind those that are there, at times of their own. -/
theorem foldl_contribute_extends (out : List (String × ℚ)) :
    ∃ added, events.foldl (contribute rt cfg members) out = out ++ added ∧
      ∀ c ∈ added, ∃ ev ∈ events, lockTerms rt cfg ev = some c := by
  induction events generalizing out with
  | nil => exact ⟨[], (List.append_nil out).symm, fun c hc => absurd hc List.not_mem_nil⟩
  | cons ev events ih =>
    obtain ⟨added, heq, hadded⟩ := ih (contribute rt cfg members out ev)
    have hsource : ∀ c ∈ added, ∃ e ∈ ev :: events, lockTerms rt cfg e = some c := by
      intro c hc
      obtain ⟨e, he, hterms⟩ := hadded c hc
      exact ⟨e, List.mem_cons_of_mem _ he, hterms⟩
    rw [List.foldl_cons, heq]
    cases hterms : lockTerms rt cfg ev with
    | none => exact ⟨added, by simp [contribute, hterms], hsource⟩
    | some c =>
      by_cases hskip : c.1 ∈ out.map Prod.fst ∨ c.1 ∉ members
      · exact ⟨added, by simp only [contribute, hterms, if_pos hskip], hsource⟩
      · refine ⟨c :: added, by simp [contribute, hterms, if_neg hskip], ?_⟩
        intro c' hc'
        rcases List.mem_cons.mp hc' with rfl | hc'
        · exact ⟨ev, List.mem_cons_self, hterms⟩
        · exact hsource c' hc'

/-- The time of a contribution is the timestamp of its event. -/
theorem timestamp_of_lockTerms {event : Dict} {terms : String × ℚ} {ts : PyFloat}
    (h : lockTerms rt cfg event = some terms) (hts : timestamp rt event = .ok ts) :
    ts.rat? = some terms.2 := by
  unfold lockTerms at h
  split at h
  · simp only [Option.bind_eq_bind, Option.bind_eq_some_iff] at h
    obtain ⟨node, -, paid, -, q, hq, h⟩ := h
    split at h
    · cases h
    · cases h
      unfold finiteFloat at hq
      unfold timestamp at hts
      rw [hts] at hq
      exact hq
  · cases h

/-- Contributions at later times leave a locked gate locked, since the same time. -/
theorem lockedState_append {contributions added : List (String × ℚ)}
    (hlocked : (lockedState cfg contributions).locked = true)
    (hlater : ∀ a ∈ contributions, ∀ b ∈ added, a.2 ≤ b.2) :
    (lockedState cfg (contributions ++ added)).locked = true ∧
      (lockedState cfg (contributions ++ added)).lockedAt =
        (lockedState cfg contributions).lockedAt := by
  have henough : ¬ contributions.length < cfg.gateLockMinMembers := by
    intro hfew
    simp [lockedState, hfew] at hlocked
  have hmore : ¬ (contributions ++ added).length < cfg.gateLockMinMembers := by
    rw [List.length_append]
    omega
  unfold lockedState
  rw [if_neg henough, if_neg hmore]
  refine ⟨rfl, ?_⟩
  dsimp only
  rw [Sort.insertionSort_append hlater, List.getElem?_append_left]
  rw [List.length_insertionSort]
  have hmin := cfg.lockMembers_range.1
  omega

/-- A run of events behind a chain leaves a locked gate locked, since the same time, if each
    is stamped after the chain and keeps the lockers. -/
theorem lockedState_later (hlocked : (lockedState cfg
      (lockContributions rt cfg (memberScan events).members events)).locked = true)
    (hlater : ∀ a ∈ events, ∀ b ∈ later, StampedBefore rt a b)
    (hexecute : ∀ ev ∈ later, hasType "gate_shutdown_execute" ev = false)
    (hkeeps : ∀ ev ∈ later, KeepsLockers rt cfg events (memberScan events).members ev) :
    let before := lockedState cfg (lockContributions rt cfg (memberScan events).members events)
    let after := lockedState cfg (lockContributions rt cfg (memberScan (events ++ later)).members
      (events ++ later))
    after.locked = true ∧ after.lockedAt = before.lockedAt := by
  have hmembers : ∀ n, Locker rt cfg events n →
      (n ∈ (memberScan (events ++ later)).members ↔ n ∈ (memberScan events).members) := by
    intro n hn
    unfold memberScan
    rw [List.foldl_append]
    exact mem_foldl_visit hn _ hexecute hkeeps Iff.rfl
  have hsame := foldl_contribute_congr hmembers []
  obtain ⟨added, hadded, hsource⟩ := @foldl_contribute_extends rt cfg later
    (memberScan (events ++ later)).members
    (lockContributions rt cfg (memberScan events).members events)
  have hall : lockContributions rt cfg (memberScan (events ++ later)).members (events ++ later) =
      lockContributions rt cfg (memberScan events).members events ++ added := by
    unfold lockContributions at hadded ⊢
    rw [List.foldl_append, hsame]
    exact hadded
  dsimp only
  rw [hall]
  apply lockedState_append hlocked
  intro a ha b hb
  obtain ⟨own, hown, hownSource⟩ := @foldl_contribute_extends rt cfg events
    (memberScan events).members []
  have haown : a ∈ own := by
    unfold lockContributions at ha
    rw [hown] at ha
    simpa using ha
  obtain ⟨ea, hea, hterms⟩ := hownSource a haown
  obtain ⟨eb, heb, hterms'⟩ := hsource b hb
  obtain ⟨ta, tb, hta, htb, hlt⟩ := hlater ea hea eb heb
  have hra := timestamp_of_lockTerms hterms hta
  have hrb := timestamp_of_lockTerms hterms' htb
  exact (PyFloat.lt_rat hra hrb).mp hlt |>.le

theorem gateEvents_append {g : String} {chain more : List PyVal} :
    gateEvents g (chain ++ more) = gateEvents g chain ++ gateEvents g more := by
  simp [gateEvents, dicts]

end

/-! ## Locked gates -/

section Locked

variable {rt : Runtime} {cfg : GateConfig} {g : String} {chain : List PyVal}

theorem isLocked_eq_ok {b : Bool} : isLocked rt cfg g chain = .ok b ↔
    ∃ s, gateState rt cfg g chain = .ok s ∧ s.locked = b := by
  unfold isLocked
  cases gateState rt cfg g chain <;> simp [Functor.map, Except.map]

/-- A locked gate stays locked where it is not shut down and no member with a lock moves. -/
theorem isLocked_extends (rt : Runtime) (cfg : GateConfig) (g : String) (chain more : List PyVal)
    (members : List String) (hlocked : isLocked rt cfg g chain = .ok true)
    (hmembers : computeMemberSet rt g chain = .ok members)
    (hlater : ∀ a ∈ gateEvents g chain, ∀ b ∈ gateEvents g more, StampedBefore rt a b)
    (hstamped : ∀ ev ∈ gateEvents g more, Stamped rt ev)
    (hexecute : ∀ ev ∈ gateEvents g more, hasType "gate_shutdown_execute" ev = false)
    (hkeeps : ∀ ev ∈ gateEvents g more, KeepsLockers rt cfg (gateEvents g chain) members ev) :
    isLocked rt cfg g (chain ++ more) = .ok true ∧
      lockedAt rt cfg g (chain ++ more) = lockedAt rt cfg g chain := by
  obtain ⟨s, hs, hlocked⟩ := isLocked_eq_ok.mp hlocked
  obtain ⟨events, hevents, hstate⟩ := bind_eq_ok.mp hs
  obtain rfl := pure_eq_ok.mp hstate
  unfold computeMemberSet at hmembers
  rw [hevents] at hmembers
  obtain rfl := pure_eq_ok.mp hmembers
  obtain ⟨later, hsorted⟩ := exists_sortEvents hstamped
  have hperm := sortEvents_perm hevents
  have hperm' := sortEvents_perm hsorted
  have hall : eventsForGate rt g (chain ++ more) = .ok (events ++ later) := by
    unfold eventsForGate
    rw [gateEvents_append]
    exact sortEvents_append hevents hsorted hlater
  have hlockers : ∀ n, Locker rt cfg events n → Locker rt cfg (gateEvents g chain) n :=
    fun n ⟨ev, hev, hterms⟩ => ⟨ev, hperm.mem_iff.mp hev, hterms⟩
  obtain ⟨hstays, hsame⟩ := lockedState_later hlocked
    (fun a ha b hb => hlater a (hperm.mem_iff.mp ha) b (hperm'.mem_iff.mp hb))
    (fun ev hev => hexecute ev (hperm'.mem_iff.mp hev))
    (fun ev hev node hnode hlocker =>
      hkeeps ev (hperm'.mem_iff.mp hev) node hnode (hlockers node hlocker))
  have hafter : gateState rt cfg g (chain ++ more) = .ok (lockedState cfg (lockContributions rt cfg
      (memberScan (events ++ later)).members (events ++ later))) := by
    unfold gateState
    rw [hall]
    rfl
  constructor
  · exact isLocked_eq_ok.mpr ⟨_, hafter, hstays⟩
  · unfold lockedAt
    rw [hafter, hs]
    exact congrArg Except.ok hsame

/-- A gate on a chain to run examples on, with five members who locked it. -/
def lockedGate : List PyVal :=
  [chainEvent "gate_enter" "n1" 1 [("gate_id", .str "g")],
    chainEvent "gate_enter" "n2" 2 [("gate_id", .str "g")],
    chainEvent "gate_enter" "n3" 3 [("gate_id", .str "g")],
    chainEvent "gate_enter" "n4" 4 [("gate_id", .str "g")],
    chainEvent "gate_enter" "n5" 5 [("gate_id", .str "g")],
    chainEvent "gate_lock" "n1" 6 [("gate_id", .str "g"), ("lock_cost", .int 10)],
    chainEvent "gate_lock" "n2" 7 [("gate_id", .str "g"), ("lock_cost", .int 10)],
    chainEvent "gate_lock" "n3" 8 [("gate_id", .str "g"), ("lock_cost", .int 10)],
    chainEvent "gate_lock" "n4" 9 [("gate_id", .str "g"), ("lock_cost", .int 10)],
    chainEvent "gate_lock" "n5" 10 [("gate_id", .str "g"), ("lock_cost", .int 10)]]

theorem isLocked_extends_sample :
    isLocked asciiRuntime {} "g"
      (lockedGate ++ [chainEvent "gate_enter" "n6" 11 [("gate_id", .str "g")]]) = .ok true := by
  refine (isLocked_extends asciiRuntime {} "g" lockedGate _ ["n1", "n2", "n3", "n4", "n5"]
    (by decide +kernel) (by decide +kernel) (by decide +kernel) (by decide +kernel) (by decide +kernel) ?_).1
  rintro ev hev node hnode ⟨ev', hev', ts, hterms⟩
  have hnobody : ∀ e ∈ gateEvents "g" lockedGate,
      (lockTerms asciiRuntime {} e).map Prod.fst ≠ some "n6" := by decide +kernel
  have hnew : ∀ e ∈ gateEvents "g" [chainEvent "gate_enter" "n6" 11 [("gate_id", .str "g")]],
      nodeId e = some "n6" := by decide +kernel
  rw [hnew ev hev] at hnode
  cases hnode
  exact absurd (by rw [hterms]; rfl) (hnobody ev' hev')

/-- A locked gate is unlocked when one of the members who locked it exits. -/
theorem not_isLocked_extends :
    ¬ ∀ (rt : Runtime) (cfg : GateConfig) (g : String) (chain more : List PyVal),
      isLocked rt cfg g chain = .ok true →
      (∀ a ∈ dicts chain, ∀ b ∈ dicts more, StampedBefore rt a b) →
      (∀ ev ∈ dicts more, Stamped rt ev) →
      (∀ ev ∈ dicts more, hasType "gate_shutdown_execute" ev = false) →
      isLocked rt cfg g (chain ++ more) = .ok true ∧
        lockedAt rt cfg g (chain ++ more) = lockedAt rt cfg g chain := by
  intro h
  have hlocked := (h asciiRuntime {} "g" lockedGate
    [chainEvent "gate_exit" "n3" 11 [("gate_id", .str "g")]] (by decide +kernel)
    (by decide +kernel) (by decide +kernel) (by decide +kernel)).1
  have hunlocked : isLocked asciiRuntime {} "g"
      (lockedGate ++ [chainEvent "gate_exit" "n3" 11 [("gate_id", .str "g")]]) = .ok false := by decide +kernel
  rw [hunlocked] at hlocked
  cases hlocked

end Locked

end Vincent.Economy
