-- SUMMARY: Disputes of a market: views, effective outcome, and which events decide one.
import Mathlib.Data.List.Infix
import Vincent.General.OrderedMap
import Vincent.Economy.Resolution

/-!
# Disputes

A dispute is opened against a market, staked on, and resolved. The view of each
dispute is rebuilt from the chain in three passes: the opens, the stakes, and the
resolves. A `dispute_resolve` event names its outcome itself.

Amounts are exact rationals.
-/

namespace Vincent.Economy

open Vincent.Python

/-! ## Views -/

inductive DisputeOutcome where
  | upheld
  | reversed
  | tie
deriving DecidableEq, Repr

def DisputeOutcome.ofVal? (v : PyVal) : Option DisputeOutcome :=
  if v.eq (.str "upheld") then some .upheld
  else if v.eq (.str "reversed") then some .reversed
  else if v.eq (.str "tie") then some .tie
  else none

structure DisputeStake where
  /-- `ev.get("node_id") or ""`. -/
  nodeId : PyVal
  amount : ℚ
  repType : RepType

structure DisputeView where
  disputeId : String
  marketId : String
  challengerId : String
  challengerStake : ℚ
  openedAt : ℚ
  confirmStakes : List DisputeStake := []
  reverseStakes : List DisputeStake := []
  resolvedOutcome : Option DisputeOutcome := none
  resolvedAt : Option ℚ := none

def disputeId (rt : Runtime) (event : Dict) : String :=
  let p := payload event
  let synthesized := "dispute:" ++ ((Dict.get p "market_id").or (.str "")).toStr rt ++ ":" ++
    (Dict.get event "node_id" (.str "")).toStr rt ++ ":" ++
    (Dict.get event "timestamp" (.str "")).toStr rt
  match Dict.get p "dispute_id", Dict.get event "event_id" with
  | .str did, eid =>
    if did ≠ "" then did
    else match eid with
      | .str eid => if eid ≠ "" then eid else synthesized
      | _ => synthesized
  | _, .str eid => if eid ≠ "" then eid else synthesized
  | _, _ => synthesized

/-- The dispute that a well-formed `dispute_open` opens against the market. -/
def readOpen (rt : Runtime) (m : String) (event : Dict) : Option DisputeView :=
  if hasType "dispute_open" event && forMarket m event then do
    let challengerStake ← finiteFloat rt (Dict.get (payload event) "challenger_stake")
    let openedAt ← finiteFloat rt (Dict.get event "timestamp")
    return { disputeId := disputeId rt event, marketId := m,
             challengerId := ((Dict.get event "node_id").or (.str "")).toStr rt,
             challengerStake, openedAt }
  else none

/-- A stake, with the dispute it names and whether it confirms. -/
structure StakeEvent where
  disputeId : String
  confirms : Bool
  stake : DisputeStake

def readDisputeStake (rt : Runtime) (event : Dict) : Option StakeEvent :=
  if hasType "dispute_stake" event then
    let p := payload event
    match Dict.get p "dispute_id", RepType.ofVal? (Dict.get p "rep_type"),
        finiteFloat rt (Dict.get p "amount") with
    | .str did, some repType, some amount =>
      if !(Dict.get p "side").inStrings ["confirm", "reverse"] || amount ≤ 0 then none
      else some { disputeId := did, confirms := (Dict.get p "side").eq (.str "confirm"),
                  stake := { nodeId := (Dict.get event "node_id").or (.str ""), amount, repType } }
    | _, _, _ => none
  else none

structure ResolveEvent where
  disputeId : String
  outcome : DisputeOutcome
  resolvedAt : ℚ

def readResolve (rt : Runtime) (event : Dict) : Option ResolveEvent :=
  if hasType "dispute_resolve" event then
    match Dict.get (payload event) "dispute_id",
        DisputeOutcome.ofVal? (Dict.get (payload event) "outcome"),
        finiteFloat rt (Dict.get event "timestamp") with
    | .str did, some outcome, some resolvedAt => some { disputeId := did, outcome, resolvedAt }
    | _, _, _ => none
  else none

namespace DisputeView

def addStake (s : StakeEvent) (d : DisputeView) : DisputeView :=
  if s.confirms then { d with confirmStakes := d.confirmStakes ++ [s.stake] }
  else { d with reverseStakes := d.reverseStakes ++ [s.stake] }

def resolve (r : ResolveEvent) (d : DisputeView) : DisputeView :=
  { d with resolvedOutcome := some r.outcome, resolvedAt := some r.resolvedAt }

@[simp] theorem addStake_resolvedOutcome (s : StakeEvent) (d : DisputeView) :
    (d.addStake s).resolvedOutcome = d.resolvedOutcome := by
  unfold addStake
  split <;> rfl

@[simp] theorem addStake_disputeId (s : StakeEvent) (d : DisputeView) :
    (d.addStake s).disputeId = d.disputeId := by
  unfold addStake
  split <;> rfl

/-- The order of `sorted(…, key=lambda d: (d.opened_at, d.dispute_id))`. -/
def before (d e : DisputeView) : Bool :=
  d.openedAt < e.openedAt || (d.openedAt == e.openedAt && d.disputeId ≤ e.disputeId)

end DisputeView

/-- The `disputes` of the first pass. -/
def openedDisputes (rt : Runtime) (m : String) (chain : List Dict) :
    OrderedMap String DisputeView :=
  OrderedMap.fold (fun d => some d.disputeId) (fun d _ => d) (chain.filterMap (readOpen rt m)) []

/-- The `disputes` after all three passes. -/
def disputeTable (rt : Runtime) (m : String) (chain : List Dict) : OrderedMap String DisputeView :=
  OrderedMap.modifyAll ResolveEvent.disputeId DisputeView.resolve (chain.filterMap (readResolve rt))
    (OrderedMap.modifyAll StakeEvent.disputeId DisputeView.addStake
      (chain.filterMap (readDisputeStake rt)) (openedDisputes rt m chain))

def collectDisputes (rt : Runtime) (m : String) (chain : List Dict) : List DisputeView :=
  (disputeTable rt m chain).values.insertionSort fun d e => d.before e

/-! ## Outcomes -/

/-- What the stakes of one side hold in oracle reputation. -/
def oracleStaked (stakes : List DisputeStake) : ℚ :=
  ((stakes.filter fun s => s.repType = .oracle).map DisputeStake.amount).sum

def computeDisputeOutcome (d : DisputeView) : DisputeOutcome :=
  if oracleStaked d.reverseStakes < oracleStaked d.confirmStakes then .upheld
  else if oracleStaked d.confirmStakes < oracleStaked d.reverseStakes then .reversed
  else .tie

def flip (outcome : String) : String :=
  if outcome = "yes" then "no" else if outcome = "no" then "yes" else outcome

def effectiveOutcome (rt : Runtime) (original m : String) (chain : List Dict) : String :=
  if original = "yes" ∨ original = "no" then
    (collectDisputes rt m chain).foldl
      (fun current d => if d.resolvedOutcome = some .reversed then flip current else current) original
  else original

/-! ## What a dispute holds -/

/-- The well-formed resolves of a dispute, in hashchain order. -/
def resolvesOf (rt : Runtime) (did : String) (chain : List Dict) : List ResolveEvent :=
  (chain.filterMap (readResolve rt)).filter fun r => r.disputeId = did

section

variable {rt : Runtime} {m did : String} {chain more : List Dict} {d : DisputeView}

theorem foldl_insert_eq_getLast? (xs : List DisputeView) (held : Option DisputeView) :
    xs.foldl (fun _ d => some d) held = xs.getLast?.or held := by
  induction xs generalizing held with
  | nil => rfl
  | cons d xs ih =>
    rw [List.foldl_cons, ih]
    cases xs with
    | nil => rfl
    | cons e xs => simp [List.getLast?_cons]

/-- A dispute is held under its id, as its last well-formed open made it, with no outcome. -/
theorem openedDisputes_spec {k : String} (h : (openedDisputes rt m chain).lookup k = some d) :
    d.disputeId = k ∧ d.resolvedOutcome = none ∧ d ∈ chain.filterMap (readOpen rt m) := by
  unfold openedDisputes at h
  rw [OrderedMap.lookup_fold, foldl_insert_eq_getLast?, List.lookup_nil, Option.or_none] at h
  obtain ⟨hmem, hid⟩ := List.mem_filter.mp (List.mem_of_getLast? h)
  refine ⟨by simpa using hid, ?_, hmem⟩
  obtain ⟨ev, -, hread⟩ := List.mem_filterMap.mp hmem
  unfold readOpen at hread
  split at hread
  · simp only [Option.bind_eq_bind, Option.bind_eq_some_iff, Option.pure_def,
      Option.some.injEq] at hread
    obtain ⟨_, -, _, -, rfl⟩ := hread
    rfl
  · cases hread

theorem openedDisputes_isSome : ((openedDisputes rt m chain).lookup did).isSome ↔
    ∃ d ∈ chain.filterMap (readOpen rt m), d.disputeId = did := by
  unfold openedDisputes
  rw [OrderedMap.lookup_fold, foldl_insert_eq_getLast?, List.lookup_nil, Option.or_none,
    List.getLast?_isSome]
  simp only [ne_eq, List.filter_eq_nil_iff, not_forall, not_not, Option.some.injEq,
    decide_eq_true_eq, exists_prop]

theorem foldl_addStake (ss : List StakeEvent) (d : DisputeView) :
    (ss.foldl (fun d s => d.addStake s) d).resolvedOutcome = d.resolvedOutcome ∧
      (ss.foldl (fun d s => d.addStake s) d).disputeId = d.disputeId := by
  induction ss generalizing d with
  | nil => exact ⟨rfl, rfl⟩
  | cons s ss ih =>
    obtain ⟨houtcome, hid⟩ := ih (d.addStake s)
    exact ⟨by simpa using houtcome, by simpa using hid⟩

theorem foldl_resolve (rs : List ResolveEvent) (d : DisputeView) :
    (rs.foldl (fun d r => d.resolve r) d).resolvedOutcome =
        (rs.getLast?.map ResolveEvent.outcome).or d.resolvedOutcome ∧
      (rs.foldl (fun d r => d.resolve r) d).disputeId = d.disputeId := by
  induction rs generalizing d with
  | nil => exact ⟨rfl, rfl⟩
  | cons r rs ih =>
    obtain ⟨houtcome, hid⟩ := ih (d.resolve r)
    refine ⟨?_, hid⟩
    rw [List.foldl_cons, houtcome]
    cases rs with
    | nil => rfl
    | cons r' rs => simp [List.getLast?_cons]

theorem disputeTable_distinct : (disputeTable rt m chain).Distinct := by
  unfold disputeTable openedDisputes
  exact OrderedMap.Distinct.modifyAll _
    (OrderedMap.Distinct.modifyAll _ (OrderedMap.Distinct.fold _ OrderedMap.distinct_nil))

/-- A dispute that is opened is held under its id, with the outcome of its last well-formed
    resolve. -/
theorem disputeTable_lookup {k : String} (h : (disputeTable rt m chain).lookup k = some d) :
    d.disputeId = k ∧
      d.resolvedOutcome = (resolvesOf rt k chain).getLast?.map ResolveEvent.outcome := by
  unfold disputeTable at h
  rw [OrderedMap.lookup_modifyAll, OrderedMap.lookup_modifyAll] at h
  simp only [Option.map_map, Option.map_eq_some_iff, Function.comp_apply] at h
  obtain ⟨opened, hopened, rfl⟩ := h
  obtain ⟨hid, hnone, -⟩ := openedDisputes_spec hopened
  have hstakes := foldl_addStake
    ((chain.filterMap (readDisputeStake rt)).filter fun s => s.disputeId = k) opened
  have hresolves := foldl_resolve (resolvesOf rt k chain)
    (((chain.filterMap (readDisputeStake rt)).filter fun s => s.disputeId = k).foldl
      (fun d s => d.addStake s) opened)
  constructor
  · exact hresolves.2.trans (hstakes.2.trans hid)
  · refine hresolves.1.trans ?_
    rw [hstakes.1, hnone, Option.or_none]

theorem disputeTable_isSome : ((disputeTable rt m chain).lookup did).isSome ↔
    ∃ d ∈ chain.filterMap (readOpen rt m), d.disputeId = did := by
  unfold disputeTable
  rw [OrderedMap.lookup_modifyAll, OrderedMap.lookup_modifyAll, Option.isSome_map,
    Option.isSome_map, openedDisputes_isSome]

theorem mem_collectDisputes : d ∈ collectDisputes rt m chain ↔
    (disputeTable rt m chain).lookup d.disputeId = some d := by
  unfold collectDisputes
  rw [List.mem_insertionSort]
  exact disputeTable_distinct.mem_values_iff fun k v hv => (disputeTable_lookup hv).1

/-- A dispute has the outcome of its last well-formed resolve. -/
theorem resolvedOutcome_eq (hd : d ∈ collectDisputes rt m chain) :
    d.resolvedOutcome = (resolvesOf rt d.disputeId chain).getLast?.map ResolveEvent.outcome :=
  (disputeTable_lookup (mem_collectDisputes.mp hd)).2

/-- A dispute is in the views once a well-formed open is on the chain. -/
theorem exists_mem_collectDisputes : (∃ d ∈ collectDisputes rt m chain, d.disputeId = did) ↔
    ∃ d ∈ chain.filterMap (readOpen rt m), d.disputeId = did := by
  rw [← disputeTable_isSome, Option.isSome_iff_exists]
  constructor
  · rintro ⟨d, hd, rfl⟩
    exact ⟨d, mem_collectDisputes.mp hd⟩
  · rintro ⟨d, hd⟩
    have hid := (disputeTable_lookup hd).1
    refine ⟨d, mem_collectDisputes.mpr ?_, hid⟩
    rw [hid]
    exact hd

/-! ## A resolved dispute -/

theorem collectDisputes_append (hd : d ∈ collectDisputes rt m chain) :
    ∃ d' ∈ collectDisputes rt m (chain ++ more), d'.disputeId = d.disputeId := by
  obtain ⟨e, he, hid⟩ := exists_mem_collectDisputes.mp ⟨d, hd, rfl⟩
  apply exists_mem_collectDisputes.mpr
  refine ⟨e, ?_, hid⟩
  rw [List.filterMap_append]
  exact List.mem_append_left _ he

/-- Without another resolve that says otherwise, what is appended leaves the outcome. -/
theorem resolvedOutcome_append {o : DisputeOutcome} (hd : d ∈ collectDisputes rt m chain)
    (hresolved : d.resolvedOutcome = some o)
    (hmore : ∀ r ∈ resolvesOf rt d.disputeId more, r.outcome = o) {d' : DisputeView}
    (hd' : d' ∈ collectDisputes rt m (chain ++ more)) (hid : d'.disputeId = d.disputeId) :
    d'.resolvedOutcome = some o := by
  rw [resolvedOutcome_eq hd', hid]
  have happend : resolvesOf rt d.disputeId (chain ++ more) =
      resolvesOf rt d.disputeId chain ++ resolvesOf rt d.disputeId more := by
    simp [resolvesOf]
  rw [happend, List.getLast?_append]
  cases hlast : (resolvesOf rt d.disputeId more).getLast? with
  | none => simpa [resolvedOutcome_eq hd] using hresolved
  | some r => simp [hmore r (List.mem_of_getLast? hlast)]

/-- An outcome that is flipped was flipped by a dispute that resolved as reversed. -/
theorem foldl_flip_ne {ds : List DisputeView} {original : String}
    (h : ds.foldl (fun current d =>
      if d.resolvedOutcome = some .reversed then flip current else current) original ≠ original) :
    ∃ d ∈ ds, d.resolvedOutcome = some .reversed := by
  induction ds with
  | nil => exact absurd rfl h
  | cons d ds ih =>
    by_cases hd : d.resolvedOutcome = some .reversed
    · exact ⟨d, List.mem_cons_self, hd⟩
    · rw [List.foldl_cons, if_neg hd] at h
      obtain ⟨e, he, hreversed⟩ := ih h
      exact ⟨e, List.mem_cons_of_mem _ he, hreversed⟩

theorem exists_reversed {original : String} (h : effectiveOutcome rt original m chain ≠ original) :
    ∃ d ∈ collectDisputes rt m chain, d.resolvedOutcome = some .reversed := by
  unfold effectiveOutcome at h
  split at h
  · exact foldl_flip_ne h
  · exact absurd rfl h

/-- A dispute on a chain to run examples on. -/
def disputeChain (resolves : List (String × Int)) : List PyVal :=
  chainEvent "dispute_open" "ana" 1 [("market_id", .str "m1"), ("dispute_id", .str "d1"),
      ("challenger_stake", .int 3), ("reason", .str "r")] ::
    resolves.map fun r => chainEvent "dispute_resolve" "bob" r.2
      [("dispute_id", .str "d1"), ("outcome", .str r.1)]

/-- Once a dispute is resolved, its outcome survives whatever disputes, stakes and resolves
    are appended. -/
def StaysResolved : Prop :=
  ∀ (rt : Runtime) (m : String) (chain more : List PyVal),
    (∀ ev ∈ dicts more, hasType "dispute_open" ev ∨ hasType "dispute_stake" ev ∨
      hasType "dispute_resolve" ev) →
    ∀ d ∈ collectDisputes rt m (dicts chain), ∀ o, d.resolvedOutcome = some o →
      ∀ d' ∈ collectDisputes rt m (dicts (chain ++ more)), d'.disputeId = d.disputeId →
        d'.resolvedOutcome = some o

/-- A market is flipped only by a dispute that the stakes before its resolve reversed. -/
def DecidedByStakes : Prop :=
  ∀ (rt : Runtime) (m original : String) (chain : List PyVal),
    effectiveOutcome rt original m (dicts chain) ≠ original →
    ∃ pre ev post, dicts chain = pre ++ ev :: post ∧ (readResolve rt ev).isSome ∧
      ∃ d ∈ collectDisputes rt m pre, computeDisputeOutcome d = .reversed

end

end Vincent.Economy
