-- SUMMARY: The advised phase advance against the computed status.
import Vincent.Economy.Lifecycle

/-!
# Phase advice

`should_advance_phase` and `compute_market_status` agree but between the closes of the
evidence window and the resolution window, where the status is `RESOLVING` already and
the advice still is to advance there.
-/

namespace Vincent.Economy

open Vincent.Python

/-- The status that follows another, where `RESOLVING` is followed by `FINAL` or `INVALID`. -/
inductive MarketStatus.Successor : MarketStatus → MarketStatus → Prop where
  | evidence : Successor .predicting .evidence
  | resolving : Successor .evidence .resolving
  | final : Successor .resolving .final
  | invalid : Successor .resolving .invalid

/-- What the producer appends when an advance is due, and the status that it is for. The advance
    to `RESOLVING` is no event, and a finalize may call the market invalid. -/
inductive Emits (rt : Runtime) (m : String) (now : PyFloat) :
    MarketStatus → List PyVal → MarketStatus → Prop where
  | snapshot {event : Dict} {ts : ℚ} (hmarket : marketId rt event = m)
      (htype : hasType "market_snapshot" event = true) (htime : snapshotTime rt event = some ts)
      (hnow : now.rat? = some ts) : Emits rt m now .evidence [.dict event] .evidence
  | nothing : Emits rt m now .resolving [] .resolving
  | finalize {event : Dict} (hmarket : marketId rt event = m)
      (htype : hasType "resolution_finalize" event = true)
      (hordering : hasValidOrdering rt event = true)
      (houtcome : (Dict.get (payload event) "outcome").eq (.str "invalid") = false) :
      Emits rt m now .final [.dict event] .final
  | finalizeInvalid {event : Dict} (hmarket : marketId rt event = m)
      (htype : hasType "resolution_finalize" event = true)
      (hordering : hasValidOrdering rt event = true)
      (houtcome : (Dict.get (payload event) "outcome").eq (.str "invalid") = true) :
      Emits rt m now .final [.dict event] .invalid

/-- The three events that decide the phase of a market. -/
structure PhaseEvents where
  create : Option Dict
  finalize : Option Dict
  snapshot : Option Dict

def phaseEvents (rt : Runtime) (m : String) (chain : List PyVal) : PhaseEvents where
  create := firstAuthoritativeEvent (eventsForMarket rt m (dicts chain)) "prediction_create"
  finalize := firstAuthoritativeEvent (eventsForMarket rt m (dicts chain)) "resolution_finalize"
  snapshot := firstAuthoritativeEvent (eventsForMarket rt m (dicts chain)) "market_snapshot"

section

variable {rt : Runtime} {cfg : PhaseConfig} {m : String} {chain : List PyVal} {now : PyFloat}
  {current next : MarketStatus}

/-- Every way to an advice: the market is open, and it has no snapshot and its trigger date has
    passed, or it has one whose evidence window is over. -/
theorem shouldAdvancePhase_cases (h : shouldAdvancePhase rt cfg m chain now = some (current, next)) :
    ∃ create, (phaseEvents rt m chain).create = some create ∧ hasValidOrdering rt create = true ∧
      (phaseEvents rt m chain).finalize = none ∧
      (((phaseEvents rt m chain).snapshot = none ∧ current = .predicting ∧ next = .evidence) ∨
        ∃ snapshot ts, (phaseEvents rt m chain).snapshot = some snapshot ∧
          snapshotTime rt snapshot = some ts ∧ now.lt (.finite (evidenceClose cfg ts)) = false ∧
          (current = .evidence ∧ next = .resolving ∨ current = .resolving ∧ next = .final)) := by
  unfold shouldAdvancePhase at h
  dsimp only [phaseEvents] at *
  split at h
  · cases h
  rename_i create hcreate
  obtain ⟨hcreate, hordering⟩ := Option.filter_eq_some_iff.mp hcreate
  split at h
  · cases h
  rename_i hfinalize
  refine ⟨create, hcreate, hordering, hfinalize, ?_⟩
  split at h
  · rename_i hsnapshot
    split at h
    · split at h
      · cases h
        exact Or.inl ⟨hsnapshot, rfl, rfl⟩
      · cases h
    · cases h
  · rename_i snapshot hsnapshot
    split at h
    · cases h
    rename_i ts hts
    split at h
    · cases h
    rename_i hclose
    refine Or.inr ⟨snapshot, ts, hsnapshot, hts, Bool.not_eq_true _ ▸ hclose, ?_⟩
    split at h
    · cases h
      exact Or.inl ⟨rfl, rfl⟩
    · cases h
      exact Or.inr ⟨rfl, rfl⟩

theorem computeMarketStatus_eq : computeMarketStatus rt cfg m chain now =
    statusOf rt cfg (phaseEvents rt m chain).create (phaseEvents rt m chain).finalize
      (phaseEvents rt m chain).snapshot now := rfl

theorem computeMarketStatus_concat {event : Dict} (hmarket : marketId rt event = m) :
    computeMarketStatus rt cfg m (chain ++ [.dict event]) now =
      statusOf rt cfg
        ((phaseEvents rt m chain).create.or (firstAuthoritativeEvent [event] "prediction_create"))
        ((phaseEvents rt m chain).finalize.or (firstAuthoritativeEvent [event] "resolution_finalize"))
        ((phaseEvents rt m chain).snapshot.or (firstAuthoritativeEvent [event] "market_snapshot"))
        now := by
  have hone : eventsForMarket rt m (dicts [.dict event]) = [event] := by
    simp [eventsForMarket, dicts, hmarket]
  unfold computeMarketStatus
  simp only [firstAuthoritativeEvent_append, hone]
  rfl

theorem statusOf_open {create : Dict} (hcreate : hasValidOrdering rt create = true)
    (snapshot : Option Dict) : statusOf rt cfg (some create) none snapshot now =
      match snapshot.bind (snapshotTime rt) with
      | none => .predicting
      | some ts => if now.lt (.finite (evidenceClose cfg ts)) then .evidence else .resolving := by
  have hopen : (some create).filter (hasValidOrdering rt) = some create := if_pos hcreate
  unfold statusOf
  rw [hopen]
  rfl

theorem statusOf_finalized {create finalize : Dict} (hcreate : hasValidOrdering rt create = true)
    (hfinalize : hasValidOrdering rt finalize = true) (snapshot : Option Dict) :
    statusOf rt cfg (some create) (some finalize) snapshot now =
      if (Dict.get (payload finalize) "outcome").eq (.str "invalid") then .invalid else .final := by
  simp [statusOf, Option.filter, hcreate, hfinalize]

theorem firstAuthoritativeEvent_single {event : Dict} {t : String} (h : hasType t event = true) :
    firstAuthoritativeEvent [event] t = some event := by
  simp [firstAuthoritativeEvent, h]

theorem firstAuthoritativeEvent_other {event : Dict} {t t' : String} (h : hasType t event = true)
    (hne : t ≠ t') : firstAuthoritativeEvent [event] t' = none := by
  simp [firstAuthoritativeEvent, hasType_ne h hne]

/-- The evidence window is not over when it opens. -/
theorem lt_evidenceClose {ts : ℚ} (hnow : now.rat? = some ts) :
    now.lt (.finite (evidenceClose cfg ts)) = true := by
  rw [PyFloat.lt_rat hnow rfl]
  have hwindow : (12 : ℚ) ≤ cfg.evidenceWindowHours := by exact_mod_cast cfg.evidence_range.1
  unfold evidenceClose
  linarith

end

def phaseEvent (eventType : String) (timestamp sequence : Int) (fields : Dict) : PyVal :=
  .dict [("event_type", .str eventType), ("timestamp", .int timestamp), ("sequence", .int sequence),
    ("payload", .dict (("market_id", .str "m1") :: fields))]

/-- A market with a snapshot at 200, whose evidence window closes at 173000. -/
def frozenMarket : List PyVal :=
  [phaseEvent "prediction_create" 100 1 [("trigger_date", .int 200)], phaseEvent "market_snapshot" 200 2 []]

end Vincent.Economy
