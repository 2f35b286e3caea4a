-- SUMMARY: The market lifecycle: the status at a time never moves backwards.
import Vincent.Economy.Events

/-!
# Market lifecycle

The status of a market is computed from the first `prediction_create`, the first
`market_snapshot` and the first `resolution_finalize` of the market in hashchain
order. Appending events cannot change a first event, so the status only rises.
-/

namespace Vincent.Economy

open Vincent.Python

/-! ## Status -/

inductive MarketStatus where
  | predicting
  | evidence
  | resolving
  | final
  | invalid
deriving DecidableEq, Repr

/-- The windows of `CONFIG` that the lifecycle reads, with the ranges of `CONFIG_SCHEMA`. -/
structure PhaseConfig where
  evidenceWindowHours : Nat := 48
  resolutionWindowHours : Nat := 72
  evidence_range : 12 ≤ evidenceWindowHours ∧ evidenceWindowHours ≤ 168 := by decide
  resolution_range : 24 ≤ resolutionWindowHours ∧ resolutionWindowHours ≤ 336 := by decide

/-- `raw_timestamp in (None, "", 0, 0.0)`. -/
def absentTimestamp (v : PyVal) : Bool := v.eq .none || v.eq (.str "") || v.eq (.int 0)

def snapshotTime (rt : Runtime) (snapshot : Dict) : Option ℚ :=
  if hasValidOrdering rt snapshot then
    if absentTimestamp (Dict.get snapshot "timestamp") then
      finiteFloat rt (Dict.get (payload snapshot) "frozen_at")
    else finiteFloat rt (Dict.get snapshot "timestamp")
  else none

def evidenceClose (cfg : PhaseConfig) (snapshotTs : ℚ) : ℚ :=
  snapshotTs + cfg.evidenceWindowHours * 3600

/-- What the first create, finalize and snapshot of a market say at a time. -/
def statusOf (rt : Runtime) (cfg : PhaseConfig) (create finalize snapshot : Option Dict)
    (now : PyFloat) : MarketStatus :=
  match create.filter (hasValidOrdering rt) with
  | none => .predicting
  | some _ =>
    match finalize.filter (hasValidOrdering rt) with
    | some finalize =>
      if (Dict.get (payload finalize) "outcome").eq (.str "invalid") then .invalid else .final
    | none =>
      match snapshot.bind (snapshotTime rt) with
      | none => .predicting
      | some snapshotTs =>
        if now.lt (.finite (evidenceClose cfg snapshotTs)) then .evidence else .resolving

def computeMarketStatus (rt : Runtime) (cfg : PhaseConfig) (m : String) (chain : List PyVal)
    (now : PyFloat) : MarketStatus :=
  let events := eventsForMarket rt m (dicts chain)
  statusOf rt cfg (firstAuthoritativeEvent events "prediction_create")
    (firstAuthoritativeEvent events "resolution_finalize")
    (firstAuthoritativeEvent events "market_snapshot") now

/-- The phase advance that is due, from the current status to the next. -/
def shouldAdvancePhase (rt : Runtime) (cfg : PhaseConfig) (m : String) (chain : List PyVal)
    (now : PyFloat) : Option (MarketStatus × MarketStatus) :=
  let events := eventsForMarket rt m (dicts chain)
  match (firstAuthoritativeEvent events "prediction_create").filter (hasValidOrdering rt) with
  | none => none
  | some create =>
    match firstAuthoritativeEvent events "resolution_finalize" with
    | some _ => none
    | none =>
      match firstAuthoritativeEvent events "market_snapshot" with
      | none =>
        match finiteFloat rt (Dict.get (payload create) "trigger_date") with
        | some triggerDate =>
          if (PyFloat.finite triggerDate).le now then some (.predicting, .evidence) else none
        | none => none
      | some snapshot =>
        match snapshotTime rt snapshot with
        | none => none
        | some snapshotTs =>
          let close := evidenceClose cfg snapshotTs
          if now.lt (.finite close) then none
          else if now.lt (.finite (close + cfg.resolutionWindowHours * 3600)) then
            some (.evidence, .resolving)
          else some (.resolving, .final)

/-! ## Order -/

namespace MarketStatus

/-- The place of a status in `predicting < evidence < resolving < {final, invalid}`. -/
def phase : MarketStatus → Nat
  | .predicting => 0
  | .evidence => 1
  | .resolving => 2
  | .final => 3
  | .invalid => 3

/-- The market is decided. -/
def Terminal (s : MarketStatus) : Prop := s = .final ∨ s = .invalid

/-- A status may be followed by this one. -/
structure Before (s s' : MarketStatus) : Prop where
  phase_le : s.phase ≤ s'.phase
  terminal : s.Terminal → s' = s

theorem predicting_before (s : MarketStatus) : Before .predicting s where
  phase_le := Nat.zero_le _
  terminal h := by rcases h with h | h <;> cases h

theorem phase_le_three (s : MarketStatus) : s.phase ≤ 3 := by
  cases s <;> decide

/-- An undecided market may reach any status that is not earlier. -/
theorem before_of_open {s s' : MarketStatus} (hopen : ¬ s.Terminal) (h : s.phase ≤ s'.phase) :
    Before s s' :=
  ⟨h, fun hterminal => absurd hterminal hopen⟩

theorem before_refl (s : MarketStatus) : Before s s := ⟨le_refl _, fun _ => rfl⟩

end MarketStatus

/-! ## Monotonicity -/

/-- What comes before a finite time at a time comes before it at any earlier time. -/
theorem lt_of_le_of_lt_finite {x y : PyFloat} {q : ℚ} (hle : x.le y = true)
    (hlt : y.lt (.finite q) = true) : x.lt (.finite q) = true := by
  simp only [PyFloat.le, Bool.and_eq_true, bne_iff_ne, ne_eq, Bool.not_eq_true'] at hle
  obtain ⟨⟨hx, hy⟩, hle⟩ := hle
  have horder : ∀ a b : ℚ, decide (b < a) = false → decide (b < q) = true →
      decide (a < q) = true := by
    intro a b hba hbq
    simp only [decide_eq_false_iff_not, decide_eq_true_eq, not_lt] at *
    exact lt_of_le_of_lt hba hbq
  cases x <;> cases y <;> simp_all only [PyFloat.lt, PyFloat.rat?, Option.getD_some,
    reduceCtorEq, not_false_eq_true, not_true_eq_false]
  all_goals exact horder _ _ hle hlt

theorem firstAuthoritativeEvent_append (rt : Runtime) (m : String) (chain more : List PyVal)
    (t : String) :
    firstAuthoritativeEvent (eventsForMarket rt m (dicts (chain ++ more))) t =
      (firstAuthoritativeEvent (eventsForMarket rt m (dicts chain)) t).or
        (firstAuthoritativeEvent (eventsForMarket rt m (dicts more)) t) := by
  simp [firstAuthoritativeEvent, eventsForMarket, dicts, List.filterMap_append,
    List.filter_append, List.find?_append]

section Monotone

variable {rt : Runtime} {cfg : PhaseConfig} {now₁ now₂ : PyFloat}

/-- Without a usable finalize, the status is not terminal, and it rises with the time and
    with a snapshot. -/
theorem statusOf_before_open {create : Dict} (hcreate : hasValidOrdering rt create = true)
    {finalize snapshot : Option Dict} (hfinalize : finalize.filter (hasValidOrdering rt) = none)
    (hnow : now₁.le now₂ = true) (finalize' snapshot' : Option Dict) :
    (statusOf rt cfg (some create) finalize snapshot now₁).Before
      (statusOf rt cfg (some create) finalize' (snapshot.or snapshot') now₂) := by
  have hthen : (some create).filter (hasValidOrdering rt) = some create := by
    simp [Option.filter, hcreate]
  unfold statusOf
  simp only [hthen, hfinalize]
  cases hsnapshot : snapshot.bind (snapshotTime rt) with
  | none => exact MarketStatus.predicting_before _
  | some ts =>
    -- the first snapshot is there, so its time is the same in the longer chain
    have hsame : (snapshot.or snapshot').bind (snapshotTime rt) = some ts := by
      cases snapshot with
      | none => cases hsnapshot
      | some s => exact hsnapshot
    simp only [hsame]
    cases finalize'.filter (hasValidOrdering rt) with
    | some f =>
      apply MarketStatus.before_of_open
      · split <;> simp [MarketStatus.Terminal]
      · apply le_trans (MarketStatus.phase_le_three _)
        dsimp only
        split <;> rfl
    | none =>
      cases hlater : now₂.lt (.finite (evidenceClose cfg ts)) with
      | true =>
        simp only [lt_of_le_of_lt_finite hnow hlater, if_true]
        exact MarketStatus.before_refl _
      | false => split <;> apply MarketStatus.before_of_open <;>
          simp [MarketStatus.phase, MarketStatus.Terminal]

theorem statusOf_before (create finalize snapshot create' finalize' snapshot' : Option Dict)
    (hnow : now₁.le now₂ = true) :
    (statusOf rt cfg create finalize snapshot now₁).Before
      (statusOf rt cfg (create.or create') (finalize.or finalize') (snapshot.or snapshot') now₂) := by
  cases create with
  | none => exact MarketStatus.predicting_before _
  | some create =>
    cases hcreate : hasValidOrdering rt create with
    | false =>
      have hnone : (some create).filter (hasValidOrdering rt) = none := by
        simp [Option.filter, hcreate]
      simp only [statusOf, Option.some_or, hnone]
      exact MarketStatus.before_refl _
    | true =>
      cases hfinalize : finalize.filter (hasValidOrdering rt) with
      | none => exact statusOf_before_open hcreate hfinalize hnow _ _
      | some f =>
        have hsame : (finalize.or finalize').filter (hasValidOrdering rt) = some f := by
          cases finalize with
          | none => cases hfinalize
          | some g => exact hfinalize
        have hthen : (some create).filter (hasValidOrdering rt) = some create := by
          simp [Option.filter, hcreate]
        simp only [statusOf, Option.some_or, hthen, hsame, hfinalize]
        exact MarketStatus.before_refl _

end Monotone

end Vincent.Economy
