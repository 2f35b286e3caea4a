-- SUMMARY: Oracle reputation: mint, settlement, farming and decay.
import Vincent.Python.Float
import Vincent.Economy.ChainOrder
import Vincent.Economy.Dispute

/-!
# Oracle reputation

What a node has earned by its predictions, as a function of the chain, sorted by
timestamp and sequence. A function raises where the code does: on what is no number,
or where `int` or `float` overflows.

A chain is given by its dicts: every function skips the other entries.
-/

namespace Vincent.Economy

open Vincent.Python

/-- The values of `CONFIG` that the reputation of a node reads, with the ranges of
    `CONFIG_SCHEMA`. -/
structure RepConfig extends Config where
  oracleMinEarned : ℚ := 1 / 100
  farmingSoftThreshold : ℚ := 3 / 5
  farmingHardThreshold : ℚ := 4 / 5
  farmingEasyBetCutoff : ℚ := 4 / 5
  minMarketTotalStake : ℚ := 10
  governanceDecayDays : Nat := 90
  governanceDecayFactor : ℚ := 1 / 2
  minEarned_range : 1 / 1000 ≤ oracleMinEarned ∧ oracleMinEarned ≤ 1 := by
    first | exact RepConfig.std.minEarned_range | decide +kernel
  soft_range : 1 / 10 ≤ farmingSoftThreshold ∧ farmingSoftThreshold ≤ 95 / 100 := by
    first | exact RepConfig.std.soft_range | decide +kernel
  hard_range : 1 / 5 ≤ farmingHardThreshold ∧ farmingHardThreshold ≤ 99 / 100 := by
    first | exact RepConfig.std.hard_range | decide +kernel
  cutoff_range : 1 / 2 ≤ farmingEasyBetCutoff ∧ farmingEasyBetCutoff ≤ 99 / 100 := by
    first | exact RepConfig.std.cutoff_range | decide +kernel
  totalStake_range : 1 ≤ minMarketTotalStake ∧ minMarketTotalStake ≤ 1000 := by
    first | exact RepConfig.std.totalStake_range | decide +kernel
  decayDays_range : 7 ≤ governanceDecayDays ∧ governanceDecayDays ≤ 365 := by
    first | exact RepConfig.std.decayDays_range | decide
  decayFactor_range : 1 / 10 ≤ governanceDecayFactor ∧ governanceDecayFactor ≤ 99 / 100 := by
    first | exact RepConfig.std.decayFactor_range | decide +kernel

theorem signature_std : (1 / 20 : ℚ) ≤ 1 / 4 ∧ (1 / 4 : ℚ) ≤ 1 / 2 := by decide +kernel
theorem window_std : 1 ≤ 14 ∧ 14 ≤ 60 := by decide
theorem challenge_std : 12 ≤ 48 ∧ 48 ≤ 168 := by decide

def RepConfig.std : RepConfig where
  minEarned_range := by decide +kernel
  soft_range := by decide +kernel
  hard_range := by decide +kernel
  cutoff_range := by decide +kernel
  totalStake_range := by decide +kernel
  decayDays_range := by decide
  decayFactor_range := by decide +kernel

/-! ## Markets -/

/-- An entry of `m.predictions`. -/
structure Prediction where
  nodeId : PyVal
  side : PyVal
  stakeAmount : PyVal
  probabilityAtBet : PyVal
  timestamp : PyVal

/-- `_MarketView`, without the bootstrap index, which nothing reads. -/
structure MarketView where
  marketId : String
  marketType : String := "objective"
  snapshot : Option Dict := none
  finalize : Option Dict := none
  finalizeTs : PyFloat := .finite 0
  predictions : List Prediction := []

/-- The market that an event is about. -/
def marketKey (event : Dict) : Option String :=
  match Dict.get (payload event) "market_id" with
  | .str m => if m = "" then none else some m
  | _ => none

def readPrediction (event : Dict) : Prediction :=
  let p := payload event
  { nodeId := Dict.get event "node_id", side := Dict.get p "side",
    stakeAmount := Dict.get p "stake_amount", probabilityAtBet := Dict.get p "probability_at_bet",
    timestamp := Dict.get event "timestamp" }

/-- What an event of the market changes in its view. The sort has read the timestamp of every
    event, so that of a finalize can be read. -/
def MarketView.read (rt : Runtime) (event : Dict) (m : MarketView) : MarketView :=
  let p := payload event
  if hasType "prediction_create" event then
    { m with marketType := ((Dict.get p "market_type").or (.str "objective")).toStr rt }
  else if hasType "market_snapshot" event then { m with snapshot := some p }
  else if hasType "resolution_finalize" event then
    { m with finalize := some p, finalizeTs := (timestamp rt event).toOption.getD (.finite 0) }
  else if hasType "prediction_place" event then
    { m with predictions := m.predictions ++ [readPrediction event] }
  else m

/-- `int(p["bootstrap_index"])`, which nothing reads; what the `try` does not catch stops the
    index. -/
def readBootstrapIndex (rt : Runtime) (event : Dict) : Except String Unit :=
  match marketKey event, Dict.get (payload event) "bootstrap_index" with
  | none, _ | _, .none => .ok ()
  | some _, v =>
    if hasType "prediction_create" event then
      catching ["TypeError", "ValueError"] ((fun _ => ()) <$> pyInt rt v) ()
    else .ok ()

/-- The views of `_index_markets`, by market. -/
def marketViews (rt : Runtime) (events : List Dict) : OrderedMap String MarketView :=
  OrderedMap.fold marketKey (fun event held =>
    (held.getD { marketId := (marketKey event).getD "" }).read rt event) events []

def indexMarkets (rt : Runtime) (events : List Dict) : Except String (List MarketView) := do
  events.forM (readBootstrapIndex rt)
  return (marketViews rt events).values

def marketPassesLiquidity (rt : Runtime) (cfg : RepConfig) (market : MarketView) :
    Except String Bool :=
  let snap := market.snapshot.getD []
  catching ["TypeError", "ValueError"] (do
    let participants ← pyInt rt ((Dict.get snap "frozen_participant_count").or (.int 0))
    let totalStake ← pyFloat rt ((Dict.get snap "frozen_total_stake").or (.float (.finite 0)))
    return cfg.minMarketParticipants ≤ participants &&
      (PyFloat.finite cfg.minMarketTotalStake).le totalStake) false

/-- The outcome of a finalize that can mint: it is not provisional, and it is yes or no. -/
def finalOutcome (finalize : Dict) : Option String :=
  match Dict.get finalize "is_provisional", Dict.get finalize "outcome" with
  | .bool false, .str outcome => if outcome = "yes" ∨ outcome = "no" then some outcome else none
  | _, _ => none

/-- `_market_is_mintable`, with the outcome that was finalized. -/
def mintableOutcome (rt : Runtime) (cfg : RepConfig) (market : MarketView) :
    Except String (Option String) :=
  match market.finalize.bind finalOutcome with
  | none => .ok none
  | some outcome =>
    if market.marketType ≠ "objective" then .ok none
    else do
      let liquid ← marketPassesLiquidity rt cfg market
      return if liquid then some outcome else none

/-! ## Mint and settlement -/

/-- `float(prob)` where it is from 0 to 100. -/
def probability (rt : Runtime) (v : PyVal) : Except String (Option ℚ) :=
  match v with
  | .none => .ok none
  | v => do
    let prob ← catching ["TypeError", "ValueError"] (PyFloat.rat? <$> pyFloat rt v) none
    return prob.filter fun q => 0 ≤ q ∧ q ≤ 100

/-- What a free pick mints at a probability. -/
def mintAt (cfg : RepConfig) (prob : ℚ) : ℚ := max cfg.oracleMinEarned (1 - prob / 100)

def freePredMint (rt : Runtime) (cfg : RepConfig) (probabilityAtBet : PyVal) :
    Except String ℚ := do
  return ((← probability rt probabilityAtBet).map (mintAt cfg)).getD 0

/-- `"no" if outcome == "yes" else "yes"`. -/
def losingSide (outcome : String) : String := if outcome = "yes" then "no" else "yes"

/-- The winner pool and the loser pool. -/
structure Pools where
  winner : PyFloat := .finite 0
  loser : PyFloat := .finite 0

/-- `float(amt)` of a stake that counts. -/
def stakeOf (rt : Runtime) (pred : Prediction) : Except String (Option PyFloat) :=
  match pred.stakeAmount with
  | .none => .ok none
  | amt => do
    let a ← catching ["TypeError", "ValueError"] (some <$> pyFloat rt amt) none
    return a.filter fun a => !a.le (.finite 0)

def Pools.add (rt : Runtime) (outcome : String) (pools : Pools) (pred : Prediction) :
    Except String Pools := do
  match ← stakeOf rt pred with
  | none => return pools
  | some a =>
    if pred.side.eq (.str outcome) then return { pools with winner := pools.winner.add a }
    else if pred.side.eq (.str (losingSide outcome)) then
      return { pools with loser := pools.loser.add a }
    else return pools

/-- What a stake on the winning side returns. -/
def winnings (pools : Pools) (stake : PyFloat) : PyFloat :=
  if pools.winner.isZero || pools.loser.isZero then stake
  else stake.add ((stake.div pools.winner).mul pools.loser)

def stakedPredSettlement (rt : Runtime) (stakeAmount side : PyVal) (outcome : String)
    (predictions : List Prediction) : Except String PyFloat := do
  let pools ← predictions.foldlM (Pools.add rt outcome) {}
  if side.eq (.str outcome) then return winnings pools (← pyFloat rt stakeAmount)
  else if side.eq (.str (losingSide outcome)) then return (← pyFloat rt stakeAmount).neg
  else return .finite 0

/-! ## Farming -/

/-- The probability of the side that was picked. -/
def pickedSideProbability (rt : Runtime) (p : Dict) : Except String (Option ℚ) :=
  if (Dict.get p "side").inStrings ["yes", "no"] then do
    let pYes ← probability rt (Dict.get p "probability_at_bet")
    return pYes.map fun q => if (Dict.get p "side").eq (.str "yes") then q else 100 - q
  else .ok none

/-- `total` and `easy` of `compute_farming_pct`. -/
structure FarmingCount where
  total : Nat := 0
  easy : Nat := 0

def FarmingCount.add (rt : Runtime) (cfg : RepConfig) (nodeId : String) (count : FarmingCount)
    (event : Dict) : Except String FarmingCount :=
  if hasType "prediction_place" event && (Dict.get event "node_id").eq (.str nodeId) then do
    match ← pickedSideProbability rt (payload event) with
    | none => return count
    | some pickedP =>
      return { total := count.total + 1,
               easy := if cfg.farmingEasyBetCutoff * 100 < pickedP then count.easy + 1
                 else count.easy }
  else .ok count

def computeFarmingPct (rt : Runtime) (cfg : RepConfig) (nodeId : String) (chain : List Dict) :
    Except String ℚ :=
  if nodeId = "" then .ok 0
  else do
    let count ← chain.foldlM (FarmingCount.add rt cfg nodeId) {}
    return if count.total = 0 then 0 else count.easy / count.total

def farmingMultiplier (cfg : RepConfig) (farmingPct : ℚ) : ℚ :=
  if cfg.farmingHardThreshold < farmingPct then 1 / 10
  else if cfg.farmingSoftThreshold < farmingPct then 1 / 2
  else 1

/-! ## Reputation -/

/-- The loop variables of `compute_oracle_rep_breakdown`. -/
structure Earned where
  freeMint : PyFloat := .finite 0
  stakedReturn : PyFloat := .finite 0
  stakedLoss : PyFloat := .finite 0
deriving DecidableEq

/-- One prediction of a market with an outcome. -/
def Earned.credit (rt : Runtime) (cfg : RepConfig) (nodeId : String) (farmingMult : ℚ)
    (outcome : String) (predictions : List Prediction) (earned : Earned) (pred : Prediction) :
    Except String Earned :=
  if !pred.nodeId.eq (.str nodeId) then .ok earned
  else match pred.stakeAmount with
  | .none =>
    if pred.side.eq (.str outcome) then do
      let mint ← freePredMint rt cfg pred.probabilityAtBet
      return { earned with freeMint := earned.freeMint.add (.finite (mint * farmingMult)) }
    else .ok earned
  | stake => do
    let delta ← stakedPredSettlement rt stake pred.side outcome predictions
    if (PyFloat.finite 0).le delta then
      return { earned with stakedReturn := earned.stakedReturn.add delta }
    else return { earned with stakedLoss := earned.stakedLoss.add delta.neg }

/-- One market. -/
def Earned.creditMarket (rt : Runtime) (cfg : RepConfig) (nodeId : String) (farmingMult : ℚ)
    (events : List Dict) (earned : Earned) (market : MarketView) : Except String Earned := do
  match ← mintableOutcome rt cfg market with
  | none => return earned
  | some original =>
    market.predictions.foldlM (Earned.credit rt cfg nodeId farmingMult
      (effectiveOutcome rt original market.marketId events) market.predictions) earned

structure OracleRepBreakdown where
  freePredictionMints : PyFloat
  stakedPredictionReturns : PyFloat
  stakedPredictionLosses : PyFloat
  total : PyFloat
deriving DecidableEq

def Earned.breakdown (earned : Earned) : OracleRepBreakdown :=
  let total := (earned.freeMint.add earned.stakedReturn).sub earned.stakedLoss
  { freePredictionMints := earned.freeMint, stakedPredictionReturns := earned.stakedReturn,
    stakedPredictionLosses := earned.stakedLoss,
    total := if total.lt (.finite 0) then .finite 0 else total }

/-- The breakdown over the sorted events. -/
def breakdownOf (rt : Runtime) (cfg : RepConfig) (nodeId : String) (events : List Dict) :
    Except String OracleRepBreakdown := do
  let markets ← indexMarkets rt events
  let farmingPct ← computeFarmingPct rt cfg nodeId events
  let earned ← markets.foldlM
    (Earned.creditMarket rt cfg nodeId (farmingMultiplier cfg farmingPct) events) {}
  return earned.breakdown

def computeOracleRepBreakdown (rt : Runtime) (cfg : RepConfig) (nodeId : String)
    (chain : List Dict) : Except String OracleRepBreakdown := do
  breakdownOf rt cfg nodeId (← sortEvents rt chain)

def computeOracleRep (rt : Runtime) (cfg : RepConfig) (nodeId : String) (chain : List Dict) :
    Except String PyFloat := do
  return (← computeOracleRepBreakdown rt cfg nodeId chain).total

def computeOracleRepLifetime (rt : Runtime) (cfg : RepConfig) (nodeId : String)
    (chain : List Dict) : Except String PyFloat := do
  let bd ← computeOracleRepBreakdown rt cfg nodeId chain
  return bd.freePredictionMints.add bd.stakedPredictionReturns

/-- `best_ts` after one more correct prediction. -/
def laterTs (ts : PyFloat) : Option PyFloat → PyFloat
  | none => ts
  | some best => if best.lt ts then ts else best

/-- One prediction of a market with an outcome. -/
def visitSuccess (rt : Runtime) (nodeId outcome : String) (finalizeTs : PyFloat)
    (best : Option PyFloat) (pred : Prediction) : Except String (Option PyFloat) :=
  if !pred.nodeId.eq (.str nodeId) || !pred.side.eq (.str outcome) then .ok best
  else do
    let ts ← pyFloat rt (pred.timestamp.or (.float (.finite 0)))
    return some (laterTs (ts.max finalizeTs) best)

/-- One market. -/
def visitMarketSuccess (rt : Runtime) (cfg : RepConfig) (nodeId : String) (events : List Dict)
    (best : Option PyFloat) (market : MarketView) : Except String (Option PyFloat) := do
  match ← mintableOutcome rt cfg market with
  | none => return best
  | some original =>
    market.predictions.foldlM (visitSuccess rt nodeId
      (effectiveOutcome rt original market.marketId events) market.finalizeTs) best

/-- The last success over the sorted events. -/
def lastSuccessOf (rt : Runtime) (cfg : RepConfig) (nodeId : String) (events : List Dict) :
    Except String (Option PyFloat) := do
  let markets ← indexMarkets rt events
  markets.foldlM (visitMarketSuccess rt cfg nodeId events) none

def lastSuccessfulPredictionTs (rt : Runtime) (cfg : RepConfig) (nodeId : String)
    (chain : List Dict) : Except String (Option PyFloat) := do
  lastSuccessOf rt cfg nodeId (← sortEvents rt chain)

/-! ## Governance weight -/

/-- `math.floor(x)`. -/
def floor (x : PyFloat) : Except String Int :=
  match x with
  | .nan => .error "ValueError"
  | .inf | .negInf => .error "OverflowError"
  | x => .ok ⌊x.rat?.getD 0⌋

/-- `decay_factor_for_age` of an age. -/
def decayFactorForAge (cfg : RepConfig) (daysSinceSuccess : PyFloat) : Except String ℚ :=
  if !(0 < cfg.governanceDecayFactor ∧ cfg.governanceDecayFactor < 1) then
    .ok (if daysSinceSuccess.le (.finite cfg.governanceDecayDays) then 1 else 0)
  else if daysSinceSuccess.le (.finite cfg.governanceDecayDays) then .ok 1
  else do
    let decayPeriods ← floor (daysSinceSuccess.div (.finite cfg.governanceDecayDays))
    return cfg.governanceDecayFactor ^ decayPeriods

def computeOracleRepActive (rt : Runtime) (cfg : RepConfig) (nodeId : String) (chain : List Dict)
    (now : PyFloat) : Except String PyFloat := do
  let balance ← computeOracleRep rt cfg nodeId chain
  if balance.le (.finite 0) then return .finite 0
  match ← lastSuccessfulPredictionTs rt cfg nodeId chain with
  | none => return .finite 0
  | some lastTs =>
    let days := (PyFloat.finite 0).max ((now.sub lastTs).div (.finite 86400))
    return balance.mul (.finite (← decayFactorForAge cfg days))

/-! ## A market to run examples on -/

def placeEvent (nodeId : String) (sequence : Int) (side : String) (prob : Int) (stake : PyVal) :
    PyVal :=
  chainEvent "prediction_place" nodeId sequence [("market_id", .str "m1"), ("side", .str side),
    ("probability_at_bet", .int prob), ("stake_amount", stake)]

def snapshotEvent (sequence : Int) (yes no : Int) : PyVal :=
  chainEvent "market_snapshot" "ana" sequence [("market_id", .str "m1"),
    ("frozen_participant_count", .int 5), ("frozen_total_stake", .int 10),
    ("frozen_predictor_ids", .list [.str "bob"]),
    ("frozen_probability_state", .dict [("yes", .int yes), ("no", .int no)]),
    ("frozen_at", .int (1700000000 + sequence))]

def finalizeEvent (sequence : Int) (outcome : String) : PyVal :=
  chainEvent "resolution_finalize" "ana" sequence [("market_id", .str "m1"),
    ("outcome", .str outcome), ("is_provisional", .bool false),
    ("snapshot_event_hash", .str "h1")]

/-- A market with the given predictions, finalized as yes. -/
def finalizedMarket (predictions : List PyVal) : List PyVal :=
  chainEvent "prediction_create" "ana" 1 [("market_id", .str "m1"),
    ("market_type", .str "objective"), ("question", .str "q"), ("trigger_date", .int 1),
    ("creation_bond", .int 3)] ::
  predictions ++ [snapshotEvent 10 50 50, finalizeEvent 20 "yes"]

end Vincent.Economy
