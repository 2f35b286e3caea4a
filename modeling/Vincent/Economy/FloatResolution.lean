-- SUMMARY: Market resolution on floats, infinities included.
import Vincent.Python.Float
import Vincent.Economy.Resolution

/-!
# Market resolution on floats

The resolution of a market where an infinite stake or bond runs through the sums,
quotients and comparisons as it does in Python. Where a conversion raises, the
resolution does. Finite amounts are exact.
-/

namespace Vincent.Economy.FloatResolution

open Vincent.Python

/-- `float(v) if v is not None else 0.0`, or `none` where the code catches the exception. -/
def amountOf (rt : Runtime) (v : PyVal) : Except String (Option PyFloat) :=
  match v with
  | .none => .ok (some (.finite 0))
  | v => catching ["TypeError", "ValueError"] (some <$> pyFloat rt v) none

/-- `sum(amounts)`. -/
def total (amounts : List PyFloat) : PyFloat := amounts.foldl PyFloat.add (.finite 0)

/-- `min(x, y)`, which keeps the first where the second is not less. -/
def minOf (x y : PyFloat) : PyFloat := if y.lt x then y else x

section Amounts

variable {κ α : Type} [DecidableEq κ]

/-- `amounts[k] = amounts.get(k, 0.0) + x`. -/
def addTo (k : κ) (x : PyFloat) : List (κ × PyFloat) → List (κ × PyFloat)
  | [] => [(k, (PyFloat.finite 0).add x)]
  | (k', y) :: amounts => if k' = k then (k', y.add x) :: amounts else (k', y) :: addTo k x amounts

def addAll (key : α → κ) (amount : α → PyFloat) (xs : List α) (amounts : List (κ × PyFloat)) :
    List (κ × PyFloat) :=
  xs.foldl (fun amounts x => addTo (key x) (amount x) amounts) amounts

end Amounts

/-! ## Evidence -/

structure EvidenceBundle where
  nodeId : String
  marketId : String
  claimedOutcome : Outcome
  evidenceHashes : List String
  sourceDescription : String
  bond : PyFloat
  timestamp : PyFloat
  sequence : Int
  contentHash : String
  submissionHash : String
  isFirstForSide : Bool

/-- The loop variables of `collect_evidence`. -/
structure EvidenceScan where
  yes : SideSeen := {}
  no : SideSeen := {}
  bundles : List EvidenceBundle := []

def EvidenceScan.side (scan : EvidenceScan) : Outcome → SideSeen
  | .yes => scan.yes
  | .no => scan.no

def EvidenceScan.push (scan : EvidenceScan) (outcome : Outcome) (seen : SideSeen)
    (bundle : EvidenceBundle) : EvidenceScan :=
  match outcome with
  | .yes => { scan with yes := seen, bundles := scan.bundles ++ [bundle] }
  | .no => { scan with no := seen, bundles := scan.bundles ++ [bundle] }

/-- One round of the loop of `collect_evidence`. -/
def EvidenceScan.visit (env : Env) (m : String) (scan : EvidenceScan) (event : Dict) :
    Except String EvidenceScan := do
  let p := payload event
  match Dict.get event "node_id", Outcome.ofVal? (Dict.get p "claimed_outcome"),
      (Dict.get p "evidence_hashes").or (.list []) with
  | .str nodeId, some outcome, .list hashes =>
    if nodeId = "" then return scan
    let hashes := hashes.map (PyVal.toStr env.rt)
    let sourceDescription := Dict.text env.rt p "source_description"
    let bond := (← amountOf env.rt (Dict.get p "bond")).getD (.finite 0)
    let ts ← timestamp env.rt event
    let seq ← sequence env.rt event
    let contentHash := (Dict.get p "evidence_content_hash").or
      (.str (evidenceContentHash env m outcome hashes sourceDescription))
    let submission := (Dict.get p "submission_hash").or
      (.str (submissionHash env (contentHash.toStr env.rt) nodeId ts))
    if !hashable contentHash then throw "TypeError"
    let seen := scan.side outcome
    let isFirst := !(seen.content.any fun c => c.eq contentHash) && !seen.firstSet
    return scan.push outcome
      { content := contentHash :: seen.content, firstSet := seen.firstSet || isFirst }
      { nodeId, marketId := m, claimedOutcome := outcome, evidenceHashes := hashes,
        sourceDescription, bond, timestamp := ts, sequence := seq,
        contentHash := contentHash.toStr env.rt, submissionHash := submission.toStr env.rt,
        isFirstForSide := isFirst }
  | _, _, _ => return scan

def collectEvidence (env : Env) (m : String) (chain : List Dict) :
    Except String (List EvidenceBundle) := do
  let events ← (chain.filter fun ev => hasType "evidence_submit" ev && forMarket m ev).mapM
    (keyed env.rt)
  let scan ← (events.insertionSort fun a b => chainOrder a.1 b.1).foldlM
    (fun scan ev => EvidenceScan.visit env m scan ev.2) {}
  return scan.bundles

/-! ## Resolution stakes -/

structure ResolutionStake where
  nodeId : String
  side : Side
  amount : PyFloat
  repType : RepType
  timestamp : PyFloat
  sequence : Int

def ResolutionStake.key (s : ResolutionStake) : StakeKey := (s.nodeId, s.repType)

/-- One round of the loop of `collect_resolution_stakes`. -/
def readStake (rt : Runtime) (excluded : List String) (m : String) (event : Dict) :
    Except String (Option ResolutionStake) := do
  let p := payload event
  if !(hasType "resolution_stake" event && forMarket m event) then return none
  match Dict.get event "node_id", Side.ofVal? (Dict.get p "side") with
  | .str nodeId, some side =>
    if nodeId = "" ∨ nodeId ∈ excluded then return none
    match ← amountOf rt (Dict.get p "amount") with
    | none => return none
    | some amount =>
      if amount.le (.finite 0) then return none
      match RepType.ofVal? (Dict.get p "rep_type") with
      | none => return none
      | some repType =>
        let ts ← timestamp rt event
        let seq ← sequence rt event
        return some { nodeId, side, amount, repType, timestamp := ts, sequence := seq }
  | _, _ => return none

def collectResolutionStakes (rt : Runtime) (m : String) (chain : List Dict)
    (excludePredictors : Bool := true) : Except String (List ResolutionStake) := do
  let excluded ← if excludePredictors then excludedPredictorIds rt m chain else pure []
  let out ← chain.filterMapM (readStake rt excluded m)
  return out.insertionSort fun a b => chainOrder (a.timestamp, a.sequence) (b.timestamp, b.sequence)

/-- What the stakes that satisfy `p` amount to. -/
def staked (p : ResolutionStake → Bool) (stakes : List ResolutionStake) : PyFloat :=
  total ((stakes.filter p).map ResolutionStake.amount)

/-- What the bonds of the bundles that satisfy `p` amount to. -/
def bonded (p : EvidenceBundle → Bool) (bundles : List EvidenceBundle) : PyFloat :=
  total ((bundles.filter p).map EvidenceBundle.bond)

/-! ## Burns -/

/-- `split_burn_and_return`: the part burned and the part returned. -/
def splitBurnAndReturn (amount : PyFloat) (pct : ℚ) : PyFloat × PyFloat :=
  match amount.rat? with
  | none => (.finite 0, .finite 0)
  | some amt =>
    if amt ≤ 0 then (.finite 0, .finite 0)
    else if pct ≤ 0 then (.finite 0, .finite amt)
    else if 1 ≤ pct then (.finite amt, .finite 0)
    else (.finite (amt * pct), .finite (amt - amt * pct))

/-- One round of the loop of `apply_to_stakes`. -/
def burnStake (pct : ℚ) (acc : List (StakeKey × PyFloat) × PyFloat) (s : ResolutionStake) :
    List (StakeKey × PyFloat) × PyFloat :=
  match s.amount.rat? with
  | none => acc
  | some amt =>
    if amt ≤ 0 then acc
    else
      let split := splitBurnAndReturn (.finite amt) pct
      (if (PyFloat.finite 0).lt split.2 then addTo s.key split.2 acc.1 else acc.1, acc.2.add split.1)

/-- `apply_to_stakes`: the returns, and the total burned. -/
def applyToStakes (pct : ℚ) (stakes : List ResolutionStake) : List (StakeKey × PyFloat) × PyFloat :=
  stakes.foldl (burnStake pct) ([], .finite 0)

def isDataUnavailableTriggered (cfg : Config) (stakes : List ResolutionStake) : Bool :=
  let oracleAll := staked (fun s => s.repType = .oracle) stakes
  let oracleDa := staked (fun s => s.side = .dataUnavailable ∧ s.repType = .oracle) stakes
  !oracleAll.le (.finite 0) &&
    (PyFloat.finite cfg.dataUnavailableThreshold).le (oracleDa.div oracleAll)

structure DataUnavailableEffects where
  stakeReturns : List (StakeKey × PyFloat)
  bondForfeits : List (String × PyFloat)
  burned : PyFloat

def resolveDataUnavailableEffects (cfg : Config) (stakes : List ResolutionStake)
    (bundles : List EvidenceBundle) : DataUnavailableEffects :=
  let daStakes := stakes.filter fun s => s.side = .dataUnavailable
  let otherStakes := stakes.filter fun s => s.side ≠ .dataUnavailable
  let returned := addAll ResolutionStake.key ResolutionStake.amount
    (daStakes.filter fun s => !s.amount.le (.finite 0)) []
  let burn := applyToStakes cfg.resolutionStalemateBurnPct otherStakes
  let slashed := bundles.filter fun b => (PyFloat.finite 0).lt b.bond
  { stakeReturns := addAll Prod.fst Prod.snd burn.1 returned
    bondForfeits := addAll EvidenceBundle.nodeId EvidenceBundle.bond slashed []
    burned := (slashed.map EvidenceBundle.bond).foldl PyFloat.add ((PyFloat.finite 0).add burn.2) }

/-! ## The result -/

structure ResolutionResult where
  marketId : String
  outcome : MarketOutcome
  isProvisional : Bool
  reason : String
  bondReturns : List (String × PyFloat) := []
  bondForfeits : List (String × PyFloat) := []
  firstSubmitterBonuses : List (String × PyFloat) := []
  stakeReturns : List (StakeKey × PyFloat) := []
  stakeWinnings : List (StakeKey × PyFloat) := []
  burnedAmount : PyFloat := .finite 0

namespace ResolutionResult

/-- A result before any effect is folded in. -/
@[simps] def start (m : String) (outcome : MarketOutcome) (isProvisional : Bool) (reason : String) :
    ResolutionResult :=
  { marketId := m, outcome, isProvisional, reason }

@[simps] def returnStakes (r : ResolutionResult) (stakes : List ResolutionStake) : ResolutionResult :=
  { r with stakeReturns := addAll ResolutionStake.key ResolutionStake.amount stakes r.stakeReturns }

@[simps] def returnBonds (r : ResolutionResult) (bundles : List EvidenceBundle) : ResolutionResult :=
  { r with bondReturns := addAll EvidenceBundle.nodeId EvidenceBundle.bond bundles r.bondReturns }

@[simps] def forfeitBond (r : ResolutionResult) (b : EvidenceBundle) : ResolutionResult :=
  { r with bondForfeits := addTo b.nodeId b.bond r.bondForfeits }

end ResolutionResult

def supermajorityWinner (yes no : PyFloat) (threshold : ℚ) : Option Outcome :=
  if (yes.add no).le (.finite 0) then none
  else if (PyFloat.finite threshold).le (yes.div (yes.add no)) then some .yes
  else if (PyFloat.finite threshold).le (no.div (yes.add no)) then some .no
  else none

/-! ## Bootstrap markets -/

/-- A bond of a decided bootstrap market. -/
def settleBootstrapBond (winningSide : Outcome) (r : ResolutionResult) (b : EvidenceBundle) :
    ResolutionResult :=
  if b.claimedOutcome = winningSide then r.returnBonds [b] else r.forfeitBond b

/-- Step 0.5 of `resolve_market`, from the eligible votes on. -/
def resolveBootstrap (cfg : Config) (m : String) (isProvisional : Bool)
    (bundles : List EvidenceBundle) (votes : List Outcome) : ResolutionResult :=
  let invalid (reason : String) : ResolutionResult :=
    (ResolutionResult.start m .invalid isProvisional reason).returnBonds bundles
  if votes.length < cfg.minMarketParticipants then invalid "bootstrap_below_min_participation"
  else match voteWinner cfg votes with
  | none => invalid "bootstrap_no_supermajority"
  | some winningSide =>
    if bundles.all (fun b => b.claimedOutcome ≠ winningSide) then invalid "no_winning_side_evidence"
    else bundles.foldl (settleBootstrapBond winningSide) (ResolutionResult.start m
      (.decided winningSide) isProvisional ("bootstrap_supermajority_" ++ winningSide.text))

/-! ## Staked markets -/

/-- Step 3 for one rep type. -/
def distribute (burnPct : ℚ) (winningSide : Outcome) (stakes : List ResolutionStake)
    (r : ResolutionResult) (repType : RepType) : ResolutionResult :=
  let winners := stakes.filter fun s => s.side = .outcome winningSide ∧ s.repType = repType
  let losers := stakes.filter fun s =>
    s.side ≠ .outcome winningSide ∧ s.side ≠ .dataUnavailable ∧ s.repType = repType
  let winnerPool := total (winners.map ResolutionStake.amount)
  let loserPool := total (losers.map ResolutionStake.amount)
  let r := r.returnStakes winners
  let r := r.returnStakes (stakes.filter fun s => s.repType = repType ∧ s.side = .dataUnavailable)
  if winnerPool.isZero || loserPool.isZero then r
  else
    let burnAmt := loserPool.mul (.finite burnPct)
    let distributable := loserPool.sub burnAmt
    { r with
      burnedAmount := r.burnedAmount.add burnAmt
      stakeWinnings := addAll ResolutionStake.key
        (fun s => (s.amount.div winnerPool).mul distributable) winners r.stakeWinnings }

/-- Step 4 for one bundle, with the bonus budget that is left. -/
def settleBond (bonus : ℚ) (winningSide : Outcome) (st : ResolutionResult × PyFloat)
    (b : EvidenceBundle) : ResolutionResult × PyFloat :=
  let (r, budget) := st
  if b.claimedOutcome = winningSide then
    let r := r.returnBonds [b]
    if b.isFirstForSide && (PyFloat.finite 0).lt budget then
      let bonusAmt := minOf (.finite bonus) budget
      if (PyFloat.finite 0).lt bonusAmt then
        ({ r with firstSubmitterBonuses := addTo b.nodeId bonusAmt r.firstSubmitterBonuses },
          budget.sub bonusAmt)
      else (r, budget)
    else (r, budget)
  else (r.forfeitBond b, budget)

/-- Steps 3 and 4 of `resolve_market`. -/
def settle (cfg : Config) (m : String) (isProvisional : Bool) (winningSide : Outcome)
    (stakes : List ResolutionStake) (bundles : List EvidenceBundle) : ResolutionResult :=
  let r := ResolutionResult.start m (.decided winningSide) isProvisional
    ("supermajority_" ++ winningSide.text)
  let r := [RepType.oracle, .common].foldl
    (distribute cfg.resolutionLoserBurnPct winningSide stakes) r
  let losingBondPool := bonded (fun b => b.claimedOutcome ≠ winningSide) bundles
  let (r, bonusBudget) := bundles.foldl (settleBond cfg.evidenceFirstBonus winningSide)
    (r, losingBondPool)
  { r with burnedAmount := r.burnedAmount.add bonusBudget }

/-- The oracle reputation staked on an outcome. -/
def oracleOn (o : Outcome) (stakes : List ResolutionStake) : PyFloat :=
  staked (fun s => s.side = .outcome o ∧ s.repType = .oracle) stakes

/-- Steps 1.5 to 4 of `resolve_market`. -/
def resolveStaked (cfg : Config) (m : String) (isProvisional : Bool)
    (stakes : List ResolutionStake) (bundles : List EvidenceBundle) : ResolutionResult :=
  let invalid (reason : String) := ResolutionResult.start m .invalid isProvisional reason
  if isDataUnavailableTriggered cfg stakes then
    let effects := resolveDataUnavailableEffects cfg stakes bundles
    { invalid "data_unavailable" with
      stakeReturns := addAll Prod.fst Prod.snd effects.stakeReturns []
      bondForfeits := addAll Prod.fst Prod.snd effects.bondForfeits []
      burnedAmount := (PyFloat.finite 0).add effects.burned }
  else if ((oracleOn .yes stakes).add (oracleOn .no stakes)).lt
      (.finite cfg.minResolutionStakeTotal) then
    ((invalid "below_min_resolution_stake").returnStakes stakes).returnBonds bundles
  else match supermajorityWinner (oracleOn .yes stakes) (oracleOn .no stakes)
      cfg.resolutionSupermajority with
  | none =>
    let burn := applyToStakes cfg.resolutionStalemateBurnPct stakes
    { invalid "no_supermajority" with
      stakeReturns := addAll Prod.fst Prod.snd burn.1 []
      burnedAmount := (PyFloat.finite 0).add burn.2 }.returnBonds bundles
  | some winningSide =>
    if bundles.all (fun b => b.claimedOutcome ≠ winningSide) then
      ((invalid "no_winning_side_evidence").returnStakes stakes).returnBonds bundles
    else settle cfg m isProvisional winningSide stakes bundles

/-! ## The decision procedure -/

def resolveMarket (env : Env) (cfg : Config) (m : String) (chain : List PyVal)
    (isProvisional : Bool := false) : Except String ResolutionResult := do
  let chain := dicts chain
  match createEvent m chain with
  | none => return ResolutionResult.start m .invalid isProvisional "no_market"
  | some create =>
    let index ← bootstrapIndex env.rt create
    let bundles ← collectEvidence env m chain
    let stakes ← collectResolutionStakes env.rt m chain
    if bundles.isEmpty then
      return (ResolutionResult.start m .invalid isProvisional "no_evidence").returnStakes stakes
    else if cfg.isBootstrap index then
      let votes ← eligibleVotes env cfg m chain
      return resolveBootstrap cfg m isProvisional bundles votes
    else return resolveStaked cfg m isProvisional stakes bundles

end Vincent.Economy.FloatResolution
