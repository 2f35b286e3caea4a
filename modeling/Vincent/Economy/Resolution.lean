-- SUMMARY: Market resolution: evidence, stakes, burns and exits.
import Vincent.General.Tally
import Vincent.Economy.Bootstrap

/-!
# Market resolution

`resolve_market` reads the evidence and the stakes of a market, decides an outcome,
and lists what is transferred.

Amounts are exact rationals. Where an amount on the chain is infinite or not a number,
the model has no result.
-/

namespace Vincent.Economy

open Vincent.Python

/-- `float(v) if v is not None else 0.0`, or `none` where the code catches the exception. -/
def amountOf (rt : Runtime) (v : PyVal) : Except String (Option ℚ) :=
  match v with
  | .none => .ok (some 0)
  | v => do
    match ← catching ["TypeError", "ValueError"] (some <$> pyFloat rt v) none with
    | none => return none
    | some x =>
      match x.rat? with
      | some q => return some q
      | none => throw "not a rational amount"

/-! ## Evidence -/

/-- One `evidence_submit` event as the chain shows it. -/
structure EvidenceBundle where
  nodeId : String
  marketId : String
  claimedOutcome : Outcome
  evidenceHashes : List String
  sourceDescription : String
  bond : ℚ
  timestamp : PyFloat
  sequence : Int
  contentHash : String
  submissionHash : String
  isFirstForSide : Bool

/-- `sorted(strings)`. -/
def sortedStrings (strings : List String) : List String := strings.insertionSort (· ≤ ·)

/-- `evidence_content_hash` of an outcome that is one of the two. -/
def evidenceContentHash (env : Env) (m : String) (outcome : Outcome) (hashes : List String)
    (sourceDescription : String) : String :=
  env.sha256 (String.intercalate "|" ["evidence_content", m, outcome.text,
    String.intercalate "," (sortedStrings hashes), env.normalizeUtf8 sourceDescription])

def submissionHash (env : Env) (contentHash : String) (nodeId : String) (ts : PyFloat) : String :=
  env.sha256 (String.intercalate "|" ["evidence_submission", contentHash, nodeId,
    env.rt.strFloat ts])

/-- What the loop remembers of one side. -/
structure SideSeen where
  content : List PyVal := []
  firstSet : Bool := false

/-- The loop variables of `collect_evidence`. -/
structure EvidenceScan where
  yes : SideSeen := {}
  no : SideSeen := {}
  bundles : List EvidenceBundle := []

def EvidenceScan.side (scan : EvidenceScan) : Outcome → SideSeen
  | .yes => scan.yes
  | .no => scan.no

def EvidenceScan.push (scan : EvidenceScan) (outcome : Outcome) (seen : SideSeen)
    (bundle : EvidenceBundle) : EvidenceScan :=
  match outcome with
  | .yes => { scan with yes := seen, bundles := scan.bundles ++ [bundle] }
  | .no => { scan with no := seen, bundles := scan.bundles ++ [bundle] }

/-- Whether a value can be an element of a set. -/
def hashable : PyVal → Bool
  | .list _ | .dict _ => false
  | _ => true

/-- One round of the loop of `collect_evidence`. -/
def EvidenceScan.visit (env : Env) (m : String) (scan : EvidenceScan) (event : Dict) :
    Except String EvidenceScan := do
  let p := payload event
  match Dict.get event "node_id", Outcome.ofVal? (Dict.get p "claimed_outcome"),
      (Dict.get p "evidence_hashes").or (.list []) with
  | .str nodeId, some outcome, .list hashes =>
    if nodeId = "" then return scan
    let hashes := hashes.map (PyVal.toStr env.rt)
    let sourceDescription := Dict.text env.rt p "source_description"
    let bond := (← amountOf env.rt (Dict.get p "bond")).getD 0
    let ts ← timestamp env.rt event
    let seq ← sequence env.rt event
    let contentHash := (Dict.get p "evidence_content_hash").or
      (.str (evidenceContentHash env m outcome hashes sourceDescription))
    let submission := (Dict.get p "submission_hash").or
      (.str (submissionHash env (contentHash.toStr env.rt) nodeId ts))
    if !hashable contentHash then throw "TypeError"
    let seen := scan.side outcome
    let isFirst := !(seen.content.any fun c => c.eq contentHash) && !seen.firstSet
    return scan.push outcome
      { content := contentHash :: seen.content, firstSet := seen.firstSet || isFirst }
      { nodeId, marketId := m, claimedOutcome := outcome, evidenceHashes := hashes,
        sourceDescription, bond, timestamp := ts, sequence := seq,
        contentHash := contentHash.toStr env.rt, submissionHash := submission.toStr env.rt,
        isFirstForSide := isFirst }
  | _, _, _ => return scan

/-- An event with its sort key. -/
def keyed (rt : Runtime) (event : Dict) : Except String ((PyFloat × Int) × Dict) := do
  return ((← timestamp rt event, ← sequence rt event), event)

def collectEvidence (env : Env) (m : String) (chain : List Dict) :
    Except String (List EvidenceBundle) := do
  let events ← (chain.filter fun ev => hasType "evidence_submit" ev && forMarket m ev).mapM
    (keyed env.rt)
  let scan ← (events.insertionSort fun a b => chainOrder a.1 b.1).foldlM
    (fun scan ev => EvidenceScan.visit env m scan ev.2) {}
  return scan.bundles

/-! ## Resolution stakes -/

inductive Side where
  | outcome (o : Outcome)
  | dataUnavailable
deriving DecidableEq, Repr

def Side.ofVal? (v : PyVal) : Option Side :=
  if v.eq (.str "data_unavailable") then some .dataUnavailable
  else (Outcome.ofVal? v).map .outcome

inductive RepType where
  | oracle
  | common
deriving DecidableEq, Repr

def RepType.ofVal? (v : PyVal) : Option RepType :=
  if v.eq (.str "oracle") then some .oracle else if v.eq (.str "common") then some .common else none

structure ResolutionStake where
  nodeId : String
  side : Side
  amount : ℚ
  repType : RepType
  timestamp : PyFloat
  sequence : Int

/-- One round of the loop of `collect_resolution_stakes`. -/
def readStake (rt : Runtime) (excluded : List String) (m : String) (event : Dict) :
    Except String (Option ResolutionStake) := do
  let p := payload event
  if !(hasType "resolution_stake" event && forMarket m event) then return none
  match Dict.get event "node_id", Side.ofVal? (Dict.get p "side") with
  | .str nodeId, some side =>
    if nodeId = "" ∨ nodeId ∈ excluded then return none
    match ← amountOf rt (Dict.get p "amount") with
    | none => return none
    | some amount =>
      if amount ≤ 0 then return none
      match RepType.ofVal? (Dict.get p "rep_type") with
      | none => return none
      | some repType =>
        let ts ← timestamp rt event
        let seq ← sequence rt event
        return some { nodeId, side, amount, repType, timestamp := ts, sequence := seq }
  | _, _ => return none

def collectResolutionStakes (rt : Runtime) (m : String) (chain : List Dict)
    (excludePredictors : Bool := true) : Except String (List ResolutionStake) := do
  let excluded ← if excludePredictors then excludedPredictorIds rt m chain else pure []
  let out ← chain.filterMapM (readStake rt excluded m)
  return out.insertionSort fun a b => chainOrder (a.timestamp, a.sequence) (b.timestamp, b.sequence)

/-- What the stakes that satisfy `p` amount to. -/
def staked (p : ResolutionStake → Bool) (stakes : List ResolutionStake) : ℚ :=
  ((stakes.filter p).map ResolutionStake.amount).sum

/-- What the bonds of the bundles that satisfy `p` amount to. -/
def bonded (p : EvidenceBundle → Bool) (bundles : List EvidenceBundle) : ℚ :=
  ((bundles.filter p).map EvidenceBundle.bond).sum

/-! ## Burns -/

/-- Whose reputation of which kind a stake came from. -/
abbrev StakeKey := String × RepType

def ResolutionStake.key (s : ResolutionStake) : StakeKey := (s.nodeId, s.repType)

/-- `split_burn_and_return`: the part burned and the part returned. -/
def splitBurnAndReturn (amount pct : ℚ) : ℚ × ℚ :=
  if amount ≤ 0 then (0, 0)
  else if pct ≤ 0 then (0, amount)
  else if 1 ≤ pct then (amount, 0)
  else (amount * pct, amount - amount * pct)

/-- One round of the loop of `apply_to_stakes`. -/
def burnStake (pct : ℚ) (acc : Tally StakeKey ℚ × ℚ) (s : ResolutionStake) :
    Tally StakeKey ℚ × ℚ :=
  if s.amount ≤ 0 then acc
  else
    let split := splitBurnAndReturn s.amount pct
    (if 0 < split.2 then acc.1.add s.key split.2 else acc.1, acc.2 + split.1)

/-- `apply_to_stakes`: the returns, and the total burned. -/
def applyToStakes (pct : ℚ) (stakes : List ResolutionStake) : Tally StakeKey ℚ × ℚ :=
  stakes.foldl (burnStake pct) ([], 0)

def isDataUnavailableTriggered (cfg : Config) (stakes : List ResolutionStake) : Bool :=
  let oracleAll := staked (fun s => s.repType = .oracle) stakes
  let oracleDa := staked (fun s => s.side = .dataUnavailable ∧ s.repType = .oracle) stakes
  !(oracleAll ≤ 0) && cfg.dataUnavailableThreshold ≤ oracleDa / oracleAll

/-- The effects that `resolve_data_unavailable_effects` returns. -/
structure DataUnavailableEffects where
  stakeReturns : Tally StakeKey ℚ
  bondForfeits : Tally String ℚ
  burned : ℚ

def resolveDataUnavailableEffects (cfg : Config) (stakes : List ResolutionStake)
    (bundles : List EvidenceBundle) : DataUnavailableEffects :=
  let daStakes := stakes.filter fun s => s.side = .dataUnavailable
  let otherStakes := stakes.filter fun s => s.side ≠ .dataUnavailable
  let returned : Tally StakeKey ℚ := Tally.addAll ResolutionStake.key ResolutionStake.amount
    (daStakes.filter fun s => ¬ s.amount ≤ 0) []
  let burn := applyToStakes cfg.resolutionStalemateBurnPct otherStakes
  let slashed := bundles.filter fun b => 0 < b.bond
  { stakeReturns := Tally.addAll Prod.fst Prod.snd burn.1 returned
    bondForfeits := Tally.addAll EvidenceBundle.nodeId EvidenceBundle.bond slashed []
    burned := burn.2 + (slashed.map EvidenceBundle.bond).sum }

/-! ## The result -/

inductive MarketOutcome where
  | decided (o : Outcome)
  | invalid
deriving DecidableEq, Repr

structure ResolutionResult where
  marketId : String
  outcome : MarketOutcome
  isProvisional : Bool
  reason : String
  bondReturns : Tally String ℚ := []
  bondForfeits : Tally String ℚ := []
  firstSubmitterBonuses : Tally String ℚ := []
  stakeReturns : Tally StakeKey ℚ := []
  stakeWinnings : Tally StakeKey ℚ := []
  burnedAmount : ℚ := 0

namespace ResolutionResult

/-- A result before any effect is folded in. -/
@[simps] def start (m : String) (outcome : MarketOutcome) (isProvisional : Bool) (reason : String) :
    ResolutionResult :=
  { marketId := m, outcome, isProvisional, reason }

/-- `for s in stakes: result.stake_returns[…] += s.amount`. -/
@[simps] def returnStakes (r : ResolutionResult) (stakes : List ResolutionStake) : ResolutionResult :=
  { r with stakeReturns :=
      Tally.addAll ResolutionStake.key ResolutionStake.amount stakes r.stakeReturns }

/-- `for b in bundles: result.bond_returns[…] += b.bond`. -/
@[simps] def returnBonds (r : ResolutionResult) (bundles : List EvidenceBundle) : ResolutionResult :=
  { r with bondReturns := Tally.addAll EvidenceBundle.nodeId EvidenceBundle.bond bundles r.bondReturns }

end ResolutionResult

def supermajorityWinner (yes no threshold : ℚ) : Option Outcome :=
  if yes + no ≤ 0 then none
  else if threshold ≤ yes / (yes + no) then some .yes
  else if threshold ≤ no / (yes + no) then some .no
  else none

/-! ## Bootstrap markets -/

/-- A bond of a decided bootstrap market. -/
def settleBootstrapBond (winningSide : Outcome) (r : ResolutionResult) (b : EvidenceBundle) :
    ResolutionResult :=
  if b.claimedOutcome = winningSide then r.returnBonds [b]
  else { r with bondForfeits := r.bondForfeits.add b.nodeId b.bond }

/-- The winner among the eligible votes. -/
def voteWinner (cfg : Config) (votes : List Outcome) : Option Outcome :=
  if cfg.bootstrapResolutionSupermajority ≤ (votes.count .yes : ℚ) / votes.length then some .yes
  else if cfg.bootstrapResolutionSupermajority ≤ (votes.count .no : ℚ) / votes.length then some .no
  else none

/-- Step 0.5 of `resolve_market`, from the eligible votes on. -/
def resolveBootstrap (cfg : Config) (m : String) (isProvisional : Bool)
    (bundles : List EvidenceBundle) (votes : List Outcome) : ResolutionResult :=
  let invalid (reason : String) : ResolutionResult :=
    (ResolutionResult.start m .invalid isProvisional reason).returnBonds bundles
  if votes.length < cfg.minMarketParticipants then invalid "bootstrap_below_min_participation"
  else match voteWinner cfg votes with
  | none => invalid "bootstrap_no_supermajority"
  | some winningSide =>
    if bundles.all (fun b => b.claimedOutcome ≠ winningSide) then invalid "no_winning_side_evidence"
    else bundles.foldl (settleBootstrapBond winningSide) (ResolutionResult.start m
      (.decided winningSide) isProvisional ("bootstrap_supermajority_" ++ winningSide.text))

/-! ## Staked markets -/

/-- Step 3 for one rep type. -/
def distribute (burnPct : ℚ) (winningSide : Outcome) (stakes : List ResolutionStake)
    (r : ResolutionResult) (repType : RepType) : ResolutionResult :=
  let winners := stakes.filter fun s => s.side = .outcome winningSide ∧ s.repType = repType
  let losers := stakes.filter fun s =>
    s.side ≠ .outcome winningSide ∧ s.side ≠ .dataUnavailable ∧ s.repType = repType
  let winnerPool := (winners.map ResolutionStake.amount).sum
  let loserPool := (losers.map ResolutionStake.amount).sum
  let r := r.returnStakes winners
  let r := r.returnStakes (stakes.filter fun s => s.repType = repType ∧ s.side = .dataUnavailable)
  if winnerPool = 0 ∨ loserPool = 0 then r
  else
    let burnAmt := loserPool * burnPct
    let distributable := loserPool - burnAmt
    { r with
      burnedAmount := r.burnedAmount + burnAmt
      stakeWinnings := Tally.addAll ResolutionStake.key
        (fun s => s.amount / winnerPool * distributable) winners r.stakeWinnings }

/-- Step 4 for one bundle, with the bonus budget that is left. -/
def settleBond (bonus : ℚ) (winningSide : Outcome) (st : ResolutionResult × ℚ)
    (b : EvidenceBundle) : ResolutionResult × ℚ :=
  let (r, budget) := st
  if b.claimedOutcome = winningSide then
    let r := r.returnBonds [b]
    if b.isFirstForSide ∧ 0 < budget then
      let bonusAmt := min bonus budget
      if 0 < bonusAmt then
        ({ r with firstSubmitterBonuses := r.firstSubmitterBonuses.add b.nodeId bonusAmt },
          budget - bonusAmt)
      else (r, budget)
    else (r, budget)
  else ({ r with bondForfeits := r.bondForfeits.add b.nodeId b.bond }, budget)

/-- Steps 3 and 4 of `resolve_market`. -/
def settle (cfg : Config) (m : String) (isProvisional : Bool) (winningSide : Outcome)
    (stakes : List ResolutionStake) (bundles : List EvidenceBundle) : ResolutionResult :=
  let r := ResolutionResult.start m (.decided winningSide) isProvisional
    ("supermajority_" ++ winningSide.text)
  let r := [RepType.oracle, .common].foldl
    (distribute cfg.resolutionLoserBurnPct winningSide stakes) r
  let losingBondPool := bonded (fun b => b.claimedOutcome ≠ winningSide) bundles
  let (r, bonusBudget) := bundles.foldl (settleBond cfg.evidenceFirstBonus winningSide)
    (r, losingBondPool)
  { r with burnedAmount := r.burnedAmount + bonusBudget }

/-- The oracle reputation staked on an outcome. -/
def oracleOn (o : Outcome) (stakes : List ResolutionStake) : ℚ :=
  staked (fun s => s.side = .outcome o ∧ s.repType = .oracle) stakes

/-- Steps 1.5 to 4 of `resolve_market`. -/
def resolveStaked (cfg : Config) (m : String) (isProvisional : Bool)
    (stakes : List ResolutionStake) (bundles : List EvidenceBundle) : ResolutionResult :=
  let invalid (reason : String) := ResolutionResult.start m .invalid isProvisional reason
  if isDataUnavailableTriggered cfg stakes then
    let effects := resolveDataUnavailableEffects cfg stakes bundles
    { invalid "data_unavailable" with
      stakeReturns := Tally.addAll Prod.fst Prod.snd effects.stakeReturns []
      bondForfeits := Tally.addAll Prod.fst Prod.snd effects.bondForfeits []
      burnedAmount := 0 + effects.burned }
  else if oracleOn .yes stakes + oracleOn .no stakes < cfg.minResolutionStakeTotal then
    ((invalid "below_min_resolution_stake").returnStakes stakes).returnBonds bundles
  else match supermajorityWinner (oracleOn .yes stakes) (oracleOn .no stakes)
      cfg.resolutionSupermajority with
  | none =>
    let burn := applyToStakes cfg.resolutionStalemateBurnPct stakes
    { invalid "no_supermajority" with
      stakeReturns := Tally.addAll Prod.fst Prod.snd burn.1 []
      burnedAmount := 0 + burn.2 }.returnBonds bundles
  | some winningSide =>
    if bundles.all (fun b => b.claimedOutcome ≠ winningSide) then
      ((invalid "no_winning_side_evidence").returnStakes stakes).returnBonds bundles
    else settle cfg m isProvisional winningSide stakes bundles

/-! ## The decision procedure -/

/-- The event that created the market. -/
def createEvent (m : String) (chain : List Dict) : Option Dict :=
  chain.find? fun e => hasType "prediction_create" e && forMarket m e

/-- `int(bootstrap_index)` where it is given and can be read. -/
def bootstrapIndex (rt : Runtime) (create : Dict) : Except String (Option Int) :=
  match Dict.get (payload create) "bootstrap_index" with
  | .none => .ok none
  | v => catching ["TypeError", "ValueError"] (some <$> pyInt rt v) none

def Config.isBootstrap (cfg : Config) : Option Int → Bool
  | none => false
  | some index => index ≤ cfg.bootstrapMarketCount

def resolveMarket (env : Env) (cfg : Config) (m : String) (chain : List PyVal)
    (isProvisional : Bool := false) : Except String ResolutionResult := do
  let chain := dicts chain
  match createEvent m chain with
  | none => return ResolutionResult.start m .invalid isProvisional "no_market"
  | some create =>
    let index ← bootstrapIndex env.rt create
    let bundles ← collectEvidence env m chain
    let stakes ← collectResolutionStakes env.rt m chain
    if bundles.isEmpty then
      return (ResolutionResult.start m .invalid isProvisional "no_evidence").returnStakes stakes
    else if cfg.isBootstrap index then
      let votes ← eligibleVotes env cfg m chain
      return resolveBootstrap cfg m isProvisional bundles votes
    else return resolveStaked cfg m isProvisional stakes bundles

end Vincent.Economy
