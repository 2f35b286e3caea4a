-- SUMMARY: The oracle ledger: balances, predictions, stakes, and how they are resolved.
import Vincent.General.OrderedMap
import Vincent.General.Run
import Vincent.Python.Float

/-!
# The oracle ledger

A node earns oracle rep with correct predictions. It can stake what it has on a
market or on the truth of a message; the losers of a market or of a message lose
their stakes, which the winners share.

Floats are exact, but `round` rounds: half of a thousandth goes to the even one.
-/

namespace Vincent.Oracle

open Vincent.Python Vincent.Run

def minStakeDays : Int := 1

def maxStakeDays : Int := 7

def gracePeriodHours : ℚ := 24

def oracleDecayDays : ℚ := 90

/-- The nearest integer, the even one of two. -/
def roundHalfEven (q : ℚ) : Int :=
  if q - ⌊q⌋ < 1 / 2 then ⌊q⌋
  else if 1 / 2 < q - ⌊q⌋ then ⌊q⌋ + 1
  else if ⌊q⌋ % 2 = 0 then ⌊q⌋ else ⌊q⌋ + 1

/-- `round(x, 3)`. -/
def round3 : PyFloat → PyFloat
  | .finite q => .finite (roundHalfEven (q * 1000) / 1000)
  | x => x

/-- `sum(xs)`. -/
def pySum (xs : List PyFloat) : PyFloat := xs.foldl PyFloat.add (.finite 0)

/-- A free prediction. -/
structure Prediction where
  nodeId : String
  marketTitle : String
  side : String
  probabilityAtBet : PyFloat
  timestamp : ℚ
  resolved : Bool := false
  correct : Option Bool := none
  repEarned : PyFloat := .finite 0

/-- A stake on a prediction market. -/
structure MarketStake where
  nodeId : String
  marketTitle : String
  side : String
  amount : PyFloat
  probabilityAtBet : PyFloat
  timestamp : ℚ
  resolved : Bool := false
  correct : Option Bool := none
  repEarned : PyFloat := .finite 0

/-- A stake on the truth of a message. -/
structure TruthStake where
  messageId : String
  posterId : String
  stakerId : String
  side : String
  amount : PyFloat
  durationDays : Int
  createdAt : ℚ
  expiresAt : ℚ
  lastCounterAt : ℚ
  resolved : Bool := false

/-- `OracleLedger`, without the log that nothing reads back. -/
structure Ledger where
  oracleRep : OrderedMap String PyFloat := []
  predictions : List Prediction := []
  marketStakes : List MarketStake := []
  stakes : List TruthStake := []

/-- What texts are made with: `str.lower`, `f"{x:.2f}"` and `str` of a float. -/
structure OracleText where
  lower : String → String
  fixed2 : PyFloat → String
  str : PyFloat → String

section Model

variable (txt : OracleText)

/-! ## Oracle rep -/

/-- `self.oracle_rep.get(node_id, 0.0)`. -/
def balance (rep : OrderedMap String PyFloat) (nodeId : String) : PyFloat :=
  (rep.lookup nodeId).getD (.finite 0)

/-- The amounts of the unresolved truth stakes of a node. -/
def lockedTruth (l : Ledger) (nodeId : String) : List PyFloat :=
  (l.stakes.filter fun s => s.stakerId = nodeId ∧ s.resolved = false).map TruthStake.amount

/-- The amounts of the unresolved market stakes of a node. -/
def lockedMarket (l : Ledger) (nodeId : String) : List PyFloat :=
  (l.marketStakes.filter fun s => s.nodeId = nodeId ∧ s.resolved = false).map MarketStake.amount

/-- What the unresolved stakes of a node sum to. -/
def locked (l : Ledger) (nodeId : String) : PyFloat :=
  (pySum (lockedTruth l nodeId)).add (pySum (lockedMarket l nodeId))

def getOracleRep (l : Ledger) (nodeId : String) : PyFloat :=
  round3 (PyFloat.max (.finite 0) ((balance l.oracleRep nodeId).sub (locked l nodeId)))

/-- `_add_oracle_rep`, of a node and an amount. -/
def addOracleRep (rep : OrderedMap String PyFloat) (x : String × PyFloat) :
    OrderedMap String PyFloat :=
  rep.upsert x.1 fun held => (held.getD (.finite 0)).add x.2

/-- `_remove_oracle_rep`, of a node and an amount. -/
def removeOracleRep (rep : OrderedMap String PyFloat) (x : String × PyFloat) :
    OrderedMap String PyFloat :=
  rep.upsert x.1 fun held => PyFloat.max (.finite 0) ((held.getD (.finite 0)).sub x.2)

/-! ## Predictions -/

/-- `0 <= probability_at_bet <= 100`. -/
def isProbability (p : PyFloat) : Bool := (PyFloat.finite 0).le p && p.le (.finite 100)

/-- Whether the node has an unresolved free prediction on the market. -/
def hasPrediction (l : Ledger) (nodeId marketTitle : String) : Bool :=
  l.predictions.any fun p => p.nodeId = nodeId ∧ p.marketTitle = marketTitle ∧ p.resolved = false

/-- Whether the node has an unresolved stake on the market. -/
def hasMarketStake (l : Ledger) (nodeId marketTitle : String) : Bool :=
  l.marketStakes.any fun s => s.nodeId = nodeId ∧ s.marketTitle = marketTitle ∧ s.resolved = false

/-- The refusals of a second pick on a market. -/
def alreadyPredicted (marketTitle : String) : String :=
  "You already have a FREE prediction on '" ++ marketTitle ++ "'. Your decision was FINAL."

def alreadyStaked (marketTitle : String) : String :=
  "You already have a STAKED prediction on '" ++ marketTitle ++ "'. Your decision was FINAL."

def placePrediction (nodeId marketTitle side : String) (probabilityAtBet : PyFloat) (now : ℚ)
    (l : Ledger) : Ledger × Except String Unit :=
  if strip side = "" then (l, .error "Side is required")
  else if isProbability probabilityAtBet = false then (l, .error "Probability must be 0-100")
  else if hasPrediction l nodeId marketTitle then
    (l, .error ("You already have an active prediction on '" ++ marketTitle ++
      "'. Your decision was FINAL."))
  else if hasMarketStake l nodeId marketTitle then (l, .error (alreadyStaked marketTitle))
  else
    ({ l with predictions := l.predictions ++
        [{ nodeId, marketTitle, side, probabilityAtBet, timestamp := now }] }, .ok ())

/-- What a correct prediction earns. -/
def predictionRep (p : Prediction) : PyFloat :=
  PyFloat.max (.finite (1 / 100))
    (round3 ((PyFloat.finite 1).sub (p.probabilityAtBet.div (.finite 100))))

/-- Whether `resolve_market` resolves a prediction. -/
def concerns (marketTitle : String) (p : Prediction) : Bool :=
  p.marketTitle = marketTitle ∧ p.resolved = false

/-- The nodes that `resolve_market` mints for, with what each earns. -/
def mints (marketTitle outcome : String) (l : Ledger) : List (String × PyFloat) :=
  (l.predictions.filter fun p => concerns marketTitle p ∧ txt.lower p.side = txt.lower outcome).map
    fun p => (p.nodeId, predictionRep p)

/-- A prediction after `resolve_market`. -/
def resolvePrediction (marketTitle outcome : String) (p : Prediction) : Prediction :=
  if concerns marketTitle p then
    let correct : Bool := txt.lower p.side = txt.lower outcome
    { p with
      resolved := true
      correct := some correct
      repEarned := if correct then predictionRep p else .finite 0 }
  else p

/-- `resolve_market`, with the counts of winners and losers. -/
def resolveMarket (marketTitle outcome : String) (l : Ledger) : Ledger × Nat × Nat :=
  if outcome = "" then (l, 0, 0)
  else
    let won := mints txt marketTitle outcome l
    ({ l with
        oracleRep := won.foldl addOracleRep l.oracleRep
        predictions := l.predictions.map (resolvePrediction txt marketTitle outcome) },
      won.length, l.predictions.countP (concerns marketTitle) - won.length)

/-! ## Stakes that are settled -/

/-- `round(loser_pool * proportion, 3)` for each winner, with the node. -/
def winnings (loserPool winnerPool : PyFloat) (winners : List (String × PyFloat)) :
    List (String × PyFloat) :=
  winners.map fun w => (w.1, round3 (loserPool.mul
    (if (PyFloat.finite 0).lt winnerPool then w.2.div winnerPool else .finite 0)))

/-- The losers lose their stakes, and the winners divide them. -/
def settle (losers winners : List (String × PyFloat)) (rep : OrderedMap String PyFloat) :
    OrderedMap String PyFloat :=
  (winnings (pySum (losers.map Prod.snd)) (pySum (winners.map Prod.snd)) winners).foldl addOracleRep
    (losers.foldl removeOracleRep rep)

/-- The rounded winnings add up to what the losers lose. -/
def DividesEvenly (losers winners : List (String × PyFloat)) : Prop :=
  pySum ((winnings (pySum (losers.map Prod.snd)) (pySum (winners.map Prod.snd)) winners).map
    Prod.snd) = pySum (losers.map Prod.snd)

/-! ## Market stakes -/

def placeMarketStake (nodeId marketTitle side : String) (amount probabilityAtBet : PyFloat) (now : ℚ)
    (l : Ledger) : Ledger × Except String Unit :=
  if strip side = "" then (l, .error "Side is required")
  else if amount.le (.finite 0) then (l, .error "Stake amount must be positive")
  else if isProbability probabilityAtBet = false then (l, .error "Probability must be 0-100")
  else if (getOracleRep l nodeId).lt amount then
    (l, .error ("Insufficient oracle rep (have " ++ txt.fixed2 (getOracleRep l nodeId) ++ ", need " ++
      txt.fixed2 amount ++ ")"))
  else if hasPrediction l nodeId marketTitle then (l, .error (alreadyPredicted marketTitle))
  else if hasMarketStake l nodeId marketTitle then (l, .error (alreadyStaked marketTitle))
  else
    ({ l with marketStakes := l.marketStakes ++
        [{ nodeId, marketTitle, side, amount, probabilityAtBet, timestamp := now }] }, .ok ())

/-- The unresolved stakes on a market, of those on the outcome or of the others. -/
def marketSide (marketTitle outcome : String) (wins : Bool) (l : Ledger) :
    List (String × PyFloat) :=
  (l.marketStakes.filter fun s => s.marketTitle = marketTitle ∧ s.resolved = false ∧
    decide (txt.lower s.side = txt.lower outcome) = wins).map fun s => (s.nodeId, s.amount)

/-- A market stake after `resolve_market_stakes`. -/
def resolveMarketStake (marketTitle outcome : String) (earned : MarketStake → PyFloat)
    (s : MarketStake) : MarketStake :=
  if s.marketTitle = marketTitle ∧ s.resolved = false then
    { s with
      resolved := true
      correct := some (txt.lower s.side = txt.lower outcome)
      repEarned := earned s }
  else s

/-- What `resolve_market_stakes` returns. -/
structure MarketSummary where
  resolved : Nat
  winners : Nat := 0
  losers : Nat := 0
  winnerPool : PyFloat := .finite 0
  loserPool : PyFloat := .finite 0
  unanimous : Bool := false

def resolveMarketStakes (marketTitle outcome : String) (l : Ledger) : Ledger × MarketSummary :=
  let winners := marketSide txt marketTitle outcome true l
  let losers := marketSide txt marketTitle outcome false l
  let winnerPool := pySum (winners.map Prod.snd)
  let loserPool := pySum (losers.map Prod.snd)
  if outcome = "" ∨ (winners = [] ∧ losers = []) then (l, { resolved := 0 })
  else if losers = [] then
    ({ l with
        marketStakes := l.marketStakes.map
          (resolveMarketStake txt marketTitle outcome fun _ => .finite 0) },
      { resolved := winners.length, winners := winners.length, winnerPool, unanimous := true })
  else
    let earned (s : MarketStake) : PyFloat :=
      if txt.lower s.side = txt.lower outcome then
        round3 (loserPool.mul
          (if (PyFloat.finite 0).lt winnerPool then s.amount.div winnerPool else .finite 0))
      else .finite 0
    ({ l with
        oracleRep := settle losers winners l.oracleRep
        marketStakes := l.marketStakes.map (resolveMarketStake txt marketTitle outcome earned) },
      { resolved := winners.length + losers.length, winners := winners.length,
        losers := losers.length, winnerPool := round3 winnerPool, loserPool := round3 loserPool })

/-! ## Truth stakes -/

/-- The unresolved stakes on a message. -/
def activeStakes (l : Ledger) (messageId : String) : List TruthStake :=
  l.stakes.filter fun s => s.messageId = messageId ∧ s.resolved = false

/-- The loop that gives a stake against others the grace period after the last of them. -/
def extendedExpiry (side : String) (expires : ℚ) (active : List TruthStake) : ℚ :=
  active.foldl (fun expires s =>
    if s.side ≠ side ∧ expires < s.lastCounterAt + gracePeriodHours * 3600
    then s.lastCounterAt + gracePeriodHours * 3600 else expires) expires

def placeStake (stakerId messageId posterId side : String) (amount : PyFloat) (durationDays : Int)
    (now : ℚ) (l : Ledger) : Ledger × Except String Unit :=
  if side ≠ "truth" ∧ side ≠ "false" then (l, .error "Side must be 'truth' or 'false'")
  else if ¬ (minStakeDays ≤ durationDays ∧ durationDays ≤ maxStakeDays) then
    (l, .error ("Duration must be " ++ toString minStakeDays ++ "-" ++ toString maxStakeDays ++
      " days"))
  else if amount.le (.finite 0) then (l, .error "Stake amount must be positive")
  else if (getOracleRep l stakerId).lt amount then
    (l, .error ("Insufficient oracle rep (have " ++ txt.str (getOracleRep l stakerId) ++ ", need " ++
      txt.str amount ++ ")"))
  else if (activeStakes l messageId).any fun s => s.stakerId = stakerId then
    (l, .error "You already have an active stake on this message")
  else
    let counter (s : TruthStake) : TruthStake :=
      if s.messageId = messageId ∧ s.resolved = false ∧ s.side ≠ side
      then { s with lastCounterAt := now } else s
    let expiresAt := extendedExpiry side (now + durationDays * 86400) (activeStakes l messageId)
    ({ l with stakes := l.stakes.map counter ++
        [{ messageId, posterId, stakerId, side, amount, durationDays, createdAt := now, expiresAt,
           lastCounterAt := now }] }, .ok ())

/-- The stakes of a group on a side, as nodes and amounts. -/
def truthSide (group : List TruthStake) (side : String) (on : Bool) : List (String × PyFloat) :=
  (group.filter fun s => decide (s.side = side) = on).map fun s => (s.stakerId, s.amount)

def truthTotal (group : List TruthStake) (side : String) : PyFloat :=
  pySum ((group.filter fun s => s.side = side).map TruthStake.amount)

/-- The side of a group that wins, unless it is a tie. -/
def winningSide (group : List TruthStake) : Option String :=
  let truth := truthTotal group "truth"
  let false_ := truthTotal group "false"
  if truth.le false_ && false_.le truth then none
  else some (if false_.lt truth then "truth" else "false")

/-- A resolution of `resolve_expired_stakes`. A tie has no winners and losers. -/
structure Resolution where
  messageId : String
  outcome : String
  truthTotal : PyFloat
  falseTotal : PyFloat
  winners : List (String × PyFloat) := []
  losers : List (String × PyFloat) := []

/-- A stake after its message is resolved. -/
def closeStake (messageId : String) (s : TruthStake) : TruthStake :=
  if s.messageId = messageId ∧ s.resolved = false then { s with resolved := true } else s

/-- One round of the loop of `resolve_expired_stakes`, for a message and its unresolved stakes. -/
def resolveMessage (now : ℚ) (messageId : String) (group : List TruthStake)
    (st : Ledger × List Resolution) : Ledger × List Resolution :=
  if group.all (fun s => s.expiresAt ≤ now) = false then st
  else match winningSide group with
    | none =>
      ({ st.1 with stakes := st.1.stakes.map (closeStake messageId) },
        st.2 ++ [⟨messageId, "tie", truthTotal group "truth", truthTotal group "false", [], []⟩])
    | some side =>
      -- every stake is on one of two sides, so `losing_total` is what the losers staked
      ({ st.1 with
          oracleRep := settle (truthSide group side false) (truthSide group side true)
            st.1.oracleRep
          stakes := st.1.stakes.map (closeStake messageId) },
        st.2 ++ [⟨messageId, side, round3 (truthTotal group "truth"),
          round3 (truthTotal group "false"), truthSide group side true,
          truthSide group side false⟩])

/-- The messages that have unresolved stakes, in the order of their first. -/
def activeMessages (l : Ledger) : List String :=
  ((l.stakes.filter fun s => s.resolved = false).map TruthStake.messageId).eraseDups

def resolveExpiredStakes (now : ℚ) (l : Ledger) : Ledger × List Resolution :=
  (activeMessages l).foldl
    (fun st messageId => resolveMessage now messageId (activeStakes l messageId) st) (l, [])

def cleanupOldData (now : ℚ) (l : Ledger) : Ledger :=
  let cutoff := now - oracleDecayDays * 86400
  { l with
    predictions := l.predictions.filter fun p => p.resolved = false ∨ cutoff ≤ p.timestamp
    marketStakes := l.marketStakes.filter fun s => s.resolved = false ∨ cutoff ≤ s.timestamp }

/-! ## Runs -/

inductive OracleOp where
  | placePrediction (nodeId marketTitle side : String) (probabilityAtBet : PyFloat) (now : ℚ)
  | resolveMarket (marketTitle outcome : String)
  | placeMarketStake (nodeId marketTitle side : String) (amount probabilityAtBet : PyFloat) (now : ℚ)
  | resolveMarketStakes (marketTitle outcome : String)
  | placeStake (stakerId messageId posterId side : String) (amount : PyFloat) (durationDays : Int)
      (now : ℚ)
  | resolveExpiredStakes (now : ℚ)
  | cleanupOldData (now : ℚ)

def oracleStep (l : Ledger) : OracleOp → Ledger
  | .placePrediction nodeId title side p now => (placePrediction nodeId title side p now l).1
  | .resolveMarket title outcome => (resolveMarket txt title outcome l).1
  | .placeMarketStake nodeId title side amount p now =>
    (placeMarketStake txt nodeId title side amount p now l).1
  | .resolveMarketStakes title outcome => (resolveMarketStakes txt title outcome l).1
  | .placeStake stakerId messageId posterId side amount days now =>
    (placeStake txt stakerId messageId posterId side amount days now l).1
  | .resolveExpiredStakes now => (resolveExpiredStakes now l).1
  | .cleanupOldData now => cleanupOldData now l

/-- The sum of all balances. -/
def totalRep (l : Ledger) : PyFloat := pySum l.oracleRep.values

/-- Unresolved stakes sum to at most the balance; balances are finite and not negative. -/
structure Solvent (l : Ledger) : Prop where
  covered : ∀ nodeId, (locked l nodeId).le (balance l.oracleRep nodeId) = true
  finite : ∀ kv ∈ l.oracleRep, ∃ q : ℚ, kv.2 = .finite q ∧ 0 ≤ q

/-- The sum of the balances: `resolve_market` mints, a market without winners loses, the rest keeps
it. -/
def KeepsTotal (l : Ledger) (op : OracleOp) : Prop :=
  match op with
  | .resolveMarket title outcome => totalRep (oracleStep txt l op) =
      (totalRep l).add (pySum (if outcome = "" then [] else (mints txt title outcome l).map Prod.snd))
  | .resolveMarketStakes title outcome =>
    (totalRep (oracleStep txt l op)).le (totalRep l) = true ∧
      (marketSide txt title outcome true l ≠ [] → totalRep (oracleStep txt l op) = totalRep l)
  | op => totalRep (oracleStep txt l op) = totalRep l

/-- What a node has left, before it is rounded. -/
def unlocked (l : Ledger) (nodeId : String) : PyFloat :=
  (balance l.oracleRep nodeId).sub (locked l nodeId)

/-- An amount that the guards let through is not more than what the node has left. -/
def Affordable (l : Ledger) (nodeId : String) (amount : PyFloat) : Prop :=
  amount.le (.finite 0) = false → (getOracleRep l nodeId).lt amount = false →
    amount.le (unlocked l nodeId) = true

/-- No rounding and no NaN gets through: stakes are affordable, and winnings add up. -/
def Exact (l : Ledger) : OracleOp → Prop
  | .placeMarketStake nodeId _ _ amount _ _ => Affordable l nodeId amount
  | .placeStake stakerId _ _ _ amount _ _ => Affordable l stakerId amount
  | .resolveMarketStakes title outcome =>
    marketSide txt title outcome true l ≠ [] → marketSide txt title outcome false l ≠ [] →
      DividesEvenly (marketSide txt title outcome false l) (marketSide txt title outcome true l)
  | .resolveExpiredStakes now =>
    ∀ messageId ∈ activeMessages l, (activeStakes l messageId).all (fun s => s.expiresAt ≤ now) →
      ∀ side ∈ winningSide (activeStakes l messageId),
        DividesEvenly (truthSide (activeStakes l messageId) side false)
          (truthSide (activeStakes l messageId) side true)
  | _ => True

end Model

end Vincent.Oracle
