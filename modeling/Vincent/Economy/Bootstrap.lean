-- SUMMARY: Bootstrap votes of a market: one vote per node, and which voters are eligible.
import Vincent.Economy.Events

/-!
# Bootstrap votes

A bootstrap market is decided by one vote per eligible node. Among several votes
of one node the one with the lowest hash counts, and a voter is eligible when its
identity is old enough at the snapshot and it made no prediction on the market.
-/

namespace Vincent.Economy

open Vincent.Python

/-- A side that a vote, an evidence bundle or a market can have. -/
inductive Outcome where
  | yes
  | no
deriving DecidableEq, Repr

def Outcome.text : Outcome → String
  | .yes => "yes"
  | .no => "no"

/-- The outcome a value names, where it names one. -/
def Outcome.ofVal? (v : PyVal) : Option Outcome :=
  if v.eq (.str "yes") then some .yes else if v.eq (.str "no") then some .no else none

/-! ## One vote per node -/

def canonicalEventHash (env : Env) (event : Dict) : String :=
  env.sha256 (canonicalJson env.rt event)

/-- A vote with what `deduplicate_votes` sorts it by. -/
structure Candidate where
  nodeId : String
  hash : String
  sequence : Int
  event : Dict

def readCandidate (env : Env) (m : String) (event : Dict) : Except String (Option Candidate) := do
  if hasType "bootstrap_resolution_vote" event && forMarket m event then
    match Dict.get event "node_id" with
    | .str nodeId =>
      if nodeId = "" then return none
      let seq ← sequence env.rt event
      return some { nodeId, hash := canonicalEventHash env event, sequence := seq, event }
    | _ => return none
  else return none

/-- The vote that counts for a node: the lowest hash, then the lowest sequence. -/
def canonicalVote (candidates : List Candidate) (nodeId : String) : Option Candidate :=
  ((candidates.filter fun c => c.nodeId = nodeId).insertionSort fun a b =>
    a.hash < b.hash ∨ (a.hash = b.hash ∧ a.sequence ≤ b.sequence)).head?

def deduplicateVotes (env : Env) (m : String) (chain : List Dict) :
    Except String (List Candidate) := do
  let candidates ← chain.filterMapM (readCandidate env m)
  let canonical := (candidates.map Candidate.nodeId).eraseDups.filterMap (canonicalVote candidates)
  return canonical.insertionSort fun a b =>
    a.nodeId < b.nodeId ∨ (a.nodeId = b.nodeId ∧ a.hash ≤ b.hash)

/-! ## Eligibility -/

/-- The two running minima of `_node_created_at`. -/
structure FirstSeen where
  earliestRegister : Option PyFloat := none
  earliestAny : Option PyFloat := none

def earlier (ts : PyFloat) : Option PyFloat → Option PyFloat
  | none => some ts
  | some t => if ts.lt t then some ts else some t

def FirstSeen.visit (rt : Runtime) (nodeId : String) (seen : FirstSeen) (event : Dict) :
    Except String FirstSeen := do
  if (Dict.get event "node_id").eq (.str nodeId) then
    match ← catching ["TypeError", "ValueError"] (some <$> timestamp rt event) none with
    | none => return seen
    | some ts =>
      return {
        earliestRegister :=
          if hasType "node_register" event then earlier ts seen.earliestRegister
          else seen.earliestRegister
        earliestAny := earlier ts seen.earliestAny }
  else return seen

def nodeCreatedAt (rt : Runtime) (nodeId : String) (chain : List Dict) :
    Except String (Option PyFloat) := do
  let seen ← chain.foldlM (FirstSeen.visit rt nodeId) {}
  return seen.earliestRegister <|> seen.earliestAny

def isIdentityAgeEligible (rt : Runtime) (cfg : Config) (nodeId m : String) (chain : List Dict) :
    Except String Bool := do
  match ← findSnapshot rt m chain with
  | none => return false
  | some snapshot =>
    let frozenAt := pyFloat rt ((Dict.get snapshot "frozen_at").or (.float (.finite 0)))
    match ← catching ["TypeError", "ValueError"] (some <$> frozenAt) none with
    | none => return false
    | some frozenAt =>
      match ← nodeCreatedAt rt nodeId chain with
      | none => return false
      | some createdAt =>
        return (createdAt.addRat (cfg.bootstrapMinIdentityAgeDays * 86400)).le frozenAt

structure EligibilityDecision where
  eligible : Bool
  reason : String

def validateBootstrapEligibility (rt : Runtime) (cfg : Config) (nodeId m : String)
    (chain : List Dict) : Except String EligibilityDecision := do
  match ← findSnapshot rt m chain with
  | none => return ⟨false, "snapshot_missing"⟩
  | some _ =>
    if !(← isIdentityAgeEligible rt cfg nodeId m chain) then
      return ⟨false, "identity_age_too_young"⟩
    else if nodeId ∈ (← excludedPredictorIds rt m chain) then
      return ⟨false, "predictor_excluded"⟩
    else return ⟨true, "ok"⟩

/-- The loop of `resolve_market` over the canonical votes: the sides of the eligible ones. -/
def eligibleVotes (env : Env) (cfg : Config) (m : String) (chain : List Dict) :
    Except String (List Outcome) := do
  let canonicalVotes ← deduplicateVotes env m chain
  canonicalVotes.filterMapM fun v => do
    let decision ← validateBootstrapEligibility env.rt cfg v.nodeId m chain
    return if decision.eligible then Outcome.ofVal? (Dict.get (payload v.event) "side") else none

end Vincent.Economy
