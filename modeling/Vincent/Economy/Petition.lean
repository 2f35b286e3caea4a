-- SUMMARY: Petitions and constitutional challenges: their states over the chain.
import Vincent.Economy.Ballots

/-!
# Petitions

`compute_petition_state` replays a petition through signatures, vote and challenge.
All weights are taken anew on the whole chain, so that what was decided can be decided
again.
-/

namespace Vincent.Economy

open Vincent.Python Vincent.Check

/-- The values of `CONFIG` that a petition reads, with the ranges of `CONFIG_SCHEMA`. -/
structure PetitionConfig extends RepConfig where
  petitionSignatureThreshold : ℚ := 1 / 4
  petitionSignatureWindowDays : Nat := 14
  petitionVoteWindowDays : Nat := 7
  petitionSupermajority : ℚ := 67 / 100
  petitionQuorum : ℚ := 3 / 10
  challengeWindowHours : Nat := 48
  petitionSignature_range : 1 / 20 ≤ petitionSignatureThreshold ∧
    petitionSignatureThreshold ≤ 1 / 2 := by
    first | exact signature_std | decide +kernel
  petitionSignatureWindow_range : 1 ≤ petitionSignatureWindowDays ∧
    petitionSignatureWindowDays ≤ 60 := by first | exact window_std | decide
  petitionVoteWindow_range : 1 ≤ petitionVoteWindowDays ∧ petitionVoteWindowDays ≤ 30 := by
    first | exact PetitionConfig.std.petitionVoteWindow_range | decide
  petitionSupermajority_range : 51 / 100 ≤ petitionSupermajority ∧
    petitionSupermajority ≤ 95 / 100 := by
    first | exact PetitionConfig.std.petitionSupermajority_range | decide +kernel
  petitionQuorum_range : 1 / 10 ≤ petitionQuorum ∧ petitionQuorum ≤ 4 / 5 := by
    first | exact PetitionConfig.std.petitionQuorum_range | decide +kernel
  challengeWindow_range : 12 ≤ challengeWindowHours ∧ challengeWindowHours ≤ 168 := by
    first | exact challenge_std | decide

def PetitionConfig.std : PetitionConfig where
  petitionSignature_range := signature_std
  petitionSignatureWindow_range := window_std
  petitionVoteWindow_range := by decide
  challengeWindow_range := challenge_std
  petitionSupermajority_range := by decide +kernel
  petitionQuorum_range := by decide +kernel

/-- The events of a type that name the petition. -/
def petitionEvents (petitionId eventType : String) (chain : List Dict) : List Dict :=
  chain.filter fun event =>
    (Dict.get (payload event) "petition_id").eq (.str petitionId) && hasType eventType event

section Model

variable (rt : Runtime) (cfg : PetitionConfig) (petitionId : String) (chain : List Dict)

/-- The governance weight of a node on the chain. -/
def petitionWeights : Weights := fun nodeId ts =>
  computeOracleRepActive rt cfg.toRepConfig nodeId chain ts

/-! ## Challenges -/

inductive ChallengeOutcome where
  | none
  | pending
  | voided
  | rejected
deriving DecidableEq, Repr

structure ChallengeState where
  petitionId : String
  filed : Bool := false
  filerId : Option String := none
  filedAt : Option PyFloat := none
  deadline : Option PyFloat := none
  upholdWeight : PyFloat := .finite 0
  voidWeight : PyFloat := .finite 0
  outcome : ChallengeOutcome := .none

/-- The end of a challenge. -/
def challengeDeadline (filedAt : PyFloat) : PyFloat := filedAt.add (hours cfg.challengeWindowHours)

def challengeVotes (filedAt : PyFloat) : Except String Tally :=
  castBallots rt (petitionWeights rt cfg chain)
    { yea := "uphold", nay := "void", emptyVoter := false, opens := filedAt,
      closes := challengeDeadline cfg filedAt } []
    (petitionEvents petitionId "challenge_vote" chain)

/-- The outcome of a challenge with these votes. -/
def challengeOutcome (deadline now : PyFloat) (tally : Tally) : ChallengeOutcome :=
  if now.le deadline then .pending
  else if tally.nay.lt tally.yea then .voided
  else .rejected

def computeChallengeState (now : PyFloat) : Except String ChallengeState :=
  match (petitionEvents petitionId "challenge_file" chain).head? with
  | none => .ok { petitionId }
  | some file => do
    let filedAt ← timestamp rt file
    let tally ← challengeVotes rt cfg petitionId chain filedAt
    return { petitionId, filed := true, filerId := some (Dict.text rt file "node_id"),
             filedAt := some filedAt, deadline := some (challengeDeadline cfg filedAt),
             upholdWeight := tally.yea, voidWeight := tally.nay,
             outcome := challengeOutcome (challengeDeadline cfg filedAt) now tally }

/-! ## Petitions -/

inductive PetitionStage where
  | notFound
  | signatures
  | voting
  | challenge
  | passed
  | executed
  | failedSignatures
  | failedVote
  | voidedChallenge
deriving DecidableEq, Repr

structure PetitionState where
  petitionId : String
  status : PetitionStage
  filerId : String := ""
  filedAt : PyFloat := .finite 0
  petitionPayload : PyVal := .dict []
  signatureGovernanceWeight : PyFloat := .finite 0
  signatureThresholdAtFiling : PyFloat := .finite 0
  votesForWeight : PyFloat := .finite 0
  votesAgainstWeight : PyFloat := .finite 0
  votingStartedAt : Option PyFloat := none
  votingDeadline : Option PyFloat := none
  challengeWindowUntil : Option PyFloat := none

/-- An element of a list that `dict` reads as a key and a value. -/
def isPair : PyVal → Except String Unit
  | .list [k, _] => if hashable k then .ok () else .error "TypeError"
  | .str s => if s.length = 2 then .ok () else .error "ValueError"
  | .dict kvs => if kvs.length = 2 then .ok () else .error "ValueError"
  | .list _ => .error "ValueError"
  | _ => .error "TypeError"

/-- `dict(v or {})`. A list of pairs stands for the dict that they make. -/
def dictOf (v : PyVal) : Except String PyVal :=
  match v.or (.dict []) with
  | .dict kvs => .ok (.dict kvs)
  | .list xs => do
    forM xs isPair
    return .list xs
  | .str _ => .error "ValueError"
  | _ => .error "TypeError"

/-- The end of the signature window. -/
def petitionSignaturesClose (filedAt : PyFloat) : PyFloat :=
  filedAt.add (days cfg.petitionSignatureWindowDays)

def petitionSignatures (filedAt : PyFloat) : Except String Signatures :=
  collectSignatures rt (petitionWeights rt cfg chain)
    { emptySigner := false, lateSeen := true, closes := petitionSignaturesClose cfg filedAt } []
    (petitionEvents petitionId "petition_sign" chain)

def petitionVotingDeadline (votingStartedAt : PyFloat) : PyFloat :=
  votingStartedAt.add (days cfg.petitionVoteWindowDays)

def petitionVotes (votingStartedAt : PyFloat) (cache : WeightCache) : Except String Tally :=
  castBallots rt (petitionWeights rt cfg chain)
    { yea := "for", nay := "against", emptyVoter := false, opens := votingStartedAt,
      closes := petitionVotingDeadline cfg votingStartedAt } cache
    (petitionEvents petitionId "petition_vote" chain)

def petitionThresholds : VoteThresholds where
  quorum := cfg.petitionQuorum
  supermajority := cfg.petitionSupermajority

/-- The end of the challenge window. -/
def petitionChallengeUntil (filedAt votingDeadline : PyFloat) : PyFloat :=
  (floatOr votingDeadline filedAt).add (hours cfg.challengeWindowHours)

/-- The phases from the end of the vote on. -/
def petitionChallengePhase (now votingDeadline : PyFloat) (state : PetitionState) :
    Except String PetitionState := do
  let windowUntil := petitionChallengeUntil cfg state.filedAt votingDeadline
  let state := { state with status := .challenge, challengeWindowUntil := some windowUntil }
  let challenge ← computeChallengeState rt cfg petitionId chain now
  if challenge.outcome = .voided then return { state with status := .voidedChallenge }
  else if now.le windowUntil then return state
  else if petitionEvents petitionId "petition_execute" chain ≠ [] then
    return { state with status := .executed }
  else return { state with status := .passed }

/-- The phases from the end of the signatures on. -/
def petitionVotingPhase (now network votingStartedAt : PyFloat) (cache : WeightCache)
    (state : PetitionState) : Except String PetitionState := do
  let deadline := petitionVotingDeadline cfg votingStartedAt
  let tally ← petitionVotes rt cfg petitionId chain votingStartedAt cache
  let state := { state with
    status := .voting, votingStartedAt := some votingStartedAt, votingDeadline := some deadline,
    votesForWeight := tally.yea, votesAgainstWeight := tally.nay }
  if now.le deadline then return state
  else if !tally.passes (petitionThresholds cfg) network then
    return { state with status := .failedVote }
  else petitionChallengePhase rt cfg petitionId chain now deadline state

/-- The phases of a petition that was filed at a time. -/
def petitionPhases (now filedAt network : PyFloat) (state : PetitionState) :
    Except String PetitionState := do
  let threshold := network.mul (.finite cfg.petitionSignatureThreshold)
  let signed ← petitionSignatures rt cfg petitionId chain filedAt
  let state := { state with signatureThresholdAtFiling := threshold,
                            signatureGovernanceWeight := signed.weight }
  if !(threshold.le signed.weight && (PyFloat.finite 0).lt threshold) then
    return if (petitionSignaturesClose cfg filedAt).lt now then
      { state with status := .failedSignatures }
    else state
  else do
    let votingStartedAt ← latestSignature rt filedAt signed.seen
      (petitionEvents petitionId "petition_sign" chain)
    petitionVotingPhase rt cfg petitionId chain now network votingStartedAt signed.cache state

def computePetitionState (now : PyFloat) : Except String PetitionState :=
  match (petitionEvents petitionId "petition_file" chain).head? with
  | none => .ok { petitionId, status := .notFound }
  | some file => do
    let filedAt ← timestamp rt file
    let petitionPayload ← dictOf (Dict.get (payload file) "petition_payload")
    let network ← networkWeight (petitionWeights rt cfg chain) chain now
    petitionPhases rt cfg petitionId chain now filedAt network.weight
      { petitionId, status := .signatures, filerId := Dict.text rt file "node_id", filedAt,
        petitionPayload }

end Model

end Vincent.Economy
