-- SUMMARY: The reputation ledger: votes, linked identities and cached scores.
import Vincent.Python.Value

/-!
# The reputation ledger

A vote adds its weight to the score of its target, and decays over two years. A voter is
stored under a blinded id, and pays for a vote by a vote against that id. The scores are
computed when they are read, if anything was changed since they last were.
-/

namespace Vincent.Mesh.VoteLedger

open Vincent.Python

/-! ## Votes and scores -/

structure Vote where
  voterId : String := ""
  blindedVoterId : String := ""
  targetId : String
  vote : Int
  gate : String := ""
  timestamp : ℚ
  weight : ℚ := 1
  agentVerify : Bool := false
  voteCost : Bool := false
deriving DecidableEq, Repr

structure Score where
  overall : ℚ := 0
  gates : String → Option ℚ := fun _ => none
  upvotes : Nat := 0
  downvotes : Nat := 0

structure NodeInfo where
  firstSeen : ℚ
  agent : Bool := false
deriving DecidableEq, Repr

/-- The ledger. Nothing reads the time at which the scores were computed. -/
structure Ledger where
  votes : List Vote := []
  aliases : List (String × String) := []
  nodes : List (String × NodeInfo) := []
  scores : String → Option Score := fun _ => none
  dirty : Bool := true
  computedAt : ℚ := 0

/-- The digest of an id under a salt, the decimal logarithm, `round(_, 1)`, and the text of a
    number. -/
structure Env where
  hexdigest : String → String → String
  log10 : ℚ → ℚ
  round1 : ℚ → ℚ
  str : ℚ → String

def voteDecayDays : ℚ := 720

def decaySeconds : ℚ := voteDecayDays * 86400

def minRepToVote : ℚ := 3

def bootstrapThreshold : Nat := 1000

section Model

variable (env : Env) (now : ℚ) (salts : List String)

/-! ## Blinded ids -/

def blindVoter (voterId salt : String) : String :=
  if voterId = "" then "" else String.ofList ((env.hexdigest voterId salt).toList.take 8) ++ "…"

/-- `_blinded_voter_candidates`, under the salts that are in use. -/
def blindedVoterCandidates (voterId : String) : List String :=
  if voterId = "" then []
  else ((salts.map (blindVoter env voterId)).filter fun blinded => blinded ≠ "").eraseDups

def voteStorageSalt : String := salts.headD ""

def storedVoterId (v : Vote) : String :=
  let blinded := strip v.blindedVoterId
  if blinded ≠ "" then blinded
  else
    let raw := strip v.voterId
    if raw = "" then "" else blindVoter env raw (voteStorageSalt salts)

def storedVoterMatches (v : Vote) (voterId : String) : Bool :=
  let blinded := storedVoterId env salts v
  blinded ≠ "" && blinded ∈ blindedVoterCandidates env salts voterId

/-! ## Scores -/

/-- The vote is within the decay window. -/
def Vote.counts (v : Vote) : Prop := ¬ decaySeconds ≤ now - v.timestamp

instance (v : Vote) : Decidable (v.counts now) := inferInstanceAs (Decidable (¬ _))

def Vote.weighted (v : Vote) : ℚ := v.vote * v.weight * (1 - (now - v.timestamp) / decaySeconds)

/-- The score of a target with one more vote. -/
def Score.add (s : Score) (v : Vote) : Score where
  overall := s.overall + v.weighted now
  gates := if v.gate = "" then s.gates
    else Function.update s.gates v.gate (some ((s.gates v.gate).getD 0 + v.weighted now))
  upvotes := if 0 < v.vote then s.upvotes + 1 else s.upvotes
  downvotes := if 0 < v.vote then s.downvotes else s.downvotes + 1

/-- One vote of the loop. -/
def tally (scores : String → Option Score) (v : Vote) : String → Option Score :=
  if v.counts now then
    Function.update scores v.targetId (some (((scores v.targetId).getD {}).add now v))
  else scores

def Score.rounded (s : Score) : Score :=
  { s with overall := env.round1 s.overall, gates := fun g => (s.gates g).map env.round1 }

/-- The scores over the votes. -/
def computeScores (votes : List Vote) : String → Option Score :=
  fun target => (votes.foldl (tally now) (fun _ => none) target).map (Score.rounded env)

def recomputeScores (l : Ledger) : Ledger :=
  if l.dirty then { l with scores := computeScores env now l.votes, dirty := false, computedAt := now }
  else l

def mergeScores (a b : Score) : Score where
  overall := a.overall + b.overall
  gates g := match a.gates g, b.gates g with
    | none, none => none
    | x, y => some (x.getD 0 + y.getD 0)
  upvotes := a.upvotes + b.upvotes
  downvotes := a.downvotes + b.downvotes

/-- The score of a blinded id is merged if there is any. -/
def mergeWallet (scores : String → Option Score) (nodeId : String) (base : Score)
    (blinded : String) : Score :=
  if blinded = nodeId then base
  else
    let wallet := (scores blinded).getD {}
    if wallet.overall ≠ 0 ∨ wallet.upvotes ≠ 0 ∨ wallet.downvotes ≠ 0 then mergeScores base wallet
    else base

/-- The identity that a node is linked to. -/
def Ledger.aliasOf (l : Ledger) (nodeId : String) : Option String :=
  (l.aliases.lookup nodeId).filter fun old => old ≠ ""

def getReputation (nodeId : String) (l : Ledger) : Ledger × Score :=
  let l := recomputeScores env now l
  let base := (l.scores nodeId).getD {}
  let base := match l.aliasOf nodeId with
    | some old => mergeScores base ((l.scores old).getD {})
    | none => base
  (l, (blindedVoterCandidates env salts nodeId).foldl (mergeWallet l.scores nodeId) base)

/-! ## Identities -/

def linkIdentities (oldId newId : String) (l : Ledger) : Ledger × Except String String :=
  if oldId = "" ∨ newId = "" then (l, .error "Missing old_id or new_id")
  else if oldId = newId then (l, .error "Old and new IDs must differ")
  else if (l.aliases.lookup newId).isSome then (l, .error (newId ++ " is already linked"))
  else match l.aliases.lookup oldId with
    | some linked => (l, .error (oldId ++ " is already linked to " ++ linked))
    | none =>
      if l.aliases.any fun link => link.2 = oldId then
        (l, .error (oldId ++ " is already the source of a link"))
      else ({ l with aliases := (newId, oldId) :: l.aliases, dirty := true }, .ok "linked")

/-! ## Casting a vote -/

def getNodeAgeDays (nodeId : String) (l : Ledger) : ℚ :=
  match l.nodes.lookup nodeId with
  | some node => (now - node.firstSeen) / 86400
  | none => 0

def isAgent (nodeId : String) (l : Ledger) : Bool :=
  ((l.nodes.lookup nodeId).map (·.agent)).getD false

def computeVoteWeight (voterId : String) (l : Ledger) : Ledger × ℚ :=
  let (l, reputation) := getReputation env now salts voterId l
  let repFactor := env.log10 (1 + |reputation.overall|) / env.log10 101
  let tenureFactor := min 1 (getNodeAgeDays now voterId l / voteDecayDays)
  (l, max (1 / 10) (min 1 (repFactor * tenureFactor)))

/-- The vote of the voter on the target in the gate. -/
def ofVoter (voterId targetId gate : String) (v : Vote) : Bool :=
  storedVoterMatches env salts v voterId && v.targetId = targetId && v.gate = gate

/-- The vote, and what it costs if it is the first. -/
def newVotes (voterId targetId gate : String) (vote : Int) (weight : ℚ) (agent isFirst : Bool) :
    List Vote :=
  let blindedVoterId := blindVoter env voterId (voteStorageSalt salts)
  { voterId, blindedVoterId, targetId, vote, gate, timestamp := now, weight, agentVerify := agent } ::
    if isFirst then
      [{ voterId := "__system__", targetId := blindedVoterId, vote := -1, timestamp := now, weight,
         voteCost := true }]
    else []

/-- `" in gate '…'"`. -/
def inGate (gate : String) : String := if gate = "" then "" else " in gate '" ++ gate ++ "'"

/-- The reputation of a voter is read only once the network has grown. -/
def voterRep (voterId : String) (l : Ledger) : Ledger × Option ℚ :=
  if bootstrapThreshold ≤ l.nodes.length then
    let (l, reputation) := getReputation env now salts voterId l
    (l, some reputation.overall)
  else (l, none)

def castVote (voterId targetId : String) (vote : Int) (gate : String) (l : Ledger) :
    Ledger × Except String (String × ℚ) :=
  let direction := if vote = 1 then "up" else "down"
  if vote ≠ 1 ∧ vote ≠ -1 then (l, .error "Vote must be +1 or -1")
  else
    let networkSize := l.nodes.length
    let (l, rep) := voterRep env now salts voterId l
    match rep.filter fun rep => rep < minRepToVote with
    | some rep =>
      (l, .error ("Need " ++ "3" ++ " reputation to vote (you have " ++ env.str rep ++
        "). Network has " ++ toString networkSize ++ " nodes — rep-to-vote is active."))
    | none =>
      let existing := l.votes.find? (ofVoter env salts voterId targetId gate)
      if existing.any fun v => v.vote = vote then
        (l, .error ("Vote already set to " ++ direction ++ " on " ++ targetId ++ inGate gate))
      else
        let l := { l with votes := l.votes.filter fun v => !ofVoter env salts voterId targetId gate v }
        let (l, weight) := computeVoteWeight env now salts voterId l
        let votes := l.votes ++ newVotes env now salts voterId targetId gate vote weight
          (isAgent voterId l) existing.isNone
        ({ l with votes, dirty := true },
          .ok ("Voted " ++ direction ++ " on " ++ targetId ++ inGate gate, weight))

/-! ## Expired votes -/

def cleanupExpired (l : Ledger) : Ledger :=
  let cutoff := now - decaySeconds
  let votes := l.votes.filter fun v => cutoff ≤ v.timestamp
  if votes.length ≠ l.votes.length then { l with votes, dirty := true } else { l with votes }

end Model

/-! ## Runs -/

inductive VoteAction where
  | castVote (voterId targetId : String) (vote : Int) (gate : String)
  | linkIdentities (oldId newId : String)
  | cleanupExpired
  | getReputation (nodeId : String)

/-- An action at a time, under the salts that are in use then. -/
def voteStep (env : Env) (l : Ledger) : ℚ × List String × VoteAction → Ledger
  | (now, salts, .castVote voterId targetId vote gate) =>
    (castVote env now salts voterId targetId vote gate l).1
  | (_, _, .linkIdentities oldId newId) => (linkIdentities oldId newId l).1
  | (now, _, .cleanupExpired) => cleanupExpired now l
  | (now, salts, .getReputation nodeId) => (getReputation env now salts nodeId l).1

end Vincent.Mesh.VoteLedger
