-- SUMMARY: Only a proposal voted for and not voided activates.
import Mathlib.Data.Finset.Card
import Vincent.Economy.Ballots

/-!
# Upgrades

`compute_upgrade_state` replays a proposal through its phases: signatures, vote,
challenge, and the readiness of the heavy nodes. A proposal that has cleared its
challenge is activated by any `upgrade_activate` event, with or without the
readiness.
-/

namespace Vincent.Economy

open Vincent.Python Vincent.Check

/-- The values of `CONFIG` that an upgrade reads, with the ranges of `CONFIG_SCHEMA`. -/
structure UpgradeConfig extends RepConfig where
  upgradeSignatureThreshold : ℚ := 1 / 4
  upgradeSignatureWindowDays : Nat := 14
  upgradeVoteWindowDays : Nat := 14
  upgradeSupermajority : ℚ := 4 / 5
  upgradeQuorum : ℚ := 2 / 5
  upgradeActivationThreshold : ℚ := 67 / 100
  upgradeActivationWindowDays : Nat := 30
  upgradeChallengeWindowHours : Nat := 48
  upgradeSignature_range : 1 / 20 ≤ upgradeSignatureThreshold ∧
    upgradeSignatureThreshold ≤ 1 / 2 := by
    first | exact signature_std | decide +kernel
  upgradeSignatureWindow_range : 1 ≤ upgradeSignatureWindowDays ∧
    upgradeSignatureWindowDays ≤ 60 := by decide
  upgradeVoteWindow_range : 1 ≤ upgradeVoteWindowDays ∧ upgradeVoteWindowDays ≤ 60 := by decide
  upgradeSupermajority_range : 51 / 100 ≤ upgradeSupermajority ∧
    upgradeSupermajority ≤ 99 / 100 := by
    first | exact UpgradeConfig.std.upgradeSupermajority_range | decide +kernel
  upgradeQuorum_range : 1 / 10 ≤ upgradeQuorum ∧ upgradeQuorum ≤ 95 / 100 := by
    first | exact UpgradeConfig.std.upgradeQuorum_range | decide +kernel
  upgradeActivation_range : 51 / 100 ≤ upgradeActivationThreshold ∧
    upgradeActivationThreshold ≤ 99 / 100 := by
    first | exact UpgradeConfig.std.upgradeActivation_range | decide +kernel
  upgradeActivationWindow_range : 1 ≤ upgradeActivationWindowDays ∧
    upgradeActivationWindowDays ≤ 90 := by decide
  upgradeChallengeWindow_range : 12 ≤ upgradeChallengeWindowHours ∧
    upgradeChallengeWindowHours ≤ 168 := by decide

def UpgradeConfig.std : UpgradeConfig where
  upgradeSignature_range := signature_std
  upgradeSignatureWindow_range := window_std
  upgradeVoteWindow_range := window_std
  upgradeChallengeWindow_range := challenge_std
  upgradeSupermajority_range := by decide +kernel
  upgradeQuorum_range := by decide +kernel
  upgradeActivation_range := by decide +kernel

/-! ## State -/

inductive UpgradeStatus where
  | notFound
  | signatures
  | voting
  | challenge
  | activation
  | activated
  | failedSignatures
  | failedVote
  | voidedChallenge
  | failedActivation
deriving DecidableEq, Repr

structure HeavyNodeReadinessState where
  totalHeavyNodes : Nat := 0
  readyCount : Nat := 0
  fraction : ℚ := 0
  thresholdMet : Bool := false
deriving DecidableEq

structure UpgradeProposalState where
  proposalId : String
  status : UpgradeStatus
  proposerId : String := ""
  filedAt : PyFloat := .finite 0
  releaseHash : String := ""
  targetProtocolVersion : String := ""
  signatureGovernanceWeight : PyFloat := .finite 0
  votesForWeight : PyFloat := .finite 0
  votesAgainstWeight : PyFloat := .finite 0
  votingStartedAt : Option PyFloat := none
  votingDeadline : Option PyFloat := none
  challengeWindowUntil : Option PyFloat := none
  activationDeadline : Option PyFloat := none
  readiness : HeavyNodeReadinessState := {}
deriving DecidableEq

/-- The events of a type that name the proposal. -/
def proposalEvents (proposalId eventType : String) (chain : List Dict) : List Dict :=
  chain.filter fun event =>
    (Dict.get (payload event) "proposal_id").eq (.str proposalId) && hasType eventType event

/-- The state that a proposal is filed in. -/
def filedState (rt : Runtime) (proposalId : String) (propose : Dict) (filedAt : PyFloat) :
    UpgradeProposalState :=
  { proposalId, status := .signatures, proposerId := Dict.text rt propose "node_id", filedAt,
    releaseHash := Dict.text rt (payload propose) "release_hash",
    targetProtocolVersion := Dict.text rt (payload propose) "target_protocol_version" }

/-! ## Phases -/

section Phases

variable (rt : Runtime) (cfg : UpgradeConfig) (proposalId : String) (chain : List Dict)

/-- `_w`, without its cache. -/
def upgradeWeights : Weights := fun nodeId ts =>
  computeOracleRepActive rt cfg.toRepConfig nodeId chain ts

/-- The end of the signature window. -/
def signaturesClose (filedAt : PyFloat) : PyFloat :=
  filedAt.add (days cfg.upgradeSignatureWindowDays)

def upgradeSignatures (filedAt : PyFloat) (cache : WeightCache) : Except String Signatures :=
  collectSignatures rt (upgradeWeights rt cfg chain)
    { emptySigner := true, lateSeen := false, closes := signaturesClose cfg filedAt } cache
    (proposalEvents proposalId "upgrade_sign" chain)

/-- `signature_governance_weight >= sig_threshold > 0`. -/
def signaturesSuffice (network weight : PyFloat) : Bool :=
  let sigThreshold := network.mul (.finite cfg.upgradeSignatureThreshold)
  sigThreshold.le weight && (PyFloat.finite 0).lt sigThreshold

def upgradeVotingDeadline (votingStartedAt : PyFloat) : PyFloat :=
  votingStartedAt.add (days cfg.upgradeVoteWindowDays)

def upgradeVotes (votingStartedAt : PyFloat) (cache : WeightCache) : Except String Tally :=
  castBallots rt (upgradeWeights rt cfg chain)
    { yea := "for", nay := "against", emptyVoter := true, opens := votingStartedAt,
      closes := upgradeVotingDeadline cfg votingStartedAt } cache
    (proposalEvents proposalId "upgrade_vote" chain)

def upgradeThresholds : VoteThresholds where
  quorum := cfg.upgradeQuorum
  supermajority := cfg.upgradeSupermajority

/-- The end of the challenge window. -/
def upgradeChallengeUntil (filedAt votingDeadline : PyFloat) : PyFloat :=
  (floatOr votingDeadline filedAt).add (hours cfg.upgradeChallengeWindowHours)

/-- The votes on the challenge, if one was filed. The sort has read every timestamp by the
    time that there are weights to sign with. -/
def upgradeChallengeVotes (windowUntil : PyFloat) (cache : WeightCache) :
    Except String (Option Tally) :=
  match (proposalEvents proposalId "upgrade_challenge" chain).head? with
  | none => .ok none
  | some challenge => do
    let challengeAt ← timestamp rt challenge
    some <$> castBallots rt (upgradeWeights rt cfg chain)
      { yea := "uphold", nay := "void", emptyVoter := true, opens := challengeAt,
        closes := floatOr windowUntil (.finite 0) } cache
      (proposalEvents proposalId "upgrade_challenge_vote" chain)

/-- The challenge is upheld: more weight upholds it than voids it. -/
def challengeUpheld : Option Tally → Bool
  | none => false
  | some tally => tally.nay.lt tally.yea

/-- A node that signals readiness for the release. -/
def readySignal (heavy : Finset String) (releaseHash : String) (event : Dict) : Option String :=
  match Dict.get event "node_id" with
  | .str node =>
    if node ∈ heavy ∧ (Dict.get (payload event) "release_hash").eq (.str releaseHash) then
      some node
    else none
  | _ => none

/-- `seen_ready` after one more signal. -/
def seeReady (heavy : Finset String) (releaseHash : String) (seen : List String)
    (event : Dict) : List String :=
  match readySignal heavy releaseHash event with
  | none => seen
  | some node => if node ∈ seen then seen else seen ++ [node]

def seenReady (heavy : Finset String) (releaseHash : String) : List String :=
  (proposalEvents proposalId "upgrade_signal_ready" chain).foldl (seeReady heavy releaseHash) []

def heavyNodeReadiness (heavy : Finset String) (releaseHash : String) :
    HeavyNodeReadinessState :=
  let readyCount := (seenReady proposalId chain heavy releaseHash).length
  let fraction := if heavy = ∅ then 0 else (readyCount : ℚ) / (max heavy.card 1 : Nat)
  { totalHeavyNodes := heavy.card, readyCount, fraction,
    thresholdMet := cfg.upgradeActivationThreshold ≤ fraction }

/-- The activation phase. -/
def activationPhase (heavy : Finset String) (now : PyFloat) (windowUntil : PyFloat)
    (state : UpgradeProposalState) : UpgradeProposalState :=
  let deadline := (floatOr windowUntil state.filedAt).add (days cfg.upgradeActivationWindowDays)
  let readiness := heavyNodeReadiness cfg proposalId chain heavy state.releaseHash
  let state := { state with status := .activation, activationDeadline := some deadline, readiness }
  if proposalEvents proposalId "upgrade_activate" chain ≠ [] then
    { state with status := .activated }
  else if readiness.thresholdMet then state
  else if deadline.lt now then { state with status := .failedActivation }
  else state

/-- The phases from the end of the vote on. -/
def challengePhase (heavy : Finset String) (now : PyFloat) (votingDeadline : PyFloat)
    (cache : WeightCache) (state : UpgradeProposalState) :
    Except String UpgradeProposalState := do
  let windowUntil := upgradeChallengeUntil cfg state.filedAt votingDeadline
  let state := { state with status := .challenge, challengeWindowUntil := some windowUntil }
  let challenge ← upgradeChallengeVotes rt cfg proposalId chain windowUntil cache
  if windowUntil.lt now && challengeUpheld challenge then
    return { state with status := .voidedChallenge }
  else if now.le windowUntil then return state
  else return activationPhase cfg proposalId chain heavy now windowUntil state

/-- The phases from the end of the signatures on. -/
def votingPhase (heavy : Finset String) (now : PyFloat) (network votingStartedAt : PyFloat)
    (cache : WeightCache) (state : UpgradeProposalState) :
    Except String UpgradeProposalState := do
  let deadline := upgradeVotingDeadline cfg votingStartedAt
  let tally ← upgradeVotes rt cfg proposalId chain votingStartedAt cache
  let state := { state with
    status := .voting, votingStartedAt := some votingStartedAt, votingDeadline := some deadline,
    votesForWeight := tally.yea, votesAgainstWeight := tally.nay }
  if now.le deadline then return state
  else if !tally.passes (upgradeThresholds cfg) network then
    return { state with status := .failedVote }
  else challengePhase rt cfg proposalId chain heavy now deadline tally.cache state

def computeUpgradeState (now : PyFloat) (heavy : Finset String) :
    Except String UpgradeProposalState :=
  match (proposalEvents proposalId "upgrade_propose" chain).head? with
  | none => .ok { proposalId, status := .notFound }
  | some propose => do
    let filedAt ← timestamp rt propose
    let network ← networkWeight (upgradeWeights rt cfg chain) chain now
    let signed ← upgradeSignatures rt cfg proposalId chain filedAt network.cache
    let state := { filedState rt proposalId propose filedAt with
      signatureGovernanceWeight := signed.weight }
    if !signaturesSuffice cfg network.weight signed.weight then
      return if (signaturesClose cfg filedAt).lt now then
        { state with status := .failedSignatures }
      else state
    else do
      let votingStartedAt ← latestSignature rt filedAt signed.seen
        (proposalEvents proposalId "upgrade_sign" chain)
      votingPhase rt cfg proposalId chain heavy now network.weight votingStartedAt signed.cache
        state

end Phases

/-! ## Readiness -/

section

variable {rt : Runtime} {cfg : UpgradeConfig} {proposalId : String} {chain : List Dict}
  {heavy : Finset String} {now : PyFloat} {state : UpgradeProposalState}

/-- The heavy nodes that have signalled readiness for the release. -/
def signalled (proposalId : String) (chain : List Dict) (heavy : Finset String)
    (releaseHash : String) : Finset String :=
  heavy.filter fun node => ∃ event ∈ proposalEvents proposalId "upgrade_signal_ready" chain,
    readySignal heavy releaseHash event = some node

/-- At least the required share of the heavy nodes have signalled readiness. -/
def Ready (cfg : UpgradeConfig) (proposalId : String) (chain : List Dict) (heavy : Finset String)
    (releaseHash : String) : Prop :=
  heavy.Nonempty ∧ cfg.upgradeActivationThreshold * heavy.card ≤
    (signalled proposalId chain heavy releaseHash).card

theorem readySignal_heavy {event : Dict} {releaseHash node : String}
    (h : readySignal heavy releaseHash event = some node) : node ∈ heavy := by
  unfold readySignal at h
  cases hnode : Dict.get event "node_id" with
  | str signer =>
    simp only [hnode, Option.ite_none_right_eq_some, Option.some.injEq] at h
    obtain ⟨⟨hheavy, -⟩, rfl⟩ := h
    exact hheavy
  | none | bool | int | float | list | dict =>
    rw [hnode] at h
    cases h

/-- The loop over the signals keeps each node that it sees once. -/
theorem foldl_seeReady {releaseHash : String} (events : List Dict) {seen : List String}
    (hseen : seen.Nodup) :
    (events.foldl (seeReady heavy releaseHash) seen).Nodup ∧
      ∀ node, node ∈ events.foldl (seeReady heavy releaseHash) seen ↔
        node ∈ seen ∨ ∃ event ∈ events, readySignal heavy releaseHash event = some node := by
  induction events generalizing seen with
  | nil => exact ⟨hseen, fun node => by simp⟩
  | cons event events ih =>
    rw [List.foldl_cons]
    cases hsignal : readySignal heavy releaseHash event with
    | none =>
      have hstep : seeReady heavy releaseHash seen event = seen := by
        unfold seeReady
        rw [hsignal]
      rw [hstep]
      obtain ⟨hnodup, hmem⟩ := ih hseen
      refine ⟨hnodup, fun node => ?_⟩
      rw [hmem]
      simp [hsignal]
    | some signer =>
      have hstep : seeReady heavy releaseHash seen event =
          if signer ∈ seen then seen else seen ++ [signer] := by
        unfold seeReady
        rw [hsignal]
      have hnext : (seeReady heavy releaseHash seen event).Nodup ∧
          ∀ node, node ∈ seeReady heavy releaseHash seen event ↔ node ∈ seen ∨ node = signer := by
        rw [hstep]
        split
        · rename_i hin
          refine ⟨hseen, fun node => ⟨Or.inl, ?_⟩⟩
          rintro (hnode | rfl)
          · exact hnode
          · exact hin
        · rename_i hin
          exact ⟨hseen.append (List.nodup_singleton _) (by simpa using hin), by simp⟩
      obtain ⟨hnodup, hmem⟩ := ih hnext.1
      refine ⟨hnodup, fun node => ?_⟩
      rw [hmem, hnext.2]
      simp [hsignal, or_assoc, eq_comm]

/-- The count of ready nodes is the number of heavy nodes that signalled. -/
theorem seenReady_length {releaseHash : String} :
    (seenReady proposalId chain heavy releaseHash).length =
      (signalled proposalId chain heavy releaseHash).card := by
  obtain ⟨hnodup, hmem⟩ := @foldl_seeReady heavy releaseHash
    (proposalEvents proposalId "upgrade_signal_ready" chain) [] List.nodup_nil
  have hset : (seenReady proposalId chain heavy releaseHash).toFinset =
      signalled proposalId chain heavy releaseHash := by
    ext node
    rw [List.mem_toFinset]
    refine (hmem node).trans ?_
    simp only [List.not_mem_nil, false_or, signalled, Finset.mem_filter]
    refine ⟨fun h => ⟨?_, h⟩, fun h => h.2⟩
    obtain ⟨event, -, hsignal⟩ := h
    exact readySignal_heavy hsignal
  rw [← hset]
  exact (List.toFinset_card_of_nodup hnodup).symm

theorem thresholdMet_iff {releaseHash : String} :
    (heavyNodeReadiness cfg proposalId chain heavy releaseHash).thresholdMet = true ↔
      Ready cfg proposalId chain heavy releaseHash := by
  unfold heavyNodeReadiness Ready
  simp only [decide_eq_true_eq, seenReady_length]
  rcases Finset.eq_empty_or_nonempty heavy with rfl | hheavy
  · have hpos := cfg.upgradeActivation_range.1
    simp only [if_true, Finset.not_nonempty_empty, false_and, iff_false, not_le]
    linarith
  · have hcard : 0 < heavy.card := Finset.card_pos.mpr hheavy
    have hmax : max heavy.card 1 = heavy.card := by omega
    have hcast : (0 : ℚ) < (heavy.card : ℚ) := by exact_mod_cast hcard
    rw [if_neg hheavy.ne_empty, hmax, le_div_iff₀ hcast]
    exact ⟨fun h => ⟨hheavy, h⟩, fun h => h.2⟩

/-! ## Activation -/

/-- What the phases of a proposal compute, up to the votes on its challenge. -/
structure UpgradePassage where
  propose : Dict
  filedAt : PyFloat
  network : Weighed
  signed : Signatures
  votingStartedAt : PyFloat
  tally : Tally
  challenge : Option Tally

namespace UpgradePassage

/-- The end of the vote. -/
def deadline (cfg : UpgradeConfig) (p : UpgradePassage) : PyFloat :=
  upgradeVotingDeadline cfg p.votingStartedAt

/-- The end of the challenge window. -/
def windowUntil (cfg : UpgradeConfig) (p : UpgradePassage) : PyFloat :=
  upgradeChallengeUntil cfg p.filedAt (p.deadline cfg)

/-- The values are those of the chain. -/
structure Computed (rt : Runtime) (cfg : UpgradeConfig) (proposalId : String) (chain : List Dict)
    (now : PyFloat) (p : UpgradePassage) : Prop where
  propose : (proposalEvents proposalId "upgrade_propose" chain).head? = some p.propose
  filedAt : timestamp rt p.propose = .ok p.filedAt
  network : networkWeight (upgradeWeights rt cfg chain) chain now = .ok p.network
  signed : upgradeSignatures rt cfg proposalId chain p.filedAt p.network.cache = .ok p.signed
  started : latestSignature rt p.filedAt p.signed.seen
    (proposalEvents proposalId "upgrade_sign" chain) = .ok p.votingStartedAt
  tally : upgradeVotes rt cfg proposalId chain p.votingStartedAt p.signed.cache = .ok p.tally
  challenge : upgradeChallengeVotes rt cfg proposalId chain (p.windowUntil cfg) p.tally.cache =
    .ok p.challenge

/-- The signatures sufficed, the vote is over, and it met quorum and supermajority. -/
def PassedVote (cfg : UpgradeConfig) (now : PyFloat) (p : UpgradePassage) : Prop :=
  signaturesSuffice cfg p.network.weight p.signed.weight = true ∧
    now.le (p.deadline cfg) = false ∧
    p.tally.passes (upgradeThresholds cfg) p.network.weight = true

/-- The challenge window is over, and no challenge was upheld by its end. -/
def SurvivedChallenge (cfg : UpgradeConfig) (now : PyFloat) (p : UpgradePassage) : Prop :=
  now.le (p.windowUntil cfg) = false ∧
    ((p.windowUntil cfg).lt now && challengeUpheld p.challenge) = false

end UpgradePassage

/-- The hash of the release that the proposal is for. -/
def proposedHash (rt : Runtime) (proposalId : String) (chain : List Dict) : String :=
  match (proposalEvents proposalId "upgrade_propose" chain).head? with
  | none => ""
  | some propose => Dict.text rt (payload propose) "release_hash"

/-- The proposal passed its vote and survived its challenge. -/
def Cleared (rt : Runtime) (cfg : UpgradeConfig) (proposalId : String) (chain : List Dict)
    (now : PyFloat) : Prop :=
  ∃ p : UpgradePassage, p.Computed rt cfg proposalId chain now ∧ p.PassedVote cfg now ∧
    p.SurvivedChallenge cfg now

/-- The activation phase activates a proposal exactly when an event says so. -/
theorem activationPhase_activated {windowUntil : PyFloat} :
    (activationPhase cfg proposalId chain heavy now windowUntil state).status = .activated ↔
      proposalEvents proposalId "upgrade_activate" chain ≠ [] := by
  unfold activationPhase
  split
  · simpa
  · rename_i hnone
    simp only [hnone, iff_false]
    split
    · simp
    · split <;> simp

/-- A proposal that the challenge phase activates survived its challenge. -/
theorem challengePhase_activated {deadline : PyFloat} {cache : WeightCache}
    {st : UpgradeProposalState}
    (h : challengePhase rt cfg proposalId chain heavy now deadline cache st = .ok state)
    (hstatus : state.status = .activated) :
    ∃ challenge, upgradeChallengeVotes rt cfg proposalId chain
        (upgradeChallengeUntil cfg st.filedAt deadline) cache = .ok challenge ∧
      now.le (upgradeChallengeUntil cfg st.filedAt deadline) = false ∧
      ((upgradeChallengeUntil cfg st.filedAt deadline).lt now && challengeUpheld challenge) =
        false ∧
      proposalEvents proposalId "upgrade_activate" chain ≠ [] := by
  obtain ⟨challenge, hchallenge, h⟩ := bind_eq_ok.mp h
  refine ⟨challenge, hchallenge, ?_⟩
  split_ifs at h with hupheld hopen <;> obtain rfl := pure_eq_ok.mp h
  · cases hstatus
  · cases hstatus
  · exact ⟨Bool.eq_false_iff.mpr hopen, Bool.eq_false_iff.mpr hupheld,
      activationPhase_activated.mp hstatus⟩

/-- A proposal that the voting phase activates passed its vote. -/
theorem votingPhase_activated {network started : PyFloat} {cache : WeightCache}
    {st : UpgradeProposalState}
    (h : votingPhase rt cfg proposalId chain heavy now network started cache st = .ok state)
    (hstatus : state.status = .activated) :
    ∃ tally, upgradeVotes rt cfg proposalId chain started cache = .ok tally ∧
      now.le (upgradeVotingDeadline cfg started) = false ∧
      tally.passes (upgradeThresholds cfg) network = true ∧
      ∃ st', st'.filedAt = st.filedAt ∧ challengePhase rt cfg proposalId chain heavy now
        (upgradeVotingDeadline cfg started) tally.cache st' = .ok state := by
  obtain ⟨tally, htally, h⟩ := bind_eq_ok.mp h
  refine ⟨tally, htally, ?_⟩
  split_ifs at h with hopen hfails
  · obtain rfl := pure_eq_ok.mp h
    cases hstatus
  · obtain rfl := pure_eq_ok.mp h
    cases hstatus
  · refine ⟨Bool.eq_false_iff.mpr hopen, by simpa using hfails, _, ?_, h⟩
    rfl

/-- An activated proposal was cleared, and an event activated it. -/
theorem cleared_of_activated
    (h : computeUpgradeState rt cfg proposalId chain now heavy = .ok state)
    (hstatus : state.status = .activated) :
    Cleared rt cfg proposalId chain now ∧
      proposalEvents proposalId "upgrade_activate" chain ≠ [] := by
  unfold computeUpgradeState at h
  cases hpropose : (proposalEvents proposalId "upgrade_propose" chain).head? with
  | none =>
    rw [hpropose] at h
    cases h
    cases hstatus
  | some propose =>
    rw [hpropose] at h
    obtain ⟨filedAt, hfiled, h⟩ := bind_eq_ok.mp h
    obtain ⟨network, hnetwork, h⟩ := bind_eq_ok.mp h
    obtain ⟨signed, hsigned, h⟩ := bind_eq_ok.mp h
    split_ifs at h with hfails hclosed
    · obtain rfl := pure_eq_ok.mp h
      cases hstatus
    · obtain rfl := pure_eq_ok.mp h
      cases hstatus
    · obtain ⟨started, hstarted, h⟩ := bind_eq_ok.mp h
      obtain ⟨tally, htally, hover, hpasses, st, hst, h⟩ := votingPhase_activated h hstatus
      obtain ⟨challenge, hchallenge, hshut, hupheld, hactivate⟩ := challengePhase_activated h hstatus
      rw [hst] at hchallenge hshut hupheld
      refine ⟨⟨⟨propose, filedAt, network, signed, started, tally, challenge⟩,
        ⟨hpropose, hfiled, hnetwork, hsigned, hstarted, htally, hchallenge⟩,
        ⟨?_, hover, hpasses⟩, ⟨hshut, hupheld⟩⟩, hactivate⟩
      simpa using hfails

/-- A cleared proposal is activated by any activation event. -/
theorem activated_of_cleared (hcleared : Cleared rt cfg proposalId chain now)
    (hactivate : proposalEvents proposalId "upgrade_activate" chain ≠ []) :
    ∃ state, computeUpgradeState rt cfg proposalId chain now heavy = .ok state ∧
      state.status = .activated := by
  obtain ⟨p, hp, ⟨hsuffice, hover, hpasses⟩, hclosed, hupheld⟩ := hcleared
  have hchallenge := hp.challenge
  simp only [UpgradePassage.deadline, UpgradePassage.windowUntil] at hover hclosed hupheld hchallenge
  refine ⟨activationPhase cfg proposalId chain heavy now (p.windowUntil cfg)
    { filedState rt proposalId p.propose p.filedAt with
      signatureGovernanceWeight := p.signed.weight
      status := .challenge
      votingStartedAt := some p.votingStartedAt
      votingDeadline := some (p.deadline cfg)
      votesForWeight := p.tally.yea
      votesAgainstWeight := p.tally.nay
      challengeWindowUntil := some (p.windowUntil cfg) }, ?_,
    activationPhase_activated.mpr hactivate⟩
  simp only [computeUpgradeState, votingPhase, challengePhase, filedState, hp.propose, hp.filedAt,
    hp.network, hp.signed, hsuffice, hp.started, hp.tally, hover, hpasses, hchallenge, hupheld,
    hclosed, bind, Except.bind, pure, Except.pure, Bool.not_true, Bool.false_eq_true, if_false]
  rfl

/-- The proposal is activated only if it passed its vote, survived its challenge, and enough of
    the heavy nodes signalled readiness for its release. -/
def ActivatesOnlyWhenReady (rt : Runtime) (cfg : UpgradeConfig) (proposalId : String)
    (chain : List Dict) (now : PyFloat) (heavy : Finset String) : Prop :=
  ∀ state, computeUpgradeState rt cfg proposalId chain now heavy = .ok state →
    state.status = .activated →
      Cleared rt cfg proposalId chain now ∧
        Ready cfg proposalId chain heavy (proposedHash rt proposalId chain)

/-- The readiness is waited for exactly where nothing activates the proposal anyway, or the heavy
    nodes are ready. -/
theorem activatesOnlyWhenReady_iff (rt : Runtime) (cfg : UpgradeConfig) (proposalId : String)
    (chain : List PyVal) (now : PyFloat) (heavy : Finset String) :
    ActivatesOnlyWhenReady rt cfg proposalId (dicts chain) now heavy ↔
      proposalEvents proposalId "upgrade_activate" (dicts chain) = [] ∨
      ¬ Cleared rt cfg proposalId (dicts chain) now ∨
      Ready cfg proposalId (dicts chain) heavy (proposedHash rt proposalId (dicts chain)) := by
  constructor
  · intro honly
    rcases Classical.em (proposalEvents proposalId "upgrade_activate" (dicts chain) = [] ∨
      ¬ Cleared rt cfg proposalId (dicts chain) now) with h | h
    · exact h.imp_right Or.inl
    · obtain ⟨hactivate, hcleared⟩ := not_or.mp h
      have hcleared := not_not.mp hcleared
      obtain ⟨state, hstate, hstatus⟩ := @activated_of_cleared _ _ _ _ heavy _ hcleared hactivate
      exact Or.inr (Or.inr (honly state hstate hstatus).2)
  · intro hcases state hstate hstatus
    obtain ⟨hcleared, hactivate⟩ := cleared_of_activated hstate hstatus
    rcases hcases with h | h | hready
    · exact absurd h hactivate
    · exact absurd hcleared h
    · exact ⟨hcleared, hready⟩

end

/-! ## An activation that nobody is ready for -/

/-- A proposal that one node signs and votes for, and an activation. -/
def unreadyUpgrade : List PyVal :=
  finalizedMarket [placeEvent "bob" 2 "yes" 50 .none] ++
    [chainEvent "upgrade_propose" "ana" 30 [("proposal_id", .str "u1"),
      ("release_hash", .str "abc"), ("release_description", .str "d"),
      ("target_protocol_version", .str "2")],
    chainEvent "upgrade_sign" "bob" 31 [("proposal_id", .str "u1")],
    chainEvent "upgrade_vote" "bob" 32 [("proposal_id", .str "u1"), ("vote", .str "for")],
    chainEvent "upgrade_activate" "ana" 33 [("proposal_id", .str "u1"),
      ("new_protocol_version", .str "2")]]

theorem not_activatesOnlyWhenReady :
    ¬ ActivatesOnlyWhenReady asciiRuntime {} "u1" (dicts unreadyUpgrade)
      (.finite 1701500000) {"h1"} := by
  intro honly
  have hrun : okAnd (computeUpgradeState asciiRuntime {} "u1" (dicts unreadyUpgrade)
      (.finite 1701500000) {"h1"}) (fun state => state.status = .activated) = true := by
    decide +kernel
  obtain ⟨state, hstate, hstatus⟩ := okAnd_iff.mp hrun
  have hready := (honly state hstate (by simpa using hstatus)).2
  rw [← thresholdMet_iff] at hready
  revert hready
  decide +kernel

end Vincent.Economy
