-- SUMMARY: When a decided petition stays decided while the chain grows and time passes.
import Vincent.Economy.Petition

/-!
# Decided petitions

A later evaluation of a petition differs by the weights, the events that were
appended, and the time. Late votes are not counted, so what is appended matters only
as a signature or as a challenge.
-/

namespace Vincent.Economy

open Vincent.Python Vincent.Check

/-! ## Times -/

section

variable {a b x y : PyFloat}

theorem ne_nan_of_lt (h : x.lt y = true) : x ≠ .nan ∧ y ≠ .nan := by
  constructor
  · rintro rfl
    cases h
  · rintro rfl
    cases x <;> cases h

theorem ne_nan_of_le (h : x.le y = true) : x ≠ .nan ∧ y ≠ .nan := by
  simp only [PyFloat.le, Bool.and_eq_true, bne_iff_ne] at h
  exact h.1

theorem le_false_later (hab : a.le b = true) (h : a.le x = false) : b.le x = false := by
  obtain ⟨ha, hb⟩ := ne_nan_of_le hab
  rw [← Bool.not_eq_true] at h ⊢
  intro hbx
  obtain ⟨-, hx⟩ := ne_nan_of_le hbx
  apply h
  rw [PyFloat.le_place ha hx]
  exact ((PyFloat.le_place ha hb).mp hab).trans ((PyFloat.le_place hb hx).mp hbx)

theorem lt_later (h : x.lt a = true) (hab : a.le b = true) : x.lt b = true := by
  obtain ⟨hx, ha⟩ := ne_nan_of_lt h
  obtain ⟨-, hb⟩ := ne_nan_of_le hab
  rw [PyFloat.lt_place hx hb]
  exact ((PyFloat.lt_place hx ha).mp h).trans_le ((PyFloat.le_place ha hb).mp hab)

theorem lt_of_le_false (ha : a ≠ .nan) (hx : x ≠ .nan) (h : a.le x = false) : x.lt a = true := by
  rw [← Bool.not_eq_true, PyFloat.le_place ha hx, not_le] at h
  exact (PyFloat.lt_place hx ha).mpr h

theorem add_ne_nan {q : ℚ} (hx : x ≠ .nan) : x.add (.finite q) ≠ .nan := by
  cases x <;> simp_all [PyFloat.add]

theorem StampedAfter.earlier {rt : Runtime} {event : Dict} (hxa : x.lt a = true)
    (h : StampedAfter rt a event) : StampedAfter rt x event := by
  obtain ⟨k, hk, hlt⟩ := h
  obtain ⟨hx, ha⟩ := ne_nan_of_lt hxa
  obtain ⟨-, hts⟩ := ne_nan_of_lt hlt
  refine ⟨k, hk, ?_⟩
  rw [PyFloat.lt_place hx hts]
  exact ((PyFloat.lt_place hx ha).mp hxa).trans ((PyFloat.lt_place ha hts).mp hlt)

end

/-! ## What is kept -/

/-- The petition is decided. -/
def PetitionStage.Decided (stage : PetitionStage) : Prop :=
  stage ∈ [.passed, .executed, .failedSignatures, .failedVote, .voidedChallenge]

/-- A decided petition that is decided as before, where one that passed may be executed. -/
def PetitionStage.Stays (stage stage' : PetitionStage) : Prop :=
  stage' = stage ∨ stage = .passed ∧ stage' = .executed

/-- None was filed on the chain and one is appended, or the one that was filed is open. -/
def ChallengeOpen (rt : Runtime) (cfg : PetitionConfig) (petitionId : String)
    (chain more : List Dict) (now : PyFloat) : Prop :=
  match (petitionEvents petitionId "challenge_file" chain).head? with
  | none => petitionEvents petitionId "challenge_file" more ≠ []
  | some file => ∀ filedAt, timestamp rt file = .ok filedAt →
      now.le (challengeDeadline cfg filedAt) = true

/-- The weights stay, nobody signs a petition too late, and one that passed has no open
challenge. -/
structure Kept (rt : Runtime) (cfg : PetitionConfig) (petitionId : String)
    (chain more : List Dict) (now₁ now₂ : PyFloat) (stage : PetitionStage) : Prop where
  number : ∀ t, ∀ event ∈ petitionEvents petitionId t chain, NumberStamped rt event
  weights : ∀ t ∈ ["petition_sign", "petition_vote", "challenge_vote"],
    ∀ event ∈ petitionEvents petitionId t chain,
      AgreeAt rt (petitionWeights rt cfg (chain ++ more)) (petitionWeights rt cfg chain) event
  network : ∀ network, networkWeight (petitionWeights rt cfg chain) chain now₁ = .ok network →
    ∃ network', networkWeight (petitionWeights rt cfg (chain ++ more)) (chain ++ more) now₂ =
      .ok network' ∧ network'.weight = network.weight
  signatures : stage = .failedSignatures ∨ petitionEvents petitionId "petition_sign" more = []
  challenge : stage = .passed ∨ stage = .executed → ¬ ChallengeOpen rt cfg petitionId chain more now₁

section

variable {rt : Runtime} {cfg : PetitionConfig} {petitionId : String} {chain more : List Dict}
  {now₁ now₂ : PyFloat} {stage : PetitionStage} {state st : PetitionState}

theorem petitionEvents_append (t : String) : petitionEvents petitionId t (chain ++ more) =
    petitionEvents petitionId t chain ++ petitionEvents petitionId t more :=
  List.filter_append chain more

theorem head?_petitionEvents {t : String} {file : Dict}
    (h : (petitionEvents petitionId t chain).head? = some file) :
    (petitionEvents petitionId t (chain ++ more)).head? = some file := by
  rw [petitionEvents_append, List.head?_append, h]
  rfl

theorem mem_more {t : String} {time : PyFloat} (hafter : ∀ event ∈ more, StampedAfter rt now₁ event)
    (htime : time.lt now₁ = true) :
    ∀ event ∈ petitionEvents petitionId t more, StampedAfter rt time event :=
  fun event hevent => (hafter event (List.mem_filter.mp hevent).1).earlier htime

/-- The votes on a challenge that is over are counted as before. -/
theorem computeChallengeState_kept (hkept : Kept rt cfg petitionId chain more now₁ now₂ stage)
    (hafter : ∀ event ∈ more, StampedAfter rt now₁ event) (hnow : now₁.le now₂ = true)
    {file : Dict} {filedAt : PyFloat} {challenge : ChallengeState}
    (hfile : (petitionEvents petitionId "challenge_file" chain).head? = some file)
    (hfiled : timestamp rt file = .ok filedAt)
    (hover : now₁.le (challengeDeadline cfg filedAt) = false)
    (h : computeChallengeState rt cfg petitionId chain now₁ = .ok challenge) :
    ∃ challenge', computeChallengeState rt cfg petitionId (chain ++ more) now₂ = .ok challenge' ∧
      challenge'.outcome = challenge.outcome := by
  have hfiledNumber : filedAt ≠ .nan := by
    rintro rfl
    exact hkept.number _ file (List.mem_of_head? hfile) hfiled
  have hdeadline : (challengeDeadline cfg filedAt).lt now₁ = true :=
    lt_of_le_false (ne_nan_of_le hnow).1 (add_ne_nan hfiledNumber) hover
  have hvotes : challengeVotes rt cfg petitionId (chain ++ more) filedAt =
      challengeVotes rt cfg petitionId chain filedAt := by
    unfold challengeVotes
    rw [petitionEvents_append,
      castBallots_late (hkept.number "challenge_vote") (mem_more hafter hdeadline),
      castBallots_congr (hkept.weights _ (by simp))]
  unfold computeChallengeState at h ⊢
  rw [hfile] at h
  rw [head?_petitionEvents hfile]
  dsimp only at h ⊢
  rw [hfiled] at h ⊢
  simp only [bind, Except.bind, hvotes] at h ⊢
  cases htally : challengeVotes rt cfg petitionId chain filedAt with
  | error exn =>
    rw [htally] at h
    cases h
  | ok tally =>
    rw [htally] at h
    cases h
    refine ⟨_, rfl, ?_⟩
    simp only [challengeOutcome, hover, le_false_later hnow hover]

/-- A challenge that did not void the petition, and is open no more, does not void it later. -/
theorem challenge_kept (hkept : Kept rt cfg petitionId chain more now₁ now₂ stage)
    (hafter : ∀ event ∈ more, StampedAfter rt now₁ event) (hnow : now₁.le now₂ = true)
    {challenge : ChallengeState}
    (h : computeChallengeState rt cfg petitionId chain now₁ = .ok challenge)
    (hpast : challenge.outcome ≠ .voided → ¬ ChallengeOpen rt cfg petitionId chain more now₁) :
    ∃ challenge', computeChallengeState rt cfg petitionId (chain ++ more) now₂ = .ok challenge' ∧
      (challenge'.outcome = .voided ↔ challenge.outcome = .voided) := by
  cases hfile : (petitionEvents petitionId "challenge_file" chain).head? with
  | none =>
    have hnone : challenge.outcome = .none := by
      unfold computeChallengeState at h
      rw [hfile] at h
      cases h
      rfl
    have hopen := hpast (by rw [hnone]; decide)
    unfold ChallengeOpen at hopen
    rw [hfile] at hopen
    have hlater : (petitionEvents petitionId "challenge_file" (chain ++ more)).head? = none := by
      rw [petitionEvents_append, not_not.mp hopen, List.append_nil, hfile]
    refine ⟨{ petitionId }, ?_, by rw [hnone]⟩
    unfold computeChallengeState
    rw [hlater]
  | some file =>
    have hstate := h
    unfold computeChallengeState at hstate
    rw [hfile] at hstate
    obtain ⟨filedAt, hfiled, hstate⟩ := bind_eq_ok.mp hstate
    obtain ⟨tally, -, hstate⟩ := bind_eq_ok.mp hstate
    have houtcome : challenge.outcome =
        challengeOutcome (challengeDeadline cfg filedAt) now₁ tally := by
      rw [← pure_eq_ok.mp hstate]
    have hover : now₁.le (challengeDeadline cfg filedAt) = false := by
      cases hle : now₁.le (challengeDeadline cfg filedAt) with
      | false => rfl
      | true =>
        have hpending : challenge.outcome = .pending := by
          rw [houtcome, challengeOutcome, hle]
          rfl
        apply absurd _ (hpast (by rw [hpending]; decide))
        unfold ChallengeOpen
        rw [hfile]
        intro filedAt' hfiled'
        rw [hfiled] at hfiled'
        cases hfiled'
        exact hle
    obtain ⟨challenge', hchallenge', hsame⟩ :=
      computeChallengeState_kept hkept hafter hnow hfile hfiled hover h
    exact ⟨challenge', hchallenge', by rw [hsame]⟩

/-- Past the vote, a decided petition stays decided. -/
theorem petitionChallengePhase_kept {deadline : PyFloat}
    (h : petitionChallengePhase rt cfg petitionId chain now₁ deadline st = .ok state)
    (hkept : Kept rt cfg petitionId chain more now₁ now₂ state.status)
    (hafter : ∀ event ∈ more, StampedAfter rt now₁ event) (hnow : now₁.le now₂ = true)
    (hdecided : state.status.Decided) :
    ∃ state', petitionChallengePhase rt cfg petitionId (chain ++ more) now₂ deadline st =
      .ok state' ∧ state.status.Stays state'.status := by
  obtain ⟨challenge, hchallenge, h⟩ := bind_eq_ok.mp h
  have hpast : challenge.outcome ≠ .voided →
      ¬ ChallengeOpen rt cfg petitionId chain more now₁ := by
    intro hnot
    apply hkept.challenge
    rw [if_neg hnot] at h
    split_ifs at h <;> obtain rfl := pure_eq_ok.mp h
    · revert hdecided
      simp [PetitionStage.Decided]
    · exact Or.inr rfl
    · exact Or.inl rfl
  obtain ⟨challenge', hchallenge', hvoided⟩ := challenge_kept hkept hafter hnow hchallenge hpast
  unfold petitionChallengePhase
  rw [hchallenge']
  simp only [bind, Except.bind, hvoided]
  split_ifs at h with hvoid hopen hexecuted
  · obtain rfl := pure_eq_ok.mp h
    rw [if_pos hvoid]
    exact ⟨_, rfl, Or.inl rfl⟩
  · obtain rfl := pure_eq_ok.mp h
    revert hdecided
    simp [PetitionStage.Decided]
  · obtain rfl := pure_eq_ok.mp h
    have hlater : petitionEvents petitionId "petition_execute" (chain ++ more) ≠ [] := by
      rw [petitionEvents_append]
      exact List.append_ne_nil_of_left_ne_nil hexecuted _
    rw [if_neg hvoid, le_false_later hnow (Bool.eq_false_iff.mpr hopen), if_pos hlater]
    exact ⟨_, rfl, Or.inl rfl⟩
  · obtain rfl := pure_eq_ok.mp h
    rw [if_neg hvoid, le_false_later hnow (Bool.eq_false_iff.mpr hopen)]
    simp only [Bool.false_eq_true, if_false]
    split_ifs
    · exact ⟨_, rfl, Or.inr ⟨rfl, rfl⟩⟩
    · exact ⟨_, rfl, Or.inl rfl⟩

theorem seenStamp_number {seen : List String} {event : Dict} {ts : PyFloat}
    (hnumber : NumberStamped rt event) (h : seenStamp rt seen event = .ok (some ts)) :
    ts ≠ .nan := by
  rintro rfl
  apply hnumber
  unfold seenStamp at h
  dsimp only at h
  split_ifs at h
  · obtain ⟨ts, hts, h⟩ := bind_eq_ok.mp h
    cases pure_eq_ok.mp h
    exact hts
  · cases h

theorem foldl_max_ne_nan {stamps : List PyFloat} {ts : PyFloat} (hts : ts ≠ .nan)
    (hstamps : ∀ t ∈ stamps, t ≠ .nan) : stamps.foldl PyFloat.max ts ≠ .nan := by
  induction stamps generalizing ts with
  | nil => exact hts
  | cons t stamps ih =>
    apply ih
    · unfold PyFloat.max
      split
      · exact hstamps t List.mem_cons_self
      · exact hts
    · exact fun x hx => hstamps x (List.mem_cons_of_mem _ hx)

/-- A latest signature is a number where the signatures and the filing are. -/
theorem latestSignature_number {filedAt started : PyFloat} {seen : List String}
    {signEvents : List Dict} (hfiled : filedAt ≠ .nan)
    (hnumber : ∀ event ∈ signEvents, NumberStamped rt event)
    (h : latestSignature rt filedAt seen signEvents = .ok started) : started ≠ .nan := by
  obtain ⟨stamps, hstamps, h⟩ := bind_eq_ok.mp h
  have hreal : ∀ ts ∈ stamps, ts ≠ .nan := by
    intro ts hts
    obtain ⟨event, hevent, hread⟩ := (mem_filterMapM hstamps).mp hts
    exact seenStamp_number (hnumber event hevent) hread
  cases stamps with
  | nil =>
    obtain rfl := pure_eq_ok.mp h
    exact hfiled
  | cons ts more =>
    obtain rfl := pure_eq_ok.mp h
    exact foldl_max_ne_nan (hreal ts List.mem_cons_self) fun t ht =>
      hreal t (List.mem_cons_of_mem _ ht)

/-- Past the signatures, a decided petition stays decided. -/
theorem petitionVotingPhase_kept {network started : PyFloat} {cache : WeightCache}
    (h : petitionVotingPhase rt cfg petitionId chain now₁ network started cache st = .ok state)
    (hstarted : started ≠ .nan) (hkept : Kept rt cfg petitionId chain more now₁ now₂ state.status)
    (hafter : ∀ event ∈ more, StampedAfter rt now₁ event) (hnow : now₁.le now₂ = true)
    (hdecided : state.status.Decided) :
    ∃ state', petitionVotingPhase rt cfg petitionId (chain ++ more) now₂ network started cache st =
      .ok state' ∧ state.status.Stays state'.status := by
  obtain ⟨tally, htally, h⟩ := bind_eq_ok.mp h
  split_ifs at h with hopen hfails
  · obtain rfl := pure_eq_ok.mp h
    revert hdecided
    simp [PetitionStage.Decided]
  all_goals
    have hover : now₁.le (petitionVotingDeadline cfg started) = false := Bool.eq_false_iff.mpr hopen
    have hdeadline : (petitionVotingDeadline cfg started).lt now₁ = true :=
      lt_of_le_false (ne_nan_of_le hnow).1 (add_ne_nan hstarted) hover
    have hvotes : petitionVotes rt cfg petitionId (chain ++ more) started cache = .ok tally := by
      rw [← htally]
      unfold petitionVotes
      rw [petitionEvents_append,
        castBallots_late (hkept.number "petition_vote") (mem_more hafter hdeadline),
        castBallots_congr (hkept.weights _ (by simp))]
    unfold petitionVotingPhase
    rw [hvotes]
    simp only [bind, Except.bind, le_false_later hnow hover, Bool.false_eq_true, if_false]
  · obtain rfl := pure_eq_ok.mp h
    rw [if_pos hfails]
    exact ⟨_, rfl, Or.inl rfl⟩
  · rw [if_neg hfails]
    exact petitionChallengePhase_kept h hkept hafter hnow hdecided

theorem petitionVotingPhase_stage {network started now : PyFloat} {cache : WeightCache}
    (h : petitionVotingPhase rt cfg petitionId chain now network started cache st = .ok state) :
    state.status ≠ .failedSignatures := by
  obtain ⟨tally, -, h⟩ := bind_eq_ok.mp h
  split_ifs at h
  · obtain rfl := pure_eq_ok.mp h
    simp
  · obtain rfl := pure_eq_ok.mp h
    simp
  · obtain ⟨challenge, -, h⟩ := bind_eq_ok.mp h
    split_ifs at h <;> obtain rfl := pure_eq_ok.mp h <;> simp

/-- A decided petition of which the filing and the network are as before stays decided. -/
theorem petitionPhases_kept {filedAt network : PyFloat}
    (h : petitionPhases rt cfg petitionId chain now₁ filedAt network st = .ok state)
    (hfiled : filedAt ≠ .nan) (hst : st.status = .signatures)
    (hkept : Kept rt cfg petitionId chain more now₁ now₂ state.status)
    (hafter : ∀ event ∈ more, StampedAfter rt now₁ event) (hnow : now₁.le now₂ = true)
    (hdecided : state.status.Decided) :
    ∃ state', petitionPhases rt cfg petitionId (chain ++ more) now₂ filedAt network st =
      .ok state' ∧ state.status.Stays state'.status := by
  obtain ⟨signed, hsigned, h⟩ := bind_eq_ok.mp h
  have hcongr : petitionSignatures rt cfg petitionId chain filedAt =
      collectSignatures rt (petitionWeights rt cfg (chain ++ more))
        { emptySigner := false, lateSeen := true,
          closes := petitionSignaturesClose cfg filedAt } []
        (petitionEvents petitionId "petition_sign" chain) :=
    (collectSignatures_congr (hkept.weights _ (by simp))).symm
  unfold petitionPhases
  split_ifs at h with hfails hclosed
  · -- the signatures failed: those that are appended are late
    obtain rfl := pure_eq_ok.mp h
    rw [hcongr] at hsigned
    obtain ⟨signed', hsigned', hsame⟩ := collectSignatures_late
      (hkept.number "petition_sign") (mem_more hafter hclosed) hsigned
    unfold petitionSignatures
    rw [petitionEvents_append, hsigned']
    simp only [bind, Except.bind, hsame]
    rw [if_pos hfails, if_pos (lt_later hclosed hnow)]
    exact ⟨_, rfl, Or.inl rfl⟩
  · obtain rfl := pure_eq_ok.mp h
    revert hdecided
    simp [PetitionStage.Decided, hst]
  · obtain ⟨started, hstarted, h⟩ := bind_eq_ok.mp h
    have hnone := hkept.signatures.resolve_left (petitionVotingPhase_stage h)
    have hsigns : petitionEvents petitionId "petition_sign" (chain ++ more) =
        petitionEvents petitionId "petition_sign" chain := by
      rw [petitionEvents_append, hnone, List.append_nil]
    have hsigned' : petitionSignatures rt cfg petitionId (chain ++ more) filedAt = .ok signed := by
      rw [← hsigned, hcongr]
      unfold petitionSignatures
      rw [hsigns]
    rw [hsigned', hsigns]
    simp only [bind, Except.bind, hstarted]
    rw [if_neg hfails]
    exact petitionVotingPhase_kept h
      (latestSignature_number hfiled (hkept.number "petition_sign") hstarted)
      hkept hafter hnow hdecided

end

/-- A petition that one node signs and votes for. -/
def passedPetition : List PyVal :=
  finalizedMarket [placeEvent "bob" 2 "yes" 50 .none] ++
    [chainEvent "petition_file" "ana" 30 [("petition_id", .str "p1"),
      ("petition_payload", .dict [("type", .str "UPDATE_PARAM"),
        ("key", .str "governance_decay_days"), ("value", .int 100)])],
    chainEvent "petition_sign" "bob" 31 [("petition_id", .str "p1")],
    chainEvent "petition_vote" "bob" 32 [("petition_id", .str "p1"), ("vote", .str "for")]]

/-- The stage of the petition at a time. -/
def stageAt (chain : List PyVal) (now : ℚ) : Except String PetitionStage :=
  PetitionState.status <$> computePetitionState asciiRuntime {} "p1" (dicts chain) (.finite now)

instance {rt : Runtime} {time : PyFloat} {event : Dict} : Decidable (StampedAfter rt time event) :=
  decidable_of_iff (okAnd (keyed rt event) fun k => time.lt k.1.1)
    (by simp [okAnd_iff, StampedAfter])

instance {rt : Runtime} {weights weights' : Weights} {event : Dict} :
    Decidable (AgreeAt rt weights weights' event) :=
  match hnode : Dict.get event "node_id", hts : timestamp rt event with
  | .str nodeId, .ok ts => decidable_of_iff (weights nodeId ts = weights' nodeId ts) (by
      simp [AgreeAt, hnode, hts])
  | .none, _ | .bool _, _ | .int _, _ | .float _, _ | .list _, _ | .dict _, _ =>
    isTrue fun _ _ h => by rw [hnode] at h; cases h
  | _, .error _ => isTrue fun _ _ _ h => by rw [hts] at h; cases h

instance (stage : PetitionStage) : Decidable stage.Decided :=
  inferInstanceAs (Decidable (stage ∈ _))

/-- A vote after the end of the vote. -/
def lateVote : PyVal :=
  chainEvent "petition_vote" "ana" 900000 [("petition_id", .str "p1"), ("vote", .str "against")]

end Vincent.Economy
