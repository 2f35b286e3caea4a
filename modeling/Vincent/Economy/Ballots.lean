-- SUMMARY: Weighted ballots: governance weights, signature windows, votes.
import Vincent.Economy.Reputation

/-!
# Ballots

Petitions, challenges and upgrades collect signatures and votes by governance weight,
which is computed once, at the time for which it is first asked. The loops differ in
empty node ids and late signers.
-/

namespace Vincent.Economy

open Vincent.Python Vincent.Check

/-- The governance weight of a node at a time. -/
abbrev Weights := String → PyFloat → Except String PyFloat

/-- `cache: dict[str, float]`. -/
abbrev WeightCache := OrderedMap String PyFloat

/-- A weight, with the cache after it was asked for. -/
structure Weighed where
  weight : PyFloat
  cache : WeightCache

/-- The weight of a node, which is computed at `ts` unless the cache has it. -/
def weigh (weights : Weights) (cache : WeightCache) (nodeId : String) (ts : PyFloat) :
    Except String Weighed :=
  match cache.lookup nodeId with
  | some weight => .ok { weight, cache }
  | none => do
    let weight ← weights nodeId ts
    return { weight, cache := cache.insert nodeId weight }

/-- The nodes that signed an event of the chain. -/
def authors (chain : List Dict) : List String :=
  (chain.filterMap fun event =>
    match Dict.get event "node_id" with
    | .str nodeId => if nodeId = "" then none else some nodeId
    | _ => none).dedup

/-- One node in the sum over the network. -/
def Weighed.add (weights : Weights) (now : PyFloat) (sum : Weighed) (nodeId : String) :
    Except String Weighed := do
  let w ← weigh weights sum.cache nodeId now
  return { weight := sum.weight.add w.weight, cache := w.cache }

/-- The weight of the network, with the cache that the sum leaves. -/
def networkWeight (weights : Weights) (chain : List Dict) (now : PyFloat) :
    Except String Weighed :=
  (authors chain).foldlM (Weighed.add weights now) { weight := .finite 0, cache := [] }

/-! ## Signatures -/

/-- How signatures are collected. -/
structure SignatureRule where
  /-- An empty node id may sign. -/
  emptySigner : Bool
  /-- A signer that is late counts as seen. -/
  lateSeen : Bool
  closes : PyFloat

structure Signatures where
  seen : List String := []
  weight : PyFloat := .finite 0
  cache : WeightCache

def Signatures.visit (rt : Runtime) (weights : Weights) (rule : SignatureRule)
    (signed : Signatures) (event : Dict) : Except String Signatures :=
  match Dict.get event "node_id" with
  | .str signer =>
    if (signer = "" ∧ !rule.emptySigner) ∨ signer ∈ signed.seen then .ok signed
    else do
      let ts ← timestamp rt event
      if rule.closes.lt ts then
        return if rule.lateSeen then { signed with seen := signed.seen ++ [signer] } else signed
      let w ← weigh weights signed.cache signer ts
      return { seen := signed.seen ++ [signer], weight := signed.weight.add w.weight,
               cache := w.cache }
  | _ => .ok signed

def collectSignatures (rt : Runtime) (weights : Weights) (rule : SignatureRule)
    (cache : WeightCache) (signEvents : List Dict) : Except String Signatures := do
  (← sortEvents rt signEvents).foldlM (Signatures.visit rt weights rule) { cache }

/-- The timestamp of a signature by a seen signer. What cannot be in a set raises. -/
def seenStamp (rt : Runtime) (seen : List String) (event : Dict) :
    Except String (Option PyFloat) :=
  let signer := Dict.get event "node_id"
  if !hashable signer then .error "TypeError"
  else if signer.inStrings seen then some <$> timestamp rt event
  else .ok none

/-- `max(…, default=filed_at)` of the timestamps of the seen signers. -/
def latestSignature (rt : Runtime) (filedAt : PyFloat) (seen : List String)
    (signEvents : List Dict) : Except String PyFloat := do
  match ← signEvents.filterMapM (seenStamp rt seen) with
  | [] => return filedAt
  | ts :: more => return more.foldl PyFloat.max ts

/-! ## Votes -/

/-- How votes are counted: the two answers, and the window. -/
structure BallotRule where
  yea : String
  nay : String
  /-- An empty node id may vote. -/
  emptyVoter : Bool
  opens : PyFloat
  closes : PyFloat

structure Tally where
  seen : List String := []
  yea : PyFloat := .finite 0
  nay : PyFloat := .finite 0
  cache : WeightCache

def Tally.visit (rt : Runtime) (weights : Weights) (rule : BallotRule) (tally : Tally)
    (event : Dict) : Except String Tally :=
  match Dict.get event "node_id" with
  | .str voter =>
    if (voter = "" ∧ !rule.emptyVoter) ∨ voter ∈ tally.seen then .ok tally
    else do
      let ts ← timestamp rt event
      let vote := Dict.get (payload event) "vote"
      if ts.lt rule.opens || rule.closes.lt ts || !vote.inStrings [rule.yea, rule.nay] then
        return tally
      let w ← weigh weights tally.cache voter ts
      let tally := { tally with seen := tally.seen ++ [voter], cache := w.cache }
      return if vote.eq (.str rule.yea) then { tally with yea := tally.yea.add w.weight }
        else { tally with nay := tally.nay.add w.weight }
  | _ => .ok tally

def castBallots (rt : Runtime) (weights : Weights) (rule : BallotRule) (cache : WeightCache)
    (voteEvents : List Dict) : Except String Tally := do
  (← sortEvents rt voteEvents).foldlM (Tally.visit rt weights rule) { cache }

/-- The quorum and the supermajority of a vote, each as a share. -/
structure VoteThresholds where
  quorum : ℚ
  supermajority : ℚ

/-- Not below the quorum of the network, nor below the supermajority of those who took part. -/
def Tally.passes (thresholds : VoteThresholds) (network : PyFloat) (tally : Tally) : Bool :=
  let participating := tally.yea.add tally.nay
  !participating.lt (network.mul (.finite thresholds.quorum)) && !participating.isZero &&
    !(tally.yea.div participating).lt (.finite thresholds.supermajority)

/-- `x or y` for floats. -/
def floatOr (x y : PyFloat) : PyFloat := if x.isZero then y else x

/-- A number of days or hours, in seconds. -/
def days (n : Nat) : PyFloat := .finite (n * 86400)

def hours (n : Nat) : PyFloat := .finite (n * 3600)

/-! ## Weights that agree -/

section

variable {rt : Runtime} {weights weights' : Weights} {cache : WeightCache} {events more : List Dict}
  {event : Dict}

/-- The weights agree on the author of an event, at its time. -/
def AgreeAt (rt : Runtime) (weights weights' : Weights) (event : Dict) : Prop :=
  ∀ nodeId ts, Dict.get event "node_id" = .str nodeId → timestamp rt event = .ok ts →
    weights nodeId ts = weights' nodeId ts

theorem weigh_congr {nodeId : String} {ts : PyFloat} (h : weights nodeId ts = weights' nodeId ts) :
    weigh weights cache nodeId ts = weigh weights' cache nodeId ts := by
  unfold weigh
  rw [h]

theorem Signatures.visit_congr {rule : SignatureRule} (h : AgreeAt rt weights weights' event)
    (signed : Signatures) :
    signed.visit rt weights rule event = signed.visit rt weights' rule event := by
  unfold Signatures.visit
  cases hnode : Dict.get event "node_id" with
  | str signer =>
    dsimp only
    cases hts : timestamp rt event with
    | error exn => rfl
    | ok ts => simp only [bind, Except.bind, weigh_congr (h signer ts hnode hts)]
  | none | bool | int | float | list | dict => rfl

theorem Tally.visit_congr {rule : BallotRule} (h : AgreeAt rt weights weights' event)
    (tally : Tally) : tally.visit rt weights rule event = tally.visit rt weights' rule event := by
  unfold Tally.visit
  cases hnode : Dict.get event "node_id" with
  | str voter =>
    dsimp only
    cases hts : timestamp rt event with
    | error exn => rfl
    | ok ts => simp only [bind, Except.bind, weigh_congr (h voter ts hnode hts)]
  | none | bool | int | float | list | dict => rfl

theorem collectSignatures_congr {rule : SignatureRule}
    (h : ∀ event ∈ events, AgreeAt rt weights weights' event) :
    collectSignatures rt weights rule cache events =
      collectSignatures rt weights' rule cache events := by
  unfold collectSignatures
  cases hsorted : sortEvents rt events with
  | error exn => rfl
  | ok sorted =>
    apply foldlM_congr
    intro event hevent signed
    exact Signatures.visit_congr (h event ((sortEvents_perm hsorted).mem_iff.mp hevent)) signed

theorem castBallots_congr {rule : BallotRule}
    (h : ∀ event ∈ events, AgreeAt rt weights weights' event) :
    castBallots rt weights rule cache events = castBallots rt weights' rule cache events := by
  unfold castBallots
  cases hsorted : sortEvents rt events with
  | error exn => rfl
  | ok sorted =>
    apply foldlM_congr
    intro event hevent tally
    exact Tally.visit_congr (h event ((sortEvents_perm hsorted).mem_iff.mp hevent)) tally

/-! ## Late events -/

/-- The event can be sorted, and it is stamped after the time. -/
def StampedAfter (rt : Runtime) (time : PyFloat) (event : Dict) : Prop :=
  ∃ k, keyed rt event = .ok k ∧ time.lt k.1.1 = true

theorem StampedAfter.stamped {time : PyFloat} (h : StampedAfter rt time event) :
    Stamped rt event := by
  obtain ⟨k, hk, -⟩ := h
  exact ⟨k, hk⟩

theorem StampedAfter.timestamp {time : PyFloat} (h : StampedAfter rt time event) :
    ∃ ts, Economy.timestamp rt event = .ok ts ∧ time.lt ts = true := by
  obtain ⟨k, hk, hlt⟩ := h
  exact ⟨_, (keyed_eq_ok.mp hk).1, hlt⟩

theorem StampedAfter.number {time : PyFloat} (h : StampedAfter rt time event) :
    NumberStamped rt event := by
  obtain ⟨ts, hts, hlt⟩ := h.timestamp
  intro hnan
  rw [hts] at hnan
  cases hnan
  cases time <;> cases hlt

theorem Tally.visit_late {rule : BallotRule} (h : StampedAfter rt rule.closes event)
    (tally : Tally) : tally.visit rt weights rule event = .ok tally := by
  obtain ⟨ts, hts, hlate⟩ := h.timestamp
  unfold Tally.visit
  cases Dict.get event "node_id" with
  | str voter =>
    dsimp only
    split
    · rfl
    · rw [hts]
      simp only [bind, Except.bind, hlate, Bool.or_true, Bool.true_or, if_true]
      rfl
  | none | bool | int | float | list | dict => rfl

theorem castBallots_late {rule : BallotRule} (hnumber : ∀ event ∈ events, NumberStamped rt event)
    (hlate : ∀ event ∈ more, StampedAfter rt rule.closes event) :
    castBallots rt weights rule cache (events ++ more) =
      castBallots rt weights rule cache events := by
  induction more generalizing events with
  | nil => rw [List.append_nil]
  | cons event more ih =>
    have hevent : StampedAfter rt rule.closes event := hlate event List.mem_cons_self
    have hnumber' : ∀ e ∈ events ++ [event], NumberStamped rt e := by
      intro e he
      rcases List.mem_append.mp he with he | he
      · exact hnumber e he
      · exact List.mem_singleton.mp he ▸ hevent.number
    rw [List.append_cons, ih hnumber' fun e he => hlate e (List.mem_cons_of_mem _ he)]
    unfold castBallots
    cases hsorted : sortEvents rt events with
    | error exn => rw [sortEvents_append_error hsorted]
    | ok sorted =>
      obtain ⟨pre, post, rfl, hsorted', -, -⟩ := sortEvents_concat hsorted hevent.stamped
        (List.forall_mem_cons.mpr ⟨hevent.number, hnumber⟩)
      rw [hsorted']
      exact foldlM_insert (Tally.visit_late hevent) pre post _

theorem Signatures.visit_late {rule : SignatureRule} (h : StampedAfter rt rule.closes event)
    (signed : Signatures) :
    ∃ signed', signed.visit rt weights rule event = .ok signed' ∧ signed'.weight = signed.weight := by
  obtain ⟨ts, hts, hlate⟩ := h.timestamp
  unfold Signatures.visit
  cases Dict.get event "node_id" with
  | str signer =>
    dsimp only
    split_ifs
    · exact ⟨signed, rfl, rfl⟩
    · rw [hts]
      simp only [bind, Except.bind, hlate, if_true]
      exact ⟨_, rfl, rfl⟩
    · rw [hts]
      simp only [bind, Except.bind, hlate, if_true]
      exact ⟨_, rfl, rfl⟩
  | none | bool | int | float | list | dict => exact ⟨signed, rfl, rfl⟩

theorem foldlM_late {rule : SignatureRule} (hlate : ∀ event ∈ events, StampedAfter rt rule.closes event)
    (signed : Signatures) : ∃ signed', events.foldlM (Signatures.visit rt weights rule) signed =
      .ok signed' ∧ signed'.weight = signed.weight := by
  induction events generalizing signed with
  | nil => exact ⟨signed, rfl, rfl⟩
  | cons event events ih =>
    obtain ⟨signed₁, hvisit, hweight₁⟩ :=
      @Signatures.visit_late rt weights event rule (hlate event List.mem_cons_self) signed
    obtain ⟨signed₂, hrest, hweight₂⟩ := ih (fun e he => hlate e (List.mem_cons_of_mem _ he)) signed₁
    refine ⟨signed₂, ?_, hweight₂.trans hweight₁⟩
    rw [List.foldlM_cons, hvisit]
    exact hrest

theorem StampedAfter.of_sortsAfter {time : PyFloat} {later : Dict}
    (h : StampedAfter rt time event) (hnumber : NumberStamped rt later)
    (hsorts : SortsAfter rt later event) : StampedAfter rt time later := by
  obtain ⟨k, hk, hlt⟩ := h
  obtain ⟨kl, ke, hkl, hke, horder⟩ := hsorts
  cases hk.symm.trans hke
  have hevent : k.1.1 ≠ .nan := by
    intro hnan
    rw [hnan] at hlt
    cases time <;> cases hlt
  have hlater : kl.1.1 ≠ .nan := by
    intro hnan
    apply hnumber
    rw [← hnan]
    exact (keyed_eq_ok.mp hkl).1
  have htime : time ≠ .nan := by
    rintro rfl
    cases hlt
  rw [← Bool.not_eq_true, chainOrder_iff hlater hevent, not_or, not_lt] at horder
  refine ⟨kl, hkl, ?_⟩
  rw [PyFloat.lt_place htime hlater]
  exact ((PyFloat.lt_place htime hevent).mp hlt).trans_le horder.1

/-- Late signatures leave the weight of the signatures as it is. -/
theorem collectSignatures_late {rule : SignatureRule} {signed : Signatures}
    (hnumber : ∀ event ∈ events, NumberStamped rt event)
    (hlate : ∀ event ∈ more, StampedAfter rt rule.closes event)
    (hsigned : collectSignatures rt weights rule cache events = .ok signed) :
    ∃ signed', collectSignatures rt weights rule cache (events ++ more) = .ok signed' ∧
      signed'.weight = signed.weight := by
  induction more generalizing events signed with
  | nil => exact ⟨signed, by rw [List.append_nil]; exact hsigned, rfl⟩
  | cons event more ih =>
    have hevent : StampedAfter rt rule.closes event := hlate event List.mem_cons_self
    have hnumber' : ∀ e ∈ events ++ [event], NumberStamped rt e := by
      intro e he
      rcases List.mem_append.mp he with he | he
      · exact hnumber e he
      · exact List.mem_singleton.mp he ▸ hevent.number
    obtain ⟨sorted, hsorted, hfold⟩ := bind_eq_ok.mp hsigned
    obtain ⟨pre, post, rfl, hsorted', -, hpost⟩ := sortEvents_concat hsorted hevent.stamped
      (List.forall_mem_cons.mpr ⟨hevent.number, hnumber⟩)
    rw [List.foldlM_append] at hfold
    obtain ⟨mid, hpre, hrest⟩ := bind_eq_ok.mp hfold
    -- what comes after the late event is late too, so it leaves the weight alone
    have hpostLate : ∀ e ∈ post, StampedAfter rt rule.closes e := by
      intro e he
      apply hevent.of_sortsAfter _ (hpost e he)
      exact hnumber e ((sortEvents_perm hsorted).mem_iff.mp (List.mem_append_right _ he))
    obtain ⟨mid₁, hvisit, hweight₁⟩ := @Signatures.visit_late rt weights event rule hevent mid
    obtain ⟨signed₁, hrest₁, hweight₂⟩ := @foldlM_late rt weights post rule hpostLate mid₁
    obtain ⟨signed₂, hrest₂, hweight₃⟩ := @foldlM_late rt weights post rule hpostLate mid
    rw [hrest₂] at hrest
    cases hrest
    have hstep : collectSignatures rt weights rule cache (events ++ [event]) = .ok signed₁ := by
      unfold collectSignatures
      rw [hsorted']
      simp only [bind, Except.bind]
      rw [List.foldlM_append, hpre]
      simp only [bind, Except.bind]
      rw [List.foldlM_cons, hvisit]
      exact hrest₁
    obtain ⟨signed', hsigned', hweight'⟩ :=
      ih hnumber' (fun e he => hlate e (List.mem_cons_of_mem _ he)) hstep
    refine ⟨signed', by rw [List.append_cons]; exact hsigned', ?_⟩
    rw [hweight', hweight₂, hweight₁, hweight₃]

end

end Vincent.Economy
