-- SUMMARY: The weights that the cache hands out against those that the voters held.
import Mathlib.Algebra.Order.Field.Power
import Vincent.Economy.Upgrade
import Vincent.Economy.Decided
import Vincent.General.OrderStatistics

/-!
# Weights of votes

The cache of governance weights knows a node but not the time for which it was asked.
Weights only fall with time, so the sums are those of the votes exactly where no
counted weight fell.
-/

namespace Vincent.Economy

open Vincent.Python Vincent.Check Vincent.OrderStatistics

/-! ## Counted votes -/

/-- A vote that can count. -/
structure Ballot where
  ts : PyFloat
  yea : Bool

section Counted

variable (rt : Runtime)

/-- The vote of an event, in the window and with one of the two answers. -/
def BallotRule.ballot? (rule : BallotRule) (event : Dict) : Option (String × Ballot) :=
  match Dict.get event "node_id", timestamp rt event with
  | .str voter, .ok ts =>
    let vote := Dict.get (payload event) "vote"
    if (voter = "" ∧ !rule.emptyVoter) ∨ (ts.lt rule.opens || rule.closes.lt ts ||
        !vote.inStrings [rule.yea, rule.nay]) then none
    else some (voter, { ts, yea := vote.eq (.str rule.yea) })
  | _, _ => none

/-- The first vote of each node, in the order of the chain. -/
def countedVotes (rule : BallotRule) (voteEvents : List Dict) : List (String × Ballot) :=
  match sortEvents rt voteEvents with
  | .ok sorted => firsts [] (sorted.filterMap (rule.ballot? rt))
  | .error _ => []

/-- The signature of an event, with its time. -/
def SignatureRule.signature? (rule : SignatureRule) (event : Dict) : Option (String × PyFloat) :=
  match Dict.get event "node_id", timestamp rt event with
  | .str signer, .ok ts =>
    if (signer = "" ∧ !rule.emptySigner) ∨ (rule.closes.lt ts ∧ !rule.lateSeen) then none
    else some (signer, ts)
  | _, _ => none

/-- The signatures in the window that count, one for each signer. -/
def countedSignatures (rule : SignatureRule) (signEvents : List Dict) : List (String × PyFloat) :=
  match sortEvents rt signEvents with
  | .ok sorted => (firsts [] (sorted.filterMap (rule.signature? rt))).filter fun s => !rule.closes.lt s.2
  | .error _ => []

end Counted

/-! ## Sums of weights -/

/-- The votes for a side. -/
def sideVotes (votes : List (String × Ballot)) (yea : Bool) : List (String × Ballot) :=
  votes.filter fun v => v.2.yea == yea

/-- What the voters weigh, each at a time of its own. -/
def weightsAt (weights : Weights) (time : String × Ballot → PyFloat) (votes : List (String × Ballot)) :
    Except String (List PyFloat) :=
  votes.mapM fun v => weights v.1 (time v)

def total (ws : List PyFloat) : PyFloat := ws.foldl PyFloat.add (.finite 0)

/-- The time of a vote. -/
def votedAt (v : String × Ballot) : PyFloat := v.2.ts

/-- The tallies are what the voters of each side weigh at their votes. -/
def HeldWeights (weights : Weights) (votes : List (String × Ballot)) (yea nay : PyFloat) : Prop :=
  total <$> weightsAt weights votedAt (sideVotes votes true) = .ok yea ∧
    total <$> weightsAt weights votedAt (sideVotes votes false) = .ok nay

/-- On each side, every voter weighs at its vote what it weighs when it is first asked, or one of
    them has no finite weight. -/
def SameWeights (weights : Weights) (asked : String × Ballot → PyFloat)
    (votes : List (String × Ballot)) : Prop :=
  ∀ yea, ∃ held, weightsAt weights votedAt (sideVotes votes yea) = .ok held ∧
    (weightsAt weights asked (sideVotes votes yea) = .ok held ∨ ∃ w ∈ held, w.rat? = none)

/-- Weights fall with time, and none of them ever becomes finite or ceases to be. -/
def Falling (weights : Weights) : Prop :=
  ∀ nodeId a b x y, weights nodeId a = .ok x → weights nodeId b = .ok y →
    (x = y ∧ x.rat? = none) ∨ ∃ p q : ℚ, x = .finite p ∧ y = .finite q ∧ (a.le b = true → q ≤ p)

section Sums

variable {weights : Weights} {asked : String × Ballot → PyFloat} {votes : List (String × Ballot)}
  {xs ys : List PyFloat}

/-- The same value without being finite, or both finite. -/
def Alike (x y : PyFloat) : Prop :=
  (x = y ∧ x.rat? = none) ∨ ∃ p q : ℚ, x = .finite p ∧ y = .finite q

theorem rat_add_none {x y : PyFloat} (h : x.rat? = none ∨ y.rat? = none) : (x.add y).rat? = none := by
  cases x <;> cases y <;> first | rfl | simp [PyFloat.rat?] at h

theorem Alike.add {x y x' y' : PyFloat} (h : Alike x y) (h' : Alike x' y') :
    Alike (x.add x') (y.add y') := by
  rcases h with ⟨rfl, hx⟩ | ⟨p, q, rfl, rfl⟩
  · rcases h' with ⟨rfl, hx'⟩ | ⟨p', q', rfl, rfl⟩
    · refine Or.inl ⟨rfl, ?_⟩
      exact rat_add_none (Or.inl hx)
    · refine Or.inl ?_
      cases x <;> first | exact ⟨rfl, rfl⟩ | cases hx
  · rcases h' with ⟨rfl, hx'⟩ | ⟨p', q', rfl, rfl⟩
    · refine Or.inl ?_
      cases x' <;> first | exact ⟨rfl, rfl⟩ | cases hx'
    · exact Or.inr ⟨p + p', q + q', rfl, rfl⟩

/-- Sums of weights that are alike are alike, and no longer finite once one of them is not. -/
theorem alike_foldl (h : List.Forall₂ Alike xs ys) {x y : PyFloat} (hxy : Alike x y) :
    Alike (xs.foldl PyFloat.add x) (ys.foldl PyFloat.add y) := by
  induction h generalizing x y with
  | nil => exact hxy
  | cons hhead _ ih => exact ih (hxy.add hhead)

theorem foldl_rat_none {y : PyFloat} (h : y.rat? = none ∨ ∃ w ∈ ys, w.rat? = none) :
    (ys.foldl PyFloat.add y).rat? = none := by
  induction ys generalizing y with
  | nil =>
    rcases h with h | ⟨w, hw, -⟩
    · exact h
    · exact absurd hw List.not_mem_nil
  | cons w ys ih =>
    apply ih
    rcases h with h | ⟨v, hv, hnone⟩
    · exact Or.inl (rat_add_none (Or.inl h))
    · rcases List.mem_cons.mp hv with rfl | hv
      · exact Or.inl (rat_add_none (Or.inr hnone))
      · exact Or.inr ⟨v, hv, hnone⟩

theorem total_eq_of_not_finite (h : List.Forall₂ Alike xs ys) (hnone : ∃ w ∈ ys, w.rat? = none) :
    total xs = total ys := by
  have halike : Alike (total xs) (total ys) := alike_foldl h (Or.inr ⟨0, 0, rfl, rfl⟩)
  rcases halike with ⟨heq, -⟩ | ⟨p, q, -, hq⟩
  · exact heq
  · have hrat : (total ys).rat? = none := foldl_rat_none (Or.inr hnone)
    rw [hq] at hrat
    cases hrat

/-- A finite weight that is not below another. -/
def Above (x y : PyFloat) : Prop := ∃ p q : ℚ, x = .finite p ∧ y = .finite q ∧ q ≤ p

/-- Where one list is above another, equal sums have equal summands. -/
theorem eq_of_total_eq (h : List.Forall₂ Above xs ys) {a b : ℚ} (hab : b ≤ a)
    (heq : xs.foldl PyFloat.add (.finite a) = ys.foldl PyFloat.add (.finite b)) : a = b ∧ xs = ys := by
  induction h generalizing a b with
  | nil =>
    cases heq
    exact ⟨rfl, rfl⟩
  | cons hhead _ ih =>
    obtain ⟨p, q, rfl, rfl, hqp⟩ := hhead
    obtain ⟨hsum, rfl⟩ := ih (add_le_add hab hqp) heq
    obtain ⟨rfl, rfl⟩ : a = b ∧ p = q := ⟨by linarith, by linarith⟩
    exact ⟨rfl, rfl⟩

theorem forall₂_weightsAt {R : PyFloat → PyFloat → Prop} {time time' : String × Ballot → PyFloat}
    (hx : weightsAt weights time votes = .ok xs) (hy : weightsAt weights time' votes = .ok ys)
    (hR : ∀ v ∈ votes, ∀ x y, weights v.1 (time v) = .ok x → weights v.1 (time' v) = .ok y → R x y) :
    List.Forall₂ R xs ys := by
  induction votes generalizing xs ys with
  | nil =>
    cases hx
    cases hy
    exact List.Forall₂.nil
  | cons v votes ih =>
    unfold weightsAt at hx hy
    rw [List.mapM_cons] at hx hy
    obtain ⟨x, hx₁, hx⟩ := bind_eq_ok.mp hx
    obtain ⟨xs', hx₂, hx⟩ := bind_eq_ok.mp hx
    obtain ⟨y, hy₁, hy⟩ := bind_eq_ok.mp hy
    obtain ⟨ys', hy₂, hy⟩ := bind_eq_ok.mp hy
    obtain rfl := pure_eq_ok.mp hx
    obtain rfl := pure_eq_ok.mp hy
    exact List.Forall₂.cons (hR v List.mem_cons_self x y hx₁ hy₁)
      (ih hx₂ hy₂ fun v' hv' => hR v' (List.mem_cons_of_mem v hv'))

theorem forall₂_of_finite {R : PyFloat → PyFloat → Prop}
    (h : List.Forall₂ (fun x y => (x = y ∧ x.rat? = none) ∨ R x y) xs ys)
    (hfinite : ¬ ∃ w ∈ ys, w.rat? = none) : List.Forall₂ R xs ys := by
  induction h with
  | nil => exact List.Forall₂.nil
  | @cons x y xs ys hhead _ ih =>
    refine List.Forall₂.cons ?_ (ih fun ⟨w, hw, hnone⟩ => hfinite ⟨w, List.mem_cons_of_mem y hw, hnone⟩)
    rcases hhead with ⟨rfl, hnone⟩ | hhead
    · exact absurd ⟨x, List.mem_cons_self, hnone⟩ hfinite
    · exact hhead

/-- A side's sum is that of the votes where its weights did not change. -/
theorem side_held (hfalling : Falling weights) {sum : PyFloat} {held : List PyFloat}
    (hsum : total <$> weightsAt weights asked votes = .ok sum)
    (hheld : weightsAt weights votedAt votes = .ok held)
    (hsame : weightsAt weights asked votes = .ok held ∨ ∃ w ∈ held, w.rat? = none) :
    total <$> weightsAt weights votedAt votes = .ok sum := by
  obtain ⟨ws, hws, rfl⟩ := map_eq_ok.mp hsum
  rw [hheld]
  change Except.ok (total held) = .ok (total ws)
  rcases hsame with hsame | hnone
  · cases hws.symm.trans hsame
    rfl
  · have halike : List.Forall₂ Alike ws held :=
      forall₂_weightsAt hws hheld fun v _ x y hx hy =>
        (hfalling v.1 _ _ x y hx hy).imp_right fun ⟨p, q, hp, hq, _⟩ => ⟨p, q, hp, hq⟩
    rw [total_eq_of_not_finite halike hnone]

/-- And nowhere else, where every voter is asked before its vote, or every one after it. -/
theorem same_of_side_held (hfalling : Falling weights) {sum : PyFloat}
    (hsum : total <$> weightsAt weights asked votes = .ok sum)
    (hheld : total <$> weightsAt weights votedAt votes = .ok sum)
    (horder : (∀ v ∈ votes, (asked v).le (votedAt v) = true) ∨
      ∀ v ∈ votes, (votedAt v).le (asked v) = true) :
    ∃ held, weightsAt weights votedAt votes = .ok held ∧
      (weightsAt weights asked votes = .ok held ∨ ∃ w ∈ held, w.rat? = none) := by
  obtain ⟨ws, hws, rfl⟩ := map_eq_ok.mp hsum
  obtain ⟨held, hheld, htotal⟩ := map_eq_ok.mp hheld
  refine ⟨held, hheld, ?_⟩
  rcases Classical.em (∃ w ∈ held, w.rat? = none) with hnone | hfinite
  · exact Or.inr hnone
  refine Or.inl ?_
  rcases horder with horder | horder
  · have habove : List.Forall₂ (fun x y => (x = y ∧ x.rat? = none) ∨ Above x y) ws held :=
      forall₂_weightsAt hws hheld fun v hv x y hx hy =>
        (hfalling v.1 _ _ x y hx hy).imp_right fun ⟨p, q, hp, hq, hle⟩ => ⟨p, q, hp, hq, hle (horder v hv)⟩
    rw [hws, (eq_of_total_eq (forall₂_of_finite habove hfinite) le_rfl htotal.symm).2]
  · have habove : List.Forall₂ (fun x y => (x = y ∧ x.rat? = none) ∨ Above y x) ws held :=
      forall₂_weightsAt hws hheld fun v hv x y hx hy =>
        (hfalling v.1 _ _ y x hy hx).imp (fun ⟨heq, hnone⟩ => ⟨heq.symm, heq ▸ hnone⟩)
          fun ⟨p, q, hp, hq, hle⟩ => ⟨p, q, hp, hq, hle (horder v hv)⟩
    rw [hws, (eq_of_total_eq (forall₂_of_finite habove hfinite).flip le_rfl htotal).2]

end Sums

/-! ## Decay -/

section Decay

variable {cfg : RepConfig} {a b l : PyFloat}

/-- The decay after a number of days. -/
def decayAt (cfg : RepConfig) (q : ℚ) : ℚ :=
  if q ≤ cfg.governanceDecayDays then 1
  else cfg.governanceDecayFactor ^ ⌊q / cfg.governanceDecayDays⌋

theorem decayFactor_pos : 0 < cfg.governanceDecayFactor :=
  lt_of_lt_of_le (by norm_num) cfg.decayFactor_range.1

theorem decayFactor_lt_one : cfg.governanceDecayFactor < 1 :=
  lt_of_le_of_lt cfg.decayFactor_range.2 (by norm_num)

theorem decayDays_pos : (0 : ℚ) < cfg.governanceDecayDays := by
  have h := cfg.decayDays_range.1
  exact_mod_cast (show 0 < cfg.governanceDecayDays by omega)

theorem decayAt_pos (q : ℚ) : 0 < decayAt cfg q := by
  unfold decayAt
  split
  · exact one_pos
  · exact zpow_pos decayFactor_pos _

theorem decayAt_anti {p q : ℚ} (h : p ≤ q) : decayAt cfg q ≤ decayAt cfg p := by
  have hdays := @decayDays_pos cfg
  unfold decayAt
  split_ifs with hq hp hp
  · exact le_rfl
  · exact absurd (h.trans hq) hp
  · have hzero : (0 : ℤ) ≤ ⌊q / cfg.governanceDecayDays⌋ :=
      Int.floor_nonneg.mpr (div_nonneg (hdays.le.trans (not_le.mp hq).le) hdays.le)
    calc cfg.governanceDecayFactor ^ ⌊q / cfg.governanceDecayDays⌋
        ≤ cfg.governanceDecayFactor ^ (0 : ℤ) :=
          zpow_le_zpow_right_of_le_one₀ decayFactor_pos decayFactor_lt_one.le hzero
      _ = 1 := zpow_zero _
  · apply zpow_le_zpow_right_of_le_one₀ decayFactor_pos decayFactor_lt_one.le
    exact Int.floor_mono (div_le_div_of_nonneg_right h hdays.le)

/-- The age at a time, as the decay reads it. -/
def ageAt (l t : PyFloat) : PyFloat := (PyFloat.finite 0).max ((t.sub l).div (.finite 86400))

theorem decay_finite (q : ℚ) : decayFactorForAge cfg (.finite q) = .ok (decayAt cfg q) := by
  unfold decayFactorForAge decayAt
  have hrange : 0 < cfg.governanceDecayFactor ∧ cfg.governanceDecayFactor < 1 :=
    ⟨decayFactor_pos, decayFactor_lt_one⟩
  rw [if_neg (by simpa using hrange)]
  split_ifs with hle hday hday
  · rfl
  · exact absurd (PyFloat.finite_le.mp hle) hday
  · exact absurd (PyFloat.finite_le.mpr hday) hle
  · rw [div_eq_mul_inv]
    rfl

theorem inf_mul {r : ℚ} (hr : 0 < r) : PyFloat.inf.mul (.finite r) = .inf := by
  have hlt : (PyFloat.finite 0).lt (.finite r) = true := decide_eq_true hr
  change PyFloat.infMul true (.finite r) = _
  unfold PyFloat.infMul
  rw [if_pos hlt]
  rfl

theorem decay_inf : decayFactorForAge cfg .inf = .error "OverflowError" := by
  have hrange : 0 < cfg.governanceDecayFactor ∧ cfg.governanceDecayFactor < 1 :=
    ⟨decayFactor_pos, decayFactor_lt_one⟩
  have hdiv : PyFloat.inf.div (.finite cfg.governanceDecayDays) = .inf :=
    inf_mul (inv_pos.mpr decayDays_pos)
  have hle : PyFloat.inf.le (.finite cfg.governanceDecayDays) = false := rfl
  unfold decayFactorForAge
  rw [if_neg (by simpa using hrange), hle, if_neg Bool.false_ne_true, hdiv]
  rfl

theorem ageAt_finite {r s : ℚ} (hl : l.rat? = some r) (ha : a.rat? = some s) :
    ageAt l a = .finite (max 0 ((s - r) / 86400)) := by
  have hdiv : (a.sub l).div (.finite 86400) = .finite ((s - r) / 86400) := by
    cases l <;> cases a <;> cases hl <;> cases ha <;>
      simp only [PyFloat.sub, PyFloat.neg, PyFloat.add, PyFloat.div, PyFloat.mul, PyFloat.inv,
        PyFloat.rat?, Option.getD_some, div_eq_mul_inv, sub_eq_add_neg, neg_zero]
  unfold ageAt PyFloat.max
  rw [hdiv]
  split
  · rename_i hlt
    have hpos : (0 : ℚ) < (s - r) / 86400 := of_decide_eq_true hlt
    rw [max_eq_right hpos.le]
  · rename_i hlt
    have hneg : ¬ (0 : ℚ) < (s - r) / 86400 := fun h => hlt (decide_eq_true h)
    rw [max_eq_left (not_lt.mp hneg)]

theorem ageAt_cases (l a : PyFloat) : ageAt l a = .finite 0 ∨ ageAt l a = .inf ∨
    ∃ r s, l.rat? = some r ∧ a.rat? = some s := by
  cases l <;> cases a <;> simp [ageAt, PyFloat.sub, PyFloat.neg, PyFloat.add, PyFloat.div, PyFloat.mul,
    PyFloat.infMul, PyFloat.inv, PyFloat.max, PyFloat.lt, PyFloat.rat?, PyFloat.signedInf]

/-- Where there is a decay, the age is a number. -/
theorem decay_eq_ok {f : ℚ} (h : decayFactorForAge cfg (ageAt l a) = .ok f) :
    ∃ q, ageAt l a = .finite q ∧ 0 ≤ q ∧ f = decayAt cfg q := by
  rcases ageAt_cases l a with hage | hage | ⟨r, s, hl, ha⟩
  · rw [hage, decay_finite] at h
    exact ⟨0, hage, le_rfl, (Except.ok.inj h).symm⟩
  · rw [hage, decay_inf] at h
    cases h
  · rw [ageAt_finite hl ha, decay_finite] at h
    exact ⟨_, ageAt_finite hl ha, le_max_left _ _, (Except.ok.inj h).symm⟩

theorem age_mono {p q : ℚ} (hab : a.le b = true) (hp : ageAt l a = .finite p)
    (hq : ageAt l b = .finite q) (hpos : 0 ≤ q) : p ≤ q := by
  rcases ageAt_cases l a with hage | hage | ⟨r, s, hl, ha⟩
  · cases hp.symm.trans hage
    exact hpos
  · cases hp.symm.trans hage
  · cases hp.symm.trans (ageAt_finite hl ha)
    have hb : ∃ s', b.rat? = some s' ∧ s ≤ s' := by
      cases b with
      | finite s' =>
        refine ⟨s', rfl, ?_⟩
        cases a <;> cases ha <;> exact PyFloat.finite_le.mp hab
      | negZero =>
        refine ⟨0, rfl, ?_⟩
        cases a <;> cases ha <;> exact PyFloat.finite_le.mp hab
      | inf =>
        have hinf : ageAt l .inf = .inf := by
          cases l <;> cases hl <;> simp [ageAt, PyFloat.sub, PyFloat.neg, PyFloat.add, PyFloat.div,
            PyFloat.mul, PyFloat.infMul, PyFloat.inv, PyFloat.max, PyFloat.lt, PyFloat.rat?,
            PyFloat.signedInf]
        cases hq.symm.trans hinf
      | negInf => cases a <;> cases ha <;> cases hab
      | nan => cases a <;> cases ha <;> cases hab
    obtain ⟨s', hb, hle⟩ := hb
    cases hq.symm.trans (ageAt_finite hl hb)
    exact max_le_max le_rfl (div_le_div_of_nonneg_right (by linarith) (by norm_num))

theorem falling_active (rt : Runtime) (cfg : RepConfig) (chain : List Dict) :
    Falling fun nodeId ts => computeOracleRepActive rt cfg nodeId chain ts := by
  intro nodeId a b x y hx hy
  dsimp only at hx hy
  unfold computeOracleRepActive at hx hy
  obtain ⟨balance, hbalance, hx⟩ := bind_eq_ok.mp hx
  obtain ⟨balance', hbalance', hy⟩ := bind_eq_ok.mp hy
  cases hbalance.symm.trans hbalance'
  split at hx
  · rename_i hnone
    rw [if_pos hnone] at hy
    cases hx
    cases hy
    exact Or.inr ⟨0, 0, rfl, rfl, fun _ => le_rfl⟩
  rename_i hsome
  rw [if_neg hsome] at hy
  obtain ⟨last, hlast, hx⟩ := bind_eq_ok.mp hx
  obtain ⟨last', hlast', hy⟩ := bind_eq_ok.mp hy
  cases hlast.symm.trans hlast'
  cases last with
  | none =>
    cases hx
    cases hy
    exact Or.inr ⟨0, 0, rfl, rfl, fun _ => le_rfl⟩
  | some l =>
    obtain ⟨f, hf, hx⟩ := bind_eq_ok.mp hx
    obtain ⟨g, hg, hy⟩ := bind_eq_ok.mp hy
    obtain rfl := pure_eq_ok.mp hx
    obtain rfl := pure_eq_ok.mp hy
    obtain ⟨p, hp, -, rfl⟩ := decay_eq_ok hf
    obtain ⟨q, hq, hpos, rfl⟩ := decay_eq_ok hg
    have hfall : a.le b = true → decayAt cfg q ≤ decayAt cfg p := fun hab =>
      decayAt_anti (age_mono hab hp hq hpos)
    cases balance with
    | finite c =>
      refine Or.inr ⟨c * decayAt cfg p, c * decayAt cfg q, rfl, rfl, fun hab => ?_⟩
      apply mul_le_mul_of_nonneg_left (hfall hab)
      by_contra hneg
      exact hsome (PyFloat.finite_le.mpr (not_le.mp hneg).le)
    | negZero => exact absurd rfl hsome
    | inf =>
      rw [inf_mul (decayAt_pos p), inf_mul (decayAt_pos q)]
      exact Or.inl ⟨rfl, rfl⟩
    | negInf => exact absurd rfl hsome
    | nan => exact Or.inl ⟨rfl, rfl⟩

end Decay

/-! ## The cache -/

/-- After nodes were asked for at these times, the cache has what it had, and their weights. -/
def Caches (weights : Weights) (asked : List (String × PyFloat)) (cache cache' : WeightCache) : Prop :=
  ∀ nodeId, match cache.lookup nodeId with
    | some w => cache'.lookup nodeId = some w
    | none => match asked.lookup nodeId with
      | none => cache'.lookup nodeId = none
      | some t => ∃ w, weights nodeId t = .ok w ∧ cache'.lookup nodeId = some w

/-- A weight that is asked for once more. -/
def cachedWeight (weights : Weights) (cache : WeightCache) (nodeId : String) (ts : PyFloat) :
    Except String PyFloat :=
  match cache.lookup nodeId with
  | some w => .ok w
  | none => weights nodeId ts

def cachedWeights (weights : Weights) (cache : WeightCache) (votes : List (String × Ballot)) :
    Except String (List PyFloat) :=
  votes.mapM fun v => cachedWeight weights cache v.1 v.2.ts

section Cache

variable {rt : Runtime} {weights : Weights} {cache cache' : WeightCache} {nodeId : String} {ts : PyFloat}

theorem weigh_eq_ok {w : Weighed} (h : weigh weights cache nodeId ts = .ok w) :
    cachedWeight weights cache nodeId ts = .ok w.weight ∧
      ∀ n, n ≠ nodeId → w.cache.lookup n = cache.lookup n := by
  unfold weigh at h
  unfold cachedWeight
  cases hlookup : cache.lookup nodeId with
  | some weight =>
    rw [hlookup] at h
    cases h
    exact ⟨rfl, fun _ _ => rfl⟩
  | none =>
    rw [hlookup] at h
    obtain ⟨weight, hweight, h⟩ := bind_eq_ok.mp h
    obtain rfl := pure_eq_ok.mp h
    refine ⟨hweight, fun n hn => ?_⟩
    rw [OrderedMap.lookup_insert, if_neg hn]

theorem Caches.refl (weights : Weights) (cache : WeightCache) : Caches weights [] cache cache := by
  intro n
  cases cache.lookup n <;> rfl

theorem Caches.cons {w : Weighed} {asked : List (String × PyFloat)}
    (hweigh : weigh weights cache nodeId ts = .ok w) (h : Caches weights asked w.cache cache') :
    Caches weights ((nodeId, ts) :: asked) cache cache' := by
  intro n
  have hn := h n
  rw [OrderedMap.lookup_entry]
  unfold weigh at hweigh
  cases hlookup : cache.lookup nodeId with
  | some weight =>
    rw [hlookup] at hweigh
    cases hweigh
    split_ifs with heq
    · subst heq
      rw [hlookup] at hn ⊢
      exact hn
    · exact hn
  | none =>
    rw [hlookup] at hweigh
    obtain ⟨weight, hweight, hweigh⟩ := bind_eq_ok.mp hweigh
    obtain rfl := pure_eq_ok.mp hweigh
    rw [OrderedMap.lookup_insert] at hn
    split_ifs at hn ⊢ with heq
    · subst heq
      rw [hlookup]
      exact ⟨weight, hweight, hn⟩
    · exact hn

/-- The sum over the network asks for every author at the evaluation. -/
theorem networkWeight_caches {chain : List Dict} {now : PyFloat} {network : Weighed}
    (h : networkWeight weights chain now = .ok network) :
    Caches weights ((authors chain).map fun n => (n, now)) [] network.cache := by
  have hfold : ∀ (nodes : List String) (sum : Weighed),
      nodes.foldlM (Weighed.add weights now) sum = .ok network →
        Caches weights (nodes.map fun n => (n, now)) sum.cache network.cache := by
    intro nodes
    induction nodes with
    | nil =>
      intro sum hsum
      cases hsum
      exact Caches.refl weights _
    | cons n nodes ih =>
      intro sum hsum
      rw [List.foldlM_cons] at hsum
      obtain ⟨next, hnext, hsum⟩ := bind_eq_ok.mp hsum
      obtain ⟨w, hw, hnext⟩ := bind_eq_ok.mp hnext
      obtain rfl := pure_eq_ok.mp hnext
      exact Caches.cons hw (ih { weight := sum.weight.add w.weight, cache := w.cache } hsum)
  exact hfold _ _ h

/-- What a signature does: it is none that could count, or the signer was seen, or is seen now. -/
theorem Signatures.visit_cases {rule : SignatureRule} {event : Dict} (hstamped : Stamped rt event)
    {signed next : Signatures} (h : signed.visit rt weights rule event = .ok next) :
    (next = signed ∧ (rule.signature? rt event = none ∨
      ∃ s, rule.signature? rt event = some s ∧ s.1 ∈ signed.seen)) ∨
    ∃ s, rule.signature? rt event = some s ∧ s.1 ∉ signed.seen ∧ next.seen = signed.seen ++ [s.1] ∧
      if rule.closes.lt s.2 then next.cache = signed.cache
      else ∃ w, weigh weights signed.cache s.1 s.2 = .ok w ∧ next.cache = w.cache := by
  obtain ⟨k, hk⟩ := hstamped
  have hts := (keyed_eq_ok.mp hk).1
  unfold Signatures.visit at h
  unfold SignatureRule.signature?
  rw [hts] at h ⊢
  cases hnode : Dict.get event "node_id" with
  | str signer =>
    rw [hnode] at h
    dsimp only at h ⊢
    split at h
    · rename_i hskip
      cases h
      refine Or.inl ⟨rfl, ?_⟩
      rcases hskip with hempty | hseen
      · exact Or.inl (if_pos (Or.inl hempty))
      · split
        · exact Or.inl rfl
        · exact Or.inr ⟨_, rfl, hseen⟩
    · rename_i hskip
      obtain ⟨hempty, hseen⟩ := not_or.mp hskip
      simp only [bind, Except.bind] at h
      cases hlate : rule.closes.lt k.1.1 with
      | true =>
        rw [hlate, if_pos rfl] at h
        cases hlateSeen : rule.lateSeen with
        | true =>
          rw [hlateSeen, if_pos rfl] at h
          obtain rfl := pure_eq_ok.mp h
          refine Or.inr ⟨(signer, k.1.1), ?_, hseen, rfl, ?_⟩
          · rw [if_neg fun hor => hor.elim hempty fun h => Bool.noConfusion h.2]
          · rw [if_pos hlate]
        | false =>
          rw [hlateSeen, if_neg Bool.false_ne_true] at h
          obtain rfl := pure_eq_ok.mp h
          exact Or.inl ⟨rfl, Or.inl (if_pos (Or.inr ⟨rfl, rfl⟩))⟩
      | false =>
        rw [hlate, if_neg Bool.false_ne_true] at h
        obtain ⟨w, hw, h⟩ := bind_eq_ok.mp h
        obtain rfl := pure_eq_ok.mp h
        refine Or.inr ⟨(signer, k.1.1), ?_, hseen, rfl, ?_⟩
        · rw [if_neg fun hor => hor.elim hempty fun h => Bool.noConfusion h.1]
        · rw [hlate, if_neg Bool.false_ne_true]
          exact ⟨w, hw, rfl⟩
  | none | bool | int | float | list | dict =>
    rw [hnode] at h
    cases h
    exact Or.inl ⟨rfl, Or.inl rfl⟩

/-- Collecting asks for the signatures that count. -/
theorem foldlM_signatures {rule : SignatureRule} {events : List Dict}
    (hstamped : ∀ event ∈ events, Stamped rt event) {signed signed' : Signatures} {seen : List String}
    (hseen : ∀ n, n ∈ seen ↔ n ∈ signed.seen)
    (h : events.foldlM (Signatures.visit rt weights rule) signed = .ok signed') :
    Caches weights ((firsts seen (events.filterMap (rule.signature? rt))).filter
      fun s => !rule.closes.lt s.2) signed.cache signed'.cache ∧
    (∀ n ∈ signed.seen, n ∈ signed'.seen) ∧
    ∀ s ∈ firsts seen (events.filterMap (rule.signature? rt)), s.1 ∈ signed'.seen := by
  induction events generalizing signed seen with
  | nil =>
    cases h
    exact ⟨Caches.refl weights _, fun _ hn => hn, fun s hs => absurd hs List.not_mem_nil⟩
  | cons event events ih =>
    rw [List.foldlM_cons] at h
    obtain ⟨next, hnext, hfold⟩ := bind_eq_ok.mp h
    have hrest : ∀ e ∈ events, Stamped rt e := fun e he => hstamped e (List.mem_cons_of_mem event he)
    rcases Signatures.visit_cases (hstamped event List.mem_cons_self) hnext with
      ⟨rfl, hnone | ⟨s, hs, hmem⟩⟩ | ⟨s, hs, hmem, hnew, hcache⟩
    · rw [List.filterMap_cons_none hnone]
      exact ih hrest hseen hfold
    · rw [List.filterMap_cons_some hs]
      unfold firsts
      rw [if_pos ((hseen s.1).mpr hmem)]
      exact ih hrest hseen hfold
    · have hseen' : ∀ n, n ∈ s.1 :: seen ↔ n ∈ next.seen := by
        intro n
        rw [hnew, List.mem_cons, List.mem_append, List.mem_singleton, hseen n, or_comm]
      obtain ⟨hcaches, hkept, hall⟩ := ih hrest hseen' hfold
      rw [List.filterMap_cons_some hs]
      unfold firsts
      rw [if_neg fun hin => hmem ((hseen s.1).mp hin)]
      refine ⟨?_, fun n hn => hkept n (hnew ▸ List.mem_append_left _ hn), ?_⟩
      · rw [List.filter_cons]
        cases hlate : rule.closes.lt s.2 with
        | true =>
          rw [hlate, if_pos rfl] at hcache
          rw [hcache] at hcaches
          exact hcaches
        | false =>
          rw [hlate, if_neg Bool.false_ne_true] at hcache
          obtain ⟨w, hw, hcache⟩ := hcache
          rw [hcache] at hcaches
          exact hcaches.cons hw
      · intro d hd
        rcases List.mem_cons.mp hd with rfl | hd
        · exact hkept d.1 ((hseen' d.1).mp List.mem_cons_self)
        · exact hall d hd

/-- What a vote does: it is none that could count, or the voter was seen, or is counted now. -/
theorem Tally.visit_cases {rule : BallotRule} {event : Dict} (hstamped : Stamped rt event)
    {tally next : Tally} (h : tally.visit rt weights rule event = .ok next) :
    (next = tally ∧ (rule.ballot? rt event = none ∨
      ∃ v, rule.ballot? rt event = some v ∧ v.1 ∈ tally.seen)) ∨
    ∃ v w, rule.ballot? rt event = some v ∧ v.1 ∉ tally.seen ∧ next.seen = tally.seen ++ [v.1] ∧
      weigh weights tally.cache v.1 v.2.ts = .ok w ∧ next.cache = w.cache ∧
      next.yea = (if v.2.yea then tally.yea.add w.weight else tally.yea) ∧
      next.nay = (if v.2.yea then tally.nay else tally.nay.add w.weight) := by
  obtain ⟨k, hk⟩ := hstamped
  have hts := (keyed_eq_ok.mp hk).1
  unfold Tally.visit at h
  unfold BallotRule.ballot?
  rw [hts] at h ⊢
  cases hnode : Dict.get event "node_id" with
  | str voter =>
    rw [hnode] at h
    dsimp only at h ⊢
    split at h
    · rename_i hskip
      cases h
      refine Or.inl ⟨rfl, ?_⟩
      rcases hskip with hempty | hseen
      · exact Or.inl (if_pos (Or.inl hempty))
      · split
        · exact Or.inl rfl
        · exact Or.inr ⟨_, rfl, hseen⟩
    · rename_i hskip
      obtain ⟨hempty, hseen⟩ := not_or.mp hskip
      obtain ⟨ts, hts', h⟩ := bind_eq_ok.mp h
      cases hts'
      split at h
      · rename_i hout
        obtain rfl := pure_eq_ok.mp h
        exact Or.inl ⟨rfl, Or.inl (if_pos (Or.inr hout))⟩
      · rename_i hin
        obtain ⟨w, hw, h⟩ := bind_eq_ok.mp h
        obtain rfl := pure_eq_ok.mp h
        refine Or.inr ⟨_, w, if_neg (not_or.mpr ⟨hempty, hin⟩), hseen, ?_⟩
        dsimp only
        split_ifs
        · exact ⟨rfl, hw, rfl, rfl, rfl⟩
        · exact ⟨rfl, hw, rfl, rfl, rfl⟩
  | none | bool | int | float | list | dict =>
    rw [hnode] at h
    cases h
    exact Or.inl ⟨rfl, Or.inl rfl⟩

/-- Counting adds up what the cache or the weights say for each first vote. -/
theorem foldlM_ballots {rule : BallotRule} {events : List Dict}
    (hstamped : ∀ event ∈ events, Stamped rt event) {tally tally' : Tally} {seen : List String}
    (hseen : ∀ n, n ∈ seen ↔ n ∈ tally.seen)
    (hcache : ∀ n, n ∉ seen → tally.cache.lookup n = cache.lookup n)
    (h : events.foldlM (Tally.visit rt weights rule) tally = .ok tally') :
    ∃ yeas nays,
      cachedWeights weights cache (sideVotes (firsts seen (events.filterMap (rule.ballot? rt))) true) =
        .ok yeas ∧
      cachedWeights weights cache (sideVotes (firsts seen (events.filterMap (rule.ballot? rt))) false) =
        .ok nays ∧
      tally'.yea = yeas.foldl PyFloat.add tally.yea ∧ tally'.nay = nays.foldl PyFloat.add tally.nay := by
  induction events generalizing tally seen with
  | nil =>
    cases h
    exact ⟨[], [], rfl, rfl, rfl, rfl⟩
  | cons event events ih =>
    rw [List.foldlM_cons] at h
    obtain ⟨next, hnext, hfold⟩ := bind_eq_ok.mp h
    have hrest : ∀ e ∈ events, Stamped rt e := fun e he => hstamped e (List.mem_cons_of_mem event he)
    rcases Tally.visit_cases (hstamped event List.mem_cons_self) hnext with
      ⟨rfl, hnone | ⟨v, hv, hmem⟩⟩ | ⟨v, w, hv, hmem, hnew, hw, hnextCache, hyea, hnay⟩
    · rw [List.filterMap_cons_none hnone]
      exact ih hrest hseen hcache hfold
    · rw [List.filterMap_cons_some hv]
      unfold firsts
      rw [if_pos ((hseen v.1).mpr hmem)]
      exact ih hrest hseen hcache hfold
    · have hseen' : ∀ n, n ∈ v.1 :: seen ↔ n ∈ next.seen := by
        intro n
        rw [hnew, List.mem_cons, List.mem_append, List.mem_singleton, hseen n, or_comm]
      have hout : v.1 ∉ seen := fun hin => hmem ((hseen v.1).mp hin)
      obtain ⟨hweight, hothers⟩ := weigh_eq_ok hw
      have hcache' : ∀ n, n ∉ v.1 :: seen → next.cache.lookup n = cache.lookup n := by
        intro n hn
        rw [List.mem_cons, not_or] at hn
        rw [hnextCache, hothers n hn.1, hcache n hn.2]
      have hfirst : cachedWeight weights cache v.1 v.2.ts = .ok w.weight := by
        rw [← hweight]
        unfold cachedWeight
        rw [hcache v.1 hout]
      obtain ⟨yeas, nays, hyeas, hnays, hyea', hnay'⟩ := ih hrest hseen' hcache' hfold
      rw [List.filterMap_cons_some hv]
      unfold firsts
      rw [if_neg hout]
      unfold sideVotes cachedWeights at *
      cases hside : v.2.yea with
      | true =>
        rw [hside, if_pos rfl] at hyea hnay
        refine ⟨w.weight :: yeas, nays, ?_, ?_, ?_, ?_⟩
        · rw [List.filter_cons, hside, if_pos (beq_self_eq_true _), List.mapM_cons, hfirst, hyeas]
          rfl
        · rw [List.filter_cons, hside, if_neg (by decide)]
          exact hnays
        · rw [hyea', hyea]
          rfl
        · rw [hnay', hnay]
      | false =>
        rw [hside, if_neg Bool.false_ne_true] at hyea hnay
        refine ⟨yeas, w.weight :: nays, ?_, ?_, ?_, ?_⟩
        · rw [List.filter_cons, hside, if_neg (by decide)]
          exact hyeas
        · rw [List.filter_cons, hside, if_pos (beq_self_eq_true _), List.mapM_cons, hfirst, hnays]
          rfl
        · rw [hyea', hyea]
        · rw [hnay', hnay]
          rfl

end Cache

/-! ## Proposals -/

/-- When a voter is asked for its weight: at one of these times, or else at its vote. -/
def askedAt (times : List (String × PyFloat)) (v : String × Ballot) : PyFloat :=
  (times.lookup v.1).getD v.2.ts

section Asked

variable {rt : Runtime} {weights : Weights} {cache cache' : WeightCache}

theorem Caches.trans {times times' : List (String × PyFloat)} {cache'' : WeightCache}
    (h : Caches weights times cache cache') (h' : Caches weights times' cache' cache'') :
    Caches weights (times ++ times') cache cache'' := by
  intro n
  have hn := h n
  have hn' := h' n
  rw [List.lookup_append]
  cases hlookup : cache.lookup n with
  | some w =>
    rw [hlookup] at hn
    dsimp only at hn ⊢
    rw [hn] at hn'
    exact hn'
  | none =>
    rw [hlookup] at hn
    dsimp only at hn ⊢
    cases htime : times.lookup n with
    | some t =>
      rw [htime] at hn
      obtain ⟨w, hw, hn⟩ := hn
      rw [hn] at hn'
      exact ⟨w, hw, hn'⟩
    | none =>
      rw [htime] at hn
      dsimp only at hn
      rw [hn] at hn'
      exact hn'

theorem cachedWeight_eq {times : List (String × PyFloat)} (h : Caches weights times [] cache)
    (v : String × Ballot) : cachedWeight weights cache v.1 v.2.ts = weights v.1 (askedAt times v) := by
  have hv := h v.1
  rw [List.lookup_nil] at hv
  dsimp only at hv
  unfold cachedWeight askedAt
  cases htime : times.lookup v.1 with
  | none =>
    rw [htime] at hv
    dsimp only at hv
    rw [hv]
    rfl
  | some t =>
    rw [htime] at hv
    obtain ⟨w, hw, hv⟩ := hv
    rw [hv]
    exact hw.symm

theorem stamped_of_sortEvents {events sorted : List Dict} (h : sortEvents rt events = .ok sorted) :
    ∀ event ∈ sorted, Stamped rt event := by
  intro event hevent
  obtain ⟨keys, hkeys, -⟩ := bind_eq_ok.mp h
  exact ok_of_mapM hkeys event ((sortEvents_perm h).mem_iff.mp hevent)

theorem collectSignatures_caches {rule : SignatureRule} {signEvents : List Dict} {signed : Signatures}
    (h : collectSignatures rt weights rule cache signEvents = .ok signed) :
    Caches weights (countedSignatures rt rule signEvents) cache signed.cache ∧
      ∀ s ∈ countedSignatures rt rule signEvents, s.1 ∈ signed.seen := by
  obtain ⟨sorted, hsorted, h⟩ := bind_eq_ok.mp h
  have hstamped := stamped_of_sortEvents hsorted
  obtain ⟨hcaches, -, hseen⟩ := foldlM_signatures hstamped (fun _ => Iff.rfl) h
  unfold countedSignatures
  rw [hsorted]
  exact ⟨hcaches, fun s hs => hseen s (List.mem_of_mem_filter hs)⟩

/-- The tallies are what the voters weigh when they are asked. -/
theorem castBallots_asked {rule : BallotRule} {times : List (String × PyFloat)} {voteEvents : List Dict}
    {tally : Tally} (hcaches : Caches weights times [] cache)
    (h : castBallots rt weights rule cache voteEvents = .ok tally) :
    total <$> weightsAt weights (askedAt times) (sideVotes (countedVotes rt rule voteEvents) true) =
      .ok tally.yea ∧
    total <$> weightsAt weights (askedAt times) (sideVotes (countedVotes rt rule voteEvents) false) =
      .ok tally.nay := by
  obtain ⟨sorted, hsorted, h⟩ := bind_eq_ok.mp h
  obtain ⟨yeas, nays, hyeas, hnays, hyea, hnay⟩ :=
    foldlM_ballots (stamped_of_sortEvents hsorted) (fun _ => Iff.rfl) (fun _ _ => rfl) h
  have hasked : ∀ votes, cachedWeights weights cache votes = weightsAt weights (askedAt times) votes :=
    fun votes => by
      unfold cachedWeights weightsAt
      congr 1
      funext v
      exact cachedWeight_eq hcaches v
  rw [hasked] at hyeas hnays
  unfold countedVotes
  rw [hsorted]
  exact ⟨map_eq_ok.mpr ⟨yeas, hyeas, hyea.symm⟩, map_eq_ok.mpr ⟨nays, hnays, hnay.symm⟩⟩

theorem mem_countedVotes {rule : BallotRule} {voteEvents : List Dict} {v : String × Ballot}
    (h : v ∈ countedVotes rt rule voteEvents) : ∃ event ∈ voteEvents,
      Dict.get event "node_id" = .str v.1 ∧ timestamp rt event = .ok v.2.ts ∧
      v.2.ts.lt rule.opens = false := by
  unfold countedVotes at h
  cases hsorted : sortEvents rt voteEvents with
  | error exn =>
    rw [hsorted] at h
    exact absurd h List.not_mem_nil
  | ok sorted =>
    rw [hsorted] at h
    obtain ⟨event, hevent, hv⟩ := List.mem_filterMap.mp ((firsts_sublist _ _).mem h)
    refine ⟨event, (sortEvents_perm hsorted).mem_iff.mp hevent, ?_⟩
    unfold BallotRule.ballot? at hv
    cases hnode : Dict.get event "node_id" with
    | str voter =>
      cases hts : timestamp rt event with
      | error exn =>
        rw [hnode, hts] at hv
        cases hv
      | ok ts =>
        rw [hnode, hts] at hv
        dsimp only at hv
        split at hv
        · cases hv
        · rename_i hin
          cases hv
          refine ⟨rfl, rfl, ?_⟩
          simp only [Bool.or_eq_true, not_or] at hin
          exact Bool.eq_false_iff.mpr hin.2.1.1
    | none | bool | int | float | list | dict =>
      rw [hnode] at hv
      cases hv

theorem signature?_eq_some {rule : SignatureRule} {e : Dict} {m : String} {t : PyFloat} :
    rule.signature? rt e = some (m, t) ↔
    Dict.get e "node_id" = .str m ∧ timestamp rt e = .ok t ∧ ¬ (m = "" ∧ !rule.emptySigner) ∧
      ¬ (rule.closes.lt t ∧ !rule.lateSeen) := by
  unfold SignatureRule.signature?
  cases hnode : Dict.get e "node_id" with
  | str signer =>
    cases hts : timestamp rt e with
    | error exn => simp
    | ok ts =>
      dsimp only
      constructor
      · intro h
        split at h
        · cases h
        · rename_i hcounts
          cases h
          exact ⟨rfl, rfl, not_or.mp hcounts⟩
      · rintro ⟨hm, ht, hcounts⟩
        cases hm
        cases ht
        exact if_neg (not_or.mpr hcounts)
  | none | bool | int | float | list | dict => simp

theorem mem_countedSignatures {rule : SignatureRule} {signEvents : List Dict} {s : String × PyFloat}
    (h : s ∈ countedSignatures rt rule signEvents) : ∃ event ∈ signEvents,
      Dict.get event "node_id" = .str s.1 ∧ timestamp rt event = .ok s.2 := by
  unfold countedSignatures at h
  cases hsorted : sortEvents rt signEvents with
  | error exn =>
    rw [hsorted] at h
    exact absurd h List.not_mem_nil
  | ok sorted =>
    rw [hsorted] at h
    obtain ⟨event, hevent, hs⟩ :=
      List.mem_filterMap.mp ((firsts_sublist _ _).mem (List.mem_of_mem_filter h))
    refine ⟨event, (sortEvents_perm hsorted).mem_iff.mp hevent, ?_⟩
    obtain ⟨hnode, hts, -⟩ := signature?_eq_some.mp hs
    exact ⟨hnode, hts⟩

end Asked

/-! ## The latest signature -/

section Latest

variable {rt : Runtime} {signEvents : List Dict} {seen : List String} {filedAt started : PyFloat}

theorem le_foldl_max {stamps : List PyFloat} {ts : PyFloat} (hts : ts ≠ .nan)
    (hstamps : ∀ t ∈ stamps, t ≠ .nan) :
    ∀ t ∈ ts :: stamps, t.place ≤ (stamps.foldl PyFloat.max ts).place := by
  induction stamps generalizing ts with
  | nil =>
    intro t ht
    rw [List.mem_singleton.mp ht]
    rfl
  | cons s stamps ih =>
    have hs := hstamps s List.mem_cons_self
    have hmax : ts.max s ≠ .nan ∧ ts.place ≤ (ts.max s).place ∧ s.place ≤ (ts.max s).place := by
      unfold PyFloat.max
      split
      · rename_i hlt
        exact ⟨hs, ((PyFloat.lt_place hts hs).mp hlt).le, le_rfl⟩
      · rename_i hlt
        rw [PyFloat.lt_place hts hs, not_lt] at hlt
        exact ⟨hts, le_rfl, hlt⟩
    have hrest := ih hmax.1 fun t ht => hstamps t (List.mem_cons_of_mem s ht)
    have hfirst := hrest (ts.max s) List.mem_cons_self
    intro t ht
    rcases List.mem_cons.mp ht with rfl | ht
    · exact hmax.2.1.trans hfirst
    · rcases List.mem_cons.mp ht with rfl | ht
      · exact hmax.2.2.trans hfirst
      · exact hrest t (List.mem_cons_of_mem _ ht)

theorem le_latestSignature (hnumber : ∀ event ∈ signEvents, NumberStamped rt event)
    (h : latestSignature rt filedAt seen signEvents = .ok started) {event : Dict}
    (hevent : event ∈ signEvents) {n : String} (hnode : Dict.get event "node_id" = .str n)
    (hn : n ∈ seen) {ts : PyFloat} (hts : timestamp rt event = .ok ts) : ts.le started = true := by
  obtain ⟨stamps, hstamps, h⟩ := bind_eq_ok.mp h
  have hstamp : seenStamp rt seen event = .ok (some ts) := by
    unfold seenStamp
    rw [hnode, hts]
    have hin : (PyVal.str n).inStrings seen = true :=
      List.any_eq_true.mpr ⟨n, hn, by simp [PyVal.eq]⟩
    dsimp only
    rw [hin]
    rfl
  have hmem := (mem_filterMapM hstamps).mpr ⟨_, hevent, hstamp⟩
  have hreal : ∀ t ∈ stamps, t ≠ .nan := by
    intro t ht
    obtain ⟨e, he, hread⟩ := (mem_filterMapM hstamps).mp ht
    exact seenStamp_number (hnumber e he) hread
  cases stamps with
  | nil => exact absurd hmem List.not_mem_nil
  | cons first more =>
    obtain rfl := pure_eq_ok.mp h
    have hmore : ∀ t ∈ more, t ≠ .nan := fun t ht => hreal t (List.mem_cons_of_mem first ht)
    have hfirst := hreal first List.mem_cons_self
    rw [PyFloat.le_place (hreal ts hmem) (foldl_max_ne_nan hfirst hmore)]
    exact le_foldl_max hfirst hmore ts hmem

end Latest

/-! ## Petitions and upgrades -/

section

variable (rt : Runtime)

/-- The votes of a petition that count, where its vote starts at a time. -/
def petitionBallots (cfg : PetitionConfig) (petitionId : String) (chain : List Dict)
    (votingStartedAt : PyFloat) : List (String × Ballot) :=
  countedVotes rt
    { yea := "for", nay := "against", emptyVoter := false, opens := votingStartedAt,
      closes := petitionVotingDeadline cfg votingStartedAt }
    (petitionEvents petitionId "petition_vote" chain)

/-- The signatures of a petition, each with its signer. -/
def petitionAsked (cfg : PetitionConfig) (petitionId : String) (chain : List Dict) (filedAt : PyFloat) :
    List (String × PyFloat) :=
  countedSignatures rt
    { emptySigner := false, lateSeen := true, closes := petitionSignaturesClose cfg filedAt }
    (petitionEvents petitionId "petition_sign" chain)

/-- The votes of an upgrade that count, where its vote starts at a time. -/
def upgradeBallots (cfg : UpgradeConfig) (proposalId : String) (chain : List Dict)
    (votingStartedAt : PyFloat) : List (String × Ballot) :=
  countedVotes rt
    { yea := "for", nay := "against", emptyVoter := true, opens := votingStartedAt,
      closes := upgradeVotingDeadline cfg votingStartedAt }
    (proposalEvents proposalId "upgrade_vote" chain)

/-- Every author at the evaluation, and the signatures of an upgrade. -/
def upgradeAsked (cfg : UpgradeConfig) (proposalId : String) (chain : List Dict) (now filedAt : PyFloat) :
    List (String × PyFloat) :=
  (authors chain).map (fun n => (n, now)) ++ countedSignatures rt
    { emptySigner := true, lateSeen := false, closes := signaturesClose cfg filedAt }
    (proposalEvents proposalId "upgrade_sign" chain)

/-- The tallies of a petition are the weights that the voters held when they voted. -/
def PetitionVotesHeld (cfg : PetitionConfig) (petitionId : String) (chain : List Dict)
    (now : PyFloat) : Prop :=
  ∀ state started, computePetitionState rt cfg petitionId chain now = .ok state →
    state.votingStartedAt = some started →
      HeldWeights (petitionWeights rt cfg chain) (petitionBallots rt cfg petitionId chain started)
        state.votesForWeight state.votesAgainstWeight

/-- No voter's weight fell between its signature and its vote. -/
def PetitionVotesSame (cfg : PetitionConfig) (petitionId : String) (chain : List Dict)
    (now : PyFloat) : Prop :=
  ∀ state started, computePetitionState rt cfg petitionId chain now = .ok state →
    state.votingStartedAt = some started →
      SameWeights (petitionWeights rt cfg chain)
        (askedAt (petitionAsked rt cfg petitionId chain state.filedAt))
        (petitionBallots rt cfg petitionId chain started)

/-- The tallies of an upgrade are the weights that the voters held when they voted. -/
def UpgradeVotesHeld (cfg : UpgradeConfig) (proposalId : String) (chain : List Dict) (now : PyFloat)
    (heavy : Finset String) : Prop :=
  ∀ state started, computeUpgradeState rt cfg proposalId chain now heavy = .ok state →
    state.votingStartedAt = some started →
      HeldWeights (upgradeWeights rt cfg chain) (upgradeBallots rt cfg proposalId chain started)
        state.votesForWeight state.votesAgainstWeight

/-- No voter's weight changed between its vote and the evaluation. -/
def UpgradeVotesSame (cfg : UpgradeConfig) (proposalId : String) (chain : List Dict) (now : PyFloat)
    (heavy : Finset String) : Prop :=
  ∀ state started, computeUpgradeState rt cfg proposalId chain now heavy = .ok state →
    state.votingStartedAt = some started →
      SameWeights (upgradeWeights rt cfg chain)
        (askedAt (upgradeAsked rt cfg proposalId chain now state.filedAt))
        (upgradeBallots rt cfg proposalId chain started)

/-- The counted votes have authors, and none of them is after the evaluation. -/
def EvaluatedAfter (cfg : UpgradeConfig) (proposalId : String) (chain : List Dict) (now : PyFloat)
    (heavy : Finset String) : Prop :=
  ∀ state started, computeUpgradeState rt cfg proposalId chain now heavy = .ok state →
    state.votingStartedAt = some started →
      ∀ v ∈ upgradeBallots rt cfg proposalId chain started, v.1 ≠ "" ∧ v.2.ts.le now = true

end

section

variable {rt : Runtime} {weights : Weights} {asked : String × Ballot → PyFloat}
  {votes : List (String × Ballot)} {yea nay : PyFloat}

theorem held_of_same (hfalling : Falling weights)
    (hyea : total <$> weightsAt weights asked (sideVotes votes true) = .ok yea)
    (hnay : total <$> weightsAt weights asked (sideVotes votes false) = .ok nay)
    (hsame : SameWeights weights asked votes) : HeldWeights weights votes yea nay := by
  obtain ⟨yeas, hyeas, hsameYea⟩ := hsame true
  obtain ⟨nays, hnays, hsameNay⟩ := hsame false
  exact ⟨side_held hfalling hyea hyeas hsameYea, side_held hfalling hnay hnays hsameNay⟩

theorem same_of_held (hfalling : Falling weights)
    (hyea : total <$> weightsAt weights asked (sideVotes votes true) = .ok yea)
    (hnay : total <$> weightsAt weights asked (sideVotes votes false) = .ok nay)
    (horder : (∀ v ∈ votes, (asked v).le (votedAt v) = true) ∨
      ∀ v ∈ votes, (votedAt v).le (asked v) = true)
    (hheld : HeldWeights weights votes yea nay) : SameWeights weights asked votes := by
  have hside : ∀ side, (∀ v ∈ sideVotes votes side, (asked v).le (votedAt v) = true) ∨
      ∀ v ∈ sideVotes votes side, (votedAt v).le (asked v) = true := fun side =>
    horder.imp (fun h v hv => h v (List.mem_of_mem_filter hv)) fun h v hv => h v (List.mem_of_mem_filter hv)
  intro side
  cases side with
  | true => exact same_of_side_held hfalling hyea hheld.1 (hside true)
  | false => exact same_of_side_held hfalling hnay hheld.2 (hside false)

end

/-! ## Passages -/

section

variable {rt : Runtime} {id : String} {chain : List Dict} {now started : PyFloat}

theorem petitionVotingPhase_fields {cfg : PetitionConfig} {network : PyFloat} {cache : WeightCache}
    {st state : PetitionState}
    (h : petitionVotingPhase rt cfg id chain now network started cache st = .ok state) :
    ∃ tally, petitionVotes rt cfg id chain started cache = .ok tally ∧
      state.filedAt = st.filedAt ∧ state.votingStartedAt = some started ∧
      state.votingDeadline = some (petitionVotingDeadline cfg started) ∧
      state.votesForWeight = tally.yea ∧ state.votesAgainstWeight = tally.nay := by
  obtain ⟨tally, htally, h⟩ := bind_eq_ok.mp h
  refine ⟨tally, htally, ?_⟩
  split_ifs at h
  · obtain rfl := pure_eq_ok.mp h
    exact ⟨rfl, rfl, rfl, rfl, rfl⟩
  · obtain rfl := pure_eq_ok.mp h
    exact ⟨rfl, rfl, rfl, rfl, rfl⟩
  · obtain ⟨challenge, -, h⟩ := bind_eq_ok.mp h
    split_ifs at h <;> obtain rfl := pure_eq_ok.mp h <;> exact ⟨rfl, rfl, rfl, rfl, rfl⟩

theorem votingPhase_fields {cfg : UpgradeConfig} {heavy : Finset String} {network : PyFloat}
    {cache : WeightCache} {st state : UpgradeProposalState}
    (h : votingPhase rt cfg id chain heavy now network started cache st = .ok state) :
    ∃ tally, upgradeVotes rt cfg id chain started cache = .ok tally ∧
      state.filedAt = st.filedAt ∧ state.votingStartedAt = some started ∧
      state.votingDeadline = some (upgradeVotingDeadline cfg started) ∧
      state.votesForWeight = tally.yea ∧ state.votesAgainstWeight = tally.nay := by
  obtain ⟨tally, htally, h⟩ := bind_eq_ok.mp h
  refine ⟨tally, htally, ?_⟩
  split_ifs at h
  · obtain rfl := pure_eq_ok.mp h
    exact ⟨rfl, rfl, rfl, rfl, rfl⟩
  · obtain rfl := pure_eq_ok.mp h
    exact ⟨rfl, rfl, rfl, rfl, rfl⟩
  · obtain ⟨challenge, -, h⟩ := bind_eq_ok.mp h
    split_ifs at h
    · obtain rfl := pure_eq_ok.mp h
      exact ⟨rfl, rfl, rfl, rfl, rfl⟩
    · obtain rfl := pure_eq_ok.mp h
      exact ⟨rfl, rfl, rfl, rfl, rfl⟩
    · obtain rfl := pure_eq_ok.mp h
      unfold activationPhase
      dsimp only
      split_ifs <;> exact ⟨rfl, rfl, rfl, rfl, rfl⟩

theorem petition_passage {cfg : PetitionConfig} {state : PetitionState}
    (h : computePetitionState rt cfg id chain now = .ok state)
    (hstarted : state.votingStartedAt = some started) :
    ∃ file petitionPayload network signed,
      (petitionEvents id "petition_file" chain).head? = some file ∧
      timestamp rt file = .ok state.filedAt ∧
      dictOf (Dict.get (payload file) "petition_payload") = .ok petitionPayload ∧
      networkWeight (petitionWeights rt cfg chain) chain now = .ok network ∧
      petitionSignatures rt cfg id chain state.filedAt = .ok signed ∧
      ((network.weight.mul (.finite cfg.petitionSignatureThreshold)).le signed.weight &&
        (PyFloat.finite 0).lt (network.weight.mul (.finite cfg.petitionSignatureThreshold))) = true ∧
      latestSignature rt state.filedAt signed.seen (petitionEvents id "petition_sign" chain) =
        .ok started ∧
      petitionVotingPhase rt cfg id chain now network.weight started signed.cache
        { petitionId := id, status := .signatures, filerId := Dict.text rt file "node_id",
          filedAt := state.filedAt, petitionPayload,
          signatureThresholdAtFiling := network.weight.mul (.finite cfg.petitionSignatureThreshold),
          signatureGovernanceWeight := signed.weight } = .ok state := by
  unfold computePetitionState at h
  cases hfile : (petitionEvents id "petition_file" chain).head? with
  | none =>
    rw [hfile] at h
    cases h
    cases hstarted
  | some file =>
    rw [hfile] at h
    obtain ⟨filedAt, hfiled, h⟩ := bind_eq_ok.mp h
    obtain ⟨petitionPayload, hpayload, h⟩ := bind_eq_ok.mp h
    obtain ⟨network, hnetwork, h⟩ := bind_eq_ok.mp h
    obtain ⟨signed, hsigned, h⟩ := bind_eq_ok.mp h
    dsimp only at h
    split at h
    · split at h <;> obtain rfl := pure_eq_ok.mp h <;> cases hstarted
    · rename_i hreached
      obtain ⟨started', hlatest, h⟩ := bind_eq_ok.mp h
      obtain ⟨tally, htally, hfiledAt, hstarted', -⟩ := petitionVotingPhase_fields h
      cases hstarted.symm.trans hstarted'
      dsimp only at hfiledAt
      subst hfiledAt
      exact ⟨file, petitionPayload, network, signed, rfl, hfiled, hpayload, hnetwork, hsigned,
        by simpa using hreached, hlatest, h⟩

theorem petition_voting {cfg : PetitionConfig} {state : PetitionState}
    (h : computePetitionState rt cfg id chain now = .ok state)
    (hstarted : state.votingStartedAt = some started) :
    ∃ signed tally, petitionSignatures rt cfg id chain state.filedAt = .ok signed ∧
      latestSignature rt state.filedAt signed.seen (petitionEvents id "petition_sign" chain) =
        .ok started ∧
      petitionVotes rt cfg id chain started signed.cache = .ok tally ∧
      state.votesForWeight = tally.yea ∧ state.votesAgainstWeight = tally.nay := by
  obtain ⟨file, petitionPayload, network, signed, -, -, -, -, hsigned, -, hlatest, hphase⟩ :=
    petition_passage h hstarted
  obtain ⟨tally, htally, -, -, -, hyea, hnay⟩ := petitionVotingPhase_fields hphase
  exact ⟨signed, tally, hsigned, hlatest, htally, hyea, hnay⟩

theorem upgrade_passage {cfg : UpgradeConfig} {heavy : Finset String} {state : UpgradeProposalState}
    (h : computeUpgradeState rt cfg id chain now heavy = .ok state)
    (hstarted : state.votingStartedAt = some started) :
    ∃ propose network signed,
      (proposalEvents id "upgrade_propose" chain).head? = some propose ∧
      timestamp rt propose = .ok state.filedAt ∧
      networkWeight (upgradeWeights rt cfg chain) chain now = .ok network ∧
      upgradeSignatures rt cfg id chain state.filedAt network.cache = .ok signed ∧
      signaturesSuffice cfg network.weight signed.weight = true ∧
      latestSignature rt state.filedAt signed.seen (proposalEvents id "upgrade_sign" chain) =
        .ok started ∧
      votingPhase rt cfg id chain heavy now network.weight started signed.cache
        { filedState rt id propose state.filedAt with signatureGovernanceWeight := signed.weight } =
        .ok state := by
  unfold computeUpgradeState at h
  cases hpropose : (proposalEvents id "upgrade_propose" chain).head? with
  | none =>
    rw [hpropose] at h
    cases h
    cases hstarted
  | some propose =>
    rw [hpropose] at h
    obtain ⟨filedAt, hfiled, h⟩ := bind_eq_ok.mp h
    obtain ⟨network, hnetwork, h⟩ := bind_eq_ok.mp h
    obtain ⟨signed, hsigned, h⟩ := bind_eq_ok.mp h
    dsimp only at h
    split at h
    · split at h <;> obtain rfl := pure_eq_ok.mp h <;> cases hstarted
    · rename_i hsuffice
      obtain ⟨started', hlatest, h⟩ := bind_eq_ok.mp h
      obtain ⟨tally, htally, hfiledAt, hstarted', -⟩ := votingPhase_fields h
      cases hstarted.symm.trans hstarted'
      have hfiledAt : state.filedAt = filedAt := hfiledAt
      subst hfiledAt
      exact ⟨propose, network, signed, rfl, hfiled, hnetwork, hsigned, by simpa using hsuffice, hlatest, h⟩

theorem upgrade_voting {cfg : UpgradeConfig} {heavy : Finset String} {state : UpgradeProposalState}
    (h : computeUpgradeState rt cfg id chain now heavy = .ok state)
    (hstarted : state.votingStartedAt = some started) :
    ∃ network signed tally, networkWeight (upgradeWeights rt cfg chain) chain now = .ok network ∧
      upgradeSignatures rt cfg id chain state.filedAt network.cache = .ok signed ∧
      upgradeVotes rt cfg id chain started signed.cache = .ok tally ∧
      state.votesForWeight = tally.yea ∧ state.votesAgainstWeight = tally.nay := by
  obtain ⟨propose, network, signed, -, -, hnetwork, hsigned, -, -, hphase⟩ :=
    upgrade_passage h hstarted
  obtain ⟨tally, htally, -, -, -, hyea, hnay⟩ := votingPhase_fields hphase
  exact ⟨network, signed, tally, hnetwork, hsigned, htally, hyea, hnay⟩

theorem mem_authors {event : Dict} (hevent : event ∈ chain) {n : String}
    (hnode : Dict.get event "node_id" = .str n) (hn : n ≠ "") : n ∈ authors chain := by
  unfold authors
  rw [List.mem_dedup, List.mem_filterMap]
  refine ⟨event, hevent, ?_⟩
  rw [hnode]
  exact if_neg hn

theorem lookup_authors {ns : List String} {n : String} (h : n ∈ ns) (now : PyFloat) :
    (ns.map fun n => (n, now)).lookup n = some now := by
  induction ns with
  | nil => exact absurd h List.not_mem_nil
  | cons m ns ih =>
    rw [List.map_cons, OrderedMap.lookup_entry]
    split_ifs with heq
    · rfl
    · exact ih ((List.mem_cons.mp h).resolve_left heq)

/-- A petition's signers are asked no later than at their votes. -/
theorem petition_order {cfg : PetitionConfig} {filedAt : PyFloat} {signed : Signatures}
    (hnumber : ∀ t, ∀ event ∈ petitionEvents id t chain, NumberStamped rt event)
    (hsigned : petitionSignatures rt cfg id chain filedAt = .ok signed)
    (hlatest : latestSignature rt filedAt signed.seen (petitionEvents id "petition_sign" chain) =
      .ok started) :
    ∀ v ∈ petitionBallots rt cfg id chain started,
      (askedAt (petitionAsked rt cfg id chain filedAt) v).le (votedAt v) = true := by
  intro v hv
  obtain ⟨vote, hvote, -, hts, hopen⟩ := mem_countedVotes hv
  have hreal : v.2.ts ≠ .nan := fun hnan => hnumber _ vote hvote (hnan ▸ hts)
  unfold askedAt votedAt
  cases htime : (petitionAsked rt cfg id chain filedAt).lookup v.1 with
  | none => exact (PyFloat.le_place hreal hreal).mpr le_rfl
  | some t =>
    have hmem := OrderedMap.mem_of_lookup htime
    obtain ⟨event, hevent, hnode, hstamp⟩ := mem_countedSignatures hmem
    have hseen := (collectSignatures_caches hsigned).2 _ hmem
    have hle : t.le started = true :=
      le_latestSignature (hnumber "petition_sign") hlatest hevent hnode hseen hstamp
    obtain ⟨ht, hstarted⟩ := ne_nan_of_le hle
    have hafter : started.place ≤ v.2.ts.place := by
      rw [← not_lt, ← PyFloat.lt_place hreal hstarted]
      exact Bool.eq_false_iff.mp hopen
    exact (PyFloat.le_place ht hreal).mpr (((PyFloat.le_place ht hstarted).mp hle).trans hafter)

theorem upgrade_order {cfg : UpgradeConfig} {filedAt : PyFloat}
    (hafter : ∀ v ∈ upgradeBallots rt cfg id chain started, v.1 ≠ "" ∧ v.2.ts.le now = true) :
    ∀ v ∈ upgradeBallots rt cfg id chain started,
      (votedAt v).le (askedAt (upgradeAsked rt cfg id chain now filedAt) v) = true := by
  intro v hv
  obtain ⟨hn, hle⟩ := hafter v hv
  obtain ⟨vote, hvote, hnode, -, -⟩ := mem_countedVotes hv
  have hauthor := lookup_authors (mem_authors (List.mem_of_mem_filter hvote) hnode hn) now
  unfold askedAt upgradeAsked
  rw [List.lookup_append, hauthor]
  exact hle

/-- The tallies are the weights that the voters held exactly where the cached weights are still
    those. -/
theorem votes_held_iff (rt : Runtime) (pcfg : PetitionConfig) (ucfg : UpgradeConfig) (id : String)
    (chain : List Dict) (now : PyFloat) (heavy : Finset String) :
    (PetitionVotesSame rt pcfg id chain now → PetitionVotesHeld rt pcfg id chain now) ∧
    (UpgradeVotesSame rt ucfg id chain now heavy → UpgradeVotesHeld rt ucfg id chain now heavy) ∧
    ((∀ t, ∀ event ∈ petitionEvents id t chain, NumberStamped rt event) →
      PetitionVotesHeld rt pcfg id chain now → PetitionVotesSame rt pcfg id chain now) ∧
    (EvaluatedAfter rt ucfg id chain now heavy →
      UpgradeVotesHeld rt ucfg id chain now heavy → UpgradeVotesSame rt ucfg id chain now heavy) := by
  refine ⟨?_, ?_, ?_, ?_⟩
  · intro hsame state started h hstarted
    obtain ⟨signed, tally, hsigned, -, htally, hyea, hnay⟩ := petition_voting h hstarted
    obtain ⟨hyeas, hnays⟩ := castBallots_asked (collectSignatures_caches hsigned).1 htally
    rw [hyea, hnay]
    exact held_of_same (falling_active rt pcfg.toRepConfig chain) hyeas hnays
      (hsame state started h hstarted)
  · intro hsame state started h hstarted
    obtain ⟨network, signed, tally, hnetwork, hsigned, htally, hyea, hnay⟩ := upgrade_voting h hstarted
    have hcaches := (networkWeight_caches hnetwork).trans (collectSignatures_caches hsigned).1
    obtain ⟨hyeas, hnays⟩ := castBallots_asked hcaches htally
    rw [hyea, hnay]
    exact held_of_same (falling_active rt ucfg.toRepConfig chain) hyeas hnays
      (hsame state started h hstarted)
  · intro hnumber hheld state started h hstarted
    obtain ⟨signed, tally, hsigned, hlatest, htally, hyea, hnay⟩ := petition_voting h hstarted
    obtain ⟨hyeas, hnays⟩ := castBallots_asked (collectSignatures_caches hsigned).1 htally
    have hheld := hheld state started h hstarted
    rw [hyea, hnay] at hheld
    exact same_of_held (falling_active rt pcfg.toRepConfig chain) hyeas hnays
      (Or.inl (petition_order hnumber hsigned hlatest)) hheld
  · intro hafter hheld state started h hstarted
    obtain ⟨network, signed, tally, hnetwork, hsigned, htally, hyea, hnay⟩ := upgrade_voting h hstarted
    have hcaches := (networkWeight_caches hnetwork).trans (collectSignatures_caches hsigned).1
    obtain ⟨hyeas, hnays⟩ := castBallots_asked hcaches htally
    have hheld := hheld state started h hstarted
    rw [hyea, hnay] at hheld
    exact same_of_held (falling_active rt ucfg.toRepConfig chain) hyeas hnays
      (Or.inr (upgrade_order (hafter state started h hstarted))) hheld

/-- A vote is counted with half its weight, once the last success is old enough. -/
theorem not_votes_held : ¬ UpgradeVotesHeld asciiRuntime {} "u1" (dicts unreadyUpgrade)
    (.finite 1709500000) {"h1"} := by
  intro hheld
  have hrun : okAnd (computeUpgradeState asciiRuntime {} "u1" (dicts unreadyUpgrade)
      (.finite 1709500000) {"h1"}) (fun state => state.votingStartedAt = some (.finite 1700000031) ∧
        state.votesForWeight = .finite (1 / 4)) = true := by
    decide +kernel
  have hweight : okAnd (total <$> weightsAt (upgradeWeights asciiRuntime {} (dicts unreadyUpgrade)) votedAt
      (sideVotes (upgradeBallots asciiRuntime {} "u1" (dicts unreadyUpgrade) (.finite 1700000031)) true))
      (fun w => w = .finite (1 / 2)) = true := by
    decide +kernel
  obtain ⟨state, hstate, hstarted⟩ := okAnd_iff.mp hrun
  obtain ⟨w, hw, hhalf⟩ := okAnd_iff.mp hweight
  obtain ⟨hstarted, hquarter⟩ := of_decide_eq_true hstarted
  obtain rfl := of_decide_eq_true hhalf
  have hsum := hw.symm.trans (hheld state _ hstate hstarted).1
  rw [hquarter] at hsum
  revert hsum
  decide +kernel

/-- Before that it is counted as it should be. -/
theorem votes_held_early : UpgradeVotesHeld asciiRuntime {} "u1" (dicts unreadyUpgrade)
    (.finite 1700600000) {"h1"} := by
  have hrun : okAnd (computeUpgradeState asciiRuntime {} "u1" (dicts unreadyUpgrade)
      (.finite 1700600000) {"h1"}) (fun state => state.votingStartedAt = some (.finite 1700000031) ∧
        state.filedAt = .finite 1700000030) = true := by
    decide +kernel
  refine (votes_held_iff asciiRuntime {} {} "u1" (dicts unreadyUpgrade) (.finite 1700600000)
    {"h1"}).2.1 ?_
  intro state started hstate hstarted
  obtain ⟨state', hstate', hfields⟩ := okAnd_iff.mp hrun
  cases hstate.symm.trans hstate'
  obtain ⟨hstarted', hfiled⟩ := of_decide_eq_true hfields
  cases hstarted.symm.trans hstarted'
  rw [hfiled]
  have hside : ∀ side, okAnd (weightsAt (upgradeWeights asciiRuntime {} (dicts unreadyUpgrade)) votedAt
      (sideVotes (upgradeBallots asciiRuntime {} "u1" (dicts unreadyUpgrade) (.finite 1700000031)) side))
      (fun held => okAnd (weightsAt (upgradeWeights asciiRuntime {} (dicts unreadyUpgrade))
        (askedAt (upgradeAsked asciiRuntime {} "u1" (dicts unreadyUpgrade) (.finite 1700600000)
          (.finite 1700000030)))
        (sideVotes (upgradeBallots asciiRuntime {} "u1" (dicts unreadyUpgrade) (.finite 1700000031)) side))
        fun weights => weights = held) = true := by
    decide +kernel
  intro side
  obtain ⟨held, hheld, hsame⟩ := okAnd_iff.mp (hside side)
  obtain ⟨weights, hweights, heq⟩ := okAnd_iff.mp hsame
  obtain rfl := of_decide_eq_true heq
  exact ⟨weights, hheld, Or.inl hweights⟩

end

end Vincent.Economy
