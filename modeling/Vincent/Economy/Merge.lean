-- SUMMARY: When the views do not depend on the order of arrival.
import Vincent.Economy.CommonRep
import Vincent.Economy.Conservation
import Mathlib.Data.String.Basic

/-!
# Merging a partition

When a partition heals, nodes hold the same events in different orders. What each
view makes of them is decided by a sort: where two events tie in it, the order of
their arrival is kept, and where no two do, every order gives the same.
-/

namespace Vincent.Economy

open Vincent.Python Vincent.Check

/-! ## Epoch root -/

/-- The event, if its timestamp is a number in the epoch. -/
def inEpoch (rt : Runtime) (start stop : PyFloat) (event : Dict) : Except String (Option Dict) := do
  match ← catching ["TypeError", "ValueError"] (some <$> timestamp rt event) none with
  | none => return none
  | some ts => return if start.le ts && ts.lt stop then some event else none

/-- `str(e.get("event_id") or "")`. -/
def eventIdText (rt : Runtime) (event : Dict) : String :=
  ((Dict.get event "event_id").or (.str "")).toStr rt

/-- The order of a sort by `(timestamp, sequence, event_id)`. -/
def epochOrder (rt : Runtime) (a b : (PyFloat × Int) × Dict) : Bool :=
  a.1.1.lt b.1.1 || (!b.1.1.lt a.1.1 &&
    (a.1.2 < b.1.2 || (a.1.2 = b.1.2 && eventIdText rt a.2 ≤ eventIdText rt b.2)))

def canonicalEpochRoot (env : Env) (chain : List Dict) (epochStartTs epochEndTs : PyFloat) :
    Except String String := do
  let window ← chain.filterMapM (inEpoch env.rt epochStartTs epochEndTs)
  let keys ← window.mapM (keyed env.rt)
  let sorted := keys.insertionSort fun a b => epochOrder env.rt a b
  return env.sha256 (String.join (sorted.map fun k => canonicalJson env.rt k.2 ++ "\n"))

/-- `annotate_event`, without the save. -/
def annotateEvent (index : String → Option Nat) (eventId : String) (metadata : Dict)
    (events : List Dict) : Option (List Dict) :=
  match index eventId with
  | none => none
  | some idx =>
    if idx < events.length then some (events.modify idx fun e => Dict.set e "meta" (.dict metadata))
    else none

/-! ## Ties -/

/-- Neither event sorts before the other. -/
def Tied (rt : Runtime) (a b : Dict) : Prop :=
  ∃ ka kb, keyed rt a = .ok ka ∧ keyed rt b = .ok kb ∧
    chainOrder ka.1 kb.1 = true ∧ chainOrder kb.1 ka.1 = true

instance {rt : Runtime} {a b : Dict} : Decidable (Tied rt a b) :=
  decidable_of_iff (okAnd (keyed rt a) fun ka => okAnd (keyed rt b) fun kb =>
    chainOrder ka.1 kb.1 && chainOrder kb.1 ka.1) (by simp [okAnd_iff, Tied])

/-- No two events of the chain tie. -/
def Untied (rt : Runtime) (chain : List Dict) : Prop :=
  ∀ a ∈ chain, ∀ b ∈ chain, Tied rt a b → a = b

/-- No two events of the chain tie with one id. -/
def UntiedIds (rt : Runtime) (chain : List Dict) : Prop :=
  ∀ a ∈ chain, ∀ b ∈ chain, Tied rt a b → eventIdText rt a = eventIdText rt b → a = b

theorem untied_of_pairwise {rt : Runtime} {chain : List Dict}
    (h : chain.Pairwise fun a b => ¬ Tied rt a b) : Untied rt chain := by
  have hsymm : Std.Symm fun a b : Dict => ¬ Tied rt a b :=
    ⟨fun a b hab ⟨kb, ka, hkb, hka, hba, hab'⟩ => hab ⟨ka, kb, hka, hkb, hab', hba⟩⟩
  intro a ha b hb htied
  by_contra hne
  exact h.forall ha hb hne htied

/-- The event has a finite timestamp and a sequence. -/
def FiniteStamped (rt : Runtime) (event : Dict) : Prop :=
  ∃ k, keyed rt event = .ok k ∧ k.1.1.rat?.isSome = true

instance {rt : Runtime} {event : Dict} : Decidable (FiniteStamped rt event) :=
  decidable_of_iff (okAnd (keyed rt event) fun k => k.1.1.rat?.isSome)
    (by simp [okAnd_iff, FiniteStamped])

/-- Events of nodes that use a sequence number once, with finite timestamps. -/
structure Mergeable (rt : Runtime) (chain : List Dict) : Prop where
  stamped : ∀ e ∈ chain, FiniteStamped rt e
  sequences : chain.Pairwise fun a b =>
    nodeId a ≠ none → nodeId a = nodeId b → sequence rt a ≠ sequence rt b

section

variable {rt : Runtime} {chain chain' : List Dict}

theorem FiniteStamped.stamped {e : Dict} (h : FiniteStamped rt e) : Stamped rt e := by
  obtain ⟨k, hk, -⟩ := h
  exact ⟨k, hk⟩

theorem FiniteStamped.timestamp {e : Dict} (h : FiniteStamped rt e) :
    ∃ ts, timestamp rt e = .ok ts ∧ ts ≠ .nan := by
  obtain ⟨k, hk, hfinite⟩ := h
  refine ⟨k.1.1, (keyed_eq_ok.mp hk).1, ?_⟩
  intro hnan
  rw [hnan] at hfinite
  cases hfinite

/-- The key that a finite stamp gives is no NaN. -/
theorem FiniteStamped.number {e : Dict} (h : FiniteStamped rt e) {k : (PyFloat × Int) × Dict}
    (hk : keyed rt e = .ok k) : k.1.1 ≠ .nan := by
  obtain ⟨ts, hts, hnan⟩ := h.timestamp
  have hkts := (keyed_eq_ok.mp hk).1
  rw [hts] at hkts
  exact Except.ok.inj hkts ▸ hnan

/-- The key of an event that can be read. -/
def keyOf (rt : Runtime) (event : Dict) : (PyFloat × Int) × Dict :=
  (((timestamp rt event).toOption.getD .nan, (sequence rt event).toOption.getD 0), event)

theorem Stamped.keyed {e : Dict} (h : Stamped rt e) : keyed rt e = .ok (keyOf rt e) := by
  obtain ⟨⟨⟨ts, n⟩, e'⟩, hk⟩ := h
  obtain ⟨hts, hn, rfl⟩ := keyed_eq_ok.mp hk
  dsimp only at hts hn
  rw [hk]
  simp [keyOf, hts, hn, Except.toOption]

theorem mapM_keyOf {events : List Dict} (h : ∀ e ∈ events, Stamped rt e) :
    events.mapM (keyed rt) = .ok (events.map (keyOf rt)) := by
  induction events with
  | nil => rfl
  | cons e events ih =>
    rw [List.mapM_cons, (h e List.mem_cons_self).keyed,
      ih fun e' he' => h e' (List.mem_cons_of_mem _ he')]
    rfl

theorem number_of_keyOf (hstamped : ∀ e ∈ chain, FiniteStamped rt e) :
    ∀ k ∈ chain.map (keyOf rt), k.1.1 ≠ .nan := by
  intro k hk
  obtain ⟨e, he, rfl⟩ := List.mem_map.mp hk
  exact (hstamped e he).number (hstamped e he).stamped.keyed

/-- Keys that sort both ways are those of events that tie. -/
theorem tied_of_keyOf (hstamped : ∀ e ∈ chain, FiniteStamped rt e) {a b : (PyFloat × Int) × Dict}
    (ha : a ∈ chain.map (keyOf rt)) (hb : b ∈ chain.map (keyOf rt))
    (hab : chainOrder a.1 b.1 = true) (hba : chainOrder b.1 a.1 = true) :
    ∃ ea ∈ chain, ∃ eb ∈ chain, keyOf rt ea = a ∧ keyOf rt eb = b ∧ Tied rt ea eb := by
  obtain ⟨ea, hea, rfl⟩ := List.mem_map.mp ha
  obtain ⟨eb, heb, rfl⟩ := List.mem_map.mp hb
  exact ⟨ea, hea, eb, heb, rfl, rfl, _, _, (hstamped ea hea).stamped.keyed,
    (hstamped eb heb).stamped.keyed, hab, hba⟩

/-- Without ties, keys that sort both ways are the same. -/
theorem eq_of_keyOf (hstamped : ∀ e ∈ chain, FiniteStamped rt e) (huntied : Untied rt chain) :
    ∀ a ∈ chain.map (keyOf rt), ∀ b ∈ chain.map (keyOf rt),
      chainOrder a.1 b.1 = true → chainOrder b.1 a.1 = true → a = b := by
  intro a ha b hb hab hba
  obtain ⟨ea, hea, eb, heb, rfl, rfl, htied⟩ := tied_of_keyOf hstamped ha hb hab hba
  rw [huntied ea hea eb heb htied]

/-- Sorted by its keys, a chain without ties is the same in every order. -/
theorem sortEvents_eq_of_perm (hstamped : ∀ e ∈ chain, FiniteStamped rt e)
    (huntied : Untied rt chain) (h : chain.Perm chain') :
    sortEvents rt chain' = sortEvents rt chain := by
  have hkeys := mapM_keyOf fun e he => (hstamped e he).stamped
  have hkeys' := mapM_keyOf fun e he => (hstamped e (h.mem_iff.mpr he)).stamped
  unfold sortEvents
  rw [hkeys, hkeys']
  change Except.ok _ = Except.ok _
  rw [Sort.insertionSort_eq_of_perm chainOrder_orderOn (number_of_keyOf hstamped)
    (eq_of_keyOf hstamped huntied) (h.map _)]

/-- Two events that tie are sorted in the order of their arrival. -/
theorem sortEvents_tied {a b : Dict} {rest : List Dict}
    (hstamped : ∀ e ∈ a :: b :: rest, FiniteStamped rt e) (htied : Tied rt a b) (hne : a ≠ b) :
    sortEvents rt (a :: b :: rest) ≠ sortEvents rt (b :: a :: rest) := by
  have hswap : ∀ e ∈ b :: a :: rest, FiniteStamped rt e := fun e he =>
    hstamped e ((List.Perm.swap a b rest).mem_iff.mp he)
  have ha := hstamped a List.mem_cons_self
  have hb := hstamped b (List.mem_cons_of_mem _ List.mem_cons_self)
  obtain ⟨ka, kb, hka, hkb, hab, hba⟩ := htied
  obtain rfl : keyOf rt a = ka := Except.ok.inj (ha.stamped.keyed.symm.trans hka)
  obtain rfl : keyOf rt b = kb := Except.ok.inj (hb.stamped.keyed.symm.trans hkb)
  have hrest : ∀ k ∈ rest.map (keyOf rt), k.1.1 ≠ .nan := by
    intro k hk
    obtain ⟨e, he, rfl⟩ := List.mem_map.mp hk
    have he' := hstamped e (List.mem_cons_of_mem _ (List.mem_cons_of_mem _ he))
    exact he'.number he'.stamped.keyed
  obtain ⟨pre, post, hsorted, hsorted'⟩ := Sort.insertionSort_tied chainOrder_orderOn
    (ha.number hka) (hb.number hkb) hrest hab hba
  unfold sortEvents
  rw [mapM_keyOf fun e he => (hstamped e he).stamped, mapM_keyOf fun e he => (hswap e he).stamped]
  intro heq
  have hmap := Except.ok.inj heq
  rw [List.map_cons, List.map_cons, List.map_cons, List.map_cons, hsorted, hsorted',
    List.map_append, List.map_append] at hmap
  exact hne (List.cons.inj (List.append_cancel_left hmap)).1

/-- The sort gives the same for every order of arrival where no two events tie, and only
    there. -/
theorem sortEvents_perm_iff (hstamped : ∀ e ∈ chain, FiniteStamped rt e) :
    (∀ chain', chain.Perm chain' → sortEvents rt chain' = sortEvents rt chain) ↔
      Untied rt chain := by
  constructor
  · intro hall a ha b hb htied
    classical
    by_contra hne
    obtain ⟨rest, hperm⟩ : ∃ rest, chain.Perm (a :: b :: rest) := by
      have hb' : b ∈ chain.erase a := (List.mem_erase_of_ne (Ne.symm hne)).mpr hb
      exact ⟨_, (List.perm_cons_erase ha).trans ((List.perm_cons_erase hb').cons a)⟩
    have hstamped' : ∀ e ∈ a :: b :: rest, FiniteStamped rt e := fun e he =>
      hstamped e (hperm.mem_iff.mpr he)
    apply sortEvents_tied hstamped' htied hne
    rw [hall _ hperm, hall _ (hperm.trans (.swap b a rest))]
  · exact fun huntied chain' h => sortEvents_eq_of_perm hstamped huntied h

end

/-! ## Common reputation -/

section

variable {rt : Runtime} {log2 : PyFloat → PyFloat} {cfg : CommonRepConfig}
  {chain chain' events : List Dict} {node : String}

theorem computeOracleRep_perm {cfg : RepConfig} (hstamped : ∀ e ∈ chain, FiniteStamped rt e)
    (huntied : Untied rt chain) (h : chain.Perm chain') (node : String) :
    computeOracleRep rt cfg node chain' = computeOracleRep rt cfg node chain := by
  unfold computeOracleRep computeOracleRepBreakdown
  rw [sortEvents_eq_of_perm hstamped huntied h]

/-- The interval test of an event with a finite stamp does not fail. -/
theorem exists_inWindow {e : Dict} (h : FiniteStamped rt e) (low high : PyFloat) :
    ∃ o, inWindow rt low high e = .ok o := by
  obtain ⟨ts, hts, -⟩ := h.timestamp
  unfold inWindow uprepStamp
  rw [hts]
  exact ⟨_, rfl⟩

theorem upreps_perm (h : chain.Perm chain') : (upreps chain).Perm (upreps chain') := h.filter _

theorem uprepsTo_perm (h : chain.Perm chain') (targetId : String) :
    (uprepsTo targetId chain).Perm (uprepsTo targetId chain') := (upreps_perm h).filter _

/-- The edges in a window are a set, and are there for a chain with finite stamps. -/
theorem windowEdges_perm (hstamped : ∀ e ∈ chain, FiniteStamped rt e) (h : chain.Perm chain')
    (now : PyFloat) :
    ∃ edges, windowEdges rt cfg chain now = .ok edges ∧
      windowEdges rt cfg chain' now = .ok edges := by
  obtain ⟨rs, hrs⟩ := exists_filterMapM fun e (he : e ∈ upreps chain) =>
    exists_inWindow (hstamped e (List.mem_filter.mp he).1)
      (now.sub (.finite (cfg.voteDecayDays * 86400))) now
  obtain ⟨ss, hss, hperm⟩ := filterMapM_perm (upreps_perm h) hrs
  refine ⟨_, by unfold windowEdges uprepsWithinWindow; rw [hrs]; rfl, ?_⟩
  unfold windowEdges uprepsWithinWindow
  rw [hss]
  exact congrArg Except.ok (List.toFinset_eq_of_perm _ _ (hperm.filterMap edge)).symm

theorem perm_eq_nil {α : Type} {xs ys : List α} (h : xs.Perm ys) : ys = [] ↔ xs = [] :=
  ⟨fun h' => (h' ▸ h).eq_nil, fun h' => (h' ▸ h).symm.eq_nil⟩

theorem computeVcs_perm (hstamped : ∀ e ∈ chain, FiniteStamped rt e) (h : chain.Perm chain')
    (upreperId targetId : String) (now : PyFloat) :
    ∃ vcs, computeVcs rt cfg upreperId targetId chain now = .ok vcs ∧
      computeVcs rt cfg upreperId targetId chain' now = .ok vcs := by
  obtain ⟨edges, hedges, hedges'⟩ := @windowEdges_perm rt cfg _ _ hstamped h now
  unfold computeVcs
  rw [hedges, hedges']
  simp only [perm_eq_nil h]
  split
  · exact ⟨_, rfl, rfl⟩
  · split
    · exact ⟨_, rfl, rfl⟩
    · exact ⟨_, rfl, rfl⟩

theorem computeClusteringCoefficient_perm (hstamped : ∀ e ∈ chain, FiniteStamped rt e)
    (h : chain.Perm chain') (targetId : String) (now : PyFloat) :
    computeClusteringCoefficient rt cfg targetId chain' now =
      computeClusteringCoefficient rt cfg targetId chain now := by
  obtain ⟨edges, hedges, hedges'⟩ := @windowEdges_perm rt cfg _ _ hstamped h now
  unfold computeClusteringCoefficient
  rw [hedges, hedges']
  simp only [perm_eq_nil h]

theorem burstFrom_eq {low high : PyFloat} {rs : List Dict} {count : Nat}
    (hrs : events.filterMapM (inWindow rt low high) = .ok rs)
    (hcount : count < cfg.temporalBurstMinUpreps) :
    burstFrom rt cfg low high count events =
      .ok (cfg.temporalBurstMinUpreps ≤ count + rs.length) := by
  induction events generalizing count rs with
  | nil =>
    cases hrs
    simpa [burstFrom] using hcount
  | cons e events ih =>
    obtain ⟨o, ss, ho, hss, rfl⟩ := filterMapM_cons_eq_ok.mp hrs
    unfold burstFrom
    rw [ho]
    cases o with
    | none => exact ih hss hcount
    | some e' =>
      change (if _ then _ else _) = _
      split_ifs with hreached
      · have hle : cfg.temporalBurstMinUpreps ≤ count + (ss.length + 1) := by omega
        exact congrArg Except.ok (decide_eq_true hle).symm
      · rw [ih hss (not_le.mp hreached)]
        simp only [Option.toList_some, List.singleton_append, List.length_cons]
        congr 2
        apply propext
        omega

theorem isInBurst_perm (hstamped : ∀ e ∈ chain, FiniteStamped rt e) (h : chain.Perm chain')
    (targetId : String) (ts : PyFloat) :
    isInBurst rt cfg targetId ts chain' = isInBurst rt cfg targetId ts chain := by
  have hpos : 0 < cfg.temporalBurstMinUpreps := lt_of_lt_of_le two_pos cfg.burstUpreps_range.1
  unfold isInBurst
  dsimp only
  split_ifs
  · rfl
  · obtain ⟨rs, hrs⟩ := exists_filterMapM fun e (he : e ∈ uprepsTo targetId chain) =>
      exists_inWindow (hstamped e (uprepsTo_subset he))
        (ts.sub (.finite (cfg.temporalBurstWindowSec / 2)))
        (ts.add (.finite (cfg.temporalBurstWindowSec / 2)))
    obtain ⟨ss, hss, hperm⟩ := filterMapM_perm (uprepsTo_perm h targetId) hrs
    rw [burstFrom_eq hrs hpos, burstFrom_eq hss hpos, hperm.length_eq]

/-- What an uprep gives does not depend on the order of arrival. -/
theorem uprepTerm_perm (hstamped : ∀ e ∈ chain, FiniteStamped rt e) (huntied : Untied rt chain)
    (h : chain.Perm chain') (node : String) :
    uprepTerm rt cfg node chain' = uprepTerm rt cfg node chain := by
  have hvcs (upreper target : String) (ts : PyFloat) : computeVcs rt cfg upreper target chain' ts =
      computeVcs rt cfg upreper target chain ts := by
    obtain ⟨vcs, hvcs, hvcs'⟩ := @computeVcs_perm rt cfg _ _ hstamped h upreper target ts
    rw [hvcs, hvcs']
  funext e
  unfold uprepTerm
  simp only [computeOracleRep_perm hstamped huntied h, hvcs,
    computeClusteringCoefficient_perm hstamped h, isInBurst_perm hstamped h]

theorem exists_latestTimestamp (hstamped : ∀ e ∈ chain, FiniteStamped rt e) (hne : chain ≠ []) :
    ∃ now, latestTimestamp rt chain = .ok now := by
  have hstamps : ∃ stamps, chain.mapM (timestamp rt) = .ok stamps ∧
      stamps.length = chain.length := by
    clear hne
    induction chain with
    | nil => exact ⟨[], rfl, rfl⟩
    | cons e chain ih =>
      obtain ⟨ts, hts, -⟩ := (hstamped e List.mem_cons_self).timestamp
      obtain ⟨stamps, hstamps, hlength⟩ := ih fun e' he' => hstamped e' (List.mem_cons_of_mem _ he')
      exact ⟨ts :: stamps, by rw [List.mapM_cons, hts, hstamps]; rfl, congrArg (· + 1) hlength⟩
  obtain ⟨stamps, hstamps, hlength⟩ := hstamps
  unfold latestTimestamp
  rw [hstamps]
  cases stamps with
  | nil => exact absurd (List.length_eq_zero_iff.mp hlength.symm) hne
  | cons ts stamps => exact ⟨_, rfl⟩

theorem computeNodeCorrelationScore_perm (hstamped : ∀ e ∈ chain, FiniteStamped rt e)
    (h : chain.Perm chain') (node : String) :
    (computeNodeCorrelationScore rt cfg node chain').toOption =
      (computeNodeCorrelationScore rt cfg node chain).toOption := by
  have hstamped' : ∀ e ∈ chain', FiniteStamped rt e := fun e he => hstamped e (h.mem_iff.mpr he)
  rcases eq_or_ne chain [] with rfl | hne
  · rw [(perm_eq_nil h).mpr rfl]
  · have hne' : chain' ≠ [] := fun hnil => hne ((perm_eq_nil h).mp hnil)
    obtain ⟨now, hnow⟩ := exists_latestTimestamp hstamped hne
    obtain ⟨now', hnow'⟩ := exists_latestTimestamp hstamped' hne'
    unfold computeNodeCorrelationScore
    rw [if_neg hne, if_neg hne', hnow, hnow']
    have hterms : (uprepsTo node chain).filterMapM (correlationTerm rt cfg node chain now) =
        (uprepsTo node chain).filterMapM (correlationTerm rt cfg node chain' now') := by
      apply filterMapM_congr
      intro e he
      obtain ⟨ts, hts, -⟩ := (hstamped e (uprepsTo_subset he)).timestamp
      refine correlationTerm_congr hts fun upreper => ?_
      obtain ⟨vcs, hvcs, hvcs'⟩ := @computeVcs_perm rt cfg _ _ hstamped h upreper node ts
      rw [hvcs, hvcs']
    change Except.toOption ((uprepsTo node chain').filterMapM _ >>= _) =
      Except.toOption ((uprepsTo node chain).filterMapM _ >>= _)
    rw [hterms]
    refine toOption_filterMapM_bind (uprepsTo_perm h node).symm fun rs ss hperm => ?_
    have hnil : rs = [] ↔ ss = [] := (perm_eq_nil hperm).symm
    simp only [hnil, hperm.sum_eq, hperm.length_eq]

theorem progressivePenaltyMultiplierFor_perm (hstamped : ∀ e ∈ chain, FiniteStamped rt e)
    (h : chain.Perm chain') (node : String) (oracleRep : PyFloat) :
    (progressivePenaltyMultiplierFor rt log2 cfg node chain' oracleRep).toOption =
      (progressivePenaltyMultiplierFor rt log2 cfg node chain oracleRep).toOption := by
  unfold progressivePenaltyMultiplierFor
  split
  · rfl
  · exact toOption_bind_congr (computeNodeCorrelationScore_perm hstamped h node) fun _ => rfl

/-- Common reputation does not depend on the order of arrival. -/
theorem computeCommonRep_perm (hstamped : ∀ e ∈ chain, FiniteStamped rt e)
    (huntied : Untied rt chain) (h : chain.Perm chain') (node : String) :
    (computeCommonRep rt log2 cfg node chain').toOption =
      (computeCommonRep rt log2 cfg node chain).toOption := by
  unfold computeCommonRep
  rw [uprepTerm_perm hstamped huntied h]
  refine toOption_filterMapM_bind (upreps_perm h).symm fun rs ss hperm => ?_
  have hsum : rs.foldl PyFloat.add (.finite 0) = ss.foldl PyFloat.add (.finite 0) :=
    hperm.foldl_eq _
  rw [hsum]
  dsimp only
  split
  · refine toOption_bind_congr ?_ fun oracleRep => ?_
    · rw [computeOracleRep_perm hstamped huntied h]
    · refine toOption_bind_congr ?_ fun _ => rfl
      exact progressivePenaltyMultiplierFor_perm hstamped h node oracleRep
  · rfl

end

/-! ## Epoch root and votes -/

section

variable {env : Env} {rt : Runtime} {chain chain' : List Dict} {start stop : PyFloat}

theorem epochOrder_iff {a b : (PyFloat × Int) × Dict} (ha : a.1.1 ≠ .nan) (hb : b.1.1 ≠ .nan) :
    epochOrder rt a b = true ↔ a.1.1.place < b.1.1.place ∨ a.1.1.place ≤ b.1.1.place ∧
      (a.1.2 < b.1.2 ∨ a.1.2 = b.1.2 ∧ eventIdText rt a.2 ≤ eventIdText rt b.2) := by
  unfold epochOrder
  rw [Bool.or_eq_true, Bool.and_eq_true, Bool.not_eq_true', Bool.or_eq_true, Bool.and_eq_true,
    decide_eq_true_iff, decide_eq_true_iff, decide_eq_true_iff, PyFloat.lt_place ha hb,
    ← Bool.not_eq_true, PyFloat.lt_place hb ha, not_lt]

/-- The order of the epoch refines that of the chain. -/
theorem chainOrder_of_epochOrder {a b : (PyFloat × Int) × Dict} (h : epochOrder rt a b = true) :
    chainOrder a.1 b.1 = true := by
  unfold epochOrder at h
  unfold chainOrder
  rw [Bool.or_eq_true, Bool.and_eq_true, Bool.or_eq_true, Bool.and_eq_true, decide_eq_true_iff,
    decide_eq_true_iff, decide_eq_true_iff] at h
  rw [Bool.or_eq_true, Bool.and_eq_true, decide_eq_true_iff]
  exact h.imp_right fun h => ⟨h.1, h.2.elim le_of_lt fun h => h.1.le⟩

/-- Events that the epoch sorts both ways have one id. -/
theorem eventIdText_of_epochOrder {a b : (PyFloat × Int) × Dict} (ha : a.1.1 ≠ .nan)
    (hb : b.1.1 ≠ .nan) (hab : epochOrder rt a b = true) (hba : epochOrder rt b a = true) :
    eventIdText rt a.2 = eventIdText rt b.2 := by
  rw [epochOrder_iff ha hb] at hab
  rw [epochOrder_iff hb ha] at hba
  rcases hab with hab | ⟨hab, hseq | ⟨heq, hid⟩⟩
  · exact absurd hab (not_lt.mpr (hba.elim le_of_lt And.left))
  · rcases hba with hba | ⟨-, hseq' | ⟨hseq', -⟩⟩
    · exact absurd hba (not_lt.mpr hab)
    · exact absurd hseq' hseq.asymm
    · exact absurd hseq' hseq.ne'
  · rcases hba with hba | ⟨-, hseq' | ⟨-, hid'⟩⟩
    · exact absurd hba (not_lt.mpr hab)
    · exact absurd heq hseq'.ne'
    · exact le_antisymm hid hid'

theorem epochOrder_orderOn : Sort.OrderOn (fun a b => epochOrder rt a b = true)
    fun k => k.1.1 ≠ .nan where
  total a b ha hb := by
    rw [epochOrder_iff ha hb, epochOrder_iff hb ha]
    rcases lt_trichotomy a.1.1.place b.1.1.place with h | h | h
    · exact .inl (.inl h)
    · rcases lt_trichotomy a.1.2 b.1.2 with hseq | hseq | hseq
      · exact .inl (.inr ⟨h.le, .inl hseq⟩)
      · exact (le_total (eventIdText rt a.2) (eventIdText rt b.2)).imp
          (fun hid => .inr ⟨h.le, .inr ⟨hseq, hid⟩⟩) fun hid => .inr ⟨h.ge, .inr ⟨hseq.symm, hid⟩⟩
      · exact .inr (.inr ⟨h.ge, .inl hseq⟩)
    · exact .inr (.inl h)
  trans a b c ha hb hc := by
    rw [epochOrder_iff ha hb, epochOrder_iff hb hc, epochOrder_iff ha hc]
    rintro (hab | ⟨hab, hseq⟩) (hbc | ⟨hbc, hseq'⟩)
    · exact .inl (hab.trans hbc)
    · exact .inl (hab.trans_le hbc)
    · exact .inl (hab.trans_lt hbc)
    · refine .inr ⟨hab.trans hbc, ?_⟩
      rcases hseq with hseq | ⟨hseq, hid⟩ <;> rcases hseq' with hseq' | ⟨hseq', hid'⟩
      · exact .inl (hseq.trans hseq')
      · exact .inl (hseq' ▸ hseq)
      · exact .inl (hseq ▸ hseq')
      · exact .inr ⟨hseq.trans hseq', hid.trans hid'⟩

theorem exists_inEpoch {e : Dict} (h : FiniteStamped rt e) (start stop : PyFloat) :
    ∃ o, inEpoch rt start stop e = .ok o := by
  obtain ⟨ts, hts, -⟩ := h.timestamp
  unfold inEpoch
  rw [hts]
  exact ⟨_, rfl⟩

theorem inEpoch_eq_some {e e' : Dict} (h : inEpoch rt start stop e = .ok (some e')) : e' = e := by
  unfold inEpoch at h
  obtain ⟨o, -, h⟩ := bind_eq_ok.mp h
  cases o with
  | none => cases h
  | some ts =>
    have hsome := pure_eq_ok.mp h
    split_ifs at hsome
    exact (Option.some.inj hsome).symm

/-- Without ties of one id every order of arrival has the same root. -/
theorem canonicalEpochRoot_perm (hstamped : ∀ e ∈ chain, FiniteStamped env.rt e)
    (huntied : UntiedIds env.rt chain) (h : chain.Perm chain') (start stop : PyFloat) :
    canonicalEpochRoot env chain' start stop = canonicalEpochRoot env chain start stop := by
  obtain ⟨window, hwindow⟩ := exists_filterMapM fun e (he : e ∈ chain) =>
    exists_inEpoch (hstamped e he) start stop
  obtain ⟨window', hwindow', hperm⟩ := filterMapM_perm h hwindow
  have hmem : ∀ e ∈ window, e ∈ chain := by
    intro e he
    obtain ⟨e', he', heq⟩ := (mem_filterMapM hwindow).mp he
    exact inEpoch_eq_some heq ▸ he'
  have hstamped' : ∀ e ∈ window, FiniteStamped env.rt e := fun e he => hstamped e (hmem e he)
  have hkeys := mapM_keyOf fun e he => (hstamped' e he).stamped
  have hkeys' := mapM_keyOf fun e he => (hstamped' e (hperm.mem_iff.mpr he)).stamped
  have hanti : ∀ a ∈ window.map (keyOf env.rt), ∀ b ∈ window.map (keyOf env.rt),
      epochOrder env.rt a b = true → epochOrder env.rt b a = true → a = b := by
    intro a ha b hb hab hba
    have hid := eventIdText_of_epochOrder (number_of_keyOf hstamped' a ha)
      (number_of_keyOf hstamped' b hb) hab hba
    obtain ⟨ea, hea, eb, heb, rfl, rfl, htied⟩ := tied_of_keyOf hstamped' ha hb
      (chainOrder_of_epochOrder hab) (chainOrder_of_epochOrder hba)
    rw [huntied ea (hmem ea hea) eb (hmem eb heb) htied hid]
  unfold canonicalEpochRoot
  rw [hwindow, hwindow']
  dsimp only [bind, Except.bind]
  rw [hkeys, hkeys']
  dsimp only
  rw [Sort.insertionSort_eq_of_perm epochOrder_orderOn (number_of_keyOf hstamped') hanti
    (hperm.map _)]

/-- A candidate is read from a vote of its node with its sequence. -/
theorem readCandidate_eq_some {m : String} {e : Dict} {c : Candidate}
    (h : readCandidate env m e = .ok (some c)) :
    nodeId e = some c.nodeId ∧ sequence env.rt e = .ok c.sequence := by
  unfold readCandidate at h
  split_ifs at h with hvote
  · split at h
    · rename_i node hnode
      split_ifs at h with hempty
      · cases h
      · obtain ⟨seq, hseq, h⟩ := bind_eq_ok.mp h
        cases pure_eq_ok.mp h
        exact ⟨by unfold nodeId; rw [hnode]; exact if_neg hempty, hseq⟩
    · cases h
  · cases h

theorem exists_readCandidate {m : String} {e : Dict} (h : Stamped env.rt e) :
    ∃ o, readCandidate env m e = .ok o := by
  obtain ⟨k, hk⟩ := h
  obtain ⟨-, hseq, -⟩ := keyed_eq_ok.mp hk
  unfold readCandidate
  split_ifs
  · split
    · split_ifs
      · exact ⟨_, rfl⟩
      · rw [hseq]
        exact ⟨_, rfl⟩
    · exact ⟨_, rfl⟩
  · exact ⟨_, rfl⟩

/-- Two events of one node with one sequence are the same. -/
theorem Mergeable.eq_of_sequence (h : Mergeable rt chain) {a b : Dict} (ha : a ∈ chain)
    (hb : b ∈ chain) (hsome : nodeId a ≠ none) (hnode : nodeId a = nodeId b)
    (hseq : sequence rt a = sequence rt b) : a = b := by
  by_contra hne
  have hsymm : Std.Symm fun a b : Dict =>
      nodeId a ≠ none → nodeId a = nodeId b → sequence rt a ≠ sequence rt b :=
    ⟨fun a b hab hsome hnode => (hab (hnode ▸ hsome) hnode.symm).symm⟩
  exact h.sequences.forall ha hb hne hsome hnode hseq

theorem Mergeable.candidate (h : Mergeable env.rt chain) {m : String} {cs : List Candidate}
    (hcs : chain.filterMapM (readCandidate env m) = .ok cs) {a b : Candidate} (ha : a ∈ cs)
    (hb : b ∈ cs) (hnode : a.nodeId = b.nodeId) (hseq : a.sequence = b.sequence) : a = b := by
  obtain ⟨ea, hea, hreada⟩ := (mem_filterMapM hcs).mp ha
  obtain ⟨eb, heb, hreadb⟩ := (mem_filterMapM hcs).mp hb
  obtain ⟨hnodea, hseqa⟩ := readCandidate_eq_some hreada
  obtain ⟨hnodeb, hseqb⟩ := readCandidate_eq_some hreadb
  have heq : ea = eb := h.eq_of_sequence hea heb (by simp [hnodea])
    (by rw [hnodea, hnodeb, hnode]) (by rw [hseqa, hseqb, hseq])
  rw [heq, hreadb] at hreada
  exact (Option.some.inj (Except.ok.inj hreada)).symm

/-- A sort by a text and then by something else. -/
theorem lex_orderOn {α β : Type} [LinearOrder β] (f : α → String) (g : α → β) :
    Sort.OrderOn (fun a b => f a < f b ∨ (f a = f b ∧ g a ≤ g b)) fun _ => True where
  total a b _ _ := by
    rcases lt_trichotomy (f a) (f b) with h | h | h
    · exact .inl (.inl h)
    · exact (le_total (g a) (g b)).imp (fun hg => .inr ⟨h, hg⟩) fun hg => .inr ⟨h.symm, hg⟩
    · exact .inr (.inl h)
  trans a b c _ _ _ := by
    rintro (hab | ⟨hab, hg⟩) (hbc | ⟨hbc, hg'⟩)
    · exact .inl (hab.trans hbc)
    · exact .inl (hbc ▸ hab)
    · exact .inl (hab ▸ hbc)
    · exact .inr ⟨hab.trans hbc, hg.trans hg'⟩

theorem lex_antisymm {α β : Type} [LinearOrder β] {f : α → String} {g : α → β} {a b : α}
    (hab : f a < f b ∨ (f a = f b ∧ g a ≤ g b)) (hba : f b < f a ∨ (f b = f a ∧ g b ≤ g a)) :
    f a = f b ∧ g a = g b := by
  rcases hab with hab | ⟨hab, hg⟩ <;> rcases hba with hba | ⟨hba, hg'⟩
  · exact absurd hba hab.asymm
  · exact absurd hba hab.ne'
  · exact absurd hab hba.ne'
  · exact ⟨hab, hg.antisymm hg'⟩

theorem canonicalVote_perm {cs cs' : List Candidate} (hperm : cs.Perm cs') {nodeId : String}
    (hsame : ∀ a ∈ cs, ∀ b ∈ cs, a.nodeId = b.nodeId → a.sequence = b.sequence → a = b) :
    canonicalVote cs' nodeId = canonicalVote cs nodeId := by
  unfold canonicalVote
  rw [Sort.insertionSort_eq_of_perm (lex_orderOn Candidate.hash Candidate.sequence)
    (fun _ _ => trivial) ?_ (hperm.filter _)]
  intro a ha b hb hab hba
  obtain ⟨ha, hnodea⟩ := List.mem_filter.mp ha
  obtain ⟨hb, hnodeb⟩ := List.mem_filter.mp hb
  have hnode : a.nodeId = b.nodeId :=
    (of_decide_eq_true hnodea).trans (of_decide_eq_true hnodeb).symm
  exact hsame a ha b hb hnode (lex_antisymm hab hba).2

theorem canonicalVote_nodeId {cs : List Candidate} {nodeId : String} {c : Candidate}
    (h : canonicalVote cs nodeId = some c) : c.nodeId = nodeId := by
  have hmem := (List.mem_insertionSort _).mp (List.mem_of_mem_head? h)
  exact of_decide_eq_true (List.mem_filter.mp hmem).2

/-- The votes that count do not depend on the order of arrival. -/
theorem deduplicateVotes_perm (hmergeable : Mergeable env.rt chain) (h : chain.Perm chain')
    (m : String) : deduplicateVotes env m chain' = deduplicateVotes env m chain := by
  obtain ⟨cs, hcs⟩ := exists_filterMapM fun e (he : e ∈ chain) =>
    @exists_readCandidate env m e (hmergeable.stamped e he).stamped
  obtain ⟨cs', hcs', hperm⟩ := filterMapM_perm h hcs
  have hvote : canonicalVote cs' = canonicalVote cs := funext fun nodeId =>
    canonicalVote_perm hperm fun a ha b hb => hmergeable.candidate hcs ha hb
  have hnodes : (cs.map Candidate.nodeId).eraseDups.Perm (cs'.map Candidate.nodeId).eraseDups := by
    rw [List.perm_ext_iff_of_nodup (Sort.nodup_eraseDups _) (Sort.nodup_eraseDups _)]
    intro n
    rw [List.mem_eraseDups, List.mem_eraseDups, (hperm.map _).mem_iff]
  unfold deduplicateVotes
  rw [hcs, hcs']
  change Except.ok _ = Except.ok _
  rw [hvote, Sort.insertionSort_eq_of_perm (lex_orderOn Candidate.nodeId Candidate.hash)
    (fun _ _ => trivial) ?_ (hnodes.filterMap _)]
  intro a ha b hb hab hba
  obtain ⟨na, -, hva⟩ := List.mem_filterMap.mp ha
  obtain ⟨nb, -, hvb⟩ := List.mem_filterMap.mp hb
  have hnode : na = nb := by
    rw [← canonicalVote_nodeId hva, ← canonicalVote_nodeId hvb, (lex_antisymm hab hba).1]
  rw [hnode, hvb] at hva
  exact (Option.some.inj hva).symm

/-! ## Annotations -/

theorem get_annotated {e : Dict} {k : String} (v dflt : PyVal) (hk : k ≠ "meta") :
    Dict.get (Dict.set e "meta" v) k dflt = Dict.get e k dflt := by
  unfold Dict.get
  rw [Dict.lookup_set_of_ne v hk]

theorem filterMapM_replace {β : Type} {f : Dict → Except String (Option β)} {a b : Dict}
    (h : f a = f b) (pre post : List Dict) :
    (pre ++ a :: post).filterMapM f = (pre ++ b :: post).filterMapM f := by
  induction pre with
  | nil => rw [List.nil_append, List.nil_append, List.filterMapM_cons, List.filterMapM_cons, h]
  | cons c pre ih =>
    rw [List.cons_append, List.cons_append, List.filterMapM_cons, List.filterMapM_cons, ih]

theorem annotateEvent_eq_some {index : String → Option Nat} {eventId : String} {metadata : Dict}
    (h : annotateEvent index eventId metadata chain = some chain') {e : Dict}
    (he : (index eventId).bind (chain[·]?) = some e) :
    ∃ pre post, chain = pre ++ e :: post ∧
      chain' = pre ++ Dict.set e "meta" (.dict metadata) :: post := by
  unfold annotateEvent at h
  cases hindex : index eventId with
  | none =>
    rw [hindex] at h
    cases h
  | some idx =>
    rw [hindex] at h he
    dsimp only at h
    split_ifs at h with hlt
    obtain ⟨hlt', hget⟩ := List.getElem?_eq_some_iff.mp he
    refine ⟨chain.take idx, chain.drop (idx + 1), ?_, ?_⟩
    · rw [← hget, ← List.drop_eq_getElem_cons hlt', List.take_append_drop]
    · rw [← Option.some.inj h, List.modify_eq_take_cons_drop hlt', hget]

theorem canonicalEpochRoot_annotate {e : Dict} (hout : inEpoch env.rt start stop e = .ok none)
    (pre post : List Dict) (v : PyVal) :
    canonicalEpochRoot env (pre ++ Dict.set e "meta" v :: post) start stop =
      canonicalEpochRoot env (pre ++ e :: post) start stop := by
  have hstamp : timestamp env.rt (Dict.set e "meta" v) = timestamp env.rt e := by
    unfold timestamp
    rw [get_annotated v _ (by decide)]
  have hsame : inEpoch env.rt start stop (Dict.set e "meta" v) = inEpoch env.rt start stop e := by
    rw [hout]
    unfold inEpoch at hout ⊢
    rw [hstamp]
    obtain ⟨o, ho, hout⟩ := bind_eq_ok.mp hout
    rw [ho]
    cases o with
    | none => rfl
    | some ts =>
      have hnone := pure_eq_ok.mp hout
      split_ifs at hnone with hin
      change (pure (if _ then _ else _) : Except String _) = _
      rw [if_neg hin]
      rfl
  unfold canonicalEpochRoot
  rw [filterMapM_replace hsame]

theorem deduplicateVotes_annotate {m : String} {e : Dict} (hvote : readCandidate env m e = .ok none)
    (pre post : List Dict) (v : PyVal) :
    deduplicateVotes env m (pre ++ Dict.set e "meta" v :: post) =
      deduplicateVotes env m (pre ++ e :: post) := by
  have hsame : readCandidate env m (Dict.set e "meta" v) = readCandidate env m e := by
    rw [hvote]
    unfold readCandidate hasType forMarket payload sequence at hvote ⊢
    simp only [get_annotated v _ (by decide : "event_type" ≠ "meta"),
      get_annotated v _ (by decide : "payload" ≠ "meta"),
      get_annotated v _ (by decide : "sequence" ≠ "meta"),
      get_annotated v _ (by decide : "node_id" ≠ "meta")]
    split_ifs at hvote ⊢ with hguard
    · cases hnode : Dict.get e "node_id" with
      | str node =>
        rw [hnode] at hvote
        dsimp only at hvote ⊢
        split_ifs at hvote ⊢ with hempty
        · rfl
        · obtain ⟨seq, -, hsome⟩ := bind_eq_ok.mp hvote
          cases pure_eq_ok.mp hsome
      | _ => rfl
    · rfl
  unfold deduplicateVotes
  rw [filterMapM_replace hsame]

/-! ## Views -/

/-- What nodes compute from two chains is the same; a common reputation may fail on both. -/
structure SameViews (env : Env) (log2 : PyFloat → PyFloat) (cfg : CommonRepConfig)
    (chain chain' : List PyVal) : Prop where
  commonRep : ∀ node, (computeCommonRep env.rt log2 cfg node (dicts chain')).toOption =
    (computeCommonRep env.rt log2 cfg node (dicts chain)).toOption
  oracleRep : ∀ node, computeOracleRep env.rt cfg.toRepConfig node (dicts chain') =
    computeOracleRep env.rt cfg.toRepConfig node (dicts chain)
  memberSet : ∀ g, computeMemberSet env.rt g chain' = computeMemberSet env.rt g chain
  votes : ∀ m, deduplicateVotes env m (dicts chain') = deduplicateVotes env m (dicts chain)
  epochRoot : ∀ start stop, canonicalEpochRoot env (dicts chain') start stop =
    canonicalEpochRoot env (dicts chain) start stop

/-- The member set depends on the order of the events of its gate. -/
theorem computeMemberSet_perm {chain chain' : List PyVal} {g : String}
    (hstamped : ∀ e ∈ dicts chain, FiniteStamped rt e) (huntied : Untied rt (gateEvents g chain))
    (h : chain.Perm chain') : computeMemberSet rt g chain' = computeMemberSet rt g chain := by
  have hstamped' : ∀ e ∈ gateEvents g chain, FiniteStamped rt e := fun e he =>
    hstamped e (List.mem_filter.mp he).1
  have hperm : (gateEvents g chain).Perm (gateEvents g chain') := (h.filterMap _).filter _
  unfold computeMemberSet eventsForGate
  rw [sortEvents_eq_of_perm hstamped' huntied hperm]

end

/-- A market that bob wins by the finalize of ana, and loses by that of eve. -/
def finalizedTwice (sequence : Int) : List PyVal :=
  finalizedMarket [placeEvent "bob" 2 "yes" 50 (.int 40), placeEvent "ana" 3 "no" 50 (.int 10)] ++
    [chainEvent "resolution_finalize" "eve" sequence [("market_id", .str "m1"),
      ("outcome", .str "no"), ("is_provisional", .bool false)]]

theorem mergeable_finalizedTwice (sequence : Int) (h : sequence = 20 ∨ sequence = 21) :
    Mergeable asciiRuntime (dicts (finalizedTwice sequence)) := by
  rcases h with rfl | rfl
  · exact ⟨by decide +kernel, by decide +kernel⟩
  · exact ⟨by decide +kernel, by decide +kernel⟩

end Vincent.Economy
