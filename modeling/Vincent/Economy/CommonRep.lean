-- SUMMARY: Common reputation: upreps with their anti-gaming multipliers.
import Vincent.Economy.Finality
import Vincent.Economy.Gates
import Mathlib.Data.Finset.Prod

/-!
# Common reputation

A node earns common reputation by the upreps of others: each gives a part of what
the upreper has earned by its predictions, less the more the votes look like those
of a ring. What an event of another type adds to a chain is not seen.
-/

namespace Vincent.Economy

open Vincent.Python Vincent.Check

/-- The values of `CONFIG` that common reputation reads, with the ranges of `CONFIG_SCHEMA`. -/
structure CommonRepConfig extends RepConfig where
  commonRepWeightFactor : ℚ := 1 / 10
  vcsMinWeight : ℚ := 1 / 10
  clusteringMinWeight : ℚ := 1 / 5
  temporalBurstWindowSec : Nat := 300
  temporalBurstMinUpreps : Nat := 5
  voteDecayDays : Nat := 90
  progressivePenaltyThreshold : ℚ := 0
  weightFactor_range : 0 ≤ commonRepWeightFactor ∧ commonRepWeightFactor ≤ 1 := by
    first | exact CommonRepConfig.std.weightFactor_range | decide +kernel
  vcsMin_range : 0 ≤ vcsMinWeight ∧ vcsMinWeight ≤ 1 := by
    first | exact CommonRepConfig.std.vcsMin_range | decide +kernel
  clusteringMin_range : 0 ≤ clusteringMinWeight ∧ clusteringMinWeight ≤ 1 := by
    first | exact CommonRepConfig.std.clusteringMin_range | decide +kernel
  burstWindow_range :
    30 ≤ temporalBurstWindowSec ∧ temporalBurstWindowSec ≤ 3600 := by
    first | exact CommonRepConfig.std.burstWindow_range | decide
  burstUpreps_range : 2 ≤ temporalBurstMinUpreps ∧ temporalBurstMinUpreps ≤ 100 := by
    first | exact CommonRepConfig.std.burstUpreps_range | decide
  voteDecay_range : 7 ≤ voteDecayDays ∧ voteDecayDays ≤ 365 := by
    first | exact CommonRepConfig.std.voteDecay_range | decide
  penaltyThreshold_range :
    0 ≤ progressivePenaltyThreshold ∧ progressivePenaltyThreshold ≤ 1 := by
    first | exact CommonRepConfig.std.penaltyThreshold_range | decide +kernel

def CommonRepConfig.std : CommonRepConfig where
  weightFactor_range := by decide +kernel
  vcsMin_range := by decide +kernel
  clusteringMin_range := by decide +kernel
  burstWindow_range := by decide
  burstUpreps_range := Config.std.participants_range
  voteDecay_range := RepConfig.std.decayDays_range
  penaltyThreshold_range := by decide +kernel

section Model

variable (rt : Runtime) (log2 : PyFloat → PyFloat) (cfg : CommonRepConfig)

/-! ## Upreps -/

def upreps (events : List Dict) : List Dict := events.filter (hasType "uprep")

/-- The author and the target of an uprep of another node. -/
def edge (event : Dict) : Option (String × String) :=
  match Dict.get event "node_id", Dict.get (payload event) "target_node_id" with
  | .str author, .str target => if author = target then none else some (author, target)
  | _, _ => none

/-- The timestamp of an uprep, where it is a number. -/
def uprepStamp (event : Dict) : Except String (Option PyFloat) :=
  catching ["TypeError", "ValueError"] (some <$> timestamp rt event) none

/-- The uprep, if it is in the interval. -/
def inWindow (low high : PyFloat) (event : Dict) : Except String (Option Dict) := do
  match ← uprepStamp rt event with
  | some ts => return if low.le ts && ts.le high then some event else none
  | none => return none

def uprepsWithinWindow (events : List Dict) (now : PyFloat) : Except String (List Dict) :=
  (upreps events).filterMapM
    (inWindow rt (now.sub (.finite (cfg.voteDecayDays * 86400))) now)

/-- The pairs of an upreper and its target in the window. -/
def windowEdges (events : List Dict) (now : PyFloat) :
    Except String (Finset (String × String)) := do
  return ((← uprepsWithinWindow rt cfg events now).filterMap edge).toFinset

/-! ## Multipliers -/

/-- The vote correlation over the edges in the window. -/
def correlationOf (upreperId targetId : String) (edges : Finset (String × String)) : ℚ :=
  let aTargets := (edges.filter fun e => e.1 = upreperId).image Prod.snd
  let bFans := (edges.filter fun e => e.2 = targetId ∧ e.1 ≠ upreperId).image Prod.fst
  if bFans = ∅ then 1
  else max cfg.vcsMinWeight (1 - ((aTargets ∩ bFans).card : ℚ) / bFans.card)

def computeVcs (upreperId targetId : String) (events : List Dict) (now : PyFloat) :
    Except String ℚ :=
  if upreperId = "" ∨ targetId = "" then .ok cfg.vcsMinWeight
  else if upreperId = targetId ∨ events = [] then .ok 1
  else correlationOf cfg upreperId targetId <$> windowEdges rt cfg events now

/-- The clustering of the voters over the edges in the window. -/
def clusteringOf (targetId : String) (edges : Finset (String × String)) : ℚ :=
  let voters := (edges.filter fun e => e.2 = targetId).image Prod.fst
  let linked := (voters ×ˢ voters).filter fun p => p.1 < p.2 ∧ (p ∈ edges ∨ p.swap ∈ edges)
  if voters.card < 2 then 0 else linked.card / (voters.card * (voters.card - 1) / 2)

def computeClusteringCoefficient (targetId : String) (events : List Dict) (now : PyFloat) :
    Except String ℚ :=
  if targetId = "" ∨ events = [] then .ok 0
  else clusteringOf targetId <$> windowEdges rt cfg events now

def clusteringPenalty (coefficient : ℚ) : ℚ := max cfg.clusteringMinWeight (1 - coefficient)

/-- The loop of `is_in_burst`. -/
def burstFrom (low high : PyFloat) : Nat → List Dict → Except String Bool
  | _, [] => .ok false
  | count, event :: events => do
    match ← inWindow rt low high event with
    | none => burstFrom low high count events
    | some _ =>
      if cfg.temporalBurstMinUpreps ≤ count + 1 then return true
      else burstFrom low high (count + 1) events

/-- The upreps of a target, by the id that the payload has. -/
def uprepsTo (targetId : String) (events : List Dict) : List Dict :=
  (upreps events).filter fun event => (Dict.get (payload event) "target_node_id").eq (.str targetId)

def isInBurst (targetId : String) (ts : PyFloat) (events : List Dict) : Except String Bool :=
  let half : PyFloat := .finite (cfg.temporalBurstWindowSec / 2)
  if targetId = "" then .ok false
  else burstFrom rt cfg (ts.sub half) (ts.add half) 0 (uprepsTo targetId events)

def temporalMultiplier (inBurst : Bool) : ℚ := if inBurst then 1 / 5 else 1

/-! ## Progressive penalty -/

/-- `max(float(ev.get("timestamp") or 0.0) for ev in events)`. -/
def latestTimestamp (events : List Dict) : Except String PyFloat := do
  match ← events.mapM (timestamp rt) with
  | [] => .error "ValueError"
  | ts :: stamps => return stamps.foldl PyFloat.max ts

/-- The correlation evidence of one uprep of the node. -/
def correlationTerm (node : String) (events : List Dict) (now : PyFloat) (event : Dict) :
    Except String (Option ℚ) :=
  match nodeId event with
  | none => .ok none
  | some upreper =>
    if upreper = node then .ok none
    else do
      let ts ← catching ["TypeError", "ValueError"] (timestamp rt event) now
      let vcs ← computeVcs rt cfg upreper node events ts
      return some (max 0 (min 1 (1 - vcs)))

def computeNodeCorrelationScore (node : String) (events : List Dict) : Except String ℚ :=
  if events = [] then .ok 0
  else do
    let now ← latestTimestamp rt events
    let correlations ← (uprepsTo node events).filterMapM (correlationTerm rt cfg node events now)
    return if correlations = [] then 0 else correlations.sum / correlations.length

def applyProgressivePenalty (basePenalty : ℚ) (oracleRep : PyFloat) : PyFloat :=
  (PyFloat.finite basePenalty).mul
    ((PyFloat.finite 1).add (log2 ((PyFloat.finite 1).max oracleRep)))

def progressivePenaltyMultiplierFor (node : String) (events : List Dict) (oracleRep : PyFloat) :
    Except String PyFloat :=
  if cfg.progressivePenaltyThreshold ≤ 0 then .ok (.finite 1)
  else do
    let score ← computeNodeCorrelationScore rt cfg node events
    if score ≤ cfg.progressivePenaltyThreshold then return .finite 1
    else
      let docked := applyProgressivePenalty log2 (score - cfg.progressivePenaltyThreshold) oracleRep
      return (PyFloat.finite 0).max ((PyFloat.finite 1).sub docked)

/-! ## Common reputation -/

/-- `ev.get("payload") or {}`. -/
def uprepPayload (event : Dict) : Except String Dict :=
  match (Dict.get event "payload").or (.dict []) with
  | .dict p => .ok p
  | _ => .error "AttributeError"

/-- What one uprep gives to the node. -/
def uprepTerm (node : String) (events : List Dict) (event : Dict) :
    Except String (Option PyFloat) := do
  let p ← uprepPayload event
  if !(Dict.get p "target_node_id").eq (.str node) then return none
  else match nodeId event with
  | none => return none
  | some upreper =>
    if upreper = node then return none
    else
      let oracleRep ← computeOracleRep rt cfg.toRepConfig upreper events
      let ts ← catching ["TypeError", "ValueError"] (timestamp rt event) (.finite 0)
      let vcs ← computeVcs rt cfg upreper node events ts
      let coefficient ← computeClusteringCoefficient rt cfg node events ts
      let inBurst ← isInBurst rt cfg node ts events
      return some ((((oracleRep.mul (.finite cfg.commonRepWeightFactor)).mul (.finite vcs)).mul
        (.finite (clusteringPenalty cfg coefficient))).mul (.finite (temporalMultiplier inBurst)))

/-- `compute_common_rep` with its defaults. -/
def computeCommonRep (node : String) (events : List Dict) : Except String PyFloat := do
  let terms ← (upreps events).filterMapM (uprepTerm rt cfg node events)
  let rep := terms.foldl PyFloat.add (.finite 0)
  if (PyFloat.finite 0).lt rep then
    let oracleRep ← computeOracleRep rt cfg.toRepConfig node events
    return rep.mul (← progressivePenaltyMultiplierFor rt log2 cfg node events oracleRep)
  else return rep

end Model

/-! ## Events that are not seen -/

section

variable {rt : Runtime} {log2 : PyFloat → PyFloat} {cfg : CommonRepConfig} {events : List Dict}
  {e : Dict} {node : String}

/-- The event is no uprep, and is about no market and no dispute. -/
structure Unseen (e : Dict) : Prop where
  uprep : hasType "uprep" e = false
  place : hasType "prediction_place" e = false
  market : marketKey e = none
  undisputed : Undisputed e

theorem Unseen.indexMarkets (h : Unseen e) (pre post : List Dict) :
    indexMarkets rt (pre ++ e :: post) = indexMarkets rt (pre ++ post) := by
  apply indexMarkets_insert
  · unfold readBootstrapIndex
    rw [h.market]
  · unfold marketViews
    rw [OrderedMap.fold_append, OrderedMap.fold_append]
    unfold OrderedMap.fold
    rw [List.foldl_cons, h.market]

theorem Unseen.breakdown (h : Unseen e) {cfg : RepConfig} (pre post : List Dict) :
    breakdownOf rt cfg node (pre ++ e :: post) = breakdownOf rt cfg node (pre ++ post) :=
  breakdownOf_insert (h.indexMarkets pre post) h.undisputed h.place

theorem Unseen.computeOracleRep (h : Unseen e) (hstamped : Stamped rt e) {cfg : RepConfig}
    (hnumber : ∀ a ∈ e :: events, NumberStamped rt a) (node : String) :
    computeOracleRep rt cfg node (events ++ [e]) = computeOracleRep rt cfg node events := by
  unfold Economy.computeOracleRep computeOracleRepBreakdown
  cases hsort : sortEvents rt events with
  | error exn => rw [sortEvents_append_error hsort]
  | ok sorted =>
    obtain ⟨pre, post, rfl, hsort', -, -⟩ := sortEvents_concat hsort hstamped hnumber
    rw [hsort']
    change (breakdownOf rt cfg node (pre ++ e :: post) >>= _) =
      (breakdownOf rt cfg node (pre ++ post) >>= _)
    rw [h.breakdown]

theorem Unseen.upreps (h : Unseen e) : upreps (events ++ [e]) = upreps events := by
  simp [Economy.upreps, h.uprep]

theorem Unseen.uprepsTo (h : Unseen e) (targetId : String) :
    uprepsTo targetId (events ++ [e]) = uprepsTo targetId events := by
  unfold Economy.uprepsTo
  rw [h.upreps]

theorem Unseen.windowEdges (h : Unseen e) (now : PyFloat) :
    windowEdges rt cfg (events ++ [e]) now = windowEdges rt cfg events now := by
  unfold Economy.windowEdges uprepsWithinWindow
  rw [h.upreps]

theorem windowEdges_nil (now : PyFloat) : windowEdges rt cfg [] now = .ok ∅ := rfl

theorem correlationOf_empty (upreperId targetId : String) :
    correlationOf cfg upreperId targetId ∅ = 1 := by
  simp [correlationOf]

theorem clusteringOf_empty (targetId : String) : clusteringOf targetId ∅ = 0 := by
  simp [clusteringOf]

theorem Unseen.computeVcs (h : Unseen e) (upreperId targetId : String) (now : PyFloat) :
    computeVcs rt cfg upreperId targetId (events ++ [e]) now =
      computeVcs rt cfg upreperId targetId events now := by
  have hvcs : ∀ events, Economy.computeVcs rt cfg upreperId targetId events now =
      if upreperId = "" ∨ targetId = "" then .ok cfg.vcsMinWeight
      else if upreperId = targetId then .ok 1
      else correlationOf cfg upreperId targetId <$> Economy.windowEdges rt cfg events now := by
    intro events
    unfold Economy.computeVcs
    cases events with
    | nil =>
      split_ifs with hempty hnil hsame
      · rfl
      · rfl
      · rw [windowEdges_nil]
        exact congrArg Except.ok (correlationOf_empty upreperId targetId).symm
      · exact absurd (.inr rfl) hnil
      · exact absurd (.inr rfl) hnil
    | cons a events => simp
  rw [hvcs, hvcs, h.windowEdges]

theorem Unseen.computeClusteringCoefficient (h : Unseen e) (targetId : String) (now : PyFloat) :
    computeClusteringCoefficient rt cfg targetId (events ++ [e]) now =
      computeClusteringCoefficient rt cfg targetId events now := by
  have hclustering : ∀ events, Economy.computeClusteringCoefficient rt cfg targetId events now =
      if targetId = "" then .ok 0
      else clusteringOf targetId <$> Economy.windowEdges rt cfg events now := by
    intro events
    unfold Economy.computeClusteringCoefficient
    cases events with
    | nil =>
      rw [if_pos (.inr rfl), windowEdges_nil]
      split
      · rfl
      · exact congrArg Except.ok (clusteringOf_empty targetId).symm
    | cons a events => simp
  rw [hclustering, hclustering, h.windowEdges]

theorem Unseen.isInBurst (h : Unseen e) (targetId : String) (ts : PyFloat) :
    isInBurst rt cfg targetId ts (events ++ [e]) = isInBurst rt cfg targetId ts events := by
  unfold Economy.isInBurst
  rw [h.uprepsTo]

theorem uprepsTo_subset {targetId : String} {a : Dict} (h : a ∈ uprepsTo targetId events) :
    a ∈ events := (List.mem_filter.mp (List.mem_filter.mp h).1).1

/-- The latest timestamp stands in for one that cannot be read. -/
theorem correlationTerm_congr {events' : List Dict} {a : Dict} {ts now now' : PyFloat}
    (hts : timestamp rt a = .ok ts)
    (hvcs : ∀ upreper, computeVcs rt cfg upreper node events ts =
      computeVcs rt cfg upreper node events' ts) :
    correlationTerm rt cfg node events now a = correlationTerm rt cfg node events' now' a := by
  unfold correlationTerm
  rw [hts]
  cases nodeId a with
  | none => rfl
  | some upreper =>
    dsimp only
    split
    · rfl
    · change (computeVcs rt cfg upreper node events ts >>= _) =
        (computeVcs rt cfg upreper node events' ts >>= _)
      rw [hvcs]

theorem Unseen.computeNodeCorrelationScore (h : Unseen e) (hstamped : Stamped rt e)
    (node : String) : computeNodeCorrelationScore rt cfg node (events ++ [e]) =
      computeNodeCorrelationScore rt cfg node events := by
  obtain ⟨k, hk⟩ := hstamped
  have hts := (keyed_eq_ok.mp hk).1
  unfold Economy.computeNodeCorrelationScore
  rw [if_neg (List.append_ne_nil_of_right_ne_nil _ (List.cons_ne_nil e []))]
  cases hstamps : events.mapM (timestamp rt) with
  | error exn =>
    have hne : events ≠ [] := by
      rintro rfl
      cases hstamps
    rw [if_neg hne]
    unfold latestTimestamp
    rw [List.mapM_append, hstamps]
    rfl
  | ok stamps =>
    have hnow : ∃ now, latestTimestamp rt (events ++ [e]) = .ok now := by
      unfold latestTimestamp
      rw [List.mapM_append, hstamps, List.mapM_cons, hts]
      cases stamps with
      | nil => exact ⟨_, rfl⟩
      | cons ts stamps => exact ⟨_, rfl⟩
    obtain ⟨now, hnow⟩ := hnow
    rw [hnow, h.uprepsTo]
    rcases eq_or_ne events [] with rfl | hne
    · rfl
    · rw [if_neg hne]
      have hnow' : ∃ now', latestTimestamp rt events = .ok now' := by
        unfold latestTimestamp
        rw [hstamps]
        cases stamps with
        | nil =>
          obtain ⟨a, ha⟩ := List.exists_mem_of_ne_nil events hne
          cases events with
          | nil => exact absurd rfl hne
          | cons a events =>
            rw [List.mapM_cons] at hstamps
            obtain ⟨y, -, hstamps⟩ := bind_eq_ok.mp hstamps
            obtain ⟨ys, -, hstamps⟩ := bind_eq_ok.mp hstamps
            cases hstamps
        | cons ts stamps => exact ⟨_, rfl⟩
      obtain ⟨now', hnow'⟩ := hnow'
      rw [hnow']
      have hterms : (Economy.uprepsTo node events).filterMapM
          (correlationTerm rt cfg node (events ++ [e]) now) =
          (Economy.uprepsTo node events).filterMapM (correlationTerm rt cfg node events now') := by
        apply filterMapM_congr
        intro a ha
        obtain ⟨ts, hts⟩ := ok_of_mapM hstamps a (uprepsTo_subset ha)
        exact correlationTerm_congr hts fun upreper => h.computeVcs upreper node ts
      dsimp only [bind, Except.bind]
      rw [hterms]

theorem Unseen.computeCommonRep (h : Unseen e) (hstamped : Stamped rt e)
    (hnumber : ∀ a ∈ e :: events, NumberStamped rt a) (node : String) :
    computeCommonRep rt log2 cfg node (events ++ [e]) =
      computeCommonRep rt log2 cfg node events := by
  have horacle (node : String) : Economy.computeOracleRep rt cfg.toRepConfig node (events ++ [e]) =
      Economy.computeOracleRep rt cfg.toRepConfig node events :=
    h.computeOracleRep hstamped hnumber node
  have hterm : uprepTerm rt cfg node (events ++ [e]) = uprepTerm rt cfg node events := by
    funext a
    unfold uprepTerm
    simp only [horacle, h.computeVcs, h.computeClusteringCoefficient, h.isInBurst]
  have hpenalty : progressivePenaltyMultiplierFor rt log2 cfg node (events ++ [e]) =
      progressivePenaltyMultiplierFor rt log2 cfg node events := by
    funext oracleRep
    unfold progressivePenaltyMultiplierFor
    rw [h.computeNodeCorrelationScore hstamped]
  unfold Economy.computeCommonRep
  rw [h.upreps, hterm, horacle, hpenalty]

end

end Vincent.Economy
