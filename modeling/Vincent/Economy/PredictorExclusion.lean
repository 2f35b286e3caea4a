-- SUMMARY: What the stakes and votes of an excluded node can do to a resolution.
import Vincent.Economy.Merge
import Vincent.Economy.LateSignatures

/-!
# Predictor exclusion

The frozen predictors of a market and everybody they rotated into are excluded from
its resolution. Their votes on a bootstrap market are dropped only after they were
read, so one that cannot be read stops the resolution.
-/

namespace Vincent.Economy

open Vincent.Python Vincent.Check

/-! ## Descendants -/

section Descendants

variable {edges : List (String × String)} {u v : String}

theorem mem_forward : v ∈ forward edges u ↔ (u, v) ∈ edges := by
  unfold forward
  rw [List.mem_dedup, List.mem_map]
  constructor
  · rintro ⟨⟨a, b⟩, hmem, rfl⟩
    obtain ⟨hedge, heq⟩ := List.mem_filter.mp hmem
    obtain rfl := of_decide_eq_true heq
    exact hedge
  · intro h
    exact ⟨(u, v), List.mem_filter.mpr ⟨h, decide_eq_true rfl⟩, rfl⟩

/-- The edges out of the nodes that were not visited. -/
def unvisited (edges : List (String × String)) (out : List String) : Nat :=
  edges.countP fun edge => edge.1 ∉ out

/-- A visit adds no more to the stack than it takes from the edges that are left. -/
theorem visit_measure {out : List String} {cur : String} (hcur : cur ∉ out) :
    ((forward edges cur).filter fun nxt => nxt ∉ cur :: out).length + unvisited edges (cur :: out) ≤
      unvisited edges out := by
  have hforward : ((forward edges cur).filter fun nxt => nxt ∉ cur :: out).length ≤
      edges.countP fun edge => edge.1 = cur := by
    calc ((forward edges cur).filter fun nxt => nxt ∉ cur :: out).length
        ≤ (forward edges cur).length := List.length_filter_le _ _
      _ ≤ ((edges.filter fun edge => edge.1 = cur).map Prod.snd).length :=
          (List.dedup_sublist _).length_le
      _ = edges.countP fun edge => edge.1 = cur := by
          rw [List.length_map, List.countP_eq_length_filter]
  have hsplit : (edges.countP fun edge => edge.1 = cur) + unvisited edges (cur :: out) =
      unvisited edges out := by
    unfold unvisited
    clear hforward
    induction edges with
    | nil => rfl
    | cons edge edges ih =>
      simp only [List.countP_cons, List.mem_cons, not_or] at ih ⊢
      rcases eq_or_ne edge.1 cur with heq | hne
      · simp only [heq, hcur, not_true_eq_false, not_false_eq_true, false_and, decide_true, decide_false,
          if_true, Bool.false_eq_true, if_false] at ih ⊢
        omega
      · simp only [hne, not_false_eq_true, true_and, decide_false, Bool.false_eq_true, if_false] at ih ⊢
        omega
  omega

/-- With enough fuel the loop ends with all that it reaches. -/
theorem descendantsLoop_spec (fuel : Nat) (out stack : List String)
    (hfuel : stack.length + unvisited edges out ≤ fuel)
    (hclosed : ∀ a ∈ out, ∀ b, (a, b) ∈ edges → b ∈ out ∨ b ∈ stack) :
    (∀ a ∈ out, a ∈ descendantsLoop edges fuel out stack) ∧
    (∀ a ∈ stack, a ∈ descendantsLoop edges fuel out stack) ∧
    ∀ a ∈ descendantsLoop edges fuel out stack, ∀ b, (a, b) ∈ edges →
      b ∈ descendantsLoop edges fuel out stack := by
  induction fuel generalizing out stack with
  | zero =>
    have hstack : stack = [] := List.length_eq_zero_iff.mp (by omega)
    subst hstack
    unfold descendantsLoop
    refine ⟨fun a ha => ha, fun a ha => absurd ha List.not_mem_nil, fun a ha b hb => ?_⟩
    exact (hclosed a ha b hb).resolve_right List.not_mem_nil
  | succ fuel ih =>
    cases stack with
    | nil =>
      unfold descendantsLoop
      refine ⟨fun a ha => ha, fun a ha => absurd ha List.not_mem_nil, fun a ha b hb => ?_⟩
      exact (hclosed a ha b hb).resolve_right List.not_mem_nil
    | cons cur stack =>
      rw [List.length_cons] at hfuel
      unfold descendantsLoop
      split
      · rename_i hcur
        obtain ⟨hout, hstack, hedges⟩ := ih out stack (by omega) fun a ha b hb => by
          rcases hclosed a ha b hb with h | h
          · exact Or.inl h
          · rcases List.mem_cons.mp h with rfl | h
            · exact Or.inl hcur
            · exact Or.inr h
        refine ⟨hout, fun a ha => ?_, hedges⟩
        rcases List.mem_cons.mp ha with rfl | ha
        · exact hout a hcur
        · exact hstack a ha
      · rename_i hcur
        have hmeasure := @visit_measure edges out cur hcur
        obtain ⟨hout, hstack, hedges⟩ := ih (cur :: out)
          ((forward edges cur).filter (fun nxt => nxt ∉ cur :: out) ++ stack)
          (by rw [List.length_append]; omega) fun a ha b hb => by
            rcases Classical.em (b ∈ cur :: out) with hin | hnew
            · exact Or.inl hin
            refine Or.inr ?_
            rcases List.mem_cons.mp ha with rfl | ha
            · refine List.mem_append_left _ (List.mem_filter.mpr ⟨mem_forward.mpr hb, ?_⟩)
              exact decide_eq_true hnew
            · rw [List.mem_cons, not_or] at hnew
              rcases hclosed a ha b hb with h | h
              · exact absurd h hnew.2
              · rcases List.mem_cons.mp h with rfl | h
                · exact absurd rfl hnew.1
                · exact List.mem_append_right _ h
        refine ⟨fun a ha => hout a (List.mem_cons_of_mem cur ha), fun a ha => ?_, hedges⟩
        rcases List.mem_cons.mp ha with rfl | ha
        · exact hout a List.mem_cons_self
        · exact hstack a (List.mem_append_right _ ha)

/-- The second identity signed a rotation of the first. -/
def Rotated (chain : List Dict) (old new : String) : Prop :=
  old ≠ "" ∧ new ≠ "" ∧ ∃ event ∈ chain, hasType "identity_rotate" event = true ∧
    Dict.get (payload event) "old_node_id" = .str old ∧ Dict.get event "node_id" = .str new

theorem Rotated.edge {chain : List Dict} (h : Rotated chain u v) (hne : u ≠ v) :
    (u, v) ∈ rotations chain := by
  obtain ⟨hu, hv, event, hevent, htype, hold, hnew⟩ := h
  refine List.mem_filterMap.mpr ⟨event, hevent, ?_⟩
  rw [if_pos htype, hold, hnew]
  dsimp only
  rw [if_neg (by simp [hu, hv, hne])]

/-- All descendants are found, however often identities rotate. -/
theorem mem_rotationDescendants {chain : List Dict}
    (h : Relation.ReflTransGen (Rotated chain) u v) : v = u ∨ v ∈ rotationDescendants u chain := by
  obtain ⟨-, hstack, hedges⟩ := @descendantsLoop_spec (rotations chain)
    ((forward (rotations chain) u).length + (rotations chain).length) []
    (forward (rotations chain) u)
    (Nat.add_le_add_left (List.countP_le_length) _) fun a ha => absurd ha List.not_mem_nil
  induction h with
  | refl => exact Or.inl rfl
  | @tail b c _ hstep ih =>
    rcases eq_or_ne b c with rfl | hne
    · exact ih
    have hedge := hstep.edge hne
    rcases ih with rfl | hb
    · exact Or.inr (hstack c (mem_forward.mpr hedge))
    · exact Or.inr (hedges b hb c hedge)

end Descendants

/-! ## Predictors -/

/-- The node is a frozen predictor of the market, or an identity that one rotated into. -/
def Predictor (rt : Runtime) (m : String) (chain : List Dict) (x : String) : Prop :=
  ∃ snapshot frozen original, findSnapshot rt m chain = .ok (some snapshot) ∧
    Dict.get snapshot "frozen_predictor_ids" = .list frozen ∧ .str original ∈ frozen ∧
    original ≠ "" ∧ Relation.ReflTransGen (Rotated chain) original x

/-- A stake or a vote of the node on the resolution of some market. -/
def ownStake (x : String) (event : Dict) : Bool :=
  (hasType "resolution_stake" event || hasType "bootstrap_resolution_vote" event) &&
    (Dict.get event "node_id").eq (.str x)

/-- The chains differ in nothing but the hidden events. -/
def SameBut (hidden : Dict → Bool) (chain chain' : List Dict) : Prop :=
  (chain.filter fun event => !hidden event) = chain'.filter fun event => !hidden event

/-- A vote of the node on the resolution of the market. -/
def castOn (m x : String) (event : Dict) : Bool :=
  hasType "bootstrap_resolution_vote" event && forMarket m event &&
    (Dict.get event "node_id").eq (.str x)

/-- `float(v or 0.0)`, or `none` where the code catches the exception. -/
def floatRead (rt : Runtime) (v : PyVal) : Except String (Option PyFloat) :=
  catching ["TypeError", "ValueError"] (some <$> pyFloat rt (v.or (.float (.finite 0)))) none

/-- The market's snapshot and the events of the node have times that can be read, or at least
    fail in the way that the code expects. -/
def AgeLegible (rt : Runtime) (m x : String) (chain : List Dict) : Prop :=
  ∃ snapshot frozenAt, findSnapshot rt m chain = .ok (some snapshot) ∧
    floatRead rt (Dict.get snapshot "frozen_at") = .ok frozenAt ∧
    (frozenAt ≠ none → ∀ event ∈ chain, (Dict.get event "node_id").eq (.str x) = true →
      ∃ ts, floatRead rt (Dict.get event "timestamp") = .ok ts)

/-- The votes of the node on the market can be read, and if there are any, so can its age. -/
structure VotesLegible (rt : Runtime) (m x : String) (chain : List Dict) : Prop where
  sequences : ∀ event ∈ chain, castOn m x event = true → ∃ seq, sequence rt event = .ok seq
  age : (∃ event ∈ chain, castOn m x event = true) → AgeLegible rt m x chain

/-- The market is decided by votes: it is a bootstrap market, and there is evidence. -/
def DecidedByVotes (env : Env) (cfg : Config) (m : String) (chain : List Dict) : Prop :=
  ∃ create index, createEvent m chain = some create ∧ bootstrapIndex env.rt create = .ok index ∧
    cfg.isBootstrap index = true ∧ collectEvidence env m chain ≠ .ok []

/-- The resolutions decide the same and move the same stakes. -/
structure SameResolution (r r' : ResolutionResult) : Prop where
  outcome : r'.outcome = r.outcome
  reason : r'.reason = r.reason
  stakeReturns : r'.stakeReturns = r.stakeReturns
  stakeWinnings : r'.stakeWinnings = r.stakeWinnings
  burnedAmount : r'.burnedAmount = r.burnedAmount

section Exclusion

variable {env : Env} {rt : Runtime} {cfg : Config} {m x y : String} {chain chain' : List Dict}
variable {hidden : Dict → Bool}

theorem Predictor.mem_excluded (h : Predictor rt m chain x) :
    ∃ excluded, excludedPredictorIds rt m chain = .ok excluded ∧ x ∈ excluded := by
  obtain ⟨snapshot, frozen, original, hfind, hfrozen, hmem, hne, hreach⟩ := h
  have hbase : ∀ f : PyVal → Option String, f (.str original) = some original →
      original ∈ frozen.filterMap f := fun f hf => List.mem_filterMap.mpr ⟨.str original, hmem, hf⟩
  have hor : (PyVal.list frozen).or (.list []) = .list frozen := by
    cases frozen with
    | nil => exact absurd hmem List.not_mem_nil
    | cons v rest => rfl
  unfold excludedPredictorIds
  rw [hfind]
  simp only [bind, Except.bind]
  rw [hfrozen, hor]
  refine ⟨_, rfl, ?_⟩
  rcases mem_rotationDescendants hreach with rfl | hdesc
  · exact List.mem_append_left _ (hbase _ (if_neg hne))
  · exact List.mem_append_right _ (List.mem_flatMap.mpr ⟨original, hbase _ (if_neg hne), hdesc⟩)

theorem Predictor.ne_empty (h : Predictor rt m chain x) : x ≠ "" := by
  obtain ⟨_, _, original, -, -, -, hne, hreach⟩ := h
  cases hreach with
  | refl => exact hne
  | tail _ hstep => exact hstep.2.1

/-- Nothing is hidden but stakes and votes. -/
def HidesStakes (hidden : Dict → Bool) : Prop :=
  ∀ event, hidden event = true →
    hasType "resolution_stake" event = true ∨ hasType "bootstrap_resolution_vote" event = true

theorem hidesStakes_ownStake (x : String) : HidesStakes (ownStake x) :=
  fun _ h => Bool.or_eq_true_iff.mp (Bool.and_eq_true_iff.mp h).1

theorem HidesStakes.shown (hhidden : HidesStakes hidden) {t : String} {event : Dict}
    (htype : hasType t event = true) (hstake : t ≠ "resolution_stake")
    (hvote : t ≠ "bootstrap_resolution_vote") : hidden event = false := by
  rw [Bool.eq_false_iff]
  intro h
  rcases hhidden event h with hother | hother
  · rw [hasType_ne htype hstake] at hother
    cases hother
  · rw [hasType_ne htype hvote] at hother
    cases hother

theorem SameBut.filter (h : SameBut hidden chain chain') {p : Dict → Bool}
    (hp : ∀ event, p event = true → hidden event = false) :
    chain.filter p = chain'.filter p := by
  have hboth : ∀ events : List Dict,
      events.filter p = (events.filter fun event => !hidden event).filter p := by
    intro events
    rw [List.filter_filter]
    refine List.filter_congr fun event _ => ?_
    cases hevent : p event with
    | false => rfl
    | true => rw [hp event hevent]; rfl
  rw [hboth chain, hboth chain', h]

theorem SameBut.createEvent (h : SameBut hidden chain chain') (hhidden : HidesStakes hidden)
    (m : String) :
    createEvent m chain' = createEvent m chain := by
  unfold Economy.createEvent
  rw [← List.head?_filter, ← List.head?_filter, h.filter fun event hevent =>
    hhidden.shown (Bool.and_eq_true_iff.mp hevent).1 (by decide) (by decide)]

theorem SameBut.collectEvidence (h : SameBut hidden chain chain') (hhidden : HidesStakes hidden)
    (m : String) :
    collectEvidence env m chain' = collectEvidence env m chain := by
  unfold Economy.collectEvidence
  rw [h.filter fun event hevent =>
    hhidden.shown (Bool.and_eq_true_iff.mp hevent).1 (by decide) (by decide)]

theorem SameBut.findSnapshot (h : SameBut hidden chain chain') (hhidden : HidesStakes hidden)
    (rt : Runtime) (m : String) :
    findSnapshot rt m chain' = findSnapshot rt m chain := by
  have hfirst : firstAuthoritativeEvent (eventsForMarket rt m chain') "market_snapshot" =
      firstAuthoritativeEvent (eventsForMarket rt m chain) "market_snapshot" := by
    unfold firstAuthoritativeEvent eventsForMarket
    rw [← List.head?_filter, ← List.head?_filter, List.filter_filter, List.filter_filter,
      h.filter fun event hevent =>
        hhidden.shown (Bool.and_eq_true_iff.mp hevent).1 (by decide) (by decide)]
  unfold Economy.findSnapshot
  rw [hfirst]

theorem SameBut.rotations (h : SameBut hidden chain chain') (hhidden : HidesStakes hidden) :
    rotations chain' = rotations chain := by
  have hboth : ∀ events : List Dict,
      Economy.rotations events = Economy.rotations (events.filter (hasType "identity_rotate")) := by
    intro events
    unfold Economy.rotations
    rw [List.filterMap_filter]
    refine List.filterMap_congr fun event _ => ?_
    cases hasType "identity_rotate" event <;> rfl
  rw [hboth chain, hboth chain', h.filter fun event hevent =>
    hhidden.shown hevent (by decide) (by decide)]

theorem SameBut.excluded (h : SameBut hidden chain chain') (hhidden : HidesStakes hidden)
    (rt : Runtime) (m : String) :
    excludedPredictorIds rt m chain' = excludedPredictorIds rt m chain := by
  unfold excludedPredictorIds rotationDescendants
  rw [h.findSnapshot hhidden, h.rotations hhidden]

/-! ## Stakes -/

theorem readStake_own {excluded : List String} (hx : x ∈ excluded) {event : Dict}
    (hown : ownStake x event = true) : readStake rt excluded m event = .ok none := by
  have hnode := eq_str_iff.mp (Bool.and_eq_true_iff.mp hown).2
  unfold readStake
  rw [hnode]
  dsimp only
  split_ifs
  · rfl
  · cases Side.ofVal? (Dict.get (payload event) "side") with
    | none => rfl
    | some side => exact if_pos (Or.inr hx)

theorem SameBut.stakes (h : SameBut (ownStake x) chain chain') (hx : Predictor rt m chain x) :
    collectResolutionStakes rt m chain' = collectResolutionStakes rt m chain := by
  obtain ⟨excluded, hexcluded, hmem⟩ := hx.mem_excluded
  have hskip : ∀ events : List Dict, events.filterMapM (readStake rt excluded m) =
      (events.filter fun event => !ownStake x event).filterMapM (readStake rt excluded m) :=
    fun events => filterMapM_skip fun event _ hown => readStake_own hmem (by simpa using hown)
  unfold collectResolutionStakes
  rw [if_pos rfl, if_pos rfl, h.excluded (hidesStakes_ownStake x), hexcluded]
  simp only [bind, Except.bind]
  rw [hskip chain, hskip chain', h]

/-! ## Ages -/

theorem exists_visit {seen : FirstSeen} {event : Dict} :
    (∃ seen', FirstSeen.visit rt x seen event = .ok seen') ↔
      ((Dict.get event "node_id").eq (.str x) = true →
        ∃ ts, floatRead rt (Dict.get event "timestamp") = .ok ts) := by
  unfold FirstSeen.visit
  split
  · rename_i hnode
    change (∃ seen', (floatRead rt (Dict.get event "timestamp") >>= _) = .ok seen') ↔ _
    cases floatRead rt (Dict.get event "timestamp") with
    | error e => exact ⟨fun ⟨_, h⟩ => (by cases h), fun h => (by obtain ⟨_, h⟩ := h hnode; cases h)⟩
    | ok ts =>
      refine ⟨fun _ _ => ⟨ts, rfl⟩, fun _ => ?_⟩
      cases ts with
      | none => exact ⟨seen, rfl⟩
      | some t => exact ⟨_, rfl⟩
  · rename_i hnode
    exact ⟨fun _ hmine => absurd hmine hnode, fun _ => ⟨seen, rfl⟩⟩

theorem exists_nodeCreatedAt : (∃ createdAt, nodeCreatedAt rt x chain = .ok createdAt) ↔
    ∀ event ∈ chain, (Dict.get event "node_id").eq (.str x) = true →
      ∃ ts, floatRead rt (Dict.get event "timestamp") = .ok ts := by
  unfold nodeCreatedAt
  constructor
  · rintro ⟨createdAt, h⟩ event hevent
    obtain ⟨seen, hseen, -⟩ := bind_eq_ok.mp h
    obtain ⟨s, s', hs'⟩ := ok_of_foldlM hseen event hevent
    exact exists_visit.mp ⟨s', hs'⟩
  · intro h
    obtain ⟨seen, hseen⟩ := @exists_foldlM _ _ _ (FirstSeen.visit rt x) chain
      (fun event hevent seen => exists_visit.mpr (h event hevent)) ({} : FirstSeen)
    rw [hseen]
    exact ⟨_, rfl⟩

theorem exists_isIdentityAgeEligible {snapshot : Dict}
    (hfind : findSnapshot rt m chain = .ok (some snapshot)) :
    (∃ old, isIdentityAgeEligible rt cfg x m chain = .ok old) ↔ AgeLegible rt m x chain := by
  have hage : AgeLegible rt m x chain ↔
      ∃ frozenAt, floatRead rt (Dict.get snapshot "frozen_at") = .ok frozenAt ∧
        (frozenAt ≠ none → ∃ createdAt, nodeCreatedAt rt x chain = .ok createdAt) := by
    rw [exists_nodeCreatedAt]
    constructor
    · rintro ⟨snapshot', frozenAt, hfind', hfrozen, hevents⟩
      cases hfind.symm.trans hfind'
      exact ⟨frozenAt, hfrozen, hevents⟩
    · rintro ⟨frozenAt, hfrozen, hevents⟩
      exact ⟨snapshot, frozenAt, hfind, hfrozen, hevents⟩
  rw [hage]
  unfold isIdentityAgeEligible
  rw [hfind]
  change (∃ old, (floatRead rt (Dict.get snapshot "frozen_at") >>= _) = .ok old) ↔ _
  cases floatRead rt (Dict.get snapshot "frozen_at") with
  | error e => exact ⟨fun ⟨_, h⟩ => (by cases h), fun ⟨_, h, _⟩ => (by cases h)⟩
  | ok frozenAt =>
    cases frozenAt with
    | none => exact ⟨fun _ => ⟨none, rfl, fun h => absurd rfl h⟩, fun _ => ⟨false, rfl⟩⟩
    | some t =>
      change (∃ old, (nodeCreatedAt rt x chain >>= _) = .ok old) ↔ _
      constructor
      · rintro ⟨old, h⟩
        obtain ⟨createdAt, hcreated, -⟩ := bind_eq_ok.mp h
        exact ⟨some t, rfl, fun _ => ⟨createdAt, hcreated⟩⟩
      · rintro ⟨frozenAt, hfrozen, hcreated⟩
        cases hfrozen
        obtain ⟨createdAt, hcreated⟩ := hcreated (by simp)
        rw [hcreated]
        cases createdAt with
        | none => exact ⟨false, rfl⟩
        | some c => exact ⟨_, rfl⟩

/-- The age of another node does not depend on the stakes and votes of this one. -/
theorem SameBut.nodeCreatedAt (h : SameBut (ownStake x) chain chain') (hne : y ≠ x) :
    nodeCreatedAt rt y chain' = nodeCreatedAt rt y chain := by
  have hskip : ∀ events : List Dict, events.foldlM (FirstSeen.visit rt y) ({} : FirstSeen) =
      (events.filter fun event => !ownStake x event).foldlM (FirstSeen.visit rt y) {} := by
    intro events
    refine foldlM_skip (fun event _ hown seen => ?_) _
    have hmine : ownStake x event = true := by simpa using hown
    have hnode := eq_str_iff.mp (Bool.and_eq_true_iff.mp hmine).2
    unfold FirstSeen.visit
    exact if_neg fun hy => hne (PyVal.str.inj (hnode.symm.trans (eq_str_iff.mp hy))).symm
  unfold Economy.nodeCreatedAt
  rw [hskip chain, hskip chain', h]

/-- Whether another node can vote does not depend on the stakes and votes of this one. -/
theorem SameBut.validate (h : SameBut (ownStake x) chain chain') (hne : y ≠ x) :
    validateBootstrapEligibility rt cfg y m chain' =
      validateBootstrapEligibility rt cfg y m chain := by
  unfold validateBootstrapEligibility isIdentityAgeEligible
  rw [h.findSnapshot (hidesStakes_ownStake x), h.excluded (hidesStakes_ownStake x),
    h.nodeCreatedAt hne]

/-- The eligibility of a node can be decided where its age can be. -/
theorem exists_validate {snapshot : Dict} (hfind : findSnapshot rt m chain = .ok (some snapshot)) :
    (∃ decision, validateBootstrapEligibility rt cfg x m chain = .ok decision) ↔
      AgeLegible rt m x chain := by
  obtain ⟨excluded, hexcluded⟩ : ∃ excluded, excludedPredictorIds rt m chain = .ok excluded := by
    unfold excludedPredictorIds
    rw [hfind]
    simp only [bind, Except.bind]
    split <;> exact ⟨_, rfl⟩
  rw [← @exists_isIdentityAgeEligible rt cfg m x chain snapshot hfind]
  unfold validateBootstrapEligibility
  rw [hfind, hexcluded]
  simp only [bind, Except.bind]
  cases isIdentityAgeEligible rt cfg x m chain with
  | error e => exact ⟨fun ⟨_, h⟩ => (by cases h), fun ⟨_, h⟩ => (by cases h)⟩
  | ok old =>
    refine ⟨fun _ => ⟨old, rfl⟩, fun _ => ?_⟩
    dsimp only
    split_ifs <;> exact ⟨_, rfl⟩

/-- A predictor cannot vote. The code notices after it looked at the age. -/
theorem Predictor.validate (hx : Predictor rt m chain x) {decision : EligibilityDecision}
    (h : validateBootstrapEligibility rt cfg x m chain = .ok decision) :
    decision.eligible = false := by
  obtain ⟨excluded, hexcluded, hmem⟩ := hx.mem_excluded
  obtain ⟨snapshot, _, _, hfind, -⟩ := hx
  unfold validateBootstrapEligibility at h
  rw [hfind, hexcluded] at h
  simp only [bind, Except.bind] at h
  cases hold : isIdentityAgeEligible rt cfg x m chain with
  | error e =>
    rw [hold] at h
    cases h
  | ok old =>
    rw [hold] at h
    cases old with
    | false =>
      cases h
      rfl
    | true =>
      simp only [Bool.not_true, Bool.false_eq_true, if_false, if_pos hmem] at h
      cases h
      rfl

/-! ## Votes -/

theorem readCandidate_nodeId {event : Dict} {c : Candidate}
    (h : readCandidate env m event = .ok (some c)) :
    hasType "bootstrap_resolution_vote" event = true ∧ forMarket m event = true ∧
      Dict.get event "node_id" = .str c.nodeId := by
  unfold readCandidate at h
  split_ifs at h with hvote
  · obtain ⟨htype, hmarket⟩ := Bool.and_eq_true_iff.mp hvote
    split at h
    · rename_i node hnode
      split_ifs at h with hempty
      · cases h
      · obtain ⟨seq, hseq, h⟩ := bind_eq_ok.mp h
        cases pure_eq_ok.mp h
        exact ⟨htype, hmarket, hnode⟩
    · cases h
  · cases h

theorem readCandidate_own {event : Dict} (hne : x ≠ "") (hown : ownStake x event = true) :
    (∃ o, readCandidate env m event = .ok o) ↔
      (castOn m x event = true → ∃ seq, sequence env.rt event = .ok seq) := by
  have hmine := (Bool.and_eq_true_iff.mp hown).2
  have hnode := eq_str_iff.mp hmine
  unfold readCandidate castOn
  rw [hmine, Bool.and_true]
  split_ifs with hvote
  · rw [hnode]
    dsimp only
    rw [if_neg hne]
    cases sequence env.rt event with
    | error e =>
      exact ⟨fun ⟨_, h⟩ => (by cases h), fun h => (by obtain ⟨_, h⟩ := h hvote; cases h)⟩
    | ok seq => exact ⟨fun _ _ => ⟨seq, rfl⟩, fun _ => ⟨_, rfl⟩⟩
  · exact ⟨fun _ h => absurd h hvote, fun _ => ⟨none, rfl⟩⟩

/-- The votes that count, in the order in which they are read. -/
def ranked (cs : List Candidate) : List Candidate :=
  ((cs.map Candidate.nodeId).eraseDups.filterMap (canonicalVote cs)).insertionSort fun a b =>
    a.nodeId < b.nodeId ∨ (a.nodeId = b.nodeId ∧ a.hash ≤ b.hash)

theorem canonicalVote_filter {cs : List Candidate} (hne : y ≠ x) :
    canonicalVote (cs.filter fun c => c.nodeId ≠ x) y = canonicalVote cs y := by
  unfold canonicalVote
  rw [List.filter_filter, List.filter_congr]
  intro c _
  rcases eq_or_ne c.nodeId y with rfl | hother
  · simp [hne]
  · simp [hother]

theorem ranked_filter (cs : List Candidate) (x : String) :
    ((ranked cs).filter fun c => c.nodeId ≠ x).Perm (ranked (cs.filter fun c => c.nodeId ≠ x)) := by
  have hnodes : ((cs.map Candidate.nodeId).eraseDups.filter fun n => n ≠ x).Perm
      ((cs.filter fun c => c.nodeId ≠ x).map Candidate.nodeId).eraseDups := by
    rw [List.perm_ext_iff_of_nodup ((Sort.nodup_eraseDups _).filter _) (Sort.nodup_eraseDups _)]
    intro n
    simp only [List.mem_filter, List.mem_eraseDups, List.mem_map, decide_eq_true_eq]
    constructor
    · rintro ⟨⟨c, hc, rfl⟩, hne⟩
      exact ⟨c, ⟨hc, hne⟩, rfl⟩
    · rintro ⟨c, ⟨hc, hne⟩, rfl⟩
      exact ⟨⟨c, hc, rfl⟩, hne⟩
  have hvotes : (((cs.map Candidate.nodeId).eraseDups.filterMap (canonicalVote cs)).filter
      fun c => c.nodeId ≠ x) = ((cs.map Candidate.nodeId).eraseDups.filter fun n => n ≠ x).filterMap
        (canonicalVote (cs.filter fun c => c.nodeId ≠ x)) := by
    rw [List.filter_filterMap, List.filterMap_filter]
    refine List.filterMap_congr fun n _ => ?_
    rcases eq_or_ne n x with rfl | hne
    · rw [if_neg (by simp)]
      cases hvote : canonicalVote cs n with
      | none => rfl
      | some c => simp [Option.filter, canonicalVote_nodeId hvote]
    · rw [if_pos (by simpa using hne), canonicalVote_filter hne]
      cases hvote : canonicalVote cs n with
      | none => rfl
      | some c => simp [Option.filter, canonicalVote_nodeId hvote, hne]
  unfold ranked
  refine ((List.perm_insertionSort _ _).filter _).trans ?_
  rw [hvotes]
  exact (hnodes.filterMap _).trans (List.perm_insertionSort _ _).symm

theorem mem_of_mem_ranked {cs : List Candidate} {v : Candidate} (h : v ∈ ranked cs) : v ∈ cs := by
  obtain ⟨n, -, hvote⟩ := List.mem_filterMap.mp ((List.mem_insertionSort _).mp h)
  exact (List.mem_filter.mp ((List.mem_insertionSort _).mp (List.mem_of_mem_head? hvote))).1

theorem exists_mem_ranked {cs : List Candidate} {c : Candidate} (h : c ∈ cs) :
    ∃ v ∈ ranked cs, v.nodeId = c.nodeId := by
  have hmem : c ∈ (cs.filter fun d => d.nodeId = c.nodeId).insertionSort fun a b =>
      a.hash < b.hash ∨ (a.hash = b.hash ∧ a.sequence ≤ b.sequence) :=
    (List.mem_insertionSort _).mpr (List.mem_filter.mpr ⟨h, decide_eq_true rfl⟩)
  cases hvote : canonicalVote cs c.nodeId with
  | none =>
    unfold canonicalVote at hvote
    rw [List.head?_eq_none_iff.mp hvote] at hmem
    exact absurd hmem List.not_mem_nil
  | some v =>
    refine ⟨v, (List.mem_insertionSort _).mpr (List.mem_filterMap.mpr ⟨c.nodeId, ?_, hvote⟩),
      canonicalVote_nodeId hvote⟩
    exact List.mem_eraseDups.mpr (List.mem_map_of_mem h)

theorem ownStake_of_castOn {event : Dict} (h : castOn m x event = true) :
    ownStake x event = true := by
  unfold castOn at h
  obtain ⟨hvote, hnode⟩ := Bool.and_eq_true_iff.mp h
  unfold ownStake
  rw [(Bool.and_eq_true_iff.mp hvote).1, hnode, Bool.or_true, Bool.and_true]

theorem castOn_of_candidate {event : Dict} {c : Candidate}
    (h : readCandidate env m event = .ok (some c)) : castOn m c.nodeId event = true := by
  obtain ⟨htype, hmarket, hnode⟩ := readCandidate_nodeId h
  unfold castOn
  rw [htype, hmarket, eq_str_iff.mpr hnode]
  rfl

theorem readCandidate_of_castOn {event : Dict} (hne : x ≠ "") (hcast : castOn m x event = true)
    {seq : Int} (hseq : sequence env.rt event = .ok seq) :
    readCandidate env m event = .ok (some ⟨x, canonicalEventHash env event, seq, event⟩) := by
  obtain ⟨hvote, hmine⟩ := Bool.and_eq_true_iff.mp hcast
  unfold readCandidate
  rw [if_pos hvote, eq_str_iff.mp hmine]
  dsimp only
  rw [if_neg hne, hseq]
  rfl

theorem SameBut.predictor (h : SameBut (ownStake x) chain chain') (hx : Predictor rt m chain y) :
    Predictor rt m chain' y := by
  obtain ⟨snapshot, frozen, original, hfind, hfrozen, hmem, hne, hreach⟩ := hx
  refine ⟨snapshot, frozen, original, (h.findSnapshot (hidesStakes_ownStake x) rt m).trans hfind,
    hfrozen, hmem, hne, ?_⟩
  refine Relation.ReflTransGen.mono ?_ _ _ hreach
  rintro a b ⟨ha, hb, event, hevent, htype, hold, hnew⟩
  refine ⟨ha, hb, event, ?_, htype, hold, hnew⟩
  have hkept : event ∈ chain.filter (hasType "identity_rotate") := List.mem_filter.mpr ⟨hevent, htype⟩
  rw [h.filter fun event hevent =>
    (hidesStakes_ownStake x).shown hevent (by decide) (by decide)] at hkept
  exact (List.mem_filter.mp hkept).1

theorem SameBut.candidates (h : SameBut (ownStake x) chain chain') {cs cs' : List Candidate}
    (hcs : chain.filterMapM (readCandidate env m) = .ok cs)
    (hcs' : chain'.filterMapM (readCandidate env m) = .ok cs') :
    (cs.filter fun c => c.nodeId ≠ x) = cs'.filter fun c => c.nodeId ≠ x := by
  have hothers : ∀ event : Dict, ∀ c : Candidate, readCandidate env m event = .ok (some c) →
      decide (c.nodeId ≠ x) = !ownStake x event := by
    intro event c hread
    have hown := ownStake_of_castOn (castOn_of_candidate hread)
    rcases eq_or_ne c.nodeId x with rfl | hne
    · simp [hown]
    · have hnode := (readCandidate_nodeId hread).2.2
      have hnot : (Dict.get event "node_id").eq (.str x) = false := by
        rw [Bool.eq_false_iff, ne_eq, eq_str_iff, hnode]
        exact fun heq => hne (PyVal.str.inj heq)
      unfold ownStake
      rw [hnot]
      simp [hne]
  have hread := filterMapM_filter hcs fun event _ c hc => hothers event c hc
  have hread' := filterMapM_filter hcs' fun event _ c hc => hothers event c hc
  rw [h] at hread
  exact Except.ok.inj (hread.symm.trans hread')

/-- One round of the loop over the votes that count. -/
def countVote (env : Env) (cfg : Config) (m : String) (chain : List Dict) (v : Candidate) :
    Except String (Option Outcome) := do
  let decision ← validateBootstrapEligibility env.rt cfg v.nodeId m chain
  return if decision.eligible then Outcome.ofVal? (Dict.get (payload v.event) "side") else none

theorem eligibleVotes_eq_ok {votes : List Outcome} : eligibleVotes env cfg m chain = .ok votes ↔
    ∃ cs, chain.filterMapM (readCandidate env m) = .ok cs ∧
      (ranked cs).filterMapM (countVote env cfg m chain) = .ok votes := by
  unfold eligibleVotes deduplicateVotes
  rw [bind_assoc, bind_eq_ok]
  rfl

/-- A vote can be counted where the eligibility of its voter can be decided. -/
theorem exists_countVote {v : Candidate} : (∃ o, countVote env cfg m chain v = .ok o) ↔
    ∃ decision, validateBootstrapEligibility env.rt cfg v.nodeId m chain = .ok decision := by
  unfold countVote
  constructor
  · rintro ⟨o, h⟩
    obtain ⟨decision, hdecision, -⟩ := bind_eq_ok.mp h
    exact ⟨decision, hdecision⟩
  · rintro ⟨decision, hdecision⟩
    exact ⟨_, by rw [hdecision]; rfl⟩

theorem Predictor.countVote (hx : Predictor env.rt m chain x) {v : Candidate} (hv : v.nodeId = x) :
    ((∃ o, countVote env cfg m chain v = .ok o) ↔ AgeLegible env.rt m x chain) ∧
    ∀ side, countVote env cfg m chain v ≠ .ok (some side) := by
  subst hv
  constructor
  · obtain ⟨snapshot, _, _, hfind, -⟩ := hx
    rw [exists_countVote, exists_validate hfind]
  · intro side h
    unfold Economy.countVote at h
    obtain ⟨decision, hdecision, h⟩ := bind_eq_ok.mp h
    rw [hx.validate hdecision] at h
    cases h

/-- The votes that count are those of the other nodes. -/
theorem Predictor.countVotes (hx : Predictor env.rt m chain x) {cs : List Candidate}
    {votes : List Outcome}
    (h : (ranked cs).filterMapM (Economy.countVote env cfg m chain) = .ok votes) :
    ((ranked cs).filter fun v => v.nodeId ≠ x).filterMapM (Economy.countVote env cfg m chain) =
      .ok votes := by
  have hothers : ∀ v ∈ ranked cs, ∀ side, Economy.countVote env cfg m chain v = .ok (some side) →
      true = decide (v.nodeId ≠ x) :=
    fun v _ side hside =>
      (decide_eq_true (show v.nodeId ≠ x from fun hv => (hx.countVote hv).2 side hside)).symm
  have hkept : (votes.filter fun _ => true) = votes := List.filter_eq_self.mpr fun _ _ => rfl
  rw [filterMapM_filter h hothers, hkept]

theorem eligibleVotes_sameBut (h : SameBut (ownStake x) chain chain') (hx : Predictor env.rt m chain x)
    {votes : List Outcome} (hvotes : eligibleVotes env cfg m chain = .ok votes)
    (hlegible : VotesLegible env.rt m x chain') :
    ∃ votes', eligibleVotes env cfg m chain' = .ok votes' ∧ votes.Perm votes' := by
  have hx' := h.predictor hx
  obtain ⟨cs, hcs, hcount⟩ := eligibleVotes_eq_ok.mp hvotes
  have hread : ∀ event ∈ chain', ∃ o, readCandidate env m event = .ok o := by
    intro event hevent
    cases hown : ownStake x event with
    | true => exact (readCandidate_own hx.ne_empty hown).mpr (hlegible.sequences event hevent)
    | false =>
      have hmem : event ∈ chain'.filter fun event => !ownStake x event :=
        List.mem_filter.mpr ⟨hevent, by rw [hown]; rfl⟩
      rw [← h] at hmem
      exact ok_of_filterMapM hcs event (List.mem_filter.mp hmem).1
  obtain ⟨cs', hcs'⟩ := exists_filterMapM hread
  have hperm : ((ranked cs).filter fun v => v.nodeId ≠ x).Perm
      ((ranked cs').filter fun v => v.nodeId ≠ x) := by
    refine (ranked_filter cs x).trans ?_
    rw [h.candidates hcs hcs']
    exact (ranked_filter cs' x).symm
  obtain ⟨votes', hcount', hvotes'⟩ := filterMapM_perm hperm (hx.countVotes hcount)
  have hsame : ∀ v ∈ (ranked cs').filter fun v => v.nodeId ≠ x,
      countVote env cfg m chain v = countVote env cfg m chain' v := by
    intro v hv
    unfold Economy.countVote
    rw [h.validate (of_decide_eq_true (List.mem_filter.mp hv).2)]
  rw [filterMapM_congr hsame] at hcount'
  obtain ⟨all, hall⟩ : ∃ all, (ranked cs').filterMapM (countVote env cfg m chain') = .ok all := by
    refine exists_filterMapM fun v hv => ?_
    rcases eq_or_ne v.nodeId x with hmine | hother
    · obtain ⟨event, hevent, hreadv⟩ := (mem_filterMapM hcs').mp (mem_of_mem_ranked hv)
      have hcast := castOn_of_candidate hreadv
      rw [hmine] at hcast
      exact (hx'.countVote hmine).1.mpr (hlegible.age ⟨event, hevent, hcast⟩)
    · exact ok_of_filterMapM hcount' v (List.mem_filter.mpr ⟨hv, decide_eq_true hother⟩)
  refine ⟨votes', eligibleVotes_eq_ok.mpr ⟨cs', hcs', ?_⟩, hvotes'⟩
  rw [hall, Except.ok.inj ((hx'.countVotes hall).symm.trans hcount')]

theorem votesLegible_of_ok (hx : Predictor env.rt m chain x) {votes : List Outcome}
    (hvotes : eligibleVotes env cfg m chain = .ok votes) : VotesLegible env.rt m x chain := by
  obtain ⟨cs, hcs, hcount⟩ := eligibleVotes_eq_ok.mp hvotes
  have hsequences : ∀ event ∈ chain, castOn m x event = true → ∃ seq, sequence env.rt event = .ok seq :=
    fun event hevent hcast => (readCandidate_own hx.ne_empty (ownStake_of_castOn hcast)).mp
      (ok_of_filterMapM hcs event hevent) hcast
  refine ⟨hsequences, ?_⟩
  rintro ⟨event, hevent, hcast⟩
  obtain ⟨seq, hseq⟩ := hsequences event hevent hcast
  have hread := @readCandidate_of_castOn env m x event hx.ne_empty hcast seq hseq
  obtain ⟨v, hv, hnode⟩ := exists_mem_ranked ((mem_filterMapM hcs).mpr ⟨_, hevent, hread⟩)
  exact (hx.countVote hnode).1.mp (ok_of_filterMapM hcount v hv)

theorem resolveBootstrap_perm {prov : Bool} {bundles : List EvidenceBundle}
    {votes votes' : List Outcome} (h : votes.Perm votes') :
    resolveBootstrap cfg m prov bundles votes' = resolveBootstrap cfg m prov bundles votes := by
  unfold resolveBootstrap voteWinner
  rw [h.length_eq, h.count_eq, h.count_eq]

end Exclusion

/-- What a predictor stakes and votes changes nothing, unless the market is decided by votes and
    one of the predictor's own cannot be read. -/
theorem predictor_silent_iff (env : Env) (cfg : Config) (m x : String) (chain chain' : List PyVal)
    (prov : Bool) (result : ResolutionResult) (hx : Predictor env.rt m (dicts chain) x)
    (hsame : SameBut (ownStake x) (dicts chain) (dicts chain'))
    (hresult : resolveMarket env cfg m chain prov = .ok result) :
    (∃ result', resolveMarket env cfg m chain' prov = .ok result' ∧ SameResolution result result') ↔
      (DecidedByVotes env cfg m (dicts chain) → VotesLegible env.rt m x (dicts chain')) := by
  have hidle : resolveMarket env cfg m chain' prov = .ok result →
      ∃ result', resolveMarket env cfg m chain' prov = .ok result' ∧ SameResolution result result' :=
    fun h => ⟨result, h, ⟨rfl, rfl, rfl, rfl, rfl⟩⟩
  unfold resolveMarket at hresult hidle ⊢
  dsimp only at hresult hidle ⊢
  rw [hsame.createEvent (hidesStakes_ownStake x), hsame.collectEvidence (hidesStakes_ownStake x),
    hsame.stakes hx] at hidle ⊢
  cases hcreate : createEvent m (dicts chain) with
  | none =>
    rw [hcreate] at hresult hidle
    refine ⟨fun _ hvotes => ?_, fun _ => hidle hresult⟩
    obtain ⟨create, _, hcreate', -⟩ := hvotes
    cases hcreate.symm.trans hcreate'
  | some create =>
    rw [hcreate] at hresult hidle
    dsimp only at hresult hidle ⊢
    obtain ⟨index, hindex, hresult⟩ := bind_eq_ok.mp hresult
    obtain ⟨bundles, hbundles, hresult⟩ := bind_eq_ok.mp hresult
    obtain ⟨stakes, hstakes, hresult⟩ := bind_eq_ok.mp hresult
    rw [hindex, hbundles, hstakes] at hidle ⊢
    dsimp only [bind, Except.bind] at hidle ⊢
    split_ifs at hresult hidle ⊢ with hempty hbootstrap
    · refine ⟨fun _ hvotes => ?_, fun _ => hidle hresult⟩
      obtain ⟨_, _, -, -, -, hevidence⟩ := hvotes
      rw [hbundles, List.isEmpty_iff.mp hempty] at hevidence
      exact absurd rfl hevidence
    · obtain ⟨votes, hvotes, hresult⟩ := bind_eq_ok.mp hresult
      constructor
      · rintro ⟨result', hresult', -⟩ -
        obtain ⟨votes', hvotes', -⟩ := bind_eq_ok.mp hresult'
        exact votesLegible_of_ok (hsame.predictor hx) hvotes'
      · intro hlegible
        have hdecided : DecidedByVotes env cfg m (dicts chain) := by
          refine ⟨create, index, hcreate, hindex, hbootstrap, fun hnone => hempty ?_⟩
          cases hbundles.symm.trans hnone
          rfl
        obtain ⟨votes', hvotes', hperm⟩ := eligibleVotes_sameBut hsame hx hvotes (hlegible hdecided)
        rw [hvotes'] at hidle ⊢
        refine hidle ?_
        dsimp only
        rw [resolveBootstrap_perm hperm]
        exact hresult
    · refine ⟨fun _ hvotes => ?_, fun _ => hidle hresult⟩
      obtain ⟨create', index', hcreate', hindex', hbootstrap', -⟩ := hvotes
      cases hcreate.symm.trans hcreate'
      cases hindex.symm.trans hindex'
      exact absurd hbootstrap' hbootstrap

/-- A bootstrap market with evidence, whose predictor rotated into another identity. -/
def bootstrapChain (votes : List PyVal) : List PyVal :=
  [chainEvent "prediction_create" "ana" 1 [("market_id", .str "m1"),
      ("market_type", .str "objective"), ("question", .str "q"), ("trigger_date", .int 1),
      ("creation_bond", .int 3), ("bootstrap_index", .int 1)],
    chainEvent "market_snapshot" "ana" 2 [("market_id", .str "m1"),
      ("frozen_participant_count", .int 1), ("frozen_total_stake", .int 10),
      ("frozen_predictor_ids", .list [.str "pat"]),
      ("frozen_probability_state", .dict [("yes", .int 50), ("no", .int 50)]),
      ("frozen_at", .int 1700000002)],
    chainEvent "identity_rotate" "pia" 3 [("old_node_id", .str "pat"), ("old_public_key", .str "k"),
      ("old_public_key_algo", .str "a"), ("new_public_key", .str "l"),
      ("new_public_key_algo", .str "a"), ("old_signature", .str "s")],
    chainEvent "evidence_submit" "eve" 4 [("market_id", .str "m1"), ("claimed_outcome", .str "yes"),
      ("evidence_hashes", .list [.str "e1"]), ("source_description", .str "s"),
      ("evidence_content_hash", .str "c1"), ("submission_hash", .str "s1"), ("bond", .int 2)]] ++ votes

/-- A vote of the new identity, with some sequence. -/
def rotatedVote (sequence : PyVal) : PyVal :=
  .dict [("event_type", .str "bootstrap_resolution_vote"), ("node_id", .str "pia"),
    ("timestamp", .int 1700000005), ("sequence", sequence),
    ("payload", .dict [("market_id", .str "m1"), ("side", .str "no"), ("pow_nonce", .int 0)])]

theorem predictor_bootstrapChain (votes : List PyVal) :
    Predictor asciiRuntime "m1" (dicts (bootstrapChain votes)) "pia" := by
  have hrotated : Rotated (dicts (bootstrapChain votes)) "pat" "pia" :=
    ⟨by decide, by decide, _, @List.mem_of_getElem? _ _ 2 _ rfl, rfl, rfl, rfl⟩
  exact ⟨_, [.str "pat"], "pat", rfl, rfl, List.mem_singleton_self _, by decide,
    Relation.ReflTransGen.single hrotated⟩

theorem sameBut_rotatedVote (sequence : PyVal) :
    SameBut (ownStake "pia") (dicts (bootstrapChain []))
      (dicts (bootstrapChain [rotatedVote sequence])) := rfl

theorem predictor_silent_iff_rotated : ∃ result,
    resolveMarket plainEnv {} "m1" (bootstrapChain []) = .ok result ∧
    ((∃ result', resolveMarket plainEnv {} "m1" (bootstrapChain [rotatedVote (.int 5)]) = .ok result' ∧
        SameResolution result result') ↔
      (DecidedByVotes plainEnv {} "m1" (dicts (bootstrapChain [])) →
        VotesLegible asciiRuntime "m1" "pia" (dicts (bootstrapChain [rotatedVote (.int 5)])))) := by
  have hrun : okAnd (resolveMarket plainEnv {} "m1" (bootstrapChain [])) (fun _ => true) = true := by
    decide +kernel
  obtain ⟨result, hresult, -⟩ := okAnd_iff.mp hrun
  exact ⟨result, hresult, predictor_silent_iff plainEnv {} "m1" "pia" _ _ false result
    (predictor_bootstrapChain []) (sameBut_rotatedVote (.int 5)) hresult⟩

/-- A vote whose sequence is no number stops the resolution, though its voter is excluded. -/
theorem not_predictor_silent :
    ¬ ∀ (env : Env) (cfg : Config) (m x : String) (chain chain' : List PyVal) (prov : Bool)
      (result : ResolutionResult), Predictor env.rt m (dicts chain) x →
      SameBut (ownStake x) (dicts chain) (dicts chain') →
      resolveMarket env cfg m chain prov = .ok result →
      ∃ result', resolveMarket env cfg m chain' prov = .ok result' ∧
        SameResolution result result' := by
  intro h
  have hrun : okAnd (resolveMarket plainEnv {} "m1" (bootstrapChain [])) (fun _ => true) = true := by
    decide +kernel
  have hstop : okAnd (resolveMarket plainEnv {} "m1" (bootstrapChain [rotatedVote (.str "five")]))
      (fun _ => true) = false := by decide +kernel
  obtain ⟨result, hresult, -⟩ := okAnd_iff.mp hrun
  obtain ⟨result', hresult', -⟩ := h plainEnv {} "m1" "pia" _ _ false result
    (predictor_bootstrapChain []) (sameBut_rotatedVote (.str "five")) hresult
  rw [hresult'] at hstop
  cases hstop

end Vincent.Economy
