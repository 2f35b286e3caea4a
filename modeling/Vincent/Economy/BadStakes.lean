-- SUMMARY: What a stake of no finite amount does to a resolution.
import Vincent.Economy.FloatResolution
import Vincent.Economy.PredictorExclusion

/-!
# Bad stakes

A stake passes the schema with any number above zero. An integer too large for a float
raises where it is read. An infinite amount leaves no share to compare.
-/

namespace Vincent.Economy.FloatResolution

open Vincent.Python Vincent.Check

/-! ## Sums -/

/-- A finite amount, or infinity. -/
def IsAmount (x : PyFloat) : Prop := x = .inf ∨ ∃ q, x = .finite q

theorem total_perm {xs ys : List PyFloat} (h : xs.Perm ys) : total xs = total ys :=
  h.foldl_eq _

theorem isAmount_foldl {xs : List PyFloat} (h : ∀ x ∈ xs, IsAmount x) {acc : PyFloat}
    (hacc : IsAmount acc) : IsAmount (xs.foldl PyFloat.add acc) := by
  induction xs generalizing acc with
  | nil => exact hacc
  | cons x xs ih =>
    refine ih (fun y hy => h y (List.mem_cons_of_mem x hy)) ?_
    rcases hacc with rfl | ⟨p, rfl⟩ <;> rcases h x List.mem_cons_self with rfl | ⟨q, rfl⟩
    · exact Or.inl rfl
    · exact Or.inl rfl
    · exact Or.inl rfl
    · exact Or.inr ⟨p + q, rfl⟩

theorem isAmount_total {xs : List PyFloat} (h : ∀ x ∈ xs, IsAmount x) : IsAmount (total xs) :=
  isAmount_foldl h (Or.inr ⟨0, rfl⟩)

theorem total_inf {xs : List PyFloat} (h : ∀ x ∈ xs, IsAmount x) : total (.inf :: xs) = .inf := by
  have hstay : ∀ ys : List PyFloat, (∀ y ∈ ys, IsAmount y) → ys.foldl PyFloat.add .inf = .inf := by
    intro ys hys
    induction ys with
    | nil => rfl
    | cons y ys ih =>
      have hrest := ih fun z hz => hys z (List.mem_cons_of_mem y hz)
      rcases hys y List.mem_cons_self with rfl | ⟨q, rfl⟩
      · exact hrest
      · exact hrest
  exact hstay xs h

theorem share_inf {x : PyFloat} (hx : IsAmount x) {threshold : ℚ} (ht : 0 < threshold) :
    (PyFloat.finite threshold).le (x.div .inf) = false := by
  rcases hx with rfl | ⟨q, rfl⟩
  · rfl
  · have hzero : (PyFloat.finite q).div .inf = .finite 0 := by
      change PyFloat.finite (q * 0) = .finite 0
      rw [mul_zero]
    rw [hzero, Bool.eq_false_iff, ne_eq, PyFloat.finite_le]
    exact not_le.mpr ht

/-! ## Outcomes -/

/-- The winner, where there is evidence for it. -/
def backed (bundles : List EvidenceBundle) : Option Outcome → Option Outcome
  | none => none
  | some w => if bundles.all (fun b => b.claimedOutcome ≠ w) then none else some w

/-- What the eligible votes decide. -/
def voteDecision (cfg : Config) (bundles : List EvidenceBundle) (votes : List Outcome) :
    Option Outcome :=
  if votes.length < cfg.minMarketParticipants then none else backed bundles (voteWinner cfg votes)

/-- What the stakes on yes and no decide, the data-unavailable test apart. -/
def leaning (cfg : Config) (stakes : List ResolutionStake) (bundles : List EvidenceBundle) :
    Option Outcome :=
  if ((oracleOn .yes stakes).add (oracleOn .no stakes)).lt (.finite cfg.minResolutionStakeTotal) then
    none
  else backed bundles (supermajorityWinner (oracleOn .yes stakes) (oracleOn .no stakes)
    cfg.resolutionSupermajority)

/-- What the stakes decide. -/
def stakeDecision (cfg : Config) (stakes : List ResolutionStake) (bundles : List EvidenceBundle) :
    Option Outcome :=
  if isDataUnavailableTriggered cfg stakes then none else leaning cfg stakes bundles

def toOutcome : Option Outcome → MarketOutcome
  | none => .invalid
  | some o => .decided o

theorem toOutcome_inj {a b : Option Outcome} : toOutcome a = toOutcome b ↔ a = b := by
  cases a <;> cases b <;> simp [toOutcome]

section Outcomes

variable {cfg : Config} {m : String} {prov : Bool} {stakes : List ResolutionStake}
  {bundles : List EvidenceBundle}

/-- What no round of a loop changes, the loop does not change. -/
theorem foldl_keeps {σ α τ : Type} {f : σ → α → σ} {g : σ → τ} (h : ∀ s a, g (f s a) = g s)
    {xs : List α} {s : σ} : g (xs.foldl f s) = g s := by
  induction xs generalizing s with
  | nil => rfl
  | cons x xs ih => rw [List.foldl_cons, ih, h]

theorem outcome_settleBootstrapBond (w : Outcome) (r : ResolutionResult) (b : EvidenceBundle) :
    (settleBootstrapBond w r b).outcome = r.outcome := by
  unfold settleBootstrapBond
  split <;> rfl

theorem outcome_resolveBootstrap (votes : List Outcome) :
    (resolveBootstrap cfg m prov bundles votes).outcome =
      toOutcome (voteDecision cfg bundles votes) := by
  unfold resolveBootstrap voteDecision
  dsimp only
  split
  · rfl
  · cases voteWinner cfg votes with
    | none => rfl
    | some w =>
      unfold backed
      dsimp only
      split
      · rfl
      · rw [foldl_keeps (outcome_settleBootstrapBond w)]
        rfl

theorem outcome_distribute (pct : ℚ) (w : Outcome) (r : ResolutionResult) (rep : RepType) :
    (distribute pct w stakes r rep).outcome = r.outcome := by
  unfold distribute
  dsimp only
  split <;> rfl

theorem outcome_settleBond (bonus : ℚ) (w : Outcome) (st : ResolutionResult × PyFloat)
    (b : EvidenceBundle) : (settleBond bonus w st b).1.outcome = st.1.outcome := by
  unfold settleBond
  dsimp only
  split_ifs <;> rfl

theorem outcome_resolveStaked :
    (resolveStaked cfg m prov stakes bundles).outcome =
      toOutcome (stakeDecision cfg stakes bundles) := by
  unfold resolveStaked stakeDecision leaning
  dsimp only
  split
  · rfl
  · split
    · rfl
    · cases supermajorityWinner (oracleOn .yes stakes) (oracleOn .no stakes)
        cfg.resolutionSupermajority with
      | none => rfl
      | some w =>
        unfold backed
        dsimp only
        split
        · rfl
        · unfold settle
          dsimp only
          rw [@foldl_keeps _ _ _ _ (fun st : ResolutionResult × PyFloat => st.1.outcome)
            (outcome_settleBond cfg.evidenceFirstBonus w),
            foldl_keeps (outcome_distribute cfg.resolutionLoserBurnPct w)]
          rfl

/-! ## One more stake -/

theorem staked_perm {more : List ResolutionStake} (h : stakes.Perm more)
    (p : ResolutionStake → Bool) : staked p stakes = staked p more :=
  total_perm ((h.filter p).map _)

theorem stakeDecision_perm {more : List ResolutionStake} (h : stakes.Perm more) :
    stakeDecision cfg stakes bundles = stakeDecision cfg more bundles := by
  unfold stakeDecision leaning isDataUnavailableTriggered oracleOn
  simp only [staked_perm h]

theorem staked_cons_of_neg {s : ResolutionStake} {p : ResolutionStake → Bool} (h : p s = false) :
    staked p (s :: stakes) = staked p stakes := by
  unfold staked
  rw [List.filter_cons_of_neg (by simp [h])]

theorem staked_cons_inf {s : ResolutionStake} {p : ResolutionStake → Bool} (h : p s = true)
    (hs : s.amount = .inf) (hstakes : ∀ t ∈ stakes, IsAmount t.amount) :
    staked p (s :: stakes) = .inf := by
  unfold staked
  rw [List.filter_cons_of_pos h, List.map_cons, hs]
  refine total_inf fun x hx => ?_
  obtain ⟨t, ht, rfl⟩ := List.mem_map.mp hx
  exact hstakes t (List.mem_filter.mp ht).1

theorem isAmount_staked (hstakes : ∀ t ∈ stakes, IsAmount t.amount) (p : ResolutionStake → Bool) :
    IsAmount (staked p stakes) := by
  refine isAmount_total fun x hx => ?_
  obtain ⟨t, ht, rfl⟩ := List.mem_map.mp hx
  exact hstakes t (List.mem_filter.mp ht).1

/-- Common reputation has no say in the outcome. -/
theorem stakeDecision_common {s : ResolutionStake} (hs : s.repType = .common) :
    stakeDecision cfg (s :: stakes) bundles = stakeDecision cfg stakes bundles := by
  have hnot : s.repType ≠ .oracle := by
    rw [hs]
    exact fun h => RepType.noConfusion h
  have hall : staked (fun t => t.repType = .oracle) (s :: stakes) =
      staked (fun t => t.repType = .oracle) stakes := staked_cons_of_neg (decide_eq_false hnot)
  have hside : ∀ side, staked (fun t => t.side = side ∧ t.repType = .oracle) (s :: stakes) =
      staked (fun t => t.side = side ∧ t.repType = .oracle) stakes :=
    fun side => staked_cons_of_neg (decide_eq_false fun h => hnot h.2)
  unfold stakeDecision leaning isDataUnavailableTriggered oracleOn
  simp only [hall, hside]

/-- With an infinite oracle stake, the data-unavailable test never fires. -/
theorem not_triggered_inf {s : ResolutionStake} (hrep : s.repType = .oracle) (hs : s.amount = .inf)
    (hstakes : ∀ t ∈ stakes, IsAmount t.amount) :
    isDataUnavailableTriggered cfg (s :: stakes) = false := by
  have hmore : ∀ t ∈ s :: stakes, IsAmount t.amount := by
    intro t ht
    rcases List.mem_cons.mp ht with rfl | ht
    · exact Or.inl hs
    · exact hstakes t ht
  have hthreshold : 0 < cfg.dataUnavailableThreshold := by
    linarith [cfg.dataUnavailable_range.1]
  unfold isDataUnavailableTriggered
  dsimp only
  rw [staked_cons_inf (decide_eq_true hrep) hs hstakes,
    share_inf (isAmount_staked hmore _) hthreshold, Bool.and_false]

theorem supermajorityWinner_inf {yes no : PyFloat} (hyes : IsAmount yes) (hno : IsAmount no)
    (hinf : yes = .inf ∨ no = .inf) {threshold : ℚ} (ht : 0 < threshold) :
    supermajorityWinner yes no threshold = none := by
  have hsum : yes.add no = .inf := by
    rcases hinf with rfl | rfl
    · rcases hno with rfl | ⟨q, rfl⟩ <;> rfl
    · rcases hyes with rfl | ⟨q, rfl⟩ <;> rfl
  unfold supermajorityWinner
  rw [hsum, share_inf hyes ht, share_inf hno ht]
  rfl

theorem leaning_inf {s : ResolutionStake} {o : Outcome} (hside : s.side = .outcome o)
    (hrep : s.repType = .oracle) (hs : s.amount = .inf)
    (hstakes : ∀ t ∈ stakes, IsAmount t.amount) : leaning cfg (s :: stakes) bundles = none := by
  have hmore : ∀ t ∈ s :: stakes, IsAmount t.amount := by
    intro t ht
    rcases List.mem_cons.mp ht with rfl | ht
    · exact Or.inl hs
    · exact hstakes t ht
  have hinf : oracleOn o (s :: stakes) = .inf :=
    staked_cons_inf (decide_eq_true ⟨hside, hrep⟩) hs hstakes
  have hthreshold : 0 < cfg.resolutionSupermajority := by
    linarith [cfg.supermajority_range.1]
  have hwinner : supermajorityWinner (oracleOn .yes (s :: stakes)) (oracleOn .no (s :: stakes))
      cfg.resolutionSupermajority = none := by
    refine supermajorityWinner_inf (isAmount_staked hmore _) (isAmount_staked hmore _) ?_ hthreshold
    cases o with
    | yes => exact Or.inl hinf
    | no => exact Or.inr hinf
  unfold leaning
  rw [hwinner]
  split <;> rfl

/-- A stake on data unavailable does not count for yes or no. -/
theorem leaning_dataUnavailable {s : ResolutionStake} (hside : s.side = .dataUnavailable) :
    leaning cfg (s :: stakes) bundles = leaning cfg stakes bundles := by
  have hskip : ∀ o, oracleOn o (s :: stakes) = oracleOn o stakes := by
    intro o
    refine staked_cons_of_neg (decide_eq_false ?_)
    rw [hside]
    exact fun h => Side.noConfusion h.1
  unfold leaning
  rw [hskip, hskip]

/-- The stakes decide as they do without an infinite oracle stake on the side. -/
def Withstands (cfg : Config) (stakes : List ResolutionStake) (bundles : List EvidenceBundle) :
    Side → Prop
  | .dataUnavailable =>
    isDataUnavailableTriggered cfg stakes = true → leaning cfg stakes bundles = none
  | .outcome _ => leaning cfg stakes bundles ≠ none → isDataUnavailableTriggered cfg stakes = true

theorem stakeDecision_inf {s : ResolutionStake} (hrep : s.repType = .oracle)
    (hs : s.amount = .inf) (hstakes : ∀ t ∈ stakes, IsAmount t.amount) :
    stakeDecision cfg (s :: stakes) bundles = stakeDecision cfg stakes bundles ↔
      Withstands cfg stakes bundles s.side := by
  unfold stakeDecision
  rw [not_triggered_inf hrep hs hstakes]
  cases hside : s.side with
  | dataUnavailable =>
    rw [leaning_dataUnavailable hside]
    unfold Withstands
    dsimp only
    cases isDataUnavailableTriggered cfg stakes with
    | true => exact ⟨fun h _ => h, fun h => h rfl⟩
    | false => exact ⟨fun _ h => Bool.noConfusion h, fun _ => rfl⟩
  | outcome o =>
    rw [leaning_inf hside hrep hs hstakes]
    unfold Withstands
    dsimp only
    cases isDataUnavailableTriggered cfg stakes with
    | true => exact ⟨fun _ _ => rfl, fun _ => rfl⟩
    | false =>
      constructor
      · exact fun h hne => absurd h.symm hne
      · intro h
        by_contra hne
        exact Bool.noConfusion (h fun hnone => hne hnone.symm)

end Outcomes

/-! ## What has to be read -/

/-- An evidence event of the market can be placed in the chain, and its bond can be read. -/
def EvidenceReadable (rt : Runtime) (m : String) (event : Dict) : Prop :=
  (hasType "evidence_submit" event && forMarket m event) = true →
    Stamped rt event ∧
      (nodeId event ≠ none → ∃ bond, amountOf rt (Dict.get (payload event) "bond") = .ok bond)

/-- The event is a stake on the market of a node that is not excluded. -/
def Heard (rt : Runtime) (m : String) (chain : List Dict) (event : Dict) : Prop :=
  (hasType "resolution_stake" event && forMarket m event) = true ∧
    ∃ x excluded, nodeId event = some x ∧ excludedPredictorIds rt m chain = .ok excluded ∧
      x ∉ excluded

/-- The amount of a stake can be read, and if it counts, the stake can be placed in the chain. -/
def StakeReadable (rt : Runtime) (event : Dict) : Prop :=
  ∃ amount, amountOf rt (Dict.get (payload event) "amount") = .ok amount ∧
    ∀ x, amount = some x → x.le (.finite 0) = false → Stamped rt event

/-- The votes on the market have sequences that can be read, and their voters have ages that
    can be. -/
def VotesReadable (rt : Runtime) (m : String) (chain : List Dict) : Prop :=
  ∀ event ∈ chain, ∀ x, nodeId event = some x → castOn m x event = true →
    (∃ seq, sequence rt event = .ok seq) ∧
      ∀ snapshot, findSnapshot rt m chain = .ok (some snapshot) → AgeLegible rt m x chain

/-- The market was created and has evidence, and is decided by votes or by stakes. -/
def DecidedBy (votes : Bool) (env : Env) (cfg : Config) (m : String) (chain : List Dict) : Prop :=
  ∃ create index, createEvent m chain = some create ∧ bootstrapIndex env.rt create = .ok index ∧
    cfg.isBootstrap index = votes ∧ collectEvidence env m chain ≠ .ok []

/-- Everything that the resolution of the market reads can be read. -/
structure Readable (env : Env) (cfg : Config) (m : String) (chain : List Dict) : Prop where
  index : ∀ create, createEvent m chain = some create →
    ∃ index, bootstrapIndex env.rt create = .ok index
  evidence : createEvent m chain ≠ none → ∀ event ∈ chain, EvidenceReadable env.rt m event
  snapshot : createEvent m chain ≠ none → ∃ snapshot, findSnapshot env.rt m chain = .ok snapshot
  stakes : createEvent m chain ≠ none → ∀ event ∈ chain, Heard env.rt m chain event →
    StakeReadable env.rt event
  votes : DecidedBy true env cfg m chain → VotesReadable env.rt m chain

section Reading

variable {rest : String → Dict → Mesh.Verdict} {env : Env} {rt : Runtime} {cfg : Config} {m : String}
  {chain : List PyVal} {event : Dict}

theorem schema_of_mem (hvalid : SchemaValid rest chain) (hevent : event ∈ dicts chain) {t : String}
    (htype : hasType t event = true) :
    Schema.validateInfonetEventPayload rest t (payload event) = .ok () := by
  obtain ⟨v, hv, hdict⟩ := List.mem_filterMap.mp hevent
  obtain ⟨e, t', rfl, htype', hok⟩ := hvalid v hv
  obtain rfl : e = event := by simpa using hdict
  rw [hasType_iff, htype'] at htype
  cases htype
  exact hok

theorem nodeId_eq_some {x : String} :
    nodeId event = some x ↔ Dict.get event "node_id" = .str x ∧ x ≠ "" := by
  unfold nodeId
  cases hnode : Dict.get event "node_id" with
  | str s =>
    dsimp only
    split_ifs with hempty
    · subst hempty
      simp
    · simp only [Option.some.injEq, PyVal.str.injEq]
      constructor
      · rintro rfl
        exact ⟨rfl, hempty⟩
      · exact fun h => h.1
  | none | bool | int | float | list | dict => simp

theorem outcome_of_inStrings {v : PyVal} (h : v.inStrings ["yes", "no"] = true) :
    ∃ o, Outcome.ofVal? v = some o := by
  unfold PyVal.inStrings at h
  simp only [List.any_cons, List.any_nil, Bool.or_false, Bool.or_eq_true] at h
  unfold Outcome.ofVal?
  split
  · exact ⟨_, rfl⟩
  · rename_i hyes
    rw [if_pos (h.resolve_left hyes)]
    exact ⟨_, rfl⟩

/-- What the loop over the evidence relies on. -/
theorem evidence_schema {p : Dict} (h : Schema.validateEvidenceSubmit p = .ok ()) :
    (∃ o, Outcome.ofVal? (Dict.get p "claimed_outcome") = some o) ∧
    (∃ hashes, (Dict.get p "evidence_hashes").or (.list []) = .list hashes) ∧
    ∀ v, hashable ((Dict.get p "evidence_content_hash").or v) = true := by
  unfold Schema.validateEvidenceSubmit at h
  simp only [↓check_bind_eq_ok, require_eq_ok] at h
  obtain ⟨-, houtcome, h⟩ := h
  split at h
  · rename_i x xs hhashes
    obtain ⟨-, h⟩ := check_bind_eq_ok.mp h
    split at h
    · simp only [↓check_bind_eq_ok, require_eq_ok] at h
      refine ⟨outcome_of_inStrings houtcome, ⟨x :: xs, by rw [hhashes]; rfl⟩, fun v => ?_⟩
      have hhash := h.1
      unfold Schema.isNonemptyStr at hhash
      split at hhash
      · rename_i s hs
        rw [hs]
        have hne : s ≠ "" := by
          rintro rfl
          exact absurd hhash (by decide)
        simp [PyVal.or, PyVal.truthy, hne, hashable]
      · cases hhash
    · cases h
  · cases h

theorem exists_visit {scan : EvidenceScan}
    (hschema : Schema.validateEvidenceSubmit (payload event) = .ok ())
    (hstamped : Stamped env.rt event) :
    (∃ scan', EvidenceScan.visit env m scan event = .ok scan') ↔
      (nodeId event ≠ none →
        ∃ bond, amountOf env.rt (Dict.get (payload event) "bond") = .ok bond) := by
  obtain ⟨⟨o, ho⟩, ⟨hashes, hhashes⟩, hhash⟩ := evidence_schema hschema
  obtain ⟨key, hkey⟩ := hstamped
  obtain ⟨hts, hseq, -⟩ := keyed_eq_ok.mp hkey
  unfold EvidenceScan.visit nodeId
  dsimp only
  rw [ho, hhashes]
  cases hnode : Dict.get event "node_id" with
  | str node =>
    dsimp only
    rcases eq_or_ne node "" with rfl | hempty
    · exact ⟨fun _ h => absurd rfl h, fun _ => ⟨scan, rfl⟩⟩
    · simp only [if_neg hempty, hts, hseq, hhash, Bool.not_true, Bool.false_eq_true, if_false]
      cases amountOf env.rt (Dict.get (payload event) "bond") with
      | error e =>
        refine ⟨fun ⟨_, h⟩ => (by cases h), fun h => ?_⟩
        obtain ⟨bond, h⟩ := h (Option.some_ne_none node)
        cases h
      | ok bond => exact ⟨fun _ _ => ⟨bond, rfl⟩, fun _ => ⟨_, rfl⟩⟩
  | none | bool | int | float | list | dict =>
    exact ⟨fun _ h => absurd rfl h, fun _ => ⟨scan, rfl⟩⟩

theorem exists_collectEvidence (hvalid : SchemaValid rest chain) :
    (∃ bundles, collectEvidence env m (dicts chain) = .ok bundles) ↔
      ∀ event ∈ dicts chain, EvidenceReadable env.rt m event := by
  have hschema : ∀ event ∈ (dicts chain).filter
      fun ev => hasType "evidence_submit" ev && forMarket m ev,
      Schema.validateEvidenceSubmit (payload event) = .ok () := by
    intro event hevent
    obtain ⟨hmem, hkind⟩ := List.mem_filter.mp hevent
    exact schema_of_mem hvalid hmem (Bool.and_eq_true_iff.mp hkind).1
  unfold collectEvidence
  constructor
  · rintro ⟨bundles, h⟩ event hevent hkind
    obtain ⟨events, hevents, h⟩ := bind_eq_ok.mp h
    obtain ⟨scan, hscan, -⟩ := bind_eq_ok.mp h
    have hmem : event ∈ (dicts chain).filter
        fun ev => hasType "evidence_submit" ev && forMarket m ev :=
      List.mem_filter.mpr ⟨hevent, hkind⟩
    have hstamped : Stamped env.rt event := ok_of_mapM hevents event hmem
    obtain ⟨hmap, hkeyed⟩ := mapM_keyed hevents
    rw [← hmap] at hmem
    obtain ⟨key, hkey, rfl⟩ := List.mem_map.mp hmem
    obtain ⟨s, s', hvisit⟩ := ok_of_foldlM hscan key ((List.mem_insertionSort _).mpr hkey)
    have hvalidKey := hschema key.2 (List.mem_filter.mpr ⟨hevent, hkind⟩)
    exact ⟨hstamped, (exists_visit hvalidKey hstamped).mp ⟨s', hvisit⟩⟩
  · intro h
    obtain ⟨events, hevents⟩ := exists_mapM fun event
      (hevent : event ∈ (dicts chain).filter
        fun ev => hasType "evidence_submit" ev && forMarket m ev) =>
        (h event (List.mem_filter.mp hevent).1 (List.mem_filter.mp hevent).2).1
    obtain ⟨hmap, -⟩ := mapM_keyed hevents
    obtain ⟨scan, hscan⟩ := @exists_foldlM _ _ _ (fun scan ev => EvidenceScan.visit env m scan ev.2)
      (events.insertionSort fun a b => chainOrder a.1 b.1) (fun key hkey scan => by
        have hmem : key.2 ∈ events.map Prod.snd :=
          List.mem_map_of_mem ((List.mem_insertionSort _).mp hkey)
        rw [hmap] at hmem
        obtain ⟨hevent, hkind⟩ := List.mem_filter.mp hmem
        obtain ⟨hstamped, hbond⟩ := h key.2 hevent hkind
        exact (exists_visit (hschema key.2 hmem) hstamped).mpr hbond) ({} : EvidenceScan)
    rw [hevents]
    simp only [bind, Except.bind]
    rw [hscan]
    exact ⟨_, rfl⟩

/-- What the loop over the stakes relies on. -/
theorem stake_schema {p : Dict} (h : Schema.validateResolutionStake p = .ok ()) :
    (∃ side, Side.ofVal? (Dict.get p "side") = some side) ∧
    Schema.isPositiveNumber (Dict.get p "amount") = true ∧
    ∃ repType, RepType.ofVal? (Dict.get p "rep_type") = some repType := by
  unfold Schema.validateResolutionStake at h
  simp only [↓check_bind_eq_ok, require_eq_ok] at h
  obtain ⟨-, hside, hamount, hrep⟩ := h
  unfold PyVal.inStrings at hside hrep
  simp only [List.any_cons, List.any_nil, Bool.or_false, Bool.or_eq_true] at hside hrep
  refine ⟨?_, hamount, ?_⟩
  · unfold Side.ofVal?
    split
    · exact ⟨_, rfl⟩
    · rename_i hda
      have hvote : (Dict.get p "side").inStrings ["yes", "no"] = true := by
        unfold PyVal.inStrings
        simp only [List.any_cons, List.any_nil, Bool.or_false, Bool.or_eq_true]
        exact hside.imp_right fun h => h.resolve_right hda
      obtain ⟨o, ho⟩ := outcome_of_inStrings hvote
      rw [ho]
      exact ⟨_, rfl⟩
  · unfold RepType.ofVal?
    rcases hrep with horacle | hcommon
    · rw [horacle]
      exact ⟨_, rfl⟩
    · rw [hcommon]
      split <;> exact ⟨_, rfl⟩

/-- A number above zero is read as a finite amount or as infinity. -/
theorem amountOf_positive {v : PyVal} (hv : Schema.isPositiveNumber v = true)
    {amount : Option PyFloat} (h : amountOf rt v = .ok amount) :
    ∃ x, amount = some x ∧ IsAmount x ∧ (finiteFloat rt v = none → x = .inf) := by
  cases v with
  | int n =>
    unfold amountOf pyFloat at h
    unfold finiteFloat pyFloat
    dsimp only at h ⊢
    cases hn : rt.floatOfInt n with
    | none =>
      rw [hn] at h
      cases h
    | some q =>
      rw [hn] at h
      cases h
      exact ⟨.finite q, rfl, Or.inr ⟨q, rfl⟩, fun hnone => by cases hnone⟩
  | float x =>
    cases h
    cases x with
    | finite q => exact ⟨.finite q, rfl, Or.inr ⟨q, rfl⟩, fun hnone => by cases hnone⟩
    | inf => exact ⟨.inf, rfl, Or.inl rfl, fun _ => rfl⟩
    | negZero | negInf | nan => exact absurd hv (by decide)
  | none | bool | str | list | dict => exact Bool.noConfusion hv

/-- The stake that one event adds, where everything can be read. -/
theorem readStake_eq {excluded : List String}
    (hkind : (hasType "resolution_stake" event && forMarket m event) = true) {x : String}
    (hnode : nodeId event = some x) (hx : x ∉ excluded) {side : Side} {repType : RepType}
    (hside : Side.ofVal? (Dict.get (payload event) "side") = some side)
    (hrep : RepType.ofVal? (Dict.get (payload event) "rep_type") = some repType) :
    readStake rt excluded m event = (do
      match ← amountOf rt (Dict.get (payload event) "amount") with
      | none => return none
      | some amount =>
        if amount.le (.finite 0) then return none
        let ts ← timestamp rt event
        let seq ← sequence rt event
        return some { nodeId := x, side, amount, repType, timestamp := ts, sequence := seq }) := by
  obtain ⟨hid, hne⟩ := nodeId_eq_some.mp hnode
  have hheard : ¬ (x = "" ∨ x ∈ excluded) := not_or.mpr ⟨hne, hx⟩
  unfold readStake
  dsimp only
  rw [hkind, hid, hside, hrep]
  exact (if_neg Bool.false_ne_true).trans (if_neg hheard)

theorem readStake_unheard {excluded : List String}
    (h : ¬ ((hasType "resolution_stake" event && forMarket m event) = true ∧
      ∃ x, nodeId event = some x ∧ x ∉ excluded)) : readStake rt excluded m event = .ok none := by
  unfold readStake
  dsimp only
  cases hkind : hasType "resolution_stake" event && forMarket m event with
  | false => rfl
  | true =>
    simp only [Bool.not_true, Bool.false_eq_true, if_false]
    split
    · rename_i x side hid hside
      refine if_pos ?_
      by_contra hout
      obtain ⟨hne, hx⟩ := not_or.mp hout
      exact h ⟨hkind, x, nodeId_eq_some.mpr ⟨hid, hne⟩, hx⟩
    · rfl

theorem exists_readStake {excluded : List String}
    (hschema : hasType "resolution_stake" event = true →
      Schema.validateResolutionStake (payload event) = .ok ()) :
    (∃ o, readStake rt excluded m event = .ok o) ↔
      ((hasType "resolution_stake" event && forMarket m event) = true ∧
        (∃ x, nodeId event = some x ∧ x ∉ excluded) → StakeReadable rt event) := by
  by_cases hheard : (hasType "resolution_stake" event && forMarket m event) = true ∧
      ∃ x, nodeId event = some x ∧ x ∉ excluded
  · obtain ⟨hkind, x, hnode, hx⟩ := id hheard
    have hvalid := hschema (Bool.and_eq_true_iff.mp hkind).1
    obtain ⟨⟨side, hside⟩, hpositive, repType, hrep⟩ := stake_schema hvalid
    rw [readStake_eq hkind hnode hx hside hrep]
    have hiff : (hasType "resolution_stake" event && forMarket m event) = true ∧
        (∃ x, nodeId event = some x ∧ x ∉ excluded) → StakeReadable rt event ↔
          StakeReadable rt event := ⟨fun h => h hheard, fun h _ => h⟩
    rw [hiff]
    unfold StakeReadable
    cases hamount : amountOf rt (Dict.get (payload event) "amount") with
    | error e => exact ⟨fun ⟨_, h⟩ => (by cases h), fun ⟨_, h, _⟩ => (by cases h)⟩
    | ok amount =>
      obtain ⟨a, rfl, -⟩ := amountOf_positive hpositive hamount
      simp only [bind, Except.bind]
      cases hle : a.le (.finite 0) with
      | true =>
        refine ⟨fun _ => ⟨some a, rfl, fun y hy hpos => ?_⟩, fun _ => ⟨none, rfl⟩⟩
        cases hy
        rw [hle] at hpos
        cases hpos
      | false =>
        simp only [Bool.false_eq_true, if_false]
        constructor
        · rintro ⟨o, h⟩
          obtain ⟨ts, hts, h⟩ := bind_eq_ok.mp h
          obtain ⟨seq, hseq, -⟩ := bind_eq_ok.mp h
          exact ⟨some a, rfl, fun _ _ _ => ⟨((ts, seq), event), keyed_eq_ok.mpr ⟨hts, hseq, rfl⟩⟩⟩
        · rintro ⟨amount, hamount', hstamped⟩
          cases hamount'
          obtain ⟨key, hkey⟩ := hstamped a rfl hle
          obtain ⟨hts, hseq, -⟩ := keyed_eq_ok.mp hkey
          rw [hts, hseq]
          exact ⟨_, rfl⟩
  · rw [readStake_unheard hheard]
    exact ⟨fun _ h => absurd h hheard, fun _ => ⟨none, rfl⟩⟩

theorem exists_excluded {chain : List Dict} :
    (∃ excluded, excludedPredictorIds rt m chain = .ok excluded) ↔
      ∃ snapshot, findSnapshot rt m chain = .ok snapshot := by
  unfold excludedPredictorIds
  cases findSnapshot rt m chain with
  | error e => exact ⟨fun ⟨_, h⟩ => (by cases h), fun ⟨_, h⟩ => (by cases h)⟩
  | ok snapshot =>
    refine ⟨fun _ => ⟨snapshot, rfl⟩, fun _ => ?_⟩
    cases snapshot with
    | none => exact ⟨_, rfl⟩
    | some snapshot =>
      simp only [bind, Except.bind]
      split <;> exact ⟨_, rfl⟩

theorem exists_collectResolutionStakes (hvalid : SchemaValid rest chain) :
    (∃ stakes, collectResolutionStakes rt m (dicts chain) = .ok stakes) ↔
      (∃ snapshot, findSnapshot rt m (dicts chain) = .ok snapshot) ∧
      ∀ event ∈ dicts chain, Heard rt m (dicts chain) event → StakeReadable rt event := by
  have hschema : ∀ event ∈ dicts chain, hasType "resolution_stake" event = true →
      Schema.validateResolutionStake (payload event) = .ok () :=
    fun event hevent htype => schema_of_mem hvalid hevent htype
  rw [← exists_excluded]
  unfold collectResolutionStakes Heard
  rw [if_pos rfl]
  cases excludedPredictorIds rt m (dicts chain) with
  | error e => exact ⟨fun ⟨_, h⟩ => (by cases h), fun ⟨⟨_, h⟩, _⟩ => (by cases h)⟩
  | ok excluded =>
    simp only [bind, Except.bind]
    constructor
    · rintro ⟨stakes, h⟩
      obtain ⟨out, hout, -⟩ := bind_eq_ok.mp h
      refine ⟨⟨excluded, rfl⟩, ?_⟩
      rintro event hevent ⟨hkind, x, excluded', hnode, hexcluded, hx⟩
      cases hexcluded
      exact (exists_readStake (hschema event hevent)).mp (ok_of_filterMapM hout event hevent)
        ⟨hkind, x, hnode, hx⟩
    · rintro ⟨-, h⟩
      obtain ⟨out, hout⟩ := exists_filterMapM fun event (hevent : event ∈ dicts chain) =>
        (@exists_readStake rt m event excluded (hschema event hevent)).mpr
          fun ⟨hkind, x, hnode, hx⟩ => h event hevent ⟨hkind, x, excluded, hnode, rfl, hx⟩
      rw [hout]
      exact ⟨_, rfl⟩

theorem readCandidate_of_nodeId (h : nodeId event = none) :
    readCandidate env m event = .ok none := by
  unfold nodeId at h
  unfold readCandidate
  split
  · split
    · rename_i s hs
      rw [hs] at h
      dsimp only at h
      split_ifs at h with hempty
      exact if_pos hempty
    · rfl
  · rfl

theorem exists_eligibleVotes {chain : List Dict}
    (hsnapshot : ∃ snapshot, findSnapshot env.rt m chain = .ok snapshot) :
    (∃ votes, eligibleVotes env cfg m chain = .ok votes) ↔ VotesReadable env.rt m chain := by
  have hvalidate : ∀ x,
      (∃ decision, validateBootstrapEligibility env.rt cfg x m chain = .ok decision) ↔
        ∀ snapshot, findSnapshot env.rt m chain = .ok (some snapshot) →
          AgeLegible env.rt m x chain := by
    intro x
    obtain ⟨snapshot, hfind⟩ := hsnapshot
    cases snapshot with
    | some snapshot =>
      rw [exists_validate hfind]
      exact ⟨fun h _ _ => h, fun h => h snapshot hfind⟩
    | none =>
      refine ⟨fun _ snapshot hsome => ?_, fun _ => ⟨⟨false, "snapshot_missing"⟩, ?_⟩⟩
      · cases hfind.symm.trans hsome
      · unfold validateBootstrapEligibility
        rw [hfind]
        rfl
  constructor
  · rintro ⟨votes, hvotes⟩ event hevent x hnode hcast
    obtain ⟨cs, hcs, hcount⟩ := eligibleVotes_eq_ok.mp hvotes
    obtain ⟨-, hne⟩ := nodeId_eq_some.mp hnode
    obtain ⟨seq, hseq⟩ := (readCandidate_own hne (ownStake_of_castOn hcast)).mp
      (ok_of_filterMapM hcs event hevent) hcast
    obtain ⟨v, hv, hvoter⟩ := exists_mem_ranked
      ((mem_filterMapM hcs).mpr ⟨_, hevent, readCandidate_of_castOn hne hcast hseq⟩)
    have hok := exists_countVote.mp (ok_of_filterMapM hcount v hv)
    rw [hvoter] at hok
    exact ⟨⟨seq, hseq⟩, (hvalidate x).mp hok⟩
  · intro h
    have hread : ∀ event ∈ chain, ∃ o, readCandidate env m event = .ok o := by
      intro event hevent
      cases hnode : nodeId event with
      | none => exact ⟨none, readCandidate_of_nodeId hnode⟩
      | some x =>
        obtain ⟨hid, hne⟩ := nodeId_eq_some.mp hnode
        by_cases hcast : castOn m x event = true
        · exact (readCandidate_own hne (ownStake_of_castOn hcast)).mpr
            fun _ => (h event hevent x hnode hcast).1
        · refine ⟨none, ?_⟩
          unfold readCandidate
          refine if_neg fun hvote => hcast ?_
          unfold castOn
          rw [hvote, eq_str_iff.mpr hid]
          rfl
    obtain ⟨cs, hcs⟩ := exists_filterMapM hread
    obtain ⟨votes, hvotes⟩ : ∃ votes,
        (ranked cs).filterMapM (countVote env cfg m chain) = .ok votes := by
      refine exists_filterMapM fun v hv => exists_countVote.mpr ?_
      obtain ⟨event, hevent, hreadv⟩ := (mem_filterMapM hcs).mp (mem_of_mem_ranked hv)
      have hcast := castOn_of_candidate hreadv
      have hnode := (readCandidate_eq_some hreadv).1
      exact (hvalidate v.nodeId).mpr (h event hevent v.nodeId hnode hcast).2
    exact ⟨votes, eligibleVotes_eq_ok.mpr ⟨cs, hcs, hvotes⟩⟩

/-- The resolution returns where everything it reads can be read. -/
theorem exists_resolveMarket (hvalid : SchemaValid rest chain) {prov : Bool} :
    (∃ result, resolveMarket env cfg m chain prov = .ok result) ↔
      Readable env cfg m (dicts chain) := by
  have hevidence := @exists_collectEvidence rest env m chain hvalid
  have hstakes := @exists_collectResolutionStakes rest env.rt m chain hvalid
  unfold resolveMarket
  dsimp only
  cases hcreate : createEvent m (dicts chain) with
  | none =>
    refine ⟨fun _ => ?_, fun _ => ⟨_, rfl⟩⟩
    refine ⟨fun create h => ?_, fun h => absurd hcreate h, fun h => absurd hcreate h,
      fun h => absurd hcreate h, fun ⟨create, _, h, _⟩ => ?_⟩
    · cases hcreate.symm.trans h
    · cases hcreate.symm.trans h
  | some create =>
    have hsome : createEvent m (dicts chain) ≠ none := by
      rw [hcreate]
      exact Option.some_ne_none create
    dsimp only
    constructor
    · rintro ⟨result, h⟩
      obtain ⟨index, hindex, h⟩ := bind_eq_ok.mp h
      obtain ⟨bundles, hbundles, h⟩ := bind_eq_ok.mp h
      obtain ⟨stakes, hcollected, h⟩ := bind_eq_ok.mp h
      obtain ⟨hsnapshot, hheard⟩ := hstakes.mp ⟨stakes, hcollected⟩
      refine ⟨fun create' h' => ?_, fun _ => hevidence.mp ⟨bundles, hbundles⟩, fun _ => hsnapshot,
        fun _ => hheard, ?_⟩
      · cases hcreate.symm.trans h'
        exact ⟨index, hindex⟩
      · rintro ⟨create', index', hcreate', hindex', hbootstrap, hnonempty⟩
        cases hcreate.symm.trans hcreate'
        cases hindex.symm.trans hindex'
        split_ifs at h with hempty
        · rw [hbundles, List.isEmpty_iff.mp hempty] at hnonempty
          exact absurd rfl hnonempty
        · obtain ⟨votes, hvotes, -⟩ := bind_eq_ok.mp h
          exact (exists_eligibleVotes hsnapshot).mp ⟨votes, hvotes⟩
    · intro h
      obtain ⟨index, hindex⟩ := h.index create hcreate
      obtain ⟨bundles, hbundles⟩ := hevidence.mpr (h.evidence hsome)
      obtain ⟨stakes, hcollected⟩ := hstakes.mpr ⟨h.snapshot hsome, h.stakes hsome⟩
      rw [hindex, hbundles, hcollected]
      simp only [bind, Except.bind]
      split_ifs with hempty hbootstrap
      · exact ⟨_, rfl⟩
      · have hnonempty : collectEvidence env m (dicts chain) ≠ .ok [] := by
          rw [hbundles]
          intro hnil
          cases hnil
          exact hempty rfl
        obtain ⟨votes, hvotes⟩ := (exists_eligibleVotes (h.snapshot hsome)).mpr
          (h.votes ⟨create, index, hcreate, hindex, hbootstrap, hnonempty⟩)
        rw [hvotes]
        exact ⟨_, rfl⟩
      · exact ⟨_, rfl⟩

/-- The stakes of a valid chain have finite or infinite amounts. -/
theorem isAmount_collected (hvalid : SchemaValid rest chain) {stakes : List ResolutionStake}
    (h : collectResolutionStakes rt m (dicts chain) = .ok stakes) :
    ∀ s ∈ stakes, IsAmount s.amount := by
  intro s hs
  unfold collectResolutionStakes at h
  obtain ⟨excluded, -, h⟩ := bind_eq_ok.mp h
  obtain ⟨out, hout, h⟩ := bind_eq_ok.mp h
  obtain rfl := pure_eq_ok.mp h
  obtain ⟨event, hevent, hread⟩ := (mem_filterMapM hout).mp ((List.mem_insertionSort _).mp hs)
  by_cases hheard : (hasType "resolution_stake" event && forMarket m event) = true ∧
      ∃ x, nodeId event = some x ∧ x ∉ excluded
  · obtain ⟨hkind, x, hnode, hx⟩ := hheard
    have hschema : Schema.validateResolutionStake (payload event) = .ok () :=
      schema_of_mem hvalid hevent (Bool.and_eq_true_iff.mp hkind).1
    obtain ⟨⟨side, hside⟩, hpositive, repType, hrep⟩ := stake_schema hschema
    rw [readStake_eq hkind hnode hx hside hrep] at hread
    obtain ⟨amount, hamount, hread⟩ := bind_eq_ok.mp hread
    obtain ⟨a, rfl, ha, -⟩ := amountOf_positive hpositive hamount
    dsimp only at hread
    split_ifs at hread
    · cases hread
    · obtain ⟨ts, -, hread⟩ := bind_eq_ok.mp hread
      obtain ⟨seq, -, hread⟩ := bind_eq_ok.mp hread
      cases hread
      exact ha
  · rw [readStake_unheard hheard] at hread
    cases hread

end Reading

/-! ## A stake of no finite amount -/

/-- With and without the stake the market is decided alike. -/
structure Harmless (env : Env) (cfg : Config) (m : String) (stake : Dict)
    (chain chain' : List Dict) : Prop where
  votes : DecidedBy true env cfg m chain → ∀ bundles votes votes',
    collectEvidence env m chain = .ok bundles → eligibleVotes env cfg m chain = .ok votes →
    eligibleVotes env cfg m chain' = .ok votes' →
    voteDecision cfg bundles votes' = voteDecision cfg bundles votes
  stakes : DecidedBy false env cfg m chain → Heard env.rt m chain stake →
    RepType.ofVal? (Dict.get (payload stake) "rep_type") = some .oracle →
    ∀ bundles stakes side, collectEvidence env m chain = .ok bundles →
      collectResolutionStakes env.rt m chain = .ok stakes →
      Side.ofVal? (Dict.get (payload stake) "side") = some side → Withstands cfg stakes bundles side

section Harm

variable {rest : String → Dict → Mesh.Verdict} {env : Env} {cfg : Config} {m : String}
  {prov : Bool} {pre post : List PyVal} {stake : Dict}

theorem dicts_append (pre post : List PyVal) : dicts (pre ++ post) = dicts pre ++ dicts post :=
  List.filterMap_append

theorem dicts_insert (pre post : List PyVal) (stake : Dict) :
    dicts (pre ++ .dict stake :: post) = dicts pre ++ stake :: dicts post :=
  dicts_append pre (.dict stake :: post)

theorem schemaValid_without (h : SchemaValid rest (pre ++ .dict stake :: post)) :
    SchemaValid rest (pre ++ post) := by
  intro v hv
  refine h v ?_
  rcases List.mem_append.mp hv with hv | hv
  · exact List.mem_append_left _ hv
  · exact List.mem_append_right _ (List.mem_cons_of_mem _ hv)

theorem sameBut_insert (htype : hasType "resolution_stake" stake = true) :
    SameBut (hasType "resolution_stake") (dicts (pre ++ post))
      (dicts (pre ++ .dict stake :: post)) := by
  unfold SameBut
  rw [dicts_append, dicts_insert, List.filter_append, List.filter_append,
    List.filter_cons_of_neg (by simp [htype])]

theorem hidesStakes_type : HidesStakes (hasType "resolution_stake") := fun _ h => Or.inl h

theorem SameBut.floatEvidence {hidden : Dict → Bool} {chain chain' : List Dict}
    (h : SameBut hidden chain chain') (hhidden : HidesStakes hidden) :
    collectEvidence env m chain' = collectEvidence env m chain := by
  unfold collectEvidence
  rw [h.filter fun event hevent =>
    hhidden.shown (Bool.and_eq_true_iff.mp hevent).1 (by decide) (by decide)]

theorem stakes_insert (htype : hasType "resolution_stake" stake = true)
    {stakes stakes' : List ResolutionStake} {excluded : List String}
    (hexcluded : excludedPredictorIds env.rt m (dicts (pre ++ post)) = .ok excluded)
    (h : collectResolutionStakes env.rt m (dicts (pre ++ post)) = .ok stakes)
    (h' : collectResolutionStakes env.rt m (dicts (pre ++ .dict stake :: post)) = .ok stakes') :
    ∃ o, readStake env.rt excluded m stake = .ok o ∧ stakes'.Perm (o.toList ++ stakes) := by
  unfold collectResolutionStakes at h h'
  rw [if_pos rfl, hexcluded] at h
  rw [if_pos rfl, (sameBut_insert htype).excluded hidesStakes_type, hexcluded] at h'
  simp only [bind, Except.bind] at h h'
  obtain ⟨out, hout, h⟩ := bind_eq_ok.mp h
  obtain ⟨out', hout', h'⟩ := bind_eq_ok.mp h'
  cases pure_eq_ok.mp h
  cases pure_eq_ok.mp h'
  rw [dicts_insert] at hout'
  obtain ⟨moved, hmoved, hperm⟩ := filterMapM_perm List.perm_middle hout'
  obtain ⟨o, others, ho, hothers, rfl⟩ := filterMapM_cons_eq_ok.mp hmoved
  rw [dicts_append] at hout
  cases hout.symm.trans hothers
  refine ⟨o, ho, (List.perm_insertionSort _ _).trans (hperm.trans ?_)⟩
  exact (List.perm_insertionSort _ _).symm.append_left _

theorem stakeDecision_insert (hvalid : SchemaValid rest (pre ++ .dict stake :: post))
    (htype : hasType "resolution_stake" stake = true)
    (hbad : finiteFloat env.rt (Dict.get (payload stake) "amount") = none)
    {bundles : List EvidenceBundle} {stakes stakes' : List ResolutionStake}
    (h : collectResolutionStakes env.rt m (dicts (pre ++ post)) = .ok stakes)
    (h' : collectResolutionStakes env.rt m (dicts (pre ++ .dict stake :: post)) = .ok stakes') :
    stakeDecision cfg stakes' bundles = stakeDecision cfg stakes bundles ↔
      (Heard env.rt m (dicts (pre ++ post)) stake →
        RepType.ofVal? (Dict.get (payload stake) "rep_type") = some .oracle →
        ∀ side, Side.ofVal? (Dict.get (payload stake) "side") = some side →
          Withstands cfg stakes bundles side) := by
  have hvalid' := schemaValid_without hvalid
  have hmem : stake ∈ dicts (pre ++ .dict stake :: post) := by
    rw [dicts_insert]
    exact List.mem_append_right _ List.mem_cons_self
  have hschema : Schema.validateResolutionStake (payload stake) = .ok () :=
    schema_of_mem hvalid hmem htype
  obtain ⟨⟨side, hside⟩, hpositive, repType, hrep⟩ := stake_schema hschema
  obtain ⟨excluded, hexcluded, -⟩ := bind_eq_ok.mp h
  obtain ⟨o, ho, hperm⟩ := stakes_insert htype hexcluded h h'
  rw [stakeDecision_perm hperm]
  by_cases hheard : (hasType "resolution_stake" stake && forMarket m stake) = true ∧
      ∃ x, nodeId stake = some x ∧ x ∉ excluded
  · obtain ⟨hkind, x, hnode, hx⟩ := hheard
    rw [readStake_eq hkind hnode hx hside hrep] at ho
    obtain ⟨amount, hamount, ho⟩ := bind_eq_ok.mp ho
    obtain ⟨a, rfl, -, hinf⟩ := amountOf_positive hpositive hamount
    obtain rfl := hinf hbad
    obtain ⟨ts, -, ho⟩ := bind_eq_ok.mp ho
    obtain ⟨seq, -, ho⟩ := bind_eq_ok.mp ho
    cases ho
    have hheard : Heard env.rt m (dicts (pre ++ post)) stake :=
      ⟨hkind, x, excluded, hnode, hexcluded, hx⟩
    rw [hrep]
    cases repType with
    | common =>
      refine ⟨fun _ _ h => (by cases h), fun _ => ?_⟩
      exact stakeDecision_common rfl
    | oracle =>
      refine (stakeDecision_inf rfl rfl (isAmount_collected hvalid' h)).trans ?_
      constructor
      · intro hwithstands _ _ side' hside'
        cases hside.symm.trans hside'
        exact hwithstands
      · exact fun hall => hall hheard rfl side hside
  · rw [readStake_unheard hheard] at ho
    cases ho
    refine ⟨fun _ ⟨hkind, x, excluded', hnode, hexcluded', hx⟩ => ?_, fun _ => rfl⟩
    cases hexcluded.symm.trans hexcluded'
    exact absurd ⟨hkind, x, hnode, hx⟩ hheard

/-- With the stake and without, the outcome is the same exactly where the stake is harmless. -/
theorem outcome_insert (hvalid : SchemaValid rest (pre ++ .dict stake :: post))
    (htype : hasType "resolution_stake" stake = true)
    (hbad : finiteFloat env.rt (Dict.get (payload stake) "amount") = none)
    {result result' : ResolutionResult}
    (h : resolveMarket env cfg m (pre ++ post) prov = .ok result)
    (h' : resolveMarket env cfg m (pre ++ .dict stake :: post) prov = .ok result') :
    result'.outcome = result.outcome ↔
      Harmless env cfg m stake (dicts (pre ++ post)) (dicts (pre ++ .dict stake :: post)) := by
  have hsame := @sameBut_insert pre post stake htype
  unfold resolveMarket at h h'
  dsimp only at h h'
  rw [hsame.createEvent hidesStakes_type, SameBut.floatEvidence hsame hidesStakes_type] at h'
  cases hcreate : createEvent m (dicts (pre ++ post)) with
  | none =>
    rw [hcreate] at h h'
    cases h
    cases h'
    refine ⟨fun _ => ⟨fun ⟨_, _, hsome, _⟩ => ?_, fun ⟨_, _, hsome, _⟩ => ?_⟩, fun _ => rfl⟩
    · cases hcreate.symm.trans hsome
    · cases hcreate.symm.trans hsome
  | some create =>
    rw [hcreate] at h h'
    dsimp only at h h'
    obtain ⟨index, hindex, h⟩ := bind_eq_ok.mp h
    obtain ⟨bundles, hbundles, h⟩ := bind_eq_ok.mp h
    obtain ⟨stakes, hstakes, h⟩ := bind_eq_ok.mp h
    rw [hindex, hbundles] at h'
    simp only [bind, Except.bind] at h'
    obtain ⟨stakes', hstakes', h'⟩ := bind_eq_ok.mp h'
    have hnot : ∀ b, DecidedBy b env cfg m (dicts (pre ++ post)) →
        cfg.isBootstrap index = b ∧ bundles ≠ [] := by
      rintro b ⟨create', index', hcreate', hindex', hb, hnonempty⟩
      cases hcreate.symm.trans hcreate'
      cases hindex.symm.trans hindex'
      refine ⟨hb, ?_⟩
      rintro rfl
      exact hnonempty hbundles
    split_ifs at h h' with hempty hbootstrap
    · cases h
      cases h'
      have hnone := List.isEmpty_iff.mp hempty
      refine ⟨fun _ => ⟨fun hd => ?_, fun hd => ?_⟩, fun _ => rfl⟩
      · exact absurd hnone (hnot true hd).2
      · exact absurd hnone (hnot false hd).2
    · obtain ⟨votes, hvotes, h⟩ := bind_eq_ok.mp h
      obtain ⟨votes', hvotes', h'⟩ := bind_eq_ok.mp h'
      cases pure_eq_ok.mp h
      cases pure_eq_ok.mp h'
      rw [outcome_resolveBootstrap, outcome_resolveBootstrap, toOutcome_inj]
      constructor
      · intro hsameVotes
        refine ⟨fun _ bundles₁ votes₁ votes₂ hb hv hv' => ?_, fun hd => ?_⟩
        · cases hbundles.symm.trans hb
          cases hvotes.symm.trans hv
          cases hvotes'.symm.trans hv'
          exact hsameVotes
        · have hfalse := (hnot false hd).1
          rw [hbootstrap] at hfalse
          cases hfalse
      · intro hharmless
        refine hharmless.votes ⟨create, index, hcreate, hindex, hbootstrap, ?_⟩ bundles votes votes'
          hbundles hvotes hvotes'
        rw [hbundles]
        intro hnil
        cases hnil
        exact hempty rfl
    · cases pure_eq_ok.mp h
      cases pure_eq_ok.mp h'
      rw [outcome_resolveStaked, outcome_resolveStaked, toOutcome_inj,
        stakeDecision_insert hvalid htype hbad hstakes hstakes']
      have hfalse : cfg.isBootstrap index = false := Bool.eq_false_iff.mpr hbootstrap
      constructor
      · intro hwithstands
        refine ⟨fun hd => ?_, fun _ hheard hrep bundles₁ stakes₁ side hb hs hside => ?_⟩
        · exact absurd (hnot true hd).1 hbootstrap
        · cases hbundles.symm.trans hb
          cases hstakes.symm.trans hs
          exact hwithstands hheard hrep side hside
      · intro hharmless hheard hrep side hside
        refine hharmless.stakes ⟨create, index, hcreate, hindex, hfalse, ?_⟩ hheard hrep
          bundles stakes side hbundles hstakes hside
        rw [hbundles]
        intro hnil
        cases hnil
        exact hempty rfl

end Harm

/-- A stake on no of an infinite amount. -/
def infiniteStake (repType : String) : Dict :=
  [("event_type", .str "resolution_stake"), ("node_id", .str "mal"), ("timestamp", .int 1700000009),
    ("sequence", .int 9), ("payload", .dict [("market_id", .str "m1"), ("side", .str "no"),
      ("amount", .float .inf), ("rep_type", .str repType)])]

end Vincent.Economy.FloatResolution
