-- SUMMARY: A chain with yes and no exchanged: what the reputation makes of it.
import Vincent.Economy.MarketViews

/-!
# Yes and no

Exchanging yes and no in a chain exchanges the outcome of every market. The
settlement, the farming count and the last success do not notice. The free mint does:
it takes the probability of yes.
-/

namespace Vincent.Economy

open Vincent.Python Vincent.Check

/-! ## The flipped chain -/

/-- Yes for no and no for yes. -/
def flipSide : PyVal → PyVal
  | .str s => .str (flip s)
  | v => v

/-- `100 - p` for what `float` reads as `p`. -/
def flipProbability (rt : Runtime) (v : PyVal) : PyVal :=
  match pyFloat rt v with
  | .ok x => .float ((PyFloat.finite 100).sub x)
  | .error _ => v

/-- The side and the probability of a placed prediction. -/
def flipPlace (rt : Runtime) (k : String) (v : PyVal) : PyVal :=
  if k = "side" then flipSide v
  else if k = "probability_at_bet" then flipProbability rt v
  else v

/-- The outcome of a finalize. -/
def flipFinalize (k : String) (v : PyVal) : PyVal := if k = "outcome" then flipSide v else v

/-- The probability state of a snapshot. -/
def flipSnapshot (k : String) (v : PyVal) : PyVal :=
  if k = "frozen_probability_state" then
    match v with
    | .dict state => .dict (state.map fun kv => (flip kv.1, kv.2))
    | v => v
  else v

/-- The payload of an event. -/
def flipPayload (rt : Runtime) (event p : Dict) : Dict :=
  if hasType "prediction_place" event then Dict.mapValues (flipPlace rt) p
  else if hasType "resolution_finalize" event then Dict.mapValues flipFinalize p
  else if hasType "market_snapshot" event then Dict.mapValues flipSnapshot p
  else p

def flipEvent (rt : Runtime) (event : Dict) : Dict :=
  Dict.mapValues (fun k v =>
    if k = "payload" then
      match v with
      | .dict p => .dict (flipPayload rt event p)
      | v => v
    else v) event

def flipChain (rt : Runtime) (chain : List PyVal) : List PyVal :=
  chain.map fun
    | .dict event => .dict (flipEvent rt event)
    | v => v

section

variable {rt : Runtime} {cfg : RepConfig} {event : Dict} {events : List Dict} {m nodeId : String}

theorem dicts_flipChain (chain : List PyVal) :
    dicts (flipChain rt chain) = (dicts chain).map (flipEvent rt) := by
  unfold dicts flipChain
  rw [List.filterMap_map, List.map_filterMap]
  apply List.filterMap_congr
  intro v _
  cases v <;> rfl

theorem get_flipEvent {k : String} (hk : k ≠ "payload") :
    Dict.get (flipEvent rt event) k = Dict.get event k := by
  unfold flipEvent
  rw [Dict.get_mapValues (by rw [if_neg hk]), if_neg hk]

theorem payload_flipEvent : payload (flipEvent rt event) = flipPayload rt event (payload event) := by
  have hnil : flipPayload rt event [] = [] := by
    unfold flipPayload
    split_ifs <;> rfl
  have hget : Dict.get (flipEvent rt event) "payload" = match Dict.get event "payload" with
      | .dict p => .dict (flipPayload rt event p)
      | v => v := by
    unfold flipEvent
    rw [Dict.get_mapValues rfl, if_pos rfl]
  unfold payload
  rw [hget]
  cases Dict.get event "payload" <;> first | rfl | exact hnil.symm

@[simp] theorem hasType_flipEvent {t : String} : hasType t (flipEvent rt event) = hasType t event := by
  unfold hasType
  rw [get_flipEvent (by decide)]

theorem get_flipPayload {k : String} {p : Dict}
    (hk : k ∉ ["side", "probability_at_bet", "outcome", "frozen_probability_state"]) :
    Dict.get (flipPayload rt event p) k = Dict.get p k := by
  simp only [List.mem_cons, List.not_mem_nil, or_false, not_or] at hk
  obtain ⟨hside, hprob, houtcome, hstate⟩ := hk
  have hplace : ∀ v, flipPlace rt k v = v := by
    intro v
    rw [flipPlace, if_neg hside, if_neg hprob]
  have hfinalize : ∀ v, flipFinalize k v = v := fun v => if_neg houtcome
  have hsnapshot : ∀ v, flipSnapshot k v = v := fun v => if_neg hstate
  unfold flipPayload
  split_ifs
  · rw [Dict.get_mapValues (hplace _), hplace]
  · rw [Dict.get_mapValues (hfinalize _), hfinalize]
  · rw [Dict.get_mapValues (hsnapshot _), hsnapshot]
  · rfl

theorem flipEvent_other (hplace : hasType "prediction_place" event = false)
    (hfinalize : hasType "resolution_finalize" event = false)
    (hsnapshot : hasType "market_snapshot" event = false) : flipEvent rt event = event := by
  unfold flipEvent
  apply Dict.mapValues_self
  intro k v
  split_ifs
  · cases v with
    | dict p =>
      dsimp only
      rw [flipPayload, hplace, hfinalize, hsnapshot]
      rfl
    | none | bool | int | float | str | list => rfl
  · rfl

theorem flip_flip (s : String) : flip (flip s) = s := by
  unfold flip
  split_ifs <;> simp_all

theorem flip_decided {s : String} (h : s = "yes" ∨ s = "no") : flip s = "yes" ∨ flip s = "no" := by
  rcases h with rfl | rfl
  · exact Or.inr rfl
  · exact Or.inl rfl

theorem flipSide_eq {v : PyVal} {s : String} :
    (flipSide v).eq (.str (flip s)) = v.eq (.str s) := by
  cases v with
  | str t =>
    have hinj : (flip t = flip s) ↔ t = s :=
      ⟨fun h => by rw [← flip_flip t, h, flip_flip], fun h => by rw [h]⟩
    simp only [flipSide, PyVal.eq, beq_eq_decide, hinj]
  | float x => cases x <;> rfl
  | none | bool | int | list | dict => rfl

/-! ## Sorting and disputes -/

theorem keyed_flipEvent : keyed rt (flipEvent rt event) =
    (fun k => (k.1, flipEvent rt event)) <$> keyed rt event := by
  unfold keyed timestamp sequence
  rw [get_flipEvent (by decide), get_flipEvent (by decide)]
  cases pyFloat rt ((Dict.get event "timestamp").or (.float (.finite 0))) with
  | error exn => rfl
  | ok ts =>
    cases pyInt rt ((Dict.get event "sequence").or (.int 0)) <;> rfl

theorem mapM_keyed_flip (events : List Dict) : (events.map (flipEvent rt)).mapM (keyed rt) =
    (List.map fun k => (k.1, flipEvent rt k.2)) <$> events.mapM (keyed rt) := by
  induction events with
  | nil => rfl
  | cons event events ih =>
    rw [List.map_cons, List.mapM_cons, List.mapM_cons, ih, keyed_flipEvent]
    cases hk : keyed rt event with
    | error exn => rfl
    | ok k =>
      obtain ⟨-, -, rfl⟩ := keyed_eq_ok.mp hk
      cases events.mapM (keyed rt) <;> rfl

theorem sortEvents_flip (events : List Dict) : sortEvents rt (events.map (flipEvent rt)) =
    (List.map (flipEvent rt)) <$> sortEvents rt events := by
  unfold sortEvents
  rw [mapM_keyed_flip]
  cases events.mapM (keyed rt) with
  | error exn => rfl
  | ok keys =>
    change Except.ok _ = Except.ok _
    rw [← List.map_insertionSort (fun a b : (PyFloat × Int) × Dict => chainOrder a.1 b.1 = true)
      (fun a b : (PyFloat × Int) × Dict => chainOrder a.1 b.1 = true)
      (fun k => (k.1, flipEvent rt k.2)) keys fun a _ b _ => Iff.rfl]
    rw [List.map_map, List.map_map]
    rfl

theorem collectDisputes_flip :
    collectDisputes rt m (events.map (flipEvent rt)) = collectDisputes rt m events := by
  have hother : ∀ t ∈ ["dispute_open", "dispute_stake", "dispute_resolve"], ∀ event : Dict,
      hasType t event = true → flipEvent rt event = event := by
    intro t ht event htype
    apply flipEvent_other <;> apply hasType_ne htype <;> rintro rfl <;> revert ht <;> decide
  have hopen : ∀ event, readOpen rt m (flipEvent rt event) = readOpen rt m event := by
    intro event
    cases htype : hasType "dispute_open" event with
    | true => rw [hother _ (by decide) event htype]
    | false =>
      unfold readOpen
      rw [hasType_flipEvent, htype]
      rfl
  have hstake : ∀ event, readDisputeStake rt (flipEvent rt event) = readDisputeStake rt event := by
    intro event
    cases htype : hasType "dispute_stake" event with
    | true => rw [hother _ (by decide) event htype]
    | false =>
      unfold readDisputeStake
      rw [hasType_flipEvent, htype]
      rfl
  have hresolve : ∀ event, readResolve rt (flipEvent rt event) = readResolve rt event := by
    intro event
    cases htype : hasType "dispute_resolve" event with
    | true => rw [hother _ (by decide) event htype]
    | false =>
      unfold readResolve
      rw [hasType_flipEvent, htype]
      rfl
  simp only [collectDisputes, disputeTable, openedDisputes, List.filterMap_map,
    Function.comp_def, hopen, hstake, hresolve]

theorem effectiveOutcome_decided {original : String} (h : original = "yes" ∨ original = "no") :
    effectiveOutcome rt original m events = "yes" ∨ effectiveOutcome rt original m events = "no" := by
  unfold effectiveOutcome
  rw [if_pos h]
  generalize collectDisputes rt m events = ds
  induction ds generalizing original with
  | nil => exact h
  | cons d ds ih =>
    rw [List.foldl_cons]
    split
    · exact ih (flip_decided h)
    · exact ih h

/-- The disputes flip the flipped outcome as they flip the outcome. -/
theorem effectiveOutcome_flip {original : String} (h : original = "yes" ∨ original = "no") :
    effectiveOutcome rt (flip original) m (events.map (flipEvent rt)) =
      flip (effectiveOutcome rt original m events) := by
  unfold effectiveOutcome
  rw [if_pos h, if_pos (flip_decided h), collectDisputes_flip]
  generalize collectDisputes rt m events = ds
  induction ds generalizing original with
  | nil => rfl
  | cons d ds ih =>
    rw [List.foldl_cons, List.foldl_cons]
    split
    · exact ih (flip_decided h)
    · exact ih h

/-! ## Probabilities -/

theorem probability_flip (v : PyVal) : probability rt (flipProbability rt v) =
    (Option.map fun q => 100 - q) <$> probability rt v := by
  unfold flipProbability
  cases hread : pyFloat rt v with
  | error exn =>
    dsimp only
    unfold probability
    split
    · rfl
    · rw [hread]
      simp only [Functor.map, Except.map, catching]
      split_ifs <;> rfl
  | ok x =>
    have hrange : ∀ y : PyFloat, probability rt (.float y) =
        .ok (y.rat?.filter fun q => 0 ≤ q ∧ q ≤ 100) := fun _ => rfl
    have hv : probability rt v = .ok (x.rat?.filter fun q => 0 ≤ q ∧ q ≤ 100) := by
      unfold probability
      split
      · cases hread
      · rw [hread]
        rfl
    have hsub : ((PyFloat.finite 100).sub x).rat? = x.rat?.map fun q => 100 - q := by
      cases x <;> simp [PyFloat.sub, PyFloat.neg, PyFloat.add, PyFloat.rat?, sub_eq_add_neg]
    dsimp only
    rw [hrange, hv, hsub]
    cases x.rat? with
    | none => rfl
    | some q =>
      have hiff : (0 ≤ 100 - q ∧ 100 - q ≤ 100) ↔ (0 ≤ q ∧ q ≤ 100) := by
        constructor <;> rintro ⟨h, h'⟩ <;> constructor <;> linarith
      simp only [Option.map_some, Option.filter_some, hiff, Functor.map, Except.map]
      split_ifs <;> rfl

/-- The probability of the picked side is the same. -/
theorem pickedSideProbability_flip (p : Dict) :
    pickedSideProbability rt (Dict.mapValues (flipPlace rt) p) = pickedSideProbability rt p := by
  have hside : Dict.get (Dict.mapValues (flipPlace rt) p) "side" = flipSide (Dict.get p "side") :=
    Dict.get_mapValues rfl
  have hprob : Dict.get (Dict.mapValues (flipPlace rt) p) "probability_at_bet" =
      flipProbability rt (Dict.get p "probability_at_bet") := Dict.get_mapValues rfl
  have hno : ∀ v : PyVal, (flipSide v).eq (.str "no") = v.eq (.str "yes") := fun v =>
    @flipSide_eq v "yes"
  have hyes : ∀ v : PyVal, (flipSide v).eq (.str "yes") = v.eq (.str "no") := fun v =>
    @flipSide_eq v "no"
  unfold pickedSideProbability
  rw [hside, hprob, probability_flip]
  simp only [PyVal.inStrings, List.any_cons, List.any_nil, Bool.or_false, hno, hyes]
  generalize Dict.get p "side" = side
  cases hy : side.eq (.str "yes") with
  | true =>
    have hn : side.eq (.str "no") = false := by
      cases side with
      | str s =>
        obtain rfl : s = "yes" := by simpa [PyVal.eq] using hy
        rfl
      | float x => cases x <;> cases hy
      | none | bool | int | list | dict => cases hy
    rw [hn]
    cases probability rt (Dict.get p "probability_at_bet") with
    | error exn => rfl
    | ok prob => cases prob <;> simp [Functor.map, Except.map, bind, Except.bind, pure, Except.pure]
  | false =>
    cases hn : side.eq (.str "no") with
    | true =>
      cases probability rt (Dict.get p "probability_at_bet") with
      | error exn => rfl
      | ok prob => cases prob <;> rfl
    | false => rfl

theorem farmingCount_flip (count : FarmingCount) :
    count.add rt cfg nodeId (flipEvent rt event) = count.add rt cfg nodeId event := by
  unfold FarmingCount.add
  rw [hasType_flipEvent, get_flipEvent (by decide), payload_flipEvent]
  cases hplace : hasType "prediction_place" event with
  | false => rfl
  | true =>
    have hpayload : flipPayload rt event (payload event) =
        Dict.mapValues (flipPlace rt) (payload event) := if_pos hplace
    rw [hpayload, pickedSideProbability_flip]

theorem computeFarmingPct_flip : computeFarmingPct rt cfg nodeId (events.map (flipEvent rt)) =
    computeFarmingPct rt cfg nodeId events := by
  unfold computeFarmingPct
  rw [List.foldlM_map]
  simp only [farmingCount_flip]

/-! ## Views -/

def Prediction.flip (rt : Runtime) (pred : Prediction) : Prediction :=
  { pred with side := flipSide pred.side,
              probabilityAtBet := flipProbability rt pred.probabilityAtBet }

def MarketView.flip (rt : Runtime) (view : MarketView) : MarketView :=
  { view with snapshot := view.snapshot.map (Dict.mapValues flipSnapshot),
              finalize := view.finalize.map (Dict.mapValues flipFinalize),
              predictions := view.predictions.map (Prediction.flip rt) }

theorem marketKey_flip : marketKey (flipEvent rt event) = marketKey event := by
  unfold marketKey
  rw [payload_flipEvent, get_flipPayload (by decide)]

theorem readPrediction_flip (h : hasType "prediction_place" event = true) :
    readPrediction (flipEvent rt event) = (readPrediction event).flip rt := by
  have hpayload : payload (flipEvent rt event) = Dict.mapValues (flipPlace rt) (payload event) := by
    rw [payload_flipEvent]
    exact if_pos h
  have hside : Dict.get (Dict.mapValues (flipPlace rt) (payload event)) "side" =
      flipSide (Dict.get (payload event) "side") := Dict.get_mapValues rfl
  have hstake : Dict.get (Dict.mapValues (flipPlace rt) (payload event)) "stake_amount" =
      Dict.get (payload event) "stake_amount" := Dict.get_mapValues rfl
  have hprob : Dict.get (Dict.mapValues (flipPlace rt) (payload event)) "probability_at_bet" =
      flipProbability rt (Dict.get (payload event) "probability_at_bet") := Dict.get_mapValues rfl
  unfold readPrediction
  dsimp only
  rw [hpayload, hside, hstake, hprob, get_flipEvent (by decide), get_flipEvent (by decide)]
  rfl

theorem read_flip (view : MarketView) :
    (view.flip rt).read rt (flipEvent rt event) = (view.read rt event).flip rt := by
  have htype : ∀ {t}, hasType t event = true → hasType t (flipEvent rt event) = true := by
    intro t h
    rw [hasType_flipEvent, h]
  cases hcreate : hasType "prediction_create" event with
  | true =>
    rw [MarketView.read_create hcreate, MarketView.read_create (htype hcreate), payload_flipEvent,
      get_flipPayload (by decide)]
    rfl
  | false =>
    cases hsnapshot : hasType "market_snapshot" event with
    | true =>
      have hpayload : flipPayload rt event (payload event) =
          Dict.mapValues flipSnapshot (payload event) := by
        rw [flipPayload, hsnapshot, hasType_ne hsnapshot (by decide), hasType_ne hsnapshot (by decide)]
        rfl
      rw [MarketView.read_snapshot hsnapshot, MarketView.read_snapshot (htype hsnapshot),
        payload_flipEvent, hpayload]
      rfl
    | false =>
      cases hfinalize : hasType "resolution_finalize" event with
      | true =>
        have hpayload : flipPayload rt event (payload event) =
            Dict.mapValues flipFinalize (payload event) := by
          rw [flipPayload, hfinalize, hasType_ne hfinalize (by decide)]
          rfl
        have hts : timestamp rt (flipEvent rt event) = timestamp rt event := by
          unfold timestamp
          rw [get_flipEvent (by decide)]
        rw [MarketView.read_finalize hfinalize, MarketView.read_finalize (htype hfinalize),
          payload_flipEvent, hpayload, hts]
        rfl
      | false =>
        cases hplace : hasType "prediction_place" event with
        | true =>
          rw [MarketView.read_place hplace, MarketView.read_place (htype hplace),
            readPrediction_flip hplace]
          simp [MarketView.flip]
        | false =>
          unfold MarketView.read
          simp only [hasType_flipEvent, hcreate, hsnapshot, hfinalize, hplace]
          rfl

theorem marketViews_flip : marketViews rt (events.map (flipEvent rt)) =
    OrderedMap.mapValues (MarketView.flip rt) (marketViews rt events) := by
  unfold marketViews
  refine OrderedMap.fold_mapValues (h := flipEvent rt) (m := []) (fun _ => marketKey_flip) ?_ events
  intro event held
  rw [marketKey_flip]
  cases held with
  | none => exact read_flip { marketId := (marketKey event).getD "" }
  | some view => exact read_flip view

theorem readBootstrapIndex_flip :
    readBootstrapIndex rt (flipEvent rt event) = readBootstrapIndex rt event := by
  unfold readBootstrapIndex
  rw [marketKey_flip, payload_flipEvent, get_flipPayload (by decide), hasType_flipEvent]

theorem forM_readBootstrapIndex_flip : forM (events.map (flipEvent rt)) (readBootstrapIndex rt) =
    forM events (readBootstrapIndex rt) := by
  induction events with
  | nil => rfl
  | cons event events ih =>
    rw [List.map_cons, List.forM_cons, List.forM_cons, readBootstrapIndex_flip, ih]

theorem indexMarkets_flip : indexMarkets rt (events.map (flipEvent rt)) =
    (List.map (MarketView.flip rt)) <$> indexMarkets rt events := by
  unfold indexMarkets
  rw [List.forM_eq_forM, forM_readBootstrapIndex_flip, marketViews_flip,
    OrderedMap.values_mapValues]
  cases forM events (readBootstrapIndex rt) <;> rfl

theorem finalOutcome_flip (p : Dict) :
    finalOutcome (Dict.mapValues flipFinalize p) = (finalOutcome p).map flip := by
  have hprovisional : Dict.get (Dict.mapValues flipFinalize p) "is_provisional" =
      Dict.get p "is_provisional" := Dict.get_mapValues rfl
  have houtcome : Dict.get (Dict.mapValues flipFinalize p) "outcome" =
      flipSide (Dict.get p "outcome") := Dict.get_mapValues rfl
  unfold finalOutcome
  rw [hprovisional, houtcome]
  cases Dict.get p "is_provisional" with
  | bool b =>
    cases b with
    | true => rfl
    | false =>
      cases Dict.get p "outcome" with
      | str s =>
        have hiff : (flip s = "yes" ∨ flip s = "no") ↔ (s = "yes" ∨ s = "no") :=
          ⟨fun h => by rw [← flip_flip s]; exact flip_decided h, flip_decided⟩
        simp only [flipSide, hiff]
        split_ifs <;> rfl
      | none | bool | int | float | list | dict => rfl
  | none | int | float | str | list | dict => rfl

theorem mintableOutcome_flip (view : MarketView) : mintableOutcome rt cfg (view.flip rt) =
    (Option.map flip) <$> mintableOutcome rt cfg view := by
  have hliquid : marketPassesLiquidity rt cfg (view.flip rt) = marketPassesLiquidity rt cfg view := by
    unfold marketPassesLiquidity MarketView.flip
    cases view.snapshot with
    | none => rfl
    | some snap =>
      have hcount : Dict.get (Dict.mapValues flipSnapshot snap) "frozen_participant_count" =
          Dict.get snap "frozen_participant_count" := Dict.get_mapValues rfl
      have hstake : Dict.get (Dict.mapValues flipSnapshot snap) "frozen_total_stake" =
          Dict.get snap "frozen_total_stake" := Dict.get_mapValues rfl
      simp only [Option.map_some, Option.getD_some, hcount, hstake]
  have hfinal : (view.flip rt).finalize.bind finalOutcome =
      (view.finalize.bind finalOutcome).map flip := by
    unfold MarketView.flip
    cases view.finalize with
    | none => rfl
    | some p => exact finalOutcome_flip p
  unfold mintableOutcome
  rw [hliquid, hfinal]
  cases view.finalize.bind finalOutcome with
  | none => rfl
  | some outcome =>
    dsimp only [Option.map_some]
    have htype : (view.flip rt).marketType = view.marketType := rfl
    rw [htype]
    split_ifs
    · rfl
    · cases marketPassesLiquidity rt cfg view with
      | error exn => rfl
      | ok liquid => cases liquid <;> rfl

theorem mintableOutcome_decided {view : MarketView} {original : String}
    (h : mintableOutcome rt cfg view = .ok (some original)) :
    original = "yes" ∨ original = "no" := by
  unfold mintableOutcome at h
  cases hfinal : view.finalize.bind finalOutcome with
  | none =>
    rw [hfinal] at h
    cases h
  | some outcome =>
    rw [hfinal] at h
    have hdecided : outcome = "yes" ∨ outcome = "no" := by
      obtain ⟨p, -, hp⟩ := Option.bind_eq_some_iff.mp hfinal
      unfold finalOutcome at hp
      split at hp
      · split_ifs at hp with hin
        cases hp
        exact hin
      · cases hp
    dsimp only at h
    split_ifs at h
    · cases h
    · obtain ⟨liquid, -, h⟩ := bind_eq_ok.mp h
      have h := pure_eq_ok.mp h
      split_ifs at h
      cases h
      exact hdecided

/-! ## Credits -/

section

variable {outcome : String} {ps : List Prediction} {pred : Prediction} {mult : ℚ}

theorem losingSide_flip (h : outcome = "yes" ∨ outcome = "no") :
    losingSide (flip outcome) = flip (losingSide outcome) := by
  rcases h with rfl | rfl <;> rfl

theorem stakedPredSettlement_flip (h : outcome = "yes" ∨ outcome = "no") (stake side : PyVal) :
    stakedPredSettlement rt stake (flipSide side) (flip outcome) (ps.map (Prediction.flip rt)) =
      stakedPredSettlement rt stake side outcome ps := by
  have hpools : ∀ (pools : Pools) (pred : Prediction),
      pools.add rt (flip outcome) (pred.flip rt) = pools.add rt outcome pred := by
    intro pools pred
    have hstake : stakeOf rt (pred.flip rt) = stakeOf rt pred := rfl
    have hside : (pred.flip rt).side = flipSide pred.side := rfl
    unfold Pools.add
    simp only [hstake, hside, losingSide_flip h, flipSide_eq]
  unfold stakedPredSettlement
  rw [List.foldlM_map]
  simp only [hpools, losingSide_flip h, flipSide_eq]

/-- Where a free pick mints the same at what is left to 100, its credit is the same. -/
theorem credit_flip (h : outcome = "yes" ∨ outcome = "no")
    (hmint : pred.nodeId.eq (.str nodeId) = true → pred.Mints rt outcome →
      ∀ q, probability rt pred.probabilityAtBet = .ok (some q) → mintAt cfg (100 - q) = mintAt cfg q)
    (earned : Earned) :
    earned.credit rt cfg nodeId mult (flip outcome) (ps.map (Prediction.flip rt)) (pred.flip rt) =
      earned.credit rt cfg nodeId mult outcome ps pred := by
  have hnode : (pred.flip rt).nodeId = pred.nodeId := rfl
  have hstake : (pred.flip rt).stakeAmount = pred.stakeAmount := rfl
  have hside : (pred.flip rt).side = flipSide pred.side := rfl
  have hprob : (pred.flip rt).probabilityAtBet = flipProbability rt pred.probabilityAtBet := rfl
  unfold Earned.credit
  rw [hnode, hstake, hside, hprob]
  simp only [stakedPredSettlement_flip h, flipSide_eq]
  cases hauthor : pred.nodeId.eq (.str nodeId) with
  | false => rfl
  | true =>
    cases hfree : pred.stakeAmount with
    | none =>
      cases hwins : pred.side.eq (.str outcome) with
      | false => rfl
      | true =>
        have hsame : freePredMint rt cfg (flipProbability rt pred.probabilityAtBet) =
            freePredMint rt cfg pred.probabilityAtBet := by
          unfold freePredMint
          rw [probability_flip]
          cases hread : probability rt pred.probabilityAtBet with
          | error exn => rfl
          | ok prob =>
            cases prob with
            | none => rfl
            | some q =>
              have hmints : pred.Mints rt outcome := ⟨hfree, hwins, by rw [hread]; simp⟩
              have hq := hmint hauthor hmints q hread
              simp [Functor.map, Except.map, bind, Except.bind, pure, Except.pure, hq]
        simp only [hsame]
    | bool | int | float | str | list | dict => rfl

theorem visitSuccess_flip (finalizeTs : PyFloat) (best : Option PyFloat) :
    visitSuccess rt nodeId (flip outcome) finalizeTs best (pred.flip rt) =
      visitSuccess rt nodeId outcome finalizeTs best pred := by
  have hnode : (pred.flip rt).nodeId = pred.nodeId := rfl
  have hside : (pred.flip rt).side = flipSide pred.side := rfl
  have hts : (pred.flip rt).timestamp = pred.timestamp := rfl
  unfold visitSuccess
  rw [hnode, hside, hts, flipSide_eq]

end

/-! ## Reputation -/

/-- Every free pick that mints does so at a probability that mints like the rest to 100. -/
def MintsAlike (rt : Runtime) (cfg : RepConfig) (nodeId : String) (chain : List Dict) : Prop :=
  ∀ events m outcome, sortEvents rt chain = .ok events →
    payingOutcome rt cfg m events = .ok (some outcome) →
      ∀ pred ∈ (marketView rt m events).predictions, pred.nodeId.eq (.str nodeId) = true →
        pred.Mints rt outcome → ∀ q, probability rt pred.probabilityAtBet = .ok (some q) →
          mintAt cfg (100 - q) = mintAt cfg q

theorem creditMarket_flip {view : MarketView} {mult : ℚ}
    (hmint : ∀ original, mintableOutcome rt cfg view = .ok (some original) →
      ∀ pred ∈ view.predictions, pred.nodeId.eq (.str nodeId) = true →
        pred.Mints rt (effectiveOutcome rt original view.marketId events) →
          ∀ q, probability rt pred.probabilityAtBet = .ok (some q) →
            mintAt cfg (100 - q) = mintAt cfg q) (earned : Earned) :
    earned.creditMarket rt cfg nodeId mult (events.map (flipEvent rt)) (view.flip rt) =
      earned.creditMarket rt cfg nodeId mult events view := by
  unfold Earned.creditMarket
  rw [mintableOutcome_flip]
  cases horiginal : mintableOutcome rt cfg view with
  | error exn => rfl
  | ok original =>
    cases original with
    | none => rfl
    | some original =>
      have hdecided := mintableOutcome_decided horiginal
      have hpreds : (view.flip rt).predictions = view.predictions.map (Prediction.flip rt) := rfl
      have hid : (view.flip rt).marketId = view.marketId := rfl
      simp only [Functor.map, Except.map, Option.map_some, bind, Except.bind]
      rw [hpreds, hid, effectiveOutcome_flip hdecided, List.foldlM_map]
      apply foldlM_congr
      intro pred hpred earned
      exact credit_flip (effectiveOutcome_decided hdecided) (hmint original horiginal pred hpred) _

theorem visitMarketSuccess_flip {view : MarketView} (best : Option PyFloat) :
    visitMarketSuccess rt cfg nodeId (events.map (flipEvent rt)) best (view.flip rt) =
      visitMarketSuccess rt cfg nodeId events best view := by
  unfold visitMarketSuccess
  rw [mintableOutcome_flip]
  cases horiginal : mintableOutcome rt cfg view with
  | error exn => rfl
  | ok original =>
    cases original with
    | none => rfl
    | some original =>
      have hdecided := mintableOutcome_decided horiginal
      have hpreds : (view.flip rt).predictions = view.predictions.map (Prediction.flip rt) := rfl
      have hid : (view.flip rt).marketId = view.marketId := rfl
      have hts : (view.flip rt).finalizeTs = view.finalizeTs := rfl
      simp only [Functor.map, Except.map, Option.map_some, bind, Except.bind]
      rw [hpreds, hid, hts, effectiveOutcome_flip hdecided, List.foldlM_map]
      simp only [visitSuccess_flip]

theorem breakdownOf_flip {chain : List Dict} (hsorted : sortEvents rt chain = .ok events)
    (hmint : MintsAlike rt cfg nodeId chain) :
    breakdownOf rt cfg nodeId (events.map (flipEvent rt)) = breakdownOf rt cfg nodeId events := by
  unfold breakdownOf
  rw [indexMarkets_flip, computeFarmingPct_flip]
  cases hindex : indexMarkets rt events with
  | error exn => rfl
  | ok markets =>
    simp only [Functor.map, Except.map, bind, Except.bind]
    cases computeFarmingPct rt cfg nodeId events with
    | error exn => rfl
    | ok pct =>
      dsimp only
      rw [List.foldlM_map]
      have hcredit : ∀ view ∈ markets, ∀ earned : Earned,
          earned.creditMarket rt cfg nodeId (farmingMultiplier cfg pct)
            (events.map (flipEvent rt)) (view.flip rt) =
          earned.creditMarket rt cfg nodeId (farmingMultiplier cfg pct) events view := by
        intro view hview earned
        obtain ⟨-, -, hvalues⟩ := bind_eq_ok.mp hindex
        obtain rfl := pure_eq_ok.mp hvalues
        have heq := marketViews_values hview
        apply creditMarket_flip
        intro original horiginal pred hpred
        apply hmint events view.marketId _ hsorted
        · unfold payingOutcome
          rw [← heq, horiginal]
          rfl
        · rw [← heq]
          exact hpred
      rw [foldlM_congr hcredit]

/-- Exchanging yes and no leaves the last success of a node as it is, and its reputation too
    where its free picks mint alike on both sides. -/
theorem reputation_flip (rt : Runtime) (cfg : RepConfig) (nodeId : String) (chain : List PyVal)
    (hmint : MintsAlike rt cfg nodeId (dicts chain)) :
    computeOracleRep rt cfg nodeId (dicts (flipChain rt chain)) =
        computeOracleRep rt cfg nodeId (dicts chain) ∧
      lastSuccessfulPredictionTs rt cfg nodeId (dicts (flipChain rt chain)) =
        lastSuccessfulPredictionTs rt cfg nodeId (dicts chain) := by
  rw [dicts_flipChain]
  unfold computeOracleRep computeOracleRepBreakdown lastSuccessfulPredictionTs
  rw [sortEvents_flip]
  cases hsorted : sortEvents rt (dicts chain) with
  | error exn => exact ⟨rfl, rfl⟩
  | ok events =>
    simp only [Functor.map, Except.map, bind, Except.bind]
    refine ⟨by rw [breakdownOf_flip hsorted hmint], ?_⟩
    unfold lastSuccessOf
    rw [indexMarkets_flip]
    cases indexMarkets rt events with
    | error exn => rfl
    | ok markets =>
      simp only [Functor.map, Except.map, bind, Except.bind]
      rw [List.foldlM_map]
      simp only [visitMarketSuccess_flip]

end

/-! ## The mint of a pick of no -/

theorem reputation_flip_sample :
    computeOracleRep asciiRuntime {} "bob" (dicts (flipChain asciiRuntime
        (finalizedMarket [placeEvent "bob" 2 "yes" 50 .none]))) =
      computeOracleRep asciiRuntime {} "bob"
        (dicts (finalizedMarket [placeEvent "bob" 2 "yes" 50 .none])) ∧
    lastSuccessfulPredictionTs asciiRuntime {} "bob" (dicts (flipChain asciiRuntime
        (finalizedMarket [placeEvent "bob" 2 "yes" 50 .none]))) =
      lastSuccessfulPredictionTs asciiRuntime {} "bob"
        (dicts (finalizedMarket [placeEvent "bob" 2 "yes" 50 .none])) := by
  apply reputation_flip
  intro events m outcome hsorted _ pred hpred _ _ q hq
  have hprobs : okAnd (sortEvents asciiRuntime (dicts (finalizedMarket
      [placeEvent "bob" 2 "yes" 50 .none]))) (fun events => events.all fun event =>
        probability asciiRuntime (readPrediction event).probabilityAtBet ∈
          [.ok none, .ok (some 50)]) = true := by decide +kernel
  obtain ⟨chainEvents, hchain, hprobs⟩ := okAnd_iff.mp hprobs
  cases hsorted.symm.trans hchain
  obtain ⟨event, hevent, -, rfl⟩ := mem_predictions hpred
  have hprob := List.all_eq_true.mp hprobs event hevent
  rw [hq] at hprob
  have hfifty : q = 50 := by simpa using hprob
  subst hfifty
  norm_num

/-- A free pick of yes at 80 mints a fifth; with yes and no exchanged, the same pick mints four
    fifths. -/
theorem not_reputation_flip :
    ¬ (computeOracleRep asciiRuntime {} "bob" (dicts (flipChain asciiRuntime
        (finalizedMarket [placeEvent "bob" 2 "yes" 80 .none]))) =
      computeOracleRep asciiRuntime {} "bob"
        (dicts (finalizedMarket [placeEvent "bob" 2 "yes" 80 .none])) ∧
    lastSuccessfulPredictionTs asciiRuntime {} "bob" (dicts (flipChain asciiRuntime
        (finalizedMarket [placeEvent "bob" 2 "yes" 80 .none]))) =
      lastSuccessfulPredictionTs asciiRuntime {} "bob"
        (dicts (finalizedMarket [placeEvent "bob" 2 "yes" 80 .none]))) := by
  intro h
  have hrep := h.1
  revert hrep
  decide +kernel

end Vincent.Economy
