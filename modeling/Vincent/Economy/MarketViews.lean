-- SUMMARY: The view of one market of a chain, and what an inserted event can change.
import Vincent.Economy.Reputation

/-!
# Views of markets

A market of the index is what its own events make of it, in sorted order. An inserted
event is seen by the view of its market, by the farming count if it is a prediction,
and by the disputes if it is about one.
-/

namespace Vincent.Economy

open Vincent.Python Vincent.Check

section

variable {rt : Runtime} {cfg : RepConfig} {pre post events : List Dict} {e : Dict} {m : String}

/-- The events of the market, in the order of the list. -/
def marketEvents (m : String) (events : List Dict) : List Dict :=
  events.filter fun event => marketKey event = some m

/-- The view of the market. -/
def marketView (rt : Runtime) (m : String) (events : List Dict) : MarketView :=
  (marketEvents m events).foldl (fun view event => view.read rt event) { marketId := m }

theorem MarketView.read_create (h : hasType "prediction_create" e = true) (view : MarketView) :
    view.read rt e = { view with
      marketType := ((Dict.get (payload e) "market_type").or (.str "objective")).toStr rt } := by
  unfold MarketView.read
  rw [h]
  rfl

theorem MarketView.read_snapshot (h : hasType "market_snapshot" e = true) (view : MarketView) :
    view.read rt e = { view with snapshot := some (payload e) } := by
  unfold MarketView.read
  rw [hasType_ne h (show "market_snapshot" ≠ "prediction_create" by decide), h]
  rfl

theorem MarketView.read_finalize (h : hasType "resolution_finalize" e = true) (view : MarketView) :
    view.read rt e = { view with
      finalize := some (payload e)
      finalizeTs := (timestamp rt e).toOption.getD (.finite 0) } := by
  unfold MarketView.read
  rw [hasType_ne h (show "resolution_finalize" ≠ "prediction_create" by decide),
    hasType_ne h (show "resolution_finalize" ≠ "market_snapshot" by decide), h]
  rfl

theorem MarketView.read_place (h : hasType "prediction_place" e = true) (view : MarketView) :
    view.read rt e = { view with predictions := view.predictions ++ [readPrediction e] } := by
  unfold MarketView.read
  rw [hasType_ne h (show "prediction_place" ≠ "prediction_create" by decide),
    hasType_ne h (show "prediction_place" ≠ "market_snapshot" by decide),
    hasType_ne h (show "prediction_place" ≠ "resolution_finalize" by decide), h]
  rfl

theorem foldl_view {es : List Dict} (hes : ∀ event ∈ es, marketKey event = some m)
    (view : MarketView) :
    es.foldl (fun held event => some ((held.getD { marketId := (marketKey event).getD "" }).read rt
      event)) (some view) = some (es.foldl (fun view event => view.read rt event) view) := by
  induction es generalizing view with
  | nil => rfl
  | cons event es ih => exact ih (fun x hx => hes x (List.mem_cons_of_mem _ hx)) _

theorem marketViews_lookup : (marketViews rt events).lookup m =
    if marketEvents m events = [] then none else some (marketView rt m events) := by
  unfold marketViews marketView marketEvents
  rw [OrderedMap.lookup_fold]
  have hkeys : ∀ event ∈ events.filter (fun event => marketKey event = some m),
      marketKey event = some m := by
    intro event hevent
    simpa using (List.mem_filter.mp hevent).2
  generalize events.filter (fun event => marketKey event = some m) = es at hkeys
  cases es with
  | nil => rfl
  | cons event es =>
    rw [if_neg (List.cons_ne_nil _ _), List.foldl_cons, List.foldl_cons]
    dsimp only [List.lookup_nil, Option.getD_none]
    rw [hkeys event List.mem_cons_self]
    exact foldl_view (fun x hx => hkeys x (List.mem_cons_of_mem _ hx)) _

theorem marketViews_distinct : (marketViews rt events).Distinct :=
  OrderedMap.Distinct.fold _ OrderedMap.distinct_nil

theorem marketView_marketId : (marketView rt m events).marketId = m := by
  unfold marketView
  have hread : ∀ (es : List Dict) (view : MarketView),
      (es.foldl (fun view event => view.read rt event) view).marketId = view.marketId := by
    intro es
    induction es with
    | nil => exact fun view => rfl
    | cons event es ih =>
      intro view
      rw [List.foldl_cons, ih]
      unfold MarketView.read
      dsimp only
      split_ifs <;> rfl
  exact hread _ _

/-- The predictions of a view are read from events that placed them. -/
theorem mem_predictions {pred : Prediction} (h : pred ∈ (marketView rt m events).predictions) :
    ∃ event ∈ events, hasType "prediction_place" event = true ∧ pred = readPrediction event := by
  have hread : ∀ (es : List Dict) (view : MarketView),
      pred ∈ (es.foldl (fun view event => view.read rt event) view).predictions →
        pred ∈ view.predictions ∨
          ∃ event ∈ es, hasType "prediction_place" event = true ∧ pred = readPrediction event := by
    intro es
    induction es with
    | nil => exact fun view hpred => Or.inl hpred
    | cons event es ih =>
      intro view hpred
      rcases ih _ hpred with hpred | ⟨placed, hplaced, hrest⟩
      · unfold MarketView.read at hpred
        dsimp only at hpred
        split_ifs at hpred with _ _ _ hplace
        · exact Or.inl hpred
        · exact Or.inl hpred
        · exact Or.inl hpred
        · rcases List.mem_append.mp hpred with hpred | hpred
          · exact Or.inl hpred
          · exact Or.inr ⟨event, List.mem_cons_self, hplace, List.mem_singleton.mp hpred⟩
        · exact Or.inl hpred
      · exact Or.inr ⟨placed, List.mem_cons_of_mem _ hplaced, hrest⟩
  rcases hread _ _ h with hpred | ⟨event, hevent, hrest⟩
  · cases hpred
  · exact ⟨event, (List.mem_filter.mp hevent).1, hrest⟩

theorem marketViews_values {view : MarketView} (h : view ∈ (marketViews rt events).values) :
    view = marketView rt view.marketId events := by
  have hview : ∀ k v, (marketViews rt events).lookup k = some v → v = marketView rt k events := by
    intro k v hv
    rw [marketViews_lookup] at hv
    split_ifs at hv
    exact (Option.some.inj hv).symm
  apply hview
  refine (marketViews_distinct.mem_values_iff fun k v hv => ?_).mp h
  rw [hview k v hv, marketView_marketId]

/-- The outcome by which the market pays, if it mints at all. -/
def payingOutcome (rt : Runtime) (cfg : RepConfig) (m : String) (events : List Dict) :
    Except String (Option String) := do
  let original ← mintableOutcome rt cfg (marketView rt m events)
  return original.map fun o => effectiveOutcome rt o m events

/-- A free pick of the side that won, with a probability to mint at. -/
def Prediction.Mints (rt : Runtime) (outcome : String) (pred : Prediction) : Prop :=
  pred.stakeAmount = .none ∧ pred.side.eq (.str outcome) = true ∧
    probability rt pred.probabilityAtBet ≠ .ok none

/-! ## Insertion -/

theorem marketEvents_insert (h : marketKey e = some m) :
    marketEvents m (pre ++ e :: post) = marketEvents m pre ++ e :: marketEvents m post := by
  simp [marketEvents, h]

theorem marketEvents_append :
    marketEvents m (pre ++ post) = marketEvents m pre ++ marketEvents m post :=
  List.filter_append pre post

theorem marketEvents_insert_ne (h : marketKey e ≠ some m) :
    marketEvents m (pre ++ e :: post) = marketEvents m (pre ++ post) := by
  simp [marketEvents, h]

theorem marketEvents_ne_nil : marketEvents m events ≠ [] ↔ ∃ x ∈ events, marketKey x = some m := by
  simp [marketEvents, List.filter_eq_nil_iff]

/-- The event is not about a dispute. -/
def Undisputed (event : Dict) : Prop :=
  hasType "dispute_open" event = false ∧ hasType "dispute_stake" event = false ∧
    hasType "dispute_resolve" event = false

theorem undisputed_of_type {t : String} (h : hasType t e = true)
    (ht : t ∉ ["dispute_open", "dispute_stake", "dispute_resolve"]) : Undisputed e := by
  simp only [List.mem_cons, List.not_mem_nil, or_false, not_or] at ht
  exact ⟨hasType_ne h ht.1, hasType_ne h ht.2.1, hasType_ne h ht.2.2⟩

theorem Undisputed.unread (h : Undisputed e) :
    readOpen rt m e = none ∧ readDisputeStake rt e = none ∧ readResolve rt e = none := by
  obtain ⟨hopen, hstake, hresolve⟩ := h
  refine ⟨?_, ?_, ?_⟩
  · unfold readOpen
    rw [hopen]
    rfl
  · unfold readDisputeStake
    rw [hstake]
    rfl
  · unfold readResolve
    rw [hresolve]
    rfl

theorem effectiveOutcome_insert {original : String} (h : Undisputed e) :
    effectiveOutcome rt original m (pre ++ e :: post) =
      effectiveOutcome rt original m (pre ++ post) := by
  obtain ⟨hopen, hstake, hresolve⟩ := @Undisputed.unread rt e m h
  have hdisputes : collectDisputes rt m (pre ++ e :: post) = collectDisputes rt m (pre ++ post) := by
    simp only [collectDisputes, disputeTable, openedDisputes, List.filterMap_append,
      List.filterMap_cons, hopen, hstake, hresolve]
  unfold effectiveOutcome
  rw [hdisputes]

/-- An event that is no prediction of the node does not count for its farming. -/
theorem farmingCount_other {nodeId : String} (h : (hasType "prediction_place" e &&
    (Dict.get e "node_id").eq (.str nodeId)) = false) (count : FarmingCount) :
    count.add rt cfg nodeId e = .ok count := by
  unfold FarmingCount.add
  rw [h]
  rfl

theorem computeFarmingPct_insert {nodeId : String}
    (h : ∀ count : FarmingCount, count.add rt cfg nodeId e = .ok count) :
    computeFarmingPct rt cfg nodeId (pre ++ e :: post) =
      computeFarmingPct rt cfg nodeId (pre ++ post) := by
  unfold computeFarmingPct
  rw [foldlM_insert h]

theorem indexMarkets_insert (hindex : readBootstrapIndex rt e = .ok ())
    (hviews : marketViews rt (pre ++ e :: post) = marketViews rt (pre ++ post)) :
    indexMarkets rt (pre ++ e :: post) = indexMarkets rt (pre ++ post) := by
  unfold indexMarkets
  rw [List.forM_eq_forM, forM_insert hindex, hviews]

end

end Vincent.Economy
