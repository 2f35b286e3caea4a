-- SUMMARY: Which events decide a market for the reputation.
import Vincent.Economy.Lifecycle
import Vincent.Economy.MarketViews

/-!
# Finality

The lifecycle and the snapshot take the first create, snapshot and finalize of a
market in hashchain order. The reputation sorts the chain and takes the last of each.
-/

namespace Vincent.Economy

open Vincent.Python Vincent.Check

/-! ## What is overwritten -/

/-- The event types that overwrite a field of the view of a market. -/
inductive Authority where
  | create
  | snapshot
  | finalize

def Authority.eventType : Authority → String
  | .create => "prediction_create"
  | .snapshot => "market_snapshot"
  | .finalize => "resolution_finalize"

namespace MarketView

variable {rt : Runtime} {a : Authority} {e : Dict}

/-- The view without what the events of a type write. -/
def forget (view : MarketView) : Authority → MarketView
  | .create => { view with marketType := "" }
  | .snapshot => { view with snapshot := none }
  | .finalize => { view with finalize := none, finalizeTs := .finite 0 }

theorem forget_read_self (h : hasType a.eventType e = true) (view : MarketView) :
    (view.read rt e).forget a = view.forget a := by
  cases a with
  | create =>
    rw [read_create h]
    rfl
  | snapshot =>
    rw [read_snapshot h]
    rfl
  | finalize =>
    rw [read_finalize h]
    rfl

/-- An event of the type does not look at what it overwrites. -/
theorem read_forget_self (h : hasType a.eventType e = true) (view : MarketView) :
    (view.forget a).read rt e = view.read rt e := by
  cases a with
  | create =>
    rw [read_create h, read_create h]
    rfl
  | snapshot =>
    rw [read_snapshot h, read_snapshot h]
    rfl
  | finalize =>
    rw [read_finalize h, read_finalize h]
    rfl

theorem forget_read (view : MarketView) :
    ((view.forget a).read rt e).forget a = (view.read rt e).forget a := by
  cases a <;> simp only [read, forget] <;> split_ifs <;> rfl

/-- Where an event of the type follows, the views before it need only agree on the rest. -/
theorem foldl_read_congr {es : List Dict} {view view' : MarketView}
    (h : view.forget a = view'.forget a) (hlater : ∃ y ∈ es, hasType a.eventType y = true) :
    es.foldl (fun view event => view.read rt event) view =
      es.foldl (fun view event => view.read rt event) view' := by
  induction es generalizing view view' with
  | nil =>
    obtain ⟨y, hy, -⟩ := hlater
    cases hy
  | cons x es ih =>
    rw [List.foldl_cons, List.foldl_cons]
    cases hx : hasType a.eventType x with
    | true => rw [← read_forget_self hx view, ← read_forget_self hx view', h]
    | false =>
      apply ih
      · rw [← forget_read, h, forget_read]
      · obtain ⟨y, hy, hytype⟩ := hlater
        rcases List.mem_cons.mp hy with rfl | hy
        · rw [hx] at hytype
          cases hytype
        · exact ⟨y, hy, hytype⟩

end MarketView

section

variable {rt : Runtime} {cfg : RepConfig} {pre post : List Dict} {e : Dict} {m nodeId : String}
  {a : Authority}

/-- An event of a market that comes between others of the market, one of its type after it,
    leaves the index as it is. -/
theorem marketViews_insert (htype : hasType a.eventType e = true) (hmarket : marketKey e = some m)
    (hbefore : ∃ x ∈ pre, marketKey x = some m)
    (hafter : ∃ y ∈ post, marketKey y = some m ∧ hasType a.eventType y = true) :
    marketViews rt (pre ++ e :: post) = marketViews rt (pre ++ post) := by
  apply marketViews_distinct.ext
  · apply OrderedMap.keys_fold_insert
    rw [hmarket]
    exact hbefore
  · intro k
    rw [marketViews_lookup, marketViews_lookup]
    rcases eq_or_ne m k with rfl | hk
    · have hpre : marketEvents m pre ≠ [] := marketEvents_ne_nil.mpr hbefore
      have hview : marketView rt m (pre ++ e :: post) = marketView rt m (pre ++ post) := by
        unfold marketView
        rw [marketEvents_insert hmarket, marketEvents_append, List.foldl_append,
          List.foldl_append, List.foldl_cons]
        apply MarketView.foldl_read_congr (MarketView.forget_read_self htype _)
        obtain ⟨y, hy, hkey, hytype⟩ := hafter
        exact ⟨y, List.mem_filter.mpr ⟨hy, by simpa using hkey⟩, hytype⟩
      rw [hview, marketEvents_insert hmarket, marketEvents_append,
        if_neg (List.append_ne_nil_of_left_ne_nil hpre _),
        if_neg (List.append_ne_nil_of_left_ne_nil hpre _)]
    · have hne : marketKey e ≠ some k := by
        rw [hmarket]
        simpa using hk
      unfold marketView
      rw [marketEvents_insert_ne hne]

/-! ## Reputation -/

/-- An event that the index, the disputes and the farming count do not see. -/
theorem breakdownOf_insert (hindex : indexMarkets rt (pre ++ e :: post) = indexMarkets rt (pre ++ post))
    (hundisputed : Undisputed e) (hplace : hasType "prediction_place" e = false) :
    breakdownOf rt cfg nodeId (pre ++ e :: post) = breakdownOf rt cfg nodeId (pre ++ post) := by
  have hfarming : computeFarmingPct rt cfg nodeId (pre ++ e :: post) =
      computeFarmingPct rt cfg nodeId (pre ++ post) :=
    computeFarmingPct_insert (farmingCount_other (by rw [hplace]; rfl))
  have hcredit : ∀ mult, Earned.creditMarket rt cfg nodeId mult (pre ++ e :: post) =
      Earned.creditMarket rt cfg nodeId mult (pre ++ post) := by
    intro mult
    funext earned market
    unfold Earned.creditMarket
    simp only [effectiveOutcome_insert hundisputed]
  unfold breakdownOf
  simp only [hindex, hfarming, hcredit]

theorem lastSuccessOf_insert
    (hindex : indexMarkets rt (pre ++ e :: post) = indexMarkets rt (pre ++ post))
    (hundisputed : Undisputed e) :
    lastSuccessOf rt cfg nodeId (pre ++ e :: post) = lastSuccessOf rt cfg nodeId (pre ++ post) := by
  have hvisit : visitMarketSuccess rt cfg nodeId (pre ++ e :: post) =
      visitMarketSuccess rt cfg nodeId (pre ++ post) := by
    funext best market
    unfold visitMarketSuccess
    simp only [effectiveOutcome_insert hundisputed]
  unfold lastSuccessOf
  simp only [hindex, hvisit]

theorem Authority.undisputed (h : hasType a.eventType e = true) : Undisputed e := by
  apply undisputed_of_type h
  cases a <;> decide

theorem Authority.not_place (h : hasType a.eventType e = true) :
    hasType "prediction_place" e = false := by
  apply hasType_ne h
  cases a <;> decide

/-- The appended event is of the market, it can be sorted and indexed, and in sorted order it
    comes behind an event of the market and before one of its own type. -/
structure Overwritten (rt : Runtime) (m : String) (chain : List PyVal) (a : Authority)
    (e : Dict) : Prop where
  type : hasType a.eventType e = true
  market : marketKey e = some m
  stamped : Stamped rt e
  index : readBootstrapIndex rt e = .ok ()
  number : ∀ x ∈ e :: dicts chain, NumberStamped rt x
  behind : ∃ x ∈ dicts chain, marketKey x = some m ∧ ¬ SortsAfter rt x e
  before : ∃ y ∈ dicts chain, marketKey y = some m ∧ hasType a.eventType y = true ∧
    SortsAfter rt y e

variable {chain : List PyVal}

/-- Where the sorted chain differs by an event that the index does not see. -/
theorem Overwritten.sorted (h : Overwritten rt m chain a e) {sorted : List Dict}
    (hsorted : sortEvents rt (dicts chain) = .ok sorted) :
    ∃ pre post, sorted = pre ++ post ∧ sortEvents rt (dicts chain ++ [e]) = .ok (pre ++ e :: post) ∧
      indexMarkets rt (pre ++ e :: post) = indexMarkets rt (pre ++ post) := by
  obtain ⟨pre, post, rfl, hsorted', hpre, hpost⟩ := sortEvents_concat hsorted h.stamped h.number
  have hperm : ∀ x, x ∈ dicts chain → x ∈ pre ∨ x ∈ post := by
    intro x hx
    exact List.mem_append.mp ((sortEvents_perm hsorted).mem_iff.mpr hx)
  refine ⟨pre, post, rfl, hsorted', indexMarkets_insert h.index ?_⟩
  apply marketViews_insert h.type h.market
  · obtain ⟨x, hx, hkey, hbehind⟩ := h.behind
    rcases hperm x hx with hx | hx
    · exact ⟨x, hx, hkey⟩
    · exact absurd (hpost x hx) hbehind
  · obtain ⟨y, hy, hkey, hytype, hafter⟩ := h.before
    rcases hperm y hy with hy | hy
    · exact absurd hafter (hpre y hy)
    · exact ⟨y, hy, hkey, hytype⟩

theorem Overwritten.breakdown (h : Overwritten rt m chain a e) :
    computeOracleRepBreakdown rt cfg nodeId (dicts chain ++ [e]) =
      computeOracleRepBreakdown rt cfg nodeId (dicts chain) := by
  unfold computeOracleRepBreakdown
  cases hsorted : sortEvents rt (dicts chain) with
  | error exn => rw [sortEvents_append_error hsorted]
  | ok sorted =>
    obtain ⟨pre, post, rfl, hsorted', hindex⟩ := h.sorted hsorted
    rw [hsorted']
    exact breakdownOf_insert hindex (Authority.undisputed h.type) (Authority.not_place h.type)

theorem Overwritten.lastSuccess (h : Overwritten rt m chain a e) :
    lastSuccessfulPredictionTs rt cfg nodeId (dicts chain ++ [e]) =
      lastSuccessfulPredictionTs rt cfg nodeId (dicts chain) := by
  unfold lastSuccessfulPredictionTs
  cases hsorted : sortEvents rt (dicts chain) with
  | error exn => rw [sortEvents_append_error hsorted]
  | ok sorted =>
    obtain ⟨pre, post, rfl, hsorted', hindex⟩ := h.sorted hsorted
    rw [hsorted']
    exact lastSuccessOf_insert hindex (Authority.undisputed h.type)

/-! ## First events -/

/-- The first event of a type, in hashchain order. -/
def firstOf (rt : Runtime) (m : String) (chain : List PyVal) (t : String) : Option Dict :=
  firstAuthoritativeEvent (eventsForMarket rt m (dicts chain)) t

theorem marketId_of_key (h : marketKey e = some m) : marketId rt e = m := by
  unfold marketKey at h
  unfold marketId
  cases hid : Dict.get (payload e) "market_id" with
  | str s =>
    rw [hid] at h
    simp only [Option.ite_none_left_eq_some, Option.some.injEq] at h
    obtain ⟨hs, rfl⟩ := h
    simp [PyVal.or, PyVal.truthy, hs, PyVal.toStr]
  | none | bool | int | float | list | dict =>
    rw [hid] at h
    cases h

/-- An event of a type that the market has already does not become the first of its type. -/
theorem firstOf_append (t : String)
    (h : hasType t e = true → ∃ y ∈ dicts chain, marketKey y = some m ∧ hasType t y = true) :
    firstOf rt m (chain ++ [.dict e]) t = firstOf rt m chain t := by
  unfold firstOf
  rw [firstAuthoritativeEvent_append]
  cases hfirst : firstAuthoritativeEvent (eventsForMarket rt m (dicts chain)) t with
  | some f => rfl
  | none =>
    cases hnew : hasType t e with
    | false => simp [firstAuthoritativeEvent, eventsForMarket, dicts, hnew]
    | true =>
      obtain ⟨y, hy, hkey, hytype⟩ := h hnew
      have hnone := List.find?_eq_none.mp hfirst y
        (List.mem_filter.mpr ⟨hy, by simpa using marketId_of_key hkey⟩)
      exact absurd hytype hnone

/-- Everything that is computed of the market, and the reputation of every node, are the same
    for the two chains. -/
structure Unmoved (rt : Runtime) (cfg : RepConfig) (phases : PhaseConfig) (m : String)
    (chain chain' : List PyVal) : Prop where
  oracleRep : ∀ nodeId, computeOracleRep rt cfg nodeId (dicts chain') =
    computeOracleRep rt cfg nodeId (dicts chain)
  lifetime : ∀ nodeId, computeOracleRepLifetime rt cfg nodeId (dicts chain') =
    computeOracleRepLifetime rt cfg nodeId (dicts chain)
  lastSuccess : ∀ nodeId, lastSuccessfulPredictionTs rt cfg nodeId (dicts chain') =
    lastSuccessfulPredictionTs rt cfg nodeId (dicts chain)
  status : ∀ now, computeMarketStatus rt phases m chain' now =
    computeMarketStatus rt phases m chain now
  snapshot : findSnapshot rt m (dicts chain') = findSnapshot rt m (dicts chain)

end

/-- An appended create, snapshot or finalize changes nothing where it is overwritten: another
    of its type for the market sorts after it. -/
theorem unmoved_of_overwritten (rt : Runtime) (cfg : RepConfig) (phases : PhaseConfig) (m : String)
    (chain : List PyVal) (a : Authority) (e : Dict) (h : Overwritten rt m chain a e) :
    Unmoved rt cfg phases m chain (chain ++ [.dict e]) := by
  have hdicts : dicts (chain ++ [.dict e]) = dicts chain ++ [e] := by simp [dicts]
  have hfirst : ∀ b : Authority, firstOf rt m (chain ++ [.dict e]) b.eventType =
      firstOf rt m chain b.eventType := by
    intro b
    apply firstOf_append
    intro hb
    have hsame : b.eventType = a.eventType := by
      have htype := hasType_iff.mp h.type
      rw [hasType_iff.mp hb] at htype
      exact PyVal.str.inj htype
    obtain ⟨y, hy, hkey, hytype, -⟩ := h.before
    exact ⟨y, hy, hkey, hsame ▸ hytype⟩
  have hcreate := hfirst .create
  have hsnapshot := hfirst .snapshot
  have hfinalize := hfirst .finalize
  simp only [firstOf, Authority.eventType] at hcreate hsnapshot hfinalize
  constructor
  · intro nodeId
    unfold computeOracleRep
    rw [hdicts, h.breakdown]
  · intro nodeId
    unfold computeOracleRepLifetime
    rw [hdicts, h.breakdown]
  · intro nodeId
    rw [hdicts, h.lastSuccess]
  · intro now
    simp only [computeMarketStatus, hcreate, hsnapshot, hfinalize]
  · simp only [findSnapshot, hsnapshot]

theorem unmoved_of_overwritten_sample : Unmoved asciiRuntime {} {} "m1"
    (finalizedMarket [placeEvent "bob" 2 "yes" 50 .none])
    (finalizedMarket [placeEvent "bob" 2 "yes" 50 .none] ++ [snapshotEvent 5 90 10]) :=
  unmoved_of_overwritten asciiRuntime {} {} "m1" _ .snapshot _
    ⟨by decide +kernel, by decide +kernel, by decide +kernel, by decide +kernel,
      numberStamped_of (by decide +kernel), by decide +kernel, by decide +kernel⟩

/-- A market that is finalized as yes, and finalized again as no. -/
theorem not_unmoved :
    okAnd (findSnapshot asciiRuntime "m1"
        (dicts (finalizedMarket [placeEvent "bob" 2 "yes" 50 .none]))) Option.isSome = true ∧
    ((firstOf asciiRuntime "m1" (finalizedMarket [placeEvent "bob" 2 "yes" 50 .none])
      "resolution_finalize").any (hasValidOrdering asciiRuntime)) = true ∧
    ¬ Unmoved asciiRuntime {} {} "m1" (finalizedMarket [placeEvent "bob" 2 "yes" 50 .none])
      (finalizedMarket [placeEvent "bob" 2 "yes" 50 .none] ++ [finalizeEvent 30 "no"]) := by
  refine ⟨by decide +kernel, by decide +kernel, ?_⟩
  intro h
  have hrep := h.oracleRep "bob"
  revert hrep
  decide +kernel

end Vincent.Economy
