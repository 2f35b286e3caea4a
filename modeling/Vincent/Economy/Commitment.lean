-- SUMMARY: Predictions placed after the snapshot, and when a late one does not count.
import Vincent.Economy.MarketViews

/-!
# Late predictions

The snapshot of a market freezes who predicted and how much was staked. The reputation
does not look at it: a prediction that is placed later mints and settles like the
others.
-/

namespace Vincent.Economy

open Vincent.Python Vincent.Check

/-! ## What a market pays -/

/-- What a node earns from the market, over the sorted events. -/
def earnedFromOf (rt : Runtime) (cfg : RepConfig) (nodeId m : String) (events : List Dict) :
    Except String Earned := do
  events.forM (readBootstrapIndex rt)
  let farmingPct ← computeFarmingPct rt cfg nodeId events
  match (marketViews rt events).lookup m with
  | none => return {}
  | some market =>
    Earned.creditMarket rt cfg nodeId (farmingMultiplier cfg farmingPct) events {} market

/-- What a node earns from the market: its round of the loop of
    `compute_oracle_rep_breakdown`. -/
def earnedFrom (rt : Runtime) (cfg : RepConfig) (nodeId m : String) (chain : List Dict) :
    Except String Earned := do
  earnedFromOf rt cfg nodeId m (← sortEvents rt chain)

section

variable {rt : Runtime} {cfg : RepConfig} {pre post : List Dict} {e : Dict} {m nodeId : String}

/-! ## The view with one more prediction -/

/-- The view with predictions in front of its own. -/
def MarketView.after (ps : List Prediction) (view : MarketView) : MarketView :=
  { view with predictions := ps ++ view.predictions }

theorem MarketView.read_after (ps : List Prediction) (view : MarketView) :
    (view.after ps).read rt e = (view.read rt e).after ps := by
  unfold MarketView.read
  dsimp only
  split_ifs <;> simp [MarketView.after]

theorem MarketView.foldl_after (es : List Dict) (ps : List Prediction) (view : MarketView) :
    es.foldl (fun view event => view.read rt event) (view.after ps) =
      (es.foldl (fun view event => view.read rt event) view).after ps := by
  induction es generalizing view with
  | nil => rfl
  | cons event es ih => rw [List.foldl_cons, List.foldl_cons, MarketView.read_after, ih]

theorem marketView_place (h : hasType "prediction_place" e = true) (hmarket : marketKey e = some m) :
    ∃ (view : MarketView) (ps : List Prediction),
      marketView rt m (pre ++ post) = view.after ps ∧
      marketView rt m (pre ++ e :: post) = view.after (ps ++ [readPrediction e]) := by
  unfold marketView
  rw [marketEvents_insert hmarket, marketEvents_append, List.foldl_append, List.foldl_append,
    List.foldl_cons, MarketView.read_place h]
  obtain ⟨before, hbefore⟩ : ∃ before : MarketView, (marketEvents m pre).foldl
    (fun view event => view.read rt event) { marketId := m } = before := ⟨_, rfl⟩
  rw [hbefore]
  refine ⟨(marketEvents m post).foldl (fun view event => view.read rt event)
    { before with predictions := [] }, before.predictions, ?_, ?_⟩
  · rw [← MarketView.foldl_after]
    simp [MarketView.after]
  · rw [← MarketView.foldl_after]
    simp [MarketView.after]

theorem mintableOutcome_after (ps : List Prediction) (view : MarketView) :
    mintableOutcome rt cfg (view.after ps) = mintableOutcome rt cfg view := rfl

theorem readBootstrapIndex_place (h : hasType "prediction_place" e = true) :
    readBootstrapIndex rt e = .ok () := by
  unfold readBootstrapIndex
  rw [hasType_ne h (show "prediction_place" ≠ "prediction_create" by decide)]
  split <;> rfl

/-! ## Credits -/

theorem stakedPredSettlement_free {pred : Prediction} (hfree : pred.stakeAmount = .none)
    (ps qs : List Prediction) :
    (fun stake side outcome => stakedPredSettlement rt stake side outcome (ps ++ pred :: qs)) =
      fun stake side outcome => stakedPredSettlement rt stake side outcome (ps ++ qs) := by
  funext stake side outcome
  have hskip : ∀ pools : Pools, pools.add rt outcome pred = .ok pools := by
    intro pools
    unfold Pools.add stakeOf
    rw [hfree]
    rfl
  unfold stakedPredSettlement
  rw [foldlM_insert hskip]

/-- What a node gets for a prediction depends on the other predictions by the pools only. -/
theorem credit_free {pred : Prediction} (hfree : pred.stakeAmount = .none) {mult : ℚ}
    {outcome : String} (ps qs : List Prediction) :
    Earned.credit rt cfg nodeId mult outcome (ps ++ pred :: qs) =
      Earned.credit rt cfg nodeId mult outcome (ps ++ qs) := by
  have hsettle := @stakedPredSettlement_free rt pred hfree ps qs
  funext earned q
  unfold Earned.credit
  have hq := congrFun (congrFun (congrFun hsettle q.stakeAmount) q.side) outcome
  cases hstake : q.stakeAmount <;> simp only [← hstake, hq]

/-- Where a node has a pick that mints nothing, its farming does not matter. -/
theorem credit_mult {pred : Prediction} {outcome : String} {ps : List Prediction}
    (h : pred.nodeId.eq (.str nodeId) = true → ¬ pred.Mints rt outcome) (mult mult' : ℚ)
    (earned : Earned) : earned.credit rt cfg nodeId mult outcome ps pred =
      earned.credit rt cfg nodeId mult' outcome ps pred := by
  unfold Earned.credit
  cases hnode : pred.nodeId.eq (.str nodeId) with
  | false => rfl
  | true =>
    have hmints := h hnode
    cases hstake : pred.stakeAmount with
    | none =>
      cases hside : pred.side.eq (.str outcome) with
      | false => rfl
      | true =>
        have hprob : probability rt pred.probabilityAtBet = .ok none := by
          by_contra hprob
          exact hmints ⟨hstake, hside, hprob⟩
        simp [freePredMint, hprob, bind, Except.bind, pure, Except.pure]
    | bool | int | float | str | list | dict => rfl

theorem credit_plain {pred : Prediction} {outcome : String} {ps : List Prediction} {mult : ℚ}
    {earned earned' : Earned} (h : earned.freeMint ≠ .negZero)
    (hcredit : earned.credit rt cfg nodeId mult outcome ps pred = .ok earned') :
    earned'.freeMint ≠ .negZero := by
  unfold Earned.credit at hcredit
  split at hcredit
  · cases hcredit
    exact h
  · split at hcredit
    · split at hcredit
      · obtain ⟨mint, -, hcredit⟩ := bind_eq_ok.mp hcredit
        obtain rfl := pure_eq_ok.mp hcredit
        exact PyFloat.add_ne_negZero _ _
      · cases hcredit
        exact h
    · obtain ⟨delta, -, hcredit⟩ := bind_eq_ok.mp hcredit
      split at hcredit
      · obtain rfl := pure_eq_ok.mp hcredit
        exact h
      · obtain rfl := pure_eq_ok.mp hcredit
        exact h

theorem credit_unminted {pred : Prediction} {outcome : String} {ps : List Prediction} {mult : ℚ}
    {earned : Earned} (hfree : pred.stakeAmount = .none) (hmints : ¬ pred.Mints rt outcome)
    (h : earned.freeMint ≠ .negZero) :
    earned.credit rt cfg nodeId mult outcome ps pred = .ok earned := by
  unfold Earned.credit
  split
  · rfl
  · rw [hfree]
    dsimp only
    cases hside : pred.side.eq (.str outcome) with
    | false => rfl
    | true =>
      have hprob : probability rt pred.probabilityAtBet = .ok none := by
        by_contra hprob
        exact hmints ⟨hfree, hside, hprob⟩
      simp [freePredMint, hprob, bind, Except.bind, pure, Except.pure, PyFloat.add_zero h]

/-! ## A prediction that does not count -/

/-- A free pick that mints nothing and leaves the farming multiplier of an author who mints. -/
structure Uncounted (rt : Runtime) (cfg : RepConfig) (m : String) (chain : List Dict)
    (e : Dict) : Prop where
  place : hasType "prediction_place" e = true
  market : marketKey e = some m
  stamped : Stamped rt e
  number : ∀ x ∈ e :: chain, NumberStamped rt x
  unminted : ∀ events outcome, sortEvents rt chain = .ok events →
    payingOutcome rt cfg m events = .ok (some outcome) →
      (readPrediction e).stakeAmount = .none ∧ ¬ (readPrediction e).Mints rt outcome
  farming : ∀ events events' nodeId, sortEvents rt chain = .ok events →
    sortEvents rt (chain ++ [e]) = .ok events' → (Dict.get e "node_id").eq (.str nodeId) = true →
      farmingMultiplier cfg <$> computeFarmingPct rt cfg nodeId events' =
          farmingMultiplier cfg <$> computeFarmingPct rt cfg nodeId events ∨
        (∃ pct pct', computeFarmingPct rt cfg nodeId events = .ok pct ∧
          computeFarmingPct rt cfg nodeId events' = .ok pct') ∧
        ∀ outcome, payingOutcome rt cfg m events = .ok (some outcome) →
          ∀ pred ∈ (marketView rt m events).predictions,
            pred.nodeId.eq (.str nodeId) = true → ¬ pred.Mints rt outcome

variable {chain : List Dict} {view : MarketView} {ps : List Prediction} {mult mult' : ℚ}

/-- The view of a market pays the same with a free pick more that mints nothing. -/
theorem creditMarket_insert (hplace : hasType "prediction_place" e = true)
    (hid : view.marketId = m)
    (hunminted : ∀ original, mintableOutcome rt cfg view = .ok (some original) →
      (readPrediction e).stakeAmount = .none ∧
        ¬ (readPrediction e).Mints rt (effectiveOutcome rt original m (pre ++ post)))
    (hmult : mult = mult' ∨ ∀ original, mintableOutcome rt cfg view = .ok (some original) →
      ∀ pred ∈ ps ++ view.predictions, pred.nodeId.eq (.str nodeId) = true →
        ¬ pred.Mints rt (effectiveOutcome rt original m (pre ++ post))) :
    Earned.creditMarket rt cfg nodeId mult' (pre ++ e :: post) {}
        (view.after (ps ++ [readPrediction e])) =
      Earned.creditMarket rt cfg nodeId mult (pre ++ post) {} (view.after ps) := by
  have hundisputed : Undisputed e := undisputed_of_type hplace (by decide)
  unfold Earned.creditMarket
  rw [mintableOutcome_after, mintableOutcome_after]
  cases hmint : mintableOutcome rt cfg view with
  | error exn => rfl
  | ok original =>
    cases original with
    | none => rfl
    | some original =>
      obtain ⟨hfree, hmints⟩ := hunminted original hmint
      have hinsert : (ps ++ readPrediction e :: view.predictions).foldlM
            (Earned.credit rt cfg nodeId mult' (effectiveOutcome rt original m (pre ++ post))
              (ps ++ view.predictions)) {} =
          (ps ++ view.predictions).foldlM
            (Earned.credit rt cfg nodeId mult' (effectiveOutcome rt original m (pre ++ post))
              (ps ++ view.predictions)) {} :=
        @foldlM_insert_of _ _ _
          (Earned.credit rt cfg nodeId mult' (effectiveOutcome rt original m (pre ++ post))
            (ps ++ view.predictions)) _ (fun earned => earned.freeMint ≠ .negZero)
          (fun _ _ _ hs hcredit => credit_plain hs hcredit)
          (fun _ hs => credit_unminted hfree hmints hs) _ _ _ (by decide)
      dsimp only [bind, Except.bind, MarketView.after]
      rw [effectiveOutcome_insert hundisputed, List.append_assoc, List.singleton_append,
        credit_free hfree, hid, hinsert]
      apply foldlM_congr
      intro pred hpred earned
      rcases hmult with rfl | hnone
      · rfl
      · exact credit_mult (hnone original hmint pred hpred) _ _ _

/-- A market without events pays nothing, as its empty view does. -/
theorem earnedFromOf_view {events : List Dict} : earnedFromOf rt cfg nodeId m events =
    (forM events (readBootstrapIndex rt) >>= fun _ =>
      computeFarmingPct rt cfg nodeId events >>= fun farmingPct =>
        Earned.creditMarket rt cfg nodeId (farmingMultiplier cfg farmingPct) events {}
          (marketView rt m events)) := by
  unfold earnedFromOf
  rw [List.forM_eq_forM, marketViews_lookup]
  split_ifs with hempty
  · unfold marketView
    rw [hempty]
    rfl
  · rfl

/-- A late prediction that does not count leaves what the market earns and settles. -/
theorem earnedFrom_uncounted (rt : Runtime) (cfg : RepConfig) (m : String) (chain : List PyVal)
    (e : Dict) (h : Uncounted rt cfg m (dicts chain) e) (nodeId : String) :
    earnedFrom rt cfg nodeId m (dicts (chain ++ [.dict e])) =
      earnedFrom rt cfg nodeId m (dicts chain) := by
  have hdicts : dicts (chain ++ [.dict e]) = dicts chain ++ [e] := by simp [dicts]
  rw [hdicts]
  unfold earnedFrom
  cases hsorted : sortEvents rt (dicts chain) with
  | error exn => rw [sortEvents_append_error hsorted]
  | ok events =>
    obtain ⟨pre, post, rfl, hsorted', -, -⟩ := sortEvents_concat hsorted h.stamped h.number
    obtain ⟨view, ps, hview, hview'⟩ := @marketView_place rt pre post e m h.place
      h.market
    have hmarketId : view.marketId = m := by
      rw [← @marketView_marketId rt (pre ++ post) m, hview]
      rfl
    have hpaying : ∀ original, mintableOutcome rt cfg view = .ok (some original) →
        payingOutcome rt cfg m (pre ++ post) =
          .ok (some (effectiveOutcome rt original m (pre ++ post))) := by
      intro original horiginal
      unfold payingOutcome
      rw [hview, mintableOutcome_after, horiginal]
      rfl
    have hunminted := fun original horiginal =>
      h.unminted (pre ++ post) _ hsorted (hpaying original horiginal)
    rw [hsorted']
    dsimp only [bind, Except.bind]
    rw [earnedFromOf_view, earnedFromOf_view, forM_insert (readBootstrapIndex_place h.place),
      hview, hview']
    congr 1
    funext _
    have hcredit : ∀ mult, Earned.creditMarket rt cfg nodeId mult (pre ++ e :: post) {}
          (view.after (ps ++ [readPrediction e])) =
        Earned.creditMarket rt cfg nodeId mult (pre ++ post) {} (view.after ps) :=
      fun mult => creditMarket_insert h.place hmarketId hunminted (Or.inl rfl)
    cases hnode : (Dict.get e "node_id").eq (.str nodeId) with
    | false =>
      rw [computeFarmingPct_insert (farmingCount_other (by rw [h.place, hnode]; rfl))]
      congr 1
      funext pct
      exact hcredit _
    | true =>
      rcases h.farming _ _ nodeId hsorted hsorted' hnode with hsame | ⟨⟨pct, pct', hpct, hpct'⟩, hnone⟩
      · exact bind_congr_map hsame hcredit
      · rw [hpct, hpct']
        apply creditMarket_insert h.place hmarketId hunminted
        right
        intro original horiginal pred hpred
        rw [hview] at hnone
        exact hnone _ (hpaying original horiginal) pred hpred

end

/-- A market that is finalized as yes, with one free pick. -/
def pickedMarket : List PyVal := finalizedMarket [placeEvent "bob" 2 "yes" 50 .none]

theorem earnedFrom_uncounted_sample : earnedFrom asciiRuntime {} "bob" "m1"
      (dicts (pickedMarket ++ [placeEvent "eve" 30 "no" 50 .none])) =
    earnedFrom asciiRuntime {} "bob" "m1" (dicts pickedMarket) := by
  refine earnedFrom_uncounted asciiRuntime {} "m1" pickedMarket _
    ⟨by decide +kernel, by decide +kernel, by decide +kernel,
      fun x hx => ?_, fun events outcome hsorted hpaying => ?_,
      fun events events' nodeId hsorted hsorted' hnode => Or.inl ?_⟩ "bob"
  · have hstamps : ∀ x ∈ dicts (pickedMarket ++ [placeEvent "eve" 30 "no" 50 .none]),
        timestamp asciiRuntime x ≠ .ok .nan := by decide +kernel
    apply hstamps
    rw [show dicts (pickedMarket ++ [placeEvent "eve" 30 "no" 50 .none]) =
      dicts pickedMarket ++ dicts [placeEvent "eve" 30 "no" 50 .none] by rfl]
    rcases List.mem_cons.mp hx with rfl | hx
    · exact List.mem_append_right _ List.mem_cons_self
    · exact List.mem_append_left _ hx
  · have hyes : okAnd (sortEvents asciiRuntime (dicts pickedMarket)) (fun events =>
        payingOutcome asciiRuntime {} "m1" events = .ok (some "yes")) = true := by decide +kernel
    rw [hsorted] at hyes
    have houtcome : outcome = "yes" := by
      rw [of_decide_eq_true hyes] at hpaying
      exact (Option.some.inj (Except.ok.inj hpaying)).symm
    subst houtcome
    exact ⟨rfl, fun hmints => absurd hmints.2.1 (by decide)⟩
  · change PyVal.eq (.str "eve") (.str nodeId) = true at hnode
    obtain rfl : "eve" = nodeId := by simpa [PyVal.eq] using hnode
    have hsame : okAnd (sortEvents asciiRuntime (dicts pickedMarket)) (fun events =>
        okAnd (sortEvents asciiRuntime
          (dicts pickedMarket ++ dicts [placeEvent "eve" 30 "no" 50 .none])) fun events' =>
          (farmingMultiplier {} <$> computeFarmingPct asciiRuntime {} "eve" events') =
            farmingMultiplier {} <$> computeFarmingPct asciiRuntime {} "eve" events) = true := by
      decide +kernel
    obtain ⟨chainEvents, hchain, hsame⟩ := okAnd_iff.mp hsame
    obtain ⟨chainEvents', hchain', hsame⟩ := okAnd_iff.mp hsame
    cases hsorted.symm.trans hchain
    cases hsorted'.symm.trans hchain'
    exact of_decide_eq_true hsame

/-- A stake on the winning side, placed when the outcome is known, takes a share of what was
    settled. -/
theorem not_earnedFrom_unchanged :
    okAnd (findSnapshot asciiRuntime "m1" (dicts (finalizedMarket
      [placeEvent "bob" 2 "yes" 50 (.int 10), placeEvent "ana" 3 "no" 50 (.int 10)])))
      Option.isSome = true ∧
    ¬ ∀ nodeId, earnedFrom asciiRuntime {} nodeId "m1" (dicts (finalizedMarket
        [placeEvent "bob" 2 "yes" 50 (.int 10), placeEvent "ana" 3 "no" 50 (.int 10)] ++
          [placeEvent "eve" 30 "yes" 50 (.int 10)])) =
      earnedFrom asciiRuntime {} nodeId "m1" (dicts (finalizedMarket
        [placeEvent "bob" 2 "yes" 50 (.int 10), placeEvent "ana" 3 "no" 50 (.int 10)])) := by
  refine ⟨by decide +kernel, ?_⟩
  intro h
  have hbob := h "bob"
  revert hbob
  decide +kernel

end Vincent.Economy
