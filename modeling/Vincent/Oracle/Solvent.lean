-- SUMMARY: When the oracle ledger stays solvent and keeps its total.
import Vincent.Oracle.Balances

/-!
# A solvent ledger

The open stakes, a list of nodes and amounts, are covered by the balances. Placing a
stake adds an entry that its node can afford, and settling takes entries out and moves
the losers' amounts to the winners.
-/

namespace Vincent.Oracle

open Vincent.Python Vincent.Run

variable {txt : OracleText} {l l' : Ledger} {rep : OrderedMap String PyFloat}
  {losers winners xs ys : List (String × PyFloat)}

/-! ## Settling -/

theorem pySum_amounts (h : ∀ x ∈ xs, Nonneg x.2) : pySum (xs.map Prod.snd) = .finite (pool xs) := by
  rw [pySum_finite]
  · rw [List.map_map]
    rfl
  · intro y hy
    obtain ⟨x, hx, rfl⟩ := List.mem_map.mp hy
    exact (h x hx).1

theorem pool_nonneg (h : ∀ x ∈ xs, Nonneg x.2) : 0 ≤ pool xs := by
  refine List.sum_nonneg fun q hq => ?_
  obtain ⟨x, hx, rfl⟩ := List.mem_map.mp hq
  exact (h x hx).2

theorem winnings_nonneg {loserPool winnerPool : PyFloat} (hlosers : Nonneg loserPool)
    (hwinners : Nonneg winnerPool) (h : ∀ x ∈ xs, Nonneg x.2) :
    ∀ x ∈ winnings loserPool winnerPool xs, Nonneg x.2 := by
  intro x hx
  obtain ⟨w, hw, rfl⟩ := List.mem_map.mp hx
  refine Nonneg.round3 (hlosers.mul ?_)
  split
  · exact (h w hw).div hwinners
  · exact nonneg_finite le_rfl

/-- What the winners of stakes get. -/
def paid (losers winners : List (String × PyFloat)) : List (String × PyFloat) :=
  winnings (pySum (losers.map Prod.snd)) (pySum (winners.map Prod.snd)) winners

theorem paid_nonneg (hlosers : ∀ x ∈ losers, Nonneg x.2) (hwinners : ∀ x ∈ winners, Nonneg x.2) :
    ∀ x ∈ paid losers winners, Nonneg x.2 := by
  apply winnings_nonneg _ _ hwinners
  · rw [pySum_amounts hlosers]
    exact nonneg_finite (pool_nonneg hlosers)
  · rw [pySum_amounts hwinners]
    exact nonneg_finite (pool_nonneg hwinners)

/-- Settling takes from each node what it lost and adds what it is paid. -/
theorem changed_settle (hrep : NonnegRep rep) (hlosers : ∀ x ∈ losers, Nonneg x.2)
    (hwinners : ∀ x ∈ winners, Nonneg x.2) (hle : ∀ n, owed losers n ≤ val (balance rep n)) :
    Changed rep (settle losers winners rep)
      (fun n => -owed losers n + owed (paid losers winners) n)
      (-pool losers + pool (paid losers winners)) := by
  have hremoved := changed_removeAll hlosers hrep hle
  exact hremoved.trans (changed_addAll (paid_nonneg hlosers hwinners) hremoved.nonneg)

theorem pool_paid (hlosers : ∀ x ∈ losers, Nonneg x.2) (hwinners : ∀ x ∈ winners, Nonneg x.2)
    (hdivides : DividesEvenly losers winners) : pool (paid losers winners) = pool losers := by
  have hsum : pySum ((paid losers winners).map Prod.snd) = pySum (losers.map Prod.snd) := hdivides
  rw [pySum_amounts (paid_nonneg hlosers hwinners), pySum_amounts hlosers] at hsum
  exact PyFloat.finite.inj hsum

/-! ## Open stakes -/

/-- The unresolved truth stakes, as nodes and amounts. -/
def openTruth (stakes : List TruthStake) : List (String × PyFloat) :=
  (stakes.filter fun s => s.resolved = false).map fun s => (s.stakerId, s.amount)

/-- The unresolved market stakes, as nodes and amounts. -/
def openMarket (stakes : List MarketStake) : List (String × PyFloat) :=
  (stakes.filter fun s => s.resolved = false).map fun s => (s.nodeId, s.amount)

/-- The open entries are those of a part that is picked, on either side, and those that stay
open. -/
theorem owed_close {σ : Type} (f : σ → String × PyFloat) (g : σ → σ) (isOpen picked wins : σ → Bool)
    (hf : ∀ s, f (g s) = f s) (hopen : ∀ s, isOpen (g s) = (isOpen s && !picked s)) (ss : List σ)
    (n : String) : owed ((ss.filter isOpen).map f) n =
      owed ((ss.filter fun s => isOpen s && picked s && wins s).map f) n +
        owed ((ss.filter fun s => isOpen s && picked s && !wins s).map f) n +
        owed (((ss.map g).filter isOpen).map f) n := by
  induction ss with
  | nil => simp
  | cons s ss ih =>
    rw [List.map_cons, List.filter_cons, List.filter_cons, List.filter_cons, List.filter_cons, hopen s]
    cases isOpen s <;> cases picked s <;> cases wins s <;>
      simp only [Bool.and_true, Bool.and_false, Bool.not_true, Bool.not_false, if_true,
        Bool.false_eq_true, if_false, List.map_cons, owed_cons, ih, hf] <;> ring

theorem mem_of_close {σ : Type} (f : σ → String × PyFloat) (g : σ → σ) (isOpen picked : σ → Bool)
    (hf : ∀ s, f (g s) = f s) (hopen : ∀ s, isOpen (g s) = (isOpen s && !picked s)) {ss : List σ}
    {x : String × PyFloat} (hx : x ∈ ((ss.map g).filter isOpen).map f) :
    x ∈ (ss.filter isOpen).map f := by
  obtain ⟨s', hs', rfl⟩ := List.mem_map.mp hx
  obtain ⟨hmem, hstill⟩ := List.mem_filter.mp hs'
  obtain ⟨s, hs, rfl⟩ := List.mem_map.mp hmem
  rw [hopen, Bool.and_eq_true] at hstill
  exact List.mem_map.mpr ⟨s, List.mem_filter.mpr ⟨hs, hstill.1⟩, (hf s).symm⟩

/-- The stakes that are open are covered, and every number is finite. -/
structure Sound (l : Ledger) : Prop where
  rep : NonnegRep l.oracleRep
  truth : ∀ x ∈ openTruth l.stakes, Nonneg x.2
  market : ∀ x ∈ openMarket l.marketStakes, Nonneg x.2
  covered : ∀ n, owed (openTruth l.stakes) n + owed (openMarket l.marketStakes) n ≤
    val (balance l.oracleRep n)
  probable : ∀ p ∈ l.predictions, p.resolved = false → isProbability p.probabilityAtBet = true

theorem lockedTruth_eq (l : Ledger) (n : String) :
    lockedTruth l n = ((openTruth l.stakes).filter fun x => x.1 = n).map Prod.snd := by
  rw [lockedTruth, openTruth, List.filter_map, List.filter_filter, List.map_map]
  simp [Function.comp_def]

theorem lockedMarket_eq (l : Ledger) (n : String) :
    lockedMarket l n = ((openMarket l.marketStakes).filter fun x => x.1 = n).map Prod.snd := by
  rw [lockedMarket, openMarket, List.filter_map, List.filter_filter, List.map_map]
  simp [Function.comp_def]

theorem pySum_owed (h : ∀ x ∈ xs, Nonneg x.2) (n : String) :
    pySum ((xs.filter fun x => x.1 = n).map Prod.snd) = .finite (owed xs n) :=
  pySum_amounts fun x hx => h x (List.mem_filter.mp hx).1

theorem Sound.locked (h : Sound l) (n : String) :
    locked l n = .finite (owed (openTruth l.stakes) n + owed (openMarket l.marketStakes) n) := by
  rw [Oracle.locked, lockedTruth_eq, lockedMarket_eq, pySum_owed h.truth, pySum_owed h.market]
  rfl

theorem Sound.solvent (h : Sound l) : Solvent l where
  covered n := by
    have hbalance := h.rep.balance n
    rw [h.locked, hbalance.1]
    exact PyFloat.finite_le.mpr (h.covered n)
  finite kv hkv := ⟨val kv.2, h.rep kv hkv⟩

theorem totalRep_eq (h : NonnegRep l.oracleRep) : totalRep l = .finite (worth l.oracleRep) := by
  rw [totalRep, OrderedMap.values, pySum_amounts h]
  rfl

theorem Sound.empty : Sound {} where
  rep kv hkv := absurd hkv List.not_mem_nil
  truth x hx := absurd hx List.not_mem_nil
  market x hx := absurd hx List.not_mem_nil
  covered _ := by simp [openTruth, openMarket, balance]
  probable p hp := absurd hp List.not_mem_nil

/-! ## Placing -/

theorem finite_of_le {x : PyFloat} {u : ℚ} (hpos : x.le (.finite 0) = false)
    (hle : x.le (.finite u) = true) : ∃ q, x = .finite q ∧ 0 < q ∧ q ≤ u := by
  cases x with
  | finite q =>
    have hnot : ¬ q ≤ 0 := fun h => by
      rw [PyFloat.finite_le.mpr h] at hpos
      cases hpos
    exact ⟨q, rfl, not_le.mp hnot, PyFloat.finite_le.mp hle⟩
  | negZero => cases hpos
  | inf => cases hle
  | negInf => cases hpos
  | nan => cases hle

/-- A stake that the guards let through and that is affordable leaves everything covered. -/
theorem Sound.affords (h : Sound l) {nodeId : String} {amount : PyFloat}
    (hpos : amount.le (.finite 0) = false) (hlt : (getOracleRep l nodeId).lt amount = false)
    (haffordable : Affordable l nodeId amount) :
    Nonneg amount ∧ ∀ n, owed (openTruth l.stakes) n + owed (openMarket l.marketStakes) n +
      owed [(nodeId, amount)] n ≤ val (balance l.oracleRep n) := by
  have hunlocked : unlocked l nodeId = .finite (val (balance l.oracleRep nodeId) +
      -(owed (openTruth l.stakes) nodeId + owed (openMarket l.marketStakes) nodeId)) := by
    rw [unlocked, h.locked, (h.rep.balance nodeId).1]
    rfl
  have hle := haffordable hpos hlt
  rw [hunlocked] at hle
  obtain ⟨q, rfl, hq, hqle⟩ := finite_of_le hpos hle
  refine ⟨nonneg_finite hq.le, fun n => ?_⟩
  have hcovered := h.covered n
  rw [owed_cons, owed_nil, add_zero]
  split
  · rename_i hn
    subst hn
    rw [val_finite]
    linarith
  · linarith

theorem placeMarketStake_cases (nodeId title side : String) (amount p : PyFloat) (now : ℚ)
    (l : Ledger) :
    (placeMarketStake txt nodeId title side amount p now l).1 = l ∨
      amount.le (.finite 0) = false ∧ (getOracleRep l nodeId).lt amount = false ∧
        (placeMarketStake txt nodeId title side amount p now l).1 =
          { l with marketStakes := l.marketStakes ++ [⟨nodeId, title, side, amount, p, now, false, none,
            .finite 0⟩] } := by
  unfold placeMarketStake
  split_ifs with hside hpos hprob hlt
  · exact Or.inl rfl
  · exact Or.inl rfl
  · exact Or.inl rfl
  · exact Or.inl rfl
  · exact Or.inl rfl
  · exact Or.inl rfl
  · exact Or.inr ⟨Bool.eq_false_of_not_eq_true hpos, Bool.eq_false_of_not_eq_true hlt, rfl⟩

theorem Sound.placeMarketStake (h : Sound l) {nodeId title side : String} {amount p : PyFloat}
    {now : ℚ} (haffordable : Affordable l nodeId amount) :
    Sound (placeMarketStake txt nodeId title side amount p now l).1 ∧
      totalRep (Oracle.placeMarketStake txt nodeId title side amount p now l).1 = totalRep l := by
  rcases @placeMarketStake_cases txt nodeId title side amount p now l with heq | ⟨hpos, hlt, heq⟩
  · rw [heq]
    exact ⟨h, rfl⟩
  · obtain ⟨hamount, hcovered⟩ := h.affords hpos hlt haffordable
    have hmarket : openMarket
        (Oracle.placeMarketStake txt nodeId title side amount p now l).1.marketStakes =
        openMarket l.marketStakes ++ [(nodeId, amount)] := by
      rw [heq, openMarket, openMarket, List.filter_append, List.map_append]
      rfl
    refine ⟨⟨?_, ?_, ?_, ?_, ?_⟩, ?_⟩
    · rw [heq]
      exact h.rep
    · rw [heq]
      exact h.truth
    · rw [hmarket]
      intro x hx
      rcases List.mem_append.mp hx with hx | hx
      · exact h.market x hx
      · cases List.mem_singleton.mp hx
        exact hamount
    · intro n
      rw [hmarket, owed_append, ← add_assoc, heq]
      exact hcovered n
    · rw [heq]
      exact h.probable
    · rw [heq]
      rfl

theorem placeStake_cases (stakerId messageId posterId side : String) (amount : PyFloat) (days : Int)
    (now : ℚ) (l : Ledger) :
    (placeStake txt stakerId messageId posterId side amount days now l).1 = l ∨
      amount.le (.finite 0) = false ∧ (getOracleRep l stakerId).lt amount = false ∧
        ∃ (g : TruthStake → TruthStake) (stake : TruthStake),
          (placeStake txt stakerId messageId posterId side amount days now l).1 =
            { l with stakes := l.stakes.map g ++ [stake] } ∧
          (∀ s, (g s).resolved = s.resolved ∧ (g s).stakerId = s.stakerId ∧ (g s).amount = s.amount) ∧
          stake.resolved = false ∧ stake.stakerId = stakerId ∧ stake.amount = amount := by
  unfold placeStake
  split
  · exact Or.inl rfl
  · split
    · exact Or.inl rfl
    · split
      · exact Or.inl rfl
      · rename_i hpos
        split
        · exact Or.inl rfl
        · rename_i hlt
          split
          · exact Or.inl rfl
          · refine Or.inr ⟨Bool.eq_false_of_not_eq_true hpos, Bool.eq_false_of_not_eq_true hlt, _, _,
              rfl, fun s => ?_, rfl, rfl, rfl⟩
            split
            · exact ⟨rfl, rfl, rfl⟩
            · exact ⟨rfl, rfl, rfl⟩

theorem Sound.placeStake (h : Sound l) {stakerId messageId posterId side : String} {amount : PyFloat}
    {days : Int} {now : ℚ} (haffordable : Affordable l stakerId amount) :
    Sound (placeStake txt stakerId messageId posterId side amount days now l).1 ∧
      totalRep (Oracle.placeStake txt stakerId messageId posterId side amount days now l).1 =
        totalRep l := by
  rcases @placeStake_cases txt stakerId messageId posterId side amount days now l with
    heq | ⟨hpos, hlt, g, stake, heq, hg, hopen, hstaker, hstake⟩
  · rw [heq]
    exact ⟨h, rfl⟩
  · obtain ⟨hamount, hcovered⟩ := h.affords hpos hlt haffordable
    have hkept : ((l.stakes.map g).filter fun s => s.resolved = false).map
        (fun s => (s.stakerId, s.amount)) = openTruth l.stakes := by
      rw [List.filter_map, List.map_map, openTruth]
      have hsame : (fun s : TruthStake => decide (s.resolved = false)) ∘ g =
          fun s => decide (s.resolved = false) := funext fun s => by simp [(hg s).1]
      rw [hsame]
      exact List.map_congr_left fun s _ => by simp [(hg s).2.1, (hg s).2.2]
    have htruth : openTruth
        (Oracle.placeStake txt stakerId messageId posterId side amount days now l).1.stakes =
        openTruth l.stakes ++ [(stakerId, amount)] := by
      rw [heq, ← hkept, openTruth, List.filter_append, List.map_append]
      simp [hopen, hstaker, hstake]
    refine ⟨⟨?_, ?_, ?_, ?_, ?_⟩, ?_⟩
    · rw [heq]
      exact h.rep
    · rw [htruth]
      intro x hx
      rcases List.mem_append.mp hx with hx | hx
      · exact h.truth x hx
      · cases List.mem_singleton.mp hx
        exact hamount
    · rw [heq]
      exact h.market
    · intro n
      rw [htruth, owed_append, add_right_comm, heq]
      exact hcovered n
    · rw [heq]
      exact h.probable
    · rw [heq]
      rfl

/-! ## Minting -/

theorem predictionRep_nonneg {p : Prediction} (h : isProbability p.probabilityAtBet = true) :
    Nonneg (predictionRep p) := by
  have hround : Nonneg (round3 ((PyFloat.finite 1).sub (p.probabilityAtBet.div (.finite 100)))) := by
    rw [isProbability, Bool.and_eq_true] at h
    cases hp : p.probabilityAtBet with
    | finite q =>
      rw [hp] at h
      have hq : q ≤ 100 := PyFloat.finite_le.mp h.2
      have hleft : (0 : ℚ) ≤ 1 + -(q * (100 : ℚ)⁻¹) := by linarith
      exact Nonneg.round3 (nonneg_finite hleft)
    | negZero =>
      have hone : (0 : ℚ) ≤ 1 + -(0 * (100 : ℚ)⁻¹) := by norm_num
      exact Nonneg.round3 (nonneg_finite hone)
    | inf => rw [hp] at h; cases h.2
    | negInf => rw [hp] at h; cases h.1
    | nan => rw [hp] at h; cases h.1
  unfold predictionRep PyFloat.max
  split
  · exact hround
  · exact nonneg_finite (by norm_num)

theorem Sound.resolveMarket (h : Sound l) {title outcome : String} :
    Sound (resolveMarket txt title outcome l).1 ∧
      totalRep (Oracle.resolveMarket txt title outcome l).1 = (totalRep l).add
        (pySum (if outcome = "" then [] else (mints txt title outcome l).map Prod.snd)) := by
  have htotal := totalRep_eq h.rep
  unfold Oracle.resolveMarket
  split
  · refine ⟨h, ?_⟩
    rw [htotal]
    exact congrArg PyFloat.finite (add_zero _).symm
  · have hwon : ∀ x ∈ mints txt title outcome l, Nonneg x.2 := by
      intro x hx
      obtain ⟨p, hp, rfl⟩ := List.mem_map.mp hx
      have hconcerns := (of_decide_eq_true (List.mem_filter.mp hp).2).1
      exact predictionRep_nonneg (h.probable p (List.mem_filter.mp hp).1
        (of_decide_eq_true hconcerns).2)
    have hchanged := changed_addAll hwon h.rep
    refine ⟨⟨hchanged.nonneg, h.truth, h.market, fun n => ?_, ?_⟩, ?_⟩
    · have hcovered := h.covered n
      have howed := owed_nonneg hwon n
      refine hcovered.trans ?_
      dsimp only
      rw [hchanged.balance]
      linarith
    · intro p' hp'
      obtain ⟨p, hp, rfl⟩ := List.mem_map.mp hp'
      unfold resolvePrediction
      split
      · intro hresolved
        cases hresolved
      · exact h.probable p hp
    · rw [htotal, pySum_amounts hwon]
      exact (totalRep_eq hchanged.nonneg).trans (congrArg PyFloat.finite hchanged.worth)

/-! ## Settling stakes -/

/-- Stakes that are settled leave the balances to those that stay open. -/
theorem covered_settle {others opened opened' : List (String × PyFloat)} (hrep : NonnegRep rep)
    (hothers : ∀ x ∈ others, Nonneg x.2) (hopened' : ∀ x ∈ opened', Nonneg x.2)
    (hlosers : ∀ x ∈ losers, Nonneg x.2) (hwinners : ∀ x ∈ winners, Nonneg x.2)
    (howed : ∀ n, owed opened n = owed winners n + owed losers n + owed opened' n)
    (hcovered : ∀ n, owed others n + owed opened n ≤ val (balance rep n)) :
    Changed rep (settle losers winners rep)
        (fun n => -owed losers n + owed (paid losers winners) n)
        (-pool losers + pool (paid losers winners)) ∧
      ∀ n, owed others n + owed opened' n ≤ val (balance (settle losers winners rep) n) := by
  have hle : ∀ n, owed losers n ≤ val (balance rep n) := by
    intro n
    have hcov := hcovered n
    rw [howed] at hcov
    linarith [owed_nonneg hothers n, owed_nonneg hopened' n, owed_nonneg hwinners n]
  have hchanged := changed_settle hrep hlosers hwinners hle
  refine ⟨hchanged, fun n => ?_⟩
  have hcov := hcovered n
  rw [howed] at hcov
  rw [hchanged.balance]
  linarith [owed_nonneg hwinners n, owed_nonneg (paid_nonneg hlosers hwinners) n]

theorem marketSide_eq (title outcome : String) (wins : Bool) (l : Ledger) :
    marketSide txt title outcome wins l = (l.marketStakes.filter fun s =>
      decide (s.resolved = false) && decide (s.marketTitle = title) &&
        (decide (txt.lower s.side = txt.lower outcome) == wins)).map fun s => (s.nodeId, s.amount) := by
  unfold marketSide
  congr 1
  refine List.filter_congr fun s _ => ?_
  rw [Bool.eq_iff_iff]
  simp only [decide_eq_true_eq, Bool.and_eq_true, beq_iff_eq]
  tauto

theorem mem_openMarket_of_marketSide {title outcome : String} {wins : Bool} {x : String × PyFloat}
    (hx : x ∈ marketSide txt title outcome wins l) : x ∈ openMarket l.marketStakes := by
  obtain ⟨s, hs, rfl⟩ := List.mem_map.mp hx
  obtain ⟨hmem, hcond⟩ := List.mem_filter.mp hs
  have hopen : s.resolved = false := (of_decide_eq_true hcond).2.1
  exact List.mem_map.mpr ⟨s, List.mem_filter.mpr ⟨hmem, decide_eq_true hopen⟩, rfl⟩

section
variable {title outcome : String} {earned : MarketStake → PyFloat}

theorem resolveMarketStake_same (s : MarketStake) :
    ((resolveMarketStake txt title outcome earned s).nodeId,
      (resolveMarketStake txt title outcome earned s).amount) = (s.nodeId, s.amount) := by
  unfold resolveMarketStake
  split <;> rfl

theorem resolveMarketStake_open (s : MarketStake) :
    decide ((resolveMarketStake txt title outcome earned s).resolved = false) =
      (decide (s.resolved = false) && !decide (s.marketTitle = title)) := by
  unfold resolveMarketStake
  by_cases hopen : s.resolved = false <;> by_cases htitle : s.marketTitle = title <;>
    simp [hopen, htitle]

theorem owed_resolved (txt : OracleText) (title outcome : String) (earned : MarketStake → PyFloat)
    (l : Ledger) (n : String) :
    owed (openMarket l.marketStakes) n = owed (marketSide txt title outcome true l) n +
      owed (marketSide txt title outcome false l) n +
      owed (openMarket (l.marketStakes.map (resolveMarketStake txt title outcome earned))) n := by
  have hclose := owed_close (fun s => (s.nodeId, s.amount))
    (resolveMarketStake txt title outcome earned) (fun s => decide (s.resolved = false))
    (fun s => decide (s.marketTitle = title)) (fun s => decide (txt.lower s.side = txt.lower outcome))
    resolveMarketStake_same resolveMarketStake_open l.marketStakes n
  rw [marketSide_eq, marketSide_eq, openMarket, hclose]
  simp only [beq_true, beq_false, openMarket]

theorem mem_openMarket_of_resolved {x : String × PyFloat}
    (hx : x ∈ openMarket (l.marketStakes.map (resolveMarketStake txt title outcome earned))) :
    x ∈ openMarket l.marketStakes :=
  mem_of_close (fun s => (s.nodeId, s.amount)) (resolveMarketStake txt title outcome earned)
    (fun s => decide (s.resolved = false)) (fun s => decide (s.marketTitle = title))
    resolveMarketStake_same resolveMarketStake_open hx

end

theorem le_totalRep (h : Sound l) : (totalRep l).le (totalRep l) = true := by
  rw [totalRep_eq h.rep]
  exact PyFloat.finite_le.mpr le_rfl

theorem Sound.resolveMarketStakes (h : Sound l) {title outcome : String}
    (hexact : Exact txt l (.resolveMarketStakes title outcome)) :
    Sound (resolveMarketStakes txt title outcome l).1 ∧
      KeepsTotal txt l (.resolveMarketStakes title outcome) := by
  have hwinners : ∀ x ∈ marketSide txt title outcome true l, Nonneg x.2 := fun x hx =>
    h.market x (mem_openMarket_of_marketSide hx)
  have hlosers : ∀ x ∈ marketSide txt title outcome false l, Nonneg x.2 := fun x hx =>
    h.market x (mem_openMarket_of_marketSide hx)
  unfold KeepsTotal oracleStep Oracle.resolveMarketStakes
  simp only
  split
  · exact ⟨h, le_totalRep h, fun _ => rfl⟩
  · split
    · -- a unanimous market only closes its stakes
      refine ⟨⟨h.rep, h.truth, fun x hx => h.market x (mem_openMarket_of_resolved hx), fun n => ?_,
        h.probable⟩, (le_totalRep h : (totalRep l).le (totalRep l) = true), fun _ => rfl⟩
      have hcov := h.covered n
      rw [owed_resolved txt title outcome fun _ => .finite 0] at hcov
      have hwon := owed_nonneg hwinners n
      have hlost := owed_nonneg hlosers n
      refine le_trans ?_ hcov
      dsimp only
      linarith
    · rename_i hsome
      obtain ⟨hchanged, hcovered⟩ := covered_settle h.rep h.truth
        (fun x hx => h.market x (mem_openMarket_of_resolved hx)) hlosers hwinners
        (owed_resolved txt title outcome _ l) h.covered
      have hpaid : marketSide txt title outcome true l ≠ [] →
          pool (paid (marketSide txt title outcome false l) (marketSide txt title outcome true l)) =
            pool (marketSide txt title outcome false l) := fun hsomeone =>
        pool_paid hlosers hwinners (hexact hsomeone hsome)
      refine ⟨⟨hchanged.nonneg, h.truth, fun x hx => h.market x (mem_openMarket_of_resolved hx),
        hcovered, h.probable⟩, ?_, fun hsomeone => ?_⟩
      · rw [totalRep_eq h.rep, totalRep_eq hchanged.nonneg]
        refine PyFloat.finite_le.mpr ?_
        dsimp only
        rw [hchanged.worth]
        by_cases hsomeone : marketSide txt title outcome true l = []
        · have hnothing : pool (paid (marketSide txt title outcome false l) []) = 0 := rfl
          rw [hsomeone, hnothing]
          linarith [pool_nonneg hlosers]
        · rw [hpaid hsomeone]
          linarith
      · rw [totalRep_eq h.rep, totalRep_eq hchanged.nonneg]
        dsimp only
        rw [hchanged.worth, hpaid hsomeone]
        exact congrArg PyFloat.finite (by ring)

/-! ## Settling messages -/

section
variable {messageId side : String} {now : ℚ}

theorem truthSide_eq (on : Bool) :
    truthSide (activeStakes l messageId) side on = (l.stakes.filter fun s =>
      decide (s.resolved = false) && decide (s.messageId = messageId) &&
        (decide (s.side = side) == on)).map fun s => (s.stakerId, s.amount) := by
  unfold truthSide activeStakes
  rw [List.filter_filter]
  congr 1
  refine List.filter_congr fun s _ => ?_
  rw [Bool.eq_iff_iff]
  simp only [decide_eq_true_eq, Bool.and_eq_true, beq_iff_eq]
  tauto

theorem mem_openTruth_of_truthSide {on : Bool} {x : String × PyFloat}
    (hx : x ∈ truthSide (activeStakes l messageId) side on) : x ∈ openTruth l.stakes := by
  obtain ⟨s, hs, rfl⟩ := List.mem_map.mp hx
  obtain ⟨hmem, hcond⟩ := List.mem_filter.mp (List.mem_filter.mp hs).1
  have hopen : s.resolved = false := (of_decide_eq_true hcond).2
  exact List.mem_map.mpr ⟨s, List.mem_filter.mpr ⟨hmem, decide_eq_true hopen⟩, rfl⟩

theorem closeStake_same (s : TruthStake) :
    ((closeStake messageId s).stakerId, (closeStake messageId s).amount) =
      (s.stakerId, s.amount) := by
  unfold closeStake
  split <;> rfl

theorem closeStake_open (s : TruthStake) :
    decide ((closeStake messageId s).resolved = false) =
      (decide (s.resolved = false) && !decide (s.messageId = messageId)) := by
  unfold closeStake
  by_cases hopen : s.resolved = false <;> by_cases hid : s.messageId = messageId <;>
    simp [hopen, hid]

theorem owed_closed (l : Ledger) (messageId side n : String) :
    owed (openTruth l.stakes) n = owed (truthSide (activeStakes l messageId) side true) n +
      owed (truthSide (activeStakes l messageId) side false) n +
      owed (openTruth (l.stakes.map (closeStake messageId))) n := by
  have hclose := owed_close (fun s => (s.stakerId, s.amount)) (closeStake messageId)
    (fun s => decide (s.resolved = false)) (fun s => decide (s.messageId = messageId))
    (fun s => decide (s.side = side)) closeStake_same closeStake_open l.stakes n
  rw [truthSide_eq, truthSide_eq, openTruth, hclose]
  simp only [beq_true, beq_false, openTruth]

theorem mem_openTruth_of_closed {x : String × PyFloat}
    (hx : x ∈ openTruth (l.stakes.map (closeStake messageId))) : x ∈ openTruth l.stakes :=
  mem_of_close (fun s => (s.stakerId, s.amount)) (closeStake messageId)
    (fun s => decide (s.resolved = false)) (fun s => decide (s.messageId = messageId))
    closeStake_same closeStake_open hx

/-- Closing the stakes of one message leaves those of another. -/
theorem filter_closed {other : String} (hne : other ≠ messageId) (stakes : List TruthStake) :
    ((stakes.map (closeStake messageId)).filter fun s => s.messageId = other ∧ s.resolved = false) =
      stakes.filter fun s => s.messageId = other ∧ s.resolved = false := by
  induction stakes with
  | nil => rfl
  | cons s stakes ih =>
    rw [List.map_cons, List.filter_cons, List.filter_cons, ih]
    unfold closeStake
    split
    · rename_i hclosed
      have hother : s.messageId ≠ other := fun heq => hne (heq.symm.trans hclosed.1)
      simp [hother]
    · rfl

/-- What the round of one message keeps. -/
structure RoundKeeps (messageId : String) (l l' : Ledger) : Prop where
  sound : Sound l'
  total : totalRep l' = totalRep l
  others : ∀ other, other ≠ messageId → activeStakes l' other = activeStakes l other

/-- The winnings of an expired message add up to what its losers lose. -/
def MessageExact (now : ℚ) (group : List TruthStake) : Prop :=
  group.all (fun s => s.expiresAt ≤ now) → ∀ side ∈ winningSide group,
    DividesEvenly (truthSide group side false) (truthSide group side true)

theorem Sound.resolveMessage (h : Sound l) (resolutions : List Resolution)
    (hexact : MessageExact now (activeStakes l messageId)) :
    RoundKeeps messageId l
      (resolveMessage now messageId (activeStakes l messageId) (l, resolutions)).1 := by
  unfold Oracle.resolveMessage
  split
  · exact ⟨h, rfl, fun _ _ => rfl⟩
  · rename_i hexpired
    have htruth : ∀ x ∈ openTruth (l.stakes.map (closeStake messageId)), Nonneg x.2 :=
      fun x hx => h.truth x (mem_openTruth_of_closed hx)
    cases hside : winningSide (activeStakes l messageId) with
    | none =>
      -- a tie only closes the stakes
      refine ⟨⟨h.rep, htruth, h.market, fun n => ?_, h.probable⟩, rfl, fun other hne =>
        filter_closed hne l.stakes⟩
      have hcov := h.covered n
      rw [owed_closed l messageId ""] at hcov
      have hsides : ∀ on, 0 ≤ owed (truthSide (activeStakes l messageId) "" on) n := fun on =>
        owed_nonneg (fun x hx => h.truth x (mem_openTruth_of_truthSide hx)) n
      have hon := hsides true
      have hoff := hsides false
      dsimp only
      linarith
    | some side =>
      have hwinners : ∀ x ∈ truthSide (activeStakes l messageId) side true, Nonneg x.2 :=
        fun x hx => h.truth x (mem_openTruth_of_truthSide hx)
      have hlosers : ∀ x ∈ truthSide (activeStakes l messageId) side false, Nonneg x.2 :=
        fun x hx => h.truth x (mem_openTruth_of_truthSide hx)
      have hcov : ∀ n, owed (openMarket l.marketStakes) n + owed (openTruth l.stakes) n ≤
          val (balance l.oracleRep n) := fun n => by
        rw [add_comm]
        exact h.covered n
      obtain ⟨hchanged, hcovered⟩ := covered_settle h.rep h.market htruth hlosers hwinners
        (owed_closed l messageId side) hcov
      have hdivides := hexact (by simpa using hexpired) side hside
      refine ⟨⟨hchanged.nonneg, htruth, h.market, fun n => ?_, h.probable⟩, ?_, fun other hne =>
        filter_closed hne l.stakes⟩
      · have hafter := hcovered n
        rw [add_comm] at hafter
        exact hafter
      · rw [totalRep_eq h.rep, totalRep_eq hchanged.nonneg]
        dsimp only
        rw [hchanged.worth, pool_paid hlosers hwinners hdivides]
        exact congrArg PyFloat.finite (by ring)

theorem Sound.resolveMessages (h : Sound l) {messageIds : List String} (hnodup : messageIds.Nodup)
    {l₀ : Ledger} (resolutions : List Resolution)
    (hsame : ∀ messageId ∈ messageIds, activeStakes l messageId = activeStakes l₀ messageId)
    (hexact : ∀ messageId ∈ messageIds, MessageExact now (activeStakes l₀ messageId)) :
    let st := messageIds.foldl (fun st messageId =>
      Oracle.resolveMessage now messageId (activeStakes l₀ messageId) st) (l, resolutions)
    Sound st.1 ∧ totalRep st.1 = totalRep l := by
  induction messageIds generalizing l resolutions with
  | nil => exact ⟨h, rfl⟩
  | cons messageId messageIds ih =>
    obtain ⟨hfresh, hrest⟩ := List.nodup_cons.mp hnodup
    have hfirst := hsame messageId List.mem_cons_self
    have hround := h.resolveMessage resolutions
      (hfirst ▸ hexact messageId List.mem_cons_self)
    rw [hfirst] at hround
    have hnext := ih hround.sound hrest
      (Oracle.resolveMessage now messageId (activeStakes l₀ messageId) (l, resolutions)).2 ?_
      fun m hm => hexact m (List.mem_cons_of_mem _ hm)
    · exact ⟨hnext.1, hnext.2.trans hround.total⟩
    · intro other hother
      have hne : other ≠ messageId := fun heq => hfresh (heq ▸ hother)
      exact (hround.others other hne).trans (hsame other (List.mem_cons_of_mem _ hother))

end

theorem Sound.resolveExpiredStakes (h : Sound l) {now : ℚ}
    (hexact : Exact txt l (.resolveExpiredStakes now)) :
    Sound (resolveExpiredStakes now l).1 ∧
      totalRep (Oracle.resolveExpiredStakes now l).1 = totalRep l :=
  h.resolveMessages (Sort.nodup_eraseDups _) [] (fun _ _ => rfl) hexact

theorem openMarket_filter {keep : MarketStake → Bool}
    (hkeep : ∀ s, s.resolved = false → keep s = true) (stakes : List MarketStake) :
    openMarket (stakes.filter keep) = openMarket stakes := by
  unfold openMarket
  rw [List.filter_filter]
  congr 1
  refine List.filter_congr fun s _ => ?_
  by_cases hopen : s.resolved = false
  · simp [hopen, hkeep s hopen]
  · simp [hopen]

theorem Sound.cleanupOldData (h : Sound l) (now : ℚ) : Sound (cleanupOldData now l) := by
  have hmarket : openMarket (Oracle.cleanupOldData now l).marketStakes = openMarket l.marketStakes :=
    openMarket_filter (fun s hs => by simp [hs]) l.marketStakes
  refine ⟨h.rep, h.truth, ?_, ?_, ?_⟩
  · rw [hmarket]
    exact h.market
  · rw [hmarket]
    exact h.covered
  · exact fun p hp => h.probable p (List.mem_of_mem_filter hp)

theorem Sound.placePrediction (h : Sound l) {nodeId title side : String} {p : PyFloat} {now : ℚ} :
    Sound (placePrediction nodeId title side p now l).1 ∧
      totalRep (Oracle.placePrediction nodeId title side p now l).1 = totalRep l := by
  unfold Oracle.placePrediction
  split
  · exact ⟨h, rfl⟩
  · split
    · exact ⟨h, rfl⟩
    · rename_i hprobable
      split
      · exact ⟨h, rfl⟩
      · split
        · exact ⟨h, rfl⟩
        · refine ⟨⟨h.rep, h.truth, h.market, h.covered, fun q hq hopen => ?_⟩, rfl⟩
          rcases List.mem_append.mp hq with hold | hnew
          · exact h.probable q hold hopen
          · rw [List.mem_singleton.mp hnew]
            exact Bool.eq_true_of_not_eq_false hprobable

/-! ## Runs -/

theorem Sound.step (h : Sound l) {op : OracleOp} (hexact : Exact txt l op) :
    Sound (oracleStep txt l op) ∧ KeepsTotal txt l op := by
  cases op with
  | placePrediction nodeId title side p now => exact h.placePrediction
  | resolveMarket title outcome => exact h.resolveMarket
  | placeMarketStake nodeId title side amount p now => exact h.placeMarketStake hexact
  | resolveMarketStakes title outcome => exact h.resolveMarketStakes hexact
  | placeStake stakerId messageId posterId side amount days now => exact h.placeStake hexact
  | resolveExpiredStakes now => exact h.resolveExpiredStakes hexact
  | cleanupOldData now => exact ⟨h.cleanupOldData now, rfl⟩

instance (l : Ledger) (nodeId : String) (amount : PyFloat) : Decidable (Affordable l nodeId amount) :=
  inferInstanceAs (Decidable (_ = false → _ = false → _ = true))

instance (losers winners : List (String × PyFloat)) : Decidable (DividesEvenly losers winners) :=
  inferInstanceAs (Decidable (_ = _))

instance (txt : OracleText) (l : Ledger) : (op : OracleOp) → Decidable (Exact txt l op)
  | .placePrediction .. => inferInstanceAs (Decidable True)
  | .resolveMarket .. => inferInstanceAs (Decidable True)
  | .placeMarketStake nodeId _ _ amount _ _ => inferInstanceAs (Decidable (Affordable l nodeId amount))
  | .resolveMarketStakes title outcome =>
    inferInstanceAs (Decidable (marketSide txt title outcome true l ≠ [] →
      marketSide txt title outcome false l ≠ [] → DividesEvenly _ _))
  | .placeStake stakerId _ _ _ amount _ _ => inferInstanceAs (Decidable (Affordable l stakerId amount))
  | .resolveExpiredStakes now =>
    inferInstanceAs (Decidable (∀ messageId ∈ activeMessages l,
      (activeStakes l messageId).all (fun s => s.expiresAt ≤ now) →
        ∀ side ∈ winningSide (activeStakes l messageId), DividesEvenly _ _))
  | .cleanupOldData _ => inferInstanceAs (Decidable True)

/-- Texts in lower case. -/
def lowerText : OracleText := ⟨fun s => s, fun _ => "", fun _ => ""⟩

/-- Two nodes earn one rep each, and stake against each other on a market and on a message. -/
def stakeRun : List OracleOp :=
  [.placePrediction "a" "m1" "yes" (.finite 0) 0, .placePrediction "b" "m1" "yes" (.finite 0) 0,
    .resolveMarket "m1" "yes", .placeMarketStake "a" "m2" "yes" (.finite (1 / 2)) (.finite 50) 1,
    .placeMarketStake "b" "m2" "no" (.finite (1 / 2)) (.finite 50) 1,
    .placeStake "a" "post" "c" "truth" (.finite (1 / 2)) 1 1,
    .placeStake "b" "post" "c" "false" (.finite (1 / 4)) 1 2, .resolveMarketStakes "m2" "yes",
    .resolveExpiredStakes 1000000, .cleanupOldData 100000000]

end Vincent.Oracle
