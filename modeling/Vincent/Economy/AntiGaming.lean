-- SUMMARY: The anti-gaming multipliers lower common reputation.
import Vincent.Economy.CommonRep

/-!
# Anti-gaming

Each multiplier of an uprep, and the progressive penalty, is between zero and one, so
they only take from the sum. A zero makes NaN of an infinite reputation; finite ones
never meet this.
-/

namespace Vincent.Economy.AntiGaming

open Vincent.Python Vincent.Check

section Model

variable (rt : Runtime) (log2 : PyFloat → PyFloat) (cfg : CommonRepConfig)

/-! ## Without the multipliers -/

/-- What one uprep gives to the node with `apply_anti_gaming=False`. -/
def baseTerm (node : String) (events : List Dict) (event : Dict) :
    Except String (Option PyFloat) := do
  let p ← uprepPayload event
  if !(Dict.get p "target_node_id").eq (.str node) then return none
  else match nodeId event with
  | none => return none
  | some upreper =>
    if upreper = node then return none
    else
      let oracleRep ← computeOracleRep rt cfg.toRepConfig upreper events
      return some (oracleRep.mul (.finite cfg.commonRepWeightFactor))

/-- `compute_common_rep` with `apply_anti_gaming=False`. -/
def computeBaseRep (node : String) (events : List Dict) : Except String PyFloat := do
  let terms ← (upreps events).filterMapM (baseTerm rt cfg node events)
  return terms.foldl PyFloat.add (.finite 0)

/-! ## What is read of an uprep -/

/-- The upreper of an uprep that counts for the node. -/
def countedUpreper (node : String) (event : Dict) : Option String :=
  match uprepPayload event with
  | .error _ => none
  | .ok p =>
    if (Dict.get p "target_node_id").eq (.str node) then (nodeId event).filter fun u => u ≠ node
    else none

/-- The reputation of the upreper, and the multipliers. -/
structure Reading where
  oracleRep : PyFloat
  vcs : ℚ
  clustering : ℚ
  burst : ℚ

def Reading.base (u : Reading) : PyFloat := u.oracleRep.mul (.finite cfg.commonRepWeightFactor)

def Reading.term (u : Reading) : PyFloat :=
  (((u.base cfg).mul (.finite u.vcs)).mul (.finite u.clustering)).mul (.finite u.burst)

/-- What is read of an uprep that counts. -/
structure Reads (node : String) (events : List Dict) (event : Dict) (u : Reading) : Prop where
  oracleRep : ∃ upreper, countedUpreper node event = some upreper ∧
    computeOracleRep rt cfg.toRepConfig upreper events = .ok u.oracleRep
  multipliers : ∃ upreper ts coefficient inBurst, countedUpreper node event = some upreper ∧
    catching ["TypeError", "ValueError"] (timestamp rt event) (.finite 0) = .ok ts ∧
    computeVcs rt cfg upreper node events ts = .ok u.vcs ∧
    computeClusteringCoefficient rt cfg node events ts = .ok coefficient ∧
    isInBurst rt cfg node ts events = .ok inBurst ∧
    u.clustering = clusteringPenalty cfg coefficient ∧ u.burst = temporalMultiplier inBurst

/-- The reputation is a number, and if it is infinite no multiplier is zero. -/
structure Reading.Sound (u : Reading) : Prop where
  number : u.oracleRep ≠ .nan
  nonzero : u.oracleRep = .inf →
    cfg.commonRepWeightFactor ≠ 0 ∧ u.vcs ≠ 0 ∧ u.clustering ≠ 0

/-- No reputation that counts is NaN, and none that is infinite meets a zero multiplier. -/
structure SoundUpreps (node : String) (events : List Dict) : Prop where
  upreps : ∀ event ∈ upreps events, ∀ u, Reads rt cfg node events event u → u.Sound cfg
  penalty : (∃ event ∈ Economy.upreps events, ∃ u, Reads rt cfg node events event u ∧
      u.oracleRep = .inf) →
    ∀ oracleRep p, computeOracleRep rt cfg.toRepConfig node events = .ok oracleRep →
      progressivePenaltyMultiplierFor rt log2 cfg node events oracleRep = .ok p → p ≠ .finite 0

end Model

/-! ## Amounts -/

section Amounts

variable {a b : WithTop ℚ} {m : ℚ}

/-- The float of an amount that may be infinite. -/
def amount : WithTop ℚ → PyFloat
  | ⊤ => .inf
  | (q : ℚ) => .finite q

theorem amount_add (a b : WithTop ℚ) : (amount a).add (amount b) = amount (a + b) := by
  cases a with
  | top => cases b <;> rfl
  | coe p =>
    cases b with
    | top => rfl
    | coe q => rfl

theorem amount_le : (amount a).le (amount b) = true ↔ a ≤ b := by
  have hplace : ∀ a, (amount a).place = (a : WithBot (WithTop ℚ)) := fun a => by cases a <;> rfl
  have hnan : ∀ a, amount a ≠ .nan := fun a => by cases a <;> exact nofun
  rw [PyFloat.le_place (hnan a) (hnan b), hplace, hplace, WithBot.coe_le_coe]

/-- The amount times a number. -/
def scale (a : WithTop ℚ) (m : ℚ) : WithTop ℚ := a.map fun q => q * m

theorem amount_mul (hm : 0 ≤ m) (h : a = ⊤ → m ≠ 0) :
    (amount a).mul (.finite m) = amount (scale a m) := by
  cases a with
  | coe q => rfl
  | top =>
    have hpos : (PyFloat.finite 0).lt (.finite m) = true :=
      decide_eq_true (lt_of_le_of_ne hm (h rfl).symm)
    change PyFloat.infMul true (.finite m) = .inf
    unfold PyFloat.infMul
    rw [if_pos hpos]
    rfl

theorem float_le_of_lt {x y : PyFloat} (h : x.lt y = true) : x.le y = true := by
  have hx : x ≠ .nan := by
    rintro rfl
    cases h
  have hy : y ≠ .nan := by
    rintro rfl
    cases x <;> cases h
  exact (PyFloat.le_place hx hy).mpr ((PyFloat.lt_place hx hy).mp h).le

theorem scale_eq_top : scale a m = ⊤ ↔ a = ⊤ := by
  cases a with
  | top => exact ⟨fun _ => rfl, fun _ => rfl⟩
  | coe q => exact ⟨fun h => absurd h (WithTop.coe_ne_top), fun h => absurd h WithTop.coe_ne_top⟩

theorem scale_nonneg (ha : 0 ≤ a) (hm : 0 ≤ m) : 0 ≤ scale a m := by
  cases a with
  | top => exact le_top
  | coe q => exact WithTop.coe_le_coe.mpr (mul_nonneg (WithTop.coe_le_coe.mp ha) hm)

theorem scale_le (ha : 0 ≤ a) (hm : m ≤ 1) : scale a m ≤ a := by
  cases a with
  | top => exact le_top
  | coe q => exact WithTop.coe_le_coe.mpr (mul_le_of_le_one_right (WithTop.coe_le_coe.mp ha) hm)

theorem foldl_amount (as : List (WithTop ℚ)) (a : WithTop ℚ) :
    (as.map amount).foldl PyFloat.add (amount a) = amount (a + as.sum) := by
  induction as generalizing a with
  | nil => rw [List.sum_nil, add_zero]; rfl
  | cons b as ih => rw [List.map_cons, List.foldl_cons, amount_add, ih, List.sum_cons, add_assoc]

theorem nan_add (x : PyFloat) : PyFloat.nan.add x = .nan := by cases x <;> rfl

theorem add_nan (x : PyFloat) : x.add .nan = .nan := by cases x <;> rfl

theorem foldl_nan (xs : List PyFloat) : xs.foldl PyFloat.add .nan = .nan := by
  induction xs with
  | nil => rfl
  | cons x xs ih => rw [List.foldl_cons, nan_add, ih]

theorem foldl_of_nan {xs : List PyFloat} (h : PyFloat.nan ∈ xs) (x : PyFloat) :
    xs.foldl PyFloat.add x = .nan := by
  induction xs generalizing x with
  | nil => exact absurd h List.not_mem_nil
  | cons y xs ih =>
    rw [List.foldl_cons]
    rcases List.mem_cons.mp h with rfl | h
    · rw [add_nan, foldl_nan]
    · exact ih h _

theorem sum_eq_top {as : List (WithTop ℚ)} : as.sum = ⊤ ↔ ⊤ ∈ as := by
  induction as with
  | nil => exact ⟨fun h => absurd h WithTop.coe_ne_top, fun h => absurd h List.not_mem_nil⟩
  | cons a as ih =>
    rw [List.sum_cons, WithTop.add_eq_top, ih, List.mem_cons]
    exact or_congr_left ⟨Eq.symm, Eq.symm⟩

end Amounts

/-! ## The multipliers -/

section Multipliers

variable {rt : Runtime} {log2 : PyFloat → PyFloat} {cfg : CommonRepConfig} {events : List Dict}
  {now : PyFloat} {node upreperId targetId : String}

theorem correlationOf_range (edges : Finset (String × String)) :
    cfg.vcsMinWeight ≤ correlationOf cfg upreperId targetId edges ∧
      correlationOf cfg upreperId targetId edges ≤ 1 := by
  unfold correlationOf
  dsimp only
  split
  · exact ⟨cfg.vcsMin_range.2, le_refl 1⟩
  · refine ⟨le_max_left _ _, max_le cfg.vcsMin_range.2 (sub_le_self 1 ?_)⟩
    positivity

theorem computeVcs_range {vcs : ℚ}
    (h : computeVcs rt cfg upreperId targetId events now = .ok vcs) :
    cfg.vcsMinWeight ≤ vcs ∧ vcs ≤ 1 := by
  unfold computeVcs at h
  split_ifs at h
  · cases h
    exact ⟨le_refl _, cfg.vcsMin_range.2⟩
  · cases h
    exact ⟨cfg.vcsMin_range.2, le_refl 1⟩
  · obtain ⟨edges, -, rfl⟩ := map_eq_ok.mp h
    exact correlationOf_range edges

/-- There are at most as many linked pairs as pairs: the pairs and their swaps are disjoint. -/
theorem card_linked_le (voters : Finset String) (p : String × String → Prop) [DecidablePred p] :
    2 * ((voters ×ˢ voters).filter fun e => e.1 < e.2 ∧ p e).card ≤
      voters.card * (voters.card - 1) := by
  set linked := (voters ×ˢ voters).filter fun e => e.1 < e.2 ∧ p e with hlinked
  have hmem : ∀ e ∈ linked, e.1 ∈ voters ∧ e.2 ∈ voters ∧ e.1 < e.2 := by
    intro e he
    obtain ⟨hin, hlt, -⟩ := Finset.mem_filter.mp he
    exact ⟨(Finset.mem_product.mp hin).1, (Finset.mem_product.mp hin).2, hlt⟩
  have hdisjoint : Disjoint linked (linked.image Prod.swap) := by
    rw [Finset.disjoint_left]
    intro e he hswap
    obtain ⟨f, hf, rfl⟩ := Finset.mem_image.mp hswap
    exact String.lt_asymm (hmem f hf).2.2 (hmem _ he).2.2
  have hsub : linked ∪ linked.image Prod.swap ⊆ voters.offDiag := by
    intro e he
    rcases Finset.mem_union.mp he with he | he
    · obtain ⟨h₁, h₂, hlt⟩ := hmem e he
      exact Finset.mem_offDiag.mpr ⟨h₁, h₂, fun heq => String.lt_irrefl _ (heq ▸ hlt)⟩
    · obtain ⟨f, hf, rfl⟩ := Finset.mem_image.mp he
      obtain ⟨h₁, h₂, hlt⟩ := hmem f hf
      refine Finset.mem_offDiag.mpr ⟨h₂, h₁, fun heq => ?_⟩
      have hsame : f.1 = f.2 := heq.symm
      rw [hsame] at hlt
      exact String.lt_irrefl _ hlt
  have hcard := Finset.card_le_card hsub
  rw [Finset.card_union_of_disjoint hdisjoint,
    Finset.card_image_of_injective _ Prod.swap_injective, Finset.offDiag_card] at hcard
  rw [Nat.mul_sub_one, two_mul]
  exact hcard

theorem clusteringOf_range (edges : Finset (String × String)) :
    0 ≤ clusteringOf targetId edges ∧ clusteringOf targetId edges ≤ 1 := by
  unfold clusteringOf
  dsimp only
  generalize (edges.filter fun e => e.2 = targetId).image Prod.fst = voters
  have hcard := card_linked_le voters fun e => e ∈ edges ∨ e.swap ∈ edges
  generalize ((voters ×ˢ voters).filter fun e => e.1 < e.2 ∧ (e ∈ edges ∨ e.swap ∈ edges)).card =
    linked at hcard ⊢
  split
  · exact ⟨le_refl 0, zero_le_one⟩
  · rename_i hvoters
    have htwo : 2 ≤ voters.card := not_lt.mp hvoters
    have hsub : ((voters.card - 1 : ℕ) : ℚ) = (voters.card : ℚ) - 1 :=
      Nat.cast_pred (by omega)
    have hcardq : 2 * (linked : ℚ) ≤ voters.card * ((voters.card : ℚ) - 1) := by
      rw [← hsub]
      exact_mod_cast hcard
    have hpos : 0 < (voters.card : ℚ) * ((voters.card : ℚ) - 1) / 2 := by
      have htwoq : (2 : ℚ) ≤ voters.card := by exact_mod_cast htwo
      have hone : 0 < (voters.card : ℚ) - 1 := by linarith
      positivity
    refine ⟨div_nonneg (Nat.cast_nonneg _) hpos.le, (div_le_one hpos).mpr ?_⟩
    linarith

theorem computeClusteringCoefficient_range {coefficient : ℚ}
    (h : computeClusteringCoefficient rt cfg targetId events now = .ok coefficient) :
    0 ≤ coefficient ∧ coefficient ≤ 1 := by
  unfold computeClusteringCoefficient at h
  split_ifs at h
  · cases h
    exact ⟨le_refl 0, zero_le_one⟩
  · obtain ⟨edges, -, rfl⟩ := map_eq_ok.mp h
    exact clusteringOf_range edges

theorem clusteringPenalty_range {coefficient : ℚ} (h : 0 ≤ coefficient) :
    0 ≤ clusteringPenalty cfg coefficient ∧ clusteringPenalty cfg coefficient ≤ 1 :=
  ⟨cfg.clusteringMin_range.1.trans (le_max_left _ _),
    max_le cfg.clusteringMin_range.2 (sub_le_self 1 h)⟩

theorem temporalMultiplier_range (inBurst : Bool) :
    0 < temporalMultiplier inBurst ∧ temporalMultiplier inBurst ≤ 1 := by
  cases inBurst <;> decide +kernel

/-- The progressive penalty is a number between zero and one. -/
theorem progressivePenalty_range {oracleRep p : PyFloat}
    (hlog : ∀ x, (PyFloat.finite 1).le x = true → (PyFloat.finite 0).le (log2 x) = true)
    (h : progressivePenaltyMultiplierFor rt log2 cfg node events oracleRep = .ok p) :
    ∃ q : ℚ, p = .finite q ∧ 0 ≤ q ∧ q ≤ 1 := by
  unfold progressivePenaltyMultiplierFor at h
  split at h
  · cases h
    exact ⟨1, rfl, zero_le_one, le_refl 1⟩
  · obtain ⟨score, -, h⟩ := bind_eq_ok.mp h
    split at h
    · cases h
      exact ⟨1, rfl, zero_le_one, le_refl 1⟩
    · rename_i hover
      cases h
      have hover : 0 < score - cfg.progressivePenaltyThreshold := sub_pos.mpr (not_le.mp hover)
      generalize score - cfg.progressivePenaltyThreshold = excess at hover
      have hone : (PyFloat.finite 1).le ((PyFloat.finite 1).max oracleRep) = true := by
        unfold PyFloat.max
        split
        · rename_i hlt
          exact float_le_of_lt hlt
        · exact PyFloat.finite_le.mpr (le_refl 1)
      have hbits := hlog _ hone
      unfold applyProgressivePenalty
      generalize log2 ((PyFloat.finite 1).max oracleRep) = bits at hbits
      -- the deduction is an amount, so that one less it is at most one
      cases bits with
      | finite b =>
        have hb : 0 ≤ b := PyFloat.finite_le.mp hbits
        have hdocked : 0 ≤ excess * (1 + b) := by positivity
        change ∃ q : ℚ, (PyFloat.finite 0).max (.finite (1 + -(excess * (1 + b)))) = .finite q ∧ _
        unfold PyFloat.max
        split
        · rename_i hlt
          have hpos : 0 < 1 + -(excess * (1 + b)) := of_decide_eq_true hlt
          exact ⟨_, rfl, hpos.le, by linarith⟩
        · exact ⟨0, rfl, le_refl 0, zero_le_one⟩
      | negZero =>
        change ∃ q : ℚ, (PyFloat.finite 0).max (.finite (1 + -(excess * (1 + 0)))) = .finite q ∧ _
        unfold PyFloat.max
        split
        · rename_i hlt
          have hpos : 0 < 1 + -(excess * (1 + 0)) := of_decide_eq_true hlt
          exact ⟨_, rfl, hpos.le, by linarith⟩
        · exact ⟨0, rfl, le_refl 0, zero_le_one⟩
      | inf =>
        have hdocked : (PyFloat.finite excess).mul .inf = .inf := by
          have hpos : (PyFloat.finite 0).lt (.finite excess) = true := decide_eq_true hover
          change PyFloat.infMul true (.finite excess) = .inf
          unfold PyFloat.infMul
          rw [if_pos hpos]
          rfl
        refine ⟨0, ?_, le_refl 0, zero_le_one⟩
        change (PyFloat.finite 0).max ((PyFloat.finite 1).sub ((PyFloat.finite excess).mul .inf)) = _
        rw [hdocked]
        rfl
      | negInf => cases hbits
      | nan => cases hbits

end Multipliers

/-! ## Terms -/

section Terms

variable {rt : Runtime} {log2 : PyFloat → PyFloat} {cfg : CommonRepConfig} {events : List Dict}
  {event : Dict} {node : String} {u u' : Reading}

theorem computeOracleRep_amount {repConfig : RepConfig} {x : PyFloat}
    (h : computeOracleRep rt repConfig node events = .ok x) :
    x = .nan ∨ ∃ a, 0 ≤ a ∧ x = amount a := by
  unfold computeOracleRep at h
  obtain ⟨bd, hbd, h⟩ := bind_eq_ok.mp h
  unfold computeOracleRepBreakdown at hbd
  obtain ⟨sorted, -, hbd⟩ := bind_eq_ok.mp hbd
  unfold breakdownOf at hbd
  obtain ⟨markets, -, hbd⟩ := bind_eq_ok.mp hbd
  obtain ⟨farmingPct, -, hbd⟩ := bind_eq_ok.mp hbd
  obtain ⟨earned, -, hbd⟩ := bind_eq_ok.mp hbd
  cases hbd
  cases h
  unfold Earned.breakdown
  dsimp only
  split
  · exact .inr ⟨0, le_refl 0, rfl⟩
  · rename_i hnonneg
    have hsum : (earned.freeMint.add earned.stakedReturn).sub earned.stakedLoss ≠ .negZero :=
      PyFloat.add_ne_negZero _ _
    generalize (earned.freeMint.add earned.stakedReturn).sub earned.stakedLoss = total at *
    cases total with
    | finite q =>
      refine .inr ⟨(q : WithTop ℚ), WithTop.coe_nonneg.mpr (not_lt.mp fun hneg => hnonneg ?_), rfl⟩
      exact decide_eq_true hneg
    | negZero => exact absurd rfl hsum
    | inf => exact .inr ⟨⊤, le_top, rfl⟩
    | negInf => exact absurd rfl hnonneg
    | nan => exact .inl rfl

theorem Reads.unique (h : Reads rt cfg node events event u)
    (h' : Reads rt cfg node events event u') : u = u' := by
  obtain ⟨⟨upreper, hu, horacle⟩, ⟨upreper₁, ts, coefficient, inBurst, hu₁, hts, hvcs, hcoefficient,
    hburst, hclustering, htemporal⟩⟩ := h
  obtain ⟨⟨upreper', hu', horacle'⟩, ⟨upreper₁', ts', coefficient', inBurst', hu₁', hts', hvcs',
    hcoefficient', hburst', hclustering', htemporal'⟩⟩ := h'
  obtain ⟨oracleRep, vcs, clustering, burst⟩ := u
  obtain ⟨oracleRep', vcs', clustering', burst'⟩ := u'
  dsimp only at *
  cases hu.symm.trans hu'
  cases hu₁.symm.trans hu₁'
  cases hts.symm.trans hts'
  cases horacle.symm.trans horacle'
  cases hvcs.symm.trans hvcs'
  cases hcoefficient.symm.trans hcoefficient'
  cases hburst.symm.trans hburst'
  rw [hclustering, htemporal, hclustering', htemporal']

/-- What an uprep gives with the multipliers and without them. -/
theorem uprepTerm_cases {o : Option PyFloat} (h : uprepTerm rt cfg node events event = .ok o) :
    (o = none ∧ countedUpreper node event = none ∧
      baseTerm rt cfg node events event = .ok none) ∨
    ∃ u, Reads rt cfg node events event u ∧ o = some (u.term cfg) ∧
      baseTerm rt cfg node events event = .ok (some (u.base cfg)) := by
  unfold uprepTerm at h
  obtain ⟨p, hp, h⟩ := bind_eq_ok.mp h
  unfold baseTerm countedUpreper
  rw [hp]
  dsimp only [bind, Except.bind]
  cases htarget : (Dict.get p "target_node_id").eq (.str node) with
  | false =>
    rw [htarget] at h
    cases h
    exact .inl ⟨rfl, rfl, rfl⟩
  | true =>
    rw [htarget] at h
    simp only [Bool.not_true, Bool.false_eq_true, if_false, if_true] at h ⊢
    cases hnode : nodeId event with
    | none =>
      rw [hnode] at h
      cases h
      exact .inl ⟨rfl, rfl, rfl⟩
    | some upreper =>
      rw [hnode] at h
      dsimp only at h ⊢
      by_cases hself : upreper = node
      · rw [if_pos hself] at h ⊢
        cases h
        refine .inl ⟨rfl, ?_, rfl⟩
        rw [Option.filter_some, if_neg]
        simpa using hself
      · rw [if_neg hself] at h ⊢
        obtain ⟨oracleRep, horacle, h⟩ := bind_eq_ok.mp h
        obtain ⟨ts, hts, h⟩ := bind_eq_ok.mp h
        obtain ⟨vcs, hvcs, h⟩ := bind_eq_ok.mp h
        obtain ⟨coefficient, hcoefficient, h⟩ := bind_eq_ok.mp h
        obtain ⟨inBurst, hburst, h⟩ := bind_eq_ok.mp h
        cases h
        have hcounted : countedUpreper node event = some upreper := by
          unfold countedUpreper
          rw [hp]
          dsimp only
          rw [htarget, if_pos rfl, hnode, Option.filter_some, if_pos]
          simpa using hself
        refine .inr ⟨⟨oracleRep, vcs, clusteringPenalty cfg coefficient,
          temporalMultiplier inBurst⟩, ⟨⟨upreper, hcounted, horacle⟩, upreper, ts, coefficient,
          inBurst, hcounted, hts, hvcs, hcoefficient, hburst, rfl, rfl⟩, rfl, ?_⟩
        rw [horacle]
        rfl

/-- The terms of the sum with the multipliers, and those of the sum without them. -/
theorem filterMapM_uprepTerm {l : List Dict} {terms : List PyFloat}
    (h : l.filterMapM (uprepTerm rt cfg node events) = .ok terms) :
    ∃ us : List Reading, terms = us.map (Reading.term cfg) ∧
      l.filterMapM (baseTerm rt cfg node events) = .ok (us.map (Reading.base cfg)) ∧
      (∀ u ∈ us, ∃ event ∈ l, Reads rt cfg node events event u) ∧
      ∀ event ∈ l, ∀ u, Reads rt cfg node events event u → u ∈ us := by
  induction l generalizing terms with
  | nil =>
    cases h
    exact ⟨[], rfl, rfl, fun u hu => absurd hu List.not_mem_nil,
      fun e he => absurd he List.not_mem_nil⟩
  | cons event l ih =>
    obtain ⟨o, rest, ho, hrest, rfl⟩ := filterMapM_cons_eq_ok.mp h
    obtain ⟨us, rfl, hbase, hfrom, hall⟩ := ih hrest
    rcases uprepTerm_cases ho with ⟨rfl, hnone, hbase'⟩ | ⟨u, hreads, rfl, hbase'⟩
    · refine ⟨us, rfl, filterMapM_cons_eq_ok.mpr ⟨none, _, hbase', hbase, rfl⟩, fun u hu => ?_, ?_⟩
      · obtain ⟨e, he, hreads⟩ := hfrom u hu
        exact ⟨e, List.mem_cons_of_mem _ he, hreads⟩
      · intro e he u hreads
        rcases List.mem_cons.mp he with rfl | he
        · obtain ⟨upreper, hcounted, -⟩ := hreads.oracleRep
          cases hnone.symm.trans hcounted
        · exact hall e he u hreads
    · refine ⟨u :: us, rfl, filterMapM_cons_eq_ok.mpr ⟨some _, _, hbase', hbase, rfl⟩, ?_, ?_⟩
      · intro v hv
        rcases List.mem_cons.mp hv with rfl | hv
        · exact ⟨event, List.mem_cons_self, hreads⟩
        · obtain ⟨e, he, hreads'⟩ := hfrom v hv
          exact ⟨e, List.mem_cons_of_mem _ he, hreads'⟩
      · intro e he v hreads'
        rcases List.mem_cons.mp he with rfl | he
        · rw [hreads'.unique hreads]
          exact List.mem_cons_self
        · exact List.mem_cons_of_mem _ (hall e he v hreads')

/-- A reading with its multipliers in range. -/
structure Reading.InRange (u : Reading) : Prop where
  oracleRep : u.oracleRep = .nan ∨ ∃ a, 0 ≤ a ∧ u.oracleRep = amount a
  vcs : 0 ≤ u.vcs ∧ u.vcs ≤ 1
  clustering : 0 ≤ u.clustering ∧ u.clustering ≤ 1
  burst : 0 < u.burst ∧ u.burst ≤ 1

theorem Reads.inRange (h : Reads rt cfg node events event u) : u.InRange := by
  obtain ⟨⟨upreper, -, horacle⟩, ⟨upreper', ts, coefficient, inBurst, -, -, hvcs, hcoefficient, -,
    hclustering, hburst⟩⟩ := h
  have hrange := computeVcs_range hvcs
  exact ⟨computeOracleRep_amount horacle, ⟨cfg.vcsMin_range.1.trans hrange.1, hrange.2⟩,
    hclustering ▸ clusteringPenalty_range (computeClusteringCoefficient_range hcoefficient).1,
    hburst ▸ temporalMultiplier_range inBurst⟩

/-- A sound reading gives amounts, the one with the multipliers the smaller. -/
theorem Reading.Sound.amounts (h : u.Sound cfg) (hrange : u.InRange) :
    ∃ a b, 0 ≤ a ∧ a ≤ b ∧ u.term cfg = amount a ∧ u.base cfg = amount b ∧
      (a = ⊤ ↔ u.oracleRep = .inf) := by
  obtain ⟨a, ha, horacle⟩ := hrange.oracleRep.resolve_left h.number
  have hinf : a = ⊤ ↔ u.oracleRep = .inf := by
    rw [horacle]
    cases a with
    | top => exact ⟨fun _ => rfl, fun _ => rfl⟩
    | coe q => exact ⟨fun h => absurd h WithTop.coe_ne_top, fun h => by cases h⟩
  have hnonzero (htop : a = ⊤) := h.nonzero (hinf.mp htop)
  have hbase : u.base cfg = amount (scale a cfg.commonRepWeightFactor) := by
    unfold Reading.base
    rw [horacle]
    exact amount_mul cfg.weightFactor_range.1 fun htop => (hnonzero htop).1
  have hb := scale_nonneg ha cfg.weightFactor_range.1
  refine ⟨scale (scale (scale (scale a cfg.commonRepWeightFactor) u.vcs) u.clustering) u.burst,
    scale a cfg.commonRepWeightFactor, ?_, ?_, ?_, hbase, ?_⟩
  · exact scale_nonneg (scale_nonneg (scale_nonneg hb hrange.vcs.1) hrange.clustering.1)
      hrange.burst.1.le
  · have hvcs := scale_nonneg hb hrange.vcs.1
    have hclustering := scale_nonneg hvcs hrange.clustering.1
    exact (scale_le hclustering hrange.burst.2).trans
      ((scale_le hvcs hrange.clustering.2).trans (scale_le hb hrange.vcs.2))
  · unfold Reading.term
    rw [hbase, amount_mul hrange.vcs.1 fun htop => (hnonzero (scale_eq_top.mp htop)).2.1,
      amount_mul hrange.clustering.1 fun htop =>
        (hnonzero (scale_eq_top.mp (scale_eq_top.mp htop))).2.2,
      amount_mul hrange.burst.1.le fun _ => hrange.burst.1.ne']
  · rw [scale_eq_top, scale_eq_top, scale_eq_top, scale_eq_top, hinf]

/-- An infinite reputation with a multiplier that is zero, or one that is NaN, gives NaN. -/
theorem Reading.term_of_not_sound (h : ¬ u.Sound cfg) (hrange : u.InRange) :
    u.term cfg = .nan := by
  by_cases hnan : u.oracleRep = .nan
  · unfold Reading.term Reading.base
    rw [hnan]
    rfl
  · have hzero : u.oracleRep = .inf ∧
        ¬ (cfg.commonRepWeightFactor ≠ 0 ∧ u.vcs ≠ 0 ∧ u.clustering ≠ 0) := by
      by_contra hnone
      exact h ⟨hnan, fun hinf => by_contra fun hzero => hnone ⟨hinf, hzero⟩⟩
    obtain ⟨hinf, hzero⟩ := hzero
    have hmul : ∀ {m : ℚ}, 0 ≤ m → m ≠ 0 → PyFloat.inf.mul (.finite m) = .inf :=
      fun hm hne => amount_mul (a := ⊤) hm fun _ => hne
    unfold Reading.term Reading.base
    rw [hinf]
    by_cases hfactor : cfg.commonRepWeightFactor = 0
    · rw [hfactor]
      rfl
    rw [hmul cfg.weightFactor_range.1 hfactor]
    by_cases hvcs : u.vcs = 0
    · rw [hvcs]
      rfl
    rw [hmul hrange.vcs.1 hvcs]
    have hclustering : u.clustering = 0 := by
      by_contra hne
      exact hzero ⟨hfactor, hvcs, hne⟩
    rw [hclustering]
    rfl

theorem sums_of_sound {us : List Reading} (h : ∀ u ∈ us, u.Sound cfg) (hrange : ∀ u ∈ us, u.InRange) :
    ∃ as bs : List (WithTop ℚ), us.map (Reading.term cfg) = as.map amount ∧
      us.map (Reading.base cfg) = bs.map amount ∧ 0 ≤ as.sum ∧ as.sum ≤ bs.sum ∧
      (⊤ ∈ as ↔ ∃ u ∈ us, u.oracleRep = .inf) := by
  induction us with
  | nil =>
    exact ⟨[], [], rfl, rfl, le_refl _, le_refl _, fun h => absurd h List.not_mem_nil,
      fun ⟨_, hu, _⟩ => absurd hu List.not_mem_nil⟩
  | cons u us ih =>
    obtain ⟨as, bs, has, hbs, hnonneg, hle, htop⟩ :=
      ih (fun v hv => h v (List.mem_cons_of_mem _ hv)) fun v hv => hrange v (List.mem_cons_of_mem _ hv)
    obtain ⟨a, b, ha, hab, hterm, hbase, hinf⟩ :=
      (h u List.mem_cons_self).amounts (hrange u List.mem_cons_self)
    refine ⟨a :: as, b :: bs, ?_, ?_, ?_, ?_, ?_⟩
    · rw [List.map_cons, List.map_cons, hterm, has]
    · rw [List.map_cons, List.map_cons, hbase, hbs]
    · rw [List.sum_cons]
      exact add_nonneg ha hnonneg
    · rw [List.sum_cons, List.sum_cons]
      exact add_le_add hab hle
    · rw [List.mem_cons, htop, eq_comm, hinf]
      simp

/-- The sum with the multipliers is no NaN exactly if the upreps are sound, and is then the smaller. -/
theorem commonRep_le {r : PyFloat}
    (hlog : ∀ x, (PyFloat.finite 1).le x = true → (PyFloat.finite 0).le (log2 x) = true)
    (h : computeCommonRep rt log2 cfg node events = .ok r) :
    ∃ r₀, computeBaseRep rt cfg node events = .ok r₀ ∧
      (((PyFloat.finite 0).le r = true ∧ r.le r₀ = true) ↔ SoundUpreps rt log2 cfg node events) := by
  unfold computeCommonRep at h
  obtain ⟨terms, hterms, h⟩ := bind_eq_ok.mp h
  obtain ⟨us, rfl, hbase, hfrom, hall⟩ := filterMapM_uprepTerm hterms
  have hrange : ∀ u ∈ us, u.InRange := by
    intro u hu
    obtain ⟨event, -, hreads⟩ := hfrom u hu
    exact hreads.inRange
  refine ⟨(us.map (Reading.base cfg)).foldl PyFloat.add (.finite 0), ?_, ?_⟩
  · unfold computeBaseRep
    rw [hbase]
    rfl
  have hzero : PyFloat.finite 0 = amount 0 := rfl
  by_cases hsound : ∀ u ∈ us, u.Sound cfg
  · obtain ⟨as, bs, has, hbs, hnonneg, hle, htop⟩ := sums_of_sound hsound hrange
    rw [has, hzero, foldl_amount, zero_add] at h
    rw [hbs, hzero, foldl_amount, zero_add]
    have hinfinite : as.sum = ⊤ ↔ ∃ event ∈ upreps events, ∃ u,
        Reads rt cfg node events event u ∧ u.oracleRep = .inf := by
      rw [sum_eq_top, htop]
      constructor
      · rintro ⟨u, hu, hinf⟩
        obtain ⟨event, hevent, hreads⟩ := hfrom u hu
        exact ⟨event, hevent, u, hreads, hinf⟩
      · rintro ⟨event, hevent, u, hreads, hinf⟩
        exact ⟨u, hall event hevent u hreads, hinf⟩
    have hupreps : ∀ event ∈ upreps events, ∀ u, Reads rt cfg node events event u → u.Sound cfg :=
      fun event hevent u hreads => hsound u (hall event hevent u hreads)
    dsimp only at h
    by_cases hpos : (amount 0).lt (amount as.sum) = true
    · rw [if_pos hpos] at h
      obtain ⟨oracleRep, horacle, h⟩ := bind_eq_ok.mp h
      obtain ⟨p, hp, h⟩ := bind_eq_ok.mp h
      cases h
      obtain ⟨q, rfl, hq, hone⟩ := progressivePenalty_range hlog hp
      by_cases hlost : as.sum = ⊤ ∧ q = 0
      · -- an infinite sum and a penalty that takes all of it
        obtain ⟨hsum, rfl⟩ := hlost
        rw [hsum]
        have hnan : (amount ⊤).mul (.finite 0) = .nan := rfl
        rw [hnan]
        refine ⟨fun hr => ?_, fun hr => ?_⟩
        · cases hr.1
        · exact absurd rfl (hr.penalty (hinfinite.mp hsum) oracleRep (.finite 0) horacle hp)
      · have hkept : as.sum = ⊤ → q ≠ 0 := fun hsum hq => hlost ⟨hsum, hq⟩
        rw [amount_mul hq hkept, amount_le, amount_le]
        refine ⟨fun _ => ⟨hupreps, fun hinf oracleRep' p' horacle' hp' => ?_⟩, fun _ =>
          ⟨scale_nonneg hnonneg hq, (scale_le hnonneg hone).trans hle⟩⟩
        cases horacle.symm.trans horacle'
        cases hp.symm.trans hp'
        intro heq
        cases heq
        exact hkept (hinfinite.mpr hinf) rfl
    · rw [if_neg hpos] at h
      cases h
      rw [amount_le, amount_le]
      refine ⟨fun _ => ⟨hupreps, fun hinf => ?_⟩, fun _ => ⟨hnonneg, hle⟩⟩
      exact absurd (by rw [hinfinite.mpr hinf]; rfl) hpos
  · push Not at hsound
    obtain ⟨u, hu, hunsound⟩ := hsound
    have hnan : PyFloat.nan ∈ us.map (Reading.term cfg) := by
      rw [← Reading.term_of_not_sound hunsound (hrange u hu)]
      exact List.mem_map_of_mem hu
    rw [foldl_of_nan hnan] at h
    cases h
    refine ⟨fun hr => ?_, fun hr => ?_⟩
    · cases hr.1
    · obtain ⟨event, hevent, hreads⟩ := hfrom u hu
      exact absurd (hr.upreps event hevent u hreads) hunsound

end Terms

/-- Bob wins with a stake against the others' stakes, and gives an uprep. -/
@[irreducible] def stakesOf (others : List PyVal) : List Dict :=
  dicts (finalizedMarket (placeEvent "bob" 2 "yes" 50 (.int 40) :: others) ++
    [chainEvent "uprep" "bob" 30 [("target_node_id", .str "eve")]])

/-- A stake that bob wins. -/
def finiteStake : List PyVal := [placeEvent "ana" 3 "no" 50 (.int 10)]

/-- Two infinite stakes make NaN of what bob wins. -/
def infiniteStakes : List PyVal :=
  [placeEvent "ana" 3 "yes" 50 (.float .inf), placeEvent "mallory" 4 "no" 50 (.float .inf)]

theorem commonRep_infinite :
    computeCommonRep asciiRuntime (fun _ => .finite 0) {} "eve" (stakesOf infiniteStakes) =
      .ok .nan := by
  decide +kernel

end Vincent.Economy.AntiGaming
