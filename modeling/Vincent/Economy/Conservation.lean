-- SUMMARY: When a market resolution accounts for all stakes and bonds.
import Mathlib.Tactic.Ring
import Mathlib.Tactic.Linarith
import Mathlib.Tactic.FieldSimp
import Mathlib.Algebra.BigOperators.Ring.List
import Vincent.Economy.Resolution

/-!
# Conservation in market resolution

A resolution accounts for the reputation at stake when each pool (the stakes of one
kind, the bonds) is returned, paid out or burned, and nothing else. `Accounts` splits
the burned amount over the pools; what a result leaves unpaid decides whether a split
exists.
-/

namespace Vincent.Economy

open Vincent.Python Vincent.Check

/-! ## Pools -/

namespace ResolutionResult

/-- The stakes of one kind that are returned. -/
def returned (rep : RepType) (r : ResolutionResult) : ℚ :=
  r.stakeReturns.sumOf fun k => k.2 = rep

/-- The winnings of one kind. -/
def won (rep : RepType) (r : ResolutionResult) : ℚ :=
  r.stakeWinnings.sumOf fun k => k.2 = rep

/-- The result accounts for the stakes and bonds, with `burnedStakes` and `burnedBonds` the
    parts of the burned amount. -/
structure Accounts (r : ResolutionResult) (stakes : List ResolutionStake)
    (bundles : List EvidenceBundle) (burnedStakes : RepType → ℚ) (burnedBonds : ℚ) : Prop where
  burned : r.burnedAmount = burnedStakes .oracle + burnedStakes .common + burnedBonds
  burnedStakes_nonneg : ∀ rep, 0 ≤ burnedStakes rep
  burnedBonds_nonneg : 0 ≤ burnedBonds
  stakes : ∀ rep, staked (fun s => s.repType = rep) stakes =
    r.returned rep + r.won rep + burnedStakes rep
  bonds : bonded (fun _ => true) bundles =
    r.bondReturns.total + r.firstSubmitterBonuses.total + burnedBonds
  forfeits : r.bondForfeits.total = r.firstSubmitterBonuses.total + burnedBonds

/-- Nothing staked disappears, and nothing is paid out that was not staked. -/
def Conserves (r : ResolutionResult) (stakes : List ResolutionStake)
    (bundles : List EvidenceBundle) : Prop :=
  ∃ burnedStakes burnedBonds, r.Accounts stakes bundles burnedStakes burnedBonds

/-- What is not paid out of the stakes of one kind. -/
def unpaid (rep : RepType) (r : ResolutionResult) (stakes : List ResolutionStake) : ℚ :=
  staked (fun s => s.repType = rep) stakes - (r.returned rep + r.won rep)

/-- What is not paid out of the bonds. -/
def unpaidBonds (r : ResolutionResult) (bundles : List EvidenceBundle) : ℚ :=
  bonded (fun _ => true) bundles - (r.bondReturns.total + r.firstSubmitterBonuses.total)

variable {r : ResolutionResult} {stakes : List ResolutionStake} {bundles : List EvidenceBundle}

/-- The split of the burned amount is what the pools leave unpaid. -/
theorem conserves_iff : r.Conserves stakes bundles ↔
    r.burnedAmount = r.unpaid .oracle stakes + r.unpaid .common stakes + r.unpaidBonds bundles ∧
    (∀ rep, 0 ≤ r.unpaid rep stakes) ∧ 0 ≤ r.unpaidBonds bundles ∧
    r.bondForfeits.total = r.firstSubmitterBonuses.total + r.unpaidBonds bundles := by
  constructor
  · rintro ⟨burnedStakes, burnedBonds, h⟩
    have hstakes : ∀ rep, r.unpaid rep stakes = burnedStakes rep := by
      intro rep
      unfold unpaid
      rw [h.stakes rep]
      ring
    have hbonds : r.unpaidBonds bundles = burnedBonds := by
      unfold unpaidBonds
      rw [h.bonds]
      ring
    simp only [hstakes, hbonds]
    exact ⟨h.burned, h.burnedStakes_nonneg, h.burnedBonds_nonneg, h.forfeits⟩
  · rintro ⟨hburned, hstakes, hbonds, hforfeits⟩
    refine ⟨fun rep => r.unpaid rep stakes, r.unpaidBonds bundles, hburned, hstakes, hbonds,
      ?_, ?_, hforfeits⟩
    · intro rep
      unfold unpaid
      ring
    · unfold unpaidBonds
      ring

end ResolutionResult

theorem total_kinds (t : Tally StakeKey ℚ) :
    t.total = t.sumOf (fun k => k.2 = .oracle) + t.sumOf fun k => k.2 = .common := by
  induction t with
  | nil => simp
  | cons kn t ih =>
    obtain ⟨⟨node, rep⟩, n⟩ := kn
    have hcons : Tally.total (((node, rep), n) :: t) = n + Tally.total t := by simp [Tally.total]
    rw [hcons, ih, Tally.sumOf_cons, Tally.sumOf_cons]
    cases rep <;> simp <;> ring

/-! ## Sums over stakes and bonds -/

section Sums

variable {p q : ResolutionStake → Bool} {s : ResolutionStake} {stakes : List ResolutionStake}
  {b : EvidenceBundle} {bundles : List EvidenceBundle} {pb : EvidenceBundle → Bool}

@[simp] theorem staked_nil : staked p [] = 0 := rfl

@[simp] theorem bonded_nil : bonded pb [] = 0 := rfl

theorem staked_cons : staked p (s :: stakes) = (if p s then s.amount else 0) + staked p stakes := by
  unfold staked
  cases hp : p s <;> simp [hp]

theorem bonded_cons : bonded pb (b :: bundles) = (if pb b then b.bond else 0) + bonded pb bundles := by
  unfold bonded
  cases hp : pb b <;> simp [hp]

theorem staked_nonneg (h : ∀ s ∈ stakes, 0 < s.amount) : 0 ≤ staked p stakes := by
  apply List.sum_nonneg
  intro x hx
  obtain ⟨s, hs, rfl⟩ := List.mem_map.mp hx
  exact (h s (List.mem_of_mem_filter hs)).le

theorem bonded_nonneg (h : ∀ b ∈ bundles, 0 ≤ b.bond) : 0 ≤ bonded pb bundles := by
  apply List.sum_nonneg
  intro x hx
  obtain ⟨b, hb, rfl⟩ := List.mem_map.mp hx
  exact h b (List.mem_of_mem_filter hb)

/-- A pool of positive stakes is empty exactly when nobody staked on it. -/
theorem staked_eq_zero (h : ∀ s ∈ stakes, 0 < s.amount) :
    staked p stakes = 0 ↔ ∀ s ∈ stakes, p s = false := by
  induction stakes with
  | nil => simp
  | cons s stakes ih =>
    have hs : 0 < s.amount := h s List.mem_cons_self
    have hrest : ∀ t ∈ stakes, 0 < t.amount := fun t ht => h t (List.mem_cons_of_mem _ ht)
    have hnonneg : 0 ≤ staked p stakes := staked_nonneg hrest
    rw [staked_cons]
    cases hp : p s with
    | true =>
      simp only [if_true, List.forall_mem_cons, hp]
      constructor
      · intro hzero
        linarith
      · rintro ⟨⟨⟩, _⟩
    | false => simp [hp, ih hrest]

theorem bonded_eq_zero (h : ∀ b ∈ bundles, 0 ≤ b.bond) :
    bonded pb bundles = 0 ↔ ∀ b ∈ bundles, pb b = true → b.bond = 0 := by
  induction bundles with
  | nil => simp
  | cons b bundles ih =>
    have hb : 0 ≤ b.bond := h b List.mem_cons_self
    have hrest : ∀ c ∈ bundles, 0 ≤ c.bond := fun c hc => h c (List.mem_cons_of_mem _ hc)
    have hnonneg : 0 ≤ bonded pb bundles := bonded_nonneg hrest
    rw [bonded_cons, List.forall_mem_cons, ← ih hrest]
    cases hp : pb b with
    | true =>
      simp only [if_true, true_implies]
      constructor
      · intro hzero
        exact ⟨by linarith, by linarith⟩
      · rintro ⟨hbond, hzero⟩
        rw [hbond, hzero, add_zero]
    | false => simp

theorem bonded_split (pb : EvidenceBundle → Bool) :
    bonded (fun _ => true) bundles = bonded pb bundles + bonded (fun b => !pb b) bundles := by
  induction bundles with
  | nil => simp
  | cons b bundles ih =>
    simp only [bonded_cons, ih]
    cases hp : pb b <;> simp <;> ring

theorem staked_filter_add (q : ResolutionStake → Bool) :
    staked p (stakes.filter q) + staked p (stakes.filter fun s => !q s) = staked p stakes := by
  induction stakes with
  | nil => simp
  | cons s stakes ih =>
    rw [staked_cons, ← ih]
    cases hq : q s <;> simp [hq, staked_cons] <;> ring

theorem sum_kinds : (stakes.map ResolutionStake.amount).sum =
    staked (fun s => s.repType = .oracle) stakes + staked (fun s => s.repType = .common) stakes := by
  induction stakes with
  | nil => simp
  | cons s stakes ih =>
    rw [List.map_cons, List.sum_cons, ih, staked_cons, staked_cons]
    cases s.repType <;> simp <;> ring

/-- A result that accounts for each pool adds up. -/
theorem ResolutionResult.Conserves.total {r : ResolutionResult} (h : r.Conserves stakes bundles) :
    (stakes.map ResolutionStake.amount).sum + (bundles.map EvidenceBundle.bond).sum =
      r.stakeReturns.total + r.stakeWinnings.total + r.bondReturns.total +
        r.firstSubmitterBonuses.total + r.burnedAmount := by
  obtain ⟨burnedStakes, burnedBonds, h⟩ := h
  have hbonds : (bundles.map EvidenceBundle.bond).sum = bonded (fun _ => true) bundles := by
    unfold bonded
    rw [List.filter_true]
  rw [sum_kinds, hbonds, h.bonds, h.burned, h.stakes .oracle, h.stakes .common,
    total_kinds r.stakeReturns, total_kinds r.stakeWinnings]
  unfold ResolutionResult.returned ResolutionResult.won
  ring

end Sums

/-! ## What the building blocks pay -/

namespace ResolutionResult

variable {r : ResolutionResult} {rep : RepType} {stakes : List ResolutionStake}
  {bundles : List EvidenceBundle} {m reason : String} {outcome : MarketOutcome} {prov : Bool}

@[simp] theorem returned_start : (start m outcome prov reason).returned rep = 0 := rfl

@[simp] theorem won_start : (start m outcome prov reason).won rep = 0 := rfl

@[simp] theorem returned_returnStakes (xs : List ResolutionStake) :
    (r.returnStakes xs).returned rep = r.returned rep + staked (fun s => s.repType = rep) xs :=
  Tally.sumOf_addAll xs

@[simp] theorem won_returnStakes (xs : List ResolutionStake) :
    (r.returnStakes xs).won rep = r.won rep := rfl

@[simp] theorem returned_returnBonds (xs : List EvidenceBundle) :
    (r.returnBonds xs).returned rep = r.returned rep := rfl

@[simp] theorem won_returnBonds (xs : List EvidenceBundle) :
    (r.returnBonds xs).won rep = r.won rep := rfl

@[simp] theorem bondReturns_returnBonds (xs : List EvidenceBundle) :
    (r.returnBonds xs).bondReturns.total = r.bondReturns.total + bonded (fun _ => true) xs := by
  unfold returnBonds bonded
  simp only [Tally.total_addAll, List.filter_true]

/-- No kind of stake is at stake exactly when there is no stake. -/
theorem staked_eq_zero_iff_nil (hstakes : ∀ s ∈ stakes, 0 < s.amount) :
    staked (fun s => s.repType = .oracle) stakes + staked (fun s => s.repType = .common) stakes = 0 ↔
      stakes = [] := by
  have horacle : 0 ≤ staked (fun s => s.repType = .oracle) stakes := staked_nonneg hstakes
  have hcommon : 0 ≤ staked (fun s => s.repType = .common) stakes := staked_nonneg hstakes
  constructor
  · intro hzero
    have ho : staked (fun s => s.repType = .oracle) stakes = 0 := by linarith
    have hc : staked (fun s => s.repType = .common) stakes = 0 := by linarith
    apply List.eq_nil_iff_forall_not_mem.mpr
    intro s hs
    have hno := (staked_eq_zero hstakes).mp ho s hs
    have hnc := (staked_eq_zero hstakes).mp hc s hs
    cases hrep : s.repType <;> simp [hrep] at hno hnc
  · rintro rfl
    simp

/-- A result that pays out nothing accounts for nothing at stake. -/
theorem conserves_start (hstakes : ∀ s ∈ stakes, 0 < s.amount)
    (hbonds : ∀ b ∈ bundles, 0 ≤ b.bond) :
    (start m outcome prov reason).Conserves stakes bundles ↔
      stakes = [] ∧ ∀ b ∈ bundles, b.bond = 0 := by
  have hzero : bonded (fun _ => true) bundles = 0 ↔ ∀ b ∈ bundles, b.bond = 0 := by
    simp [bonded_eq_zero hbonds]
  rw [conserves_iff, ← staked_eq_zero_iff_nil hstakes, ← hzero]
  simp only [unpaid, unpaidBonds, returned_start, won_start, start_burnedAmount,
    start_bondReturns, start_firstSubmitterBonuses, start_bondForfeits, Tally.total_nil, add_zero,
    sub_zero, zero_add]
  constructor
  · rintro ⟨hburned, -, -, hforfeits⟩
    exact ⟨by linarith, hforfeits.symm⟩
  · rintro ⟨hsum, hall⟩
    refine ⟨by linarith, fun rep => staked_nonneg hstakes, hall.ge, hall.symm⟩

/-- Returning all stakes and all bonds accounts for everything. -/
theorem conserves_returned :
    (((start m outcome prov reason).returnStakes stakes).returnBonds bundles).Conserves
      stakes bundles := by
  rw [conserves_iff]
  simp [unpaid, unpaidBonds, -returnBonds_bondReturns]

/-- Returning the stakes accounts for everything when there are no bonds. -/
theorem conserves_returnStakes :
    ((start m outcome prov reason).returnStakes stakes).Conserves stakes [] := by
  rw [conserves_iff]
  simp [unpaid, unpaidBonds]

/-- Returning the bonds alone accounts for everything when nobody staked. -/
theorem conserves_returnBonds (hstakes : ∀ s ∈ stakes, 0 < s.amount) :
    ((start m outcome prov reason).returnBonds bundles).Conserves stakes bundles ↔
      stakes = [] := by
  rw [conserves_iff, ← staked_eq_zero_iff_nil hstakes]
  simp only [unpaid, unpaidBonds, returned_returnBonds, won_returnBonds, returned_start,
    won_start, bondReturns_returnBonds, returnBonds_burnedAmount, returnBonds_bondForfeits,
    returnBonds_firstSubmitterBonuses, start_burnedAmount, start_bondReturns,
    start_firstSubmitterBonuses, start_bondForfeits, Tally.total_nil, add_zero, sub_zero, zero_add,
    sub_self]
  constructor
  · rintro ⟨hburned, -⟩
    exact hburned.symm
  · intro hsum
    exact ⟨hsum.symm, fun rep => staked_nonneg hstakes, le_refl _, trivial⟩

end ResolutionResult

/-! ## Burns -/

section Burns

variable {pct : ℚ} {stakes : List ResolutionStake} {bundles : List EvidenceBundle} {cfg : Config}

/-- The part of the stakes that satisfy `p` that is burned. -/
def burnShare (pct : ℚ) (p : ResolutionStake → Bool) (stakes : List ResolutionStake) : ℚ :=
  ((stakes.filter p).map fun s => (splitBurnAndReturn s.amount pct).1).sum

/-- A stake is split into two parts, and the split leaves nothing over. -/
theorem splitBurnAndReturn_spec {amount : ℚ} (h : 0 < amount) :
    (splitBurnAndReturn amount pct).1 + (splitBurnAndReturn amount pct).2 = amount ∧
    0 ≤ (splitBurnAndReturn amount pct).1 ∧ 0 ≤ (splitBurnAndReturn amount pct).2 := by
  unfold splitBurnAndReturn
  rw [if_neg (not_le.mpr h)]
  split
  · exact ⟨zero_add _, le_refl _, h.le⟩
  · rename_i hlow
    split
    · exact ⟨add_zero _, h.le, le_refl _⟩
    · rename_i hhigh
      have hpos : 0 < pct := not_le.mp hlow
      have hone : pct < 1 := not_le.mp hhigh
      refine ⟨by ring, by positivity, ?_⟩
      have hle : amount * pct ≤ amount * 1 := mul_le_mul_of_nonneg_left hone.le h.le
      linarith

theorem burnShare_nonneg {p : ResolutionStake → Bool} (h : ∀ s ∈ stakes, 0 < s.amount) :
    0 ≤ burnShare pct p stakes := by
  apply List.sum_nonneg
  intro x hx
  obtain ⟨s, hs, rfl⟩ := List.mem_map.mp hx
  exact (splitBurnAndReturn_spec (h s (List.mem_of_mem_filter hs))).2.1

theorem burnStakes_spec (pct : ℚ) (h : ∀ s ∈ stakes, 0 < s.amount) (acc : Tally StakeKey ℚ × ℚ) :
    (∀ rep : RepType, (stakes.foldl (burnStake pct) acc).1.sumOf (fun k => k.2 = rep) =
      acc.1.sumOf (fun k => k.2 = rep) +
        (staked (fun s => s.repType = rep) stakes - burnShare pct (fun s => s.repType = rep) stakes)) ∧
    (stakes.foldl (burnStake pct) acc).2 =
      acc.2 + (burnShare pct (fun s => s.repType = .oracle) stakes +
        burnShare pct (fun s => s.repType = .common) stakes) := by
  induction stakes generalizing acc with
  | nil => simp [burnShare]
  | cons s stakes ih =>
    have hs : 0 < s.amount := h s List.mem_cons_self
    obtain ⟨hsplit, -, hreturn⟩ := @splitBurnAndReturn_spec pct s.amount hs
    have hstep : burnStake pct acc s =
        (if 0 < (splitBurnAndReturn s.amount pct).2 then
          acc.1.add s.key (splitBurnAndReturn s.amount pct).2 else acc.1,
        acc.2 + (splitBurnAndReturn s.amount pct).1) := by
      unfold burnStake
      rw [if_neg (not_le.mpr hs)]
    have hadded : ∀ rep : RepType, (burnStake pct acc s).1.sumOf (fun k => k.2 = rep) =
        acc.1.sumOf (fun k => k.2 = rep) +
          if s.repType = rep then (splitBurnAndReturn s.amount pct).2 else 0 := by
      intro rep
      rw [hstep]
      split
      · simp only [Tally.sumOf_add, ResolutionStake.key, decide_eq_true_eq]
      · rename_i hzero
        have : (splitBurnAndReturn s.amount pct).2 = 0 := le_antisymm (not_lt.mp hzero) hreturn
        simp [this]
    obtain ⟨hreturns, hburns⟩ := ih (fun t ht => h t (List.mem_cons_of_mem _ ht)) (burnStake pct acc s)
    have hcons : ∀ rep : RepType, burnShare pct (fun s => s.repType = rep) (s :: stakes) =
        (if s.repType = rep then (splitBurnAndReturn s.amount pct).1 else 0) +
          burnShare pct (fun s => s.repType = rep) stakes := by
      intro rep
      unfold burnShare
      cases hrep : decide (s.repType = rep) <;> simp_all
    refine ⟨?_, ?_⟩
    · intro rep
      rw [List.foldl_cons, hreturns rep, hadded rep, staked_cons, hcons rep]
      simp only [decide_eq_true_eq]
      split <;> linarith
    · rw [List.foldl_cons, hburns, hstep, hcons .oracle, hcons .common]
      cases hrep : s.repType <;> simp only [reduceCtorEq, if_true, if_false] <;> ring

/-- Folding the items of a tally into another adds the two up. -/
theorem sumOf_items {κ : Type} [DecidableEq κ] {p : κ → Bool} (items t : Tally κ ℚ) :
    Tally.sumOf p (Tally.addAll Prod.fst Prod.snd items t) = t.sumOf p + items.sumOf p :=
  Tally.sumOf_addAll items

/-- The stalemate exit burns a part of each stake and returns the rest. -/
theorem conserves_stalemate (hstakes : ∀ s ∈ stakes, 0 < s.amount) {m reason : String}
    {prov : Bool} :
    ({ ResolutionResult.start m .invalid prov reason with
        stakeReturns := Tally.addAll Prod.fst Prod.snd (applyToStakes pct stakes).1 []
        burnedAmount := 0 + (applyToStakes pct stakes).2 }.returnBonds bundles).Conserves
      stakes bundles := by
  obtain ⟨hreturns, hburned⟩ := burnStakes_spec pct hstakes ([], 0)
  have hunpaid : ∀ rep, ({ ResolutionResult.start m .invalid prov reason with
        stakeReturns := Tally.addAll Prod.fst Prod.snd (applyToStakes pct stakes).1 []
        burnedAmount := 0 + (applyToStakes pct stakes).2 }.returnBonds bundles).unpaid rep stakes =
      burnShare pct (fun s => s.repType = rep) stakes := by
    intro rep
    have hreturned := hreturns rep
    simp only [ResolutionResult.unpaid, ResolutionResult.returned, ResolutionResult.won,
      ResolutionResult.returnBonds_stakeReturns, ResolutionResult.returnBonds_stakeWinnings,
      ResolutionResult.start_stakeWinnings, sumOf_items, applyToStakes, hreturned, Tally.sumOf_nil]
    ring
  rw [ResolutionResult.conserves_iff]
  simp only [hunpaid]
  refine ⟨?_, fun rep => burnShare_nonneg hstakes, ?_, ?_⟩
  · simp only [ResolutionResult.returnBonds_burnedAmount, applyToStakes, hburned,
      ResolutionResult.unpaidBonds, ResolutionResult.bondReturns_returnBonds,
      ResolutionResult.returnBonds_firstSubmitterBonuses,
      ResolutionResult.start_bondReturns, ResolutionResult.start_firstSubmitterBonuses,
      Tally.total_nil]
    ring
  · simp [ResolutionResult.unpaidBonds, -ResolutionResult.returnBonds_bondReturns]
  · simp [ResolutionResult.unpaidBonds, -ResolutionResult.returnBonds_bondReturns]

/-- The data-unavailable exit returns the stakes of those who called it, and burns all bonds. -/
theorem conserves_dataUnavailable (hstakes : ∀ s ∈ stakes, 0 < s.amount)
    (hbonds : ∀ b ∈ bundles, 0 ≤ b.bond) {m reason : String} {prov : Bool} :
    { ResolutionResult.start m .invalid prov reason with
        stakeReturns := Tally.addAll Prod.fst Prod.snd
          (resolveDataUnavailableEffects cfg stakes bundles).stakeReturns []
        bondForfeits := Tally.addAll Prod.fst Prod.snd
          (resolveDataUnavailableEffects cfg stakes bundles).bondForfeits []
        burnedAmount := 0 + (resolveDataUnavailableEffects cfg stakes bundles).burned }.Conserves
      stakes bundles := by
  let others := stakes.filter fun s => s.side ≠ .dataUnavailable
  let da := stakes.filter fun s => s.side = .dataUnavailable
  have hothers : ∀ s ∈ others, 0 < s.amount := fun s hs => hstakes s (List.mem_of_mem_filter hs)
  have hda : (da.filter fun s => ¬ s.amount ≤ 0) = da := by
    apply List.filter_eq_self.mpr
    intro s hs
    simpa using hstakes s (List.mem_of_mem_filter hs)
  obtain ⟨hreturns, hburned⟩ :=
    burnStakes_spec cfg.resolutionStalemateBurnPct hothers ([], 0)
  have hslashed : ((bundles.filter fun b => 0 < b.bond).map EvidenceBundle.bond).sum =
      bonded (fun _ => true) bundles := by
    have hrest : bonded (fun b => !decide (0 < b.bond)) bundles = 0 := by
      apply (bonded_eq_zero hbonds).mpr
      intro b hb hnot
      exact le_antisymm (by simpa using hnot) (hbonds b hb)
    rw [bonded_split fun b => 0 < b.bond, hrest, add_zero]
    rfl
  have hsides : ∀ rep, staked (fun s => s.repType = rep) stakes =
      staked (fun s => s.repType = rep) da + staked (fun s => s.repType = rep) others := by
    intro rep
    rw [← staked_filter_add fun s => s.side = .dataUnavailable]
    simp only [da, others, ne_eq, decide_not]
  have hreturned : ∀ rep : RepType, Tally.sumOf (fun k => k.2 = rep)
      (resolveDataUnavailableEffects cfg stakes bundles).stakeReturns =
      staked (fun s => s.repType = rep) da + (staked (fun s => s.repType = rep) others -
        burnShare cfg.resolutionStalemateBurnPct (fun s => s.repType = rep) others) := by
    intro rep
    have hrep := hreturns rep
    rw [Tally.sumOf_nil, zero_add] at hrep
    unfold resolveDataUnavailableEffects
    simp only [sumOf_items]
    rw [Tally.sumOf_addAll, hda, Tally.sumOf_nil, zero_add]
    exact congrArg (staked (fun s => s.repType = rep) da + ·) hrep
  have hforfeits : (resolveDataUnavailableEffects cfg stakes bundles).bondForfeits.total =
      bonded (fun _ => true) bundles := by
    unfold resolveDataUnavailableEffects
    simp only [Tally.total_addAll, Tally.total_nil, zero_add, hslashed]
  have hall : (resolveDataUnavailableEffects cfg stakes bundles).burned =
      (burnShare cfg.resolutionStalemateBurnPct (fun s => s.repType = .oracle) others +
        burnShare cfg.resolutionStalemateBurnPct (fun s => s.repType = .common) others) +
      bonded (fun _ => true) bundles := by
    unfold resolveDataUnavailableEffects
    simp only [hslashed]
    exact congrArg (· + bonded (fun _ => true) bundles) (hburned.trans (zero_add _))
  refine ⟨fun rep => burnShare cfg.resolutionStalemateBurnPct (fun s => s.repType = rep) others,
    bonded (fun _ => true) bundles, ?_, fun rep => burnShare_nonneg hothers, bonded_nonneg hbonds,
    ?_, ?_, ?_⟩
  · simp only [hall]
    ring
  · intro rep
    simp only [ResolutionResult.returned, ResolutionResult.won, sumOf_items, Tally.sumOf_nil,
      hreturned, hsides, ResolutionResult.start_stakeWinnings]
    ring
  · simp
  · simp only [ResolutionResult.start_firstSubmitterBonuses, Tally.total_eq_sumOf, sumOf_items,
      Tally.sumOf_nil, zero_add]
    rw [← Tally.total_eq_sumOf, hforfeits]

end Burns

/-! ## Bootstrap markets -/

section Bootstrap

variable {stakes : List ResolutionStake} {bundles : List EvidenceBundle} {w : Outcome}

/-- Each bond of a decided bootstrap market is returned or forfeited. -/
theorem settleBootstrapBonds_spec (w : Outcome) (bundles : List EvidenceBundle) (r : ResolutionResult) :
    (bundles.foldl (settleBootstrapBond w) r).bondReturns.total =
      r.bondReturns.total + bonded (fun b => b.claimedOutcome = w) bundles ∧
    (bundles.foldl (settleBootstrapBond w) r).bondForfeits.total =
      r.bondForfeits.total + bonded (fun b => b.claimedOutcome ≠ w) bundles ∧
    (bundles.foldl (settleBootstrapBond w) r).firstSubmitterBonuses = r.firstSubmitterBonuses ∧
    (bundles.foldl (settleBootstrapBond w) r).burnedAmount = r.burnedAmount ∧
    (bundles.foldl (settleBootstrapBond w) r).stakeReturns = r.stakeReturns ∧
    (bundles.foldl (settleBootstrapBond w) r).stakeWinnings = r.stakeWinnings := by
  induction bundles generalizing r with
  | nil => simp
  | cons b bundles ih =>
    obtain ⟨hreturns, hforfeits, hbonuses, hburned, hstakes, hwinnings⟩ := ih (settleBootstrapBond w r b)
    simp only [List.foldl_cons, hreturns, hforfeits, hbonuses, hburned, hstakes, hwinnings,
      bonded_cons, decide_eq_true_eq]
    unfold settleBootstrapBond
    split
    · rename_i hside
      simp [hside, Tally.addAll, add_assoc]
    · simp [add_assoc]

/-- A decided bootstrap market loses nothing exactly if nobody staked and no bond lost. -/
theorem conserves_bootstrap (hstakes : ∀ s ∈ stakes, 0 < s.amount)
    (hbonds : ∀ b ∈ bundles, 0 ≤ b.bond) {m reason : String} {outcome : MarketOutcome}
    {prov : Bool} :
    (bundles.foldl (settleBootstrapBond w)
        (ResolutionResult.start m outcome prov reason)).Conserves stakes bundles ↔
      stakes = [] ∧ ∀ b ∈ bundles, b.claimedOutcome ≠ w → b.bond = 0 := by
  obtain ⟨hreturns, hforfeits, hbonuses, hburned, hstake, hwinnings⟩ :=
    settleBootstrapBonds_spec w bundles (ResolutionResult.start m outcome prov reason)
  have hlost : bonded (fun b => b.claimedOutcome ≠ w) bundles = 0 ↔
      ∀ b ∈ bundles, b.claimedOutcome ≠ w → b.bond = 0 := by
    simp [bonded_eq_zero hbonds]
  have hnonneg : 0 ≤ bonded (fun b => b.claimedOutcome ≠ w) bundles := bonded_nonneg hbonds
  have hsplit : bonded (fun _ => true) bundles = bonded (fun b => b.claimedOutcome = w) bundles +
      bonded (fun b => b.claimedOutcome ≠ w) bundles := by
    rw [bonded_split fun b => b.claimedOutcome = w]
    simp only [ne_eq, decide_not]
  rw [ResolutionResult.conserves_iff, ← hlost, ← ResolutionResult.staked_eq_zero_iff_nil hstakes]
  simp only [ResolutionResult.unpaid, ResolutionResult.unpaidBonds, ResolutionResult.returned,
    ResolutionResult.won, hreturns, hforfeits, hbonuses, hburned, hstake, hwinnings, hsplit,
    ResolutionResult.start_burnedAmount, ResolutionResult.start_bondReturns,
    ResolutionResult.start_bondForfeits, ResolutionResult.start_firstSubmitterBonuses,
    ResolutionResult.start_stakeReturns, ResolutionResult.start_stakeWinnings, Tally.total_nil,
    Tally.sumOf_nil, add_zero, zero_add, sub_zero, add_sub_cancel_left]
  have horacle : 0 ≤ staked (fun s => s.repType = .oracle) stakes := staked_nonneg hstakes
  have hcommon : 0 ≤ staked (fun s => s.repType = .common) stakes := staked_nonneg hstakes
  constructor
  · rintro ⟨hzero, -⟩
    exact ⟨by linarith, by linarith⟩
  · rintro ⟨hsum, hzero⟩
    exact ⟨by linarith, fun rep => staked_nonneg hstakes, hnonneg, trivial⟩

end Bootstrap

/-! ## Staked markets -/

section Staked

variable {stakes : List ResolutionStake} {bundles : List EvidenceBundle} {w : Outcome}
  {pct bonus : ℚ} {rep : RepType}

/-- Whether a stake of the kind is on the winning side. -/
def wins (w : Outcome) (rep : RepType) (s : ResolutionStake) : Bool :=
  s.side = .outcome w ∧ s.repType = rep

/-- Whether a stake of the kind is on the losing side. -/
def loses (w : Outcome) (rep : RepType) (s : ResolutionStake) : Bool :=
  s.side ≠ .outcome w ∧ s.side ≠ .dataUnavailable ∧ s.repType = rep

/-- The part of the losing stakes of the kind that is paid out as winnings. -/
def paidOut (pct : ℚ) (w : Outcome) (stakes : List ResolutionStake) (rep : RepType) : ℚ :=
  if staked (wins w rep) stakes = 0 ∨ staked (loses w rep) stakes = 0 then 0
  else staked (loses w rep) stakes - staked (loses w rep) stakes * pct

/-- The part of the losing stakes of the kind that is burned. -/
def burnedPart (pct : ℚ) (w : Outcome) (stakes : List ResolutionStake) (rep : RepType) : ℚ :=
  if staked (wins w rep) stakes = 0 ∨ staked (loses w rep) stakes = 0 then 0
  else staked (loses w rep) stakes * pct

/-- A stake is on the winning side, on the losing side, or called the data unavailable. -/
theorem staked_sides : staked (fun s => s.repType = rep) stakes =
    staked (wins w rep) stakes + staked (loses w rep) stakes +
      staked (fun s => s.repType = rep ∧ s.side = .dataUnavailable) stakes := by
  induction stakes with
  | nil => simp
  | cons s stakes ih =>
    simp only [staked_cons, ih]
    have hs : (if decide (s.repType = rep) = true then s.amount else 0) =
        (if wins w rep s = true then s.amount else 0) + (if loses w rep s = true then s.amount else 0) +
          (if decide (s.repType = rep ∧ s.side = .dataUnavailable) = true then s.amount else 0) := by
      cases hside : s.side with
      | dataUnavailable => simp [wins, loses, hside]
      | outcome o =>
        by_cases ho : o = w
        · simp [wins, loses, hside, ho]
        · simp [wins, loses, hside, ho]
    rw [hs]
    ring

/-- Stakes that are all of one kind count for that kind only. -/
theorem staked_kind {p : ResolutionStake → Bool} (rep rep' : RepType)
    (hp : ∀ s, p s = true → s.repType = rep) : staked (fun s => s.repType = rep') (stakes.filter p) =
      if rep = rep' then staked p stakes else 0 := by
  induction stakes with
  | nil => simp
  | cons s stakes ih =>
    rw [List.filter_cons]
    cases hs : p s with
    | true =>
      simp only [if_true, staked_cons, hs, ih, hp s hs, decide_eq_true_eq]
      split <;> simp
    | false => simp only [Bool.false_eq_true, if_false, ih, staked_cons, hs, zero_add]

/-- Step 3 returns the stakes of the winners and the data-unavailable ones, and pays the winners. -/
theorem distribute_spec (pct : ℚ) (w : Outcome) (stakes : List ResolutionStake) (rep : RepType)
    (r : ResolutionResult) (rep' : RepType) :
    (distribute pct w stakes r rep).returned rep' = r.returned rep' +
      (if rep = rep' then staked (wins w rep) stakes +
        staked (fun s => s.repType = rep ∧ s.side = .dataUnavailable) stakes else 0) ∧
    (distribute pct w stakes r rep).won rep' =
      r.won rep' + (if rep = rep' then paidOut pct w stakes rep else 0) ∧
    (distribute pct w stakes r rep).burnedAmount = r.burnedAmount + burnedPart pct w stakes rep ∧
    (distribute pct w stakes r rep).bondReturns = r.bondReturns ∧
    (distribute pct w stakes r rep).bondForfeits = r.bondForfeits ∧
    (distribute pct w stakes r rep).firstSubmitterBonuses = r.firstSubmitterBonuses := by
  have hwins : (stakes.filter fun s => s.side = .outcome w ∧ s.repType = rep) =
      stakes.filter (wins w rep) := rfl
  have hloses : ((stakes.filter fun s => s.side ≠ .outcome w ∧ s.side ≠ .dataUnavailable ∧
      s.repType = rep).map ResolutionStake.amount).sum = staked (loses w rep) stakes := rfl
  have hpool : ((stakes.filter (wins w rep)).map ResolutionStake.amount).sum =
      staked (wins w rep) stakes := rfl
  have hreturned : ((r.returnStakes (stakes.filter (wins w rep))).returnStakes (stakes.filter
      fun s => s.repType = rep ∧ s.side = .dataUnavailable)).returned rep' = r.returned rep' +
      (if rep = rep' then staked (wins w rep) stakes +
        staked (fun s => s.repType = rep ∧ s.side = .dataUnavailable) stakes else 0) := by
    rw [ResolutionResult.returned_returnStakes, ResolutionResult.returned_returnStakes,
      staked_kind rep rep' (by simp [wins]), staked_kind rep rep' (by simp_all)]
    split <;> ring
  unfold distribute paidOut burnedPart
  simp only [hwins, hloses, hpool]
  split
  · refine ⟨hreturned, ?_, ?_, rfl, rfl, rfl⟩
    · simp
    · simp
  · rename_i hboth
    refine ⟨hreturned, ?_, rfl, rfl, rfl, rfl⟩
    have hshares := sum_shares (d := staked (loses w rep) stakes - staked (loses w rep) stakes * pct)
      (fun h => hboth (.inl h)) hpool
    simp only [ResolutionResult.won, Tally.sumOf_addAll, ResolutionStake.key]
    congr 1
    have hkind : ∀ s ∈ stakes.filter (wins w rep), s.repType = rep := by
      intro s hs
      have hwin := (List.mem_filter.mp hs).2
      simp only [wins, decide_eq_true_eq] at hwin
      exact hwin.2
    split
    · rename_i hrep
      rw [List.filter_eq_self.mpr, hshares]
      intro s hs
      simp [hkind s hs, hrep]
    · rename_i hrep
      rw [List.filter_eq_nil_iff.mpr]
      · rfl
      · intro s hs
        simp [hkind s hs, hrep]

/-- Step 4: each bond is returned or forfeited, and the bonuses come out of the budget. -/
structure BondsSettled (w : Outcome) (bundles : List EvidenceBundle)
    (st st' : ResolutionResult × ℚ) : Prop where
  returns : st'.1.bondReturns.total =
    st.1.bondReturns.total + bonded (fun b => b.claimedOutcome = w) bundles
  forfeits : st'.1.bondForfeits.total =
    st.1.bondForfeits.total + bonded (fun b => b.claimedOutcome ≠ w) bundles
  bonuses : st'.1.firstSubmitterBonuses.total + st'.2 = st.1.firstSubmitterBonuses.total + st.2
  budget : 0 ≤ st'.2
  burned : st'.1.burnedAmount = st.1.burnedAmount
  stakeReturns : st'.1.stakeReturns = st.1.stakeReturns
  stakeWinnings : st'.1.stakeWinnings = st.1.stakeWinnings

theorem settleBond_settled (bonus : ℚ) (w : Outcome) (st : ResolutionResult × ℚ) (hbudget : 0 ≤ st.2) (b : EvidenceBundle) :
    BondsSettled w [b] st (settleBond bonus w st b) := by
  obtain ⟨r, budget⟩ := st
  simp only at hbudget
  unfold settleBond
  by_cases hside : b.claimedOutcome = w
  · simp only [hside, if_true]
    split
    · split
      · constructor <;> simp [hside, bonded_cons, Tally.addAll]
      · constructor <;> simp [hside, bonded_cons, Tally.addAll, hbudget]
    · constructor <;> simp [hside, bonded_cons, Tally.addAll, hbudget]
  · simp only [hside, if_false]
    constructor <;> simp [hside, bonded_cons, hbudget]

theorem settleBonds_settled (bundles : List EvidenceBundle) (st : ResolutionResult × ℚ)
    (hbudget : 0 ≤ st.2) : BondsSettled w bundles st (bundles.foldl (settleBond bonus w) st) := by
  induction bundles generalizing st with
  | nil => constructor <;> simp [hbudget]
  | cons b bundles ih =>
    have hstep := settleBond_settled bonus w st hbudget b
    have hrest := ih (settleBond bonus w st b) hstep.budget
    refine ⟨?_, ?_, hrest.bonuses.trans hstep.bonuses, hrest.budget,
      hrest.burned.trans hstep.burned, hrest.stakeReturns.trans hstep.stakeReturns,
      hrest.stakeWinnings.trans hstep.stakeWinnings⟩
    · rw [List.foldl_cons, hrest.returns, hstep.returns, bonded_cons, bonded_cons, bonded_nil]
      ring
    · rw [List.foldl_cons, hrest.forfeits, hstep.forfeits, bonded_cons, bonded_cons, bonded_nil]
      ring

/-- What step 3 leaves of the losing stakes of a kind, neither paid out nor burned. -/
def leftOver (w : Outcome) (stakes : List ResolutionStake) (rep : RepType) : ℚ :=
  if staked (wins w rep) stakes = 0 then staked (loses w rep) stakes else 0

theorem loses_eq_leftOver : staked (loses w rep) stakes =
    paidOut pct w stakes rep + burnedPart pct w stakes rep + leftOver w stakes rep := by
  unfold paidOut burnedPart leftOver
  by_cases hwins : staked (wins w rep) stakes = 0
  · simp [hwins]
  · by_cases hloses : staked (loses w rep) stakes = 0
    · simp [hloses]
    · simp [hwins, hloses]

theorem burnedPart_nonneg (hstakes : ∀ s ∈ stakes, 0 < s.amount) (hpct : 0 ≤ pct) :
    0 ≤ burnedPart pct w stakes rep := by
  have hloses : 0 ≤ staked (loses w rep) stakes := staked_nonneg hstakes
  unfold burnedPart
  split
  · exact le_refl _
  · positivity

theorem leftOver_nonneg (hstakes : ∀ s ∈ stakes, 0 < s.amount) : 0 ≤ leftOver w stakes rep := by
  unfold leftOver
  split
  · exact staked_nonneg hstakes
  · exact le_refl _

/-- Nothing is left over exactly when the losers of the kind, if any, have a winner to pay. -/
theorem leftOver_eq_zero (hstakes : ∀ s ∈ stakes, 0 < s.amount) :
    leftOver w stakes rep = 0 ↔
      ((∃ s ∈ stakes, loses w rep s = true) → ∃ s ∈ stakes, wins w rep s = true) := by
  have hwins := staked_eq_zero (p := wins w rep) hstakes
  have hloses := staked_eq_zero (p := loses w rep) hstakes
  unfold leftOver
  split
  · rename_i hzero
    have hnone := hwins.mp hzero
    rw [hloses]
    constructor
    · rintro hno ⟨s, hs, hlose⟩
      rw [hno s hs] at hlose
      cases hlose
    · intro himp s hs
      by_contra hlose
      obtain ⟨t, ht, hwin⟩ := himp ⟨s, hs, by simpa using hlose⟩
      rw [hnone t ht] at hwin
      cases hwin
  · rename_i hzero
    refine ⟨fun _ _ => ?_, fun _ => rfl⟩
    by_contra hno
    apply hzero
    apply hwins.mpr
    intro s hs
    by_contra hwin
    exact hno ⟨s, hs, by simpa using hwin⟩

theorem distributed_spec {pct : ℚ} {m reason : String} {outcome : MarketOutcome} {prov : Bool}
    {r : ResolutionResult} (h : [RepType.oracle, .common].foldl (distribute pct w stakes)
      (ResolutionResult.start m outcome prov reason) = r) :
    (∀ rep, r.returned rep = staked (wins w rep) stakes +
      staked (fun s => s.repType = rep ∧ s.side = .dataUnavailable) stakes) ∧
    (∀ rep, r.won rep = paidOut pct w stakes rep) ∧
    r.burnedAmount = burnedPart pct w stakes .oracle + burnedPart pct w stakes .common ∧
    r.bondReturns.total = 0 ∧ r.bondForfeits.total = 0 ∧ r.firstSubmitterBonuses.total = 0 := by
  subst h
  let r₀ := ResolutionResult.start m outcome prov reason
  have horacle := distribute_spec pct w stakes .oracle r₀
  have hcommon := distribute_spec pct w stakes .common (distribute pct w stakes r₀ .oracle)
  rw [List.foldl_cons, List.foldl_cons, List.foldl_nil]
  obtain ⟨-, -, hburned₁, hreturns₁, hforfeits₁, hbonuses₁⟩ := horacle .oracle
  obtain ⟨-, -, hburned₂, hreturns₂, hforfeits₂, hbonuses₂⟩ := hcommon .oracle
  refine ⟨fun rep => ?_, fun rep => ?_, ?_, ?_, ?_, ?_⟩
  · rw [(hcommon rep).1, (horacle rep).1, ResolutionResult.returned_start]
    cases rep <;> simp
  · rw [(hcommon rep).2.1, (horacle rep).2.1, ResolutionResult.won_start]
    cases rep <;> simp
  · rw [hburned₂, hburned₁]
    exact congrArg (· + burnedPart pct w stakes .common) (zero_add _)
  · rw [hreturns₂, hreturns₁]
    rfl
  · rw [hforfeits₂, hforfeits₁]
    rfl
  · rw [hbonuses₂, hbonuses₁]
    rfl

/-- Not paid out: of the stakes what is burned and left over, of the bonds a rest that is burned. -/
theorem settle_spec {cfg : Config} {m : String} {prov : Bool}
    (hbonds : ∀ b ∈ bundles, 0 ≤ b.bond) :
    (∀ rep, (settle cfg m prov w stakes bundles).unpaid rep stakes =
      burnedPart cfg.resolutionLoserBurnPct w stakes rep + leftOver w stakes rep) ∧
    ∃ rest, 0 ≤ rest ∧ (settle cfg m prov w stakes bundles).unpaidBonds bundles = rest ∧
      (settle cfg m prov w stakes bundles).bondForfeits.total =
        (settle cfg m prov w stakes bundles).firstSubmitterBonuses.total + rest ∧
      (settle cfg m prov w stakes bundles).burnedAmount =
        burnedPart cfg.resolutionLoserBurnPct w stakes .oracle +
          burnedPart cfg.resolutionLoserBurnPct w stakes .common + rest := by
  let r := [RepType.oracle, .common].foldl (distribute cfg.resolutionLoserBurnPct w stakes)
    (ResolutionResult.start m (.decided w) prov ("supermajority_" ++ w.text))
  let losing := bonded (fun b => b.claimedOutcome ≠ w) bundles
  let st := bundles.foldl (settleBond cfg.evidenceFirstBonus w) (r, losing)
  have hsettled : BondsSettled w bundles (r, losing) st :=
    settleBonds_settled bundles _ (bonded_nonneg hbonds)
  have hresult : settle cfg m prov w stakes bundles =
      { st.1 with burnedAmount := st.1.burnedAmount + st.2 } := rfl
  obtain ⟨hreturned, hwon, hburned, hreturns, hforfeits, hbonuses⟩ :=
    distributed_spec (r := r) rfl
  have hpool : st.1.firstSubmitterBonuses.total + st.2 = losing := by
    rw [hsettled.bonuses, hbonuses, zero_add]
  refine ⟨fun rep => ?_, st.2, hsettled.budget, ?_, ?_, ?_⟩
  · have hsameReturned : (settle cfg m prov w stakes bundles).returned rep = r.returned rep := by
      rw [hresult]
      exact congrArg (Tally.sumOf fun k => k.2 = rep) hsettled.stakeReturns
    have hsameWon : (settle cfg m prov w stakes bundles).won rep = r.won rep := by
      rw [hresult]
      exact congrArg (Tally.sumOf fun k => k.2 = rep) hsettled.stakeWinnings
    rw [ResolutionResult.unpaid, hsameReturned, hsameWon, hreturned, hwon, staked_sides,
      loses_eq_leftOver]
    ring
  · have hsplit : bonded (fun _ => true) bundles =
        bonded (fun b => b.claimedOutcome = w) bundles + losing := by
      rw [bonded_split fun b => b.claimedOutcome = w]
      simp only [losing, ne_eq, decide_not]
    rw [hresult, ResolutionResult.unpaidBonds, hsplit, hsettled.returns, hreturns, ← hpool]
    ring
  · rw [hresult]
    exact (hsettled.forfeits.trans (by rw [hforfeits, zero_add])).trans hpool.symm
  · rw [hresult, ← hburned]
    exact congrArg (· + st.2) hsettled.burned

/-- A decided market accounts for everything exactly when each kind that has losing stakes has
    a winning one to pay. -/
theorem conserves_settle {cfg : Config} {m : String} {prov : Bool}
    (hstakes : ∀ s ∈ stakes, 0 < s.amount) (hbonds : ∀ b ∈ bundles, 0 ≤ b.bond) :
    (settle cfg m prov w stakes bundles).Conserves stakes bundles ↔
      ∀ rep, (∃ s ∈ stakes, loses w rep s = true) → ∃ s ∈ stakes, wins w rep s = true := by
  obtain ⟨hunpaid, rest, hrest, hunpaidBonds, hforfeits, hburned⟩ :=
    @settle_spec stakes bundles w cfg m prov hbonds
  have hleft : ∀ rep, 0 ≤ leftOver w stakes rep := fun rep => leftOver_nonneg hstakes
  rw [ResolutionResult.conserves_iff]
  simp only [hunpaid, hunpaidBonds, hforfeits, hburned, ← leftOver_eq_zero hstakes]
  constructor
  · rintro ⟨hsum, -⟩ rep
    have horacle := hleft .oracle
    have hcommon := hleft .common
    cases rep with
    | oracle => linarith
    | common => linarith
  · intro hzero
    refine ⟨by rw [hzero, hzero]; ring, fun rep => ?_, hrest, trivial⟩
    rw [hzero, add_zero]
    exact burnedPart_nonneg hstakes cfg.loserBurn_range.1

end Staked

/-! ## What is collected from a chain -/

section Collected

variable {env : Env} {cfg : Config} {m : String} {chain : List Dict}
  {stakes : List ResolutionStake} {bundles : List EvidenceBundle}

theorem readStake_pos {rt : Runtime} {excluded : List String} {event : Dict} {s : ResolutionStake}
    (h : readStake rt excluded m event = .ok (some s)) : 0 < s.amount := by
  unfold readStake at h
  simp only at h
  split at h
  · cases h
  · split at h
    · split at h
      · cases h
      · obtain ⟨amount, -, h⟩ := bind_eq_ok.mp h
        cases amount with
        | none => cases h
        | some amount =>
          simp only at h
          split at h
          · cases h
          · rename_i hpos
            split at h
            · cases h
            · obtain ⟨ts, -, h⟩ := bind_eq_ok.mp h
              obtain ⟨seq, -, h⟩ := bind_eq_ok.mp h
              cases h
              exact not_le.mp hpos
    · cases h

theorem collectResolutionStakes_pos {rt : Runtime}
    (h : collectResolutionStakes rt m chain = .ok stakes) : ∀ s ∈ stakes, 0 < s.amount := by
  intro s hs
  unfold collectResolutionStakes at h
  obtain ⟨excluded, -, h⟩ := bind_eq_ok.mp h
  obtain ⟨out, hout, h⟩ := bind_eq_ok.mp h
  obtain rfl := pure_eq_ok.mp h
  obtain ⟨event, -, hread⟩ := (mem_filterMapM hout).mp ((List.mem_insertionSort _).mp hs)
  exact readStake_pos hread

/-- A value that `float` reads is the amount if it is finite. -/
theorem amountOf_of_pyFloat {rt : Runtime} {v : PyVal} {y : PyFloat} (hv : v ≠ .none)
    (h : pyFloat rt v = .ok y) : amountOf rt v =
      match y.rat? with
      | some q => .ok (some q)
      | none => .error "not a rational amount" := by
  unfold amountOf
  split
  · exact absurd rfl hv
  · rw [h]
    cases y <;> rfl

theorem amountOf_nonneg {v : PyVal} {x : Option ℚ} (hv : Schema.isNonnegativeNumber v = true)
    (h : amountOf env.rt v = .ok x) : 0 ≤ x.getD 0 := by
  cases v with
  | int n =>
    have hn : (0 : ℚ) ≤ n := PyFloat.finite_le.mp hv
    cases hq : env.rt.floatOfInt n with
    | none =>
      simp [amountOf, pyFloat, hq, catching, Functor.map, Except.map, bind, Except.bind] at h
    | some q =>
      rw [amountOf_of_pyFloat (by simp) (show pyFloat env.rt (.int n) = .ok (.finite q) by
        simp only [pyFloat, hq])] at h
      cases h
      exact env.floatOfInt_nonneg n q hq (by exact_mod_cast hn)
  | float y =>
    rw [amountOf_of_pyFloat (by simp) (show pyFloat env.rt (.float y) = .ok y from rfl)] at h
    cases y with
    | finite q =>
      cases h
      exact PyFloat.finite_le.mp hv
    | negZero =>
      cases h
      exact le_refl _
    | inf | negInf | nan => cases h
  | none | bool | str | list | dict => simp [Schema.isNonnegativeNumber, Schema.numberAnd] at hv

theorem push_bundles (scan : EvidenceScan) (o : Outcome) (seen : SideSeen) (b : EvidenceBundle) :
    (scan.push o seen b).bundles = scan.bundles ++ [b] := by
  cases o <;> rfl

theorem visit_bonds {scan scan' : EvidenceScan} {event : Dict}
    (h : EvidenceScan.visit env m scan event = .ok scan')
    (hbond : Schema.isNonnegativeNumber (Dict.get (payload event) "bond") = true)
    (hscan : ∀ b ∈ scan.bundles, 0 ≤ b.bond) : ∀ b ∈ scan'.bundles, 0 ≤ b.bond := by
  unfold EvidenceScan.visit at h
  simp only at h
  split at h
  · split at h
    · cases h
      exact hscan
    · obtain ⟨bond, hread, h⟩ := bind_eq_ok.mp h
      obtain ⟨ts, -, h⟩ := bind_eq_ok.mp h
      obtain ⟨seq, -, h⟩ := bind_eq_ok.mp h
      split at h
      · cases h
      · have hnew := amountOf_nonneg hbond hread
        cases h
        intro b hb
        rw [push_bundles] at hb
        rcases List.mem_append.mp hb with hb | hb
        · exact hscan b hb
        · obtain rfl := List.mem_singleton.mp hb
          exact hnew
  · cases h
    exact hscan

theorem visits_bonds {events : List ((PyFloat × Int) × Dict)} {scan scan' : EvidenceScan}
    (h : events.foldlM (fun scan ev => EvidenceScan.visit env m scan ev.2) scan = .ok scan')
    (hbond : ∀ ev ∈ events, Schema.isNonnegativeNumber (Dict.get (payload ev.2) "bond") = true)
    (hscan : ∀ b ∈ scan.bundles, 0 ≤ b.bond) : ∀ b ∈ scan'.bundles, 0 ≤ b.bond := by
  induction events generalizing scan with
  | nil =>
    cases h
    exact hscan
  | cons ev events ih =>
    rw [List.foldlM_cons] at h
    obtain ⟨next, hnext, h⟩ := bind_eq_ok.mp h
    have hvisited := visit_bonds hnext (hbond ev List.mem_cons_self) hscan
    exact ih h (fun e he => hbond e (List.mem_cons_of_mem _ he)) hvisited

/-- `mapM (keyed rt)` only attaches keys. -/
theorem mem_of_keyed {rt : Runtime} {events : List Dict} {out : List ((PyFloat × Int) × Dict)}
    (h : events.mapM (keyed rt) = .ok out) : ∀ ev ∈ out, ev.2 ∈ events := by
  induction events generalizing out with
  | nil =>
    cases h
    intro ev hev
    cases hev
  | cons e events ih =>
    rw [List.mapM_cons] at h
    obtain ⟨ev, hev, h⟩ := bind_eq_ok.mp h
    obtain ⟨rest, hrest, h⟩ := bind_eq_ok.mp h
    obtain rfl := pure_eq_ok.mp h
    obtain ⟨ts, -, hev⟩ := bind_eq_ok.mp hev
    obtain ⟨seq, -, hev⟩ := bind_eq_ok.mp hev
    cases hev
    intro ev' hev'
    cases hev' with
    | head => exact List.mem_cons_self
    | tail _ hev' => exact List.mem_cons_of_mem _ (ih hrest ev' hev')

theorem bond_of_validateEvidenceSubmit {p : Dict} (h : Schema.validateEvidenceSubmit p = .ok ()) :
    Schema.isNonnegativeNumber (Dict.get p "bond") = true := by
  unfold Schema.validateEvidenceSubmit at h
  simp only [↓check_bind_eq_ok, require_eq_ok] at h
  obtain ⟨-, -, h⟩ := h
  split at h
  · obtain ⟨-, h⟩ := check_bind_eq_ok.mp h
    split at h
    · simp only [↓check_bind_eq_ok, require_eq_ok] at h
      exact h.2.2
    · cases h
  · cases h

theorem collectEvidence_bonds {rest : String → Dict → Mesh.Verdict} {chain : List PyVal}
    (hvalid : SchemaValid rest chain) (h : collectEvidence env m (dicts chain) = .ok bundles) :
    ∀ b ∈ bundles, 0 ≤ b.bond := by
  unfold collectEvidence at h
  obtain ⟨events, hevents, h⟩ := bind_eq_ok.mp h
  obtain ⟨scan, hscan, h⟩ := bind_eq_ok.mp h
  obtain rfl := pure_eq_ok.mp h
  refine visits_bonds hscan ?_ (by intro b hb; cases hb)
  intro ev hev
  have hmem := mem_of_keyed hevents ev ((List.mem_insertionSort _).mp hev)
  obtain ⟨hchain, hkind⟩ := List.mem_filter.mp hmem
  obtain ⟨v, hv, hdict⟩ := List.mem_filterMap.mp hchain
  obtain ⟨e, t, rfl, htype, hok⟩ := hvalid v hv
  obtain rfl : e = ev.2 := by simpa using hdict
  have hsubmit : t = "evidence_submit" := by
    simp only [hasType, htype, PyVal.eq, Bool.and_eq_true, beq_iff_eq] at hkind
    exact hkind.1
  subst hsubmit
  exact bond_of_validateEvidenceSubmit hok

end Collected

/-! ## Conservation -/

section Conservation

variable {env : Env} {cfg : Config} {m : String} {chain : List PyVal} {prov : Bool}
  {stakes : List ResolutionStake} {bundles : List EvidenceBundle} {result : ResolutionResult}

/-- The market is resolved by bootstrap votes. -/
def IsBootstrap (rt : Runtime) (cfg : Config) (create : Dict) : Prop :=
  ∃ index, bootstrapIndex rt create = .ok index ∧ cfg.isBootstrap index = true

/-- The votes decide for `w`, and there is evidence for it. -/
structure VotesDecide (cfg : Config) (votes : List Outcome) (bundles : List EvidenceBundle)
    (w : Outcome) : Prop where
  participation : cfg.minMarketParticipants ≤ votes.length
  winner : voteWinner cfg votes = some w
  evidence : ∃ b ∈ bundles, b.claimedOutcome = w

/-- The stakes decide for `w`, and there is evidence for it. -/
structure StakesDecide (cfg : Config) (stakes : List ResolutionStake)
    (bundles : List EvidenceBundle) (w : Outcome) : Prop where
  available : isDataUnavailableTriggered cfg stakes = false
  minimum : cfg.minResolutionStakeTotal ≤ oracleOn .yes stakes + oracleOn .no stakes
  winner : supermajorityWinner (oracleOn .yes stakes) (oracleOn .no stakes)
    cfg.resolutionSupermajority = some w
  evidence : ∃ b ∈ bundles, b.claimedOutcome = w

/-- Nothing is at stake, or the losers of each kind have a winner to pay. -/
structure Settleable (env : Env) (cfg : Config) (m : String) (chain : List Dict)
    (stakes : List ResolutionStake) (bundles : List EvidenceBundle) : Prop where
  missing : createEvent m chain = none → stakes = [] ∧ ∀ b ∈ bundles, b.bond = 0
  bootstrap : ∀ create, createEvent m chain = some create → IsBootstrap env.rt cfg create →
    bundles ≠ [] → stakes = [] ∧
      ∀ votes w, eligibleVotes env cfg m chain = .ok votes → VotesDecide cfg votes bundles w →
        ∀ b ∈ bundles, b.claimedOutcome ≠ w → b.bond = 0
  staked : ∀ create, createEvent m chain = some create → ¬ IsBootstrap env.rt cfg create →
    ∀ w, StakesDecide cfg stakes bundles w →
      ∀ rep, (∃ s ∈ stakes, loses w rep s = true) → ∃ s ∈ stakes, wins w rep s = true

theorem no_evidence_iff {w : Outcome} :
    (bundles.all fun b => decide (b.claimedOutcome ≠ w)) = true ↔
      ¬ ∃ b ∈ bundles, b.claimedOutcome = w := by
  simp

theorem conserves_resolveBootstrap {votes : List Outcome}
    (hstakes : ∀ s ∈ stakes, 0 < s.amount) (hbonds : ∀ b ∈ bundles, 0 ≤ b.bond) :
    (resolveBootstrap cfg m prov bundles votes).Conserves stakes bundles ↔
      stakes = [] ∧ ∀ w, VotesDecide cfg votes bundles w →
        ∀ b ∈ bundles, b.claimedOutcome ≠ w → b.bond = 0 := by
  -- the exits that return the bonds decide nothing
  have hundecided : ∀ reason, (∀ w, ¬ VotesDecide cfg votes bundles w) →
      (((ResolutionResult.start m .invalid prov reason).returnBonds bundles).Conserves stakes bundles ↔
        stakes = [] ∧ ∀ w, VotesDecide cfg votes bundles w →
          ∀ b ∈ bundles, b.claimedOutcome ≠ w → b.bond = 0) := by
    intro reason hnone
    rw [ResolutionResult.conserves_returnBonds hstakes]
    exact ⟨fun h => ⟨h, fun w hw => absurd hw (hnone w)⟩, fun h => h.1⟩
  unfold resolveBootstrap
  simp only
  split
  · rename_i hfew
    exact hundecided _ fun w hw => absurd hfew (not_lt.mpr hw.participation)
  · rename_i hmany
    split
    · rename_i hwinner
      apply hundecided
      intro w hw
      have hsome := hw.winner
      rw [hwinner] at hsome
      cases hsome
    · rename_i w hwinner
      split
      · rename_i hnone
        apply hundecided
        intro w' hw
        have hsame := hw.winner
        rw [hwinner] at hsame
        cases hsame
        exact no_evidence_iff.mp hnone hw.evidence
      · rename_i hevidence
        rw [conserves_bootstrap hstakes hbonds]
        have hdecide : VotesDecide cfg votes bundles w :=
          ⟨not_lt.mp hmany, hwinner, by simpa [no_evidence_iff] using hevidence⟩
        constructor
        · rintro ⟨hnil, hlost⟩
          refine ⟨hnil, fun w' hw => ?_⟩
          have hsame := hw.winner
          rw [hwinner] at hsame
          cases hsame
          exact hlost
        · rintro ⟨hnil, hlost⟩
          exact ⟨hnil, hlost w hdecide⟩

theorem conserves_resolveStaked
    (hstakes : ∀ s ∈ stakes, 0 < s.amount) (hbonds : ∀ b ∈ bundles, 0 ≤ b.bond) :
    (resolveStaked cfg m prov stakes bundles).Conserves stakes bundles ↔
      ∀ w, StakesDecide cfg stakes bundles w →
        ∀ rep, (∃ s ∈ stakes, loses w rep s = true) → ∃ s ∈ stakes, wins w rep s = true := by
  unfold resolveStaked
  simp only
  split
  · rename_i havailable
    refine iff_of_true (conserves_dataUnavailable hstakes hbonds) ?_
    intro w hw
    exact absurd havailable (by simp [hw.available])
  · rename_i havailable
    split
    · rename_i hlow
      refine iff_of_true ResolutionResult.conserves_returned ?_
      intro w hw
      exact absurd hlow (not_lt.mpr hw.minimum)
    · rename_i hminimum
      split
      · rename_i hwinner
        refine iff_of_true (conserves_stalemate hstakes) ?_
        intro w hw
        have hsome := hw.winner
        rw [hwinner] at hsome
        cases hsome
      · rename_i w hwinner
        split
        · rename_i hnone
          refine iff_of_true ResolutionResult.conserves_returned ?_
          intro w' hw
          have hsame := hw.winner
          rw [hwinner] at hsame
          cases hsame
          exact absurd hw.evidence (no_evidence_iff.mp hnone)
        · rename_i hevidence
          rw [conserves_settle hstakes hbonds]
          have hdecide : StakesDecide cfg stakes bundles w :=
            ⟨by simpa using havailable, not_lt.mp hminimum, hwinner, by
              simpa [no_evidence_iff] using hevidence⟩
          constructor
          · intro h w' hw
            have hsame := hw.winner
            rw [hwinner] at hsame
            cases hsame
            exact h
          · intro h
            exact h w hdecide

/-- A resolution accounts for the stakes and bonds of a schema-valid chain exactly on the
    settleable markets. -/
theorem resolveMarket_conserves_iff {rest : String → Dict → Mesh.Verdict}
    (hvalid : SchemaValid rest chain)
    (hstakes : collectResolutionStakes env.rt m (dicts chain) = .ok stakes)
    (hbundles : collectEvidence env m (dicts chain) = .ok bundles)
    (hresult : resolveMarket env cfg m chain prov = .ok result) :
    result.Conserves stakes bundles ↔ Settleable env cfg m (dicts chain) stakes bundles := by
  have hpos := collectResolutionStakes_pos hstakes
  have hbonds := collectEvidence_bonds hvalid hbundles
  unfold resolveMarket at hresult
  simp only at hresult
  split at hresult
  · rename_i hmissing
    cases hresult
    rw [ResolutionResult.conserves_start hpos hbonds]
    constructor
    · intro h
      exact ⟨fun _ => h, fun create hcreate => by simp [hmissing] at hcreate,
        fun create hcreate => by simp [hmissing] at hcreate⟩
    · intro h
      exact h.missing hmissing
  · rename_i create hcreate
    obtain ⟨index, hindex, hresult⟩ := bind_eq_ok.mp hresult
    rw [hbundles, hstakes] at hresult
    simp only [bind, Except.bind] at hresult
    split at hresult
    · rename_i hempty
      obtain rfl : bundles = [] := by simpa using hempty
      cases hresult
      refine iff_of_true ResolutionResult.conserves_returnStakes
        ⟨fun h => by simp [hcreate] at h, fun _ _ _ hne => absurd rfl hne, ?_⟩
      intro create' _ _ w hw
      obtain ⟨b, hb, -⟩ := hw.evidence
      cases hb
    · rename_i hnonempty
      have hne : bundles ≠ [] := by simpa using hnonempty
      split at hresult
      · rename_i hboot
        have hbootstrap : IsBootstrap env.rt cfg create := ⟨index, hindex, hboot⟩
        cases hvotes : eligibleVotes env cfg m (dicts chain) with
        | error exn => simp [hvotes] at hresult
        | ok votes =>
          rw [hvotes] at hresult
          cases hresult
          rw [conserves_resolveBootstrap hpos hbonds]
          constructor
          · rintro ⟨hnil, hlost⟩
            refine ⟨fun h => by simp [hcreate] at h, ?_, ?_⟩
            · intro create' _ _ _
              refine ⟨hnil, fun votes' w hvotes' => ?_⟩
              rw [hvotes] at hvotes'
              cases hvotes'
              exact hlost w
            · intro create' hcreate' hnot
              rw [hcreate] at hcreate'
              cases hcreate'
              exact absurd hbootstrap hnot
          · intro h
            obtain ⟨hnil, hlost⟩ := h.bootstrap create hcreate hbootstrap hne
            exact ⟨hnil, fun w => hlost votes w hvotes⟩
      · rename_i hboot
        have hstaked : ¬ IsBootstrap env.rt cfg create := by
          rintro ⟨index', hindex', hboot'⟩
          rw [hindex] at hindex'
          cases hindex'
          exact hboot hboot'
        cases hresult
        rw [conserves_resolveStaked hpos hbonds]
        constructor
        · intro h
          refine ⟨fun hnone => by simp [hcreate] at hnone, ?_, fun _ _ _ => h⟩
          intro create' hcreate' hbootstrap
          rw [hcreate] at hcreate'
          cases hcreate'
          exact absurd hbootstrap hstaked
        · intro h
          exact h.staked create hcreate hstaked

/-- A node to run examples on. -/
def plainEnv : Env where
  rt := asciiRuntime
  sha256 s := s
  normalizeUtf8 s := s
  floatOfInt_nonneg := by
    intro n q hq hn
    cases hq
    exact_mod_cast hn

def stakeEvent (nodeId : String) (sequence : Int) (side : String) (amount : Int)
    (repType : String) : PyVal :=
  chainEvent "resolution_stake" nodeId sequence [("market_id", .str "m1"), ("side", .str side),
    ("amount", .int amount), ("rep_type", .str repType)]

/-- One node stakes oracle reputation on yes, where the evidence is, and the given nodes stake
more. -/
def marketChain (stakes : List PyVal) : List PyVal :=
  [chainEvent "prediction_create" "ana" 1 [("market_id", .str "m1"),
      ("market_type", .str "objective"), ("question", .str "q"), ("trigger_date", .int 1),
      ("creation_bond", .int 3)],
    chainEvent "evidence_submit" "eve" 2 [("market_id", .str "m1"), ("claimed_outcome", .str "yes"),
      ("evidence_hashes", .list [.str "e1"]), ("source_description", .str "s"),
      ("evidence_content_hash", .str "c1"), ("submission_hash", .str "s1"), ("bond", .int 2)],
    stakeEvent "bob" 3 "yes" 25 "oracle"] ++ stakes

/-- What the market of the chain holds, and how it is resolved. -/
def resolved (chain : List PyVal) :
    Except String ((List ResolutionStake × List EvidenceBundle) × ResolutionResult) := do
  let stakes ← collectResolutionStakes plainEnv.rt "m1" (dicts chain)
  let bundles ← collectEvidence plainEnv "m1" (dicts chain)
  return ((stakes, bundles), ← resolveMarket plainEnv {} "m1" chain)

theorem resolveMarket_conserves_iff_sample : ∃ stakes bundles result,
    collectResolutionStakes plainEnv.rt "m1" (dicts (marketChain [])) = .ok stakes ∧
    resolveMarket plainEnv {} "m1" (marketChain []) = .ok result ∧
    (result.Conserves stakes bundles ↔
      Settleable plainEnv {} "m1" (dicts (marketChain [])) stakes bundles) := by
  have hrun : okAnd (resolved (marketChain [])) (fun _ => true) = true := by decide +kernel
  obtain ⟨run, hrun, -⟩ := okAnd_iff.mp hrun
  unfold resolved at hrun
  simp only [bind_eq_ok, pure_eq_ok] at hrun
  obtain ⟨stakes, hstakes, bundles, hbundles, result, hresult, -⟩ := hrun
  have hvalid : SchemaValid (fun _ _ => .ok ()) (marketChain []) :=
    schemaValid_of_passes (by decide +kernel)
  exact ⟨stakes, bundles, result, hstakes, hresult,
    resolveMarket_conserves_iff hvalid hstakes hbundles hresult⟩

/-- Common reputation on the losing side, with none on the winning one, is just gone. -/
theorem not_resolveMarket_conserves :
    ¬ ∀ (rest : String → Dict → Mesh.Verdict) (env : Env) (cfg : Config) (m : String)
      (chain : List PyVal) (prov : Bool) (stakes : List ResolutionStake)
      (bundles : List EvidenceBundle) (result : ResolutionResult), SchemaValid rest chain →
      collectResolutionStakes env.rt m (dicts chain) = .ok stakes →
      collectEvidence env m (dicts chain) = .ok bundles →
      resolveMarket env cfg m chain prov = .ok result → result.Conserves stakes bundles := by
  intro h
  have hrun : okAnd (resolved (marketChain [stakeEvent "carol" 4 "no" 4 "common"]))
      (fun run => decide ((run.1.1.map ResolutionStake.amount).sum +
          (run.1.2.map EvidenceBundle.bond).sum ≠
        run.2.stakeReturns.total + run.2.stakeWinnings.total + run.2.bondReturns.total +
          run.2.firstSubmitterBonuses.total + run.2.burnedAmount)) = true := by decide +kernel
  obtain ⟨run, hrun, hlost⟩ := okAnd_iff.mp hrun
  unfold resolved at hrun
  simp only [bind_eq_ok, pure_eq_ok] at hrun
  obtain ⟨stakes, hstakes, bundles, hbundles, result, hresult, rfl⟩ := hrun
  have hvalid : SchemaValid (fun _ _ => .ok ())
      (marketChain [stakeEvent "carol" 4 "no" 4 "common"]) :=
    schemaValid_of_passes (by decide +kernel)
  have hconserves := h _ _ _ _ _ _ _ _ _ hvalid hstakes hbundles hresult
  exact absurd hconserves.total (of_decide_eq_true hlost)

end Conservation

end Vincent.Economy
