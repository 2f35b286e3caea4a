-- SUMMARY: The settlement of a resolved dispute, and when none of the stakes is lost.
import Vincent.Economy.Dispute

/-!
# Dispute settlement

`dispute_settlement_effects` pays the winners of each rep type out of what the losers
of that type staked, which is neither paid out nor burned where there are no winners.

Amounts are exact rationals.
-/

namespace Vincent.Economy

open Vincent.Python Vincent.Check

/-! ## Effects -/

/-- A key of a dict. Numbers that are equal are one key. -/
inductive DictKey where
  | none
  | number (q : ℚ)
  | infinity (positive : Bool)
  | nan
  | text (s : String)
deriving DecidableEq

def dictKey : PyVal → Except String DictKey
  | .none => .ok .none
  | .bool b => .ok (.number (if b then 1 else 0))
  | .int n => .ok (.number n)
  | .float (.finite q) => .ok (.number q)
  | .float .negZero => .ok (.number 0)
  | .float .inf => .ok (.infinity true)
  | .float .negInf => .ok (.infinity false)
  | .float .nan => .ok .nan
  | .str s => .ok (.text s)
  | .list _ | .dict _ => .error "TypeError"

/-- The dict that `dispute_settlement_effects` returns. -/
structure SettlementEffects where
  stakeReturns : Tally (DictKey × RepType) ℚ := []
  stakeWinnings : Tally (DictKey × RepType) ℚ := []
  burned : ℚ := 0

/-- `for s in stakes: out[…][key] = out[…].get(key, 0.0) + amount`. -/
def payStakers (amount : DisputeStake → ℚ) (stakes : List DisputeStake)
    (t : Tally (DictKey × RepType) ℚ) : Except String (Tally (DictKey × RepType) ℚ) :=
  stakes.foldlM (fun t s => do return t.add (← dictKey s.nodeId, s.repType) (amount s)) t

namespace DisputeView

/-- All stakes, `confirm_stakes + reverse_stakes`. -/
def stakes (d : DisputeView) : List DisputeStake := d.confirmStakes ++ d.reverseStakes

def winners (d : DisputeView) (upheld : Bool) : List DisputeStake :=
  if upheld then d.confirmStakes else d.reverseStakes

def losers (d : DisputeView) (upheld : Bool) : List DisputeStake :=
  if upheld then d.reverseStakes else d.confirmStakes

end DisputeView

/-- What stakes amount to in a rep type. -/
def stakedIn (rep : RepType) (stakes : List DisputeStake) : ℚ :=
  ((stakes.filter fun s => s.repType = rep).map DisputeStake.amount).sum

/-- One round of the loop over the rep types. -/
def settleRepType (burnPct : ℚ) (winners losers : List DisputeStake) (out : SettlementEffects)
    (rep : RepType) : Except String SettlementEffects := do
  let repWinners := winners.filter fun s => s.repType = rep
  let winnerPool := stakedIn rep winners
  let loserPool := stakedIn rep losers
  let stakeReturns ← payStakers DisputeStake.amount repWinners out.stakeReturns
  if winnerPool = 0 ∨ loserPool = 0 then return { out with stakeReturns }
  let burn := loserPool * burnPct
  let distributable := loserPool - burn
  let stakeWinnings ← payStakers (fun s => s.amount / winnerPool * distributable) repWinners
    out.stakeWinnings
  return { stakeReturns, stakeWinnings, burned := out.burned + burn }

def disputeSettlementEffects (cfg : Config) (d : DisputeView) : Except String SettlementEffects :=
  match d.resolvedOutcome with
  | none => .ok {}
  | some .tie => do return { stakeReturns := ← payStakers DisputeStake.amount d.stakes [] }
  | some outcome =>
    let upheld := decide (outcome = .upheld)
    [RepType.oracle, .common].foldlM
      (settleRepType cfg.resolutionLoserBurnPct (d.winners upheld) (d.losers upheld)) {}

/-! ## Conservation -/

/-- What the loop adds to `burned` for a rep type. -/
def burnOf (burnPct : ℚ) (winners losers : List DisputeStake) (rep : RepType) : ℚ :=
  if stakedIn rep winners = 0 ∨ stakedIn rep losers = 0 then 0 else stakedIn rep losers * burnPct

/-- What a settled dispute burns of a rep type. -/
def disputeBurn (cfg : Config) (d : DisputeView) (rep : RepType) : ℚ :=
  match d.resolvedOutcome with
  | some .upheld => burnOf cfg.resolutionLoserBurnPct (d.winners true) (d.losers true) rep
  | some .reversed => burnOf cfg.resolutionLoserBurnPct (d.winners false) (d.losers false) rep
  | _ => 0

/-- Every stake of a rep type is returned, won or burned. -/
structure SettlementEffects.Conserves (cfg : Config) (d : DisputeView) (out : SettlementEffects) :
    Prop where
  burned : out.burned = disputeBurn cfg d .oracle + disputeBurn cfg d .common
  stakes : ∀ rep, stakedIn rep d.stakes = out.stakeReturns.sumOf (fun k => k.2 = rep) +
    out.stakeWinnings.sumOf (fun k => k.2 = rep) + disputeBurn cfg d rep

/-- Where a rep type was staked on the losing side, it was staked on the winning side too. -/
def HasWinners (d : DisputeView) : Prop :=
  ∀ upheld, d.resolvedOutcome = some (if upheld then .upheld else .reversed) → ∀ rep,
    (∃ s ∈ d.losers upheld, s.repType = rep) → ∃ s ∈ d.winners upheld, s.repType = rep

section

variable {cfg : Config} {d : DisputeView} {out : SettlementEffects} {stakes : List DisputeStake}
  {t t' : Tally (DictKey × RepType) ℚ} {amount : DisputeStake → ℚ} {rep : RepType}

theorem stakedIn_append (rep : RepType) (ss ss' : List DisputeStake) :
    stakedIn rep (ss ++ ss') = stakedIn rep ss + stakedIn rep ss' := by
  simp [stakedIn]

/-- Positive stakes amount to nothing only where there are none. -/
theorem stakedIn_eq_zero_iff (hpos : ∀ s ∈ stakes, 0 < s.amount) :
    stakedIn rep stakes = 0 ↔ ¬ ∃ s ∈ stakes, s.repType = rep := by
  induction stakes with
  | nil => simp [stakedIn]
  | cons s stakes ih =>
    have ih := ih fun s' hs' => hpos s' (List.mem_cons_of_mem s hs')
    have hnonneg : 0 ≤ stakedIn rep stakes := by
      apply List.sum_nonneg
      intro x hx
      obtain ⟨s', hs', rfl⟩ := List.mem_map.mp hx
      exact (hpos s' (List.mem_cons_of_mem s (List.mem_of_mem_filter hs'))).le
    rcases eq_or_ne s.repType rep with hs | hs
    · have hsum : stakedIn rep (s :: stakes) = s.amount + stakedIn rep stakes := by
        simp [stakedIn, hs]
      have hs0 := hpos s List.mem_cons_self
      constructor
      · intro h
        linarith
      · intro h
        exact absurd ⟨s, List.mem_cons_self, hs⟩ h
    · have hsum : stakedIn rep (s :: stakes) = stakedIn rep stakes := by simp [stakedIn, hs]
      rw [hsum, ih]
      simp [hs]

/-- What is paid to stakers of a rep type goes to keys of that type. -/
theorem sumOf_payStakers (rep : RepType) (h : payStakers amount stakes t = .ok t') :
    t'.sumOf (fun k => k.2 = rep) = t.sumOf (fun k => k.2 = rep) +
      ((stakes.filter fun s => s.repType = rep).map amount).sum := by
  unfold payStakers at h
  induction stakes generalizing t with
  | nil =>
    obtain rfl := pure_eq_ok.mp h
    simp
  | cons s stakes ih =>
    rw [List.foldlM_cons] at h
    obtain ⟨t₁, hstep, h⟩ := bind_eq_ok.mp h
    obtain ⟨key, -, hstep⟩ := bind_eq_ok.mp hstep
    obtain rfl := pure_eq_ok.mp hstep
    rw [ih h, Tally.sumOf_add]
    rcases eq_or_ne s.repType rep with hs | hs
    · simp [hs, add_assoc]
    · simp [hs]

theorem exists_payStakers (amount : DisputeStake → ℚ) (t : Tally (DictKey × RepType) ℚ)
    (h : ∀ s ∈ stakes, hashable s.nodeId = true) : ∃ t', payStakers amount stakes t = .ok t' := by
  unfold payStakers
  induction stakes generalizing t with
  | nil => exact ⟨t, rfl⟩
  | cons s stakes ih =>
    have hkey : ∃ key, dictKey s.nodeId = .ok key := by
      have hs := h s List.mem_cons_self
      cases hid : s.nodeId with
      | list xs =>
        rw [hid] at hs
        cases hs
      | dict kvs =>
        rw [hid] at hs
        cases hs
      | float x => cases x <;> exact ⟨_, rfl⟩
      | none | bool | int | str => exact ⟨_, rfl⟩
    obtain ⟨key, hkey⟩ := hkey
    obtain ⟨t', ht'⟩ := ih (t.add (key, s.repType) (amount s))
      fun s' hs' => h s' (List.mem_cons_of_mem s hs')
    refine ⟨t', ?_⟩
    rw [List.foldlM_cons, hkey]
    exact ht'

/-- The winners of a round have back their stakes, and with both pools what the losers staked but
the burn. -/
theorem settleRepType_spec {burnPct : ℚ} {winners losers : List DisputeStake}
    {out out' : SettlementEffects} (h : settleRepType burnPct winners losers out rep = .ok out')
    (rep' : RepType) :
    out'.stakeReturns.sumOf (fun k => k.2 = rep') + out'.stakeWinnings.sumOf (fun k => k.2 = rep') =
      out.stakeReturns.sumOf (fun k => k.2 = rep') + out.stakeWinnings.sumOf (fun k => k.2 = rep') +
      (if rep = rep' then stakedIn rep winners +
        (if stakedIn rep winners = 0 ∨ stakedIn rep losers = 0 then 0
          else stakedIn rep losers - burnOf burnPct winners losers rep) else 0) ∧
    out'.burned = out.burned + burnOf burnPct winners losers rep := by
  obtain ⟨returns, hreturns, h⟩ := bind_eq_ok.mp h
  have hkinds : ∀ amount : DisputeStake → ℚ,
      (((winners.filter fun s => s.repType = rep).filter fun s => s.repType = rep').map amount).sum =
        if rep = rep' then ((winners.filter fun s => s.repType = rep).map amount).sum else 0 := by
    intro amount
    split
    · rename_i hrep
      rw [← hrep, List.filter_eq_self.mpr]
      exact fun s hs => (List.mem_filter.mp hs).2
    · rename_i hrep
      rw [List.filter_eq_nil_iff.mpr]
      · rfl
      · intro s hs
        have hs := of_decide_eq_true (List.mem_filter.mp hs).2
        simp [hs, hrep]
  have hret := sumOf_payStakers rep' hreturns
  rw [hkinds] at hret
  have hpool : ((winners.filter fun s => s.repType = rep).map DisputeStake.amount).sum =
      stakedIn rep winners := rfl
  rw [hpool] at hret
  split at h
  · rename_i hnone
    obtain rfl := pure_eq_ok.mp h
    have hburn : burnOf burnPct winners losers rep = 0 := if_pos hnone
    refine ⟨?_, by rw [hburn, add_zero]⟩
    rw [hret, if_pos hnone, add_zero]
    ring
  · rename_i hboth
    obtain ⟨wins, hwins, h⟩ := bind_eq_ok.mp h
    obtain rfl := pure_eq_ok.mp h
    have hburn : burnOf burnPct winners losers rep = stakedIn rep losers * burnPct := if_neg hboth
    have hwon := sumOf_payStakers rep' hwins
    rw [hkinds, sum_shares (fun h => hboth (.inl h)) hpool] at hwon
    refine ⟨?_, by rw [hburn]⟩
    rw [hret, hwon, if_neg hboth, hburn]
    split <;> ring

theorem disputeSettlementEffects_returns (h : ∀ s ∈ d.stakes, hashable s.nodeId = true) :
    ∃ out, disputeSettlementEffects cfg d = .ok out := by
  have hwinners : ∀ upheld, ∀ s ∈ d.winners upheld, hashable s.nodeId = true := by
    intro upheld s hs
    apply h
    unfold DisputeView.stakes
    cases upheld with
    | true => exact List.mem_append_left _ hs
    | false => exact List.mem_append_right _ hs
  have hround : ∀ upheld rep out, ∃ out', settleRepType cfg.resolutionLoserBurnPct
      (d.winners upheld) (d.losers upheld) out rep = .ok out' := by
    intro upheld rep out
    have hrep : ∀ s ∈ (d.winners upheld).filter fun s => s.repType = rep, hashable s.nodeId = true :=
      fun s hs => hwinners upheld s (List.mem_of_mem_filter hs)
    obtain ⟨returns, hreturns⟩ := exists_payStakers DisputeStake.amount out.stakeReturns hrep
    unfold settleRepType
    simp only [hreturns, bind, Except.bind]
    split
    · exact ⟨_, rfl⟩
    · obtain ⟨wins, hwins⟩ := exists_payStakers
        (fun s => s.amount / stakedIn rep (d.winners upheld) *
          (stakedIn rep (d.losers upheld) - stakedIn rep (d.losers upheld) *
            cfg.resolutionLoserBurnPct)) out.stakeWinnings hrep
      rw [hwins]
      exact ⟨_, rfl⟩
  have hrounds : ∀ upheld, ∃ out, [RepType.oracle, .common].foldlM
      (settleRepType cfg.resolutionLoserBurnPct (d.winners upheld) (d.losers upheld)) {} = .ok out := by
    intro upheld
    obtain ⟨out₁, hout₁⟩ := hround upheld .oracle {}
    obtain ⟨out₂, hout₂⟩ := hround upheld .common out₁
    refine ⟨out₂, ?_⟩
    rw [List.foldlM_cons, hout₁]
    change (settleRepType _ _ _ out₁ .common >>= _) = _
    rw [hout₂]
    rfl
  unfold disputeSettlementEffects
  split
  · exact ⟨_, rfl⟩
  · obtain ⟨t, ht⟩ := exists_payStakers DisputeStake.amount [] h
    rw [ht]
    exact ⟨_, rfl⟩
  · exact hrounds _

theorem stakedIn_stakes (upheld : Bool) :
    stakedIn rep d.stakes = stakedIn rep (d.winners upheld) + stakedIn rep (d.losers upheld) := by
  unfold DisputeView.stakes
  rw [stakedIn_append]
  cases upheld with
  | true => rfl
  | false => exact add_comm _ _

theorem settled_spec {burnPct : ℚ} {winners losers : List DisputeStake}
    (h : [RepType.oracle, .common].foldlM (settleRepType burnPct winners losers) {} = .ok out) :
    (∀ rep, out.stakeReturns.sumOf (fun k => k.2 = rep) +
      out.stakeWinnings.sumOf (fun k => k.2 = rep) = stakedIn rep winners +
        (if stakedIn rep winners = 0 ∨ stakedIn rep losers = 0 then 0
          else stakedIn rep losers - burnOf burnPct winners losers rep)) ∧
    out.burned = burnOf burnPct winners losers .oracle + burnOf burnPct winners losers .common := by
  rw [List.foldlM_cons] at h
  obtain ⟨out₁, hout₁, h⟩ := bind_eq_ok.mp h
  rw [List.foldlM_cons] at h
  obtain ⟨out₂, hout₂, h⟩ := bind_eq_ok.mp h
  obtain rfl := pure_eq_ok.mp h
  constructor
  · intro rep
    rw [(settleRepType_spec hout₂ rep).1, (settleRepType_spec hout₁ rep).1]
    cases rep <;> simp
  · rw [(settleRepType_spec hout₂ .oracle).2, (settleRepType_spec hout₁ .oracle).2, zero_add]

/-- The rounds lose nothing of a rep type where its losers have winners to pay. -/
theorem settled_conserves_iff (upheld : Bool) (hpos : ∀ s ∈ d.stakes, 0 < s.amount)
    (hresolved : d.resolvedOutcome = some (if upheld then .upheld else .reversed))
    (h : [RepType.oracle, .common].foldlM (settleRepType cfg.resolutionLoserBurnPct
      (d.winners upheld) (d.losers upheld)) {} = .ok out) : out.Conserves cfg d ↔ HasWinners d := by
  have hburn : ∀ rep, disputeBurn cfg d rep =
      burnOf cfg.resolutionLoserBurnPct (d.winners upheld) (d.losers upheld) rep := by
    intro rep
    unfold disputeBurn
    rw [hresolved]
    cases upheld <;> rfl
  have hwinners : ∀ rep, stakedIn rep (d.winners upheld) = 0 ↔
      ¬ ∃ s ∈ d.winners upheld, s.repType = rep := by
    refine fun rep => stakedIn_eq_zero_iff fun s hs => hpos s ?_
    unfold DisputeView.stakes
    cases upheld with
    | true => exact List.mem_append_left _ hs
    | false => exact List.mem_append_right _ hs
  have hlosers : ∀ rep, stakedIn rep (d.losers upheld) = 0 ↔
      ¬ ∃ s ∈ d.losers upheld, s.repType = rep := by
    refine fun rep => stakedIn_eq_zero_iff fun s hs => hpos s ?_
    unfold DisputeView.stakes
    cases upheld with
    | true => exact List.mem_append_right _ hs
    | false => exact List.mem_append_left _ hs
  obtain ⟨hpaid, hburned⟩ := settled_spec h
  -- a rep type balances where losers without winners staked nothing
  have hbalance : ∀ rep, stakedIn rep d.stakes = out.stakeReturns.sumOf (fun k => k.2 = rep) +
      out.stakeWinnings.sumOf (fun k => k.2 = rep) + disputeBurn cfg d rep ↔
        ((∃ s ∈ d.losers upheld, s.repType = rep) → ∃ s ∈ d.winners upheld, s.repType = rep) := by
    intro rep
    rw [stakedIn_stakes upheld, hpaid, hburn]
    unfold burnOf
    split
    · rename_i hnone
      rw [add_zero, add_zero, add_eq_left, hlosers]
      rw [hwinners, hlosers] at hnone
      refine ⟨fun hno hloser => absurd hloser hno, fun himp hloser => ?_⟩
      rcases hnone with hno | hno
      · exact hno (himp hloser)
      · exact hno hloser
    · rename_i hboth
      rw [hwinners, hlosers] at hboth
      refine ⟨fun _ _ => ?_, fun _ => by ring⟩
      by_contra hno
      exact hboth (.inl hno)
  constructor
  · intro hconserves upheld' hresolved' rep
    have hsame : upheld' = upheld := by
      rw [hresolved] at hresolved'
      cases upheld <;> cases upheld' <;> simp_all
    rw [hsame]
    exact (hbalance rep).mp (hconserves.stakes rep)
  · intro hhas
    refine ⟨?_, fun rep => (hbalance rep).mpr (hhas upheld hresolved rep)⟩
    rw [hburned, hburn, hburn]

/-- No stake is lost exactly if each rep type that was staked against has winners. -/
theorem disputeSettlementEffects_conserves_iff (cfg : Config) (d : DisputeView)
    (hresolved : d.resolvedOutcome.isSome = true) (hpos : ∀ s ∈ d.stakes, 0 < s.amount) :
    ((∀ s ∈ d.stakes, hashable s.nodeId = true) → ∃ out, disputeSettlementEffects cfg d = .ok out) ∧
      ∀ out, disputeSettlementEffects cfg d = .ok out → (out.Conserves cfg d ↔ HasWinners d) := by
  refine ⟨disputeSettlementEffects_returns, fun out hout => ?_⟩
  obtain ⟨outcome, houtcome⟩ := Option.isSome_iff_exists.mp hresolved
  unfold disputeSettlementEffects at hout
  rw [houtcome] at hout
  cases outcome with
  | upheld => exact settled_conserves_iff true hpos houtcome hout
  | reversed => exact settled_conserves_iff false hpos houtcome hout
  | tie =>
    obtain ⟨t, ht, hout⟩ := bind_eq_ok.mp hout
    obtain rfl := pure_eq_ok.mp hout
    have hburn : ∀ rep, disputeBurn cfg d rep = 0 := by
      intro rep
      unfold disputeBurn
      rw [houtcome]
    refine iff_of_true ⟨by rw [hburn, hburn, add_zero], fun rep => ?_⟩ fun upheld hupheld => ?_
    · rw [hburn, sumOf_payStakers rep ht]
      simp [stakedIn]
    · rw [houtcome] at hupheld
      cases upheld <;> cases hupheld

/-! ## A one-sided rep type -/

/-- A dispute that was upheld, with one confirming stake in oracle reputation. -/
def upheldDispute (reverseStakes : List DisputeStake) : DisputeView where
  disputeId := "d1"
  marketId := "m1"
  challengerId := "eve"
  challengerStake := 1
  openedAt := 10
  confirmStakes := [⟨.str "ana", 3, .oracle⟩]
  reverseStakes := reverseStakes
  resolvedOutcome := some .upheld

theorem disputeSettlementEffects_conserves_iff_oracle :
    ∃ out, disputeSettlementEffects {} (upheldDispute [⟨.str "bob", 2, .oracle⟩]) = .ok out ∧
      (out.Conserves {} (upheldDispute [⟨.str "bob", 2, .oracle⟩]) ↔
        HasWinners (upheldDispute [⟨.str "bob", 2, .oracle⟩])) := by
  obtain ⟨hreturns, hconserves⟩ := disputeSettlementEffects_conserves_iff {}
    (upheldDispute [⟨.str "bob", 2, .oracle⟩]) rfl (by simp [upheldDispute, DisputeView.stakes])
  obtain ⟨out, hout⟩ := hreturns (by simp [upheldDispute, DisputeView.stakes, hashable])
  exact ⟨out, hout, hconserves out hout⟩

/-- Common reputation staked against an outcome that nobody confirmed with common reputation is
    gone. -/
theorem not_disputeSettlementEffects_conserves : ¬ ∀ (cfg : Config) (d : DisputeView),
    d.resolvedOutcome.isSome = true → (∀ s ∈ d.stakes, 0 < s.amount) →
      (∀ s ∈ d.stakes, hashable s.nodeId = true) →
        ∃ out, disputeSettlementEffects cfg d = .ok out ∧ out.Conserves cfg d := by
  intro h
  obtain ⟨out, hout, hconserves⟩ := h {} (upheldDispute [⟨.str "bob", 2, .common⟩]) rfl
    (by simp [upheldDispute, DisputeView.stakes]) (by simp [upheldDispute, DisputeView.stakes, hashable])
  have hlost : okAnd (disputeSettlementEffects {} (upheldDispute [⟨.str "bob", 2, .common⟩]))
      (fun out => decide (out.stakeReturns.sumOf (fun k => k.2 = .common) +
        out.stakeWinnings.sumOf (fun k => k.2 = .common) = 0)) = true := by decide +kernel
  obtain ⟨out', hout', hzero⟩ := okAnd_iff.mp hlost
  obtain rfl := Except.ok.inj (hout.symm.trans hout')
  have hstakes := hconserves.stakes .common
  rw [of_decide_eq_true hzero] at hstakes
  have hstaked : stakedIn .common (upheldDispute [⟨.str "bob", 2, .common⟩]).stakes = 2 := by
    decide +kernel
  have hburn : disputeBurn {} (upheldDispute [⟨.str "bob", 2, .common⟩]) .common = 0 := by
    decide +kernel
  rw [hstaked, hburn] at hstakes
  norm_num at hstakes

end

end Vincent.Economy
