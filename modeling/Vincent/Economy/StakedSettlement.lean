-- SUMMARY: The pool settlement of staked predictions pays out exactly what was staked.
import Vincent.Economy.Reputation

/-!
# Staked settlement

Each staked prediction of a market is settled by itself, against pools that are
summed anew from all predictions. On the winning side the settlements add up to
both pools, and on the losing side to what was staked there.
-/

namespace Vincent.Economy

open Vincent.Python Vincent.Check

section

variable (rt : Runtime)

/-- The stake of a prediction, where it is present and finite. -/
def stakeRat (pred : Prediction) : ℚ :=
  match pred.stakeAmount with
  | .none => 0
  | amt => ((pyFloat rt amt).toOption.bind PyFloat.rat?).getD 0

/-- The prediction has a stake, on the side. -/
def onSide (side : String) (pred : Prediction) : Bool :=
  !pred.stakeAmount.eq .none && pred.side.eq (.str side)

def stakedOn (side : String) (predictions : List Prediction) : List Prediction :=
  predictions.filter (onSide side)

/-- What was staked on a side. -/
def pool (side : String) (predictions : List Prediction) : ℚ :=
  ((stakedOn side predictions).map (stakeRat rt)).sum

/-- The stakes that are present are positive rationals. -/
def PositiveStakes (predictions : List Prediction) : Prop :=
  ∀ pred ∈ predictions, pred.stakeAmount ≠ .none →
    ∃ q, pyFloat rt pred.stakeAmount = .ok (.finite q) ∧ 0 < q

end

section

variable {rt : Runtime} {pred : Prediction} {predictions : List Prediction} {outcome : String}

theorem eq_none_iff {v : PyVal} : v.eq .none = true ↔ v = .none := by
  cases v with
  | float x => cases x <;> simp [PyVal.eq, PyVal.eqScalar, PyVal.rat?]
  | none | bool | int | str | list | dict => simp [PyVal.eq, PyVal.eqScalar, PyVal.rat?]

theorem stakeRat_eq {q : ℚ} (hne : pred.stakeAmount ≠ .none)
    (h : pyFloat rt pred.stakeAmount = .ok (.finite q)) : stakeRat rt pred = q := by
  unfold stakeRat
  split
  · rename_i hnone
    exact absurd hnone hne
  · rw [h]
    rfl

theorem losingSide_ne (outcome : String) : losingSide outcome ≠ outcome := by
  unfold losingSide
  split
  · rename_i h
    rw [h]
    decide
  · rename_i h
    exact fun heq => h heq.symm

theorem stakeOf_eq {q : ℚ} (hne : pred.stakeAmount ≠ .none)
    (h : pyFloat rt pred.stakeAmount = .ok (.finite q)) (hq : 0 < q) :
    stakeOf rt pred = .ok (some (.finite q)) := by
  have hpos : (PyFloat.finite q).le (.finite 0) = false := by
    rw [← Bool.not_eq_true, PyFloat.finite_le]
    exact not_le.mpr hq
  unfold stakeOf
  split
  · rename_i hnone
    exact absurd hnone hne
  · rw [h]
    simp [catching, bind, Except.bind, pure, Except.pure, Option.filter, hpos]

theorem pool_append (side : String) (ps ps' : List Prediction) :
    pool rt side (ps ++ ps') = pool rt side ps + pool rt side ps' := by
  simp [pool, stakedOn]

theorem pool_single (side : String) :
    pool rt side [pred] = if onSide side pred then stakeRat rt pred else 0 := by
  unfold pool stakedOn
  cases hside : onSide side pred <;> simp [hside]

theorem onSide_iff {side : String} :
    onSide side pred = true ↔ pred.stakeAmount ≠ .none ∧ pred.side = .str side := by
  unfold onSide
  rw [Bool.and_eq_true, Bool.not_eq_true', ← Bool.not_eq_true, eq_none_iff, eq_str_iff]

theorem pools_add {w l : ℚ} (hpos : PositiveStakes rt [pred]) :
    Pools.add rt outcome ⟨.finite w, .finite l⟩ pred =
      .ok ⟨.finite (w + pool rt outcome [pred]), .finite (l + pool rt (losingSide outcome) [pred])⟩ := by
  unfold Pools.add
  rw [pool_single, pool_single]
  cases hnone : pred.stakeAmount.eq .none with
  | true =>
    have hstake : stakeOf rt pred = .ok none := by
      unfold stakeOf
      rw [eq_none_iff.mp hnone]
    simp [hstake, onSide, hnone, bind, Except.bind, pure, Except.pure]
  | false =>
    have hsome : pred.stakeAmount ≠ .none := by
      rw [← Bool.not_eq_true, eq_none_iff] at hnone
      exact hnone
    obtain ⟨q, hq, hq0⟩ := hpos pred List.mem_cons_self hsome
    rw [stakeOf_eq hsome hq hq0, stakeRat_eq hsome hq]
    simp only [bind, Except.bind, onSide, hnone, Bool.not_false, Bool.true_and]
    cases hwin : pred.side.eq (.str outcome) with
    | true =>
      have hlose : pred.side.eq (.str (losingSide outcome)) = false := by
        rw [← Bool.not_eq_true, eq_str_iff, eq_str_iff.mp hwin]
        exact fun h => losingSide_ne outcome (PyVal.str.inj h).symm
      simp [hlose, pure, Except.pure, PyFloat.add, PyFloat.rat?]
    | false =>
      cases hlose : pred.side.eq (.str (losingSide outcome)) <;>
        simp [pure, Except.pure, PyFloat.add, PyFloat.rat?]

/-- The loop sums what was staked on each side. -/
theorem pools_fold {w l : ℚ} (hpos : PositiveStakes rt predictions) :
    predictions.foldlM (Pools.add rt outcome) ⟨.finite w, .finite l⟩ =
      .ok ⟨.finite (w + pool rt outcome predictions),
        .finite (l + pool rt (losingSide outcome) predictions)⟩ := by
  induction predictions generalizing w l with
  | nil =>
    simp [pool, stakedOn, pure, Except.pure]
  | cons pred predictions ih =>
    have hone : PositiveStakes rt [pred] := fun p hp => hpos p (by simp_all)
    have hrest : PositiveStakes rt predictions := fun p hp => hpos p (List.mem_cons_of_mem pred hp)
    rw [List.foldlM_cons, pools_add hone]
    change predictions.foldlM _ _ = _
    have hsplit : ∀ side, pool rt side (pred :: predictions) =
        pool rt side [pred] + pool rt side predictions := fun side => pool_append side [pred] predictions
    rw [ih hrest, hsplit, hsplit, add_assoc, add_assoc]

/-- What a winning stake is multiplied by. -/
def winFactor (rt : Runtime) (outcome : String) (predictions : List Prediction) : ℚ :=
  (pool rt outcome predictions + pool rt (losingSide outcome) predictions) /
    pool rt outcome predictions

theorem stakeRat_pos {side : String} (hpos : PositiveStakes rt predictions)
    (h : pred ∈ stakedOn side predictions) :
    pyFloat rt pred.stakeAmount = .ok (.finite (stakeRat rt pred)) ∧ 0 < stakeRat rt pred := by
  obtain ⟨hmem, hside⟩ := List.mem_filter.mp h
  have hsome := (onSide_iff.mp hside).1
  obtain ⟨q, hq, hq0⟩ := hpos pred hmem hsome
  rw [stakeRat_eq hsome hq]
  exact ⟨hq, hq0⟩

theorem pool_pos {side : String} (hpos : PositiveStakes rt predictions)
    (h : stakedOn side predictions ≠ []) : 0 < pool rt side predictions := by
  unfold pool
  apply List.sum_pos
  · intro x hx
    obtain ⟨pred, hpred, rfl⟩ := List.mem_map.mp hx
    exact (stakeRat_pos hpos hpred).2
  · simpa using h

theorem settlement_winner (hpos : PositiveStakes rt predictions)
    (hmem : pred ∈ stakedOn outcome predictions) :
    stakedPredSettlement rt pred.stakeAmount pred.side outcome predictions =
      .ok (.finite (winFactor rt outcome predictions * stakeRat rt pred)) := by
  have hwin := (onSide_iff.mp (List.mem_filter.mp hmem).2).2
  have hpool := pool_pos hpos (List.ne_nil_of_mem hmem)
  obtain ⟨hstake, -⟩ := stakeRat_pos hpos hmem
  unfold stakedPredSettlement
  rw [pools_fold hpos, hstake, zero_add, zero_add]
  unfold winnings winFactor
  simp only [bind, Except.bind, pure, Except.pure, eq_str_iff.mpr hwin, if_true, PyFloat.isZero,
    PyFloat.rat?, Option.some.injEq, Bool.or_eq_true, decide_eq_true_eq, hpool.ne', false_or]
  split
  · rename_i hlose
    rw [hlose, add_zero, div_self hpool.ne', one_mul]
  · simp only [PyFloat.add, PyFloat.mul, PyFloat.div, PyFloat.inv, PyFloat.rat?, Option.getD_some]
    congr 2
    field_simp

theorem settlement_loser (hpos : PositiveStakes rt predictions)
    (hmem : pred ∈ stakedOn (losingSide outcome) predictions) :
    stakedPredSettlement rt pred.stakeAmount pred.side outcome predictions =
      .ok (.finite (-stakeRat rt pred)) := by
  have hlose := (onSide_iff.mp (List.mem_filter.mp hmem).2).2
  have hwin : pred.side.eq (.str outcome) = false := by
    rw [← Bool.not_eq_true, eq_str_iff, hlose]
    exact fun h => losingSide_ne outcome (PyVal.str.inj h)
  obtain ⟨hstake, -⟩ := stakeRat_pos hpos hmem
  unfold stakedPredSettlement
  rw [pools_fold hpos, hstake]
  simp only [bind, Except.bind, pure, Except.pure, hwin, eq_str_iff.mpr hlose, if_true]
  rfl

/-- The settlement pays out what was staked: the winners share both pools in proportion to their
    stakes. -/
theorem stakedPredSettlement_pays_pool (rt : Runtime) (outcome : String) (predictions : List Prediction)
    (hpos : PositiveStakes rt predictions) (hwinner : stakedOn outcome predictions ≠ []) :
    ∃ payout : Prediction → ℚ,
      (∀ pred ∈ stakedOn outcome predictions ++ stakedOn (losingSide outcome) predictions,
        stakedPredSettlement rt pred.stakeAmount pred.side outcome predictions =
          .ok (.finite (payout pred))) ∧
      ((stakedOn outcome predictions).map payout).sum =
        pool rt outcome predictions + pool rt (losingSide outcome) predictions ∧
      ((stakedOn (losingSide outcome) predictions).map payout).sum =
        -pool rt (losingSide outcome) predictions ∧
      ∃ factor, ∀ pred ∈ stakedOn outcome predictions, payout pred = factor * stakeRat rt pred := by
  have hpool := pool_pos hpos hwinner
  let payout : Prediction → ℚ := fun pred =>
    if pred.side.eq (.str outcome) then winFactor rt outcome predictions * stakeRat rt pred
    else -stakeRat rt pred
  have hwin : ∀ pred ∈ stakedOn outcome predictions,
      payout pred = winFactor rt outcome predictions * stakeRat rt pred := by
    intro pred hmem
    have hside := (onSide_iff.mp (List.mem_filter.mp hmem).2).2
    exact if_pos (eq_str_iff.mpr hside)
  have hlose : ∀ pred ∈ stakedOn (losingSide outcome) predictions, payout pred = -stakeRat rt pred := by
    intro pred hmem
    have hside := (onSide_iff.mp (List.mem_filter.mp hmem).2).2
    refine if_neg fun h => ?_
    rw [eq_str_iff, hside] at h
    exact losingSide_ne outcome (PyVal.str.inj h)
  refine ⟨payout, ?_, ?_, ?_, winFactor rt outcome predictions, hwin⟩
  · intro pred hmem
    rcases List.mem_append.mp hmem with hmem | hmem
    · rw [settlement_winner hpos hmem, hwin pred hmem]
    · rw [settlement_loser hpos hmem, hlose pred hmem]
  · rw [List.map_congr_left hwin, List.sum_map_mul_left]
    change winFactor rt outcome predictions * pool rt outcome predictions = _
    unfold winFactor
    field_simp
  · unfold pool
    rw [List.map_congr_left hlose, List.sum_neg, List.map_map]
    rfl

/-- Two winners, one of them twice, a loser and a free pick. -/
def ownPredictions : List Prediction :=
  [⟨.str "ana", .str "yes", .int 3, .int 50, .int 1⟩, ⟨.str "bob", .str "no", .int 4, .int 50, .int 2⟩,
    ⟨.str "ana", .str "yes", .int 1, .int 50, .int 3⟩, ⟨.str "eve", .str "yes", .none, .int 50, .int 4⟩]

theorem stakedPredSettlement_pays_pool_sample : ∃ payout : Prediction → ℚ,
    (∀ pred ∈ stakedOn "yes" ownPredictions ++ stakedOn (losingSide "yes") ownPredictions,
      stakedPredSettlement asciiRuntime pred.stakeAmount pred.side "yes" ownPredictions =
        .ok (.finite (payout pred))) ∧
    ((stakedOn "yes" ownPredictions).map payout).sum =
      pool asciiRuntime "yes" ownPredictions + pool asciiRuntime (losingSide "yes") ownPredictions ∧
    ((stakedOn (losingSide "yes") ownPredictions).map payout).sum =
      -pool asciiRuntime (losingSide "yes") ownPredictions ∧
    ∃ factor, ∀ pred ∈ stakedOn "yes" ownPredictions,
      payout pred = factor * stakeRat asciiRuntime pred := by
  refine stakedPredSettlement_pays_pool asciiRuntime "yes" ownPredictions ?_ (by decide +kernel)
  intro pred hpred hsome
  simp only [ownPredictions, List.mem_cons, List.not_mem_nil, or_false] at hpred
  rcases hpred with rfl | rfl | rfl | rfl
  · exact ⟨3, rfl, by norm_num⟩
  · exact ⟨4, rfl, by norm_num⟩
  · exact ⟨1, rfl, by norm_num⟩
  · exact absurd rfl hsome

end

end Vincent.Economy
