-- SUMMARY: Balances of the oracle ledger as rationals: additions and removals.
import Vincent.General.Sort
import Vincent.Oracle.Ledger
import Mathlib.Algebra.Order.BigOperators.Group.List

/-!
# Oracle balances

Where every amount is finite and a removal is covered by the balance, additions
and removals are those of rationals.
-/

namespace Vincent.Oracle

open Vincent.Python Vincent.Run

/-! ## Finite floats -/

/-- The rational of a finite float. -/
def val (x : PyFloat) : ℚ := x.rat?.getD 0

@[simp] theorem val_finite (q : ℚ) : val (.finite q) = q := rfl

/-- A finite float that is not negative. -/
def Nonneg (x : PyFloat) : Prop := x = .finite (val x) ∧ 0 ≤ val x

theorem nonneg_finite {q : ℚ} (h : 0 ≤ q) : Nonneg (.finite q) := ⟨rfl, h⟩

theorem foldl_add_finite {xs : List PyFloat} (h : ∀ x ∈ xs, x = .finite (val x)) (a : ℚ) :
    xs.foldl PyFloat.add (.finite a) = .finite (a + (xs.map val).sum) := by
  induction xs generalizing a with
  | nil => simp
  | cons x xs ih =>
    have hx := h x List.mem_cons_self
    have hadd : (PyFloat.finite a).add x = .finite (a + val x) := by
      rw [hx]
      rfl
    rw [List.foldl_cons, hadd, ih fun y hy => h y (List.mem_cons_of_mem _ hy), List.map_cons,
      List.sum_cons, add_assoc]

theorem pySum_finite {xs : List PyFloat} (h : ∀ x ∈ xs, x = .finite (val x)) :
    pySum xs = .finite ((xs.map val).sum) := by
  unfold pySum
  rw [foldl_add_finite h, zero_add]

theorem roundHalfEven_nonneg {q : ℚ} (h : 0 ≤ q) : 0 ≤ roundHalfEven q := by
  have hfloor : 0 ≤ ⌊q⌋ := Int.floor_nonneg.mpr h
  unfold roundHalfEven
  split_ifs <;> omega

theorem Nonneg.round3 {x : PyFloat} (h : Nonneg x) : Nonneg (round3 x) := by
  rw [h.1]
  have hscaled : 0 ≤ val x * 1000 := mul_nonneg h.2 (by norm_num)
  have hint : (0 : ℚ) ≤ (roundHalfEven (val x * 1000) : ℚ) :=
    Int.cast_nonneg (roundHalfEven_nonneg hscaled)
  exact nonneg_finite (div_nonneg hint (by norm_num))

theorem Nonneg.mul {x y : PyFloat} (hx : Nonneg x) (hy : Nonneg y) : Nonneg (x.mul y) := by
  rw [hx.1, hy.1]
  exact nonneg_finite (mul_nonneg hx.2 hy.2)

theorem Nonneg.div {x y : PyFloat} (hx : Nonneg x) (hy : Nonneg y) : Nonneg (x.div y) := by
  rw [hx.1, hy.1]
  exact nonneg_finite (mul_nonneg hx.2 (inv_nonneg.mpr hy.2))

/-! ## Balances -/

/-- No balance is negative, and all are finite. -/
def NonnegRep (rep : OrderedMap String PyFloat) : Prop := ∀ kv ∈ rep, Nonneg kv.2

/-- The sum of all balances. -/
def worth (rep : OrderedMap String PyFloat) : ℚ := (rep.map fun kv => val kv.2).sum

/-- What a list of nodes and amounts has for a node. -/
def owed (xs : List (String × PyFloat)) (nodeId : String) : ℚ :=
  ((xs.filter fun x => x.1 = nodeId).map fun x => val x.2).sum

/-- What a list of nodes and amounts has in all. -/
def pool (xs : List (String × PyFloat)) : ℚ := (xs.map fun x => val x.2).sum

variable {rep : OrderedMap String PyFloat} {x : String × PyFloat} {xs : List (String × PyFloat)}

@[simp] theorem owed_nil (nodeId : String) : owed [] nodeId = 0 := rfl

theorem owed_cons (nodeId : String) :
    owed (x :: xs) nodeId = (if x.1 = nodeId then val x.2 else 0) + owed xs nodeId := by
  unfold owed
  by_cases h : x.1 = nodeId <;> simp [h]

theorem owed_append (ys : List (String × PyFloat)) (nodeId : String) :
    owed (xs ++ ys) nodeId = owed xs nodeId + owed ys nodeId := by
  unfold owed
  rw [List.filter_append, List.map_append, List.sum_append]

theorem owed_nonneg (h : ∀ x ∈ xs, Nonneg x.2) (nodeId : String) : 0 ≤ owed xs nodeId := by
  refine List.sum_nonneg fun q hq => ?_
  obtain ⟨x, hx, rfl⟩ := List.mem_map.mp hq
  exact (h x (List.mem_filter.mp hx).1).2

theorem NonnegRep.balance (h : NonnegRep rep) (nodeId : String) : Nonneg (balance rep nodeId) := by
  unfold Oracle.balance
  cases hheld : rep.lookup nodeId with
  | none => exact nonneg_finite le_rfl
  | some v =>
    obtain ⟨pre, post, rfl, -⟩ := List.lookup_eq_some_iff.mp hheld
    exact h (nodeId, v) (List.mem_append_right _ List.mem_cons_self)

theorem mem_upsert {k : String} {f : Option PyFloat → PyFloat} {kv : String × PyFloat}
    (h : kv ∈ OrderedMap.upsert k f rep) : kv ∈ rep ∨ kv.2 = f (rep.lookup k) := by
  induction rep with
  | nil =>
    obtain rfl := List.mem_singleton.mp h
    exact .inr rfl
  | cons entry rep ih =>
    obtain ⟨k', v⟩ := entry
    unfold OrderedMap.upsert at h
    rw [OrderedMap.lookup_entry]
    by_cases hk : k' = k
    · rw [if_pos hk] at h
      rw [if_pos hk.symm]
      rcases List.mem_cons.mp h with rfl | hrest
      · exact .inr rfl
      · exact .inl (List.mem_cons_of_mem _ hrest)
    · rw [if_neg hk] at h
      rw [if_neg (Ne.symm hk)]
      rcases List.mem_cons.mp h with rfl | hrest
      · exact .inl List.mem_cons_self
      · exact (ih hrest).imp_left (List.mem_cons_of_mem _)

theorem worth_upsert (k : String) (f : Option PyFloat → PyFloat) :
    worth (OrderedMap.upsert k f rep) =
      worth rep + (val (f (rep.lookup k)) - val (balance rep k)) := by
  induction rep with
  | nil => simp [worth, OrderedMap.upsert, balance]
  | cons entry rep ih =>
    obtain ⟨k', v⟩ := entry
    unfold OrderedMap.upsert balance
    rw [OrderedMap.lookup_entry]
    by_cases hk : k' = k
    · rw [if_pos hk, if_pos hk.symm]
      simp only [worth, List.map_cons, List.sum_cons, Option.getD_some]
      ring
    · rw [if_neg hk, if_neg (Ne.symm hk)]
      have hrest := ih
      simp only [worth, balance, List.map_cons, List.sum_cons] at hrest ⊢
      rw [hrest]
      ring

/-- What one change of a balance to a value does. -/
structure Changed (rep rep' : OrderedMap String PyFloat) (delta : String → ℚ) (sum : ℚ) : Prop where
  nonneg : NonnegRep rep'
  balance : ∀ nodeId, val (balance rep' nodeId) = val (balance rep nodeId) + delta nodeId
  worth : worth rep' = worth rep + sum

theorem Changed.trans {rep' rep'' : OrderedMap String PyFloat} {d d' : String → ℚ} {s s' : ℚ}
    (h : Changed rep rep' d s) (h' : Changed rep' rep'' d' s') :
    Changed rep rep'' (fun n => d n + d' n) (s + s') where
  nonneg := h'.nonneg
  balance := fun n => by rw [h'.balance, h.balance, add_assoc]
  worth := by rw [h'.worth, h.worth, add_assoc]

theorem changed_upsert (hrep : NonnegRep rep) {k : String} {f : Option PyFloat → PyFloat} {q : ℚ}
    (hf : f (rep.lookup k) = .finite (val (balance rep k) + q)) (hq : 0 ≤ val (balance rep k) + q) :
    Changed rep (OrderedMap.upsert k f rep) (fun n => if k = n then q else 0) q where
  nonneg := by
    intro kv hkv
    rcases mem_upsert hkv with hold | hnew
    · exact hrep kv hold
    · rw [hnew, hf]
      exact nonneg_finite hq
  balance := by
    intro n
    unfold Oracle.balance
    rw [OrderedMap.lookup_upsert]
    by_cases hn : n = k
    · rw [if_pos hn, if_pos hn.symm, Option.getD_some, hf, val_finite, hn]
      rfl
    · rw [if_neg hn, if_neg (Ne.symm hn), add_zero]
  worth := by
    rw [worth_upsert, hf, val_finite]
    ring

theorem changed_add (hrep : NonnegRep rep) (hx : Nonneg x.2) :
    Changed rep (addOracleRep rep x) (fun n => if x.1 = n then val x.2 else 0) (val x.2) := by
  have hheld := hrep.balance x.1
  refine changed_upsert hrep ?_ (add_nonneg hheld.2 hx.2)
  change (balance rep x.1).add x.2 = _
  rw [hheld.1, hx.1]
  rfl

/-- A removal that the balance covers takes the whole amount. -/
theorem changed_remove (hrep : NonnegRep rep) (hx : Nonneg x.2)
    (hle : val x.2 ≤ val (balance rep x.1)) :
    Changed rep (removeOracleRep rep x) (fun n => if x.1 = n then -val x.2 else 0) (-val x.2) := by
  have hheld := hrep.balance x.1
  have hleft : 0 ≤ val (balance rep x.1) + -val x.2 := by linarith
  refine changed_upsert hrep ?_ hleft
  change PyFloat.max (.finite 0) ((balance rep x.1).sub x.2) = _
  have hsub : (balance rep x.1).sub x.2 = .finite (val (balance rep x.1) + -val x.2) := by
    rw [hheld.1, hx.1]
    rfl
  rw [hsub]
  unfold PyFloat.max
  split
  · rfl
  next hlt =>
    have hzero : ¬ 0 < val (balance rep x.1) + -val x.2 := fun hpos =>
      hlt ((PyFloat.lt_rat rfl rfl).mpr hpos)
    rw [le_antisymm (not_lt.mp hzero) hleft]

theorem changed_addAll (h : ∀ x ∈ xs, Nonneg x.2) (hrep : NonnegRep rep) :
    Changed rep (xs.foldl addOracleRep rep) (owed xs) (pool xs) := by
  induction xs generalizing rep with
  | nil => exact ⟨hrep, fun _ => (add_zero _).symm, (add_zero _).symm⟩
  | cons x xs ih =>
    have hfirst := changed_add hrep (h x List.mem_cons_self)
    have hrest := ih (fun y hy => h y (List.mem_cons_of_mem _ hy)) hfirst.nonneg
    have hboth := hfirst.trans hrest
    refine ⟨hboth.nonneg, fun n => ?_, ?_⟩
    · rw [owed_cons]
      exact hboth.balance n
    · exact hboth.worth.trans (by simp [pool])

theorem changed_removeAll (h : ∀ x ∈ xs, Nonneg x.2) (hrep : NonnegRep rep)
    (hle : ∀ n, owed xs n ≤ val (balance rep n)) :
    Changed rep (xs.foldl removeOracleRep rep) (fun n => -owed xs n) (-pool xs) := by
  induction xs generalizing rep with
  | nil => exact ⟨hrep, fun _ => by simp, by simp [pool]⟩
  | cons x xs ih =>
    have hx := h x List.mem_cons_self
    have hrest_nonneg : ∀ y ∈ xs, Nonneg y.2 := fun y hy => h y (List.mem_cons_of_mem _ hy)
    have hcovers : val x.2 ≤ val (balance rep x.1) := by
      have hown := hle x.1
      rw [owed_cons, if_pos rfl] at hown
      linarith [owed_nonneg hrest_nonneg x.1]
    have hfirst := changed_remove hrep hx hcovers
    have hrest := ih hrest_nonneg hfirst.nonneg fun n => by
      have hown := hle n
      rw [owed_cons] at hown
      rw [hfirst.balance]
      split_ifs at hown ⊢ <;> linarith
    have hboth := hfirst.trans hrest
    refine ⟨hboth.nonneg, fun n => (hboth.balance n).trans ?_, hboth.worth.trans ?_⟩
    · rw [owed_cons]
      split_ifs <;> ring
    · simp only [pool, List.map_cons, List.sum_cons]
      ring

end Vincent.Oracle
