-- SUMMARY: Tallies: association lists of amounts.
import Mathlib.Algebra.Order.BigOperators.Group.List
import Mathlib.Algebra.BigOperators.Ring.List
import Mathlib.Tactic.FieldSimp
import Mathlib.Tactic.Ring

/-!
# Tallies

A tally keeps an amount for each key, in the order in which the keys came.
`add` is the only way to change one. `sumOf p` is what the keys that satisfy `p`
hold between them, and every lemma says how an operation changes it.
-/

namespace Vincent

/-- A map from keys to amounts, in insertion order. -/
abbrev Tally (κ M : Type) := List (κ × M)

namespace Tally

variable {κ α M : Type} [DecidableEq κ] [AddCommMonoid M]

/-- Add to the amount of a key, which starts from zero. -/
def add (k : κ) (m : M) : Tally κ M → Tally κ M
  | [] => [(k, 0 + m)]
  | (k', n) :: t => if k' = k then (k', n + m) :: t else (k', n) :: add k m t

/-- Add an amount for each element of a list. -/
def addAll (key : α → κ) (amount : α → M) (xs : List α) (t : Tally κ M) : Tally κ M :=
  xs.foldl (fun t x => add (key x) (amount x) t) t

/-- What the keys that satisfy `p` hold. -/
def sumOf (p : κ → Bool) (t : Tally κ M) : M := ((t.filter fun kn => p kn.1).map Prod.snd).sum

/-- What all keys hold. -/
def total (t : Tally κ M) : M := (t.map Prod.snd).sum

variable {p : κ → Bool} {t : Tally κ M} {k : κ} {m : M} {key : α → κ} {amount : α → M}

omit [DecidableEq κ] in
@[simp] theorem sumOf_nil : sumOf p ([] : Tally κ M) = 0 := rfl

omit [DecidableEq κ] in
@[simp] theorem total_nil : total ([] : Tally κ M) = 0 := rfl

omit [DecidableEq κ] in
theorem sumOf_cons {n : M} :
    sumOf p ((k, n) :: t) = (if p k then n else 0) + sumOf p t := by
  unfold sumOf
  cases hp : p k <;> simp [hp]

omit [DecidableEq κ] in
theorem total_eq_sumOf : total t = sumOf (fun _ => true) t := by
  simp [total, sumOf]

theorem sumOf_add : sumOf p (add k m t) = sumOf p t + if p k then m else 0 := by
  induction t with
  | nil => simp [add, sumOf_cons]
  | cons kn t ih =>
    obtain ⟨k', n⟩ := kn
    unfold add
    split
    · rename_i hk
      subst hk
      simp only [sumOf_cons]
      cases p k' <;> simp [add_assoc, add_comm]
    · simp only [sumOf_cons, ih, add_assoc]

@[simp] theorem total_add : total (add k m t) = total t + m := by
  simp only [total_eq_sumOf, sumOf_add, if_true]

theorem sumOf_addAll (xs : List α) :
    sumOf p (addAll key amount xs t) =
      sumOf p t + ((xs.filter fun x => p (key x)).map amount).sum := by
  induction xs generalizing t with
  | nil => simp [addAll]
  | cons x xs ih =>
    have hstep : addAll key amount (x :: xs) t = addAll key amount xs (add (key x) (amount x) t) := rfl
    rw [hstep, ih, sumOf_add]
    cases hp : p (key x) <;> simp [hp, add_assoc]

@[simp] theorem total_addAll (xs : List α) :
    total (addAll key amount xs t) = total t + (xs.map amount).sum := by
  simp only [total_eq_sumOf, sumOf_addAll, List.filter_true]

end Tally

/-- What is shared out in proportion to the amounts of a pool adds up to what there is to share. -/
theorem sum_shares {α K : Type} [Field K] {amount : α → K} {xs : List α} {pool d : K}
    (hpool : pool ≠ 0) (h : (xs.map amount).sum = pool) :
    (xs.map fun x => amount x / pool * d).sum = d := by
  have hscaled : (xs.map fun x => amount x / pool * d).sum = (xs.map amount).sum * (d / pool) := by
    rw [← List.sum_map_mul_right]
    congr 1
    apply List.map_congr_left
    intro x _
    ring
  rw [hscaled, h]
  field_simp

end Vincent
