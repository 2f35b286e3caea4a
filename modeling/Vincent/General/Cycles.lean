-- SUMMARY: Walks along links that come back to where they were, and so never end.
import Vincent.General.LinkedChain

/-!
# Cycles of links

A walk follows the links of a finite list, one element at a time. It ends unless it
comes back to a key that it has left before.
-/

namespace Vincent.LinkedChain

universe u v

variable {α : Type u} {κ : Type v} {key pred : α → κ}

/-- The links from `k` lead into a cycle: `bs` leads up to it and `cs` goes around it. -/
def Cyclic (key pred : α → κ) (as : List α) (k : κ) : Prop :=
  ∃ bs cs, bs ⊆ as ∧ cs ⊆ as ∧ Linked key pred k (bs ++ cs) ∧ cs ≠ [] ∧
    lastKey key k (bs ++ cs) = lastKey key k bs

/-- On the way into a cycle, and around it, there is always a next element. -/
theorem Cyclic.step {as : List α} {k : κ} (h : Cyclic key pred as k) :
    ∃ a ∈ as, pred a = k ∧ Cyclic key pred as (key a) := by
  obtain ⟨bs, cs, hbs, hcs, hlinked, hne, hback⟩ := h
  cases bs with
  | cons b bs =>
    obtain ⟨hb, hbs⟩ := List.cons_subset.mp hbs
    refine ⟨b, hb, hlinked.1, bs, cs, hbs, hcs, hlinked.2, hne, ?_⟩
    simpa using hback
  | nil =>
    cases cs with
    | nil => exact absurd rfl hne
    | cons c cs =>
      obtain ⟨hc, hrest⟩ := List.cons_subset.mp hcs
      rw [List.nil_append, lastKey_cons, lastKey_nil] at hback
      -- once around, and the walk stands before `c` again
      refine ⟨c, hc, hlinked.1, cs, c :: cs, hrest, hcs, ?_, List.cons_ne_nil c cs, ?_⟩
      · rw [linked_append, hback]
        exact ⟨hlinked.2, hlinked⟩
      · rw [lastKey_append, lastKey_cons]

theorem Cyclic.cons {as : List α} {a : α} (h : Cyclic key pred as (key a)) (ha : a ∈ as) :
    Cyclic key pred as (pred a) := by
  obtain ⟨bs, cs, hbs, hcs, hlinked, hne, hback⟩ := h
  refine ⟨a :: bs, cs, List.cons_subset.mpr ⟨ha, hbs⟩, hcs, ⟨rfl, hlinked⟩, hne, ?_⟩
  simpa using hback

/-- A walk that visits an element twice goes around a cycle. -/
theorem cyclic_of_not_nodup {as bs : List α} {k : κ} (hsub : bs ⊆ as)
    (hlinked : Linked key pred k bs) (h : ¬ bs.Nodup) : Cyclic key pred as k := by
  classical
  induction bs generalizing k with
  | nil => exact absurd List.nodup_nil h
  | cons b bs ih =>
    obtain ⟨hb, hrest⟩ := List.cons_subset.mp hsub
    obtain ⟨rfl, hlinked⟩ := hlinked
    by_cases hagain : b ∈ bs
    · obtain ⟨mid, rest, rfl⟩ := List.append_of_mem hagain
      obtain ⟨hmid, hback, -⟩ := linked_append.mp hlinked
      refine ⟨[], b :: mid, List.nil_subset _, ?_, ⟨rfl, hmid⟩, List.cons_ne_nil b mid, ?_⟩
      · exact List.cons_subset.mpr ⟨hb, fun a ha => hrest (List.mem_append_left _ ha)⟩
      · rw [List.nil_append, lastKey_cons, lastKey_nil, hback]
    · refine Cyclic.cons (ih hrest hlinked fun hnodup => ?_) hb
      exact h (List.nodup_cons.mpr ⟨hagain, hnodup⟩)

/-- A walk with more steps than there are elements has come back. -/
theorem cyclic_of_long {as bs : List α} {k : κ} (hsub : bs ⊆ as) (hlinked : Linked key pred k bs)
    (hlong : as.length < bs.length) : Cyclic key pred as k := by
  refine cyclic_of_not_nodup hsub hlinked fun hnodup => ?_
  exact absurd (hnodup.subperm hsub).length_le (Nat.not_le.mpr hlong)

end Vincent.LinkedChain
