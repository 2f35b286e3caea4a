-- SUMMARY: Ranks in a falling list by counting.
import Mathlib.Data.Finset.Card
import Mathlib.Data.List.Sort

/-!
# Order statistics

In a list that falls, the entries above a bound form a prefix, so a rank is decided
by counting. Of a list that is ordered by its values, the first entry of each key
holds the greatest value of the key.
-/

namespace Vincent.OrderStatistics

section Ranks

variable {β : Type} [LinearOrder β] {l l' : List β} {T : β}

/-- How many entries are above a bound. -/
def above (T : β) (l : List β) : Nat := l.countP (T < ·)

/-- The entries above a bound come first. -/
theorem lt_getElem_iff (hl : l.Pairwise (· ≥ ·)) {i : Nat} (hi : i < l.length) :
    T < l[i] ↔ i < above T l := by
  induction l generalizing i with
  | nil => exact absurd hi (Nat.not_lt_zero i)
  | cons a l ih =>
    obtain ⟨ha, hrest⟩ := List.pairwise_cons.mp hl
    unfold above at *
    cases i with
    | zero =>
      rw [List.getElem_cons_zero, List.countP_pos_iff]
      constructor
      · intro h
        exact ⟨a, List.mem_cons_self, decide_eq_true h⟩
      · rintro ⟨b, hb, h⟩
        rcases List.mem_cons.mp hb with rfl | hb
        · exact of_decide_eq_true h
        · exact lt_of_lt_of_le (of_decide_eq_true h) (ha b hb)
    | succ i =>
      have hi' : i < l.length := Nat.lt_of_succ_lt_succ hi
      rw [List.getElem_cons_succ, ih hrest hi', List.countP_cons]
      split
      · omega
      · rename_i h
        have hnone : l.countP (T < ·) = 0 := by
          rw [List.countP_eq_zero]
          intro b hb hlt
          exact h (decide_eq_true (lt_of_lt_of_le (of_decide_eq_true hlt) (ha b hb)))
        omega

theorem getElem_le_of_above (hl : l.Pairwise (· ≥ ·)) {i : Nat} (hi : i < l.length)
    (h : above T l ≤ i) : l[i] ≤ T := by
  rw [← not_lt, lt_getElem_iff hl hi]
  exact Nat.not_lt.mpr h

/-- Where more is above every bound, every rank is higher. -/
theorem getElem_le_getElem (hl : l.Pairwise (· ≥ ·)) (hl' : l'.Pairwise (· ≥ ·))
    (h : ∀ T, above T l ≤ above T l') {i : Nat} (hi : i < l.length) (hi' : i < l'.length) :
    l[i] ≤ l'[i] := by
  rw [← not_lt]
  intro hlt
  have hcount := (lt_getElem_iff hl hi).mp hlt
  have hself := (lt_getElem_iff hl' hi').not.mp (lt_irrefl l'[i])
  exact hself (lt_of_lt_of_le hcount (h l'[i]))

/-- Sorting a falling list reverses it. -/
theorem insertionSort_eq_reverse (hl : l.Pairwise (· ≥ ·)) :
    l.insertionSort (· ≤ ·) = l.reverse := by
  have hperm : (l.insertionSort (· ≤ ·)).Perm l.reverse :=
    (List.perm_insertionSort _ l).trans (List.reverse_perm l).symm
  exact hperm.eq_of_pairwise (fun a b _ _ hab hba => le_antisymm hab hba)
    (List.pairwise_insertionSort _ l) (List.pairwise_reverse.mpr hl)

end Ranks

section Firsts

variable {κ β : Type} [DecidableEq κ] {seen : List κ} {l l' : List (κ × β)}

/-- The first entry of each key that was not seen. -/
def firsts (seen : List κ) : List (κ × β) → List (κ × β)
  | [] => []
  | e :: l => if e.1 ∈ seen then firsts seen l else e :: firsts (e.1 :: seen) l

theorem firsts_sublist (seen : List κ) (l : List (κ × β)) : (firsts seen l).Sublist l := by
  induction l generalizing seen with
  | nil => exact List.Sublist.refl []
  | cons e l ih =>
    unfold firsts
    split
    · exact (ih seen).cons e
    · exact (ih (e.1 :: seen)).cons_cons e

theorem not_mem_seen {e : κ × β} (h : e ∈ firsts seen l) : e.1 ∉ seen := by
  induction l generalizing seen with
  | nil => exact absurd h List.not_mem_nil
  | cons d l ih =>
    unfold firsts at h
    split at h
    · exact ih h
    · rename_i hd
      rcases List.mem_cons.mp h with rfl | h
      · exact hd
      · exact fun hseen => ih h (List.mem_cons_of_mem d.1 hseen)

theorem nodup_firsts (seen : List κ) (l : List (κ × β)) : ((firsts seen l).map Prod.fst).Nodup := by
  induction l generalizing seen with
  | nil => exact List.nodup_nil
  | cons e l ih =>
    unfold firsts
    split
    · exact ih seen
    · rw [List.map_cons, List.nodup_cons]
      refine ⟨fun hmem => ?_, ih (e.1 :: seen)⟩
      obtain ⟨d, hd, heq⟩ := List.mem_map.mp hmem
      exact not_mem_seen hd (heq ▸ List.mem_cons_self)

variable [LinearOrder β]

/-- The first entry of a key in a falling list holds its greatest value. -/
theorem exists_first (hl : l.Pairwise fun a b => a.2 ≥ b.2) {e : κ × β} (he : e ∈ l)
    (hseen : e.1 ∉ seen) : ∃ d ∈ firsts seen l, d.1 = e.1 ∧ e.2 ≤ d.2 := by
  induction l generalizing seen with
  | nil => exact absurd he List.not_mem_nil
  | cons a l ih =>
    obtain ⟨ha, hrest⟩ := List.pairwise_cons.mp hl
    unfold firsts
    rcases List.mem_cons.mp he with rfl | he
    · rw [if_neg hseen]
      exact ⟨e, List.mem_cons_self, rfl, le_refl _⟩
    · split
      · exact ih hrest he hseen
      · rcases eq_or_ne e.1 a.1 with hkey | hkey
        · exact ⟨a, List.mem_cons_self, hkey.symm, ha e he⟩
        · have hseen' : e.1 ∉ a.1 :: seen := by
            rw [List.mem_cons, not_or]
            exact ⟨hkey, hseen⟩
          obtain ⟨d, hd, hde, hle⟩ := ih hrest he hseen'
          exact ⟨d, List.mem_cons_of_mem a hd, hde, hle⟩

/-- The keys that have a value above a bound. -/
def keysAbove (T : β) (l : List (κ × β)) : Finset κ :=
  ((l.filter fun e => T < e.2).map Prod.fst).toFinset

theorem mem_keysAbove {T : β} {k : κ} : k ∈ keysAbove T l ↔ ∃ e ∈ l, T < e.2 ∧ e.1 = k := by
  simp [keysAbove, and_assoc]

/-- Of the first entries of a falling list, as many are above a bound as there are keys with a
    value above it. -/
theorem above_firsts (hl : l.Pairwise fun a b => a.2 ≥ b.2) (T : β) :
    above T ((firsts [] l).map Prod.snd) = (keysAbove T l).card := by
  have hkeys : keysAbove T l = keysAbove T (firsts [] l) := by
    ext k
    rw [mem_keysAbove, mem_keysAbove]
    constructor
    · rintro ⟨e, he, hT, rfl⟩
      obtain ⟨d, hd, hde, hle⟩ := exists_first hl he (List.not_mem_nil (a := e.1))
      exact ⟨d, hd, lt_of_lt_of_le hT hle, hde⟩
    · rintro ⟨e, he, hT, rfl⟩
      exact ⟨e, (firsts_sublist [] l).subset he, hT, rfl⟩
  have hnodup : (((firsts [] l).filter fun e => T < e.2).map Prod.fst).Nodup :=
    (nodup_firsts [] l).sublist (List.filter_sublist.map Prod.fst)
  rw [hkeys, keysAbove, List.toFinset_card_of_nodup hnodup, List.length_map]
  unfold above
  rw [List.countP_map, List.countP_eq_length_filter]
  rfl

theorem length_firsts (hl : l.Pairwise fun a b => a.2 ≥ b.2) :
    (firsts [] l).length = (l.map Prod.fst).toFinset.card := by
  have hkeys : (l.map Prod.fst).toFinset = ((firsts [] l).map Prod.fst).toFinset := by
    ext k
    rw [List.mem_toFinset, List.mem_toFinset, List.mem_map, List.mem_map]
    constructor
    · rintro ⟨e, he, rfl⟩
      obtain ⟨d, hd, hde, -⟩ := exists_first hl he (List.not_mem_nil (a := e.1))
      exact ⟨d, hd, hde⟩
    · rintro ⟨e, he, rfl⟩
      exact ⟨e, (firsts_sublist [] l).subset he, rfl⟩
  rw [hkeys, List.toFinset_card_of_nodup (nodup_firsts [] l), List.length_map]

end Firsts

end Vincent.OrderStatistics
