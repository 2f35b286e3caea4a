-- SUMMARY: Peeling signed keys off counting cells, with three hashes to a key.
import Mathlib.Algebra.BigOperators.Ring.List
import Mathlib.Data.List.Induction
import Mathlib.Tactic.Ring

/-!
# Signs of peels

A peel reads the sign of a key from the count of a cell and takes the key out of the
others. Where a key hashes to a cell more than once, that sign can be wrong. If every
cell ends with a count of zero, none was: the sums of the remains, modulo 4, show the
first wrong one.
-/

namespace Vincent.Peeling

/-- A key that is peeled off the cell `idx`: the sign that it was added with, the sign that was
    found, and how often it hashes to each cell. -/
structure Peel where
  idx : Nat
  own : Int
  found : Int
  mult : Nat → Nat

namespace Peel

/-- How often the found sign is taken out of a cell. The peeled cell is cleared. -/
def taken (e : Peel) (j : Nat) : Int := if e.idx = j then 1 else e.mult j

/-- What the key leaves in the count of a cell. -/
def rest (e : Peel) (j : Nat) : Int := e.own * e.mult j - e.found * e.taken j

/-- The signs are units. A key is alone in the cell that it is peeled off: it hashes there once,
    or three times and nowhere else. -/
structure Fair (e : Peel) : Prop where
  own : e.own = 1 ∨ e.own = -1
  found : e.found = 1 ∨ e.found = -1
  once : e.mult e.idx = 1 ∨ e.mult e.idx = 3 ∧ ∀ j, j ≠ e.idx → e.mult j = 0

variable {e : Peel} {j : Nat}

theorem Fair.wrong (h : e.Fair) (hne : e.found ≠ e.own) : e.found = -e.own := by
  have hown := h.own
  have hfound := h.found
  omega

theorem Fair.odd (h : e.Fair) : e.mult e.idx % 2 = 1 := by
  rcases h.once with h | ⟨h, -⟩ <;> rw [h]

/-- A key leaves nothing in another cell if its sign is right, and a multiple of four if it hashes
    there an even number of times. -/
theorem Fair.four_dvd_rest (h : e.Fair) (hne : e.idx ≠ j)
    (heven : e.found = e.own ∨ e.mult j % 2 = 0) : (4 : Int) ∣ e.rest j := by
  unfold rest taken
  rw [if_neg hne]
  rcases eq_or_ne e.found e.own with heq | hwrong
  · rw [heq, sub_self]
    exact dvd_zero 4
  · obtain ⟨m, hm⟩ := Nat.dvd_of_mod_eq_zero (heven.resolve_left hwrong)
    have hrest : e.own * e.mult j - e.found * e.mult j = 4 * (e.own * m) := by
      rw [h.wrong hwrong, hm]
      push_cast
      ring
    rw [hrest]
    exact dvd_mul_right 4 _

/-- A wrong sign leaves two in the peeled cell if the key hashes there once. -/
theorem Fair.not_four_dvd_rest (h : e.Fair) (hone : e.mult e.idx = 1) (hwrong : e.found ≠ e.own) :
    ¬ (4 : Int) ∣ e.rest e.idx := by
  unfold rest taken
  rw [if_pos rfl, hone, h.wrong hwrong]
  rcases h.own with hown | hown <;> rw [hown] <;> decide

end Peel

variable {es : List Peel}

/-- Peels in the order in which they are made. A key that is still there when a cell is peeled
    hashes to it an even number of times, and in the end the count of every peeled cell is zero. -/
structure UsedUp (es : List Peel) : Prop where
  fair : ∀ e ∈ es, e.Fair
  alone : es.Pairwise fun e e' => e'.mult e.idx % 2 = 0
  zero : ∀ e ∈ es, (es.map fun e' => e'.rest e.idx).sum = 0

theorem UsedUp.idx_ne (h : UsedUp es) {pre post : List Peel} {e e' : Peel}
    (hes : es = pre ++ e :: post) (he' : e' ∈ pre ++ post) : e'.idx ≠ e.idx := by
  intro heq
  have hpair := h.alone
  rw [hes, List.pairwise_append, List.pairwise_cons] at hpair
  obtain ⟨-, ⟨hpost, -⟩, hcross⟩ := hpair
  have hmem : e ∈ es ∧ e' ∈ es := by
    rw [hes]
    simp only [List.mem_append, List.mem_cons] at he' ⊢
    tauto
  rcases List.mem_append.mp he' with hpre | hpost'
  · have heven := hcross e' hpre e List.mem_cons_self
    rw [heq, (h.fair e hmem.1).odd] at heven
    cases heven
  · have heven := hpost e' hpost'
    rw [← heq, (h.fair e' hmem.2).odd] at heven
    cases heven

/-- The remains in the cell that a key is peeled off, without those of the key. -/
theorem UsedUp.rest_eq (h : UsedUp es) {pre post : List Peel} {e : Peel}
    (hes : es = pre ++ e :: post) : e.rest e.idx =
      -((pre.map fun e' => e'.rest e.idx).sum + (post.map fun e' => e'.rest e.idx).sum) := by
  have hzero := h.zero e (hes ▸ List.mem_append_right pre List.mem_cons_self)
  rw [hes, List.map_append, List.map_cons, List.sum_append, List.sum_cons] at hzero
  omega

theorem four_dvd_sum {l : List Peel} {j : Nat} (h : ∀ e ∈ l, (4 : Int) ∣ e.rest j) :
    (4 : Int) ∣ (l.map fun e => e.rest j).sum := by
  refine List.dvd_sum fun x hx => ?_
  obtain ⟨e, he, rfl⟩ := List.mem_map.mp hx
  exact h e he

/-- A wrong sign is that of a key that hashes to one cell only, if this is so before it. -/
theorem UsedUp.triple (h : UsedUp es) {pre post : List Peel} {e : Peel}
    (hes : es = pre ++ e :: post)
    (hpre : ∀ e' ∈ pre, e'.found ≠ e'.own → ∀ j, j ≠ e'.idx → e'.mult j = 0)
    (hwrong : e.found ≠ e.own) : ∀ j, j ≠ e.idx → e.mult j = 0 := by
  have hmem : ∀ e' ∈ pre ++ e :: post, e' ∈ es := fun e' he' => hes ▸ he'
  have hfair := h.fair e (hmem e (by simp))
  rcases hfair.once with hone | ⟨-, hzero⟩
  · have hbefore : (4 : Int) ∣ (pre.map fun e' => e'.rest e.idx).sum := by
      apply four_dvd_sum
      intro e' he'
      have hne := h.idx_ne hes (List.mem_append_left post he')
      refine (h.fair e' (hmem e' (List.mem_append_left _ he'))).four_dvd_rest hne ?_
      rcases eq_or_ne e'.found e'.own with heq | hwrong'
      · exact Or.inl heq
      · exact Or.inr (by rw [hpre e' he' hwrong' e.idx hne.symm])
    have hafter : (4 : Int) ∣ (post.map fun e' => e'.rest e.idx).sum := by
      apply four_dvd_sum
      intro e' he'
      have hpair := h.alone
      rw [hes, List.pairwise_append, List.pairwise_cons] at hpair
      have hne := h.idx_ne hes (List.mem_append_right pre he')
      exact (h.fair e' (hmem e' (List.mem_append_right _ (List.mem_cons_of_mem e he')))).four_dvd_rest
        hne (Or.inr (hpair.2.1.1 e' he'))
    have hrest : (4 : Int) ∣ e.rest e.idx := by
      rw [h.rest_eq hes, Int.dvd_neg]
      exact dvd_add hbefore hafter
    exact absurd hrest (hfair.not_four_dvd_rest hone hwrong)
  · exact hzero

/-- Every key with a wrong sign hashes to one cell only. -/
theorem UsedUp.triples (h : UsedUp es) : ∀ e ∈ es, e.found ≠ e.own → ∀ j, j ≠ e.idx → e.mult j = 0 := by
  have hprefix : ∀ pre post, es = pre ++ post →
      ∀ e ∈ pre, e.found ≠ e.own → ∀ j, j ≠ e.idx → e.mult j = 0 := by
    intro pre
    induction pre using List.reverseRecOn with
    | nil => exact fun _ _ e he => absurd he List.not_mem_nil
    | append_singleton pre e ih =>
      intro post hes
      rw [List.append_assoc, List.singleton_append] at hes
      have hpre := ih (e :: post) hes
      intro e' he'
      rcases List.mem_append.mp he' with he' | he'
      · exact hpre e' he'
      · obtain rfl := List.mem_singleton.mp he'
        exact h.triple hes hpre
  exact hprefix es [] (List.append_nil es).symm

/-- All signs are right. -/
theorem UsedUp.found_eq_own (h : UsedUp es) : ∀ e ∈ es, e.found = e.own := by
  intro e he
  by_contra hwrong
  have hfair := h.fair e he
  obtain ⟨pre, post, hes⟩ := List.append_of_mem he
  have hothers : ∀ e' ∈ pre ++ post, e'.rest e.idx = 0 := by
    intro e' he'
    have hne := h.idx_ne hes he'
    have hmem : e' ∈ es := by
      rw [hes]
      simp only [List.mem_append, List.mem_cons] at he' ⊢
      tauto
    unfold Peel.rest Peel.taken
    rw [if_neg hne]
    rcases eq_or_ne e'.found e'.own with heq | hwrong'
    · rw [heq, sub_self]
    · rw [h.triples e' hmem hwrong' e.idx hne.symm]
      simp
  have hsum : ∀ l : List Peel, (∀ e' ∈ l, e'.rest e.idx = 0) → (l.map fun e' => e'.rest e.idx).sum = 0 := by
    intro l hl
    apply List.sum_eq_zero
    intro x hx
    obtain ⟨e', he', rfl⟩ := List.mem_map.mp hx
    exact hl e' he'
  have hrest := h.rest_eq hes
  rw [hsum pre fun e' he' => hothers e' (List.mem_append_left post he'),
    hsum post fun e' he' => hothers e' (List.mem_append_right pre he')] at hrest
  unfold Peel.rest Peel.taken at hrest
  rw [if_pos rfl, hfair.wrong hwrong] at hrest
  rcases hfair.once with hone | ⟨hone, -⟩ <;> rcases hfair.own with hown | hown <;>
    rw [hone, hown] at hrest <;> revert hrest <;> decide

end Vincent.Peeling
