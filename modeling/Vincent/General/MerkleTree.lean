-- SUMMARY: Merkle trees as lists of levels, and proofs.
import Mathlib.Data.List.Basic

/-!
# Merkle trees

A tree is the list of its levels, from the leaves to the root. A level of odd length
pairs its last digest with itself. A proof names the sibling at each level but the
last, and folding it over the leaf gives the root.
-/

namespace Vincent.Merkle

universe u

variable {δ : Type u}

/-- The side that a sibling stands on. -/
inductive Side where
  | left
  | right
deriving DecidableEq, Repr

/-- The level above. -/
def parents (pair : δ → δ → δ) : List δ → List δ
  | [] => []
  | [a] => [pair a a]
  | a :: b :: rest => pair a b :: parents pair rest

theorem parents_length (pair : δ → δ → δ) (level : List δ) :
    (parents pair level).length = (level.length + 1) / 2 := by
  induction level using parents.induct with
  | case1 => simp [parents]
  | case2 a => simp [parents]
  | case3 a b rest ih =>
    simp only [parents, List.length_cons, ih]
    omega

/-- All levels above and including the given one. -/
def levels (pair : δ → δ → δ) (level : List δ) : List (List δ) :=
  if 1 < level.length then level :: levels pair (parents pair level) else [level]
termination_by level.length
decreasing_by
  rw [parents_length]
  omega

/-- The only digest of the last level. -/
def root? (levels : List (List δ)) : Option δ := levels.getLast?.bind List.head?

/-- The sibling of a position. The last one of an odd level is its own sibling. -/
def sibling? (level : List δ) (idx : Nat) : Option (δ × Side) :=
  if idx % 2 = 1 then level[idx - 1]?.map (·, .left)
  else (level[idx + 1]?.or level[idx]?).map (·, .right)

/-- The siblings on the way up from a position, or `none` when one is out of range. -/
def proof? : List (List δ) → Nat → Option (List (δ × Side))
  | level :: above :: rest, idx => do
    let step ← sibling? level idx
    let steps ← proof? (above :: rest) (idx / 2)
    return step :: steps
  | _, _ => some []

/-- Hash a digest with the siblings of a proof. -/
def fold (pair : δ → δ → δ) (current : δ) : List (δ × Side) → δ
  | [] => current
  | (sibling, .left) :: steps => fold pair (pair sibling current) steps
  | (sibling, .right) :: steps => fold pair (pair current sibling) steps

/-! ## Proofs fold to the root -/

variable (pair : δ → δ → δ)

/-- The parent of a position is its digest hashed with its sibling. -/
theorem parents_getElem? (level : List δ) (idx : Nat) (a : δ) (h : level[idx]? = some a) :
    ∃ step, sibling? level idx = some step ∧
      (parents pair level)[idx / 2]? = some (fold pair a [step]) := by
  induction level using parents.induct generalizing idx with
  | case1 => simp at h
  | case2 b =>
    obtain ⟨rfl, rfl⟩ : idx = 0 ∧ b = a := by
      cases idx <;> simp_all
    exact ⟨(b, .right), rfl, rfl⟩
  | case3 b c rest ih =>
    match idx, h with
    | 0, h =>
      obtain rfl : b = a := by simpa using h
      exact ⟨(c, .right), rfl, rfl⟩
    | 1, h =>
      obtain rfl : c = a := by simpa using h
      exact ⟨(b, .left), rfl, rfl⟩
    | idx + 2, h =>
      obtain ⟨step, hsibling, hparent⟩ := ih idx (by simpa using h)
      refine ⟨step, ?_, ?_⟩
      · -- two positions further nothing changes but the offset
        unfold sibling? at hsibling ⊢
        rw [Nat.add_mod_right]
        split
        · rename_i hodd
          rw [if_pos hodd] at hsibling
          rw [show idx + 2 - 1 = (idx - 1) + 2 by omega]
          simpa using hsibling
        · rename_i heven
          rw [if_neg heven] at hsibling
          simpa [show idx + 2 + 1 = (idx + 1) + 2 by omega] using hsibling
      · rw [Nat.add_div_right idx (by decide)]
        simpa [parents] using hparent

theorem levels_ne_nil (level : List δ) : levels pair level ≠ [] := by
  unfold levels
  split <;> simp

theorem fold_cons (a : δ) (step : δ × Side) (steps : List (δ × Side)) :
    fold pair a (step :: steps) = fold pair (fold pair a [step]) steps := by
  obtain ⟨sibling, side⟩ := step
  cases side <;> rfl

/-- The proof that is cut out of a tree folds to the root of the tree. -/
theorem proof?_levels (level : List δ) (idx : Nat) (a : δ) (h : level[idx]? = some a) :
    ∃ steps, proof? (levels pair level) idx = some steps ∧
      root? (levels pair level) = some (fold pair a steps) := by
  induction level using levels.induct pair generalizing idx a with
  | case1 level hlong ih =>
    obtain ⟨step, hsibling, hparent⟩ := parents_getElem? pair level idx a h
    obtain ⟨steps, hsteps, hroot⟩ := ih (idx / 2) _ hparent
    rw [levels, if_pos hlong]
    obtain ⟨above, rest, habove⟩ := List.exists_cons_of_ne_nil (levels_ne_nil pair (parents pair level))
    rw [habove] at hsteps hroot ⊢
    refine ⟨step :: steps, by simp [proof?, hsibling, hsteps], ?_⟩
    rw [fold_cons, ← hroot]
    simp [root?]
  | case2 level hshort =>
    have hlen : idx < level.length := (List.getElem?_eq_some_iff.mp h).1
    obtain rfl : idx = 0 := by omega
    rw [levels, if_neg hshort]
    refine ⟨[], rfl, ?_⟩
    cases level with
    | nil => simp at h
    | cons b rest => simpa [root?, fold] using h

end Vincent.Merkle
