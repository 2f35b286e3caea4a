-- SUMMARY: Chains whose elements name their predecessor.
import Mathlib.Data.List.Induction
import Mathlib.Data.List.Perm.Subperm

/-!
# Linked chains

Every element has a key and names the key of its predecessor. `Linked` says that a
list is in the order of the links. `follow` walks through an unordered list from a
key, one link at a time, and gives up after a number of steps.
-/

namespace Vincent.LinkedChain

universe u v

variable {α : Type u} {κ : Type v}

section
variable (key pred : α → κ)

/-- Each element follows the one before it, and the first one follows `k`. -/
def Linked : κ → List α → Prop
  | _, [] => True
  | k, a :: as => pred a = k ∧ Linked (key a) as

/-- The key of the last element, or `k` when there is none. -/
def lastKey (k : κ) (as : List α) : κ := (as.getLast?.map key).getD k

end

variable {key pred : α → κ}

@[simp] theorem lastKey_nil (k : κ) : lastKey key k [] = k := rfl

@[simp] theorem lastKey_cons (k : κ) (a : α) (as : List α) :
    lastKey key k (a :: as) = lastKey key (key a) as := by
  cases as with
  | nil => rfl
  | cons b as => simp [lastKey, List.getLast?_cons]

@[simp] theorem lastKey_concat (k : κ) (as : List α) (a : α) :
    lastKey key k (as ++ [a]) = key a := by
  simp [lastKey]

theorem lastKey_append (k : κ) (as bs : List α) :
    lastKey key k (as ++ bs) = lastKey key (lastKey key k as) bs := by
  induction as generalizing k with
  | nil => rfl
  | cons a as ih => simp [ih]

theorem linked_append {k : κ} {as bs : List α} :
    Linked key pred k (as ++ bs) ↔
      Linked key pred k as ∧ Linked key pred (lastKey key k as) bs := by
  induction as generalizing k with
  | nil => simp [Linked]
  | cons a as ih => simp [Linked, ih, and_assoc]

/-- The first part of a linked list is linked. -/
theorem Linked.of_prefix {k : κ} {as bs : List α} (h : Linked key pred k as) (hpre : bs <+: as) :
    Linked key pred k bs := by
  obtain ⟨rest, rfl⟩ := hpre
  exact (linked_append.mp h).1

/-- An element names the one before it. -/
theorem Linked.getElem {k : κ} {as : List α} (h : Linked key pred k as) {i : Nat} {a b : α}
    (ha : as[i]? = some a) (hb : as[i + 1]? = some b) : pred b = key a := by
  induction as generalizing k i with
  | nil => cases ha
  | cons c as ih =>
    cases i with
    | zero =>
      obtain rfl : c = a := Option.some.inj ha
      cases as with
      | nil => cases hb
      | cons d as =>
        obtain rfl : d = b := Option.some.inj hb
        exact h.2.1
    | succ i => exact ih h.2 ha hb

/-- Where no element has the key that the list starts from, only all of it starts from there. -/
theorem Linked.drop_iff {k : κ} {as : List α} (h : Linked key pred k as)
    (hkey : ∀ a ∈ as, key a ≠ k) {n : Nat} (hn : n < as.length) :
    Linked key pred k (as.drop n) ↔ n = 0 := by
  constructor
  · intro hdrop
    by_contra hpos
    have hrest : Linked key pred (lastKey key k (as.take n)) (as.drop n) := by
      rw [← List.take_append_drop n as] at h
      exact (linked_append.mp h).2
    rw [List.drop_eq_getElem_cons hn] at hdrop hrest
    have hlast : lastKey key k (as.take n) = k := hrest.1.symm.trans hdrop.1
    have htake : as.take n ≠ [] := by
      rw [Ne, List.take_eq_nil_iff, not_or]
      exact ⟨hpos, List.ne_nil_of_length_pos (by omega)⟩
    rw [lastKey, List.getLast?_eq_some_getLast htake] at hlast
    exact hkey _ (List.mem_of_mem_take (List.getLast_mem htake)) hlast
  · rintro rfl
    exact h

/-- What holds of the start and of all keys holds of all predecessors. -/
theorem Linked.forall_pred {P : κ → Prop} {k : κ} {as : List α} (h : Linked key pred k as)
    (hk : P k) (has : ∀ a ∈ as, P (key a)) : ∀ a ∈ as, P (pred a) := by
  induction as generalizing k with
  | nil => exact fun a ha => absurd ha List.not_mem_nil
  | cons b as ih =>
    rw [List.forall_mem_cons] at has ⊢
    exact ⟨h.1 ▸ hk, ih h.2 has.1 has.2⟩

/-- Where a key tells its predecessor, the last key tells all of them. -/
theorem Linked.keys_eq {k : κ} {as bs : List α} (has : Linked key pred k as)
    (hbs : Linked key pred k bs) (hpred : ∀ a ∈ as, ∀ b ∈ bs, key a = key b → pred a = pred b)
    (hka : ∀ a ∈ as, key a ≠ k) (hkb : ∀ b ∈ bs, key b ≠ k)
    (hlast : lastKey key k as = lastKey key k bs) : as.map key = bs.map key := by
  induction as using List.reverseRecOn generalizing bs with
  | nil =>
    rcases List.eq_nil_or_concat' bs with rfl | ⟨bs, b, rfl⟩
    · rfl
    · rw [lastKey_concat] at hlast
      exact absurd hlast.symm (hkb b (by simp))
  | append_singleton as a ih =>
    rcases List.eq_nil_or_concat' bs with rfl | ⟨bs, b, rfl⟩
    · rw [lastKey_concat] at hlast
      exact absurd hlast (hka a (by simp))
    · rw [lastKey_concat, lastKey_concat] at hlast
      rw [linked_append] at has hbs
      have hprev : lastKey key k as = lastKey key k bs := by
        rw [← has.2.1, ← hbs.2.1]
        exact hpred a (by simp) b (by simp) hlast
      have hkeys := ih has.1 hbs.1 (fun a ha b hb => hpred a (by simp [ha]) b (by simp [hb]))
        (fun a ha => hka a (by simp [ha])) (fun b hb => hkb b (by simp [hb])) hprev
      rw [List.map_append, List.map_append, hkeys, List.map_singleton, List.map_singleton, hlast]

/-! ## Following the links -/

/-- Some walk through `as` from `k` ends, at an element that nothing follows. -/
inductive Follows (key pred : α → κ) (as : List α) : κ → List α → Prop
  | stop {k : κ} (hend : ∀ a ∈ as, pred a ≠ k) : Follows key pred as k []
  | step {k : κ} {a : α} {bs : List α} (hmem : a ∈ as) (hpred : pred a = k)
    (hrest : Follows key pred as (key a) bs) : Follows key pred as k (a :: bs)

namespace Follows

variable {as bs cs : List α} {k : κ}

theorem linked (h : Follows key pred as k bs) : Linked key pred k bs := by
  induction h with
  | stop => trivial
  | step _ hpred _ ih => exact ⟨hpred, ih⟩

theorem subset (h : Follows key pred as k bs) : bs ⊆ as := by
  induction h with
  | stop => simp
  | step hmem _ _ ih => exact List.cons_subset.mpr ⟨hmem, ih⟩

/-- The rest of a walk is the walk from where its first part has led. -/
theorem drop (h : Follows key pred as k (bs ++ cs)) :
    Follows key pred as (lastKey key k bs) cs := by
  induction bs generalizing k with
  | nil => exact h
  | cons b bs ih =>
    cases h with
    | step _ _ hrest => simpa using ih hrest

/-- Where no two elements follow the same one, there is only one walk. -/
theorem unique (hinj : ∀ a ∈ as, ∀ b ∈ as, pred a = pred b → a = b)
    (hb : Follows key pred as k bs) (hc : Follows key pred as k cs) : bs = cs := by
  induction hb generalizing cs with
  | stop hend =>
    cases hc with
    | stop => rfl
    | step hmem hpred _ => exact absurd hpred (hend _ hmem)
  | step hmem hpred _ ih =>
    cases hc with
    | stop hend => exact absurd hpred (hend _ hmem)
    | step hmem' hpred' hrest' =>
      obtain rfl := hinj _ hmem _ hmem' (hpred.trans hpred'.symm)
      rw [ih hrest']

/-- A walk that ends visits nothing twice: it would go around for ever. -/
theorem nodup (hinj : ∀ a ∈ as, ∀ b ∈ as, pred a = pred b → a = b)
    (h : Follows key pred as k bs) : bs.Nodup := by
  induction h with
  | stop => exact List.nodup_nil
  | @step k a bs hmem hpred hrest ih =>
    refine List.nodup_cons.mpr ⟨fun hagain => ?_, ih⟩
    -- a second visit would be followed by the same walk as the first
    obtain ⟨pre, post, rfl⟩ := List.append_of_mem hagain
    have hpost : Follows key pred as (key a) post := by
      have hdrop : Follows key pred as (lastKey key (key a) (pre ++ [a])) post :=
        drop (by simpa using hrest)
      simpa using hdrop
    have hsame : pre ++ a :: post = post := unique hinj hrest hpost
    have hlen := congrArg List.length hsame
    simp only [List.length_append, List.length_cons] at hlen
    omega

/-- A walk that visits as many elements as there are visits each of them. -/
theorem perm (hinj : ∀ a ∈ as, ∀ b ∈ as, pred a = pred b → a = b)
    (h : Follows key pred as k bs) (hlen : bs.length = as.length) : bs.Perm as :=
  ((h.nodup hinj).subperm h.subset).perm_of_length_le (Nat.le_of_eq hlen.symm)

end Follows

end Vincent.LinkedChain
