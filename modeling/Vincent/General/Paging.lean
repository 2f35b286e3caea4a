-- SUMMARY: Boxes that are emptied page by page.
import Mathlib.Data.Finset.Card
import Vincent.General.Sort

/-!
# Paging

A collect reads each id once, sorts what it read and hands out the first part; the
rest is put back by id. The pages of a run, followed by what the next one would read,
are at any time a sorted permutation of what the first one read.
-/

namespace Vincent.Paging

open Vincent.Sort

/-! ## Collecting -/

section Model

variable {κ ι α : Type} [DecidableEq κ] [DecidableEq ι] (id : α → ι) (r : α → α → Prop)
  [DecidableRel r]

/-- The first item of each id. -/
def readOnce (items : List α) : List α :=
  items.foldl (fun read a => if read.any fun b => id b = id a then read else read ++ [a]) []

/-- What the boxes hold, each id once, in order. -/
def readSorted (keys : List κ) (boxes : κ → List α) : List α :=
  (readOnce id (keys.flatMap boxes)).insertionSort r

/-- The boxes after a collect, what it hands out, and whether it left more. -/
def collect (keys : List κ) (limit : ℕ) (boxes : κ → List α) : (κ → List α) × List α × Bool :=
  let items := readSorted id r keys boxes
  if 0 < limit ∧ limit < items.length then
    let kept := items.take limit
    (fun key =>
      if key ∈ keys then (boxes key).filter fun a => !(kept.any fun b => id b = id a)
      else boxes key, kept, true)
  else (fun key => if key ∈ keys then [] else boxes key, items, false)

end Model

/-! ## Runs of calls -/

section Calls

variable {σ α : Type} (call : ℕ → σ → σ × List α × Bool) (limits : ℕ → ℕ) (s : σ)

/-- The state after a number of calls, each with its limit. -/
def stateAt : ℕ → σ
  | 0 => s
  | n + 1 => (call (limits n) (stateAt n)).1

def pageAt (n : ℕ) : List α := (call (limits n) (stateAt call limits s n)).2.1

def moreAt (n : ℕ) : Bool := (call (limits n) (stateAt call limits s n)).2.2

/-- What the first calls returned. -/
def returned (n : ℕ) : List α := (List.range n).flatMap (pageAt call limits s)

theorem returned_succ (n : ℕ) :
    returned call limits s (n + 1) = returned call limits s n ++ pageAt call limits s n := by
  unfold returned
  rw [List.range_succ, List.flatMap_append, List.flatMap_singleton]

end Calls

/-- Calls that are repeated until none is left return each id that the boxes hold once, in order,
    leave the other boxes as they are, and say at any time whether they left more. -/
structure PagesOut {σ κ ι α : Type} (id : α → ι) (r : α → α → Prop)
    (call : ℕ → σ → σ × List α × Bool) (boxes : σ → κ → List α) (keys : List κ) (limits : ℕ → ℕ)
    (s : σ) (count : ℕ) : Prop where
  ends : ∃ n, (∀ i < n, moreAt call limits s i = true) ∧ moreAt call limits s n = false ∧
    ((returned call limits s (n + 1)).map id).Nodup ∧
    (∀ x, x ∈ (returned call limits s (n + 1)).map id ↔ ∃ key ∈ keys, ∃ a ∈ boxes s key, id a = x) ∧
    (returned call limits s (n + 1)).Pairwise r ∧
    (returned call limits s (n + 1)).length = count
  more : ∀ n, moreAt call limits s n = true ↔
    ∃ key ∈ keys, boxes (stateAt call limits s (n + 1)) key ≠ []
  others : ∀ n, ∀ key ∉ keys, boxes (stateAt call limits s n) key = boxes s key

/-! ## Reading each id once -/

section Reading

variable {ι α : Type} [DecidableEq ι] {id : α → ι}

theorem foldl_readOnce (items read : List α) (hread : (read.map id).Nodup) :
    let all := items.foldl (fun read a => if read.any fun b => id b = id a then read
      else read ++ [a]) read
    (all.map id).Nodup ∧ (∀ a ∈ all, a ∈ read ∨ a ∈ items) ∧
      ∀ a, a ∈ read ∨ a ∈ items → ∃ b ∈ all, id b = id a := by
  induction items generalizing read with
  | nil =>
    refine ⟨hread, fun a ha => .inl ha, ?_⟩
    rintro a (ha | ha)
    · exact ⟨a, ha, rfl⟩
    · exact absurd ha List.not_mem_nil
  | cons x items ih =>
    rw [List.foldl_cons]
    split
    · rename_i hheld
      obtain ⟨hnodup, hmem, hall⟩ := ih read hread
      refine ⟨hnodup, fun a ha => (hmem a ha).imp_right (List.mem_cons_of_mem _), ?_⟩
      rintro a (ha | ha)
      · exact hall a (.inl ha)
      · rcases List.mem_cons.mp ha with rfl | ha
        · obtain ⟨b, hb, hid⟩ := List.any_eq_true.mp hheld
          obtain ⟨c, hc, hid'⟩ := hall b (.inl hb)
          exact ⟨c, hc, hid'.trans (of_decide_eq_true hid)⟩
        · exact hall a (.inr ha)
    · rename_i hheld
      have hnew : id x ∉ read.map id := by
        intro hin
        obtain ⟨b, hb, hid⟩ := List.mem_map.mp hin
        exact hheld (List.any_eq_true.mpr ⟨b, hb, decide_eq_true hid⟩)
      have hread' : ((read ++ [x]).map id).Nodup := by
        rw [List.map_append, List.map_singleton]
        exact List.nodup_append'.mpr ⟨hread, List.nodup_singleton _, by simpa using hnew⟩
      obtain ⟨hnodup, hmem, hall⟩ := ih (read ++ [x]) hread'
      refine ⟨hnodup, fun a ha => ?_, ?_⟩
      · rcases hmem a ha with ha | ha
        · rcases List.mem_append.mp ha with ha | ha
          · exact .inl ha
          · exact .inr (List.mem_cons.mpr (.inl (List.mem_singleton.mp ha)))
        · exact .inr (List.mem_cons_of_mem _ ha)
      · rintro a (ha | ha)
        · exact hall a (.inl (List.mem_append_left _ ha))
        · rcases List.mem_cons.mp ha with rfl | ha
          · exact hall a (.inl (List.mem_append_right _ (List.mem_singleton.mpr rfl)))
          · exact hall a (.inr ha)

theorem readOnce_nodup (items : List α) : ((readOnce id items).map id).Nodup :=
  (foldl_readOnce items [] List.nodup_nil).1

theorem mem_of_mem_readOnce {items : List α} {a : α} (h : a ∈ readOnce id items) : a ∈ items :=
  ((foldl_readOnce items [] List.nodup_nil).2.1 a h).resolve_left List.not_mem_nil

theorem exists_readOnce {items : List α} {a : α} (h : a ∈ items) :
    ∃ b ∈ readOnce id items, id b = id a :=
  (foldl_readOnce items [] List.nodup_nil).2.2 a (.inr h)

theorem readOnce_eq_nil {items : List α} : readOnce id items = [] ↔ items = [] := by
  constructor
  · intro h
    by_contra hne
    obtain ⟨a, ha⟩ := List.exists_mem_of_ne_nil items hne
    have hread : ∃ b ∈ readOnce id items, id b = id a := exists_readOnce ha
    rw [h] at hread
    obtain ⟨b, hb, -⟩ := hread
    exact absurd hb List.not_mem_nil
  · rintro rfl
    rfl

/-- Dropping ids before or after reading is the same. -/
theorem foldl_readOnce_filter (p : ι → Bool) (items read : List α) :
    (items.filter fun a => p (id a)).foldl
        (fun read a => if read.any fun b => id b = id a then read else read ++ [a])
        (read.filter fun a => p (id a)) =
      (items.foldl (fun read a => if read.any fun b => id b = id a then read else read ++ [a])
        read).filter fun a => p (id a) := by
  induction items generalizing read with
  | nil => rfl
  | cons x items ih =>
    rw [List.foldl_cons, ← ih, List.filter_cons]
    cases hp : p (id x) with
    | false =>
      congr 1
      split
      · rfl
      · rw [List.filter_append, List.filter_singleton, hp]
        exact (List.append_nil _).symm
    | true =>
      -- an item with the id of `x` is kept with it
      have hany : ((read.filter fun a => p (id a)).any fun b => id b = id x) =
          read.any fun b => id b = id x := by
        rw [Bool.eq_iff_iff, List.any_eq_true, List.any_eq_true]
        constructor
        · rintro ⟨b, hb, hid⟩
          exact ⟨b, (List.mem_filter.mp hb).1, hid⟩
        · rintro ⟨b, hb, hid⟩
          refine ⟨b, List.mem_filter.mpr ⟨hb, ?_⟩, hid⟩
          rw [of_decide_eq_true hid]
          exact hp
      rw [if_pos rfl, List.foldl_cons, hany]
      congr 1
      split
      · rfl
      · rw [List.filter_append, List.filter_singleton, hp]
        rfl

theorem readOnce_filter (p : ι → Bool) (items : List α) :
    readOnce id (items.filter fun a => p (id a)) = (readOnce id items).filter fun a => p (id a) :=
  foldl_readOnce_filter p items []

end Reading

/-! ## One collect -/

section Collect

variable {κ ι α : Type} [DecidableEq ι] {id : α → ι} {r : α → α → Prop} [DecidableRel r]
  {keys : List κ} {limit : ℕ} {boxes : κ → List α}

theorem readSorted_perm : (readSorted id r keys boxes).Perm (readOnce id (keys.flatMap boxes)) :=
  List.perm_insertionSort _ _

theorem readSorted_nodup : ((readSorted id r keys boxes).map id).Nodup :=
  (readSorted_perm.map id).nodup_iff.mpr (readOnce_nodup _)

theorem mem_of_mem_readSorted {a : α} (h : a ∈ readSorted id r keys boxes) :
    ∃ key ∈ keys, a ∈ boxes key :=
  List.mem_flatMap.mp (mem_of_mem_readOnce (readSorted_perm.mem_iff.mp h))

/-- The ids that are read are those that the boxes hold. -/
theorem mem_readSorted_map {x : ι} :
    x ∈ (readSorted id r keys boxes).map id ↔ ∃ key ∈ keys, ∃ a ∈ boxes key, id a = x := by
  constructor
  · intro h
    obtain ⟨a, ha, hid⟩ := List.mem_map.mp h
    obtain ⟨key, hkey, hin⟩ := mem_of_mem_readSorted ha
    exact ⟨key, hkey, a, hin, hid⟩
  · rintro ⟨key, hkey, a, ha, hid⟩
    obtain ⟨b, hb, heq⟩ : ∃ b ∈ readOnce id (keys.flatMap boxes), id b = id a :=
      exists_readOnce (List.mem_flatMap.mpr ⟨key, hkey, ha⟩)
    exact List.mem_map.mpr ⟨b, readSorted_perm.mem_iff.mpr hb, heq.trans hid⟩

theorem readSorted_eq_nil : readSorted id r keys boxes = [] ↔ ∀ key ∈ keys, boxes key = [] := by
  have hperm : (readSorted id r keys boxes).Perm (readOnce id (keys.flatMap boxes)) :=
    readSorted_perm
  have hnil : readOnce id (keys.flatMap boxes) = [] ↔ keys.flatMap boxes = [] := readOnce_eq_nil
  rw [← List.flatMap_eq_nil_iff, ← hnil]
  constructor
  · intro h
    rw [h] at hperm
    exact hperm.nil_eq.symm
  · intro h
    rw [h] at hperm
    exact hperm.eq_nil

/-- The items without those of the first part are the second part. -/
theorem filter_kept {kept rest : List α} (h : ((kept ++ rest).map id).Nodup) :
    ((kept ++ rest).filter fun a => !(kept.any fun b => id b = id a)) = rest := by
  rw [List.map_append] at h
  have hdisjoint := List.disjoint_of_nodup_append h
  rw [List.filter_append]
  have hkept : (kept.filter fun a => !(kept.any fun b => id b = id a)) = [] := by
    rw [List.filter_eq_nil_iff]
    intro a ha
    have hany : (kept.any fun b => id b = id a) = true :=
      List.any_eq_true.mpr ⟨a, ha, decide_eq_true rfl⟩
    rw [hany]
    exact Bool.false_ne_true
  have hrest : (rest.filter fun a => !(kept.any fun b => id b = id a)) = rest := by
    rw [List.filter_eq_self]
    intro a ha
    rw [Bool.not_eq_true', List.any_eq_false]
    intro b hb heq
    exact hdisjoint (List.mem_map_of_mem hb)
      (of_decide_eq_true heq ▸ List.mem_map_of_mem ha)
  rw [hkept, hrest, List.nil_append]

/-- As many items are read as there are ids. -/
theorem readSorted_length :
    (readSorted id r keys boxes).length = ((keys.flatMap boxes).map id).toFinset.card := by
  rw [← List.length_map id, ← List.toFinset_card_of_nodup readSorted_nodup]
  congr 1
  ext x
  rw [List.mem_toFinset, List.mem_toFinset, mem_readSorted_map]
  constructor
  · rintro ⟨key, hkey, a, ha, hid⟩
    exact List.mem_map.mpr ⟨a, List.mem_flatMap.mpr ⟨key, hkey, ha⟩, hid⟩
  · intro h
    obtain ⟨a, ha, hid⟩ := List.mem_map.mp h
    obtain ⟨key, hkey, hin⟩ := List.mem_flatMap.mp ha
    exact ⟨key, hkey, a, hin, hid⟩

variable [DecidableEq κ]

/-- What a collect hands out and what it leaves to read make up what was there to read. -/
theorem collect_perm :
    ((collect id r keys limit boxes).2.1 ++
      readSorted id r keys (collect id r keys limit boxes).1).Perm (readSorted id r keys boxes) := by
  have hnodup : ((readSorted id r keys boxes).map id).Nodup := readSorted_nodup
  have hitems : (readSorted id r keys boxes).Perm (readOnce id (keys.flatMap boxes)) :=
    readSorted_perm
  unfold collect
  dsimp only
  generalize readSorted id r keys boxes = items at *
  split
  · dsimp only
    -- the boxes that are left, filtered by the ids that were kept
    have hleft : keys.flatMap (fun key =>
        if key ∈ keys then (boxes key).filter fun a =>
          !((items.take limit).any fun b => id b = id a) else boxes key) =
        (keys.flatMap boxes).filter fun a => !((items.take limit).any fun b => id b = id a) := by
      rw [List.filter_flatMap]
      exact List.flatMap_congr fun key hkey => if_pos hkey
    have hrest : (items.filter fun a => !((items.take limit).any fun b => id b = id a)) =
        items.drop limit := by
      rw [← List.take_append_drop limit items] at hnodup
      have h := filter_kept hnodup
      rwa [List.take_append_drop] at h
    have hread : (readOnce id ((keys.flatMap boxes).filter fun a =>
        !((items.take limit).any fun b => id b = id a))).Perm (items.drop limit) := by
      rw [readOnce_filter fun x => !((items.take limit).any fun b => id b = x), ← hrest]
      exact (hitems.symm.filter _)
    rw [← hleft] at hread
    have hsplit := (readSorted_perm (r := r).trans hread).append_left (items.take limit)
    rwa [List.take_append_drop] at hsplit
  · dsimp only
    rw [readSorted_eq_nil.mpr fun key hkey => if_pos hkey, List.append_nil]

theorem collect_length_lt (hmore : (collect id r keys limit boxes).2.2 = true) :
    (readSorted id r keys (collect id r keys limit boxes).1).length <
        (readSorted id r keys boxes).length ∧
      0 < (readSorted id r keys (collect id r keys limit boxes).1).length := by
  have hperm : ((collect id r keys limit boxes).2.1 ++
      readSorted id r keys (collect id r keys limit boxes).1).Perm (readSorted id r keys boxes) :=
    collect_perm
  have hlength := hperm.length_eq
  rw [List.length_append] at hlength
  have hpage : (collect id r keys limit boxes).2.1.length = limit ∧ 0 < limit ∧
      limit < (readSorted id r keys boxes).length := by
    unfold collect at hmore ⊢
    dsimp only at hmore ⊢
    split at hmore
    · rename_i hlimit
      rw [if_pos hlimit]
      exact ⟨by rw [List.length_take]; exact Nat.min_eq_left hlimit.2.le, hlimit⟩
    · cases hmore
  omega

/-- A collect that says that it left no more empties the boxes. -/
theorem collect_last (hmore : (collect id r keys limit boxes).2.2 = false) :
    readSorted id r keys (collect id r keys limit boxes).1 = [] := by
  unfold collect at hmore ⊢
  dsimp only at hmore ⊢
  split at hmore
  · cases hmore
  · rename_i hlimit
    rw [if_neg hlimit]
    exact readSorted_eq_nil.mpr fun key hkey => if_pos hkey

theorem collect_more :
    (collect id r keys limit boxes).2.2 = true ↔
      ∃ key ∈ keys, (collect id r keys limit boxes).1 key ≠ [] := by
  constructor
  · intro h
    have hne : readSorted id r keys (collect id r keys limit boxes).1 ≠ [] :=
      List.ne_nil_of_length_pos (collect_length_lt h).2
    by_contra hnone
    push Not at hnone
    exact hne (readSorted_eq_nil.mpr hnone)
  · rintro ⟨key, hkey, hne⟩
    by_contra hmore
    exact hne (readSorted_eq_nil.mp (collect_last (Bool.of_not_eq_true hmore)) key hkey)

theorem collect_others {key : κ} (hkey : key ∉ keys) :
    (collect id r keys limit boxes).1 key = boxes key := by
  unfold collect
  dsimp only
  split
  · exact if_neg hkey
  · exact if_neg hkey

/-- What a collect leaves is no earlier than what it hands out. -/
theorem collect_pairwise {P : α → Prop} (hr : OrderOn r P)
    (hP : ∀ a ∈ readSorted id r keys boxes, P a) :
    ((collect id r keys limit boxes).2.1 ++
      readSorted id r keys (collect id r keys limit boxes).1).Pairwise r := by
  have hperm : ((collect id r keys limit boxes).2.1 ++
      readSorted id r keys (collect id r keys limit boxes).1).Perm (readSorted id r keys boxes) :=
    collect_perm
  have hsorted : (readSorted id r keys boxes).Pairwise r :=
    pairwise_insertionSort hr fun a ha => hP a (readSorted_perm.mem_iff.mpr ha)
  have hleft : (readSorted id r keys (collect id r keys limit boxes).1).Pairwise r :=
    pairwise_insertionSort hr fun a ha =>
      hP a (hperm.mem_iff.mp (List.mem_append_right _ (readSorted_perm.mem_iff.mpr ha)))
  -- the part that is left is a permutation of what follows the page in the sorted list
  obtain ⟨rest, heq⟩ : ∃ rest, readSorted id r keys boxes =
      (collect id r keys limit boxes).2.1 ++ rest := by
    unfold collect
    dsimp only
    split
    · exact ⟨_, (List.take_append_drop _ _).symm⟩
    · exact ⟨[], (List.append_nil _).symm⟩
  rw [heq] at hperm hsorted
  have hrest := (List.perm_append_left_iff _).mp hperm
  obtain ⟨hpage, -, hbetween⟩ := List.pairwise_append.mp hsorted
  exact List.pairwise_append.mpr
    ⟨hpage, hleft, fun a ha b hb => hbetween a ha b (hrest.mem_iff.mp hb)⟩

end Collect

/-! ## Runs of collects -/

section Runs

variable {κ ι α : Type} [DecidableEq κ] [DecidableEq ι] {id : α → ι} {r : α → α → Prop}
  [DecidableRel r] {keys : List κ} {boxes : κ → List α} {limits : ℕ → ℕ}

/-- What was returned and what is left to read are, in this order, what the first collect read. -/
theorem returned_perm (n : ℕ) :
    (returned (collect id r keys) limits boxes n ++
      readSorted id r keys (stateAt (collect id r keys) limits boxes n)).Perm
        (readSorted id r keys boxes) := by
  induction n with
  | zero => exact List.Perm.refl _
  | succ n ih =>
    rw [returned_succ, List.append_assoc]
    exact (collect_perm.append_left _).trans ih

theorem returned_pairwise {P : α → Prop} (hr : OrderOn r P)
    (hP : ∀ a ∈ readSorted id r keys boxes, P a) (n : ℕ) :
    (returned (collect id r keys) limits boxes n ++
      readSorted id r keys (stateAt (collect id r keys) limits boxes n)).Pairwise r := by
  induction n with
  | zero =>
    exact pairwise_insertionSort hr fun a ha => hP a (readSorted_perm.mem_iff.mpr ha)
  | succ n ih =>
    have hleft : ∀ a ∈ readSorted id r keys (stateAt (collect id r keys) limits boxes n), P a :=
      fun a ha => hP a ((returned_perm n).mem_iff.mp (List.mem_append_right _ ha))
    obtain ⟨hreturned, -, hbetween⟩ := List.pairwise_append.mp ih
    rw [returned_succ, List.append_assoc]
    exact List.pairwise_append.mpr ⟨hreturned, collect_pairwise hr hleft, fun a ha b hb =>
      hbetween a ha b (collect_perm.mem_iff.mp hb)⟩

theorem exists_last : ∃ n, moreAt (collect id r keys) limits boxes n = false := by
  by_contra hall
  push Not at hall
  have hlength : ∀ n, (readSorted id r keys (stateAt (collect id r keys) limits boxes n)).length +
      n ≤ (readSorted id r keys boxes).length := by
    intro n
    induction n with
    | zero => exact Nat.le_refl _
    | succ n ih =>
      have hlt := (collect_length_lt (Bool.of_not_eq_false (hall n))).1
      change (readSorted id r keys (collect id r keys (limits n) _).1).length + (n + 1) ≤ _
      omega
  have h := hlength ((readSorted id r keys boxes).length + 1)
  omega

theorem collect_pagesOut {P : α → Prop} {le : α → α → Prop} (hr : OrderOn r P)
    (hle : ∀ a b, P a → P b → r a b → le a b) (hP : ∀ key ∈ keys, ∀ a ∈ boxes key, P a) :
    PagesOut id le (collect id r keys) (fun boxes => boxes) keys limits boxes
      (readSorted id r keys boxes).length where
  ends := by
    classical
    have hP' : ∀ a ∈ readSorted id r keys boxes, P a := by
      intro a ha
      obtain ⟨key, hkey, hin⟩ := mem_of_mem_readSorted ha
      exact hP key hkey a hin
    have hlast : ∃ n, moreAt (collect id r keys) limits boxes n = false := exists_last
    have hperm : (returned (collect id r keys) limits boxes (Nat.find hlast + 1) ++
        readSorted id r keys
          (stateAt (collect id r keys) limits boxes (Nat.find hlast + 1))).Perm
        (readSorted id r keys boxes) := returned_perm _
    have hsorted : (returned (collect id r keys) limits boxes (Nat.find hlast + 1) ++
        readSorted id r keys
          (stateAt (collect id r keys) limits boxes (Nat.find hlast + 1))).Pairwise r :=
      returned_pairwise hr hP' _
    have hleft : readSorted id r keys
        (stateAt (collect id r keys) limits boxes (Nat.find hlast + 1)) = [] :=
      collect_last (Nat.find_spec hlast)
    rw [hleft, List.append_nil] at hperm hsorted
    refine ⟨Nat.find hlast, fun i hi => ?_, Nat.find_spec hlast,
      (hperm.map id).nodup_iff.mpr readSorted_nodup, fun x => ?_, ?_, hperm.length_eq⟩
    · exact Bool.of_not_eq_false (Nat.find_min hlast hi)
    · exact (hperm.map id).mem_iff.trans mem_readSorted_map
    · exact hsorted.imp_of_mem fun ha hb hab =>
        hle _ _ (hP' _ (hperm.mem_iff.mp ha)) (hP' _ (hperm.mem_iff.mp hb)) hab
  more n := collect_more
  others n key hkey := by
    induction n with
    | zero => rfl
    | succ n ih => exact (collect_others hkey).trans ih

/-- A call that collects from the boxes of its state. -/
theorem pagesOut_of_collect {σ : Type} {call : ℕ → σ → σ × List α × Bool} {view : σ → κ → List α}
    (Inv : σ → Prop) {P : α → Prop} {le : α → α → Prop} (hr : OrderOn r P)
    (hle : ∀ a b, P a → P b → r a b → le a b)
    (hcall : ∀ limit s, Inv s → Inv (call limit s).1 ∧
      view (call limit s).1 = (collect id r keys limit (view s)).1 ∧
      (call limit s).2 = (collect id r keys limit (view s)).2)
    {s : σ} (hs : Inv s) (hP : ∀ key ∈ keys, ∀ a ∈ view s key, P a) :
    PagesOut id le call view keys limits s (readSorted id r keys (view s)).length := by
  have hstate : ∀ n, Inv (stateAt call limits s n) ∧
      view (stateAt call limits s n) = stateAt (collect id r keys) limits (view s) n := by
    intro n
    induction n with
    | zero => exact ⟨hs, rfl⟩
    | succ n ih =>
      obtain ⟨hinv, hview, -⟩ := hcall (limits n) _ ih.1
      exact ⟨hinv, by rw [stateAt, stateAt, ← ih.2]; exact hview⟩
  have hout : ∀ n, (call (limits n) (stateAt call limits s n)).2 =
      (collect id r keys (limits n) (stateAt (collect id r keys) limits (view s) n)).2 := by
    intro n
    rw [(hcall _ _ (hstate n).1).2.2, (hstate n).2]
  have hpage : pageAt call limits s = pageAt (collect id r keys) limits (view s) :=
    funext fun n => congrArg Prod.fst (hout n)
  have hmore : moreAt call limits s = moreAt (collect id r keys) limits (view s) :=
    funext fun n => congrArg Prod.snd (hout n)
  have hreturned : returned call limits s = returned (collect id r keys) limits (view s) := by
    funext n
    unfold returned
    rw [hpage]
  have hpages : PagesOut id le (collect id r keys) (fun boxes => boxes) keys limits (view s)
      (readSorted id r keys (view s)).length :=
    collect_pagesOut hr hle hP
  refine ⟨?_, fun n => ?_, fun n key hkey => ?_⟩
  · rw [hmore, hreturned]
    exact hpages.ends
  · rw [hmore, (hstate (n + 1)).2]
    exact hpages.more n
  · rw [(hstate n).2]
    exact hpages.others n key hkey

end Runs

end Vincent.Paging
