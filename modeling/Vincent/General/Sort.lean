-- SUMMARY: Insertion sort, and when the order of arrival is immaterial.
import Mathlib.Data.List.Sort

/-!
# Sorting in parts

To sort two parts one after the other, the relation need not be an order: each element
of the first part has to be related to each of the second. An element that is added
last goes behind all that are related to it.
-/

namespace Vincent.Sort

variable {α : Type} {r : α → α → Prop} [DecidableRel r] {a : α} {l₁ l₂ : List α}

theorem orderedInsert_append (h : ∀ b ∈ l₂, r a b) :
    (l₁ ++ l₂).orderedInsert r a = l₁.orderedInsert r a ++ l₂ := by
  induction l₁ with
  | nil =>
    cases l₂ with
    | nil => rfl
    | cons b l₂ => exact List.orderedInsert_cons_of_le r l₂ (h b List.mem_cons_self)
  | cons c l₁ ih =>
    rw [List.cons_append, List.orderedInsert_cons, List.orderedInsert_cons, ih]
    split <;> rfl

theorem insertionSort_append (h : ∀ a ∈ l₁, ∀ b ∈ l₂, r a b) :
    (l₁ ++ l₂).insertionSort r = l₁.insertionSort r ++ l₂.insertionSort r := by
  induction l₁ with
  | nil => rfl
  | cons a l₁ ih =>
    rw [List.cons_append, List.insertionSort_cons, List.insertionSort_cons,
      ih fun b hb => h b (List.mem_cons_of_mem _ hb)]
    apply orderedInsert_append
    intro b hb
    exact h a List.mem_cons_self b ((List.mem_insertionSort r).mp hb)

/-- The relation is total and transitive on the elements that satisfy `P`. -/
structure OrderOn (r : α → α → Prop) (P : α → Prop) : Prop where
  total : ∀ a b, P a → P b → r a b ∨ r b a
  trans : ∀ a b c, P a → P b → P c → r a b → r b c → r a c

/-- Where `e` stands in the sorted list: everything before it is related to it, and nothing
    after it is. -/
structure Splits (r : α → α → Prop) (e : α) (pre post : List α) : Prop where
  before : ∀ a ∈ pre, r a e
  after : ∀ b ∈ post, ¬ r b e

/-- An element goes behind a part that it is not related to. -/
theorem orderedInsert_skip (h : ∀ b ∈ l₁, ¬ r a b) :
    (l₁ ++ l₂).orderedInsert r a = l₁ ++ l₂.orderedInsert r a := by
  induction l₁ with
  | nil => rfl
  | cons c l₁ ih =>
    rw [List.cons_append, List.orderedInsert_cons, if_neg (h c List.mem_cons_self),
      ih fun b hb => h b (List.mem_cons_of_mem _ hb)]
    rfl

/-- Sorting with one more element puts it behind all that are related to it. -/
theorem insertionSort_concat {P : α → Prop} (hr : OrderOn r P) {l : List α} {e : α}
    (hl : ∀ a ∈ l, P a) (he : P e) :
    ∃ pre post, l.insertionSort r = pre ++ post ∧
      (l ++ [e]).insertionSort r = pre ++ e :: post ∧ Splits r e pre post := by
  induction l with
  | nil =>
    exact ⟨[], [], rfl, rfl, fun a ha => absurd ha List.not_mem_nil,
      fun b hb => absurd hb List.not_mem_nil⟩
  | cons a l ih =>
    obtain ⟨pre, post, hsorted, hsorted', hsplits⟩ := ih fun b hb => hl b (List.mem_cons_of_mem _ hb)
    have ha : P a := hl a List.mem_cons_self
    have hmem : ∀ b ∈ pre ++ post, P b := by
      intro b hb
      rw [← hsorted] at hb
      exact hl b (List.mem_cons_of_mem _ ((List.mem_insertionSort r).mp hb))
    rw [List.cons_append, List.insertionSort_cons, List.insertionSort_cons, hsorted, hsorted']
    rcases Classical.em (r a e) with hae | hae
    · have hpost : ∀ b ∈ post, r a b := by
        intro b hb
        have hb' : P b := hmem b (List.mem_append_right _ hb)
        have heb : r e b := (hr.total b e hb' he).resolve_left (hsplits.after b hb)
        exact hr.trans a e b ha he hb' hae heb
      refine ⟨pre.orderedInsert r a, post, orderedInsert_append hpost, ?_, ?_, hsplits.after⟩
      · apply orderedInsert_append
        intro b hb
        rcases List.mem_cons.mp hb with rfl | hb
        · exact hae
        · exact hpost b hb
      · intro b hb
        rcases (List.mem_orderedInsert r).mp hb with rfl | hb
        · exact hae
        · exact hsplits.before b hb
    · have hpre : ∀ b ∈ pre, ¬ r a b := by
        intro b hb hab
        exact hae (hr.trans a b e ha (hmem b (List.mem_append_left _ hb)) he hab
          (hsplits.before b hb))
      refine ⟨pre, post.orderedInsert r a, orderedInsert_skip hpre, ?_, hsplits.before, ?_⟩
      · rw [orderedInsert_skip hpre, List.orderedInsert_cons, if_neg hae]
      · intro b hb
        rcases (List.mem_orderedInsert r).mp hb with rfl | hb
        · exact hae
        · exact hsplits.after b hb

theorem pairwise_orderedInsert {P : α → Prop} (hr : OrderOn r P) (ha : P a) {l : List α}
    (hl : ∀ b ∈ l, P b) (hsorted : l.Pairwise r) : (l.orderedInsert r a).Pairwise r := by
  induction l with
  | nil => exact List.pairwise_singleton r a
  | cons b l ih =>
    obtain ⟨hb, hrest⟩ := List.pairwise_cons.mp hsorted
    have hlb : ∀ c ∈ l, P c := fun c hc => hl c (List.mem_cons_of_mem _ hc)
    have hPb : P b := hl b List.mem_cons_self
    rw [List.orderedInsert_cons]
    split
    · rename_i hab
      refine List.pairwise_cons.mpr ⟨fun c hc => ?_, hsorted⟩
      rcases List.mem_cons.mp hc with rfl | hc
      · exact hab
      · exact hr.trans a b c ha hPb (hlb c hc) hab (hb c hc)
    · rename_i hab
      refine List.pairwise_cons.mpr ⟨fun c hc => ?_, ih hlb hrest⟩
      rcases (List.mem_orderedInsert r).mp hc with rfl | hc
      · exact (hr.total b c hPb ha).resolve_right hab
      · exact hb c hc

/-- Sorting puts the elements in order. -/
theorem pairwise_insertionSort {P : α → Prop} (hr : OrderOn r P) {l : List α}
    (hl : ∀ a ∈ l, P a) : (l.insertionSort r).Pairwise r := by
  induction l with
  | nil => exact List.Pairwise.nil
  | cons a l ih =>
    have hsorted := ih fun b hb => hl b (List.mem_cons_of_mem _ hb)
    have hP : ∀ b ∈ l.insertionSort r, P b := fun b hb =>
      hl b (List.mem_cons_of_mem _ ((List.mem_insertionSort r).mp hb))
    exact pairwise_orderedInsert hr (hl a List.mem_cons_self) hP hsorted

/-- Where no two elements are related both ways, the order of arrival does not matter. -/
theorem insertionSort_eq_of_perm {P : α → Prop} (hr : OrderOn r P) {l l' : List α}
    (hl : ∀ a ∈ l, P a) (hanti : ∀ a ∈ l, ∀ b ∈ l, r a b → r b a → a = b) (h : l.Perm l') :
    l.insertionSort r = l'.insertionSort r := by
  have hperm : (l.insertionSort r).Perm (l'.insertionSort r) :=
    (List.perm_insertionSort r l).trans (h.trans (List.perm_insertionSort r l').symm)
  refine hperm.eq_of_pairwise (fun a b ha hb hab hba => ?_) (pairwise_insertionSort hr hl)
    (pairwise_insertionSort hr fun a ha => hl a (h.mem_iff.mpr ha))
  have ha' : a ∈ l := (List.mem_insertionSort r).mp ha
  have hb' : b ∈ l := h.mem_iff.mpr ((List.mem_insertionSort r).mp hb)
  exact hanti a ha' b hb' hab hba

/-- Two elements that are related both ways stay in the order of their arrival. -/
theorem insertionSort_tied {P : α → Prop} (hr : OrderOn r P) {a b : α} {l : List α}
    (ha : P a) (hb : P b) (hl : ∀ c ∈ l, P c) (hab : r a b) (hba : r b a) :
    ∃ pre post, (a :: b :: l).insertionSort r = pre ++ a :: b :: post ∧
      (b :: a :: l).insertionSort r = pre ++ b :: a :: post := by
  rw [List.insertionSort_cons, List.insertionSort_cons, List.insertionSort_cons,
    List.insertionSort_cons]
  have hsorted : ∀ c ∈ l.insertionSort r, P c := fun c hc => hl c ((List.mem_insertionSort r).mp hc)
  generalize l.insertionSort r = sorted at hsorted
  induction sorted with
  | nil => exact ⟨[], [], by simp [hab], by simp [hba]⟩
  | cons c sorted ih =>
    have hc : P c := hsorted c List.mem_cons_self
    have hiff : r b c ↔ r a c :=
      ⟨fun h => hr.trans a b c ha hb hc hab h, fun h => hr.trans b a c hb ha hc hba h⟩
    rcases Classical.em (r a c) with hac | hac
    · refine ⟨[], c :: sorted, ?_, ?_⟩
      · simp [hiff.mpr hac, hab]
      · simp [hac, hba]
    · obtain ⟨pre, post, hab', hba'⟩ := ih fun d hd => hsorted d (List.mem_cons_of_mem _ hd)
      have hbc : ¬ r b c := fun h => hac (hiff.mp h)
      exact ⟨c :: pre, post, by simp [hac, hbc, hab'], by simp [hac, hbc, hba']⟩

/-! ## Without repeats -/

theorem nodup_eraseDups [BEq α] [LawfulBEq α] (l : List α) : l.eraseDups.Nodup := by
  induction hlength : l.length using Nat.strong_induction_on generalizing l with
  | _ n ih =>
    cases l with
    | nil => exact List.nodup_nil
    | cons a l =>
      rw [List.eraseDups_cons, List.nodup_cons]
      have hlt : (l.filter fun b => !b == a).length < n :=
        hlength ▸ Nat.lt_succ_of_le (List.length_filter_le _ l)
      refine ⟨fun ha => ?_, ih _ hlt _ rfl⟩
      have hmem := (List.mem_filter.mp (List.mem_eraseDups.mp ha)).2
      simp at hmem

end Vincent.Sort
