-- SUMMARY: Texts joined by a separator: when the parts can be read back.
import Mathlib.Algebra.BigOperators.Group.List.Basic
import Mathlib.Algebra.GroupWithZero.Nat

/-!
# Joined lists

Lists joined by a separator that none of them contains can be told apart: the
joined list has one separator less than it has parts, so that other parts that
give the same list contain none either.
-/

namespace Vincent.Joined

universe u

variable {α : Type u} [DecidableEq α] {sep : α}

/-- The separators of a joined list: those between its parts and those inside them. -/
theorem count_intercalate (part : List α) (parts : List (List α)) :
    (List.intercalate [sep] (part :: parts)).count sep =
      parts.length + ((part :: parts).map (List.count sep)).sum := by
  induction parts generalizing part with
  | nil => simp
  | cons next rest ih =>
    rw [List.intercalate_cons_cons, List.count_append, List.count_append, ih next]
    simp only [List.count_singleton_self, List.length_cons, List.map_cons, List.sum_cons]
    omega

/-- As many parts that give the same list contain no separator either. -/
theorem not_mem_of_intercalate_eq {xs ys : List (List α)} (hxs : ∀ x ∈ xs, sep ∉ x)
    (hlength : xs.length = ys.length)
    (heq : List.intercalate [sep] xs = List.intercalate [sep] ys) : ∀ y ∈ ys, sep ∉ y := by
  cases xs with
  | nil =>
    rw [List.length_nil, eq_comm, List.length_eq_zero_iff] at hlength
    simp [hlength]
  | cons x xs =>
    cases ys with
    | nil => simp at hlength
    | cons y ys =>
      have hcount := congrArg (List.count sep) heq
      rw [count_intercalate, count_intercalate] at hcount
      have hzero : ((x :: xs).map (List.count sep)).sum = 0 := by
        rw [List.sum_eq_zero_iff_forall_eq_nat]
        intro n hn
        obtain ⟨part, hpart, rfl⟩ := List.mem_map.mp hn
        exact List.count_eq_zero.mpr (hxs part hpart)
      have hsum : ((y :: ys).map (List.count sep)).sum = 0 := by
        simp only [List.length_cons] at hlength
        omega
      intro part hpart
      exact List.count_eq_zero.mp
        (List.sum_eq_zero_iff_forall_eq_nat.mp hsum _ (List.mem_map.mpr ⟨part, hpart, rfl⟩))

/-- Parts without the separator are read back from the joined list. -/
theorem intercalate_injective {xs ys : List (List α)} (hxs : ∀ x ∈ xs, sep ∉ x)
    (hlength : xs.length = ys.length)
    (heq : List.intercalate [sep] xs = List.intercalate [sep] ys) : xs = ys := by
  have hys := not_mem_of_intercalate_eq hxs hlength heq
  by_cases hnil : xs = []
  · rw [hnil, List.length_nil, eq_comm, List.length_eq_zero_iff] at hlength
    rw [hnil, hlength]
  · have hnil' : ys ≠ [] := by
      rintro rfl
      exact hnil (List.length_eq_zero_iff.mp hlength)
    rw [← List.splitOn_intercalate sep hxs hnil, heq, List.splitOn_intercalate sep hys hnil']

omit [DecidableEq α] in
/-- Two lists that are split at a separator each: the splits are one, or the first part of one
    reaches over the separator of the other. -/
theorem append_sep_eq {a b c d : List α} (h : a ++ sep :: b = c ++ sep :: d) :
    (a = c ∧ b = d) ∨ (∃ y, a = c ++ sep :: y ∧ d = y ++ sep :: b) ∨
      ∃ y, c = a ++ sep :: y ∧ b = y ++ sep :: d := by
  rcases List.append_eq_append_iff.mp h with ⟨y, hc, hb⟩ | ⟨y, ha, hd⟩
  · cases y with
    | nil => exact .inl ⟨by simpa using hc.symm, by simpa using hb⟩
    | cons s y =>
      rw [List.cons_append, List.cons.injEq] at hb
      obtain ⟨rfl, hb⟩ := hb
      exact .inr (.inr ⟨y, hc, hb⟩)
  · cases y with
    | nil => exact .inl ⟨by simpa using ha, by simpa using hd.symm⟩
    | cons s y =>
      rw [List.cons_append, List.cons.injEq] at hd
      obtain ⟨rfl, hd⟩ := hd
      exact .inr (.inl ⟨y, ha, hd⟩)

/-- The same for texts. -/
theorem text_intercalate_injective {sep : Char} {xs ys : List String}
    (hxs : ∀ x ∈ xs, sep ∉ x.toList) (hlength : xs.length = ys.length)
    (heq : String.intercalate (String.singleton sep) xs =
      String.intercalate (String.singleton sep) ys) : xs = ys := by
  have hlist := congrArg String.toList heq
  rw [String.toList_intercalate, String.toList_intercalate, String.toList_singleton] at hlist
  have hparts : ∀ l ∈ xs.map String.toList, sep ∉ l := by
    intro l hl
    obtain ⟨x, hx, rfl⟩ := List.mem_map.mp hl
    exact hxs x hx
  have hmap := intercalate_injective hparts (by simpa using hlength) hlist
  exact List.map_injective_iff.mpr (fun a b h => String.ext h) hmap

end Vincent.Joined
