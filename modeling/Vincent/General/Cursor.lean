-- SUMMARY: Batch cursors: a position in a growing list, and what the receiver has taken.
import Mathlib.Data.List.Basic

/-!
# Batch cursors

A sender keeps a position in a list and offers the receiver the next batch. The
cursor is faithful to a list when the receiver has taken every element below the
position. The rules say which moves of the cursor and which changes of the list
keep it so.
-/

namespace Vincent

variable {α : Type}

/-- A position in a list, with what the receiver has taken so far. -/
structure Cursor (α : Type) where
  position : Nat := 0
  taken : List α := []

namespace Cursor

/-- The elements that are offered next. -/
def batch (c : Cursor α) (size : Nat) (l : List α) : List α := (l.drop c.position).take size

/-- Everything below the position has been taken. -/
def Faithful (c : Cursor α) (l : List α) : Prop := ∀ e ∈ l.take c.position, e ∈ c.taken

variable {c : Cursor α} {l l' : List α} {size : Nat}

theorem faithful_start (l : List α) : ({} : Cursor α).Faithful l := by
  intro e he
  simp at he

/-- A change of the list that keeps the elements below the position keeps the cursor faithful. -/
theorem Faithful.of_take (h : c.Faithful l) (hl : l'.take c.position = l.take c.position) :
    c.Faithful l' := by
  intro e he
  rw [hl] at he
  exact h e he

/-- Elements may be taken without moving the cursor. -/
theorem Faithful.take_more (h : c.Faithful l) (more : List α) :
    Faithful { c with taken := c.taken ++ more } l := by
  intro e he
  exact List.mem_append_left _ (h e he)

/-- The cursor may move past a batch that has been taken as a whole. -/
theorem Faithful.advance (h : c.Faithful l) {more : List α}
    (hbatch : ∀ e ∈ c.batch size l, e ∈ more) :
    Faithful { position := c.position + (c.batch size l).length, taken := c.taken ++ more } l := by
  intro e he
  have hsplit : l.take (c.position + (c.batch size l).length) =
      l.take c.position ++ (l.drop c.position).take (c.batch size l).length := List.take_add
  rw [hsplit] at he
  rcases List.mem_append.mp he with hbelow | hnext
  · exact List.mem_append_left _ (h e hbelow)
  · apply List.mem_append_right
    apply hbatch
    have hlength : (c.batch size l).length ≤ size := List.length_take_le _ _
    exact (List.take_prefix_take_left hlength).subset hnext

end Cursor

end Vincent
