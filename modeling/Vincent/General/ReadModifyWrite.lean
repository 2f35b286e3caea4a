-- SUMMARY: Read-modify-write operations of several processes on one file.
import Vincent.General.Run

/-!
# Read, modify, write

An operation of a process reads the shared file into the memory of the process, and
later changes the memory and writes the file. Where each writes over the file that it
read, the results are as if each was done without a break.
-/

namespace Vincent.ReadModifyWrite

open Vincent.Run

universe u

/-- The operations of processes over a file `F` with memories `M`. Reading and writing have labels
    of their own, such as their times. -/
structure Operations (F M O C R : Type*) where
  /-- The memory after reading the file. -/
  read : O → F → M → M
  /-- The memory after the change, what is written if anything is, and the result. -/
  modify : O → C → M → M × Option F × R

variable {ι F M O C R : Type*}

/-- The file, the memories, and the operations that have read but not written, with what they
    read. -/
structure Shared (ι F M O : Type*) where
  file : F
  memory : ι → M
  busy : ι → Option (O × F) := fun _ => none

inductive Action (ι O C : Type*) where
  | read (i : ι) (o : O)
  | write (i : ι) (c : C)

section
variable [DecidableEq ι] (ops : Operations F M O C R)

/-- A process reads the file for an operation, unless it is in one. -/
def Shared.read (i : ι) (o : O) (s : Shared ι F M O) : Shared ι F M O :=
  match s.busy i with
  | some _ => s
  | none =>
    { s with
      memory := Function.update s.memory i (ops.read o s.file (s.memory i))
      busy := Function.update s.busy i (some (o, s.file)) }

/-- The operation that a process is in changes the memory and writes. -/
def Shared.write (i : ι) (c : C) (s : Shared ι F M O) : Shared ι F M O :=
  match s.busy i with
  | none => s
  | some (o, _) =>
    let (memory, written, _) := ops.modify o c (s.memory i)
    { file := written.getD s.file
      memory := Function.update s.memory i memory
      busy := Function.update s.busy i none }

def step (s : Shared ι F M O) : Action ι O C → Shared ι F M O
  | .read i o => s.read ops i o
  | .write i c => s.write ops i c

/-- The operation that the action completes, if it does. -/
def completed (s : Shared ι F M O) : Action ι O C → Option (ι × O × C)
  | .read _ _ => none
  | .write i c => (s.busy i).map fun b => (i, b.1, c)

/-- The result that the action gives out, if it does. -/
def result (s : Shared ι F M O) : Action ι O C → Option R
  | .read _ _ => none
  | .write i c => (s.busy i).map fun b => (ops.modify b.1 c (s.memory i)).2.2

/-- An operation without a break. -/
def sequentialStep (s : Shared ι F M O) : ι × O × C → Shared ι F M O
  | (i, o, c) => (s.read ops i o).write ops i c

/-- The result of an operation without a break. -/
def sequentialResult (s : Shared ι F M O) : ι × O × C → Option R
  | (i, o, c) => some (ops.modify o c (ops.read o s.file (s.memory i))).2.2

end

/-- A write finds the file that its operation read. -/
def Undisturbed (s : Shared ι F M O) : Action ι O C → Prop
  | .read _ _ => True
  | .write i _ => ∀ o f, s.busy i = some (o, f) → f = s.file

/-! ## Simulation -/

section

variable {ops : Operations F M O C R} {s t : Shared ι F M O}

/-- The state of a run, and the state in which the operations that are complete are done in
    turn. -/
structure InTurn (ops : Operations F M O C R) (s t : Shared ι F M O) : Prop where
  file : s.file = t.file
  idle : ∀ i, s.busy i = none → s.memory i = t.memory i
  busy : ∀ i o f, s.busy i = some (o, f) → s.memory i = ops.read o f (t.memory i)
  resting : ∀ i, t.busy i = none

theorem InTurn.start (h : ∀ i, s.busy i = none) : InTurn ops s s where
  file := rfl
  idle _ _ := rfl
  busy i o f hbusy := by
    rw [h i] at hbusy
    cases hbusy
  resting := h

variable [DecidableEq ι]

/-- Reading changes nothing that is complete. -/
theorem InTurn.read (h : InTurn ops s t) (i : ι) (o : O) : InTurn ops (s.read ops i o) t := by
  unfold Shared.read
  cases hbusy : s.busy i with
  | some b => exact h
  | none =>
    refine ⟨h.file, ?_, ?_, h.resting⟩
    · intro j hj
      dsimp only at hj ⊢
      rcases eq_or_ne j i with rfl | hne
      · rw [Function.update_self] at hj
        cases hj
      · rw [Function.update_of_ne hne] at hj ⊢
        exact h.idle j hj
    · intro j o' f hj
      dsimp only at hj ⊢
      rcases eq_or_ne j i with rfl | hne
      · rw [Function.update_self] at hj ⊢
        cases hj
        rw [h.idle j hbusy]
      · rw [Function.update_of_ne hne] at hj ⊢
        exact h.busy j o' f hj

/-- An operation that is done in turn, step by step. -/
theorem sequentialStep_eq (hrest : ∀ i, t.busy i = none) (i : ι) (o : O) (c : C) :
    let m := ops.modify o c (ops.read o t.file (t.memory i))
    (sequentialStep ops t (i, o, c)).file = m.2.1.getD t.file ∧
      (sequentialStep ops t (i, o, c)).memory = Function.update t.memory i m.1 ∧
      ∀ j, (sequentialStep ops t (i, o, c)).busy j = none := by
  simp only [sequentialStep, Shared.read, Shared.write, hrest i, Function.update_self]
  refine ⟨trivial, Function.update_idem _ _ _, fun j => ?_⟩
  rw [Function.update_idem]
  rcases eq_or_ne j i with rfl | hne
  · rw [Function.update_self]
  · rw [Function.update_of_ne hne, hrest j]

/-- A write over the file that was read does the operation in turn, with the same result. -/
theorem InTurn.write (h : InTurn ops s t) {i : ι} {o : O} {f : F} (hbusy : s.busy i = some (o, f))
    (hfile : f = s.file) (c : C) :
    InTurn ops (s.write ops i c) (sequentialStep ops t (i, o, c)) ∧
      result ops s (.write i c) = sequentialResult ops t (i, o, c) := by
  have hmemory : s.memory i = ops.read o t.file (t.memory i) := by
    rw [h.busy i o f hbusy, hfile, h.file]
  obtain ⟨hseqfile, hseqmemory, hseqrest⟩ := @sequentialStep_eq _ _ _ _ _ _ ops _ _ h.resting i o c
  constructor
  · unfold Shared.write
    rw [hbusy]
    dsimp only
    constructor
    · rw [hseqfile, hmemory, h.file]
    · intro j hj
      dsimp only at hj ⊢
      rw [hseqmemory, hmemory]
      rcases eq_or_ne j i with rfl | hne
      · rw [Function.update_self, Function.update_self]
      · rw [Function.update_of_ne hne] at hj ⊢
        rw [Function.update_of_ne hne]
        exact h.idle j hj
    · intro j o' f' hj
      dsimp only at hj ⊢
      rw [hseqmemory]
      rcases eq_or_ne j i with rfl | hne
      · rw [Function.update_self] at hj
        cases hj
      · rw [Function.update_of_ne hne] at hj ⊢
        rw [Function.update_of_ne hne]
        exact h.busy j o' f' hj
    · exact hseqrest
  · simp only [result, sequentialResult, hbusy, Option.map_some, hmemory]

/-- A run whose writes are undisturbed comes to the results of its operations done in turn, in the
    order of their writes. -/
theorem InTurn.run (h : InTurn ops s t) {as : List (Action ι O C)}
    (hrun : Along (step ops) Undisturbed s as) :
    outputs (step ops) (result ops) s as =
        outputs (sequentialStep ops) (sequentialResult ops) t
          (outputs (step ops) completed s as) ∧
      InTurn ops (Run.run (step ops) s as)
        (Run.run (sequentialStep ops) t (outputs (step ops) completed s as)) := by
  induction as generalizing s t with
  | nil => exact ⟨rfl, h⟩
  | cons a as ih =>
    cases a with
    | read i o => exact ih (h.read i o) hrun.2
    | write i c =>
      cases hbusy : s.busy i with
      | none =>
        have hsame : step ops s (.write i c) = s := by
          simp only [step, Shared.write, hbusy]
        have hrest := hrun.2
        rw [hsame] at hrest
        simp only [outputs, run_cons, hsame, result, completed, hbusy, Option.map_none,
          Option.toList_none, List.nil_append]
        exact ih h hrest
      | some b =>
        obtain ⟨o, f⟩ := b
        obtain ⟨hturn, hresult⟩ := h.write hbusy (hrun.1 o f hbusy) c
        obtain ⟨hresults, hend⟩ := ih hturn hrun.2
        have hcompleted : completed s (.write i c : Action ι O C) = some (i, o, c) := by
          simp only [completed, hbusy, Option.map_some]
        simp only [outputs, run_cons, hcompleted, hresult, Option.toList_some, List.singleton_append]
        exact ⟨congrArg _ hresults, hend⟩

end

end Vincent.ReadModifyWrite
