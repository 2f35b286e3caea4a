-- SUMMARY: Runs of a step function: properties of every step, and invariants.
import Mathlib.Data.List.Basic
import Mathlib.Order.Basic

/-!
# Runs

A system is a step function on states, driven by a list of actions. `Along` says that
a property holds at each step, and `outputs` lists what the steps give out. The rules
carry an invariant through a run.
-/

namespace Vincent.Run

universe u v

variable {σ : Type u} {α : Type v}

/-- The state that a list of actions leads to. -/
def run (step : σ → α → σ) : σ → List α → σ
  | s, [] => s
  | s, a :: as => run step (step s a) as

/-- `P` holds at each step of the run, of the state before it and the action. -/
def Along (step : σ → α → σ) (P : σ → α → Prop) : σ → List α → Prop
  | _, [] => True
  | s, a :: as => P s a ∧ Along step P (step s a) as

/-- What the steps of a run give out, in order. -/
def outputs {β : Type*} (step : σ → α → σ) (out : σ → α → Option β) : σ → List α → List β
  | _, [] => []
  | s, a :: as => (out s a).toList ++ outputs step out (step s a) as

section
variable {step : σ → α → σ} {P Q : σ → α → Prop} {Inv : σ → Prop}

@[simp] theorem run_nil (s : σ) : run step s [] = s := rfl

@[simp] theorem run_cons (s : σ) (a : α) (as : List α) :
    run step s (a :: as) = run step (step s a) as := rfl

@[simp] theorem along_nil (s : σ) : Along step P s [] := trivial

@[simp] theorem along_cons (s : σ) (a : α) (as : List α) :
    Along step P s (a :: as) ↔ P s a ∧ Along step P (step s a) as := Iff.rfl

theorem run_append (s : σ) (as bs : List α) :
    run step s (as ++ bs) = run step (run step s as) bs := by
  induction as generalizing s with
  | nil => rfl
  | cons a as ih => exact ih (step s a)

theorem along_append (s : σ) (as bs : List α) :
    Along step P s (as ++ bs) ↔ Along step P s as ∧ Along step P (run step s as) bs := by
  induction as generalizing s with
  | nil => simp
  | cons a as ih => simp [ih, and_assoc]

/-- A property of every step, told by where the step stands in the run. -/
theorem along_iff_split {s : σ} {as : List α} :
    Along step P s as ↔ ∀ pre a post, as = pre ++ a :: post → P (run step s pre) a := by
  constructor
  · rintro hrun pre a post rfl
    exact ((along_append s pre (a :: post)).mp hrun).2.1
  · intro h
    induction as generalizing s with
    | nil => trivial
    | cons a as ih =>
      exact ⟨h [] a as rfl, ih fun pre b post heq => h (a :: pre) b post (by simp [heq])⟩

/-- An invariant that the guarded steps keep holds where a guarded run ends. -/
theorem invariant (hstep : ∀ s a, Inv s → P s a → Inv (step s a)) {s : σ} (hs : Inv s)
    {as : List α} (hrun : Along step P s as) : Inv (run step s as) := by
  induction as generalizing s with
  | nil => exact hs
  | cons a as ih => exact ih (hstep s a hs hrun.1) hrun.2

/-- Under an invariant, a guard that implies another does so along the whole run. -/
theorem Along.imp (hstep : ∀ s a, Inv s → P s a → Inv (step s a))
    (himp : ∀ s a, Inv s → P s a → Q s a) {s : σ} (hs : Inv s) {as : List α}
    (hrun : Along step P s as) : Along step Q s as := by
  induction as generalizing s with
  | nil => trivial
  | cons a as ih => exact ⟨himp s a hs hrun.1, ih (hstep s a hs hrun.1) hrun.2⟩

/-- What the steps give out under an invariant is what their runs give out. -/
theorem outputs_forall {β : Type*} {out : σ → α → Option β} {R : β → Prop}
    (hstep : ∀ s a, Inv s → P s a → Inv (step s a) ∧ ∀ v ∈ out s a, R v) {s : σ} (hs : Inv s)
    {as : List α} (hrun : Along step P s as) : ∀ v ∈ outputs step out s as, R v := by
  induction as generalizing s with
  | nil => exact fun _ hv => (List.not_mem_nil hv).elim
  | cons a as ih =>
    obtain ⟨hnext, hout⟩ := hstep s a hs hrun.1
    intro v hv
    rcases List.mem_append.mp hv with hv | hv
    · exact hout v (Option.mem_toList.mp hv)
    · exact ih hnext hrun.2 v hv

/-- What a run gives out, of a part of each output. -/
theorem outputs_map {β γ : Type*} {out : σ → α → Option β} (f : β → γ) {s : σ} {as : List α} :
    outputs step (fun s a => (out s a).map f) s as = (outputs step out s as).map f := by
  induction as generalizing s with
  | nil => rfl
  | cons a as ih =>
    unfold outputs
    rw [ih, List.map_append]
    cases out s a <;> rfl

/-- Steps that change nothing and give out nothing can be left out of a run. -/
theorem leave_out {β : Type*} {out : σ → α → Option β} {keep : α → Bool} {s : σ} {as : List α}
    (hidle : Along step (fun s a => keep a = false → step s a = s ∧ out s a = none) s as) :
    run step s as = run step s (as.filter keep) ∧
      outputs step out s as = outputs step out s (as.filter keep) := by
  induction as generalizing s with
  | nil => exact ⟨rfl, rfl⟩
  | cons a as ih =>
    cases hkeep : keep a with
    | true =>
      rw [List.filter_cons_of_pos hkeep]
      obtain ⟨hrun, hout⟩ := ih hidle.2
      exact ⟨hrun, congrArg (_ ++ ·) hout⟩
    | false =>
      obtain ⟨hstep, hnone⟩ := hidle.1 hkeep
      have hout : outputs step out s (a :: as) = outputs step out (step s a) as := by
        rw [outputs, hnone, Option.toList_none, List.nil_append]
      rw [List.filter_cons_of_neg (ne_true_of_eq_false hkeep), run_cons, hout, hstep]
      exact ih (hstep ▸ hidle.2)

end

section

variable {step : σ → α → σ} {P : σ → α → Prop} {β : Type*} [Preorder β]
  {stored : σ → Option β} {out : σ → α → Option β}

/-- A step that gives out a value stores it, above the one that was stored, and the other steps
    keep what is stored. -/
structure Rises (step : σ → α → σ) (P : σ → α → Prop) (stored : σ → Option β)
    (out : σ → α → Option β) : Prop where
  stores : ∀ s a v, P s a → out s a = some v → stored (step s a) = some v
  above : ∀ s a v w, P s a → out s a = some v → stored s = some w → w < v
  keeps : ∀ s a w, P s a → out s a = none → stored s = some w → stored (step s a) = some w

/-- What a run gives out is above what is stored. -/
theorem Rises.above_stored (h : Rises step P stored out) {s : σ} {as : List α}
    (hrun : Along step P s as) {w : β} (hw : stored s = some w) :
    ∀ v ∈ outputs step out s as, w < v := by
  induction as generalizing s w with
  | nil => exact fun v hv => absurd hv List.not_mem_nil
  | cons a as ih =>
    intro v hv
    unfold outputs at hv
    cases hout : out s a with
    | none =>
      rw [hout] at hv
      exact ih hrun.2 (h.keeps s a w hrun.1 hout hw) v hv
    | some u =>
      rw [hout] at hv
      have hu := h.above s a u w hrun.1 hout hw
      rcases List.mem_cons.mp hv with rfl | hv
      · exact hu
      · exact hu.trans (ih hrun.2 (h.stores s a u hrun.1 hout) v hv)

/-- A run gives out ever larger values. -/
theorem Rises.pairwise (h : Rises step P stored out) {s : σ} {as : List α}
    (hrun : Along step P s as) : (outputs step out s as).Pairwise (· < ·) := by
  induction as generalizing s with
  | nil => exact List.Pairwise.nil
  | cons a as ih =>
    unfold outputs
    cases hout : out s a with
    | none => exact ih hrun.2
    | some v =>
      refine List.Pairwise.cons ?_ (ih hrun.2)
      exact h.above_stored hrun.2 (h.stores s a v hrun.1 hout)

end

end Vincent.Run
