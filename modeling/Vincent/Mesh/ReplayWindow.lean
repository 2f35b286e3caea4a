-- SUMMARY: The replay filter: what was added is seen for a whole window.
import Vincent.General.Run
import Vincent.Mesh.Ledger

/-!
# The window of the replay filter

The two generations of the filter are swapped when it is used, and not by a clock. The
bits of a value are in the active one, or in the previous one since a later rotation;
a second rotation is a whole window later.
-/

namespace Vincent.Mesh.ReplayWindow

open Vincent.Run

/-- `ReplayFilter(size_bits, hash_count, rotate_s)`, and eight bytes of a digest with the salt. -/
structure Config where
  sizeBits : Int
  hashCount : Int
  rotateS : Int
  digest : Nat → Nat → String → Nat

namespace Config

variable (cfg : Config)

def bits : Nat := (max 1024 cfg.sizeBits).toNat

def hashes : Nat := (max 2 cfg.hashCount).toNat

def rotation : ℚ := max 60 (cfg.rotateS : ℚ)

end Config

section Model

variable (cfg : Config)

def rotateIfNeeded (now : ℚ) (f : ReplayFilter) : ReplayFilter :=
  if now - f.lastRotate < cfg.rotation then f
  else { f with previous := f.active, active := [], lastRotate := now }

def positions (f : ReplayFilter) (value : String) : List Nat :=
  (List.range cfg.hashes).map fun idx => cfg.digest f.salt idx value % cfg.bits

def add (now : ℚ) (value : String) (f : ReplayFilter) : ReplayFilter :=
  let f := rotateIfNeeded cfg now f
  { f with active := positions cfg f value ++ f.active }

def seen (now : ℚ) (value : String) (f : ReplayFilter) : ReplayFilter × Bool :=
  let f := rotateIfNeeded cfg now f
  (f, (positions cfg f value).all fun pos => f.active.contains pos || f.previous.contains pos)

inductive FilterCall where
  | add (value : String)
  | seen (value : String)

/-- A call at a time. -/
def filterStep (f : ReplayFilter) : ℚ × FilterCall → ReplayFilter
  | (now, .add value) => add cfg now value f
  | (now, .seen value) => (seen cfg now value f).1

/-- The bits of the value are in the active generation, or in the previous one since a rotation at
    `t` or later. -/
def Keeps (value : String) (t : ℚ) (f : ReplayFilter) : Prop :=
  (∀ pos ∈ positions cfg f value, pos ∈ f.active) ∨
    (∀ pos ∈ positions cfg f value, pos ∈ f.previous) ∧ t ≤ f.lastRotate

end Model

section

variable {cfg : Config} {f : ReplayFilter} {value : String} {t now : ℚ}

/-- The filter of the ledger is the one at its defaults. -/
theorem rotateIfNeeded_ledger (hrotate : cfg.rotateS = 3600) (now : ℚ) (f : ReplayFilter) :
    rotateIfNeeded cfg now f = f.rotateIfNeeded now := by
  have hrotation : cfg.rotation = replayFilterRotateS := by
    rw [Config.rotation, hrotate]
    norm_num [replayFilterRotateS]
  rw [rotateIfNeeded, hrotation]
  rfl

theorem positions_rotateIfNeeded : positions cfg (rotateIfNeeded cfg now f) = positions cfg f := by
  unfold rotateIfNeeded
  split <;> rfl

/-- A rotation inside the window moves the bits to the previous generation, and there is no second
    one. -/
theorem Keeps.rotateIfNeeded (h : Keeps cfg value t f) (hle : t ≤ now)
    (hwindow : now - t < cfg.rotation) : Keeps cfg value t (rotateIfNeeded cfg now f) := by
  unfold Keeps
  rw [positions_rotateIfNeeded]
  unfold ReplayWindow.rotateIfNeeded
  split_ifs with hrecent
  · exact h
  · rcases h with hactive | ⟨-, hrotated⟩
    · exact .inr ⟨hactive, hle⟩
    · exact absurd (lt_of_le_of_lt (sub_le_sub_left hrotated now) hwindow) hrecent

theorem Keeps.step (h : Keeps cfg value t f) (call : FilterCall) (hle : t ≤ now)
    (hwindow : now - t < cfg.rotation) : Keeps cfg value t (filterStep cfg f (now, call)) := by
  have hrotated := h.rotateIfNeeded hle hwindow
  cases call with
  | seen other => exact hrotated
  | add other =>
    rcases hrotated with hactive | hprevious
    · exact .inl fun pos hpos => List.mem_append_right _ (hactive pos hpos)
    · exact .inr hprevious

theorem Keeps.run (h : Keeps cfg value t f) {calls : List (ℚ × FilterCall)}
    (hcalls : ∀ call ∈ calls, t ≤ call.1 ∧ call.1 - t < cfg.rotation) :
    Keeps cfg value t (run (filterStep cfg) f calls) := by
  induction calls generalizing f with
  | nil => exact h
  | cons call calls ih =>
    obtain ⟨hle, hwindow⟩ := hcalls call List.mem_cons_self
    exact ih (h.step call.2 hle hwindow) fun call hcall => hcalls call (List.mem_cons_of_mem _ hcall)

theorem keeps_add (value : String) (t : ℚ) (f : ReplayFilter) :
    Keeps cfg value t (add cfg t value f) :=
  .inl fun _ hpos => List.mem_append_left _ hpos

theorem Keeps.seen (h : Keeps cfg value t f) (hle : t ≤ now) (hwindow : now - t < cfg.rotation) :
    (seen cfg now value f).2 = true := by
  refine List.all_eq_true.mpr fun pos hpos => ?_
  rcases h.rotateIfNeeded hle hwindow with hactive | ⟨hprevious, -⟩
  · simp [hactive pos hpos]
  · simp [hprevious pos hpos]

end

end Vincent.Mesh.ReplayWindow
