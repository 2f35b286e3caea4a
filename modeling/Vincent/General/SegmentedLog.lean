-- SUMMARY: Segmented logs, and what a crash between two writes leaves of an append.
import Mathlib.Data.List.Sort

/-!
# Segmented logs

A manifest lists the segment files that count. An append fills the last segment, opens
new ones, and writes the manifest at the end. Each file is written as a whole, and the
writes may stop between two files.
-/

namespace Vincent

variable {α : Type}

/-- The write of one file. -/
inductive FileWrite (α : Type) where
  | segment (no : Nat) (items : List α)
  | manifest (numbers : List Nat)

/-- The files of a log. A segment that was never written reads as empty. -/
structure SegmentedLog (α : Type) where
  manifest : Option (List Nat) := none
  segments : Nat → List α := fun _ => []

namespace SegmentedLog

/-- What the log holds: the segments of the manifest, by number. -/
def stored (log : SegmentedLog α) : List α :=
  match log.manifest with
  | none => []
  | some numbers => (numbers.insertionSort (· ≤ ·)).flatMap log.segments

def write (log : SegmentedLog α) : FileWrite α → SegmentedLog α
  | .segment no items => { log with segments := Function.update log.segments no items }
  | .manifest numbers => { log with manifest := some numbers }

def writeAll (log : SegmentedLog α) (writes : List (FileWrite α)) : SegmentedLog α :=
  writes.foldl write log

/-- Fill a segment until it is full, then the next one. -/
def fill (full : List α → Bool) : List α → List α → List (List α)
  | current, [] => [current]
  | current, a :: rest =>
    if !current.isEmpty && full (current ++ [a]) then current :: fill full [a] rest
    else fill full (current ++ [a]) rest

/-- The writes of consecutive segments. -/
def segmentWrites : Nat → List (List α) → List (FileWrite α)
  | _, [] => []
  | no, items :: rest => .segment no items :: segmentWrites (no + 1) rest

/-- Replace the log. -/
def rewriteWrites (full : List α → Bool) (items : List α) : List (FileWrite α) :=
  let slices := if items.isEmpty then [] else fill full [] items
  segmentWrites 0 slices ++ [.manifest (List.range slices.length)]

/-- Continue the segment `no`, after the segments of `before`. -/
def continueWrites (full : List α → Bool) (before : List Nat) (no : Nat) (current new : List α) :
    List (FileWrite α) :=
  let slices := fill full current new
  segmentWrites no slices ++ [.manifest (before ++ List.range' no slices.length)]

/-- The manifest lists segments from zero on, and none of them is empty. -/
def Tidy (log : SegmentedLog α) : Prop :=
  ∀ numbers, log.manifest = some numbers →
    ∃ n, numbers = List.range n ∧ ∀ no < n, log.segments no ≠ []

/-! ## Filling -/

theorem fill_flatten (full : List α → Bool) (current new : List α) :
    (fill full current new).flatten = current ++ new := by
  induction new generalizing current with
  | nil => simp [fill]
  | cons a rest ih =>
    unfold fill
    split
    · simp [ih]
    · simp [ih]

theorem fill_ne_nil {full : List α → Bool} {current new : List α} (h : current ++ new ≠ []) :
    ∀ items ∈ fill full current new, items ≠ [] := by
  induction new generalizing current with
  | nil =>
    intro items hitems
    obtain rfl := List.mem_singleton.mp hitems
    simpa using h
  | cons a rest ih =>
    intro items hitems
    unfold fill at hitems
    split at hitems
    · rename_i hfull
      rcases List.mem_cons.mp hitems with rfl | hitems
      · intro hnil
        simp [hnil] at hfull
      · exact ih (by simp) items hitems
    · exact ih (by simp) items hitems

/-- The first segment continues the current one with a part of the new items. -/
theorem fill_head (full : List α → Bool) (current new : List α) :
    ∃ taken rest, taken <+: new ∧ fill full current new = (current ++ taken) :: rest := by
  induction new generalizing current with
  | nil => exact ⟨[], [], List.prefix_refl _, by simp [fill]⟩
  | cons a new ih =>
    unfold fill
    split
    · exact ⟨[], fill full [a] new, List.nil_prefix, by simp⟩
    · obtain ⟨taken, rest, htaken, hfill⟩ := ih (current ++ [a])
      refine ⟨a :: taken, rest, by simpa using htaken, ?_⟩
      rw [hfill]
      simp

/-! ## Writing segments -/

variable {log : SegmentedLog α}

theorem length_segmentWrites (no : Nat) (slices : List (List α)) :
    (segmentWrites no slices).length = slices.length := by
  induction slices generalizing no with
  | nil => rfl
  | cons items rest ih => simp [segmentWrites, ih]

theorem take_segmentWrites (no n : Nat) (slices : List (List α)) :
    (segmentWrites no slices).take n = segmentWrites no (slices.take n) := by
  induction slices generalizing no n with
  | nil => simp [segmentWrites]
  | cons items rest ih =>
    cases n with
    | zero => rfl
    | succ n => simp [segmentWrites, ih]

theorem writeAll_append (log : SegmentedLog α) (ws ws' : List (FileWrite α)) :
    log.writeAll (ws ++ ws') = (log.writeAll ws).writeAll ws' := List.foldl_append

/-- Segments leave the manifest and the segments before them alone. -/
theorem writeAll_segmentWrites_frame (log : SegmentedLog α) (no : Nat) (slices : List (List α)) :
    (log.writeAll (segmentWrites no slices)).manifest = log.manifest ∧
    ∀ i < no, (log.writeAll (segmentWrites no slices)).segments i = log.segments i := by
  induction slices generalizing no log with
  | nil => exact ⟨rfl, fun _ _ => rfl⟩
  | cons items rest ih =>
    obtain ⟨hmanifest, hsegments⟩ := ih (log.write (.segment no items)) (no + 1)
    refine ⟨hmanifest, fun i hi => ?_⟩
    refine (hsegments i (by omega)).trans ?_
    exact Function.update_of_ne (by omega) _ _

/-- The segments that were written are read back. -/
theorem writeAll_segmentWrites_map (log : SegmentedLog α) (no : Nat) (slices : List (List α)) :
    (List.range' no slices.length).map (log.writeAll (segmentWrites no slices)).segments = slices := by
  induction slices generalizing no log with
  | nil => rfl
  | cons items rest ih =>
    have hhead : (log.writeAll (segmentWrites no (items :: rest))).segments no = items := by
      refine ((writeAll_segmentWrites_frame (log.write (.segment no items)) (no + 1) rest).2 no
        (by omega)).trans ?_
      exact Function.update_self _ _ _
    have htail := ih (log.write (.segment no items)) (no + 1)
    simp only [List.length_cons, List.range'_succ, List.map_cons, hhead]
    exact congrArg (items :: ·) htail

/-! ## What the log holds -/

theorem stored_of_none (h : log.manifest = none) : log.stored = [] := by
  simp [stored, h]

theorem stored_of_range {n : Nat} (h : log.manifest = some (List.range n)) :
    log.stored = (List.range n).flatMap log.segments := by
  have hsorted : (List.range n).Pairwise (· ≤ ·) :=
    List.pairwise_lt_range.imp Nat.le_of_lt
  simp only [stored, h]
  rw [hsorted.insertionSort_eq]

theorem tidy_empty : Tidy ({} : SegmentedLog α) := by
  intro numbers h
  cases h

/-- Slices written from the number `no` on, and the manifest that lists them. -/
theorem writeAll_listed (log : SegmentedLog α) (no : Nat) {slices : List (List α)}
    (hslices : ∀ items ∈ slices, items ≠ []) (hbefore : ∀ i < no, log.segments i ≠ []) :
    let ended := log.writeAll (segmentWrites no slices ++ [.manifest (List.range no ++ List.range' no slices.length)])
    ended.stored = (List.range no).flatMap log.segments ++ slices.flatten ∧ ended.Tidy := by
  intro ended
  obtain ⟨-, hframe⟩ := writeAll_segmentWrites_frame log no slices
  have hmap := writeAll_segmentWrites_map log no slices
  have hrange : List.range no ++ List.range' no slices.length = List.range (no + slices.length) := by
    simpa only [List.range_eq_range', Nat.zero_add] using
      @List.range'_append_1 0 no slices.length
  have hmanifest : ended.manifest = some (List.range (no + slices.length)) := by
    rw [← hrange]
    simp [ended, writeAll_append, writeAll, write]
  have hsegments : ended.segments = (log.writeAll (segmentWrites no slices)).segments := by
    simp [ended, writeAll_append, writeAll, write]
  constructor
  · rw [stored_of_range hmanifest, ← hrange, List.flatMap_append, hsegments]
    congr 1
    · exact List.flatMap_congr fun i hi => hframe i (List.mem_range.mp hi)
    · rw [List.flatMap_def, hmap]
  · intro numbers hnumbers
    rw [hmanifest] at hnumbers
    refine ⟨_, (Option.some.inj hnumbers).symm, fun i hi => ?_⟩
    rw [hsegments]
    by_cases hlt : i < no
    · rw [hframe i hlt]
      exact hbefore i hlt
    · have hmem := List.mem_map_of_mem (f := (log.writeAll (segmentWrites no slices)).segments)
        (List.mem_range'_1.mpr ⟨Nat.le_of_not_lt hlt, hi⟩)
      rw [hmap] at hmem
      exact hslices _ hmem

/-- A rewrite that runs to its end leaves the new items. -/
theorem rewrite_stored (log : SegmentedLog α) (full : List α → Bool) (items : List α) :
    (log.writeAll (rewriteWrites full items)).stored = items ∧
    (log.writeAll (rewriteWrites full items)).Tidy := by
  have hslices : ∀ slice ∈ (if items.isEmpty then [] else fill full [] items), slice ≠ [] := by
    split
    · simp
    · rename_i hne
      exact fill_ne_nil (by simpa using hne)
  have hflatten : (if items.isEmpty then [] else fill full [] items).flatten = items := by
    split
    · rename_i hnil
      simpa using (List.isEmpty_iff.mp hnil).symm
    · simp [fill_flatten]
  obtain ⟨hstored, htidy⟩ := writeAll_listed log 0 hslices (by simp)
  simp only [List.range_zero, List.nil_append, List.flatMap_nil, hflatten,
    ← List.range_eq_range'] at hstored htidy
  exact ⟨hstored, htidy⟩

/-- Before its manifest is written, a log holds nothing. -/
theorem rewrite_partial {full : List α → Bool} {items : List α} {n : Nat}
    (hmanifest : log.manifest = none) (hn : n < (rewriteWrites full items).length) :
    (log.writeAll ((rewriteWrites full items).take n)).manifest = none := by
  unfold rewriteWrites at hn ⊢
  simp only [List.length_append, List.length_singleton, length_segmentWrites] at hn
  rw [List.take_append_of_le_length (by rw [length_segmentWrites]; omega), take_segmentWrites,
    (writeAll_segmentWrites_frame log 0 _).1, hmanifest]

section
variable {full : List α → Bool} {no : Nat} {new : List α}

/-- Continuing the last segment appends the new items. -/
theorem continue_stored (hbefore : ∀ i < no, log.segments i ≠ []) {current : List α}
    (hnew : current ++ new ≠ []) :
    (log.writeAll (continueWrites full (List.range no) no current new)).stored =
      (List.range no).flatMap log.segments ++ (current ++ new) ∧
    (log.writeAll (continueWrites full (List.range no) no current new)).Tidy := by
  have h := writeAll_listed log no (@fill_ne_nil _ full _ _ hnew) hbefore
  rw [fill_flatten] at h
  exact h

/-- New segments do not count before the manifest is written. -/
theorem open_partial {n : Nat} {current : List α} (hmanifest : log.manifest = some (List.range no))
    (htidy : log.Tidy) (hn : n < (continueWrites full (List.range no) no current new).length) :
    let stopped := log.writeAll ((continueWrites full (List.range no) no current new).take n)
    stopped.stored = log.stored ∧ stopped.manifest = log.manifest ∧ stopped.Tidy := by
  intro stopped
  have hstopped : stopped = log.writeAll (segmentWrites no ((fill full current new).take n)) := by
    simp only [stopped, continueWrites, List.length_append, List.length_singleton,
      length_segmentWrites] at hn ⊢
    rw [List.take_append_of_le_length (by rw [length_segmentWrites]; omega), take_segmentWrites]
  obtain ⟨hframe, hsegments⟩ :=
    writeAll_segmentWrites_frame log no ((fill full current new).take n)
  rw [← hstopped] at hframe hsegments
  refine ⟨?_, hframe, ?_⟩
  · rw [stored_of_range (hframe.trans hmanifest), stored_of_range hmanifest]
    exact List.flatMap_congr fun i hi => hsegments i (List.mem_range.mp hi)
  · intro numbers hnumbers
    rw [hframe, hmanifest] at hnumbers
    refine ⟨no, (Option.some.inj hnumbers).symm, fun i hi => ?_⟩
    obtain ⟨k, hk, hne⟩ := htidy _ hmanifest
    have hlength := congrArg List.length hk
    rw [List.length_range, List.length_range] at hlength
    rw [hsegments i hi]
    exact hne i (hlength ▸ hi)

/-- A write of the last segment that stops on the way has appended some of the new items. -/
theorem continue_partial {n : Nat} (hmanifest : log.manifest = some (List.range (no + 1)))
    (htidy : log.Tidy) (hn : n < (continueWrites full (List.range no) no (log.segments no) new).length) :
    let stopped := log.writeAll ((continueWrites full (List.range no) no (log.segments no) new).take n)
    (∃ taken, taken <+: new ∧ stopped.stored = log.stored ++ taken) ∧
    stopped.manifest = log.manifest ∧ stopped.Tidy := by
  intro stopped
  obtain ⟨taken, rest, htaken, hfill⟩ := fill_head full (log.segments no) new
  have hstopped : stopped = log.writeAll (segmentWrites no (((log.segments no ++ taken) :: rest).take n)) := by
    simp only [stopped, continueWrites, hfill, List.length_append, List.length_singleton,
      length_segmentWrites] at hn ⊢
    rw [List.take_append_of_le_length (by rw [length_segmentWrites]; omega), take_segmentWrites]
  obtain ⟨hframe, hsegments⟩ :=
    writeAll_segmentWrites_frame log no (((log.segments no ++ taken) :: rest).take n)
  rw [← hstopped] at hframe hsegments
  have hold : log.stored = (List.range no).flatMap log.segments ++ log.segments no := by
    rw [stored_of_range hmanifest, List.range_succ, List.flatMap_append]
    simp
  have hlast : ∃ part, part <+: new ∧ stopped.segments no = log.segments no ++ part := by
    cases n with
    | zero =>
      refine ⟨[], List.nil_prefix, ?_⟩
      rw [hstopped]
      simp [segmentWrites, writeAll]
    | succ n =>
      refine ⟨taken, htaken, ?_⟩
      rw [hstopped, List.take_succ_cons]
      refine ((writeAll_segmentWrites_frame (log.write (.segment no _)) (no + 1) _).2 no
        (by omega)).trans ?_
      exact Function.update_self _ _ _
  obtain ⟨part, hpart, hno⟩ := hlast
  refine ⟨⟨part, hpart, ?_⟩, hframe, ?_⟩
  · rw [stored_of_range (hframe.trans hmanifest), List.range_succ, List.flatMap_append, hold,
      List.append_assoc]
    congr 1
    · exact List.flatMap_congr fun i hi => hsegments i (List.mem_range.mp hi)
    · simp [hno]
  · intro numbers hnumbers
    obtain ⟨k, hk, hne⟩ := htidy numbers (hframe ▸ hnumbers)
    refine ⟨k, hk, fun i hi => ?_⟩
    have hi' : i < no + 1 := by
      have hlength := congrArg List.length (Option.some.inj
        ((hmanifest.symm.trans hframe.symm).trans hnumbers))
      rw [hk, List.length_range, List.length_range] at hlength
      omega
    rcases Nat.lt_succ_iff_lt_or_eq.mp hi' with hlt | rfl
    · rw [hsegments i hlt]
      exact hne i hi
    · rw [hno]
      intro hnil
      exact hne i hi (List.append_eq_nil_iff.mp hnil).1

end

end SegmentedLog

end Vincent
