-- SUMMARY: Ordered ingest: when the walk ends with the longest chain.
import Mathlib.Data.List.ReduceOption
import Mathlib.Order.Basic
import Vincent.General.Cycles

/-!
# Ordered ingest

The walk starts at the head of the ledger and takes, for each hash that it comes to,
the first event of the batch with that `prev_hash`. It keeps no list of what it has
visited, so links that lead back go round for ever.
-/

namespace Vincent.Mesh.OrderedIngest

open Vincent.LinkedChain

section Model

-- An event of a batch is known by its `prev_hash` and its `event_id`; a value that is no dict is
-- `none`.
variable {α : Type} (prevHash eventId : α → String)

/-- The events that have both fields, in the order of the batch. -/
def usable (batch : List (Option α)) : List α :=
  batch.reduceOption.filter fun evt => prevHash evt ≠ "" ∧ eventId evt ≠ ""

/-- `by_prev`: the first usable event of each `prev_hash`. -/
def byPrev (batch : List (Option α)) (prev : String) : Option α :=
  (usable prevHash eventId batch).find? fun evt => prevHash evt = prev

/-- The loop, up to a number of turns. -/
def walk (batch : List (Option α)) : Nat → String → Option (List α)
  | 0, _ => none
  | n + 1, current =>
    match byPrev prevHash eventId batch current with
    | none => some []
    | some evt =>
      if eventId evt = "" then some [evt] else (walk batch n (eventId evt)).map (evt :: ·)

/-- `_ingest_ordered` ends, with the calls of `ingest_events` that it makes. -/
def Ingests (batch : List (Option α)) (headHash : String) (calls : List (List α)) : Prop :=
  ∃ n ordered, walk prevHash eventId batch n headHash = some ordered ∧
    calls = if ordered = [] then [] else [ordered]

/-- A list of events of the batch that link up from the head, none of them twice. -/
structure Chain (batch : List (Option α)) (headHash : String) (chain : List α) : Prop where
  taken : ∀ evt ∈ chain, some evt ∈ batch
  linked : Linked eventId prevHash headHash chain
  nodup : chain.Nodup

/-- The ingest ends, with at most one call, for a chain that none is longer than. -/
def IngestsLongest (batch : List (Option α)) (headHash : String) : Prop :=
  ∃ chain, Ingests prevHash eventId batch headHash (if chain = [] then [] else [chain]) ∧
    Chain prevHash eventId batch headHash chain ∧
    ∀ other, Chain prevHash eventId batch headHash other → other.length ≤ chain.length

/-- The events that the walk can take. -/
def firsts (batch : List (Option α)) : List α :=
  (usable prevHash eventId batch).filterMap fun evt =>
    byPrev prevHash eventId batch (prevHash evt)

/-- The chains of the batch are no longer than its chains of first events. -/
def FirstsSuffice (batch : List (Option α)) (headHash : String) : Prop :=
  ∀ chain, Chain prevHash eventId batch headHash chain →
    ∃ first, first ⊆ firsts prevHash eventId batch ∧
      Linked eventId prevHash headHash first ∧ chain.length ≤ first.length

end Model

section

variable {α : Type} {prevHash eventId : α → String} {batch : List (Option α)} {headHash : String}

theorem byPrev_eq_some {prev : String} {evt : α} (h : byPrev prevHash eventId batch prev = some evt) :
    evt ∈ usable prevHash eventId batch ∧ prevHash evt = prev :=
  ⟨List.mem_of_find?_eq_some h, by simpa using List.find?_some h⟩

theorem mem_firsts {evt : α} : evt ∈ firsts prevHash eventId batch ↔
    byPrev prevHash eventId batch (prevHash evt) = some evt := by
  unfold firsts
  rw [List.mem_filterMap]
  constructor
  · rintro ⟨other, -, hother⟩
    rw [(byPrev_eq_some hother).2]
    exact hother
  · exact fun h => ⟨evt, (byPrev_eq_some h).1, h⟩

/-- One first event for each `prev_hash`. -/
theorem firsts_injective : ∀ a ∈ firsts prevHash eventId batch, ∀ b ∈ firsts prevHash eventId batch,
    prevHash a = prevHash b → a = b := by
  intro a ha b hb hsame
  have hfirst := mem_firsts.mp ha
  rw [hsame, mem_firsts.mp hb] at hfirst
  exact (Option.some.inj hfirst).symm

theorem firsts_taken {evt : α} (h : evt ∈ firsts prevHash eventId batch) :
    some evt ∈ batch ∧ eventId evt ≠ "" := by
  obtain ⟨hmem, hfields⟩ := List.mem_filter.mp (byPrev_eq_some (mem_firsts.mp h)).1
  exact ⟨List.reduceOption_mem_iff.mp hmem, (of_decide_eq_true hfields).2⟩

/-- The loop ends with a list iff that follows the links of the first events as far as they go. -/
theorem walk_iff {ordered : List α} : (∃ n, walk prevHash eventId batch n headHash = some ordered) ↔
    Follows eventId prevHash (firsts prevHash eventId batch) headHash ordered := by
  constructor
  · rintro ⟨n, h⟩
    induction n generalizing headHash ordered with
    | zero => cases h
    | succ n ih =>
      unfold walk at h
      cases hnext : byPrev prevHash eventId batch headHash with
      | none =>
        rw [hnext] at h
        cases h
        refine .stop fun evt hevt hprev => ?_
        have hfirst := mem_firsts.mp hevt
        rw [hprev, hnext] at hfirst
        cases hfirst
      | some evt =>
        obtain ⟨-, hprev⟩ := byPrev_eq_some hnext
        have hmem : evt ∈ firsts prevHash eventId batch := mem_firsts.mpr (by rw [hprev, hnext])
        rw [hnext] at h
        dsimp only at h
        rw [if_neg (firsts_taken hmem).2] at h
        obtain ⟨rest, hrest, rfl⟩ := Option.map_eq_some_iff.mp h
        exact .step hmem hprev (ih hrest)
  · intro h
    induction h with
    | @stop current hend =>
      refine ⟨1, ?_⟩
      unfold walk
      cases hnext : byPrev prevHash eventId batch current with
      | none => rfl
      | some evt =>
        obtain ⟨-, hprev⟩ := byPrev_eq_some hnext
        exact absurd hprev (hend evt (mem_firsts.mpr (by rw [hprev, hnext])))
    | @step current evt rest hmem hprev _ ih =>
      obtain ⟨n, hn⟩ := ih
      refine ⟨n + 1, ?_⟩
      have hnext := mem_firsts.mp hmem
      rw [hprev] at hnext
      unfold walk
      rw [hnext]
      dsimp only
      rw [if_neg (firsts_taken hmem).2, hn]
      rfl

/-- Links that lead into a cycle are followed for ever. -/
theorem not_follows_of_cyclic {as ordered : List α}
    (hinj : ∀ a ∈ as, ∀ b ∈ as, prevHash a = prevHash b → a = b)
    (h : Follows eventId prevHash as headHash ordered) : ¬ Cyclic eventId prevHash as headHash := by
  induction h with
  | stop hend =>
    intro hcyclic
    obtain ⟨evt, hevt, hprev, -⟩ := hcyclic.step
    exact hend evt hevt hprev
  | step hmem hprev _ ih =>
    intro hcyclic
    obtain ⟨evt, hevt, hprev', hnext⟩ := hcyclic.step
    obtain rfl := hinj _ hmem _ hevt (hprev.trans hprev'.symm)
    exact ih hnext

theorem exists_follows (as : List α) (n : Nat) (headHash : String) :
    (∃ ordered, Follows eventId prevHash as headHash ordered) ∨
      ∃ long, long ⊆ as ∧ Linked eventId prevHash headHash long ∧ long.length = n := by
  induction n generalizing headHash with
  | zero => exact .inr ⟨[], List.nil_subset _, trivial, rfl⟩
  | succ n ih =>
    by_cases hnext : ∃ evt ∈ as, prevHash evt = headHash
    · obtain ⟨evt, hevt, hprev⟩ := hnext
      rcases ih (eventId evt) with ⟨rest, hrest⟩ | ⟨rest, hsub, hlinked, hlength⟩
      · exact .inl ⟨_, .step hevt hprev hrest⟩
      · exact .inr ⟨evt :: rest, List.cons_subset.mpr ⟨hevt, hsub⟩, ⟨hprev, hlinked⟩,
          congrArg (· + 1) hlength⟩
    · exact .inl ⟨[], .stop fun evt hevt hprev => hnext ⟨evt, hevt, hprev⟩⟩

/-- What follows the links as far as they go is at least as long as any linked list. -/
theorem length_le_of_follows {as ordered chain : List α}
    (hinj : ∀ a ∈ as, ∀ b ∈ as, prevHash a = prevHash b → a = b)
    (h : Follows eventId prevHash as headHash ordered) (hsub : chain ⊆ as)
    (hlinked : Linked eventId prevHash headHash chain) : chain.length ≤ ordered.length := by
  induction h generalizing chain with
  | stop hend =>
    cases chain with
    | nil => exact Nat.le_refl _
    | cons evt chain => exact absurd hlinked.1 (hend evt (List.cons_subset.mp hsub).1)
  | step hmem hprev _ ih =>
    cases chain with
    | nil => exact Nat.zero_le _
    | cons evt chain =>
      obtain ⟨hevt, hrest⟩ := List.cons_subset.mp hsub
      obtain rfl := hinj _ hmem _ hevt (hprev.trans hlinked.1.symm)
      exact Nat.succ_le_succ (ih hrest hlinked.2)

/-- The longest chain results iff the first events lead into no cycle and no chain is longer than
theirs. -/
theorem ingestsLongest_iff (prevHash eventId : α → String) (batch : List (Option α))
    (headHash : String) : IngestsLongest prevHash eventId batch headHash ↔
      ¬ Cyclic eventId prevHash (firsts prevHash eventId batch) headHash ∧
        FirstsSuffice prevHash eventId batch headHash := by
  constructor
  · rintro ⟨chain, ⟨n, ordered, hwalk, hcalls⟩, -, hlongest⟩
    have hsame : ordered = chain := by
      split_ifs at hcalls with hchain hordered hordered
      · rw [hordered, hchain]
      · exact (List.cons.inj hcalls).1.symm
    subst hsame
    have hfollows := walk_iff.mp ⟨n, hwalk⟩
    exact ⟨not_follows_of_cyclic firsts_injective hfollows, fun other hother =>
      ⟨ordered, hfollows.subset, hfollows.linked, hlongest other hother⟩⟩
  · rintro ⟨hacyclic, hsuffice⟩
    rcases exists_follows (firsts prevHash eventId batch)
      ((firsts prevHash eventId batch).length + 1) headHash with
      ⟨ordered, hfollows⟩ | ⟨long, hsub, hlinked, hlength⟩
    · obtain ⟨n, hwalk⟩ := walk_iff.mpr hfollows
      refine ⟨ordered, ⟨n, ordered, hwalk, rfl⟩, ⟨fun evt hevt => ?_, hfollows.linked,
        hfollows.nodup firsts_injective⟩, fun other hother => ?_⟩
      · exact (firsts_taken (hfollows.subset hevt)).1
      · obtain ⟨first, hsub, hlinked, hle⟩ := hsuffice other hother
        exact Nat.le_trans hle (length_le_of_follows firsts_injective hfollows hsub hlinked)
    · exact absurd (cyclic_of_long hsub hlinked (by omega)) hacyclic

/-- An event that is its own predecessor, at the head: the loop never ends. -/
theorem not_ingestsLongest : ¬ IngestsLongest Prod.fst Prod.snd [some ("h1", "h1")] "h1" := by
  rintro ⟨chain, ⟨n, ordered, hwalk, -⟩, -⟩
  have hnever (n : Nat) : walk Prod.fst Prod.snd [some ("h1", "h1")] n "h1" = none := by
    induction n with
    | zero => rfl
    | succ n ih =>
      unfold walk
      have hnext : byPrev Prod.fst Prod.snd [some ("h1", "h1")] "h1" = some ("h1", "h1") := by decide
      rw [hnext]
      dsimp only
      rw [if_neg (by decide), ih]
      rfl
  rw [hnever n] at hwalk
  cases hwalk

end

end Vincent.Mesh.OrderedIngest
