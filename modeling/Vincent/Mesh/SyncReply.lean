-- SUMMARY: The replies of a sync: when the loops that halve a list end.
import Mathlib

/-!
# Replies of a sync

A message that is too long is tried again with half of its events, but never with
fewer than one. One event that does not fit is tried for ever.
-/

namespace Vincent.Mesh.SyncReply

section Model

variable {α β : Type}

/-- The bytes of a frame, of an event and of a requested id, where the rest has fixed widths. -/
structure Sizes (α β : Type) where
  frame : Nat
  event : α → Nat
  requestId : β → Nat
  maxPayload : Nat

/-- The bytes of a JSON list whose items have the given sizes. -/
def listSize (size : α → Nat) (items : List α) : Nat :=
  2 + (items.map size).sum + (items.length - 1)

namespace Sizes

variable (sizes : Sizes α β)

def eventsFit (events : List α) : Bool :=
  sizes.frame + listSize sizes.event events ≤ sizes.maxPayload

def deltaFits (requestIds : List β) (events : List α) : Bool :=
  sizes.frame + listSize sizes.requestId requestIds + listSize sizes.event events ≤ sizes.maxPayload

end Sizes

/-- `xs[:n]`. -/
def sliceTo (xs : List α) (n : Int) : List α :=
  xs.take (if 0 ≤ n then n.toNat else xs.length - (-n).toNat)

/-- `xs[: max(1, len(xs) // 2)]`. -/
def halve (xs : List α) : List α := xs.take (max 1 (xs.length / 2))

/-- The loop of `_send_events`: the events of the message, or `none` where the call gives up. -/
def sendLoop (sizes : Sizes α β) : Nat → List α → Option (Option (List α))
  | 0, _ => none
  | n + 1, limited =>
    if limited = [] then some none
    else if sizes.eventsFit limited = true then some (some limited)
    else sendLoop sizes n (halve limited)

def sendEvents (sizes : Sizes α β) (maxEvents : Int) (n : Nat) (events : List α) :
    Option (Option (List α)) :=
  if events = [] then some none else sendLoop sizes n (sliceTo events maxEvents)

/-- The loop of `_handle_ibf_sync_init`. -/
def replyLoop (sizes : Sizes α β) : Nat → List β → List α → Option (Option (List β × List α))
  | 0, _, _ => none
  | n + 1, requestIds, events =>
    if sizes.deltaFits requestIds events = true then some (some (requestIds, events))
    else if events ≠ [] then replyLoop sizes n requestIds (halve events)
    else if requestIds ≠ [] then replyLoop sizes n (halve requestIds) events
    else some none

/-- The call ends, and sends a prefix that fits, or nothing where one event does not. -/
def Answers (sizes : Sizes α β) (maxEvents : Int) (events : List α) : Prop :=
  ∃ n out, sendEvents sizes maxEvents n events = some out ∧
    (∀ sent ∈ out, sent <+: events ∧ sizes.eventsFit sent = true) ∧
    (sizes.eventsFit ((sliceTo events maxEvents).take 1) = false → out = none)

/-- The same for the reply, which also carries a prefix of the ids. -/
def Replies (sizes : Sizes α β) (requestIds : List β) (events : List α) : Prop :=
  ∃ n out, replyLoop sizes n requestIds events = some out ∧
    (∀ sent ∈ out, sent.1 <+: requestIds ∧ sent.2 <+: events ∧
      sizes.deltaFits sent.1 sent.2 = true) ∧
    (events ≠ [] → sizes.deltaFits requestIds (events.take 1) = false → out = none)

end Model

section

variable {α β : Type} {sizes : Sizes α β} {xs ys : List α}

theorem listSize_mono (size : α → Nat) (h : xs <+: ys) : listSize size xs ≤ listSize size ys := by
  obtain ⟨rest, rfl⟩ := h
  unfold listSize
  rw [List.map_append, List.sum_append, List.length_append]
  omega

theorem halve_isPrefix (xs : List α) : halve xs <+: xs := List.take_prefix _ _

/-- What is tried next still has the first item. -/
theorem take_one_halve (xs : List α) : (halve xs).take 1 = xs.take 1 := by
  unfold halve
  rw [List.take_take, min_eq_left (le_max_left _ _)]

theorem length_halve_lt {xs : List α} (h : 1 < xs.length) : (halve xs).length < xs.length := by
  unfold halve
  rw [List.length_take]
  omega

theorem halve_ne_nil (h : xs ≠ []) : halve xs ≠ [] := by
  intro hnil
  have hhead := take_one_halve xs
  rw [hnil] at hhead
  cases xs with
  | nil => exact h rfl
  | cons x xs => cases hhead

/-- Halving a list while a monotone test fails ends exactly where the first item alone passes it. -/
theorem halving_ends_iff {γ : Type} (loop : Nat → List α → Option γ) (fits : List α → Bool)
    (done : List α → γ) {Good : γ → Prop} (hzero : ∀ xs, loop 0 xs = none)
    (hfits : ∀ n xs, xs ≠ [] → fits xs = true → loop (n + 1) xs = some (done xs))
    (hnext : ∀ n xs, xs ≠ [] → fits xs = false → loop (n + 1) xs = loop n (halve xs))
    (hmono : ∀ xs ys, xs <+: ys → fits ys = true → fits xs = true) (hne : xs ≠ [])
    (hgood : fits (xs.take 1) = true → ∀ part, part <+: xs → fits part = true → Good (done part)) :
    (∃ n out, loop n xs = some out ∧ Good out) ↔ fits (xs.take 1) = true := by
  constructor
  · rintro ⟨n, out, hloop, -⟩
    by_contra hone
    suffices hnone : loop n xs = none by cases hnone.symm.trans hloop
    clear hloop hgood
    induction n generalizing xs with
    | zero => exact hzero xs
    | succ n ih =>
      have hwhole := Bool.eq_false_of_not_eq_true (mt (hmono _ _ (List.take_prefix 1 xs)) hone)
      rw [hnext n xs hne hwhole]
      exact ih (halve_ne_nil hne) ((take_one_halve xs).symm ▸ hone)
  · intro hone
    replace hgood := hgood hone
    induction hlen : xs.length using Nat.strongRecOn generalizing xs with
    | ind len ih =>
      cases hwhole : fits xs with
      | true => exact ⟨1, _, hfits 0 xs hne hwhole, hgood xs (List.prefix_refl _) hwhole⟩
      | false =>
        have hlong : 1 < xs.length := by
          by_contra hshort
          rw [List.take_of_length_le (not_lt.mp hshort), hwhole] at hone
          cases hone
        obtain ⟨n, out, hloop, hout⟩ := ih _ (hlen ▸ length_halve_lt hlong) (halve_ne_nil hne)
          ((take_one_halve xs).symm ▸ hone) (fun part h => hgood part (h.trans (halve_isPrefix xs))) rfl
        exact ⟨n + 1, out, (hnext n xs hne hwhole).trans hloop, hout⟩

theorem eventsFit_mono (h : xs <+: ys) (hfits : sizes.eventsFit ys = true) :
    sizes.eventsFit xs = true := by
  have hle := listSize_mono sizes.event h
  simp only [Sizes.eventsFit, decide_eq_true_eq] at hfits ⊢
  omega

theorem deltaFits_mono {ids ids' : List β} (hids : ids <+: ids') (h : xs <+: ys)
    (hfits : sizes.deltaFits ids' ys = true) : sizes.deltaFits ids xs = true := by
  have hle := listSize_mono sizes.event h
  have hle' := listSize_mono sizes.requestId hids
  simp only [Sizes.deltaFits, decide_eq_true_eq] at hfits ⊢
  omega

theorem answers_iff (sizes : Sizes α β) (maxEvents : Int) (events : List α) :
    Answers sizes maxEvents events ↔ sliceTo events maxEvents = [] ∨
      sizes.eventsFit ((sliceTo events maxEvents).take 1) = true := by
  unfold Answers sendEvents
  by_cases hevents : events = []
  · subst hevents
    refine iff_of_true ⟨0, none, rfl, fun _ h => (by cases h), fun _ => rfl⟩ (.inl ?_)
    simp [sliceTo]
  simp only [if_neg hevents]
  by_cases hlimited : sliceTo events maxEvents = []
  · refine iff_of_true ⟨1, none, ?_, fun _ h => (by cases h), fun _ => rfl⟩ (.inl hlimited)
    rw [hlimited]
    rfl
  rw [or_iff_right hlimited]
  refine halving_ends_iff (sendLoop sizes) sizes.eventsFit some (fun _ => rfl)
    (fun n xs hne hfits => by rw [sendLoop, if_neg hne, if_pos hfits])
    (fun n xs hne hfits => by rw [sendLoop, if_neg hne, if_neg (by simp [hfits])])
    (fun _ _ => eventsFit_mono) hlimited ?_
  refine fun hone part hpart hfits => ⟨fun sent hsent => ?_, fun h => ?_⟩
  · cases hsent
    exact ⟨hpart.trans (List.take_prefix _ _), hfits⟩
  · cases hone.symm.trans h

/-- Where there are no events, the ids are halved in their turn. -/
theorem replies_iff (sizes : Sizes α β) (requestIds : List β) (events : List α) :
    Replies sizes requestIds events ↔
      if events ≠ [] then sizes.deltaFits requestIds (events.take 1) = true
      else requestIds = [] ∨ sizes.deltaFits (requestIds.take 1) [] = true := by
  unfold Replies
  by_cases hevents : events = []
  · subst hevents
    rw [if_neg (not_not.mpr rfl)]
    by_cases hids : requestIds = []
    · subst hids
      refine iff_of_true ?_ (.inl rfl)
      cases hfits : sizes.deltaFits ([] : List β) ([] : List α) with
      | true =>
        refine ⟨1, some ([], []), by rw [replyLoop, if_pos hfits], fun sent hsent => ?_, fun h => ?_⟩
        · cases hsent
          exact ⟨List.prefix_refl _, List.prefix_refl _, hfits⟩
        · exact absurd rfl h
      | false =>
        refine ⟨1, none, ?_, fun _ h => (by cases h), fun h => absurd rfl h⟩
        rw [replyLoop, if_neg (by simp [hfits])]
        simp
    rw [or_iff_right hids]
    refine halving_ends_iff (fun n ids => replyLoop sizes n ids [])
      (fun ids => sizes.deltaFits ids []) (fun ids => some (ids, [])) (fun _ => rfl)
      (fun n ids hne hfits => by rw [replyLoop, if_pos hfits])
      (fun n ids hne hfits => by rw [replyLoop, if_neg (by simp [hfits]), if_neg (not_not.mpr rfl),
        if_pos hne])
      (fun _ _ h => deltaFits_mono h (List.prefix_refl _)) hids ?_
    refine fun _ part hpart hfits => ⟨fun sent hsent => ?_, fun h => absurd rfl h⟩
    cases hsent
    exact ⟨hpart, List.prefix_refl _, hfits⟩
  · rw [if_pos hevents]
    refine halving_ends_iff (fun n events => replyLoop sizes n requestIds events)
      (sizes.deltaFits requestIds) (fun events => some (requestIds, events)) (fun _ => rfl)
      (fun n xs hne hfits => by rw [replyLoop, if_pos hfits])
      (fun n xs hne hfits => by rw [replyLoop, if_neg (by simp [hfits]), if_pos hne])
      (fun _ _ h => deltaFits_mono (List.prefix_refl _) h) hevents ?_
    refine fun hone part hpart hfits => ⟨fun sent hsent => ?_, fun _ h => ?_⟩
    · cases hsent
      exact ⟨List.prefix_refl _, hpart, hfits⟩
    · cases hone.symm.trans h

/-- Both loops end exactly where the first event fits, or there is none. -/
theorem answering_ends_iff (sizes : Sizes α β) (maxEvents : Int) (requestIds : List β)
    (events : List α) :
    (Answers sizes maxEvents events ↔ sliceTo events maxEvents = [] ∨
      sizes.eventsFit ((sliceTo events maxEvents).take 1) = true) ∧
    (Replies sizes requestIds events ↔
      if events ≠ [] then sizes.deltaFits requestIds (events.take 1) = true
      else requestIds = [] ∨ sizes.deltaFits (requestIds.take 1) [] = true) :=
  ⟨answers_iff sizes maxEvents events, replies_iff sizes requestIds events⟩

/-- One event that is longer than a message. -/
theorem not_answering_ends : ¬ ∀ (sizes : Sizes Nat Nat) (maxEvents : Int) (requestIds events : List Nat),
    Answers sizes maxEvents events ∧ Replies sizes requestIds events := by
  intro h
  have hanswers := (h ⟨100, id, id, 8192⟩ 64 [] [9000]).1
  rw [answers_iff] at hanswers
  revert hanswers
  decide

end

end Vincent.Mesh.SyncReply
