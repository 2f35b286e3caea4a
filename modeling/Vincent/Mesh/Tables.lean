-- SUMMARY: The tables that a chain determines.
import Vincent.Mesh.Rebuild

/-!
# The tables of a chain

A ledger comes by its tables in two ways: it accepts one event after another, or
it rebuilds them from the events. `Tables` says that the index, the filter and the
revocations are those of a given chain, and both ways lead there.
-/

namespace Vincent.Mesh

open Vincent.Python Vincent.Check

/-- The revocation table that a chain leaves. -/
def revocationTable (rt : Runtime) (chain : List ChainEvent) : String → Option Revocation :=
  chain.foldl (addRevocation rt) fun _ => none

/-- The chain revokes the key, and its grace period is over. -/
def revokedBy (rt : Runtime) (chain : List ChainEvent) (now : ℚ) (publicKey : String) : Bool :=
  (revocationTable rt chain publicKey).any fun info => info.graceUntil < now

/-- Every filter position of the value is one of some event of the chain. -/
def filterCollision (env : Env) (salt : Nat) (chain : List ChainEvent) (value : String) : Prop :=
  ∀ pos ∈ env.filterPositions salt value,
    ∃ e ∈ chain, e.eventId ≠ "" ∧ pos ∈ env.filterPositions salt e.eventId

instance (env : Env) (salt : Nat) (chain : List ChainEvent) (value : String) :
    Decidable (filterCollision env salt chain value) := by
  unfold filterCollision
  infer_instance

/-- The index, the filter, made at the time of the call, and the revocations are those of the
chain. -/
structure Tables (env : Env) (call : Call) (chain : List ChainEvent) (net : Infonet) : Prop where
  index : ∀ id, id ≠ "" → (net.eventIndex id = none ↔ id ∉ chain.map (·.eventId))
  salt : net.replayFilter.salt = call.salt
  lastRotate : net.replayFilter.lastRotate = call.now
  previous : net.replayFilter.previous = []
  active : ∀ pos, pos ∈ net.replayFilter.active ↔
    ∃ e ∈ chain, e.eventId ≠ "" ∧ pos ∈ env.filterPositions call.salt e.eventId
  revocations : net.revocations = revocationTable env.rt chain

/-- A filter that was rotated at the time of the call keeps what it has. -/
theorem ReplayFilter.rotateIfNeeded_of_lastRotate {f : ReplayFilter} {now : ℚ}
    (h : f.lastRotate = now) : f.rotateIfNeeded now = f := by
  have hpos : (0 : ℚ) < replayFilterRotateS := by norm_num [replayFilterRotateS]
  simp [rotateIfNeeded, h, hpos]

namespace Tables

variable {env : Env} {call : Call} {chain : List ChainEvent} {net : Infonet} {e : ChainEvent}

theorem empty (h : net.eventIndex = fun _ => none) (hrevocations : net.revocations = fun _ => none)
    (hfilter : net.replayFilter = .new call) : Tables env call [] net where
  index id _ := iff_of_true (by rw [h]) List.not_mem_nil
  salt := by rw [hfilter]; rfl
  lastRotate := by rw [hfilter]; rfl
  previous := by rw [hfilter]; rfl
  active pos := iff_of_false (by rw [hfilter]; exact List.not_mem_nil) (by simp)
  revocations := hrevocations

/-- Whoever adds one event to the index, the filter and the revocations extends the chain. -/
theorem add {net' : Infonet} (h : Tables env call chain net)
    (hindex : ∀ id, id ≠ "" →
      (net'.eventIndex id = none ↔ net.eventIndex id = none ∧ id ≠ e.eventId))
    (hfilter : net'.replayFilter = if e.eventId = "" then net.replayFilter
      else net.replayFilter.add env call.now e.eventId)
    (hrevocations : net'.revocations = addRevocation env.rt net.revocations e) :
    Tables env call (chain ++ [e]) net' := by
  have hrotate := ReplayFilter.rotateIfNeeded_of_lastRotate h.lastRotate
  exact {
    index := fun id hid => by
      rw [hindex id hid, h.index id hid]
      simp [List.mem_append, not_or]
    salt := by rw [hfilter]; split <;> simp [ReplayFilter.add, hrotate, h.salt]
    lastRotate := by rw [hfilter]; split <;> simp [ReplayFilter.add, hrotate, h.lastRotate]
    previous := by rw [hfilter]; split <;> simp [ReplayFilter.add, hrotate, h.previous]
    active := fun pos => by
      simp only [List.mem_append, List.mem_singleton, or_and_right, exists_or, ← h.active,
        exists_eq_left, hfilter]
      split
      · rename_i hid
        simp [hid]
      · rename_i hid
        simp only [ReplayFilter.add, hrotate, List.mem_append, h.salt, hid, ne_eq,
          not_false_eq_true, true_and]
        exact or_comm
    revocations := by simp [hrevocations, h.revocations, revocationTable] }

theorem rebuilt (h : Tables env call chain net) (idx : Nat) :
    Tables env call (chain ++ [e]) (net.rebuilt env call idx e) := by
  refine h.add (fun id hid => ?_) ?_ (Infonet.rebuilt_revocations ..)
  · rw [Infonet.rebuilt_eventIndex]
    unfold Infonet.indexEvent
    split
    · rename_i hempty
      simp [hempty, hid]
    · simp only [Function.update_apply]
      split <;> simp_all
  · rw [Infonet.rebuilt_replayFilter]
    unfold Infonet.indexEvent
    split <;> rfl

theorem rebuiltAll (h : Tables env call chain net) (es : List ChainEvent) (idx : Nat) :
    Tables env call (chain ++ es) (Infonet.rebuiltAll env call es idx net) := by
  induction es generalizing chain idx net with
  | nil => simpa [Infonet.rebuiltAll] using h
  | cons e es ih => simpa [Infonet.rebuiltAll] using ih (h.rebuilt idx) (idx + 1)

theorem rebuiltState (env : Env) (call : Call) (net : Infonet) :
    Tables env call net.events (Infonet.rebuiltState env call net) := by
  have hclear : Tables env call [] (net.clearTables call) := Tables.empty rfl rfl rfl
  obtain ⟨hindex, hsalt, hrotate, hprevious, hactive, hrevocations⟩ :=
    hclear.rebuiltAll net.events 0
  exact ⟨hindex, hsalt, hrotate, hprevious, hactive, hrevocations⟩

theorem commit (h : Tables env call chain net) (hid : e.eventId ≠ "") :
    Tables env call (chain ++ [e]) (net.commit env call e) := by
  have hrotate := ReplayFilter.rotateIfNeeded_of_lastRotate h.lastRotate
  refine h.add (fun id _ => ?_) ?_ (by simp)
  · rw [Infonet.commit_eventIndex, Function.update_apply]
    split <;> simp_all
  · rw [if_neg hid]
    simp [Infonet.commit, Infonet.recordEvent, Infonet.setBinding, Infonet.rotateFilter,
      ReplayFilter.add, hrotate]

/-- What the filter takes for seen is what collides with the chain, also after one
    rotation at a later time. -/
theorem seen_iff (h : Tables env call chain net) (later : Call) (id : String) :
    (net.rotateFilter later).replayFilter.seen env id = true ↔
      filterCollision env call.salt chain id := by
  unfold Infonet.rotateFilter ReplayFilter.rotateIfNeeded ReplayFilter.seen filterCollision
  split <;> simp [h.salt, h.previous, h.active]

theorem unseen_iff (h : Tables env call chain net) (later : Call) (id : String) :
    (net.rotateFilter later).replayFilter.seen env id = false ↔
      ¬ filterCollision env call.salt chain id := by
  rw [← h.seen_iff later id, Bool.not_eq_true]

theorem revoked_eq (h : Tables env call chain net) (now : ℚ) (key : String) :
    net.revoked now key = revokedBy env.rt chain now key := by
  simp [Infonet.revoked, revokedBy, h.revocations]

end Tables

end Vincent.Mesh
