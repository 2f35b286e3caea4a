-- SUMMARY: The ledgers that a node can hold, and their index.
import Vincent.Mesh.Rebuild
import Vincent.Mesh.Steps
import Vincent.Mesh.Storage

/-!
# Reachable ledgers

`Reachable` closes the loaded ledgers under every operation that changes one, with
any arguments and any outcome. The environment may change from call to call: a
node can register more event types while it runs.
-/

namespace Vincent.Mesh

open Vincent.Python Vincent.Check Relation

/-- The ledgers that a node can come to hold. -/
inductive Reachable : Infonet → Prop
  | load (env : Env) (codec : Codec) (call call' : Call) (disk : Disk) :
    Reachable (Infonet.load env codec call call' disk).1
  | append {net : Infonet} (env : Env) (call : Call) (c : AppendCall) (h : Reachable net) :
    Reachable (net.append env call c).1
  | ingestEvents {net : Infonet} (env : Env) (call : Call) (items : List WireItem)
    (h : Reachable net) : Reachable (net.ingestEvents env call items).1
  | applyFork {net : Infonet} (env : Env) (call : Call) (events : List ChainEvent)
    (headHash : String) (proofCount quorum : Int) (h : Reachable net) :
    Reachable (net.applyFork env call events headHash proofCount quorum).1
  | cleanup {net : Infonet} (env : Env) (call : Call) (h : Reachable net) :
    Reachable (net.cleanup env call).1
  | resetChain {net : Infonet} (call : Call) (h : Reachable net) :
    Reachable (net.resetChain call)
  | validateAndSetSequence {net : Infonet} (rt : Runtime) (nodeId : String) (sequence : Int)
    (domain : String) (h : Reachable net) :
    Reachable (net.validateAndSetSequence rt nodeId sequence domain).1
  | flush {net : Infonet} (codec : Codec) (disk : Disk) (h : Reachable net) :
    Reachable (net.flush codec disk).1

namespace Infonet

/-! ## The index -/

theorem indexOf_concat (events : List ChainEvent) (e : ChainEvent) :
    indexOf (events ++ [e]) = if e.eventId = "" then indexOf events
      else Function.update (indexOf events) e.eventId (some events.length) := by
  simp [indexOf, List.zipIdx_append]

theorem indexOf_eq_some {events : List ChainEvent} {id : String} {i : Nat}
    (h : indexOf events id = some i) : ∃ e, events[i]? = some e ∧ e.eventId = id := by
  induction events using List.reverseRecOn with
  | nil => simp [indexOf] at h
  | append_singleton events e ih =>
    have hold : indexOf events id = some i →
        ∃ e', (events ++ [e])[i]? = some e' ∧ e'.eventId = id := by
      intro hi
      obtain ⟨e', hat, hid⟩ := ih hi
      have hlt : i < events.length := (List.getElem?_eq_some_iff.mp hat).1
      exact ⟨e', by rw [List.getElem?_append_left hlt]; exact hat, hid⟩
    rw [indexOf_concat] at h
    split at h
    · exact hold h
    · rw [Function.update_apply] at h
      split at h
      · rename_i hid
        cases h
        exact ⟨e, by simp, hid.symm⟩
      · exact hold h

theorem indexOf_eq_none {events : List ChainEvent} {id : String} (hid : id ≠ "") :
    indexOf events id = none ↔ id ∉ events.map (·.eventId) := by
  induction events using List.reverseRecOn with
  | nil => simp [indexOf]
  | append_singleton events e ih =>
    rw [indexOf_concat]
    by_cases hempty : e.eventId = ""
    · simp [hempty, ih, hid]
    · by_cases hsame : id = e.eventId
      · simp [hsame, hempty]
      · simp [hempty, ih, hsame]

namespace Indexed

variable {env : Env} {call : Call} {net : Infonet}

theorem commit (h : net.Indexed) (e : ChainEvent) : (net.commit env call e).Indexed := by
  intro id i hi
  rw [commit_eventIndex, Function.update_apply] at hi
  rw [commit_events]
  split at hi
  · rename_i hid
    cases hi
    exact ⟨e, by simp, hid.symm⟩
  · obtain ⟨e', hat, hid⟩ := h id i hi
    have hlt : i < net.events.length := (List.getElem?_eq_some_iff.mp hat).1
    exact ⟨e', by rw [List.getElem?_append_left hlt]; exact hat, hid⟩

theorem enforceMemoryCap (h : net.Indexed) : net.enforceMemoryCap.Indexed := by
  unfold Infonet.enforceMemoryCap
  split
  · exact h
  · intro id i hi
    simp only [invalidateMerkleCache] at hi ⊢
    exact indexOf_eq_some hi

theorem save (h : net.Indexed) : net.save.Indexed :=
  h.enforceMemoryCap.of_eq rfl rfl

theorem setSequence (h : net.Indexed) (slot : SequenceSlot) (n : Int) :
    (net.setSequence slot n).Indexed :=
  h.of_eq (by simp) (by simp)

theorem advance {net' : Infonet} (h : net.Indexed) (hstep : Advance env call net net') :
    net'.Indexed := by
  cases hstep with
  | commit _ => exact h.commit _
  | bind _ => exact h.of_eq rfl rfl
  | rotate => exact h.of_eq rfl rfl
  | invalidate => exact h.of_eq rfl rfl
  | save => exact h.save

theorem advances {net' : Infonet} (h : net.Indexed) (hsteps : Advances env call net net') :
    net'.Indexed := by
  induction hsteps with
  | refl => exact h
  | tail _ hstep ih => exact ih.advance hstep

theorem flush (h : net.Indexed) (codec : Codec) (disk : Disk) :
    (net.flush codec disk).1.Indexed := by
  unfold Infonet.flush
  split
  · split
    · exact h
    · exact h.of_eq rfl rfl
  · exact h

end Indexed

theorem rebuild_indexed (env : Env) (call : Call) (net : Infonet) :
    (rebuild env call net).1.Indexed :=
  (rebuild_frame env call net).2.2

theorem resetToGenesis_indexed (call : Call) (net : Infonet) :
    (resetToGenesis call net).Indexed :=
  indexed_of_none rfl

theorem applyFork_indexed {net : Infonet} (h : net.Indexed) (env : Env) (call : Call)
    (events : List ChainEvent) (headHash : String) (proofCount quorum : Int) :
    (net.applyFork env call events headHash proofCount quorum).1.Indexed := by
  unfold applyFork
  split
  · exact h
  · exact h
  · rename_i plan _
    have hrebuilt := rebuild_indexed env call
      { net with events := net.events.take (plan.prevIndex + 1) ++ plan.ordered }
    simp only
    split
    · rename_i hrun
      rw [hrun] at hrebuilt
      exact hrebuilt
    · rename_i hrun
      rw [hrun] at hrebuilt
      exact Indexed.save (hrebuilt.of_eq rfl rfl)

theorem cleanup_indexed {net : Infonet} (h : net.Indexed) (env : Env) (call : Call) :
    (net.cleanup env call).1.Indexed := by
  unfold cleanup
  split
  · exact h
  · rename_i kept _
    split
    · exact h
    · have hrebuilt := rebuild_indexed env call { net with events := kept }
      split
      · rename_i hrun
        rw [hrun] at hrebuilt
        exact hrebuilt
      · rename_i hrun
        rw [hrun] at hrebuilt
        exact Indexed.save (hrebuilt.of_eq rfl rfl)

theorem validateAndSetSequence_indexed {net : Infonet} (h : net.Indexed) (rt : Runtime)
    (nodeId : String) (sequence : Int) (domain : String) :
    (net.validateAndSetSequence rt nodeId sequence domain).1.Indexed := by
  unfold validateAndSetSequence
  simp only
  split_ifs
  all_goals first | exact h | exact (h.setSequence _ _).save

theorem loadChain_indexed (env : Env) (codec : Codec) (call : Call) (disk : Disk) :
    (loadChain env codec call disk).1.Indexed := by
  unfold loadChain
  split
  · exact indexed_of_none rfl
  · exact resetToGenesis_indexed _ _
  · rename_i file _
    split
    · have hrebuilt := rebuild_indexed env call (assigned call file)
      split
      · exact resetToGenesis_indexed _ _
      · rename_i hrun
        rw [hrun] at hrebuilt
        split
        · exact hrebuilt.enforceMemoryCap.flush codec disk
        · exact hrebuilt
    · exact resetToGenesis_indexed _ _

theorem replayWal_indexed {net : Infonet} (h : net.Indexed) (env : Env) (codec : Codec)
    (call : Call) (disk : Disk) : (replayWal env codec call net disk).1.Indexed := by
  unfold replayWal
  simp only
  split
  · exact h
  · exact resetToGenesis_indexed _ _
  · rename_i e _
    have hingest : (net.ingestEvents env call [.event e]).1.Indexed :=
      h.advances (advances_ingestEvents net [.event e])
    split
    · exact h
    · split
      · exact h
      · split
        · exact resetToGenesis_indexed _ _
        · rename_i hrun
          rw [hrun] at hingest
          split
          · exact resetToGenesis_indexed _ _
          · exact hingest.flush codec disk

end Infonet

/-- The index of a reachable ledger is right. -/
theorem Reachable.indexed {net : Infonet} (h : Reachable net) : net.Indexed := by
  induction h with
  | load env codec call call' disk =>
    exact Infonet.replayWal_indexed (Infonet.loadChain_indexed env codec call disk) env codec call' _
  | append env call c _ ih => exact ih.advances (advances_append _ c)
  | ingestEvents env call items _ ih => exact ih.advances (advances_ingestEvents _ items)
  | applyFork env call events headHash proofCount quorum _ ih =>
    exact Infonet.applyFork_indexed ih env call events headHash proofCount quorum
  | cleanup env call _ ih => exact Infonet.cleanup_indexed ih env call
  | resetChain call _ _ => exact Infonet.indexed_of_none rfl
  | validateAndSetSequence rt nodeId sequence domain _ ih =>
    exact Infonet.validateAndSetSequence_indexed ih rt nodeId sequence domain
  | flush codec disk _ ih => exact ih.flush codec disk

end Vincent.Mesh
