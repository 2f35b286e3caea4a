-- SUMMARY: What a node keeps of its history in every run.
import Vincent.Mesh.Operations
import Vincent.Mesh.PeerSync

/-!
# History

The operations that replace the hot chain do not touch the archive, and the others
only add to the history.
-/

namespace Vincent.Mesh

open Vincent.Run

/-- The operations that replace the hot chain. -/
def ChainOp.Replaces : ChainOp → Prop
  | .applyFork .. | .cleanup | .resetChain => True
  | _ => False

section
variable (env : Env) (call : Call) (net : Infonet)

theorem Infonet.archived_prefix_replaced (events : List ChainEvent) :
    net.archived <+: (net.replaced env call events).archived := by
  have hcold := (rebuiltState_frame env call net events).2
  refine List.IsPrefix.trans ?_ (Infonet.archived_prefix_save _)
  simp [archived, invalidateMerkleCache, hcold]

theorem Infonet.archived_rebuild (events : List ChainEvent) :
    (rebuild env call { net with events := events }).1.archived = net.archived := by
  simp [archived, (rebuild_frame env call { net with events := events }).2.1]

/-- A replacement leaves the archive alone, and the other operations leave the history too. -/
theorem chainStep_grows (a : ChainAction) : net.archived <+: (chainStep env net a).archived ∧
    (¬ a.op.Replaces → net.history <+: (chainStep env net a).history) := by
  by_cases hreplace : a.op.Replaces
  · refine ⟨?_, fun hnot => absurd hreplace hnot⟩
    unfold chainStep
    cases hop : a.op with
    | applyFork events headHash proofCount quorum =>
      rcases Infonet.applyFork_cases (a.env env) a.call net events headHash proofCount quorum with
        hsame | ⟨plan, -, ⟨-, hstep⟩ | ⟨-, hstep⟩⟩
      · simp [ChainOp.apply, hsame]
      · simpa [ChainOp.apply, hstep] using net.archived_prefix_replaced _ _ _
      · simp [ChainOp.apply, hstep, net.archived_rebuild]
    | cleanup =>
      rcases Infonet.cleanup_cases (a.env env) a.call net with
        hsame | ⟨kept, -, -, ⟨-, hstep⟩ | ⟨-, hstep⟩⟩
      · simp [ChainOp.apply, hsame]
      · simpa [ChainOp.apply, hstep] using net.archived_prefix_replaced _ _ _
      · simp [ChainOp.apply, hstep, net.archived_rebuild]
    | resetChain => exact List.prefix_refl _
    | _ => rw [hop] at hreplace; exact hreplace.elim
  · have hadvances : Advances (a.env env) a.call net (chainStep env net a) :=
      chainStep_advances (fun _ _ _ _ hop => hreplace (by rw [hop]; trivial))
        (fun hop => hreplace (by rw [hop]; trivial)) fun hop => hreplace (by rw [hop]; trivial)
    exact ⟨hadvances.grows.2, fun _ => hadvances.grows.1⟩

/-- The archive stays; only forks, cleanups and resets take events out of the history. -/
theorem run_chain_grows (actions : List ChainAction) :
    net.archived <+: (run (chainStep env) net actions).archived ∧
      ((∀ a ∈ actions, ¬ a.op.Replaces) →
        net.history <+: (run (chainStep env) net actions).history) := by
  induction actions generalizing net with
  | nil => exact ⟨List.prefix_refl _, fun _ => List.prefix_refl _⟩
  | cons a actions ih =>
    obtain ⟨harchive, hhistory⟩ := chainStep_grows env net a
    obtain ⟨hrest, hrun⟩ := ih (chainStep env net a)
    exact ⟨harchive.trans hrest, fun hkeep => (hhistory (hkeep a List.mem_cons_self)).trans
      (hrun fun b hb => hkeep b (List.mem_cons_of_mem a hb))⟩

end

end Vincent.Mesh
