-- SUMMARY: Which runs never accept a revoked key again.
import Vincent.Mesh.Lifetime

/-!
# Permanence of revocations

An event of a revoked key is refused once the grace period of its entry is over.
`Bars` says that the entry ends its grace no later than a given revocation; while the
table bars all accepted ones, none is undone.
-/

namespace Vincent.Mesh

open Vincent.Python Vincent.Check Vincent.Run

/-- The event is a `key_revoke` with this entry. -/
def Revokes (rt : Runtime) (e : ChainEvent) (info : Revocation) : Prop :=
  e.eventType = "key_revoke" ∧ revocationInfo rt e = .ok (some info)

/-- After a revocation and its grace period, no event of the key is accepted that is not
    a `key_revoke` itself. -/
def RevokedForGood (rt : Runtime) (s : Machine) : Prop :=
  ∀ pre e now post, s.accepted = pre ++ (e, now) :: post → e.eventType ≠ "key_revoke" →
    ∀ revoke ∈ pre, ∀ info, Revokes rt revoke.1 info → info.publicKey = e.publicKey →
      ¬ (info.graceUntil : ℚ) < now

/-- The entry of the key ends its grace no later than this one. -/
def Bars (table : String → Option Revocation) (info : Revocation) : Prop :=
  ∃ stored, table info.publicKey = some stored ∧ stored.graceUntil ≤ info.graceUntil

/-- Of the entry of the event and that of the table, the one whose grace ends first stays. -/
def KeepsGrace (rt : Runtime) (table : String → Option Revocation) (e : ChainEvent) : Prop :=
  ∀ info stored, Revokes rt e info → table info.publicKey = some stored →
    (stored.revokedAt ≤ info.revokedAt → info.graceUntil ≤ stored.graceUntil) ∧
    (info.revokedAt < stored.revokedAt → stored.graceUntil ≤ info.graceUntil)

/-- The action undoes no accepted revocation, and takes no event of a key that its fork revokes. -/
def KeepsRevocations (env : Env) (codec : Codec) (s : Machine) : MachineAction → Prop
  | .op a _ => a.op ≠ .resetChain ∧
    ((∀ hot, ¬ a.Replaces env s.net hot) → ∀ pre e post, takenIn env s.net a = pre ++ e :: post →
      KeepsGrace env.rt (pre.foldl (addRevocation env.rt) s.net.revocations) e) ∧
    ∀ hot, a.Replaces env s.net hot →
      (∀ e ∈ hot, Rebuildable env.rt e) ∧
      (∀ pre e post, takenIn env s.net a = pre ++ e :: post → e.eventType ≠ "key_revoke" →
        ∀ revoke ∈ pre, ∀ info, Revokes env.rt revoke info → info.publicKey = e.publicKey →
          ¬ (info.graceUntil : ℚ) < a.call.now) ∧
      ∀ revoke ∈ s.accepted.map Prod.fst ++ takenIn env s.net a, ∀ info,
        Revokes env.rt revoke info → Bars (revocationTable env.rt hot) info
  | .flush => True
  | .restart call call' => ∃ tail, Recovers env codec call call' s.disk tail ∧
    ∀ revoke ∈ s.accepted.map Prod.fst, ∀ info, Revokes env.rt revoke info →
      Bars (revocationTable env.rt (s.disk.file.events ++ tail)) info

/-! ## The table -/

section
variable {rt : Runtime} {table : String → Option Revocation} {e : ChainEvent} {info : Revocation}

theorem addRevocation_of_revokes (h : Revokes rt e info) :
    addRevocation rt table e = recordRevocation table info := by
  simp only [addRevocation, h.1, h.2, if_true]

theorem addRevocation_of_not (h : ∀ info, ¬ Revokes rt e info) : addRevocation rt table e = table := by
  unfold addRevocation
  split
  · rename_i htype
    split
    · rename_i info hinfo
      exact absurd ⟨htype, hinfo⟩ (h info)
    · rfl
  · rfl

/-- The table bars a new entry that keeps the grace. -/
theorem bars_recordRevocation (hkeeps : ∀ stored, table info.publicKey = some stored →
    info.revokedAt < stored.revokedAt → stored.graceUntil ≤ info.graceUntil) :
    Bars (recordRevocation table info) info := by
  unfold recordRevocation
  split
  · exact ⟨info, by simp, le_rfl⟩
  · rename_i hnewer
    cases hstored : table info.publicKey with
    | none => simp [hstored] at hnewer
    | some stored =>
      simp only [hstored, Option.all_some, decide_eq_true_eq, not_le] at hnewer
      exact ⟨stored, hstored, hkeeps stored hstored hnewer⟩

theorem Bars.recordRevocation {old : Revocation} (h : Bars table old)
    (hkeeps : ∀ stored, table info.publicKey = some stored →
      stored.revokedAt ≤ info.revokedAt → info.graceUntil ≤ stored.graceUntil) :
    Bars (recordRevocation table info) old := by
  obtain ⟨stored, hstored, hle⟩ := h
  unfold Mesh.recordRevocation
  split
  · rename_i hnewer
    by_cases hkey : old.publicKey = info.publicKey
    · rw [hkey] at hstored
      simp only [hstored, Option.all_some, decide_eq_true_eq] at hnewer
      refine ⟨info, ?_, (hkeeps stored hstored hnewer).trans hle⟩
      rw [hkey, Function.update_self]
    · exact ⟨stored, by rw [Function.update_of_ne hkey, hstored], hle⟩
  · exact ⟨stored, hstored, hle⟩

/-- An event that keeps the grace leaves every bar in place, and adds its own. -/
theorem KeepsGrace.bars (hkeeps : KeepsGrace rt table e) :
    (∀ old, Bars table old → Bars (addRevocation rt table e) old) ∧
      ∀ info, Revokes rt e info → Bars (addRevocation rt table e) info := by
  refine ⟨fun old hold => ?_, fun info hinfo => ?_⟩
  · by_cases hrevokes : ∃ info, Revokes rt e info
    · obtain ⟨info, hinfo⟩ := hrevokes
      rw [addRevocation_of_revokes hinfo]
      exact hold.recordRevocation fun stored hstored => (hkeeps info stored hinfo hstored).1
    · rw [addRevocation_of_not (not_exists.mp hrevokes)]
      exact hold
  · rw [addRevocation_of_revokes hinfo]
    exact bars_recordRevocation fun stored hstored => (hkeeps info stored hinfo hstored).2

/-- A ledger whose table bars the revocation refuses its key after the grace period. -/
theorem Bars.revoked {net : Infonet} (h : Bars net.revocations info) {now : ℚ}
    (hover : (info.graceUntil : ℚ) < now) : net.revoked now info.publicKey = true := by
  obtain ⟨stored, hstored, hle⟩ := h
  unfold Infonet.revoked
  rw [hstored, Option.any_some, decide_eq_true_eq]
  exact lt_of_le_of_lt (Int.cast_le.mpr hle) hover

end

/-! ## The life of a node -/

/-- Every accepted revocation is barred, and none has been ignored. -/
structure Barred (rt : Runtime) (accepted : List (ChainEvent × ℚ)) (net : Infonet) : Prop where
  barred : ∀ revoke ∈ accepted, ∀ info, Revokes rt revoke.1 info → Bars net.revocations info
  heeded : RevokedForGood rt { net := net, accepted := accepted }

section
variable {env : Env} {call : Call} {net net' : Infonet} {accepted : List (ChainEvent × ℚ)}
  {new : List ChainEvent}

/-- One more event, of a key that was not revoked or of type `key_revoke`, ignores no
    revocation. -/
theorem RevokedForGood.concat {rt : Runtime} {s : Machine} {e : ChainEvent} {now : ℚ}
    (h : RevokedForGood rt s) (hlast : e.eventType ≠ "key_revoke" → ∀ revoke ∈ s.accepted,
      ∀ info, Revokes rt revoke.1 info → info.publicKey = e.publicKey →
        ¬ (info.graceUntil : ℚ) < now) :
    RevokedForGood rt { s with accepted := s.accepted ++ [(e, now)] } := by
  intro pre e' now' post hsplit
  rcases List.eq_nil_or_concat' post with rfl | ⟨post, last, rfl⟩
  · obtain ⟨rfl, hend⟩ : s.accepted = pre ∧ [(e, now)] = [(e', now')] :=
      List.append_inj' hsplit rfl
    obtain ⟨rfl, rfl⟩ : e = e' ∧ now = now' := by simpa using hend
    exact hlast
  · have hsplit' : s.accepted ++ [(e, now)] = (pre ++ (e', now') :: post) ++ [last] := by
      simpa using hsplit
    exact h pre e' now' post (List.append_inj' hsplit' rfl).1

theorem Barred.takes (h : Barred env.rt accepted net) (htakes : Takes env call net new net')
    (hkeeps : ∀ pre e post, new = pre ++ e :: post →
      KeepsGrace env.rt (pre.foldl (addRevocation env.rt) net.revocations) e) :
    Barred env.rt (accepted ++ new.map fun e => (e, call.now)) net' := by
  induction htakes with
  | refl => simpa using h
  | frame _ _ _ hrevocations ih =>
    obtain ⟨hbarred, hheeded⟩ := ih hkeeps
    exact ⟨fun revoke hmem info hinfo => hrevocations ▸ hbarred revoke hmem info hinfo, hheeded⟩
  | @accept new m e htakes haccepted ih =>
    have hbefore := ih fun pre e' post hsplit => hkeeps pre e' (post ++ [e]) (by simp [hsplit])
    have hgrace := hkeeps new e [] rfl
    rw [← htakes.revocations] at hgrace
    obtain ⟨hstay, hown⟩ := hgrace.bars
    rw [List.map_append, List.map_singleton, ← List.append_assoc]
    refine ⟨fun revoke hmem info hinfo => ?_, ?_⟩
    · rw [Infonet.commit_revocations]
      rcases List.mem_append.mp hmem with hold | hlast
      · exact hstay info (hbefore.barred revoke hold info hinfo)
      · rw [List.mem_singleton.mp hlast] at hinfo
        exact hown info hinfo
    · refine hbefore.heeded.concat fun htype revoke hmem info hinfo hkey hover => htype ?_
      refine haccepted.notRevoked ?_
      rw [← hkey]
      exact (hbefore.barred revoke hmem info hinfo).revoked hover

/-- A fork has no event of a key that the ledger knows as revoked. -/
theorem notRevoked_of_checkForkEvents {prevIndex : Nat} {es : List ChainEvent}
    {maps maps' : ForkMaps} (h : net.checkForkEvents env call prevIndex es maps = .ok maps') :
    ∀ e ∈ es, net.revoked call.now e.publicKey = true → e.eventType = "key_revoke" := by
  induction es generalizing maps with
  | nil => simp
  | cons e es ih =>
    simp only [Infonet.checkForkEvents, bind_eq_ok] at h
    obtain ⟨maps₁, hcheck, hrest⟩ := h
    refine List.forall_mem_cons.mpr ⟨?_, ih hrest⟩
    unfold Infonet.checkForkEvent at hcheck
    simp only [↓check_bind_eq_ok, bind_eq_ok, orFail_eq_ok, require_eq_ok, pure_eq_ok] at hcheck
    obtain ⟨_, _, _, _, _, _, _, _, _, _, _, _, hrevoked, _⟩ := hcheck
    intro hbarred
    by_contra htype
    exact hrevoked ⟨hbarred, htype⟩

theorem notRevoked_of_replaces {a : ChainAction} {hot : List ChainEvent}
    (h : a.Replaces env net hot) : ∀ e ∈ takenIn env net a,
      net.revoked a.call.now e.publicKey = true → e.eventType = "key_revoke" := by
  rcases h with ⟨events, headHash, proofCount, quorum, plan, hop, hcheck, -⟩ | ⟨hop, -, -⟩
  · have htaken : takenIn env net a = plan.ordered := by
      simp only [takenIn, hop, hcheck]
    obtain ⟨_, _, _, _, _, _, hforked⟩ := Infonet.checkFork_eq_ok hcheck
    rw [htaken]
    exact notRevoked_of_checkForkEvents hforked
  · simp [takenIn, hop]

/-- Events that ignore neither an accepted revocation nor one among themselves. -/
theorem RevokedForGood.append {rt : Runtime} {s : Machine} {now : ℚ} (h : RevokedForGood rt s)
    (hold : ∀ e ∈ new, e.eventType ≠ "key_revoke" → ∀ revoke ∈ s.accepted, ∀ info,
      Revokes rt revoke.1 info → info.publicKey = e.publicKey → ¬ (info.graceUntil : ℚ) < now)
    (hnew : ∀ pre e post, new = pre ++ e :: post → e.eventType ≠ "key_revoke" → ∀ revoke ∈ pre,
      ∀ info, Revokes rt revoke info → info.publicKey = e.publicKey →
        ¬ (info.graceUntil : ℚ) < now) :
    RevokedForGood rt { s with accepted := s.accepted ++ new.map fun e => (e, now) } := by
  induction new using List.reverseRecOn with
  | nil => simpa using h
  | append_singleton new e ih =>
    have hbefore := ih (fun e' he' => hold e' (List.mem_append_left _ he'))
      fun pre e' post hsplit => hnew pre e' (post ++ [e]) (by simp [hsplit])
    rw [List.map_append, List.map_singleton, ← List.append_assoc]
    refine hbefore.concat fun htype revoke hmem info hinfo hkey => ?_
    rcases List.mem_append.mp hmem with hacc | hfork
    · exact hold e (by simp) htype revoke hacc info hinfo hkey
    · obtain ⟨e', he', rfl⟩ := List.mem_map.mp hfork
      exact hnew new e [] rfl htype e' he' info hinfo hkey

end

section
variable {env : Env} {codec : Codec} {s : Machine}

theorem barred_step (h : Barred env.rt s.accepted s.net) (action : MachineAction)
    (hkeeps : KeepsRevocations env codec s action) :
    Barred env.rt (machineStep env codec s action).accepted (machineStep env codec s action).net := by
  cases action with
  | flush =>
    have hrevocations : (s.net.flush codec s.disk).1.revocations = s.net.revocations := by
      unfold Infonet.flush
      split
      · split <;> rfl
      · rfl
    exact ⟨fun revoke hmem info hinfo => hrevocations ▸ h.barred revoke hmem info hinfo, h.heeded⟩
  | restart call call' =>
    obtain ⟨tail, hrecovers, hbars⟩ := hkeeps
    have hrevocations := (restored_load hrecovers).revocations
    refine ⟨fun revoke hmem info hinfo => ?_, h.heeded⟩
    show Bars (Infonet.load env codec call call' s.disk).1.revocations info
    rw [hrevocations]
    exact hbars revoke.1 (List.mem_map_of_mem hmem) info hinfo
  | op a logged =>
    obtain ⟨hreset, hgrace, hreplaces⟩ := hkeeps
    show Barred env.rt (s.accepted ++ (takenIn env s.net a).map fun e => (e, a.call.now))
      (chainStep env s.net a)
    rcases chainStep_takes_or_restores hreset (fun hot hhot => (hreplaces hot hhot).1) with
      ⟨hnone, htakes⟩ | ⟨hot, hhot, hrestored⟩
    · have hsame : Barred (a.env env).rt s.accepted s.net := h
      exact hsame.takes htakes (hgrace hnone)
    · obtain ⟨-, hfork, hbars⟩ := hreplaces hot hhot
      refine ⟨fun revoke hmem info hinfo => ?_, ?_⟩
      · rw [hrestored.revocations]
        refine hbars revoke.1 ?_ info hinfo
        rcases List.mem_append.mp hmem with hacc | hnew
        · exact List.mem_append_left _ (List.mem_map_of_mem hacc)
        · obtain ⟨e, he, rfl⟩ := List.mem_map.mp hnew
          exact List.mem_append_right _ he
      · refine h.heeded.append (fun e he htype revoke hmem info hinfo hkey hover => htype ?_) hfork
        refine notRevoked_of_replaces hhot e he ?_
        rw [← hkey]
        exact (h.barred revoke hmem info hinfo).revoked hover

end

/-- Where grace periods are kept, a revoked key is not accepted after its own, but to revoke. -/
theorem revoked_for_good (env : Env) (codec : Codec) (start : Call) (actions : List MachineAction)
    (hrun : Along (machineStep env codec) (KeepsRevocations env codec) { net := .empty start }
      actions) :
    RevokedForGood env.rt (run (machineStep env codec) { net := .empty start } actions) := by
  have hstart : Barred env.rt [] (.empty start) :=
    ⟨by simp, fun pre e now post hsplit => by simp at hsplit⟩
  have hstep : ∀ s a, Barred env.rt s.accepted s.net → KeepsRevocations env codec s a →
      Barred env.rt (machineStep env codec s a).accepted (machineStep env codec s a).net :=
    fun s a h hkeeps => barred_step h a hkeeps
  exact (invariant hstep hstart hrun).heeded

/-- A key is revoked, and signs one more message within its grace period. -/
def graceRun : List MachineAction :=
  [.op ⟨callAt 1700000000, false, .append (keyRevokeCall 1 1700000000)⟩ true,
    .op ⟨callAt 1700000010, false, .append (broadcastCall 2)⟩ true, .flush]

/-- The revocation of a key that is not revoked yet, and events of other types, keep the
    grace. -/
theorem keepsRevocations_of_first {env : Env} {codec : Codec} {s : Machine} {a : ChainAction}
    {logged : Bool} (hfork : ∀ hot, ¬ a.Replaces env s.net hot) (hreset : a.op ≠ .resetChain)
    (hfirst : (takenIn env s.net a).all (fun e => e.eventType != "key_revoke") = true ∨
      (takenIn env s.net a).length = 1 ∧ s.net.revocations = fun _ => none) :
    KeepsRevocations env codec s (.op a logged) := by
  refine ⟨hreset, fun _ pre e post hsplit info stored hinfo hstored => ?_,
    fun hot hhot => absurd hhot (hfork hot)⟩
  rcases hfirst with hother | ⟨hone, hnone⟩
  · rw [hsplit] at hother
    simp [hinfo.1] at hother
  · rw [hsplit] at hone
    have hpre : pre = [] := by
      simp only [List.length_append, List.length_cons] at hone
      exact List.length_eq_zero_iff.mp (by omega)
    rw [hpre, hnone] at hstored
    cases hstored

theorem revoked_for_good_grace :
    RevokedForGood asciiRuntime (run (machineStep plainEnv ⟨some⟩) { net := .empty (callAt 1) }
      graceRun) := by
  refine revoked_for_good plainEnv ⟨some⟩ (callAt 1) graceRun ?_
  refine (along_cons ..).mpr ⟨keepsRevocations_of_first (by simp [ChainAction.Replaces]) (by simp)
    (.inr ⟨by decide +kernel, rfl⟩), (along_cons ..).mpr ⟨keepsRevocations_of_first
    (by simp [ChainAction.Replaces]) (by simp) (.inl (by decide +kernel)), trivial, trivial⟩⟩

/-- The key is revoked again after its grace period: it gets another one, and signs in it. -/
def secondGraceRun : List MachineAction :=
  [.op ⟨callAt 1700000000, false, .append (keyRevokeCall 1 1700000000)⟩ true,
    .op ⟨callAt 1700010000, false, .append (keyRevokeCall 2 1700010000)⟩ true,
    .op ⟨callAt 1700010010, false, .append (broadcastCall 3)⟩ true]

theorem not_revoked_for_good : ¬ ∀ (env : Env) (codec : Codec) (start : Call)
    (actions : List MachineAction),
    RevokedForGood env.rt (run (machineStep env codec) { net := .empty start } actions) := by
  intro hclaim
  have hheeded := hclaim plainEnv ⟨some⟩ (callAt 1) secondGraceRun
  have hrun : onCons (run (machineStep plainEnv ⟨some⟩) { net := .empty (callAt 1) }
      secondGraceRun).accepted (fun revoke rest => onCons rest fun _ rest =>
      onSingle rest fun message => revoke.1.eventType == "key_revoke" &&
        message.1.eventType != "key_revoke" &&
        okAnd (revocationInfo asciiRuntime revoke.1) fun info => info.any fun info =>
          info.publicKey == message.1.publicKey && decide ((info.graceUntil : ℚ) < message.2)) =
      true := by
    decide +kernel
  generalize run (machineStep plainEnv ⟨some⟩) { net := .empty (callAt 1) } secondGraceRun = s
    at hheeded hrun
  obtain ⟨revoke, _, heq, hrest⟩ := onCons_iff.mp hrun
  obtain ⟨again, _, rfl, hlast⟩ := onCons_iff.mp hrest
  obtain ⟨message, rfl, hrun⟩ := onSingle_iff.mp hlast
  simp only [Bool.and_eq_true, beq_iff_eq, bne_iff_ne, ne_eq, okAnd_iff, Option.any_eq_true,
    decide_eq_true_eq] at hrun
  obtain ⟨⟨hrevoke, hmessage⟩, _, hinfo, info, rfl, hkey, hover⟩ := hrun
  exact hheeded [revoke, again] message.1 message.2 [] heq hmessage revoke (by simp) info
    ⟨hrevoke, hinfo⟩ hkey hover

end Vincent.Mesh
