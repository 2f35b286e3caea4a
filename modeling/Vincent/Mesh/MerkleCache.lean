-- SUMMARY: When the served root and proofs are those of the chain.
import Vincent.Mesh.MerkleRoots
import Vincent.Mesh.Operations
import Vincent.Mesh.Refused

/-!
# The Merkle cache

The levels of the tree are kept with the number of events that they were built
from, and thrown away by whatever changes the chain. A batch, a fork or a cleanup
that raises half-way has changed the chain and does not come to that point.
-/

namespace Vincent.Mesh

open Vincent.Python Vincent.Check Vincent.Run

/-! ## Operations -/

namespace Infonet

/-- The ids of the hot chain. -/
def eventIds (net : Infonet) : List String := net.events.map (·.eventId)

/-- `_enforce_memory_cap`, which rebuilds the counters before it drops the Merkle levels. -/
def spill (env : Env) (net : Infonet) : Infonet × Except String Unit :=
  if net.events.length ≤ maxChainMemory then (net, .ok ())
  else
    match rebuildCounters env.rt net.enforceMemoryCap.events with
    | .ok () => (net.enforceMemoryCap, .ok ())
    | .error exn =>
      ({ net.enforceMemoryCap with
          merkleLevelsCache := net.merkleLevelsCache
          merkleLevelsForEventCount := net.merkleLevelsForEventCount
          dirty := net.dirty }, .error exn)

def annotateEvent (env : Env) (net : Infonet) (eventId : String) (metadata : PyVal) :
    Infonet × Except String Bool :=
  match net.eventIndex eventId with
  | none => (net, .ok false)
  | some idx =>
    if net.events.length ≤ idx then (net, .ok false)
    else
      let annotate (e : ChainEvent) : ChainEvent :=
        { e with extra := Dict.set e.extra "meta" metadata }
      match spill env { net with events := net.events.modify idx annotate } with
      | (net, .error exn) => (net, .error exn)
      | (net, .ok ()) => ({ net with dirty := true }, .ok true)

end Infonet

/-- The operations that change the chain or read its tree. -/
inductive TreeOp where
  | op (a : ChainAction)
  | spill
  | annotateEvent (eventId : String) (metadata : PyVal)
  | getMerkleRoot
  | getMerkleProofs (startIndex count : Int)

/-- The operation returned, where it can raise after it has changed the chain. -/
def ChainOp.returns (env : Env) (call : Call) (net : Infonet) : ChainOp → Bool
  | .append c => (net.append env call c).2.isOk
  | .ingestEvents items => (net.ingestEvents env call items).2.isOk
  | .applyFork events headHash proofCount quorum =>
    (net.applyFork env call events headHash proofCount quorum).2.isOk
  | .cleanup => (net.cleanup env call).2.isOk
  | .resetChain => true
  | .save => true

def TreeOp.returns (env : Env) (net : Infonet) : TreeOp → Bool
  | .op a => a.op.returns (a.env env) a.call net
  | .spill => (net.spill env).2.isOk
  | .annotateEvent eventId metadata => (net.annotateEvent env eventId metadata).2.isOk
  | .getMerkleRoot => true
  | .getMerkleProofs _ _ => true

def treeStep (env : Env) (net : Infonet) : TreeOp → Infonet
  | .op a => chainStep env net a
  | .spill => (net.spill env).1
  | .annotateEvent eventId metadata => (net.annotateEvent env eventId metadata).1
  | .getMerkleRoot => (net.getMerkleRoot env).1
  | .getMerkleProofs startIndex count => (net.getMerkleProofs env startIndex.toNat count.toNat).1

/-- The root and the proofs that the ledger serves are those of its chain. -/
structure ServesTree (env : Env) (net : Infonet) : Prop where
  root : (net.getMerkleRoot env).2 =
    if net.events = [] then genesisHash else merkleRoot env net.eventIds
  proofs : ∀ startIndex count : Int, ∃ page,
    (net.getMerkleProofs env startIndex.toNat count.toNat).2 = some page ∧
      ∀ p ∈ page.proofs, verifyMerkleProof env p.leaf p.index p.proof (net.getMerkleRoot env).2 = true

/-- An operation that raises with the chain changed leaves another number of events than the cache
has. -/
def Undisturbed (env : Env) (net : Infonet) (a : TreeOp) : Prop :=
  a.returns env net = false → (treeStep env net a).events ≠ net.events →
    ((treeStep env net a).events.length : Int) ≠ net.merkleLevelsForEventCount

/-! ## Fresh caches -/

/-- Where the cache counts as many events as there are, its levels are those of the chain. -/
def FreshTree (env : Env) (net : Infonet) : Prop :=
  net.events ≠ [] → net.merkleLevelsForEventCount = net.events.length →
    ∀ levels, net.merkleLevelsCache = some levels → levels = buildMerkleLevels env net.eventIds

/-- The cache is the one of the other ledger. -/
structure SameCache (net' net : Infonet) : Prop where
  levels : net'.merkleLevelsCache = net.merkleLevelsCache
  count : net'.merkleLevelsForEventCount = net.merkleLevelsForEventCount

theorem SameCache.refl (net : Infonet) : SameCache net net := ⟨rfl, rfl⟩

theorem SameCache.trans {a b c : Infonet} (hab : SameCache a b) (hbc : SameCache b c) :
    SameCache a c :=
  ⟨hab.levels.trans hbc.levels, hab.count.trans hbc.count⟩

section
variable {env : Env} {call : Call} {net net' : Infonet}

theorem freshTree_of_none (h : net.merkleLevelsCache = none) : FreshTree env net := by
  intro _ _ levels hlevels
  rw [h] at hlevels
  cases hlevels

theorem freshTree_of_count (h : (net.events.length : Int) ≠ net.merkleLevelsForEventCount) :
    FreshTree env net :=
  fun _ hcount => absurd hcount.symm h

/-- A chain with the same ids keeps its cache fresh. -/
theorem FreshTree.of_same (h : FreshTree env net) (hcache : SameCache net' net)
    (hids : net'.eventIds = net.eventIds) : FreshTree env net' := by
  have hlength : net'.events.length = net.events.length := by
    simpa [Infonet.eventIds] using congrArg List.length hids
  intro hne hcount levels hlevels
  rw [hids]
  refine h ?_ ?_ levels (hcache.levels ▸ hlevels)
  · intro hnil
    rw [hnil, List.length_nil] at hlength
    exact hne (List.length_eq_zero_iff.mp hlength)
  · rw [← hcache.count, hcount, hlength]

theorem save_none (h : net.merkleLevelsCache = none) : net.save.merkleLevelsCache = none := by
  unfold Infonet.save Infonet.enforceMemoryCap
  split
  · exact h
  · rfl

/-- A memory cap keeps the chain and the cache, or drops the cache. -/
theorem enforceMemoryCap_tree (net : Infonet) :
    (SameCache net.enforceMemoryCap net ∧ net.enforceMemoryCap.events = net.events) ∨
      net.enforceMemoryCap.merkleLevelsCache = none := by
  unfold Infonet.enforceMemoryCap
  split
  · exact .inl ⟨SameCache.refl net, rfl⟩
  · exact .inr rfl

/-! ## What an operation does to the cache -/

/-- Keep the ids and the cache, drop the cache, or raise with the chain changed and the cache
kept. -/
inductive Treats (returns : Bool) (net : Infonet) : Infonet → Prop
  | keep {net' : Infonet} (hcache : SameCache net' net) (hids : net'.eventIds = net.eventIds) :
    Treats returns net net'
  | drop {net' : Infonet} (hnone : net'.merkleLevelsCache = none) : Treats returns net net'
  | disturb {net' : Infonet} (hraised : returns = false) (hcache : SameCache net' net) :
    Treats returns net net'

/-- The cache stays fresh unless it happens to count the events of a disturbed chain. -/
theorem FreshTree.treats {returns : Bool} (h : FreshTree env net) (ht : Treats returns net net')
    (hcond : returns = false → net'.events ≠ net.events →
      (net'.events.length : Int) ≠ net.merkleLevelsForEventCount) : FreshTree env net' := by
  cases ht with
  | keep hcache hids => exact h.of_same hcache hids
  | drop hnone => exact freshTree_of_none hnone
  | disturb hraised hcache =>
    by_cases hevents : net'.events = net.events
    · exact h.of_same hcache (congrArg (List.map ChainEvent.eventId) hevents)
    · exact freshTree_of_count (hcache.count.symm ▸ hcond hraised hevents)

theorem commit_cache (e : ChainEvent) : SameCache (net.commit env call e) net := by
  unfold Infonet.commit Infonet.recordEvent Infonet.withRevocation Infonet.setSequence
  simp only
  split <;> exact ⟨rfl, rfl⟩

theorem treats_append (c : AppendCall) :
    Treats (net.append env call c).2.isOk net (net.append env call c).1 := by
  cases happend : net.append env call c with
  | mk net' outcome =>
    cases outcome with
    | ok e =>
      obtain ⟨p, -, -, rfl⟩ := Infonet.append_eq_ok happend
      exact .drop (save_none rfl)
    | error fault =>
      have hprepared : SameCache net' net ∧ net'.eventIds = net.eventIds := by
        unfold Infonet.append at happend
        split at happend
        · rename_i hprepare
          cases happend
          unfold AppendCall.prepare at hprepare
          split at hprepare
          · cases hprepare
            exact ⟨SameCache.refl net, rfl⟩
          · split at hprepare
            · cases hprepare
              exact ⟨SameCache.refl net, rfl⟩
            · rename_i hbind
              obtain ⟨-, -, -, rfl⟩ := Infonet.bindPublicKey_eq_ok.mp hbind
              split at hprepare <;> cases hprepare
              exact ⟨⟨rfl, rfl⟩, rfl⟩
        · rename_i hprepare
          obtain ⟨happ, rfl⟩ := AppendCall.prepare_eq_ok hprepare
          rw [happ.commitAppend] at happend
          cases happend
      exact .keep hprepared.1 hprepared.2

/-- The loop of a batch keeps the cache, and the chain where it accepts nothing. -/
theorem ingestLoop_cache {items : List WireItem} {idx : Nat} {prev : String}
    {result : IngestResult} {net net' : Infonet} {outcome : Except String IngestResult}
    (h : Infonet.ingestLoop env call items idx prev result net = (net', outcome)) :
    SameCache net' net ∧ ∀ result', outcome = .ok result' →
      result.accepted ≤ result'.accepted ∧
        (result'.accepted = result.accepted → net'.eventIds = net.eventIds) := by
  induction items generalizing idx prev result net with
  | nil =>
    cases h
    refine ⟨⟨rfl, rfl⟩, ?_⟩
    rintro result' ⟨⟩
    exact ⟨le_refl _, fun _ => rfl⟩
  | cons item items ih =>
    rcases @ingestItem_cases env call net prev item with
      ⟨e, rfl, -, -, hitem⟩ | ⟨skip, kept, hitem, hrefused⟩
    · simp only [Infonet.ingestLoop, hitem] at h
      obtain ⟨hcache, hcount⟩ := ih h
      refine ⟨hcache.trans (commit_cache e), fun result' hok => ?_⟩
      obtain ⟨hle, -⟩ := hcount result' hok
      rw [IngestResult.accept] at hle
      simp only at hle
      exact ⟨by omega, fun heq => by omega⟩
    · obtain ⟨filter, bindings, rfl⟩ := hrefused.kept_eq
      simp only [Infonet.ingestLoop, hitem] at h
      split at h
      · cases h
        exact ⟨⟨rfl, rfl⟩, fun result' hok => by cases hok⟩
      · rename_i hskip
        obtain ⟨hcache, hcount⟩ := ih h
        refine ⟨hcache.trans ⟨rfl, rfl⟩, fun result' hok => ?_⟩
        rw [← IngestResult.skip_accepted hskip]
        exact hcount result' hok

theorem treats_ingestEvents (items : List WireItem) :
    Treats (net.ingestEvents env call items).2.isOk net (net.ingestEvents env call items).1 := by
  unfold Infonet.ingestEvents
  split
  · rename_i hloop
    exact .disturb rfl (ingestLoop_cache hloop).1
  · rename_i result hloop
    obtain ⟨hcache, hcount⟩ := ingestLoop_cache hloop
    obtain ⟨-, hsame⟩ := hcount result rfl
    split
    · exact .drop (save_none rfl)
    · rename_i hnone
      exact .keep hcache (hsame (by simp only at hnone ⊢; omega))

theorem rebuildEvent_cache (env : Env) (call : Call) (net : Infonet) (idx : Nat) (e : ChainEvent) :
    SameCache (net.rebuildEvent env call idx e).1 net := by
  have hindex : SameCache (net.indexEvent env call idx e) net := by
    unfold Infonet.indexEvent
    split <;> exact ⟨rfl, rfl⟩
  have hbound : ∀ n, SameCache (((net.indexEvent env call idx e).raiseSequence env.rt e n).bindFirst
      e) net := by
    intro n
    refine SameCache.trans ?_ hindex
    unfold Infonet.raiseSequence Infonet.bindFirst Infonet.setSequence
    simp only
    split_ifs <;> (try split) <;> exact ⟨rfl, rfl⟩
  unfold Infonet.rebuildEvent
  split
  · exact hindex
  · rename_i n _
    simp only
    split
    · exact hbound n
    · rename_i happly
      obtain ⟨-, rfl⟩ := Infonet.applyIfRevocation_eq_ok.mp happly
      refine SameCache.trans ?_ (hbound n)
      unfold Infonet.withRevocation
      exact ⟨rfl, rfl⟩

theorem rebuildLoop_cache (env : Env) (call : Call) (es : List ChainEvent) (idx : Nat) (net : Infonet) :
    SameCache (Infonet.rebuildLoop env call es idx net).1 net := by
  induction es generalizing idx net with
  | nil => exact SameCache.refl net
  | cons e es ih =>
    have hevent := rebuildEvent_cache env call net idx e
    unfold Infonet.rebuildLoop
    split
    · rename_i hfail
      rw [hfail] at hevent
      exact hevent
    · rename_i hok
      rw [hok] at hevent
      exact (ih _ _).trans hevent

theorem rebuild_cache (env : Env) (call : Call) (net : Infonet) :
    SameCache (Infonet.rebuild env call net).1 net := by
  have hloop := rebuildLoop_cache env call net.events 0 (net.clearTables call)
  unfold Infonet.rebuild Infonet.rebuildState
  cases hrun : Infonet.rebuildLoop env call net.events 0 (net.clearTables call) with
  | mk net' outcome =>
    rw [hrun] at hloop
    have hclear : SameCache (net.clearTables call) net := ⟨rfl, rfl⟩
    cases outcome with
    | error exn => exact hloop.trans hclear
    | ok _ =>
      have hbefore := hloop.trans hclear
      exact ⟨hbefore.levels, hbefore.count⟩

theorem treats_applyFork (events : List ChainEvent) (headHash : String) (proofCount quorum : Int) :
    Treats (net.applyFork env call events headHash proofCount quorum).2.isOk net
      (net.applyFork env call events headHash proofCount quorum).1 := by
  unfold Infonet.applyFork
  split
  · exact .keep (SameCache.refl net) rfl
  · exact .keep (SameCache.refl net) rfl
  · rename_i plan _
    have hcache := rebuild_cache env call
      { net with events := net.events.take (plan.prevIndex + 1) ++ plan.ordered }
    simp only
    split
    · rename_i hrebuild
      rw [hrebuild] at hcache
      exact .disturb rfl ⟨hcache.levels, hcache.count⟩
    · exact .drop (save_none rfl)

theorem treats_cleanup : Treats (net.cleanup env call).2.isOk net (net.cleanup env call).1 := by
  unfold Infonet.cleanup
  split
  · exact .keep (SameCache.refl net) rfl
  · rename_i kept _
    split
    · exact .keep (SameCache.refl net) rfl
    · have hcache := rebuild_cache env call { net with events := kept }
      split
      · rename_i hrebuild
        rw [hrebuild] at hcache
        exact .disturb rfl ⟨hcache.levels, hcache.count⟩
      · exact .drop (save_none rfl)

theorem treats_save : Treats true net net.save := by
  rcases enforceMemoryCap_tree net with ⟨hcache, hevents⟩ | hnone
  · exact .keep ⟨hcache.levels, hcache.count⟩ (congrArg (List.map ChainEvent.eventId) hevents)
  · exact .drop hnone

theorem treats_spill (env : Env) (net : Infonet) :
    Treats (net.spill env).2.isOk net (net.spill env).1 := by
  unfold Infonet.spill
  split
  · exact .keep (SameCache.refl net) rfl
  · split
    · rcases enforceMemoryCap_tree net with ⟨hcache, hevents⟩ | hnone
      · exact .keep hcache (congrArg (List.map ChainEvent.eventId) hevents)
      · exact .drop hnone
    · exact .disturb rfl ⟨rfl, rfl⟩

theorem treats_annotateEvent (eventId : String) (metadata : PyVal) :
    Treats (net.annotateEvent env eventId metadata).2.isOk net
      (net.annotateEvent env eventId metadata).1 := by
  unfold Infonet.annotateEvent
  split
  · exact .keep (SameCache.refl net) rfl
  · rename_i idx _
    split
    · exact .keep (SameCache.refl net) rfl
    · simp only
      generalize hannotated : ({ net with events := net.events.modify idx fun e =>
        { e with extra := Dict.set e.extra "meta" metadata } } : Infonet) = annotated
      have hcache : SameCache annotated net := hannotated ▸ ⟨rfl, rfl⟩
      have hids : annotated.eventIds = net.eventIds := by
        subst hannotated
        refine List.ext_getElem? fun i => ?_
        simp only [Infonet.eventIds, List.getElem?_map, List.getElem?_modify]
        cases net.events[i]? with
        | none => rfl
        | some e =>
          simp only [Option.map_eq_map, Option.map_some]
          split <;> rfl
      have hspill := treats_spill env annotated
      split
      · rename_i hfail
        rw [hfail] at hspill
        cases hspill with
        | keep hcache' hids' => exact .keep (hcache'.trans hcache) (hids'.trans hids)
        | drop hnone => exact .drop hnone
        | disturb _ hcache' => exact .disturb rfl (hcache'.trans hcache)
      · rename_i hok
        rw [hok] at hspill
        cases hspill with
        | keep hcache' hids' =>
          have hsame := hcache'.trans hcache
          exact .keep ⟨hsame.levels, hsame.count⟩ (hids'.trans hids)
        | drop hnone => exact .drop hnone
        | disturb hraised _ => cases hraised

theorem treats_op (a : ChainAction) (hreset : a.op ≠ .resetChain) :
    Treats (a.op.returns (a.env env) a.call net) net (chainStep env net a) := by
  unfold chainStep
  cases hop : a.op with
  | append c => exact treats_append c
  | ingestEvents items => exact treats_ingestEvents items
  | applyFork events headHash proofCount quorum => exact treats_applyFork events headHash proofCount quorum
  | cleanup => exact treats_cleanup
  | resetChain => exact absurd hop hreset
  | save => exact treats_save

/-! ## Reading the tree -/

theorem getMerkleLevels_fresh (h : FreshTree env net) (hne : net.events ≠ []) :
    (net.getMerkleLevels env).2 = buildMerkleLevels env net.eventIds ∧
      (net.getMerkleLevels env).1.eventIds = net.eventIds ∧
      FreshTree env (net.getMerkleLevels env).1 := by
  unfold Infonet.getMerkleLevels
  simp only
  split
  · rename_i levels hlevels
    split
    · rename_i hcount
      exact ⟨h hne hcount levels hlevels, rfl, h⟩
    · refine ⟨rfl, rfl, fun _ _ levels' hlevels' => ?_⟩
      exact (Option.some.inj hlevels').symm
  · refine ⟨rfl, rfl, fun _ _ levels' hlevels' => ?_⟩
    exact (Option.some.inj hlevels').symm

theorem merkleRoot_ne (env : Env) {leaves : List String} (h : leaves ≠ []) :
    merkleRoot env leaves ≠ "" := by
  have hroot := @root?_build env leaves h
  rw [build_of_ne_nil h] at hroot
  refine @Merkle.root?_forall String (hashPair env) (· ≠ "") _ _ ?_ (fun a b => ?_) hroot
  · intro d hd
    obtain ⟨leaf, -, rfl⟩ := List.mem_map.mp hd
    exact env.sha256_ne_empty leaf
  · exact env.sha256_ne_empty (a ++ b)

theorem getMerkleRoot_fresh (h : FreshTree env net) :
    (net.getMerkleRoot env).2 =
      (if net.events = [] then genesisHash else merkleRoot env net.eventIds) ∧
    FreshTree env (net.getMerkleRoot env).1 := by
  unfold Infonet.getMerkleRoot
  split
  · exact ⟨rfl, h⟩
  · rename_i hne
    have hids : net.eventIds ≠ [] := by simpa [Infonet.eventIds] using hne
    obtain ⟨hlevels, -, hfresh⟩ := getMerkleLevels_fresh h hne
    simp only
    refine ⟨?_, hfresh⟩
    rw [hlevels, Infonet.rootOfLevels, root?_build hids, Option.getD_some,
      if_neg (merkleRoot_ne env hids)]

/-- A map that succeeds everywhere, with what each result has. -/
theorem exists_mapM_forall {α β : Type} {f : α → Option β} {P : β → Prop} {xs : List α}
    (h : ∀ x ∈ xs, ∃ y, f x = some y ∧ P y) : ∃ ys, xs.mapM f = some ys ∧ ∀ y ∈ ys, P y := by
  induction xs with
  | nil => exact ⟨[], rfl, fun y hy => by cases hy⟩
  | cons x xs ih =>
    obtain ⟨y, hy, hP⟩ := h x List.mem_cons_self
    obtain ⟨ys, hys, hall⟩ := ih fun x' hx' => h x' (List.mem_cons_of_mem x hx')
    refine ⟨y :: ys, ?_, fun z hz => ?_⟩
    · rw [List.mapM_cons, hy, hys]
      rfl
    · rcases List.mem_cons.mp hz with rfl | hz
      · exact hP
      · exact hall z hz

theorem getMerkleProofs_fresh (h : FreshTree env net) (startIndex count : Nat) :
    (∃ page, (net.getMerkleProofs env startIndex count).2 = some page ∧
      ∀ p ∈ page.proofs, verifyMerkleProof env p.leaf p.index p.proof (net.getMerkleRoot env).2 = true) ∧
    FreshTree env (net.getMerkleProofs env startIndex count).1 := by
  obtain ⟨hroot, -⟩ := getMerkleRoot_fresh h
  rw [hroot]
  unfold Infonet.getMerkleProofs
  simp only
  split
  · exact ⟨⟨_, rfl, fun p hp => by cases hp⟩, h⟩
  · rename_i htotal
    have hne : net.events ≠ [] := fun hnil => htotal (by rw [hnil, List.length_nil])
    obtain ⟨hlevels, -, hfresh⟩ := getMerkleLevels_fresh h hne
    have hevents : (net.getMerkleLevels env).1.events = net.events := by
      unfold Infonet.getMerkleLevels
      simp only
      split
      · split <;> rfl
      · rfl
    refine ⟨?_, hfresh⟩
    rw [hlevels, hevents, if_neg hne]
    have hproof : ∀ idx ∈ List.range' startIndex (min net.events.length (startIndex + count) - startIndex),
        ∃ p : MerkleProof, (do
          let e ← net.events[idx]?
          let proof ← merkleProofFromLevels (buildMerkleLevels env net.eventIds) idx
          return { index := idx, leaf := e.eventId, proof := proof : MerkleProof }) = some p ∧
        verifyMerkleProof env p.leaf p.index p.proof (merkleRoot env net.eventIds) = true := by
      intro idx hidx
      have hbound : idx < net.events.length := by
        have hrange := List.mem_range'_1.mp hidx
        omega
      have hleaf : net.eventIds[idx]? = some net.events[idx].eventId := by
        rw [Infonet.eventIds, List.getElem?_map, List.getElem?_eq_getElem hbound]
        rfl
      obtain ⟨hbound', hid⟩ := List.getElem?_eq_some_iff.mp hleaf
      obtain ⟨proof, hproof, hverify⟩ := @verify_of_index env net.eventIds idx hbound'
      refine ⟨{ index := idx, leaf := net.events[idx].eventId, proof := proof }, ?_, ?_⟩
      · rw [List.getElem?_eq_getElem hbound, hproof]
        rfl
      · rw [← hid]
        exact hverify
    obtain ⟨proofs, hproofs, hall⟩ := exists_mapM_forall hproof
    rw [hproofs]
    exact ⟨_, rfl, hall⟩

theorem servesTree_of_fresh (h : FreshTree env net) : ServesTree env net where
  root := (getMerkleRoot_fresh h).1
  proofs startIndex count := (getMerkleProofs_fresh h startIndex.toNat count.toNat).1

/-! ## Runs -/

theorem FreshTree.step (h : FreshTree env net) {a : TreeOp} (hcond : Undisturbed env net a) :
    FreshTree env (treeStep env net a) := by
  cases a with
  | op a =>
    by_cases hreset : a.op = .resetChain
    · have hnil : (treeStep env net (.op a)).events = [] := by
        simp only [treeStep, chainStep, hreset]
        rfl
      exact fun hne => absurd hnil hne
    · exact h.treats (treats_op a hreset) hcond
  | spill => exact h.treats (treats_spill _ net) hcond
  | annotateEvent eventId metadata => exact h.treats (treats_annotateEvent eventId metadata) hcond
  | getMerkleRoot => exact (getMerkleRoot_fresh h).2
  | getMerkleProofs startIndex count => exact (getMerkleProofs_fresh h _ _).2

end

/-- Root and proofs are those of the chain, unless a raise leaves as many events as the cache
has. -/
theorem merkle_cache_fresh (env : Env) (net : Infonet) (actions : List TreeOp)
    (hstart : net.merkleLevelsCache = none)
    (hrun : Along (treeStep env) (Undisturbed env) net actions) :
    ServesTree env (run (treeStep env) net actions) :=
  servesTree_of_fresh
    (invariant (fun _ _ h hcond => h.step hcond) (freshTree_of_none hstart) hrun)

theorem undisturbed_of_returns {env : Env} {net : Infonet} {a : TreeOp}
    (h : a.returns env net = true) : Undisturbed env net a :=
  fun hraised => absurd (h.symm.trans hraised) (by decide)

/-- Two messages, with the tree read in between. -/
def readRun : List TreeOp :=
  [.op ⟨callAt 1700000000, false, .append broadcastCall⟩, .getMerkleRoot, .getMerkleProofs 0 1,
    .op ⟨callAt 1700000010, false, .append (broadcastCall 2)⟩]

theorem merkle_cache_fresh_sample :
    ServesTree plainEnv (run (treeStep plainEnv) (.empty (callAt 1)) readRun) :=
  merkle_cache_fresh plainEnv (.empty (callAt 1)) readRun rfl
    ⟨undisturbed_of_returns (by decide +kernel), undisturbed_of_returns rfl,
      undisturbed_of_returns rfl, undisturbed_of_returns (by decide +kernel), trivial⟩

/-- Another message, which is the first of its chain too. -/
def otherMessage : List ChainEvent :=
  ((Infonet.empty (callAt 1)).append plainEnv (callAt 1700000000) (broadcastCall 2)).1.events

/-- A root is read, the chain is reset, and a batch raises after it brought in another message. -/
def staleRun : List TreeOp :=
  [.op ⟨callAt 1700000000, false, .append broadcastCall⟩, .getMerkleRoot,
    .op ⟨callAt 1700000010, false, .resetChain⟩,
    .op ⟨callAt 1700000010, false, .ingestEvents
      (otherMessage.map .event ++ [.illTyped "" none (.raised "TypeError")])⟩]

/-- The root that is served then is the one of the first message. -/
theorem not_merkle_cache_fresh : ¬ ∀ (env : Env) (net : Infonet) (actions : List TreeOp),
    net.merkleLevelsCache = none → ServesTree env (run (treeStep env) net actions) := by
  intro hclaim
  have hroot := (hclaim plainEnv (.empty (callAt 1)) staleRun rfl).root
  have hstale : ((run (treeStep plainEnv) (.empty (callAt 1)) staleRun).getMerkleRoot plainEnv).2 ≠
      if (run (treeStep plainEnv) (.empty (callAt 1)) staleRun).events = [] then genesisHash
      else merkleRoot plainEnv (run (treeStep plainEnv) (.empty (callAt 1)) staleRun).eventIds := by
    decide +kernel
  exact hstale hroot

end Vincent.Mesh
