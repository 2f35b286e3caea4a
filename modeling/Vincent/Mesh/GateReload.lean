-- SUMMARY: When a fresh gate store has the events of the one in memory.
import Vincent.Mesh.GateSettled

/-!
# Reloading the gate store

The files of a gate are consistent when they hold settled events that differ in ids
and fingerprints. Then a reload drops none of them.
-/

namespace Vincent.Mesh

open Vincent.Python Vincent.Check Vincent.Run

theorem mapM_eq_ok_of_forall {α β : Type} {f : α → Except String β} {l : List α}
    (h : ∀ a ∈ l, ∃ b, f a = .ok b) :
    ∃ bs, l.mapM f = .ok bs ∧ ∀ b, b ∈ bs ↔ ∃ a ∈ l, f a = .ok b := by
  induction l with
  | nil => exact ⟨[], rfl, by simp⟩
  | cons a l ih =>
    obtain ⟨b, hb⟩ := h a List.mem_cons_self
    obtain ⟨bs, hbs, hmem⟩ := ih fun a' ha' => h a' (List.mem_cons_of_mem _ ha')
    refine ⟨b :: bs, ?_, fun b' => ?_⟩
    · rw [List.mapM_cons, hb, bind_eq_ok]
      exact ⟨b, rfl, by rw [hbs]; rfl⟩
    · simp only [List.mem_cons, hmem, exists_eq_or_imp, hb, Except.ok.injEq]
      exact or_congr_left eq_comm

theorem mapM_eq_self {α : Type} {f : α → Except String α} {l : List α}
    (h : ∀ a ∈ l, f a = .ok a) : l.mapM f = .ok l := by
  induction l with
  | nil => rfl
  | cons a l ih =>
    rw [List.mapM_cons, h a List.mem_cons_self, ih fun a' ha' => h a' (List.mem_cons_of_mem _ ha')]
    rfl

/-! ## Loading -/

section
variable {env : Env} {store : GateStore} {gateId : String} {e : GateEvent}

/-- What a load knows after the events of `done`, each with its gate. -/
structure LoadedFrom (env : Env) (done : List (String × GateEvent)) (store : GateStore) : Prop where
  gates : ∀ gateId e, e ∈ store.gates gateId ↔ (gateId, e) ∈ done
  fingerprints : ∀ fingerprint, store.knowsFingerprint fingerprint = true ↔
    ∃ d ∈ done, storedFingerprint env d.1 d.2 = fingerprint
  ids : ∀ id, store.knowsId id = true ↔ ∃ d ∈ done, d.2.eventId = id
  once : ∀ gateId, ((store.gates gateId).map GateEvent.eventId).Nodup

/-- A settled event is added, unless the store knows its fingerprint or its id. -/
theorem loadEvent_settled (h : Settled env gateId e) (store : GateStore) :
    store.loadEvent env e = .ok (
      if store.knowsFingerprint (storedFingerprint env gateId e) then store
      else if store.knowsId e.eventId then store
      else {
        store with
        gates := Function.update store.gates gateId (store.gates gateId ++ [e])
        eventIndex := (e.eventId, e) :: store.eventIndex
        replayIndex := (storedFingerprint env gateId e, e) :: store.replayIndex }) := by
  have hid : e.eventId ≠ "" := by
    intro hnil
    exact h.eventId (by rw [hnil]; decide)
  unfold GateStore.loadEvent
  simp only [h.text_gate, h.key, if_neg h.gate, h.clean, bind, Except.bind, if_neg h.eventId]
  unfold storedFingerprint
  split
  · rfl
  · simp only [ne_eq, hid, not_false_eq_true, true_and]
    split
    · rfl
    · rfl

namespace LoadedFrom

variable {done done' : List (String × GateEvent)}

theorem of_mem_iff (h : LoadedFrom env done store) (hmem : ∀ d, d ∈ done' ↔ d ∈ done) :
    LoadedFrom env done' store where
  gates gateId e := (h.gates gateId e).trans (hmem _).symm
  fingerprints fingerprint := by
    simp only [hmem]
    exact h.fingerprints fingerprint
  ids id := by
    simp only [hmem]
    exact h.ids id
  once := h.once

theorem empty : LoadedFrom env [] {} where
  gates := by simp
  fingerprints := by simp [GateStore.knowsFingerprint]
  ids := by simp [GateStore.knowsId]
  once := by simp

theorem add (h : LoadedFrom env done store)
    (happart : ∀ d ∈ done, Apart env gateId e d.1 d.2) :
    LoadedFrom env (done ++ [(gateId, e)]) {
      store with
      gates := Function.update store.gates gateId (store.gates gateId ++ [e])
      eventIndex := (e.eventId, e) :: store.eventIndex
      replayIndex := (storedFingerprint env gateId e, e) :: store.replayIndex } where
  gates other d := by
    simp only [List.mem_append, List.mem_singleton, Function.update_apply, Prod.mk.injEq]
    split
    · rename_i hother
      subst hother
      rw [List.mem_append, List.mem_singleton, h.gates]
      simp only [true_and]
    · rename_i hother
      rw [h.gates]
      simp only [hother, false_and, or_false]
  fingerprints fingerprint := by
    have hold := h.fingerprints fingerprint
    unfold GateStore.knowsFingerprint at hold ⊢
    simp only [List.lookup_cons, List.mem_append, List.mem_singleton, or_and_right, exists_or,
      exists_eq_left, ← hold]
    split
    · rename_i heq
      simp [beq_iff_eq.mp heq]
    · rename_i hne
      have hne' : storedFingerprint env gateId e ≠ fingerprint := by
        intro heq
        simp [heq] at hne
      simp [hne']
  ids id := by
    have hold := h.ids id
    unfold GateStore.knowsId at hold ⊢
    simp only [List.lookup_cons, List.mem_append, List.mem_singleton, or_and_right, exists_or,
      exists_eq_left, ← hold]
    split
    · rename_i heq
      simp [beq_iff_eq.mp heq]
    · rename_i hne
      have hne' : e.eventId ≠ id := by
        intro heq
        simp [heq] at hne
      simp [hne']
  once other := by
    simp only [Function.update_apply]
    split
    · rw [List.map_append, List.nodup_append]
      refine ⟨h.once gateId, by simp, ?_⟩
      intro id hid id' hid' heq
      obtain ⟨d, hd, rfl⟩ := List.mem_map.mp hid
      obtain ⟨d', hd', rfl⟩ := List.mem_map.mp hid'
      obtain rfl := List.mem_singleton.mp hd'
      exact (happart _ ((h.gates gateId d).mp hd)).1 heq.symm
    · exact h.once other

theorem load (h : LoadedFrom env done store) (hsettled : Settled env gateId e)
    (happart : ∀ d ∈ done, d = (gateId, e) ∨ Apart env gateId e d.1 d.2) :
    ∃ store', store.loadEvent env e = .ok store' ∧
      LoadedFrom env (done ++ [(gateId, e)]) store' := by
  refine ⟨_, loadEvent_settled hsettled store, ?_⟩
  by_cases hdone : (gateId, e) ∈ done
  · rw [if_pos ((h.fingerprints _).mpr ⟨_, hdone, rfl⟩)]
    apply h.of_mem_iff
    intro d
    rw [List.mem_append, List.mem_singleton, or_iff_left_iff_imp]
    rintro rfl
    exact hdone
  · have hnew : ∀ d ∈ done, Apart env gateId e d.1 d.2 := by
      intro d hd
      refine (happart d hd).resolve_left ?_
      rintro rfl
      exact hdone hd
    have hfingerprint : ¬ store.knowsFingerprint (storedFingerprint env gateId e) = true := by
      rw [h.fingerprints]
      rintro ⟨d, hd, heq⟩
      exact (hnew d hd).2 heq.symm
    have hid : ¬ store.knowsId e.eventId = true := by
      rw [h.ids]
      rintro ⟨d, hd, heq⟩
      exact (hnew d hd).1 heq.symm
    rw [if_neg hfingerprint, if_neg hid]
    exact h.add hnew

theorem loadAll {rest : List (String × GateEvent)} (h : LoadedFrom env done store)
    (hsettled : ∀ d ∈ rest, Settled env d.1 d.2)
    (happart : ∀ d ∈ done ++ rest, ∀ d' ∈ done ++ rest, d = d' ∨ Apart env d.1 d.2 d'.1 d'.2) :
    ∃ store', (rest.map Prod.snd).foldlM (GateStore.loadEvent env) store = .ok store' ∧
      LoadedFrom env (done ++ rest) store' := by
  induction rest generalizing done store with
  | nil => exact ⟨store, rfl, by simpa using h⟩
  | cons d rest ih =>
    obtain ⟨next, hnext, hloaded⟩ := h.load (hsettled d List.mem_cons_self) fun d' hd' =>
      (happart d (by simp) d' (List.mem_append_left _ hd')).imp_left Eq.symm
    have happend : done ++ [d] ++ rest = done ++ d :: rest := by simp
    obtain ⟨last, hlast, hall⟩ := ih hloaded
      (fun d' hd' => hsettled d' (List.mem_cons_of_mem _ hd')) (by rwa [happend])
    refine ⟨last, ?_, happend ▸ hall⟩
    rw [List.map_cons, List.foldlM_cons, bind_eq_ok]
    exact ⟨next, hnext, hlast⟩

end LoadedFrom

end

/-! ## Consistent files -/

/-- The files hold settled events that differ in ids and fingerprints, each gate with its
manifest. -/
structure Consistent (env : Env) (disk : GateDisk) : Prop where
  tidy : ∀ gateId, (disk.logs gateId).Tidy
  listed : ∀ gateId, (disk.logs gateId).manifest ≠ none → gateId ∈ disk.manifests
  settled : ∀ gateId, ∀ c ∈ (disk.logs gateId).stored, Settled env gateId c
  apart : ∀ gateId, ∀ c ∈ (disk.logs gateId).stored, ∀ gateId', ∀ c' ∈ (disk.logs gateId').stored,
    (gateId, c) = (gateId', c') ∨ Apart env gateId c gateId' c'

theorem Consistent.load {env : Env} {disk : GateDisk} (h : Consistent env disk) (now : ℚ) :
    ∃ loaded, GateStore.load env now disk = .ok loaded ∧
      (∀ gateId e, e ∈ loaded.gates gateId ↔ e ∈ (disk.logs gateId).stored) ∧
      ∀ gateId, ((loaded.gates gateId).map GateEvent.eventId).Nodup := by
  let gateIds := disk.manifests.insertionSort fun a b => env.sha256 a ≤ env.sha256 b
  let tagged := gateIds.flatMap fun gateId => (disk.logs gateId).stored.map fun e => (gateId, e)
  have hmem : ∀ d, d ∈ tagged ↔ d.1 ∈ gateIds ∧ d.2 ∈ (disk.logs d.1).stored := by
    rintro ⟨gateId, e⟩
    simp [tagged]
  have hsnd : tagged.map Prod.snd = gateIds.flatMap fun gateId => (disk.logs gateId).stored := by
    simp [tagged, List.map_flatMap, Function.comp_def]
  obtain ⟨store, hstore, hloaded⟩ := @LoadedFrom.loadAll env {} [] tagged LoadedFrom.empty
    (fun d hd => h.settled d.1 d.2 ((hmem d).mp hd).2)
    (fun d hd d' hd' => h.apart d.1 d.2 ((hmem d).mp hd).2 d'.1 d'.2 ((hmem d').mp hd').2)
  refine ⟨{ store.pruneReplayIndex now with
    gates := fun gateId => GateStore.sortGate (store.gates gateId) }, ?_, fun gateId e => ?_,
    fun gateId => ?_⟩
  · unfold GateStore.load
    rw [bind_eq_ok]
    exact ⟨store, hsnd ▸ hstore, rfl⟩
  · rw [(GateStore.sortGate_perm _).mem_iff, hloaded.gates, List.nil_append, hmem]
    refine ⟨And.right, fun he => ⟨?_, he⟩⟩
    apply (List.perm_insertionSort _ _).mem_iff.mpr
    apply h.listed
    intro hnone
    simp [SegmentedLog.stored_of_none hnone] at he
  · exact ((GateStore.sortGate_perm _).map _).nodup_iff.mpr (hloaded.once gateId)

/-! ## Writing -/

namespace GateDisk

variable {disk : GateDisk} {gateId : String}

theorem logs_foldl_write (disk : GateDisk) (gateId : String) (ws : List (FileWrite GateEvent)) :
    (ws.foldl (write gateId) disk).logs =
      Function.update disk.logs gateId ((disk.logs gateId).writeAll ws) := by
  induction ws generalizing disk with
  | nil => exact (Function.update_eq_self _ _).symm
  | cons w ws ih =>
    rw [List.foldl_cons, ih]
    simp [write, SegmentedLog.writeAll]

theorem listed_foldl_write (h : ∀ gateId, (disk.logs gateId).manifest ≠ none → gateId ∈ disk.manifests)
    (gateId : String) (ws : List (FileWrite GateEvent)) :
    ∀ other, ((ws.foldl (write gateId) disk).logs other).manifest ≠ none →
      other ∈ (ws.foldl (write gateId) disk).manifests := by
  induction ws generalizing disk with
  | nil => exact h
  | cons w ws ih =>
    refine ih fun other hother => ?_
    simp only [write, Function.update_apply] at hother ⊢
    cases w with
    | segment no items =>
      split at hother
      · rename_i heq
        subst heq
        exact h other hother
      · exact h other hother
    | manifest numbers =>
      by_cases heq : other = gateId
      · subst heq
        simp
      · rw [if_neg heq] at hother
        exact List.mem_insert_of_mem (h other hother)

/-- All writes are made, or those before the one that raises. -/
theorem writes_cases (disk : GateDisk) (gateId : String) (ws : List (FileWrite GateEvent))
    (raisesAt : Option Nat) :
    disk.writes gateId ws raisesAt = (ws.foldl (write gateId) disk, true) ∨
    ∃ n < ws.length, disk.writes gateId ws raisesAt = ((ws.take n).foldl (write gateId) disk, false) := by
  cases raisesAt with
  | none =>
    left
    simp [writes]
  | some n =>
    by_cases hn : n < ws.length
    · right
      refine ⟨n, hn, ?_⟩
      simp only [writes, List.length_take, Prod.mk.injEq, true_and, decide_eq_false_iff_not]
      omega
    · left
      simp [writes, List.take_of_length_le (Nat.le_of_not_lt hn)]

end GateDisk

namespace Consistent

variable {env : Env} {disk : GateDisk} {limits : SegmentLimits} {gateId : String}

theorem empty : Consistent env {} where
  tidy _ := SegmentedLog.tidy_empty
  listed _ h := absurd rfl h
  settled _ c hc := by simp [SegmentedLog.stored] at hc
  apart _ c hc := by simp [SegmentedLog.stored] at hc

/-- The log of one gate is replaced by events that stay apart from those of other gates. -/
theorem of_writes (h : Consistent env disk) {ws : List (FileWrite GateEvent)}
    (htidy : ((disk.logs gateId).writeAll ws).Tidy)
    (hsettled : ∀ c ∈ ((disk.logs gateId).writeAll ws).stored, Settled env gateId c)
    (hapart : ∀ c ∈ ((disk.logs gateId).writeAll ws).stored,
      ∀ c' ∈ ((disk.logs gateId).writeAll ws).stored, c = c' ∨ Apart env gateId c gateId c')
    (hothers : ∀ c ∈ ((disk.logs gateId).writeAll ws).stored, ∀ other ≠ gateId,
      ∀ d ∈ (disk.logs other).stored, Apart env gateId c other d) :
    Consistent env (ws.foldl (GateDisk.write gateId) disk) where
  tidy other := by
    rw [GateDisk.logs_foldl_write, Function.update_apply]
    split
    · exact htidy
    · exact h.tidy other
  listed := GateDisk.listed_foldl_write h.listed gateId ws
  settled other c hc := by
    rw [GateDisk.logs_foldl_write, Function.update_apply] at hc
    split at hc
    · rename_i heq
      exact heq ▸ hsettled c hc
    · exact h.settled other c hc
  apart g c hc g' c' hc' := by
    rw [GateDisk.logs_foldl_write, Function.update_apply] at hc hc'
    split at hc
    · rename_i hg
      subst hg
      split at hc'
      · rename_i hg'
        subst hg'
        exact (hapart c hc c' hc').imp_left (congrArg (Prod.mk _))
      · rename_i hg'
        exact .inr (hothers c hc g' hg' c' hc')
    · rename_i hg
      split at hc'
      · rename_i hg'
        subst hg'
        exact .inr (hothers c' hc' g hg c hc).symm
      · exact h.apart g c hc g' c' hc'

/-- The files after new events were added to a gate, all of them or some. -/
theorem grow (h : Consistent env disk) {ws : List (FileWrite GateEvent)} {added : List GateEvent}
    (htidy : ((disk.logs gateId).writeAll ws).Tidy)
    (hstored : ((disk.logs gateId).writeAll ws).stored = (disk.logs gateId).stored ++ added)
    (hsettled : ∀ c ∈ added, Settled env gateId c)
    (hnew : ∀ c ∈ added, ∀ c' ∈ added, c = c' ∨ Apart env gateId c gateId c')
    (hold : ∀ c ∈ added, ∀ other, ∀ d ∈ (disk.logs other).stored,
      (gateId, c) = (other, d) ∨ Apart env gateId c other d) :
    Consistent env (ws.foldl (GateDisk.write gateId) disk) := by
  refine h.of_writes htidy (fun c hc => ?_) (fun c hc c' hc' => ?_) (fun c hc other hother d hd => ?_)
  · rw [hstored, List.mem_append] at hc
    exact hc.elim (h.settled gateId c) (hsettled c)
  · rw [hstored, List.mem_append] at hc hc'
    rcases hc with hc | hc
    · rcases hc' with hc' | hc'
      · exact (h.apart gateId c hc gateId c' hc').imp_left fun heq => (Prod.mk.inj heq).2
      · exact (hold c' hc' gateId c hc).imp (fun heq => (Prod.mk.inj heq).2.symm) Apart.symm
    · rcases hc' with hc' | hc'
      · exact (hold c hc gateId c' hc').imp_left fun heq => (Prod.mk.inj heq).2
      · exact hnew c hc c' hc'
  · rw [hstored, List.mem_append] at hc
    have hne : ¬ (gateId, c) = (other, d) := fun heq => hother (Prod.mk.inj heq).1.symm
    rcases hc with hc | hc
    · exact (h.apart gateId c hc other d hd).resolve_left hne
    · exact (hold c hc other d hd).resolve_left hne

/-- `persistGateNewEvents` of new events that are clean. -/
def persistCleanEvents (env : Env) (limits : SegmentLimits) (disk : GateDisk) (gateId : String)
    (held new : List GateEvent) : Except String (List (FileWrite GateEvent)) :=
  match (disk.logs gateId).manifest with
  | none => GateDisk.persistGate env limits gateId (held ++ new)
  | some numbers =>
    match numbers.getLast? with
    | none => .ok (SegmentedLog.continueWrites limits.full [] 0 [] new)
    | some no =>
      if ((disk.logs gateId).segments no).isEmpty then
        GateDisk.persistGate env limits gateId (held ++ new)
      else .ok (SegmentedLog.continueWrites limits.full numbers.dropLast no
        ((disk.logs gateId).segments no) new)

/-- The writes for new events: all of them add the events, and some of them add some. -/
theorem persistGateNewEvents_spec (h : Consistent env disk) {held new : List GateEvent}
    (hheld : (disk.logs gateId).manifest = none → held = [])
    (hsettled : ∀ c ∈ new, Settled env gateId c) (hne : new ≠ []) :
    ∃ ws, disk.persistGateNewEvents env limits gateId held new = .ok ws ∧
      (((disk.logs gateId).writeAll ws).stored = (disk.logs gateId).stored ++ new ∧
        ((disk.logs gateId).writeAll ws).Tidy) ∧
      ∀ n < ws.length, ∃ taken, taken <+: new ∧
        ((disk.logs gateId).writeAll (ws.take n)).stored = (disk.logs gateId).stored ++ taken ∧
        ((disk.logs gateId).writeAll (ws.take n)).Tidy := by
  have hclean : new.mapM (GateEvent.clean env gateId) = .ok new :=
    mapM_eq_self fun c hc => (hsettled c hc).clean
  obtain ⟨c, hc⟩ := List.exists_mem_of_ne_nil new hne
  have hgate : gateId ≠ "" := (hsettled c hc).gate
  have hplan : disk.persistGateNewEvents env limits gateId held new =
      persistCleanEvents env limits disk gateId held new := by
    unfold GateDisk.persistGateNewEvents persistCleanEvents
    rw [hclean]
    simp only [bind, Except.bind, hgate, decide_false, Bool.false_or, List.isEmpty_iff, hne, if_false]
    rfl
  rw [hplan]
  unfold persistCleanEvents
  cases hmanifest : (disk.logs gateId).manifest with
  | none =>
    obtain rfl : held = [] := hheld hmanifest
    have hwrites : GateDisk.persistGate env limits gateId ([] ++ new) =
        .ok (SegmentedLog.rewriteWrites limits.countFull new) := by
      unfold GateDisk.persistGate
      rw [List.nil_append, hclean]
      rfl
    refine ⟨_, hwrites, ?_, fun n hn => ⟨[], List.nil_prefix, ?_⟩⟩
    · rw [SegmentedLog.stored_of_none hmanifest]
      exact SegmentedLog.rewrite_stored _ _ _
    · have hnone := SegmentedLog.rewrite_partial hmanifest hn
      refine ⟨?_, fun numbers hnumbers => ?_⟩
      · rw [SegmentedLog.stored_of_none hnone, SegmentedLog.stored_of_none hmanifest, List.nil_append]
      · rw [hnone] at hnumbers
        cases hnumbers
  | some numbers =>
    obtain ⟨count, rfl, hnonempty⟩ := h.tidy gateId numbers hmanifest
    cases count with
    | zero =>
      -- a manifest without segments
      have hstored : (disk.logs gateId).stored = [] := by
        rw [SegmentedLog.stored_of_range hmanifest]
        rfl
      refine ⟨_, rfl, ?_, fun n hn => ⟨[], List.nil_prefix, ?_⟩⟩
      · rw [hstored]
        exact @SegmentedLog.continue_stored _ (disk.logs gateId) limits.full 0 new (by simp) [] hne
      · obtain ⟨hstopped, -, htidy⟩ := SegmentedLog.open_partial hmanifest (h.tidy gateId) hn
        exact ⟨hstopped.trans (List.append_nil _).symm, htidy⟩
    | succ no =>
      have hcurrent : ((disk.logs gateId).segments no).isEmpty = false := by
        simpa using hnonempty no (Nat.lt_succ_self no)
      have hlast : (List.range (no + 1)).getLast? = some no := by
        simp [List.range_succ]
      have hbefore : (List.range (no + 1)).dropLast = List.range no := by
        simp [List.range_succ]
      simp only [hlast, hbefore, hcurrent, Bool.false_eq_true, if_false]
      refine ⟨_, rfl, ?_, fun n hn => ?_⟩
      · have hall := @SegmentedLog.continue_stored _ (disk.logs gateId) limits.full no new
          (fun i hi => hnonempty i (Nat.lt_succ_of_lt hi)) ((disk.logs gateId).segments no)
          (by simp [hne])
        refine ⟨hall.1.trans ?_, hall.2⟩
        rw [SegmentedLog.stored_of_range hmanifest, List.range_succ, List.flatMap_append]
        simp
      · obtain ⟨⟨taken, htaken, hstored⟩, -, htidy⟩ :=
          SegmentedLog.continue_partial hmanifest (h.tidy gateId) hn
        exact ⟨taken, htaken, hstored, htidy⟩

end Consistent

end Vincent.Mesh
