-- SUMMARY: When a reload of the gate store gives what the memory holds.
import Vincent.Mesh.GateReload

/-!
# The gate store reloads to what it holds

The memory takes an event after its write, so a write that raises leaves an event on disk
that the memory does not have, never the other way round. A stamp changes the memory first,
and writes the gate that the caller names.
-/

namespace Vincent.Mesh

open Vincent.Python Vincent.Check Vincent.Run

/-! ## What a call brings -/

/-- An event of the call would be stored as `clean`, and neither its id nor fingerprint is known. -/
def Arrives (env : Env) (store : GateStore) (a : GateAction) (clean : GateEvent)
    (fingerprint : String) : Prop :=
  store.knowsId clean.eventId = false ∧ store.knowsFingerprint fingerprint = false ∧
  match a with
  | .append _ gateId event =>
    GateStore.cleanEvent env (Gate.gateKey env.rt gateId) event = .ok clean ∧
    fingerprint = storedFingerprint env (Gate.gateKey env.rt gateId) clean
  | .ingest call gateId events =>
    ∃ event ∈ events, Offers env call (Gate.gateKey env.rt gateId) event clean fingerprint

section
variable {env : Env} {store : GateStore}

/-- The candidates of a call arrive with it, and have different ids and replay fingerprints. -/
theorem GateAction.candidates_spec (a : GateAction) :
    (∀ c ∈ a.candidates env store, Arrives env store a c.1 c.2) ∧
    (a.candidates env store).Pairwise fun b c => b.1.eventId ≠ c.1.eventId ∧ b.2 ≠ c.2 := by
  cases a with
  | append call gateId event =>
    unfold candidates
    simp only
    split
    · simp
    · split
      · simp
      · rename_i clean hclean
        split
        · simp
        · rename_i hknown
          simp only [Bool.or_eq_true, not_or, Bool.not_eq_true] at hknown
          refine ⟨fun c hc => ?_, List.pairwise_singleton _ _⟩
          obtain rfl := List.mem_singleton.mp hc
          exact ⟨hknown.2, hknown.1, hclean, rfl⟩
  | ingest call gateId events =>
    unfold candidates
    simp only
    split
    · simp
    · split
      · simp
      · rename_i batch hbatch
        have hscreened : Screened env call store (Gate.gateKey env.rt gateId) events batch :=
          Screened.screenAll ⟨by simp, by simp, by simp⟩ (fun _ he => he) hbatch
        refine ⟨fun c hc => ?_, hscreened.apart⟩
        obtain ⟨hid, hfingerprint⟩ := hscreened.fresh c hc
        exact ⟨hid, hfingerprint, hscreened.offered c hc⟩

/-- The memory takes the candidates if there are any and they were written. -/
theorem gateStep_withPersisted (a : GateAction) (persisted : Bool) :
    gateStep env store (a.withPersisted persisted) = store ∧
        (a.candidates env store = [] ∨ persisted = false) ∨
    persisted = true ∧ a.candidates env store ≠ [] ∧
      ∃ call, gateStep env store (a.withPersisted persisted) =
        store.commit call (Gate.gateKey env.rt a.gateId) (a.candidates env store) := by
  cases a with
  | append call gateId event =>
    simp only [GateAction.candidates, GateAction.withPersisted, GateAction.gateId, gateStep,
      GateStore.append]
    split
    · exact .inl ⟨rfl, .inl rfl⟩
    · cases hclean : GateStore.cleanEvent env (Gate.gateKey env.rt gateId) event with
      | error exn => exact .inl ⟨rfl, .inl rfl⟩
      | ok clean =>
        simp only [GateStore.knowsFingerprint, GateStore.knowsId]
        split
        · rename_i existing _ hfingerprint
          exact .inl ⟨rfl, .inl (by simp [hfingerprint])⟩
        · rename_i existing hfingerprint hid
          exact .inl ⟨rfl, .inl (by simp [hid])⟩
        · rename_i hfingerprint hid
          cases persisted with
          | false => exact .inl ⟨rfl, .inr rfl⟩
          | true => exact .inr ⟨rfl, by simp [hfingerprint, hid], _, by simp [hfingerprint, hid]; rfl⟩
  | ingest call gateId events =>
    have hscreen : GateStore.screen env { call with persisted } store (Gate.gateKey env.rt gateId) =
        GateStore.screen env call store (Gate.gateKey env.rt gateId) := rfl
    simp only [GateAction.candidates, GateAction.withPersisted, GateAction.gateId, gateStep,
      GateStore.ingestPeerEvents, hscreen]
    split
    · exact .inl ⟨rfl, .inl rfl⟩
    · cases hbatch : events.foldlM (GateStore.screen env call store (Gate.gateKey env.rt gateId)) {} with
      | error exn => exact .inl ⟨rfl, .inl rfl⟩
      | ok batch =>
        simp only
        split
        · rename_i hnil
          exact .inl ⟨rfl, .inl hnil⟩
        · rename_i hne
          cases persisted with
          | false => exact .inl ⟨rfl, .inr rfl⟩
          | true => exact .inr ⟨rfl, hne, _, rfl⟩

/-- An id is read from the new entries of the index, and otherwise from the old ones. -/
theorem GateStore.lookup_commit {call : GateCall} {gateId : String}
    {new : List (GateEvent × String)} {id : String} :
    (store.commit call gateId new).eventIndex.lookup id =
      ((new.map Prod.fst).find? fun e => id == e.eventId).or (store.eventIndex.lookup id) := by
  rw [commit, (maybePrune_frame _ _).2, List.lookup_append]
  congr 1
  induction new with
  | nil => rfl
  | cons c new ih =>
    simp only [List.map_cons, List.lookup_cons, List.find?_cons, ih]

/-- The memory after a commit, gate by gate. -/
theorem GateStore.mem_commit {call : GateCall} {gateId other : String}
    {new : List (GateEvent × String)} {e : GateEvent} :
    e ∈ (store.commit call gateId new).gates other ↔
      e ∈ store.gates other ∨ other = gateId ∧ e ∈ new.map Prod.fst := by
  rw [gates_commit]
  split
  · rename_i heq
    subst heq
    rw [(sortGate_perm _).mem_iff, List.mem_append]
    simp only [true_and]
  · rename_i hne
    simp only [hne, false_and, or_false]

end

/-! ## The invariant -/

/-- A new event is settled and known by no id or fingerprint; a stamp names its gate and is
written. -/
def KeepsReload (env : Env) (node : GateNode) : FiledAction → Prop
  | .post a _ =>
    (∀ clean fingerprint, Arrives env node.store a clean fingerprint →
      Settled env (Gate.gateKey env.rt a.gateId) clean ∧
      ∀ gateId, ∀ d ∈ (node.disk.logs gateId).stored,
        (Gate.gateKey env.rt a.gateId, clean) = (gateId, d) ∨
        Apart env (Gate.gateKey env.rt a.gateId) clean gateId d) ∧
    ∀ clean fingerprint clean' fingerprint', Arrives env node.store a clean fingerprint →
      Arrives env node.store a clean' fingerprint' → clean.eventId ≠ clean'.eventId →
      fingerprint ≠ fingerprint' →
      storedFingerprint env (Gate.gateKey env.rt a.gateId) clean ≠
        storedFingerprint env (Gate.gateKey env.rt a.gateId) clean'
  | .stampLocalPlaintext gateId eventId plaintext _ raisesAt => ∀ e,
    node.store.stampTarget env gateId eventId plaintext = some e → e.isStamped = false →
    e ∈ node.store.gates (Gate.gateKey env.rt gateId) ∧ raisesAt = none

/-- The memory and the files are in step. -/
structure Filed (env : Env) (node : GateNode) : Prop where
  files : Consistent env node.disk
  held : ∀ gateId, ∀ e ∈ node.store.gates gateId, ∃ c ∈ (node.disk.logs gateId).stored, e.Same c
  origin : ∀ gateId, ∀ c ∈ (node.disk.logs gateId).stored,
    (∃ e ∈ node.store.gates gateId, e.Same c) ∨ c.eventId ∈ node.raised
  indexed : ∀ gateId, ∀ e ∈ node.store.gates gateId, node.store.eventIndex.lookup e.eventId = some e
  stored : ∀ id e, node.store.eventIndex.lookup id = some e →
    e.eventId = id ∧ ∃ gateId, e ∈ node.store.gates gateId
  distinct : ∀ gateId, (node.store.gates gateId).Pairwise fun a b => Apart env gateId a gateId b
  stamped : ∀ id ∈ node.stamped, ∃ gateId, ∃ e ∈ node.store.gates gateId,
    e.eventId = id ∧ e.isStamped = true

theorem filed_start (env : Env) : Filed env {} where
  files := .empty
  held _ e he := by simp at he
  origin _ c hc := by simp [SegmentedLog.stored] at hc
  indexed _ e he := by simp at he
  stored _ e he := by simp at he
  distinct _ := List.Pairwise.nil
  stamped _ h := by simp at h

namespace Filed

variable {env : Env} {limits : SegmentLimits} {node : GateNode}

/-- Two events in memory with one id are one event, in one gate. -/
theorem unique (h : Filed env node) {gateId gateId' : String} {e e' : GateEvent}
    (he : e ∈ node.store.gates gateId) (he' : e' ∈ node.store.gates gateId')
    (hid : e.eventId = e'.eventId) : gateId = gateId' ∧ e = e' := by
  have hsame : e = e' := by
    have hlookup := h.indexed gateId e he
    rw [hid, h.indexed gateId' e' he'] at hlookup
    exact (Option.some.inj hlookup).symm
  obtain ⟨c, hc, hec⟩ := h.held gateId e he
  obtain ⟨c', hc', hec'⟩ := h.held gateId' e' he'
  rcases h.files.apart gateId c hc gateId' c' hc' with heq | hapart
  · exact ⟨(Prod.mk.inj heq).1, hsame⟩
  · exact absurd (hec.eventId.symm.trans (hid.trans hec'.eventId)) hapart.1

/-! ## Appends and batches -/

/-- The events of a call, as the guard describes them. -/
structure Fresh (env : Env) (node : GateNode) (gateId : String) (new : List (GateEvent × String)) :
    Prop where
  settled : ∀ c ∈ new, Settled env gateId c.1
  unknown : ∀ c ∈ new, node.store.knowsId c.1.eventId = false
  old : ∀ c ∈ new, ∀ other, ∀ d ∈ (node.disk.logs other).stored,
    (gateId, c.1) = (other, d) ∨ Apart env gateId c.1 other d
  apart : new.Pairwise fun b c => Apart env gateId b.1 gateId c.1

theorem fresh_of_guard {a : GateAction} {raisesAt : Option Nat}
    (hguard : KeepsReload env node (.post a raisesAt)) :
    Fresh env node (Gate.gateKey env.rt a.gateId) (a.candidates env node.store) := by
  obtain ⟨harrives, hapart⟩ := @GateAction.candidates_spec env node.store a
  refine ⟨fun c hc => (hguard.1 _ _ (harrives c hc)).1, fun c hc => (harrives c hc).1,
    fun c hc => (hguard.1 _ _ (harrives c hc)).2, ?_⟩
  refine hapart.imp_of_mem fun {b c} hb hc hne => ⟨hne.1, ?_⟩
  exact hguard.2 _ _ _ _ (harrives b hb) (harrives c hc) hne.1 hne.2

theorem Fresh.equal_or_apart {gateId : String} {new : List (GateEvent × String)}
    (h : Fresh env node gateId new) : ∀ c ∈ new.map Prod.fst, ∀ c' ∈ new.map Prod.fst,
      c = c' ∨ Apart env gateId c gateId c' := by
  have hpairs : (new.map Prod.fst).Pairwise fun c c' => c = c' ∨ Apart env gateId c gateId c' :=
    List.pairwise_map.mpr (h.apart.imp .inr)
  exact List.Pairwise.forall_of_forall_of_flip (fun _ _ => .inl rfl) hpairs
    (hpairs.imp fun hor => hor.imp Eq.symm Apart.symm)

/-- Files that have grown by some of the new events, with the memory as it was. -/
theorem of_raised (h : Filed env node) {gateId : String} {new : List (GateEvent × String)}
    {ws : List (FileWrite GateEvent)} {taken : List GateEvent}
    (hfiles : Consistent env (ws.foldl (GateDisk.write gateId) node.disk))
    (htaken : ∀ c ∈ taken, c ∈ new.map Prod.fst)
    (hstored : ((node.disk.logs gateId).writeAll ws).stored =
      (node.disk.logs gateId).stored ++ taken) :
    Filed env { node with
      disk := ws.foldl (GateDisk.write gateId) node.disk
      raised := node.raised ++ (new.map Prod.fst).map GateEvent.eventId } where
  files := hfiles
  held other e he := by
    obtain ⟨c, hc, hsame⟩ := h.held other e he
    refine ⟨c, ?_, hsame⟩
    simp only [GateDisk.logs_foldl_write, Function.update_apply]
    split
    · rename_i heq
      subst heq
      rw [hstored]
      exact List.mem_append_left _ hc
    · exact hc
  origin other c hc := by
    simp only [GateDisk.logs_foldl_write, Function.update_apply] at hc
    split at hc
    · rename_i heq
      subst heq
      rw [hstored, List.mem_append] at hc
      rcases hc with hc | hc
      · exact (h.origin other c hc).imp_right (List.mem_append_left _)
      · exact .inr (List.mem_append_right _ (List.mem_map_of_mem (htaken c hc)))
    · exact (h.origin other c hc).imp_right (List.mem_append_left _)
  indexed := h.indexed
  stored := h.stored
  distinct := h.distinct
  stamped := h.stamped

theorem of_commit (h : Filed env node) {gateId : String} {new : List (GateEvent × String)}
    {ws : List (FileWrite GateEvent)} (call : GateCall) (hfresh : Fresh env node gateId new)
    (hfiles : Consistent env (ws.foldl (GateDisk.write gateId) node.disk))
    (hstored : ((node.disk.logs gateId).writeAll ws).stored =
      (node.disk.logs gateId).stored ++ new.map Prod.fst) :
    Filed env { node with
      store := node.store.commit call gateId new
      disk := ws.foldl (GateDisk.write gateId) node.disk } := by
  have hids : ∀ c ∈ new.map Prod.fst, ∀ c' ∈ new.map Prod.fst, c.eventId = c'.eventId → c = c' :=
    fun c hc c' hc' heq => (hfresh.equal_or_apart c hc c' hc').resolve_right fun hapart =>
      hapart.1 heq
  have hunknown : ∀ c ∈ new.map Prod.fst, node.store.eventIndex.lookup c.eventId = none := by
    intro c hc
    obtain ⟨c', hc', rfl⟩ := List.mem_map.mp hc
    simpa [GateStore.knowsId] using hfresh.unknown c' hc'
  have hlogs : ∀ other, ((ws.foldl (GateDisk.write gateId) node.disk).logs other).stored =
      if other = gateId then (node.disk.logs other).stored ++ new.map Prod.fst
      else (node.disk.logs other).stored := by
    intro other
    rw [GateDisk.logs_foldl_write, Function.update_apply]
    split
    · rename_i heq
      subst heq
      exact hstored
    · rfl
  have hindexed : ∀ other, ∀ e ∈ (node.store.commit call gateId new).gates other,
      (node.store.commit call gateId new).eventIndex.lookup e.eventId = some e := by
    intro other e he
    rw [GateStore.lookup_commit]
    rcases GateStore.mem_commit.mp he with hold | ⟨-, hnew⟩
    · have hnone : ((new.map Prod.fst).find? fun c => e.eventId == c.eventId) = none := by
        apply List.find?_eq_none.mpr
        intro c hc heq
        have hlookup := hunknown c hc
        rw [← beq_iff_eq.mp heq, h.indexed other e hold] at hlookup
        cases hlookup
      rw [hnone, Option.none_or, h.indexed other e hold]
    · cases hfind : (new.map Prod.fst).find? fun c => e.eventId == c.eventId with
      | none => exact absurd (beq_self_eq_true _) (List.find?_eq_none.mp hfind e hnew)
      | some c =>
        have hfound := List.find?_some hfind
        have heq := hids e hnew c (List.mem_of_find?_eq_some hfind) (beq_iff_eq.mp hfound)
        rw [← heq, Option.some_or]
  refine ⟨hfiles, fun other e he => ?_, fun other c hc => ?_, hindexed, fun id e hlookup => ?_,
    fun other => ?_, fun id hid => ?_⟩
  · rw [hlogs]
    rcases GateStore.mem_commit.mp he with hold | ⟨rfl, hnew⟩
    · obtain ⟨c, hc, hsame⟩ := h.held other e hold
      refine ⟨c, ?_, hsame⟩
      split
      · exact List.mem_append_left _ hc
      · exact hc
    · rw [if_pos rfl]
      exact ⟨e, List.mem_append_right _ hnew, .refl e⟩
  · rw [hlogs] at hc
    have hold : c ∈ (node.disk.logs other).stored →
        (∃ e ∈ (node.store.commit call gateId new).gates other, e.Same c) ∨
          c.eventId ∈ node.raised := by
      intro hc
      refine (h.origin other c hc).imp_left ?_
      rintro ⟨e, he, hsame⟩
      exact ⟨e, GateStore.mem_commit.mpr (.inl he), hsame⟩
    split at hc
    · rename_i heq
      rcases List.mem_append.mp hc with hc | hc
      · exact hold hc
      · exact .inl ⟨c, GateStore.mem_commit.mpr (.inr ⟨heq, hc⟩), .refl c⟩
    · exact hold hc
  · simp only [GateStore.lookup_commit] at hlookup
    cases hfind : (new.map Prod.fst).find? fun c => id == c.eventId with
    | none =>
      rw [hfind, Option.none_or] at hlookup
      obtain ⟨hid, other, he⟩ := h.stored id e hlookup
      exact ⟨hid, other, GateStore.mem_commit.mpr (.inl he)⟩
    | some c =>
      rw [hfind, Option.some_or] at hlookup
      obtain rfl := Option.some.inj hlookup
      have hfound := List.find?_some hfind
      exact ⟨(beq_iff_eq.mp hfound).symm, gateId,
        GateStore.mem_commit.mpr (.inr ⟨rfl, List.mem_of_find?_eq_some hfind⟩)⟩
  · simp only [GateStore.gates_commit]
    split
    · rename_i heq
      subst heq
      refine ((GateStore.sortGate_perm _).pairwise_iff fun hapart => hapart.symm).mpr ?_
      rw [List.pairwise_append]
      refine ⟨h.distinct other, List.pairwise_map.mpr hfresh.apart, fun e he c hc => ?_⟩
      -- a stored event and a new one
      obtain ⟨d, hd, hsame⟩ := h.held other e he
      obtain ⟨c', hc', rfl⟩ := List.mem_map.mp hc
      have hne : e.eventId ≠ c'.1.eventId := by
        intro heq
        have hlookup := hunknown c'.1 hc
        rw [← heq, h.indexed other e he] at hlookup
        cases hlookup
      rcases hfresh.old c' hc' other d hd with heq | hapart
      · exact absurd (hsame.eventId.trans (congrArg GateEvent.eventId (Prod.mk.inj heq).2.symm)) hne
      · refine ⟨hne, ?_⟩
        rw [hsame.storedFingerprint]
        exact hapart.2.symm
    · exact h.distinct other
  · obtain ⟨other, e, he, heq, hstamped⟩ := h.stamped id hid
    exact ⟨other, e, GateStore.mem_commit.mpr (.inl he), heq, hstamped⟩

theorem post (h : Filed env node) {a : GateAction} {raisesAt : Option Nat}
    (hguard : KeepsReload env node (.post a raisesAt)) :
    Filed env (filedStep env limits node (.post a raisesAt)) := by
  have hfresh := fresh_of_guard hguard
  by_cases hnil : a.candidates env node.store = []
  · have hplan : node.disk.persist (Gate.gateKey env.rt a.gateId)
        (node.disk.persistGateNewEvents env limits (Gate.gateKey env.rt a.gateId)
          (node.store.gates (Gate.gateKey env.rt a.gateId))
          ((a.candidates env node.store).map Prod.fst)) raisesAt = (node.disk, true) := by
      rw [hnil]
      cases raisesAt <;> simp [GateDisk.persistGateNewEvents, GateDisk.persist, GateDisk.writes,
        bind, Except.bind, pure, Except.pure]
    have hmemory : gateStep env node.store (a.withPersisted true) = node.store := by
      rcases @gateStep_withPersisted env node.store a true with ⟨hstore, -⟩ | ⟨-, hne, -⟩
      · exact hstore
      · exact absurd hnil hne
    simp only [filedStep, hplan, hmemory, if_true]
    exact h
  · have hsettled : ∀ c ∈ (a.candidates env node.store).map Prod.fst,
        Settled env (Gate.gateKey env.rt a.gateId) c := by
      intro c hc
      obtain ⟨c', hc', rfl⟩ := List.mem_map.mp hc
      exact hfresh.settled c' hc'
    have hold : ∀ c ∈ (a.candidates env node.store).map Prod.fst, ∀ other,
        ∀ d ∈ (node.disk.logs other).stored, (Gate.gateKey env.rt a.gateId, c) = (other, d) ∨
          Apart env (Gate.gateKey env.rt a.gateId) c other d := by
      intro c hc
      obtain ⟨c', hc', rfl⟩ := List.mem_map.mp hc
      exact hfresh.old c' hc'
    have hheld : (node.disk.logs (Gate.gateKey env.rt a.gateId)).manifest = none →
        node.store.gates (Gate.gateKey env.rt a.gateId) = [] := by
      intro hnone
      apply List.eq_nil_iff_forall_not_mem.mpr
      intro e he
      obtain ⟨c, hc, -⟩ := h.held _ e he
      rw [SegmentedLog.stored_of_none hnone] at hc
      cases hc
    obtain ⟨ws, hws, ⟨hstored, htidy⟩, hpartial⟩ := @Consistent.persistGateNewEvents_spec env
      node.disk limits (Gate.gateKey env.rt a.gateId) h.files _ _ hheld hsettled (by simpa using hnil)
    simp only [filedStep, hws, GateDisk.persist]
    rcases node.disk.writes_cases (Gate.gateKey env.rt a.gateId) ws raisesAt with hall | ⟨n, hn, hsome⟩
    · rw [hall]
      simp only [if_true]
      rcases @gateStep_withPersisted env node.store a true with ⟨-, hor⟩ | ⟨-, -, call, hcall⟩
      · exact absurd hor (by simp [hnil])
      · rw [hcall]
        exact h.of_commit call hfresh
          (h.files.grow htidy hstored hsettled hfresh.equal_or_apart hold) hstored
    · rw [hsome]
      obtain ⟨taken, htaken, hstopped, htidy⟩ := hpartial n hn
      have hsub : ∀ c ∈ taken, c ∈ (a.candidates env node.store).map Prod.fst :=
        fun c hc => htaken.subset hc
      rcases @gateStep_withPersisted env node.store a false with ⟨hstore, -⟩ | ⟨hfalse, -⟩
      · simp only [hstore, Bool.false_eq_true, if_false]
        refine h.of_raised ?_ hsub hstopped
        exact h.files.grow htidy hstopped (fun c hc => hsettled c (hsub c hc))
          (fun c hc c' hc' => hfresh.equal_or_apart c (hsub c hc) c' (hsub c' hc'))
          (fun c hc => hold c (hsub c hc))
      · cases hfalse

/-! ## Stamps -/

theorem stampTarget_eq_some {gateId eventId plaintext : String} {e : GateEvent} {store : GateStore}
    (h : store.stampTarget env gateId eventId plaintext = some e) :
    plaintext ≠ "" ∧ store.eventIndex.lookup (strip eventId) = some e := by
  unfold GateStore.stampTarget at h
  split at h
  · cases h
  · rename_i hne
    exact ⟨fun hnil => hne (.inr (.inr hnil)), h⟩

theorem lookup_stampEvent (store : GateStore) (target plaintext replyTo id : String) :
    (store.stampEvent target plaintext replyTo).eventIndex.lookup id =
      (store.eventIndex.lookup id).map (GateEvent.stampIf target plaintext replyTo) := by
  unfold GateStore.stampEvent
  simp only
  induction store.eventIndex with
  | nil => rfl
  | cons kv rest ih =>
    obtain ⟨key, e⟩ := kv
    simp only [List.map_cons, Prod.map, id_eq, List.lookup_cons]
    cases id == key with
    | true => rfl
    | false => exact ih

/-- What a rewrite puts on disk: each event of the gate in its settled form. -/
structure Rewritten (env : Env) (node : GateNode) (gateId id plaintext replyTo : String)
    (cleaned : List GateEvent) : Prop where
  clean : ((node.store.gates gateId).map (GateEvent.stampIf id plaintext replyTo)).mapM
    (GateEvent.clean env gateId) = .ok cleaned
  of_mem : ∀ c' ∈ cleaned, ∃ e ∈ node.store.gates gateId, ∃ c ∈ (node.disk.logs gateId).stored,
    (e.stampIf id plaintext replyTo).clean env gateId = .ok c' ∧ Settled env gateId c' ∧
    (e.stampIf id plaintext replyTo).Same c' ∧ e.Same c ∧ c'.eventId = c.eventId ∧
    storedFingerprint env gateId c' = storedFingerprint env gateId c
  mem : ∀ e ∈ node.store.gates gateId, ∃ c' ∈ cleaned, (e.stampIf id plaintext replyTo).Same c'

theorem rewritten (h : Filed env node) (gateId id : String) {plaintext : String}
    (hplaintext : plaintext ≠ "") (replyTo : String) :
    ∃ cleaned, Rewritten env node gateId id plaintext replyTo cleaned := by
  obtain ⟨cleaned, hcleaned, hmem⟩ := @mapM_eq_ok_of_forall _ _ (GateEvent.clean env gateId)
    ((node.store.gates gateId).map (GateEvent.stampIf id plaintext replyTo)) (by
      intro e' he'
      obtain ⟨e, he, rfl⟩ := List.mem_map.mp he'
      obtain ⟨c, hc, hsame⟩ := h.held gateId e he
      obtain ⟨c', hclean, -⟩ := (h.files.settled gateId c hc).stampIf hsame id hplaintext replyTo
      exact ⟨c', hclean⟩)
  refine ⟨cleaned, hcleaned, fun c' hc' => ?_, fun e he => ?_⟩
  · obtain ⟨e', he', hclean⟩ := (hmem c').mp hc'
    obtain ⟨e, he, rfl⟩ := List.mem_map.mp he'
    obtain ⟨c, hc, hsame⟩ := h.held gateId e he
    obtain ⟨c'', hclean', hsettled, hstamped, hid, hfingerprint⟩ :=
      (h.files.settled gateId c hc).stampIf hsame id hplaintext replyTo
    obtain rfl := Except.ok.inj (hclean.symm.trans hclean')
    exact ⟨e, he, c, hc, hclean, hsettled, hstamped, hsame, hid, hfingerprint⟩
  · obtain ⟨c, hc, hsame⟩ := h.held gateId e he
    obtain ⟨c', hclean, -, hstamped, -⟩ :=
      (h.files.settled gateId c hc).stampIf hsame id hplaintext replyTo
    exact ⟨c', (hmem c').mpr ⟨_, List.mem_map_of_mem he, hclean⟩, hstamped⟩

/-- The files after a gate was rewritten with its events stamped. -/
theorem Rewritten.files {gateId id plaintext replyTo : String} {cleaned : List GateEvent}
    (hrewritten : Rewritten env node gateId id plaintext replyTo cleaned) (h : Filed env node)
    (limits : SegmentLimits) :
    Consistent env ((SegmentedLog.rewriteWrites limits.countFull cleaned).foldl
      (GateDisk.write gateId) node.disk) := by
  obtain ⟨hstored, htidy⟩ :=
    SegmentedLog.rewrite_stored (node.disk.logs gateId) limits.countFull cleaned
  refine h.files.of_writes htidy (fun c' hc' => ?_) (fun c' hc' d' hd' => ?_)
    (fun c' hc' other hother d hd => ?_)
  · rw [hstored] at hc'
    obtain ⟨-, -, -, -, -, hsettled, -⟩ := hrewritten.of_mem c' hc'
    exact hsettled
  · rw [hstored] at hc' hd'
    obtain ⟨e, he, c, hc, hclean, -, -, hsame, hid, hfingerprint⟩ := hrewritten.of_mem c' hc'
    obtain ⟨e', he', d, hd, hclean', -, -, hsame', hid', hfingerprint'⟩ := hrewritten.of_mem d' hd'
    rcases h.files.apart gateId c hc gateId d hd with heq | hapart
    · -- one event on disk is one event in memory, which has one settled form
      obtain rfl := (Prod.mk.inj heq).2
      obtain rfl := (h.unique he he' (hsame.eventId.trans hsame'.eventId.symm)).2
      exact .inl (Except.ok.inj (hclean.symm.trans hclean'))
    · right
      rw [Apart, hid, hid', hfingerprint, hfingerprint']
      exact hapart
  · rw [hstored] at hc'
    obtain ⟨-, -, c, hc, -, -, -, -, hid, hfingerprint⟩ := hrewritten.of_mem c' hc'
    rcases h.files.apart gateId c hc other d hd with heq | hapart
    · exact absurd (Prod.mk.inj heq).1.symm hother
    · rw [Apart, hid, hfingerprint]
      exact hapart

theorem of_stamp (h : Filed env node) {gateId eventId plaintext : String} {e : GateEvent}
    (htarget : node.store.stampTarget env gateId eventId plaintext = some e)
    (he : e ∈ node.store.gates (Gate.gateKey env.rt gateId)) (replyTo : String)
    {cleaned : List GateEvent} (hrewritten : Rewritten env node (Gate.gateKey env.rt gateId)
      (strip eventId) plaintext replyTo cleaned) :
    Filed env { node with
      store := node.store.stampEvent (strip eventId) plaintext replyTo
      disk := (SegmentedLog.rewriteWrites limits.countFull cleaned).foldl
        (GateDisk.write (Gate.gateKey env.rt gateId)) node.disk
      stamped := node.stamped ++ [e.eventId] } := by
  obtain ⟨hplaintext, hlookup⟩ := stampTarget_eq_some htarget
  have hid : e.eventId = strip eventId := (h.stored _ e hlookup).1
  obtain ⟨hstored, -⟩ := SegmentedLog.rewrite_stored
    (node.disk.logs (Gate.gateKey env.rt gateId)) limits.countFull cleaned
  -- the stamp reaches no event of another gate
  have hother : ∀ other ≠ Gate.gateKey env.rt gateId, ∀ d ∈ node.store.gates other,
      d.stampIf (strip eventId) plaintext replyTo = d := by
    intro other hne d hd
    unfold GateEvent.stampIf
    rw [if_neg]
    intro heq
    exact hne (h.unique hd he (heq.trans hid.symm)).1
  have hlogs : ∀ other, (((SegmentedLog.rewriteWrites limits.countFull cleaned).foldl
      (GateDisk.write (Gate.gateKey env.rt gateId)) node.disk).logs other).stored =
      if other = Gate.gateKey env.rt gateId then cleaned else (node.disk.logs other).stored := by
    intro other
    rw [GateDisk.logs_foldl_write, Function.update_apply]
    split
    · exact hstored
    · rfl
  refine ⟨hrewritten.files h limits, fun other d hd => ?_, fun other c hc => ?_,
    fun other d hd => ?_, fun id d hd => ?_, fun other => ?_, fun id hmem => ?_⟩
  · rw [hlogs]
    obtain ⟨d', hd', rfl⟩ := List.mem_map.mp hd
    split
    · rename_i heq
      subst heq
      exact hrewritten.mem d' hd'
    · rename_i hne
      rw [hother other hne d' hd']
      exact h.held other d' hd'
  · rw [hlogs] at hc
    split at hc
    · rename_i heq
      subst heq
      obtain ⟨d, hd, -, -, -, -, hsame, -⟩ := hrewritten.of_mem c hc
      exact .inl ⟨_, List.mem_map_of_mem hd, hsame⟩
    · rename_i hne
      refine (h.origin other c hc).imp_left ?_
      rintro ⟨d, hd, hsame⟩
      refine ⟨d, ?_, hsame⟩
      rw [← hother other hne d hd]
      exact List.mem_map_of_mem hd
  · obtain ⟨d', hd', rfl⟩ := List.mem_map.mp hd
    rw [lookup_stampEvent, GateEvent.stampIf_eventId, h.indexed other d' hd']
    rfl
  · simp only [lookup_stampEvent, Option.map_eq_some_iff] at hd
    obtain ⟨d, hd, rfl⟩ := hd
    obtain ⟨hid, other, hmem⟩ := h.stored id d hd
    exact ⟨by rw [GateEvent.stampIf_eventId, hid], other, List.mem_map_of_mem hmem⟩
  · refine List.pairwise_map.mpr ((h.distinct other).imp fun {a b} hapart => ?_)
    rw [Apart, GateEvent.stampIf_eventId, GateEvent.stampIf_eventId,
      GateEvent.stampIf_storedFingerprint, GateEvent.stampIf_storedFingerprint]
    exact hapart
  · rcases List.mem_append.mp hmem with hmem | hmem
    · obtain ⟨other, d, hd, hdid, hstamped⟩ := h.stamped id hmem
      refine ⟨other, _, List.mem_map_of_mem hd, by rw [GateEvent.stampIf_eventId, hdid], ?_⟩
      unfold GateEvent.stampIf
      split
      · exact d.isStamped_stamp hplaintext replyTo
      · exact hstamped
    · obtain rfl := List.mem_singleton.mp hmem
      refine ⟨_, _, List.mem_map_of_mem he, by rw [GateEvent.stampIf_eventId], ?_⟩
      rw [GateEvent.stampIf, if_pos hid]
      exact e.isStamped_stamp hplaintext replyTo

theorem stampLocalPlaintext (h : Filed env node) {gateId eventId plaintext replyTo : String}
    {raisesAt : Option Nat}
    (hguard : KeepsReload env node
      (.stampLocalPlaintext gateId eventId plaintext replyTo raisesAt)) :
    Filed env (filedStep env limits node
      (.stampLocalPlaintext gateId eventId plaintext replyTo raisesAt)) := by
  simp only [filedStep]
  cases htarget : node.store.stampTarget env gateId eventId plaintext with
  | none => exact h
  | some e =>
    obtain ⟨hplaintext, hlookup⟩ := stampTarget_eq_some htarget
    simp only
    cases hstamped : e.isStamped with
    | true =>
      simp only [if_true]
      refine ⟨h.files, h.held, h.origin, h.indexed, h.stored, h.distinct, fun id hmem => ?_⟩
      rcases List.mem_append.mp hmem with hmem | hmem
      · exact h.stamped id hmem
      · obtain rfl := List.mem_singleton.mp hmem
        obtain ⟨-, other, he⟩ := h.stored _ e hlookup
        exact ⟨other, e, he, rfl, hstamped⟩
    | false =>
      obtain ⟨he, rfl⟩ := hguard e htarget hstamped
      obtain ⟨cleaned, hrewritten⟩ :=
        h.rewritten (Gate.gateKey env.rt gateId) (strip eventId) hplaintext replyTo
      have hplan : GateDisk.persistGate env limits (Gate.gateKey env.rt gateId)
          ((node.store.stampEvent (strip eventId) plaintext replyTo).gates
            (Gate.gateKey env.rt gateId)) =
          .ok (SegmentedLog.rewriteWrites limits.countFull cleaned) := by
        unfold GateDisk.persistGate
        rw [bind_eq_ok]
        exact ⟨cleaned, hrewritten.clean, rfl⟩
      simp only [hplan, GateDisk.persist, GateDisk.writes, decide_true, if_true, Bool.false_eq_true,
        if_false]
      exact h.of_stamp htarget he replyTo hrewritten

end Filed

/-! ## Runs -/

/-- The loaded store is the memory's, up to the events of calls that raised, with every stamp. -/
structure Reload (env : Env) (node : GateNode) (loaded : GateStore) : Prop where
  held : ∀ gateId, ∀ e ∈ node.store.gates gateId,
    (∃ c ∈ loaded.gates gateId, e.Same c) ∨ e.eventId ∈ node.raised
  origin : ∀ gateId, ∀ c ∈ loaded.gates gateId,
    (∃ e ∈ node.store.gates gateId, e.Same c) ∨ c.eventId ∈ node.raised
  once : ∀ gateId, ((loaded.gates gateId).map GateEvent.eventId).Nodup
  distinct : ∀ gateId, (node.store.gates gateId).Pairwise fun a b => Apart env gateId a gateId b
  stamped : ∀ id ∈ node.stamped, ∃ gateId, ∃ c ∈ loaded.gates gateId,
    c.eventId = id ∧ c.isStamped = true

theorem Filed.reload {env : Env} {node : GateNode} (h : Filed env node) (now : ℚ) :
    ∃ loaded, GateStore.load env now node.disk = .ok loaded ∧ Reload env node loaded := by
  obtain ⟨loaded, hload, hmem, honce⟩ := h.files.load now
  refine ⟨loaded, hload, fun gateId e he => ?_, fun gateId c hc => ?_, honce, h.distinct,
    fun id hid => ?_⟩
  · obtain ⟨c, hc, hsame⟩ := h.held gateId e he
    exact .inl ⟨c, (hmem gateId c).mpr hc, hsame⟩
  · exact h.origin gateId c ((hmem gateId c).mp hc)
  · obtain ⟨gateId, e, he, heq, hstamped⟩ := h.stamped id hid
    obtain ⟨c, hc, hsame⟩ := h.held gateId e he
    exact ⟨gateId, c, (hmem gateId c).mpr hc, hsame.eventId.symm.trans heq,
      hsame.isStamped.symm.trans hstamped⟩

/-- While the run keeps the reload, a fresh store has what the memory holds. -/
theorem gate_store_reloads (env : Env) (limits : SegmentLimits) (now : ℚ)
    {actions : List FiledAction}
    (hrun : Along (filedStep env limits) (KeepsReload env) {} actions) :
    ∃ loaded, GateStore.load env now (run (filedStep env limits) {} actions).disk = .ok loaded ∧
      Reload env (run (filedStep env limits) {} actions) loaded := by
  have hfiled : Filed env (run (filedStep env limits) {} actions) := by
    refine invariant (fun node action h hguard => ?_) (filed_start env) hrun
    cases action with
    | post a raisesAt => exact h.post hguard
    | stampLocalPlaintext gateId eventId plaintext replyTo raisesAt =>
      exact h.stampLocalPlaintext hguard
  exact hfiled.reload now

/-- The segment sizes of a default installation, where nothing compresses to a full segment. -/
def defaultLimits : SegmentLimits where
  eventTarget := 1000
  maxCompressedBytes := 2097152
  compressedLength _ := 0

def noteEvent : Dict :=
  [("event_id", .str "e1"), ("node_id", .str "ana"), ("sequence", .int 1),
    ("timestamp", .int 1700000000), ("signature", .str "s"), ("public_key", .str "k"),
    ("public_key_algo", .str "Ed25519"), ("protocol_version", .str protocolVersion),
    ("payload", .dict gatePayload)]

/-- The event as the gate stores it. -/
def note : GateEvent where
  eventId := "e1"
  nodeId := "ana"
  timestamp := .finite 1700000000
  sequence := 1
  signature := "s"
  publicKey := "k"
  publicKeyAlgo := "Ed25519"
  protocolVersion := protocolVersion
  payload := gatePayload

theorem gateKey_g : Gate.gateKey textSignedEnv.rt "g" = "g" := by decide +kernel

theorem cleanEvent_note : GateStore.cleanEvent textSignedEnv "g" noteEvent = .ok note := rfl

theorem settled_note : Settled textSignedEnv "g" note where
  key := gateKey_g
  gate := by decide
  eventId := by decide +kernel
  clean := rfl

/-- A post to the gate `g`, and a stamp under the name of some gate. -/
def noteRun (stampGate : String) : List FiledAction :=
  [.post (.append openCall "g" noteEvent) none,
    .stampLocalPlaintext stampGate "e1" "hello" "" none]

theorem gate_store_reloads_sample :
    (run (filedStep textSignedEnv defaultLimits) {} (noteRun "g")).stamped = ["e1"] ∧
    ∃ loaded, GateStore.load textSignedEnv 1700000200
        (run (filedStep textSignedEnv defaultLimits) {} (noteRun "g")).disk = .ok loaded ∧
      Reload textSignedEnv (run (filedStep textSignedEnv defaultLimits) {} (noteRun "g")) loaded := by
  have harrives : ∀ clean fingerprint,
      Arrives textSignedEnv {} (.append openCall "g" noteEvent) clean fingerprint → clean = note := by
    rintro clean fingerprint ⟨-, -, hclean, -⟩
    rw [gateKey_g, cleanEvent_note] at hclean
    exact (Except.ok.inj hclean).symm
  refine ⟨by decide +kernel, gate_store_reloads _ _ _ ⟨⟨?_, ?_⟩, ?_, trivial⟩⟩
  · intro clean fingerprint h
    obtain rfl := harrives clean fingerprint h
    simp only [GateAction.gateId, gateKey_g]
    refine ⟨settled_note, fun gateId d hd => ?_⟩
    simp [SegmentedLog.stored] at hd
  · intro clean fingerprint clean' fingerprint' h h' hne
    exact absurd (by rw [harrives _ _ h, harrives _ _ h']) hne
  · intro e htarget _
    have hnote : (filedStep textSignedEnv defaultLimits {}
        (.post (.append openCall "g" noteEvent) none)).store.stampTarget textSignedEnv "g" "e1" "hello" =
        some note := rfl
    obtain rfl := Option.some.inj (hnote.symm.trans htarget)
    refine ⟨?_, rfl⟩
    rw [gateKey_g]
    exact List.mem_singleton_self note

/-- A stamp under the name of another gate returns `True` and changes the memory, and writes
    the other gate. -/
theorem not_gate_store_reloads :
    ¬ ∀ (env : Env) (limits : SegmentLimits) (now : ℚ) (actions : List FiledAction),
      ∃ loaded, GateStore.load env now (run (filedStep env limits) {} actions).disk = .ok loaded ∧
        Reload env (run (filedStep env limits) {} actions) loaded := by
  intro h
  obtain ⟨loaded, hload, hreload⟩ := h textSignedEnv defaultLimits 1700000200 (noteRun "h")
  have hunstamped : okAnd (GateStore.load textSignedEnv 1700000200
      (run (filedStep textSignedEnv defaultLimits) {} (noteRun "h")).disk)
      (fun loaded => (loaded.gates "g").all fun c => !c.isStamped) = true := by decide +kernel
  have hmemory : (run (filedStep textSignedEnv defaultLimits) {} (noteRun "h")).store.gates "g" =
      [note.stamp "hello" ""] := rfl
  obtain ⟨loaded', hload', hall⟩ := okAnd_iff.mp hunstamped
  obtain rfl := Except.ok.inj (hload.symm.trans hload')
  rcases hreload.held "g" (note.stamp "hello" "") (hmemory ▸ List.mem_singleton_self _) with
    ⟨c, hc, hsame⟩ | hraised
  · have hnot := List.all_eq_true.mp hall c hc
    rw [← hsame.isStamped, note.isStamped_stamp (by decide) ""] at hnot
    cases hnot
  · exact absurd hraised (by decide +kernel)

end Vincent.Mesh
