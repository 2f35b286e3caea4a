-- SUMMARY: The event ids as replay protection of a gate.
import Vincent.Mesh.GateStore

/-!
# Replay protection in a gate

The store knows an event again by its id or by its replay fingerprint. Both cover the
timestamp, which the signature does not. A run in which every copy of a signed message
keeps one of the two stores each message once.
-/

namespace Vincent.Mesh

open Vincent.Python Vincent.Check Vincent.Run

/-- What makes two stored events the same signed message. -/
def GateEvent.ticket (e : GateEvent) : String × Int × String := (e.nodeId, e.sequence, e.signature)

/-- One call on the store. -/
inductive GateAction where
  | append (call : GateCall) (gateId : String) (event : Dict)
  | ingest (call : GateCall) (gateId : String) (events : List PyVal)

/-- The memory after a call. A call that raises leaves it alone. -/
def gateStep (env : Env) (store : GateStore) : GateAction → GateStore
  | .append call gateId event => (store.append env call gateId event).1
  | .ingest call gateId events => (store.ingestPeerEvents env call gateId events).1

/-- Verification would store `clean` for the event, and remember `fingerprint`. -/
def Offers (env : Env) (call : GateCall) (gateId : String) (event : PyVal) (clean : GateEvent)
    (fingerprint : String) : Prop :=
  ∃ raw timestamp, event = .dict raw ∧ Gate.timestampOf env.rt raw = .ok timestamp ∧
    fingerprint = Gate.replayFingerprint env gateId timestamp (Gate.payloadOf raw) ∧
    Gate.verifyTransportEvent env call.canEnter gateId raw = .ok clean

/-- A copy of a message of the store or of the call has its id, or a fingerprint that is
remembered. -/
def CopiesAreKnown (env : Env) (store : GateStore) : GateAction → Prop
  | .append _ gateId event => ∀ clean,
    GateStore.cleanEvent env (Gate.gateKey env.rt gateId) event = .ok clean →
    ∀ e ∈ store.gates (Gate.gateKey env.rt gateId), e.ticket = clean.ticket →
      clean.eventId = e.eventId ∨ store.knowsFingerprint (Gate.replayFingerprint env
        (Gate.gateKey env.rt gateId) clean.timestamp clean.payload)
  | .ingest call gateId events => ∀ event ∈ events, ∀ clean fingerprint,
    Offers env call (Gate.gateKey env.rt gateId) event clean fingerprint →
    (∀ e ∈ store.gates (Gate.gateKey env.rt gateId), e.ticket = clean.ticket →
      clean.eventId = e.eventId ∨ store.knowsFingerprint fingerprint) ∧
    ∀ event' ∈ events, ∀ clean' fingerprint',
      Offers env call (Gate.gateKey env.rt gateId) event' clean' fingerprint' →
      clean'.ticket = clean.ticket → clean'.eventId = clean.eventId ∨ fingerprint' = fingerprint

/-- Each gate holds a signed message once, and the id of every stored event is known. -/
structure StoredOnce (store : GateStore) : Prop where
  once : ∀ gateId, ((store.gates gateId).map GateEvent.ticket).Nodup
  known : ∀ gateId, ∀ e ∈ store.gates gateId, store.knowsId e.eventId = true

/-! ## Commit -/

section
variable {env : Env} {call : GateCall} {store : GateStore} {gateId : String}

theorem GateStore.maybePrune_frame (store : GateStore) (now : ℚ) :
    (store.maybePruneReplayIndex now).gates = store.gates ∧
    (store.maybePruneReplayIndex now).eventIndex = store.eventIndex := by
  unfold maybePruneReplayIndex
  simp only
  split
  · exact ⟨rfl, rfl⟩
  · exact ⟨rfl, rfl⟩

theorem GateStore.knowsId_iff {id : String} :
    store.knowsId id = true ↔ ∃ kv ∈ store.eventIndex, kv.1 = id := by
  unfold knowsId
  rw [List.lookup_isSome_iff]
  simp only [beq_iff_eq, @eq_comm _ id]

/-- A commit makes the ids of the new events known, and forgets no id. -/
theorem GateStore.knowsId_commit {new : List (GateEvent × String)} {id : String} :
    (store.commit call gateId new).knowsId id = true ↔
      (∃ c ∈ new, c.1.eventId = id) ∨ store.knowsId id = true := by
  rw [knowsId_iff, knowsId_iff, commit, (maybePrune_frame _ _).2]
  simp only [List.mem_append, List.mem_map]
  constructor
  · rintro ⟨kv, ⟨c, hc, rfl⟩ | hkv, rfl⟩
    · exact .inl ⟨c, hc, rfl⟩
    · exact .inr ⟨kv, hkv, rfl⟩
  · rintro (⟨c, hc, rfl⟩ | ⟨kv, hkv, rfl⟩)
    · exact ⟨_, .inl ⟨c, hc, rfl⟩, rfl⟩
    · exact ⟨kv, .inr hkv, rfl⟩

theorem GateStore.gates_commit {new : List (GateEvent × String)} (other : String) :
    (store.commit call gateId new).gates other =
      if other = gateId then sortGate (store.gates gateId ++ new.map Prod.fst)
      else store.gates other := by
  rw [commit, (maybePrune_frame _ _).1]
  by_cases h : other = gateId
  · subst h
    simp
  · simp [h]

theorem GateStore.sortGate_perm (events : List GateEvent) :
    (sortGate events).Perm events := List.perm_insertionSort _ _

/-- New events with fresh ids, not stored and not twice there, keep every message stored once. -/
theorem StoredOnce.commit (h : StoredOnce store) {new : List (GateEvent × String)}
    (hnew : (new.map fun c => c.1.ticket).Nodup)
    (hstored : ∀ c ∈ new, ∀ e ∈ store.gates gateId, e.ticket ≠ c.1.ticket) :
    StoredOnce (store.commit call gateId new) := by
  refine ⟨fun other => ?_, fun other e he => ?_⟩
  · rw [GateStore.gates_commit]
    split
    · have hperm := (GateStore.sortGate_perm (store.gates gateId ++ new.map Prod.fst)).map
        GateEvent.ticket
      rw [hperm.nodup_iff, List.map_append, List.map_map, List.nodup_append]
      refine ⟨h.once gateId, hnew, ?_⟩
      intro ticket hold ticket' hlast heq
      obtain ⟨e, he, rfl⟩ := List.mem_map.mp hold
      obtain ⟨c, hc, rfl⟩ := List.mem_map.mp hlast
      exact hstored c hc e he heq
    · exact h.once other
  · rw [GateStore.knowsId_commit]
    rw [GateStore.gates_commit] at he
    split at he
    · have hmem := (GateStore.sortGate_perm _).mem_iff.mp he
      rcases List.mem_append.mp hmem with hold | hlast
      · exact .inr (h.known gateId e hold)
      · obtain ⟨c, hc, rfl⟩ := List.mem_map.mp hlast
        exact .inl ⟨c, hc, rfl⟩
    · exact .inr (h.known other e he)

end

/-! ## Append -/

section
variable {env : Env} {store : GateStore}

theorem StoredOnce.append (h : StoredOnce store) {call : GateCall} {gateId : String} {event : Dict}
    (hcopies : CopiesAreKnown env store (.append call gateId event)) :
    StoredOnce (store.append env call gateId event).1 := by
  unfold GateStore.append
  simp only
  split
  · exact h
  · split
    · exact h
    · rename_i clean hclean
      split
      · exact h
      · exact h
      · rename_i hfingerprint hid
        split
        · apply h.commit
          · simp
          · intro c hc e he heq
            obtain rfl := List.mem_singleton.mp hc
            rcases hcopies clean hclean e he heq with hsame | hknown
            · have hknown := h.known _ e he
              rw [GateStore.knowsId, ← hsame, hid] at hknown
              cases hknown
            · rw [GateStore.knowsFingerprint, hfingerprint] at hknown
              cases hknown
        · exact h

end

/-! ## Ingest -/

section
variable {env : Env} {call : GateCall} {store : GateStore} {gateId : String}

/-- The candidates come from the events, with ids and fingerprints new to the store and the
batch. -/
structure Screened (env : Env) (call : GateCall) (store : GateStore) (gateId : String)
    (events : List PyVal) (batch : GateStore.Batch) : Prop where
  offered : ∀ c ∈ batch.candidates, ∃ event ∈ events, Offers env call gateId event c.1 c.2
  fresh : ∀ c ∈ batch.candidates,
    store.knowsId c.1.eventId = false ∧ store.knowsFingerprint c.2 = false
  apart : batch.candidates.Pairwise fun a b => a.1.eventId ≠ b.1.eventId ∧ a.2 ≠ b.2

theorem Screened.of_candidates {events : List PyVal} {batch batch' : GateStore.Batch}
    (h : Screened env call store gateId events batch)
    (hsame : batch'.candidates = batch.candidates) :
    Screened env call store gateId events batch' :=
  ⟨hsame ▸ h.offered, hsame ▸ h.fresh, hsame ▸ h.apart⟩

/-- An event whose id and fingerprint neither the store nor the batch knows joins the batch. -/
theorem Screened.push {events : List PyVal} {batch : GateStore.Batch} {clean : GateEvent}
    {fingerprint : String} (h : Screened env call store gateId events batch)
    (hoffer : ∃ event ∈ events, Offers env call gateId event clean fingerprint)
    (hid : store.knowsId clean.eventId = false ∧ batch.knowsId clean.eventId = false)
    (hfingerprint : store.knowsFingerprint fingerprint = false ∧
      batch.knowsFingerprint fingerprint = false) :
    Screened env call store gateId events
      { batch with candidates := batch.candidates ++ [(clean, fingerprint)] } := by
  refine ⟨fun c hc => ?_, fun c hc => ?_, ?_⟩
  · rcases List.mem_append.mp hc with hc | hc
    · exact h.offered c hc
    · obtain rfl := List.mem_singleton.mp hc
      exact hoffer
  · rcases List.mem_append.mp hc with hc | hc
    · exact h.fresh c hc
    · obtain rfl := List.mem_singleton.mp hc
      exact ⟨hid.1, hfingerprint.1⟩
  · rw [List.pairwise_append]
    refine ⟨h.apart, List.pairwise_singleton _ _, ?_⟩
    intro c hc c' hc'
    obtain rfl := List.mem_singleton.mp hc'
    have hids := List.any_eq_false.mp hid.2 c hc
    have hfingerprints := List.any_eq_false.mp hfingerprint.2 c hc
    exact ⟨by simpa using hids, by simpa using hfingerprints⟩

theorem Screened.screen {events : List PyVal} {batch batch' : GateStore.Batch}
    (h : Screened env call store gateId events batch) {event : PyVal} (hevent : event ∈ events)
    (hscreen : GateStore.screen env call store gateId batch event = .ok batch') :
    Screened env call store gateId events batch' := by
  cases event with
  | dict raw =>
    unfold GateStore.screen at hscreen
    simp only at hscreen
    split at hscreen
    · cases hscreen
      exact h.of_candidates rfl
    · obtain ⟨timestamp, htimestamp, hscreen⟩ := bind_eq_ok.mp hscreen
      split at hscreen
      · cases hscreen
        exact h.of_candidates rfl
      · rename_i hfingerprint
        split at hscreen
        · cases hscreen
          exact h.of_candidates rfl
        · split at hscreen
          · cases hscreen
            exact h.of_candidates rfl
          · split at hscreen
            · cases hscreen
            · cases hscreen
              exact h.of_candidates rfl
            · rename_i clean hverify
              split at hscreen
              · cases hscreen
                exact h.of_candidates rfl
              · rename_i hid
                have hoffer : Offers env call gateId (.dict raw) clean
                    (Gate.replayFingerprint env gateId timestamp (Gate.payloadOf raw)) :=
                  ⟨raw, timestamp, rfl, htimestamp, rfl, hverify⟩
                simp only [Bool.or_eq_true, not_or, Bool.not_eq_true] at hid hfingerprint
                have hpush := h.push ⟨_, hevent, hoffer⟩ hid hfingerprint
                obtain rfl := pure_eq_ok.mp hscreen
                exact hpush
  | none | bool | int | float | str | list =>
    cases hscreen
    exact h.of_candidates rfl

theorem Screened.screenAll {events rest : List PyVal} {batch batch' : GateStore.Batch}
    (h : Screened env call store gateId events batch) (hrest : ∀ event ∈ rest, event ∈ events)
    (hscreen : rest.foldlM (GateStore.screen env call store gateId) batch = .ok batch') :
    Screened env call store gateId events batch' := by
  induction rest generalizing batch with
  | nil =>
    cases hscreen
    exact h
  | cons event rest ih =>
    rw [List.foldlM_cons] at hscreen
    obtain ⟨next, hnext, hscreen⟩ := bind_eq_ok.mp hscreen
    exact ih (h.screen (hrest event List.mem_cons_self) hnext)
      (fun e he => hrest e (List.mem_cons_of_mem _ he)) hscreen

theorem StoredOnce.ingest (h : StoredOnce store) {gateId : String} {events : List PyVal}
    (hcopies : CopiesAreKnown env store (.ingest call gateId events)) :
    StoredOnce (store.ingestPeerEvents env call gateId events).1 := by
  unfold GateStore.ingestPeerEvents
  simp only
  split
  · exact h
  · split
    · exact h
    · rename_i batch hbatch
      have hscreened : Screened env call store (Gate.gateKey env.rt gateId) events batch :=
        Screened.screenAll ⟨by simp, by simp, by simp⟩ (fun _ he => he) hbatch
      split
      · exact h
      · split
        · apply h.commit
          · -- two candidates with one ticket would share an id or a fingerprint
            apply List.pairwise_map.mpr
            refine hscreened.apart.imp_of_mem fun {a b} ha hb hapart heq => ?_
            obtain ⟨event, hevent, hoffer⟩ := hscreened.offered a ha
            obtain ⟨event', hevent', hoffer'⟩ := hscreened.offered b hb
            rcases (hcopies event hevent _ _ hoffer).2 event' hevent' _ _ hoffer' heq.symm with
              hid | hfingerprint
            · exact hapart.1 hid.symm
            · exact hapart.2 hfingerprint.symm
          · intro c hc e he heq
            obtain ⟨event, hevent, hoffer⟩ := hscreened.offered c hc
            obtain ⟨hid, hfingerprint⟩ := hscreened.fresh c hc
            rcases (hcopies event hevent _ _ hoffer).1 e he heq with hsame | hknown
            · rw [hsame, h.known _ e he] at hid
              cases hid
            · rw [hfingerprint] at hknown
              cases hknown
        · exact h

end

/-! ## Runs -/

/-- In a run in which copies are known, no gate stores a signed message twice. -/
theorem stored_once (env : Env) {actions : List GateAction}
    (hrun : Along (gateStep env) (CopiesAreKnown env) {} actions) (gateId : String) :
    (((run (gateStep env) {} actions).gates gateId).map GateEvent.ticket).Nodup := by
  have hinit : StoredOnce {} := ⟨by simp, by simp⟩
  refine (invariant (fun store action h hcopies => ?_) hinit hrun).once gateId
  cases action with
  | append call gateId event => exact h.append hcopies
  | ingest call gateId events => exact h.ingest hcopies

/-- A signature fits one text. -/
def SignaturesBind (env : Env) : Prop :=
  ∀ key key' algo algo' signature text text', env.verifySignature key algo signature text = true →
    env.verifySignature key' algo' signature text' = true → text = text'

/-- A node to run examples on, where no two texts share a hash and the signature of a text is
    the text. -/
def textSignedEnv : Env :=
  { plainEnv with
    sha256 := fun s => "h" ++ s
    sha256_ne_empty := fun s => by simp [String.ext_iff]
    verifySignature := fun _ _ signature text => signature == text }

/-- A call where everybody may enter and the disk works. -/
def openCall : GateCall where
  now := 1700000100
  canEnter _ _ _ _ := none
  isHex _ := true
  persisted := true

def gatePayload : Dict :=
  [("gate", .str "g"), ("ciphertext", .str "c"), ("nonce", .str "n"), ("sender_ref", .str "r"),
    ("format", .str "mls1"), ("epoch", .int 1)]

/-- One signed message, with the timestamp a peer gives it. -/
def gateMessageAt (timestamp : Int) : PyVal :=
  .dict [("event_type", .str "gate_message"), ("node_id", .str "ana"), ("sequence", .int 1),
    ("timestamp", .int timestamp), ("public_key", .str "k"), ("public_key_algo", .str "Ed25519"),
    ("protocol_version", .str protocolVersion), ("payload", .dict gatePayload),
    ("signature", .str (match buildSignaturePayload asciiRuntime "gate_message" "ana" 1 gatePayload with
      | .ok text => text
      | .error exn => exn))]

theorem textSignedEnv_binds : SignaturesBind textSignedEnv := by
  intro key key' algo algo' signature text text' h h'
  exact (beq_iff_eq.mp h).symm.trans (beq_iff_eq.mp h')

theorem gateMessage_stored : ((gateStep textSignedEnv {}
    (.ingest openCall "g" [gateMessageAt 1700000000])).gates "g").length = 1 := by decide +kernel

/-- One peer sends the message once. -/
def gateMessageRun : List GateAction := [.ingest openCall "g" [gateMessageAt 1700000000]]

theorem stored_once_sample :
    ((run (gateStep textSignedEnv) {} gateMessageRun).gates "g").length = 1 ∧
    (((run (gateStep textSignedEnv) {} gateMessageRun).gates "g").map GateEvent.ticket).Nodup := by
  have hguard : Along (gateStep textSignedEnv) (CopiesAreKnown textSignedEnv) {} gateMessageRun := by
    refine ⟨?_, trivial⟩
    intro event hevent clean fingerprint hoffer
    refine ⟨fun e he => by simp at he, ?_⟩
    rintro event' hevent' clean' fingerprint' ⟨raw', ts', hraw', -, -, hclean'⟩ -
    obtain ⟨raw, ts, hraw, -, -, hclean⟩ := hoffer
    obtain rfl := List.mem_singleton.mp hevent
    obtain rfl := List.mem_singleton.mp hevent'
    obtain rfl : raw = raw' := PyVal.dict.inj (hraw.symm.trans hraw')
    exact .inl (congrArg GateEvent.eventId (Except.ok.inj (hclean'.symm.trans hclean)))
  refine ⟨?_, stored_once textSignedEnv hguard "g"⟩
  rw [gateMessageRun, run_cons, run_nil]
  exact gateMessage_stored

/-- Another timestamp, which the signature does not cover, and no id have a message stored again. -/
theorem not_stored_once :
    ¬ ∀ (env : Env) (actions : List GateAction) (gateId : String), SignaturesBind env →
      (((run (gateStep env) {} actions).gates gateId).map GateEvent.ticket).Nodup := by
  intro h
  have hrun := h textSignedEnv [.ingest openCall "g" [gateMessageAt 1700000000],
    .ingest openCall "g" [gateMessageAt 1700000001]] "g" textSignedEnv_binds
  revert hrun
  decide +kernel

end Vincent.Mesh
