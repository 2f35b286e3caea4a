-- SUMMARY: Which chains come back from the chain file.
import Vincent.Mesh.Sequences
import Vincent.Python.Orjson

/-!
# The chain file and the hashes

Event ids are hashes of a text that Python's `json` writes, and `_flush` writes the
chain with `orjson`. An event with other numbers than integers of 64 bits and finite
floats either keeps `_flush` from writing the chain or comes back with another hash.
-/

namespace Vincent.Mesh

open Vincent.Python Vincent.Check Vincent.Run

/-! ## Writing and reading -/

namespace ChainEvent

/-- The event as it is read back from the chain file, or `none` where writing it raises. -/
def orjson (e : ChainEvent) : Option ChainEvent := do
  let payload ← PyVal.orjsonItems e.payload
  let timestamp ← e.timestamp.orjson
  let sequence ← e.sequence.orjson
  let extra ← PyVal.orjsonItems e.extra
  return { e with payload := payload, timestamp := timestamp, sequence := sequence, extra := extra }

/-- The text that `_compute_hash` hashes. -/
def content (env : Env) (e : ChainEvent) : String :=
  e.prevHash ++ ":" ++ e.eventType ++ ":" ++ e.nodeId ++ ":" ++
    canonicalJson env.rt e.payload ++ ":" ++ e.timestamp.toStr env.rt ++ ":" ++
    e.sequence.toStr env.rt ++ ":" ++ e.networkId

end ChainEvent

/-- `_flush` can write the chain, and `_load` finds every hash of it right. -/
structure Reloads (env : Env) (later : Call) (net : Infonet) : Prop where
  counters : ∀ slot, fitsOrjson (net.lastSequence slot)
  events : ∃ stored, net.events.mapM ChainEvent.orjson = some stored ∧
    ∀ e ∈ stored, ChainEvent.hashMatches env later e = true

/-- All integers of the event fit 64 bits. -/
def ChainEvent.Encodable (e : ChainEvent) : Prop :=
  PyVal.encodableItems e.payload = true ∧ e.timestamp.encodable = true ∧
    e.sequence.encodable = true ∧ PyVal.encodableItems e.extra = true

/-- The event carries a timestamp, and not an infinite one. -/
def ChainEvent.Dated (e : ChainEvent) : Prop :=
  e.timestamp.truthy = true ∧ e.timestamp.compliant = true

/-- All integers of the event fit 64 bits, and all floats of its payload are finite. -/
structure ChainEvent.Storable (e : ChainEvent) : Prop where
  encodable : e.Encodable
  finite : PyVal.compliantItems e.payload = true

/-- No event shares its hash with what is read back of it, unless the hashed text is the
    same. -/
def CollisionFree (env : Env) (later : Call) (net : Infonet) : Prop :=
  ∀ e ∈ net.events, ∀ stored, e.orjson = some stored →
    env.sha256 ((stored.init env later).content env) = env.sha256 ((e.init env later).content env) →
      (stored.init env later).content env = (e.init env later).content env

/-! ## One event -/

namespace ChainEvent

variable {env : Env} {e stored : ChainEvent}

theorem orjson_eq_some : e.orjson = some stored ↔
    ∃ payload timestamp sequence extra, PyVal.orjsonItems e.payload = some payload ∧
      e.timestamp.orjson = some timestamp ∧ e.sequence.orjson = some sequence ∧
      PyVal.orjsonItems e.extra = some extra ∧
      { e with payload := payload, timestamp := timestamp, sequence := sequence, extra := extra } =
        stored := by
  simp only [orjson, Option.bind_eq_bind, Option.bind_eq_some_iff, Option.pure_def,
    Option.some.injEq]
  constructor
  · rintro ⟨payload, hpayload, timestamp, htimestamp, sequence, hsequence, extra, hextra, rfl⟩
    exact ⟨payload, timestamp, sequence, extra, hpayload, htimestamp, hsequence, hextra, rfl⟩
  · rintro ⟨payload, timestamp, sequence, extra, hpayload, htimestamp, hsequence, hextra, rfl⟩
    exact ⟨payload, hpayload, timestamp, htimestamp, sequence, hsequence, extra, hextra, rfl⟩

theorem exists_orjson_iff : (∃ stored, e.orjson = some stored) ↔ e.Encodable := by
  unfold Encodable
  rw [← PyVal.orjsonItems_isSome, ← PyVal.orjson_isSome, ← PyVal.orjson_isSome,
    ← PyVal.orjsonItems_isSome]
  simp only [orjson_eq_some, Option.isSome_iff_exists]
  constructor
  · rintro ⟨_, payload, timestamp, sequence, extra, hpayload, htimestamp, hsequence, hextra, -⟩
    exact ⟨⟨payload, hpayload⟩, ⟨timestamp, htimestamp⟩, ⟨sequence, hsequence⟩, ⟨extra, hextra⟩⟩
  · rintro ⟨⟨payload, hpayload⟩, ⟨timestamp, htimestamp⟩, ⟨sequence, hsequence⟩, ⟨extra, hextra⟩⟩
    exact ⟨_, payload, timestamp, sequence, extra, hpayload, htimestamp, hsequence, hextra, rfl⟩

/-- A positive sequence is no infinity and no NaN, and holds none. -/
theorem compliant_of_seqNum_pos {rt : Runtime} (h : 0 < e.seqNum rt) :
    e.sequence.compliant = true := by
  have hzero : ∀ v : PyVal, e.sequence = v → safeInt rt (v.or (.int 0)) 0 = .ok 0 → False := by
    intro v hv hread
    rw [seqNum, seq, hv, hread] at h
    exact lt_irrefl _ h
  cases hseq : e.sequence with
  | float x =>
    cases x with
    | finite | negZero => rfl
    | nan => exact (hzero _ hseq rfl).elim
    | inf | negInf => simp [seqNum, seq, hseq, PyVal.or, PyVal.truthy, safeInt] at h
  | list v => cases v <;> exact (hzero _ hseq rfl).elim
  | dict d => cases d <;> exact (hzero _ hseq rfl).elim
  | none | bool | int | str => rfl

/-- An event with a timestamp keeps its content exactly when the floats of its payload are
finite. -/
theorem content_orjson_iff (h : e.orjson = some stored) (hdated : e.Dated)
    (hsequence : e.sequence.compliant = true) (later : Call) :
    (stored.init env later).content env = (e.init env later).content env ↔
      PyVal.compliantItems e.payload = true := by
  obtain ⟨-, htimestamp, hseq, -⟩ := exists_orjson_iff.mp ⟨stored, h⟩
  obtain ⟨payload, timestamp, sequence, extra, hpayload, hstamp, hnumber, -, rfl⟩ :=
    orjson_eq_some.mp h
  obtain rfl : timestamp = e.timestamp :=
    Option.some.inj (hstamp.symm.trans (PyVal.orjson_of_compliant htimestamp hdated.2))
  obtain rfl : sequence = e.sequence :=
    Option.some.inj (hnumber.symm.trans (PyVal.orjson_of_compliant hseq hsequence))
  rw [← canonicalJson_orjson_iff env.rt hpayload]
  simp only [init, content, timestampOrNow_of_truthy hdated.1, String.append_left_inj,
    String.append_right_inj]

end ChainEvent

/-! ## The chain that a node builds -/

/-- The counters stand where the events have put them, and the hashes were right on acceptance. -/
structure Tallied (env : Env) (net : Infonet) : Prop where
  counted : ∀ e ∈ net.history, Counted env.rt net e
  reached : ∀ slot, net.lastSequence slot = 0 ∨
    ∃ e ∈ net.history, e.seqNum env.rt = net.lastSequence slot
  hashed : ∀ e ∈ net.events, ∃ call, ChainEvent.hashMatches env call e = true

section
variable {env : Env} {call : Call} {net net' : Infonet}

theorem Tallied.advances (h : Tallied env net) (hadvances : Advances env call net net') :
    Tallied env net' := by
  obtain ⟨new, htakes⟩ := hadvances.takes
  refine ⟨fun e he => ?_, ?_, fun e he => ?_⟩
  · have hstart : Accounted env.rt [] net := ⟨List.nodup_nil, by simpa using h.counted⟩
    exact (hstart.takes htakes).counted e (List.mem_append_right _ he)
  · have hreached := h.reached
    clear hadvances h
    induction htakes with
    | refl => exact hreached
    | frame _ hhistory hsequence _ ih =>
      intro slot
      rw [hsequence, hhistory]
      exact ih slot
    | accept _ haccepted ih =>
      intro slot
      rw [Infonet.commit_lastSequence, Infonet.commit_history]
      split
      · exact .inr ⟨_, List.mem_append_right _ (List.mem_singleton_self _), rfl⟩
      · rcases ih slot with hzero | ⟨e, he, heq⟩
        · exact .inl hzero
        · exact .inr ⟨e, List.mem_append_left _ he, heq⟩
  · rcases hadvances.mem_events he with hold | hnew
    · exact h.hashed e hold
    · exact ⟨call, hnew⟩

theorem Tallied.build (env : Env) (start : Call) (ops : List (Call × LedgerOp)) :
    Tallied env (build env start ops) := by
  have hstart : Tallied env (.empty start) := by
    refine ⟨?_, fun slot => .inl (by cases slot <;> rfl), ?_⟩ <;>
    · intro e he
      cases he
  have hstep : ∀ (net : Infonet) (op : Call × LedgerOp), Tallied env net → True →
      Tallied env (op.2.apply env op.1 net) :=
    fun net op h _ => h.advances (advances_apply net op.2)
  exact invariant hstep hstart (along_iff_split.mpr fun _ _ _ _ => trivial)

/-- The counters can be written exactly when the sequences of the history fit. -/
theorem Tallied.counters_iff (h : Tallied env net) : (∀ slot, fitsOrjson (net.lastSequence slot)) ↔
    ∀ e ∈ net.history, e.seqNum env.rt < 2 ^ 64 := by
  constructor
  · intro hfits e he
    exact lt_of_le_of_lt (h.counted e he).counted (hfits _).2
  · intro hsequences slot
    rcases h.reached slot with hzero | ⟨e, he, heq⟩
    · rw [hzero]
      decide
    · rw [← heq]
      exact ⟨by have := (h.counted e he).positive; omega, hsequences e he⟩

/-- A chain is written, and read back as the property asks, when each event is. -/
theorem exists_mapM_orjson {P : ChainEvent → Prop} {es : List ChainEvent} :
    (∃ stored, es.mapM ChainEvent.orjson = some stored ∧ ∀ e ∈ stored, P e) ↔
      ∀ e ∈ es, ∃ e', e.orjson = some e' ∧ P e' := by
  induction es with
  | nil => simp
  | cons e es ih =>
    rw [List.forall_mem_cons, ← ih]
    simp only [List.mapM_cons, Option.bind_eq_bind, Option.bind_eq_some_iff, Option.pure_def,
      Option.some.injEq]
    constructor
    · rintro ⟨_, ⟨e', he', es', hes', rfl⟩, hall⟩
      obtain ⟨hhead, htail⟩ := List.forall_mem_cons.mp hall
      exact ⟨⟨e', he', hhead⟩, es', hes', htail⟩
    · rintro ⟨⟨e', he', hhead⟩, es', hes', htail⟩
      exact ⟨e' :: es', ⟨e', he', es', hes', rfl⟩, List.forall_mem_cons.mpr ⟨hhead, htail⟩⟩

end

/-- Finite timestamps and floats, sequences below `2 ^ 64` and integers of 64 bits bring a chain
back. -/
theorem build_reloads (env : Env) (start later : Call) (ops : List (Call × LedgerOp)) :
    let net := build env start ops
    ((∀ e ∈ net.history, e.seqNum env.rt < 2 ^ 64) → (∀ e ∈ net.events, e.Dated ∧ e.Storable) →
      Reloads env later net) ∧
    (CollisionFree env later net → Reloads env later net →
      (∀ e ∈ net.history, e.seqNum env.rt < 2 ^ 64) ∧
      ∀ e ∈ net.events, e.Encodable ∧ (e.Dated → e.Storable)) := by
  intro net
  have htallied : Tallied env net := Tallied.build env start ops
  have hsequence : ∀ e ∈ net.events, e.sequence.compliant = true := fun e he =>
    ChainEvent.compliant_of_seqNum_pos (htallied.counted e (List.mem_append_right _ he)).positive
  have hhash : ∀ e ∈ net.events, e.Dated → (e.init env later).eventId = e.eventId := by
    intro e he hdated
    obtain ⟨call, hmatches⟩ := htallied.hashed e he
    rw [ChainEvent.hashMatches_congr hdated.1] at hmatches
    exact beq_iff_eq.mp hmatches
  have hid : ∀ e stored : ChainEvent, e.orjson = some stored → stored.eventId = e.eventId := by
    intro e stored h
    obtain ⟨_, _, _, _, -, -, -, -, rfl⟩ := ChainEvent.orjson_eq_some.mp h
    rfl
  refine ⟨fun hfits hevents => ⟨htallied.counters_iff.mpr hfits, exists_mapM_orjson.mpr ?_⟩,
    fun hfree hreloads => ⟨htallied.counters_iff.mp hreloads.counters, fun e he => ?_⟩⟩
  · intro e he
    obtain ⟨hdated, hstorable⟩ := hevents e he
    obtain ⟨stored, hstored⟩ := ChainEvent.exists_orjson_iff.mpr hstorable.encodable
    refine ⟨stored, hstored, beq_iff_eq.mpr ?_⟩
    have hcontent : (stored.init env later).content env = (e.init env later).content env :=
      (ChainEvent.content_orjson_iff hstored hdated (hsequence e he) later).mpr hstorable.finite
    calc (stored.init env later).eventId
        = env.sha256 ((stored.init env later).content env) := rfl
      _ = env.sha256 ((e.init env later).content env) := by rw [hcontent]
      _ = e.eventId := hhash e he hdated
      _ = stored.eventId := (hid e stored hstored).symm
  · obtain ⟨stored, hstored, hmatches⟩ := exists_mapM_orjson.mp hreloads.events e he
    have hencodable := ChainEvent.exists_orjson_iff.mp ⟨stored, hstored⟩
    refine ⟨hencodable, fun hdated => ⟨hencodable, ?_⟩⟩
    have hsame : env.sha256 ((stored.init env later).content env) =
        env.sha256 ((e.init env later).content env) := by
      calc env.sha256 ((stored.init env later).content env)
          = stored.eventId := beq_iff_eq.mp hmatches
        _ = e.eventId := hid e stored hstored
        _ = env.sha256 ((e.init env later).content env) := (hhash e he hdated).symm
    exact (ChainEvent.content_orjson_iff hstored hdated (hsequence e he) later).mp
      (hfree e he stored hstored hsame)

/-- A message with a sequence that does not fit 64 bits. -/
def hugeSequenceChain : List (Call × LedgerOp) :=
  [(callAt 1700000000, .append (broadcastCall (2 ^ 64)))]

theorem build_reloads_broadcast : Reloads plainEnv (callAt 1700000010)
    (build plainEnv (callAt 1) broadcastChain) := by
  refine (build_reloads plainEnv (callAt 1) (callAt 1700000010) broadcastChain).1 ?_ ?_
  · have hrun : ((build plainEnv (callAt 1) broadcastChain).history.all fun e =>
        decide (e.seqNum asciiRuntime < 2 ^ 64)) = true := by
      decide +kernel
    intro e he
    exact of_decide_eq_true (List.all_eq_true.mp hrun e he)
  · have hrun : ((build plainEnv (callAt 1) broadcastChain).events.all fun e =>
        e.timestamp.truthy && e.timestamp.compliant && PyVal.encodableItems e.payload &&
        e.timestamp.encodable && e.sequence.encodable && PyVal.encodableItems e.extra &&
        PyVal.compliantItems e.payload) = true := by
      decide +kernel
    intro e he
    have hall := List.all_eq_true.mp hrun e he
    simp only [Bool.and_eq_true] at hall
    obtain ⟨⟨⟨⟨⟨⟨htruthy, hstamp⟩, hpayload⟩, htimestamp⟩, hsequence⟩, hextra⟩, hfinite⟩ := hall
    exact ⟨⟨htruthy, hstamp⟩, ⟨hpayload, htimestamp, hsequence, hextra⟩, hfinite⟩

/-- The message is accepted, and keeps the chain from being written. -/
theorem not_build_reloads : ¬ ∀ (env : Env) (start later : Call) (ops : List (Call × LedgerOp)),
    Reloads env later (build env start ops) := by
  intro hclaim
  obtain ⟨stored, hstored, -⟩ := (hclaim plainEnv (callAt 1) (callAt 1700000010)
    hugeSequenceChain).events
  have hrun : ((build plainEnv (callAt 1) hugeSequenceChain).events.mapM
      ChainEvent.orjson).isNone = true := by
    decide +kernel
  rw [hstored] at hrun
  cases hrun

end Vincent.Mesh
