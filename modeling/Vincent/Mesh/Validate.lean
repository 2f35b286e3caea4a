-- SUMMARY: Validating the chain, in full and incrementally.
import Vincent.Mesh.Operations

/-!
# Validating the chain

`validate_chain` walks from the genesis to the head; `validate_chain_incremental`
trusts the events below a mark. `Validated` says that the first events are linked from
the genesis, and what keeps them so.

Both are modelled without their signature checks, which are off by default.
-/

namespace Vincent.Mesh

open Vincent.Python Vincent.Check Vincent.Run Vincent.LinkedChain Relation

/-! ## The validators -/

/-- The walk over the events, which returns the last id; `from_dict` raises on a wrong hash. -/
def validateLoop (env : Env) (call : Call) : List ChainEvent → Nat → String → Except Fault String
  | [], _, prev => .ok prev
  | e :: es, idx, prev => do
    require (e.prevHash = prev) (.invalid
      ("Broken link at index " ++ toString idx ++ ": expected prev_hash " ++ slice prev 16 ++
        "..., got " ++ slice e.prevHash 16 ++ "..."))
    require (ChainEvent.hashMatches env call e) (.raised "ValueError")
    validateLoop env call es (idx + 1) e.eventId

namespace Infonet

/-- What follows the walk. -/
def validateHead (net : Infonet) (valid : String) : Except Fault String →
    Except String (Bool × String)
  | .error (.invalid reason) => .ok (false, reason)
  | .error (.raised exn) => .error exn
  | .ok prev =>
    if prev ≠ net.headHash then
      .ok (false, "Head hash mismatch: chain ends at " ++ slice prev 16 ++ "... but head is " ++
        slice net.headHash 16 ++ "...")
    else .ok (true, valid)

/-- `validate_chain(verify_signatures=False)`. -/
def validateChain (env : Env) (call : Call) (net : Infonet) : Except String (Bool × String) :=
  if net.events = [] then .ok (true, "Empty chain")
  else net.validateHead ("Valid Infonet: " ++ toString net.events.length ++ " events")
    (validateLoop env call net.events 0 genesisHash)

/-- `validate_chain_incremental(verify_signatures=False)`. -/
def validateChainIncremental (env : Env) (call : Call) (net : Infonet) :
    Infonet × Except String (Bool × String) :=
  let total := net.events.length
  let start := net.lastValidatedIndex
  if total < start then
    let net := { net with lastValidatedIndex := 0 }
    (net, net.validateChain env call)
  else if total ≤ start then
    (net, .ok (true, "No new events (chain has " ++ toString total ++ " events)"))
  else
    let prev := lastEventId (net.events.take start)
    let outcome := net.validateHead ("Valid Infonet: " ++ toString total ++ " events (" ++
      toString (total - start) ++ " new)") (validateLoop env call (net.events.drop start) start prev)
    match outcome with
    | .ok (true, valid) => ({ net with lastValidatedIndex := total }, .ok (true, valid))
    | outcome => (net, outcome)

end Infonet

/-- The result of a validator that returned true. -/
def passes (outcome : Except String (Bool × String)) : Prop := ∃ reason, outcome = .ok (true, reason)

/-- The result of a validator that raised. -/
def raises (outcome : Except String (Bool × String)) : Prop := ∃ exn, outcome = .error exn

section
variable {env : Env} {call : Call}

/-- A walk succeeds when the events are linked and their hashes are right. -/
theorem validateLoop_eq_ok {es : List ChainEvent} {idx : Nat} {prev last : String} :
    validateLoop env call es idx prev = .ok last ↔
      Linked ChainEvent.eventId ChainEvent.prevHash prev es ∧
      (∀ e ∈ es, ChainEvent.hashMatches env call e = true) ∧
      last = lastKey ChainEvent.eventId prev es := by
  induction es generalizing idx prev with
  | nil => simpa [validateLoop, Linked] using eq_comm
  | cons e es ih =>
    simp only [validateLoop, ↓check_bind_eq_ok, require_eq_ok, ih, Linked, List.forall_mem_cons,
      lastKey_cons]
    tauto

theorem validateLoop_not_raised {es : List ChainEvent} {idx : Nat} {prev exn : String}
    (h : ∀ e ∈ es, ChainEvent.hashMatches env call e = true) :
    validateLoop env call es idx prev ≠ .error (.raised exn) := by
  induction es generalizing idx prev with
  | nil => simp [validateLoop]
  | cons e es ih =>
    obtain ⟨hhash, hrest⟩ := List.forall_mem_cons.mp h
    unfold validateLoop
    by_cases hprev : e.prevHash = prev
    · simpa [require, hprev, hhash, bind, Except.bind] using ih hrest
    · simp [require, hprev, bind, Except.bind]

theorem validateHead_passes {net : Infonet} {valid : String} {walk : Except Fault String} :
    passes (net.validateHead valid walk) ↔ walk = .ok net.headHash := by
  unfold passes Infonet.validateHead
  rcases walk with (reason | exn) | prev
  · simp
  · simp
  · by_cases hhead : prev = net.headHash <;> simp [hhead]

theorem validateHead_not_raises {net : Infonet} {valid : String} {walk : Except Fault String}
    (h : ∀ exn, walk ≠ .error (.raised exn)) : ¬ raises (net.validateHead valid walk) := by
  rintro ⟨exn, hraise⟩
  unfold Infonet.validateHead at hraise
  rcases walk with (reason | exn') | prev
  · simp at hraise
  · exact h exn' rfl
  · simp only at hraise
    split at hraise <;> cases hraise

end

/-! ## Validated prefixes -/

/-- The first `mark` events are linked from the genesis, and when these are all events
    the head is right. -/
structure Validated (mark : Nat) (net : Infonet) : Prop where
  linked : Linked ChainEvent.eventId ChainEvent.prevHash genesisHash (net.events.take mark)
  head : net.events.length ≤ mark → net.headHash = Infonet.lastEventId net.events

/-- The stored hashes are right, now and later. -/
def Hashed (env : Env) (net : Infonet) : Prop :=
  ∀ e ∈ net.events, ∀ call, ChainEvent.hashMatches env call e = true

theorem lastEventId_eq (es : List ChainEvent) :
    Infonet.lastEventId es = lastKey ChainEvent.eventId genesisHash es := rfl

namespace Validated

variable {env : Env} {call : Call} {mark : Nat} {net net' : Infonet}

theorem of_eq (h : Validated mark net) (hevents : net'.events = net.events)
    (hhead : net'.headHash = net.headHash) : Validated mark net' :=
  ⟨hevents ▸ h.linked, by rw [hevents, hhead]; exact h.head⟩

theorem empty (hevents : net.events = []) (hhead : net.headHash = genesisHash) :
    Validated mark net :=
  ⟨by simp [hevents, Linked], fun _ => by rw [hhead, hevents]; rfl⟩

theorem commit (h : Validated mark net) {e : ChainEvent} (hprev : e.prevHash = net.headHash) :
    Validated mark (net.commit env call e) := by
  refine ⟨?_, fun _ => ?_⟩
  · rw [Infonet.commit_events]
    by_cases hle : mark ≤ net.events.length
    · rw [List.take_append_of_le_length hle]
      exact h.linked
    · have hall : net.events.take mark = net.events := List.take_of_length_le (by omega)
      rw [List.take_of_length_le (by simp; omega), linked_append]
      refine ⟨hall ▸ h.linked, ?_, trivial⟩
      rw [hprev, h.head (by omega), lastEventId_eq]
  · rw [Infonet.commit_headHash, Infonet.commit_events, lastEventId_eq, lastKey_concat]

/-- Two lists of events, the one as long as the mark allows, have the same validated part. -/
theorem of_prefix {events : List ChainEvent} (h : Validated mark net)
    (hpre : events.take mark <+: net.events) (hevents : net'.events = events)
    (hhead : net'.headHash = Infonet.lastEventId events) : Validated mark net' := by
  refine ⟨?_, fun _ => by rw [hhead, hevents]⟩
  rw [hevents]
  refine h.linked.of_prefix (List.prefix_of_prefix_length_le hpre (List.take_prefix _ _) ?_)
  have hlen := hpre.length_le
  rw [List.length_take] at hlen ⊢
  rw [List.length_take]
  omega

/-- An elementary change that archives nothing keeps the validated part. -/
theorem advance (h : Validated mark net) (hstep : Advance env call net net')
    (hspill : net'.coldSegments.length ≤ net.coldSegments.length) : Validated mark net' := by
  cases hstep with
  | commit hacc => exact h.commit hacc.linked
  | bind _ => exact h.of_eq rfl rfl
  | rotate => exact h.of_eq rfl rfl
  | invalidate => exact h.of_eq rfl rfl
  | save =>
    rcases net.save_coldSegments_length with ⟨-, hsame⟩ | hmore
    · exact h.of_eq hsame (by simp)
    · omega

end Validated

theorem Advance.coldSegments_le {env : Env} {call : Call} {net net' : Infonet}
    (h : Advance env call net net') : net.coldSegments.length ≤ net'.coldSegments.length := by
  cases h with
  | commit _ => simp
  | bind _ => exact le_rfl
  | rotate => exact le_rfl
  | invalidate => exact le_rfl
  | save => rcases net.save_coldSegments_length with ⟨hsame, -⟩ | hmore <;> omega

theorem Validated.advances {env : Env} {call : Call} {mark : Nat} {net net' : Infonet}
    (h : Validated mark net) (hsteps : Advances env call net net')
    (hspill : net'.coldSegments.length ≤ net.coldSegments.length) : Validated mark net' := by
  induction hsteps with
  | refl => exact h
  | tail hbefore hstep ih =>
    -- nothing has been archived before the last change either
    have hle : ∀ {net₁ : Infonet}, Advances env call net net₁ →
        net.coldSegments.length ≤ net₁.coldSegments.length := by
      intro net₁ hadv
      induction hadv with
      | refl => exact le_rfl
      | tail _ hlast ih' => exact ih'.trans hlast.coldSegments_le
    have hlast := hstep.coldSegments_le
    have hfirst := hle hbefore
    exact (ih (by omega)).advance hstep (by omega)

/-! ## What each operation has to meet -/

/-- The events from outside carry timestamps: without one, a hash changes with the clock. -/
def ChainOp.Stamped : ChainOp → Prop
  | .ingestEvents items => ∀ e, .event e ∈ items → e.timestamp.truthy = true
  | .applyFork events _ _ _ => ∀ e ∈ events, e.timestamp.truthy = true
  | _ => True

/-- The operation leaves the events below the mark in their places, and archives nothing. -/
structure Orderly (env : Env) (mark : Nat) (net : Infonet) (a : ChainAction) : Prop where
  inMemory : (chainStep env net a).coldSegments.length ≤ net.coldSegments.length
  fork : ∀ events headHash proofCount quorum plan,
    a.op = .applyFork events headHash proofCount quorum →
    net.checkFork (a.env env) a.call events headHash proofCount quorum = .ok plan →
    ∀ e ∈ net.events.take (plan.prevIndex + 1) ++ events, ForkReadable env.rt e
  cleanup : ∀ kept, a.op = .cleanup →
    Infonet.unexpired (a.env env) a.call.now net.events = .ok kept →
    kept.length ≠ net.events.length →
    (∀ e ∈ kept, ForkReadable env.rt e) ∧ kept.take mark <+: net.events

section
variable {env : Env} {net : Infonet} {a : ChainAction} {mark : Nat}

theorem chainStep_indexed (h : net.Indexed) (a : ChainAction) : (chainStep env net a).Indexed := by
  unfold chainStep
  cases a.op with
  | append c => exact h.advances (advances_append net c)
  | ingestEvents items => exact h.advances (advances_ingestEvents net items)
  | applyFork events headHash proofCount quorum =>
    exact Infonet.applyFork_indexed h _ _ events headHash proofCount quorum
  | cleanup => exact Infonet.cleanup_indexed h _ _
  | resetChain => exact Infonet.indexed_of_none rfl
  | save => exact h.save

/-- A checked fork keeps the validated part of the chain, wherever it starts. -/
theorem Validated.fork {call : Call} {events : List ChainEvent} {headHash : String}
    {proofCount quorum : Int} {plan : ForkPlan} (h : Validated mark net) (hindexed : net.Indexed)
    (hcheck : net.checkFork env call events headHash proofCount quorum = .ok plan)
    {net' : Infonet}
    (hevents : net'.events = net.events.take (plan.prevIndex + 1) ++ plan.ordered)
    (hhead : net'.headHash = Infonet.lastEventId net'.events) : Validated mark net' := by
  obtain ⟨prevHash, _, _, hindex, horder, -, -⟩ := Infonet.checkFork_eq_ok hcheck
  have hlast := hindexed.lastEventId_take hindex
  refine ⟨?_, fun _ => hhead⟩
  rw [hevents]
  by_cases hmark : mark ≤ plan.prevIndex + 1
  · -- the fork starts above the mark
    obtain ⟨ancestor, hat, -⟩ := hindexed prevHash _ hindex
    have hlt : plan.prevIndex < net.events.length := (List.getElem?_eq_some_iff.mp hat).1
    rw [List.take_append_of_le_length (by rw [List.length_take]; omega), List.take_take,
      min_eq_left hmark]
    exact h.linked
  · -- it starts below: what it keeps is linked, and the rest goes on from there
    have hkept : Linked ChainEvent.eventId ChainEvent.prevHash genesisHash
        (net.events.take (plan.prevIndex + 1)) :=
      h.linked.of_prefix (List.take_prefix_take_left (by omega))
    have hforked : Linked ChainEvent.eventId ChainEvent.prevHash genesisHash
        (net.events.take (plan.prevIndex + 1) ++ plan.ordered) := by
      rw [linked_append, ← lastEventId_eq, hlast]
      exact ⟨hkept, horder.linked⟩
    exact hforked.of_prefix (List.take_prefix _ _)

/-- An orderly step keeps the validated part of the chain. -/
theorem chainStep_validated (hindexed : net.Indexed) (h : Validated mark net)
    (hord : Orderly env mark net a) : Validated mark (chainStep env net a) := by
  obtain ⟨hspill, hfork, hcleanup⟩ := hord
  cases hop : a.op with
  | append c => exact h.advances (chainStep_advances (by simp [hop]) (by simp [hop]) (by simp [hop])) hspill
  | ingestEvents items =>
    exact h.advances (chainStep_advances (by simp [hop]) (by simp [hop]) (by simp [hop])) hspill
  | save =>
    exact h.advances (chainStep_advances (by simp [hop]) (by simp [hop]) (by simp [hop])) hspill
  | resetChain =>
    unfold chainStep
    rw [hop]
    exact .empty rfl rfl
  | applyFork events headHash proofCount quorum =>
    unfold chainStep at hspill ⊢
    simp only [hop, ChainOp.apply] at hspill ⊢
    rcases Infonet.applyFork_cases (a.env env) a.call net events headHash proofCount quorum with
      hsame | ⟨plan, hcheck, ⟨-, hstep⟩ | ⟨hunread, -⟩⟩
    · rwa [hsame]
    · rw [hstep] at hspill ⊢
      have hevents := Infonet.replaced_events _ _ _ _ hspill
      exact h.fork hindexed hcheck hevents (by rw [hevents, Infonet.replaced_headHash])
    · obtain ⟨_, _, _, _, horder, -, -⟩ := Infonet.checkFork_eq_ok hcheck
      refine absurd (fun e he => hfork _ _ _ _ plan hop hcheck e ?_) hunread
      rw [List.mem_append] at he ⊢
      exact he.imp_right horder.perm.mem_iff.mp
  | cleanup =>
    unfold chainStep at hspill ⊢
    simp only [hop, ChainOp.apply] at hspill ⊢
    rcases Infonet.cleanup_cases (a.env env) a.call net with
      hsame | ⟨kept, hkept, hdrop, ⟨-, hstep⟩ | ⟨hunread, -⟩⟩
    · rwa [hsame]
    · rw [hstep] at hspill ⊢
      exact h.of_prefix (hcleanup kept hop hkept hdrop).2 (Infonet.replaced_events _ _ _ _ hspill)
        (Infonet.replaced_headHash ..)
    · exact absurd (hcleanup kept hop hkept hdrop).1 hunread

/-- A step that brings in stamped events only keeps the hashes right. -/
theorem chainStep_hashed (h : Hashed env net) (hstamped : a.op.Stamped) :
    Hashed env (chainStep env net a) := by
  have hnew : ∀ e, e.timestamp.truthy = true →
      ChainEvent.hashMatches (a.env env) a.call e = true →
      ∀ call, ChainEvent.hashMatches env call e = true := by
    intro e hstamp hhash call
    have hsame : ChainEvent.hashMatches env call e = ChainEvent.hashMatches env a.call e :=
      ChainEvent.hashMatches_congr hstamp
    exact hsame.trans hhash
  intro e he
  unfold chainStep at he
  cases hop : a.op with
  | append c =>
    rw [hop] at he
    exact (mem_append_events he).elim (h e) id
  | ingestEvents items =>
    rw [hop] at he hstamped
    rcases mem_ingestEvents he with hold | hitem
    · exact h e hold
    · rcases (advances_ingestEvents net items).mem_events he with hold | hhash
      · exact h e hold
      · exact hnew e (hstamped e hitem) hhash
  | save =>
    rw [hop] at he
    exact h e (Infonet.mem_save he)
  | resetChain =>
    rw [hop] at he
    cases he
  | applyFork events headHash proofCount quorum =>
    rw [hop] at he hstamped
    rcases Infonet.applyFork_cases (a.env env) a.call net events headHash proofCount quorum with
      hsame | ⟨plan, hcheck, hcases⟩
    · simp only [ChainOp.apply, hsame] at he
      exact h e he
    · obtain ⟨_, maps, _, _, horder, -, hforked⟩ := Infonet.checkFork_eq_ok hcheck
      have hmem : e ∈ net.events.take (plan.prevIndex + 1) ++ plan.ordered := by
        rcases hcases with ⟨-, hstep⟩ | ⟨-, hstep⟩
        · simp only [ChainOp.apply, hstep] at he
          exact Infonet.mem_replaced _ _ _ _ he
        · simp only [ChainOp.apply, hstep, (Infonet.rebuild_frame _ _ _).1] at he
          exact he
      rcases List.mem_append.mp hmem with hkept | hadded
      · exact h e (List.mem_of_mem_take hkept)
      · exact hnew e (hstamped e (horder.perm.mem_iff.mp hadded))
          (hash_of_checkForkEvents hforked e hadded)
  | cleanup =>
    rw [hop] at he
    rcases Infonet.cleanup_cases (a.env env) a.call net with
      hsame | ⟨kept, hkept, -, hcases⟩
    · simp only [ChainOp.apply, hsame] at he
      exact h e he
    · have hmem : e ∈ kept := by
        rcases hcases with ⟨-, hstep⟩ | ⟨-, hstep⟩
        · simp only [ChainOp.apply, hstep] at he
          exact Infonet.mem_replaced _ _ _ _ he
        · simp only [ChainOp.apply, hstep, (Infonet.rebuild_frame _ _ _).1] at he
          exact he
      exact h e ((Infonet.sublist_of_unexpired hkept).subset hmem)

end

/-! ## Full validation -/

/-- The full validation passes on a chain that is linked to its head with right hashes. -/
theorem validateChain_passes_iff {env : Env} {call : Call} {net : Infonet} :
    passes (net.validateChain env call) ↔ net.events = [] ∨
      Linked ChainEvent.eventId ChainEvent.prevHash genesisHash net.events ∧
      (∀ e ∈ net.events, ChainEvent.hashMatches env call e = true) ∧
      net.headHash = Infonet.lastEventId net.events := by
  unfold Infonet.validateChain
  by_cases hnil : net.events = []
  · simp [hnil, passes]
  · simp only [hnil, if_false, false_or, validateHead_passes, validateLoop_eq_ok, lastEventId_eq]

theorem validateChain_not_raises {env : Env} {net : Infonet} (h : Hashed env net) (call : Call) :
    ¬ raises (net.validateChain env call) := by
  unfold Infonet.validateChain
  split
  · rintro ⟨exn, hraise⟩
    cases hraise
  · exact validateHead_not_raises fun exn => validateLoop_not_raised fun e he => h e he call

/-- Every state of an orderly run passes the full validation. -/
theorem validateChain_of_orderly (env : Env) (start call : Call) (actions : List ChainAction)
    (hrun : Along (chainStep env)
      (fun net a => a.op.Stamped ∧ Orderly env net.events.length net a) (.empty start) actions) :
    passes ((run (chainStep env) (.empty start) actions).validateChain env call) := by
  have hstep : ∀ net a, (net.Indexed ∧ Hashed env net ∧ ∀ mark, Validated mark net) →
      a.op.Stamped ∧ Orderly env net.events.length net a →
      ((chainStep env net a).Indexed ∧ Hashed env (chainStep env net a) ∧
        ∀ mark, Validated mark (chainStep env net a)) := by
    rintro net a ⟨hindexed, hhashed, hvalid⟩ ⟨hstamped, hord⟩
    refine ⟨chainStep_indexed hindexed a, chainStep_hashed hhashed hstamped, fun mark => ?_⟩
    refine chainStep_validated hindexed (hvalid mark) ⟨hord.inMemory, hord.fork, ?_⟩
    intro kept hop hkept hdrop
    obtain ⟨hread, hpre⟩ := hord.cleanup kept hop hkept hdrop
    have hlen := (Infonet.sublist_of_unexpired hkept).length_le
    rw [List.take_of_length_le hlen] at hpre
    exact ⟨hread, (List.take_prefix _ _).trans hpre⟩
  have hstart : (Infonet.empty start).Indexed ∧ Hashed env (Infonet.empty start) ∧
      ∀ mark, Validated mark (Infonet.empty start) :=
    ⟨Infonet.indexed_of_none rfl, (by intro e he; cases he), fun mark => .empty rfl rfl⟩
  obtain ⟨-, hhashed, hvalid⟩ := invariant hstep hstart hrun
  generalize run (chainStep env) (.empty start) actions = net at hhashed hvalid
  obtain ⟨hlinked, hhead⟩ := hvalid net.events.length
  rw [List.take_length] at hlinked
  exact validateChain_passes_iff.mpr (.inr ⟨hlinked, fun e he => hhashed e he call, hhead le_rfl⟩)

/-- One message is appended and saved. -/
def messageRun : List ChainAction :=
  [⟨callAt 1700000000, false, .append broadcastCall⟩, ⟨callAt 1700000001, false, .save⟩]

/-- A step that is no fork and no cleanup is orderly if it archives nothing. -/
theorem orderly_of_inMemory {env : Env} {mark : Nat} {net : Infonet} {a : ChainAction}
    (hfork : ∀ events headHash proofCount quorum,
      a.op ≠ .applyFork events headHash proofCount quorum)
    (hcleanup : a.op ≠ .cleanup)
    (hmemory : (chainStep env net a).coldSegments.length ≤ net.coldSegments.length) :
    Orderly env mark net a :=
  ⟨hmemory, fun _ _ _ _ _ hop => absurd hop (hfork _ _ _ _), fun _ hop => absurd hop hcleanup⟩

theorem validateChain_messageRun : passes ((run (chainStep plainEnv) (.empty (callAt 1))
    messageRun).validateChain plainEnv (callAt 1700000002)) := by
  refine validateChain_of_orderly plainEnv (callAt 1) (callAt 1700000002) messageRun ?_
  refine (along_cons ..).mpr ⟨⟨trivial, orderly_of_inMemory (by simp) (by simp) ?_⟩,
    (along_cons ..).mpr ⟨⟨trivial, orderly_of_inMemory (by simp) (by simp) ?_⟩, trivial⟩⟩
  · decide +kernel
  · decide +kernel

/-- A message of the same author that expires after a day. -/
def ephemeralCall (sequence : Int := 1) : AppendCall := .append {
  eventType := "message"
  nodeId := "!sb_a"
  payload := [("message", .str "hello"), ("destination", .str "broadcast"),
    ("ephemeral", .bool true)]
  signature := "sig"
  sequence := sequence
  ephemeral := true
  publicKey := "key"
  publicKeyAlgo := "Ed25519"
  protocolVersion := ""
  timestampBucketS := 0 }

/-- An ephemeral message and a lasting one, and a cleanup after the first has expired. -/
def expiryRun : List ChainAction :=
  [⟨callAt 1700000000, false, .append ephemeralCall⟩,
    ⟨callAt 1700000010, false, .append (broadcastCall 2)⟩,
    ⟨callAt 1700100000, false, .cleanup⟩]

/-- The cleanup drops the first event of the chain, and the second one no longer follows
    the genesis. -/
theorem not_validateChain : ¬ ∀ (env : Env) (start call : Call) (actions : List ChainAction),
    passes ((run (chainStep env) (.empty start) actions).validateChain env call) := by
  intro hclaim
  obtain ⟨reason, hpass⟩ := hclaim plainEnv (callAt 1) (callAt 1700100001) expiryRun
  have hrun : okAnd ((run (chainStep plainEnv) (.empty (callAt 1)) expiryRun).validateChain plainEnv
      (callAt 1700100001)) (fun r => !r.1) = true := by
    decide +kernel
  rw [hpass] at hrun
  cases hrun

/-! ## Incremental validation -/

/-- An operation, or an incremental validation. -/
inductive ValidateAction where
  | op (a : ChainAction)
  | validate (call : Call)

def validateStep (env : Env) (net : Infonet) : ValidateAction → Infonet
  | .op a => chainStep env net a
  | .validate call => (net.validateChainIncremental env call).1

/-- The step takes stamped events only, and leaves those below the validation mark in place. -/
def KeepsMark (env : Env) (net : Infonet) : ValidateAction → Prop
  | .op a => a.op.Stamped ∧
    (net.lastValidatedIndex = 0 ∨ Orderly env net.lastValidatedIndex net a)
  | .validate _ => True

theorem Advance.lastValidatedIndex {env : Env} {call : Call} {net net' : Infonet}
    (h : Advance env call net net') : net'.lastValidatedIndex = net.lastValidatedIndex := by
  cases h with
  | commit _ => simp
  | bind _ => rfl
  | rotate => rfl
  | invalidate => rfl
  | save => simp

theorem Advances.lastValidatedIndex {env : Env} {call : Call} {net net' : Infonet}
    (h : Advances env call net net') : net'.lastValidatedIndex = net.lastValidatedIndex := by
  induction h with
  | refl => rfl
  | tail _ hstep ih => exact hstep.lastValidatedIndex.trans ih

theorem Infonet.replaced_lastValidatedIndex (env : Env) (call : Call) (net : Infonet)
    {events : List ChainEvent} (hread : ∀ e ∈ events, ForkReadable env.rt e) :
    (net.replaced env call events).lastValidatedIndex = net.lastValidatedIndex := by
  have hrebuild := Infonet.rebuild_lastValidatedIndex env call { net with events := events }
  obtain ⟨htables, hcounters⟩ := forkReadable_iff.mp hread
  rw [Infonet.rebuild_eq_ok.mpr ⟨htables, hcounters, rfl⟩] at hrebuild
  unfold Infonet.replaced
  rw [Infonet.save_lastValidatedIndex]
  exact hrebuild

section
variable {env : Env} {net : Infonet}

/-- No operation moves the mark, but for the reset that takes it back. -/
theorem chainStep_lastValidatedIndex (a : ChainAction) :
    (chainStep env net a).lastValidatedIndex = net.lastValidatedIndex ∨
      (chainStep env net a).lastValidatedIndex = 0 := by
  cases hop : a.op with
  | append c =>
    exact .inl (chainStep_advances (by simp [hop]) (by simp [hop]) (by simp [hop])).lastValidatedIndex
  | ingestEvents items =>
    exact .inl (chainStep_advances (by simp [hop]) (by simp [hop]) (by simp [hop])).lastValidatedIndex
  | save =>
    exact .inl (chainStep_advances (by simp [hop]) (by simp [hop]) (by simp [hop])).lastValidatedIndex
  | resetChain => exact .inr (by simp only [chainStep, hop, ChainOp.apply, Infonet.resetChain])
  | applyFork events headHash proofCount quorum =>
    refine .inl ?_
    simp only [chainStep, hop, ChainOp.apply]
    rcases Infonet.applyFork_cases (a.env env) a.call net events headHash proofCount quorum with
      hsame | ⟨plan, -, ⟨hread, hstep⟩ | ⟨-, hstep⟩⟩
    · rw [hsame]
    · rw [hstep, Infonet.replaced_lastValidatedIndex _ _ _ hread]
    · rw [hstep, Infonet.rebuild_lastValidatedIndex]
  | cleanup =>
    refine .inl ?_
    simp only [chainStep, hop, ChainOp.apply]
    rcases Infonet.cleanup_cases (a.env env) a.call net with
      hsame | ⟨kept, -, -, ⟨hread, hstep⟩ | ⟨-, hstep⟩⟩
    · rw [hsame]
    · rw [hstep, Infonet.replaced_lastValidatedIndex _ _ _ hread]
    · rw [hstep, Infonet.rebuild_lastValidatedIndex]

/-- What the mark stands for: nothing, or a validated part of the chain. -/
structure Marked (env : Env) (net : Infonet) : Prop where
  indexed : net.Indexed
  hashed : Hashed env net
  marked : net.lastValidatedIndex = 0 ∨ Validated net.lastValidatedIndex net

/-- An incremental validation falls back to the full one, finds nothing new, or walks from the
mark. -/
theorem validateChainIncremental_cases (net : Infonet) (call : Call) :
    (net.events.length < net.lastValidatedIndex ∧ net.validateChainIncremental env call =
      ({ net with lastValidatedIndex := 0 }, net.validateChain env call)) ∨
    (net.lastValidatedIndex = net.events.length ∧
      (net.validateChainIncremental env call).1 = net ∧
      passes (net.validateChainIncremental env call).2) ∨
    (net.lastValidatedIndex < net.events.length ∧
      ∃ valid, (net.validateChainIncremental env call).2 = net.validateHead valid
        (validateLoop env call (net.events.drop net.lastValidatedIndex) net.lastValidatedIndex
          (Infonet.lastEventId (net.events.take net.lastValidatedIndex))) ∧
      ((net.validateChainIncremental env call).1 = net ∨
        passes (net.validateChainIncremental env call).2 ∧
        (net.validateChainIncremental env call).1 =
          { net with lastValidatedIndex := net.events.length })) := by
  unfold Infonet.validateChainIncremental
  by_cases hpast : net.events.length < net.lastValidatedIndex
  · exact .inl ⟨hpast, by simp only [hpast, if_true]; rfl⟩
  · by_cases hdone : net.events.length ≤ net.lastValidatedIndex
    · refine .inr (.inl ⟨by omega, ?_⟩)
      simp only [hpast, hdone, if_true, if_false]
      exact ⟨trivial, _, rfl⟩
    · refine .inr (.inr ⟨by omega, ?_⟩)
      simp only [hpast, hdone, if_false]
      refine ⟨"Valid Infonet: " ++ toString net.events.length ++ " events (" ++
        toString (net.events.length - net.lastValidatedIndex) ++ " new)", ?_⟩
      split
      · rename_i valid hvalid
        exact ⟨hvalid.symm, .inr ⟨⟨_, rfl⟩, rfl⟩⟩
      · exact ⟨rfl, .inl rfl⟩

/-- A walk from a validated mark to the end validates the whole chain. -/
theorem Marked.whole (h : Marked env net) {call : Call}
    (hwalk : validateLoop env call (net.events.drop net.lastValidatedIndex) net.lastValidatedIndex
      (Infonet.lastEventId (net.events.take net.lastValidatedIndex)) = .ok net.headHash) :
    Validated net.events.length net := by
  obtain ⟨hlinked, -, hhead⟩ := validateLoop_eq_ok.mp hwalk
  have hbelow : Linked ChainEvent.eventId ChainEvent.prevHash genesisHash
      (net.events.take net.lastValidatedIndex) := by
    rcases h.marked with hzero | hvalid
    · simp [hzero, Linked]
    · exact hvalid.linked
  have hsplit := List.take_append_drop net.lastValidatedIndex net.events
  refine ⟨?_, fun _ => ?_⟩
  · rw [List.take_length, ← hsplit, linked_append]
    exact ⟨hbelow, hlinked⟩
  · rw [hhead, lastEventId_eq, lastEventId_eq, ← lastKey_append, hsplit]

theorem Marked.step (h : Marked env net) {a : ValidateAction} (hkeep : KeepsMark env net a) :
    Marked env (validateStep env net a) := by
  cases a with
  | op a =>
    obtain ⟨hstamped, hmark⟩ := hkeep
    refine ⟨chainStep_indexed h.indexed a, chainStep_hashed h.hashed hstamped, ?_⟩
    rcases @chainStep_lastValidatedIndex env net a with hsame | hzero
    · rcases hmark with hzero | hord
      · exact .inl (hsame.trans hzero)
      · rcases h.marked with hzero | hvalid
        · exact .inl (hsame.trans hzero)
        · refine .inr ?_
          show Validated (chainStep env net a).lastValidatedIndex _
          rw [hsame]
          exact chainStep_validated h.indexed hvalid hord
    · exact .inl hzero
  | validate call =>
    show Marked env (net.validateChainIncremental env call).1
    rcases @validateChainIncremental_cases env net call with
      ⟨-, hfull⟩ | ⟨-, hsame, -⟩ | ⟨hlt, valid, hwalk, hsame | ⟨hpass, hmoved⟩⟩
    · rw [hfull]
      exact ⟨h.indexed, h.hashed, .inl rfl⟩
    · rwa [hsame]
    · rwa [hsame]
    · rw [hwalk, validateHead_passes] at hpass
      have hwhole := h.whole hpass
      rw [hmoved]
      exact ⟨h.indexed, h.hashed, .inr ⟨hwhole.linked, hwhole.head⟩⟩

/-- Where the mark stands for a validated part, the two validations agree. -/
theorem Marked.agree (h : Marked env net) (call : Call)
    (hpass : passes (net.validateChainIncremental env call).2) :
    passes (net.validateChain env call) := by
  have hfull : Validated net.events.length net → passes (net.validateChain env call) := by
    intro hwhole
    have hlinked := hwhole.linked
    rw [List.take_length] at hlinked
    exact validateChain_passes_iff.mpr
      (.inr ⟨hlinked, fun e he => h.hashed e he call, hwhole.head le_rfl⟩)
  rcases @validateChainIncremental_cases env net call with
    ⟨-, heq⟩ | ⟨hdone, -, -⟩ | ⟨hlt, valid, hwalk, -⟩
  · rwa [heq] at hpass
  · rcases h.marked with hzero | hvalid
    · have hnil : net.events = [] := List.length_eq_zero_iff.mp (hdone.symm.trans hzero)
      exact validateChain_passes_iff.mpr (.inl hnil)
    · exact hfull (hdone ▸ hvalid)
  · rw [hwalk, validateHead_passes] at hpass
    exact hfull (h.whole hpass)

theorem Marked.not_raises (h : Marked env net) (call : Call) :
    ¬ raises (net.validateChainIncremental env call).2 := by
  rcases @validateChainIncremental_cases env net call with
    ⟨-, heq⟩ | ⟨-, -, reason, hpass⟩ | ⟨-, valid, hwalk, -⟩
  · rw [heq]
    exact validateChain_not_raises h.hashed call
  · rintro ⟨exn, hraise⟩
    rw [hpass] at hraise
    cases hraise
  · rw [hwalk]
    refine validateHead_not_raises fun exn => validateLoop_not_raised fun e he => ?_
    exact h.hashed e (List.mem_of_mem_drop he) call

end

/-- Where what is below the mark stays in place, the incremental validation passes only as the full
one. -/
theorem validateChainIncremental_agrees (env : Env) (start call : Call)
    (actions : List ValidateAction)
    (hrun : Along (validateStep env) (KeepsMark env) (.empty start) actions) :
    let net := run (validateStep env) (.empty start) actions
    (passes (net.validateChainIncremental env call).2 → passes (net.validateChain env call)) ∧
      ¬ raises (net.validateChainIncremental env call).2 ∧
      ¬ raises (net.validateChain env call) := by
  have hstart : Marked env (Infonet.empty start) :=
    ⟨Infonet.indexed_of_none rfl, (by intro e he; cases he), .inl rfl⟩
  have hstep : ∀ net a, Marked env net → KeepsMark env net a → Marked env (validateStep env net a) :=
    fun net a h hkeep => h.step hkeep
  have h := invariant hstep hstart hrun
  exact ⟨h.agree call, h.not_raises call, validateChain_not_raises h.hashed call⟩

theorem validateChainIncremental_agrees_message :
    let net := run (validateStep plainEnv) (.empty (callAt 1))
      [.op ⟨callAt 1700000000, false, .append broadcastCall⟩, .validate (callAt 1700000001)]
    (passes (net.validateChainIncremental plainEnv (callAt 1700000002)).2 →
        passes (net.validateChain plainEnv (callAt 1700000002))) ∧
      ¬ raises (net.validateChainIncremental plainEnv (callAt 1700000002)).2 ∧
      ¬ raises (net.validateChain plainEnv (callAt 1700000002)) :=
  validateChainIncremental_agrees plainEnv (callAt 1) (callAt 1700000002)
    [.op ⟨callAt 1700000000, false, .append broadcastCall⟩, .validate (callAt 1700000001)]
    ⟨⟨trivial, .inl rfl⟩, trivial, trivial⟩

/-- Two messages are validated before the first one expires, and one more follows the cleanup. -/
def markedExpiryRun : List ValidateAction :=
  [.op ⟨callAt 1700000000, false, .append ephemeralCall⟩,
    .op ⟨callAt 1700000010, false, .append (broadcastCall 2)⟩,
    .validate (callAt 1700000020),
    .op ⟨callAt 1700100000, false, .cleanup⟩,
    .op ⟨callAt 1700100010, false, .append (broadcastCall 3)⟩]

theorem not_validateChainIncremental_agrees : ¬ ∀ (env : Env) (start call : Call)
    (actions : List ValidateAction),
    let net := run (validateStep env) (.empty start) actions
    (passes (net.validateChainIncremental env call).2 → passes (net.validateChain env call)) ∧
      ¬ raises (net.validateChainIncremental env call).2 ∧
      ¬ raises (net.validateChain env call) := by
  intro hclaim
  obtain ⟨hagree, -, -⟩ := hclaim plainEnv (callAt 1) (callAt 1700100020) markedExpiryRun
  have hrun :
      okAnd ((run (validateStep plainEnv) (.empty (callAt 1)) markedExpiryRun
        ).validateChainIncremental plainEnv (callAt 1700100020)).2 (fun r => r.1) = true ∧
      okAnd ((run (validateStep plainEnv) (.empty (callAt 1)) markedExpiryRun
        ).validateChain plainEnv (callAt 1700100020)) (fun r => !r.1) = true := by
    decide +kernel
  obtain ⟨⟨valid, reason⟩, hok, hvalid⟩ := okAnd_iff.mp hrun.1
  obtain rfl : valid = true := hvalid
  obtain ⟨reason', hpass⟩ := hagree ⟨reason, hok⟩
  rw [hpass] at hrun
  cases hrun.2

end Vincent.Mesh
