-- SUMMARY: When the walk of `_order_chain_from` ends, and what it returns.
import Vincent.General.Cycles
import Vincent.Mesh.ForkAdmission

/-!
# The order of a fork

`_order_chain_from` follows the links of events that nobody has checked yet, from a
hash that the ledger knows. It keeps no record of where it has been.
-/

namespace Vincent.Mesh

open Vincent.Python Vincent.Check Vincent.LinkedChain

/-- The loop of `_order_chain_from` under way, or its answer. -/
inductive Walk where
  | walking (ordered : List ChainEvent) (current : String)
  | answered (result : Option (List ChainEvent))

/-- One turn of the loop. -/
def walkStep (events : List ChainEvent) : Walk → Walk
  | .walking ordered current =>
    match events.find? fun e => e.prevHash == current with
    | none => .answered (if ordered.length = events.length then some ordered else none)
    | some e =>
      if e.eventId = "" then .answered none else .walking (ordered ++ [e]) e.eventId
  | .answered result => .answered result

/-- The walk before its first turn. A missing or a repeated link is refused before. -/
def walkFrom (prevHash : String) (events : List ChainEvent) : Walk :=
  if ∀ e ∈ events, e.prevHash ≠ "" then
    if (events.map (·.prevHash)).Nodup then .walking [] prevHash else .answered none
  else .answered none

/-- `_order_chain_from` returns the result. -/
def Returns (prevHash : String) (events : List ChainEvent) (result : Option (List ChainEvent)) :
    Prop :=
  ∃ n, (walkStep events)^[n] (walkFrom prevHash events) = .answered result

/-- `_order_chain_from` terminates. -/
def Terminates (prevHash : String) (events : List ChainEvent) : Prop :=
  ∃ result, Returns prevHash events result

section
variable {prevHash : String} {events ordered : List ChainEvent} {current : String}

/-! ## Turns -/

/-- A walk in which every event follows the one before it. -/
structure Walked (prevHash : String) (events ordered : List ChainEvent) (current : String) : Prop where
  subset : ordered ⊆ events
  linked : Linked ChainEvent.eventId ChainEvent.prevHash prevHash ordered
  current_eq : current = lastKey ChainEvent.eventId prevHash ordered

theorem walkStep_answered (n : Nat) (result : Option (List ChainEvent)) :
    (walkStep events)^[n] (.answered result) = .answered result :=
  Function.iterate_fixed rfl n

theorem walkStep_next {e : ChainEvent} (hfind : (events.find? fun e => e.prevHash == current) = some e)
    (hid : e.eventId ≠ "") :
    walkStep events (.walking ordered current) = .walking (ordered ++ [e]) e.eventId := by
  simp only [walkStep, hfind, if_neg hid]

theorem Walked.next {e : ChainEvent} (h : Walked prevHash events ordered current)
    (hfind : (events.find? fun e => e.prevHash == current) = some e) :
    Walked prevHash events (ordered ++ [e]) e.eventId := by
  have hprev : e.prevHash = current := by simpa using List.find?_some hfind
  refine ⟨?_, ?_, ?_⟩
  · intro a ha
    rcases List.mem_append.mp ha with ha | ha
    · exact h.subset ha
    · rw [List.mem_singleton.mp ha]
      exact List.mem_of_find?_eq_some hfind
  · rw [linked_append]
    exact ⟨h.linked, hprev.trans h.current_eq, trivial⟩
  · rw [lastKey_concat]

theorem walked_of_walking {n : Nat}
    (h : (walkStep events)^[n] (.walking [] prevHash) = .walking ordered current) :
    Walked prevHash events ordered current ∧ ordered.length = n := by
  induction n generalizing ordered current with
  | zero =>
    cases h
    exact ⟨⟨List.nil_subset _, trivial, rfl⟩, rfl⟩
  | succ n ih =>
    rw [Function.iterate_succ_apply'] at h
    cases hbefore : (walkStep events)^[n] (.walking [] prevHash) with
    | answered result =>
      rw [hbefore] at h
      cases h
    | walking before at' =>
      rw [hbefore] at h
      obtain ⟨hwalked, hlength⟩ := ih hbefore
      cases hfind : events.find? fun e => e.prevHash == at' with
      | none =>
        simp only [walkStep, hfind] at h
        cases h
      | some e =>
        by_cases hid : e.eventId = ""
        · simp only [walkStep, hfind, if_pos hid] at h
          cases h
        · rw [walkStep_next hfind hid] at h
          cases h
          refine ⟨hwalked.next hfind, ?_⟩
          rw [List.length_append, List.length_singleton, hlength]

theorem walked_of_answered {n : Nat}
    (h : (walkStep events)^[n] (.walking [] prevHash) = .answered (some ordered)) :
    (∃ current, Walked prevHash events ordered current) ∧ ordered.length = events.length := by
  induction n with
  | zero => cases h
  | succ n ih =>
    rw [Function.iterate_succ_apply'] at h
    cases hbefore : (walkStep events)^[n] (.walking [] prevHash) with
    | answered result =>
      rw [hbefore] at h
      cases h
      exact ih hbefore
    | walking before at' =>
      rw [hbefore] at h
      cases hfind : events.find? fun e => e.prevHash == at' with
      | none =>
        simp only [walkStep, hfind] at h
        split at h
        · cases h
          exact ⟨⟨_, (walked_of_walking hbefore).1⟩, by assumption⟩
        · cases h
      | some e =>
        by_cases hid : e.eventId = ""
        · simp only [walkStep, hfind, if_pos hid] at h
          cases h
        · rw [walkStep_next hfind hid] at h
          cases h

/-! ## Cycles -/

/-- The links from the hash lead into a cycle. -/
def LinkCycle (prevHash : String) (events : List ChainEvent) : Prop :=
  Cyclic ChainEvent.eventId ChainEvent.prevHash events prevHash

/-- On a cycle the next event is found, and its id is a link. -/
theorem LinkCycle.find (hlinks : ∀ e ∈ events, e.prevHash ≠ "")
    (hnodup : (events.map (·.prevHash)).Nodup) (h : LinkCycle current events) :
    ∃ e, (events.find? fun e => e.prevHash == current) = some e ∧ e.eventId ≠ "" ∧
      LinkCycle e.eventId events := by
  obtain ⟨e, he, hprev, hcycle⟩ := Cyclic.step h
  have hfound : ∃ e', (events.find? fun e => e.prevHash == current) = some e' := by
    rw [← Option.isSome_iff_exists, List.find?_isSome]
    exact ⟨e, he, beq_iff_eq.mpr hprev⟩
  obtain ⟨e', hfind⟩ := hfound
  have hprev' : e'.prevHash = current := by simpa using List.find?_some hfind
  have hsame : e' = e :=
    List.inj_on_of_nodup_map hnodup (List.mem_of_find?_eq_some hfind) he (hprev'.trans hprev.symm)
  rw [hsame] at hfind
  refine ⟨e, hfind, ?_, hcycle⟩
  obtain ⟨next, hnext, hlink, -⟩ := Cyclic.step hcycle
  rw [← hlink]
  exact hlinks next hnext

/-- A walk into a cycle is under way after every turn. -/
theorem walking_of_cycle (hlinks : ∀ e ∈ events, e.prevHash ≠ "")
    (hnodup : (events.map (·.prevHash)).Nodup) (h : LinkCycle prevHash events) (n : Nat) :
    ∃ ordered current, (walkStep events)^[n] (.walking [] prevHash) = .walking ordered current ∧
      LinkCycle current events := by
  induction n with
  | zero => exact ⟨[], prevHash, rfl, h⟩
  | succ n ih =>
    obtain ⟨ordered, current, hwalking, hcycle⟩ := ih
    obtain ⟨e, hfind, hid, hcycle⟩ := hcycle.find hlinks hnodup
    refine ⟨ordered ++ [e], e.eventId, ?_, hcycle⟩
    rw [Function.iterate_succ_apply', hwalking, walkStep_next hfind hid]

/-- A walk that does not lead into a cycle ends. -/
theorem terminates_of_no_cycle (h : ¬ LinkCycle prevHash events) :
    ∃ n result, (walkStep events)^[n] (.walking [] prevHash) = .answered result := by
  cases hlate : (walkStep events)^[events.length + 1] (.walking [] prevHash) with
  | answered result => exact ⟨_, result, hlate⟩
  | walking ordered current =>
    obtain ⟨hwalked, hlength⟩ := walked_of_walking hlate
    exact absurd (cyclic_of_long hwalked.subset hwalked.linked (by omega)) h

theorem walkFrom_of_links (hlinks : ∀ e ∈ events, e.prevHash ≠ "")
    (hnodup : (events.map (·.prevHash)).Nodup) : walkFrom prevHash events = .walking [] prevHash := by
  rw [walkFrom, if_pos hlinks, if_pos hnodup]

theorem terminates_iff :
    Terminates prevHash events ↔
      ¬ ((∀ e ∈ events, e.prevHash ≠ "") ∧ (events.map (·.prevHash)).Nodup ∧
        LinkCycle prevHash events) := by
  constructor
  · rintro ⟨result, n, hanswered⟩ ⟨hlinks, hnodup, hcycle⟩
    obtain ⟨ordered, current, hwalking, -⟩ := walking_of_cycle hlinks hnodup hcycle n
    rw [walkFrom_of_links hlinks hnodup, hwalking] at hanswered
    cases hanswered
  · intro h
    by_cases hlinks : ∀ e ∈ events, e.prevHash ≠ ""
    · by_cases hnodup : (events.map (·.prevHash)).Nodup
      · obtain ⟨n, result, hanswered⟩ :=
          terminates_of_no_cycle fun hcycle => h ⟨hlinks, hnodup, hcycle⟩
        exact ⟨result, n, walkFrom_of_links hlinks hnodup ▸ hanswered⟩
      · exact ⟨none, 0, by rw [Function.iterate_zero_apply, walkFrom, if_pos hlinks, if_neg hnodup]⟩
    · exact ⟨none, 0, by rw [Function.iterate_zero_apply, walkFrom, if_neg hlinks]⟩

/-- A list that is returned holds every event once, in the order of the links. -/
theorem ordered_of_returns (h : Returns prevHash events (some ordered)) :
    ordered.Perm events ∧ Linked ChainEvent.eventId ChainEvent.prevHash prevHash ordered := by
  obtain ⟨n, hanswered⟩ := h
  unfold walkFrom at hanswered
  split at hanswered
  · split at hanswered
    · rename_i hlinks hnodup
      obtain ⟨⟨current, hwalked⟩, hlength⟩ := walked_of_answered hanswered
      refine ⟨?_, hwalked.linked⟩
      have honce : ordered.Nodup := by
        by_contra htwice
        obtain ⟨_, _, hwalking, -⟩ := walking_of_cycle hlinks hnodup
          (cyclic_of_not_nodup hwalked.subset hwalked.linked htwice) n
        rw [hwalking] at hanswered
        cases hanswered
      exact (honce.subperm hwalked.subset).perm_of_length_le (Nat.le_of_eq hlength.symm)
    · rw [walkStep_answered] at hanswered
      cases hanswered
  · rw [walkStep_answered] at hanswered
    cases hanswered

/-! ## The bounded walk -/

theorem walkStep_end (hend : ∀ e ∈ events, e.prevHash ≠ current) :
    walkStep events (.walking ordered current) =
      .answered (if ordered.length = events.length then some ordered else none) := by
  have hfind : (events.find? fun e => e.prevHash == current) = none := by
    simpa [List.find?_eq_none] using hend
  simp only [walkStep, hfind]

theorem walk_of_followChain {fuel : Nat} {rest : List ChainEvent}
    (h : followChain events fuel current = .ok rest) :
    ∃ n, (walkStep events)^[n] (.walking ordered current) =
      .answered (if (ordered ++ rest).length = events.length then some (ordered ++ rest) else none) := by
  induction fuel generalizing ordered current rest with
  | zero =>
    unfold followChain at h
    split at h
    · cases h
    · rename_i hend
      cases h
      simp only [List.any_eq_true, beq_iff_eq, not_exists, not_and] at hend
      exact ⟨1, by rw [Function.iterate_one, walkStep_end hend, List.append_nil]⟩
  | succ fuel ih =>
    unfold followChain at h
    split at h
    · rename_i hend
      cases h
      simp only [List.find?_eq_none, beq_iff_eq] at hend
      exact ⟨1, by rw [Function.iterate_one, walkStep_end hend, List.append_nil]⟩
    · rename_i e hfind
      split at h
      · cases h
      · rename_i hid
        simp only [bind_eq_ok, pure_eq_ok] at h
        obtain ⟨more, hmore, rfl⟩ := h
        obtain ⟨n, hanswered⟩ := @ih (ordered ++ [e]) e.eventId more hmore
        refine ⟨n + 1, ?_⟩
        rw [Function.iterate_succ_apply, walkStep_next hfind hid, hanswered, List.append_assoc]
        rfl

theorem walk_of_refused {fuel : Nat} {reason : String}
    (h : followChain events fuel current = .error (.invalid reason)) :
    ∃ n, (walkStep events)^[n] (.walking ordered current) = .answered none := by
  induction fuel generalizing ordered current with
  | zero =>
    unfold followChain at h
    split at h <;> cases h
  | succ fuel ih =>
    unfold followChain at h
    split at h
    · cases h
    · rename_i e hfind
      split at h
      · rename_i hid
        exact ⟨1, by simp only [Function.iterate_one, walkStep, hfind, if_pos hid]⟩
      · rename_i hid
        rcases bind_eq_error.mp h with hrest | ⟨more, -, hmore⟩
        · obtain ⟨n, hanswered⟩ := @ih (ordered ++ [e]) e.eventId hrest
          refine ⟨n + 1, ?_⟩
          rw [Function.iterate_succ_apply, walkStep_next hfind hid, hanswered]
        · cases hmore

/-- The bounded walk gives up on a cycle only. -/
theorem cycle_of_followChain {fuel : Nat} {exn : String} (hwalked : Walked prevHash events ordered current)
    (hfuel : events.length ≤ ordered.length + fuel)
    (h : followChain events fuel current = .error (.raised exn)) : LinkCycle prevHash events := by
  induction fuel generalizing ordered current with
  | zero =>
    unfold followChain at h
    split at h
    · rename_i hany
      obtain ⟨e, hfind⟩ : ∃ e, (events.find? fun e => e.prevHash == current) = some e := by
        rw [← Option.isSome_iff_exists, List.find?_isSome]
        simpa using hany
      have hnext := hwalked.next hfind
      refine cyclic_of_long hnext.subset hnext.linked ?_
      rw [List.length_append, List.length_singleton]
      omega
    · cases h
  | succ fuel ih =>
    unfold followChain at h
    split at h
    · cases h
    · rename_i e hfind
      split at h
      · cases h
      · rcases bind_eq_error.mp h with hrest | ⟨more, -, hmore⟩
        · refine ih (hwalked.next hfind) ?_ hrest
          rw [List.length_append, List.length_singleton]
          omega
        · cases hmore

/-- Links that are missing or repeated are refused. -/
theorem orderChainFrom_refused
    (h : ¬ ((∀ e ∈ events, e.prevHash ≠ "") ∧ (events.map (·.prevHash)).Nodup)) :
    orderChainFrom prevHash events = .error (.invalid "non-contiguous fork") := by
  unfold orderChainFrom require
  by_cases hlinks : ∀ e ∈ events, e.prevHash ≠ ""
  · rw [if_pos hlinks, if_neg fun hnodup => h ⟨hlinks, hnodup⟩]
    rfl
  · rw [if_neg hlinks]
    rfl

theorem orderChainFrom_of_links (hlinks : ∀ e ∈ events, e.prevHash ≠ "")
    (hnodup : (events.map (·.prevHash)).Nodup) :
    orderChainFrom prevHash events =
      match followChain events events.length prevHash with
      | .ok ordered =>
        if ordered.length = events.length then .ok ordered
        else .error (.invalid "non-contiguous fork")
      | .error fault => .error fault := by
  unfold orderChainFrom require
  rw [if_pos hlinks, if_pos hnodup]
  cases followChain events events.length prevHash with
  | error fault => rfl
  | ok ordered =>
    change ((if ordered.length = events.length then .ok ()
      else .error (.invalid "non-contiguous fork") : Except Fault Unit) >>= fun _ => pure ordered) = _
    by_cases hlength : ordered.length = events.length
    · simp only [if_pos hlength]
      rfl
    · simp only [if_neg hlength]
      rfl

/-- The bounded walk answers as `_order_chain_from` does, or neither ends. -/
theorem orderChainFrom_walk (prevHash : String) (events : List ChainEvent) :
    match orderChainFrom prevHash events with
    | .ok ordered => Returns prevHash events (some ordered)
    | .error (.invalid _) => Returns prevHash events none
    | .error (.raised _) => ¬ Terminates prevHash events := by
  by_cases hchecks : (∀ e ∈ events, e.prevHash ≠ "") ∧ (events.map (·.prevHash)).Nodup
  · obtain ⟨hlinks, hnodup⟩ := hchecks
    have hstart := @walkFrom_of_links prevHash events hlinks hnodup
    rw [orderChainFrom_of_links hlinks hnodup]
    cases hfollow : followChain events events.length prevHash with
    | error fault =>
      cases fault with
      | invalid reason =>
        obtain ⟨n, hanswered⟩ := @walk_of_refused events [] _ _ _ hfollow
        exact ⟨n, hstart ▸ hanswered⟩
      | raised exn =>
        have hstands : Walked prevHash events [] prevHash := ⟨List.nil_subset _, trivial, rfl⟩
        have hcycle := cycle_of_followChain hstands (by simp) hfollow
        exact fun hends => terminates_iff.mp hends ⟨hlinks, hnodup, hcycle⟩
    | ok ordered =>
      obtain ⟨n, hanswered⟩ := @walk_of_followChain events [] _ _ _ hfollow
      rw [List.nil_append] at hanswered
      by_cases hlength : ordered.length = events.length
      · rw [if_pos hlength] at hanswered
        simp only [if_pos hlength]
        exact ⟨n, hstart ▸ hanswered⟩
      · rw [if_neg hlength] at hanswered
        simp only [if_neg hlength]
        exact ⟨n, hstart ▸ hanswered⟩
  · rw [orderChainFrom_refused hchecks]
    by_cases hlinks : ∀ e ∈ events, e.prevHash ≠ ""
    · refine ⟨0, ?_⟩
      rw [Function.iterate_zero_apply, walkFrom, if_pos hlinks,
        if_neg fun hnodup => hchecks ⟨hlinks, hnodup⟩]
    · exact ⟨0, by rw [Function.iterate_zero_apply, walkFrom, if_neg hlinks]⟩

end

/-- The walk ends unless the links lead into a cycle, and returns the events in the order of the
links. -/
theorem orderChainFrom_ends (prevHash : String) (events : List ChainEvent) :
    (Terminates prevHash events ↔
      ¬ ((∀ e ∈ events, e.prevHash ≠ "") ∧ (events.map (·.prevHash)).Nodup ∧
        LinkCycle prevHash events)) ∧
    ∀ ordered, Returns prevHash events (some ordered) →
      ordered.Perm events ∧ Linked ChainEvent.eventId ChainEvent.prevHash prevHash ordered :=
  ⟨terminates_iff, fun _ h => ordered_of_returns h⟩

/-- An event that names itself as the one before it. -/
def selfLinked (id : String) : ChainEvent where
  eventId := id
  prevHash := id
  eventType := "message"
  nodeId := "n"
  payload := []
  timestamp := .int 1
  sequence := .int 1
  signature := "s"
  networkId := networkId
  publicKey := "k"
  publicKeyAlgo := "Ed25519"
  protocolVersion := protocolVersion

theorem not_orderChainFrom_ends : ¬ Terminates "h" [selfLinked "h"] := by
  rw [terminates_iff, not_not]
  refine ⟨by simp [selfLinked], List.nodup_singleton _, [], [selfLinked "h"], ?_⟩
  exact ⟨List.nil_subset _, List.Subset.refl _, ⟨rfl, trivial⟩, List.cons_ne_nil _ _, rfl⟩

end Vincent.Mesh
