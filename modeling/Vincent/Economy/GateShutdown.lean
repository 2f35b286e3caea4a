-- SUMMARY: Gate shutdown, and when its views agree with due process.
import Vincent.General.OrderedMap
import Vincent.Economy.Gates

/-!
# Gate shutdown

The suspension state and the member set look for an execute that names the gate, and
the petition machine for one that names a petition against it. Due process asks for
more than any of them does.
-/

namespace Vincent.Economy

open Vincent.Python Vincent.Check Vincent.Mesh

/-! ## Payload schemas -/

namespace Schema

def requireGateId (p : Dict) : Verdict :=
  require (isNonemptyStr (Dict.get p "gate_id")) (.invalid "gate_id must be non-empty")

/-- The checks of the reason that a petition and an appeal share. -/
def requireReason (p : Dict) : Verdict :=
  match Dict.get p "reason" with
  | .str s => require (s.length ≤ 2000) (.invalid "reason must be a string up to 2000 chars")
  | _ => .error (.invalid "reason must be a string up to 2000 chars")

def requireEvidence (p : Dict) : Except Fault (List PyVal) :=
  match Dict.get p "evidence_hashes" with
  | .list (x :: xs) => .ok (x :: xs)
  | _ => .error (.invalid "evidence_hashes must be non-empty")

def validateGateActionPetitionFile (p : Dict) : Verdict := do
  requireFields p ["petition_id", "gate_id", "reason", "evidence_hashes"]
  require (isNonemptyStr (Dict.get p "petition_id")) (.invalid "petition_id must be non-empty")
  requireGateId p
  requireReason p
  let hashes ← requireEvidence p
  require (hashes.all isNonemptyStr)
    (.invalid "evidence_hashes entries must be non-empty strings")

def validateGateActionVote (p : Dict) : Verdict := do
  requireFields p ["petition_id", "vote"]
  require ((Dict.get p "vote").inStrings ["for", "against"])
    (.invalid "vote must be 'for' or 'against'")

def validateGateActionExecute (p : Dict) : Verdict := do
  requireFields p ["petition_id", "gate_id"]
  require (isNonemptyStr (Dict.get p "petition_id")) (.invalid "petition_id must be non-empty")
  requireGateId p

def validateGateUnsuspend (p : Dict) : Verdict := do
  requireFields p ["gate_id"]
  requireGateId p

def validateGateShutdownAppealFile (p : Dict) : Verdict := do
  requireFields p ["petition_id", "gate_id", "target_petition_id", "reason", "evidence_hashes"]
  require (isNonemptyStr (Dict.get p "target_petition_id"))
    (.invalid "target_petition_id must be non-empty")
  requireReason p
  let _ ← requireEvidence p
  return ()

def validateGateShutdownAppealResolve (p : Dict) : Verdict := do
  requireFields p ["petition_id", "outcome"]
  require ((Dict.get p "outcome").inStrings ["voided_shutdown", "resumed"])
    (.invalid "outcome must be 'voided_shutdown' or 'resumed'")

/-- `validate_infonet_event_payload` on the event types of gate suspension and shutdown. -/
def validateGateEventPayload (rest : String → Dict → Verdict) (eventType : String) (p : Dict) :
    Verdict :=
  match eventType with
  | "gate_suspend_file" | "gate_shutdown_file" => validateGateActionPetitionFile p
  | "gate_suspend_vote" | "gate_shutdown_vote" | "gate_shutdown_appeal_vote" =>
    validateGateActionVote p
  | "gate_suspend_execute" | "gate_shutdown_execute" => validateGateActionExecute p
  | "gate_unsuspend" => validateGateUnsuspend p
  | "gate_shutdown_appeal_file" => validateGateShutdownAppealFile p
  | "gate_shutdown_appeal_resolve" => validateGateShutdownAppealResolve p
  | _ => rest eventType p

end Schema

/-! ## Suspension -/

inductive GateStatus where
  | active
  | suspended
  | shutdown
deriving DecidableEq, Repr

structure SuspensionState where
  status : GateStatus
  suspendedAt : Option PyFloat
  suspendedUntil : Option PyFloat
  lastShutdownPetitionAt : Option PyFloat

/-- The loop variables of `compute_suspension_state`. -/
structure SuspensionScan where
  lastShutdownFiledTs : Option PyFloat := none
  lastShutdownExecutedTs : Option PyFloat := none
  suspendedAt : Option PyFloat := none
  lastUnsuspendTs : Option PyFloat := none

def SuspensionScan.visit (rt : Runtime) (scan : SuspensionScan) (event : Dict) :
    Except String SuspensionScan := do
  let ts ← timestamp rt event
  if hasType "gate_suspend_execute" event then return { scan with suspendedAt := some ts }
  else if hasType "gate_unsuspend" event then return { scan with lastUnsuspendTs := some ts }
  else if hasType "gate_shutdown_file" event then
    return { scan with lastShutdownFiledTs := some ts }
  else if hasType "gate_shutdown_execute" event then
    return { scan with lastShutdownExecutedTs := some ts }
  else return scan

/-- What the scan says about a gate at a time. -/
def SuspensionScan.state (cfg : GateConfig) (now : PyFloat) (scan : SuspensionScan) :
    SuspensionState :=
  let active : SuspensionState :=
    { status := .active, suspendedAt := none, suspendedUntil := none,
      lastShutdownPetitionAt := scan.lastShutdownFiledTs }
  match scan.lastShutdownExecutedTs, scan.suspendedAt with
  | some _, suspendedAt =>
    { status := .shutdown, suspendedAt, suspendedUntil := none,
      lastShutdownPetitionAt := scan.lastShutdownFiledTs }
  | none, none => active
  | none, some suspendedAt =>
    if scan.lastUnsuspendTs.any fun ts => suspendedAt.lt ts then active
    else
      let suspendedUntil := suspendedAt.addRat (cfg.gateSuspendDurationDays * 86400)
      if suspendedUntil.le now then active
      else { status := .suspended, suspendedAt := some suspendedAt,
             suspendedUntil := some suspendedUntil,
             lastShutdownPetitionAt := scan.lastShutdownFiledTs }

def computeSuspensionState (rt : Runtime) (cfg : GateConfig) (g : String) (chain : List PyVal)
    (now : PyFloat) : Except String SuspensionState := do
  let events ← eventsForGate rt g chain
  let scan ← events.foldlM (SuspensionScan.visit rt) {}
  return scan.state cfg now

/-! ## Petitions -/

inductive PetitionStatus where
  | filed
  | executing
  | failed
  | appealed
  | voidedAppeal
  | executed
deriving DecidableEq, Repr

structure ShutdownPetition where
  filedAt : PyFloat
  status : PetitionStatus := .filed
  executionAt : Option PyFloat := none
  appealed : Bool := false
deriving DecidableEq, Repr

/-- A text field of the payload. -/
def textField (k : String) (event : Dict) : Option String :=
  match Dict.get (payload event) k with
  | .str s => some s
  | _ => none

abbrev Petitions := OrderedMap String ShutdownPetition

/-- One round of the first loop: a petition against the gate. -/
def fileShutdown (rt : Runtime) (petitions : Petitions) (event : Dict) :
    Except String Petitions :=
  if hasType "gate_shutdown_file" event then
    match textField "petition_id" event with
    | none => .ok petitions
    | some pid => if pid = "" then .ok petitions else do
      return petitions.insert pid { filedAt := ← timestamp rt event }
  else .ok petitions

/-- What an event can do to a petition. -/
inductive ShutdownChange where
  | pass (executionAt : PyFloat)
  | fail
  | appeal
  | void
  | resume (executionAt : Option PyFloat)
  | execute
deriving DecidableEq

namespace ShutdownChange

def status : ShutdownChange → PetitionStatus
  | .pass _ => .executing
  | .fail => .failed
  | .appeal => .appealed
  | .void => .voidedAppeal
  | .resume _ => .executing
  | .execute => .executed

def apply (p : ShutdownPetition) (change : ShutdownChange) : ShutdownPetition :=
  match change with
  | .pass executionAt => { p with status := change.status, executionAt := some executionAt }
  | .appeal => { p with status := change.status, appealed := true, executionAt := none }
  | .resume executionAt => { p with status := change.status, executionAt }
  | .fail | .void | .execute => { p with status := change.status }

@[simp] theorem apply_status (p : ShutdownPetition) (change : ShutdownChange) :
    (apply p change).status = change.status := by
  cases change <;> rfl

theorem status_eq_executed {change : ShutdownChange} :
    change.status = .executed ↔ change = .execute := by
  cases change <;> simp [status]

end ShutdownChange

/-- The petition that an event changes, and the change. -/
def shutdownChange (rt : Runtime) (cfg : GateConfig) (event : Dict) :
    Option (String × Except String ShutdownChange) :=
  let p := payload event
  if hasType "gate_shutdown_vote" event then
    (textField "petition_id" event).bind fun pid =>
      if (Dict.get p "vote").eq (.str "passed") then
        some (pid, do
          let ts ← timestamp rt event
          return .pass (ts.addRat (cfg.gateShutdownExecutionDelayDays * 86400)))
      else if (Dict.get p "vote").eq (.str "failed") then some (pid, return .fail)
      else none
  else if hasType "gate_shutdown_appeal_file" event then
    (textField "target_petition_id" event).map fun pid => (pid, return .appeal)
  else if hasType "gate_shutdown_appeal_resolve" event then
    (textField "target_petition_id" event).bind fun pid =>
      if (Dict.get p "outcome").eq (.str "voided_shutdown") then some (pid, return .void)
      else if (Dict.get p "outcome").eq (.str "resumed") then
        some (pid, .resume <$> catching ["TypeError", "ValueError"]
          (some <$> pyFloat rt (Dict.get p "resumed_execution_at")) none)
      else none
  else if hasType "gate_shutdown_execute" event then
    (textField "petition_id" event).map fun pid => (pid, return .execute)
  else none

/-- One round of the second loop. An event that names no petition of the gate is skipped. -/
def walkShutdown (rt : Runtime) (cfg : GateConfig) (petitions : Petitions) (event : Dict) :
    Except String Petitions :=
  match shutdownChange rt cfg event with
  | none => .ok petitions
  | some (pid, change) =>
    if (petitions.lookup pid).isSome then do
      let change ← change
      return petitions.modify pid fun p => change.apply p
    else .ok petitions

structure ShutdownState where
  hasPending : Bool
  pendingPetitionId : Option String
  pendingStatus : Option PetitionStatus
  executionAt : Option PyFloat
  executed : Bool
deriving DecidableEq, Repr

def shutdownStateOf (petitions : Petitions) : ShutdownState :=
  let pending := petitions.find? fun p =>
    p.2.status = .filed ∨ p.2.status = .executing ∨ p.2.status = .appealed
  { hasPending := pending.isSome, pendingPetitionId := pending.map Prod.fst,
    pendingStatus := pending.map fun p => p.2.status,
    executionAt := pending.bind fun p => p.2.executionAt,
    executed := petitions.any fun p => p.2.status = .executed }

/-- The petitions filed against the gate. -/
def filedShutdowns (rt : Runtime) (g : String) (chain : List PyVal) : Except String Petitions := do
  (← eventsForGate rt g chain).foldlM (fileShutdown rt) []

def chainAll (rt : Runtime) (chain : List PyVal) : Except String (List Dict) :=
  sortEvents rt (dicts chain)

def computeShutdownState (rt : Runtime) (cfg : GateConfig) (g : String) (chain : List PyVal) :
    Except String ShutdownState := do
  let filed ← filedShutdowns rt g chain
  let events ← chainAll rt chain
  return shutdownStateOf (← events.foldlM (walkShutdown rt cfg) filed)

/-! ## What the views read -/

/-- A petition with this id was filed against the gate. -/
def FiledAgainst (g : String) (chain : List PyVal) (pid : String) : Prop :=
  pid ≠ "" ∧ ∃ ev ∈ gateEvents g chain,
    hasType "gate_shutdown_file" ev ∧ textField "petition_id" ev = some pid

/-- The changes to one petition, in the order of the events. -/
def changesTo (rt : Runtime) (cfg : GateConfig) (pid : String) (events : List Dict) :
    List ShutdownChange :=
  events.filterMap fun ev =>
    match shutdownChange rt cfg ev with
    | some (pid', .ok change) => if pid' = pid then some change else none
    | _ => none

section Views

variable {rt : Runtime} {cfg : GateConfig} {g : String} {chain : List PyVal} {events : List Dict}
  {petitions petitions' : Petitions} {pid : String}

/-- The suspension scan sees an execution where there is one among its events. -/
theorem executed_of_scan {scan scan' : SuspensionScan}
    (h : events.foldlM (SuspensionScan.visit rt) scan = .ok scan') :
    scan'.lastShutdownExecutedTs.isSome ↔ scan.lastShutdownExecutedTs.isSome ∨
      ∃ ev ∈ events, hasType "gate_shutdown_execute" ev = true := by
  induction events generalizing scan with
  | nil =>
    cases h
    simp
  | cons ev events ih =>
    rw [List.foldlM_cons] at h
    obtain ⟨next, hnext, h⟩ := bind_eq_ok.mp h
    rw [ih h, List.exists_mem_cons_iff, ← or_assoc]
    apply or_congr_left
    obtain ⟨ts, -, hnext⟩ := bind_eq_ok.mp hnext
    cases hexecute : hasType "gate_shutdown_execute" ev with
    | true =>
      simp only [hasType_ne hexecute (show "gate_shutdown_execute" ≠ "gate_suspend_execute" by decide),
        hasType_ne hexecute (show "gate_shutdown_execute" ≠ "gate_unsuspend" by decide),
        hasType_ne hexecute (show "gate_shutdown_execute" ≠ "gate_shutdown_file" by decide),
        hexecute, Bool.false_eq_true, if_false, if_true, pure_eq_ok] at hnext
      subst hnext
      simp
    | false =>
      simp only [hexecute, Bool.false_eq_true, if_false, or_false] at hnext ⊢
      split at hnext
      · obtain rfl := pure_eq_ok.mp hnext
        rfl
      · split at hnext
        · obtain rfl := pure_eq_ok.mp hnext
          rfl
        · split at hnext <;> obtain rfl := pure_eq_ok.mp hnext <;> rfl

theorem state_status_shutdown {scan : SuspensionScan} {now : PyFloat} :
    (scan.state cfg now).status = .shutdown ↔ scan.lastShutdownExecutedTs.isSome := by
  unfold SuspensionScan.state
  cases scan.lastShutdownExecutedTs with
  | some ts => simp
  | none =>
    cases scan.suspendedAt with
    | none => simp
    | some suspendedAt =>
      dsimp only
      split
      · simp
      · split <;> simp

theorem shutdownSeen_foldl (scan : MemberScan) :
    (events.foldl MemberScan.visit scan).shutdownSeen = true ↔ scan.shutdownSeen = true ∨
      ∃ ev ∈ events, hasType "gate_shutdown_execute" ev = true := by
  induction events generalizing scan with
  | nil => simp
  | cons ev events ih =>
    rw [List.foldl_cons, ih, List.exists_mem_cons_iff, ← or_assoc]
    apply or_congr_left
    unfold MemberScan.visit MemberScan.add MemberScan.discard
    cases hasType "gate_shutdown_execute" ev with
    | true => simp
    | false =>
      simp only [Bool.false_eq_true, if_false, or_false]
      repeat' split
      all_goals simp_all

/-- A filing keeps the keys distinct and files its petition, if it names one. -/
theorem fileShutdown_spec {ev : Dict} (h : fileShutdown rt petitions ev = .ok petitions')
    (hdistinct : petitions.Distinct)
    (hfiled : ∀ k p, petitions.lookup k = some p → p.status = .filed) :
    petitions'.Distinct ∧ (∀ k p, petitions'.lookup k = some p → p.status = .filed) ∧
      ∀ k, (petitions'.lookup k).isSome ↔ (petitions.lookup k).isSome ∨ (k ≠ "" ∧
        hasType "gate_shutdown_file" ev ∧ textField "petition_id" ev = some k) := by
  unfold fileShutdown at h
  split at h
  · rename_i hkind
    cases hpid : textField "petition_id" ev with
    | none =>
      simp only [hpid] at h
      cases h
      exact ⟨hdistinct, hfiled, fun k => by simp⟩
    | some pid =>
      simp only [hpid] at h
      split at h
      · rename_i hempty
        cases h
        refine ⟨hdistinct, hfiled, fun k => ?_⟩
        simp only [Option.some.injEq, hempty]
        constructor
        · exact Or.inl
        · rintro (h | ⟨hne, -, rfl⟩)
          · exact h
          · exact absurd rfl hne
      · rename_i hpidne
        obtain ⟨ts, -, h⟩ := bind_eq_ok.mp h
        obtain rfl := pure_eq_ok.mp h
        refine ⟨hdistinct.upsert, fun k p hp => ?_, fun k => ?_⟩
        · rw [OrderedMap.lookup_insert] at hp
          split at hp
          · cases hp
            rfl
          · exact hfiled k p hp
        · rw [OrderedMap.lookup_insert]
          by_cases hk : k = pid
          · subst hk
            simp [hkind, hpidne]
          · simp [hk, Ne.symm hk]
  · rename_i hkind
    cases h
    exact ⟨hdistinct, hfiled, fun k => by simp [hkind]⟩

/-- The first loop keeps the keys distinct, files what names the gate, and starts each petition
    as filed. -/
theorem foldlM_fileShutdown (h : events.foldlM (fileShutdown rt) petitions = .ok petitions')
    (hdistinct : petitions.Distinct)
    (hfiled : ∀ k p, petitions.lookup k = some p → p.status = .filed) :
    petitions'.Distinct ∧ (∀ k p, petitions'.lookup k = some p → p.status = .filed) ∧
      ∀ k, (petitions'.lookup k).isSome ↔ (petitions.lookup k).isSome ∨ (k ≠ "" ∧
        ∃ ev ∈ events, hasType "gate_shutdown_file" ev ∧ textField "petition_id" ev = some k) := by
  induction events generalizing petitions with
  | nil =>
    cases h
    exact ⟨hdistinct, hfiled, fun k => by simp⟩
  | cons ev events ih =>
    rw [List.foldlM_cons] at h
    obtain ⟨next, hnext, h⟩ := bind_eq_ok.mp h
    obtain ⟨hdistinct, hfiled, hstep⟩ := fileShutdown_spec hnext hdistinct hfiled
    obtain ⟨hdistinct', hfiled', hkeys⟩ := ih h hdistinct hfiled
    refine ⟨hdistinct', hfiled', fun k => ?_⟩
    rw [hkeys, hstep, List.exists_mem_cons_iff, or_assoc, ← and_or_left]

/-- The petitions of a gate: distinct, all as filed, and each filed by an event. -/
theorem filedShutdowns_spec (h : filedShutdowns rt g chain = .ok petitions) :
    petitions.Distinct ∧ (∀ k p, petitions.lookup k = some p → p.status = .filed) ∧
      ∀ k, (petitions.lookup k).isSome ↔ FiledAgainst g chain k := by
  obtain ⟨events, hevents, h⟩ := bind_eq_ok.mp h
  obtain ⟨hdistinct, hfiled, hkeys⟩ := foldlM_fileShutdown h OrderedMap.distinct_nil
    (fun k p hp => by cases hp)
  refine ⟨hdistinct, hfiled, fun k => ?_⟩
  rw [hkeys]
  simp only [FiledAgainst, (sortEvents_perm hevents).mem_iff, List.lookup_nil, Option.isSome_none,
    Bool.false_eq_true, false_or]

/-- One event changes the petition it names and no other. -/
theorem walkShutdown_lookup {ev : Dict} (h : walkShutdown rt cfg petitions ev = .ok petitions') :
    petitions'.lookup pid =
      (petitions.lookup pid).map fun p => (changesTo rt cfg pid [ev]).foldl ShutdownChange.apply p := by
  unfold walkShutdown at h
  unfold changesTo
  cases hchange : shutdownChange rt cfg ev with
  | none =>
    simp only [hchange] at h
    cases h
    simp [hchange]
  | some named =>
    obtain ⟨pid', change⟩ := named
    simp only [hchange] at h
    split at h
    · obtain ⟨c, rfl, h⟩ := bind_eq_ok.mp h
      obtain rfl := pure_eq_ok.mp h
      rw [OrderedMap.lookup_modify]
      by_cases hpid : pid = pid'
      · subst hpid
        simp [hchange]
      · simp [hchange, hpid, Ne.symm hpid]
    · rename_i habsent
      cases h
      by_cases hpid : pid = pid'
      · subst hpid
        have hnone : petitions.lookup pid = none := Option.not_isSome_iff_eq_none.mp habsent
        rw [hnone]
        rfl
      · cases change <;> simp [hchange, Ne.symm hpid]

theorem foldlM_walkShutdown (h : events.foldlM (walkShutdown rt cfg) petitions = .ok petitions') :
    petitions'.lookup pid =
      (petitions.lookup pid).map fun p => (changesTo rt cfg pid events).foldl ShutdownChange.apply p := by
  induction events generalizing petitions with
  | nil =>
    cases h
    simp [changesTo]
  | cons ev events ih =>
    rw [List.foldlM_cons] at h
    obtain ⟨next, hnext, h⟩ := bind_eq_ok.mp h
    have hsplit : changesTo rt cfg pid (ev :: events) =
        changesTo rt cfg pid [ev] ++ changesTo rt cfg pid events := by
      unfold changesTo
      rw [← List.filterMap_append, List.singleton_append]
    rw [ih h, walkShutdown_lookup hnext, Option.map_map, hsplit]
    simp [Function.comp_def]

theorem walkShutdown_distinct {ev : Dict} (h : walkShutdown rt cfg petitions ev = .ok petitions')
    (hdistinct : petitions.Distinct) : petitions'.Distinct := by
  unfold walkShutdown at h
  split at h
  · cases h
    exact hdistinct
  · split at h
    · obtain ⟨c, -, h⟩ := bind_eq_ok.mp h
      obtain rfl := pure_eq_ok.mp h
      exact hdistinct.modify
    · cases h
      exact hdistinct

theorem foldlM_walkShutdown_distinct
    (h : events.foldlM (walkShutdown rt cfg) petitions = .ok petitions')
    (hdistinct : petitions.Distinct) : petitions'.Distinct := by
  induction events generalizing petitions with
  | nil =>
    cases h
    exact hdistinct
  | cons ev events ih =>
    rw [List.foldlM_cons] at h
    obtain ⟨next, hnext, h⟩ := bind_eq_ok.mp h
    exact ih h (walkShutdown_distinct hnext hdistinct)

theorem foldl_apply_status (changes : List ShutdownChange) (p : ShutdownPetition) :
    (changes.foldl ShutdownChange.apply p).status =
      (changes.getLast?.map ShutdownChange.status).getD p.status := by
  induction changes generalizing p with
  | nil => rfl
  | cons c changes ih =>
    rw [List.foldl_cons, ih, ShutdownChange.apply_status]
    cases changes with
    | nil => rfl
    | cons c' changes => simp [List.getLast?_cons]

/-- The petition machine reports an execution where the last change to a petition of the gate
    is one. -/
theorem executed_iff {sd : ShutdownState} (h : computeShutdownState rt cfg g chain = .ok sd) :
    ∃ all, chainAll rt chain = .ok all ∧ (sd.executed = true ↔
      ∃ pid, FiledAgainst g chain pid ∧ (changesTo rt cfg pid all).getLast? = some .execute) := by
  obtain ⟨filed, hfiled, h⟩ := bind_eq_ok.mp h
  obtain ⟨all, hall, h⟩ := bind_eq_ok.mp h
  obtain ⟨final, hfinal, h⟩ := bind_eq_ok.mp h
  obtain rfl := pure_eq_ok.mp h
  obtain ⟨hdistinct, hstart, hkeys⟩ := filedShutdowns_spec hfiled
  have hdistinct' := foldlM_walkShutdown_distinct hfinal hdistinct
  -- the status at the end is that of the last change
  have hstatus : ∀ pid p, filed.lookup pid = some p →
      (((changesTo rt cfg pid all).foldl ShutdownChange.apply p).status = .executed ↔
        (changesTo rt cfg pid all).getLast? = some .execute) := by
    intro pid p hp
    rw [foldl_apply_status, hstart pid p hp]
    cases (changesTo rt cfg pid all).getLast? with
    | none => simp
    | some c => simp [ShutdownChange.status_eq_executed]
  refine ⟨all, hall, ?_⟩
  simp only [shutdownStateOf, List.any_eq_true, decide_eq_true_eq, Prod.exists]
  constructor
  · rintro ⟨pid, p, hmem, hexecuted⟩
    have hlook := hdistinct'.mem_iff.mp hmem
    rw [foldlM_walkShutdown hfinal, Option.map_eq_some_iff] at hlook
    obtain ⟨start, hlook, rfl⟩ := hlook
    exact ⟨pid, (hkeys pid).mp (by rw [hlook]; rfl), (hstatus pid start hlook).mp hexecuted⟩
  · rintro ⟨pid, hpid, hlast⟩
    obtain ⟨start, hlook⟩ := Option.isSome_iff_exists.mp ((hkeys pid).mpr hpid)
    refine ⟨pid, _, hdistinct'.mem_iff.mpr ?_, (hstatus pid start hlook).mpr hlast⟩
    rw [foldlM_walkShutdown hfinal, hlook]
    rfl

end Views

/-! ## Due process -/

/-- An execution of a petition against the gate that a vote passed, in its time, and that no
    appeal paused or voided. -/
def DueProcess (rt : Runtime) (cfg : GateConfig) (g : String) (chain : List PyVal) : Prop :=
  ∃ filed pid pre ev post, filedShutdowns rt g chain = .ok filed ∧ FiledAgainst g chain pid ∧
    chainAll rt chain = .ok (pre ++ ev :: post) ∧
    hasType "gate_shutdown_execute" ev ∧ textField "petition_id" ev = some pid ∧
    (∃ vote ∈ pre, hasType "gate_shutdown_vote" vote ∧ textField "petition_id" vote = some pid ∧
      (Dict.get (payload vote) "vote").eq (.str "passed")) ∧
    ∃ before p, pre.foldlM (walkShutdown rt cfg) filed = .ok before ∧
      before.lookup pid = some p ∧ p.status = .executing ∧
      ∃ executionAt ts, p.executionAt = some executionAt ∧ timestamp rt ev = .ok ts ∧
        executionAt.le ts = true

/-- The three views agree on the shutdown of a gate, and it took due process. -/
structure ShutdownByDueProcess (rt : Runtime) (cfg : GateConfig) (g : String)
    (chain : List PyVal) (suspension : SuspensionState) (shutdown : ShutdownState)
    (members : MemberScan) : Prop where
  suspended_executed : suspension.status = .shutdown ↔ shutdown.executed = true
  suspended_emptied : suspension.status = .shutdown ↔ members.shutdownSeen = true
  due : suspension.status = .shutdown → DueProcess rt cfg g chain

/-- No execution names the gate, and no petition filed against it has an execution as the last
    event that changes it. -/
structure NoExecution (rt : Runtime) (cfg : GateConfig) (g : String) (chain : List PyVal) :
    Prop where
  gate : ∀ ev ∈ gateEvents g chain, hasType "gate_shutdown_execute" ev = false
  petition : ∀ all, chainAll rt chain = .ok all → ∀ pid, FiledAgainst g chain pid →
    (changesTo rt cfg pid all).getLast? ≠ some .execute

section DueProcess

variable {rest : String → Dict → Verdict} {rt : Runtime} {cfg : GateConfig} {g : String}
  {chain : List PyVal}

/-- A vote that the schema admits is never the one that passes a petition. -/
theorem not_passed_of_valid (hvalid : SchemaValid (Schema.validateGateEventPayload rest) chain)
    {vote : Dict} (hvote : vote ∈ dicts chain) (hkind : hasType "gate_shutdown_vote" vote = true) :
    (Dict.get (payload vote) "vote").eq (.str "passed") = false := by
  obtain ⟨v, hv, hdict⟩ := List.mem_filterMap.mp hvote
  obtain ⟨e, t, rfl, htype, hok⟩ := hvalid v hv
  obtain rfl : e = vote := by simpa using hdict
  rw [hasType_iff] at hkind
  rw [htype] at hkind
  cases hkind
  have hcheck : Schema.validateGateActionVote (payload e) = .ok () := hok
  unfold Schema.validateGateActionVote at hcheck
  simp only [↓check_bind_eq_ok, require_eq_ok] at hcheck
  obtain ⟨-, hside⟩ := hcheck
  cases hval : Dict.get (payload e) "vote" with
  | str s =>
    simp only [hval, PyVal.inStrings, PyVal.eq, List.any_cons, List.any_nil, Bool.or_false,
      Bool.or_eq_true, beq_iff_eq] at hside
    rcases hside with rfl | rfl <;> decide
  | none | bool | int | float | list | dict => simp [PyVal.eq, PyVal.eqScalar, PyVal.rat?]

theorem not_dueProcess (hvalid : SchemaValid (Schema.validateGateEventPayload rest) chain) :
    ¬ DueProcess rt cfg g chain := by
  rintro ⟨filed, pid, pre, ev, post, -, -, hall, -, -, ⟨vote, hvote, hkind, -, hpassed⟩, -⟩
  have hmem : vote ∈ dicts chain :=
    (sortEvents_perm hall).mem_iff.mp (List.mem_append_left _ hvote)
  rw [not_passed_of_valid hvalid hmem hkind] at hpassed
  cases hpassed

/-- On schema-valid chains, the views agree and shutdowns take due process exactly where no
    view sees an execution. -/
theorem shutdownByDueProcess_iff {suspension : SuspensionState} {shutdown : ShutdownState}
    {events : List Dict} {now : PyFloat}
    (hvalid : SchemaValid (Schema.validateGateEventPayload rest) chain)
    (hsuspension : computeSuspensionState rt cfg g chain now = .ok suspension)
    (hshutdown : computeShutdownState rt cfg g chain = .ok shutdown)
    (hevents : eventsForGate rt g chain = .ok events) :
    ShutdownByDueProcess rt cfg g chain suspension shutdown (memberScan events) ↔
      NoExecution rt cfg g chain := by
  obtain ⟨all, hall, hexecuted⟩ := executed_iff hshutdown
  have hperm := sortEvents_perm hevents
  have hsuspended : suspension.status = .shutdown ↔
      ∃ ev ∈ events, hasType "gate_shutdown_execute" ev = true := by
    obtain ⟨events', hevents', h⟩ := bind_eq_ok.mp hsuspension
    rw [hevents] at hevents'
    cases hevents'
    obtain ⟨scan, hscan, h⟩ := bind_eq_ok.mp h
    obtain rfl := pure_eq_ok.mp h
    rw [state_status_shutdown, executed_of_scan hscan]
    simp
  have hseen : (memberScan events).shutdownSeen = true ↔
      ∃ ev ∈ events, hasType "gate_shutdown_execute" ev = true := by
    unfold memberScan
    rw [shutdownSeen_foldl]
    simp
  constructor
  · intro h
    have hnot : ¬ suspension.status = .shutdown := fun hs => not_dueProcess hvalid (h.due hs)
    constructor
    · intro ev hev
      rw [hsuspended] at hnot
      cases hexecute : hasType "gate_shutdown_execute" ev with
      | false => rfl
      | true => exact absurd ⟨ev, hperm.mem_iff.mpr hev, hexecute⟩ hnot
    · intro all' hall' pid hpid hlast
      rw [hall] at hall'
      cases hall'
      exact hnot (h.suspended_executed.mpr (hexecuted.mpr ⟨pid, hpid, hlast⟩))
  · intro h
    have hnone : ¬ ∃ ev ∈ events, hasType "gate_shutdown_execute" ev = true := by
      rintro ⟨ev, hev, hexecute⟩
      rw [h.gate ev (hperm.mem_iff.mp hev)] at hexecute
      cases hexecute
    have hnotExecuted : ¬ shutdown.executed = true := by
      rw [hexecuted]
      rintro ⟨pid, hpid, hlast⟩
      exact h.petition all hall pid hpid hlast
    have hnotSuspended : ¬ suspension.status = .shutdown := fun hs => hnone (hsuspended.mp hs)
    exact ⟨iff_of_false hnotSuspended hnotExecuted, hsuspended.trans hseen.symm,
      fun hs => absurd hs hnotSuspended⟩

/-- The three views of a gate on a chain to run examples on. -/
def gateViews (chain : List PyVal) :
    Except String ((SuspensionState × ShutdownState) × List Dict) := do
  let suspension ← computeSuspensionState asciiRuntime {} "g" chain (.finite 1800000000)
  let shutdown ← computeShutdownState asciiRuntime {} "g" chain
  return ((suspension, shutdown), ← eventsForGate asciiRuntime "g" chain)

/-- A gate against which a petition is filed. -/
def petitionedGate : List PyVal :=
  [chainEvent "gate_shutdown_file" "ana" 1 [("petition_id", .str "p1"), ("gate_id", .str "g"),
    ("reason", .str "r"), ("evidence_hashes", .list [.str "e1"])]]

/-- An execution that names the gate and an unknown petition. -/
def strayExecution : PyVal :=
  chainEvent "gate_shutdown_execute" "eve" 2 [("petition_id", .str "p0"), ("gate_id", .str "g")]

theorem shutdownByDueProcess_iff_sample : ∃ suspension shutdown events,
    computeShutdownState asciiRuntime {} "g" petitionedGate = .ok shutdown ∧
    (ShutdownByDueProcess asciiRuntime {} "g" petitionedGate suspension shutdown
        (memberScan events) ↔ NoExecution asciiRuntime {} "g" petitionedGate) := by
  have hrun : okAnd (gateViews petitionedGate) (fun _ => true) = true := by decide +kernel
  obtain ⟨run, hrun, -⟩ := okAnd_iff.mp hrun
  unfold gateViews at hrun
  simp only [bind_eq_ok, pure_eq_ok] at hrun
  obtain ⟨suspension, hsuspension, shutdown, hshutdown, events, hevents, -⟩ := hrun
  have hvalid : SchemaValid (Schema.validateGateEventPayload fun _ _ => .ok ()) petitionedGate :=
    schemaValid_of_passes (by decide +kernel)
  exact ⟨suspension, shutdown, events, hshutdown,
    shutdownByDueProcess_iff hvalid hsuspension hshutdown hevents⟩

/-- An execution of an unknown petition shuts the gate down for two of the views, without any
    petition and any vote. -/
theorem not_shutdownByDueProcess :
    ¬ ∀ (rest : String → Dict → Verdict) (rt : Runtime) (cfg : GateConfig) (g : String)
      (chain : List PyVal) (now : PyFloat) (suspension : SuspensionState)
      (shutdown : ShutdownState) (events : List Dict),
      SchemaValid (Schema.validateGateEventPayload rest) chain →
      computeSuspensionState rt cfg g chain now = .ok suspension →
      computeShutdownState rt cfg g chain = .ok shutdown →
      eventsForGate rt g chain = .ok events →
      ShutdownByDueProcess rt cfg g chain suspension shutdown (memberScan events) := by
  intro h
  have hrun : okAnd (gateViews [strayExecution])
      (fun run => run.1.1.status = .shutdown && !run.1.2.executed) = true := by decide +kernel
  obtain ⟨run, hrun, hviews⟩ := okAnd_iff.mp hrun
  unfold gateViews at hrun
  simp only [bind_eq_ok, pure_eq_ok] at hrun
  obtain ⟨suspension, hsuspension, shutdown, hshutdown, events, hevents, rfl⟩ := hrun
  have hvalid : SchemaValid (Schema.validateGateEventPayload fun _ _ => .ok ()) [strayExecution] :=
    schemaValid_of_passes (by decide +kernel)
  have hlaw := h _ _ _ _ _ _ _ _ _ hvalid hsuspension hshutdown hevents
  simp only [Bool.and_eq_true, decide_eq_true_eq, Bool.not_eq_true'] at hviews
  have hexecuted := hlaw.suspended_executed.mp hviews.1
  rw [hviews.2] at hexecuted
  cases hexecuted

end DueProcess

end Vincent.Economy
