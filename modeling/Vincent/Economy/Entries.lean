-- SUMMARY: Entering a gate: the checks, the burn, and when it is covered.
import Vincent.Economy.CommonRep
import Vincent.General.Run

/-!
# Gate entries

A node enters a gate for a sacrifice of common reputation. The check compares it with
the reputation that the chain gives the node, from which an entry on the chain takes
nothing.
-/

namespace Vincent.Economy

open Vincent.Python Vincent.Check Vincent.Run

section Model

variable (rt : Runtime) (log2 : PyFloat → PyFloat) (fixed4 : PyFloat → String)
  (cfg : CommonRepConfig)

/-! ## Gate metadata -/

structure GateMeta where
  gateId : String
  creatorNodeId : String
  displayName : String
  entrySacrifice : Int
  minOverallRep : Int
  minGateRep : List (String × Int)
  createdAt : PyFloat
  rawRules : Dict

/-- `_safe_int` with its default. -/
def safeIntOrZero (v : PyVal) : Except String Int :=
  match v with
  | .bool _ => .ok 0
  | v => catching ["TypeError", "ValueError"] (pyInt rt v) 0

/-- A value that should be a dict. -/
def asDict : PyVal → Dict
  | .dict d => d
  | _ => []

def readGateMeta (g : String) (event : Dict) : Except String GateMeta := do
  let p := payload event
  let rules := asDict (Dict.get p "rules")
  let crossGate := asDict (Dict.get rules "min_gate_rep")
  let entrySacrifice ← safeIntOrZero rt (Dict.get rules "entry_sacrifice")
  let minOverallRep ← safeIntOrZero rt (Dict.get rules "min_overall_rep")
  let minGateRep ← (crossGate.filter fun kv => kv.1 ≠ "").mapM fun kv =>
    Prod.mk kv.1 <$> safeIntOrZero rt kv.2
  let createdAt ← timestamp rt event
  return { gateId := g
           creatorNodeId := ((Dict.get event "node_id").or (.str "")).toStr rt
           displayName := ((Dict.get p "display_name").or (.str "")).toStr rt
           entrySacrifice, minOverallRep, minGateRep, createdAt, rawRules := rules }

/-- The metadata of the first event that creates the gate. -/
def getGateMeta (g : String) (chain : List PyVal) : Except String (Option GateMeta) :=
  match (dicts chain).find? fun ev => hasType "gate_create" ev && gateId ev = g with
  | none => .ok none
  | some event => some <$> readGateMeta rt g event

/-! ## Eligibility -/

/-- The event, unless it is an uprep by no member. -/
def memberUprep (members : List String) (event : Dict) : Except String (Option Dict) :=
  if hasType "uprep" event then
    match Dict.get event "node_id" with
    | .str author => .ok (if author ∈ members then some event else none)
    | .list _ | .dict _ => .error "TypeError"
    | _ => .ok none
  else .ok (some event)

def computeGateRep (node g : String) (chain : List PyVal) : Except String PyFloat := do
  let members ← computeMemberSet rt g chain
  if members = [] then return .finite 0
  else computeCommonRep rt log2 cfg node (← (dicts chain).filterMapM (memberUprep members))

structure EntryRefusal where
  kind : String
  detail : String
deriving DecidableEq, Repr

structure EntryDecision where
  accepted : Bool
  cost : Int
  refusals : List EntryRefusal
deriving DecidableEq, Repr

def refuse (kind detail : String) : EntryDecision :=
  { accepted := false, cost := 0, refusals := [{ kind, detail }] }

/-- The refusal for too little common reputation. -/
def overallRefusal (gate : GateMeta) (commonRep : PyFloat) : List EntryRefusal :=
  let needed := gate.minOverallRep + gate.entrySacrifice
  if commonRep.lt (.finite needed) then
    [{ kind := "insufficient_common_rep"
       detail := "have " ++ fixed4 commonRep ++ ", need " ++ toString needed ++
         " (min_overall_rep " ++ toString gate.minOverallRep ++ " + entry_sacrifice " ++
         toString gate.entrySacrifice ++ ")" }]
  else []

/-- The refusal for too little reputation in another gate. -/
def gateRefusal (node : String) (chain : List PyVal) (required : String × Int) :
    Except String (Option EntryRefusal) := do
  let gateRep ← computeGateRep rt log2 cfg node required.1 chain
  return if gateRep.lt (.finite required.2) then
      some { kind := "insufficient_gate_rep"
             detail := "gate " ++ required.1 ++ ": have " ++ fixed4 gateRep ++ ", need " ++
               toString required.2 }
    else none

def canEnter (node g : String) (chain : List PyVal) : Except String EntryDecision := do
  match ← getGateMeta rt g chain with
  | none => return refuse "gate_not_found" g
  | some gate =>
    let members ← computeMemberSet rt g chain
    if node ∈ members then return refuse "already_member" g
    else
      let commonRep ← computeCommonRep rt log2 cfg node (dicts chain)
      let gateRefusals ← gate.minGateRep.filterMapM (gateRefusal rt log2 fixed4 cfg node chain)
      let refusals := overallRefusal fixed4 gate commonRep ++ gateRefusals
      return { accepted := refusals = []
               cost := if refusals = [] then gate.entrySacrifice else 0
               refusals }

/-! ## Runs -/

/-- A chain, with what each node sacrificed in the run. -/
structure EntryState where
  chain : List PyVal
  sacrificed : String → Int := fun _ => 0

inductive EntryAction where
  | enter (node g : String) (ts : PyFloat) (sequence : Int)
  | exit (node g : String) (ts : PyFloat) (sequence : Int)

def gateEvent (eventType node : String) (ts : PyFloat) (sequence : Int) (p : Dict) : Dict :=
  [("event_type", .str eventType), ("node_id", .str node), ("timestamp", .float ts),
    ("sequence", .int sequence), ("payload", .dict p)]

def gateEnterEvent (node g : String) (cost : Int) (ts : PyFloat) (sequence : Int) : Dict :=
  gateEvent "gate_enter" node ts sequence
    [("gate_id", .str g), ("sacrifice_amount", .int cost)]

def gateExitEvent (node g : String) (ts : PyFloat) (sequence : Int) : Dict :=
  gateEvent "gate_exit" node ts sequence [("gate_id", .str g)]

/-- The cost of an entry, if it is accepted. -/
def acceptedCost (node g : String) (chain : List PyVal) : Option Int :=
  match canEnter rt log2 fixed4 cfg node g chain with
  | .ok decision => if decision.accepted then some decision.cost else none
  | .error _ => none

def entryStep (s : EntryState) : EntryAction → EntryState
  | .enter node g ts sequence =>
    match acceptedCost rt log2 fixed4 cfg node g s.chain with
    | some cost =>
      { chain := s.chain ++ [.dict (gateEnterEvent node g cost ts sequence)]
        sacrificed := Function.update s.sacrificed node (s.sacrificed node + cost) }
    | none => s
  | .exit node g ts sequence =>
    { s with chain := s.chain ++ [.dict (gateExitEvent node g ts sequence)] }

/-- What a node sacrificed does not exceed its common reputation. -/
def Covered (s : EntryState) : Prop :=
  ∀ node, s.sacrificed node ≠ 0 → ∃ rep,
    computeCommonRep rt log2 cfg node (dicts s.chain) = .ok rep ∧
      (PyFloat.finite (s.sacrificed node)).le rep = true

/-- The node sacrificed nothing before, the gate asks for nothing negative, and all are numbers. -/
def SpendsOnce (s : EntryState) : EntryAction → Prop
  | .enter node g ts _ => ts ≠ .nan ∧ s.sacrificed node = 0 ∧
    (∀ gate, getGateMeta rt g s.chain = .ok (some gate) → 0 ≤ gate.minOverallRep) ∧
    computeCommonRep rt log2 cfg node (dicts s.chain) ≠ .ok .nan
  | .exit _ _ ts _ => ts ≠ .nan

end Model

section

variable {rt : Runtime} {log2 : PyFloat → PyFloat} {fixed4 : PyFloat → String}
  {cfg : CommonRepConfig} {node g : String} {chain : List PyVal} {s : EntryState}

/-! ## Gate events -/

theorem dicts_append (e : Dict) : dicts (chain ++ [.dict e]) = dicts chain ++ [e] := by
  simp [dicts]

theorem payload_gateEvent (eventType node : String) (ts : PyFloat) (sequence : Int) (p : Dict) :
    payload (gateEvent eventType node ts sequence p) = p := by
  simp [payload, gateEvent, Dict.get, List.lookup_cons]

theorem hasType_gateEvent (t eventType node : String) (ts : PyFloat) (sequence : Int) (p : Dict)
    (hne : eventType ≠ t) : hasType t (gateEvent eventType node ts sequence p) = false := by
  rw [Bool.eq_false_iff, ne_eq, hasType_iff]
  simpa [gateEvent, Dict.get, List.lookup_cons] using hne

/-- A gate event with no market is not seen by common reputation. -/
theorem unseen_gateEvent {eventType : String} {ts : PyFloat} {sequence : Int} {p : Dict}
    (htype : eventType ∉ ["uprep", "prediction_place", "dispute_open", "dispute_stake",
      "dispute_resolve"])
    (hmarket : Dict.get p "market_id" = .none) :
    Unseen (gateEvent eventType node ts sequence p) := by
  simp only [List.mem_cons, List.not_mem_nil, or_false, not_or] at htype
  obtain ⟨huprep, hplace, hopen, hstake, hresolve⟩ := htype
  refine ⟨hasType_gateEvent _ _ _ _ _ _ huprep, hasType_gateEvent _ _ _ _ _ _ hplace, ?_,
    hasType_gateEvent _ _ _ _ _ _ hopen, hasType_gateEvent _ _ _ _ _ _ hstake,
    hasType_gateEvent _ _ _ _ _ _ hresolve⟩
  unfold marketKey
  rw [payload_gateEvent, hmarket]

theorem timestamp_gateEvent (rt : Runtime) (eventType node : String) (ts : PyFloat)
    (sequence : Int) (p : Dict) :
    ∃ x, timestamp rt (gateEvent eventType node ts sequence p) = .ok x ∧
      (x = .nan → ts = .nan) := by
  have hget : Dict.get (gateEvent eventType node ts sequence p) "timestamp" = .float ts := by
    simp [gateEvent, Dict.get, List.lookup_cons]
  unfold timestamp
  rw [hget]
  unfold PyVal.or
  split
  · exact ⟨ts, rfl, id⟩
  · exact ⟨.finite 0, rfl, fun h => by cases h⟩

theorem stamped_gateEvent (eventType node : String) (ts : PyFloat) (sequence : Int) (p : Dict) :
    Stamped rt (gateEvent eventType node ts sequence p) := by
  obtain ⟨x, hx, -⟩ := timestamp_gateEvent rt eventType node ts sequence p
  have hget : Dict.get (gateEvent eventType node ts sequence p) "sequence" = .int sequence := by
    simp [gateEvent, Dict.get, List.lookup_cons]
  have hsequence : ∃ n, Economy.sequence rt (gateEvent eventType node ts sequence p) = .ok n := by
    unfold Economy.sequence
    rw [hget]
    unfold PyVal.or
    split
    · exact ⟨_, rfl⟩
    · exact ⟨_, rfl⟩
  obtain ⟨n, hn⟩ := hsequence
  exact ⟨((x, n), _), keyed_eq_ok.mpr ⟨hx, hn, rfl⟩⟩

/-- The chain that a gate event extends has number stamps, and gives the same reputation. -/
theorem append_gateEvent {eventType : String} {ts : PyFloat} {sequence : Int} {p : Dict}
    (hnumber : ∀ a ∈ dicts chain, NumberStamped rt a) (hts : ts ≠ .nan)
    (hunseen : Unseen (gateEvent eventType node ts sequence p)) :
    (∀ a ∈ dicts (chain ++ [.dict (gateEvent eventType node ts sequence p)]), NumberStamped rt a) ∧
      ∀ n, computeCommonRep rt log2 cfg n
          (dicts (chain ++ [.dict (gateEvent eventType node ts sequence p)])) =
        computeCommonRep rt log2 cfg n (dicts chain) := by
  have hevent : NumberStamped rt (gateEvent eventType node ts sequence p) := by
    obtain ⟨x, hx, hnan⟩ := timestamp_gateEvent rt eventType node ts sequence p
    intro heq
    rw [hx] at heq
    exact hts (hnan (Except.ok.inj heq))
  rw [dicts_append]
  constructor
  · intro a ha
    rcases List.mem_append.mp ha with ha | ha
    · exact hnumber a ha
    · rwa [List.mem_singleton.mp ha]
  · intro n
    apply hunseen.computeCommonRep (stamped_gateEvent _ _ _ _ _)
    intro a ha
    rcases List.mem_cons.mp ha with rfl | ha
    · exact hevent
    · exact hnumber a ha

theorem unseen_enter (node g : String) (cost : Int) (ts : PyFloat) (sequence : Int) :
    Unseen (gateEnterEvent node g cost ts sequence) :=
  unseen_gateEvent (by decide) (by simp [Dict.get, List.lookup_cons])

theorem unseen_exit (node g : String) (ts : PyFloat) (sequence : Int) :
    Unseen (gateExitEvent node g ts sequence) :=
  unseen_gateEvent (by decide) (by simp [Dict.get, List.lookup_cons])

/-! ## Entries -/

/-- An accepted entry costs the sacrifice, and the reputation is not below what the gate needs. -/
theorem acceptedCost_eq_some {cost : Int}
    (h : acceptedCost rt log2 fixed4 cfg node g chain = some cost) :
    ∃ gate rep, getGateMeta rt g chain = .ok (some gate) ∧ cost = gate.entrySacrifice ∧
      computeCommonRep rt log2 cfg node (dicts chain) = .ok rep ∧
      rep.lt (.finite ((gate.minOverallRep + gate.entrySacrifice : Int) : ℚ)) = false := by
  unfold acceptedCost at h
  split at h
  · rename_i decision hdecision
    split at h
    · rename_i haccepted
      cases h
      unfold canEnter at hdecision
      obtain ⟨found, hfound, hdecision⟩ := bind_eq_ok.mp hdecision
      cases found with
      | none =>
        cases hdecision
        cases haccepted
      | some gate =>
        obtain ⟨members, -, hdecision⟩ := bind_eq_ok.mp hdecision
        dsimp only at hdecision
        split at hdecision
        · cases hdecision
          cases haccepted
        · obtain ⟨rep, hrep, hdecision⟩ := bind_eq_ok.mp hdecision
          obtain ⟨refusals, -, hdecision⟩ := bind_eq_ok.mp hdecision
          obtain rfl := pure_eq_ok.mp hdecision
          have hnone := of_decide_eq_true haccepted
          refine ⟨gate, rep, hfound, if_pos hnone, hrep, ?_⟩
          have hoverall := (List.append_eq_nil_iff.mp hnone).1
          unfold overallRefusal at hoverall
          dsimp only at hoverall
          split at hoverall
          · cases hoverall
          · rename_i hlt
            exact Bool.eq_false_iff.mpr hlt
    · cases h
  · cases h

theorem le_of_not_lt {rep : PyFloat} {cost needed : ℚ} (hnan : rep ≠ .nan) (hle : cost ≤ needed)
    (h : rep.lt (.finite needed) = false) : (PyFloat.finite cost).le rep = true := by
  have hlt : rep.lt (.finite cost) = false := by
    rw [Bool.eq_false_iff]
    intro hlt
    rw [PyFloat.lt_place hnan (by simp)] at hlt
    rw [Bool.eq_false_iff, ne_eq, PyFloat.lt_place hnan (by simp)] at h
    apply h
    refine hlt.trans_le ?_
    simpa [PyFloat.place] using hle
  unfold PyFloat.le
  simp [hlt, hnan]

/-- What holds of the runs in which each node sacrifices once. -/
structure Charged (rt : Runtime) (log2 : PyFloat → PyFloat) (cfg : CommonRepConfig)
    (s : EntryState) : Prop where
  numbers : ∀ a ∈ dicts s.chain, NumberStamped rt a
  covered : Covered rt log2 cfg s

theorem entryStep_charged (h : Charged rt log2 cfg s) {a : EntryAction}
    (honce : SpendsOnce rt log2 cfg s a) :
    Charged rt log2 cfg (entryStep rt log2 fixed4 cfg s a) := by
  cases a with
  | exit node g ts sequence =>
    obtain ⟨hnumbers, hsame⟩ := append_gateEvent h.numbers honce (unseen_exit node g ts sequence)
    refine ⟨hnumbers, fun n hn => ?_⟩
    obtain ⟨rep, hrep, hle⟩ := h.covered n hn
    exact ⟨rep, (hsame n).trans hrep, hle⟩
  | enter node g ts sequence =>
    obtain ⟨hts, hzero, hmin, hnan⟩ := honce
    unfold entryStep
    dsimp only
    cases hcost : acceptedCost rt log2 fixed4 cfg node g s.chain with
    | none => exact h
    | some cost =>
      obtain ⟨gate, rep, hgate, rfl, hrep, hneeded⟩ := acceptedCost_eq_some hcost
      obtain ⟨hnumbers, hsame⟩ := append_gateEvent h.numbers hts
        (unseen_enter node g gate.entrySacrifice ts sequence)
      refine ⟨hnumbers, fun n hn => ?_⟩
      dsimp only at hn ⊢
      rcases eq_or_ne n node with rfl | hne
      · rw [Function.update_self, hzero, zero_add]
        refine ⟨rep, (hsame n).trans hrep, le_of_not_lt ?_ ?_ hneeded⟩
        · rintro rfl
          exact hnan hrep
        · exact_mod_cast le_add_of_nonneg_left (hmin gate hgate)
      · rw [Function.update_of_ne hne] at hn ⊢
        obtain ⟨rep', hrep', hle⟩ := h.covered n hn
        exact ⟨rep', (hsame n).trans hrep', hle⟩

end

/-- Where no node enters after it sacrificed, its common reputation covers its sacrifice. -/
theorem entries_covered (rt : Runtime) (log2 : PyFloat → PyFloat) (fixed4 : PyFloat → String)
    (cfg : CommonRepConfig) (chain : List PyVal) (actions : List EntryAction)
    (hnumbers : ∀ a ∈ dicts chain, NumberStamped rt a)
    (hrun : Along (entryStep rt log2 fixed4 cfg) (SpendsOnce rt log2 cfg) { chain } actions) :
    Covered rt log2 cfg (run (entryStep rt log2 fixed4 cfg) { chain } actions) := by
  have hstart : Charged rt log2 cfg { chain } := ⟨hnumbers, fun node hnode => absurd rfl hnode⟩
  have hstep : ∀ s a, Charged rt log2 cfg s → SpendsOnce rt log2 cfg s a →
      Charged rt log2 cfg (entryStep rt log2 fixed4 cfg s a) :=
    fun _ _ h honce => entryStep_charged h honce
  exact (invariant hstep hstart hrun).covered

/-- Two gates with a sacrifice of three. -/
def sacrificeGate (g : String) (sequence : Int) : PyVal :=
  chainEvent "gate_create" "ana" sequence [("gate_id", .str g),
    ("rules", .dict [("entry_sacrifice", .int 3)])]

/-- Bob wins a market, and gives common reputation to eve. -/
def uprepChain : List PyVal :=
  finalizedMarket [placeEvent "bob" 2 "yes" 50 (.int 40), placeEvent "ana" 3 "no" 50 (.int 10)] ++
    [chainEvent "uprep" "bob" 30 [("target_node_id", .str "eve")], sacrificeGate "g1" 31,
      sacrificeGate "g2" 32]

/-- What `eve` does with five of common reputation. -/
def enterGates (gates : List String) : List EntryAction :=
  gates.map fun g => .enter "eve" g (.finite 1700000040) 40

/-- The state after `eve` enters the gates. -/
def afterEntries (gates : List String) : EntryState :=
  run (entryStep asciiRuntime (fun _ => .finite 0) (fun _ => "5.0000") {}) { chain := uprepChain }
    (enterGates gates)

theorem entries_covered_sample :
    Covered asciiRuntime (fun _ => .finite 0) {} (afterEntries ["g1"]) := by
  apply entries_covered asciiRuntime (fun _ => .finite 0) (fun _ => "5.0000") {} uprepChain
    (enterGates ["g1"]) (numberStamped_of (by decide +kernel))
  refine ⟨⟨by decide, rfl, ?_, by decide +kernel⟩, trivial⟩
  intro gate hgate
  have hmin : okAnd (getGateMeta asciiRuntime "g1" uprepChain) (fun found =>
      found.all fun gate => 0 ≤ gate.minOverallRep) = true := by
    decide +kernel
  rw [hgate] at hmin
  simpa [okAnd] using hmin

/-- A node enters two gates for three each, with a common reputation of five before and after. -/
theorem not_entries_covered :
    acceptedCost asciiRuntime (fun _ => .finite 0) (fun _ => "5.0000") {} "eve" "g1" uprepChain =
        some 3 ∧
      acceptedCost asciiRuntime (fun _ => .finite 0) (fun _ => "5.0000") {} "eve" "g2"
        (afterEntries ["g1"]).chain = some 3 ∧
      ¬ Covered asciiRuntime (fun _ => .finite 0) {} (afterEntries ["g1", "g2"]) := by
  refine ⟨by decide +kernel, by decide +kernel, ?_⟩
  intro h
  obtain ⟨rep, hrep, hle⟩ := h "eve" (by decide +kernel)
  have hfive : computeCommonRep asciiRuntime (fun _ => .finite 0) {} "eve"
      (dicts (afterEntries ["g1", "g2"]).chain) = .ok (.finite 5) := by
    decide +kernel
  rw [hfive] at hrep
  cases hrep
  revert hle
  decide +kernel

end Vincent.Economy
