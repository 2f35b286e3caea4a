-- SUMMARY: Economy events: schemas, canonical selection, identity rotation.
import Vincent.Mesh.Schema
import Vincent.Python.Number

/-!
# Economy events

The economy layer is a family of pure functions over the chain, a list of `dict`s.
They share the configured values, the payload validators, the events of a market, the
snapshot, and the identities that a node rotated into.
-/

namespace Vincent.Economy

open Vincent.Python Vincent.Check Vincent.Mesh

/-- What the functions compute with. -/
structure Env where
  rt : Runtime
  /-- `hashlib.sha256(s.encode("utf-8")).hexdigest()`. -/
  sha256 : String → String
  /-- `unicodedata.normalize("NFC", s)`. -/
  normalizeUtf8 : String → String
  /-- Rounding an integer to a double keeps its sign. -/
  floatOfInt_nonneg : ∀ n q, rt.floatOfInt n = some q → 0 ≤ n → 0 ≤ q

/-- The values of `CONFIG` that a market reads, with the ranges of `CONFIG_SCHEMA`. -/
structure Config where
  minMarketParticipants : Nat := 5
  evidenceFirstBonus : ℚ := 1 / 2
  resolutionSupermajority : ℚ := 3 / 4
  minResolutionStakeTotal : ℚ := 20
  resolutionLoserBurnPct : ℚ := 1 / 50
  dataUnavailableThreshold : ℚ := 33 / 100
  resolutionStalemateBurnPct : ℚ := 1 / 50
  bootstrapMarketCount : Nat := 100
  bootstrapResolutionSupermajority : ℚ := 3 / 4
  bootstrapMinIdentityAgeDays : Nat := 3
  participants_range : 2 ≤ minMarketParticipants ∧ minMarketParticipants ≤ 100 := by
    first | exact Config.std.participants_range | decide
  firstBonus_range : 0 ≤ evidenceFirstBonus ∧ evidenceFirstBonus ≤ 10 := by
    first | exact Config.std.firstBonus_range | decide +kernel
  supermajority_range :
    51 / 100 ≤ resolutionSupermajority ∧ resolutionSupermajority ≤ 95 / 100 := by
    first | exact Config.std.supermajority_range | decide +kernel
  stakeTotal_range :
    5 ≤ minResolutionStakeTotal ∧ minResolutionStakeTotal ≤ 500 := by
    first | exact Config.std.stakeTotal_range | decide +kernel
  loserBurn_range :
    0 ≤ resolutionLoserBurnPct ∧ resolutionLoserBurnPct ≤ 1 / 10 := by
    first | exact Config.std.loserBurn_range | decide +kernel
  dataUnavailable_range :
    1 / 10 ≤ dataUnavailableThreshold ∧ dataUnavailableThreshold ≤ 1 / 2 := by
    first | exact Config.std.dataUnavailable_range | decide +kernel
  stalemateBurn_range :
    0 ≤ resolutionStalemateBurnPct ∧ resolutionStalemateBurnPct ≤ 1 / 10 := by
    first | exact Config.std.stalemateBurn_range | decide +kernel
  bootstrapCount_range : bootstrapMarketCount ≤ 100000 := by
    first | exact Config.std.bootstrapCount_range | decide
  bootstrapSupermajority_range : 51 / 100 ≤ bootstrapResolutionSupermajority ∧
    bootstrapResolutionSupermajority ≤ 95 / 100 := by
    first | exact Config.std.bootstrapSupermajority_range | decide +kernel
  identityAge_range : bootstrapMinIdentityAgeDays ≤ 365 := by
    first | exact Config.std.identityAge_range | decide

/-- The ranges hold of the defaults. -/
def Config.std : Config where
  participants_range := by decide
  firstBonus_range := by decide +kernel
  supermajority_range := by decide +kernel
  stakeTotal_range := by decide +kernel
  loserBurn_range := by decide +kernel
  dataUnavailable_range := by decide +kernel
  stalemateBurn_range := by decide +kernel
  bootstrapCount_range := by decide
  bootstrapSupermajority_range := by decide +kernel
  identityAge_range := by decide

theorem eq_str_iff {v : PyVal} {s : String} : v.eq (.str s) = true ↔ v = .str s := by
  cases v <;> simp [PyVal.eq, PyVal.eqScalar, PyVal.rat?]

/-! ## Payload schemas -/

namespace Schema

def requireFields (p : Dict) : List String → Verdict
  | [] => .ok ()
  | k :: ks => do
    require (Dict.contains p k) (.invalid ("Missing field: " ++ k))
    requireFields p ks

def isNonemptyStr : PyVal → Bool
  | .str s => strip s != ""
  | _ => false

/-- `isinstance(val, (int, float)) and not isinstance(val, bool)`, with `x` the float to compare. -/
def numberAnd (test : PyFloat → Bool) : PyVal → Bool
  | .int n => test (.finite n)
  | .float x => test x
  | _ => false

def isPositiveNumber : PyVal → Bool := numberAnd fun x => (PyFloat.finite 0).lt x

def isNonnegativeNumber : PyVal → Bool := numberAnd fun x => (PyFloat.finite 0).le x

def validatePredictionCreate (p : Dict) : Verdict := do
  requireFields p ["market_id", "market_type", "question", "trigger_date", "creation_bond"]
  require (isNonemptyStr (Dict.get p "market_id")) (.invalid "market_id must be non-empty")
  require ((Dict.get p "market_type").inStrings ["objective", "subjective"])
    (.invalid "market_type must be 'objective' or 'subjective'")
  require (isNonemptyStr (Dict.get p "question")) (.invalid "question must be non-empty")
  require (isPositiveNumber (Dict.get p "trigger_date"))
    (.invalid "trigger_date must be a positive timestamp")
  require (isNonnegativeNumber (Dict.get p "creation_bond"))
    (.invalid "creation_bond must be a non-negative number")

def validateMarketSnapshot (p : Dict) : Verdict := do
  requireFields p ["market_id", "frozen_participant_count", "frozen_total_stake",
    "frozen_predictor_ids", "frozen_probability_state", "frozen_at"]
  match Dict.get p "frozen_participant_count" with
  | .int n => require (0 ≤ n) (.invalid "frozen_participant_count must be >= 0")
  | _ => .error (.invalid "frozen_participant_count must be int")
  require (isNonnegativeNumber (Dict.get p "frozen_total_stake"))
    (.invalid "frozen_total_stake must be a non-negative number")
  match Dict.get p "frozen_predictor_ids" with
  | .list xs =>
    require (xs.all isNonemptyStr)
      (.invalid "frozen_predictor_ids entries must be non-empty strings")
  | _ => .error (.invalid "frozen_predictor_ids must be a list")
  match Dict.get p "frozen_probability_state" with
  | .dict state =>
    require (Dict.contains state "yes" ∧ Dict.contains state "no")
      (.invalid "frozen_probability_state must be {yes, no}")
  | _ => .error (.invalid "frozen_probability_state must be {yes, no}")
  require (isPositiveNumber (Dict.get p "frozen_at"))
    (.invalid "frozen_at must be a positive timestamp")

def validateEvidenceSubmit (p : Dict) : Verdict := do
  requireFields p ["market_id", "claimed_outcome", "evidence_hashes", "source_description",
    "evidence_content_hash", "submission_hash", "bond"]
  require ((Dict.get p "claimed_outcome").inStrings ["yes", "no"])
    (.invalid "claimed_outcome must be 'yes' or 'no'")
  match Dict.get p "evidence_hashes" with
  | .list (x :: xs) =>
    require ((x :: xs).all isNonemptyStr)
      (.invalid "evidence_hashes entries must be non-empty strings")
  | _ => .error (.invalid "evidence_hashes must be a non-empty list")
  match Dict.get p "source_description" with
  | .str _ => pure ()
  | _ => .error (.invalid "source_description must be a string")
  require (isNonemptyStr (Dict.get p "evidence_content_hash"))
    (.invalid "evidence_content_hash must be non-empty")
  require (isNonemptyStr (Dict.get p "submission_hash"))
    (.invalid "submission_hash must be non-empty")
  require (isNonnegativeNumber (Dict.get p "bond")) (.invalid "bond must be a non-negative number")

def validateResolutionStake (p : Dict) : Verdict := do
  requireFields p ["market_id", "side", "amount", "rep_type"]
  require ((Dict.get p "side").inStrings ["yes", "no", "data_unavailable"])
    (.invalid "side must be 'yes' | 'no' | 'data_unavailable'")
  require (isPositiveNumber (Dict.get p "amount")) (.invalid "amount must be positive")
  require ((Dict.get p "rep_type").inStrings ["oracle", "common"])
    (.invalid "rep_type must be 'oracle' or 'common'")

def validateBootstrapResolutionVote (p : Dict) : Verdict := do
  requireFields p ["market_id", "side", "pow_nonce"]
  require ((Dict.get p "side").inStrings ["yes", "no"]) (.invalid "side must be 'yes' or 'no'")
  match Dict.get p "pow_nonce" with
  | .int n => require (0 ≤ n) (.invalid "pow_nonce must be a non-negative integer")
  | _ => .error (.invalid "pow_nonce must be a non-negative integer")

def validateIdentityRotate (p : Dict) : Verdict :=
  requireFields p ["old_node_id", "old_public_key", "old_public_key_algo", "new_public_key",
    "new_public_key_algo", "old_signature"]

/-- `validate_infonet_event_payload` on the types that a resolution reads, and `rest` on the
others. -/
def validateInfonetEventPayload (rest : String → Dict → Verdict) (eventType : String)
    (p : Dict) : Verdict :=
  match eventType with
  | "prediction_create" => validatePredictionCreate p
  | "market_snapshot" => validateMarketSnapshot p
  | "evidence_submit" => validateEvidenceSubmit p
  | "resolution_stake" => validateResolutionStake p
  | "bootstrap_resolution_vote" => validateBootstrapResolutionVote p
  | "identity_rotate" => validateIdentityRotate p
  | _ => rest eventType p

end Schema

/-! ## Selection -/

/-- `payload`, which every module defines for itself. -/
def payload (event : Dict) : Dict :=
  match Dict.get event "payload" with
  | .dict p => p
  | _ => []

/-- `event.get("event_type") == t`. -/
def hasType (t : String) (event : Dict) : Bool := (Dict.get event "event_type").eq (.str t)

theorem hasType_iff {t : String} {event : Dict} :
    hasType t event = true ↔ Dict.get event "event_type" = .str t := by
  unfold hasType
  cases Dict.get event "event_type" <;> simp [PyVal.eq, PyVal.eqScalar, PyVal.rat?]

theorem hasType_ne {t t' : String} {event : Dict} (h : hasType t event = true) (hne : t ≠ t') :
    hasType t' event = false := by
  cases h' : hasType t' event with
  | false => rfl
  | true =>
    rw [hasType_iff] at h h'
    rw [h] at h'
    cases h'
    exact absurd rfl hne

/-- `payload(event).get("market_id") == m`. -/
def forMarket (m : String) (event : Dict) : Bool :=
  (Dict.get (payload event) "market_id").eq (.str m)

/-- `[e for e in chain if isinstance(e, dict)]`. -/
def dicts (chain : List PyVal) : List Dict :=
  chain.filterMap fun
    | .dict e => some e
    | _ => none

/-- `market_id`, which reads a missing id as the empty text. -/
def marketId (rt : Runtime) (event : Dict) : String :=
  ((Dict.get (payload event) "market_id").or (.str "")).toStr rt

def finiteFloat (rt : Runtime) (v : PyVal) : Option ℚ :=
  match pyFloat rt v with
  | .ok x => x.rat?
  | .error _ => none

def safeInt (rt : Runtime) (v : PyVal) : Option Int := (pyInt rt v).toOption

def hasValidOrdering (rt : Runtime) (event : Dict) : Bool :=
  (finiteFloat rt (Dict.get event "timestamp")).isSome &&
    (safeInt rt (Dict.get event "sequence")).isSome

def eventsForMarket (rt : Runtime) (m : String) (chain : List Dict) : List Dict :=
  chain.filter fun event => marketId rt event = m

def firstAuthoritativeEvent (events : List Dict) (eventType : String) : Option Dict :=
  events.find? (hasType eventType)

/-- `find_snapshot`: the payload of the first snapshot of the market. A first snapshot
    without usable ordering metadata raises. -/
def findSnapshot (rt : Runtime) (m : String) (chain : List Dict) :
    Except String (Option Dict) :=
  match firstAuthoritativeEvent (eventsForMarket rt m chain) "market_snapshot" with
  | none => .ok none
  | some snapshot =>
    if hasValidOrdering rt snapshot then .ok (some (payload snapshot))
    else .error "InvalidAuthoritativeSnapshot"

/-- `float(event.get("timestamp") or 0.0)`. -/
def timestamp (rt : Runtime) (event : Dict) : Except String PyFloat :=
  pyFloat rt ((Dict.get event "timestamp").or (.float (.finite 0)))

/-- `int(event.get("sequence") or 0)`. -/
def sequence (rt : Runtime) (event : Dict) : Except String Int :=
  pyInt rt ((Dict.get event "sequence").or (.int 0))

/-- The order of a sort by `(timestamp, sequence)`. -/
def chainOrder (a b : PyFloat × Int) : Bool := a.1.lt b.1 || (!b.1.lt a.1 && a.2 ≤ b.2)

/-! ## Identity rotation -/

/-- The rotations of the chain, from the old identity to the one that signed. -/
def rotations (chain : List Dict) : List (String × String) :=
  chain.filterMap fun event =>
    if hasType "identity_rotate" event then
      match Dict.get (payload event) "old_node_id", Dict.get event "node_id" with
      | .str old, .str new =>
        if old = "" ∨ new = "" ∨ old = new then none else some (old, new)
      | _, _ => none
    else none

/-- `forward.get(node_id, set())`. -/
def forward (edges : List (String × String)) (nodeId : String) : List String :=
  ((edges.filter fun edge => edge.1 = nodeId).map Prod.snd).dedup

/-- The loop of `rotation_descendants`. A visit takes the edges of a node out of reach, so
    `fuel` need not exceed the stack and the edges of the nodes not yet visited. -/
def descendantsLoop (edges : List (String × String)) :
    Nat → List String → List String → List String
  | 0, out, _ => out
  | _, out, [] => out
  | fuel + 1, out, cur :: stack =>
    if cur ∈ out then descendantsLoop edges fuel out stack
    else descendantsLoop edges fuel (cur :: out)
      ((forward edges cur).filter (fun nxt => nxt ∉ cur :: out) ++ stack)

def rotationDescendants (nodeId : String) (chain : List Dict) : List String :=
  let edges := rotations chain
  let stack := forward edges nodeId
  descendantsLoop edges (stack.length + edges.length) [] stack

/-- `excluded_predictor_ids`: the frozen predictors and what they rotated into. -/
def excludedPredictorIds (rt : Runtime) (m : String) (chain : List Dict) :
    Except String (List String) := do
  match ← findSnapshot rt m chain with
  | none => return []
  | some snapshot =>
    match (Dict.get snapshot "frozen_predictor_ids").or (.list []) with
    | .list frozen =>
      let base := frozen.filterMap fun
        | .str s => if s = "" then none else some s
        | _ => none
      return base ++ base.flatMap fun original => rotationDescendants original chain
    | _ => return []

/-! ## Valid chains -/

/-- Every event of the chain passes the schema of its type. `rest` validates the types that
    the resolution of a market does not read. -/
def SchemaValid (rest : String → Dict → Verdict) (chain : List PyVal) : Prop :=
  ∀ v ∈ chain, ∃ e t, v = .dict e ∧ Dict.get e "event_type" = .str t ∧
    Schema.validateInfonetEventPayload rest t (payload e) = .ok ()

/-- An event whose type and payload pass the schema. -/
def passes (rest : String → Dict → Verdict) : PyVal → Bool
  | .dict e =>
    match Dict.get e "event_type" with
    | .str t => okAnd (Schema.validateInfonetEventPayload rest t (payload e)) fun _ => true
    | _ => false
  | _ => false

theorem schemaValid_of_passes {rest : String → Dict → Verdict} {chain : List PyVal}
    (h : chain.all (passes rest) = true) : SchemaValid rest chain := by
  intro v hv
  have hpass := List.all_eq_true.mp h v hv
  cases v with
  | dict e =>
    cases htype : Dict.get e "event_type" with
    | str t =>
      simp only [passes, htype] at hpass
      obtain ⟨⟨⟩, hok, -⟩ := okAnd_iff.mp hpass
      exact ⟨e, t, rfl, htype, hok⟩
    | none | bool | int | float | list | dict => simp [passes, htype] at hpass
  | none | bool | int | float | str | list => cases hpass

/-- An event of a chain to run examples on. -/
def chainEvent (eventType nodeId : String) (sequence : Int) (p : Dict) : PyVal :=
  .dict [("event_type", .str eventType), ("node_id", .str nodeId),
    ("timestamp", .int (1700000000 + sequence)), ("sequence", .int sequence), ("payload", .dict p)]

end Vincent.Economy
