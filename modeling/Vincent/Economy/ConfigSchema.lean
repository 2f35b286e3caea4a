-- SUMMARY: The governable configuration: its schema, its invariants and their validators.
import Vincent.Economy.Resolution

/-!
# The governable configuration

`CONFIG_SCHEMA` bounds each key, and `CROSS_FIELD_INVARIANTS` order some pairs of
keys. The validators compare by negation: a value passes a bound if it is not
beyond it. A NaN is beyond nothing.
-/

namespace Vincent.Economy

open Vincent.Python Vincent.Check

/-! ## Values -/

inductive ValueType where
  | bool
  | int
  | float
  | str
deriving DecidableEq, Repr

def ValueType.name : ValueType → String
  | .bool => "bool"
  | .int => "int"
  | .float => "float"
  | .str => "str"

/-- `isinstance` with the types of `_SCHEMA_TYPES`, where a `bool` is no number. -/
def ValueType.matches : ValueType → PyVal → Bool
  | .bool, .bool _ => true
  | .int, .int _ => true
  | .float, .int _ => true
  | .float, .float _ => true
  | .str, .str _ => true
  | _, _ => false

/-- `type(value).__name__`. -/
def typeName : PyVal → String
  | .none => "NoneType"
  | .bool _ => "bool"
  | .int _ => "int"
  | .float _ => "float"
  | .str _ => "str"
  | .list _ => "list"
  | .dict _ => "dict"

/-- The number that a comparison with a number sees. Integers compare exactly. -/
def num? : PyVal → Option PyFloat
  | .bool b => some (.finite (if b then 1 else 0))
  | .int n => some (.finite n)
  | .float x => some x
  | _ => none

/-- How values are written in messages. -/
structure Texts where
  rt : Runtime
  repr : PyVal → String
  reprTuple : List PyVal → String

/-- What the executor raises. -/
inductive PetitionError where
  | invalidPetition (reason : String)
  | typeError
deriving DecidableEq, Repr

/-! ## Schema -/

structure SchemaEntry where
  type : ValueType
  min : Option ℚ := none
  max : Option ℚ := none
  enum : Option (List PyVal) := none

def ints (min max : ℚ) : SchemaEntry := { type := .int, min := some min, max := some max }

def floats (min max : ℚ) : SchemaEntry := { type := .float, min := some min, max := some max }

def bools : SchemaEntry := { type := .bool }

def oneOf (type : ValueType) (options : List PyVal) : SchemaEntry := { type, enum := some options }

def configSchema : List (String × SchemaEntry) := [
  ("vote_decay_days", ints 7 365),
  ("min_rep_to_vote", ints 0 100),
  ("min_rep_to_create_gate", ints 1 1000),
  ("bootstrap_threshold", ints 100 100000),
  ("weekly_vote_base", ints 1 100),
  ("weekly_vote_per_oracle", ints 1 1000),
  ("daily_vote_limit_per_target", ints 1 10),
  ("oracle_min_earned", floats (1 / 1000) 1),
  ("farming_soft_threshold", floats (1 / 10) (19 / 20)),
  ("farming_hard_threshold", floats (1 / 5) (99 / 100)),
  ("farming_easy_bet_cutoff", floats (1 / 2) (99 / 100)),
  ("subjective_oracle_rep_mint", bools),
  ("min_market_participants", ints 2 100),
  ("min_market_total_stake", floats 1 1000),
  ("evidence_window_hours", ints 12 168),
  ("resolution_window_hours", ints 24 336),
  ("evidence_bond_cost", floats (1 / 2) 50),
  ("evidence_first_bonus", floats 0 10),
  ("resolution_supermajority", floats (51 / 100) (19 / 20)),
  ("min_resolution_stake_total", floats 5 500),
  ("resolution_loser_burn_pct", floats 0 (1 / 10)),
  ("data_unavailable_threshold", floats (1 / 10) (1 / 2)),
  ("resolution_stalemate_burn_pct", floats 0 (1 / 10)),
  ("governance_decay_days", ints 7 365),
  ("governance_decay_factor", floats (1 / 10) (99 / 100)),
  ("max_future_event_drift_sec", ints 30 3600),
  ("phase_boundary_stale_reject", bools),
  ("rotation_blocked_during_stakes", bools),
  ("vcs_min_weight", floats 0 1),
  ("clustering_min_weight", floats 0 1),
  ("temporal_burst_window_sec", ints 30 3600),
  ("temporal_burst_min_upreps", ints 2 100),
  ("progressive_penalty_base", floats (1 / 10) 100),
  ("common_rep_weight_factor", floats 0 1),
  ("progressive_penalty_threshold", floats 0 1),
  ("gate_ratification_rep", ints 1 10000),
  ("gate_lock_cost_per_member", ints 1 1000),
  ("gate_lock_min_members", ints 2 1000),
  ("gate_creation_rate_limit", ints 1 100),
  ("truth_stake_min_days", ints 1 30),
  ("truth_stake_max_days", ints 1 90),
  ("truth_stake_grace_hours", ints 1 168),
  ("truth_stake_max_extensions", ints 0 10),
  ("truth_stake_tie_burn_pct", floats 0 (1 / 2)),
  ("truth_stake_self_stake", bools),
  ("dispute_window_days", ints 1 30),
  ("dispute_common_rep_stakeable", bools),
  ("monthly_mint_amount", ints 1 1000000000),
  ("ubi_share_pct", floats 0 1),
  ("oracle_dividend_pct", floats 0 1),
  ("citizenship_sacrifice_cost", ints 1 1000),
  ("year1_max_coins_per_node", ints 1 1000000000),
  ("petition_filing_cost", ints 1 100),
  ("petition_signature_threshold", floats (1 / 20) (1 / 2)),
  ("petition_signature_window_days", ints 1 60),
  ("petition_vote_window_days", ints 1 30),
  ("petition_supermajority", floats (51 / 100) (19 / 20)),
  ("petition_quorum", floats (1 / 10) (4 / 5)),
  ("challenge_filing_cost", ints 1 200),
  ("challenge_window_hours", ints 12 168),
  ("upgrade_filing_cost", ints 1 200),
  ("upgrade_signature_threshold", floats (1 / 20) (1 / 2)),
  ("upgrade_signature_window_days", ints 1 60),
  ("upgrade_vote_window_days", ints 1 60),
  ("upgrade_supermajority", floats (51 / 100) (99 / 100)),
  ("upgrade_quorum", floats (1 / 10) (19 / 20)),
  ("upgrade_activation_threshold", floats (51 / 100) (99 / 100)),
  ("upgrade_activation_window_days", ints 1 90),
  ("upgrade_challenge_window_hours", ints 12 168),
  ("gate_suspend_filing_cost", ints 1 200),
  ("gate_shutdown_filing_cost", ints 1 200),
  ("gate_suspend_supermajority", floats (51 / 100) (19 / 20)),
  ("gate_suspend_locked_supermajority", floats (51 / 100) (19 / 20)),
  ("gate_shutdown_supermajority", floats (51 / 100) (99 / 100)),
  ("gate_shutdown_locked_supermajority", floats (51 / 100) (99 / 100)),
  ("gate_shutdown_quorum", floats (1 / 10) (4 / 5)),
  ("gate_suspend_duration_days", ints 1 365),
  ("gate_shutdown_execution_delay_days", ints 1 90),
  ("gate_shutdown_cooldown_days", ints 7 365),
  ("gate_shutdown_fail_penalty_days", ints 0 365),
  ("gate_shutdown_appeal_filing_cost", ints 1 200),
  ("gate_shutdown_appeal_window_hours", ints 12 168),
  ("gate_shutdown_appeal_vote_window_days", ints 1 30),
  ("gate_shutdown_appeal_supermajority", floats (51 / 100) (19 / 20)),
  ("gate_shutdown_appeal_locked_supermajority", floats (51 / 100) (19 / 20)),
  ("gate_shutdown_appeal_quorum", floats (1 / 10) (4 / 5)),
  ("market_creation_bond", ints 0 1000),
  ("market_creation_bond_return_threshold", ints 1 1000),
  ("bootstrap_market_count", ints 0 100000),
  ("bootstrap_evidence_bond_cost", floats 0 50),
  ("bootstrap_resolution_mode", oneOf .str [.str "eligible_node_one_vote"]),
  ("bootstrap_resolution_supermajority", floats (51 / 100) (19 / 20)),
  ("bootstrap_min_identity_age_days", ints 0 365),
  ("bootstrap_pow_algorithm", oneOf .str [.str "argon2id"]),
  ("bootstrap_pow_argon2id_version", oneOf .int [.int 19]),
  ("bootstrap_pow_argon2id_m", ints 8192 1048576),
  ("bootstrap_pow_argon2id_t", ints 1 100),
  ("bootstrap_pow_argon2id_p", ints 1 16),
  ("bootstrap_pow_argon2id_output_len", oneOf .int [.int 32]),
  ("bootstrap_pow_difficulty", ints 1 64),
  ("ramp_staked_resolution_threshold", ints 1 10000000),
  ("ramp_petitions_threshold", ints 1 10000000),
  ("ramp_upgrade_threshold", ints 1 10000000),
  ("ramp_commoncoin_threshold", ints 1 10000000)]

/-- `CROSS_FIELD_INVARIANTS`, all of which say that the left value is greater. -/
def crossFieldInvariants : List (String × String) := [
  ("petition_supermajority", "petition_quorum"),
  ("resolution_supermajority", "data_unavailable_threshold"),
  ("upgrade_supermajority", "upgrade_quorum"),
  ("gate_shutdown_supermajority", "gate_shutdown_quorum"),
  ("gate_suspend_supermajority", "gate_shutdown_quorum"),
  ("farming_hard_threshold", "farming_soft_threshold"),
  ("truth_stake_max_days", "truth_stake_min_days"),
  ("upgrade_filing_cost", "petition_filing_cost"),
  ("ramp_petitions_threshold", "ramp_staked_resolution_threshold"),
  ("ramp_upgrade_threshold", "ramp_petitions_threshold"),
  ("ramp_commoncoin_threshold", "ramp_upgrade_threshold")]

/-- The keys of `IMMUTABLE_PRINCIPLES`. -/
def immutablePrinciples : List String :=
  ["oracle_rep_source", "hashchain_append_only", "audit_public", "identity_permissionless",
    "signature_required", "redemption_path_exists", "coin_governance_firewall", "protocol_version"]

def baselineConfig : Dict := [
  ("vote_decay_days", .int 90),
  ("min_rep_to_vote", .int 3),
  ("min_rep_to_create_gate", .int 10),
  ("bootstrap_threshold", .int 1000),
  ("weekly_vote_base", .int 5),
  ("weekly_vote_per_oracle", .int 10),
  ("daily_vote_limit_per_target", .int 1),
  ("oracle_min_earned", .float (.finite (1 / 100))),
  ("farming_soft_threshold", .float (.finite (3 / 5))),
  ("farming_hard_threshold", .float (.finite (4 / 5))),
  ("farming_easy_bet_cutoff", .float (.finite (4 / 5))),
  ("subjective_oracle_rep_mint", .bool false),
  ("min_market_participants", .int 5),
  ("min_market_total_stake", .float (.finite 10)),
  ("evidence_window_hours", .int 48),
  ("resolution_window_hours", .int 72),
  ("evidence_bond_cost", .float (.finite 2)),
  ("evidence_first_bonus", .float (.finite (1 / 2))),
  ("resolution_supermajority", .float (.finite (3 / 4))),
  ("min_resolution_stake_total", .float (.finite 20)),
  ("resolution_loser_burn_pct", .float (.finite (1 / 50))),
  ("data_unavailable_threshold", .float (.finite (33 / 100))),
  ("resolution_stalemate_burn_pct", .float (.finite (1 / 50))),
  ("governance_decay_days", .int 90),
  ("governance_decay_factor", .float (.finite (1 / 2))),
  ("max_future_event_drift_sec", .int 300),
  ("phase_boundary_stale_reject", .bool true),
  ("rotation_blocked_during_stakes", .bool true),
  ("vcs_min_weight", .float (.finite (1 / 10))),
  ("clustering_min_weight", .float (.finite (1 / 5))),
  ("temporal_burst_window_sec", .int 300),
  ("temporal_burst_min_upreps", .int 5),
  ("progressive_penalty_base", .float (.finite 1)),
  ("common_rep_weight_factor", .float (.finite (1 / 10))),
  ("progressive_penalty_threshold", .float (.finite 0)),
  ("gate_ratification_rep", .int 50),
  ("gate_lock_cost_per_member", .int 10),
  ("gate_lock_min_members", .int 5),
  ("gate_creation_rate_limit", .int 5),
  ("truth_stake_min_days", .int 1),
  ("truth_stake_max_days", .int 7),
  ("truth_stake_grace_hours", .int 24),
  ("truth_stake_max_extensions", .int 3),
  ("truth_stake_tie_burn_pct", .float (.finite (1 / 5))),
  ("truth_stake_self_stake", .bool false),
  ("dispute_window_days", .int 7),
  ("dispute_common_rep_stakeable", .bool true),
  ("monthly_mint_amount", .int 100000),
  ("ubi_share_pct", .float (.finite (1 / 2))),
  ("oracle_dividend_pct", .float (.finite (1 / 2))),
  ("citizenship_sacrifice_cost", .int 10),
  ("year1_max_coins_per_node", .int 10000),
  ("petition_filing_cost", .int 15),
  ("petition_signature_threshold", .float (.finite (1 / 4))),
  ("petition_signature_window_days", .int 14),
  ("petition_vote_window_days", .int 7),
  ("petition_supermajority", .float (.finite (67 / 100))),
  ("petition_quorum", .float (.finite (3 / 10))),
  ("challenge_filing_cost", .int 25),
  ("challenge_window_hours", .int 48),
  ("upgrade_filing_cost", .int 25),
  ("upgrade_signature_threshold", .float (.finite (1 / 4))),
  ("upgrade_signature_window_days", .int 14),
  ("upgrade_vote_window_days", .int 14),
  ("upgrade_supermajority", .float (.finite (4 / 5))),
  ("upgrade_quorum", .float (.finite (2 / 5))),
  ("upgrade_activation_threshold", .float (.finite (67 / 100))),
  ("upgrade_activation_window_days", .int 30),
  ("upgrade_challenge_window_hours", .int 48),
  ("gate_suspend_filing_cost", .int 15),
  ("gate_shutdown_filing_cost", .int 25),
  ("gate_suspend_supermajority", .float (.finite (67 / 100))),
  ("gate_suspend_locked_supermajority", .float (.finite (3 / 4))),
  ("gate_shutdown_supermajority", .float (.finite (3 / 4))),
  ("gate_shutdown_locked_supermajority", .float (.finite (4 / 5))),
  ("gate_shutdown_quorum", .float (.finite (3 / 10))),
  ("gate_suspend_duration_days", .int 30),
  ("gate_shutdown_execution_delay_days", .int 7),
  ("gate_shutdown_cooldown_days", .int 90),
  ("gate_shutdown_fail_penalty_days", .int 30),
  ("gate_shutdown_appeal_filing_cost", .int 20),
  ("gate_shutdown_appeal_window_hours", .int 48),
  ("gate_shutdown_appeal_vote_window_days", .int 7),
  ("gate_shutdown_appeal_supermajority", .float (.finite (67 / 100))),
  ("gate_shutdown_appeal_locked_supermajority", .float (.finite (3 / 4))),
  ("gate_shutdown_appeal_quorum", .float (.finite (3 / 10))),
  ("market_creation_bond", .int 3),
  ("market_creation_bond_return_threshold", .int 5),
  ("bootstrap_market_count", .int 100),
  ("bootstrap_evidence_bond_cost", .int 0),
  ("bootstrap_resolution_mode", .str "eligible_node_one_vote"),
  ("bootstrap_resolution_supermajority", .float (.finite (3 / 4))),
  ("bootstrap_min_identity_age_days", .int 3),
  ("bootstrap_pow_algorithm", .str "argon2id"),
  ("bootstrap_pow_argon2id_version", .int 19),
  ("bootstrap_pow_argon2id_m", .int 65536),
  ("bootstrap_pow_argon2id_t", .int 3),
  ("bootstrap_pow_argon2id_p", .int 1),
  ("bootstrap_pow_argon2id_output_len", .int 32),
  ("bootstrap_pow_difficulty", .int 16),
  ("ramp_staked_resolution_threshold", .int 1000),
  ("ramp_petitions_threshold", .int 2000),
  ("ramp_upgrade_threshold", .int 5000),
  ("ramp_commoncoin_threshold", .int 10000)]

/-! ## Validators -/

/-- A bound as a message shows it. -/
def SchemaEntry.boundText (t : Texts) (e : SchemaEntry) (bound : ℚ) : String :=
  if e.type = .int then toString bound.num else t.rt.strFloat (.finite bound)

/-- The value is below the bound. -/
def below (v : PyVal) (bound : ℚ) : Bool := (num? v).any fun x => x.lt (.finite bound)

/-- The value is above the bound. -/
def above (v : PyVal) (bound : ℚ) : Bool := (num? v).any fun x => (PyFloat.finite bound).lt x

def validatePetitionValue (t : Texts) (key : String) (value : PyVal) :
    Except PetitionError Unit := do
  match configSchema.lookup key with
  | none => throw (.invalidPetition ("No schema for key: " ++ key))
  | some schema =>
    require (schema.type.matches value) (.invalidPetition ("Type mismatch for " ++ key ++
      ": expected " ++ schema.type.name ++ ", got " ++ typeName value))
    require (¬ schema.min.any fun bound => below value bound) (.invalidPetition (key ++ "=" ++
      value.toStr t.rt ++ " below minimum " ++ schema.boundText t (schema.min.getD 0)))
    require (¬ schema.max.any fun bound => above value bound) (.invalidPetition (key ++ "=" ++
      value.toStr t.rt ++ " above maximum " ++ schema.boundText t (schema.max.getD 0)))
    require (schema.enum.all fun options => options.any fun option => value.eq option)
      (.invalidPetition (key ++ "=" ++ value.toStr t.rt ++ " not in allowed values " ++
        t.reprTuple (schema.enum.getD [])))

/-- One entry of `CROSS_FIELD_INVARIANTS`. -/
def checkInvariant (t : Texts) (config : Dict) (left right : String) :
    Except PetitionError Unit := do
  let missing := fun key => PetitionError.invalidPetition
    ("Cross-field invariant references missing key: " ++ key)
  require (Dict.contains config left) (missing left)
  require (Dict.contains config right) (missing right)
  let leftVal := Dict.get config left
  let rightVal := Dict.get config right
  match num? leftVal, num? rightVal with
  | some x, some y =>
    require (y.lt x) (.invalidPetition ("Cross-field invariant violated: " ++ left ++ "=" ++
      leftVal.toStr t.rt ++ " must be > " ++ right ++ "=" ++ rightVal.toStr t.rt))
  | _, _ => throw .typeError

def validateCrossFieldInvariants (t : Texts) (config : Dict) : Except PetitionError Unit :=
  forM crossFieldInvariants fun inv => checkInvariant t config inv.1 inv.2

/-! ## Valid configurations -/

/-- The value is of the type, within the bounds, and among the options. -/
structure SchemaEntry.Admits (e : SchemaEntry) (v : PyVal) : Prop where
  type : e.type.matches v = true
  min : ∀ bound, e.min = some bound → ∃ x, num? v = some x ∧ (PyFloat.finite bound).le x = true
  max : ∀ bound, e.max = some bound → ∃ x, num? v = some x ∧ x.le (.finite bound) = true
  enum : ∀ options, e.enum = some options → ∃ option ∈ options, v.eq option = true

/-- The invariant between two keys holds. -/
def Ordered (config : Dict) (inv : String × String) : Prop :=
  ∃ x y, num? (Dict.get config inv.1) = some x ∧ num? (Dict.get config inv.2) = some y ∧
    y.lt x = true

/-- A configuration that satisfies `CONFIG_SCHEMA` and `CROSS_FIELD_INVARIANTS`. -/
structure ValidConfig (config : Dict) : Prop where
  distinct : (config.map Prod.fst).Nodup
  complete : ∀ k, k ∈ config.map Prod.fst ↔ k ∈ configSchema.map Prod.fst
  admits : ∀ k v e, config.lookup k = some v → configSchema.lookup k = some e → e.Admits v
  ordered : ∀ inv ∈ crossFieldInvariants, Ordered config inv

/-! ## What the validators establish -/

section

variable {t : Texts} {key k : String} {v : PyVal} {e : SchemaEntry} {config : Dict}

/-- An error of a chain of checks that all raise `InvalidPetition` is one. -/
theorem require_error {c : Prop} [Decidable c] {reason : String} {err : PetitionError}
    (h : require c (.invalidPetition reason) = .error err) : err ≠ .typeError := by
  unfold require at h
  split at h
  · cases h
  · cases h
    intro h
    cases h

theorem validatePetitionValue_eq_ok (hkey : configSchema.lookup key = some e) :
    validatePetitionValue t key v = .ok () ↔ e.type.matches v = true ∧
      (¬ e.min.any (fun bound => below v bound) = true) ∧
      (¬ e.max.any (fun bound => above v bound) = true) ∧
      e.enum.all (fun options => options.any fun option => v.eq option) = true := by
  unfold validatePetitionValue
  simp only [hkey, ↓check_bind_eq_ok, require_eq_ok]

theorem exists_schema_of_validate (h : validatePetitionValue t key v = .ok ()) :
    ∃ e, configSchema.lookup key = some e := by
  unfold validatePetitionValue at h
  cases hkey : configSchema.lookup key with
  | none => simp [hkey, throw, throwThe, MonadExceptOf.throw] at h
  | some e => exact ⟨e, rfl⟩

theorem validatePetitionValue_error {err : PetitionError}
    (h : validatePetitionValue t key v = .error err) : err ≠ .typeError := by
  unfold validatePetitionValue at h
  cases hkey : configSchema.lookup key with
  | none =>
    simp only [hkey] at h
    cases h
    intro h
    cases h
  | some e =>
    simp only [hkey] at h
    rcases Check.bind_eq_error.mp h with h | ⟨_, -, h⟩
    · exact require_error h
    · rcases Check.bind_eq_error.mp h with h | ⟨_, -, h⟩
      · exact require_error h
      · rcases Check.bind_eq_error.mp h with h | ⟨_, -, h⟩
        · exact require_error h
        · exact require_error h

theorem le_of_not_below {x : PyFloat} {bound : ℚ} (hx : x ≠ .nan)
    (h : ¬ x.lt (.finite bound) = true) : (PyFloat.finite bound).le x = true := by
  simp [PyFloat.le, hx, h]

theorem le_of_not_above {x : PyFloat} {bound : ℚ} (hx : x ≠ .nan)
    (h : ¬ (PyFloat.finite bound).lt x = true) : x.le (.finite bound) = true := by
  simp [PyFloat.le, hx, h]

/-- The schema bounds numbers only, bounds every float, and lets every flag be set. -/
theorem configSchema_bounds : ∀ p ∈ configSchema,
    (p.2.min.isSome ∨ p.2.max.isSome → p.2.type = .int ∨ p.2.type = .float) ∧
      (p.2.type = .float → p.2.min.isSome) ∧ (p.2.type = .bool → p.2.enum.isNone) := by
  decide +kernel

/-- The cross-field invariants order numbers. -/
theorem crossField_numeric : ∀ inv ∈ crossFieldInvariants, ∀ key ∈ [inv.1, inv.2],
    ∃ e, configSchema.lookup key = some e ∧ (e.type = .int ∨ e.type = .float) := by
  have hall : ∀ inv ∈ crossFieldInvariants, ∀ key ∈ [inv.1, inv.2],
      (configSchema.lookup key).any (fun e => e.type = .int ∨ e.type = .float) = true := by
    decide +kernel
  intro inv hinv key hkey
  have hnumeric := hall inv hinv key hkey
  cases he : configSchema.lookup key with
  | none => rw [he] at hnumeric; cases hnumeric
  | some e => exact ⟨e, rfl, by simpa [he] using hnumeric⟩

theorem mem_of_lookup {ν : Type} {l : List (String × ν)} {x : ν} (h : l.lookup k = some x) :
    (k, x) ∈ l := by
  obtain ⟨l₁, l₂, rfl, -⟩ := List.lookup_eq_some_iff.mp h
  simp

theorem num?_of_matches (htype : e.type = .int ∨ e.type = .float) (h : e.type.matches v = true) :
    ∃ x, num? v = some x := by
  rcases htype with htype | htype <;> rw [htype] at h <;> cases v <;>
    first | exact ⟨_, rfl⟩ | cases h

/-- A value that passes is admitted, unless it is a NaN. -/
theorem admits_of_validate (hkey : configSchema.lookup key = some e)
    (h : validatePetitionValue t key v = .ok ()) (hnan : v ≠ .float .nan) : e.Admits v := by
  obtain ⟨htype, hmin, hmax, henum⟩ := (validatePetitionValue_eq_ok hkey).mp h
  have hbounds := (configSchema_bounds _ (mem_of_lookup hkey)).1
  have hnum : e.min.isSome ∨ e.max.isSome → ∃ x, num? v = some x ∧ x ≠ .nan := by
    intro hbounded
    obtain ⟨x, hx⟩ := num?_of_matches (hbounds hbounded) htype
    refine ⟨x, hx, ?_⟩
    rintro rfl
    cases v with
    | float y =>
      cases hx
      exact hnan rfl
    | bool | int => cases hx
    | none | str | list | dict => cases hx
  refine ⟨htype, fun bound hbound => ?_, fun bound hbound => ?_, fun options hoptions => ?_⟩
  · obtain ⟨x, hx, hxnan⟩ := hnum (Or.inl (by rw [hbound]; rfl))
    refine ⟨x, hx, le_of_not_below hxnan ?_⟩
    simpa [hbound, below, hx] using hmin
  · obtain ⟨x, hx, hxnan⟩ := hnum (Or.inr (by rw [hbound]; rfl))
    refine ⟨x, hx, le_of_not_above hxnan ?_⟩
    simpa [hbound, above, hx] using hmax
  · simpa [hoptions] using henum

/-- The schema admits no NaN. -/
theorem not_admits_nan (hkey : configSchema.lookup key = some e) : ¬ e.Admits (.float .nan) := by
  intro h
  have htype : e.type = .float := by
    have hmatches := h.type
    cases htype : e.type with
    | float => rfl
    | bool | int | str => rw [htype] at hmatches; cases hmatches
  obtain ⟨bound, hbound⟩ := Option.isSome_iff_exists.mp
    ((configSchema_bounds _ (mem_of_lookup hkey)).2.1 htype)
  obtain ⟨x, hx, hle⟩ := h.min bound hbound
  cases hx
  simp [PyFloat.le] at hle

theorem admits_bool (hkey : configSchema.lookup key = some e) (htype : e.type = .bool) (b : Bool) :
    e.Admits (.bool b) := by
  obtain ⟨hnum, -, henum⟩ := configSchema_bounds _ (mem_of_lookup hkey)
  have hunbounded : ¬ (e.min.isSome ∨ e.max.isSome) := by
    intro h
    rcases hnum h with h | h <;> rw [htype] at h <;> cases h
  refine ⟨by rw [htype]; rfl, fun bound hbound => ?_, fun bound hbound => ?_,
    fun options hoptions => ?_⟩
  · exact absurd (Or.inl (by rw [hbound]; rfl)) hunbounded
  · exact absurd (Or.inr (by rw [hbound]; rfl)) hunbounded
  · rw [hoptions] at henum
    cases henum htype

theorem num?_none_of_not_contains (h : Dict.contains config k = false) :
    num? (Dict.get config k) = none := by
  have hnone : config.lookup k = none := by simpa [Dict.contains] using h
  simp [Dict.get, hnone, num?]

theorem checkInvariant_eq_ok {left right : String} :
    checkInvariant t config left right = .ok () ↔ Ordered config (left, right) := by
  unfold checkInvariant Ordered
  simp only [↓check_bind_eq_ok, require_eq_ok]
  constructor
  · rintro ⟨-, -, h⟩
    cases hx : num? (Dict.get config left) with
    | none => simp [hx, throw, throwThe, MonadExceptOf.throw] at h
    | some x =>
      cases hy : num? (Dict.get config right) with
      | none => simp [hx, hy, throw, throwThe, MonadExceptOf.throw] at h
      | some y => exact ⟨x, y, rfl, rfl, by simpa [hx, hy] using h⟩
  · rintro ⟨x, y, hx, hy, hlt⟩
    refine ⟨?_, ?_, by simpa [hx, hy] using hlt⟩
    · cases hc : Dict.contains config left with
      | true => rfl
      | false => rw [num?_none_of_not_contains hc] at hx; cases hx
    · cases hc : Dict.contains config right with
      | true => rfl
      | false => rw [num?_none_of_not_contains hc] at hy; cases hy

theorem validateCrossFieldInvariants_eq_ok : validateCrossFieldInvariants t config = .ok () ↔
    ∀ inv ∈ crossFieldInvariants, Ordered config inv := by
  unfold validateCrossFieldInvariants
  generalize crossFieldInvariants = invs
  induction invs with
  | nil => simp [pure, Except.pure]
  | cons inv invs ih =>
    rw [List.forM_cons, check_bind_eq_ok, checkInvariant_eq_ok, ih, List.forall_mem_cons]

/-- Where the values have the types of the schema, a failed invariant is an `InvalidPetition`. -/
theorem validateCrossFieldInvariants_error {err : PetitionError}
    (htyped : ∀ k v e, config.lookup k = some v → configSchema.lookup k = some e →
      e.type.matches v = true)
    (h : validateCrossFieldInvariants t config = .error err) : err ≠ .typeError := by
  have hnum : ∀ inv ∈ crossFieldInvariants, ∀ key ∈ [inv.1, inv.2],
      Dict.contains config key = true → ∃ x, num? (Dict.get config key) = some x := by
    intro inv hinv key hkey hcontains
    obtain ⟨v, hv⟩ := Option.isSome_iff_exists.mp hcontains
    obtain ⟨e, he, htype⟩ := crossField_numeric inv hinv key hkey
    obtain ⟨x, hx⟩ := num?_of_matches htype (htyped key v e hv he)
    exact ⟨x, by simpa [Dict.get, hv] using hx⟩
  unfold validateCrossFieldInvariants at h
  revert hnum h
  generalize crossFieldInvariants = invs
  induction invs with
  | nil =>
    intro h _
    cases h
  | cons inv invs ih =>
    intro h hnum
    rw [List.forM_cons] at h
    rcases Check.bind_eq_error.mp h with h | ⟨_, -, h⟩
    · unfold checkInvariant at h
      rcases Check.bind_eq_error.mp h with h | ⟨_, hleft, h⟩
      · exact require_error h
      · rcases Check.bind_eq_error.mp h with h | ⟨_, hright, h⟩
        · exact require_error h
        · obtain ⟨x, hx⟩ := hnum inv List.mem_cons_self inv.1 (by simp) (require_eq_ok.mp hleft)
          obtain ⟨y, hy⟩ := hnum inv List.mem_cons_self inv.2 (by simp) (require_eq_ok.mp hright)
          simp only [hx, hy] at h
          exact require_error h
    · exact ih h fun inv' hinv' => hnum inv' (List.mem_cons_of_mem _ hinv')

end

theorem baselineConfig_valid : ValidConfig baselineConfig where
  distinct := by decide +kernel
  complete k := by
    have hkeys : baselineConfig.map Prod.fst = configSchema.map Prod.fst := rfl
    rw [hkeys]
  admits k v e hv he := by
    have hpass : ∀ p ∈ baselineConfig,
        okAnd (validatePetitionValue ⟨asciiRuntime, fun _ => "", fun _ => ""⟩ p.1 p.2)
          (fun _ => true) = true ∧ (num? p.2).all (fun x => x ≠ .nan) = true := by decide +kernel
    obtain ⟨hok, hnan⟩ := hpass _ (mem_of_lookup hv)
    obtain ⟨⟨⟩, hok, -⟩ := okAnd_iff.mp hok
    apply admits_of_validate he hok
    rintro rfl
    cases hnan
  ordered := by
    apply validateCrossFieldInvariants_eq_ok.mp
    have hok : okAnd (validateCrossFieldInvariants ⟨asciiRuntime, fun _ => "", fun _ => ""⟩
        baselineConfig) (fun _ => true) = true := by decide +kernel
    obtain ⟨⟨⟩, hok, -⟩ := okAnd_iff.mp hok
    exact hok

end Vincent.Economy
