-- SUMMARY: The petition executor, and when it can only install valid configurations.
import Vincent.General.OrderedMap
import Vincent.Economy.ConfigSchema

/-!
# The petition executor

A petition payload sets one key, a batch of keys, or a feature, on a copy of the
configuration. Two kinds of values pass the checks without being meant to: a NaN is
within all bounds, and an unhashable value is no `InvalidPetition`.
-/

namespace Vincent.Economy

open Vincent.Python Vincent.Check

/-! ## Executor -/

structure DSLExecutionResult where
  newConfig : Dict
  changedKeys : List String

/-- `_check_payload_shape`: the payload and its type. -/
def checkPayloadShape (t : Texts) : PyVal → Except PetitionError (Dict × PyVal)
  | .dict p => do
    let payloadType := Dict.get p "type"
    require (hashable payloadType) .typeError
    require (payloadType.inStrings
        ["UPDATE_PARAM", "BATCH_UPDATE_PARAMS", "ENABLE_FEATURE", "DISABLE_FEATURE"])
      (.invalidPetition ("unknown petition_payload type: " ++ t.repr payloadType ++ "; allowed: " ++
        "['BATCH_UPDATE_PARAMS', 'DISABLE_FEATURE', 'ENABLE_FEATURE', 'UPDATE_PARAM']"))
    return (p, payloadType)
  | _ => throw (.invalidPetition "petition_payload must be an object")

/-- `_check_key_writeable`, with the key it lets through. -/
def checkKeyWriteable (t : Texts) : PyVal → Except PetitionError String
  | .str key => do
    require (key ≠ "") (.invalidPetition "CONFIG key must be a non-empty string")
    require ((configSchema.lookup key).isSome) (.invalidPetition (
      if key ∈ immutablePrinciples then "key " ++ t.repr (.str key) ++
        " is in IMMUTABLE_PRINCIPLES — only an upgrade-hash governance hard fork can change it"
      else "unknown CONFIG key: " ++ t.repr (.str key)))
    return key
  | _ => throw (.invalidPetition "CONFIG key must be a non-empty string")

/-- What an update and an entry of a batch do: check the key, check the value, write. -/
def writeParam (t : Texts) (key value : PyVal) (candidate : Dict) :
    Except PetitionError (Dict × String) := do
  let key ← checkKeyWriteable t key
  validatePetitionValue t key value
  return (Dict.set candidate key value, key)

def applyUpdateParam (t : Texts) (p candidate : Dict) :
    Except PetitionError (Dict × List String) := do
  require (Dict.contains p "key" ∧ Dict.contains p "value")
    (.invalidPetition "UPDATE_PARAM requires key + value")
  let written ← writeParam t (Dict.get p "key") (Dict.get p "value") candidate
  return (written.1, [written.2])

/-- One round of the loop of `_apply_batch_update`. The keys seen are the keys changed. -/
def batchStep (t : Texts) (scan : Dict × List String) (u : PyVal) :
    Except PetitionError (Dict × List String) :=
  match u with
  | .dict d => do
    require (Dict.contains d "key" ∧ Dict.contains d "value")
      (.invalidPetition "BATCH_UPDATE_PARAMS entries must be {key, value}")
    let key := Dict.get d "key"
    require (hashable key) .typeError
    require (¬ key.inStrings scan.2)
      (.invalidPetition ("duplicate key in BATCH_UPDATE_PARAMS: " ++ t.repr key))
    let written ← writeParam t key (Dict.get d "value") scan.1
    return (written.1, scan.2 ++ [written.2])
  | _ => throw (.invalidPetition "BATCH_UPDATE_PARAMS entries must be {key, value}")

def applyBatchUpdate (t : Texts) (p candidate : Dict) :
    Except PetitionError (Dict × List String) :=
  match Dict.get p "updates" with
  | .list (u :: us) => (u :: us).foldlM (batchStep t) (candidate, [])
  | _ => throw (.invalidPetition "BATCH_UPDATE_PARAMS requires a non-empty 'updates' list")

/-- `isinstance(feature, str) and feature`, which the toggle requires. -/
def featureNamed (p : Dict) : Bool :=
  match Dict.get p "feature" with
  | .str feature => feature ≠ ""
  | _ => false

def applyFeatureToggle (t : Texts) (p candidate : Dict) (enable : Bool) :
    Except PetitionError (Dict × List String) := do
  require (featureNamed p)
    (.invalidPetition "ENABLE_FEATURE / DISABLE_FEATURE requires non-empty 'feature'")
  let feature ← checkKeyWriteable t (Dict.get p "feature")
  require ((configSchema.lookup feature).any fun schema => schema.type = .bool)
    (.invalidPetition ("feature " ++ t.repr (.str feature) ++ " is not a boolean CONFIG key"))
  return (Dict.set candidate feature (.bool enable), [feature])

/-- The switch over the payload types. -/
def applyVariant (t : Texts) (p : Dict) (payloadType : PyVal) (candidate : Dict) :
    Except PetitionError (Dict × List String) :=
  if payloadType.eq (.str "UPDATE_PARAM") then applyUpdateParam t p candidate
  else if payloadType.eq (.str "BATCH_UPDATE_PARAMS") then applyBatchUpdate t p candidate
  else applyFeatureToggle t p candidate (payloadType.eq (.str "ENABLE_FEATURE"))

/-- `apply_petition_payload` on a copy of the configuration. -/
def applyPetitionPayload (t : Texts) (payload : PyVal) (currentConfig : Dict) :
    Except PetitionError DSLExecutionResult := do
  let shape ← checkPayloadShape t payload
  let written ← applyVariant t shape.1 shape.2 currentConfig
  validateCrossFieldInvariants t written.1
  return { newConfig := written.1, changedKeys := written.2 }

/-! ## What a payload writes -/

/-- Write keys one after another. -/
def setAll (config : Dict) (ws : List (String × PyVal)) : Dict :=
  ws.foldl (fun c w => Dict.set c w.1 w.2) config

/-- An entry of a batch, with the key and the value that it writes. -/
def EntryWrites (t : Texts) (u : PyVal) (w : String × PyVal) : Prop :=
  ∃ d, u = .dict d ∧ d.lookup "key" = some (.str w.1) ∧ d.lookup "value" = some w.2 ∧
    validatePetitionValue t w.1 w.2 = .ok ()

/-- What a payload writes, if each of its writes passes. -/
inductive Writes (t : Texts) : PyVal → List (String × PyVal) → Prop where
  | updateParam {p : Dict} {k : String} {v : PyVal} :
      Dict.get p "type" = .str "UPDATE_PARAM" → EntryWrites t (.dict p) (k, v) →
      Writes t (.dict p) [(k, v)]
  | batch {p : Dict} {us : List PyVal} {ws : List (String × PyVal)} :
      Dict.get p "type" = .str "BATCH_UPDATE_PARAMS" → Dict.get p "updates" = .list us → us ≠ [] →
      List.Forall₂ (EntryWrites t) us ws → (ws.map Prod.fst).Nodup → Writes t (.dict p) ws
  | toggle {p : Dict} {feature : String} {e : SchemaEntry} (enable : Bool) :
      Dict.get p "type" = .str (if enable then "ENABLE_FEATURE" else "DISABLE_FEATURE") →
      Dict.get p "feature" = .str feature → configSchema.lookup feature = some e →
      e.type = .bool → Writes t (.dict p) [(feature, .bool enable)]

/-- The executor looks up an unhashable payload type, or key of a batch behind entries that pass. -/
inductive ReachesUnhashable (t : Texts) : PyVal → Prop where
  | type {p : Dict} : hashable (Dict.get p "type") = false → ReachesUnhashable t (.dict p)
  | key {p d : Dict} {pre post : List PyVal} {ws : List (String × PyVal)} :
      Dict.get p "type" = .str "BATCH_UPDATE_PARAMS" →
      Dict.get p "updates" = .list (pre ++ .dict d :: post) →
      List.Forall₂ (EntryWrites t) pre ws → (ws.map Prod.fst).Nodup →
      Dict.contains d "key" → Dict.contains d "value" → hashable (Dict.get d "key") = false →
      ReachesUnhashable t (.dict p)

/-- The payload writes a NaN, and nothing else is wrong with it. -/
def WritesNan (t : Texts) (payload : PyVal) (config : Dict) : Prop :=
  ∃ ws, Writes t payload ws ∧ (∀ inv ∈ crossFieldInvariants, Ordered (setAll config ws) inv) ∧
    ∃ k, (k, PyVal.float .nan) ∈ ws

section

variable {t : Texts} {key value u : PyVal} {candidate config : Dict} {scan scan' : Dict × List String}

theorem checkKeyWriteable_eq_ok {k : String} : checkKeyWriteable t key = .ok k ↔
    key = .str k ∧ (configSchema.lookup k).isSome := by
  have hempty : configSchema.lookup "" = none := rfl
  cases key with
  | str s =>
    simp only [checkKeyWriteable, ↓check_bind_eq_ok, require_eq_ok, pure_eq_ok, PyVal.str.injEq]
    constructor
    · rintro ⟨-, hsome, rfl⟩
      exact ⟨rfl, hsome⟩
    · rintro ⟨rfl, hsome⟩
      refine ⟨?_, hsome, rfl⟩
      rintro rfl
      rw [hempty] at hsome
      cases hsome
  | none | bool | int | float | list | dict =>
    simp [checkKeyWriteable, throw, throwThe, MonadExceptOf.throw]

theorem checkKeyWriteable_error {err : PetitionError} (h : checkKeyWriteable t key = .error err) :
    err ≠ .typeError := by
  cases key with
  | str s =>
    unfold checkKeyWriteable at h
    rcases bind_eq_error.mp h with h | ⟨_, -, h⟩
    · exact require_error h
    · rcases bind_eq_error.mp h with h | ⟨_, -, h⟩
      · exact require_error h
      · cases h
  | none | bool | int | float | list | dict =>
    cases h
    intro h
    cases h

theorem writeParam_eq_ok {written : Dict × String} : writeParam t key value candidate = .ok written ↔
    key = .str written.2 ∧ validatePetitionValue t written.2 value = .ok () ∧
      written.1 = Dict.set candidate written.2 value := by
  unfold writeParam
  simp only [bind_eq_ok, ↓check_bind_eq_ok, pure_eq_ok, checkKeyWriteable_eq_ok]
  constructor
  · rintro ⟨k, ⟨rfl, -⟩, hvalid, rfl⟩
    exact ⟨rfl, hvalid, rfl⟩
  · rintro ⟨rfl, hvalid, hset⟩
    obtain ⟨e, he⟩ := exists_schema_of_validate hvalid
    exact ⟨written.2, ⟨rfl, by rw [he]; rfl⟩, hvalid, by rw [← hset]⟩

theorem writeParam_error {err : PetitionError}
    (h : writeParam t key value candidate = .error err) : err ≠ .typeError := by
  rcases bind_eq_error.mp h with h | ⟨k, -, h⟩
  · exact checkKeyWriteable_error h
  · rcases bind_eq_error.mp h with h | ⟨_, -, h⟩
    · exact validatePetitionValue_error h
    · cases h

/-! ## Batches -/

theorem not_inStrings {k : String} {ks : List String} :
    (¬ (PyVal.str k).inStrings ks = true) ↔ k ∉ ks := by
  simp [PyVal.inStrings, PyVal.eq]

theorem batchStep_eq_ok : batchStep t scan u = .ok scan' ↔
    ∃ w, EntryWrites t u w ∧ w.1 ∉ scan.2 ∧
      scan' = (Dict.set scan.1 w.1 w.2, scan.2 ++ [w.1]) := by
  unfold EntryWrites
  cases u with
  | dict d =>
    simp only [batchStep]
    simp only [↓check_bind_eq_ok, require_eq_ok, bind_eq_ok, pure_eq_ok, writeParam_eq_ok]
    constructor
    · rintro ⟨⟨hkey, hvalue⟩, -, hnew, written, ⟨hstr, hvalid, hset⟩, rfl⟩
      obtain ⟨k, hk⟩ := Option.isSome_iff_exists.mp hkey
      obtain ⟨v, hv⟩ := Option.isSome_iff_exists.mp hvalue
      have hgetKey : Dict.get d "key" = k := by simp [Dict.get, hk]
      have hgetValue : Dict.get d "value" = v := by simp [Dict.get, hv]
      rw [hgetKey] at hstr hnew
      rw [hgetValue] at hvalid hset
      subst hstr
      exact ⟨(written.2, v), ⟨d, rfl, hk, hv, hvalid⟩, not_inStrings.mp hnew, by rw [hset]⟩
    · rintro ⟨⟨k, v⟩, ⟨d', heq, hk, hv, hvalid⟩, hnew, rfl⟩
      cases heq
      have hgetKey : Dict.get d "key" = .str k := by simp [Dict.get, hk]
      have hgetValue : Dict.get d "value" = v := by simp [Dict.get, hv]
      refine ⟨⟨?_, ?_⟩, ?_, ?_, (Dict.set scan.1 k v, k), ⟨hgetKey, ?_, ?_⟩, rfl⟩
      · rw [Dict.contains, hk]; rfl
      · rw [Dict.contains, hv]; rfl
      · rw [hgetKey]; rfl
      · rw [hgetKey]; exact not_inStrings.mpr hnew
      · rw [hgetValue]; exact hvalid
      · rw [hgetValue]
  | none | bool | int | float | str | list =>
    simp [batchStep, throw, throwThe, MonadExceptOf.throw]

theorem batchStep_typeError (h : batchStep t scan u = .error .typeError) :
    ∃ d, u = .dict d ∧ Dict.contains d "key" ∧ Dict.contains d "value" ∧
      hashable (Dict.get d "key") = false := by
  cases u with
  | dict d =>
    unfold batchStep at h
    rcases bind_eq_error.mp h with h | ⟨_, hshape, h⟩
    · exact absurd rfl (require_error h)
    · obtain ⟨hkey, hvalue⟩ := require_eq_ok.mp hshape
      rcases bind_eq_error.mp h with h | ⟨_, -, h⟩
      · refine ⟨d, rfl, hkey, hvalue, ?_⟩
        cases hhash : hashable (Dict.get d "key") with
        | false => rfl
        | true => simp [require, hhash] at h
      · rcases bind_eq_error.mp h with h | ⟨_, -, h⟩
        · exact absurd rfl (require_error h)
        · rcases bind_eq_error.mp h with h | ⟨_, -, h⟩
          · exact absurd rfl (writeParam_error h)
          · cases h
  | none | bool | int | float | str | list => cases h

theorem foldlM_batchStep {us : List PyVal} : us.foldlM (batchStep t) scan = .ok scan' ↔
    ∃ ws, List.Forall₂ (EntryWrites t) us ws ∧ (ws.map Prod.fst).Nodup ∧
      (∀ k ∈ ws.map Prod.fst, k ∉ scan.2) ∧
      scan' = (setAll scan.1 ws, scan.2 ++ ws.map Prod.fst) := by
  induction us generalizing scan with
  | nil =>
    simp only [List.foldlM_nil, pure_eq_ok, List.forall₂_nil_left_iff]
    constructor
    · rintro rfl
      exact ⟨[], rfl, List.nodup_nil, by simp, by simp [setAll]⟩
    · rintro ⟨ws, rfl, -, -, rfl⟩
      simp [setAll]
  | cons u us ih =>
    simp only [List.foldlM_cons, bind_eq_ok, batchStep_eq_ok]
    constructor
    · rintro ⟨next, ⟨w, hw, hnew, rfl⟩, hrest⟩
      obtain ⟨ws, hws, hnodup, hfresh, rfl⟩ := ih.mp hrest
      refine ⟨w :: ws, List.Forall₂.cons hw hws, ?_, ?_, ?_⟩
      · refine List.nodup_cons.mpr ⟨fun hmem => ?_, hnodup⟩
        exact hfresh w.1 hmem (by simp)
      · intro k hk
        rcases List.mem_cons.mp hk with rfl | hk
        · exact hnew
        · exact fun hmem => hfresh k hk (List.mem_append_left _ hmem)
      · simp [setAll]
    · rintro ⟨ws, hws, hnodup, hfresh, rfl⟩
      obtain ⟨w, ws', hw, hws', rfl⟩ := List.forall₂_cons_left_iff.mp hws
      obtain ⟨hnotin, hnodup'⟩ := List.nodup_cons.mp hnodup
      refine ⟨_, ⟨w, hw, hfresh w.1 (by simp), rfl⟩, ih.mpr ⟨ws', hws', hnodup', ?_, ?_⟩⟩
      · intro k hk hmem
        rcases List.mem_append.mp hmem with hmem | hmem
        · exact hfresh k (List.mem_cons_of_mem _ hk) hmem
        · rw [List.mem_singleton.mp hmem] at hk
          exact hnotin hk
      · simp [setAll]

end

/-! ## The executor does what a payload writes -/

section

variable {t : Texts} {p config : Dict} {written : Dict × List String} {ws : List (String × PyVal)}

theorem applyUpdateParam_eq_ok : applyUpdateParam t p config = .ok written ↔
    ∃ w, EntryWrites t (.dict p) w ∧ written = (setAll config [w], [w.1]) := by
  unfold applyUpdateParam EntryWrites
  simp only [↓check_bind_eq_ok, require_eq_ok, bind_eq_ok, pure_eq_ok, writeParam_eq_ok]
  constructor
  · rintro ⟨⟨hkey, hvalue⟩, w, ⟨hstr, hvalid, hset⟩, rfl⟩
    obtain ⟨k, hk⟩ := Option.isSome_iff_exists.mp hkey
    obtain ⟨v, hv⟩ := Option.isSome_iff_exists.mp hvalue
    have hgetKey : Dict.get p "key" = k := by simp [Dict.get, hk]
    have hgetValue : Dict.get p "value" = v := by simp [Dict.get, hv]
    rw [hgetKey] at hstr
    rw [hgetValue] at hvalid hset
    subst hstr
    exact ⟨(w.2, v), ⟨p, rfl, hk, hv, hvalid⟩, by rw [hset]; rfl⟩
  · rintro ⟨⟨k, v⟩, ⟨d, heq, hk, hv, hvalid⟩, rfl⟩
    cases heq
    have hgetKey : Dict.get p "key" = .str k := by simp [Dict.get, hk]
    have hgetValue : Dict.get p "value" = v := by simp [Dict.get, hv]
    refine ⟨⟨?_, ?_⟩, (Dict.set config k v, k), ⟨hgetKey, ?_, ?_⟩, rfl⟩
    · rw [Dict.contains, hk]; rfl
    · rw [Dict.contains, hv]; rfl
    · rw [hgetValue]; exact hvalid
    · rw [hgetValue]

theorem applyBatchUpdate_eq_ok : applyBatchUpdate t p config = .ok written ↔
    ∃ us ws, Dict.get p "updates" = .list us ∧ us ≠ [] ∧ List.Forall₂ (EntryWrites t) us ws ∧
      (ws.map Prod.fst).Nodup ∧ written = (setAll config ws, ws.map Prod.fst) := by
  unfold applyBatchUpdate
  constructor
  · intro h
    cases hupdates : Dict.get p "updates" with
    | list us =>
      rw [hupdates] at h
      cases us with
      | nil => cases h
      | cons u us =>
        obtain ⟨ws, hws, hnodup, -, rfl⟩ := foldlM_batchStep.mp h
        exact ⟨u :: us, ws, rfl, List.cons_ne_nil _ _, hws, hnodup, by simp⟩
    | none | bool | int | float | str | dict => rw [hupdates] at h; cases h
  · rintro ⟨us, ws, hupdates, hne, hws, hnodup, rfl⟩
    rw [hupdates]
    cases us with
    | nil => exact absurd rfl hne
    | cons u us => exact foldlM_batchStep.mpr ⟨ws, hws, hnodup, by simp, by simp⟩

theorem applyFeatureToggle_eq_ok {enable : Bool} : applyFeatureToggle t p config enable = .ok written ↔
    ∃ feature e, Dict.get p "feature" = .str feature ∧ configSchema.lookup feature = some e ∧
      e.type = .bool ∧ written = (setAll config [(feature, .bool enable)], [feature]) := by
  have hempty : configSchema.lookup "" = none := rfl
  unfold applyFeatureToggle
  simp only [↓check_bind_eq_ok, require_eq_ok, bind_eq_ok, pure_eq_ok, checkKeyWriteable_eq_ok]
  constructor
  · rintro ⟨-, feature, ⟨hval, -⟩, hflag, rfl⟩
    cases he : configSchema.lookup feature with
    | none => simp [he] at hflag
    | some e => exact ⟨feature, e, hval, he, by simpa [he] using hflag, rfl⟩
  · rintro ⟨feature, e, hval, he, htype, rfl⟩
    have hne : feature ≠ "" := by
      rintro rfl
      rw [hempty] at he
      cases he
    exact ⟨by simp [featureNamed, hval, hne], feature, ⟨hval, by rw [he]; rfl⟩,
      by simp [he, htype], rfl⟩

theorem applyFeatureToggle_error {enable : Bool} {err : PetitionError}
    (h : applyFeatureToggle t p config enable = .error err) : err ≠ .typeError := by
  unfold applyFeatureToggle at h
  rcases bind_eq_error.mp h with h | ⟨_, -, h⟩
  · exact require_error h
  · rcases bind_eq_error.mp h with h | ⟨_, -, h⟩
    · exact checkKeyWriteable_error h
    · rcases bind_eq_error.mp h with h | ⟨_, -, h⟩
      · exact require_error h
      · cases h

theorem applyUpdateParam_error {err : PetitionError}
    (h : applyUpdateParam t p config = .error err) : err ≠ .typeError := by
  unfold applyUpdateParam at h
  rcases bind_eq_error.mp h with h | ⟨_, -, h⟩
  · exact require_error h
  · rcases bind_eq_error.mp h with h | ⟨_, -, h⟩
    · exact writeParam_error h
    · cases h

theorem checkPayloadShape_eq_ok {payload : PyVal} {shape : Dict × PyVal} :
    checkPayloadShape t payload = .ok shape ↔
      payload = .dict shape.1 ∧ shape.2 = Dict.get shape.1 "type" ∧
        ∃ s ∈ ["UPDATE_PARAM", "BATCH_UPDATE_PARAMS", "ENABLE_FEATURE", "DISABLE_FEATURE"],
          shape.2 = .str s := by
  cases payload with
  | dict p =>
    simp only [checkPayloadShape]
    simp only [↓check_bind_eq_ok, require_eq_ok, pure_eq_ok, PyVal.inStrings, List.any_eq_true]
    constructor
    · rintro ⟨-, ⟨s, hs, heq⟩, rfl⟩
      refine ⟨rfl, rfl, s, hs, ?_⟩
      cases hval : Dict.get p "type" with
      | str s' => simpa [hval, PyVal.eq] using heq
      | none | bool | int | float | list | dict =>
        simp [hval, PyVal.eq, PyVal.eqScalar, PyVal.rat?] at heq
    · rintro ⟨heq, hval, s, hs, hstr⟩
      cases heq
      rw [hstr] at hval
      rw [← hval]
      exact ⟨rfl, ⟨s, hs, by simp [PyVal.eq]⟩, by rw [← hstr]⟩
  | none | bool | int | float | str | list =>
    simp [checkPayloadShape, throw, throwThe, MonadExceptOf.throw]

theorem checkPayloadShape_typeError {payload : PyVal}
    (h : checkPayloadShape t payload = .error .typeError) :
    ∃ p, payload = .dict p ∧ hashable (Dict.get p "type") = false := by
  cases payload with
  | dict p =>
    refine ⟨p, rfl, ?_⟩
    unfold checkPayloadShape at h
    rcases bind_eq_error.mp h with h | ⟨_, -, h⟩
    · cases hhash : hashable (Dict.get p "type") with
      | false => rfl
      | true => simp [require, hhash] at h
    · rcases bind_eq_error.mp h with h | ⟨_, -, h⟩
      · exact absurd rfl (require_error h)
      · cases h
  | none | bool | int | float | str | list => cases h

/-- On a payload of one of the four types, the switch does what the payload writes. -/
theorem applyVariant_eq_ok {s : String}
    (hs : s ∈ ["UPDATE_PARAM", "BATCH_UPDATE_PARAMS", "ENABLE_FEATURE", "DISABLE_FEATURE"])
    (htype : Dict.get p "type" = .str s) : applyVariant t p (.str s) config = .ok written ↔
      ∃ ws, Writes t (.dict p) ws ∧ written = (setAll config ws, ws.map Prod.fst) := by
  constructor
  · intro h
    simp only [List.mem_cons, List.not_mem_nil, or_false] at hs
    rcases hs with rfl | rfl | rfl | rfl
    · obtain ⟨w, hw, rfl⟩ := applyUpdateParam_eq_ok.mp h
      exact ⟨[w], .updateParam htype hw, rfl⟩
    · obtain ⟨us, ws, hupdates, hne, hws, hnodup, rfl⟩ := applyBatchUpdate_eq_ok.mp h
      exact ⟨ws, .batch htype hupdates hne hws hnodup, rfl⟩
    · obtain ⟨feature, e, hfeature, he, hbool, rfl⟩ := applyFeatureToggle_eq_ok.mp h
      exact ⟨_, .toggle true htype hfeature he hbool, rfl⟩
    · obtain ⟨feature, e, hfeature, he, hbool, rfl⟩ := applyFeatureToggle_eq_ok.mp h
      exact ⟨_, .toggle false htype hfeature he hbool, rfl⟩
  · rintro ⟨ws, hws, rfl⟩
    cases hws with
    | updateParam hkind hw =>
      rw [htype] at hkind
      cases hkind
      exact applyUpdateParam_eq_ok.mpr ⟨_, hw, rfl⟩
    | batch hkind hupdates hne hws hnodup =>
      rw [htype] at hkind
      cases hkind
      exact applyBatchUpdate_eq_ok.mpr ⟨_, ws, hupdates, hne, hws, hnodup, rfl⟩
    | toggle enable hkind hfeature he hbool =>
      rw [htype] at hkind
      cases enable <;> cases hkind <;>
        exact applyFeatureToggle_eq_ok.mpr ⟨_, _, hfeature, he, hbool, rfl⟩

/-- The executor succeeds where every write passes and the invariants hold of the result. -/
theorem applyPetitionPayload_eq_ok {payload : PyVal} {r : DSLExecutionResult} :
    applyPetitionPayload t payload config = .ok r ↔ ∃ ws, Writes t payload ws ∧
      (∀ inv ∈ crossFieldInvariants, Ordered (setAll config ws) inv) ∧
      r = { newConfig := setAll config ws, changedKeys := ws.map Prod.fst } := by
  unfold applyPetitionPayload
  simp only [bind_eq_ok, ↓check_bind_eq_ok, pure_eq_ok, validateCrossFieldInvariants_eq_ok]
  constructor
  · rintro ⟨⟨p, ty⟩, hshape, written, hwritten, hordered, rfl⟩
    obtain ⟨rfl, htype, s, hs, rfl⟩ := checkPayloadShape_eq_ok.mp hshape
    obtain ⟨ws, hws, rfl⟩ := (applyVariant_eq_ok hs htype.symm).mp hwritten
    exact ⟨ws, hws, hordered, rfl⟩
  · rintro ⟨ws, hws, hordered, rfl⟩
    obtain ⟨p, s, rfl, hs, htype⟩ : ∃ p s, payload = .dict p ∧
        s ∈ ["UPDATE_PARAM", "BATCH_UPDATE_PARAMS", "ENABLE_FEATURE", "DISABLE_FEATURE"] ∧
        Dict.get p "type" = .str s := by
      cases hws with
      | updateParam hkind _ => exact ⟨_, _, rfl, by simp, hkind⟩
      | batch hkind _ _ _ _ => exact ⟨_, _, rfl, by simp, hkind⟩
      | toggle enable hkind _ _ _ => exact ⟨_, _, rfl, by cases enable <;> simp, hkind⟩
    exact ⟨(p, .str s), checkPayloadShape_eq_ok.mpr ⟨rfl, htype.symm, s, hs, rfl⟩, _,
      (applyVariant_eq_ok hs htype).mpr ⟨ws, hws, rfl⟩, hordered, rfl⟩

end

/-! ## What is written -/

section

variable {t : Texts} {payload : PyVal} {config : Dict} {ws : List (String × PyVal)} {k : String}
  {v : PyVal}

/-- A write of a key that holds a value of its type. -/
def Passes (t : Texts) (w : String × PyVal) : Prop :=
  ∃ e, configSchema.lookup w.1 = some e ∧
    (validatePetitionValue t w.1 w.2 = .ok () ∨ (e.type = .bool ∧ ∃ b, w.2 = .bool b))

theorem EntryWrites.passes {u : PyVal} {w : String × PyVal} (h : EntryWrites t u w) : Passes t w := by
  obtain ⟨d, -, -, -, hvalid⟩ := h
  obtain ⟨e, he⟩ := exists_schema_of_validate hvalid
  exact ⟨e, he, Or.inl hvalid⟩

theorem forall₂_passes {us : List PyVal} (h : List.Forall₂ (EntryWrites t) us ws) :
    ∀ w ∈ ws, Passes t w := by
  induction h with
  | nil => exact fun w hw => absurd hw List.not_mem_nil
  | cons hentry _ ih => exact List.forall_mem_cons.mpr ⟨hentry.passes, ih⟩

theorem Writes.passes (h : Writes t payload ws) :
    (∀ w ∈ ws, Passes t w) ∧ (ws.map Prod.fst).Nodup := by
  cases h with
  | updateParam _ hw => exact ⟨by simpa using hw.passes, by simp⟩
  | batch _ _ _ hws hnodup => exact ⟨forall₂_passes hws, hnodup⟩
  | toggle enable _ _ he htype =>
    refine ⟨?_, by simp⟩
    rintro w hw
    obtain rfl := List.mem_singleton.mp hw
    exact ⟨_, he, Or.inr ⟨htype, enable, rfl⟩⟩

theorem Passes.matches {e : SchemaEntry} (h : Passes t (k, v)) (he : configSchema.lookup k = some e) :
    e.type.matches v = true := by
  obtain ⟨e', he', h⟩ := h
  rw [he] at he'
  cases he'
  rcases h with hvalid | ⟨htype, b, rfl⟩
  · exact ((validatePetitionValue_eq_ok he).mp hvalid).1
  · rw [htype]
    rfl

theorem Passes.admits {e : SchemaEntry} (h : Passes t (k, v)) (he : configSchema.lookup k = some e)
    (hnan : v ≠ .float .nan) : e.Admits v := by
  obtain ⟨e', he', h⟩ := h
  rw [he] at he'
  cases he'
  rcases h with hvalid | ⟨htype, b, rfl⟩
  · exact admits_of_validate he hvalid hnan
  · exact admits_bool he htype b

theorem lookup_setAll (hnodup : (ws.map Prod.fst).Nodup) :
    (setAll config ws).lookup k = (ws.lookup k).or (config.lookup k) := by
  induction ws generalizing config with
  | nil => rfl
  | cons w ws ih =>
    obtain ⟨key, x⟩ := w
    obtain ⟨hnotin, hnodup'⟩ := List.nodup_cons.mp hnodup
    have hstep : setAll config ((key, x) :: ws) = setAll (Dict.set config key x) ws := rfl
    rw [hstep, ih hnodup', OrderedMap.lookup_entry]
    by_cases hk : k = key
    · subst hk
      have hnone : ws.lookup k = none := by
        cases hlook : ws.lookup k with
        | none => rfl
        | some y => exact absurd (List.mem_map_of_mem (mem_of_lookup hlook)) hnotin
      rw [hnone, if_pos rfl, Dict.lookup_set_self]
      rfl
    · rw [if_neg hk, Dict.lookup_set_of_ne _ hk]

theorem keys_setAll (hkeys : ∀ w ∈ ws, w.1 ∈ config.map Prod.fst) :
    (setAll config ws).map Prod.fst = config.map Prod.fst := by
  induction ws generalizing config with
  | nil => rfl
  | cons w ws ih =>
    have hcontains : Dict.contains config w.1 = true := by
      obtain ⟨kv, hkv, hfst⟩ := List.mem_map.mp (hkeys w List.mem_cons_self)
      exact Dict.lookup_isSome.mpr ⟨kv.2, by rw [← hfst]; exact hkv⟩
    have hstep : setAll config (w :: ws) = setAll (Dict.set config w.1 w.2) ws := rfl
    have hset := Dict.keys_set w.2 hcontains
    rw [hstep, ih, hset]
    intro w' hw'
    rw [hset]
    exact hkeys w' (List.mem_cons_of_mem _ hw')

/-- The keys of writes that pass are keys of a valid configuration. -/
theorem ValidConfig.mem_keys (hvalid : ValidConfig config) (hpasses : ∀ w ∈ ws, Passes t w) :
    ∀ w ∈ ws, w.1 ∈ config.map Prod.fst := by
  intro w hw
  obtain ⟨e, he, -⟩ := hpasses w hw
  exact (hvalid.complete w.1).mpr (List.mem_map_of_mem (mem_of_lookup he))

theorem ValidConfig.typed_setAll (hvalid : ValidConfig config) (hpasses : ∀ w ∈ ws, Passes t w)
    (hnodup : (ws.map Prod.fst).Nodup) : ∀ k v e, (setAll config ws).lookup k = some v →
      configSchema.lookup k = some e → e.type.matches v = true := by
  intro k v e hv he
  rw [lookup_setAll hnodup] at hv
  cases hwritten : ws.lookup k with
  | none =>
    rw [hwritten] at hv
    exact (hvalid.admits k v e hv he).type
  | some x =>
    rw [hwritten] at hv
    cases hv
    exact (hpasses _ (mem_of_lookup hwritten)).matches he

/-- Writes that pass keep a configuration valid, unless one of them is a NaN. -/
theorem ValidConfig.setAll (hvalid : ValidConfig config) (hpasses : ∀ w ∈ ws, Passes t w)
    (hnodup : (ws.map Prod.fst).Nodup) (hnan : ∀ k, (k, PyVal.float .nan) ∉ ws)
    (hordered : ∀ inv ∈ crossFieldInvariants, Ordered (setAll config ws) inv) :
    ValidConfig (setAll config ws) := by
  have hkeys := keys_setAll (hvalid.mem_keys hpasses)
  refine ⟨by rw [hkeys]; exact hvalid.distinct, by rw [hkeys]; exact hvalid.complete, ?_, hordered⟩
  intro k v e hv he
  rw [lookup_setAll hnodup] at hv
  cases hwritten : ws.lookup k with
  | none =>
    rw [hwritten] at hv
    exact hvalid.admits k v e hv he
  | some x =>
    rw [hwritten] at hv
    cases hv
    have hmem := mem_of_lookup hwritten
    exact (hpasses _ hmem).admits he fun heq => hnan k (heq ▸ hmem)

/-- The executor raises a `TypeError` only at an unhashable value. -/
theorem reachesUnhashable_of_typeError (hvalid : ValidConfig config)
    (h : applyPetitionPayload t payload config = .error .typeError) :
    ReachesUnhashable t payload := by
  rcases bind_eq_error.mp h with h | ⟨shape, hshape, h⟩
  · obtain ⟨p, rfl, hhash⟩ := checkPayloadShape_typeError h
    exact .type hhash
  · obtain ⟨hpayload, htype, s, hs, hstr⟩ := checkPayloadShape_eq_ok.mp hshape
    rw [hpayload]
    rw [hstr] at htype h
    rcases bind_eq_error.mp h with h | ⟨written, hwritten, h⟩
    · simp only [List.mem_cons, List.not_mem_nil, or_false] at hs
      rcases hs with rfl | rfl | rfl | rfl
      · exact absurd rfl (applyUpdateParam_error h)
      · -- only the loop of a batch looks a key up before it checks that it is a text
        change applyBatchUpdate t shape.1 config = _ at h
        unfold applyBatchUpdate at h
        cases hupdates : Dict.get shape.1 "updates" with
        | list us =>
          rw [hupdates] at h
          cases us with
          | nil => cases h
          | cons u us =>
            obtain ⟨pre, x, post, hsplit, scan, hpre, hx⟩ := foldlM_eq_error.mp h
            obtain ⟨ws, hws, hnodup, -, -⟩ := foldlM_batchStep.mp hpre
            obtain ⟨d, rfl, hkey, hvalue, hhash⟩ := batchStep_typeError hx
            exact .key htype.symm (by rw [hupdates, hsplit]) hws hnodup hkey hvalue hhash
        | none | bool | int | float | str | dict => rw [hupdates] at h; cases h
      · exact absurd rfl (applyFeatureToggle_error h)
      · exact absurd rfl (applyFeatureToggle_error h)
    · obtain ⟨ws, hws, rfl⟩ := (applyVariant_eq_ok hs htype.symm).mp hwritten
      obtain ⟨hpasses, hnodup⟩ := hws.passes
      rcases bind_eq_error.mp h with h | ⟨_, -, h⟩
      · exact absurd rfl (validateCrossFieldInvariants_error
          (hvalid.typed_setAll hpasses hnodup) h)
      · cases h

theorem typeError_of_reachesUnhashable (h : ReachesUnhashable t payload) :
    applyPetitionPayload t payload config = .error .typeError := by
  cases h with
  | type hhash =>
    apply bind_eq_error.mpr
    refine Or.inl ?_
    simp [checkPayloadShape, require, hhash, bind, Except.bind]
  | @key p d pre post ws hkind hupdates hws hnodup hkey hvalue hhash =>
    apply bind_eq_error.mpr
    refine Or.inr ⟨(p, .str "BATCH_UPDATE_PARAMS"), checkPayloadShape_eq_ok.mpr
      ⟨rfl, hkind.symm, _, by simp, rfl⟩, ?_⟩
    apply bind_eq_error.mpr
    refine Or.inl ?_
    have hpre : pre.foldlM (batchStep t) (config, []) =
        .ok (setAll config ws, [] ++ ws.map Prod.fst) :=
      foldlM_batchStep.mpr ⟨ws, hws, hnodup, fun _ _ => List.not_mem_nil, rfl⟩
    have hstep : batchStep t (setAll config ws, [] ++ ws.map Prod.fst) (.dict d) =
        .error .typeError := by
      simp [batchStep, require, hkey, hvalue, hhash, bind, Except.bind]
    have hloop : (pre ++ .dict d :: post).foldlM (batchStep t) (config, []) = .error .typeError :=
      foldlM_eq_error.mpr ⟨pre, _, post, rfl, _, hpre, hstep⟩
    change applyBatchUpdate t p config = _
    unfold applyBatchUpdate
    rw [hupdates]
    cases pre with
    | nil => exact hloop
    | cons u pre => exact hloop

/-- An `InvalidPetition`, or a valid configuration that differs in the changed keys only. -/
def InstallsValid (config : Dict) : Except PetitionError DSLExecutionResult → Prop
  | .error err => ∃ reason, err = .invalidPetition reason
  | .ok r => r.newConfig.map Prod.fst = config.map Prod.fst ∧ ValidConfig r.newConfig ∧
      ∀ k, k ∉ r.changedKeys → r.newConfig.lookup k = config.lookup k

/-- The executor does what it must exactly where it looks up no unhashable value and writes no
NaN. -/
theorem applyPetitionPayload_installsValid_iff (t : Texts) (payload : PyVal) (config : Dict)
    (hvalid : ValidConfig config) : InstallsValid config (applyPetitionPayload t payload config) ↔
      ¬ ReachesUnhashable t payload ∧ ¬ WritesNan t payload config := by
  constructor
  · intro h
    constructor
    · intro hreaches
      rw [typeError_of_reachesUnhashable hreaches] at h
      obtain ⟨reason, hreason⟩ := h
      cases hreason
    · rintro ⟨ws, hws, hordered, k, hnan⟩
      obtain ⟨hpasses, hnodup⟩ := hws.passes
      rw [applyPetitionPayload_eq_ok.mpr ⟨ws, hws, hordered, rfl⟩] at h
      obtain ⟨e, he, -⟩ := hpasses _ hnan
      have hlook : (Economy.setAll config ws).lookup k = some (.float .nan) := by
        rw [lookup_setAll hnodup, (OrderedMap.Distinct.mem_iff hnodup).mp hnan]
        rfl
      exact not_admits_nan he (h.2.1.admits k _ e hlook he)
  · rintro ⟨hhash, hnan⟩
    cases hrun : applyPetitionPayload t payload config with
    | error err =>
      cases err with
      | invalidPetition reason => exact ⟨reason, rfl⟩
      | typeError => exact absurd (reachesUnhashable_of_typeError hvalid hrun) hhash
    | ok r =>
      obtain ⟨ws, hws, hordered, rfl⟩ := applyPetitionPayload_eq_ok.mp hrun
      obtain ⟨hpasses, hnodup⟩ := hws.passes
      refine ⟨keys_setAll (hvalid.mem_keys hpasses), hvalid.setAll hpasses hnodup ?_ hordered, ?_⟩
      · intro k hmem
        exact hnan ⟨ws, hws, hordered, k, hmem⟩
      · intro k hk
        have hnone : ws.lookup k = none := by
          cases hlook : ws.lookup k with
          | none => rfl
          | some y => exact absurd (List.mem_map_of_mem (mem_of_lookup hlook)) hk
        rw [lookup_setAll hnodup, hnone]
        rfl

/-- Texts to run examples with. -/
def plainTexts : Texts := ⟨asciiRuntime, fun _ => "", fun _ => ""⟩

theorem applyPetitionPayload_installsValid_iff_sample :
    InstallsValid baselineConfig (applyPetitionPayload plainTexts .none baselineConfig) ↔
      ¬ ReachesUnhashable plainTexts .none ∧ ¬ WritesNan plainTexts .none baselineConfig :=
  applyPetitionPayload_installsValid_iff plainTexts .none baselineConfig baselineConfig_valid

/-- A petition can set a threshold to NaN, and one whose type is a list raises a `TypeError`. -/
theorem not_installsValid : ValidConfig baselineConfig ∧
    ¬ InstallsValid baselineConfig (applyPetitionPayload plainTexts (.dict
        [("type", .str "UPDATE_PARAM"), ("key", .str "vcs_min_weight"), ("value", .float .nan)])
      baselineConfig) ∧
    ¬ InstallsValid baselineConfig (applyPetitionPayload plainTexts (.dict [("type", .list [])])
      baselineConfig) := by
  refine ⟨baselineConfig_valid, ?_, ?_⟩
  · intro h
    have hrun : okAnd (applyPetitionPayload plainTexts (.dict
        [("type", .str "UPDATE_PARAM"), ("key", .str "vcs_min_weight"), ("value", .float .nan)])
        baselineConfig)
        (fun r => num? (Dict.get r.newConfig "vcs_min_weight") = some .nan) = true := by
      decide +kernel
    obtain ⟨r, hr, hnan⟩ := okAnd_iff.mp hrun
    rw [hr] at h
    obtain ⟨-, hvalid, -⟩ := h
    obtain ⟨v, hv⟩ := Option.isSome_iff_exists.mp (Dict.lookup_isSome.mpr
      (by simpa using (hvalid.complete "vcs_min_weight").mpr (by decide +kernel)))
    obtain ⟨e, he⟩ : ∃ e, configSchema.lookup "vcs_min_weight" = some e := ⟨_, rfl⟩
    have hval : num? v = some .nan := by simpa [Dict.get, hv] using hnan
    have hv' : v = .float .nan := by
      cases v with
      | float x =>
        cases hval
        rfl
      | bool | int | none | str | list | dict => cases hval
    subst hv'
    exact not_admits_nan he (hvalid.admits _ _ e hv he)
  · rintro ⟨reason, hreason⟩
    cases hreason

end

end Vincent.Economy
