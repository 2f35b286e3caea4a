-- SUMMARY: Alias updates inside messages: wrapping and unwrapping.
import Vincent.Python.AsciiJson

/-!
# Alias updates inside messages

An alias update travels in the text of a message, as a JSON object around it. A
message without an update is sent as it is, and the receiver tells the two apart
by reading the text.
-/

namespace Vincent.Contacts.AliasPayload

open Vincent.Python

def pairwiseAliasPayloadKind : String := "sb_dm_alias_payload_v1"

/-- `json.loads`, and `dict` of a list that is not empty. They give `none` where they raise. -/
structure Json where
  loads : String → Option PyVal
  dictOfPairs : List PyVal → Option Dict

section Model

variable (rt : Runtime) (json : Json)

/-- The object around a message. -/
def frame (plaintext : String) (aliasUpdate : Dict) : Dict :=
  [("kind", .str pairwiseAliasPayloadKind), ("plaintext", .str plaintext),
    ("alias_update", .dict aliasUpdate)]

def buildPairwiseAliasPayload (plaintext : String) : Option Dict → String
  | none => plaintext
  | some aliasUpdate =>
    if aliasUpdate = [] then plaintext else (PyVal.dict (frame plaintext aliasUpdate)).asciiDumps rt

/-- `dict(v or {})`. -/
def dictOf (v : PyVal) : Option Dict :=
  match v.or (.dict []) with
  | .dict kvs => some kvs
  | .list xs => json.dictOfPairs xs
  | _ => none

/-- `_unwrap_pairwise_alias_payload`, or `none` where it raises. -/
def unwrapPairwiseAliasPayload (text : String) : Option (String × Option Dict) :=
  if startsWith text "\x7b" then
    match json.loads text with
    | some (.dict payload) =>
      if Dict.text rt payload "kind" = pairwiseAliasPayloadKind then
        (dictOf json (Dict.get payload "alias_update")).map fun update =>
          (Dict.text rt payload "plaintext", some update)
      else some (text, none)
    | _ => some (text, none)
  else some (text, none)

/-- The text is read as an object of the kind of the wrappers. -/
def IsWrapper (text : String) : Prop :=
  startsWith text "\x7b" = true ∧ ∃ payload, json.loads text = some (.dict payload) ∧
    Dict.text rt payload "kind" = pairwiseAliasPayloadKind

/-- The receiver gets the message and the update, with the keys of its objects in order. -/
def Carried (plaintext : String) (aliasUpdate : Option Dict) : Prop :=
  ∃ received, unwrapPairwiseAliasPayload rt json (buildPairwiseAliasPayload rt plaintext aliasUpdate) =
    some (plaintext, received) ∧ received.map .dict = aliasUpdate.map fun u => (PyVal.dict u).sorted

end Model

/-- No object in the value has a key twice. -/
inductive DistinctKeys : PyVal → Prop
  | atom {v : PyVal} (h : v.atom = true) : DistinctKeys v
  | str (s : String) : DistinctKeys (.str s)
  | list {xs : List PyVal} (h : ∀ x ∈ xs, DistinctKeys x) : DistinctKeys (.list xs)
  | dict {kvs : Dict} (hkeys : (kvs.map Prod.fst).Nodup) (h : ∀ kv ∈ kvs, DistinctKeys kv.2) :
    DistinctKeys (.dict kvs)

/-- `json.loads` reads what `json.dumps` writes, with the keys as they were sorted. -/
def Json.ReadsBack (rt : Runtime) (json : Json) : Prop :=
  ∀ v, DistinctKeys v → json.loads (v.asciiDumps rt) = some v.sorted

section

variable {rt : Runtime} {json : Json} {text plaintext : String} {update : Dict}

theorem frame_distinctKeys (h : DistinctKeys (.dict update)) :
    DistinctKeys (.dict (frame plaintext update)) := by
  refine .dict (by simp [frame]) fun kv hkv => ?_
  simp only [frame, List.mem_cons, List.not_mem_nil, or_false] at hkv
  rcases hkv with rfl | rfl | rfl
  · exact .str _
  · exact .str _
  · exact h

theorem sorted_frame : (PyVal.dict (frame plaintext update)).sorted =
    .dict [("alias_update", (PyVal.dict update).sorted), ("kind", .str pairwiseAliasPayloadKind),
      ("plaintext", .str plaintext)] := by
  have hkind : ("kind" : String) ≤ "plaintext" := by decide
  have hkind' : ¬ ("kind" : String) ≤ "alias_update" := by decide
  have hplain : ¬ ("plaintext" : String) ≤ "alias_update" := by decide
  simp only [frame, PyVal.sorted, PyVal.sortedItems, List.insertionSort_cons, List.insertionSort_nil,
    List.orderedInsert, if_pos hkind, if_neg hkind', if_neg hplain]

theorem startsWith_asciiDumps (kvs : Dict) :
    startsWith ((PyVal.dict kvs).asciiDumps rt) "\x7b" = true := by
  have hbrace : asciiEscape '\x7b' = ['\x7b'] := by decide
  rw [startsWith, PyVal.asciiDumps, String.toList_ofList, PyVal.toList_dumps_dict, List.flatMap_cons,
    hbrace]
  simp [List.isPrefixOf]

theorem unwrap_of_not_isWrapper (h : ¬ IsWrapper rt json text) :
    unwrapPairwiseAliasPayload rt json text = some (text, none) := by
  unfold unwrapPairwiseAliasPayload
  split_ifs with hbrace
  · split
    · rename_i payload hloads
      exact if_neg fun hkind => h ⟨hbrace, payload, hloads, hkind⟩
    · rfl
  · rfl

/-- What is read as a wrapper comes out with an update, if it comes out. -/
theorem unwrap_of_isWrapper (h : IsWrapper rt json text) (received : String) :
    unwrapPairwiseAliasPayload rt json text ≠ some (received, none) := by
  obtain ⟨hbrace, payload, hloads, hkind⟩ := h
  unfold unwrapPairwiseAliasPayload
  rw [if_pos hbrace, hloads]
  dsimp only
  rw [if_pos hkind]
  cases dictOf json (Dict.get payload "alias_update") <;> simp

theorem sorted_dict_ne_nil (h : update ≠ []) :
    ∃ kvs, (PyVal.dict update).sorted = .dict kvs ∧ kvs ≠ [] := by
  refine ⟨_, rfl, fun hnil => h ?_⟩
  have hlen := congrArg List.length hnil
  rwa [List.length_insertionSort, PyVal.sortedItems_eq, List.length_map, List.length_nil,
    List.length_eq_zero_iff] at hlen

theorem unwrap_build (hjson : json.ReadsBack rt) (hne : update ≠ [])
    (hkeys : DistinctKeys (.dict update)) : ∃ received, unwrapPairwiseAliasPayload rt json
      (buildPairwiseAliasPayload rt plaintext (some update)) = some (plaintext, some received) ∧
        PyVal.dict received = (PyVal.dict update).sorted := by
  obtain ⟨kvs, hsorted, hkvs⟩ := sorted_dict_ne_nil hne
  refine ⟨kvs, ?_, hsorted.symm⟩
  have hbuild : buildPairwiseAliasPayload rt plaintext (some update) =
      (PyVal.dict (frame plaintext update)).asciiDumps rt := if_neg hne
  rw [hbuild, unwrapPairwiseAliasPayload, if_pos (startsWith_asciiDumps _), hjson _ (frame_distinctKeys hkeys), sorted_frame,
    hsorted]
  dsimp only
  rw [Dict.text_of_str (s := pairwiseAliasPayloadKind) rfl, if_pos rfl,
    Dict.text_of_str (s := plaintext) rfl]
  have hdict : dictOf json (.dict kvs) = some kvs := by
    simp [dictOf, PyVal.or, PyVal.truthy, hkvs]
  exact congrArg (Option.map _) hdict

/-- A message is carried as it is, unless it goes without an update and is itself a wrapper. -/
theorem carried_iff (hjson : json.ReadsBack rt) (plaintext : String) (aliasUpdate : Option Dict)
    (hupdate : ∀ u ∈ aliasUpdate, u ≠ [] ∧ DistinctKeys (.dict u)) :
    Carried rt json plaintext aliasUpdate ↔
      aliasUpdate ≠ none ∨ ¬ IsWrapper rt json plaintext := by
  cases aliasUpdate with
  | none =>
    constructor
    · rintro ⟨received, hreceived, hnone⟩
      refine .inr fun hwrapper => unwrap_of_isWrapper hwrapper plaintext ?_
      rwa [Option.map_eq_none_iff.mp hnone] at hreceived
    · rintro (h | h)
      · exact absurd rfl h
      · exact ⟨none, unwrap_of_not_isWrapper h, rfl⟩
  | some u =>
    obtain ⟨hne, hkeys⟩ := hupdate u rfl
    obtain ⟨received, hreceived, heq⟩ := unwrap_build hjson hne hkeys
    exact iff_of_true ⟨some received, hreceived, congrArg some heq⟩ (.inl (by simp))

end

/-! ## A wrapper that is copied -/

open Classical in
/-- Reads exactly what `json.dumps` writes. -/
noncomputable def inverseJson : Json where
  loads text :=
    if h : ∃ v : PyVal, v.asciiDumps asciiRuntime = text then some h.choose.sorted else none
  dictOfPairs _ := none

theorem inverseJson_readsBack : inverseJson.ReadsBack asciiRuntime := by
  intro v _
  have hv : ∃ w : PyVal, w.asciiDumps asciiRuntime = v.asciiDumps asciiRuntime := ⟨v, rfl⟩
  refine (dif_pos hv).trans (congrArg some ?_)
  exact PyVal.asciiDumps_injective floatTexts_ascii hv.choose_spec

theorem seqUpdate_distinctKeys : DistinctKeys (.dict [("seq", .int 1)]) := by
  refine .dict (by simp) fun kv hkv => ?_
  obtain rfl := List.mem_singleton.mp hkv
  exact .atom rfl

theorem carried_seqUpdate : Carried asciiRuntime inverseJson "hi" (some [("seq", .int 1)]) ↔
    (some [("seq", PyVal.int 1)] : Option Dict) ≠ none ∨ ¬ IsWrapper asciiRuntime inverseJson "hi" := by
  refine carried_iff inverseJson_readsBack "hi" _ fun u hu => ?_
  obtain rfl := Option.some.inj hu
  exact ⟨List.cons_ne_nil _ _, seqUpdate_distinctKeys⟩

/-- The text of a message that carried an update, sent as a message of its own. -/
theorem not_carried : ¬ ∀ (rt : Runtime) (json : Json), json.ReadsBack rt →
    ∀ (plaintext : String) (aliasUpdate : Option Dict),
      (∀ u ∈ aliasUpdate, u ≠ [] ∧ DistinctKeys (.dict u)) → Carried rt json plaintext aliasUpdate := by
  intro h
  let copied := buildPairwiseAliasPayload asciiRuntime "hi" (some [("seq", .int 1)])
  obtain ⟨received, hreceived, hnone⟩ :=
    h asciiRuntime inverseJson inverseJson_readsBack copied none (by simp)
  obtain ⟨update, hupdate, -⟩ := unwrap_build inverseJson_readsBack
    (List.cons_ne_nil _ _) seqUpdate_distinctKeys
  obtain rfl := Option.map_eq_none_iff.mp hnone
  have hsecond := congrArg (Option.map Prod.snd) (hreceived.symm.trans hupdate)
  simp at hsecond

end Vincent.Contacts.AliasPayload
