-- SUMMARY: DH keys and prekey bundles on a relay, and their sequences.
import Vincent.Dm.Relay
import Vincent.General.Run
import Mathlib

/-!
# Published keys

A key is accepted above the stored sequence. An entry that was dropped by its age, or
that a reload does not find in the file, is forgotten with its sequence. Where neither
happens, the accepted sequences rise.
-/

namespace Vincent.Dm

open Vincent.Python Vincent.Run

section Model

variable (env : RelayEnv)

def bundleFingerprint (dhPubKey dhAlgo publicKey publicKeyAlgo protocolVersion : String) : String :=
  env.sha256 ("|".intercalate [dhPubKey, dhAlgo, publicKey, publicKeyAlgo, protocolVersion])

/-! ## DH keys -/

/-- The arguments of `register_dh_key`. -/
structure DhRegistration where
  agentId : String
  dhPubKey : String := ""
  dhAlgo : String := ""
  timestamp : Int
  signature : String := ""
  publicKey : String := ""
  publicKeyAlgo : String := ""
  protocolVersion : String := ""
  sequence : Int

/-- The entry that is stored for a registration. -/
def DhRegistration.entry (r : DhRegistration) : DhKey where
  dhPubKey := r.dhPubKey
  dhAlgo := r.dhAlgo
  timestamp := r.timestamp
  signature := r.signature
  publicKey := r.publicKey
  publicKeyAlgo := r.publicKeyAlgo
  protocolVersion := r.protocolVersion
  sequence := r.sequence
  bundleFingerprint :=
    bundleFingerprint env r.dhPubKey r.dhAlgo r.publicKey r.publicKeyAlgo r.protocolVersion

/-- Why a registration is rejected, if it is. -/
def rejectDhKey (existing : DhKey) (r : DhRegistration) : Option String :=
  if r.sequence ≤ existing.sequence then some "DM key replay or rollback rejected"
  else if r.timestamp < existing.timestamp then
    some "DM key timestamp is older than the current bundle"
  else none

/-- `register_dh_key`, with the accepted sequence and the fingerprint. -/
def registerDhKey (r : DhRegistration) (s : Relay) : Relay × Except String (Int × String) :=
  match (s.dhKeys r.agentId).bind fun existing => rejectDhKey existing r with
  | some detail => (s, .error detail)
  | none =>
    let entry := r.entry env
    ({ s with dhKeys := Function.update s.dhKeys r.agentId (some entry) },
      .ok (r.sequence, entry.bundleFingerprint))

/-! ## Prekey bundles -/

/-- A lookup handle that comes with a bundle. -/
structure AliasRequest where
  handle : String
  expiresAt : Int := 0
  maxUses : Int := 0
  useCount : Int := 0
  lastUsedAt : ℚ := 0

/-- The arguments of `register_prekey_bundle`. -/
structure BundleRegistration where
  agentId : String
  bundle : Dict
  signature : String := ""
  publicKey : String := ""
  publicKeyAlgo : String := ""
  protocolVersion : String := ""
  sequence : Int
  lookupAliases : List AliasRequest := []

/-- `int(bundle.get("signed_at", 0) or 0)` of a bundle that was validated. -/
def signedAt (bundle : Dict) : Int :=
  match Dict.get bundle "signed_at" with
  | .int n => n
  | _ => 0

def advancePrekeyTransparency (now : ℚ) (r : BundleRegistration)
    (existing : Option PrekeyTransparency) : PrekeyTransparency :=
  let previousHead := env.rt.lower (strip ((existing.map (·.head)).getD ""))
  let fingerprint := env.transparencyFingerprint [("agent_id", .str r.agentId),
    ("bundle", .dict r.bundle), ("signature", .str r.signature), ("public_key", .str r.publicKey),
    ("public_key_algo", .str r.publicKeyAlgo), ("protocol_version", .str r.protocolVersion),
    ("sequence", .int r.sequence)]
  let size := (existing.map (·.size)).getD 0 + 1
  let head := env.sha256 (canonicalJson env.rt [("agent_id", .str r.agentId),
    ("sequence", .int r.sequence), ("signed_at", .int (signedAt r.bundle)),
    ("publication_fingerprint", .str fingerprint), ("previous_head", .str previousHead),
    ("index", .int size)])
  let log := (existing.map (·.log)).getD [] ++
    [{ index := size, sequence := r.sequence, signedAt := signedAt r.bundle,
       publicationFingerprint := fingerprint, previousHead, head, observedAt := now.floor }]
  { head, size, fingerprint, log := log.drop (log.length - 16) }

/-- The entry that is stored for a registration. -/
def BundleRegistration.entry (now : ℚ) (r : BundleRegistration) (existing : Option PrekeyBundle) :
    PrekeyBundle where
  bundle := r.bundle
  signature := r.signature
  publicKey := r.publicKey
  publicKeyAlgo := r.publicKeyAlgo
  protocolVersion := r.protocolVersion
  sequence := r.sequence
  updatedAt := now.floor
  transparency := advancePrekeyTransparency env now r (existing.map (·.transparency))

/-- One handle of a registration is set. -/
def setAlias (agentId : String) (updatedAt : ℚ) (aliases : String → Option LookupAlias)
    (request : AliasRequest) : String → Option LookupAlias :=
  if strip request.handle = "" then aliases
  else Function.update aliases (strip request.handle) (some {
    agentId := strip agentId, updatedAt, expiresAt := max 0 request.expiresAt
    maxUses := max 0 request.maxUses, useCount := max 0 request.useCount
    lastUsedAt := request.lastUsedAt })

/-- `register_prekey_bundle`, with the accepted sequence and what it adds to the log. -/
def registerPrekeyBundle (now : ℚ) (r : BundleRegistration) (s : Relay) :
    Relay × Except String (Int × PrekeyTransparency) :=
  match env.validateBundleRecord now r.bundle r.publicKey r.agentId with
  | .error reason => (s, .error reason)
  | .ok () =>
    let existing := s.prekeyBundles r.agentId
    if existing.any fun e => r.sequence ≤ e.sequence then
      (s, .error "Prekey bundle replay or rollback rejected")
    else
      let entry := r.entry env now existing
      ({ s with
          prekeyBundles := Function.update s.prekeyBundles r.agentId (some entry)
          prekeyLookupAliases := (r.lookupAliases.take 16).foldl
            (setAlias r.agentId entry.updatedAt) s.prekeyLookupAliases },
        .ok (r.sequence, entry.transparency))

/-- `consume_one_time_prekey`: the entry without its first one-time prekey, and that prekey. -/
def consumeOneTimePrekey (now : ℚ) (agentId : String) (s : Relay) :
    Relay × Option (PrekeyBundle × Option PyVal) :=
  match s.prekeyBundles agentId with
  | none => (s, none)
  | some stored =>
    match Dict.get stored.bundle "one_time_prekeys" with
    | .list (claimed :: otks) =>
      let bundle := Dict.set (Dict.set stored.bundle "one_time_prekeys" (.list otks))
        "one_time_prekey_count" (.int otks.length)
      let stored := { stored with bundle, updatedAt := now.floor }
      ({ s with prekeyBundles := Function.update s.prekeyBundles agentId (some stored) },
        some (stored, some claimed))
    | _ => (s, some (stored, none))

/-! ## Lookups -/

def getDhKey (now : ℚ) (agentId : String) (s : Relay) : Relay × Option DhKey :=
  let s := pruneStaleMetadata env now s
  (s, s.dhKeys agentId)

def getPrekeyBundle (now : ℚ) (agentId : String) (s : Relay) : Relay × Option PrekeyBundle :=
  let s := pruneStaleMetadata env now s
  (s, s.prekeyBundles agentId)

/-- `_resolve_prekey_lookup_alias`: a use of the handle is counted. -/
def resolvePrekeyLookupAlias (now : ℚ) (lookupToken : String) (s : Relay) : Relay × String :=
  let handle := strip lookupToken
  match s.prekeyLookupAliases handle with
  | none => (s, "")
  | some record =>
    if handle = "" ∨ record.agentId = "" then (s, "")
    else if (0 < record.expiresAt ∧ (record.expiresAt : ℚ) < now) ∨
        (0 < record.maxUses ∧ record.maxUses ≤ record.useCount) then
      ({ s with prekeyLookupAliases := Function.update s.prekeyLookupAliases handle none }, "")
    else
      ({ s with prekeyLookupAliases := Function.update s.prekeyLookupAliases handle (some
          { record with useCount := record.useCount + 1, lastUsedAt := now }) }, record.agentId)

def getDhKeyByLookup (now : ℚ) (lookupToken : String) (s : Relay) :
    Relay × Option (DhKey × String) :=
  let (s, resolved) := resolvePrekeyLookupAlias now lookupToken (pruneStaleMetadata env now s)
  (s, if resolved = "" then none else (s.dhKeys resolved).map fun stored => (stored, resolved))

def getPrekeyBundleByLookup (now : ℚ) (lookupToken : String) (s : Relay) :
    Relay × Option (PrekeyBundle × String) :=
  let (s, resolved) := resolvePrekeyLookupAlias now lookupToken (pruneStaleMetadata env now s)
  (s, if resolved = "" then none else (s.prekeyBundles resolved).map fun stored => (stored, resolved))

/-! ## Runs -/

/-- A relay with its file. -/
structure RelayNode where
  relay : Relay
  file : Option RelayFile := none

/-- A flush: the metadata are pruned, and the tables written. -/
def RelayNode.flush (now : ℚ) (s : RelayNode) : RelayNode :=
  let relay := pruneStaleMetadata env now s.relay
  { relay, file := some (filePayload env relay) }

/-- A new process over the same file. -/
def RelayNode.reload (now : ℚ) (s : RelayNode) : RelayNode :=
  { s with relay := match s.file with
      | none => {}
      | some file => load env now file }

/-- What is done with the keys of a relay. -/
inductive KeyAction where
  | registerDhKey (r : DhRegistration)
  | registerPrekeyBundle (r : BundleRegistration)
  | consumeOneTimePrekey (agentId : String)
  | getDhKey (agentId : String)
  | getDhKeyByLookup (lookupToken : String)
  | getPrekeyBundle (agentId : String)
  | getPrekeyBundleByLookup (lookupToken : String)
  | flush
  | reload

/-- An action at a time. -/
def keyStep (s : RelayNode) : ℚ × KeyAction → RelayNode
  | (_, .registerDhKey r) => { s with relay := (registerDhKey env r s.relay).1 }
  | (now, .registerPrekeyBundle r) => { s with relay := (registerPrekeyBundle env now r s.relay).1 }
  | (now, .consumeOneTimePrekey agentId) =>
    { s with relay := (consumeOneTimePrekey now agentId s.relay).1 }
  | (now, .getDhKey agentId) => { s with relay := (getDhKey env now agentId s.relay).1 }
  | (now, .getDhKeyByLookup token) => { s with relay := (getDhKeyByLookup env now token s.relay).1 }
  | (now, .getPrekeyBundle agentId) => { s with relay := (getPrekeyBundle env now agentId s.relay).1 }
  | (now, .getPrekeyBundleByLookup token) =>
    { s with relay := (getPrekeyBundleByLookup env now token s.relay).1 }
  | (now, .flush) => s.flush env now
  | (now, .reload) => s.reload env now

/-- The sequence that `register_dh_key` accepts for the agent, if it does. -/
def acceptedDhSequence (agentId : String) (s : RelayNode) : ℚ × KeyAction → Option Int
  | (_, .registerDhKey r) =>
    if r.agentId = agentId then ((registerDhKey env r s.relay).2.toOption).map Prod.fst else none
  | _ => none

/-- The sequence that `register_prekey_bundle` accepts for the agent, if it does. -/
def acceptedBundleSequence (agentId : String) (s : RelayNode) : ℚ × KeyAction → Option Int
  | (now, .registerPrekeyBundle r) =>
    if r.agentId = agentId then ((registerPrekeyBundle env now r s.relay).2.toOption).map Prod.fst
    else none
  | _ => none

end Model

/-! ## What is kept -/

section

variable {env : RelayEnv} {now : ℚ} {agentId : String} {s : Relay} {node : RelayNode}

/-- The entries of the agent are not past their age. -/
structure Unstale (env : RelayEnv) (now : ℚ) (agentId : String) (s : Relay) : Prop where
  dhKey : ∀ e, s.dhKeys agentId = some e → e.stale env now = false
  bundle : ∀ e, s.prekeyBundles agentId = some e → e.stale env now = false

/-- No entry of the agent is past its age where the action prunes, and a reload finds what the relay
holds. -/
def KeepsKeys (env : RelayEnv) (agentId : String) (node : RelayNode) : ℚ × KeyAction → Prop
  | (_, .registerDhKey _) | (_, .registerPrekeyBundle _) | (_, .consumeOneTimePrekey _) => True
  | (now, .getDhKey _) | (now, .getDhKeyByLookup _) | (now, .getPrekeyBundle _)
  | (now, .getPrekeyBundleByLookup _) | (now, .flush) => Unstale env now agentId node.relay
  | (now, .reload) => Unstale env now agentId node.relay ∧ ∃ file, node.file = some file ∧
      file.dhKeys agentId = node.relay.dhKeys agentId ∧
      file.prekeyBundles agentId = node.relay.prekeyBundles agentId

theorem prune_dhKeys (h : Unstale env now agentId s) :
    (pruneStaleMetadata env now s).dhKeys agentId = s.dhKeys agentId := by
  change (s.dhKeys agentId).filter _ = _
  cases he : s.dhKeys agentId with
  | none => rfl
  | some e => simp [h.dhKey e he]

theorem prune_prekeyBundles (h : Unstale env now agentId s) :
    (pruneStaleMetadata env now s).prekeyBundles agentId = s.prekeyBundles agentId := by
  change (s.prekeyBundles agentId).filter _ = _
  cases he : s.prekeyBundles agentId with
  | none => rfl
  | some e => simp [h.bundle e he]

theorem resolve_keys {token : String} :
    (resolvePrekeyLookupAlias now token s).1.dhKeys = s.dhKeys ∧
      (resolvePrekeyLookupAlias now token s).1.prekeyBundles = s.prekeyBundles := by
  unfold resolvePrekeyLookupAlias
  dsimp only
  split
  · exact ⟨rfl, rfl⟩
  · split_ifs <;> exact ⟨rfl, rfl⟩

theorem load_keys {file : RelayFile} (hdh : file.dhKeys agentId = s.dhKeys agentId)
    (hbundle : file.prekeyBundles agentId = s.prekeyBundles agentId)
    (h : Unstale env now agentId s) :
    (load env now file).dhKeys agentId = s.dhKeys agentId ∧
      (load env now file).prekeyBundles agentId = s.prekeyBundles agentId := by
  unfold load
  rw [prune_dhKeys ⟨?_, ?_⟩, prune_prekeyBundles ⟨?_, ?_⟩]
  · exact ⟨hdh, hbundle⟩
  all_goals
    intro e he
    first
    | exact h.dhKey e (hdh ▸ he)
    | exact h.bundle e (hbundle ▸ he)

/-- Every action but a registration keeps the entries of the agent, up to its one-time prekeys. -/
theorem keyStep_keeps {a : ℚ × KeyAction} (h : KeepsKeys env agentId node a) :
    (acceptedDhSequence env agentId node a = none →
      (keyStep env node a).relay.dhKeys agentId = node.relay.dhKeys agentId) ∧
    (acceptedBundleSequence env agentId node a = none →
      ((keyStep env node a).relay.prekeyBundles agentId).map PrekeyBundle.sequence =
        (node.relay.prekeyBundles agentId).map PrekeyBundle.sequence) := by
  obtain ⟨now, a⟩ := a
  cases a with
  | registerDhKey r =>
    refine ⟨fun hnone => ?_, fun _ => ?_⟩
    · simp only [keyStep, acceptedDhSequence, registerDhKey] at hnone ⊢
      split
      · rfl
      · rename_i hok
        rw [hok] at hnone
        have hne : r.agentId ≠ agentId := by
          rintro rfl
          simp [Except.toOption] at hnone
        exact Function.update_of_ne hne.symm _ _
    · simp only [keyStep, registerDhKey]
      split <;> rfl
  | registerPrekeyBundle r =>
    refine ⟨fun _ => ?_, fun hnone => ?_⟩
    · simp only [keyStep, registerPrekeyBundle]
      split
      · rfl
      · split <;> rfl
    · simp only [keyStep, acceptedBundleSequence, registerPrekeyBundle] at hnone ⊢
      split
      · rfl
      · rename_i hvalid
        rw [hvalid] at hnone
        dsimp only at hnone
        split
        · rfl
        · rename_i hrises
          rw [if_neg hrises] at hnone
          have hne : r.agentId ≠ agentId := by
            rintro rfl
            simp [Except.toOption] at hnone
          exact congrArg _ (Function.update_of_ne hne.symm _ _)
  | consumeOneTimePrekey a =>
    refine ⟨fun _ => ?_, fun _ => ?_⟩
    · simp only [keyStep, consumeOneTimePrekey]
      split
      · rfl
      · split <;> rfl
    · simp only [keyStep, consumeOneTimePrekey]
      split
      · rfl
      · rename_i stored hstored
        split
        · rcases eq_or_ne agentId a with rfl | hne
          · simp [hstored]
          · exact congrArg _ (Function.update_of_ne hne _ _)
        · rfl
  | getDhKey a => exact ⟨fun _ => prune_dhKeys h, fun _ => congrArg _ (prune_prekeyBundles h)⟩
  | getPrekeyBundle a =>
    exact ⟨fun _ => prune_dhKeys h, fun _ => congrArg _ (prune_prekeyBundles h)⟩
  | getDhKeyByLookup token =>
    refine ⟨fun _ => ?_, fun _ => ?_⟩
    · exact (congrFun resolve_keys.1 agentId).trans (prune_dhKeys h)
    · exact congrArg _ ((congrFun resolve_keys.2 agentId).trans (prune_prekeyBundles h))
  | getPrekeyBundleByLookup token =>
    refine ⟨fun _ => ?_, fun _ => ?_⟩
    · exact (congrFun resolve_keys.1 agentId).trans (prune_dhKeys h)
    · exact congrArg _ ((congrFun resolve_keys.2 agentId).trans (prune_prekeyBundles h))
  | flush => exact ⟨fun _ => prune_dhKeys h, fun _ => congrArg _ (prune_prekeyBundles h)⟩
  | reload =>
    obtain ⟨hfresh, file, hfile, hdh, hbundle⟩ := h
    have hloaded := load_keys hdh hbundle hfresh
    simp only [keyStep, RelayNode.reload, hfile]
    exact ⟨fun _ => hloaded.1, fun _ => congrArg _ hloaded.2⟩

/-! ## What rises -/

theorem registerDhKey_accepts {r : DhRegistration} {sequence : Int}
    (h : ((registerDhKey env r s).2.toOption).map Prod.fst = some sequence) :
    ((registerDhKey env r s).1.dhKeys r.agentId).map DhKey.sequence = some sequence ∧
      ∀ e, s.dhKeys r.agentId = some e → e.sequence < sequence := by
  unfold registerDhKey at h ⊢
  split at h
  · cases h
  · rename_i hok
    cases h
    refine ⟨by simp [DhRegistration.entry], fun e he => ?_⟩
    rw [he, Option.bind_some, rejectDhKey] at hok
    split_ifs at hok with hseq
    exact not_le.mp hseq

theorem registerPrekeyBundle_accepts {r : BundleRegistration} {sequence : Int}
    (h : ((registerPrekeyBundle env now r s).2.toOption).map Prod.fst = some sequence) :
    ((registerPrekeyBundle env now r s).1.prekeyBundles r.agentId).map PrekeyBundle.sequence =
        some sequence ∧
      ∀ e, s.prekeyBundles r.agentId = some e → e.sequence < sequence := by
  unfold registerPrekeyBundle at h ⊢
  cases hvalid : env.validateBundleRecord now r.bundle r.publicKey r.agentId with
  | error reason =>
    rw [hvalid] at h
    cases h
  | ok u =>
    rw [hvalid] at h
    dsimp only at h ⊢
    split at h
    · cases h
    · rename_i hrises
      cases h
      rw [if_neg hrises]
      refine ⟨by simp [BundleRegistration.entry], fun e he => ?_⟩
      rw [he] at hrises
      simpa using hrises

theorem dhKeys_rise : Rises (keyStep env) (KeepsKeys env agentId)
    (fun node => (node.relay.dhKeys agentId).map DhKey.sequence)
    (acceptedDhSequence env agentId) where
  stores node a sequence _ hout := by
    obtain ⟨now, a⟩ := a
    cases a with
    | registerDhKey r =>
      dsimp only [acceptedDhSequence] at hout
      split_ifs at hout with hagent
      subst hagent
      exact (registerDhKey_accepts hout).1
    | _ => cases hout
  above node a sequence held _ hout hheld := by
    obtain ⟨now, a⟩ := a
    cases a with
    | registerDhKey r =>
      dsimp only [acceptedDhSequence] at hout
      split_ifs at hout with hagent
      subst hagent
      obtain ⟨e, he, rfl⟩ := Option.map_eq_some_iff.mp hheld
      exact (registerDhKey_accepts hout).2 e he
    | _ => cases hout
  keeps node a held h hout hheld := by
    rw [(keyStep_keeps h).1 hout]
    exact hheld

theorem prekeyBundles_rise : Rises (keyStep env) (KeepsKeys env agentId)
    (fun node => (node.relay.prekeyBundles agentId).map PrekeyBundle.sequence)
    (acceptedBundleSequence env agentId) where
  stores node a sequence _ hout := by
    obtain ⟨now, a⟩ := a
    cases a with
    | registerPrekeyBundle r =>
      dsimp only [acceptedBundleSequence] at hout
      split_ifs at hout with hagent
      subst hagent
      exact (registerPrekeyBundle_accepts hout).1
    | _ => cases hout
  above node a sequence held _ hout hheld := by
    obtain ⟨now, a⟩ := a
    cases a with
    | registerPrekeyBundle r =>
      dsimp only [acceptedBundleSequence] at hout
      split_ifs at hout with hagent
      subst hagent
      obtain ⟨e, he, rfl⟩ := Option.map_eq_some_iff.mp hheld
      exact (registerPrekeyBundle_accepts hout).2 e he
    | _ => cases hout
  keeps node a held h hout hheld := by
    rw [(keyStep_keeps h).2 hout]
    exact hheld

end

/-- Where no entry of an agent is dropped, the sequences that are accepted for it rise. -/
theorem accepted_sequences_rise (env : RelayEnv) (agentId : String) (node : RelayNode)
    (run : List (ℚ × KeyAction)) (hrun : Along (keyStep env) (KeepsKeys env agentId) node run) :
    (outputs (keyStep env) (acceptedDhSequence env agentId) node run).Pairwise (· < ·) ∧
      (outputs (keyStep env) (acceptedBundleSequence env agentId) node run).Pairwise (· < ·) :=
  ⟨dhKeys_rise.pairwise hrun, prekeyBundles_rise.pairwise hrun⟩

def plainRelayConfig : RelayConfig := {}

/-- A relay to run examples on. -/
def plainRelayEnv : RelayEnv where
  rt := asciiRuntime
  cfg := plainRelayConfig
  sha256 s := "h" ++ String.ofList (s.toList.filter fun c => !isSpace c)
  sha256_ne_empty s := by simp [String.ext_iff]
  sha256_no_space s c hc := by
    have hc : c = 'h' ∨ c ∈ s.toList ∧ isSpace c = false := by simpa using hc
    rcases hc with rfl | hc
    · decide
    · exact hc.2
  tokenPepper := "pepper"
  validateBundleRecord _ _ _ _ := .ok ()
  transparencyFingerprint _ := "f"

theorem accepted_sequences_rise_sample :
    (outputs (keyStep plainRelayEnv) (acceptedDhSequence plainRelayEnv "ana") ⟨{}, none⟩
      [(100, .registerDhKey { agentId := "ana", timestamp := 90, sequence := 5 }),
        (101, .getDhKey "ana"),
        (102, .registerDhKey { agentId := "ana", timestamp := 95, sequence := 6 })]).Pairwise
        (· < ·) := by
  apply And.left
  apply accepted_sequences_rise plainRelayEnv "ana"
  refine ⟨trivial, ⟨?_, ?_⟩, trivial, trivial⟩
  · intro e he
    cases he
    decide +kernel
  · intro e he
    cases he

/-- A key with an old timestamp is dropped at the next lookup, and an older sequence accepted. -/
theorem not_accepted_sequences_rise :
    ¬ ∀ (env : RelayEnv) (agentId : String) (run : List (ℚ × KeyAction)),
      (run.map Prod.fst).Pairwise (· ≤ ·) →
        (outputs (keyStep env) (acceptedDhSequence env agentId) ⟨{}, none⟩ run).Pairwise
          (· < ·) := by
  intro h
  have hrun := h plainRelayEnv "ana"
    [(10000000, .registerDhKey { agentId := "ana", timestamp := 1, sequence := 5 }),
      (10000001, .getDhKey "ana"),
      (10000002, .registerDhKey { agentId := "ana", timestamp := 2, sequence := 3 })]
    (by decide +kernel)
  revert hrun
  decide +kernel

end Vincent.Dm
