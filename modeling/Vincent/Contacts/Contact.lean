-- SUMMARY: The contacts of a DM client: fields, normalization and operations.
import Vincent.General.Run
import Vincent.Mesh.Protocol

/-!
# DM contacts

A contact is a dict with fixed fields. Every operation reads all contacts, normalizes
one, changes some fields and writes it back normalized. A remote peer reaches a
contact through `observe_remote_prekey_identity` alone.
-/

namespace Vincent.Contacts

open Vincent.Python Vincent.Check

/-- What the contacts are kept in. -/
structure ContactEnv where
  rt : Runtime
  /-- `dead_drop_redact_label`. -/
  redactLabel : String → String
  /-- `derive_sas_phrase` of a peer, its DH key, a number of words and a reference. -/
  deriveSasPhrase : String → String → Int → String → Except String String
  /-- A text that is not empty once stripped and lowered stays so. -/
  lowered_ne : ∀ s, rt.lower (strip s) ≠ "" → rt.lower (strip (rt.lower (strip s))) ≠ ""

def trustLevels : List String :=
  ["unpinned", "tofu_pinned", "invite_pinned", "sas_verified", "mismatch", "continuity_broken"]

/-! ## Fields -/

/-- How `_normalize_contact` coerces a field. -/
inductive FieldKind where
  | text
  | algo
  | lowered
  | int
  | bool
  | trustLevel
  | aliases
  | identity
deriving DecidableEq

/-- The keys of `_default_contact()`. -/
def contactFields : List (String × FieldKind) :=
  [("alias", .text), ("blocked", .bool), ("dhPubKey", .text), ("dhAlgo", .text),
    ("sharedAlias", .text), ("sharedAliasCounter", .int), ("sharedAliasPublicKey", .text),
    ("sharedAliasPublicKeyAlgo", .algo), ("dmIdentityId", .identity),
    ("previousSharedAliases", .aliases), ("pendingSharedAlias", .text),
    ("pendingSharedAliasCounter", .int), ("pendingSharedAliasPublicKey", .text),
    ("pendingSharedAliasPublicKeyAlgo", .algo), ("pendingSharedAliasGraceMs", .int),
    ("sharedAliasGraceUntil", .int), ("sharedAliasRotatedAt", .int),
    ("acceptedPreviousAlias", .text), ("acceptedPreviousAliasCounter", .int),
    ("acceptedPreviousAliasPublicKey", .text), ("acceptedPreviousAliasPublicKeyAlgo", .algo),
    ("acceptedPreviousGraceUntil", .int), ("acceptedPreviousHardGraceUntil", .int),
    ("acceptedPreviousAwaitingReply", .bool), ("aliasBindingSeq", .int),
    ("aliasBindingPendingReason", .text), ("aliasBindingPreparedAt", .int),
    ("aliasGateJoinAppliedSeq", .int), ("trust_level", .trustLevel), ("verify_inband", .bool),
    ("verify_registry", .bool), ("verified", .bool), ("verify_mismatch", .bool),
    ("verified_at", .int), ("invitePinnedTrustFingerprint", .lowered),
    ("invitePinnedNodeId", .text), ("invitePinnedPublicKey", .text),
    ("invitePinnedPublicKeyAlgo", .text), ("invitePinnedDhPubKey", .text),
    ("invitePinnedDhAlgo", .text), ("invitePinnedPrekeyLookupHandle", .text),
    ("invitePinnedRootFingerprint", .lowered), ("invitePinnedRootManifestFingerprint", .lowered),
    ("invitePinnedRootWitnessPolicyFingerprint", .lowered),
    ("invitePinnedRootWitnessThreshold", .int), ("invitePinnedRootWitnessCount", .int),
    ("invitePinnedRootWitnessDomainCount", .int), ("invitePinnedRootManifestGeneration", .int),
    ("invitePinnedRootRotationProven", .bool), ("invitePinnedRootNodeId", .text),
    ("invitePinnedRootPublicKey", .text), ("invitePinnedRootPublicKeyAlgo", .text),
    ("invitePinnedIssuedAt", .int), ("invitePinnedExpiresAt", .int), ("invitePinnedAt", .int),
    ("remotePrekeyFingerprint", .text), ("remotePrekeyObservedFingerprint", .text),
    ("remotePrekeyRootFingerprint", .lowered), ("remotePrekeyRootManifestFingerprint", .lowered),
    ("remotePrekeyRootWitnessPolicyFingerprint", .lowered),
    ("remotePrekeyRootWitnessThreshold", .int), ("remotePrekeyRootWitnessCount", .int),
    ("remotePrekeyRootWitnessDomainCount", .int), ("remotePrekeyRootManifestGeneration", .int),
    ("remotePrekeyRootRotationProven", .bool), ("remotePrekeyObservedRootFingerprint", .lowered),
    ("remotePrekeyObservedRootManifestFingerprint", .lowered),
    ("remotePrekeyObservedRootWitnessPolicyFingerprint", .lowered),
    ("remotePrekeyObservedRootWitnessThreshold", .int),
    ("remotePrekeyObservedRootWitnessCount", .int),
    ("remotePrekeyObservedRootWitnessDomainCount", .int),
    ("remotePrekeyObservedRootManifestGeneration", .int),
    ("remotePrekeyObservedRootRotationProven", .bool), ("remotePrekeyRootNodeId", .text),
    ("remotePrekeyRootPublicKey", .text), ("remotePrekeyRootPublicKeyAlgo", .text),
    ("remotePrekeyRootPinnedAt", .int), ("remotePrekeyRootLastSeenAt", .int),
    ("remotePrekeyRootMismatch", .bool), ("remotePrekeyPinnedAt", .int),
    ("remotePrekeyLastSeenAt", .int), ("remotePrekeySequence", .int),
    ("remotePrekeySignedAt", .int), ("remotePrekeyMismatch", .bool),
    ("remotePrekeyTransparencyHead", .lowered), ("remotePrekeyTransparencySize", .int),
    ("remotePrekeyTransparencySeenAt", .int), ("remotePrekeyTransparencyConflict", .bool),
    ("remotePrekeyLookupMode", .lowered), ("witness_count", .int), ("witness_checked_at", .int),
    ("vouch_count", .int), ("vouch_checked_at", .int), ("updated_at", .int)]

def clientMutableContactFields : List String :=
  ["alias", "blocked", "dhPubKey", "dhAlgo", "sharedAlias", "sharedAliasCounter",
    "sharedAliasPublicKey", "sharedAliasPublicKeyAlgo", "previousSharedAliases",
    "pendingSharedAlias", "pendingSharedAliasCounter", "pendingSharedAliasPublicKey",
    "pendingSharedAliasPublicKeyAlgo", "pendingSharedAliasGraceMs", "sharedAliasGraceUntil",
    "sharedAliasRotatedAt", "acceptedPreviousAlias", "acceptedPreviousAliasCounter",
    "acceptedPreviousAliasPublicKey", "acceptedPreviousAliasPublicKeyAlgo",
    "acceptedPreviousGraceUntil", "acceptedPreviousHardGraceUntil",
    "acceptedPreviousAwaitingReply", "aliasBindingSeq", "aliasBindingPendingReason",
    "aliasBindingPreparedAt", "aliasGateJoinAppliedSeq", "verify_mismatch",
    "remotePrekeyTransparencyHead", "remotePrekeyTransparencySize",
    "remotePrekeyTransparencySeenAt", "remotePrekeyTransparencyConflict", "remotePrekeyLookupMode",
    "witness_count", "witness_checked_at", "vouch_count", "vouch_checked_at"]

/-- `d.update(kvs)`. -/
def update (d kvs : Dict) : Dict := kvs.foldl (fun d kv => Dict.set d kv.1 kv.2) d

def updateIf (p : Prop) [Decidable p] (d kvs : Dict) : Dict := if p then update d kvs else d

/-- `int(v)`. -/
def pyInt (rt : Runtime) (v : PyVal) : Except String Int :=
  match v with
  | .bool b => .ok (if b then 1 else 0)
  | .int n => .ok n
  | .float (.finite q) => .ok (q.num.tdiv q.den)
  | .float .negZero => .ok 0
  | .float .nan => .error "ValueError"
  | .float _ => .error "OverflowError"
  | .str s =>
    match rt.intOfStr s with
    | some n => .ok n
    | none => .error "ValueError"
  | _ => .error "TypeError"

/-- `list(v)`. -/
def pyList (v : PyVal) : Except String (List PyVal) :=
  match v with
  | .list xs => .ok xs
  | .dict kvs => .ok (kvs.map fun kv => .str kv.1)
  | .str s => .ok (s.toList.map fun c => .str c.toString)
  | _ => .error "TypeError"

section Model

variable (env : ContactEnv)

/-- `str(v or "")`. -/
def textOf (v : PyVal) : String := (v.or (.str "")).toStr env.rt

/-- `s.strip().lower()`. -/
def lowered (s : String) : String := env.rt.lower (strip s)

def coerce : FieldKind → PyVal → Except String PyVal
  | .text, v => .ok (.str (textOf env v))
  | .algo, v => .ok (.str ((v.or (.str "Ed25519")).toStr env.rt))
  | .lowered, v => .ok (.str (lowered env (textOf env v)))
  | .int, v => .int <$> pyInt env.rt (v.or (.int 0))
  | .bool, v => .ok (.bool v.truthy)
  | .trustLevel, v =>
    let level := strip (textOf env v)
    .ok (.str (if level ∈ trustLevels then level else "unpinned"))
  | .aliases, v => do
    let items ← pyList (v.or (.list []))
    let kept := (items.map (textOf env)).filter fun s => strip s ≠ ""
    return .list ((kept.drop (kept.length - 2)).map .str)
  | .identity, v =>
    let raw := strip (textOf env v)
    .ok (.str (if raw = "" then "" else env.redactLabel raw))

/-- The value of a field before it is coerced. -/
def rawField (value : Dict) (k : String) : PyVal :=
  if k = "dmIdentityId" then (Dict.get value k).or (Dict.get value "dm_identity_id")
  else Dict.get value k

/-- `_normalize_contact`, without the summaries that are not stored. -/
def normalizeContact (value : Dict) : Except String Dict :=
  contactFields.mapM fun field => do return (field.1, ← coerce env field.2 (rawField value field.1))

/-- What `contacts[peer_key] = _normalize_contact(current)` and `_write_contacts` store. -/
def saved (contact : Dict) : Except String Dict := do normalizeContact env (← normalizeContact env contact)

/-- A text field of a normalized contact, once more stripped and lowered. -/
def loweredAt (contact : Dict) (k : String) : String := lowered env (textOf env (Dict.get contact k))

/-- An integer field of a normalized contact. -/
def intAt (contact : Dict) (k : String) : Int :=
  match Dict.get contact k with
  | .int n => n
  | _ => 0

def flagAt (contact : Dict) (k : String) : Bool := (Dict.get contact k).truthy

/-- `str(contact.get("trust_level", "") or "").strip()`. -/
def trustLevel (contact : Dict) : String := strip (textOf env (Dict.get contact "trust_level"))

/-! ## Observations -/

/-- The arguments of `observe_remote_prekey_identity`. -/
structure Observation where
  fingerprint : String
  sequence : Int := 0
  signedAt : Int := 0
  transparencyHead : String := ""
  transparencySize : Int := 0
  witnessCount : Option Int := none
  witnessLatestAt : Int := 0
  rootFingerprint : String := ""
  rootManifestFingerprint : String := ""
  rootWitnessPolicyFingerprint : String := ""
  rootWitnessThreshold : Int := 0
  rootWitnessCount : Int := 0
  rootWitnessDomainCount : Int := 0
  rootManifestGeneration : Int := 0
  rootRotationProven : Bool := false
  rootNodeId : String := ""
  rootPublicKey : String := ""
  rootPublicKeyAlgo : String := "Ed25519"

/-- The observation goes back in the publication log of the peer, or forks it. -/
def transparencyConflict (c : Dict) (o : Observation) : Bool :=
  let priorSequence := intAt c "remotePrekeySequence"
  let priorHead := loweredAt env c "remotePrekeyTransparencyHead"
  let priorSize := intAt c "remotePrekeyTransparencySize"
  let head := lowered env o.transparencyHead
  head ≠ "" ∧
    ((0 < priorSequence ∧ 0 < o.sequence ∧ o.sequence < priorSequence) ∨
      (0 < priorSequence ∧ 0 < o.sequence ∧ o.sequence = priorSequence ∧ priorHead ≠ "" ∧
        head ≠ priorHead) ∨
      (0 < priorSize ∧ 0 < o.transparencySize ∧ o.transparencySize < priorSize))

/-- The pinned fingerprint, or the one of the invite. -/
def pinnedFingerprint (c : Dict) : String :=
  let pinned := loweredAt env c "remotePrekeyFingerprint"
  if pinned = "" then loweredAt env c "invitePinnedTrustFingerprint" else pinned

/-- The pinned root, or the one of the invite. -/
def pinnedRoot (c : Dict) : String :=
  let pinned := loweredAt env c "remotePrekeyRootFingerprint"
  if pinned = "" then loweredAt env c "invitePinnedRootFingerprint" else pinned

/-- The observation is of the identity that is pinned. -/
def sameIdentity (c : Dict) (o : Observation) : Prop :=
  let root := lowered env o.rootFingerprint
  pinnedFingerprint env c = lowered env o.fingerprint ∧
    (pinnedRoot env c = "" ∨ root = "" ∨ pinnedRoot env c = root)

instance (c : Dict) (o : Observation) : Decidable (sameIdentity env c o) := by
  unfold sameIdentity
  infer_instance

def observedRotationProven (o : Observation) : Bool :=
  o.rootManifestGeneration ≤ 1 ∨ o.rootRotationProven

/-- The root of an observation as the pinned one. -/
def adoptedRoot (o : Observation) : Dict :=
  [("remotePrekeyRootFingerprint", .str (lowered env o.rootFingerprint)),
    ("remotePrekeyRootManifestFingerprint", .str (lowered env o.rootManifestFingerprint)),
    ("remotePrekeyRootWitnessPolicyFingerprint",
      .str (lowered env o.rootWitnessPolicyFingerprint)),
    ("remotePrekeyRootWitnessThreshold", .int o.rootWitnessThreshold),
    ("remotePrekeyRootWitnessCount", .int o.rootWitnessCount),
    ("remotePrekeyRootWitnessDomainCount", .int o.rootWitnessDomainCount),
    ("remotePrekeyRootManifestGeneration", .int o.rootManifestGeneration),
    ("remotePrekeyRootRotationProven", .bool (observedRotationProven o))]

/-- What an observation notes before it is judged. -/
def noteObservation (now : Int) (o : Observation) (conflict : Bool) (c : Dict) : Dict :=
  let head := lowered env o.transparencyHead
  let c := update c [("remotePrekeyObservedFingerprint", .str (lowered env o.fingerprint)),
    ("remotePrekeyLastSeenAt", .int now)]
  let c := updateIf (lowered env o.rootFingerprint ≠ "") c
    [("remotePrekeyObservedRootFingerprint", .str (lowered env o.rootFingerprint)),
      ("remotePrekeyObservedRootManifestFingerprint",
        .str (lowered env o.rootManifestFingerprint)),
      ("remotePrekeyObservedRootWitnessPolicyFingerprint",
        .str (lowered env o.rootWitnessPolicyFingerprint)),
      ("remotePrekeyObservedRootWitnessThreshold", .int o.rootWitnessThreshold),
      ("remotePrekeyObservedRootWitnessCount", .int o.rootWitnessCount),
      ("remotePrekeyObservedRootWitnessDomainCount", .int o.rootWitnessDomainCount),
      ("remotePrekeyObservedRootManifestGeneration", .int o.rootManifestGeneration),
      ("remotePrekeyObservedRootRotationProven", .bool (observedRotationProven o)),
      ("remotePrekeyRootLastSeenAt", .int now), ("remotePrekeyRootNodeId", .str o.rootNodeId),
      ("remotePrekeyRootPublicKey", .str o.rootPublicKey),
      ("remotePrekeyRootPublicKeyAlgo",
        .str (if o.rootPublicKeyAlgo = "" then "Ed25519" else o.rootPublicKeyAlgo))]
  let c := updateIf (conflict = false) c
    [("remotePrekeySequence", .int o.sequence), ("remotePrekeySignedAt", .int o.signedAt)]
  let c := updateIf (head ≠ "" ∧ conflict = false) c
    [("remotePrekeyTransparencyHead", .str head),
      ("remotePrekeyTransparencySize", .int o.transparencySize),
      ("remotePrekeyTransparencySeenAt", .int now)]
  let c := update c [("remotePrekeyTransparencyConflict", .bool conflict)]
  match o.witnessCount with
  | none => c
  | some count => update c [("witness_count", .int (max 0 count)),
      ("witness_checked_at", .int (if o.witnessLatestAt = 0 then now else o.witnessLatestAt))]

/-- What is not pinned yet is pinned from the invite. -/
def pinFromInvite (now : Int) (prior c : Dict) : Dict :=
  let invitePinnedAt :=
    if intAt c "invitePinnedAt" = 0 then now else intAt c "invitePinnedAt"
  let c := updateIf (loweredAt env prior "remotePrekeyFingerprint" = "" ∧
      loweredAt env prior "invitePinnedTrustFingerprint" ≠ "") c
    [("remotePrekeyFingerprint", .str (loweredAt env prior "invitePinnedTrustFingerprint")),
      ("remotePrekeyPinnedAt", .int invitePinnedAt)]
  updateIf (loweredAt env prior "remotePrekeyRootFingerprint" = "" ∧
      loweredAt env prior "invitePinnedRootFingerprint" ≠ "") c
    [("remotePrekeyRootFingerprint", .str (loweredAt env prior "invitePinnedRootFingerprint")),
      ("remotePrekeyRootManifestFingerprint",
        .str (loweredAt env prior "invitePinnedRootManifestFingerprint")),
      ("remotePrekeyRootWitnessPolicyFingerprint",
        .str (loweredAt env c "invitePinnedRootWitnessPolicyFingerprint")),
      ("remotePrekeyRootWitnessThreshold", .int (intAt c "invitePinnedRootWitnessThreshold")),
      ("remotePrekeyRootWitnessCount", .int (intAt c "invitePinnedRootWitnessCount")),
      ("remotePrekeyRootWitnessDomainCount", .int (intAt c "invitePinnedRootWitnessDomainCount")),
      ("remotePrekeyRootManifestGeneration", .int (intAt c "invitePinnedRootManifestGeneration")),
      ("remotePrekeyRootRotationProven", .bool (intAt c "invitePinnedRootManifestGeneration" ≤ 1 ∨
        flagAt c "invitePinnedRootRotationProven")),
      ("remotePrekeyRootPinnedAt", .int invitePinnedAt),
      ("remotePrekeyRootNodeId", .str (textOf env (Dict.get c "invitePinnedRootNodeId"))),
      ("remotePrekeyRootPublicKey", .str (textOf env (Dict.get c "invitePinnedRootPublicKey"))),
      ("remotePrekeyRootPublicKeyAlgo",
        .str (textOf env (Dict.get c "invitePinnedRootPublicKeyAlgo")))]

/-- The first fingerprint that is seen is pinned. -/
def firstSeen (now : Int) (o : Observation) (c : Dict) : Dict :=
  let c := update c [("remotePrekeyFingerprint", .str (lowered env o.fingerprint)),
    ("remotePrekeyPinnedAt", .int now), ("remotePrekeyMismatch", .bool false)]
  let c := updateIf (lowered env o.rootFingerprint ≠ "") c
    (adoptedRoot env o ++ [("remotePrekeyRootPinnedAt", .int now)])
  update c [("remotePrekeyRootMismatch", .bool false), ("trust_level", .str "tofu_pinned")]

/-- The pinned identity is seen again. -/
def sameSeen (o : Observation) (prior : Dict) (conflict : Bool) (c : Dict) : Dict :=
  let priorTrust := trustLevel env prior
  let invitePinned := loweredAt env prior "invitePinnedTrustFingerprint"
  let c := update c [("remotePrekeyMismatch", .bool conflict),
    ("remotePrekeyRootMismatch", .bool false)]
  let c := updateIf (lowered env o.rootFingerprint ≠ "") c (adoptedRoot env o)
  if conflict then
    update c [("trust_level",
      .str (if priorTrust ∈ ["invite_pinned", "sas_verified"] then "continuity_broken"
        else "mismatch"))]
  else if priorTrust ∈ ["mismatch", "continuity_broken"] then
    update c [("remotePrekeyMismatch", .bool true),
      ("remotePrekeyRootMismatch", .bool (flagAt prior "remotePrekeyRootMismatch")),
      ("remotePrekeyTransparencyConflict", .bool (flagAt prior "remotePrekeyTransparencyConflict")),
      ("trust_level", .str priorTrust)]
  else if priorTrust ∉ ["tofu_pinned", "invite_pinned", "sas_verified"] then
    update c [("trust_level",
      .str (if invitePinned ≠ "" ∧ pinnedFingerprint env prior = invitePinned then "invite_pinned"
        else "tofu_pinned"))]
  else c

/-- Another identity is seen. -/
def changedSeen (now : Int) (o : Observation) (prior c : Dict) : Dict :=
  let root := lowered env o.rootFingerprint
  let c := update c
    [("remotePrekeyMismatch", .bool (pinnedFingerprint env prior ≠ lowered env o.fingerprint)),
      ("remotePrekeyRootMismatch",
        .bool (root ≠ "" ∧ pinnedRoot env prior ≠ "" ∧ pinnedRoot env prior ≠ root))]
  let c := updateIf (root ≠ "" ∧ pinnedRoot env prior = "") c
    (adoptedRoot env o ++ [("remotePrekeyRootPinnedAt", .int now),
      ("remotePrekeyRootMismatch", .bool false)])
  update c [("trust_level",
    .str (if trustLevel env prior ∈ ["invite_pinned", "sas_verified"] ∨
        loweredAt env prior "invitePinnedRootFingerprint" ≠ "" then "continuity_broken"
      else "mismatch"))]

/-- `observe_remote_prekey_identity` of a contact that was read. -/
def observeRemotePrekeyIdentity (now : Int) (o : Observation) (prior : Dict) : Except String Dict := do
  require (lowered env o.fingerprint ≠ "") "fingerprint required"
  let conflict := transparencyConflict env prior o
  let c := pinFromInvite env now prior (noteObservation env now o conflict prior)
  let c :=
    if pinnedFingerprint env prior = "" then firstSeen env now o c
    else if sameIdentity env prior o then sameSeen env o prior conflict c
    else changedSeen env now o prior c
  saved env (update c [("updated_at", .int now)])

/-! ## Updates by the client -/

def sanitizeClientContactUpdates (updates : Dict) : Dict :=
  clientMutableContactFields.filterMap fun key =>
    (List.lookup key updates).map fun v => (key, v)

/-- `upsert_wormhole_dm_contact` of a contact that was read. -/
def upsertContact (now : Int) (updates c : Dict) : Except String Dict := do
  let merged ← normalizeContact env (update c (sanitizeClientContactUpdates updates))
  normalizeContact env (update merged [("updated_at", .int now)])

/-- `sever_wormhole_dm_contact` of a contact that was read. -/
def severContact (now : Int) (block : Bool) (c : Dict) : Except String Dict :=
  let c := update c
    [("sharedAlias", .str ""), ("sharedAliasCounter", .int 0), ("sharedAliasPublicKey", .str ""),
      ("sharedAliasPublicKeyAlgo", .str "Ed25519"), ("previousSharedAliases", .list []),
      ("pendingSharedAlias", .str ""), ("pendingSharedAliasCounter", .int 0),
      ("pendingSharedAliasPublicKey", .str ""), ("pendingSharedAliasPublicKeyAlgo", .str "Ed25519"),
      ("pendingSharedAliasGraceMs", .int 0), ("sharedAliasGraceUntil", .int 0),
      ("sharedAliasRotatedAt", .int 0), ("acceptedPreviousAlias", .str ""),
      ("acceptedPreviousAliasCounter", .int 0), ("acceptedPreviousAliasPublicKey", .str ""),
      ("acceptedPreviousAliasPublicKeyAlgo", .str "Ed25519"), ("acceptedPreviousGraceUntil", .int 0),
      ("acceptedPreviousHardGraceUntil", .int 0), ("acceptedPreviousAwaitingReply", .bool false),
      ("aliasBindingSeq", .int 0), ("aliasBindingPendingReason", .str ""),
      ("aliasBindingPreparedAt", .int 0), ("aliasGateJoinAppliedSeq", .int 0)]
  let c := updateIf (block = true) c [("blocked", .bool true)]
  saved env (update c [("updated_at", .int now)])

/-- `_promote_invite_lookup_mode`, which changes nothing where the mode is set. -/
def promoteInviteLookupMode (now : Int) (c : Dict) : Except String Dict :=
  if strip (textOf env (Dict.get c "invitePinnedPrekeyLookupHandle")) = "" ∨
      loweredAt env c "remotePrekeyLookupMode" = "invite_lookup_handle" then .ok c
  else normalizeContact env (update c
    [("remotePrekeyLookupMode", .str "invite_lookup_handle"), ("updated_at", .int now)])

/-- A contact as `_read_contacts` returns it. -/
def readContact (now : Int) (value : Dict) : Except String Dict := do
  promoteInviteLookupMode env now (← normalizeContact env value)

/-- `roll_forward_invite_lookup_handles`, of one contact. -/
def rollForwardLookupHandle (now : Int) (mapping : String → Option String) (inviteNodeId : String)
    (c : Dict) : Except String Dict :=
  let expected := strip inviteNodeId
  if expected ≠ "" ∧ strip (textOf env (Dict.get c "invitePinnedNodeId")) ≠ expected then .ok c
  else
    match mapping (strip (textOf env (Dict.get c "invitePinnedPrekeyLookupHandle"))) with
    | none => .ok c
    | some handle => saved env (update c
        [("invitePinnedPrekeyLookupHandle", .str handle), ("updated_at", .int now)])

end Model

end Vincent.Contacts
