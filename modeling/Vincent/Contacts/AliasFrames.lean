-- SUMMARY: Alias binding frames of a peer.
import Vincent.Contacts.Transparency
import Vincent.Mesh.Schema

/-!
# Alias frames

A frame moves the lane of a contact to a new alias. It is signed by the key of the old
alias that it names, or after a compromise by the pinned root. The state is what
`_read_contacts` returns.
-/

namespace Vincent.Contacts

open Vincent.Python Vincent.Check Vincent.Run Vincent.Mesh

/-- The contacts, and the verifier of signatures. -/
structure AliasEnv extends ContactEnv where
  /-- `Ed25519PublicKey.verify`, of a key in base 64, a signature in hex and a message. -/
  verifies : String → String → String → Bool

def pairwiseAliasUpdateKind : String := "sb_dm_alias_update_v1"

inductive AliasRotationReason where
  | scheduled30d
  | contactVerificationCompleted
  | gateJoin
  | suspectedCompromise
  | manual
deriving DecidableEq

def AliasRotationReason.value : AliasRotationReason → String
  | .scheduled30d => "scheduled_30d"
  | .contactVerificationCompleted => "contact_verification_completed"
  | .gateJoin => "gate_join"
  | .suspectedCompromise => "suspected_compromise"
  | .manual => "manual"

def canonicalAliasPayload (rt : Runtime) (payload : Dict) : String := (PyVal.dict payload).asciiDumps rt

section Model

variable (env : ContactEnv)

/-! ## Frames -/

def normalizeRotationReason (reason : PyVal) : Except String AliasRotationReason :=
  match (reason.or (.str "manual")).toStr env.rt with
  | "scheduled_30d" => .ok .scheduled30d
  | "contact_verification_completed" => .ok .contactVerificationCompleted
  | "gate_join" => .ok .gateJoin
  | "suspected_compromise" => .ok .suspectedCompromise
  | "manual" => .ok .manual
  | _ => .error "ValueError"

/-- `str(d.get(k, "") or "")`. -/
def textAt (d : Dict) (k : String) : String := textOf env (Dict.get d k)

/-- `str(d.get(k, "Ed25519") or "Ed25519")`. -/
def algoAt (d : Dict) (k : String) : String := ((Dict.get d k).or (.str "Ed25519")).toStr env.rt

/-- What the signatures of a frame are about. -/
structure AliasRotation where
  seq : Int
  reason : AliasRotationReason
  oldAlias : String
  oldCounter : Int
  newAlias : String
  newCounter : Int
  graceUntil : Int
  hardCapUntil : Int
  issuedAt : Int

/-- The fields of a frame, read in their order. -/
def readRotation (frame : Dict) (seq : Int) (reason : AliasRotationReason) :
    Except String AliasRotation := do
  return {
    seq := seq
    reason := reason
    oldAlias := textAt env frame "old_alias"
    oldCounter := ← payloadInt env frame "old_counter"
    newAlias := textAt env frame "new_alias"
    newCounter := ← payloadInt env frame "new_counter"
    graceUntil := ← payloadInt env frame "grace_until"
    hardCapUntil := ← payloadInt env frame "hard_cap_until"
    issuedAt := ← payloadInt env frame "issued_at" }

def AliasRotation.canonical (rt : Runtime) (r : AliasRotation) : String :=
  canonicalAliasPayload rt [("kind", .str pairwiseAliasUpdateKind), ("seq", .int r.seq),
    ("reason", .str r.reason.value), ("old_alias", .str r.oldAlias),
    ("old_counter", .int r.oldCounter), ("new_alias", .str r.newAlias),
    ("new_counter", .int r.newCounter), ("grace_until", .int r.graceUntil),
    ("hard_cap_until", .int r.hardCapUntil), ("issued_at", .int r.issuedAt)]

/-! ## Contacts -/

def contactAliasUpdatesBlocked (c : Dict) : Bool :=
  flagAt c "blocked" || decide (loweredAt env c "trust_level" ∈ ["mismatch", "continuity_broken"])

/-- `_contact_alias_public_binding`: the key of an alias, and its algorithm. -/
def contactAliasPublicBinding (c : Dict) (name : String) : String × String :=
  let aliasKey := strip name
  if aliasKey = "" then ("", "Ed25519")
  else if aliasKey = strip (textAt env c "sharedAlias") then
    (textAt env c "sharedAliasPublicKey", algoAt env c "sharedAliasPublicKeyAlgo")
  else if aliasKey = strip (textAt env c "pendingSharedAlias") then
    (textAt env c "pendingSharedAliasPublicKey", algoAt env c "pendingSharedAliasPublicKeyAlgo")
  else if aliasKey = strip (textAt env c "acceptedPreviousAlias") then
    (textAt env c "acceptedPreviousAliasPublicKey", algoAt env c "acceptedPreviousAliasPublicKeyAlgo")
  else ("", "Ed25519")

/-- The key that the frame itself names for the old alias. -/
def frameAliasBinding (frame : Dict) : String × String :=
  (strip (textAt env frame "old_alias_public_key"), algoAt env frame "old_alias_public_key_algo")

/-- The pinned root key of a contact. -/
def contactRootPublicKey (c : Dict) : String :=
  strip (textOf env ((Dict.get c "invitePinnedRootPublicKey").or
    (Dict.get c "remotePrekeyRootPublicKey")))

def contactRootPublicKeyAlgo (c : Dict) : String :=
  (((Dict.get c "invitePinnedRootPublicKeyAlgo").or
    (Dict.get c "remotePrekeyRootPublicKeyAlgo")).or (.str "Ed25519")).toStr env.rt

def mergeAliasHistory (aliases : List String) : List String :=
  ((aliases.map strip).filter (· ≠ "")).eraseDups.take 2

/-- The items of a list of a normalized contact. -/
def listAt (c : Dict) (k : String) : List PyVal :=
  match Dict.get c k with
  | .list xs => xs
  | _ => []

/-- `upsert_wormhole_dm_contact_internal` of a contact that was read. -/
def upsertContactInternal (now : Int) (updates c : Dict) : Except String Dict := do
  let current ← normalizeContact env c
  let merged ← normalizeContact env (update current updates)
  normalizeContact env (update merged [("updated_at", .int now)])

/-! ## Signatures -/

/-- What `_verify_alias_binding_signature` and `_verify_root_binding_signature` take for
    Ed25519. -/
def isEd25519 (algo : String) : Bool :=
  decide (env.rt.upper (strip (if algo = "" then "Ed25519" else algo)) ∈ ["ED25519", "EDDSA"])

/-- The message that the key of an alias signs. -/
def aliasMessage (name : String) (counter : Int) (payload : String) : String :=
  "dm-mls-binding|" ++ env.rt.lower (strip name) ++ "|r" ++ toString (max 0 counter) ++ "|" ++
    payload

end Model

section Frames

variable (env : AliasEnv)

def verifyAliasBindingSignature (name payload signature : String) (counter : Int)
    (binding : String × String) : Bool :=
  isEd25519 env.toContactEnv binding.2 &&
    env.verifies binding.1 signature (aliasMessage env.toContactEnv name counter payload)

def verifyRootBindingSignature (payload signature publicKey publicKeyAlgo : String) : Bool :=
  isEd25519 env.toContactEnv publicKeyAlgo && env.verifies publicKey signature payload

/-- The checks of a frame after a compromise. -/
def checkCompromise (frame c : Dict) (r : AliasRotation) : Verdict := do
  require (strip (textAt env.toContactEnv frame "old_alias_signature") = "")
    (.invalid "alias_update_old_sig_forbidden")
  let root := contactRootPublicKey env.toContactEnv c
  require (root ≠ "" ∧ root = strip (textAt env.toContactEnv frame "root_public_key"))
    (.invalid "alias_update_root_unknown")
  require (verifyRootBindingSignature env (r.canonical env.rt)
      (textAt env.toContactEnv frame "root_signature") root
      (contactRootPublicKeyAlgo env.toContactEnv c) = true)
    (.invalid "alias_update_root_invalid")

/-- The checks of a routine frame, with the key of the old alias, which the first frame names
    itself. -/
def checkRoutine (frame c : Dict) (r : AliasRotation) : Except Fault (String × String) := do
  require (strip (textAt env.toContactEnv frame "root_signature") = "")
    (.invalid "alias_update_root_sig_forbidden")
  let known := contactAliasPublicBinding env.toContactEnv c (strip r.oldAlias)
  let binding :=
    if known.1 = "" ∧ r.oldCounter = 0 ∧ r.seq = 1 ∧
        strip r.oldAlias = strip (textAt env.toContactEnv c "sharedAlias") then
      frameAliasBinding env.toContactEnv frame
    else known
  require (binding.1 ≠ "") (.invalid "alias_update_old_alias_unknown")
  require (verifyAliasBindingSignature env (strip r.oldAlias) (r.canonical env.rt)
      (textAt env.toContactEnv frame "old_alias_signature") r.oldCounter binding = true)
    (.invalid "alias_update_old_alias_invalid")
  return binding

/-- The old key that the checks of a frame leave. -/
def checkOldAlias (frame c : Dict) (r : AliasRotation) : Except Fault (String × String) :=
  if r.reason = .suspectedCompromise then do
    checkCompromise env frame c r
    return contactAliasPublicBinding env.toContactEnv c (strip r.oldAlias)
  else checkRoutine env frame c r

/-- The fields that an accepted frame sets. -/
def aliasUpdates (nowMs : Int) (frame c : Dict) (r : AliasRotation) (old : String × String) :
    Dict :=
  [("sharedAlias", .str (strip r.newAlias)), ("sharedAliasCounter", .int r.newCounter),
    ("sharedAliasPublicKey", .str (strip (textAt env.toContactEnv frame "new_alias_public_key"))),
    ("sharedAliasPublicKeyAlgo", .str (algoAt env.toContactEnv frame "new_alias_public_key_algo")),
    ("acceptedPreviousAlias", .str (strip r.oldAlias)),
    ("acceptedPreviousAliasCounter", .int r.oldCounter),
    ("acceptedPreviousAliasPublicKey", .str old.1),
    ("acceptedPreviousAliasPublicKeyAlgo", .str old.2),
    ("acceptedPreviousGraceUntil", .int r.graceUntil),
    ("acceptedPreviousHardGraceUntil", .int r.hardCapUntil),
    ("acceptedPreviousAwaitingReply", .bool false),
    ("sharedAliasRotatedAt",
      .int (if (Dict.get frame "issued_at").truthy then r.issuedAt else nowMs)),
    ("aliasBindingSeq", .int r.seq), ("pendingSharedAlias", .str ""),
    ("pendingSharedAliasCounter", .int 0), ("pendingSharedAliasPublicKey", .str ""),
    ("pendingSharedAliasPublicKeyAlgo", .str "Ed25519"), ("pendingSharedAliasGraceMs", .int 0),
    ("sharedAliasGraceUntil", .int 0), ("aliasBindingPendingReason", .str ""),
    ("aliasBindingPreparedAt", .int 0),
    ("previousSharedAliases", .list ((mergeAliasHistory (strip r.oldAlias ::
      textAt env.toContactEnv c "acceptedPreviousAlias" ::
        (listAt c "previousSharedAliases").map (textOf env.toContactEnv))).map .str))]

/-- An alias update that comes from the peer of a contact. -/
structure AliasCall where
  now : Int
  nowMs : Int
  frame : Dict

/-- `apply_inbound_alias_binding_frame`: the new contact, or the detail of a refusal. -/
def applyInboundAliasBindingFrame (a : AliasCall) (c : Dict) : Except Fault Dict := do
  require (a.frame.isEmpty = false) (.invalid "alias_update_missing")
  require (textAt env.toContactEnv a.frame "kind" = pairwiseAliasUpdateKind)
    (.invalid "alias_update_kind_invalid")
  require (contactAliasUpdatesBlocked env.toContactEnv c = false) (.invalid "alias_update_blocked")
  let seq ← orFail (payloadInt env.toContactEnv a.frame "seq") .raised
  require (intAt c "aliasBindingSeq" < seq) (.invalid "alias_update_replay")
  let reason ← orFail (normalizeRotationReason env.toContactEnv (Dict.get a.frame "reason")) .raised
  let r ← orFail (readRotation env.toContactEnv a.frame seq reason) .raised
  let known ← checkOldAlias env a.frame c r
  let old := if known.1 = "" then frameAliasBinding env.toContactEnv a.frame else known
  require (verifyAliasBindingSignature env (strip r.newAlias) (r.canonical env.rt)
      (textAt env.toContactEnv a.frame "new_alias_signature") r.newCounter
      (strip (textAt env.toContactEnv a.frame "new_alias_public_key"),
        algoAt env.toContactEnv a.frame "new_alias_public_key_algo") = true)
    (.invalid "alias_update_new_alias_invalid")
  orFail (upsertContactInternal env.toContactEnv a.now (aliasUpdates env a.nowMs a.frame c r old) c)
    .raised

/-- The contact as it is read after a call. -/
def aliasStep (c : Dict) (a : AliasCall) : Dict :=
  match applyInboundAliasBindingFrame env a c with
  | .ok c' => orKeep c' (readContact env.toContactEnv a.now c')
  | .error _ => c

/-- The frame of a call that is accepted. -/
def acceptedFrame (c : Dict) (a : AliasCall) : Option Dict :=
  match applyInboundAliasBindingFrame env a c with
  | .ok _ => some a.frame
  | .error _ => none

end Frames

end Vincent.Contacts
