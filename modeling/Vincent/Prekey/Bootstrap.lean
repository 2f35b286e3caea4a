-- SUMMARY: Bootstrap messages, and the prekeys that a receiver keeps for them.
import Vincent.General.Check
import Vincent.General.Run
import Mathlib.Data.Rat.Floor
import Mathlib.Data.List.Nodup

/-!
# Bootstrap messages

The private half of a signed prekey is kept for a while after the next one is made,
and that of a one-time prekey until a message that used it is opened.

Keys and byte strings are values of a type `K`, and the primitives are given. A text
that may be empty is an `Option`.
-/

namespace Vincent.Bootstrap

open Vincent.Run Vincent.Check

/-- The header of a bootstrap message, without the version and the algorithm, which are always the
    same. -/
structure BootstrapHeader (K : Type) where
  ikPub : Option K
  ekPub : Option K
  spkId : Int
  otkId : Int
deriving DecidableEq

/-- What the bootstrap computes with: X25519, HKDF and AES-GCM. -/
structure BootstrapCrypto (K : Type) where
  /-- The private keys that `_x25519_pair` makes, one after the other. -/
  generate : Nat → K
  publicKey : K → K
  derive : K → K → K
  /-- `_hkdf` of the joined parts. -/
  hkdf : List K → K
  aesEncrypt : K → K → String → BootstrapHeader K → K
  aesDecrypt : K → K → K → BootstrapHeader K → Option String
  fresh : Function.Injective fun i => publicKey (generate i)
  derive_comm : ∀ x y, derive x (publicKey y) = derive y (publicKey x)
  derive_ideal : ∀ x y y', derive x (publicKey y) = derive x (publicKey y') →
    publicKey y = publicKey y'
  hkdf_ideal : Function.Injective hkdf
  aes_decrypt : ∀ key iv text header,
    aesDecrypt key iv (aesEncrypt key iv text header) header = some text
  aes_ideal : ∀ key key' iv text header text',
    aesDecrypt key' iv (aesEncrypt key iv text header) header = some text' → key' = key

structure OneTimePrekey (K : Type) where
  prekeyId : Int
  publicKey : K
  privateKey : K
  createdAt : Int

/-- An item of `signed_prekey_history`. -/
structure RetiredPrekey (K : Type) where
  signedPrekeyId : Int
  signedPrekeyPub : K
  signedPrekeyPriv : K
  signedPrekeyGeneratedAt : Int
  retiredAt : Int

/-- What `read_wormhole_identity` gives of a bootstrapped identity. -/
structure Identity (K : Type) where
  dhPubKey : K
  dhPrivateKey : K
  signedPrekeyId : Int := 0
  signedPrekeyPub : Option K := none
  signedPrekeyPriv : Option K := none
  signedPrekeyGeneratedAt : Int := 0
  signedPrekeyHistory : List (RetiredPrekey K) := []
  oneTimePrekeys : List (OneTimePrekey K) := []
  prekeyBundleSignedAt : Int := 0
  prekeyRepublishThreshold : Int := 0
  prekeyRepublishTarget : Int := 0
  prekeyNextRepublishAfter : Int := 0

/-- A one-time prekey as a bundle has it. -/
structure PublicPrekey (K : Type) where
  prekeyId : Int
  publicKey : K

/-- The parts of a bundle that a message is made from. -/
structure Bundle (K : Type) where
  identityDhPubKey : K
  signedPrekeyId : Int
  signedPrekeyPub : Option K
  signedPrekeyTimestamp : Int
  signedAt : Int
  oneTimePrekeys : List (PublicPrekey K)

/-- The checks of a bundle that read no clock: of its signature and keys, and of its root. -/
structure BundleChecks (K : Type) where
  signature : Bundle K → Except String Unit
  rootAttestation : Bundle K → Except String Unit

structure BootstrapEnvelope (K : Type) where
  header : BootstrapHeader K
  iv : K
  ct : K

/-- What `random.randint` gives for the republish policy. -/
structure Draws where
  threshold : Int
  target : Int
  delay : Int

/-- The clock, the keys made so far, the identity, the bundles, and the one-time prekeys used up. -/
structure Receiver (K : Type) where
  clock : ℚ
  drawn : Nat := 0
  identity : Identity K
  registered : List (Bundle K) := []
  consumed : List K := []

section Model

variable {K : Type} (c : BootstrapCrypto K) (checks : BundleChecks K)

def signedPrekeyRotateAfterS : Int := 24 * 60 * 60

def signedPrekeyGraceS : Int := 3 * 24 * 60 * 60

def maxPrekeyBundleAgeS : Int := signedPrekeyRotateAfterS + signedPrekeyGraceS

/-! ## Prekeys -/

def jitteredRepublishPolicy (d : Draws) (reset : Bool) (data : Identity K) : Identity K :=
  { data with
    prekeyRepublishThreshold :=
      if reset ∨ data.prekeyRepublishThreshold < 3 ∨ 5 < data.prekeyRepublishThreshold
      then d.threshold else data.prekeyRepublishThreshold
    prekeyRepublishTarget :=
      if reset ∨ data.prekeyRepublishTarget < 7 ∨ 9 < data.prekeyRepublishTarget
      then d.target else data.prekeyRepublishTarget }

def scheduleNextRepublishWindow (d : Draws) (now : ℚ) (data : Identity K) : Identity K :=
  { data with prekeyNextRepublishAfter := ⌊now + d.delay⌋ }

/-- `_safe_int(item.get("retired_at", retired_at) or retired_at) >= cutoff`. -/
def inGrace (retiredAt : Int) (item : RetiredPrekey K) : Bool :=
  retiredAt - signedPrekeyGraceS ≤ if item.retiredAt = 0 then retiredAt else item.retiredAt

/-- The last `n` items of a list. -/
def lastItems {α : Type} (n : Nat) (items : List α) : List α := items.drop (items.length - n)

def archiveCurrentSignedPrekey (data : Identity K) (retiredAt : Int) : Identity K :=
  match data.signedPrekeyPub, data.signedPrekeyPriv with
  | some pub, some priv =>
    if data.signedPrekeyId = 0 then data
    else
      let history := data.signedPrekeyHistory ++
        [⟨data.signedPrekeyId, pub, priv, data.signedPrekeyGeneratedAt, retiredAt⟩]
      { data with signedPrekeyHistory := (lastItems 4 history).filter (inGrace retiredAt) }
  | _, _ => data

def findSignedPrekeyPrivate (data : Identity K) (spkId : Int) : Option K :=
  if data.signedPrekeyId = spkId then data.signedPrekeyPriv
  else (data.signedPrekeyHistory.find? fun item => item.signedPrekeyId == spkId).map
    RetiredPrekey.signedPrekeyPriv

/-- Whether `ensure_wormhole_prekeys` makes a new signed prekey. -/
def mustRotate (now : Int) (force : Bool) (data : Identity K) : Bool :=
  force || (data.signedPrekeyGeneratedAt != 0 &&
      decide (signedPrekeyRotateAfterS ≤ now - data.signedPrekeyGeneratedAt)) ||
    data.signedPrekeyPub.isNone || data.signedPrekeyPriv.isNone

/-- The branch of `ensure_wormhole_prekeys` that makes a new signed prekey. -/
def rotateSignedPrekey (now : Int) (r : Receiver K) : Receiver K :=
  let data := archiveCurrentSignedPrekey r.identity now
  { r with
    drawn := r.drawn + 1
    identity := { data with
      signedPrekeyId := data.signedPrekeyId + 1
      signedPrekeyPub := some (c.publicKey (c.generate r.drawn))
      signedPrekeyPriv := some (c.generate r.drawn)
      signedPrekeyGeneratedAt := now } }

/-- `max([... for item in existing_otks] + [0])`. -/
def largestPrekeyId (otks : List (OneTimePrekey K)) : Int :=
  otks.foldl (fun n item => max n item.prekeyId) 0

/-- One round of the loop that makes one-time prekeys, with the id of the last one. -/
def addOneTimePrekey (now : Int) (r : Receiver K) (lastId : Int) : Receiver K :=
  { r with
    drawn := r.drawn + 1
    identity := { r.identity with
      oneTimePrekeys := r.identity.oneTimePrekeys ++
        [⟨lastId + 1, c.publicKey (c.generate r.drawn), c.generate r.drawn, now⟩] } }

/-- The loop that makes one-time prekeys, for as many rounds as are missing. -/
def replenish (now : Int) : Nat → Int → Receiver K → Receiver K
  | 0, _, r => r
  | n + 1, lastId, r => replenish now n (lastId + 1) (addOneTimePrekey c now r lastId)

def bundlePayload (data : Identity K) : Bundle K where
  identityDhPubKey := data.dhPubKey
  signedPrekeyId := data.signedPrekeyId
  signedPrekeyPub := data.signedPrekeyPub
  signedPrekeyTimestamp := data.signedPrekeyGeneratedAt
  signedAt := data.prekeyBundleSignedAt
  oneTimePrekeys := data.oneTimePrekeys.map fun item => ⟨item.prekeyId, item.publicKey⟩

/-- `ensure_wormhole_prekeys` up to the signed prekey. -/
def ensureSignedPrekey (force : Bool) (d : Draws) (r : Receiver K) : Receiver K :=
  let read := { r with identity := jitteredRepublishPolicy d false r.identity }
  if mustRotate ⌊r.clock⌋ force r.identity then rotateSignedPrekey c ⌊r.clock⌋ read else read

/-- How many one-time prekeys are missing, where a target of zero is that of the policy. -/
def missingPrekeys (target : Int) (data : Identity K) : Nat :=
  (max 1 (if target = 0 then data.prekeyRepublishTarget else target)).toNat -
    data.oneTimePrekeys.length

/-- `ensure_wormhole_prekeys`. The identity is written only where a key was made. -/
def ensureWormholePrekeys (force : Bool) (target : Int) (d : Draws) (r : Receiver K) :
    Receiver K × Bundle K :=
  let rotated := ensureSignedPrekey c force d r
  let missing := missingPrekeys target rotated.identity
  let filled := replenish c ⌊r.clock⌋ missing (largestPrekeyId rotated.identity.oneTimePrekeys)
    rotated
  let data := jitteredRepublishPolicy d false filled.identity
  (if mustRotate ⌊r.clock⌋ force r.identity ∨ missing ≠ 0 then { filled with identity := data }
    else r, bundlePayload data)

/-! ## Registering bundles -/

def validateBundleRecord (now : ℚ) (bundle : Bundle K) : Except String Unit := do
  require (0 < bundle.signedAt) "Prekey bundle missing signed_at"
  require (bundle.signedAt ≤ now + 299) "Prekey bundle signed_at is in the future"
  checks.signature bundle
  require (now - bundle.signedAt ≤ maxPrekeyBundleAgeS) "Prekey bundle is stale"
  checks.rootAttestation bundle

/-- A call of `register_wormhole_prekey_bundle`, with its draws and the answers of MLS and the
relay. -/
structure Registration where
  forceSignedPrekey : Bool := false
  draws : Draws
  ensureDraws : Draws
  newDraws : Draws
  wait : ℚ≥0 := 0
  mlsExported : Bool := true
  relayAccepts : Bool := true

/-- `register_wormhole_prekey_bundle` up to the call of `ensure_wormhole_prekeys`. -/
def beginRegistration (reg : Registration) (r : Receiver K) : Receiver K :=
  if reg.forceSignedPrekey then
    { r with
      identity := scheduleNextRepublishWindow reg.draws r.clock
        (jitteredRepublishPolicy reg.draws reg.forceSignedPrekey r.identity) }
  else r

/-- `register_wormhole_prekey_bundle` after the call of `ensure_wormhole_prekeys`. -/
def publishBundle (reg : Registration) (ensured : Receiver K × Bundle K) : Receiver K :=
  let waited := { ensured.1 with clock := ensured.1.clock + reg.wait }
  let bundle := { ensured.2 with signedAt := ⌊waited.clock⌋ }
  if reg.mlsExported ∧ (validateBundleRecord checks waited.clock bundle).isOk ∧
      reg.relayAccepts then
    { waited with
      identity := jitteredRepublishPolicy reg.newDraws true
        (scheduleNextRepublishWindow reg.newDraws waited.clock
          { waited.identity with prekeyBundleSignedAt := bundle.signedAt })
      registered := waited.registered ++ [bundle] }
  else waited

def registerWormholePrekeyBundle (reg : Registration) (r : Receiver K) : Receiver K :=
  publishBundle checks reg (ensureWormholePrekeys c reg.forceSignedPrekey
    (jitteredRepublishPolicy reg.draws reg.forceSignedPrekey r.identity).prekeyRepublishTarget
    reg.ensureDraws (beginRegistration reg r))

/-! ## Messages -/

/-- The parts of the secret of a sender, for the signed prekey of a bundle. -/
def senderParts (bundle : Bundle K) (claimed : Option (PublicPrekey K))
    (staticPriv eph peerSpk : K) : List K :=
  [c.derive staticPriv peerSpk, c.derive eph bundle.identityDhPubKey, c.derive eph peerSpk] ++
    claimed.toList.map fun otk => c.derive eph otk.publicKey

/-- The header of a sender's message. -/
def senderHeader (bundle : Bundle K) (claimed : Option (PublicPrekey K)) (staticPriv eph : K) :
    BootstrapHeader K where
  ikPub := some (c.publicKey staticPriv)
  ekPub := some (c.publicKey eph)
  spkId := bundle.signedPrekeyId
  otkId := (claimed.map PublicPrekey.prekeyId).getD 0

/-- `bootstrap_encrypt_for_peer`, from a bundle and the one-time prekey claimed of it. -/
def bootstrapEncryptForPeer (now : ℚ) (bundle : Bundle K) (claimed : Option (PublicPrekey K))
    (staticPriv eph iv : K) (plaintext : String) : Except String (BootstrapEnvelope K) := do
  validateBundleRecord checks now bundle
  match bundle.signedPrekeyPub with
  | none => .error "Missing static or signed prekey material"
  | some peerSpk =>
    let secret := c.hkdf (senderParts c bundle claimed staticPriv eph peerSpk)
    let header := senderHeader c bundle claimed staticPriv eph
    .ok ⟨header, iv, c.aesEncrypt secret iv plaintext header⟩

/-- The parts of the secret of a receiver, before that of a one-time prekey. -/
def receiverParts (data : Identity K) (spkPriv senderStatic senderEph : K) : List K :=
  [c.derive spkPriv senderStatic, c.derive data.dhPrivateKey senderEph, c.derive spkPriv senderEph]

/-- The parts of the secret that `bootstrap_decrypt_from_sender` adds for a one-time prekey. -/
def oneTimePart (data : Identity K) (otkId : Int) (senderEph : K) : Except String (List K) :=
  if otkId = 0 then .ok []
  else match data.oneTimePrekeys.find? fun item => item.prekeyId == otkId with
    | none => .error "One-time prekey mismatch"
    | some otk => .ok [c.derive otk.privateKey senderEph]

/-- `bootstrap_decrypt_from_sender` up to the plaintext. -/
def openEnvelope (data : Identity K) (m : BootstrapEnvelope K) : Except String String :=
  match m.header.ikPub, m.header.ekPub with
  | some senderStatic, some senderEph =>
    match findSignedPrekeyPrivate data m.header.spkId with
    | none => .error "Missing local bootstrap private keys"
    | some spkPriv => do
      let part ← oneTimePart c data m.header.otkId senderEph
      match c.aesDecrypt (c.hkdf (receiverParts c data spkPriv senderStatic senderEph ++ part))
        m.iv m.ct m.header with
      | none => .error "bootstrap_decrypt_failed"
      | some plaintext => .ok plaintext
  | _, _ => .error "Missing sender bootstrap keys"

def consumeLocalOneTimePrekey (prekeyId : Int) (r : Receiver K) : Receiver K :=
  if prekeyId ≤ 0 then r
  else
    { r with
      identity := { r.identity with
        oneTimePrekeys := r.identity.oneTimePrekeys.filter fun item => item.prekeyId ≠ prekeyId }
      consumed := r.consumed ++ (r.identity.oneTimePrekeys.filter
        fun item => item.prekeyId = prekeyId).map OneTimePrekey.publicKey }

/-- Whether an opened message makes the receiver register a new bundle. -/
def shouldRepublish (d : Draws) (now : ℚ) (data : Identity K) : Bool :=
  let policy := jitteredRepublishPolicy d false data
  data.oneTimePrekeys.length == 0 ||
    (decide ((data.oneTimePrekeys.length : Int) ≤ policy.prekeyRepublishThreshold) &&
      decide (policy.prekeyNextRepublishAfter ≤ ⌊now⌋))

def bootstrapDecryptFromSender (m : BootstrapEnvelope K) (d : Draws) (reg : Registration)
    (r : Receiver K) : Receiver K × Except String String :=
  match openEnvelope c r.identity m with
  | .error detail => (r, .error detail)
  | .ok plaintext =>
    if m.header.otkId = 0 then (r, .ok plaintext)
    else
      let left := consumeLocalOneTimePrekey m.header.otkId r
      if shouldRepublish d left.clock left.identity then
        (registerWormholePrekeyBundle c checks { reg with forceSignedPrekey := false } left,
          .ok plaintext)
      else
        ({ left with identity := jitteredRepublishPolicy d false left.identity },
          .ok plaintext)

/-! ## Runs of a receiver -/

/-- What happens at a receiver. -/
inductive ReceiverOp (K : Type) where
  | ensure (force : Bool) (target : Int) (draws : Draws)
  | register (reg : Registration)
  | decrypt (m : BootstrapEnvelope K) (draws : Draws) (reg : Registration)
  | advance (wait : ℚ≥0)

def receiverStep (r : Receiver K) : ReceiverOp K → Receiver K
  | .ensure force target draws => (ensureWormholePrekeys c force target draws r).1
  | .register reg => registerWormholePrekeyBundle c checks reg r
  | .decrypt m d reg => (bootstrapDecryptFromSender c checks m d reg r).1
  | .advance wait => { r with clock := r.clock + wait }

/-- A receiver with an identity that was just bootstrapped. -/
def newReceiver (clock : ℚ) (dhPrivateKey : K) : Receiver K where
  clock := clock
  identity := { dhPubKey := c.publicKey dhPrivateKey, dhPrivateKey := dhPrivateKey }

/-- A message from a bundle that is still accepted opens, where its one-time prekey was not used
    before. -/
def OpensFresh (r : Receiver K) : Prop :=
  ∀ bundle ∈ r.registered, ∀ claimed : Option (PublicPrekey K),
    (∀ otk ∈ claimed, otk ∈ bundle.oneTimePrekeys ∧ otk.publicKey ∉ r.consumed) →
    ∀ staticPriv eph iv plaintext m,
      bootstrapEncryptForPeer c checks r.clock bundle claimed staticPriv eph iv plaintext = .ok m →
      ∀ d reg, (bootstrapDecryptFromSender c checks m d reg r).2 = .ok plaintext

/-- A message that used a one-time prekey and was opened is not opened again. -/
def OpensOnce (r : Receiver K) : Prop :=
  ∀ now, ∀ bundle ∈ r.registered, ∀ otk ∈ bundle.oneTimePrekeys, ∀ staticPriv eph iv plaintext m,
    bootstrapEncryptForPeer c checks now bundle (some otk) staticPriv eph iv plaintext = .ok m →
    ∀ d reg opened, (bootstrapDecryptFromSender c checks m d reg r).2 = .ok opened →
    ∀ ops d' reg' again, (bootstrapDecryptFromSender c checks m d' reg'
      (run (receiverStep c checks) (bootstrapDecryptFromSender c checks m d reg r).1 ops)).2 ≠
        .ok again

/-- Whether a step makes a new signed prekey. -/
def rotates (r : Receiver K) : ReceiverOp K → Bool
  | .ensure force _ _ => mustRotate ⌊r.clock⌋ force r.identity
  | .register reg => mustRotate ⌊r.clock⌋ reg.forceSignedPrekey r.identity
  | .decrypt m d _ =>
    (openEnvelope c r.identity m).isOk && m.header.otkId != 0 &&
      shouldRepublish d r.clock
        (consumeLocalOneTimePrekey m.header.otkId r).identity &&
      mustRotate ⌊r.clock⌋ false r.identity
  | .advance _ => false

/-- The signed prekey of each fresh bundle is the current one, or of the last three and in its
grace. -/
def KeepsAccepted (r : Receiver K) : Prop :=
  ∀ bundle ∈ r.registered, r.clock - bundle.signedAt ≤ maxPrekeyBundleAgeS →
    bundle.signedPrekeyId = r.identity.signedPrekeyId ∨
      ∃ item ∈ lastItems 3 r.identity.signedPrekeyHistory,
        item.signedPrekeyId = bundle.signedPrekeyId ∧ inGrace ⌊r.clock⌋ item = true


/-! ## The keys that a receiver holds -/

variable {c checks} {r : Receiver K} {data data' : Identity K} {bundle : Bundle K}

/-- The identity holds the private halves of what the bundle was made of, as far as it holds keys of
    those ids. -/
structure MadeFrom (c : BootstrapCrypto K) (data : Identity K) (bundle : Bundle K) : Prop where
  dh : bundle.identityDhPubKey = data.dhPubKey
  pos : 0 < bundle.signedPrekeyId
  le : bundle.signedPrekeyId ≤ data.signedPrekeyId
  current : data.signedPrekeyId = bundle.signedPrekeyId →
    bundle.signedPrekeyPub = data.signedPrekeyPriv.map c.publicKey
  retired : ∀ item ∈ data.signedPrekeyHistory, item.signedPrekeyId = bundle.signedPrekeyId →
    bundle.signedPrekeyPub = some (c.publicKey item.signedPrekeyPriv)

/-- There is no signed prekey, or a whole one. -/
def WholePrekey (c : BootstrapCrypto K) (data : Identity K) : Prop :=
  (data.signedPrekeyId = 0 ∧ data.signedPrekeyPub = none) ∨
    ∃ priv, 0 < data.signedPrekeyId ∧ data.signedPrekeyPriv = some priv ∧
      data.signedPrekeyPub = some (c.publicKey priv)

/-- The signed prekeys of a receiver, against the bundles that it has registered. -/
structure SignedPrekeys (c : BootstrapCrypto K) (r : Receiver K) : Prop where
  dh : r.identity.dhPubKey = c.publicKey r.identity.dhPrivateKey
  whole : WholePrekey c r.identity
  older : ∀ item ∈ r.identity.signedPrekeyHistory,
    item.signedPrekeyId < r.identity.signedPrekeyId
  made : ∀ bundle ∈ r.registered, MadeFrom c r.identity bundle

/-- The one-time prekeys of a receiver, against its bundles and the keys that are used up. -/
structure OneTimePrekeys (c : BootstrapCrypto K) (r : Receiver K) : Prop where
  pos : ∀ item ∈ r.identity.oneTimePrekeys, 0 < item.prekeyId
  pair : ∀ item ∈ r.identity.oneTimePrekeys, item.publicKey = c.publicKey item.privateKey
  drawn : ∀ item ∈ r.identity.oneTimePrekeys,
    ∃ k < r.drawn, item.publicKey = c.publicKey (c.generate k)
  ids : (r.identity.oneTimePrekeys.map OneTimePrekey.prekeyId).Nodup
  keys : (r.identity.oneTimePrekeys.map OneTimePrekey.publicKey).Nodup
  unspent : ∀ item ∈ r.identity.oneTimePrekeys, item.publicKey ∉ r.consumed
  spent : ∀ key ∈ r.consumed, ∃ k < r.drawn, key = c.publicKey (c.generate k)
  published : ∀ bundle ∈ r.registered, ∀ otk ∈ bundle.oneTimePrekeys, otk.publicKey ∈ r.consumed ∨
    ∃ item ∈ r.identity.oneTimePrekeys,
      item.prekeyId = otk.prekeyId ∧ item.publicKey = otk.publicKey

/-- What holds of a receiver after any run. -/
structure Sound (c : BootstrapCrypto K) (r : Receiver K) : Prop where
  signed : SignedPrekeys c r
  oneTime : OneTimePrekeys c r

/-- The signed prekey of each bundle that is not stale is held. -/
def HoldsAccepted (r : Receiver K) : Prop :=
  ∀ bundle ∈ r.registered, r.clock - bundle.signedAt ≤ maxPrekeyBundleAgeS →
    bundle.signedPrekeyId = r.identity.signedPrekeyId ∨
      ∃ item ∈ r.identity.signedPrekeyHistory, item.signedPrekeyId = bundle.signedPrekeyId

/-- The same signed prekeys, one-time prekeys and DH key. -/
structure SameKeys (data data' : Identity K) : Prop where
  dhPubKey : data'.dhPubKey = data.dhPubKey
  dhPrivateKey : data'.dhPrivateKey = data.dhPrivateKey
  signedPrekeyId : data'.signedPrekeyId = data.signedPrekeyId
  signedPrekeyPub : data'.signedPrekeyPub = data.signedPrekeyPub
  signedPrekeyPriv : data'.signedPrekeyPriv = data.signedPrekeyPriv
  signedPrekeyGeneratedAt : data'.signedPrekeyGeneratedAt = data.signedPrekeyGeneratedAt
  signedPrekeyHistory : data'.signedPrekeyHistory = data.signedPrekeyHistory
  oneTimePrekeys : data'.oneTimePrekeys = data.oneTimePrekeys

theorem SameKeys.policy (d : Draws) (reset : Bool) (data : Identity K) :
    SameKeys data (jitteredRepublishPolicy d reset data) :=
  ⟨rfl, rfl, rfl, rfl, rfl, rfl, rfl, rfl⟩

theorem SameKeys.schedule (d : Draws) (now : ℚ) (data : Identity K) :
    SameKeys data (scheduleNextRepublishWindow d now data) :=
  ⟨rfl, rfl, rfl, rfl, rfl, rfl, rfl, rfl⟩

theorem SameKeys.trans {data'' : Identity K} (h : SameKeys data data')
    (h' : SameKeys data' data'') : SameKeys data data'' where
  dhPubKey := h'.dhPubKey.trans h.dhPubKey
  dhPrivateKey := h'.dhPrivateKey.trans h.dhPrivateKey
  signedPrekeyId := h'.signedPrekeyId.trans h.signedPrekeyId
  signedPrekeyPub := h'.signedPrekeyPub.trans h.signedPrekeyPub
  signedPrekeyPriv := h'.signedPrekeyPriv.trans h.signedPrekeyPriv
  signedPrekeyGeneratedAt := h'.signedPrekeyGeneratedAt.trans h.signedPrekeyGeneratedAt
  signedPrekeyHistory := h'.signedPrekeyHistory.trans h.signedPrekeyHistory
  oneTimePrekeys := h'.oneTimePrekeys.trans h.oneTimePrekeys

theorem SameKeys.mustRotate (h : SameKeys data data') (now : Int) (force : Bool) :
    mustRotate now force data' = mustRotate now force data := by
  unfold Bootstrap.mustRotate
  rw [h.signedPrekeyGeneratedAt, h.signedPrekeyPub, h.signedPrekeyPriv]

theorem SameKeys.bundlePayload_signed (h : SameKeys data data') (signedAt : Int) :
    { bundlePayload data' with signedAt := signedAt } =
      { bundlePayload data with signedAt := signedAt } := by
  simp only [bundlePayload, h.dhPubKey, h.signedPrekeyId, h.signedPrekeyPub,
    h.signedPrekeyGeneratedAt, h.oneTimePrekeys]

theorem MadeFrom.sameKeys (hsame : SameKeys data data') (h : MadeFrom c data bundle) :
    MadeFrom c data' bundle where
  dh := h.dh.trans hsame.dhPubKey.symm
  pos := h.pos
  le := hsame.signedPrekeyId ▸ h.le
  current := by rw [hsame.signedPrekeyId, hsame.signedPrekeyPriv]; exact h.current
  retired := by rw [hsame.signedPrekeyHistory]; exact h.retired

theorem Sound.sameKeys (h : Sound c r) (hsame : SameKeys r.identity data') (clock : ℚ) :
    Sound c { r with identity := data', clock := clock } where
  signed := {
    dh := by rw [hsame.dhPubKey, hsame.dhPrivateKey]; exact h.signed.dh
    whole := by
      unfold WholePrekey
      rw [hsame.signedPrekeyId, hsame.signedPrekeyPub, hsame.signedPrekeyPriv]
      exact h.signed.whole
    older := by rw [hsame.signedPrekeyHistory, hsame.signedPrekeyId]; exact h.signed.older
    made := fun bundle hb => (h.signed.made bundle hb).sameKeys hsame }
  oneTime := {
    pos := by rw [hsame.oneTimePrekeys]; exact h.oneTime.pos
    pair := by rw [hsame.oneTimePrekeys]; exact h.oneTime.pair
    drawn := by rw [hsame.oneTimePrekeys]; exact h.oneTime.drawn
    ids := by rw [hsame.oneTimePrekeys]; exact h.oneTime.ids
    keys := by rw [hsame.oneTimePrekeys]; exact h.oneTime.keys
    unspent := by rw [hsame.oneTimePrekeys]; exact h.oneTime.unspent
    spent := h.oneTime.spent
    published := by rw [hsame.oneTimePrekeys]; exact h.oneTime.published }

theorem HoldsAccepted.sameKeys (h : HoldsAccepted r) (hsame : SameKeys r.identity data')
    {clock : ℚ} (hclock : r.clock ≤ clock) :
    HoldsAccepted { r with identity := data', clock := clock } := by
  intro bundle hb hage
  rw [hsame.signedPrekeyId, hsame.signedPrekeyHistory]
  exact h bundle hb ((sub_le_sub_right hclock _).trans hage)

/-! ## A new signed prekey -/

theorem mem_archived {item : RetiredPrekey K} {now : Int}
    (h : item ∈ (archiveCurrentSignedPrekey data now).signedPrekeyHistory) :
    item ∈ data.signedPrekeyHistory ∨ (item.signedPrekeyId = data.signedPrekeyId ∧
      data.signedPrekeyPriv = some item.signedPrekeyPriv) := by
  unfold archiveCurrentSignedPrekey at h
  split at h
  next pub priv hpub hpriv =>
    split at h
    · exact .inl h
    · have hmem := List.mem_of_mem_drop (List.mem_of_mem_filter h)
      rcases List.mem_append.mp hmem with hold | hnew
      · exact .inl hold
      · obtain rfl := List.mem_singleton.mp hnew
        exact .inr ⟨rfl, hpriv⟩
  next => exact .inl h

theorem archived_frame (data : Identity K) (now : Int) :
    archiveCurrentSignedPrekey data now = { data with
      signedPrekeyHistory := (archiveCurrentSignedPrekey data now).signedPrekeyHistory } := by
  unfold archiveCurrentSignedPrekey
  split
  · split <;> rfl
  · rfl

theorem lastItems_concat {α : Type} (n : Nat) (items : List α) (x : α) :
    lastItems (n + 1) (items ++ [x]) = lastItems n items ++ [x] := by
  unfold lastItems
  rw [List.length_append, List.length_singleton, Nat.add_sub_add_right,
    List.drop_append_of_le_length (Nat.sub_le _ _)]

theorem WholePrekey.id_nonneg (h : WholePrekey c data) : 0 ≤ data.signedPrekeyId := by
  rcases h with ⟨h, _⟩ | ⟨_, h, _⟩
  · exact h.ge
  · exact h.le

theorem SignedPrekeys.rotate (now : Int) (h : SignedPrekeys c r) :
    SignedPrekeys c (rotateSignedPrekey c now r) := by
  unfold rotateSignedPrekey
  rw [archived_frame]
  refine ⟨h.dh, .inr ⟨_, ?_, rfl, rfl⟩, ?_, ?_⟩
  · exact Int.lt_add_one_of_le h.whole.id_nonneg
  · intro item hitem
    rcases mem_archived hitem with hold | ⟨hid, _⟩
    · exact (h.older item hold).trans (Int.lt_succ _)
    · exact hid ▸ Int.lt_succ _
  · intro bundle hb
    have hmade := h.made bundle hb
    refine ⟨hmade.dh, hmade.pos, hmade.le.trans (Int.le_of_lt (Int.lt_succ _)), ?_, ?_⟩
    · intro heq
      exact absurd heq (Int.lt_add_one_of_le hmade.le).ne'
    · intro item hitem hid
      rcases mem_archived hitem with hold | ⟨hcur, hpriv⟩
      · exact hmade.retired item hold hid
      · rw [hmade.current (hcur.symm.trans hid), hpriv]
        rfl

/-- What the archive keeps of the history, where there is a signed prekey. -/
theorem archived_history {now : Int} {pub priv : K} (hpub : data.signedPrekeyPub = some pub)
    (hpriv : data.signedPrekeyPriv = some priv) (hid : data.signedPrekeyId ≠ 0) :
    (archiveCurrentSignedPrekey data now).signedPrekeyHistory =
      (lastItems 3 data.signedPrekeyHistory).filter (inGrace now) ++
        [⟨data.signedPrekeyId, pub, priv, data.signedPrekeyGeneratedAt, now⟩] := by
  have hgrace : ∀ id gen : Int, inGrace now ⟨id, pub, priv, gen, now⟩ = true := by
    intro id gen
    have hite : (if now = 0 then now else now) = now := ite_self now
    have hpos : (0 : Int) ≤ signedPrekeyGraceS := by decide
    simp only [inGrace, hite, decide_eq_true_eq]
    exact Int.sub_le_self now hpos
  unfold archiveCurrentSignedPrekey
  rw [hpub, hpriv]
  simp only [if_neg hid, lastItems_concat, List.filter_append, List.filter_singleton, hgrace,
    Bool.cond_true]

theorem KeepsAccepted.rotate (hsigned : SignedPrekeys c r) (h : KeepsAccepted r) :
    HoldsAccepted (rotateSignedPrekey c ⌊r.clock⌋ r) := by
  intro bundle hb hage
  have hmade := hsigned.made bundle hb
  rcases hsigned.whole with ⟨hzero, _⟩ | ⟨priv, hpos, hpriv, hpub⟩
  · exact absurd (hmade.le.trans hzero.le) hmade.pos.not_ge
  · refine .inr ?_
    unfold rotateSignedPrekey
    rw [archived_history hpub hpriv hpos.ne']
    rcases h bundle hb hage with hcur | ⟨item, hitem, hid, hgrace⟩
    · exact ⟨_, List.mem_append_right _ (List.mem_singleton_self _), hcur.symm⟩
    · exact ⟨item, List.mem_append_left _ (List.mem_filter.mpr ⟨hitem, hgrace⟩), hid⟩

theorem OneTimePrekeys.draw {signed : Identity K} (h : OneTimePrekeys c r)
    (heq : signed.oneTimePrekeys = r.identity.oneTimePrekeys) :
    OneTimePrekeys c { r with drawn := r.drawn + 1, identity := signed } := by
  have hmore : ∀ {key : K}, (∃ k < r.drawn, key = c.publicKey (c.generate k)) →
      ∃ k < r.drawn + 1, key = c.publicKey (c.generate k) :=
    fun ⟨k, hk, hkey⟩ => ⟨k, Nat.lt_succ_of_lt hk, hkey⟩
  exact {
    pos := by rw [heq]; exact h.pos
    pair := by rw [heq]; exact h.pair
    drawn := by rw [heq]; exact fun item hitem => hmore (h.drawn item hitem)
    ids := by rw [heq]; exact h.ids
    keys := by rw [heq]; exact h.keys
    unspent := by rw [heq]; exact h.unspent
    spent := fun key hkey => hmore (h.spent key hkey)
    published := by rw [heq]; exact h.published }

theorem Sound.rotate (now : Int) (h : Sound c r) : Sound c (rotateSignedPrekey c now r) := by
  refine ⟨h.signed.rotate now, ?_⟩
  unfold rotateSignedPrekey
  rw [archived_frame]
  exact h.oneTime.draw rfl

/-! ## New one-time prekeys -/

theorem le_foldl_max (otks : List (OneTimePrekey K)) (n : Int) :
    n ≤ otks.foldl (fun n item => max n item.prekeyId) n ∧
      ∀ item ∈ otks, item.prekeyId ≤ otks.foldl (fun n item => max n item.prekeyId) n := by
  induction otks generalizing n with
  | nil => exact ⟨le_rfl, fun _ h => absurd h List.not_mem_nil⟩
  | cons otk otks ih =>
    obtain ⟨hstart, hrest⟩ := ih (max n otk.prekeyId)
    refine ⟨(le_max_left _ _).trans hstart, fun item hitem => ?_⟩
    rcases List.mem_cons.mp hitem with rfl | hitem
    · exact (le_max_right _ _).trans hstart
    · exact hrest item hitem

/-- The id is not negative, and no one-time prekey has a larger one. -/
def Largest (lastId : Int) (otks : List (OneTimePrekey K)) : Prop :=
  0 ≤ lastId ∧ ∀ item ∈ otks, item.prekeyId ≤ lastId

theorem largest_largestPrekeyId (otks : List (OneTimePrekey K)) :
    Largest (largestPrekeyId otks) otks :=
  le_foldl_max otks 0

theorem Largest.add {lastId now : Int} (h : Largest lastId r.identity.oneTimePrekeys) :
    Largest (lastId + 1) (addOneTimePrekey c now r lastId).identity.oneTimePrekeys := by
  refine ⟨Int.le_add_one h.1, fun item hitem => ?_⟩
  rcases List.mem_append.mp hitem with hold | hnew
  · exact Int.le_add_one (h.2 item hold)
  · exact (congrArg OneTimePrekey.prekeyId (List.mem_singleton.mp hnew)).le

theorem ne_of_drawn {key : K} (h : ∃ k < r.drawn, key = c.publicKey (c.generate k)) :
    key ≠ c.publicKey (c.generate r.drawn) := by
  rintro rfl
  obtain ⟨k, hk, heq⟩ := h
  exact hk.ne (c.fresh heq).symm

theorem OneTimePrekeys.add {lastId : Int} (now : Int) (h : OneTimePrekeys c r)
    (hlast : Largest lastId r.identity.oneTimePrekeys) :
    OneTimePrekeys c (addOneTimePrekey c now r lastId) := by
  have hmore : ∀ {key : K}, (∃ k < r.drawn, key = c.publicKey (c.generate k)) →
      ∃ k < r.drawn + 1, key = c.publicKey (c.generate k) :=
    fun ⟨k, hk, hkey⟩ => ⟨k, Nat.lt_succ_of_lt hk, hkey⟩
  have hcases : ∀ item ∈ (addOneTimePrekey c now r lastId).identity.oneTimePrekeys,
      item ∈ r.identity.oneTimePrekeys ∨
        item = ⟨lastId + 1, c.publicKey (c.generate r.drawn), c.generate r.drawn, now⟩ :=
    fun item hitem => (List.mem_append.mp hitem).imp_right List.mem_singleton.mp
  constructor
  · intro item hitem
    rcases hcases item hitem with hold | rfl
    · exact h.pos item hold
    · exact Int.lt_add_one_of_le hlast.1
  · intro item hitem
    rcases hcases item hitem with hold | rfl
    · exact h.pair item hold
    · rfl
  · intro item hitem
    rcases hcases item hitem with hold | rfl
    · exact hmore (h.drawn item hold)
    · exact ⟨r.drawn, Nat.lt_succ_self _, rfl⟩
  · refine (List.map_append ▸ List.nodup_append.mpr ⟨h.ids, List.nodup_singleton _, ?_⟩)
    rintro _ hid _ hnew rfl
    obtain ⟨item, hitem, heq⟩ := List.mem_map.mp hid
    have hle := hlast.2 item hitem
    rw [heq, List.mem_singleton.mp hnew] at hle
    exact absurd hle (Int.lt_succ lastId).not_ge
  · refine (List.map_append ▸ List.nodup_append.mpr ⟨h.keys, List.nodup_singleton _, ?_⟩)
    rintro _ hkey _ hnew rfl
    obtain ⟨item, hitem, heq⟩ := List.mem_map.mp hkey
    exact ne_of_drawn (h.drawn item hitem) (heq.trans (List.mem_singleton.mp hnew))
  · intro item hitem
    rcases hcases item hitem with hold | rfl
    · exact h.unspent item hold
    · exact fun hspent => ne_of_drawn (h.spent _ hspent) rfl
  · exact fun key hkey => hmore (h.spent key hkey)
  · intro bundle hb otk hotk
    refine (h.published bundle hb otk hotk).imp_right ?_
    rintro ⟨item, hitem, heq⟩
    exact ⟨item, List.mem_append_left _ hitem, heq⟩

theorem Sound.add {lastId : Int} (now : Int) (h : Sound c r)
    (hlast : Largest lastId r.identity.oneTimePrekeys) :
    Sound c (addOneTimePrekey c now r lastId) where
  signed := ⟨h.signed.dh, h.signed.whole, h.signed.older,
    fun bundle hb => ⟨(h.signed.made bundle hb).dh, (h.signed.made bundle hb).pos,
      (h.signed.made bundle hb).le, (h.signed.made bundle hb).current,
      (h.signed.made bundle hb).retired⟩⟩
  oneTime := h.oneTime.add now hlast

theorem Sound.replenish (now : Int) (n : Nat) {lastId : Int} (h : Sound c r)
    (hlast : Largest lastId r.identity.oneTimePrekeys) :
    Sound c (replenish c now n lastId r) := by
  induction n generalizing lastId r with
  | zero => exact h
  | succ n ih => exact ih (h.add now hlast) hlast.add

theorem HoldsAccepted.replenish (now : Int) (n : Nat) (lastId : Int) (h : HoldsAccepted r) :
    HoldsAccepted (replenish c now n lastId r) := by
  induction n generalizing lastId r with
  | zero => exact h
  | succ n ih => exact ih (lastId + 1) h

/-- What making prekeys leaves as it was. -/
structure SameLog (r r' : Receiver K) : Prop where
  clock : r'.clock = r.clock
  registered : r'.registered = r.registered
  consumed : r'.consumed = r.consumed

theorem SameLog.replenish (now : Int) (n : Nat) (lastId : Int) (r : Receiver K) :
    SameLog r (replenish c now n lastId r) := by
  induction n generalizing lastId r with
  | zero => exact ⟨rfl, rfl, rfl⟩
  | succ n ih =>
    have h := ih (lastId + 1) (addOneTimePrekey c now r lastId)
    exact ⟨h.clock, h.registered, h.consumed⟩

/-- Where a signed prekey is there, the new one-time prekeys leave it. -/
theorem replenish_signedPrekey (now : Int) (n : Nat) (lastId : Int) (r : Receiver K) :
    (replenish c now n lastId r).identity.signedPrekeyPub = r.identity.signedPrekeyPub := by
  induction n generalizing lastId r with
  | zero => rfl
  | succ n ih => exact ih (lastId + 1) (addOneTimePrekey c now r lastId)

theorem rotate_of_none (now : Int) (force : Bool) (h : data.signedPrekeyPub = none) :
    mustRotate now force data = true := by
  unfold mustRotate
  rw [h, Option.isNone_none, Bool.or_true, Bool.true_or]

section Ensure

variable (force : Bool) (target : Int) (d : Draws)

theorem ensure_cases (c : BootstrapCrypto K) (r : Receiver K) :
    (mustRotate ⌊r.clock⌋ force r.identity = false ∧
      (ensureWormholePrekeys c force target d r).1 = r ∧
      (ensureWormholePrekeys c force target d r).2 = bundlePayload
        (jitteredRepublishPolicy d false (jitteredRepublishPolicy d false r.identity))) ∨
    ∃ n lastId start, start = ensureSignedPrekey c force d r ∧
      Largest lastId start.identity.oneTimePrekeys ∧
      (ensureWormholePrekeys c force target d r).1 =
        { replenish c ⌊r.clock⌋ n lastId start with
          identity := jitteredRepublishPolicy d false
            (replenish c ⌊r.clock⌋ n lastId start).identity } ∧
      (ensureWormholePrekeys c force target d r).2 =
        bundlePayload (ensureWormholePrekeys c force target d r).1.identity := by
  by_cases hchanged : mustRotate ⌊r.clock⌋ force r.identity = true ∨
      missingPrekeys target (ensureSignedPrekey c force d r).identity ≠ 0
  · refine .inr ⟨missingPrekeys target (ensureSignedPrekey c force d r).identity, _, _, rfl,
      largest_largestPrekeyId _, ?_, ?_⟩ <;> unfold ensureWormholePrekeys
    · exact if_pos hchanged
    · simp only [if_pos hchanged]
  · obtain ⟨hrotate, hmissing⟩ := not_or.mp hchanged
    have hfalse := Bool.eq_false_of_not_eq_true hrotate
    refine .inl ⟨hfalse, ?_, ?_⟩ <;> unfold ensureWormholePrekeys
    · exact if_neg hchanged
    · simp only [not_not.mp hmissing, replenish]
      simp only [ensureSignedPrekey, if_neg hrotate]

theorem Sound.ensureSignedPrekey (h : Sound c r) : Sound c (ensureSignedPrekey c force d r) := by
  have hread := h.sameKeys (SameKeys.policy d false r.identity) r.clock
  unfold Bootstrap.ensureSignedPrekey
  by_cases hrotate : mustRotate ⌊r.clock⌋ force r.identity = true
  · simp only [if_pos hrotate]
    exact hread.rotate _
  · simp only [if_neg hrotate]
    exact hread

theorem HoldsAccepted.ensureSignedPrekey (hsound : Sound c r) (h : HoldsAccepted r)
    (hkeeps : mustRotate ⌊r.clock⌋ force r.identity = true → KeepsAccepted r) :
    HoldsAccepted (ensureSignedPrekey c force d r) := by
  have hread := hsound.sameKeys (SameKeys.policy d false r.identity) r.clock
  unfold Bootstrap.ensureSignedPrekey
  by_cases hrotate : mustRotate ⌊r.clock⌋ force r.identity = true
  · simp only [if_pos hrotate]
    exact KeepsAccepted.rotate hread.signed (hkeeps hrotate)
  · simp only [if_neg hrotate]
    exact h.sameKeys (SameKeys.policy d false r.identity) le_rfl

theorem SameLog.ensureSignedPrekey (c : BootstrapCrypto K) (r : Receiver K) :
    SameLog r (ensureSignedPrekey c force d r) := by
  unfold Bootstrap.ensureSignedPrekey
  by_cases hrotate : mustRotate ⌊r.clock⌋ force r.identity = true
  · simp only [if_pos hrotate]
    exact ⟨rfl, rfl, rfl⟩
  · simp only [if_neg hrotate]
    exact ⟨rfl, rfl, rfl⟩

theorem ensureSignedPrekey_pub (c : BootstrapCrypto K) (r : Receiver K) :
    (ensureSignedPrekey c force d r).identity.signedPrekeyPub ≠ none := by
  unfold ensureSignedPrekey
  by_cases hrotate : mustRotate ⌊r.clock⌋ force r.identity = true
  · simp only [if_pos hrotate]
    exact Option.some_ne_none _
  · simp only [if_neg hrotate]
    exact fun hnone => hrotate (rotate_of_none _ force hnone)

theorem Sound.ensure (h : Sound c r) : Sound c (ensureWormholePrekeys c force target d r).1 := by
  rcases ensure_cases force target d c r with
    ⟨_, heq, _⟩ | ⟨n, lastId, start, hstart, hlast, heq, _⟩
  · rwa [heq]
  · rw [heq]
    have hbegun : Sound c start := hstart ▸ h.ensureSignedPrekey force d
    exact (hbegun.replenish _ n hlast).sameKeys (SameKeys.policy d false _) _

theorem HoldsAccepted.ensure (hsound : Sound c r) (h : HoldsAccepted r)
    (hkeeps : mustRotate ⌊r.clock⌋ force r.identity = true → KeepsAccepted r) :
    HoldsAccepted (ensureWormholePrekeys c force target d r).1 := by
  rcases ensure_cases force target d c r with ⟨_, heq, _⟩ | ⟨n, lastId, start, hstart, _, heq, _⟩
  · rwa [heq]
  · rw [heq]
    have hbegun : HoldsAccepted start :=
      hstart ▸ HoldsAccepted.ensureSignedPrekey force d hsound h hkeeps
    exact (hbegun.replenish _ n lastId).sameKeys (SameKeys.policy d false _) le_rfl

theorem SameLog.ensure (c : BootstrapCrypto K) (r : Receiver K) :
    SameLog r (ensureWormholePrekeys c force target d r).1 := by
  rcases ensure_cases force target d c r with ⟨_, heq, _⟩ | ⟨n, lastId, start, hstart, _, heq, _⟩
  · rw [heq]
    exact ⟨rfl, rfl, rfl⟩
  · rw [heq]
    have hbegun : SameLog r start := hstart ▸ SameLog.ensureSignedPrekey force d c r
    have hfilled := SameLog.replenish (c := c) ⌊r.clock⌋ n lastId start
    exact ⟨hfilled.clock.trans hbegun.clock, hfilled.registered.trans hbegun.registered,
      hfilled.consumed.trans hbegun.consumed⟩

theorem ensure_signedPrekeyPub (c : BootstrapCrypto K) (r : Receiver K) :
    (ensureWormholePrekeys c force target d r).1.identity.signedPrekeyPub ≠ none := by
  rcases ensure_cases force target d c r with
    ⟨hrotate, heq, _⟩ | ⟨n, lastId, start, hstart, _, heq, _⟩
  · rw [heq]
    intro hnone
    exact Bool.false_ne_true (hrotate.symm.trans (rotate_of_none _ force hnone))
  · rw [heq]
    refine (replenish_signedPrekey _ n lastId start).trans_ne ?_
    exact hstart ▸ ensureSignedPrekey_pub force d c r

/-- The bundle that is returned is made of the keys that are there then. -/
theorem ensure_bundle (c : BootstrapCrypto K) (r : Receiver K) (signedAt : Int) :
    { (ensureWormholePrekeys c force target d r).2 with signedAt := signedAt } =
      { bundlePayload (ensureWormholePrekeys c force target d r).1.identity with
        signedAt := signedAt } := by
  rcases ensure_cases force target d c r with ⟨_, heq, hb⟩ | ⟨n, lastId, start, _, _, _, hb⟩
  · rw [heq, hb]
    have hsame := (SameKeys.policy d false r.identity).trans (SameKeys.policy d false _)
    exact hsame.bundlePayload_signed signedAt
  · rw [hb]

end Ensure

/-! ## New bundles -/

theorem SignedPrekeys.madeFrom (h : SignedPrekeys c r) (hpub : r.identity.signedPrekeyPub ≠ none)
    (signedAt : Int) :
    MadeFrom c r.identity { bundlePayload r.identity with signedAt := signedAt } := by
  rcases h.whole with ⟨_, hnone⟩ | ⟨priv, hpos, hpriv, hsome⟩
  · exact absurd hnone hpub
  · refine ⟨rfl, hpos, le_rfl, fun _ => ?_, fun item hitem hid => ?_⟩
    · exact hsome.trans (congrArg (Option.map c.publicKey) hpriv).symm
    · exact absurd hid (h.older item hitem).ne

theorem Sound.publish (h : Sound c r) (hpub : r.identity.signedPrekeyPub ≠ none) (signedAt : Int) :
    Sound c { r with
      registered := r.registered ++ [{ bundlePayload r.identity with signedAt := signedAt }] } where
  signed := {
    dh := h.signed.dh
    whole := h.signed.whole
    older := h.signed.older
    made := by
      intro bundle hb
      rcases List.mem_append.mp hb with hold | hnew
      · exact h.signed.made bundle hold
      · rw [List.mem_singleton.mp hnew]
        exact h.signed.madeFrom hpub signedAt }
  oneTime := {
    pos := h.oneTime.pos
    pair := h.oneTime.pair
    drawn := h.oneTime.drawn
    ids := h.oneTime.ids
    keys := h.oneTime.keys
    unspent := h.oneTime.unspent
    spent := h.oneTime.spent
    published := by
      intro bundle hb otk hotk
      rcases List.mem_append.mp hb with hold | hnew
      · exact h.oneTime.published bundle hold otk hotk
      · rw [List.mem_singleton.mp hnew] at hotk
        obtain ⟨item, hitem, rfl⟩ := List.mem_map.mp hotk
        exact .inr ⟨item, hitem, rfl, rfl⟩ }

theorem HoldsAccepted.publish (h : HoldsAccepted r) (signedAt : Int) :
    HoldsAccepted { r with
      registered := r.registered ++ [{ bundlePayload r.identity with signedAt := signedAt }] } := by
  intro bundle hb hage
  rcases List.mem_append.mp hb with hold | hnew
  · exact h bundle hold hage
  · rw [List.mem_singleton.mp hnew]
    exact .inl rfl

section Register

variable (reg : Registration)

theorem SameKeys.refl (data : Identity K) : SameKeys data data :=
  ⟨rfl, rfl, rfl, rfl, rfl, rfl, rfl, rfl⟩

theorem beginRegistration_eq (r : Receiver K) :
    ∃ data, SameKeys r.identity data ∧ beginRegistration reg r = { r with identity := data } := by
  unfold beginRegistration
  split
  · exact ⟨_, (SameKeys.policy _ _ _).trans (SameKeys.schedule _ _ _), rfl⟩
  · exact ⟨_, SameKeys.refl _, rfl⟩

/-- A publication waits, and may register a bundle of the keys that are there. -/
theorem publishBundle_cases (checks : BundleChecks K) {ensured : Receiver K × Bundle K}
    (hbundle : ∀ signedAt, { ensured.2 with signedAt := signedAt } =
      { bundlePayload ensured.1.identity with signedAt := signedAt }) :
    ∃ data, SameKeys ensured.1.identity data ∧
      (publishBundle checks reg ensured =
          { ensured.1 with identity := data, clock := ensured.1.clock + reg.wait } ∨
        ∃ signedAt, publishBundle checks reg ensured =
          { ensured.1 with
            identity := data
            clock := ensured.1.clock + reg.wait
            registered := ensured.1.registered ++
              [{ bundlePayload ensured.1.identity with signedAt := signedAt }] }) := by
  unfold publishBundle
  dsimp only
  split
  · refine ⟨jitteredRepublishPolicy reg.newDraws true
      (scheduleNextRepublishWindow reg.newDraws (ensured.1.clock + reg.wait)
        { ensured.1.identity with prekeyBundleSignedAt := ⌊ensured.1.clock + reg.wait⌋ }),
      ⟨rfl, rfl, rfl, rfl, rfl, rfl, rfl, rfl⟩, .inr ⟨⌊ensured.1.clock + reg.wait⌋, ?_⟩⟩
    rw [← hbundle ⌊ensured.1.clock + reg.wait⌋]
  · exact ⟨_, SameKeys.refl _, .inl rfl⟩

/-- A registration makes prekeys, waits, and may register a bundle of them. -/
theorem register_cases (c : BootstrapCrypto K) (checks : BundleChecks K) (r : Receiver K) :
    ∃ data target d, SameKeys r.identity data ∧
      ∃ ensured, ensured = (ensureWormholePrekeys c reg.forceSignedPrekey target d
          { r with identity := data }).1 ∧
        ∃ data', SameKeys ensured.identity data' ∧
          (registerWormholePrekeyBundle c checks reg r =
              { ensured with identity := data', clock := ensured.clock + reg.wait } ∨
            ∃ signedAt, registerWormholePrekeyBundle c checks reg r =
              { ensured with
                identity := data'
                clock := ensured.clock + reg.wait
                registered := ensured.registered ++
                  [{ bundlePayload ensured.identity with signedAt := signedAt }] }) := by
  obtain ⟨data, hdata, heq⟩ := beginRegistration_eq reg r
  unfold registerWormholePrekeyBundle
  rw [heq]
  exact ⟨data, _, _, hdata, _, rfl,
    publishBundle_cases reg checks (ensure_bundle _ _ _ c { r with identity := data })⟩

theorem Sound.register (h : Sound c r) : Sound c (registerWormholePrekeyBundle c checks reg r) := by
  obtain ⟨data, target, d, hsame, ensured, hens, data', hsame', heq⟩ :=
    register_cases reg c checks r
  have hensured : Sound c ensured := hens ▸ (h.sameKeys hsame r.clock).ensure _ target d
  rcases heq with heq | ⟨signedAt, heq⟩
  · rw [heq]
    exact hensured.sameKeys hsame' _
  · rw [heq]
    have hpub : ensured.identity.signedPrekeyPub ≠ none :=
      hens ▸ ensure_signedPrekeyPub _ target d c _
    have hpublished := hensured.publish hpub signedAt
    exact hpublished.sameKeys hsame' (ensured.clock + reg.wait)

theorem HoldsAccepted.register (hsound : Sound c r) (h : HoldsAccepted r)
    (hkeeps : mustRotate ⌊r.clock⌋ reg.forceSignedPrekey r.identity = true → KeepsAccepted r) :
    HoldsAccepted (registerWormholePrekeyBundle c checks reg r) := by
  obtain ⟨data, target, d, hsame, ensured, hens, data', hsame', heq⟩ :=
    register_cases reg c checks r
  have hkept : mustRotate ⌊r.clock⌋ reg.forceSignedPrekey data = true →
      KeepsAccepted { r with identity := data } := by
    rw [hsame.mustRotate]
    intro hrotate bundle hb hage
    have hold := hkeeps hrotate bundle hb hage
    rwa [← hsame.signedPrekeyId, ← hsame.signedPrekeyHistory] at hold
  have hensured : HoldsAccepted ensured :=
    hens ▸ HoldsAccepted.ensure _ target d (hsound.sameKeys hsame r.clock)
      (h.sameKeys hsame le_rfl) hkept
  have hwait : ensured.clock ≤ ensured.clock + reg.wait := le_add_of_nonneg_right reg.wait.2
  rcases heq with heq | ⟨signedAt, heq⟩
  · rw [heq]
    exact hensured.sameKeys hsame' hwait
  · rw [heq]
    have hpublished := HoldsAccepted.publish hensured signedAt
    exact hpublished.sameKeys hsame' hwait

theorem register_consumed (r : Receiver K) :
    (registerWormholePrekeyBundle c checks reg r).consumed = r.consumed := by
  obtain ⟨data, target, d, _, ensured, hens, data', _, heq⟩ := register_cases reg c checks r
  have hlog : ensured.consumed = r.consumed := hens ▸ (SameLog.ensure _ target d c _).consumed
  rcases heq with heq | ⟨signedAt, heq⟩ <;> rw [heq] <;> exact hlog

end Register

/-! ## Opened messages -/

theorem Sound.consume (prekeyId : Int) (h : Sound c r) :
    Sound c (consumeLocalOneTimePrekey prekeyId r) := by
  unfold consumeLocalOneTimePrekey
  split
  · exact h
  · refine ⟨⟨h.signed.dh, h.signed.whole, h.signed.older, fun bundle hb =>
      ⟨(h.signed.made bundle hb).dh, (h.signed.made bundle hb).pos, (h.signed.made bundle hb).le,
        (h.signed.made bundle hb).current, (h.signed.made bundle hb).retired⟩⟩, ?_⟩
    have hkeep : ∀ {item},
        item ∈ r.identity.oneTimePrekeys.filter (fun item => item.prekeyId ≠ prekeyId) →
        item ∈ r.identity.oneTimePrekeys ∧ item.prekeyId ≠ prekeyId := by
      intro item hitem
      obtain ⟨hmem, hne⟩ := List.mem_filter.mp hitem
      exact ⟨hmem, of_decide_eq_true hne⟩
    have hused : ∀ {key}, key ∈ (r.identity.oneTimePrekeys.filter
          fun item => item.prekeyId = prekeyId).map OneTimePrekey.publicKey →
        ∃ item ∈ r.identity.oneTimePrekeys, item.prekeyId = prekeyId ∧ item.publicKey = key := by
      intro key hkey
      obtain ⟨item, hitem, heq⟩ := List.mem_map.mp hkey
      obtain ⟨hmem, hid⟩ := List.mem_filter.mp hitem
      exact ⟨item, hmem, of_decide_eq_true hid, heq⟩
    constructor
    · exact fun item hitem => h.oneTime.pos item (hkeep hitem).1
    · exact fun item hitem => h.oneTime.pair item (hkeep hitem).1
    · exact fun item hitem => h.oneTime.drawn item (hkeep hitem).1
    · exact h.oneTime.ids.sublist (List.filter_sublist.map _)
    · exact h.oneTime.keys.sublist (List.filter_sublist.map _)
    · intro item hitem hspent
      obtain ⟨hmem, hne⟩ := hkeep hitem
      rcases List.mem_append.mp hspent with hold | hnew
      · exact h.oneTime.unspent item hmem hold
      · obtain ⟨other, hother, hid, hkey⟩ := hused hnew
        exact hne (List.inj_on_of_nodup_map h.oneTime.keys hother hmem hkey ▸ hid)
    · intro key hkey
      rcases List.mem_append.mp hkey with hold | hnew
      · exact h.oneTime.spent key hold
      · obtain ⟨item, hitem, _, rfl⟩ := hused hnew
        exact h.oneTime.drawn item hitem
    · intro bundle hb otk hotk
      rcases h.oneTime.published bundle hb otk hotk with hspent | ⟨item, hitem, hid, hkey⟩
      · exact .inl (List.mem_append_left _ hspent)
      · by_cases heq : item.prekeyId = prekeyId
        · refine .inl (List.mem_append_right _ (List.mem_map.mpr ⟨item, ?_, hkey⟩))
          exact List.mem_filter.mpr ⟨hitem, decide_eq_true heq⟩
        · exact .inr ⟨item, List.mem_filter.mpr ⟨hitem, decide_eq_true heq⟩, hid, hkey⟩

theorem consume_clock (prekeyId : Int) (r : Receiver K) :
    (consumeLocalOneTimePrekey prekeyId r).clock = r.clock := by
  unfold consumeLocalOneTimePrekey
  split <;> rfl

theorem HoldsAccepted.consume (prekeyId : Int) (h : HoldsAccepted r) :
    HoldsAccepted (consumeLocalOneTimePrekey prekeyId r) := by
  unfold consumeLocalOneTimePrekey
  split <;> exact h

theorem consumed_consume (prekeyId : Int) (r : Receiver K) :
    r.consumed ⊆ (consumeLocalOneTimePrekey prekeyId r).consumed := by
  unfold consumeLocalOneTimePrekey
  split
  · exact List.Subset.refl _
  · exact List.subset_append_left _ _

/-- The one-time prekey of an id is used up once a message is opened with it. -/
theorem mem_consumed {item : OneTimePrekey K} (h : OneTimePrekeys c r)
    (hitem : item ∈ r.identity.oneTimePrekeys) :
    item.publicKey ∈ (consumeLocalOneTimePrekey item.prekeyId r).consumed := by
  unfold consumeLocalOneTimePrekey
  rw [if_neg (h.pos item hitem).not_ge]
  refine List.mem_append_right _ (List.mem_map.mpr ⟨item, ?_, rfl⟩)
  exact List.mem_filter.mpr ⟨hitem, decide_eq_true rfl⟩

section Decrypt

variable {m : BootstrapEnvelope K} (d : Draws) (reg : Registration)

theorem decrypt_snd (m : BootstrapEnvelope K) (r : Receiver K) :
    (bootstrapDecryptFromSender c checks m d reg r).2 = openEnvelope c r.identity m := by
  unfold bootstrapDecryptFromSender
  split
  next heq => exact heq.symm
  next plaintext heq =>
    rw [heq]
    split
    · rfl
    · dsimp only
      split <;> rfl

/-- An opened message changes nothing, or uses up its prekey, and a bundle may be registered. -/
theorem decrypt_cases (c : BootstrapCrypto K) (checks : BundleChecks K) (m : BootstrapEnvelope K)
    (r : Receiver K) :
    (bootstrapDecryptFromSender c checks m d reg r).1 = r ∧
        ((openEnvelope c r.identity m).isOk = true → m.header.otkId = 0) ∨
      ((openEnvelope c r.identity m).isOk = true ∧ m.header.otkId ≠ 0 ∧
        (shouldRepublish d r.clock (consumeLocalOneTimePrekey m.header.otkId r).identity = true ∧
          (bootstrapDecryptFromSender c checks m d reg r).1 =
            registerWormholePrekeyBundle c checks { reg with forceSignedPrekey := false }
              (consumeLocalOneTimePrekey m.header.otkId r) ∨
        (bootstrapDecryptFromSender c checks m d reg r).1 =
          { consumeLocalOneTimePrekey m.header.otkId r with
            identity := jitteredRepublishPolicy d false
              (consumeLocalOneTimePrekey m.header.otkId r).identity })) := by
  unfold bootstrapDecryptFromSender
  cases hopen : openEnvelope c r.identity m with
  | error detail => exact .inl ⟨rfl, fun h => nomatch h⟩
  | ok plaintext =>
    by_cases hid : m.header.otkId = 0
    · exact .inl ⟨by simp only [if_pos hid], fun _ => hid⟩
    · refine .inr ⟨rfl, hid, ?_⟩
      simp only [if_neg hid, consume_clock]
      by_cases hrepublish :
          shouldRepublish d r.clock (consumeLocalOneTimePrekey m.header.otkId r).identity = true
      · exact .inl ⟨hrepublish, by simp only [if_pos hrepublish]⟩
      · exact .inr (by simp only [if_neg hrepublish])

theorem mustRotate_consume (now : Int) (force : Bool) (prekeyId : Int) (r : Receiver K) :
    mustRotate now force (consumeLocalOneTimePrekey prekeyId r).identity =
      mustRotate now force r.identity := by
  unfold consumeLocalOneTimePrekey
  split <;> rfl

theorem Sound.decrypt (m : BootstrapEnvelope K) (h : Sound c r) :
    Sound c (bootstrapDecryptFromSender c checks m d reg r).1 := by
  rcases decrypt_cases d reg c checks m r with ⟨heq, _⟩ | ⟨_, _, ⟨_, heq⟩ | heq⟩
  · rwa [heq]
  · rw [heq]
    exact (h.consume _).register _
  · rw [heq]
    exact (h.consume _).sameKeys (SameKeys.policy d false _) _

theorem HoldsAccepted.decrypt (m : BootstrapEnvelope K) (hsound : Sound c r) (h : HoldsAccepted r)
    (hkeeps : rotates c r (.decrypt m d reg) = true → KeepsAccepted r) :
    HoldsAccepted (bootstrapDecryptFromSender c checks m d reg r).1 := by
  rcases decrypt_cases d reg c checks m r with ⟨heq, _⟩ | ⟨hopen, hid, ⟨hrepublish, heq⟩ | heq⟩
  · rwa [heq]
  · rw [heq]
    refine HoldsAccepted.register _ (hsound.consume _) (h.consume _) fun hrotate => ?_
    rw [mustRotate_consume, consume_clock] at hrotate
    have hkept : KeepsAccepted r := hkeeps (by
      simp only [rotates, hopen, hrepublish, hrotate, bne_iff_ne.mpr hid, Bool.and_self])
    unfold consumeLocalOneTimePrekey
    split <;> exact hkept
  · rw [heq]
    exact (h.consume _).sameKeys (SameKeys.policy d false _) le_rfl

theorem decrypt_consumed (m : BootstrapEnvelope K) (r : Receiver K) :
    r.consumed ⊆ (bootstrapDecryptFromSender c checks m d reg r).1.consumed := by
  rcases decrypt_cases d reg c checks m r with ⟨heq, _⟩ | ⟨_, _, ⟨_, heq⟩ | heq⟩
  · rw [heq]
    exact List.Subset.refl _
  · rw [heq, register_consumed]
    exact consumed_consume _ r
  · rw [heq]
    exact consumed_consume _ r

/-- An opened message that names a one-time prekey has used it up. -/
theorem mem_decrypt_consumed {item : OneTimePrekey K} (h : OneTimePrekeys c r)
    (hitem : item ∈ r.identity.oneTimePrekeys) (hid : item.prekeyId = m.header.otkId)
    (hopen : (openEnvelope c r.identity m).isOk = true) :
    item.publicKey ∈ (bootstrapDecryptFromSender c checks m d reg r).1.consumed := by
  have hmem := mem_consumed h hitem
  rw [hid] at hmem
  rcases decrypt_cases d reg c checks m r with ⟨_, hzero⟩ | ⟨_, _, ⟨_, heq⟩ | heq⟩
  · exact absurd (hid.trans (hzero hopen)) (h.pos item hitem).ne'
  · rwa [heq, register_consumed]
  · rwa [heq]

end Decrypt

/-! ## Runs -/

theorem Sound.step (h : Sound c r) (op : ReceiverOp K) : Sound c (receiverStep c checks r op) := by
  cases op with
  | ensure force target d => exact h.ensure force target d
  | register reg => exact h.register reg
  | decrypt m d reg => exact h.decrypt d reg m
  | advance wait =>
    exact h.sameKeys ⟨rfl, rfl, rfl, rfl, rfl, rfl, rfl, rfl⟩ _

theorem HoldsAccepted.step (hsound : Sound c r) (h : HoldsAccepted r) (op : ReceiverOp K)
    (hkeeps : rotates c r op = true → KeepsAccepted r) :
    HoldsAccepted (receiverStep c checks r op) := by
  cases op with
  | ensure force target d => exact HoldsAccepted.ensure force target d hsound h hkeeps
  | register reg => exact HoldsAccepted.register reg hsound h hkeeps
  | decrypt m d reg => exact HoldsAccepted.decrypt d reg m hsound h hkeeps
  | advance wait =>
    exact h.sameKeys ⟨rfl, rfl, rfl, rfl, rfl, rfl, rfl, rfl⟩ (le_add_of_nonneg_right wait.2)

theorem step_consumed (r : Receiver K) (op : ReceiverOp K) :
    r.consumed ⊆ (receiverStep c checks r op).consumed := by
  cases op with
  | ensure force target d =>
    exact (SameLog.ensure force target d c r).consumed ▸ List.Subset.refl _
  | register reg => exact (register_consumed reg r) ▸ List.Subset.refl _
  | decrypt m d reg => exact decrypt_consumed d reg m r
  | advance wait => exact List.Subset.refl _

theorem sound_new (clock : ℚ) (dhPrivateKey : K) : Sound c (newReceiver c clock dhPrivateKey) where
  signed := ⟨rfl, .inl ⟨rfl, rfl⟩, fun _ h => absurd h List.not_mem_nil,
    fun _ h => absurd h List.not_mem_nil⟩
  oneTime := ⟨fun _ h => absurd h List.not_mem_nil, fun _ h => absurd h List.not_mem_nil,
    fun _ h => absurd h List.not_mem_nil, List.nodup_nil, List.nodup_nil,
    fun _ h => absurd h List.not_mem_nil, fun _ h => absurd h List.not_mem_nil,
    fun _ h => absurd h List.not_mem_nil⟩

theorem Sound.run (h : Sound c r) (ops : List (ReceiverOp K)) :
    Sound c (Run.run (receiverStep c checks) r ops) := by
  induction ops generalizing r with
  | nil => exact h
  | cons op ops ih => exact ih (h.step op)

theorem run_consumed (r : Receiver K) (ops : List (ReceiverOp K)) :
    r.consumed ⊆ (Run.run (receiverStep c checks) r ops).consumed := by
  induction ops generalizing r with
  | nil => exact List.Subset.refl _
  | cons op ops ih => exact List.Subset.trans (step_consumed r op) (ih (receiverStep c checks r op))

/-! ## What opens -/

section Messages

variable {now : ℚ} {claimed : Option (PublicPrekey K)} {staticPriv eph iv : K} {plaintext : String}
  {m : BootstrapEnvelope K}

theorem validate_eq_ok : validateBundleRecord checks now bundle = .ok () ↔
    0 < bundle.signedAt ∧ bundle.signedAt ≤ now + 299 ∧ checks.signature bundle = .ok () ∧
      now - bundle.signedAt ≤ maxPrekeyBundleAgeS ∧ checks.rootAttestation bundle = .ok () := by
  simp [validateBundleRecord]

theorem encrypt_eq_ok :
    bootstrapEncryptForPeer c checks now bundle claimed staticPriv eph iv plaintext = .ok m ↔
      validateBundleRecord checks now bundle = .ok () ∧
        ∃ peerSpk, bundle.signedPrekeyPub = some peerSpk ∧
          m = ⟨senderHeader c bundle claimed staticPriv eph, iv,
            c.aesEncrypt (c.hkdf (senderParts c bundle claimed staticPriv eph peerSpk)) iv plaintext
              (senderHeader c bundle claimed staticPriv eph)⟩ := by
  unfold bootstrapEncryptForPeer
  rw [check_bind_eq_ok]
  refine and_congr_right fun _ => ?_
  cases bundle.signedPrekeyPub with
  | none => simp
  | some peerSpk => simp [eq_comm]

/-- The private half that is found for a bundle's signed prekey is its own. -/
theorem MadeFrom.findSignedPrekeyPrivate (h : MadeFrom c data bundle) {priv : K}
    (hfind : findSignedPrekeyPrivate data bundle.signedPrekeyId = some priv) :
    bundle.signedPrekeyPub = some (c.publicKey priv) := by
  unfold Bootstrap.findSignedPrekeyPrivate at hfind
  split at hfind
  next hid => rw [h.current hid, hfind]; rfl
  next =>
    obtain ⟨item, hitem, rfl⟩ := Option.map_eq_some_iff.mp hfind
    have hid := List.find?_some hitem
    exact h.retired item (List.mem_of_find?_eq_some hitem) (eq_of_beq hid)

theorem MadeFrom.found (h : MadeFrom c data bundle) (hwhole : WholePrekey c data)
    (hheld : bundle.signedPrekeyId = data.signedPrekeyId ∨
      ∃ item ∈ data.signedPrekeyHistory, item.signedPrekeyId = bundle.signedPrekeyId) :
    ∃ priv, Bootstrap.findSignedPrekeyPrivate data bundle.signedPrekeyId = some priv := by
  unfold Bootstrap.findSignedPrekeyPrivate
  by_cases hid : data.signedPrekeyId = bundle.signedPrekeyId
  · rw [if_pos hid]
    rcases hwhole with ⟨hzero, _⟩ | ⟨priv, _, hpriv, _⟩
    · exact absurd (hid.symm.trans hzero) h.pos.ne'
    · exact ⟨priv, hpriv⟩
  · rw [if_neg hid]
    rcases hheld with heq | ⟨item, hitem, heq⟩
    · exact absurd heq.symm hid
    · have hsome : (data.signedPrekeyHistory.find? fun item =>
          item.signedPrekeyId == bundle.signedPrekeyId).isSome = true :=
        List.find?_isSome.mpr ⟨item, hitem, beq_iff_eq.mpr heq⟩
      obtain ⟨found, hfound⟩ := Option.isSome_iff_exists.mp hsome
      exact ⟨found.signedPrekeyPriv, congrArg (Option.map _) hfound⟩

/-- Both sides compute the same parts. -/
theorem receiverParts_eq (claimed : Option (PublicPrekey K)) (staticPriv eph priv : K)
    (hdh : data.dhPubKey = c.publicKey data.dhPrivateKey)
    (h : MadeFrom c data bundle) :
    receiverParts c data priv (c.publicKey staticPriv) (c.publicKey eph) ++
        claimed.toList.map (fun otk => c.derive eph otk.publicKey) =
      senderParts c bundle claimed staticPriv eph (c.publicKey priv) := by
  unfold receiverParts senderParts
  rw [h.dh, hdh, c.derive_comm priv staticPriv, c.derive_comm data.dhPrivateKey eph,
    c.derive_comm priv eph]

/-- The part of a one-time prekey is the same on both sides, while the receiver has it. -/
theorem OneTimePrekeys.oneTimePart (eph : K) (h : OneTimePrekeys c r) {item : OneTimePrekey K}
    (hitem : item ∈ r.identity.oneTimePrekeys) :
    oneTimePart c r.identity item.prekeyId (c.publicKey eph) =
      .ok [c.derive eph item.publicKey] := by
  have hsome : (r.identity.oneTimePrekeys.find? fun other =>
      other.prekeyId == item.prekeyId).isSome = true :=
    List.find?_isSome.mpr ⟨item, hitem, beq_self_eq_true item.prekeyId⟩
  obtain ⟨found, hfound⟩ := Option.isSome_iff_exists.mp hsome
  have hid := List.find?_some hfound
  have hsame : found = item := List.inj_on_of_nodup_map h.ids (List.mem_of_find?_eq_some hfound)
    hitem (eq_of_beq hid)
  unfold Bootstrap.oneTimePart
  rw [if_neg (h.pos item hitem).ne', hfound, hsame, h.pair item hitem]
  exact congrArg (fun key => Except.ok [key]) (c.derive_comm _ _)

theorem claimedPart (staticPriv eph : K) (h : OneTimePrekeys c r) (hb : bundle ∈ r.registered)
    (hclaimed : ∀ otk ∈ claimed, otk ∈ bundle.oneTimePrekeys ∧ otk.publicKey ∉ r.consumed) :
    oneTimePart c r.identity (senderHeader c bundle claimed staticPriv eph).otkId
      (c.publicKey eph) = .ok (claimed.toList.map fun otk => c.derive eph otk.publicKey) := by
  cases claimed with
  | none => rfl
  | some otk =>
    obtain ⟨hotk, hfree⟩ := hclaimed otk rfl
    obtain ⟨item, hitem, hid, hkey⟩ := (h.published bundle hb otk hotk).resolve_left hfree
    have hpart := h.oneTimePart eph hitem
    rw [hid, hkey] at hpart
    exact hpart

theorem opensFresh_of_holds (h : Sound c r) (hholds : HoldsAccepted r) : OpensFresh c checks r := by
  intro bundle hb claimed hclaimed staticPriv eph iv plaintext m hm d reg
  obtain ⟨hvalid, peerSpk, hpub, rfl⟩ := encrypt_eq_ok.mp hm
  have hage := (validate_eq_ok.mp hvalid).2.2.2.1
  have hmade := h.signed.made bundle hb
  obtain ⟨priv, hfind⟩ := hmade.found h.signed.whole (hholds bundle hb hage)
  have hspk : peerSpk = c.publicKey priv :=
    Option.some.inj (hpub.symm.trans (hmade.findSignedPrekeyPrivate hfind))
  rw [decrypt_snd]
  have hpart := claimedPart staticPriv eph h.oneTime hb hclaimed
  have hparts := receiverParts_eq claimed staticPriv eph priv h.signed.dh hmade
  simp only [openEnvelope, senderHeader] at hpart ⊢
  rw [hfind]
  simp only [hpart]
  rw [hspk, ← hparts]
  simp only [bind, Except.bind, c.aes_decrypt]

theorem openEnvelope_eq_ok {senderStatic senderEph : K} {opened : String}
    (hik : m.header.ikPub = some senderStatic) (hek : m.header.ekPub = some senderEph)
    (h : openEnvelope c data m = .ok opened) :
    ∃ priv part, oneTimePart c data m.header.otkId senderEph = .ok part ∧
      c.aesDecrypt (c.hkdf (receiverParts c data priv senderStatic senderEph ++ part)) m.iv m.ct
        m.header = some opened := by
  unfold openEnvelope at h
  rw [hik, hek] at h
  dsimp only at h
  split at h
  · exact nomatch h
  next priv _ =>
    obtain ⟨part, hpart, hopen⟩ := bind_eq_ok.mp h
    split at hopen
    · exact nomatch hopen
    next hdecrypt => exact ⟨priv, part, hpart, (Except.ok.inj hopen) ▸ hdecrypt⟩

/-- A message that opens has used a one-time prekey that the receiver has. -/
theorem opened_item {otk : PublicPrekey K} {opened : String} (h : OneTimePrekeys c r)
    (hotk : ∃ priv, otk.publicKey = c.publicKey priv)
    (hm : bootstrapEncryptForPeer c checks now bundle (some otk) staticPriv eph iv plaintext =
      .ok m)
    (hopen : openEnvelope c r.identity m = .ok opened) :
    ∃ item ∈ r.identity.oneTimePrekeys,
      item.prekeyId = m.header.otkId ∧ item.publicKey = otk.publicKey := by
  obtain ⟨_, peerSpk, _, rfl⟩ := encrypt_eq_ok.mp hm
  obtain ⟨priv, part, hpart, hdecrypt⟩ := openEnvelope_eq_ok rfl rfl hopen
  -- the ciphertext opens under the sender's key only, so both sides have the same parts
  have hparts := c.hkdf_ideal (c.aes_ideal _ _ _ _ _ _ hdecrypt)
  unfold oneTimePart at hpart
  split at hpart
  · rw [← Except.ok.inj hpart] at hparts
    exact absurd (congrArg List.length hparts) (by simp [receiverParts, senderParts])
  · split at hpart
    · exact nomatch hpart
    next item hfind =>
      have hitem := List.mem_of_find?_eq_some hfind
      have hid := List.find?_some hfind
      rw [← Except.ok.inj hpart] at hparts
      have hlast : c.derive item.privateKey (c.publicKey eph) = c.derive eph otk.publicKey := by
        simpa [receiverParts, senderParts] using (List.append_inj' hparts rfl).2
      obtain ⟨otkPriv, hotkPriv⟩ := hotk
      rw [c.derive_comm, hotkPriv] at hlast
      refine ⟨item, hitem, eq_of_beq hid, ?_⟩
      rw [h.pair item hitem, c.derive_ideal _ _ _ hlast, hotkPriv]

theorem opensOnce (h : Sound c r) : OpensOnce c checks r := by
  intro now bundle hb otk hotk staticPriv eph iv plaintext m hm d reg opened hopen ops d' reg' again
    hagain
  rw [decrypt_snd] at hopen hagain
  have hdrawn : ∃ k < r.drawn, otk.publicKey = c.publicKey (c.generate k) := by
    rcases h.oneTime.published bundle hb otk hotk with hspent | ⟨item, hitem, _, hkey⟩
    · exact h.oneTime.spent _ hspent
    · exact hkey ▸ h.oneTime.drawn item hitem
  obtain ⟨k, _, hk⟩ := hdrawn
  obtain ⟨item, hitem, hid, hkey⟩ := opened_item h.oneTime ⟨_, hk⟩ hm hopen
  have hused : item.publicKey ∈ (bootstrapDecryptFromSender c checks m d reg r).1.consumed :=
    mem_decrypt_consumed d reg h.oneTime hitem hid (hopen ▸ rfl)
  have hspent : item.publicKey ∈ (run (receiverStep c checks)
      (bootstrapDecryptFromSender c checks m d reg r).1 ops).consumed :=
    run_consumed _ ops hused
  have hlater : Sound c (run (receiverStep c checks)
      (bootstrapDecryptFromSender c checks m d reg r).1 ops) :=
    (h.decrypt d reg m).run ops
  obtain ⟨other, hother, _, hother_key⟩ := opened_item hlater.oneTime ⟨_, hk⟩ hm hagain
  exact hlater.oneTime.unspent other hother (hother_key.trans hkey.symm ▸ hspent)

end Messages

theorem sound_run (clock : ℚ) (dhPrivateKey : K) (ops : List (ReceiverOp K)) :
    Sound c (run (receiverStep c checks) (newReceiver c clock dhPrivateKey) ops) :=
  (sound_new clock dhPrivateKey).run ops

theorem holdsAccepted_run {r : Receiver K} (hsound : Sound c r) (h : HoldsAccepted r)
    {ops : List (ReceiverOp K)}
    (hrun : Along (receiverStep c checks) (fun r op => rotates c r op = true → KeepsAccepted r) r
      ops) :
    HoldsAccepted (run (receiverStep c checks) r ops) := by
  have hstep : ∀ (r : Receiver K) op, Sound c r ∧ HoldsAccepted r →
      (rotates c r op = true → KeepsAccepted r) →
        Sound c (receiverStep c checks r op) ∧ HoldsAccepted (receiverStep c checks r op) :=
    fun r op hr hkeeps => ⟨hr.1.step op, hr.2.step hr.1 op hkeeps⟩
  exact (invariant hstep ⟨hsound, h⟩ hrun).2

/-- A message with a one-time prekey opens once at most, and one from a bundle that is kept
opens. -/
theorem bootstrap_opens (c : BootstrapCrypto K) (checks : BundleChecks K) (clock : ℚ)
    (dhPrivateKey : K) (ops : List (ReceiverOp K))
    (hrun : Along (receiverStep c checks) (fun r op => rotates c r op = true → KeepsAccepted r)
      (newReceiver c clock dhPrivateKey) ops) :
    OpensFresh c checks (run (receiverStep c checks) (newReceiver c clock dhPrivateKey) ops) ∧
      OpensOnce c checks (run (receiverStep c checks) (newReceiver c clock dhPrivateKey) ops) := by
  have hsound : Sound c (run (receiverStep c checks) (newReceiver c clock dhPrivateKey) ops) :=
    sound_run clock dhPrivateKey ops
  have hstart : HoldsAccepted (newReceiver c clock dhPrivateKey) :=
    fun _ hb => absurd hb List.not_mem_nil
  have hholds := holdsAccepted_run (sound_new clock dhPrivateKey) hstart hrun
  exact ⟨opensFresh_of_holds hsound hholds, opensOnce hsound⟩

end Model

/-! ## Runs of symbolic keys -/

/-- Byte strings as what they are made of. A shared secret is known by the sum of its keys. -/
inductive BootstrapTerm where
  | empty
  | priv (n : Nat)
  | pub (n : Nat)
  | shared (n : Nat)
  | joined (part rest : BootstrapTerm)
  | sealed (key iv : BootstrapTerm) (text : String) (ik ek : BootstrapTerm) (spkId otkId : Int)
deriving DecidableEq

/-- The number of a private key. -/
def BootstrapTerm.number : BootstrapTerm → Nat
  | .priv n => n
  | _ => 0

def BootstrapTerm.agree (x : BootstrapTerm) : BootstrapTerm → BootstrapTerm
  | .pub n => .shared (x.number + n)
  | _ => .empty

def BootstrapTerm.join (parts : List BootstrapTerm) : BootstrapTerm := parts.foldr .joined .empty

def BootstrapTerm.unseal (key iv : BootstrapTerm) (ct : BootstrapTerm)
    (header : BootstrapHeader BootstrapTerm) : Option String :=
  match ct with
  | .sealed key' iv' text ik ek spkId otkId =>
    if key' = key ∧ iv' = iv ∧ ik = header.ikPub.getD .empty ∧ ek = header.ekPub.getD .empty ∧
      spkId = header.spkId ∧ otkId = header.otkId then some text else none
  | _ => none

theorem join_injective : Function.Injective BootstrapTerm.join := by
  intro parts
  induction parts with
  | nil =>
    intro parts' h
    cases parts' with
    | nil => rfl
    | cons _ _ => exact nomatch h
  | cons part parts ih =>
    intro parts' h
    cases parts' with
    | nil => exact nomatch h
    | cons part' parts' =>
      obtain ⟨hpart, hrest⟩ := BootstrapTerm.joined.inj h
      exact congrArg₂ List.cons hpart (ih hrest)

def symbolicBootstrap : BootstrapCrypto BootstrapTerm where
  generate i := .priv i
  publicKey x := .pub x.number
  derive := BootstrapTerm.agree
  hkdf := BootstrapTerm.join
  aesEncrypt key iv text header := .sealed key iv text (header.ikPub.getD .empty)
    (header.ekPub.getD .empty) header.spkId header.otkId
  aesDecrypt := BootstrapTerm.unseal
  fresh i j h := BootstrapTerm.pub.inj h
  derive_comm x y := congrArg BootstrapTerm.shared (Nat.add_comm _ _)
  derive_ideal x y y' h :=
    congrArg BootstrapTerm.pub (Nat.add_left_cancel (BootstrapTerm.shared.inj h))
  hkdf_ideal := join_injective
  aes_decrypt key iv text header := if_pos ⟨rfl, rfl, rfl, rfl, rfl, rfl⟩
  aes_ideal key key' iv text header text' h := by
    by_contra hne
    exact nomatch (if_neg fun hsame => hne hsame.1.symm).symm.trans h

/-- Checks that every bundle passes. -/
def passingChecks : BundleChecks BootstrapTerm where
  signature _ := .ok ()
  rootAttestation _ := .ok ()

instance {K : Type} {r : Receiver K} : Decidable (KeepsAccepted r) :=
  inferInstanceAs (Decidable (∀ bundle ∈ r.registered,
    r.clock - bundle.signedAt ≤ maxPrekeyBundleAgeS →
      bundle.signedPrekeyId = r.identity.signedPrekeyId ∨
        ∃ item ∈ lastItems 3 r.identity.signedPrekeyHistory,
          item.signedPrekeyId = bundle.signedPrekeyId ∧ inGrace ⌊r.clock⌋ item = true))

def plainDraws : Draws := ⟨4, 8, 60⟩

def plainRegistration : Registration where
  forceSignedPrekey := true
  draws := plainDraws
  ensureDraws := plainDraws
  newDraws := plainDraws

/-- A bundle is registered, and the signed prekey is a day old when prekeys are next made. -/
def agedRun : List (ReceiverOp BootstrapTerm) :=
  [.register plainRegistration, .advance 86400, .ensure false 0 plainDraws]

/-- Where a run of symbolic keys ends. -/
def receiverAfter (ops : List (ReceiverOp BootstrapTerm)) : Receiver BootstrapTerm :=
  run (receiverStep symbolicBootstrap passingChecks)
    (newReceiver symbolicBootstrap 1000 (.priv 100)) ops

theorem bootstrap_opens_sample :
    OpensFresh symbolicBootstrap passingChecks (receiverAfter agedRun) ∧
      OpensOnce symbolicBootstrap passingChecks (receiverAfter agedRun) := by
  apply bootstrap_opens symbolicBootstrap passingChecks 1000 (.priv 100) agedRun
  unfold agedRun
  refine ⟨?_, ?_, ?_, trivial⟩ <;> decide +kernel

/-- Whether a message from the first bundle, without a one-time prekey, opens. -/
def opensFirst {K : Type} (c : BootstrapCrypto K) (checks : BundleChecks K) (r : Receiver K) :
    Bool :=
  match r.registered with
  | [] => true
  | bundle :: _ =>
    match bootstrapEncryptForPeer c checks r.clock bundle none (c.generate 200) (c.generate 201)
      (c.generate 202) "hello" with
    | .error _ => true
    | .ok m => (openEnvelope c r.identity m).isOk

theorem opensFirst_of_opensFresh {K : Type} {c : BootstrapCrypto K} {checks : BundleChecks K}
    {r : Receiver K} (h : OpensFresh c checks r) : opensFirst c checks r = true := by
  unfold opensFirst
  split
  · rfl
  next bundle rest heq =>
    split
    · rfl
    next m hm =>
      have hb : bundle ∈ r.registered := heq ▸ List.mem_cons_self
      have hopen := h bundle hb none (fun _ hotk => nomatch hotk) _ _ _ _ m hm plainDraws
        plainRegistration
      rw [decrypt_snd] at hopen
      rw [hopen]
      rfl

/-- Five new signed prekeys in the second of a registration. -/
def forcedRun : List (ReceiverOp BootstrapTerm) :=
  .register plainRegistration :: List.replicate 5 (.ensure true 0 plainDraws)

theorem not_bootstrap_opens : ¬ ∀ ops,
    OpensFresh symbolicBootstrap passingChecks (receiverAfter ops) ∧
      OpensOnce symbolicBootstrap passingChecks (receiverAfter ops) := by
  intro h
  have hfirst := opensFirst_of_opensFresh (h forcedRun).1
  have hlost : opensFirst symbolicBootstrap passingChecks (receiverAfter forcedRun) = false := by
    decide +kernel
  exact Bool.false_ne_true (hlost.symm.trans hfirst)

end Vincent.Bootstrap
