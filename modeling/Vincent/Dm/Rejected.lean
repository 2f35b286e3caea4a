-- SUMMARY: Decryption of any ciphertext text, and what a rejected one leaves behind.
import Vincent.Dm.Conversation
import Vincent.Python.Number

/-!
# Rejected messages

A ciphertext is any text. The ratchet follows the header, a key is taken, the state is
stored, and only then is the message opened. The backend works on a copy of the state,
the browser on the state itself.
-/

namespace Vincent.Dm

open Vincent.Python Vincent.Check Vincent.Run

/-- What a decryption computes with besides the ratchet. An exception is its text. -/
structure Sealing (K : Type) extends RatchetCrypto K where
  self : Party
  /-- A base64 text. -/
  text : String → K
  text_injective : Function.Injective text
  /-- The JSON value in a base64 text. -/
  readPayload : String → Except String PyVal
  /-- Whether a DH secret is derived, by the name of the algorithm and the two keys. -/
  exchange : String → K → K → Except String Unit
  /-- The bytes in a base64 ciphertext, where the JSON text of the header is authenticated too. -/
  openText : K → String → PyVal → Except String (List UInt8)

/-- The natural number of a header, the first one not below it, and whether counting to it never
ends. -/
structure Count where
  number : Option Nat
  limit : Nat
  endless : Bool := false

def Count.ofInt (n : Int) : Count := { number := if 0 ≤ n then some n.toNat else none, limit := n.toNat }

/-- What is read from a ciphertext. -/
structure Envelope where
  header : PyVal
  ct : String
  remoteDh : String
  pn : Count
  n : Count
  alg : String := "X25519"

section Shared

variable {K : Type} [DecidableEq K] (c : Sealing K)

/-- The entry of a message in the skipped keys. -/
def skippedKey (m : Envelope) (st : RatchetState K) : Option (SkipKey K × K) := do
  let n ← m.n.number
  let mk ← st.skipped.lookup ⟨c.text m.remoteDh, n⟩
  some (⟨c.text m.remoteDh, n⟩, mk)

/-- The state after a key is taken, and the key. There is none without a receiving chain. -/
def takeKey (m : Envelope) (st : RatchetState K) : Option (RatchetState K × K) :=
  match skippedKey c m st with
  | some (key, mk) => some ({ st with skipped := st.skipped.filter fun kv => kv.1 ≠ key }, mk)
  | none =>
    let st := skipMessageKeys c.toRatchetCrypto m.n.limit st
    match st.ckr with
    | none => none
    | some ck => some ({ st with ckr := some (c.kdfCk ck).1, nr := st.nr + 1 }, (c.kdfCk ck).2)

/-- The header does not name a new DH key. -/
def Current (m : Envelope) (st : RatchetState K) : Prop :=
  m.remoteDh = "" ∨ c.text m.remoteDh = st.dhRemote

instance {m : Envelope} {st : RatchetState K} : Decidable (Current c m st) :=
  inferInstanceAs (Decidable (_ ∨ _))

def openMessage (mk : K) (m : Envelope) : Except String String :=
  (c.openText mk m.ct m.header).map (unpadPayload c.toRatchetCrypto)

/-- The state that an encryption leaves, the header and the ciphertext. -/
def encryptFrom (alg : String) (generated : Nat) (peerDhPub plaintext : String)
    (stored : Option (RatchetState K)) : Except String (RatchetState K × Header K × K) := do
  let st ← match stored with
    | some st => .ok st
    | none => do
      c.exchange alg (c.generate generated) (c.text peerDhPub)
      .ok (initSenderState c.toRatchetCrypto generated (c.text peerDhPub))
  onlyIf (st.cks = none) (c.exchange alg st.dhSelfPriv st.dhRemote)
  .ok (encryptIn c.toRatchetCrypto plaintext st)

end Shared

/-- A call of an honest party, or a message that someone put on the way. -/
inductive DmCall where
  | encrypt (generated : Nat) (peerId peerDhPub plaintext : String)
  | decrypt (generated : Nat) (peerId ciphertext : String)
  | inject (generated : Nat) (peerId ciphertext : String)

def DmCall.honest : DmCall → Bool
  | .inject .. => false
  | _ => true

/-! ## The backend -/

/-- What the interpreter does with a value of the payload. -/
structure Backend (K : Type) extends Sealing K where
  rt : Runtime
  /-- `dict(v)` of a value that is not a dict. -/
  dictOf : PyVal → Except String Dict
  attributeError : PyVal → String

abbrev States (K : Type) := String → Option (RatchetState K)

section Backend

variable {K : Type} [DecidableEq K] (c : Backend K)

def readEnvelope (ciphertext : String) : Except String Envelope := do
  let payload ← c.readPayload (String.ofList (ciphertext.toList.drop 4))
  let payload ← match payload with
    | .dict kvs => .ok kvs
    | v => .error (c.attributeError v)
  let header ← match (Dict.get payload "h").or (.dict []) with
    | .dict kvs => .ok kvs
    | v => c.dictOf v
  let pn ← pyInt c.rt ((Dict.get header "pn" (.int 0)).or (.int 0))
  let n ← pyInt c.rt ((Dict.get header "n" (.int 0)).or (.int 0))
  .ok { header := .dict header, ct := Dict.text c.rt payload "ct",
        remoteDh := Dict.text c.rt header "dh", pn := .ofInt pn, n := .ofInt n }

/-- The stored state, or `_init_receiver_state`. -/
def loadState (generated : Nat) (m : Envelope) :
    Option (RatchetState K) → Except String (RatchetState K)
  | some st => .ok st
  | none => do
    c.exchange "X25519" (c.longTermPriv c.self) (c.text m.remoteDh)
    .ok (initReceiverState c.toRatchetCrypto c.self generated (c.text m.remoteDh))

def followHeader (generated : Nat) (m : Envelope) (st : RatchetState K) :
    Except String (RatchetState K) :=
  if Current c.toSealing m st then .ok st
  else do
    c.exchange "X25519" st.dhSelfPriv (c.text m.remoteDh)
    c.exchange "X25519" (c.generate generated) (c.text m.remoteDh)
    .ok (dhRatchet c.toRatchetCrypto generated (c.text m.remoteDh) m.pn.limit st)

/-- From the stored state to the key of the message. -/
def reachKey (generated : Nat) (m : Envelope) (stored : Option (RatchetState K)) :
    Except String (Option (RatchetState K × K)) := do
  let st ← loadState c generated m stored
  let st ← followHeader c generated m st
  .ok (takeKey c.toSealing m st)

/-- `str(exc) or "ratchet_decrypt_failed"`. -/
def exceptionDetail (text : String) : String :=
  if text = "" then "ratchet_decrypt_failed" else text

/-- A failure is the `detail` of an answer that is not ok. -/
def decryptWormholeDm (generated : Nat) (peerId ciphertext : String) (states : States K) :
    States K × Except String String :=
  if startsWith ciphertext "dr2:" = false then (states, .error "legacy")
  else
    match readEnvelope c ciphertext with
    | .error e => (states, .error (exceptionDetail e))
    | .ok m =>
      match reachKey c generated m (states peerId) with
      | .error e => (states, .error (exceptionDetail e))
      | .ok none => (states, .error "no_receive_chain")
      -- The state is stored before the message is opened.
      | .ok (some (st, mk)) =>
        (Function.update states peerId (some st),
          orFail (openMessage c.toSealing mk m) exceptionDetail)

def encryptWormholeDm (generated : Nat) (peerId peerDhPub plaintext : String)
    (states : States K) : States K × Except String (Header K × K) :=
  if peerId = "" ∨ peerDhPub = "" then (states, .error "peer_id and peer_dh_pub are required")
  else
    match encryptFrom c.toSealing "X25519" generated peerDhPub plaintext (states peerId) with
    | .error e => (states, .error e)
    | .ok (st, header, ct) => (Function.update states peerId (some st), .ok (header, ct))

def wormholeCall (states : States K) : DmCall → States K
  | .encrypt generated peerId peerDhPub plaintext =>
    (encryptWormholeDm c generated peerId peerDhPub plaintext states).1
  | .decrypt generated peerId ciphertext | .inject generated peerId ciphertext =>
    (decryptWormholeDm c generated peerId ciphertext states).1

/-- What an honest decryption gives. -/
def wormholeRead (states : States K) : DmCall → Option (Except String String)
  | .decrypt generated peerId ciphertext =>
    some (decryptWormholeDm c generated peerId ciphertext states).2
  | _ => none

/-- A DH secret is not derived, or there is neither a skipped key nor a receiving chain. -/
def Unreached (generated : Nat) (m : Envelope) : Option (RatchetState K) → Prop
  | none => c.exchange "X25519" (c.longTermPriv c.self) (c.text m.remoteDh) ≠ .ok ()
  | some st =>
    (Current c.toSealing m st → skippedKey c.toSealing m st = none ∧ st.ckr = none) ∧
    (¬ Current c.toSealing m st →
      c.exchange "X25519" st.dhSelfPriv (c.text m.remoteDh) ≠ .ok () ∨
      c.exchange "X25519" (c.generate generated) (c.text m.remoteDh) ≠ .ok ())

/-- The call is refused before a key is taken. -/
def RefusedEarly (generated : Nat) (ciphertext : String) (stored : Option (RatchetState K)) :
    Prop :=
  startsWith ciphertext "dr2:" = true → ∀ m, readEnvelope c ciphertext = .ok m →
    Unreached c generated m stored

/-- What is put on the way is refused early. -/
def InjectsRefused (states : States K) : DmCall → Prop
  | .inject generated peerId ciphertext =>
    RefusedEarly c generated ciphertext (states peerId)
  | _ => True

end Backend

/-! ## The browser -/

/-- What the browser does with a value of the payload. -/
structure Browser (K : Type) extends Sealing K where
  /-- `String(v)` of a value that is not a string. -/
  jsString : PyVal → String
  /-- `Number(v)` of a value that is not a number. -/
  jsNumber : PyVal → PyFloat
  /-- `getLongTermDhAlgo()`. -/
  longTermDhAlgo : String
  /-- The algorithm of the key pairs that `generateRatchetKeyPair` makes. -/
  generatedAlgo : String

structure BrowserState (K : Type) where
  ratchet : RatchetState K
  algo : String

abbrev StateCache (K : Type) := String → Option (BrowserState K)

def jsTruthy : PyVal → Bool
  | .list _ | .dict _ => true
  | .float .nan => false
  | v => v.truthy

/-- `v || w`. -/
def jsOr (v w : PyVal) : PyVal := if jsTruthy v then v else w

/-- `v.k`, where what is undefined is null. -/
def jsProperty (v : PyVal) (k : String) : Except String PyVal :=
  match v with
  | .none => .error ("Cannot read properties of null (reading '" ++ k ++ "')")
  | .dict kvs => .ok (Dict.get kvs k)
  | _ => .ok .none

/-- A counter stops at 2 ^ 53, where adding one gives the same number. -/
def Count.ofNumber : PyFloat → Count
  | .finite q =>
    { number := if q.den = 1 ∧ 0 ≤ q then some q.num.toNat else none
      limit := ⌈q⌉.toNat
      endless := 2 ^ 53 < q }
  | .negZero => .ofInt 0
  | .inf => { number := none, limit := 0, endless := true }
  | _ => { number := none, limit := 0 }

section Browser

variable {K : Type} [DecidableEq K] (c : Browser K)

def jsText : PyVal → String
  | .str s => s
  | v => c.jsString v

def jsCount : PyVal → Count
  | .int n => .ofNumber (.finite n)
  | .float x => .ofNumber x
  | v => .ofNumber (c.jsNumber v)

def readEnvelopeJs (ciphertext : String) : Except String Envelope := do
  let payload ← c.readPayload (String.ofList (ciphertext.toList.drop 4))
  let header ← jsProperty payload "h"
  let header := jsOr header (.dict [])
  let ct ← jsProperty payload "ct"
  let remoteDh ← jsProperty header "dh"
  let pn ← jsProperty header "pn"
  let n ← jsProperty header "n"
  let alg ← jsProperty header "alg"
  .ok { header, ct := jsText c (jsOr ct (.str "")), remoteDh := jsText c (jsOr remoteDh (.str "")),
        pn := jsCount c (jsOr pn (.int 0)), n := jsCount c (jsOr n (.int 0)),
        alg := jsText c (jsOr alg (.str c.longTermDhAlgo)) }

/-- `dhRatchet`: the state after, also where a DH secret is not derived. -/
def dhRatchetJs (generated : Nat) (m : Envelope) (st : BrowserState K) :
    BrowserState K × Except String Unit :=
  let dh := c.text m.remoteDh
  let moved : RatchetState K :=
    { skipMessageKeys c.toRatchetCrypto m.pn.limit st.ratchet with
      pn := st.ratchet.ns, ns := 0, nr := 0, dhRemote := dh }
  match c.exchange st.algo moved.dhSelfPriv dh with
  | .error e => ({ st with ratchet := moved }, .error e)
  | .ok () =>
    let receiving := c.kdfRk moved.rk (c.deriveDhSecret moved.dhSelfPriv dh)
    let priv := c.generate generated
    match c.exchange st.algo priv dh with
    | .error e =>
      ({ st with
          ratchet := { moved with
            rk := receiving.1, ckr := some receiving.2, dhSelfPub := c.publicKey priv,
            dhSelfPriv := priv } }, .error e)
    | .ok () =>
      ({ st with ratchet := dhRatchet c.toRatchetCrypto generated dh m.pn.limit st.ratchet }, .ok ())

/-- What follows the header: no result where the loop over the skipped keys does not end. -/
def finishDecrypt (m : Envelope) (st : BrowserState K) (peerId : String) (cache : StateCache K) :
    Option (StateCache K × Except String String) :=
  if m.n.endless = true ∧ skippedKey c.toSealing m st.ratchet = none ∧ st.ratchet.ckr ≠ none then
    none
  else
    match takeKey c.toSealing m st.ratchet with
    | none => some (cache, .error "no_receive_chain")
    | some (ratchet, mk) =>
      some (Function.update cache peerId (some { st with ratchet }), openMessage c.toSealing mk m)

def ratchetDecryptDM (generated : Nat) (peerId ciphertext : String) (cache : StateCache K) :
    Option (StateCache K × Except String String) :=
  if startsWith ciphertext "dr2:" = false then some (cache, .error "legacy")
  else
    match readEnvelopeJs c ciphertext with
    | .error e => some (cache, .error e)
    | .ok m =>
      match cache peerId with
      | none =>
        match c.exchange m.alg (c.longTermPriv c.self) (c.text m.remoteDh) with
        | .error e => some (cache, .error e)
        | .ok () =>
          finishDecrypt c m
            { ratchet := initReceiverState c.toRatchetCrypto c.self generated (c.text m.remoteDh)
              algo := m.alg } peerId cache
      | some st =>
        if Current c.toSealing m st.ratchet then finishDecrypt c m st peerId cache
        else if m.pn.endless = true ∧ st.ratchet.ckr ≠ none then none
        else
          -- The state in the cache is the one that the ratchet changes.
          match dhRatchetJs c generated m st with
          | (st, .error e) => some (Function.update cache peerId (some st), .error e)
          | (st, .ok ()) => finishDecrypt c m st peerId (Function.update cache peerId (some st))

def ratchetEncryptDM (generated : Nat) (peerId theirDhPub plaintext : String)
    (cache : StateCache K) : StateCache K × Except String (Header K × K) :=
  let algo := ((cache peerId).map BrowserState.algo).getD c.generatedAlgo
  match encryptFrom c.toSealing algo generated theirDhPub plaintext
      ((cache peerId).map BrowserState.ratchet) with
  | .error e => (cache, .error e)
  | .ok (ratchet, header, ct) =>
    (Function.update cache peerId (some { ratchet, algo }), .ok (header, ct))

/-- A decryption that does not end is passed over. -/
def browserCall (cache : StateCache K) : DmCall → StateCache K
  | .encrypt generated peerId theirDhPub plaintext =>
    (ratchetEncryptDM c generated peerId theirDhPub plaintext cache).1
  | .decrypt generated peerId ciphertext | .inject generated peerId ciphertext =>
    ((ratchetDecryptDM c generated peerId ciphertext cache).map Prod.fst).getD cache

def browserRead (cache : StateCache K) : DmCall → Option (Except String String)
  | .decrypt generated peerId ciphertext =>
    (ratchetDecryptDM c generated peerId ciphertext cache).map Prod.snd
  | _ => none

/-- The call is refused before the state in the cache is touched. -/
def UntouchedJs (m : Envelope) : Option (BrowserState K) → Prop
  | none => c.exchange m.alg (c.longTermPriv c.self) (c.text m.remoteDh) ≠ .ok ()
  | some st =>
    Current c.toSealing m st.ratchet ∧ skippedKey c.toSealing m st.ratchet = none ∧
      st.ratchet.ckr = none

def RefusedEarlyJs (ciphertext : String) (cached : Option (BrowserState K)) : Prop :=
  startsWith ciphertext "dr2:" = true → ∀ m, readEnvelopeJs c ciphertext = .ok m →
    UntouchedJs c m cached

def InjectsRefusedJs (cache : StateCache K) : DmCall → Prop
  | .inject _ peerId ciphertext => RefusedEarlyJs c ciphertext (cache peerId)
  | _ => True

end Browser

section

variable {K : Type} [DecidableEq K] {c : Sealing K} {m : Envelope} {st st' : RatchetState K} {mk : K}

theorem skipRounds_nr_le (c : RatchetCrypto K) (rounds : Nat) : ∀ st : RatchetState K,
    st.nr ≤ (skipRounds c rounds st).nr := by
  induction rounds with
  | zero => exact fun st => Nat.le_refl _
  | succ rounds ih =>
    intro st
    refine Nat.le_trans ?_ (ih (skipMessageKey c st))
    unfold skipMessageKey
    cases st.ckr with
    | none => exact Nat.le_refl _
    | some ck => exact Nat.le_succ _

theorem skipRounds_isSome (c : RatchetCrypto K) (rounds : Nat) : ∀ st : RatchetState K,
    (skipRounds c rounds st).ckr.isSome = st.ckr.isSome := by
  induction rounds with
  | zero => exact fun st => rfl
  | succ rounds ih => exact fun st => (ih (skipMessageKey c st)).trans skipMessageKey_isSome

/-- There is no key exactly where there is neither a skipped key nor a receiving chain. -/
theorem takeKey_eq_none :
    takeKey c m st = none ↔ skippedKey c m st = none ∧ st.ckr = none := by
  unfold takeKey
  cases hskipped : skippedKey c m st with
  | some entry => simp
  | none =>
    have hchain := skipRounds_isSome c.toRatchetCrypto (m.n.limit - st.nr) st
    dsimp only
    cases hckr : (skipMessageKeys c.toRatchetCrypto m.n.limit st).ckr with
    | none =>
      rw [skipMessageKeys] at hckr
      rw [hckr, Option.isSome_none] at hchain
      exact iff_of_true rfl ⟨rfl, Option.not_isSome_iff_eq_none.mp (ne_true_of_eq_false hchain.symm)⟩
    | some ck =>
      rw [skipMessageKeys] at hckr
      rw [hckr, Option.isSome_some] at hchain
      refine iff_of_false (Option.some_ne_none _) fun h => ?_
      rw [h.2, Option.isSome_none] at hchain
      exact Bool.noConfusion hchain

theorem takeKey_chain {ck : K} (h : st.ckr = some ck) : ∃ st' mk, takeKey c m st = some (st', mk) := by
  cases htake : takeKey c m st with
  | none => exact absurd (h.symm.trans (takeKey_eq_none.mp htake).2) (Option.some_ne_none _)
  | some taken => exact ⟨taken.1, taken.2, rfl⟩

/-- Taking a key moves the state on, and keeps the DH key of the other party. -/
theorem takeKey_moves (h : takeKey c m st = some (st', mk)) :
    st' ≠ st ∧ st'.dhRemote = st.dhRemote := by
  unfold takeKey at h
  cases hskipped : skippedKey c m st with
  | some entry =>
    obtain ⟨key, mk'⟩ := entry
    rw [hskipped] at h
    cases h
    refine ⟨fun heq => ?_, rfl⟩
    simp only [skippedKey, Option.bind_eq_bind, Option.bind_eq_some_iff, Option.some.injEq,
      Prod.mk.injEq] at hskipped
    obtain ⟨n, -, held, hheld, rfl, -⟩ := hskipped
    have hgone := @OrderedMap.lookup_filter_self _ _ _ ⟨c.text m.remoteDh, n⟩ st.skipped
    have hsame := congrArg RatchetState.skipped heq
    dsimp only at hsame
    rw [hsame] at hgone
    exact Option.some_ne_none _ (hheld.symm.trans hgone)
  | none =>
    rw [hskipped] at h
    dsimp only at h
    split at h
    · cases h
    · cases h
      refine ⟨fun heq => ?_, (skipMessageKeys_skips m.n.limit st).same.dhRemote⟩
      have hle := skipRounds_nr_le c.toRatchetCrypto (m.n.limit - st.nr) st
      have hnr := congrArg RatchetState.nr heq
      rw [skipMessageKeys] at hnr
      dsimp only at hnr
      omega

end

section

variable {K : Type} [DecidableEq K] {c : Backend K} {m : Envelope} {generated : Nat}
  {st st' : RatchetState K} {stored : Option (RatchetState K)} {mk : K}

theorem reachKey_eq_ok {taken : Option (RatchetState K × K)} :
    reachKey c generated m stored = .ok taken ↔ ∃ st, loadState c generated m stored = .ok st ∧
      ∃ st', followHeader c generated m st = .ok st' ∧ takeKey c.toSealing m st' = taken := by
  unfold reachKey
  simp only [bind_eq_ok, Except.ok.injEq]

omit [DecidableEq K] in
theorem loadState_none : loadState c generated m none = .ok st ↔
    c.exchange "X25519" (c.longTermPriv c.self) (c.text m.remoteDh) = .ok () ∧
      initReceiverState c.toRatchetCrypto c.self generated (c.text m.remoteDh) = st := by
  unfold loadState
  simp only [bind_eq_ok, Except.ok.injEq, Unique.exists_iff, PUnit.default_eq_unit]

theorem followHeader_current (h : Current c.toSealing m st) :
    followHeader c generated m st = .ok st := if_pos h

theorem followHeader_ratchet (h : ¬ Current c.toSealing m st) :
    followHeader c generated m st = .ok st' ↔
      c.exchange "X25519" st.dhSelfPriv (c.text m.remoteDh) = .ok () ∧
      c.exchange "X25519" (c.generate generated) (c.text m.remoteDh) = .ok () ∧
      dhRatchet c.toRatchetCrypto generated (c.text m.remoteDh) m.pn.limit st = st' := by
  unfold followHeader
  rw [if_neg h]
  simp only [bind_eq_ok, Except.ok.injEq, Unique.exists_iff, PUnit.default_eq_unit]

/-- Where a key is taken, the state that is stored is another one. -/
theorem reachKey_moves (h : reachKey c generated m stored = .ok (some (st', mk))) :
    stored ≠ some st' := by
  obtain ⟨st₀, hload, st, hfollow, htake⟩ := reachKey_eq_ok.mp h
  obtain ⟨hmoved, hremote⟩ := takeKey_moves htake
  rintro rfl
  obtain rfl : st' = st₀ := Except.ok.inj hload
  by_cases hcurrent : Current c.toSealing m st'
  · rw [followHeader_current hcurrent] at hfollow
    exact hmoved (Except.ok.inj hfollow)
  · obtain ⟨-, -, rfl⟩ := (followHeader_ratchet hcurrent).mp hfollow
    exact hcurrent (.inr hremote.symm)

theorem reachKey_unreached :
    (∀ st' mk, reachKey c generated m stored ≠ .ok (some (st', mk))) ↔
      Unreached c generated m stored := by
  cases stored with
  | none =>
    constructor
    · intro h hexchange
      obtain ⟨st', mk, htake⟩ := @takeKey_chain _ _ c.toSealing m
        (initReceiverState c.toRatchetCrypto c.self generated (c.text m.remoteDh)) _ rfl
      exact h st' mk (reachKey_eq_ok.mpr ⟨_, loadState_none.mpr ⟨hexchange, rfl⟩, _,
        followHeader_current (.inr rfl), htake⟩)
    · intro h st' mk hreach
      obtain ⟨_, hload, -⟩ := reachKey_eq_ok.mp hreach
      exact h (loadState_none.mp hload).1
  | some st =>
    by_cases hcurrent : Current c.toSealing m st
    · constructor
      · intro h
        refine ⟨fun _ => takeKey_eq_none.mp ?_, absurd hcurrent⟩
        cases htake : takeKey c.toSealing m st with
        | none => rfl
        | some taken =>
          exact absurd (reachKey_eq_ok.mpr ⟨st, rfl, st, followHeader_current hcurrent, htake⟩)
            (h taken.1 taken.2)
      · intro h st' mk hreach
        obtain ⟨_, hload, _, hfollow, htake⟩ := reachKey_eq_ok.mp hreach
        obtain rfl := Except.ok.inj hload
        rw [followHeader_current hcurrent] at hfollow
        obtain rfl := Except.ok.inj hfollow
        exact Option.some_ne_none _ (htake.symm.trans (takeKey_eq_none.mpr (h.1 hcurrent)))
    · constructor
      · intro h
        refine ⟨fun h' => absurd h' hcurrent, fun _ => ?_⟩
        by_contra hexchange
        push Not at hexchange
        obtain ⟨st', mk, htake⟩ := @takeKey_chain _ _ c.toSealing m
          (dhRatchet c.toRatchetCrypto generated (c.text m.remoteDh) m.pn.limit st) _ rfl
        exact h st' mk (reachKey_eq_ok.mpr ⟨st, rfl, _,
          (followHeader_ratchet hcurrent).mpr ⟨hexchange.1, hexchange.2, rfl⟩, htake⟩)
      · intro h st' mk hreach
        obtain ⟨_, hload, _, hfollow, -⟩ := reachKey_eq_ok.mp hreach
        obtain rfl := Except.ok.inj hload
        obtain ⟨hfirst, hsecond, -⟩ := (followHeader_ratchet hcurrent).mp hfollow
        rcases h.2 hcurrent with hfail | hfail
        · exact hfail hfirst
        · exact hfail hsecond

/-- A call that gets to a key stores the state after it, and any other one stores nothing. -/
theorem decryptWormholeDm_states (generated : Nat) (peerId ciphertext : String)
    (states : States K) :
    (decryptWormholeDm c generated peerId ciphertext states).1 = states ↔
      RefusedEarly c generated ciphertext (states peerId) := by
  unfold decryptWormholeDm RefusedEarly
  by_cases hprefix : startsWith ciphertext "dr2:" = false
  · rw [if_pos hprefix]
    exact iff_of_true rfl fun h => absurd h (ne_true_of_eq_false hprefix)
  · rw [if_neg hprefix]
    cases henvelope : readEnvelope c ciphertext with
    | error e => exact iff_of_true rfl fun _ m hm => by cases hm
    | ok m =>
      have hunreached := @reachKey_unreached _ _ c m generated (states peerId)
      have hof : (∀ m', Except.ok m = (.ok m' : Except String Envelope) →
          Unreached c generated m' (states peerId)) ↔ Unreached c generated m (states peerId) :=
        ⟨fun h => h m rfl, fun h m' hm' => Except.ok.inj hm' ▸ h⟩
      rw [hof, ← hunreached, forall_prop_of_true (eq_true_of_ne_false hprefix)]
      dsimp only
      cases hreach : reachKey c generated m (states peerId) with
      | error e => exact iff_of_true rfl fun st' mk h => by cases h
      | ok taken =>
        cases taken with
        | none => exact iff_of_true rfl fun st' mk h => by cases h
        | some taken =>
          refine iff_of_false (fun h => ?_) fun h => h taken.1 taken.2 rfl
          exact reachKey_moves hreach
            ((congrFun h peerId).symm.trans (Function.update_self _ _ _))

theorem wormhole_leave_out {states : States K} {calls : List DmCall}
    (h : Along (wormholeCall c) (InjectsRefused c) states calls) :
    run (wormholeCall c) states calls = run (wormholeCall c) states (calls.filter DmCall.honest) ∧
      outputs (wormholeCall c) (wormholeRead c) states calls =
        outputs (wormholeCall c) (wormholeRead c) states (calls.filter DmCall.honest) := by
  apply leave_out
  refine @Along.imp _ _ _ _ _ (fun _ => True) (fun _ _ _ _ => trivial) ?_ _ trivial _ h
  intro states call _ hrefused hinjected
  cases call with
  | encrypt => cases hinjected
  | decrypt => cases hinjected
  | inject generated peerId ciphertext =>
    exact ⟨(decryptWormholeDm_states generated peerId ciphertext states).mpr hrefused, rfl⟩

end

section

variable {K : Type} [DecidableEq K] {c : Browser K} {m : Envelope} {generated : Nat}
  {peerId : String} {cache cache' : StateCache K} {st : BrowserState K}
  {result : Except String String}

/-- The ratchet of the browser always takes over the new DH key. -/
theorem dhRatchetJs_remote :
    (dhRatchetJs c generated m st).1.ratchet.dhRemote = c.text m.remoteDh := by
  unfold dhRatchetJs
  dsimp only
  split
  · rfl
  · split <;> rfl

theorem dhRatchetJs_chain (h : (dhRatchetJs c generated m st).2 = .ok ()) :
    ∃ ck, (dhRatchetJs c generated m st).1.ratchet.ckr = some ck := by
  unfold dhRatchetJs at h ⊢
  dsimp only at h ⊢
  split at h
  · cases h
  · split at h
    · cases h
    · exact ⟨_, rfl⟩

/-- Where there is a key, the state that is stored is not the one before, and keeps its DH key. -/
theorem finishDecrypt_some (h : finishDecrypt c m st peerId cache = some (cache', result)) :
    (skippedKey c.toSealing m st.ratchet = none ∧ st.ratchet.ckr = none ∧ cache' = cache ∧
      ∃ e, result = .error e) ∨
    (¬ (skippedKey c.toSealing m st.ratchet = none ∧ st.ratchet.ckr = none) ∧
      ∃ st' : BrowserState K, cache' peerId = some st' ∧ st'.ratchet ≠ st.ratchet ∧
        st'.ratchet.dhRemote = st.ratchet.dhRemote) := by
  unfold finishDecrypt at h
  split_ifs at h
  cases htake : takeKey c.toSealing m st.ratchet with
  | none =>
    obtain ⟨hskipped, hchain⟩ := takeKey_eq_none.mp htake
    rw [htake] at h
    cases h
    exact .inl ⟨hskipped, hchain, rfl, _, rfl⟩
  | some taken =>
    obtain ⟨ratchet, mk⟩ := taken
    rw [htake] at h
    cases h
    obtain ⟨hmoved, hremote⟩ := takeKey_moves htake
    refine .inr ⟨fun hnone => ?_, _, Function.update_self _ _ _, hmoved, hremote⟩
    exact Option.some_ne_none _ (htake.symm.trans (takeKey_eq_none.mpr hnone))

/-- A message with a new DH key that leaves the cache as it was has the DH key of the state. -/
theorem remote_of_unchanged {ciphertext : String} (hversion : ¬ startsWith ciphertext "dr2:" = false)
    (henvelope : readEnvelopeJs c ciphertext = .ok m) (hstored : cache peerId = some st)
    (hcurrent : ¬ Current c.toSealing m st.ratchet)
    (h : ratchetDecryptDM c generated peerId ciphertext cache = some (cache, result)) :
    st.ratchet.dhRemote = c.text m.remoteDh := by
  unfold ratchetDecryptDM at h
  rw [if_neg hversion, henvelope] at h
  dsimp only at h
  rw [hstored] at h
  dsimp only at h
  rw [if_neg hcurrent] at h
  split_ifs at h
  have hratcheted := @dhRatchetJs_remote _ _ c m generated st
  split at h
  · rename_i st' e hratchet
    rw [hratchet] at hratcheted
    have hsame := congrFun (congrArg Prod.fst (Option.some.inj h)) peerId
    dsimp only at hsame
    rw [hstored, Function.update_self] at hsame
    rwa [Option.some.inj hsame] at hratcheted
  · rename_i st' hratchet
    have hchained := dhRatchetJs_chain (congrArg Prod.snd hratchet)
    rw [hratchet] at hratcheted hchained
    obtain ⟨ck, hck⟩ := hchained
    rcases finishDecrypt_some h with ⟨-, hnone, -⟩ | ⟨-, st'', hst'', -, hkept⟩
    · exact absurd (hck.symm.trans hnone) (Option.some_ne_none _)
    · rw [hstored] at hst''
      obtain rfl := Option.some.inj hst''
      exact hkept.trans hratcheted

/-- A call that ends leaves the cache as it was exactly where it is refused early. -/
theorem ratchetDecryptDM_cache {ciphertext : String}
    (h : ratchetDecryptDM c generated peerId ciphertext cache = some (cache', result)) :
    cache' = cache ↔ RefusedEarlyJs c ciphertext (cache peerId) := by
  have hwhole := h
  unfold ratchetDecryptDM at h
  unfold RefusedEarlyJs
  by_cases hprefix : startsWith ciphertext "dr2:" = false
  · rw [if_pos hprefix] at h
    cases h
    exact iff_of_true rfl fun h => absurd h (ne_true_of_eq_false hprefix)
  · rw [if_neg hprefix] at h
    rw [forall_prop_of_true (eq_true_of_ne_false hprefix)]
    cases henvelope : readEnvelopeJs c ciphertext with
    | error e =>
      rw [henvelope] at h
      cases h
      exact iff_of_true rfl fun m hm => by cases hm
    | ok m =>
      have hof : (∀ m', Except.ok m = (.ok m' : Except String Envelope) →
          UntouchedJs c m' (cache peerId)) ↔ UntouchedJs c m (cache peerId) :=
        ⟨fun h => h m rfl, fun h m' hm' => Except.ok.inj hm' ▸ h⟩
      rw [hof]
      rw [henvelope] at h
      dsimp only at h
      cases hstored : cache peerId with
      | none =>
        rw [hstored] at h
        dsimp only at h
        cases hexchange : c.exchange m.alg (c.longTermPriv c.self) (c.text m.remoteDh) with
        | error e =>
          rw [hexchange] at h
          cases h
          exact iff_of_true rfl fun hok => by rw [hexchange] at hok; cases hok
        | ok u =>
          rw [hexchange] at h
          refine iff_of_false ?_ fun hfail => hfail hexchange
          rintro rfl
          rcases finishDecrypt_some h with ⟨-, hchain, -⟩ | ⟨-, st', hst', -⟩
          · cases hchain
          · exact Option.some_ne_none _ (hst'.symm.trans hstored)
      | some st =>
        rw [hstored] at h
        dsimp only at h
        by_cases hcurrent : Current c.toSealing m st.ratchet
        · rw [if_pos hcurrent] at h
          rcases finishDecrypt_some h with ⟨hskipped, hchain, rfl, -⟩ | ⟨hkey, st', hst', hmoved, -⟩
          · exact iff_of_true rfl ⟨hcurrent, hskipped, hchain⟩
          · refine iff_of_false ?_ fun h => hkey h.2
            rintro rfl
            exact hmoved (congrArg BrowserState.ratchet (Option.some.inj (hst'.symm.trans hstored)))
        · refine iff_of_false ?_ fun h => hcurrent h.1
          rintro rfl
          -- The DH key of the state in the cache is now the one of the message.
          have hremote := remote_of_unchanged hprefix henvelope hstored hcurrent hwhole
          exact hcurrent (.inr hremote.symm)

theorem rejected_of_refusedEarlyJs {ciphertext : String}
    (h : RefusedEarlyJs c ciphertext (cache peerId)) :
    ∃ e, ratchetDecryptDM c generated peerId ciphertext cache = some (cache, .error e) := by
  unfold RefusedEarlyJs at h
  unfold ratchetDecryptDM
  by_cases hprefix : startsWith ciphertext "dr2:" = false
  · rw [if_pos hprefix]
    exact ⟨_, rfl⟩
  · rw [if_neg hprefix]
    cases henvelope : readEnvelopeJs c ciphertext with
    | error e => exact ⟨_, rfl⟩
    | ok m =>
      have huntouched := h (eq_true_of_ne_false hprefix) m henvelope
      dsimp only
      cases hstored : cache peerId with
      | none =>
        rw [hstored] at huntouched
        dsimp only
        cases hexchange : c.exchange m.alg (c.longTermPriv c.self) (c.text m.remoteDh) with
        | error e => exact ⟨_, rfl⟩
        | ok u => exact absurd hexchange huntouched
      | some st =>
        rw [hstored] at huntouched
        obtain ⟨hcurrent, hskipped, hchain⟩ := huntouched
        dsimp only
        unfold finishDecrypt
        rw [if_pos hcurrent, if_neg fun h => h.2.2 hchain, takeKey_eq_none.mpr ⟨hskipped, hchain⟩]
        exact ⟨_, rfl⟩

theorem browser_leave_out {calls : List DmCall}
    (h : Along (browserCall c) (InjectsRefusedJs c) cache calls) :
    run (browserCall c) cache calls = run (browserCall c) cache (calls.filter DmCall.honest) ∧
      outputs (browserCall c) (browserRead c) cache calls =
        outputs (browserCall c) (browserRead c) cache (calls.filter DmCall.honest) := by
  apply leave_out
  refine @Along.imp _ _ _ _ _ (fun _ => True) (fun _ _ _ _ => trivial) ?_ _ trivial _ h
  intro cache call _ hrefused hinjected
  cases call with
  | encrypt => cases hinjected
  | decrypt => cases hinjected
  | inject generated peerId ciphertext =>
    obtain ⟨e, hcall⟩ := @rejected_of_refusedEarlyJs _ _ c generated peerId cache ciphertext hrefused
    refine ⟨?_, rfl⟩
    change ((ratchetDecryptDM c generated peerId ciphertext cache).map Prod.fst).getD cache = cache
    rw [hcall]
    rfl

end

/-- The answer is not ok. -/
def Rejected (result : Except String String) : Prop := ∃ e, result = .error e

/-- A rejected message changes nothing exactly if it is refused before a key is taken or the ratchet
moves. -/
theorem rejected_changes_nothing {K : Type} [DecidableEq K] (c : Backend K) (b : Browser K) :
    (∀ generated peerId ciphertext states,
      Rejected (decryptWormholeDm c generated peerId ciphertext states).2 →
      ((decryptWormholeDm c generated peerId ciphertext states).1 = states ↔
        RefusedEarly c generated ciphertext (states peerId))) ∧
    (∀ states calls, Along (wormholeCall c) (InjectsRefused c) states calls →
      outputs (wormholeCall c) (wormholeRead c) states calls =
        outputs (wormholeCall c) (wormholeRead c) states (calls.filter DmCall.honest)) ∧
    (∀ generated peerId ciphertext cache cache' result,
      ratchetDecryptDM b generated peerId ciphertext cache = some (cache', result) →
      Rejected result → (cache' = cache ↔ RefusedEarlyJs b ciphertext (cache peerId))) ∧
    (∀ cache calls, Along (browserCall b) (InjectsRefusedJs b) cache calls →
      outputs (browserCall b) (browserRead b) cache calls =
        outputs (browserCall b) (browserRead b) cache (calls.filter DmCall.honest)) :=
  ⟨fun generated peerId ciphertext states _ =>
      decryptWormholeDm_states generated peerId ciphertext states,
    fun _ _ h => (wormhole_leave_out h).2,
    fun _ _ _ _ _ _ h _ => ratchetDecryptDM_cache h,
    fun _ _ h => (browser_leave_out h).2⟩

/-! ## A forged message -/

/-- The base64 text of a DH key. -/
def sampleDh : String := "CQAAAAAAAAAAAAAAAAAAAAAAAAAAAAAAAAAAAAAAAAA="

def samplePayload (ct : String) : PyVal :=
  .dict [("ct", .str ct), ("h", .dict [("dh", .str sampleDh), ("n", .int 0), ("pn", .int 0)])]

/-- The base64 text of a message that the other party sealed. -/
def sealedRaw : String :=
  "eyJjdCI6ImMyVmhiR1ZrIiwiaCI6eyJkaCI6IkNRQUFBQUFBQUFBQUFBQUFBQUFBQUFBQUFBQUFBQUFBQUFB" ++
    "QUFBQUFBQUE9IiwibiI6MCwicG4iOjB9fQ=="

/-- The same header with another ciphertext. -/
def forgedRaw : String :=
  "eyJjdCI6IlptOXlaMlZrIiwiaCI6eyJkaCI6IkNRQUFBQUFBQUFBQUFBQUFBQUFBQUFBQUFBQUFBQUFBQUFB" ++
    "QUFBQUFBQUE9IiwibiI6MCwicG4iOjB9fQ=="

/-- A text is the value of its bytes, and the sealed message opens under the first key. -/
def sampleSealing : Sealing KeyTerm where
  toRatchetCrypto := symbolicCrypto
  self := .b
  text s := .aes .zero s.toByteArray.data.toList .zero 0 0
  text_injective s t h := by
    injection h with _ hbytes
    exact String.toByteArray_inj.mp (ByteArray.ext (Array.toList_inj.mp hbytes))
  readPayload raw :=
    if raw = sealedRaw then .ok (samplePayload "c2VhbGVk")
    else if raw = forgedRaw then .ok (samplePayload "Zm9yZ2Vk")
    else .error "Incorrect padding"
  exchange _ _ _ := .ok ()
  openText mk ct _ :=
    if ct = "c2VhbGVk" ∧ mk = .message .zero then .ok [104, 105] else .error ""

def sampleBackend : Backend KeyTerm where
  toSealing := sampleSealing
  rt := asciiRuntime
  dictOf _ := .error "TypeError"
  attributeError _ := "AttributeError"

def sampleBrowser : Browser KeyTerm where
  toSealing := sampleSealing
  jsString _ := ""
  jsNumber _ := .nan
  longTermDhAlgo := "X25519"
  generatedAlgo := "X25519"

/-- A state that waits for the first message of a chain. -/
def waitingState : RatchetState KeyTerm where
  rk := .zero
  cks := none
  ckr := some .zero
  dhSelfPub := .pub (.priv 2)
  dhSelfPriv := .priv 2
  dhRemote := sampleSealing.text sampleDh

def sampleStates : States KeyTerm := fun _ => some waitingState

def sampleCache : StateCache KeyTerm := fun _ => some { ratchet := waitingState, algo := "X25519" }

/-- A forged message before the one that was sealed. -/
def sampleCalls : List DmCall :=
  [.inject 0 "alice" ("dr2:" ++ forgedRaw), .decrypt 0 "alice" ("dr2:" ++ sealedRaw)]

/-- A text that is not an envelope is refused early, and can be left out. -/
theorem rejected_changes_nothing_sample :
    (decryptWormholeDm sampleBackend 0 "alice" "dr2:" sampleStates).1 = sampleStates ∧
      outputs (browserCall sampleBrowser) (browserRead sampleBrowser) sampleCache
          [.inject 0 "alice" "dr2:", .decrypt 0 "alice" ("dr2:" ++ sealedRaw)] = [.ok "hi"] := by
  obtain ⟨hstates, -, -, hleave⟩ := rejected_changes_nothing sampleBackend sampleBrowser
  have hbackend : readEnvelope sampleBackend "dr2:" = .error "Incorrect padding" := rfl
  have hbrowser : readEnvelopeJs sampleBrowser "dr2:" = .error "Incorrect padding" := rfl
  constructor
  · refine (hstates 0 "alice" "dr2:" sampleStates ⟨_, rfl⟩).mpr fun _ m hm => ?_
    rw [hbackend] at hm
    cases hm
  · refine (hleave sampleCache
      [.inject 0 "alice" "dr2:", .decrypt 0 "alice" ("dr2:" ++ sealedRaw)] ?_).trans ?_
    · refine ⟨fun _ m hm => ?_, trivial, trivial⟩
      rw [hbrowser] at hm
      cases hm
    · decide +kernel

/-- After a forged message that was rejected, the message that was sealed does not open. -/
theorem not_rejected_changes_nothing :
    (Rejected (decryptWormholeDm sampleBackend 0 "alice" ("dr2:" ++ forgedRaw) sampleStates).2 ∧
      (decryptWormholeDm sampleBackend 0 "alice" ("dr2:" ++ forgedRaw) sampleStates).1 ≠
        sampleStates ∧
      outputs (wormholeCall sampleBackend) (wormholeRead sampleBackend) sampleStates sampleCalls ≠
        outputs (wormholeCall sampleBackend) (wormholeRead sampleBackend) sampleStates
          (sampleCalls.filter DmCall.honest)) ∧
    (∃ cache result,
      ratchetDecryptDM sampleBrowser 0 "alice" ("dr2:" ++ forgedRaw) sampleCache =
        some (cache, result) ∧ Rejected result ∧ cache ≠ sampleCache) ∧
      outputs (browserCall sampleBrowser) (browserRead sampleBrowser) sampleCache sampleCalls ≠
        outputs (browserCall sampleBrowser) (browserRead sampleBrowser) sampleCache
          (sampleCalls.filter DmCall.honest) := by
  have hresult : (ratchetDecryptDM sampleBrowser 0 "alice" ("dr2:" ++ forgedRaw) sampleCache).map
      Prod.snd = some (.error "") := by decide +kernel
  have hnumber : (ratchetDecryptDM sampleBrowser 0 "alice" ("dr2:" ++ forgedRaw) sampleCache).bind
      (fun answer => (answer.1 "alice").map fun st => st.ratchet.nr) = some 1 := by decide +kernel
  obtain ⟨⟨cache, result⟩, hcall, rfl⟩ := Option.map_eq_some_iff.mp hresult
  rw [hcall] at hnumber
  refine ⟨⟨⟨"ratchet_decrypt_failed", by decide +kernel⟩, fun h => ?_, by decide +kernel⟩,
    ⟨cache, .error "", hcall, ⟨"", rfl⟩, ?_⟩, by decide +kernel⟩
  · have hnr := congrArg (Option.map RatchetState.nr) (congrFun h "alice")
    revert hnr
    decide +kernel
  · rintro rfl
    cases hnumber

end Vincent.Dm
