-- SUMMARY: The DM ratchet: state, skipped keys, encryption and decryption.
import Vincent.General.OrderedMap
import Mathlib.Order.Basic
import Mathlib.Logic.Function.Iterate

/-!
# The DM ratchet

Each party holds a root key, a sending chain, a receiving chain and the keys of
skipped messages. A new DH key of the other party replaces both chains. One model
serves the browser and the backend.

Byte strings are values of a type `K`, and the primitives are given.
-/

namespace Vincent.Dm

def maxSkip : Nat := 32

/-- The parties of a conversation: `a` starts it. -/
inductive Party where
  | a
  | b
deriving DecidableEq

def Party.other : Party → Party
  | .a => .b
  | .b => .a

/-- The header of a message, without the version and the algorithm, which are always the same. -/
structure Header (K : Type) where
  dh : K
  pn : Nat
  n : Nat
deriving DecidableEq

/-- What the ratchet computes with: X25519, HKDF, HMAC, AES-GCM, and texts as bytes. -/
structure RatchetCrypto (K : Type) where
  zeroBytes : K
  longTermPriv : Party → K
  /-- The private keys that `_generate_ratchet_key_pair` makes, one after the other. -/
  generate : Nat → K
  publicKey : K → K
  deriveDhSecret : K → K → K
  kdfRk : K → K → K × K
  kdfCk : K → K × K
  aesEncrypt : K → List UInt8 → Header K → K
  aesDecrypt : K → K → Header K → Option (List UInt8)
  /-- `s.encode("utf-8")`. -/
  encode : String → List UInt8
  /-- `data.decode("utf-8", errors="replace")`. -/
  decode : List UInt8 → String
  urandom : Nat → List UInt8
  dh_comm : ∀ x y, deriveDhSecret x (publicKey y) = deriveDhSecret y (publicKey x)
  aes_decrypt : ∀ mk data header, aesDecrypt mk (aesEncrypt mk data header) header = some data
  fresh : Function.Injective fun i => publicKey (generate i)
  fresh_longTerm : ∀ p i, publicKey (generate i) ≠ publicKey (longTermPriv p)

/-- `skip_key`: the DH key and the number of a message. -/
structure SkipKey (K : Type) where
  dh : K
  n : Nat
deriving DecidableEq

/-- The state of a party, with the keys that it skipped. -/
structure RatchetState (K : Type) where
  rk : K
  cks : Option K
  ckr : Option K
  dhSelfPub : K
  dhSelfPriv : K
  dhRemote : K
  ns : Nat := 0
  nr : Nat := 0
  pn : Nat := 0
  skipped : OrderedMap (SkipKey K) K := []

section Model

variable {K : Type} [DecidableEq K] (c : RatchetCrypto K)

/-! ## Padding -/

/-- The bytes of `PAD_MAGIC`. -/
def padMagic : List UInt8 := [83, 66, 80, 49]

/-- The length that a payload is padded to. -/
def padTarget (length : Nat) : Nat :=
  if length + 6 > 1024 then (length + 6 + 512 - 1) / 512 * 512 else 1024

def buildPaddedPayload (plaintext : String) : List UInt8 :=
  let data := c.encode plaintext
  padMagic ++ [.ofNat (data.length / 256 % 256), .ofNat (data.length % 256)] ++ data ++
    c.urandom (padTarget data.length - (6 + data.length))

/-- `(data[4] << 8) + data[5]`. -/
def paddedLength (data : List UInt8) : Nat :=
  (data[4]?.getD 0).toNat * 256 + (data[5]?.getD 0).toNat

def unpadPayload (data : List UInt8) : String :=
  if data.length < 6 ∨ data.take 4 ≠ padMagic then c.decode data
  else if paddedLength data = 0 ∨ data.length < 6 + paddedLength data then c.decode data
  else c.decode ((data.drop 6).take (paddedLength data))

def aesGcmEncrypt (mk : K) (plaintext : String) (header : Header K) : K :=
  c.aesEncrypt mk (buildPaddedPayload c plaintext) header

def aesGcmDecrypt (mk ct : K) (header : Header K) : Option String :=
  unpadPayload c <$> c.aesDecrypt mk ct header

/-! ## Steps of the ratchet -/

/-- One round of the loop of `_skip_message_keys`. -/
def skipMessageKey (st : RatchetState K) : RatchetState K :=
  match st.ckr with
  | none => st
  | some ck =>
    { st with
      skipped :=
        if st.skipped.length < maxSkip then
          st.skipped.insert ⟨st.dhRemote, st.nr⟩ (c.kdfCk ck).2
        else st.skipped
      ckr := some (c.kdfCk ck).1
      nr := st.nr + 1 }

def skipRounds : Nat → RatchetState K → RatchetState K
  | 0, st => st
  | rounds + 1, st => skipRounds rounds (skipMessageKey c st)

def skipMessageKeys (limit : Nat) (st : RatchetState K) : RatchetState K :=
  skipRounds c (limit - st.nr) st

/-- `_dh_ratchet`, which generates the key pair `generated`. -/
def dhRatchet (generated : Nat) (remoteDh : K) (pn : Nat) (st : RatchetState K) :
    RatchetState K :=
  let st := skipMessageKeys c pn st
  let receiving := c.kdfRk st.rk (c.deriveDhSecret st.dhSelfPriv remoteDh)
  let priv := c.generate generated
  let sending := c.kdfRk receiving.1 (c.deriveDhSecret priv remoteDh)
  { rk := sending.1, cks := some sending.2, ckr := some receiving.2,
    dhSelfPub := c.publicKey priv, dhSelfPriv := priv, dhRemote := remoteDh, pn := st.ns,
    skipped := st.skipped }

def initSenderState (generated : Nat) (theirDhPub : K) : RatchetState K :=
  let priv := c.generate generated
  let out := c.kdfRk c.zeroBytes (c.deriveDhSecret priv theirDhPub)
  { rk := out.1, cks := some out.2, ckr := none, dhSelfPub := c.publicKey priv, dhSelfPriv := priv,
    dhRemote := theirDhPub }

def initReceiverState (p : Party) (generated : Nat) (senderDhPub : K) : RatchetState K :=
  let out := c.kdfRk c.zeroBytes (c.deriveDhSecret (c.longTermPriv p) senderDhPub)
  let priv := c.generate generated
  { rk := out.1, cks := none, ckr := some out.2, dhSelfPub := c.publicKey priv, dhSelfPriv := priv,
    dhRemote := senderDhPub }

/-- `_ensure_send_chain`, with the key of the chain. -/
def ensureSendChain (st : RatchetState K) : RatchetState K × K :=
  match st.cks with
  | some ck => (st, ck)
  | none =>
    let out := c.kdfRk st.rk (c.deriveDhSecret st.dhSelfPriv st.dhRemote)
    ({ st with rk := out.1, cks := some out.2 }, out.2)

/-! ## Encryption and decryption -/

/-- `encrypt_wormhole_dm` and `ratchetEncryptDM` from a state: the state after, the header and the
    ciphertext. -/
def encryptIn (plaintext : String) (st : RatchetState K) : RatchetState K × Header K × K :=
  let (st, ck) := ensureSendChain c st
  let header : Header K := { dh := st.dhSelfPub, pn := st.pn, n := st.ns }
  ({ st with ns := st.ns + 1, cks := some (c.kdfCk ck).1 }, header,
    aesGcmEncrypt c (c.kdfCk ck).2 plaintext header)

/-- The key of a message, and the state after it is taken. -/
def takeMessageKey (header : Header K) (st : RatchetState K) : Option (RatchetState K × K) :=
  match st.skipped.lookup ⟨header.dh, header.n⟩ with
  | some mk =>
    some ({ st with skipped := st.skipped.filter fun kv => kv.1 ≠ ⟨header.dh, header.n⟩ }, mk)
  | none =>
    let st := skipMessageKeys c header.n st
    match st.ckr with
    | none => none
    | some ck => some ({ st with ckr := some (c.kdfCk ck).1, nr := st.nr + 1 }, (c.kdfCk ck).2)

/-- The ratchet step of a decryption, with the number of keys generated after it. -/
def followRatchet (generated : Nat) (header : Header K) (st : RatchetState K) :
    RatchetState K × Nat :=
  if header.dh = st.dhRemote then (st, generated)
  else (dhRatchet c generated header.dh header.pn st, generated + 1)

end Model

/-! ## Whole texts -/

section

variable {K : Type} {c : RatchetCrypto K}

/-- The text is not empty, its length fits in two bytes, and it is read back from its bytes. -/
structure Whole (c : RatchetCrypto K) (plaintext : String) : Prop where
  nonempty : 0 < (c.encode plaintext).length
  short : (c.encode plaintext).length < 65536
  decode : c.decode (c.encode plaintext) = plaintext

theorem unpad_buildPaddedPayload {plaintext : String} (h : Whole c plaintext) :
    unpadPayload c (buildPaddedPayload c plaintext) = plaintext := by
  have hpos := h.nonempty
  have hshort := h.short
  unfold buildPaddedPayload
  dsimp only
  generalize hdata : c.encode plaintext = data at hpos hshort
  generalize c.urandom (padTarget data.length - (6 + data.length)) = pad
  have hlength : paddedLength (padMagic ++ [.ofNat (data.length / 256 % 256),
      .ofNat (data.length % 256)] ++ data ++ pad) = data.length := by
    simp only [paddedLength, padMagic, List.cons_append, List.nil_append, List.getElem?_cons_succ,
      List.getElem?_cons_zero, Option.getD_some, UInt8.toNat_ofNat']
    omega
  unfold unpadPayload
  rw [hlength, if_neg, if_neg]
  · simp only [padMagic, List.cons_append, List.nil_append, List.drop_succ_cons, List.drop_zero]
    rw [List.take_left, ← hdata, h.decode]
  · simp only [List.length_append, List.length_cons, padMagic, List.length_nil]
    omega
  · simp [padMagic]

theorem aesGcmDecrypt_encrypt {plaintext : String} (h : Whole c plaintext) (mk : K)
    (header : Header K) :
    aesGcmDecrypt c mk (aesGcmEncrypt c mk plaintext header) header = some plaintext := by
  unfold aesGcmDecrypt aesGcmEncrypt
  rw [c.aes_decrypt]
  exact congrArg some (unpad_buildPaddedPayload h)

end

/-! ## Keys of a conversation -/

section Keys

variable {K : Type} (c : RatchetCrypto K)

/-- The DH key of chain `k`, in the order in which key pairs are generated. -/
def dhOf (k : Nat) : K := c.publicKey (c.generate k)

/-- The DH key of the other party that chain `k` answers. -/
def answered : Nat → K
  | 0 => c.publicKey (c.longTermPriv .b)
  | k + 1 => dhOf c k

/-- The root key and the first chain key of chain `k`. -/
def rootOf : Nat → K × K
  | 0 => c.kdfRk c.zeroBytes (c.deriveDhSecret (c.generate 0) (answered c 0))
  | k + 1 => c.kdfRk (rootOf k).1 (c.deriveDhSecret (c.generate (k + 1)) (answered c (k + 1)))

def chainKey (k n : Nat) : K := (fun ck => (c.kdfCk ck).1)^[n] (rootOf c k).2

/-- The key of message `n` of chain `k`. -/
def messageKey (k n : Nat) : K := (c.kdfCk (chainKey c k n)).2

variable {c}

theorem chainKey_succ (k n : Nat) : chainKey c k (n + 1) = (c.kdfCk (chainKey c k n)).1 :=
  Function.iterate_succ_apply' _ _ _

theorem dhOf_injective : Function.Injective (dhOf c) := c.fresh

/-- A chain does not answer a key that was generated with it or later. -/
theorem dhOf_ne_answered {j k : Nat} (h : k ≤ j) : dhOf c j ≠ answered c k := by
  cases k with
  | zero => exact c.fresh_longTerm .b j
  | succ k =>
    intro heq
    have hjk : j = k := dhOf_injective heq
    omega

end Keys

/-! ## Skipping -/

section

variable {K : Type} {st st' : RatchetState K}

/-- The fields that skipping leaves alone. -/
structure SameSender (st st' : RatchetState K) : Prop where
  rk : st'.rk = st.rk
  cks : st'.cks = st.cks
  dhSelfPub : st'.dhSelfPub = st.dhSelfPub
  dhSelfPriv : st'.dhSelfPriv = st.dhSelfPriv
  dhRemote : st'.dhRemote = st.dhRemote
  ns : st'.ns = st.ns
  pn : st'.pn = st.pn

theorem SameSender.refl (st : RatchetState K) : SameSender st st :=
  ⟨rfl, rfl, rfl, rfl, rfl, rfl, rfl⟩

theorem SameSender.trans {st'' : RatchetState K} (h : SameSender st st')
    (h' : SameSender st' st'') : SameSender st st'' :=
  ⟨h'.rk.trans h.rk, h'.cks.trans h.cks, h'.dhSelfPub.trans h.dhSelfPub,
    h'.dhSelfPriv.trans h.dhSelfPriv, h'.dhRemote.trans h.dhRemote, h'.ns.trans h.ns,
    h'.pn.trans h.pn⟩

end

section

variable {K : Type} [DecidableEq K] {c : RatchetCrypto K} {st st' : RatchetState K} {j : Nat}

/-- The state receives chain `j`. -/
structure OnChain (c : RatchetCrypto K) (j : Nat) (st : RatchetState K) : Prop where
  remote : st.dhRemote = dhOf c j
  chain : st.ckr = some (chainKey c j st.nr)

/-- What skipping to a number leaves alone, and how many keys it stores. -/
structure Skips (limit : Nat) (st st' : RatchetState K) : Prop where
  same : SameSender st st'
  length : st'.skipped.length ≤
    st.skipped.length + if st.ckr.isSome then limit - st.nr else 0
  rest : ∀ key, key.dh ≠ st.dhRemote → st'.skipped.lookup key = st.skipped.lookup key

/-- The keys that skipping to a number stores on a chain. -/
structure Stores (c : RatchetCrypto K) (j limit : Nat) (st st' : RatchetState K) : Prop where
  nr : st'.nr = max st.nr limit
  chain : OnChain c j st'
  held : ∀ n, st.nr ≤ n → n < limit →
    st'.skipped.lookup ⟨dhOf c j, n⟩ = some (messageKey c j n)
  rest : ∀ key, (∀ n, st.nr ≤ n → n < limit → key ≠ ⟨dhOf c j, n⟩) →
    st'.skipped.lookup key = st.skipped.lookup key

theorem skipMessageKey_length : (skipMessageKey c st).skipped.length ≤
    st.skipped.length + if st.ckr.isSome then 1 else 0 := by
  unfold skipMessageKey
  cases st.ckr with
  | none => exact Nat.le_refl _
  | some ck =>
    rw [Option.isSome_some, if_pos rfl]
    dsimp only
    split_ifs
    · exact OrderedMap.length_insert_le
    · exact Nat.le_succ _

theorem skipMessageKey_rest {key : SkipKey K} (h : key.dh ≠ st.dhRemote) :
    (skipMessageKey c st).skipped.lookup key = st.skipped.lookup key := by
  unfold skipMessageKey
  cases st.ckr with
  | none => rfl
  | some ck =>
    dsimp only
    split_ifs
    · rw [OrderedMap.lookup_insert, if_neg]
      rintro rfl
      exact h rfl
    · rfl

theorem skipMessageKey_same : SameSender st (skipMessageKey c st) := by
  unfold skipMessageKey
  cases st.ckr with
  | none => exact .refl st
  | some ck => exact ⟨rfl, rfl, rfl, rfl, rfl, rfl, rfl⟩

theorem skipMessageKey_isSome : (skipMessageKey c st).ckr.isSome = st.ckr.isSome := by
  unfold skipMessageKey
  cases h : st.ckr <;> simp [h]

theorem skipRounds_skips (rounds : Nat) : ∀ st : RatchetState K,
    Skips (st.nr + rounds) st (skipRounds c rounds st) := by
  induction rounds with
  | zero => exact fun st => ⟨.refl st, Nat.le_add_right _ _, fun _ _ => rfl⟩
  | succ rounds ih =>
    intro st
    have hskips := ih (skipMessageKey c st)
    have hsame := @skipMessageKey_same _ _ c st
    have hlength := @skipMessageKey_length _ _ c st
    refine ⟨hsame.trans hskips.same, ?_, fun key hkey => ?_⟩
    · have hmore := hskips.length
      rw [skipMessageKey_isSome] at hmore
      rw [Nat.add_sub_cancel_left] at hmore ⊢
      unfold skipRounds
      split_ifs at hmore hlength ⊢ <;> omega
    · exact (hskips.rest key (hsame.dhRemote ▸ hkey)).trans (skipMessageKey_rest hkey)

theorem skipMessageKeys_skips (limit : Nat) (st : RatchetState K) :
    Skips limit st (skipMessageKeys c limit st) := by
  obtain ⟨hsame, hlength, hrest⟩ := @skipRounds_skips _ _ c (limit - st.nr) st
  refine ⟨hsame, ?_, hrest⟩
  rw [Nat.add_sub_cancel_left] at hlength
  exact hlength

theorem skipRounds_stores (rounds : Nat) : ∀ st : RatchetState K, OnChain c j st →
    st.skipped.length + rounds ≤ maxSkip →
    Stores c j (st.nr + rounds) st (skipRounds c rounds st) := by
  induction rounds with
  | zero =>
    intro st hchain _
    exact ⟨(Nat.max_self _).symm, hchain, fun n hle hlt => absurd hle (Nat.not_le.mpr hlt),
      fun _ _ => rfl⟩
  | succ rounds ih =>
    intro st hchain hroom
    have hstep : skipMessageKey c st =
        { st with
          skipped := st.skipped.insert ⟨dhOf c j, st.nr⟩ (messageKey c j st.nr)
          ckr := some (chainKey c j (st.nr + 1))
          nr := st.nr + 1 } := by
      unfold skipMessageKey
      rw [hchain.chain]
      dsimp only
      rw [if_pos (by omega), hchain.remote, chainKey_succ]
      rfl
    have hlookup (key : SkipKey K) : (skipMessageKey c st).skipped.lookup key =
        if key = ⟨dhOf c j, st.nr⟩ then some (messageKey c j st.nr)
        else st.skipped.lookup key := by
      rw [hstep]
      exact OrderedMap.lookup_insert
    have hchain' : OnChain c j (skipMessageKey c st) := by
      rw [hstep]
      exact ⟨hchain.remote, rfl⟩
    have hlength := @skipMessageKey_length _ _ c st
    rw [hchain.chain] at hlength
    have hstores := ih (skipMessageKey c st) hchain' (by simp at hlength; omega)
    have hnr : (skipMessageKey c st).nr = st.nr + 1 := by rw [hstep]
    rw [hnr] at hstores
    obtain ⟨hnr', hchain'', hheld, hrest⟩ := hstores
    rw [hnr] at hnr' hheld hrest
    refine ⟨by unfold skipRounds; omega, hchain'', ?_, ?_⟩
    · intro n hle hlt
      rcases Nat.eq_or_lt_of_le hle with rfl | hlt'
      · refine (hrest _ fun n hn _ heq => ?_).trans ((hlookup _).trans (if_pos rfl))
        have hn' := (SkipKey.mk.inj heq).2
        omega
      · exact hheld n hlt' (by omega)
    · intro key hkey
      refine (hrest key fun n hn hlt => hkey n (by omega) (by omega)).trans ((hlookup key).trans ?_)
      exact if_neg (hkey st.nr (Nat.le_refl _) (by omega))

theorem skipMessageKeys_stores {limit : Nat} (h : OnChain c j st)
    (hroom : st.skipped.length + (limit - st.nr) ≤ maxSkip) :
    Stores c j limit st (skipMessageKeys c limit st) := by
  obtain ⟨hnr, hchain, hheld, hrest⟩ := skipRounds_stores (limit - st.nr) st h hroom
  refine ⟨?_, hchain, fun n hle hlt => hheld n hle (by omega), fun key hkey => ?_⟩
  · unfold skipMessageKeys
    omega
  · exact hrest key fun n hle hlt => hkey n hle (by omega)

end

end Vincent.Dm
