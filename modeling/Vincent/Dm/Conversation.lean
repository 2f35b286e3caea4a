-- SUMMARY: When two ratchets read every message over an unreliable network.
import Vincent.Dm.Ratchet
import Vincent.General.Run
import Mathlib.Algebra.Group.Nat.Even

/-!
# Conversations

Two parties encrypt to each other, and the network delivers in any order. Each chain
answers the one before it, and a number tells a chain. A decryption follows every DH
key that is not the current one, also an old one.
-/

namespace Vincent.Dm

open Vincent.Run

/-- A message that was encrypted. -/
structure Sealed (K : Type) where
  sender : Party
  header : Header K
  ct : K
  plaintext : String

/-- The two states, what was encrypted, and what each delivery gave, by the place of its message. -/
structure Conversation (K : Type) where
  state : Party → Option (RatchetState K) := fun _ => none
  generated : Nat := 0
  sent : List (Sealed K) := []
  outcomes : List (Nat × Option String) := []

inductive DmAction where
  | encrypt (p : Party) (plaintext : String)
  | deliver (i : Nat)

section Model

variable {K : Type} [DecidableEq K] (c : RatchetCrypto K)

/-- The state that `encrypt_wormhole_dm` starts from, and the number of key pairs then. -/
def senderState (p : Party) (s : Conversation K) : RatchetState K × Nat :=
  match s.state p with
  | some st => (st, s.generated)
  | none => (initSenderState c s.generated (c.publicKey (c.longTermPriv p.other)), s.generated + 1)

def encryptDm (p : Party) (plaintext : String) (s : Conversation K) : Conversation K :=
  let (st, generated) := senderState c p s
  let (st, header, ct) := encryptIn c plaintext st
  { s with
    state := Function.update s.state p (some st)
    generated
    sent := s.sent ++ [⟨p, header, ct, plaintext⟩] }

/-- The state that `decrypt_wormhole_dm` starts from, and the number of key pairs then. -/
def receiverState (p : Party) (senderDhPub : K) (s : Conversation K) : RatchetState K × Nat :=
  match s.state p with
  | some st => (st, s.generated)
  | none => (initReceiverState c p s.generated senderDhPub, s.generated + 1)

/-- `decrypt_wormhole_dm` and `ratchetDecryptDM`, which store the state before they open the
message. -/
def decryptDm (i : Nat) (m : Sealed K) (s : Conversation K) : Conversation K :=
  let p := m.sender.other
  let (st, generated) := receiverState c p m.header.dh s
  let (st, generated) := followRatchet c generated m.header st
  match takeMessageKey c m.header st with
  | none => { s with generated, outcomes := s.outcomes ++ [(i, none)] }
  | some (st, mk) =>
    { s with
      state := Function.update s.state p (some st)
      generated
      outcomes := s.outcomes ++ [(i, aesGcmDecrypt c mk m.ct m.header)] }

def converse (s : Conversation K) : DmAction → Conversation K
  | .encrypt p plaintext => encryptDm c p plaintext s
  | .deliver i =>
    match s.sent[i]? with
    | none => s
    | some m => decryptDm c i m s

/-- The keys in the skipped table of a receiver, with those that a message adds. -/
def outstanding (header : Header K) : Option (RatchetState K) → Nat
  | none => header.n
  | some st =>
    st.skipped.length +
      if header.dh = st.dhRemote then header.n - st.nr
      else (if st.ckr.isSome then header.pn - st.nr else 0) + header.n

/-- `b` has a state to encrypt, what is delivered was encrypted, and the outstanding keys have
room. -/
def Honest (s : Conversation K) : DmAction → Prop
  | .encrypt p _ => p = .b → (s.state .b).isSome = true
  | .deliver i =>
    ∃ m ∈ s.sent[i]?, outstanding m.header (s.state m.sender.other) ≤ maxSkip

/-- The text is whole; a message comes once, and not after one of a later DH key of its sender. -/
def InOrder (s : Conversation K) : DmAction → Prop
  | .encrypt _ plaintext => Whole c plaintext
  | .deliver i =>
    i ∉ s.outcomes.map Prod.fst ∧
      ∀ m ∈ s.sent[i]?, ∀ i' ∈ s.outcomes.map Prod.fst, ∀ m' ∈ s.sent[i']?,
        m'.sender = m.sender → i < i' → m'.header.dh = m.header.dh

/-- The first delivery of each message gives its text. -/
def Delivers (s : Conversation K) : Prop :=
  ∀ pre i result post, s.outcomes = pre ++ (i, result) :: post → i ∉ pre.map Prod.fst →
    ∃ m ∈ s.sent[i]?, result = some m.plaintext

end Model

/-! ## Taking a key -/

section

variable {K : Type} [DecidableEq K] {c : RatchetCrypto K} {st st' : RatchetState K}
  {header : Header K} {j n : Nat}

/-- What taking the key of message `n` of the receiving chain does. -/
structure Takes (c : RatchetCrypto K) (j n : Nat) (st st' : RatchetState K) : Prop where
  same : SameSender st st'
  chain : OnChain c j st'
  nr : st'.nr = max st.nr (n + 1)
  kept : ∀ n' < st.nr, n' ≠ n →
    st'.skipped.lookup ⟨dhOf c j, n'⟩ = st.skipped.lookup ⟨dhOf c j, n'⟩
  stored : ∀ n', st.nr ≤ n' → n' < n →
    st'.skipped.lookup ⟨dhOf c j, n'⟩ = some (messageKey c j n')
  past : ∀ n', st'.nr ≤ n' → st'.skipped.lookup ⟨dhOf c j, n'⟩ = none
  rest : ∀ key, key.dh ≠ dhOf c j → st'.skipped.lookup key = st.skipped.lookup key

/-- The key of a message of the chain was skipped, or the chain is advanced to it. -/
theorem takeMessageKey_onChain (h : OnChain c j st) (hdh : header.dh = dhOf c j)
    (hheld : header.n < st.nr →
      st.skipped.lookup ⟨dhOf c j, header.n⟩ = some (messageKey c j header.n))
    (hpast : ∀ n, st.nr ≤ n → st.skipped.lookup ⟨dhOf c j, n⟩ = none)
    (hroom : st.skipped.length + (header.n - st.nr) ≤ maxSkip) :
    ∃ st', takeMessageKey c header st = some (st', messageKey c j header.n) ∧
      Takes c j header.n st st' := by
  unfold takeMessageKey
  rw [hdh]
  rcases Nat.lt_or_ge header.n st.nr with hlt | hge
  · rw [hheld hlt]
    refine ⟨_, rfl, ⟨rfl, rfl, rfl, rfl, rfl, rfl, rfl⟩, ⟨h.remote, h.chain⟩, ?_, ?_, ?_, ?_, ?_⟩
    · exact (Nat.max_eq_left hlt).symm
    · intro n' _ hne
      exact OrderedMap.lookup_filter_ne fun heq => hne (SkipKey.mk.inj heq).2
    · intro n' hle hlt'
      omega
    · intro n' hle
      rcases eq_or_ne n' header.n with rfl | hne
      · exact OrderedMap.lookup_filter_self
      · exact (OrderedMap.lookup_filter_ne fun heq => hne (SkipKey.mk.inj heq).2).trans
          (hpast n' hle)
    · intro key hkey
      refine OrderedMap.lookup_filter_ne ?_
      rintro rfl
      exact hkey rfl
  · rw [hpast _ hge]
    have hstores := skipMessageKeys_stores h hroom
    have hskips := @skipMessageKeys_skips _ _ c header.n st
    have hnr : (skipMessageKeys c header.n st).nr = header.n :=
      hstores.nr.trans (Nat.max_eq_right hge)
    have hck := hstores.chain.chain
    rw [hnr] at hck
    dsimp only
    rw [hck]
    refine ⟨_, rfl, ⟨hskips.same.rk, hskips.same.cks, hskips.same.dhSelfPub,
      hskips.same.dhSelfPriv, hskips.same.dhRemote, hskips.same.ns, hskips.same.pn⟩,
      ⟨hstores.chain.remote, ?_⟩, ?_, ?_, ?_, ?_, ?_⟩
    · dsimp only
      rw [hnr, chainKey_succ]
    · dsimp only
      omega
    · intro n' hlt' _
      refine hstores.rest _ fun n hle _ heq => ?_
      have hn := (SkipKey.mk.inj heq).2
      omega
    · intro n' hle hlt'
      exact hstores.held n' hle hlt'
    · intro n' hle
      dsimp only at hle ⊢
      refine (hstores.rest _ fun n _ hlt' heq => ?_).trans (hpast n' (by omega))
      have hn := (SkipKey.mk.inj heq).2
      omega
    · intro key hkey
      refine hstores.rest key ?_
      rintro n _ _ rfl
      exact hkey rfl

end

/-! ## Invariant -/

/-- The party that sends on chain `k`. -/
def chainParty (k : Nat) : Party := if k % 2 = 0 then .a else .b

theorem chainParty_succ (k : Nat) : chainParty (k + 1) = (chainParty k).other := by
  unfold chainParty
  rcases Nat.mod_two_eq_zero_or_one k with h | h
  · rw [if_neg (by omega), if_pos h]
    rfl
  · rw [if_pos (by omega), if_neg (by omega)]
    rfl

theorem chainParty_eq_iff {j k : Nat} : chainParty j = chainParty k ↔ j % 2 = k % 2 := by
  unfold chainParty
  split_ifs <;> simp <;> omega

theorem other_chainParty_eq_iff {j k : Nat} :
    (chainParty j).other = chainParty k ↔ j % 2 ≠ k % 2 := by
  rw [← chainParty_succ, chainParty_eq_iff]
  omega

section

variable {K : Type} [DecidableEq K] {c : RatchetCrypto K} {s s' : Conversation K}
  {st st' : RatchetState K} {i k : Nat} {m : Sealed K}

/-- The places of the messages that were delivered. -/
abbrev Conversation.delivered (s : Conversation K) : List Nat := s.outcomes.map Prod.fst

/-- The state of the party that sends on chain `k`, where it receives on a chain `j` before it. -/
structure Receives (c : RatchetCrypto K) (j : Nat) (s : Conversation K) (st : RatchetState K) :
    Prop where
  chain : OnChain c j st
  held : ∀ (i : Nat) (m : Sealed K), s.sent[i]? = some m → m.header.dh = dhOf c j →
    m.header.n < st.nr → i ∉ s.delivered →
    st.skipped.lookup ⟨dhOf c j, m.header.n⟩ = some (messageKey c j m.header.n)
  past : ∀ n, st.nr ≤ n → st.skipped.lookup ⟨dhOf c j, n⟩ = none
  reached : ∃ m ∈ s.sent, m.header.dh = dhOf c j ∧ st.nr ≤ m.header.n + 1
  started : ∃ i ∈ s.delivered, ∃ m ∈ s.sent[i]?, m.header.dh = dhOf c j

/-- The state sends on chain `k`, whose key the second party derives when it first encrypts. -/
structure Sends (c : RatchetCrypto K) (k : Nat) (s : Conversation K) (st : RatchetState K) :
    Prop where
  priv : st.dhSelfPriv = c.generate k
  pub : st.dhSelfPub = dhOf c k
  remote : st.dhRemote = answered c k
  keys : st.cks = some (chainKey c k st.ns) ∧ st.rk = (rootOf c k).1 ∨
    k = 1 ∧ st.cks = none ∧ st.ns = 0 ∧ st.rk = (rootOf c 0).1
  numbers : ∀ m ∈ s.sent, m.header.dh = dhOf c k → m.header.n < st.ns

/-- The state of the party that sends on chain `k`. -/
structure Keeps (c : RatchetCrypto K) (k : Nat) (s : Conversation K) (st : RatchetState K) :
    Prop where
  sends : Sends c k s st
  first : k = 0 → st.ckr = none
  receives : ∀ j, k = j + 1 → Receives c j s st
  ahead : ∀ j, k ≤ j → ∀ n, st.skipped.lookup ⟨dhOf c j, n⟩ = none

/-- A message was encrypted on a chain, under its key there. -/
structure OnSent (c : RatchetCrypto K) (k : Nat) (m : Sealed K) : Prop where
  sender : m.sender = chainParty k
  dh : m.header.dh = dhOf c k
  ct : m.ct = aesGcmEncrypt c (messageKey c k m.header.n) m.plaintext m.header
  whole : Whole c m.plaintext

/-- What was encrypted so far. -/
structure Log (c : RatchetCrypto K) (s : Conversation K) : Prop where
  chain : ∀ m ∈ s.sent, ∃ k < s.generated, OnSent c k m
  distinct : ∀ (i i' : Nat) (m m' : Sealed K), s.sent[i]? = some m → s.sent[i']? = some m' →
    m.header.dh = m'.header.dh → m.header.n = m'.header.n → i = i'
  order : ∀ (i i' : Nat) (m m' : Sealed K) (k k' : Nat), s.sent[i]? = some m →
    s.sent[i']? = some m' → i < i' → m.sender = m'.sender → m.header.dh = dhOf c k →
    m'.header.dh = dhOf c k' → k ≤ k'

/-- The two parties send on the last two chains, and what was delivered was read. -/
structure InStep (c : RatchetCrypto K) (s : Conversation K) : Prop where
  log : Log c s
  keeps : ∀ k < s.generated, s.generated ≤ k + 2 →
    ∃ st, s.state (chainParty k) = some st ∧ Keeps c k s st
  idle : ∀ k, s.generated ≤ k → k < 2 → s.state (chainParty k) = none
  delivers : Delivers s

/-- A party that has a state sends on one of the last two chains. -/
theorem InStep.keeps_of_state (h : InStep c s) {p : Party} (hst : s.state p = some st) :
    ∃ k < s.generated, s.generated ≤ k + 2 ∧ p = chainParty k ∧ Keeps c k s st := by
  have hparty : ∃ k, k < 2 ∧ p = chainParty k := by
    cases p
    · exact ⟨0, by omega, rfl⟩
    · exact ⟨1, by omega, rfl⟩
  obtain ⟨k₀, hk₀, rfl⟩ := hparty
  have hgenerated : k₀ < s.generated := by
    by_contra hle
    rw [h.idle k₀ (Nat.le_of_not_lt hle) hk₀] at hst
    cases hst
  obtain ⟨k, hlt, hle, hsame⟩ : ∃ k < s.generated, s.generated ≤ k + 2 ∧ k₀ % 2 = k % 2 := by
    rcases Nat.mod_two_eq_zero_or_one (s.generated - 1 - k₀) with hmod | hmod
    · exact ⟨s.generated - 1, by omega, by omega, by omega⟩
    · exact ⟨s.generated - 2, by omega, by omega, by omega⟩
  have hparty := chainParty_eq_iff.mpr hsame
  obtain ⟨st', hst', hkeeps⟩ := h.keeps k hlt hle
  rw [← hparty, hst] at hst'
  cases hst'
  exact ⟨k, hlt, hle, hparty, hkeeps⟩

theorem InStep.generated_of_none (h : InStep c s) {p : Party} (hst : s.state p = none) :
    s.generated = 0 ∨ s.generated = 1 ∧ p = .b := by
  by_contra hne
  push Not at hne
  obtain ⟨k, hlt, hle, hparty⟩ : ∃ k < s.generated, s.generated ≤ k + 2 ∧ p = chainParty k := by
    have hpos := Nat.pos_of_ne_zero hne.1
    rcases Nat.lt_or_ge s.generated 2 with hone | htwo
    · have hgenerated : s.generated = 1 := by omega
      refine ⟨0, by omega, by omega, ?_⟩
      have hb := hne.2 hgenerated
      cases p
      · rfl
      · exact absurd rfl hb
    · have hlast := chainParty_succ (s.generated - 2)
      by_cases hp : p = chainParty (s.generated - 2)
      · exact ⟨s.generated - 2, by omega, by omega, hp⟩
      · refine ⟨s.generated - 2 + 1, by omega, by omega, ?_⟩
        rw [hlast]
        generalize chainParty (s.generated - 2) = q at hp
        cases p <;> cases q <;> simp_all [Party.other]
  obtain ⟨st, hsome, -⟩ := h.keeps k hlt hle
  rw [← hparty, hst] at hsome
  cases hsome

omit [DecidableEq K] in
theorem Log.of_dh (h : Log c s) (hm : m ∈ s.sent) (hdh : m.header.dh = dhOf c k) :
    k < s.generated ∧ OnSent c k m := by
  obtain ⟨k', hlt, hon⟩ := h.chain m hm
  obtain rfl : k' = k := dhOf_injective (hon.dh.symm.trans hdh)
  exact ⟨hlt, hon⟩

theorem Keeps.of_delivered (h : Keeps c k s st) (hsent : s'.sent = s.sent)
    (hdelivered : ∀ i ∈ s.delivered, i ∈ s'.delivered) : Keeps c k s' st where
  sends := { h.sends with numbers := by rw [hsent]; exact h.sends.numbers }
  first := h.first
  receives j hj := by
    have hreceives := h.receives j hj
    refine ⟨hreceives.chain, ?_, hreceives.past, by rw [hsent]; exact hreceives.reached, ?_⟩
    · intro i m hi hdh hlt hnew
      exact hreceives.held i m (hsent ▸ hi) hdh hlt fun hold => hnew (hdelivered i hold)
    · obtain ⟨i, hi, m, hm, hdh⟩ := hreceives.started
      exact ⟨i, hdelivered i hi, m, hsent ▸ hm, hdh⟩
  ahead := h.ahead

omit [DecidableEq K] in
theorem getElem?_concat {sent : List (Sealed K)} {m' : Sealed K}
    (h : (sent ++ [m])[i]? = some m') : sent[i]? = some m' ∨ i = sent.length ∧ m' = m := by
  rcases Nat.lt_trichotomy i sent.length with hlt | rfl | hgt
  · rw [List.getElem?_append_left hlt] at h
    exact .inl h
  · rw [List.getElem?_concat_length] at h
    exact .inr ⟨rfl, (Option.some.inj h).symm⟩
  · rw [List.getElem?_eq_none (by simp; omega)] at h
    cases h

/-- What another party encrypts takes nothing from what a party keeps. -/
theorem Keeps.of_sent {k' : Nat} (h : Keeps c k s st) (hsent : s'.sent = s.sent ++ [m])
    (hdelivered : s'.delivered = s.delivered) (hdh : m.header.dh = dhOf c k') (hne : k' ≠ k)
    (hnew : k = k' + 1 → st.nr ≤ m.header.n) : Keeps c k s' st where
  sends := by
    refine { h.sends with numbers := ?_ }
    intro m' hm' hdh'
    rw [hsent] at hm'
    rcases List.mem_append.mp hm' with hm' | hm'
    · exact h.sends.numbers m' hm' hdh'
    · obtain rfl := List.mem_singleton.mp hm'
      exact absurd (dhOf_injective (hdh.symm.trans hdh')) hne
  first := h.first
  receives j hj := by
    have hreceives := h.receives j hj
    refine ⟨hreceives.chain, ?_, hreceives.past, ?_, ?_⟩
    · intro i m' hi hdh' hlt hundelivered
      rw [hsent] at hi
      rcases getElem?_concat hi with hi | ⟨-, rfl⟩
      · exact hreceives.held i m' hi hdh' hlt (hdelivered ▸ hundelivered)
      · obtain rfl : k' = j := dhOf_injective (hdh.symm.trans hdh')
        exact absurd hlt (Nat.not_lt.mpr (hnew hj))
    · obtain ⟨m', hm', hreached⟩ := hreceives.reached
      exact ⟨m', hsent ▸ List.mem_append_left _ hm', hreached⟩
    · obtain ⟨i, hi, m', hm', hdh'⟩ := hreceives.started
      refine ⟨i, hdelivered ▸ hi, m', ?_, hdh'⟩
      rw [hsent, List.getElem?_append_left (List.getElem?_eq_some_iff.mp hm').1]
      exact hm'
  ahead := h.ahead

/-! ## Encryption -/

omit [DecidableEq K] in
/-- The sending chain is there, or is derived from the root that the first message made. -/
theorem Sends.ensureSendChain (h : Sends c k s st) :
    ensureSendChain c st =
      ({ st with rk := (rootOf c k).1, cks := some (chainKey c k st.ns) }, chainKey c k st.ns) := by
  rcases h.keys with ⟨hcks, hrk⟩ | ⟨rfl, hcks, hns, hrk⟩
  · obtain ⟨rk, cks, ckr, dhSelfPub, dhSelfPriv, dhRemote, ns, nr, pn, skipped⟩ := st
    dsimp only at hcks hrk
    subst hcks hrk
    rfl
  · unfold Dm.ensureSendChain
    have hroot : c.kdfRk st.rk (c.deriveDhSecret st.dhSelfPriv st.dhRemote) = rootOf c 1 := by
      rw [hrk, h.priv, h.remote]
      rfl
    rw [hcks, hns, hroot]
    rfl

omit [DecidableEq K] in
theorem Sends.encryptIn (h : Sends c k s st) (plaintext : String) :
    encryptIn c plaintext st =
      ({ st with
          rk := (rootOf c k).1
          ns := st.ns + 1
          cks := some (chainKey c k (st.ns + 1)) },
        ⟨dhOf c k, st.pn, st.ns⟩,
        aesGcmEncrypt c (messageKey c k st.ns) plaintext ⟨dhOf c k, st.pn, st.ns⟩) := by
  unfold Dm.encryptIn
  rw [h.ensureSendChain, chainKey_succ, ← h.pub]
  rfl

theorem keeps_initSenderState (hsent : s.sent = []) :
    Keeps c 0 s (initSenderState c 0 (c.publicKey (c.longTermPriv .b))) where
  sends := by
    refine ⟨rfl, rfl, rfl, .inl ⟨rfl, rfl⟩, fun m hm => ?_⟩
    rw [hsent] at hm
    exact absurd hm List.not_mem_nil
  first _ := rfl
  receives j hj := by omega
  ahead _ _ _ := rfl

/-- A party that encrypts goes on with its state, or starts with a new one. -/
theorem InStep.senderState {p : Party} (h : InStep c s)
    (hb : p = .b → (s.state .b).isSome = true) :
    ∃ st generated, senderState c p s = (st, generated) ∧
      InStep c { s with state := Function.update s.state p (some st), generated } := by
  cases hst : s.state p with
  | some st =>
    refine ⟨st, s.generated, by unfold Dm.senderState; rw [hst], ?_⟩
    rw [← hst, Function.update_eq_self]
    exact h
  | none =>
    rcases h.generated_of_none hst with hzero | ⟨-, rfl⟩
    · have ha : p = .a := by
        cases p with
        | a => rfl
        | b =>
          have hsome := hb rfl
          rw [hst] at hsome
          cases hsome
      subst ha
      have hsent : s.sent = [] := by
        refine List.eq_nil_iff_forall_not_mem.mpr fun m hm => ?_
        obtain ⟨k, hlt, -⟩ := h.log.chain m hm
        omega
      refine ⟨_, 1, by unfold Dm.senderState; rw [hst, hzero], ?_⟩
      constructor
      · constructor
        · intro m hm
          exact absurd (hsent ▸ hm) List.not_mem_nil
        · exact h.log.distinct
        · exact h.log.order
      · intro k hk _
        obtain rfl : k = 0 := by
          dsimp only at hk
          omega
        have ha : chainParty 0 = .a := rfl
        refine ⟨_, ?_, keeps_initSenderState hsent⟩
        dsimp only
        rw [ha, Function.update_self]
        rfl
      · intro k hle hlt
        dsimp only at hle ⊢
        obtain rfl : k = 1 := by omega
        exact (Function.update_of_ne (by decide) _ _).trans (h.idle 1 (by omega) (by omega))
      · exact h.delivers
    · have hsome := hb rfl
      rw [hst] at hsome
      cases hsome

theorem Keeps.encrypt (h : Keeps c k s st) (hsent : s'.sent = s.sent ++ [m])
    (hdelivered : s'.delivered = s.delivered) (hdh : m.header.dh = dhOf c k)
    (hn : m.header.n = st.ns) :
    Keeps c k s'
      { st with
        rk := (rootOf c k).1
        ns := st.ns + 1
        cks := some (chainKey c k (st.ns + 1)) } where
  sends := by
    refine ⟨h.sends.priv, h.sends.pub, h.sends.remote, .inl ⟨rfl, rfl⟩, ?_⟩
    intro m' hm' hdh'
    rw [hsent] at hm'
    rcases List.mem_append.mp hm' with hm' | hm'
    · exact Nat.lt_succ_of_lt (h.sends.numbers m' hm' hdh')
    · obtain rfl := List.mem_singleton.mp hm'
      dsimp only
      omega
  first := h.first
  receives j hj := by
    have hreceives := h.receives j hj
    refine ⟨⟨hreceives.chain.remote, hreceives.chain.chain⟩, ?_, hreceives.past, ?_, ?_⟩
    · intro i m' hi hdh' hlt hundelivered
      rw [hsent] at hi
      rcases getElem?_concat hi with hi | ⟨-, rfl⟩
      · exact hreceives.held i m' hi hdh' hlt (hdelivered ▸ hundelivered)
      · have hjk : k = j := dhOf_injective (hdh.symm.trans hdh')
        omega
    · obtain ⟨m', hm', hreached⟩ := hreceives.reached
      exact ⟨m', hsent ▸ List.mem_append_left _ hm', hreached⟩
    · obtain ⟨i, hi, m', hm', hdh'⟩ := hreceives.started
      refine ⟨i, hdelivered ▸ hi, m', ?_, hdh'⟩
      rw [hsent, List.getElem?_append_left (List.getElem?_eq_some_iff.mp hm').1]
      exact hm'
  ahead := h.ahead

omit [DecidableEq K] in
/-- The numbers of the messages of a chain rise. -/
theorem Log.encrypt (h : Log c s) (hon : OnSent c k m) (hlt : k < s.generated)
    (hnew : ∀ m' ∈ s.sent, m'.header.dh = dhOf c k → m'.header.n < m.header.n)
    (hlast : ∀ k' < s.generated, k' % 2 = k % 2 → k' ≤ k) (hsent : s'.sent = s.sent ++ [m])
    (hgenerated : s'.generated = s.generated) : Log c s' where
  chain m' hm' := by
    rw [hsent] at hm'
    rw [hgenerated]
    rcases List.mem_append.mp hm' with hm' | hm'
    · exact h.chain m' hm'
    · obtain rfl := List.mem_singleton.mp hm'
      exact ⟨k, hlt, hon⟩
  distinct i i' m₁ m₂ hi hi' hdh hn := by
    rw [hsent] at hi hi'
    rcases getElem?_concat hi with hold | ⟨rfl, rfl⟩ <;>
      rcases getElem?_concat hi' with hold' | ⟨rfl, rfl⟩
    · exact h.distinct i i' m₁ m₂ hold hold' hdh hn
    · have hbefore := hnew m₁ (List.mem_of_getElem? hold) (hdh.trans hon.dh)
      omega
    · have hbefore := hnew m₂ (List.mem_of_getElem? hold') (hdh.symm.trans hon.dh)
      omega
    · rfl
  order i i' m₁ m₂ k₁ k₂ hi hi' hii hsender hdh hdh' := by
    rw [hsent] at hi hi'
    rcases getElem?_concat hi with hold | ⟨rfl, rfl⟩ <;>
      rcases getElem?_concat hi' with hold' | ⟨rfl, rfl⟩
    · exact h.order i i' m₁ m₂ k₁ k₂ hold hold' hii hsender hdh hdh'
    · obtain rfl : k = k₂ := dhOf_injective (hon.dh.symm.trans hdh')
      obtain ⟨hk₁, hon₁⟩ := h.of_dh (List.mem_of_getElem? hold) hdh
      refine hlast k₁ hk₁ (chainParty_eq_iff.mp ?_)
      rw [← hon₁.sender, hsender, hon.sender]
    · have hbound := (List.getElem?_eq_some_iff.mp hold').1
      omega
    · omega

theorem InStep.encryptIn {p : Party} {generated : Nat} {plaintext : String}
    (h : InStep c { s with state := Function.update s.state p (some st), generated })
    (hwhole : Whole c plaintext) :
    InStep c
      { s with
        state := Function.update s.state p (some (Dm.encryptIn c plaintext st).1)
        generated
        sent := s.sent ++
          [⟨p, (Dm.encryptIn c plaintext st).2.1, (Dm.encryptIn c plaintext st).2.2,
            plaintext⟩] } := by
  obtain ⟨k, hlt, hle, rfl, hkeeps⟩ := h.keeps_of_state (Function.update_self ..)
  dsimp only at hlt hle
  rw [hkeeps.sends.encryptIn plaintext]
  dsimp only
  have hon : OnSent c k ⟨chainParty k, ⟨dhOf c k, st.pn, st.ns⟩,
      aesGcmEncrypt c (messageKey c k st.ns) plaintext ⟨dhOf c k, st.pn, st.ns⟩, plaintext⟩ :=
    ⟨rfl, rfl, rfl, hwhole⟩
  constructor
  · refine h.log.encrypt hon hlt hkeeps.sends.numbers ?_ rfl rfl
    intro k' hk' hmod
    dsimp only at hk'
    omega
  · intro k' hk' hle'
    dsimp only at hk' hle' ⊢
    rcases eq_or_ne k' k with rfl | hne
    · exact ⟨_, Function.update_self .., hkeeps.encrypt rfl rfl rfl rfl⟩
    · have hother : chainParty k' ≠ chainParty k := by
        rw [Ne, chainParty_eq_iff]
        omega
      obtain ⟨st', hst', hkeeps'⟩ := h.keeps k' hk' hle'
      dsimp only at hst'
      rw [Function.update_of_ne hother] at hst' ⊢
      refine ⟨st', hst', hkeeps'.of_sent rfl rfl rfl hne.symm ?_⟩
      intro hsucc
      obtain ⟨m, hm, hdh, hreached⟩ := (hkeeps'.receives k hsucc).reached
      have hnumber := hkeeps.sends.numbers m hm hdh
      dsimp only
      omega
  · intro k' hle' hlt'
    dsimp only at hle' ⊢
    have hother : chainParty k' ≠ chainParty k := by
      rw [Ne, chainParty_eq_iff]
      omega
    have hidle := h.idle k' hle' hlt'
    dsimp only at hidle
    rw [Function.update_of_ne hother] at hidle ⊢
    exact hidle
  · intro pre i result post heq hfirst
    obtain ⟨m, hm, hresult⟩ := h.delivers pre i result post heq hfirst
    refine ⟨m, ?_, hresult⟩
    dsimp only at hm ⊢
    rw [List.getElem?_append_left (List.getElem?_eq_some_iff.mp hm).1]
    exact hm

theorem InStep.encrypt {p : Party} {plaintext : String} (h : InStep c s)
    (hb : p = .b → (s.state .b).isSome = true) (hwhole : Whole c plaintext) :
    InStep c (encryptDm c p plaintext s) := by
  obtain ⟨st, generated, hstart, hopened⟩ := h.senderState hb
  unfold encryptDm
  rw [hstart]
  exact hopened.encryptIn hwhole

/-! ## Decryption -/

/-- The state of a party that is about to take a key of chain `j`. -/
structure Ready (c : RatchetCrypto K) (j : Nat) (s : Conversation K) (st : RatchetState K) :
    Prop where
  sends : Sends c (j + 1) s st
  chain : OnChain c j st
  held : ∀ (i : Nat) (m : Sealed K), s.sent[i]? = some m → m.header.dh = dhOf c j →
    m.header.n < st.nr → i ∉ s.delivered →
    st.skipped.lookup ⟨dhOf c j, m.header.n⟩ = some (messageKey c j m.header.n)
  past : ∀ n, st.nr ≤ n → st.skipped.lookup ⟨dhOf c j, n⟩ = none
  reached : st.nr = 0 ∨ ∃ m ∈ s.sent, m.header.dh = dhOf c j ∧ st.nr ≤ m.header.n + 1
  ahead : ∀ j', j + 1 ≤ j' → ∀ n, st.skipped.lookup ⟨dhOf c j', n⟩ = none

theorem Ready.keeps {j : Nat} (h : Ready c j s st) (htakes : Takes c j m.header.n st st')
    (hlog : Log c s) (hi : s.sent[i]? = some m) (hdh : m.header.dh = dhOf c j)
    (hsent : s'.sent = s.sent) (hdelivered : s'.delivered = s.delivered ++ [i]) :
    Keeps c (j + 1) s' st' where
  sends := by
    have hsame := htakes.same
    refine ⟨hsame.dhSelfPriv.trans h.sends.priv, hsame.dhSelfPub.trans h.sends.pub,
      hsame.dhRemote.trans h.sends.remote, ?_, ?_⟩
    · rw [hsame.cks, hsame.ns, hsame.rk]
      exact h.sends.keys
    · rw [hsent, hsame.ns]
      exact h.sends.numbers
  first hzero := by omega
  receives j' hj' := by
    obtain rfl : j = j' := by omega
    refine ⟨htakes.chain, ?_, htakes.past, ?_, ?_⟩
    · intro i' m' hi' hdh' hlt hundelivered
      rw [hsent] at hi'
      rw [hdelivered, List.mem_append, List.mem_singleton] at hundelivered
      have hne : m'.header.n ≠ m.header.n := fun heq =>
        hundelivered (.inr (hlog.distinct i' i m' m hi' hi (hdh'.trans hdh.symm) heq))
      have hnr := htakes.nr
      rcases Nat.lt_or_ge m'.header.n st.nr with hold | hnew
      · exact (htakes.kept _ hold hne).trans
          (h.held i' m' hi' hdh' hold fun hmem => hundelivered (.inl hmem))
      · exact htakes.stored _ hnew (by omega)
    · rw [hsent, htakes.nr]
      have hm := List.mem_of_getElem? hi
      rcases Nat.le_total st.nr (m.header.n + 1) with hle | hge
      · exact ⟨m, hm, hdh, by omega⟩
      · rcases h.reached with hzero | ⟨m', hm', hdh', hreached⟩
        · omega
        · exact ⟨m', hm', hdh', by omega⟩
    · have hlast : i ∈ s'.delivered :=
        hdelivered ▸ List.mem_append_right _ (List.mem_singleton.mpr rfl)
      exact ⟨i, hlast, m, hsent ▸ hi, hdh⟩
  ahead j' hle n := by
    have hne : dhOf c j' ≠ dhOf c j := fun heq => by
      have hjj : j' = j := dhOf_injective heq
      omega
    exact (htakes.rest ⟨dhOf c j', n⟩ hne).trans (h.ahead j' hle n)

theorem Keeps.ready {j : Nat} (h : Keeps c (j + 1) s st) : Ready c j s st :=
  have hreceives := h.receives j rfl
  ⟨h.sends, hreceives.chain, hreceives.held, hreceives.past, .inr hreceives.reached, h.ahead⟩

omit [DecidableEq K] in
/-- The two parties derive the same first root. -/
theorem kdfRk_first : c.kdfRk c.zeroBytes (c.deriveDhSecret (c.longTermPriv .b) (dhOf c 0)) =
    rootOf c 0 := by
  unfold dhOf
  rw [c.dh_comm]
  rfl

omit [DecidableEq K] in
/-- The receiver of a chain derives the root that its sender derived. -/
theorem kdfRk_next : c.kdfRk (rootOf c k).1 (c.deriveDhSecret (c.generate k) (dhOf c (k + 1))) =
    rootOf c (k + 1) := by
  unfold dhOf
  rw [c.dh_comm]
  rfl

theorem ready_initReceiverState (hlog : Log c s) (hgenerated : s.generated = 1) :
    Ready c 0 s (initReceiverState c .b 1 (dhOf c 0)) := by
  unfold initReceiverState
  rw [kdfRk_first]
  refine ⟨⟨rfl, rfl, rfl, .inr ⟨rfl, rfl, rfl, rfl⟩, ?_⟩, ⟨rfl, rfl⟩, ?_, fun _ _ => rfl, .inl rfl,
    fun _ _ _ => rfl⟩
  · intro m hm hdh
    have hlt := (hlog.of_dh hm hdh).1
    omega
  · intro i m _ _ hlt
    exact absurd hlt (Nat.not_lt_zero _)

/-- The state after a DH step to the chain that answers the own one. -/
theorem Keeps.ready_dhRatchet (h : Keeps c k s st) (hlog : Log c s)
    (hgenerated : s.generated = k + 2) (hsome : ∃ m ∈ s.sent, m.header.dh = dhOf c k) (pn : Nat) :
    Ready c (k + 1) s (dhRatchet c (k + 2) (dhOf c (k + 1)) pn st) := by
  obtain ⟨hsame, -, hrest⟩ := @skipMessageKeys_skips _ _ c pn st
  have hrk : st.rk = (rootOf c k).1 := by
    rcases h.sends.keys with ⟨-, hrk⟩ | ⟨-, -, hns, -⟩
    · exact hrk
    · obtain ⟨m, hm, hdh⟩ := hsome
      have hlt := h.sends.numbers m hm hdh
      omega
  have hskipped (j : Nat) (hle : k ≤ j) (n : Nat) :
      (skipMessageKeys c pn st).skipped.lookup ⟨dhOf c j, n⟩ = none := by
    refine (hrest ⟨dhOf c j, n⟩ ?_).trans (h.ahead j hle n)
    rw [h.sends.remote]
    exact dhOf_ne_answered hle
  unfold dhRatchet
  dsimp only
  rw [hsame.rk, hsame.dhSelfPriv, hrk, h.sends.priv, kdfRk_next]
  refine ⟨⟨rfl, rfl, rfl, .inl ⟨rfl, rfl⟩, ?_⟩, ⟨rfl, rfl⟩, ?_, ?_, .inl rfl, ?_⟩
  · intro m hm hdh
    have hlt := (hlog.of_dh hm hdh).1
    omega
  · intro i m _ _ hlt
    exact absurd hlt (Nat.not_lt_zero _)
  · exact fun n _ => hskipped (k + 1) (by omega) n
  · exact fun j' hle n => hskipped j' (by omega) n

omit [DecidableEq K] in
theorem Delivers.concat {result : Option String} (h : Delivers s) (hi : s.sent[i]? = some m)
    (hsent : s'.sent = s.sent) (houtcomes : s'.outcomes = s.outcomes ++ [(i, result)])
    (hresult : result = some m.plaintext) : Delivers s' := by
  intro pre i' result' post heq hfirst
  rw [houtcomes] at heq
  rw [hsent]
  rcases List.eq_nil_or_concat post with rfl | ⟨post', last, rfl⟩
  · have hlast := (List.append_inj' heq rfl).2
    cases List.singleton_inj.mp hlast
    exact ⟨m, hi, hresult⟩
  · rw [List.concat_eq_append, ← List.cons_append, ← List.append_assoc] at heq
    exact h pre i' result' post' (List.append_inj' heq rfl).1 hfirst

/-- A delivery takes the key of its message in a state that is ready for its chain. -/
theorem InStep.receive {j generated : Nat} (h : InStep c s) (hready : Ready c j s st)
    (hi : s.sent[i]? = some m) (hdh : m.header.dh = dhOf c j) (hnew : i ∉ s.delivered)
    (hroom : st.skipped.length + (m.header.n - st.nr) ≤ maxSkip)
    (hgenerated : generated = s.generated ∧ j + 1 < s.generated ∧ s.generated ≤ j + 3 ∨
      generated = s.generated + 1 ∧ s.generated = j + 1) :
    ∃ st', takeMessageKey c m.header st = some (st', messageKey c j m.header.n) ∧
      InStep c
        { s with
          state := Function.update s.state m.sender.other (some st')
          generated
          outcomes := s.outcomes ++
            [(i, aesGcmDecrypt c (messageKey c j m.header.n) m.ct m.header)] } := by
  have hm := List.mem_of_getElem? hi
  obtain ⟨hj, hon⟩ := h.log.of_dh hm hdh
  have hheld := fun hlt => hready.held i m hi hdh hlt hnew
  obtain ⟨st', htake, htakes⟩ :=
    takeMessageKey_onChain hready.chain hdh hheld hready.past hroom
  have hparty : m.sender.other = chainParty (j + 1) := by rw [hon.sender, chainParty_succ]
  refine ⟨st', htake, ?_⟩
  rw [hparty]
  constructor
  · refine ⟨fun m' hm' => ?_, h.log.distinct, h.log.order⟩
    obtain ⟨k, hk, hon'⟩ := h.log.chain m' hm'
    refine ⟨k, ?_, hon'⟩
    dsimp only
    omega
  · intro k hk hle
    dsimp only at hk hle ⊢
    rcases eq_or_ne k (j + 1) with rfl | hne
    · exact ⟨st', Function.update_self .., hready.keeps htakes h.log hi hdh rfl List.map_append⟩
    · have hother : chainParty k ≠ chainParty (j + 1) := by
        rw [Ne, chainParty_eq_iff]
        omega
      obtain ⟨st₀, hst₀, hkeeps⟩ := h.keeps k (by omega) (by omega)
      refine ⟨st₀, (Function.update_of_ne hother _ _).trans hst₀, hkeeps.of_delivered rfl ?_⟩
      intro i' hi'
      change i' ∈ List.map Prod.fst (s.outcomes ++ _)
      rw [List.map_append]
      exact List.mem_append_left _ hi'
  · intro k hle hlt
    dsimp only at hle
    omega
  · refine h.delivers.concat hi rfl rfl ?_
    rw [hon.ct, aesGcmDecrypt_encrypt hon.whole]

/-- What is delivered in order is of the chain that is received, or of the one that answers the
    receiver's own. -/
theorem InStep.chain_of_inOrder {j : Nat} (h : InStep c s) (hi : s.sent[i]? = some m)
    (hon : OnSent c j m) (horder : ∀ i' ∈ s.delivered, ∀ m' ∈ s.sent[i']?,
      m'.sender = m.sender → i < i' → m'.header.dh = m.header.dh)
    (hk : k < s.generated) (hle : s.generated ≤ k + 2) (hparty : m.sender.other = chainParty k)
    (hkeeps : Keeps c k s st) : k = j + 1 ∨ j = k + 1 ∧ s.generated = k + 2 := by
  have hj := (h.log.of_dh (List.mem_of_getElem? hi) hon.dh).1
  rw [hon.sender, other_chainParty_eq_iff] at hparty
  rcases Nat.lt_or_ge (j + 1) k with hold | hge
  · obtain ⟨i', hi', m', hm', hdh'⟩ := (hkeeps.receives (k - 1) (by omega)).started
    have hon' := (h.log.of_dh (List.mem_of_getElem? hm') hdh').2
    have hsender : m'.sender = m.sender := by
      rw [hon.sender, hon'.sender, chainParty_eq_iff]
      omega
    have hne : m'.header.dh ≠ m.header.dh := by
      rw [hdh', hon.dh]
      intro heq
      have hjk : k - 1 = j := dhOf_injective heq
      omega
    rcases Nat.lt_trichotomy i i' with hlt | rfl | hgt
    · exact absurd (horder i' hi' m' hm' hsender hlt) hne
    · rw [hi] at hm'
      cases hm'
      exact absurd rfl hne
    · have hback := h.log.order i' i m' m (k - 1) j hm' hi hgt hsender hdh' hon.dh
      omega
  · rcases Nat.lt_or_ge k (j + 1) with hnext | hle'
    · exact .inr ⟨by omega, by omega⟩
    · exact .inl (by omega)

theorem InStep.deliver (h : InStep c s) (hi : s.sent[i]? = some m)
    (hroom : outstanding m.header (s.state m.sender.other) ≤ maxSkip)
    (horder : InOrder c s (.deliver i)) : InStep c (decryptDm c i m s) := by
  obtain ⟨hnew, horder⟩ := horder
  have horder' := horder m hi
  obtain ⟨j, hj, hon⟩ := h.log.chain m (List.mem_of_getElem? hi)
  unfold decryptDm
  dsimp only
  cases hst : s.state m.sender.other with
  | none =>
    rw [hst] at hroom
    rcases h.generated_of_none hst with hzero | ⟨hone, hb⟩
    · omega
    · obtain rfl : j = 0 := by omega
      have hready : Ready c 0 s (initReceiverState c .b 1 (dhOf c 0)) :=
        ready_initReceiverState h.log hone
      have hstart : receiverState c m.sender.other m.header.dh s =
          (initReceiverState c .b 1 (dhOf c 0), 2) := by
        unfold receiverState
        rw [hst, hone, hb, hon.dh]
      have hfollow : followRatchet c 2 m.header (initReceiverState c .b 1 (dhOf c 0)) =
          (initReceiverState c .b 1 (dhOf c 0), 2) := if_pos hon.dh
      rw [hstart, hfollow]
      obtain ⟨st', htake, hstep⟩ := @InStep.receive _ _ c s _ i m 0 2 h hready hi hon.dh hnew
        (le_of_eq_of_le (Nat.zero_add _) hroom) (.inr ⟨by omega, by omega⟩)
      rw [htake]
      exact hstep
  | some st =>
    rw [hst] at hroom
    obtain ⟨k, hk, hle, hparty, hkeeps⟩ := h.keeps_of_state hst
    have hstart : receiverState c m.sender.other m.header.dh s = (st, s.generated) := by
      unfold receiverState
      rw [hst]
    rw [hstart]
    dsimp only
    rcases h.chain_of_inOrder hi hon horder' hk hle hparty hkeeps with rfl | ⟨rfl, hgenerated⟩
    · have hremote : m.header.dh = st.dhRemote := hon.dh.trans hkeeps.sends.remote.symm
      have hfollow : followRatchet c s.generated m.header st = (st, s.generated) := if_pos hremote
      rw [hfollow]
      unfold outstanding at hroom
      dsimp only at hroom
      rw [if_pos hremote] at hroom
      obtain ⟨st', htake, hstep⟩ := @InStep.receive _ _ c s _ i m j s.generated h hkeeps.ready hi
        hon.dh hnew hroom (.inl ⟨rfl, hk, by omega⟩)
      rw [htake]
      exact hstep
    · have hremote : m.header.dh ≠ st.dhRemote := by
        rw [hon.dh, hkeeps.sends.remote]
        exact dhOf_ne_answered (Nat.le_succ k)
      have hsome : ∃ m ∈ s.sent, m.header.dh = dhOf c k := by
        obtain ⟨st₀, -, hkeeps₀⟩ := h.keeps (k + 1) (by omega) (by omega)
        obtain ⟨m₀, hm₀, hdh₀, -⟩ := (hkeeps₀.receives k rfl).reached
        exact ⟨m₀, hm₀, hdh₀⟩
      have hready := hkeeps.ready_dhRatchet h.log hgenerated hsome m.header.pn
      have hfollow : followRatchet c s.generated m.header st =
          (dhRatchet c (k + 2) (dhOf c (k + 1)) m.header.pn st, k + 3) := by
        unfold followRatchet
        rw [if_neg hremote, hgenerated, hon.dh]
      rw [hfollow]
      unfold outstanding at hroom
      dsimp only at hroom
      rw [if_neg hremote] at hroom
      have hlength := (@skipMessageKeys_skips _ _ c m.header.pn st).length
      have hroom' : (dhRatchet c (k + 2) (dhOf c (k + 1)) m.header.pn st).skipped.length +
          (m.header.n - 0) ≤ maxSkip := by
        have hskipped : (dhRatchet c (k + 2) (dhOf c (k + 1)) m.header.pn st).skipped =
            (skipMessageKeys c m.header.pn st).skipped := rfl
        rw [hskipped]
        omega
      obtain ⟨st', htake, hstep⟩ := @InStep.receive _ _ c s _ i m (k + 1) (k + 3) h hready hi
        hon.dh hnew hroom' (.inr ⟨by omega, by omega⟩)
      rw [htake]
      exact hstep

theorem inStep_start : InStep c {} where
  log := ⟨fun _ hm => absurd hm List.not_mem_nil, fun i i' m m' hi => by simp at hi,
    fun i i' m m' k k' hi => by simp at hi⟩
  keeps k hk := absurd hk (Nat.not_lt_zero k)
  idle _ _ _ := rfl
  delivers pre i result post heq := by simp at heq

theorem InStep.step {a : DmAction} (h : InStep c s) (hhonest : Honest s a)
    (horder : InOrder c s a) : InStep c (converse c s a) := by
  cases a with
  | encrypt p plaintext => exact h.encrypt hhonest horder
  | deliver i =>
    obtain ⟨m, hm, hroom⟩ := hhonest
    unfold converse
    dsimp only
    rw [Option.mem_def.mp hm]
    exact h.deliver hm hroom horder

end

/-- Where messages come once and none after one of a later chain, each gives its text. -/
theorem conversation_delivers {K : Type} [DecidableEq K] (c : RatchetCrypto K)
    (actions : List DmAction)
    (hrun : Along (converse c) (fun s a => Honest s a ∧ InOrder c s a) {} actions) :
    Delivers (run (converse c) {} actions) := by
  have hstep : ∀ s a, InStep c s → Honest s a ∧ InOrder c s a → InStep c (converse c s a) :=
    fun _ _ h ha => h.step ha.1 ha.2
  exact (invariant hstep inStep_start hrun).delivers

/-! ## Runs of symbolic keys -/

/-- Byte strings as what they are made of. -/
inductive KeyTerm where
  | zero
  | priv (n : Nat)
  | pub (t : KeyTerm)
  | shared (pair : Nat)
  | root (rk secret : KeyTerm)
  | chain (rk secret : KeyTerm)
  | next (ck : KeyTerm)
  | message (ck : KeyTerm)
  | aes (mk : KeyTerm) (data : List UInt8) (dh : KeyTerm) (pn n : Nat)
deriving DecidableEq

/-- A number that tells a private key, also in the sum of two. -/
def KeyTerm.code : KeyTerm → Nat
  | .priv n => 2 ^ n
  | _ => 0

def KeyTerm.agree (x : KeyTerm) : KeyTerm → KeyTerm
  | .pub y => .shared (x.code + y.code)
  | _ => .zero

def KeyTerm.unseal (mk ct : KeyTerm) (header : Header KeyTerm) : Option (List UInt8) :=
  match ct with
  | .aes mk' data dh pn n => if mk' = mk ∧ ⟨dh, pn, n⟩ = header then some data else none
  | _ => none

def symbolicCrypto : RatchetCrypto KeyTerm where
  zeroBytes := .zero
  longTermPriv p := .priv (if p = .a then 0 else 1)
  generate i := .priv (i + 2)
  publicKey := .pub
  deriveDhSecret := KeyTerm.agree
  kdfRk rk secret := (.root rk secret, .chain rk secret)
  kdfCk ck := (.next ck, .message ck)
  aesEncrypt mk data header := .aes mk data header.dh header.pn header.n
  aesDecrypt := KeyTerm.unseal
  encode s := s.toList.map fun ch => .ofNat ch.toNat
  decode data := String.ofList (data.map fun b => Char.ofNat b.toNat)
  urandom n := List.replicate n 0
  dh_comm x y := congrArg KeyTerm.shared (Nat.add_comm _ _)
  aes_decrypt mk data header := if_pos ⟨rfl, rfl⟩
  fresh i j h := by simpa using h
  fresh_longTerm p i h := by
    cases p <;> simp at h

instance {K : Type} {c : RatchetCrypto K} {plaintext : String} : Decidable (Whole c plaintext) :=
  decidable_of_iff (0 < (c.encode plaintext).length ∧ (c.encode plaintext).length < 65536 ∧
      c.decode (c.encode plaintext) = plaintext)
    ⟨fun h => ⟨h.1, h.2.1, h.2.2⟩, fun h => ⟨h.nonempty, h.short, h.decode⟩⟩

instance {K : Type} [DecidableEq K] {s : Conversation K} {a : DmAction} :
    Decidable (Honest s a) :=
  match a with
  | .encrypt p _ => inferInstanceAs (Decidable (p = .b → (s.state .b).isSome = true))
  | .deliver i => inferInstanceAs (Decidable
      (∃ m ∈ s.sent[i]?, outstanding m.header (s.state m.sender.other) ≤ maxSkip))

instance {K : Type} [DecidableEq K] {c : RatchetCrypto K} {s : Conversation K} {a : DmAction} :
    Decidable (InOrder c s a) :=
  match a with
  | .encrypt _ plaintext => inferInstanceAs (Decidable (Whole c plaintext))
  | .deliver i => inferInstanceAs (Decidable (i ∉ s.outcomes.map Prod.fst ∧
      ∀ m ∈ s.sent[i]?, ∀ i' ∈ s.outcomes.map Prod.fst, ∀ m' ∈ s.sent[i']?,
        m'.sender = m.sender → i < i' → m'.header.dh = m.header.dh))

/-- Where a run of symbolic keys ends. -/
def afterRun (actions : List DmAction) : Conversation KeyTerm :=
  run (converse symbolicCrypto) {} actions

/-- Two messages that arrive in the other order, an answer, and a message of the next chain. -/
def answeredRun : List DmAction :=
  [.encrypt .a "one", .encrypt .a "two", .deliver 1, .deliver 0, .encrypt .b "three", .deliver 2,
    .encrypt .a "four", .deliver 3]

theorem conversation_delivers_sample : Delivers (afterRun answeredRun) := by
  apply conversation_delivers symbolicCrypto answeredRun
  unfold answeredRun
  refine ⟨?_, ?_, ?_, ?_, ?_, ?_, ?_, ?_, trivial⟩ <;> decide +kernel

/-- The last delivery is the first of its message, and does not give its text. -/
def misreadLast {K : Type} (s : Conversation K) : Bool :=
  match s.outcomes.getLast? with
  | none => false
  | some o =>
    o.1 ∉ s.outcomes.dropLast.map Prod.fst ∧ o.2 ≠ (s.sent[o.1]?).map Sealed.plaintext

theorem not_delivers_of_misreadLast {K : Type} {s : Conversation K} (h : misreadLast s = true) :
    ¬ Delivers s := by
  intro hdelivers
  unfold misreadLast at h
  split at h
  · cases h
  · rename_i o ho
    obtain ⟨hfirst, hne⟩ := of_decide_eq_true h
    have hsplit : s.outcomes = s.outcomes.dropLast ++ [o] :=
      (List.dropLast_append_getLast? o ho).symm
    obtain ⟨m, hm, hresult⟩ := hdelivers _ o.1 o.2 [] hsplit hfirst
    rw [Option.mem_def.mp hm] at hne
    exact hne hresult

/-- A message of the first chain arrives after one of the second, and then one more of the
    second. -/
def lateRun : List DmAction :=
  [.encrypt .a "one", .encrypt .a "two", .deliver 1, .encrypt .b "three", .deliver 2,
    .encrypt .a "four", .deliver 3, .deliver 0, .encrypt .a "five", .deliver 4]

/-- A message arrives twice, and then the next one. -/
def repeatedRun : List DmAction :=
  [.encrypt .a "one", .encrypt .a "two", .deliver 0, .deliver 0, .deliver 1]

/-- The empty text is sent. -/
def emptyRun : List DmAction := [.encrypt .a "", .deliver 0]

/-- The run is honest, and ends with a delivery that is misread. -/
theorem not_delivers_of_run {actions : List DmAction}
    (hhonest : Along (converse symbolicCrypto) Honest {} actions)
    (hmisread : misreadLast (afterRun actions) = true) :
    Along (converse symbolicCrypto) Honest {} actions ∧ ¬ Delivers (afterRun actions) :=
  ⟨hhonest, not_delivers_of_misreadLast hmisread⟩

/-- A late message, a repeated one and the empty text are not read. -/
theorem not_conversation_delivers :
    (Along (converse symbolicCrypto) Honest {} lateRun ∧ ¬ Delivers (afterRun lateRun)) ∧
      (Along (converse symbolicCrypto) Honest {} repeatedRun ∧
        ¬ Delivers (afterRun repeatedRun)) ∧
      (Along (converse symbolicCrypto) Honest {} emptyRun ∧ ¬ Delivers (afterRun emptyRun)) := by
  refine ⟨not_delivers_of_run ?_ ?_, not_delivers_of_run ?_ ?_, not_delivers_of_run ?_ ?_⟩
  · refine ⟨?_, ?_, ?_, ?_, ?_, ?_, ?_, ?_, ?_, ?_, trivial⟩ <;> decide +kernel
  · decide +kernel
  · refine ⟨?_, ?_, ?_, ?_, ?_, trivial⟩ <;> decide +kernel
  · decide +kernel
  · refine ⟨?_, ?_, trivial⟩ <;> decide +kernel
  · decide +kernel

end Vincent.Dm
