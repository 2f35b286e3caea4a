-- SUMMARY: Encryptions for one peer that are interleaved.
import Vincent.Dm.Conversation
import Vincent.General.ReadModifyWrite

/-!
# Interleaved encryptions

In the browser a call reads the chain key, waits for the message key, and then takes
the number and moves the chain on. In the backend each call reads the session from the
file, and writes it when the message is sealed.
-/

namespace Vincent.Dm.Interleaved

open Vincent.Run Vincent.ReadModifyWrite

/-- A message that a call gave out. -/
structure Sealed (K : Type) where
  plaintext : String
  header : Header K
  ct : K
  deriving DecidableEq

/-- What a call is given: the text and the key of the peer. -/
structure Call (K : Type) where
  plaintext : String
  theirDhPub : K

section Model

variable {ι K : Type} [DecidableEq ι] (c : RatchetCrypto K) (args : ι → Call K)

/-! ## The browser -/

/-- Where a call of `ratchetEncryptDM` waits, with what it has read. -/
inductive Phase (K : Type) where
  | start
  /-- After `getState`. -/
  | read (session : Option ℕ)
  /-- With its session. -/
  | session (ref : ℕ)
  /-- In `ensureSendChain`, with the root key and the chain key that it derives. -/
  | chaining (ref : ℕ) (rk cks : K)
  | chained (ref : ℕ)
  /-- In `kdfCK`, with the chain key that it read. -/
  | keyed (ref : ℕ) (ck : K)
  /-- In `aesGcmEncrypt`. -/
  | sealed (ref : ℕ)
  /-- In `saveAllStates`, with the state that is encrypted. -/
  | saving (state : RatchetState K)
  | done

/-- The session objects, the cached and the persisted one, the calls, the key pairs, and what was
sent. -/
structure Browser (ι K : Type) where
  objects : List (RatchetState K)
  cached : Option ℕ
  persisted : Option (RatchetState K) := none
  phase : ι → Phase K := fun _ => .start
  generated : ℕ := 0
  sent : List (ι × Sealed K) := []

def Browser.goto (i : ι) (phase : Phase K) (s : Browser ι K) : Browser ι K :=
  { s with phase := Function.update s.phase i phase }

/-- The message and the state after the number of the message is taken. -/
def takeNumber (plaintext : String) (ck : K) (st : RatchetState K) : RatchetState K × Sealed K :=
  let header : Header K := { dh := st.dhSelfPub, pn := st.pn, n := st.ns }
  ({ st with ns := st.ns + 1, cks := some (c.kdfCk ck).1 },
    { plaintext, header, ct := aesGcmEncrypt c (c.kdfCk ck).2 plaintext header })

/-- A call goes on to its next `await`. -/
def browserStep (s : Browser ι K) (i : ι) : Browser ι K :=
  match s.phase i with
  | .start => s.goto i (.read s.cached)
  | .read none =>
    { s.goto i (.session s.objects.length) with
      objects := s.objects ++ [initSenderState c s.generated (args i).theirDhPub]
      generated := s.generated + 1 }
  | .read (some ref) => s.goto i (.session ref)
  | .session ref =>
    match s.objects[ref]? with
    | none => s
    | some st =>
      match st.cks with
      | some _ => s.goto i (.chained ref)
      | none =>
        let out := c.kdfRk st.rk (c.deriveDhSecret st.dhSelfPriv st.dhRemote)
        s.goto i (.chaining ref out.1 out.2)
  | .chaining ref rk cks =>
    { s.goto i (.chained ref) with
      objects := s.objects.modify ref fun st => { st with rk, cks := some cks } }
  | .chained ref =>
    match (s.objects[ref]?).bind (·.cks) with
    | none => s
    | some ck => s.goto i (.keyed ref ck)
  | .keyed ref ck =>
    match s.objects[ref]? with
    | none => s
    | some st =>
      let (st, message) := takeNumber c (args i).plaintext ck st
      { s.goto i (.sealed ref) with objects := s.objects.set ref st, sent := s.sent ++ [(i, message)] }
  | .sealed ref =>
    match s.objects[ref]? with
    | none => s
    | some st => { s.goto i (.saving st) with cached := some ref }
  | .saving st => { s.goto i .done with persisted := some st }
  | .done => s

/-- The session of the peer when the calls begin, if there is one. -/
def Browser.init (session : Option (RatchetState K)) : Browser ι K where
  objects := session.toList
  cached := session.map fun _ => 0
  persisted := session

/-- No other call has moved the sending chain since the read, and states are persisted in order. -/
def Undisturbed (s : Browser ι K) (i : ι) : Prop :=
  match s.phase i with
  | .read none => s.objects = []
  | .chaining ref _ _ => ∀ st, s.objects[ref]? = some st → st.cks = none
  | .keyed ref ck => ∀ st, s.objects[ref]? = some st → st.cks = some ck
  | .saving st => ∀ st', s.persisted = some st' → st'.ns ≤ st.ns
  | _ => True

/-! ## The backend -/

/-- `encrypt_wormhole_dm`, with the number of the key pair that it generates if there is no
session. -/
def backendOperations :
    Operations (Option (RatchetState K)) (Option (RatchetState K)) (ℕ × Call K) Unit (Sealed K) where
  read _ file _ := file
  modify o _ session :=
    let st := session.getD (initSenderState c o.1 o.2.theirDhPub)
    let (st, header, ct) := encryptIn c o.2.plaintext st
    (some st, some (some st), { plaintext := o.2.plaintext, header, ct })

/-- The backend when the calls begin. -/
def backendInit (session : Option (RatchetState K)) :
    Shared ι (Option (RatchetState K)) (Option (RatchetState K)) (ℕ × Call K) where
  file := session
  memory _ := none

/-! ## Sending in turn -/

/-- The key of message `j` of a chain that begins with a chain key. -/
def sendKey (ck : K) (j : ℕ) : K := (c.kdfCk ((fun ck => (c.kdfCk ck).1)^[j] ck)).2

/-- Message `j` of the session. -/
def sealAt (base : RatchetState K) (ck : K) (j : ℕ) (plaintext : String) : Sealed K :=
  let header : Header K := { dh := base.dhSelfPub, pn := base.pn, n := base.ns + j }
  { plaintext, header, ct := aesGcmEncrypt c (sendKey c ck j) plaintext header }

/-- The messages have the numbers and the keys of the chain in turn, and the state those that
    come next. -/
structure Sending (base : RatchetState K) (ck : K) (outs : List (Sealed K)) (st : RatchetState K) :
    Prop where
  inTurn : ∀ j out, outs[j]? = some out → out = sealAt c base ck j out.plaintext
  chain : st.cks = some ((fun ck => (c.kdfCk ck).1)^[outs.length] ck)
  ns : st.ns = base.ns + outs.length
  dh : st.dhSelfPub = base.dhSelfPub
  pn : st.pn = base.pn

/-- The session that the calls use: the one that there was, or the one that a call made. -/
def Origin (session : Option (RatchetState K)) (theirs : Set K) (st : RatchetState K) : Prop :=
  match session with
  | some st' => st = st'
  | none => ∃ generated, ∃ theirDhPub ∈ theirs, st = initSenderState c generated theirDhPub

/-- The messages of a session are in turn from where it began, with no DH key and number twice. -/
structure Distinct (session : Option (RatchetState K)) (theirs : Set K) (outs : List (Sealed K))
    (stored : Option (RatchetState K)) : Prop where
  headers : (outs.map fun out => (out.header.dh, out.header.n)).Nodup
  keys : outs = [] ∨ ∃ st, Origin c session theirs st ∧
    (∀ j out, outs[j]? = some out →
      out = sealAt c (ensureSendChain c st).1 (ensureSendChain c st).2 j out.plaintext) ∧
    ∃ st', stored = some st' ∧ st'.ns = st.ns + outs.length

end Model

section

variable {K : Type} {c : RatchetCrypto K} {base st : RatchetState K} {ck : K}
  {outs : List (Sealed K)}

/-- The state after `ensureSendChain` has sent nothing yet. -/
theorem Sending.start (st : RatchetState K) :
    Sending c (ensureSendChain c st).1 (ensureSendChain c st).2 [] (ensureSendChain c st).1 := by
  refine ⟨fun j out hout => (by cases hout), ?_, rfl, rfl, rfl⟩
  unfold ensureSendChain
  split
  · rename_i ck hck
    exact hck
  · rfl

theorem ensureSendChain_ns (st : RatchetState K) : (ensureSendChain c st).1.ns = st.ns := by
  unfold ensureSendChain
  split <;> rfl

theorem ensureSendChain_of_some (h : st.cks = some ck) : ensureSendChain c st = (st, ck) := by
  unfold ensureSendChain
  rw [h]

/-- A call that finds the chain key that it read takes the next number and the next key. -/
theorem Sending.takeNumber (h : Sending c base ck outs st) {read : K} (hread : st.cks = some read)
    (plaintext : String) :
    Sending c base ck (outs ++ [(takeNumber c plaintext read st).2])
      (takeNumber c plaintext read st).1 := by
  have hck : read = (fun ck => (c.kdfCk ck).1)^[outs.length] ck :=
    Option.some.inj (hread.symm.trans h.chain)
  refine ⟨fun j out hout => ?_, ?_, ?_, h.dh, h.pn⟩
  · rw [List.getElem?_append] at hout
    split at hout
    · exact h.inTurn j out hout
    · rename_i hlength
      rw [List.getElem?_singleton] at hout
      split at hout
      · rename_i hj
        have hj : j = outs.length := by omega
        cases hout
        subst hj
        simp only [Interleaved.takeNumber, sealAt, sendKey, h.dh, h.pn, h.ns, hck]
      · cases hout
  · rw [List.length_append, List.length_singleton, Function.iterate_succ_apply', ← hck]
    rfl
  · rw [List.length_append, List.length_singleton]
    exact (congrArg (· + 1) h.ns).trans (Nat.add_assoc _ _ _)

/-- Messages in turn have different numbers. -/
theorem headers_nodup (h : ∀ j out, outs[j]? = some out → out = sealAt c base ck j out.plaintext) :
    (outs.map fun out => (out.header.dh, out.header.n)).Nodup := by
  rw [List.nodup_iff_getElem?_ne_getElem?]
  intro i j hij hj heq
  rw [List.length_map] at hj
  rw [List.getElem?_map, List.getElem?_map, List.getElem?_eq_getElem (Nat.lt_trans hij hj),
    List.getElem?_eq_getElem hj] at heq
  have hi := h i _ (List.getElem?_eq_getElem (Nat.lt_trans hij hj))
  have hj' := h j _ (List.getElem?_eq_getElem hj)
  rw [Option.map_some, Option.map_some, hi, hj'] at heq
  have hn : base.ns + i = base.ns + j := congrArg Prod.snd (Option.some.inj heq)
  omega

end

/-! ## Calls in the browser -/

section

variable {ι K : Type} [DecidableEq ι] {c : RatchetCrypto K} {args : ι → Call K}
  {session : Option (RatchetState K)} {s s' : Browser ι K} {st st₀ : RatchetState K} {i j : ι}

/-- The call has taken a number. -/
def WasSent (s : Browser ι K) (i : ι) : Prop := ∃ out, (i, out) ∈ s.sent

/-- What a call knows of the session where it waits. -/
def CallOk (c : RatchetCrypto K) (st₀ : RatchetState K) (ns : ℕ) (s : Browser ι K) (i : ι) :
    Phase K → Prop
  | .start | .read none => ¬ WasSent s i
  | .read (some ref) | .session ref | .chained ref | .keyed ref _ => ref = 0 ∧ ¬ WasSent s i
  | .chaining ref rk cks => ref = 0 ∧ ¬ WasSent s i ∧
    ensureSendChain c st₀ = ({ st₀ with rk, cks := some cks }, cks)
  | .sealed ref => ref = 0 ∧ WasSent s i
  | .saving snap => s.cached = some 0 ∧ WasSent s i ∧ snap.ns ≤ ns ∧
    ∀ out, (i, out) ∈ s.sent → out.header.n < snap.ns
  | .done => s.cached = some 0 ∧ WasSent s i ∧
    ∀ out, (i, out) ∈ s.sent → ∃ st, s.persisted = some st ∧ out.header.n < st.ns

omit [DecidableEq ι] in
/-- What another call does leaves it so. -/
theorem CallOk.mono {ns ns' : ℕ} {phase : Phase K} (h : CallOk c st₀ ns s i phase) (hns : ns ≤ ns')
    (hsent : ∀ out, (i, out) ∈ s'.sent ↔ (i, out) ∈ s.sent)
    (hcached : s.cached = some 0 → s'.cached = some 0)
    (hpersisted : ∀ st, s.persisted = some st → ∃ st', s'.persisted = some st' ∧ st.ns ≤ st'.ns) :
    CallOk c st₀ ns' s' i phase := by
  have hwas : WasSent s' i ↔ WasSent s i := exists_congr hsent
  cases phase with
  | start => exact fun hw => h (hwas.mp hw)
  | read ref =>
    cases ref with
    | none => exact fun hw => h (hwas.mp hw)
    | some ref => exact ⟨h.1, fun hw => h.2 (hwas.mp hw)⟩
  | session ref => exact ⟨h.1, fun hw => h.2 (hwas.mp hw)⟩
  | chaining ref rk cks => exact ⟨h.1, fun hw => h.2.1 (hwas.mp hw), h.2.2⟩
  | chained ref => exact ⟨h.1, fun hw => h.2 (hwas.mp hw)⟩
  | keyed ref ck => exact ⟨h.1, fun hw => h.2 (hwas.mp hw)⟩
  | «sealed» ref => exact ⟨h.1, hwas.mpr h.2⟩
  | saving snap =>
    obtain ⟨hc, hw, hsnap, hout⟩ := h
    exact ⟨hcached hc, hwas.mpr hw, Nat.le_trans hsnap hns, fun out ho => hout out ((hsent out).mp ho)⟩
  | done =>
    obtain ⟨hc, hw, hout⟩ := h
    refine ⟨hcached hc, hwas.mpr hw, fun out ho => ?_⟩
    obtain ⟨st, hst, hlt⟩ := hout out ((hsent out).mp ho)
    obtain ⟨st', hst', hle⟩ := hpersisted st hst
    exact ⟨st', hst', Nat.lt_of_lt_of_le hlt hle⟩

/-- No call has made a session. -/
structure Fresh (s : Browser ι K) : Prop where
  objects : s.objects = []
  cached : s.cached = none
  persisted : s.persisted = none
  sent : s.sent = []
  phase : ∀ i, s.phase i = .start ∨ s.phase i = .read none

/-- The calls use one session, whose state is `st` and was `st₀`. -/
structure Going (c : RatchetCrypto K) (session : Option (RatchetState K)) (theirs : Set K)
    (st₀ st : RatchetState K) (s : Browser ι K) : Prop where
  objects : s.objects = [st]
  origin : Origin c session theirs st₀
  cached : s.cached = none ∨ s.cached = some 0
  calls : ∀ i, CallOk c st₀ st.ns s i (s.phase i)
  chain : (st = st₀ ∧ st.cks = none ∧ s.sent = []) ∨
    Sending c (ensureSendChain c st₀).1 (ensureSendChain c st₀).2 (s.sent.map Prod.snd) st
  persisted : ∀ st', s.persisted = some st' → st'.ns ≤ st.ns
  once : (s.sent.map Prod.fst).Nodup

theorem Going.goto {theirs : Set K} (h : Going c session theirs st₀ st s) {phase : Phase K}
    (hphase : CallOk c st₀ st.ns s i phase) : Going c session theirs st₀ st (s.goto i phase) := by
  refine ⟨h.objects, h.origin, h.cached, fun j => ?_, h.chain, h.persisted, h.once⟩
  unfold Browser.goto
  dsimp only
  rcases eq_or_ne j i with rfl | hne
  · rw [Function.update_self]
    exact hphase.mono (Nat.le_refl _) (fun _ => Iff.rfl) (fun hc => hc)
      fun st hst => ⟨st, hst, Nat.le_refl _⟩
  · rw [Function.update_of_ne hne]
    exact (h.calls j).mono (Nat.le_refl _) (fun _ => Iff.rfl) (fun hc => hc)
      fun st hst => ⟨st, hst, Nat.le_refl _⟩

theorem Fresh.making (h : Fresh s) (hread : s.phase i = .read none) :
    Going c none (Set.range fun i => (args i).theirDhPub)
      (initSenderState c s.generated (args i).theirDhPub)
      (initSenderState c s.generated (args i).theirDhPub) (browserStep c args s i) := by
  unfold browserStep
  rw [hread]
  dsimp only
  have hnone : ∀ j, ¬ WasSent s j := by
    rintro j ⟨out, hout⟩
    rw [h.sent] at hout
    exact absurd hout List.not_mem_nil
  refine ⟨by rw [h.objects]; rfl, ⟨s.generated, _, ⟨i, rfl⟩, rfl⟩, .inl h.cached, fun j => ?_, .inr ?_,
    fun st' hst' => ?_, ?_⟩
  · unfold Browser.goto
    dsimp only
    rcases eq_or_ne j i with rfl | hne
    · rw [Function.update_self]
      exact ⟨by rw [h.objects]; rfl, hnone j⟩
    · rw [Function.update_of_ne hne]
      rcases h.phase j with hj | hj
      · rw [hj]
        exact hnone j
      · rw [hj]
        exact hnone j
  · have hsent : (s.goto i (.session s.objects.length)).sent = [] := h.sent
    dsimp only
    rw [hsent]
    exact Sending.start (initSenderState c s.generated (args i).theirDhPub)
  · have hpersisted : (s.goto i (.session s.objects.length)).persisted = none := h.persisted
    cases hpersisted.symm.trans hst'
  · have hsent : (s.goto i (.session s.objects.length)).sent = [] := h.sent
    dsimp only
    rw [hsent]
    exact List.nodup_nil

theorem Going.modify {theirs : Set K} (h : Going c session theirs st₀ st s) (i : ι)
    (phase : Phase K) (outs : List (ι × Sealed K)) (st' : RatchetState K) (hns : st.ns ≤ st'.ns)
    (houts : ∀ j out, (j, out) ∈ outs → j = i)
    (hchain : Sending c (ensureSendChain c st₀).1 (ensureSendChain c st₀).2
      ((s.sent ++ outs).map Prod.snd) st')
    (honce : ((s.sent ++ outs).map Prod.fst).Nodup)
    (hphase : CallOk c st₀ st'.ns
      { s with objects := [st'], phase := Function.update s.phase i phase, sent := s.sent ++ outs } i
      phase) :
    Going c session theirs st₀ st'
      { s with objects := [st'], phase := Function.update s.phase i phase, sent := s.sent ++ outs } := by
  refine ⟨rfl, h.origin, h.cached, fun j => ?_, .inr hchain, fun st'' hst'' =>
    Nat.le_trans (h.persisted st'' hst'') hns, honce⟩
  dsimp only
  rcases eq_or_ne j i with rfl | hne
  · rw [Function.update_self]
    exact hphase
  · rw [Function.update_of_ne hne]
    refine (h.calls j).mono hns (fun out => ?_) (fun hc => hc) fun st hst => ⟨st, hst, Nat.le_refl _⟩
    dsimp only
    rw [List.mem_append]
    exact ⟨fun hin => hin.resolve_right fun hout => hne (houts j out hout), .inl⟩

theorem Going.step {theirs : Set K} (h : Going c session theirs st₀ st s) (hsteady : Undisturbed s i) :
    ∃ st', Going c session theirs st₀ st' (browserStep c args s i) := by
  have hok := h.calls i
  have hzero : s.objects[0]? = some st := by rw [h.objects]; rfl
  unfold Undisturbed at hsteady
  unfold browserStep
  cases hphase : s.phase i with
  | start =>
    rw [hphase] at hok
    refine ⟨st, h.goto ?_⟩
    rcases h.cached with hcached | hcached
    · rw [hcached]
      exact hok
    · rw [hcached]
      exact ⟨rfl, hok⟩
  | read ref =>
    rw [hphase] at hok hsteady
    cases ref with
    | none =>
      -- a session was made since the call read that there is none
      rw [h.objects] at hsteady
      cases hsteady
    | some ref => exact ⟨st, h.goto hok⟩
  | session ref =>
    rw [hphase] at hok
    obtain ⟨rfl, hunsent⟩ := hok
    dsimp only
    rw [hzero]
    dsimp only
    cases hcks : st.cks with
    | some ck => exact ⟨st, h.goto ⟨rfl, hunsent⟩⟩
    | none =>
      obtain ⟨rfl, -, -⟩ := h.chain.resolve_right fun hsending => by
        rw [hsending.chain] at hcks
        cases hcks
      refine ⟨st, h.goto ⟨rfl, hunsent, ?_⟩⟩
      unfold ensureSendChain
      rw [hcks]
  | chaining ref rk cks =>
    rw [hphase] at hok hsteady
    obtain ⟨rfl, hunsent, hensure⟩ := hok
    have hcks := hsteady st hzero
    obtain ⟨rfl, -, hsent⟩ := h.chain.resolve_right fun hsending => by
      rw [hsending.chain] at hcks
      cases hcks
    have hstart : Sending c (ensureSendChain c st).1 (ensureSendChain c st).2
        ((s.sent ++ []).map Prod.snd) { st with rk, cks := some cks } := by
      have hstart := Sending.start (c := c) st
      rw [hensure] at hstart ⊢
      rw [hsent]
      exact hstart
    have honce : ((s.sent ++ []).map Prod.fst).Nodup := by
      rw [hsent]
      exact List.nodup_nil
    have hmodify := h.modify i (.chained 0) [] { st with rk, cks := some cks } (Nat.le_refl _)
      (fun _ _ hout => absurd hout List.not_mem_nil) hstart honce
      ⟨rfl, by rw [List.append_nil]; exact hunsent⟩
    rw [List.append_nil] at hmodify
    refine ⟨{ st with rk, cks := some cks }, ?_⟩
    dsimp only [Browser.goto]
    rw [h.objects]
    exact hmodify
  | chained ref =>
    rw [hphase] at hok
    obtain ⟨rfl, hunsent⟩ := hok
    dsimp only
    cases hck : (s.objects[0]?).bind (·.cks) with
    | none => exact ⟨st, h⟩
    | some ck => exact ⟨st, h.goto ⟨rfl, hunsent⟩⟩
  | keyed ref ck =>
    rw [hphase] at hok hsteady
    obtain ⟨rfl, hunsent⟩ := hok
    have hck := hsteady st hzero
    have hsending := h.chain.resolve_left fun hpending => by
      rw [hpending.2.1] at hck
      cases hck
    dsimp only
    rw [hzero]
    have hnext := hsending.takeNumber hck (args i).plaintext
    have houts : Sending c (ensureSendChain c st₀).1 (ensureSendChain c st₀).2
        ((s.sent ++ [(i, (takeNumber c (args i).plaintext ck st).2)]).map Prod.snd)
        (takeNumber c (args i).plaintext ck st).1 := by
      rw [List.map_append]
      exact hnext
    have honce : ((s.sent ++ [(i, (takeNumber c (args i).plaintext ck st).2)]).map
        Prod.fst).Nodup := by
      rw [List.map_append]
      refine List.nodup_append'.mpr ⟨h.once, List.nodup_singleton _, ?_⟩
      intro j hj hi
      obtain ⟨⟨j', out⟩, hmem, rfl⟩ := List.mem_map.mp hj
      obtain rfl := List.mem_singleton.mp hi
      exact hunsent ⟨out, hmem⟩
    have hmodify := h.modify i (.sealed 0) _ _ (Nat.le_succ _)
      (fun j out hout => congrArg Prod.fst (List.mem_singleton.mp hout)) houts honce
      ⟨rfl, _, List.mem_append_right _ (List.mem_singleton.mpr rfl)⟩
    refine ⟨(takeNumber c (args i).plaintext ck st).1, ?_⟩
    dsimp only [Browser.goto]
    rw [h.objects]
    exact hmodify
  | «sealed» ref =>
    rw [hphase] at hok
    obtain ⟨rfl, hsent⟩ := hok
    dsimp only
    rw [hzero]
    dsimp only [Browser.goto]
    have hbelow : ∀ out, (i, out) ∈ s.sent → out.header.n < st.ns := by
      intro out hout
      have hsending := h.chain.resolve_left fun hpending => by
        rw [hpending.2.2] at hout
        exact absurd hout List.not_mem_nil
      obtain ⟨n, hn, hget⟩ := List.mem_iff_getElem.mp (List.mem_map_of_mem (f := Prod.snd) hout)
      have heq := hsending.inTurn n out (List.getElem?_eq_some_iff.mpr ⟨hn, hget⟩)
      rw [heq, hsending.ns]
      exact Nat.add_lt_add_left hn _
    refine ⟨st, h.objects, h.origin, .inr rfl, fun j => ?_, h.chain, h.persisted, h.once⟩
    dsimp only
    rcases eq_or_ne j i with rfl | hne
    · rw [Function.update_self]
      exact ⟨rfl, hsent, Nat.le_refl _, hbelow⟩
    · rw [Function.update_of_ne hne]
      exact (h.calls j).mono (Nat.le_refl _) (fun _ => Iff.rfl) (fun _ => rfl)
        fun st hst => ⟨st, hst, Nat.le_refl _⟩
  | saving snap =>
    rw [hphase] at hok hsteady
    obtain ⟨hcached, hsent, hsnap, hout⟩ := hok
    dsimp only [Browser.goto]
    refine ⟨st, h.objects, h.origin, h.cached, fun j => ?_, h.chain, fun st' hst' => ?_, h.once⟩
    · dsimp only
      rcases eq_or_ne j i with rfl | hne
      · rw [Function.update_self]
        exact ⟨hcached, hsent, fun out ho => ⟨snap, rfl, hout out ho⟩⟩
      · rw [Function.update_of_ne hne]
        exact (h.calls j).mono (Nat.le_refl _) (fun _ => Iff.rfl) (fun hc => hc)
          fun st hst => ⟨snap, rfl, hsteady st hst⟩
    · cases hst'
      exact hsnap
  | done => exact ⟨st, h⟩

/-- The calls use one session, or none yet. -/
def Kept (c : RatchetCrypto K) (session : Option (RatchetState K)) (theirs : Set K)
    (s : Browser ι K) : Prop :=
  (session = none ∧ Fresh s) ∨ ∃ st₀ st, Going c session theirs st₀ st s

omit [DecidableEq ι] in
theorem kept_init (theirs : Set K) : Kept c session theirs (Browser.init (ι := ι) session) := by
  have hunsent : ∀ i, ¬ WasSent (Browser.init (ι := ι) session) i := by
    rintro i ⟨out, hout⟩
    exact absurd hout List.not_mem_nil
  cases session with
  | none => exact .inl ⟨rfl, rfl, rfl, rfl, rfl, fun _ => .inl rfl⟩
  | some st =>
    refine .inr ⟨st, st, rfl, rfl, .inr rfl, hunsent, ?_, fun st' hst' => ?_, List.nodup_nil⟩
    · cases hcks : st.cks with
      | none => exact .inl ⟨rfl, rfl, rfl⟩
      | some ck =>
        have hstart := Sending.start (c := c) st
        rw [ensureSendChain_of_some hcks] at hstart ⊢
        exact .inr hstart
    · cases hst'
      exact Nat.le_refl _

theorem kept_step (h : Kept c session (Set.range fun i => (args i).theirDhPub) s)
    (hsteady : Undisturbed s i) :
    Kept c session (Set.range fun i => (args i).theirDhPub) (browserStep c args s i) := by
  rcases h with ⟨rfl, hfresh⟩ | ⟨st₀, st, hgoing⟩
  · rcases hfresh.phase i with hphase | hphase
    · refine .inl ⟨rfl, ?_⟩
      unfold browserStep
      rw [hphase]
      refine ⟨hfresh.objects, hfresh.cached, hfresh.persisted, hfresh.sent, fun j => ?_⟩
      unfold Browser.goto
      dsimp only
      rcases eq_or_ne j i with rfl | hne
      · rw [Function.update_self, hfresh.cached]
        exact .inr rfl
      · rw [Function.update_of_ne hne]
        exact hfresh.phase j
    · exact .inr ⟨_, _, hfresh.making hphase⟩
  · have hnext : ∃ st', Going c session _ st₀ st' (browserStep c args s i) := hgoing.step hsteady
    obtain ⟨st', hgoing'⟩ := hnext
    exact .inr ⟨st₀, st', hgoing'⟩

omit [DecidableEq ι] in
/-- Once no call is under way, the messages are in turn, and what is persisted comes after them. -/
theorem Kept.distinct {theirs : Set K} (h : Kept c session theirs s)
    (hidle : ∀ i, s.phase i = .start ∨ s.phase i = .done) :
    Distinct c session theirs (s.sent.map Prod.snd) s.persisted ∧
      Distinct c session theirs (s.sent.map Prod.snd) (s.cached.bind (s.objects[·]?)) ∧
      (s.sent.map Prod.fst).Nodup ∧
      ∀ i, i ∈ s.sent.map Prod.fst ↔ s.phase i = .done := by
  rcases h with ⟨rfl, hfresh⟩ | ⟨st₀, st, hgoing⟩
  · rw [hfresh.sent]
    refine ⟨⟨List.nodup_nil, .inl rfl⟩, ⟨List.nodup_nil, .inl rfl⟩, List.nodup_nil, fun i => ?_⟩
    refine ⟨fun hin => absurd hin List.not_mem_nil, fun hdone => ?_⟩
    rcases hfresh.phase i with hphase | hphase <;> cases hphase.symm.trans hdone
  · have hdone : ∀ i, i ∈ s.sent.map Prod.fst ↔ s.phase i = .done := by
      intro i
      have hok := hgoing.calls i
      have hsent : i ∈ s.sent.map Prod.fst ↔ WasSent s i := by
        constructor
        · intro hin
          obtain ⟨⟨j, out⟩, hmem, rfl⟩ := List.mem_map.mp hin
          exact ⟨out, hmem⟩
        · rintro ⟨out, hmem⟩
          exact List.mem_map.mpr ⟨(i, out), hmem, rfl⟩
      rw [hsent]
      rcases hidle i with hphase | hphase
      · rw [hphase] at hok ⊢
        exact ⟨fun hw => absurd hw hok, fun heq => by cases heq⟩
      · rw [hphase] at hok
        exact ⟨fun _ => hphase, fun _ => hok.2.1⟩
    rcases hgoing.chain with ⟨-, -, hsent⟩ | hsending
    · rw [hsent] at hdone ⊢
      exact ⟨⟨List.nodup_nil, .inl rfl⟩, ⟨List.nodup_nil, .inl rfl⟩, List.nodup_nil, hdone⟩
    · have hnodup := headers_nodup hsending.inTurn
      rcases List.eq_nil_or_concat s.sent with hnil | ⟨outs, ⟨i, out⟩, hlast⟩
      · rw [hnil] at hdone ⊢
        exact ⟨⟨List.nodup_nil, .inl rfl⟩, ⟨List.nodup_nil, .inl rfl⟩, List.nodup_nil, hdone⟩
      · rw [List.concat_eq_append] at hlast
        -- the call that took the last number has persisted the state after it
        have hmem : (i, out) ∈ s.sent := by
          rw [hlast]
          exact List.mem_append_right _ (List.mem_singleton.mpr rfl)
        have hphase := (hdone i).mp (List.mem_map.mpr ⟨_, hmem, rfl⟩)
        have hok := hgoing.calls i
        rw [hphase] at hok
        obtain ⟨hcached, -, hpersisted⟩ := hok
        obtain ⟨st', hst', hlt⟩ := hpersisted out hmem
        have hns : st.ns = st₀.ns + (s.sent.map Prod.snd).length :=
          hsending.ns.trans (congrArg (· + _) (ensureSendChain_ns st₀))
        have hout : out.header.n + 1 = st.ns := by
          have hget : (s.sent.map Prod.snd)[outs.length]? = some out := by
            rw [hlast, List.map_append, List.map_singleton, List.getElem?_append_right (by simp)]
            simp
          rw [hsending.inTurn _ _ hget, hsending.ns, hlast]
          simp [sealAt, Nat.add_assoc]
        have hle := hgoing.persisted st' hst'
        refine ⟨⟨hnodup, .inr ⟨st₀, hgoing.origin, hsending.inTurn, st', hst', by omega⟩⟩,
          ⟨hnodup, .inr ⟨st₀, hgoing.origin, hsending.inTurn, st, ?_, hns⟩⟩, hgoing.once, hdone⟩
        rw [hcached, hgoing.objects]
        rfl

end

/-! ## Calls in the backend -/

section

variable {ι K : Type} [DecidableEq ι] {c : RatchetCrypto K} {session : Option (RatchetState K)}
  {theirs : Set K}

/-- Calls that are made one after the other. -/
structure InFile (c : RatchetCrypto K) (session : Option (RatchetState K)) (theirs : Set K)
    (outs : List (Sealed K)) (file : Option (RatchetState K)) : Prop where
  chain : (outs = [] ∧ file = session) ∨ ∃ st₀ st, Origin c session theirs st₀ ∧ file = some st ∧
    Sending c (ensureSendChain c st₀).1 (ensureSendChain c st₀).2 outs st

theorem modify_eq (o : ℕ × Call K) (file : Option (RatchetState K)) :
    (backendOperations c).modify o () file =
      let st := file.getD (initSenderState c o.1 o.2.theirDhPub)
      let taken := takeNumber c o.2.plaintext (ensureSendChain c st).2 (ensureSendChain c st).1
      (some taken.1, some (some taken.1), taken.2) := rfl

theorem InFile.encrypt {outs : List (Sealed K)} {file : Option (RatchetState K)}
    (h : InFile c session theirs outs file) (o : ℕ × Call K) (ho : o.2.theirDhPub ∈ theirs) :
    InFile c session theirs (outs ++ [((backendOperations c).modify o () file).2.2])
      (((backendOperations c).modify o () file).2.1.getD file) := by
  have htaken : ∀ st, Sending c (ensureSendChain c st).1 (ensureSendChain c st).2
      [(takeNumber c o.2.plaintext (ensureSendChain c st).2 (ensureSendChain c st).1).2]
      (takeNumber c o.2.plaintext (ensureSendChain c st).2 (ensureSendChain c st).1).1 :=
    fun st => (Sending.start st).takeNumber (Sending.start st).chain o.2.plaintext
  rcases h.chain with ⟨rfl, rfl⟩ | ⟨st₀, st, horigin, rfl, hsending⟩
  · cases file with
    | none => exact ⟨.inr ⟨_, _, ⟨o.1, _, ho, rfl⟩, rfl, htaken (initSenderState c o.1 o.2.theirDhPub)⟩⟩
    | some st => exact ⟨.inr ⟨st, _, rfl, rfl, htaken st⟩⟩
  · have hnext := hsending.takeNumber hsending.chain o.2.plaintext
    rw [modify_eq]
    dsimp only [Option.getD_some]
    rw [ensureSendChain_of_some hsending.chain]
    exact ⟨.inr ⟨st₀, _, horigin, rfl, hnext⟩⟩

theorem InFile.distinct {outs : List (Sealed K)} {file : Option (RatchetState K)}
    (h : InFile c session theirs outs file) : Distinct c session theirs outs file := by
  rcases h.chain with ⟨rfl, rfl⟩ | ⟨st₀, st, horigin, rfl, hsending⟩
  · exact ⟨List.nodup_nil, .inl rfl⟩
  · exact ⟨headers_nodup hsending.inTurn, .inr ⟨st₀, horigin, hsending.inTurn, st, rfl,
      hsending.ns.trans (congrArg (· + _) (ensureSendChain_ns st₀))⟩⟩

/-- Calls that are made one after the other, from any of them on. -/
theorem inFile_run {t : Shared ι (Option (RatchetState K)) (Option (RatchetState K)) (ℕ × Call K)}
    (hrest : ∀ i, t.busy i = none) (calls : List (ι × (ℕ × Call K) × Unit))
    (hcalls : ∀ call ∈ calls, call.2.1.2.theirDhPub ∈ theirs) {outs : List (Sealed K)}
    (h : InFile c session theirs outs t.file) :
    InFile c session theirs
      (outs ++ outputs (sequentialStep (backendOperations c)) (sequentialResult (backendOperations c))
        t calls)
      (run (sequentialStep (backendOperations c)) t calls).file := by
  induction calls generalizing t outs with
  | nil =>
    rw [outputs, List.append_nil]
    exact h
  | cons call calls ih =>
    obtain ⟨i, o, u⟩ := call
    obtain ⟨hfile, -, hrest'⟩ := @sequentialStep_eq _ _ _ _ _ _ (backendOperations c) _ _ hrest i o u
    have hnext : InFile c session theirs (outs ++ [((backendOperations c).modify o () t.file).2.2])
        (sequentialStep (backendOperations c) t (i, o, u)).file := by
      rw [hfile]
      exact h.encrypt o (hcalls _ List.mem_cons_self)
    have hrun := ih hrest' (fun call hcall => hcalls call (List.mem_cons_of_mem _ hcall)) hnext
    rw [List.append_assoc] at hrun
    exact hrun

end

/-! ## Interleavings -/

/-- Where no call moves the chain between the read and the write of another, messages take its keys
in turn. -/
theorem encrypts_in_turn {ι K : Type} [DecidableEq ι] (c : RatchetCrypto K)
    (session : Option (RatchetState K)) :
    (∀ (args : ι → Call K) (schedule : List ι),
      Along (browserStep c args) Undisturbed (Browser.init session) schedule →
      let s := run (browserStep c args) (Browser.init session) schedule
      (∀ i, s.phase i = .start ∨ s.phase i = .done) →
      let theirs := Set.range fun i => (args i).theirDhPub
      Distinct c session theirs (s.sent.map Prod.snd) s.persisted ∧
        Distinct c session theirs (s.sent.map Prod.snd) (s.cached.bind (s.objects[·]?)) ∧
        (s.sent.map Prod.fst).Nodup ∧ ∀ i, i ∈ s.sent.map Prod.fst ↔ s.phase i = .done) ∧
    ∀ (actions : List (Action ι (ℕ × Call K) Unit)),
      let ops := backendOperations c
      Along (step ops) ReadModifyWrite.Undisturbed (backendInit session) actions →
      Distinct c session Set.univ (outputs (step ops) (result ops) (backendInit session) actions)
        (run (step ops) (backendInit session) actions).file := by
  constructor
  · intro args schedule hrun s hidle theirs
    have hstep : ∀ s i, Kept c session theirs s → Undisturbed s i →
        Kept c session theirs (browserStep c args s i) := fun _ _ h hsteady => kept_step h hsteady
    exact (invariant hstep (kept_init theirs) hrun).distinct hidle
  · intro actions ops hrun
    obtain ⟨hresults, hend⟩ := (InTurn.start fun _ => rfl).run hrun
    have hinit : InFile c session Set.univ [] (backendInit (ι := ι) session).file :=
      ⟨.inl ⟨rfl, rfl⟩⟩
    have hfile := inFile_run (fun _ => rfl)
      (outputs (step ops) completed (backendInit session) actions) (fun _ _ => Set.mem_univ _) hinit
    rw [hresults, hend.file]
    exact hfile.distinct

/-! ## Two calls -/

/-- The texts of two calls. -/
def twoCalls (i : Bool) : Call KeyTerm where
  plaintext := if i then "b" else "a"
  theirDhPub := .pub (.priv 1)

/-- A session that is ready to send. -/
def readySession : RatchetState KeyTerm := initSenderState symbolicCrypto 0 (.pub (.priv 1))

/-- The steps of one call from its start to its end. -/
def wholeCall (i : Bool) : List Bool := List.replicate 7 i

theorem encrypts_in_turn_sample :
    let s := run (browserStep symbolicCrypto twoCalls) (Browser.init (some readySession))
      (wholeCall false ++ wholeCall true)
    Distinct symbolicCrypto (some readySession) (Set.range fun i => (twoCalls i).theirDhPub)
      (s.sent.map Prod.snd) s.persisted := by
  refine ((encrypts_in_turn symbolicCrypto (some readySession)).1 twoCalls
    (wholeCall false ++ wholeCall true) ?_ ?_).1
  · refine ⟨trivial, trivial, trivial, trivial, ?_, trivial, ?_, trivial, trivial, trivial, trivial,
      ?_, trivial, ?_, trivial⟩
    · intro st hst
      cases hst
      rfl
    · intro st hst
      cases hst
      exact Nat.zero_le _
    · intro st hst
      cases hst
      rfl
    · intro st hst
      cases hst
      exact Nat.le_succ _
  · intro i
    right
    cases i <;> rfl

/-- Both calls read before either writes: one key, or one number, seals both messages. -/
theorem not_encrypts_in_turn :
    (¬ ∀ (session : Option (RatchetState KeyTerm)) (args : Bool → Call KeyTerm) (schedule : List Bool),
      let s := run (browserStep symbolicCrypto args) (Browser.init session) schedule
      (∀ i, s.phase i = .start ∨ s.phase i = .done) →
      Distinct symbolicCrypto session (Set.range fun i => (args i).theirDhPub) (s.sent.map Prod.snd)
        s.persisted) ∧
    ¬ ∀ (session : Option (RatchetState KeyTerm)) (actions : List (Action Bool (ℕ × Call KeyTerm) Unit)),
      let ops := backendOperations symbolicCrypto
      Distinct symbolicCrypto session Set.univ
        (outputs (step ops) (result ops) (backendInit session) actions)
        (run (step ops) (backendInit session) actions).file := by
  constructor
  · intro h
    have hdistinct := h (some readySession) twoCalls
      [false, true, false, true, false, true, false, true, false, true, false, true, false, true]
      (fun i => by
        right
        cases i <;> rfl)
    rcases hdistinct.keys with hnil | ⟨st, horigin, hkeys, -⟩
    · cases hnil
    · have hst : st = readySession := horigin
      subst hst
      have hsecond := hkeys 1 _ rfl
      revert hsecond
      decide +kernel
  · intro h
    have hdistinct := (h (some readySession) [.read false (1, twoCalls false),
      .read true (2, twoCalls true), .write false (), .write true ()]).headers
    revert hdistinct
    decide +kernel

end Vincent.Dm.Interleaved
