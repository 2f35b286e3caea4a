-- SUMMARY: Who moves the lane of a contact, over runs of alias frames.
import Vincent.Contacts.AliasFrames

/-!
# Alias lanes

The counter of a contact rises with each accepted frame, so none is accepted twice.
The old alias is looked up as well as the shared one: the key of an alias that was
given up still moves the lane.
-/

namespace Vincent.Contacts

open Vincent.Python Vincent.Check Vincent.Run Vincent.Mesh

section

variable (env : AliasEnv)

/-! ## Who moves the lane -/

/-- The alias that the contact shares has a public key. -/
def HasAliasKey (c : Dict) : Prop :=
  strip (textAt env.toContactEnv c "sharedAlias") ≠ "" ∧
    textAt env.toContactEnv c "sharedAliasPublicKey" ≠ ""

/-- The holder of the alias key signed the rotation, or after a compromise the holder of the
root. -/
def Authorized (Signed : String → String → Prop) (c frame : Dict) : Prop :=
  ∃ seq reason r, payloadInt env.toContactEnv frame "seq" = .ok seq ∧
    normalizeRotationReason env.toContactEnv (Dict.get frame "reason") = .ok reason ∧
    readRotation env.toContactEnv frame seq reason = .ok r ∧
    if reason = .suspectedCompromise then
      Signed (contactRootPublicKey env.toContactEnv c) (r.canonical env.rt)
    else Signed (textAt env.toContactEnv c "sharedAliasPublicKey")
      (aliasMessage env.toContactEnv (strip r.oldAlias) r.oldCounter (r.canonical env.rt))

/-- A call does not raise, changes nothing when it refuses, and else raises the counter for who owns
the lane. -/
structure LaneKept (Signed : String → String → Prop) (c : Dict) (a : AliasCall) : Prop where
  returns : ∀ exn, applyInboundAliasBindingFrame env a c ≠ .error (.raised exn)
  refused : ∀ detail, applyInboundAliasBindingFrame env a c = .error (.invalid detail) →
    aliasStep env c a = c
  rises : ∀ c', applyInboundAliasBindingFrame env a c = .ok c' →
    intAt c "aliasBindingSeq" < intAt (aliasStep env c a) "aliasBindingSeq"
  signed : ∀ c', applyInboundAliasBindingFrame env a c = .ok c' → HasAliasKey env c →
    Authorized env Signed c a.frame

/-- The numbers of a frame that gets so far can be read, and its reason is known. -/
def FrameReadable (c : Dict) (a : AliasCall) : Prop :=
  textAt env.toContactEnv a.frame "kind" = pairwiseAliasUpdateKind →
  contactAliasUpdatesBlocked env.toContactEnv c = false →
  ∃ seq, payloadInt env.toContactEnv a.frame "seq" = .ok seq ∧
    (intAt c "aliasBindingSeq" < seq →
      ∃ reason r,
        normalizeRotationReason env.toContactEnv (Dict.get a.frame "reason") = .ok reason ∧
          readRotation env.toContactEnv a.frame seq reason = .ok r)

/-- A frame that is not about a compromise names no alias that has a key, but the shared one. -/
def NamesSharedAlias (c : Dict) (a : AliasCall) : Prop :=
  let oldAlias := strip (textAt env.toContactEnv a.frame "old_alias")
  normalizeRotationReason env.toContactEnv (Dict.get a.frame "reason") ≠ .ok .suspectedCompromise →
    (contactAliasPublicBinding env.toContactEnv c oldAlias).1 ≠ "" →
      oldAlias = strip (textAt env.toContactEnv c "sharedAlias")

end

section

variable {env : ContactEnv} {now : Int} {c c' value : Dict}

/-! ## Contacts that can be normalized -/

/-- A value that a field can be coerced from, as normalized contacts and updates have it. -/
def FieldKind.fits : FieldKind → PyVal → Bool
  | .int, .int _ | .int, .none | .aliases, .list _ | .aliases, .none => true
  | .int, _ | .aliases, _ => false
  | _, _ => true

theorem coerce_of_fits (env : ContactEnv) {kind : FieldKind} {v : PyVal} (h : kind.fits v = true) :
    ∃ w, coerce env kind v = .ok w := by
  cases kind with
  | int =>
    cases v with
    | none => exact ⟨_, rfl⟩
    | int n =>
      by_cases hn : n = 0
      · rw [hn]
        exact ⟨_, rfl⟩
      · have hor : (PyVal.int n).or (.int 0) = .int n := by simp [PyVal.or, PyVal.truthy, hn]
        rw [coerce, hor]
        exact ⟨_, rfl⟩
    | _ => cases h
  | aliases =>
    cases v with
    | none => exact ⟨_, rfl⟩
    | list xs =>
      cases xs with
      | nil => exact ⟨_, rfl⟩
      | cons x xs => exact ⟨_, rfl⟩
    | _ => cases h
  | _ => exact ⟨_, rfl⟩

theorem fits_of_coerce {kind : FieldKind} {v w : PyVal} (h : coerce env kind v = .ok w) :
    kind.fits w = true := by
  cases kind with
  | int =>
    obtain ⟨n, -, rfl⟩ := map_eq_ok.mp h
    rfl
  | aliases =>
    obtain ⟨items, -, h⟩ := bind_eq_ok.mp h
    obtain rfl := pure_eq_ok.mp h
    rfl
  | _ => rfl

/-- Each field of the contact fits. -/
def Fits (c : Dict) : Prop :=
  ∀ k kind, contactFields.lookup k = some kind → kind.fits (Dict.get c k) = true

theorem fits_nil : Fits [] := by
  intro k kind _
  cases kind <;> rfl

theorem fits_normalize (h : normalizeContact env value = .ok c) : Fits c := fun _ _ hk =>
  fits_of_coerce (lookup_of_mapM (fun key kind => coerce env kind (rawField value key)) h hk)

theorem Fits.update {kvs : Dict} (hc : Fits c)
    (hkvs : ∀ kv ∈ kvs, ∀ kind, contactFields.lookup kv.1 = some kind → kind.fits kv.2 = true) :
    Fits (update c kvs) := by
  unfold Contacts.update
  induction kvs generalizing c with
  | nil => exact hc
  | cons kv kvs ih =>
    rw [List.foldl_cons]
    refine ih ?_ fun kv' hmem => hkvs kv' (List.mem_cons_of_mem _ hmem)
    intro k kind hk
    rw [get_set]
    split
    · rename_i heq
      rw [heq] at hk
      exact hkvs kv List.mem_cons_self kind hk
    · exact hc k kind hk

theorem lookup_contactFields :
    ∀ field ∈ contactFields, contactFields.lookup field.1 = some field.2 := by
  decide +kernel

theorem Fits.normalize (env : ContactEnv) (hc : Fits c) : ∃ c', normalizeContact env c = .ok c' := by
  unfold normalizeContact
  refine exists_mapM fun field hfield => ?_
  have hlookup := lookup_contactFields field hfield
  have hfits : field.2.fits (rawField c field.1) = true := by
    unfold rawField
    split
    · rename_i hid
      rw [hid] at hlookup
      rw [← Option.some.inj hlookup]
      rfl
    · exact hc field.1 field.2 hlookup
  obtain ⟨v, hv⟩ := coerce_of_fits env hfits
  exact ⟨(field.1, v), bind_eq_ok.mpr ⟨v, hv, rfl⟩⟩

/-- A peer's contact as it is read, or none. -/
def IsRead (env : ContactEnv) (c : Dict) : Prop :=
  c = [] ∨ ∃ value, normalizeContact env value = .ok c

theorem IsRead.fits (h : IsRead env c) : Fits c := by
  rcases h with rfl | ⟨value, h⟩
  · exact fits_nil
  · exact fits_normalize h

/-! ## Updates of a contact -/

theorem Fits.upsert (env : ContactEnv) (now : Int) {updates : Dict} (hc : Fits c)
    (hupdates : ∀ kv ∈ updates, ∀ kind, contactFields.lookup kv.1 = some kind →
      kind.fits kv.2 = true) :
    ∃ c', upsertContactInternal env now updates c = .ok c' := by
  obtain ⟨current, hcurrent⟩ := hc.normalize env
  obtain ⟨merged, hmerged⟩ := ((fits_normalize hcurrent).update hupdates).normalize env
  have hstamped : Fits (Contacts.update merged [("updated_at", .int now)]) := by
    refine (fits_normalize hmerged).update ?_
    simp only [List.mem_singleton, forall_eq]
    intro kind hkind
    have hint : contactFields.lookup "updated_at" = some .int := by decide +kernel
    rw [hint] at hkind
    rw [← Option.some.inj hkind]
    rfl
  obtain ⟨c', hc'⟩ := hstamped.normalize env
  exact ⟨c', bind_eq_ok.mpr ⟨current, hcurrent, bind_eq_ok.mpr ⟨merged, hmerged, hc'⟩⟩⟩

theorem upsert_int {updates : Dict} {k : String} {n : Int}
    (h : upsertContactInternal env now updates c = .ok c')
    (hk : contactFields.lookup k = some .int) (hid : k ≠ "dmIdentityId")
    (hstamp : k ≠ "updated_at")
    (hget : ∀ d, Dict.get (Contacts.update d updates) k = .int n) : Dict.get c' k = .int n := by
  obtain ⟨current, -, h⟩ := bind_eq_ok.mp h
  obtain ⟨merged, hmerged, h⟩ := bind_eq_ok.mp h
  refine normalize_int h hk hid ?_
  rw [get_update_of_notMem (by simpa using hstamp)]
  exact normalize_int hmerged hk hid (hget current)

/-- Reading a contact keeps its numbers, but the time of an update. -/
theorem read_int {k : String} {n : Int} (hk : contactFields.lookup k = some .int)
    (hid : k ≠ "dmIdentityId") (hstamp : k ≠ "updated_at") (hmode : k ≠ "remotePrekeyLookupMode")
    (hget : Dict.get c k = .int n) : Dict.get (orKeep c (readContact env now c)) k = .int n := by
  cases hread : readContact env now c with
  | error e => exact hget
  | ok c' =>
    obtain ⟨normal, hnormal, h⟩ := bind_eq_ok.mp hread
    have hkept := normalize_int hnormal hk hid hget
    unfold promoteInviteLookupMode at h
    split at h
    · obtain rfl := Except.ok.inj h
      exact hkept
    · refine normalize_int h hk hid ?_
      rw [get_update_of_notMem (by simp [hstamp, hmode]), hkept]

theorem isRead_read (h : normalizeContact env value = .ok c) :
    IsRead env (orKeep c (readContact env now c)) := by
  cases hread : readContact env now c with
  | error e => exact .inr ⟨value, h⟩
  | ok c' =>
    obtain ⟨normal, hnormal, h⟩ := bind_eq_ok.mp hread
    unfold promoteInviteLookupMode at h
    split at h
    · obtain rfl := Except.ok.inj h
      exact .inr ⟨c, hnormal⟩
    · exact .inr ⟨_, h⟩

end

section

variable {env : AliasEnv} {c c' : Dict} {a : AliasCall}

/-! ## What an accepted frame sets -/

theorem aliasUpdates_fits (nowMs : Int) (frame c : Dict) (r : AliasRotation) (old : String × String) :
    ∀ kv ∈ aliasUpdates env nowMs frame c r old, ∀ kind, contactFields.lookup kv.1 = some kind →
      kind.fits kv.2 = true := by
  have hall : (aliasUpdates env nowMs frame c r old).all (fun kv =>
      (contactFields.lookup kv.1).all fun kind => kind.fits kv.2) = true := by rfl
  intro kv hkv kind hkind
  have hkv := List.all_eq_true.mp hall kv hkv
  rwa [hkind] at hkv

theorem get_aliasUpdates (nowMs : Int) (frame c : Dict) (r : AliasRotation) (old : String × String)
    (d : Dict) : Dict.get (update d (aliasUpdates env nowMs frame c r old)) "aliasBindingSeq" =
      .int r.seq := by
  simp [aliasUpdates, update, get_set]

/-! ## One call -/

theorem readRotation_spec {frame : Dict} {seq : Int} {reason : AliasRotationReason} {r : AliasRotation}
    (h : readRotation env.toContactEnv frame seq reason = .ok r) :
    r.seq = seq ∧ r.reason = reason ∧ r.oldAlias = textAt env.toContactEnv frame "old_alias" := by
  unfold readRotation at h
  obtain ⟨oldCounter, -, h⟩ := bind_eq_ok.mp h
  obtain ⟨newCounter, -, h⟩ := bind_eq_ok.mp h
  obtain ⟨graceUntil, -, h⟩ := bind_eq_ok.mp h
  obtain ⟨hardCapUntil, -, h⟩ := bind_eq_ok.mp h
  obtain ⟨issuedAt, -, h⟩ := bind_eq_ok.mp h
  obtain rfl := pure_eq_ok.mp h
  exact ⟨rfl, rfl, rfl⟩

/-- A call accepts the rotation `r`, which the frame gives, with the key `known` of the old alias. -/
structure Accepts (env : AliasEnv) (a : AliasCall) (c c' : Dict) (r : AliasRotation)
    (known : String × String) : Prop where
  seq : payloadInt env.toContactEnv a.frame "seq" = .ok r.seq
  above : intAt c "aliasBindingSeq" < r.seq
  reason : normalizeRotationReason env.toContactEnv (Dict.get a.frame "reason") = .ok r.reason
  rotation : readRotation env.toContactEnv a.frame r.seq r.reason = .ok r
  oldAlias : r.oldAlias = textAt env.toContactEnv a.frame "old_alias"
  checked : checkOldAlias env a.frame c r = .ok known
  stored : ∃ old, upsertContactInternal env.toContactEnv a.now
    (aliasUpdates env a.nowMs a.frame c r old) c = .ok c'

theorem accepts_of_apply (h : applyInboundAliasBindingFrame env a c = .ok c') :
    ∃ r known, Accepts env a c c' r known := by
  unfold applyInboundAliasBindingFrame at h
  simp only [require_eq_ok, bind_eq_ok, orFail_eq_ok] at h
  obtain ⟨_, -, _, -, _, -, seq, hseq, _, habove, reason, hreason, r, hr, known, hknown, _, -,
    hstored⟩ := h
  obtain ⟨rfl, rfl, hold⟩ := readRotation_spec hr
  exact ⟨r, known, hseq, habove, hreason, hr, hold, hknown, _, hstored⟩

/-- An accepted frame sets the counter to its own. -/
theorem Accepts.seq_stored {r : AliasRotation} {known : String × String}
    (h : Accepts env a c c' r known) : Dict.get (orKeep c' (readContact env.toContactEnv a.now c'))
      "aliasBindingSeq" = .int r.seq := by
  obtain ⟨old, hstored⟩ := h.stored
  have hint : contactFields.lookup "aliasBindingSeq" = some .int := by decide +kernel
  refine read_int hint (by decide) (by decide) (by decide) ?_
  exact upsert_int hstored hint (by decide) (by decide) (get_aliasUpdates _ _ _ _ _)

theorem aliasStep_ok (h : applyInboundAliasBindingFrame env a c = .ok c') :
    aliasStep env c a = orKeep c' (readContact env.toContactEnv a.now c') := by
  rw [aliasStep, h]

theorem aliasStep_error {e : Fault} (h : applyInboundAliasBindingFrame env a c = .error e) :
    aliasStep env c a = c := by
  rw [aliasStep, h]

theorem aliasStep_isRead (hc : IsRead env.toContactEnv c) (a : AliasCall) :
    IsRead env.toContactEnv (aliasStep env c a) := by
  cases h : applyInboundAliasBindingFrame env a c with
  | error e =>
    rw [aliasStep_error h]
    exact hc
  | ok c' =>
    rw [aliasStep_ok h]
    obtain ⟨r, known, haccepts⟩ := accepts_of_apply h
    obtain ⟨old, hstored⟩ := haccepts.stored
    obtain ⟨current, -, hstored⟩ := bind_eq_ok.mp hstored
    obtain ⟨merged, -, hstored⟩ := bind_eq_ok.mp hstored
    exact isRead_read hstored

/-! ## A call returns -/

/-- The computation does not raise. -/
def Returns {α : Type} (x : Except Fault α) : Prop := ∀ exn, x ≠ .error (.raised exn)

theorem returns_ok {α : Type} (x : α) : Returns (.ok x) := fun _ h => nomatch h

theorem returns_require {p : Prop} [Decidable p] {detail : String} :
    Returns (require p (Fault.invalid detail)) := by
  intro exn h
  unfold require at h
  split at h
  · cases h
  · cases h

theorem returns_orFail {α : Type} {x : Except String α} {y : α} (h : x = .ok y) :
    Returns (orFail x Fault.raised) := by
  rw [h]
  exact returns_ok y

theorem Returns.bind {α β : Type} {x : Except Fault α} {f : α → Except Fault β} (hx : Returns x)
    (hf : ∀ y, x = .ok y → Returns (f y)) : Returns (x >>= f) := by
  intro exn h
  rcases bind_eq_error.mp h with h | ⟨y, hy, h⟩
  · exact hx exn h
  · exact hf y hy exn h

theorem Returns.check {β : Type} {p : Prop} [Decidable p] {detail : String}
    {f : Unit → Except Fault β} (hf : p → Returns (f ())) :
    Returns (require p (Fault.invalid detail) >>= f) :=
  Returns.bind returns_require fun _ h => hf (require_eq_ok.mp h)

theorem returns_checkOldAlias {r : AliasRotation} : Returns (checkOldAlias env a.frame c r) := by
  unfold checkOldAlias
  split
  · refine Returns.bind ?_ fun _ _ => returns_ok _
    exact Returns.check fun _ => Returns.check fun _ => returns_require
  · exact Returns.check fun _ => Returns.check fun _ => Returns.check fun _ => returns_ok _

theorem returns_apply (hc : IsRead env.toContactEnv c) (hframe : FrameReadable env c a) :
    Returns (applyInboundAliasBindingFrame env a c) := by
  unfold applyInboundAliasBindingFrame
  refine Returns.check fun _ => Returns.check fun hkind => Returns.check fun hblocked => ?_
  obtain ⟨seq, hseq, hrest⟩ := hframe hkind hblocked
  refine Returns.bind (returns_orFail hseq) fun seq' hseq' => Returns.check fun habove => ?_
  obtain rfl := Except.ok.inj (hseq.symm.trans (orFail_eq_ok.mp hseq'))
  obtain ⟨reason, r, hreason, hr⟩ := hrest habove
  refine Returns.bind (returns_orFail hreason) fun reason' hreason' => ?_
  obtain rfl := Except.ok.inj (hreason.symm.trans (orFail_eq_ok.mp hreason'))
  refine Returns.bind (returns_orFail hr) fun r' _ => ?_
  refine Returns.bind returns_checkOldAlias fun known _ => Returns.check fun _ => ?_
  obtain ⟨c', hc'⟩ := hc.fits.upsert env.toContactEnv a.now
    (aliasUpdates_fits a.nowMs a.frame c r' _)
  exact returns_orFail hc'

/-! ## Who signed -/

variable {Signed : String → String → Prop}

/-- A routine frame is signed by the key that it leaves. -/
theorem checkRoutine_signed {r : AliasRotation} {known : String × String}
    (hideal : ∀ key sig msg, env.verifies key sig msg = true → Signed key msg)
    (h : checkRoutine env a.frame c r = .ok known) :
    Signed known.1
      (aliasMessage env.toContactEnv (strip r.oldAlias) r.oldCounter (r.canonical env.rt)) := by
  unfold checkRoutine at h
  simp only [check_bind_eq_ok, require_eq_ok] at h
  obtain ⟨-, -, hverify, h⟩ := h
  obtain rfl := pure_eq_ok.mp h
  exact hideal _ _ _ (Bool.and_eq_true_iff.mp hverify).2

/-- The key of the shared alias, where a routine frame names no other alias. -/
theorem checkRoutine_key {r : AliasRotation} {known : String × String} (hkey : HasAliasKey env c)
    (hnames : (contactAliasPublicBinding env.toContactEnv c (strip r.oldAlias)).1 ≠ "" →
      strip r.oldAlias = strip (textAt env.toContactEnv c "sharedAlias"))
    (h : checkRoutine env a.frame c r = .ok known) :
    known.1 = textAt env.toContactEnv c "sharedAliasPublicKey" := by
  have hshared : strip r.oldAlias = strip (textAt env.toContactEnv c "sharedAlias") →
      (contactAliasPublicBinding env.toContactEnv c (strip r.oldAlias)).1 =
        textAt env.toContactEnv c "sharedAliasPublicKey" := by
    intro heq
    unfold contactAliasPublicBinding
    rw [strip_strip, heq, if_neg hkey.1, if_pos rfl]
  unfold checkRoutine at h
  simp only [check_bind_eq_ok, require_eq_ok] at h
  obtain ⟨-, hne, -, h⟩ := h
  obtain rfl := pure_eq_ok.mp h
  split at hne
  · rename_i hfirst
    exact absurd (hfirst.1.symm.trans (hshared hfirst.2.2.2)) (Ne.symm hkey.2)
  · rename_i hfirst
    rw [if_neg hfirst]
    exact hshared (hnames hne)

/-- A frame after a compromise is signed by the pinned root. -/
theorem checkCompromise_signed {r : AliasRotation} {u : Unit}
    (hideal : ∀ key sig msg, env.verifies key sig msg = true → Signed key msg)
    (h : checkCompromise env a.frame c r = .ok u) :
    Signed (contactRootPublicKey env.toContactEnv c) (r.canonical env.rt) := by
  unfold checkCompromise at h
  simp only [check_bind_eq_ok, require_eq_ok] at h
  obtain ⟨-, -, hverify⟩ := h
  exact hideal _ _ _ (Bool.and_eq_true_iff.mp hverify).2

theorem Accepts.authorized {r : AliasRotation} {known : String × String}
    (hideal : ∀ key sig msg, env.verifies key sig msg = true → Signed key msg)
    (h : Accepts env a c c' r known) (hnames : NamesSharedAlias env c a) (hkey : HasAliasKey env c) :
    Authorized env Signed c a.frame := by
  refine ⟨r.seq, r.reason, r, h.seq, h.reason, h.rotation, ?_⟩
  have hchecked := h.checked
  unfold checkOldAlias at hchecked
  split at hchecked
  · rename_i hcompromise
    obtain ⟨u, hu, -⟩ := bind_eq_ok.mp hchecked
    rw [if_pos hcompromise]
    exact checkCompromise_signed hideal hu
  · rename_i hroutine
    rw [if_neg hroutine, ← checkRoutine_key hkey ?_ hchecked]
    · exact checkRoutine_signed hideal hchecked
    · rw [h.oldAlias]
      refine hnames ?_
      rw [h.reason]
      exact fun heq => hroutine (Except.ok.inj heq)

/-- A call keeps the lane where its frame can be read and names the shared alias. -/
theorem lane_kept (hideal : ∀ key sig msg, env.verifies key sig msg = true → Signed key msg)
    (hc : IsRead env.toContactEnv c) (hframe : FrameReadable env c a)
    (hnames : NamesSharedAlias env c a) : LaneKept env Signed c a where
  returns := returns_apply hc hframe
  refused _ h := aliasStep_error h
  rises c' h := by
    obtain ⟨r, known, haccepts⟩ := accepts_of_apply h
    rw [aliasStep_ok h, intAt_of_get haccepts.seq_stored]
    exact haccepts.above
  signed c' h hkey := by
    obtain ⟨r, known, haccepts⟩ := accepts_of_apply h
    exact haccepts.authorized hideal hnames hkey

end

section

variable {env : AliasEnv} {c : Dict} {a : AliasCall}

/-! ## Runs -/

/-- The number of a frame. -/
def frameSeq (env : AliasEnv) (frame : Dict) : Int :=
  ((payloadInt env.toContactEnv frame "seq").toOption).getD 0

theorem acceptedFrame_eq_some {frame : Dict} (h : acceptedFrame env c a = some frame) :
    a.frame = frame ∧ ∃ c', applyInboundAliasBindingFrame env a c = .ok c' := by
  unfold acceptedFrame at h
  split at h
  · rename_i c' hc'
    exact ⟨Option.some.inj h, c', hc'⟩
  · cases h

theorem acceptedFrame_eq_none (h : acceptedFrame env c a = none) : aliasStep env c a = c := by
  unfold acceptedFrame at h
  split at h
  · cases h
  · rename_i e he
    exact aliasStep_error he

/-- The counter of a contact rises with each accepted frame. -/
theorem acceptedFrames_rise : Rises (aliasStep env) (fun _ _ => True)
    (fun c => some (intAt c "aliasBindingSeq"))
    (fun c a => (acceptedFrame env c a).map (frameSeq env)) := by
  have haccepted : ∀ c a n, (acceptedFrame env c a).map (frameSeq env) = some n →
      intAt c "aliasBindingSeq" < n ∧ intAt (aliasStep env c a) "aliasBindingSeq" = n := by
    intro c a n h
    obtain ⟨frame, hframe, rfl⟩ := Option.map_eq_some_iff.mp h
    obtain ⟨rfl, c', hc'⟩ := acceptedFrame_eq_some hframe
    obtain ⟨r, known, haccepts⟩ := accepts_of_apply hc'
    have hseq : frameSeq env a.frame = r.seq := by
      rw [frameSeq, haccepts.seq]
      rfl
    rw [aliasStep_ok hc', intAt_of_get haccepts.seq_stored, hseq]
    exact ⟨haccepts.above, rfl⟩
  refine ⟨fun c a n _ h => congrArg some (haccepted c a n h).2, fun c a n m _ h hm => ?_,
    fun c a m _ h hm => ?_⟩
  · rw [← Option.some.inj hm]
    exact (haccepted c a n h).1
  · rw [acceptedFrame_eq_none (Option.map_eq_none_iff.mp h)]
    exact hm

/-- No frame is accepted twice. -/
theorem acceptedFrames_nodup (c : Dict) (calls : List AliasCall) :
    (outputs (aliasStep env) (acceptedFrame env) c calls).Nodup := by
  have hrun : Along (aliasStep env) (fun _ _ => True) c calls :=
    along_iff_split.mpr fun _ _ _ _ => trivial
  have hpairwise := acceptedFrames_rise.pairwise hrun
  rw [outputs_map] at hpairwise
  exact List.Nodup.of_map (frameSeq env) (hpairwise.imp fun h => ne_of_lt h)

/-- Only the holder of the alias key or of the pinned root moves the lane, and no frame is
    accepted twice. -/
theorem owner_moves_lane (env : AliasEnv) (Signed : String → String → Prop)
    (hideal : ∀ key sig msg, env.verifies key sig msg = true → Signed key msg)
    (c : Dict) (hc : IsRead env.toContactEnv c) (calls : List AliasCall)
    (hcond : Along (aliasStep env)
      (fun c a => FrameReadable env c a ∧ NamesSharedAlias env c a) c calls) :
    Along (aliasStep env) (LaneKept env Signed) c calls ∧
      (outputs (aliasStep env) (acceptedFrame env) c calls).Nodup := by
  refine ⟨?_, acceptedFrames_nodup c calls⟩
  have hread : ∀ c a, IsRead env.toContactEnv c →
      FrameReadable env c a ∧ NamesSharedAlias env c a →
        IsRead env.toContactEnv (aliasStep env c a) := fun c a hc _ => aliasStep_isRead hc a
  exact Along.imp hread (fun c a hc h => lane_kept hideal hc h.1 h.2) hc hcond

/-! ## A lane that was rotated once -/

/-- The signers sign whatever they are asked to, with their key. -/
def laneEnv (signers : List String) : AliasEnv where
  toContactEnv := plainContactEnv
  verifies key sig _ := decide (key ∈ signers) && decide (sig = key)

/-- The alias `a1` with the key `K1` was replaced by `a2` with the key `K2`. -/
def rotated : Dict :=
  orKeep [] (normalizeContact plainContactEnv [("sharedAlias", .str "a2"),
    ("sharedAliasPublicKey", .str "K2"), ("acceptedPreviousAlias", .str "a1"),
    ("acceptedPreviousAliasPublicKey", .str "K1"), ("aliasBindingSeq", .int 1)])

/-- A routine rotation from an alias to `a3`. -/
def rotationFrom (oldAlias signature : String) : AliasCall where
  now := 100
  nowMs := 100000
  frame := [("kind", .str pairwiseAliasUpdateKind), ("seq", .int 2), ("reason", .str "manual"),
    ("old_alias", .str oldAlias), ("old_alias_signature", .str signature),
    ("new_alias", .str "a3"), ("new_alias_public_key", .str "K3"), ("new_alias_signature", .str "K3")]

theorem rotated_isRead : IsRead plainContactEnv rotated := by
  unfold rotated orKeep
  split
  · rename_i c hc
    exact .inr ⟨_, hc⟩
  · exact .inl rfl

theorem rotated_shared : textAt plainContactEnv rotated "sharedAlias" = "a2" ∧
    textAt plainContactEnv rotated "sharedAliasPublicKey" = "K2" := by
  decide +kernel

theorem rotationFrom_readable (signers : List String) (c : Dict) (oldAlias signature : String) :
    FrameReadable (laneEnv signers) c (rotationFrom oldAlias signature) :=
  fun _ _ => ⟨2, rfl, fun _ => ⟨.manual, _, rfl, rfl⟩⟩

/-- The owner rotates the lane. -/
theorem owner_moves_lane_rotated :
    Along (aliasStep (laneEnv ["K2", "K3"]))
        (LaneKept (laneEnv ["K2", "K3"]) fun key _ => key ∈ ["K2", "K3"])
        rotated [rotationFrom "a2" "K2"] ∧
      (outputs (aliasStep (laneEnv ["K2", "K3"])) (acceptedFrame (laneEnv ["K2", "K3"])) rotated
        [rotationFrom "a2" "K2"]).Nodup := by
  refine owner_moves_lane (laneEnv ["K2", "K3"]) _ ?_ rotated rotated_isRead _ ?_
  · intro key sig msg h
    exact of_decide_eq_true (Bool.and_eq_true_iff.mp h).1
  · refine ⟨⟨rotationFrom_readable _ _ _ _, fun _ _ => ?_⟩, trivial⟩
    change strip (textAt plainContactEnv (rotationFrom "a2" "K2").frame "old_alias") =
      strip (textAt plainContactEnv rotated "sharedAlias")
    rw [rotated_shared.1]
    rfl

/-- The holder of the retired key moves the lane. -/
theorem not_owner_moves_lane : ¬ ∀ (env : AliasEnv) (Signed : String → String → Prop),
    (∀ key sig msg, env.verifies key sig msg = true → Signed key msg) →
    ∀ (c : Dict), IsRead env.toContactEnv c → ∀ calls : List AliasCall,
      Along (aliasStep env) (LaneKept env Signed) c calls ∧
        (outputs (aliasStep env) (acceptedFrame env) c calls).Nodup := by
  intro h
  have hideal : ∀ key sig msg, (laneEnv ["K1", "K3"]).verifies key sig msg = true →
      key ∈ ["K1", "K3"] := by
    intro key sig msg h
    exact of_decide_eq_true (Bool.and_eq_true_iff.mp h).1
  obtain ⟨⟨hkept, -⟩, -⟩ := h (laneEnv ["K1", "K3"]) (fun key _ => key ∈ ["K1", "K3"]) hideal
    rotated rotated_isRead [rotationFrom "a1" "K1"]
  have haccepted :
      (acceptedFrame (laneEnv ["K1", "K3"]) rotated (rotationFrom "a1" "K1")).isSome = true := by
    decide +kernel
  obtain ⟨frame, hframe⟩ := Option.isSome_iff_exists.mp haccepted
  obtain ⟨-, c', hc'⟩ := acceptedFrame_eq_some hframe
  have hkey : HasAliasKey (laneEnv ["K1", "K3"]) rotated := by
    refine ⟨?_, ?_⟩
    · change strip (textAt plainContactEnv rotated "sharedAlias") ≠ ""
      rw [rotated_shared.1]
      decide +kernel
    · change textAt plainContactEnv rotated "sharedAliasPublicKey" ≠ ""
      rw [rotated_shared.2]
      decide +kernel
  obtain ⟨seq, reason, r, -, hreason, -, hsigned⟩ := hkept.signed c' hc' hkey
  have hmanual : normalizeRotationReason (laneEnv ["K1", "K3"]).toContactEnv
      (Dict.get (rotationFrom "a1" "K1").frame "reason") = .ok .manual := rfl
  obtain rfl := Except.ok.inj (hmanual.symm.trans hreason)
  rw [if_neg (by decide)] at hsigned
  change textAt plainContactEnv rotated "sharedAliasPublicKey" ∈ ["K1", "K3"] at hsigned
  rw [rotated_shared.2] at hsigned
  exact absurd hsigned (by decide)

end

end Vincent.Contacts
