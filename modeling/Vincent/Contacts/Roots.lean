-- SUMMARY: Stable roots of DM contacts, and the runs in which a pinned root stays.
import Vincent.Contacts.Trust

/-!
# Stable roots

A contact has one pinned root, from its prekey bundle or else its invite. An
acknowledgement adopts the root that was observed last, which can be older than the
observation that is acknowledged.
-/

namespace Vincent.Contacts

open Vincent.Python Vincent.Check Vincent.Run

section Model

variable (env : ContactEnv)

/-- What `acknowledge_changed_fingerprint` checks. -/
def Acknowledgeable (c : Dict) : Prop :=
  let observed := loweredAt env c "remotePrekeyObservedFingerprint"
  let invitePinned := loweredAt env c "invitePinnedTrustFingerprint"
  let observedRoot := loweredAt env c "remotePrekeyObservedRootFingerprint"
  let invitePinnedRoot := loweredAt env c "invitePinnedRootFingerprint"
  trustLevel env c ∈ ["mismatch", "continuity_broken"] ∧ observed ≠ "" ∧
    (invitePinned = "" ∨ observed = invitePinned) ∧ flagAt c "remotePrekeyRootMismatch" = false ∧
    (invitePinnedRoot = "" ∨ observedRoot = "" ∨ observedRoot = invitePinnedRoot)

/-- The pinned root of a peer. -/
def rootOf (s : ContactTable) (peer : String) : String := pinnedRoot env ((s peer).getD [])

/-- The action replaces the root of a peer: it pins an invite, or recovers the root by its phrase. -/
def Replaces (s : ContactTable) (peer : String) : Int × ContactAction → Prop
  | (_, .pinInvite p _ _ _) => strip p = peer
  | (now, .recoverContinuity p phrase peerRef words fetched) => strip p = peer ∧
    ∃ c', currentContact env now s p >>=
      recoverContinuity env now (strip p) phrase peerRef words fetched = .ok c'
  | _ => False

/-- A pinned root stays in a step that does not replace it. -/
def RootKept (s : ContactTable) (a : Int × ContactAction) : Prop := ∀ peer,
  rootOf env s peer ≠ "" → ¬ Replaces env s peer a →
    rootOf env (contactStep env s a) peer = rootOf env s peer

/-- An acknowledgement finds no root but the pinned one to adopt. -/
def NoOtherRoot (s : ContactTable) : Int × ContactAction → Prop
  | (now, .acknowledgeChanged peer) => ∀ c, currentContact env now s peer = .ok c →
    Acknowledgeable env c → pinnedRoot env c = "" ∨
      loweredAt env c "remotePrekeyObservedRootFingerprint" = "" ∨
      loweredAt env c "remotePrekeyObservedRootFingerprint" = pinnedRoot env c
  | _ => True

end Model

section

variable {env : ContactEnv} {now : Int} {c c' value : Dict} {s : ContactTable} {o : Observation}
  {k : String}

/-! ## Lowered fields -/

theorem loweredAt_of_get {k' : String} (h : Dict.get c' k' = Dict.get c k) :
    loweredAt env c' k' = loweredAt env c k := by
  rw [loweredAt, loweredAt, h]

theorem loweredAt_str {t : String} (h : Dict.get c k = .str t) : loweredAt env c k = lowered env t := by
  rw [loweredAt, h, textOf_str]

@[simp] theorem loweredAt_nil : loweredAt env [] k = "" := lowered_empty

variable (hlower : ∀ t, lowered env (lowered env t) = lowered env t)

theorem pinnedRoot_nil : pinnedRoot env [] = "" := by
  unfold pinnedRoot
  simp

theorem normalize_get {kind : FieldKind} (h : normalizeContact env value = .ok c)
    (hk : contactFields.lookup k = some kind) (hid : k ≠ "dmIdentityId") :
    coerce env kind (Dict.get value k) = .ok (Dict.get c k) := by
  have hget := lookup_of_mapM (fun k kind => coerce env kind (rawField value k)) h hk
  rwa [rawField, if_neg hid] at hget

include hlower in
/-- Normalizing keeps a field that it lowers. -/
theorem normalize_lowered (h : normalizeContact env value = .ok c)
    (hk : contactFields.lookup k = some .lowered) (hid : k ≠ "dmIdentityId") :
    loweredAt env c k = loweredAt env value k := by
  have hget := Except.ok.inj (normalize_get h hk hid)
  rw [loweredAt, ← hget, textOf_str, hlower, loweredAt]

/-! ## Operations that leave the roots -/

/-- The two roots that a contact can have pinned are as they were. -/
def SameRoots (env : ContactEnv) (c c' : Dict) : Prop :=
  loweredAt env c' "remotePrekeyRootFingerprint" = loweredAt env c "remotePrekeyRootFingerprint" ∧
    loweredAt env c' "invitePinnedRootFingerprint" = loweredAt env c "invitePinnedRootFingerprint"

theorem SameRoots.refl : SameRoots env c c := ⟨rfl, rfl⟩

theorem SameRoots.trans {c'' : Dict} (h : SameRoots env c c') (h' : SameRoots env c' c'') :
    SameRoots env c c'' := ⟨h'.1.trans h.1, h'.2.trans h.2⟩

theorem SameRoots.pinnedRoot (h : SameRoots env c c') : pinnedRoot env c' = pinnedRoot env c := by
  unfold Contacts.pinnedRoot
  rw [h.1, h.2]

theorem SameRoots.update {kvs : Dict} (h : SameRoots env c c')
    (hremote : "remotePrekeyRootFingerprint" ∉ kvs.map Prod.fst)
    (hinvite : "invitePinnedRootFingerprint" ∉ kvs.map Prod.fst) : SameRoots env c (update c' kvs) :=
  ⟨(loweredAt_of_get (get_update_of_notMem hremote)).trans h.1,
    (loweredAt_of_get (get_update_of_notMem hinvite)).trans h.2⟩

theorem SameRoots.updateIf {p : Prop} [Decidable p] {kvs : Dict} (h : SameRoots env c c')
    (hremote : "remotePrekeyRootFingerprint" ∉ kvs.map Prod.fst)
    (hinvite : "invitePinnedRootFingerprint" ∉ kvs.map Prod.fst) :
    SameRoots env c (updateIf p c' kvs) := by
  unfold Contacts.updateIf
  split
  · exact h.update hremote hinvite
  · exact h

include hlower in
theorem SameRoots.normalize {c'' : Dict} (hsame : SameRoots env c c')
    (h : normalizeContact env c' = .ok c'') : SameRoots env c c'' :=
  hsame.trans ⟨normalize_lowered hlower h rfl (by decide), normalize_lowered hlower h rfl (by decide)⟩

include hlower in
theorem SameRoots.saved {c'' : Dict} (hsame : SameRoots env c c') (h : saved env c' = .ok c'') :
    SameRoots env c c'' := by
  obtain ⟨once, honce, h⟩ := bind_eq_ok.mp h
  exact (hsame.normalize hlower honce).normalize hlower h

include hlower in
theorem sameRoots_promote (h : promoteInviteLookupMode env now c = .ok c') :
    SameRoots env c c' := by
  unfold promoteInviteLookupMode at h
  split at h
  · obtain rfl := Except.ok.inj h
    exact SameRoots.refl
  · exact (SameRoots.refl.update (by simp) (by simp)).normalize hlower h

include hlower in
theorem sameRoots_rollForward {mapping : String → Option String} {inviteNodeId : String}
    (h : rollForwardLookupHandle env now mapping inviteNodeId c = .ok c') : SameRoots env c c' := by
  unfold rollForwardLookupHandle at h
  dsimp only at h
  split at h
  · obtain rfl := Except.ok.inj h
    exact SameRoots.refl
  · split at h
    · obtain rfl := Except.ok.inj h
      exact SameRoots.refl
    · exact (SameRoots.refl.update (by simp) (by simp)).saved hlower h

include hlower in
theorem sameRoots_upsert {updates : Dict} (h : upsertContact env now updates c = .ok c') :
    SameRoots env c c' := by
  obtain ⟨merged, hmerged, h⟩ := bind_eq_ok.mp h
  have hmerge : SameRoots env c merged := (SameRoots.refl.update (sanitize_keys (by decide))
    (sanitize_keys (by decide))).normalize hlower hmerged
  exact (hmerge.update (by simp) (by simp)).normalize hlower h

include hlower in
theorem sameRoots_sever {block : Bool} (h : severContact env now block c = .ok c') :
    SameRoots env c c' := by
  refine SameRoots.saved hlower ?_ h
  exact ((SameRoots.refl.update (by simp) (by simp)).updateIf (by simp) (by simp)).update (by simp)
    (by simp)

include hlower in
theorem sameRoots_confirmSas {peer phrase peerRef : String} {words : Int}
    (h : confirmSas env now peer phrase peerRef words c = .ok c') : SameRoots env c c' := by
  unfold confirmSas at h
  simp only [check_bind_eq_ok, require_eq_ok] at h
  obtain ⟨-, -, -, h⟩ := h
  exact (SameRoots.refl.update (by simp) (by simp)).saved hlower h

theorem sameRoots_note {conflict : Bool} :
    SameRoots env c (noteObservation env now o conflict c) := by
  unfold noteObservation
  dsimp only
  split
  · exact ((((SameRoots.refl.update (by simp) (by simp)).updateIf (by simp) (by simp)).updateIf
      (by simp) (by simp)).updateIf (by simp) (by simp)).update (by simp) (by simp)
  · exact (((((SameRoots.refl.update (by simp) (by simp)).updateIf (by simp) (by simp)).updateIf
      (by simp) (by simp)).updateIf (by simp) (by simp)).update (by simp) (by simp)).update
      (by simp) (by simp)

/-! ## Operations that pin a root -/

/-- The root of the prekey bundle is the one that counts, where there is one. -/
theorem pinnedRoot_of_remote (hne : loweredAt env c "remotePrekeyRootFingerprint" ≠ "") :
    pinnedRoot env c = loweredAt env c "remotePrekeyRootFingerprint" := by
  unfold pinnedRoot
  exact if_neg hne

include hlower in
/-- What counts as the pinned root becomes the root of the prekey bundle. -/
theorem pinFromInvite_root {prior : Dict} (h : SameRoots env prior c) :
    loweredAt env (pinFromInvite env now prior c) "remotePrekeyRootFingerprint" =
      pinnedRoot env prior := by
  unfold pinFromInvite pinnedRoot
  dsimp only
  rw [updateIf]
  split
  · rename_i hinvite
    rw [if_pos hinvite.1]
    exact (loweredAt_str (t := loweredAt env prior "invitePinnedRootFingerprint")
      (by simp [update, get_set])).trans (hlower _)
  · rename_i hinvite
    rw [updateIf]
    have hkept : loweredAt env (updateIf (loweredAt env prior "remotePrekeyFingerprint" = "" ∧
        loweredAt env prior "invitePinnedTrustFingerprint" ≠ "") c
        [("remotePrekeyFingerprint", .str (loweredAt env prior "invitePinnedTrustFingerprint")),
          ("remotePrekeyPinnedAt", .int (if intAt c "invitePinnedAt" = 0 then now
            else intAt c "invitePinnedAt"))])
        "remotePrekeyRootFingerprint" = loweredAt env prior "remotePrekeyRootFingerprint" :=
      (h.updateIf (by simp) (by simp)).1
    rw [updateIf] at hkept
    rw [hkept]
    split
    · rename_i hnone
      rw [hnone]
      exact (not_not.mp fun hne => hinvite ⟨hnone, Ne.symm hne⟩)
    · rfl

include hlower in
/-- The root of the prekey bundle after the root of an observation, if it has one, is adopted. -/
theorem adopted_root (d : Dict) :
    loweredAt env (updateIf (lowered env o.rootFingerprint ≠ "") d (adoptedRoot env o))
        "remotePrekeyRootFingerprint" =
      if lowered env o.rootFingerprint = "" then loweredAt env d "remotePrekeyRootFingerprint"
      else lowered env o.rootFingerprint := by
  rw [updateIf]
  split
  · exact (loweredAt_str (t := lowered env o.rootFingerprint)
      (by simp [adoptedRoot, update, get_set])).trans (hlower _)
  · rename_i hnone
    rw [if_pos (not_not.mp hnone)]

/-- Updates of other fields keep the root of the prekey bundle. -/
theorem remote_update {kvs : Dict} (h : "remotePrekeyRootFingerprint" ∉ kvs.map Prod.fst) :
    loweredAt env (update c kvs) "remotePrekeyRootFingerprint" =
      loweredAt env c "remotePrekeyRootFingerprint" :=
  loweredAt_of_get (get_update_of_notMem h)

include hlower in
theorem sameSeen_root {prior : Dict}
    {conflict : Bool} {r : String}
    (hroot : lowered env o.rootFingerprint = "" ∨ lowered env o.rootFingerprint = r)
    (hc : loweredAt env c "remotePrekeyRootFingerprint" = r) :
    loweredAt env (sameSeen env o prior conflict c) "remotePrekeyRootFingerprint" = r := by
  have hadopted : loweredAt env (updateIf (lowered env o.rootFingerprint ≠ "")
      (update c [("remotePrekeyMismatch", .bool conflict), ("remotePrekeyRootMismatch", .bool false)])
      (adoptedRoot env o)) "remotePrekeyRootFingerprint" = r := by
    rw [adopted_root hlower, remote_update (by simp), hc]
    split
    · rfl
    · rename_i hne
      exact hroot.resolve_left hne
  unfold sameSeen
  dsimp only
  split
  · exact (remote_update (by simp)).trans hadopted
  · split
    · exact (remote_update (by simp)).trans hadopted
    · split
      · exact (remote_update (by simp)).trans hadopted
      · exact hadopted

theorem changedSeen_root {prior : Dict} (hne : pinnedRoot env prior ≠ "") :
    loweredAt env (changedSeen env now o prior c) "remotePrekeyRootFingerprint" =
      loweredAt env c "remotePrekeyRootFingerprint" := by
  unfold changedSeen
  dsimp only
  rw [remote_update (by simp), updateIf, if_neg fun h => hne h.2]
  exact remote_update (by simp)

include hlower in
theorem observe_root {prior : Dict}
    (h : observeRemotePrekeyIdentity env now o prior = .ok c')
    (hpinned : pinnedFingerprint env prior ≠ "") (hne : pinnedRoot env prior ≠ "") :
    pinnedRoot env c' = pinnedRoot env prior := by
  unfold observeRemotePrekeyIdentity at h
  simp only [check_bind_eq_ok] at h
  obtain ⟨-, h⟩ := h
  rw [if_neg hpinned] at h
  have hnote : SameRoots env prior
      (noteObservation env now o (transparencyConflict env prior o) prior) := sameRoots_note
  have hinvite : loweredAt env (pinFromInvite env now prior
      (noteObservation env now o (transparencyConflict env prior o) prior))
      "remotePrekeyRootFingerprint" = pinnedRoot env prior := pinFromInvite_root hlower hnote
  have hkept := (SameRoots.refl.update (by simp) (by simp)).saved hlower h
  have hremote : loweredAt env c' "remotePrekeyRootFingerprint" = pinnedRoot env prior := by
    refine hkept.1.trans ?_
    split
    · rename_i hsame
      refine sameSeen_root hlower ?_ hinvite
      exact (hsame.2.resolve_left hne).imp_right Eq.symm
    · exact (changedSeen_root hne).trans hinvite
  rw [← hremote] at hne ⊢
  exact pinnedRoot_of_remote hne

include hlower in
/-- An acknowledgement that finds no other root keeps the pinned one. -/
theorem acknowledge_root
    (h : acknowledgeChanged env now c = .ok c')
    (hcond : Acknowledgeable env c → pinnedRoot env c = "" ∨
      loweredAt env c "remotePrekeyObservedRootFingerprint" = "" ∨
      loweredAt env c "remotePrekeyObservedRootFingerprint" = pinnedRoot env c)
    (hne : pinnedRoot env c ≠ "") : pinnedRoot env c' = pinnedRoot env c := by
  unfold acknowledgeChanged at h
  simp only [check_bind_eq_ok, require_eq_ok] at h
  obtain ⟨hlevel, hobserved, hinvite, hflag, hroot, h⟩ := h
  rcases (hcond ⟨hlevel, hobserved, hinvite, hflag, hroot⟩).resolve_left hne with hnone | hsame
  · rw [updateIf, if_neg (not_not.mpr hnone)] at h
    exact ((SameRoots.refl.update (by simp) (by simp)).update (by simp) (by simp)).saved hlower h
      |>.pinnedRoot
  · have hsome : loweredAt env c "remotePrekeyObservedRootFingerprint" ≠ "" := hsame ▸ hne
    rw [updateIf, if_pos hsome] at h
    have hkept := SameRoots.refl.saved hlower h
    have hremote : loweredAt env c' "remotePrekeyRootFingerprint" = pinnedRoot env c := by
      refine hkept.1.trans ((remote_update (by simp)).trans ?_)
      exact (loweredAt_str (t := loweredAt env c "remotePrekeyObservedRootFingerprint")
        (by simp [update, get_set])).trans ((hlower _).trans hsame)
    rw [← hremote] at hne ⊢
    exact pinnedRoot_of_remote hne

/-! ## Steps -/

/-- A contact with a pinned root has a pinned fingerprint. -/
structure Rooted (env : ContactEnv) (c : Dict) : Prop where
  sound : Sound env c
  pinned : pinnedRoot env c ≠ "" → pin env c ≠ ""

def AllRooted (env : ContactEnv) (s : ContactTable) : Prop := ∀ peer c, s peer = some c → Rooted env c

theorem Rooted.of_same (hc : Rooted env c) (hquiet : Quiet env c c') (hsame : SameRoots env c c') :
    Rooted env c' where
  sound := hquiet.sound hc.sound
  pinned hne := hquiet.2 ▸ hc.pinned (hsame.pinnedRoot ▸ hne)

include hlower in
/-- Reading a contact keeps its level, its pin and its roots. -/
theorem read_same :
    SameRoots env c (orKeep c (readContact env now c)) := by
  cases hread : readContact env now c with
  | error e => exact SameRoots.refl
  | ok c' =>
    obtain ⟨normal, hnormal, h⟩ := bind_eq_ok.mp hread
    exact (SameRoots.refl.normalize hlower hnormal).trans (sameRoots_promote hlower h)

include hlower in
theorem readContacts_rooted (now : Int)
    (hs : AllRooted env s) : AllRooted env (readContacts env now s) := by
  intro peer c hc
  obtain ⟨c0, hc0, rfl⟩ := Option.map_eq_some_iff.mp hc
  exact (hs peer c0 hc0).of_same (quiet_readContact (hs peer c0 hc0).sound) (read_same hlower)

include hlower in
theorem readContacts_root (now : Int)
    (s : ContactTable) (peer : String) :
    rootOf env (readContacts env now s) peer = rootOf env s peer := by
  unfold rootOf readContacts
  cases s peer with
  | none => rfl
  | some c => exact (read_same hlower).pinnedRoot

include hlower in
/-- The contact that an operation starts from has the pinned root of the peer. -/
theorem currentContact_rooted
    {peer : String} (hs : AllRooted env s) (h : currentContact env now s peer = .ok c) :
    Rooted env c ∧ pinnedRoot env c = rootOf env s (strip peer) := by
  have hsame : SameRoots env ((readContacts env now s (strip peer)).getD []) c :=
    SameRoots.refl.normalize hlower h
  rw [← readContacts_root hlower now]
  refine ⟨⟨(currentContact_spec (fun peer c hc => (hs peer c hc).sound) h).1, ?_⟩, hsame.pinnedRoot⟩
  rw [hsame.pinnedRoot, normalize_pin h]
  cases hc : readContacts env now s (strip peer) with
  | none => exact fun hne => absurd pinnedRoot_nil hne
  | some c0 => exact (readContacts_rooted hlower now hs _ c0 hc).pinned

include hlower in
/-- An operation that keeps the pinned root of a contact leaves all pinned roots. -/
theorem change_root
    {peer other : String} {op : Dict → Except String Dict} (hs : AllRooted env s)
    (hne : rootOf env s other ≠ "")
    (hop : strip peer = other → ∀ c c', currentContact env now s peer = .ok c → Rooted env c →
      op c = .ok c' → pinnedRoot env c ≠ "" → pinnedRoot env c' = pinnedRoot env c) :
    rootOf env (change env now s peer op) other = rootOf env s other := by
  unfold change
  split
  · rfl
  · split
    · exact readContacts_root hlower now s other
    · rename_i c' hc'
      obtain ⟨c, hc, hop'⟩ := bind_eq_ok.mp hc'
      obtain ⟨hrooted, hroot⟩ := currentContact_rooted hlower hs hc
      by_cases hother : other = strip peer
      · rw [← hother] at hroot
        rw [rootOf, ← hother, Function.update_self, Option.getD_some,
          hop hother.symm c c' hc hrooted hop' (hroot ▸ hne), hroot]
      · rw [rootOf, Function.update_of_ne hother]
        exact readContacts_root hlower now s other

include hlower in
theorem change_rooted {peer : String}
    {op : Dict → Except String Dict} (hs : AllRooted env s)
    (hop : ∀ c c', Rooted env c → op c = .ok c' → Rooted env c') :
    AllRooted env (change env now s peer op) := by
  unfold change
  split
  · exact hs
  · split
    · exact readContacts_rooted hlower now hs
    · rename_i c' hc'
      obtain ⟨c, hc, hop'⟩ := bind_eq_ok.mp hc'
      intro other d hd
      by_cases hother : other = strip peer
      · rw [hother, Function.update_self] at hd
        obtain rfl := Option.some.inj hd
        exact hop c c' (currentContact_rooted hlower hs hc).1 hop'
      · rw [Function.update_of_ne hother] at hd
        exact readContacts_rooted hlower now hs other d hd

theorem rooted_pinned {kvs : Dict} {f : String} (h : saved env (update c kvs) = .ok c')
    (hsound : Sound env c') (hpin : Dict.get (update c kvs) "remotePrekeyFingerprint" = .str f)
    (hf : f ≠ "") : Rooted env c' where
  sound := hsound
  pinned _ := by
    obtain ⟨once, honce, h⟩ := bind_eq_ok.mp h
    rwa [normalize_pin h, normalize_pin honce, pin, hpin, textOf_str]

include hlower in
theorem rollForward_same
    {mapping : String → Option String} {inviteNodeId : String} (hc : Sound env c) :
    let c' := orKeep c (normalizeContact env c >>= rollForwardLookupHandle env now mapping inviteNodeId)
    Quiet env c c' ∧ SameRoots env c c' := by
  dsimp only
  cases hrolled : normalizeContact env c >>= rollForwardLookupHandle env now mapping inviteNodeId with
  | error e => exact ⟨Quiet.refl, SameRoots.refl⟩
  | ok c' =>
    obtain ⟨normal, hnormal, h⟩ := bind_eq_ok.mp hrolled
    have hquiet := quiet_normalize hnormal hc.level
    exact ⟨hquiet.trans (quiet_rollForward h (hquiet.sound hc).level),
      (SameRoots.refl.normalize hlower hnormal).trans (sameRoots_rollForward hlower h)⟩

include hlower in
/-- Every step leaves the contacts with a pinned fingerprint wherever a root is pinned. -/
theorem contactStep_rooted
    (hs : AllRooted env s) (a : Int × ContactAction) : AllRooted env (contactStep env s a) := by
  obtain ⟨now, action⟩ := a
  cases action with
  | observe peer o =>
    refine change_rooted hlower hs fun c c' hc h => ⟨hc.sound.observe h, fun _ => ?_⟩
    exact (observe_spec h hc.sound.level).2.2 ▸ (judgedPin_ne (observe_spec h hc.sound.level).1).1
  | upsert peer updates =>
    exact change_rooted hlower hs fun c c' hc h =>
      hc.of_same (quiet_upsert h hc.sound.level) (sameRoots_upsert hlower h)
  | sever peer block =>
    exact change_rooted hlower hs fun c c' hc h =>
      hc.of_same (quiet_sever h hc.sound.level) (sameRoots_sever hlower h)
  | rollForward mapping inviteNodeId =>
    intro peer c hc
    obtain ⟨c0, hc0, rfl⟩ := Option.map_eq_some_iff.mp hc
    have hrooted := readContacts_rooted hlower now hs peer c0 hc0
    obtain ⟨hquiet, hsame⟩ := rollForward_same hlower hrooted.sound
    exact hrooted.of_same hquiet hsame
  | read => exact readContacts_rooted hlower now hs
  | pinInvite peer payload label attested =>
    refine change_rooted hlower hs fun c c' hc h => ?_
    have hsound := sound_pinInvite h
    unfold pinInvite at h
    simp only [bind_eq_ok, require_eq_ok, exists_const] at h
    obtain ⟨hfingerprint, root, -, issued, -, expires, -, h⟩ := h
    exact rooted_pinned h hsound (by simp [update, get_set]) hfingerprint
  | confirmSas peer phrase peerRef words =>
    refine change_rooted hlower hs fun c c' hc h => ⟨sound_confirmSas hc.sound h, fun hne => ?_⟩
    have hpinned := hc.pinned ((sameRoots_confirmSas hlower h).pinnedRoot ▸ hne)
    unfold confirmSas at h
    simp only [check_bind_eq_ok, require_eq_ok] at h
    obtain ⟨-, -, -, h⟩ := h
    obtain ⟨once, honce, h⟩ := bind_eq_ok.mp h
    have hkept : pin env c' = pin env c :=
      ((normalize_pin h).trans (normalize_pin honce)).trans
        (pin_of_get (get_update_of_notMem (by simp)))
    rwa [hkept]
  | recoverContinuity peer phrase peerRef words fetched =>
    refine change_rooted hlower hs fun c c' hc h => ?_
    have hsound := sound_recover h
    unfold recoverContinuity at h
    simp only [bind_eq_ok, require_eq_ok, exists_const] at h
    obtain ⟨-, -, hobserved, bundle, -, -, -, -, h⟩ := h
    exact rooted_pinned h hsound (by simp [update, get_set]) hobserved.1
  | acknowledgeChanged peer =>
    refine change_rooted hlower hs fun c c' hc h => ?_
    have hsound := sound_acknowledge h
    unfold acknowledgeChanged at h
    simp only [check_bind_eq_ok, require_eq_ok] at h
    obtain ⟨-, hobserved, -, -, -, h⟩ := h
    exact rooted_pinned h hsound (by simp [update, get_set]) hobserved

include hlower in
/-- A step keeps every pinned root that it does not replace, if an acknowledgement finds no other
    root to adopt. -/
theorem contactStep_root
    (hs : AllRooted env s) {a : Int × ContactAction} (hcond : NoOtherRoot env s a) :
    RootKept env s a := by
  intro peer hne hreplaces
  obtain ⟨now, action⟩ := a
  cases action with
  | observe p o =>
    refine change_root hlower hs hne fun _ c c' _ hc h hroot => ?_
    exact observe_root hlower h (hc.sound.pinnedFingerprint (hc.pinned hroot)).2 hroot
  | upsert p updates =>
    exact change_root hlower hs hne fun _ c c' _ _ h _ => (sameRoots_upsert hlower h).pinnedRoot
  | sever p block =>
    exact change_root hlower hs hne fun _ c c' _ _ h _ => (sameRoots_sever hlower h).pinnedRoot
  | rollForward mapping inviteNodeId =>
    have hread := readContacts_root hlower now s peer
    rw [← hread]
    unfold rootOf
    dsimp only [contactStep]
    cases hc : readContacts env now s peer with
    | none => rfl
    | some c =>
      exact (rollForward_same hlower (readContacts_rooted hlower now hs peer c hc).sound).2.pinnedRoot
  | read => exact readContacts_root hlower now s peer
  | pinInvite p payload label attested =>
    exact change_root hlower hs hne fun hpeer => absurd hpeer hreplaces
  | confirmSas p phrase peerRef words =>
    exact change_root hlower hs hne fun _ c c' _ _ h _ => (sameRoots_confirmSas hlower h).pinnedRoot
  | recoverContinuity p phrase peerRef words fetched =>
    refine change_root hlower hs hne fun hpeer c c' hc _ h _ => ?_
    exact absurd ⟨hpeer, c', bind_eq_ok.mpr ⟨c, hc, h⟩⟩ hreplaces
  | acknowledgeChanged p =>
    exact change_root hlower hs hne fun _ c c' hc _ h hroot => acknowledge_root hlower h (hcond c hc) hroot

/-- If no acknowledgement finds another root to adopt, only an invite or a recovery replaces a
pinned root. -/
theorem root_by_recovery_only (env : ContactEnv)
    (hlower : ∀ t, lowered env (lowered env t) = lowered env t) (actions : List (Int × ContactAction))
    (hcond : Along (contactStep env) (NoOtherRoot env) (fun _ => none) actions) :
    Along (contactStep env) (RootKept env) (fun _ => none) actions := by
  have hnone : AllRooted env fun _ => none := fun _ _ h => absurd h (by simp)
  exact hcond.imp (fun s a (hs : AllRooted env s) _ => contactStep_rooted hlower hs a)
    (fun s a (hs : AllRooted env s) h => contactStep_root hlower hs h) hnone

end

/-! ## An older root -/

theorem plainContactEnv_lowered (t : String) :
    lowered plainContactEnv (lowered plainContactEnv t) = lowered plainContactEnv t := by
  change asciiRuntime.lower (strip (asciiRuntime.lower (strip t))) = asciiRuntime.lower (strip t)
  rw [strip_lower_ascii, strip_strip, lower_lower_ascii]

/-- Another identity with another root is seen, and then again without its root. -/
def bobRotated : List (Int × ContactAction) :=
  [(100, .observe "bob" { fingerprint := "aa", rootFingerprint := "r1" }),
    (200, .observe "bob" { fingerprint := "bb", rootFingerprint := "r2" }),
    (300, .observe "bob" { fingerprint := "bb" })]

theorem bobRotated_roots :
    let s := run (contactStep plainContactEnv) (fun _ => none) bobRotated
    rootOf plainContactEnv s "bob" = "r1" ∧
      rootOf plainContactEnv (contactStep plainContactEnv s (400, .acknowledgeChanged "bob")) "bob" =
        "r2" := by
  decide +kernel

/-- A contact is seen with its root, then with another fingerprint, which is acknowledged. -/
theorem root_by_recovery_only_sample :
    Along (contactStep plainContactEnv) (RootKept plainContactEnv) (fun _ => none)
      [(100, .observe "bob" { fingerprint := "aa", rootFingerprint := "r1" }),
        (200, .observe "bob" { fingerprint := "bb" }), (300, .acknowledgeChanged "bob")] := by
  apply root_by_recovery_only plainContactEnv plainContactEnv_lowered
  refine ⟨trivial, trivial, ?_, trivial⟩
  intro c hc _
  have hobserved : (currentContact plainContactEnv 300 (contactStep plainContactEnv
      (contactStep plainContactEnv (fun _ => none)
        (100, .observe "bob" { fingerprint := "aa", rootFingerprint := "r1" }))
      (200, .observe "bob" { fingerprint := "bb" })) "bob").map (fun c =>
        (loweredAt plainContactEnv c "remotePrekeyObservedRootFingerprint", pinnedRoot plainContactEnv c)) =
      .ok ("r1", "r1") := by
    decide +kernel
  rw [hc] at hobserved
  obtain ⟨hseen, hroot⟩ := Prod.mk.inj (Except.ok.inj hobserved)
  exact .inr (.inr (hseen.trans hroot.symm))

/-- An acknowledgement adopts the root that was seen before the fingerprint that is acknowledged. -/
theorem not_root_by_recovery_only : ¬ ∀ (env : ContactEnv),
    (∀ t, lowered env (lowered env t) = lowered env t) → ∀ actions : List (Int × ContactAction),
      Along (contactStep env) (RootKept env) (fun _ => none) actions := by
  intro h
  have hrun := h plainContactEnv plainContactEnv_lowered
    (bobRotated ++ [(400, .acknowledgeChanged "bob")])
  obtain ⟨hbefore, hafter⟩ := bobRotated_roots
  have hkept : rootOf plainContactEnv _ "bob" = rootOf plainContactEnv _ "bob" :=
    along_iff_split.mp hrun bobRotated _ [] rfl "bob" (by rw [hbefore]; decide) id
  have hne : "r2" ≠ "r1" := by decide
  exact hne (hafter.symm.trans (hkept.trans hbefore))

end Vincent.Contacts
