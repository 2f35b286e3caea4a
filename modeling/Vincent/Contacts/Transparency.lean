-- SUMMARY: The publication log of a peer, and rollbacks that go unnoticed.
import Vincent.Contacts.Roots

/-!
# Publication logs

A contact keeps the sequence, the head and the size of the log in which a peer
publishes its keys. An observation with a head is compared with them. One without is
not, and still replaces the sequence.
-/

namespace Vincent.Contacts

open Vincent.Python Vincent.Check Vincent.Run

section Model

variable (env : ContactEnv) (peer : String)

/-- A call of `observe_remote_prekey_identity` for the peer, at a time. -/
def observeStep (s : ContactTable) (a : Int × Observation) : ContactTable :=
  contactStep env s (a.1, .observe peer a.2)

/-- A call that goes through, from the contact that it reads to the one that it stores. -/
structure Observes (s : ContactTable) (a : Int × Observation) (c c' : Dict) : Prop where
  named : strip peer ≠ ""
  reads : currentContact env a.1 s peer = .ok c
  stores : observeRemotePrekeyIdentity env a.1 a.2 c = .ok c'

/-- A call with a head that goes through without a conflict. -/
def Accepted (s : ContactTable) (a : Int × Observation) : Prop :=
  lowered env a.2.transparencyHead ≠ "" ∧
    ∃ c c', Observes env peer s a c c' ∧ transparencyConflict env c a.2 = false

/-- The later observation goes back behind the first one, or forks it. -/
def Behind (first later : Observation) : Prop :=
  let head := lowered env later.transparencyHead
  later.sequence < first.sequence ∨
    ((head ≠ "" ∨ 0 < later.transparencySize) ∧ later.transparencySize < first.transparencySize) ∨
    (later.sequence = first.sequence ∧ head ≠ "" ∧ head ≠ lowered env first.transparencyHead)

/-- A call that goes behind an accepted observation is flagged. -/
def RollbackFlagged (first : Observation) (s : ContactTable) (a : Int × Observation) : Prop :=
  ∀ c c', Observes env peer s a c c' → Behind env first a.2 →
    flagAt c' "remotePrekeyTransparencyConflict" = true ∧
      trustLevel env c' ∈ ["mismatch", "continuity_broken"]

/-- A call lowers neither the sequence nor the size that are stored. -/
def NeverDecreases (s : ContactTable) (a : Int × Observation) : Prop :=
  ∀ c c', Observes env peer s a c c' →
    intAt c "remotePrekeySequence" ≤ intAt c' "remotePrekeySequence" ∧
      intAt c "remotePrekeyTransparencySize" ≤ intAt c' "remotePrekeyTransparencySize"

/-- No call of a run rolls the history of the peer back unnoticed. -/
structure HistoryKept (s : ContactTable) (calls : List (Int × Observation)) : Prop where
  grows : Along (observeStep env peer) (NeverDecreases env peer) s calls
  flagged : ∀ pre first mid later post, calls = pre ++ first :: (mid ++ later :: post) →
    Accepted env peer (run (observeStep env peer) s pre) first →
    RollbackFlagged env peer first.2 (run (observeStep env peer) s (pre ++ first :: mid)) later

/-- An observation is in conflict with the stored log, or is not below it. One with neither head
    nor size leaves the size. -/
def NotBehind (s : ContactTable) (a : Int × Observation) : Prop :=
  ∀ c, currentContact env a.1 s peer = .ok c → transparencyConflict env c a.2 = true ∨
    (intAt c "remotePrekeySequence" ≤ a.2.sequence ∧
      (intAt c "remotePrekeyTransparencySize" ≤ a.2.transparencySize ∨
        (lowered env a.2.transparencyHead = "" ∧ a.2.transparencySize ≤ 0)))

end Model

section

variable {env : ContactEnv} {peer : String} {now : Int} {c c' value : Dict} {s : ContactTable}
  {o first : Observation} {S N : Int} {H : String}

/-! ## What a contact stores of the log -/

def logFields : List String :=
  ["remotePrekeySequence", "remotePrekeyTransparencySize", "remotePrekeyTransparencyHead"]

/-- The contact stores the sequence `S`, the size `N` and the head `H`. -/
structure Log (env : ContactEnv) (c : Dict) (S N : Int) (H : String) : Prop where
  sequence : Dict.get c "remotePrekeySequence" = .int S
  size : Dict.get c "remotePrekeyTransparencySize" = .int N
  head : loweredAt env c "remotePrekeyTransparencyHead" = H

theorem intAt_of_get {k : String} {n : Int} (h : Dict.get c k = .int n) : intAt c k = n := by
  rw [intAt, h]

theorem Log.update {kvs : Dict} (h : Log env c S N H)
    (hkeys : ∀ k ∈ logFields, k ∉ kvs.map Prod.fst) : Log env (update c kvs) S N H where
  sequence := (get_update_of_notMem (hkeys _ (by decide))).trans h.sequence
  size := (get_update_of_notMem (hkeys _ (by decide))).trans h.size
  head := (loweredAt_of_get (get_update_of_notMem (hkeys _ (by decide)))).trans h.head

theorem Log.updateIf {p : Prop} [Decidable p] {kvs : Dict} (h : Log env c S N H)
    (hkeys : ∀ k ∈ logFields, k ∉ kvs.map Prod.fst) : Log env (updateIf p c kvs) S N H := by
  unfold Contacts.updateIf
  split
  · exact h.update hkeys
  · exact h

theorem normalize_int {k : String} {n : Int} (h : normalizeContact env value = .ok c)
    (hk : contactFields.lookup k = some .int) (hid : k ≠ "dmIdentityId")
    (hv : Dict.get value k = .int n) : Dict.get c k = .int n := by
  have hget := normalize_get h hk hid
  rw [hv] at hget
  by_cases hn : n = 0
  · rw [hn] at hget ⊢
    exact (Except.ok.inj hget).symm
  · have hor : (PyVal.int n).or (.int 0) = .int n := by simp [PyVal.or, PyVal.truthy, hn]
    rw [coerce, hor] at hget
    exact (Except.ok.inj hget).symm

theorem normalize_log (h : normalizeContact env value = .ok c) : ∃ S N H, Log env c S N H := by
  have hint : ∀ k, contactFields.lookup k = some .int → k ≠ "dmIdentityId" →
      ∃ n, Dict.get c k = .int n := by
    intro k hk hid
    have hget := normalize_get h hk hid
    rw [coerce] at hget
    cases hn : pyInt env.rt ((Dict.get value k).or (.int 0)) with
    | error e =>
      rw [hn] at hget
      cases hget
    | ok n =>
      rw [hn] at hget
      exact ⟨n, (Except.ok.inj hget).symm⟩
  obtain ⟨S, hS⟩ := hint "remotePrekeySequence" rfl (by decide)
  obtain ⟨N, hN⟩ := hint "remotePrekeyTransparencySize" rfl (by decide)
  exact ⟨S, N, _, hS, hN, rfl⟩

variable (hlower : ∀ t, lowered env (lowered env t) = lowered env t)

include hlower in
theorem Log.normalize (hlog : Log env c S N H) (h : normalizeContact env c = .ok c') :
    Log env c' S N H where
  sequence := normalize_int h rfl (by decide) hlog.sequence
  size := normalize_int h rfl (by decide) hlog.size
  head := (normalize_lowered hlower h rfl (by decide)).trans hlog.head

include hlower in
theorem Log.saved (hlog : Log env c S N H) (h : saved env c = .ok c') : Log env c' S N H := by
  obtain ⟨once, honce, h⟩ := bind_eq_ok.mp h
  exact (hlog.normalize hlower honce).normalize hlower h

include hlower in
theorem Log.read (hlog : Log env c S N H) : Log env (orKeep c (readContact env now c)) S N H := by
  cases hread : readContact env now c with
  | error e => exact hlog
  | ok c' =>
    obtain ⟨normal, hnormal, h⟩ := bind_eq_ok.mp hread
    have hkept := hlog.normalize hlower hnormal
    unfold promoteInviteLookupMode at h
    split at h
    · obtain rfl := Except.ok.inj h
      exact hkept
    · exact (hkept.update (by simp [logFields])).normalize hlower h

/-! ## What an observation stores -/

/-- The observation is noted with its head and its size. -/
def noted (env : ContactEnv) (o : Observation) (conflict : Bool) : Prop :=
  lowered env o.transparencyHead ≠ "" ∧ conflict = false

instance (conflict : Bool) : Decidable (noted env o conflict) := by
  unfold noted
  infer_instance

include hlower in
theorem note_log {conflict : Bool} (hlog : Log env c S N H) :
    Log env (noteObservation env now o conflict c) (if conflict = true then S else o.sequence)
      (if noted env o conflict then o.transparencySize else N)
      (if noted env o conflict then lowered env o.transparencyHead else H) := by
  have hsequence : ∀ d, Log env d S N H → Log env (updateIf (conflict = false) d
      [("remotePrekeySequence", .int o.sequence), ("remotePrekeySignedAt", .int o.signedAt)])
      (if conflict = true then S else o.sequence) N H := by
    intro d hd
    unfold updateIf
    cases conflict with
    | true => exact hd
    | false =>
      refine ⟨by simp [update, get_set], (get_update_of_notMem (by simp)).trans hd.size, ?_⟩
      exact (loweredAt_of_get (get_update_of_notMem (by simp))).trans hd.head
  have hhead : ∀ d S', Log env d S' N H → Log env (updateIf (lowered env o.transparencyHead ≠ "" ∧
      conflict = false) d [("remotePrekeyTransparencyHead", .str (lowered env o.transparencyHead)),
        ("remotePrekeyTransparencySize", .int o.transparencySize),
        ("remotePrekeyTransparencySeenAt", .int now)]) S'
      (if noted env o conflict then o.transparencySize else N)
      (if noted env o conflict then lowered env o.transparencyHead else H) := by
    intro d S' hd
    by_cases hnoted : noted env o conflict
    · rw [if_pos hnoted, if_pos hnoted, updateIf, if_pos (show _ ∧ _ from hnoted)]
      refine ⟨(get_update_of_notMem (by simp)).trans hd.sequence, by simp [update, get_set], ?_⟩
      exact (loweredAt_str (t := lowered env o.transparencyHead) (by simp [update, get_set])).trans
        (hlower _)
    · rw [if_neg hnoted, if_neg hnoted, updateIf,
        if_neg (show ¬ (lowered env o.transparencyHead ≠ "" ∧ conflict = false) from hnoted)]
      exact hd
  unfold noteObservation
  dsimp only
  split
  · exact (hhead _ _ (hsequence _ ((hlog.update (by simp [logFields])).updateIf
      (by simp [logFields])))).update (by simp [logFields])
  · exact ((hhead _ _ (hsequence _ ((hlog.update (by simp [logFields])).updateIf
      (by simp [logFields])))).update (by simp [logFields])).update (by simp [logFields])

theorem pinFromInvite_log {prior : Dict} (hlog : Log env c S N H) :
    Log env (pinFromInvite env now prior c) S N H := by
  unfold pinFromInvite
  exact (hlog.updateIf (by simp [logFields])).updateIf (by simp [logFields])

theorem firstSeen_log (hlog : Log env c S N H) : Log env (firstSeen env now o c) S N H := by
  unfold firstSeen
  exact ((hlog.update (by simp [logFields])).updateIf (by simp [logFields, adoptedRoot])).update
    (by simp [logFields])

theorem sameSeen_log {prior : Dict} {conflict : Bool} (hlog : Log env c S N H) :
    Log env (sameSeen env o prior conflict c) S N H := by
  have hseen : Log env (updateIf (lowered env o.rootFingerprint ≠ "")
      (update c [("remotePrekeyMismatch", .bool conflict), ("remotePrekeyRootMismatch", .bool false)])
      (adoptedRoot env o)) S N H :=
    (hlog.update (by simp [logFields])).updateIf (by simp [logFields, adoptedRoot])
  unfold sameSeen
  dsimp only
  split
  · exact hseen.update (by simp [logFields])
  · split
    · exact hseen.update (by simp [logFields])
    · split
      · exact hseen.update (by simp [logFields])
      · exact hseen

theorem changedSeen_log {prior : Dict} (hlog : Log env c S N H) :
    Log env (changedSeen env now o prior c) S N H := by
  unfold changedSeen
  exact ((hlog.update (by simp [logFields])).updateIf (by simp [logFields, adoptedRoot])).update
    (by simp [logFields])

include hlower in
theorem observe_log (h : observeRemotePrekeyIdentity env now o c = .ok c') (hlog : Log env c S N H) :
    let conflict := transparencyConflict env c o
    Log env c' (if conflict = true then S else o.sequence)
      (if noted env o conflict then o.transparencySize else N)
      (if noted env o conflict then lowered env o.transparencyHead else H) := by
  unfold observeRemotePrekeyIdentity at h
  simp only [check_bind_eq_ok] at h
  obtain ⟨-, h⟩ := h
  have hnoted : Log env (noteObservation env now o (transparencyConflict env c o) c) _ _ _ :=
    note_log hlower hlog
  have hpinned : Log env (pinFromInvite env now c
      (noteObservation env now o (transparencyConflict env c o) c)) _ _ _ := pinFromInvite_log hnoted
  refine Log.saved hlower ?_ h
  refine Log.update ?_ (by simp [logFields])
  split
  · exact firstSeen_log hpinned
  · split
    · exact sameSeen_log hpinned
    · exact changedSeen_log hpinned

theorem observe_flag (h : observeRemotePrekeyIdentity env now o c = .ok c')
    (hconflict : transparencyConflict env c o = true) :
    flagAt c' "remotePrekeyTransparencyConflict" = true := by
  unfold observeRemotePrekeyIdentity at h
  simp only [check_bind_eq_ok] at h
  obtain ⟨-, h⟩ := h
  rw [hconflict] at h
  have hnote : Dict.get (noteObservation env now o true c) "remotePrekeyTransparencyConflict" =
      .bool true := by
    unfold noteObservation
    dsimp only
    split
    · simp [update, get_set]
    · simp [update, get_set]
  have hpinned : Dict.get (pinFromInvite env now c (noteObservation env now o true c))
      "remotePrekeyTransparencyConflict" = .bool true := by
    unfold pinFromInvite
    dsimp only
    rw [get_updateIf_of_notMem (by simp), get_updateIf_of_notMem (by simp), hnote]
  have hjudged : ∀ d, Dict.get d "remotePrekeyTransparencyConflict" = .bool true →
      Dict.get (update (if pinnedFingerprint env c = "" then firstSeen env now o d
        else if sameIdentity env c o then sameSeen env o c true d
        else changedSeen env now o c d) [("updated_at", .int now)])
        "remotePrekeyTransparencyConflict" = .bool true := by
    intro d hd
    rw [get_update_of_notMem (by simp)]
    split
    · unfold firstSeen
      dsimp only
      rw [get_update_of_notMem (by simp), get_updateIf_of_notMem (by simp [adoptedRoot]),
        get_update_of_notMem (by simp), hd]
    · split
      · unfold sameSeen
        dsimp only
        rw [if_pos rfl, get_update_of_notMem (by simp),
          get_updateIf_of_notMem (by simp [adoptedRoot]), get_update_of_notMem (by simp), hd]
      · unfold changedSeen
        dsimp only
        rw [get_update_of_notMem (by simp), get_updateIf_of_notMem (by simp [adoptedRoot]),
          get_update_of_notMem (by simp), hd]
  have hbool : ∀ v d, normalizeContact env v = .ok d →
      Dict.get v "remotePrekeyTransparencyConflict" = .bool true →
      Dict.get d "remotePrekeyTransparencyConflict" = .bool true := by
    intro v d hv hget
    have hfield := normalize_get hv (show contactFields.lookup "remotePrekeyTransparencyConflict" =
      some .bool by rfl) (by decide)
    rw [hget] at hfield
    exact (Except.ok.inj hfield).symm
  obtain ⟨once, honce, h⟩ := bind_eq_ok.mp h
  rw [flagAt, hbool _ _ h (hbool _ _ honce (hjudged _ hpinned))]
  rfl

/-- A conflict of a pinned contact raises an alarm. -/
theorem judgedLevel_conflict {prior : Dict} (hpinned : pinnedFingerprint env prior ≠ "")
    (hconflict : transparencyConflict env prior o = true) :
    judgedLevel env prior o ∈ ["mismatch", "continuity_broken"] := by
  unfold judgedLevel
  rw [if_neg hpinned]
  split
  · unfold sameLevel
    dsimp only
    rw [hconflict, if_pos rfl]
    split <;> decide
  · split <;> decide

/-! ## Runs -/

/-- What is stored after an observation that was accepted. -/
def After (env : ContactEnv) (peer : String) (first : Observation) (s : ContactTable) : Prop :=
  ∃ d S N H, s (strip peer) = some d ∧ pin env d ≠ "" ∧ Log env d S N H ∧ first.sequence ≤ S ∧
    first.transparencySize ≤ N ∧
    (S = first.sequence → H = lowered env first.transparencyHead)

/-- The comparison with the log that is stored. -/
theorem conflict_iff (hlog : Log env c S N H) : transparencyConflict env c o = true ↔
    lowered env o.transparencyHead ≠ "" ∧ ((0 < S ∧ 0 < o.sequence ∧ o.sequence < S) ∨
      (0 < S ∧ 0 < o.sequence ∧ o.sequence = S ∧ H ≠ "" ∧ lowered env o.transparencyHead ≠ H) ∨
      (0 < N ∧ 0 < o.transparencySize ∧ o.transparencySize < N)) := by
  unfold transparencyConflict
  rw [intAt_of_get hlog.sequence, intAt_of_get hlog.size, hlog.head]
  exact decide_eq_true_iff

/-- What is stored by an observation without a conflict is what it shows. -/
theorem observe_stored (h : observeRemotePrekeyIdentity env now o c = .ok c')
    (hlower : ∀ t, lowered env (lowered env t) = lowered env t) (hlog : Log env c S N H)
    (hconflict : transparencyConflict env c o = false) :
    Log env c' o.sequence (if lowered env o.transparencyHead = "" then N else o.transparencySize)
      (if lowered env o.transparencyHead = "" then H else lowered env o.transparencyHead) := by
  have hstored := observe_log hlower h hlog
  dsimp only at hstored
  rw [hconflict, if_neg Bool.false_ne_true] at hstored
  by_cases hhead : lowered env o.transparencyHead = ""
  · have hnot : ¬ noted env o false := fun h => h.1 hhead
    rw [if_pos hhead, if_pos hhead]
    rwa [if_neg hnot, if_neg hnot] at hstored
  · have hnoted : noted env o false := ⟨hhead, rfl⟩
    rw [if_neg hhead, if_neg hhead]
    rwa [if_pos hnoted, if_pos hnoted] at hstored

/-- An observation in conflict leaves the log that is stored. -/
theorem observe_kept (h : observeRemotePrekeyIdentity env now o c = .ok c')
    (hlower : ∀ t, lowered env (lowered env t) = lowered env t) (hlog : Log env c S N H)
    (hconflict : transparencyConflict env c o = true) : Log env c' S N H := by
  have hstored := observe_log hlower h hlog
  dsimp only at hstored
  have hnot : ¬ noted env o true := fun h => Bool.noConfusion h.2
  rwa [hconflict, if_pos rfl, if_neg hnot, if_neg hnot] at hstored

include hlower in
theorem After.current (hs : AllSound env s) (hafter : After env peer first s)
    (h : currentContact env now s peer = .ok c) :
    pinnedFingerprint env c ≠ "" ∧ ∃ S N H, Log env c S N H ∧ first.sequence ≤ S ∧
      first.transparencySize ≤ N ∧ (S = first.sequence → H = lowered env first.transparencyHead) := by
  obtain ⟨d, S, N, H, hd, hpin, hlog, hbounds⟩ := hafter
  obtain ⟨hsound, -, hpinned⟩ := currentContact_spec hs h
  have hread : readContacts env now s (strip peer) = some (orKeep d (readContact env now d)) := by
    rw [readContacts, hd, Option.map_some]
  rw [fingerprintOf, hd, Option.getD_some] at hpinned
  unfold currentContact at h
  rw [hread, Option.getD_some] at h
  refine ⟨(hsound.pinnedFingerprint ?_).2, S, N, H, (hlog.read hlower).normalize hlower h, hbounds⟩
  rw [hpinned]
  exact hpin

theorem Observes.stored {a : Int × Observation} (h : Observes env peer s a c c') :
    observeStep env peer s a (strip peer) = some c' := by
  have hbind : currentContact env a.1 s peer >>= observeRemotePrekeyIdentity env a.1 a.2 = .ok c' :=
    bind_eq_ok.mpr ⟨c, h.reads, h.stores⟩
  dsimp only [observeStep, contactStep]
  unfold change
  rw [if_neg h.named, hbind]
  exact Function.update_self _ _ _

theorem observes_pin {a : Int × Observation} (hs : AllSound env s) (h : Observes env peer s a c c') :
    pin env c' ≠ "" := by
  have hspec := observe_spec h.stores (currentContact_spec hs h.reads).1.level
  rw [hspec.2.2]
  exact (judgedPin_ne hspec.1).1

include hlower in
theorem Accepted.after {a : Int × Observation} (hs : AllSound env s) (h : Accepted env peer s a) :
    After env peer a.2 (observeStep env peer s a) := by
  obtain ⟨hhead, c, c', hobserves, hconflict⟩ := h
  obtain ⟨S, N, H, hlog⟩ := normalize_log hobserves.reads
  have hstored := observe_stored hobserves.stores hlower hlog hconflict
  rw [if_neg hhead, if_neg hhead] at hstored
  exact ⟨c', _, _, _, hobserves.stored, observes_pin hs hobserves, hstored, le_rfl, le_rfl, fun _ => rfl⟩

include hlower in
theorem After.step {a : Int × Observation} (hs : AllSound env s) (hfirst : 0 < first.sequence)
    (hhead : lowered env first.transparencyHead ≠ "") (hcond : NotBehind env peer s a)
    (hafter : After env peer first s) : After env peer first (observeStep env peer s a) := by
  cases hop : currentContact env a.1 s peer >>= observeRemotePrekeyIdentity env a.1 a.2 with
  | error e =>
    obtain ⟨d, S, N, H, hd, hpin, hlog, hbounds⟩ := hafter
    dsimp only [observeStep, contactStep]
    unfold change
    split
    · exact ⟨d, S, N, H, hd, hpin, hlog, hbounds⟩
    · rw [hop]
      have hread : readContacts env a.1 s (strip peer) = some (orKeep d (readContact env a.1 d)) := by
        rw [readContacts, hd, Option.map_some]
      have hquiet : Quiet env d (orKeep d (readContact env a.1 d)) := quiet_readContact (hs _ d hd)
      exact ⟨_, S, N, H, hread, hquiet.2.symm ▸ hpin, hlog.read hlower, hbounds⟩
  | ok c' =>
    by_cases hnamed : strip peer = ""
    · have hsame : observeStep env peer s a = s := by
        dsimp only [observeStep, contactStep]
        unfold change
        rw [if_pos hnamed]
      rwa [hsame]
    · obtain ⟨c, hreads, hstores⟩ := bind_eq_ok.mp hop
      have hobserves : Observes env peer s a c c' := ⟨hnamed, hreads, hstores⟩
      obtain ⟨-, S, N, H, hlog, hsequence, hsize, hsame⟩ := hafter.current hlower hs hreads
      have hpin := observes_pin hs hobserves
      cases hconflict : transparencyConflict env c a.2 with
      | true =>
        exact ⟨c', S, N, H, hobserves.stored, hpin, observe_kept hstores hlower hlog hconflict,
          hsequence, hsize, hsame⟩
      | false =>
        have hnone : ¬ _ := fun h => ne_true_of_eq_false hconflict ((conflict_iff hlog).mpr h)
        obtain ⟨hgrows, hlarger⟩ := (hcond c hreads).resolve_left (ne_true_of_eq_false hconflict)
        rw [intAt_of_get hlog.sequence] at hgrows
        rw [intAt_of_get hlog.size] at hlarger
        refine ⟨c', _, _, _, hobserves.stored, hpin, observe_stored hstores hlower hlog hconflict,
          hsequence.trans hgrows, ?_, fun heq => ?_⟩
        · split
          · exact hsize
          · rename_i hshown
            exact hsize.trans (hlarger.resolve_right fun h => hshown h.1)
        · have hS : S = first.sequence := le_antisymm (heq ▸ hgrows) hsequence
          rw [← hsame hS]
          split
          · rfl
          · rename_i hshown
            by_contra hother
            refine hnone ⟨hshown, .inr (.inl ⟨hS ▸ hfirst, heq ▸ hfirst, heq.trans hS.symm, ?_, hother⟩)⟩
            rw [hsame hS]
            exact hhead

include hlower in
/-- Behind what is stored above an accepted observation, everything is flagged. -/
theorem After.flagged {a : Int × Observation} (hs : AllSound env s) (hfirst : 0 < first.sequence)
    (hhead : lowered env first.transparencyHead ≠ "") (hcond : NotBehind env peer s a)
    (hafter : After env peer first s) : RollbackFlagged env peer first s a := by
  intro c c' hobserves hbehind
  obtain ⟨hpinned, S, N, H, hlog, hsequence, hsize, hsame⟩ := hafter.current hlower hs hobserves.reads
  have hconflict : transparencyConflict env c a.2 = true := by
    by_contra hnone
    obtain ⟨hgrows, hlarger⟩ := (hcond c hobserves.reads).resolve_left hnone
    rw [intAt_of_get hlog.sequence] at hgrows
    rw [intAt_of_get hlog.size] at hlarger
    rcases hbehind with hback | ⟨hcarried, hback⟩ | ⟨heq, hshown, hother⟩
    · omega
    · rcases hlarger with hlarger | ⟨hnohead, hzero⟩
      · omega
      · exact hcarried.elim (fun h => h hnohead) fun h => by omega
    · have hS : S = first.sequence := le_antisymm (heq ▸ hgrows) hsequence
      refine hnone ((conflict_iff hlog).mpr
        ⟨hshown, .inr (.inl ⟨hS ▸ hfirst, heq ▸ hfirst, heq.trans hS.symm, ?_, ?_⟩)⟩)
      · rw [hsame hS]
        exact hhead
      · rw [hsame hS]
        exact hother
  have hspec := observe_spec hobserves.stores (currentContact_spec hs hobserves.reads).1.level
  exact ⟨observe_flag hobserves.stores hconflict, hspec.2.1 ▸ judgedLevel_conflict hpinned hconflict⟩

include hlower in
theorem neverDecreases_of_notBehind {a : Int × Observation} (hcond : NotBehind env peer s a) :
    NeverDecreases env peer s a := by
  intro c c' hobserves
  obtain ⟨S, N, H, hlog⟩ := normalize_log hobserves.reads
  rw [intAt_of_get hlog.sequence, intAt_of_get hlog.size]
  cases hconflict : transparencyConflict env c a.2 with
  | true =>
    have hkept := observe_kept hobserves.stores hlower hlog hconflict
    rw [intAt_of_get hkept.sequence, intAt_of_get hkept.size]
    exact ⟨le_rfl, le_rfl⟩
  | false =>
    obtain ⟨hgrows, hlarger⟩ :=
      (hcond c hobserves.reads).resolve_left (ne_true_of_eq_false hconflict)
    rw [intAt_of_get hlog.sequence] at hgrows
    rw [intAt_of_get hlog.size] at hlarger
    have hstored := observe_stored hobserves.stores hlower hlog hconflict
    rw [intAt_of_get hstored.sequence, intAt_of_get hstored.size]
    refine ⟨hgrows, ?_⟩
    split
    · exact le_rfl
    · rename_i hshown
      exact hlarger.resolve_right fun h => hshown h.1

theorem observe_sound (hs : AllSound env s) (a : Int × Observation) :
    AllSound env (observeStep env peer s a) := contactStep_sound hs _

theorem reachable_sound (env : ContactEnv) (earlier : List (Int × ContactAction)) :
    AllSound env (run (contactStep env) (fun _ => none) earlier) := by
  refine invariant (P := fun _ _ => True) (fun s a (hs : AllSound env s) _ => contactStep_sound hs a) ?_
    (along_iff_split.mpr fun _ _ _ _ => trivial)
  exact fun _ _ h => absurd h (by simp)

end

theorem AllSound.pinned {s : ContactTable} (hs : AllSound env s) (peer : String) :
    levelOf env s peer ∈ trustLevels ∧
      (levelOf env s peer = "unpinned" ∨ lowered env (fingerprintOf env s peer) ≠ "") := by
  cases hc : s peer with
  | none =>
    have hlevel : levelOf env s peer = "unpinned" := by
      have hget : Dict.get [("trust_level", .str "unpinned")] "trust_level" = .str "unpinned" := rfl
      rw [levelOf, hc, Option.getD_none, trustLevel, hget, textOf_str, strip_level (by decide)]
    exact ⟨by rw [hlevel]; decide, .inl hlevel⟩
  | some c =>
    obtain ⟨hlevel, hpinned, hknown⟩ := hs peer c hc
    have hpin : fingerprintOf env s peer = pin env c := by simp [fingerprintOf, pin, hc]
    have htrust : levelOf env s peer = trustLevel env c := by simp [levelOf, hc]
    rw [hpin, htrust]
    exact ⟨hlevel, hknown.imp_right hpinned.resolve_left⟩

/-- In every run a level is one of the levels, and a peer that is not unpinned has a pinned
fingerprint. -/
theorem contacts_pinned (env : ContactEnv) (actions : List (Int × ContactAction)) (peer : String) :
    levelOf env (run (contactStep env) (fun _ => none) actions) peer ∈ trustLevels ∧
      (levelOf env (run (contactStep env) (fun _ => none) actions) peer = "unpinned" ∨
        lowered env (fingerprintOf env (run (contactStep env) (fun _ => none) actions) peer) ≠ "") :=
  (reachable_sound env actions).pinned peer

/-- Where nothing goes behind the log without a conflict, no rollback goes unnoticed. -/
theorem history_kept (env : ContactEnv) (hlower : ∀ t, lowered env (lowered env t) = lowered env t)
    (peer : String) (earlier : List (Int × ContactAction)) (calls : List (Int × Observation))
    (hpublished : ∀ a ∈ calls, lowered env a.2.transparencyHead ≠ "" → 0 < a.2.sequence)
    (hcond : Along (observeStep env peer) (NotBehind env peer)
      (run (contactStep env) (fun _ => none) earlier) calls) :
    HistoryKept env peer (run (contactStep env) (fun _ => none) earlier) calls := by
  have hs := reachable_sound env earlier
  revert hs hcond
  generalize run (contactStep env) (fun _ => none) earlier = s
  intro hcond hs
  constructor
  · exact hcond.imp (fun s a (hs : AllSound env s) _ => observe_sound hs a)
      (fun s a _ h => neverDecreases_of_notBehind hlower h) hs
  · rintro pre first mid later post rfl haccepted
    have hfirst : 0 < first.2.sequence := hpublished first (by simp) haccepted.1
    obtain ⟨hpre, -, hrest⟩ := (along_append _ _ _).mp hcond
    obtain ⟨hmid, hlater, -⟩ := (along_append _ _ _).mp hrest
    have hbefore : AllSound env (run (observeStep env peer) s pre) :=
      invariant (fun s a (hs : AllSound env s) _ => observe_sound hs a) hs hpre
    have hstep : ∀ s a, AllSound env s ∧ After env peer first.2 s → NotBehind env peer s a →
        AllSound env (observeStep env peer s a) ∧ After env peer first.2 (observeStep env peer s a) :=
      fun s a h hcond => ⟨observe_sound h.1 a, h.2.step hlower h.1 hfirst haccepted.1 hcond⟩
    obtain ⟨hsound, hafter⟩ := invariant hstep
      ⟨observe_sound hbefore first, haccepted.after hlower hbefore⟩ hmid
    rw [run_append, run_cons]
    exact hafter.flagged hlower hsound hfirst haccepted.1 hlater

/-- An observation with a head, and one of the next sequence. -/
def bobPublished : List (Int × Observation) :=
  [(100, { fingerprint := "aa", sequence := 5, transparencyHead := "h5", transparencySize := 10 }),
    (200, { fingerprint := "aa", sequence := 6, transparencyHead := "h6", transparencySize := 11 })]

theorem history_kept_sample : HistoryKept plainContactEnv "bob" (fun _ => none) bobPublished := by
  have hstored : (currentContact plainContactEnv 100 (fun _ => none) "bob").map (fun c =>
      (intAt c "remotePrekeySequence", intAt c "remotePrekeyTransparencySize")) = .ok (0, 0) := by
    decide +kernel
  have hstored' : (currentContact plainContactEnv 200 (observeStep plainContactEnv "bob" (fun _ => none)
      (100, { fingerprint := "aa", sequence := 5, transparencyHead := "h5", transparencySize := 10 }))
      "bob").map (fun c =>
      (intAt c "remotePrekeySequence", intAt c "remotePrekeyTransparencySize")) = .ok (5, 10) := by
    decide +kernel
  apply history_kept plainContactEnv plainContactEnv_lowered "bob" [] bobPublished (by decide +kernel)
  refine ⟨fun c hc => .inr ?_, fun c hc => .inr ?_, trivial⟩
  · rw [run_nil] at hc
    rw [hc] at hstored
    obtain ⟨hsequence, hsize⟩ := Prod.mk.inj (Except.ok.inj hstored)
    rw [hsequence, hsize]
    decide
  · rw [run_nil] at hc
    rw [hc] at hstored'
    obtain ⟨hsequence, hsize⟩ := Prod.mk.inj (Except.ok.inj hstored')
    rw [hsequence, hsize]
    decide

/-- A lower sequence without a head replaces the one that was accepted. -/
theorem not_history_kept : ¬ ∀ (env : ContactEnv), (∀ t, lowered env (lowered env t) = lowered env t) →
    ∀ (peer : String) (earlier : List (Int × ContactAction)) (calls : List (Int × Observation)),
      (∀ a ∈ calls, lowered env a.2.transparencyHead ≠ "" → 0 < a.2.sequence) →
      HistoryKept env peer (run (contactStep env) (fun _ => none) earlier) calls := by
  intro h
  have hkept := (h plainContactEnv plainContactEnv_lowered "bob" []
    [(100, { fingerprint := "aa", sequence := 5, transparencyHead := "h5", transparencySize := 10 }),
      (200, { fingerprint := "aa", sequence := 3 })] (by decide +kernel)).grows.2.1
  have hlowered : (currentContact plainContactEnv 200 (observeStep plainContactEnv "bob" (fun _ => none)
      (100, { fingerprint := "aa", sequence := 5, transparencyHead := "h5", transparencySize := 10 }))
      "bob" >>= fun c => (observeRemotePrekeyIdentity plainContactEnv 200
        { fingerprint := "aa", sequence := 3 } c).map fun c' =>
          (intAt c "remotePrekeySequence", intAt c' "remotePrekeySequence")) = .ok (5, 3) := by
    decide +kernel
  obtain ⟨c, hreads, hpair⟩ := bind_eq_ok.mp hlowered
  cases hstores : observeRemotePrekeyIdentity plainContactEnv 200
    { fingerprint := "aa", sequence := 3 } c with
  | error e =>
    rw [hstores] at hpair
    cases hpair
  | ok c' =>
    rw [hstores] at hpair
    obtain ⟨hbefore, hafter⟩ := Prod.mk.inj (Except.ok.inj hpair)
    have hle := (hkept c c' ⟨by decide, hreads, hstores⟩).1
    rw [hbefore, hafter] at hle
    exact absurd hle (by decide)

end Vincent.Contacts
