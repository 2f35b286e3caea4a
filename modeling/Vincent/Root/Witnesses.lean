-- SUMMARY: What a witness set that verifies is made of.
import Vincent.Root.Manifest

/-!
# Witness sets

The receipts that count for a manifest each verify, and no two are of one
witness. Whatever receipts are like that make a set of their own.
-/

namespace Vincent.Root

open Vincent.Python Vincent.Check Vincent.Mesh
open Vincent.Prekey (textOr)

variable {env : RootEnv} {manifest : Dict} {witnesses : List Dict} {set : WitnessSetView}

theorem manifest_eq_ok {view : ManifestView} (h : verifyRootManifest env manifest = .ok view) :
    manifestFingerprint env manifest = .ok view.manifestFingerprint ∧
      ∃ payload policy sequence text, dictAt manifest "payload" = .ok payload ∧
        dictAt payload "witness_policy" = .ok policy ∧
        verifyWitnessPolicy env policy = .ok view.policy ∧
        intOf env manifest "sequence" = .ok sequence ∧
        buildSignaturePayload env.rt rootManifestEventType (stripped env manifest "node_id") sequence
          payload = .ok text ∧
        verifySignature env (stripped env manifest "public_key")
          (textOr env.rt manifest "public_key_algo" "Ed25519") (stripped env manifest "signature")
          text = true := by
  simp only [verifyRootManifest, bind_eq_ok, raising, orFail_eq_ok, demand, require_eq_ok,
    exists_const, pure_eq_ok] at h
  obtain ⟨-, -, sequence, hsequence, payload, hpayload, -, -, -, -, -, _, -, -, _, -, -, _, -, -, -,
    text, htext, hsignature, policy, hraw, policyView, hpolicy, _, -, -, -,
    _, -, _, -, _, -, fingerprint, hfingerprint, rfl⟩ := h
  exact ⟨hfingerprint, payload, policy, sequence, text, hpayload, hraw, hpolicy, hsequence, htext,
    hsignature⟩

theorem fingerprint_lower {view : ManifestView} (h : verifyRootManifest env manifest = .ok view) :
    env.rt.lower (strip view.manifestFingerprint) = view.manifestFingerprint := by
  have hfingerprint := (manifest_eq_ok h).1
  simp only [manifestFingerprint, bind_eq_ok, pure_eq_ok] at hfingerprint
  obtain ⟨canonical, -, hhash⟩ := hfingerprint
  rw [← hhash]
  exact env.sha256_lower _

/-- Receipts of distinct witnesses that each verify for a manifest. -/
structure Counted (env : RootEnv) (manifest : Dict) (kept : List (Dict × WitnessView)) : Prop where
  verifies : ∀ counted ∈ kept, verifyRootManifestWitness env manifest counted.1 = .ok counted.2
  nodup : (kept.map fun counted => counted.2.key).Nodup

theorem Counted.nil : Counted env manifest [] := ⟨by simp, by simp⟩

theorem Counted.concat {kept : List (Dict × WitnessView)} (h : Counted env manifest kept)
    {witness : Dict} {view : WitnessView}
    (hview : verifyRootManifestWitness env manifest witness = .ok view)
    (hnew : view.key ∉ kept.map fun counted => counted.2.key) :
    Counted env manifest (kept ++ [(witness, view)]) where
  verifies counted hmem := by
    rcases List.mem_append.mp hmem with hold | hnew
    · exact h.verifies counted hold
    · cases List.mem_singleton.mp hnew
      exact hview
  nodup := by
    rw [List.map_append]
    exact h.nodup.append (List.nodup_singleton _) (by simpa using hnew)

theorem Counted.sublist {kept kept' : List (Dict × WitnessView)} (h : Counted env manifest kept)
    (hsub : kept'.Sublist kept) : Counted env manifest kept' where
  verifies counted hmem := h.verifies counted (hsub.subset hmem)
  nodup := h.nodup.sublist (hsub.map _)

/-- The receipts that count are counted ones, and each is one that was given. -/
theorem counted_of_validated {kept counted : List (Dict × WitnessView)}
    (h : validatedWitnesses env manifest witnesses kept = .ok counted)
    (hkept : Counted env manifest kept) :
    Counted env manifest counted ∧ ∀ p ∈ counted, p ∈ kept ∨ p.1 ∈ witnesses := by
  induction witnesses generalizing kept with
  | nil =>
    cases h
    exact ⟨hkept, fun p hp => Or.inl hp⟩
  | cons witness witnesses ih =>
    unfold validatedWitnesses at h
    split at h
    · obtain ⟨hcounted, hfrom⟩ := ih h hkept
      exact ⟨hcounted, fun p hp => (hfrom p hp).imp_right (List.mem_cons_of_mem _)⟩
    · cases h
    · rename_i view hview
      split at h
      · obtain ⟨hcounted, hfrom⟩ := ih h hkept
        exact ⟨hcounted, fun p hp => (hfrom p hp).imp_right (List.mem_cons_of_mem _)⟩
      · rename_i hnew
        obtain ⟨hcounted, hfrom⟩ := ih h (hkept.concat hview hnew)
        refine ⟨hcounted, fun p hp => ?_⟩
        rcases hfrom p hp with hold | hlater
        · rcases List.mem_append.mp hold with hold | hthis
          · exact Or.inl hold
          · cases List.mem_singleton.mp hthis
            exact Or.inr List.mem_cons_self
        · exact Or.inr (List.mem_cons_of_mem _ hlater)

/-- Counted receipts all count when they are given. -/
theorem validatedWitnesses_of_counted {kept more : List (Dict × WitnessView)}
    (h : Counted env manifest (kept ++ more)) :
    validatedWitnesses env manifest (more.map Prod.fst) kept = .ok (kept ++ more) := by
  induction more generalizing kept with
  | nil => rw [List.append_nil]; rfl
  | cons counted more ih =>
    have hview : verifyRootManifestWitness env manifest counted.1 = .ok counted.2 :=
      h.verifies counted (by simp)
    have hnew : counted.2.key ∉ kept.map fun counted => counted.2.key := by
      have hnodup := h.nodup
      rw [List.map_append, List.nodup_append'] at hnodup
      exact fun hmem => hnodup.2.2 hmem (by simp)
    rw [List.map_cons, validatedWitnesses, hview]
    dsimp only
    rw [if_neg hnew, ih (by simpa using h)]
    simp

theorem witnessSet_eq_ok : verifyRootManifestWitnessSet env manifest witnesses = .ok set ↔
    ∃ view validated, verifyRootManifest env manifest = .ok view ∧
      validatedWitnesses env manifest witnesses [] = .ok validated ∧ validated ≠ [] ∧
      0 < view.policy.threshold ∧ view.policy.threshold ≤ validated.length ∧
      set = WitnessSetView.mk view validated (independenceGroups env validated).length
        (view.policy.threshold ≤ (independenceGroups env validated).length)
        (rootWitnessFinalityMet view.policy.threshold
          (view.policy.threshold ≤ (independenceGroups env validated).length)) := by
  simp only [verifyRootManifestWitnessSet, bind_eq_ok, demand, require_eq_ok, exists_const,
    pure_eq_ok]
  constructor
  · rintro ⟨view, hview, validated, hvalidated, hne, ⟨hpos, hle⟩, rfl⟩
    exact ⟨view, validated, hview, hvalidated, hne, hpos, hle, rfl⟩
  · rintro ⟨view, validated, hview, hvalidated, hne, hpos, hle, rfl⟩
    exact ⟨view, hview, validated, hvalidated, hne, ⟨hpos, hle⟩, rfl⟩

theorem manifest_of_witnessSet (h : verifyRootManifestWitnessSet env manifest witnesses = .ok set) :
    verifyRootManifest env manifest = .ok set.manifest := by
  obtain ⟨view, validated, hview, -, -, -, -, rfl⟩ := witnessSet_eq_ok.mp h
  exact hview

theorem counted_of_witnessSet (h : verifyRootManifestWitnessSet env manifest witnesses = .ok set) :
    Counted env manifest set.validated := by
  obtain ⟨view, validated, -, hvalidated, -, -, -, rfl⟩ := witnessSet_eq_ok.mp h
  exact (counted_of_validated hvalidated .nil).1

/-- As many counted receipts as the threshold asks for make a set as well. -/
theorem witnessSet_of_counted (h : verifyRootManifestWitnessSet env manifest witnesses = .ok set)
    {counted : List (Dict × WitnessView)} (hcounted : Counted env manifest counted)
    (henough : set.manifest.policy.threshold ≤ counted.length) :
    ∃ set', verifyRootManifestWitnessSet env manifest (counted.map Prod.fst) = .ok set' ∧
      set'.manifest = set.manifest ∧ set'.validated = counted := by
  obtain ⟨view, validated, hview, -, hne, hpos, -, rfl⟩ := witnessSet_eq_ok.mp h
  refine ⟨_, witnessSet_eq_ok.mpr ⟨view, counted, hview,
    validatedWitnesses_of_counted hcounted, ?_, hpos, henough, rfl⟩, rfl, rfl⟩
  rintro rfl
  exact absurd (hpos.trans_le henough) (by simp)

/-- Counted receipts can be filled up with others to any number that some counted ones have. -/
theorem Counted.fill {kept many : List (Dict × WitnessView)} (hkept : Counted env manifest kept)
    (hmany : Counted env manifest many) {n : Nat} (hle : kept.length ≤ n) (hn : n ≤ many.length) :
    ∃ others, Counted env manifest (kept ++ others) ∧ (kept ++ others).length = n := by
  let keys := kept.map fun counted => counted.2.key
  let rest := many.filter fun counted => counted.2.key ∉ keys
  have hrest : many.length ≤ rest.length + kept.length := by
    have hsplit := List.length_eq_length_filter_add (l := many)
      (fun counted => decide (counted.2.key ∉ keys))
    have hsub : (many.filter fun counted => !decide (counted.2.key ∉ keys)).Sublist many :=
      List.filter_sublist
    have hkeys : ((many.filter fun counted => !decide (counted.2.key ∉ keys)).map
        fun counted => counted.2.key) ⊆ keys := by
      intro k hk
      obtain ⟨counted, hcounted, rfl⟩ := List.mem_map.mp hk
      simpa using (List.mem_filter.mp hcounted).2
    have hcount := ((hmany.sublist hsub).nodup.subperm hkeys).length_le
    rw [List.length_map, List.length_map] at hcount
    change many.length = rest.length + _ at hsplit
    omega
  have hothers : (rest.take (n - kept.length)).Sublist many :=
    (List.take_sublist _ _).trans List.filter_sublist
  refine ⟨rest.take (n - kept.length), ⟨fun counted hmem => ?_, ?_⟩, ?_⟩
  · rcases List.mem_append.mp hmem with hmem | hmem
    · exact hkept.verifies counted hmem
    · exact hmany.verifies counted (hothers.subset hmem)
  · rw [List.map_append]
    refine hkept.nodup.append (hmany.sublist hothers).nodup ?_
    intro k hk hother
    obtain ⟨counted, hcounted, rfl⟩ := List.mem_map.mp hother
    have hnew := (List.mem_filter.mp (List.mem_of_mem_take hcounted)).2
    exact of_decide_eq_true hnew hk
  · rw [List.length_append, List.length_take]
    omega

/-- A receipt that verifies takes the place of another one in a set. -/
theorem witnessSet_with (h : verifyRootManifestWitnessSet env manifest witnesses = .ok set)
    {witness : Dict} {view : WitnessView}
    (hview : verifyRootManifestWitness env manifest witness = .ok view) :
    ∃ witnesses' set', verifyRootManifestWitnessSet env manifest witnesses' = .ok set' ∧
      set'.manifest = set.manifest ∧ set'.validated.length = set.validated.length ∧
      (witness, view) ∈ set'.validated := by
  have henough : set.manifest.policy.threshold ≤ set.validated.length ∧ 0 < set.validated.length := by
    obtain ⟨_, _, -, -, hne, -, hle, rfl⟩ := witnessSet_eq_ok.mp h
    exact ⟨hle, List.length_pos_iff.mpr hne⟩
  have hkept : Counted env manifest [(witness, view)] := by
    simpa using Counted.nil.concat hview (by simp)
  obtain ⟨others, hcounted, hlength⟩ := hkept.fill (counted_of_witnessSet h) henough.2 le_rfl
  obtain ⟨set', hset', hmanifest, hvalidated⟩ :=
    witnessSet_of_counted h hcounted (by rw [hlength]; exact henough.1)
  refine ⟨_, set', hset', hmanifest, by rw [hvalidated, hlength], ?_⟩
  rw [hvalidated]
  exact List.mem_cons_self

end Vincent.Root
