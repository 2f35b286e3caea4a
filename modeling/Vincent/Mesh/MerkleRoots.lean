-- SUMMARY: What equal Merkle roots and Merkle proofs say.
import Vincent.General.MerkleBinding
import Vincent.Mesh.Serve

/-!
# Merkle roots of chains

The leaf digest and the digest of a pair come from one hash, and nothing in the
hashed text tells them apart but its length: an event id has 64 letters and a pair
of digests has 128. The hash is taken to have no collision among the texts that the
trees at hand hash.
-/

namespace Vincent.Mesh

open Vincent.Merkle (Side)

def merkleRoot (env : Env) (leaves : List String) : String :=
  (Merkle.root? (buildMerkleLevels env leaves)).getD ""

/-- The texts of the pairs. -/
def pairTexts (ps : List (String × String)) : List String := ps.map fun p => p.1 ++ p.2

/-- The texts that the tree over the leaves hashes. -/
def treeTexts (env : Env) (leaves : List String) : List String :=
  leaves ++ pairTexts (Merkle.pairsIn (hashPair env) (leaves.map (hashLeaf env)))

/-- The texts that the verification of a proof hashes. -/
def proofTexts (env : Env) (leafValue : String) (proof : List (String × Side)) : List String :=
  leafValue :: pairTexts (Merkle.openedPairs (hashPair env) (hashLeaf env leafValue) proof)

/-- Every digest has 64 letters. -/
def HexDigests (env : Env) : Prop := ∀ s, (env.sha256 s).length = 64

/-- Event ids that are all different. -/
structure EventIds (ids : List String) : Prop where
  ne_nil : ids ≠ []
  nodup : ids.Nodup
  length_eq : ∀ id ∈ ids, id.length = 64

theorem mem_treeTexts {env : Env} {leaves : List String} {leaf : String} (h : leaf ∈ leaves) :
    leaf ∈ treeTexts env leaves :=
  List.mem_append_left _ h

theorem pair_mem_treeTexts {env : Env} {leaves : List String} {p : String × String}
    (h : p ∈ Merkle.pairsIn (hashPair env) (leaves.map (hashLeaf env))) :
    p.1 ++ p.2 ∈ treeTexts env leaves :=
  List.mem_append_right _ (List.mem_map.mpr ⟨p, h, rfl⟩)

/-! ## Texts without collisions -/

section
variable {env : Env} {texts : Set String}

/-- Two pairs of digests whose texts are among the given ones. -/
def DigestPairs (texts : Set String) : Set (String × String) :=
  {p | p.1.length = 64 ∧ p.2.length = 64 ∧ p.1 ++ p.2 ∈ texts}

/-- The digests of the event ids among the given texts. -/
def LeafDigests (env : Env) (texts : Set String) : Set String :=
  {d | ∃ id ∈ texts, id.length = 64 ∧ env.sha256 id = d}

theorem append_parts {a b c d : String} (h : a ++ b = c ++ d) (hlength : a.length = c.length) :
    a = c ∧ b = d := by
  have hlist : a.toList ++ b.toList = c.toList ++ d.toList := by
    rw [← String.toList_append, ← String.toList_append, h]
  obtain ⟨hleft, hright⟩ := List.append_inj hlist hlength
  exact ⟨String.toList_inj.mp hleft, String.toList_inj.mp hright⟩

theorem digestPairs_injOn (hinj : texts.InjOn env.sha256) :
    (DigestPairs texts).InjOn (Merkle.joined (hashPair env)) := by
  rintro ⟨a, b⟩ ⟨ha, -, hab⟩ ⟨c, d⟩ ⟨hc, -, hcd⟩ h
  obtain ⟨hleft, hright⟩ := append_parts (hinj hab hcd h) (ha.trans hc.symm)
  rw [Prod.mk.injEq]
  exact ⟨hleft, hright⟩

theorem leaf_ne_pair (hinj : texts.InjOn env.sha256) :
    ∀ d ∈ LeafDigests env texts, ∀ p ∈ DigestPairs texts, d ≠ Merkle.joined (hashPair env) p := by
  rintro d ⟨id, hid, hlength, rfl⟩ ⟨a, b⟩ ⟨ha, hb, hab⟩ h
  have hsame : id = a ++ b := hinj hid hab h
  rw [hsame, String.length_append] at hlength
  simp only at ha hb
  omega

theorem nodup_digests (hinj : texts.InjOn env.sha256) {leaves : List String} (hnodup : leaves.Nodup)
    (hsub : ∀ leaf ∈ leaves, leaf ∈ texts) : (leaves.map (hashLeaf env)).Nodup :=
  hnodup.map_on fun a ha b hb h => hinj (hsub a ha) (hsub b hb) h

theorem tree_digestPairs (hdigests : HexDigests env) {leaves : List String}
    (hsub : ∀ text ∈ treeTexts env leaves, text ∈ texts) :
    ∀ p ∈ Merkle.pairsIn (hashPair env) (leaves.map (hashLeaf env)), p ∈ DigestPairs texts := by
  intro p hp
  have hlevel : ∀ d ∈ leaves.map (hashLeaf env), d.length = 64 := by
    intro d hd
    obtain ⟨leaf, -, rfl⟩ := List.mem_map.mp hd
    exact hdigests leaf
  obtain ⟨hleft, hright⟩ :=
    @Merkle.pairsIn_forall String (hashPair env) (fun d => d.length = 64) _ hlevel
      (fun a b => hdigests (a ++ b)) p hp
  exact ⟨hleft, hright, hsub _ (pair_mem_treeTexts hp)⟩

end

/-! ## Equal roots -/

theorem root?_build {env : Env} {leaves : List String} (h : leaves ≠ []) :
    Merkle.root? (buildMerkleLevels env leaves) = some (merkleRoot env leaves) := by
  have hdigests : leaves.map (hashLeaf env) ≠ [] := by
    simpa using h
  obtain ⟨root, hroot⟩ := @Merkle.root?_isSome String (hashPair env) _ hdigests
  unfold merkleRoot buildMerkleLevels
  rw [if_neg h, hroot]
  rfl

theorem build_of_ne_nil {env : Env} {leaves : List String} (h : leaves ≠ []) :
    buildMerkleLevels env leaves = Merkle.levels (hashPair env) (leaves.map (hashLeaf env)) := by
  rw [buildMerkleLevels, if_neg h]

/-- Chains with one root are equal, where the hash has no collision among the texts
    of the two trees. -/
theorem merkleRoot_binds (env : Env) (xs ys : List String) (hdigests : HexDigests env)
    (hinj : Set.InjOn env.sha256 {text | text ∈ treeTexts env xs ∨ text ∈ treeTexts env ys})
    (hxs : EventIds xs) (hys : EventIds ys) (hroot : merkleRoot env xs = merkleRoot env ys) :
    xs = ys := by
  have hleaves : ∀ {leaves : List String}, EventIds leaves →
      (∀ text ∈ treeTexts env leaves, text ∈ {text | text ∈ treeTexts env xs ∨ text ∈ treeTexts env ys}) →
      ∀ d ∈ leaves.map (hashLeaf env),
        d ∈ LeafDigests env {text | text ∈ treeTexts env xs ∨ text ∈ treeTexts env ys} := by
    intro leaves hids hsub d hd
    obtain ⟨leaf, hleaf, rfl⟩ := List.mem_map.mp hd
    exact ⟨leaf, hsub leaf (mem_treeTexts hleaf), hids.length_eq leaf hleaf, rfl⟩
  have hsame : xs.map (hashLeaf env) = ys.map (hashLeaf env) := by
    apply Merkle.eq_of_root_eq (digestPairs_injOn hinj) (leaf_ne_pair hinj)
    · exact tree_digestPairs hdigests fun text h => .inl h
    · exact tree_digestPairs hdigests fun text h => .inr h
    · exact hleaves hxs fun text h => .inl h
    · exact hleaves hys fun text h => .inr h
    · simpa using hxs.ne_nil
    · simpa using hys.ne_nil
    · exact nodup_digests hinj hxs.nodup fun leaf h => .inl (mem_treeTexts h)
    · exact nodup_digests hinj hys.nodup fun leaf h => .inr (mem_treeTexts h)
    · rw [← build_of_ne_nil hxs.ne_nil, ← build_of_ne_nil hys.ne_nil, root?_build hxs.ne_nil,
        root?_build hys.ne_nil, hroot]
  exact Merkle.map_injOn hinj (fun id h => .inl (mem_treeTexts h))
    (fun id h => .inr (mem_treeTexts h)) hsame

/-- The text of 64 times one letter. -/
def letters (c : Char) : String := String.ofList (List.replicate 64 c)

theorem letters_length (c : Char) : (letters c).length = 64 := by
  rw [letters, String.length_ofList, List.length_replicate]

theorem letters_inj {c d : Char} (h : letters c = letters d) : c = d := by
  have hlist : List.replicate 64 c = List.replicate 64 d := String.ofList_inj.mp h
  rw [List.replicate_inj] at hlist
  exact hlist.2.resolve_left (by decide)

/-- A node to run examples on, where every event id is its own digest and all other
    texts share one. -/
def letterEnv : Env :=
  { plainEnv with
    sha256 := fun s => if s.length = 64 then s else letters 'r'
    sha256_ne_empty := fun s hs => by
      have hlength : (if s.length = 64 then s else letters 'r').length = 64 := by
        split
        · assumption
        · exact letters_length 'r'
      rw [hs] at hlength
      cases hlength }

theorem letterEnv_id {s : String} (h : s.length = 64) : letterEnv.sha256 s = s := if_pos h

theorem letterEnv_pair {a b : String} (ha : a.length = 64) (hb : b.length = 64) :
    letterEnv.sha256 (a ++ b) = letters 'r' := by
  refine if_neg ?_
  rw [String.length_append, ha, hb]
  decide

theorem letterEnv_digests : HexDigests letterEnv := by
  intro s
  by_cases h : s.length = 64
  · rw [letterEnv_id h, h]
  · exact (congrArg String.length (if_neg h)).trans (letters_length 'r')

/-- Two event ids to run examples on. -/
def letterIds : List String := [letters 'a', letters 'b']

theorem letterIds_ids : EventIds letterIds where
  ne_nil := List.cons_ne_nil _ _
  nodup := by
    rw [letterIds, List.nodup_cons]
    refine ⟨fun h => ?_, List.nodup_singleton _⟩
    exact absurd (letters_inj (List.mem_singleton.mp h)) (by decide)
  length_eq id h := by
    simp only [letterIds, List.mem_cons, List.not_mem_nil, or_false] at h
    rcases h with rfl | rfl <;> exact letters_length _

theorem letterIds_texts :
    treeTexts letterEnv letterIds = [letters 'a', letters 'b', letters 'a' ++ letters 'b'] := by
  have hpairs : Merkle.pairsIn (hashPair letterEnv) [letters 'a', letters 'b'] =
      [(letters 'a', letters 'b')] := by
    rw [Merkle.pairsIn, if_pos (by decide), Merkle.pairsIn, if_neg (by decide)]
    rfl
  rw [treeTexts, letterIds, List.map_cons, List.map_cons, hashLeaf, hashLeaf,
    letterEnv_id (letters_length _), letterEnv_id (letters_length _)]
  simp only [List.map_nil]
  rw [hpairs]
  rfl

/-- The hash tells the texts of the tree apart. -/
theorem letterIds_injOn :
    Set.InjOn letterEnv.sha256 {text | text ∈ treeTexts letterEnv letterIds} := by
  have hdigest : ∀ text ∈ treeTexts letterEnv letterIds,
      (text.length = 64 ∧ letterEnv.sha256 text = text ∧ text ≠ letters 'r') ∨
        (text = letters 'a' ++ letters 'b' ∧ letterEnv.sha256 text = letters 'r') := by
    intro text h
    simp only [letterIds_texts, List.mem_cons, List.not_mem_nil, or_false] at h
    rcases h with rfl | rfl | rfl
    · exact .inl ⟨letters_length _, letterEnv_id (letters_length _),
        fun h => absurd (letters_inj h) (by decide)⟩
    · exact .inl ⟨letters_length _, letterEnv_id (letters_length _),
        fun h => absurd (letters_inj h) (by decide)⟩
    · exact .inr ⟨rfl, letterEnv_pair (letters_length _) (letters_length _)⟩
  intro s hs t ht h
  rcases hdigest s hs with ⟨-, hs, hne⟩ | ⟨hs, hsdigest⟩ <;>
    rcases hdigest t ht with ⟨-, ht, hne'⟩ | ⟨ht, htdigest⟩
  · rw [← hs, h, ht]
  · rw [hs, htdigest] at h
    exact absurd h hne
  · rw [ht, hsdigest] at h
    exact absurd h.symm hne'
  · rw [hs, ht]

theorem merkleRoot_binds_sample :
    HexDigests letterEnv ∧
      Set.InjOn letterEnv.sha256
        {text | text ∈ treeTexts letterEnv letterIds ∨ text ∈ treeTexts letterEnv letterIds} ∧
      EventIds letterIds ∧ letterIds = letterIds := by
  have hinj : Set.InjOn letterEnv.sha256
      {text | text ∈ treeTexts letterEnv letterIds ∨ text ∈ treeTexts letterEnv letterIds} := by
    simpa only [or_self] using letterIds_injOn
  exact ⟨letterEnv_digests, hinj, letterIds_ids,
    merkleRoot_binds letterEnv letterIds letterIds letterEnv_digests hinj letterIds_ids
      letterIds_ids rfl⟩

/-! ## Proofs -/

/-- The proof that is cut out of the tree for an index verifies. -/
theorem verify_of_index (env : Env) {leaves : List String} {i : Nat} (h : i < leaves.length) :
    ∃ proof, merkleProofFromLevels (buildMerkleLevels env leaves) i = some proof ∧
      verifyMerkleProof env leaves[i] i proof (merkleRoot env leaves) = true := by
  have hne : leaves ≠ [] := List.ne_nil_of_length_pos (Nat.zero_lt_of_lt h)
  have hleaf : (leaves.map (hashLeaf env))[i]? = some (hashLeaf env leaves[i]) := by
    rw [List.getElem?_map, List.getElem?_eq_getElem h]
    rfl
  obtain ⟨proof, hproof, hroot⟩ := Merkle.proof?_levels (hashPair env) _ i _ hleaf
  refine ⟨proof, ?_, ?_⟩
  · rw [build_of_ne_nil hne]
    obtain ⟨above, hlevels⟩ := @Merkle.levels_eq_cons String (hashPair env) (leaves.map (hashLeaf env))
    rw [hlevels] at hproof ⊢
    rw [merkleProofFromLevels, if_neg (by simpa using h)]
    exact hproof
  · rw [verifyMerkleProof, beq_iff_eq]
    rw [← build_of_ne_nil hne, root?_build hne] at hroot
    exact (Option.some.inj hroot).symm

/-- A proof that verifies opens the leaf that its sides lead to. -/
theorem opened_of_verify {env : Env} {leaves : List String} {v root : String} {j : Nat}
    {proof : List (String × Side)} (hdigests : HexDigests env) (hids : EventIds leaves)
    (hinj : Set.InjOn env.sha256
      {text | text ∈ treeTexts env leaves ∨ text ∈ proofTexts env v proof})
    (hlength : proof.length + 1 = (buildMerkleLevels env leaves).length)
    (hroot : root = merkleRoot env leaves) (h : verifyMerkleProof env v j proof root = true) :
    leaves[Merkle.lead leaves.length (proof.map (·.2))]? = some v := by
  rw [build_of_ne_nil hids.ne_nil, Merkle.levels_length] at hlength
  have hopened := @Merkle.opened_of_root String (hashPair env) (leaves.map (hashLeaf env))
    (hashLeaf env v) proof (Nat.succ.inj hlength) ?_ ?_
  · rw [List.length_map, List.getElem?_map] at hopened
    obtain ⟨leaf, hleaf, hdigest⟩ := Option.map_eq_some_iff.mp hopened
    have hsame : leaf = v := by
      refine hinj (.inl (mem_treeTexts (List.mem_of_getElem? hleaf))) (.inr ?_) hdigest
      exact List.mem_cons_self
    rw [hleaf, hsame]
  · intro p hp q hq hjoined
    obtain ⟨hleft, hright, hq⟩ := tree_digestPairs hdigests (fun text h => Or.inl h) q hq
    have htext : p.1 ++ p.2 = q.1 ++ q.2 :=
      hinj (.inr (List.mem_cons_of_mem v (List.mem_map.mpr ⟨p, hp, rfl⟩))) hq hjoined
    have hsum : p.1.length + p.2.length = q.1.length + q.2.length := by
      rw [← String.length_append, htext, String.length_append]
    have hpart := @Merkle.openedPairs_forall String (hashPair env) (fun d => d.length = 64) _
      (hdigests v) (fun a b => hdigests (a ++ b)) proof p hp
    have hlengths : p.1.length = q.1.length := by
      rcases hpart with h | h <;> omega
    obtain ⟨hfirst, hsecond⟩ := append_parts htext hlengths
    exact Prod.ext hfirst hsecond
  · rw [verifyMerkleProof, beq_iff_eq, hroot] at h
    rw [← build_of_ne_nil hids.ne_nil, root?_build hids.ne_nil, h]

/-- A proof that verifies is for the claimed index iff its sides lead there: the index is not
read. -/
theorem merkle_proofs_bind (env : Env) (leaves : List String) (hleaves : leaves ≠ []) :
    (∀ (i : Nat) (h : i < leaves.length), ∃ proof,
      merkleProofFromLevels (buildMerkleLevels env leaves) i = some proof ∧
        verifyMerkleProof env leaves[i] i proof (merkleRoot env leaves) = true) ∧
    (HexDigests env → Set.InjOn env.sha256 {text | text ∈ treeTexts env leaves} →
      EventIds leaves → ∀ (j : Nat) (sides : List Side),
      sides.length + 1 = (buildMerkleLevels env leaves).length →
      ((∀ (v : String) (proof : List (String × Side)), v.length = 64 → proof.map (·.2) = sides →
          Set.InjOn env.sha256
            {text | text ∈ treeTexts env leaves ∨ text ∈ proofTexts env v proof} →
          verifyMerkleProof env v j proof (merkleRoot env leaves) = true → leaves[j]? = some v) ↔
        Merkle.lead leaves.length sides = j)) := by
  refine ⟨fun i h => verify_of_index env h, fun hdigests hinj hids j sides hsides => ⟨?_, ?_⟩⟩
  · intro hbinds
    -- the tree has a proof with these sides, of the leaf that they lead to
    rw [build_of_ne_nil hleaves, Merkle.levels_length] at hsides
    have hdigestsNe : leaves.map (hashLeaf env) ≠ [] := by
      simpa using hleaves
    obtain ⟨digest, proof, hproof, hlead, hopened, hroot⟩ :=
      Merkle.exists_opening hdigestsNe sides (Nat.succ.inj hsides)
    rw [List.length_map, List.getElem?_map] at hlead
    obtain ⟨leaf, hleaf, rfl⟩ := Option.map_eq_some_iff.mp hlead
    have hmem := List.mem_of_getElem? hleaf
    have htexts : ∀ text ∈ proofTexts env leaf proof, text ∈ treeTexts env leaves := by
      intro text htext
      rcases List.mem_cons.mp htext with rfl | htext
      · exact mem_treeTexts hmem
      · obtain ⟨p, hp, rfl⟩ := List.mem_map.mp htext
        exact pair_mem_treeTexts (hopened hp)
    have hclaimed : leaves[j]? = some leaf := by
      refine hbinds leaf proof (hids.length_eq leaf hmem) hproof ?_ ?_
      · intro s hs t ht h
        exact hinj (hs.elim id (htexts s)) (ht.elim id (htexts t)) h
      · rw [verifyMerkleProof, beq_iff_eq]
        rw [← build_of_ne_nil hleaves, root?_build hleaves] at hroot
        exact (Option.some.inj hroot).symm
    have hbound := (List.getElem?_eq_some_iff.mp hleaf).1
    exact (List.getElem?_inj hbound hids.nodup).mp (hleaf.trans hclaimed.symm)
  · rintro rfl v proof hv rfl hinj h
    rw [List.length_map] at hsides
    exact opened_of_verify hdigests hids hinj hsides rfl h

theorem letterIds_levels : buildMerkleLevels letterEnv letterIds = [letterIds, [letters 'r']] := by
  have hdigests : letterIds.map (hashLeaf letterEnv) = letterIds := by
    simp only [letterIds, List.map_cons, List.map_nil, hashLeaf, letterEnv_id (letters_length _)]
  rw [build_of_ne_nil letterIds_ids.ne_nil, hdigests, Merkle.levels, if_pos (by decide),
    Merkle.levels, if_neg (by simp [letterIds, Merkle.parents]), letterIds, Merkle.parents,
    Merkle.parents, hashPair, letterEnv_pair (letters_length _) (letters_length _)]

theorem letterIds_root : merkleRoot letterEnv letterIds = letters 'r' := by
  rw [merkleRoot, letterIds_levels]
  rfl

theorem merkle_proofs_bind_sample :
    letterIds ≠ [] ∧ HexDigests letterEnv ∧ EventIds letterIds ∧
      (∃ proof, merkleProofFromLevels (buildMerkleLevels letterEnv letterIds) 1 = some proof ∧
        verifyMerkleProof letterEnv letterIds[1] 1 proof (merkleRoot letterEnv letterIds) = true) ∧
      ∀ (v : String) (proof : List (String × Side)), v.length = 64 → proof.map (·.2) = [.left] →
        Set.InjOn letterEnv.sha256
          {text | text ∈ treeTexts letterEnv letterIds ∨ text ∈ proofTexts letterEnv v proof} →
        verifyMerkleProof letterEnv v 1 proof (merkleRoot letterEnv letterIds) = true →
        letterIds[1]? = some v := by
  obtain ⟨hcomplete, hsound⟩ := merkle_proofs_bind letterEnv letterIds letterIds_ids.ne_nil
  have hlength : [Side.left].length + 1 = (buildMerkleLevels letterEnv letterIds).length := by
    rw [letterIds_levels]
    rfl
  exact ⟨letterIds_ids.ne_nil, letterEnv_digests, letterIds_ids, hcomplete 1 (by decide),
    (hsound letterEnv_digests letterIds_injOn letterIds_ids 1 [.left] hlength).mpr rfl⟩

/-- The proof of the first event is accepted as one of the second. -/
theorem not_merkle_proofs_bind :
    HexDigests letterEnv ∧ EventIds letterIds ∧
      Set.InjOn letterEnv.sha256
        {text | text ∈ treeTexts letterEnv letterIds ∨
          text ∈ proofTexts letterEnv (letters 'a') [(letters 'b', .right)]} ∧
      [(letters 'b', Side.right)].length + 1 = (buildMerkleLevels letterEnv letterIds).length ∧
      verifyMerkleProof letterEnv (letters 'a') 1 [(letters 'b', .right)]
        (merkleRoot letterEnv letterIds) = true ∧
      letterIds[1]? ≠ some (letters 'a') := by
  have htexts : ∀ text ∈ proofTexts letterEnv (letters 'a') [(letters 'b', .right)],
      text ∈ treeTexts letterEnv letterIds := by
    intro text h
    rw [proofTexts, Merkle.openedPairs, Merkle.openedPairs, hashLeaf,
      letterEnv_id (letters_length _)] at h
    simp only [Merkle.stepPair, pairTexts, List.map_cons, List.map_nil, List.mem_cons,
      List.not_mem_nil, or_false] at h
    rw [letterIds_texts]
    rcases h with rfl | rfl <;> simp
  refine ⟨letterEnv_digests, letterIds_ids, ?_, ?_, ?_, ?_⟩
  · intro s hs t ht h
    exact letterIds_injOn (hs.elim id (htexts s)) (ht.elim id (htexts t)) h
  · rw [letterIds_levels]
    rfl
  · rw [verifyMerkleProof, beq_iff_eq, letterIds_root, Merkle.fold, Merkle.fold, hashLeaf, hashPair,
      letterEnv_id (letters_length _), letterEnv_pair (letters_length _) (letters_length _)]
  · intro h
    exact absurd (letters_inj (Option.some.inj h)) (by decide)

end Vincent.Mesh
