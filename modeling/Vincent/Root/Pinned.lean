-- SUMMARY: A transparency record pins how many receipts were counted, not which.
import Vincent.Root.Ideal
import Vincent.Root.Record

/-!
# What a record pins

The fingerprint of a receipt set reads the fields of a receipt in the objects
that the verifier returned, which have none of them. It depends on how many
receipts were counted and on nothing else.
-/

namespace Vincent.Root

open Vincent.Python Vincent.Check Vincent.Mesh
open Vincent.Prekey (textOr toDict)

variable {env : RootEnv} {record manifest : Dict} {witnesses : List Dict} {set : WitnessSetView}
  {v : RecordView}

/-- The receipts that a set counts, as (node id, key, signature). -/
def receipts (env : RootEnv) (set : WitnessSetView) : List (String × String × String) :=
  set.validated.map fun counted =>
    (counted.2.nodeId, counted.2.publicKey, stripped env counted.1 "signature")

/-- The canonical form of an object that has none of the fields of a receipt. -/
def emptyReceipt : Dict :=
  [("type", .str ""), ("event_type", .str ""), ("node_id", .str ""), ("public_key", .str ""),
    ("public_key_algo", .str "Ed25519"), ("protocol_version", .str Mesh.protocolVersion),
    ("sequence", .int 0), ("payload", .dict []), ("signature", .str "")]

def emptyReceiptFingerprint (env : RootEnv) : String := stableHash env (.dict emptyReceipt)

/-- The fingerprint of the receipts that a set counts. -/
def setFingerprintOf (env : RootEnv) (set : WitnessSetView) : String :=
  stableHash env (.list (List.replicate set.validated.length (.str (emptyReceiptFingerprint env))))

/-- A record verifies for a manifest and the receipts that make the set. -/
def Verifies (env : RootEnv) (record manifest : Dict) (set : WitnessSetView) (v : RecordView) : Prop :=
  ∃ witnesses, verifyRootManifestWitnessSet env manifest witnesses = .ok set ∧
    verifyRootTransparencyRecord env record manifest witnesses = .ok v

theorem get_view (view : WitnessView) (k : String) (hk : k ∈ ["type", "event_type", "node_id",
    "public_key", "public_key_algo", "protocol_version", "sequence", "payload", "signature"])
    (dflt : PyVal) : Dict.get view.toDict k dflt = dflt := by
  simp only [List.mem_cons, List.not_mem_nil, or_false] at hk
  rcases hk with rfl | rfl | rfl | rfl | rfl | rfl | rfl | rfl | rfl <;> rfl

theorem receiptFingerprint_view (view : WitnessView) :
    witnessReceiptFingerprint env view.toDict = .ok (emptyReceiptFingerprint env) := by
  have hempty : strip "" = "" := by decide
  have hversion : strip Mesh.protocolVersion = Mesh.protocolVersion := by decide
  have halgo : strip "Ed25519" = "Ed25519" := by decide
  have hsequence : intOf env view.toDict "sequence" = .ok 0 := by
    rw [intOf, get_view view _ (by decide)]
    rfl
  have hpayload : dictAt view.toDict "payload" = .ok [] := by
    rw [dictAt, get_view view _ (by decide)]
    rfl
  have htext : ∀ k ∈ ["type", "event_type", "node_id", "public_key", "signature"],
      stripped env view.toDict k = "" := by
    intro k hk
    rw [stripped, Dict.text, get_view view k (by revert k; decide)]
    exact hempty
  have htextOr : ∀ k ∈ ["public_key_algo", "protocol_version"], ∀ dflt,
      textOr env.rt view.toDict k dflt = dflt := by
    intro k hk dflt
    rw [textOr, get_view view k (by revert k; decide)]
    simp [PyVal.or, PyVal.toStr]
  rw [witnessReceiptFingerprint, canonicalEnvelope, hsequence, hpayload, htext "type" (by decide),
    htext "event_type" (by decide), htext "node_id" (by decide), htext "public_key" (by decide),
    htext "signature" (by decide), htextOr "public_key_algo" (by decide),
    htextOr "protocol_version" (by decide), hversion, halgo]
  rfl

theorem mapM_views (views : List WitnessView) :
    (views.map WitnessView.toDict).mapM (witnessReceiptFingerprint env) =
      .ok (List.replicate views.length (emptyReceiptFingerprint env)) := by
  induction views with
  | nil => rfl
  | cons view views ih =>
    rw [List.map_cons, List.mapM_cons, receiptFingerprint_view, ih]
    rfl

/-- The fingerprint of a set depends on how many receipts it counts. -/
theorem setFingerprint_views (views : List WitnessView) :
    witnessReceiptSetFingerprint env (views.map WitnessView.toDict) = .ok (stableHash env
      (.list (List.replicate views.length (.str (emptyReceiptFingerprint env))))) := by
  have hsorted : (List.replicate views.length (emptyReceiptFingerprint env)).insertionSort
      (· ≤ ·) = List.replicate views.length (emptyReceiptFingerprint env) :=
    List.Pairwise.insertionSort_eq (List.pairwise_replicate.mpr (Or.inr le_rfl))
  rw [witnessReceiptSetFingerprint, mapM_views]
  dsimp only [bind, Except.bind, pure, Except.pure]
  rw [hsorted, List.map_replicate]

theorem setFingerprint_validated (set : WitnessSetView) : witnessReceiptSetFingerprint env
    (set.validated.map fun counted => counted.2.toDict) = .ok (setFingerprintOf env set) := by
  have hset := @setFingerprint_views env (set.validated.map Prod.snd)
  rw [List.map_map, List.length_map] at hset
  exact hset

theorem verifyRecord_eq_ok :
    verifyRootTransparencyRecord env record manifest witnesses = .ok v ↔
      ∃ r set, readRecord env record = .ok r ∧
        verifyRootManifestWitnessSet env manifest witnesses = .ok set ∧
        checkRecord env record manifest r set.manifest set.validated.length
          (setFingerprintOf env set) = .ok v := by
  simp only [verifyRootTransparencyRecord, bind_eq_ok, raising, orFail_eq_ok,
    setFingerprint_validated]
  constructor
  · rintro ⟨r, hr, view, hview, set, hset, _, ⟨⟩, hv⟩
    refine ⟨r, set, hr, hset, ?_⟩
    obtain ⟨view', _, hview', -, -, -, -, rfl⟩ := witnessSet_eq_ok.mp hset
    obtain rfl := Except.ok.inj (hview.symm.trans hview')
    exact hv
  · rintro ⟨r, set, hr, hset, hv⟩
    obtain ⟨view, _, hview, -, -, -, -, rfl⟩ := witnessSet_eq_ok.mp hset
    exact ⟨r, hr, view, hview, _, hset, _, rfl, hv⟩

/-- What a record and a manifest agree on. -/
structure Agrees (env : RootEnv) (r : ReadRecord) (view : ManifestView) (count : Nat)
    (v : RecordView) : Prop where
  fingerprint : v.manifestFingerprint = lowered env r.payload "manifest_fingerprint"
  manifest : v.manifestFingerprint = env.rt.lower (strip view.manifestFingerprint)
  count : intOf env r.payload "witness_count" = .ok count

theorem agrees_of_checkRecord {r : ReadRecord} {view : ManifestView} {count : Nat}
    {setFingerprint : String}
    (h : checkRecord env record manifest r view count setFingerprint = .ok v) :
    Agrees env r view count v := by
  simp only [checkRecord, bind_eq_ok, raising, orFail_eq_ok, demand, require_eq_ok, exists_const,
    pure_eq_ok] at h
  obtain ⟨-, -, -, -, hfingerprint, -, _, -, -, -, _, -, -, n, hcount, rfl, -, -, _, -, -, _, -, _, -,
    _, -, rfl⟩ := h
  exact ⟨hfingerprint.symm, rfl, hcount⟩

/-- The parts of what two sets have in common that one record verifies with. -/
theorem same_of_verifies {manifest' : Dict} {set' : WitnessSetView} {v' : RecordView}
    (h : Verifies env record manifest set v) (h' : Verifies env record manifest' set' v') :
    set.manifest.manifestFingerprint = set'.manifest.manifestFingerprint ∧
      set.validated.length = set'.validated.length := by
  obtain ⟨witnesses, hset, hv⟩ := h
  obtain ⟨witnesses', hset', hv'⟩ := h'
  obtain ⟨r, _, hr, hagain, hcheck⟩ := verifyRecord_eq_ok.mp hv
  obtain ⟨r', _, hr', hagain', hcheck'⟩ := verifyRecord_eq_ok.mp hv'
  obtain rfl := Except.ok.inj (hset.symm.trans hagain)
  obtain rfl := Except.ok.inj (hset'.symm.trans hagain')
  obtain rfl := Except.ok.inj (hr.symm.trans hr')
  have hagrees := agrees_of_checkRecord hcheck
  have hagrees' := agrees_of_checkRecord hcheck'
  constructor
  · have hsame : env.rt.lower (strip set.manifest.manifestFingerprint) =
        env.rt.lower (strip set'.manifest.manifestFingerprint) := by
      rw [← hagrees.manifest, hagrees.fingerprint, ← hagrees'.fingerprint, hagrees'.manifest]
    rwa [fingerprint_lower (manifest_of_witnessSet hset),
      fingerprint_lower (manifest_of_witnessSet hset')] at hsame
  · exact Int.ofNat.inj (Except.ok.inj (hagrees.count.symm.trans hagrees'.count))

/-- A record verifies with any receipts of the manifest, as many as it says. -/
theorem Verifies.with (h : Verifies env record manifest set v) {witness : Dict} {view : WitnessView}
    (hview : verifyRootManifestWitness env manifest witness = .ok view) :
    ∃ set' v', Verifies env record manifest set' v' ∧ (witness, view) ∈ set'.validated := by
  obtain ⟨witnesses, hset, hv⟩ := h
  obtain ⟨r, _, hr, hagain, hcheck⟩ := verifyRecord_eq_ok.mp hv
  obtain rfl := Except.ok.inj (hset.symm.trans hagain)
  obtain ⟨witnesses', set', hset', hmanifest, hlength, hmem⟩ := witnessSet_with hset hview
  refine ⟨set', v, ⟨witnesses', hset', verifyRecord_eq_ok.mpr ⟨r, set', hr, hset', ?_⟩⟩, hmem⟩
  rw [hmanifest, setFingerprintOf, hlength]
  exact hcheck

theorem mem_receipts {witness : Dict} {view : WitnessView} (h : (witness, view) ∈ set.validated) :
    (view.nodeId, view.publicKey, stripped env witness "signature") ∈ receipts env set :=
  List.mem_map.mpr ⟨_, h, rfl⟩

theorem receipts_nodup (h : Verifies env record manifest set v) : (receipts env set).Nodup := by
  obtain ⟨witnesses, hset, -⟩ := h
  have hkeys := (counted_of_witnessSet hset).nodup
  refine List.Nodup.of_map (fun receipt => (receipt.1, receipt.2.1)) ?_
  rw [receipts, List.map_map]
  exact hkeys

/-! ## Honest records -/

/-- What the first record of an honest root says. -/
def firstRecordPayload (root : Signer env) (q : Quorum env) (issuedAt : Int) (set : WitnessSetView)
    (now : Int) : Dict :=
  let policyFingerprint := stableHash env (.dict q.policy.toDict)
  [("transparency_scope", .str transparencyScope),
    ("manifest_fingerprint", .str (root.fingerprint q issuedAt)),
    ("root_fingerprint", .str (rootIdentityFingerprint env root.nodeId root.publicKey "Ed25519"
      Mesh.protocolVersion)),
    ("generation", .int 1), ("witness_policy_fingerprint", .str policyFingerprint),
    ("witness_threshold", .int q.threshold), ("witness_count", .int set.validated.length),
    ("witness_set_fingerprint", .str (setFingerprintOf env set)),
    ("binding_fingerprint", .str (transparencyBindingFingerprint env (root.fingerprint q issuedAt)
      policyFingerprint (setFingerprintOf env set))),
    ("record_index", .int 1), ("previous_record_fingerprint", .str ""), ("published_at", .int now)]

variable {root : Signer env} {q : Quorum env} {issuedAt sequence now : Int}

theorem lower_stableHash (x : PyVal) : env.rt.lower (strip (stableHash env x)) = stableHash env x :=
  env.sha256_lower _

theorem firstRecordPayload_eq (hmanifest : set.manifest = root.manifestView q issuedAt) :
    recordPayload env (root.manifestView q issuedAt) set [] now =
      .ok (firstRecordPayload root q issuedAt set now) := by
  have hprevious : dictAt [] "payload" = .ok [] := rfl
  have hindex : intOf env [] "record_index" = .ok 0 := rfl
  rw [recordPayload, setFingerprint_validated, fingerprintOrEmpty, if_pos rfl, hprevious, hmanifest]
  dsimp only [bind, Except.bind, pure, Except.pure]
  rw [hindex]
  simp only [Signer.manifestView, Signer.fingerprint, rootIdentityFingerprint, lower_stableHash]
  rfl

theorem strip_ed25519 : strip "Ed25519" = "Ed25519" := by decide

theorem strip_protocolVersion : strip Mesh.protocolVersion = Mesh.protocolVersion := by decide

section Reads

variable (root : Signer env) (q : Quorum env) (issuedAt : Int) (set : WitnessSetView) (now : Int)

/-- The record, as it is read. -/
def readFirstRecord (sequence : Int) : ReadRecord where
  nodeId := root.nodeId
  publicKey := root.publicKey
  publicKeyAlgo := "Ed25519"
  protocolVersion := Mesh.protocolVersion
  sequence := sequence
  signature := root.sign (signedText env transparencyType root.nodeId sequence
    (firstRecordPayload root q issuedAt set now))
  payload := firstRecordPayload root q issuedAt set now

theorem transparencyType_mem : transparencyType ∈ rootEventTypes := by
  simp [rootEventTypes, transparencyType]

theorem firstRecord_int {k : String} {n : Int}
    (h : Dict.get (firstRecordPayload root q issuedAt set now) k (.int 0) = .int n) :
    intOf env (firstRecordPayload root q issuedAt set now) k = .ok n :=
  intOf_of_int h (Or.inr rfl)

theorem firstRecord_hash {k : String} {x : PyVal}
    (h : Dict.get (firstRecordPayload root q issuedAt set now) k (.str "") =
      .str (stableHash env x)) :
    lowered env (firstRecordPayload root q issuedAt set now) k = stableHash env x := by
  rw [lowered, stripped, Dict.text_of_str h, lower_stableHash]

theorem firstRecord_published : intOf env (firstRecordPayload root q issuedAt set now) "published_at" =
    .ok now :=
  firstRecord_int _ _ _ _ _ rfl

theorem firstRecord_index :
    intOf env (firstRecordPayload root q issuedAt set now) "record_index" = .ok 1 :=
  firstRecord_int _ _ _ _ _ rfl

theorem readRecord_first {sequence : Int} (hsequence : 0 < sequence) (hnow : 0 < now) :
    readRecord env (root.signed transparencyType sequence
        (firstRecordPayload root q issuedAt set now)) =
      .ok (readFirstRecord root q issuedAt set now sequence) := by
  have hscope : textOr env.rt (firstRecordPayload root q issuedAt set now) "transparency_scope"
      transparencyScope = transparencyScope := textOr_absent rfl
  simp only [readRecord, Signer.signed_type, Signer.signed_eventType _ _ _ _ transparencyType_mem,
    Signer.signed_nodeId, Signer.signed_publicKey, Signer.signed_publicKeyAlgo,
    Signer.signed_protocolVersion, Signer.signed_sequence, Signer.signed_signature,
    Signer.signed_payload, strip_ed25519, strip_protocolVersion, demand, raising, bind_eq_ok,
    require_eq_ok, exists_const, orFail_eq_ok, pure_eq_ok]
  exact ⟨trivial, trivial, _, rfl, _, rfl,
    ⟨root.nodeId_ne, root.publicKey_ne, hsequence, root.sign_ne _⟩, hscope, _,
    firstRecord_published .., hnow, _, firstRecord_index .., one_pos, root.bound, rfl⟩

theorem fingerprint_first (sequence : Int) : ∃ fingerprint, transparencyRecordFingerprint env
    (root.signed transparencyType sequence (firstRecordPayload root q issuedAt set now)) =
      .ok fingerprint := by
  simp only [transparencyRecordFingerprint, canonicalEnvelope, Signer.signed_sequence,
    Signer.signed_payload, bind_eq_ok, pure_eq_ok]
  exact ⟨_, _, ⟨_, rfl, _, rfl, rfl⟩, rfl⟩

theorem checkRecord_first (sequence : Int) :
    ∃ v, checkRecord env
      (root.signed transparencyType sequence (firstRecordPayload root q issuedAt set now))
      (root.manifest q issuedAt) (readFirstRecord root q issuedAt set now sequence)
      (root.manifestView q issuedAt) set.validated.length (setFingerprintOf env set) = .ok v := by
  have hgeneration : intOf env (firstRecordPayload root q issuedAt set now) "generation" = .ok 1 :=
    firstRecord_int _ _ _ _ _ rfl
  have hthreshold : intOf env (firstRecordPayload root q issuedAt set now) "witness_threshold" =
      .ok q.threshold := firstRecord_int _ _ _ _ _ rfl
  have hcount : intOf env (firstRecordPayload root q issuedAt set now) "witness_count" =
      .ok set.validated.length := firstRecord_int _ _ _ _ _ rfl
  have hmanifest : lowered env (firstRecordPayload root q issuedAt set now) "manifest_fingerprint" =
      root.fingerprint q issuedAt := firstRecord_hash _ _ _ _ _ rfl
  have hroot : lowered env (firstRecordPayload root q issuedAt set now) "root_fingerprint" =
      rootIdentityFingerprint env root.nodeId root.publicKey "Ed25519" Mesh.protocolVersion :=
    firstRecord_hash _ _ _ _ _ rfl
  have hpolicy : lowered env (firstRecordPayload root q issuedAt set now)
      "witness_policy_fingerprint" = stableHash env (.dict q.policy.toDict) :=
    firstRecord_hash _ _ _ _ _ rfl
  have hset : lowered env (firstRecordPayload root q issuedAt set now) "witness_set_fingerprint" =
      setFingerprintOf env set := firstRecord_hash _ _ _ _ _ rfl
  have hbinding : lowered env (firstRecordPayload root q issuedAt set now) "binding_fingerprint" =
      transparencyBindingFingerprint env (root.fingerprint q issuedAt)
        (stableHash env (.dict q.policy.toDict)) (setFingerprintOf env set) :=
    firstRecord_hash _ _ _ _ _ rfl
  have hfingerprint : env.rt.lower (strip (root.fingerprint q issuedAt)) = root.fingerprint q issuedAt :=
    lower_stableHash _
  have hidentity : env.rt.lower (strip (rootIdentityFingerprint env root.nodeId root.publicKey "Ed25519"
      Mesh.protocolVersion)) = rootIdentityFingerprint env root.nodeId root.publicKey "Ed25519"
        Mesh.protocolVersion := lower_stableHash _
  have hprotocol : textOr env.rt (root.manifest q issuedAt) "protocol_version" Mesh.protocolVersion =
      Mesh.protocolVersion := textOr_absent rfl
  obtain ⟨fingerprint, hrecord⟩ := fingerprint_first root q issuedAt set now sequence
  simp only [checkRecord, readFirstRecord, Signer.manifestView, hfingerprint, hidentity,
    lower_stableHash, hprotocol, strip_protocolVersion, hmanifest, hroot, hpolicy, hset, hbinding,
    demand, raising, bind_eq_ok, require_eq_ok, exists_const, orFail_eq_ok, pure_eq_ok,
    buildSignaturePayload_root transparencyType_mem, root.nodeId_strip, root.publicKey_strip, true_and]
  exact ⟨_, _, hgeneration, (), require_eq_ok.mpr rfl, _, hthreshold, (), require_eq_ok.mpr rfl, _,
    hcount, rfl, _, rfl, (), require_eq_ok.mpr (root.verifies _), _, hrecord, _,
    firstRecord_index .., _, firstRecord_published .., rfl⟩

end Reads

/-- The first record that an honest root signs of its manifest verifies. -/
theorem record_verifies (hissued : 0 < issuedAt) (hsequence : 0 < sequence) (hnow : 0 < now)
    (hset : verifyRootManifestWitnessSet env (root.manifest q issuedAt) witnesses = .ok set) :
    ∃ v, verifyRootTransparencyRecord env
      (root.signed transparencyType sequence (firstRecordPayload root q issuedAt set now))
      (root.manifest q issuedAt) witnesses = .ok v := by
  have hmanifest : set.manifest = root.manifestView q issuedAt :=
    Except.ok.inj ((manifest_of_witnessSet hset).symm.trans (root.manifest_verifies q issuedAt hissued))
  obtain ⟨v, hv⟩ := checkRecord_first root q issuedAt set now sequence
  rw [← hmanifest] at hv
  exact ⟨v, verifyRecord_eq_ok.mpr
    ⟨_, set, readRecord_first root q issuedAt set now hsequence hnow, hset, hv⟩⟩

theorem signedText_ne (eventType nodeId : String) (payload : Dict) :
    signedText env eventType nodeId 1 payload ≠ signedText env eventType nodeId 2 payload := by
  intro h
  have hlist := congrArg String.toList h
  have hone : toString (1 : Int) = "1" := rfl
  have htwo : toString (2 : Int) = "2" := rfl
  rw [signedText, signedText, hone, htwo] at hlist
  simp at hlist

theorem receipts_single {w : Witness env} (hissued : 0 < issuedAt) (hsequence : 0 < sequence) :
    ∃ set, verifyRootManifestWitnessSet env (root.manifest (.single w) issuedAt)
        [w.receipt root (.single w) issuedAt sequence] = .ok set ∧ set.validated.length = 1 ∧
      receipts env set = [(w.nodeId, w.publicKey, w.sign (signedText env rootWitnessEventType w.nodeId
        sequence (root.receiptPayload (.single w) issuedAt)))] := by
  obtain ⟨set, hset, -, hfst, hkeys⟩ := @witnessSet_verifies _ root (.single w) _ hissued
    [(w, sequence)] (by simpa [Quorum.single] using hsequence) (by simp) le_rfl
  have hlength : set.validated.length = 1 := by simpa using congrArg List.length hfst
  obtain ⟨counted, hcounted⟩ := List.length_eq_one_iff.mp hlength
  rw [hcounted] at hfst hkeys
  simp only [List.map_cons, List.map_nil, List.cons.injEq, and_true] at hfst hkeys
  have hkey : counted.2.nodeId = w.nodeId ∧ counted.2.publicKey = w.publicKey := Prod.ext_iff.mp hkeys
  refine ⟨set, hset, hlength, ?_⟩
  rw [receipts, hcounted, List.map_singleton, hkey.1, hkey.2, hfst, Witness.receipt,
    Signer.signed_signature]

/-! ## The receipts of a record -/

/-- A record pins one manifest, and its receipts iff those that verify are the counted ones. -/
theorem record_pins_receipts (env : RootEnv) (record manifest : Dict) (set : WitnessSetView)
    (v : RecordView) (h : Verifies env record manifest set v) :
    (∀ manifest' set' v', Verifies env record manifest' set' v' →
        set'.manifest.manifestFingerprint = set.manifest.manifestFingerprint ∧
          ∀ receipt, receipt ∈ receipts env set' ↔ receipt ∈ receipts env set) ↔
      ∀ manifest' set' v', Verifies env record manifest' set' v' → ∀ witness view,
        verifyRootManifestWitness env manifest' witness = .ok view →
          (view.nodeId, view.publicKey, stripped env witness "signature") ∈ receipts env set := by
  constructor
  · intro hpins manifest' set' v' h' witness view hview
    obtain ⟨set'', v'', h'', hmem⟩ := h'.with hview
    exact ((hpins manifest' set'' v'' h'').2 _).mp (mem_receipts hmem)
  · intro honly manifest' set' v' h'
    obtain ⟨hfingerprint, hlength⟩ := same_of_verifies h h'
    refine ⟨hfingerprint.symm, fun receipt => ?_⟩
    have hsubset : receipts env set' ⊆ receipts env set := by
      intro receipt hmem
      obtain ⟨counted, hcounted, rfl⟩ := List.mem_map.mp hmem
      obtain ⟨witnesses', hset', hv'⟩ := h'
      exact honly manifest' set' v' ⟨witnesses', hset', hv'⟩ _ _
        ((counted_of_witnessSet hset').verifies counted hcounted)
    -- as many receipts as there are, all among them
    have hperm : (receipts env set').Perm (receipts env set) :=
      ((receipts_nodup h').subperm hsubset).perm_of_length_le
        (by rw [receipts, receipts, List.length_map, List.length_map, hlength])
    exact hperm.mem_iff


theorem record_pins_receipts_sample : ∃ record manifest set v,
    Verifies idealEnv record manifest set v ∧
      ((∀ manifest' set' v', Verifies idealEnv record manifest' set' v' →
          set'.manifest.manifestFingerprint = set.manifest.manifestFingerprint ∧
            ∀ receipt, receipt ∈ receipts idealEnv set' ↔ receipt ∈ receipts idealEnv set) ↔
        ∀ manifest' set' v', Verifies idealEnv record manifest' set' v' → ∀ witness view,
          verifyRootManifestWitness idealEnv manifest' witness = .ok view →
            (view.nodeId, view.publicKey, stripped idealEnv witness "signature") ∈
              receipts idealEnv set) := by
  obtain ⟨set, hset, -⟩ := @receipts_single _ sampleRoot 1 1 sampleWitness one_pos one_pos
  obtain ⟨v, hv⟩ := @record_verifies _ _ _ _ _ _ 1 1 one_pos one_pos one_pos hset
  exact ⟨_, _, set, v, ⟨_, hset, hv⟩, record_pins_receipts idealEnv _ _ set v ⟨_, hset, hv⟩⟩

/-- One witness's two receipts for a manifest fit the same record. -/
theorem not_record_pins_receipts : ¬ ∀ env, Ideal env →
    ∀ record manifest₁ manifest₂ witnesses₁ witnesses₂ set₁ set₂ v₁ v₂,
      verifyRootManifestWitnessSet env manifest₁ witnesses₁ = .ok set₁ →
      verifyRootTransparencyRecord env record manifest₁ witnesses₁ = .ok v₁ →
      verifyRootManifestWitnessSet env manifest₂ witnesses₂ = .ok set₂ →
      verifyRootTransparencyRecord env record manifest₂ witnesses₂ = .ok v₂ →
        set₁.manifest.manifestFingerprint = set₂.manifest.manifestFingerprint ∧
          ∀ receipt, receipt ∈ receipts env set₁ ↔ receipt ∈ receipts env set₂ := by
  intro hpins
  obtain ⟨set₁, hset₁, hlength₁, hreceipts₁⟩ := @receipts_single _ sampleRoot 1 1
    sampleWitness one_pos one_pos
  obtain ⟨set₂, hset₂, hlength₂, hreceipts₂⟩ := @receipts_single _ sampleRoot 1 2
    sampleWitness one_pos two_pos
  obtain ⟨v₁, hv₁⟩ := @record_verifies _ _ _ _ _ _ 1 1 one_pos one_pos one_pos hset₁
  obtain ⟨v₂, hv₂⟩ := @record_verifies _ _ _ _ _ _ 1 1 one_pos one_pos one_pos hset₂
  have hsame : firstRecordPayload sampleRoot (.single sampleWitness) 1 set₁ 1 =
      firstRecordPayload sampleRoot (.single sampleWitness) 1 set₂ 1 := by
    rw [firstRecordPayload, firstRecordPayload, setFingerprintOf, setFingerprintOf, hlength₁, hlength₂]
  rw [← hsame] at hv₂
  have hreceipt := (hpins idealEnv idealEnv_ideal _ _ _ _ _ _ _ _ _ hset₁ hv₁ hset₂ hv₂).2
  rw [hreceipts₁, hreceipts₂] at hreceipt
  have hsign := List.mem_singleton.mp ((hreceipt _).mp List.mem_cons_self)
  simp only [Prod.mk.injEq, true_and] at hsign
  exact signedText_ne _ _ _ (idealHash_injective hsign)

end Vincent.Root
