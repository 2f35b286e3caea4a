-- SUMMARY: Ideal hashing and signing, and environments that have both.
import Vincent.Python.AsciiJson
import Vincent.Root.Honest

/-!
# Ideal hashes and signatures

Hashing is injective, and a signature verifies for one text at most.
-/

namespace Vincent.Root

open Vincent.Python Vincent.Mesh

/-- Hashing is injective, and a signature is one of one text. Keys of 32 bytes are for Ed25519. -/
structure Ideal (env : RootEnv) : Prop where
  float_texts : FloatTexts env.rt
  lower_lower : ∀ s, env.rt.lower (strip (env.rt.lower (strip s))) = env.rt.lower (strip s)
  hash_injective : Function.Injective env.sha256
  key_length : ∀ raw algo signature text, env.verifyRaw raw algo signature text = true →
    raw.length = 32 → algo = "Ed25519"
  signature_unique : ∀ raw algo signature text text', env.verifyRaw raw algo signature text = true →
    env.verifyRaw raw algo signature text' = true → text = text'

/-! ## Hashes -/

/-- A text in unary: its characters as runs of one letter. -/
def unary (s : String) : List Char := s.toList.flatMap fun c => List.replicate c.toNat 'a' ++ ['b']

/-- A hash that says all of the text. -/
def idealHash (s : String) : String := String.ofList ('b' :: unary s)

theorem replicate_marked_injective {m n : Nat} {xs ys : List Char}
    (h : List.replicate m 'a' ++ 'b' :: xs = List.replicate n 'a' ++ 'b' :: ys) :
    m = n ∧ xs = ys := by
  induction m generalizing n with
  | zero =>
    cases n with
    | zero => exact ⟨rfl, (List.cons.inj h).2⟩
    | succ n => exact absurd (List.cons.inj h).1 (by decide)
  | succ m ih =>
    cases n with
    | zero => exact absurd (List.cons.inj h).1 (by decide)
    | succ n =>
      obtain ⟨rfl, hrest⟩ := ih (List.cons.inj h).2
      exact ⟨rfl, hrest⟩

theorem flatMap_unary_injective {xs ys : List Char}
    (h : (xs.flatMap fun c => List.replicate c.toNat 'a' ++ ['b']) =
      ys.flatMap fun c => List.replicate c.toNat 'a' ++ ['b']) : xs = ys := by
  induction xs generalizing ys with
  | nil =>
    cases ys with
    | nil => rfl
    | cons y ys => simp at h
  | cons x xs ih =>
    cases ys with
    | nil => simp at h
    | cons y ys =>
      simp only [List.flatMap_cons, List.append_assoc, List.singleton_append] at h
      obtain ⟨hchar, hrest⟩ := replicate_marked_injective h
      rw [ih hrest, Char.ext (UInt32.toNat.inj hchar)]

theorem idealHash_injective : Function.Injective idealHash := by
  intro s t h
  exact String.ext (flatMap_unary_injective (List.cons.inj (String.ofList_injective h)).2)

theorem idealHash_letters (s : String) : ∀ c ∈ (idealHash s).toList, c = 'a' ∨ c = 'b' := by
  intro c hc
  rw [idealHash, String.toList_ofList, List.mem_cons, unary, List.mem_flatMap] at hc
  rcases hc with rfl | ⟨d, -, hc⟩
  · exact Or.inr rfl
  · rcases List.mem_append.mp hc with hc | hc
    · exact Or.inl (List.eq_of_mem_replicate hc)
    · exact Or.inr (List.mem_singleton.mp hc)

theorem idealHash_ne (s : String) : idealHash s ≠ "" := by
  intro h
  have hlist := congrArg String.toList h
  simp [idealHash] at hlist

theorem strip_letters {s : String} (h : ∀ c ∈ s.toList, c = 'a' ∨ c = 'b') : strip s = s := by
  apply strip_of_no_space
  intro c hc
  rcases h c hc with rfl | rfl <;> rfl

theorem lower_letters {s : String} (h : ∀ c ∈ s.toList, c = 'a' ∨ c = 'b') :
    asciiRuntime.lower (strip s) = s := by
  rw [strip_letters h, asciiRuntime.lower_ascii s]
  · have hmap : s.toList.map Char.toLower = s.toList := by
      refine (List.map_congr_left fun c hc => ?_).trans (List.map_id _)
      rcases h c hc with rfl | rfl <;> rfl
    rw [hmap, String.ofList_toList]
  · intro c hc
    rcases h c hc with rfl | rfl <;> decide

/-! ## Environments -/

/-- The six bits that a character of the base64 alphabet stands for. -/
def base64Value (c : Char) : Option Nat :=
  if 'A' ≤ c ∧ c ≤ 'Z' then some (c.toNat - 65)
  else if 'a' ≤ c ∧ c ≤ 'z' then some (c.toNat - 71)
  else if '0' ≤ c ∧ c ≤ '9' then some (c.toNat + 4)
  else if c = '+' then some 62
  else if c = '/' then some 63
  else none

/-- Four sixes of bits are three bytes. The bits that are left over at the end are ignored. -/
def base64Bytes : List Nat → List UInt8
  | a :: b :: c :: d :: rest =>
    UInt8.ofNat (4 * a + b / 16) :: UInt8.ofNat (16 * (b % 16) + c / 4) ::
      UInt8.ofNat (64 * (c % 4) + d) :: base64Bytes rest
  | [a, b, c] => [UInt8.ofNat (4 * a + b / 16), UInt8.ofNat (16 * (b % 16) + c / 4)]
  | [a, b] => [UInt8.ofNat (4 * a + b / 16)]
  | _ => []

/-- `base64.b64decode`, of a text that is padded to a multiple of four. -/
def base64Decode (s : String) : Option (List UInt8) :=
  if s.length % 4 = 0 then some (base64Bytes (s.toList.filterMap base64Value)) else none

def hexDigit (n : Nat) : Char := if n < 10 then Char.ofNat (48 + n) else Char.ofNat (87 + n)

/-- `digest.hex()`. -/
def hexText (bytes : List UInt8) : String :=
  String.ofList (bytes.flatMap fun b => [hexDigit (b.toNat / 16), hexDigit (b.toNat % 16)])

/-- The signature of a text is its hash, and keys are their own digests. -/
def idealEnv : RootEnv where
  rt := asciiRuntime
  sha256 := idealHash
  sha256_lower s := lower_letters (idealHash_letters s)
  sha256_ne := idealHash_ne
  b64decode := base64Decode
  keyDigest := hexText
  legacyNodeIdCompatBlocked := true
  verifyRaw raw algo signature text :=
    algo = "Ed25519" ∧ raw.length = 32 ∧ signature = idealHash text

theorem idealEnv_ideal : Ideal idealEnv where
  float_texts := floatTexts_ascii
  lower_lower s := by
    change asciiRuntime.lower (strip (asciiRuntime.lower (strip s))) = asciiRuntime.lower (strip s)
    rw [strip_lower_ascii, lower_lower_ascii, strip_strip]
  key_length _ _ _ _ h _ := (of_decide_eq_true h).1
  hash_injective := idealHash_injective
  signature_unique _ _ _ _ _ h h' :=
    idealHash_injective ((of_decide_eq_true h).2.2.symm.trans (of_decide_eq_true h').2.2)

/-! ## Signers -/

/-- The node id of a key. -/
def nodeOf (publicKey : String) : String :=
  "!sb_" ++ slice (hexText ((base64Decode publicKey).getD [])) 32

/-- The owner of a key of 32 bytes. -/
def idealSigner (publicKey : String) (hne : publicKey ≠ "") (hstrip : strip publicKey = publicKey)
    (hnode : strip (nodeOf publicKey) = nodeOf publicKey)
    (hraw : (base64Decode publicKey).map List.length = some 32) : Signer idealEnv where
  nodeId := nodeOf publicKey
  publicKey := publicKey
  sign := idealHash
  nodeId_strip := hnode
  nodeId_ne := by
    intro h
    have hlist := congrArg String.toList h
    simp [nodeOf] at hlist
  publicKey_strip := hstrip
  publicKey_ne := hne
  sign_strip text := strip_letters (idealHash_letters text)
  sign_ne := idealHash_ne
  bound := by
    obtain ⟨raw, hdecode, -⟩ := Option.map_eq_some_iff.mp hraw
    have henv : idealEnv.b64decode publicKey = some raw := hdecode
    rw [verifyNodeBinding, henv]
    dsimp only
    rw [hnode, nodeOf, hdecode]
    simp [idealEnv]
  verifies text := by
    obtain ⟨raw, hdecode, hlength⟩ := Option.map_eq_some_iff.mp hraw
    have henv : idealEnv.b64decode publicKey = some raw := hdecode
    have halgo : parsePublicKeyAlgo idealEnv.rt "Ed25519" = "Ed25519" := by decide
    rw [verifySignature, henv]
    dsimp only
    rw [halgo]
    simp [idealEnv, hlength]

/-- A root, by its key. -/
def sampleRoot : Signer idealEnv :=
  idealSigner "AAAAAAAAAAAAAAAAAAAAAAAAAAAAAAAAAAAAAAAAAAA=" (by decide) (by decide +kernel)
    (by decide +kernel) (by decide +kernel)

/-- A witness, by its key. -/
def sampleWitness : Witness idealEnv where
  toSigner := idealSigner "EEEEEEEEEEEEEEEEEEEEEEEEEEEEEEEEEEEEEEEEEEE=" (by decide)
    (by decide +kernel) (by decide +kernel) (by decide +kernel)
  group := "alpha"
  group_lower := by decide +kernel
  group_ne := by decide

end Vincent.Root
