-- SUMMARY: The padding of a ratchet plaintext, and which texts come back.
import Mathlib.Order.Bounds.Basic
import Vincent.Dm.Ratchet
import Vincent.General.Utf8

/-!
# Padding

A plaintext is padded to a bucket, behind its length in two bytes. The length is cut
to sixteen bits, and zero counts as no length at all. The decoder of the browser drops
a byte order mark.
-/

namespace Vincent.Dm.Padding

open Vincent.Utf8

/-- `os.urandom` and `crypto.getRandomValues`. -/
structure RandomFill where
  bytes : Nat → List UInt8
  length_bytes : ∀ n, (bytes n).length = n

/-- What `errors="replace"` and `TextDecoder` put in the place of malformed bytes. -/
def replacement : List Char := ['\uFFFD']

/-- `_build_padded_payload` and `buildPaddedPayload`. -/
def buildPaddedPayload (fill : RandomFill) (plaintext : String) : List UInt8 :=
  let data := encode plaintext
  padMagic ++ [.ofNat (data.length / 256 % 256), .ofNat (data.length % 256)] ++ data ++
    fill.bytes (padTarget data.length - (6 + data.length))

def unpadPayload (data : List UInt8) : String :=
  if data.length < 6 then decode replacement data
  else if decode [] (data.take 4) ≠ "SBP1" then decode replacement data
  else if paddedLength data = 0 ∨ data.length < 6 + paddedLength data then decode replacement data
  else decode replacement ((data.drop 6).take (paddedLength data))

/-- `new TextDecoder().decode(data)`. -/
def textDecode (data : List UInt8) : String :=
  decode replacement (if data.take 3 = [0xEF, 0xBB, 0xBF] then data.drop 3 else data)

/-- `unpadPayload` of the browser. -/
def browserUnpadPayload (data : List UInt8) : String :=
  if data.length < 6 then textDecode data
  else if textDecode (data.take 4) ≠ "SBP1" then textDecode data
  else if paddedLength data = 0 ∨ data.length < 6 + paddedLength data then textDecode data
  else textDecode ((data.drop 6).take (paddedLength data))

/-! ## The padded length -/

section

variable {fill : RandomFill} {plaintext : String}

/-- The target is the smallest multiple of `PAD_STEP` from `PAD_BUCKET` on that the text and the
    six bytes before it fit in. -/
theorem isLeast_padTarget (length : Nat) :
    IsLeast {size | 512 ∣ size ∧ 1024 ≤ size ∧ length + 6 ≤ size} (padTarget length) := by
  unfold padTarget
  split_ifs with hlong
  · refine ⟨⟨Nat.dvd_mul_left _ _, by omega, by omega⟩, ?_⟩
    rintro size ⟨⟨k, rfl⟩, -, hfits⟩
    have hk : (length + 6 + 512 - 1) / 512 ≤ k := by omega
    omega
  · exact ⟨⟨⟨2, rfl⟩, le_refl _, by omega⟩, fun size h => h.2.1⟩

theorem length_buildPaddedPayload :
    (buildPaddedPayload fill plaintext).length = padTarget (encode plaintext).length := by
  have hfits := (isLeast_padTarget (encode plaintext).length).1.2.2
  simp only [buildPaddedPayload, List.length_append, fill.length_bytes, padMagic,
    List.length_cons, List.length_nil]
  omega

/-! ## What is read back -/

theorem paddedLength_build :
    paddedLength (buildPaddedPayload fill plaintext) = (encode plaintext).length % 65536 := by
  simp only [buildPaddedPayload, paddedLength, padMagic, List.cons_append, List.nil_append,
    List.getElem?_cons_succ, List.getElem?_cons_zero, Option.getD_some, UInt8.toNat_ofNat']
  omega

/-- The text is read back up to the length that the two bytes say. -/
theorem take_drop_build : ((buildPaddedPayload fill plaintext).drop 6).take
    ((encode plaintext).length % 65536) =
      (encode plaintext).take ((encode plaintext).length % 65536) := by
  simp only [buildPaddedPayload, padMagic, List.cons_append, List.nil_append,
    List.drop_succ_cons, List.drop_zero]
  exact List.take_append_of_le_length (Nat.mod_le _ _)

theorem build_wellFormed (fill : RandomFill) (plaintext : String) :
    ¬ (buildPaddedPayload fill plaintext).length < 6 ∧
    (buildPaddedPayload fill plaintext).take 4 = padMagic ∧
    ¬ (buildPaddedPayload fill plaintext).length < 6 + (encode plaintext).length % 65536 := by
  have hfits := (isLeast_padTarget (encode plaintext).length).1.2.2
  have hmod := Nat.mod_le (encode plaintext).length 65536
  rw [length_buildPaddedPayload]
  exact ⟨by omega, rfl, by omega⟩

theorem unpad_build : unpadPayload (buildPaddedPayload fill plaintext) =
    if (encode plaintext).length % 65536 = 0 then
      decode replacement (buildPaddedPayload fill plaintext)
    else decode replacement ((encode plaintext).take ((encode plaintext).length % 65536)) := by
  obtain ⟨hlong, hmagic, hfits⟩ := build_wellFormed fill plaintext
  have hread : decode [] padMagic = "SBP1" := by decide +kernel
  unfold unpadPayload
  rw [if_neg hlong, hmagic, hread, paddedLength_build, take_drop_build, if_neg (by simp)]
  simp only [hfits, or_false]

theorem browserUnpad_build : browserUnpadPayload (buildPaddedPayload fill plaintext) =
    if (encode plaintext).length % 65536 = 0 then
      textDecode (buildPaddedPayload fill plaintext)
    else textDecode ((encode plaintext).take ((encode plaintext).length % 65536)) := by
  obtain ⟨hlong, hmagic, hfits⟩ := build_wellFormed fill plaintext
  have hread : textDecode padMagic = "SBP1" := by decide +kernel
  unfold browserUnpadPayload
  rw [if_neg hlong, hmagic, hread, paddedLength_build, take_drop_build, if_neg (by simp)]
  simp only [hfits, or_false]

/-- Without a length the whole payload is read, which starts with the magic. -/
theorem decode_build (fill : RandomFill) (hlow : (encode plaintext).length % 65536 = 0) :
    ∃ pad : List Char, (decode replacement (buildPaddedPayload fill plaintext)).toList =
      "SBP1\x00\x00".toList ++ plaintext.toList ++ pad := by
  have hbytes : buildPaddedPayload fill plaintext =
      encodeChars ("SBP1\x00\x00".toList ++ plaintext.toList) ++
        fill.bytes (padTarget (encode plaintext).length - (6 + (encode plaintext).length)) := by
    have hhead : encodeChars "SBP1\x00\x00".toList = padMagic ++ [0, 0] := by decide +kernel
    have hhigh : (encode plaintext).length / 256 % 256 = 0 := by omega
    have hzero : (encode plaintext).length % 256 = 0 := by omega
    have happend : encodeChars ("SBP1\x00\x00".toList ++ plaintext.toList) =
        encodeChars "SBP1\x00\x00".toList ++ encode plaintext := List.flatMap_append
    rw [happend, hhead]
    simp only [buildPaddedPayload, hhigh, hzero]
    rfl
  refine ⟨decodeFrom replacement none
    (fill.bytes (padTarget (encode plaintext).length - (6 + (encode plaintext).length))), ?_⟩
  rw [hbytes, decode, String.toList_ofList, decodeFrom_encodeChars]

theorem decode_build_ne (hlow : (encode plaintext).length % 65536 = 0) :
    decode replacement (buildPaddedPayload fill plaintext) ≠ plaintext := by
  obtain ⟨pad, hpad⟩ := decode_build fill hlow
  intro heq
  have hlength := congrArg List.length (heq ▸ hpad)
  simp at hlength
  omega

theorem decode_take_ne (hlong : 65536 ≤ (encode plaintext).length) :
    (decode replacement ((encode plaintext).take ((encode plaintext).length % 65536))).toList.length <
      plaintext.toList.length := by
  unfold decode
  rw [String.toList_ofList]
  have hcut : (encode plaintext).length % 65536 + 16 < (encodeChars plaintext.toList).length := by
    change (encode plaintext).length % 65536 + 16 < (encode plaintext).length
    omega
  exact length_decodeFrom_take (le_refl 1) plaintext.toList _ hcut

theorem take_mod (hshort : (encode plaintext).length < 65536) :
    (encode plaintext).take ((encode plaintext).length % 65536) = encode plaintext := by
  rw [Nat.mod_eq_of_lt hshort, List.take_length]

/-! ## Byte order marks -/

/-- A browser text is the decoded text, or that without its byte order mark. -/
theorem textDecode_cases (data : List UInt8) : textDecode data = decode replacement data ∨
    (decode replacement data).toList = '\uFEFF' :: (textDecode data).toList := by
  unfold textDecode
  split_ifs with hmark
  · right
    have hdata : data = encodeChars ['\uFEFF'] ++ data.drop 3 := by
      have hbytes : encodeChars ['\uFEFF'] = [0xEF, 0xBB, 0xBF] := by decide +kernel
      rw [hbytes, ← hmark, List.take_append_drop]
    rw [decode, decode, String.toList_ofList, String.toList_ofList]
    conv_lhs => rw [hdata, decodeFrom_encodeChars]
    rfl
  · exact .inl rfl

theorem length_textDecode_le (data : List UInt8) :
    (textDecode data).toList.length ≤ (decode replacement data).toList.length := by
  rcases textDecode_cases data with h | h
  · rw [h]
  · rw [h]
    exact Nat.le_succ _

/-- The browser reads a whole text back unless a byte order mark stands first. -/
theorem textDecode_encode : textDecode (encode plaintext) = plaintext ↔
    plaintext.toList.head? ≠ some '\uFEFF' := by
  constructor
  · intro heq hhead
    obtain ⟨rest, hrest⟩ : ∃ rest, plaintext.toList = '\uFEFF' :: rest := by
      cases hlist : plaintext.toList with
      | nil =>
        rw [hlist] at hhead
        cases hhead
      | cons c rest =>
        rw [hlist] at hhead
        cases hhead
        exact ⟨rest, rfl⟩
    have hbytes : encode plaintext = [0xEF, 0xBB, 0xBF] ++ encodeChars rest := by
      have hmark : encodeChars ['\uFEFF'] = [0xEF, 0xBB, 0xBF] := by decide +kernel
      rw [← hmark]
      unfold encode
      rw [hrest]
      rfl
    have hdropped : textDecode (encode plaintext) = String.ofList rest := by
      have hall : decodeFrom replacement none (encodeChars rest ++ []) = rest ++ [] :=
        decodeFrom_encodeChars rest []
      rw [List.append_nil] at hall
      rw [hbytes]
      unfold textDecode decode
      have hmark : ([0xEF, 0xBB, 0xBF] ++ encodeChars rest).take 3 = [0xEF, 0xBB, 0xBF] := rfl
      rw [if_pos hmark]
      exact congrArg String.ofList (hall.trans (List.append_nil rest))
    have hlength := congrArg (fun s : String => s.toList.length) (hdropped.symm.trans heq)
    simp only [String.toList_ofList, hrest, List.length_cons] at hlength
    omega
  · intro hhead
    rcases textDecode_cases (encode plaintext) with h | h
    · rw [h, decode_encode]
    · rw [decode_encode] at h
      rw [h] at hhead
      exact absurd rfl hhead

/-! ## The padding -/

/-- The size is the smallest that fits, and the text comes back exactly if its length is from 1 to
65535, in the browser but for a byte order mark. -/
theorem padding_lossless (fill : RandomFill) (plaintext : String) :
    IsLeast {size | 512 ∣ size ∧ 1024 ≤ size ∧ (encode plaintext).length + 6 ≤ size}
        (buildPaddedPayload fill plaintext).length ∧
      (unpadPayload (buildPaddedPayload fill plaintext) = plaintext ↔
        1 ≤ (encode plaintext).length ∧ (encode plaintext).length ≤ 65535) ∧
      (browserUnpadPayload (buildPaddedPayload fill plaintext) = plaintext ↔
        (1 ≤ (encode plaintext).length ∧ (encode plaintext).length ≤ 65535) ∧
          plaintext.toList.head? ≠ some '\uFEFF') := by
  rw [length_buildPaddedPayload, unpad_build, browserUnpad_build]
  refine ⟨isLeast_padTarget _, ?_, ?_⟩
  · by_cases hlow : (encode plaintext).length % 65536 = 0
    · rw [if_pos hlow]
      exact ⟨fun heq => absurd heq (decode_build_ne hlow), fun ⟨hone, hfits⟩ => by omega⟩
    · rw [if_neg hlow]
      rcases Nat.lt_or_ge (encode plaintext).length 65536 with hshort | hlong
      · rw [take_mod hshort, decode_encode]
        exact ⟨fun _ => by omega, fun _ => rfl⟩
      · have hcut := decode_take_ne hlong
        refine ⟨fun heq => ?_, fun ⟨_, hfits⟩ => by omega⟩
        rw [heq] at hcut
        exact absurd hcut (lt_irrefl _)
  · by_cases hlow : (encode plaintext).length % 65536 = 0
    · rw [if_pos hlow]
      refine ⟨fun heq => ?_, fun ⟨⟨hone, hfits⟩, _⟩ => by omega⟩
      have hne : decode replacement (buildPaddedPayload fill plaintext) ≠ plaintext :=
        decode_build_ne hlow
      refine absurd ?_ hne
      rcases textDecode_cases (buildPaddedPayload fill plaintext) with h | h
      · exact h.symm.trans heq
      · obtain ⟨pad, hpad⟩ := decode_build fill hlow
        rw [hpad] at h
        cases h
    · rw [if_neg hlow]
      rcases Nat.lt_or_ge (encode plaintext).length 65536 with hshort | hlong
      · rw [take_mod hshort, textDecode_encode]
        exact ⟨fun hhead => ⟨by omega, hhead⟩, And.right⟩
      · have hcut := (length_textDecode_le _).trans_lt (decode_take_ne hlong)
        refine ⟨fun heq => ?_, fun ⟨⟨_, hfits⟩, _⟩ => by omega⟩
        rw [heq] at hcut
        exact absurd hcut (lt_irrefl _)

/-- Fill with zeros. -/
def zeroFill : RandomFill where
  bytes n := List.replicate n 0
  length_bytes _ := List.length_replicate

/-- The empty text does not come back. -/
theorem not_padding_lossless : ¬ ∀ (fill : RandomFill) (plaintext : String),
    unpadPayload (buildPaddedPayload fill plaintext) = plaintext := by
  intro h
  have hlength := ((padding_lossless zeroFill "").2.1).mp (h zeroFill "")
  exact absurd hlength.1 (by decide +kernel)

/-! ## The padding of the ratchet -/

variable {K : Type} {c : RatchetCrypto K}

/-- The ratchet computes with UTF-8 and with these random bytes. -/
structure Reads (c : RatchetCrypto K) (fill : RandomFill) : Prop where
  encode : c.encode = Utf8.encode
  decode : c.decode = Utf8.decode replacement
  urandom : c.urandom = fill.bytes

theorem Reads.build (h : Reads c fill) :
    Dm.buildPaddedPayload c plaintext = buildPaddedPayload fill plaintext := by
  unfold Dm.buildPaddedPayload buildPaddedPayload
  rw [h.encode, h.urandom]

/-- The texts that a conversation carries whole are those of one to 65535 bytes. -/
theorem Reads.whole_iff (h : Reads c fill) : Whole c plaintext ↔
    1 ≤ (Utf8.encode plaintext).length ∧ (Utf8.encode plaintext).length ≤ 65535 := by
  constructor
  · intro hwhole
    rw [← h.encode]
    exact ⟨hwhole.nonempty, Nat.le_of_lt_succ hwhole.short⟩
  · rintro ⟨hone, hfits⟩
    rw [← h.encode] at hone hfits
    refine ⟨hone, Nat.lt_succ_of_le hfits, ?_⟩
    rw [h.encode, h.decode]
    exact decode_encode plaintext

end

end Vincent.Dm.Padding
