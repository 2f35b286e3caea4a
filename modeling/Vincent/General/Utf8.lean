-- SUMMARY: UTF-8: encoding, and decoding that replaces malformed bytes.
import Mathlib.Data.List.Basic
import Mathlib.Data.List.TakeDrop

/-!
# UTF-8

A decoder reads byte by byte. Inside a character it knows which bytes may come next.
Where another one comes, or the input ends, the bytes so far give the text `bad` and
the byte is read again as a first one.
-/

namespace Vincent.Utf8

def encode (s : String) : List UInt8 := s.toList.flatMap String.utf8EncodeChar

/-- A character that has begun: how many bytes it needs after the next one, the range of the next
    one, and its bits so far. -/
structure Begun where
  more : Nat
  lower : Nat := 0x80
  upper : Nat := 0xBF
  bits : Nat

section

variable (bad : List Char)

/-- A byte between characters. -/
def first (b : UInt8) : List Char × Option Begun :=
  let n := b.toNat
  if n < 0x80 then ([Char.ofNat n], none)
  else if n < 0xC2 then (bad, none)
  else if n < 0xE0 then ([], some { more := 0, bits := n % 32 })
  else if n < 0xF0 then
    ([], some { more := 1, lower := if n = 0xE0 then 0xA0 else 0x80,
                upper := if n = 0xED then 0x9F else 0xBF, bits := n % 16 })
  else if n < 0xF5 then
    ([], some { more := 2, lower := if n = 0xF0 then 0x90 else 0x80,
                upper := if n = 0xF4 then 0x8F else 0xBF, bits := n % 8 })
  else (bad, none)

/-- A byte at any place. -/
def next (b : UInt8) : Option Begun → List Char × Option Begun
  | none => first bad b
  | some s =>
    if s.lower ≤ b.toNat ∧ b.toNat ≤ s.upper then
      let bits := s.bits * 64 + b.toNat % 64
      match s.more with
      | 0 => ([Char.ofNat bits], none)
      | more + 1 => ([], some { more, bits })
    else (bad ++ (first bad b).1, (first bad b).2)

def decodeFrom : Option Begun → List UInt8 → List Char
  | none, [] => []
  | some _, [] => bad
  | st, b :: bs => (next bad b st).1 ++ decodeFrom (next bad b st).2 bs

def decode (data : List UInt8) : String := String.ofList (decodeFrom bad none data)

end

/-! ## Whole characters -/

variable {bad : List Char}

theorem decodeFrom_cons (b : UInt8) (bs : List UInt8) (st : Option Begun) :
    decodeFrom bad st (b :: bs) = (next bad b st).1 ++ decodeFrom bad (next bad b st).2 bs := by
  cases st <;> rfl

theorem toNat_ofNat {n : Nat} (h : n < 256) : (UInt8.ofNat n).toNat = n := by
  simpa using h

/-- A byte that goes on with a character. -/
theorem next_continue {s : Begun} {n : Nat} (hn : n < 64) (hlower : s.lower ≤ n + 0x80)
    (hupper : n + 0x80 ≤ s.upper) : next bad (UInt8.ofNat (n + 0x80)) (some s) =
      match s.more with
      | 0 => ([Char.ofNat (s.bits * 64 + n)], none)
      | more + 1 => ([], some { more, bits := s.bits * 64 + n }) := by
  have hbyte : (UInt8.ofNat (n + 0x80)).toNat = n + 0x80 := toNat_ofNat (by omega)
  have hbits : (n + 0x80) % 64 = n := by omega
  simp only [next, hbyte, hbits, if_pos (And.intro hlower hupper)]

/-- A character is read back from its bytes. -/
theorem decodeFrom_encodeChar (c : Char) (bs : List UInt8) :
    decodeFrom bad none (String.utf8EncodeChar c ++ bs) = c :: decodeFrom bad none bs := by
  have hc : Char.ofNat c.val.toNat = c := Char.ofNat_toNat c
  have hvalid : c.val.toNat < 0xD800 ∨ 0xDFFF < c.val.toNat ∧ c.val.toNat < 0x110000 := c.valid
  unfold String.utf8EncodeChar
  generalize c.val.toNat = v at hc hvalid
  dsimp only
  split_ifs with hone htwo hthree
  · have hbyte : (UInt8.ofNat v).toNat = v := toNat_ofNat (by omega)
    rw [List.cons_append, List.nil_append, decodeFrom_cons]
    simp only [next, first, hbyte, if_pos (show v < 0x80 by omega), hc, List.cons_append,
      List.nil_append]
  · have hlead : next bad (UInt8.ofNat (v / 64 % 0x20 + 0xC0)) none =
        ([], some { more := 0, bits := v / 64 % 0x20 }) := by
      have hbyte : (UInt8.ofNat (v / 64 % 0x20 + 0xC0)).toNat = v / 64 % 0x20 + 0xC0 :=
        toNat_ofNat (by omega)
      have hbits : (v / 64 % 0x20 + 0xC0) % 32 = v / 64 % 0x20 := by omega
      simp only [next, first, hbyte, hbits]
      rw [if_neg (by omega), if_neg (by omega), if_pos (by omega)]
    have hvalue : v / 64 % 0x20 * 64 + v % 0x40 = v := by omega
    simp only [List.cons_append, List.nil_append, decodeFrom_cons, hlead]
    rw [next_continue (by omega) (by dsimp only; omega) (by dsimp only; omega)]
    simp only [hvalue, hc, List.cons_append, List.nil_append]
  · have hlead : next bad (UInt8.ofNat (v / 4096 % 0x10 + 0xE0)) none =
        ([], some { more := 1, lower := if v / 4096 % 0x10 = 0 then 0xA0 else 0x80,
                    upper := if v / 4096 % 0x10 = 13 then 0x9F else 0xBF,
                    bits := v / 4096 % 0x10 }) := by
      have hbyte : (UInt8.ofNat (v / 4096 % 0x10 + 0xE0)).toNat = v / 4096 % 0x10 + 0xE0 :=
        toNat_ofNat (by omega)
      have hbits : (v / 4096 % 0x10 + 0xE0) % 16 = v / 4096 % 0x10 := by omega
      simp only [next, first, hbyte, hbits]
      rw [if_neg (by omega), if_neg (by omega), if_neg (by omega), if_pos (by omega)]
      have hlow : v / 4096 % 0x10 + 0xE0 = 0xE0 ↔ v / 4096 % 0x10 = 0 := by omega
      have hhigh : v / 4096 % 0x10 + 0xE0 = 0xED ↔ v / 4096 % 0x10 = 13 := by omega
      simp only [hlow, hhigh]
    have hvalue : (v / 4096 % 0x10 * 64 + v / 64 % 0x40) * 64 + v % 0x40 = v := by omega
    simp only [List.cons_append, List.nil_append, decodeFrom_cons, hlead]
    rw [next_continue (by omega) (by dsimp only; split_ifs <;> omega)
      (by dsimp only; split_ifs <;> omega)]
    dsimp only
    rw [next_continue (by omega) (by dsimp only; omega) (by dsimp only; omega)]
    simp only [hvalue, hc, List.cons_append, List.nil_append]
  · have hlead : next bad (UInt8.ofNat (v / 262144 % 0x08 + 0xF0)) none =
        ([], some { more := 2, lower := if v / 262144 % 0x08 = 0 then 0x90 else 0x80,
                    upper := if v / 262144 % 0x08 = 4 then 0x8F else 0xBF,
                    bits := v / 262144 % 0x08 }) := by
      have hbyte : (UInt8.ofNat (v / 262144 % 0x08 + 0xF0)).toNat = v / 262144 % 0x08 + 0xF0 :=
        toNat_ofNat (by omega)
      have hbits : (v / 262144 % 0x08 + 0xF0) % 8 = v / 262144 % 0x08 := by omega
      simp only [next, first, hbyte, hbits]
      rw [if_neg (by omega), if_neg (by omega), if_neg (by omega), if_neg (by omega),
        if_pos (by omega)]
      have hlow : v / 262144 % 0x08 + 0xF0 = 0xF0 ↔ v / 262144 % 0x08 = 0 := by omega
      have hhigh : v / 262144 % 0x08 + 0xF0 = 0xF4 ↔ v / 262144 % 0x08 = 4 := by omega
      simp only [hlow, hhigh]
    have hvalue : ((v / 262144 % 0x08 * 64 + v / 4096 % 0x40) * 64 + v / 64 % 0x40) * 64 +
        v % 0x40 = v := by omega
    simp only [List.cons_append, List.nil_append, decodeFrom_cons, hlead]
    rw [next_continue (by omega) (by dsimp only; split_ifs <;> omega)
      (by dsimp only; split_ifs <;> omega)]
    dsimp only
    rw [next_continue (by omega) (by dsimp only; omega) (by dsimp only; omega)]
    dsimp only
    rw [next_continue (by omega) (by dsimp only; omega) (by dsimp only; omega)]
    simp only [hvalue, hc, List.cons_append, List.nil_append]

/-- The bytes of some characters. -/
def encodeChars (cs : List Char) : List UInt8 := cs.flatMap String.utf8EncodeChar

theorem decodeFrom_encodeChars (cs : List Char) (bs : List UInt8) :
    decodeFrom bad none (encodeChars cs ++ bs) = cs ++ decodeFrom bad none bs := by
  induction cs with
  | nil => rfl
  | cons c cs ih =>
    have hcons : encodeChars (c :: cs) = String.utf8EncodeChar c ++ encodeChars cs := rfl
    rw [hcons, List.append_assoc, decodeFrom_encodeChar, ih]
    rfl

/-- A text is read back from its bytes. -/
theorem decode_encode (s : String) : decode bad (encode s) = s := by
  have h : decodeFrom bad none (encodeChars s.toList ++ []) = s.toList ++ [] :=
    decodeFrom_encodeChars s.toList []
  rw [List.append_nil] at h
  unfold decode encode
  exact (congrArg String.ofList (h.trans (List.append_nil s.toList))).trans String.ofList_toList

/-! ## Prefixes -/

/-- No more characters than bytes are read, and one more for a character that has begun. -/
theorem length_decodeFrom_le (hbad : bad.length ≤ 1) (st : Option Begun) (bs : List UInt8) :
    (decodeFrom bad st bs).length ≤ bs.length + st.elim 0 fun _ => 1 := by
  have hfirst : ∀ b : UInt8, (first bad b).1.length + ((first bad b).2.elim 0 fun _ => 1) ≤ 1 := by
    intro b
    unfold first
    dsimp only
    split_ifs <;> simp [hbad]
  induction bs generalizing st with
  | nil =>
    cases st with
    | none => simp [decodeFrom]
    | some s => simpa [decodeFrom] using hbad
  | cons b bs ih =>
    rw [decodeFrom_cons, List.length_append, List.length_cons]
    have hrest := ih (next bad b st).2
    have hnext : (next bad b st).1.length + ((next bad b st).2.elim 0 fun _ => 1) ≤
        1 + st.elim 0 fun _ => 1 := by
      cases st with
      | none => exact hfirst b
      | some s =>
        have hb := hfirst b
        unfold next
        dsimp only
        split
        · split <;> simp
        · rw [List.length_append]
          simp only [Option.elim_some]
          omega
    omega

theorem length_encodeChar_le (c : Char) : (String.utf8EncodeChar c).length ≤ 4 := by
  rw [String.length_utf8EncodeChar]
  exact c.utf8Size_le_four

theorem length_encodeChars_le (cs : List Char) : (encodeChars cs).length ≤ 4 * cs.length := by
  induction cs with
  | nil => simp [encodeChars]
  | cons c cs ih =>
    have hcons : encodeChars (c :: cs) = String.utf8EncodeChar c ++ encodeChars cs := rfl
    rw [hcons, List.length_append, List.length_cons]
    have hc := length_encodeChar_le c
    omega

/-- The first bytes of a text that is longer by some characters give fewer characters. -/
theorem length_decodeFrom_take (hbad : bad.length ≤ 1) (cs : List Char) (n : Nat)
    (hn : n + 16 < (encodeChars cs).length) :
    (decodeFrom bad none ((encodeChars cs).take n)).length < cs.length := by
  induction cs generalizing n with
  | nil => simp [encodeChars] at hn
  | cons c cs ih =>
    have hcons : encodeChars (c :: cs) = String.utf8EncodeChar c ++ encodeChars cs := rfl
    rw [hcons, List.length_append] at hn
    rw [hcons]
    have hc := length_encodeChar_le c
    rcases Nat.lt_or_ge n (String.utf8EncodeChar c).length with hlt | hge
    · -- The cut is inside of the first character.
      rw [List.take_append_of_le_length (Nat.le_of_lt hlt)]
      have hle := length_decodeFrom_le hbad none ((String.utf8EncodeChar c).take n)
      have hcs := length_encodeChars_le cs
      simp only [List.length_take, Option.elim_none, Nat.add_zero] at hle
      rw [List.length_cons]
      omega
    · rw [List.take_append, List.take_of_length_le hge, decodeFrom_encodeChar, List.length_cons,
        List.length_cons]
      have hrest := ih (n - (String.utf8EncodeChar c).length) (by omega)
      omega

end Vincent.Utf8
