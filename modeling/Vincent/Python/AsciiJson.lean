-- SUMMARY: The ASCII texts that `json.dumps` writes by default tell values apart.
import Vincent.Python.JsonText

/-!
# ASCII JSON texts

In a JSON text every backslash begins an escape, and no escape in it stands for a
character beyond ASCII. So the escapes that `ensure_ascii` adds can be told from
those that were there.
-/

namespace Vincent.Python

/-! ## Code units -/

theorem hexDigit_injective : ∀ a < 16, ∀ b < 16,
    (Nat.toDigits 16 a).headD '0' = (Nat.toDigits 16 b).headD '0' → a = b := by
  decide

theorem utf16Escape_injective {m n : Nat} (hm : m < 0x10000) (hn : n < 0x10000) {r r' : List Char}
    (h : utf16Escape m ++ r = utf16Escape n ++ r') : m = n ∧ r = r' := by
  simp only [utf16Escape, List.map_cons, List.map_nil, List.cons_append, List.nil_append,
    List.cons.injEq, true_and] at h
  obtain ⟨h₁, h₂, h₃, h₄, hr⟩ := h
  have hdigit : ∀ a b : Nat, (Nat.toDigits 16 (a % 16)).headD '0' =
      (Nat.toDigits 16 (b % 16)).headD '0' → a % 16 = b % 16 := fun a b =>
    hexDigit_injective _ (Nat.mod_lt a (by decide)) _ (Nat.mod_lt b (by decide))
  have e₁ := hdigit _ _ h₁
  have e₂ := hdigit _ _ h₂
  have e₃ := hdigit _ _ h₃
  have e₄ := hdigit _ _ h₄
  exact ⟨by omega, hr⟩

/-- The first code unit of a character that is not ASCII. -/
theorem asciiEscape_unit {c : Char} (hc : 127 ≤ c.toNat) :
    ∃ n rest, asciiEscape c = utf16Escape n ++ rest ∧ 127 ≤ n ∧ n < 0x10000 := by
  have hmax : c.toNat < 0x110000 := by
    rcases c.valid with h | h
    · exact h.trans (by decide)
    · exact h.2
  unfold asciiEscape
  rw [if_neg (by omega)]
  split
  · exact ⟨c.toNat, [], by simp, hc, by assumption⟩
  · exact ⟨_, _, rfl, by omega, by omega⟩

theorem asciiEscape_injective {c d : Char} (hc : 127 ≤ c.toNat) (hd : 127 ≤ d.toNat) {r r' : List Char}
    (h : asciiEscape c ++ r = asciiEscape d ++ r') : c = d ∧ r = r' := by
  have hrange : ∀ e : Char, e.toNat < 0xd800 ∨ 0xdfff < e.toNat ∧ e.toNat < 0x110000 := fun e => e.valid
  have hc' := hrange c
  have hd' := hrange d
  have hchar : c.toNat = d.toNat → c = d := fun heq => Char.ext (UInt32.toNat.inj heq)
  unfold asciiEscape at h
  rw [if_neg (show ¬ c.toNat < 127 by omega), if_neg (show ¬ d.toNat < 127 by omega)] at h
  by_cases hlow : c.toNat < 0x10000
  · by_cases hlow' : d.toNat < 0x10000
    · rw [if_pos hlow, if_pos hlow'] at h
      obtain ⟨heq, hr⟩ := utf16Escape_injective hlow hlow' h
      exact ⟨hchar heq, hr⟩
    · rw [if_pos hlow, if_neg hlow', List.append_assoc] at h
      obtain ⟨heq, -⟩ := utf16Escape_injective hlow (by omega) h
      omega
  · by_cases hlow' : d.toNat < 0x10000
    · rw [if_neg hlow, if_pos hlow', List.append_assoc] at h
      obtain ⟨heq, -⟩ := utf16Escape_injective (by omega) hlow' h
      omega
    · rw [if_neg hlow, if_neg hlow', List.append_assoc, List.append_assoc] at h
      obtain ⟨hfirst, h⟩ := utf16Escape_injective (by omega) (by omega) h
      obtain ⟨hsecond, hr⟩ := utf16Escape_injective (by omega) (by omega) h
      exact ⟨hchar (by omega), hr⟩

/-! ## Escaped texts -/

/-- A text in which every backslash begins an escape, and escapes are of ASCII characters. -/
inductive Escaped : List Char → Prop
  | nil : Escaped []
  | plain {c : Char} {t : List Char} (hc : c ≠ '\\') (ht : Escaped t) : Escaped (c :: t)
  | short {c : Char} {t : List Char} (hu : c ≠ 'u') (hc : c.toNat < 127) (ht : Escaped t) :
    Escaped ('\\' :: c :: t)
  | unit {n : Nat} {t : List Char} (hn : n < 127) (ht : Escaped t) : Escaped (utf16Escape n ++ t)

theorem Escaped.append {s t : List Char} (hs : Escaped s) (ht : Escaped t) : Escaped (s ++ t) := by
  induction hs with
  | nil => exact ht
  | plain hc _ ih => exact .plain hc ih
  | short hu hc _ ih => exact .short hu hc ih
  | unit hn _ ih =>
    rw [List.append_assoc]
    exact .unit hn ih

theorem flatMap_unit {n : Nat} (hn : n < 127) : (utf16Escape n).flatMap asciiEscape = utf16Escape n := by
  interval_cases n <;> rfl

/-- What stands for an escaped text starts with what stands for its first character or escape. -/
theorem Escaped.ascii_injective {s t : List Char} (hs : Escaped s) (ht : Escaped t)
    (h : s.flatMap asciiEscape = t.flatMap asciiEscape) : s = t := by
  have hplain : ∀ c : Char, c.toNat < 127 → asciiEscape c = [c] := fun c hc => if_pos hc
  have hslash : asciiEscape '\\' = ['\\'] := rfl
  -- a character that is not ASCII, against anything else
  have hother : ∀ {c : Char} {s t : List Char}, 127 ≤ c.toNat → Escaped t →
      (∀ d u, t = d :: u → d ≠ '\\' → d.toNat < 127) →
      asciiEscape c ++ s ≠ t.flatMap asciiEscape := by
    intro c s t hc ht hascii heq
    obtain ⟨n, rest, hunit, hn, hmax⟩ := asciiEscape_unit hc
    rw [hunit, List.append_assoc] at heq
    cases ht with
    | nil => exact absurd heq (by simp [utf16Escape])
    | @plain d u hd hu =>
      rw [List.flatMap_cons, hplain d (hascii d u rfl hd), utf16Escape] at heq
      exact hd (List.cons.inj heq).1.symm
    | @short d u hnotu hd hu =>
      rw [List.flatMap_cons, List.flatMap_cons, hslash, hplain d hd, utf16Escape] at heq
      simp only [List.cons_append, List.nil_append, List.cons.injEq, true_and] at heq
      exact hnotu heq.1.symm
    | @unit m u hm hu =>
      rw [List.flatMap_append, flatMap_unit hm] at heq
      obtain ⟨rfl, -⟩ := utf16Escape_injective hmax (hm.trans (by decide)) heq
      omega
  have hne : ∀ c s, asciiEscape c ++ s ≠ [] := by
    intro c s
    unfold asciiEscape utf16Escape
    split
    · simp
    · split <;> simp
  have hhead : ∀ {m : Nat} {u : List Char}, m < 127 →
      (utf16Escape m ++ u).flatMap asciiEscape = utf16Escape m ++ u.flatMap asciiEscape := by
    intro m u hm
    rw [List.flatMap_append, flatMap_unit hm]
  induction hs generalizing t with
  | nil =>
    cases ht with
    | nil => rfl
    | plain | short => exact absurd h.symm (hne _ _)
    | unit hm => exact absurd h.symm (by rw [hhead hm]; simp [utf16Escape])
  | @plain c s hc hs ih =>
    by_cases hascii : c.toNat < 127
    · rw [List.flatMap_cons, hplain c hascii] at h
      cases ht with
      | nil => cases h
      | @plain d u hd hu =>
        by_cases hascii' : d.toNat < 127
        · rw [List.flatMap_cons, hplain d hascii'] at h
          obtain ⟨rfl, hrest⟩ := List.cons.inj h
          rw [ih hu hrest]
        · refine absurd h.symm (?_ : asciiEscape d ++ _ ≠ _)
          have hfalse := hother (s := u.flatMap asciiEscape) (not_lt.mp hascii') (.plain hc hs)
            (fun e v heq _ => by cases heq; exact hascii)
          rwa [List.flatMap_cons, hplain c hascii] at hfalse
      | short => exact absurd (List.cons.inj h).1 hc
      | unit hm =>
        rw [hhead hm, utf16Escape] at h
        exact absurd (List.cons.inj h).1 hc
    · rw [List.flatMap_cons] at h
      cases ht with
      | nil => exact absurd h (hne _ _)
      | @plain d u hd hu =>
        by_cases hascii' : d.toNat < 127
        · exact absurd h (hother (not_lt.mp hascii) (.plain hd hu)
            (fun e v heq _ => by cases heq; exact hascii'))
        · rw [List.flatMap_cons] at h
          obtain ⟨rfl, hrest⟩ := asciiEscape_injective (not_lt.mp hascii) (not_lt.mp hascii') h
          rw [ih hu hrest]
      | short hu hd ht =>
        exact absurd h (hother (not_lt.mp hascii) (.short hu hd ht)
          (fun e v heq hslash => by cases heq; exact absurd rfl hslash))
      | unit hm hu =>
        exact absurd h (hother (not_lt.mp hascii) (.unit hm hu)
          (fun e v heq hslash => by
            rw [utf16Escape] at heq
            exact absurd (List.cons.inj heq).1.symm hslash))
  | @short c s hnotu hascii hs ih =>
    rw [List.flatMap_cons, List.flatMap_cons, hslash, hplain c hascii] at h
    cases ht with
    | nil => cases h
    | @plain d u hd hu =>
      by_cases hascii' : d.toNat < 127
      · rw [List.flatMap_cons, hplain d hascii'] at h
        exact absurd (List.cons.inj h).1.symm hd
      · have hfalse := hother (s := u.flatMap asciiEscape) (not_lt.mp hascii') (.short hnotu hascii hs)
          (fun e v heq hslash => by cases heq; exact absurd rfl hslash)
        rw [List.flatMap_cons, List.flatMap_cons, hslash, hplain c hascii] at hfalse
        exact absurd h.symm hfalse
    | @short d u hnotu' hascii' hu =>
      rw [List.flatMap_cons, List.flatMap_cons, hslash, hplain d hascii'] at h
      obtain ⟨rfl, hrest⟩ := List.cons.inj (List.cons.inj h).2
      rw [ih hu hrest]
    | unit hm =>
      rw [hhead hm, utf16Escape] at h
      exact absurd (List.cons.inj (List.cons.inj h).2).1 hnotu
  | @unit n s hn hs ih =>
    rw [hhead hn] at h
    cases ht with
    | nil => exact absurd h (by simp [utf16Escape])
    | @plain d u hd hu =>
      by_cases hascii' : d.toNat < 127
      · rw [List.flatMap_cons, hplain d hascii', utf16Escape] at h
        exact absurd (List.cons.inj h).1.symm hd
      · have hfalse := hother (s := u.flatMap asciiEscape) (not_lt.mp hascii') (.unit hn hs)
          (fun e v heq hslash => by
            rw [utf16Escape] at heq
            exact absurd (List.cons.inj heq).1.symm hslash)
        rw [hhead hn] at hfalse
        exact absurd h.symm hfalse
    | @short d u hnotu hascii' hu =>
      rw [List.flatMap_cons, List.flatMap_cons, hslash, hplain d hascii', utf16Escape] at h
      exact absurd (List.cons.inj (List.cons.inj h).2).1.symm hnotu
    | @unit m u hm hu =>
      rw [hhead hm] at h
      obtain ⟨rfl, hrest⟩ := utf16Escape_injective (hn.trans (by decide)) (hm.trans (by decide)) h
      rw [ih hu hrest]

/-! ## The texts of values -/

private theorem escaped_control : ∀ n < 32, (jsonEscape (Char.ofNat n)).toList = utf16Escape n ∨
    ∃ c, (jsonEscape (Char.ofNat n)).toList = ['\\', c] ∧ c ≠ 'u' ∧ c.toNat < 127 := by
  intro n hn
  interval_cases n
  all_goals first
    | exact Or.inl rfl
    | exact Or.inr ⟨_, rfl, by decide, by decide⟩

theorem escaped_jsonEscape (c : Char) : Escaped (jsonEscape c).toList := by
  by_cases hcontrol : c.toNat < 32
  · have hc : Char.ofNat c.toNat = c := Char.ofNat_toNat c
    rw [← hc]
    rcases escaped_control c.toNat hcontrol with hunit | ⟨d, hshort, hd, hascii⟩
    · rw [hunit, ← List.append_nil (utf16Escape _)]
      exact .unit (by omega) .nil
    · rw [hshort]
      exact .short hd hascii .nil
  · by_cases hquote : c = '"'
    · subst hquote
      exact .short (by decide) (by decide) .nil
    · by_cases hslash : c = '\\'
      · subst hslash
        exact .short (by decide) (by decide) .nil
      · have hlist : c.toString.toList = [c] := by simp [Char.toString]
        rw [jsonEscape_plain hcontrol hquote hslash, hlist]
        exact .plain hslash .nil

theorem escaped_of_forall {s : List Char} (h : ∀ c ∈ s, c ≠ '\\') : Escaped s := by
  induction s with
  | nil => exact .nil
  | cons c s ih =>
    exact .plain (h c List.mem_cons_self) (ih fun d hd => h d (List.mem_cons_of_mem _ hd))

theorem escaped_jsonString (s : String) : Escaped (jsonString s).toList := by
  have hchars : ∀ l : List Char, Escaped (l.flatMap fun c => (jsonEscape c).toList) := by
    intro l
    induction l with
    | nil => exact .nil
    | cons c l ih => exact (escaped_jsonEscape c).append ih
  rw [toList_jsonString]
  exact .plain (by decide) ((hchars _).append (.plain (by decide) .nil))

theorem escaped_intercalate {parts : List (List Char)} (h : ∀ part ∈ parts, Escaped part) :
    Escaped (List.intercalate [','] parts) := by
  induction parts with
  | nil => exact .nil
  | cons part parts ih =>
    have hpart := h part List.mem_cons_self
    cases parts with
    | nil => simpa using hpart
    | cons next parts =>
      rw [List.intercalate_cons_cons]
      exact (hpart.append (.plain (by decide) .nil)).append
        (ih fun p hp => h p (List.mem_cons_of_mem _ hp))

variable {rt : Runtime}

theorem PyVal.atom_noSlash (hrt : FloatTexts rt) {v : PyVal} (hv : v.atom = true) :
    ∀ c ∈ (v.dumps rt).toList, c ≠ '\\' := by
  simp only [PyVal.atom, Bool.or_eq_true] at hv
  rcases hv with hv | hv
  · rcases v with _ | b | n | x | s | xs | kvs
    · simp [PyVal.dumps]
    · cases b <;> simp [PyVal.dumps]
    · cases hv
    · cases x <;> simp [PyVal.dumps, PyVal.literal] at hv ⊢
    all_goals cases hv
  · rintro c hc rfl
    exact absurd (PyVal.number_numeral hrt hv _ hc) (by decide)

theorem PyVal.escaped_dumps (hrt : FloatTexts rt) (v : PyVal) : Escaped (v.dumps rt).toList := by
  induction hn : sizeOf v using Nat.strong_induction_on generalizing v with
  | _ n ih =>
  cases hv : v.opening with
  | none =>
    exact escaped_of_forall (PyVal.atom_noSlash hrt (PyVal.atom_of_opening hv))
  | some sign =>
    rcases v with _ | b | n | x | s | xs | kvs <;> cases hv
    · exact escaped_jsonString s
    · rw [PyVal.toList_dumps_list]
      refine .plain (by decide) ((escaped_intercalate fun part hpart => ?_).append
        (.plain (by decide) .nil))
      obtain ⟨x, hx, rfl⟩ := List.mem_map.mp hpart
      have hsize := List.sizeOf_lt_of_mem hx
      exact ih _ (by rw [← hn, PyVal.list.sizeOf_spec]; omega) x rfl
    · rw [PyVal.toList_dumps_dict]
      refine .plain (by decide) ((escaped_intercalate fun part hpart => ?_).append
        (.plain (by decide) .nil))
      obtain ⟨kv, hkv, rfl⟩ := List.mem_map.mp hpart
      have hsize := List.sizeOf_lt_of_mem ((List.mem_insertionSort _).mp hkv)
      have hpair : sizeOf kv = 1 + sizeOf kv.1 + sizeOf kv.2 := by cases kv; rfl
      rw [itemText]
      exact (escaped_jsonString kv.1).append (.plain (by decide)
        (ih _ (by rw [← hn, PyVal.dict.sizeOf_spec]; omega) kv.2 rfl))

/-- Values with the same ASCII text are the same up to the order of keys. -/
theorem PyVal.asciiDumps_injective (hrt : FloatTexts rt) {v w : PyVal}
    (h : v.asciiDumps rt = w.asciiDumps rt) : v.sorted = w.sorted := by
  have htexts : (v.dumps rt).toList = (w.dumps rt).toList :=
    (PyVal.escaped_dumps hrt v).ascii_injective (PyVal.escaped_dumps hrt w)
      (String.ofList_injective h)
  exact PyVal.dumps_injective hrt (String.ext htexts)

end Vincent.Python
