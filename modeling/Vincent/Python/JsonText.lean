-- SUMMARY: JSON texts can be read back, up to the order of keys.
import Mathlib
import Vincent.Python.Value

/-!
# JSON texts

`json.dumps` writes values that differ differently, up to the order of the keys
of an object, which it sorts. The proof reads a text from its front: each value
ends where its text does, whatever comes after it.
-/

namespace Vincent.Python

/-- What `repr` of a float looks like. -/
structure FloatTexts (rt : Runtime) : Prop where
  ne_empty : ∀ q, rt.strFloat (.finite q) ≠ "" ∧ rt.strFloat .negZero ≠ ""
  numeral : ∀ x, (∃ q, x = .finite q) ∨ x = .negZero →
    ∀ c ∈ (rt.strFloat x).toList, c.isDigit = true ∨ c ∈ ['-', '+', '.', 'e', '/']
  marked : ∀ x, (∃ q, x = .finite q) ∨ x = .negZero →
    ∃ c ∈ (rt.strFloat x).toList, c ∈ ['.', 'e', '/']
  injective : ∀ x y, (∃ q, x = .finite q) ∨ x = .negZero → (∃ q, y = .finite q) ∨ y = .negZero →
    rt.strFloat x = rt.strFloat y → x = y

/-! ## Strings -/

/-- The first character of an escaped text, and what is left of it. -/
def unescape : List Char → Option (Char × List Char)
  | '\\' :: '"' :: rest => some ('"', rest)
  | '\\' :: '\\' :: rest => some ('\\', rest)
  | '\\' :: 'n' :: rest => some ('\n', rest)
  | '\\' :: 'r' :: rest => some ('\r', rest)
  | '\\' :: 't' :: rest => some ('\t', rest)
  | '\\' :: 'b' :: rest => some (Char.ofNat 8, rest)
  | '\\' :: 'f' :: rest => some (Char.ofNat 12, rest)
  | '\\' :: 'u' :: '0' :: '0' :: a :: b :: rest =>
    some (Char.ofNat (16 * (a.toNat - 48) + (if b.toNat < 60 then b.toNat - 48 else b.toNat - 87)),
      rest)
  | '\\' :: _ => none
  | '"' :: _ => none
  | c :: rest => some (c, rest)
  | [] => none

private theorem unescape_control (rest : List Char) : ∀ n < 32,
    unescape ((jsonEscape (Char.ofNat n)).toList ++ rest) = some (Char.ofNat n, rest) := by
  intro n hn
  interval_cases n <;> rfl

theorem jsonEscape_plain {c : Char} (hcontrol : ¬ c.toNat < 32) (hquote : c ≠ '"')
    (hslash : c ≠ '\\') : jsonEscape c = c.toString := by
  unfold jsonEscape
  have hval : ∀ d : Char, d.toNat < 32 → (c == d) = false := by
    intro d hd
    simp only [beq_eq_false_iff_ne, ne_eq]
    rintro rfl
    exact hcontrol hd
  have hnat : c.val.toNat = c.toNat := rfl
  have h8 : (c.val == 8) = false := by
    simp only [beq_eq_false_iff_ne, ne_eq]
    intro h
    rw [h] at hnat
    exact hcontrol (hnat ▸ (by decide))
  have h12 : (c.val == 12) = false := by
    simp only [beq_eq_false_iff_ne, ne_eq]
    intro h
    rw [h] at hnat
    exact hcontrol (hnat ▸ (by decide))
  have h32 : ¬ c.val < 32 := fun h => hcontrol (UInt32.lt_iff_toNat_lt.mp h)
  simp [hquote, hslash, hval '\n' (by decide), hval '\r' (by decide), hval '\t' (by decide), h8, h12,
    h32]

theorem unescape_jsonEscape (c : Char) (rest : List Char) :
    unescape ((jsonEscape c).toList ++ rest) = some (c, rest) := by
  by_cases hcontrol : c.toNat < 32
  · have hc : Char.ofNat c.toNat = c := Char.ofNat_toNat c
    rw [← hc]
    exact unescape_control rest c.toNat hcontrol
  · by_cases hquote : c = '"'
    · subst hquote
      rfl
    · by_cases hslash : c = '\\'
      · subst hslash
        rfl
      · have hlist : c.toString.toList = [c] := by simp [Char.toString]
        rw [jsonEscape_plain hcontrol hquote hslash, hlist, List.singleton_append]
        unfold unescape
        split <;> simp_all

theorem toList_jsonString (s : String) :
    (jsonString s).toList = '"' :: (s.toList.flatMap fun c => (jsonEscape c).toList) ++ ['"'] := by
  have hjoin : ∀ l : List Char, (String.join (l.map jsonEscape)).toList =
      l.flatMap fun c => (jsonEscape c).toList := by
    intro l
    rw [String.toList_join, List.flatMap_map]
  simp [jsonString, hjoin]

theorem escaped_injective {s t r r' : List Char}
    (h : (s.flatMap fun c => (jsonEscape c).toList) ++ '"' :: r =
      (t.flatMap fun c => (jsonEscape c).toList) ++ '"' :: r') : s = t ∧ r = r' := by
  induction s generalizing t with
  | nil =>
    cases t with
    | nil => exact ⟨rfl, by simpa using h⟩
    | cons d t =>
      have hread := congrArg unescape h
      rw [List.flatMap_cons, List.append_assoc, unescape_jsonEscape] at hread
      cases hread
  | cons c s ih =>
    cases t with
    | nil =>
      have hread := congrArg unescape h
      rw [List.flatMap_cons, List.append_assoc, unescape_jsonEscape] at hread
      cases hread
    | cons d t =>
      have hread := congrArg unescape h
      rw [List.flatMap_cons, List.flatMap_cons, List.append_assoc, List.append_assoc,
        unescape_jsonEscape, unescape_jsonEscape] at hread
      obtain ⟨rfl, hrest⟩ := Prod.mk.inj (Option.some.inj hread)
      obtain ⟨rfl, hr⟩ := ih hrest
      exact ⟨rfl, hr⟩

theorem jsonString_injective {s t : String} {r r' : List Char}
    (h : (jsonString s).toList ++ r = (jsonString t).toList ++ r') : s = t ∧ r = r' := by
  rw [toList_jsonString, toList_jsonString] at h
  simp only [List.cons_append, List.append_assoc, List.nil_append, List.cons.injEq,
    true_and] at h
  obtain ⟨hs, hr⟩ := escaped_injective h
  exact ⟨String.ext hs, hr⟩

/-! ## Literals and numbers -/

/-- A character of a number. -/
def isNumeral (c : Char) : Prop := c.isDigit = true ∨ c ∈ ['-', '+', '.', 'e', '/']

instance (c : Char) : Decidable (isNumeral c) :=
  inferInstanceAs (Decidable (c.isDigit = true ∨ c ∈ ['-', '+', '.', 'e', '/']))

/-- The values with a word for a text. -/
def PyVal.literal : PyVal → Bool
  | .none | .bool _ | .float .nan | .float .inf | .float .negInf => true
  | _ => false

/-- The values with digits for a text. -/
def PyVal.number : PyVal → Bool
  | .int _ | .float (.finite _) | .float .negZero => true
  | _ => false

theorem toString_int (n : Int) : toString n = Int.repr n := by
  cases n <;> rfl

theorem digits_int (n : Int) : ∀ c ∈ (toString n).toList, c.isDigit = true ∨ c = '-' := by
  have hnat : ∀ m : Nat, ∀ c ∈ (Nat.repr m).toList, c.isDigit = true := by
    intro m c hc
    rw [Nat.toList_repr] at hc
    exact Nat.isDigit_of_mem_toDigits (by decide) (by decide) hc
  rw [toString_int]
  intro c hc
  cases n with
  | ofNat m => exact .inl (hnat m c hc)
  | negSucc m =>
    simp only [Int.repr, String.toList_append, List.mem_append] at hc
    rcases hc with hsign | hdigit
    · exact .inr (by simpa using hsign)
    · exact .inl (hnat _ c hdigit)

section
variable {rt : Runtime}

theorem PyVal.literal_letter (rt : Runtime) {v : PyVal} (h : v.literal = true) :
    ∃ c ∈ (v.dumps rt).toList, ¬ isNumeral c := by
  rcases v with _ | b | n | x | s | xs | kvs
  · exact ⟨'n', by simp [PyVal.dumps], by decide⟩
  · cases b
    · exact ⟨'f', by simp [PyVal.dumps], by decide⟩
    · exact ⟨'t', by simp [PyVal.dumps], by decide⟩
  · cases h
  · cases x
    · cases h
    · cases h
    · exact ⟨'I', by simp [PyVal.dumps], by decide⟩
    · exact ⟨'I', by simp [PyVal.dumps], by decide⟩
    · exact ⟨'N', by simp [PyVal.dumps], by decide⟩
  all_goals cases h

theorem PyVal.number_numeral (hrt : FloatTexts rt) {v : PyVal} (h : v.number = true) :
    ∀ c ∈ (v.dumps rt).toList, isNumeral c := by
  rcases v with _ | b | n | x | s | xs | kvs
  · cases h
  · cases h
  · intro c hc
    rcases digits_int n c hc with hdigit | rfl
    · exact .inl hdigit
    · exact .inr (by decide)
  · cases x
    · exact hrt.numeral _ (.inl ⟨_, rfl⟩)
    · exact hrt.numeral _ (.inr rfl)
    all_goals cases h
  all_goals cases h

theorem PyVal.literal_injective {v w : PyVal} (hv : v.literal = true) (hw : w.literal = true)
    (h : v.dumps rt = w.dumps rt) : v = w := by
  rcases v with _ | b | n | x | s | xs | kvs
  · rcases w with _ | b' | n' | y | s' | ys | lws
    · rfl
    · cases b' <;> simp [PyVal.dumps] at h
    · cases hw
    · cases y <;> simp [PyVal.dumps, PyVal.literal] at h hw
    all_goals cases hw
  · rcases w with _ | b' | n' | y | s' | ys | lws
    · cases b <;> simp [PyVal.dumps] at h
    · cases b <;> cases b' <;> simp [PyVal.dumps] at h ⊢
    · cases hw
    · cases b <;> cases y <;> simp [PyVal.dumps, PyVal.literal] at h hw
    all_goals cases hw
  · cases hv
  · rcases w with _ | b' | n' | y | s' | ys | lws
    · cases x <;> simp [PyVal.dumps, PyVal.literal] at h hv
    · cases x <;> cases b' <;> simp [PyVal.dumps, PyVal.literal] at h hv
    · cases hw
    · cases x <;> cases y <;> simp [PyVal.dumps, PyVal.literal] at h hv hw ⊢
    all_goals cases hw
  all_goals cases hv

/-- An integer has no mark of a fraction or an exponent in its text. -/
theorem strFloat_ne_toString (hrt : FloatTexts rt) {x : PyFloat} (hx : (∃ q, x = .finite q) ∨ x = .negZero)
    (n : Int) : rt.strFloat x ≠ toString n := by
  intro h
  obtain ⟨c, hc, hmark⟩ := hrt.marked x hx
  rw [h] at hc
  have hne : c.isDigit = false ∧ c ≠ '-' := by
    simp only [List.mem_cons, List.not_mem_nil, or_false] at hmark
    rcases hmark with rfl | rfl | rfl <;> decide
  rcases digits_int n c hc with hdigit | hsign
  · rw [hne.1] at hdigit
    cases hdigit
  · exact hne.2 hsign

theorem PyVal.number_injective (hrt : FloatTexts rt) {v w : PyVal} (hv : v.number = true)
    (hw : w.number = true) (h : v.dumps rt = w.dumps rt) : v = w := by
  have hfloat : ∀ {u : PyVal}, u.number = true →
      (∃ n, u = .int n ∧ u.dumps rt = toString n) ∨
        ∃ x, u = .float x ∧ u.dumps rt = rt.strFloat x ∧ ((∃ q, x = .finite q) ∨ x = .negZero) := by
    intro u hu
    rcases u with _ | b | n | x | s | xs | kvs
    · cases hu
    · cases hu
    · exact .inl ⟨n, rfl, rfl⟩
    · cases x
      · exact .inr ⟨_, rfl, rfl, .inl ⟨_, rfl⟩⟩
      · exact .inr ⟨_, rfl, rfl, .inr rfl⟩
      all_goals cases hu
    all_goals cases hu
  rcases hfloat hv with ⟨n, rfl, hn⟩ | ⟨x, rfl, hx, hxf⟩ <;>
    rcases hfloat hw with ⟨m, rfl, hm⟩ | ⟨y, rfl, hy, hyf⟩
  · rw [hn, hm, toString_int, toString_int] at h
    rw [Int.repr_injective h]
  · rw [hn, hy] at h
    exact absurd h.symm (strFloat_ne_toString hrt hyf n)
  · rw [hx, hm] at h
    exact absurd h (strFloat_ne_toString hrt hxf m)
  · rw [hx, hy] at h
    rw [hrt.injective x y hxf hyf h]

/-- A value without parts. -/
def PyVal.atom (v : PyVal) : Bool := v.literal || v.number

theorem PyVal.atom_injective (hrt : FloatTexts rt) {v w : PyVal} (hv : v.atom = true)
    (hw : w.atom = true) (h : v.dumps rt = w.dumps rt) : v = w := by
  simp only [PyVal.atom, Bool.or_eq_true] at hv hw
  rcases hv with hv | hv <;> rcases hw with hw | hw
  · exact PyVal.literal_injective hv hw h
  · obtain ⟨c, hc, hletter⟩ := PyVal.literal_letter rt hv
    exact absurd (PyVal.number_numeral hrt hw c (h ▸ hc)) hletter
  · obtain ⟨c, hc, hletter⟩ := PyVal.literal_letter rt hw
    exact absurd (PyVal.number_numeral hrt hv c (h ▸ hc)) hletter
  · exact PyVal.number_injective hrt hv hw h

/-- The characters that have a meaning in a JSON text. -/
def jsonSigns : List Char := ['"', '[', '\x7b', ',', ']', '\x7d']

theorem PyVal.atom_text (hrt : FloatTexts rt) {v : PyVal} (hv : v.atom = true) :
    (v.dumps rt).toList ≠ [] ∧ ∀ c ∈ (v.dumps rt).toList, c ∉ jsonSigns := by
  have hnumeral : ∀ c, isNumeral c → c ∉ jsonSigns := by
    rintro c hc hsign
    simp only [jsonSigns, List.mem_cons, List.not_mem_nil, or_false] at hsign
    rcases hsign with rfl | rfl | rfl | rfl | rfl | rfl <;> revert hc <;> decide
  simp only [PyVal.atom, Bool.or_eq_true] at hv
  rcases hv with hv | hv
  · constructor
    · obtain ⟨c, hc, -⟩ := PyVal.literal_letter rt hv
      exact List.ne_nil_of_mem hc
    · rcases v with _ | b | n | x | s | xs | kvs
      · simp [PyVal.dumps, jsonSigns]
      · cases b <;> simp [PyVal.dumps, jsonSigns]
      · cases hv
      · cases x <;> simp [PyVal.dumps, PyVal.literal, jsonSigns] at hv ⊢
      all_goals cases hv
  · refine ⟨?_, fun c hc => hnumeral c (PyVal.number_numeral hrt hv c hc)⟩
    rcases v with _ | b | n | x | s | xs | kvs
    · cases hv
    · cases hv
    · cases n <;> simp [PyVal.dumps, Int.repr]
    · cases x
      · simpa [PyVal.dumps] using (hrt.ne_empty _).1
      · simpa [PyVal.dumps] using (hrt.ne_empty 0).2
      all_goals cases hv
    all_goals cases hv

end

/-! ## Lists and objects -/

/-- What can follow a value in a text: nothing, a comma, or a closing bracket. -/
def Ends (rest : List Char) : Prop := ∀ c ∈ rest.head?, c ∈ [',', ']', '\x7d']

/-- Parts, joined by commas and closed, are read back where each is read from the front of a
text. -/
theorem intercalate_parts {β γ : Type} {text : β → List Char} (read : β → γ) {close : Char}
    (hclose : close ∈ [']', '\x7d']) (hhead : ∀ x, ∃ c t, text x = c :: t ∧ c ∉ [',', ']', '\x7d'])
    {xs ys : List β} {r r' : List Char}
    (hread : ∀ x ∈ xs, ∀ y r r', text x ++ r = text y ++ r' → Ends r → Ends r' →
      read x = read y ∧ r = r')
    (h : List.intercalate [','] (xs.map text) ++ close :: r =
      List.intercalate [','] (ys.map text) ++ close :: r') :
    xs.map read = ys.map read ∧ r = r' := by
  have hends : ∀ c rest, c ∈ [',', ']', '\x7d'] → Ends (c :: rest) := by
    intro c rest hc d hd
    rw [← Option.some.inj hd]
    exact hc
  have hcloses : close ∈ [',', ']', '\x7d'] := List.mem_cons_of_mem _ hclose
  have hcomma : close ≠ ',' := by
    rintro rfl
    revert hclose
    decide
  -- no part starts with the bracket that closes
  have hfirst : ∀ x (rest : List β) (r r' : List Char),
      List.intercalate [','] ((x :: rest).map text) ++ r ≠ close :: r' := by
    intro x rest r r' heq
    obtain ⟨c, t, ht, hc⟩ := hhead x
    cases rest with
    | nil =>
      simp only [List.map_cons, List.map_nil, List.intercalate_singleton, ht, List.cons_append,
        List.cons.injEq] at heq
      exact hc (heq.1 ▸ hcloses)
    | cons next rest =>
      simp only [List.map_cons, List.intercalate_cons_cons, ht, List.cons_append,
        List.cons.injEq] at heq
      exact hc (heq.1 ▸ hcloses)
  induction xs generalizing ys with
  | nil =>
    cases ys with
    | nil => exact ⟨rfl, by simpa using h⟩
    | cons y ys => exact absurd h.symm (hfirst y ys _ _)
  | cons x xs ih =>
    cases ys with
    | nil => exact absurd h (hfirst x xs _ _)
    | cons y ys =>
      have hx := hread x (by simp)
      have hxs : ∀ x' ∈ xs, _ := fun x' hx' => hread x' (List.mem_cons_of_mem _ hx')
      cases xs with
      | nil =>
        cases ys with
        | nil =>
          simp only [List.map_cons, List.map_nil, List.intercalate_singleton] at h
          obtain ⟨hsame, hrest⟩ := hx y _ _ h (hends _ _ hcloses) (hends _ _ hcloses)
          exact ⟨by simp [hsame], (List.cons.inj hrest).2⟩
        | cons y' ys =>
          simp only [List.map_cons, List.map_nil, List.intercalate_singleton,
            List.intercalate_cons_cons, List.append_assoc, List.cons_append, List.nil_append] at h
          obtain ⟨-, hrest⟩ := hx y _ _ h (hends _ _ hcloses) (hends _ _ (by simp))
          exact absurd (List.cons.inj hrest).1 hcomma
      | cons x' xs =>
        cases ys with
        | nil =>
          simp only [List.map_cons, List.map_nil, List.intercalate_singleton,
            List.intercalate_cons_cons, List.append_assoc, List.cons_append, List.nil_append] at h
          obtain ⟨-, hrest⟩ := hx y _ _ h (hends _ _ (by simp)) (hends _ _ hcloses)
          exact absurd (List.cons.inj hrest).1.symm hcomma
        | cons y' ys =>
          rw [List.map_cons, List.map_cons, List.map_cons, List.map_cons,
            List.intercalate_cons_cons, List.intercalate_cons_cons] at h
          simp only [List.append_assoc, List.cons_append, List.nil_append] at h
          obtain ⟨hsame, hrest⟩ := hx y _ _ h (hends _ _ (by simp)) (hends _ _ (by simp))
          obtain ⟨htail, hr⟩ := @ih (y' :: ys) hxs
            (by simpa only [List.map_cons] using (List.cons.inj hrest).2)
          exact ⟨congrArg₂ List.cons hsame htail, hr⟩

mutual
/-- The value with the keys of its objects in order. -/
def PyVal.sorted : PyVal → PyVal
  | .list xs => .list (PyVal.sortedList xs)
  | .dict kvs => .dict ((PyVal.sortedItems kvs).insertionSort fun a b => a.1 ≤ b.1)
  | v => v

def PyVal.sortedList : List PyVal → List PyVal
  | [] => []
  | x :: xs => PyVal.sorted x :: PyVal.sortedList xs

def PyVal.sortedItems : Dict → Dict
  | [] => []
  | (k, v) :: kvs => (k, PyVal.sorted v) :: PyVal.sortedItems kvs
end

theorem PyVal.sortedList_eq (xs : List PyVal) : PyVal.sortedList xs = xs.map PyVal.sorted := by
  induction xs with
  | nil => rfl
  | cons x xs ih => simp [PyVal.sortedList, ih]

theorem PyVal.sortedItems_eq (kvs : Dict) :
    PyVal.sortedItems kvs = kvs.map fun kv => (kv.1, kv.2.sorted) := by
  induction kvs with
  | nil => rfl
  | cons kv kvs ih => simp [PyVal.sortedItems, ih]

section
variable {rt : Runtime}

theorem PyVal.dumpsList_eq (xs : List PyVal) :
    PyVal.dumpsList rt xs = xs.map (PyVal.dumps rt) := by
  induction xs with
  | nil => rfl
  | cons x xs ih => simp [PyVal.dumpsList, ih]

theorem PyVal.dumpsItems_eq (kvs : Dict) :
    PyVal.dumpsItems rt kvs = kvs.map fun kv => (kv.1, kv.2.dumps rt) := by
  induction kvs with
  | nil => rfl
  | cons kv kvs ih => simp [PyVal.dumpsItems, ih]

/-- The text of an item of an object. -/
def itemText (rt : Runtime) (kv : String × PyVal) : List Char :=
  (jsonString kv.1).toList ++ ':' :: (kv.2.dumps rt).toList

theorem PyVal.toList_dumps_list (xs : List PyVal) : ((PyVal.list xs).dumps rt).toList =
    '[' :: (List.intercalate [','] (xs.map fun x => (x.dumps rt).toList) ++ [']']) := by
  have hcomma : ("," : String).toList = [','] := rfl
  simp [PyVal.dumps, PyVal.dumpsList_eq, String.toList_intercalate, hcomma, Function.comp_def]

theorem PyVal.toList_dumps_dict (kvs : Dict) : ((PyVal.dict kvs).dumps rt).toList =
    '\x7b' :: (List.intercalate [',']
      ((kvs.insertionSort fun a b => a.1 ≤ b.1).map (itemText rt)) ++ ['\x7d']) := by
  have hcomma : ("," : String).toList = [','] := rfl
  have hsort := List.map_insertionSort (fun a b : String × PyVal => a.1 ≤ b.1)
    (fun a b : String × String => a.1 ≤ b.1) (fun kv => (kv.1, kv.2.dumps rt)) kvs
    (fun _ _ _ _ => Iff.rfl)
  simp only [PyVal.dumps, PyVal.dumpsItems_eq, ← hsort, List.map_map, String.toList_append,
    String.toList_intercalate, hcomma]
  simp only [Function.comp_def, String.toList_append, List.append_assoc]
  rfl

/-- The sign that opens the text of a value, if one does. -/
def PyVal.opening : PyVal → Option Char
  | .str _ => Option.some '"'
  | .list _ => Option.some '['
  | .dict _ => Option.some '\x7b'
  | _ => Option.none

theorem PyVal.atom_of_opening {v : PyVal} (h : v.opening = Option.none) : v.atom = true := by
  rcases v with _ | b | n | x | s | xs | kvs
  · rfl
  · rfl
  · rfl
  · cases x <;> rfl
  all_goals cases h

theorem PyVal.head_text (hrt : FloatTexts rt) (v : PyVal) :
    ∃ c t, (v.dumps rt).toList = c :: t ∧ c ∉ [',', ']', '\x7d'] ∧
      ((v.opening = some c ∧ c ∈ jsonSigns) ∨ (v.opening = Option.none ∧ c ∉ jsonSigns)) := by
  cases hv : v.opening with
  | none =>
    obtain ⟨hne, hsigns⟩ := PyVal.atom_text hrt (PyVal.atom_of_opening hv)
    obtain ⟨c, t, ht⟩ := List.exists_cons_of_ne_nil hne
    have hc := hsigns c (ht ▸ List.mem_cons_self)
    refine ⟨c, t, ht, ?_, .inr ⟨rfl, hc⟩⟩
    exact fun hmem => hc (by simp [jsonSigns] at hmem ⊢; tauto)
  | some sign =>
    rcases v with _ | b | n | x | s | xs | kvs <;> cases hv
    · exact ⟨'"', _, toList_jsonString s, by decide, .inl ⟨rfl, by decide⟩⟩
    · exact ⟨'[', _, PyVal.toList_dumps_list xs, by decide, .inl ⟨rfl, by decide⟩⟩
    · exact ⟨'\x7b', _, PyVal.toList_dumps_dict kvs, by decide, .inl ⟨rfl, by decide⟩⟩

theorem PyVal.opening_eq (hrt : FloatTexts rt) {v w : PyVal} {r r' : List Char}
    (h : (v.dumps rt).toList ++ r = (w.dumps rt).toList ++ r') : v.opening = w.opening := by
  obtain ⟨c, t, hc, -, hv⟩ := PyVal.head_text hrt v
  obtain ⟨d, u, hd, -, hw⟩ := PyVal.head_text hrt w
  rw [hc, hd] at h
  have hcd : c = d := (List.cons.inj h).1
  subst hcd
  rcases hv with ⟨hv, hsign⟩ | ⟨hv, hplain⟩ <;> rcases hw with ⟨hw, hsign'⟩ | ⟨hw, hplain'⟩
  · rw [hv, hw]
  · exact absurd hsign hplain'
  · exact absurd hsign' hplain
  · rw [hv, hw]

theorem append_injective_of_signs {s t r r' : List Char} (hs : ∀ c ∈ s, c ∉ jsonSigns)
    (ht : ∀ c ∈ t, c ∉ jsonSigns) (hr : Ends r) (hr' : Ends r') (h : s ++ r = t ++ r') :
    s = t ∧ r = r' := by
  have htake : ∀ {s r : List Char}, (∀ c ∈ s, c ∉ jsonSigns) → Ends r →
      (s ++ r).takeWhile (fun c => c ∉ jsonSigns) = s := by
    intro s r hs hr
    rw [List.takeWhile_append_of_pos (by simpa using hs)]
    cases r with
    | nil => simp
    | cons c r =>
      have hc : c ∈ jsonSigns := by
        have hend := hr c rfl
        simp only [List.mem_cons, List.not_mem_nil, or_false] at hend
        rcases hend with rfl | rfl | rfl <;> decide
      simp [hc]
  have hst : s = t := by rw [← htake hs hr, h, htake ht hr']
  subst hst
  exact ⟨rfl, List.append_cancel_left h⟩

/-- A value is read back from the front of a text. -/
theorem PyVal.dumps_injective_append (hrt : FloatTexts rt) (v w : PyVal) {r r' : List Char}
    (hr : Ends r) (hr' : Ends r')
    (h : (v.dumps rt).toList ++ r = (w.dumps rt).toList ++ r') : v.sorted = w.sorted ∧ r = r' := by
  induction hn : sizeOf v using Nat.strong_induction_on generalizing v w r r' with
  | _ n ih =>
  have hopening := PyVal.opening_eq hrt h
  cases hv : v.opening with
  | none =>
    have hva := PyVal.atom_of_opening hv
    have hwa := PyVal.atom_of_opening (hopening ▸ hv)
    obtain ⟨htext, hrest⟩ := append_injective_of_signs (PyVal.atom_text hrt hva).2
      (PyVal.atom_text hrt hwa).2 hr hr' h
    exact ⟨congrArg PyVal.sorted (PyVal.atom_injective hrt hva hwa (String.ext htext)), hrest⟩
  | some sign =>
    rcases v with _ | b | n | x | s | xs | kvs <;> cases hv
    · rcases w with _ | b | n | x | t | ys | lws <;> cases hopening
      obtain ⟨rfl, hrest⟩ := jsonString_injective h
      exact ⟨rfl, hrest⟩
    · rcases w with _ | b | n | x | t | ys | lws <;> cases hopening
      rw [PyVal.toList_dumps_list, PyVal.toList_dumps_list] at h
      simp only [List.cons_append, List.append_assoc, List.nil_append, List.cons.injEq,
        true_and] at h
      obtain ⟨hparts, hrest⟩ := intercalate_parts PyVal.sorted (by decide)
        (fun x => (PyVal.head_text hrt x).imp fun c => Exists.imp fun t ht => ⟨ht.1, ht.2.1⟩)
        (fun x hx y r r' hxy hr hr' => by
          have hsize : sizeOf x < sizeOf (PyVal.list xs) := by
            have := List.sizeOf_lt_of_mem hx
            simp only [PyVal.list.sizeOf_spec]
            omega
          exact ih _ (hn ▸ hsize) x y hr hr' hxy rfl) h
      refine ⟨?_, hrest⟩
      rw [PyVal.sorted, PyVal.sorted, PyVal.sortedList_eq, PyVal.sortedList_eq, hparts]
    · rcases w with _ | b | n | x | t | ys | lws <;> cases hopening
      rw [PyVal.toList_dumps_dict, PyVal.toList_dumps_dict] at h
      simp only [List.cons_append, List.append_assoc, List.nil_append, List.cons.injEq,
        true_and] at h
      have hsort : ∀ kvs : Dict, (PyVal.dict kvs).sorted = .dict
          ((kvs.insertionSort fun a b => a.1 ≤ b.1).map fun kv => (kv.1, kv.2.sorted)) := by
        intro kvs
        rw [PyVal.sorted, PyVal.sortedItems_eq, List.map_insertionSort
          (fun a b : String × PyVal => a.1 ≤ b.1) (fun a b : String × PyVal => a.1 ≤ b.1)
          (fun kv => (kv.1, kv.2.sorted)) kvs (fun _ _ _ _ => Iff.rfl)]
      obtain ⟨hparts, hrest⟩ := intercalate_parts (fun kv => (kv.1, kv.2.sorted))
        (by decide)
        (fun kv => ⟨'"', _, by rw [itemText, toList_jsonString]; rfl, by decide⟩)
        (fun kv hkv lw r r' hitem hr hr' => by
          have hmem : kv ∈ kvs := (List.mem_insertionSort _).mp hkv
          have hsize : sizeOf kv.2 < sizeOf (PyVal.dict kvs) := by
            have := List.sizeOf_lt_of_mem hmem
            have hpair : sizeOf kv = 1 + sizeOf kv.1 + sizeOf kv.2 := by cases kv; rfl
            simp only [PyVal.dict.sizeOf_spec]
            omega
          rw [itemText, itemText, List.append_assoc, List.append_assoc] at hitem
          obtain ⟨hkey, hvalue⟩ := jsonString_injective hitem
          obtain ⟨hsame, hrest⟩ := ih _ (hn ▸ hsize) kv.2 lw.2 hr hr' (List.cons.inj hvalue).2 rfl
          exact ⟨Prod.ext hkey hsame, hrest⟩) h
      refine ⟨?_, hrest⟩
      rw [hsort, hsort, hparts]

/-- Values with the same text are the same up to the order of keys. -/
theorem PyVal.dumps_injective (hrt : FloatTexts rt) {v w : PyVal} (h : v.dumps rt = w.dumps rt) :
    v.sorted = w.sorted :=
  have hends : Ends [] := by simp [Ends]
  (PyVal.dumps_injective_append hrt v w hends hends (by rw [h])).1

theorem PyVal.sorted_eq_str {v : PyVal} {s : String} (h : v.sorted = .str s) : v = .str s := by
  cases v <;> simp_all [PyVal.sorted]

/-! ## Entries of objects -/

theorem get_set_of_ne {d : Dict} {k k' : String} (v dflt : PyVal) (h : k' ≠ k) :
    Dict.get (Dict.set d k v) k' dflt = Dict.get d k' dflt := by
  rw [Dict.get, Dict.lookup_set_of_ne v h, Dict.get]

/-- Objects with the same sorted form hold the same entries, up to the order inside. -/
theorem mem_of_sorted_eq {d e : Dict} (h : (PyVal.dict d).sorted = (PyVal.dict e).sorted)
    {k : String} {v : PyVal} (hmem : (k, v) ∈ d) : ∃ w, (k, w) ∈ e ∧ v.sorted = w.sorted := by
  simp only [PyVal.sorted, PyVal.sortedItems_eq, PyVal.dict.injEq] at h
  have hkept : (k, v.sorted) ∈ d.map fun kv => (kv.1, kv.2.sorted) :=
    List.mem_map.mpr ⟨_, hmem, rfl⟩
  rw [← List.mem_insertionSort (fun a b : String × PyVal => a.1 ≤ b.1), h,
    List.mem_insertionSort] at hkept
  obtain ⟨⟨k', w⟩, hkw, heq⟩ := List.mem_map.mp hkept
  obtain ⟨rfl, hw⟩ := Prod.mk.inj heq
  exact ⟨w, hkw, hw.symm⟩

theorem str_mem_of_sorted_eq {d e : Dict} (h : (PyVal.dict d).sorted = (PyVal.dict e).sorted)
    {k s : String} (hmem : (k, PyVal.str s) ∈ d) : (k, PyVal.str s) ∈ e := by
  obtain ⟨w, hw, hsorted⟩ := mem_of_sorted_eq h hmem
  exact PyVal.sorted_eq_str hsorted.symm ▸ hw

/-- The texts that an object holds can be told from its text. -/
theorem mem_of_canonicalJson_eq (hrt : FloatTexts rt) {d e : Dict} {k s : String}
    (h : canonicalJson rt d = canonicalJson rt e) (hmem : (k, PyVal.str s) ∈ d) :
    (k, PyVal.str s) ∈ e :=
  str_mem_of_sorted_eq (PyVal.dumps_injective hrt h) hmem

/-! ## ASCII texts -/

/-- One UTF-16 code unit in a JSON string. -/
def utf16Escape (n : Nat) : List Char :=
  '\\' :: 'u' :: [n / 4096, n / 256, n / 16, n].map fun d => (Nat.toDigits 16 (d % 16)).headD '0'

/-- What `ensure_ascii` makes of a character of a text. -/
def asciiEscape (c : Char) : List Char :=
  if c.toNat < 127 then [c]
  else if c.toNat < 0x10000 then utf16Escape c.toNat
  else utf16Escape (0xd800 + (c.toNat - 0x10000) / 1024) ++
    utf16Escape (0xdc00 + (c.toNat - 0x10000) % 1024)

/-- `json.dumps(v, sort_keys=True, separators=(",", ":"))`. -/
def PyVal.asciiDumps (rt : Runtime) (v : PyVal) : String :=
  String.ofList ((v.dumps rt).toList.flatMap asciiEscape)

/-- The length of a text once it is ASCII. -/
def asciiWidth (s : List Char) : Nat := (s.flatMap asciiEscape).length

@[simp] theorem asciiWidth_nil : asciiWidth [] = 0 := rfl

@[simp] theorem asciiWidth_append (s t : List Char) :
    asciiWidth (s ++ t) = asciiWidth s + asciiWidth t := by
  simp [asciiWidth]

theorem asciiWidth_cons {c : Char} (hc : c.toNat < 127) (s : List Char) :
    asciiWidth (c :: s) = asciiWidth s + 1 := by
  simp [asciiWidth, asciiEscape, hc]

theorem asciiWidth_intercalate (parts : List (List Char)) :
    asciiWidth (List.intercalate [','] parts) = (parts.map asciiWidth).sum + (parts.length - 1) := by
  induction parts with
  | nil => rfl
  | cons part parts ih =>
    cases parts with
    | nil => simp
    | cons next parts =>
      rw [List.intercalate_cons_cons, asciiWidth_append, asciiWidth_append, ih]
      simp [asciiWidth_cons (show ','.toNat < 127 by decide)]
      omega

theorem asciiWidth_list (xs : List PyVal) : asciiWidth ((PyVal.list xs).dumps rt).toList =
    (xs.map fun x => asciiWidth (x.dumps rt).toList).sum + (xs.length - 1) + 2 := by
  rw [PyVal.toList_dumps_list, asciiWidth_cons (by decide), asciiWidth_append,
    asciiWidth_intercalate, asciiWidth_cons (by decide)]
  simp [Function.comp_def]

theorem asciiWidth_dict (kvs : Dict) : asciiWidth ((PyVal.dict kvs).dumps rt).toList =
    (kvs.map fun kv => asciiWidth (itemText rt kv)).sum + (kvs.length - 1) + 2 := by
  rw [PyVal.toList_dumps_dict, asciiWidth_cons (by decide), asciiWidth_append,
    asciiWidth_intercalate, asciiWidth_cons (by decide)]
  have hperm := (List.perm_insertionSort (fun a b : String × PyVal => a.1 ≤ b.1) kvs)
  have hsum := (hperm.map fun kv => asciiWidth (itemText rt kv)).sum_eq
  simp only [List.map_map, Function.comp_def, List.length_map, hperm.length_eq, hsum,
    asciiWidth_nil]

/-- Objects that differ in one value have one text only if its texts are as long. -/
theorem asciiWidth_of_asciiDumps_eq {pre post : Dict} {k : String} {v w : PyVal}
    (h : (PyVal.dict (pre ++ (k, v) :: post)).asciiDumps rt =
      (PyVal.dict (pre ++ (k, w) :: post)).asciiDumps rt) :
    asciiWidth (v.dumps rt).toList = asciiWidth (w.dumps rt).toList := by
  have hwidth := congrArg String.length h
  simp only [PyVal.asciiDumps, String.length_ofList] at hwidth
  change asciiWidth _ = asciiWidth _ at hwidth
  rw [asciiWidth_dict, asciiWidth_dict] at hwidth
  have hcolon : ∀ s, asciiWidth (':' :: s) = asciiWidth s + 1 := asciiWidth_cons (by decide)
  simp only [List.map_append, List.map_cons, List.sum_append, List.sum_cons, List.length_append,
    List.length_cons, itemText, asciiWidth_append, hcolon] at hwidth
  omega

end

/-! ## The ASCII interpreter -/

/-- What the ASCII interpreter writes for a float: an integer, and a mark with what follows. -/
def floatParts : PyFloat → String × List Char
  | .finite q =>
    (toString q.num, if q.den = 1 then ['.', '0'] else '/' :: (toString (q.den : Int)).toList)
  | _ => ("-0", ['.', '0'])

theorem strFloat_parts {x : PyFloat} (hx : (∃ q, x = .finite q) ∨ x = .negZero) :
    (asciiRuntime.strFloat x).toList = (floatParts x).1.toList ++ (floatParts x).2 := by
  have hpoint : (".0" : String).toList = ['.', '0'] := rfl
  have hslash : ("/" : String).toList = ['/'] := rfl
  rcases hx with ⟨q, rfl⟩ | rfl
  · simp only [asciiRuntime, floatParts]
    split
    · rw [String.toList_append, hpoint]
    · rw [String.toList_append, String.toList_append, hslash, List.append_assoc]
      rfl
  · rfl

theorem floatParts_digits (x : PyFloat) :
    ∀ c ∈ (floatParts x).1.toList, c.isDigit = true ∨ c = '-' := by
  cases x with
  | finite q => exact digits_int q.num
  | negZero | inf | negInf | nan =>
    have hzero : ("-0" : String).toList = ['-', '0'] := rfl
    simp [floatParts, hzero]

theorem floatParts_mark (x : PyFloat) : ∃ c t, (floatParts x).2 = c :: t ∧ c ∈ ['.', '/'] ∧
    ∀ d ∈ t, d.isDigit = true ∨ d = '-' := by
  cases x with
  | finite q =>
    simp only [floatParts]
    split
    · exact ⟨'.', ['0'], rfl, by decide, by simp⟩
    · exact ⟨'/', _, rfl, by decide, digits_int _⟩
  | negZero | inf | negInf | nan => exact ⟨'.', ['0'], rfl, by decide, by simp⟩

theorem toString_ne_negZero (n : Int) : toString n ≠ "-0" := by
  intro h
  cases n with
  | ofNat m =>
    have hdigit : '-'.isDigit = true := by
      have hmem : '-' ∈ (Nat.repr m).toList := by
        change '-' ∈ (toString (Int.ofNat m)).toList
        rw [h]
        decide
      rw [Nat.toList_repr] at hmem
      exact Nat.isDigit_of_mem_toDigits (by decide) (by decide) hmem
    revert hdigit
    decide
  | negSucc m =>
    rw [toString_int] at h
    have hzero : Int.repr (Int.negSucc m) = "-" ++ Nat.repr 0 := h
    have hm : Nat.repr (m + 1) = Nat.repr 0 := by
      apply String.ext
      simpa [Int.repr] using congrArg String.toList hzero
    have hint : Int.repr (Int.ofNat (m + 1)) = Int.repr (Int.ofNat 0) := hm
    exact Nat.succ_ne_zero m (Int.ofNat.inj (Int.repr_injective hint))

theorem floatTexts_ascii : FloatTexts asciiRuntime where
  ne_empty q := by
    have hne : ∀ {x : PyFloat}, (∃ q, x = .finite q) ∨ x = .negZero →
        asciiRuntime.strFloat x ≠ "" := by
      intro x hx hempty
      obtain ⟨c, t, ht, -⟩ := floatParts_mark x
      have hparts := strFloat_parts hx
      rw [hempty, ht] at hparts
      simp at hparts
    exact ⟨hne (.inl ⟨q, rfl⟩), hne (.inr rfl)⟩
  numeral x hx c hc := by
    obtain ⟨mark, t, ht, hmark, hdigits⟩ := floatParts_mark x
    rw [strFloat_parts hx, ht, List.mem_append, List.mem_cons] at hc
    have hsign : c.isDigit = true ∨ c = '-' →
        c.isDigit = true ∨ c ∈ ['-', '+', '.', 'e', '/'] := by
      rintro (hdigit | rfl)
      · exact .inl hdigit
      · exact .inr List.mem_cons_self
    rcases hc with hc | rfl | hc
    · exact hsign (floatParts_digits x c hc)
    · right
      simp only [List.mem_cons, List.not_mem_nil, or_false] at hmark ⊢
      rcases hmark with rfl | rfl
      · exact .inr (.inr (.inl rfl))
      · exact .inr (.inr (.inr (.inr rfl)))
    · exact hsign (hdigits c hc)
  marked x hx := by
    obtain ⟨mark, t, ht, hmark, -⟩ := floatParts_mark x
    refine ⟨mark, ?_, ?_⟩
    · rw [strFloat_parts hx, ht]
      simp
    · simp only [List.mem_cons, List.not_mem_nil, or_false] at hmark ⊢
      rcases hmark with rfl | rfl
      · exact .inl rfl
      · exact .inr (.inr rfl)
  injective x y hx hy h := by
    have htake : ∀ {z : PyFloat}, ((floatParts z).1.toList ++ (floatParts z).2).takeWhile
        (fun c => c.isDigit || c == '-') = (floatParts z).1.toList := by
      intro z
      obtain ⟨mark, t, ht, hmark, -⟩ := floatParts_mark z
      rw [ht, List.takeWhile_append_of_pos (by simpa using floatParts_digits z)]
      have hstop : (mark.isDigit || mark == '-') = false := by
        simp only [List.mem_cons, List.not_mem_nil, or_false] at hmark
        rcases hmark with rfl | rfl <;> decide
      simp [hstop]
    have hlist := congrArg String.toList h
    rw [strFloat_parts hx, strFloat_parts hy] at hlist
    have hfirst : (floatParts x).1.toList = (floatParts y).1.toList := by
      rw [← htake, hlist, htake]
    rw [hfirst] at hlist
    have hsecond := List.append_cancel_left hlist
    have hnum := String.ext hfirst
    rcases hx with ⟨q, rfl⟩ | rfl <;> rcases hy with ⟨p, rfl⟩ | rfl
    · simp only [floatParts, toString_int] at hnum hsecond
      have hn := Int.repr_injective hnum
      have hd : q.den = p.den := by
        split_ifs at hsecond with hq hp hp
        · rw [hq, hp]
        · simp at hsecond
        · simp at hsecond
        · have hrepr := Int.repr_injective (String.ext (List.cons.inj hsecond).2)
          exact_mod_cast hrepr
      exact congrArg PyFloat.finite (Rat.ext hn hd)
    · exact absurd hnum (toString_ne_negZero _)
    · exact absurd hnum.symm (toString_ne_negZero _)
    · rfl

/-! ## Lower case -/

/-- Lowering moves the capital letters of ASCII only. -/
theorem toLower_cases (c : Char) : c.toLower = c ∨
    (65 ≤ c.toNat ∧ c.toNat ≤ 90 ∧ c.toLower.toNat = c.toNat + 32) := by
  unfold Char.toLower
  split
  · rename_i hupper
    have hlow : 65 ≤ c.val.toNat ∧ c.val.toNat ≤ 90 := by
      simpa [UInt32.le_iff_toNat_le] using hupper
    refine .inr ⟨hlow.1, hlow.2, ?_⟩
    have hdiff : ('a'.val - 'A'.val) = 32 := by decide
    have hnum : (32 : UInt32).toNat = 32 := rfl
    change (c.val + ('a'.val - 'A'.val)).toNat = c.val.toNat + 32
    rw [hdiff, UInt32.toNat_add]
    omega
  · exact .inl rfl

theorem isSpace_letter {c : Char} (h : 65 ≤ c.toNat) (h' : c.toNat ≤ 122) : isSpace c = false := by
  simp only [isSpace, UInt32.le_iff_toNat_le, Bool.or_eq_false_iff, Bool.and_eq_false_iff,
    decide_eq_false_iff_not, beq_eq_false_iff_ne, ne_eq, ← UInt32.toNat_inj]
  simp
  omega

/-- Lowering an ASCII letter gives no blank, and blanks stay. -/
theorem isSpace_toLower (c : Char) : isSpace c.toLower = isSpace c := by
  rcases toLower_cases c with h | ⟨hlow, hhigh, hnat⟩
  · rw [h]
  · rw [isSpace_letter hlow (by omega), isSpace_letter (by omega) (by omega)]

theorem toLower_toLower (c : Char) : c.toLower.toLower = c.toLower := by
  rcases toLower_cases c with h | ⟨hlow, hhigh, hnat⟩
  · rw [h, h]
  · rcases toLower_cases c.toLower with h | ⟨hlow', hhigh', -⟩
    · exact h
    · omega

theorem strip_lower_ascii (s : String) :
    strip (asciiRuntime.lower s) = asciiRuntime.lower (strip s) := by
  have hcomp : isSpace ∘ Char.toLower = isSpace := funext isSpace_toLower
  change strip (String.ofList (s.toList.map Char.toLower)) =
    String.ofList ((strip s).toList.map Char.toLower)
  unfold strip
  rw [String.toList_ofList, String.toList_ofList, List.dropWhile_map, hcomp, ← List.map_reverse,
    List.dropWhile_map, hcomp, ← List.map_reverse]

theorem lower_lower_ascii (s : String) :
    asciiRuntime.lower (asciiRuntime.lower s) = asciiRuntime.lower s := by
  change String.ofList ((String.ofList (s.toList.map Char.toLower)).toList.map Char.toLower) =
    String.ofList (s.toList.map Char.toLower)
  rw [String.toList_ofList, List.map_map]
  exact congrArg _ (List.map_congr_left fun c _ => toLower_toLower c)

end Vincent.Python
