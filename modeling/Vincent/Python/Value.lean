-- SUMMARY: Python values as JSON delivers them.
import Mathlib.Data.List.DropRight
import Mathlib.Data.List.Sort
import Mathlib.Data.Rat.Floor

/-!
# Python values

The mesh code is Python over JSON values, which this file gives with the builtins that
the code applies to them. A `float` is a rational, a negative zero, or one of the three
values that are not finite.

What depends on tables of the interpreter (case mapping, the shortest decimal of a
double, the numerals that `int` reads) is a field of `Runtime`.
-/

namespace Vincent.Python

inductive PyFloat where
  | finite (q : ℚ)
  | negZero
  | inf
  | negInf
  | nan
deriving DecidableEq, Repr

inductive PyVal where
  | none
  | bool (b : Bool)
  | int (n : Int)
  | float (x : PyFloat)
  | str (s : String)
  | list (xs : List PyVal)
  | dict (kvs : List (String × PyVal))
deriving Repr

/-- A `dict` with string keys, in insertion order. -/
abbrev Dict := List (String × PyVal)

/-- The interpreter's tables. The law says what `str.lower` does to ASCII, which
    is all that the code relies on. -/
structure Runtime where
  lower : String → String
  upper : String → String
  /-- `repr` of a float, which is also its `str` and its JSON text. -/
  strFloat : PyFloat → String
  /-- `str` of a list or a dict. -/
  strContainer : PyVal → String
  /-- `int(s)`, or `none` for a `ValueError`. -/
  intOfStr : String → Option Int
  /-- `float(s)`, or `none` for a `ValueError`. -/
  floatOfStr : String → Option PyFloat
  /-- `float(n)`, or `none` for an `OverflowError`. -/
  floatOfInt : Int → Option ℚ
  lower_ascii : ∀ s : String, (∀ c ∈ s.toList, c.val < 128) →
    lower s = String.ofList (s.toList.map Char.toLower)

/-! ## Truth and equality -/

/-- `bool(v)`. -/
def PyVal.truthy : PyVal → Bool
  | .none => false
  | .bool b => b
  | .int n => n != 0
  | .float (.finite q) => q != 0
  | .float .negZero => false
  | .float _ => true
  | .str s => s != ""
  | .list xs => !xs.isEmpty
  | .dict kvs => !kvs.isEmpty

/-- `v or w`. -/
def PyVal.or (v w : PyVal) : PyVal := if v.truthy then v else w

/-- The number a finite numeric value stands for. Python compares `True`, `1`
    and `1.0` as equal. -/
def PyVal.rat? : PyVal → Option ℚ
  | .bool b => some (if b then 1 else 0)
  | .int n => some n
  | .float (.finite q) => some q
  | .float .negZero => some 0
  | _ => Option.none

/-- `==` on values that are not strings or containers. Two NaN values count as equal, as one object
does: the code compares a payload with values taken from it. -/
def PyVal.eqScalar : PyVal → PyVal → Bool
  | .none, .none => true
  | .float .inf, .float .inf => true
  | .float .negInf, .float .negInf => true
  | .float .nan, .float .nan => true
  | v, w =>
    match v.rat?, w.rat? with
    | some x, some y => x == y
    | _, _ => false

mutual
/-- `v == w`. Two dicts are equal when they hold the same keys with equal values,
    in any order. -/
def PyVal.eq : PyVal → PyVal → Bool
  | .str s, .str t => s == t
  | .list xs, .list ys => PyVal.eqList xs ys
  | .dict kvs, .dict lws => kvs.length == lws.length && PyVal.eqItems kvs lws
  | v, w => PyVal.eqScalar v w

def PyVal.eqList : List PyVal → List PyVal → Bool
  | [], [] => true
  | x :: xs, y :: ys => PyVal.eq x y && PyVal.eqList xs ys
  | _, _ => false

def PyVal.eqItems : Dict → Dict → Bool
  | [], _ => true
  | (k, v) :: kvs, lws =>
    (match lws.lookup k with
      | some w => PyVal.eq v w
      | Option.none => false) && PyVal.eqItems kvs lws
end

/-- `v in (s₁, s₂, …)` for a tuple of strings. -/
def PyVal.inStrings (v : PyVal) (options : List String) : Bool :=
  options.any fun s => v.eq (.str s)

theorem PyVal.eq_str {s : String} {w : PyVal} (h : PyVal.eq (.str s) w) : w = .str s := by
  cases w <;> simp_all [PyVal.eq, PyVal.eqScalar, PyVal.rat?]

theorem PyVal.rat?_of_eq_int {n : Int} {w : PyVal} (h : PyVal.eq (.int n) w) :
    w.rat?.isSome := by
  cases w with
  | str | list | dict | none => simp [PyVal.eq, PyVal.eqScalar, PyVal.rat?] at h
  | bool | int => simp [PyVal.rat?]
  | float x => cases x <;> simp_all [PyVal.eq, PyVal.eqScalar, PyVal.rat?]

/-! ## Dictionaries -/

namespace Dict

/-- `d.get(k, dflt)`. -/
def get (d : Dict) (k : String) (dflt : PyVal := .none) : PyVal := (d.lookup k).getD dflt

/-- `k in d`. -/
def contains (d : Dict) (k : String) : Bool := (d.lookup k).isSome

/-- `d[k] = v`, which keeps the place of a key that is there. -/
def set (d : Dict) (k : String) (v : PyVal) : Dict :=
  if contains d k then d.map (fun kv => if kv.1 == k then (k, v) else kv) else d ++ [(k, v)]

/-- The dict with each value changed in its place. -/
def mapValues (f : String → PyVal → PyVal) (d : Dict) : Dict := d.map fun kv => (kv.1, f kv.1 kv.2)

theorem get_mapValues {f : String → PyVal → PyVal} {d : Dict} {k : String}
    (hf : f k .none = .none) : get (mapValues f d) k = f k (get d k) := by
  have hlookup : (mapValues f d).lookup k = (d.lookup k).map (f k) := by
    unfold mapValues
    induction d with
    | nil => rfl
    | cons kv d ih =>
      rw [List.map_cons, List.lookup_cons, List.lookup_cons, ih]
      cases hk : k == kv.1 with
      | true =>
        obtain rfl := eq_of_beq hk
        rfl
      | false => rfl
  unfold get
  rw [hlookup]
  cases d.lookup k with
  | none => exact hf.symm
  | some v => rfl

theorem mapValues_self {f : String → PyVal → PyVal} (hf : ∀ k v, f k v = v) (d : Dict) :
    mapValues f d = d := by
  unfold mapValues
  simp [hf]

/-- `d.pop(k, None)`. -/
def pop (d : Dict) (k : String) : Dict := d.filter (fun kv => kv.1 != k)

/-- `d == e`. -/
def eq (d e : Dict) : Bool := d.length == e.length && PyVal.eqItems d e

theorem lookup_isSome {d : Dict} {k : String} :
    (List.lookup k d).isSome ↔ ∃ v, (k, v) ∈ d := by
  induction d with
  | nil => simp
  | cons kv d ih =>
    obtain ⟨k', v⟩ := kv
    by_cases h : k = k'
    · subst h; simp
    · have hbeq : (k == k') = false := by simpa using h
      simp [List.lookup_cons, hbeq, ih, h]

theorem pop_of_not_contains {d : Dict} {k : String} (h : contains d k = false) :
    pop d k = d := by
  apply List.filter_eq_self.mpr
  rintro ⟨k', v⟩ hmem
  have hne : k' ≠ k := by
    rintro rfl
    have hsome : (List.lookup k' d).isSome := lookup_isSome.mpr ⟨v, hmem⟩
    rw [contains, hsome] at h
    exact absurd h (by decide)
  simpa using hne

theorem exists_of_eqItems {d e : Dict} (h : PyVal.eqItems d e) {k : String} {v : PyVal}
    (hget : List.lookup k d = some v) : ∃ w, List.lookup k e = some w ∧ PyVal.eq v w := by
  induction d with
  | nil => simp at hget
  | cons kv d ih =>
    obtain ⟨k', v'⟩ := kv
    simp only [PyVal.eqItems, Bool.and_eq_true] at h
    by_cases hk : k = k'
    · subst hk
      simp only [List.lookup_cons_self, Option.some.injEq] at hget
      subst hget
      cases hlook : List.lookup k e with
      | none => simp [hlook] at h
      | some w => exact ⟨w, rfl, by simpa [hlook] using h.1⟩
    · have hbeq : (k == k') = false := by simpa using hk
      simp only [List.lookup_cons, hbeq] at hget
      exact ih h.2 hget

theorem exists_of_eq {d e : Dict} (h : eq d e) {k : String} {v : PyVal}
    (hget : List.lookup k d = some v) : ∃ w, List.lookup k e = some w ∧ PyVal.eq v w := by
  simp only [eq, Bool.and_eq_true] at h
  exact exists_of_eqItems h.2 hget

theorem lookup_set_of_ne {d : Dict} {k k' : String} (v : PyVal) (h : k' ≠ k) :
    List.lookup k' (set d k v) = List.lookup k' d := by
  have hne : (k' == k) = false := by simpa using h
  unfold set
  split
  · clear * - hne
    induction d with
    | nil => rfl
    | cons kv d ih =>
      obtain ⟨key, w⟩ := kv
      by_cases hk : key = k
      · subst hk
        simpa [List.lookup_cons, hne] using ih
      · simp only [List.map_cons, beq_iff_eq, hk, if_false, List.lookup_cons]
        split
        · rfl
        · simpa using ih
  · simp [List.lookup_append, List.lookup_cons, hne]

theorem lookup_set_self (d : Dict) (k : String) (v : PyVal) :
    List.lookup k (set d k v) = some v := by
  unfold set
  split
  · rename_i hcontains
    unfold contains at hcontains
    induction d with
    | nil => simp at hcontains
    | cons kv d ih =>
      obtain ⟨key, w⟩ := kv
      by_cases hk : key = k
      · subst hk
        simp
      · have hne : (k == key) = false := by simpa using Ne.symm hk
        simp only [List.lookup_cons, hne] at hcontains
        simpa [hk, List.lookup_cons, hne] using ih hcontains
  · rename_i hcontains
    have hnone : List.lookup k d = none := by
      cases hlookup : List.lookup k d with
      | none => rfl
      | some w => simp [contains, hlookup] at hcontains
    simp [List.lookup_append, hnone]

theorem keys_set {d : Dict} {k : String} (v : PyVal) (h : contains d k = true) :
    (set d k v).map Prod.fst = d.map Prod.fst := by
  unfold set
  rw [if_pos h, List.map_map]
  apply List.map_congr_left
  intro kv _
  simp only [Function.comp_apply]
  split
  · rename_i heq
    exact (beq_iff_eq.mp heq).symm
  · rfl

end Dict

/-! ## Text -/

/-- `str.isspace` on one character. -/
def isSpace (c : Char) : Bool :=
  (9 ≤ c.val && c.val ≤ 13) || (28 ≤ c.val && c.val ≤ 32) || c.val == 0x85 || c.val == 0xa0 ||
  c.val == 0x1680 || (0x2000 ≤ c.val && c.val ≤ 0x200a) || c.val == 0x2028 || c.val == 0x2029 ||
  c.val == 0x202f || c.val == 0x205f || c.val == 0x3000

/-- `s.strip()`. -/
def strip (s : String) : String :=
  String.ofList (((s.toList.dropWhile isSpace).reverse.dropWhile isSpace).reverse)

theorem strip_strip (s : String) : strip (strip s) = strip s := by
  unfold strip
  rw [String.toList_ofList]
  set l := s.toList.dropWhile isSpace
  have hleft : (l.rdropWhile isSpace).dropWhile isSpace = l.rdropWhile isSpace := by
    rw [List.dropWhile_eq_self_iff]
    intro hpos
    have hstart : l.rdropWhile isSpace <+: l := List.rdropWhile_prefix _ _
    have hl : 0 < l.length := hpos.trans_le hstart.length_le
    have hhead := List.dropWhile_get_zero_not isSpace s.toList hl
    simpa [hstart.getElem hpos] using hhead
  have hright := List.rdropWhile_idempotent isSpace l
  simp only [List.rdropWhile] at hleft hright ⊢
  rw [hleft, hright]

theorem strip_of_no_space {s : String} (h : ∀ c ∈ s.toList, isSpace c = false) : strip s = s := by
  have hkeep : ∀ l : List Char, (∀ c ∈ l, isSpace c = false) → l.dropWhile isSpace = l := by
    intro l hl
    rw [List.dropWhile_eq_self_iff]
    intro hpos
    simpa using hl _ (List.getElem_mem hpos)
  unfold strip
  rw [hkeep _ h, hkeep _ fun c hc => h c (List.mem_reverse.mp hc), List.reverse_reverse,
    String.ofList_toList]

/-- `s[:n]`. -/
def slice (s : String) (n : Nat) : String := String.ofList (s.toList.take n)

/-- `s.startswith(p)`. -/
def startsWith (s p : String) : Bool := p.toList.isPrefixOf s.toList

/-- `str(v)`. -/
def PyVal.toStr (rt : Runtime) : PyVal → String
  | .none => "None"
  | .bool b => if b then "True" else "False"
  | .int n => toString n
  | .float x => rt.strFloat x
  | .str s => s
  | v => rt.strContainer v

/-- What the code writes as `str(d.get(k, "") or "")`. -/
def Dict.text (rt : Runtime) (d : Dict) (k : String) : String :=
  ((Dict.get d k (.str "")).or (.str "")).toStr rt

theorem Dict.text_of_str {rt : Runtime} {d : Dict} {k s : String}
    (h : Dict.get d k (.str "") = .str s) : Dict.text rt d k = s := by
  rw [Dict.text, h]
  by_cases hs : s = "" <;> simp [PyVal.or, PyVal.truthy, PyVal.toStr, hs]

/-! ## Numbers -/

/-- `_safe_int(v, dflt)`: `int(v)`, with the default but for an `OverflowError`. -/
def safeInt (rt : Runtime) (v : PyVal) (dflt : Int) : Except String Int :=
  match v with
  | .bool b => .ok (if b then 1 else 0)
  | .int n => .ok n
  | .float (.finite q) => .ok (q.num.tdiv q.den)
  | .float .negZero => .ok 0
  | .float .nan => .ok dflt
  | .float _ => .error "OverflowError"
  | .str s => .ok ((rt.intOfStr s).getD dflt)
  | _ => .ok dflt

/-- `int` does not raise on a finite number. -/
theorem safeInt_of_rat? (rt : Runtime) {v : PyVal} (h : v.rat?.isSome) (dflt : Int) :
    ∃ n, safeInt rt v dflt = .ok n := by
  cases v with
  | bool b => exact ⟨_, rfl⟩
  | int n => exact ⟨_, rfl⟩
  | float x => cases x <;> simp_all [PyVal.rat?, safeInt]
  | _ => simp [PyVal.rat?] at h

theorem PyVal.or_rat? {v : PyVal} (h : v.rat?.isSome) (n : Int) : (v.or (.int n)).rat?.isSome := by
  unfold PyVal.or
  split
  · exact h
  · rfl

/-- `float(v)`, or `none` for any exception. -/
def toFloat (rt : Runtime) : PyVal → Option PyFloat
  | .bool b => some (.finite (if b then 1 else 0))
  | .int n => (rt.floatOfInt n).map .finite
  | .float x => some x
  | .str s => rt.floatOfStr s
  | _ => none

/-! ## JSON -/

private def hexDigit (n : Nat) : Char := (Nat.toDigits 16 n).headD '0'

/-- One character inside a JSON string, with `ensure_ascii=False`. -/
def jsonEscape (c : Char) : String :=
  if c == '"' then "\\\""
  else if c == '\\' then "\\\\"
  else if c == '\n' then "\\n"
  else if c == '\r' then "\\r"
  else if c == '\t' then "\\t"
  else if c.val == 8 then "\\b"
  else if c.val == 12 then "\\f"
  else if c.val < 32 then
    "\\u00" ++ String.ofList [hexDigit (c.toNat / 16), hexDigit (c.toNat % 16)]
  else c.toString

def jsonString (s : String) : String := "\"" ++ String.join (s.toList.map jsonEscape) ++ "\""

mutual
/-- `json.dumps(v, sort_keys=True, separators=(",", ":"), ensure_ascii=False)`. -/
def PyVal.dumps (rt : Runtime) : PyVal → String
  | .none => "null"
  | .bool b => if b then "true" else "false"
  | .int n => toString n
  | .float .nan => "NaN"
  | .float .inf => "Infinity"
  | .float .negInf => "-Infinity"
  | .float x => rt.strFloat x
  | .str s => jsonString s
  | .list xs => "[" ++ String.intercalate "," (PyVal.dumpsList rt xs) ++ "]"
  | .dict kvs =>
    let items := (PyVal.dumpsItems rt kvs).insertionSort (fun a b => a.1 ≤ b.1)
    "\x7b" ++ String.intercalate "," (items.map fun kv => jsonString kv.1 ++ ":" ++ kv.2) ++ "\x7d"

def PyVal.dumpsList (rt : Runtime) : List PyVal → List String
  | [] => []
  | x :: xs => PyVal.dumps rt x :: PyVal.dumpsList rt xs

def PyVal.dumpsItems (rt : Runtime) : Dict → List (String × String)
  | [] => []
  | (k, v) :: kvs => (k, PyVal.dumps rt v) :: PyVal.dumpsItems rt kvs
end

/-- `canonical_json(d)`. -/
def canonicalJson (rt : Runtime) (d : Dict) : String := (PyVal.dict d).dumps rt

mutual
/-- The value holds no infinity and no NaN, so `json.dumps(v, allow_nan=False)` writes it. -/
def PyVal.compliant : PyVal → Bool
  | .float (.finite _) | .float .negZero => true
  | .float _ => false
  | .list xs => PyVal.compliantList xs
  | .dict kvs => PyVal.compliantItems kvs
  | _ => true

def PyVal.compliantList : List PyVal → Bool
  | [] => true
  | x :: xs => PyVal.compliant x && PyVal.compliantList xs

def PyVal.compliantItems : Dict → Bool
  | [] => true
  | (_, v) :: kvs => PyVal.compliant v && PyVal.compliantItems kvs
end

/-! ## A concrete interpreter -/

private def asciiUpper (c : Char) : Char := if 'a' ≤ c ∧ c ≤ 'z' then Char.ofNat (c.toNat - 32) else c

/-- The builtins on ASCII text, decimal numerals and whole floats. -/
def asciiRuntime : Runtime where
  lower s := String.ofList (s.toList.map Char.toLower)
  upper s := String.ofList (s.toList.map asciiUpper)
  strFloat
    | .finite q => if q.den = 1 then toString q.num ++ ".0" else toString q.num ++ "/" ++ toString q.den
    | .negZero => "-0.0"
    | .inf => "inf"
    | .negInf => "-inf"
    | .nan => "nan"
  strContainer _ := "[...]"
  intOfStr s :=
    if s.toList ≠ [] ∧ s.toList.all Char.isDigit then
      some (s.toList.foldl (fun n c => 10 * n + (c.toNat - 48 : Nat)) 0 : Nat)
    else none
  floatOfStr _ := none
  floatOfInt n := some n
  lower_ascii _ _ := rfl

end Vincent.Python
