-- SUMMARY: What Python's json reads back of a value that orjson has written.
import Vincent.Python.Value

/-!
# Values written by orjson

`orjson.dumps` raises on an integer that does not fit 64 bits, and writes a float that
is not finite as `null`. `json.dumps` tells the two apart: its text of a value has
more capital letters than that of the value that is read back, if that is another one.
-/

namespace Vincent.Python

/-- The integer fits 64 bits, signed or unsigned. -/
def fitsOrjson (n : Int) : Prop := -2 ^ 63 ≤ n ∧ n < 2 ^ 64

instance (n : Int) : Decidable (fitsOrjson n) := by
  unfold fitsOrjson
  infer_instance

mutual
/-- `json.loads(orjson.dumps(v))`, or `none` where `orjson.dumps` raises. -/
def PyVal.orjson : PyVal → Option PyVal
  | .int n => if fitsOrjson n then some (.int n) else Option.none
  | .float .nan | .float .inf | .float .negInf => some .none
  | .list xs => (PyVal.orjsonList xs).map .list
  | .dict kvs => (PyVal.orjsonItems kvs).map .dict
  | v => some v

def PyVal.orjsonList : List PyVal → Option (List PyVal)
  | [] => some []
  | x :: xs => do
    let y ← PyVal.orjson x
    let ys ← PyVal.orjsonList xs
    return y :: ys

def PyVal.orjsonItems : Dict → Option Dict
  | [] => some []
  | (k, v) :: kvs => do
    let w ← PyVal.orjson v
    let lws ← PyVal.orjsonItems kvs
    return (k, w) :: lws
end

mutual
/-- All integers in the value fit. -/
def PyVal.encodable : PyVal → Bool
  | .int n => fitsOrjson n
  | .list xs => PyVal.encodableList xs
  | .dict kvs => PyVal.encodableItems kvs
  | _ => true

def PyVal.encodableList : List PyVal → Bool
  | [] => true
  | x :: xs => PyVal.encodable x && PyVal.encodableList xs

def PyVal.encodableItems : Dict → Bool
  | [] => true
  | (_, v) :: kvs => PyVal.encodable v && PyVal.encodableItems kvs
end

mutual
theorem PyVal.orjson_isSome (v : PyVal) : (PyVal.orjson v).isSome = PyVal.encodable v := by
  cases v with
  | int n =>
    simp only [PyVal.orjson, PyVal.encodable]
    split <;> simp_all
  | float x => cases x <;> rfl
  | list xs => simp only [PyVal.orjson, PyVal.encodable, Option.isSome_map, PyVal.orjsonList_isSome xs]
  | dict kvs =>
    simp only [PyVal.orjson, PyVal.encodable, Option.isSome_map, PyVal.orjsonItems_isSome kvs]
  | none | bool | str => rfl

theorem PyVal.orjsonList_isSome (xs : List PyVal) :
    (PyVal.orjsonList xs).isSome = PyVal.encodableList xs := by
  cases xs with
  | nil => rfl
  | cons x xs =>
    rw [PyVal.encodableList, ← PyVal.orjson_isSome x, ← PyVal.orjsonList_isSome xs,
      PyVal.orjsonList]
    cases PyVal.orjson x <;> cases PyVal.orjsonList xs <;> rfl

theorem PyVal.orjsonItems_isSome (kvs : Dict) :
    (PyVal.orjsonItems kvs).isSome = PyVal.encodableItems kvs := by
  cases kvs with
  | nil => rfl
  | cons kv kvs =>
    obtain ⟨k, v⟩ := kv
    rw [PyVal.encodableItems, ← PyVal.orjson_isSome v, ← PyVal.orjsonItems_isSome kvs,
      PyVal.orjsonItems]
    cases PyVal.orjson v <;> cases PyVal.orjsonItems kvs <;> rfl
end

mutual
/-- A value without infinities and NaNs is read back as it was. -/
theorem PyVal.orjson_of_compliant {v : PyVal} (hfits : PyVal.encodable v)
    (hfinite : PyVal.compliant v) : PyVal.orjson v = some v := by
  cases v with
  | int n =>
    have hn : fitsOrjson n := by simpa [PyVal.encodable] using hfits
    simp [PyVal.orjson, hn]
  | float x => cases x <;> simp_all [PyVal.orjson, PyVal.compliant]
  | list xs =>
    rw [PyVal.orjson, PyVal.orjsonList_of_compliant (by simpa [PyVal.encodable] using hfits)
      (by simpa [PyVal.compliant] using hfinite), Option.map_some]
  | dict kvs =>
    rw [PyVal.orjson, PyVal.orjsonItems_of_compliant (by simpa [PyVal.encodable] using hfits)
      (by simpa [PyVal.compliant] using hfinite), Option.map_some]
  | none | bool | str => rfl

theorem PyVal.orjsonList_of_compliant {xs : List PyVal} (hfits : PyVal.encodableList xs)
    (hfinite : PyVal.compliantList xs) : PyVal.orjsonList xs = some xs := by
  cases xs with
  | nil => rfl
  | cons x xs =>
    simp only [PyVal.encodableList, PyVal.compliantList, Bool.and_eq_true] at hfits hfinite
    rw [PyVal.orjsonList, PyVal.orjson_of_compliant hfits.1 hfinite.1,
      PyVal.orjsonList_of_compliant hfits.2 hfinite.2]
    rfl

theorem PyVal.orjsonItems_of_compliant {kvs : Dict} (hfits : PyVal.encodableItems kvs)
    (hfinite : PyVal.compliantItems kvs) : PyVal.orjsonItems kvs = some kvs := by
  cases kvs with
  | nil => rfl
  | cons kv kvs =>
    obtain ⟨k, v⟩ := kv
    simp only [PyVal.encodableItems, PyVal.compliantItems, Bool.and_eq_true] at hfits hfinite
    rw [PyVal.orjsonItems, PyVal.orjson_of_compliant hfits.1 hfinite.1,
      PyVal.orjsonItems_of_compliant hfits.2 hfinite.2]
    rfl
end

/-! ## Telling a value from what is read back of it -/

/-- How many letters `N` and `I` a text has: one in a float that is not finite, none in `null`. -/
def capitals (s : String) : Nat := s.toList.countP fun c => c = 'N' || c = 'I'

@[simp] theorem capitals_append (s t : String) : capitals (s ++ t) = capitals s + capitals t := by
  simp [capitals]

theorem capitals_intercalate {sep : String} (hsep : capitals sep = 0) (texts : List String) :
    capitals (String.intercalate sep texts) = (texts.map capitals).sum := by
  induction texts with
  | nil => simp [String.intercalate_nil, capitals]
  | cons text texts ih =>
    cases texts with
    | nil => simp [String.intercalate_singleton]
    | cons next texts => simp [String.intercalate_cons_cons, hsep, ih]

/-- The capitals of an object do not depend on the order of its keys. -/
theorem capitals_dumps_dict (rt : Runtime) (kvs : Dict) :
    capitals ((PyVal.dict kvs).dumps rt) =
      ((PyVal.dumpsItems rt kvs).map fun kv => capitals (jsonString kv.1) + capitals kv.2).sum := by
  have hperm := List.perm_insertionSort (fun a b : String × String => a.1 ≤ b.1)
    (PyVal.dumpsItems rt kvs)
  have hcolon : capitals ":" = 0 := by decide
  have hopen : capitals "\x7b" = 0 := by decide
  have hclose : capitals "\x7d" = 0 := by decide
  rw [← (hperm.map fun kv => capitals (jsonString kv.1) + capitals kv.2).sum_eq]
  simp only [PyVal.dumps, capitals_append, hopen, hclose, zero_add, add_zero,
    capitals_intercalate (show capitals "," = 0 by decide), List.map_map]
  congr 2
  funext kv
  simp [hcolon]

theorem capitals_dumps_list (rt : Runtime) (xs : List PyVal) :
    capitals ((PyVal.list xs).dumps rt) = ((PyVal.dumpsList rt xs).map capitals).sum := by
  have hopen : capitals "[" = 0 := by decide
  have hclose : capitals "]" = 0 := by decide
  simp only [PyVal.dumps, capitals_append, hopen, hclose, zero_add, add_zero,
    capitals_intercalate (show capitals "," = 0 by decide)]

/-- One for a value that is read back as another one. -/
def lost (compliant : Bool) : Nat := if compliant then 0 else 1

theorem lost_and_le (b c : Bool) : lost (b && c) ≤ lost b + lost c := by
  cases b <;> cases c <;> decide

mutual
theorem PyVal.capitals_orjson (rt : Runtime) {v w : PyVal} (h : PyVal.orjson v = some w) :
    capitals (w.dumps rt) + lost (PyVal.compliant v) ≤ capitals (v.dumps rt) := by
  cases v with
  | int n =>
    simp only [PyVal.orjson] at h
    split at h
    · cases h
      simp [PyVal.compliant, lost]
    · cases h
  | float x =>
    cases x with
    | finite | negZero =>
      cases h
      simp [PyVal.compliant, lost]
    | nan =>
      cases h
      show capitals "null" + 1 ≤ capitals "NaN"
      decide
    | inf =>
      cases h
      show capitals "null" + 1 ≤ capitals "Infinity"
      decide
    | negInf =>
      cases h
      show capitals "null" + 1 ≤ capitals "-Infinity"
      decide
  | list xs =>
    simp only [PyVal.orjson, Option.map_eq_some_iff] at h
    obtain ⟨ys, hys, rfl⟩ := h
    rw [capitals_dumps_list, capitals_dumps_list]
    exact PyVal.capitals_orjsonList rt hys
  | dict kvs =>
    simp only [PyVal.orjson, Option.map_eq_some_iff] at h
    obtain ⟨lws, hlws, rfl⟩ := h
    rw [capitals_dumps_dict, capitals_dumps_dict]
    exact PyVal.capitals_orjsonItems rt hlws
  | none | bool | str =>
    cases h
    simp [PyVal.compliant, lost]

theorem PyVal.capitals_orjsonList (rt : Runtime) {xs ys : List PyVal}
    (h : PyVal.orjsonList xs = some ys) :
    ((PyVal.dumpsList rt ys).map capitals).sum + lost (PyVal.compliantList xs) ≤
      ((PyVal.dumpsList rt xs).map capitals).sum := by
  cases xs with
  | nil =>
    cases h
    simp [PyVal.compliantList, lost]
  | cons x xs =>
    simp only [PyVal.orjsonList, Option.bind_eq_bind, Option.bind_eq_some_iff, Option.pure_def,
      Option.some.injEq] at h
    obtain ⟨y, hy, ys, hys, rfl⟩ := h
    have hhead := PyVal.capitals_orjson rt hy
    have htail := PyVal.capitals_orjsonList rt hys
    have hlost := lost_and_le (PyVal.compliant x) (PyVal.compliantList xs)
    simp only [PyVal.dumpsList, PyVal.compliantList, List.map_cons, List.sum_cons]
    omega

theorem PyVal.capitals_orjsonItems (rt : Runtime) {kvs lws : Dict}
    (h : PyVal.orjsonItems kvs = some lws) :
    ((PyVal.dumpsItems rt lws).map fun kv => capitals (jsonString kv.1) + capitals kv.2).sum +
        lost (PyVal.compliantItems kvs) ≤
      ((PyVal.dumpsItems rt kvs).map fun kv => capitals (jsonString kv.1) + capitals kv.2).sum := by
  cases kvs with
  | nil =>
    cases h
    simp [PyVal.compliantItems, lost, PyVal.dumpsItems]
  | cons kv kvs =>
    obtain ⟨k, v⟩ := kv
    simp only [PyVal.orjsonItems, Option.bind_eq_bind, Option.bind_eq_some_iff, Option.pure_def,
      Option.some.injEq] at h
    obtain ⟨w, hw, lws, hlws, rfl⟩ := h
    have hhead := PyVal.capitals_orjson rt hw
    have htail := PyVal.capitals_orjsonItems rt hlws
    have hlost := lost_and_le (PyVal.compliant v) (PyVal.compliantItems kvs)
    simp only [PyVal.dumpsItems, PyVal.compliantItems, List.map_cons, List.sum_cons]
    omega
end

/-- A payload is read back with the same JSON text exactly when its floats are finite. -/
theorem canonicalJson_orjson_iff (rt : Runtime) {d d' : Dict} (h : PyVal.orjsonItems d = some d') :
    canonicalJson rt d' = canonicalJson rt d ↔ PyVal.compliantItems d = true := by
  constructor
  · intro hsame
    have hdict : PyVal.orjson (.dict d) = some (.dict d') := by rw [PyVal.orjson, h, Option.map_some]
    have hle := PyVal.capitals_orjson rt hdict
    rw [show (PyVal.dict d').dumps rt = (PyVal.dict d).dumps rt from hsame] at hle
    by_contra hlost
    have hfalse : PyVal.compliant (.dict d) = false := by
      simpa [PyVal.compliant] using hlost
    rw [hfalse] at hle
    simp [lost] at hle
  · intro hfinite
    have hfits : PyVal.encodableItems d = true := by
      rw [← PyVal.orjsonItems_isSome, h, Option.isSome_some]
    rw [PyVal.orjsonItems_of_compliant hfits hfinite] at h
    rw [Option.some.inj h]

end Vincent.Python
