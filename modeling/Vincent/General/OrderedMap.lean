-- SUMMARY: Maps in insertion order, and what a fold that changes them leaves at each key.
import Mathlib.Data.List.Nodup

/-!
# Maps in insertion order

A map is a list of keys with values, each key where it was first set. `upsert` sets a
key from what it held, `modify` changes one that is there. `lookup_fold` reads a pass
of upserts back: a key holds what its own elements make of it.
-/

namespace Vincent

/-- A map from keys to values, in insertion order. -/
abbrev OrderedMap (κ ν : Type) := List (κ × ν)

namespace OrderedMap

variable {α κ ν : Type} [DecidableEq κ]

/-- Set a key from what it held. -/
def upsert (k : κ) (f : Option ν → ν) : OrderedMap κ ν → OrderedMap κ ν
  | [] => [(k, f none)]
  | (k', v) :: m => if k' = k then (k', f (some v)) :: m else (k', v) :: upsert k f m

/-- Set a key. -/
def insert (k : κ) (v : ν) (m : OrderedMap κ ν) : OrderedMap κ ν := upsert k (fun _ => v) m

/-- Change what a key holds, if it is there. -/
def modify (k : κ) (f : ν → ν) (m : OrderedMap κ ν) : OrderedMap κ ν :=
  m.map fun kv => if kv.1 = k then (kv.1, f kv.2) else kv

/-- The values in order. -/
def values (m : OrderedMap κ ν) : List ν := m.map Prod.snd

/-- No key stands twice. -/
def Distinct (m : OrderedMap κ ν) : Prop := (m.map Prod.fst).Nodup

variable {k k' : κ} {f : Option ν → ν} {g : ν → ν} {v : ν} {m : OrderedMap κ ν}

/-! ## Lookup -/

theorem lookup_entry : List.lookup k' ((k, v) :: m) = if k' = k then some v else m.lookup k' := by
  rw [List.lookup_cons]
  by_cases h : k' = k
  · simp [h]
  · have hbeq : (k' == k) = false := by simpa using h
    simp [hbeq, h]

@[simp] theorem lookup_upsert :
    (upsert k f m).lookup k' = if k' = k then some (f (m.lookup k)) else m.lookup k' := by
  induction m with
  | nil =>
    unfold upsert
    rw [lookup_entry]
    rfl
  | cons entry m ih =>
    obtain ⟨key, w⟩ := entry
    unfold upsert
    by_cases hkey : key = k
    · subst hkey
      simp only [if_true, lookup_entry]
      split <;> rfl
    · simp only [if_neg hkey, lookup_entry, ih, if_neg (Ne.symm hkey)]
      split
      · rename_i hk'
        subst hk'
        rw [if_neg hkey]
      · rfl

@[simp] theorem lookup_insert :
    (insert k v m).lookup k' = if k' = k then some v else m.lookup k' := lookup_upsert

@[simp] theorem lookup_modify :
    (modify k g m).lookup k' = if k' = k then (m.lookup k).map g else m.lookup k' := by
  induction m with
  | nil => simp [modify]
  | cons entry m ih =>
    obtain ⟨key, w⟩ := entry
    have hcons : modify k g ((key, w) :: m) =
        (if key = k then (key, g w) else (key, w)) :: modify k g m := rfl
    rw [hcons]
    by_cases hkey : key = k
    · subst hkey
      simp only [if_true, lookup_entry, ih]
      split <;> rfl
    · simp only [if_neg hkey, lookup_entry, ih, if_neg (Ne.symm hkey)]
      split
      · rename_i hk'
        subst hk'
        rw [if_neg hkey]
      · rfl

/-! ## Keys -/

theorem keys_upsert : (upsert k f m).map Prod.fst =
    if k ∈ m.map Prod.fst then m.map Prod.fst else m.map Prod.fst ++ [k] := by
  induction m with
  | nil => simp [upsert]
  | cons entry m ih =>
    obtain ⟨key, w⟩ := entry
    unfold upsert
    by_cases hkey : key = k
    · simp [hkey]
    · simp only [if_neg hkey, List.map_cons, ih, List.mem_cons, Ne.symm hkey, false_or]
      split <;> simp

theorem length_insert_le : (insert k v m).length ≤ m.length + 1 := by
  unfold insert
  have hkeys : (upsert k (fun _ => v) m).map Prod.fst = _ := keys_upsert
  have hlength := congrArg List.length hkeys
  rw [List.length_map] at hlength
  rw [hlength]
  split <;> simp

/-- Removing a key leaves the others alone. -/
theorem lookup_filter_ne (h : k' ≠ k) :
    (m.filter fun kv => kv.1 ≠ k).lookup k' = m.lookup k' := by
  induction m with
  | nil => rfl
  | cons entry m ih =>
    obtain ⟨key, w⟩ := entry
    rw [lookup_entry]
    by_cases hkey : key = k
    · have hne : k' ≠ key := hkey ▸ h
      rw [if_neg hne, List.filter_cons_of_neg (by simpa using hkey), ih]
    · rw [List.filter_cons_of_pos (by simpa using hkey), lookup_entry, ih]

/-- What is left after a key is removed was there. -/
theorem lookup_filter_self : (m.filter fun kv => kv.1 ≠ k).lookup k = none := by
  induction m with
  | nil => rfl
  | cons entry m ih =>
    obtain ⟨key, w⟩ := entry
    by_cases hkey : key = k
    · rw [List.filter_cons_of_neg (by simpa using hkey), ih]
    · rw [List.filter_cons_of_pos (by simpa using hkey), lookup_entry, if_neg (Ne.symm hkey), ih]

@[simp] theorem keys_modify : (modify k g m).map Prod.fst = m.map Prod.fst := by
  unfold modify
  rw [List.map_map]
  apply List.map_congr_left
  intro kv _
  simp only [Function.comp_apply]
  split <;> rfl

omit [DecidableEq κ] in
theorem distinct_nil : Distinct ([] : OrderedMap κ ν) := List.nodup_nil

theorem Distinct.upsert (h : m.Distinct) : (upsert k f m).Distinct := by
  unfold Distinct
  rw [keys_upsert]
  split
  · exact h
  · rename_i hk
    exact List.Nodup.append h (List.nodup_singleton k) (by simpa using hk)

theorem Distinct.modify (h : m.Distinct) : (modify k g m).Distinct := by
  unfold Distinct
  rw [keys_modify]
  exact h

/-- In a map with distinct keys, each entry is what its key holds. -/
theorem Distinct.mem_iff (h : m.Distinct) : (k, v) ∈ m ↔ m.lookup k = some v := by
  induction m with
  | nil => simp
  | cons entry m ih =>
    obtain ⟨key, w⟩ := entry
    have hrest : Distinct m := (List.nodup_cons.mp h).2
    have hkey : key ∉ m.map Prod.fst := (List.nodup_cons.mp h).1
    rw [List.mem_cons, ih hrest, lookup_entry]
    by_cases hk : k = key
    · subst hk
      have hnone : m.lookup k = none := by
        rw [List.lookup_eq_none_iff]
        intro kv hkv
        have hne : k ≠ kv.1 := fun heq => hkey (List.mem_map.mpr ⟨kv, hkv, heq.symm⟩)
        simpa using hne
      simp [hnone, eq_comm]
    · simp [hk]

/-! ## Folds -/

/-- A pass that upserts at the key of each element that has one. -/
def fold (key : α → Option κ) (f : α → Option ν → ν) (xs : List α) (m : OrderedMap κ ν) :
    OrderedMap κ ν :=
  xs.foldl (fun m x => match key x with
    | none => m
    | some k => upsert k (f x) m) m

/-- A key holds what its own elements make of it. -/
theorem lookup_fold {key : α → Option κ} {f : α → Option ν → ν} (xs : List α) :
    (fold key f xs m).lookup k =
      (xs.filter fun x => key x = some k).foldl (fun held x => some (f x held)) (m.lookup k) := by
  induction xs generalizing m with
  | nil => rfl
  | cons x xs ih =>
    have hstep : fold key f (x :: xs) m = fold key f xs (match key x with
      | none => m
      | some k => upsert k (f x) m) := rfl
    rw [hstep, ih]
    cases hkey : key x with
    | none => simp [hkey]
    | some k' =>
      by_cases hk : k = k'
      · subst hk
        simp [hkey]
      · simp [hkey, hk, Ne.symm hk]

theorem Distinct.fold {key : α → Option κ} {f : α → Option ν → ν} (xs : List α) (h : m.Distinct) :
    (fold key f xs m).Distinct := by
  induction xs generalizing m with
  | nil => exact h
  | cons x xs ih =>
    apply ih
    dsimp only
    cases key x with
    | none => exact h
    | some k => exact h.upsert

theorem fold_append {key : α → Option κ} {f : α → Option ν → ν} (xs ys : List α) :
    fold key f (xs ++ ys) m = fold key f ys (fold key f xs m) := List.foldl_append

/-- Which keys a pass leaves, and in which order, does not depend on the values. -/
theorem keys_fold {key : α → Option κ} {f : α → Option ν → ν} {m' : OrderedMap κ ν} (xs : List α)
    (h : m.map Prod.fst = m'.map Prod.fst) :
    (fold key f xs m).map Prod.fst = (fold key f xs m').map Prod.fst := by
  induction xs generalizing m m' with
  | nil => exact h
  | cons x xs ih =>
    apply ih
    dsimp only
    cases key x with
    | none => exact h
    | some k => simp only [keys_upsert, h]

/-- An element whose key is there already leaves no new key. -/
theorem keys_fold_insert {key : α → Option κ} {f : α → Option ν → ν} {pre post : List α} {x : α}
    (hx : ∃ y ∈ pre, key y = key x) :
    (fold key f (pre ++ x :: post) m).map Prod.fst =
      (fold key f (pre ++ post) m).map Prod.fst := by
  rw [fold_append, fold_append]
  apply @keys_fold _ _ _ _ _ key f _ post
  dsimp only
  cases hkey : key x with
  | none => rfl
  | some k =>
    obtain ⟨y, hy, hsame⟩ := hx
    have hthere : k ∈ (fold key f pre m).map Prod.fst := by
      by_contra hnot
      have hnone : (fold key f pre m).lookup k = none := by
        rw [List.lookup_eq_none_iff]
        intro kv hkv
        have hne : k ≠ kv.1 := fun heq => hnot (heq ▸ List.mem_map_of_mem hkv)
        simpa using hne
      rw [lookup_fold] at hnone
      have hmem : y ∈ pre.filter fun y => key y = some k := by
        simp [hy, hsame, hkey]
      obtain ⟨ys, z, hys⟩ := List.eq_nil_or_concat'
        (pre.filter fun y => key y = some k) |>.resolve_left (List.ne_nil_of_mem hmem)
      rw [hys, List.foldl_append] at hnone
      cases hnone
    exact keys_upsert.trans (if_pos hthere)

/-- A new key comes last. -/
theorem insert_new (h : k ∉ m.map Prod.fst) : insert k v m = m ++ [(k, v)] := by
  unfold insert
  induction m with
  | nil => rfl
  | cons entry m ih =>
    rw [List.map_cons, List.mem_cons, not_or] at h
    rw [upsert, if_neg (Ne.symm h.1), ih h.2]
    rfl

/-- A pass over values with keys of their own lists them. -/
theorem fold_new {name : ν → κ} {vs : List ν} (h : (m.map Prod.fst ++ vs.map name).Nodup) :
    fold (fun v => some (name v)) (fun v _ => v) vs m = m ++ vs.map fun v => (name v, v) := by
  induction vs generalizing m with
  | nil => exact (List.append_nil m).symm
  | cons v vs ih =>
    have hstep : fold (fun v => some (name v)) (fun v _ => v) (v :: vs) m =
        fold (fun v => some (name v)) (fun v _ => v) vs (insert (name v) v m) := rfl
    have hnew : name v ∉ m.map Prod.fst := by
      rw [List.map_cons, List.nodup_append'] at h
      exact fun hmem => h.2.2 hmem List.mem_cons_self
    rw [hstep, insert_new hnew, ih (by simpa using h)]
    simp

/-- A map with distinct keys is given by its keys in order and by what they hold. -/
theorem Distinct.ext {m' : OrderedMap κ ν} (h : m.Distinct)
    (hkeys : m.map Prod.fst = m'.map Prod.fst) (hlookup : ∀ k, m.lookup k = m'.lookup k) :
    m = m' := by
  induction m generalizing m' with
  | nil => exact (List.map_eq_nil_iff.mp hkeys.symm).symm
  | cons entry m ih =>
    obtain ⟨k, v⟩ := entry
    cases m' with
    | nil => cases hkeys
    | cons entry' m' =>
      obtain ⟨k', v'⟩ := entry'
      obtain ⟨rfl, hrest⟩ := List.cons.inj hkeys
      have hfirst : k ∉ m.map Prod.fst := (List.nodup_cons.mp h).1
      have hv := hlookup k
      rw [lookup_entry, lookup_entry, if_pos rfl, if_pos rfl] at hv
      obtain rfl := Option.some.inj hv
      have habsent : ∀ n : OrderedMap κ ν, k ∉ n.map Prod.fst → n.lookup k = none := by
        intro n hn
        rw [List.lookup_eq_none_iff]
        intro kv hkv
        have hne : k ≠ kv.1 := fun heq => hn (heq ▸ List.mem_map_of_mem hkv)
        simpa using hne
      rw [ih (List.nodup_cons.mp h).2 hrest]
      intro j
      rcases eq_or_ne j k with rfl | hj
      · rw [habsent m hfirst, habsent m' (hrest ▸ hfirst)]
      · have hj' := hlookup j
        rw [lookup_entry, lookup_entry, if_neg hj, if_neg hj] at hj'
        exact hj'

/-- The map with each value changed. -/
def mapValues (g : ν → ν) (m : OrderedMap κ ν) : OrderedMap κ ν := m.map fun kv => (kv.1, g kv.2)

omit [DecidableEq κ] in
theorem values_mapValues : (mapValues g m).values = m.values.map g := by
  simp [mapValues, values, Function.comp_def]

theorem upsert_mapValues {f' : Option ν → ν} (hf : ∀ held, f' (held.map g) = g (f held)) :
    upsert k f' (mapValues g m) = mapValues g (upsert k f m) := by
  induction m with
  | nil => exact congrArg (fun v => [(k, v)]) (hf none)
  | cons entry m ih =>
    obtain ⟨key, v⟩ := entry
    have hcons : mapValues g ((key, v) :: m) = (key, g v) :: mapValues g m := rfl
    rw [hcons]
    unfold upsert
    split
    · exact congrArg (fun w => (key, w) :: mapValues g m) (hf (some v))
    · exact congrArg (fun rest => (key, g v) :: rest) ih

/-- A pass over changed elements leaves changed values, if the elements keep their keys. -/
theorem fold_mapValues {key : α → Option κ} {f : α → Option ν → ν} {h : α → α}
    (hkey : ∀ x, key (h x) = key x) (hf : ∀ x held, f (h x) (held.map g) = g (f x held))
    (xs : List α) : fold key f (xs.map h) (mapValues g m) = mapValues g (fold key f xs m) := by
  induction xs generalizing m with
  | nil => rfl
  | cons x xs ih =>
    have hstep : ∀ y ys n, fold key f (y :: ys) n = fold key f ys (match key y with
      | none => n
      | some k => upsert k (f y) n) := fun _ _ _ => rfl
    rw [List.map_cons, hstep, hstep, hkey]
    cases hk : key x with
    | none => exact ih
    | some k =>
      dsimp only
      rw [upsert_mapValues (hf x), ih]

/-- A pass that changes what the key of each element holds. -/
def modifyAll (key : α → κ) (g : α → ν → ν) (xs : List α) (m : OrderedMap κ ν) :
    OrderedMap κ ν :=
  xs.foldl (fun m x => modify (key x) (g x) m) m

theorem lookup_modifyAll {key : α → κ} {g : α → ν → ν} (xs : List α) :
    (modifyAll key g xs m).lookup k =
      (m.lookup k).map fun v => (xs.filter fun x => key x = k).foldl (fun v x => g x v) v := by
  induction xs generalizing m with
  | nil => simp [modifyAll]
  | cons x xs ih =>
    have hstep : modifyAll key g (x :: xs) m = modifyAll key g xs (modify (key x) (g x) m) := rfl
    rw [hstep, ih, lookup_modify]
    by_cases hk : k = key x
    · subst hk
      simp [Option.map_map, Function.comp_def]
    · simp [hk, Ne.symm hk]

theorem Distinct.modifyAll {key : α → κ} {g : α → ν → ν} (xs : List α) (h : m.Distinct) :
    (modifyAll key g xs m).Distinct := by
  induction xs generalizing m with
  | nil => exact h
  | cons x xs ih => exact ih h.modify

/-- A map that keeps each value under a key of its own is read by its values. -/
theorem Distinct.mem_values_iff {name : ν → κ} (h : m.Distinct)
    (hname : ∀ k v, m.lookup k = some v → name v = k) :
    v ∈ m.values ↔ m.lookup (name v) = some v := by
  unfold values
  constructor
  · intro hv
    obtain ⟨⟨k, w⟩, hmem, rfl⟩ := List.mem_map.mp hv
    have hlook : m.lookup k = some w := h.mem_iff.mp hmem
    rw [hname k w hlook]
    exact hlook
  · intro hlook
    exact List.mem_map.mpr ⟨(name v, v), h.mem_iff.mpr hlook, rfl⟩

/-! ## Setting a key again -/

theorem mem_of_lookup (h : m.lookup k = some v) : (k, v) ∈ m := by
  induction m with
  | nil => cases h
  | cons entry m ih =>
    obtain ⟨key, w⟩ := entry
    rw [lookup_entry] at h
    split at h
    · rename_i hk
      cases h
      exact hk ▸ List.mem_cons_self
    · exact List.mem_cons_of_mem _ (ih h)

theorem mem_values_of_lookup (h : m.lookup k = some v) : v ∈ m.values :=
  List.mem_map_of_mem (mem_of_lookup h)

/-- An entry of a map in which a key was set is the new one or an old one. -/
theorem mem_insert {entry : κ × ν} (h : entry ∈ insert k v m) : entry = (k, v) ∨ entry ∈ m := by
  unfold insert at h
  induction m with
  | nil => exact .inl (List.mem_singleton.mp h)
  | cons first m ih =>
    unfold upsert at h
    split at h
    · rename_i hkey
      rcases List.mem_cons.mp h with heq | hmem
      · exact .inl (hkey ▸ heq)
      · exact .inr (List.mem_cons_of_mem _ hmem)
    · rcases List.mem_cons.mp h with heq | hmem
      · exact .inr (heq ▸ List.mem_cons_self)
      · exact (ih hmem).imp_right (List.mem_cons_of_mem _)

/-- What a map holds is written back for nothing. -/
theorem insert_of_lookup (h : m.lookup k = some v) : insert k v m = m := by
  induction m with
  | nil => cases h
  | cons entry m ih =>
    obtain ⟨key, w⟩ := entry
    unfold insert upsert
    rw [lookup_entry] at h
    by_cases hkey : key = k
    · rw [if_pos hkey.symm] at h
      cases h
      rw [if_pos hkey]
    · rw [if_neg (Ne.symm hkey)] at h
      rw [if_neg hkey]
      exact congrArg _ (ih h)

/-- The last value that is set for a key counts. -/
theorem insert_insert {w : ν} : insert k v (insert k w m) = insert k v m := by
  unfold insert
  induction m with
  | nil => simp [upsert]
  | cons entry m ih =>
    obtain ⟨key, u⟩ := entry
    by_cases hkey : key = k
    · simp only [upsert, if_pos hkey]
    · simp only [upsert, if_neg hkey, ih]

/-- Setting a key that is there keeps all that the new value has in common with the old one. -/
theorem map_values_insert {β : Type} {p : ν → β} {w : ν} (h : m.lookup k = some w)
    (hp : p v = p w) : (insert k v m).values.map p = m.values.map p := by
  unfold insert values
  induction m with
  | nil => cases h
  | cons entry m ih =>
    obtain ⟨key, u⟩ := entry
    unfold upsert
    rw [lookup_entry] at h
    by_cases hkey : key = k
    · rw [if_pos hkey.symm] at h
      cases h
      rw [if_pos hkey]
      exact congrArg (· :: _) hp
    · rw [if_neg (Ne.symm hkey)] at h
      rw [if_neg hkey]
      exact congrArg (_ :: ·) (ih h)

theorem not_mem_keys (h : m.lookup k = none) : k ∉ m.map Prod.fst := by
  intro hmem
  obtain ⟨kv, hkv, rfl⟩ := List.mem_map.mp hmem
  have hne := List.lookup_eq_none_iff.mp h kv hkv
  simp at hne

/-- A new key that is removed again leaves the map as it was. -/
theorem filter_insert_new (h : k ∉ m.map Prod.fst) :
    ((insert k v m).filter fun kv => kv.1 ≠ k) = m := by
  have hall : (m.filter fun kv => kv.1 ≠ k) = m := by
    rw [List.filter_eq_self]
    intro kv hkv
    have hne : kv.1 ≠ k := fun heq => h (heq ▸ List.mem_map_of_mem hkv)
    simpa using hne
  rw [insert_new h, List.filter_append, hall]
  simp

end OrderedMap

end Vincent
