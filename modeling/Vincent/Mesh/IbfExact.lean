-- SUMMARY: A table of three hashes that decodes lists exactly the keys of each side.
import Mathlib.Algebra.BigOperators.Ring.Finset
import Vincent.General.Check
import Vincent.General.Peeling
import Vincent.Mesh.Ibf

/-!
# Exact reconciliation

A cell of a difference that passes the fingerprint test shows a key that hashes to it
an odd number of times, though perhaps not its sign. With an odd number of hashes an
empty table has no keys left, and with three the counts betray every wrong sign.
-/

namespace Vincent.Mesh

open Vincent.Python Vincent.Check

/-! ## Building -/

namespace Iblt

/-- `IBLT(size, seeds)`. -/
def new (size : Nat) (seeds : List PyVal) : Except String Iblt :=
  if h : 0 < size then
    .ok {
      size := size
      seeds := if seeds = [] then defaultSeeds else seeds
      cells := List.replicate size {}
      size_pos := h
      cells_length := List.length_replicate }
  else .error "IBLT size must be positive"

/-- A table of the keys, with any seeds. -/
def build (blake2b : Blake2b) (keys : List Bytes) (size : Nat) (seeds : List PyVal) :
    Except String Iblt := do
  let t ← new size seeds
  keys.foldlM (fun t key => t.update blake2b key 1) t

end Iblt

theorem xorBytes_assoc (a b c : Bytes) : xorBytes (xorBytes a b) c = xorBytes a (xorBytes b c) := by
  unfold xorBytes
  induction a generalizing b c with
  | nil => simp
  | cons x a ih =>
    cases b with
    | nil => simp
    | cons y b =>
      cases c with
      | nil => simp
      | cons z c =>
        simp only [List.zipWith_cons_cons, ih, List.cons.injEq, and_true]
        exact UInt8.xor_assoc x y z

theorem Int.xor_assoc (a b c : Int) : Int.xor (Int.xor a b) c = Int.xor a (Int.xor b c) := by
  cases a <;> cases b <;> cases c <;> simp [Int.xor, Nat.xor_assoc]

theorem Int.xor_zero (a : Int) : Int.xor a 0 = a := by
  cases a <;> simp [Int.xor]

/-- The bytes of a cell without keys. -/
def zeroBytes : Bytes := List.replicate keySize 0

theorem xorBytes_zero {a : Bytes} (h : a.length ≤ keySize) : xorBytes a zeroBytes = a := by
  have hself : ∀ (n : Nat) (a : Bytes), a.length ≤ n → List.zipWith (· ^^^ ·) a (List.replicate n 0) = a := by
    intro n a
    induction a generalizing n with
    | nil => intro _; rfl
    | cons x a ih =>
      intro hn
      obtain ⟨n, rfl⟩ := Nat.exists_eq_succ_of_ne_zero (Nat.ne_of_gt (Nat.lt_of_lt_of_le (Nat.succ_pos _) hn))
      rw [List.replicate_succ, List.zipWith_cons_cons, ih n (Nat.le_of_succ_le_succ hn)]
      simp
  exact hself keySize a h

theorem zero_xorBytes {a : Bytes} (h : a.length ≤ keySize) : xorBytes zeroBytes a = a := by
  have hcomm : xorBytes zeroBytes a = xorBytes a zeroBytes :=
    List.zipWith_comm_of_comm UInt8.xor_comm
  rw [hcomm, xorBytes_zero h]

namespace IbltCell

variable {blake2b : Blake2b} {key : Bytes} {sign : Int}

/-- The cell of a difference. -/
def sub (c other : IbltCell) : IbltCell where
  count := c.count - other.count
  keyXor := xorBytes c.keyXor other.keyXor
  hashXor := Int.xor c.hashXor other.hashXor

/-- Subtracting a key adds it with the other sign. -/
theorem sub_add (c d : IbltCell) :
    c.sub (d.add blake2b key sign) = (c.sub d).add blake2b key (-sign) := by
  simp only [sub, add, xorBytes_assoc, Int.xor_assoc, mk.injEq, and_true]
  omega

theorem sub_iterate (n : Nat) (c d : IbltCell) : c.sub ((add blake2b key sign)^[n] d) =
    (add blake2b key (-sign))^[n] (c.sub d) := by
  induction n with
  | zero => rfl
  | succ n ih => rw [Function.iterate_succ_apply', Function.iterate_succ_apply', sub_add, ih]

theorem sub_empty {c : IbltCell} (h : c.keyXor.length ≤ keySize) : c.sub {} = c := by
  unfold sub
  rw [Int.sub_zero, Int.xor_zero]
  change IbltCell.mk _ (xorBytes c.keyXor zeroBytes) _ = c
  rw [xorBytes_zero h]

theorem iterate_add_count (n : Nat) (c : IbltCell) :
    ((add blake2b key sign)^[n] c).count = c.count + sign * n := by
  induction n with
  | zero => simp
  | succ n ih =>
    rw [Function.iterate_succ_apply']
    change ((add blake2b key sign)^[n] c).count + sign = _
    rw [ih]
    push_cast
    ring

/-- What a cell holds besides its count. -/
def content (c : IbltCell) : Bytes × Int := (c.keyXor, c.hashXor)

/-- What a key does to it. -/
def mix (blake2b : Blake2b) (x : Bytes × Int) (key : Bytes) : Bytes × Int :=
  (xorBytes x.1 key, Int.xor x.2 (fingerprint blake2b key))

theorem mix_mix {x : Bytes × Int} (h : x.1.length ≤ key.length) :
    mix blake2b (mix blake2b x key) key = x := by
  unfold mix
  rw [xorBytes_cancel h, Int.xor_xor_cancel]

theorem mix_zero (h : key.length ≤ keySize) :
    mix blake2b (zeroBytes, 0) key = (key, fingerprint blake2b key) := by
  unfold mix
  dsimp only
  rw [zero_xorBytes h, Int.zero_xor]

theorem mix_injective {x y : Bytes × Int} (hx : x.1.length ≤ key.length) (hy : y.1.length ≤ key.length)
    (h : mix blake2b x key = mix blake2b y key) : x = y := by
  rw [← mix_mix hx, h, mix_mix hy]

theorem content_iterate (n : Nat) {c : IbltCell} (h : c.keyXor.length ≤ key.length) :
    content ((add blake2b key sign)^[n] c) =
      if n % 2 = 1 then mix blake2b (content c) key else content c := by
  induction n with
  | zero => rfl
  | succ n ih =>
    rw [Function.iterate_succ_apply']
    change mix blake2b (content ((add blake2b key sign)^[n] c)) key = _
    rw [ih]
    rcases Nat.mod_two_eq_zero_or_one n with hn | hn
    · rw [if_neg (by omega), if_pos (by omega)]
    · rw [if_pos hn, if_neg (by omega), mix_mix h]

end IbltCell

namespace Iblt

variable {blake2b : Blake2b} {t : Iblt}

theorem keyIndexes_congr {t' : Iblt} (hsize : t.size = t'.size) (hseeds : t.seeds = t'.seeds)
    (key : Bytes) : t.indexes blake2b key = t'.indexes blake2b key := by
  unfold indexes
  rw [hsize, hseeds]

theorem modify_fold {f : IbltCell → IbltCell} (idxs : List Nat) (cells : List IbltCell) (j : Nat) :
    (idxs.foldl (fun cells j => cells.modify j f) cells)[j]? = cells[j]?.map f^[idxs.count j] := by
  induction idxs generalizing cells with
  | nil => simp
  | cons i idxs ih =>
    rw [List.foldl_cons, ih, List.getElem?_modify]
    rcases eq_or_ne i j with rfl | hne
    · rw [List.count_cons_self]
      cases cells[i]? <;> simp
    · rw [List.count_cons_of_ne hne]
      simp [hne]

theorem insertAll_spec {start : Iblt} (hsize : start.size = t.size) (hseeds : start.seeds = t.seeds)
    (keys : List Bytes) {t' : Iblt}
    (h : keys.foldlM (fun t key => t.update blake2b key 1) start = .ok t') :
    t'.size = t.size ∧ t'.seeds = t.seeds ∧ (∀ key ∈ keys, ∃ idxs, t.indexes blake2b key = .ok idxs) ∧
      ∀ j, t'.cells[j]? = start.cells[j]?.map (t.cellWith blake2b (keys.map fun key => (key, 1)) j) := by
  induction keys generalizing start with
  | nil =>
    cases h
    refine ⟨hsize, hseeds, fun _ h => absurd h List.not_mem_nil, fun j => ?_⟩
    cases t'.cells[j]? <;> rfl
  | cons key keys ih =>
    rw [List.foldlM_cons] at h
    obtain ⟨next, hnext, h⟩ := bind_eq_ok.mp h
    unfold update at hnext
    obtain ⟨idxs, hidxs, rfl⟩ := map_eq_ok.mp hnext
    obtain ⟨hsize', hseeds', hkeys, hcells⟩ := @ih { start with
      cells := idxs.foldl (fun cells j => cells.modify j (IbltCell.add blake2b key 1)) start.cells
      cells_length := _ } hsize hseeds h
    have hkey : t.indexes blake2b key = .ok idxs := by
      rw [← hidxs]
      exact keyIndexes_congr hsize.symm hseeds.symm key
    refine ⟨hsize', hseeds', ?_, fun j => ?_⟩
    · intro key' hkey'
      rcases List.mem_cons.mp hkey' with rfl | hkey'
      · exact ⟨idxs, hkey⟩
      · exact hkeys key' hkey'
    · rw [hcells j]
      dsimp only
      rw [modify_fold, Option.map_map]
      have hindexes : t.keyIndexes blake2b key = idxs := by
        unfold keyIndexes
        rw [hkey]
      congr 1
      funext c
      unfold cellWith
      rw [List.map_cons, List.foldl_cons, hindexes]
      rfl

/-! ## The difference -/

/-- The keys that only one side has, with the sign of the side. -/
def difference (A B : List Bytes) : List (Bytes × Int) :=
  (A.filter (· ∉ B)).map (fun key => (key, 1)) ++ (B.filter (· ∉ A)).map fun key => (key, -1)

theorem sub_cellWith (keys : List Bytes) (j : Nat) (c d : IbltCell) :
    c.sub (t.cellWith blake2b (keys.map fun key => (key, 1)) j d) =
      t.cellWith blake2b (keys.map fun key => (key, -1)) j (c.sub d) := by
  induction keys generalizing d with
  | nil => rfl
  | cons key keys ih =>
    unfold cellWith at *
    rw [List.map_cons, List.foldl_cons, ih, IbltCell.sub_iterate]
    rfl

theorem cellWith_append (keys keys' : List (Bytes × Int)) (j : Nat) (c : IbltCell) :
    t.cellWith blake2b (keys ++ keys') j c =
      t.cellWith blake2b keys' j (t.cellWith blake2b keys j c) := List.foldl_append

theorem cellWith_cancel {keys : List Bytes} (hkeys : ∀ key ∈ keys, key.length = keySize) (j : Nat)
    {c : IbltCell} (hc : c.keyXor.length ≤ keySize) :
    t.cellWith blake2b (keys.map (fun key => (key, 1)) ++ keys.map fun key => (key, -1)) j c = c := by
  induction keys with
  | nil => rfl
  | cons key keys ih =>
    have hrest := ih fun key' hkey' => hkeys key' (List.mem_cons_of_mem key hkey')
    have hlength := hkeys key List.mem_cons_self
    have hperm : ((key :: keys).map (fun key => (key, (1 : Int))) ++
        (key :: keys).map fun key => (key, -1)).Perm
        ([(key, 1), (key, -1)] ++ (keys.map (fun key => (key, 1)) ++ keys.map fun key => (key, -1))) := by
      rw [List.map_cons, List.map_cons, List.cons_append]
      exact List.Perm.cons _ List.perm_middle
    rw [cellWith_perm hperm, cellWith_append]
    have htwo : t.cellWith blake2b [(key, 1), (key, -1)] j c = c := by
      unfold cellWith
      exact iterate_add_neg_cancel _ (by rw [hlength]; exact hc)
    rw [htwo, hrest]

theorem filter_split_perm (A B : List Bytes) : A.Perm (A.filter (· ∈ B) ++ A.filter (· ∉ B)) := by
  have h := (List.filter_append_perm (fun key => decide (key ∈ B)) A).symm
  simpa using h

theorem common_perm {A B : List Bytes} (hA : A.Nodup) (hB : B.Nodup) :
    (A.filter (· ∈ B)).Perm (B.filter (· ∈ A)) := by
  rw [List.perm_ext_iff_of_nodup (hA.filter _) (hB.filter _)]
  intro key
  simp [and_comm]

theorem cellWith_difference {A B : List Bytes} (hA : A.Nodup) (hB : B.Nodup)
    (hkeys : ∀ key ∈ A, key.length = keySize) (j : Nat) {c : IbltCell} (hc : c.keyXor.length ≤ keySize) :
    t.cellWith blake2b (A.map (fun key => (key, 1)) ++ B.map fun key => (key, -1)) j c =
      t.cellWith blake2b (difference A B) j c := by
  have hperm : (A.map (fun key => (key, (1 : Int))) ++ B.map fun key => (key, -1)).Perm
      (((A.filter (· ∈ B)).map (fun key => (key, 1)) ++ (A.filter (· ∈ B)).map fun key => (key, -1)) ++
        difference A B) := by
    have hleft := (filter_split_perm A B).map fun key => (key, (1 : Int))
    have hright := ((filter_split_perm B A).trans
      ((common_perm hA hB).symm.append_right _)).map fun key => (key, (-1 : Int))
    rw [List.map_append] at hleft hright
    refine (hleft.append hright).trans ?_
    unfold difference
    rw [List.append_assoc, List.append_assoc]
    refine List.Perm.append_left _ ?_
    rw [← List.append_assoc, ← List.append_assoc]
    exact List.Perm.append_right _ List.perm_append_comm
  rw [cellWith_perm hperm, cellWith_append, cellWith_cancel _ j hc]
  intro key hkey
  exact hkeys key (List.mem_of_mem_filter hkey)

/-- The table of a difference, cell by cell. -/
structure IsDifference (blake2b : Blake2b) (t : Iblt) (A B : List Bytes) : Prop where
  indexes : ∀ key, key ∈ A ∨ key ∈ B → ∃ idxs, t.indexes blake2b key = .ok idxs
  cells : ∀ j, t.cells[j]? =
    if j < t.size then some (t.cellWith blake2b (difference A B) j {}) else none

theorem new_eq_ok {size : Nat} {seeds : List PyVal} {start : Iblt} (h : new size seeds = .ok start) :
    start.size = size ∧ start.seeds = (if seeds = [] then defaultSeeds else seeds) ∧
      start.cells = List.replicate size {} := by
  unfold new at h
  split at h
  · cases h
    exact ⟨rfl, rfl, rfl⟩
  · cases h

theorem subtract_eq_ok {ta tb : Iblt} (h : ta.subtract tb = .ok t) : t.size = ta.size ∧
    t.seeds = ta.seeds ∧ t.cells = List.zipWith IbltCell.sub ta.cells tb.cells := by
  unfold subtract at h
  split at h
  · cases h
  · cases h
    exact ⟨rfl, rfl, rfl⟩

theorem isDifference {A B : List Bytes} (hA : A.Nodup) (hB : B.Nodup) {size : Nat}
    {seeds : List PyVal} {ta tb : Iblt} (hta : build blake2b A size seeds = .ok ta)
    (htb : build blake2b B size seeds = .ok tb) (h : ta.subtract tb = .ok t) :
    t.IsDifference blake2b A B := by
  obtain ⟨start, hstart, hta⟩ := bind_eq_ok.mp hta
  obtain ⟨start', hstart', htb⟩ := bind_eq_ok.mp htb
  rw [hstart] at hstart'
  obtain rfl := Except.ok.inj hstart'
  obtain ⟨hsize, hseeds, hcells⟩ := subtract_eq_ok h
  obtain ⟨hstart, hstartSeeds, hstartCells⟩ := new_eq_ok hstart
  obtain ⟨htaSize, htaSeeds, -, -⟩ := insertAll_spec (t := start) rfl rfl A hta
  have hsame : start.size = t.size := by rw [hsize, htaSize]
  have hsame' : start.seeds = t.seeds := by rw [hseeds, htaSeeds]
  obtain ⟨-, -, hkeysA, hcellsA⟩ := insertAll_spec hsame hsame' A hta
  obtain ⟨-, -, hkeysB, hcellsB⟩ := insertAll_spec hsame hsame' B htb
  refine ⟨fun key hkey => hkey.elim (hkeysA key) (hkeysB key), fun j => ?_⟩
  rw [hcells, List.getElem?_zipWith, hcellsA j, hcellsB j, hstartCells, List.getElem?_replicate,
    ← hstart, hsame]
  rcases lt_or_ge j t.size with hj | hj
  · simp only [if_pos hj, Option.map_some]
    have hzero : (t.cellWith blake2b (A.map fun key => (key, 1)) j {}).keyXor.length ≤ keySize :=
      (length_cellWith_le _ _ _).trans (by decide)
    rw [sub_cellWith, IbltCell.sub_empty hzero, ← cellWith_append,
      cellWith_difference hA hB (fun key hkey => ?_) j (by decide)]
    obtain ⟨idxs, hidxs⟩ := hkeysA key hkey
    exact (length_indexes hidxs).1
  · simp only [if_neg (not_lt.mpr hj), Option.map_none]

/-! ## Odd keys -/

/-- Combined fingerprints are that of the combined keys only for a single key. -/
def Independent (blake2b : Blake2b) (keys : List Bytes) : Prop :=
  ∀ T : List Bytes, T.Nodup → T ⊆ keys →
    (T.map (fingerprint blake2b)).foldl Int.xor 0 = fingerprint blake2b (T.foldl xorBytes zeroBytes) →
      ∃ key, T = [key]

/-- The keys that hash to a cell an odd number of times. -/
def oddKeys (blake2b : Blake2b) (t : Iblt) (keys : List (Bytes × Int)) (j : Nat) : List Bytes :=
  (keys.filter fun key => (t.keyIndexes blake2b key.1).count j % 2 = 1).map Prod.fst

theorem mem_oddKeys {keys : List (Bytes × Int)} {j : Nat} {key : Bytes} :
    key ∈ oddKeys blake2b t keys j ↔
      (t.keyIndexes blake2b key).count j % 2 = 1 ∧ ∃ own, (key, own) ∈ keys := by
  simp [oddKeys, and_comm]

/-- What a cell holds besides its count is decided by the keys that hash there an odd number of
    times. -/
theorem content_cellWith {keys : List (Bytes × Int)} (hkeys : ∀ key ∈ keys, key.1.length = keySize)
    (j : Nat) {c : IbltCell} (hc : c.keyXor.length ≤ keySize) :
    (t.cellWith blake2b keys j c).content =
      (oddKeys blake2b t keys j).foldl (IbltCell.mix blake2b) c.content := by
  induction keys generalizing c with
  | nil => rfl
  | cons key keys ih =>
    have hlength := hkeys key List.mem_cons_self
    let c' := (IbltCell.add blake2b key.1 key.2)^[(t.keyIndexes blake2b key.1).count j] c
    have hstep : c'.content = if (t.keyIndexes blake2b key.1).count j % 2 = 1 then
        IbltCell.mix blake2b c.content key.1 else c.content :=
      IbltCell.content_iterate _ (by rw [hlength]; exact hc)
    have hrest : (t.cellWith blake2b keys j c').content =
        (oddKeys blake2b t keys j).foldl (IbltCell.mix blake2b) c'.content :=
      ih (fun key' hkey' => hkeys key' (List.mem_cons_of_mem key hkey'))
        ((length_iterate_add_le _ _).trans hc)
    unfold cellWith at *
    rw [List.foldl_cons, hrest, hstep]
    unfold oddKeys
    rw [List.filter_cons]
    split
    · rename_i hodd
      rw [if_pos (by simpa using hodd), List.map_cons, List.foldl_cons]
    · rename_i hodd
      rw [if_neg (by simpa using hodd)]

theorem mix_fold (T : List Bytes) (x : Bytes × Int) : T.foldl (IbltCell.mix blake2b) x =
    (T.foldl xorBytes x.1, (T.map (fingerprint blake2b)).foldl Int.xor x.2) := by
  induction T generalizing x with
  | nil => rfl
  | cons key T ih =>
    rw [List.foldl_cons, ih]
    rfl

theorem mix_perm {T T' : List Bytes} (h : T.Perm T') (x : Bytes × Int) :
    T.foldl (IbltCell.mix blake2b) x = T'.foldl (IbltCell.mix blake2b) x := by
  have hcomm : RightCommutative (IbltCell.mix blake2b) :=
    ⟨fun x a b => by rw [IbltCell.mix, IbltCell.mix, IbltCell.mix, IbltCell.mix, xorBytes_right_comm,
      Int.xor_right_comm]⟩
  exact h.foldl_eq x

theorem length_mix_fold (T : List Bytes) {x : Bytes × Int} (hx : x.1.length ≤ keySize) :
    (T.foldl (IbltCell.mix blake2b) x).1.length ≤ keySize := by
  induction T generalizing x with
  | nil => exact hx
  | cons key T ih =>
    refine ih (le_trans ?_ hx)
    simp [IbltCell.mix, xorBytes]

section Odd

variable {keys : List Bytes} {T : List Bytes}

theorem Independent.single (h : Independent blake2b keys) (hT : T.Nodup) (hkeys : T ⊆ keys)
    {key : Bytes} (hlength : ∀ key ∈ keys, key.length = keySize)
    (hmix : T.foldl (IbltCell.mix blake2b) (zeroBytes, 0) = (key, fingerprint blake2b key)) :
    T = [key] := by
  rw [mix_fold, Prod.mk.injEq] at hmix
  obtain ⟨hbytes, hprint⟩ := hmix
  obtain ⟨key', rfl⟩ := h T hT hkeys (by rw [hprint, hbytes])
  have hkey' : key'.length = keySize := hlength key' (hkeys List.mem_cons_self)
  rw [← hbytes]
  exact congrArg (fun k => [k]) (zero_xorBytes hkey'.le).symm

theorem Independent.none (h : Independent blake2b keys) (hT : T.Nodup) (hkeys : T ⊆ keys)
    (hlength : ∀ key ∈ keys, key.length = keySize)
    (hmix : T.foldl (IbltCell.mix blake2b) (zeroBytes, 0) = (zeroBytes, 0)) : T = [] := by
  cases T with
  | nil => rfl
  | cons key T =>
    obtain ⟨hkey, hrest⟩ := List.nodup_cons.mp hT
    have hlen : key.length = keySize := hlength key (hkeys List.mem_cons_self)
    rw [mix_perm (List.perm_append_singleton key T).symm, List.foldl_append] at hmix
    have hshort : (T.foldl (IbltCell.mix blake2b) (zeroBytes, 0)).1.length ≤ keySize :=
      length_mix_fold T (by decide)
    -- the other keys pass the fingerprint test as this one
    have hothers : T.foldl (IbltCell.mix blake2b) (zeroBytes, 0) = (key, fingerprint blake2b key) := by
      calc T.foldl (IbltCell.mix blake2b) (zeroBytes, 0)
          = IbltCell.mix blake2b
              (IbltCell.mix blake2b (T.foldl (IbltCell.mix blake2b) (zeroBytes, 0)) key) key :=
            (IbltCell.mix_mix (by rw [hlen]; exact hshort)).symm
        _ = IbltCell.mix blake2b (zeroBytes, 0) key := congrArg (IbltCell.mix blake2b · key) hmix
        _ = (key, fingerprint blake2b key) := IbltCell.mix_zero hlen.le
    have hsingle := h.single hrest (fun k hk => hkeys (List.mem_cons_of_mem key hk)) hlength hothers
    rw [hsingle] at hkey
    exact absurd List.mem_cons_self hkey

end Odd

/-! ## Decoding -/

/-- A key that is taken out: the sign of its side, the reported one, and the cell that showed it. -/
structure Taken where
  key : Bytes
  own : Int
  found : Int
  idx : Nat

def Taken.signed (d : Taken) : Bytes × Int := (d.key, d.own)

open Peeling in
def Taken.peel (blake2b : Blake2b) (t : Iblt) (d : Taken) : Peel where
  idx := d.idx
  own := d.own
  found := d.found
  mult j := (t.keyIndexes blake2b d.key).count j

/-- How often the keys hash to a cell, with their signs. -/
def signedCount (blake2b : Blake2b) (t : Iblt) (keys : List (Bytes × Int)) (j : Nat) : Int :=
  (keys.map fun key : Bytes × Int => key.2 * ((t.keyIndexes blake2b key.1).count j : Int)).sum

/-- The keys that are left decide what the cells hold, and those taken out decide the counts. -/
structure Decoding (blake2b : Blake2b) (t : Iblt) (keys left : List (Bytes × Int))
    (done : List Taken) (s : DecodeState) : Prop where
  perm : keys.Perm (left ++ done.map Taken.signed)
  length : s.cells.length = t.size
  content : ∀ j c, s.cells[j]? = some c → c.content = (t.cellWith blake2b left j {}).content
  count : ∀ j c, s.cells[j]? = some c → c.count =
    t.signedCount blake2b keys j - (done.map fun d => d.found * (d.peel blake2b t).taken j).sum
  idx : ∀ d ∈ done, d.idx < t.size
  odd : ∀ d ∈ done, (t.keyIndexes blake2b d.key).count d.idx % 2 = 1
  left_even : ∀ d ∈ done, ∀ key ∈ left, (t.keyIndexes blake2b key.1).count d.idx % 2 = 0
  alone : done.Pairwise fun d d' => (t.keyIndexes blake2b d'.key).count d.idx % 2 = 0
  found : ∀ d ∈ done, d.found = 1 ∨ d.found = -1
  plus : s.plus = (done.filter fun d => d.found = 1).map Taken.key
  minus : s.minus = (done.filter fun d => d.found ≠ 1).map Taken.key

theorem count_cellWith (keys : List (Bytes × Int)) (j : Nat) (c : IbltCell) :
    (t.cellWith blake2b keys j c).count = c.count + t.signedCount blake2b keys j := by
  induction keys generalizing c with
  | nil => simp [cellWith, signedCount]
  | cons key keys ih =>
    unfold cellWith signedCount at *
    rw [List.foldl_cons, ih, IbltCell.iterate_add_count, List.map_cons, List.sum_cons, add_assoc]

theorem decoding_start {A B : List Bytes} (h : t.IsDifference blake2b A B) :
    t.Decoding blake2b (difference A B) (difference A B) [] t.decodeStart where
  perm := by simp
  length := t.cells_length
  content j c hc := by
    change t.cells[j]? = some c at hc
    rw [h.cells j] at hc
    split at hc
    · cases hc
      rfl
    · cases hc
  count j c hc := by
    change t.cells[j]? = some c at hc
    rw [h.cells j] at hc
    split at hc
    · cases hc
      rw [count_cellWith]
      simp
    · cases hc
  idx := nofun
  odd := nofun
  left_even := nofun
  alone := List.Pairwise.nil
  found := nofun
  plus := rfl
  minus := rfl

section Step

variable {keys left : List (Bytes × Int)} {done : List Taken} {s s' : DecodeState} {idx : Nat}

/-- The keys of a difference: they differ, and each can be hashed. -/
structure Hashable (blake2b : Blake2b) (t : Iblt) (keys : List (Bytes × Int)) : Prop where
  nodup : (keys.map Prod.fst).Nodup
  indexes : ∀ key ∈ keys, ∃ idxs, t.indexes blake2b key.1 = .ok idxs
  independent : Independent blake2b (keys.map Prod.fst)

theorem Hashable.length (h : t.Hashable blake2b keys) : ∀ key ∈ keys, key.1.length = keySize := by
  intro key hkey
  obtain ⟨idxs, hidxs⟩ := h.indexes key hkey
  exact (length_indexes hidxs).1

theorem Decoding.left_subset (h : t.Decoding blake2b keys left done s) : left ⊆ keys :=
  fun _ hkey => h.perm.mem_iff.mpr (List.mem_append_left _ hkey)

theorem Decoding.left_nodup (h : t.Decoding blake2b keys left done s) (hkeys : t.Hashable blake2b keys) :
    (left.map Prod.fst).Nodup := by
  have hnodup := (h.perm.map Prod.fst).nodup_iff.mp hkeys.nodup
  rw [List.map_append] at hnodup
  exact (List.nodup_append.mp hnodup).1

theorem Decoding.odd_spec (h : t.Decoding blake2b keys left done s) (hkeys : t.Hashable blake2b keys)
    {c : IbltCell} (hc : s.cells[idx]? = some c) :
    (oddKeys blake2b t left idx).Nodup ∧ oddKeys blake2b t left idx ⊆ keys.map Prod.fst ∧
      c.content = (oddKeys blake2b t left idx).foldl (IbltCell.mix blake2b) (zeroBytes, 0) := by
  refine ⟨(h.left_nodup hkeys).sublist (List.filter_sublist.map _), ?_, ?_⟩
  · intro key hkey
    obtain ⟨-, own, hmem⟩ := mem_oddKeys.mp hkey
    exact List.mem_map.mpr ⟨(key, own), h.left_subset hmem, rfl⟩
  · rw [h.content idx c hc, content_cellWith (fun key hkey => hkeys.length key (h.left_subset hkey)) idx
      (by decide)]
    rfl

/-- A cell that passes the test shows a key that is left, the only one there with odd hashes. -/
theorem Decoding.pure_spec (h : t.Decoding blake2b keys left done s) (hkeys : t.Hashable blake2b keys)
    {c : IbltCell} (hc : s.cells[idx]? = some c) {key : Bytes} {sign : Int}
    (hpure : pureKey blake2b c = some (key, sign)) :
    (∃ own, (key, own) ∈ left) ∧ (t.keyIndexes blake2b key).count idx % 2 = 1 ∧
      ∀ key' ∈ left, key'.1 ≠ key → (t.keyIndexes blake2b key'.1).count idx % 2 = 0 := by
  obtain ⟨hnodup, hsubset, hcontent⟩ := h.odd_spec hkeys hc
  have hlength : ∀ key ∈ keys.map Prod.fst, key.length = keySize := by
    intro key hkey
    obtain ⟨signed, hsigned, rfl⟩ := List.mem_map.mp hkey
    exact hkeys.length signed hsigned
  rw [pureKey_eq_some hpure] at hcontent
  have hsingle := hkeys.independent.single hnodup hsubset hlength hcontent.symm
  have hmem : key ∈ oddKeys blake2b t left idx := hsingle ▸ List.mem_cons_self
  obtain ⟨hodd, hown⟩ := mem_oddKeys.mp hmem
  refine ⟨hown, hodd, fun key' hkey' hne => ?_⟩
  rw [← Nat.mod_two_ne_one]
  intro hodd'
  have hmem' : key'.1 ∈ oddKeys blake2b t left idx := mem_oddKeys.mpr ⟨hodd', key'.2, hkey'⟩
  rw [hsingle, List.mem_singleton] at hmem'
  exact hne hmem'

theorem pureKey_sign {c : IbltCell} {key : Bytes} {sign : Int}
    (h : pureKey blake2b c = some (key, sign)) : sign = 1 ∨ sign = -1 := by
  unfold pureKey at h
  split at h
  · cases h
  · split at h
    · cases h
    · cases h
      split
      · exact Or.inl rfl
      · exact Or.inr rfl

/-- What a step does that takes a key out: it clears the cell, and removes the key from the others. -/
structure TakesOut (blake2b : Blake2b) (t : Iblt) (s s' : DecodeState) (idx : Nat) (cell : IbltCell)
    (key : Bytes) (sign : Int) : Prop where
  shown : s.cells[idx]? = some cell
  pure : pureKey blake2b cell = some (key, sign)
  length : s'.cells.length = s.cells.length
  cells : ∀ j c', s'.cells[j]? = some c' → j = idx ∧ c' = {} ∨
    j ≠ idx ∧ ∃ c, s.cells[j]? = some c ∧
      c' = (IbltCell.add blake2b key (-sign))^[(t.keyIndexes blake2b key).count j] c
  plus : s'.plus = if sign = 1 then s.plus ++ [key] else s.plus
  minus : s'.minus = if sign = 1 then s.minus else s.minus ++ [key]

/-- Every way through a step. -/
theorem decodeStep_cases (h : t.decodeStep blake2b s idx = .ok s') :
    s' = s ∨ ∃ cell key sign, t.TakesOut blake2b s s' idx cell key sign := by
  unfold decodeStep at h
  cases hcell : s.cells[idx]? with
  | none =>
    rw [hcell] at h
    cases h
    exact Or.inl rfl
  | some cell =>
    cases hpure : pureKey blake2b cell with
    | none =>
      simp only [hcell, hpure, Except.ok.injEq] at h
      exact Or.inl h.symm
    | some signed =>
      obtain ⟨key, sign⟩ := signed
      simp only [hcell, hpure] at h
      obtain ⟨idxs, hidxs, h⟩ := bind_eq_ok.mp h
      obtain ⟨hothers, -⟩ := @removeOthers_spec blake2b key sign idx idxs s.cells s.stack
      have hindexes : t.keyIndexes blake2b key = idxs := by
        unfold keyIndexes
        rw [hidxs]
      have hlength : (removeOthers blake2b key sign idx idxs s.cells s.stack).1.length =
          s.cells.length := by
        apply Nat.le_antisymm <;> rw [← not_lt] <;> intro hlt
        · have hnone := hothers s.cells.length
          rw [List.getElem?_eq_getElem hlt, List.getElem?_eq_none le_rfl] at hnone
          split at hnone <;> cases hnone
        · have hnone := hothers (removeOthers blake2b key sign idx idxs s.cells s.stack).1.length
          rw [List.getElem?_eq_getElem hlt, List.getElem?_eq_none le_rfl] at hnone
          split at hnone <;> cases hnone
      obtain rfl := Except.ok.inj h
      refine Or.inr ⟨cell, key, sign, hcell, hpure, ?_, fun j c' hc' => ?_, rfl, rfl⟩
      · rw [List.length_set, hlength]
      · dsimp only at hc'
        rw [List.getElem?_set] at hc'
        rcases eq_or_ne idx j with rfl | hne
        · rw [if_pos rfl] at hc'
          split at hc'
          · cases hc'
            exact Or.inl ⟨rfl, rfl⟩
          · cases hc'
        · rw [if_neg hne, hothers j, if_neg hne.symm, Option.map_eq_some_iff] at hc'
          obtain ⟨c, hc, rfl⟩ := hc'
          exact Or.inr ⟨hne.symm, c, hc, by rw [hindexes]⟩

theorem Decoding.pop (h : t.Decoding blake2b keys left done s) (stack : List Nat) :
    t.Decoding blake2b keys left done { s with stack := stack } :=
  ⟨h.perm, h.length, h.content, h.count, h.idx, h.odd, h.left_even, h.alone, h.found, h.plus, h.minus⟩

theorem Decoding.cell_short (h : t.Decoding blake2b keys left done s) {j : Nat} {c : IbltCell}
    (hc : s.cells[j]? = some c) : c.keyXor.length ≤ keySize := by
  have hcontent : c.keyXor = (t.cellWith blake2b left j {}).keyXor :=
    congrArg Prod.fst (h.content j c hc)
  rw [hcontent]
  exact length_cellWith_le _ _ _

theorem Decoding.takeOut (h : t.Decoding blake2b keys left done s) (hkeys : t.Hashable blake2b keys)
    {cell : IbltCell} {key : Bytes} {sign : Int} (hout : t.TakesOut blake2b s s' idx cell key sign) :
    ∃ d : Taken, t.Decoding blake2b keys (left.erase d.signed) (done ++ [d]) s' := by
  obtain ⟨⟨own, hmem⟩, hodd, heven⟩ := h.pure_spec hkeys hout.shown hout.pure
  have hpure := pureKey_eq_some hout.pure
  have hkey : key.length = keySize := hkeys.length _ (h.left_subset hmem)
  have herase : ∀ j, t.cellWith blake2b left j {} =
      (IbltCell.add blake2b key own)^[(t.keyIndexes blake2b key).count j]
        (t.cellWith blake2b (left.erase (key, own)) j {}) := fun j => cellWith_erase hmem j {}
  have hshort : ∀ j, (t.cellWith blake2b (left.erase (key, own)) j {}).keyXor.length ≤ key.length := by
    intro j
    rw [hkey]
    exact length_cellWith_le _ _ _
  have hcontent : ∀ j, (t.cellWith blake2b left j {}).content =
      if (t.keyIndexes blake2b key).count j % 2 = 1 then
        IbltCell.mix blake2b (t.cellWith blake2b (left.erase (key, own)) j {}).content key
      else (t.cellWith blake2b (left.erase (key, own)) j {}).content := by
    intro j
    rw [herase j, IbltCell.content_iterate _ (hshort j)]
  have hlt : idx < t.size := by
    rw [← h.length]
    exact (List.getElem?_eq_some_iff.mp hout.shown).1
  refine ⟨⟨key, own, sign, idx⟩, ?_⟩
  refine {
    perm := ?_, length := hout.length.trans h.length, content := ?_, count := ?_, idx := ?_, odd := ?_,
    left_even := ?_, alone := ?_, found := ?_, plus := ?_, minus := ?_ }
  · rw [List.map_append, ← List.append_assoc]
    refine h.perm.trans (((List.perm_cons_erase hmem).append_right _).trans ?_)
    exact (List.perm_append_singleton _ _).symm
  · intro j c' hc'
    rcases hout.cells j c' hc' with ⟨rfl, rfl⟩ | ⟨hne, c, hc, rfl⟩
    · -- the cell held this key alone
      have halone := h.content j cell hout.shown
      rw [hcontent j, if_pos hodd, hpure] at halone
      have hmix : IbltCell.mix blake2b (zeroBytes, 0) key =
          IbltCell.mix blake2b (t.cellWith blake2b (left.erase (key, own)) j {}).content key := by
        rw [← halone]
        exact IbltCell.mix_zero hkey.le
      exact IbltCell.mix_injective (by rw [hkey]; decide) (hshort j) hmix
    · have hcell := h.content j c hc
      rw [IbltCell.content_iterate _ (by rw [hkey]; exact h.cell_short hc), hcell, hcontent j]
      split
      · exact IbltCell.mix_mix (hshort j)
      · rfl
  · intro j c' hc'
    rw [List.map_append, List.sum_append, List.map_singleton, List.sum_singleton]
    rcases hout.cells j c' hc' with ⟨rfl, rfl⟩ | ⟨hne, c, hc, rfl⟩
    · have hcount := h.count j cell hout.shown
      rw [hpure] at hcount
      simp only [Taken.peel, Peeling.Peel.taken, if_true, mul_one] at hcount ⊢
      omega
    · rw [IbltCell.iterate_add_count, h.count j c hc]
      have htaken : (Taken.peel blake2b t ⟨key, own, sign, idx⟩).taken j =
          (t.keyIndexes blake2b key).count j := if_neg hne.symm
      rw [htaken]
      ring
  · intro d hd
    rcases List.mem_append.mp hd with hd | hd
    · exact h.idx d hd
    · rw [List.mem_singleton.mp hd]
      exact hlt
  · intro d hd
    rcases List.mem_append.mp hd with hd | hd
    · exact h.odd d hd
    · rw [List.mem_singleton.mp hd]
      exact hodd
  · intro d hd key' hkey'
    have hkey'' := List.mem_of_mem_erase hkey'
    rcases List.mem_append.mp hd with hd | hd
    · exact h.left_even d hd key' hkey''
    · rw [List.mem_singleton.mp hd]
      refine heven key' hkey'' fun heq => ?_
      -- the keys that are left differ
      have hnodup := h.left_nodup hkeys
      have hperm := (List.perm_cons_erase hmem).map Prod.fst
      have hcons := hperm.nodup_iff.mp hnodup
      rw [List.map_cons, List.nodup_cons] at hcons
      exact hcons.1 (List.mem_map.mpr ⟨key', hkey', heq⟩)
  · rw [List.pairwise_append]
    refine ⟨h.alone, List.pairwise_singleton _ _, fun d hd d' hd' => ?_⟩
    rw [List.mem_singleton.mp hd']
    exact h.left_even d hd (key, own) hmem
  · intro d hd
    rcases List.mem_append.mp hd with hd | hd
    · exact h.found d hd
    · rw [List.mem_singleton.mp hd]
      exact pureKey_sign hout.pure
  · rw [hout.plus, h.plus, List.filter_append, List.map_append]
    split <;> simp_all
  · rw [hout.minus, h.minus, List.filter_append, List.map_append]
    split <;> simp_all

theorem Decoding.loop (h : t.Decoding blake2b keys left done s) (hkeys : t.Hashable blake2b keys)
    {fuel : Nat} (hloop : t.decodeLoop blake2b fuel s = some (.ok s')) :
    ∃ left' done', t.Decoding blake2b keys left' done' s' := by
  induction fuel generalizing left done s with
  | zero =>
    unfold decodeLoop at hloop
    split at hloop
    · cases hloop
      exact ⟨left, done, h⟩
    · cases hloop
  | succ fuel ih =>
    unfold decodeLoop at hloop
    split at hloop
    · cases hloop
      exact ⟨left, done, h⟩
    · rename_i idx rest hstack
      dsimp only at hloop
      split at hloop
      · cases hloop
      · rename_i next hnext
        rcases decodeStep_cases hnext with rfl | ⟨cell, key, sign, hout⟩
        · exact ih (h.pop rest) hloop
        · obtain ⟨d, hd⟩ := (h.pop rest).takeOut hkeys hout
          exact ih hd hloop

end Step

/-! ## Tables that are used up -/

theorem keyIndexes_lt {key : Bytes} {j : Nat} (h : j ∈ t.keyIndexes blake2b key) : j < t.size := by
  unfold keyIndexes indexes at h
  split at h
  · rename_i idxs hidxs
    split at hidxs
    · cases hidxs
    · clear * - h hidxs
      generalize t.seeds = seeds at hidxs
      induction seeds generalizing idxs with
      | nil =>
        cases hidxs
        exact absurd h List.not_mem_nil
      | cons seed seeds ih =>
        rw [List.mapM_cons] at hidxs
        obtain ⟨i, hi, hidxs⟩ := bind_eq_ok.mp hidxs
        obtain ⟨rest, hrest, hidxs⟩ := bind_eq_ok.mp hidxs
        obtain rfl := pure_eq_ok.mp hidxs
        obtain ⟨n, -, rfl⟩ := map_eq_ok.mp hi
        rcases List.mem_cons.mp h with rfl | h
        · exact Nat.mod_lt _ t.size_pos
        · exact ih rest h hrest
  · exact absurd h List.not_mem_nil

/-- Where everything occurs an even number of times, the length is even. -/
theorem even_length {l : List Nat} (h : ∀ j, l.count j % 2 = 0) : l.length % 2 = 0 := by
  rw [← List.sum_toFinset_count_eq_length l]
  exact Nat.mod_eq_zero_of_dvd (Finset.dvd_sum fun j _ => Nat.dvd_of_mod_eq_zero (h j))

section Exact

variable {keys left : List (Bytes × Int)} {done : List Taken} {s : DecodeState}

theorem eq_empty_of_mem (hempty : emptyCells s.cells = true) {j : Nat} {c : IbltCell}
    (hc : s.cells[j]? = some c) : c = {} := by
  have h := List.all_eq_true.mp hempty c (List.mem_of_getElem? hc)
  exact eq_of_beq h

theorem Hashable.length_keyIndexes (hkeys : t.Hashable blake2b keys) {key : Bytes × Int}
    (hkey : key ∈ keys) : (t.keyIndexes blake2b key.1).length = t.seeds.length := by
  obtain ⟨idxs, hidxs⟩ := hkeys.indexes key hkey
  unfold keyIndexes
  rw [hidxs]
  exact (length_indexes hidxs).2

/-- When all cells are empty, no key is left: each would hash an even number of times to every
    cell. -/
theorem Decoding.left_nil (h : t.Decoding blake2b keys left done s) (hkeys : t.Hashable blake2b keys)
    (hseeds : t.seeds.length % 2 = 1) (hempty : emptyCells s.cells = true) : left = [] := by
  rw [List.eq_nil_iff_forall_not_mem]
  intro key hkey
  have hlength : ∀ key ∈ keys.map Prod.fst, key.length = keySize := by
    intro key hkey
    obtain ⟨signed, hsigned, rfl⟩ := List.mem_map.mp hkey
    exact hkeys.length signed hsigned
  have heven : ∀ j, (t.keyIndexes blake2b key.1).count j % 2 = 0 := by
    intro j
    rcases lt_or_ge j t.size with hj | hj
    · have hc := List.getElem?_eq_getElem (h.length.symm ▸ hj : j < s.cells.length)
      obtain ⟨hnodup, hsubset, hcontent⟩ := h.odd_spec hkeys hc
      rw [eq_empty_of_mem hempty hc] at hcontent
      have hnone := hkeys.independent.none hnodup hsubset hlength hcontent.symm
      rw [← Nat.mod_two_ne_one]
      intro hodd
      have hmem : key.1 ∈ oddKeys blake2b t left j := mem_oddKeys.mpr ⟨hodd, key.2, hkey⟩
      rw [hnone] at hmem
      exact absurd hmem List.not_mem_nil
    · rw [List.count_eq_zero.mpr fun hmem => absurd (keyIndexes_lt hmem) (not_lt.mpr hj)]
  have hlen := even_length heven
  rw [hkeys.length_keyIndexes (h.left_subset hkey), hseeds] at hlen
  cases hlen

/-- A key of at most three hashes with an odd number in a cell has one of them there, or all
three. -/
theorem once_of_odd {l : List Nat} {i : Nat} (hlength : l.length = 1 ∨ l.length = 3)
    (hodd : l.count i % 2 = 1) : l.count i = 1 ∨ l.count i = 3 ∧ ∀ j, j ≠ i → l.count j = 0 := by
  have hle : l.count i ≤ l.length := List.count_le_length
  rcases eq_or_ne (l.count i) 1 with hone | hne
  · exact Or.inl hone
  · have hthree : l.count i = 3 := by omega
    refine Or.inr ⟨hthree, fun j hj => ?_⟩
    have hall : ∀ b ∈ l, i = b := List.count_eq_length.mp (by omega)
    exact List.count_eq_zero.mpr fun hmem => hj (hall j hmem).symm

theorem sum_rest (done : List Taken) (j : Nat) :
    ((done.map (Taken.peel blake2b t)).map fun e => e.rest j).sum =
      t.signedCount blake2b (done.map Taken.signed) j -
        (done.map fun d => d.found * (d.peel blake2b t).taken j).sum := by
  unfold signedCount
  induction done with
  | nil => rfl
  | cons d done ih =>
    simp only [List.map_cons, List.sum_cons, ih]
    unfold Peeling.Peel.rest
    simp only [Taken.peel, Taken.signed]
    ring

/-- When all cells are empty, every sign that was found is that of the side. -/
theorem Decoding.found_eq_own (h : t.Decoding blake2b keys [] done s) (hkeys : t.Hashable blake2b keys)
    (hseeds : t.seeds.length = 1 ∨ t.seeds.length = 3) (hempty : emptyCells s.cells = true)
    (hsigns : ∀ key ∈ keys, key.2 = 1 ∨ key.2 = -1) : ∀ d ∈ done, d.found = d.own := by
  have hperm : keys.Perm (done.map Taken.signed) := h.perm
  have hmem : ∀ d ∈ done, d.signed ∈ keys := fun d hd => hperm.mem_iff.mpr (List.mem_map_of_mem hd)
  have hused : Peeling.UsedUp (done.map (Taken.peel blake2b t)) := by
    refine ⟨fun e he => ?_, ?_, fun e he => ?_⟩
    · obtain ⟨d, hd, rfl⟩ := List.mem_map.mp he
      refine ⟨hsigns d.signed (hmem d hd), h.found d hd, once_of_odd ?_ (h.odd d hd)⟩
      have hlength := hkeys.length_keyIndexes (hmem d hd)
      rw [← hlength] at hseeds
      exact hseeds
    · rw [List.pairwise_map]
      exact h.alone
    · obtain ⟨d, hd, rfl⟩ := List.mem_map.mp he
      have hlt : d.idx < s.cells.length := by
        rw [h.length]
        exact h.idx d hd
      have hc := List.getElem?_eq_getElem hlt
      have hcount := h.count d.idx _ hc
      rw [eq_empty_of_mem hempty hc] at hcount
      have hsame : t.signedCount blake2b keys d.idx =
          t.signedCount blake2b (done.map Taken.signed) d.idx := (hperm.map _).sum_eq
      rw [hsame] at hcount
      change ((done.map (Taken.peel blake2b t)).map fun e => e.rest d.idx).sum = 0
      rw [sum_rest]
      exact hcount.symm
  intro d hd
  exact hused.found_eq_own (d.peel blake2b t) (List.mem_map_of_mem hd)

end Exact

/-! ## Reconciliation -/

theorem difference_side (A B : List Bytes) :
    ((difference A B).filter fun key => key.2 = 1).map Prod.fst = A.filter (· ∉ B) ∧
      ((difference A B).filter fun key => key.2 ≠ 1).map Prod.fst = B.filter (· ∉ A) := by
  unfold difference
  simp [List.filter_append, List.filter_map, Function.comp_def]

theorem hashable_difference {A B : List Bytes} (hA : A.Nodup) (hB : B.Nodup)
    (h : t.IsDifference blake2b A B) (hindependent : Independent blake2b (A ++ B)) :
    t.Hashable blake2b (difference A B) := by
  have hfst : (difference A B).map Prod.fst = A.filter (· ∉ B) ++ B.filter (· ∉ A) := by
    simp [difference, Function.comp_def]
  refine ⟨?_, fun key hkey => ?_, fun T hT hsubset => ?_⟩
  · rw [hfst, List.nodup_append]
    refine ⟨hA.filter _, hB.filter _, fun a ha b hb heq => ?_⟩
    simp only [List.mem_filter, decide_eq_true_eq] at ha hb
    exact hb.2 (heq ▸ ha.1)
  · have hmem : key.1 ∈ A.filter (· ∉ B) ++ B.filter (· ∉ A) := hfst ▸ List.mem_map_of_mem hkey
    rcases List.mem_append.mp hmem with hmem | hmem
    · exact h.indexes key.1 (Or.inl (List.mem_of_mem_filter hmem))
    · exact h.indexes key.1 (Or.inr (List.mem_of_mem_filter hmem))
  · refine hindependent T hT fun key hkey => ?_
    have hmem := hsubset hkey
    rw [hfst] at hmem
    rcases List.mem_append.mp hmem with hmem | hmem
    · exact List.mem_append_left _ (List.mem_of_mem_filter hmem)
    · exact List.mem_append_right _ (List.mem_of_mem_filter hmem)

theorem difference_signs (A B : List Bytes) : ∀ key ∈ difference A B, key.2 = 1 ∨ key.2 = -1 := by
  intro key hkey
  rcases List.mem_append.mp hkey with hkey | hkey
  · obtain ⟨k, -, rfl⟩ := List.mem_map.mp hkey
    exact Or.inl rfl
  · obtain ⟨k, -, rfl⟩ := List.mem_map.mp hkey
    exact Or.inr rfl

/-- What decoding reports, when it took out all keys with their own signs. -/
theorem reported {A B : List Bytes} {done : List Taken} {s : DecodeState}
    (h : t.Decoding blake2b (difference A B) [] done s) (hfound : ∀ d ∈ done, d.found = d.own) :
    s.plus.Perm (A.filter (· ∉ B)) ∧ s.minus.Perm (B.filter (· ∉ A)) := by
  have hperm : (difference A B).Perm (done.map Taken.signed) := h.perm
  have hside : ∀ p : Int → Bool, (done.filter fun d => p d.found).map Taken.key =
      ((done.map Taken.signed).filter fun key => p key.2).map Prod.fst := by
    intro p
    rw [List.filter_map, List.map_map,
      List.filter_congr (q := fun d => p d.own) fun d hd => by rw [hfound d hd]]
    rfl
  obtain ⟨hplus, hminus⟩ := difference_side A B
  constructor
  · rw [h.plus, ← hplus, hside fun x => decide (x = 1)]
    exact ((hperm.filter _).map _).symm
  · rw [h.minus, ← hminus, hside fun x => decide (x ≠ 1)]
    exact ((hperm.filter _).map _).symm

/-- `build(A).subtract(build(B)).decode()`. -/
def reconcile (blake2b : Blake2b) (A B : List Bytes) (size : Nat) (seeds : List PyVal) (fuel : Nat) :
    Option (Except String (Bool × List Bytes × List Bytes)) :=
  let table : Except String Iblt := do
    let ta ← build blake2b A size seeds
    let tb ← build blake2b B size seeds
    ta.subtract tb
  match table with
  | .error exn => some (.error exn)
  | .ok t => t.decode blake2b fuel

theorem build_seeds {keys : List Bytes} {size : Nat} {seeds : List PyVal} {ta : Iblt}
    (h : build blake2b keys size seeds = .ok ta) :
    ta.seeds = if seeds = [] then defaultSeeds else seeds := by
  obtain ⟨start, hstart, hta⟩ := bind_eq_ok.mp h
  obtain ⟨-, hseeds, -⟩ := new_eq_ok hstart
  obtain ⟨-, htaSeeds, -, -⟩ := insertAll_spec (t := start) rfl rfl keys hta
  rw [htaSeeds, hseeds]

/-- With the default seeds, or any one or three, a reconciliation lists the keys of each side. -/
theorem reconcile_exact (blake2b : Blake2b) (A B : List Bytes) (size : Nat) (seeds : List PyVal)
    (fuel : Nat) (plus minus : List Bytes) (hA : A.Nodup) (hB : B.Nodup)
    (hseeds : seeds.length ≤ 1 ∨ seeds.length = 3) (hindependent : Independent blake2b (A ++ B))
    (h : reconcile blake2b A B size seeds fuel = some (.ok (true, plus, minus))) :
    plus.Perm (A.filter (· ∉ B)) ∧ minus.Perm (B.filter (· ∉ A)) := by
  unfold reconcile at h
  dsimp only at h
  split at h
  · cases h
  · rename_i t ht
    obtain ⟨ta, hta, ht⟩ := bind_eq_ok.mp ht
    obtain ⟨tb, htb, ht⟩ := bind_eq_ok.mp ht
    have hdifference := isDifference hA hB hta htb ht
    have hkeys := hashable_difference hA hB hdifference hindependent
    have hthree : t.seeds.length = 1 ∨ t.seeds.length = 3 := by
      rw [(subtract_eq_ok ht).2.1, build_seeds hta]
      split
      · exact Or.inr rfl
      · rename_i hne
        have hpos := List.length_pos_iff.mpr hne
        omega
    unfold decode at h
    obtain ⟨outcome, hloop, hresult⟩ := Option.map_eq_some_iff.mp h
    obtain ⟨s, rfl, hs⟩ := map_eq_ok.mp hresult
    simp only [Prod.mk.injEq] at hs
    obtain ⟨hempty, rfl, rfl⟩ := hs
    obtain ⟨left, done, hdone⟩ := (decoding_start hdifference).loop hkeys hloop
    obtain rfl := hdone.left_nil hkeys (by omega) hempty
    exact reported hdone (hdone.found_eq_own hkeys hthree hempty (difference_signs A B))

/-- Digests and fingerprints that tell the sample key from other keys. -/
def tellingBlake2b : Blake2b := fun data key =>
  if key = fingerprintSeed then (if data = sampleKey then 1 else 2)
  else if data = sampleKey then key else key + 1

theorem independent_sample : Independent tellingBlake2b ([sampleKey] ++ [zeroBytes]) := by
  intro T hT hsubset hprint
  have hmem : ∀ key ∈ T, key = sampleKey ∨ key = zeroBytes := by
    intro key hkey
    simpa using hsubset hkey
  have hlength : T.length ≤ 2 := (hT.subperm hsubset).length_le
  match T with
  | [] => exact absurd hprint (by decide +kernel)
  | [key] => exact ⟨key, rfl⟩
  | [key, key'] =>
    -- two keys: the combined fingerprint is 3
    rcases hmem key (by simp) with rfl | rfl <;> rcases hmem key' (by simp) with rfl | rfl
    · exact absurd hT (by decide +kernel)
    · exact absurd hprint (by decide +kernel)
    · exact absurd hprint (by decide +kernel)
    · exact absurd hT (by decide +kernel)
  | _ :: _ :: _ :: _ => simp at hlength

/-- Both keys are in one cell, which cancels. -/
theorem reconcile_exact_sample :
    [sampleKey].Perm ([sampleKey].filter (· ∉ [zeroBytes])) ∧
      [zeroBytes].Perm ([zeroBytes].filter (· ∉ [sampleKey])) :=
  reconcile_exact tellingBlake2b [sampleKey] [zeroBytes] 7 [] 20 [sampleKey] [zeroBytes]
    (List.nodup_singleton _) (List.nodup_singleton _) (by decide) independent_sample (by decide +kernel)

/-- With one seed twice, a key counts two in its cell, so that one key of each side cancel. -/
theorem not_reconcile_exact : ¬ ∀ (blake2b : Blake2b) (A B : List Bytes) (size : Nat)
    (seeds : List PyVal) (fuel : Nat) (plus minus : List Bytes), A.Nodup → B.Nodup →
    Independent blake2b (A ++ B) →
    reconcile blake2b A B size seeds fuel = some (.ok (true, plus, minus)) →
      plus.Perm (A.filter (· ∉ B)) ∧ minus.Perm (B.filter (· ∉ A)) := by
  intro h
  obtain ⟨hplus, -⟩ := h tellingBlake2b [sampleKey] [zeroBytes] 1 [.int 1, .int 1] 20 [] []
    (List.nodup_singleton _) (List.nodup_singleton _) independent_sample (by decide +kernel)
  have hone : ([sampleKey].filter (· ∉ [zeroBytes])).length = 1 := by decide +kernel
  rw [← hplus.length_eq] at hone
  cases hone

end Iblt

end Vincent.Mesh
