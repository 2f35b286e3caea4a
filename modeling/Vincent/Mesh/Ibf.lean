-- SUMMARY: Invertible Bloom filters, and which tables decoding ends on.
import Mathlib.Data.Int.Bitwise
import Vincent.Python.Value

/-!
# Invertible Bloom lookup tables

`mesh_ibf.py`. A key is added to the cells that it hashes to. Decoding takes a key out
of a cell that seems to hold it alone, and removes it from its other cells, which may
make them look like that in turn.

The digests are a parameter. Decoding need not end, so its loop runs on fuel.
-/

namespace Vincent.Mesh

open Vincent.Python

abbrev Bytes := List UInt8

def keySize : Nat := 32

def defaultSeeds : List PyVal :=
  [.int 0x243F6A8885A308D3, .int 0x13198A2E03707344, .int 0xA4093822299F31D0]

def fingerprintSeed : Nat := 0xC0FFEE1234567890

/-- `hashlib.blake2b(data, digest_size=8, key=key)` as a number, where the key is a number
    below `2 ^ 64`. -/
abbrev Blake2b := Bytes → Nat → Nat

def hash64 (blake2b : Blake2b) (data : Bytes) : PyVal → Except String Nat
  | .int n => if 0 ≤ n ∧ n < 2 ^ 64 then .ok (blake2b data n.toNat) else .error "OverflowError"
  | .bool b => .ok (blake2b data (if b then 1 else 0))
  | _ => .error "AttributeError"

def fingerprint (blake2b : Blake2b) (data : Bytes) : Int := blake2b data fingerprintSeed

/-- `_xor_bytes`, as long as the shorter argument. -/
def xorBytes (a b : Bytes) : Bytes := List.zipWith (· ^^^ ·) a b

structure IbltCell where
  count : Int := 0
  keyXor : Bytes := List.replicate keySize 0
  hashXor : Int := 0
deriving DecidableEq

/-- `IBLTCell.add`. -/
def IbltCell.add (blake2b : Blake2b) (key : Bytes) (sign : Int) (c : IbltCell) : IbltCell where
  count := c.count + sign
  keyXor := xorBytes c.keyXor key
  hashXor := Int.xor c.hashXor (fingerprint blake2b key)

/-- A table, with as many cells as its size says. Peers choose the seeds. -/
structure Iblt where
  size : Nat
  seeds : List PyVal
  cells : List IbltCell
  size_pos : 0 < size
  cells_length : cells.length = size

namespace Iblt

variable (blake2b : Blake2b)

def indexes (t : Iblt) (key : Bytes) : Except String (List Nat) :=
  if key.length ≠ keySize then .error "IBF key must be 32 bytes"
  else t.seeds.mapM fun seed => (hash64 blake2b key seed).map (· % t.size)

/-- `insert` and `delete`. -/
def update (t : Iblt) (key : Bytes) (sign : Int) : Except String Iblt :=
  (t.indexes blake2b key).map fun idxs => { t with
    cells := idxs.foldl (fun cells j => cells.modify j (IbltCell.add blake2b key sign)) t.cells
    cells_length := by
      have hfold : ∀ cells : List IbltCell,
          (idxs.foldl (fun cells j => cells.modify j (IbltCell.add blake2b key sign)) cells).length =
            cells.length := by
        induction idxs with
        | nil => intro cells; rfl
        | cons j idxs ih => intro cells; simp [ih]
      rw [hfold, t.cells_length] }

def subtract (t other : Iblt) : Except String Iblt :=
  if h : t.size ≠ other.size ∨ PyVal.eqList t.seeds other.seeds = false then
    .error "IBLT mismatch; size or seeds differ"
  else .ok { t with
    cells := List.zipWith (fun cell otherCell => {
      count := cell.count - otherCell.count
      keyXor := xorBytes cell.keyXor otherCell.keyXor
      hashXor := Int.xor cell.hashXor otherCell.hashXor }) t.cells other.cells
    cells_length := by
      have hsize : t.size = other.size := by
        by_contra hne
        exact h (.inl hne)
      rw [List.length_zipWith, t.cells_length, other.cells_length, ← hsize, Nat.min_self] }

/-! ## Decoding -/

/-- The variables of `decode`. The top of the stack is the head of the list. -/
structure DecodeState where
  cells : List IbltCell
  stack : List Nat
  plus : List Bytes := []
  minus : List Bytes := []

/-- The cell looks as if it held one key: the key and its sign. -/
def pureKey (c : IbltCell) : Option (Bytes × Int) :=
  if c.count.natAbs ≠ 1 then none
  else if fingerprint blake2b c.keyXor ≠ c.hashXor then none
  else some (c.keyXor, if c.count = 1 then 1 else -1)

/-- The inner loop: the key leaves its other cells, and those that now count one key go
    on the stack. -/
def removeOthers (key : Bytes) (sign : Int) (idx : Nat) :
    List Nat → List IbltCell → List Nat → List IbltCell × List Nat
  | [], cells, stack => (cells, stack)
  | j :: js, cells, stack =>
    if j = idx then removeOthers key sign idx js cells stack
    else
      let cells := cells.modify j (IbltCell.add blake2b key (-sign))
      let counts := (cells[j]?.map fun c => c.count.natAbs) = some 1
      removeOthers key sign idx js cells (if counts then j :: stack else stack)

/-- The body of the outer loop, for the index that it has popped. -/
def decodeStep (t : Iblt) (s : DecodeState) (idx : Nat) : Except String DecodeState :=
  match s.cells[idx]? with
  | none => .ok s
  | some cell =>
    match pureKey blake2b cell with
    | none => .ok s
    | some (key, sign) => do
      let idxs ← t.indexes blake2b key
      let (cells, stack) := removeOthers blake2b key sign idx idxs s.cells s.stack
      return {
        cells := cells.set idx {}
        stack := stack
        plus := if sign = 1 then s.plus ++ [key] else s.plus
        minus := if sign = 1 then s.minus else s.minus ++ [key] }

/-- The outer loop, or `none` when the fuel runs out. -/
def decodeLoop (t : Iblt) : Nat → DecodeState → Option (Except String DecodeState)
  | fuel, s =>
    match s.stack with
    | [] => some (.ok s)
    | idx :: rest =>
      match fuel with
      | 0 => none
      | fuel + 1 =>
        match t.decodeStep blake2b { s with stack := rest } idx with
        | .error exn => some (.error exn)
        | .ok s => decodeLoop t fuel s

/-- `success`. -/
def emptyCells (cells : List IbltCell) : Bool := cells.all (· == {})

/-- The state that `decode` starts from. -/
def decodeStart (t : Iblt) : DecodeState where
  cells := t.cells
  stack := ((List.range t.size).filter fun i =>
    (t.cells[i]?.map fun c => c.count.natAbs) = some 1).reverse

/-- `decode`: whether it used up the table, and the keys of either sign. -/
def decode (t : Iblt) (fuel : Nat) : Option (Except String (Bool × List Bytes × List Bytes)) :=
  (t.decodeLoop blake2b fuel t.decodeStart).map fun outcome =>
    outcome.map fun s => (emptyCells s.cells, s.plus, s.minus)

end Iblt

/-! ## Tables from peers -/

/-- The elements that Python iterates over, or `none` for a `TypeError`. -/
def PyVal.iterate : PyVal → Option (List PyVal)
  | .list xs => some xs
  | .str s => some (s.toList.map fun c => .str c.toString)
  | .dict kvs => some (kvs.map fun kv => .str kv.1)
  | _ => none

/-- One entry of `c`. -/
def cellOfCompact (rt : Runtime) (b64Decode : String → Option Bytes) (raw : PyVal) :
    Except String IbltCell :=
  match PyVal.iterate raw with
  | some [count, keyB64, hashXor] => do
    let count ← safeInt rt count 0
    match b64Decode (keyB64.toStr rt) with
    | none => .error "ValueError"
    | some keyXor =>
      let hashXor ← safeInt rt hashXor 0
      return { count := count, keyXor := keyXor, hashXor := hashXor }
  | some _ => .error "ValueError"
  | none => .error "TypeError"

def Iblt.fromCompactDict (rt : Runtime) (b64Decode : String → Option Bytes) (data : Dict) :
    Except String Iblt := do
  let size ← safeInt rt ((Dict.get data "m" (.int 0)).or (.int 0)) 0
  let seeds := (PyVal.iterate ((Dict.get data "s").or (.list defaultSeeds))).getD []
  let raws := (PyVal.iterate ((Dict.get data "c").or (.list []))).getD []
  let cells ← raws.mapM (cellOfCompact rt b64Decode)
  if h : 0 < size ∧ cells.length = size.toNat then
    return {
      size := size.toNat
      seeds := if seeds = [] then defaultSeeds else seeds
      cells := cells
      size_pos := by omega
      cells_length := h.2 }
  else .error "ValueError"

/-! ## Cells -/

theorem Int.xor_right_comm (a b c : Int) : Int.xor (Int.xor a b) c = Int.xor (Int.xor a c) b := by
  cases a <;> cases b <;> cases c <;> simp [Int.xor, Nat.xor_right_comm]

theorem Int.xor_xor_cancel (a b : Int) : Int.xor (Int.xor a b) b = a := by
  cases a <;> cases b <;> simp [Int.xor]

theorem Int.zero_xor (a : Int) : Int.xor 0 a = a := by
  cases a <;> simp [Int.xor]

theorem xorBytes_right_comm (a b c : Bytes) :
    xorBytes (xorBytes a b) c = xorBytes (xorBytes a c) b := by
  unfold xorBytes
  induction a generalizing b c with
  | nil => simp
  | cons x a ih =>
    cases b with
    | nil => cases c <;> simp
    | cons y b =>
      cases c with
      | nil => simp
      | cons z c =>
        simp only [List.zipWith_cons_cons, ih, List.cons.injEq, and_true]
        rw [UInt8.xor_assoc, UInt8.xor_comm y z, UInt8.xor_assoc]

theorem xorBytes_cancel {a b : Bytes} (h : a.length ≤ b.length) :
    xorBytes (xorBytes a b) b = a := by
  unfold xorBytes
  induction a generalizing b with
  | nil => simp
  | cons x a ih =>
    cases b with
    | nil => simp at h
    | cons y b =>
      have hle : a.length ≤ b.length := by simpa using h
      simp [ih hle, UInt8.xor_assoc]

theorem eq_zero_of_xorBytes {a b : Bytes} (h : xorBytes a b = b) (hle : a.length ≤ b.length) :
    a = List.replicate b.length 0 := by
  have hself : xorBytes b b = a := by
    rw [← xorBytes_cancel hle, h]
  rw [← hself]
  clear h hle hself
  unfold xorBytes
  induction b with
  | nil => rfl
  | cons y b ih => simp [List.replicate_succ]

namespace IbltCell

variable {blake2b : Blake2b} {c : IbltCell} {key key' : Bytes} {sign sign' : Int}

theorem add_comm (c : IbltCell) : (c.add blake2b key sign).add blake2b key' sign' =
    (c.add blake2b key' sign').add blake2b key sign := by
  simp only [add, xorBytes_right_comm c.keyXor key key', Int.xor_right_comm c.hashXor,
    add_right_comm c.count sign sign']

theorem add_neg_cancel (h : c.keyXor.length ≤ key.length) :
    (c.add blake2b key sign).add blake2b key (-sign) = c := by
  simp only [add, xorBytes_cancel h, Int.xor_xor_cancel, add_neg_cancel_right]

theorem length_add_le : (c.add blake2b key sign).keyXor.length ≤ c.keyXor.length := by
  simp [add, xorBytes]

end IbltCell

theorem pureKey_eq_some {blake2b : Blake2b} {c : IbltCell} {key : Bytes} {sign : Int}
    (h : Iblt.pureKey blake2b c = some (key, sign)) :
    c = ⟨sign, key, fingerprint blake2b key⟩ := by
  unfold Iblt.pureKey at h
  split at h
  · cases h
  · rename_i hcount
    split at h
    · cases h
    · rename_i hhash
      obtain ⟨hkey, hsign⟩ : c.keyXor = key ∧ (if c.count = 1 then 1 else -1) = sign := by
        simpa using h
      have hcount' : c.count = sign := by
        rw [← hsign]
        split <;> omega
      obtain ⟨count, keyXor, hashXor⟩ := c
      simp only at hkey hcount' hhash
      rw [hcount', hkey, ← not_not.mp hhash, hkey]

theorem eq_empty_of_add {blake2b : Blake2b} {c : IbltCell} {key : Bytes} {sign : Int}
    (h : c.add blake2b key sign = ⟨sign, key, fingerprint blake2b key⟩)
    (hkey : key.length = keySize) (hle : c.keyXor.length ≤ key.length) : c = {} := by
  simp only [IbltCell.add, IbltCell.mk.injEq] at h
  obtain ⟨hcount, hxor, hhash⟩ := h
  have hzero : c.hashXor = 0 := by
    calc c.hashXor
        = Int.xor (Int.xor c.hashXor (fingerprint blake2b key)) (fingerprint blake2b key) :=
          (Int.xor_xor_cancel _ _).symm
      _ = Int.xor (Int.xor 0 (fingerprint blake2b key)) (fingerprint blake2b key) := by
          rw [hhash, Int.zero_xor]
      _ = 0 := Int.xor_xor_cancel _ _
  obtain ⟨count, keyXor, hashXor⟩ := c
  simp only at hcount hzero hxor hle
  rw [show count = 0 by omega, hzero, eq_zero_of_xorBytes hxor hle, hkey]

/-! ## Tables that hold keys -/

namespace Iblt

variable {blake2b : Blake2b} {t : Iblt}

/-- The cells that a key hashes to, or none for what is no key. -/
def keyIndexes (blake2b : Blake2b) (t : Iblt) (key : Bytes) : List Nat :=
  match t.indexes blake2b key with
  | .ok idxs => idxs
  | .error _ => []

/-- The content of cell `j` when signed keys are added to what it holds. -/
def cellWith (blake2b : Blake2b) (t : Iblt) (keys : List (Bytes × Int)) (j : Nat)
    (c : IbltCell) : IbltCell :=
  keys.foldl (fun c key => (IbltCell.add blake2b key.1 key.2)^[(t.keyIndexes blake2b key.1).count j] c) c

/-- The table holds signed keys on a residue, no cell of which shows a key that is not there. -/
structure Holds (blake2b : Blake2b) (t : Iblt) (residue : List IbltCell)
    (keys : List (Bytes × Int)) : Prop where
  cells : t.cells = residue.mapIdx (t.cellWith blake2b keys)
  short : ∀ c ∈ residue, c.keyXor.length ≤ keySize
  honest : ∀ left, left.Sublist keys → ∀ j c, residue[j]? = some c → ∀ key sign,
    pureKey blake2b (t.cellWith blake2b left j c) = some (key, sign) →
      (key, sign) ∈ left ∧ (t.keyIndexes blake2b key).count j = 1

theorem cellWith_perm {keys keys' : List (Bytes × Int)} (h : keys.Perm keys') (j : Nat)
    (c : IbltCell) : t.cellWith blake2b keys j c = t.cellWith blake2b keys' j c := by
  have hcomm : RightCommutative fun (c : IbltCell) (key : Bytes × Int) =>
      (IbltCell.add blake2b key.1 key.2)^[(t.keyIndexes blake2b key.1).count j] c := by
    constructor
    intro c key key'
    have hadd : Function.Commute (IbltCell.add blake2b key'.1 key'.2)
        (IbltCell.add blake2b key.1 key.2) := fun c => IbltCell.add_comm c
    exact hadd.iterate_iterate _ _ c
  exact h.foldl_eq c

/-- A cell with a key is the cell with the other keys, and that one added. -/
theorem cellWith_erase {keys : List (Bytes × Int)} {key : Bytes} {sign : Int}
    (h : (key, sign) ∈ keys) (j : Nat) (c : IbltCell) : t.cellWith blake2b keys j c =
      (IbltCell.add blake2b key sign)^[(t.keyIndexes blake2b key).count j]
        (t.cellWith blake2b (keys.erase (key, sign)) j c) := by
  have hperm : keys.Perm (keys.erase (key, sign) ++ [(key, sign)]) :=
    (List.perm_cons_erase h).trans (List.perm_append_singleton _ _).symm
  rw [cellWith_perm hperm, cellWith, List.foldl_append]
  rfl

theorem length_iterate_add_le {key : Bytes} {sign : Int} (n : Nat) (c : IbltCell) :
    ((IbltCell.add blake2b key sign)^[n] c).keyXor.length ≤ c.keyXor.length := by
  induction n with
  | zero => exact le_rfl
  | succ n ih =>
    rw [Function.iterate_succ_apply']
    exact IbltCell.length_add_le.trans ih

theorem length_cellWith_le (keys : List (Bytes × Int)) (j : Nat) (c : IbltCell) :
    (t.cellWith blake2b keys j c).keyXor.length ≤ c.keyXor.length := by
  unfold cellWith
  induction keys generalizing c with
  | nil => exact le_rfl
  | cons key keys ih => exact (ih _).trans (length_iterate_add_le _ _)

/-- Removing a key as often as it was added leaves what was there before. -/
theorem iterate_add_neg_cancel {key : Bytes} {sign : Int} (n : Nat) {c : IbltCell}
    (h : c.keyXor.length ≤ key.length) :
    (IbltCell.add blake2b key (-sign))^[n] ((IbltCell.add blake2b key sign)^[n] c) = c := by
  induction n with
  | zero => rfl
  | succ n ih =>
    rw [Function.iterate_succ_apply, Function.iterate_succ_apply',
      IbltCell.add_neg_cancel ((length_iterate_add_le n c).trans h), ih]

/-! ## One step -/

/-- What the inner loop does to each cell, and how many indexes it can push. -/
theorem removeOthers_spec {key : Bytes} {sign : Int} {idx : Nat} (js : List Nat)
    (cells : List IbltCell) (stack : List Nat) :
    (∀ j, (removeOthers blake2b key sign idx js cells stack).1[j]? =
      if j = idx then cells[j]?
      else cells[j]?.map (IbltCell.add blake2b key (-sign))^[js.count j]) ∧
    (removeOthers blake2b key sign idx js cells stack).2.length ≤ stack.length + js.length := by
  induction js generalizing cells stack with
  | nil => simp [removeOthers]
  | cons i js ih =>
    unfold removeOthers
    split
    · rename_i hidx
      obtain ⟨hcells, hlength⟩ := ih cells stack
      refine ⟨fun j => ?_, by rw [List.length_cons]; omega⟩
      rw [hcells j]
      split
      · rfl
      · rename_i hj
        rw [List.count_cons_of_ne (by rw [hidx]; exact Ne.symm hj)]
    · rename_i hidx
      simp only
      obtain ⟨hcells, hlength⟩ := ih (cells.modify i (IbltCell.add blake2b key (-sign)))
        (if ((cells.modify i (IbltCell.add blake2b key (-sign)))[i]?.map
          fun c => c.count.natAbs) = some 1 then i :: stack else stack)
      refine ⟨fun j => ?_, ?_⟩
      · rw [hcells j, List.getElem?_modify]
        split
        · rename_i hj
          have hne : i ≠ j := by
            rw [hj]
            exact hidx
          simp [hne]
        · rename_i hj
          by_cases hij : i = j
          · subst hij
            cases cells[i]? <;> simp
          · simp [hij]
      · refine hlength.trans ?_
        split <;> simp only [List.length_cons] <;> omega

theorem length_indexes {key : Bytes} {idxs : List Nat} (h : t.indexes blake2b key = .ok idxs) :
    key.length = keySize ∧ idxs.length = t.seeds.length := by
  unfold indexes at h
  split at h
  · cases h
  · rename_i hkey
    refine ⟨not_not.mp hkey, ?_⟩
    clear hkey
    generalize t.seeds = seeds at h ⊢
    induction seeds generalizing idxs with
    | nil =>
      cases h
      rfl
    | cons seed seeds ih =>
      rw [List.mapM_cons] at h
      cases hseed : (hash64 blake2b key seed).map (· % t.size) with
      | error exn => simp [hseed, bind, Except.bind] at h
      | ok i =>
        cases hrest : seeds.mapM fun seed => (hash64 blake2b key seed).map (· % t.size) with
        | error exn => simp [hseed, hrest, bind, Except.bind] at h
        | ok rest =>
          simp only [hseed, hrest, bind, Except.bind, pure, Except.pure, Except.ok.injEq] at h
          rw [← h, List.length_cons, List.length_cons, ih hrest]

/-- The cells of the state hold a part of the keys. -/
def Holding (blake2b : Blake2b) (t : Iblt) (residue : List IbltCell) (left : List (Bytes × Int))
    (s : DecodeState) : Prop :=
  s.cells = residue.mapIdx (t.cellWith blake2b left)

/-- A step discards an index, or takes out a key. -/
theorem decodeStep_spec {residue : List IbltCell} {keys left : List (Bytes × Int)}
    (h : t.Holds blake2b residue keys) (hleft : left.Sublist keys) {s : DecodeState}
    (hs : t.Holding blake2b residue left s) (idx : Nat) :
    t.decodeStep blake2b s idx = .ok s ∨
    ∃ key ∈ left, ∃ s', t.decodeStep blake2b s idx = .ok s' ∧
      t.Holding blake2b residue (left.erase key) s' ∧
      s'.stack.length ≤ s.stack.length + t.seeds.length ∧
      s'.plus.length + s'.minus.length = s.plus.length + s.minus.length + 1 := by
  unfold decodeStep
  cases hcell : s.cells[idx]? with
  | none => exact .inl rfl
  | some cell =>
    cases hpure : pureKey blake2b cell with
    | none => simp only [hpure]; exact .inl trivial
    | some signed =>
      obtain ⟨key, sign⟩ := signed
      refine .inr ?_
      rw [hs, List.getElem?_mapIdx, Option.map_eq_some_iff] at hcell
      obtain ⟨c, hc, rfl⟩ := hcell
      obtain ⟨hmem, honce⟩ := h.honest left hleft idx c hc key sign hpure
      have hshort : c.keyXor.length ≤ keySize := h.short c (List.mem_of_getElem? hc)
      cases hidxs : t.indexes blake2b key with
      | error exn => simp [keyIndexes, hidxs] at honce
      | ok idxs =>
        obtain ⟨hkey, hlength⟩ := length_indexes hidxs
        have hindexes : t.keyIndexes blake2b key = idxs := by simp only [keyIndexes, hidxs]
        obtain ⟨hothers, hpushed⟩ := @removeOthers_spec blake2b key sign idx idxs s.cells s.stack
        refine ⟨(key, sign), hmem, _, by simp only [hpure, hidxs]; rfl, ?_, by simp only; omega, ?_⟩
        · apply List.ext_getElem?
          intro j
          have hbefore : s.cells[j]? = residue[j]?.map (t.cellWith blake2b left j) := by
            rw [hs, List.getElem?_mapIdx]
          have hother := hothers j
          rw [hbefore] at hother
          simp only [List.getElem?_set, List.getElem?_mapIdx]
          by_cases hj : idx = j
          · subst hj
            -- the cell held this key alone, so without it nothing is left in it
            have halone : (t.cellWith blake2b (left.erase (key, sign)) idx c).add blake2b key sign =
                ⟨sign, key, fingerprint blake2b key⟩ := by
              rw [← pureKey_eq_some hpure, cellWith_erase hmem, honce]
              rfl
            have hempty := eq_empty_of_add halone hkey
              ((length_cellWith_le _ _ _).trans (hshort.trans_eq hkey.symm))
            have hlt : idx < (removeOthers blake2b key sign idx idxs s.cells s.stack).1.length := by
              by_contra hge
              rw [if_pos rfl, hc, List.getElem?_eq_none (not_lt.mp hge)] at hother
              cases hother
            rw [if_pos rfl, if_pos hlt, hc, Option.map_some, hempty]
          · rw [if_neg hj, hother, if_neg (Ne.symm hj)]
            cases hres : residue[j]? with
            | none => rfl
            | some c' =>
              have hshort' := h.short c' (List.mem_of_getElem? hres)
              simp only [Option.map_some, Option.some.injEq]
              rw [cellWith_erase hmem, ← hindexes]
              exact iterate_add_neg_cancel _
                ((length_cellWith_le _ _ _).trans (hshort'.trans_eq hkey.symm))
        · simp only
          split <;> simp only [List.length_append, List.length_singleton] <;> omega

/-- The loop takes a step for each index on the stack or pushed by a key, and reports no more
keys. -/
theorem decodeLoop_ends {residue : List IbltCell} {keys : List (Bytes × Int)}
    (h : t.Holds blake2b residue keys) (fuel : Nat) {left : List (Bytes × Int)} (hleft : left.Sublist keys)
    {s : DecodeState} (hs : t.Holding blake2b residue left s)
    (hfuel : left.length * t.seeds.length + s.stack.length ≤ fuel) :
    ∃ s', t.decodeLoop blake2b fuel s = some (.ok s') ∧
      s'.plus.length + s'.minus.length ≤ s.plus.length + s.minus.length + left.length := by
  induction fuel generalizing left s with
  | zero =>
    have hstack : s.stack = [] := List.length_eq_zero_iff.mp (by omega)
    unfold decodeLoop
    simp only [hstack]
    exact ⟨s, rfl, Nat.le_add_right _ _⟩
  | succ fuel ih =>
    unfold decodeLoop
    cases hstack : s.stack with
    | nil => exact ⟨s, rfl, Nat.le_add_right _ _⟩
    | cons idx rest =>
      rw [hstack, List.length_cons] at hfuel
      have hpopped : t.Holding blake2b residue left { s with stack := rest } := hs
      simp only
      rcases decodeStep_spec h hleft hpopped idx with hsame | ⟨key, hmem, s', hstep, hs', hpush, hreport⟩
      · rw [hsame]
        exact ih hleft hpopped (by simp only; omega)
      · rw [hstep]
        have hlength : (left.erase key).length + 1 = left.length := by
          rw [List.length_erase_of_mem hmem]
          have := List.length_pos_of_mem hmem
          omega
        have hmul : (left.erase key).length * t.seeds.length + t.seeds.length =
            left.length * t.seeds.length := by
          rw [← hlength, Nat.succ_mul]
        simp only at hpush hreport
        obtain ⟨s'', hloop, hle⟩ := ih (List.erase_sublist.trans hleft) hs' (by omega)
        exact ⟨s'', hloop, by omega⟩

/-- A key whose digests send it to three different cells of three. -/
def sampleKey : Bytes := List.replicate keySize 3

/-- The digests of that key. -/
def sampleBlake2b : Blake2b := fun data key =>
  if data ≠ sampleKey then 0
  else if key = 0x243F6A8885A308D3 then 3432158427437668248
  else if key = 0x13198A2E03707344 then 134975993233855300
  else if key = 0xA4093822299F31D0 then 7054894006519628294
  else if key = fingerprintSeed then 4698277243729576517
  else 0

/-- The cell that holds the key alone, with either sign. -/
def sampleCell (sign : Int) : IbltCell := ⟨sign, sampleKey, 4698277243729576517⟩

/-- Three cells. -/
def sampleTable (a b c : IbltCell) : Iblt where
  size := 3
  seeds := defaultSeeds
  cells := [a, b, c]
  size_pos := by decide
  cells_length := rfl

/-- A table that has the key in the first of its cells only, as a peer sends it. -/
def lonelyDict : Dict :=
  let empty := PyVal.list [.int 0, .str "AAAAAAAAAAAAAAAAAAAAAAAAAAAAAAAAAAAAAAAAAAA=", .int 0]
  [("m", .int 3),
    ("c", .list [
      .list [.int 1, .str "AwMDAwMDAwMDAwMDAwMDAwMDAwMDAwMDAwMDAwMDAwM=", .int 4698277243729576517],
      empty, empty])]

/-- `base64.b64decode` on the texts of that table. -/
def sampleB64Decode (s : String) : Option Bytes :=
  if s = "AwMDAwMDAwMDAwMDAwMDAwMDAwMDAwMDAwMDAwMDAwM=" then some sampleKey
  else if s = "AAAAAAAAAAAAAAAAAAAAAAAAAAAAAAAAAAAAAAAAAAA=" then some (List.replicate keySize 0)
  else none

/-- A lonely key goes into the other cells with the opposite sign, and the last one puts it back. -/
theorem decodeLoop_lonely (fuel : Nat) (rest : List Nat) (plus minus : List Bytes) :
    let t := sampleTable (sampleCell 1) {} {}
    t.decodeLoop sampleBlake2b fuel ⟨[sampleCell 1, {}, {}], 0 :: rest, plus, minus⟩ = none ∧
    t.decodeLoop sampleBlake2b fuel ⟨[{}, sampleCell (-1), sampleCell (-1)], 2 :: 1 :: rest, plus,
      minus⟩ = none := by
  intro t
  induction fuel generalizing rest plus minus with
  | zero => exact ⟨rfl, rfl⟩
  | succ fuel ih =>
    have hidxs : t.indexes sampleBlake2b sampleKey = .ok [0, 1, 2] := by
      decide +kernel
    have hput : IbltCell.add sampleBlake2b sampleKey (-1) {} = sampleCell (-1) ∧
        IbltCell.add sampleBlake2b sampleKey 1 {} = sampleCell 1 ∧
        IbltCell.add sampleBlake2b sampleKey 1 (sampleCell (-1)) = {} := by
      decide +kernel
    have hpure : pureKey sampleBlake2b (sampleCell 1) = some (sampleKey, 1) ∧
        pureKey sampleBlake2b (sampleCell (-1)) = some (sampleKey, -1) := by
      decide +kernel
    have hcounts : (sampleCell 1).count.natAbs = 1 ∧ (sampleCell (-1)).count.natAbs = 1 := by
      decide
    have hfirst : t.decodeStep sampleBlake2b ⟨[sampleCell 1, {}, {}], rest, plus, minus⟩ 0 =
        .ok ⟨[{}, sampleCell (-1), sampleCell (-1)], 2 :: 1 :: rest, plus ++ [sampleKey], minus⟩ := by
      simp [decodeStep, hpure, hidxs, removeOthers, hput, hcounts, bind, Except.bind, pure,
        Except.pure]
    have hlast : t.decodeStep sampleBlake2b
        ⟨[{}, sampleCell (-1), sampleCell (-1)], 1 :: rest, plus, minus⟩ 2 =
        .ok ⟨[sampleCell 1, {}, {}], 0 :: 1 :: rest, plus, minus ++ [sampleKey]⟩ := by
      simp [decodeStep, hpure, hidxs, removeOthers, hput, hcounts, bind, Except.bind, pure,
        Except.pure]
    constructor
    · unfold decodeLoop
      simp only [hfirst]
      exact (ih _ _ _).2
    · unfold decodeLoop
      simp only [hlast]
      exact (ih _ _ _).1

end Iblt

end Vincent.Mesh
