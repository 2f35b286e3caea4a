-- SUMMARY: Payloads that are sent in shards, and put together in any order.
import Vincent.General.OrderedMap
import Vincent.General.Run
import Vincent.Mesh.IbfExact

/-!
# Shards

A payload is cut into shards of one size, and their xor is sent along. The receiver
keeps what has come, by shard id, and puts the payload together from all shards or from
all but one and the xor.
-/

namespace Vincent.Mesh.Shards

open Vincent.Run Vincent.OrderedMap

section Model

/-! ## Sending -/

/-- `math.ceil(total_len / float(data_shards))`. -/
def shardSize (totalLen dataShards : Nat) : Nat := (totalLen + (dataShards - 1)) / dataShards

/-- A chunk of the payload, filled up with zeros. -/
def shardAt (payload : Bytes) (size idx : Nat) : Bytes :=
  let chunk := (payload.drop (idx * size)).take size
  chunk ++ List.replicate (size - chunk.length) 0

def splitPayload (payload : Bytes) (dataShards : Nat) : List Bytes :=
  if dataShards = 0 then [payload]
  else (List.range dataShards).map (shardAt payload (shardSize payload.length dataShards))

def xorParity : List Bytes → Bytes
  | [] => []
  | blob :: chunks => chunks.foldl xorBytes blob

/-- The body of an `infonet_shard` message, as it is read. -/
structure ShardBody where
  shardId : String
  index : Nat
  dataShards : Nat
  parityShards : Nat
  size : Nat
  length : Nat
  parity : Bool
  fec : String
  data : Bytes
deriving DecidableEq

/-- What `_send_sharded_payload` sends with the xor codec and a parity shard. -/
def shardBodies (shardId : String) (payload : Bytes) (dataShards : Nat) : List ShardBody :=
  let data := splitPayload payload dataShards
  let body (index : Nat) (parity : Bool) (data : Bytes) : ShardBody := {
    shardId, index, dataShards, parityShards := 1, length := payload.length, parity, data
    fec := "xor", size := shardSize payload.length dataShards }
  data.mapIdx (fun idx chunk => body idx false chunk) ++ [body dataShards true (xorParity data)]

/-! ## Receiving -/

structure ShardEntry where
  created : ℚ
  fec : String
  data : OrderedMap Nat Bytes := []
  parity : OrderedMap Nat Bytes := []

abbrev ShardCache := String → Option ShardEntry

def noShards : ShardCache := fun _ => none

/-- `_rs_recover_missing`, of the data, the parity, the numbers of both and the size. -/
abbrev RsRecover := OrderedMap Nat Bytes → OrderedMap Nat Bytes → Nat → Nat → Nat →
  Option (OrderedMap Nat Bytes)

def pruneShards (ttl now : ℚ) (cache : ShardCache) : ShardCache :=
  fun id => (cache id).filter fun entry => now - ttl ≤ entry.created

/-- The shards that are there, one after the other. -/
def joined (dataShards : Nat) (data : OrderedMap Nat Bytes) : Bytes :=
  (List.range dataShards).flatMap fun i => (data.lookup i).getD []

/-- The missing shard, from the parity and the others. -/
def recoverMissing (dataShards missing : Nat) (parityBlob : Bytes) (data : OrderedMap Nat Bytes) :
    Bytes :=
  ((List.range dataShards).filter (· ≠ missing)).foldl
    (fun recovered i => xorBytes recovered ((data.lookup i).getD [])) parityBlob

/-- What is put together of an entry, if it suffices. -/
def assemble (rs : RsRecover) (b : ShardBody) (entry : ShardEntry) : Option Bytes :=
  if b.dataShards = 0 then none
  else if b.dataShards ≤ entry.data.length then some (joined b.dataShards entry.data)
  else if entry.fec = "rs" ∧ 0 < b.parityShards then
    match rs entry.data entry.parity b.dataShards b.parityShards b.size with
    | none | some [] => none
    | some recovered => some (joined b.dataShards
        (recovered.foldl (fun data kv => insert kv.1 kv.2 data) entry.data))
  else if entry.fec = "xor" ∧ entry.data.length = b.dataShards - 1 then
    match entry.parity, (List.range b.dataShards).filter fun i => entry.data.lookup i = none with
    | (_, parityBlob) :: _, [missing] => some (joined b.dataShards
        (insert missing (recoverMissing b.dataShards missing parityBlob entry.data) entry.data))
    | _, _ => none
  else none

/-- The entry of the shard id with the shard in it. -/
def received (now : ℚ) (b : ShardBody) (held : Option ShardEntry) : ShardEntry :=
  let entry := held.getD { created := now, fec := b.fec }
  if b.parity then { entry with parity := insert b.index b.data entry.parity }
  else { entry with data := insert b.index b.data entry.data }

/-- `_handle_infonet_shard`: the cache, and what is passed to `_on_packet`. -/
def handleInfonetShard (rs : RsRecover) (ttl now : ℚ) (b : ShardBody) (cache : ShardCache) :
    ShardCache × Option Bytes :=
  let cache := pruneShards ttl now cache
  if b.shardId = "" then (cache, none)
  else
    let entry := received now b (cache b.shardId)
    match assemble rs b entry with
    | none => (Function.update cache b.shardId (some entry), none)
    | some assembled => (Function.update cache b.shardId none,
        some (if b.length = 0 then assembled else assembled.take b.length) |>.filter (· ≠ []))

end Model

/-! ## The pieces of a payload -/

section

variable {payload : Bytes} {size n m : Nat} {a b : Bytes}

theorem shardAt_length : (shardAt payload size m).length = size := by
  unfold shardAt
  simp only [List.length_append, List.length_replicate, List.length_take, List.length_drop]
  omega

theorem chunks_flatten (payload : Bytes) (size n : Nat) :
    (List.range n).flatMap (shardAt payload size) =
      payload.take (n * size) ++ List.replicate (n * size - payload.length) 0 := by
  induction n with
  | zero => simp
  | succ n ih =>
    rw [List.range_succ, List.flatMap_append, ih, List.flatMap_singleton, Nat.succ_mul, shardAt,
      List.take_add]
    rcases Nat.le_total payload.length (n * size) with hle | hge
    · have hnone : (payload.drop (n * size)).take size = [] := by
        rw [List.drop_eq_nil_of_le hle, List.take_nil]
      rw [hnone, List.nil_append, List.append_nil, List.append_assoc, List.replicate_append_replicate]
      congr 2
      simp only [List.length_nil]
      omega
    · rw [Nat.sub_eq_zero_of_le hge, List.replicate_zero, List.append_nil, List.append_assoc]
      congr 3
      simp only [List.length_take, List.length_drop]
      omega

theorem le_shardSize (hn : 0 < n) : m ≤ n * shardSize m n := by
  have hdiv := Nat.div_add_mod (m + (n - 1)) n
  have hmod := Nat.mod_lt (m + (n - 1)) hn
  unfold shardSize
  omega

/-- All shards, cut to the length of the payload. -/
theorem joined_of_all (hn : 0 < n) {data : OrderedMap Nat Bytes}
    (h : ∀ i < n, data.lookup i = some (shardAt payload (shardSize payload.length n) i)) :
    (joined n data).take payload.length = payload := by
  have hall : joined n data = (List.range n).flatMap (shardAt payload (shardSize payload.length n)) :=
    List.flatMap_congr fun i hi => by rw [h i (List.mem_range.mp hi), Option.getD_some]
  rw [hall, chunks_flatten, List.take_of_length_le (le_shardSize hn), List.take_left]

/-! ## The parity -/

theorem xorBytes_comm (a b : Bytes) : xorBytes a b = xorBytes b a :=
  List.zipWith_comm_of_comm UInt8.xor_comm

theorem xorBytes_cancel (h : a.length = b.length) : xorBytes (xorBytes a b) b = a := by
  induction a generalizing b with
  | nil => rfl
  | cons x a ih =>
    cases b with
    | nil => cases h
    | cons y b =>
      have hrest := ih (Nat.succ.inj h)
      unfold xorBytes at hrest ⊢
      simp [hrest, UInt8.xor_assoc]

theorem replicate_xorBytes (b : Bytes) : xorBytes (List.replicate b.length 0) b = b := by
  unfold xorBytes
  induction b with
  | nil => rfl
  | cons x b ih => simp [List.replicate_succ, ih]

/-- The xor of a list of shards on top of another. -/
def xorAll (shard : Nat → Bytes) (is : List Nat) (a : Bytes) : Bytes :=
  is.foldl (fun a i => xorBytes a (shard i)) a

variable {shard : Nat → Bytes} {is js : List Nat}

theorem xorAll_perm (h : is.Perm js) : xorAll shard is a = xorAll shard js a := by
  have : RightCommutative fun a i => xorBytes a (shard i) :=
    ⟨fun a i j => by rw [xorBytes_assoc, xorBytes_assoc, xorBytes_comm (shard i)]⟩
  exact h.foldl_eq a

theorem xorAll_twice (hshard : ∀ i, (shard i).length = size) (ha : a.length = size) :
    xorAll shard (is ++ is) a = a := by
  induction is generalizing a with
  | nil => rfl
  | cons i is ih =>
    have hperm : (i :: is ++ i :: is).Perm (i :: i :: (is ++ is)) :=
      List.Perm.cons i List.perm_middle
    rw [xorAll_perm hperm]
    change xorAll shard (is ++ is) (xorBytes (xorBytes a (shard i)) (shard i)) = a
    rw [xorBytes_cancel (ha.trans (hshard i).symm), ih ha]

/-- The parity and all shards but one give that one. -/
theorem xorAll_missing (hshard : ∀ i, (shard i).length = size) (hm : m < n) :
    xorAll shard ((List.range n).filter (· ≠ m)) (xorParity ((List.range n).map shard)) = shard m := by
  have hzero : ∀ b : Bytes, b.length = size → xorBytes (List.replicate size 0) b = b :=
    fun b hb => hb ▸ replicate_xorBytes b
  have hparity : xorParity ((List.range n).map shard) =
      xorAll shard (List.range n) (List.replicate size 0) := by
    cases n with
    | zero => omega
    | succ n =>
      rw [List.range_succ_eq_map]
      simp only [xorAll, xorParity, List.map_cons, List.foldl_cons, hzero _ (hshard 0), List.foldl_map]
  have hperm : (List.range n ++ (List.range n).filter (· ≠ m)).Perm
      (m :: ((List.range n).filter (· ≠ m) ++ (List.range n).filter (· ≠ m))) := by
    have herase : (List.range n).erase m = (List.range n).filter (· ≠ m) := by
      rw [List.nodup_range.erase_eq_filter]
      exact List.filter_congr fun i _ => Bool.eq_iff_iff.mpr (by simp)
    have hcons := List.perm_cons_erase (List.mem_range.mpr hm)
    rw [herase] at hcons
    exact hcons.append_right _
  have happend : ∀ is js a, xorAll shard js (xorAll shard is a) = xorAll shard (is ++ js) a :=
    fun is js a => List.foldl_append.symm
  rw [hparity, happend, xorAll_perm hperm]
  change xorAll shard _ (xorBytes _ (shard m)) = _
  rw [hzero _ (hshard m), xorAll_twice hshard (hshard m)]

end

/-! ## Entries -/

section

variable (rs : RsRecover) {ttl now : ℚ} {shardId : String} {payload : Bytes} {n : Nat}
  {entry : ShardEntry} {b : ShardBody} {cache : ShardCache}

/-- What a body of the payload says. -/
structure Honest (shardId : String) (payload : Bytes) (n : Nat) (b : ShardBody) : Prop where
  shardId : b.shardId = shardId
  dataShards : b.dataShards = n
  length : b.length = payload.length
  fec : b.fec = "xor"
  index : if b.parity then b.index = n else b.index < n
  data : b.data = if b.parity then xorParity (splitPayload payload n)
    else shardAt payload (shardSize payload.length n) b.index

theorem splitPayload_eq (hn : 0 < n) : splitPayload payload n =
    (List.range n).map (shardAt payload (shardSize payload.length n)) := if_neg hn.ne'

theorem honest_of_mem (hn : 0 < n) (h : b ∈ shardBodies shardId payload n) :
    Honest shardId payload n b := by
  simp only [shardBodies, splitPayload_eq hn, List.mem_append, List.mem_mapIdx, List.length_map,
    List.length_range, List.getElem_map, List.getElem_range, List.mem_singleton] at h
  rcases h with ⟨i, hi, rfl⟩ | rfl
  · exact ⟨rfl, rfl, rfl, rfl, hi, rfl⟩
  · exact ⟨rfl, rfl, rfl, rfl, rfl, by rw [if_pos rfl, splitPayload_eq hn]⟩

/-- An entry holds pieces of the payload. -/
structure Pieces (payload : Bytes) (n : Nat) (entry : ShardEntry) : Prop where
  fec : entry.fec = "xor"
  distinct : entry.data.Distinct
  data : ∀ i blob, entry.data.lookup i = some blob →
    i < n ∧ blob = shardAt payload (shardSize payload.length n) i
  parity : ∀ kv ∈ entry.parity, kv = (n, xorParity (splitPayload payload n))

/-- How many pieces an entry holds. -/
def ShardEntry.count (entry : ShardEntry) : Nat :=
  entry.data.length + if entry.parity = [] then 0 else 1

theorem Pieces.received {held : Option ShardEntry} (h : ∀ e ∈ held, Pieces payload n e)
    (hb : Honest shardId payload n b) : Pieces payload n (received now b held) := by
  have hstart : Pieces payload n (held.getD { created := now, fec := b.fec }) := by
    cases held with
    | none => exact ⟨hb.fec, distinct_nil, fun _ _ hi => (by cases hi), fun _ hkv => (by cases hkv)⟩
    | some e => exact h e rfl
  have hindex := hb.index
  have hdata := hb.data
  unfold Shards.received
  split_ifs at hindex hdata ⊢ with hparity
  · refine ⟨hstart.fec, hstart.distinct, hstart.data, fun kv hkv => ?_⟩
    rcases mem_insert hkv with rfl | hkv
    · exact Prod.ext hindex hdata
    · exact hstart.parity kv hkv
  · refine ⟨hstart.fec, hstart.distinct.upsert, fun i blob hi => ?_, hstart.parity⟩
    rw [lookup_insert] at hi
    split_ifs at hi with heq
    · cases hi
      exact heq ▸ ⟨hindex, hdata⟩
    · exact hstart.data i blob hi

theorem mem_keys {m : OrderedMap Nat Bytes} {i : Nat} :
    i ∈ m.map Prod.fst ↔ m.lookup i ≠ none := by
  rw [Ne, List.lookup_eq_none_iff]
  simp

/-- The one missing shard is recovered. -/
theorem Pieces.recoverMissing (h : Pieces payload n entry) (hn : 0 < n) {m : Nat} {kv : Nat × Bytes}
    (hkv : kv ∈ entry.parity)
    (hm : ((List.range n).filter fun i => entry.data.lookup i = none) = [m]) :
    recoverMissing n m kv.2 entry.data = shardAt payload (shardSize payload.length n) m := by
  have hmem : m ∈ (List.range n).filter fun i => entry.data.lookup i = none := by rw [hm]; simp
  have hlt := List.mem_range.mp (List.mem_filter.mp hmem).1
  have hxor : xorAll (shardAt payload (shardSize payload.length n)) _ _ = _ :=
    xorAll_missing (fun _ => shardAt_length) hlt
  unfold Shards.recoverMissing
  rw [h.parity kv hkv, splitPayload_eq hn, ← hxor]
  refine List.foldl_ext _ _ _ fun a i hi => ?_
  obtain ⟨hi, hne⟩ := List.mem_filter.mp hi
  have hthere : entry.data.lookup i ≠ none := fun hnone => by
    have hin : i ∈ [m] := hm ▸ List.mem_filter.mpr ⟨hi, decide_eq_true hnone⟩
    exact of_decide_eq_true hne (List.mem_singleton.mp hin)
  obtain ⟨blob, hblob⟩ := Option.ne_none_iff_exists'.mp hthere
  rw [hblob, Option.getD_some, (h.data i blob hblob).2]

/-- An entry with all pieces but one gives the payload, and one with fewer gives nothing. -/
theorem Pieces.assemble (h : Pieces payload n entry) (hn : 0 < n) (hb : Honest shardId payload n b) :
    assemble rs b entry = none ∧ entry.count < n ∨
      ∃ data, assemble rs b entry = some data ∧ data.take payload.length = payload := by
  have hheld : ∀ i, entry.data.lookup i ≠ none →
      entry.data.lookup i = some (shardAt payload (shardSize payload.length n) i) := by
    intro i hi
    obtain ⟨blob, hblob⟩ := Option.ne_none_iff_exists'.mp hi
    rw [hblob, (h.data i blob hblob).2]
  have hperm : (entry.data.map Prod.fst).Perm
      ((List.range n).filter fun i => entry.data.lookup i ≠ none) := by
    refine (List.perm_ext_iff_of_nodup h.distinct (List.nodup_range.filter _)).mpr fun i => ?_
    rw [mem_keys, List.mem_filter, decide_eq_true_eq]
    refine ⟨fun hi => ⟨?_, hi⟩, And.right⟩
    obtain ⟨blob, hblob⟩ := Option.ne_none_iff_exists'.mp hi
    exact List.mem_range.mpr (h.data i blob hblob).1
  have hsplit := List.length_eq_length_filter_add (l := List.range n)
    fun i => decide (entry.data.lookup i ≠ none)
  have hlength := hperm.length_eq
  simp only [List.length_map, List.length_range, decide_not, Bool.not_not] at hsplit hlength
  unfold Shards.assemble
  rw [hb.dataShards, if_neg hn.ne', h.fec]
  by_cases hfull : n ≤ entry.data.length
  · rw [if_pos hfull]
    have hnone : ((List.range n).filter fun i => decide (entry.data.lookup i = none)) = [] :=
      List.eq_nil_of_length_eq_zero (by omega)
    refine .inr ⟨_, rfl, joined_of_all hn fun i hi => hheld i fun hi' => ?_⟩
    exact List.filter_eq_nil_iff.mp hnone i (List.mem_range.mpr hi) (decide_eq_true hi')
  rw [if_neg hfull, if_neg fun h => absurd h.1 (by decide)]
  by_cases hone : entry.data.length = n - 1
  · obtain ⟨m, hm⟩ : ∃ m, ((List.range n).filter fun i => entry.data.lookup i = none) = [m] :=
      List.length_eq_one_iff.mp (by omega)
    rw [if_pos ⟨rfl, hone⟩, hm]
    cases hparity : entry.parity with
    | nil => exact .inl ⟨rfl, by rw [ShardEntry.count, hparity, if_pos rfl]; omega⟩
    | cons kv rest =>
      refine .inr ⟨_, rfl, joined_of_all hn fun i hi => ?_⟩
      rw [lookup_insert, h.recoverMissing hn (hparity ▸ List.mem_cons_self) hm]
      split_ifs with heq
      · rw [heq]
      · refine hheld i fun hnone => heq ?_
        have hin : i ∈ [m] := hm ▸ List.mem_filter.mpr ⟨List.mem_range.mpr hi, decide_eq_true hnone⟩
        exact List.mem_singleton.mp hin
  · rw [if_neg fun h => hone h.2]
    exact .inl ⟨rfl, by unfold ShardEntry.count; split <;> omega⟩

/-! ## Runs -/

/-- The indexes of the pieces that an entry holds. -/
def ShardEntry.held (entry : ShardEntry) : Finset Nat :=
  ((entry.data ++ entry.parity).map Prod.fst).toFinset

theorem Pieces.card_held (h : Pieces payload n entry) : entry.held.card ≤ entry.count := by
  unfold ShardEntry.held ShardEntry.count
  rw [List.map_append, List.toFinset_append]
  refine (Finset.card_union_le _ _).trans (Nat.add_le_add ?_ ?_)
  · exact (List.toFinset_card_le _).trans_eq (List.length_map _)
  · split_ifs with hnone
    · simp [hnone]
    · rw [← Finset.card_singleton n]
      refine Finset.card_le_card fun i hi => ?_
      obtain ⟨kv, hkv, rfl⟩ := List.mem_map.mp (List.mem_toFinset.mp hi)
      exact Finset.mem_singleton.mpr (congrArg Prod.fst (h.parity kv hkv))

theorem held_received (now : ℚ) (b : ShardBody) (held : Option ShardEntry) :
    b.index ∈ (received now b held).held ∧ ∀ e ∈ held, e.held ⊆ (received now b held).held := by
  have hkeys : ∀ {m : OrderedMap Nat Bytes} {k i : Nat} {v : Bytes}, i = k ∨ i ∈ m.map Prod.fst →
      i ∈ (insert k v m).map Prod.fst := by
    intro m k i v hi
    rw [OrderedMap.insert, keys_upsert]
    split_ifs with hk
    · exact hi.elim (fun heq => heq ▸ hk) id
    · exact List.mem_append.mpr (hi.symm.imp_right fun heq => List.mem_singleton.mpr heq)
  unfold received ShardEntry.held
  simp only [List.map_append, List.toFinset_append]
  constructor
  · split_ifs <;> simp [hkeys (.inl rfl)]
  · rintro e rfl i hi
    rw [Option.getD_some]
    simp only [Finset.mem_union, List.mem_toFinset] at hi ⊢
    split_ifs
    · exact hi.imp_right fun hi => hkeys (.inr hi)
    · exact hi.imp_left fun hi => hkeys (.inr hi)

theorem received_created (now : ℚ) (b : ShardBody) (held : Option ShardEntry) :
    (received now b held).created = (held.map ShardEntry.created).getD now := by
  unfold received
  split_ifs <;> cases held <;> rfl

def shardStep (rs : RsRecover) (ttl : ℚ) (cache : ShardCache) (a : ℚ × ShardBody) : ShardCache :=
  (handleInfonetShard rs ttl a.1 a.2 cache).1

/-- What a call hands out for the shard id. -/
def handedOut (rs : RsRecover) (ttl : ℚ) (shardId : String) (cache : ShardCache)
    (a : ℚ × ShardBody) : Option Bytes :=
  if a.2.shardId = shardId then (handleInfonetShard rs ttl a.1 a.2 cache).2 else none

theorem shardStep_other {a : ℚ × ShardBody} (h : a.2.shardId ≠ shardId) :
    shardStep rs ttl cache a shardId = pruneShards ttl a.1 cache shardId ∧
      handedOut rs ttl shardId cache a = none := by
  refine ⟨?_, if_neg h⟩
  unfold shardStep handleInfonetShard
  dsimp only
  by_cases hid : a.2.shardId = ""
  · rw [if_pos hid]
  · rw [if_neg hid]
    cases assemble rs a.2 (received a.1 a.2 (pruneShards ttl a.1 cache a.2.shardId)) <;>
      exact Function.update_of_ne h.symm _ _

/-- A call for the payload keeps its pieces, which do not suffice, or hands it out. -/
theorem shardStep_same {a : ℚ × ShardBody} (hn : 0 < n) (hid : shardId ≠ "")
    (hpayload : payload ≠ []) (ha : Honest shardId payload n a.2)
    (h : ∀ e ∈ pruneShards ttl a.1 cache shardId, Pieces payload n e) :
    (∃ entry, entry = received a.1 a.2 (pruneShards ttl a.1 cache shardId) ∧ Pieces payload n entry ∧
      entry.count < n ∧ shardStep rs ttl cache a shardId = some entry ∧
      handedOut rs ttl shardId cache a = none) ∨
    shardStep rs ttl cache a shardId = none ∧ handedOut rs ttl shardId cache a = some payload := by
  have hpieces : Pieces payload n (received a.1 a.2 (pruneShards ttl a.1 cache shardId)) :=
    Pieces.received h ha
  unfold shardStep handedOut handleInfonetShard
  dsimp only
  rw [if_pos ha.shardId, ha.shardId, if_neg hid, ha.length]
  rcases hpieces.assemble rs hn ha with ⟨hnone, hcount⟩ | ⟨data, hdata, htake⟩
  · rw [hnone]
    exact .inl ⟨_, rfl, hpieces, hcount, Function.update_self .., rfl⟩
  · rw [hdata]
    refine .inr ⟨Function.update_self .., ?_⟩
    simp [htake, hpayload]

/-- Nothing but the payload is handed out under its id. -/
theorem shardStep_pieces {a : ℚ × ShardBody} (hn : 0 < n) (hid : shardId ≠ "")
    (hpayload : payload ≠ []) (hcache : ∀ e ∈ cache shardId, Pieces payload n e)
    (ha : a.2.shardId = shardId → Honest shardId payload n a.2) :
    (∀ e ∈ shardStep rs ttl cache a shardId, Pieces payload n e) ∧
      ∀ data ∈ handedOut rs ttl shardId cache a, data = payload := by
  have hprune : ∀ e ∈ pruneShards ttl a.1 cache shardId, Pieces payload n e :=
    fun e he => hcache e (Option.mem_filter_iff.mp he).1
  by_cases hsame : a.2.shardId = shardId
  · rcases shardStep_same rs hn hid hpayload (ha hsame) hprune with
      ⟨entry, _, hentry, _, hstep, hout⟩ | ⟨hstep, hout⟩
    · rw [hstep, hout]
      exact ⟨fun e he => Option.some.inj he ▸ hentry, fun _ h => (Option.not_mem_none _ h).elim⟩
    · rw [hstep, hout]
      exact ⟨fun _ h => (Option.not_mem_none _ h).elim, fun data h => (Option.some.inj h).symm⟩
  · rw [(shardStep_other rs hsame).1, (shardStep_other rs hsame).2]
    exact ⟨hprune, fun _ h => (Option.not_mem_none _ h).elim⟩

def heldOf (cache : ShardCache) (shardId : String) : Finset Nat :=
  (cache shardId).elim ∅ ShardEntry.held

/-- While nothing is handed out, all pieces that came in time are held, and they are too few. -/
theorem held_of_silent (hn : 0 < n) (hid : shardId ≠ "") (hpayload : payload ≠ []) {start : ℚ}
    {as : List (ℚ × ShardBody)} (ha : ∀ a ∈ as, a.2.shardId = shardId → Honest shardId payload n a.2)
    (htime : ∀ a ∈ as, start ≤ a.1 ∧ a.1 ≤ start + ttl)
    (hcache : ∀ e ∈ cache shardId, Pieces payload n e ∧ start ≤ e.created)
    (hcard : (heldOf cache shardId).card < n)
    (hsilent : outputs (shardStep rs ttl) (handedOut rs ttl shardId) cache as = []) :
    ∃ pieces : Finset Nat, pieces.card < n ∧ heldOf cache shardId ⊆ pieces ∧
      ∀ a ∈ as, a.2.shardId = shardId → a.2.index ∈ pieces := by
  induction as generalizing cache with
  | nil => exact ⟨_, hcard, subset_rfl, fun _ h => (List.not_mem_nil h).elim⟩
  | cons a as ih =>
    obtain ⟨hnow, hrestSilent⟩ := List.append_eq_nil_iff.mp hsilent
    obtain ⟨hafter, hbefore⟩ := htime a List.mem_cons_self
    have hrest := @ih (shardStep rs ttl cache a) (fun a ha' => ha a (List.mem_cons_of_mem _ ha'))
      fun a ha' => htime a (List.mem_cons_of_mem _ ha')
    have hprune : pruneShards ttl a.1 cache shardId = cache shardId := by
      cases hc : cache shardId with
      | none => rw [pruneShards, hc, Option.filter_none]
      | some e =>
        rw [pruneShards, hc, Option.filter_some, if_pos]
        exact decide_eq_true (by linarith [(hcache e hc).2])
    by_cases hsame : a.2.shardId = shardId
    · rcases shardStep_same rs hn hid hpayload (ha a List.mem_cons_self hsame)
        (fun e he => (hcache e (hprune ▸ he)).1) with
        ⟨entry, hreceived, hentry, hcount, hstep, _⟩ | ⟨_, hout⟩
      · rw [hprune] at hreceived
        have hheldOf : heldOf (shardStep rs ttl cache a) shardId = entry.held := by
          rw [heldOf, hstep, Option.elim_some]
        obtain ⟨hindex, hheld⟩ := held_received a.1 a.2 (cache shardId)
        rw [← hreceived] at hindex hheld
        have hcreated : start ≤ entry.created := by
          rw [hreceived, received_created]
          cases hc : cache shardId with
          | none => exact hafter
          | some e => exact (hcache e hc).2
        obtain ⟨pieces, hfew, hsub, harrived⟩ := hrest
          (fun e he => Option.some.inj (hstep.symm.trans he) ▸ ⟨hentry, hcreated⟩)
          (hheldOf ▸ hentry.card_held.trans_lt hcount) hrestSilent
        rw [hheldOf] at hsub
        refine ⟨pieces, hfew, fun i hi => hsub ?_,
          List.forall_mem_cons.mpr ⟨fun _ => hsub hindex, harrived⟩⟩
        unfold heldOf at hi
        cases hc : cache shardId with
        | none => simp [hc] at hi
        | some e => exact hheld e hc (by simpa [hc] using hi)
      · rw [hout] at hnow
        cases hnow
    · have hstep : shardStep rs ttl cache a shardId = cache shardId :=
        (shardStep_other rs hsame).1.trans hprune
      have hheldOf : heldOf (shardStep rs ttl cache a) shardId = heldOf cache shardId := by
        rw [heldOf, hstep, heldOf]
      obtain ⟨pieces, hfew, hsub, harrived⟩ := hrest (hstep ▸ hcache) (hheldOf ▸ hcard) hrestSilent
      exact ⟨pieces, hfew, hheldOf ▸ hsub,
        List.forall_mem_cons.mpr ⟨fun h => (hsame h).elim, harrived⟩⟩

/-- The parity and the second of two shards. -/
def lastShards : List (ℚ × ShardBody) :=
  ((shardBodies "s" [1, 2, 3] 2).drop 1).reverse.map fun b => (5, b)

end

end Vincent.Mesh.Shards
