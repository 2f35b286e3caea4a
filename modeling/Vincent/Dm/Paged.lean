-- SUMMARY: Collecting a mailbox page by page.
import Vincent.Dm.Mailboxes
import Vincent.General.Paging
import Vincent.General.Run

/-!
# Pages of messages

A collect with a limit puts back, by id, what is beyond the limit, so that pages hold
each message once, in order. The Reticulum bridge first drops what has outlived the
mailbox. A stamp that is not a number has no place in the order.
-/

namespace Vincent.Dm.Paged

open Vincent.Python Vincent.Paging Vincent.Sort Vincent.Run

/-! ## The Reticulum bridge -/

/-- An item of a mailbox of the bridge. -/
structure PrivateDm where
  senderId : String := ""
  ciphertext : String := ""
  timestamp : PyFloat
  msgId : String
  deliveryClass : String := "shared"
  senderSeal : String := ""
  transport : String := "reticulum"
deriving DecidableEq, Repr

/-- `_dm_mailboxes`. -/
abbrev Mailboxes := String → List PrivateDm

section Model

/-- `float(item.get("timestamp", 0) or 0)`. -/
def PrivateDm.time (item : PrivateDm) : PyFloat :=
  if item.timestamp.isZero then .finite 0 else item.timestamp

/-- `_blind_mailbox_key`, with `hmac` the digest under the key. -/
def blindMailboxKey (hmac : String → String) (key : String) : String :=
  if key = "" then "" else hmac key

/-- `MESH_DM_MAILBOX_TTL_S or 900`. -/
def mailboxTtl (setting : Int) : ℚ := if setting = 0 then 900 else setting

/-- The item has not outlived the mailbox. -/
def PrivateDm.lives (setting : Int) (now : ℚ) (item : PrivateDm) : Bool :=
  ((PyFloat.finite now).sub (.finite (mailboxTtl setting))).lt item.time

def pruneStaleMailboxes (setting : Int) (now : ℚ) (boxes : Mailboxes) : Mailboxes :=
  fun key => (boxes key).filter (PrivateDm.lives setting now)

/-- What `_store_private_dm` keeps of an envelope. -/
def privateDmOf (rt : Runtime) (envelope : Dict) (timestamp : PyFloat) : PrivateDm where
  senderId := Dict.text rt envelope "sender_id"
  ciphertext := Dict.text rt envelope "ciphertext"
  timestamp
  msgId := Dict.text rt envelope "msg_id"
  deliveryClass := ((Dict.get envelope "delivery_class" (.str "shared")).or (.str "shared")).toStr rt
  senderSeal := Dict.text rt envelope "sender_seal"

def storePrivateDm (rt : Runtime) (setting : Int) (now : ℚ) (mailboxKey : String) (envelope : Dict)
    (boxes : Mailboxes) : Mailboxes × Except String Unit :=
  let msgId := Dict.text rt envelope "msg_id"
  if mailboxKey = "" ∨ msgId = "" then (boxes, .ok ())
  else
    let boxes := pruneStaleMailboxes setting now boxes
    if (boxes mailboxKey).any fun item => item.msgId = msgId then (boxes, .ok ())
    else
      let stamp := (Dict.get envelope "timestamp" (.int 0)).or (.float (.finite now))
      match pyFloat rt stamp with
      | .error exn => (boxes, .error exn)
      | .ok timestamp =>
        (Function.update boxes mailboxKey
          (boxes mailboxKey ++ [privateDmOf rt envelope timestamp]), .ok ())

/-- The mailboxes that a list of keys stands for. -/
def blindedKeys (hmac : String → String) (mailboxKeys : List String) : List String :=
  (mailboxKeys.map (blindMailboxKey hmac)).filter fun key => key ≠ ""

/-- In the order of the time stamps: an item stays before one that is not earlier. -/
def sortItems (items : List PrivateDm) : List PrivateDm :=
  items.insertionSort fun a b => (b.time.lt a.time) = false

/-- `collect_private_dm`: the mailboxes, the items, and whether more are left. -/
def collectPrivateDm (hmac : String → String) (setting : Int) (now : ℚ) (mailboxKeys : List String)
    (limit : ℕ) (boxes : Mailboxes) : Mailboxes × List PrivateDm × Bool :=
  let boxes := pruneStaleMailboxes setting now boxes
  let keys := blindedKeys hmac mailboxKeys
  let out := (keys.flatMap boxes).filter fun item => item.msgId ≠ ""
  let sortedOut := sortItems (readOnce PrivateDm.msgId out)
  if 0 < limit ∧ limit < sortedOut.length then
    let kept := sortedOut.take limit
    (fun key =>
      if keys.count key = 1 then
        (boxes key).filter fun item => !(kept.any fun m => m.msgId = item.msgId)
      else if key ∈ keys then [] else boxes key, kept, true)
  else (fun key => if key ∈ keys then [] else boxes key, sortedOut, false)

def privateDmIds (hmac : String → String) (setting : Int) (now : ℚ) (mailboxKeys : List String)
    (boxes : Mailboxes) : Finset String :=
  let boxes := pruneStaleMailboxes setting now boxes
  ((((blindedKeys hmac mailboxKeys).flatMap boxes).map (·.msgId)).filter fun id => id ≠ "").toFinset

def countPrivateDm (hmac : String → String) (setting : Int) (now : ℚ) (mailboxKeys : List String)
    (boxes : Mailboxes) : ℕ :=
  (privateDmIds hmac setting now mailboxKeys boxes).card

end Model

/-- `len` of what `_collect_from_keys` reads with `destructive=False`. -/
def countFromKeys (keys : List String) (s : Relay) : ℕ :=
  (sortMessages (readMailboxes s.mailboxes keys)).length

/-! ## The mailboxes of the bridge -/

section

variable {setting : Int} {now : ℚ} {boxes : Mailboxes} {hmac : String → String}
  {mailboxKeys : List String} {limit : ℕ}

/-- Every mailbox holds distinct ids, and none that is empty. -/
def Kept (boxes : Mailboxes) : Prop :=
  ∀ key, ((boxes key).map (·.msgId)).Nodup ∧ ∀ item ∈ boxes key, item.msgId ≠ ""

theorem Kept.prune (h : Kept boxes) : Kept (pruneStaleMailboxes setting now boxes) :=
  fun key => ⟨(h key).1.sublist (List.filter_sublist.map _),
    fun item hitem => (h key).2 item (List.mem_filter.mp hitem).1⟩

theorem storePrivateDm_kept {rt : Runtime} {mailboxKey : String} {envelope : Dict}
    (h : Kept boxes) : Kept (storePrivateDm rt setting now mailboxKey envelope boxes).1 := by
  unfold storePrivateDm
  dsimp only
  split_ifs with hmissing hheld
  · exact h
  · exact h.prune
  · split
    · exact h.prune
    · intro key
      dsimp only
      rcases eq_or_ne key mailboxKey with rfl | hne
      · rw [Function.update_self, List.map_append, List.map_singleton]
        push Not at hmissing
        refine ⟨List.nodup_append'.mpr ⟨(h.prune key).1, List.nodup_singleton _, ?_⟩, ?_⟩
        · simpa [privateDmOf] using hheld
        · intro item hitem
          rcases List.mem_append.mp hitem with hitem | hitem
          · exact (h.prune key).2 item hitem
          · rw [List.mem_singleton.mp hitem]
            exact hmissing.2
      · rw [Function.update_of_ne hne]
        exact h.prune key

theorem pruneStaleMailboxes_of_lives
    (h : ∀ key, ∀ item ∈ boxes key, item.lives setting now = true) :
    pruneStaleMailboxes setting now boxes = boxes :=
  funext fun key => List.filter_eq_self.mpr (h key)

theorem lives_of_prune {key : String} {item : PrivateDm}
    (h : item ∈ pruneStaleMailboxes setting now boxes key) : item.lives setting now = true :=
  (List.mem_filter.mp h).2

theorem time_ne_nan {item : PrivateDm} (h : item.lives setting now = true) : item.time ≠ .nan := by
  intro hnan
  unfold PrivateDm.lives at h
  rw [hnan] at h
  revert h
  cases (PyFloat.finite now).sub (.finite (mailboxTtl setting)) <;> exact Bool.false_ne_true

theorem blindedKeys_nodup (hnodup : mailboxKeys.Nodup)
    (hhmac : ∀ k ∈ mailboxKeys, ∀ k' ∈ mailboxKeys, hmac k = hmac k' → k = k') :
    (blindedKeys hmac mailboxKeys).Nodup := by
  unfold blindedKeys
  rw [List.filter_map]
  refine List.Nodup.map_on ?_ (hnodup.filter _)
  intro k hk k' hk' heq
  obtain ⟨hk, hne⟩ := List.mem_filter.mp hk
  obtain ⟨hk', hne'⟩ := List.mem_filter.mp hk'
  have hblind : ∀ key, blindMailboxKey hmac key ≠ "" → blindMailboxKey hmac key = hmac key := by
    intro key hkey
    unfold blindMailboxKey at hkey ⊢
    split_ifs at hkey ⊢ with hempty
    · exact absurd rfl hkey
    · rfl
  rw [hblind k (by simpa using hne), hblind k' (by simpa using hne')] at heq
  exact hhmac k hk k' hk' heq

theorem filter_ids (hids : ∀ key, ∀ item ∈ boxes key, item.msgId ≠ "") (keys : List String) :
    ((keys.flatMap (pruneStaleMailboxes setting now boxes)).filter fun item => item.msgId ≠ "") =
      keys.flatMap (pruneStaleMailboxes setting now boxes) := by
  rw [List.filter_eq_self]
  intro item hitem
  obtain ⟨key, -, hin⟩ := List.mem_flatMap.mp hitem
  exact decide_eq_true (hids key item (List.mem_filter.mp hin).1)

/-- The bridge collects from its mailboxes once they are pruned. -/
theorem collectPrivateDm_eq (hnodup : (blindedKeys hmac mailboxKeys).Nodup)
    (hids : ∀ key, ∀ item ∈ boxes key, item.msgId ≠ "") :
    collectPrivateDm hmac setting now mailboxKeys limit boxes =
      collect PrivateDm.msgId (fun a b => (b.time.lt a.time) = false)
        (blindedKeys hmac mailboxKeys) limit (pruneStaleMailboxes setting now boxes) := by
  have hcount : ∀ key, (blindedKeys hmac mailboxKeys).count key = 1 ↔
      key ∈ blindedKeys hmac mailboxKeys := by
    intro key
    constructor
    · intro h
      exact List.count_pos_iff.mp (by omega)
    · exact List.count_eq_one_of_mem hnodup
  unfold collectPrivateDm
  dsimp only
  rw [filter_ids hids]
  unfold collect readSorted sortItems
  dsimp only
  split
  · refine Prod.ext (funext fun key => ?_) rfl
    by_cases hkey : key ∈ blindedKeys hmac mailboxKeys
    · dsimp only
      rw [if_pos ((hcount key).mpr hkey), if_pos hkey]
    · dsimp only
      rw [if_neg fun h => hkey ((hcount key).mp h), if_neg hkey, if_neg hkey]
  · rfl

/-- A collect leaves nothing in a mailbox that was not there. -/
theorem mem_of_mem_collect {α : Type} {id : α → String} {r : α → α → Prop} [DecidableRel r]
    {keys : List String} {table : String → List α} {key : String} {a : α}
    (h : a ∈ (collect id r keys limit table).1 key) : a ∈ table key := by
  unfold collect at h
  dsimp only at h
  split at h <;> dsimp only at h <;> split at h
  · exact (List.mem_filter.mp h).1
  · exact h
  · exact absurd h List.not_mem_nil
  · exact h

theorem countPrivateDm_eq (hids : ∀ key, ∀ item ∈ boxes key, item.msgId ≠ "") :
    countPrivateDm hmac setting now mailboxKeys boxes =
      (readSorted PrivateDm.msgId (fun a b => (b.time.lt a.time) = false)
        (blindedKeys hmac mailboxKeys) (pruneStaleMailboxes setting now boxes)).length := by
  rw [readSorted_length]
  unfold countPrivateDm privateDmIds
  dsimp only
  rw [List.filter_eq_self.mpr]
  intro id hid
  obtain ⟨item, hitem, rfl⟩ := List.mem_map.mp hid
  obtain ⟨key, -, hin⟩ := List.mem_flatMap.mp hitem
  exact decide_eq_true (hids key item (List.mem_filter.mp hin).1)

end

/-! ## The order of the stamps -/

/-- Where no stamp is NaN, sorting by it is sorting by an order. -/
theorem stamp_orderOn {α : Type} (stamp : α → PyFloat) :
    OrderOn (fun a b => ((stamp b).lt (stamp a)) = false) fun a => stamp a ≠ .nan where
  total a b ha hb := by
    rw [← Bool.not_eq_true, ← Bool.not_eq_true, PyFloat.lt_place hb ha, PyFloat.lt_place ha hb,
      not_lt, not_lt]
    exact le_total _ _
  trans a b c ha hb hc := by
    rw [← Bool.not_eq_true, ← Bool.not_eq_true, ← Bool.not_eq_true, PyFloat.lt_place hb ha,
      PyFloat.lt_place hc hb, PyFloat.lt_place hc ha, not_lt, not_lt, not_lt]
    exact le_trans

theorem stamp_le {a b : PyFloat} (ha : a ≠ .nan) (hb : b ≠ .nan) (h : b.lt a = false) :
    a.le b = true := by
  unfold PyFloat.le
  simp [ha, hb, h]

theorem collectFromKeys_eq (keys : List String) (limit : ℕ) (s : Relay) :
    (collectFromKeys keys limit s).1.mailboxes =
        (collect DMMessage.msgId (fun a b => (b.timestamp.lt a.timestamp) = false) keys limit
          s.mailboxes).1 ∧
      (collectFromKeys keys limit s).2 =
        (collect DMMessage.msgId (fun a b => (b.timestamp.lt a.timestamp) = false) keys limit
          s.mailboxes).2 := by
  have hread : sortMessages (readMailboxes s.mailboxes keys) =
      readSorted DMMessage.msgId (fun a b => (b.timestamp.lt a.timestamp) = false) keys
        s.mailboxes := rfl
  unfold collectFromKeys collect
  dsimp only
  rw [hread]
  split
  · exact ⟨rfl, rfl⟩
  · exact ⟨rfl, rfl⟩

/-! ## Pages -/

/-- Where no stamp is NaN, pages return each message once, in order; the bridge, what lives. -/
theorem collected_in_pages :
    (∀ (keys : List String) (limits : ℕ → ℕ) (s : Relay), keys.Nodup →
      (∀ key ∈ keys, ∀ m ∈ s.mailboxes key, m.timestamp ≠ .nan) →
      PagesOut DMMessage.msgId (fun a b => a.timestamp.le b.timestamp = true)
        (collectFromKeys keys) Relay.mailboxes keys limits s (countFromKeys keys s)) ∧
    (∀ (env : RelayEnv) (now : ℚ) (agentId : String) (claims : List MailboxClaim) (limit : ℕ)
      (s : Relay),
      let (claimed, keys) := claimKeys env now agentId (claims.take 32) (cleanupExpired now s)
      collectClaims env now agentId claims limit s = collectFromKeys keys.dedup limit claimed ∧
      (countClaims env now agentId claims s).2 = countFromKeys keys.dedup claimed) ∧
    ∀ (hmac : String → String) (setting : Int) (now : ℚ) (mailboxKeys : List String)
      (limits : ℕ → ℕ) (boxes : Mailboxes), mailboxKeys.Nodup →
      (∀ k ∈ mailboxKeys, ∀ k' ∈ mailboxKeys, hmac k = hmac k' → k = k') →
      (∀ key, ∀ item ∈ boxes key, item.msgId ≠ "") →
      PagesOut PrivateDm.msgId (fun a b => a.time.le b.time = true)
        (collectPrivateDm hmac setting now mailboxKeys) (pruneStaleMailboxes setting now)
        (blindedKeys hmac mailboxKeys) limits boxes
        (countPrivateDm hmac setting now mailboxKeys boxes) := by
  refine ⟨fun keys limits s _ hstamps => ?_, fun env now agentId claims limit s => ⟨rfl, rfl⟩,
    fun hmac setting now mailboxKeys limits boxes hnodup hhmac hids => ?_⟩
  · exact pagesOut_of_collect (fun _ => True) (stamp_orderOn DMMessage.timestamp)
      (fun a b ha hb hab => stamp_le ha hb hab)
      (fun limit s _ => ⟨trivial, collectFromKeys_eq keys limit s⟩) trivial hstamps
  · have hkeys := blindedKeys_nodup hnodup hhmac
    rw [countPrivateDm_eq hids]
    refine pagesOut_of_collect
      (fun boxes : Mailboxes => ∀ key, ∀ item ∈ boxes key, item.msgId ≠ "")
      (stamp_orderOn PrivateDm.time) (fun a b ha hb hab => stamp_le ha hb hab)
      (fun limit boxes hids => ?_) hids
      (fun key _ item hitem => time_ne_nan (lives_of_prune hitem))
    rw [collectPrivateDm_eq hkeys hids]
    refine ⟨fun key item hitem => ?_, ?_, rfl⟩
    · exact hids key item (List.mem_filter.mp (mem_of_mem_collect hitem)).1
    · exact pruneStaleMailboxes_of_lives fun key item hitem =>
        lives_of_prune (mem_of_mem_collect hitem)

/-- A message of the sample mailboxes. -/
def messageAt (msgId : String) (timestamp : PyFloat) : DMMessage where
  senderId := "bob"
  ciphertext := "c"
  timestamp
  msgId
  deliveryClass := "request"

def boxOf {α : Type} (items : List α) : String → List α := fun key => if key = "k" then items else []

/-- Two messages in a mailbox, and one item that has outlived its own. -/
theorem collected_in_pages_sample :
    PagesOut DMMessage.msgId (fun a b => a.timestamp.le b.timestamp = true)
      (collectFromKeys ["k"]) Relay.mailboxes ["k"] (fun _ => 1)
      { mailboxes := boxOf [messageAt "m2" (.finite 20), messageAt "m1" (.finite 10)] } 2 ∧
    PagesOut PrivateDm.msgId (fun a b => a.time.le b.time = true)
      (collectPrivateDm (fun key => key) 900 1000 ["k"]) (pruneStaleMailboxes 900 1000) ["k"]
      (fun _ => 1) (boxOf [{ timestamp := .finite 50, msgId := "m1" },
        { timestamp := .finite 500, msgId := "m2" }]) 1 := by
  have h := collected_in_pages
  constructor
  · refine h.1 ["k"] (fun _ => 1) _ (List.nodup_singleton _) ?_
    intro key hkey m hm
    rw [List.mem_singleton.mp hkey] at hm
    simp only [boxOf, if_pos, List.mem_cons, List.not_mem_nil, or_false] at hm
    rcases hm with rfl | rfl <;> decide +kernel
  · have hids : ∀ key, ∀ item ∈ boxOf [{ timestamp := .finite 50, msgId := "m1" },
        ({ timestamp := .finite 500, msgId := "m2" } : PrivateDm)] key, item.msgId ≠ "" := by
      intro key item hitem
      unfold boxOf at hitem
      split at hitem
      · simp only [List.mem_cons, List.not_mem_nil, or_false] at hitem
        rcases hitem with rfl | rfl <;> decide +kernel
      · exact absurd hitem List.not_mem_nil
    have hkeys : blindedKeys (fun key => key) ["k"] = ["k"] := by decide +kernel
    have hcount : countPrivateDm (fun key => key) 900 1000 ["k"]
        (boxOf [{ timestamp := .finite 50, msgId := "m1" },
          { timestamp := .finite 500, msgId := "m2" }]) = 1 := by decide +kernel
    have hpages := h.2.2 (fun key => key) 900 1000 ["k"] (fun _ => 1) _ (List.nodup_singleton _)
      (fun _ _ _ _ heq => heq) hids
    rwa [hkeys, hcount] at hpages

/-- The bridge drops what has outlived its mailbox, and NaN has no place in the order. -/
theorem not_collected_in_pages :
    (¬ ∀ (hmac : String → String) (setting : Int) (now : ℚ) (mailboxKeys : List String)
      (limits : ℕ → ℕ) (boxes : Mailboxes), mailboxKeys.Nodup →
      (∀ k ∈ mailboxKeys, ∀ k' ∈ mailboxKeys, hmac k = hmac k' → k = k') → Kept boxes →
      (∀ n, 0 < limits n) →
      PagesOut PrivateDm.msgId (fun a b => a.time.le b.time = true)
        (collectPrivateDm hmac setting now mailboxKeys) (fun boxes => boxes)
        (blindedKeys hmac mailboxKeys) limits boxes
        (countPrivateDm hmac setting now mailboxKeys boxes)) ∧
    ¬ ∀ (keys : List String) (limits : ℕ → ℕ) (s : Relay), keys.Nodup →
      (∀ key, ((s.mailboxes key).map (·.msgId)).Nodup ∧ ∀ m ∈ s.mailboxes key, m.msgId ≠ "") →
      (∀ n, 0 < limits n) →
      PagesOut DMMessage.msgId (fun a b => a.timestamp.le b.timestamp = true)
        (collectFromKeys keys) Relay.mailboxes keys limits s (countFromKeys keys s) := by
  constructor
  · intro h
    obtain ⟨n, hbefore, -, -, hids, -⟩ := (h (fun key => key) 900 1000 ["k"] (fun _ => 1)
      (boxOf [{ timestamp := .finite 50, msgId := "m1" }]) (List.nodup_singleton _)
      (fun _ _ _ _ heq => heq) (fun key => by
        unfold boxOf
        split
        · exact ⟨List.nodup_singleton _, fun item hitem => by
            rw [List.mem_singleton.mp hitem]
            decide +kernel⟩
        · exact ⟨List.nodup_nil, fun item hitem => absurd hitem List.not_mem_nil⟩)
      (fun _ => Nat.one_pos)).ends
    -- the first call says that it left no more
    have hzero : n = 0 := by
      by_contra hne
      have hmore := hbefore 0 (Nat.pos_of_ne_zero hne)
      revert hmore
      decide +kernel
    subst hzero
    have hheld := (hids "m1").mpr ⟨"k", by decide +kernel, _, List.mem_singleton.mpr rfl, rfl⟩
    revert hheld
    decide +kernel
  · intro h
    obtain ⟨n, hbefore, -, -, -, hsorted, -⟩ := (h ["k"] (fun _ => 2)
      { mailboxes := boxOf [messageAt "m1" (.finite 10), messageAt "m2" .nan] }
      (List.nodup_singleton _) (fun key => by
        dsimp only
        unfold boxOf
        split
        · exact ⟨by decide +kernel, fun m hm => by
            simp only [List.mem_cons, List.not_mem_nil, or_false] at hm
            rcases hm with rfl | rfl <;> decide +kernel⟩
        · exact ⟨List.nodup_nil, fun m hm => absurd hm List.not_mem_nil⟩)
      (fun _ => Nat.two_pos)).ends
    have hzero : n = 0 := by
      by_contra hne
      have hmore := hbefore 0 (Nat.pos_of_ne_zero hne)
      revert hmore
      decide +kernel
    subst hzero
    revert hsorted
    decide +kernel

/-! ## Calls of the bridge -/

inductive BridgeCall where
  | store (now : ℚ) (mailboxKey : String) (envelope : Dict)
  | collect (now : ℚ) (mailboxKeys : List String) (limit : ℕ)

section

variable {rt : Runtime} {hmac : String → String} {setting : Int} {boxes : Mailboxes}
  {now : ℚ} {mailboxKeys : List String} {limit : ℕ}

def bridgeStep (rt : Runtime) (hmac : String → String) (setting : Int) (boxes : Mailboxes) :
    BridgeCall → Mailboxes
  | .store now mailboxKey envelope => (storePrivateDm rt setting now mailboxKey envelope boxes).1
  | .collect now mailboxKeys limit => (collectPrivateDm hmac setting now mailboxKeys limit boxes).1

/-- The envelope of the call has this id. -/
def BridgeCall.Carries (rt : Runtime) (msgId : String) : BridgeCall → Prop
  | .store _ _ envelope => Dict.text rt envelope "msg_id" = msgId
  | .collect .. => False

/-- The mailboxes hold no item with this id. -/
def Gone (keys : List String) (msgId : String) (boxes : Mailboxes) : Prop :=
  ∀ key ∈ keys, ∀ item ∈ boxes key, item.msgId ≠ msgId

/-- A collect leaves of a mailbox only what was there, and takes what it returns out of all. -/
theorem collectPrivateDm_leaves {key : String} {item : PrivateDm}
    (h : item ∈ (collectPrivateDm hmac setting now mailboxKeys limit boxes).1 key) :
    item ∈ boxes key ∧ (key ∈ blindedKeys hmac mailboxKeys →
      ∀ m ∈ (collectPrivateDm hmac setting now mailboxKeys limit boxes).2.1,
        item.msgId ≠ m.msgId) := by
  unfold collectPrivateDm at h ⊢
  dsimp only at h ⊢
  split_ifs at h ⊢
  · dsimp only at h
    split_ifs at h with hone hmem
    · obtain ⟨hold, hleft⟩ := List.mem_filter.mp h
      refine ⟨(List.mem_filter.mp hold).1, fun _ m hm hsame => ?_⟩
      simp only [Bool.not_eq_true', List.any_eq_false, decide_eq_true_eq] at hleft
      exact hleft m hm hsame.symm
    · exact absurd h List.not_mem_nil
    · exact ⟨(List.mem_filter.mp h).1, fun hin => absurd hin hmem⟩
  · dsimp only at h
    split_ifs at h with hmem
    · exact absurd h List.not_mem_nil
    · exact ⟨(List.mem_filter.mp h).1, fun hin => absurd hin hmem⟩

theorem mem_of_returned {m : PrivateDm}
    (h : m ∈ (collectPrivateDm hmac setting now mailboxKeys limit boxes).2.1) :
    ∃ key ∈ blindedKeys hmac mailboxKeys, m ∈ boxes key := by
  have hsorted : m ∈ sortItems (readOnce PrivateDm.msgId
      (((blindedKeys hmac mailboxKeys).flatMap (pruneStaleMailboxes setting now boxes)).filter
        fun item => item.msgId ≠ "")) := by
    unfold collectPrivateDm at h
    dsimp only at h
    split_ifs at h
    · exact List.mem_of_mem_take h
    · exact h
  have hread := mem_of_mem_readOnce ((List.mem_insertionSort _).mp hsorted)
  obtain ⟨key, hkey, hitem⟩ := List.mem_flatMap.mp (List.mem_filter.mp hread).1
  exact ⟨key, hkey, (List.mem_filter.mp hitem).1⟩

/-- An id that is gone comes back only with an envelope. -/
theorem Gone.bridgeStep {keys : List String} {msgId : String} (h : Gone keys msgId boxes)
    {call : BridgeCall} (hcall : ¬ call.Carries rt msgId) :
    Gone keys msgId (bridgeStep rt hmac setting boxes call) := by
  intro key hkey item hitem
  cases call with
  | store now mailboxKey envelope =>
    have hold : ∀ item ∈ pruneStaleMailboxes setting now boxes key, item.msgId ≠ msgId :=
      fun item hitem => h key hkey item (List.mem_filter.mp hitem).1
    simp only [Paged.bridgeStep, storePrivateDm] at hitem
    split_ifs at hitem with hmissing hheld
    · exact h key hkey item hitem
    · exact hold item hitem
    · split at hitem
      · exact hold item hitem
      · dsimp only at hitem
        rcases eq_or_ne key mailboxKey with rfl | hne
        · rw [Function.update_self] at hitem
          rcases List.mem_append.mp hitem with hitem | hitem
          · exact hold item hitem
          · rw [List.mem_singleton.mp hitem]
            exact hcall
        · rw [Function.update_of_ne hne] at hitem
          exact hold item hitem
  | collect now mailboxKeys limit => exact h key hkey item (collectPrivateDm_leaves hitem).1

/-- What a collect returned comes back only if an envelope with its id is stored again. -/
theorem collectPrivateDm_once {m : PrivateDm}
    (hm : m ∈ (collectPrivateDm hmac setting now mailboxKeys limit boxes).2.1)
    {calls : List BridgeCall} (hcalls : ∀ call ∈ calls, ¬ call.Carries rt m.msgId)
    {later : ℚ} {again : List String} (hagain : again ⊆ mailboxKeys) {limit' : ℕ} :
    let boxes' := run (bridgeStep rt hmac setting)
      (collectPrivateDm hmac setting now mailboxKeys limit boxes).1 calls
    ∀ m' ∈ (collectPrivateDm hmac setting later again limit' boxes').2.1, m'.msgId ≠ m.msgId := by
  intro boxes' m' hm'
  have hgone : Gone (blindedKeys hmac mailboxKeys) m.msgId boxes' :=
    invariant (fun _ _ h hcall => h.bridgeStep hcall)
      (fun key hkey item hitem => (collectPrivateDm_leaves hitem).2 hkey m hm)
      (along_iff_split.mpr fun pre call post heq => hcalls call (by simp [heq]))
  obtain ⟨key, hkey, hin⟩ := mem_of_returned hm'
  refine hgone key ?_ m' hin
  unfold blindedKeys at hkey ⊢
  obtain ⟨hmap, hne⟩ := List.mem_filter.mp hkey
  obtain ⟨raw, hraw, hblind⟩ := List.mem_map.mp hmap
  exact List.mem_filter.mpr ⟨List.mem_map.mpr ⟨raw, hagain hraw, hblind⟩, hne⟩

/-- Two items, of which the first is collected, and a third that comes in. -/
theorem collectPrivateDm_once_sample :
    let item (id : String) : PrivateDm := { timestamp := .finite 500, msgId := id }
    let boxes' := run (bridgeStep asciiRuntime id 900)
      (collectPrivateDm id 900 1000 ["k"] 1 (boxOf [item "m1", item "m2"])).1
      [.store 1001 "k" [("msg_id", .str "m3")]]
    ∀ m' ∈ (collectPrivateDm id 900 1002 ["k"] 0 boxes').2.1, m'.msgId ≠ "m1" :=
  collectPrivateDm_once (m := { timestamp := .finite 500, msgId := "m1" }) (by decide +kernel)
    (by
      intro call hcall
      rw [List.mem_singleton.mp hcall]
      exact fun h : Dict.text asciiRuntime [("msg_id", .str "m3")] "msg_id" = "m1" => by
        revert h
        decide +kernel) (List.Subset.refl _)

end

end Vincent.Dm.Paged
