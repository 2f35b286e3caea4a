-- SUMMARY: The outbox over runs: one item a key, and no second delivery.
import Vincent.Mesh.Outbox
import Vincent.Python.JsonText

/-!
# Delivered messages

A pass that holds an item can send it again, whatever has become of it since. Once a
message is delivered and no pass holds it, no pass will: a new one copies only what is
pending, and the message is not put back in the queue.
-/

namespace Vincent.Outbox

open Vincent.Python Vincent.Run

/-! ## Items by id and key -/

/-- What the changes of an item keep. -/
def OutboxItem.tag (item : OutboxItem) : String × OutboxKey := (item.id, item.key)

/-- Ids and keys are as `enqueue` makes them, and none stands twice. -/
structure Filed (rt : Runtime) (tags : List (String × OutboxKey)) : Prop where
  id_ne : ∀ t ∈ tags, t.1 ≠ "" ∧ strip t.1 = t.1
  lane_ne : ∀ t ∈ tags, t.2.lane ≠ "" ∧ lowered rt t.2.lane = t.2.lane
  key_ne : ∀ t ∈ tags, t.2.releaseKey ≠ "" ∧ strip t.2.releaseKey = t.2.releaseKey
  ids : (tags.map Prod.fst).Nodup
  keys : (tags.map Prod.snd).Nodup

/-- The items by their ids, and the ids by the keys. -/
structure Indexed (rt : Runtime) (s : PrivateOutbox) : Prop where
  filed : Filed rt (s.items.values.map OutboxItem.tag)
  named : s.items.map Prod.fst = s.items.values.map OutboxItem.id
  index : ∀ key id, s.index.lookup key = some id ↔ (id, key) ∈ s.items.values.map OutboxItem.tag

/-- An item with an id and a key is delivered. -/
def HasDelivered (tag : String × OutboxKey) (items : List OutboxItem) : Prop :=
  ∃ item ∈ items, item.tag = tag ∧ item.releaseState = .delivered

section
variable {rt : Runtime} {s s' t : PrivateOutbox} {item prev upd : OutboxItem}
  {id : String} {key : OutboxKey} {tags : List (String × OutboxKey)}
  {tag : String × OutboxKey} {rest : List (String × OutboxKey)}

theorem Filed.eq_of_id (h : Filed rt tags) {a b : String × OutboxKey} (ha : a ∈ tags)
    (hb : b ∈ tags) (heq : a.1 = b.1) : a = b := List.inj_on_of_nodup_map h.ids ha hb heq

theorem Filed.eq_of_key (h : Filed rt tags) {a b : String × OutboxKey} (ha : a ∈ tags)
    (hb : b ∈ tags) (heq : a.2 = b.2) : a = b := List.inj_on_of_nodup_map h.keys ha hb heq

theorem filed_nil : Filed rt [] where
  id_ne := by simp
  lane_ne := by simp
  key_ne := by simp
  ids := List.nodup_nil
  keys := List.nodup_nil

theorem indexed_empty : Indexed rt {} where
  filed := filed_nil
  named := rfl
  index := by simp [OrderedMap.values]

theorem Indexed.ids (h : Indexed rt s) : (s.items.values.map OutboxItem.id).Nodup := by
  have hnodup := h.filed.ids
  rw [List.map_map] at hnodup
  exact hnodup

theorem Indexed.distinct (h : Indexed rt s) : s.items.Distinct := by
  unfold OrderedMap.Distinct
  rw [h.named]
  exact h.ids

theorem Indexed.eq_of_id (h : Indexed rt s) {a b : OutboxItem} (ha : a ∈ s.items.values)
    (hb : b ∈ s.items.values) (heq : a.id = b.id) : a = b :=
  List.inj_on_of_nodup_map h.ids ha hb heq

theorem Indexed.id_of_lookup (h : Indexed rt s) (hlook : s.items.lookup id = some item) :
    item.id = id := by
  have hmem : (id, item) ∈ s.items := h.distinct.mem_iff.mpr hlook
  have hnamed := h.named
  unfold OrderedMap.values at hnamed
  rw [List.map_map] at hnamed
  have hall := List.map_inj_left.mp hnamed
  exact (hall (id, item) hmem).symm

theorem Indexed.mem_values (h : Indexed rt s) :
    item ∈ s.items.values ↔ s.items.lookup item.id = some item :=
  h.distinct.mem_values_iff fun _ _ => h.id_of_lookup

/-! ## What a change makes of the outbox -/

/-- A change that aims at `t`: it is made and saved, or it is undone, with the file replaced or
    not. -/
inductive Attempted (s t : PrivateOutbox) : PrivateOutbox → Prop where
  | made : Attempted s t { t with file := t.items.values }
  | undone : Attempted s t s
  | undoneLate : Attempted s t { s with file := t.items.values }

/-- The outbox with an item in the place of one with its id. -/
def PrivateOutbox.withItem (s : PrivateOutbox) (item : OutboxItem) : PrivateOutbox :=
  { s with items := s.items.insert item.id item }

theorem replaceItem_attempted (hlook : s.items.lookup id = some prev) (hid : upd.id = id)
    (saving : Saving) : Attempted s (s.withItem upd) (s.replaceItem id prev upd saving).1 := by
  subst hid
  have hback : OrderedMap.insert upd.id prev (OrderedMap.insert upd.id upd s.items) = s.items := by
    rw [OrderedMap.insert_insert]
    exact OrderedMap.insert_of_lookup hlook
  cases saving with
  | saved => exact .made
  | failed =>
    have hsame : (s.replaceItem upd.id prev upd .failed).1 = s := by
      cases s
      simpa [PrivateOutbox.replaceItem, PrivateOutbox.save] using hback
    rw [hsame]
    exact .undone
  | replacedAndFailed =>
    have hsame : (s.replaceItem upd.id prev upd .replacedAndFailed).1 =
        { s with file := (s.withItem upd).items.values } := by
      simpa [PrivateOutbox.replaceItem, PrivateOutbox.save, PrivateOutbox.withItem] using hback
    rw [hsame]
    exact .undoneLate

theorem tags_withItem (hlook : s.items.lookup upd.id = some prev) (htag : upd.tag = prev.tag) :
    (s.withItem upd).items.values.map OutboxItem.tag = s.items.values.map OutboxItem.tag :=
  OrderedMap.map_values_insert hlook htag

theorem Indexed.withItem (h : Indexed rt s) (hlook : s.items.lookup upd.id = some prev)
    (htag : upd.tag = prev.tag) : Indexed rt (s.withItem upd) where
  filed := by
    rw [tags_withItem hlook htag]
    exact h.filed
  named := by
    have hids : (s.withItem upd).items.values.map OutboxItem.id = s.items.values.map OutboxItem.id :=
      OrderedMap.map_values_insert hlook (congrArg Prod.fst htag)
    rw [hids, ← h.named]
    have hkeys := @OrderedMap.keys_upsert _ _ _ upd.id (fun _ => upd) s.items
    rw [if_pos] at hkeys
    · exact hkeys
    · exact List.mem_map.mpr ⟨(upd.id, prev), h.distinct.mem_iff.mpr hlook, rfl⟩
  index := by
    rw [tags_withItem hlook htag]
    exact h.index

/-- The outbox with a new item. -/
def PrivateOutbox.adding (s : PrivateOutbox) (item : OutboxItem) : PrivateOutbox :=
  { s with
    items := s.items.insert item.id item
    index := s.index.insert item.key item.id }

theorem values_adding (hnew : item.id ∉ s.items.map Prod.fst) :
    (s.adding item).items.values = s.items.values ++ [item] := by
  unfold PrivateOutbox.adding OrderedMap.values
  rw [OrderedMap.insert_new hnew]
  simp

theorem index_new (h : Indexed rt s) (hkey : s.index.lookup item.key = none) :
    ∀ other ∈ s.items.values, other.key ≠ item.key := by
  intro other hother heq
  have hfound := (h.index item.key other.id).mpr (List.mem_map.mpr ⟨other, hother, by
    rw [OutboxItem.tag, heq]⟩)
  rw [hkey] at hfound
  cases hfound

/-- An item is fit to be added. -/
structure Fit (rt : Runtime) (s : PrivateOutbox) (item : OutboxItem) : Prop where
  filed : Filed rt [item.tag]
  id_new : item.id ∉ s.items.map Prod.fst
  key_new : s.index.lookup item.key = none

theorem Filed.append (h : Filed rt tags) (hone : Filed rt [tag]) (hid : tag.1 ∉ tags.map Prod.fst)
    (hkey : tag.2 ∉ tags.map Prod.snd) : Filed rt (tags ++ [tag]) where
  id_ne := List.forall_mem_append.mpr ⟨h.id_ne, hone.id_ne⟩
  lane_ne := List.forall_mem_append.mpr ⟨h.lane_ne, hone.lane_ne⟩
  key_ne := List.forall_mem_append.mpr ⟨h.key_ne, hone.key_ne⟩
  ids := by
    rw [List.map_append]
    exact List.Nodup.append h.ids hone.ids (by simpa using hid)
  keys := by
    rw [List.map_append]
    exact List.Nodup.append h.keys hone.keys (by simpa using hkey)

theorem Indexed.adding (h : Indexed rt s) (hfit : Fit rt s item) : Indexed rt (s.adding item) where
  filed := by
    rw [values_adding hfit.id_new, List.map_append]
    apply h.filed.append hfit.filed
    · have hnew := hfit.id_new
      rw [h.named] at hnew
      simpa [OutboxItem.tag] using hnew
    · rw [List.map_map]
      intro hmem
      obtain ⟨other, hother, heq⟩ := List.mem_map.mp hmem
      exact index_new h hfit.key_new other hother heq
  named := by
    rw [values_adding hfit.id_new, List.map_append, ← h.named]
    unfold PrivateOutbox.adding
    rw [OrderedMap.insert_new hfit.id_new, List.map_append]
    rfl
  index := by
    intro key id
    have hadd : (s.adding item).index.lookup key =
        if key = item.key then some item.id else s.index.lookup key := OrderedMap.lookup_insert
    rw [hadd, values_adding hfit.id_new, List.map_append, List.mem_append, ← h.index]
    by_cases hkey : key = item.key
    · subst hkey
      rw [if_pos rfl, hfit.key_new]
      simp [OutboxItem.tag, eq_comm]
    · rw [if_neg hkey]
      simp [OutboxItem.tag, hkey]

theorem addItem_attempted (hfit : Fit rt s item) (saving : Saving) :
    Attempted s (s.adding item) (s.addItem item saving).1 := by
  have hitems := @OrderedMap.filter_insert_new _ _ _ _ item _ hfit.id_new
  have hindex := @OrderedMap.filter_insert_new _ _ _ _ item.id _
    (OrderedMap.not_mem_keys hfit.key_new)
  cases saving with
  | saved => exact .made
  | failed =>
    have hsame : (s.addItem item .failed).1 = s := by
      cases s
      simp only [PrivateOutbox.addItem, PrivateOutbox.save] at hitems hindex ⊢
      rw [hitems, hindex]
    rw [hsame]
    exact .undone
  | replacedAndFailed =>
    have hsame : (s.addItem item .replacedAndFailed).1 =
        { s with file := (s.adding item).items.values } := by
      simp only [PrivateOutbox.addItem, PrivateOutbox.save, PrivateOutbox.adding] at hitems hindex ⊢
      rw [hitems, hindex]
    rw [hsame]
    exact .undoneLate

/-! ## Operations -/

/-- `s.strip().lower()` does nothing the second time. -/
def LowersOnce (rt : Runtime) : Prop := ∀ text, lowered rt (lowered rt text) = lowered rt text

/-- What an operation does that rewrites only items which are not delivered, or may be touched. -/
inductive Changed (rt : Runtime) (s : PrivateOutbox) (touched : String → Prop) :
    PrivateOutbox → Prop where
  | same : Changed rt s touched s
  | replaced {prev upd : OutboxItem} {s' : PrivateOutbox}
      (hlook : s.items.lookup upd.id = some prev) (htag : upd.tag = prev.tag)
      (htouch : touched upd.id ∨ prev.releaseState ≠ .delivered)
      (h : Attempted s (s.withItem upd) s') : Changed rt s touched s'
  | added {item : OutboxItem} {s' : PrivateOutbox} (hfit : Fit rt s item)
      (h : Attempted s (s.adding item) s') : Changed rt s touched s'

variable {touched : String → Prop}

theorem Attempted.indexed (h : Attempted s t s') (hs : Indexed rt s) (ht : Indexed rt t) :
    Indexed rt s' := by
  cases h with
  | made => exact ⟨ht.filed, ht.named, ht.index⟩
  | undone => exact hs
  | undoneLate => exact ⟨hs.filed, hs.named, hs.index⟩

theorem Attempted.file (h : Attempted s t s') {P : List OutboxItem → Prop} (hs : P s.file)
    (ht : P t.items.values) : P s'.file := by
  cases h with
  | made => exact ht
  | undone => exact hs
  | undoneLate => exact ht

theorem Attempted.items (h : Attempted s t s') {P : List OutboxItem → Prop}
    (hs : P s.items.values) (ht : P t.items.values) : P s'.items.values := by
  cases h with
  | made => exact ht
  | undone => exact hs
  | undoneLate => exact hs

theorem Changed.cases_target (h : Changed rt s touched s') (hs : Indexed rt s) :
    s' = s ∨ ∃ t, Attempted s t s' ∧ Indexed rt t ∧
      (∀ tag ∈ s.items.values.map OutboxItem.tag, tag ∈ t.items.values.map OutboxItem.tag) ∧
      ∀ tag, ¬ touched tag.1 → HasDelivered tag s.items.values → HasDelivered tag t.items.values := by
  cases h with
  | same => exact .inl rfl
  | @replaced prev upd _ hlook htag htouch h =>
    refine .inr ⟨_, h, hs.withItem hlook htag, fun tag htags => ?_, ?_⟩
    · rw [tags_withItem hlook htag]
      exact htags
    · rintro tag huntouched ⟨item, hitem, hitemTag, hstate⟩
      have hne : item.id ≠ upd.id := by
        intro heq
        rcases htouch with htouch | hpending
        · apply huntouched
          rw [← hitemTag]
          change touched item.id
          rw [heq]
          exact htouch
        · have hlook' := hs.mem_values.mp hitem
          rw [heq, hlook] at hlook'
          cases hlook'
          exact hpending hstate
      refine ⟨item, ?_, hitemTag, hstate⟩
      rw [(hs.withItem hlook htag).mem_values, PrivateOutbox.withItem, OrderedMap.lookup_insert,
        if_neg hne]
      exact hs.mem_values.mp hitem
  | @added item _ hfit h =>
    refine .inr ⟨_, h, hs.adding hfit, fun tag htags => ?_, ?_⟩
    · rw [values_adding hfit.id_new, List.map_append]
      exact List.mem_append_left _ htags
    · rintro tag - ⟨other, hother, hrest⟩
      rw [values_adding hfit.id_new]
      exact ⟨other, List.mem_append_left _ hother, hrest⟩

theorem markItem_changed {change : OutboxItem → OutboxItem} {saving : Saving}
    (hs : Indexed rt s) (hid : strip id = id) (hchange : ∀ item, (change item).tag = item.tag)
    (htouch : touched id) : Changed rt s touched (s.markItem id change saving).1 := by
  unfold PrivateOutbox.markItem
  rw [hid]
  cases hlook : s.items.lookup id with
  | none => exact .same
  | some item =>
    have hitem := hs.id_of_lookup hlook
    have hupd : (change item).id = id := (congrArg Prod.fst (hchange item)).trans hitem
    have hattempted := replaceItem_attempted hlook hupd saving
    dsimp only
    cases hresult : s.replaceItem id item (change item) saving with
    | mk s' result =>
      rw [hresult] at hattempted
      have hlook' : s.items.lookup (change item).id = some item := hupd.symm ▸ hlook
      cases result with
      | ok _ => exact .replaced hlook' (hchange item) (.inl (hupd.symm ▸ htouch)) hattempted
      | error exn => exact .replaced hlook' (hchange item) (.inl (hupd.symm ▸ htouch)) hattempted

theorem markReleasing_changed (hs : Indexed rt s) (hid : strip id = id) (htouch : touched id)
    (tier : String) (now : ℚ) (saving : Saving) :
    Changed rt s touched (s.markReleasing id tier now saving).1 := by
  apply markItem_changed hs hid _ htouch
  exact fun _ => rfl

theorem markQueued_changed (hs : Indexed rt s) (hid : strip id = id) (htouch : touched id)
    (tier : String) (hold : PrivateOutbox.Hold) (now : ℚ) (saving : Saving) :
    Changed rt s touched (s.markQueued id tier hold now saving).1 := by
  apply markItem_changed hs hid _ htouch
  exact fun _ => rfl

theorem markDelivered_changed (hs : Indexed rt s) (hid : strip id = id) (htouch : touched id)
    (tier : String) (result : Dict) (now : ℚ) (saving : Saving) :
    Changed rt s touched (s.markDelivered id tier result now saving).1 := by
  apply markItem_changed hs hid _ htouch
  exact fun _ => rfl

theorem replaceItem_ok {saving : Saving} (hid : upd.id = id)
    (hok : (s.replaceItem id prev upd saving).2 = .ok ()) :
    (s.replaceItem id prev upd saving).1 =
      { s.withItem upd with file := (s.withItem upd).items.values } := by
  subst hid
  cases saving with
  | saved => rfl
  | failed => cases hok
  | replacedAndFailed => cases hok

/-- When `mark_delivered` returns, the item is delivered in memory and in the file. -/
theorem markDelivered_returns {tier : String} {result : Dict} {now : ℚ} {saving : Saving}
    (hs : Indexed rt s) (hid : strip id = id)
    (hret : (s.markDelivered id tier result now saving).2 = .ok (some item)) :
    item.id = id ∧ HasDelivered item.tag (s.markDelivered id tier result now saving).1.items.values ∧
      HasDelivered item.tag (s.markDelivered id tier result now saving).1.file := by
  unfold PrivateOutbox.markDelivered PrivateOutbox.markItem at hret ⊢
  rw [hid] at hret ⊢
  cases hlook : s.items.lookup id with
  | none =>
    rw [hlook] at hret
    cases hret
  | some prev =>
    rw [hlook] at hret
    dsimp only at hret ⊢
    set upd : OutboxItem := { prev with
      releaseState := .delivered
      currentTier := tier
      status := privateDeliveryStatus "delivered_privately" "release_completed"
        "The message was delivered on the private lane."
      lastError := ""
      result
      releasedAt := now
      updatedAt := now }
    have hprev : prev.id = id := hs.id_of_lookup hlook
    have hupd : upd.id = id := hprev
    cases hresult : s.replaceItem id prev upd saving with
    | mk s' done =>
      rw [hresult] at hret
      cases done with
      | error exn => cases hret
      | ok u =>
        have hitem : upd = item := Option.some.inj (Except.ok.inj hret)
        have hs' := @replaceItem_ok s prev upd id saving hupd (by rw [hresult])
        rw [hresult] at hs'
        have hmem : upd ∈ (s.withItem upd).items.values := by
          apply @OrderedMap.mem_values_of_lookup _ _ _ upd.id
          rw [PrivateOutbox.withItem, OrderedMap.lookup_insert, if_pos rfl]
        subst hitem
        dsimp only at hs' ⊢
        rw [hs']
        exact ⟨hupd, ⟨upd, hmem, rfl, rfl⟩, ⟨upd, hmem, rfl, rfl⟩⟩

/-- The id that a token makes is new and has no blanks. -/
def FreshToken (s : PrivateOutbox) (token : String) : Prop :=
  "outbox_" ++ token ∉ s.items.map Prod.fst ∧ ∀ c ∈ token.toList, isSpace c = false

theorem strip_outboxId {token : String} (h : ∀ c ∈ token.toList, isSpace c = false) :
    strip ("outbox_" ++ token) = "outbox_" ++ token := by
  apply strip_of_no_space
  intro c hc
  rw [String.toList_append, List.mem_append] at hc
  rcases hc with hc | hc
  · have hall : ("outbox_".toList.all fun c => !isSpace c) = true := by decide
    simpa using List.all_eq_true.mp hall c hc
  · exact h c hc

theorem outboxId_ne (token : String) : "outbox_" ++ token ≠ "" := by
  intro h
  have hlist := congrArg String.toList h
  rw [String.toList_append] at hlist
  cases hlist

theorem enqueue_changed (hlower : LowersOnce rt) (hs : Indexed rt s)
    {c : PrivateOutbox.EnqueueCall} (hfresh : FreshToken s c.token) (saving : Saving) :
    Changed rt s touched (s.enqueue rt c saving).1 := by
  unfold PrivateOutbox.enqueue
  split
  · exact .same
  · rename_i hargs
    rw [not_or] at hargs
    cases hkey : s.index.lookup ⟨lowered rt c.lane, strip c.releaseKey⟩ with
    | none =>
      have hfit : Fit rt s (c.item rt) := {
        filed := {
          id_ne := by
            simp only [List.mem_singleton, forall_eq]
            exact ⟨outboxId_ne c.token, strip_outboxId hfresh.2⟩
          lane_ne := by
            simp only [List.mem_singleton, forall_eq]
            exact ⟨hargs.1, hlower c.lane⟩
          key_ne := by
            simp only [List.mem_singleton, forall_eq]
            exact ⟨hargs.2, strip_strip c.releaseKey⟩
          ids := List.nodup_singleton _
          keys := List.nodup_singleton _ }
        id_new := hfresh.1
        key_new := hkey }
      exact .added hfit (addItem_attempted hfit saving)
    | some existingId =>
      dsimp only
      unfold PrivateOutbox.requeue
      cases hlook : s.items.lookup existingId with
      | none => exact .same
      | some existing =>
        dsimp only
        split
        · exact .same
        · rename_i hpending
          set upd : OutboxItem := { existing with
            status := queuedDeliveryStatus rt c.rnsEnabled (lowered rt c.lane) c.currentTier
            currentTier := c.currentTier
            updatedAt := c.now }
          have hexisting : existing.id = existingId := hs.id_of_lookup hlook
          have hupd : upd.id = existingId := hexisting
          have hattempted := replaceItem_attempted hlook hupd saving
          have hlook' : s.items.lookup upd.id = some existing := hupd.symm ▸ hlook
          cases hresult : s.replaceItem existingId existing upd saving with
          | mk s' result =>
            rw [hresult] at hattempted
            cases result with
            | ok _ => exact .replaced hlook' rfl (.inr hpending) hattempted
            | error exn => exact .replaced hlook' rfl (.inr hpending) hattempted

/-! ## Loading -/

theorem Filed.tag_normalizeItem (h : Filed rt [item.tag]) (now : ℚ) :
    (normalizeItem rt now item).tag = item.tag := by
  have hlane := (h.lane_ne item.tag List.mem_cons_self).2
  change (item.id, OutboxKey.mk (lowered rt item.lane) item.releaseKey) = item.tag
  change lowered rt item.lane = item.lane at hlane
  rw [hlane]
  rfl

theorem loadItem_eq (h : Filed rt [item.tag]) (now : ℚ) (s : PrivateOutbox) :
    s.loadItem rt now item = s.adding (normalizeItem rt now item) := by
  have hid := h.id_ne item.tag List.mem_cons_self
  have hlane := h.lane_ne item.tag List.mem_cons_self
  have hkey := h.key_ne item.tag List.mem_cons_self
  change item.id ≠ "" ∧ strip item.id = item.id at hid
  change item.lane ≠ "" ∧ lowered rt item.lane = item.lane at hlane
  change item.releaseKey ≠ "" ∧ strip item.releaseKey = item.releaseKey at hkey
  unfold PrivateOutbox.loadItem PrivateOutbox.adding
  simp only [normalizeItem, OutboxItem.key, hid.2, hlane.2, hkey.2]
  rw [if_neg (by simp [hid.1, hlane.1, hkey.1])]

theorem Filed.of_append (h : Filed rt (tags ++ tag :: rest)) : Filed rt [tag] where
  id_ne := fun t ht => h.id_ne t (by simp [List.mem_singleton.mp ht])
  lane_ne := fun t ht => h.lane_ne t (by simp [List.mem_singleton.mp ht])
  key_ne := fun t ht => h.key_ne t (by simp [List.mem_singleton.mp ht])
  ids := List.nodup_singleton _
  keys := List.nodup_singleton _

theorem foldl_loadItem (now : ℚ) {items : List OutboxItem} (hs : Indexed rt s)
    (hfiled : Filed rt (s.items.values.map OutboxItem.tag ++ items.map OutboxItem.tag)) :
    Indexed rt (items.foldl (PrivateOutbox.loadItem rt now) s) ∧
      (items.foldl (PrivateOutbox.loadItem rt now) s).items.values =
        s.items.values ++ items.map (normalizeItem rt now) ∧
      (items.foldl (PrivateOutbox.loadItem rt now) s).file = s.file := by
  induction items generalizing s with
  | nil => exact ⟨hs, (List.append_nil _).symm, rfl⟩
  | cons item items ih =>
    have hone : Filed rt [item.tag] := hfiled.of_append
    have htag := hone.tag_normalizeItem now
    have hids := hfiled.ids
    have hkeys := hfiled.keys
    rw [List.map_append, List.nodup_append'] at hids hkeys
    have hfit : Fit rt s (normalizeItem rt now item) := {
      filed := htag.symm ▸ hone
      id_new := by
        rw [hs.named]
        intro hmem
        have hfirst : item.id ∈ (s.items.values.map OutboxItem.tag).map Prod.fst := by
          rw [List.map_map]
          exact hmem
        exact hids.2.2 hfirst List.mem_cons_self
      key_new := by
        cases hlook : s.index.lookup (normalizeItem rt now item).key with
        | none => rfl
        | some id =>
          have hmem := (hs.index _ id).mp hlook
          have hkey : (normalizeItem rt now item).key = item.key := congrArg Prod.snd htag
          rw [hkey] at hmem
          have hfirst : item.key ∈ (s.items.values.map OutboxItem.tag).map Prod.snd :=
            List.mem_map.mpr ⟨_, hmem, rfl⟩
          exact absurd List.mem_cons_self (hkeys.2.2 hfirst) }
    have hvalues := @values_adding s _ hfit.id_new
    rw [List.foldl_cons, loadItem_eq hone]
    obtain ⟨hindexed, hitems, hfile⟩ := ih (hs.adding hfit) (by
      rw [hvalues, List.map_append, List.append_assoc]
      simpa [htag] using hfiled)
    refine ⟨hindexed, ?_, hfile⟩
    rw [hitems, hvalues, List.append_assoc]
    rfl

theorem load_spec (now : ℚ) (hfile : Filed rt (s.file.map OutboxItem.tag)) :
    Indexed rt (s.load rt now) ∧
      (s.load rt now).items.values = s.file.map (normalizeItem rt now) ∧
      (s.load rt now).file = s.file :=
  @foldl_loadItem rt { file := s.file } now s.file
    ⟨filed_nil, rfl, by simp [OrderedMap.values]⟩ hfile

/-! ## Passes -/

/-- The items that a pass has yet to settle. -/
def Pass.held (p : Pass) : List OutboxItem :=
  match p.phase with
  | .between => p.rest
  | .releasing item => item :: p.rest
  | .attempting item => item :: p.rest

/-- A pass under way holds an item with the id. -/
def Holds (w : World) (id : String) : Prop :=
  ∃ thread p, w.passes.lookup thread = some p ∧ ∃ item ∈ p.held, item.id = id

/-- The outbox and its file are in order, and the passes hold items of the outbox. -/
structure Sound (rt : Runtime) (w : World) : Prop where
  indexed : Indexed rt w.outbox
  file : Filed rt (w.outbox.file.map OutboxItem.tag)
  held : ∀ thread p, w.passes.lookup thread = some p → ∀ item ∈ p.held,
    item.tag ∈ w.outbox.items.values.map OutboxItem.tag
  once : ∀ thread p, w.passes.lookup thread = some p → (p.held.map OutboxItem.id).Nodup

/-- What an action other than a restart does: it changes the outbox where a pass may, and a pass
    goes on with what it held or begins with what is pending. -/
structure Stepped (rt : Runtime) (w w' : World) : Prop where
  changed : Changed rt w.outbox (Holds w) w'.outbox
  passes : ∀ thread p', w'.passes.lookup thread = some p' →
    (∃ p, w.passes.lookup thread = some p ∧ p'.held.Sublist p.held) ∨
      p'.held = w.outbox.pendingItems

variable {w w' : World} {thread : Nat} {p next : Pass}

theorem Sound.empty : Sound rt {} where
  indexed := indexed_empty
  file := filed_nil
  held := by simp
  once := by simp

theorem Sound.strip_id (h : Sound rt w) (hp : w.passes.lookup thread = some p)
    (hitem : item ∈ p.held) : strip item.id = item.id :=
  (h.indexed.filed.id_ne item.tag (h.held thread p hp item hitem)).2

theorem mem_pendingItems :
    item ∈ s.pendingItems ↔ item ∈ s.items.values ∧ item.releaseState ≠ .delivered := by
  simp [PrivateOutbox.pendingItems]

theorem Stepped.refl (w : World) : Stepped rt w w where
  changed := .same
  passes := fun _ p hp => .inl ⟨p, hp, List.Sublist.refl _⟩

/-- A pass that settles its item, or gives up, holds no more than it did. -/
theorem stepped_advance (hp : w.passes.lookup thread = some p) (hheld : next.held.Sublist p.held)
    {result : PrivateOutbox × Except String (Option OutboxItem)}
    (hchanged : Changed rt w.outbox (Holds w) result.1) :
    Stepped rt w (w.advance thread next result) := by
  obtain ⟨outbox, outcome⟩ := result
  cases outcome with
  | ok _ =>
    refine ⟨hchanged, fun other p' hp' => .inl ?_⟩
    change (w.passes.insert thread next).lookup other = some p' at hp'
    rw [OrderedMap.lookup_insert] at hp'
    split at hp'
    · rename_i heq
      cases hp'
      exact ⟨p, heq ▸ hp, hheld⟩
    · exact ⟨p', hp', List.Sublist.refl _⟩
  | error _ =>
    refine ⟨hchanged, fun other p' hp' => .inl ?_⟩
    change (w.passes.filter fun kv => kv.1 ≠ thread).lookup other = some p' at hp'
    by_cases heq : other = thread
    · rw [heq, OrderedMap.lookup_filter_self] at hp'
      cases hp'
    · rw [OrderedMap.lookup_filter_ne heq] at hp'
      exact ⟨p', hp', List.Sublist.refl _⟩

theorem Sound.holds (hp : w.passes.lookup thread = some p) (hitem : item ∈ p.held) :
    Holds w item.id := ⟨thread, p, hp, item, hitem, rfl⟩

theorem stepped_visit (hw : Sound rt w) (o : Outlook) (now : ℚ) (saving : Saving) :
    Stepped rt w (w.visit rt thread o now saving) := by
  unfold World.visit
  split
  · rename_i tier item rest hp
    have hitem : item ∈ (Pass.mk tier (item :: rest) .between).held := List.mem_cons_self
    have hid := hw.strip_id hp hitem
    have hholds := Sound.holds hp hitem
    split
    · rename_i hold _
      have hheld : (Pass.mk tier rest .between).held.Sublist
          (Pass.mk tier (item :: rest) .between).held := List.sublist_cons_self item rest
      exact stepped_advance hp hheld (markQueued_changed hw.indexed hid hholds tier hold now saving)
    · have hheld : (Pass.mk tier rest (.releasing item)).held.Sublist
          (Pass.mk tier (item :: rest) .between).held := List.Sublist.refl _
      exact stepped_advance hp hheld (markReleasing_changed hw.indexed hid hholds tier now saving)
  · exact Stepped.refl w

theorem stepped_settle (hw : Sound rt w) (result : Dict) (tier : String) (rnsEnabled : Bool)
    (now : ℚ) (saving : Saving) :
    Stepped rt w (w.settle rt thread result tier rnsEnabled now saving) := by
  unfold World.settle
  split
  · rename_i passTier rest item hp
    have hitem : item ∈ (Pass.mk passTier rest (.attempting item)).held := List.mem_cons_self
    have hid := hw.strip_id hp hitem
    have hholds := Sound.holds hp hitem
    have hheld : (Pass.mk passTier rest .between).held.Sublist
        (Pass.mk passTier rest (.attempting item)).held := List.sublist_cons_self item rest
    split
    · exact stepped_advance hp hheld
        (markDelivered_changed hw.indexed hid hholds passTier result now saving)
    · exact stepped_advance hp hheld
        (markQueued_changed hw.indexed hid hholds tier (retryFor rt tier item rnsEnabled result) now
          saving)
  · exact Stepped.refl w

/-- The tokens of new items are fresh. -/
def FreshTokens (w : World) : OutboxAction → Prop
  | .enqueue c _ => FreshToken w.outbox c.token
  | _ => True

theorem outboxStep_cases (hlower : LowersOnce rt) (hw : Sound rt w) {a : OutboxAction}
    (hfresh : FreshTokens w a) :
    Stepped rt w (outboxStep rt w a) ∨
      ∃ now, outboxStep rt w a = { outbox := w.outbox.load rt now, passes := [] } := by
  cases a with
  | restart now => exact .inr ⟨now, rfl⟩
  | enqueue c saving =>
    exact .inl ⟨enqueue_changed hlower hw.indexed hfresh saving,
      fun _ p hp => .inl ⟨p, hp, List.Sublist.refl _⟩⟩
  | visit thread o now saving => exact .inl (stepped_visit hw o now saving)
  | settle thread result tier rnsEnabled now saving =>
    exact .inl (stepped_settle hw (attemptResult result) tier rnsEnabled now saving)
  | start thread tier =>
    unfold outboxStep
    dsimp only
    cases hp : w.passes.lookup thread with
    | some p => exact .inl (Stepped.refl w)
    | none =>
      refine .inl ⟨.same, fun other p' hp' => ?_⟩
      rw [OrderedMap.lookup_insert] at hp'
      split at hp'
      · cases hp'
        exact .inr rfl
      · exact .inl ⟨p', hp', List.Sublist.refl _⟩
  | attempt thread =>
    unfold outboxStep
    dsimp only
    split
    · rename_i tier rest item hp
      refine .inl ⟨.same, fun other p' hp' => .inl ?_⟩
      rw [OrderedMap.lookup_insert] at hp'
      split at hp'
      · rename_i heq
        cases hp'
        refine ⟨⟨tier, rest, .releasing item⟩, heq ▸ hp, ?_⟩
        exact List.Sublist.refl (item :: rest)
      · exact ⟨p', hp', List.Sublist.refl _⟩
    · exact .inl (Stepped.refl w)
  | leave thread =>
    refine .inl ⟨.same, fun other p' hp' => .inl ?_⟩
    change (w.passes.filter fun kv => kv.1 ≠ thread).lookup other = some p' at hp'
    by_cases heq : other = thread
    · rw [heq, OrderedMap.lookup_filter_self] at hp'
      cases hp'
    · rw [OrderedMap.lookup_filter_ne heq] at hp'
      exact ⟨p', hp', List.Sublist.refl _⟩

/-! ## Invariants -/

theorem Sound.pending (h : Sound rt w) : (w.outbox.pendingItems.map OutboxItem.id).Nodup := by
  have hperm := (List.perm_insertionSort PrivateOutbox.before
    (w.outbox.items.values.filter fun item => item.releaseState ≠ .delivered)).map OutboxItem.id
  rw [PrivateOutbox.pendingItems, hperm.nodup_iff]
  exact h.indexed.ids.sublist (List.filter_sublist.map _)

theorem Stepped.sound (h : Stepped rt w w') (hw : Sound rt w) : Sound rt w' := by
  have htags : ∀ tag ∈ w.outbox.items.values.map OutboxItem.tag,
      tag ∈ w'.outbox.items.values.map OutboxItem.tag := by
    rcases h.changed.cases_target hw.indexed with heq | ⟨t, hattempted, -, hkeep, -⟩
    · rw [heq]
      exact fun _ => id
    · intro tag htag
      exact hattempted.items (P := fun l => tag ∈ l.map OutboxItem.tag) htag (hkeep tag htag)
  constructor
  · rcases h.changed.cases_target hw.indexed with heq | ⟨t, hattempted, ht, -, -⟩
    · exact heq ▸ hw.indexed
    · exact hattempted.indexed hw.indexed ht
  · rcases h.changed.cases_target hw.indexed with heq | ⟨t, hattempted, ht, -, -⟩
    · exact heq ▸ hw.file
    · exact hattempted.file (P := fun l => Filed rt (l.map OutboxItem.tag)) hw.file ht.filed
  · intro thread p' hp' item hitem
    apply htags
    rcases h.passes thread p' hp' with ⟨p, hp, hsub⟩ | hpending
    · exact hw.held thread p hp item (hsub.subset hitem)
    · rw [hpending] at hitem
      exact List.mem_map_of_mem (mem_pendingItems.mp hitem).1
  · intro thread p' hp'
    rcases h.passes thread p' hp' with ⟨p, hp, hsub⟩ | hpending
    · exact (hw.once thread p hp).sublist (hsub.map _)
    · rw [hpending]
      exact hw.pending

theorem Sound.restart (hw : Sound rt w) (now : ℚ) :
    Sound rt { outbox := w.outbox.load rt now, passes := [] } where
  indexed := (load_spec now hw.file).1
  file := (load_spec now hw.file).2.2.symm ▸ hw.file
  held := by simp
  once := by simp

theorem Sound.step (hlower : LowersOnce rt) (w : World) (a : OutboxAction) (hw : Sound rt w)
    (hfresh : FreshTokens w a) : Sound rt (outboxStep rt w a) := by
  rcases outboxStep_cases hlower hw hfresh with hstep | ⟨now, heq⟩
  · exact hstep.sound hw
  · rw [heq]
    exact hw.restart now

/-- A message is delivered, in memory and in the file, and no pass holds it. -/
structure Settled (tag : String × OutboxKey) (w : World) : Prop where
  memory : HasDelivered tag w.outbox.items.values
  file : HasDelivered tag w.outbox.file
  unheld : ¬ Holds w tag.1

theorem HasDelivered.mem_tags {items : List OutboxItem} (h : HasDelivered tag items) :
    tag ∈ items.map OutboxItem.tag := by
  obtain ⟨item, hitem, htag, -⟩ := h
  exact List.mem_map.mpr ⟨item, hitem, htag⟩

/-- Whatever is pending has another key than a delivered message. -/
theorem HasDelivered.not_pending (h : HasDelivered tag s.items.values) (hs : Indexed rt s)
    (hitem : item ∈ s.pendingItems) : item.key ≠ tag.2 := by
  intro hkey
  obtain ⟨hmem, hpending⟩ := mem_pendingItems.mp hitem
  have htag := hs.filed.eq_of_key (List.mem_map_of_mem hmem) h.mem_tags hkey
  obtain ⟨other, hother, hotherTag, hstate⟩ := h
  have heq : item = other :=
    hs.eq_of_id hmem hother (congrArg Prod.fst (htag.trans hotherTag.symm))
  exact hpending (heq ▸ hstate)

theorem Settled.stepped (h : Settled tag w) (hw : Sound rt w) (hstep : Stepped rt w w') :
    Settled tag w' := by
  refine ⟨?_, ?_, ?_⟩
  · rcases hstep.changed.cases_target hw.indexed with heq | ⟨t, hattempted, -, -, hkeep⟩
    · exact heq ▸ h.memory
    · exact hattempted.items (P := HasDelivered tag) h.memory (hkeep tag h.unheld h.memory)
  · rcases hstep.changed.cases_target hw.indexed with heq | ⟨t, hattempted, -, -, hkeep⟩
    · exact heq ▸ h.file
    · exact hattempted.file h.file (hkeep tag h.unheld h.memory)
  · rintro ⟨thread, p', hp', item, hitem, hid⟩
    rcases hstep.passes thread p' hp' with ⟨p, hp, hsub⟩ | hpending
    · exact h.unheld ⟨thread, p, hp, item, hsub.subset hitem, hid⟩
    · rw [hpending] at hitem
      have hmem := (mem_pendingItems.mp hitem).1
      have htag := hw.indexed.filed.eq_of_id (List.mem_map_of_mem hmem) h.memory.mem_tags hid
      exact h.memory.not_pending hw.indexed hitem (congrArg Prod.snd htag)

/-- A restart loads a delivered message as delivered. -/
theorem Settled.restart (h : Settled tag w) (hw : Sound rt w) (now : ℚ) :
    Settled tag { outbox := w.outbox.load rt now, passes := [] } := by
  obtain ⟨-, hvalues, hfile⟩ := load_spec now hw.file
  obtain ⟨item, hitem, htag, hstate⟩ := h.file
  refine ⟨?_, ?_, ?_⟩
  · rw [hvalues]
    refine ⟨normalizeItem rt now item, List.mem_map_of_mem hitem, ?_, ?_⟩
    · obtain ⟨pre, post, heq⟩ := List.append_of_mem hitem
      have hfiled := hw.file
      rw [heq, List.map_append] at hfiled
      exact hfiled.of_append.tag_normalizeItem now |>.trans htag
    · simp [normalizeItem, hstate]
  · rw [hfile]
    exact h.file
  · rintro ⟨thread, p, hp, -⟩
    cases hp

theorem Settled.step (hlower : LowersOnce rt) (w : World) (a : OutboxAction)
    (h : Sound rt w ∧ Settled tag w) (hfresh : FreshTokens w a) :
    Sound rt (outboxStep rt w a) ∧ Settled tag (outboxStep rt w a) := by
  refine ⟨Sound.step hlower w a h.1 hfresh, ?_⟩
  rcases outboxStep_cases hlower h.1 hfresh with hstep | ⟨now, heq⟩
  · exact h.2.stepped h.1 hstep
  · rw [heq]
    exact h.2.restart h.1 now

/-- What an attempt sends is held by its pass. -/
theorem attempted_held {a : OutboxAction} (h : attempted w a = some item) :
    ∃ thread p, w.passes.lookup thread = some p ∧ item ∈ p.held := by
  cases a with
  | attempt thread =>
    unfold attempted at h
    dsimp only at h
    split at h
    · rename_i tier rest held hp
      cases h
      exact ⟨thread, _, hp, List.mem_cons_self⟩
    · cases h
  | _ => cases h

theorem Settled.unsent (h : Settled tag w) (hw : Sound rt w) {a : OutboxAction}
    (hsent : attempted w a = some item) : item.key ≠ tag.2 := by
  intro hkey
  obtain ⟨thread, p, hp, hitem⟩ := attempted_held hsent
  have htag := hw.indexed.filed.eq_of_key (hw.held thread p hp item hitem) h.memory.mem_tags hkey
  exact h.unheld ⟨thread, p, hp, item, hitem, congrArg Prod.fst htag⟩

theorem Settled.outputs (hlower : LowersOnce rt) (hw : Sound rt w) (h : Settled tag w)
    {as : List OutboxAction} (hrun : Along (outboxStep rt) FreshTokens w as) :
    ∀ sent ∈ outputs (outboxStep rt) attempted w as, sent.key ≠ tag.2 := by
  induction as generalizing w with
  | nil => exact fun sent hsent => absurd hsent List.not_mem_nil
  | cons a as ih =>
    obtain ⟨hw', h'⟩ := Settled.step hlower w a ⟨hw, h⟩ hrun.1
    intro sent hsent
    rcases List.mem_append.mp hsent with hsent | hsent
    · exact h.unsent hw (Option.mem_toList.mp hsent)
    · exact ih hw' h' hrun.2 sent hsent

/-! ## Delivered for good -/

/-- Where `mark_delivered` returns an item, it was the one that a pass was attempting. -/
theorem deliveredBy_spec (rt : Runtime) {a : OutboxAction} (h : deliveredBy w a = some item) :
    ∃ thread tier rest held result now saving outbox,
      w.passes.lookup thread = some ⟨tier, rest, .attempting held⟩ ∧
      w.outbox.markDelivered held.id tier result now saving = (outbox, .ok (some item)) ∧
      outboxStep rt w a = { outbox, passes := w.passes.insert thread { tier, rest } } := by
  cases a with
  | settle thread result refreshedTier rnsEnabled now saving =>
    unfold deliveredBy at h
    dsimp only at h
    split at h
    · rename_i tier rest held hp
      split at h
      · rename_i hok
        cases hmark : w.outbox.markDelivered held.id tier (attemptResult result) now saving with
        | mk outbox outcome =>
          rw [hmark] at h
          cases outcome with
          | error exn => cases h
          | ok delivered =>
            dsimp only at h
            subst h
            refine ⟨thread, tier, rest, held, attemptResult result, now, saving, outbox, hp, hmark, ?_⟩
            simp only [outboxStep, World.settle, hp, if_pos hok, hmark, World.advance]
      · cases h
    · cases h
  | _ => cases h

/-- When `mark_delivered` returns, the message is settled if no pass holds it. -/
theorem settled_of_deliveredBy (hw : Sound rt w) {a : OutboxAction}
    (hdelivered : deliveredBy w a = some item) (hunheld : ¬ Holds (outboxStep rt w a) item.id) :
    Settled item.tag (outboxStep rt w a) := by
  obtain ⟨thread, tier, rest, held, result, now, saving, outbox, hp, hmark, hstep⟩ :=
    deliveredBy_spec rt hdelivered
  have hreturns := @markDelivered_returns rt w.outbox item held.id tier result now saving
    hw.indexed (hw.strip_id hp List.mem_cons_self)
  rw [hmark] at hreturns
  obtain ⟨-, hmemory, hfile⟩ := hreturns rfl
  rw [hstep] at hunheld ⊢
  exact ⟨hmemory, hfile, hunheld⟩

/-- No two items have one lane and release key. -/
def OnePerKey (w : World) : Prop := (w.outbox.items.values.map OutboxItem.key).Nodup

/-- A message is delivered after the actions, and they have neither sent it nor made it pending. -/
structure StaysDelivered (rt : Runtime) (w : World) (item : OutboxItem)
    (as : List OutboxAction) : Prop where
  delivered : HasDelivered item.tag (run (outboxStep rt) w as).outbox.items.values
  notPending : ∀ other ∈ (run (outboxStep rt) w as).outbox.pendingItems, other.key ≠ item.key
  unsent : ∀ sent ∈ outputs (outboxStep rt) attempted w as, sent.key ≠ item.key

end

/-! ## A message -/

theorem lowersOnce_ascii : LowersOnce asciiRuntime := by
  intro text
  unfold lowered
  rw [strip_lower_ascii, lower_lower_ascii, strip_strip]

/-- A message on the gate lane. -/
def gateCall : PrivateOutbox.EnqueueCall where
  lane := "gate"
  releaseKey := "k1"
  payload := []
  currentTier := "private_strong"
  requiredTier := "private_strong"
  rnsEnabled := true
  token := "0a"
  now := 1

def sends (thread : Nat) : List OutboxAction := [.visit thread {} 2 .saved, .attempt thread]

def accepts (thread : Nat) : OutboxAction :=
  .settle thread (.ok [("ok", .bool true)]) "private_strong" true 3 .saved

theorem fresh_gateCall : FreshTokens {} (.enqueue gateCall .saved) := by
  refine ⟨List.not_mem_nil, fun c hc => ?_⟩
  have hall : ("0a".toList.all fun c => !isSpace c) = true := by decide
  simpa using List.all_eq_true.mp hall c hc

end Vincent.Outbox
