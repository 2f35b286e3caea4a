-- SUMMARY: What an imported invite leaves for lookups.
import Vincent.Contacts.AliasLane

/-!
# Lookups after an invite

An invite can name a URL to look a bundle up at, which the pin stores under a key that
normalizing drops. The lookups loop over the contacts as if these were the peers, and
see none.
-/

namespace Vincent.Contacts.InviteLookup

open Vincent.Python Vincent.Check Vincent.Run

section Model

variable (env : ContactEnv)

/-- `list_wormhole_dm_contacts`, where the peers are those that have a contact. -/
def listContacts (now : Int) (peers : List String) (s : ContactTable) : PyVal :=
  .dict (peers.filterMap fun peer => (readContacts env now s peer).map fun c => (peer, .dict c))

/-- One turn of the loop. -/
def lookupUrl (token : String) (urls : List String) : PyVal → List String
  | .dict contact =>
    if strip (textOf env (Dict.get contact "invitePinnedPrekeyLookupHandle")) ≠ token then urls
    else
      let url := strippedUrl (textOf env (Dict.get contact "invitePinnedLookupPeerUrl"))
      if url ≠ "" ∧ url ∉ urls then urls ++ [url] else urls
  | _ => urls

def preferredInviteLookupPeerUrls (lookupToken : String) (contacts : PyVal) :
    Except String (List String) := do
  let token := strip lookupToken
  if token = "" then return []
  let items ← pyList (contacts.or (.list []))
  return items.foldl (lookupUrl env token) []

def preferredPrekeyLookupHandle (now : Int) (s : ContactTable) (peer : String) : Except String String := do
  if strip peer = "" then return ""
  let c ← currentContact env now s peer
  return strip (textOf env (Dict.get c "invitePinnedPrekeyLookupHandle"))

def inviteUrl (payload : Dict) : String :=
  strippedUrl (textOf env (Dict.get payload "lookup_peer_url"))

/-- The values that a contact has from the payload. -/
def payloadValues (payload : Dict) : Dict :=
  let text := fun k => textOf env (Dict.get payload k)
  [("invitePinnedPrekeyLookupHandle", .str (text "prekey_lookup_handle")),
    ("invitePinnedRootFingerprint", .str (lowered env (text "root_fingerprint"))),
    ("invitePinnedRootNodeId", .str (text "root_node_id")),
    ("invitePinnedRootPublicKey", .str (text "root_public_key")),
    ("invitePinnedDhPubKey", .str (text "identity_dh_pub_key"))] ++
  if inviteUrl env payload = "" then []
    else [("invitePinnedLookupPeerUrl", .str (inviteUrl env payload))]

/-- The fields of the invite that `pin_wormhole_dm_invite` sets. -/
def invitePinnedFields : List String :=
  ["invitePinnedLookupPeerUrl", "invitePinnedPrekeyLookupHandle", "invitePinnedIssuedAt",
    "invitePinnedExpiresAt"] ++ clearedInvite.map Prod.fst

/-- The invite is stored, lookups use its handle and URL, and normalizing loses none of its
fields. -/
structure InviteIsUsed (now : Int) (peers : List String) (s : ContactTable) (peer : String)
    (payload : Dict) : Prop where
  stored : ∃ c, currentContact env now s peer = .ok c ∧
    ∀ kv ∈ payloadValues env payload, Dict.get c kv.1 = kv.2
  handle : preferredPrekeyLookupHandle env now s peer =
    .ok (textOf env (Dict.get payload "prekey_lookup_handle"))
  found : inviteUrl env payload ≠ "" → ∃ urls,
    preferredInviteLookupPeerUrls env (textOf env (Dict.get payload "prekey_lookup_handle"))
      (listContacts env now peers s) = .ok urls ∧ inviteUrl env payload ∈ urls
  kept : ∀ value c, normalizeContact env value = .ok c → ∀ k ∈ invitePinnedFields,
    (value.lookup k).isSome = true → (c.lookup k).isSome = true

end Model

section

variable {env : ContactEnv} {value c : Dict}

/-- The URL is not there, whatever was normalized: only the fields of a contact are left. -/
theorem lookup_url_none (h : normalizeContact env value = .ok c) :
    c.lookup "invitePinnedLookupPeerUrl" = none := by
  rw [List.lookup_eq_none_iff]
  intro kv hkv
  obtain ⟨field, hfield, hentry⟩ := (mem_mapM h).mp hkv
  obtain ⟨v, -, hv⟩ := bind_eq_ok.mp hentry
  obtain rfl := Except.ok.inj hv
  have hother : ∀ field ∈ contactFields, ("invitePinnedLookupPeerUrl" == field.1) = false := by decide
  simpa using hother field hfield

theorem preferredInviteLookupPeerUrls_dict (token : String) (contacts : Dict) :
    preferredInviteLookupPeerUrls env token (.dict contacts) = .ok [] := by
  have htexts : ∀ keys : List String, (keys.map PyVal.str).foldl (lookupUrl env (strip token)) [] = [] := by
    intro keys
    induction keys with
    | nil => rfl
    | cons key keys ih => exact ih
  have hkeys : pyList (.dict contacts) = .ok ((contacts.map Prod.fst).map PyVal.str) := by
    rw [List.map_map]
    rfl
  unfold preferredInviteLookupPeerUrls
  dsimp only
  split_ifs
  · rfl
  · cases contacts with
    | nil => rfl
    | cons kv rest =>
      rw [show (PyVal.dict (kv :: rest)).or (.list []) = .dict (kv :: rest) from rfl, hkeys]
      exact congrArg Except.ok (htexts _)

/-- A contact with a URL, which normalizing loses. -/
theorem not_kept (env : ContactEnv) : ¬ ∀ value c, normalizeContact env value = .ok c →
    ∀ k ∈ invitePinnedFields, (value.lookup k).isSome = true → (c.lookup k).isSome = true := by
  intro h
  let value : Dict := update [] [("invitePinnedLookupPeerUrl", .str "u")]
  have hfits : Fits value := by
    refine fits_nil.update fun kv hkv kind hkind => ?_
    obtain rfl := List.mem_singleton.mp hkv
    rw [show contactFields.lookup "invitePinnedLookupPeerUrl" = none by decide +kernel] at hkind
    cases hkind
  obtain ⟨c, hc⟩ := hfits.normalize env
  have hlost := h value c hc "invitePinnedLookupPeerUrl" List.mem_cons_self rfl
  rw [lookup_url_none hc] at hlost
  cases hlost

end

end Vincent.Contacts.InviteLookup
