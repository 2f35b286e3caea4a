-- SUMMARY: The nonce caches of a relay, and that a nonce is accepted once in its window.
import Vincent.Dm.Keys

/-!
# Nonces

An accepted nonce is held until its expiry, and as long as it is held it is not
accepted again. What the relay gives up before the expiry is what it trims when
the global budget is full.
-/

namespace Vincent.Dm

open Vincent.Python Vincent.Run

/-! ## Caches -/

/-- The caches without the nonces that are past their expiry. -/
def expireNonces (now : ℚ) (caches : OrderedMap String NonceCache) : OrderedMap String NonceCache :=
  (caches.map fun entry => (entry.1, entry.2.filter fun nonce => now < nonce.2)).filter
    fun entry => entry.2 ≠ []

def totalNonceCount (caches : OrderedMap String NonceCache) : Nat :=
  (caches.map fun entry => entry.2.length).sum

/-- The agent whose first nonce expires first, with that nonce, among those not skipped. -/
def oldestChoice (skip : String → Bool) (caches : OrderedMap String NonceCache) :
    Option (String × String × ℚ) :=
  caches.foldl (fun oldest entry =>
    match entry.2 with
    | [] => oldest
    | (nonce, expiry) :: _ =>
      if skip entry.1 then oldest
      else match oldest with
        | none => some (entry.1, nonce, expiry)
        | some (_, _, first) => if expiry < first then some (entry.1, nonce, expiry) else oldest)
    none

/-- Take a nonce out of the cache of an agent, and the cache out where it is left empty. -/
def popNonce (agentId nonce : String) (caches : OrderedMap String NonceCache) :
    OrderedMap String NonceCache :=
  (OrderedMap.modify agentId (fun cache => cache.filter fun entry => entry.1 ≠ nonce) caches).filter
    fun entry => ¬ (entry.1 = agentId ∧ entry.2 = [])

/-- `_trim_global_nonce_budget`. Each round takes out a nonce, so that the count bounds them. -/
def trimGlobalNonceBudget (maxEntries : Nat) (preferredAgentId : String) :
    Nat → OrderedMap String NonceCache → OrderedMap String NonceCache
  | 0, caches => caches
  | rounds + 1, caches =>
    if totalNonceCount caches < maxEntries then caches
    else
      let preferred := strip preferredAgentId
      let skip := fun aid => preferred ≠ "" && aid = preferred && 1 < caches.length
      let oldest := match oldestChoice skip caches with
        | some oldest => some oldest
        | none => if preferred ≠ "" then oldestChoice (fun _ => false) caches else none
      match oldest with
      | none => caches
      | some (aid, nonce, _) =>
        trimGlobalNonceBudget maxEntries preferredAgentId rounds (popNonce aid nonce caches)

section Model

variable (env : RelayEnv)

/-- Why a nonce is refused by the live caches, if it is. -/
def refuseNonce (agentId nonce : String) (caches : OrderedMap String NonceCache) : Option String :=
  match caches.lookup agentId with
  | none => none
  | some cache =>
    if (cache.lookup nonce).isSome then some "nonce replay detected"
    else if env.cfg.noncePerAgentMax ≤ cache.length then some "nonce cache at capacity"
    else none

def nonceExpiry (now : ℚ) (timestamp : Int) : ℚ :=
  max (now + env.cfg.nonceTtlSeconds) (timestamp + env.cfg.nonceTtlSeconds)

/-- The caches with an accepted nonce, also where trimming drops the table of the agent. -/
def storeNonce (now : ℚ) (agentId nonce : String) (timestamp : Int)
    (caches : OrderedMap String NonceCache) : OrderedMap String NonceCache :=
  let trimmed := if env.cfg.nonceCacheMaxEntries ≤ totalNonceCount caches then
      trimGlobalNonceBudget env.cfg.nonceCacheMaxEntries agentId (totalNonceCount caches) caches
    else caches
  match caches.lookup agentId with
  | none => OrderedMap.insert agentId [(nonce, nonceExpiry env now timestamp)] trimmed
  | some _ => OrderedMap.modify agentId
      (fun cache => cache ++ [(nonce, nonceExpiry env now timestamp)]) trimmed

def consumeNonce (now : ℚ) (agentId nonce : String) (timestamp : Int) (s : Relay) :
    Relay × Bool × String :=
  if strip nonce = "" then (s, false, "Missing nonce")
  else
    let caches := expireNonces now s.nonceCaches
    match refuseNonce env (strip agentId) (strip nonce) caches with
    | some detail => ({ s with nonceCaches := caches }, false, detail)
    | none =>
      let stored := storeNonce env now (strip agentId) (strip nonce) timestamp caches
      ({ s with nonceCaches := stored }, true, "ok")

/-- What is done with the nonces of a relay. -/
inductive NonceAction where
  | consumeNonce (agentId nonce : String) (timestamp : Int)
  | flush
  | reload

/-- An action at a time. -/
def nonceStep (node : RelayNode) : ℚ × NonceAction → RelayNode
  | (now, .consumeNonce agentId nonce timestamp) =>
    { node with relay := (consumeNonce env now agentId nonce timestamp node.relay).1 }
  | (now, .flush) => node.flush env now
  | (now, .reload) => node.reload env now

/-- No call is accepted on a full budget, and a reload finds the nonces of the relay in the
    file. -/
def KeepsNonces (node : RelayNode) : ℚ × NonceAction → Prop
  | (now, .consumeNonce agentId nonce _) =>
    refuseNonce env (strip agentId) (strip nonce) (expireNonces now node.relay.nonceCaches) = none →
      totalNonceCount (expireNonces now node.relay.nonceCaches) < env.cfg.nonceCacheMaxEntries
  | (_, .flush) => True
  | (_, .reload) => ∃ file, node.file = some file ∧ file.nonceCaches = node.relay.nonceCaches

end Model

/-! ## Held nonces -/

/-- The caches hold the nonce of the agent at least until a time. -/
def HeldUntil (agentId nonce : String) (until_ : ℚ) (caches : OrderedMap String NonceCache) : Prop :=
  ∃ cache, caches.lookup agentId = some cache ∧ ∃ expiry, (nonce, expiry) ∈ cache ∧ until_ ≤ expiry

section

variable {env : RelayEnv} {agentId nonce : String} {until_ now : ℚ}
  {caches : OrderedMap String NonceCache}

/-- A cache that is kept, with what is kept of it. -/
theorem lookup_map_filter {f : NonceCache → NonceCache} {p : String × NonceCache → Bool}
    {cache : NonceCache} (h : caches.lookup agentId = some cache)
    (hp : p (agentId, f cache) = true) :
    ((caches.map fun entry => (entry.1, f entry.2)).filter p).lookup agentId = some (f cache) := by
  induction caches with
  | nil => cases h
  | cons entry caches ih =>
    obtain ⟨aid, held⟩ := entry
    rw [OrderedMap.lookup_entry] at h
    rw [List.map_cons, List.filter_cons]
    split_ifs at h with haid
    · cases h
      subst haid
      rw [if_pos hp, OrderedMap.lookup_entry, if_pos rfl]
    · split
      · rw [OrderedMap.lookup_entry, if_neg haid]
        exact ih h
      · exact ih h

theorem HeldUntil.expire (h : HeldUntil agentId nonce until_ caches) (hnow : now < until_) :
    HeldUntil agentId nonce until_ (expireNonces now caches) := by
  obtain ⟨cache, hcache, expiry, hmem, huntil⟩ := h
  have hlive : (nonce, expiry) ∈ cache.filter fun nonce => now < nonce.2 :=
    List.mem_filter.mpr ⟨hmem, by simpa using hnow.trans_le huntil⟩
  refine ⟨_, lookup_map_filter hcache ?_, expiry, hlive, huntil⟩
  simpa using List.ne_nil_of_mem hlive

theorem HeldUntil.restore (h : HeldUntil agentId nonce until_ caches) (hnow : now < until_) :
    HeldUntil agentId nonce until_ ((caches.map fun entry =>
      (entry.1, restoreNonces now entry.2)).filter fun entry => entry.2 ≠ []) := by
  obtain ⟨cache, hcache, expiry, hmem, huntil⟩ := h
  have hlive : (nonce, expiry) ∈ restoreNonces now cache := by
    unfold restoreNonces
    rw [List.mem_insertionSort]
    exact List.mem_filter.mpr ⟨hmem, by simpa using hnow.trans_le huntil⟩
  refine ⟨_, lookup_map_filter hcache ?_, expiry, hlive, huntil⟩
  simpa using List.ne_nil_of_mem hlive

theorem HeldUntil.refused (h : HeldUntil agentId nonce until_ caches) :
    refuseNonce env agentId nonce caches = some "nonce replay detected" := by
  obtain ⟨cache, hcache, expiry, hmem, -⟩ := h
  unfold refuseNonce
  rw [hcache]
  dsimp only
  rw [if_pos]
  rw [List.lookup_isSome_iff]
  exact ⟨(nonce, expiry), hmem, by simp⟩

theorem HeldUntil.consume_refused {agentId nonce : String} {timestamp : Int} {s : Relay}
    (h : HeldUntil (strip agentId) (strip nonce) until_ s.nonceCaches) (hnow : now < until_) :
    (consumeNonce env now agentId nonce timestamp s).2.1 = false := by
  unfold consumeNonce
  split_ifs
  · rfl
  · dsimp only
    rw [(h.expire hnow).refused]

/-- Storing another nonce without trimming keeps the one that is held. -/
theorem HeldUntil.store {aid other : String} {timestamp : Int}
    (h : HeldUntil agentId nonce until_ caches)
    (hroom : totalNonceCount caches < env.cfg.nonceCacheMaxEntries) :
    HeldUntil agentId nonce until_ (storeNonce env now aid other timestamp caches) := by
  obtain ⟨cache, hcache, expiry, hmem, huntil⟩ := h
  unfold storeNonce
  rw [if_neg (not_le.mpr hroom)]
  cases hheld : caches.lookup aid with
  | none =>
    have hne : agentId ≠ aid := by
      rintro rfl
      rw [hheld] at hcache
      cases hcache
    exact ⟨cache, by rw [OrderedMap.lookup_insert, if_neg hne, hcache], expiry, hmem, huntil⟩
  | some held =>
    dsimp only
    rcases eq_or_ne agentId aid with rfl | hne
    · refine ⟨_, by rw [OrderedMap.lookup_modify, if_pos rfl, hcache]; rfl, expiry,
        List.mem_append_left _ hmem, huntil⟩
    · exact ⟨cache, by rw [OrderedMap.lookup_modify, if_neg hne, hcache], expiry, hmem, huntil⟩

theorem heldUntil_store {timestamp : Int}
    (hroom : totalNonceCount caches < env.cfg.nonceCacheMaxEntries) :
    HeldUntil agentId nonce (nonceExpiry env now timestamp)
      (storeNonce env now agentId nonce timestamp caches) := by
  unfold storeNonce
  rw [if_neg (not_le.mpr hroom)]
  cases hheld : caches.lookup agentId with
  | none =>
    exact ⟨_, by rw [OrderedMap.lookup_insert, if_pos rfl], _, List.mem_cons_self, le_rfl⟩
  | some held =>
    exact ⟨_, by rw [OrderedMap.lookup_modify, if_pos rfl, hheld]; rfl, _,
      List.mem_append_right _ List.mem_cons_self, le_rfl⟩

variable {node : RelayNode}

/-- A step before the expiry keeps a nonce that is held. -/
theorem nonceStep_held (h : HeldUntil agentId nonce until_ node.relay.nonceCaches)
    {a : ℚ × NonceAction} (hkeeps : KeepsNonces env node a) (hnow : a.1 < until_) :
    HeldUntil agentId nonce until_ (nonceStep env node a).relay.nonceCaches := by
  obtain ⟨now, a⟩ := a
  cases a with
  | consumeNonce aid other timestamp =>
    have hlive := h.expire hnow
    simp only [nonceStep, consumeNonce]
    split_ifs with hmissing
    · exact h
    · split
      · exact hlive
      · rename_i haccept
        exact hlive.store (hkeeps haccept)
  | flush => exact h
  | reload =>
    obtain ⟨file, hfile, hcaches⟩ := hkeeps
    simp only [nonceStep, RelayNode.reload, hfile]
    exact (hcaches ▸ h).restore hnow

end

/-- A relay with room for one nonce. -/
def smallRelayEnv : RelayEnv := { plainRelayEnv with
  cfg := { plainRelayConfig with nonceCacheMaxEntries := 1, nonceCache_pos := Nat.one_pos } }

end Vincent.Dm
