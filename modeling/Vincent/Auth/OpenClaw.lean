-- SUMMARY: OpenClaw requests over runs with waiting calls and restarts.
import Mathlib
import Vincent.General.Joined
import Vincent.General.Run
import Vincent.Python.Value

/-!
# OpenClaw signatures

The headers, the freshness and the nonce are checked before the body is awaited, the
signature after it, and the nonce is recorded then. Other calls and restarts can come
between.

The log of accepted requests and of what was signed is not in the code.
-/

namespace Vincent.Auth

open Vincent.Python Vincent.Run

def openclawNonceMax : Nat := 16384

def openclawNonceTtl : ℚ := 300

def openclawRequestMaxAge : Int := 60

def openclawStartupGrace : ℚ := 120

/-- The interpreter, the secret of the settings, and the hashes, which are taken as ideal. -/
structure OpenClawEnv where
  rt : Runtime
  /-- `_openclaw_hmac_secret()`. -/
  secret : String
  /-- The hex digest of HMAC-SHA256 under a secret. -/
  hmacSha256 : String → String → String
  /-- The hex digest of SHA-256. -/
  sha256 : List UInt8 → String
  hmac_injective : ∀ m m', hmacSha256 secret m = hmacSha256 secret m' → m = m'
  sha256_injective : ∀ b b', sha256 b = sha256 b' → b = b'
  sha256_hex : ∀ b, '|' ∉ (sha256 b).toList

/-! ## Requests -/

structure Request where
  /-- `request.headers.get`. -/
  header : String → Option String
  method : String
  /-- `_request_scope_path(request)`. -/
  path : String
  body : List UInt8

namespace Request

/-- A header under its name or, where that is absent or empty, under its former name. -/
def headerOr (r : Request) (name former : String) : String :=
  match r.header name with
  | some value => if value = "" then strip ((r.header former).getD "") else strip value
  | none => strip ((r.header former).getD "")

def timestampText (r : Request) : String := r.headerOr "X-Vincent-Timestamp" "X-SB-Timestamp"

def nonce (r : Request) : String := r.headerOr "X-Vincent-Nonce" "X-SB-Nonce"

def signature (r : Request) : String := r.headerOr "X-Vincent-Signature" "X-SB-Signature"

end Request

/-- What the holder of the secret signs. -/
structure SignedRequest where
  method : String
  path : String
  timestamp : String
  nonce : String
  body : List UInt8

variable (env : OpenClawEnv)

/-- `f"{method}|{path}|{ts_str}|{nonce}|{body_digest}"`. -/
def SignedRequest.message (m : SignedRequest) : String :=
  String.intercalate "|" [m.method, m.path, m.timestamp, m.nonce, env.sha256 m.body]

/-- What the code reads of a request. -/
def Request.read (r : Request) : SignedRequest where
  method := env.rt.upper r.method
  path := r.path
  timestamp := r.timestampText
  nonce := r.nonce
  body := r.body

/-- `expected`. -/
def SignedRequest.mac (m : SignedRequest) : String :=
  env.hmacSha256 env.secret (m.message env)

/-- No part of the signed text has the separator in it. -/
structure SignedRequest.Plain (m : SignedRequest) : Prop where
  method : '|' ∉ m.method.toList
  path : '|' ∉ m.path.toList
  timestamp : '|' ∉ m.timestamp.toList
  nonce : '|' ∉ m.nonce.toList

variable {env} in
/-- The code of a plain request is that of no other one. -/
theorem SignedRequest.eq_of_mac {m m' : SignedRequest} (hm : m.Plain)
    (h : m.mac env = m'.mac env) : m = m' := by
  have hmessage := env.hmac_injective _ _ h
  have hplain : ∀ part ∈ [m.method, m.path, m.timestamp, m.nonce, env.sha256 m.body],
      '|' ∉ part.toList := by
    simpa using ⟨hm.method, hm.path, hm.timestamp, hm.nonce, env.sha256_hex m.body⟩
  have hparts := @Joined.text_intercalate_injective '|' _
    [m'.method, m'.path, m'.timestamp, m'.nonce, env.sha256 m'.body] hplain rfl hmessage
  simp only [List.cons.injEq, and_true] at hparts
  obtain ⟨hmethod, hpath, htimestamp, hnonce, hdigest⟩ := hparts
  have hbody := env.sha256_injective _ _ hdigest
  cases m
  cases m'
  simp_all

/-! ## The nonce cache -/

/-- `_openclaw_nonce_cache`, in insertion order. -/
abbrev NonceCache := List (String × ℚ)

namespace NonceCache

/-- The entries that have not expired. -/
def live (cache : NonceCache) (now : ℚ) : NonceCache :=
  cache.filter fun entry => now - entry.2 ≤ openclawNonceTtl

/-- The keys that the hard cap drops, the oldest first. -/
def overflow (cache : NonceCache) : List String :=
  ((cache.insertionSort fun a b => a.2 ≤ b.2).take (cache.length - openclawNonceMax)).map Prod.fst

/-- `_prune_nonce_cache`. -/
def prune (cache : NonceCache) (now : ℚ) : NonceCache :=
  let kept := cache.live now
  if openclawNonceMax < kept.length then
    kept.filter fun entry => entry.1 ∉ kept.overflow
  else kept

def knows (cache : NonceCache) (nonce : String) : Bool := cache.any fun entry => entry.1 = nonce

/-- `_openclaw_nonce_cache[nonce] = now`. -/
def record (cache : NonceCache) (nonce : String) (now : ℚ) : NonceCache :=
  if cache.knows nonce then cache.map fun entry => if entry.1 = nonce then (nonce, now) else entry
  else cache ++ [(nonce, now)]

theorem mem_record {cache : NonceCache} {nonce : String} {now : ℚ} :
    (nonce, now) ∈ cache.record nonce now := by
  unfold record
  split
  · rename_i hknown
    obtain ⟨entry, hentry, hnonce⟩ := List.any_eq_true.mp hknown
    exact List.mem_map.mpr ⟨entry, hentry, by simp [of_decide_eq_true hnonce]⟩
  · simp

theorem mem_record_of_ne {cache : NonceCache} {nonce : String} {now : ℚ} {entry : String × ℚ}
    (h : entry ∈ cache) (hne : entry.1 ≠ nonce) : entry ∈ cache.record nonce now := by
  unfold record
  split
  · exact List.mem_map.mpr ⟨entry, h, by simp [hne]⟩
  · exact List.mem_append_left _ h

theorem knows_of_mem {cache : NonceCache} {entry : String × ℚ} (h : entry ∈ cache) :
    cache.knows entry.1 = true :=
  List.any_eq_true.mpr ⟨entry, h, by simp⟩

end NonceCache

/-! ## The check -/

/-- A call that waits for the body of its request. -/
structure Waiting where
  request : Request
  /-- `ts`. -/
  timestamp : Int
  /-- How many requests had been accepted when the call looked for its nonce. -/
  since : Nat

structure Accepted where
  request : Request
  timestamp : Int

/-- The process, with what a run has signed and accepted, the oldest first. -/
structure OpenClaw where
  clock : ℚ
  /-- `_OPENCLAW_STARTUP_TIME`. -/
  startup : ℚ
  cache : NonceCache := []
  waiting : List Waiting := []
  signed : List SignedRequest := []
  accepted : List Accepted := []

def maxAge (startup now : ℚ) : Int :=
  if now - startup < openclawStartupGrace then 10 else openclawRequestMaxAge

/-- `_verify_openclaw_hmac` up to the body: `ts`, or `none` for a rejection, and the cache. -/
def checkHeaders (s : OpenClaw) (now : ℚ) (r : Request) : Option Int × NonceCache :=
  if env.secret = "" then (none, s.cache)
  else if r.timestampText = "" ∨ r.nonce = "" ∨ r.signature = "" then (none, s.cache)
  else if r.nonce.length < 16 then (none, s.cache)
  else match env.rt.intOfStr r.timestampText with
    | none => (none, s.cache)
    | some ts =>
      if maxAge s.startup now < |⌊now⌋ - ts| then (none, s.cache)
      else
        let cache := s.cache.prune now
        if cache.knows r.nonce then (none, cache) else (some ts, cache)

inductive ClawAction where
  /-- The holder of the secret signs a request. -/
  | sign (m : SignedRequest)
  /-- A call starts, and goes on to the body. -/
  | begin (now : ℚ) (r : Request)
  /-- A call has its body. -/
  | finish (now : ℚ) (call : Nat)
  | restart (now : ℚ)

/-- `_verify_openclaw_hmac` in its two halves, and what else happens to the process. -/
def clawStep (s : OpenClaw) : ClawAction → OpenClaw
  | .sign m => { s with signed := s.signed ++ [m] }
  | .begin now r =>
    match checkHeaders env s now r with
    | (none, cache) => { s with clock := now, cache := cache }
    | (some ts, cache) =>
      { s with
        clock := now, cache := cache, waiting := s.waiting ++ [⟨r, ts, s.accepted.length⟩] }
  | .finish now call =>
    match s.waiting[call]? with
    | none => { s with clock := now }
    | some w =>
      let s := { s with clock := now, waiting := s.waiting.eraseIdx call }
      if w.request.signature = (w.request.read env).mac env then
        { s with
          cache := s.cache.record w.request.nonce now
          accepted := s.accepted ++ [⟨w.request, w.timestamp⟩] }
      else s
  | .restart now => { s with clock := now, startup := now, cache := [], waiting := [] }

/-- The clock does not go back, and only the holder of the secret makes a code that is right. -/
def Ideal (s : OpenClaw) : ClawAction → Prop
  | .sign _ => True
  | .begin now r => s.clock ≤ now ∧
      (r.signature = (r.read env).mac env → ∃ m ∈ s.signed, r.signature = m.mac env)
  | .finish now _ => s.clock ≤ now
  | .restart now => s.clock ≤ now

/-- No separators are signed, no fresh request falls to the cap, none is copied while it waits, and
no restart comes within ten seconds. -/
def Careful (s : OpenClaw) : ClawAction → Prop
  | .sign m => m.Plain
  | .begin now _ => ∀ a ∈ s.accepted, ⌊now⌋ ≤ a.timestamp + openclawRequestMaxAge →
      ∀ entry ∈ s.cache.live now, entry.1 = a.request.nonce → entry ∈ s.cache.prune now
  | .finish _ call => ∀ w ∈ s.waiting[call]?, ∀ a ∈ s.accepted.drop w.since,
      a.request.nonce ≠ w.request.nonce
  | .restart now => ∀ a ∈ s.accepted, a.timestamp + 10 < ⌊now⌋

/-- No signature is accepted twice, and what is accepted is what its signer signed. -/
structure AdmitsOnce (s : OpenClaw) : Prop where
  once : s.accepted.Pairwise fun a b => a.request.signature ≠ b.request.signature
  signed : ∀ a ∈ s.accepted, ∃ m ∈ s.signed, a.request.signature = m.mac env ∧
    env.rt.upper a.request.method = m.method ∧ a.request.path = m.path ∧ a.request.body = m.body

/-! ## The invariant -/

/-- A request was signed, in plain parts. -/
def Genuine (signed : List SignedRequest) (r : Request) : Prop :=
  ∃ m ∈ signed, m.Plain ∧ r.signature = m.mac env ∧ r.read env = m

/-- Why an accepted request is not accepted again: its nonce, its age, or the grace period. -/
def Spent (s : OpenClaw) (a : Accepted) : Prop :=
  (∃ time, (a.request.nonce, time) ∈ s.cache ∧ a.timestamp ≤ ⌊time⌋ + openclawRequestMaxAge) ∨
    a.timestamp + openclawRequestMaxAge < ⌊s.clock⌋ ∨ a.timestamp + 10 < ⌊s.startup⌋

/-- A call that waits has a fresh time, and no signature that was accepted before it started. -/
structure Waits (s : OpenClaw) (w : Waiting) : Prop where
  since_le : w.since ≤ s.accepted.length
  timestamp : env.rt.intOfStr w.request.timestampText = some w.timestamp
  fresh : w.timestamp ≤ ⌊s.clock⌋ + openclawRequestMaxAge
  genuine : w.request.signature = (w.request.read env).mac env → Genuine env s.signed w.request
  unseen : w.request.signature = (w.request.read env).mac env →
    ∀ a ∈ s.accepted.take w.since, a.request.signature ≠ w.request.signature

structure Guarded (s : OpenClaw) : Prop where
  startup_le : s.startup ≤ s.clock
  plain : ∀ m ∈ s.signed, m.Plain
  genuine : ∀ a ∈ s.accepted, Genuine env s.signed a.request
  timestamp : ∀ a ∈ s.accepted, env.rt.intOfStr a.request.timestampText = some a.timestamp
  recent : ∀ a ∈ s.accepted, a.timestamp ≤ ⌊s.clock⌋ + openclawRequestMaxAge
  spent : ∀ a ∈ s.accepted, Spent s a
  waits : ∀ w ∈ s.waiting, Waits env s w
  once : s.accepted.Pairwise fun a b => a.request.signature ≠ b.request.signature

variable {env}

theorem Genuine.mono {signed signed' : List SignedRequest} (h : signed ⊆ signed') {r : Request}
    (hr : Genuine env signed r) : Genuine env signed' r := by
  obtain ⟨m, hm, hrest⟩ := hr
  exact ⟨m, h hm, hrest⟩

theorem Genuine.read_eq {signed : List SignedRequest} {r r' : Request}
    (hr : Genuine env signed r) (hr' : Genuine env signed r') (h : r.signature = r'.signature) :
    r.read env = r'.read env := by
  obtain ⟨m, -, hplain, hmac, hread⟩ := hr
  obtain ⟨m', -, -, hmac', hread'⟩ := hr'
  rw [hread, hread']
  exact SignedRequest.eq_of_mac hplain (hmac.symm.trans (h.trans hmac'))

theorem Request.genuine_of_signed {s : OpenClaw} (hs : Guarded env s) {r : Request}
    (hmac : r.signature = (r.read env).mac env) (h : ∃ m ∈ s.signed, r.signature = m.mac env) :
    Genuine env s.signed r := by
  obtain ⟨m, hm, hsigned⟩ := h
  have hplain := hs.plain m hm
  exact ⟨m, hm, hplain, hsigned,
    (SignedRequest.eq_of_mac hplain (hsigned.symm.trans hmac)).symm⟩

/-- Time that passes, with the cache and the start as they were, leaves a request spent. -/
theorem Spent.later {s s' : OpenClaw} {a : Accepted} (h : Spent s a) (hcache : s'.cache = s.cache)
    (hstartup : s'.startup = s.startup) (hclock : s.clock ≤ s'.clock) : Spent s' a := by
  rcases h with hnonce | hold | hgrace
  · exact .inl (hcache ▸ hnonce)
  · exact .inr (.inl (hold.trans_le (Int.floor_le_floor hclock)))
  · exact .inr (.inr (hstartup ▸ hgrace))

theorem Waits.later {s s' : OpenClaw} {w : Waiting} (h : Waits env s w)
    (haccepted : s.accepted <+: s'.accepted) (hsigned : s.signed ⊆ s'.signed)
    (hclock : s.clock ≤ s'.clock) : Waits env s' w where
  since_le := h.since_le.trans haccepted.length_le
  timestamp := h.timestamp
  fresh := h.fresh.trans (by have := Int.floor_le_floor hclock; omega)
  genuine hmac := (h.genuine hmac).mono hsigned
  unseen := by
    obtain ⟨rest, hrest⟩ := haccepted
    rw [← hrest, List.take_append_of_le_length h.since_le]
    exact h.unseen

/-- An entry that is dropped for its age belongs to a request that is no longer fresh. -/
theorem lt_of_expired {ts : Int} {time now : ℚ} (hts : ts ≤ ⌊time⌋ + openclawRequestMaxAge)
    (hexpired : openclawNonceTtl < now - time) : ts + openclawRequestMaxAge < ⌊now⌋ := by
  unfold openclawNonceTtl at hexpired
  have hfloor : ⌊time⌋ + 300 ≤ ⌊now⌋ := by
    have hle : time + (300 : Int) ≤ now := by
      push_cast
      linarith
    calc ⌊time⌋ + 300 = ⌊time + (300 : Int)⌋ := (Int.floor_add_intCast time 300).symm
      _ ≤ ⌊now⌋ := Int.floor_le_floor hle
  unfold openclawRequestMaxAge at *
  omega

/-- Pruning that drops no entry of a fresh request. -/
theorem Spent.prune {s s' : OpenClaw} {now : ℚ} {a : Accepted} (h : Spent s a)
    (hclock : s.clock ≤ now) (hnow : s'.clock = now) (hstartup : s'.startup = s.startup)
    (hcache : s'.cache = s.cache.prune now)
    (hkeeps : ⌊now⌋ ≤ a.timestamp + openclawRequestMaxAge →
      ∀ entry ∈ s.cache.live now, entry.1 = a.request.nonce → entry ∈ s.cache.prune now) :
    Spent s' a := by
  have hold : a.timestamp + openclawRequestMaxAge < ⌊now⌋ → Spent s' a :=
    fun h => .inr (.inl (hnow ▸ h))
  by_cases hfresh : ⌊now⌋ ≤ a.timestamp + openclawRequestMaxAge
  · rcases h with ⟨time, hentry, htime⟩ | h | hgrace
    · by_cases hlive : now - time ≤ openclawNonceTtl
      · refine .inl ⟨time, ?_, htime⟩
        rw [hcache]
        exact hkeeps hfresh _ (List.mem_filter.mpr ⟨hentry, by simpa using hlive⟩) rfl
      · exact hold (lt_of_expired htime (not_le.mp hlive))
    · exact hold (h.trans_le (Int.floor_le_floor hclock))
    · exact .inr (.inr (hstartup ▸ hgrace))
  · exact hold (not_le.mp hfresh)

/-- What the first half demands of a request that it lets through. -/
theorem checkHeaders_eq_some {s : OpenClaw} {now : ℚ} {r : Request} {ts : Int} {cache : NonceCache}
    (h : checkHeaders env s now r = (some ts, cache)) :
    env.rt.intOfStr r.timestampText = some ts ∧ |⌊now⌋ - ts| ≤ maxAge s.startup now ∧
      cache = s.cache.prune now ∧ cache.knows r.nonce = false := by
  unfold checkHeaders at h
  split at h
  · cases h
  split at h
  · cases h
  split at h
  · cases h
  split at h
  · cases h
  rename_i ts' hts
  split at h
  · cases h
  rename_i hage
  by_cases hknown : (s.cache.prune now).knows r.nonce = true
  · simp [hknown] at h
  · simp only [hknown, Bool.false_eq_true, if_false, Prod.mk.injEq, Option.some.injEq] at h
    obtain ⟨rfl, rfl⟩ := h
    exact ⟨hts, not_lt.mp hage, rfl, by simpa using hknown⟩

/-- A rejected request leaves the cache or prunes it. -/
theorem checkHeaders_eq_none {s : OpenClaw} {now : ℚ} {r : Request} {cache : NonceCache}
    (h : checkHeaders env s now r = (none, cache)) :
    cache = s.cache ∨ cache = s.cache.prune now := by
  unfold checkHeaders at h
  repeat' split at h
  all_goals first
    | exact .inl (Prod.mk.inj h).2.symm
    | skip
  by_cases hknown : (s.cache.prune now).knows r.nonce = true
  · simp only [hknown, if_true, Prod.mk.injEq, true_and] at h
    exact .inr h.symm
  · simp [hknown] at h

theorem maxAge_le (startup now : ℚ) : maxAge startup now ≤ openclawRequestMaxAge := by
  unfold maxAge openclawRequestMaxAge
  split <;> omega

/-- A spent request is not let through again. -/
theorem Spent.not_fresh {s : OpenClaw} {a : Accepted} (h : Spent s a)
    (hknown : s.cache.knows a.request.nonce = false) (hstartup : s.startup ≤ s.clock) :
    ¬ |⌊s.clock⌋ - a.timestamp| ≤ maxAge s.startup s.clock := by
  intro hage
  have hdiff := (le_abs_self _).trans hage
  have hmax := maxAge_le s.startup s.clock
  rcases h with ⟨time, hentry, -⟩ | hold | hgrace
  · rw [NonceCache.knows_of_mem hentry] at hknown
    cases hknown
  · omega
  · have hfloor := Int.floor_le_floor hstartup
    unfold maxAge at hdiff
    split at hdiff
    · omega
    · rename_i hover
      -- past the grace period the time is more than two minutes old
      have hle : s.startup + (120 : Int) ≤ s.clock := by
        unfold openclawStartupGrace at hover
        push_cast
        linarith
      have hstart : ⌊s.startup⌋ + 120 ≤ ⌊s.clock⌋ := by
        calc ⌊s.startup⌋ + 120 = ⌊s.startup + (120 : Int)⌋ :=
              (Int.floor_add_intCast s.startup 120).symm
          _ ≤ ⌊s.clock⌋ := Int.floor_le_floor hle
      unfold openclawRequestMaxAge at hdiff
      omega

/-! ## The steps -/

theorem Guarded.quiet {s s' : OpenClaw} (hs : Guarded env s) (hclock : s.clock ≤ s'.clock)
    (hstartup : s'.startup ≤ s'.clock) (hsigned : s.signed ⊆ s'.signed)
    (hplain : ∀ m ∈ s'.signed, m.Plain) (haccepted : s'.accepted = s.accepted)
    (hspent : ∀ a ∈ s.accepted, Spent s' a)
    (hwaiting : ∀ w ∈ s'.waiting, w ∈ s.waiting) : Guarded env s' where
  startup_le := hstartup
  plain := hplain
  genuine a ha := (hs.genuine a (haccepted ▸ ha)).mono hsigned
  timestamp a ha := hs.timestamp a (haccepted ▸ ha)
  recent a ha := (hs.recent a (haccepted ▸ ha)).trans
    (by have := Int.floor_le_floor hclock; omega)
  spent a ha := hspent a (haccepted ▸ ha)
  waits w hw := (hs.waits w (hwaiting w hw)).later (haccepted ▸ List.prefix_refl _) hsigned hclock
  once := haccepted ▸ hs.once

theorem Guarded.sign {s : OpenClaw} (hs : Guarded env s) {m : SignedRequest} (hm : m.Plain) :
    Guarded env (clawStep env s (.sign m)) := by
  refine hs.quiet le_rfl hs.startup_le (List.subset_append_left _ _) ?_ rfl
    (fun a ha => (hs.spent a ha).later rfl rfl le_rfl) (fun w hw => hw)
  intro m' hm'
  rcases List.mem_append.mp hm' with hold | hnew
  · exact hs.plain m' hold
  · rw [List.mem_singleton.mp hnew]
    exact hm

theorem Guarded.restart {s : OpenClaw} (hs : Guarded env s) {now : ℚ} (hclock : s.clock ≤ now)
    (hstale : ∀ a ∈ s.accepted, a.timestamp + 10 < ⌊now⌋) :
    Guarded env (clawStep env s (.restart now)) :=
  hs.quiet hclock le_rfl (List.Subset.refl _) hs.plain rfl
    (fun a ha => .inr (.inr (hstale a ha))) (fun _ hw => absurd hw List.not_mem_nil)

theorem Guarded.begin {s : OpenClaw} (hs : Guarded env s) {now : ℚ} {r : Request}
    (hideal : Ideal env s (.begin now r)) (hcareful : Careful s (.begin now r)) :
    Guarded env (clawStep env s (.begin now r)) := by
  obtain ⟨hclock, hsigned⟩ := hideal
  have hpruned : ∀ a ∈ s.accepted, ∀ waiting : List Waiting,
      Spent { s with clock := now, cache := s.cache.prune now, waiting := waiting } a :=
    fun a ha waiting => (hs.spent a ha).prune hclock rfl rfl rfl (hcareful a ha)
  rcases hcheck : checkHeaders env s now r with ⟨_ | ts, cache⟩
  · simp only [clawStep, hcheck]
    refine hs.quiet hclock (hs.startup_le.trans hclock) (List.Subset.refl _) hs.plain rfl ?_
      (fun w hw => hw)
    intro a ha
    rcases checkHeaders_eq_none hcheck with rfl | rfl
    · exact (hs.spent a ha).later rfl rfl hclock
    · exact hpruned a ha s.waiting
  · obtain ⟨hts, hage, rfl, hknown⟩ := checkHeaders_eq_some hcheck
    simp only [clawStep, hcheck]
    have hgenuine : r.signature = (r.read env).mac env → Genuine env s.signed r :=
      fun hmac => Request.genuine_of_signed hs hmac (hsigned hmac)
    have hquiet : Guarded env { s with clock := now, cache := s.cache.prune now } :=
      hs.quiet hclock (hs.startup_le.trans hclock) (List.Subset.refl _) hs.plain rfl
        (fun a ha => hpruned a ha s.waiting) (fun w hw => hw)
    have hnew : Waits env { s with clock := now, cache := s.cache.prune now }
        ⟨r, ts, s.accepted.length⟩ := by
      refine ⟨le_rfl, hts, ?_, hgenuine, ?_⟩
      · have hdiff := (neg_abs_le (⌊now⌋ - ts)).trans' (neg_le_neg hage)
        have hmax := maxAge_le s.startup now
        simp only
        omega
      · intro hmac a ha heq
        have ha : a ∈ s.accepted := List.mem_of_mem_take ha
        have hread := (hs.genuine a ha).read_eq (hgenuine hmac) heq
        have hnonce : a.request.nonce = r.nonce := congrArg SignedRequest.nonce hread
        have htime : a.request.timestampText = r.timestampText :=
          congrArg SignedRequest.timestamp hread
        have hsame : a.timestamp = ts := by
          have := hs.timestamp a ha
          rw [htime, hts] at this
          exact (Option.some.inj this).symm
        exact (hquiet.spent a ha).not_fresh (hnonce ▸ hknown) hquiet.startup_le (hsame ▸ hage)
    refine ⟨hquiet.startup_le, hquiet.plain, hquiet.genuine, hquiet.timestamp, hquiet.recent,
      fun a ha => hpruned a ha _, ?_, hquiet.once⟩
    intro w hw
    rcases List.mem_append.mp hw with hold | hlast
    · exact (hquiet.waits w hold).later (List.prefix_refl _) (List.Subset.refl _) le_rfl
    · rw [List.mem_singleton.mp hlast]
      exact hnew.later (List.prefix_refl _) (List.Subset.refl _) le_rfl

theorem Guarded.finish {s : OpenClaw} (hs : Guarded env s) {now : ℚ} {call : Nat}
    (hclock : s.clock ≤ now) (hcareful : Careful s (.finish now call)) :
    Guarded env (clawStep env s (.finish now call)) := by
  have hquiet : ∀ waiting : List Waiting, (∀ w ∈ waiting, w ∈ s.waiting) →
      Guarded env { s with clock := now, waiting := waiting } := fun waiting hwaiting =>
    hs.quiet hclock (hs.startup_le.trans hclock) (List.Subset.refl _) hs.plain rfl
      (fun a ha => (hs.spent a ha).later rfl rfl hclock) hwaiting
  simp only [clawStep]
  cases hcall : s.waiting[call]? with
  | none => exact hquiet s.waiting fun w hw => hw
  | some w =>
    have hrest := hquiet (s.waiting.eraseIdx call) fun w hw => List.mem_of_mem_eraseIdx hw
    have hw := hs.waits w (List.mem_of_getElem? hcall)
    by_cases hmac : w.request.signature = (w.request.read env).mac env
    · simp only [hmac, if_true]
      have hgenuine := hw.genuine hmac
      have hfresh : w.timestamp ≤ ⌊now⌋ + openclawRequestMaxAge :=
        hw.fresh.trans (by have := Int.floor_le_floor hclock; omega)
      have hnew : ∀ a ∈ s.accepted, a.request.signature ≠ w.request.signature := by
        intro a ha heq
        rw [← List.take_append_drop w.since s.accepted] at ha
        rcases List.mem_append.mp ha with hbefore | hafter
        · exact hw.unseen hmac a hbefore heq
        · have hread := (hs.genuine a (List.mem_of_mem_drop hafter)).read_eq hgenuine heq
          exact hcareful w hcall a hafter (congrArg SignedRequest.nonce hread)
      have hmem : ∀ {a : Accepted}, a ∈ s.accepted ++ [⟨w.request, w.timestamp⟩] →
          a ∈ s.accepted ∨ a = ⟨w.request, w.timestamp⟩ := by
        intro a ha
        simpa using ha
      refine ⟨hrest.startup_le, hs.plain, ?_, ?_, ?_, ?_, ?_, ?_⟩
      · intro a ha
        rcases hmem ha with hold | rfl
        · exact hs.genuine a hold
        · exact hgenuine
      · intro a ha
        rcases hmem ha with hold | rfl
        · exact hs.timestamp a hold
        · exact hw.timestamp
      · intro a ha
        rcases hmem ha with hold | rfl
        · exact hrest.recent a hold
        · exact hfresh
      · intro a ha
        rcases hmem ha with hold | rfl
        · rcases hrest.spent a hold with ⟨time, hentry, htime⟩ | hlate | hgrace
          · by_cases hsame : a.request.nonce = w.request.nonce
            · -- the nonce is recorded anew, at a later time
              exact .inl ⟨now, hsame ▸ NonceCache.mem_record, hrest.recent a hold⟩
            · exact .inl ⟨time, NonceCache.mem_record_of_ne hentry hsame, htime⟩
          · exact .inr (.inl hlate)
          · exact .inr (.inr hgrace)
        · exact .inl ⟨now, NonceCache.mem_record, hfresh⟩
      · intro w' hw'
        exact (hrest.waits w' hw').later (List.prefix_append _ _) (List.Subset.refl _) le_rfl
      · refine List.pairwise_append.mpr ⟨hs.once, List.pairwise_singleton _ _, ?_⟩
        intro a ha b hb
        rw [List.mem_singleton.mp hb]
        exact hnew a ha
    · simp only [hmac, if_false]
      exact hrest

theorem Guarded.step (s : OpenClaw) (a : ClawAction) (hs : Guarded env s)
    (h : Ideal env s a ∧ Careful s a) : Guarded env (clawStep env s a) := by
  cases a with
  | sign m => exact hs.sign h.2
  | «begin» now r => exact hs.begin h.1 h.2
  | finish now call => exact hs.finish h.1 h.2
  | restart now => exact hs.restart h.1 h.2

theorem Guarded.admitsOnce {s : OpenClaw} (hs : Guarded env s) : AdmitsOnce env s where
  once := hs.once
  signed a ha := by
    obtain ⟨m, hm, -, hmac, hread⟩ := hs.genuine a ha
    subst hread
    exact ⟨_, hm, hmac, rfl, rfl, rfl⟩

theorem guarded_start (now : ℚ) : Guarded env { clock := now, startup := now } :=
  ⟨le_rfl, by simp, by simp, by simp, by simp, by simp, by simp, List.Pairwise.nil⟩

/-- In a run whose steps are careful, a signature admits one request, and the one that was
    signed. -/
theorem openclaw_admits_once (env : OpenClawEnv) (start : ℚ) (actions : List ClawAction)
    (hideal : Along (clawStep env) (Ideal env) { clock := start, startup := start } actions)
    (hcareful : Along (clawStep env) Careful { clock := start, startup := start } actions) :
    AdmitsOnce env (run (clawStep env) { clock := start, startup := start } actions) := by
  have hboth : Along (clawStep env) (fun s a => Ideal env s a ∧ Careful s a)
      { clock := start, startup := start } actions := by
    rw [along_iff_split] at hideal hcareful ⊢
    exact fun pre a post heq => ⟨hideal pre a post heq, hcareful pre a post heq⟩
  exact (invariant Guarded.step (guarded_start start) hboth).admitsOnce

/-! ## Runs that can be computed -/

instance {s : OpenClaw} {a : ClawAction} : Decidable (Ideal env s a) :=
  match a with
  | .sign _ => inferInstanceAs (Decidable True)
  | .begin now r => inferInstanceAs (Decidable (s.clock ≤ now ∧
      (r.signature = (r.read env).mac env → ∃ m ∈ s.signed, r.signature = m.mac env)))
  | .finish now _ => inferInstanceAs (Decidable (s.clock ≤ now))
  | .restart now => inferInstanceAs (Decidable (s.clock ≤ now))

instance {m : SignedRequest} : Decidable m.Plain :=
  decidable_of_iff ('|' ∉ m.method.toList ∧ '|' ∉ m.path.toList ∧ '|' ∉ m.timestamp.toList ∧
      '|' ∉ m.nonce.toList)
    ⟨fun h => ⟨h.1, h.2.1, h.2.2.1, h.2.2.2⟩, fun h => ⟨h.method, h.path, h.timestamp, h.nonce⟩⟩

instance {s : OpenClaw} {a : ClawAction} : Decidable (Careful s a) :=
  match a with
  | .sign m => inferInstanceAs (Decidable m.Plain)
  | .begin now _ => inferInstanceAs (Decidable (∀ a ∈ s.accepted,
      ⌊now⌋ ≤ a.timestamp + openclawRequestMaxAge →
      ∀ entry ∈ s.cache.live now, entry.1 = a.request.nonce → entry ∈ s.cache.prune now))
  | .finish _ call => inferInstanceAs (Decidable (∀ w ∈ s.waiting[call]?,
      ∀ a ∈ s.accepted.drop w.since, a.request.nonce ≠ w.request.nonce))
  | .restart now => inferInstanceAs (Decidable (∀ a ∈ s.accepted, a.timestamp + 10 < ⌊now⌋))

private def plainDigest (body : List UInt8) : String :=
  String.ofList (body.map fun b => Char.ofNat (b.toNat + 256))

private theorem toNat_plainDigit (b : UInt8) :
    (Char.ofNat (b.toNat + 256)).toNat = b.toNat + 256 := by
  have hlt := b.toNat_lt
  have hvalid : (b.toNat + 256).isValidChar := .inl (by omega)
  simp only [Char.ofNat, dif_pos hvalid]
  rfl

/-- Hashes that show what they hash. -/
def plainEnv : OpenClawEnv where
  rt := asciiRuntime
  secret := "secret"
  hmacSha256 secret m := secret ++ "#" ++ m ++ "#"
  sha256 := plainDigest
  hmac_injective m m' h := by
    have hlist := congrArg String.toList h
    simp only [String.toList_append, List.append_assoc, List.append_cancel_left_eq,
      List.append_cancel_right_eq] at hlist
    exact String.ext hlist
  sha256_injective b b' h := by
    have hlist := congrArg String.toList h
    simp only [plainDigest, String.toList_ofList] at hlist
    refine List.map_injective_iff.mpr (fun x y hxy => ?_) hlist
    have hcode := congrArg Char.toNat hxy
    rw [toNat_plainDigit, toNat_plainDigit] at hcode
    exact UInt8.toNat.inj (by omega)
  sha256_hex b := by
    simp only [plainDigest, String.toList_ofList, List.mem_map, not_exists, not_and]
    intro x _ hbar
    have hcode := congrArg Char.toNat hbar
    rw [toNat_plainDigit, show ('|' : Char).toNat = 124 from rfl] at hcode
    omega

/-- The request that carries a signature of `m`, with the parts of `shown` in its other headers. -/
def carry (m shown : SignedRequest) : Request where
  header name :=
    if name = "X-Vincent-Timestamp" then some shown.timestamp
    else if name = "X-Vincent-Nonce" then some shown.nonce
    else if name = "X-Vincent-Signature" then some (m.mac plainEnv)
    else none
  method := shown.method
  path := shown.path
  body := shown.body

def poll : SignedRequest := ⟨"POST", "/api/ai/poll", "1000", "0123456789abcdef", [1, 2]⟩

def push : SignedRequest := ⟨"POST", "/api/ai/push", "1003", "fedcba9876543210", []⟩

/-- Two requests, one of them replayed, before and after a restart. -/
def replayedRun : List ClawAction :=
  [.sign poll, .begin 1001 (carry poll poll), .sign push, .begin 1003 (carry push push),
    .finish 1004 0, .finish 1004 0, .begin 1005 (carry poll poll), .restart 1020,
    .begin 1021 (carry poll poll), .finish 1022 0]

theorem openclaw_admits_once_sample :
    AdmitsOnce plainEnv (run (clawStep plainEnv) { clock := 900, startup := 900 } replayedRun) := by
  apply openclaw_admits_once plainEnv 900 replayedRun
  · refine ⟨?_, ?_, ?_, ?_, ?_, ?_, ?_, ?_, ?_, ?_, trivial⟩ <;> decide +kernel
  · refine ⟨?_, ?_, ?_, ?_, ?_, ?_, ?_, ?_, ?_, ?_, trivial⟩ <;> decide +kernel

/-- A request and its replay wait for their bodies at the same time. -/
def overlappingRun : List ClawAction :=
  [.sign poll, .begin 1001 (carry poll poll), .begin 1001 (carry poll poll), .finish 1002 0,
    .finish 1002 0]

/-- The process restarts within ten seconds. -/
def restartedRun : List ClawAction :=
  [.sign poll, .begin 1001 (carry poll poll), .finish 1001 0, .restart 1003,
    .begin 1004 (carry poll poll), .finish 1004 0]

/-- A signed path with a separator in it. -/
def barred : SignedRequest := ⟨"POST", "/api/ai|1001", "1000", "0123456789abcdef", []⟩

/-- The same text, with the separator taken for that of the path and the time. -/
def shifted : SignedRequest := ⟨"POST", "/api/ai", "1001", "1000|0123456789abcdef", []⟩

def shiftedRun : List ClawAction :=
  [.sign barred, .begin 1001 (carry barred shifted), .finish 1001 0]

/-- Replays that overlap or follow a restart are accepted, and a separator admits another path. -/
theorem not_openclaw_admits_once :
    (Along (clawStep plainEnv) (Ideal plainEnv) { clock := 900, startup := 900 } overlappingRun ∧
      ¬ AdmitsOnce plainEnv
        (run (clawStep plainEnv) { clock := 900, startup := 900 } overlappingRun)) ∧
    (Along (clawStep plainEnv) (Ideal plainEnv) { clock := 900, startup := 900 } restartedRun ∧
      ¬ AdmitsOnce plainEnv
        (run (clawStep plainEnv) { clock := 900, startup := 900 } restartedRun)) ∧
    (Along (clawStep plainEnv) (Ideal plainEnv) { clock := 900, startup := 900 } shiftedRun ∧
      ¬ AdmitsOnce plainEnv
        (run (clawStep plainEnv) { clock := 900, startup := 900 } shiftedRun)) := by
  refine ⟨⟨?_, fun h => absurd h.once ?_⟩, ⟨?_, fun h => absurd h.once ?_⟩,
    ⟨?_, fun h => absurd h.signed ?_⟩⟩
  · refine ⟨?_, ?_, ?_, ?_, ?_, trivial⟩ <;> decide +kernel
  · decide +kernel
  · refine ⟨?_, ?_, ?_, ?_, ?_, ?_, trivial⟩ <;> decide +kernel
  · decide +kernel
  · refine ⟨?_, ?_, ?_, trivial⟩ <;> decide +kernel
  · decide +kernel

end Vincent.Auth
