-- SUMMARY: The outbox of sealed messages, and the worker that releases them.
import Vincent.General.OrderedMap
import Vincent.General.Run
import Vincent.Python.Value

/-!
# The private outbox

A sealed message waits in the outbox under a lane and a release key. A pass of the
worker goes through a copy of the items that were pending when it began, and takes the
lock for each change but not in between.
-/

namespace Vincent.Outbox

open Vincent.Python

section Model

variable (rt : Runtime)

/-- `s.strip().lower()`. -/
def lowered (s : String) : String := rt.lower (strip s)

/-! ## Release policy -/

def transportTierOrder : List (String × Nat) :=
  [("public_degraded", 0), ("private_control_only", 1), ("private_transitional", 2),
    ("private_strong", 3)]

def privateDeliveryStatusLabels : List (String × String) :=
  [("preparing_private_lane", "Preparing private lane"),
    ("queued_private_delivery", "Queued for private delivery"),
    ("delivered_privately", "Delivered privately"),
    ("weaker_privacy_approval_required", "Needs your approval to send with weaker privacy"),
    ("sealed_local", "Sealed locally"),
    ("queued_private_release", "Queued for private release"),
    ("publishing_private", "Publishing privately"),
    ("published_private", "Published privately"),
    ("delivered_private", "Delivered privately"),
    ("released_private", "Released privately"),
    ("release_failed", "Private release failed")]

def networkReleaseTiers : List (String × String) :=
  [("dm", "private_strong"), ("gate", "private_strong"), ("trust_graph", "private_strong")]

def statusLabel (code : String) : String :=
  (privateDeliveryStatusLabels.lookup code).getD "Queued for private delivery"

def normalizeTransportTier (value : String) : String :=
  let candidate := lowered rt value
  if (transportTierOrder.lookup candidate).isSome then candidate else "public_degraded"

def tierRank (tier : String) : Nat := (transportTierOrder.lookup tier).getD 0

def transportTierIsSufficient (currentTier requiredTier : String) : Bool :=
  tierRank (normalizeTransportTier rt requiredTier) ≤ tierRank (normalizeTransportTier rt currentTier)

def networkReleaseRequiredTier (lane : String) : String :=
  (networkReleaseTiers.lookup (lowered rt lane)).getD "private_strong"

/-- The tier for a lane, where the state of the wormhole says whether RNS is enabled. -/
def releaseLaneRequiredTier (rnsEnabled : Bool) (lane : String) : String :=
  let required := networkReleaseRequiredTier rt (lowered rt lane)
  if lowered rt lane ≠ "dm" then required
  else if !rnsEnabled then "private_transitional"
  else required

structure DeliveryStatus where
  code : String
  label : String
  reasonCode : String
  reason : String
deriving DecidableEq

structure PrivateReleaseDecision where
  lane : String
  currentTier : String
  requiredTier : String
  allowed : Bool
  shouldQueue : Bool
  shouldBootstrap : Bool
  statusCode : String
  statusLabel : String
  reasonCode : String
  plainReason : String

def privateDeliveryStatus (statusCode reasonCode plainReason : String) : DeliveryStatus :=
  let code := if strip statusCode ≠ "" then strip statusCode else "queued_private_delivery"
  { code, label := statusLabel code, reasonCode := strip reasonCode, reason := strip plainReason }

def evaluateNetworkRelease (rnsEnabled : Bool) (lane currentTier : String) :
    PrivateReleaseDecision :=
  let normalizedLane := lowered rt lane
  let normalizedTier := normalizeTransportTier rt currentTier
  let requiredTier := releaseLaneRequiredTier rt rnsEnabled normalizedLane
  if transportTierIsSufficient rt normalizedTier requiredTier then
    { lane := normalizedLane, currentTier := normalizedTier, requiredTier
      allowed := true, shouldQueue := false, shouldBootstrap := false
      statusCode := "delivered_privately"
      statusLabel := statusLabel "delivered_privately"
      reasonCode := "release_floor_satisfied"
      plainReason := "The private lane is ready for delivery." }
  else if normalizedTier = "public_degraded" then
    { lane := normalizedLane, currentTier := normalizedTier, requiredTier
      allowed := false, shouldQueue := true, shouldBootstrap := true
      statusCode := "preparing_private_lane"
      statusLabel := statusLabel "preparing_private_lane"
      reasonCode := normalizedLane ++ "_release_waiting_for_private_lane"
      plainReason := "The app is preparing the private lane before release." }
  else
    { lane := normalizedLane, currentTier := normalizedTier, requiredTier
      allowed := false, shouldQueue := true, shouldBootstrap := true
      statusCode := "queued_private_delivery"
      statusLabel := statusLabel "queued_private_delivery"
      reasonCode := normalizedLane ++ "_release_waiting_for_" ++ requiredTier
      plainReason := "The message is sealed locally and waiting for the required private lane." }

def queuedDeliveryStatus (rnsEnabled : Bool) (lane currentTier : String) : DeliveryStatus :=
  let decision := evaluateNetworkRelease rt rnsEnabled lane currentTier
  if decision.allowed then
    privateDeliveryStatus "queued_private_delivery" (decision.lane ++ "_release_queued")
      "The sealed message is queued for private delivery."
  else
    privateDeliveryStatus decision.statusCode decision.reasonCode decision.plainReason

/-! ## The outbox -/

inductive ReleaseState where
  | queued
  | releasing
  | delivered
deriving DecidableEq

structure OutboxItem where
  id : String
  lane : String
  releaseKey : String
  payload : Dict
  status : DeliveryStatus
  requiredTier : String
  currentTier : String
  releaseState : ReleaseState
  attempts : Nat
  createdAt : ℚ
  updatedAt : ℚ
  releasedAt : ℚ
  lastError : String
  result : Dict

/-- What a message is known by. -/
structure OutboxKey where
  lane : String
  releaseKey : String
deriving DecidableEq

def OutboxItem.key (item : OutboxItem) : OutboxKey := ⟨item.lane, item.releaseKey⟩

/-- The outbox in memory, and the items in its file. -/
structure PrivateOutbox where
  items : OrderedMap String OutboxItem := []
  index : OrderedMap OutboxKey String := []
  file : List OutboxItem := []

/-- How a save ends: it can also raise after the file was replaced. -/
inductive Saving where
  | saved
  | failed
  | replacedAndFailed

def normalizeItem (now : ℚ) (item : OutboxItem) : OutboxItem :=
  let statusCode := if strip item.status.code ≠ "" then strip item.status.code
    else "queued_private_delivery"
  { item with
    lane := lowered rt item.lane
    status := privateDeliveryStatus statusCode item.status.reasonCode item.status.reason
    currentTier := if item.currentTier ≠ "" then item.currentTier else "public_degraded"
    releaseState := if item.releaseState = .releasing then .queued else item.releaseState
    createdAt := if item.createdAt = 0 then now else item.createdAt
    updatedAt := if item.updatedAt = 0 then now else item.updatedAt }

namespace PrivateOutbox

/-- One item of the file. -/
def loadItem (now : ℚ) (s : PrivateOutbox) (item : OutboxItem) : PrivateOutbox :=
  let normalized := normalizeItem rt now item
  let itemId := strip normalized.id
  let releaseKey := strip normalized.releaseKey
  let lane := lowered rt normalized.lane
  if itemId = "" ∨ lane = "" ∨ releaseKey = "" then s
  else
    { s with
      items := s.items.insert itemId normalized
      index := s.index.insert ⟨lane, releaseKey⟩ itemId }

def load (now : ℚ) (s : PrivateOutbox) : PrivateOutbox :=
  s.file.foldl (loadItem rt now) { file := s.file }

def save (s : PrivateOutbox) : Saving → PrivateOutbox × Except String Unit
  | .saved => ({ s with file := s.items.values }, .ok ())
  | .failed => (s, .error "OSError")
  | .replacedAndFailed => ({ s with file := s.items.values }, .error "OSError")

/-- Put an item in the place of another and save, or put the other back. -/
def replaceItem (itemId : String) (previous updated : OutboxItem) (saving : Saving)
    (s : PrivateOutbox) : PrivateOutbox × Except String Unit :=
  match save { s with items := s.items.insert itemId updated } saving with
  | (s', .ok ()) => (s', .ok ())
  | (s', .error exn) => ({ s' with items := s'.items.insert itemId previous }, .error exn)

structure EnqueueCall where
  lane : String
  releaseKey : String
  payload : Dict
  currentTier : String
  requiredTier : String
  rnsEnabled : Bool
  /-- What `secrets.token_hex` gives. -/
  token : String
  now : ℚ

def EnqueueCall.item (c : EnqueueCall) : OutboxItem where
  id := "outbox_" ++ c.token
  lane := lowered rt c.lane
  releaseKey := strip c.releaseKey
  payload := c.payload
  status := queuedDeliveryStatus rt c.rnsEnabled (lowered rt c.lane) c.currentTier
  requiredTier := c.requiredTier
  currentTier := c.currentTier
  releaseState := .queued
  attempts := 0
  createdAt := c.now
  updatedAt := c.now
  releasedAt := 0
  lastError := ""
  result := []

/-- `enqueue` of a message that the outbox has under an id. -/
def requeue (c : EnqueueCall) (saving : Saving) (existingId : String) (s : PrivateOutbox) :
    PrivateOutbox × Except String OutboxItem :=
  match s.items.lookup existingId with
  | none => (s, .error "KeyError")
  | some existing =>
    if existing.releaseState = .delivered then (s, .ok existing)
    else
      let updated := { existing with
        status := queuedDeliveryStatus rt c.rnsEnabled (lowered rt c.lane) c.currentTier
        currentTier := c.currentTier
        updatedAt := c.now }
      match s.replaceItem existingId existing updated saving with
      | (s', .ok ()) => (s', .ok updated)
      | (s', .error exn) => (s', .error exn)

/-- `enqueue` of a message that is new to the outbox. -/
def addItem (item : OutboxItem) (saving : Saving) (s : PrivateOutbox) :
    PrivateOutbox × Except String OutboxItem :=
  match save { s with
    items := s.items.insert item.id item
    index := s.index.insert item.key item.id } saving with
  | (s', .ok ()) => (s', .ok item)
  | (s', .error exn) =>
    ({ s' with
      items := s'.items.filter fun kv => kv.1 ≠ item.id
      index := s'.index.filter fun kv => kv.1 ≠ item.key }, .error exn)

def enqueue (c : EnqueueCall) (saving : Saving) (s : PrivateOutbox) :
    PrivateOutbox × Except String OutboxItem :=
  if lowered rt c.lane = "" ∨ strip c.releaseKey = "" then
    (s, .error "lane and release_key are required")
  else
    match s.index.lookup ⟨lowered rt c.lane, strip c.releaseKey⟩ with
    | some existingId => requeue rt c saving existingId s
    | none => addItem (c.item rt) saving s

/-- The order of the worker: by lane, and by age within a lane. -/
def before (a b : OutboxItem) : Prop := a.lane < b.lane ∨ a.lane = b.lane ∧ a.createdAt ≤ b.createdAt

instance : DecidableRel before := fun a b =>
  inferInstanceAs (Decidable (a.lane < b.lane ∨ a.lane = b.lane ∧ a.createdAt ≤ b.createdAt))

def pendingItems (s : PrivateOutbox) : List OutboxItem :=
  (s.items.values.filter fun item => item.releaseState ≠ .delivered).insertionSort before

/-- Change an item, if it is there. -/
def markItem (itemId : String) (change : OutboxItem → OutboxItem) (saving : Saving)
    (s : PrivateOutbox) : PrivateOutbox × Except String (Option OutboxItem) :=
  match s.items.lookup (strip itemId) with
  | none => (s, .ok none)
  | some item =>
    match s.replaceItem itemId item (change item) saving with
    | (s', .ok ()) => (s', .ok (some (change item)))
    | (s', .error exn) => (s', .error exn)

def markReleasing (itemId currentTier : String) (now : ℚ) (saving : Saving) (s : PrivateOutbox) :
    PrivateOutbox × Except String (Option OutboxItem) :=
  s.markItem itemId (fun item => { item with
    releaseState := .releasing
    currentTier
    status := privateDeliveryStatus "publishing_private" "private_release_in_progress"
      "The sealed message is being published on the private lane."
    attempts := item.attempts + 1
    updatedAt := now }) saving

/-- Why an item stays queued. -/
structure Hold where
  statusCode : String
  reasonCode : String
  plainReason : String
  error : String

def markQueued (itemId currentTier : String) (hold : Hold) (now : ℚ) (saving : Saving)
    (s : PrivateOutbox) : PrivateOutbox × Except String (Option OutboxItem) :=
  s.markItem itemId (fun item => { item with
    releaseState := .queued
    currentTier
    status := privateDeliveryStatus hold.statusCode hold.reasonCode hold.plainReason
    lastError := hold.error
    updatedAt := now }) saving

def markDelivered (itemId currentTier : String) (result : Dict) (now : ℚ) (saving : Saving)
    (s : PrivateOutbox) : PrivateOutbox × Except String (Option OutboxItem) :=
  s.markItem itemId (fun item => { item with
    releaseState := .delivered
    currentTier
    status := privateDeliveryStatus "delivered_privately" "release_completed"
      "The message was delivered on the private lane."
    lastError := ""
    result
    releasedAt := now
    updatedAt := now }) saving

end PrivateOutbox

/-! ## The worker -/

open PrivateOutbox (Hold EnqueueCall)

/-- What the worker finds around it when it comes to an item. -/
structure Outlook where
  rnsEnabled : Bool := true
  hiddenTransportRequested : Bool := false
  hiddenTransportEnforced : Bool := false
  approvalPending : Bool := false
  runtimeReady : Bool := true
  runtimeState : String := ""

/-- Why a pass of `run_once` keeps an item back, if it does. -/
def holdFor (tier : String) (item : OutboxItem) (o : Outlook) : Option Hold :=
  let decision := evaluateNetworkRelease rt o.rnsEnabled item.lane tier
  if !decision.allowed then
    some ⟨decision.statusCode, decision.reasonCode, decision.plainReason, item.lastError⟩
  else if item.lane = "dm" ∧ o.hiddenTransportRequested ∧ !o.hiddenTransportEnforced then
    some ⟨"preparing_private_lane", "anonymous_mode_waiting_for_hidden_transport",
      "The sealed message is waiting for an anonymous route.", ""⟩
  else if item.lane = "dm" ∧ o.approvalPending then
    some ⟨"queued_private_delivery", "dm_release_retry_pending_private_lane",
      "The sealed message remains queued while the app keeps trying more private routing.",
      item.lastError⟩
  else if !o.runtimeReady then
    some ⟨"queued_private_delivery", "privacy_core_attestation_not_current",
      "The sealed message is waiting for secure runtime attestation before private release.",
      if o.runtimeState ≠ "" then o.runtimeState else "privacy_core_attestation_not_current"⟩
  else none

/-- Why an item waits for another attempt. -/
def retryFor (refreshedTier : String) (item : OutboxItem) (rnsEnabled : Bool) (result : Dict) :
    Hold :=
  let retry := evaluateNetworkRelease rt rnsEnabled item.lane refreshedTier
  let detail := Dict.text rt result "detail"
  { statusCode := if !retry.allowed then retry.statusCode else "queued_private_delivery"
    reasonCode := if !retry.allowed then retry.reasonCode else item.lane ++ "_release_retry"
    plainReason := if !retry.allowed then retry.plainReason
      else "The sealed message remains queued for another private delivery attempt."
    error := if detail ≠ "" then detail else "private release failed" }

/-- Where a pass is with the item that it took last. -/
inductive Phase where
  | between
  | releasing (item : OutboxItem)
  | attempting (item : OutboxItem)

/-- A pass of `run_once` under way: its tier, the rest of its copy, and where it is. -/
structure Pass where
  tier : String
  rest : List OutboxItem
  phase : Phase := .between

/-- The outbox, with the passes that run over it by their threads. -/
structure World where
  outbox : PrivateOutbox := {}
  passes : OrderedMap Nat Pass := []

inductive OutboxAction where
  | enqueue (c : EnqueueCall) (saving : Saving)
  | start (thread : Nat) (tier : String)
  | visit (thread : Nat) (o : Outlook) (now : ℚ) (saving : Saving)
  | attempt (thread : Nat)
  /-- `attempt_private_release` has returned, or has raised. -/
  | settle (thread : Nat) (result : Except String Dict) (refreshedTier : String)
      (rnsEnabled : Bool) (now : ℚ) (saving : Saving)
  /-- The pass is through, or an exception ends it. -/
  | leave (thread : Nat)
  | restart (now : ℚ)

/-- The result of an attempt, where an exception counts as a failure. -/
def attemptResult : Except String Dict → Dict
  | .ok result => result
  | .error exn => [("ok", .bool false), ("detail", .str exn)]

namespace World

/-- Where a pass goes from a change of its item: on, or out with the exception. -/
def advance (thread : Nat) (next : Pass) (w : World) :
    PrivateOutbox × Except String (Option OutboxItem) → World
  | (outbox, .ok _) => { outbox, passes := w.passes.insert thread next }
  | (outbox, .error _) => { outbox, passes := w.passes.filter fun kv => kv.1 ≠ thread }

def visit (thread : Nat) (o : Outlook) (now : ℚ) (saving : Saving) (w : World) : World :=
  match w.passes.lookup thread with
  | some { tier, rest := item :: rest, phase := .between } =>
    match holdFor rt tier item o with
    | some hold =>
      w.advance thread { tier, rest } (w.outbox.markQueued item.id tier hold now saving)
    | none =>
      w.advance thread { tier, rest, phase := .releasing item }
        (w.outbox.markReleasing item.id tier now saving)
  | _ => w

def settle (thread : Nat) (result : Dict) (refreshedTier : String) (rnsEnabled : Bool) (now : ℚ)
    (saving : Saving) (w : World) : World :=
  match w.passes.lookup thread with
  | some { tier, rest, phase := .attempting item } =>
    if (Dict.get result "ok").truthy then
      w.advance thread { tier, rest } (w.outbox.markDelivered item.id tier result now saving)
    else
      w.advance thread { tier, rest } (w.outbox.markQueued item.id refreshedTier
        (retryFor rt refreshedTier item rnsEnabled result) now saving)
  | _ => w

end World

def outboxStep (w : World) : OutboxAction → World
  | .enqueue c saving => { w with outbox := (w.outbox.enqueue rt c saving).1 }
  | .start thread tier =>
    match w.passes.lookup thread with
    | some _ => w
    | none => { w with passes := w.passes.insert thread { tier, rest := w.outbox.pendingItems } }
  | .visit thread o now saving => w.visit rt thread o now saving
  | .attempt thread =>
    match w.passes.lookup thread with
    | some { tier, rest, phase := .releasing item } =>
      { w with passes := w.passes.insert thread { tier, rest, phase := .attempting item } }
    | _ => w
  | .settle thread result refreshedTier rnsEnabled now saving =>
    w.settle rt thread (attemptResult result) refreshedTier rnsEnabled now saving
  | .leave thread => { w with passes := w.passes.filter fun kv => kv.1 ≠ thread }
  | .restart now => { outbox := w.outbox.load rt now, passes := [] }

/-- The item whose payload an action hands to `attempt_private_release`. -/
def attempted (w : World) : OutboxAction → Option OutboxItem
  | .attempt thread =>
    match w.passes.lookup thread with
    | some { phase := .releasing item, .. } => some item
    | _ => none
  | _ => none

/-- The item for which `mark_delivered` returns in an action. -/
def deliveredBy (w : World) : OutboxAction → Option OutboxItem
  | .settle thread result _ _ now saving =>
    match w.passes.lookup thread with
    | some { tier, phase := .attempting item, .. } =>
      if (Dict.get (attemptResult result) "ok").truthy then
        match (w.outbox.markDelivered item.id tier (attemptResult result) now saving).2 with
        | .ok delivered => delivered
        | .error _ => none
      else none
    | _ => none
  | _ => none

end Model

end Vincent.Outbox
