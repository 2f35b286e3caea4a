-- SUMMARY: When an acknowledged vote or key rotation is on the ledger.
import Vincent.Mesh.VoteLedger
import Vincent.Signed.OneMeaning
import Vincent.Signed.SequenceDomains
import Vincent.Signed.WriteGuard

/-!
# Acknowledged votes and rotations

`mesh_vote` and `mesh_identity_rotate` change the reputation ledger, and then append
an event with a payload that they build from the body. An exception of the append is
dropped, and the answer is as if it had been recorded.
-/

namespace Vincent.Signed

open Vincent.Python Vincent.Mesh Vincent.Check
open Vincent.Mesh.VoteLedger (Ledger castVote linkIdentities voterRep ofVoter minRepToVote)

/-! ## The handlers -/

structure HandlerEnv extends GuardEnv where
  votes : VoteLedger.Env
  /-- `round(_, 2)`. -/
  round2 : ℚ → ℚ

/-- The clock, the salts of blinded ids, and `_cached_root_node_id()`. -/
structure HandlerCall extends Call where
  salts : List String
  rootNodeId : String

structure Response where
  ok : Bool
  detail : String
  weight : Option ℚ := none

/-- How a handler ends. -/
inductive Decision where
  | raised (exn : String)
  | answered (response : Response)
  /-- The reputation ledger has taken the request. An event with the payload is appended before
      the answer. -/
  | accepted (response : Response) (payload : Dict)

/-- The guard with the ledger of events, and the reputation ledger. -/
structure Node where
  guard : GuardState
  reputation : Ledger

def Node.net (s : Node) : Infonet := s.guard.gate.ledger

def Node.setNet (s : Node) (net : Infonet) : Node :=
  { s with guard := { s.guard with gate := { s.guard.gate with ledger := net } } }

section Model

variable (env : HandlerEnv) (call : HandlerCall)

def refusal (detail : String) : Decision := .answered { ok := false, detail }

def isText : PyVal → Bool
  | .str _ => true
  | _ => false

def areTexts (body : Dict) (fields : List String) : Bool :=
  fields.all fun k => isText (Dict.get body k (.str ""))

def registerNode (now : ℚ) (nodeId : String) (l : Ledger) : Ledger :=
  if (l.nodes.lookup nodeId).isSome then l
  else { l with nodes := l.nodes ++ [(nodeId, { firstSeen := now })] }

/-- The voter that the reputation ledger knows. -/
def stableVoterId (voterId : String) : String :=
  if call.rootNodeId = "" then voterId else call.rootNodeId

/-- `vote`, where it is 1 or -1. -/
def voteValue (vote : PyVal) : Int := if vote.eq (.int 1) then 1 else -1

/-- `mesh_vote` up to the append. -/
def meshVote (p : PreparedSignedWrite) (l : Ledger) : Ledger × Decision :=
  let targetId := Dict.get p.body "target_id" (.str "")
  let vote := Dict.get p.body "vote" (.int 0)
  if ¬ ((Dict.get p.body "voter_id" (.str "")).truthy = true ∧ targetId.truthy = true) then
    (l, refusal "Missing voter_id or target_id")
  else if ¬ (vote.eq (.int 1) = true ∨ vote.eq (.int (-1)) = true) then
    (l, refusal "Vote must be 1 or -1")
  else
    match env.validateGateVoteContext p.nodeId (Dict.text env.rt p.body "gate") with
    | .error detail => (l, refusal detail)
    | .ok gate =>
      let l := registerNode call.now p.nodeId l
      match castVote env.votes call.now call.salts (stableVoterId call p.nodeId)
          (targetId.toStr env.rt) (voteValue vote) gate l with
      | (l, .error reason) => (l, .answered { ok := false, detail := reason, weight := some 0 })
      | (l, .ok (reason, weight)) =>
        (l, .accepted { ok := true, detail := reason, weight := some (env.round2 weight) }
          [("target_id", targetId), ("vote", vote), ("gate", .str gate)])

def verifyKeyRotationClaimSignature (body : Dict) (timestamp : Int) :
    Except String (Bool × String) := do
  let field (k : String) : String := trimmed env.toGuardEnv body k
  let text ← buildSignaturePayload env.rt "key_rotate" (field "old_node_id") 0
    [("old_node_id", .str (field "old_node_id")),
      ("old_public_key", .str (field "old_public_key")),
      ("old_public_key_algo", .str (field "old_public_key_algo")),
      ("new_public_key", .str (field "new_public_key")),
      ("new_public_key_algo", .str (field "new_public_key_algo")), ("timestamp", .int timestamp)]
  let algo := parsePublicKeyAlgo env.rt (field "old_public_key_algo")
  return if env.verifyNodeBinding (field "old_node_id") (field "old_public_key") = false then
      (false, "node_id does not match public key")
    else if algo = "" then (false, "Unsupported public_key_algo")
    else if env.verifySignature (field "old_public_key") algo (field "old_signature") text = false then
      (false, "Invalid old_signature")
    else (true, "ok")

def rotationFields : List String :=
  ["old_node_id", "old_public_key", "old_public_key_algo", "old_signature", "new_node_id",
    "new_public_key", "new_public_key_algo", "new_signature"]

def rotationPayload (body : Dict) (timestamp : Int) : Dict :=
  let field (k : String) : String × PyVal := (k, .str (trimmed env.toGuardEnv body k))
  [field "old_node_id", field "old_public_key", field "old_public_key_algo",
    field "new_public_key", field "new_public_key_algo", ("timestamp", .int timestamp),
    field "old_signature"]

/-- `_safe_int(body.get("timestamp", 0) or 0)`. -/
def bodyTimestamp (body : Dict) : Except String Int :=
  safeInt env.rt ((Dict.get body "timestamp" (.int 0)).or (.int 0)) 0

/-- `mesh_identity_rotate` up to the append. -/
def meshIdentityRotate (p : PreparedSignedWrite) (l : Ledger) : Ledger × Decision :=
  let field (k : String) : String := trimmed env.toGuardEnv p.body k
  if areTexts p.body ("protocol_version" :: rotationFields) = false then
    (l, .raised "AttributeError")
  else match bodyTimestamp env p.body with
    | .error exn => (l, .raised exn)
    | .ok timestamp =>
      if ¬ ((∀ k ∈ rotationFields, field k ≠ "") ∧ timestamp ≠ 0) then
        (l, refusal "Missing rotation fields")
      else if field "old_node_id" = field "new_node_id" then
        (l, refusal "old_node_id must differ from new_node_id")
      else if 7 * 86400 < |timestamp - ⌊call.now⌋| then
        (l, refusal "Rotation timestamp is too far from current time")
      else match verifyKeyRotationClaimSignature env p.body timestamp with
        | .error exn => (l, .raised exn)
        | .ok (false, reason) => (l, refusal reason)
        | .ok (true, _) =>
          let l := registerNode call.now (field "new_node_id") l
          match linkIdentities (field "old_node_id") (field "new_node_id") l with
          | (l, .error reason) => (l, refusal reason)
          | (l, .ok _) =>
            (l, .accepted { ok := true, detail := "Identity linked" }
              (rotationPayload env p.body timestamp))

/-- The handler of the request. -/
def decision (p : PreparedSignedWrite) (l : Ledger) : Ledger × Decision :=
  if p.kind = .meshVote then meshVote env call p l else meshIdentityRotate env call p l

/-- The fields that the handler hands on as the body has them. -/
def handedOn (p : PreparedSignedWrite) : List String :=
  if p.kind = .meshVote then ["voter_id", "voter_pubkey", "public_key_algo", "voter_sig"] else []

def appendRequest (p : PreparedSignedWrite) (payload : Dict) : AppendRequest where
  eventType := p.eventType
  nodeId := p.nodeId
  payload := payload
  signature := p.signature
  sequence := p.sequence
  ephemeral := false
  publicKey := p.publicKey
  publicKeyAlgo := p.publicKeyAlgo
  protocolVersion := p.protocolVersion
  timestampBucketS := 0

/-- The append with its `except Exception: pass`; what is no text is refused there. -/
def recordOnInfonet (p : PreparedSignedWrite) (payload : Dict) (net : Infonet) : Infonet :=
  match normalizePayload env.rt p.eventType payload with
  | .error _ => net
  | .ok normalized =>
    if areTexts p.body (handedOn p) = true then
      (net.append env.toEnv call.toCall (.append (appendRequest p normalized))).1
    else net

/-- The handler, with its answer or an exception. -/
def handle (p : PreparedSignedWrite) (s : Node) : Node × Except String Response :=
  match decision env call p s.reputation with
  | (l, .raised exn) => ({ s with reputation := l }, .error exn)
  | (l, .answered response) => ({ s with reputation := l }, .ok response)
  | (l, .accepted response payload) =>
    (({ s with reputation := l } : Node).setNet (recordOnInfonet env call p payload s.net),
      .ok response)

/-! ## What is claimed of an answer -/

/-- The ledger has the event of the request, with its signature. -/
def Recorded (p : PreparedSignedWrite) (net net' : Infonet) : Prop :=
  ∃ e, net'.history = net.history ++ [e] ∧ e.eventType = p.eventType ∧ e.nodeId = p.nodeId ∧
    e.signature = p.signature

/-- An acknowledged request is on the ledger, and another one leaves the votes and the aliases. -/
def Acknowledged (p : PreparedSignedWrite) (s : Node) (result : Node × Except String Response) :
    Prop :=
  (∀ response, result.2 = .ok response → response.ok = true → Recorded p s.net result.1.net) ∧
    (result.1.net.history = s.net.history →
      result.1.reputation.votes = s.reputation.votes ∧
        result.1.reputation.aliases = s.reputation.aliases)

/-- The reputation ledger takes the vote. -/
structure VoteTaken (p : PreparedSignedWrite) (l : Ledger) (gate : String) : Prop where
  voter : (Dict.get p.body "voter_id" (.str "")).truthy = true
  target : (Dict.get p.body "target_id" (.str "")).truthy = true
  vote : (Dict.get p.body "vote" (.int 0)).eq (.int 1) = true ∨
    (Dict.get p.body "vote" (.int 0)).eq (.int (-1)) = true
  admitted : env.validateGateVoteContext p.nodeId (Dict.text env.rt p.body "gate") = .ok gate
  /-- The voter has the reputation to vote. -/
  reputation : ∀ rep, (voterRep env.votes call.now call.salts (stableVoterId call p.nodeId)
    (registerNode call.now p.nodeId l)).2 = some rep → minRepToVote ≤ rep
  /-- The vote is not the one that is already set. -/
  changes : ∀ v, l.votes.find? (ofVoter env.votes call.salts (stableVoterId call p.nodeId)
    ((Dict.get p.body "target_id" (.str "")).toStr env.rt) gate) = some v →
    v.vote ≠ voteValue (Dict.get p.body "vote" (.int 0))

/-- The reputation ledger takes the link. -/
structure RotationTaken (p : PreparedSignedWrite) (l : Ledger) (timestamp : Int) : Prop where
  texts : areTexts p.body ("protocol_version" :: rotationFields) = true
  stamped : bodyTimestamp env p.body = .ok timestamp
  fields : (∀ k ∈ rotationFields, trimmed env.toGuardEnv p.body k ≠ "") ∧ timestamp ≠ 0
  differ : trimmed env.toGuardEnv p.body "old_node_id" ≠ trimmed env.toGuardEnv p.body "new_node_id"
  recent : |timestamp - ⌊call.now⌋| ≤ 7 * 86400
  claim : ∃ reason, verifyKeyRotationClaimSignature env p.body timestamp = .ok (true, reason)
  newId : l.aliases.lookup (trimmed env.toGuardEnv p.body "new_node_id") = none
  oldId : l.aliases.lookup (trimmed env.toGuardEnv p.body "old_node_id") = none
  source : (l.aliases.any fun link => link.2 = trimmed env.toGuardEnv p.body "old_node_id") = false

/-- The payload that the handler builds, where the reputation ledger takes the request. -/
def Taken (p : PreparedSignedWrite) (l : Ledger) (payload : Dict) : Prop :=
  if p.kind = .meshVote then
    ∃ gate, VoteTaken env call p l gate ∧
      payload = [("target_id", Dict.get p.body "target_id" (.str "")),
        ("vote", Dict.get p.body "vote" (.int 0)), ("gate", .str gate)]
  else ∃ timestamp, RotationTaken env call p l timestamp ∧
    payload = rotationPayload env p.body timestamp

/-- There is room for the payload, the signature covers it, and the key is not revoked. -/
structure Recordable (p : PreparedSignedWrite) (net : Infonet) (payload : Dict) : Prop where
  texts : areTexts p.body (handedOn p) = true
  covered : ∃ normalized stored text, normalizePayload env.rt p.eventType payload = .ok normalized ∧
    appendPayload env.toEnv (appendRequest p normalized) = .ok stored ∧
    payloadBytes env.toEnv stored ≤ maxPayloadBytes ∧
    buildSignaturePayload env.rt p.eventType p.nodeId p.sequence stored = .ok text ∧
    env.verifySignature p.publicKey p.publicKeyAlgo p.signature text = true
  notRevoked : net.revoked call.now p.publicKey = false

end Model

section

variable {env : HandlerEnv} {call : HandlerCall} {p : PreparedSignedWrite} {l : Ledger}

/-! ## The reputation ledger -/

theorem registerNode_votes (now : ℚ) (nodeId : String) (l : Ledger) :
    (registerNode now nodeId l).votes = l.votes ∧
      (registerNode now nodeId l).aliases = l.aliases := by
  unfold registerNode
  split_ifs <;> exact ⟨rfl, rfl⟩

theorem voterRep_votes (venv : VoteLedger.Env) (now : ℚ) (salts : List String) (voterId : String)
    (l : Ledger) :
    (voterRep venv now salts voterId l).1.votes = l.votes ∧
      (voterRep venv now salts voterId l).1.aliases = l.aliases := by
  unfold voterRep
  split
  · dsimp only [VoteLedger.getReputation, VoteLedger.recomputeScores]
    split <;> exact ⟨rfl, rfl⟩
  · exact ⟨rfl, rfl⟩

/-- A vote is taken if the voter has the reputation and it is not set already; else no vote
changes. -/
theorem castVote_cases (venv : VoteLedger.Env) (now : ℚ) (salts : List String)
    (voterId targetId : String) {vote : Int} (gate : String) (hvote : vote = 1 ∨ vote = -1)
    (l : Ledger) :
    let taken := (∀ rep, (voterRep venv now salts voterId l).2 = some rep → minRepToVote ≤ rep) ∧
      ∀ v, l.votes.find? (ofVoter venv salts voterId targetId gate) = some v → v.vote ≠ vote
    (taken ∧ ∃ l' answer, castVote venv now salts voterId targetId vote gate l = (l', .ok answer)) ∨
      ¬ taken ∧ ∃ l' reason, castVote venv now salts voterId targetId vote gate l =
        (l', .error reason) ∧ l'.votes = l.votes ∧ l'.aliases = l.aliases := by
  intro taken
  obtain ⟨hvotes, haliases⟩ := voterRep_votes venv now salts voterId l
  have hvalid : ¬ (vote ≠ 1 ∧ vote ≠ -1) := by
    rcases hvote with rfl | rfl <;> decide
  unfold castVote
  rw [if_neg hvalid]
  dsimp only
  cases hrep : (voterRep venv now salts voterId l).2.filter fun rep => rep < minRepToVote with
  | some rep =>
    right
    obtain ⟨hread, hlow⟩ := Option.filter_eq_some_iff.mp hrep
    refine ⟨fun htaken => ?_, _, _, rfl, hvotes, haliases⟩
    exact absurd (of_decide_eq_true hlow) (not_lt.mpr (htaken.1 rep hread))
  | none =>
    have henough : ∀ rep, (voterRep venv now salts voterId l).2 = some rep → minRepToVote ≤ rep := by
      intro rep hread
      rw [hread] at hrep
      simpa using hrep
    dsimp only
    rw [hvotes]
    cases hfind : l.votes.find? (ofVoter venv salts voterId targetId gate) with
    | none =>
      left
      exact ⟨⟨henough, fun v hv => by cases hfind.symm.trans hv⟩, _, _, rfl⟩
    | some v =>
      by_cases hsame : v.vote = vote
      · right
        refine ⟨fun htaken => htaken.2 v hfind hsame, ?_⟩
        rw [if_pos (by simp [hsame])]
        exact ⟨_, _, rfl, hvotes, haliases⟩
      · left
        rw [if_neg (by simp [hsame])]
        refine ⟨⟨henough, fun w hw => ?_⟩, _, _, rfl⟩
        cases hfind.symm.trans hw
        exact hsame

/-- The answer is `False` or an exception, and votes and aliases stay. -/
def Decision.Declines (result : Ledger × Decision) (l : Ledger) : Prop :=
  ((∃ exn, result.2 = .raised exn) ∨ ∃ response, result.2 = .answered response ∧ response.ok = false) ∧
    result.1.votes = l.votes ∧ result.1.aliases = l.aliases

theorem Decision.declines_refusal (detail : String) : Declines (l, refusal detail) l :=
  ⟨.inr ⟨_, rfl, rfl⟩, rfl, rfl⟩

theorem voteValue_cases (vote : PyVal) : voteValue vote = 1 ∨ voteValue vote = -1 := by
  unfold voteValue
  split_ifs
  · exact .inl rfl
  · exact .inr rfl

theorem meshVote_cases (p : PreparedSignedWrite) (l : Ledger) :
    (∃ gate, VoteTaken env call p l gate ∧ ∃ l' response, response.ok = true ∧
      meshVote env call p l = (l', .accepted response
        [("target_id", Dict.get p.body "target_id" (.str "")),
          ("vote", Dict.get p.body "vote" (.int 0)), ("gate", .str gate)])) ∨
      (¬ ∃ gate, VoteTaken env call p l gate) ∧ Decision.Declines (meshVote env call p l) l := by
  unfold meshVote
  dsimp only
  by_cases hids : (Dict.get p.body "voter_id" (.str "")).truthy = true ∧
      (Dict.get p.body "target_id" (.str "")).truthy = true
  case neg =>
    rw [if_pos hids]
    exact .inr ⟨fun ⟨_, h⟩ => hids ⟨h.voter, h.target⟩, Decision.declines_refusal _⟩
  rw [if_neg (not_not.mpr hids)]
  by_cases hvote : (Dict.get p.body "vote" (.int 0)).eq (.int 1) = true ∨
      (Dict.get p.body "vote" (.int 0)).eq (.int (-1)) = true
  case neg =>
    rw [if_pos hvote]
    exact .inr ⟨fun ⟨_, h⟩ => hvote h.vote, Decision.declines_refusal _⟩
  rw [if_neg (not_not.mpr hvote)]
  cases hgate : env.validateGateVoteContext p.nodeId (Dict.text env.rt p.body "gate") with
  | error detail =>
    exact .inr ⟨fun ⟨_, h⟩ => (by cases hgate.symm.trans h.admitted), Decision.declines_refusal _⟩
  | ok gate =>
    obtain ⟨hvotes, haliases⟩ := registerNode_votes call.now p.nodeId l
    have hcases := castVote_cases env.votes call.now call.salts (stableVoterId call p.nodeId)
      ((Dict.get p.body "target_id" (.str "")).toStr env.rt) gate
      (voteValue_cases (Dict.get p.body "vote" (.int 0))) (registerNode call.now p.nodeId l)
    rw [hvotes] at hcases
    rcases hcases with ⟨⟨hrep, hnew⟩, l', ⟨reason, weight⟩, hcast⟩ | ⟨hnot, l', reason, hcast, hkept⟩
    · left
      refine ⟨gate, ⟨hids.1, hids.2, hvote, hgate, hrep, hnew⟩, l',
        { ok := true, detail := reason, weight := some (env.round2 weight) }, rfl, ?_⟩
      dsimp only
      rw [hcast]
    · right
      refine ⟨fun ⟨gate', h⟩ => hnot ?_, ?_⟩
      · have hsame : gate = gate' := Except.ok.inj (hgate.symm.trans h.admitted)
        subst hsame
        exact ⟨h.reputation, h.changes⟩
      · dsimp only
        rw [hcast]
        exact ⟨.inr ⟨_, rfl, rfl⟩, hkept.1, hkept.2.trans haliases⟩

/-- A link is taken when neither id is in a chain of links yet. -/
theorem linkIdentities_cases {oldId newId : String} (hold : oldId ≠ "") (hnew : newId ≠ "")
    (hne : oldId ≠ newId) (l : Ledger) :
    let taken := l.aliases.lookup newId = none ∧ l.aliases.lookup oldId = none ∧
      (l.aliases.any fun link => link.2 = oldId) = false
    (taken ∧ ∃ l' answer, linkIdentities oldId newId l = (l', .ok answer)) ∨
      ¬ taken ∧ ∃ reason, linkIdentities oldId newId l = (l, .error reason) := by
  intro taken
  unfold linkIdentities
  rw [if_neg (by simp [hold, hnew]), if_neg hne]
  cases hnewId : l.aliases.lookup newId with
  | some linked =>
    right
    exact ⟨fun h => (by cases hnewId.symm.trans h.1), _, rfl⟩
  | none =>
    rw [if_neg (by simp)]
    cases holdId : l.aliases.lookup oldId with
    | some linked => exact .inr ⟨fun h => (by cases holdId.symm.trans h.2.1), _, rfl⟩
    | none =>
      dsimp only
      cases hsource : l.aliases.any fun link => decide (link.2 = oldId) with
      | true => exact .inr ⟨fun h => (by cases hsource.symm.trans h.2.2), _, rfl⟩
      | false => exact .inl ⟨⟨hnewId, holdId, hsource⟩, _, _, rfl⟩

theorem meshIdentityRotate_cases (p : PreparedSignedWrite) (l : Ledger) :
    (∃ timestamp, RotationTaken env call p l timestamp ∧ ∃ l' response, response.ok = true ∧
      meshIdentityRotate env call p l = (l', .accepted response
        (rotationPayload env p.body timestamp))) ∨
      (¬ ∃ timestamp, RotationTaken env call p l timestamp) ∧
        Decision.Declines (meshIdentityRotate env call p l) l := by
  unfold meshIdentityRotate
  dsimp only
  cases htexts : areTexts p.body ("protocol_version" :: rotationFields) with
  | false =>
    exact .inr ⟨fun ⟨_, h⟩ => (by cases htexts.symm.trans h.texts), .inl ⟨_, rfl⟩, rfl, rfl⟩
  | true =>
  rw [if_neg (by decide)]
  cases hstamp : bodyTimestamp env p.body with
  | error exn =>
    exact .inr ⟨fun ⟨_, h⟩ => (by cases hstamp.symm.trans h.stamped), .inl ⟨_, rfl⟩, rfl, rfl⟩
  | ok timestamp =>
  have hsame : ∀ {t}, RotationTaken env call p l t → t = timestamp := fun h =>
    (Except.ok.inj (hstamp.symm.trans h.stamped)).symm
  dsimp only
  by_cases hfields : (∀ k ∈ rotationFields, trimmed env.toGuardEnv p.body k ≠ "") ∧ timestamp ≠ 0
  case neg =>
    rw [if_pos hfields]
    exact .inr ⟨fun ⟨t, h⟩ => hfields (hsame h ▸ h.fields), Decision.declines_refusal _⟩
  rw [if_neg (not_not.mpr hfields)]
  by_cases hdiffer : trimmed env.toGuardEnv p.body "old_node_id" =
      trimmed env.toGuardEnv p.body "new_node_id"
  · rw [if_pos hdiffer]
    exact .inr ⟨fun ⟨_, h⟩ => h.differ hdiffer, Decision.declines_refusal _⟩
  rw [if_neg hdiffer]
  by_cases hrecent : 7 * 86400 < |timestamp - ⌊call.now⌋|
  · rw [if_pos hrecent]
    exact .inr ⟨fun ⟨_, h⟩ => not_le.mpr hrecent (hsame h ▸ h.recent), Decision.declines_refusal _⟩
  rw [if_neg hrecent]
  cases hclaim : verifyKeyRotationClaimSignature env p.body timestamp with
  | error exn =>
    refine .inr ⟨fun ⟨t, h⟩ => ?_, .inl ⟨_, rfl⟩, rfl, rfl⟩
    obtain ⟨reason, hvalid⟩ := h.claim
    rw [hsame h] at hvalid
    cases hclaim.symm.trans hvalid
  | ok verdict =>
    obtain ⟨valid, reason⟩ := verdict
    cases valid with
    | false =>
      refine .inr ⟨fun ⟨t, h⟩ => ?_, Decision.declines_refusal _⟩
      obtain ⟨reason, hvalid⟩ := h.claim
      rw [hsame h] at hvalid
      cases hclaim.symm.trans hvalid
    | true =>
      obtain ⟨hvotes, haliases⟩ :=
        registerNode_votes call.now (trimmed env.toGuardEnv p.body "new_node_id") l
      have hcases := linkIdentities_cases (hfields.1 "old_node_id" (by decide))
        (hfields.1 "new_node_id" (by decide)) hdiffer
        (registerNode call.now (trimmed env.toGuardEnv p.body "new_node_id") l)
      rw [haliases] at hcases
      rcases hcases with ⟨⟨hnewId, holdId, hsource⟩, l', answer, hlink⟩ | ⟨hnot, reason, hlink⟩
      · left
        refine ⟨timestamp, ⟨htexts, hstamp, hfields, hdiffer, not_lt.mp hrecent, ⟨_, hclaim⟩,
          hnewId, holdId, hsource⟩, l', { ok := true, detail := "Identity linked" }, rfl, ?_⟩
        dsimp only
        rw [hlink]
      · right
        refine ⟨fun ⟨_, h⟩ => hnot ⟨h.newId, h.oldId, h.source⟩, ?_⟩
        dsimp only
        rw [hlink]
        exact ⟨.inr ⟨_, rfl, rfl⟩, hvotes, haliases⟩

/-- A request that is taken ends in a write to the ledger, and another leaves votes and aliases. -/
theorem decision_cases (p : PreparedSignedWrite) (l : Ledger) :
    (∃ payload, Taken env call p l payload ∧ ∃ l' response, response.ok = true ∧
      decision env call p l = (l', .accepted response payload)) ∨
      (¬ ∃ payload, Taken env call p l payload) ∧
        Decision.Declines (decision env call p l) l := by
  unfold decision Taken
  split_ifs
  · rcases meshVote_cases p l with ⟨gate, htaken, hends⟩ | ⟨hnot, hdeclines⟩
    · exact .inl ⟨_, ⟨gate, htaken, rfl⟩, hends⟩
    · exact .inr ⟨fun ⟨_, gate, h, _⟩ => hnot ⟨gate, h⟩, hdeclines⟩
  · rcases meshIdentityRotate_cases p l with ⟨timestamp, htaken, hends⟩ | ⟨hnot, hdeclines⟩
    · exact .inl ⟨_, ⟨timestamp, htaken, rfl⟩, hends⟩
    · exact .inr ⟨fun ⟨_, timestamp, h, _⟩ => hnot ⟨timestamp, h⟩, hdeclines⟩

/-! ## What the guard has checked -/

section Guard

variable {genv : GuardEnv} {now : ℚ} {p' : PreparedSignedWrite}

theorem applyTransportLockPolicy_keeps (h : applyTransportLockPolicy genv p = .ok p') :
    p' = { p with payload := p'.payload } := by
  unfold applyTransportLockPolicy at h
  dsimp only at h
  split_ifs at h <;> first | (cases h; rfl) | cases h

theorem applySignedContextPolicy_keeps {scopePath : String}
    (h : applySignedContextPolicy genv p scopePath = .ok p') :
    p' = { p with payload := p'.payload } := by
  have hresign : ∀ {q : PreparedSignedWrite} {detail : String},
      askToResign genv q scopePath detail = .ok p' → False := by
    intro q detail hasked
    unfold askToResign at hasked
    obtain ⟨context, -, hasked⟩ := bind_eq_ok.mp hasked
    obtain ⟨text, -, hasked⟩ := bind_eq_ok.mp hasked
    cases hasked
  unfold applySignedContextPolicy at h
  split at h
  · obtain ⟨⟨ok, reason⟩, -, h⟩ := bind_eq_ok.mp h
    dsimp only at h
    split_ifs at h
    · cases h
      rfl
    · exact (hresign h).elim
  · split_ifs at h
    · exact (hresign h).elim
    · cases h
      rfl

theorem applyPolicies_keeps {scopePath : String} (h : applyPolicies genv now scopePath p = .ok p') :
    p' = { p with payload := p'.payload } := by
  unfold applyPolicies at h
  obtain ⟨locked, hlocked, h⟩ := bind_eq_ok.mp h
  obtain ⟨contextual, hcontextual, h⟩ := bind_eq_ok.mp h
  obtain ⟨-, -, h⟩ := bind_eq_ok.mp h
  cases h
  rw [applySignedContextPolicy_keeps hcontextual, applyTransportLockPolicy_keeps hlocked]

/-- A sequence or a binding that the preflight refuses fails the preflight. -/
theorem preflight_refused {wenv : WriteEnv} {e : SignedEvent} {gate : WriteGate} {detail : String}
    (h : gate.precheck wenv.revocation now e = some (false, detail)) :
    (preflightSignedEventIntegrity wenv now e gate).2.1 = false := by
  unfold preflightSignedEventIntegrity
  simp only [Run.run, gateStep, WriteGate.look, h,
    WriteGate.finish, List.getElem?_eq_none (le_refl gate.calls.length)]
  simp

/-- A computation that stops with an answer stops with a rejection. -/
def Rejects {α : Type} (x : Except Stop α) : Prop :=
  ∀ answer, x = .error (.abort answer) → answer.rejected = true

namespace Rejects

variable {α β : Type}

theorem ok (a : α) : Rejects (.ok a : Except Stop α) := by
  intro answer h
  cases h

theorem bind {x : Except Stop α} {f : α → Except Stop β} (hx : Rejects x) (hf : ∀ a, Rejects (f a)) :
    Rejects (x >>= f) := by
  intro answer h
  rcases bind_eq_error.mp h with h | ⟨a, -, h⟩
  · exact hx answer h
  · exact hf a answer h

theorem orFail {ε : Type} {x : Except ε α} {f : ε → Stop}
    (h : ∀ e answer, f e = .abort answer → answer.rejected = true) : Rejects (Check.orFail x f) := by
  intro answer hstop
  cases x with
  | ok a => cases hstop
  | error e => exact h e answer (Except.error.inj hstop)

theorem orRaise {x : Except String α} : Rejects (Signed.orRaise x) :=
  .orFail fun _ _ h => by cases h

theorem require {c : Prop} [Decidable c] {a : Answer} (h : a.rejected = true) :
    Rejects (Check.require c (.abort a)) := by
  intro answer hstop
  unfold Check.require at hstop
  split_ifs at hstop
  cases hstop
  exact h

theorem preparedOf {kind : SignedWriteKind} {eventType nodeId : String} {body payload : Dict}
    {text : String → String} :
    Rejects (preparedOf genv kind eventType body nodeId text payload) :=
  .bind .orRaise fun _ => .ok _

theorem askToResign {scopePath detail : String} :
    Rejects (askToResign genv p scopePath detail : Except Stop α) := by
  refine .bind .orRaise fun _ => .bind .orRaise fun _ => ?_
  intro answer h
  cases h
  rfl

theorem applyPolicies {scopePath : String} : Rejects (applyPolicies genv now scopePath p) := by
  refine .bind ?_ fun locked => .bind ?_ fun contextual => .bind ?_ fun _ => .ok _
  · intro answer h
    unfold applyTransportLockPolicy at h
    dsimp only at h
    split_ifs at h <;> (cases h; rfl)
  · unfold applySignedContextPolicy
    split
    · refine .bind .orRaise fun ⟨ok, reason⟩ => ?_
      dsimp only
      split
      · exact .ok _
      · exact .askToResign
    · split
      · exact .askToResign
      · exact .ok _
  · unfold applyFreshnessPolicy
    split
    · exact .ok _
    · exact .bind .orRaise fun _ => .require rfl

end Rejects

/-- What a vote or a rotation is prepared as. -/
def Prepared.Shape (p : PreparedSignedWrite) : Prop :=
  p.kind = .meshVote ∧ p.eventType = "vote" ∨ p.kind = .identityRotate ∧ p.eventType = "key_rotate"

theorem preparedOf_fields {kind : SignedWriteKind} {eventType nodeId : String} {body payload : Dict}
    {text : String → String}
    (h : preparedOf genv kind eventType body nodeId text payload = .ok p) :
    p.kind = kind ∧ p.eventType = eventType := by
  unfold preparedOf at h
  obtain ⟨sequence, -, h⟩ := bind_eq_ok.mp h
  cases h
  exact ⟨rfl, rfl⟩

theorem prepareSignedWrite_facts {r : WriteRequest} {tokens : OrderedMap String SenderToken}
    (hkind : r.kind = .meshVote ∨ r.kind = .identityRotate) :
    Rejects (prepareSignedWrite genv now r tokens).2 ∧
      ∀ p, (prepareSignedWrite genv now r tokens).2 = .ok p → Prepared.Shape p := by
  unfold prepareSignedWrite
  cases hbody : requestBody r with
  | error stop =>
    refine ⟨fun answer h => ?_, fun p h => by cases h⟩
    unfold requestBody at hbody
    split at hbody <;> cases hbody <;> cases h <;> rfl
  | ok body =>
    have hsends : ¬ (r.kind = .dmSend ∧ trimmed genv body "sender_token" ≠ "") := by
      rintro ⟨h, -⟩
      rcases hkind with hkind | hkind <;> cases hkind.symm.trans h
    dsimp only
    rw [if_neg hsends]
    dsimp only
    unfold prepareOther
    rcases hkind with hkind | hkind
    · rw [hkind]
      dsimp only
      refine ⟨.bind (.orFail fun _ _ h => by cases h; rfl) fun _ => .bind .preparedOf fun _ => .ok _,
        fun p h => ?_⟩
      unfold prepareMeshVote at h
      obtain ⟨gate, -, h⟩ := bind_eq_ok.mp h
      obtain ⟨first, hfirst, h⟩ := bind_eq_ok.mp h
      have hfields := preparedOf_fields hfirst
      cases h
      exact .inl hfields
    · rw [hkind]
      dsimp only
      refine ⟨.bind .orRaise fun _ => .bind .preparedOf fun _ => .ok _, fun p h => ?_⟩
      unfold prepareIdentityRotate at h
      obtain ⟨timestamp, -, h⟩ := bind_eq_ok.mp h
      obtain ⟨first, hfirst, h⟩ := bind_eq_ok.mp h
      have hfields := preparedOf_fields hfirst
      cases h
      exact .inr hfields

/-- A write that the guard verifies: its signature, and the sequence and the binding of its key. -/
theorem verifyPrepared_passed {gate gate' : WriteGate} {q : PreparedSignedWrite}
    {reason replyTo : String} (hkind : p.kind ≠ .gateMessage)
    (h : verifyPrepared genv now p gate = .ok (gate', .passed q reason replyTo)) :
    q = p ∧ (∃ verified, verifySignedEvent genv.toWriteEnv p.event p.payload = .ok (true, verified)) ∧
      refusedSequence gate.ledger p.event = none := by
  unfold verifyPrepared at h
  rw [if_neg hkind] at h
  obtain ⟨⟨gate₁, ok, reason₁⟩, hverify, h⟩ := bind_eq_ok.mp h
  dsimp only at h
  have hanswer := congrArg Prod.snd (pure_eq_ok.mp h)
  dsimp only at hanswer
  have hpassed : ok = true ∧ q = p := by
    unfold answerOf at hanswer
    split_ifs at hanswer with hok
    cases hanswer
    exact ⟨hok, rfl⟩
  obtain ⟨rfl, rfl⟩ := hpassed
  unfold verifySignedWrite at hverify
  obtain ⟨⟨ok, given⟩, hevent, hverify⟩ := bind_eq_ok.mp hverify
  have hresult := pure_eq_ok.mp hverify
  obtain rfl := afterSignature_true hresult
  refine ⟨rfl, ⟨given, hevent⟩, ?_⟩
  obtain ⟨hversion, hsignature, hkey, halgo, -, -⟩ := fields_of_verified hevent
  cases hrefused : refusedSequence gate.ledger q.event with
  | none => rfl
  | some detail =>
    have hprecheck : gate.precheck genv.toWriteEnv.revocation now q.event = _ :=
      precheck_eq now gate hversion hsignature hkey halgo
    rw [hrefused] at hprecheck
    have hfalse := preflight_refused hprecheck
    rw [if_pos rfl] at hresult
    unfold afterSignature at hresult
    have htrue := congrArg (fun result => result.2.1) hresult
    dsimp only at htrue
    cases hfalse.symm.trans htrue

theorem passed_facts {r : WriteRequest} {s : GuardState} {reason replyTo : String}
    (hkind : r.kind = .meshVote ∨ r.kind = .identityRotate)
    (hpassed : (requiresSignedWrite genv now r s).2 = .ok (.passed p reason replyTo)) :
    Prepared.Shape p ∧
      (∃ verified, verifySignedEvent genv.toWriteEnv p.event p.payload = .ok (true, verified)) ∧
      refusedSequence s.gate.ledger p.event = none := by
  have hfacts : Rejects (prepareSignedWrite genv now r s.senderTokens).2 ∧ _ :=
    prepareSignedWrite_facts hkind
  obtain ⟨hrejects, hshape⟩ := hfacts
  unfold requiresSignedWrite at hpassed
  dsimp only at hpassed
  split at hpassed
  · cases hpassed
  · rename_i answer hstop
    cases hpassed
    cases hrejects.bind (fun _ => .applyPolicies) _ hstop
  · rename_i prepared hprepared
    obtain ⟨first, hfirst, hpolicies⟩ := bind_eq_ok.mp hprepared
    have hkept := applyPolicies_keeps hpolicies
    have hfirst := hshape first hfirst
    have hprepared : Prepared.Shape prepared := by
      rw [hkept]
      exact hfirst
    have hnot : prepared.kind ≠ .gateMessage := by
      rintro h
      rcases hprepared with ⟨h', -⟩ | ⟨h', -⟩ <;> cases h'.symm.trans h
    split at hpassed
    · cases hpassed
    · rename_i gate answer hverify
      cases hpassed
      obtain ⟨rfl, hfacts⟩ := verifyPrepared_passed hnot hverify
      exact ⟨hprepared, hfacts⟩

end Guard

/-! ## The append -/

section Append

variable {menv : Env} {mcall : Call} {net : Infonet} {req : AppendRequest}

/-- The checks of `append` that the guard and the handler have made before. -/
structure Guarded (menv : Env) (net : Infonet) (req : AppendRequest) : Prop where
  active : req.eventType ∈ menv.activeAppendEventTypes
  notGate : req.eventType ≠ "gate_message"
  notRevoke : req.eventType ≠ "key_revoke"
  sequence : checkAppendSequence net (.node req.nodeId) req.sequence = .ok ()
  bound : net.bindPublicKey req.publicKey req.nodeId =
    .ok (net.setBinding req.publicKey req.nodeId)
  version : protocolVersionOrDefault req.protocolVersion = Mesh.protocolVersion
  signature : req.signature ≠ ""
  key : req.publicKey ≠ ""
  algoText : req.publicKeyAlgo ≠ ""
  algo : parsePublicKeyAlgo menv.rt req.publicKeyAlgo ≠ ""
  binding : menv.verifyNodeBinding req.nodeId req.publicKey = true

theorem appendChecks_eq_ok (h : Guarded menv net req) {stored : Dict} :
    appendChecks menv net req = .ok stored ↔
      appendPayload menv req = .ok stored ∧ payloadBytes menv stored ≤ maxPayloadBytes := by
  unfold appendChecks checkAppendIdentity
  simp only [bind_eq_ok, require_eq_ok, pure_eq_ok, exists_const, h.active, h.sequence, h.version,
    h.signature, h.key, h.algoText, h.algo, h.binding, true_and, or_self, not_false_iff, ne_eq,
    and_true]
  constructor
  · rintro ⟨stored, hpayload, hsize, rfl⟩
    exact ⟨hpayload, hsize⟩
  · rintro ⟨hpayload, hsize⟩
    exact ⟨stored, hpayload, hsize, rfl⟩

theorem anySignatureVerifies_single {e : ChainEvent} {sequence : Int} {payload : Dict} :
    anySignatureVerifies menv e sequence [payload] = .ok true ↔
      ∃ text, buildSignaturePayload menv.rt e.eventType e.nodeId sequence payload = .ok text ∧
        menv.verifySignature e.publicKey e.publicKeyAlgo e.signature text = true := by
  unfold anySignatureVerifies
  rw [bind_eq_ok]
  refine exists_congr fun text => and_congr_right fun _ => ?_
  split_ifs with hverifies
  · exact ⟨fun _ => hverifies, fun _ => rfl⟩
  · exact ⟨fun h => (by cases h), fun h => absurd h hverifies⟩

theorem checkSignature_eq_ok {e : ChainEvent} {sequence : Int} {payload : Dict}
    (hgate : e.eventType ≠ "gate_message") :
    checkSignature menv e sequence payload = .ok () ↔
      ∃ text, buildSignaturePayload menv.rt e.eventType e.nodeId sequence payload = .ok text ∧
        menv.verifySignature e.publicKey e.publicKeyAlgo e.signature text = true := by
  rw [← anySignatureVerifies_single]
  unfold checkSignature signaturePayloads
  rw [if_neg hgate]
  simp only [bind_eq_ok, orFail_eq_ok, require_eq_ok, Except.ok.injEq]
  constructor
  · rintro ⟨_, rfl, verified, hverified, rfl⟩
    exact hverified
  · exact fun hverified => ⟨_, rfl, true, hverified, rfl⟩

theorem appendBoundChecks_eq_ok (h : Guarded menv net req) {stored : Dict} :
    appendBoundChecks menv mcall (net.setBinding req.publicKey req.nodeId) req stored = .ok () ↔
      (∃ text, buildSignaturePayload menv.rt req.eventType req.nodeId req.sequence stored = .ok text ∧
        menv.verifySignature req.publicKey req.publicKeyAlgo req.signature text = true) ∧
      net.revoked mcall.now req.publicKey = false := by
  have hsignature : checkSignature menv
      (appendEvent menv mcall (net.setBinding req.publicKey req.nodeId) req stored) req.sequence
        stored = .ok () ↔ _ :=
    checkSignature_eq_ok (show (appendEvent menv mcall _ req stored).eventType ≠ _ from h.notGate)
  have hrevoked : (net.setBinding req.publicKey req.nodeId).revoked mcall.now req.publicKey =
      net.revoked mcall.now req.publicKey := rfl
  unfold appendBoundChecks
  simp only [bind_eq_ok, exists_const, hsignature, hrevoked, require_eq_ok, onlyIf_eq_ok,
    h.notRevoke, ne_eq, not_false_iff, and_true, false_imp_iff, Bool.not_eq_true]
  exact Iff.rfl

/-- A prepared append is recorded iff its payload is taken, signed and of a key that is not
revoked. -/
theorem append_cases (h : Guarded menv net req) :
    let taken := ∃ stored text, appendPayload menv req = .ok stored ∧
      payloadBytes menv stored ≤ maxPayloadBytes ∧
      buildSignaturePayload menv.rt req.eventType req.nodeId req.sequence stored = .ok text ∧
      menv.verifySignature req.publicKey req.publicKeyAlgo req.signature text = true ∧
      net.revoked mcall.now req.publicKey = false
    (taken ∧ ∃ e, (net.append menv mcall (.append req)).1.history = net.history ++ [e] ∧
      e.eventType = req.eventType ∧ e.nodeId = req.nodeId ∧ e.signature = req.signature) ∨
      ¬ taken ∧ (net.append menv mcall (.append req)).1.history = net.history := by
  intro taken
  unfold Infonet.append AppendCall.prepare
  cases hchecks : (AppendCall.append req).checks menv mcall net with
  | error fault =>
    right
    refine ⟨?_, rfl⟩
    rintro ⟨stored, text, hpayload, hsize, -⟩
    cases hchecks.symm.trans ((appendChecks_eq_ok h).mpr ⟨hpayload, hsize⟩)
  | ok stored =>
    obtain ⟨hpayload, hsize⟩ := (appendChecks_eq_ok h).mp hchecks
    have hbind : net.bindPublicKey (AppendCall.append req).publicKey (AppendCall.append req).nodeId =
        .ok (net.setBinding req.publicKey req.nodeId) := h.bound
    dsimp only
    rw [hbind]
    dsimp only
    cases hbound : (AppendCall.append req).boundChecks menv mcall
        (net.setBinding req.publicKey req.nodeId) stored with
    | error fault =>
      right
      refine ⟨?_, rfl⟩
      rintro ⟨stored', text, hpayload', -, htext, hverifies, hrevoked⟩
      have hsame : stored = stored' := Except.ok.inj (hpayload.symm.trans hpayload')
      subst hsame
      cases hbound.symm.trans ((appendBoundChecks_eq_ok h).mpr ⟨⟨text, htext, hverifies⟩, hrevoked⟩)
    | ok _ =>
      left
      obtain ⟨⟨text, htext, hverifies⟩, hrevoked⟩ := (appendBoundChecks_eq_ok h).mp hbound
      refine ⟨⟨stored, text, hpayload, hsize, htext, hverifies, hrevoked⟩,
        appendEvent menv mcall (net.setBinding req.publicKey req.nodeId) req stored, ?_, rfl, rfl, rfl⟩
      have hevent : (appendEvent menv mcall (net.setBinding req.publicKey req.nodeId) req
          stored).eventType ≠ "key_revoke" := h.notRevoke
      dsimp only [AppendCall.prepared]
      unfold Infonet.commitAppend Infonet.applyIfRevocation
      dsimp only
      rw [if_neg hevent]
      dsimp only
      rw [Infonet.history_save]
      simp [Infonet.history, Infonet.invalidateMerkleCache, Infonet.recordEvent,
        Infonet.setSequence, Infonet.setBinding]

end Append

/-- The write of the event is recorded, or leaves the events as they are. -/
theorem recordOnInfonet_cases {net : Infonet}
    (h : ∀ normalized, Guarded env.toEnv net (appendRequest p normalized)) (payload : Dict) :
    (Recordable env call p net payload ∧ Recorded p net (recordOnInfonet env call p payload net)) ∨
      ¬ Recordable env call p net payload ∧
        (recordOnInfonet env call p payload net).history = net.history := by
  unfold recordOnInfonet
  cases hnormal : normalizePayload env.rt p.eventType payload with
  | error exn =>
    refine .inr ⟨fun hrec => ?_, rfl⟩
    obtain ⟨normalized, stored, text, hsame, -⟩ := hrec.covered
    cases hnormal.symm.trans hsame
  | ok normalized =>
    dsimp only
    split_ifs with htexts
    · rcases @append_cases env.toEnv call.toCall _ _ (h normalized) with
        ⟨⟨stored, text, htaken⟩, hrecorded⟩ | ⟨hnot, hkept⟩
      · obtain ⟨hpayload, hsize, htext, hverifies, hrevoked⟩ := htaken
        exact .inl ⟨⟨htexts, ⟨normalized, stored, text, hnormal, hpayload, hsize, htext,
          hverifies⟩, hrevoked⟩, hrecorded⟩
      · refine .inr ⟨fun hrec => hnot ?_, hkept⟩
        obtain ⟨normalized', stored, text, hsame, hpayload, hsize, htext, hverifies⟩ := hrec.covered
        have hnormalized : normalized = normalized' := Except.ok.inj (hnormal.symm.trans hsame)
        subst hnormalized
        exact ⟨stored, text, hpayload, hsize, htext, hverifies, hrec.notRevoked⟩
    · exact .inr ⟨fun hrec => htexts hrec.texts, rfl⟩

theorem fields_of_refusedFields {wenv : WriteEnv} {e : SignedEvent}
    (h : refusedFields wenv e = none) :
    e.protocolVersion = Mesh.protocolVersion ∧ parsePublicKeyAlgo wenv.rt e.publicKeyAlgo ≠ "" := by
  unfold refusedFields at h
  split_ifs at h with hmissing hversion _ _ _ halgo
  exact ⟨not_not.mp hversion, halgo⟩

/-- The guard leaves everything of the ledger but its table of revocations. -/
theorem sameLedger_facts {net net' : Infonet} (h : SameLedger net net') :
    net'.history = net.history ∧ net'.nodeSequences = net.nodeSequences ∧
      net'.publicKeyBindings = net.publicKeyBindings := by
  unfold SameLedger at h
  rw [← h]
  exact ⟨rfl, rfl, rfl⟩

theorem guarded_of_passed (hnoid : ∀ key, env.verifyNodeBinding "" key = false)
    {net net' : Infonet} (hsame : SameLedger net net') (hshape : Prepared.Shape p)
    {verified : String}
    (hverified : verifySignedEvent env.toWriteEnv p.event p.payload = .ok (true, verified))
    (hrefused : refusedSequence net p.event = none) (normalized : Dict) :
    Guarded env.toEnv net' (appendRequest p normalized) := by
  obtain ⟨-, hsignature, hkey, halgoText, -, hbinding⟩ := fields_of_verified hverified
  obtain ⟨hversion, halgo⟩ := fields_of_refusedFields (refusedFields_of_verified hverified)
  obtain ⟨-, hsequences, hbindings⟩ := sameLedger_facts hsame
  have hnode : p.event.nodeId ≠ "" := by
    intro hempty
    rw [hempty, hnoid] at hbinding
    cases hbinding
  obtain ⟨hpositive, hnew, hfree⟩ := refusedSequence_eq_none.mp hrefused
  have hfree' : ¬ BoundElsewhere net' p.event := by
    unfold BoundElsewhere
    rw [hbindings]
    exact hfree
  have hlast : net'.lastSequence (.node p.event.nodeId) < p.event.sequence := by
    change net'.nodeSequences p.event.nodeId < p.event.sequence
    rw [hsequences]
    exact hnew
  obtain ⟨hsequence, bound, hbind⟩ := (ledgerTakes_iff hkey hnode).mpr ⟨hpositive, hlast, hfree'⟩
  have hbound := (Infonet.bindPublicKey_eq_ok.mp hbind).2.2.2
  subst hbound
  have htype : p.eventType ∈ env.activeAppendEventTypes ∧ p.eventType ≠ "gate_message" ∧
      p.eventType ≠ "key_revoke" := by
    have hactive : ∀ t ∈ activePublicLedgerEventTypes, t ∈ env.activeAppendEventTypes := by
      intro t ht
      unfold Env.activeAppendEventTypes
      split_ifs
      · exact List.mem_append_left _ ht
      · exact ht
    rcases hshape with ⟨-, h⟩ | ⟨-, h⟩ <;> rw [h] <;> exact ⟨hactive _ (by decide), by decide⟩
  have hdefault : protocolVersionOrDefault p.protocolVersion = Mesh.protocolVersion := by
    have hpversion : p.protocolVersion = Mesh.protocolVersion := hversion
    rw [hpversion]
    decide
  exact ⟨htype.1, htype.2.1, htype.2.2, hsequence, hbind, hdefault, hsignature, hkey, halgoText, halgo,
    hbinding⟩

theorem taken_unique {first second : Dict} (h : Taken env call p l first)
    (h' : Taken env call p l second) : first = second := by
  unfold Taken at h h'
  split_ifs at h h'
  · obtain ⟨gate, htaken, rfl⟩ := h
    obtain ⟨gate', htaken', rfl⟩ := h'
    rw [Except.ok.inj (htaken.admitted.symm.trans htaken'.admitted)]
  · obtain ⟨timestamp, htaken, rfl⟩ := h
    obtain ⟨timestamp', htaken', rfl⟩ := h'
    rw [Except.ok.inj (htaken.stamped.symm.trans htaken'.stamped)]

/-- What is acknowledged is on the ledger iff it takes what the handler builds, and the signature
covers it. -/
theorem request_acknowledged_iff (hnoid : ∀ key, env.verifyNodeBinding "" key = false) {r : WriteRequest}
    {s : Node} {reason replyTo : String} (hkind : r.kind = .meshVote ∨ r.kind = .identityRotate)
    (hpassed : (requiresSignedWrite env.toGuardEnv call.now r s.guard).2 =
      .ok (.passed p reason replyTo)) :
    let guarded : Node := { s with guard := (requiresSignedWrite env.toGuardEnv call.now r s.guard).1 }
    Acknowledged p s (handle env call p guarded) ↔
      ∀ payload, Taken env call p s.reputation payload →
        Recordable env call p guarded.net payload := by
  intro guarded
  obtain ⟨hshape, ⟨verified, hverified⟩, hrefused⟩ := passed_facts hkind hpassed
  have hsame : SameLedger s.net guarded.net := requiresSignedWrite_sameLedger
  have hhistory : guarded.net.history = s.net.history := (sameLedger_facts hsame).1
  have hguarded := guarded_of_passed hnoid hsame hshape hverified hrefused
  unfold Acknowledged handle
  have hreputation : guarded.reputation = s.reputation := rfl
  rw [hreputation]
  rcases decision_cases p s.reputation with
    ⟨payload, htaken, l', response, hok, hends⟩ | ⟨hnot, hdeclines⟩
  · rw [hends]
    dsimp only
    have hall : (∀ payload, Taken env call p s.reputation payload →
        Recordable env call p guarded.net payload) ↔ Recordable env call p guarded.net payload := by
      refine ⟨fun h => h payload htaken, fun h other hother => ?_⟩
      rw [taken_unique hother htaken]
      exact h
    rw [hall]
    rcases recordOnInfonet_cases hguarded payload with ⟨hrecordable, e, he, hfields⟩ | ⟨hnot, hkept⟩
    · refine ⟨fun _ => hrecordable, fun _ => ⟨fun _ _ _ => ⟨e, ?_, hfields⟩, fun hsame => ?_⟩⟩
      · exact he.trans (congrArg (· ++ [e]) hhistory)
      · have hgrown := he.symm.trans (hsame.trans hhistory.symm)
        exact absurd (congrArg List.length hgrown) (by simp)
    · refine ⟨fun hack => ?_, fun h => absurd h hnot⟩
      obtain ⟨e, he, -⟩ := hack.1 response rfl hok
      have hgrown := he.symm.trans (hkept.trans hhistory)
      exact absurd (congrArg List.length hgrown) (by simp)
  · obtain ⟨hends, hvotes, haliases⟩ := hdeclines
    refine iff_of_true ?_ fun payload htaken => absurd ⟨payload, htaken⟩ hnot
    generalize decision env call p s.reputation = result at hends hvotes haliases ⊢
    obtain ⟨l', ending⟩ := result
    rcases hends with ⟨exn, hraised⟩ | ⟨response, hanswered, hok⟩
    · obtain rfl : ending = _ := hraised
      exact ⟨fun _ h _ => (by cases h), fun _ => ⟨hvotes, haliases⟩⟩
    · obtain rfl : ending = _ := hanswered
      refine ⟨fun _ h htrue => ?_, fun _ => ⟨hvotes, haliases⟩⟩
      cases h
      cases hok.symm.trans htrue

end

/-! ## A vote and a rotation -/

/-- A node where the signature of a text says whether it is long. -/
def shortHandlerEnv : HandlerEnv where
  toEnv := { plainEnv with
    verifyNodeBinding := fun nodeId _ => nodeId != ""
    sha256 := fun _ => "h"
    sha256_ne_empty := fun _ => by decide
    verifySignature := fun _ _ signature text =>
      signature == if 200 < text.utf8ByteSize then "long" else "short" }
  revocationTtl := 0
  revocationEnforce := false
  legacyDmSignatureCompat := false
  legacyGateSignatureCompat := false
  transportLockRequired := true
  contextRequired := false
  maxAgeS := 0
  transportTier := "private_strong"
  rnsEnabled := true
  deriveNodeId key := .ok key
  validateGateVoteContext _ gate := .ok gate
  votes := { hexdigest := fun voterId salt => voterId ++ salt, log10 := fun x => x,
             round1 := fun x => x, str := fun _ => "" }
  round2 x := x

def tenthSecond : HandlerCall where
  toCall := callAt 10
  salts := []
  rootNodeId := ""

def emptyNode : Node where
  guard := { senderTokens := [], gate := { clock := 0, ledger := quietLedger } }
  reputation := {}

def votePayload : Dict := [("target_id", .str "bob"), ("vote", .int 1), ("gate", .str "")]

def voteMeaning : RequestMeaning where
  eventType := "vote"
  kind := "mesh_vote"
  endpoint := "/api/mesh/vote"
  laneFloor := "private_strong"
  sequenceDomain := "vote"
  nodeId := "ana"
  sequence := 1

/-- The signed context of the vote. -/
def voteContext : Dict :=
  match buildSignedContext shortHandlerEnv.toWriteEnv voteMeaning votePayload with
  | .ok context => context
  | .error _ => []

/-- A vote with a signature, and perhaps a signed context. -/
def upvote (signature : String) (context : Dict) : WriteRequest where
  kind := .meshVote
  scopePath := "/api/mesh/vote"
  body := some <| .dict (votePayload ++ [("voter_id", .str "ana"), ("voter_pubkey", .str "key"),
    ("public_key_algo", .str "Ed25519"), ("sequence", .int 1),
    ("protocol_version", .str protocolVersion),
    ("voter_sig", .str signature)] ++ context)

def plainVote : WriteRequest := upvote "short" []

/-- The vote with a signed context, which the signature covers. -/
def contextVote : WriteRequest :=
  upvote "long" [(signedContextField, .dict voteContext)]

/-- What the handler answers to a request that passes the guard, and how many events there are
    then. -/
def outcome (env : HandlerEnv) (call : HandlerCall) (r : WriteRequest) (s : Node) :
    Option (Bool × Nat) :=
  let (guard, answer) := requiresSignedWrite env.toGuardEnv call.now r s.guard
  match answer with
  | .ok (.passed p _ _) =>
    let (s, result) := handle env call p { s with guard }
    some (okAnd result Response.ok, s.net.history.length)
  | _ => none

theorem passed_of_outcome {env : HandlerEnv} {call : HandlerCall} {r : WriteRequest} {s : Node}
    {ok : Bool} {events : Nat} (h : outcome env call r s = some (ok, events)) :
    ∃ p reason replyTo, (requiresSignedWrite env.toGuardEnv call.now r s.guard).2 =
        .ok (.passed p reason replyTo) ∧
      let result := handle env call p
        { s with guard := (requiresSignedWrite env.toGuardEnv call.now r s.guard).1 }
      okAnd result.2 Response.ok = ok ∧ result.1.net.history.length = events := by
  unfold outcome at h
  dsimp only at h
  split at h
  · rename_i p reason replyTo hpassed
    cases h
    exact ⟨p, reason, replyTo, hpassed, rfl, rfl⟩
  · cases h

/-- The vote is on the ledger. -/
theorem request_acknowledged_iff_vote : ∃ p reason replyTo,
    (requiresSignedWrite shortHandlerEnv.toGuardEnv tenthSecond.now plainVote emptyNode.guard).2 =
      .ok (.passed p reason replyTo) ∧
    let guarded : Node := { emptyNode with
      guard := (requiresSignedWrite shortHandlerEnv.toGuardEnv tenthSecond.now plainVote
        emptyNode.guard).1 }
    (handle shortHandlerEnv tenthSecond p guarded).1.net.history.length = 1 ∧
      (Acknowledged p emptyNode (handle shortHandlerEnv tenthSecond p guarded) ↔
        ∀ payload, Taken shortHandlerEnv tenthSecond p emptyNode.reputation payload →
          Recordable shortHandlerEnv tenthSecond p guarded.net payload) := by
  have houtcome : outcome shortHandlerEnv tenthSecond plainVote emptyNode = some (true, 1) := by
    decide +kernel
  obtain ⟨p, reason, replyTo, hpassed, -, hevents⟩ := passed_of_outcome houtcome
  exact ⟨p, reason, replyTo, hpassed, hevents, request_acknowledged_iff (fun _ => rfl) (.inl rfl) hpassed⟩

/-- The handler leaves out the signed context: the answer is `True`, and the ledger has no event. -/
theorem not_request_acknowledged : ∃ p reason replyTo,
    (requiresSignedWrite shortHandlerEnv.toGuardEnv tenthSecond.now contextVote
      emptyNode.guard).2 = .ok (.passed p reason replyTo) ∧
    ¬ Acknowledged p emptyNode (handle shortHandlerEnv tenthSecond p { emptyNode with
      guard := (requiresSignedWrite shortHandlerEnv.toGuardEnv tenthSecond.now contextVote
        emptyNode.guard).1 }) := by
  have houtcome : outcome shortHandlerEnv tenthSecond contextVote emptyNode = some (true, 0) := by
    decide +kernel
  obtain ⟨p, reason, replyTo, hpassed, hok, hevents⟩ := passed_of_outcome houtcome
  refine ⟨p, reason, replyTo, hpassed, fun hack => ?_⟩
  obtain ⟨response, hanswer, htrue⟩ := okAnd_iff.mp hok
  obtain ⟨e, he, -⟩ := hack.1 response hanswer htrue
  rw [he] at hevents
  simp at hevents

end Vincent.Signed
