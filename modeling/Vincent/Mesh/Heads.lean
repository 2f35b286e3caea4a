-- SUMMARY: What the head hash of a chain pins: the ids of all events before it.
import Vincent.Mesh.Validate
import Vincent.Root.Ideal

/-!
# Head hashes

An event id is the hash of a text that starts with the id of the event before, so that
nodes with one head hold one chain, if both chains validate.
-/

namespace Vincent.Mesh

open Vincent.Python Vincent.LinkedChain

/-- Digests tell the texts apart, have no colon in them, and none is that of the genesis. -/
structure TellingDigests (env : Env) : Prop where
  injective : Function.Injective env.sha256
  colon : ∀ s, ':' ∉ (env.sha256 s).toList
  genesis : ∀ s, env.sha256 s ≠ genesisHash

section

variable {env : Env} {call call' : Call} {net net' : Infonet} {e e' : ChainEvent}

theorem takeWhile_colon {s r : String} (hs : ':' ∉ s.toList) :
    (s ++ ":" ++ r).toList.takeWhile (· ≠ ':') = s.toList := by
  have hplain : ∀ c ∈ s.toList, decide (c ≠ ':') = true :=
    fun c hc => decide_eq_true fun heq => hs (heq ▸ hc)
  rw [String.toList_append, String.toList_append, List.append_assoc,
    List.takeWhile_append_of_pos hplain]
  simp

theorem eventId_eq (h : ChainEvent.hashMatches env call e = true) :
    ∃ rest, e.eventId = env.sha256 (e.prevHash ++ ":" ++ rest) := by
  rw [← beq_iff_eq.mp h]
  simp only [ChainEvent.init, ChainEvent.computeHash, String.append_assoc]
  exact ⟨_, rfl⟩

/-- An event id tells the id before it. -/
theorem prevHash_eq (henv : TellingDigests env) (he : ChainEvent.hashMatches env call e = true)
    (he' : ChainEvent.hashMatches env call' e' = true) (hprev : ':' ∉ e.prevHash.toList)
    (hprev' : ':' ∉ e'.prevHash.toList) (h : e.eventId = e'.eventId) : e.prevHash = e'.prevHash := by
  obtain ⟨rest, hid⟩ := eventId_eq he
  obtain ⟨rest', hid'⟩ := eventId_eq he'
  rw [hid, hid'] at h
  have hhead := congrArg (fun s : String => s.toList.takeWhile (· ≠ ':')) (henv.injective h)
  simp only [takeWhile_colon hprev, takeWhile_colon hprev'] at hhead
  exact String.toList_inj.mp hhead

/-- Events with right hashes that are linked from the genesis. -/
theorem validated_spec (henv : TellingDigests env) (hpasses : passes (net.validateChain env call))
    (hempty : net.events = [] → net.headHash = genesisHash) :
    Linked ChainEvent.eventId ChainEvent.prevHash genesisHash net.events ∧
      net.headHash = lastKey ChainEvent.eventId genesisHash net.events ∧
      ∀ e ∈ net.events, ChainEvent.hashMatches env call e = true ∧ e.eventId ≠ genesisHash ∧
        ':' ∉ e.prevHash.toList := by
  rcases validateChain_passes_iff.mp hpasses with hnil | ⟨hlinked, hhashes, hhead⟩
  · rw [hempty hnil, hnil]
    exact ⟨trivial, rfl, fun e he => absurd he List.not_mem_nil⟩
  · have hgenesis : ':' ∉ genesisHash.toList := by decide
    have hids : ∀ e ∈ net.events, ':' ∉ e.eventId.toList ∧ e.eventId ≠ genesisHash := by
      intro e he
      obtain ⟨rest, hid⟩ := eventId_eq (hhashes e he)
      exact hid ▸ ⟨henv.colon _, henv.genesis _⟩
    have hplain := hlinked.forall_pred (P := fun id => ':' ∉ id.toList) hgenesis fun e he => (hids e he).1
    exact ⟨hlinked, hhead.trans (lastEventId_eq _),
      fun e he => ⟨hhashes e he, (hids e he).2, hplain e he⟩⟩

/-- Two ledgers whose chains validate and that have one head hold the same events, by their ids. -/
theorem validated_chains_agree (henv : TellingDigests env)
    (hpasses : passes (net.validateChain env call)) (hpasses' : passes (net'.validateChain env call'))
    (hempty : net.events = [] → net.headHash = genesisHash)
    (hempty' : net'.events = [] → net'.headHash = genesisHash)
    (hhead : net.headHash = net'.headHash) :
    net.events.map ChainEvent.eventId = net'.events.map ChainEvent.eventId := by
  obtain ⟨hlinked, hlast, hall⟩ := validated_spec henv hpasses hempty
  obtain ⟨hlinked', hlast', hall'⟩ := validated_spec henv hpasses' hempty'
  refine hlinked.keys_eq hlinked' (fun e he e' he' => ?_) (fun e he => (hall e he).2.1)
    (fun e he => (hall' e he).2.1) (hlast.symm.trans (hhead.trans hlast'))
  exact prevHash_eq henv (hall e he).1 (hall' e' he').1 (hall e he).2.2 (hall' e' he').2.2

end

def idealEnv : Env := { plainEnv with sha256 := Root.idealHash, sha256_ne_empty := Root.idealHash_ne }

theorem idealEnv_digests : TellingDigests idealEnv where
  injective := Root.idealHash_injective
  colon s hs := by rcases Root.idealHash_letters s _ hs with h | h <;> cases h
  genesis s h := by
    have hzero : '0' ∈ (idealEnv.sha256 s).toList := h ▸ by decide
    rcases Root.idealHash_letters s _ hzero with h | h <;> cases h

/-- A ledger with one message. -/
def notedLedger (dirty : Bool) : Infonet :=
  let e := ChainEvent.init idealEnv (callAt 1) {
    eventId := "", prevHash := genesisHash, eventType := "message", nodeId := "n", payload := []
    timestamp := .int 1, sequence := .int 1, signature := "s", networkId := networkId
    publicKey := "k", publicKeyAlgo := "Ed25519", protocolVersion := protocolVersion }
  { Infonet.empty (callAt 1) with events := [e], headHash := e.eventId, dirty := dirty }

theorem notedLedger_passes (dirty : Bool) (call : Call) :
    passes ((notedLedger dirty).validateChain idealEnv call) := by
  refine validateChain_passes_iff.mpr (.inr ⟨⟨rfl, trivial⟩, fun e he => ?_, rfl⟩)
  rw [List.mem_singleton.mp he]
  exact ChainEvent.hashMatches_init _ _ _ _ rfl

/-- A node that has saved the chain, and one that has not. -/
theorem validated_chains_agree_noted :
    (notedLedger true).events.map ChainEvent.eventId = (notedLedger false).events.map ChainEvent.eventId :=
  validated_chains_agree idealEnv_digests (notedLedger_passes true (callAt 1))
    (notedLedger_passes false (callAt 1)) (fun h => by cases h) (fun h => by cases h) rfl

end Vincent.Mesh
