-- SUMMARY: Linked identities: when the links are disjoint pairs.
import Vincent.General.Run
import Vincent.Mesh.VoteLedger

/-!
# Linked identities

A link is refused when its new id or its old id is linked already, and when its old id
is the source of a link. Nothing asks whether its new id is, so the links make chains,
of which the reputation follows one step.
-/

namespace Vincent.Mesh.LinkedPairs

open Vincent.Mesh.VoteLedger Vincent.Run

/-- The arguments of `link_identities`. -/
structure LinkCall where
  oldId : String
  newId : String

def linkStep (l : Ledger) (c : LinkCall) : Ledger := (linkIdentities c.oldId c.newId l).1

def Links (l : Ledger) (newId oldId : String) : Prop := l.aliases.lookup newId = some oldId

instance (l : Ledger) (newId oldId : String) : Decidable (Links l newId oldId) :=
  inferInstanceAs (Decidable (_ = _))

def IsSource (l : Ledger) (id : String) : Prop := ∃ newId, Links l newId id

/-- The scores of an id and of its predecessor, and of the wallets of the id. -/
def inheritedScore (env : VoteLedger.Env) (now : ℚ) (salts : List String) (l : Ledger) (newId oldId : String) :
    Score :=
  let scores := (recomputeScores env now l).scores
  (blindedVoterCandidates env salts newId).foldl (mergeWallet scores newId)
    (mergeScores ((scores newId).getD {}) ((scores oldId).getD {}))

/-- The links are disjoint pairs, so that one step reaches every predecessor. -/
structure DisjointPairs (env : VoteLedger.Env) (l : Ledger) : Prop where
  injective : ∀ a b old, Links l a old → Links l b old → a = b
  disjoint : ∀ a b c, Links l a b → ¬ Links l b c
  inherits : ∀ a b, Links l a b → (∀ p, Relation.TransGen (Links l) a p → p = b) ∧
    ∀ now salts, (getReputation env now salts a l).2 = inheritedScore env now salts l a b
  once : ∀ target a b a' b', Links l a b → Links l a' b' → target = a ∨ target = b →
    target = a' ∨ target = b' → a = a' ∧ b = b'

/-! ## The links -/

/-- What the links look like when the new ids were no sources. -/
structure Paired (l : Ledger) : Prop where
  named : ∀ a b, Links l a b → b ≠ ""
  injective : ∀ a b old, Links l a old → Links l b old → a = b
  disjoint : ∀ a b c, Links l a b → ¬ Links l b c

section

variable {env : VoteLedger.Env} {l : Ledger} {c : LinkCall}

theorem linkStep_cases (l : Ledger) (c : LinkCall) :
    linkStep l c = l ∨ c.oldId ≠ "" ∧ l.aliases.lookup c.newId = none ∧
      l.aliases.lookup c.oldId = none ∧ ¬ IsSource l c.oldId ∧ c.oldId ≠ c.newId ∧
      (linkStep l c).aliases = (c.newId, c.oldId) :: l.aliases := by
  unfold linkStep linkIdentities
  by_cases hempty : c.oldId = "" ∨ c.newId = ""
  · exact .inl (by rw [if_pos hempty])
  by_cases hsame : c.oldId = c.newId
  · exact .inl (by rw [if_neg hempty, if_pos hsame])
  rw [if_neg hempty, if_neg hsame]
  cases hnew : l.aliases.lookup c.newId with
  | some old => exact .inl rfl
  | none =>
    rw [if_neg (by simp)]
    cases hold : l.aliases.lookup c.oldId with
    | some old => exact .inl rfl
    | none =>
      dsimp only
      by_cases hsource : (l.aliases.any fun link => decide (link.2 = c.oldId)) = true
      · exact .inl (by rw [if_pos hsource])
      · rw [if_neg hsource]
        refine .inr ⟨fun h => hempty (.inl h), rfl, rfl, ?_, hsame, rfl⟩
        rintro ⟨newId, hlink⟩
        refine hsource (List.any_eq_true.mpr ⟨(newId, c.oldId), ?_, by simp⟩)
        obtain ⟨before, after, heq, -⟩ := List.lookup_eq_some_iff.mp hlink
        rw [heq]
        simp

theorem links_cons (heq : (linkStep l c).aliases = (c.newId, c.oldId) :: l.aliases)
    (hab : Links (linkStep l c) a b) : a = c.newId ∧ b = c.oldId ∨ Links l a b := by
  unfold Links at hab
  rw [heq, List.lookup_cons] at hab
  cases hkey : a == c.newId with
  | true =>
    rw [hkey] at hab
    exact .inl ⟨eq_of_beq hkey, (Option.some.inj hab).symm⟩
  | false =>
    rw [hkey] at hab
    exact .inr hab

theorem Paired.linkStep (h : Paired l) (hc : ¬ IsSource l c.newId) : Paired (linkStep l c) := by
  rcases linkStep_cases l c with heq | ⟨hname, hnew, hold, hsource, hne, heq⟩
  · rw [heq]
    exact h
  have hlinks := fun a b => links_cons (a := a) (b := b) heq
  refine ⟨fun a b hab => ?_, fun a b old ha hb => ?_, fun a b d hab hbd => ?_⟩
  · rcases hlinks a b hab with ⟨-, rfl⟩ | hab
    · exact hname
    · exact h.named a b hab
  · rcases hlinks a old ha with ⟨rfl, rfl⟩ | ha
    · rcases hlinks b _ hb with ⟨rfl, -⟩ | hb
      · rfl
      · exact absurd ⟨b, hb⟩ hsource
    · rcases hlinks b old hb with ⟨rfl, rfl⟩ | hb
      · exact absurd ⟨a, ha⟩ hsource
      · exact h.injective a b old ha hb
  · rcases hlinks a b hab with ⟨rfl, rfl⟩ | hab
    · rcases hlinks _ d hbd with ⟨hsame, -⟩ | hbd
      · exact hne hsame
      · cases hold.symm.trans hbd
    · rcases hlinks b d hbd with ⟨rfl, -⟩ | hbd
      · exact hc ⟨a, hab⟩
      · exact h.disjoint a b d hab hbd

/-- A second step of a chain would be of an id that is both a key and a value. -/
theorem Paired.predecessor (h : Paired l) {a b p : String} (hab : Links l a b)
    (hp : Relation.TransGen (Links l) a p) : p = b := by
  obtain ⟨b', hb', hrest⟩ := Relation.TransGen.head'_iff.mp hp
  obtain rfl : b' = b := Option.some.inj (hb'.symm.trans hab)
  rcases Relation.ReflTransGen.cases_head hrest with heq | ⟨d, hd, -⟩
  · exact heq.symm
  · exact absurd hd (h.disjoint a b' d hb')

theorem recomputeScores_aliases (now : ℚ) (l : Ledger) :
    (recomputeScores env now l).aliases = l.aliases := by
  unfold recomputeScores
  split <;> rfl

theorem getReputation_of_links (hname : oldId ≠ "") (h : Links l newId oldId) (now : ℚ)
    (salts : List String) :
    (getReputation env now salts newId l).2 = inheritedScore env now salts l newId oldId := by
  have halias : (recomputeScores env now l).aliasOf newId = some oldId := by
    unfold Ledger.aliasOf
    rw [recomputeScores_aliases, show l.aliases.lookup newId = some oldId from h]
    simp [hname]
  unfold getReputation inheritedScore
  dsimp only
  rw [halias]

theorem Paired.disjointPairs (h : Paired l) : DisjointPairs env l := by
  refine ⟨h.injective, h.disjoint, fun a b hab => ⟨fun p => h.predecessor hab,
    getReputation_of_links (h.named a b hab) hab⟩, ?_⟩
  rintro target a b a' b' hab hab' (rfl | rfl) (rfl | rfl)
  · exact ⟨rfl, Option.some.inj (hab.symm.trans hab')⟩
  · exact absurd hab (h.disjoint _ _ _ hab')
  · exact absurd hab' (h.disjoint _ _ _ hab)
  · exact ⟨h.injective _ _ _ hab hab', rfl⟩

/-- In a run whose new ids are no sources, the links are disjoint pairs in every state. -/
theorem linkIdentities_disjointPairs (env : VoteLedger.Env) {l : Ledger} (hl : l.aliases = [])
    {calls : List LinkCall} (hrun : Along linkStep (fun l c => ¬ IsSource l c.newId) l calls)
    {calls' : List LinkCall} (hcalls : calls' <+: calls) : DisjointPairs env (run linkStep l calls') := by
  obtain ⟨rest, rfl⟩ := hcalls
  have hnone : ∀ a b, ¬ Links l a b := by
    intro a b hab
    unfold Links at hab
    rw [hl] at hab
    cases hab
  have hstart : Paired l := ⟨fun a b h => absurd h (hnone a b), fun a _ old h => absurd h (hnone a old),
    fun a b _ h => absurd h (hnone a b)⟩
  exact (invariant (fun _ _ h hc => h.linkStep hc) hstart
    ((along_append l calls' rest).mp hrun).1).disjointPairs

/-- An identity that is linked, and then linked to another. -/
theorem not_linkIdentities_disjointPairs : ¬ ∀ (env : VoteLedger.Env) (calls : List LinkCall),
    DisjointPairs env (run linkStep {} calls) := by
  intro h
  have hpairs := h ⟨fun _ _ => "", id, id, fun _ => ""⟩ [⟨"a", "b"⟩, ⟨"c", "a"⟩]
  exact hpairs.disjoint "b" "a" "c" (by decide) (by decide)

theorem linkIdentities_disjointPairs_of_two : ∃ env : VoteLedger.Env,
    DisjointPairs env (run linkStep {} [⟨"a", "b"⟩, ⟨"c", "d"⟩]) := by
  refine ⟨⟨fun _ _ => "", id, id, fun _ => ""⟩, linkIdentities_disjointPairs _ rfl ?_ (List.prefix_refl _)⟩
  refine ⟨?_, ?_, trivial⟩
  · rintro ⟨a, ha⟩
    cases ha
  · rintro ⟨a, ha⟩
    have hlinked : (if a == "b" then some "a" else none) = some "d" := by
      rw [← show Links _ a "d" from ha]
      cases hkey : a == "b" <;> simp [linkStep, linkIdentities, List.lookup_cons, hkey]
    split at hlinked <;> simp at hlinked

/-! ## Chains of links -/

/-- No identity is taken over twice, and no chain of links comes back to where it began. -/
structure Chains (l : Ledger) : Prop where
  injective : ∀ a b old, Links l a old → Links l b old → a = b
  acyclic : ∀ a, ¬ Relation.TransGen (Links l) a a

/-- The old id of a new link has no link itself, so a path that goes on does not pass it. -/
theorem path_of_cons (heq : (linkStep l c).aliases = (c.newId, c.oldId) :: l.aliases)
    (hold : l.aliases.lookup c.oldId = none) (hne : c.oldId ≠ c.newId)
    (hpath : Relation.TransGen (Links (linkStep l c)) a b) (hon : Links (linkStep l c) b d) :
    Relation.TransGen (Links l) a b := by
  have hedge : ∀ {x y z}, Links (linkStep l c) x y → Links (linkStep l c) y z → Links l x y := by
    intro x y z hxy hyz
    rcases links_cons heq hxy with ⟨-, rfl⟩ | hxy
    · rcases links_cons heq hyz with ⟨hsame, -⟩ | hyz
      · exact absurd hsame hne
      · cases hold.symm.trans hyz
    · exact hxy
  induction hpath generalizing d with
  | single hab => exact .single (hedge hab hon)
  | tail _ hbc ih => exact (ih hbc).tail (hedge hbc hon)

theorem Chains.linkStep (h : Chains l) : Chains (linkStep l c) := by
  rcases linkStep_cases l c with heq | ⟨-, -, hold, hsource, hne, heq⟩
  · rw [heq]
    exact h
  refine ⟨fun a b old ha hb => ?_, fun a hcycle => ?_⟩
  · rcases links_cons heq ha with ⟨rfl, rfl⟩ | ha
    · rcases links_cons heq hb with ⟨rfl, -⟩ | hb
      · rfl
      · exact absurd ⟨b, hb⟩ hsource
    · rcases links_cons heq hb with ⟨rfl, rfl⟩ | hb
      · exact absurd ⟨a, ha⟩ hsource
      · exact h.injective a b old ha hb
  · obtain ⟨b, hab, -⟩ := Relation.TransGen.head'_iff.mp hcycle
    exact h.acyclic a (path_of_cons heq hold hne hcycle hab)

/-- Whatever is linked, the links are chains. -/
theorem linkIdentities_chains (l : Ledger) (calls : List LinkCall) :
    Chains (run linkStep { l with aliases := [] } calls) := by
  have hnone : ∀ a b, ¬ Links { l with aliases := [] } a b := fun _ _ hab => by cases hab
  refine invariant (P := fun _ _ => True) (fun _ _ h _ => h.linkStep)
    ⟨fun a _ old ha => absurd ha (hnone a old), fun a hcycle => ?_⟩
    (along_iff_split.mpr fun _ _ _ _ => trivial)
  obtain ⟨b, hab, -⟩ := Relation.TransGen.head'_iff.mp hcycle
  exact hnone a b hab

end

end Vincent.Mesh.LinkedPairs
