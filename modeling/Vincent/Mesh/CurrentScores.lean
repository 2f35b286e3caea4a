-- SUMMARY: When a reputation read is that of the votes at its time.
import Vincent.Mesh.VoteLedger
import Vincent.General.Run

/-!
# Current scores

A reputation is the sum of what the votes on a node, on the identity that it is linked
to, and on its blinded ids weigh at the time of the read. The ledger keeps the scores of
its last computation until a vote or a link changes; time alone changes nothing.
-/

namespace Vincent.Mesh.VoteLedger

open Vincent.Run

/-! ## Scores as sums -/

section Model

variable (env : Env) (now : ℚ) (salts : List String)

/-- The votes on a target that count. -/
def votesOn (votes : List Vote) (target : String) : List Vote :=
  votes.filter fun v => v.counts now ∧ v.targetId = target

/-- What the votes on a target weigh, before it is rounded. -/
def sumOf (votes : List Vote) : Score where
  overall := (votes.map (Vote.weighted now)).sum
  gates g := if g = "" ∨ ∀ v ∈ votes, v.gate ≠ g then none
    else some ((votes.filter fun v => v.gate = g).map (Vote.weighted now)).sum
  upvotes := votes.countP fun v => 0 < v.vote
  downvotes := votes.countP fun v => ¬ 0 < v.vote

/-- The score of a target, from the votes alone. -/
def scoreOf (votes : List Vote) (target : String) : Score :=
  if votesOn now votes target = [] then {} else (sumOf now (votesOn now votes target)).rounded env

/-- The node, the identity that it is linked to, and its blinded ids. -/
def sources (l : Ledger) (nodeId : String) : List String :=
  nodeId :: (l.aliasOf nodeId).toList ++
    (blindedVoterCandidates env salts nodeId).filter fun blinded => blinded ≠ nodeId

/-- The reputation of a node, from the votes alone. -/
def currentReputation (nodeId : String) (l : Ledger) : Score :=
  ((sources env salts l nodeId).map (scoreOf env now l.votes)).foldl mergeScores {}

/-- The scores are those that the votes had when they were last computed. -/
def Consistent (l : Ledger) : Prop :=
  l.dirty = false → l.scores = computeScores env l.computedAt l.votes

/-- The scores are out of date for a change, or all votes weigh what they did when they were last
    computed. -/
def Unaged (nodeId : String) (l : Ledger) : Prop :=
  l.dirty = true ∨ ∀ target ∈ sources env salts l nodeId,
    scoreOf env l.computedAt l.votes target = scoreOf env now l.votes target

end Model

section

variable {env : Env} {now : ℚ} {salts : List String} {votes : List Vote} {v : Vote}
  {target nodeId : String} {l : Ledger} {a b s : Score}

theorem Score.ext (hoverall : a.overall = b.overall) (hgates : a.gates = b.gates)
    (hup : a.upvotes = b.upvotes) (hdown : a.downvotes = b.downvotes) : a = b := by
  cases a
  cases b
  cases hoverall
  cases hgates
  cases hup
  cases hdown
  rfl

@[simp] theorem sumOf_nil : sumOf now [] = {} := by
  refine Score.ext rfl (funext fun g => ?_) rfl rfl
  simp [sumOf]

theorem sumOf_gates_concat {g : String} (hne : v.gate ≠ g) :
    (sumOf now (votes ++ [v])).gates g = (sumOf now votes).gates g := by
  have hmem : (∀ w ∈ votes ++ [v], w.gate ≠ g) ↔ ∀ w ∈ votes, w.gate ≠ g := by
    rw [List.forall_mem_append]
    simp [hne]
  have hfilter : ((votes ++ [v]).filter fun w => w.gate = g) =
      votes.filter fun w => w.gate = g := by
    rw [List.filter_append, List.filter_singleton]
    simp [hne]
  unfold sumOf
  dsimp only
  rw [hfilter]
  simp only [hmem]

theorem sumOf_concat (votes : List Vote) (v : Vote) :
    sumOf now (votes ++ [v]) = (sumOf now votes).add now v := by
  refine Score.ext ?_ (funext fun g => ?_) ?_ ?_
  · simp [sumOf, Score.add]
  · by_cases hempty : v.gate = ""
    · have hkept : ((sumOf now votes).add now v).gates g = (sumOf now votes).gates g := by
        unfold Score.add
        rw [if_pos hempty]
      rw [hkept]
      by_cases hg : g = ""
      · rw [hg]
        rfl
      · exact sumOf_gates_concat fun h => hg (h.symm.trans hempty)
    · rcases eq_or_ne g v.gate with rfl | hne
      · unfold sumOf Score.add
        dsimp only
        rw [if_neg hempty, Function.update_self, if_neg (by simp [hempty])]
        by_cases hnone : ∀ w ∈ votes, w.gate ≠ v.gate
        · have hfilter : (votes.filter fun w => w.gate = v.gate) = [] := by
            rw [List.filter_eq_nil_iff]
            exact fun w hw => by simpa using hnone w hw
          rw [if_pos (.inr hnone), List.filter_append, hfilter]
          simp
        · rw [if_neg (by simpa [hempty] using hnone), List.filter_append]
          simp
      · have hkept : ((sumOf now votes).add now v).gates g = (sumOf now votes).gates g := by
          unfold Score.add
          dsimp only
          rw [if_neg hempty, Function.update_of_ne hne]
        rw [hkept]
        exact sumOf_gates_concat hne.symm
  · unfold sumOf Score.add
    dsimp only
    rw [List.countP_append]
    split <;> simp_all
  · unfold sumOf Score.add
    dsimp only
    rw [List.countP_append]
    split <;> simp_all

/-- The loop collects the votes on each target that count. -/
theorem foldl_tally (votes : List Vote) (target : String) :
    votes.foldl (tally now) (fun _ => none) target =
      if votesOn now votes target = [] then none else some (sumOf now (votesOn now votes target)) := by
  induction votes using List.reverseRecOn with
  | nil => rfl
  | append_singleton votes v ih =>
    rw [List.foldl_append, List.foldl_cons, List.foldl_nil]
    generalize votes.foldl (tally now) (fun _ => none) = scores at ih ⊢
    unfold tally
    by_cases hcounts : v.counts now
    · rw [if_pos hcounts]
      rcases eq_or_ne target v.targetId with rfl | hne
      · have hon : votesOn now (votes ++ [v]) v.targetId = votesOn now votes v.targetId ++ [v] := by
          unfold votesOn
          rw [List.filter_append, List.filter_singleton]
          simp [hcounts]
        rw [Function.update_self, ih, hon, sumOf_concat, if_neg (List.append_ne_nil_of_right_ne_nil _
          (List.cons_ne_nil v []))]
        split
        · rename_i hnone
          rw [hnone, sumOf_nil]
          rfl
        · rfl
      · have hon : votesOn now (votes ++ [v]) target = votesOn now votes target := by
          unfold votesOn
          rw [List.filter_append, List.filter_singleton]
          simp [hne.symm]
        rw [Function.update_of_ne hne, ih, hon]
    · have hon : votesOn now (votes ++ [v]) target = votesOn now votes target := by
        unfold votesOn
        rw [List.filter_append, List.filter_singleton]
        simp [hcounts]
      rw [if_neg hcounts, ih, hon]

/-- What is cached for a target is its score. -/
theorem computeScores_getD (votes : List Vote) (target : String) :
    (computeScores env now votes target).getD {} = scoreOf env now votes target := by
  unfold computeScores scoreOf
  rw [foldl_tally]
  split <;> rfl

/-! ## Merging -/

theorem mergeScores_empty (a : Score) : mergeScores a {} = a := by
  refine Score.ext (add_zero _) (funext fun g => ?_) rfl rfl
  unfold mergeScores
  dsimp only
  cases a.gates g with
  | none => rfl
  | some x => exact congrArg some (add_zero x)

theorem empty_mergeScores (a : Score) : mergeScores {} a = a := by
  refine Score.ext (zero_add _) (funext fun g => ?_) (zero_add _) (zero_add _)
  unfold mergeScores
  dsimp only
  cases a.gates g with
  | none => rfl
  | some x => exact congrArg some (zero_add x)

theorem scoreOf_eq_empty (hup : (scoreOf env now votes target).upvotes = 0)
    (hdown : (scoreOf env now votes target).downvotes = 0) : scoreOf env now votes target = {} := by
  unfold scoreOf at hup hdown ⊢
  split
  · rfl
  · rename_i hne
    rw [if_neg hne] at hup hdown
    obtain ⟨v, hv⟩ := List.exists_mem_of_ne_nil _ hne
    have hnotup := List.countP_eq_zero.mp hup v hv
    have hnotdown := List.countP_eq_zero.mp hdown v hv
    simp_all

theorem mergeWallet_eq {scores : String → Option Score} {base : Score} {blinded : String}
    (hscore : (scores blinded).getD {} = scoreOf env now votes blinded) :
    mergeWallet scores nodeId base blinded =
      if blinded = nodeId then base else mergeScores base (scoreOf env now votes blinded) := by
  unfold mergeWallet
  dsimp only
  rw [hscore]
  split
  · rfl
  · split
    · rfl
    · rename_i hnone
      push Not at hnone
      rw [scoreOf_eq_empty hnone.2.1 hnone.2.2, mergeScores_empty]

theorem foldl_mergeWallet {scores : String → Option Score} (blinded : List String) (base : Score)
    (hscores : ∀ target ∈ blinded.filter (fun b => b ≠ nodeId),
      (scores target).getD {} = scoreOf env now votes target) :
    blinded.foldl (mergeWallet scores nodeId) base =
      ((blinded.filter fun b => b ≠ nodeId).map (scoreOf env now votes)).foldl mergeScores base := by
  induction blinded generalizing base with
  | nil => rfl
  | cons b blinded ih =>
    rw [List.foldl_cons, List.filter_cons]
    rw [List.filter_cons] at hscores
    rcases eq_or_ne b nodeId with rfl | hne
    · have hself : mergeWallet scores b base b = base := if_pos rfl
      rw [hself]
      simp only [ne_eq, not_true_eq_false, decide_false, Bool.false_eq_true, if_false] at hscores ⊢
      exact ih base hscores
    · simp only [ne_eq, hne, not_false_eq_true, decide_true, if_true, List.mem_cons] at hscores ⊢
      rw [List.map_cons, List.foldl_cons, mergeWallet_eq (hscores b (.inl rfl)), if_neg hne]
      exact ih _ fun target htarget => hscores target (.inr htarget)

/-- A read gives the sums of the scores that are cached for the node and its other ids. -/
theorem getReputation_eq
    (hscores : ∀ target ∈ sources env salts l nodeId,
      ((recomputeScores env now l).scores target).getD {} = scoreOf env now l.votes target) :
    (getReputation env now salts nodeId l).2 = currentReputation env now salts nodeId l := by
  have halias : (recomputeScores env now l).aliasOf nodeId = l.aliasOf nodeId := by
    unfold recomputeScores
    split <;> rfl
  unfold currentReputation sources at *
  unfold getReputation
  dsimp only
  rw [halias]
  have hnode := hscores nodeId (List.mem_append_left _ List.mem_cons_self)
  have hblinded : ∀ target ∈ (blindedVoterCandidates env salts nodeId).filter (fun b => b ≠ nodeId),
      ((recomputeScores env now l).scores target).getD {} = scoreOf env now l.votes target :=
    fun target htarget => hscores target (List.mem_append_right _ htarget)
  rw [foldl_mergeWallet _ _ hblinded, List.map_append, List.foldl_append, hnode]
  congr 1
  cases hold : l.aliasOf nodeId with
  | none => exact (empty_mergeScores _).symm
  | some old =>
    have hscore := hscores old (by simp [hold])
    rw [Option.toList_some, List.map_cons, List.map_cons, List.foldl_cons, List.foldl_cons,
      empty_mergeScores]
    dsimp only
    rw [hscore]
    rfl

/-! ## The cache -/

theorem recomputeScores_consistent (h : Consistent env l) :
    Consistent env (recomputeScores env now l) := by
  unfold recomputeScores
  split
  · exact fun _ => rfl
  · exact h

theorem voterRep_consistent (voterId : String) (h : Consistent env l) :
    Consistent env (voterRep env now salts voterId l).1 := by
  unfold voterRep
  split
  · exact recomputeScores_consistent h
  · exact h

theorem castVote_consistent (voterId targetId : String) (vote : Int) (gate : String)
    (h : Consistent env l) :
    Consistent env (castVote env now salts voterId targetId vote gate l).1 := by
  have hrep : Consistent env (voterRep env now salts voterId l).1 := voterRep_consistent voterId h
  unfold castVote
  dsimp only
  split
  · exact h
  · generalize voterRep env now salts voterId l = read at hrep
    split
    · exact hrep
    · split
      · exact hrep
      · exact fun hclean => by cases hclean

theorem linkIdentities_consistent (oldId newId : String) (h : Consistent env l) :
    Consistent env (linkIdentities oldId newId l).1 := by
  unfold linkIdentities
  split
  · exact h
  split
  · exact h
  split
  · exact h
  split
  · exact h
  split
  · exact h
  · exact fun hclean => by cases hclean

theorem cleanupExpired_consistent (h : Consistent env l) :
    Consistent env (cleanupExpired now l) := by
  unfold cleanupExpired
  dsimp only
  split
  · exact fun hclean => by cases hclean
  · rename_i hlength
    have hsame : (l.votes.filter fun v => now - decaySeconds ≤ v.timestamp) = l.votes :=
      List.filter_sublist.eq_of_length (not_not.mp hlength)
    rw [hsame]
    exact h

theorem voteStep_consistent (h : Consistent env l) (step : ℚ × List String × VoteAction) :
    Consistent env (voteStep env l step) := by
  obtain ⟨now, salts, action⟩ := step
  cases action with
  | castVote voterId targetId vote gate => exact castVote_consistent voterId targetId vote gate h
  | linkIdentities oldId newId => exact linkIdentities_consistent oldId newId h
  | cleanupExpired => exact cleanupExpired_consistent h
  | getReputation nodeId => exact recomputeScores_consistent h

theorem run_consistent (h : Consistent env l) (steps : List (ℚ × List String × VoteAction)) :
    Consistent env (run (voteStep env) l steps) := by
  induction steps generalizing l with
  | nil => exact h
  | cons step steps ih => exact ih (voteStep_consistent h step)

/-- A read gives the score of the votes where they weigh what they did. -/
theorem getReputation_current (h : Consistent env l) (hunaged : Unaged env now salts nodeId l) :
    (getReputation env now salts nodeId l).2 = currentReputation env now salts nodeId l := by
  apply getReputation_eq
  intro target htarget
  unfold recomputeScores
  cases hdirty : l.dirty with
  | true => exact computeScores_getD l.votes target
  | false =>
    rw [if_neg Bool.false_ne_true, h hdirty, computeScores_getD]
    exact hunaged.resolve_left (by simp [hdirty]) target htarget

end

/-! ## Reads -/

/-- A read is current if something was changed, or the rounded sums are still the same. -/
theorem reputation_current (env : Env) (l : Ledger) (hstart : Consistent env l)
    (steps : List (ℚ × List String × VoteAction)) (now : ℚ) (salts : List String) (nodeId : String)
    (hunaged : Unaged env now salts nodeId (run (voteStep env) l steps)) :
    (getReputation env now salts nodeId (run (voteStep env) l steps)).2 =
      currentReputation env now salts nodeId (run (voteStep env) l steps) :=
  getReputation_current (run_consistent hstart steps) hunaged

/-- After any run a read is the reputation that the votes make at one time, for all its parts: that
    of the read if something was changed, and else that of the last computation. -/
theorem reputation_at_one_time (env : Env) (steps : List (ℚ × List String × VoteAction)) (now : ℚ)
    (salts : List String) (nodeId : String) :
    let l := run (voteStep env) {} steps
    (getReputation env now salts nodeId l).2 =
      currentReputation env (if l.dirty then now else l.computedAt) salts nodeId l := by
  intro l
  have hl : Consistent env l := run_consistent (fun hclean => by cases hclean) steps
  cases hdirty : l.dirty with
  | true => exact getReputation_current hl (.inl hdirty)
  | false =>
    have hread : getReputation env now salts nodeId l =
        getReputation env l.computedAt salts nodeId l := by
      simp [getReputation, recomputeScores, hdirty]
    rw [hread]
    exact getReputation_current hl (.inr fun _ _ => rfl)

/-- An environment to run examples in. -/
def plainEnv : Env where
  hexdigest voterId salt := voterId ++ salt
  log10 _ := 0
  round1 q := q
  str _ := ""

theorem reputation_current_sample :
    (getReputation plainEnv 200 ["salt"] "ana" (run (voteStep plainEnv) {}
        [(100, ["salt"], .castVote "bob" "ana" 1 ""), (200, ["salt"], .getReputation "ana")])).2 =
      currentReputation plainEnv 200 ["salt"] "ana" (run (voteStep plainEnv) {}
        [(100, ["salt"], .castVote "bob" "ana" 1 ""), (200, ["salt"], .getReputation "ana")]) := by
  refine reputation_current plainEnv {} (fun hclean => by cases hclean) _ 200 ["salt"] "ana"
    (.inr fun target _ => ?_)
  rfl

/-- A read, a pause of two years, and a second read, which still counts the vote. -/
theorem not_reputation_current :
    ¬ ∀ (env : Env) (steps : List (ℚ × List String × VoteAction)) (now : ℚ) (salts : List String)
      (nodeId : String), (steps.map Prod.fst ++ [now]).Pairwise (· ≤ ·) →
      (getReputation env now salts nodeId (run (voteStep env) {} steps)).2 =
        currentReputation env now salts nodeId (run (voteStep env) {} steps) := by
  intro h
  have hread := h plainEnv
    [(0, ["salt"], .castVote "bob" "ana" 1 ""), (0, ["salt"], .getReputation "ana")]
    (721 * 86400) ["salt"] "ana" (by decide +kernel)
  have hupvotes := congrArg Score.upvotes hread
  revert hupvotes
  decide +kernel

end Vincent.Mesh.VoteLedger
