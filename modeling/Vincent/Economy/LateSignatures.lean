-- SUMMARY: What signatures that are appended to an open vote do.
import Vincent.Economy.Finality
import Vincent.Economy.VoteWeights

/-!
# Late signatures

A vote starts at the latest stamp of all signatures by signers who were seen, so a
signature that is appended while the vote is open starts it anew, and one that is
stamped no later than the start changes nothing.
-/

namespace Vincent.Economy

open Vincent.Python Vincent.Check Vincent.OrderStatistics

/-! ## Signatures -/

/-- An appended signature: it was stamped after the window, or its signer has signed before it. -/
structure Appended (rt : Runtime) (rule : SignatureRule) (signEvents : List Dict) (e : Dict)
    (signer : String) (ts : PyFloat) : Prop where
  node : Dict.get e "node_id" = .str signer
  allowed : ¬ (signer = "" ∧ !rule.emptySigner)
  stamped : Stamped rt e
  time : timestamp rt e = .ok ts
  late : rule.closes.lt ts = true ∨
    ∃ s ∈ signEvents, (∃ t, rule.signature? rt s = some (signer, t)) ∧ ¬ SortsAfter rt s e

section Collect

variable {rt : Runtime} {weights : Weights} {rule : SignatureRule} {events signEvents : List Dict}
  {e : Dict} {n : String} {ts : PyFloat} {signed signed' : Signatures} {cache : WeightCache}

theorem Appended.mono {more : List Dict} (h : Appended rt rule signEvents e n ts) :
    Appended rt rule (signEvents ++ more) e n ts where
  node := h.node
  allowed := h.allowed
  stamped := h.stamped
  time := h.time
  late := h.late.imp_right fun ⟨s, hs, hrest⟩ => ⟨s, List.mem_append_left more hs, hrest⟩

/-- The signers who are seen are those of the signatures that can count. -/
theorem mem_seen_iff (hstamped : ∀ event ∈ events, Stamped rt event)
    (h : events.foldlM (Signatures.visit rt weights rule) signed = .ok signed') (m : String) :
    m ∈ signed'.seen ↔ m ∈ signed.seen ∨ ∃ event ∈ events, ∃ t, rule.signature? rt event = some (m, t) := by
  induction events generalizing signed with
  | nil =>
    cases h
    simp
  | cons event events ih =>
    rw [List.foldlM_cons] at h
    obtain ⟨next, hnext, hfold⟩ := bind_eq_ok.mp h
    rw [ih (fun x hx => hstamped x (List.mem_cons_of_mem event hx)) hfold]
    rcases Signatures.visit_cases (hstamped event List.mem_cons_self) hnext with
      ⟨rfl, hnone | ⟨s, hs, hmem⟩⟩ | ⟨s, hs, -, hnew, -⟩
    · simp [hnone]
    · simp only [List.mem_cons, exists_eq_or_imp, hs, Option.some.injEq]
      constructor
      · exact Or.imp_right Or.inr
      · rintro (h | ⟨t, rfl⟩ | h)
        · exact Or.inl h
        · exact Or.inl hmem
        · exact Or.inr h
    · simp only [List.mem_cons, exists_eq_or_imp, hs, Option.some.injEq, hnew, List.mem_append,
        List.not_mem_nil, or_false]
      constructor
      · rintro ((h | rfl) | h)
        · exact Or.inl h
        · exact Or.inr (Or.inl ⟨s.2, rfl⟩)
        · exact Or.inr (Or.inr h)
      · rintro (h | ⟨t, rfl⟩ | h)
        · exact Or.inl (Or.inl h)
        · exact Or.inl (Or.inr rfl)
        · exact Or.inr h

theorem mem_seen (h : collectSignatures rt weights rule cache signEvents = .ok signed) (m : String) :
    m ∈ signed.seen ↔ ∃ event ∈ signEvents, ∃ t, rule.signature? rt event = some (m, t) := by
  obtain ⟨sorted, hsorted, h⟩ := bind_eq_ok.mp h
  rw [mem_seen_iff (stamped_of_sortEvents hsorted) h]
  simp only [List.not_mem_nil, false_or, (sortEvents_perm hsorted).mem_iff]

/-- A signature after the window leaves weight and cache. -/
theorem Signatures.visit_after (hlate : StampedAfter rt rule.closes e) (signed : Signatures) :
    ∃ next, signed.visit rt weights rule e = .ok next ∧ next.weight = signed.weight ∧
      next.cache = signed.cache := by
  obtain ⟨next, hnext, hweight⟩ := @Signatures.visit_late rt weights e rule hlate signed
  refine ⟨next, hnext, hweight, ?_⟩
  rcases Signatures.visit_cases hlate.stamped hnext with ⟨rfl, -⟩ | ⟨s, hs, -, -, hcache⟩
  · rfl
  · obtain ⟨t, ht, hlt⟩ := hlate.timestamp
    obtain ⟨-, htime, -⟩ := signature?_eq_some.mp hs
    cases ht.symm.trans htime
    rw [if_pos hlt] at hcache
    exact hcache

theorem foldlM_after (hlate : ∀ event ∈ events, StampedAfter rt rule.closes event) (signed : Signatures) :
    ∃ next, events.foldlM (Signatures.visit rt weights rule) signed = .ok next ∧
      next.weight = signed.weight ∧ next.cache = signed.cache := by
  induction events generalizing signed with
  | nil => exact ⟨signed, rfl, rfl, rfl⟩
  | cons event events ih =>
    obtain ⟨mid, hmid, hweight, hcache⟩ :=
      @Signatures.visit_after rt weights rule event (hlate event List.mem_cons_self) signed
    obtain ⟨next, hnext, hweight', hcache'⟩ := ih (fun x hx => hlate x (List.mem_cons_of_mem event hx)) mid
    refine ⟨next, ?_, hweight'.trans hweight, hcache'.trans hcache⟩
    rw [List.foldlM_cons, hmid]
    exact hnext

theorem collectSignatures_appended (hnumber : ∀ x ∈ e :: signEvents, NumberStamped rt x)
    (h : Appended rt rule signEvents e n ts)
    (hsigned : collectSignatures rt weights rule cache signEvents = .ok signed) :
    ∃ signed', collectSignatures rt weights rule cache (signEvents ++ [e]) = .ok signed' ∧
      signed'.weight = signed.weight ∧ signed'.cache = signed.cache := by
  obtain ⟨sorted, hsorted, hfold⟩ := bind_eq_ok.mp hsigned
  have hstamped := stamped_of_sortEvents hsorted
  have hperm := sortEvents_perm hsorted
  obtain ⟨pre, post, rfl, hsorted', -, hpost⟩ := sortEvents_concat hsorted h.stamped hnumber
  rw [List.foldlM_append] at hfold
  obtain ⟨mid, hpre, hrest⟩ := bind_eq_ok.mp hfold
  have hcollect : ∀ mid₁ signed', mid.visit rt weights rule e = .ok mid₁ →
      post.foldlM (Signatures.visit rt weights rule) mid₁ = .ok signed' →
        collectSignatures rt weights rule cache (signEvents ++ [e]) = .ok signed' := by
    intro mid₁ signed' hvisit hpostfold
    unfold collectSignatures
    rw [hsorted']
    simp only [bind, Except.bind]
    rw [List.foldlM_append, hpre]
    simp only [bind, Except.bind]
    rw [List.foldlM_cons, hvisit]
    exact hpostfold
  rcases Classical.em (n ∈ mid.seen) with hseen | hseen
  · have hvisit : mid.visit rt weights rule e = .ok mid := by
      unfold Signatures.visit
      rw [h.node]
      exact if_pos (Or.inr hseen)
    exact ⟨signed, hcollect mid signed hvisit hrest, rfl, rfl⟩
  · -- nobody who was not seen by now can have signed before, so the window is over
    have hlate : rule.closes.lt ts = true := by
      rcases h.late with hlate | ⟨s, hs, hcounts, hbefore⟩
      · exact hlate
      · rcases List.mem_append.mp (hperm.mem_iff.mpr hs) with hs | hs
        · refine absurd ((mem_seen_iff (fun x hx => ?_) hpre n).mpr (Or.inr ⟨s, hs, hcounts⟩)) hseen
          exact hstamped x (List.mem_append_left post hx)
        · exact absurd (hpost s hs) hbefore
    have hafter : StampedAfter rt rule.closes e := by
      obtain ⟨k, hk⟩ := h.stamped
      cases (keyed_eq_ok.mp hk).1.symm.trans h.time
      exact ⟨k, hk, hlate⟩
    have hpostAfter : ∀ x ∈ post, StampedAfter rt rule.closes x := fun x hx =>
      hafter.of_sortsAfter (hnumber x (List.mem_cons_of_mem e
        (hperm.mem_iff.mp (List.mem_append_right pre hx)))) (hpost x hx)
    obtain ⟨mid₁, hvisit, hweight₁, hcache₁⟩ := @Signatures.visit_after rt weights rule e hafter mid
    obtain ⟨next, hnext, hweight₂, hcache₂⟩ := @foldlM_after rt weights rule post hpostAfter mid₁
    obtain ⟨next', hnext', hweight₃, hcache₃⟩ := @foldlM_after rt weights rule post hpostAfter mid
    cases hrest.symm.trans hnext'
    refine ⟨next, hcollect mid₁ next hvisit hnext, ?_, ?_⟩
    · rw [hweight₂, hweight₁, hweight₃]
    · rw [hcache₂, hcache₁, hcache₃]

theorem inStrings_iff {v : PyVal} {l : List String} :
    v.inStrings l = true ↔ ∃ m ∈ l, v = .str m := by
  unfold PyVal.inStrings
  rw [List.any_eq_true]
  constructor
  · rintro ⟨m, hm, heq⟩
    refine ⟨m, hm, ?_⟩
    cases v <;> simp_all [PyVal.eq, PyVal.eqScalar, PyVal.rat?]
  · rintro ⟨m, hm, rfl⟩
    exact ⟨m, hm, by simp [PyVal.eq]⟩

theorem filterMapM_concat {ε α β : Type} {f : α → Except ε (Option β)} {xs : List α} {out : List β}
    {x : α} {o : Option β} (h : xs.filterMapM f = .ok out) (hx : f x = .ok o) :
    (xs ++ [x]).filterMapM f = .ok (out ++ o.toList) := by
  induction xs generalizing out with
  | nil =>
    obtain rfl : out = [] := by simpa [List.filterMapM_nil, pure, Except.pure] using h.symm
    exact filterMapM_cons_eq_ok.mpr ⟨o, [], hx, rfl, by rw [List.append_nil]; rfl⟩
  | cons y xs ih =>
    obtain ⟨o', out', hy, hout, rfl⟩ := filterMapM_cons_eq_ok.mp h
    exact filterMapM_cons_eq_ok.mpr ⟨o', out' ++ o.toList, hy, ih hout, by rw [List.append_assoc]⟩

theorem seenStamp_eq {seen : List String} (hnode : Dict.get e "node_id" = .str n) (hn : n ∈ seen)
    (hts : timestamp rt e = .ok ts) : seenStamp rt seen e = .ok (some ts) := by
  unfold seenStamp
  rw [hnode, hts]
  dsimp only
  rw [inStrings_iff.mpr ⟨n, hn, rfl⟩]
  rfl

/-- The signer is seen by the end: the signature can count, or another of the signer can. -/
def SignerSeen (rt : Runtime) (rule : SignatureRule) (signEvents : List Dict) (e : Dict) (n : String) :
    Prop :=
  (∃ t, rule.signature? rt e = some (n, t)) ∨
    ∃ s ∈ signEvents, ∃ t, rule.signature? rt s = some (n, t)

/-- An appended signature leaves the start of the vote, unless it is of a signer who is seen and
    stamped after the start. -/
theorem latestSignature_appended {filedAt started : PyFloat} (hstampedAll : ∀ x ∈ signEvents, Stamped rt x)
    (h : Appended rt rule signEvents e n ts)
    (hseen : ∀ m, m ∈ signed.seen ↔ ∃ event ∈ signEvents, ∃ t, rule.signature? rt event = some (m, t))
    (hseen' : ∀ m, m ∈ signed'.seen ↔
      ∃ event ∈ signEvents ++ [e], ∃ t, rule.signature? rt event = some (m, t))
    (hsome : signed.seen ≠ [])
    (hstarted : latestSignature rt filedAt signed.seen signEvents = .ok started)
    (hbefore : SignerSeen rt rule signEvents e n → started.lt ts = false) :
    latestSignature rt filedAt signed'.seen (signEvents ++ [e]) = .ok started := by
  have hsame : ∀ x ∈ signEvents, seenStamp rt signed'.seen x = seenStamp rt signed.seen x := by
    intro x hx
    have hin : (Dict.get x "node_id").inStrings signed'.seen =
        (Dict.get x "node_id").inStrings signed.seen := by
      rw [Bool.eq_iff_iff, inStrings_iff, inStrings_iff]
      apply exists_congr
      intro m
      apply and_congr_left
      intro hnode
      rw [hseen, hseen']
      constructor
      · rintro ⟨event, hevent, t, hcounts⟩
        rcases List.mem_append.mp hevent with hevent | hevent
        · exact ⟨event, hevent, t, hcounts⟩
        · obtain rfl := List.mem_singleton.mp hevent
          obtain ⟨hm, ht, hallowed, hunlate⟩ := signature?_eq_some.mp hcounts
          cases hm.symm.trans h.node
          cases ht.symm.trans h.time
          rcases h.late with hlate | ⟨s, hs, hs', -⟩
          · -- a late signature that counts as seen: so do all of the signer
            obtain ⟨k, hk⟩ := hstampedAll x hx
            refine ⟨x, hx, k.1.1, signature?_eq_some.mpr ⟨hnode, (keyed_eq_ok.mp hk).1, hallowed, ?_⟩⟩
            exact fun hunseen => hunlate ⟨hlate, hunseen.2⟩
          · exact ⟨s, hs, hs'⟩
      · rintro ⟨event, hevent, hcounts⟩
        exact ⟨event, List.mem_append_left _ hevent, hcounts⟩
    unfold seenStamp
    dsimp only
    rw [hin]
  obtain ⟨stamps, hstamps, hstarted⟩ := bind_eq_ok.mp hstarted
  have hnonempty : stamps ≠ [] := by
    obtain ⟨m, hm⟩ := List.exists_mem_of_ne_nil _ hsome
    obtain ⟨event, hevent, t, hcounts⟩ := (hseen m).mp hm
    obtain ⟨hnode, ht, -⟩ := signature?_eq_some.mp hcounts
    exact List.ne_nil_of_mem ((mem_filterMapM hstamps).mpr ⟨_, hevent, seenStamp_eq hnode hm ht⟩)
  have hlist : signEvents.filterMapM (seenStamp rt signed'.seen) = .ok stamps := by
    rw [← hstamps]
    exact filterMapM_congr hsame
  unfold latestSignature
  rcases Classical.em (n ∈ signed'.seen) with hin | hout
  · rw [filterMapM_concat hlist (seenStamp_eq h.node hin h.time)]
    have hlt : started.lt ts = false := by
      apply hbefore
      obtain ⟨event, hevent, hcounts⟩ := (hseen' n).mp hin
      rcases List.mem_append.mp hevent with hevent | hevent
      · exact Or.inr ⟨event, hevent, hcounts⟩
      · obtain rfl := List.mem_singleton.mp hevent
        exact Or.inl hcounts
    cases stamps with
    | nil => exact absurd rfl hnonempty
    | cons first more =>
      obtain rfl := pure_eq_ok.mp hstarted
      change Except.ok ((more ++ [ts]).foldl PyFloat.max first) = _
      rw [List.foldl_append]
      change Except.ok (PyFloat.max _ ts) = _
      unfold PyFloat.max
      exact congrArg Except.ok (if_neg (Bool.eq_false_iff.mp hlt))
  · have hnone : seenStamp rt signed'.seen e = .ok none := by
      unfold seenStamp
      rw [h.node]
      have hnotin : (PyVal.str n).inStrings signed'.seen = false := by
        rw [← Bool.not_eq_true, inStrings_iff]
        rintro ⟨m, hm, heq⟩
        cases heq
        exact hout hm
      dsimp only
      rw [hnotin]
      rfl
    rw [filterMapM_concat hlist hnone]
    cases stamps with
    | nil => exact absurd rfl hnonempty
    | cons first more =>
      rw [Option.toList_none, List.append_nil]
      exact hstarted

end Collect

/-! ## Weights -/

section Weights

variable {rt : Runtime} {cfg : RepConfig} {chain : List Dict} {e : Dict} {n : String} {now : PyFloat}

/-- An event that no weight is computed from. -/
structure Weightless (rt : Runtime) (chain : List Dict) (e : Dict) : Prop where
  stamped : Stamped rt e
  number : ∀ x ∈ e :: chain, NumberStamped rt x
  market : marketKey e = none
  undisputed : Undisputed e
  place : hasType "prediction_place" e = false

theorem Weightless.index (h : Weightless rt chain e) (pre post : List Dict) :
    indexMarkets rt (pre ++ e :: post) = indexMarkets rt (pre ++ post) := by
  apply indexMarkets_insert
  · unfold readBootstrapIndex
    rw [h.market]
  · unfold marketViews OrderedMap.fold
    rw [List.foldl_append, List.foldl_append, List.foldl_cons, h.market]

/-- The weights are those of the chain without the event. -/
theorem Weightless.active (h : Weightless rt chain e) (nodeId : String) (ts : PyFloat) :
    computeOracleRepActive rt cfg nodeId (chain ++ [e]) ts =
      computeOracleRepActive rt cfg nodeId chain ts := by
  have hrep : computeOracleRepBreakdown rt cfg nodeId (chain ++ [e]) =
      computeOracleRepBreakdown rt cfg nodeId chain := by
    unfold computeOracleRepBreakdown
    cases hsorted : sortEvents rt chain with
    | error exn => rw [sortEvents_append_error hsorted]
    | ok sorted =>
      obtain ⟨pre, post, rfl, hsorted', -, -⟩ := sortEvents_concat hsorted h.stamped h.number
      rw [hsorted']
      exact breakdownOf_insert (h.index pre post) h.undisputed h.place
  have hlast : lastSuccessfulPredictionTs rt cfg nodeId (chain ++ [e]) =
      lastSuccessfulPredictionTs rt cfg nodeId chain := by
    unfold lastSuccessfulPredictionTs
    cases hsorted : sortEvents rt chain with
    | error exn => rw [sortEvents_append_error hsorted]
    | ok sorted =>
      obtain ⟨pre, post, rfl, hsorted', -, -⟩ := sortEvents_concat hsorted h.stamped h.number
      rw [hsorted']
      exact lastSuccessOf_insert (h.index pre post) h.undisputed
  unfold computeOracleRepActive computeOracleRep
  rw [hrep, hlast]

theorem not_author (hn : n ∉ authors chain) (hne : n ≠ "") {event : Dict} (hevent : event ∈ chain) :
    (Dict.get event "node_id").eq (.str n) = false := by
  rw [← Bool.not_eq_true]
  intro heq
  have hnode : Dict.get event "node_id" = .str n := by
    revert heq
    cases Dict.get event "node_id" <;> simp [PyVal.eq, PyVal.eqScalar, PyVal.rat?]
  exact hn (mem_authors hevent hnode hne)

/-- Who signed no event has no weight, where anybody's weight can be computed. -/
theorem active_stranger {a : String} {t : PyFloat} {w : PyFloat}
    (ha : computeOracleRepActive rt cfg a chain t = .ok w) (hn : n ∉ authors chain) (hne : n ≠ "") :
    computeOracleRepActive rt cfg n chain now = .ok (.finite 0) := by
  obtain ⟨balance, hbalance, -⟩ := bind_eq_ok.mp ha
  obtain ⟨breakdown, hbreakdown, -⟩ := bind_eq_ok.mp hbalance
  obtain ⟨sorted, hsorted, hbreakdown⟩ := bind_eq_ok.mp hbreakdown
  obtain ⟨markets, hmarkets, hbreakdown⟩ := bind_eq_ok.mp hbreakdown
  obtain ⟨pct, -, hbreakdown⟩ := bind_eq_ok.mp hbreakdown
  obtain ⟨earned, hearned, -⟩ := bind_eq_ok.mp hbreakdown
  have hother : ∀ event ∈ sorted, (Dict.get event "node_id").eq (.str n) = false := fun event hevent =>
    not_author hn hne ((sortEvents_perm hsorted).mem_iff.mp hevent)
  have hfarming : computeFarmingPct rt cfg n sorted = .ok 0 := by
    have hcount : sorted.foldlM (FarmingCount.add rt cfg n) {} = .ok {} := by
      apply foldlM_idle
      intro event hevent
      apply farmingCount_other
      rw [hother event hevent, Bool.and_false]
    unfold computeFarmingPct
    rw [if_neg hne, hcount]
    rfl
  have hcredit : markets.foldlM
      (Earned.creditMarket rt cfg n (farmingMultiplier cfg 0) sorted) {} = .ok {} := by
    apply foldlM_idle
    intro market hmarket
    obtain ⟨s₁, s₂, hstep⟩ := ok_of_foldlM hearned market hmarket
    obtain ⟨outcome, houtcome, -⟩ := bind_eq_ok.mp hstep
    unfold Earned.creditMarket
    rw [houtcome]
    cases outcome with
    | none => rfl
    | some original =>
      apply foldlM_idle
      intro pred hpred
      obtain ⟨-, -, hvalues⟩ := bind_eq_ok.mp hmarkets
      obtain rfl := pure_eq_ok.mp hvalues
      rw [marketViews_values hmarket] at hpred
      obtain ⟨event, hevent, -, rfl⟩ := mem_predictions hpred
      unfold Earned.credit readPrediction
      rw [hother event hevent]
      rfl
  have hrep : computeOracleRep rt cfg n chain = .ok (.finite 0) := by
    unfold computeOracleRep computeOracleRepBreakdown breakdownOf
    rw [hsorted]
    simp only [bind, Except.bind, hmarkets, hfarming, hcredit]
    have htotal : ({} : Earned).breakdown.total = .finite 0 := by decide +kernel
    exact congrArg Except.ok htotal
  unfold computeOracleRepActive
  rw [hrep]
  rfl

end Weights

/-! ## The network -/

section Network

variable {weights : Weights} {chain : List Dict} {e : Dict} {n : String} {now : PyFloat}

theorem total_perm {ws ws' : List PyFloat} (h : ws.Perm ws') : total ws = total ws' :=
  h.foldl_eq _

/-- A sum that asks for nodes that the cache does not know asks the weights. -/
theorem foldlM_network {nodes : List String} (hnodup : nodes.Nodup) {sum : Weighed}
    (hfresh : ∀ m ∈ nodes, sum.cache.lookup m = none) :
    Weighed.weight <$> nodes.foldlM (Weighed.add weights now) sum =
      (fun ws => ws.foldl PyFloat.add sum.weight) <$> nodes.mapM fun m => weights m now := by
  induction nodes generalizing sum with
  | nil => rfl
  | cons m nodes ih =>
    obtain ⟨hm, hnodup⟩ := List.nodup_cons.mp hnodup
    rw [List.foldlM_cons, List.mapM_cons]
    have hstep : Weighed.add weights now sum m = (fun w =>
        { weight := sum.weight.add w, cache := sum.cache.insert m w }) <$> weights m now := by
      unfold Weighed.add weigh
      rw [hfresh m List.mem_cons_self]
      cases weights m now <;> rfl
    rw [hstep]
    cases hw : weights m now with
    | error exn => rfl
    | ok w =>
      have hrest := @ih hnodup { weight := sum.weight.add w, cache := sum.cache.insert m w } (by
        intro k hk
        have hne : k ≠ m := fun heq => hm (heq ▸ hk)
        rw [OrderedMap.lookup_insert, if_neg hne]
        exact hfresh k (List.mem_cons_of_mem m hk))
      refine hrest.trans ?_
      cases nodes.mapM fun m => weights m now <;> rfl

theorem nodup_authors (chain : List Dict) : (authors chain).Nodup := List.nodup_dedup _

theorem networkWeight_total (weights : Weights) (chain : List Dict) (now : PyFloat) :
    Weighed.weight <$> networkWeight weights chain now =
      total <$> (authors chain).mapM fun m => weights m now :=
  foldlM_network (nodup_authors chain) fun _ _ => rfl

theorem mem_authors_concat (hnode : Dict.get e "node_id" = .str n) (m : String) :
    m ∈ authors (chain ++ [e]) ↔ m ∈ authors chain ∨ m = n ∧ n ≠ "" := by
  unfold authors
  rw [List.mem_dedup, List.mem_dedup, List.filterMap_append, List.mem_append]
  simp only [List.filterMap_cons, hnode, List.filterMap_nil]
  split_ifs with hn <;> simp [hn]

theorem empty_not_author (chain : List Dict) : "" ∉ authors chain := by
  unfold authors
  rw [List.mem_dedup, List.mem_filterMap]
  rintro ⟨event, -, h⟩
  cases hnode : Dict.get event "node_id" with
  | str m =>
    rw [hnode] at h
    simp only [Option.ite_none_left_eq_some, Option.some.injEq] at h
    exact h.1 h.2
  | none | bool | int | float | list | dict =>
    rw [hnode] at h
    cases h

theorem lookup_strangers {ns : List String} {m : String} (h : m ∉ ns) :
    (ns.map fun k => (k, now)).lookup m = none := by
  induction ns with
  | nil => rfl
  | cons k ns ih =>
    rw [List.mem_cons, not_or] at h
    rw [List.map_cons, OrderedMap.lookup_entry, if_neg h.1]
    exact ih h.2

/-- An event leaves the sum over the network where its author was known or has no weight. -/
theorem networkWeight_appended (hnode : Dict.get e "node_id" = .str n)
    (hstranger : n ∉ authors chain → n ≠ "" → weights n now = .ok (.finite 0)) {network : Weighed}
    (h : networkWeight weights chain now = .ok network) :
    ∃ network', networkWeight weights (chain ++ [e]) now = .ok network' ∧
      network'.weight = network.weight ∧
      ∀ m, m ∈ authors chain ∨ m = "" → network'.cache.lookup m = network.cache.lookup m := by
  have htotal := networkWeight_total weights chain now
  rw [h] at htotal
  obtain ⟨ws, hws, hsum⟩ := map_eq_ok.mp htotal.symm
  have hws' : ∃ ws', (authors (chain ++ [e])).mapM (fun m => weights m now) = .ok ws' ∧
      total ws' = total ws := by
    rcases Classical.em (n ∈ authors chain ∨ n = "") with hknown | hnew
    · have hperm : (authors chain).Perm (authors (chain ++ [e])) := by
        rw [List.perm_ext_iff_of_nodup (nodup_authors _) (nodup_authors _)]
        intro m
        rw [mem_authors_concat hnode]
        refine ⟨Or.inl, fun hm => hm.elim id ?_⟩
        rintro ⟨rfl, hne⟩
        exact hknown.resolve_right hne
      obtain ⟨ws', hws', hperm'⟩ := mapM_perm hperm hws
      exact ⟨ws', hws', (total_perm hperm').symm⟩
    · obtain ⟨hn, hne⟩ := not_or.mp hnew
      have hperm : (n :: authors chain).Perm (authors (chain ++ [e])) := by
        rw [List.perm_ext_iff_of_nodup (List.nodup_cons.mpr ⟨hn, nodup_authors _⟩) (nodup_authors _)]
        intro m
        rw [mem_authors_concat hnode, List.mem_cons, or_comm]
        exact or_congr_right ⟨fun hm => ⟨hm, hne⟩, And.left⟩
      have hcons : (n :: authors chain).mapM (fun m => weights m now) = .ok (.finite 0 :: ws) := by
        rw [List.mapM_cons, hstranger hn hne, hws]
        rfl
      obtain ⟨ws', hws', hperm'⟩ := mapM_perm hperm hcons
      refine ⟨ws', hws', ?_⟩
      rw [← total_perm hperm']
      unfold total
      rw [List.foldl_cons, PyFloat.add_zero (by simp)]
  obtain ⟨ws', hws', heq⟩ := hws'
  have htotal' := networkWeight_total weights (chain ++ [e]) now
  rw [hws'] at htotal'
  obtain ⟨network', hnetwork', hsum'⟩ := map_eq_ok.mp htotal'
  refine ⟨network', hnetwork', by rw [hsum', heq, hsum], fun m hm => ?_⟩
  have hold := networkWeight_caches h m
  have hnew := networkWeight_caches hnetwork' m
  rw [List.lookup_nil] at hold hnew
  dsimp only at hold hnew
  rcases hm with hm | rfl
  · have hm' := (mem_authors_concat hnode m).mpr (Or.inl hm)
    rw [lookup_authors hm] at hold
    rw [lookup_authors hm'] at hnew
    obtain ⟨w, hw, hold⟩ := hold
    obtain ⟨w', hw', hnew⟩ := hnew
    cases hw.symm.trans hw'
    rw [hold, hnew]
  · rw [lookup_strangers (empty_not_author _)] at hold hnew
    exact hnew.trans hold.symm

end Network

/-! ## Caches that agree -/

section Agree

variable {rt : Runtime} {weights : Weights} {P : String → Prop} {cache cache' : WeightCache}

/-- The caches hold the same for these nodes. -/
def AgreeOn (P : String → Prop) (cache cache' : WeightCache) : Prop :=
  ∀ m, P m → cache'.lookup m = cache.lookup m

/-- The events are signed by these nodes, if by anybody. -/
def SignedBy (P : String → Prop) (events : List Dict) : Prop :=
  ∀ event ∈ events, ∀ m, Dict.get event "node_id" = .str m → P m

theorem weigh_agree (h : AgreeOn P cache cache') {m : String} (hm : P m) {ts : PyFloat} {w : Weighed}
    (hw : weigh weights cache m ts = .ok w) : ∃ w', weigh weights cache' m ts = .ok w' ∧
      w'.weight = w.weight ∧ AgreeOn P w.cache w'.cache := by
  unfold weigh at hw ⊢
  rw [h m hm]
  cases hlookup : cache.lookup m with
  | some weight =>
    rw [hlookup] at hw
    cases hw
    exact ⟨_, rfl, rfl, h⟩
  | none =>
    rw [hlookup] at hw
    obtain ⟨weight, hweight, hw⟩ := bind_eq_ok.mp hw
    obtain rfl := pure_eq_ok.mp hw
    dsimp only
    rw [hweight]
    refine ⟨_, rfl, rfl, fun k hk => ?_⟩
    rw [OrderedMap.lookup_insert, OrderedMap.lookup_insert, h k hk]

theorem collectSignatures_agree {rule : SignatureRule} {signEvents : List Dict}
    (hsigners : SignedBy P signEvents) (h : AgreeOn P cache cache') {signed : Signatures}
    (hsigned : collectSignatures rt weights rule cache signEvents = .ok signed) :
    ∃ signed', collectSignatures rt weights rule cache' signEvents = .ok signed' ∧
      signed'.seen = signed.seen ∧ signed'.weight = signed.weight ∧
      AgreeOn P signed.cache signed'.cache := by
  have hfold : ∀ (events : List Dict), SignedBy P events → ∀ s s' : Signatures, s'.seen = s.seen →
      s'.weight = s.weight → AgreeOn P s.cache s'.cache →
      events.foldlM (Signatures.visit rt weights rule) s = .ok signed →
      ∃ signed', events.foldlM (Signatures.visit rt weights rule) s' = .ok signed' ∧
        signed'.seen = signed.seen ∧ signed'.weight = signed.weight ∧
        AgreeOn P signed.cache signed'.cache := by
    intro events
    induction events with
    | nil =>
      intro _ s s' hseen hweight hcache hs
      cases hs
      exact ⟨s', rfl, hseen, hweight, hcache⟩
    | cons event events ih =>
      intro hby s s' hseen hweight hcache hs
      rw [List.foldlM_cons] at hs ⊢
      obtain ⟨next, hnext, hs⟩ := bind_eq_ok.mp hs
      have hstep : ∃ next', s'.visit rt weights rule event = .ok next' ∧ next'.seen = next.seen ∧
          next'.weight = next.weight ∧ AgreeOn P next.cache next'.cache := by
        unfold Signatures.visit at hnext ⊢
        cases hnode : Dict.get event "node_id" with
        | str m =>
          rw [hnode] at hnext
          dsimp only at hnext ⊢
          rw [hseen, hweight]
          split at hnext
          · rename_i hskip
            cases hnext
            rw [if_pos hskip]
            exact ⟨s', rfl, hseen, hweight, hcache⟩
          · rename_i hskip
            rw [if_neg hskip]
            obtain ⟨ts, hts, hnext⟩ := bind_eq_ok.mp hnext
            rw [hts]
            simp only [bind, Except.bind]
            split at hnext
            · rename_i hlate
              rw [if_pos hlate]
              obtain rfl := pure_eq_ok.mp hnext
              refine ⟨_, rfl, ?_⟩
              split
              · exact ⟨rfl, rfl, hcache⟩
              · exact ⟨hseen, hweight, hcache⟩
            · rename_i hlate
              rw [if_neg hlate]
              obtain ⟨w, hw, hnext⟩ := bind_eq_ok.mp hnext
              obtain rfl := pure_eq_ok.mp hnext
              obtain ⟨w', hw', heq, hagree⟩ :=
                weigh_agree hcache (hby event List.mem_cons_self m hnode) hw
              rw [hw']
              exact ⟨_, rfl, rfl, by rw [heq], hagree⟩
        | none | bool | int | float | list | dict =>
          rw [hnode] at hnext
          cases hnext
          exact ⟨s', rfl, hseen, hweight, hcache⟩
      obtain ⟨next', hnext', hseen', hweight', hcache'⟩ := hstep
      rw [hnext']
      exact ih (fun x hx => hby x (List.mem_cons_of_mem event hx)) next next' hseen' hweight' hcache' hs
  obtain ⟨sorted, hsorted, hsigned⟩ := bind_eq_ok.mp hsigned
  obtain ⟨signed', hsigned', hrest⟩ := hfold sorted
    (fun x hx => hsigners x ((sortEvents_perm hsorted).mem_iff.mp hx)) { cache } { cache := cache' } rfl rfl
    h hsigned
  refine ⟨signed', ?_, hrest⟩
  unfold collectSignatures
  rw [hsorted]
  exact hsigned'

theorem castBallots_agree {rule : BallotRule} {voteEvents : List Dict}
    (hvoters : SignedBy P voteEvents) (h : AgreeOn P cache cache') {tally : Tally}
    (htally : castBallots rt weights rule cache voteEvents = .ok tally) :
    ∃ tally', castBallots rt weights rule cache' voteEvents = .ok tally' ∧
      tally'.yea = tally.yea ∧ tally'.nay = tally.nay ∧ AgreeOn P tally.cache tally'.cache := by
  have hfold : ∀ (events : List Dict), SignedBy P events → ∀ s s' : Tally, s'.seen = s.seen →
      s'.yea = s.yea → s'.nay = s.nay → AgreeOn P s.cache s'.cache →
      events.foldlM (Tally.visit rt weights rule) s = .ok tally →
      ∃ tally', events.foldlM (Tally.visit rt weights rule) s' = .ok tally' ∧
        tally'.yea = tally.yea ∧ tally'.nay = tally.nay ∧ AgreeOn P tally.cache tally'.cache := by
    intro events
    induction events with
    | nil =>
      intro _ s s' _ hyea hnay hcache hs
      cases hs
      exact ⟨s', rfl, hyea, hnay, hcache⟩
    | cons event events ih =>
      intro hby s s' hseen hyea hnay hcache hs
      rw [List.foldlM_cons] at hs ⊢
      obtain ⟨next, hnext, hs⟩ := bind_eq_ok.mp hs
      have hstep : ∃ next', s'.visit rt weights rule event = .ok next' ∧ next'.seen = next.seen ∧
          next'.yea = next.yea ∧ next'.nay = next.nay ∧ AgreeOn P next.cache next'.cache := by
        unfold Tally.visit at hnext ⊢
        cases hnode : Dict.get event "node_id" with
        | str m =>
          rw [hnode] at hnext
          dsimp only at hnext ⊢
          rw [hseen, hyea, hnay]
          split at hnext
          · rename_i hskip
            cases hnext
            rw [if_pos hskip]
            exact ⟨s', rfl, hseen, hyea, hnay, hcache⟩
          · rename_i hskip
            rw [if_neg hskip]
            obtain ⟨ts, hts, hnext⟩ := bind_eq_ok.mp hnext
            rw [hts]
            simp only [bind, Except.bind]
            split at hnext
            · rename_i hout
              rw [if_pos hout]
              obtain rfl := pure_eq_ok.mp hnext
              exact ⟨_, rfl, hseen, hyea, hnay, hcache⟩
            · rename_i hin
              rw [if_neg hin]
              obtain ⟨w, hw, hnext⟩ := bind_eq_ok.mp hnext
              obtain rfl := pure_eq_ok.mp hnext
              obtain ⟨w', hw', heq, hagree⟩ :=
                weigh_agree hcache (hby event List.mem_cons_self m hnode) hw
              rw [hw']
              dsimp only
              rw [heq]
              refine ⟨_, rfl, ?_⟩
              split
              · exact ⟨rfl, rfl, rfl, hagree⟩
              · exact ⟨rfl, rfl, rfl, hagree⟩
        | none | bool | int | float | list | dict =>
          rw [hnode] at hnext
          cases hnext
          exact ⟨s', rfl, hseen, hyea, hnay, hcache⟩
      obtain ⟨next', hnext', hseen', hyea', hnay', hcache'⟩ := hstep
      rw [hnext']
      exact ih (fun x hx => hby x (List.mem_cons_of_mem event hx)) next next' hseen' hyea' hnay' hcache' hs
  obtain ⟨sorted, hsorted, htally⟩ := bind_eq_ok.mp htally
  obtain ⟨tally', htally', hrest⟩ := hfold sorted
    (fun x hx => hvoters x ((sortEvents_perm hsorted).mem_iff.mp hx)) { cache } { cache := cache' } rfl rfl
    rfl h htally
  refine ⟨tally', ?_, hrest⟩
  unfold castBallots
  rw [hsorted]
  exact htally'

end Agree

/-! ## Petitions -/

/-- The signature is stamped after the start of the vote, and its signer is seen. -/
def Restarts (rt : Runtime) (rule : SignatureRule) (signEvents : List Dict) (started : PyFloat)
    (e : Dict) : Prop :=
  ∃ n ts, Dict.get e "node_id" = .str n ∧ timestamp rt e = .ok ts ∧ started.lt ts = true ∧
    SignerSeen rt rule signEvents e n

def petitionSignRule (cfg : PetitionConfig) (filedAt : PyFloat) : SignatureRule where
  emptySigner := false
  lateSeen := true
  closes := petitionSignaturesClose cfg filedAt

/-- A signature that is appended to a petition. -/
structure PetitionSigned (rt : Runtime) (cfg : PetitionConfig) (petitionId : String) (chain : List Dict)
    (filedAt : PyFloat) (e : Dict) : Prop where
  type : hasType "petition_sign" e = true
  petition : (Dict.get (payload e) "petition_id").eq (.str petitionId) = true
  market : marketKey e = none
  appended : ∃ n ts, Appended rt (petitionSignRule cfg filedAt)
    (petitionEvents petitionId "petition_sign" chain) e n ts

section

variable {rt : Runtime} {rule : SignatureRule} {signEvents : List Dict} {started : PyFloat}

/-- Nobody is seen because of another appended signature. -/
theorem Restarts.of_concat {e e' : Dict} {n : String} {ts : PyFloat}
    (h : Restarts rt rule (signEvents ++ [e']) started e)
    (happended : Appended rt rule signEvents e' n ts) :
    Restarts rt rule signEvents started e := by
  obtain ⟨m, t, hnode, htime, hlt, hseen | ⟨s, hs, t', hcounts⟩⟩ := h
  · exact ⟨m, t, hnode, htime, hlt, Or.inl hseen⟩
  refine ⟨m, t, hnode, htime, hlt, ?_⟩
  rcases List.mem_append.mp hs with hs | hs
  · exact Or.inr ⟨s, hs, t', hcounts⟩
  obtain rfl := List.mem_singleton.mp hs
  obtain ⟨hm, ht, hallowed, hunlate⟩ := signature?_eq_some.mp hcounts
  cases hm.symm.trans happended.node
  cases ht.symm.trans happended.time
  rcases happended.late with hlate | ⟨s', hs', hcounts', -⟩
  · -- late signatures of anybody are seen then
    refine Or.inl ⟨t, signature?_eq_some.mpr ⟨hnode, htime, hallowed, fun hunseen => ?_⟩⟩
    exact hunlate ⟨hlate, hunseen.2⟩
  · exact Or.inr ⟨s', hs', hcounts'⟩

end

section

variable {rt : Runtime} {weights : Weights} {rule : SignatureRule} {cache : WeightCache}
  {threshold : PyFloat}

theorem foldlM_unseen {events : List Dict} (hstamped : ∀ event ∈ events, Stamped rt event)
    {signed signed' : Signatures} (h : events.foldlM (Signatures.visit rt weights rule) signed = .ok signed')
    (hnil : signed'.seen = []) : signed' = signed := by
  induction events generalizing signed with
  | nil =>
    cases h
    rfl
  | cons event events ih =>
    rw [List.foldlM_cons] at h
    obtain ⟨next, hnext, hfold⟩ := bind_eq_ok.mp h
    have hrest : ∀ x ∈ events, Stamped rt x := fun x hx => hstamped x (List.mem_cons_of_mem event hx)
    rw [ih hrest hfold]
    rcases Signatures.visit_cases (hstamped event List.mem_cons_self) hnext with ⟨heq, -⟩ | ⟨s, -, -, hnew, -⟩
    · exact heq
    · have hin : s.1 ∈ signed'.seen := by
        rw [mem_seen_iff hrest hfold, hnew]
        exact Or.inl (List.mem_append_right _ List.mem_cons_self)
      rw [hnil] at hin
      exact absurd hin List.not_mem_nil

theorem seen_ne_nil {signEvents : List Dict} {signed : Signatures}
    (h : collectSignatures rt weights rule cache signEvents = .ok signed)
    (hreached : (threshold.le signed.weight && (PyFloat.finite 0).lt threshold) = true) :
    signed.seen ≠ [] := by
  intro hnil
  obtain ⟨sorted, hsorted, hfold⟩ := bind_eq_ok.mp h
  obtain rfl := foldlM_unseen (stamped_of_sortEvents hsorted) hfold hnil
  obtain ⟨hle, hlt⟩ := (Bool.and_eq_true _ _).mp hreached
  unfold PyFloat.le at hle
  rw [hlt] at hle
  simp at hle

theorem exists_weight {chain : List Dict} {now : PyFloat} {network : Weighed} {q : ℚ}
    (h : networkWeight weights chain now = .ok network)
    (hpos : (PyFloat.finite 0).lt (network.weight.mul (.finite q)) = true) :
    ∃ a w, weights a now = .ok w := by
  have htotal := networkWeight_total weights chain now
  rw [h] at htotal
  obtain ⟨ws, hws, hsum⟩ := map_eq_ok.mp htotal.symm
  cases hauthors : authors chain with
  | nil =>
    rw [hauthors] at hws
    cases hws
    rw [← hsum] at hpos
    have hzero : (0 : ℚ) < 0 * q := of_decide_eq_true hpos
    rw [zero_mul] at hzero
    exact absurd hzero (lt_irrefl 0)
  | cons a rest => exact ⟨a, ok_of_mapM hws a (hauthors ▸ List.mem_cons_self)⟩

end

section

variable {rt : Runtime} {cfg : PetitionConfig} {id : String} {chain : List Dict} {e : Dict}
  {now started : PyFloat} {state : PetitionState}

theorem petitionEvents_other {t : String} (htype : hasType "petition_sign" e = true)
    (ht : "petition_sign" ≠ t) : petitionEvents id t (chain ++ [e]) = petitionEvents id t chain := by
  rw [petitionEvents_append]
  unfold petitionEvents
  simp [hasType_ne htype ht]

theorem PetitionSigned.events {filedAt : PyFloat} (h : PetitionSigned rt cfg id chain filedAt e) :
    petitionEvents id "petition_sign" (chain ++ [e]) = petitionEvents id "petition_sign" chain ++ [e] := by
  rw [petitionEvents_append]
  unfold petitionEvents
  simp [h.type, h.petition]

theorem PetitionSigned.mono {filedAt : PyFloat} {more : List Dict}
    (h : PetitionSigned rt cfg id chain filedAt e) : PetitionSigned rt cfg id (chain ++ more) filedAt e where
  type := h.type
  petition := h.petition
  market := h.market
  appended := by
    obtain ⟨n, ts, happended⟩ := h.appended
    rw [petitionEvents_append]
    exact ⟨n, ts, happended.mono⟩

theorem PetitionSigned.weightless {filedAt : PyFloat} (h : PetitionSigned rt cfg id chain filedAt e)
    (hnumber : ∀ x ∈ e :: chain, NumberStamped rt x) : Weightless rt chain e where
  stamped := by
    obtain ⟨n, ts, happended⟩ := h.appended
    exact happended.stamped
  number := hnumber
  market := h.market
  undisputed := undisputed_of_type h.type (by decide)
  place := hasType_ne h.type (by decide)

/-- An appended signature that does not restart the vote leaves the petition as it is. -/
theorem petition_step (h : computePetitionState rt cfg id chain now = .ok state)
    (hstarted : state.votingStartedAt = some started)
    (hsigned : PetitionSigned rt cfg id chain state.filedAt e)
    (hnumber : ∀ x ∈ e :: chain, NumberStamped rt x)
    (hbefore : ¬ Restarts rt (petitionSignRule cfg state.filedAt)
      (petitionEvents id "petition_sign" chain) started e) :
    computePetitionState rt cfg id (chain ++ [e]) now = .ok state := by
  obtain ⟨file, petitionPayload, network, signed, hfile, hfiled, hpayload, hnetwork, hcollect, hreached,
    hlatest, hphase⟩ := petition_passage h hstarted
  obtain ⟨n, ts, happended⟩ := hsigned.appended
  have hweightless := hsigned.weightless hnumber
  have hweights : petitionWeights rt cfg (chain ++ [e]) = petitionWeights rt cfg chain := by
    funext nodeId t
    exact hweightless.active nodeId t
  have hother := fun t ht => @petitionEvents_other id chain e t hsigned.type ht
  have hstampedAll : ∀ x ∈ petitionEvents id "petition_sign" chain, Stamped rt x := by
    obtain ⟨sorted, hsorted, -⟩ := bind_eq_ok.mp hcollect
    exact fun x hx => stamped_of_sortEvents hsorted x ((sortEvents_perm hsorted).mem_iff.mpr hx)
  have hsome := seen_ne_nil hcollect hreached
  -- somebody signed, so every weight can be computed
  have hstranger : n ∉ authors chain → n ≠ "" → petitionWeights rt cfg chain n now = .ok (.finite 0) := by
    intro hn hne
    obtain ⟨a, w, ha⟩ := exists_weight hnetwork ((Bool.and_eq_true _ _).mp hreached).2
    exact active_stranger ha hn hne
  obtain ⟨network', hnetwork', hweight, -⟩ := networkWeight_appended happended.node hstranger hnetwork
  obtain ⟨signed', hcollect', hsame, hcache⟩ := collectSignatures_appended
    (fun x hx => hnumber x (by
      rcases List.mem_cons.mp hx with rfl | hx
      · exact List.mem_cons_self
      · exact List.mem_cons_of_mem e (List.mem_of_mem_filter hx))) happended hcollect
  have hlatest' := latestSignature_appended hstampedAll happended (mem_seen hcollect) (mem_seen hcollect')
    hsome hlatest fun hseen => Bool.eq_false_iff.mpr fun hlt =>
      hbefore ⟨n, ts, happended.node, happended.time, hlt, hseen⟩
  have hphase' : petitionVotingPhase rt cfg id (chain ++ [e]) = petitionVotingPhase rt cfg id chain := by
    funext now' network started cache st
    simp only [petitionVotingPhase, petitionVotes, petitionChallengePhase, computeChallengeState,
      challengeVotes, hweights, hother "petition_vote" (by decide), hother "challenge_file" (by decide),
      hother "challenge_vote" (by decide), hother "petition_execute" (by decide)]
  have hcollected : petitionSignatures rt cfg id (chain ++ [e]) state.filedAt = .ok signed' := by
    unfold petitionSignatures
    rw [hsigned.events, hweights]
    exact hcollect'
  have hphases : petitionPhases rt cfg id (chain ++ [e]) now state.filedAt network.weight
      { petitionId := id, status := .signatures, filerId := Dict.text rt file "node_id",
        filedAt := state.filedAt, petitionPayload } = .ok state := by
    unfold petitionPhases
    rw [hcollected]
    simp only [bind, Except.bind]
    rw [hsame, hreached, hsigned.events, hlatest', hphase', hcache]
    exact hphase
  unfold computePetitionState
  rw [hother "petition_file" (by decide), hfile, hweights]
  dsimp only
  rw [hfiled, hpayload, hnetwork']
  simp only [bind, Except.bind]
  rw [hweight]
  exact hphases

theorem petition_run {more : List Dict} (h : computePetitionState rt cfg id chain now = .ok state)
    (hstarted : state.votingStartedAt = some started)
    (hsigned : ∀ e ∈ more, PetitionSigned rt cfg id chain state.filedAt e)
    (hnumber : ∀ x ∈ chain ++ more, NumberStamped rt x)
    (hbefore : ∀ e ∈ more, ¬ Restarts rt (petitionSignRule cfg state.filedAt)
      (petitionEvents id "petition_sign" chain) started e) :
    computePetitionState rt cfg id (chain ++ more) now = .ok state := by
  induction more generalizing chain with
  | nil =>
    rw [List.append_nil]
    exact h
  | cons e more ih =>
    have he := hsigned e List.mem_cons_self
    rw [List.append_cons] at hnumber ⊢
    have hstep : computePetitionState rt cfg id (chain ++ [e]) now = .ok state := by
      refine petition_step h hstarted he (fun x hx => hnumber x ?_) (hbefore e List.mem_cons_self)
      rcases List.mem_cons.mp hx with rfl | hx
      · simp
      · simp [hx]
    obtain ⟨n, ts, happended⟩ := he.appended
    refine ih hstep (fun x hx => (hsigned x (List.mem_cons_of_mem e hx)).mono) hnumber fun x hx hrestarts => ?_
    rw [he.events] at hrestarts
    exact hbefore x (List.mem_cons_of_mem e hx) (hrestarts.of_concat happended)

end

/-! ## Upgrades -/

def upgradeSignRule (cfg : UpgradeConfig) (filedAt : PyFloat) : SignatureRule where
  emptySigner := true
  lateSeen := false
  closes := signaturesClose cfg filedAt

/-- A signature that is appended to an upgrade. -/
structure UpgradeSigned (rt : Runtime) (cfg : UpgradeConfig) (proposalId : String) (chain : List Dict)
    (filedAt : PyFloat) (e : Dict) : Prop where
  type : hasType "upgrade_sign" e = true
  proposal : (Dict.get (payload e) "proposal_id").eq (.str proposalId) = true
  market : marketKey e = none
  appended : ∃ n ts, Appended rt (upgradeSignRule cfg filedAt)
    (proposalEvents proposalId "upgrade_sign" chain) e n ts

section

variable {rt : Runtime} {cfg : UpgradeConfig} {id : String} {chain : List Dict} {e : Dict}
  {now started : PyFloat} {heavy : Finset String} {state : UpgradeProposalState}

theorem proposalEvents_append (t : String) (more : List Dict) :
    proposalEvents id t (chain ++ more) = proposalEvents id t chain ++ proposalEvents id t more :=
  List.filter_append chain more

theorem proposalEvents_other {t : String} (htype : hasType "upgrade_sign" e = true)
    (ht : "upgrade_sign" ≠ t) : proposalEvents id t (chain ++ [e]) = proposalEvents id t chain := by
  rw [proposalEvents_append]
  unfold proposalEvents
  simp [hasType_ne htype ht]

theorem UpgradeSigned.events {filedAt : PyFloat} (h : UpgradeSigned rt cfg id chain filedAt e) :
    proposalEvents id "upgrade_sign" (chain ++ [e]) = proposalEvents id "upgrade_sign" chain ++ [e] := by
  rw [proposalEvents_append]
  unfold proposalEvents
  simp [h.type, h.proposal]

theorem UpgradeSigned.mono {filedAt : PyFloat} {more : List Dict}
    (h : UpgradeSigned rt cfg id chain filedAt e) : UpgradeSigned rt cfg id (chain ++ more) filedAt e where
  type := h.type
  proposal := h.proposal
  market := h.market
  appended := by
    obtain ⟨n, ts, happended⟩ := h.appended
    rw [proposalEvents_append]
    exact ⟨n, ts, happended.mono⟩

theorem UpgradeSigned.weightless {filedAt : PyFloat} (h : UpgradeSigned rt cfg id chain filedAt e)
    (hnumber : ∀ x ∈ e :: chain, NumberStamped rt x) : Weightless rt chain e where
  stamped := by
    obtain ⟨n, ts, happended⟩ := h.appended
    exact happended.stamped
  number := hnumber
  market := h.market
  undisputed := undisputed_of_type h.type (by decide)
  place := hasType_ne h.type (by decide)

theorem signedBy_chain (id t : String) (chain : List Dict) :
    SignedBy (fun m => m ∈ authors chain ∨ m = "") (proposalEvents id t chain) := by
  intro event hevent m hnode
  rcases eq_or_ne m "" with rfl | hne
  · exact Or.inr rfl
  · exact Or.inl (mem_authors (List.mem_of_mem_filter hevent) hnode hne)

/-- The phases from the vote on do not see the difference of caches that agree on the authors. -/
theorem votingPhase_agree {network : PyFloat} {cache cache' : WeightCache} {st : UpgradeProposalState}
    (hagree : AgreeOn (fun m => m ∈ authors chain ∨ m = "") cache cache')
    (h : votingPhase rt cfg id chain heavy now network started cache st = .ok state) :
    votingPhase rt cfg id chain heavy now network started cache' st = .ok state := by
  obtain ⟨tally, htally, h⟩ := bind_eq_ok.mp h
  obtain ⟨tally', htally', hyea, hnay, hagree'⟩ :=
    castBallots_agree (signedBy_chain id "upgrade_vote" chain) hagree htally
  have hvotes : upgradeVotes rt cfg id chain started cache' = .ok tally' := htally'
  have hpasses : tally'.passes (upgradeThresholds cfg) network = tally.passes (upgradeThresholds cfg) network := by
    unfold Tally.passes
    rw [hyea, hnay]
  unfold votingPhase
  rw [hvotes]
  simp only [bind, Except.bind]
  rw [hyea, hnay, hpasses]
  split_ifs at h ⊢
  · exact h
  · exact h
  · obtain ⟨challenge, hchallenge, h⟩ := bind_eq_ok.mp h
    have hvoted : ∃ challenge', upgradeChallengeVotes rt cfg id chain
        (upgradeChallengeUntil cfg st.filedAt (upgradeVotingDeadline cfg started)) tally'.cache = .ok challenge' ∧
        challengeUpheld challenge' = challengeUpheld challenge := by
      unfold upgradeChallengeVotes at hchallenge ⊢
      cases hfile : (proposalEvents id "upgrade_challenge" chain).head? with
      | none =>
        rw [hfile] at hchallenge
        cases hchallenge
        exact ⟨none, rfl, rfl⟩
      | some file =>
        rw [hfile] at hchallenge
        obtain ⟨challengeAt, hat, hchallenge⟩ := bind_eq_ok.mp hchallenge
        obtain ⟨votes, hcast, rfl⟩ := map_eq_ok.mp hchallenge
        obtain ⟨votes', hcast', hyea', hnay', -⟩ :=
          castBallots_agree (signedBy_chain id "upgrade_challenge_vote" chain) hagree' hcast
        refine ⟨some votes', ?_, ?_⟩
        · dsimp only
          rw [hat]
          simp only [bind, Except.bind]
          rw [hcast']
          rfl
        · unfold challengeUpheld
          dsimp only
          rw [hyea', hnay']
    obtain ⟨challenge', hchallenge', hupheld⟩ := hvoted
    unfold challengePhase
    dsimp only
    rw [hchallenge']
    simp only [bind, Except.bind]
    rw [hupheld]
    exact h

/-- An appended signature that does not restart the vote leaves the upgrade as it is. -/
theorem upgrade_step (h : computeUpgradeState rt cfg id chain now heavy = .ok state)
    (hstarted : state.votingStartedAt = some started)
    (hsigned : UpgradeSigned rt cfg id chain state.filedAt e)
    (hnumber : ∀ x ∈ e :: chain, NumberStamped rt x)
    (hbefore : ¬ Restarts rt (upgradeSignRule cfg state.filedAt)
      (proposalEvents id "upgrade_sign" chain) started e) :
    computeUpgradeState rt cfg id (chain ++ [e]) now heavy = .ok state := by
  obtain ⟨propose, network, signed, hpropose, hfiled, hnetwork, hcollect, hsuffice, hlatest, hphase⟩ :=
    upgrade_passage h hstarted
  obtain ⟨n, ts, happended⟩ := hsigned.appended
  have hweightless := hsigned.weightless hnumber
  have hweights : upgradeWeights rt cfg (chain ++ [e]) = upgradeWeights rt cfg chain := by
    funext nodeId t
    exact hweightless.active nodeId t
  have hother := fun t ht => @proposalEvents_other id chain e t hsigned.type ht
  have hstampedAll : ∀ x ∈ proposalEvents id "upgrade_sign" chain, Stamped rt x := by
    obtain ⟨sorted, hsorted, -⟩ := bind_eq_ok.mp hcollect
    exact fun x hx => stamped_of_sortEvents hsorted x ((sortEvents_perm hsorted).mem_iff.mpr hx)
  have hsome : signed.seen ≠ [] := seen_ne_nil hcollect hsuffice
  -- somebody signed, so every weight can be computed
  have hstranger : n ∉ authors chain → n ≠ "" → upgradeWeights rt cfg chain n now = .ok (.finite 0) := by
    intro hn hne
    obtain ⟨a, w, ha⟩ := exists_weight hnetwork ((Bool.and_eq_true _ _).mp hsuffice).2
    exact active_stranger ha hn hne
  obtain ⟨network', hnetwork', hweight, hagree⟩ :=
    networkWeight_appended happended.node hstranger hnetwork
  obtain ⟨signed₁, hcollect₁, hseen₁, hweight₁, hagree₁⟩ :=
    collectSignatures_agree (signedBy_chain id "upgrade_sign" chain) hagree hcollect
  obtain ⟨signed', hcollect', hsame, hcache⟩ := collectSignatures_appended
    (fun x hx => hnumber x (by
      rcases List.mem_cons.mp hx with rfl | hx
      · exact List.mem_cons_self
      · exact List.mem_cons_of_mem e (List.mem_of_mem_filter hx))) happended hcollect₁
  have hlatest' := latestSignature_appended hstampedAll happended (mem_seen hcollect) (mem_seen hcollect')
    hsome hlatest fun hseen => Bool.eq_false_iff.mpr fun hlt =>
      hbefore ⟨n, ts, happended.node, happended.time, hlt, hseen⟩
  have hactivation : activationPhase cfg id (chain ++ [e]) = activationPhase cfg id chain := by
    funext heavy' now' windowUntil st
    unfold activationPhase heavyNodeReadiness seenReady
    rw [hother "upgrade_activate" (by decide), hother "upgrade_signal_ready" (by decide)]
  have hchallenge : upgradeChallengeVotes rt cfg id (chain ++ [e]) =
      upgradeChallengeVotes rt cfg id chain := by
    funext windowUntil cache
    unfold upgradeChallengeVotes
    rw [hother "upgrade_challenge" (by decide), hother "upgrade_challenge_vote" (by decide), hweights]
  have hphase' : votingPhase rt cfg id (chain ++ [e]) = votingPhase rt cfg id chain := by
    funext heavy' now' network started cache st
    unfold votingPhase challengePhase upgradeVotes
    rw [hother "upgrade_vote" (by decide), hweights, hchallenge, hactivation]
  have hcollected : upgradeSignatures rt cfg id (chain ++ [e]) state.filedAt network'.cache =
      .ok signed' := by
    unfold upgradeSignatures
    rw [hsigned.events, hweights]
    exact hcollect'
  have hlast := votingPhase_agree hagree₁ hphase
  unfold computeUpgradeState
  rw [hother "upgrade_propose" (by decide), hpropose]
  dsimp only
  rw [hfiled, hweights, hnetwork']
  simp only [bind, Except.bind]
  rw [hcollected]
  dsimp only
  rw [hweight, hsame, hweight₁, hsuffice, hsigned.events, hlatest', hphase', hcache]
  exact hlast

theorem upgrade_run {more : List Dict} (h : computeUpgradeState rt cfg id chain now heavy = .ok state)
    (hstarted : state.votingStartedAt = some started)
    (hsigned : ∀ e ∈ more, UpgradeSigned rt cfg id chain state.filedAt e)
    (hnumber : ∀ x ∈ chain ++ more, NumberStamped rt x)
    (hbefore : ∀ e ∈ more, ¬ Restarts rt (upgradeSignRule cfg state.filedAt)
      (proposalEvents id "upgrade_sign" chain) started e) :
    computeUpgradeState rt cfg id (chain ++ more) now heavy = .ok state := by
  induction more generalizing chain with
  | nil =>
    rw [List.append_nil]
    exact h
  | cons e more ih =>
    have he := hsigned e List.mem_cons_self
    rw [List.append_cons] at hnumber ⊢
    have hstep : computeUpgradeState rt cfg id (chain ++ [e]) now heavy = .ok state := by
      refine upgrade_step h hstarted he (fun x hx => hnumber x ?_) (hbefore e List.mem_cons_self)
      rcases List.mem_cons.mp hx with rfl | hx
      · simp
      · simp [hx]
    obtain ⟨n, ts, happended⟩ := he.appended
    refine ih hstep (fun x hx => (hsigned x (List.mem_cons_of_mem e hx)).mono) hnumber fun x hx hrestarts => ?_
    rw [he.events] at hrestarts
    exact hbefore x (List.mem_cons_of_mem e hx) (hrestarts.of_concat happended)

end

/-! ## Open votes -/

/-- More signatures leave start, end and tallies of a petition that is in or past its vote. -/
def PetitionUnmoved (rt : Runtime) (cfg : PetitionConfig) (id : String) (chain more : List Dict)
    (now : PyFloat) : Prop :=
  ∀ state started, computePetitionState rt cfg id chain now = .ok state →
    state.votingStartedAt = some started →
      ∃ state', computePetitionState rt cfg id (chain ++ more) now = .ok state' ∧
        state'.votingStartedAt = state.votingStartedAt ∧ state'.votingDeadline = state.votingDeadline ∧
        state'.votesForWeight = state.votesForWeight ∧
        state'.votesAgainstWeight = state.votesAgainstWeight

/-- More signatures leave start, end and tallies of an upgrade that is in or past its vote. -/
def UpgradeUnmoved (rt : Runtime) (cfg : UpgradeConfig) (id : String) (chain more : List Dict)
    (now : PyFloat) (heavy : Finset String) : Prop :=
  ∀ state started, computeUpgradeState rt cfg id chain now heavy = .ok state →
    state.votingStartedAt = some started →
      ∃ state', computeUpgradeState rt cfg id (chain ++ more) now heavy = .ok state' ∧
        state'.votingStartedAt = state.votingStartedAt ∧ state'.votingDeadline = state.votingDeadline ∧
        state'.votesForWeight = state.votesForWeight ∧
        state'.votesAgainstWeight = state.votesAgainstWeight

section

variable {rt : Runtime} {rule : SignatureRule} {signEvents : List Dict} {started filedAt : PyFloat}
  {weights : Weights} {cache : WeightCache} {signed : Signatures} {e : Dict}

/-- No seen signer has signed after the start. -/
theorem not_restarts {base : List Dict} (hbase : ∀ s ∈ base, s ∈ signEvents) (he : e ∈ signEvents)
    (hnumber : ∀ x ∈ signEvents, NumberStamped rt x)
    (hsigned : collectSignatures rt weights rule cache signEvents = .ok signed)
    (hlatest : latestSignature rt filedAt signed.seen signEvents = .ok started) :
    ¬ Restarts rt rule base started e := by
  rintro ⟨n, ts, hnode, htime, hlt, hseen⟩
  have hin : n ∈ signed.seen := by
    rw [mem_seen hsigned]
    rcases hseen with hcounts | ⟨s, hs, hcounts⟩
    · exact ⟨e, he, hcounts⟩
    · exact ⟨s, hbase s hs, hcounts⟩
  have hle := le_latestSignature hnumber hlatest he hnode hin htime
  unfold PyFloat.le at hle
  rw [hlt] at hle
  simp at hle

end

/-- The only signer signs again. -/
def signedAgain (sequence : Int) : List Dict :=
  dicts [chainEvent "petition_sign" "bob" sequence [("petition_id", .str "p1")]]

end Vincent.Economy
