-- SUMMARY: The majority time of a chain against a minority.
import Mathlib.Data.List.GetD
import Vincent.Economy.Events
import Vincent.General.OrderStatistics

/-!
# Majority time

`chain_majority_time` is the median of the latest timestamps of the `n` nodes whose
timestamps are latest. A sample of even size has two middle values, and their mean
is computed by a float addition, which may overflow.
-/

namespace Vincent.Economy

open Vincent.Python Vincent.OrderStatistics

/-! ## Doubles -/

/-- Rounding to a double. -/
structure Doubles where
  /-- The double that is nearest to a rational, or an infinity where it is beyond all doubles. -/
  round : ℚ → PyFloat
  round_ne_nan : ∀ q, round q ≠ .nan
  round_mono : ∀ a b, a ≤ b → (round a).place ≤ (round b).place
  /-- Twice a double is a double, unless it is beyond all doubles. -/
  round_double : ∀ b x y, round b = .finite b → x ≤ 2 * b → (round x).rat? = some y → y ≤ 2 * b

namespace Doubles

variable {D : Doubles} {a b a' b' T : ℚ}

def IsDouble (D : Doubles) (q : ℚ) : Prop := D.round q = .finite q

/-- `(a + b) / 2`. An infinite sum stays infinite. -/
def mean (D : Doubles) (a b : ℚ) : PyFloat :=
  match (D.round (a + b)).rat? with
  | some s => D.round (s / 2)
  | none => D.round (a + b)

theorem mean_ne_nan : D.mean a b ≠ .nan := by
  unfold mean
  split <;> exact D.round_ne_nan _

theorem place_of_rat {x : PyFloat} {q : ℚ} (h : x.rat? = some q) :
    x.place = (PyFloat.finite q).place := by
  cases x <;> simp_all [PyFloat.rat?, PyFloat.place]

theorem finite_place_le : (PyFloat.finite a).place ≤ (PyFloat.finite b).place ↔ a ≤ b := by
  simp [PyFloat.place]

/-- A float is finite, the positive infinity, or at the bottom. -/
theorem rat_or_inf (x : PyFloat) : (∃ q, x.rat? = some q) ∨ x = .inf ∨ (x.rat? = none ∧ x.place = ⊥) := by
  cases x <;> simp [PyFloat.rat?, PyFloat.place]

/-- The mean of two doubles is at most the greater one, unless their sum overflows. -/
theorem mean_le (hab : a ≤ b) (hb : D.IsDouble b) (hsum : D.round (a + b) ≠ .inf) :
    (D.mean a b).place ≤ (PyFloat.finite b).place := by
  unfold mean
  rcases rat_or_inf (D.round (a + b)) with ⟨s, hs⟩ | hinf | ⟨hnone, hbot⟩
  · have hle : s ≤ 2 * b := D.round_double b (a + b) s hb (by linarith) hs
    have hhalf : s / 2 ≤ b := by linarith
    rw [hs, ← hb]
    exact D.round_mono _ _ hhalf
  · exact absurd hinf hsum
  · rw [hnone]
    dsimp only
    rw [hbot]
    exact bot_le

theorem mean_overflow (hsum : D.round (a + b) = .inf) : D.mean a b = .inf := by
  unfold mean
  rw [hsum]
  rfl

theorem mean_mono (ha : a ≤ a') (hb : b ≤ b') : (D.mean a b).place ≤ (D.mean a' b').place := by
  have hsum := D.round_mono (a + b) (a' + b') (add_le_add ha hb)
  rcases rat_or_inf (D.round (a' + b')) with ⟨s', hs'⟩ | hinf' | ⟨hnone', hbot'⟩
  · rcases rat_or_inf (D.round (a + b)) with ⟨s, hs⟩ | hinf | ⟨hnone, hbot⟩
    · rw [place_of_rat hs, place_of_rat hs', finite_place_le] at hsum
      unfold mean
      rw [hs, hs']
      exact D.round_mono _ _ (by linarith)
    · rw [hinf, place_of_rat hs'] at hsum
      simp [PyFloat.place] at hsum
    · unfold mean
      rw [hnone]
      dsimp only
      rw [hbot]
      exact bot_le
  · rw [mean_overflow hinf']
    cases D.mean a b <;> simp [PyFloat.place]
  · rw [hbot', le_bot_iff] at hsum
    rcases rat_or_inf (D.round (a + b)) with ⟨s, hs⟩ | hinf | ⟨hnone, hbot⟩
    · rw [place_of_rat hs] at hsum
      simp [PyFloat.place] at hsum
    · rw [hinf] at hsum
      simp [PyFloat.place] at hsum
    · unfold mean
      rw [hnone]
      dsimp only
      rw [hbot]
      exact bot_le

end Doubles

/-! ## Model -/

/-- The events with a finite timestamp. -/
def timed (rt : Runtime) (chain : List PyVal) : List (ℚ × Dict) :=
  (dicts chain).filterMap fun event =>
    (finiteFloat rt (Dict.get event "timestamp")).map fun timestamp => (timestamp, event)

/-- The scan of the sorted events, which keeps the first timestamp of each node. -/
def sampleLoop (n : Nat) (seenNodes : List String) (timestamps : List ℚ) : List (ℚ × Dict) → List ℚ
  | [] => timestamps
  | (timestamp, event) :: events =>
    match Dict.get event "node_id" with
    | .str node =>
      if node = "" ∨ node ∈ seenNodes then sampleLoop n seenNodes timestamps events
      else if n ≤ (timestamps ++ [timestamp]).length then timestamps ++ [timestamp]
      else sampleLoop n (node :: seenNodes) (timestamps ++ [timestamp]) events
    | _ => sampleLoop n seenNodes timestamps events

/-- `statistics.median`. -/
def median (D : Doubles) (data : List ℚ) : PyFloat :=
  let data := data.insertionSort (· ≤ ·)
  let n := data.length
  if n % 2 = 1 then .finite (data.getD (n / 2) 0)
  else D.mean (data.getD (n / 2 - 1) 0) (data.getD (n / 2) 0)

def chainMajorityTime (D : Doubles) (rt : Runtime) (chain : List PyVal) (n : Int) :
    Except String PyFloat :=
  if n ≤ 0 then .error "ValueError"
  else
    let events := (timed rt chain).insertionSort fun a b => b.1 ≤ a.1
    let timestamps := sampleLoop n.toNat [] [] events
    if timestamps.isEmpty then .ok (.finite 0) else .ok (median D timestamps)

/-! ## Authors -/

/-- The node of an event, with the timestamp. -/
def author (event : ℚ × Dict) : Option (String × ℚ) :=
  match Dict.get event.2 "node_id" with
  | .str node => if node = "" then none else some (node, event.1)
  | _ => none

/-- The timestamps of the chain, each with its author. -/
def authored (rt : Runtime) (chain : List PyVal) : List (String × ℚ) :=
  (timed rt chain).filterMap author

/-- The authors with a finite timestamp. -/
def timedAuthors (rt : Runtime) (chain : List PyVal) : Finset String :=
  ((authored rt chain).map Prod.fst).toFinset

/-- The authors with a timestamp above a bound. -/
def authorsAbove (rt : Runtime) (chain : List PyVal) (T : ℚ) : Finset String :=
  keysAbove T (authored rt chain)

/-- The size of the sample. -/
def sampleSize (rt : Runtime) (chain : List PyVal) (n : Int) : Nat :=
  min n.toNat (timedAuthors rt chain).card

/-- The latest timestamps of all authors, in falling order. -/
def latest (rt : Runtime) (chain : List PyVal) : List ℚ :=
  (firsts [] (((timed rt chain).insertionSort fun a b => b.1 ≤ a.1).filterMap author)).map Prod.snd

section

variable {rt : Runtime} {chain : List PyVal} {T : ℚ} {n : Nat}

theorem sampleLoop_eq {seen : List String} {ts : List ℚ} (events : List (ℚ × Dict))
    (hlen : ts.length < n) : sampleLoop n seen ts events =
      ts ++ ((firsts seen (events.filterMap author)).map Prod.snd).take (n - ts.length) := by
  induction events generalizing seen ts with
  | nil => simp [sampleLoop, firsts]
  | cons event events ih =>
    obtain ⟨t, event⟩ := event
    unfold sampleLoop
    cases hnode : Dict.get event "node_id" with
    | str node =>
      rcases eq_or_ne node "" with hempty | hempty
      · have hauthor : author (t, event) = none := by
          simp [author, hnode, hempty]
        rw [List.filterMap_cons_none hauthor, ← ih hlen]
        exact if_pos (Or.inl hempty)
      · have hauthor : author (t, event) = some (node, t) := by
          simp [author, hnode, hempty]
        rw [List.filterMap_cons_some hauthor]
        simp only [hempty, false_or, firsts]
        split
        · exact ih hlen
        · obtain ⟨m, hm⟩ : ∃ m, n - ts.length = m + 1 := ⟨n - ts.length - 1, by omega⟩
          rw [hm, List.map_cons, List.take_succ_cons]
          split
          · rename_i hfull
            rw [List.length_append, List.length_singleton] at hfull
            have : m = 0 := by omega
            simp [this]
          · rename_i hfull
            rw [List.length_append, List.length_singleton] at hfull
            have hm' : n - (ts ++ [t]).length = m := by
              rw [List.length_append, List.length_singleton]
              omega
            rw [ih (by rw [List.length_append, List.length_singleton]; omega), hm', List.append_assoc]
            rfl
    | none | bool | int | float | list | dict =>
      have hauthor : author (t, event) = none := by
        simp [author, hnode]
      rw [List.filterMap_cons_none hauthor]
      exact ih hlen

theorem author_snd {e : ℚ × Dict} {z : String × ℚ} (h : author e = some z) : z.2 = e.1 := by
  unfold author at h
  split at h
  · split at h
    · cases h
    · cases h
      rfl
  · cases h

theorem sorted_falling (l : List (ℚ × Dict)) :
    (((l.insertionSort fun a b => b.1 ≤ a.1)).filterMap author).Pairwise fun a b => a.2 ≥ b.2 := by
  have hpair : (l.insertionSort fun a b => b.1 ≤ a.1).Pairwise fun a b => b.1 ≤ a.1 := by
    have : Std.Total fun a b : ℚ × Dict => b.1 ≤ a.1 := ⟨fun a b => le_total b.1 a.1⟩
    have : IsTrans (ℚ × Dict) fun a b => b.1 ≤ a.1 := ⟨fun a b c hab hbc => le_trans hbc hab⟩
    exact List.pairwise_insertionSort _ l
  rw [List.pairwise_filterMap]
  refine hpair.imp fun {a b} hle x hx y hy => ?_
  rw [author_snd hx, author_snd hy]
  exact hle

theorem latest_falling : (latest rt chain).Pairwise (· ≥ ·) := by
  unfold latest
  rw [List.pairwise_map]
  exact (sorted_falling _).sublist (firsts_sublist [] _)

theorem sorted_perm : (((timed rt chain).insertionSort fun a b => b.1 ≤ a.1).filterMap author).Perm
    (authored rt chain) := (List.perm_insertionSort _ _).filterMap author

theorem above_latest : above T (latest rt chain) = (authorsAbove rt chain T).card := by
  unfold latest authorsAbove
  rw [above_firsts (sorted_falling _)]
  congr 1
  ext k
  simp only [mem_keysAbove, sorted_perm.mem_iff]

theorem length_latest : (latest rt chain).length = (timedAuthors rt chain).card := by
  unfold latest timedAuthors
  rw [List.length_map, length_firsts (sorted_falling _)]
  congr 1
  ext k
  simp only [List.mem_toFinset, List.mem_map, sorted_perm.mem_iff]

theorem sampleLoop_latest (hn : 0 < n) :
    sampleLoop n [] [] ((timed rt chain).insertionSort fun a b => b.1 ≤ a.1) =
      (latest rt chain).take n := sampleLoop_eq _ hn

theorem exists_timed {t : ℚ} (ht : t ∈ latest rt chain) : ∃ event ∈ timed rt chain, event.1 = t := by
  obtain ⟨e, he, rfl⟩ := List.mem_map.mp ht
  have hauthored := sorted_perm.mem_iff.mp ((firsts_sublist [] _).subset he)
  obtain ⟨event, hevent, hauthor⟩ := List.mem_filterMap.mp hauthored
  exact ⟨event, hevent, (author_snd hauthor).symm⟩

theorem authored_append (more : List PyVal) :
    authored rt (chain ++ more) = authored rt chain ++ authored rt more := by
  simp [authored, timed, dicts]

theorem authorsAbove_append (more : List PyVal) :
    (authorsAbove rt chain T).card ≤ (authorsAbove rt (chain ++ more) T).card := by
  apply Finset.card_le_card
  intro k hk
  obtain ⟨e, he, hT⟩ := mem_keysAbove.mp hk
  refine mem_keysAbove.mpr ⟨e, ?_, hT⟩
  rw [authored_append]
  exact List.mem_append_left _ he

theorem authors_append (more : List PyVal) :
    (timedAuthors rt chain).card ≤ (timedAuthors rt (chain ++ more)).card := by
  apply Finset.card_le_card
  intro k hk
  unfold timedAuthors at *
  rw [authored_append, List.map_append, List.mem_toFinset]
  exact List.mem_append_left _ (List.mem_toFinset.mp hk)

end

/-! ## The median -/

/-- The timestamp has the rank among the latest timestamps of the authors, where the greatest
    has rank 0. -/
def Ranked (rt : Runtime) (chain : List PyVal) (i : Nat) (t : ℚ) : Prop :=
  (authorsAbove rt chain t).card ≤ i ∧ ∀ T < t, i < (authorsAbove rt chain T).card

/-- The sample has an even size and its two middle timestamps have an infinite sum. -/
def SumOverflows (D : Doubles) (rt : Runtime) (chain : List PyVal) (n : Int) : Prop :=
  sampleSize rt chain n % 2 = 0 ∧ ∃ a b, Ranked rt chain (sampleSize rt chain n / 2) a ∧
    Ranked rt chain (sampleSize rt chain n / 2 - 1) b ∧ D.round (a + b) = .inf

/-- The timestamps of the chain are doubles. -/
def DoubleTimes (D : Doubles) (rt : Runtime) (chain : List PyVal) : Prop :=
  ∀ event ∈ timed rt chain, D.IsDouble event.1

/-- Where only a minority of the sample has timestamps above a bound, the time is not above it. -/
def MinorityBound (D : Doubles) (rt : Runtime) (chain : List PyVal) (n : Int) : Prop :=
  ∀ T : ℚ, ((authorsAbove rt chain T).card : Int) ≤ ((sampleSize rt chain n : Int) - 1) / 2 →
    ∃ t, chainMajorityTime D rt chain n = .ok t ∧ t.le (.finite T) = true

/-- With enough authors, the time does not run backwards. -/
def NeverBackwards (D : Doubles) (rt : Runtime) (chain : List PyVal) (n : Int) : Prop :=
  n ≤ (timedAuthors rt chain).card → ∀ more, ∃ t t', chainMajorityTime D rt chain n = .ok t ∧
    chainMajorityTime D rt (chain ++ more) n = .ok t' ∧ t.le t' = true

section

variable {D : Doubles} {rt : Runtime} {chain : List PyVal} {n : Int}

theorem ranked_iff {i : Nat} {t : ℚ} (hi : i < (latest rt chain).length) :
    Ranked rt chain i t ↔ (latest rt chain).getD i 0 = t := by
  unfold Ranked
  simp only [← above_latest]
  rw [List.getD_eq_getElem _ _ hi]
  have hrank : ∀ T, T < (latest rt chain)[i] ↔ i < above T (latest rt chain) :=
    fun T => lt_getElem_iff latest_falling hi
  constructor
  · rintro ⟨habove, hbelow⟩
    apply le_antisymm
    · exact getElem_le_of_above latest_falling hi habove
    · rw [← not_lt]
      intro hlt
      exact lt_irrefl _ ((hrank _).mpr (hbelow _ hlt))
  · rintro rfl
    refine ⟨?_, fun T hT => (hrank T).mp hT⟩
    rw [← not_lt, ← hrank]
    exact lt_irrefl _

theorem median_falling {l : List ℚ} (hl : l.Pairwise (· ≥ ·)) (hpos : 0 < l.length) :
    median D l = if l.length % 2 = 1 then .finite (l.getD (l.length / 2) 0)
      else D.mean (l.getD (l.length / 2) 0) (l.getD (l.length / 2 - 1) 0) := by
  have hget : ∀ i < l.length, l.reverse.getD i 0 = l.getD (l.length - 1 - i) 0 := by
    intro i hi
    rw [List.getD_eq_getElem _ _ (by rwa [List.length_reverse]), List.getElem_reverse,
      List.getD_eq_getElem _ _ (by omega)]
  unfold median
  rw [insertionSort_eq_reverse hl]
  simp only [List.length_reverse]
  split
  · rw [hget _ (by omega)]
    congr 2
    omega
  · rw [hget _ (by omega), hget _ (by omega)]
    congr 2 <;> omega

/-- The majority time, from the latest timestamps of all authors. -/
theorem chainMajorityTime_eq (hn : 0 < n) : chainMajorityTime D rt chain n = .ok (
    if sampleSize rt chain n = 0 then .finite 0
    else if sampleSize rt chain n % 2 = 1 then
      .finite ((latest rt chain).getD (sampleSize rt chain n / 2) 0)
    else D.mean ((latest rt chain).getD (sampleSize rt chain n / 2) 0)
      ((latest rt chain).getD (sampleSize rt chain n / 2 - 1) 0)) := by
  have hlength : ((latest rt chain).take n.toNat).length = sampleSize rt chain n := by
    rw [List.length_take, length_latest]
    rfl
  have hloop := @sampleLoop_latest rt chain n.toNat (by omega)
  unfold chainMajorityTime
  rw [if_neg (not_le.mpr hn)]
  dsimp only
  rw [hloop]
  cases hsample : ((latest rt chain).take n.toNat).isEmpty with
  | true =>
    rw [List.isEmpty_iff] at hsample
    rw [hsample] at hlength
    have hzero : sampleSize rt chain n = 0 := hlength.symm
    rw [hzero]
    rfl
  | false =>
    have hpos : 0 < sampleSize rt chain n := by
      rw [← hlength, List.length_pos_iff]
      intro hnil
      rw [hnil] at hsample
      cases hsample
    have hget : ∀ i < sampleSize rt chain n,
        ((latest rt chain).take n.toNat).getD i 0 = (latest rt chain).getD i 0 := by
      intro i hi
      rw [List.getD_eq_getElem _ _ (by omega), List.getElem_take, List.getD_eq_getElem]
    rw [median_falling (latest_falling.sublist (List.take_sublist _ _)) (by omega), hlength,
      hget _ (by omega), hget _ (by omega), if_neg hpos.ne', if_neg Bool.false_ne_true]

theorem sampleSize_le : sampleSize rt chain n ≤ (latest rt chain).length := by
  rw [length_latest]
  exact min_le_right _ _

theorem latest_falls {i j : Nat} (hij : i ≤ j) (hj : j < (latest rt chain).length) :
    (latest rt chain).getD j 0 ≤ (latest rt chain).getD i 0 := by
  rw [List.getD_eq_getElem _ _ hj, List.getD_eq_getElem _ _ (lt_of_le_of_lt hij hj)]
  rcases hij.lt_or_eq with hlt | rfl
  · exact List.pairwise_iff_getElem.mp latest_falling i j _ hj hlt
  · exact le_refl _

theorem latest_le {i : Nat} {T : ℚ} (hi : i < (latest rt chain).length)
    (h : (authorsAbove rt chain T).card ≤ i) : (latest rt chain).getD i 0 ≤ T := by
  rw [List.getD_eq_getElem _ _ hi]
  exact getElem_le_of_above latest_falling hi (by rwa [above_latest])

/-- Events that are appended do not lower any rank. -/
theorem latest_append (more : List PyVal) {i : Nat} (hi : i < (latest rt chain).length) :
    (latest rt chain).getD i 0 ≤ (latest rt (chain ++ more)).getD i 0 := by
  have hi' : i < (latest rt (chain ++ more)).length := by
    rw [length_latest] at hi ⊢
    exact lt_of_lt_of_le hi (authors_append more)
  rw [List.getD_eq_getElem _ _ hi, List.getD_eq_getElem _ _ hi']
  refine getElem_le_getElem latest_falling latest_falling (fun T => ?_) hi hi'
  rw [above_latest, above_latest]
  exact authorsAbove_append more

theorem latest_double (hdoubles : DoubleTimes D rt chain) {i : Nat} (hi : i < (latest rt chain).length) :
    D.IsDouble ((latest rt chain).getD i 0) := by
  rw [List.getD_eq_getElem _ _ hi]
  obtain ⟨event, hevent, heq⟩ := exists_timed (List.getElem_mem hi)
  rw [← heq]
  exact hdoubles event hevent

theorem sumOverflows_iff (hpos : 0 < sampleSize rt chain n) : SumOverflows D rt chain n ↔
    sampleSize rt chain n % 2 = 0 ∧
      D.round ((latest rt chain).getD (sampleSize rt chain n / 2) 0 +
        (latest rt chain).getD (sampleSize rt chain n / 2 - 1) 0) = .inf := by
  have hsize := @sampleSize_le rt chain n
  unfold SumOverflows
  refine and_congr_right fun heven => ?_
  constructor
  · rintro ⟨a, b, ha, hb, hsum⟩
    rw [(ranked_iff (by omega)).mp ha, (ranked_iff (by omega)).mp hb]
    exact hsum
  · intro hsum
    exact ⟨_, _, (ranked_iff (by omega)).mpr rfl, (ranked_iff (by omega)).mpr rfl, hsum⟩

theorem minorityBound (hn : 0 < n) (hdoubles : DoubleTimes D rt chain)
    (hsum : ¬ SumOverflows D rt chain n) : MinorityBound D rt chain n := by
  intro T hT
  refine ⟨_, chainMajorityTime_eq hn, ?_⟩
  have hsize := @sampleSize_le rt chain n
  have hpos : 0 < sampleSize rt chain n := by omega
  rw [if_neg hpos.ne']
  split
  · rw [PyFloat.finite_le]
    exact latest_le (by omega) (by omega)
  · rename_i hodd
    have hfalls : (latest rt chain).getD (sampleSize rt chain n / 2) 0 ≤
        (latest rt chain).getD (sampleSize rt chain n / 2 - 1) 0 := latest_falls (by omega) (by omega)
    rw [sumOverflows_iff hpos, not_and] at hsum
    have hmean := Doubles.mean_le hfalls (latest_double hdoubles (by omega)) (hsum (by omega))
    have hbound : (latest rt chain).getD (sampleSize rt chain n / 2 - 1) 0 ≤ T :=
      latest_le (by omega) (by omega)
    rw [PyFloat.le_place Doubles.mean_ne_nan (by simp)]
    exact le_trans hmean (Doubles.finite_place_le.mpr hbound)

theorem neverBackwards (hn : 0 < n) : NeverBackwards D rt chain n := by
  intro hauthors more
  refine ⟨_, _, chainMajorityTime_eq hn, chainMajorityTime_eq hn, ?_⟩
  have happend := @authors_append rt chain more
  have hsize : sampleSize rt chain n = n.toNat := min_eq_left (by omega)
  have hsize' : sampleSize rt (chain ++ more) n = n.toNat := min_eq_left (by omega)
  have hlength : n.toNat ≤ (latest rt chain).length := by
    rw [length_latest]
    omega
  have hpos : n.toNat ≠ 0 := by omega
  rw [hsize, hsize', if_neg hpos, if_neg hpos]
  split
  · rw [PyFloat.finite_le]
    exact latest_append more (by omega)
  · rw [PyFloat.le_place Doubles.mean_ne_nan Doubles.mean_ne_nan]
    exact Doubles.mean_mono (latest_append more (by omega)) (latest_append more (by omega))

/-- An infinite mean is above the greatest timestamp, which no author is above. -/
theorem not_minorityBound (hn : 0 < n) (hsum : SumOverflows D rt chain n) :
    ¬ MinorityBound D rt chain n := by
  intro hbound
  have hpos : 0 < sampleSize rt chain n := by
    obtain ⟨-, a, b, -, ⟨-, hbelow⟩, -⟩ := hsum
    have hcount := hbelow (b - 1) (by linarith)
    have habove : (authorsAbove rt chain (b - 1)).card ≤ (timedAuthors rt chain).card := by
      rw [← above_latest, ← length_latest]
      exact List.countP_le_length
    exact lt_min (by omega) (by omega)
  have hsize := @sampleSize_le rt chain n
  rw [sumOverflows_iff hpos] at hsum
  obtain ⟨heven, hsum⟩ := hsum
  have hnone : (authorsAbove rt chain ((latest rt chain).getD 0 0)).card ≤ 0 :=
    ((ranked_iff (by omega)).mpr rfl).1
  obtain ⟨t, ht, hle⟩ := hbound ((latest rt chain).getD 0 0) (by omega)
  rw [chainMajorityTime_eq hn, if_neg hpos.ne', if_neg (by omega), Doubles.mean_overflow hsum] at ht
  cases ht
  cases hle

end

/-- From here on a sum is infinite. -/
def overflowBound : ℚ := (2 ^ 1024 - 2 ^ 970 : Nat)

/-- Doubles that overflow, and are exact otherwise. -/
def exactDoubles : Doubles where
  round q := if overflowBound ≤ q then .inf else if q ≤ -overflowBound then .negInf else .finite q
  round_ne_nan q := by
    split
    · simp
    · split <;> simp
  round_mono a b hab := by
    rcases le_or_gt overflowBound b with hb | hb
    · rw [if_pos hb]
      split
      · exact le_refl _
      · split <;> simp [PyFloat.place]
    · rw [if_neg (not_le.mpr hb), if_neg (not_le.mpr (lt_of_le_of_lt hab hb))]
      rcases le_or_gt a (-overflowBound) with ha | ha
      · rw [if_pos ha]
        exact bot_le
      · rw [if_neg (not_le.mpr ha), if_neg (not_le.mpr (lt_of_lt_of_le ha hab))]
        exact Doubles.finite_place_le.mpr hab
  round_double b x y _ hx hy := by
    split at hy
    · cases hy
    · split at hy
      · cases hy
      · cases hy
        exact hx

def stampedBy (node : String) (timestamp : PyFloat) : PyVal :=
  .dict [("node_id", .str node), ("timestamp", .float timestamp)]

/-- Ana twice, bob and eve. -/
def threeAuthors : List PyVal :=
  [stampedBy "ana" (.finite 1), stampedBy "bob" (.finite 5), stampedBy "ana" (.finite 3),
    stampedBy "eve" (.finite 2), stampedBy "eve" .inf]

/-- Two authors at half the greatest power of two. -/
def hugeAuthors : List PyVal :=
  [stampedBy "ana" (.finite (2 ^ 1023 : Nat)), stampedBy "bob" (.finite (2 ^ 1023 : Nat))]

end Vincent.Economy
