-- SUMMARY: What the root of a Merkle tree says about its leaves.
import Mathlib.Data.List.Nodup
import Mathlib.Data.Set.Function
import Vincent.General.MerkleTree

/-!
# What a Merkle root binds

A level of odd length pairs its last digest with itself. Where no two pairs that are
hashed collide and no leaf is a pair, two lists without repeats that have one root are
the same, and a proof is about the leaf that its sides lead to.
-/

namespace Vincent.Merkle

universe u

variable {δ : Type u} (pair : δ → δ → δ)

/-! ## Pairs -/

/-- The pairs that a level is hashed in. -/
def pairsOf : List δ → List (δ × δ)
  | [] => []
  | [a] => [(a, a)]
  | a :: b :: rest => (a, b) :: pairsOf rest

/-- A pair, hashed. -/
def joined (p : δ × δ) : δ := pair p.1 p.2

theorem parents_eq (level : List δ) : parents pair level = (pairsOf level).map (joined pair) := by
  induction level using parents.induct with
  | case1 => rfl
  | case2 a => rfl
  | case3 a b rest ih =>
    rw [parents, ih]
    rfl

/-- The pairs laid out again are the level, and its last digest once more where
    the level is odd. -/
theorem flatten_pairsOf (level : List δ) :
    ∃ rest, (pairsOf level).flatMap (fun p => [p.1, p.2]) = level ++ rest ∧ rest ⊆ level := by
  induction level using parents.induct with
  | case1 => exact ⟨[], rfl, List.nil_subset _⟩
  | case2 a => exact ⟨[a], rfl, List.Subset.refl _⟩
  | case3 a b rest ih =>
    obtain ⟨more, hmore, hsub⟩ := ih
    refine ⟨more, ?_, ?_⟩
    · rw [pairsOf, List.flatMap_cons, hmore]
      rfl
    · intro c hc
      exact List.mem_cons_of_mem _ (List.mem_cons_of_mem _ (hsub hc))

/-- Both parts of a pair are in the level. -/
theorem mem_of_mem_pairsOf {level : List δ} {p : δ × δ} (h : p ∈ pairsOf level) :
    p.1 ∈ level ∧ p.2 ∈ level := by
  obtain ⟨rest, hrest, hsub⟩ := flatten_pairsOf level
  have hpart : ∀ c ∈ [p.1, p.2], c ∈ level := by
    intro c hc
    have hmem : c ∈ level ++ rest := hrest ▸ List.mem_flatMap.mpr ⟨p, h, hc⟩
    exact (List.mem_append.mp hmem).elim id fun hc => hsub hc
  exact ⟨hpart p.1 (by simp), hpart p.2 (by simp)⟩

/-- All pairs that are hashed above a level. -/
def pairsIn (level : List δ) : List (δ × δ) :=
  if 1 < level.length then pairsOf level ++ pairsIn (parents pair level) else []
termination_by level.length
decreasing_by
  rw [parents_length]
  omega

variable {pair}

theorem pairsIn_of_long {level : List δ} (h : 1 < level.length) :
    pairsIn pair level = pairsOf level ++ pairsIn pair (parents pair level) := by
  rw [pairsIn, if_pos h]

theorem root?_of_long {level : List δ} (h : 1 < level.length) :
    root? (levels pair level) = root? (levels pair (parents pair level)) := by
  obtain ⟨above, rest, habove⟩ := List.exists_cons_of_ne_nil (levels_ne_nil pair (parents pair level))
  rw [levels, if_pos h, habove]
  rfl

theorem root?_of_short {level : List δ} (h : ¬ 1 < level.length) :
    root? (levels pair level) = level.head? := by
  rw [levels, if_neg h]
  rfl

/-- The number of levels above a level. -/
def height (pair : δ → δ → δ) (level : List δ) : Nat :=
  if 1 < level.length then height pair (parents pair level) + 1 else 0
termination_by level.length
decreasing_by
  rw [parents_length]
  omega

theorem height_of_long {level : List δ} (h : 1 < level.length) :
    height pair level = height pair (parents pair level) + 1 := by
  rw [height, if_pos h]

theorem height_of_short {level : List δ} (h : ¬ 1 < level.length) : height pair level = 0 := by
  rw [height, if_neg h]

theorem levels_eq_cons (level : List δ) : ∃ above, levels pair level = level :: above := by
  rw [levels]
  split
  · exact ⟨_, rfl⟩
  · exact ⟨[], rfl⟩

theorem levels_length (level : List δ) : (levels pair level).length = height pair level + 1 := by
  induction level using levels.induct pair with
  | case1 level hlong ih => rw [levels, if_pos hlong, height_of_long hlong, List.length_cons, ih]
  | case2 level hshort =>
    rw [levels, if_neg hshort, height_of_short hshort]
    rfl

theorem parents_ne_nil {level : List δ} (h : 1 < level.length) : parents pair level ≠ [] := by
  have hlength := parents_length pair level
  intro hnil
  rw [hnil, List.length_nil] at hlength
  omega

/-! ## Equal roots -/

/-- Both lists are starts of one, which repeats each of them after its end. -/
def SamePadded (xs ys : List δ) : Prop := ∃ r s, xs ++ r = ys ++ s ∧ r ⊆ xs ∧ s ⊆ ys

theorem SamePadded.eq {xs ys : List δ} (h : SamePadded xs ys) (hxs : xs.Nodup) (hys : ys.Nodup) :
    xs = ys := by
  have hstart : ∀ {as bs : List δ}, SamePadded as bs → bs.Nodup → as <+: bs → as = bs := by
    rintro as bs ⟨r, s, heq, hr, hs⟩ hbs ⟨t, rfl⟩
    have hmore : r = t ++ s := by
      rw [List.append_assoc] at heq
      exact List.append_cancel_left heq
    have hnil : t = [] := by
      rw [List.eq_nil_iff_forall_not_mem]
      intro a ha
      have hbefore : a ∈ as := hr (hmore ▸ List.mem_append_left _ ha)
      exact (List.nodup_append'.mp hbs).2.2 hbefore ha
    rw [hnil, List.append_nil]
  obtain ⟨r, s, heq, hr, hs⟩ := h
  rcases List.prefix_or_prefix_of_prefix (List.prefix_append xs r) (heq ▸ List.prefix_append ys s) with
    hpre | hpre
  · exact hstart ⟨r, s, heq, hr, hs⟩ hys hpre
  · exact (hstart ⟨s, r, heq.symm, hs, hr⟩ hxs hpre).symm

theorem map_injOn {α β : Type u} {f : α → β} {S : Set α} (hinj : S.InjOn f) {as bs : List α}
    (has : ∀ a ∈ as, a ∈ S) (hbs : ∀ b ∈ bs, b ∈ S) (h : as.map f = bs.map f) : as = bs := by
  induction as generalizing bs with
  | nil => exact (List.map_eq_nil_iff.mp h.symm).symm
  | cons a as ih =>
    cases bs with
    | nil => cases h
    | cons b bs =>
      obtain ⟨hhead, htail⟩ := List.cons.inj h
      have hab : a = b := hinj (has a List.mem_cons_self) (hbs b List.mem_cons_self) hhead
      rw [hab, ih (fun c hc => has c (List.mem_cons_of_mem a hc))
        (fun c hc => hbs c (List.mem_cons_of_mem b hc)) htail]

/-- The pairs of a level and some of them once more, laid out. -/
theorem flatten_append {level : List δ} {ps : List (δ × δ)} (hps : ps ⊆ pairsOf level) :
    ∃ rest, (pairsOf level ++ ps).flatMap (fun p => [p.1, p.2]) = level ++ rest ∧ rest ⊆ level := by
  obtain ⟨rest, hrest, hsub⟩ := flatten_pairsOf level
  refine ⟨rest ++ ps.flatMap fun p => [p.1, p.2], ?_, ?_⟩
  · rw [List.flatMap_append, hrest, List.append_assoc]
  · intro c hc
    rcases List.mem_append.mp hc with hc | hc
    · exact hsub hc
    · obtain ⟨p, hp, hc⟩ := List.mem_flatMap.mp hc
      obtain ⟨hleft, hright⟩ := mem_of_mem_pairsOf (hps hp)
      simp only [List.mem_cons, List.not_mem_nil, or_false] at hc
      rcases hc with rfl | rfl
      · exact hleft
      · exact hright

/-- What is the same above is the same below, where the pairs do not collide. -/
theorem SamePadded.below {S : Set (δ × δ)} (hinj : S.InjOn (joined pair)) {xs ys : List δ}
    (hxs : ∀ p ∈ pairsOf xs, p ∈ S) (hys : ∀ p ∈ pairsOf ys, p ∈ S)
    (h : SamePadded (parents pair xs) (parents pair ys)) : SamePadded xs ys := by
  obtain ⟨r, s, heq, hr, hs⟩ := h
  rw [parents_eq] at heq hr
  rw [parents_eq] at heq hs
  have hlift : ∀ {t : List δ} {zs : List δ}, t ⊆ (pairsOf zs).map (joined pair) →
      ∃ ps, ps ⊆ pairsOf zs ∧ t = ps.map (joined pair) := by
    intro t zs ht
    induction t with
    | nil => exact ⟨[], List.nil_subset _, rfl⟩
    | cons a t ih =>
      obtain ⟨ps, hps, rfl⟩ := ih fun b hb => ht (List.mem_cons_of_mem _ hb)
      obtain ⟨p, hp, rfl⟩ := List.mem_map.mp (ht List.mem_cons_self)
      exact ⟨p :: ps, List.cons_subset.mpr ⟨hp, hps⟩, rfl⟩
  obtain ⟨ps, hps, rfl⟩ := hlift hr
  obtain ⟨qs, hqs, rfl⟩ := hlift hs
  rw [← List.map_append, ← List.map_append] at heq
  have hmem : ∀ {zs : List δ} {ts : List (δ × δ)}, (∀ p ∈ pairsOf zs, p ∈ S) → ts ⊆ pairsOf zs →
      ∀ p ∈ pairsOf zs ++ ts, p ∈ S := by
    intro zs ts hzs hts p hp
    exact (List.mem_append.mp hp).elim (hzs p) fun hp => hzs p (hts hp)
  have hsame : pairsOf xs ++ ps = pairsOf ys ++ qs :=
    map_injOn hinj (hmem hxs hps) (hmem hys hqs) heq
  obtain ⟨r, hr, hrsub⟩ := flatten_append hps
  obtain ⟨s, hs, hssub⟩ := flatten_append hqs
  exact ⟨r, s, by rw [← hr, ← hs, hsame], hrsub, hssub⟩

/-- Trees of one height with one root have the same leaves, but for repeats. -/
theorem samePadded_of_root {S : Set (δ × δ)} (hinj : S.InjOn (joined pair)) {xs ys : List δ}
    (hxs : ∀ p ∈ pairsIn pair xs, p ∈ S) (hys : ∀ p ∈ pairsIn pair ys, p ∈ S) (hxs_ne : xs ≠ [])
    (hys_ne : ys ≠ []) (hheight : height pair xs = height pair ys)
    (hroot : root? (levels pair xs) = root? (levels pair ys)) : SamePadded xs ys := by
  induction xs using levels.induct pair generalizing ys with
  | case1 xs hlong ih =>
    rw [height_of_long hlong] at hheight
    have hlong' : 1 < ys.length := by
      by_contra hshort
      rw [height_of_short hshort] at hheight
      cases hheight
    rw [height_of_long hlong'] at hheight
    rw [root?_of_long hlong, root?_of_long hlong'] at hroot
    rw [pairsIn_of_long hlong] at hxs
    rw [pairsIn_of_long hlong'] at hys
    refine SamePadded.below hinj (fun p hp => hxs p (List.mem_append_left _ hp))
      (fun p hp => hys p (List.mem_append_left _ hp)) (ih ?_ ?_ ?_ ?_ ?_ hroot)
    · exact fun p hp => hxs p (List.mem_append_right _ hp)
    · exact fun p hp => hys p (List.mem_append_right _ hp)
    · exact parents_ne_nil hlong
    · exact parents_ne_nil hlong'
    · omega
  | case2 xs hshort =>
    rw [height_of_short hshort] at hheight
    have hshort' : ¬ 1 < ys.length := by
      intro hlong
      rw [height_of_long hlong] at hheight
      cases hheight
    rw [root?_of_short hshort, root?_of_short hshort'] at hroot
    obtain ⟨a, rfl⟩ := List.length_eq_one_iff.mp
      (le_antisymm (not_lt.mp hshort) (List.length_pos_iff.mpr hxs_ne))
    obtain ⟨b, rfl⟩ := List.length_eq_one_iff.mp
      (le_antisymm (not_lt.mp hshort') (List.length_pos_iff.mpr hys_ne))
    cases hroot
    exact ⟨[], [], rfl, List.nil_subset _, List.nil_subset _⟩

/-! ## Heights -/

/-- The digest stands `k` levels above leaves. -/
inductive Above (pair : δ → δ → δ) (S : Set (δ × δ)) (L : Set δ) : Nat → δ → Prop
  | leaf {d : δ} (h : d ∈ L) : Above pair S L 0 d
  | pair {k : Nat} {p : δ × δ} (h : p ∈ S) (hleft : Above pair S L k p.1)
    (hright : Above pair S L k p.2) : Above pair S L (k + 1) (joined pair p)

/-- Where pairs do not collide, with each other or with leaves, a digest stands at
    one height only. -/
theorem Above.unique {S : Set (δ × δ)} {L : Set δ} (hinj : S.InjOn (joined pair))
    (hleaf : ∀ d ∈ L, ∀ p ∈ S, d ≠ joined pair p) {j k : Nat} {d : δ} (hj : Above pair S L j d)
    (hk : Above pair S L k d) : j = k := by
  induction hj generalizing k with
  | leaf hd =>
    cases hk with
    | leaf _ => rfl
    | pair hp _ _ => exact absurd rfl (hleaf _ hd _ hp)
  | @pair j p hp _ _ ih _ =>
    generalize hd : joined pair p = d at hk
    cases hk with
    | leaf hleaf' => exact absurd hd.symm (hleaf _ hleaf' _ hp)
    | @pair k q hq hleft _ =>
      have hsame : p = q := hinj hp hq hd
      rw [ih (hsame ▸ hleft)]

theorem above_root {S : Set (δ × δ)} {L : Set δ} {level : List δ} {k : Nat} {r : δ}
    (hlevel : ∀ d ∈ level, Above pair S L k d) (hpairs : ∀ p ∈ pairsIn pair level, p ∈ S)
    (hroot : root? (levels pair level) = some r) : Above pair S L (k + height pair level) r := by
  induction level using levels.induct pair generalizing k with
  | case1 level hlong ih =>
    rw [root?_of_long hlong] at hroot
    rw [pairsIn_of_long hlong] at hpairs
    rw [height_of_long hlong, ← Nat.add_assoc, Nat.add_right_comm]
    apply ih _ (fun p hp => hpairs p (List.mem_append_right _ hp)) hroot
    intro d hd
    rw [parents_eq] at hd
    obtain ⟨p, hp, rfl⟩ := List.mem_map.mp hd
    obtain ⟨hleft, hright⟩ := mem_of_mem_pairsOf hp
    exact .pair (hpairs p (List.mem_append_left _ hp)) (hlevel _ hleft) (hlevel _ hright)
  | case2 level hshort =>
    rw [root?_of_short hshort] at hroot
    rw [height_of_short hshort]
    exact hlevel r (List.mem_of_mem_head? hroot)

theorem root?_isSome {level : List δ} (h : level ≠ []) : ∃ r, root? (levels pair level) = some r := by
  induction level using levels.induct pair with
  | case1 level hlong ih =>
    rw [root?_of_long hlong]
    exact ih (parents_ne_nil hlong)
  | case2 level hshort =>
    rw [root?_of_short hshort]
    exact ⟨_, List.head?_eq_some_head h⟩

/-- Lists without repeats that have one root are equal. -/
theorem eq_of_root_eq {S : Set (δ × δ)} {L : Set δ} (hinj : S.InjOn (joined pair))
    (hleaf : ∀ d ∈ L, ∀ p ∈ S, d ≠ joined pair p) {xs ys : List δ}
    (hxs : ∀ p ∈ pairsIn pair xs, p ∈ S) (hys : ∀ p ∈ pairsIn pair ys, p ∈ S) (hxsL : ∀ d ∈ xs, d ∈ L)
    (hysL : ∀ d ∈ ys, d ∈ L) (hxs_ne : xs ≠ []) (hys_ne : ys ≠ []) (hxs_nodup : xs.Nodup)
    (hys_nodup : ys.Nodup) (hroot : root? (levels pair xs) = root? (levels pair ys)) : xs = ys := by
  obtain ⟨r, hr⟩ := @root?_isSome δ pair xs hxs_ne
  have hxsAbove := above_root (fun d hd => Above.leaf (hxsL d hd)) hxs hr
  have hysAbove := above_root (fun d hd => Above.leaf (hysL d hd)) hys (hroot ▸ hr)
  rw [Nat.zero_add] at hxsAbove hysAbove
  have hheight := hxsAbove.unique hinj hleaf hysAbove
  exact (samePadded_of_root hinj hxs hys hxs_ne hys_ne hheight hroot).eq hxs_nodup hys_nodup

/-- What the hashed pairs are made of has what the leaves and the hashes have. -/
theorem pairsIn_forall {P : δ → Prop} {level : List δ} (hlevel : ∀ d ∈ level, P d)
    (hpair : ∀ a b, P (pair a b)) : ∀ p ∈ pairsIn pair level, P p.1 ∧ P p.2 := by
  induction level using levels.induct pair with
  | case1 level hlong ih =>
    intro p hp
    rw [pairsIn_of_long hlong] at hp
    rcases List.mem_append.mp hp with hp | hp
    · obtain ⟨hleft, hright⟩ := mem_of_mem_pairsOf hp
      exact ⟨hlevel _ hleft, hlevel _ hright⟩
    · refine ih ?_ p hp
      intro d hd
      rw [parents_eq] at hd
      obtain ⟨q, -, rfl⟩ := List.mem_map.mp hd
      exact hpair q.1 q.2
  | case2 level hshort =>
    intro p hp
    rw [pairsIn, if_neg hshort] at hp
    cases hp

/-- So does the root. -/
theorem root?_forall {P : δ → Prop} {level : List δ} {r : δ} (hlevel : ∀ d ∈ level, P d)
    (hpair : ∀ a b, P (pair a b)) (h : root? (levels pair level) = some r) : P r := by
  induction level using levels.induct pair with
  | case1 level hlong ih =>
    rw [root?_of_long hlong] at h
    refine ih ?_ h
    intro d hd
    rw [parents_eq] at hd
    obtain ⟨p, -, rfl⟩ := List.mem_map.mp hd
    exact hpair p.1 p.2
  | case2 level hshort =>
    rw [root?_of_short hshort] at h
    exact hlevel r (List.mem_of_mem_head? h)

/-! ## Openings -/

/-- The pair that a step of a proof hashes. -/
def stepPair (current : δ) : δ × Side → δ × δ
  | (sibling, .left) => (sibling, current)
  | (sibling, .right) => (current, sibling)

/-- The pairs that the steps of a proof hash. -/
def openedPairs (pair : δ → δ → δ) (current : δ) : List (δ × Side) → List (δ × δ)
  | [] => []
  | step :: steps =>
    stepPair current step :: openedPairs pair (joined pair (stepPair current step)) steps

theorem fold_step (current : δ) (step : δ × Side) (steps : List (δ × Side)) :
    fold pair current (step :: steps) = fold pair (joined pair (stepPair current step)) steps := by
  obtain ⟨sibling, side⟩ := step
  cases side <;> rfl

/-- One part of a hashed pair is a digest that was hashed before. -/
theorem openedPairs_forall {P : δ → Prop} {current : δ} (hcurrent : P current)
    (hpair : ∀ a b, P (pair a b)) (steps : List (δ × Side)) :
    ∀ p ∈ openedPairs pair current steps, P p.1 ∨ P p.2 := by
  induction steps generalizing current with
  | nil =>
    intro p hp
    cases hp
  | cons step steps ih =>
    intro p hp
    rcases List.mem_cons.mp hp with rfl | hp
    · obtain ⟨sibling, side⟩ := step
      cases side with
      | left => exact .inr hcurrent
      | right => exact .inl hcurrent
    · exact ih (hpair _ _) p hp

/-- Where a sibling stands against the digest: a left sibling makes it the second of
    its pair. -/
def Side.bit : Side → Nat
  | .left => 1
  | .right => 0

/-- The leaf of a tree with `n` leaves that the sides of a proof lead to. The last
    leaf of an odd level is both parts of its pair. -/
def lead (n : Nat) : List Side → Nat
  | [] => 0
  | side :: sides => min (2 * lead ((n + 1) / 2) sides + side.bit) (n - 1)

/-- The part of a pair that the side of its sibling leaves. -/
def part (p : δ × δ) : Side → δ
  | .left => p.2
  | .right => p.1

theorem part_stepPair (current : δ) (step : δ × Side) :
    part (stepPair current step) step.2 = current := by
  obtain ⟨sibling, side⟩ := step
  cases side <;> rfl

/-- A part of a pair is the digest below it that the side leads to. -/
theorem pairsOf_getElem? {level : List δ} {k : Nat} {p : δ × δ} (h : (pairsOf level)[k]? = some p)
    (side : Side) : level[min (2 * k + side.bit) (level.length - 1)]? = some (part p side) := by
  induction level using parents.induct generalizing k with
  | case1 => simp [pairsOf] at h
  | case2 a =>
    obtain ⟨rfl, rfl⟩ : k = 0 ∧ (a, a) = p := by
      cases k <;> simp_all [pairsOf]
    cases side <;> rfl
  | case3 a b rest ih =>
    cases k with
    | zero =>
      obtain rfl : (a, b) = p := by simpa [pairsOf] using h
      cases side <;> simp [Side.bit, part]
    | succ k =>
      have hbelow := ih (k := k) (by simpa [pairsOf] using h)
      have hrest : rest ≠ [] := by
        rintro rfl
        simp at hbelow
      have hlength : 0 < rest.length := List.length_pos_iff.mpr hrest
      have hplace : min (2 * (k + 1) + side.bit) ((a :: b :: rest).length - 1) =
          min (2 * k + side.bit) (rest.length - 1) + 2 := by
        simp only [List.length_cons]
        omega
      rw [hplace]
      simpa using hbelow

theorem mem_pairsIn_of_getElem? {level : List δ} (hlong : 1 < level.length) {k : Nat} {p : δ × δ}
    (h : (pairsOf level)[k]? = some p) : p ∈ pairsIn pair level := by
  rw [pairsIn_of_long hlong]
  exact List.mem_append_left _ (List.mem_of_getElem? h)

/-- The digest of a level above is a hashed pair. -/
theorem parents_eq_some {level : List δ} {k : Nat} {d : δ} (h : (parents pair level)[k]? = some d) :
    ∃ p, (pairsOf level)[k]? = some p ∧ joined pair p = d := by
  rw [parents_eq, List.getElem?_map] at h
  exact Option.map_eq_some_iff.mp h

/-- A proof that folds to the root opens the leaf that its sides lead to, unless a
    pair that it hashes collides with one of the tree. -/
theorem opened_of_root {level : List δ} {current : δ} {steps : List (δ × Side)}
    (hlength : steps.length = height pair level)
    (hinj : ∀ p ∈ openedPairs pair current steps, ∀ q ∈ pairsIn pair level,
      joined pair p = joined pair q → p = q)
    (hroot : root? (levels pair level) = some (fold pair current steps)) :
    level[lead level.length (steps.map (·.2))]? = some current := by
  induction level using levels.induct pair generalizing current steps with
  | case1 level hlong ih =>
    rw [height_of_long hlong] at hlength
    rw [root?_of_long hlong] at hroot
    cases steps with
    | nil => cases hlength
    | cons step steps =>
      rw [fold_step] at hroot
      have habove := ih (Nat.succ.inj hlength)
        (fun p hp q hq => hinj p (List.mem_cons_of_mem _ hp) q
          (pairsIn_of_long hlong ▸ List.mem_append_right _ hq)) hroot
      obtain ⟨p, hp, hjoined⟩ := parents_eq_some habove
      have hsame : stepPair current step = p :=
        hinj _ List.mem_cons_self p (mem_pairsIn_of_getElem? hlong hp) hjoined.symm
      have hbelow := pairsOf_getElem? hp step.2
      rw [← hsame, part_stepPair, parents_length] at hbelow
      exact hbelow
  | case2 level hshort =>
    rw [height_of_short hshort] at hlength
    rw [root?_of_short hshort, List.head?_eq_getElem?] at hroot
    rw [List.length_eq_zero_iff.mp hlength] at hroot ⊢
    exact hroot

/-- Any sides lead to a leaf, and are those of a proof of it that hashes what the
    tree hashes. -/
theorem exists_opening {level : List δ} (hlevel : level ≠ []) (sides : List Side)
    (hlength : sides.length = height pair level) :
    ∃ current steps, steps.map (·.2) = sides ∧
      level[lead level.length sides]? = some current ∧
      openedPairs pair current steps ⊆ pairsIn pair level ∧
      root? (levels pair level) = some (fold pair current steps) := by
  induction level using levels.induct pair generalizing sides with
  | case1 level hlong ih =>
    rw [height_of_long hlong] at hlength
    rw [root?_of_long hlong]
    cases sides with
    | nil => cases hlength
    | cons side sides =>
      obtain ⟨digest, steps, rfl, habove, hopened, hroot⟩ :=
        ih (parents_ne_nil hlong) sides (Nat.succ.inj hlength)
      obtain ⟨p, hp, rfl⟩ := parents_eq_some habove
      have hstep : ∃ sibling, stepPair (part p side) (sibling, side) = p := by
        cases side with
        | left => exact ⟨p.1, rfl⟩
        | right => exact ⟨p.2, rfl⟩
      obtain ⟨sibling, hstep⟩ := hstep
      refine ⟨part p side, (sibling, side) :: steps, rfl, ?_, ?_, ?_⟩
      · have hbelow := pairsOf_getElem? hp side
        rw [parents_length] at hbelow
        exact hbelow
      · rw [openedPairs, hstep]
        refine List.cons_subset.mpr ⟨mem_pairsIn_of_getElem? hlong hp, fun q hq => ?_⟩
        rw [pairsIn_of_long hlong]
        exact List.mem_append_right _ (hopened hq)
      · rw [fold_step, hstep]
        exact hroot
  | case2 level hshort =>
    rw [height_of_short hshort] at hlength
    rw [List.length_eq_zero_iff.mp hlength, root?_of_short hshort]
    obtain ⟨a, rest, rfl⟩ := List.exists_cons_of_ne_nil hlevel
    exact ⟨a, [], rfl, rfl, List.nil_subset _, rfl⟩

end Vincent.Merkle
