-- SUMMARY: Chains of checks in `Except`: a failed check stops the chain with its error.
import Mathlib.Data.List.Perm.Basic

/-!
# Chains of checks

A validator is a list of checks in a fixed order, where the first one that fails
decides the error. `require` is one such check, and the lemmas below turn "the
chain succeeds" into the conjunction of its checks.
-/

namespace Vincent.Check

variable {ε ε' α β : Type}

/-- Go on if `c` holds, stop with `e` otherwise. -/
def require (c : Prop) [Decidable c] (e : ε) : Except ε Unit :=
  if c then .ok () else .error e

/-- Make a check only where `c` holds. -/
def onlyIf (c : Prop) [Decidable c] (x : Except ε Unit) : Except ε Unit :=
  if c then x else .ok ()

/-- Rename the error of a computation. -/
def orFail (x : Except ε α) (f : ε → ε') : Except ε' α :=
  match x with
  | .ok a => .ok a
  | .error e => .error (f e)

theorem eq_mk_of_snd {p : α × β} {b : β} (h : p.2 = b) : p = (p.1, b) := by rw [← h]

/-- The computation succeeds with a value that satisfies `p`. -/
def okAnd (x : Except ε α) (p : α → Bool) : Bool :=
  match x with
  | .ok a => p a
  | .error _ => false

theorem okAnd_iff {x : Except ε α} {p : α → Bool} :
    okAnd x p = true ↔ ∃ a, x = .ok a ∧ p a = true := by
  cases x <;> simp [okAnd]

/-- The list has one element, which satisfies `p`. -/
def onSingle (xs : List α) (p : α → Bool) : Bool :=
  match xs with
  | [x] => p x
  | _ => false

theorem onSingle_iff {xs : List α} {p : α → Bool} :
    onSingle xs p = true ↔ ∃ x, xs = [x] ∧ p x = true := by
  rcases xs with _ | ⟨x, _ | ⟨y, rest⟩⟩ <;> simp [onSingle]

/-- A first element and the others. -/
def onCons (xs : List α) (p : α → List α → Bool) : Bool :=
  match xs with
  | x :: rest => p x rest
  | [] => false

theorem onCons_iff {xs : List α} {p : α → List α → Bool} :
    onCons xs p = true ↔ ∃ x rest, xs = x :: rest ∧ p x rest = true := by
  cases xs <;> simp [onCons]

@[simp] theorem require_eq_ok {c : Prop} [Decidable c] {e : ε} {u : Unit} :
    require c e = .ok u ↔ c := by
  unfold require
  split <;> simp_all

@[simp] theorem require_true {e : ε} : require True e = .ok () := by simp [require]

@[simp] theorem onlyIf_eq_ok {c : Prop} [Decidable c] {x : Except ε Unit} :
    onlyIf c x = .ok () ↔ (c → x = .ok ()) := by
  unfold onlyIf
  split <;> simp_all

@[simp] theorem orFail_eq_ok {x : Except ε α} {f : ε → ε'} {a : α} :
    orFail x f = .ok a ↔ x = .ok a := by
  cases x <;> simp [orFail]

@[simp] theorem bind_eq_ok {x : Except ε α} {f : α → Except ε β} {b : β} :
    (x >>= f) = .ok b ↔ ∃ a, x = .ok a ∧ f a = .ok b := by
  cases x <;> simp [bind, Except.bind]

theorem bind_eq_error {x : Except ε α} {f : α → Except ε β} {e : ε} :
    (x >>= f) = .error e ↔ x = .error e ∨ ∃ a, x = .ok a ∧ f a = .error e := by
  cases x <;> simp [bind, Except.bind]

theorem map_eq_ok {x : Except ε α} {f : α → β} {b : β} :
    x.map f = .ok b ↔ ∃ a, x = .ok a ∧ f a = b := by
  cases x <;> simp [Except.map]

@[simp] theorem pure_eq_ok {a b : α} : (pure a : Except ε α) = .ok b ↔ a = b := by
  simp [pure, Except.pure]

/-- A loop fails at an element that it reaches. -/
theorem foldlM_eq_error {σ : Type} {f : σ → α → Except ε σ} {s : σ} {xs : List α} {e : ε} :
    xs.foldlM f s = .error e ↔ ∃ pre x post, xs = pre ++ x :: post ∧
      ∃ s', pre.foldlM f s = .ok s' ∧ f s' x = .error e := by
  induction xs generalizing s with
  | nil => simp [pure, Except.pure]
  | cons x xs ih =>
    rw [List.foldlM_cons, bind_eq_error]
    constructor
    · rintro (h | ⟨s₁, hs₁, h⟩)
      · exact ⟨[], x, xs, rfl, s, rfl, h⟩
      · obtain ⟨pre, y, post, rfl, s', hpre, hy⟩ := ih.mp h
        refine ⟨x :: pre, y, post, rfl, s', ?_, hy⟩
        rw [List.foldlM_cons, hs₁]
        exact hpre
    · rintro ⟨pre, y, post, hsplit, s', hpre, hy⟩
      cases pre with
      | nil =>
        cases hsplit
        cases hpre
        exact Or.inl hy
      | cons x' pre =>
        cases hsplit
        rw [List.foldlM_cons] at hpre
        cases hs₁ : f s x with
        | error e' => rw [hs₁] at hpre; cases hpre
        | ok s₁ =>
          rw [hs₁] at hpre
          exact Or.inr ⟨s₁, rfl, ih.mpr ⟨pre, y, post, rfl, s', hpre, hy⟩⟩

/-- A loop does not see an element that changes no state that the loop can reach. -/
theorem foldlM_insert_of {σ : Type} {f : σ → α → Except ε σ} {x : α} {I : σ → Prop}
    (hstep : ∀ s a s', I s → f s a = .ok s' → I s') (hx : ∀ s, I s → f s x = .ok s)
    {pre post : List α} {s : σ} (hs : I s) :
    (pre ++ x :: post).foldlM f s = (pre ++ post).foldlM f s := by
  induction pre generalizing s with
  | nil =>
    rw [List.nil_append, List.nil_append, List.foldlM_cons, hx s hs]
    rfl
  | cons a pre ih =>
    rw [List.cons_append, List.cons_append, List.foldlM_cons, List.foldlM_cons]
    cases hs' : f s a with
    | error e => rfl
    | ok s' => exact ih (hstep s a s' hs hs')

theorem foldlM_insert {σ : Type} {f : σ → α → Except ε σ} {x : α} (hx : ∀ s, f s x = .ok s)
    (pre post : List α) (s : σ) : (pre ++ x :: post).foldlM f s = (pre ++ post).foldlM f s :=
  @foldlM_insert_of _ _ _ f x (fun _ => True) (fun _ _ _ _ _ => trivial) (fun s _ => hx s) _ _ _
    trivial

/-- Two loops that do the same at each element are the same. -/
theorem foldlM_congr {σ : Type} {f g : σ → α → Except ε σ} {xs : List α}
    (h : ∀ x ∈ xs, ∀ s, f s x = g s x) (s : σ) : xs.foldlM f s = xs.foldlM g s := by
  induction xs generalizing s with
  | nil => rfl
  | cons x xs ih =>
    rw [List.foldlM_cons, List.foldlM_cons, h x List.mem_cons_self s]
    congr 1
    funext s'
    exact ih (fun y hy => h y (List.mem_cons_of_mem _ hy)) s'

theorem forM_insert {f : α → Except ε Unit} {x : α} (hx : f x = .ok ()) (pre post : List α) :
    forM (pre ++ x :: post) f = forM (pre ++ post) f := by
  induction pre with
  | nil =>
    rw [List.nil_append, List.nil_append, List.forM_cons, hx]
    rfl
  | cons y pre ih => rw [List.cons_append, List.cons_append, List.forM_cons, List.forM_cons, ih]

/-- A loop whose rounds change nothing. -/
theorem foldlM_idle {σ : Type} {f : σ → α → Except ε σ} {xs : List α} {s : σ}
    (h : ∀ x ∈ xs, f s x = .ok s) : xs.foldlM f s = .ok s := by
  induction xs with
  | nil => rfl
  | cons x xs ih =>
    rw [List.foldlM_cons, h x List.mem_cons_self]
    exact ih fun y hy => h y (List.mem_cons_of_mem x hy)

/-- A loop does not see the elements that change nothing. -/
theorem foldlM_skip {σ : Type} {f : σ → α → Except ε σ} {p : α → Bool} {xs : List α}
    (h : ∀ a ∈ xs, p a = false → ∀ s, f s a = .ok s) (s : σ) :
    xs.foldlM f s = (xs.filter p).foldlM f s := by
  induction xs generalizing s with
  | nil => rfl
  | cons a xs ih =>
    have hrest := ih fun b hb => h b (List.mem_cons_of_mem a hb)
    cases ha : p a with
    | false =>
      rw [List.filter_cons_of_neg (by simp [ha]), List.foldlM_cons, h a List.mem_cons_self ha]
      exact hrest s
    | true =>
      rw [List.filter_cons_of_pos ha, List.foldlM_cons, List.foldlM_cons]
      exact bind_congr fun s' => hrest s'

theorem exists_foldlM {σ : Type} {f : σ → α → Except ε σ} {xs : List α}
    (h : ∀ a ∈ xs, ∀ s, ∃ s', f s a = .ok s') (s : σ) : ∃ s', xs.foldlM f s = .ok s' := by
  induction xs generalizing s with
  | nil => exact ⟨s, rfl⟩
  | cons a xs ih =>
    obtain ⟨s', hs'⟩ := h a List.mem_cons_self s
    rw [List.foldlM_cons, hs']
    exact ih (fun b hb => h b (List.mem_cons_of_mem a hb)) s'

/-- A loop that succeeds does so at each element, from the state it has there. -/
theorem ok_of_foldlM {σ : Type} {f : σ → α → Except ε σ} {xs : List α} {s s' : σ}
    (h : xs.foldlM f s = .ok s') : ∀ x ∈ xs, ∃ s₁ s₂, f s₁ x = .ok s₂ := by
  induction xs generalizing s with
  | nil => exact fun x hx => absurd hx List.not_mem_nil
  | cons x xs ih =>
    rw [List.foldlM_cons] at h
    obtain ⟨mid, hmid, h⟩ := bind_eq_ok.mp h
    intro y hy
    rcases List.mem_cons.mp hy with rfl | hy
    · exact ⟨s, mid, hmid⟩
    · exact ih h y hy

/-- What follows looks at the values only through `f`. -/
theorem bind_congr_map {γ : Type} {x y : Except ε α} {f : α → β} {g g' : β → Except ε γ}
    (h : f <$> x = f <$> y) (hg : ∀ b, g b = g' b) :
    (x >>= fun a => g (f a)) = y >>= fun a => g' (f a) := by
  rw [← bind_map_left f x g, h, bind_map_left f y g]
  congr 1
  funext a
  exact hg (f a)

/-- A check in front of a chain: it succeeds, and so does the rest. -/
@[simp high] theorem check_bind_eq_ok {x : Except ε Unit} {f : Unit → Except ε β} {b : β} :
    (x >>= f) = .ok b ↔ x = .ok () ∧ f () = .ok b := by
  cases x <;> simp [bind, Except.bind]

/-! ## Loops that collect -/

/-- A list is mapped where each of its elements is. -/
theorem exists_mapM {f : α → Except ε β} {xs : List α} (h : ∀ x ∈ xs, ∃ y, f x = .ok y) :
    ∃ ys, xs.mapM f = .ok ys := by
  induction xs with
  | nil => exact ⟨[], rfl⟩
  | cons x xs ih =>
    obtain ⟨y, hy⟩ := h x List.mem_cons_self
    obtain ⟨ys, hys⟩ := ih fun z hz => h z (List.mem_cons_of_mem x hz)
    refine ⟨y :: ys, ?_⟩
    rw [List.mapM_cons, hy, hys]
    rfl

/-- What a loop collects is what its body gives. -/
theorem mem_mapM {f : α → Except ε β} {xs : List α} {ys : List β} (h : xs.mapM f = .ok ys) {y : β} :
    y ∈ ys ↔ ∃ x ∈ xs, f x = .ok y := by
  induction xs generalizing ys with
  | nil =>
    obtain rfl := Except.ok.inj h
    simp
  | cons x xs ih =>
    rw [List.mapM_cons] at h
    obtain ⟨first, hfirst, h⟩ := bind_eq_ok.mp h
    obtain ⟨rest, hrest, h⟩ := bind_eq_ok.mp h
    obtain rfl := pure_eq_ok.mp h
    rw [List.mem_cons, List.exists_mem_cons_iff, ih hrest, hfirst]
    exact or_congr_left ⟨fun heq => congrArg Except.ok heq.symm, fun heq => (Except.ok.inj heq).symm⟩

/-- A loop that succeeds does so at each element. -/
theorem ok_of_mapM {f : α → Except ε β} {xs : List α} {ys : List β} (h : xs.mapM f = .ok ys) :
    ∀ x ∈ xs, ∃ y, f x = .ok y := by
  induction xs generalizing ys with
  | nil => exact fun x hx => absurd hx List.not_mem_nil
  | cons x xs ih =>
    rw [List.mapM_cons] at h
    obtain ⟨y, hy, h⟩ := bind_eq_ok.mp h
    obtain ⟨rest, hrest, -⟩ := bind_eq_ok.mp h
    intro x' hx'
    rcases List.mem_cons.mp hx' with rfl | hx'
    · exact ⟨y, hy⟩
    · exact ih hrest x' hx'

theorem filterMapM_congr {f g : α → Except ε (Option β)} {xs : List α}
    (h : ∀ x ∈ xs, f x = g x) : xs.filterMapM f = xs.filterMapM g := by
  induction xs with
  | nil => rfl
  | cons x xs ih =>
    rw [List.filterMapM_cons, List.filterMapM_cons, h x List.mem_cons_self,
      ih fun y hy => h y (List.mem_cons_of_mem _ hy)]

theorem filterMapM_cons_eq_ok {f : α → Except ε (Option β)} {x : α} {xs : List α} {rs : List β} :
    (x :: xs).filterMapM f = .ok rs ↔
      ∃ o ss, f x = .ok o ∧ xs.filterMapM f = .ok ss ∧ rs = o.toList ++ ss := by
  rw [List.filterMapM_cons, bind_eq_ok]
  constructor
  · rintro ⟨o, ho, h⟩
    cases o with
    | none => exact ⟨none, rs, ho, h, rfl⟩
    | some b =>
      obtain ⟨ss, hss, h⟩ := bind_eq_ok.mp h
      exact ⟨some b, ss, ho, hss, (pure_eq_ok.mp h).symm⟩
  · rintro ⟨o, ss, ho, hss, rfl⟩
    refine ⟨o, ho, ?_⟩
    cases o with
    | none => exact hss
    | some b => exact bind_eq_ok.mpr ⟨ss, hss, rfl⟩

theorem exists_filterMapM {f : α → Except ε (Option β)} {xs : List α}
    (h : ∀ x ∈ xs, ∃ o, f x = .ok o) : ∃ rs, xs.filterMapM f = .ok rs := by
  induction xs with
  | nil => exact ⟨[], rfl⟩
  | cons x xs ih =>
    obtain ⟨o, ho⟩ := h x List.mem_cons_self
    obtain ⟨ss, hss⟩ := ih fun y hy => h y (List.mem_cons_of_mem _ hy)
    exact ⟨_, filterMapM_cons_eq_ok.mpr ⟨o, ss, ho, hss, rfl⟩⟩

/-- The elements in another order give the same values, in another order. -/
theorem mapM_perm {f : α → Except ε β} {xs ys : List α} (h : xs.Perm ys) {ws : List β}
    (hxs : xs.mapM f = .ok ws) : ∃ ws', ys.mapM f = .ok ws' ∧ ws.Perm ws' := by
  induction h generalizing ws with
  | nil => exact ⟨ws, hxs, List.Perm.refl ws⟩
  | cons x _ ih =>
    rw [List.mapM_cons] at hxs
    obtain ⟨w, hw, hxs⟩ := bind_eq_ok.mp hxs
    obtain ⟨rest, hrest, hxs⟩ := bind_eq_ok.mp hxs
    obtain rfl := pure_eq_ok.mp hxs
    obtain ⟨rest', hrest', hperm⟩ := ih hrest
    refine ⟨w :: rest', ?_, hperm.cons w⟩
    rw [List.mapM_cons, hw, hrest']
    rfl
  | swap x y xs =>
    rw [List.mapM_cons, List.mapM_cons] at hxs
    obtain ⟨v, hv, hxs⟩ := bind_eq_ok.mp hxs
    obtain ⟨tail, htail, hxs⟩ := bind_eq_ok.mp hxs
    obtain ⟨w, hw, htail⟩ := bind_eq_ok.mp htail
    obtain ⟨rest, hrest, htail⟩ := bind_eq_ok.mp htail
    obtain rfl := pure_eq_ok.mp htail
    obtain rfl := pure_eq_ok.mp hxs
    refine ⟨w :: v :: rest, ?_, List.Perm.swap w v rest⟩
    rw [List.mapM_cons, List.mapM_cons, hw, hv, hrest]
    rfl
  | trans _ _ ih₁ ih₂ =>
    obtain ⟨mid, hmid, hperm⟩ := ih₁ hxs
    obtain ⟨ws', hws', hperm'⟩ := ih₂ hmid
    exact ⟨ws', hws', hperm.trans hperm'⟩

theorem ok_of_filterMapM {f : α → Except ε (Option β)} {xs : List α}
    {out : List β} (h : xs.filterMapM f = .ok out) : ∀ a ∈ xs, ∃ o, f a = .ok o := by
  induction xs generalizing out with
  | nil => exact fun a ha => absurd ha List.not_mem_nil
  | cons a xs ih =>
    obtain ⟨o, ss, ho, hss, -⟩ := filterMapM_cons_eq_ok.mp h
    intro b hb
    rcases List.mem_cons.mp hb with rfl | hb
    · exact ⟨o, ho⟩
    · exact ih hss b hb

/-- What is read from an element is collected. -/
theorem mem_filterMapM {f : α → Except ε (Option β)} {xs : List α} {out : List β}
    (h : xs.filterMapM f = .ok out) {b : β} : b ∈ out ↔ ∃ a ∈ xs, f a = .ok (some b) := by
  induction xs generalizing out with
  | nil =>
    obtain rfl := Except.ok.inj h
    simp
  | cons x xs ih =>
    obtain ⟨o, ss, ho, hss, rfl⟩ := filterMapM_cons_eq_ok.mp h
    rw [List.mem_append, List.exists_mem_cons_iff, ih hss, ho]
    simp

/-- A loop does not see the elements that it reads nothing from. -/
theorem filterMapM_skip {f : α → Except ε (Option β)} {p : α → Bool} {xs : List α}
    (h : ∀ a ∈ xs, p a = false → f a = .ok none) : xs.filterMapM f = (xs.filter p).filterMapM f := by
  induction xs with
  | nil => rfl
  | cons a xs ih =>
    have hrest := ih fun b hb => h b (List.mem_cons_of_mem a hb)
    cases ha : p a with
    | false =>
      rw [List.filter_cons_of_neg (by simp [ha]), List.filterMapM_cons, h a List.mem_cons_self ha]
      exact hrest
    | true => rw [List.filter_cons_of_pos ha, List.filterMapM_cons, List.filterMapM_cons, hrest]

/-- What a loop collects from some of the elements. -/
theorem filterMapM_filter {f : α → Except ε (Option β)} {p : α → Bool}
    {q : β → Bool} {xs : List α} {out : List β} (hout : xs.filterMapM f = .ok out)
    (h : ∀ a ∈ xs, ∀ b, f a = .ok (some b) → q b = p a) :
    (xs.filter p).filterMapM f = .ok (out.filter q) := by
  induction xs generalizing out with
  | nil =>
    cases pure_eq_ok.mp hout
    rfl
  | cons a xs ih =>
    obtain ⟨o, ss, ho, hss, rfl⟩ := filterMapM_cons_eq_ok.mp hout
    have hrest := ih hss fun b hb => h b (List.mem_cons_of_mem a hb)
    have hhead := h a List.mem_cons_self
    cases ha : p a with
    | false =>
      rw [List.filter_cons_of_neg (by simp [ha]), hrest]
      cases o with
      | none => rfl
      | some b =>
        have hb : ¬ q b = true := by rw [hhead b ho, ha]; exact Bool.false_ne_true
        rw [Option.toList_some, List.singleton_append, List.filter_cons_of_neg hb]
    | true =>
      rw [List.filter_cons_of_pos ha]
      refine filterMapM_cons_eq_ok.mpr ⟨o, ss.filter q, ho, hrest, ?_⟩
      cases o with
      | none => rfl
      | some b =>
        have hb : q b = true := by rw [hhead b ho, ha]
        rw [Option.toList_some, List.singleton_append, List.filter_cons_of_pos hb,
          List.singleton_append]

/-- A loop over the elements in another order collects the same, in another order. -/
theorem filterMapM_perm {f : α → Except ε (Option β)} {xs ys : List α} (h : xs.Perm ys)
    {rs : List β} (hrs : xs.filterMapM f = .ok rs) :
    ∃ ss, ys.filterMapM f = .ok ss ∧ rs.Perm ss := by
  induction h generalizing rs with
  | nil => exact ⟨rs, hrs, .rfl⟩
  | cons x _ ih =>
    obtain ⟨o, ss, ho, hss, rfl⟩ := filterMapM_cons_eq_ok.mp hrs
    obtain ⟨ss', hss', hperm⟩ := ih hss
    exact ⟨_, filterMapM_cons_eq_ok.mpr ⟨o, ss', ho, hss', rfl⟩, hperm.append_left _⟩
  | swap x y xs =>
    obtain ⟨o, ss, ho, hss, rfl⟩ := filterMapM_cons_eq_ok.mp hrs
    obtain ⟨o', ss', ho', hss', rfl⟩ := filterMapM_cons_eq_ok.mp hss
    refine ⟨_, filterMapM_cons_eq_ok.mpr
      ⟨o', _, ho', filterMapM_cons_eq_ok.mpr ⟨o, ss', ho, hss', rfl⟩, rfl⟩, ?_⟩
    rw [← List.append_assoc, ← List.append_assoc]
    exact List.perm_append_comm.append_right ss'
  | trans _ _ ih ih' =>
    obtain ⟨ss, hss, hperm⟩ := ih hrs
    obtain ⟨ss', hss', hperm'⟩ := ih' hss
    exact ⟨ss', hss', hperm.trans hperm'⟩

/-- What follows a loop, where it does not look at the order: both succeed with the same, or
    both fail. -/
theorem toOption_filterMapM_bind {γ : Type} {f : α → Except ε (Option β)} {xs ys : List α}
    {g g' : List β → Except ε γ} (h : xs.Perm ys)
    (hg : ∀ rs ss, rs.Perm ss → (g rs).toOption = (g' ss).toOption) :
    (xs.filterMapM f >>= g).toOption = (ys.filterMapM f >>= g').toOption := by
  cases hrs : xs.filterMapM f with
  | ok rs =>
    obtain ⟨ss, hss, hperm⟩ := filterMapM_perm h hrs
    rw [hss]
    exact hg rs ss hperm
  | error e =>
    cases hss : ys.filterMapM f with
    | error e' => rfl
    | ok ss =>
      obtain ⟨rs, hrs', -⟩ := filterMapM_perm h.symm hss
      rw [hrs] at hrs'
      cases hrs'

theorem toOption_bind_congr {x y : Except ε α} {f g : α → Except ε β}
    (h : x.toOption = y.toOption) (hf : ∀ a, (f a).toOption = (g a).toOption) :
    (x >>= f).toOption = (y >>= g).toOption := by
  cases x <;> cases y <;> cases h
  · rfl
  · exact hf _

end Vincent.Check
