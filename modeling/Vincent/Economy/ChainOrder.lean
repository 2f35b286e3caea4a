-- SUMMARY: Events sorted by timestamp and sequence, as the chain grows.
import Vincent.General.Sort
import Vincent.Economy.Resolution

/-!
# The order of timestamps

Most of the economy sorts events by `(timestamp, sequence)`, and a malformed one
of these raises. What is stamped after everything that is there sorts after it.
-/

namespace Vincent.Economy

open Vincent.Python Vincent.Check

/-- `sorted(events, key=lambda e: (float(e.get("timestamp") or 0.0), int(e.get("sequence") or 0)))`. -/
def sortEvents (rt : Runtime) (events : List Dict) : Except String (List Dict) := do
  let keyedEvents ← events.mapM (keyed rt)
  return (keyedEvents.insertionSort fun a b => chainOrder a.1 b.1).map Prod.snd

/-- The event has a timestamp and a sequence that can be read. -/
def Stamped (rt : Runtime) (event : Dict) : Prop := ∃ k, keyed rt event = .ok k

/-- The first event is stamped before the second. -/
def StampedBefore (rt : Runtime) (a b : Dict) : Prop :=
  ∃ ta tb, timestamp rt a = .ok ta ∧ timestamp rt b = .ok tb ∧ ta.lt tb = true

instance {rt : Runtime} {event : Dict} : Decidable (Stamped rt event) :=
  decidable_of_iff (okAnd (keyed rt event) fun _ => true) (by simp [okAnd_iff, Stamped])

instance {rt : Runtime} {a b : Dict} : Decidable (StampedBefore rt a b) :=
  decidable_of_iff (okAnd (timestamp rt a) fun ta => okAnd (timestamp rt b) fun tb => ta.lt tb)
    (by simp [okAnd_iff, StampedBefore])

section

variable {rt : Runtime} {events more : List Dict} {sorted : List Dict}

theorem keyed_eq_ok {event : Dict} {k : (PyFloat × Int) × Dict} : keyed rt event = .ok k ↔
    timestamp rt event = .ok k.1.1 ∧ sequence rt event = .ok k.1.2 ∧ k.2 = event := by
  obtain ⟨⟨ts, seq⟩, e⟩ := k
  unfold keyed
  simp only [bind_eq_ok, pure_eq_ok, Prod.mk.injEq]
  constructor
  · rintro ⟨ts', hts, seq', hseq, ⟨rfl, rfl⟩, rfl⟩
    exact ⟨hts, hseq, rfl⟩
  · rintro ⟨hts, hseq, rfl⟩
    exact ⟨ts, hts, seq, hseq, ⟨rfl, rfl⟩, rfl⟩

/-- `mapM keyed` attaches to each event its own key. -/
theorem mapM_keyed {keys : List ((PyFloat × Int) × Dict)} (h : events.mapM (keyed rt) = .ok keys) :
    keys.map Prod.snd = events ∧ ∀ k ∈ keys, keyed rt k.2 = .ok k := by
  induction events generalizing keys with
  | nil =>
    cases h
    exact ⟨rfl, fun k hk => absurd hk List.not_mem_nil⟩
  | cons e events ih =>
    rw [List.mapM_cons] at h
    obtain ⟨k, hk, h⟩ := bind_eq_ok.mp h
    obtain ⟨rest, hrest, h⟩ := bind_eq_ok.mp h
    obtain rfl := pure_eq_ok.mp h
    obtain ⟨hmap, hkeyed⟩ := ih hrest
    obtain ⟨-, -, he⟩ := keyed_eq_ok.mp hk
    refine ⟨by rw [List.map_cons, hmap, he], ?_⟩
    intro k' hk'
    rcases List.mem_cons.mp hk' with rfl | hk'
    · rw [he]
      exact hk
    · exact hkeyed k' hk'

theorem exists_mapM_keyed (h : ∀ e ∈ events, Stamped rt e) :
    ∃ keys, events.mapM (keyed rt) = .ok keys := by
  induction events with
  | nil => exact ⟨[], rfl⟩
  | cons e events ih =>
    obtain ⟨k, hk⟩ := h e List.mem_cons_self
    obtain ⟨rest, hrest⟩ := ih fun e' he' => h e' (List.mem_cons_of_mem _ he')
    exact ⟨k :: rest, by rw [List.mapM_cons, hk, hrest]; rfl⟩

theorem exists_sortEvents (h : ∀ e ∈ events, Stamped rt e) :
    ∃ sorted, sortEvents rt events = .ok sorted := by
  obtain ⟨keys, hkeys⟩ := exists_mapM_keyed h
  exact ⟨_, by unfold sortEvents; rw [hkeys]; rfl⟩

/-- The timestamp of an event, where it can be read, is a number. -/
def NumberStamped (rt : Runtime) (event : Dict) : Prop := timestamp rt event ≠ .ok .nan

/-- Events with a timestamp that can be read and is a number. -/
def numberStamps (rt : Runtime) (events : List Dict) : Bool :=
  events.all fun event => !okAnd (timestamp rt event) fun ts => ts = .nan

theorem numberStamped_of {rt : Runtime} {events : List Dict} (h : numberStamps rt events = true) :
    ∀ x ∈ events, NumberStamped rt x := by
  intro x hx hnan
  have hx' := List.all_eq_true.mp h x hx
  rw [hnan] at hx'
  simp [okAnd] at hx'

/-- The first event sorts strictly after the second. -/
def SortsAfter (rt : Runtime) (a b : Dict) : Prop :=
  ∃ ka kb, keyed rt a = .ok ka ∧ keyed rt b = .ok kb ∧ chainOrder ka.1 kb.1 = false

instance {rt : Runtime} {a b : Dict} : Decidable (SortsAfter rt a b) :=
  decidable_of_iff (okAnd (keyed rt a) fun ka => okAnd (keyed rt b) fun kb =>
    !chainOrder ka.1 kb.1) (by simp [okAnd_iff, SortsAfter])

theorem chainOrder_iff {a b : PyFloat × Int} (ha : a.1 ≠ .nan) (hb : b.1 ≠ .nan) :
    chainOrder a b = true ↔ a.1.place < b.1.place ∨ a.1.place ≤ b.1.place ∧ a.2 ≤ b.2 := by
  unfold chainOrder
  rw [Bool.or_eq_true, Bool.and_eq_true, Bool.not_eq_true', decide_eq_true_iff,
    PyFloat.lt_place ha hb, ← Bool.not_eq_true, PyFloat.lt_place hb ha, not_lt]

theorem chainOrder_orderOn : Sort.OrderOn (fun a b : (PyFloat × Int) × Dict => chainOrder a.1 b.1)
    fun k => k.1.1 ≠ .nan where
  total a b ha hb := by
    rw [chainOrder_iff ha hb, chainOrder_iff hb ha]
    rcases lt_trichotomy a.1.1.place b.1.1.place with h | h | h
    · exact Or.inl (Or.inl h)
    · exact (le_total a.1.2 b.1.2).imp (fun hseq => Or.inr ⟨h.le, hseq⟩)
        fun hseq => Or.inr ⟨h.ge, hseq⟩
    · exact Or.inr (Or.inl h)
  trans a b c ha hb hc := by
    rw [chainOrder_iff ha hb, chainOrder_iff hb hc, chainOrder_iff ha hc]
    rintro (hab | ⟨hab, hseq⟩) (hbc | ⟨hbc, hseq'⟩)
    · exact Or.inl (hab.trans hbc)
    · exact Or.inl (hab.trans_le hbc)
    · exact Or.inl (hab.trans_lt hbc)
    · exact Or.inr ⟨hab.trans hbc, hseq.trans hseq'⟩

theorem sortEvents_perm (h : sortEvents rt events = .ok sorted) : sorted.Perm events := by
  obtain ⟨keys, hkeys, h⟩ := bind_eq_ok.mp h
  obtain rfl := pure_eq_ok.mp h
  obtain ⟨hmap, -⟩ := mapM_keyed hkeys
  rw [← hmap]
  exact (List.perm_insertionSort _ _).map _

theorem sortEvents_append {sorted' : List Dict} (h : sortEvents rt events = .ok sorted)
    (h' : sortEvents rt more = .ok sorted')
    (hlater : ∀ a ∈ events, ∀ b ∈ more, StampedBefore rt a b) :
    sortEvents rt (events ++ more) = .ok (sorted ++ sorted') := by
  obtain ⟨keys, hkeys, h⟩ := bind_eq_ok.mp h
  obtain rfl := pure_eq_ok.mp h
  obtain ⟨keys', hkeys', h'⟩ := bind_eq_ok.mp h'
  obtain rfl := pure_eq_ok.mp h'
  obtain ⟨hmap, hkeyed⟩ := mapM_keyed hkeys
  obtain ⟨hmap', hkeyed'⟩ := mapM_keyed hkeys'
  have hboth : (events ++ more).mapM (keyed rt) = .ok (keys ++ keys') := by
    rw [List.mapM_append, hkeys, hkeys']
    rfl
  have horder : ∀ a ∈ keys, ∀ b ∈ keys', chainOrder a.1 b.1 = true := by
    intro a ha b hb
    have hamem : a.2 ∈ events := hmap ▸ List.mem_map_of_mem ha
    have hbmem : b.2 ∈ more := hmap' ▸ List.mem_map_of_mem hb
    obtain ⟨ta, tb, hta, htb, hlt⟩ := hlater a.2 hamem b.2 hbmem
    obtain ⟨hka, -, -⟩ := keyed_eq_ok.mp (hkeyed a ha)
    obtain ⟨hkb, -, -⟩ := keyed_eq_ok.mp (hkeyed' b hb)
    rw [hta] at hka
    rw [htb] at hkb
    cases hka
    cases hkb
    simp [chainOrder, hlt]
  unfold sortEvents
  rw [hboth]
  change Except.ok _ = _
  rw [Sort.insertionSort_append horder, List.map_append]

/-- A key of a list of events is that of an event of the list. -/
theorem keyed_mem {keys : List ((PyFloat × Int) × Dict)} {k : (PyFloat × Int) × Dict}
    (h : events.mapM (keyed rt) = .ok keys) (hk : k ∈ keys) :
    keyed rt k.2 = .ok k ∧ k.2 ∈ events := by
  obtain ⟨hmap, hkeyed⟩ := mapM_keyed h
  exact ⟨hkeyed k hk, hmap ▸ List.mem_map_of_mem hk⟩

/-- An event that is added last sorts behind all that do not sort strictly after it. -/
theorem sortEvents_concat {e : Dict} (h : sortEvents rt events = .ok sorted)
    (he : Stamped rt e) (hnumber : ∀ a ∈ e :: events, NumberStamped rt a) :
    ∃ pre post, sorted = pre ++ post ∧ sortEvents rt (events ++ [e]) = .ok (pre ++ e :: post) ∧
      (∀ a ∈ pre, ¬ SortsAfter rt a e) ∧ ∀ b ∈ post, SortsAfter rt b e := by
  obtain ⟨keys, hkeys, h⟩ := bind_eq_ok.mp h
  obtain rfl := pure_eq_ok.mp h
  obtain ⟨ke, hke⟩ := he
  obtain ⟨htse, -, hkee⟩ := keyed_eq_ok.mp hke
  have hreal : ∀ k ∈ keys, k.1.1 ≠ .nan := by
    intro k hk hnan
    obtain ⟨hkeyed, hmem⟩ := keyed_mem hkeys hk
    apply hnumber k.2 (List.mem_cons_of_mem _ hmem)
    rw [← hnan]
    exact (keyed_eq_ok.mp hkeyed).1
  have hereal : ke.1.1 ≠ .nan := by
    intro hnan
    apply hnumber e List.mem_cons_self
    rw [← hnan]
    exact htse
  obtain ⟨pre, post, hsorted, hsorted', hsplits⟩ :=
    Sort.insertionSort_concat chainOrder_orderOn hreal hereal
  have hboth : (events ++ [e]).mapM (keyed rt) = .ok (keys ++ [ke]) := by
    rw [List.mapM_append, hkeys, List.mapM_cons, hke]
    rfl
  have hmem : ∀ k ∈ pre ++ post, keyed rt k.2 = .ok k := by
    intro k hk
    rw [← hsorted] at hk
    exact (keyed_mem hkeys ((List.mem_insertionSort _).mp hk)).1
  refine ⟨pre.map Prod.snd, post.map Prod.snd, by rw [hsorted, List.map_append], ?_, ?_, ?_⟩
  · unfold sortEvents
    rw [hboth]
    change Except.ok _ = _
    rw [hsorted', List.map_append, List.map_cons, hkee]
  · intro a ha
    obtain ⟨k, hk, rfl⟩ := List.mem_map.mp ha
    rintro ⟨ka, kb, hka, hkb, horder⟩
    rw [hmem k (List.mem_append_left _ hk)] at hka
    rw [hke] at hkb
    cases hka
    cases hkb
    rw [hsplits.before k hk] at horder
    cases horder
  · intro b hb
    obtain ⟨k, hk, rfl⟩ := List.mem_map.mp hb
    exact ⟨k, ke, hmem k (List.mem_append_right _ hk), hke,
      Bool.eq_false_iff.mpr (hsplits.after k hk)⟩

/-- A chain that cannot be sorted cannot be sorted when more is appended either. -/
theorem sortEvents_append_error {exn : String} (h : sortEvents rt events = .error exn) :
    sortEvents rt (events ++ more) = .error exn := by
  rcases bind_eq_error.mp h with h | ⟨keys, -, h⟩
  · unfold sortEvents
    rw [List.mapM_append, h]
    rfl
  · cases h

end

end Vincent.Economy
