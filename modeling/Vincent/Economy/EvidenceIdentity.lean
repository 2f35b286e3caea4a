-- SUMMARY: Evidence content hashes: which contents no other content is taken for.
import Mathlib.Data.String.Basic
import Vincent.Economy.Resolution
import Vincent.General.Joined

/-!
# Evidence identity

The text that is hashed joins the fields of an evidence content with a bar and its
hashes with commas, and escapes neither. A text that can be split in another way is
that of another content too.
-/

namespace Vincent.Economy

open Vincent.Joined Vincent.Python

/-- The arguments of `evidence_content_hash`, with an outcome that it takes. -/
structure EvidenceContent where
  marketId : String
  claimedOutcome : Outcome
  evidenceHashes : List String
  sourceDescription : String

namespace EvidenceContent

def hash (env : Env) (c : EvidenceContent) : String :=
  evidenceContentHash env c.marketId c.claimedOutcome c.evidenceHashes c.sourceDescription

/-- The same evidence, where the order of the hashes does not count. -/
structure Same (c d : EvidenceContent) : Prop where
  marketId : c.marketId = d.marketId
  claimedOutcome : c.claimedOutcome = d.claimedOutcome
  evidenceHashes : c.evidenceHashes.Perm d.evidenceHashes
  sourceDescription : c.sourceDescription = d.sourceDescription

/-- The text that is hashed can be split in one way only. There is one hash, which is not empty
    and not two texts in order with a comma between them. No bar stands in it or in the
    description. No outcome stands after a bar of the market id and before another or its end. -/
structure OneReading (c : EvidenceContent) : Prop where
  description : '|' ∉ c.sourceDescription.toList
  hashes : ∃ h, c.evidenceHashes = [h] ∧ h ≠ "" ∧ '|' ∉ h.toList ∧
    ∀ x y, x ≤ y → h ≠ x ++ "," ++ y
  market : ∀ (outcome : Outcome) (x y : String),
    c.marketId ++ "|" ≠ x ++ "|" ++ outcome.text ++ "|" ++ y

/-- No separator stands in a field, and no hash is empty. -/
structure Separated (c : EvidenceContent) : Prop where
  market : '|' ∉ c.marketId.toList
  description : '|' ∉ c.sourceDescription.toList
  hashes : ∀ h ∈ c.evidenceHashes, h ≠ "" ∧ '|' ∉ h.toList ∧ ',' ∉ h.toList

/-! ## The text -/

/-- The hashes as they are joined. -/
def joined (c : EvidenceContent) : String :=
  String.intercalate "," (sortedStrings c.evidenceHashes)

/-- The characters of the text after its first field. -/
def chars (c : EvidenceContent) : List Char :=
  c.marketId.toList ++ '|' :: (c.claimedOutcome.text.toList ++ '|' ::
    (c.joined.toList ++ '|' :: c.sourceDescription.toList))

variable {env : Env} {c d : EvidenceContent}

theorem toList_text (c : EvidenceContent) :
    (String.intercalate "|" ["evidence_content", c.marketId, c.claimedOutcome.text, c.joined,
      c.sourceDescription]).toList = "evidence_content|".toList ++ c.chars := by
  simp [chars]

/-- Contents have one hash exactly when they have one text. -/
theorem hash_eq_iff (hsha : Function.Injective env.sha256) (hnfc : ∀ s, env.normalizeUtf8 s = s) :
    c.hash env = d.hash env ↔ c.chars = d.chars := by
  unfold hash evidenceContentHash
  rw [hnfc, hnfc, hsha.eq_iff, ← String.toList_inj]
  change (String.intercalate "|" ["evidence_content", c.marketId, c.claimedOutcome.text, c.joined,
    c.sourceDescription]).toList = (String.intercalate "|" ["evidence_content", d.marketId,
      d.claimedOutcome.text, d.joined, d.sourceDescription]).toList ↔ _
  rw [toList_text, toList_text, List.append_cancel_left_eq]

theorem joined_singleton {c : EvidenceContent} {h : String} (hc : c.evidenceHashes = [h]) :
    c.joined = h := by
  unfold joined sortedStrings
  rw [hc, List.insertionSort_cons, List.insertionSort_nil]
  exact String.intercalate_singleton

theorem outcome_text_injective {o o' : Outcome} (h : o.text = o'.text) : o = o' := by
  cases o <;> cases o' <;> first | rfl | exact absurd h (by decide)

theorem bar_notMem_outcome (o : Outcome) : '|' ∉ o.text.toList := by
  cases o <;> decide

theorem le_append (x y : String) : x ≤ x ++ y := by
  rw [String.le_iff_toList_le, String.toList_append]
  cases y.toList with
  | nil => rw [List.append_nil]
  | cons b t =>
    have hlt : x.toList ++ [] < x.toList ++ b :: t :=
      List.Lex.append_left (· < ·) List.Lex.nil x.toList
    rw [List.append_nil] at hlt
    exact le_of_lt hlt

/-- Several hashes in order, joined, are two texts in order with a comma between them. -/
theorem joined_cons_cons {a b : String} {l : List String} (h : (a :: b :: l).Pairwise (· ≤ ·)) :
    ∃ y, a ≤ y ∧ String.intercalate "," (a :: b :: l) = a ++ "," ++ y := by
  refine ⟨String.intercalate "," (b :: l), ?_, String.intercalate_cons_cons⟩
  have hab : a ≤ b := List.rel_of_pairwise_cons h List.mem_cons_self
  cases l with
  | nil => simpa using hab
  | cons c l =>
    rw [String.intercalate_cons_cons, String.append_assoc]
    exact String.le_trans hab (le_append b _)

/-! ## Contents with one reading -/

/-- Other hashes that are joined to one such hash are that hash. -/
theorem hashes_of_joined {hashes : List String} {h : String} (hne : h ≠ "")
    (hcomma : ∀ x y, x ≤ y → h ≠ x ++ "," ++ y)
    (heq : String.intercalate "," (sortedStrings hashes) = h) : hashes.Perm [h] := by
  have hperm : (sortedStrings hashes).Perm hashes := List.perm_insertionSort _ _
  have hsorted : (sortedStrings hashes).Pairwise (· ≤ ·) := List.pairwise_insertionSort _ _
  cases hs : sortedStrings hashes with
  | nil =>
    rw [hs, String.intercalate_nil] at heq
    exact absurd heq.symm hne
  | cons a l =>
    cases l with
    | nil =>
      rw [hs, String.intercalate_singleton] at heq
      rw [hs, heq] at hperm
      exact hperm.symm
    | cons b l =>
      rw [hs] at heq hsorted
      obtain ⟨y, hy, hjoined⟩ := joined_cons_cons hsorted
      exact absurd (heq.symm.trans hjoined) (hcomma a y hy)

/-- The characters after the market id. -/
def rest (c : EvidenceContent) : List Char :=
  c.claimedOutcome.text.toList ++ '|' :: (c.joined.toList ++ '|' :: c.sourceDescription.toList)

theorem rest_eq (c : EvidenceContent) : c.rest = List.intercalate ['|']
    [c.claimedOutcome.text.toList, c.joined.toList, c.sourceDescription.toList] := by
  simp [rest]

/-- Where no bar stands in the parts of one content, equal texts after the market id have equal
    parts. -/
theorem rest_injective (hjoined : '|' ∉ c.joined.toList)
    (hdescription : '|' ∉ c.sourceDescription.toList) (heq : c.rest = d.rest) :
    c.claimedOutcome = d.claimedOutcome ∧ c.joined = d.joined ∧
      c.sourceDescription = d.sourceDescription := by
  have hnotMem : ∀ x ∈ [c.claimedOutcome.text.toList, c.joined.toList,
      c.sourceDescription.toList], '|' ∉ x := by
    simp only [List.mem_cons, List.not_mem_nil, or_false, forall_eq_or_imp, forall_eq]
    exact ⟨bar_notMem_outcome c.claimedOutcome, hjoined, hdescription⟩
  have hlength : [c.claimedOutcome.text.toList, c.joined.toList,
      c.sourceDescription.toList].length = [d.claimedOutcome.text.toList, d.joined.toList,
        d.sourceDescription.toList].length := rfl
  rw [rest_eq, rest_eq] at heq
  have hparts := intercalate_injective hnotMem hlength heq
  simp only [List.cons.injEq, and_true, String.toList_inj] at hparts
  exact ⟨outcome_text_injective hparts.1, hparts.2⟩

theorem OneReading.joined (h : c.OneReading) :
    c.joined ≠ "" ∧ '|' ∉ c.joined.toList ∧ ∀ x y, x ≤ y → c.joined ≠ x ++ "," ++ y := by
  obtain ⟨text, hashes, hne, hbar, hcomma⟩ := h.hashes
  rw [joined_singleton hashes]
  exact ⟨hne, hbar, hcomma⟩

/-- A content with one reading is taken for no other. -/
theorem OneReading.same (h : c.OneReading) (heq : c.chars = d.chars) : c.Same d := by
  rcases append_sep_eq (b := c.rest) (d := d.rest) heq with
    ⟨hmarket, hrest⟩ | ⟨y, hmarket, hrest⟩ | ⟨y, hmarket, hrest⟩
  · obtain ⟨houtcome, hjoined, hdescription⟩ := rest_injective h.joined.2.1 h.description hrest
    obtain ⟨text, hashes, hne, -, hcomma⟩ := h.hashes
    rw [joined_singleton hashes] at hjoined
    refine ⟨String.toList_inj.mp hmarket, houtcome, ?_, hdescription⟩
    rw [hashes]
    exact (hashes_of_joined hne hcomma hjoined.symm).symm
  · -- An outcome of the other content would stand in the market id.
    have hstands : ∀ z, c.marketId.toList ++ ['|'] =
        d.marketId.toList ++ '|' :: (d.claimedOutcome.text.toList ++ '|' :: z) → False := by
      intro z hz
      refine h.market d.claimedOutcome d.marketId (String.ofList z) (String.toList_inj.mp ?_)
      simpa using hz
    rcases append_sep_eq hrest with ⟨hy, -⟩ | ⟨z, hz, -⟩ | ⟨z, hz, -⟩
    · exact (hstands [] (by rw [hmarket, hy]; simp)).elim
    · exact (bar_notMem_outcome d.claimedOutcome (by rw [hz]; simp)).elim
    · exact (hstands (z ++ ['|']) (by rw [hmarket, hz]; simp)).elim
  · -- The text after the market id would have too many bars.
    exfalso
    have hcount := congrArg (List.count '|') hrest
    have houtcome := List.count_eq_zero.mpr (bar_notMem_outcome c.claimedOutcome)
    have hjoined := List.count_eq_zero.mpr h.joined.2.1
    have hdescription := List.count_eq_zero.mpr h.description
    simp only [rest, List.count_append, List.count_cons_self, houtcome, hjoined, hdescription]
      at hcount
    omega

/-! ## Contents with another reading -/

theorem split_at_bar {s : String} (h : '|' ∈ s.toList) : ∃ x y, s = x ++ "|" ++ y := by
  obtain ⟨x, y, hxy⟩ := List.append_of_mem h
  exact ⟨String.ofList x, String.ofList y, String.toList_inj.mp (by simpa using hxy)⟩

/-- A content that is taken for no other has one reading. -/
theorem oneReading_of_same (h : ∀ d : EvidenceContent, c.chars = d.chars → c.Same d) :
    c.OneReading := by
  have hone : c.evidenceHashes = [c.joined] := by
    have hsame := h { c with evidenceHashes := [c.joined] } (by
      unfold chars
      rw [joined_singleton (c := { c with evidenceHashes := [c.joined] }) rfl])
    exact List.perm_singleton.mp hsame.evidenceHashes
  refine ⟨fun hbar => ?_, ⟨c.joined, hone, fun hempty => ?_, fun hbar => ?_, fun x y hxy hcomma => ?_⟩,
    fun o x y hmarket => ?_⟩
  · obtain ⟨x, y, hxy⟩ := split_at_bar hbar
    have hsame := h { c with evidenceHashes := [c.joined ++ "|" ++ x], sourceDescription := y } (by
      unfold chars
      rw [joined_singleton (c := { c with evidenceHashes := _, sourceDescription := _ }) rfl, hxy]
      simp)
    have hlength := congrArg String.length hxy
    have hy : c.sourceDescription = y := hsame.sourceDescription
    rw [hy, String.length_append, String.length_append] at hlength
    have hbar : "|".length = 1 := rfl
    omega
  · have hsame := h { c with evidenceHashes := [] } (by
      unfold chars
      rw [hempty]
      rfl)
    have hnil := List.perm_nil.mp hsame.evidenceHashes
    rw [hone] at hnil
    cases hnil
  · obtain ⟨x, y, hxy⟩ := split_at_bar hbar
    have hsame := h { c with
        evidenceHashes := [x], sourceDescription := y ++ "|" ++ c.sourceDescription } (by
      unfold chars
      rw [joined_singleton (c := { c with evidenceHashes := _, sourceDescription := _ }) rfl, hxy]
      simp)
    have hlength := congrArg String.length hsame.sourceDescription
    rw [String.length_append, String.length_append] at hlength
    have hbar : "|".length = 1 := rfl
    omega
  · have hsame := h { c with evidenceHashes := [x, y] } (by
      unfold chars
      rw [hcomma]
      have hpair : sortedStrings [x, y] = [x, y] := by
        unfold sortedStrings
        rw [List.insertionSort_cons, List.insertionSort_cons, List.insertionSort_nil,
          List.orderedInsert_nil, List.orderedInsert_cons, if_pos hxy]
      change _ = _ ++ '|' :: (_ ++ '|' :: ((String.intercalate "," (sortedStrings [x, y])).toList ++ _))
      rw [hpair]
      simp [String.intercalate_cons_cons])
    have hlength := hsame.evidenceHashes.length_eq
    rw [hone] at hlength
    cases hlength
  · have hsame := h ⟨x, o, [y ++ c.claimedOutcome.text], c.joined ++ "|" ++ c.sourceDescription⟩ (by
      unfold chars
      rw [joined_singleton (c := ⟨x, o, [y ++ c.claimedOutcome.text], _⟩) rfl]
      have hlist := congrArg String.toList hmarket
      simp only [String.toList_append] at hlist
      have hbar : ∀ l : List Char, c.marketId.toList ++ '|' :: l =
          (c.marketId.toList ++ "|".toList) ++ l := by simp
      rw [hbar, hlist]
      simp)
    have hlength := congrArg String.length hmarket
    rw [hsame.marketId] at hlength
    simp only [String.length_append] at hlength
    have hbar : "|".length = 1 := rfl
    omega

/-! ## Contents without separators -/

theorem Separated.comma_notMem (h : c.Separated) : ∀ x ∈ sortedStrings c.evidenceHashes,
    ',' ∉ x.toList := fun x hx => (h.hashes x ((List.mem_insertionSort _).mp hx)).2.2

theorem Separated.joined_eq_empty (h : c.Separated) (hempty : c.joined = "") :
    sortedStrings c.evidenceHashes = [] := by
  unfold joined at hempty
  cases hs : sortedStrings c.evidenceHashes with
  | nil => rfl
  | cons a l =>
    have ha : a ∈ sortedStrings c.evidenceHashes := by rw [hs]; exact List.mem_cons_self
    have hne := (h.hashes a ((List.mem_insertionSort _).mp ha)).1
    rw [hs] at hempty
    cases l with
    | nil => exact absurd (String.intercalate_singleton.symm.trans hempty) hne
    | cons b l =>
      rw [String.intercalate_cons_cons] at hempty
      have hlength := congrArg String.length hempty
      simp at hlength

theorem Separated.count_comma (h : c.Separated) (hne : sortedStrings c.evidenceHashes ≠ []) :
    c.joined.toList.count ',' + 1 = (sortedStrings c.evidenceHashes).length := by
  have hcomma := h.comma_notMem
  unfold joined
  cases hs : sortedStrings c.evidenceHashes with
  | nil => exact absurd hs hne
  | cons a l =>
    have hzero : ((a.toList :: l.map String.toList).map (List.count ',')).sum = 0 := by
      rw [List.sum_eq_zero_iff_forall_eq_nat]
      intro n hn
      obtain ⟨part, hpart, rfl⟩ := List.mem_map.mp hn
      obtain ⟨x, hx, rfl⟩ : ∃ x ∈ a :: l, x.toList = part := by
        rw [← List.map_cons] at hpart
        exact List.mem_map.mp hpart
      exact List.count_eq_zero.mpr (hcomma x (by rw [hs]; exact hx))
    have hcount : (List.intercalate [','] (a.toList :: l.map String.toList)).count ',' = _ :=
      count_intercalate a.toList (l.map String.toList)
    rw [hzero, List.length_map] at hcount
    have htext : (String.intercalate "," (a :: l)).toList =
        List.intercalate [','] (a.toList :: l.map String.toList) := by
      rw [String.toList_intercalate]
      rfl
    rw [htext, hcount]
    rfl

/-- Joined hashes without separators are read back. -/
theorem Separated.perm (hc : c.Separated) (hd : d.Separated) (heq : c.joined = d.joined) :
    c.evidenceHashes.Perm d.evidenceHashes := by
  have hsorted : sortedStrings c.evidenceHashes = sortedStrings d.evidenceHashes := by
    by_cases hempty : c.joined = ""
    · rw [hc.joined_eq_empty hempty, hd.joined_eq_empty (heq.symm.trans hempty)]
    · have hne : ∀ {c : EvidenceContent}, c.joined ≠ "" → sortedStrings c.evidenceHashes ≠ [] := by
        intro c hjoined hnil
        refine hjoined ?_
        unfold joined
        rw [hnil]
        rfl
      refine text_intercalate_injective hc.comma_notMem ?_ heq
      rw [← hc.count_comma (hne hempty), ← hd.count_comma (hne (heq ▸ hempty)), heq]
  have hperm : ∀ l : List String, (sortedStrings l).Perm l := fun l => List.perm_insertionSort _ _
  exact (hperm c.evidenceHashes).symm.trans (hsorted ▸ hperm d.evidenceHashes)

theorem Separated.bar_notMem (h : c.Separated) : '|' ∉ c.joined.toList := by
  have hjoined : ∀ l : List String, (∀ x ∈ l, '|' ∉ x.toList) →
      '|' ∉ (String.intercalate "," l).toList := by
    intro l hl
    induction l with
    | nil => simp
    | cons a l ih =>
      cases l with
      | nil => simpa using hl
      | cons b l =>
        rw [String.intercalate_cons_cons]
        have hrest := ih fun x hx => hl x (List.mem_cons_of_mem a hx)
        have ha := hl a List.mem_cons_self
        rw [String.toList_append, String.toList_append, List.mem_append, List.mem_append]
        rintro ((hmem | hmem) | hmem)
        · exact ha hmem
        · exact absurd hmem (by decide)
        · exact hrest hmem
  exact hjoined _ fun x hx => (h.hashes x ((List.mem_insertionSort _).mp hx)).2.1

theorem Separated.same (hc : c.Separated) (hd : d.Separated) (heq : c.chars = d.chars) :
    c.Same d := by
  rcases append_sep_eq (b := c.rest) (d := d.rest) heq with
    ⟨hmarket, hrest⟩ | ⟨y, hmarket, -⟩ | ⟨y, hmarket, -⟩
  · obtain ⟨houtcome, hjoined, hdescription⟩ :=
      rest_injective hc.bar_notMem hc.description hrest
    exact ⟨String.toList_inj.mp hmarket, houtcome, hc.perm hd hjoined, hdescription⟩
  · exact (hc.market (by rw [hmarket]; simp)).elim
  · exact (hd.market (by rw [hmarket]; simp)).elim

end EvidenceContent

/-! ## Evidence identity -/

section

variable {env : Env}

/-- An evidence content is taken for no other exactly when its text has one reading. Contents in
    which no separator stands are told apart as well. -/
theorem evidenceContentHash_identifies (hsha : Function.Injective env.sha256)
    (hnfc : ∀ s, env.normalizeUtf8 s = s) (c : EvidenceContent) :
    ((∀ d : EvidenceContent, c.hash env = d.hash env → c.Same d) ↔ c.OneReading) ∧
      ∀ d : EvidenceContent, c.Separated → d.Separated → c.hash env = d.hash env → c.Same d := by
  refine ⟨⟨fun h => ?_, fun h d heq => ?_⟩, fun d hc hd heq => ?_⟩
  · exact EvidenceContent.oneReading_of_same fun d heq =>
      h d ((EvidenceContent.hash_eq_iff hsha hnfc).mpr heq)
  · exact h.same ((EvidenceContent.hash_eq_iff hsha hnfc).mp heq)
  · exact hc.same hd ((EvidenceContent.hash_eq_iff hsha hnfc).mp heq)

theorem legible_nonneg (n : Int) (q : ℚ) (hq : asciiRuntime.floatOfInt n = some q) (hn : 0 ≤ n) :
    0 ≤ q := by
  cases hq
  exact_mod_cast hn

def legibleEnv : Env where
  rt := asciiRuntime
  sha256 := id
  normalizeUtf8 := id
  floatOfInt_nonneg := legible_nonneg

/-- One photograph for a market. -/
def photograph : EvidenceContent := ⟨"m1", .yes, ["9f86"], "camera"⟩

theorem evidenceContentHash_identifies_photograph :
    ((∀ d : EvidenceContent, photograph.hash legibleEnv = d.hash legibleEnv → photograph.Same d) ↔
        photograph.OneReading) ∧
      ∀ d : EvidenceContent, photograph.Separated → d.Separated →
        photograph.hash legibleEnv = d.hash legibleEnv → photograph.Same d :=
  evidenceContentHash_identifies (fun _ _ h => h) (fun _ => rfl) photograph

/-- Two hashes, and one text that looks like two. -/
theorem not_evidenceContentHash_identifies :
    Function.Injective legibleEnv.sha256 ∧ (∀ s, legibleEnv.normalizeUtf8 s = s) ∧
      ¬ ∀ c d : EvidenceContent, c.hash legibleEnv = d.hash legibleEnv → c.Same d := by
  refine ⟨fun _ _ h => h, fun _ => rfl, fun h => ?_⟩
  have hsame := h ⟨"m1", .yes, ["a", "b"], "src"⟩ ⟨"m1", .yes, ["a,b"], "src"⟩ (by decide +kernel)
  have hlength := hsame.evidenceHashes.length_eq
  cases hlength

end

end Vincent.Economy
