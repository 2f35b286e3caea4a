-- SUMMARY: The records of a transparency ledger link up; which exports verify.
import Vincent.General.LinkedChain
import Vincent.Root.Ledger
import Vincent.Root.Pinned

/-!
# Exports of the ledger

Each record names the one that was published before it. The verifier expects the
first record of an export to name none, which is so for the first record of all.
-/

namespace Vincent.Root

open Vincent.Python Vincent.Check Vincent.Mesh Vincent.Run Vincent.LinkedChain
open Vincent.Prekey (textOr)

/-! ## Reading records -/

section Readers

variable (env : RootEnv) (record : Dict)

def payloadOf : Dict := (dictAt record "payload").toOption.getD []

def indexOf : Int := (intOf env (payloadOf record) "record_index").toOption.getD 0

def previousOf : String := lowered env (payloadOf record) "previous_record_fingerprint"

def bindingOf : String := lowered env (payloadOf record) "binding_fingerprint"

def fingerprintOf : String := (transparencyRecordFingerprint env record).toOption.getD ""

/-- The record can be read. -/
structure Readable : Prop where
  ne : record ≠ []
  payload : dictAt record "payload" = .ok (payloadOf record)
  index : intOf env (payloadOf record) "record_index" = .ok (indexOf env record)
  fingerprint : transparencyRecordFingerprint env record = .ok (fingerprintOf env record)
  binding : ∃ text, bindingOf env record = env.sha256 text

end Readers

variable {env : RootEnv} {record : Dict}

theorem Readable.fingerprint_hash (h : Readable env record) :
    ∃ text, fingerprintOf env record = env.sha256 text := by
  have hfingerprint := h.fingerprint
  simp only [transparencyRecordFingerprint, bind_eq_ok, pure_eq_ok] at hfingerprint
  obtain ⟨canonical, -, hhash⟩ := hfingerprint
  exact ⟨_, hhash.symm⟩

theorem Readable.fingerprint_lower (h : Readable env record) :
    env.rt.lower (strip (fingerprintOf env record)) = fingerprintOf env record := by
  obtain ⟨text, htext⟩ := h.fingerprint_hash
  rw [htext, env.sha256_lower]

theorem Readable.fingerprint_ne (h : Readable env record) : fingerprintOf env record ≠ "" := by
  obtain ⟨text, htext⟩ := h.fingerprint_hash
  rw [htext]
  exact env.sha256_ne text

theorem payloadOf_recordOf (signed : RootSignature) (payload : Dict) :
    payloadOf (recordOf signed payload) = payload := by
  have hpayload : dictAt (recordOf signed payload) "payload" = .ok payload := dictAt_of_dict rfl
  rw [payloadOf, hpayload]
  rfl

theorem readable_recordOf (signed : RootSignature) {payload : Dict} {n : Int}
    (hindex : intOf env payload "record_index" = .ok n)
    (hbinding : ∃ text, lowered env payload "binding_fingerprint" = env.sha256 text) :
    Readable env (recordOf signed payload) := by
  have hpayload : dictAt (recordOf signed payload) "payload" = .ok payload := dictAt_of_dict rfl
  have hsequence : intOf env (recordOf signed payload) "sequence" = .ok signed.sequence :=
    intOf_of_int rfl (Or.inr rfl)
  refine ⟨by simp [recordOf], ?_, ?_, ?_, by rwa [bindingOf, payloadOf_recordOf]⟩
  · rw [payloadOf_recordOf, hpayload]
  · rw [indexOf, payloadOf_recordOf, hindex]
    rfl
  · rw [fingerprintOf, transparencyRecordFingerprint, canonicalEnvelope, hsequence, hpayload]
    rfl

/-! ## What a new record says -/

variable {view : ManifestView} {set : WitnessSetView} {previous payload : Dict} {now : Int}

theorem payload_binding (h : recordPayload env view set previous now = .ok payload) :
    ∃ text, lowered env payload "binding_fingerprint" = env.sha256 text := by
  simp only [recordPayload, bind_eq_ok, pure_eq_ok] at h
  obtain ⟨_, -, _, -, n, -, setFingerprint, -, rfl⟩ := h
  rw [lowered, stripped, Dict.text_of_str (s := transparencyBindingFingerprint env
    (env.rt.lower (strip view.manifestFingerprint)) (env.rt.lower (strip view.policyFingerprint))
    setFingerprint) rfl]
  exact ⟨_, env.sha256_lower _⟩

theorem first_payload (h : recordPayload env view set [] now = .ok payload) :
    intOf env payload "record_index" = .ok 1 ∧
      lowered env payload "previous_record_fingerprint" = "" := by
  simp only [recordPayload, fingerprintOrEmpty, bind_eq_ok, pure_eq_ok, if_true] at h
  obtain ⟨_, ⟨⟩, _, ⟨⟩, _, ⟨⟩, _, -, rfl⟩ := h
  exact ⟨intOf_of_int rfl (Or.inr rfl), Signer.lowered_empty rfl⟩

theorem next_payload (hread : Readable env previous) (hindex : 0 < indexOf env previous)
    (h : recordPayload env view set previous now = .ok payload) :
    intOf env payload "record_index" = .ok (indexOf env previous + 1) ∧
      lowered env payload "previous_record_fingerprint" = fingerprintOf env previous := by
  simp only [recordPayload, fingerprintOrEmpty, bind_eq_ok, pure_eq_ok, if_neg hread.ne, hread.fingerprint,
    hread.payload] at h
  obtain ⟨_, ⟨⟩, _, ⟨⟩, n, hn, _, -, rfl⟩ := h
  obtain rfl := Except.ok.inj (hread.index.symm.trans hn)
  rw [if_pos hindex]
  refine ⟨intOf_of_int rfl (Or.inr rfl), ?_⟩
  rw [lowered, stripped, Dict.text_of_str (s := fingerprintOf env previous) rfl, hread.fingerprint_lower]

/-! ## The ledger -/

section LastOf

variable {α : Type} {n : Nat} {xs : List α}

theorem lastOf_append_lastOf (x : α) :
    lastOf n (lastOf n xs ++ [x]) = lastOf n (xs ++ [x]) := by
  have hle : xs.length - n ≤ xs.length := Nat.sub_le ..
  unfold lastOf
  rw [← List.drop_append_of_le_length hle, List.drop_drop]
  congr 1
  simp only [List.length_append, List.length_drop, List.length_singleton]
  omega

theorem getLast?_lastOf (hn : 0 < n) : (lastOf n xs).getLast? = xs.getLast? := by
  unfold lastOf
  rw [List.getLast?_drop]
  split
  · rename_i hle
    have hnil : xs = [] := List.length_eq_zero_iff.mp (by omega)
    rw [hnil]
    rfl
  · rfl

end LastOf

/-- The ledger keeps the last of the records that were published, which number and link up. -/
structure Chained (env : RootEnv) (s : LedgerState) (log : List Dict) : Prop where
  readable : ∀ record ∈ log, Readable env record
  linked : Linked (fingerprintOf env) (previousOf env) "" log
  index : ∀ (i : Nat) record, log[i]? = some record → indexOf env record = i + 1
  kept : s.records = lastOf maxRecords log
  current : s.currentRecord = log.getLast?.getD []

theorem Chained.empty : Chained env {} [] :=
  ⟨by simp, trivial, by simp, rfl, rfl⟩

variable {s : LedgerState} {log : List Dict} {p : Publication}

theorem published_eq_some (h : published env s p = some record) :
    ∃ view set payload,
      recordPayload env view set (s.records.getLast?.getD []) p.now = .ok payload ∧
        record = recordOf (p.sign payload) payload := by
  unfold published at h
  cases hnew : newRecord env s p with
  | error e => rw [hnew] at h; cases h
  | ok new =>
    rw [hnew] at h
    obtain rfl : new = some record := h
    simp only [newRecord, bind_eq_ok, raising] at hnew
    obtain ⟨_, -, view, -, set, -, fits, -, hnew⟩ := hnew
    split at hnew
    · cases hnew
    · obtain ⟨payload, hpayload, hrecord⟩ := bind_eq_ok.mp hnew
      exact ⟨view, set, payload, orFail_eq_ok.mp hpayload, (Option.some.inj (pure_eq_ok.mp hrecord)).symm⟩

/-- A new record can be read, is numbered after the last one and names it. -/
theorem Chained.new (h : Chained env s log) (hnew : published env s p = some record) :
    Readable env record ∧ indexOf env record = log.length + 1 ∧
      previousOf env record = lastKey (fingerprintOf env) "" log := by
  obtain ⟨view, set, payload, hpayload, rfl⟩ := published_eq_some hnew
  rw [h.kept, getLast?_lastOf (by decide)] at hpayload
  have hbinding := payload_binding hpayload
  rw [previousOf, payloadOf_recordOf, indexOf, payloadOf_recordOf, lastKey]
  cases hlast : log.getLast? with
  | none =>
    rw [hlast] at hpayload
    obtain ⟨hindex, hprevious⟩ := first_payload hpayload
    rw [List.getLast?_eq_none_iff.mp hlast]
    refine ⟨readable_recordOf _ hindex hbinding, ?_, hprevious⟩
    rw [hindex]
    rfl
  | some last =>
    rw [hlast] at hpayload
    have hread := h.readable last (List.mem_of_getLast? hlast)
    have hlength : 0 < log.length := List.length_pos_of_mem (List.mem_of_getLast? hlast)
    have hcount : indexOf env last = log.length := by
      have hget := h.index (log.length - 1) last (by rw [← List.getLast?_eq_getElem?, hlast])
      omega
    obtain ⟨hindex, hprevious⟩ := next_payload hread (by omega) hpayload
    refine ⟨readable_recordOf _ hindex hbinding, ?_, hprevious⟩
    rw [hindex, ← hcount]
    rfl

theorem Chained.publish (h : Chained env s log) :
    Chained env (publish env s p) (log ++ (published env s p).toList) := by
  unfold Root.publish
  cases hnew : published env s p with
  | none =>
    rw [Option.toList_none, List.append_nil]
    exact h
  | some record =>
    obtain ⟨hread, hindex, hprevious⟩ := h.new hnew
    rw [Option.toList_some]
    refine ⟨?_, linked_append.mpr ⟨h.linked, hprevious, trivial⟩, ?_, ?_, ?_⟩
    · intro r hr
      rcases List.mem_append.mp hr with hr | hr
      · exact h.readable r hr
      · exact List.mem_singleton.mp hr ▸ hread
    · intro i r hr
      rw [List.getElem?_append] at hr
      split at hr
      · exact h.index i r hr
      · obtain ⟨hi, hr⟩ : i = log.length ∧ record = r := by
          have hzero : i - log.length = 0 := by
            by_contra hne
            rw [List.getElem?_eq_none (by simp only [List.length_singleton]; omega)] at hr
            cases hr
          rw [hzero] at hr
          exact ⟨by omega, Option.some.inj hr⟩
        rw [← hr, hi, hindex]
    · dsimp only
      rw [h.kept, lastOf_append_lastOf]
    · simp

theorem Chained.run (h : Chained env s log) (ps : List Publication) :
    Chained env (Run.run (Root.publish env) s ps)
      (log ++ outputs (Root.publish env) (published env) s ps) := by
  induction ps generalizing s log with
  | nil =>
    rw [outputs, List.append_nil]
    exact h
  | cons p ps ih =>
    rw [run_cons, outputs, ← List.append_assoc]
    exact ih h.publish

/-! ## Verifying an export -/

variable {window : List Dict} {link binding : String} {fingerprints : List String}

theorem checkLinks_eq_ok (hread : ∀ record ∈ window, Readable env record) {result} :
    checkLinks env link binding window = .ok result ↔
      Linked (fingerprintOf env) (previousOf env) link window ∧
        result = (window.map (fingerprintOf env), lastKey (bindingOf env) binding window) := by
  induction window generalizing link binding result with
  | nil =>
    rw [checkLinks]
    simp [Linked, eq_comm]
  | cons record window ih =>
    have hthis := hread record List.mem_cons_self
    have hrest := fun r hr => hread r (List.mem_cons_of_mem record hr)
    simp only [checkLinks, raising, demand, hthis.payload, hthis.fingerprint, bind_eq_ok, orFail_eq_ok,
      require_eq_ok, exists_const, pure_eq_ok]
    constructor
    · rintro ⟨_, ⟨⟩, _, ⟨⟩, hlink, ⟨fingerprints, last⟩, htail, rfl⟩
      obtain ⟨hlinked, heq⟩ := (ih hrest).mp htail
      cases heq
      refine ⟨⟨hlink, hlinked⟩, ?_⟩
      rw [lastKey_cons]
      rfl
    · rintro ⟨⟨hlink, hlinked⟩, rfl⟩
      refine ⟨_, rfl, _, rfl, hlink, _, (ih hrest).mpr ⟨hlinked, rfl⟩, ?_⟩
      rw [lastKey_cons]
      rfl

theorem chainFingerprint_eq (hread : ∀ record ∈ window, Readable env record) :
    chainFingerprint env window =
      .ok (stableHash env (.list ((window.map (fingerprintOf env)).map .str))) := by
  have hmap : window.mapM (transparencyRecordFingerprint env) =
      .ok (window.map (fingerprintOf env)) := by
    induction window with
    | nil => rfl
    | cons record window ih =>
      rw [List.mapM_cons, (hread record List.mem_cons_self).fingerprint,
        ih fun r hr => hread r (List.mem_cons_of_mem record hr)]
      rfl
  rw [chainFingerprint, hmap]
  rfl

/-- The ledger that an export writes over its records. -/
def ledgerOver (env : RootEnv) (window : List Dict) (now : Int) : Dict :=
  [("type", .str ledgerType), ("schema_version", .int 1),
    ("transparency_scope", .str transparencyScope), ("exported_at", .int now),
    ("record_count", .int window.length),
    ("current_record_fingerprint", .str (lastKey (fingerprintOf env) "" window)),
    ("head_binding_fingerprint", .str (lastKey (bindingOf env) "" window)),
    ("chain_fingerprint",
      .str (stableHash env (.list ((window.map (fingerprintOf env)).map .str)))),
    ("records", .list (window.map .dict))]

/-- The records of an export. -/
def exportWindow (s : LedgerState) (limit : Option Nat) : List Dict :=
  (limit.map fun n => lastOf n s.records).getD s.records

theorem exportLedger_eq {limit : Option Nat}
    (hread : ∀ record ∈ exportWindow s limit, Readable env record)
    (hcurrent : exportWindow s limit = [] → s.currentRecord = []) {value : PyVal}
    (hlimit : exportLimit env s value = .ok limit) :
    exportLedger env s now value = .ok (ledgerOver env (exportWindow s limit) now) := by
  have hwindow : (limit.map fun n => lastOf n s.records).getD s.records = exportWindow s limit := rfl
  simp only [exportLedger, hlimit, bind_eq_ok, pure_eq_ok, Except.ok.injEq, exists_eq_left', hwindow,
    chainFingerprint_eq hread]
  rw [ledgerOver, lastKey, lastKey]
  cases hlast : (exportWindow s limit).getLast? with
  | none =>
    have hnil := List.getLast?_eq_none_iff.mp hlast
    rw [Option.getD_none, hcurrent hnil, fingerprintOrEmpty, if_pos rfl]
    have hbinding : lowered env [] "binding_fingerprint" = "" := Signer.lowered_empty rfl
    exact ⟨_, rfl, [], rfl, by rw [hbinding]; rfl⟩
  | some last =>
    have hthis := hread last (List.mem_of_getLast? hlast)
    rw [Option.getD_some, fingerprintOrEmpty, if_neg hthis.ne, hthis.fingerprint]
    exact ⟨_, rfl, _, hthis.payload, rfl⟩

/-- The last hash of the records, or the empty text, is in lower case. -/
theorem lower_lastKey {f : Dict → String}
    (h : ∀ record ∈ window, ∃ text, f record = env.sha256 text) :
    env.rt.lower (strip (lastKey f "" window)) = lastKey f "" window := by
  rw [lastKey]
  cases hlast : window.getLast? with
  | none =>
    have hempty : strip "" = "" := by decide
    rw [Option.map_none, Option.getD_none, hempty, env.rt.lower_ascii "" (by simp)]
    rfl
  | some last =>
    obtain ⟨text, htext⟩ := h last (List.mem_of_getLast? hlast)
    rw [Option.map_some, Option.getD_some, htext, env.sha256_lower]

/-- An export verifies exactly when its records link up from the empty link. -/
theorem verifyLedgerExport_iff (hread : ∀ record ∈ window, Readable env record) (hnow : 0 < now) :
    (∃ view, verifyLedgerExport env (ledgerOver env window now) = .ok view) ↔
      Linked (fingerprintOf env) (previousOf env) "" window := by
  have htype : textOr env.rt (ledgerOver env window now) "type" ledgerType = ledgerType :=
    textOr_absent rfl
  have hversion : intOf env (ledgerOver env window now) "schema_version" = .ok 1 :=
    intOf_of_int rfl (Or.inr rfl)
  have hscope : textOr env.rt (ledgerOver env window now) "transparency_scope" transparencyScope =
      transparencyScope := textOr_absent rfl
  have hexported : intOf env (ledgerOver env window now) "exported_at" = .ok now :=
    intOf_of_int rfl (Or.inr rfl)
  have hrecords : dictsAt (ledgerOver env window now) "records" = .ok window := dictsAt_of_list rfl
  have hcount : intOf env (ledgerOver env window now) "record_count" = .ok window.length :=
    intOf_of_int rfl (Or.inr rfl)
  have hhead : lowered env (ledgerOver env window now) "current_record_fingerprint" =
      lastKey (fingerprintOf env) "" window := by
    rw [lowered, stripped, Dict.text_of_str (s := lastKey (fingerprintOf env) "" window) rfl]
    exact lower_lastKey fun record hrecord => (hread record hrecord).fingerprint_hash
  have hbinding : lowered env (ledgerOver env window now) "head_binding_fingerprint" =
      lastKey (bindingOf env) "" window := by
    rw [lowered, stripped, Dict.text_of_str (s := lastKey (bindingOf env) "" window) rfl]
    exact lower_lastKey fun record hrecord => (hread record hrecord).binding
  have hchain : lowered env (ledgerOver env window now) "chain_fingerprint" =
      stableHash env (.list ((window.map (fingerprintOf env)).map .str)) := by
    rw [lowered, stripped, Dict.text_of_str
      (s := stableHash env (.list ((window.map (fingerprintOf env)).map .str))) rfl]
    exact env.sha256_lower _
  have hlast : ((window.map (fingerprintOf env)).getLast?).getD "" =
      lastKey (fingerprintOf env) "" window := by
    rw [List.getLast?_map, lastKey]
  simp only [verifyLedgerExport, htype, hversion, hscope, hexported, hrecords, hcount, hhead, hbinding,
    hchain, demand, raising, bind_eq_ok, orFail_eq_ok, require_eq_ok, exists_const, pure_eq_ok]
  constructor
  · rintro ⟨_, -, _, -, -, -, _, -, -, _, ⟨⟩, _, -, -, _, hlinks, -⟩
    exact ((checkLinks_eq_ok hread).mp hlinks).1
  · intro hlinked
    exact ⟨_, trivial, 1, rfl, one_pos, trivial, now, rfl, hnow, window, rfl, _, rfl, rfl, _,
      (checkLinks_eq_ok hread).mpr ⟨hlinked, rfl⟩, hlast.symm, rfl, _, chainFingerprint_eq hread, rfl,
      rfl⟩

/-! ## Every run -/

theorem lastOf_lastOf {α : Type} (m n : Nat) (xs : List α) :
    lastOf m (lastOf n xs) = lastOf (min m n) xs := by
  unfold lastOf
  rw [List.drop_drop, List.length_drop]
  congr 1
  omega

/-- How many of the last records an export is over. -/
def windowSize (limit : Option Nat) : Nat := (limit.map fun n => min n maxRecords).getD maxRecords

theorem Chained.exported (h : Chained env s log) (limit : Option Nat) :
    exportWindow s limit = lastOf (windowSize limit) log := by
  cases limit with
  | none => exact h.kept
  | some n =>
    have hkept : exportWindow s (some n) = lastOf n (lastOf maxRecords log) :=
      congrArg (lastOf n) h.kept
    rw [hkept, lastOf_lastOf]
    rfl

theorem windowSize_pos {value : PyVal} {limit : Option Nat}
    (hlimit : exportLimit env s value = .ok limit) : 0 < windowSize limit := by
  cases limit with
  | none => decide
  | some n =>
    have hn : 0 < n := by
      unfold exportLimit at hlimit
      split at hlimit
      · cases hlimit
      · obtain ⟨k, -, hk⟩ := bind_eq_ok.mp hlimit
        have hmax := Option.some.inj (pure_eq_ok.mp hk)
        omega
    exact lt_min hn (by decide)

theorem Chained.linked_lastOf (h : Chained env s log) {n : Nat} (hn : 0 < n) :
    Linked (fingerprintOf env) (previousOf env) "" (lastOf n log) ↔ log.length ≤ n := by
  by_cases hnil : log = []
  · subst hnil
    rw [lastOf, List.drop_nil]
    exact ⟨fun _ => Nat.zero_le n, fun _ => trivial⟩
  · have hpos := List.length_pos_iff.mpr hnil
    have hkey : ∀ record ∈ log, fingerprintOf env record ≠ "" :=
      fun record hrecord => (h.readable record hrecord).fingerprint_ne
    rw [lastOf, h.linked.drop_iff hkey (by omega)]
    omega

/-- An export of a ledger that has published `log`. -/
theorem Chained.export (h : Chained env s log) {value : PyVal} {limit : Option Nat}
    (hlimit : exportLimit env s value = .ok limit) :
    exportLedger env s now value = .ok (ledgerOver env (lastOf (windowSize limit) log) now) := by
  rw [← h.exported limit]
  apply exportLedger_eq
  · intro record hrecord
    rw [h.exported limit] at hrecord
    exact h.readable record (List.mem_of_mem_drop hrecord)
  · intro hnil
    rw [h.exported limit, lastOf, List.drop_eq_nil_iff] at hnil
    have hpos := windowSize_pos hlimit
    have hempty : log = [] := List.length_eq_zero_iff.mp (by omega)
    rw [h.current, hempty]
    rfl
  · exact hlimit

/-- An export verifies exactly when it is over all records that were published. -/
theorem Chained.export_verifies_iff (h : Chained env s log) (hnow : 0 < now) {value : PyVal}
    {limit : Option Nat} (hlimit : exportLimit env s value = .ok limit) :
    (∃ view, verifyLedgerExport env (ledgerOver env (lastOf (windowSize limit) log) now) =
      .ok view) ↔ log.length ≤ windowSize limit := by
  have hread : ∀ record ∈ lastOf (windowSize limit) log, Readable env record :=
    fun record hrecord => h.readable record (List.mem_of_mem_drop hrecord)
  rw [verifyLedgerExport_iff hread hnow, h.linked_lastOf (windowSize_pos hlimit)]

/-! ## Two roots, one after the other -/

section Honest

variable {root root' : Signer env} {w : Witness env} {issuedAt : Int}

/-- What an honest root returns of a payload that it signs. -/
def Signer.signRecord (root : Signer env) (payload : Dict) : RootSignature where
  nodeId := root.nodeId
  publicKey := root.publicKey
  sequence := 1
  signature := root.sign (signedText env transparencyType root.nodeId 1 payload)

/-- An honest root publishes a record of its first manifest, which one witness has signed. -/
def Signer.publication (root : Signer env) (w : Witness env) : Publication where
  now := 1
  manifest := root.manifest (.single w) 1
  witnesses := [w.receipt root (.single w) 1 1]
  sign := root.signRecord

theorem readRecord_published (set : WitnessSetView) :
    readRecord env (recordOf (root.signRecord (firstRecordPayload root (.single w) 1 set 1))
        (firstRecordPayload root (.single w) 1 set 1)) =
      .ok (readFirstRecord root (.single w) 1 set 1 1) := by
  let payload := firstRecordPayload root (.single w) 1 set 1
  let record := recordOf (root.signRecord payload) payload
  have htype : textOr env.rt record "type" transparencyType = transparencyType :=
    textOr_of_str rfl (by decide)
  have hevent : stripped env record "event_type" = transparencyType :=
    stripped_of_str rfl (strip_eventType transparencyType_mem)
  have hnode : stripped env record "node_id" = root.nodeId := by
    rw [stripped_of_str (s := strip root.nodeId) rfl (strip_strip _), root.nodeId_strip]
  have hkey : stripped env record "public_key" = root.publicKey := by
    rw [stripped_of_str (s := strip root.publicKey) rfl (strip_strip _), root.publicKey_strip]
  have hsequence : intOf env record "sequence" = .ok 1 := intOf_of_int rfl (Or.inr rfl)
  have hsignature : stripped env record "signature" =
      root.sign (signedText env transparencyType root.nodeId 1 payload) := by
    rw [stripped_of_str (s := strip (root.sign
      (signedText env transparencyType root.nodeId 1 payload))) rfl (strip_strip _), root.sign_strip]
  have hpayload : dictAt record "payload" = .ok payload := dictAt_of_dict rfl
  have halgo : strip (textOr env.rt record "public_key_algo" "Ed25519") = "Ed25519" := by
    rw [textOr_of_str (s := strip "Ed25519") rfl (by decide), strip_strip, strip_ed25519]
  have hversion : strip (textOr env.rt record "protocol_version" Mesh.protocolVersion) =
      Mesh.protocolVersion := by
    rw [textOr_of_str (s := strip Mesh.protocolVersion) rfl (by decide), strip_strip,
      strip_protocolVersion]
  have hscope : textOr env.rt payload "transparency_scope" transparencyScope = transparencyScope :=
    textOr_absent rfl
  change readRecord env record = _
  simp only [readRecord, htype, hevent, hnode, hkey, hsequence, hsignature, hpayload, halgo, hversion,
    demand, raising, bind_eq_ok, require_eq_ok, exists_const, orFail_eq_ok, pure_eq_ok]
  exact ⟨trivial, trivial, _, rfl, _, rfl,
    ⟨root.nodeId_ne, root.publicKey_ne, one_pos, root.sign_ne _⟩, hscope, _,
    firstRecord_published .., one_pos, _, firstRecord_index .., one_pos, root.bound, rfl⟩

theorem published_of_newRecord (h : newRecord env s p = .ok (some record)) :
    published env s p = some record := by
  rw [published, h]
  rfl

/-- The receipts of a publication make a set. -/
theorem publication_set (root : Signer env) (w : Witness env) :
    ∃ set, verifyRootManifestWitnessSet env (root.publication w).manifest
        (root.publication w).witnesses = .ok set ∧
      set.manifest = root.manifestView (.single w) 1 := by
  obtain ⟨set, hset, -⟩ := @receipts_single _ root 1 1 w one_pos one_pos
  exact ⟨set, hset, Except.ok.inj ((manifest_of_witnessSet hset).symm.trans
    (root.manifest_verifies (.single w) 1 one_pos))⟩

theorem publication_complete (root : Signer env) (w : Witness env) :
    (root.publication w).manifest ≠ [] ∧ (root.publication w).witnesses ≠ [] :=
  ⟨by simp [Signer.publication, Signer.manifest, Signer.signed], by simp [Signer.publication]⟩

theorem publishes_first (root : Signer env) (w : Witness env) : ∃ set : WitnessSetView,
    published env {} (root.publication w) =
      some (recordOf (root.signRecord (firstRecordPayload root (.single w) 1 set 1))
        (firstRecordPayload root (.single w) 1 set 1)) := by
  obtain ⟨set, hset, hmanifest⟩ := publication_set root w
  refine ⟨set, published_of_newRecord ?_⟩
  simp only [newRecord, demand, bind_eq_ok, require_eq_ok, exists_const]
  refine ⟨publication_complete root w, _, root.manifest_verifies (.single w) 1 one_pos, set, hset,
    false, rfl, ?_⟩
  exact bind_eq_ok.mpr ⟨_, orFail_eq_ok.mpr (firstRecordPayload_eq hmanifest), rfl⟩

/-- A record of another signer is rejected. -/
theorem checkRecord_signer {manifest : Dict} {r : ReadRecord} {count : Nat} {setFingerprint : String}
    (h : ¬ r.nodeId = strip view.rootNodeId) :
    checkRecord env record manifest r view count setFingerprint =
      .error (.rejected "stable root transparency signer mismatch") := by
  have hdemand : demand (r.nodeId = strip view.rootNodeId) "stable root transparency signer mismatch" =
      .error (.rejected "stable root transparency signer mismatch") := if_neg h
  rw [checkRecord, hdemand]
  rfl

theorem rejects_other (hne : root.nodeId ≠ root'.nodeId) (set : WitnessSetView) :
    ∃ detail, verifyRootTransparencyRecord env
        (recordOf (root.signRecord (firstRecordPayload root (.single w) 1 set 1))
          (firstRecordPayload root (.single w) 1 set 1))
        (root'.publication w).manifest (root'.publication w).witnesses =
      .error (.rejected detail) := by
  obtain ⟨set', hset', hmanifest'⟩ := publication_set root' w
  have hview : verifyRootManifest env (root'.publication w).manifest =
      .ok (root'.manifestView (.single w) 1) := root'.manifest_verifies (.single w) 1 one_pos
  have hsigner : ¬ (readFirstRecord root (.single w) 1 set 1 1).nodeId =
      strip (root'.manifestView (.single w) 1).rootNodeId := by
    change ¬ root.nodeId = strip root'.nodeId
    rw [root'.nodeId_strip]
    exact hne
  refine ⟨"stable root transparency signer mismatch", ?_⟩
  rw [verifyRootTransparencyRecord, readRecord_published, hview, hset']
  dsimp only [bind, Except.bind]
  rw [setFingerprint_validated]
  dsimp only [raising, orFail]
  exact checkRecord_signer hsigner

theorem publishes_next (hne : root.nodeId ≠ root'.nodeId) :
    ∃ record, published env (publish env {} (root.publication w)) (root'.publication w) =
      some record := by
  obtain ⟨set, hfirst⟩ := publishes_first root w
  obtain ⟨set', hset', -⟩ := publication_set root' w
  obtain ⟨detail, hrejected⟩ := rejects_other (w := w) hne set
  have hread := (Chained.empty.new hfirst).1
  have hstate : publish env {} (root.publication w) = {
      currentRecord := recordOf (root.signRecord (firstRecordPayload root (.single w) 1 set 1))
        (firstRecordPayload root (.single w) 1 set 1)
      records := [recordOf (root.signRecord (firstRecordPayload root (.single w) 1 set 1))
        (firstRecordPayload root (.single w) 1 set 1)] } := by
    rw [publish, hfirst]
    rfl
  have hfits : currentFits env (publish env {} (root.publication w)) (root'.publication w) =
      .ok false := by
    rw [hstate, currentFits, if_neg hread.ne, hrejected]
  have hpayload : ∃ payload, recordPayload env (root'.manifestView (.single w) 1) set'
      ((publish env {} (root.publication w)).records.getLast?.getD []) 1 = .ok payload := by
    rw [hstate]
    simp only [recordPayload, fingerprintOrEmpty, List.getLast?_singleton, Option.getD_some,
      if_neg hread.ne, hread.fingerprint, hread.payload, setFingerprint_validated,
      bind_eq_ok, pure_eq_ok]
    exact ⟨_, _, rfl, _, rfl, _, hread.index, _, rfl, rfl⟩
  obtain ⟨payload, hpayload⟩ := hpayload
  refine ⟨recordOf (root'.signRecord payload) payload, published_of_newRecord ?_⟩
  simp only [newRecord, demand, bind_eq_ok, require_eq_ok, exists_const]
  refine ⟨publication_complete root' w, _, root'.manifest_verifies (.single w) 1 one_pos, set',
    hset', false, hfits, ?_⟩
  exact bind_eq_ok.mpr ⟨_, orFail_eq_ok.mpr hpayload, rfl⟩

end Honest

/-- A root and the one that takes its place publish a record each. -/
def samplePublications : List Publication :=
  [sampleRoot.publication sampleWitness, sampleWitness.publication sampleWitness]

theorem sampleRoots_ne : sampleRoot.nodeId ≠ sampleWitness.nodeId := by
  decide +kernel

theorem sampleRecords : ∃ first second,
    outputs (publish idealEnv) (published idealEnv) {} samplePublications = [first, second] := by
  obtain ⟨set, hfirst⟩ := publishes_first sampleRoot sampleWitness
  obtain ⟨second, hsecond⟩ := @publishes_next _ _ sampleWitness.toSigner sampleWitness sampleRoots_ne
  have houtputs : outputs (publish idealEnv) (published idealEnv) {} samplePublications =
      (published idealEnv {} (sampleRoot.publication sampleWitness)).toList ++
        ((published idealEnv (publish idealEnv {} (sampleRoot.publication sampleWitness))
          (sampleWitness.publication sampleWitness)).toList ++ []) := rfl
  rw [houtputs, hfirst, hsecond]
  exact ⟨_, _, rfl⟩

theorem sampleLimit (s : LedgerState) : exportLimit idealEnv s (.int 1) = .ok (some 1) := rfl

/-! ## The theorem -/

/-- The published records are linked, and an export verifies exactly when it is over all of them. -/
theorem ledger_exports (env : RootEnv) (ps : List Publication) :
    (∀ (i : Nat) record, (outputs (publish env) (published env) {} ps)[i]? = some record →
      Readable env record ∧ indexOf env record = i + 1 ∧
        ∀ next, (outputs (publish env) (published env) {} ps)[i + 1]? = some next →
          previousOf env next = fingerprintOf env record) ∧
    ∀ now value ledger, 0 < now →
      exportLedger env (run (publish env) {} ps) now value = .ok ledger →
        ((∃ view, verifyLedgerExport env ledger = .ok view) ↔
          (outputs (publish env) (published env) {} ps).length ≤ maxRecords ∧
            ∀ n, exportLimit env (run (publish env) {} ps) value = .ok (some n) →
              (outputs (publish env) (published env) {} ps).length ≤ n) := by
  have h : Chained env (run (publish env) {} ps) (outputs (publish env) (published env) {} ps) :=
    Chained.run .empty ps
  refine ⟨fun i record hrecord => ?_, fun now value ledger hnow hexport => ?_⟩
  · exact ⟨h.readable record (List.mem_of_getElem? hrecord), h.index i record hrecord,
      fun next hnext => h.linked.getElem hrecord hnext⟩
  · obtain ⟨limit, hlimit, -⟩ := bind_eq_ok.mp hexport
    rw [h.export hlimit] at hexport
    rw [← Except.ok.inj hexport, h.export_verifies_iff hnow hlimit, hlimit]
    cases limit with
    | none => simp [windowSize]
    | some n => simp [windowSize, and_comm]


theorem ledger_exports_sample : ∃ record ledger,
    indexOf idealEnv record = (0 : Nat) + 1 ∧
      exportLedger idealEnv (run (publish idealEnv) {} samplePublications) 1 (.int 1) = .ok ledger ∧
      ((∃ view, verifyLedgerExport idealEnv ledger = .ok view) ↔
        (outputs (publish idealEnv) (published idealEnv) {} samplePublications).length ≤ maxRecords ∧
          ∀ n, exportLimit idealEnv (run (publish idealEnv) {} samplePublications) (.int 1) =
              .ok (some n) →
            (outputs (publish idealEnv) (published idealEnv) {} samplePublications).length ≤ n) := by
  obtain ⟨first, second, hrecords⟩ := sampleRecords
  have hexport := @Chained.export _ 1 _ _ (Chained.run .empty samplePublications) _ _ (sampleLimit _)
  obtain ⟨hindex, hverifies⟩ := ledger_exports idealEnv samplePublications
  exact ⟨first, _, (hindex 0 first (by rw [hrecords]; rfl)).2.1, hexport,
    hverifies 1 (.int 1) _ one_pos hexport⟩

/-- The export of one record of two does not verify. -/
theorem not_ledger_exports : ¬ ∀ env ps now value ledger, 0 < now →
    exportLedger env (run (publish env) {} ps) now value = .ok ledger →
      ∃ view, verifyLedgerExport env ledger = .ok view := by
  intro hverifies
  obtain ⟨first, second, hrecords⟩ := sampleRecords
  have hchained := @Chained.run idealEnv _ _ .empty samplePublications
  have hexport := @Chained.export _ 1 _ _ hchained _ _ (sampleLimit _)
  have hview := hverifies idealEnv samplePublications 1 (.int 1) _ one_pos hexport
  rw [hchained.export_verifies_iff one_pos (sampleLimit _), List.nil_append, hrecords] at hview
  exact absurd hview (by simp [windowSize, maxRecords])

end Vincent.Root
