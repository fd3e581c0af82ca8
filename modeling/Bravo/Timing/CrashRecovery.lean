import Bravo.Timing.JournalFile

/-! # Reading the recovery journal after a crash

Whatever the transaction has appended, the file is a chain of complete lines whose first one holds the
prior state. A crash that leaves complete lines, no more than the reader's bound, leaves a readable
journal; one that tears a line leaves a journal that the reader refuses.
-/

namespace Bravo.Timing

open Bravo.Json Bravo.Trace List JournalHandle

variable {b : Backend} {profileSha256 transactionId : String}

/-! ## Lines and snapshots -/

theorem isLine_canonicalJson (v : Json) : IsLine (canonicalJson v) := by
  refine ⟨v.canonicalBytes, rfl, fun c hc => ?_⟩
  have hplain := canonicalBytes_no_break v c hc
  constructor <;> (rintro rfl; exact absurd hplain (by decide))

theorem strictJson_dropLast_canonicalJson {v : Json} (hv : v.canonical = true) :
    strictJson (canonicalJson v).dropLast = some v := by
  rw [canonicalJson, dropLast_concat, strictJson_canonicalBytes hv]

theorem canonicalItems_of_forall {vs : List Json} (h : ∀ v ∈ vs, v.canonical = true) :
    canonicalItems vs = true := by
  induction vs with
  | nil => rfl
  | cons v vs ih =>
    rw [canonicalItems, h v mem_cons_self, ih fun w hw => h w (mem_cons_of_mem v hw)]
    rfl

theorem canonical_eventRecord (sequence : Nat) (previous event : String) {snapshot : Json}
    (h : snapshot.canonical = true) :
    (eventRecord profileSha256 transactionId sequence previous event snapshot).canonical = true := by
  have hkeys : exactKeys.Pairwise (· < ·) := by decide
  rw [eventRecord, canonical, Bool.and_eq_true, decide_eq_true_eq]
  exact ⟨hkeys, by simp [canonicalEntries, canonical, h]⟩

theorem canonical_asRecord (s : ControlSnapshot) : s.asRecord.canonical = true := by
  have hnames : ∀ names : List String, canonicalItems (names.map .str) = true := fun names =>
    canonicalItems_of_forall fun v hv => by
      obtain ⟨name, -, rfl⟩ := mem_map.mp hv
      rfl
  have hcpus : canonicalItems (s.processAffinity.map fun cpu : Nat => .int cpu) = true :=
    canonicalItems_of_forall fun v hv => by
      obtain ⟨cpu, -, rfl⟩ := mem_map.mp hv
      rfl
  have hvalues : canonicalItems (s.values.map (·.asRecord)) = true :=
    canonicalItems_of_forall fun v hv => by
      obtain ⟨value, -, rfl⟩ := mem_map.mp hv
      have hkeys : ["parser", "path", "text"].Pairwise (· < ·) := by decide
      rw [ControlValue.asRecord, canonical, Bool.and_eq_true, decide_eq_true_eq]
      exact ⟨hkeys, rfl⟩
  have hkeys : ["modules_preexisting", "process_affinity", "record_type", "schema_version",
      "services_active", "values"].Pairwise (· < ·) := by decide
  rw [ControlSnapshot.asRecord, canonical, Bool.and_eq_true, decide_eq_true_eq]
  exact ⟨hkeys, by simp [canonicalEntries, canonical, hnames, hcpus, hvalues]⟩

structure Admitted (b : Backend) (s : ControlSnapshot) : Prop where
  paths : ∀ v ∈ s.values, isabs v.path = true ∧ normpath v.path = v.path
  parses : ∀ v ∈ s.values, b.parseControlValue v.text v.parser = .ok ⟨⟩
  modules : s.modulesPreexisting.Pairwise (· < ·) ∧ ∀ name ∈ s.modulesPreexisting, name ∈ allowedModules
  services : s.servicesActive.Pairwise (· < ·) ∧ ∀ name ∈ s.servicesActive, name ∈ [allowedService]
  affinity : s.processAffinity ≠ [] ∧ s.processAffinity.Pairwise (· < ·) ∧
    ∀ cpu ∈ s.processAffinity, cpu ≤ 4095

theorem mapM_map_ok {ε α β γ : Type} {f : β → Except ε γ} {g : α → β} {k : α → γ} {as : List α}
    (h : ∀ a ∈ as, f (g a) = .ok (k a)) : (as.map g).mapM f = .ok (as.map k) := by
  induction as with
  | nil => rfl
  | cons a as ih =>
    rw [map_cons, mapM_cons, h a mem_cons_self,
      ih fun a' ha' => h a' (mem_cons_of_mem a ha')]
    rfl

theorem snapshotValue_asRecord {v : ControlValue} (hpath : isabs v.path = true ∧ normpath v.path = v.path)
    (hparse : b.parseControlValue v.text v.parser = .ok ⟨⟩) : snapshotValue b v.asRecord = .ok v := by
  simp [snapshotValue, ControlValue.asRecord, Json.keys, Json.field, hpath.1, hpath.2, hparse]

theorem snapshotNames_map {allowed : List String} (message : String) {names : List String}
    (h : names.Pairwise (· < ·) ∧ ∀ name ∈ names, name ∈ allowed) :
    snapshotNames allowed message (some (.arr (names.map .str))) = .ok names := by
  have hmap : ∀ names : List String, (names.map Json.str).mapM string? = some names := by
    intro names
    induction names with
    | nil => rfl
    | cons name names ih =>
      rw [map_cons, mapM_cons, ih]
      rfl
  rw [snapshotNames, hmap]
  exact if_pos h

theorem snapshotAffinity_map {cpus : List Nat}
    (h : cpus ≠ [] ∧ cpus.Pairwise (· < ·) ∧ ∀ cpu ∈ cpus, cpu ≤ 4095) :
    snapshotAffinity (some (.arr (cpus.map fun cpu : Nat => .int cpu))) = .ok cpus := by
  have hplain : ∀ cpu ∈ cpus, plainU64 "snapshot affinity CPU" (.int cpu) = .ok cpu := by
    intro cpu hcpu
    have hle := h.2.2 cpu hcpu
    rw [plainU64, if_pos ⟨by omega, by omega⟩, Int.toNat_natCast]
  have hlast : ∀ cpu ∈ cpus.getLast?, cpu ≤ 4095 := fun cpu hcpu =>
    h.2.2 cpu (mem_of_getLast? hcpu)
  rw [snapshotAffinity, mapM_map_ok (k := fun cpu => cpu) hplain, List.map_id']
  exact if_pos ⟨h.1, h.2.1, hlast⟩

variable {s : ControlSnapshot}

theorem snapshotFromRecord_asRecord (h : Admitted b s) :
    snapshotFromRecord b s.asRecord = .ok s := by
  have hvalues : (s.values.map (·.asRecord)).mapM (snapshotValue b) = .ok s.values := by
    have hmap := mapM_map_ok (f := snapshotValue b) (g := ControlValue.asRecord) (k := fun v => v)
      fun v hv => snapshotValue_asRecord (h.paths v hv) (h.parses v hv)
    rwa [List.map_id'] at hmap
  have hmodules := snapshotNames_map "control snapshot module population is not canonical" h.modules
  have hservices := snapshotNames_map "control snapshot service population is not canonical" h.services
  have hcpus := snapshotAffinity_map h.affinity
  have hkeys : s.asRecord.keys = some ["modules_preexisting", "process_affinity", "record_type",
      "schema_version", "services_active", "values"] := rfl
  have hversion : isNat 1 (s.asRecord.field "schema_version") = true := rfl
  have htype : isStr "cp2_timing_control_prior_state" (s.asRecord.field "record_type") = true := rfl
  have hfield : s.asRecord.field "values" = some (.arr (s.values.map (·.asRecord))) := rfl
  have hfieldModules : s.asRecord.field "modules_preexisting" =
      some (.arr (s.modulesPreexisting.map .str)) := rfl
  have hfieldServices : s.asRecord.field "services_active" = some (.arr (s.servicesActive.map .str)) := rfl
  have hfieldCpus : s.asRecord.field "process_affinity" =
      some (.arr (s.processAffinity.map fun cpu : Nat => .int cpu)) := rfl
  rw [snapshotFromRecord, hkeys, hversion, htype, hfield, hfieldModules, hfieldServices, hfieldCpus]
  simp only [ne_eq, not_true_eq_false, if_false, Bool.not_true, Bool.or_self, Bool.false_eq_true, hvalues,
    hmodules, hservices, hcpus]
  rfl

/-! ## The chain of records -/

/-- The records of some events with their snapshots, chained from a sequence number and a digest on. -/
def chainRecords (profileSha256 transactionId : String) : Nat → String → List (String × Json) → List Json
  | _, _, [] => []
  | sequence, previous, (event, snapshot) :: entries =>
    let record := eventRecord profileSha256 transactionId sequence previous event snapshot
    record :: chainRecords profileSha256 transactionId (sequence + 1) (sha256Hex (canonicalJson record)) entries

def lastDigest (previous : String) (records : List Json) : String :=
  (records.getLast?.map fun record => sha256Hex (canonicalJson record)).getD previous

@[simp] theorem length_chainRecords (entries : List (String × Json)) : ∀ sequence previous,
    (chainRecords profileSha256 transactionId sequence previous entries).length = entries.length := by
  induction entries with
  | nil => exact fun _ _ => rfl
  | cons entry entries ih => exact fun _ _ => congrArg (· + 1) (ih _ _)

theorem lastDigest_cons (previous : String) (record : Json) (records : List Json) :
    lastDigest previous (record :: records) = lastDigest (sha256Hex (canonicalJson record)) records := by
  cases records with
  | nil => rfl
  | cons r rs => simp [lastDigest, getLast?_cons]

theorem chainRecords_append (entries : List (String × Json)) (entry : String × Json) : ∀ sequence previous,
    chainRecords profileSha256 transactionId sequence previous (entries ++ [entry]) =
      chainRecords profileSha256 transactionId sequence previous entries ++
        [eventRecord profileSha256 transactionId (sequence + entries.length)
          (lastDigest previous (chainRecords profileSha256 transactionId sequence previous entries))
          entry.1 entry.2] := by
  induction entries with
  | nil => exact fun _ _ => rfl
  | cons e entries ih =>
    intro sequence previous
    simp only [cons_append, chainRecords, ih, lastDigest_cons, length_cons]
    rw [Nat.add_right_comm, Nat.add_assoc sequence]

theorem chainRecords_take (entries : List (String × Json)) : ∀ sequence previous k,
    (chainRecords profileSha256 transactionId sequence previous entries).take k =
      chainRecords profileSha256 transactionId sequence previous (entries.take k) := by
  induction entries with
  | nil => exact fun _ _ k => by simp [chainRecords]
  | cons entry entries ih =>
    intro sequence previous k
    cases k with
    | zero => rfl
    | succ k => simp only [chainRecords, take_succ_cons, ih]

def Prior (b : Backend) (sequence : Nat) (entry : String × Json) : Prop :=
  match sequence with
  | 0 => entry.1 = "prior_state_captured" ∧ ∃ s, Admitted b s ∧ entry.2 = s.asRecord
  | _ + 1 => entry.2 = .null

theorem Prior.canonical {sequence : Nat} {entry : String × Json} (h : Prior b sequence entry) :
    entry.2.canonical = true := by
  cases sequence with
  | zero =>
    obtain ⟨-, s, -, hs⟩ := h
    rw [hs]
    exact canonical_asRecord s
  | succ n =>
    rw [show entry.2 = .null from h]
    rfl

theorem checkSnapshot_eventRecord {sequence : Nat} {previous : String} {entry : String × Json}
    (h : Prior b sequence entry) :
    checkSnapshot b sequence (eventRecord profileSha256 transactionId sequence previous entry.1 entry.2) =
      .ok ⟨⟩ := by
  have hfield : (eventRecord profileSha256 transactionId sequence previous entry.1 entry.2).field "snapshot" =
      some entry.2 := rfl
  have hevent : (eventRecord profileSha256 transactionId sequence previous entry.1 entry.2).field "event" =
      some (.str entry.1) := rfl
  rw [checkSnapshot, hfield, hevent]
  cases sequence with
  | zero =>
    obtain ⟨hname, s, hs, hsnapshot⟩ := h
    have hnull : isNull (some s.asRecord) = false := rfl
    rw [hname, hsnapshot, hnull, if_pos rfl, Option.getD_some, snapshotFromRecord_asRecord hs]
    simp [isStr]
  | succ n =>
    rw [show entry.2 = .null from h]
    rfl

variable {h : JournalHandle}

theorem checkRecord_eventRecord {sequence : Nat} {previous : String}
    {entry : String × Json} (hentry : Prior b sequence entry) :
    checkRecord b h sequence previous
      (eventRecord h.profileSha256 h.transactionId sequence previous entry.1 entry.2) = .ok ⟨⟩ := by
  have hkeys : (eventRecord h.profileSha256 h.transactionId sequence previous entry.1 entry.2).keys =
      some exactKeys := rfl
  rw [checkRecord, hkeys, checkSnapshot_eventRecord hentry]
  simp [eventRecord, Json.field, isNat, isStr]

theorem readChain_chainRecords (entries : List (String × Json)) : ∀ sequence previous,
    (∀ k entry, entries[k]? = some entry → Prior b (sequence + k) entry) →
      readChain b h sequence previous
          ((chainRecords h.profileSha256 h.transactionId sequence previous entries).map canonicalJson) =
        .ok (chainRecords h.profileSha256 h.transactionId sequence previous entries) := by
  induction entries with
  | nil => exact fun _ _ _ => rfl
  | cons entry entries ih =>
    intro sequence previous hentries
    have hentry : Prior b sequence entry := hentries 0 entry rfl
    have hrest := ih (sequence + 1)
      (sha256Hex (canonicalJson (eventRecord h.profileSha256 h.transactionId sequence previous entry.1 entry.2)))
      fun k e he => by
        have := hentries (k + 1) e he
        rwa [← Nat.add_assoc, Nat.add_right_comm] at this
    have hread : strictJournalJson b (canonicalJson
        (eventRecord h.profileSha256 h.transactionId sequence previous entry.1 entry.2)).dropLast =
        .ok (eventRecord h.profileSha256 h.transactionId sequence previous entry.1 entry.2) := by
      rw [strictJournalJson, strictJson_dropLast_canonicalJson (canonical_eventRecord _ _ _ hentry.canonical)]
      rfl
    simp only [chainRecords, map_cons, readChain, (isLine_canonicalJson _).getLast?, hread]
    rw [if_neg (not_not_intro rfl), hrest]
    simp only [bind, Except.bind, checkRecord_eventRecord hentry]
    rfl

/-! ## The journal of a transaction -/

def JournalHandle.chain (h : JournalHandle) (entries : List (String × Json)) : List Json :=
  chainRecords h.profileSha256 h.transactionId 0 noDigest entries

/-- The file is the chain of some entries, the first of which holds the prior state. -/
structure Chained (b : Backend) (profileSha256 transactionId : String) (s : ControlSnapshot)
    (h : JournalHandle) (entries : List (String × Json)) : Prop where
  profile : h.profileSha256 = profileSha256
  transaction : h.transactionId = transactionId
  payload : h.payload = ((h.chain entries).map canonicalJson).flatten
  sequence : h.nextSequence = entries.length
  previous : h.previousSha256 = lastDigest noDigest (h.chain entries)
  bound : h.payload.length ≤ maxJournalBytes
  first : entries.head? = some ("prior_state_captured", s.asRecord)
  prior : ∀ k entry, entries[k]? = some entry → Prior b k entry

theorem isLine_of_mem_map {records : List Json} {line : List UInt8} (h : line ∈ records.map canonicalJson) :
    IsLine line := by
  obtain ⟨record, -, rfl⟩ := mem_map.mp h
  exact isLine_canonicalJson record

theorem append_cases (event : String) (snapshot : Json) (h : JournalHandle) :
    wp (JournalHandle.append event snapshot)
      (fun _ t => ∃ payload, payload = canonicalJson (h.record event snapshot) ∧
        h.payload.length + payload.length ≤ maxJournalBytes ∧
        t = { h with
          payload := h.payload ++ payload
          previousSha256 := sha256Hex payload
          nextSequence := h.nextSequence + 1 })
      (fun _ t => t = h ∨ ∃ payload, payload = canonicalJson (h.record event snapshot) ∧
        h.payload.length + payload.length ≤ maxJournalBytes ∧
        t = { h with
          payload := h.payload ++ payload
          previousSha256 := sha256Hex payload
          nextSequence := h.nextSequence + 1 }) h := by
  simp only [append, failJournal, wp_bind, wp_onlyIf, wp_get, wp_throw, wp_modify,
    decide_eq_true_eq, decide_eq_false_iff_not, not_lt]
  refine ⟨fun _ => Or.inl trivial, fun _ => ⟨fun _ => Or.inl trivial, fun hbound => ⟨fun _ => ?_, fun _ => ?_⟩⟩⟩
  · exact Or.inr ⟨_, rfl, hbound, rfl⟩
  · exact ⟨_, rfl, hbound, rfl⟩

variable {entries : List (String × Json)}

theorem Chained.append
    (hc : Chained b profileSha256 transactionId s h entries) (event : String) :
    ∃ entries', Chained b profileSha256 transactionId s
      (finalState ((JournalHandle.append event .null).run h)) entries' := by
  have hcases := wp_iff_finalState.mp (wp_mono (append_cases event .null h) (fun _ _ ht => Or.inr ht)
    (fun _ _ ht => ht))
  rcases hcases with hsame | ⟨payload, hpayload, hbound, hfinal⟩
  · rw [hsame]
    exact ⟨entries, hc⟩
  refine ⟨entries ++ [(event, .null)], ?_⟩
  have hne : entries ≠ [] := fun hnil => by
    have hfirst := hc.first
    simp [hnil] at hfirst
  have hchain : h.chain (entries ++ [(event, .null)]) = h.chain entries ++
      [h.record event .null] := by
    rw [chain, chainRecords_append, record, hc.sequence, hc.previous, Nat.zero_add]
    rfl
  rw [hfinal]
  refine ⟨hc.profile, hc.transaction, ?_, ?_, ?_, ?_, ?_, ?_⟩
  · show h.payload ++ payload = ((h.chain (entries ++ [(event, .null)])).map canonicalJson).flatten
    rw [hchain, map_append, flatten_append, ← hc.payload, hpayload]
    simp
  · show h.nextSequence + 1 = _
    rw [hc.sequence, length_append, length_singleton]
  · show sha256Hex payload = lastDigest noDigest (h.chain (entries ++ [(event, .null)]))
    rw [hchain, hpayload]
    simp [lastDigest]
  · show (h.payload ++ payload).length ≤ maxJournalBytes
    rwa [length_append]
  · rw [head?_append_of_ne_nil _ hne]
    exact hc.first
  · intro k entry hk
    rcases Nat.lt_or_ge k entries.length with hlt | hge
    · exact hc.prior k entry (by rwa [getElem?_append_left hlt] at hk)
    · rw [getElem?_append_right hge] at hk
      obtain ⟨n, rfl⟩ : ∃ n, k = n + 1 := by
        have := length_pos_iff.mpr hne
        exact ⟨k - 1, by omega⟩
      have hentry : (event, Json.null) = entry := by
        have hmem := mem_of_getElem? hk
        exact (mem_singleton.mp hmem).symm
      rw [← hentry]
      rfl

theorem splitLines_chain (records : List Json) (rest : List UInt8) :
    splitLines ((records.map canonicalJson).flatten ++ rest) = records.map canonicalJson ++ splitLines rest :=
  splitLines_flatten (fun _ => isLine_of_mem_map) rest

/-- A journal that ends with one of its first lines is readable, up to the bound of the reader. -/
theorem records_of_take
    (hc : Chained b profileSha256 transactionId s h entries) {k : Nat} (hk : 0 < k)
    (hcount : ((h.chain entries).take k).length ≤ maxJournalRecords) {g : JournalHandle}
    (hprofile : g.profileSha256 = profileSha256) (htransaction : g.transactionId = transactionId)
    (hpayload : g.payload = (((h.chain entries).take k).map canonicalJson).flatten)
    (hbytes : g.payload.length ≤ maxJournalBytes) : g.records b = .ok ((h.chain entries).take k) := by
  have htake : (h.chain entries).take k = g.chain (entries.take k) := by
    rw [chain, chain, chainRecords_take, hprofile, htransaction, hc.profile,
      hc.transaction]
  have hne : (h.chain entries).take k ≠ [] := by
    obtain ⟨entry, rest, hcons⟩ : ∃ entry rest, entries = entry :: rest := by
      cases entries with
      | nil => exact absurd hc.first (by simp)
      | cons entry rest => exact ⟨entry, rest, rfl⟩
    obtain ⟨n, rfl⟩ : ∃ n, k = n + 1 := ⟨k - 1, by omega⟩
    simp [hcons, chain, chainRecords]
  have hlines : ∀ line ∈ ((h.chain entries).take k).map canonicalJson, IsLine line := fun _ => isLine_of_mem_map
  have hlast : g.payload.getLast? = some newline := by
    rw [hpayload]
    exact getLast?_flatten hlines (by simpa using hne)
  have hsplit : splitLines g.payload = ((h.chain entries).take k).map canonicalJson := by
    have := splitLines_chain ((h.chain entries).take k) []
    rwa [append_nil, ← hpayload, splitLines, append_nil] at this
  have hnil : g.payload ≠ [] := fun hnil => by
    rw [hnil] at hlast
    exact absurd hlast (by simp)
  rw [records, if_neg (by simp [hnil, hbytes]), if_neg (not_not_intro hlast), hsplit,
    length_map, if_neg (by omega), htake]
  refine readChain_chainRecords (entries.take k) 0 noDigest fun j entry hj => ?_
  rw [Nat.zero_add]
  have hj' : entries[j]? = some entry := by
    rw [getElem?_take] at hj
    split at hj
    · exact hj
    · exact absurd hj (by simp)
  exact hc.prior j entry hj'

/-! ## Captured snapshots -/

/-- What the validation of a frozen profile promises about its paths and names. -/
structure Frozen (p : Profile) : Prop where
  paths : ∀ write ∈ p.writes, isabs write.path = true ∧ normpath write.path = write.path
  modules : (p.moduleActions.map (·.name)).Nodup ∧ ∀ action ∈ p.moduleActions, action.name ∈ allowedModules
  services : (p.serviceActions.map (·.name)).Nodup ∧
    ∀ action ∈ p.serviceActions, action.name ∈ [allowedService]

theorem sortedNames_pairwise {names : List String} (h : names.Nodup) :
    (sortedNames names).Pairwise (· < ·) := by
  have hsorted : (sortedNames names).Pairwise fun a b => decide (a ≤ b) = true := by
    refine pairwise_mergeSort (fun a b c hab hbc => ?_) (fun a b => ?_) names
    · simp only [decide_eq_true_eq] at hab hbc ⊢
      exact String.le_trans hab hbc
    · simp only [Bool.or_eq_true, decide_eq_true_eq]
      exact String.le_total a b
  have hnodup : (sortedNames names).Nodup := (mergeSort_perm names _).nodup_iff.mpr h
  refine (hsorted.and hnodup).imp fun {a b} hab => ?_
  exact String.not_le.mp fun hba => hab.2 (String.le_antisymm (by simpa using hab.1) hba)

theorem wp_captureValues (writes : List Write) : ∀ m : Machine (Exit ControlError) Control,
    wp (captureValues b writes)
      (fun values _ => ∀ v ∈ values, (∃ write ∈ writes, write.path = v.path) ∧
        b.parseControlValue v.text v.parser = .ok ⟨⟩) (fun _ _ => True) m := by
  induction writes with
  | nil =>
    intro m v hv
    cases hv
  | cons write writes ih =>
    intro m
    rw [captureValues]
    refine (reports_query _).wp_then (fun text m₁ _ => ?_) (fun _ _ _ => trivial)
    cases hparse : b.parseControlValue text write.parser with
    | error e =>
      rw [wp_bind, parseControlValue, hparse]
      trivial
    | ok u =>
      rw [wp_bind, parseControlValue, hparse]
      simp only [wp_pure]
      rw [wp_bind]
      refine wp_mono (ih m₁) (fun values m₂ hvalues => ?_) (fun _ _ _ => trivial)
      intro v hv
      rcases mem_cons.mp hv with rfl | hv
      · exact ⟨⟨write, mem_cons_self, rfl⟩, hparse⟩
      · obtain ⟨⟨w, hw, hpath⟩, hok⟩ := hvalues v hv
        exact ⟨⟨w, mem_cons_of_mem write hw, hpath⟩, hok⟩

theorem wp_capture_admitted {p : Profile} (hp : Frozen p) (m : Machine (Exit ControlError) Control) :
    wp (capture p b) (fun s _ => (∀ cpu ∈ s.processAffinity, cpu ≤ 4095) → Admitted b s)
      (fun _ _ => True) m := by
  have hmodules (s : Control) : (sortedNames ((p.moduleActions.map (·.name)).filter s.host.settings.modules)).Pairwise
      (· < ·) ∧ ∀ name ∈ sortedNames ((p.moduleActions.map (·.name)).filter s.host.settings.modules),
        name ∈ allowedModules := by
    refine ⟨sortedNames_pairwise (hp.modules.1.filter _), fun name hname => ?_⟩
    obtain ⟨action, haction, rfl⟩ := mem_map.mp (mem_of_mem_filter (mem_sortedNames.mp hname))
    exact hp.modules.2 action haction
  have hservices (s : Control) : (sortedNames ((p.serviceActions.map (·.name)).filter s.host.settings.services)).Pairwise
      (· < ·) ∧ ∀ name ∈ sortedNames ((p.serviceActions.map (·.name)).filter s.host.settings.services),
        name ∈ [allowedService] := by
    refine ⟨sortedNames_pairwise (hp.services.1.filter _), fun name hname => ?_⟩
    obtain ⟨action, haction, rfl⟩ := mem_map.mp (mem_of_mem_filter (mem_sortedNames.mp hname))
    exact hp.services.2 action haction
  rw [capture, wp_bind]
  refine wp_mono (wp_captureValues p.writes m) (fun values m₁ hvalues => ?_) (fun _ _ _ => trivial)
  rw [wp_bind]
  refine (observes_namesWhere (fun name => observes_query _) _).wp (fun m₂ h₂ => ?_) (fun _ _ _ => trivial)
  rw [wp_bind]
  refine (observes_namesWhere (fun name => observes_query _) _).wp (fun m₃ h₃ => ?_) (fun _ _ _ => trivial)
  rw [wp_bind]
  refine (observes_query _).wp (fun m₄ h₄ => ?_) (fun _ _ _ => trivial)
  rw [wp_bind, wp_onlyIf]
  refine ⟨fun _ => trivial, fun hcanonical hcpus => ?_⟩
  simp only [canonicalAffinity, Bool.not_eq_eq_eq_not, Bool.not_false, Bool.and_eq_true, decide_eq_true_eq]
    at hcanonical
  refine ⟨fun v hv => ?_, fun v hv => (hvalues v hv).2, hmodules m₁.state, hservices m₂.state,
    hcanonical.1, hcanonical.2, hcpus⟩
  obtain ⟨⟨write, hwrite, hpath⟩, -⟩ := hvalues v hv
  exact hpath ▸ hp.paths write hwrite

/-! ## Runs and crashes -/

theorem Chained.refreshChain
    (hc : Chained b profileSha256 transactionId s h entries) :
    finalState ((JournalHandle.refreshChain b).run h) = h := by
  refine (wp_iff_finalState (P := fun t => t = h)).mp ?_
  simp only [JournalHandle.refreshChain, wp_bind, wp_get, wp_liftExcept, wp_modify]
  refine ⟨fun records hrecords => ?_, fun _ _ => trivial⟩
  -- the bound of the reader holds of a chain that it returns
  have hlines := splitLines_chain (h.chain entries) []
  rw [append_nil, ← hc.payload, splitLines, append_nil] at hlines
  have hcount : ((h.chain entries).take entries.length).length ≤ maxJournalRecords := by
    by_contra hlong
    rw [JournalHandle.records, hlines, length_map] at hrecords
    rw [length_take, chain, length_chainRecords, Nat.min_self] at hlong
    rw [chain, length_chainRecords, if_pos (show maxJournalRecords < entries.length by omega)]
      at hrecords
    split at hrecords
    · exact absurd hrecords (by simp [refuse])
    · split at hrecords <;> exact absurd hrecords (by simp [refuse])
  have hwhole : (h.chain entries).take entries.length = h.chain entries :=
    take_of_length_le (by rw [chain, length_chainRecords])
  have hpos : 0 < entries.length := by
    have hfirst := hc.first
    cases entries with
    | nil => exact absurd hfirst (by simp)
    | cons entry entries => exact Nat.succ_pos _
  have hread := records_of_take hc hpos hcount hc.profile hc.transaction (by rw [hwhole]; exact hc.payload) hc.bound
  rw [hwhole] at hread
  obtain rfl : h.chain entries = records := Except.ok.inj (hread.symm.trans hrecords)
  have hsequence : (h.chain entries).length = h.nextSequence := by
    rw [hc.sequence, chain, length_chainRecords]
  have hprevious : sha256Hex ((splitLines h.payload).getLastD []) = h.previousSha256 := by
    have hne : h.chain entries ≠ [] := fun hnil => by
      rw [hnil] at hsequence
      rw [hc.sequence] at hsequence
      exact absurd hsequence.symm (by simpa using hpos.ne')
    rw [hlines, hc.previous, lastDigest, getLastD_eq_getLast?, getLast?_map]
    cases hlast : (h.chain entries).getLast? with
    | none => exact absurd (getLast?_eq_none_iff.mp hlast) hne
    | some record => rfl
  rw [hsequence, hprevious]

theorem Chained.perform
    (hc : Chained b profileSha256 transactionId s h entries) (call : JournalCall) :
    ∃ entries', Chained b profileSha256 transactionId s (h.perform b call) entries' := by
  cases call with
  | append event => exact hc.append event
  | refreshChain =>
    refine ⟨entries, ?_⟩
    rw [JournalHandle.perform, JournalCall.run, hc.refreshChain]
    exact hc

theorem Chained.run (calls : List JournalCall) : ∀ {h : JournalHandle} {entries},
    Chained b profileSha256 transactionId s h entries →
      ∃ entries', Chained b profileSha256 transactionId s (calls.foldl (JournalHandle.perform b) h) entries' := by
  induction calls with
  | nil => exact fun hc => ⟨_, hc⟩
  | cons call calls ih =>
    intro h entries hc
    obtain ⟨entries', hc'⟩ := hc.perform call
    exact ih hc'

def priorRecord (profileSha256 transactionId : String) (s : ControlSnapshot) : Json :=
  eventRecord profileSha256 transactionId 0 noDigest "prior_state_captured" s.asRecord

theorem chained_createJournal (hs : Admitted b s)
    (hcreate : createJournal profileSha256 transactionId s = .ok h) :
    h.payload = canonicalJson (priorRecord profileSha256 transactionId s) ∧
      Chained b profileSha256 transactionId s h [("prior_state_captured", s.asRecord)] := by
  have hcases := append_cases "prior_state_captured" s.asRecord ⟨[], profileSha256, transactionId, 0, noDigest⟩
  unfold wp at hcases
  rw [createJournal] at hcreate
  revert hcases hcreate
  cases (JournalHandle.append "prior_state_captured" s.asRecord).run ⟨[], profileSha256, transactionId, 0, noDigest⟩ with
  | ok u t =>
    intro hcreate hcases
    obtain rfl := Except.ok.inj hcreate
    obtain ⟨payload, hpayload, hbound, rfl⟩ := hcases
    subst hpayload
    refine ⟨rfl, rfl, rfl, ?_, rfl, rfl, by simpa using hbound, rfl, fun k entry hk => ?_⟩
    · simp [chain, chainRecords, record]
    · cases k with
      | zero =>
        obtain rfl : ("prior_state_captured", s.asRecord) = entry := by simpa using hk
        exact ⟨rfl, s, hs, rfl⟩
      | succ k => exact absurd hk (by simp)
  | error e t => exact fun hcreate _ => absurd hcreate (by simp [handleOf])

def JournalHandle.crash (h : JournalHandle) (n : Nat) : List UInt8 := h.payload.take n

/-- A file that starts with the first record is opened as far as its chain can be read. -/
theorem openExistingJournal_of_lines
    (hc : Chained b profileSha256 transactionId s h entries) (htransaction : validTransactionId transactionId = true)
    {k : Nat} (hk : 0 < k) (tail : List UInt8)
    (hbytes : ((((h.chain entries).take k).map canonicalJson).flatten ++ tail).length ≤ maxJournalBytes) :
    openExistingJournal b profileSha256 ((((h.chain entries).take k).map canonicalJson).flatten ++ tail) =
      handleOf ((JournalHandle.refreshChain b).run
        ⟨(((h.chain entries).take k).map canonicalJson).flatten ++ tail, profileSha256, transactionId, 0,
          noDigest⟩) := by
  obtain ⟨record, records, hrecords, hread, hfield⟩ : ∃ record records,
      (h.chain entries).take k = record :: records ∧ strictJson (canonicalJson record).dropLast = some record ∧
        record.field "transaction_id" = some (.str transactionId) := by
    obtain ⟨n, rfl⟩ : ∃ n, k = n + 1 := ⟨k - 1, by omega⟩
    cases entries with
    | nil => exact absurd hc.first (by simp)
    | cons entry rest =>
      have hentry := hc.prior 0 entry rfl
      refine ⟨_, _, rfl, strictJson_dropLast_canonicalJson (canonical_eventRecord _ _ _ hentry.canonical), ?_⟩
      rw [← hc.transaction]
      rfl
  have hstrict : strictJournalJson b (canonicalJson record).dropLast = .ok record := by
    rw [strictJournalJson, hread]
    cases record <;> first | rfl | exact absurd hfield (by simp [Json.field])
  have hne : (((h.chain entries).take k).map canonicalJson).flatten ++ tail ≠ [] := by
    simp [hrecords, canonicalJson]
  have hfirst : (splitLines ((((h.chain entries).take k).map canonicalJson).flatten ++ tail)).headD [] =
      canonicalJson record := by
    rw [splitLines_chain, hrecords]
    rfl
  rw [openExistingJournal, if_neg (by simp only [not_or, not_lt]; exact ⟨hne, hbytes⟩)]
  simp only [hfirst, (isLine_canonicalJson record).getLast?, hstrict]
  simp [bind, Except.bind, hfield, htransaction]

section Crashed

variable {s : ControlSnapshot} {h : JournalHandle} {entries : List (String × Json)} {k : Nat} {tail : List UInt8}
  {crashed : List UInt8}

theorem getLast?_take_chain (hc : Chained b profileSha256 transactionId s h entries) (hk : 0 < k) :
    (((h.chain entries).take k).map canonicalJson).flatten.getLast? = some newline := by
  refine getLast?_flatten (fun _ => isLine_of_mem_map) ?_
  obtain ⟨n, rfl⟩ : ∃ n, k = n + 1 := ⟨k - 1, by omega⟩
  cases entries with
  | nil => exact absurd hc.first (by simp)
  | cons entry rest => simp [chain, chainRecords]

/-- Complete records, up to the bound of the reader, give the prior state. -/
theorem recoverySnapshot_of_lines (hc : Chained b profileSha256 transactionId s h entries)
    (htransaction : validTransactionId transactionId = true) (hk : 0 < k) (hs : Admitted b s)
    (hcrashed : crashed = (((h.chain entries).take k).map canonicalJson).flatten)
    (hbound : crashed.length ≤ maxJournalBytes) (hcount : crashed.count newline ≤ maxJournalRecords) :
    recoverySnapshot b profileSha256 crashed = .ok s := by
  have hopen := openExistingJournal_of_lines hc htransaction hk []
    (by rwa [append_nil, ← hcrashed])
  rw [append_nil, ← hcrashed] at hopen
  have hlength : ((h.chain entries).take k).length ≤ maxJournalRecords := by
    rwa [hcrashed, count_newline_flatten (fun _ => isLine_of_mem_map), length_map] at hcount
  have hread : ∀ g : JournalHandle, g.profileSha256 = profileSha256 → g.transactionId = transactionId →
      g.payload = crashed → g.records b = .ok ((h.chain entries).take k) := fun g hprofile hid hpayload =>
    records_of_take hc hk hlength hprofile hid (hpayload.trans hcrashed) (hpayload ▸ hbound)
  have hfirst : (((h.chain entries).take k).head?.bind (·.field "snapshot")) = some s.asRecord := by
    obtain ⟨n, rfl⟩ : ∃ n, k = n + 1 := ⟨k - 1, by omega⟩
    cases entries with
    | nil => exact absurd hc.first (by simp)
    | cons entry rest =>
      obtain rfl : entry = _ := by simpa using hc.first
      rfl
  have hrun : openExistingJournal b profileSha256 crashed =
      .ok ⟨crashed, profileSha256, transactionId, ((h.chain entries).take k).length,
        sha256Hex ((splitLines crashed).getLastD [])⟩ := by
    rw [hopen]
    simp only [JournalHandle.refreshChain, EStateM.run_bind, EStateM.run_get,
      hread ⟨crashed, profileSha256, transactionId, 0, noDigest⟩ rfl rfl rfl]
    rfl
  rw [recoverySnapshot, hrun]
  simp only [bind, Except.bind, hread ⟨crashed, profileSha256, transactionId, _, _⟩ rfl rfl rfl, hfirst]
  exact snapshotFromRecord_asRecord hs

theorem recoverySnapshot_torn (hc : Chained b profileSha256 transactionId s h entries)
    (htransaction : validTransactionId transactionId = true) (hk : 0 < k)
    (hcrashed : crashed = (((h.chain entries).take k).map canonicalJson).flatten ++ tail)
    (hbound : crashed.length ≤ maxJournalBytes) (hlast : crashed.getLast? ≠ some newline) :
    recoverySnapshot b profileSha256 crashed = .error (.control "recovery journal read is incomplete") := by
  have hopen := openExistingJournal_of_lines hc htransaction hk _ (by rwa [← hcrashed])
  rw [← hcrashed] at hopen
  have hne : crashed ≠ [] := by
    rintro rfl
    have hlines := getLast?_take_chain hc hk
    rw [(append_eq_nil_iff.mp hcrashed.symm).1] at hlines
    exact absurd hlines (by simp)
  have hread : (⟨crashed, profileSha256, transactionId, 0, noDigest⟩ : JournalHandle).records b =
      .error (.control "recovery journal read is incomplete") := by
    rw [records, if_neg (by simp [hne, hbound]), if_pos hlast]
    rfl
  have hrun : openExistingJournal b profileSha256 crashed =
      .error (.control "recovery journal read is incomplete") := by
    rw [hopen]
    simp only [JournalHandle.refreshChain, EStateM.run_bind, EStateM.run_get, hread]
    rfl
  rw [recoverySnapshot, hrun]
  rfl

end Crashed

theorem crash_lines {h h' : JournalHandle} (hc : Chained b profileSha256 transactionId s h' entries)
    (hfirst : h.payload = canonicalJson (priorRecord profileSha256 transactionId s)) {n : Nat}
    (hn : h.payload.length ≤ n) : ∃ k tail, 0 < k ∧
      h'.crash n = (((h'.chain entries).take k).map canonicalJson).flatten ++ tail ∧ Unbroken tail := by
  obtain ⟨k, tail, htake, htail⟩ := take_flatten ((h'.chain entries).map canonicalJson) n
  rw [← hc.payload, ← map_take] at htake
  obtain ⟨records, hrecords⟩ : ∃ records, h'.chain entries = priorRecord profileSha256 transactionId s :: records := by
    obtain ⟨rest, rfl⟩ : ∃ rest, entries = ("prior_state_captured", s.asRecord) :: rest := by
      cases entries with
      | nil => exact absurd hc.first (by simp)
      | cons entry rest =>
        obtain rfl : entry = _ := by simpa using hc.first
        exact ⟨rest, rfl⟩
    rw [chain, hc.profile, hc.transaction]
    exact ⟨_, rfl⟩
  have hlong : h.payload.length ≤ (h'.crash n).length := by
    have hpayload := congrArg List.length hc.payload
    rw [hrecords, map_cons, flatten_cons, ← hfirst, length_append] at hpayload
    rw [crash, length_take]
    omega
  have hpos := length_pos_iff.mpr (isLine_canonicalJson (priorRecord profileSha256 transactionId s)).ne_nil
  rw [← hfirst] at hpos
  refine ⟨k, tail, ?_, htake, ?_⟩
  · -- otherwise the file that is left is shorter than its first line
    by_contra hzero
    obtain rfl : k = 0 := by omega
    have htailbytes : h'.crash n = tail := by simpa [crash] using htake
    rcases htail with hnil | ⟨line, rest, hdrop, hstart, hne⟩
    · rw [htailbytes, hnil, length_nil] at hlong
      omega
    · rw [drop_zero, hrecords, map_cons, ← hfirst] at hdrop
      obtain ⟨rfl, -⟩ := List.cons.inj hdrop
      rw [htailbytes] at hlong
      exact hne (hstart.eq_of_length (Nat.le_antisymm hstart.length_le hlong))
  · rcases htail with rfl | ⟨line, rest, hdrop, hstart, hne⟩
    · exact fun c hc => by cases hc
    · have hline : line ∈ (h'.chain entries).map canonicalJson :=
        mem_of_mem_drop (hdrop ▸ mem_cons_self)
      exact (isLine_of_mem_map hline).unbroken_of_start hstart hne

variable {p : Profile} {m m' : Machine (Exit ControlError) Control} {snapshot : ControlSnapshot}

/-- **Recoverability of the journal.** The journal of a transaction, cut by a crash after its first record:
where complete records remain, up to the reader's bound on their number, opening and reading it gives the
snapshot that was captured; where a torn record remains, it is refused. -/
theorem recovery_journal_readable (hfrozen : Frozen p) (hcapture : (capture p b).run m = .ok snapshot m')
    (hcpus : ∀ cpu ∈ snapshot.processAffinity, cpu ≤ 4095) {h : JournalHandle}
    (htransaction : validTransactionId transactionId = true)
    (hcreate : createJournal p.sha256 transactionId snapshot = .ok h) (calls : List JournalCall) {n : Nat}
    (hn : h.payload.length ≤ n) :
    let crashed := (calls.foldl (JournalHandle.perform b) h).crash n
    (crashed.getLast? = some newline → crashed.count newline ≤ maxJournalRecords →
      recoverySnapshot b p.sha256 crashed = .ok snapshot) ∧
    (crashed.getLast? ≠ some newline →
      recoverySnapshot b p.sha256 crashed = .error (.control "recovery journal read is incomplete")) := by
  have hadmitted : Admitted b snapshot := by
    have hwp := wp_capture_admitted (b := b) hfrozen m
    rw [wp_of_ok hcapture] at hwp
    exact hwp hcpus
  obtain ⟨hfirst, hchained⟩ := chained_createJournal hadmitted hcreate
  obtain ⟨entries, hc⟩ := hchained.run calls
  generalize calls.foldl (perform b) h = h' at *
  intro crashed
  have hbound : crashed.length ≤ maxJournalBytes := (length_take_le' n h'.payload).trans hc.bound
  obtain ⟨k, tail, hk, hcrashed, hunbroken⟩ := crash_lines hc hfirst hn
  by_cases htail : tail = []
  · subst htail
    rw [append_nil] at hcrashed
    refine ⟨fun _ hcount => ?_, fun htorn => absurd ?_ htorn⟩
    · exact recoverySnapshot_of_lines hc htransaction hk hadmitted hcrashed hbound hcount
    · show (h'.crash n).getLast? = some newline
      rw [hcrashed]
      exact getLast?_take_chain hc hk
  · have hlast : crashed.getLast? ≠ some newline := by
      show (h'.crash n).getLast? ≠ some newline
      rw [hcrashed, getLast?_append_of_ne_nil _ htail]
      exact hunbroken.getLast?_ne
    refine ⟨fun hwhole => absurd hwhole hlast, fun _ => ?_⟩
    exact recoverySnapshot_torn hc htransaction hk hcrashed hbound hlast

/-! ## One control -/

def governorPath : String := "/sys/devices/system/cpu/cpu0/cpufreq/scaling_governor"

def governorProfile : Profile where
  sha256 := noDigest
  writes := [⟨governorPath, "performance", "text"⟩]
  moduleActions := []
  serviceActions := []
  cpuIds := [0, 1]
  smtSiblingGroups := [[0, 1]]
  dmaLatencyUs := 0

def textBackend : Backend where
  command := fun _ s => s
  parseControlValue := fun _ _ => .ok ⟨⟩

def governorHost (cpus : List Nat) : Machine (Exit ControlError) Control where
  state := { host := ⟨⟨fun _ => "powersave", fun _ => false, fun _ => false, cpus⟩, false⟩ }

def governorPrior (cpus : List Nat) : ControlSnapshot := ⟨[⟨governorPath, "text", "powersave"⟩], [], [], cpus⟩

def sampleId : String := String.ofList (List.replicate 32 'a')

theorem append_of_le (event : String) (snapshot : Json) (hvalid : validEvent event = true)
    (hbytes : h.payload.length + (canonicalJson (h.record event snapshot)).length ≤ maxJournalBytes)
    (hcount : h.nextSequence + 1 ≤ maxJournalRecords) :
    (JournalHandle.append event snapshot).run h = .ok ⟨⟩ { h with
      payload := h.payload ++ canonicalJson (h.record event snapshot)
      previousSha256 := sha256Hex (canonicalJson (h.record event snapshot))
      nextSequence := h.nextSequence + 1 } := by
  have hwp : wp (append event snapshot) (fun _ t => t = { h with
        payload := h.payload ++ canonicalJson (h.record event snapshot)
        previousSha256 := sha256Hex (canonicalJson (h.record event snapshot))
        nextSequence := h.nextSequence + 1 }) (fun _ _ => False) h := by
    simp only [append, failJournal, wp_bind, wp_onlyIf, wp_get, wp_throw, wp_modify, hvalid,
      decide_eq_true_eq]
    refine ⟨fun hinvalid => by simp at hinvalid, fun _ => ⟨fun hlong => ?_, fun _ => ⟨fun hlong => ?_, fun _ => trivial⟩⟩⟩
    · omega
    · omega
  obtain ⟨u, t, hrun, rfl⟩ := wp_ok_iff.mp hwp
  exact hrun

theorem createJournal_of_le
    (hbound : (canonicalJson (priorRecord profileSha256 transactionId s)).length ≤ maxJournalBytes) :
    createJournal profileSha256 transactionId s =
      .ok ⟨canonicalJson (priorRecord profileSha256 transactionId s), profileSha256, transactionId, 1,
        sha256Hex (canonicalJson (priorRecord profileSha256 transactionId s))⟩ := by
  have hrun := append_of_le "prior_state_captured" s.asRecord
    (h := ⟨[], profileSha256, transactionId, 0, noDigest⟩) (by decide)
    (by rw [length_nil, Nat.zero_add]; exact hbound) (show 0 + 1 ≤ maxJournalRecords by decide)
  rw [createJournal, hrun]
  rfl

theorem capture_governorProfile {cpus : List Nat} (h : canonicalAffinity cpus = true) :
    (capture governorProfile textBackend).run (governorHost cpus) =
      .ok (governorPrior cpus) (governorHost cpus) := by
  have hnil : sortedNames [] = [] := by simp [sortedNames]
  have hprior : governorPrior cpus = ⟨[⟨governorPath, "text", "powersave"⟩], sortedNames [], sortedNames [], cpus⟩ := by
    rw [hnil]
    rfl
  have hrun : (capture governorProfile textBackend).run (governorHost cpus) =
      (onlyIf (!canonicalAffinity cpus) (failControl "captured process affinity is empty or noncanonical") >>=
        fun _ => pure (⟨[⟨governorPath, "text", "powersave"⟩], sortedNames [], sortedNames [], cpus⟩ :
          ControlSnapshot)).run (governorHost cpus) := rfl
  rw [hrun, hprior, h]
  rfl

theorem frozen_governorProfile : Frozen governorProfile where
  paths := by decide
  modules := ⟨nodup_nil, fun action haction => by cases haction⟩
  services := ⟨nodup_nil, fun action haction => by cases haction⟩

/-- The journal of `governorProfile` with its first record. -/
def governorJournal (cpus : List Nat) : JournalHandle :=
  ⟨canonicalJson (priorRecord noDigest sampleId (governorPrior cpus)), noDigest, sampleId, 1,
    sha256Hex (canonicalJson (priorRecord noDigest sampleId (governorPrior cpus)))⟩

theorem length_priorRecord_le : ∀ cpus ∈ [[0, 1], [4096]],
    (canonicalJson (priorRecord noDigest sampleId (governorPrior cpus))).length ≤ 8000 := by
  decide +kernel

theorem createJournal_governor (cpus : List Nat) (h : cpus ∈ [[0, 1], [4096]]) :
    createJournal noDigest sampleId (governorPrior cpus) = .ok (governorJournal cpus) :=
  createJournal_of_le ((length_priorRecord_le cpus h).trans (by norm_num [maxJournalBytes]))

theorem validTransactionId_sampleId : validTransactionId sampleId = true := by decide

/-- Crashes behind the second record and inside it. -/
theorem recovery_journal_readable_governor :
    let crashed (n : Nat) := ([JournalCall.append "apply:after_journal"].foldl (JournalHandle.perform textBackend)
      (governorJournal [0, 1])).crash ((governorJournal [0, 1]).payload.length + n)
    ((crashed 8000).getLast? = some newline → (crashed 8000).count newline ≤ maxJournalRecords →
      recoverySnapshot textBackend noDigest (crashed 8000) = .ok (governorPrior [0, 1])) ∧
    ((crashed 1).getLast? ≠ some newline →
      recoverySnapshot textBackend noDigest (crashed 1) = .error (.control "recovery journal read is incomplete")) := by
  have hreadable := fun n => recovery_journal_readable frozen_governorProfile (capture_governorProfile (by decide))
    (by decide) validTransactionId_sampleId (createJournal_governor [0, 1] (by simp))
    [.append "apply:after_journal"] (Nat.le_add_right _ n)
  exact ⟨(hreadable 8000).1, (hreadable 1).2⟩

theorem recoverySnapshot_of_refused {e : ControlError}
    (htransaction : validTransactionId transactionId = true)
    (hbound : (canonicalJson (priorRecord profileSha256 transactionId s)).length ≤ maxJournalBytes)
    (hrefused : snapshotFromRecord b s.asRecord = .error e) :
    recoverySnapshot b profileSha256 (canonicalJson (priorRecord profileSha256 transactionId s)) = .error e := by
  have hline := isLine_canonicalJson (priorRecord profileSha256 transactionId s)
  have hsplit : splitLines (canonicalJson (priorRecord profileSha256 transactionId s)) =
      [canonicalJson (priorRecord profileSha256 transactionId s)] := by
    have := splitLines_chain [priorRecord profileSha256 transactionId s] []
    simpa [splitLines] using this
  have hstrict : strictJournalJson b (canonicalJson (priorRecord profileSha256 transactionId s)).dropLast =
      .ok (priorRecord profileSha256 transactionId s) := by
    have hcanonical : (priorRecord profileSha256 transactionId s).canonical = true :=
      canonical_eventRecord _ _ _ (canonical_asRecord s)
    rw [strictJournalJson, strictJson_dropLast_canonicalJson hcanonical]
    rfl
  have hcheck : checkRecord b ⟨canonicalJson (priorRecord profileSha256 transactionId s), profileSha256,
      transactionId, 0, noDigest⟩ 0 noDigest (priorRecord profileSha256 transactionId s) = .error e := by
    have hkeys : (priorRecord profileSha256 transactionId s).keys = some exactKeys := rfl
    have hsnapshot : checkSnapshot b 0 (priorRecord profileSha256 transactionId s) = .error e := by
      have hfield : (priorRecord profileSha256 transactionId s).field "snapshot" = some s.asRecord := rfl
      have hevent : isStr "prior_state_captured" ((priorRecord profileSha256 transactionId s).field "event") = true :=
        rfl
      have hnull : isNull (some s.asRecord) = false := rfl
      rw [checkSnapshot, hfield, hevent, hnull, if_pos rfl, Option.getD_some, hrefused]
      rfl
    rw [checkRecord, hkeys, hsnapshot]
    simp [priorRecord, eventRecord, Json.field, isNat, isStr]
  have hrecords : records b ⟨canonicalJson (priorRecord profileSha256 transactionId s),
      profileSha256, transactionId, 0, noDigest⟩ = .error e := by
    rw [records, if_neg (by simp [hline.ne_nil, hbound]), if_neg (not_not_intro hline.getLast?),
      hsplit, length_singleton, if_neg (show ¬ maxJournalRecords < 1 by decide)]
    simp only [readChain, hline.getLast?, hstrict]
    simp [bind, Except.bind, hcheck]
  have hopen : openExistingJournal b profileSha256 (canonicalJson (priorRecord profileSha256 transactionId s)) =
      .error e := by
    have hfield : (priorRecord profileSha256 transactionId s).field "transaction_id" =
        some (.str transactionId) := rfl
    have hrefresh : (JournalHandle.refreshChain b).run ⟨canonicalJson (priorRecord profileSha256 transactionId s),
        profileSha256, transactionId, 0, noDigest⟩ = .error e ⟨canonicalJson (priorRecord profileSha256 transactionId s),
          profileSha256, transactionId, 0, noDigest⟩ := by
      simp only [JournalHandle.refreshChain, EStateM.run_bind, EStateM.run_get, hrecords]
      rfl
    rw [openExistingJournal, if_neg (by simp [hline.ne_nil, hbound])]
    simp only [hsplit, headD_cons, hline.getLast?, hstrict]
    simp [bind, Except.bind, hfield, htransaction, hrefresh, handleOf]
  rw [recoverySnapshot, hopen]
  rfl

theorem take_one_canonicalJson (entries : List (String × Json)) : (canonicalJson (.obj entries)).take 1 = [123] := by
  have hbrace : String.utf8EncodeChar '{' = [123] := by decide
  simp [canonicalJson, canonicalBytes, utf8, text, hbrace]

theorem length_utf8_le (cs : List Char) : (utf8 cs).length ≤ 4 * cs.length := by
  induction cs with
  | nil => rfl
  | cons c cs ih =>
    have hsize := c.utf8Size_le_four
    simp only [utf8, flatMap_cons, length_append, String.length_utf8EncodeChar, length_cons] at ih ⊢
    omega

theorem length_escape_le (c : Char) : (escape c).length ≤ 6 := by
  unfold escape
  split
  · simp
  · split <;> simp

theorem length_quoted_le (s : String) : (quoted s).length ≤ 6 * s.toList.length + 2 := by
  have hescape : (s.toList.flatMap escape).length ≤ 6 * s.toList.length := by
    induction s.toList with
    | nil => rfl
    | cons c cs ih =>
      have hc := length_escape_le c
      simp only [flatMap_cons, length_append, length_cons] at ih ⊢
      omega
  simp only [quoted, length_cons, length_append, length_nil]
  omega

theorem length_sha256Hex (bytes : List UInt8) : (sha256Hex bytes).toList.length = 64 := by
  rw [sha256Hex, String.toList_ofList, CP2Sha256.digest]
  split
  rfl

theorem length_second_le {previous : String} (h : previous.toList.length = 64) :
    (canonicalJson (eventRecord noDigest sampleId 1 previous "apply:after_journal" .null)).length ≤ 8000 := by
  have hquoted := length_quoted_le previous
  have hrest : (quoted "event").length + (quoted "apply:after_journal").length + (quoted "previous_sha256").length +
      (quoted "profile_sha256").length + (quoted noDigest).length + (quoted "record_type").length +
      (quoted "cp2_timing_control_journal_event").length + (quoted "schema_version").length +
      (quoted "sequence").length + (quoted "snapshot").length + (quoted "transaction_id").length +
      (quoted sampleId).length + (intText 1).length ≤ 400 := by decide
  have hbytes := length_utf8_le (eventRecord noDigest sampleId 1 previous "apply:after_journal" .null).text
  rw [canonicalJson, length_append, length_singleton, canonicalBytes]
  refine le_trans (Nat.succ_le_succ hbytes) ?_
  simp only [eventRecord, text, entriesText, drop_succ_cons, drop_zero, length_cons,
    length_append, length_nil, Nat.cast_one]
  omega

/-- A crash inside the second record, and an affinity with a CPU number that the reader does not admit: the
journal cannot be read. -/
theorem recovery_journal_unreadable :
    ((capture governorProfile textBackend).run (governorHost [0, 1]) =
        .ok (governorPrior [0, 1]) (governorHost [0, 1]) ∧
      createJournal noDigest sampleId (governorPrior [0, 1]) = .ok (governorJournal [0, 1]) ∧
      recoverySnapshot textBackend noDigest
          (((governorJournal [0, 1]).perform textBackend (.append "apply:after_journal")).crash
            ((governorJournal [0, 1]).payload.length + 1)) =
        .error (.control "recovery journal read is incomplete")) ∧
    ((capture governorProfile textBackend).run (governorHost [4096]) =
        .ok (governorPrior [4096]) (governorHost [4096]) ∧
      createJournal noDigest sampleId (governorPrior [4096]) = .ok (governorJournal [4096]) ∧
      recoverySnapshot textBackend noDigest (governorJournal [4096]).payload =
        .error (.control "control snapshot affinity is not sorted, unique, and bounded")) := by
  have hrefused : snapshotFromRecord textBackend (governorPrior [4096]).asRecord =
      .error (.control "control snapshot affinity is not sorted, unique, and bounded") := by decide
  have hsecond : (canonicalJson ((governorJournal [0, 1]).record "apply:after_journal" .null)).length ≤ 8000 :=
    length_second_le (length_sha256Hex _)
  have hbytes : (governorJournal [0, 1]).payload.length +
      (canonicalJson ((governorJournal [0, 1]).record "apply:after_journal" .null)).length ≤ maxJournalBytes := by
    have hfirst : (governorJournal [0, 1]).payload.length ≤ 8000 := length_priorRecord_le [0, 1] (by simp)
    have hmax : maxJournalBytes = 8388608 := by norm_num [maxJournalBytes]
    omega
  have hfirst := createJournal_governor [0, 1] (by simp)
  refine ⟨⟨capture_governorProfile (by decide), hfirst, ?_⟩, capture_governorProfile (by decide),
    createJournal_governor _ (by simp), recoverySnapshot_of_refused validTransactionId_sampleId
      ((length_priorRecord_le [4096] (by simp)).trans (by norm_num [maxJournalBytes])) hrefused⟩
  have hadmitted : Admitted textBackend (governorPrior [0, 1]) := by
    have hwp := wp_capture_admitted (b := textBackend) frozen_governorProfile (governorHost [0, 1])
    rw [wp_of_ok (capture_governorProfile (by decide))] at hwp
    exact hwp (by decide)
  obtain ⟨-, hc⟩ := chained_createJournal hadmitted hfirst
  have hperform : ((governorJournal [0, 1]).perform textBackend (.append "apply:after_journal")).payload =
      (governorJournal [0, 1]).payload ++
        canonicalJson ((governorJournal [0, 1]).record "apply:after_journal" .null) := by
    have hrun := append_of_le "apply:after_journal" .null (h := governorJournal [0, 1])
      (by decide) hbytes (show 1 + 1 ≤ maxJournalRecords by decide)
    rw [perform, JournalCall.run, hrun]
    rfl
  have hbrace : (canonicalJson ((governorJournal [0, 1]).record "apply:after_journal" .null)).take 1 = [123] :=
    take_one_canonicalJson _
  have hcrashed : ((governorJournal [0, 1]).perform textBackend (.append "apply:after_journal")).crash
      ((governorJournal [0, 1]).payload.length + 1) = (governorJournal [0, 1]).payload ++ [123] := by
    rw [crash, hperform, take_length_add_append, hbrace]
  have hline : (governorJournal [0, 1]).payload ++ [123] =
      ((((governorJournal [0, 1]).chain [("prior_state_captured", (governorPrior [0, 1]).asRecord)]).take 1).map
        canonicalJson).flatten ++ [123] := by
    rw [append_cancel_right_eq]
    exact hc.payload
  rw [hcrashed]
  refine recoverySnapshot_torn hc validTransactionId_sampleId Nat.one_pos hline ?_ (by simp [newline])
  have hpos := length_pos_iff.mpr
    (isLine_canonicalJson ((governorJournal [0, 1]).record "apply:after_journal" .null)).ne_nil
  rw [length_append, length_singleton]
  exact le_trans (Nat.add_le_add_left hpos _) hbytes

end Bravo.Timing
