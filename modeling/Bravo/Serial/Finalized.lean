import Bravo.Serial.Accounting

/-! # What a finalized trace certifies

The checks of `Finalize` on the rows, and of the serializers on the trajectory, turn the ledger of a
trace into statements about its files: the trajectory is in the order of the pairs, and the updates
that are listed are the accepted ones.
-/

namespace Bravo.Serial

open Bravo.Trace Bravo.Journal List

/-! ## The trajectory -/

def Row.timestamp (row : Row) : UInt64 := row.pair.cameraTimestampNs

def emittedLines (context : CP2RuntimeContext) (rows : List (Row × Nat)) :
    List (List (String × Value)) :=
  (rows.filter fun entry => entry.1.stateRowEmitted).map fun entry =>
    trajectoryRow context entry.2 entry.1.trajectoryIndex entry.1

theorem pairwise_timestamps {previous : Option UInt64} {row : Row} {timestamps : List UInt64}
    (hprevious : (previous.all fun timestamp => decide (timestamp < row.pair.cameraTimestampNs)) =
      true) (h : ((some row.pair.cameraTimestampNs).toList ++ timestamps).Pairwise (· < ·)) :
    (previous.toList ++ row.timestamp :: timestamps).Pairwise (· < ·) := by
  have hrest : (row.timestamp :: timestamps).Pairwise (· < ·) := h
  cases previous with
  | none => exact hrest
  | some timestamp =>
    have hlt : timestamp < row.pair.cameraTimestampNs := by simpa using hprevious
    refine pairwise_cons.mpr ⟨fun later hlater => ?_, hrest⟩
    rcases mem_cons.mp hlater with rfl | hlater
    · exact hlt
    · exact UInt64.lt_trans hlt (rel_of_pairwise_cons hrest hlater)

/-- The loop of `SerializeTrajectory`, where every check passes: the indices count up, the
timestamps increase and every row with a pose gives its line. -/
theorem trajectoryRows_eq_some {context : CP2RuntimeContext} (rows : List Row) :
    ∀ {index : Nat} {next last : UInt64} {previous : Option UInt64}
      {lines : List (List (String × Value))},
      trajectoryRows context index next previous rows = some (lines, last) →
      next.toNat + (rows.filter Row.stateRowEmitted).length < 2 ^ 64 →
      ((rows.filter Row.stateRowEmitted).map fun row => row.trajectoryIndex.toNat) =
          List.range' next.toNat (rows.filter Row.stateRowEmitted).length ∧
        (previous.toList ++ (rows.filter Row.stateRowEmitted).map Row.timestamp).Pairwise (· < ·) ∧
        lines = emittedLines context (rows.zipIdx index) := by
  induction rows with
  | nil =>
    intro index next last previous lines h _
    rw [trajectoryRows, Option.some.injEq, Prod.mk.injEq] at h
    obtain ⟨rfl, rfl⟩ := h
    refine ⟨rfl, ?_, rfl⟩
    cases previous <;> simp
  | cons row rows ih =>
    intro index next last previous lines h hlt
    rw [trajectoryRows] at h
    split at h
    · -- a row without a pose
      rename_i hemitted
      have hemitted : row.stateRowEmitted = false := by simpa using hemitted
      split at h
      · cases h
      have hfilter : (row :: rows).filter Row.stateRowEmitted = rows.filter Row.stateRowEmitted :=
        filter_cons_of_neg (by rw [hemitted]; exact Bool.false_ne_true)
      rw [hfilter] at hlt ⊢
      obtain ⟨hindices, htimestamps, hlines⟩ := ih h hlt
      refine ⟨hindices, htimestamps, ?_⟩
      rw [hlines, emittedLines, emittedLines, zipIdx_cons, filter_cons_of_neg]
      rw [hemitted]
      exact Bool.false_ne_true
    · rename_i hemitted
      have hemitted : row.stateRowEmitted = true := by simpa using hemitted
      split at h
      · cases h
      rename_i hchecks
      simp only [Bool.or_eq_true, Bool.not_eq_true', bne_iff_ne, not_or, Bool.not_eq_false,
        ne_eq, not_not] at hchecks
      obtain ⟨⟨⟨_, hnext⟩, _⟩, hprevious⟩ := hchecks
      have hfilter : (row :: rows).filter Row.stateRowEmitted =
          row :: rows.filter Row.stateRowEmitted := filter_cons_of_pos hemitted
      rw [hfilter, length_cons] at hlt
      obtain ⟨⟨rest, restNext⟩, hrest, h⟩ := Option.bind_eq_some_iff.mp h
      have hlines : trajectoryRow context index next row :: rest = lines :=
        congrArg Prod.fst (Option.some.inj h)
      have hsucc : (next + 1).toNat = next.toNat + 1 := toNat_succ (by omega)
      obtain ⟨hindices, htimestamps, hemittedLines⟩ := ih hrest (by rw [hsucc]; omega)
      rw [hfilter]
      refine ⟨?_, ?_, ?_⟩
      · rw [map_cons, length_cons, range'_succ, hindices, hnext, hsucc]
      · exact pairwise_timestamps hprevious htimestamps
      · rw [← hlines, hemittedLines, emittedLines, emittedLines, zipIdx_cons,
          filter_cons_of_pos (by exact hemitted), map_cons, hnext]

/-! ## The listed updates -/

theorem perm_flatMap_cons {α : Type} {f : Nat → List α} (g : Nat → List α) (a : α) (index : Nat)
    (hindex : f index = a :: g index) (hother : ∀ i, i ≠ index → f i = g i) :
    ∀ {n : Nat}, index < n → ((List.range n).flatMap f).Perm (a :: (List.range n).flatMap g) := by
  intro n
  induction n with
  | zero => exact fun hlt => absurd hlt (Nat.not_lt_zero index)
  | succ n ih =>
    intro hlt
    rw [range_succ, flatMap_append, flatMap_append]
    by_cases hlast : index = n
    · subst hlast
      have hsame : (List.range index).flatMap f = (List.range index).flatMap g := by
        apply flatMap_congr
        intro i hi
        exact hother i (Nat.ne_of_lt (mem_range.mp hi))
      rw [hsame]
      simp only [flatMap_cons, flatMap_nil, append_nil, hindex]
      exact perm_middle
    · have hfront := ih (by omega)
      simp only [flatMap_cons, flatMap_nil, append_nil, hother n (Ne.symm hlast)]
      exact hfront.append_right (g n)

theorem flatMap_eq_range {α β : Type} {f : α → List β} {g : Nat → List β} {l : List α}
    (h : ∀ i a, l[i]? = some a → f a = g i) : l.flatMap f = (List.range l.length).flatMap g := by
  induction l using List.reverseRecOn with
  | nil => rfl
  | append_singleton l a ih =>
    have hfront : ∀ i b, l[i]? = some b → f b = g i := by
      intro i b hb
      have hlt := (List.getElem?_eq_some_iff.mp hb).1
      exact h i b (by rw [getElem?_append_left hlt]; exact hb)
    have hlast : f a = g l.length := h l.length a getElem?_concat_length
    rw [flatMap_append, ih hfront, length_append, length_singleton,
      range_succ, flatMap_append]
    simp only [flatMap_cons, flatMap_nil, append_nil, hlast]

theorem perm_flatMap_updatesOf {us : List CP2LiveUpdateEvent} {n : Nat}
    (hlt : ∀ event ∈ us, event.pairIndex.toNat < n) :
    ((List.range n).flatMap fun index => updatesOf index us).Perm us := by
  induction us with
  | nil =>
    have hnil : ((List.range n).flatMap fun index => updatesOf index []) = [] := by
      rw [flatMap_eq_nil_iff]
      exact fun _ _ => rfl
    rw [hnil]
  | cons event us ih =>
    have hfront := ih fun e he => hlt e (mem_cons_of_mem _ he)
    refine (perm_flatMap_cons (fun index => updatesOf index us) event event.pairIndex.toNat ?_ ?_
      (hlt event mem_cons_self)).trans (hfront.cons event)
    · simp [updatesOf]
    · intro i hi
      simp [updatesOf, Ne.symm hi]

/-! ## Accounts -/

/-- What the rows say about the accepted notes. -/
structure Accounts (pairs : List CP2SerialPair) (ops : List Op) (s : CP2SerialRuntimeTrace) :
    Prop where
  pairs_eq : s.rows.map Row.pair = pairs
  enqueued_once : ∀ index, (statusesOf index (enqueues ops)).length ≤ 1
  processed_once : ∀ index, (processingsOf index (processings ops)).length ≤ 1
  joined : Joined pairs ops
  ids : (updates ops).map (fun event => event.invocationId.toNat) =
    List.range (updates ops).length
  stored : ∀ event ∈ updates ops, event.pairIndex.toNat < s.rows.length ∧
    ∀ index row, s.rows[index]? = some row →
      row.updaterInvocationIds.count event.invocationId =
        if event.pairIndex.toNat = index then 1 else 0
  /-- The rows with a pose are those that a processing gave one, ... -/
  emitted : ∀ index row, s.rows[index]? = some row →
    row.trajectoryIndexAvailable = row.stateRowEmitted ∧
      (row.stateRowEmitted = true ↔
        ∃ p ∈ emissions (processings ops), p.pairIndex.toNat = index)
  /-- ... and their indices are 0, 1, 2, ... in the order of these processings. -/
  trajectory : ∀ (k : Nat) (p : Processing), (emissions (processings ops))[k]? = some p →
    ∃ row, s.rows[p.pairIndex.toNat]? = some row ∧ row.trajectoryIndex.toNat = k

section

variable {context : CP2RuntimeContext} {pairs : List CP2SerialPair} {ops : List Op}
  {s : CP2SerialRuntimeTrace}

theorem statusesOf_eq_nil {qs : List (Nat × CP2SerialRuntimeEnqueueStatus)} {n index : Nat}
    (hlt : ∀ q ∈ qs, q.1 < n) (hindex : ¬ index < n) : statusesOf index qs = [] := by
  unfold statusesOf
  rw [map_eq_nil_iff, filter_eq_nil_iff]
  intro q hq heq
  have hfirst : q.1 = index := by simpa using heq
  exact hindex (hfirst ▸ hlt q hq)

theorem Ledger.enqueued_once (h : Ledger context pairs ops s) (index : Nat) :
    (statusesOf index (enqueues ops)).length ≤ 1 := by
  by_cases hlt : index < s.rows.length
  · have hrow := h.enqueued.row index _ (getElem?_eq_getElem hlt)
    have hlength := congrArg List.length hrow
    rw [length_map] at hlength
    rw [hlength]
    split <;> simp
  · rw [statusesOf_eq_nil h.enqueued.lt hlt]
    exact Nat.zero_le 1

theorem Ledger.processed_once (h : Ledger context pairs ops s) (index : Nat) :
    (processingsOf index (processings ops)).length ≤ 1 := by
  by_cases hlt : index < s.rows.length
  · exact (h.processed.row index _ (getElem?_eq_getElem hlt)).length_le
  · have hnil : processingsOf index (processings ops) = [] := by
      unfold processingsOf
      rw [filter_eq_nil_iff]
      intro p hp heq
      have hindex : p.pairIndex.toNat = index := by simpa using heq
      exact hlt (hindex ▸ h.processed.lt p hp)
    rw [hnil]
    exact Nat.zero_le 1

theorem Ledger.ids_nodup (h : Ledger context pairs ops s) :
    ((updates ops).map CP2LiveUpdateEvent.invocationId).Nodup := by
  have hnodup : ((updates ops).map fun event => event.invocationId.toNat).Nodup := by
    rw [h.updated.ids]
    exact nodup_range
  exact List.Nodup.of_map UInt64.toNat (by rw [List.map_map]; exact hnodup)

theorem Ledger.id_lt (h : Ledger context pairs ops s) {event : CP2LiveUpdateEvent}
    (hevent : event ∈ updates ops) : event.invocationId.toNat + 1 < 2 ^ 64 := by
  have hmem : event.invocationId.toNat ∈ List.range (updates ops).length := by
    rw [← h.updated.ids]
    exact mem_map.mpr ⟨event, hevent, rfl⟩
  have hlt := mem_range.mp hmem
  have hnext := s.nextInvocationId.toNat_lt
  rw [h.updated.next] at hnext
  omega

variable {row : Row} {index : Nat}

theorem Ledger.stored (h : Ledger context pairs ops s) {event : CP2LiveUpdateEvent}
    (hevent : event ∈ updates ops) (hrow : s.rows[index]? = some row) :
    row.updaterInvocationIds.count event.invocationId =
      if event.pairIndex.toNat = index then 1 else 0 := by
  obtain ⟨lost, hids, hlost, _⟩ := (h.updated.row index row hrow).ids
  have hnotLost : event.invocationId ∉ lost := by
    intro hmem
    have hlast := hlost _ hmem
    have hlt := h.id_lt hevent
    omega
  rw [hids, count_append, count_eq_zero_of_not_mem hnotLost, Nat.add_zero]
  have hsub : ((updatesOf index (updates ops)).map CP2LiveUpdateEvent.invocationId).Sublist
      ((updates ops).map CP2LiveUpdateEvent.invocationId) := filter_sublist.map _
  have hnodup := hsub.nodup h.ids_nodup
  by_cases hindex : event.pairIndex.toNat = index
  · rw [if_pos hindex]
    refine count_eq_one_of_mem hnodup (mem_map.mpr ⟨event, ?_, rfl⟩)
    exact mem_filter.mpr ⟨hevent, by simp [hindex]⟩
  · rw [if_neg hindex, count_eq_zero_of_not_mem]
    intro hmem
    obtain ⟨event', hevent', hid⟩ := mem_map.mp hmem
    obtain ⟨hevent', hindex'⟩ := mem_filter.mp hevent'
    -- an event with the same id is the same event
    have heq : event' = event := inj_on_of_nodup_map h.ids_nodup hevent' hevent hid
    rw [heq] at hindex'
    exact hindex (by simpa using hindex')

theorem ProcessLedger.eq_row {ps : List Processing}
    (h : ProcessLedger ps index row) {p : Processing} (hp : p ∈ processingsOf index ps) :
    p.updaterInvoked = row.updaterInvoked ∧ p.stateRowEmitted = row.stateRowEmitted := by
  have hprocessed := h.processed
  have hview : (p.cameraTimestampNs, p.updaterInvoked, p.stateRowEmitted) ∈
      (processingsOf index ps).map
        (fun p => (p.cameraTimestampNs, p.updaterInvoked, p.stateRowEmitted)) :=
    mem_map.mpr ⟨p, hp, rfl⟩
  cases hnoted : row.processingNoted with
  | false =>
    rw [h.eq_nil hnoted] at hp
    exact absurd hp not_mem_nil
  | true =>
    rw [hprocessed, hnoted, if_pos rfl, mem_singleton] at hview
    exact ⟨congrArg (fun view => view.2.1) hview, congrArg (fun view => view.2.2) hview⟩

theorem ProcessLedger.exists_of_flag {ps : List Processing}
    (h : ProcessLedger ps index row) (hflag : row.updaterInvoked = true ∨ row.stateRowEmitted = true) :
    ∃ p, p ∈ processingsOf index ps := by
  cases hnoted : row.processingNoted with
  | false =>
    have hfresh := h.fresh hnoted
    rw [hfresh.1, hfresh.2] at hflag
    simp at hflag
  | true =>
    have hprocessed := h.processed
    rw [hnoted, if_pos rfl] at hprocessed
    obtain ⟨p, hp, _⟩ := map_eq_singleton_iff.mp hprocessed
    exact ⟨p, by rw [hp]; exact mem_singleton.mpr rfl⟩

theorem Ledger.emitted (h : Ledger context pairs ops s) (hrow : s.rows[index]? = some row) :
    row.stateRowEmitted = true ↔
      ∃ p ∈ emissions (processings ops), p.pairIndex.toNat = index := by
  have hprocess := h.processed.row index row hrow
  constructor
  · intro hemitted
    obtain ⟨p, hp⟩ := hprocess.exists_of_flag (Or.inr hemitted)
    obtain ⟨hmem, hindex⟩ := mem_filter.mp hp
    refine ⟨p, mem_filter.mpr ⟨hmem, ?_⟩, by simpa using hindex⟩
    rw [(hprocess.eq_row hp).2]
    exact hemitted
  · rintro ⟨p, hp, hindex⟩
    obtain ⟨hmem, hemitted⟩ := mem_filter.mp hp
    have hmem : p ∈ processingsOf index (processings ops) :=
      mem_filter.mpr ⟨hmem, by simp [hindex]⟩
    rw [← (hprocess.eq_row hmem).2]
    exact hemitted

theorem Ledger.invoked (h : Ledger context pairs ops s) (hrow : s.rows[index]? = some row) :
    row.updaterInvoked = true ↔
      ∃ p ∈ processingsOf index (processings ops), p.updaterInvoked = true := by
  have hprocess := h.processed.row index row hrow
  constructor
  · intro hinvoked
    obtain ⟨p, hp⟩ := hprocess.exists_of_flag (Or.inl hinvoked)
    exact ⟨p, hp, (hprocess.eq_row hp).1.trans hinvoked⟩
  · rintro ⟨p, hp, hinvoked⟩
    exact (hprocess.eq_row hp).1.symm.trans hinvoked

theorem Ledger.accounts (h : Ledger context pairs ops s) : Accounts pairs ops s where
  pairs_eq := h.pairs_eq
  enqueued_once := h.enqueued_once
  processed_once := h.processed_once
  joined := h.joined
  ids := h.updated.ids
  stored := fun event hevent => ⟨h.updated.lt event hevent, fun _ _ hrow => h.stored hevent hrow⟩
  emitted := fun index row hrow => ⟨(h.processed.row index row hrow).available, h.emitted hrow⟩
  trajectory := fun k p hk => by
    have hmem := (mem_filter.mp (mem_of_getElem? hk)).1
    have hlt := h.processed.lt p hmem
    refine ⟨_, getElem?_eq_getElem hlt, ?_⟩
    exact (h.processed.row _ _ (getElem?_eq_getElem hlt)).trajectory k p hk rfl

/-! ## Finalization -/

/-- What an accepted `Finalize` certifies. -/
structure Certified (context : CP2RuntimeContext) (pairs : List CP2SerialPair) (ops : List Op)
    (e : Surroundings) (s s' : CP2SerialRuntimeTrace) : Prop where
  rows_eq : s'.rows = s.rows
  enqueued : ∀ index < pairs.length, ∃ status, statusesOf index (enqueues ops) = [status]
  /-- A row has ids if its processing said that the updater was invoked, and else none. -/
  invoked : ∀ index row, s.rows[index]? = some row → (row.updaterInvocationIds ≠ [] ↔
    ∃ p ∈ processingsOf index (processings ops), p.updaterInvoked = true)
  /-- At the level of sequences, the poses of the trajectory are in the order of the pairs. -/
  sequence : context.traceLevel = .kSequence →
    ((s.rows.filter Row.stateRowEmitted).map fun row => row.trajectoryIndex.toNat) =
        List.range (s.rows.filter Row.stateRowEmitted).length ∧
      ((s.rows.filter Row.stateRowEmitted).map Row.timestamp).Pairwise (· < ·) ∧
      s'.written = s.written ++ [(.serial, serialText e s), (.callbacks, callbackText e s),
        (.trajectory, renderRows e.decimal (emittedLines context s.rows.zipIdx))]
  /-- At the level of timings, the files list the accepted events. -/
  timing : context.traceLevel = .kTiming →
    (∀ row ∈ s.rows, row.updates.length ≤ 1) ∧
      ((listedUpdates s.rows).map fun u => (some u.1, u.2)).Perm
        ((updates ops).map fun event =>
          (pairs[event.pairIndex.toNat]?, UpdateRow.ofEvent event)) ∧
      s'.written = s.written ++ [(.serial, serialText e s), (.callbacks, callbackText e s),
        (.updater, renderRows e.decimal
          ((listedUpdates s.rows).map fun u => updaterRow context u.1 u.2)),
        (.timing, renderRows e.decimal
          ((listedUpdates s.rows).map fun u => timingRow context u.1 u.2))]

theorem rowFailure_eq_none {level : CP2RuntimeTraceLevel} (h : rowFailure level row = none) :
    row.enqueueNoted = true ∧ row.updaterInvoked = !row.updaterInvocationIds.isEmpty := by
  unfold rowFailure at h
  split at h
  · cases h
  rename_i hnoted
  split at h
  · cases h
  split at h
  · cases h
  split at h
  · cases h
  split at h
  · cases h
  split at h
  · cases h
  rename_i hinvoked
  exact ⟨by simpa using hnoted, by simpa only [bne_iff_ne, ne_eq, not_not] using hinvoked⟩

theorem Ledger.listedUpdates (h : Ledger context pairs ops s) (hfailed : s.failed = false)
    (hlevel : context.traceLevel = .kTiming) :
    ((listedUpdates s.rows).map fun u => (some u.1, u.2)).Perm
      ((updates ops).map fun event => (pairs[event.pairIndex.toNat]?, UpdateRow.ofEvent event)) := by
  have hrows : ((Serial.listedUpdates s.rows).map fun u => (some u.1, u.2)) =
      (((List.range s.rows.length).flatMap fun index => updatesOf index (updates ops)).map
        fun event => (pairs[event.pairIndex.toNat]?, UpdateRow.ofEvent event)) := by
    unfold Serial.listedUpdates
    rw [map_flatMap, map_flatMap]
    refine flatMap_eq_range fun index row hrow => ?_
    have hpair : pairs[index]? = some row.pair := by
      rw [← h.pairs_eq, getElem?_map, hrow]
      rfl
    have hupdates := (h.updated.row index row hrow).updates hfailed
    rw [hlevel, if_pos rfl] at hupdates
    rw [hupdates, List.map_map, List.map_map]
    apply map_congr_left
    intro event hevent
    have hindex : event.pairIndex.toNat = index := by simpa using (mem_filter.mp hevent).2
    rw [hindex, hpair]
    rfl
  rw [hrows]
  exact (perm_flatMap_updatesOf h.updated.lt).map _

theorem Ledger.certified (h : Ledger context pairs ops s) (hpairs : 2 * pairs.length ≤ 2 ^ 64)
    (hfailed : s.failed = false) {e : Surroundings}
    (hrows : ∀ row ∈ s.rows, rowFailure s.context.traceLevel row = none)
    {files : List (Sink × String)} (hfiles : CompleteFiles e s files) :
    Certified context pairs ops e s { s.write files with finalized := true } where
  rows_eq := rfl
  enqueued := fun index hindex => by
    have hlt : index < s.rows.length := by
      rw [← h.pairs_eq, length_map] at hindex
      exact hindex
    have hrow := h.enqueued.row index _ (getElem?_eq_getElem hlt)
    have hnoted := (rowFailure_eq_none (hrows _ (getElem_mem hlt))).1
    unfold EnqueueLedger at hrow
    rw [hnoted, if_pos rfl] at hrow
    obtain ⟨status, hstatus, _⟩ := map_eq_singleton_iff.mp hrow
    exact ⟨status, hstatus⟩
  invoked := fun index row hrow => by
    have hflag := (rowFailure_eq_none (hrows row (mem_of_getElem? hrow))).2
    rw [← h.invoked hrow, hflag]
    cases row.updaterInvocationIds <;> simp
  sequence := fun hlevel => by
    rw [CompleteFiles, h.context_eq, hlevel] at hfiles
    obtain ⟨lines, hlines, rfl⟩ := hfiles
    unfold serializeTrajectory at hlines
    split at hlines
    · cases hlines
    rename_i lines' last hloop
    split at hlines
    · cases hlines
    cases hlines
    have hlength : (s.rows.filter Row.stateRowEmitted).length ≤ s.rows.length :=
      length_filter_le _ _
    have hbound : s.rows.length = pairs.length := h.rows_length
    obtain ⟨hindices, htimestamps, hemitted⟩ := trajectoryRows_eq_some s.rows hloop (by
      change 0 + _ < 2 ^ 64
      omega)
    refine ⟨hindices.trans ?_, htimestamps, ?_⟩
    · rw [range_eq_range']
      rfl
    · rw [hemitted, h.context_eq]
      rfl
  timing := fun hlevel => by
    rw [CompleteFiles, h.context_eq, hlevel] at hfiles
    refine ⟨fun row hrow => ?_, h.listedUpdates hfailed hlevel, ?_⟩
    · obtain ⟨index, hrow⟩ := getElem?_of_mem hrow
      have hupdate := h.updated.row index row hrow
      rw [hupdate.updates hfailed, hlevel, if_pos rfl, length_map]
      exact hupdate.single hlevel
    · rw [hfiles]
      unfold updaterText timingText
      rw [h.context_eq]
      rfl

end

/-! ## Every run -/

/-- From an accepted population, whatever is called in whatever order: failure is sticky, the rows
account for the accepted notes, and an accepted `Finalize` certifies the files. -/
theorem trace_accounts_for_every_event {context : CP2RuntimeContext} {held : Option Bool}
    {pairs : List CP2SerialPair}
    (hinit : (CP2SerialRuntimeTrace.construct context held pairs).failed = false)
    {es : List (Entry CP2SerialRuntimeTrace Op)} {s : CP2SerialRuntimeTrace}
    (h : Run step (CP2SerialRuntimeTrace.construct context held pairs) es s) :
    Sticky es s ∧ Accounts pairs (accepted es) s ∧
      ∀ (e : Surroundings) (s' : CP2SerialRuntimeTrace), perform (.finalize e) s = (true, s') →
        Certified context pairs (accepted es) e s s' := by
  have hledger := ledger_of_run hinit h
  refine ⟨sticky_of_run hinit h, hledger.accounts, fun e s' hfinalize => ?_⟩
  have hpairs := length_le_of_populationValid context pairs 0 none nodup_nil
    (construct_accepted hinit).1
  rw [length_nil, Nat.zero_add] at hpairs
  have hwp := wp_finalize (t := s) e
  unfold wp at hwp
  rcases perform_cases (.finalize e) s with ⟨t', hrun, heq⟩ | ⟨message, t', hrun, heq⟩
  · rw [show (Op.finalize e).note = Serial.finalize e from rfl] at hrun
    rw [hrun] at hwp
    obtain ⟨hfailed, hrows, files, hfiles, rfl⟩ := hwp
    rw [heq] at hfinalize
    cases hfinalize
    exact hledger.certified hpairs hfailed hrows hfiles
  · rw [heq] at hfinalize
    cases congrArg Prod.fst hfinalize

def unitContext : CP2RuntimeContext where
  sequenceIndex := 0
  sequenceId := "unit"
  mode := "ordinary"
  traceLevel := .kSequence
  serialTracePath := ⟨true, "serial"⟩
  callbackTracePath := ⟨true, "callbacks"⟩
  trajectoryTracePath := ⟨true, "trajectory"⟩
  updaterTracePath := ⟨false, ""⟩
  timingTracePath := ⟨false, ""⟩

def unitPair : CP2SerialPair where
  sequenceIndex := 0
  pairIndex := 0
  anchorFilteredIndex := 0
  anchorCameraId := 0
  cam0FilteredIndex := 0
  cam1FilteredIndex := 1
  cam0RecordTimeNs := 5
  cam1RecordTimeNs := 7
  cam0HeaderTimeNs := 4
  cam1HeaderTimeNs := 4
  cameraTimestampNs := 4
  absoluteRecordDeltaNs := 2

def unitOps : List Op := [
  .enqueue 0 .kQueued,
  .processing {
    sequenceIndex := 0
    pairIndex := 0
    cameraTimestampNs := 4
    processingEntered := true
    processingReturned := true
    updaterInvoked := false
    stateRowEmitted := true
    pose := .identity
    traceFatal := false }]

def play (t : CP2SerialRuntimeTrace) (ops : List Op) :
    List (Entry CP2SerialRuntimeTrace Op) × CP2SerialRuntimeTrace :=
  ops.foldl (fun r op => (r.1 ++ [⟨r.2, op, (perform op r.2).2⟩], (perform op r.2).2)) ([], t)

theorem run_play (t : CP2SerialRuntimeTrace) (ops : List Op) :
    Run step t (play t ops).1 (play t ops).2 := by
  induction ops using List.reverseRecOn with
  | nil => exact Run.nil
  | append_singleton ops op ih =>
    unfold play at *
    rw [foldl_append]
    exact Run.snoc ih rfl

theorem trace_accounts_for_every_event_unit :
    let t := CP2SerialRuntimeTrace.construct unitContext none [unitPair]
    let r := play t unitOps
    let e : Surroundings := ⟨fun _ => "0", fun _ _ _ => true⟩
    (perform (.finalize e) r.2).1 = true ∧ (accepted r.1).length = 2 ∧
      Sticky r.1 r.2 ∧ Accounts [unitPair] (accepted r.1) r.2 ∧
      ∀ (e : Surroundings) (s' : CP2SerialRuntimeTrace), perform (.finalize e) r.2 = (true, s') →
        Certified unitContext [unitPair] (accepted r.1) e r.2 s' := by
  refine ⟨by decide, by decide, ?_⟩
  exact trace_accounts_for_every_event (by decide) (run_play _ _)

end Bravo.Serial
