import Mathlib.Data.List.ModifyLast
import Bravo.TurnSafe.Durations

/-! # The envelope of the TurnSafe sink

While the sink is active, its file is the header line and one line for each callback that ended (`Envelope`). A
failure makes it inactive for good; an inactive sink stands whatever is begun (`Standing`).
-/

namespace Bravo.TurnSafe

open List

variable {Data : Type} {C : Callees Data} {o : Options} {s : Site Data}
variable {α : Type} {script : List (Option (Raise Exn))}

/-! ## Rules -/

section Rules

variable {Q : α → Machine Exn (Site Data) → Prop} {E : Exn → Machine Exn (Site Data) → Prop}

theorem wp_inject {Q : Unit → Machine Exn (Site Data) → Prop} (hok : ∀ script, Q ⟨⟩ ⟨s, script⟩)
    (herr : ∀ e script, E e ⟨s, script⟩) : wp inject Q E ⟨s, script⟩ :=
  wp_operate hok herr herr

theorem wp_call {f : Site Data → Site Data} {Q : Bool → Machine Exn (Site Data) → Prop}
    (hok : ∀ script, Q true ⟨f s, script⟩) (hfail : ∀ script, Q false ⟨s, script⟩) :
    wp (call f) Q E ⟨s, script⟩ := by
  rw [call, wp_bind, wp_attempt]
  exact wp_operate hok (fun _ => hfail) (fun _ => hfail)

theorem wp_guarded {body : Method Data Unit} {P : Site Data → Prop} {m : Machine Exn (Site Data)}
    (h : wp body (fun _ m' => P m'.state) (fun e m' => P (m'.state.disable e.reason)) m) :
    wp (guarded body) (fun _ m' => P m'.state) (fun _ _ => False) m := by
  rw [guarded, wp_bind, wp_attempt]
  exact wp_mono h (fun _ _ h => h) (fun _ _ h => h)

theorem wp_fwrite (cs : List Char) : ∀ {s : Site Data} {text : List Char} {script : List (Option (Raise Exn))},
    s.temporary = .written text →
      wp (fwrite cs) (fun b m' => ∃ text', m'.state = { s with temporary := .written text' } ∧
        (b = true → text' = text ++ cs)) (fun _ _ => False) ⟨s, script⟩ := by
  induction cs with
  | nil =>
    intro s text script hs
    exact ⟨text, by rw [← hs], fun _ => (append_nil text).symm⟩
  | cons c cs ih =>
    intro s text script hs
    have hpush : s.push c = { s with temporary := .written (text ++ [c]) } := by rw [Site.push, hs]
    rw [fwrite, wp_bind]
    refine wp_call (fun script => ?_) (fun script => ⟨text, by rw [← hs], fun hfalse => (by cases hfalse)⟩)
    rw [wp_ite]
    refine ⟨fun _ => ?_, fun hfalse => absurd rfl hfalse⟩
    rw [hpush]
    refine wp_mono (ih rfl) (fun b m' h => ?_) (fun _ _ h => h)
    obtain ⟨text', hstate, htext⟩ := h
    exact ⟨text', hstate, fun hb => by rw [htext hb, append_assoc]; rfl⟩

theorem wp_writeLine {line : Line} {record : Option (CallbackRecord Data)} {text : List Char}
    (hactive : s.active = true) (hstream : s.stream = true) (htemporary : s.temporary = .written text) :
    wp (writeLine o line record)
      (fun b m' => (b = true → m'.state = { s with
          temporary := .written (text ++ (line.text ++ ['\n'])), reported := s.reported ++ record.toList }) ∧
        (b = false → ∃ text' reason, m'.state = ({ s with temporary := .written text' } : Site Data).disable reason))
      (fun _ _ => False) ⟨s, script⟩ := by
  have hsame : s = { s with temporary := .written text } := by rw [← htemporary]
  rw [writeLine, wp_bind, wp_attempt, wp_bind, wp_get]
  dsimp only
  rw [hactive, hstream, Bool.not_true, Bool.or_self, if_neg Bool.false_ne_true, wp_ite]
  refine ⟨fun _ => ?_, fun _ => ?_⟩
  · exact ⟨fun hfalse => (by cases hfalse), fun _ => ⟨text, .injectedWriteFailure, by rw [← hsame]⟩⟩
  rw [wp_bind]
  refine wp_inject (fun script => ?_) (fun e script => ?_)
  case refine_2 => exact ⟨fun hfalse => (by cases hfalse), fun _ => ⟨text, e.reason, by rw [← hsame]⟩⟩
  rw [wp_bind]
  refine wp_mono (wp_fwrite _ htemporary) (fun b m₁ h₁ => ?_) (fun _ _ h => h.elim)
  obtain ⟨text', hstate, htext⟩ := h₁
  obtain ⟨s₁, script⟩ := m₁
  dsimp only at hstate
  subst hstate
  cases b with
  | false => exact ⟨fun hfalse => (by cases hfalse), fun _ => ⟨text', .outputWriteFailed, rfl⟩⟩
  | true =>
    rw [Bool.not_true, if_neg Bool.false_ne_true, wp_bind]
    refine wp_inject (fun script => ?_) (fun e script => ?_)
    case refine_2 => exact ⟨fun hfalse => (by cases hfalse), fun _ => ⟨text', e.reason, rfl⟩⟩
    rw [wp_bind]
    refine wp_call (fun script => ?_) (fun script => ?_)
    · refine ⟨fun _ => ?_, fun hfalse => (by cases hfalse)⟩
      rw [htext rfl]
      rfl
    · exact ⟨fun hfalse => (by cases hfalse), fun _ => ⟨text', .outputRecordFlushFailed, rfl⟩⟩

end Rules

/-! ## The callbacks of the calls -/

/-- The callbacks that the calls begin, each with the update that is recorded while it is open. -/
structure History (Data : Type) where
  begun : List (Binary64 × Option (UpdateRecord Data)) := []
  inside : Bool := false

def History.call (past : History Data) : Call Data → History Data
  | .beginCallback timestamp _ => ⟨past.begun ++ [(timestamp, none)], true⟩
  | .recordUpdate record =>
    if past.inside then { past with begun := past.begun.modifyLast fun e => (e.1, some record) } else past
  | .endCallback _ => { past with inside := false }
  | _ => past

def historyOf (calls : List (Call Data)) : History Data := calls.foldl History.call {}

/-- What a record has of the calls. -/
def CallbackRecord.noted (r : CallbackRecord Data) : Binary64 × Option (UpdateRecord Data) :=
  (r.timestamp, if r.updateAvailable then some r.update else none)

variable {past past' : History Data}

/-! ## The invariant -/

def Complete (C : Callees Data) (o : Options) (text : List Char) (rs : List (CallbackRecord Data)) : Prop :=
  ∃ header lines, C.serializeHeader o = .ok header ∧ List.Forall₂ (fun r line => serializeCallback C o r = .ok line) rs lines ∧
    text = (header :: lines).flatMap fun line => line.text ++ ['\n']

theorem Complete.snoc {text : List Char} {rs : List (CallbackRecord Data)} {r : CallbackRecord Data} {line : Line}
    (h : Complete C o text rs) (hline : serializeCallback C o r = .ok line) :
    Complete C o (text ++ (line.text ++ ['\n'])) (rs ++ [r]) := by
  obtain ⟨header, lines, hheader, hlines, rfl⟩ := h
  refine ⟨header, lines ++ [line], hheader, rel_append hlines (List.Forall₂.cons hline .nil), ?_⟩
  rw [← cons_append, flatMap_append, flatMap_singleton]

def Site.opened (s : Site Data) : List (CallbackRecord Data) :=
  s.reported ++ if s.currentAvailable then [s.current] else []

/-- While the sink is active. -/
structure Envelope (C : Callees Data) (o : Options) (past : History Data) (s : Site Data) : Prop where
  stream : s.stream = true
  file : ∃ text, s.temporary = .written text ∧ Complete C o text s.reported
  indices : s.opened.map (·.callbackIndex) = List.range past.begun.length
  noted : s.opened.map (·.noted) = past.begun
  inside : s.currentAvailable = past.inside
  next : s.nextCallbackIndex = past.begun.length
  fresh : s.currentAvailable = true → s.current.noFullVisualUpdateDurationAvailable = false
  remembers : Remembers s s.reported

structure Reported (rs : List (CallbackRecord Data)) : Prop where
  indices : rs.map (·.callbackIndex) = List.range rs.length
  durations : ∀ i r, rs[i]? = some r → DurationRight (rs.take i) r

theorem Reported.snoc {rs : List (CallbackRecord Data)} {r : CallbackRecord Data} (h : Reported rs)
    (hindex : r.callbackIndex = rs.length) (hduration : DurationRight rs r) : Reported (rs ++ [r]) where
  indices := by rw [map_append, h.indices, length_append, length_singleton, range_succ, ← hindex]; rfl
  durations := by
    intro i r' hi
    rcases Nat.lt_or_ge i rs.length with hlt | hge
    · rw [getElem?_append_left hlt] at hi
      rw [take_append_of_le_length hlt.le]
      exact h.durations i r' hi
    · have heq : i = rs.length := by
        have hlength := (List.getElem?_eq_some_iff.mp hi).1
        rw [length_append, length_singleton] at hlength
        omega
      subst heq
      rw [getElem?_concat_length] at hi
      rw [take_left, ← Option.some.inj hi]
      exact hduration

/-- Before `Finalize`. -/
structure Standing (C : Callees Data) (o : Options) (past : History Data) (s : Site Data) : Prop where
  running : s.finalized = false
  output : ∀ text, s.output ≠ .written text
  named : ∀ text, s.temporary = .written text → s.temporaryPath ≠ ""
  reported : Reported s.reported
  envelope : s.active = true → Envelope C o past s

namespace Standing

variable {t : Site Data}

theorem of_inactive (h : Standing C o past s) (hinactive : t.active = false) (hfinalized : t.finalized = s.finalized)
    (houtput : t.output = s.output) (hnamed : ∀ text, t.temporary = .written text → t.temporaryPath ≠ "")
    (hreported : t.reported = s.reported) : Standing C o past' t where
  running := hfinalized.trans h.running
  output := houtput ▸ h.output
  named := hnamed
  reported := hreported ▸ h.reported
  envelope := fun hactive => by
    rw [hinactive] at hactive
    cases hactive

theorem disable (h : Standing C o past s) (reason : DisableReason) : Standing C o past' (s.disable reason) :=
  h.of_inactive rfl rfl rfl h.named rfl

theorem setCurrent (h : Standing C o past s) {r : CallbackRecord Data}
    (hindex : r.callbackIndex = s.current.callbackIndex) (hnoted : r.noted = s.current.noted)
    (havailable : r.noFullVisualUpdateDurationAvailable = s.current.noFullVisualUpdateDurationAvailable) :
    Standing C o past { s with current := r } where
  running := h.running
  output := h.output
  named := h.named
  reported := h.reported
  envelope := fun hactive => by
    have he := h.envelope hactive
    refine ⟨he.stream, he.file, ?_, ?_, he.inside, he.next, fun hcurrent => havailable.trans (he.fresh hcurrent),
      ⟨he.remembers.camera, he.remembers.full⟩⟩
    · rw [← he.indices, Site.opened, Site.opened]
      split <;> simp [hindex]
    · refine .trans ?_ he.noted
      rw [Site.opened, Site.opened]
      split <;> simp [hnoted]

theorem setUpdate (h : Standing C o past s) (hcurrent : s.currentAvailable = true) (record : UpdateRecord Data) :
    Standing C o (past.call (.recordUpdate record))
      { s with current := { s.current with update := record, updateAvailable := true } } where
  running := h.running
  output := h.output
  named := h.named
  reported := h.reported
  envelope := fun hactive => by
    have he := h.envelope hactive
    have hopened : s.opened = s.reported ++ [s.current] := by rw [Site.opened, hcurrent, if_pos rfl]
    have hcall : past.call (.recordUpdate record) =
        ⟨s.reported.map (·.noted) ++ [(s.current.timestamp, some record)], true⟩ := by
      rw [History.call, ← he.inside, hcurrent, if_pos rfl, ← he.noted, hopened, map_append, map_singleton,
        modifyLast_concat]
      rfl
    have hlength : past.begun.length = s.reported.length + 1 := by
      rw [← he.noted, hopened, length_map, length_append, length_singleton]
    rw [hcall]
    refine ⟨he.stream, he.file, ?_, ?_, hcurrent, ?_, he.fresh, ⟨he.remembers.camera, he.remembers.full⟩⟩
    · rw [length_append, length_map, length_singleton, ← hlength, ← he.indices, hopened, Site.opened, hcurrent, if_pos rfl,
        map_append, map_append]
      rfl
    · rw [Site.opened, hcurrent, if_pos rfl, map_append]
      rfl
    · rw [length_append, length_map, length_singleton, ← hlength]
      exact he.next

theorem begin (h : Standing C o past s) (hactive : s.active = true) (hclosed : s.currentAvailable = false)
    (timestamp : Binary64) (a : BeginArguments Data) :
    Standing C o (past.call (.beginCallback timestamp a)) (s.begin o timestamp a) where
  running := h.running
  output := h.output
  named := h.named
  reported := h.reported
  envelope := fun _ => by
    have he := h.envelope hactive
    have hopened : s.opened = s.reported := by rw [Site.opened, hclosed, if_neg Bool.false_ne_true, append_nil]
    refine ⟨he.stream, he.file, ?_, ?_, rfl, ?_, fun _ => rfl, ⟨he.remembers.camera, he.remembers.full⟩⟩
    · rw [History.call, length_append, length_singleton, range_succ, ← he.indices, hopened, ← he.next]
      exact map_append
    · rw [History.call, ← he.noted, hopened]
      exact map_append
    · rw [History.call, length_append, length_singleton, ← he.next]
      rfl

end Standing

/-! ## The callbacks -/

section Callbacks

theorem wp_guarded_standing {body : Method Data Unit} {m : Machine Exn (Site Data)}
    (h : wp body (fun _ m' => Standing C o past m'.state) (fun _ m' => Standing C o past m'.state) m) :
    wp (guarded body) (fun _ m' => Standing C o past m'.state) (fun _ _ => False) m :=
  wp_guarded (wp_mono h (fun _ _ h => h) (fun _ _ h => h.disable _))

theorem preserves_of_reports {P : Site Data → Prop} {x : Method Data α} (hx : Reports x) :
    Preserves (fun m => P m.state) x :=
  .of_keeps hx fun h hs => h ▸ hs

theorem preserves_inject {P : Site Data → Prop} : Preserves (fun m => P m.state) (inject : Method Data Unit) :=
  preserves_of_reports reports_operate_id

theorem standing_store (index : Nat) {f : CallbackRecord Data → CallbackRecord Data}
    (hindex : ∀ r, (f r).callbackIndex = r.callbackIndex) (hnoted : ∀ r, (f r).noted = r.noted)
    (havailable : ∀ r, (f r).noFullVisualUpdateDurationAvailable = r.noFullVisualUpdateDurationAvailable) :
    Preserves (fun m => Standing C o past m.state) (store index f) := by
  intro m hm
  rw [store, wp_update]
  split
  · exact hm.setCurrent (hindex _) (hnoted _) (havailable _)
  · exact hm

theorem reports_liftExcept (x : Except Exn α) : Reports (liftExcept x : Method Data α) := by
  intro m
  rw [wp_liftExcept]
  exact ⟨fun _ _ => rfl, fun _ _ => rfl⟩

theorem reports_imuSupport (s : Site Data) (timestamp : Binary64) (a : BeginArguments Data) :
    Reports (imuSupport s timestamp a) := by
  unfold imuSupport
  dsimp only
  refine .ite (.of_pure _) (.ite (.of_pure _) ?_)
  split
  · exact .of_pure _
  · exact .ite (.bind reports_operate_id fun _ => reports_liftExcept _) (.of_pure _)

theorem standing_captureInterval (s : Site Data) (timestamp : Binary64) (a : BeginArguments Data) :
    Preserves (fun m => Standing C o past m.state) (captureInterval C s timestamp a) := by
  unfold captureInterval
  refine .bind (preserves_of_reports (reports_imuSupport s timestamp a)) fun support => ?_
  refine .bind preserves_inject fun _ => ?_
  refine .bind (preserves_of_reports (reports_liftExcept _)) fun interval => ?_
  exact standing_store _ (fun _ => rfl) (fun _ => rfl) (fun _ => rfl)

theorem wp_beginCallback (timestamp : Binary64) (a : BeginArguments Data) (h : Standing C o past s) :
    wp (beginCallback C o timestamp a) (fun _ m' => Standing C o (past.call (.beginCallback timestamp a)) m'.state)
      (fun _ _ => False) ⟨s, script⟩ := by
  unfold beginCallback
  refine wp_guarded ?_
  rw [wp_bind, wp_get, wp_ite]
  refine ⟨fun hinactive => ?_, fun hactive => ?_⟩
  · exact h.of_inactive (by simpa using hinactive) rfl rfl h.named rfl
  rw [wp_ite]
  refine ⟨fun _ => h.disable _, fun hclosed => ?_⟩
  have hactive : s.active = true := by simpa using hactive
  rw [wp_bind]
  refine wp_inject (fun script => ?_) (fun _ _ => h.disable _)
  rw [wp_bind, wp_update]
  have hbegin := h.begin hactive (by simpa using hclosed) timestamp a
  have hrest : Preserves (fun m => Standing C o (past.call (.beginCallback timestamp a)) m.state) (do
      onlyIf o.captureOutcomeAssociationKeys (onSome a.state fun state => do
        inject
        store s.nextCallbackIndex fun record => { record with outcomeAssociationKeys := metadataBefore a state })
      onlyIf o.captureCausalImuIntervals (captureInterval C s timestamp a)) := by
    refine .bind (.of_onlyIf (.of_onSome fun state => ?_)) fun _ => ?_
    · exact .bind preserves_inject fun _ => standing_store _ (fun _ => rfl) (fun _ => rfl) (fun _ => rfl)
    · exact .of_onlyIf (standing_captureInterval s timestamp a)
  exact wp_mono (hrest _ hbegin) (fun _ _ h => h) (fun _ _ h => h.disable _)

theorem wp_recordFrontend (record : FrontendRecord Data) (h : Standing C o past s) :
    wp (recordFrontend record) (fun _ m' => Standing C o past m'.state) (fun _ _ => False) ⟨s, script⟩ := by
  unfold recordFrontend
  refine wp_guarded_standing ?_
  rw [wp_bind]
  refine wp_inject (fun script => ?_) (fun _ _ => h)
  rw [wp_bind, wp_get, wp_ite]
  refine ⟨fun _ => h, fun _ => ?_⟩
  rw [wp_bind]
  exact wp_inject (fun script => h.setCurrent rfl rfl rfl) (fun _ _ => h)

theorem wp_recordUpdate (record : UpdateRecord Data) (h : Standing C o past s) :
    wp (recordUpdate record) (fun _ m' => Standing C o (past.call (.recordUpdate record)) m'.state) (fun _ _ => False)
      ⟨s, script⟩ := by
  unfold recordUpdate
  refine wp_guarded ?_
  rw [wp_bind]
  refine wp_inject (fun script => ?_) (fun _ _ => h.disable _)
  rw [wp_bind, wp_get, wp_ite]
  refine ⟨fun hclosed => ?_, fun hopen => ?_⟩
  · cases hactive : s.active with
    | false => exact h.of_inactive hactive rfl rfl h.named rfl
    | true =>
      have hcurrent : s.currentAvailable = false := by simpa [hactive] using hclosed
      rwa [History.call, ← (h.envelope hactive).inside, hcurrent, if_neg Bool.false_ne_true]
  · rw [wp_ite]
    have hopen : s.active = true ∧ s.currentAvailable = true := by simpa using hopen
    exact ⟨fun _ => h.disable _, fun _ => h.setUpdate hopen.2 record⟩

theorem standing_captureAfter (a : EndArguments) :
    Preserves (fun m => Standing C o past m.state ∧ m.state.active = true ∧ m.state.currentAvailable = true)
      (captureAfter o a : Method Data Unit) := by
  refine .of_onlyIf (.bind ?_ fun _ m hm => ?_)
  · exact preserves_inject (P := fun s => Standing C o past s ∧ s.active = true ∧ s.currentAvailable = true)
  · exact ⟨hm.1.setCurrent rfl rfl rfl, hm.2⟩

def frame (s : Site Data) : Bool × Bool × Bool × String × Nat × Entry × Entry × List (CallbackRecord Data) :=
  (s.active, s.finalized, s.stream, s.temporaryPath, s.nextCallbackIndex, s.temporary, s.output, s.reported)

theorem frame_remember (s : Site Data) (a : EndArguments) : frame (s.remember a) = frame s := rfl

theorem frame_measure (s : Site Data) (a : EndArguments) : frame (s.measure.remember a) = frame s := by
  rw [frame_remember]
  dsimp only [Site.measure]
  by_cases hmatches : (!s.current.updaterTimestampMatches) = true
  · rw [if_pos hmatches]
    rfl
  rw [if_neg hmatches]
  by_cases hfinite : (!s.current.timestamp.isFinite) = true
  · rw [if_pos hfinite]
    rfl
  rw [if_neg hfinite]
  by_cases hregresses : s.regresses s.current.timestamp = true
  · rw [if_pos hregresses]
    rfl
  rw [if_neg hregresses]
  by_cases haccepted : s.current.accepted = true
  · rw [if_pos haccepted]
    rfl
  rw [if_neg haccepted]
  cases s.lastFullVisualTimestamp with
  | none => rfl
  | some last => rfl

/-- The current callback has been measured, and is the next record. -/
structure Ending (C : Callees Data) (o : Options) (past : History Data) (s : Site Data) : Prop where
  running : s.finalized = false
  output : ∀ text, s.output ≠ .written text
  named : ∀ text, s.temporary = .written text → s.temporaryPath ≠ ""
  reported : Reported s.reported
  active : s.active = true
  stream : s.stream = true
  file : ∃ text, s.temporary = .written text ∧ Complete C o text s.reported
  indices : (s.reported ++ [s.current]).map (·.callbackIndex) = List.range past.begun.length
  noted : (s.reported ++ [s.current]).map (·.noted) = past.begun
  next : s.nextCallbackIndex = past.begun.length
  duration : DurationRight s.reported s.current
  remembers : Remembers s (s.reported ++ [s.current])

theorem noted_measure (s : Site Data) : s.measure.current.noted = s.current.noted := by
  unfold Site.measure
  dsimp only
  repeat' split
  all_goals rfl

theorem Standing.ending (h : Standing C o past s) (hactive : s.active = true) (hcurrent : s.currentAvailable = true)
    (a : EndArguments) : Ending C o past (s.measure.remember a) := by
  have he := h.envelope hactive
  obtain ⟨hremembers, hduration⟩ := he.remembers.measure (he.fresh hcurrent) a
  have hindex := (measured s).1
  have hnoted := noted_measure s
  have hopened : s.opened = s.reported ++ [s.current] := by rw [Site.opened, hcurrent, if_pos rfl]
  have hframe := frame_measure s a
  have hmeasured : (s.measure.remember a).current = s.measure.current := rfl
  rw [← hmeasured] at hremembers hduration hindex hnoted
  generalize s.measure.remember a = t at *
  simp only [frame, Prod.mk.injEq] at hframe
  obtain ⟨hactive', hfinalized, hstream, hpath, hnext, htemporary, houtput, hreported⟩ := hframe
  refine ⟨hfinalized.trans h.running, houtput ▸ h.output, htemporary ▸ hpath ▸ h.named, hreported ▸ h.reported,
    hactive'.trans hactive, hstream.trans he.stream, htemporary ▸ hreported ▸ he.file, ?_, ?_, hnext.trans he.next,
    hreported ▸ hduration, hreported ▸ hremembers⟩
  · rw [← he.indices, hopened, hreported, map_append, map_append, map_singleton, map_singleton, hindex]
  · refine .trans ?_ he.noted
    rw [hopened, hreported, map_append, map_append, map_singleton, map_singleton, hnoted]

theorem Ending.disabled (h : Ending C o past s) (reason : DisableReason) (entry : Entry)
    (hentry : (∃ text, entry = .written text) → ∃ text, s.temporary = .written text) :
    Standing C o past' (({ s with temporary := entry } : Site Data).disable reason) where
  running := h.running
  output := h.output
  named := fun text htext => by
    obtain ⟨text', htext'⟩ := hentry ⟨text, htext⟩
    exact h.named text' htext'
  reported := h.reported
  envelope := fun hactive => (by cases hactive)

theorem Ending.index (h : Ending C o past s) : s.current.callbackIndex = s.reported.length ∧
    past.begun.length = s.reported.length + 1 := by
  have hlength := congrArg List.length h.indices
  simp only [length_map, length_append, length_singleton, length_range] at hlength
  have hlast := h.indices
  rw [← hlength, range_succ, map_append, map_singleton] at hlast
  exact ⟨(List.cons.inj (append_inj' hlast rfl).2).1, hlength.symm⟩

theorem Ending.written (h : Ending C o past s) (a : EndArguments) {text : List Char}
    (hcomplete : Complete C o text (s.reported ++ [s.current])) (callbacksWritten : Nat) :
    Standing C o (past.call (.endCallback a)) { s with
      temporary := .written text, reported := s.reported ++ [s.current], callbacksWritten := callbacksWritten
      current := {}, currentAvailable := false } where
  running := h.running
  output := h.output
  named := fun _ _ => by
    obtain ⟨text', htext', -⟩ := h.file
    exact h.named text' htext'
  reported := h.reported.snoc h.index.1 h.duration
  envelope := fun _ => by
    refine ⟨h.stream, ⟨text, rfl, hcomplete⟩, ?_, ?_, rfl, h.next, fun hfalse => (by cases hfalse),
      ⟨h.remembers.camera, h.remembers.full⟩⟩
    · exact (congrArg _ (append_nil _)).trans h.indices
    · exact (congrArg _ (append_nil _)).trans h.noted

theorem wp_writeRecord (h : Ending C o past s) (a : EndArguments) :
    wp (writeRecord C o) (fun _ m' => Standing C o (past.call (.endCallback a)) m'.state)
      (fun e m' => Standing C o (past.call (.endCallback a)) (m'.state.disable e.reason)) ⟨s, script⟩ := by
  obtain ⟨text, htemporary, hcomplete⟩ := h.file
  have hdisable : ∀ reason, Standing C o (past.call (.endCallback a)) (s.disable reason) := fun reason => h.disabled reason s.temporary id
  rw [writeRecord, wp_bind]
  refine wp_inject (fun script => ?_) (fun _ _ => hdisable _)
  rw [wp_bind, wp_get, wp_bind, wp_liftExcept]
  refine ⟨fun line hline => ?_, fun _ _ => hdisable _⟩
  rw [wp_bind]
  refine wp_mono (wp_writeLine h.active h.stream htemporary) (fun b m₁ h₁ => ?_) (fun _ _ hfalse => hfalse.elim)
  obtain ⟨s₁, script⟩ := m₁
  obtain ⟨hok, hfail⟩ := h₁
  cases b with
  | true =>
    have hs₁ := hok rfl
    dsimp only at hs₁
    subst hs₁
    rw [wp_bind, wp_onlyIf]
    refine ⟨fun _ => ?_, fun hfalse => (by cases hfalse)⟩
    have hwritten := h.written a (hcomplete.snoc hline) (s.callbacksWritten + 1)
    rw [wp_update, wp_bind]
    exact wp_inject (fun _ => hwritten) (fun _ _ => hwritten.of_inactive rfl rfl rfl hwritten.named rfl)
  | false =>
    obtain ⟨text', reason, hs₁⟩ := hfail rfl
    dsimp only at hs₁
    subst hs₁
    have hdisabled : Standing C o (past.call (.endCallback a)) _ := h.disabled reason (.written text') fun _ => ⟨text, htemporary⟩
    rw [wp_bind, wp_onlyIf]
    refine ⟨fun hfalse => (by cases hfalse), fun _ => ?_⟩
    rw [wp_bind]
    exact wp_inject (fun _ => hdisabled.of_inactive rfl rfl rfl hdisabled.named rfl) (fun _ _ => hdisabled.disable _)

theorem wp_endCallback (a : EndArguments) (h : Standing C o past s) :
    wp (endCallback C o a) (fun _ m' => Standing C o (past.call (.endCallback a)) m'.state) (fun _ _ => False)
      ⟨s, script⟩ := by
  unfold endCallback
  refine wp_guarded ?_
  rw [wp_bind, wp_get, wp_ite]
  refine ⟨fun hclosed => ?_, fun hopen => ?_⟩
  · cases hactive : s.active with
    | false => exact h.of_inactive hactive rfl rfl h.named rfl
    | true =>
      have hinside : past.inside = false := by
        simpa [hactive, (h.envelope hactive).inside] using hclosed
      rwa [show past.call (.endCallback a) = past by rw [History.call, ← hinside]]
  have hopen : s.active = true ∧ s.currentAvailable = true := by simpa using hopen
  rw [wp_bind]
  refine wp_mono (standing_captureAfter a _ ⟨h, hopen⟩) (fun _ m₁ h₁ => ?_) (fun _ _ he => he.1.disable _)
  obtain ⟨s₁, script⟩ := m₁
  obtain ⟨h₁, hactive, hcurrent⟩ := h₁
  rw [writeCallback, wp_bind]
  refine wp_inject (fun script => ?_) (fun _ _ => h₁.disable _)
  rw [wp_bind, wp_update, wp_bind, wp_update, wp_bind, wp_update]
  have hsorted : Standing C o past s₁.sortFrontend := h₁.setCurrent rfl rfl rfl
  exact wp_writeRecord (hsorted.ending hactive hcurrent a) a

theorem wp_reportComponentFailure (reason : Option DisableReason) (h : Standing C o past s) :
    wp (reportComponentFailure reason) (fun _ m' => Standing C o past m'.state) (fun _ _ => False) ⟨s, script⟩ :=
  h.disable _

end Callbacks

/-! ## Initialize -/

/-- What `Initialize` does not touch, and that the file it opens has a name. -/
structure Starting (s : Site Data) : Prop where
  running : s.finalized = false
  output : ∀ text, s.output ≠ .written text
  named : ∀ text, s.temporary = .written text → s.temporaryPath ≠ ""
  reported : s.reported = []
  next : s.nextCallbackIndex = 0
  closed : s.currentAvailable = false
  camera : s.lastCameraTimestamp = none
  full : s.lastFullVisualTimestamp = none

theorem starting_start (temporary output : Bool) : Starting (Site.start temporary output : Site Data) where
  running := rfl
  output := fun text htext => by
    cases output <;> cases htext
  named := fun text htext => by
    cases temporary <;> cases htext
  reported := rfl
  next := rfl
  closed := rfl
  camera := rfl
  full := rfl

theorem Starting.disable (h : Starting s) (reason : DisableReason) : Standing C o {} (s.disable reason) where
  running := h.running
  output := h.output
  named := h.named
  reported := by
    show Reported s.reported
    rw [h.reported]
    exact ⟨rfl, fun _ _ hi => (by cases hi)⟩
  envelope := fun hactive => (by cases hactive)

theorem Starting.written (h : Starting s) (hpath : s.temporaryPath ≠ "") (hstream : s.stream = true) {header : Line}
    (hheader : C.serializeHeader o = .ok header) :
    Standing C o {} { s with temporary := .written (header.text ++ ['\n']) } where
  running := h.running
  output := h.output
  named := fun _ _ => hpath
  reported := by
    show Reported s.reported
    rw [h.reported]
    exact ⟨rfl, fun _ _ hi => (by cases hi)⟩
  envelope := fun _ => by
    have hopened : s.opened = [] := by rw [Site.opened, h.reported, h.closed]; rfl
    refine ⟨hstream, ⟨_, rfl, ?_⟩, ?_, ?_, h.closed, h.next, fun hcurrent => ?_, ?_⟩
    · show Complete C o _ s.reported
      rw [h.reported]
      exact ⟨header, [], hheader, .nil, (flatMap_singleton _ _).symm⟩
    · show s.opened.map _ = _
      rw [hopened]
      rfl
    · show s.opened.map _ = _
      rw [hopened]
      rfl
    · exact absurd ((h.closed.symm.trans hcurrent : false = true)) Bool.false_ne_true
    · show Remembers _ s.reported
      rw [h.reported]
      exact ⟨h.camera, h.full⟩

theorem temporaryPath_ne (path : String) : path ++ ".tmp" ≠ "" := fun h => by
  have hlength := congrArg String.length h
  rw [String.length_append] at hlength
  exact absurd hlength (by simp)

theorem wp_initializeBody (h : Starting s) :
    wp (initializeBody C o) (fun _ m' => Standing C o {} m'.state)
      (fun _ m' => Starting m'.state) ⟨s, script⟩ := by
  rw [initializeBody, wp_ite]
  refine ⟨fun _ => h.disable _, fun _ => ?_⟩
  rw [wp_ite]
  refine ⟨fun _ => h.disable _, fun _ => ?_⟩
  rw [wp_ite]
  refine ⟨fun _ => h.disable _, fun _ => ?_⟩
  rw [wp_bind]
  refine wp_inject (fun script => ?_) (fun _ _ => h)
  rw [wp_bind, wp_update, wp_bind]
  have hpath := temporaryPath_ne o.outputPath
  have h₁ : ∀ (temporary : Entry) (descriptor stream active : Bool), Starting { s with
      temporaryPath := o.outputPath ++ ".tmp", temporary := temporary, descriptor := descriptor, stream := stream
      active := active } := fun _ _ _ _ => ⟨h.running, h.output, fun _ _ => hpath, h.reported, h.next, h.closed, h.camera, h.full⟩
  refine wp_inject (fun script => ?_) (fun _ _ => h₁ s.temporary s.descriptor s.stream s.active)
  rw [wp_bind]
  refine wp_call (fun script => ?_) (fun script => ?_)
  case refine_2 => exact (h₁ s.temporary s.descriptor s.stream s.active).disable _
  rw [Bool.not_true, if_neg Bool.false_ne_true, wp_bind]
  refine wp_inject (fun script => ?_) (fun _ _ => h₁ (.written []) true s.stream s.active)
  rw [wp_bind]
  refine wp_call (fun script => ?_) (fun script => ?_)
  case refine_2 => exact (h₁ (.written []) false s.stream s.active).disable _
  rw [Bool.not_true, if_neg Bool.false_ne_true, wp_bind, wp_update, wp_bind]
  have hopened := h₁ (.written []) false true true
  refine wp_inject (fun script => ?_) (fun _ _ => hopened)
  rw [wp_bind, wp_liftExcept]
  refine ⟨fun header hheader => ?_, fun _ _ => hopened⟩
  refine wp_mono (wp_writeLine rfl rfl rfl) (fun b m₁ hwritten => ?_) (fun _ _ hfalse => hfalse.elim)
  obtain ⟨s₁, script⟩ := m₁
  obtain ⟨hok, hfail⟩ := hwritten
  cases b with
  | true =>
    have hs₁ := hok rfl
    dsimp only at hs₁
    subst hs₁
    have hstands := hopened.written (C := C) (o := o) hpath rfl hheader
    simpa using hstands
  | false =>
    obtain ⟨text', reason, hs₁⟩ := hfail rfl
    dsimp only at hs₁
    subst hs₁
    exact (h₁ (.written text') false true true).disable _

theorem wp_initializeSink (h : Starting s) :
    wp (initializeSink C o) (fun _ m' => Standing C o {} m'.state) (fun _ _ => False) ⟨s, script⟩ := by
  rw [initializeSink, wp_bind, wp_attempt]
  refine wp_mono (wp_initializeBody h) (fun _ _ h => h) (fun e m₁ h₁ => ?_)
  obtain ⟨s₁, script⟩ := m₁
  have hclosed : Starting { s₁ with descriptor := false } :=
    ⟨h₁.running, h₁.output, h₁.named, h₁.reported, h₁.next, h₁.closed, h₁.camera, h₁.full⟩
  exact hclosed.disable _

end Bravo.TurnSafe
