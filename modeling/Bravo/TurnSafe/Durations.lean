import Bravo.TurnSafe.Sink

/-! # Durations without a full visual update

A callback counts where its timestamp is finite, is the updater's and is not less than that of an earlier callback
that counts. The duration of a callback that counts is the time since the last one that counts and has an accepted
full update.
-/

namespace Bravo.TurnSafe

open List

variable {Data : Type} {s : Site Data} {r : CallbackRecord Data}

def counts (kept : List (CallbackRecord Data)) (r : CallbackRecord Data) : Bool :=
  r.timestamp.isFinite && r.updaterTimestampMatches && kept.all fun e => !decide (r.timestamp < e.timestamp)

def counted (rs : List (CallbackRecord Data)) : List (CallbackRecord Data) :=
  rs.foldl (fun kept r => if counts kept r then kept ++ [r] else kept) []

def latestAccepted (rs : List (CallbackRecord Data)) : Option (CallbackRecord Data) :=
  ((counted rs).filter (·.accepted)).getLast?

/-- Where the callback `r` after `rs` reports a duration, it is the time since the last full update that counts. -/
def DurationRight (rs : List (CallbackRecord Data)) (r : CallbackRecord Data) : Prop :=
  r.noFullVisualUpdateDurationAvailable = true → ∃ full, latestAccepted (rs ++ [r]) = some full ∧
    r.noFullVisualUpdateDuration = r.timestamp - full.timestamp ∧ ⟨0⟩ ≤ r.noFullVisualUpdateDuration

theorem counted_concat (rs : List (CallbackRecord Data)) (r : CallbackRecord Data) :
    counted (rs ++ [r]) = if counts (counted rs) r then counted rs ++ [r] else counted rs := by
  rw [counted, foldl_append]
  rfl

theorem counted_ordered (rs : List (CallbackRecord Data)) :
    (∀ e ∈ counted rs, e.timestamp.isFinite = true) ∧
      (counted rs).Pairwise fun e e' => e.timestamp ≤ e'.timestamp := by
  induction rs using List.reverseRecOn with
  | nil => exact ⟨fun _ he => (by cases he), List.Pairwise.nil⟩
  | append_singleton rs r ih =>
    rw [counted_concat]
    split
    · next hcounts =>
        simp only [counts, Bool.and_eq_true, all_eq_true, Bool.not_eq_true', decide_eq_false_iff_not] at hcounts
        obtain ⟨⟨hfinite, -⟩, hlater⟩ := hcounts
        refine ⟨fun e he => ?_, pairwise_append.mpr ⟨ih.2, pairwise_singleton _ _, fun e he e' he' => ?_⟩⟩
        · rcases mem_append.mp he with he | he
          · exact ih.1 e he
          · rw [mem_singleton.mp he]
            exact hfinite
        · rw [mem_singleton.mp he']
          exact Binary64.le_of_not_lt (Binary64.isNaN_of_isFinite (ih.1 e he))
            (Binary64.isNaN_of_isFinite hfinite) (hlater e he)
    · exact ih

variable {rs : List (CallbackRecord Data)}

theorem le_of_getLast? {last e : CallbackRecord Data}
    (hlast : (counted rs).getLast? = some last) (he : e ∈ counted rs) : e.timestamp ≤ last.timestamp := by
  obtain ⟨front, hfront⟩ := getLast?_eq_some_iff.mp hlast
  obtain ⟨hfinite, hordered⟩ := counted_ordered rs
  rw [hfront] at he hordered hfinite
  rcases mem_append.mp he with he | he
  · exact (pairwise_append.mp hordered).2.2 e he last (mem_singleton_self last)
  · rw [mem_singleton.mp he]
    have hnan := Binary64.isNaN_of_isFinite (hfinite last (mem_append_right _ (mem_singleton_self last)))
    exact ⟨hnan, hnan, le_rfl⟩

structure Remembers (s : Site Data) (rs : List (CallbackRecord Data)) : Prop where
  camera : s.lastCameraTimestamp = (counted rs).getLast?.map (·.timestamp)
  full : s.lastFullVisualTimestamp = (latestAccepted rs).map (·.timestamp)

theorem Remembers.counts_iff (h : Remembers s rs)
    (hmatches : r.updaterTimestampMatches = true) (hfinite : r.timestamp.isFinite = true) :
    counts (counted rs) r = !s.regresses r.timestamp := by
  rw [counts, hmatches, hfinite, Site.regresses, h.camera]
  cases hlast : (counted rs).getLast? with
  | none =>
    rw [getLast?_eq_none_iff.mp hlast]
    rfl
  | some last =>
    have hmem : last ∈ counted rs := mem_of_getLast? hlast
    rw [Bool.eq_iff_iff]
    simp only [Bool.and_self, Bool.true_and, all_eq_true, Bool.not_eq_true', decide_eq_false_iff_not,
      Option.map_some]
    refine ⟨fun hall => hall last hmem, fun hlt e he hbefore => hlt ?_⟩
    obtain ⟨hr, -, hkey⟩ := hbefore
    obtain ⟨-, hnan, hle⟩ := le_of_getLast? hlast he
    exact ⟨hr, hnan, hkey.trans_le hle⟩

/-! ## The measure of a callback -/

theorem counted_skip (h : counts (counted rs) r = false) :
    counted (rs ++ [r]) = counted rs ∧ latestAccepted (rs ++ [r]) = latestAccepted rs := by
  have hcounted : counted (rs ++ [r]) = counted rs := by rw [counted_concat, h, if_neg Bool.false_ne_true]
  exact ⟨hcounted, by rw [latestAccepted, latestAccepted, hcounted]⟩

theorem counted_add (h : counts (counted rs) r = true) :
    counted (rs ++ [r]) = counted rs ++ [r] ∧
      latestAccepted (rs ++ [r]) = if r.accepted then some r else latestAccepted rs := by
  have hcounted : counted (rs ++ [r]) = counted rs ++ [r] := by rw [counted_concat, h, if_pos rfl]
  refine ⟨hcounted, ?_⟩
  rw [latestAccepted, latestAccepted, hcounted, filter_append]
  cases hr : r.accepted <;> simp [hr]

/-- Away from NaN the last timestamp is not greater exactly where the callback does not regress. -/
theorem Remembers.follows_eq (h : Remembers s rs)
    (hfinite : r.timestamp.isFinite = true) : s.follows r.timestamp = !s.regresses r.timestamp := by
  rw [Site.follows, Site.regresses, h.camera]
  cases hlast : (counted rs).getLast? with
  | none => rfl
  | some last =>
    have hnan := Binary64.isNaN_of_isFinite ((counted_ordered rs).1 last (mem_of_getLast? hlast))
    rw [Option.map_some, Bool.eq_iff_iff]
    simp only [decide_eq_true_eq, Bool.not_eq_true', decide_eq_false_iff_not]
    exact ⟨fun hle hlt => Binary64.not_le_of_lt hlt hle,
      Binary64.le_of_not_lt hnan (Binary64.isNaN_of_isFinite hfinite)⟩

theorem Remembers.remember {t : Site Data} {a : EndArguments} (h : Remembers s rs)
    (hcamera : t.lastCameraTimestamp = s.lastCameraTimestamp)
    (hfull : t.lastFullVisualTimestamp = if counts (counted rs) t.current && t.current.accepted
      then some t.current.timestamp else s.lastFullVisualTimestamp) :
    Remembers (t.remember a) (rs ++ [t.current]) := by
  have hlast : (t.remember a).lastCameraTimestamp =
      if counts (counted rs) t.current then some t.current.timestamp else s.lastCameraTimestamp := by
    show (if t.current.updaterTimestampMatches && t.current.timestamp.isFinite && t.follows t.current.timestamp then _
      else t.lastCameraTimestamp) = _
    have hfollows : t.follows = s.follows := by
      funext timestamp
      rw [Site.follows, Site.follows, hcamera]
    rw [hcamera, hfollows]
    by_cases hfinite : t.current.updaterTimestampMatches = true ∧ t.current.timestamp.isFinite = true
    · rw [h.follows_eq hfinite.2, hfinite.1, hfinite.2, h.counts_iff hfinite.1 hfinite.2]
      rfl
    · have hskip : counts (counted rs) t.current = false := by
        rw [counts, Bool.and_comm t.current.timestamp.isFinite]
        rw [Bool.eq_false_iff.mpr fun hboth => hfinite (Bool.and_eq_true_iff.mp hboth), Bool.false_and]
      rw [hskip, if_neg Bool.false_ne_true, if_neg]
      simp only [Bool.and_eq_true]
      exact fun hall => hfinite hall.1
  cases hcounts : counts (counted rs) t.current with
  | true =>
    obtain ⟨hcounted, hlatest⟩ := counted_add hcounts
    rw [hcounts] at hlast hfull
    refine ⟨by rw [hlast, hcounted, getLast?_concat]; rfl, ?_⟩
    rw [hlatest]
    refine hfull.trans ?_
    cases t.current.accepted with
    | true => rfl
    | false => exact h.full
  | false =>
    obtain ⟨hcounted, hlatest⟩ := counted_skip hcounts
    rw [hcounts] at hlast hfull
    exact ⟨by rw [hlast, hcounted]; exact h.camera, by rw [hlatest]; exact hfull.trans h.full⟩

theorem DurationRight.of_unavailable
    (h : r.noFullVisualUpdateDurationAvailable = false) : DurationRight rs r := fun havailable => by
  rw [h] at havailable
  cases havailable

theorem measured (s : Site Data) :
    s.measure.current.callbackIndex = s.current.callbackIndex ∧ s.measure.current.timestamp = s.current.timestamp ∧
      s.measure.current.accepted = s.current.accepted ∧
      s.measure.current.updaterTimestampMatches = s.current.updaterTimestampMatches := by
  unfold Site.measure
  dsimp only
  repeat' split
  all_goals exact ⟨rfl, rfl, rfl, rfl⟩

theorem Remembers.measure (h : Remembers s rs)
    (hfresh : s.current.noFullVisualUpdateDurationAvailable = false) (a : EndArguments) :
    Remembers (s.measure.remember a) (rs ++ [s.measure.current]) ∧ DurationRight rs s.measure.current := by
  obtain ⟨-, htimestamp, haccepted, hupdater⟩ := measured s
  have hcounts : counts (counted rs) s.measure.current = counts (counted rs) s.current := by
    rw [counts, counts, htimestamp, hupdater]
  suffices hfull : s.measure.lastCameraTimestamp = s.lastCameraTimestamp ∧
      s.measure.lastFullVisualTimestamp = (if counts (counted rs) s.current && s.current.accepted
        then some s.current.timestamp else s.lastFullVisualTimestamp) ∧ DurationRight rs s.measure.current by
    refine ⟨h.remember hfull.1 ?_, hfull.2.2⟩
    rw [hcounts, haccepted, htimestamp]
    exact hfull.2.1
  -- a callback that does not count leaves everything as it was
  have hskip : ∀ {t : Site Data}, t.lastCameraTimestamp = s.lastCameraTimestamp →
      t.lastFullVisualTimestamp = s.lastFullVisualTimestamp →
      t.current.noFullVisualUpdateDurationAvailable = false → counts (counted rs) s.current = false →
      t.lastCameraTimestamp = s.lastCameraTimestamp ∧
      t.lastFullVisualTimestamp = (if counts (counted rs) s.current && s.current.accepted
        then some s.current.timestamp else s.lastFullVisualTimestamp) ∧ DurationRight rs t.current := by
    intro t hcamera hfull hunavailable hfalse
    rw [hfalse]
    exact ⟨hcamera, hfull, DurationRight.of_unavailable hunavailable⟩
  cases hmatches : s.current.updaterTimestampMatches with
  | false =>
    refine hskip ?_ ?_ ?_ (by rw [counts, hmatches, Bool.and_false, Bool.false_and]) <;>
      simp only [Site.measure, hmatches, Bool.not_false, if_true, hfresh]
  | true =>
  cases hfinite : s.current.timestamp.isFinite with
  | false =>
    refine hskip ?_ ?_ ?_ (by rw [counts, hfinite, Bool.false_and, Bool.false_and]) <;>
      simp [Site.measure, hmatches, hfinite, hfresh]
  | true =>
  have hiff := h.counts_iff hmatches hfinite
  cases hregresses : s.regresses s.current.timestamp with
  | true =>
    rw [hregresses] at hiff
    refine hskip ?_ ?_ ?_ hiff <;> simp [Site.measure, hmatches, hfinite, hregresses, hfresh]
  | false =>
  rw [hregresses, Bool.not_false] at hiff
  cases hfullUpdate : s.current.accepted with
  | true =>
    rw [hfullUpdate] at haccepted
    have hmeasure : s.measure = { s with
        current := { s.current with
          noFullVisualUpdateDurationAvailable := true
          noFullVisualUpdateDuration := ⟨0⟩
          noFullVisualUpdateDurationReason := .none }
        lastFullVisualTimestamp := some s.current.timestamp } := by
      simp [Site.measure, hmatches, hfinite, hregresses, hfullUpdate]
    refine ⟨by rw [hmeasure], by rw [hmeasure, hiff]; rfl, fun _ => ⟨s.measure.current, ?_, ?_⟩⟩
    · rw [(counted_add (hcounts.trans hiff)).2, haccepted, if_pos rfl]
    · have hzero : (⟨0⟩ : Binary64) ≤ ⟨0⟩ := by decide
      rw [Binary64.sub_self (by rw [htimestamp, hfinite]), hmeasure]
      exact ⟨rfl, hzero⟩
  | false =>
  cases hlast : s.lastFullVisualTimestamp with
  | none =>
    have hmeasure : s.measure = s := by simp [Site.measure, hmatches, hfinite, hregresses, hfullUpdate, hlast]
    rw [hmeasure, hlast, Bool.and_false, if_neg Bool.false_ne_true]
    exact ⟨rfl, rfl, DurationRight.of_unavailable hfresh⟩
  | some last =>
    have hmeasure : s.measure = { s with
        current := { s.current with
          noFullVisualUpdateDurationAvailable := true
          noFullVisualUpdateDuration := s.current.timestamp - last
          noFullVisualUpdateDurationReason := .none } } := by
      simp [Site.measure, hmatches, hfinite, hregresses, hfullUpdate, hlast]
    obtain ⟨full, hfull, rfl⟩ := Option.map_eq_some_iff.mp (h.full.symm.trans hlast)
    have hmem : full ∈ counted rs := (mem_filter.mp (mem_of_getLast? hfull)).1
    have hle : full.timestamp ≤ s.current.timestamp := by
      have hall := hiff
      simp only [counts, Bool.and_eq_true, all_eq_true, Bool.not_eq_true', decide_eq_false_iff_not] at hall
      exact Binary64.le_of_not_lt (Binary64.isNaN_of_isFinite ((counted_ordered rs).1 full hmem))
        (Binary64.isNaN_of_isFinite hfinite) (hall.2 full hmem)
    rw [Bool.and_false, if_neg Bool.false_ne_true]
    refine ⟨by rw [hmeasure], by rw [hmeasure, hlast], fun _ => ⟨full, ?_, ?_⟩⟩
    · rw [(counted_add (hcounts.trans hiff)).2, haccepted, hfullUpdate, if_neg Bool.false_ne_true]
      exact hfull
    · rw [hmeasure]
      exact ⟨rfl, Binary64.zero_le_sub hfinite ((counted_ordered rs).1 full hmem) hle⟩

end Bravo.TurnSafe
