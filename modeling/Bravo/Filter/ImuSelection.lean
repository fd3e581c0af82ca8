import Mathlib.Algebra.Order.Field.Basic
import Mathlib.Algebra.Order.Ring.Abs
import Mathlib.Data.Matrix.Mul
import Mathlib.Tactic
import Bravo.Basic.Numerals

/-! # The selection of inertial readings

`Propagator::select_imu_readings` over an ordered field: the readings between two times, with the ends
cut by interpolation. On readings that increase, three cases of its loop and the repair behind it
select the nodes of one piecewise-linear interpolant (`selectImuReadings_eq_nodes`), so the intervals of
a propagation add up to the whole period (`selectImuReadings_spec`).
-/

namespace Bravo.Filter

open List

@[ext] structure ImuData (K : Type) where
  timestamp : K
  wm : Fin 3 → K
  am : Fin 3 → K

section Selection

variable {K : Type} [Field K] [LinearOrder K]

def interpolateData (imu1 imu2 : ImuData K) (timestamp : K) : ImuData K :=
  let lambda := (timestamp - imu1.timestamp) / (imu2.timestamp - imu1.timestamp)
  { timestamp := timestamp
    am := (1 - lambda) • imu1.am + lambda • imu2.am
    wm := (1 - lambda) • imu1.wm + lambda • imu2.wm }

/-- The timestamp of the last reading is not `time`. -/
def endsBefore (propData : List (ImuData K)) (time : K) : Bool :=
  match propData.getLast? with
  | some last => decide (last.timestamp ≠ time)
  | none => false

/-- The loop over the readings `imu_data.at(i)` and `imu_data.at(i + 1)`; `previous` is the one before,
which is absent for `i == 0`. -/
def selectLoop (time0 time1 : K) :
    Option (ImuData K) → List (ImuData K) → List (ImuData K) → List (ImuData K)
  | previous, current :: next :: rest, propData =>
    if time0 < next.timestamp ∧ current.timestamp < time0 then
      selectLoop time0 time1 (some current) (next :: rest)
        (propData ++ [interpolateData current next time0])
    else if time0 ≤ current.timestamp ∧ next.timestamp ≤ time1 then
      selectLoop time0 time1 (some current) (next :: rest) (propData ++ [current])
    else if time1 < next.timestamp then
      -- The end of the period: the loop is left.
      match previous with
      | none =>
        if time1 < current.timestamp then propData
        else
          let propData := propData ++ [current]
          if endsBefore propData time1 then
            propData ++ [interpolateData current next time1]
          else propData
      | some previous =>
        let propData := if time1 < current.timestamp then
            propData ++ [interpolateData previous current time1]
          else propData ++ [current]
        if endsBefore propData time1 then propData ++ [interpolateData current next time1]
        else propData
    else selectLoop time0 time1 (some current) (next :: rest) propData
  | _, _, propData => propData

/-- The last reading is stretched to `time1`. -/
def stretch (imuData : List (ImuData K)) (time1 : K) (propData : List (ImuData K)) :
    List (ImuData K) :=
  if endsBefore propData time1 then
    match imuData.reverse with
    | last :: secondLast :: _ => propData ++ [interpolateData secondLast last time1]
    | _ => propData
  else propData

/-- The loop that erases zero intervals, at index `i`: behind an erased entry it looks at the same
index again. -/
def removeZeroDt (propData : List (ImuData K)) (i : Nat) : List (ImuData K) :=
  if h : i + 1 < propData.length then
    if |propData[i + 1].timestamp - propData[i].timestamp| < 1 / 10 ^ 12 then
      removeZeroDt (propData.eraseIdx i) i
    else removeZeroDt propData (i + 1)
  else propData
termination_by propData.length - i
decreasing_by
  · rw [length_eraseIdx_of_lt (by omega)]
    omega
  · omega

def selectImuReadings (imuData : List (ImuData K)) (time0 time1 : K) : List (ImuData K) :=
  let propData := selectLoop time0 time1 none imuData []
  if propData.isEmpty then propData
  else removeZeroDt (stretch imuData time1 propData) 0

/-! ## The nodes -/

/-- The piecewise-linear interpolant; behind the last reading the last piece goes on. -/
def interpolant : List (ImuData K) → K → ImuData K
  | current :: next :: third :: rest, t =>
    if t < next.timestamp then interpolateData current next t
    else interpolant (next :: third :: rest) t
  | [current, next], t => interpolateData current next t
  | _, t => ⟨t, 0, 0⟩

/-- The nodes behind the reading `previous` up to `time1`. -/
def nodesBehind (time1 : K) : ImuData K → List (ImuData K) → List (ImuData K)
  | _, [] => []
  | previous, [last] => [interpolateData previous last time1]
  | previous, current :: next :: rest =>
    if next.timestamp ≤ time1 then current :: nodesBehind time1 current (next :: rest)
    else if time1 < current.timestamp then [interpolateData previous current time1]
    else if current.timestamp = time1 then [current]
    else [current, interpolateData current next time1]

/-- The nodes from `time0` to `time1`. -/
def nodes (time0 time1 : K) : List (ImuData K) → List (ImuData K)
  | current :: next :: rest =>
    if time0 < next.timestamp then
      interpolateData current next time0 :: nodesBehind time1 current (next :: rest)
    else nodes time0 time1 (next :: rest)
  | _ => []

def Increasing (imuData : List (ImuData K)) : Prop :=
  imuData.Pairwise fun a b => a.timestamp < b.timestamp

omit [LinearOrder K] in
theorem interpolateData_self (a b : ImuData K) : interpolateData a b a.timestamp = a := by
  ext <;> simp [interpolateData]

omit [LinearOrder K] in
@[simp] theorem timestamp_interpolateData (a b : ImuData K) (t : K) :
    (interpolateData a b t).timestamp = t := rfl

omit [Field K] in
theorem endsBefore_concat (propData : List (ImuData K)) (e : ImuData K) (t : K) :
    endsBefore (propData ++ [e]) t = decide (e.timestamp ≠ t) := by
  unfold endsBefore
  rw [getLast?_concat]

theorem stretch_concat_of_eq (imuData propData : List (ImuData K)) {e : ImuData K} {t : K}
    (h : e.timestamp = t) : stretch imuData t (propData ++ [e]) = propData ++ [e] := by
  rw [stretch, endsBefore_concat, h]
  simp

variable {time0 time1 : K}

theorem stretch_selectLoop_some (rest : List (ImuData K)) :
    ∀ (front before : List (ImuData K)) (previous e : ImuData K),
      rest ≠ [] → Increasing (previous :: rest) → e.timestamp < time1 →
      (∀ d ∈ rest, time0 ≤ d.timestamp) →
      stretch (front ++ previous :: rest) time1
          (selectLoop time0 time1 (some previous) rest (before ++ [e])) =
        before ++ e :: nodesBehind time1 previous rest := by
  induction rest with
  | nil => exact fun _ _ _ _ h => absurd rfl h
  | cons current rest ih =>
    intro front before previous e _ hinc he hge
    cases rest with
    | nil =>
      simp only [selectLoop, stretch, endsBefore_concat, decide_eq_true he.ne, if_true]
      rw [reverse_append]
      simp [nodesBehind]
    | cons next rest =>
      have hcurrent : time0 ≤ current.timestamp := hge current mem_cons_self
      obtain ⟨_, hinc'⟩ := pairwise_cons.mp hinc
      have hnext : current.timestamp < next.timestamp :=
        (pairwise_cons.mp hinc').1 next mem_cons_self
      rw [selectLoop, if_neg fun h => absurd h.2 hcurrent.not_gt]
      by_cases hle : next.timestamp ≤ time1
      · have hrec := ih (front ++ [previous]) (before ++ [e]) current current (by simp) hinc'
          (hnext.trans_le hle) fun d hd => hge d (mem_cons_of_mem _ hd)
        rw [if_pos ⟨hcurrent, hle⟩, nodesBehind, if_pos hle]
        simpa using hrec
      · -- The loop is left here; what it pushed ends at `time1`.
        rw [if_neg fun h => hle h.2, if_pos (not_le.mp hle), nodesBehind, if_neg hle]
        by_cases hgt : time1 < current.timestamp
        · have hends : endsBefore (before ++ [e] ++ [interpolateData previous current time1])
              time1 = false := by
            rw [endsBefore_concat]
            simp
          rw [if_pos hgt, if_pos hgt]
          dsimp only
          rw [hends, if_neg Bool.false_ne_true, stretch_concat_of_eq _ _ (timestamp_interpolateData _ _ _)]
          simp
        · rw [if_neg hgt, if_neg hgt]
          dsimp only
          rw [endsBefore_concat]
          by_cases heq : current.timestamp = time1
          · rw [if_pos heq, if_neg (by simp [heq]), stretch_concat_of_eq _ _ heq]
            simp
          · rw [if_neg heq, if_pos (by simp [heq]), stretch_concat_of_eq _ _ (timestamp_interpolateData _ _ _)]
            simp

theorem selectLoop_cons_cons (previous : Option (ImuData K))
    {current next : ImuData K} (rest propData : List (ImuData K)) (h : current.timestamp ≤ time1) :
    selectLoop time0 time1 previous (current :: next :: rest) propData =
      if time0 < next.timestamp ∧ current.timestamp < time0 then
        selectLoop time0 time1 (some current) (next :: rest)
          (propData ++ [interpolateData current next time0])
      else if time0 ≤ current.timestamp ∧ next.timestamp ≤ time1 then
        selectLoop time0 time1 (some current) (next :: rest) (propData ++ [current])
      else if time1 < next.timestamp then
        if endsBefore (propData ++ [current]) time1 then
          propData ++ [current] ++ [interpolateData current next time1]
        else propData ++ [current]
      else selectLoop time0 time1 (some current) (next :: rest) propData := by
  cases previous <;> simp only [selectLoop, if_neg h.not_gt]

theorem stretch_selectLoop (h01 : time0 < time1) (rest : List (ImuData K)) :
    ∀ (front : List (ImuData K)) (previous : Option (ImuData K)) (current : ImuData K),
      Increasing (current :: rest) → current.timestamp ≤ time0 →
      (∃ last ∈ rest, time0 < last.timestamp) →
      stretch (front ++ current :: rest) time1
          (selectLoop time0 time1 previous (current :: rest) []) =
        nodes time0 time1 (current :: rest) := by
  induction rest with
  | nil => exact fun _ _ _ _ _ ⟨_, h, _⟩ => absurd h not_mem_nil
  | cons next rest ih =>
    intro front previous current hinc hfirst hlast
    obtain ⟨hlt, hinc'⟩ := pairwise_cons.mp hinc
    have hnext : current.timestamp < next.timestamp := hlt next mem_cons_self
    rw [selectLoop_cons_cons _ _ _ (hfirst.trans h01.le), nodes]
    by_cases h0 : time0 < next.timestamp
    · rw [if_pos h0]
      have hge : ∀ d ∈ next :: rest, time0 ≤ d.timestamp := by
        intro d hd
        rcases mem_cons.mp hd with rfl | hd
        · exact h0.le
        · exact (h0.trans ((pairwise_cons.mp hinc').1 d hd)).le
      rcases hfirst.lt_or_eq with hbefore | hat
      · rw [if_pos ⟨h0, hbefore⟩]
        exact stretch_selectLoop_some (next :: rest) front [] current
          (interpolateData current next time0) (by simp) hinc h01 hge
      · rw [if_neg fun h => absurd h.2 hat.not_lt, ← hat, interpolateData_self]
        by_cases hle : next.timestamp ≤ time1
        · rw [if_pos ⟨le_rfl, hle⟩, hat]
          exact stretch_selectLoop_some (next :: rest) front [] current current (by simp) hinc
            (hat ▸ h01) hge
        · -- Both times lie in one interval of the readings.
          have hbehind : nodesBehind time1 current (next :: rest) =
              [interpolateData current next time1] := by
            cases rest with
            | nil => rfl
            | cons third rest =>
              have hthird : ¬ third.timestamp ≤ time1 := fun h =>
                hle (((pairwise_cons.mp hinc').1 third mem_cons_self).le.trans h)
              rw [nodesBehind, if_neg hthird, if_pos (not_le.mp hle)]
          have hne : current.timestamp ≠ time1 := hat ▸ h01.ne
          rw [if_neg fun h => hle h.2, if_pos (not_le.mp hle), hbehind, endsBefore_concat,
            if_pos (by simpa using hne),
            stretch_concat_of_eq _ _ (timestamp_interpolateData _ _ _)]
          rfl
    · have hrest : ∃ last ∈ rest, time0 < last.timestamp := by
        obtain ⟨last, hmem, hgt⟩ := hlast
        rcases mem_cons.mp hmem with rfl | hmem
        · exact absurd hgt h0
        · exact ⟨last, hmem, hgt⟩
      rw [if_neg h0, if_neg fun h => h0 h.1,
        if_neg fun h => h0 (h.1.trans_lt hnext),
        if_neg ((not_lt.mp h0).trans h01.le).not_gt]
      simpa using ih (front ++ [current]) (some current) next hinc' (not_lt.mp h0) hrest

/-! ## Zero intervals -/

omit [Field K] [LinearOrder K] in
theorem getLast?_eraseIdx_of_lt (l : List (ImuData K)) {i : Nat} (h : i + 1 < l.length) :
    (l.eraseIdx i).getLast? = l.getLast? := by
  rw [getLast?_eq_getElem?, getLast?_eq_getElem?,
    length_eraseIdx_of_lt (by omega), getElem?_eraseIdx_of_ge (by omega)]
  congr 1
  omega

theorem getLast?_removeZeroDt (propData : List (ImuData K)) (i : Nat) :
    (removeZeroDt propData i).getLast? = propData.getLast? := by
  fun_induction removeZeroDt propData i with
  | case1 propData i h _ ih => rw [ih, getLast?_eraseIdx_of_lt _ h]
  | case2 _ _ _ _ ih => exact ih
  | case3 => rfl

theorem removeZeroDt_eq_self (propData : List (ImuData K)) (i : Nat)
    (h : ∀ (j : Nat) (hj : j + 1 < propData.length),
      1 / 10 ^ 12 ≤ |propData[j + 1].timestamp - propData[j].timestamp|) :
    removeZeroDt propData i = propData := by
  fun_induction removeZeroDt propData i with
  | case1 _ i hi hzero _ => exact absurd hzero (h i hi).not_gt
  | case2 _ _ _ _ ih => exact ih h
  | case3 => rfl

/-! ## The nodes lie on the interpolant -/

theorem interpolant_of_lt {a b : ImuData K} {t : K} (rest : List (ImuData K))
    (h : t < b.timestamp) : interpolant (a :: b :: rest) t = interpolateData a b t := by
  cases rest with
  | nil => rfl
  | cons c rest => rw [interpolant, if_pos h]

theorem interpolant_of_le {a b : ImuData K} {t : K} {rest : List (ImuData K)} (hne : rest ≠ [])
    (h : b.timestamp ≤ t) : interpolant (a :: b :: rest) t = interpolant (b :: rest) t := by
  cases rest with
  | nil => exact absurd rfl hne
  | cons c rest => rw [interpolant, if_neg h.not_gt]

theorem interpolant_head {a b : ImuData K} {rest : List (ImuData K)}
    (h : a.timestamp < b.timestamp) : interpolant (a :: b :: rest) a.timestamp = a := by
  rw [interpolant_of_lt rest h, interpolateData_self]

/-- What the nodes behind a reading are: they increase from any time `lo` before them up to `time1`,
those before `time1` are the readings but the last, and all lie on the interpolant. -/
structure NodesBehind (time1 : K) (previous : ImuData K) (rest result : List (ImuData K)) : Prop where
  increasing : Increasing result
  bounded : ∀ lo, lo < time1 → (∀ d ∈ rest, lo < d.timestamp) →
    ∀ d ∈ result, lo < d.timestamp ∧ d.timestamp ≤ time1
  ends : ∃ last ∈ result.getLast?, last.timestamp = time1
  mem_of_result : ∀ d ∈ result, d.timestamp < time1 → d ∈ rest.dropLast
  mem_of_reading : ∀ d ∈ rest.dropLast, d.timestamp < time1 → d ∈ result
  onInterpolant : ∀ d ∈ result, d = interpolant (previous :: rest) d.timestamp

theorem NodesBehind.singleton {time1 : K} {previous d : ImuData K} {rest : List (ImuData K)}
    (htime : d.timestamp = time1) (hlate : ∀ e ∈ rest.dropLast, time1 ≤ e.timestamp)
    (hon : d = interpolant (previous :: rest) time1) : NodesBehind time1 previous rest [d] where
  increasing := pairwise_singleton _ _
  bounded lo hlo _ e he := by
    rw [mem_singleton.mp he, htime]
    exact ⟨hlo, le_rfl⟩
  ends := ⟨d, rfl, htime⟩
  mem_of_result e he hlt := by
    rw [mem_singleton.mp he, htime] at hlt
    exact absurd hlt (lt_irrefl _)
  mem_of_reading e he hlt := absurd hlt (hlate e he).not_gt
  onInterpolant e he := by
    rw [mem_singleton.mp he, htime]
    exact hon

/-- A reading before `time1` is a node in front of those behind it. -/
theorem NodesBehind.cons {time1 : K} {previous current next : ImuData K} {rest result : List (ImuData K)}
    (h : NodesBehind time1 current (next :: rest) result) (hinc : Increasing (current :: next :: rest))
    (hbefore : current.timestamp < time1) :
    NodesBehind time1 previous (current :: next :: rest) (current :: result) := by
  obtain ⟨hlater, -⟩ := pairwise_cons.mp hinc
  have hbound := h.bounded current.timestamp hbefore hlater
  refine ⟨pairwise_cons.mpr ⟨fun d hd => (hbound d hd).1, h.increasing⟩, fun lo hlo hmin d hd => ?_, ?_,
    fun d hd hlt => ?_, fun d hd hlt => ?_, fun d hd => ?_⟩
  · rcases mem_cons.mp hd with rfl | hd
    · exact ⟨hmin _ mem_cons_self, hbefore.le⟩
    · exact h.bounded lo hlo (fun d hd => hmin d (mem_cons_of_mem _ hd)) d hd
  · obtain ⟨last, hmem, hlast⟩ := h.ends
    exact ⟨last, by rw [getLast?_cons, hmem]; rfl, hlast⟩
  · rw [dropLast_cons_cons]
    rcases mem_cons.mp hd with rfl | hd
    · exact mem_cons_self
    · exact mem_cons_of_mem _ (h.mem_of_result d hd hlt)
  · rw [dropLast_cons_cons] at hd
    rcases mem_cons.mp hd with rfl | hd
    · exact mem_cons_self
    · exact mem_cons_of_mem _ (h.mem_of_reading d hd hlt)
  · rcases mem_cons.mp hd with rfl | hd
    · rw [interpolant_of_le (by simp) le_rfl, interpolant_head (hlater next mem_cons_self)]
    · rw [interpolant_of_le (by simp) (hbound d hd).1.le]
      exact h.onInterpolant d hd

theorem nodesBehind_spec {time1 : K} (rest : List (ImuData K)) :
    ∀ previous : ImuData K, rest ≠ [] → Increasing (previous :: rest) →
      NodesBehind time1 previous rest (nodesBehind time1 previous rest) := by
  induction rest with
  | nil => exact fun _ h => absurd rfl h
  | cons current rest ih =>
    intro previous _ hinc
    obtain ⟨-, hinc'⟩ := pairwise_cons.mp hinc
    cases rest with
    | nil => exact .singleton (timestamp_interpolateData _ _ _) (by simp) rfl
    | cons next rest =>
      have hnext : current.timestamp < next.timestamp :=
        (pairwise_cons.mp hinc').1 next mem_cons_self
      rw [nodesBehind]
      by_cases hle : next.timestamp ≤ time1
      · rw [if_pos hle]
        exact (ih current (by simp) hinc').cons hinc' (hnext.trans_le hle)
      · rw [if_neg hle]
        have hgt := not_le.mp hle
        -- `next` is behind `time1`, and so is every reading after it
        have hlate : ∀ d ∈ (next :: rest).dropLast, time1 ≤ d.timestamp := by
          intro d hd
          rcases mem_cons.mp (mem_of_mem_dropLast hd) with rfl | hd
          · exact hgt.le
          · exact (hgt.trans ((pairwise_cons.mp (pairwise_cons.mp hinc').2).1 d hd)).le
        have hlate' : time1 ≤ current.timestamp →
            ∀ d ∈ (current :: next :: rest).dropLast, time1 ≤ d.timestamp := by
          intro hcurrent d hd
          rw [dropLast_cons_cons] at hd
          rcases mem_cons.mp hd with rfl | hd
          · exact hcurrent
          · exact hlate d hd
        by_cases hbefore : time1 < current.timestamp
        · rw [if_pos hbefore]
          exact .singleton (timestamp_interpolateData _ _ _) (hlate' hbefore.le) (interpolant_of_lt _ hbefore).symm
        · rw [if_neg hbefore]
          by_cases heq : current.timestamp = time1
          · rw [if_pos heq]
            refine .singleton heq (hlate' heq.ge) ?_
            rw [← heq, interpolant_of_le (by simp) le_rfl, interpolant_head hnext]
          · rw [if_neg heq]
            have hlast : NodesBehind time1 current (next :: rest) [interpolateData current next time1] :=
              .singleton (timestamp_interpolateData _ _ _) hlate (interpolant_of_lt _ hgt).symm
            exact hlast.cons hinc' ((not_lt.mp hbefore).lt_of_ne heq)

/-- What the nodes are: they increase from `time0` to `time1`, between these they are the readings but
the last, and all lie on the interpolant. -/
structure IsNodes (time0 time1 : K) (imuData result : List (ImuData K)) : Prop where
  increasing : Increasing result
  starts : ∃ first ∈ result.head?, first.timestamp = time0
  ends : ∃ last ∈ result.getLast?, last.timestamp = time1
  interior : ∀ t, time0 < t → t < time1 →
    ((∃ d ∈ result, d.timestamp = t) ↔ ∃ d ∈ imuData.dropLast, d.timestamp = t)
  onInterpolant : ∀ d ∈ result, d = interpolant imuData d.timestamp

theorem IsNodes.bounds {imuData result : List (ImuData K)}
    (h : IsNodes time0 time1 imuData result) {d : ImuData K} (hd : d ∈ result) :
    time0 ≤ d.timestamp ∧ d.timestamp ≤ time1 := by
  obtain ⟨first, hfirst, rfl⟩ := h.starts
  obtain ⟨last, hlast, rfl⟩ := h.ends
  constructor
  · obtain ⟨rest, rfl⟩ := head?_eq_some_iff.mp hfirst
    rcases mem_cons.mp hd with rfl | hd
    · exact le_rfl
    · exact ((pairwise_cons.mp h.increasing).1 d hd).le
  · obtain ⟨front, rfl⟩ := getLast?_eq_some_iff.mp hlast
    rcases mem_append.mp hd with hd | hd
    · exact ((pairwise_append.mp h.increasing).2.2 d hd last (by simp)).le
    · rw [mem_singleton.mp hd]

theorem nodes_spec (h01 : time0 < time1) (rest : List (ImuData K)) :
    ∀ current : ImuData K, Increasing (current :: rest) → current.timestamp ≤ time0 →
      (∃ last ∈ rest, time0 < last.timestamp) →
      IsNodes time0 time1 (current :: rest) (nodes time0 time1 (current :: rest)) := by
  induction rest with
  | nil => exact fun _ _ _ ⟨_, h, _⟩ => absurd h not_mem_nil
  | cons next rest ih =>
    intro current hinc hfirst hlast
    obtain ⟨hlt, hinc'⟩ := pairwise_cons.mp hinc
    rw [nodes]
    by_cases h0 : time0 < next.timestamp
    · rw [if_pos h0]
      -- `time0` is in the first interval: the node there, and those behind
      have hbehind : NodesBehind time1 current (next :: rest)
          (nodesBehind time1 current (next :: rest)) :=
        nodesBehind_spec (next :: rest) current (by simp) hinc
      have hbound := hbehind.bounded time0 h01 (by
        intro d hd
        rcases mem_cons.mp hd with rfl | hd
        · exact h0
        · exact h0.trans ((pairwise_cons.mp hinc').1 d hd))
      exact
        { increasing := pairwise_cons.mpr ⟨fun d hd => (hbound d hd).1, hbehind.increasing⟩
          starts := ⟨_, rfl, rfl⟩
          ends := by
            obtain ⟨last, hmem, hend⟩ := hbehind.ends
            exact ⟨last, by rw [getLast?_cons, hmem]; rfl, hend⟩
          interior := by
            intro t ht0 ht1
            rw [dropLast_cons_cons]
            constructor
            · rintro ⟨d, hd, rfl⟩
              rcases mem_cons.mp hd with rfl | hd
              · exact absurd ht0 (lt_irrefl _)
              · exact ⟨d, mem_cons_of_mem _ (hbehind.mem_of_result d hd ht1), rfl⟩
            · rintro ⟨d, hd, rfl⟩
              rcases mem_cons.mp hd with rfl | hd
              · exact absurd ht0 hfirst.not_gt
              · exact ⟨d, mem_cons_of_mem _ (hbehind.mem_of_reading d hd ht1), rfl⟩
          onInterpolant := by
            intro d hd
            rcases mem_cons.mp hd with rfl | hd
            · rw [timestamp_interpolateData, interpolant_of_lt _ h0]
            · exact hbehind.onInterpolant d hd }
    · have hle := not_lt.mp h0
      -- the first interval is before `time0`
      have hrest : ∃ last ∈ rest, time0 < last.timestamp := by
        obtain ⟨last, hmem, hgt⟩ := hlast
        rcases mem_cons.mp hmem with rfl | hmem
        · exact absurd hgt h0
        · exact ⟨last, hmem, hgt⟩
      have hrec := ih next hinc' hle hrest
      rw [if_neg h0]
      exact
        { increasing := hrec.increasing
          starts := hrec.starts
          ends := hrec.ends
          interior := by
            intro t ht0 ht1
            rw [hrec.interior t ht0 ht1, dropLast_cons_cons]
            constructor
            · rintro ⟨d, hd, rfl⟩
              exact ⟨d, mem_cons_of_mem _ hd, rfl⟩
            · rintro ⟨d, hd, rfl⟩
              rcases mem_cons.mp hd with rfl | hd
              · exact absurd ht0 hfirst.not_gt
              · exact ⟨d, hd, rfl⟩
          onInterpolant := by
            intro d hd
            obtain ⟨last, hmem, _⟩ := hrest
            rw [interpolant_of_le (ne_nil_of_mem hmem) (hle.trans (hrec.bounds hd).1)]
            exact hrec.onInterpolant d hd }

/-! ## The selection -/

/-- Times of the readings, with the two ends, that differ are at least `1e-12` apart. -/
def Separated (time0 time1 : K) (imuData : List (ImuData K)) : Prop :=
  ∀ s ∈ time0 :: time1 :: imuData.map (·.timestamp),
    ∀ t ∈ time0 :: time1 :: imuData.map (·.timestamp), s < t → 1 / 10 ^ 12 ≤ t - s

/-- The intervals `dt` of a propagation over the readings. -/
def intervals : List (ImuData K) → List K
  | before :: after :: rest => (after.timestamp - before.timestamp) :: intervals (after :: rest)
  | _ => []

omit [LinearOrder K] in
theorem sum_intervals (rest : List (ImuData K)) :
    ∀ first last : ImuData K, (first :: rest).getLast? = some last →
      (intervals (first :: rest)).sum = last.timestamp - first.timestamp := by
  induction rest with
  | nil =>
    intro first last h
    obtain rfl : first = last := by simpa using h
    simp [intervals]
  | cons second rest ih =>
    intro first last h
    rw [getLast?_cons_cons] at h
    rw [intervals, sum_cons, ih second last h]
    ring

variable [IsStrictOrderedRing K]

theorem IsNodes.gap {imuData result : List (ImuData K)}
    (h : IsNodes time0 time1 imuData result) (hsep : Separated time0 time1 imuData) (j : Nat)
    (hj : j + 1 < result.length) :
    1 / 10 ^ 12 ≤ |result[j + 1].timestamp - result[j].timestamp| := by
  have htime : ∀ d ∈ result, d.timestamp ∈ time0 :: time1 :: imuData.map (·.timestamp) := by
    intro d hd
    obtain ⟨hge, hle⟩ := h.bounds hd
    rcases hge.eq_or_lt with hstart | hgt
    · simp [hstart]
    · rcases hle.eq_or_lt with hend | hlt
      · simp [hend]
      · obtain ⟨reading, hmem, heq⟩ := (h.interior d.timestamp hgt hlt).mp ⟨d, hd, rfl⟩
        refine mem_cons_of_mem _ (mem_cons_of_mem _ ?_)
        exact mem_map.mpr ⟨reading, mem_of_mem_dropLast hmem, heq⟩
  have hlt : result[j].timestamp < result[j + 1].timestamp :=
    pairwise_iff_getElem.mp h.increasing j (j + 1) (by omega) hj (by omega)
  rw [abs_of_pos (sub_pos.mpr hlt)]
  exact hsep _ (htime _ (getElem_mem _)) _ (htime _ (getElem_mem _)) hlt

theorem selectImuReadings_eq_nodes {imuData : List (ImuData K)}
    (hinc : Increasing imuData) (hsep : Separated time0 time1 imuData) (h01 : time0 < time1)
    (hfirst : ∃ first ∈ imuData.head?, first.timestamp ≤ time0)
    (hlast : ∃ last ∈ imuData.getLast?, time0 < last.timestamp) :
    IsNodes time0 time1 imuData (nodes time0 time1 imuData) ∧
      selectImuReadings imuData time0 time1 = nodes time0 time1 imuData := by
  obtain ⟨first, hmem, hle⟩ := hfirst
  obtain ⟨rest, rfl⟩ := head?_eq_some_iff.mp hmem
  have hbehind : ∃ last ∈ rest, time0 < last.timestamp := by
    obtain ⟨last, hmem, hgt⟩ := hlast
    rcases mem_cons.mp (mem_of_getLast? hmem) with rfl | hmem
    · exact absurd hgt hle.not_gt
    · exact ⟨last, hmem, hgt⟩
  have hnodes := nodes_spec h01 rest first hinc hle hbehind
  have hstretch := stretch_selectLoop h01 rest [] none first hinc hle hbehind
  rw [nil_append] at hstretch
  refine ⟨hnodes, ?_⟩
  have hne : selectLoop time0 time1 none (first :: rest) [] ≠ [] := by
    intro hempty
    obtain ⟨node, hnode, _⟩ := hnodes.starts
    rw [← hstretch, hempty] at hnode
    simp [stretch, endsBefore] at hnode
  rw [selectImuReadings]
  rw [if_neg (by simpa using hne), hstretch]
  exact removeZeroDt_eq_self _ 0 (hnodes.gap hsep)

/-- The selection cuts the readings at `time0` and `time1`: it has the readings strictly between as its
inner nodes, but the last one when `time1` is behind it, and no interval is missed or counted twice. The
removal of zero intervals keeps the end. -/
theorem selectImuReadings_spec (time0 time1 : K) (imuData : List (ImuData K))
    (hinc : Increasing imuData) (hsep : Separated time0 time1 imuData) (h01 : time0 < time1)
    (first last : ImuData K) (hfirst : imuData.head? = some first)
    (hlast : imuData.getLast? = some last) (h0 : first.timestamp ≤ time0)
    (h1 : time0 < last.timestamp) :
    let result := selectImuReadings imuData time0 time1
    result ≠ [] ∧ Increasing result ∧
      (result.head?.map (·.timestamp) = some time0) ∧
      (result.getLast?.map (·.timestamp) = some time1) ∧
      (∀ t, time0 < t → t < time1 → ((∃ d ∈ result, d.timestamp = t) ↔
        (∃ d ∈ imuData, d.timestamp = t) ∧ ¬ (last.timestamp < time1 ∧ t = last.timestamp))) ∧
      (∀ d ∈ result, d = interpolant imuData d.timestamp) ∧
      (∀ (propData : List (ImuData K)) (i : Nat),
        (removeZeroDt propData i).getLast? = propData.getLast?) ∧
      (intervals result).sum = time1 - time0 := by
  obtain ⟨hnodes, heq⟩ := selectImuReadings_eq_nodes hinc hsep h01 ⟨first, hfirst, h0⟩
    ⟨last, hlast, h1⟩
  dsimp only
  rw [heq]
  obtain ⟨node, hstart, hnode⟩ := hnodes.starts
  obtain ⟨final, hend, hfinal⟩ := hnodes.ends
  obtain ⟨tail, htail⟩ := head?_eq_some_iff.mp hstart
  obtain ⟨front, rfl⟩ := getLast?_eq_some_iff.mp hlast
  have hbefore : ∀ d ∈ front, d.timestamp < last.timestamp := fun d hd =>
    (pairwise_append.mp hinc).2.2 d hd last (by simp)
  refine ⟨by rw [htail]; simp, hnodes.increasing, by rw [hstart, Option.map_some, hnode],
    by rw [hend, Option.map_some, hfinal], ?_, hnodes.onInterpolant, getLast?_removeZeroDt, ?_⟩
  · intro t ht0 ht1
    rw [hnodes.interior t ht0 ht1, dropLast_concat]
    constructor
    · rintro ⟨d, hd, rfl⟩
      exact ⟨⟨d, by simp [hd], rfl⟩, fun h => (hbefore d hd).ne h.2⟩
    · rintro ⟨⟨d, hd, rfl⟩, hnot⟩
      rcases mem_append.mp hd with hd | hd
      · exact ⟨d, hd, rfl⟩
      · rw [mem_singleton.mp hd] at hnot ht1
        exact absurd ⟨ht1, rfl⟩ hnot
  · rw [htail] at hend ⊢
    rw [sum_intervals tail node final hend, hnode, hfinal]

end Selection

/-- Readings at the times 0, 1, 2 and 3, cut at 1/2 and 5/2. -/
theorem selectImuReadings_spec_four :
    let imuData : List (ImuData ℚ) := [⟨0, 0, 0⟩, ⟨1, 1, 0⟩, ⟨2, 0, 1⟩, ⟨3, 1, 1⟩]
    (intervals (selectImuReadings imuData (1 / 2) (5 / 2))).sum = 5 / 2 - 1 / 2 := by
  have h := selectImuReadings_spec (K := ℚ) (1 / 2) (5 / 2)
    [⟨0, 0, 0⟩, ⟨1, 1, 0⟩, ⟨2, 0, 1⟩, ⟨3, 1, 1⟩]
    (by norm_num [Increasing])
    (by norm_num [Separated])
    (by norm_num) ⟨0, 0, 0⟩ ⟨3, 1, 1⟩ rfl rfl (by norm_num) (by norm_num)
  exact h.2.2.2.2.2.2.2

end Bravo.Filter
