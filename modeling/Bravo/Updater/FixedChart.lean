import Bravo.Types.JPLQuat
import Bravo.Updater.Live

/-! # `msckf_fixed_chart_system`

The second pass linearises at the corrected state, and the step is still taken in the chart of the
first pass. The system is carried over by a matrix that is the identity but for one block under the
orientation of each pose. Here the loop that builds the matrix, over the real numbers, and what it
does to every column (`fixedChartSystem_columns`).
-/

namespace Bravo.Updater

open Bravo.Types Bravo.Shadow Matrix

/-- A variable of the order by what the loop asks of it. A pose has six coordinates. -/
structure ChartVariable where
  id : Int
  size : Int
  /-- `dynamic_pointer_cast<PoseJPL>` succeeds. -/
  isPose : Bool
  size_of_isPose : isPose = true → size = 6

def coeffAt {p : Nat} (v : Fin p → ℝ) (i : Int) : ℝ :=
  if h : i.toNat < p then v ⟨i.toNat, h⟩ else 0

/-- `absolute_delta.segment<3>(id)` -/
def segment3 {p : Nat} (v : Fin p → ℝ) (id : Int) : Fin 3 → ℝ := fun k => coeffAt v (id + k)

structure ChartLoop (n : Nat) where
  offset : Int
  localDelta : Fin n → ℝ
  chart : Matrix (Fin n) (Fin n) ℝ
  layout : List MSCKFUpdatePreviewBlock

/-- `Zero(H_x.cols())` and `Identity(H_x.cols(), H_x.cols())` -/
def ChartLoop.start (n : Nat) : ChartLoop n := ⟨0, 0, 1, []⟩

/-- `chart.block<3, 3>(offset, offset) = block` -/
def setBlock3 {n : Nat} (chart : Matrix (Fin n) (Fin n) ℝ) (offset : Int)
    (block : Matrix (Fin 3) (Fin 3) ℝ) : Matrix (Fin n) (Fin n) ℝ := fun i j =>
  if offset ≤ (i : Int) ∧ (i : Int) < offset + 3 ∧ offset ≤ (j : Int) ∧ (j : Int) < offset + 3 then
    block (Fin.ofNat 3 ((i : Int) - offset).toNat) (Fin.ofNat 3 ((j : Int) - offset).toNat)
  else chart i j

section Loop

variable {m n p : Nat} (absoluteDelta : Fin p → ℝ)

noncomputable def fixedChartStep (loop : ChartLoop n) :
    Option ChartVariable → Option (ChartLoop n)
  | none => none
  | some v =>
    if v.id < 0 ∨ v.size ≤ 0 ∨ loop.offset > n - v.size ∨ v.id > p - v.size then none
    else some {
      offset := loop.offset + v.size
      localDelta := fun i =>
        if loop.offset ≤ (i : Int) ∧ (i : Int) < loop.offset + v.size then
          coeffAt absoluteDelta (v.id + ((i : Int) - loop.offset))
        else loop.localDelta i
      chart :=
        if v.isPose then
          setBlock3 loop.chart loop.offset (chartBlock (segment3 absoluteDelta v.id))
        else loop.chart
      layout := loop.layout ++ [⟨v.id, v.size, loop.offset⟩] }

noncomputable def fixedChartLoop :
    ChartLoop n → List (Option ChartVariable) → Option (ChartLoop n)
  | loop, [] => some loop
  | loop, v :: order =>
    match fixedChartStep absoluteDelta loop v with
    | none => none
    | some next => fixedChartLoop next order

structure FixedChartSystem (m n : Nat) where
  fixed_H : Matrix (Fin m) (Fin n) ℝ
  correctedResidual : Fin m → ℝ
  correctionNorm : ℝ
  layout : List MSCKFUpdatePreviewBlock

/-- `msckf_fixed_chart_system`. The finiteness checks pass in exact arithmetic. -/
noncomputable def fixedChartSystem (order : List (Option ChartVariable))
    (H_x : Matrix (Fin m) (Fin n) ℝ) (residual : Fin m → ℝ) : Option (FixedChartSystem m n) :=
  if n = 0 then none
  else
    match fixedChartLoop absoluteDelta (.start n) order with
    | none => none
    | some loop =>
      if loop.offset ≠ n then none
      else
        let fixed_H := H_x * loop.chart
        let correction := fixed_H *ᵥ loop.localDelta
        some {
          fixed_H := fixed_H
          correctedResidual := residual + correction
          correctionNorm := √(∑ i, correction i ^ 2)
          layout := loop.layout }

end Loop

/-! ## Columns -/

section Columns

variable {m n p : Nat} {absoluteDelta : Fin p → ℝ}

def startOf (order : List (Option ChartVariable)) : Int :=
  (order.map fun v => (v.map (·.size)).getD 0).sum

variable {v : Option ChartVariable}

theorem fixedChartStep_some {loop next : ChartLoop n}
    (h : fixedChartStep absoluteDelta loop v = some next) :
    ∃ w, v = some w ∧ 0 < w.size ∧ loop.offset + w.size ≤ n ∧
      next.offset = loop.offset + w.size ∧
      next.chart = if w.isPose then
          setBlock3 loop.chart loop.offset (chartBlock (segment3 absoluteDelta w.id))
        else loop.chart := by
  cases v with
  | none => cases h
  | some w =>
    by_cases hchecks :
        w.id < 0 ∨ w.size ≤ 0 ∨ loop.offset > n - w.size ∨ w.id > p - w.size
    · rw [fixedChartStep, if_pos hchecks] at h
      cases h
    · rw [fixedChartStep, if_neg hchecks] at h
      obtain rfl := Option.some.inj h
      refine ⟨w, rfl, ?_, ?_, rfl, rfl⟩ <;> omega

variable {chart : Matrix (Fin n) (Fin n) ℝ} {block : Matrix (Fin 3) (Fin 3) ℝ} {offset : Int}
  {i j : Fin n}

theorem setBlock3_of_outside
    (h : ¬ (offset ≤ (i : Int) ∧ (i : Int) < offset + 3 ∧ offset ≤ (j : Int) ∧ (j : Int) < offset + 3)) :
    setBlock3 chart offset block i j = chart i j :=
  if_neg h

theorem chart_of_step {loop next : ChartLoop n}
    (h : fixedChartStep absoluteDelta loop v = some next)
    (hj : (j : Int) < loop.offset ∨ next.offset ≤ j) : next.chart i j = loop.chart i j := by
  obtain ⟨w, -, -, -, hoffset, hchart⟩ := fixedChartStep_some h
  rw [hchart]
  split
  · rename_i hpose
    have hsix := w.size_of_isPose hpose
    exact setBlock3_of_outside (by omega)
  · rfl

theorem fixedChartLoop_cons {loop last : ChartLoop n} {order : List (Option ChartVariable)}
    (h : fixedChartLoop absoluteDelta loop (v :: order) = some last) :
    ∃ next, fixedChartStep absoluteDelta loop v = some next ∧
      fixedChartLoop absoluteDelta next order = some last := by
  unfold fixedChartLoop at h
  split at h
  · cases h
  · rename_i next hstep
    exact ⟨next, hstep, h⟩

variable {before after : List (Option ChartVariable)}

variable {last : ChartLoop n}

theorem fixedChartLoop_append :
    ∀ {loop : ChartLoop n}, fixedChartLoop absoluteDelta loop (before ++ after) = some last →
      ∃ middle, fixedChartLoop absoluteDelta loop before = some middle ∧
        fixedChartLoop absoluteDelta middle after = some last := by
  induction before with
  | nil =>
    intro loop h
    exact ⟨loop, rfl, h⟩
  | cons v rest ih =>
    intro loop h
    obtain ⟨next, hstep, hrest⟩ := fixedChartLoop_cons h
    obtain ⟨middle, hbefore, hafter⟩ := ih hrest
    refine ⟨middle, ?_, hafter⟩
    unfold fixedChartLoop
    rw [hstep]
    exact hbefore

theorem fixedChartLoop_frame {order : List (Option ChartVariable)} :
    ∀ {loop : ChartLoop n}, fixedChartLoop absoluteDelta loop order = some last →
      last.offset = loop.offset + startOf order ∧ loop.offset ≤ last.offset ∧
        ∀ i j : Fin n, (j : Int) < loop.offset ∨ last.offset ≤ j →
          last.chart i j = loop.chart i j := by
  induction order with
  | nil =>
    intro loop h
    cases h
    simp [startOf]
  | cons v rest ih =>
    intro loop h
    obtain ⟨next, hstep, hrest⟩ := fixedChartLoop_cons h
    obtain ⟨hoffset, hle, hframe⟩ := ih hrest
    obtain ⟨w, rfl, hsize, -, hnext, -⟩ := fixedChartStep_some hstep
    have hstart : startOf (some w :: rest) = w.size + startOf rest := by
      simp [startOf]
    refine ⟨by omega, by omega, fun i j hj => ?_⟩
    rw [hframe i j (by omega), chart_of_step hstep (by omega)]

theorem setBlock3_columns {columns : Fin 3 → Fin n}
    (hcolumns : ∀ l : Fin 3, (columns l : Int) = offset + l) (l k : Fin 3) :
    setBlock3 chart offset block (columns l) (columns k) = block l k := by
  have hcast : ∀ l : Fin 3, Fin.ofNat 3 ((columns l : Int) - offset).toNat = l := by
    intro l
    have hsub : ((columns l : Int) - offset).toNat = l := by
      have hl := hcolumns l
      omega
    rw [hsub]
    ext
    exact Nat.mod_eq_of_lt l.isLt
  have hl := hcolumns l
  have hk := hcolumns k
  unfold setBlock3
  rw [if_pos (by omega), hcast, hcast]

theorem chart_columns {v : ChartVariable}
    (h : fixedChartLoop absoluteDelta (.start n) (before ++ some v :: after) = some last) :
    startOf before + v.size ≤ n ∧
      (v.isPose = true → ∀ columns : Fin 3 → Fin n,
        (∀ l : Fin 3, (columns l : Int) = startOf before + l) → ∀ k : Fin 3,
          (∀ l, last.chart (columns l) (columns k) =
            chartBlock (segment3 absoluteDelta v.id) l k) ∧
          ∀ i, i ∉ Set.range columns → last.chart i (columns k) = 0) ∧
      ∀ j : Fin n, startOf before ≤ j → (j : Int) < startOf before + v.size →
        (v.isPose = true → startOf before + 3 ≤ j) →
          ∀ i, last.chart i j = (1 : Matrix (Fin n) (Fin n) ℝ) i j := by
  obtain ⟨middle, hbefore, hrest⟩ := fixedChartLoop_append h
  obtain ⟨next, hstep, hafter⟩ := fixedChartLoop_cons hrest
  obtain ⟨hmiddle, -, hfirst⟩ := fixedChartLoop_frame hbefore
  obtain ⟨-, hmono, hlast⟩ := fixedChartLoop_frame hafter
  obtain ⟨w, hw, hsize, hfits, hnext, hchart⟩ := fixedChartStep_some hstep
  obtain rfl := Option.some.inj hw
  have hstart : middle.offset = startOf before := by
    simpa [ChartLoop.start] using hmiddle
  -- Behind the step nothing touches its columns, before it they are those of the identity.
  have hcolumn : ∀ i j : Fin n, (j : Int) < startOf before + v.size →
      last.chart i j = next.chart i j := fun i j hj => hlast i j (by omega)
  have hfresh : ∀ i j : Fin n, startOf before ≤ j →
      middle.chart i j = (1 : Matrix (Fin n) (Fin n) ℝ) i j := by
    intro i j hj
    have hstarted := hfirst i j (by omega)
    simpa [ChartLoop.start] using hstarted
  refine ⟨by omega, ?_, ?_⟩
  · intro hpose columns hcolumns k
    have hsix := v.size_of_isPose hpose
    have hk := hcolumns k
    have hwritten : ∀ i, last.chart i (columns k) =
        setBlock3 middle.chart (startOf before) (chartBlock (segment3 absoluteDelta v.id)) i
          (columns k) := by
      intro i
      rw [hcolumn i _ (by omega), hchart, if_pos hpose, hstart]
    refine ⟨fun l => ?_, fun i hi => ?_⟩
    · rw [hwritten, setBlock3_columns hcolumns]
    · have hrow : (i : Int) < startOf before ∨ startOf before + 3 ≤ i := by
        by_contra hin
        apply hi
        refine ⟨⟨((i : Int) - startOf before).toNat, by omega⟩, ?_⟩
        ext
        have hcol := hcolumns ⟨((i : Int) - startOf before).toNat, by omega⟩
        simp only at hcol
        omega
      have hne : i ≠ columns k := fun heq => hi ⟨k, heq.symm⟩
      rw [hwritten, setBlock3_of_outside (by omega), hfresh _ _ (by omega), one_apply_ne hne]
  · intro j hj hjlt horientation i
    rw [hcolumn i j hjlt, hchart]
    split
    · rename_i hpose
      have hthree := horientation hpose
      rw [setBlock3_of_outside (by omega), hfresh i j hj]
    · rw [hfresh i j hj]

theorem fixedChartSystem_columns {out : FixedChartSystem m n} {H_x : Matrix (Fin m) (Fin n) ℝ}
    {residual : Fin m → ℝ} {v : ChartVariable}
    (h : fixedChartSystem absoluteDelta (before ++ some v :: after) H_x residual = some out) :
    startOf before + v.size ≤ n ∧
      (v.isPose = true → ∀ columns : Fin 3 → Fin n,
        (∀ l : Fin 3, (columns l : Int) = startOf before + l) → ∀ i k,
          out.fixed_H i (columns k) =
            ∑ l, H_x i (columns l) * chartBlock (segment3 absoluteDelta v.id) l k) ∧
      ∀ j : Fin n, startOf before ≤ j → (j : Int) < startOf before + v.size →
        (v.isPose = true → startOf before + 3 ≤ j) → ∀ i, out.fixed_H i j = H_x i j := by
  unfold fixedChartSystem at h
  split at h
  · cases h
  split at h
  · cases h
  rename_i loop hloop
  split at h
  · cases h
  obtain rfl := Option.some.inj h
  obtain ⟨hfits, hpose, hother⟩ := chart_columns hloop
  refine ⟨hfits, fun hv columns hcolumns i k => ?_, fun j hj hjlt horientation i => ?_⟩
  · obtain ⟨hblock, hzero⟩ := hpose hv columns hcolumns k
    have hinjective : Function.Injective columns := by
      intro a b hab
      have ha := hcolumns a
      have hb := hcolumns b
      rw [hab] at ha
      ext
      omega
    change ∑ c, H_x i c * loop.chart c (columns k) = _
    refine (Fintype.sum_of_injective columns hinjective _ _ (fun c hc => ?_) fun l => ?_).symm
    · rw [hzero c hc, mul_zero]
    · rw [hblock]
  · change ∑ c, H_x i c * loop.chart c j = _
    simp only [hother j hj hjlt horientation]
    exact congrFun (congrFun (Matrix.mul_one H_x) i) j

/-- The second pass in the chart of the first: two updates are one, the block is the derivative of
the second chart in the first whatever is measured, and it is what the system is multiplied with
under the orientation of each pose. -/
theorem fixedChart_exact {out : FixedChartSystem m n} {H_x : Matrix (Fin m) (Fin n) ℝ}
    {residual : Fin m → ℝ} {before after : List (Option ChartVariable)} {v : ChartVariable}
    (h : fixedChartSystem absoluteDelta (before ++ some v :: after) H_x residual = some out) :
    (∀ (q : Fin 4 → ℝ) (d e : Fin 3 → ℝ), 0 < chartScale d e →
      quat2Rot (JPLQuat.update q (d + e)) =
        quat2Rot (JPLQuat.update (JPLQuat.update q d) (transition d e))) ∧
    (∀ d : Fin 3 → ℝ, HasFDerivAt (transition d) (linearOf (chartBlock d)) 0) ∧
    (∀ (E : Type) [NormedAddCommGroup E] [NormedSpace ℝ E] (f : Matrix (Fin 3) (Fin 3) ℝ → E)
      (q : Fin 4 → ℝ) (d : Fin 3 → ℝ) (D : (Fin 3 → ℝ) →L[ℝ] E),
      HasFDerivAt (fun e => f (quat2Rot (JPLQuat.update (JPLQuat.update q d) e))) D 0 →
        HasFDerivAt (fun e => f (quat2Rot (JPLQuat.update q (d + e))))
          (D.comp (linearOf (chartBlock d))) 0) ∧
    startOf before + v.size ≤ n ∧
    (v.isPose = true → ∀ columns : Fin 3 → Fin n,
      (∀ l : Fin 3, (columns l : Int) = startOf before + l) → ∀ i k,
        out.fixed_H i (columns k) =
          ∑ l, H_x i (columns l) * chartBlock (segment3 absoluteDelta v.id) l k) ∧
    ∀ j : Fin n, startOf before ≤ j → (j : Int) < startOf before + v.size →
      (v.isPose = true → startOf before + 3 ≤ j) → ∀ i, out.fixed_H i j = H_x i j :=
  ⟨fun q _ _ hscale => rot_update_add q hscale, hasFDerivAt_transition,
    fun _ _ _ f q d _ hD => hasFDerivAt_rot_update f q d hD, fixedChartSystem_columns h⟩

/-- One measurement of one pose that the first pass turned about the third axis. -/
theorem fixedChart_exact_pose :
    ∃ out : FixedChartSystem 1 6,
      fixedChartSystem ![0, 0, 2, 0, 0, 0] [some ⟨0, 6, true, fun _ => rfl⟩]
        (fun _ _ => 1) 0 = some out ∧
      ∀ i k, out.fixed_H i (Fin.castLE (by decide) k) =
        ∑ l, 1 * chartBlock (segment3 ![0, 0, 2, 0, 0, 0] 0) l k := by
  refine ⟨_, rfl, fun i k => ?_⟩
  obtain ⟨-, -, -, -, hcolumns, -⟩ := @fixedChart_exact 1 6 6 ![0, 0, 2, 0, 0, 0] _ (fun _ _ => 1) 0
    [] [] ⟨0, 6, true, fun _ => rfl⟩ rfl
  exact hcolumns rfl (Fin.castLE (by decide)) (fun l => by simp [startOf]) i k

end Columns

end Bravo.Updater
