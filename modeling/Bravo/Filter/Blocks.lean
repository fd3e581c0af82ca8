import Bravo.Filter.Layout
import Mathlib.Algebra.BigOperators.Intervals
import Mathlib.Algebra.Order.Field.Basic
import Mathlib.Data.List.GetD

/-! # Loops over blocks as sums

The helper functions walk over variables and take one block of the covariance for each. Together the
blocks are a choice of coordinates (`positions`), and an accumulating loop over them is one sum over
the chosen coordinates (`coeff_foldl_columns`).
-/

namespace Bravo.Filter

open Bravo.Linear List

/-! ## Positions -/

section Positions

variable {K : Type} [Zero K]

def State.positions (st : State K) (order : List Var) : List Nat :=
  order.flatMap fun v => (List.range v.size).map (st.at v + ·)

def State.pos (st : State K) (order : List Var) (c : Nat) : Nat := (st.positions order).getD c 0

variable {st : State K} {order : List Var} {v : Var}

@[simp] theorem sizeOfVars_cons (v : Var) (order : List Var) :
    sizeOfVars (v :: order) = v.size + sizeOfVars order := by
  simp [sizeOfVars]

theorem length_positions (order : List Var) : (st.positions order).length = sizeOfVars order := by
  induction order with
  | nil => rfl
  | cons v rest ih =>
    unfold State.positions at ih ⊢
    simp [ih]

theorem pos_cons_lt {c : Nat} (hc : c < v.size) : st.pos (v :: order) c = st.at v + c := by
  unfold State.pos State.positions
  rw [flatMap_cons, getD_append _ _ _ _ (by simpa using hc)]
  simp [List.getD, hc]

theorem pos_cons_add (c : Nat) : st.pos (v :: order) (v.size + c) = st.pos order c := by
  unfold State.pos State.positions
  rw [flatMap_cons, getD_append_right _ _ _ _ (by simp)]
  simp

theorem pos_mem {c : Nat} (hc : c < sizeOfVars order) : st.pos order c ∈ st.positions order := by
  have hlen : c < (st.positions order).length := by rwa [length_positions]
  unfold State.pos
  rw [getD_eq_getElem _ _ hlen]
  exact getElem_mem hlen

theorem Laid.pos_lt (hl : Laid st) (horder : ∀ v ∈ order, st.Holds v) {c : Nat}
    (hc : c < sizeOfVars order) : st.pos order c < st.cov.rows := by
  have hmem : st.pos order c ∈ st.positions order := pos_mem hc
  unfold State.positions at hmem
  obtain ⟨v, hv, hin⟩ := mem_flatMap.mp hmem
  obtain ⟨b, hb, heq⟩ := mem_map.mp hin
  obtain ⟨-, hfits, -⟩ := hl.holds_range (horder v hv)
  have hlt := mem_range.mp hb
  omega

end Positions

/-! ## Writing loops -/

section Writing

variable {K : Type} [Zero K] {st : State K}

theorem coeff_foldl_rows {block : Var → Dense K} {f : Nat → Nat → K} {m : Nat}
    {vs : List Var} {start stop : Nat} (hc : Contiguous st.heap start vs stop)
    (hsize : ∀ v ∈ vs, (block v).rows = v.size ∧ (block v).cols = m)
    (hblock : ∀ v ∈ vs, ∀ r a, r < v.size → a < m → (block v).coeff r a = f (st.at v + r) a) :
    ∀ (M : Dense K), stop ≤ M.rows → M.cols = m → ∀ i a, i < M.rows → a < m →
      (vs.foldl (fun M v => M.setBlock (st.at v) 0 (block v)) M).coeff i a =
        if start ≤ i ∧ i < stop then f i a else M.coeff i a := by
  induction vs generalizing start with
  | nil =>
    intro M _ _ i a _ _
    cases hc
    rw [if_neg (by omega)]
    rfl
  | cons v rest ih =>
    intro M hstop hcols i a hi ha
    obtain ⟨hid, hpos, hrest⟩ := hc
    have hat : st.at v = start := by
      unfold State.at State.id
      rw [hid]
      rfl
    obtain ⟨hrows, hbcols⟩ := hsize v mem_cons_self
    have hle := Contiguous.stop_eq hrest
    rw [foldl_cons, ih hrest (fun w hw => hsize w (mem_cons_of_mem v hw))
      (fun w hw => hblock w (mem_cons_of_mem v hw)) _ (by exact hstop) (by exact hcols) i a
      (by exact hi) ha, Dense.coeff_setBlock hi (hcols ▸ ha), hrows, hbcols, hat]
    by_cases hin : start ≤ i ∧ i < start + v.size
    · rw [if_neg (by omega), if_pos (by omega), if_pos (by omega),
        hblock v mem_cons_self _ _ (by omega) (by omega), hat, Nat.sub_zero]
      congr 1
      omega
    · by_cases hbehind : start + v.size ≤ i ∧ i < stop
      · rw [if_pos hbehind, if_pos (by omega)]
      · rw [if_neg hbehind, if_neg (by omega), if_neg (by omega)]

theorem coeff_foldl_marginal_inner {i : Var} {io : Nat} {small : List Var} :
    ∀ (it : Nat) (M : Dense K) (c d : Nat), c < M.rows → d < M.cols →
      ((columnsOf it small).foldl (fun cov j => cov.setBlock io j.2
          (st.cov.block (st.at i) (st.at j.1) i.size j.1.size)) M).coeff c d =
        if io ≤ c ∧ c < io + i.size ∧ it ≤ d ∧ d < it + sizeOfVars small then
          st.cov.coeff (st.at i + (c - io)) (st.pos small (d - it))
        else M.coeff c d := by
  induction small with
  | nil =>
    intro it M c d _ _
    rw [if_neg (by simp only [sizeOfVars, map_nil, sum_nil]; omega)]
    rfl
  | cons v rest ih =>
    intro it M c d hc hd
    rw [columnsOf, foldl_cons, ih _ _ _ _ (by exact hc) (by exact hd),
      Dense.coeff_setBlock hc hd, Dense.rows_block, Dense.cols_block, sizeOfVars_cons]
    dsimp only
    by_cases hrow : io ≤ c ∧ c < io + i.size
    · by_cases hin : it ≤ d ∧ d < it + v.size
      · rw [if_neg (by omega), if_pos (by omega), if_pos (by omega),
          Dense.coeff_block (by omega) (by omega), pos_cons_lt (by omega)]
      · by_cases hbehind : it + v.size ≤ d ∧ d < it + v.size + sizeOfVars rest
        · rw [if_pos (by omega), if_pos (by omega)]
          have hsplit : d - it = v.size + (d - (it + v.size)) := by omega
          rw [hsplit, pos_cons_add]
        · rw [if_neg (by omega), if_neg (by omega), if_neg (by omega)]
    · rw [if_neg (by omega), if_neg (by omega), if_neg (by omega)]

theorem size_foldl_block (i : Var × Nat) (columns : List (Var × Nat)) (M : Dense K) :
    (columns.foldl (fun cov j => cov.setBlock i.2 j.2
        (st.cov.block (st.at i.1) (st.at j.1) i.1.size j.1.size)) M).rows = M.rows ∧
      (columns.foldl (fun cov j => cov.setBlock i.2 j.2
        (st.cov.block (st.at i.1) (st.at j.1) i.1.size j.1.size)) M).cols = M.cols :=
  Dense.size_foldl (by exact fun _ _ => ⟨rfl, rfl⟩) columns M

theorem coeff_foldl_marginal {all small : List Var} :
    ∀ (it : Nat) (M : Dense K) (c d : Nat), M.cols = sizeOfVars all → c < M.rows → d < M.cols →
      ((columnsOf it small).foldl (fun cov i =>
          (columnsOf 0 all).foldl (fun cov j => cov.setBlock i.2 j.2
            (st.cov.block (st.at i.1) (st.at j.1) i.1.size j.1.size)) cov) M).coeff c d =
        if it ≤ c ∧ c < it + sizeOfVars small then
          st.cov.coeff (st.pos small (c - it)) (st.pos all d)
        else M.coeff c d := by
  induction small with
  | nil =>
    intro it M c d _ _ _
    rw [if_neg (by simp only [sizeOfVars, map_nil, sum_nil]; omega)]
    rfl
  | cons v rest ih =>
    intro it M c d hcols hc hd
    obtain ⟨hr, hcl⟩ := @size_foldl_block K _ st (v, it) (columnsOf 0 all) M
    rw [columnsOf, foldl_cons, ih _ _ _ _ (hcl.trans hcols) (hr.symm ▸ hc) (hcl.symm ▸ hd),
      coeff_foldl_marginal_inner 0 M c d hc hd, sizeOfVars_cons]
    dsimp only
    have hd' : d < sizeOfVars all := hcols ▸ hd
    by_cases hin : it ≤ c ∧ c < it + v.size
    · rw [if_neg (by omega), if_pos (by omega), if_pos (by omega), pos_cons_lt (by omega),
        Nat.sub_zero]
    · by_cases hbehind : it + v.size ≤ c ∧ c < it + v.size + sizeOfVars rest
      · rw [if_pos hbehind, if_pos (by omega)]
        have hsplit : c - it = v.size + (c - (it + v.size)) := by omega
        rw [hsplit, pos_cons_add]
      · rw [if_neg hbehind, if_neg (by omega), if_neg (by omega)]

theorem size_foldl_marginal (rows small : List (Var × Nat)) (M : Dense K) :
    (rows.foldl (fun cov i => small.foldl (fun cov j => cov.setBlock i.2 j.2
        (st.cov.block (st.at i.1) (st.at j.1) i.1.size j.1.size)) cov) M).rows = M.rows ∧
      (rows.foldl (fun cov i => small.foldl (fun cov j => cov.setBlock i.2 j.2
        (st.cov.block (st.at i.1) (st.at j.1) i.1.size j.1.size)) cov) M).cols = M.cols :=
  Dense.size_foldl (by exact fun M i => size_foldl_block i small M) rows M

theorem size_marginalCovariance (small : List Var) :
    (marginalCovariance st small).rows = sizeOfVars small ∧
      (marginalCovariance st small).cols = sizeOfVars small :=
  size_foldl_marginal _ _ _

theorem coeff_marginalCovariance {small : List Var} {c d : Nat} (hc : c < sizeOfVars small)
    (hd : d < sizeOfVars small) :
    (marginalCovariance st small).coeff c d =
      st.cov.coeff (st.pos small c) (st.pos small d) := by
  have hloops := @coeff_foldl_marginal K _ st small small 0
    (.zero (sizeOfVars small) (sizeOfVars small)) c d rfl hc hd
  rw [if_pos (by omega), Nat.sub_zero] at hloops
  exact hloops

end Writing

/-! ## Accumulating loops -/

section Accumulate

variable {K : Type} [CommRing K]

theorem coeff_foldl_columns (st : State K) (m n i j : Nat) (step : Dense K → Var × Nat → Dense K)
    (F : Nat → Nat → K)
    (hsize : ∀ M meas, (step M meas).rows = M.rows ∧ (step M meas).cols = M.cols)
    (hstep : ∀ M meas, M.rows = m → M.cols = n → (step M meas).coeff i j =
      M.coeff i j + ∑ b ∈ Finset.range meas.1.size, F (st.at meas.1 + b) (meas.2 + b)) :
    ∀ (order : List Var) (it : Nat) (M : Dense K), M.rows = m → M.cols = n →
      ((columnsOf it order).foldl step M).coeff i j =
        M.coeff i j + ∑ c ∈ Finset.range (sizeOfVars order), F (st.pos order c) (it + c) := by
  intro order
  induction order with
  | nil =>
    intro it M _ _
    simp [columnsOf, sizeOfVars]
  | cons v rest ih =>
    intro it M hrows hcols
    have hnext := hsize M (v, it)
    rw [columnsOf, foldl_cons, ih _ _ (hnext.1.trans hrows) (hnext.2.trans hcols),
      hstep M (v, it) hrows hcols, sizeOfVars_cons, Finset.sum_range_add, add_assoc]
    congr 2
    · refine Finset.sum_congr rfl fun b hb => ?_
      rw [pos_cons_lt (Finset.mem_range.mp hb)]
    · refine Finset.sum_congr rfl fun c _ => ?_
      rw [pos_cons_add, Nat.add_assoc]

end Accumulate

end Bravo.Filter
