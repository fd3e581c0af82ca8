import Bravo.Basic.Gather
import Bravo.Shadow.SchurReduce
import Bravo.Updater.Provenance

/-! # The assembled system as a stack

What `GlobalAssembler` holds after a run of appends, said without it: the rows of the accepted
systems in their order, each row extended by zeros to the state variables its own system does not
mention. One append adds the rows of its system (`Stacked.append`), so a run of appends holds all of
them, and the product of the assembled Jacobian with a restricted error state is the concatenation
of the products of the systems.
-/

namespace Bravo.Updater

open Bravo.Trace Bravo.Journal Bravo.Shadow Bravo.Gather List ModeTraversal VectorXd

/-! ## Columns -/

section Columns

variable {vs : List Variable} {v w : Variable}

theorem column_disjoint (hv : v ∈ vs) (hw : w ∈ vs) (hne : v ≠ w) :
    column vs v + v.width ≤ column vs w ∨ column vs w + w.width ≤ column vs v := by
  induction vs with
  | nil => cases hv
  | cons u vs ih =>
    rw [column, column]
    by_cases huv : u = v
    · subst huv
      rw [if_pos rfl, if_neg hne]
      exact Or.inl (by omega)
    · by_cases huw : u = w
      · subst huw
        rw [if_neg huv, if_pos rfl]
        exact Or.inr (by omega)
      · have hv' : v ∈ vs := (mem_cons.mp hv).resolve_left (Ne.symm huv)
        have hw' : w ∈ vs := (mem_cons.mp hw).resolve_left (Ne.symm huw)
        rw [if_neg huv, if_neg huw]
        rcases ih hv' hw' with h | h
        · exact Or.inl (by omega)
        · exact Or.inr (by omega)

theorem placements_eq_map (hnodup : vs.Nodup) :
    ∀ c, placements c vs = vs.map fun v => (v, c + column vs v) := by
  induction vs with
  | nil => exact fun _ => rfl
  | cons u vs ih =>
    intro c
    obtain ⟨hu, hrest⟩ := nodup_cons.mp hnodup
    rw [placements, map_cons, ih hrest, column, if_pos rfl]
    refine congrArg _ (map_congr_left fun v hv => ?_)
    have hne : u ≠ v := fun heq => hu (heq ▸ hv)
    rw [column, if_neg hne, Nat.add_assoc]

theorem coeff_placeAll {row : Nat} {H_x : MatrixXd} {i k : Nat} (hi : i < H_x.rows) (hv : v ∈ vs)
    (hk : k < v.width) (ps : List (Variable × Nat)) :
    ∀ {M : MatrixXd}, (∀ p ∈ ps, p.1 ∈ vs) → (ps.map Prod.fst).Nodup → row + H_x.rows ≤ M.rows →
      total vs ≤ M.cols →
      (placeAll vs row H_x M ps).coeff (row + i) (column vs v + k) =
        match ps.find? fun p => decide (p.1 = v) with
        | some p => H_x.coeff i (p.2 + k)
        | none => M.coeff (row + i) (column vs v + k) := by
  induction ps with
  | nil => exact fun _ _ _ _ => rfl
  | cons p ps ih =>
    intro M hps hnodup hrows hcols
    rw [map_cons, nodup_cons] at hnodup
    have hcolumn := column_add_width_le hv
    have hrest := ih (M := placeColumns vs row H_x M p)
      (fun q hq => hps q (mem_cons_of_mem _ hq)) hnodup.2
      (MatrixXd.rows_setBlock.symm ▸ hrows) (MatrixXd.cols_setBlock.symm ▸ hcols)
    have hplaced : (M.setBlock row (column vs p.1) H_x.rows p.1.width fun i j =>
        H_x.coeff i (p.2 + j)).coeff (row + i) (column vs v + k) = _ :=
      MatrixXd.coeff_setBlock (by omega) (by omega)
    rw [placeAll, foldl_cons]
    refine hrest.trans ?_
    rw [find?_cons]
    by_cases heq : p.1 = v
    · -- the copy of `v`, which no later copy touches
      have hnone : ps.find? (fun p => decide (p.1 = v)) = none := by
        rw [find?_eq_none]
        intro q hq hqv
        exact hnodup.1 (mem_map.mpr ⟨q, hq, (of_decide_eq_true hqv).trans heq.symm⟩)
      rw [hnone, decide_eq_true heq, placeColumns, hplaced, heq, if_pos (by omega),
        Nat.add_sub_cancel_left, Nat.add_sub_cancel_left]
    · -- the copy of another variable stays in the columns of that one
      have hdisjoint := column_disjoint hv (hps p mem_cons_self) (Ne.symm heq)
      rw [decide_eq_false heq, placeColumns, hplaced, if_neg (by omega)]

end Columns

/-! ## The layout of an accepted system -/

def layoutVariables (layout : List CP2FeatureGateLayoutBlock) : List Variable :=
  layout.map fun b => ⟨b.covarianceId.toInt.toNat, b.covarianceId, b.size⟩

def blockVariables (prior : MSCKFUpdatePreviewSnapshot) : List Variable :=
  prior.stateBlocks.map fun b =>
    ⟨b.covarianceId.toNat, Int64.ofInt b.covarianceId, Int64.ofInt b.size⟩

section Layouts

variable {prior : MSCKFUpdatePreviewSnapshot}

theorem stateBlocksValid_nodup {dimension : Nat} {blocks : List MSCKFUpdatePreviewBlock} :
    ∀ {offset : Int}, stateBlocksValid dimension offset blocks = true →
      (blocks.map fun b => b.covarianceId).Nodup := by
  induction blocks with
  | nil => exact fun _ => nodup_nil
  | cons block rest ih =>
    intro offset h
    obtain ⟨hid, hsize, -, hrest⟩ := stateBlocksValid_cons h
    rw [map_cons, nodup_cons]
    refine ⟨fun hmem => ?_, ih hrest⟩
    obtain ⟨b, hb, heq⟩ := mem_map.mp hmem
    have := (stateBlocksValid_bounds hrest b hb).1
    omega

theorem toInt_ofInt_of_bounds {n : Int} {dimension : Nat} (hdim : dimension < indexLimit)
    (h0 : 0 ≤ n) (h : n ≤ dimension) : (Int64.ofInt n).toInt = n := by
  have hdim' : dimension < 2 ^ 63 := hdim
  exact Int64.toInt_ofInt_of_le (by omega) (by omega)

theorem stateVariables_blockVariables
    (htiled : stateBlocksValid prior.covariance.rows 0 prior.stateBlocks = true) :
    StateVariables prior (blockVariables prior) [] := by
  have hbounds := stateBlocksValid_bounds htiled
  have hlt := prior.covariance.rows_lt
  have hid : ∀ b ∈ prior.stateBlocks, (Int64.ofInt b.covarianceId).toInt = b.covarianceId :=
    fun b hb => toInt_ofInt_of_bounds hlt (hbounds b hb).1 (by have := hbounds b hb; omega)
  have hinj : ∀ b ∈ prior.stateBlocks, ∀ b' ∈ prior.stateBlocks,
      b.covarianceId = b'.covarianceId → b = b' := fun b hb b' hb' =>
    inj_on_of_nodup_map (stateBlocksValid_nodup htiled) hb hb'
  have hnodup := (stateBlocksValid_nodup htiled).of_map
  refine ⟨?_, ?_, ?_, htiled⟩
  · rw [blockVariables, List.map_map]
    refine hnodup.map_on fun b hb b' hb' heq => hinj b hb b' hb' ?_
    have h0 := (hbounds b hb).1
    have h0' := (hbounds b' hb').1
    simp only [Function.comp_apply] at heq
    omega
  · rw [append_nil, blockVariables, List.map_map]
    refine hnodup.map_on fun b hb b' hb' heq => hinj b hb b' hb' ?_
    simp only [Function.comp_apply] at heq
    rw [← hid b hb, ← hid b' hb', heq]
  · intro v hv
    rw [append_nil, blockVariables] at hv
    obtain ⟨b, hb, rfl⟩ := mem_map.mp hv
    exact ⟨b, hb, (hid b hb).symm,
      (toInt_ofInt_of_bounds hlt (by have := hbounds b hb; omega)
        (by have := hbounds b hb; omega)).symm⟩

theorem rawLayoutBlocksValid_cons {cols : Nat} {previous : List CP2FeatureGateLayoutBlock}
    {block : CP2FeatureGateLayoutBlock} {rest : List CP2FeatureGateLayoutBlock} {offset : Int}
    (h : rawLayoutBlocksValid cols prior previous offset (block :: rest) = true) :
    (∃ s ∈ prior.stateBlocks, block.covarianceId.toInt = s.covarianceId ∧
        block.size.toInt = s.size) ∧
      0 < block.size.toInt ∧ block.H_offset.toInt = offset ∧ offset + block.size.toInt ≤ cols ∧
      (∀ p ∈ previous, 0 < p.size.toInt → block.covarianceId ≠ p.covarianceId) ∧
      rawLayoutBlocksValid cols prior (previous ++ [block]) (offset + block.size.toInt) rest =
        true := by
  rw [rawLayoutBlocksValid] at h
  split_ifs at h with hrange hmatch hend hmeet
  obtain ⟨s, hs, hid, hsize⟩ : ∃ s ∈ prior.stateBlocks,
      block.covarianceId.toInt = s.covarianceId ∧ block.size.toInt = s.size := by
    simpa using hmatch
  unfold addIndex at h
  split_ifs at h
  refine ⟨⟨s, hs, hid, hsize⟩, by omega, by omega, by omega, fun p hp hpos heq => hmeet ?_, h⟩
  rw [any_eq_true]
  refine ⟨p, hp, ?_⟩
  rw [heq, Bool.or_eq_true]
  refine Or.inr ?_
  simp only [rangesMeet, Bool.and_eq_true, decide_eq_true_eq]
  omega

theorem layoutVariables_of_valid {cols : Nat} (hcols : cols < indexLimit) {layout : List CP2FeatureGateLayoutBlock} :
    ∀ {previous : List CP2FeatureGateLayoutBlock} {c : Nat},
      rawLayoutBlocksValid cols prior previous c layout = true →
      layout = (placements c (layoutVariables layout)).map (fun p =>
          (⟨p.1.id, p.1.size, Int64.ofInt p.2⟩ : CP2FeatureGateLayoutBlock)) ∧
        (layoutVariables layout).Nodup ∧ layoutVariables layout ⊆ blockVariables prior ∧
        c + total (layoutVariables layout) = cols ∧
        ∀ v ∈ layoutVariables layout, ∀ p ∈ previous, 0 < p.size.toInt → v.id ≠ p.covarianceId := by
  have hcols' : cols < 2 ^ 63 := hcols
  induction layout with
  | nil =>
    intro previous c h
    have hend : c = cols := by simpa [rawLayoutBlocksValid] using h
    exact ⟨rfl, nodup_nil, nil_subset _, hend, fun v hv => by cases hv⟩
  | cons block rest ih =>
    intro previous c h
    obtain ⟨⟨s, hs, hid, hsize⟩, hpos, hoffset, hend, hfresh, hrest⟩ :=
      rawLayoutBlocksValid_cons h
    have hnext : (c : Int) + block.size.toInt = ((c + block.size.toInt.toNat : Nat) : Int) := by
      omega
    rw [hnext] at hrest
    obtain ⟨hlayout, hnodup, hsub, htotal, hothers⟩ := ih hrest
    have hvars : layoutVariables (block :: rest) =
        ⟨block.covarianceId.toInt.toNat, block.covarianceId, block.size⟩ ::
          layoutVariables rest := rfl
    rw [hvars]
    refine ⟨?_, nodup_cons.mpr ⟨fun hmem => ?_, hnodup⟩, ?_, ?_, ?_⟩
    · rw [placements, map_cons]
      refine congrArg₂ _ ?_ hlayout
      have hplace : block.H_offset = Int64.ofInt c := by
        rw [← hoffset, Int64.ofInt_toInt]
      rw [← hplace]
    · exact hothers _ hmem block (mem_append_right _ (mem_singleton.mpr rfl)) hpos rfl
    · refine cons_subset.mpr ⟨mem_map.mpr ⟨s, hs, ?_⟩, hsub⟩
      rw [← hid, ← hsize, Int64.ofInt_toInt, Int64.ofInt_toInt]
    · rw [total_cons]
      show c + (block.size.toInt.toNat + total (layoutVariables rest)) = cols
      omega
    · intro v hv p hp hppos
      rcases mem_cons.mp hv with rfl | hv
      · exact hfresh p hp hppos
      · exact hothers v hv p (mem_append_left _ hp) hppos

end Layouts

/-! ## Stacks -/

structure Embeddable (vars : List Variable) (s : AcceptedSystem) : Prop where
  layout : s.layout = localLayoutOf (layoutVariables s.layout)
  nodup : (layoutVariables s.layout).Nodup
  subset : layoutVariables s.layout ⊆ vars
  cols : total (layoutVariables s.layout) = s.H.cols
  rows_pos : 0 < s.H.rows
  residual_rows : s.residual.rows = s.H.rows

/-- Row `i` of a system over all variables: the entry at the column `k` of `v`. -/
def rowOf (s : AcceptedSystem) (i : Nat) (v : Variable) (k : Nat) : Binary64 :=
  if v ∈ layoutVariables s.layout then s.H.coeff i (column (layoutVariables s.layout) v + k) else ⟨0⟩

variable (systems : List AcceptedSystem)

def stackedRows : List (Variable → Nat → Binary64) :=
  systems.flatMap fun s => (List.range s.H.rows).map (rowOf s)

/-- The variables of the systems, in the order in which they are first mentioned. -/
def stackedVariables : List Variable :=
  systems.foldl (fun vs s => enteredAll vs (layoutVariables s.layout)) []

theorem stackedRows_append (s : AcceptedSystem) :
    stackedRows (systems ++ [s]) = stackedRows systems ++ (List.range s.H.rows).map (rowOf s) := by
  simp [stackedRows]

theorem stackedVariables_append (s : AcceptedSystem) : stackedVariables (systems ++ [s]) =
      enteredAll (stackedVariables systems) (layoutVariables s.layout) := by
  simp [stackedVariables]

theorem length_stackedRows :
    (stackedRows systems).length = (systems.map fun s => s.H.rows).sum := by
  rw [stackedRows, length_flatMap]
  simp

theorem mem_enteredAll_iff {v : Variable} (us : List Variable) :
    ∀ vs, v ∈ enteredAll vs us ↔ v ∈ vs ∨ v ∈ us := by
  induction us with
  | nil => intro vs; simp
  | cons u us ih =>
    intro vs
    rw [enteredAll_cons, ih, mem_cons]
    have hentered : v ∈ entered vs u ↔ v ∈ vs ∨ v = u := by
      unfold entered
      split
      · rename_i hu
        exact ⟨Or.inl, fun h => h.elim id fun heq => heq ▸ hu⟩
      · simp
    rw [hentered, or_assoc]

theorem mem_stackedVariables {v : Variable} :
    v ∈ stackedVariables systems ↔ ∃ s ∈ systems, v ∈ layoutVariables s.layout := by
  induction systems using List.reverseRecOn with
  | nil => simp [stackedVariables]
  | append_singleton systems s ih =>
    rw [stackedVariables_append, mem_enteredAll_iff, ih]
    simp [or_and_right, exists_or]

theorem stackedRows_of_not_mem {systems : List AcceptedSystem} {v : Variable}
    (hv : v ∉ stackedVariables systems) {row : Variable → Nat → Binary64}
    (hrow : row ∈ stackedRows systems) (k : Nat) : row v k = ⟨0⟩ := by
  rw [stackedRows, mem_flatMap] at hrow
  obtain ⟨s, hs, hrow⟩ := hrow
  obtain ⟨i, -, rfl⟩ := mem_map.mp hrow
  rw [rowOf, if_neg fun hin => hv ((mem_stackedVariables systems).mpr ⟨s, hs, hin⟩)]

theorem within_stackedVariables {vars : List Variable} {systems : List AcceptedSystem}
    (h : ∀ s ∈ systems, Embeddable vars s) : Within vars (stackedVariables systems) := by
  induction systems using List.reverseRecOn with
  | nil => exact ⟨nodup_nil, nil_subset _⟩
  | append_singleton systems s ih =>
    rw [stackedVariables_append]
    exact (ih fun t ht => h t (mem_append_left _ ht)).enteredAll _
      (h s (mem_append_right _ (mem_singleton.mpr rfl))).subset

structure Stacked (systems : List AcceptedSystem) (assembler : GlobalAssembler) : Prop where
  rows : assembler.H.rows = (stackedRows systems).length
  cols : assembler.H.cols = total (stackedVariables systems)
  layout : assembler.layout = layoutOf (stackedVariables systems)
  residual : assembler.residual.coeffs = systems.flatMap fun s => s.residual.coeffs
  residual_rows : assembler.residual.rows = assembler.H.rows
  coeff : ∀ (r : Nat) (row : Variable → Nat → Binary64), (stackedRows systems)[r]? = some row →
    ∀ v ∈ stackedVariables systems, ∀ k < v.width,
      assembler.H.coeff r (column (stackedVariables systems) v + k) = row v k

theorem Stacked.start : Stacked [] {} where
  rows := rfl
  cols := rfl
  layout := rfl
  residual := rfl
  residual_rows := rfl
  coeff := fun r row h => by simp [stackedRows] at h

theorem coeffs_appendResidual {v w : VectorXd} (storage : Nat → Binary64)
    (hlimit : v.rows + w.rows < indexLimit) :
    ((v.conservativeResize (v.rows + w.rows) storage).setSegment v.rows w.rows w.coeff).coeffs =
      v.coeffs ++ w.coeffs := by
  have hresize : (v.conservativeResize (v.rows + w.rows) storage).rows = v.rows + w.rows :=
    rows_ofFn hlimit
  have hboth : (v.coeffs ++ w.coeffs).length < indexLimit := by
    rw [length_append]
    exact hlimit
  have heq : (v.conservativeResize (v.rows + w.rows) storage).setSegment v.rows w.rows w.coeff =
      ⟨v.coeffs ++ w.coeffs, hboth⟩ := by
    refine ext_coeff ?_ fun i hi => ?_
    · rw [rows_setSegment, hresize]
      exact length_append.symm
    · rw [rows_setSegment, hresize] at hi
      rw [coeff_setSegment (by rw [hresize]; exact hi)]
      show _ = (v.coeffs ++ w.coeffs).getD i ⟨0⟩
      by_cases hold : i < v.rows
      · rw [if_neg (by omega), conservativeResize, coeff_ofFn hlimit hi,
          if_pos hold, getD_append _ _ _ _ hold]
        rfl
      · rw [if_pos (by omega), getD_append_right _ _ _ _ (Nat.le_of_not_lt hold)]
        rfl
  rw [heq]

theorem find?_decide_eq (us : List Variable) (v : Variable) :
    (us.find? fun w => decide (w = v)) = if v ∈ us then some v else none := by
  induction us with
  | nil => rfl
  | cons u us ih =>
    rw [find?_cons]
    by_cases heq : u = v
    · simp [heq]
    · rw [decide_eq_false heq, ih]
      simp [Ne.symm heq]

theorem column_of_new {vs : List Variable} (us : List Variable) {v : Variable} (hold : v ∉ vs) :
    total vs ≤ column (enteredAll vs us) v := by
  obtain ⟨ws, hws⟩ := enteredAll_eq_append us vs
  rw [hws]
  clear hws
  induction vs with
  | nil => exact Nat.zero_le _
  | cons w vs ih =>
    rw [mem_cons, not_or] at hold
    have hrest := ih hold.2
    rw [cons_append, column, if_neg (Ne.symm hold.1), total_cons]
    omega

section Step

variable {prior : MSCKFUpdatePreviewSnapshot} {vars landmarks : List Variable}

theorem coeff_placed {vs us : List Variable} (hus : us ⊆ vs) (hnodup : us.Nodup) {row : Nat}
    {H_x M : MatrixXd} (hrows : row + H_x.rows ≤ M.rows) (hcols : total vs ≤ M.cols) {i k : Nat}
    (hi : i < H_x.rows) {v : Variable} (hv : v ∈ vs) (hk : k < v.width)
    (hzero : M.coeff (row + i) (column vs v + k) = ⟨0⟩) :
    (placeAll vs row H_x M (placements 0 us)).coeff (row + i) (column vs v + k) =
      if v ∈ us then H_x.coeff i (column us v + k) else ⟨0⟩ := by
  have hmap := placements_eq_map hnodup 0
  have hfst : (placements 0 us).map Prod.fst = us := by
    rw [hmap, List.map_map]
    exact List.map_id' us
  rw [coeff_placeAll hi hv hk _ (fun p hp => hus (mem_of_mem_placements hp).1)
    (hfst.symm ▸ hnodup) hrows hcols, hzero, hmap, find?_map]
  have hpred : ((fun p : Variable × Nat => decide (p.1 = v)) ∘ fun w => (w, 0 + column us w)) =
      fun w => decide (w = v) := rfl
  rw [hpred, find?_decide_eq]
  by_cases hin : v ∈ us
  · rw [if_pos hin, if_pos hin, Option.map_some, Nat.zero_add]
  · rw [if_neg hin, if_neg hin, Option.map_none]

/-- **One append adds the rows of its system.** -/
theorem Stacked.append (h : StateVariables prior vars landmarks) (hlimit : total vars < indexLimit)
    (A : Arithmetic) {systems : List AcceptedSystem} (hsystems : ∀ s ∈ systems, Embeddable vars s)
    {assembler : GlobalAssembler} (hstack : Stacked systems assembler) {s : AcceptedSystem}
    (hs : Embeddable vars s) (hfit : assembler.H.rows + s.H.rows < indexLimit) :
    ∃ assembler', assembler.append A s.H s.residual s.layout = some assembler' ∧
      Stacked (systems ++ [s]) assembler' := by
  have hvs := within_stackedVariables hsystems
  have hvs' := hvs.enteredAll _ hs.subset
  have htotal := hvs'.total_le
  have hgcols : total (enteredAll (stackedVariables systems) (layoutVariables s.layout)) <
      indexLimit := by omega
  have happend := append_laidOut h A hvs hstack.layout hstack.cols hs.subset hs.cols hs.rows_pos
    hs.residual_rows hlimit hfit
  rw [← hs.layout] at happend
  have hgrownRows : (grown A assembler.H (assembler.H.rows + s.H.rows) (total (enteredAll
      (stackedVariables systems) (layoutVariables s.layout))) s.H.rows).rows =
        assembler.H.rows + s.H.rows := rows_grown hfit hgcols
  have hgrownCols : (grown A assembler.H (assembler.H.rows + s.H.rows) (total (enteredAll
      (stackedVariables systems) (layoutVariables s.layout))) s.H.rows).cols =
        total (enteredAll (stackedVariables systems) (layoutVariables s.layout)) :=
    cols_grown hfit hgcols
  have hsub : layoutVariables s.layout ⊆
      enteredAll (stackedVariables systems) (layoutVariables s.layout) :=
    fun u hu => mem_enteredAll_of_mem hu
  refine ⟨_, happend, ?_⟩
  constructor
  case rows =>
    rw [rows_placeAll, hgrownRows, stackedRows_append, length_append, length_map,
      length_range, hstack.rows]
  case cols => simp only [cols_placeAll, hgrownCols, stackedVariables_append]
  case layout => simp only [stackedVariables_append]
  case residual =>
    have hres := coeffs_appendResidual (A.storage 0)
      (show assembler.residual.rows + s.residual.rows < indexLimit by
        rw [hstack.residual_rows, hs.residual_rows]; exact hfit)
    rw [hstack.residual_rows, hs.residual_rows, hstack.residual] at hres
    rw [hres, flatMap_append]
    simp
  case residual_rows =>
    simp only [rows_placeAll, hgrownRows, rows_setSegment]
    exact rows_ofFn hfit
  case coeff =>
    intro r row hrow v hv k hk
    rw [stackedVariables_append] at hv
    rw [stackedRows_append] at hrow
    simp only [stackedVariables_append]
    have hcolumn := column_add_width_le hv
    by_cases hold : r < assembler.H.rows
    · -- an old row, extended by zeros to the new columns
      rw [getElem?_append_left (by rw [← hstack.rows]; exact hold)] at hrow
      rw [coeff_placeAll_of_outside (Or.inl hold) _
        (fun p hp => hsub (mem_of_mem_placements hp).1) (by omega) (by omega),
        coeff_grown hfit hgcols rfl (by omega) (by omega), hstack.cols]
      by_cases hknown : v ∈ stackedVariables systems
      · have hin := column_add_width_le hknown
        rw [column_enteredAll hknown, if_pos (by omega)]
        exact hstack.coeff r row hrow v hknown k hk
      · have hnew := column_of_new (layoutVariables s.layout) hknown
        rw [if_neg (by omega)]
        exact (stackedRows_of_not_mem hknown (mem_of_getElem? hrow) k).symm
    · -- a row of the new system
      obtain ⟨i, rfl⟩ := Nat.exists_eq_add_of_le (Nat.le_of_not_lt hold)
      rw [getElem?_append_right (by rw [← hstack.rows]; omega), ← hstack.rows,
        Nat.add_sub_cancel_left, getElem?_map] at hrow
      obtain ⟨i', hi, rfl⟩ := Option.map_eq_some_iff.mp hrow
      obtain ⟨hlt, heq⟩ := List.getElem?_eq_some_iff.mp hi
      rw [getElem_range] at heq
      rw [length_range] at hlt
      subst heq
      refine coeff_placed hsub hs.nodup (by omega) (by omega) hlt hv hk ?_
      rw [coeff_grown hfit hgcols rfl (by omega) (by omega), if_neg (by omega)]

theorem stacked_foldl (h : StateVariables prior vars landmarks) (hlimit : total vars < indexLimit)
    (A : Arithmetic) {systems : List AcceptedSystem} :
    (∀ s ∈ systems, Embeddable vars s) → (systems.map fun s => s.H.rows).sum < indexLimit →
      ∃ assembler, (systems.foldl (ModeTraversal.accept A) .start).assembler = some assembler ∧
        Stacked systems assembler := by
  induction systems using List.reverseRecOn with
  | nil => exact fun _ _ => ⟨{}, rfl, Stacked.start⟩
  | append_singleton systems s ih =>
    intro hall hsum
    rw [map_append, sum_append, map_singleton, sum_singleton] at hsum
    have hbefore : ∀ t ∈ systems, Embeddable vars t := fun t ht =>
      hall t (mem_append_left _ ht)
    obtain ⟨assembler, hassembler, hstack⟩ := ih hbefore (by omega)
    have hfit : assembler.H.rows + s.H.rows < indexLimit := by
      rw [hstack.rows, length_stackedRows]
      exact hsum
    obtain ⟨assembler', happend, hstack'⟩ := hstack.append h hlimit A hbefore
      (hall s (mem_append_right _ (mem_singleton.mpr rfl))) hfit
    refine ⟨assembler', ?_, hstack'⟩
    rw [foldl_append, foldl_cons, foldl_nil, accept, hassembler]
    exact happend

end Step

/-! ## Products -/

/-- `M * v`, its coefficients valued by `val`. -/
def mulVec {R : Type} [Semiring R] (val : Binary64 → R) (M : MatrixXd) (v : List R) : List R :=
  (List.range M.rows).map fun i => ∑ j ∈ Finset.range M.cols, val (M.coeff i j) * v.getD j 0

/-- The error state `x` restricted to the blocks of a global layout. -/
def restricted {R : Type} (x : Nat → R) (layout : List MSCKFUpdatePreviewBlock) : List R :=
  layout.flatMap fun b => segment x b.covarianceId.toNat b.size.toNat

/-- The error state `x` restricted to the blocks of a feature's layout. -/
def restrictedLocal {R : Type} (x : Nat → R) (layout : List CP2FeatureGateLayoutBlock) : List R :=
  layout.flatMap fun b => segment x b.covarianceId.toInt.toNat b.size.toInt.toNat

/-- The segments of `x` at the variables `vs`. -/
def gathered {R : Type} (x : Nat → R) (vs : List Variable) : List R :=
  vs.flatMap fun v => segment x v.id.toInt.toNat v.width

section Products

variable {R : Type}

theorem length_gathered (x : Nat → R) (vs : List Variable) : (gathered x vs).length = total vs := by
  simp [gathered, length_flatMap, total]

theorem restricted_layoutOf (x : Nat → R) (vs : List Variable) :
    restricted x (layoutOf vs) = gathered x vs := by
  have hplaced : ∀ c, ((placements c vs).map fun p : Variable × Nat =>
      (⟨p.1.id.toInt, p.1.size.toInt, p.2⟩ : MSCKFUpdatePreviewBlock)).flatMap
        (fun b => segment x b.covarianceId.toNat b.size.toNat) = gathered x vs := by
    induction vs with
    | nil => exact fun _ => rfl
    | cons v vs ih =>
      intro c
      rw [placements, map_cons, flatMap_cons, ih (c + v.width)]
      rfl
  exact hplaced 0

theorem restrictedLocal_eq (x : Nat → R) (layout : List CP2FeatureGateLayoutBlock) :
    restrictedLocal x layout = gathered x (layoutVariables layout) := by
  rw [restrictedLocal, gathered, layoutVariables, flatMap_map]
  rfl

variable [Semiring R]

theorem dot_gathered (f x : Nat → R) {vs : List Variable} (hnodup : vs.Nodup) :
    dot f (gathered x vs) = (vs.map fun v =>
      ∑ k ∈ Finset.range v.width, f (column vs v + k) * x (v.id.toInt.toNat + k)).sum := by
  have hplaced : ∀ (us : List Variable) (c : Nat), dot (fun j => f (c + j)) (gathered x us) =
      ((placements c us).map fun p =>
        ∑ k ∈ Finset.range p.1.width, f (p.2 + k) * x (p.1.id.toInt.toNat + k)).sum := by
    intro us
    induction us with
    | nil => exact fun _ => rfl
    | cons u us ih =>
      intro c
      have hcons : gathered x (u :: us) = segment x u.id.toInt.toNat u.width ++ gathered x us := rfl
      rw [hcons, dot_append, dot_segment, length_segment, placements, map_cons,
        sum_cons, ← ih (c + u.width)]
      simp only [Nat.add_assoc]
  have hall := hplaced vs 0
  simp only [Nat.zero_add] at hall
  rw [hall, placements_eq_map hnodup, List.map_map]
  simp only [Function.comp_def, Nat.zero_add]

theorem mulVec_eq_dot (val : Binary64 → R) (M : MatrixXd) {v : List R} (hv : v.length = M.cols) :
    mulVec val M v = (List.range M.rows).map fun i => dot (fun j => val (M.coeff i j)) v := by
  simp only [mulVec, dot, hv]

theorem sum_rowOf {vars : List Variable} (val : Binary64 → R) (hval : val ⟨0⟩ = 0) (x : Nat → R)
    {s : AcceptedSystem} (hs : Embeddable vars s) {vs : List Variable} (hvs : vs.Nodup)
    (hsub : layoutVariables s.layout ⊆ vs) (i : Nat) :
    (vs.map fun v => ∑ k ∈ Finset.range v.width,
        val (rowOf s i v k) * x (v.id.toInt.toNat + k)).sum =
      dot (fun j => val (s.H.coeff i j)) (restrictedLocal x s.layout) := by
  rw [restrictedLocal_eq, dot_gathered _ _ hs.nodup, sum_map_eq_of_subset hs.nodup hvs hsub]
  · refine congrArg List.sum (map_congr_left fun v hv => ?_)
    refine Finset.sum_congr rfl fun k _ => ?_
    rw [rowOf, if_pos hv]
  · intro v _ hout
    refine Finset.sum_eq_zero fun k _ => ?_
    rw [rowOf, if_neg hout, hval, zero_mul]

/-- **The product of the stack is the concatenation of the products.** -/
theorem Stacked.mulVec_eq {vars : List Variable} (val : Binary64 → R) (hval : val ⟨0⟩ = 0)
    (x : Nat → R) {systems : List AcceptedSystem} (hall : ∀ s ∈ systems, Embeddable vars s)
    {assembler : GlobalAssembler} (hstack : Stacked systems assembler) :
    mulVec val assembler.H (restricted x assembler.layout) =
      systems.flatMap fun s => mulVec val s.H (restrictedLocal x s.layout) := by
  have hnodup := (within_stackedVariables hall).nodup
  have hglobal : mulVec val assembler.H (restricted x assembler.layout) =
      (stackedRows systems).map fun row => ((stackedVariables systems).map fun v =>
        ∑ k ∈ Finset.range v.width, val (row v k) * x (v.id.toInt.toNat + k)).sum := by
    rw [hstack.layout, restricted_layoutOf, mulVec_eq_dot _ _
      (by rw [length_gathered, hstack.cols])]
    apply ext_getElem
    · simp [hstack.rows]
    · intro r hr hr'
      rw [length_map] at hr'
      rw [getElem_map, getElem_map, getElem_range, dot_gathered _ _ hnodup]
      refine congrArg List.sum (map_congr_left fun v hv => ?_)
      refine Finset.sum_congr rfl fun k hk => ?_
      rw [hstack.coeff r _ (getElem?_eq_getElem hr') v hv k (Finset.mem_range.mp hk)]
  rw [hglobal, stackedRows, map_flatMap]
  refine flatMap_congr fun s hs => ?_
  have hlocal : (restrictedLocal x s.layout).length = s.H.cols := by
    rw [restrictedLocal_eq, length_gathered, (hall s hs).cols]
  rw [mulVec_eq_dot _ _ hlocal, List.map_map]
  refine map_congr_left fun i _ => ?_
  exact sum_rowOf val hval x (hall s hs) hnodup
    (fun v hv => (mem_stackedVariables systems).mpr ⟨s, hs, hv⟩) i

end Products

/-! ## The modes of the shadow computation -/

/-- The blocks stand one behind the other, from `column` to `columns`. -/
def Contiguous : Int → List MSCKFUpdatePreviewBlock → Int → Prop
  | column, [], columns => column = columns
  | column, b :: rest, columns =>
    b.offset = column ∧ 0 < b.size ∧ Contiguous (column + b.size) rest columns

structure StackedEmbedding (systems : List AcceptedSystem) (assembler : GlobalAssembler) : Prop where
  rows : assembler.H.rows = (systems.map fun s => s.H.rows).sum
  residual : assembler.residual.coeffs = systems.flatMap fun s => s.residual.coeffs
  product : ∀ (R : Type) [Semiring R] (val : Binary64 → R), val ⟨0⟩ = 0 → ∀ x : Nat → R,
    mulVec val assembler.H (restricted x assembler.layout) =
      systems.flatMap fun s => mulVec val s.H (restrictedLocal x s.layout)
  once : (assembler.layout.map fun b => b.covarianceId).Nodup
  disjoint : assembler.layout.Pairwise fun b b' =>
    rangesMeet b.covarianceId b.size b'.covarianceId b'.size = false
  contiguous : Contiguous 0 assembler.layout assembler.H.cols
  used : ∀ id size : Int, (∃ b ∈ assembler.layout, b.covarianceId = id ∧ b.size = size) ↔
    ∃ s ∈ systems, ∃ b ∈ s.layout, b.covarianceId.toInt = id ∧ b.size.toInt = size

def ModeAssembled (A : Arithmetic) (systems : List AcceptedSystem) (mode : GlobalMode) : Prop :=
  ∃ assembler, (systems.foldl (ModeTraversal.accept A) .start).assembler = some assembler ∧
    StackedEmbedding systems assembler ∧ mode.acceptedIds = systems.map (fun s => s.featureId) ∧
    mode.jacobianLayout = assembler.layout ∧
    mode.precompressionRows = Int64.ofNat assembler.H.rows

section Layout

variable {prior : MSCKFUpdatePreviewSnapshot} {vars landmarks : List Variable}

theorem contiguous_layoutOf (h : StateVariables prior vars landmarks) {vs : List Variable}
    (hvs : vs ⊆ vars) : Contiguous 0 (layoutOf vs) (total vs) := by
  have hplaced : ∀ (us : List Variable) (c : Nat), us ⊆ vars →
      Contiguous c ((placements c us).map fun p => ⟨p.1.id.toInt, p.1.size.toInt, p.2⟩)
        ((c + total us : Nat) : Int) := by
    intro us
    induction us with
    | nil => exact fun _ _ => rfl
    | cons u us ih =>
      intro c hus
      have hu : u ∈ vars := hus mem_cons_self
      have hrest := ih (c + u.width) fun w hw => hus (mem_cons_of_mem _ hw)
      rw [placements, map_cons]
      refine ⟨rfl, (h.bounds hu).2.1, ?_⟩
      rw [total_cons, ← Nat.add_assoc]
      have hwidth : (c : Int) + u.size.toInt = ((c + u.width : Nat) : Int) := by
        rw [← h.width_eq hu]
        rfl
      rw [hwidth]
      exact hrest
  have hall := hplaced vs 0 hvs
  rw [Nat.zero_add] at hall
  exact hall

theorem mem_layoutOf {vs : List Variable} (hnodup : vs.Nodup) (id size : Int) :
    (∃ b ∈ layoutOf vs, b.covarianceId = id ∧ b.size = size) ↔
      ∃ v ∈ vs, v.id.toInt = id ∧ v.size.toInt = size := by
  rw [layoutOf, placements_eq_map hnodup]
  simp

theorem Stacked.embedding (h : StateVariables prior vars landmarks)
    {systems : List AcceptedSystem} (hall : ∀ s ∈ systems, Embeddable vars s)
    {assembler : GlobalAssembler} (hstack : Stacked systems assembler) :
    StackedEmbedding systems assembler := by
  have hvs := within_stackedVariables hall
  have hplaced := placements_eq_map hvs.nodup 0
  refine {
    rows := hstack.rows.trans (length_stackedRows systems)
    residual := hstack.residual
    product := fun R _ val hval x => hstack.mulVec_eq val hval x hall
    once := ?_
    disjoint := ?_
    contiguous := ?_
    used := ?_ }
  · rw [hstack.layout, layoutOf, hplaced, List.map_map, List.map_map]
    refine hvs.nodup.map_on fun v hv w hw heq => ?_
    by_contra hne
    exact h.id_ne (hvs.subset hv) (hvs.subset hw) hne heq
  · rw [hstack.layout, layoutOf, hplaced, List.map_map, pairwise_map]
    refine List.Pairwise.imp_of_mem ?_ hvs.nodup
    intro v w hv hw hne
    exact h.disjoint (hvs.subset hv) (hvs.subset hw) hne
  · rw [hstack.layout, hstack.cols]
    exact contiguous_layoutOf h hvs.subset
  · intro id size
    rw [hstack.layout, mem_layoutOf hvs.nodup]
    constructor
    · rintro ⟨v, hv, hid, hsize⟩
      obtain ⟨s, hs, hv⟩ := (mem_stackedVariables systems).mp hv
      obtain ⟨b, hb, rfl⟩ := mem_map.mp hv
      exact ⟨s, hs, b, hb, hid, hsize⟩
    · rintro ⟨s, hs, b, hb, hid, hsize⟩
      exact ⟨_, (mem_stackedVariables systems).mpr ⟨s, hs, mem_map.mpr ⟨b, hb, rfl⟩⟩,
        hid, hsize⟩

end Layout

section Shapes

variable {A : Arithmetic}

theorem emitted_frame (n : NullspaceReduction) (whitened : MatrixXd) (b : VectorXd) :
    let m := reduceGamma A (reduceStatistics A n whitened b) b
    m.H_reduced = n.H_reduced ∧ m.residualReduced = n.residualReduced := by
  obtain ⟨-, hs2, hs3, -, -⟩ := reduceStatistics_frame (A := A) n whitened b
  obtain ⟨-, hg2, hg3, -, -⟩ := reduceGamma_frame (A := A) (reduceStatistics A n whitened b) b
  exact ⟨hg2.trans hs2, hg3.trans hs3⟩

theorem shape_of_emitted {raw : CP2RawFeatureSystem} {sigmaPx : Binary64}
    (h : (reduceNullspace A raw sigmaPx).emittedSystemAvailable = true) :
    ReducedShape raw.H_f.rows raw.H_x.cols (reduceNullspace A raw sigmaPx).H_reduced
      (reduceNullspace A raw sigmaPx).residualReduced := by
  unfold reduceNullspace at h ⊢
  simp only at h ⊢
  split_ifs at h ⊢ with hsize hshape hfinite hgamma
  all_goals
    have hrows : (nullspaceProject A raw.H_f raw.H_x raw.residual).1.rows = raw.H_f.rows - 3 := by
      omega
    have hcols : (nullspaceProject A raw.H_f raw.H_x raw.residual).1.cols = raw.H_x.cols := by
      omega
    have hres : (nullspaceProject A raw.H_f raw.H_x raw.residual).2.rows = raw.H_f.rows - 3 := by
      omega
    simp only [emitted_frame]
    exact ⟨by omega, hrows, hcols, hres⟩

variable {F : Factorizations} {input : CP2ShadowMathInput} {raw : CP2RawFeatureSystem}
  {s : AcceptedSystem}

theorem embeddable_of_shape (hlayout : rawLayoutIsValid raw input.prior = true)
    (heq : s.layout = raw.jacobianLayout)
    (hshape : ReducedShape raw.H_f.rows raw.H_x.cols s.H s.residual) :
    Embeddable (blockVariables input.prior) s := by
  obtain ⟨hplaced, hnodup, hsub, htotal, -⟩ :=
    layoutVariables_of_valid (c := 0) raw.H_x.cols_lt (by exact hlayout)
  have henough := hshape.enough
  have hrows := hshape.rows
  refine ⟨?_, ?_, ?_, ?_, by omega, hshape.residual_rows.trans hshape.rows.symm⟩
  · rw [heq]
    exact hplaced
  · rw [heq]
    exact hnodup
  · rw [heq]
    exact hsub
  · rw [heq, hshape.cols, ← htotal, Nat.zero_add]

theorem embeddable_nullspace
    (h : nullspaceSystem raw (Shadow.processFeature A (shadowPaths A (schurReduce A F)) input raw) =
      some s) : Embeddable (blockVariables input.prior) s := by
  unfold nullspaceSystem at h
  split_ifs at h with hselect
  obtain rfl := Option.some.inj h
  rw [Bool.and_eq_true, Bool.and_eq_true] at hselect
  obtain ⟨⟨hvalid, hemitted⟩, -⟩ := hselect
  refine embeddable_of_shape ?_ rfl (shape_of_emitted hemitted)
  exact (Bool.and_eq_true _ _ ▸ hvalid).1

theorem embeddable_schur
    (h : schurSystem raw (Shadow.processFeature A (shadowPaths A (schurReduce A F)) input raw) =
      some s) : Embeddable (blockVariables input.prior) s := by
  unfold schurSystem at h
  split_ifs at h with hselect
  obtain rfl := Option.some.inj h
  rw [Bool.and_eq_true, Bool.and_eq_true] at hselect
  obtain ⟨⟨hvalid, haccepted⟩, -⟩ := hselect
  refine embeddable_of_shape ?_ rfl (SchurReduction.shape_of_accepted haccepted)
  exact (Bool.and_eq_true _ _ ▸ hvalid).1

end Shapes

section Modes

variable (A : Arithmetic) (F : Factorizations) (preview : Preview) (input : CP2ShadowMathInput)

abbrev modeSystems (select : CP2RawFeatureSystem → FeaturePair → Option AcceptedSystem) :
    List AcceptedSystem :=
  acceptedSystems select input.rawSystems (process A preview (schurReduce A F) input).features

theorem acceptedIds_foldl_accept (systems : List AcceptedSystem) :
    (systems.foldl (ModeTraversal.accept A) .start).mode.acceptedIds =
      systems.map fun s => s.featureId := by
  induction systems using List.reverseRecOn with
  | nil => rfl
  | append_singleton systems s ih =>
    rw [foldl_append, foldl_cons, foldl_nil, accept,
      acceptedIds_accumulateGamma, ih, map_append, map_singleton]

theorem buildMode_assembled (suppress : CP2GammaStatus → Bool) {systems : List AcceptedSystem}
    (htiled : stateBlocksValid input.prior.covariance.rows 0 input.prior.stateBlocks = true)
    (hall : ∀ s ∈ systems, Embeddable (blockVariables input.prior) s)
    (hrows : (systems.map fun s => s.H.rows).sum < indexLimit) :
    (buildMode A preview input suppress systems).1 = true ∧
      ModeAssembled A systems (buildMode A preview input suppress systems).2 := by
  have hvars := stateVariables_blockVariables htiled
  have hlimit : total (blockVariables input.prior) < indexLimit := by
    have htotal := hvars.total_le
    have hcov := input.prior.covariance.rows_lt
    omega
  obtain ⟨assembler, hassembler, hstack⟩ := stacked_foldl hvars hlimit A hall hrows
  have hbuild : buildMode A preview input suppress systems =
      (true, finalizeMode A preview input
        (suppress (systems.foldl (accept A) .start).mode.gammaStatus) assembler
        (systems.foldl (accept A) .start).mode) := by
    rw [buildMode, close]
    simp only [hassembler]
  obtain ⟨hids, -, -, hprecompression, hlayout⟩ := finalizeMode_frame A preview input
    (suppress (systems.foldl (accept A) .start).mode.gammaStatus) assembler
    (systems.foldl (accept A) .start).mode
  rw [hbuild]
  refine ⟨rfl, assembler, hassembler, hstack.embedding hvars hall, ?_, hlayout, hprecompression⟩
  exact hids.trans (acceptedIds_foldl_accept A systems)

theorem features_process (hstartup : startupInputIsValid A input = true) :
    (process A preview (schurReduce A F) input).features =
      input.rawSystems.map (Shadow.processFeature A (shadowPaths A (schurReduce A F)) input) := by
  rw [process, processWith, hstartup]
  simp only [Bool.not_true, Bool.false_eq_true, if_false, buildGlobalModes_eq]
  split <;> rfl

theorem embeddable_modeSystems (hstartup : startupInputIsValid A input = true)
    (select : CP2RawFeatureSystem → FeaturePair → Option AcceptedSystem)
    (hselect : ∀ raw s, select raw (Shadow.processFeature A (shadowPaths A (schurReduce A F)) input
      raw) = some s → Embeddable (blockVariables input.prior) s) :
    ∀ s ∈ modeSystems A F preview input select, Embeddable (blockVariables input.prior) s := by
  intro s hs
  rw [modeSystems, features_process A F preview input hstartup, acceptedSystems_map] at hs
  obtain ⟨raw, -, hs⟩ := mem_filterMap.mp hs
  exact hselect raw s hs

theorem process_modes (hstartup : startupInputIsValid A input = true)
    (hsome : ¬input.rawSystems.isEmpty = true) :
    let result := process A preview (schurReduce A F) input
    let nullspace := buildMode A preview input (fun _ => false)
      (modeSystems A F preview input nullspaceSystem)
    let schur := buildMode A preview input (fun status => status == .kNonfinite)
      (modeSystems A F preview input schurSystem)
    result.nullspaceAssemblyValid = nullspace.1 ∧ result.schurAssemblyValid = schur.1 ∧
      result.nullspace = nullspace.2 ∧ result.schur = schur.2 := by
  simp only [modeSystems, features_process A F preview input hstartup]
  rw [process, processWith, hstartup]
  refine ⟨?_, ?_, ?_, ?_⟩ <;>
    simp only [Bool.not_true, Bool.false_eq_true, if_false, buildGlobalModes_eq, if_neg hsome]

/-- **Global assembly is the stacked embedding.** Both modes assemble, and the system of each one
before compression is the stack of its accepted systems in the common layout. -/
theorem process_assembles (hstartup : startupInputIsValid A input = true)
    (hnullspace : ((modeSystems A F preview input nullspaceSystem).map fun s => s.H.rows).sum <
      indexLimit)
    (hschur : ((modeSystems A F preview input schurSystem).map fun s => s.H.rows).sum <
      indexLimit) :
    let result := process A preview (schurReduce A F) input
    result.nullspaceAssemblyValid = true ∧ result.schurAssemblyValid = true ∧
      ModeAssembled A (modeSystems A F preview input nullspaceSystem) result.nullspace ∧
      ModeAssembled A (modeSystems A F preview input schurSystem) result.schur := by
  have htiled : stateBlocksValid input.prior.covariance.rows 0 input.prior.stateBlocks = true := by
    simp only [startupInputIsValid, Bool.and_eq_true] at hstartup
    exact hstartup.2
  have hnullspaceAll := embeddable_modeSystems A F preview input hstartup nullspaceSystem
    fun raw s h => embeddable_nullspace h
  have hschurAll := embeddable_modeSystems A F preview input hstartup schurSystem
    fun raw s h => embeddable_schur h
  by_cases hempty : input.rawSystems.isEmpty = true
  · -- no mode is built, and the stack of no systems is the empty one
    have hnone : ∀ select, modeSystems A F preview input select = [] := fun select => by
      rw [modeSystems, List.isEmpty_iff.mp hempty]
      rfl
    have hresult : process A preview (schurReduce A F) input =
        { traversalComplete := true, rawLayoutsValid := true, nullspaceAssemblyValid := true,
          schurAssemblyValid := true, inputValid := true } := by
      rw [process, processWith, hstartup]
      simp [buildGlobalModes, List.isEmpty_iff.mp hempty]
    have hstart : ModeAssembled A [] {} :=
      ⟨{}, rfl, Stacked.start.embedding (stateVariables_blockVariables htiled) (by simp), rfl, rfl, rfl⟩
    rw [hnone, hnone, hresult]
    exact ⟨rfl, rfl, hstart, hstart⟩
  · obtain ⟨hvalid, hassembled⟩ := buildMode_assembled A preview input (fun _ => false) htiled
      hnullspaceAll hnullspace
    obtain ⟨hvalid', hassembled'⟩ := buildMode_assembled A preview input
      (fun status => status == .kNonfinite) htiled hschurAll hschur
    obtain ⟨h1, h2, h3, h4⟩ := process_modes A F preview input hstartup hempty
    exact ⟨h1.trans hvalid, h2.trans hvalid', h3 ▸ hassembled, h4 ▸ hassembled'⟩

end Modes

/-! ## Two features over one block -/

/-- Exact on the values of the input below: factors of one, and `4 * epsilon`. -/
def stackArithmetic : Arithmetic :=
  { zeroArithmetic with
    mul := fun x y => if x = one then y else if y = one then x else ⟨0x3cd0000000000000⟩ }

/-- The factorisations of the identity above a zero row, which the transform leaves alone. -/
def identityFactorizations : Factorizations where
  singularValues _ := ⟨[one, one, one], by decide⟩
  matrixQR B := B
  hCoeffs _ := ⟨[⟨0⟩, ⟨0⟩, ⟨0⟩], by decide⟩
  adjointMul _ augmented := augmented
  ofIndex _ := ⟨0x4010000000000000⟩

/-- Four rows without information about the state, three of which determine the feature. -/
def stackRaw (featureId : UInt64) : CP2RawFeatureSystem where
  featureId := featureId
  H_f := .ofFn 4 3 fun i j => if i = j then one else ⟨0⟩
  H_x := .zero 4 1
  residual := .zero 4
  jacobianLayout := [⟨0, 1, 0⟩]

def stackInput : CP2ShadowMathInput where
  prior := smallPrior
  rawSystems := [stackRaw 5, stackRaw 6]
  sigmaPx := one
  sigmaPxSq := one
  chi2Multiplier := one
  chiSquaredTable := smallTable

set_option maxRecDepth 4000 in
theorem startup_stackInput : startupInputIsValid stackArithmetic stackInput = true := by
  have htable : ((List.range 499).all fun k => (stackInput.chiSquaredTable.lookup
      ((k + 1 : Nat) : Int)).any Binary64.isFinite) = true := by
    rw [all_eq_true]
    intro k hk
    show (smallTable.lookup ((k + 1 : Nat) : Int)).any Binary64.isFinite = true
    rw [lookup_smallTable (mem_range.mp hk)]
    decide
  rw [startupInputIsValid, htable]
  decide

theorem modeSystems_stackInput :
    (modeSystems stackArithmetic identityFactorizations zeroPreview stackInput
        nullspaceSystem).map (fun s => (s.featureId, s.H.rows)) = [(5, 1), (6, 1)] ∧
      (modeSystems stackArithmetic identityFactorizations zeroPreview stackInput
        schurSystem).map (fun s => (s.featureId, s.H.rows)) = [(5, 1), (6, 1)] := by
  rw [modeSystems, modeSystems, features_process _ _ _ _ startup_stackInput]
  decide +kernel

/-- Both features enter both modes. -/
theorem process_assembles_small :
    let result := process stackArithmetic zeroPreview
      (schurReduce stackArithmetic identityFactorizations) stackInput
    result.nullspace.acceptedIds = [5, 6] ∧ result.schur.acceptedIds = [5, 6] := by
  obtain ⟨hnullspace, hschur⟩ := modeSystems_stackInput
  have hsum : ∀ {systems : List AcceptedSystem},
      systems.map (fun s => (s.featureId, s.H.rows)) = [(5, 1), (6, 1)] →
        systems.map (fun s => s.featureId) = [5, 6] ∧
          (systems.map fun s => s.H.rows).sum < indexLimit := by
    intro systems h
    have hids := congrArg (List.map Prod.fst) h
    have hrows := congrArg (List.map Prod.snd) h
    rw [List.map_map] at hids hrows
    refine ⟨hids, ?_⟩
    have hrows' : systems.map (fun s => s.H.rows) = [1, 1] := hrows
    rw [hrows']
    decide
  obtain ⟨-, -, ⟨_, -, -, hids, -⟩, ⟨_, -, -, hids', -⟩⟩ := process_assembles stackArithmetic
    identityFactorizations zeroPreview stackInput startup_stackInput (hsum hnullspace).2
    (hsum hschur).2
  exact ⟨hids.trans (hsum hnullspace).1, hids'.trans (hsum hschur).1⟩

end Bravo.Updater
