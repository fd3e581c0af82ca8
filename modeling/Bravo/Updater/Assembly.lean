import Bravo.Updater.Live

/-! # The two assemblies

The live system is a preallocated matrix under a map from variables to columns, the shadow's is a
matrix that grows under a map from covariance identifiers. Both place the columns of a variable
behind those of the variables before it. Here the two are filled side by side: as long as every
Jacobian is laid out in distinct state variables, an accepted system enters both, and the region in
use is the same in both (`Assembled.append`).
-/

namespace Bravo.Updater

open Bravo.Trace Bravo.Journal Bravo.Shadow List MatrixXd

/-! ## State blocks -/

section Blocks

variable {dimension : Nat}

theorem stateBlocksValid_cons {block : MSCKFUpdatePreviewBlock}
    {rest : List MSCKFUpdatePreviewBlock} {offset : Int}
    (h : stateBlocksValid dimension offset (block :: rest) = true) :
    block.covarianceId = offset ∧ 0 < block.size ∧ offset + block.size ≤ dimension ∧
      stateBlocksValid dimension (offset + block.size) rest = true := by
  rw [stateBlocksValid] at h
  split at h
  · cases h
  · unfold addIndex at h
    split_ifs at h
    exact ⟨by omega, by omega, by omega, h⟩

variable {blocks : List MSCKFUpdatePreviewBlock}

theorem stateBlocksValid_bounds :
    ∀ {offset : Int}, stateBlocksValid dimension offset blocks = true → ∀ b ∈ blocks,
      offset ≤ b.covarianceId ∧ 0 < b.size ∧ b.covarianceId + b.size ≤ dimension := by
  induction blocks with
  | nil =>
    intro offset _ b hb
    cases hb
  | cons block rest ih =>
    intro offset h b hb
    obtain ⟨hid, hsize, hend, hrest⟩ := stateBlocksValid_cons h
    rcases mem_cons.mp hb with rfl | hb
    · exact ⟨by omega, hsize, by omega⟩
    · obtain ⟨hle, hpos, hle'⟩ := ih hrest b hb
      exact ⟨by omega, hpos, hle'⟩

theorem rangesMeet_eq_false {id size id' size' : Int} (h : id' + size' ≤ id ∨ id + size ≤ id') :
    rangesMeet id size id' size' = false := by
  simp only [rangesMeet, Bool.and_eq_false_iff, decide_eq_false_iff_not]
  omega

theorem stateBlocksValid_disjoint :
    ∀ {offset : Int}, stateBlocksValid dimension offset blocks = true →
      ∀ b ∈ blocks, ∀ b' ∈ blocks, b ≠ b' →
        rangesMeet b.covarianceId b.size b'.covarianceId b'.size = false := by
  induction blocks with
  | nil =>
    intro offset _ b hb
    cases hb
  | cons block rest ih =>
    intro offset h b hb b' hb' hne
    obtain ⟨hid, -, -, hrest⟩ := stateBlocksValid_cons h
    have hbehind : ∀ c ∈ rest, offset + block.size ≤ c.covarianceId := fun c hc =>
      (stateBlocksValid_bounds hrest c hc).1
    rcases mem_cons.mp hb with heq | hmem
    · rcases mem_cons.mp hb' with heq' | hmem'
      · exact absurd (heq.trans heq'.symm) hne
      · have := hbehind b' hmem'
        subst heq
        exact rangesMeet_eq_false (by omega)
    · rcases mem_cons.mp hb' with heq' | hmem'
      · have := hbehind b hmem
        subst heq'
        exact rangesMeet_eq_false (by omega)
      · exact ih hrest b hmem b' hmem' hne

theorem stateBlocksValid_sum :
    ∀ {offset : Int}, stateBlocksValid dimension offset blocks = true →
      offset + (blocks.map fun b => b.size).sum = dimension := by
  induction blocks with
  | nil =>
    intro offset h
    simpa [stateBlocksValid] using h
  | cons block rest ih =>
    intro offset h
    obtain ⟨-, -, -, hrest⟩ := stateBlocksValid_cons h
    have := ih hrest
    rw [map_cons, sum_cons]
    omega

end Blocks

/-! ## Variables and their columns -/

def Variable.width (v : Variable) : Nat := v.size.toInt.toNat

def total (vs : List Variable) : Nat := (vs.map Variable.width).sum

@[simp] theorem total_nil : total [] = 0 := rfl

@[simp] theorem total_cons (v : Variable) (vs : List Variable) :
    total (v :: vs) = v.width + total vs := rfl

@[simp] theorem total_append (vs ws : List Variable) : total (vs ++ ws) = total vs + total ws := by
  simp [total]

def column : List Variable → Variable → Nat
  | [], _ => 0
  | w :: vs, v => if w = v then 0 else w.width + column vs v

variable {v : Variable}

theorem column_append_of_mem {vs : List Variable} (hv : v ∈ vs) (ws : List Variable) :
    column (vs ++ ws) v = column vs v := by
  induction vs with
  | nil => cases hv
  | cons w vs ih =>
    rw [cons_append, column, column]
    split
    · rfl
    · rename_i hne
      rcases mem_cons.mp hv with rfl | hv
      · exact absurd rfl hne
      · rw [ih hv]

theorem column_add_width_le {vs : List Variable} (hv : v ∈ vs) :
    column vs v + v.width ≤ total vs := by
  induction vs with
  | nil => cases hv
  | cons w vs ih =>
    rw [column, total_cons]
    split
    · rename_i heq
      rw [heq]
      omega
    · rename_i hne
      rcases mem_cons.mp hv with rfl | hv
      · exact absurd rfl hne
      · have := ih hv
        omega

/-- The variables of `vs` with their first columns, from column `c` on. -/
def placements : Nat → List Variable → List (Variable × Nat)
  | _, [] => []
  | c, v :: vs => (v, c) :: placements (c + v.width) vs

theorem placements_append (vs ws : List Variable) :
    ∀ c, placements c (vs ++ ws) = placements c vs ++ placements (c + total vs) ws := by
  induction vs with
  | nil => simp [placements]
  | cons v vs ih =>
    intro c
    rw [cons_append, placements, placements, ih, cons_append, total_cons, Nat.add_assoc]

theorem mem_of_mem_placements {vs : List Variable} {p : Variable × Nat} :
    ∀ {c : Nat}, p ∈ placements c vs → p.1 ∈ vs ∧ p.2 + p.1.width ≤ c + total vs := by
  induction vs with
  | nil =>
    intro c hp
    cases hp
  | cons v vs ih =>
    intro c hp
    rw [placements] at hp
    rcases mem_cons.mp hp with rfl | hp
    · exact ⟨mem_cons_self, by simp only [total_cons]; omega⟩
    · obtain ⟨hmem, hle⟩ := ih hp
      exact ⟨mem_cons_of_mem _ hmem, by rw [total_cons]; omega⟩

/-- The variables after one more, which is entered behind the others unless it is there. -/
def entered (vs : List Variable) (v : Variable) : List Variable := if v ∈ vs then vs else vs ++ [v]

abbrev enteredAll (vs us : List Variable) : List Variable := us.foldl entered vs

theorem enteredAll_cons (vs : List Variable) (u : Variable) (us : List Variable) :
    enteredAll vs (u :: us) = enteredAll (entered vs u) us := rfl

theorem mem_entered_self (vs : List Variable) (v : Variable) : v ∈ entered vs v := by
  unfold entered
  split
  · assumption
  · simp

theorem entered_eq_append (vs : List Variable) (v : Variable) : ∃ ws, entered vs v = vs ++ ws := by
  unfold entered
  split
  · exact ⟨[], by simp⟩
  · exact ⟨[v], rfl⟩

theorem enteredAll_eq_append (us : List Variable) : ∀ vs, ∃ ws, enteredAll vs us = vs ++ ws := by
  induction us with
  | nil => exact fun vs => ⟨[], by simp⟩
  | cons u us ih =>
    intro vs
    obtain ⟨ws, hws⟩ := entered_eq_append vs u
    obtain ⟨ws', hws'⟩ := ih (entered vs u)
    refine ⟨ws ++ ws', ?_⟩
    rw [enteredAll_cons, hws', hws, append_assoc]

theorem mem_enteredAll {us vs : List Variable} (hv : v ∈ vs) : v ∈ enteredAll vs us := by
  obtain ⟨ws, hws⟩ := enteredAll_eq_append us vs
  rw [hws]
  exact mem_append_left _ hv

theorem mem_enteredAll_of_mem {us : List Variable} (hv : v ∈ us) :
    ∀ {vs : List Variable}, v ∈ enteredAll vs us := by
  induction us with
  | nil => cases hv
  | cons u us ih =>
    intro vs
    rw [enteredAll_cons]
    rcases mem_cons.mp hv with rfl | hv
    · exact mem_enteredAll (mem_entered_self vs v)
    · exact ih hv

theorem column_enteredAll {us vs : List Variable} (hv : v ∈ vs) :
    column (enteredAll vs us) v = column vs v := by
  obtain ⟨ws, hws⟩ := enteredAll_eq_append us vs
  rw [hws, column_append_of_mem hv]

structure Within (vars vs : List Variable) : Prop where
  nodup : vs.Nodup
  subset : vs ⊆ vars

theorem Within.entered {vars vs : List Variable} (h : Within vars vs) {v : Variable}
    (hv : v ∈ vars) : Within vars (entered vs v) := by
  unfold Updater.entered
  split
  · exact h
  · rename_i hnew
    refine ⟨nodup_append.mpr ⟨h.nodup, nodup_singleton v, ?_⟩, ?_⟩
    · intro a ha b hb heq
      rw [mem_singleton] at hb
      subst hb heq
      exact hnew ha
    · exact append_subset.mpr ⟨h.subset, by simpa using hv⟩

theorem Within.enteredAll {vars : List Variable} (us : List Variable) (hus : us ⊆ vars) :
    ∀ {vs : List Variable}, Within vars vs → Within vars (enteredAll vs us) := by
  induction us with
  | nil => exact fun h => h
  | cons u us ih =>
    intro vs h
    exact ih (fun x hx => hus (mem_cons_of_mem _ hx)) (h.entered (hus mem_cons_self))

theorem Within.total_le {vars vs : List Variable} (h : Within vars vs) : total vs ≤ total vars := by
  obtain ⟨ws, hperm, hsub⟩ := subperm_of_subset h.nodup h.subset
  calc total vs = total ws := ((hperm.map Variable.width).sum_eq).symm
    _ ≤ total vars := (hsub.map Variable.width).sum_le_sum (by simp)

/-! ## The variables of the state -/

/-- `vars` are the variables that a Jacobian can mention: with the SLAM landmarks, they are distinct
objects at distinct state blocks. -/
structure StateVariables (prior : MSCKFUpdatePreviewSnapshot) (vars landmarks : List Variable) :
    Prop where
  addresses : (vars.map Variable.address).Nodup
  ids : ((vars ++ landmarks).map Variable.id).Nodup
  blocks : ∀ v ∈ vars ++ landmarks, ∃ b ∈ prior.stateBlocks,
    b.covarianceId = v.id.toInt ∧ b.size = v.size.toInt
  tiled : stateBlocksValid prior.covariance.rows 0 prior.stateBlocks = true

section StateVariables

variable {prior : MSCKFUpdatePreviewSnapshot} {vars landmarks : List Variable}
variable (h : StateVariables prior vars landmarks)

include h

theorem StateVariables.bounds {v : Variable} (hv : v ∈ vars) :
    0 ≤ v.id.toInt ∧ 0 < v.size.toInt ∧ v.id.toInt + v.size.toInt ≤ prior.covariance.rows := by
  obtain ⟨b, hb, hid, hsize⟩ := h.blocks v (mem_append_left _ hv)
  rw [← hid, ← hsize]
  exact stateBlocksValid_bounds h.tiled b hb

theorem StateVariables.width_eq {v : Variable} (hv : v ∈ vars) : (v.width : Int) = v.size.toInt :=
  Int.toNat_of_nonneg (Int.le_of_lt (h.bounds hv).2.1)

theorem StateVariables.address_ne {v w : Variable} (hv : v ∈ vars) (hw : w ∈ vars) (hne : v ≠ w) :
    v.address ≠ w.address :=
  fun heq => hne (inj_on_of_nodup_map h.addresses hv hw heq)

theorem StateVariables.id_ne {v w : Variable} (hv : v ∈ vars) (hw : w ∈ vars) (hne : v ≠ w) :
    v.id.toInt ≠ w.id.toInt := fun heq =>
  hne (inj_on_of_nodup_map h.ids (mem_append_left _ hv) (mem_append_left _ hw)
    (Int64.toInt_inj.mp heq))

theorem StateVariables.disjoint {v w : Variable} (hv : v ∈ vars) (hw : w ∈ vars) (hne : v ≠ w) :
    rangesMeet v.id.toInt v.size.toInt w.id.toInt w.size.toInt = false := by
  obtain ⟨b, hb, hid, hsize⟩ := h.blocks v (mem_append_left _ hv)
  obtain ⟨b', hb', hid', hsize'⟩ := h.blocks w (mem_append_left _ hw)
  rw [← hid, ← hsize, ← hid', ← hsize']
  refine stateBlocksValid_disjoint h.tiled b hb b' hb' fun heq => h.id_ne hv hw hne ?_
  rw [← hid, ← hid', heq]

theorem StateVariables.total_le : total vars + total landmarks ≤ prior.covariance.rows := by
  have hnodup : ((vars ++ landmarks).map fun v => (v.id.toInt, v.size.toInt)).Nodup := by
    refine List.Nodup.of_map Prod.fst ?_
    rw [List.map_map]
    refine (nodup_map_iff_inj_on h.ids.of_map).mpr fun v hv w hw heq => ?_
    exact inj_on_of_nodup_map h.ids hv hw (Int64.toInt_inj.mp heq)
  have hsubset : ((vars ++ landmarks).map fun v => (v.id.toInt, v.size.toInt)) ⊆
      prior.stateBlocks.map fun b => (b.covarianceId, b.size) := by
    intro x hx
    obtain ⟨v, hv, rfl⟩ := mem_map.mp hx
    obtain ⟨b, hb, hid, hsize⟩ := h.blocks v hv
    exact mem_map.mpr ⟨b, hb, by rw [hid, hsize]⟩
  obtain ⟨ws, hperm, hsub⟩ := subperm_of_subset hnodup hsubset
  have hle : ((vars ++ landmarks).map fun v => v.size.toInt).sum ≤
      (prior.stateBlocks.map fun b => b.size).sum := by
    calc ((vars ++ landmarks).map fun v => v.size.toInt).sum
        = (((vars ++ landmarks).map fun v => (v.id.toInt, v.size.toInt)).map Prod.snd).sum := by
          rw [List.map_map]
          rfl
      _ = (ws.map Prod.snd).sum := ((hperm.map Prod.snd).sum_eq).symm
      _ ≤ ((prior.stateBlocks.map fun b => (b.covarianceId, b.size)).map Prod.snd).sum := by
          refine (hsub.map Prod.snd).sum_le_sum fun x hx => ?_
          rw [List.map_map] at hx
          obtain ⟨b, hb, rfl⟩ := mem_map.mp hx
          exact Int.le_of_lt (stateBlocksValid_bounds h.tiled b hb).2.1
      _ = (prior.stateBlocks.map fun b => b.size).sum := by
          rw [List.map_map]
          rfl
  have hwidth : ∀ vs : List Variable, vs ⊆ vars ++ landmarks →
      (total vs : Int) = (vs.map fun v => v.size.toInt).sum := by
    intro vs
    induction vs with
    | nil => simp
    | cons v vs ih =>
      intro hvs
      obtain ⟨b, hb, -, hsize⟩ := h.blocks v (hvs mem_cons_self)
      have hpos := (stateBlocksValid_bounds h.tiled b hb).2.1
      have hv : (v.width : Int) = v.size.toInt := Int.toNat_of_nonneg (by omega)
      rw [total_cons, map_cons, sum_cons, Nat.cast_add, hv,
        ih fun x hx => hvs (mem_cons_of_mem _ hx)]
  have hsum := stateBlocksValid_sum h.tiled
  have hall := hwidth _ (List.Subset.refl _)
  rw [total_append] at hall
  omega

end StateVariables

/-! ## Layouts -/

/-- `Hx_mapping` of the variables `vs`. -/
def mappingOf (vs : List Variable) : List (Nat × Int) :=
  (placements 0 vs).map fun p => (p.1.address, (p.2 : Int))

def layoutOf (vs : List Variable) : List MSCKFUpdatePreviewBlock :=
  (placements 0 vs).map fun p => ⟨p.1.id.toInt, p.1.size.toInt, p.2⟩

/-- The layout of a Jacobian over `us`. -/
def localLayoutOf (us : List Variable) : List CP2FeatureGateLayoutBlock :=
  (placements 0 us).map fun p => ⟨p.1.id, p.1.size, Int64.ofInt p.2⟩

section Layouts

variable {prior : MSCKFUpdatePreviewSnapshot} {vars landmarks : List Variable}
variable (h : StateVariables prior vars landmarks)

include h

theorem captureLayout_placements {β : Type} (name : String) (block : Int → Int → Int → β)
    (us : List Variable) (hus : us ⊆ vars) :
    ∀ c : Nat, c + total us < indexLimit →
      captureLayout name block c (us.map some) =
        .ok ((placements c us).map fun p => block p.1.id.toInt p.1.size.toInt p.2) := by
  induction us with
  | nil => exact fun _ _ => rfl
  | cons u us ih =>
    intro c hc
    have hu : u ∈ vars := hus mem_cons_self
    have hwidth := h.width_eq hu
    have hpos := (h.bounds hu).2.1
    rw [total_cons] at hc
    have hadd : addEigenIndex c u.size.toInt ("CP2 " ++ name ++ " layout offset overflows Eigen::Index") =
        .ok ((c + u.width : Nat) : Int) := by
      rw [addEigenIndex, addIndex, if_neg (by omega)]
      simp only [Except.ok.injEq, Nat.cast_add]
      omega
    rw [map_cons, captureLayout, if_neg (by omega), hadd]
    simp only [bind, Except.bind, pure, Except.pure, placements, map_cons]
    rw [ih (fun x hx => hus (mem_cons_of_mem _ hx)) (c + u.width) (by omega)]

theorem lookup_placements (vs : List Variable) (hvs : vs ⊆ vars) {v : Variable} (hv : v ∈ vars) :
    ∀ c : Nat, ((placements c vs).map fun p => (p.1.address, (p.2 : Int))).lookup v.address =
      if v ∈ vs then some ((c + column vs v : Nat) : Int) else none := by
  induction vs with
  | nil => intro c; rfl
  | cons w vs ih =>
    intro c
    have hw : w ∈ vars := hvs mem_cons_self
    rw [placements, map_cons, lookup_cons, column]
    by_cases heq : w = v
    · subst heq
      simp
    · have hne : (v.address == w.address) = false :=
        beq_eq_false_iff_ne.mpr (h.address_ne hv hw (Ne.symm heq))
      rw [hne, ih (fun x hx => hvs (mem_cons_of_mem _ hx)) (c + w.width), if_neg heq]
      simp only [mem_cons, Ne.symm heq, false_or, Nat.add_assoc]

theorem lookup_mappingOf {vs : List Variable} (hvs : vs ⊆ vars) {v : Variable} (hv : v ∈ vars) :
    (mappingOf vs).lookup v.address = if v ∈ vs then some ((column vs v : Nat) : Int) else none := by
  rw [mappingOf, lookup_placements h vs hvs hv, Nat.zero_add]

theorem findBlock_placements (vs : List Variable) (hvs : vs ⊆ vars) {v : Variable} (hv : v ∈ vars) :
    ∀ c : Nat, findBlock ((placements c vs).map fun p => ⟨p.1.id.toInt, p.1.size.toInt, p.2⟩)
        v.id.toInt =
      if v ∈ vs then some ⟨v.id.toInt, v.size.toInt, (c + column vs v : Nat)⟩ else none := by
  induction vs with
  | nil => intro c; rfl
  | cons w vs ih =>
    intro c
    have hw : w ∈ vars := hvs mem_cons_self
    rw [placements, map_cons, findBlock, find?_cons, column]
    by_cases heq : w = v
    · subst heq
      simp
    · have hne : (w.id.toInt == v.id.toInt) = false :=
        beq_eq_false_iff_ne.mpr (h.id_ne hw hv heq)
      have hrest := ih (fun x hx => hvs (mem_cons_of_mem _ hx)) (c + w.width)
      rw [findBlock] at hrest
      simp only [hne, hrest, if_neg heq, mem_cons, Ne.symm heq, false_or, Nat.add_assoc]

theorem findBlock_layoutOf {vs : List Variable} (hvs : vs ⊆ vars) {v : Variable} (hv : v ∈ vars) :
    findBlock (layoutOf vs) v.id.toInt =
      if v ∈ vs then some ⟨v.id.toInt, v.size.toInt, (column vs v : Nat)⟩ else none := by
  rw [layoutOf, findBlock_placements h vs hvs hv, Nat.zero_add]

theorem captureFeatureLayout_eq {us : List Variable} (hus : us ⊆ vars)
    (htotal : total us < indexLimit) :
    captureFeatureLayout (us.map some) = .ok (localLayoutOf us) := by
  have hcapture := captureLayout_placements h "feature"
    (fun id size offset => (⟨Int64.ofInt id, Int64.ofInt size, Int64.ofInt offset⟩ :
      CP2FeatureGateLayoutBlock)) us hus 0 (by omega)
  rw [captureFeatureLayout]
  refine hcapture.trans (congrArg _ (map_congr_left fun p _ => ?_))
  rw [Int64.ofInt_toInt, Int64.ofInt_toInt]

theorem capturePreviewLayout_eq {vs : List Variable} (hvs : vs ⊆ vars)
    (htotal : total vs < indexLimit) : capturePreviewLayout (vs.map some) = .ok (layoutOf vs) :=
  captureLayout_placements h "preview" _ vs hvs 0 (by omega)

end Layouts

/-! ## Placing columns -/

/-- Copy the columns of one variable, from its place in `H_x` to its place among `vs`, into the rows
from `row` on. -/
def placeColumns (vs : List Variable) (row : Nat) (H_x M : MatrixXd) (p : Variable × Nat) :
    MatrixXd :=
  M.setBlock row (column vs p.1) H_x.rows p.1.width fun i j => H_x.coeff i (p.2 + j)

/-- Copy all columns of `H_x`. -/
def placeAll (vs : List Variable) (row : Nat) (H_x M : MatrixXd) (ps : List (Variable × Nat)) :
    MatrixXd :=
  ps.foldl (placeColumns vs row H_x) M

section Placing

variable {vs : List Variable} {row : Nat} {H_x : MatrixXd}

@[simp] theorem rows_placeAll (ps : List (Variable × Nat)) :
    ∀ M, (placeAll vs row H_x M ps).rows = M.rows := by
  induction ps with
  | nil => exact fun _ => rfl
  | cons p ps ih => exact fun M => (ih _).trans rows_setBlock

@[simp] theorem cols_placeAll (ps : List (Variable × Nat)) :
    ∀ M, (placeAll vs row H_x M ps).cols = M.cols := by
  induction ps with
  | nil => exact fun _ => rfl
  | cons p ps ih => exact fun M => (ih _).trans cols_setBlock

theorem coeff_placeAll_congr {i j : Nat} (ps : List (Variable × Nat)) :
    ∀ {M N : MatrixXd}, i < M.rows → j < M.cols → i < N.rows → j < N.cols →
      M.coeff i j = N.coeff i j →
      (placeAll vs row H_x M ps).coeff i j = (placeAll vs row H_x N ps).coeff i j := by
  induction ps with
  | nil => exact fun _ _ _ _ heq => heq
  | cons p ps ih =>
    intro M N hi hj hi' hj' heq
    refine ih (M := placeColumns vs row H_x M p) (N := placeColumns vs row H_x N p) ?_ ?_ ?_ ?_ ?_
    · exact rows_setBlock.symm ▸ hi
    · exact cols_setBlock.symm ▸ hj
    · exact rows_setBlock.symm ▸ hi'
    · exact cols_setBlock.symm ▸ hj'
    · rw [placeColumns, placeColumns, coeff_setBlock hi hj,
        coeff_setBlock hi' hj', heq]

theorem coeff_placeAll_of_outside {i j : Nat} (hout : i < row ∨ row + H_x.rows ≤ i ∨ total vs ≤ j)
    (ps : List (Variable × Nat)) :
    ∀ {M : MatrixXd}, (∀ p ∈ ps, p.1 ∈ vs) → i < M.rows → j < M.cols →
      (placeAll vs row H_x M ps).coeff i j = M.coeff i j := by
  induction ps with
  | nil => exact fun _ _ _ => rfl
  | cons p ps ih =>
    intro M hps hi hj
    have hcolumn := column_add_width_le (hps p mem_cons_self)
    refine (ih (M := placeColumns vs row H_x M p) (fun q hq => hps q (mem_cons_of_mem _ hq))
      ?_ ?_).trans ?_
    · exact rows_setBlock.symm ▸ hi
    · exact cols_setBlock.symm ▸ hj
    · rw [placeColumns, coeff_setBlock hi hj, if_neg (by omega)]

end Placing

/-! ## The live side -/

/-- The live system with the variables `vs` entered. -/
def LiveSystem.ordered (system : LiveSystem) (vs : List Variable) : LiveSystem :=
  { system with
    Hx_mapping := mappingOf vs
    Hx_order_big := vs.map some
    ctJacob := total vs }

theorem appendVariable_of_mapped {capacity : Capacity} {H_x : MatrixXd} {system entered : LiveSystem}
    {ctHx columns mapped : Int} (henter : system.enterVariable capacity v = .ok entered)
    (hadd : addEigenIndex ctHx v.size.toInt "UpdaterMSCKF feature Jacobian columns overflow" =
      .ok columns) (hcols : columns ≤ H_x.cols)
    (hlookup : entered.Hx_mapping.lookup v.address = some mapped)
    (hfit : 0 ≤ mapped ∧ mapped + v.size.toInt ≤ entered.Hx_big.cols) :
    system.appendVariable capacity H_x ctHx v = .ok ({ entered with
      Hx_big := entered.Hx_big.setBlock entered.ctMeas.toNat mapped.toNat H_x.rows
        v.size.toInt.toNat fun i j => H_x.coeff i (ctHx.toNat + j) }, columns) := by
  simp only [LiveSystem.appendVariable, henter, hadd, bind, Except.bind, pure, Except.pure]
  rw [if_neg (by omega), hlookup]
  simp only
  rw [if_neg (by omega)]

section Live

variable {prior : MSCKFUpdatePreviewSnapshot} {vars landmarks : List Variable}
variable (h : StateVariables prior vars landmarks)
variable {capacity : Capacity} (hroom : total vars ≤ capacity.maxHxSize)
variable (hlimit : capacity.maxHxSize < indexLimit)

include h hroom hlimit

theorem enterVariable_ordered (system : LiveSystem) {vs : List Variable} (hvs : Within vars vs)
    {v : Variable} (hv : v ∈ vars) :
    (system.ordered vs).enterVariable capacity v = .ok (system.ordered (entered vs v)) := by
  have hwidth := h.width_eq hv
  have hlookup := lookup_mappingOf h hvs.subset hv
  by_cases hmem : v ∈ vs
  · rw [if_pos hmem] at hlookup
    rw [LiveSystem.enterVariable, LiveSystem.ordered, hlookup, entered, if_pos hmem]
    rfl
  · rw [if_neg hmem] at hlookup
    have htotal := (hvs.entered hv).total_le
    rw [entered, if_neg hmem, total_append, total_cons, total_nil] at htotal
    have hadd : addEigenIndex (total vs) v.size.toInt
        "UpdaterMSCKF Jacobian column count overflows" = .ok ((total vs + v.width : Nat) : Int) := by
      rw [addEigenIndex, addIndex, if_neg (by omega)]
      simp only [Except.ok.injEq, Nat.cast_add]
      omega
    simp only [LiveSystem.enterVariable, LiveSystem.ordered, hlookup, Option.isSome_none,
      Bool.false_eq_true, if_false, hadd, bind, Except.bind, pure, Except.pure]
    rw [if_neg (by omega), entered, if_neg hmem, mappingOf, mappingOf, placements_append]
    simp [placements]

theorem appendVariable_ordered (system : LiveSystem) {vs : List Variable} (hvs : Within vars vs)
    {v : Variable} (hv : v ∈ vars) (H_x : MatrixXd) {c : Nat} (hc : c + v.width ≤ H_x.cols)
    (hcols : system.Hx_big.cols = capacity.maxHxSize) :
    (system.ordered vs).appendVariable capacity H_x c v =
      .ok ({ system with
          Hx_big := placeColumns (entered vs v) system.ctMeas.toNat H_x system.Hx_big (v, c) }.ordered
            (entered vs v), ((c + v.width : Nat) : Int)) := by
  have hwidth := h.width_eq hv
  have hcolsLt := H_x.cols_lt
  have hmem := mem_entered_self vs v
  have hlookup := lookup_mappingOf h (hvs.entered hv).subset hv
  rw [if_pos hmem] at hlookup
  have hfit := column_add_width_le hmem
  have htotal := (hvs.entered hv).total_le
  have hadd : addEigenIndex c v.size.toInt "UpdaterMSCKF feature Jacobian columns overflow" =
      .ok ((c + v.width : Nat) : Int) := by
    rw [addEigenIndex, addIndex, if_neg (by omega)]
    simp only [Except.ok.injEq, Nat.cast_add]
    omega
  rw [appendVariable_of_mapped (enterVariable_ordered h hroom hlimit system hvs hv) hadd (by omega)
    hlookup (by simp only [LiveSystem.ordered]; omega)]
  rfl

theorem appendVariables_ordered (H_x : MatrixXd) (us : List Variable) (hus : us ⊆ vars) :
    ∀ (system : LiveSystem) {vs : List Variable}, Within vars vs → ∀ {c : Nat},
      c + total us ≤ H_x.cols → system.Hx_big.cols = capacity.maxHxSize →
      LiveSystem.appendVariables capacity H_x (system.ordered vs) c (us.map some) =
        .ok ({ system with
            Hx_big := placeAll (enteredAll vs us) system.ctMeas.toNat H_x system.Hx_big
              (placements c us) }.ordered (enteredAll vs us), ((c + total us : Nat) : Int)) := by
  induction us with
  | nil => exact fun _ _ _ _ _ _ => rfl
  | cons u us ih =>
    intro system vs hvs c hc hcols
    have hu : u ∈ vars := hus mem_cons_self
    have hpos := (h.bounds hu).2.1
    rw [total_cons] at hc
    have hstep := appendVariable_ordered h hroom hlimit system hvs hu H_x (c := c) (by omega) hcols
    have hrest := ih (fun x hx => hus (mem_cons_of_mem _ hx))
      { system with
        Hx_big := placeColumns (entered vs u) system.ctMeas.toNat H_x system.Hx_big (u, c) }
      (hvs.entered hu) (c := c + u.width) (by omega) (cols_setBlock.trans hcols)
    rw [map_cons, LiveSystem.appendVariables, if_neg (by omega), hstep]
    simp only [bind, Except.bind]
    rw [hrest, total_cons, Nat.add_assoc]
    -- the column of `u` is the one it has among all variables
    have hcolumn : placeColumns (entered vs u) system.ctMeas.toNat H_x system.Hx_big (u, c) =
        placeColumns (enteredAll vs (u :: us)) system.ctMeas.toNat H_x system.Hx_big (u, c) := by
      rw [placeColumns, placeColumns]
      congr 1
      exact (column_enteredAll (mem_entered_self vs u)).symm
    rw [hcolumn]
    rfl

end Live

/-! ## The shadow's side -/

/-- The matrix of `append` before the columns are placed. -/
def grown (A : Arithmetic) (H : MatrixXd) (rows cols added : Nat) : MatrixXd :=
  let H' := H.conservativeResize rows cols A.storage
  let H' := if H.cols < cols ∧ 0 < H.rows then
      H'.setBlock 0 H.cols H.rows (cols - H.cols) fun _ _ => ⟨0⟩
    else H'
  H'.setBlock H.rows 0 added cols fun _ _ => ⟨0⟩

section Grown

variable {A : Arithmetic} {H : MatrixXd} {rows cols added : Nat}

theorem rows_grown (hrows : rows < indexLimit) (hcols : cols < indexLimit) :
    (grown A H rows cols added).rows = rows := by
  unfold grown
  simp only
  split <;> simp [conservativeResize, rows_ofFn hrows hcols]

theorem cols_grown (hrows : rows < indexLimit) (hcols : cols < indexLimit) :
    (grown A H rows cols added).cols = cols := by
  unfold grown
  simp only
  split <;> simp [conservativeResize, cols_ofFn hrows hcols]

theorem coeff_grown (hrows : rows < indexLimit) (hcols : cols < indexLimit)
    (hgrow : rows = H.rows + added) {i j : Nat} (hi : i < rows) (hj : j < cols) :
    (grown A H rows cols added).coeff i j =
      if i < H.rows ∧ j < H.cols then H.coeff i j else ⟨0⟩ := by
  have hresize : ∀ i j, i < rows → j < cols → (H.conservativeResize rows cols A.storage).coeff i j =
      if i < H.rows ∧ j < H.cols then H.coeff i j else A.storage i j := fun i j hi hj =>
    coeff_ofFn hrows hcols hi hj
  have hr : (H.conservativeResize rows cols A.storage).rows = rows := rows_ofFn hrows hcols
  have hc : (H.conservativeResize rows cols A.storage).cols = cols := cols_ofFn hrows hcols
  unfold grown
  simp only
  by_cases hold : i < H.rows
  · -- an old row: only its new columns are written
    split
    · rw [coeff_setBlock (by simpa [hr] using hi) (by simpa [hc] using hj),
        if_neg (by omega), coeff_setBlock (by rwa [hr]) (by rwa [hc])]
      by_cases hcol : j < H.cols
      · rw [if_neg (by omega), hresize i j hi hj]
        rw [if_pos ⟨hold, hcol⟩, if_pos ⟨hold, hcol⟩]
      · rw [if_pos (by omega), if_neg (by omega)]
    · have hcol : j < H.cols := by omega
      rw [coeff_setBlock (by rwa [hr]) (by rwa [hc]), if_neg (by omega), hresize i j hi hj,
        if_pos ⟨hold, hcol⟩, if_pos ⟨hold, hcol⟩]
  · have hnew : ¬(i < H.rows ∧ j < H.cols) := fun hboth => hold hboth.1
    rw [if_neg hnew]
    split
    · rw [coeff_setBlock (by simpa [hr] using hi) (by simpa [hc] using hj),
        if_pos (by omega)]
    · rw [coeff_setBlock (by rwa [hr]) (by rwa [hc]), if_pos (by omega)]

end Grown

section ShadowSide

variable {prior : MSCKFUpdatePreviewSnapshot} {vars landmarks : List Variable}
variable (h : StateVariables prior vars landmarks)

include h

theorem localLayoutValid_placements {cols : Nat} (hcols : cols < indexLimit) (us : List Variable)
    (hus : us ⊆ vars) :
    ∀ c : Nat, c + total us = cols →
      localLayoutValid cols c ((placements c us).map fun p => ⟨p.1.id, p.1.size, Int64.ofInt p.2⟩) =
        true := by
  induction us with
  | nil =>
    intro c hc
    simpa [localLayoutValid, placements] using hc
  | cons u us ih =>
    intro c hc
    have hu : u ∈ vars := hus mem_cons_self
    have hwidth := h.width_eq hu
    obtain ⟨hid, hpos, -⟩ := h.bounds hu
    rw [total_cons] at hc
    have hcols' : cols < 2 ^ 63 := hcols
    have hoffset : (Int64.ofInt (c : Int)).toInt = c :=
      Int64.toInt_ofInt_of_le (by omega) (by omega)
    have hadd : addIndex c u.size.toInt = some ((c + u.width : Nat) : Int) := by
      rw [addIndex, if_neg (by omega)]
      simp only [Option.some.injEq, Nat.cast_add]
      omega
    rw [placements, map_cons, localLayoutValid]
    simp only [hoffset, hadd]
    rw [if_neg (by omega)]
    exact ih (fun x hx => hus (mem_cons_of_mem _ hx)) (c + u.width) (by omega)

theorem extendLayout_placements (hlimit : total vars < indexLimit) (us : List Variable)
    (hus : us ⊆ vars) :
    ∀ {vs : List Variable}, Within vars vs → ∀ c : Nat,
      extendLayout (layoutOf vs) (total vs)
          ((placements c us).map fun p => ⟨p.1.id, p.1.size, Int64.ofInt p.2⟩) =
        some (layoutOf (enteredAll vs us), (total (enteredAll vs us) : Int)) := by
  induction us with
  | nil => exact fun _ _ => rfl
  | cons u us ih =>
    intro vs hvs c
    have hu : u ∈ vars := hus mem_cons_self
    have hwidth := h.width_eq hu
    obtain ⟨hid, hpos, hend⟩ := h.bounds hu
    have hcov := prior.covariance.rows_lt
    have hfind := findBlock_layoutOf h hvs.subset hu
    have hrest := ih (fun x hx => hus (mem_cons_of_mem _ hx)) (hvs.entered hu) (c + u.width)
    rw [placements, map_cons, extendLayout, hfind]
    by_cases hmem : u ∈ vs
    · rw [entered, if_pos hmem] at hrest
      rw [if_pos hmem]
      simp only [ne_eq, not_true_eq_false, if_false]
      rw [hrest, enteredAll_cons, entered, if_pos hmem]
    · have htotal := (hvs.entered hu).total_le
      rw [entered, if_neg hmem] at hrest htotal
      rw [total_append, total_cons, total_nil] at htotal
      have hrange : addIndex u.id.toInt u.size.toInt = some (u.id.toInt + u.size.toInt) := by
        rw [addIndex, if_neg (by omega)]
      have hmeet : (layoutOf vs).any (fun known => (addIndex known.covarianceId known.size).isNone ||
          rangesMeet u.id.toInt u.size.toInt known.covarianceId known.size) = false := by
        rw [any_eq_false]
        intro b hb
        obtain ⟨p, hp, rfl⟩ := mem_map.mp hb
        have hpvs := (mem_of_mem_placements hp).1
        obtain ⟨hpid, hppos, hpend⟩ := h.bounds (hvs.subset hpvs)
        have hne : u ≠ p.1 := fun heq => hmem (heq ▸ hpvs)
        have hknown : addIndex p.1.id.toInt p.1.size.toInt =
            some (p.1.id.toInt + p.1.size.toInt) := by
          rw [addIndex, if_neg (by omega)]
        simp only [hknown, h.disjoint hu (hvs.subset hpvs) hne]
        simp
      have hadd : addIndex (total vs) u.size.toInt = some ((total vs + u.width : Nat) : Int) := by
        rw [addIndex, if_neg (by omega)]
        simp only [Option.some.injEq, Nat.cast_add]
        omega
      have hlayout : layoutOf vs ++ [⟨u.id.toInt, u.size.toInt, total vs⟩] =
          layoutOf (vs ++ [u]) := by
        simp [layoutOf, placements_append, placements]
      rw [if_neg hmem]
      simp only [hrange, hmeet, hadd, Option.isNone_some, Bool.false_eq_true, if_false]
      rw [hlayout]
      have hcolumns : total vs + u.width = total (vs ++ [u]) := by simp
      rw [hcolumns, hrest, enteredAll_cons, entered, if_neg hmem]

theorem foldl_placeBlock {vs us : List Variable} (hvs : Within vars vs) (hus : us ⊆ vs)
    {row : Nat} {H_x : MatrixXd} (hfit : total us ≤ H_x.cols) (M : MatrixXd) :
    (localLayoutOf us).foldl (placeBlock (layoutOf vs) row H_x) M =
      placeAll vs row H_x M (placements 0 us) := by
  have hcols : H_x.cols < 2 ^ 63 := H_x.cols_lt
  rw [localLayoutOf, foldl_map, placeAll]
  refine foldl_ext _ _ _ fun N p hp => ?_
  obtain ⟨hmem, hend⟩ := mem_of_mem_placements hp
  have hfind := findBlock_layoutOf h hvs.subset (hvs.subset (hus hmem))
  rw [if_pos (hus hmem)] at hfind
  have hoffset : (Int64.ofInt (p.2 : Int)).toInt = p.2 :=
    Int64.toInt_ofInt_of_le (by omega) (by omega)
  rw [placeBlock, hfind, placeColumns]
  simp only [hoffset, Int.toNat_natCast]
  rfl

theorem append_laidOut (A : Arithmetic) {vs : List Variable} (hvs : Within vars vs)
    {assembler : GlobalAssembler} (hlayout : assembler.layout = layoutOf vs)
    (hassembled : assembler.H.cols = total vs) {H : MatrixXd} {res : VectorXd}
    {us : List Variable} (hus : us ⊆ vars) (hcols : total us = H.cols) (hpos : 0 < H.rows)
    (hres : res.rows = H.rows) (hlimit : total vars < indexLimit)
    (hgrows : assembler.H.rows + H.rows < indexLimit) :
    assembler.append A H res (localLayoutOf us) = some {
      H := placeAll (enteredAll vs us) assembler.H.rows H
        (grown A assembler.H (assembler.H.rows + H.rows) (total (enteredAll vs us)) H.rows)
        (placements 0 us)
      residual := (assembler.residual.conservativeResize (assembler.H.rows + H.rows)
        (A.storage 0)).setSegment assembler.H.rows H.rows res.coeff
      layout := layoutOf (enteredAll vs us) } := by
  have hvs' : Within vars (enteredAll vs us) := hvs.enteredAll us hus
  have husIn : us ⊆ enteredAll vs us := fun u hu => mem_enteredAll_of_mem hu
  have hlocal : localLayoutValid H.cols 0 (localLayoutOf us) = true :=
    localLayoutValid_placements h H.cols_lt us hus 0 (by omega)
  have hextend : extendLayout assembler.layout assembler.H.cols (localLayoutOf us) =
      some (layoutOf (enteredAll vs us), (total (enteredAll vs us) : Int)) := by
    rw [hlayout, hassembled]
    exact extendLayout_placements h hlimit us hus hvs 0
  have hrows : addIndex assembler.H.rows H.rows = some ((assembler.H.rows + H.rows : Nat) : Int) := by
    rw [addIndex, if_neg (by omega)]
    rfl
  simp only [GlobalAssembler.append, hlocal, hextend, hrows]
  rw [if_neg (by omega)]
  simp only [Bool.not_true, Bool.false_eq_true, if_false, Int.toNat_natCast, hres,
    Nat.add_sub_cancel, foldl_placeBlock h hvs' husIn (Nat.le_of_eq hcols)]
  rfl

end ShadowSide

/-! ## Side by side -/

/-- The live system and the shadow's assembler after the same accepted systems, over the variables
`vs`: the region in use agrees, and the rest of the live matrix is still zero. -/
structure Assembled (capacity : Capacity) (vs : List Variable) (system : LiveSystem)
    (assembler : GlobalAssembler) : Prop where
  ordered : system = system.ordered vs
  measurements : system.ctMeas = assembler.H.rows
  rows_le : assembler.H.rows ≤ capacity.maxMeasSize
  big_rows : system.Hx_big.rows = capacity.maxMeasSize
  big_cols : system.Hx_big.cols = capacity.maxHxSize
  res_rows : system.res_big.rows = capacity.maxMeasSize
  cols : assembler.H.cols = total vs
  residual_rows : assembler.residual.rows = assembler.H.rows
  layout : assembler.layout = layoutOf vs
  agree : ∀ i j, i < assembler.H.rows → j < total vs →
    system.Hx_big.coeff i j = assembler.H.coeff i j
  zero : ∀ i j, i < capacity.maxMeasSize → j < capacity.maxHxSize →
    assembler.H.rows ≤ i ∨ total vs ≤ j → system.Hx_big.coeff i j = ⟨0⟩
  residual : ∀ i, i < assembler.H.rows → system.res_big.coeff i = assembler.residual.coeff i

section SideBySide

variable {prior : MSCKFUpdatePreviewSnapshot} {vars landmarks : List Variable}
variable {capacity : Capacity}

theorem Assembled.start (hrows : capacity.maxMeasSize < indexLimit)
    (hcols : capacity.maxHxSize < indexLimit) :
    Assembled capacity [] (.allocate capacity) {} where
  ordered := rfl
  measurements := rfl
  rows_le := Nat.zero_le _
  big_rows := rows_ofFn hrows hcols
  big_cols := cols_ofFn hrows hcols
  res_rows := VectorXd.rows_ofFn hrows
  cols := rfl
  residual_rows := rfl
  layout := rfl
  agree := fun i _ hi => absurd hi (Nat.not_lt_zero i)
  zero := fun _ _ hi hj _ => coeff_ofFn hrows hcols hi hj
  residual := fun i hi => absurd hi (Nat.not_lt_zero i)

/-- **An accepted system enters both assemblies alike.** -/
theorem Assembled.append (h : StateVariables prior vars landmarks)
    (hroom : total vars ≤ capacity.maxHxSize) (hlimit : capacity.maxHxSize < indexLimit)
    (hmeas : capacity.maxMeasSize < indexLimit) (A : Arithmetic) {vs : List Variable}
    (hvs : Within vars vs) {system : LiveSystem} {assembler : GlobalAssembler}
    (hboth : Assembled capacity vs system assembler) {H : MatrixXd} (res : VectorXd)
    {us : List Variable} (hus : us ⊆ vars) (hcols : total us = H.cols) (hpos : 0 < H.rows)
    (hres : res.rows = H.rows) (hfit : assembler.H.rows + H.rows ≤ capacity.maxMeasSize) :
    ∃ system' assembler', system.appendFeature capacity H res (us.map some) = .ok system' ∧
      assembler.append A H res (localLayoutOf us) = some assembler' ∧
      assembler'.H.rows = assembler.H.rows + H.rows ∧
      Assembled capacity (enteredAll vs us) system' assembler' ∧
      system'.retainedGamma = system.retainedGamma ∧
      system'.retainedGammaAvailable = system.retainedGammaAvailable := by
  have hvs' : Within vars (enteredAll vs us) := hvs.enteredAll us hus
  have husIn : us ⊆ enteredAll vs us := fun u hu => mem_enteredAll_of_mem hu
  have htotal := hvs'.total_le
  have hgrows : assembler.H.rows + H.rows < indexLimit := by omega
  have hgcols : total (enteredAll vs us) < indexLimit := by omega
  have hrowsNat : system.ctMeas.toNat = assembler.H.rows := by rw [hboth.measurements, Int.toNat_natCast]
  -- the live side
  have hadd : addEigenIndex system.ctMeas res.rows "UpdaterMSCKF measurement row count overflows" =
      .ok ((assembler.H.rows + H.rows : Nat) : Int) := by
    rw [hboth.measurements, addEigenIndex, addIndex, if_neg (by omega), hres]
    rfl
  have hlive : LiveSystem.appendVariables capacity H system 0 (us.map some) = .ok
      ({ system with
          Hx_big := placeAll (enteredAll vs us) assembler.H.rows H system.Hx_big (placements 0 us) }.ordered
            (enteredAll vs us), (H.cols : Int)) := by
    have := appendVariables_ordered h hroom hlimit H us hus system hvs (c := 0) (by omega) hboth.big_cols
    rw [← hboth.ordered, hrowsNat, Nat.zero_add, hcols] at this
    exact this
  have happend : system.appendFeature capacity H res (us.map some) = .ok
      { { system with
          Hx_big := placeAll (enteredAll vs us) assembler.H.rows H system.Hx_big (placements 0 us) }.ordered
            (enteredAll vs us) with
        res_big := system.res_big.setSegment assembler.H.rows H.rows res.coeff
        ctMeas := (assembler.H.rows + H.rows : Nat) } := by
    simp only [LiveSystem.appendFeature, hadd, bind, Except.bind, pure, Except.pure]
    rw [if_neg (by omega), if_neg (by omega), hlive]
    simp only [ne_eq, not_true_eq_false, if_false, LiveSystem.ordered, hrowsNat, hres]
  have hshadow := append_laidOut h A hvs hboth.layout hboth.cols hus hcols hpos hres (by omega) hgrows
  refine ⟨_, _, happend, hshadow, ?_, ?_, rfl, rfl⟩
  · rw [rows_placeAll, rows_grown hgrows hgcols]
  have hin : ∀ p ∈ placements 0 us, p.1 ∈ enteredAll vs us := fun p hp =>
    husIn (mem_of_mem_placements hp).1
  have hmono : total vs ≤ total (enteredAll vs us) := by
    obtain ⟨ws, hws⟩ := enteredAll_eq_append us vs
    rw [hws, total_append]
    omega
  have hbigRows := hboth.big_rows
  have hbigCols := hboth.big_cols
  refine {
    ordered := rfl
    measurements := ?_
    rows_le := ?_
    big_rows := ?_
    big_cols := ?_
    res_rows := ?_
    cols := ?_
    residual_rows := ?_
    layout := rfl
    agree := ?_
    zero := ?_
    residual := ?_ }
  all_goals simp only [rows_placeAll, cols_placeAll, rows_grown hgrows hgcols,
    cols_grown hgrows hgcols, VectorXd.rows_setSegment, LiveSystem.ordered]
  · exact hfit
  · exact hboth.big_rows
  · exact hboth.big_cols
  · exact hboth.res_rows
  · exact VectorXd.rows_ofFn hgrows
  · intro i j hi hj
    refine coeff_placeAll_congr _ (by omega) (by omega) ?_ ?_ ?_
    · rwa [rows_grown hgrows hgcols]
    · rwa [cols_grown hgrows hgcols]
    · rw [coeff_grown hgrows hgcols rfl hi hj, hboth.cols]
      split
      · rename_i hold
        exact hboth.agree i j hold.1 hold.2
      · rename_i hnew
        exact hboth.zero i j (by omega) (by omega) (by omega)
  · intro i j hi hj hout
    rw [coeff_placeAll_of_outside (by omega) _ hin (by omega) (by omega)]
    exact hboth.zero i j hi hj (by omega)
  · intro i hi
    have hresRows := hboth.res_rows
    have hresize : (assembler.residual.conservativeResize (assembler.H.rows + H.rows)
        (A.storage 0)).rows = assembler.H.rows + H.rows := VectorXd.rows_ofFn hgrows
    rw [VectorXd.coeff_setSegment (by omega), VectorXd.coeff_setSegment (by omega)]
    split
    · rfl
    · rename_i hold
      have hi' : i < assembler.H.rows := by omega
      rw [hboth.residual i hi', VectorXd.conservativeResize, VectorXd.coeff_ofFn hgrows hi,
        if_pos (by rw [hboth.residual_rows]; exact hi')]

theorem Assembled.trim_eq (A : Arithmetic) {vs : List Variable} {system : LiveSystem}
    {assembler : GlobalAssembler} (hboth : Assembled capacity vs system assembler)
    (hle : total vs ≤ capacity.maxHxSize) : system.trim A = (assembler.H, assembler.residual) := by
  have hrows : system.ctMeas.toNat = assembler.H.rows := by
    rw [hboth.measurements, Int.toNat_natCast]
  have hcols : system.ctJacob.toNat = assembler.H.cols := by
    rw [hboth.ordered, hboth.cols]
    exact Int.toNat_natCast _
  have hbigRows := hboth.big_rows
  have hbigCols := hboth.big_cols
  have hresRows := hboth.res_rows
  have hrowsLe := hboth.rows_le
  have hcolsEq := hboth.cols
  rw [LiveSystem.trim, hrows, hcols]
  refine Prod.ext ?_ ?_
  · refine ext_coeff (rows_ofFn assembler.H.rows_lt assembler.H.cols_lt)
      (cols_ofFn assembler.H.rows_lt assembler.H.cols_lt) fun i j hi hj => ?_
    rw [conservativeResize, rows_ofFn assembler.H.rows_lt assembler.H.cols_lt] at hi
    rw [conservativeResize, cols_ofFn assembler.H.rows_lt assembler.H.cols_lt] at hj
    rw [conservativeResize, coeff_ofFn assembler.H.rows_lt assembler.H.cols_lt hi hj,
      if_pos (by omega)]
    exact hboth.agree i j hi (by omega)
  · refine VectorXd.ext_coeff ?_ fun i hi => ?_
    · exact (VectorXd.rows_ofFn assembler.H.rows_lt).trans hboth.residual_rows.symm
    · rw [VectorXd.conservativeResize, VectorXd.rows_ofFn assembler.H.rows_lt] at hi
      rw [VectorXd.conservativeResize, VectorXd.coeff_ofFn assembler.H.rows_lt hi, if_pos (by omega)]
      exact hboth.residual i hi

end SideBySide

end Bravo.Updater
