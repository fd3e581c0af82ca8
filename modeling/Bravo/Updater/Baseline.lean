import Bravo.Updater.Assembly
import Bravo.Updater.Update

/-! # The live baseline and the shadow's

In nullspace mode the feature loop of `update` and the nullspace half of `CP2ShadowMath::Process` are
two programs for one result. The module takes a feature through both: the reduction (`Reduces`), the
gate, the sum of the gammas and the assembly (`Assembled.append`), and carries the agreement through
the loop (`LoopAt`). A system whose statistics are not finite takes different branches in the two, and
the same way out.
-/

namespace Bravo.Updater

open Bravo.Trace Bravo.Journal Bravo.Shadow List

variable {σ : Type}

/-! ## One reduction -/

section Reduction

variable {A : Arithmetic}

/-- The squared norm of a vector that is not finite is not finite. -/
def NormPropagates (A : Arithmetic) : Prop :=
  ∀ v : VectorXd, v.allFinite = false → (A.squaredNorm v).isFinite = false

def GammaMatches (shadow live : Binary64) : Prop :=
  shadow = live ∨ (shadow.isFinite = false ∧ live.isFinite = false)

/-- The shadow's reduction against the live one. -/
structure Reduces (r : Reduced) (n : NullspaceReduction) : Prop where
  emitted : n.emittedSystemAvailable = true
  H : n.H_reduced = r.H
  residual : n.residualReduced = r.residual
  evidence : n.accepted = r.evidence
  gamma : r.H.allFinite = true → r.residual.allFinite = true → GammaMatches n.modeGamma r.gamma

theorem reduceStatistics_frame (n : NullspaceReduction) (whitened : MatrixXd) (b : VectorXd) :
    let m := (reduceStatistics A n whitened b).1
    m.emittedSystemAvailable = n.emittedSystemAvailable ∧ m.H_reduced = n.H_reduced ∧
      m.residualReduced = n.residualReduced ∧ m.modeGamma = n.modeGamma ∧
      m.modeGammaAvailable = n.modeGammaAvailable := by
  unfold reduceStatistics
  simp only
  split_ifs <;> exact ⟨rfl, rfl, rfl, rfl, rfl⟩

theorem reduceGamma_frame (n : NullspaceReduction × Bool) (b : VectorXd) :
    let m := reduceGamma A n b
    m.emittedSystemAvailable = n.1.emittedSystemAvailable ∧ m.H_reduced = n.1.H_reduced ∧
      m.residualReduced = n.1.residualReduced ∧
      m.modeGamma = (if b.allFinite then A.squaredNorm b else n.1.modeGamma) ∧
      m.modeGammaAvailable =
        (if b.allFinite then (A.squaredNorm b).isFinite else n.1.modeGammaAvailable) := by
  unfold reduceGamma
  simp only
  cases b.allFinite with
  | false => exact ⟨rfl, rfl, rfl, rfl, rfl⟩
  | true =>
    simp only [if_true]
    split_ifs <;> exact ⟨rfl, rfl, rfl, rfl, rfl⟩

theorem reduces_of_shape (hnorm : NormPropagates A) (raw : CP2RawFeatureSystem) (sigma : Binary64)
    (hcols : raw.H_f.cols = 3) (hx : raw.H_x.rows = raw.H_f.rows)
    (hres : raw.residual.rows = raw.H_f.rows) (hrows : 4 ≤ raw.H_f.rows) :
    Reduces (nullspaceReduced A sigma (nullspaceProject A raw.H_f raw.H_x raw.residual))
      (reduceNullspace A raw sigma) := by
  have hlt : raw.H_f.rows - 3 < indexLimit := lt_of_le_of_lt (Nat.sub_le _ _) raw.H_f.rows_lt
  set p := nullspaceProject A raw.H_f raw.H_x raw.residual with hp
  have hp1 : p.1.rows = raw.H_f.rows - 3 := by
    rw [hp, nullspaceProject, hcols, hx]
    exact MatrixXd.rows_ofFn hlt raw.H_x.cols_lt
  have hp2 : p.2.rows = raw.H_f.rows - 3 := by
    rw [hp, nullspaceProject, hcols, hres]
    exact VectorXd.rows_ofFn hlt
  have hpc : p.1.cols = raw.H_x.cols := by
    rw [hp, nullspaceProject, hcols, hx]
    exact MatrixXd.cols_ofFn hlt raw.H_x.cols_lt
  unfold reduceNullspace
  simp only [← hp]
  rw [if_neg (by omega), if_neg (by omega)]
  by_cases hfinite : (p.1.allFinite && p.2.allFinite) = true
  · have hboth := hfinite
    rw [Bool.and_eq_true] at hboth
    rw [if_neg (by simp [hboth.1, hboth.2])]
    set base : NullspaceReduction := {
      rawRows := Int64.ofNat raw.H_f.rows
      reducedRows := Int64.ofNat p.1.rows
      emittedSystemAvailable := true
      H_reduced := p.1
      residualReduced := p.2 } with hbase
    set b := whitenVector A p.2 sigma with hb
    obtain ⟨hs1, hs2, hs3, hs4, hs5⟩ := reduceStatistics_frame (A := A) base (whitenMatrix A p.1 sigma) b
    obtain ⟨hg1, hg2, hg3, hg4, hg5⟩ :=
      reduceGamma_frame (reduceStatistics A base (whitenMatrix A p.1 sigma) b) b
    set n := reduceGamma A (reduceStatistics A base (whitenMatrix A p.1 sigma) b) b with hn
    have hgamma : GammaMatches n.modeGamma (A.squaredNorm b) := by
      rw [hg4, hs4]
      cases hfin : b.allFinite with
      | true => exact Or.inl rfl
      | false => exact Or.inr ⟨(by decide : quietNaN.isFinite = false), hnorm b hfin⟩
    have havailable : n.modeGammaAvailable = (b.allFinite && (A.squaredNorm b).isFinite) := by
      rw [hg5, hs5]
      cases b.allFinite <;> rfl
    have hevidence : (nullspaceReduced A sigma p).evidence = n.modeGammaAvailable := by
      rw [havailable]
      show (p.1.allFinite && p.2.allFinite && b.allFinite && (A.squaredNorm b).isFinite) = _
      rw [hfinite, Bool.true_and]
    have hn1 : n.emittedSystemAvailable = true := hg1.trans hs1
    have hn2 : n.H_reduced = p.1 := hg2.trans hs2
    have hn3 : n.residualReduced = p.2 := hg3.trans hs3
    -- without a finite gamma the reduction is emitted, but it is no evidence
    split
    · rename_i hnone
      have hunavailable : n.modeGammaAvailable = false := by simpa using hnone
      refine ⟨hn1, hn2, hn3, ?_, fun _ _ => hgamma⟩
      rw [hevidence, hunavailable]
      rfl
    · rename_i hsome
      refine ⟨hn1, hn2, hn3, ?_, fun _ _ => hgamma⟩
      rw [hevidence]
      simpa [NullspaceReduction.accepted] using hsome
  · have hnot : (!p.1.allFinite || !p.2.allFinite) = true := by
      rw [← Bool.not_and, Bool.not_eq_true']
      exact eq_false_of_ne_true hfinite
    rw [if_pos hnot]
    refine ⟨rfl, rfl, rfl, ?_, fun h1 h2 => absurd (by rw [Bool.and_eq_true]; exact ⟨h1, h2⟩) hfinite⟩
    have hfalse : (p.1.allFinite && p.2.allFinite) = false := eq_false_of_ne_true hfinite
    simp [nullspaceReduced, NullspaceReduction.accepted, hfalse]

end Reduction

/-! ## One feature -/

def shadowInputOf (options : UpdaterOptions) (table : ChiSquaredTable)
    (prior : MSCKFUpdatePreviewSnapshot) (raws : List CP2RawFeatureSystem) : CP2ShadowMathInput where
  prior := prior
  rawSystems := raws
  sigmaPx := options.sigmaPix
  sigmaPxSq := options.sigmaPixSq
  chi2Multiplier := options.chi2Multiplier
  chiSquaredTable := table

/-- What `get_feature_jacobian_full` returns for a feature: two rows for each measurement, and the
columns of distinct variables of the state. -/
structure Linearizes (vars : List Variable) (f : Feature) (l : Linearization)
    (us : List Variable) : Prop where
  H_f_rows : l.H_f.rows = 2 * f.measurementCount
  enough : 4 ≤ l.H_f.rows
  H_f_cols : l.H_f.cols = 3
  H_x_rows : l.H_x.rows = l.H_f.rows
  res_rows : l.res.rows = l.H_f.rows
  order : l.Hx_order = us.map some
  nodup : us.Nodup
  subset : us ⊆ vars
  H_x_cols : l.H_x.cols = total us

section Feature

variable {A : Arithmetic} {options : UpdaterOptions} {table : ChiSquaredTable}
variable {prior : MSCKFUpdatePreviewSnapshot} {vars landmarks : List Variable}

theorem finite_of_lifecycleAccept {input : CP2FeatureGateInput}
    (h : (evaluate A input table).lifecycleAccept = true) :
    input.H.allFinite = true ∧ input.residual.allFinite = true := by
  rw [lifecycleAccept_evaluate_eq, Bool.and_eq_true] at h
  obtain ⟨-, h⟩ := h
  cases hstat : gateStatistic A input with
  | error stage =>
    rw [hstat] at h
    cases h
  | ok chi2 =>
    unfold gateStatistic at hstat
    simp only at hstat
    split_ifs at hstat with h1 h2 h3 h4 h5
    rw [not_or, not_or, not_or, not_or, not_or, not_or, not_or, not_or] at h3
    exact ⟨by simpa using h3.2.2.2.2.2.2.1, by simpa using h3.2.2.2.2.2.2.2.1⟩

theorem rawLayoutBlocksValid_placements (h : StateVariables prior vars landmarks) {cols : Nat}
    (hcols : cols < indexLimit) (us : List Variable) :
    ∀ (before : List Variable) (c : Nat), (before ++ us).Nodup → before ++ us ⊆ vars →
      c + total us = cols →
      ∀ previous : List CP2FeatureGateLayoutBlock,
        (∀ b ∈ previous, ∃ w ∈ before, b.covarianceId = w.id ∧ b.size = w.size) →
        rawLayoutBlocksValid cols prior previous c
          ((placements c us).map fun p => ⟨p.1.id, p.1.size, Int64.ofInt p.2⟩) = true := by
  induction us with
  | nil =>
    intro before c _ _ hc previous _
    simpa [rawLayoutBlocksValid, placements] using hc
  | cons u us ih =>
    intro before c hnodup hsub hc previous hprevious
    have hu : u ∈ vars := hsub (by simp)
    have hwidth := h.width_eq hu
    have hcols' : cols < 2 ^ 63 := hcols
    have hcov := prior.covariance.rows_lt
    obtain ⟨hid, hpos, hend⟩ := h.bounds hu
    rw [total_cons] at hc
    have hoffset : (Int64.ofInt (c : Int)).toInt = c :=
      Int64.toInt_ofInt_of_le (by omega) (by omega)
    have hblock : (prior.stateBlocks.any fun s =>
        u.id.toInt == s.covarianceId && u.size.toInt == s.size) = true := by
      obtain ⟨b, hb, hbid, hbsize⟩ := h.blocks u (mem_append_left _ hu)
      exact any_eq_true.mpr ⟨b, hb, by simp [hbid, hbsize]⟩
    have hrange : addIndex u.id.toInt u.size.toInt = some (u.id.toInt + u.size.toInt) := by
      rw [addIndex, if_neg (by omega)]
    have hapart : (previous.any fun p =>
        (addIndex p.covarianceId.toInt p.size.toInt).isNone ||
          rangesMeet u.id.toInt u.size.toInt p.covarianceId.toInt p.size.toInt) = false := by
      rw [any_eq_false]
      intro b hb
      obtain ⟨w, hw, hwid, hwsize⟩ := hprevious b hb
      have hwvars : w ∈ vars := hsub (mem_append_left _ hw)
      obtain ⟨hwlow, hwpos, hwend⟩ := h.bounds hwvars
      have hne : u ≠ w := by
        rintro rfl
        exact (nodup_append.mp hnodup).2.2 u hw u mem_cons_self rfl
      have hknown : addIndex w.id.toInt w.size.toInt = some (w.id.toInt + w.size.toInt) := by
        rw [addIndex, if_neg (by omega)]
      rw [hwid, hwsize, hknown, h.disjoint hu hwvars hne]
      simp
    have hadd : addIndex c u.size.toInt = some ((c + u.width : Nat) : Int) := by
      rw [addIndex, if_neg (by omega)]
      simp only [Option.some.injEq, Nat.cast_add]
      omega
    rw [placements, map_cons, rawLayoutBlocksValid]
    simp only [hoffset, hblock, hrange, hapart, hadd, Option.isNone_some, Bool.not_true,
      Bool.false_eq_true, if_false]
    rw [if_neg (by omega)]
    refine ih (before ++ [u]) (c + u.width) ?_ ?_ (by omega) _ fun b hb => ?_
    · rwa [append_assoc, singleton_append]
    · rwa [append_assoc, singleton_append]
    · rcases mem_append.mp hb with hb | hb
      · obtain ⟨w, hw, hwid⟩ := hprevious b hb
        exact ⟨w, mem_append_left _ hw, hwid⟩
      · rw [mem_singleton] at hb
        exact ⟨u, by simp, by rw [hb], by rw [hb]⟩

def rawSystemOf (f : Feature) (l : Linearization) (us : List Variable) : CP2RawFeatureSystem :=
  ⟨f.featid, l.H_x, l.H_f, l.res, localLayoutOf us⟩

theorem rawLayoutIsValid_of_linearizes (h : StateVariables prior vars landmarks) {f : Feature}
    {l : Linearization} {us : List Variable} (hl : Linearizes vars f l us) :
    rawLayoutIsValid (rawSystemOf f l us) prior = true :=
  rawLayoutBlocksValid_placements h l.H_x.cols_lt us [] 0 (by simpa using hl.nodup)
    (by simpa using hl.subset) (by rw [hl.H_x_cols, Nat.zero_add]) [] (by simp)

def liveReduced (A : Arithmetic) (options : UpdaterOptions) (l : Linearization) : Reduced :=
  nullspaceReduced A options.sigmaPix (nullspaceProject A l.H_f l.H_x l.res)

def liveGate (A : Arithmetic) (options : UpdaterOptions) (table : ChiSquaredTable)
    (prior : MSCKFUpdatePreviewSnapshot) (l : Linearization) (us : List Variable) :
    CP2FeatureGateResult :=
  evaluate A (liveGateInput options prior (liveReduced A options l) (localLayoutOf us)) table

variable (schurReduce : MatrixXd → MatrixXd → VectorXd → Binary64 → SchurReduction)

theorem rawLayoutValid_processFeature (raws : List CP2RawFeatureSystem) {raw : CP2RawFeatureSystem}
    (hvalid : rawLayoutIsValid raw prior = true) :
    (Shadow.processFeature A (shadowPaths A schurReduce) (shadowInputOf options table prior raws)
      raw).rawLayoutValid = true := by
  have hrows : checkedIndexToU64 (Int64.ofNat raw.H_f.rows) =
      some (Int64.ofNat raw.H_f.rows).toUInt64 := by
    have hlt : raw.H_f.rows < 2 ^ 63 := raw.H_f.rows_lt
    have hint : (Int64.ofNat raw.H_f.rows).toInt = raw.H_f.rows := Int64.toInt_ofNat_of_lt hlt
    rw [checkedIndexToU64, if_neg (by omega)]
  set pair := Shadow.processFeature A (shadowPaths A schurReduce)
    (shadowInputOf options table prior raws) raw with hpair
  show (rawLayoutIsValid raw prior && Option.isSome (if matchingAgreement pair.agreementClass then
    checkedIndexToU64 (Int64.ofNat raw.H_f.rows) else some 0)) = true
  rw [hvalid, Bool.true_and]
  split
  · rw [hrows]
    rfl
  · rfl

variable (options table) in
theorem nullspaceSystem_processFeature (h : StateVariables prior vars landmarks)
    (hnorm : NormPropagates A) {f : Feature} {l : Linearization} {us : List Variable}
    (hl : Linearizes vars f l us) (raws : List CP2RawFeatureSystem) :
    ∃ gamma, nullspaceSystem (rawSystemOf f l us) (Shadow.processFeature A (shadowPaths A schurReduce)
        (shadowInputOf options table prior raws) (rawSystemOf f l us)) =
          (if (liveGate A options table prior l us).lifecycleAccept then
            some ⟨f.featid, gamma, (liveReduced A options l).H, (liveReduced A options l).residual,
              localLayoutOf us⟩
          else none) ∧
      ((liveGate A options table prior l us).lifecycleAccept = true →
        GammaMatches gamma (liveReduced A options l).gamma) := by
  have hred : Reduces (liveReduced A options l)
      (reduceNullspace A (rawSystemOf f l us) options.sigmaPix) :=
    reduces_of_shape hnorm (rawSystemOf f l us) options.sigmaPix hl.H_f_cols hl.H_x_rows hl.res_rows hl.enough
  have hvalid := rawLayoutIsValid_of_linearizes h hl
  set n := reduceNullspace A (rawSystemOf f l us) options.sigmaPix with hn
  refine ⟨n.modeGamma, ?_, fun haccept => ?_⟩
  · have hinput : nullspaceGateInput (shadowInputOf options table prior raws) (rawSystemOf f l us)
        true n = liveGateInput options prior (liveReduced A options l) (localLayoutOf us) := by
      unfold nullspaceGateInput
      rw [hred.emitted, hred.evidence, hred.H, hred.residual]
      unfold gateInput liveGateInput
      cases (liveReduced A options l).evidence <;> rfl
    set pair := Shadow.processFeature A (shadowPaths A schurReduce)
      (shadowInputOf options table prior raws) (rawSystemOf f l us) with hpair
    have hgate : pair.nullspaceGate = liveGate A options table prior l us := by
      show evaluate A (nullspaceGateInput (shadowInputOf options table prior raws)
        (rawSystemOf f l us) (rawLayoutIsValid (rawSystemOf f l us) prior) n) table = _
      rw [hvalid, hinput, liveGate]
    have hlayout : pair.rawLayoutValid = true :=
      rawLayoutValid_processFeature schurReduce raws hvalid
    have hnullspace : pair.nullspace = n := rfl
    have hid : pair.featureId = f.featid := rfl
    rw [nullspaceSystem, hlayout, hnullspace, hred.emitted, hgate, hid, hred.H, hred.residual]
    cases (liveGate A options table prior l us).lifecycleAccept <;> rfl
  · obtain ⟨hH, hres⟩ := finite_of_lifecycleAccept haccept
    exact hred.gamma hH hres

end Feature

/-! ## The traversal -/

section Traversal

variable (A : Arithmetic) (schurReduce : MatrixXd → MatrixXd → VectorXd → Binary64 → SchurReduction)
variable (options : UpdaterOptions) (table : ChiSquaredTable) (prior : MSCKFUpdatePreviewSnapshot)

/-- The nullspace mode of the shadow after the raw systems `raws`. -/
def traversal (raws : List CP2RawFeatureSystem) : ModeTraversal :=
  (acceptedSystems nullspaceSystem raws (raws.map (Shadow.processFeature A (shadowPaths A schurReduce)
    (shadowInputOf options table prior raws)))).foldl (ModeTraversal.accept A) .start

theorem acceptedSystems_map (select : CP2RawFeatureSystem → FeaturePair → Option AcceptedSystem)
    (g : CP2RawFeatureSystem → FeaturePair) (raws : List CP2RawFeatureSystem) :
    acceptedSystems select raws (raws.map g) = raws.filterMap fun raw => select raw (g raw) := by
  unfold acceptedSystems
  induction raws with
  | nil => rfl
  | cons raw raws ih =>
    rw [map_cons, zip_cons_cons, filterMap_cons, filterMap_cons, ih]

theorem traversal_append (raws : List CP2RawFeatureSystem) (raw : CP2RawFeatureSystem) :
    traversal A schurReduce options table prior (raws ++ [raw]) =
      match nullspaceSystem raw (Shadow.processFeature A (shadowPaths A schurReduce)
        (shadowInputOf options table prior raws) raw) with
      | some system => (traversal A schurReduce options table prior raws).accept A system
      | none => traversal A schurReduce options table prior raws := by
  -- a feature does not see the other raw systems of the input
  have hinput : (fun raw' => nullspaceSystem raw' (Shadow.processFeature A
      (shadowPaths A schurReduce) (shadowInputOf options table prior (raws ++ [raw])) raw')) =
      fun raw' => nullspaceSystem raw' (Shadow.processFeature A (shadowPaths A schurReduce)
        (shadowInputOf options table prior raws) raw') := rfl
  rw [traversal, traversal, acceptedSystems_map, acceptedSystems_map, hinput, filterMap_append,
    foldl_append]
  cases hsystem : nullspaceSystem raw (Shadow.processFeature A (shadowPaths A schurReduce)
      (shadowInputOf options table prior raws) raw) with
  | some system => simp [hsystem]
  | none => simp [hsystem]

end Traversal

structure GammasAgree (system : LiveSystem) (mode : GlobalMode) : Prop where
  status : mode.gammaStatus = if system.retainedGammaAvailable then .kAvailable else .kNonfinite
  value : system.retainedGammaAvailable = true → mode.retainedGamma = system.retainedGamma

variable {system : LiveSystem}

theorem GammasAgree.add {A : Arithmetic} {mode : GlobalMode}
    (h : GammasAgree system mode) {shadow live : Binary64} (hgamma : GammaMatches shadow live) :
    GammasAgree (system.addGamma A live) (accumulateGamma A mode shadow) := by
  unfold LiveSystem.addGamma accumulateGamma
  cases havailable : system.retainedGammaAvailable with
  | false =>
    have hstatus := h.status
    rw [havailable] at hstatus
    simp only [Bool.false_eq_true, if_false] at hstatus
    simp only [hstatus, Bool.not_false, if_true]
    refine ⟨?_, fun htrue => ?_⟩
    · rw [hstatus, havailable]
      rfl
    · rw [havailable] at htrue
      cases htrue
  | true =>
    have hstatus := h.status
    rw [havailable] at hstatus
    simp only [if_true] at hstatus
    have hvalue := h.value havailable
    have hne : ¬ mode.gammaStatus = .kNonfinite := by rw [hstatus]; decide
    simp only [Bool.not_true, Bool.false_eq_true, if_false, hne]
    rcases hgamma with rfl | ⟨hshadow, hlive⟩
    · rw [hvalue]
      split
      · exact ⟨rfl, fun h => by cases h⟩
      · exact ⟨hstatus, fun _ => rfl⟩
    · rw [hshadow, hlive]
      exact ⟨rfl, fun h => by cases h⟩

theorem acceptedIds_accumulateGamma (A : Arithmetic) (mode : GlobalMode) (gamma : Binary64) :
    (accumulateGamma A mode gamma).acceptedIds = mode.acceptedIds := by
  unfold accumulateGamma
  simp only
  split_ifs <;> rfl

theorem GammasAgree.withId {mode : GlobalMode} (h : GammasAgree system mode) (id : UInt64) :
    GammasAgree system { mode with acceptedIds := mode.acceptedIds ++ [id] } :=
  ⟨h.status, h.value⟩

theorem addGamma_frame (A : Arithmetic) (system : LiveSystem) (gamma : Binary64) :
    ∃ retained available, system.addGamma A gamma =
      { system with retainedGamma := retained, retainedGammaAvailable := available } := by
  unfold LiveSystem.addGamma
  simp only
  split
  · exact ⟨_, _, rfl⟩
  · split
    · exact ⟨_, _, rfl⟩
    · exact ⟨_, _, rfl⟩

theorem Assembled.addGamma {capacity : Capacity} {vs : List Variable}
    {assembler : GlobalAssembler} (h : Assembled capacity vs system assembler) (A : Arithmetic)
    (gamma : Binary64) : Assembled capacity vs (system.addGamma A gamma) assembler := by
  obtain ⟨retained, available, heq⟩ := addGamma_frame A system gamma
  rw [heq]
  refine ⟨?_, h.measurements, h.rows_le, h.big_rows, h.big_cols, h.res_rows, h.cols,
    h.residual_rows, h.layout, h.agree, h.zero, h.residual⟩
  rw [LiveSystem.ordered]
  conv_lhs => rw [h.ordered]
  rfl

/-! ## The loop -/

/-- The callees of a nullspace call on the features `fs`: the projection and the gate are the ones
that the shadow uses, and a Jacobian has the shape of its feature. -/
structure NullspaceCall (C : Callees σ) (options : UpdaterOptions) (table : ChiSquaredTable)
    (prior : MSCKFUpdatePreviewSnapshot) (vars landmarks : List Variable) (fs : List Feature) :
    Prop where
  mode : options.landmarkElimination = .NULLSPACE
  norm : NormPropagates C.arithmetic
  stateVariables : StateVariables prior vars landmarks
  jacobian : ∀ n, ∀ f ∈ fs, ∃ l us, C.jacobian n f = .ok l ∧ Linearizes vars f l us
  nullspace : ∀ n H_f H_x res,
    C.nullspace n H_f H_x res = .ok (nullspaceProject C.arithmetic H_f H_x res)
  gate : ∀ n input, C.gate n input = .ok (evaluate C.arithmetic input table)

/-- In recorded mode the captured prior is promoted and every raw system is encoded. -/
structure RecordedPrior (C : Callees σ) (prior : MSCKFUpdatePreviewSnapshot)
    (snapshot : CP2CompositeStateSnapshot) : Prop where
  capture : C.capture .kPhase0Prior = .ok (some snapshot)
  encode : ∃ payload, C.encodeSnapshot snapshot = .ok payload
  validate : C.validate snapshot = .ok true
  project : C.projectPreview snapshot = .ok (some prior)
  encodeRaw : ∀ raw, ∃ payload, C.encodeRawSystem raw = .ok payload

section Loop

variable {C : Callees σ} {options : UpdaterOptions} {table : ChiSquaredTable}
variable {prior : MSCKFUpdatePreviewSnapshot} {vars landmarks : List Variable} {fs : List Feature}
variable {snapshot : CP2CompositeStateSnapshot} {recorded : Bool} {capacity : Capacity}
variable {schurReduce : MatrixXd → MatrixXd → VectorXd → Binary64 → SchurReduction}

/-- What the loop knows about the prior: it is there, or recorded mode has captured and not yet
promoted it. -/
structure PriorAt (options : UpdaterOptions) (table : ChiSquaredTable)
    (prior : MSCKFUpdatePreviewSnapshot) (snapshot : CP2CompositeStateSnapshot) (recorded : Bool)
    (s : Call σ) : Prop where
  input : s.shadowInput = shadowInputOf options table s.shadowInput.prior s.shadowInput.rawSystems
  promoted : recorded = false ∨ s.phase0Promoted = true →
    s.priorSnapshot = prior ∧ s.shadowInput.prior = prior
  phase0 : recorded = true → s.phase0 = some snapshot

def loopFrame (s : Call σ) : (FeaturePtr → Feature) × LiveSystem × List UInt64 × CP2GammaStatus ×
    Option (List UInt8) :=
  (s.heap, s.system, s.event.baselineAcceptedIds, s.event.baselineGammaStatus,
    s.shadowProposalPayload)

variable {s : Call σ}

theorem wp_promotePhase0 (hrecorded : RecordedPrior C prior snapshot)
    (h : PriorAt options table prior snapshot true s) :
    wp (promotePhase0 C)
      (fun _ t => PriorAt options table prior snapshot true t ∧ t.phase0Promoted = true ∧
        loopFrame t = loopFrame s ∧ t.event = s.event ∧ t.record = s.record ∧
        t.shadowInput.rawSystems = s.shadowInput.rawSystems)
      (fun _ _ => False) s := by
  obtain ⟨payload, hpayload⟩ := hrecorded.encode
  simp only [promotePhase0, wp_bind, wp_get, h.phase0 rfl, hpayload, callOrLatch, call,
    hrecorded.validate, hrecorded.project, wp_pure, wp_modify, if_true]
  refine ⟨⟨?_, fun _ => ⟨rfl, rfl⟩, fun _ => rfl⟩, trivial, rfl, trivial, trivial, trivial⟩
  show { s.shadowInput with prior := prior } = _
  rw [h.input]
  rfl

/-- The raw system of a feature enters the input of the shadow, behind the promoted prior. -/
structure LinearizedAt (options : UpdaterOptions) (table : ChiSquaredTable)
    (prior : MSCKFUpdatePreviewSnapshot) (snapshot : CP2CompositeStateSnapshot) (recorded : Bool)
    (raw : CP2RawFeatureSystem) (s t : Call σ) : Prop where
  frame : loopFrame t = loopFrame s
  count : t.event.rawSystemCount = s.event.rawSystemCount + 1
  payloads : recorded = true →
    t.record.rawSystemPayloads.length = s.record.rawSystemPayloads.length + 1
  input : t.shadowInput =
    shadowInputOf options table prior (s.shadowInput.rawSystems ++ [raw])
  priorAt : PriorAt options table prior snapshot recorded t
  priorSnapshot : t.priorSnapshot = prior
  ready : recorded = false ∨ t.phase0Promoted = true

theorem wp_linearizeFeature_raw (hcall : NullspaceCall C options table prior vars landmarks fs)
    (hlimit : total vars < indexLimit)
    (hrecorded : recorded = true → RecordedPrior C prior snapshot) {f : Feature} (hf : f ∈ fs)
    (h : PriorAt options table prior snapshot recorded s)
    (hcount : s.event.rawSystemCount.toNat + 1 < 2 ^ 64) :
    wp (linearizeFeature C recorded true f)
      (fun r t => ∃ us, Linearizes vars f r.1 us ∧ r.2 = localLayoutOf us ∧
        LinearizedAt options table prior snapshot recorded (rawSystemOf f r.1 us) s t)
      (fun _ _ => False) s := by
  -- the linearization itself, from a state in which the prior is there
  have hrest : ∀ {t : Call σ}, PriorAt options table prior snapshot recorded t →
      (recorded = false ∨ t.phase0Promoted = true) → loopFrame t = loopFrame s →
      t.event = s.event → t.record = s.record →
      t.shadowInput.rawSystems = s.shadowInput.rawSystems →
      wp (do
        let n ← nextTick
        let l ← call (C.jacobian n f)
        let s ← get
        if s.event.rawSystemCount.toNat + 1 = 2 ^ 64 then throw (.fault .overflowError)
        else do
          modifyEvent fun event => { event with rawSystemCount := event.rawSystemCount + 1 }
          let layout ← checked (captureFeatureLayout l.Hx_order)
          onlyIf true (captureRawSystem C recorded ⟨f.featid, l.H_x, l.H_f, l.res, layout⟩)
          return (l, layout))
        (fun r u => ∃ us, Linearizes vars f r.1 us ∧ r.2 = localLayoutOf us ∧
          LinearizedAt options table prior snapshot recorded (rawSystemOf f r.1 us) s u)
        (fun _ _ => False) t := by
    intro t ht hready hframe hevent hrecord hraws
    obtain ⟨l, us, hl, hshape⟩ := hcall.jacobian t.tick f hf
    have htotal : total us < indexLimit := by
      have hwithin : Within vars us := ⟨hshape.nodup, hshape.subset⟩
      exact lt_of_le_of_lt hwithin.total_le hlimit
    have hlayout := captureFeatureLayout_eq hcall.stateVariables hshape.subset htotal
    obtain ⟨hprior, hinput⟩ := ht.promoted hready
    simp only [nextTick, wp_bind, wp_get, wp_modify, wp_pure, hl, call]
    rw [if_neg (by rw [hevent]; omega)]
    simp only [modifyEvent, wp_bind, wp_modify, hshape.order, hlayout, checked, wp_pure, onlyIf,
      if_true, captureRawSystem]
    have hdone : ∀ record : CP2RecordedUpdateEvent, (recorded = true →
          record.rawSystemPayloads.length = t.record.rawSystemPayloads.length + 1) →
        ∃ us', Linearizes vars f l us' ∧ localLayoutOf us = localLayoutOf us' ∧
          LinearizedAt options table prior snapshot recorded (rawSystemOf f l us') s
            { t with
              tick := t.tick + 1
              event := { t.event with rawSystemCount := t.event.rawSystemCount + 1 }
              record := record
              shadowInput := { t.shadowInput with
                rawSystems := t.shadowInput.rawSystems ++
                  [⟨f.featid, l.H_x, l.H_f, l.res, localLayoutOf us⟩] } } := by
      intro record hpayloads
      have hnew : ({ t.shadowInput with
          rawSystems := t.shadowInput.rawSystems ++
            [⟨f.featid, l.H_x, l.H_f, l.res, localLayoutOf us⟩] } : CP2ShadowMathInput) =
          shadowInputOf options table prior (s.shadowInput.rawSystems ++ [rawSystemOf f l us]) := by
        rw [ht.input, hinput, hraws]
        rfl
      refine ⟨us, hshape, rfl, hframe, ?_, hrecord ▸ hpayloads, hnew, ⟨?_, fun _ => ⟨hprior, hinput⟩, ht.phase0⟩, hprior,
        hready⟩
      · rw [hevent]
      · simp only
        rw [hnew, hinput, hraws]
        rfl
    cases recorded with
    | false =>
      simp only [Bool.false_eq_true, if_false, wp_pure]
      exact hdone t.record fun htrue => by cases htrue
    | true =>
      obtain ⟨payload, hpayload⟩ := (hrecorded rfl).encodeRaw
        ⟨f.featid, l.H_x, l.H_f, l.res, localLayoutOf us⟩
      simp only [if_true, wp_bind, wp_pure, wp_modify, hpayload, callOrLatch, modifyRecord]
      exact hdone _ fun _ => by rw [length_append]; rfl
  unfold linearizeFeature
  rw [wp_bind, wp_get, wp_bind, wp_onlyIf]
  refine ⟨fun hdue => ?_, fun hdone => ?_⟩
  · have htrue : recorded = true := by
      cases recorded with
      | false => cases hdue
      | true => rfl
    subst htrue
    refine wp_mono (wp_promotePhase0 (hrecorded rfl) h) (fun _ t ht => ?_) (fun _ _ he => he)
    obtain ⟨hprior, hpromoted, hframe, hevent, hrecord, hraws⟩ := ht
    exact hrest hprior (Or.inr hpromoted) hframe hevent hrecord hraws
  · refine hrest h ?_ rfl rfl rfl rfl
    cases recorded with
    | false => exact Or.inl rfl
    | true => exact Or.inr (by simpa using hdone)

/-- The two sides behind the features `done`, with the features `rest` still to come. -/
structure LoopAt (C : Callees σ) (options : UpdaterOptions) (table : ChiSquaredTable)
    (prior : MSCKFUpdatePreviewSnapshot) (vars : List Variable) (snapshot : CP2CompositeStateSnapshot)
    (recorded : Bool) (capacity : Capacity)
    (schurReduce : MatrixXd → MatrixXd → VectorXd → Binary64 → SchurReduction)
    (heap : FeaturePtr → Feature) (done rest : List FeaturePtr) (t : Call σ) : Prop where
  priorAt : PriorAt options table prior snapshot recorded t
  ready : done ≠ [] → recorded = false ∨ t.phase0Promoted = true
  heap_eq : ∀ p ∈ rest, t.heap p = heap p
  count : t.event.rawSystemCount.toNat = done.length
  ids : t.shadowInput.rawSystems.map CP2RawFeatureSystem.featureId =
    done.map fun p => (heap p).featid
  valid : ∀ raw ∈ t.shadowInput.rawSystems, rawLayoutIsValid raw prior = true
  accepted : (traversal C.arithmetic schurReduce options table prior
    t.shadowInput.rawSystems).mode.acceptedIds = t.event.baselineAcceptedIds
  gammas : GammasAgree t.system (traversal C.arithmetic schurReduce options table prior
    t.shadowInput.rawSystems).mode
  gammaStatus : t.event.baselineGammaStatus = .kNotReached
  payloads : recorded = true →
    t.record.rawSystemPayloads.length = t.shadowInput.rawSystems.length
  proposal : t.shadowProposalPayload = none
  assembled : ∃ vs assembler, Within vars vs ∧ (traversal C.arithmetic schurReduce options table prior
      t.shadowInput.rawSystems).assembler = some assembler ∧
    Assembled capacity vs t.system assembler ∧
    assembler.H.rows ≤ (done.map fun p => 2 * (heap p).measurementCount).sum

variable {heap : FeaturePtr → Feature}

theorem LoopAt.setProposalVec {done rest : List FeaturePtr}
    {t : Call σ} (h : LoopAt C options table prior vars snapshot recorded capacity schurReduce heap
      done rest t) (features : List FeaturePtr) :
    LoopAt C options table prior vars snapshot recorded capacity schurReduce heap done rest
      (t.setProposalVec features) := by
  unfold Call.setProposalVec
  cases t.batch <;> exact ⟨⟨h.priorAt.input, h.priorAt.promoted, h.priorAt.phase0⟩, h.ready,
    h.heap_eq, h.count, h.ids, h.valid, h.accepted, h.gammas, h.gammaStatus,
    h.payloads, h.proposal, h.assembled⟩

/-- What a loop of this kind needs: room for the rows and the columns. -/
structure Room (capacity : Capacity) (vars : List Variable) : Prop where
  rows : capacity.maxMeasSize < indexLimit
  cols : capacity.maxHxSize < indexLimit
  total : total vars ≤ capacity.maxHxSize

variable (options) in
theorem nullspaceReduced_rows {f : Feature} {l : Linearization} {us : List Variable} {A : Arithmetic}
    (hl : Linearizes vars f l us) :
    (liveReduced A options l).H.rows = l.H_f.rows - 3 ∧
      (liveReduced A options l).residual.rows = l.H_f.rows - 3 ∧
      (liveReduced A options l).H.cols = l.H_x.cols := by
  have hlt : l.H_f.rows - 3 < indexLimit := lt_of_le_of_lt (Nat.sub_le _ _) l.H_f.rows_lt
  unfold liveReduced nullspaceReduced nullspaceProject
  simp only [hl.H_f_cols, hl.H_x_rows, hl.res_rows]
  exact ⟨MatrixXd.rows_ofFn hlt l.H_x.cols_lt, VectorXd.rows_ofFn hlt,
    MatrixXd.cols_ofFn hlt l.H_x.cols_lt⟩

theorem reduceFeature_nullspace (hcall : NullspaceCall C options table prior vars landmarks fs)
    (n : Nat) (l : Linearization) :
    reduceFeature C options n l = .ok (some (liveReduced C.arithmetic options l)) := by
  rw [reduceFeature, hcall.mode]
  simp only [hcall.nullspace]
  rfl

/-- **One feature keeps the two sides together.** -/
theorem wp_processFeature_loop (hcall : NullspaceCall C options table prior vars landmarks fs)
    (hroom : Room capacity vars) (hrecorded : recorded = true → RecordedPrior C prior snapshot)
    {done rest : List FeaturePtr} {p : FeaturePtr} (hf : heap p ∈ fs)
    (hnew : p ∉ rest) (hlength : done.length + 1 < 2 ^ 64)
    (hrows : ((done ++ [p]).map fun q => 2 * (heap q).measurementCount).sum ≤ capacity.maxMeasSize)
    (h : LoopAt C options table prior vars snapshot recorded capacity schurReduce heap
      done (p :: rest) s) :
    wp (Updater.processFeature C options recorded true capacity p)
      (fun v t => v ≠ .leave ∧ LoopAt C options table prior vars snapshot recorded capacity
        schurReduce heap (done ++ [p]) rest t)
      (fun _ _ => False) s := by
  have hheap : s.heap p = heap p := h.heap_eq p mem_cons_self
  unfold Updater.processFeature
  rw [wp_bind, wp_get, hheap, wp_bind]
  refine wp_mono (wp_linearizeFeature_raw hcall (lt_of_le_of_lt hroom.total hroom.cols) hrecorded hf
    h.priorAt (by rw [h.count]; exact hlength)) (fun r t ht => ?_) (fun _ _ he => he)
  obtain ⟨l, layout⟩ := r
  obtain ⟨us, hl, rfl, ht⟩ := ht
  simp only at hl ht ⊢
  obtain ⟨hheapT, hrest⟩ := Prod.mk.inj ht.frame
  obtain ⟨hsystem, hrest⟩ := Prod.mk.inj hrest
  obtain ⟨hids, hrest⟩ := Prod.mk.inj hrest
  obtain ⟨hstatus, hproposal⟩ := Prod.mk.inj hrest
  have hraws : t.shadowInput.rawSystems =
      s.shadowInput.rawSystems ++ [rawSystemOf (heap p) l us] := by
    rw [ht.input]
    rfl
  have hpayloads : recorded = true →
      t.record.rawSystemPayloads.length = t.shadowInput.rawSystems.length := by
    intro htrue
    rw [ht.payloads htrue, h.payloads htrue, hraws, length_append]
    rfl
  obtain ⟨gamma, hshadow, hgamma⟩ := nullspaceSystem_processFeature (A := C.arithmetic)
    options table schurReduce hcall.stateVariables hcall.norm hl
    s.shadowInput.rawSystems
  have htraversal := traversal_append C.arithmetic schurReduce options table prior
    s.shadowInput.rawSystems (rawSystemOf (heap p) l us)
  rw [hshadow, ← hraws] at htraversal
  have hcount : t.event.rawSystemCount.toNat = (done ++ [p]).length := by
    have := h.count
    rw [ht.count, UInt64.toNat_add, this, length_append]
    exact Nat.mod_eq_of_lt (by simpa using hlength)
  have hfeatures : t.shadowInput.rawSystems.map CP2RawFeatureSystem.featureId =
      (done ++ [p]).map fun p => (heap p).featid := by
    rw [hraws, map_append, h.ids, map_append]
    rfl
  have hvalid : ∀ raw ∈ t.shadowInput.rawSystems, rawLayoutIsValid raw prior = true := by
    intro raw hraw
    rw [hraws] at hraw
    rcases mem_append.mp hraw with hraw | hraw
    · exact h.valid raw hraw
    · rw [mem_singleton.mp hraw]
      exact rawLayoutIsValid_of_linearizes hcall.stateVariables hl
  have hheap' : ∀ q ∈ rest, t.heap q = heap q := fun q hq => by
    rw [hheapT]
    exact h.heap_eq q (mem_cons_of_mem _ hq)
  obtain ⟨vs, assembler, hvs, hassembler, hboth, hused⟩ := h.assembled
  have hsum : ((done ++ [p]).map fun q => 2 * (heap q).measurementCount).sum =
      (done.map fun q => 2 * (heap q).measurementCount).sum + 2 * (heap p).measurementCount := by
    simp
  rw [if_neg (by rw [hcall.mode]; decide)]
  simp only [nextTick, wp_bind, wp_get, wp_modify, wp_pure, reduceFeature_nullspace hcall, call,
    hcall.gate]
  have hlive : evaluate C.arithmetic (liveGateInput options t.priorSnapshot
      (liveReduced C.arithmetic options l) (localLayoutOf us)) table =
      liveGate C.arithmetic options table prior l us := by
    rw [ht.priorSnapshot]
    rfl
  rw [hlive]
  cases haccept : (liveGate C.arithmetic options table prior l us).lifecycleAccept with
  | false =>
    -- rejected by both
    rw [haccept] at htraversal
    simp only [Bool.false_eq_true, if_false] at htraversal
    simp only [Bool.not_false, if_true, markDeleted, wp_bind, wp_modify, wp_pure]
    refine ⟨by decide, ⟨ht.priorAt.input, ht.priorAt.promoted, ht.priorAt.phase0⟩, fun _ => ht.ready,
      fun q hq => ?_, hcount, hfeatures, hvalid, ?_, ?_, hstatus.trans h.gammaStatus,
      hpayloads, hproposal.trans h.proposal, ?_⟩
    · have hne : q ≠ p := fun heq => hnew (heq ▸ hq)
      simp only [Function.update_of_ne hne]
      exact hheap' q hq
    · simp only [htraversal]
      exact h.accepted.trans hids.symm
    · simp only [htraversal, hsystem]
      exact h.gammas
    · simp only [htraversal, hsystem]
      exact ⟨vs, assembler, hvs, hassembler, hboth, by omega⟩
  | true =>
    rw [haccept] at htraversal
    simp only [if_true] at htraversal
    simp only [Bool.not_true, Bool.false_eq_true, if_false, acceptFeature, wp_bind, wp_modify, wp_get]
    obtain ⟨hHrows, hRrows, hHcols⟩ := nullspaceReduced_rows options
      (A := C.arithmetic) hl
    have henough := hl.enough
    have hfrows := hl.H_f_rows
    have hadded := hboth.addGamma C.arithmetic (liveReduced C.arithmetic options l).gamma
    obtain ⟨system', assembler', happend, hshadow', hrows', hboth', hgamma', havailable'⟩ :=
      hadded.append hcall.stateVariables hroom.total hroom.cols hroom.rows C.arithmetic hvs
        (H := (liveReduced C.arithmetic options l).H)
        (liveReduced C.arithmetic options l).residual hl.subset
        (by rw [hHcols]; exact hl.H_x_cols.symm) (by omega) (by omega) (by omega)
    rw [hsystem, hl.order, happend]
    simp only [checked, wp_pure]
    refine ⟨by decide, ⟨ht.priorAt.input, ht.priorAt.promoted, ht.priorAt.phase0⟩, fun _ => ht.ready,
      hheap', hcount, hfeatures, hvalid, ?_, ?_, hstatus.trans h.gammaStatus,
      hpayloads, hproposal.trans h.proposal, ?_⟩
    · simp only [htraversal, ModeTraversal.accept]
      rw [acceptedIds_accumulateGamma, ← hids.symm, ← h.accepted]
    · simp only [htraversal, ModeTraversal.accept]
      have hadd := (h.gammas.withId (heap p).featid).add (A := C.arithmetic) (hgamma haccept)
      exact ⟨by rw [havailable']; exact hadd.status, fun hsome => by
        rw [havailable'] at hsome
        rw [hgamma']
        exact hadd.value hsome⟩
    · simp only [htraversal, ModeTraversal.accept, hassembler]
      exact ⟨enteredAll vs us, assembler', hvs.enteredAll us hl.subset, hshadow', hboth', by omega⟩

theorem wp_sweep_loop (hcall : NullspaceCall C options table prior vars landmarks fs)
    (hroom : Room capacity vars) (hrecorded : recorded = true → RecordedPrior C prior snapshot)
    (rest : List FeaturePtr) :
    ∀ (kept done : List FeaturePtr) {s : Call σ}, (∀ p ∈ rest, heap p ∈ fs) → rest.Nodup →
      done.length + rest.length < 2 ^ 64 →
      ((done ++ rest).map fun q => 2 * (heap q).measurementCount).sum ≤ capacity.maxMeasSize →
      LoopAt C options table prior vars snapshot recorded capacity schurReduce heap done rest s →
      wp (sweep (Updater.processFeature C options recorded true capacity) kept rest)
        (fun complete t => complete = true ∧ LoopAt C options table prior vars snapshot recorded
          capacity schurReduce heap (done ++ rest) [] t)
        (fun _ _ => False) s := by
  induction rest with
  | nil =>
    intro kept done s _ _ _ _ h
    rw [append_nil]
    exact ⟨rfl, h⟩
  | cons p rest ih =>
    intro kept done s hfs hnodup hlength hrows h
    obtain ⟨hnew, hnodup⟩ := nodup_cons.mp hnodup
    rw [length_cons] at hlength
    have happend : done ++ p :: rest = (done ++ [p]) ++ rest := by simp
    have hpart : ((done ++ [p]).map fun q => 2 * (heap q).measurementCount).sum ≤
        capacity.maxMeasSize := by
      rw [happend, map_append, sum_append] at hrows
      omega
    rw [happend] at hrows ⊢
    have hnext := fun kept' {t : Call σ} => ih kept' (done ++ [p]) (s := t)
      (fun q hq => hfs q (mem_cons_of_mem _ hq)) hnodup
      (by rw [length_append, length_singleton]; omega) hrows
    rw [sweep, wp_bind]
    refine wp_mono (wp_processFeature_loop hcall hroom hrecorded (hfs p mem_cons_self) hnew
      (by omega) hpart h) (fun v t ht => ?_) (fun _ _ he => he)
    obtain ⟨hleave, ht⟩ := ht
    cases v with
    | keep => exact hnext (kept ++ [p]) ht
    | drop =>
      rw [wp_bind, wp_modify]
      exact hnext kept (ht.setProposalVec _)
    | leave => exact absurd rfl hleave

/-! ## The result of the shadow -/

/-- The nullspace half of the shadow against the live baseline. -/
structure SameBaseline (A : Arithmetic) (preview : Preview) (options : UpdaterOptions)
    (prior : MSCKFUpdatePreviewSnapshot) (result : ShadowResult) (t : Call σ) : Prop where
  valid : t.shadowInput.rawSystems ≠ [] → result.rawLayoutsValid = true ∧
    result.duplicateFeatureId = false ∧ result.nullspaceAssemblyValid = true
  acceptedIds : result.nullspace.acceptedIds = t.event.baselineAcceptedIds
  gammaStatus : result.nullspace.gammaStatus = t.event.baselineGammaStatus
  gamma : result.nullspace.gammaStatus = .kAvailable →
    result.nullspace.retainedGamma = t.event.baselineGamma
  precompressionRows : result.nullspace.precompressionRows.toInt = t.system.ctMeas
  empty : t.system.ctMeas < 1 →
    result.nullspace.compressedRows = 0 ∧ result.nullspace.proposalAvailable = false
  compressed : 1 ≤ t.system.ctMeas →
    let live := measurementCompress A (t.system.trim A).1 (t.system.trim A).2
    result.nullspace.compressedRows = Int64.ofNat live.1.rows ∧
      result.nullspace.H_compressed = live.1 ∧ result.nullspace.residualCompressed = live.2 ∧
      capturePreviewLayout t.system.Hx_order_big = .ok result.nullspace.jacobianLayout ∧
      (live.1.rows < 1 → result.nullspace.proposalAvailable = false) ∧
      (1 ≤ live.1.rows →
        result.nullspace.proposal = preview prior result.nullspace.jacobianLayout live.1 live.2
          (scaledIdentity A options.sigmaPixSq live.2.rows) ∧
        result.nullspace.proposalAvailable = result.nullspace.proposal.accepted)

def gammaNoted (t : Call σ) : Call σ :=
  if t.event.rawSystemCount = 0 then t
  else { t with event := { t.event with
    baselineGammaStatus := if t.system.retainedGammaAvailable then .kAvailable else .kNonfinite
    baselineGamma := t.system.retainedGamma } }

theorem gammaNoted_frame (t : Call σ) :
    (gammaNoted t).system = t.system ∧ (gammaNoted t).shadowInput = t.shadowInput ∧
      (gammaNoted t).event.baselineAcceptedIds = t.event.baselineAcceptedIds := by
  unfold gammaNoted
  split <;> exact ⟨rfl, rfl, rfl⟩

theorem fresh_foldl_accept (A : Arithmetic) (systems : List AcceptedSystem) :
    ∀ {t : ModeTraversal}, t.mode.compressedRows = 0 → t.mode.proposalAvailable = false →
      (systems.foldl (ModeTraversal.accept A) t).mode.compressedRows = 0 ∧
        (systems.foldl (ModeTraversal.accept A) t).mode.proposalAvailable = false := by
  induction systems with
  | nil => exact fun hrows havailable => ⟨hrows, havailable⟩
  | cons system systems ih =>
    intro t hrows havailable
    have hframe : ∀ (mode : GlobalMode) (gamma : Binary64),
        (accumulateGamma A mode gamma).compressedRows = mode.compressedRows ∧
          (accumulateGamma A mode gamma).proposalAvailable = mode.proposalAvailable := by
      intro mode gamma
      unfold accumulateGamma
      simp only
      split_ifs <;> exact ⟨rfl, rfl⟩
    refine ih (t := t.accept A system) ?_ ?_
    · exact (hframe _ _).1.trans hrows
    · exact (hframe _ _).2.trans havailable

theorem finalizeMode_frame (A : Arithmetic) (preview : Preview) (input : CP2ShadowMathInput)
    (suppress : Bool) (assembler : GlobalAssembler) (mode : GlobalMode) :
    let m := finalizeMode A preview input suppress assembler mode
    m.acceptedIds = mode.acceptedIds ∧ m.gammaStatus = mode.gammaStatus ∧
      m.retainedGamma = mode.retainedGamma ∧
      m.precompressionRows = Int64.ofNat assembler.H.rows ∧ m.jacobianLayout = assembler.layout := by
  unfold finalizeMode
  simp only
  split
  · exact ⟨rfl, rfl, rfl, rfl, rfl⟩
  · split <;> exact ⟨rfl, rfl, rfl, rfl, rfl⟩

theorem finalizeMode_empty (A : Arithmetic) (preview : Preview) (input : CP2ShadowMathInput)
    (assembler : GlobalAssembler) (mode : GlobalMode) (hrows : assembler.H.rows < 1) :
    let m := finalizeMode A preview input false assembler mode
    m.compressedRows = mode.compressedRows ∧ m.proposalAvailable = mode.proposalAvailable := by
  unfold finalizeMode
  simp only
  rw [if_pos (by simp [hrows])]
  exact ⟨rfl, rfl⟩

theorem finalizeMode_compressed (A : Arithmetic) (preview : Preview) (input : CP2ShadowMathInput)
    (assembler : GlobalAssembler) (mode : GlobalMode) (hrows : 1 ≤ assembler.H.rows) :
    let m := finalizeMode A preview input false assembler mode
    let compressed := measurementCompress A assembler.H assembler.residual
    m.compressedRows = Int64.ofNat compressed.1.rows ∧ m.H_compressed = compressed.1 ∧
      m.residualCompressed = compressed.2 ∧
      (compressed.1.rows < 1 → m.proposalAvailable = mode.proposalAvailable) ∧
      (1 ≤ compressed.1.rows →
        m.proposal = preview input.prior assembler.layout compressed.1 compressed.2
          (scaledIdentity A input.sigmaPxSq compressed.2.rows) ∧
        m.proposalAvailable = m.proposal.accepted) := by
  unfold finalizeMode
  simp only
  rw [if_neg (by simp; omega)]
  split
  · rename_i hempty
    exact ⟨rfl, rfl, rfl, fun _ => rfl, fun hsome => absurd hempty (by omega)⟩
  · rename_i hsome
    exact ⟨rfl, rfl, rfl, fun hempty => absurd hempty hsome, fun _ => ⟨rfl, rfl⟩⟩

variable (schurReduce) in
theorem process_nullspace (A : Arithmetic) (preview : Preview) {raws : List CP2RawFeatureSystem}
    (hstartup : startupInputIsValid A (shadowInputOf options table prior []) = true)
    (hraws : raws ≠ []) {assembler : GlobalAssembler}
    (hassembler : (traversal A schurReduce options table prior raws).assembler = some assembler) :
    let result := process A preview schurReduce (shadowInputOf options table prior raws)
    result.nullspace = finalizeMode A preview (shadowInputOf options table prior raws) false assembler
        (traversal A schurReduce options table prior raws).mode ∧
      result.nullspaceAssemblyValid = true ∧
      result.rawLayoutsValid = (raws.map (Shadow.processFeature A (shadowPaths A schurReduce)
        (shadowInputOf options table prior raws))).all FeaturePair.rawLayoutValid ∧
      result.duplicateFeatureId = !decide (raws.map CP2RawFeatureSystem.featureId).Nodup := by
  have hvalid : startupInputIsValid A (shadowInputOf options table prior raws) = true := hstartup
  have hempty : raws.isEmpty = false := by simpa using hraws
  have hbuild : buildMode A preview (shadowInputOf options table prior raws) (fun _ => false)
      (acceptedSystems nullspaceSystem raws (raws.map (Shadow.processFeature A
        (shadowPaths A schurReduce) (shadowInputOf options table prior raws)))) =
      (true, finalizeMode A preview (shadowInputOf options table prior raws) false assembler
        (traversal A schurReduce options table prior raws).mode) := by
    unfold buildMode ModeTraversal.close
    have hfold : (acceptedSystems nullspaceSystem raws (raws.map (Shadow.processFeature A
        (shadowPaths A schurReduce) (shadowInputOf options table prior raws)))).foldl
        (ModeTraversal.accept A) .start = traversal A schurReduce options table prior raws := rfl
    simp only [hfold, hassembler]
  have hinput : (shadowInputOf options table prior raws).rawSystems = raws := rfl
  simp only [process, processWith, hvalid, Bool.not_true, Bool.false_eq_true, if_false,
    buildGlobalModes_eq, hinput, hempty, hbuild]
  exact ⟨trivial, trivial, trivial, trivial⟩

variable (schurReduce) in
theorem process_nil (A : Arithmetic) (preview : Preview)
    (hstartup : startupInputIsValid A (shadowInputOf options table prior []) = true) :
    (process A preview schurReduce (shadowInputOf options table prior [])).nullspace = {} := by
  simp only [process, processWith, hstartup, Bool.not_true, Bool.false_eq_true, if_false, buildGlobalModes]
  rw [if_pos (by rfl)]

theorem LoopAt.rawSystems_eq_nil_iff {done : List FeaturePtr} {t : Call σ}
    (h : LoopAt C options table prior vars snapshot recorded capacity schurReduce heap done [] t) :
    t.shadowInput.rawSystems = [] ↔ t.event.rawSystemCount = 0 := by
  have hlength := congrArg length h.ids
  rw [length_map, length_map, ← h.count] at hlength
  rw [← length_eq_zero_iff, hlength, ← UInt64.toNat_inj]
  rfl

/-- **Behind the loop, the shadow computes the live baseline.** -/
theorem LoopAt.sameBaseline (preview : Preview)
    (hcall : NullspaceCall C options table prior vars landmarks fs) (hroom : Room capacity vars)
    (hstartup : startupInputIsValid C.arithmetic (shadowInputOf options table prior []) = true)
    {done : List FeaturePtr} (hids : (done.map fun p => (heap p).featid).Nodup) {t : Call σ}
    (h : LoopAt C options table prior vars snapshot recorded capacity schurReduce heap done [] t) :
    SameBaseline C.arithmetic preview options prior (process C.arithmetic preview schurReduce
      (shadowInputOf options table prior t.shadowInput.rawSystems)) (gammaNoted t) := by
  obtain ⟨hsystem, hinput, hacceptedIds⟩ := gammaNoted_frame t
  obtain ⟨vs, assembler, hvs, hassembler, hboth, -⟩ := h.assembled
  have hmeas : t.system.ctMeas = assembler.H.rows := hboth.measurements
  by_cases hraws : t.shadowInput.rawSystems = []
  · -- no raw system: nothing was computed on either side
    have hnoted : gammaNoted t = t := if_pos (h.rawSystems_eq_nil_iff.mp hraws)
    have hempty : (process C.arithmetic preview schurReduce
        (shadowInputOf options table prior t.shadowInput.rawSystems)).nullspace = {} := by
      rw [hraws]
      exact process_nil schurReduce C.arithmetic preview hstartup
    have hrows : t.system.ctMeas = 0 := by
      rw [hraws] at hassembler
      cases hassembler
      exact hmeas
    have haccepted := h.accepted
    rw [hraws] at haccepted
    rw [hnoted]
    refine ⟨fun hne => absurd hraws hne, ?_, ?_, ?_, ?_, fun _ => ?_, fun hone => absurd hone (by omega)⟩
    · rw [hempty]
      exact haccepted
    · rw [hempty, h.gammaStatus]
    · rw [hempty]
      intro hstatus
      cases hstatus
    · rw [hempty, hrows]
      rfl
    · rw [hempty]
      exact ⟨rfl, rfl⟩
  · -- the mode of the shadow is what `finalizeMode` makes of the traversal that the loop followed
    obtain ⟨hmode, hassembly, hlayouts, hduplicate⟩ := process_nullspace schurReduce C.arithmetic preview
      hstartup hraws hassembler
    have hevent : gammaNoted t = _ := if_neg (mt h.rawSystems_eq_nil_iff.mpr hraws)
    have hfresh := fresh_foldl_accept C.arithmetic (acceptedSystems nullspaceSystem
      t.shadowInput.rawSystems (t.shadowInput.rawSystems.map (Shadow.processFeature C.arithmetic
        (shadowPaths C.arithmetic schurReduce)
        (shadowInputOf options table prior t.shadowInput.rawSystems))))
      (t := .start) rfl rfl
    set input := shadowInputOf options table prior t.shadowInput.rawSystems
    set mode := (traversal C.arithmetic schurReduce options table prior t.shadowInput.rawSystems).mode
    obtain ⟨hfresh1, hfresh2⟩ : mode.compressedRows = 0 ∧ mode.proposalAvailable = false := hfresh
    obtain ⟨hframe1, hframe2, hframe3, hframe4, hframe5⟩ :=
      finalizeMode_frame C.arithmetic preview input false assembler mode
    refine ⟨fun _ => ⟨?_, ?_, hassembly⟩, ?_, ?_, ?_, ?_, fun hnone => ?_, fun hsome => ?_⟩
    · rw [hlayouts, all_map, all_eq_true]
      intro raw hraw
      exact rawLayoutValid_processFeature schurReduce _ (h.valid raw hraw)
    · rw [hduplicate, h.ids]
      simp [hids]
    · rw [hmode, hframe1, hacceptedIds]
      exact h.accepted
    · rw [hmode, hframe2, hevent]
      exact h.gammas.status
    · rw [hmode, hframe2, hframe3, hevent, h.gammas.status]
      intro havailable
      refine h.gammas.value ?_
      cases hsome : t.system.retainedGammaAvailable with
      | true => rfl
      | false =>
        rw [hsome] at havailable
        cases havailable
    · rw [hmode, hframe4, hsystem, hmeas, Int64.toInt_ofNat_of_lt assembler.H.rows_lt]
    · rw [hsystem, hmeas] at hnone
      obtain ⟨hrows, havailable⟩ := finalizeMode_empty C.arithmetic preview input assembler mode (by omega)
      rw [hmode]
      exact ⟨hrows.trans hfresh1, havailable.trans hfresh2⟩
    · -- rows were stacked: both sides trim and compress the same system
      have htotal : total vs ≤ capacity.maxHxSize := hvs.total_le.trans hroom.total
      rw [hsystem, hmeas] at hsome
      rw [hsystem, hboth.trim_eq C.arithmetic htotal]
      obtain ⟨hc1, hc2, hc3, hc4, hc5⟩ :=
        finalizeMode_compressed C.arithmetic preview input assembler mode (by omega)
      have horder : t.system.Hx_order_big = vs.map some := by
        rw [hboth.ordered]
        rfl
      rw [hmode]
      refine ⟨hc1, hc2, hc3, ?_, fun hrows => (hc4 hrows).trans hfresh2, fun hrows => ?_⟩
      · rw [horder, hframe5, hboth.layout]
        exact capturePreviewLayout_eq hcall.stateVariables hvs.subset
          (lt_of_le_of_lt htotal hroom.cols)
      · obtain ⟨hproposal, havailable⟩ := hc5 hrows
        exact ⟨by rw [hframe5]; exact hproposal, havailable⟩

end Loop

end Bravo.Updater
