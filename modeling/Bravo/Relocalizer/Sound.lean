import Mathlib.Data.List.GetD
import Mathlib.Data.Matrix.Mul
import Mathlib.Data.Real.Basic
import Mathlib.LinearAlgebra.Matrix.NonsingularInverse
import Bravo.Relocalizer.Attempt

/-! # Soundness of the relocalizer

An accepted result has passed every gate, for the pose that it publishes and the correspondences
whose identifiers it names, whatever OpenCV answered on the way (`recover_sound`). What is rejected
publishes no pose. The published pose is the candidate seen through the extrinsics
(`exactPose_consistent`).
-/

namespace Bravo.Relocalizer

open List Binary64

/-! ## Running extrema -/

section Extrema

variable {α : Type} {f : α → Binary64} {op : Binary64 → Binary64 → Binary64} {r : Binary64 → Binary64 → Prop}

/-- An operation that returns the one of two numbers that the order prefers. -/
structure Selects (op : Binary64 → Binary64 → Binary64) (r : Binary64 → Binary64 → Prop) : Prop where
  one : ∀ a b, op a b = a ∨ op a b = b
  left : ∀ {a} b, a.isNaN = false → r a (op a b)
  right : ∀ {a b}, a.isNaN = false → b.isNaN = false → r b (op a b)
  trans : ∀ {a b c}, r a b → r b c → r a c
  number : ∀ {a b}, r a b → b.isNaN = false

theorem selects_max : Selects Binary64.max (· ≤ ·) where
  one a b := by
    unfold Binary64.max
    split
    · exact Or.inr rfl
    · exact Or.inl rfl
  left _ ha := le_max_left ha
  right ha hb := le_max_right ha hb
  trans := le_trans'
  number h := h.2.1

theorem min_le_left {a : Binary64} (b : Binary64) (ha : a.isNaN = false) : min a b ≤ a := by
  unfold min
  split
  · rename_i h
    exact ⟨h.1, ha, Int.le_of_lt h.2.2⟩
  · exact ⟨ha, ha, Int.le_refl _⟩

theorem selects_min : Selects min (fun a b => b ≤ a) where
  one a b := by
    unfold min
    split
    · exact Or.inr rfl
    · exact Or.inl rfl
  left := min_le_left
  right ha hb := by
    unfold min
    split
    · exact ⟨hb, hb, Int.le_refl _⟩
    · rename_i h
      exact le_of_not_lt ha hb h
  trans hab hbc := le_trans' hbc hab
  number h := h.1

theorem Selects.foldl (h : Selects op r) (l : List α) :
    ∀ a : Binary64, a.isNaN = false → (∀ s ∈ l, (f s).isNaN = false) →
      let x := l.foldl (fun x s => op x (f s)) a
      (x = a ∨ ∃ s ∈ l, x = f s) ∧ r a x ∧ ∀ s ∈ l, r (f s) x := by
  induction l with
  | nil =>
    intro a ha _
    have hself := h.left a ha
    rw [(h.one a a).elim id id] at hself
    exact ⟨Or.inl rfl, hself, by simp⟩
  | cons s l ih =>
    intro a ha hf
    have hs : (f s).isNaN = false := hf s mem_cons_self
    have hfirst := h.left (f s) ha
    obtain ⟨hone, hstart, hall⟩ := ih (op a (f s)) (h.number hfirst) fun t ht => hf t (mem_cons_of_mem s ht)
    refine ⟨?_, h.trans hfirst hstart, ?_⟩
    · rcases hone with heq | ⟨t, ht, heq⟩
      · rw [foldl_cons, heq]
        rcases h.one a (f s) with heq | heq
        · exact Or.inl heq
        · exact Or.inr ⟨s, mem_cons_self, heq⟩
      · exact Or.inr ⟨t, mem_cons_of_mem s ht, heq⟩
    · intro t ht
      rcases mem_cons.mp ht with rfl | ht
      · exact h.trans (h.right ha hs) hstart
      · exact hall t ht

theorem not_infinity_le {x : Binary64} (hx : x.isFinite = true) : ¬infinity ≤ x := by
  rintro ⟨-, -, hle⟩
  have hkey : infinity.key = infMagnitude := by decide
  have habs := natAbs_key x
  simp only [isFinite, decide_eq_true_eq] at hx
  omega

theorem not_le_negativeInfinity {x : Binary64} (hx : x.isFinite = true) :
    ¬x ≤ negativeInfinity := by
  rintro ⟨-, -, hle⟩
  have hkey : negativeInfinity.key = -(infMagnitude : Int) := by decide
  have habs := natAbs_key x
  simp only [isFinite, decide_eq_true_eq] at hx
  omega

theorem Selects.exists_foldl (h : Selects op r) {start : Binary64} (hstart : start.isNaN = false)
    (hnot : ∀ x : Binary64, x.isFinite = true → ¬r x start) {l : List α} (hl : l ≠ [])
    (hf : ∀ s ∈ l, (f s).isFinite = true) :
    ∃ s ∈ l, l.foldl (fun x s => op x (f s)) start = f s ∧ ∀ t ∈ l, r (f t) (f s) := by
  obtain ⟨hone, -, hall⟩ := h.foldl l start hstart fun s hs => isNaN_of_isFinite (hf s hs)
  rcases hone with heq | ⟨s, hs, heq⟩
  · obtain ⟨s, hs⟩ := exists_mem_of_ne_nil l hl
    exact absurd (heq ▸ hall s hs) (hnot _ (hf s hs))
  · exact ⟨s, hs, heq, fun t ht => heq ▸ hall t ht⟩

end Extrema

/-! ## The loops over the inliers -/

section Loops

variable {A : PnpArithmetic} {R_GtoC : Matrix3d} {t_GinC : Vector3d}

theorem scanInliers_of_ended {inliers : List LongGapCorrespondence} :
    ∀ {scan : InlierScan}, (scanInliers A R_GtoC t_GinC scan inliers).2 = true →
      (∀ c ∈ inliers, finiteVector (A.transform R_GtoC c.p_FinG t_GinC) = true) ∧
        (scanInliers A R_GtoC t_GinC scan inliers).1 = {
          minDepth := inliers.foldl
            (fun m c => min m (A.transform R_GtoC c.p_FinG t_GinC 2)) scan.minDepth
          minimumX := inliers.foldl (fun m c => min m (c.uvRaw 0)) scan.minimumX
          maximumX := inliers.foldl (fun m c => max m (c.uvRaw 0)) scan.maximumX
          minimumY := inliers.foldl (fun m c => min m (c.uvRaw 1)) scan.minimumY
          maximumY := inliers.foldl (fun m c => max m (c.uvRaw 1)) scan.maximumY } := by
  induction inliers with
  | nil => exact fun _ => ⟨by simp, rfl⟩
  | cons c rest ih =>
    intro scan h
    rw [scanInliers] at h ⊢
    split_ifs at h ⊢ with hfinite
    obtain ⟨hrest, heq⟩ := ih h
    refine ⟨?_, heq⟩
    intro d hd
    rcases mem_cons.mp hd with rfl | hd
    · simpa using hfinite
    · exact hrest d hd

theorem scanErrors_of_ended {pairs : List (Vector2d × Vector2d)} :
    ∀ {worst : Binary64}, worst.isNaN = false → (scanErrors A worst pairs).2 = true →
      worst ≤ (scanErrors A worst pairs).1 ∧
        ∀ p ∈ pairs, (reprojectionError A p.1 p.2) ≤ (scanErrors A worst pairs).1 := by
  induction pairs with
  | nil => exact fun hworst _ => ⟨⟨hworst, hworst, Int.le_refl _⟩, by simp⟩
  | cons p rest ih =>
    intro worst hworst h
    obtain ⟨projection, observation⟩ := p
    rw [scanErrors] at h ⊢
    split_ifs at h ⊢ with hfinite
    have herror : (reprojectionError A projection observation).isNaN = false :=
      isNaN_of_isFinite (by simpa using hfinite)
    obtain ⟨hstart, hrest⟩ := ih (isNaN_max hworst) h
    refine ⟨le_trans' (le_max_left hworst) hstart, ?_⟩
    intro q hq
    rcases mem_cons.mp hq with rfl | hq
    · exact le_trans' (le_max_right hworst herror) hstart
    · exact hrest q hq

end Loops

/-! ## The gates -/

/-- A quotient of counts is rounded to nearest: it does not reach `0.70` from below. -/
def RoundedRatio (ratio : Nat → Nat → Binary64) : Prop :=
  ∀ n m : Nat, m < 2 ^ 49 → 10 * n < 7 * m → ratio n m < minimumInlierRatio

/-- Some inliers are at the two ends of an axis of the image, and the span between them passes. -/
def SpanPasses (A : PnpArithmetic) (axis : Fin 2) (size : Int32)
    (inliers : List LongGapCorrespondence) : Prop :=
  ∃ c ∈ inliers, ∃ c' ∈ inliers,
    (∀ d ∈ inliers, c'.uvRaw axis ≤ d.uvRaw axis ∧ d.uvRaw axis ≤ c.uvRaw axis) ∧
      minimumImageSpanFraction ≤ A.div (c.uvRaw axis - c'.uvRaw axis) (A.ofInt size)

/-- The gates on the inliers of the candidate `(R_GtoC, t_GinC)`, which gives the rotation
`R_GtoI`. -/
structure GatesPass (A : PnpArithmetic) (cv : OpenCv) (calibration : LongGapCameraCalibration)
    (imuPredicted_R_GtoI R_GtoC : Matrix3d) (t_GinC : Vector3d)
    (inliers : List LongGapCorrespondence) (R_GtoI : Matrix3d) : Prop where
  depth : ∀ c ∈ inliers, (⟨0⟩ : Binary64) < A.transform R_GtoC c.p_FinG t_GinC 2
  reprojection : ∃ call rotationVector projections,
    cv.rodrigues call (.ofMatrix3d R_GtoC) = some rotationVector ∧
      cv.projectPoints call (inliers.map fun c => c.p_FinG) rotationVector (.ofVector3d t_GinC)
        (cameraMatrix calibration) (distortionVector calibration) = some projections ∧
      projections.length = inliers.length ∧
      ∀ p ∈ projections.zip (inliers.map fun c => c.uvRaw),
        reprojectionError A p.1 p.2 ≤ maximumReprojectionErrorPx
  span_x : SpanPasses A 0 calibration.imageWidth inliers
  span_y : SpanPasses A 1 calibration.imageHeight inliers
  support : hasNoncollinearSupport A (noncollinearSupportRatio A (inliers.map fun c => c.p_FinG))
    (inliers.map fun c => c.p_FinG) = true
  orientation : A.disagreementDegrees R_GtoI imuPredicted_R_GtoI ≤ maximumOrientationDisagreementDeg

/-- The candidate behind an accepted result, and the inliers that the result names. -/
structure CandidatePasses (A : PnpArithmetic) (cv : OpenCv) (valid : List LongGapCorrespondence)
    (calibration : LongGapCameraCalibration) (imuPredicted_R_GtoI R_GtoC : Matrix3d)
    (t_GinC : Vector3d) (inliers : List LongGapCorrespondence)
    (result : LongGapRelocalizationResult) : Prop where
  rotation : isRotationMatrix A R_GtoC = true
  translation : finiteVector t_GinC = true
  result_rotation : result.R_GtoI = A.recoveredRotation calibration.R_ItoC R_GtoC
  result_position : result.p_IinG = A.recoveredPosition R_GtoC calibration.p_IinC t_GinC
  members : ∀ c ∈ inliers, c ∈ valid
  ids : result.inlierIds = inliers.map fun c => c.id
  distinct : result.inlierIds.Nodup
  count : 12 ≤ result.inlierIds.length
  ratio : minimumInlierRatio ≤ A.ratio result.inlierIds.length valid.length
  gates : GatesPass A cv calibration imuPredicted_R_GtoI R_GtoC t_GinC inliers result.R_GtoI

structure Unpublished (result : LongGapRelocalizationResult) : Prop where
  accepted : result.accepted = false
  rotation : result.R_GtoI = Matrix3d.identity
  position : result.p_IinG = Vector3d.zero

theorem unpublished_rejected (reason : LongGapRelocalizationReason) (supplied valid : Nat) :
    Unpublished (rejected reason supplied valid) := ⟨rfl, rfl, rfl⟩

theorem le_of_passes {x c : Binary64} (hc : c.isNaN = false)
    (h : ¬(x.isFinite = false ∨ x < c)) : c ≤ x := by
  rw [not_or, Bool.not_eq_false] at h
  exact le_of_not_lt hc (isNaN_of_isFinite h.1) h.2

section Gates

variable {A : PnpArithmetic} {cv : OpenCv} {calibration : LongGapCameraCalibration}
  {imuPredicted_R_GtoI R_GtoC : Matrix3d} {t_GinC : Vector3d} {recovered : Matrix3d × Vector3d}
  {inliers : List LongGapCorrespondence} {scan : InlierScan}
  {result : LongGapRelocalizationResult}

/-- The last gates: a result either stays unpublished or publishes the recovered pose, with the
identifiers it had. -/
theorem evaluateGeometry_cases (hresult : Unpublished result) :
    let out := evaluateGeometry A calibration imuPredicted_R_GtoI recovered inliers scan result
    Unpublished out ∨
      (out.accepted = true ∧ out.R_GtoI = recovered.1 ∧ out.p_IinG = recovered.2 ∧
        out.inlierIds = result.inlierIds ∧
        hasNoncollinearSupport A (noncollinearSupportRatio A (inliers.map fun c => c.p_FinG))
          (inliers.map fun c => c.p_FinG) = true ∧
        minimumImageSpanFraction ≤
          A.div (scan.maximumX - scan.minimumX) (A.ofInt calibration.imageWidth) ∧
        minimumImageSpanFraction ≤
          A.div (scan.maximumY - scan.minimumY) (A.ofInt calibration.imageHeight) ∧
        A.disagreementDegrees recovered.1 imuPredicted_R_GtoI ≤
          maximumOrientationDisagreementDeg) := by
  obtain ⟨haccepted, hrotation, hposition⟩ := hresult
  have hspan : minimumImageSpanFraction.isNaN = false := by decide
  have hmax : maximumOrientationDisagreementDeg.isNaN = false := by decide
  unfold evaluateGeometry
  simp only
  split_ifs with hsupport hx hy hdegrees
  case neg =>
    rw [not_or, Bool.not_eq_false] at hdegrees
    refine Or.inr ⟨rfl, rfl, rfl, rfl, by simpa using hsupport, le_of_passes hspan hx,
      le_of_passes hspan hy, ?_⟩
    exact le_of_not_lt (isNaN_of_isFinite hdegrees.1) hmax hdegrees.2
  all_goals exact Or.inl ⟨haccepted, hrotation, hposition⟩

theorem finiteVector_apply {n : Nat} {v : Fin n → Binary64} (h : finiteVector v = true)
    (i : Fin n) : (v i).isFinite = true := by
  rw [finiteVector, all_eq_true] at h
  exact h i (mem_finRange i)

theorem spanPasses_of_scan (axis : Fin 2) (size : Int32) (hsome : inliers ≠ [])
    (hfinite : ∀ c ∈ inliers, finiteVector c.uvRaw = true) (h : minimumImageSpanFraction ≤ A.div
      (inliers.foldl (fun m c => Binary64.max m (c.uvRaw axis)) negativeInfinity -
        inliers.foldl (fun m c => min m (c.uvRaw axis)) infinity) (A.ofInt size)) :
    SpanPasses A axis size inliers := by
  have hfin : ∀ c ∈ inliers, (c.uvRaw axis).isFinite = true := fun c hc =>
    finiteVector_apply (hfinite c hc) axis
  obtain ⟨c, hc, hmax, hle⟩ := selects_max.exists_foldl (by decide) (fun _ => not_le_negativeInfinity) hsome hfin
  obtain ⟨c', hc', hmin, hge⟩ := selects_min.exists_foldl (by decide) (fun _ => not_infinity_le) hsome hfin
  rw [hmax, hmin] at h
  exact ⟨c, hc, c', hc', fun d hd => ⟨hge d hd, hle d hd⟩, h⟩

theorem evaluateResiduals_cases {call : Nat} (hresult : Unpublished result) (hsome : inliers ≠ [])
    (hfinite : ∀ c ∈ inliers, finiteVector c.uvRaw = true) :
    let out := evaluateResiduals A cv call calibration imuPredicted_R_GtoI R_GtoC t_GinC recovered
      inliers result
    Unpublished out ∨
      (out.accepted = true ∧ out.R_GtoI = recovered.1 ∧ out.p_IinG = recovered.2 ∧
        out.inlierIds = result.inlierIds ∧
        GatesPass A cv calibration imuPredicted_R_GtoI R_GtoC t_GinC inliers recovered.1) := by
  obtain ⟨haccepted, hrotation, hposition⟩ := hresult
  intro out
  have hout : out = evaluateResiduals A cv call calibration imuPredicted_R_GtoI R_GtoC t_GinC
    recovered inliers result := rfl
  unfold evaluateResiduals at hout
  simp only at hout
  split_ifs at hout with hended hdepth
  · exact Or.inl (hout ▸ ⟨haccepted, hrotation, hposition⟩)
  · exact Or.inl (hout ▸ ⟨haccepted, hrotation, hposition⟩)
  split at hout
  · exact Or.inl (hout ▸ ⟨haccepted, hrotation, hposition⟩)
  rename_i projections hprojected
  obtain ⟨rotationVector, hrodrigues, hproject⟩ := Option.bind_eq_some_iff.mp hprojected
  split_ifs at hout with hlength herrors hworst
  · exact Or.inl (hout ▸ ⟨haccepted, hrotation, hposition⟩)
  · exact Or.inl (hout ▸ ⟨haccepted, hrotation, hposition⟩)
  · exact Or.inl (hout ▸ ⟨haccepted, hrotation, hposition⟩)
  rw [hout]
  refine Or.imp id ?_ (evaluateGeometry_cases ⟨haccepted, hrotation, hposition⟩)
  rintro ⟨hacc, hrot, hpos, hids, hsupport, hx, hy, hdegrees⟩
  obtain ⟨hpoints, hscan⟩ := scanInliers_of_ended (by simpa using hended)
  refine ⟨hacc, hrot, hpos, hids, ?_, ?_, ?_, ?_, hsupport, hdegrees⟩
  · -- every depth is at least the smallest one, which is positive
    intro c hc
    have hpointFinite : ∀ d ∈ inliers,
        (A.transform R_GtoC d.p_FinG t_GinC 2).isFinite = true := fun d hd =>
      finiteVector_apply (hpoints d hd) 2
    obtain ⟨d, hd, hmin, hle⟩ := selects_min.exists_foldl (by decide) (fun _ => not_infinity_le) hsome hpointFinite
    rw [hscan] at hdepth
    simp only [hmin, not_or] at hdepth
    have hfin := hpointFinite d hd
    have hnan := isNaN_of_isFinite hfin
    have hpos : (⟨0⟩ : Binary64) < A.transform R_GtoC d.p_FinG t_GinC 2 := by
      by_contra hnot
      exact hdepth.2 (le_of_not_lt hnan (by decide) hnot)
    have hcd := hle c hc
    exact ⟨hpos.1, hcd.2.1, Int.lt_of_lt_of_le hpos.2.2 hcd.2.2⟩
  · refine ⟨call, rotationVector, projections, hrodrigues, hproject, by simpa using hlength, ?_⟩
    have hzero : (⟨0⟩ : Binary64).isNaN = false := by decide
    obtain ⟨hstart, hall⟩ := scanErrors_of_ended hzero (by simpa using herrors)
    intro p hp
    exact le_trans' (hall p hp) (le_of_not_lt hstart.2.1 (by decide) hworst)
  · rw [hscan] at hx
    exact spanPasses_of_scan 0 calibration.imageWidth hsome hfinite hx
  · rw [hscan] at hy
    exact spanPasses_of_scan 1 calibration.imageHeight hsome hfinite hy

theorem nodup_of_sorted {indices : List Int} (hsorted : indices.Pairwise (· ≤ ·))
    (h : hasAdjacentEqual indices = false) : indices.Nodup := by
  induction indices with
  | nil => exact nodup_nil
  | cons a rest ih =>
    cases rest with
    | nil => exact nodup_singleton a
    | cons b rest =>
      rw [hasAdjacentEqual, Bool.or_eq_false_iff, decide_eq_false_iff_not] at h
      obtain ⟨hhead, htail⟩ := pairwise_cons.mp hsorted
      refine nodup_cons.mpr ⟨fun hmem => ?_, ih htail h.2⟩
      have hab := hhead b mem_cons_self
      rcases mem_cons.mp hmem with heq | hmem
      · exact h.1 heq
      · have hba := (pairwise_cons.mp htail).1 a hmem
        exact h.1 (Int.le_antisymm hab hba)

theorem selected_of_indices {valid : List LongGapCorrespondence}
    (hids : (valid.map fun c => c.id).Nodup) {indices : List Int} (hnodup : indices.Nodup)
    (hrange : indices.any (outOfRange valid) = false) :
    (∀ c ∈ indices.map (correspondenceAt valid), c ∈ valid) ∧
      ((indices.map (correspondenceAt valid)).map fun c => c.id).Nodup := by
  have hbounds : ∀ i ∈ indices, 0 ≤ i ∧ i < valid.length := by
    intro i hi
    have hin := any_eq_false.mp hrange i hi
    simp only [outOfRange, Bool.or_eq_true, decide_eq_true_eq, not_or] at hin
    omega
  have hat : ∀ i ∈ indices, ∃ h : i.toNat < valid.length, correspondenceAt valid i = valid[i.toNat] := by
    intro i hi
    have hlt : i.toNat < valid.length := by
      have := hbounds i hi
      omega
    exact ⟨hlt, by rw [correspondenceAt, getD_eq_getElem _ _ hlt]⟩
  constructor
  · intro c hc
    obtain ⟨i, hi, rfl⟩ := mem_map.mp hc
    obtain ⟨hlt, heq⟩ := hat i hi
    rw [heq]
    exact getElem_mem hlt
  · rw [List.map_map]
    refine hnodup.map_on fun i hi j hj heq => ?_
    obtain ⟨hi', hati⟩ := hat i hi
    obtain ⟨hj', hatj⟩ := hat j hj
    simp only [Function.comp_apply, hati, hatj] at heq
    have hindex : i.toNat = j.toNat := by
      have hlen : (valid.map fun c => c.id).length = valid.length := length_map _
      refine (@List.Nodup.getElem_inj_iff _ _ hids _ (hlen ▸ hi') _ (hlen ▸ hj')).mp ?_
      rw [getElem_map, getElem_map]
      exact heq
    have hbi := hbounds i hi
    have hbj := hbounds j hj
    omega

/-- **An accepted candidate has passed every gate.** -/
theorem evaluateCandidate_cases {call supplied : Nat} {valid : List LongGapCorrespondence}
    {indices : List Int} (hids : (valid.map fun c => c.id).Nodup)
    (hfinite : ∀ c ∈ valid, finiteVector c.uvRaw = true) :
    let out := evaluateCandidate A cv call valid calibration imuPredicted_R_GtoI R_GtoC t_GinC
      indices supplied
    Unpublished out ∨ (out.accepted = true ∧ ∃ inliers,
      CandidatePasses A cv valid calibration imuPredicted_R_GtoI R_GtoC t_GinC inliers out) := by
  intro out
  have hout : out = evaluateCandidate A cv call valid calibration imuPredicted_R_GtoI R_GtoC
    t_GinC indices supplied := rfl
  unfold evaluateCandidate at hout
  simp only at hout
  set sorted := indices.mergeSort fun i j => decide (i ≤ j) with hdef
  split_ifs at hout with hindices hcount hempty
  all_goals try exact Or.inl (hout ▸ ⟨rfl, rfl, rfl⟩)
  · -- without correspondences the ratio is zero, which is rejected
    rename_i hratio _ _
    exact absurd (Or.inr (by decide)) hratio
  rename_i hratio hpose hrecovered
  rw [Bool.or_eq_true, not_or, Bool.not_eq_true, Bool.not_eq_true] at hindices
  have hsorted : sorted.Pairwise (· ≤ ·) := by
    have hpairwise := @List.pairwise_mergeSort Int (fun i j => decide (i ≤ j))
      (fun a b c hab hbc => by simp only [decide_eq_true_eq] at *; omega)
      (fun a b => by simp only [Bool.or_eq_true, decide_eq_true_eq]; omega) indices
    exact hpairwise.imp fun h => of_decide_eq_true h
  obtain ⟨hmembers, hdistinct⟩ := selected_of_indices hids (nodup_of_sorted hsorted hindices.1)
    hindices.2
  have hlength : 12 ≤ sorted.length := Nat.le_of_not_lt hcount
  have hsome : sorted.map (correspondenceAt valid) ≠ [] := by
    intro hnil
    rw [map_eq_nil_iff] at hnil
    rw [hnil] at hlength
    simp at hlength
  rw [hout]
  refine Or.imp id ?_ (evaluateResiduals_cases ⟨rfl, rfl, rfl⟩ hsome
    fun c hc => hfinite c (hmembers c hc))
  rintro ⟨hacc, hrot, hpos, hinlierIds, hgates⟩
  refine ⟨hacc, sorted.map (correspondenceAt valid), ?_⟩
  simp only [Bool.or_eq_true, Bool.not_eq_true', not_or, Bool.not_eq_false] at hpose
  exact {
    rotation := hpose.1
    translation := hpose.2
    result_rotation := hrot
    result_position := hpos
    members := hmembers
    ids := hinlierIds
    distinct := hinlierIds ▸ hdistinct
    count := by
      rw [hinlierIds, length_map, length_map]
      exact hlength
    ratio := by
      rw [hinlierIds, length_map, length_map]
      exact le_of_passes (by decide) hratio
    gates := hrot ▸ hgates }

end Gates

/-! ## The result -/

structure Sound (A : PnpArithmetic) (cv : OpenCv) (correspondences : List LongGapCorrespondence)
    (calibration : LongGapCameraCalibration) (imuPredicted_R_GtoI : Matrix3d)
    (result : LongGapRelocalizationResult) : Prop where
  calibration_valid : validCalibration A calibration = true
  prior_valid : isRotationMatrix A imuPredicted_R_GtoI = true
  distinct : ((validCorrespondences correspondences).map fun c => c.id).Nodup
  enough : 12 ≤ (validCorrespondences correspondences).length
  candidate : ∃ R_GtoC t_GinC inliers, CandidatePasses A cv (validCorrespondences correspondences)
    calibration imuPredicted_R_GtoI R_GtoC t_GinC inliers result

section Recover

variable {A : PnpArithmetic} {cv : OpenCv} {calibration : LongGapCameraCalibration}
  {imuPredicted_R_GtoI : Matrix3d} {valid : List LongGapCorrespondence} {supplied : Nat}

/-- Every way through the refinement ends unpublished or in a candidate that passes. -/
theorem refineAndEvaluate_cases (hids : (valid.map fun c => c.id).Nodup)
    (hfinite : ∀ c ∈ valid, finiteVector c.uvRaw = true) (pose : Matrix3d × Vector3d) :
    let out := refineAndEvaluate A cv valid calibration imuPredicted_R_GtoI supplied pose
    Unpublished out ∨ (out.accepted = true ∧ ∃ R_GtoC t_GinC inliers,
      CandidatePasses A cv valid calibration imuPredicted_R_GtoI R_GtoC t_GinC inliers out) := by
  have hevaluate : ∀ (R_GtoC : Matrix3d) (t_GinC : Vector3d) (indices : List Int),
      let out := evaluateCandidate A cv 9 valid calibration imuPredicted_R_GtoI R_GtoC t_GinC
        indices supplied
      Unpublished out ∨ (out.accepted = true ∧ ∃ R_GtoC t_GinC inliers,
        CandidatePasses A cv valid calibration imuPredicted_R_GtoI R_GtoC t_GinC inliers out) := by
    intro R_GtoC t_GinC indices
    refine (evaluateCandidate_cases hids hfinite).imp id ?_
    rintro ⟨haccepted, inliers, hpasses⟩
    exact ⟨haccepted, R_GtoC, t_GinC, inliers, hpasses⟩
  have hfailed : Unpublished (rejected .pnpFailed supplied valid.length) :=
    unpublished_rejected _ _ _
  unfold refineAndEvaluate
  simp only
  split
  · exact Or.inl hfailed
  split_ifs
  · exact hevaluate _ _ _
  split
  · exact Or.inl hfailed
  split
  · exact Or.inl hfailed
  split_ifs
  · exact hevaluate _ _ _
  split
  · exact Or.inl hfailed
  split
  · exact Or.inl hfailed
  · exact hevaluate _ _ _

theorem recover_cases (correspondences : List LongGapCorrespondence) :
    let out := recover A cv correspondences calibration imuPredicted_R_GtoI
    Unpublished out ∨
      (out.accepted = true ∧ Sound A cv correspondences calibration imuPredicted_R_GtoI out) := by
  unfold recover
  simp only
  split_ifs with hcalibration hprior hdistinct hcount hsupport
  case neg =>
    rw [Bool.not_eq_true', Bool.not_eq_false] at hcalibration hprior hdistinct
    split
    · exact Or.inl (unpublished_rejected _ _ _)
    · have hfinite : ∀ c ∈ validCorrespondences correspondences, finiteVector c.uvRaw = true := by
        intro c hc
        have hboth := (mem_filter.mp hc).2
        rw [Bool.and_eq_true] at hboth
        exact hboth.2
      refine (refineAndEvaluate_cases (of_decide_eq_true hdistinct) hfinite _).imp id ?_
      rintro ⟨haccepted, hcandidate⟩
      exact ⟨haccepted, hcalibration, hprior, of_decide_eq_true hdistinct, Nat.le_of_not_lt hcount,
        hcandidate⟩
  all_goals exact Or.inl ⟨rfl, rfl, rfl⟩

end Recover

/-! ## The pose in exact arithmetic -/

open Matrix

/-- The products of a pose over the real numbers. -/
def exactPose : PoseKernels ℝ where
  transform R p t := R *ᵥ p + t
  recoveredRotation R_ItoC R_GtoC := R_ItoCᵀ * R_GtoC
  recoveredPosition R_GtoC p_IinC t_GinC := R_GtoCᵀ *ᵥ (p_IinC - t_GinC)

theorem exactPose_consistent {R_ItoC R_GtoC : Matrix (Fin 3) (Fin 3) ℝ} {p_IinC t_GinC : Fin 3 → ℝ}
    (hextrinsic : R_ItoCᵀ * R_ItoC = 1) (hcandidate : R_GtoCᵀ * R_GtoC = 1) :
    let R_GtoI := exactPose.recoveredRotation R_ItoC R_GtoC
    let p_IinG := exactPose.recoveredPosition R_GtoC p_IinC t_GinC
    R_GtoIᵀ * R_GtoI = 1 ∧ R_ItoC * R_GtoI = R_GtoC ∧
      ∀ p_FinG, exactPose.transform R_ItoC (R_GtoI *ᵥ (p_FinG - p_IinG)) p_IinC =
        exactPose.transform R_GtoC p_FinG t_GinC := by
  have hextrinsic' : R_ItoC * R_ItoCᵀ = 1 := mul_eq_one_comm.mp hextrinsic
  have hcandidate' : R_GtoC * R_GtoCᵀ = 1 := mul_eq_one_comm.mp hcandidate
  have hrotation : R_ItoC * (R_ItoCᵀ * R_GtoC) = R_GtoC := by
    rw [← Matrix.mul_assoc, hextrinsic', Matrix.one_mul]
  refine ⟨?_, hrotation, fun p_FinG => ?_⟩
  · calc (R_ItoCᵀ * R_GtoC)ᵀ * (R_ItoCᵀ * R_GtoC)
        = R_GtoCᵀ * (R_ItoC * (R_ItoCᵀ * R_GtoC)) := by
          rw [Matrix.transpose_mul, Matrix.transpose_transpose, Matrix.mul_assoc]
      _ = 1 := by rw [hrotation, hcandidate]
  · show R_ItoC *ᵥ ((R_ItoCᵀ * R_GtoC) *ᵥ (p_FinG - R_GtoCᵀ *ᵥ (p_IinC - t_GinC))) + p_IinC =
      R_GtoC *ᵥ p_FinG + t_GinC
    rw [Matrix.mulVec_mulVec, hrotation, Matrix.mulVec_sub, Matrix.mulVec_mulVec, hcandidate',
      Matrix.one_mulVec]
    abel

/-- **The relocalizer is sound against any behaviour of OpenCV.** An accepted result has passed
every gate, also exactly where the quotient of the counts is rounded to nearest, a rejected one has
the pose `(identity, zero)`, and the published pose is the candidate behind the extrinsics. -/
theorem recover_sound (A : PnpArithmetic) (cv : OpenCv)
    (correspondences : List LongGapCorrespondence) (calibration : LongGapCameraCalibration)
    (imuPredicted_R_GtoI : Matrix3d) :
    let result := recover A cv correspondences calibration imuPredicted_R_GtoI
    (result.accepted = true →
      Sound A cv correspondences calibration imuPredicted_R_GtoI result ∧
        (RoundedRatio A.ratio → (validCorrespondences correspondences).length < 2 ^ 49 →
          7 * (validCorrespondences correspondences).length ≤ 10 * result.inlierIds.length)) ∧
      (result.accepted = false →
        result.R_GtoI = Matrix3d.identity ∧ result.p_IinG = Vector3d.zero) ∧
      ∀ (R_ItoC R_GtoC : Matrix (Fin 3) (Fin 3) ℝ) (p_IinC t_GinC : Fin 3 → ℝ),
        R_ItoCᵀ * R_ItoC = 1 → R_GtoCᵀ * R_GtoC = 1 →
          let R_GtoI := exactPose.recoveredRotation R_ItoC R_GtoC
          let p_IinG := exactPose.recoveredPosition R_GtoC p_IinC t_GinC
          R_GtoIᵀ * R_GtoI = 1 ∧ R_ItoC * R_GtoI = R_GtoC ∧
            ∀ p_FinG, exactPose.transform R_ItoC (R_GtoI *ᵥ (p_FinG - p_IinG)) p_IinC =
              exactPose.transform R_GtoC p_FinG t_GinC := by
  intro result
  have hcases : Unpublished result ∨ (result.accepted = true ∧
      Sound A cv correspondences calibration imuPredicted_R_GtoI result) :=
    recover_cases correspondences
  refine ⟨fun haccepted => ?_, fun hrejected => ?_,
    fun R_ItoC R_GtoC p_IinC t_GinC => exactPose_consistent⟩
  · rcases hcases with hunpublished | ⟨-, hsound⟩
    · exact absurd haccepted (by rw [hunpublished.accepted]; decide)
    · refine ⟨hsound, fun hrounded hlt => ?_⟩
      obtain ⟨R_GtoC, t_GinC, inliers, hpasses⟩ := hsound.candidate
      by_contra hless
      have hbelow := hrounded _ _ hlt (Nat.lt_of_not_le hless)
      exact not_le_of_lt hbelow hpasses.ratio
  · rcases hcases with hunpublished | ⟨haccepted, -⟩
    · exact ⟨hunpublished.rotation, hunpublished.position⟩
    · exact absurd (hrejected.symm.trans haccepted) (by decide)

example : (recover cornerKernels cornerOpenCv corners cornerCalibration Matrix3d.identity).accepted = true := by
  have hsort : cornerIndices.mergeSort (fun i j => decide (i ≤ j)) = cornerIndices :=
    List.mergeSort_of_pairwise (by decide)
  rw [recover_corners (.inl rfl), evaluateCandidate, hsort]
  decide +kernel

end Bravo.Relocalizer
