import Bravo.Basic.Reader
import Bravo.Basic.Rotation
import Bravo.Sequence.Association

/-! # The common alignment

`baseline_kabsch_alignment` of `cp2_sequence_math.py` in exact arithmetic, over any ordered field. The singular value
decomposition, the singular values of the centred source and the square root are parameters. What is returned is the
one proper rigid transform with the least sum of squared distances, whatever factors the decomposition returns, and
the two conditions on the singular values are the ones that make it the only one.
-/

namespace Bravo.Sequence

open Matrix List

/-- What the functions below take from NumPy and from the module `math`. -/
structure Numpy (K : Type) where
  /-- `np.linalg.svd(matrix, full_matrices=True)`, or `LinAlgError` -/
  svd : Matrix3 K → Option (SvdFactors K)
  /-- `np.linalg.svd(centered, compute_uv=False)`, or `LinAlgError` -/
  singularValues : List (Fin 3 → K) → Option (Fin 3 → K)
  /-- `math.sqrt` -/
  sqrt : K → K

abbrev AlignmentResult (α : Type) := Except Error α

def failAlignment {α : Type} (message : String) : AlignmentResult α := .error (.sequenceMathError message)

def exactBinary64IntegerMax : Nat := 2 ^ 53 - 1

section Alignment

variable {K : Type} [Field K] [LinearOrder K]

def tiny : K := 1 / 2 ^ 1022

def eps : K := 1 / 2 ^ 52

def rotationValidationTolerance : K := 1 / 10 ^ 10

def orderedSum {α : Type} (f : α → K) (rows : List α) : K := rows.foldl (fun sum row => sum + f row) 0

def orderedCentroid (points : List (Fin 3 → K)) : AlignmentResult (Fin 3 → K) :=
  if points.length = 0 ∨ exactBinary64IntegerMax < points.length then
    failAlignment "centroid population count is outside the exact binary64 integer range"
  else .ok fun column => orderedSum (fun point => point column) points / points.length

structure SpectrumLabels where
  count : String
  values : String
  zero : String
  rank : String

/-- The checks that `validate_source_singular_values` and `validate_cross_covariance_singular_values` share; the
threshold is returned. -/
def validateSpectrum (labels : SpectrumLabels) (values : Fin 3 → K) (count : Nat) : AlignmentResult K :=
  if count = 0 then failAlignment (labels.count ++ " population count must be a positive integer")
  else if count < 3 then failAlignment "common alignment requires at least three poses"
  else if exactBinary64IntegerMax < count then
    failAlignment (labels.count ++ " population count exceeds the exact binary64 integer range")
  else if values 0 < 0 ∨ values 1 < 0 ∨ values 2 < 0 ∨ values 0 < values 1 ∨ values 1 < values 2 then
    failAlignment (labels.values ++ " singular values are not a complete descending nonnegative spectrum")
  else if ¬ tiny < values 0 then failAlignment labels.zero
  else
    let threshold := ((max count 3 : Nat) : K) * eps * values 0
    if ¬ threshold < values 1 then failAlignment labels.rank else .ok threshold

def validateSourceSingularValues (values : Fin 3 → K) (count : Nat) : AlignmentResult K :=
  validateSpectrum ⟨"source", "source", "source position spectrum is coincident or numerically zero",
    "source position spectrum is collinear at the strict rank boundary"⟩ values count

def validateCrossCovarianceSingularValues (values : Fin 3 → K) (count : Nat) (reflectionCorrectionApplied : Bool) :
    AlignmentResult K := do
  let threshold ← validateSpectrum ⟨"cross-covariance", "cross-covariance",
    "alignment cross-covariance is numerically zero",
    "alignment cross-covariance does not define a unique proper rotation"⟩ values count
  if reflectionCorrectionApplied ∧ ¬ threshold < values 1 - values 2 then
    failAlignment "alignment reflection correction has no unique smallest singular direction"
  else return threshold

/-- `_source_rank`: the centroid, the singular values and their threshold. -/
def sourceRank (np : Numpy K) (points : List (Fin 3 → K)) : AlignmentResult ((Fin 3 → K) × (Fin 3 → K) × K) :=
  if points.length < 3 then failAlignment "common alignment requires at least three poses"
  else do
    let centroid ← orderedCentroid points
    let centered := points.map fun point => point - centroid
    match np.singularValues centered with
    | none => failAlignment "source position SVD failed"
    | some values => do
      let threshold ← validateSourceSingularValues values points.length
      return (centroid, values, threshold)

def orderedCrossCovariance (source target : List (Fin 3 → K)) (sourceCentroid targetCentroid : Fin 3 → K) : Matrix3 K :=
  fun row column =>
    orderedSum (fun pair => (pair.2 row - targetCentroid row) * (pair.1 column - sourceCentroid column))
      (source.zip target) / source.length

/-- `validate_proper_rotation`: the determinant and the orthogonality error. -/
def validateProperRotation (np : Numpy K) (rotation : Matrix3 K) : AlignmentResult (K × K) :=
  let determinant := rotation.det
  let gram := rotationᵀ * rotation
  let squaredError := ∑ row, ∑ column, (gram row column - (1 : Matrix3 K) row column) ^ 2
  let orthogonalityError := np.sqrt squaredError
  if rotationValidationTolerance < |determinant - 1| then
    failAlignment "rotation determinant is not proper within 1e-10"
  else if rotationValidationTolerance < orthogonalityError then
    failAlignment "rotation orthogonality error exceeds 1e-10"
  else .ok (determinant, orthogonalityError)

structure SE3Alignment (K : Type) where
  rotation : Matrix3 K
  translation : Fin 3 → K
  sourceCount : Nat
  sourceSingularValues : Fin 3 → K
  sourceRankThreshold : K
  crossCovarianceSingularValues : Fin 3 → K
  crossCovarianceRankThreshold : K
  reflectionCorrectionApplied : Bool
  determinant : K
  orthogonalityErrorFrobenius : K
  appliedIdenticallyToBothModes : Bool

/-- `SE3Alignment.__post_init__`, which makes the checks again. -/
def SE3Alignment.postInit (np : Numpy K) (a : SE3Alignment K) : AlignmentResult (SE3Alignment K) := do
  let (determinant, orthogonalityError) ← validateProperRotation np a.rotation
  let rankThreshold ← validateSourceSingularValues a.sourceSingularValues a.sourceCount
  let crossRankThreshold ←
    validateCrossCovarianceSingularValues a.crossCovarianceSingularValues a.sourceCount a.reflectionCorrectionApplied
  if a.sourceRankThreshold ≠ rankThreshold then
    failAlignment "alignment source-rank threshold does not match its frozen spectrum"
  else if a.crossCovarianceRankThreshold ≠ crossRankThreshold then
    failAlignment "alignment cross-covariance-rank threshold does not match its frozen spectrum"
  else if a.determinant ≠ determinant then failAlignment "alignment determinant does not match its rotation"
  else if a.orthogonalityErrorFrobenius ≠ orthogonalityError then
    failAlignment "alignment orthogonality error does not match its rotation"
  else if !a.appliedIdenticallyToBothModes then
    failAlignment "alignment is not marked as applied identically to both modes"
  else return a

def baselineKabschAlignment (np : Numpy K) (source target : List (Fin 3 → K)) :
    AlignmentResult (SE3Alignment K) :=
  if source.length ≠ target.length then failAlignment "alignment source and target populations differ"
  else do
    let (sourceCentroid, sourceSingularValues, sourceRankThreshold) ← sourceRank np source
    let targetCentroid ← orderedCentroid target
    let covariance := orderedCrossCovariance source target sourceCentroid targetCentroid
    match np.svd covariance with
    | none => failAlignment "alignment cross-covariance SVD failed"
    | some factors => do
      let uvDeterminant := (factors.left * factors.rightTranspose).det
      if rotationValidationTolerance < |(|uvDeterminant| - 1)| then
        failAlignment "alignment determinant correction is not a finite orthogonal sign"
      else do
        let reflectionCorrectionApplied := decide (uvDeterminant < 0)
        let crossRankThreshold ←
          validateCrossCovarianceSingularValues factors.singular source.length reflectionCorrectionApplied
        let correction : Matrix3 K := diagonal ![1, 1, if reflectionCorrectionApplied then -1 else 1]
        let rotation := factors.left * correction * factors.rightTranspose
        let (determinant, orthogonalityError) ← validateProperRotation np rotation
        let translation := targetCentroid - rotation *ᵥ sourceCentroid
        SE3Alignment.postInit np
          { rotation := rotation
            translation := translation
            sourceCount := source.length
            sourceSingularValues := sourceSingularValues
            sourceRankThreshold := sourceRankThreshold
            crossCovarianceSingularValues := factors.singular
            crossCovarianceRankThreshold := crossRankThreshold
            reflectionCorrectionApplied := reflectionCorrectionApplied
            determinant := determinant
            orthogonalityErrorFrobenius := orthogonalityError
            appliedIdenticallyToBothModes := true }

/-! ## What is minimized -/

/-- The sum of the squared distances after a rigid transform. -/
def cost (source target : List (Fin 3 → K)) (rotation : Matrix3 K) (translation : Fin 3 → K) : K :=
  ((source.zip target).map fun pair => normSq (rotation *ᵥ pair.1 + translation - pair.2)).sum

structure Proper (Q : Matrix3 K) : Prop where
  orthogonal : Orthogonal Q
  determinant : Q.det = 1

/-- A proper rigid transform with the least cost. -/
structure Optimal (source target : List (Fin 3 → K)) (rotation : Matrix3 K) (translation : Fin 3 → K) : Prop where
  proper : Proper rotation
  least : ∀ (Q : Matrix3 K) (u : Fin 3 → K), Proper Q →
    cost source target rotation translation ≤ cost source target Q u

omit [LinearOrder K] in
theorem orderedSum_eq {α : Type} (f : α → K) (rows : List α) : orderedSum f rows = (rows.map f).sum := by
  have hacc : ∀ (rows : List α) (acc : K), rows.foldl (fun sum row => sum + f row) acc = acc + (rows.map f).sum := by
    intro rows
    induction rows with
    | nil => exact fun acc => (add_zero acc).symm
    | cons row rows ih =>
      intro acc
      rw [foldl_cons, ih, map_cons, sum_cons, add_assoc]
  rw [orderedSum, hacc, zero_add]

omit [LinearOrder K] in
theorem orderedCentroid_ok {points : List (Fin 3 → K)} {centroid : Fin 3 → K}
    (h : orderedCentroid points = .ok centroid) :
    points.length ≠ 0 ∧ ∀ column, centroid column = (points.map fun point => point column).sum / points.length := by
  unfold orderedCentroid at h
  split_ifs at h with hcount
  · exact absurd h nofun
  · obtain rfl := Except.ok.inj h
    refine ⟨fun hzero => hcount (Or.inl hzero), fun column => ?_⟩
    show orderedSum (fun point => point column) points / (points.length : K) = _
    rw [orderedSum_eq]

variable [IsStrictOrderedRing K]

theorem sum_centered {points : List (Fin 3 → K)} {centroid : Fin 3 → K} (h : orderedCentroid points = .ok centroid)
    (column : Fin 3) : (points.map fun point => point column - centroid column).sum = 0 := by
  obtain ⟨hne, hcentroid⟩ := orderedCentroid_ok h
  have hcount : (points.length : K) ≠ 0 := Nat.cast_ne_zero.mpr hne
  have hsplit : ∀ rows : List (Fin 3 → K), (rows.map fun point => point column - centroid column).sum =
      (rows.map fun point => point column).sum - rows.length * centroid column := by
    intro rows
    induction rows with
    | nil => simp
    | cons row rows ih =>
      rw [map_cons, sum_cons, ih, map_cons, sum_cons, length_cons]
      push_cast
      ring
  rw [hsplit, hcentroid, mul_div_cancel₀ _ hcount, sub_self]

section Split

variable {source target : List (Fin 3 → K)} {sourceCentroid targetCentroid : Fin 3 → K}

theorem cost_split (hlength : source.length = target.length) (hsource : orderedCentroid source = .ok sourceCentroid)
    (htarget : orderedCentroid target = .ok targetCentroid) : ∃ spread : K,
      ∀ (Q : Matrix3 K) (u : Fin 3 → K), Orthogonal Q → cost source target Q u =
        spread + source.length * normSq (Q *ᵥ sourceCentroid + u - targetCentroid) -
          2 * source.length * entrySum Q (orderedCrossCovariance source target sourceCentroid targetCentroid) := by
  have hcount : (source.length : K) ≠ 0 := Nat.cast_ne_zero.mpr (orderedCentroid_ok hsource).1
  have hzip : (source.zip target).length = source.length := by
    rw [length_zip, ← hlength, min_self]
  have hfst : (source.zip target).map Prod.fst = source := map_fst_zip hlength.le
  have hsnd : (source.zip target).map Prod.snd = target := map_snd_zip hlength.ge
  have hsum : ∀ g : (Fin 3 → K) × (Fin 3 → K) → K,
      ((source.zip target).map g).sum = ∑ i : Fin (source.zip target).length, g (source.zip target)[i] :=
    fun g => (Fin.sum_univ_fun_getElem (source.zip target) g).symm
  have hX : ∀ b, ∑ i : Fin (source.zip target).length, ((source.zip target)[i].1 - sourceCentroid) b = 0 := by
    intro b
    have hlist := sum_centered hsource b
    rw [← hfst, List.map_map] at hlist
    exact (hsum fun pair => pair.1 b - sourceCentroid b).symm.trans hlist
  have hY : ∀ a, ∑ i : Fin (source.zip target).length, ((source.zip target)[i].2 - targetCentroid) a = 0 := by
    intro a
    have hlist := sum_centered htarget a
    rw [← hsnd, List.map_map] at hlist
    exact (hsum fun pair => pair.2 a - targetCentroid a).symm.trans hlist
  refine ⟨∑ i : Fin (source.zip target).length, normSq ((source.zip target)[i].1 - sourceCentroid) +
    ∑ i : Fin (source.zip target).length, normSq ((source.zip target)[i].2 - targetCentroid), fun Q u hQ => ?_⟩
  have hresidual : cost source target Q u = ∑ i : Fin (source.zip target).length,
      normSq (Q *ᵥ ((source.zip target)[i].1 - sourceCentroid) - ((source.zip target)[i].2 - targetCentroid) +
        (Q *ᵥ sourceCentroid + u - targetCentroid)) := by
    rw [cost, hsum]
    refine Finset.sum_congr rfl fun i _ => congrArg normSq ?_
    rw [Matrix.mulVec_sub]
    abel
  have hcovariance : ∀ a b, ∑ i : Fin (source.zip target).length,
      ((source.zip target)[i].2 - targetCentroid) a * ((source.zip target)[i].1 - sourceCentroid) b =
        source.length * orderedCrossCovariance source target sourceCentroid targetCentroid a b := by
    intro a b
    rw [orderedCrossCovariance, orderedSum_eq, mul_div_cancel₀ _ hcount]
    exact (hsum fun pair => (pair.2 a - targetCentroid a) * (pair.1 b - sourceCentroid b)).symm
  have hentries : entrySum Q (fun a b => ∑ i : Fin (source.zip target).length,
      ((source.zip target)[i].2 - targetCentroid) a * ((source.zip target)[i].1 - sourceCentroid) b) =
        source.length * entrySum Q (orderedCrossCovariance source target sourceCentroid targetCentroid) := by
    show ∑ a, ∑ b, Q a b * _ = source.length * ∑ a, ∑ b, Q a b * _
    simp only [hcovariance, Finset.mul_sum]
    refine Finset.sum_congr rfl fun a _ => Finset.sum_congr rfl fun b _ => ?_
    ring
  have hcast : ((source.zip target).length : K) = source.length := congrArg Nat.cast hzip
  rw [hresidual, sum_normSq_residual hX hY hQ, hentries, hcast]
  ring

variable {f : SvdFactors K}

theorem cost_eq_iff (hlength : source.length = target.length) (hsource : orderedCentroid source = .ok sourceCentroid)
    (htarget : orderedCentroid target = .ok targetCentroid)
    (hf : ExactSvd (orderedCrossCovariance source target sourceCentroid targetCentroid) f) {Q : Matrix3 K}
    (hQ : Proper Q) (u : Fin 3 → K) :
    cost source target f.rotation (targetCentroid - f.rotation *ᵥ sourceCentroid) ≤ cost source target Q u ∧
      (cost source target Q u = cost source target f.rotation (targetCentroid - f.rotation *ᵥ sourceCentroid) ↔
        entrySum Q (orderedCrossCovariance source target sourceCentroid targetCentroid) =
          entrySum f.rotation (orderedCrossCovariance source target sourceCentroid targetCentroid) ∧
        u = targetCentroid - Q *ᵥ sourceCentroid) := by
  obtain ⟨spread, hsplit⟩ := cost_split hlength hsource htarget
  have hpos : (0 : K) < source.length := Nat.cast_pos.mpr (Nat.pos_of_ne_zero (orderedCentroid_ok hsource).1)
  have hzero : f.rotation *ᵥ sourceCentroid + (targetCentroid - f.rotation *ᵥ sourceCentroid) - targetCentroid = 0 := by
    abel
  have hnormZero : normSq (0 : Fin 3 → K) = 0 := dotProduct_zero _
  have hnonneg : 0 ≤ normSq (Q *ᵥ sourceCentroid + u - targetCentroid) := by
    unfold normSq dotProduct
    exact Finset.sum_nonneg fun i _ => mul_self_nonneg _
  have hle := hf.entrySum_le hQ.orthogonal hQ.determinant
  rw [hsplit Q u hQ.orthogonal, hsplit f.rotation _ hf.rotation_proper.1, hzero, hnormZero, mul_zero, add_zero]
  have hshift := mul_nonneg hpos.le hnonneg
  have hentry := mul_nonneg hpos.le (sub_nonneg.mpr hle)
  refine ⟨by linarith only [hshift, hentry], ?_⟩
  constructor
  · intro heq
    have h1 : (source.length : K) * normSq (Q *ᵥ sourceCentroid + u - targetCentroid) = 0 := by
      linarith only [heq, hshift, hentry]
    have hnorm := (mul_eq_zero.mp h1).resolve_left hpos.ne'
    have hvector := dotProduct_self_eq_zero.mp hnorm
    have hdiff : (source.length : K) * (entrySum f.rotation (orderedCrossCovariance source target sourceCentroid
        targetCentroid) - entrySum Q (orderedCrossCovariance source target sourceCentroid targetCentroid)) = 0 := by
      linarith only [heq, hshift, hentry]
    refine ⟨(sub_eq_zero.mp ((mul_eq_zero.mp hdiff).resolve_left hpos.ne')).symm, ?_⟩
    rw [sub_eq_zero] at hvector
    rw [← hvector]
    abel
  · rintro ⟨hentries, rfl⟩
    have hback : Q *ᵥ sourceCentroid + (targetCentroid - Q *ᵥ sourceCentroid) - targetCentroid = 0 := by abel
    rw [hback, hnormZero, hentries, mul_zero, add_zero]

theorem optimal_rotation (hlength : source.length = target.length)
    (hsource : orderedCentroid source = .ok sourceCentroid) (htarget : orderedCentroid target = .ok targetCentroid)
    (hf : ExactSvd (orderedCrossCovariance source target sourceCentroid targetCentroid) f) :
    Optimal source target f.rotation (targetCentroid - f.rotation *ᵥ sourceCentroid) where
  proper := ⟨hf.rotation_proper.1, hf.rotation_proper.2⟩
  least _ u hQ := (cost_eq_iff hlength hsource htarget hf hQ u).1

theorem unique_optimum_iff (hlength : source.length = target.length)
    (hsource : orderedCentroid source = .ok sourceCentroid) (htarget : orderedCentroid target = .ok targetCentroid)
    (hf : ExactSvd (orderedCrossCovariance source target sourceCentroid targetCentroid) f) :
    (∀ (Q : Matrix3 K) (u : Fin 3 → K), Optimal source target Q u →
      Q = f.rotation ∧ u = targetCentroid - f.rotation *ᵥ sourceCentroid) ↔ f.Separated := by
  have hoptimal := optimal_rotation hlength hsource htarget hf
  constructor
  · intro hunique
    by_contra hsep
    obtain ⟨Q, hQ, hdet, hentries, hne⟩ := hf.exists_other hsep
    have heq := (cost_eq_iff hlength hsource htarget hf ⟨hQ, hdet⟩ (targetCentroid - Q *ᵥ sourceCentroid)).2.mpr
      ⟨hentries, rfl⟩
    have hother : Optimal source target Q (targetCentroid - Q *ᵥ sourceCentroid) :=
      ⟨⟨hQ, hdet⟩, fun Q' u' hQ' => heq.trans_le (hoptimal.least Q' u' hQ')⟩
    exact hne (hunique Q _ hother).1
  · intro hsep Q u hother
    have heq := le_antisymm (hother.least _ _ hoptimal.proper) (hoptimal.least Q u hother.proper)
    obtain ⟨hentries, rfl⟩ := (cost_eq_iff hlength hsource htarget hf hother.proper u).2.mp heq
    obtain rfl := hf.eq_rotation hsep hother.proper.orthogonal hother.proper.determinant hentries
    exact ⟨rfl, rfl⟩

end Split

/-! ## What is accepted -/

section Accepted

variable {np : Numpy K} {threshold : K} {count : Nat} {values : Fin 3 → K}

theorem validateSpectrum_ok {labels : SpectrumLabels}
    (h : validateSpectrum labels values count = .ok threshold) :
    3 ≤ count ∧ 0 < threshold ∧ threshold < values 1 := by
  unfold validateSpectrum at h
  dsimp only at h
  split_ifs at h with hzero hfew hmany hspectrum htiny hrank
  · exact absurd h nofun
  · exact absurd h nofun
  · exact absurd h nofun
  · exact absurd h nofun
  · obtain rfl := Except.ok.inj h
    have hpos : (0 : K) < values 0 := lt_trans (by unfold tiny; positivity) htiny
    have hmax : (0 : K) < (max count 3 : Nat) := Nat.cast_pos.mpr (by omega)
    exact ⟨not_lt.mp hfew, mul_pos (mul_pos hmax (by unfold eps; positivity)) hpos, hrank⟩
  · exact absurd h nofun
  · exact absurd h nofun

theorem validateCross_ok {reflected : Bool}
    (h : validateCrossCovarianceSingularValues values count reflected = .ok threshold) :
    0 < threshold ∧ threshold < values 1 ∧ (reflected = true → threshold < values 1 - values 2) := by
  obtain ⟨t, ht, hrest⟩ := bind_eq_ok.mp h
  split_ifs at hrest with hgap
  · exact absurd hrest nofun
  · obtain rfl := Except.ok.inj hrest
    obtain ⟨-, hpos, hlt⟩ := validateSpectrum_ok ht
    exact ⟨hpos, hlt, fun hreflected => by_contra fun hnot => hgap ⟨hreflected, hnot⟩⟩

omit [IsStrictOrderedRing K] in
theorem validateCross_flag {reflected reflected' : Bool}
    (h : validateCrossCovarianceSingularValues values count reflected = .ok threshold)
    (hgap : reflected' = true → threshold < values 1 - values 2) :
    validateCrossCovarianceSingularValues values count reflected' = .ok threshold := by
  obtain ⟨t, ht, hrest⟩ := bind_eq_ok.mp h
  split_ifs at hrest
  · exact absurd hrest nofun
  · obtain rfl := Except.ok.inj hrest
    refine bind_eq_ok.mpr ⟨t, ht, if_neg ?_⟩
    rintro ⟨hreflected, hnot⟩
    exact hnot (hgap hreflected)

theorem separated_of_validate {f : SvdFactors K}
    (h : validateCrossCovarianceSingularValues f.singular count (decide (f.sign < 0)) = .ok threshold) :
    f.Separated := by
  obtain ⟨hpos, hlt, hgap⟩ := validateCross_ok h
  refine ⟨hpos.trans hlt, fun hneg => ?_⟩
  have hreflected : f.sign < 0 := by
    rw [hneg]
    exact neg_one_lt_zero
  exact sub_pos.mp (hpos.trans (hgap (decide_eq_true hreflected)))

theorem correction_eq {H : Matrix3 K} {f : SvdFactors K} (hf : ExactSvd H f) :
    (if decide (f.sign < 0) = true then -1 else 1 : K) = f.sign := by
  rcases hf.sign_cases with hsign | hsign
  · rw [hsign, if_neg (by simp)]
  · rw [hsign, if_pos (by simp)]

omit [IsStrictOrderedRing K] in
theorem postInit_ok {a a' : SE3Alignment K} (h : SE3Alignment.postInit np a = .ok a') : a' = a := by
  obtain ⟨checked, -, h⟩ := bind_eq_ok.mp h
  obtain ⟨rankThreshold, -, h⟩ := bind_eq_ok.mp h
  obtain ⟨crossThreshold, -, h⟩ := bind_eq_ok.mp h
  split_ifs at h
  · exact absurd h nofun
  · exact absurd h nofun
  · exact absurd h nofun
  · exact absurd h nofun
  · exact absurd h nofun
  · exact (Except.ok.inj h).symm

omit [IsStrictOrderedRing K] in
theorem kabsch_ok {source target : List (Fin 3 → K)} {a : SE3Alignment K}
    (h : baselineKabschAlignment np source target = .ok a) : source.length = target.length ∧
      ∃ sourceCentroid values rankThreshold targetCentroid f crossThreshold,
        sourceRank np source = .ok (sourceCentroid, values, rankThreshold) ∧
        orderedCentroid target = .ok targetCentroid ∧
        np.svd (orderedCrossCovariance source target sourceCentroid targetCentroid) = some f ∧
        validateCrossCovarianceSingularValues f.singular source.length (decide (f.sign < 0)) = .ok crossThreshold ∧
        a.rotation = f.left * diagonal ![1, 1, if decide (f.sign < 0) = true then -1 else 1] * f.rightTranspose ∧
        a.translation = targetCentroid - a.rotation *ᵥ sourceCentroid := by
  unfold baselineKabschAlignment at h
  split_ifs at h with hlength
  · exact absurd h nofun
  · refine ⟨not_not.mp hlength, ?_⟩
    obtain ⟨⟨sourceCentroid, values, rankThreshold⟩, hrank, h⟩ := bind_eq_ok.mp h
    obtain ⟨targetCentroid, htarget, h⟩ := bind_eq_ok.mp h
    dsimp only at h
    split at h
    · exact absurd h nofun
    · rename_i f hsvd
      by_cases hsign : rotationValidationTolerance < |(|(f.left * f.rightTranspose).det| - 1)|
      · rw [if_pos hsign] at h
        exact absurd h nofun
      · rw [if_neg hsign] at h
        obtain ⟨crossThreshold, hcross, h⟩ := bind_eq_ok.mp h
        obtain ⟨⟨determinant, orthogonalityError⟩, hproper, h⟩ := bind_eq_ok.mp h
        obtain rfl := postInit_ok h
        exact ⟨sourceCentroid, values, rankThreshold, targetCentroid, f, crossThreshold, hrank, htarget, hsvd, hcross,
          rfl, rfl⟩

omit [IsStrictOrderedRing K] in
theorem sourceRank_ok {points : List (Fin 3 → K)} {centroid values : Fin 3 → K}
    (h : sourceRank np points = .ok (centroid, values, threshold)) :
    orderedCentroid points = .ok centroid ∧ validateSourceSingularValues values points.length = .ok threshold := by
  unfold sourceRank at h
  split_ifs at h
  · exact absurd h nofun
  · obtain ⟨c, hc, h⟩ := bind_eq_ok.mp h
    dsimp only at h
    split at h
    · exact absurd h nofun
    · obtain ⟨t, ht, h⟩ := bind_eq_ok.mp h
      obtain ⟨rfl, hrest⟩ := Prod.mk.inj (Except.ok.inj h)
      obtain ⟨rfl, rfl⟩ := Prod.mk.inj hrest
      exact ⟨hc, ht⟩

theorem validateProperRotation_eq (hsqrt : np.sqrt 0 = 0) {Q : Matrix3 K} (hQ : Proper Q) :
    validateProperRotation np Q = .ok (1, 0) := by
  have hgram : Qᵀ * Q = 1 := hQ.orthogonal
  have htolerance : ¬ (rotationValidationTolerance : K) < 0 := not_lt.mpr (by unfold rotationValidationTolerance; positivity)
  have herror : np.sqrt (∑ row, ∑ column, ((1 : Matrix3 K) row column - (1 : Matrix3 K) row column) ^ 2) = 0 := by
    simp [hsqrt]
  unfold validateProperRotation
  simp only [hgram, hQ.determinant, sub_self, abs_zero, if_neg htolerance]
  simp only [sub_self] at herror
  rw [herror, if_neg htolerance]

theorem kabsch_eq (hsqrt : np.sqrt 0 = 0) {source target : List (Fin 3 → K)} (hlength : source.length = target.length)
    {sourceCentroid values targetCentroid : Fin 3 → K} {rankThreshold crossThreshold : K} {f : SvdFactors K}
    (hrank : sourceRank np source = .ok (sourceCentroid, values, rankThreshold))
    (htarget : orderedCentroid target = .ok targetCentroid)
    (hsvd : np.svd (orderedCrossCovariance source target sourceCentroid targetCentroid) = some f)
    (hf : ExactSvd (orderedCrossCovariance source target sourceCentroid targetCentroid) f)
    (hcross : validateCrossCovarianceSingularValues f.singular source.length (decide (f.sign < 0)) =
      .ok crossThreshold) :
    ∃ a, baselineKabschAlignment np source target = .ok a ∧ a.rotation = f.rotation ∧
      a.translation = targetCentroid - f.rotation *ᵥ sourceCentroid := by
  have hproper := validateProperRotation_eq hsqrt ⟨hf.rotation_proper.1, hf.rotation_proper.2⟩
  have hrotation : f.left * diagonal ![1, 1, if decide (f.sign < 0) = true then -1 else 1] * f.rightTranspose =
      f.rotation := by rw [correction_eq hf, SvdFactors.rotation]
  have hsign : ¬ (rotationValidationTolerance : K) < |(|f.sign| - 1)| := by
    have habs : |f.sign| = 1 := by
      rcases hf.sign_cases with hsign | hsign <;> rw [hsign] <;> simp
    rw [habs, sub_self, abs_zero]
    exact not_lt.mpr (by unfold rotationValidationTolerance; positivity)
  have hvalid := (sourceRank_ok hrank).2
  refine ⟨⟨f.rotation, targetCentroid - f.rotation *ᵥ sourceCentroid, source.length, values, rankThreshold, f.singular,
    crossThreshold, decide (f.sign < 0), 1, 0, true⟩, ?_, rfl, rfl⟩
  have hdet : (f.left * f.rightTranspose).det = f.sign := rfl
  unfold baselineKabschAlignment
  simp only [if_neg (not_not.mpr hlength), hrank, htarget, hsvd, hdet, if_neg hsign, hcross, hrotation, hproper,
    SE3Alignment.postInit, hvalid, bind, Except.bind, ne_eq, not_true_eq_false, if_false, Bool.not_true,
    Bool.false_eq_true]
  rfl

/-- Other factors of the same matrix pass the same check: where their sign is another, the last singular value is
zero, and the gap is the second one. -/
theorem validateCross_factors {H : Matrix3 K} {f g : SvdFactors K} (hf : ExactSvd H f) (hg : ExactSvd H g)
    (h : validateCrossCovarianceSingularValues f.singular count (decide (f.sign < 0)) = .ok threshold) :
    validateCrossCovarianceSingularValues g.singular count (decide (g.sign < 0)) = .ok threshold := by
  rw [← hf.singular_eq hg]
  by_cases hsign : f.sign = g.sign
  · rwa [← hsign]
  · refine validateCross_flag h fun _ => ?_
    rw [hf.last_eq_zero hg hsign, sub_zero]
    exact (validateCross_ok h).2.1

/-- What is returned is the only optimal transform. Other factors lead to the same one. For any two populations of one
size the optimum is the only one if and only if the cross-covariance has rank two and, where a reflection is corrected,
its two smallest singular values are not the same. -/
theorem kabsch_unique_optimum (np : Numpy K) (hsvd : ∀ H f, np.svd H = some f → ExactSvd H f)
    (hsqrt : np.sqrt 0 = 0) (source target : List (Fin 3 → K)) :
    (∀ a, baselineKabschAlignment np source target = .ok a →
      a.rotationᵀ * a.rotation = 1 ∧ a.rotation.det = 1 ∧
      Optimal source target a.rotation a.translation ∧
      (∀ Q u, Optimal source target Q u → Q = a.rotation ∧ u = a.translation) ∧
      ∀ svd : Matrix3 K → Option (SvdFactors K), (∀ H f, svd H = some f → ExactSvd H f) →
        (∀ H, (np.svd H).isSome → (svd H).isSome) →
        ∃ a', baselineKabschAlignment { np with svd := svd } source target = .ok a' ∧
          a'.rotation = a.rotation ∧ a'.translation = a.translation) ∧
    ∀ sourceCentroid targetCentroid f, source.length = target.length →
      orderedCentroid source = .ok sourceCentroid → orderedCentroid target = .ok targetCentroid →
      ExactSvd (orderedCrossCovariance source target sourceCentroid targetCentroid) f →
      (∀ threshold, validateCrossCovarianceSingularValues f.singular source.length (decide (f.sign < 0)) =
          .ok threshold →
        2 ≤ (orderedCrossCovariance source target sourceCentroid targetCentroid).rank ∧
          (f.sign < 0 → f.singular 2 ≠ f.singular 1)) ∧
      ((∃! transform : Matrix3 K × (Fin 3 → K), Optimal source target transform.1 transform.2) ↔
        2 ≤ (orderedCrossCovariance source target sourceCentroid targetCentroid).rank ∧
          (f.sign < 0 → f.singular 2 ≠ f.singular 1)) := by
  constructor
  · intro a h
    obtain ⟨hlength, sourceCentroid, values, rankThreshold, targetCentroid, f, crossThreshold, hrank, htarget, hf, hcross,
      hrotation, htranslation⟩ := kabsch_ok h
    have hexact := hsvd _ _ hf
    have hsource := (sourceRank_ok hrank).1
    rw [correction_eq hexact] at hrotation
    have hR : a.rotation = f.rotation := hrotation
    rw [hR] at htranslation ⊢
    rw [htranslation]
    have hoptimal := optimal_rotation hlength hsource htarget hexact
    refine ⟨hoptimal.proper.orthogonal, hoptimal.proper.determinant, hoptimal,
      (unique_optimum_iff hlength hsource htarget hexact).mpr (separated_of_validate hcross), fun svd hother hsome => ?_⟩
    obtain ⟨g, hg⟩ := Option.isSome_iff_exists.mp (hsome _ (Option.isSome_of_mem hf))
    have hgexact := hother _ _ hg
    have hgcross := validateCross_factors hexact hgexact hcross
    have hrank' : sourceRank { np with svd := svd } source = .ok (sourceCentroid, values, rankThreshold) := hrank
    have hsqrt' : ({ np with svd := svd } : Numpy K).sqrt 0 = 0 := hsqrt
    obtain ⟨a', haccept, hrotation', htranslation'⟩ := kabsch_eq hsqrt' hlength hrank' htarget hg hgexact hgcross
    -- both transforms are optimal, and there is one optimum
    have hone := (unique_optimum_iff hlength hsource htarget hexact).mpr (separated_of_validate hcross) _ _
      (optimal_rotation hlength hsource htarget hgexact)
    exact ⟨a', haccept, hrotation'.trans hone.1, htranslation'.trans hone.2⟩
  · intro sourceCentroid targetCentroid f hlength hsource htarget hf
    have hneeds : f.Separated ↔ 2 ≤ (orderedCrossCovariance source target sourceCentroid targetCentroid).rank ∧
        (f.sign < 0 → f.singular 2 ≠ f.singular 1) := by
      have hreflected : f.sign < 0 ↔ f.sign = -1 := by
        rcases hf.sign_cases with hsign | hsign <;> rw [hsign] <;> norm_num
      rw [SvdFactors.Separated, hf.two_le_rank, hreflected]
      constructor
      · rintro ⟨hpos, hgap⟩
        exact ⟨hpos, fun hneg => (hgap hneg).ne⟩
      · rintro ⟨hpos, hgap⟩
        exact ⟨hpos, fun hneg => lt_of_le_of_ne hf.descending.second (hgap hneg)⟩
    refine ⟨fun threshold h => hneeds.mp (separated_of_validate h), ?_⟩
    rw [← hneeds, ← unique_optimum_iff hlength hsource htarget hf]
    have hoptimal := optimal_rotation hlength hsource htarget hf
    constructor
    · rintro ⟨transform, -, hone⟩ Q u hQ
      have hboth := (hone (Q, u) hQ).trans (hone (_, _) hoptimal).symm
      exact Prod.mk.inj hboth
    · intro hone
      exact ⟨(_, _), hoptimal, fun transform h => Prod.ext (hone _ _ h).1 (hone _ _ h).2⟩

def corners : List (Fin 3 → ℚ) := [![3, 2, 1], ![3, -2, -1], ![-3, 2, -1], ![-3, -2, 1]]

def quarterTurn : Matrix3 ℚ := !![0, -1, 0; 1, 0, 0; 0, 0, 1]

def mirror : Matrix3 ℚ := !![0, -1, 0; 1, 0, 0; 0, 0, -1]

/-- The corners in the mirror, moved by (1, 2, 3). -/
def mirrored : List (Fin 3 → ℚ) := [![-1, 5, 2], ![3, 5, 4], ![-1, -1, 4], ![3, -1, 2]]

def mirrorFactors : SvdFactors ℚ := ⟨mirror, ![9, 4, 1], 1⟩

def cornersNumpy : Numpy ℚ where
  svd H := if H = mirror * diagonal ![9, 4, 1] then some mirrorFactors else none
  singularValues points := if points = corners then some ![6, 4, 2] else none
  sqrt := Rat.sqrt

theorem cornersNumpy_exact (H : Matrix3 ℚ) (f : SvdFactors ℚ) (h : cornersNumpy.svd H = some f) : ExactSvd H f := by
  change (if H = mirror * diagonal ![9, 4, 1] then some mirrorFactors else none) = some f at h
  split_ifs at h with hH
  obtain rfl := Option.some.inj h
  have hdescending : Descending (![9, 4, 1] : Fin 3 → ℚ) :=
    ⟨show (4 : ℚ) ≤ 9 by norm_num, show (1 : ℚ) ≤ 4 by norm_num, show (0 : ℚ) ≤ 1 by norm_num⟩
  have hmirror : Orthogonal mirror := by unfold Orthogonal; decide +kernel
  exact ⟨hmirror, by rw [mirrorFactors, Orthogonal, transpose_one, Matrix.one_mul], hdescending,
    by rw [hH]; exact Matrix.mul_one _⟩

theorem corners_centroid : orderedCentroid corners = .ok 0 := by
  have hcount : ¬ (corners.length = 0 ∨ exactBinary64IntegerMax < corners.length) := by decide
  rw [orderedCentroid, if_neg hcount]
  refine congrArg Except.ok (funext fun column => ?_)
  rw [orderedSum_eq]
  fin_cases column <;> norm_num [corners]

theorem mirrored_centroid : orderedCentroid mirrored = .ok ![1, 2, 3] := by
  have hcount : ¬ (mirrored.length = 0 ∨ exactBinary64IntegerMax < mirrored.length) := by decide
  rw [orderedCentroid, if_neg hcount]
  refine congrArg Except.ok (funext fun column => ?_)
  rw [orderedSum_eq]
  fin_cases column <;> norm_num [mirrored]

theorem corners_covariance :
    orderedCrossCovariance corners mirrored 0 ![1, 2, 3] = mirror * diagonal ![9, 4, 1] := by
  funext row column
  rw [orderedCrossCovariance, orderedSum_eq]
  fin_cases row <;> fin_cases column <;> 
    norm_num [corners, mirrored, mirror, diagonal, Matrix.mul_apply, Fin.sum_univ_three]

theorem corners_spectrum {labels : SpectrumLabels} {values : Fin 3 → ℚ} (h0 : values 1 ≤ values 0)
    (h1 : values 2 ≤ values 1) (h2 : 1 ≤ values 2) (h9 : values 0 ≤ 9) :
    validateSpectrum labels values 4 = .ok (4 * eps * values 0) := by
  have htiny : (tiny : ℚ) < values 0 := by
    have hsmall : (tiny : ℚ) < 1 := by
      rw [tiny, div_lt_one (by positivity)]
      exact one_lt_pow₀ one_lt_two (by decide)
    linarith only [hsmall, h0, h1, h2]
  have hrank : 4 * eps * values 0 < values 1 := by
    have heps : (4 * eps : ℚ) * 9 < 1 := by norm_num [eps]
    have hpos : (0 : ℚ) ≤ 4 * eps := by norm_num [eps]
    linarith only [mul_le_mul_of_nonneg_left h9 hpos, heps, h1, h2]
  have hspectrum : ¬ (values 0 < 0 ∨ values 1 < 0 ∨ values 2 < 0 ∨ values 0 < values 1 ∨ values 1 < values 2) := by
    rintro (h | h | h | h | h) <;> linarith only [h, h0, h1, h2]
  have hmax : ((max 4 3 : Nat) : ℚ) = 4 := by norm_num
  rw [validateSpectrum, if_neg (by decide), if_neg (by decide), if_neg (by decide), if_neg hspectrum,
    if_neg (not_not.mpr htiny)]
  simp only [hmax]
  rw [if_neg (not_not.mpr hrank)]

/-- The nearest rotation is a quarter turn, after the correction of the reflection. -/
theorem kabsch_unique_optimum_corners : ∃ a, baselineKabschAlignment cornersNumpy corners mirrored = .ok a ∧
    a.rotation = quarterTurn ∧ a.translation = ![1, 2, 3] ∧
    (∀ Q u, Optimal corners mirrored Q u → Q = quarterTurn ∧ u = ![1, 2, 3]) ∧
    ∃! transform : Matrix3 ℚ × (Fin 3 → ℚ), Optimal corners mirrored transform.1 transform.2 := by
  have hsqrt : cornersNumpy.sqrt 0 = 0 := by decide
  have hsource : validateSourceSingularValues (![6, 4, 2] : Fin 3 → ℚ) 4 = .ok (4 * eps * 6) :=
    corners_spectrum (show (4 : ℚ) ≤ 6 by norm_num) (show (2 : ℚ) ≤ 4 by norm_num) (show (1 : ℚ) ≤ 2 by norm_num)
      (show (6 : ℚ) ≤ 9 by norm_num)
  have hcentered : (corners.map fun point => point - 0) = corners := by simp
  have hrank : sourceRank cornersNumpy corners = .ok (0, ![6, 4, 2], 4 * eps * 6) := by
    have hlength : ¬ corners.length < 3 := by decide
    have hvalues : cornersNumpy.singularValues corners = some ![6, 4, 2] := by
      show (if corners = corners then some (![6, 4, 2] : Fin 3 → ℚ) else none) = _
      rw [if_pos rfl]
    have hfour : corners.length = 4 := rfl
    rw [sourceRank, if_neg hlength]
    simp only [corners_centroid, hcentered, hvalues, hfour, hsource, bind, Except.bind, pure, Except.pure]
  have hfactors : cornersNumpy.svd (orderedCrossCovariance corners mirrored 0 ![1, 2, 3]) = some mirrorFactors :=
    if_pos corners_covariance
  have hexact := cornersNumpy_exact _ _ hfactors
  have hcross : validateCrossCovarianceSingularValues mirrorFactors.singular corners.length
      (decide (mirrorFactors.sign < 0)) = .ok (4 * eps * 9) := by
    have hspectrum : validateSpectrum ⟨"cross-covariance", "cross-covariance",
        "alignment cross-covariance is numerically zero",
        "alignment cross-covariance does not define a unique proper rotation"⟩ (![9, 4, 1] : Fin 3 → ℚ) 4 =
        .ok (4 * eps * 9) :=
      corners_spectrum (show (4 : ℚ) ≤ 9 by norm_num) (show (1 : ℚ) ≤ 4 by norm_num) (show (1 : ℚ) ≤ 1 by norm_num)
        (show (9 : ℚ) ≤ 9 by norm_num)
    have hgap : (4 * eps * 9 : ℚ) < 4 - 1 := by norm_num [eps]
    exact bind_eq_ok.mpr ⟨_, hspectrum, if_neg fun h => h.2 hgap⟩
  have hrotation : mirrorFactors.rotation = quarterTurn := by decide +kernel
  have hlength : corners.length = mirrored.length := rfl
  obtain ⟨a, ha, haR, hat⟩ := kabsch_eq hsqrt hlength hrank mirrored_centroid hfactors hexact hcross
  rw [hrotation] at haR hat
  rw [Matrix.mulVec_zero, sub_zero] at hat
  have hboth := kabsch_unique_optimum cornersNumpy cornersNumpy_exact hsqrt corners mirrored
  obtain ⟨-, -, -, hunique, -⟩ := hboth.1 a ha
  rw [haR, hat] at hunique
  have hwhen := hboth.2 0 _ _ rfl corners_centroid mirrored_centroid hexact
  exact ⟨a, ha, haR, hat, hunique, hwhen.2.mpr (hwhen.1 _ hcross)⟩

end Accepted

end Alignment

end Bravo.Sequence
