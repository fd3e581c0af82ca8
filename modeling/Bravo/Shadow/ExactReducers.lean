import Bravo.Basic.Numerals
import Bravo.Basic.Elimination
import Bravo.Journal.Record
import Mathlib.Data.Real.Basic
import Mathlib.LinearAlgebra.Matrix.PosDef

/-! # The two reducers in exact arithmetic

`SchurUpdate::Reduce`, `UpdaterHelper::nullspace_project_inplace` with `reduce_nullspace`, and
`CP2FeatureGate::Evaluate` over the real numbers: every finiteness check passes, and what the
library's factorisations return is a parameter.
-/

namespace Bravo.Shadow.Exact

open Matrix Bravo.Elimination Bravo.Journal

structure RawSystem (m n : Nat) where
  H_x : Matrix (Fin m) (Fin n) ℝ
  H_f : Matrix (Fin m) (Fin 3) ℝ
  residual : Fin m → ℝ

structure ReducedSystem (q n : Nat) where
  H_reduced : Matrix (Fin q) (Fin n) ℝ
  residualReduced : Fin q → ℝ

/-- `CP2SufficientStatistics` -/
@[ext]
structure Statistics (n : Nat) where
  lambda : Matrix (Fin n) (Fin n) ℝ
  eta : Fin n → ℝ
  gamma : ℝ

structure Reduction (q n : Nat) extends ReducedSystem q n where
  statistics : Statistics n

/-! ## Steps -/

section Steps

variable {m n k : Nat}

/-- `M.array() / sigma` -/
noncomputable def whitenMatrix (M : Matrix (Fin m) (Fin k) ℝ) (sigma : ℝ) :
    Matrix (Fin m) (Fin k) ℝ := fun i j => M i j / sigma

noncomputable def whitenVector (v : Fin m → ℝ) (sigma : ℝ) : Fin m → ℝ := fun i => v i / sigma

/-- `bottomRows(m - 3)` -/
def bottomRows (M : Matrix (Fin m) (Fin k) ℝ) : Matrix (Fin (m - 3)) (Fin k) ℝ :=
  fun i j => M ⟨i.val + 3, by omega⟩ j

def bottomVector (v : Fin m → ℝ) : Fin (m - 3) → ℝ := fun i => v ⟨i.val + 3, by omega⟩

/-- `0.5 * (raw_lambda + raw_lambda.transpose())` -/
noncomputable def symmetrized (M : Matrix (Fin n) (Fin n) ℝ) : Matrix (Fin n) (Fin n) ℝ :=
  (1 / 2 : ℝ) • (M + Mᵀ)

/-- Lambda, eta and gamma of a whitened system. -/
noncomputable def statisticsOf (A : Matrix (Fin m) (Fin n) ℝ) (b : Fin m → ℝ) : Statistics n where
  lambda := symmetrized (Aᵀ * A)
  eta := Aᵀ *ᵥ b
  gamma := b ⬝ᵥ b

end Steps

/-! ## The nullspace projection -/

section Givens

/-- `JacobiRotation::makeGivens`, as the pair of cosine and sine. -/
abbrev MakeGivens := ℝ → ℝ → ℝ × ℝ

variable (makeGivens : MakeGivens) {m n : Nat}

/-- The rotation of the rows `i` and `j` in the columns from `column` on. -/
def rotateTrailing {k : Nat} (column : Nat) (i j : Fin m) (c s : ℝ)
    (M : Matrix (Fin m) (Fin k) ℝ) : Matrix (Fin m) (Fin k) ℝ := fun row l =>
  if column ≤ l.val then rotateRows i j c s M row l else M row l

/-- The body of the inner loop, on the rows `row` and `row + 1`. -/
def givensStep (column : Fin 3) (row : Nat) (work : RawSystem m n) : RawSystem m n :=
  if h : row + 1 < m then
    let i : Fin m := ⟨row, Nat.lt_of_succ_lt h⟩
    let j : Fin m := ⟨row + 1, h⟩
    let G := makeGivens (work.H_f i column) (work.H_f j column)
    { H_f := rotateTrailing column.val i j G.1 G.2 work.H_f
      H_x := rotateRows i j G.1 G.2 work.H_x
      residual := rotateVector i j G.1 G.2 work.residual }
  else work

/-- The inner loop from row `row` down to the row behind the diagonal. -/
def givensColumn (column : Fin 3) : Nat → RawSystem m n → RawSystem m n
  | 0, work => work
  | row + 1, work =>
    if column.val < row + 1 then
      givensColumn column row (givensStep makeGivens column row work)
    else work

/-- Both loops of `nullspace_project_inplace`. -/
def givensLoops (work : RawSystem m n) : RawSystem m n :=
  (List.finRange 3).foldl (fun work column => givensColumn makeGivens column (m - 1) work) work

def nullspaceProjectInplace (raw : RawSystem m n) : ReducedSystem (m - 3) n where
  H_reduced := bottomRows (givensLoops makeGivens raw).H_x
  residualReduced := bottomVector (givensLoops makeGivens raw).residual

/-- `reduce_nullspace`; too few rows have invalid dimensions. -/
noncomputable def reduceNullspace (raw : RawSystem m n) (sigmaPx : ℝ) :
    Option (Reduction (m - 3) n) :=
  if m ≤ 3 then none
  else
    let reduced := nullspaceProjectInplace makeGivens raw
    some {
      toReducedSystem := reduced
      statistics := statisticsOf (whitenMatrix reduced.H_reduced sigmaPx)
        (whitenVector reduced.residualReduced sigmaPx) }

end Givens

/-! ## The Schur reduction -/

section Schur

variable {m n : Nat}

/-- The factorisations of the whitened `B`: its singular values, largest first, and the orthogonal
factor of its QR decomposition. -/
structure Factorizations (m : Nat) where
  singularValues : Matrix (Fin m) (Fin 3) ℝ → Fin 3 → ℝ
  householderQ : Matrix (Fin m) (Fin 3) ℝ → Matrix (Fin m) (Fin m) ℝ

/-- `std::numeric_limits<double>::min()` and `epsilon()` -/
noncomputable def doubleMin : ℝ := (2 : ℝ)⁻¹ ^ 1022
noncomputable def doubleEpsilon : ℝ := (2 : ℝ)⁻¹ ^ 52

/-- `kMinimumSingularRatio` -/
noncomputable def minimumSingularRatio : ℝ := 1 / 1000000

/-- `[A b]` -/
def augmentedSystem (A : Matrix (Fin m) (Fin n) ℝ) (b : Fin m → ℝ) :
    Matrix (Fin m) (Fin (n + 1)) ℝ :=
  fun i j => if h : j.val < n then A i ⟨j.val, h⟩ else b i

/-- `leftCols(n)` -/
def leftColumns (M : Matrix (Fin m) (Fin (n + 1)) ℝ) : Matrix (Fin m) (Fin n) ℝ :=
  fun i j => M i j.castSucc

/-- `col(n)` -/
def lastColumn (M : Matrix (Fin m) (Fin (n + 1)) ℝ) : Fin m → ℝ := fun i => M i (Fin.last n)

open Classical in
/-- `SchurUpdate::Reduce`: the emitted system with its statistics, or the status and stage of the
rejection. -/
noncomputable def schurReduce (F : Factorizations m) (raw : RawSystem m n) (sigmaPx : ℝ) :
    Except (SchurReductionStatus × SchurReductionStage) (Reduction (m - 3) n) :=
  if m ≤ 3 then .error (.kInsufficientRows, .kInsufficientRows)
  else if ¬0 < sigmaPx then .error (.kNonfinite, .kSigma)
  else
    let A := whitenMatrix raw.H_x sigmaPx
    let B := whitenMatrix raw.H_f sigmaPx
    let b := whitenVector raw.residual sigmaPx
    let largest := F.singularValues B 0
    let smallest := F.singularValues B 2
    if ¬doubleMin < largest then .error (.kRankDeficient, .kLargestSingularValue)
    else if ¬(max m 3 : ℕ) * doubleEpsilon * largest < smallest then
      .error (.kRankDeficient, .kNumericalRank)
    else if smallest / largest < minimumSingularRatio then
      .error (.kIllConditioned, .kConditioning)
    else
      let transformed := (F.householderQ B)ᵀ * augmentedSystem A b
      let A_reduced := leftColumns (bottomRows transformed)
      let b_reduced := lastColumn (bottomRows transformed)
      .ok {
        H_reduced := sigmaPx • A_reduced
        residualReduced := sigmaPx • b_reduced
        statistics := statisticsOf A_reduced b_reduced }

end Schur

/-! ## The gate -/

section Gate

variable {q n N : Nat}

/-- `S` of the gate, over the marginal of the prior at the columns of the layout. -/
noncomputable def innovation (system : ReducedSystem q n) (prior : Matrix (Fin N) (Fin N) ℝ)
    (columns : Fin n → Fin N) (sigmaPxSq : ℝ) : Matrix (Fin q) (Fin q) ℝ :=
  system.H_reduced * prior.submatrix columns columns * system.H_reducedᵀ + sigmaPxSq • 1

/-- `residual.dot(LLT(S).solve(residual))` -/
noncomputable def chi2 (system : ReducedSystem q n) (prior : Matrix (Fin N) (Fin N) ℝ)
    (columns : Fin n → Fin N) (sigmaPxSq : ℝ) : ℝ :=
  system.residualReduced ⬝ᵥ
    ((innovation system prior columns sigmaPxSq)⁻¹ *ᵥ system.residualReduced)

/-- The thresholds: the table below 500 rows, where a missing entry is not a number, and the
quantile from there on. -/
structure Thresholds where
  table : Nat → Option ℝ
  quantile : Nat → ℝ
  multiplier : ℝ

open Classical in
/-- The decision of `CP2FeatureGate::Evaluate`: `!(chi2 > threshold)`. -/
noncomputable def lifecycleAccept (thresholds : Thresholds) (system : ReducedSystem q n)
    (prior : Matrix (Fin N) (Fin N) ℝ) (columns : Fin n → Fin N) (sigmaPxSq : ℝ) : Bool :=
  match if q < 500 then thresholds.table q else some (thresholds.quantile q) with
  | none => true
  | some check => !decide (thresholds.multiplier * check < chi2 system prior columns sigmaPxSq)

end Gate

end Bravo.Shadow.Exact
