import Bravo.Filter.State
import Mathlib.Tactic.Cases

/-! # `StateHelper::EKFUpdate` and `CommitPrecomputedUpdate`

The live update and the commit of a prepared one, over any arithmetic: the matrix expressions are
evaluated by kernels (`Kernels`), the loops over blocks around them are those of the source. A kernel
that keeps the shape of its argument is given by the coefficients of its result. An update that ends
the program is `none`.
-/

namespace Bravo.Filter

open Bravo.Linear

/-! ## Kernels -/

/-- An `LLT<MatrixXd, Upper>`. -/
structure LLT (K : Type) [Zero K] where
  /-- `info() == Success` -/
  success : Bool
  /-- `solveInPlace` -/
  solve : Dense K → Dense K

structure Kernels (K : Type) [Zero K] where
  storage : Nat → Nat → K
  /-- `M += X * Y.transpose()` -/
  addMulTranspose : Dense K → Dense K → Dense K → Nat → Nat → K
  /-- The upper triangle of `H * P * H.transpose()`. -/
  congruence : Dense K → Dense K → Nat → Nat → K
  /-- The factorisation of the symmetric matrix with this upper triangle. -/
  llt : Dense K → LLT K
  /-- `M * S.selfadjointView<Upper>()` -/
  mulSelfadjoint : Dense K → Dense K → Nat → Nat → K
  /-- The upper triangle of `C - X * Y.transpose()`. -/
  subMulTranspose : Dense K → Dense K → Dense K → Nat → Nat → K
  /-- `M * v` -/
  mulVec : Dense K → Dense K → Nat → K
  /-- `v.dot(w)` -/
  dot : Dense K → Dense K → K
  rotate : List K → List K → List K
  isFinite : K → Bool
  lt : K → K → Bool
  sub : K → K → K
  mul : K → K → K
  abs : K → K
  /-- `1.0e-10` -/
  tolerance : K
  /-- The extreme eigenvalues of `0.5 * (P + P.transpose())`, when the solver succeeds with finite
  ones. -/
  eigenvalues : Dense K → Option (K × K)

section Update

variable {K : Type} [Zero K] [One K] [Add K] (k : Kernels K)

def Kernels.allFinite (M : Dense K) : Bool :=
  (List.range M.rows).all fun i => (List.range M.cols).all fun j => k.isFinite (M.coeff i j)

def Kernels.max (a b : K) : K := if k.lt a b then b else a

/-- `maxCoeff()` of a list that is not empty. -/
def Kernels.maxOf : List K → K
  | [] => 0
  | x :: rest => rest.foldl (fun best y => if k.lt best y then y else best) x

/-- `minCoeff()` of a list that is not empty. -/
def Kernels.minOf : List K → K
  | [] => 0
  | x :: rest => rest.foldl (fun best y => if k.lt y best then y else best) x

def coeffs (M : Dense K) : List K :=
  (List.range M.rows).flatMap fun i => (List.range M.cols).map fun j => M.coeff i j

def diagonal (M : Dense K) : List K := (List.range M.rows).map fun i => M.coeff i i

/-- `Identity(m, m)` -/
def identity (m : Nat) : Dense K := .ofFn m m fun i j => if i = j then 1 else 0

/-- The upper triangle, which is what `LLT<MatrixXd, Upper>` reads. -/
def upperTriangle (M : Dense K) : Dense K := .ofFn M.rows M.cols fun i j => if i ≤ j then M.coeff i j else 0

/-- `v.segment(start, size)` -/
def segmentOf (v : Dense K) (start size : Nat) : List K :=
  (List.range size).map fun k => v.coeff (start + k) 0

/-! ## The live update -/

variable (st : State K)

def State.inRange (vs : List Var) : Bool :=
  vs.all fun v => decide (0 ≤ st.id v ∧ st.id v + v.size ≤ st.cov.rows)

/-- `H_id`: where each measuring variable starts in the small Jacobian. -/
def columnsOf : Nat → List Var → List (Var × Nat)
  | _, [] => []
  | it, v :: rest => (v, it) :: columnsOf (it + v.size) rest

/-- `M_i = \sum_m (P_im Hm^T)` -/
def crossBlock (H_order : List Var) (H : Dense K) (m : Nat) (var : Var) : Dense K :=
  (columnsOf 0 H_order).foldl
    (fun M_i meas => .ofFn M_i.rows M_i.cols (k.addMulTranspose M_i
      (st.cov.block (st.at var) (st.at meas.1) var.size meas.1.size)
      (H.block 0 meas.2 H.rows meas.1.size)))
    (.zero var.size m)

/-- `M_a = P*H^T` -/
def crossCovariance (H_order : List Var) (H : Dense K) (m : Nat) : Dense K :=
  st.vars.foldl (fun M_a var => M_a.setBlock (st.at var) 0 (crossBlock k st H_order H m var))
    (.zero st.cov.rows m)

/-- `StateHelper::get_marginal_covariance` -/
def marginalCovariance (small : List Var) : Dense K :=
  (columnsOf 0 small).foldl
    (fun cov i =>
      (columnsOf 0 small).foldl
        (fun cov j => cov.setBlock i.2 j.2
          (st.cov.block (st.at i.1) (st.at j.1) i.1.size j.1.size))
        cov)
    (.zero (sizeOfVars small) (sizeOfVars small))

/-- `S`, of which only the upper triangle is written. -/
def innovation (H P_small R : Dense K) : Dense K :=
  let S : Dense K := .ofFn R.rows R.rows k.storage
  let S := S.setUpper (k.congruence H P_small)
  S.setUpper fun i j => S.coeff i j + R.coeff i j

def Kernels.foundNeg (cov : Dense K) : Bool := (diagonal cov).any fun x => k.lt x 0

/-- The variables, one after the other, with their segments of `dx`. -/
def updateVariables (dx : Dense K) : Heap K :=
  st.vars.foldl (fun h v => v.update k.rotate (segmentOf dx (st.at v) v.size) h) st.heap

def refreshCameras : State K :=
  if st.options.doCalibCameraIntrinsics then
    { st with cameras := st.cameras.map fun camera =>
        match st.camIntrinsics.find? (·.1 == camera.1) with
        | some calib => (camera.1, st.heap.value calib.2)
        | none => camera }
  else st

def State.camerasPresent : Bool :=
  !st.options.doCalibCameraIntrinsics ||
    st.camIntrinsics.all fun calib => st.cameras.any (·.1 == calib.1)

def ekfProposal (H_order : List Var) (H res R : Dense K) : Dense K × Dense K :=
  let M_a := crossCovariance k st H_order H res.rows
  let P_small := marginalCovariance st H_order
  let S := innovation k H P_small R
  let Sinv := (k.llt (upperTriangle S)).solve (identity R.rows)
  let gain : Dense K := .ofFn st.cov.rows res.rows (k.mulSelfadjoint M_a Sinv)
  (.ofFn st.cov.rows 1 fun i _ => k.mulVec gain res i,
    (st.cov.setUpper (k.subMulTranspose st.cov gain M_a)).mirrorUpper)

def finishUpdate (dx cov : Dense K) : Option (State K) :=
  if k.foundNeg cov then none
  else
    let updated := { st with cov := cov, heap := updateVariables k st dx }
    if updated.camerasPresent then some (refreshCameras updated) else none

def ekfUpdate (H_order : List Var) (H res R : Dense K) : Option (State K) :=
  if res.rows ≠ R.rows ∨ R.cols ≠ R.rows ∨ H.rows ≠ res.rows ∨ H.cols ≠ sizeOfVars H_order ∨
      st.inRange st.vars = false ∨ st.inRange H_order = false then none
  else
    let proposal := ekfProposal k st H_order H res R
    finishUpdate k st proposal.1 proposal.2

/-! ## The commit of a prepared update -/

/-- `PrecomputedCovariancePolicy` -/
inductive CovariancePolicy
  | legacyNonnegativeDiagonal
  | numericalPsd
deriving DecidableEq, Repr

/-- The variables follow each other from `expected` on. -/
def contiguousFrom (st : State K) : Nat → List Var → Option Nat
  | expected, [] => some expected
  | expected, v :: rest =>
    if st.id v ≠ expected ∨ v.size = 0 ∨ st.cov.rows - expected < v.size then none
    else contiguousFrom st (expected + v.size) rest

/-- `(P - P.transpose()).cwiseAbs().maxCoeff()` -/
def symmetryError (P : Dense K) : K :=
  k.maxOf (coeffs (.ofFn P.rows P.cols fun i j => k.abs (k.sub (P.coeff i j) (P.coeff j i))))

def cwiseAbs (P : Dense K) : Dense K := .ofFn P.rows P.cols fun i j => k.abs (P.coeff i j)

/-- `P.cwiseAbs().rowwise().sum().maxCoeff()` -/
def infNorm (P : Dense K) : K :=
  k.maxOf ((List.range P.rows).map fun i =>
    ((List.range P.cols).map fun j => k.abs (P.coeff i j)).foldl (· + ·) 0)

def CovariancePolicy.accepts (P : Dense K) : CovariancePolicy → Bool
  | .legacyNonnegativeDiagonal =>
    let scale := k.max 1 (k.maxOf (coeffs (cwiseAbs k P)))
    !(k.lt (k.mul k.tolerance scale) (symmetryError k P) || (diagonal P).any fun x => k.lt x 0)
  | .numericalPsd =>
    let norm := infNorm k P
    if !k.isFinite norm || k.lt (k.mul k.tolerance (k.max 1 norm)) (symmetryError k P) then false
    else
      match k.eigenvalues P with
      | none => false
      | some (minimum, maximum) =>
        !k.lt minimum (k.mul (k.sub 0 k.tolerance) (k.max 1 maximum))

/-- `StateHelper::CommitPrecomputedUpdate`; a refused commit is `none`. -/
def commitPrecomputedUpdate (dx posterior : Dense K) (policy : CovariancePolicy) :
    Option (State K) :=
  if st.cov.rows = 0 ∨ st.cov.cols ≠ st.cov.rows ∨ dx.rows ≠ st.cov.rows ∨ dx.cols ≠ 1 ∨
      posterior.rows ≠ st.cov.rows ∨ posterior.cols ≠ st.cov.rows ∨ k.allFinite dx = false ∨
      k.allFinite posterior = false then none
  else if contiguousFrom st 0 st.vars ≠ some st.cov.rows then none
  else if !policy.accepts k posterior then none
  else if !st.camerasPresent then none
  else some (refreshCameras { st with cov := posterior, heap := updateVariables k st dx })

end Update

end Bravo.Filter
