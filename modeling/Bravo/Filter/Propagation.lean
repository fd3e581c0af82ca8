import Bravo.Filter.Blocks

/-! # `EKFPropagation`, `clone` and `augment_clone`

The three functions in exact arithmetic, with the coefficients of the covariance they leave behind.
Each of them writes blocks that overlap, so the coefficients are read off in the order of the writes.
A call that ends the program is `none`.
-/

namespace Bravo.Filter

open Bravo.Linear

/-! ## The functions -/

section Exact

variable {K : Type} [Field K]

/-- `M += X * Y.transpose()` -/
def addMulTranspose (M X Y : Dense K) : Dense K :=
  .ofFn M.rows M.cols fun i j =>
    M.coeff i j + ∑ b ∈ Finset.range X.cols, X.coeff i b * Y.coeff j b

/-- `M += X * Y` -/
def addMul (M X Y : Dense K) : Dense K :=
  .ofFn M.rows M.cols fun i j =>
    M.coeff i j + ∑ b ∈ Finset.range X.cols, X.coeff i b * Y.coeff b j

/-- `order_NEW` is continuous in memory. -/
def State.consecutive (st : State K) : List Var → Bool
  | v :: w :: rest => st.id v + v.size = st.id w && st.consecutive (w :: rest)
  | _ => true

def covPhiT (st : State K) (order_OLD : List Var) (Phi : Dense K) : Dense K :=
  (columnsOf 0 order_OLD).foldl
    (fun M var => addMulTranspose M (st.cov.block 0 (st.at var.1) st.cov.rows var.1.size)
      (Phi.block 0 var.2 Phi.rows var.1.size))
    (.zero st.cov.rows Phi.rows)

def phiCovPhiT (st : State K) (order_OLD : List Var) (Phi Q : Dense K) : Dense K :=
  (columnsOf 0 order_OLD).foldl
    (fun M var => addMul M (Phi.block 0 var.2 Phi.rows var.1.size)
      ((covPhiT st order_OLD Phi).block (st.at var.1) 0 var.1.size Phi.rows))
    Q.mirrorUpper

def propagatedCov (st : State K) (start : Nat) (order_OLD : List Var) (Phi Q : Dense K) : Dense K :=
  let cov := st.cov.setBlock start 0 (covPhiT st order_OLD Phi).transpose
  let cov := cov.setBlock 0 start (covPhiT st order_OLD Phi)
  cov.setBlock start start (phiCovPhiT st order_OLD Phi Q)

variable [LinearOrder K]

def foundNeg (cov : Dense K) : Bool := (diagonal cov).any fun x => decide (x < 0)

def ekfPropagation (st : State K) (order_NEW order_OLD : List Var) (Phi Q : Dense K) :
    Option (State K) :=
  match order_NEW with
  | [] => none
  | first :: _ =>
    if order_OLD.isEmpty || !st.consecutive order_NEW then none
    else if sizeOfVars order_NEW ≠ Phi.rows ∨ sizeOfVars order_OLD ≠ Phi.cols ∨
        sizeOfVars order_NEW ≠ Q.cols ∨ sizeOfVars order_NEW ≠ Q.rows ∨
        st.inRange order_NEW = false ∨ st.inRange order_OLD = false then none
    else
      let cov := propagatedCov st (st.at first) order_OLD Phi Q
      if foundNeg cov then none else some { st with cov := cov }

def findVariable (vars : List Var) (ptr : Ptr) : Option Var :=
  vars.findSome? fun top =>
    if top.ptr = ptr then some top
    else
      match top.checkIfSubvariable ptr with
      | some part => if part.ptr = ptr then some part else none
      | none => none

def clonedCorner (cov : Dense K) (oldLoc size : Nat) : Dense K :=
  let grown := cov.resize (cov.rows + size) (cov.rows + size)
  grown.setBlock cov.rows cov.rows (grown.block oldLoc oldLoc size size)

def clonedColumns (cov : Dense K) (oldLoc size : Nat) : Dense K :=
  (clonedCorner cov oldLoc size).setBlock 0 cov.rows
    ((clonedCorner cov oldLoc size).block 0 oldLoc cov.rows size)

def clonedCov (cov : Dense K) (oldLoc size : Nat) : Dense K :=
  (clonedColumns cov oldLoc size).setBlock cov.rows 0
    ((clonedColumns cov oldLoc size).block oldLoc 0 size cov.rows)

def clone (st : State K) (variableToClone : Var) : Option (Var × State K) :=
  match findVariable st.vars variableToClone.ptr with
  | none => none
  | some typeCheck =>
    if !st.inRange [typeCheck] then none
    else
      let made := typeCheck.clone st.heap
      some (made.1, { st with
        cov := clonedCov st.cov (st.at typeCheck) variableToClone.size
        heap := made.1.setLocalId st.cov.rows made.2
        vars := st.vars ++ [made.1] })

/-- `_clones_IMU[timestamp] = pose` for a new time. -/
def insertClone (time : K) (pose : PoseJPL) : List (K × PoseJPL) → List (K × PoseJPL)
  | [] => [(time, pose)]
  | clone :: rest =>
    if time < clone.1 then (time, pose) :: clone :: rest else clone :: insertClone time pose rest

/-- The columns and then the rows of the clone take up the time offset. -/
def offsetCov (cov : Dense K) (loc dt : Nat) (dnc : Nat → K) : Dense K :=
  let columns := cov.setBlock 0 loc (.ofFn cov.rows 6 fun i a =>
    cov.coeff i (loc + a) + cov.coeff i dt * dnc a)
  columns.setBlock loc 0 (.ofFn 6 cov.cols fun a j =>
    columns.coeff (loc + a) j + dnc a * columns.coeff dt j)

/-- `dnc_dt`: the last angular rate over the velocity. -/
def dncDt (last_w : Fin 3 → K) (vel : List K) (a : Nat) : K :=
  if h : a < 3 then last_w ⟨a, h⟩ else vel.getD (a - 3) 0

def augmentClone (st : State K) (last_w : Fin 3 → K) : Option (State K) :=
  if st.clonesIMU.any fun clone => clone.1 == st.timestamp then none
  else
    match clone st (.poseJPL st.imu.pose) with
    | some (.poseJPL pose, cloned) =>
      let st' := { cloned with clonesIMU := insertClone st.timestamp pose cloned.clonesIMU }
      if st'.options.doCalibCameraTimeoffset then
        let dt := st'.heap.id st'.calibDt
        let dnc := dncDt last_w (st'.heap.value st'.imu.v)
        if dt < 0 ∨ st'.cov.rows ≤ dt then none
        else
          let cov := offsetCov st'.cov (st'.heap.id pose.ptr).toNat dt.toNat dnc
          some { st' with cov := cov }
      else some st'
    | _ => none

end Exact

/-! ## Coefficients of the propagated covariance -/

section Coefficients

variable {K : Type} [Field K] {st : State K} {order_OLD : List Var} {Phi Q : Dense K}

theorem size_covPhiT : (covPhiT st order_OLD Phi).rows = st.cov.rows ∧
    (covPhiT st order_OLD Phi).cols = Phi.rows := by
  unfold covPhiT
  apply Dense.size_foldl
  intro M var
  exact ⟨rfl, rfl⟩

theorem size_phiCovPhiT : (phiCovPhiT st order_OLD Phi Q).rows = Q.rows ∧
    (phiCovPhiT st order_OLD Phi Q).cols = Q.cols := by
  unfold phiCovPhiT
  apply Dense.size_foldl
  intro M var
  exact ⟨rfl, rfl⟩

theorem coeff_covPhiT {i a : Nat} (hi : i < st.cov.rows) (ha : a < Phi.rows) :
    (covPhiT st order_OLD Phi).coeff i a =
      ∑ c ∈ Finset.range (sizeOfVars order_OLD),
        st.cov.coeff i (st.pos order_OLD c) * Phi.coeff a c := by
  have hfold := coeff_foldl_columns st st.cov.rows Phi.rows i a
    (fun M var => addMulTranspose M (st.cov.block 0 (st.at var.1) st.cov.rows var.1.size)
      (Phi.block 0 var.2 Phi.rows var.1.size))
    (fun p c => st.cov.coeff i p * Phi.coeff a c) (fun _ _ => ⟨rfl, rfl⟩)
    (fun M var hrows hcols => by
      have hstep : (addMulTranspose M (st.cov.block 0 (st.at var.1) st.cov.rows var.1.size)
          (Phi.block 0 var.2 Phi.rows var.1.size)).coeff i a = M.coeff i a + _ :=
        Dense.coeff_ofFn (hrows ▸ hi) (hcols ▸ ha)
      rw [hstep, Dense.cols_block]
      congr 1
      refine Finset.sum_congr rfl fun b hb => ?_
      rw [Dense.coeff_block hi (Finset.mem_range.mp hb), Dense.coeff_block ha (Finset.mem_range.mp hb),
        Nat.zero_add, Nat.zero_add])
    order_OLD 0 (.zero st.cov.rows Phi.rows) rfl rfl
  simpa [covPhiT] using hfold

theorem coeff_phiCovPhiT {a b : Nat} (hQ : Q.rows = Phi.rows ∧ Q.cols = Phi.rows)
    (ha : a < Phi.rows) (hb : b < Phi.rows) :
    (phiCovPhiT st order_OLD Phi Q).coeff a b = Q.mirrorUpper.coeff a b +
      ∑ c ∈ Finset.range (sizeOfVars order_OLD),
        Phi.coeff a c * (covPhiT st order_OLD Phi).coeff (st.pos order_OLD c) b := by
  have hfold := coeff_foldl_columns st Phi.rows Phi.rows a b
    (fun M var => addMul M (Phi.block 0 var.2 Phi.rows var.1.size)
      ((covPhiT st order_OLD Phi).block (st.at var.1) 0 var.1.size Phi.rows))
    (fun p c => Phi.coeff a c * (covPhiT st order_OLD Phi).coeff p b) (fun _ _ => ⟨rfl, rfl⟩)
    (fun M var hrows hcols => by
      have hstep : (addMul M (Phi.block 0 var.2 Phi.rows var.1.size)
          ((covPhiT st order_OLD Phi).block (st.at var.1) 0 var.1.size Phi.rows)).coeff a b =
            M.coeff a b + _ :=
        Dense.coeff_ofFn (hrows ▸ ha) (hcols ▸ hb)
      rw [hstep, Dense.cols_block]
      congr 1
      refine Finset.sum_congr rfl fun d hd => ?_
      rw [Dense.coeff_block ha (Finset.mem_range.mp hd), Dense.coeff_block (Finset.mem_range.mp hd) hb,
        Nat.zero_add, Nat.zero_add])
    order_OLD 0 Q.mirrorUpper hQ.1 hQ.2
  simpa [phiCovPhiT] using hfold

theorem coeff_propagatedCov {start i j : Nat} (hsquare : st.cov.rows = st.cov.cols)
    (hQ : Q.rows = Phi.rows ∧ Q.cols = Phi.rows) (hi : i < st.cov.rows) (hj : j < st.cov.rows) :
    (propagatedCov st start order_OLD Phi Q).coeff i j =
      if start ≤ i ∧ i < start + Phi.rows then
        if start ≤ j ∧ j < start + Phi.rows then
          (phiCovPhiT st order_OLD Phi Q).coeff (i - start) (j - start)
        else (covPhiT st order_OLD Phi).coeff j (i - start)
      else if start ≤ j ∧ j < start + Phi.rows then
        (covPhiT st order_OLD Phi).coeff i (j - start)
      else st.cov.coeff i j := by
  obtain ⟨hCr, hCc⟩ := @size_covPhiT _ _ st order_OLD Phi
  obtain ⟨hMr, hMc⟩ := @size_phiCovPhiT _ _ st order_OLD Phi Q
  have hj' : j < st.cov.cols := hsquare ▸ hj
  unfold propagatedCov
  rw [Dense.coeff_setBlock (by exact hi) (by exact hj'), Dense.coeff_setBlock (by exact hi) (by exact hj'),
    Dense.coeff_setBlock hi hj', hMr, hMc, hQ.1, hQ.2, hCr, hCc, Dense.rows_transpose,
    Dense.cols_transpose, hCr, hCc, Dense.coeff_transpose]
  simp only [Nat.zero_le, Nat.zero_add, true_and, Nat.sub_zero]
  by_cases hin : start ≤ i ∧ i < start + Phi.rows
  · by_cases hjn : start ≤ j ∧ j < start + Phi.rows
    · rw [if_pos ⟨hin.1, hin.2, hjn⟩, if_pos hin, if_pos hjn]
    · rw [if_neg (fun h => hjn h.2.2), if_neg (fun h => hjn h.2), if_pos ⟨hin.1, hin.2, hj⟩,
        if_pos hin, if_neg hjn]
  · by_cases hjn : start ≤ j ∧ j < start + Phi.rows
    · rw [if_neg (fun h => hin ⟨h.1, h.2.1⟩), if_pos ⟨hi, hjn⟩, if_neg hin, if_pos hjn]
    · rw [if_neg (fun h => hin ⟨h.1, h.2.1⟩), if_neg (fun h => hjn h.2),
        if_neg (fun h => hin ⟨h.1, h.2.1⟩), if_neg hin, if_neg hjn]

end Coefficients

end Bravo.Filter
