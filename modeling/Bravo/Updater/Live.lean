import Bravo.Shadow.Process

/-! # The live linear system

The accumulators of the feature loop of `UpdaterMSCKF::update`: the large Jacobian, allocated once
and filled block by block under a map from variables to columns, the residual and the retained
gamma. What the loop throws is an overflow error with its message.
-/

namespace Bravo.Updater

open Bravo.Trace Bravo.Journal Bravo.Shadow

/-! ## Variables -/

/-- `ov_type::Type`, by the address of the object, its place in the covariance and its size. -/
structure Variable where
  address : Nat
  id : Int64
  size : Int64
deriving DecidableEq, Repr

abbrev Order := List (Option Variable)

/-- `cp2_checked_add_eigen_index` behind the message of its failure. -/
def addEigenIndex (left right : Int) (message : String) : Except String Int :=
  match addIndex left right with
  | some sum => .ok sum
  | none => .error message

/-- `capture_cp2_feature_layout` and `capture_cp2_preview_layout`, which differ in the type of
their blocks and in `name`. A null variable gives an invalid block. -/
def captureLayout {β : Type} (name : String) (block : Int → Int → Int → β) :
    Int → Order → Except String (List β)
  | _, [] => .ok []
  | offset, none :: rest => do
    let blocks ← captureLayout name block offset rest
    return block (-1) 0 offset :: blocks
  | offset, some v :: rest =>
    if v.size.toInt < 0 then .error ("CP2 " ++ name ++ " layout has negative type size")
    else do
      let next ← addEigenIndex offset v.size.toInt
        ("CP2 " ++ name ++ " layout offset overflows Eigen::Index")
      let blocks ← captureLayout name block next rest
      return block v.id.toInt v.size.toInt offset :: blocks

/-- `capture_cp2_feature_layout` -/
def captureFeatureLayout (order : Order) : Except String (List CP2FeatureGateLayoutBlock) :=
  captureLayout "feature" (fun id size offset => ⟨Int64.ofInt id, Int64.ofInt size, Int64.ofInt offset⟩)
    0 order

/-- `capture_cp2_preview_layout` -/
def capturePreviewLayout (order : Order) : Except String (List MSCKFUpdatePreviewBlock) :=
  captureLayout "preview" (fun id size offset => ⟨id, size, offset⟩) 0 order

/-! ## Accumulators -/

structure LiveSystem where
  Hx_big : MatrixXd := .empty
  res_big : VectorXd := .empty
  /-- `Hx_mapping`, from the address of a variable to its first column. -/
  Hx_mapping : List (Nat × Int) := []
  Hx_order_big : Order := []
  ctJacob : Int := 0
  ctMeas : Int := 0
  retainedGamma : Binary64 := ⟨0⟩
  retainedGammaAvailable : Bool := true

structure Capacity where
  maxMeasSize : Nat
  maxHxSize : Nat

/-- `Zero(max_meas_size, max_hx_size)` -/
def LiveSystem.allocate (capacity : Capacity) : LiveSystem where
  Hx_big := .zero capacity.maxMeasSize capacity.maxHxSize
  res_big := .zero capacity.maxMeasSize

def LiveSystem.addGamma (A : Arithmetic) (system : LiveSystem) (featureGamma : Binary64) :
    LiveSystem :=
  if !system.retainedGammaAvailable then system
  else
    let candidateGamma := A.add system.retainedGamma featureGamma
    if !featureGamma.isFinite || !candidateGamma.isFinite then
      { system with retainedGammaAvailable := false, retainedGamma := quietNaN }
    else { system with retainedGamma := candidateGamma }

def LiveSystem.enterVariable (capacity : Capacity) (system : LiveSystem) (v : Variable) :
    Except String LiveSystem :=
  if (system.Hx_mapping.lookup v.address).isSome then .ok system
  else do
    let columns ← addEigenIndex system.ctJacob v.size.toInt
      "UpdaterMSCKF Jacobian column count overflows"
    if columns > capacity.maxHxSize then .error "UpdaterMSCKF Jacobian column count overflows"
    else return { system with
      Hx_mapping := system.Hx_mapping ++ [(v.address, system.ctJacob)]
      Hx_order_big := system.Hx_order_big ++ [some v]
      ctJacob := columns }

/-- Copy the columns of one variable, from column `ctHx` of the feature's Jacobian on. -/
def LiveSystem.appendVariable (capacity : Capacity) (H_x : MatrixXd) (system : LiveSystem)
    (ctHx : Int) (v : Variable) : Except String (LiveSystem × Int) := do
  let system ← system.enterVariable capacity v
  let columns ← addEigenIndex ctHx v.size.toInt "UpdaterMSCKF feature Jacobian columns overflow"
  if columns > H_x.cols then .error "UpdaterMSCKF feature Jacobian columns overflow"
  else
    match system.Hx_mapping.lookup v.address with
    | none => .error "UpdaterMSCKF global Jacobian mapping is invalid"
    | some mapped =>
      if mapped < 0 ∨ v.size.toInt > system.Hx_big.cols - mapped then
        .error "UpdaterMSCKF global Jacobian mapping is invalid"
      else
        return ({ system with
          Hx_big := system.Hx_big.setBlock system.ctMeas.toNat mapped.toNat H_x.rows
            v.size.toInt.toNat fun i j => H_x.coeff i (ctHx.toNat + j) }, columns)

def LiveSystem.appendVariables (capacity : Capacity) (H_x : MatrixXd) :
    LiveSystem → Int → Order → Except String (LiveSystem × Int)
  | system, ctHx, [] => .ok (system, ctHx)
  | _, _, none :: _ => .error "UpdaterMSCKF Jacobian layout has invalid type size"
  | system, ctHx, some v :: rest =>
    if v.size.toInt < 0 then .error "UpdaterMSCKF Jacobian layout has invalid type size"
    else do
      let (system, ctHx) ← system.appendVariable capacity H_x ctHx v
      LiveSystem.appendVariables capacity H_x system ctHx rest

/-- An accepted feature goes into the large system. -/
def LiveSystem.appendFeature (capacity : Capacity) (system : LiveSystem) (H_x : MatrixXd)
    (res : VectorXd) (order : Order) : Except String LiveSystem :=
  if H_x.rows ≠ res.rows then .error "UpdaterMSCKF accepted reduced-system shape is invalid"
  else do
    let rows ← addEigenIndex system.ctMeas res.rows "UpdaterMSCKF measurement row count overflows"
    if rows > capacity.maxMeasSize then .error "UpdaterMSCKF measurement row count overflows"
    else do
      let (system, ctHx) ← system.appendVariables capacity H_x 0 order
      if ctHx ≠ H_x.cols then .error "UpdaterMSCKF feature Jacobian layout is incomplete"
      else return { system with
        res_big := system.res_big.setSegment system.ctMeas.toNat res.rows res.coeff
        ctMeas := rows }

/-- `conservativeResize` to the rows and columns in use. -/
def LiveSystem.trim (A : Arithmetic) (system : LiveSystem) : MatrixXd × VectorXd :=
  (system.Hx_big.conservativeResize system.ctMeas.toNat system.ctJacob.toNat A.storage,
    system.res_big.conservativeResize system.ctMeas.toNat (A.storage 0))

end Bravo.Updater
