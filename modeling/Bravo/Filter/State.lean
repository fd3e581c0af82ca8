import Bravo.Basic.Dense
import Bravo.Filter.Variable
import Mathlib.Algebra.Field.Basic
import Mathlib.Algebra.Order.Ring.Defs

/-! # `State`

The estimated variables, their covariance and the maps into them, and the constructor: the IMU
first, then what is calibrated, each at the end of the covariance so far.
-/

namespace Bravo.Filter

open Bravo.Linear

inductive ImuModel
  | kalibr
  | rpng
deriving DecidableEq, Repr

structure StateOptions where
  imuModel : ImuModel
  doCalibImuIntrinsics : Bool
  doCalibImuGSensitivity : Bool
  doCalibCameraPose : Bool
  doCalibCameraIntrinsics : Bool
  doCalibCameraTimeoffset : Bool
  numCameras : Nat
  maxCloneSize : Int
  maxArucoFeatures : Nat
deriving DecidableEq, Repr

/-- A `shared_ptr<Landmark>` -/
structure Landmark where
  ptr : Ptr
  size : Nat
deriving DecidableEq, Repr

def Landmark.toVar (l : Landmark) : Var := .vec l.ptr l.size

structure State (K : Type) [Zero K] where
  options : StateOptions
  timestamp : K
  imu : IMU
  /-- `_calib_dt_CAMtoIMU` -/
  calibDt : Ptr
  /-- `_clones_IMU`, by time. -/
  clonesIMU : List (K × PoseJPL)
  /-- `_features_SLAM` -/
  featuresSLAM : List (Nat × Landmark)
  /-- `_cam_intrinsics` -/
  camIntrinsics : List (Nat × Ptr)
  /-- `_cam_intrinsics_cameras`, by the values of the camera objects. -/
  cameras : List (Nat × List K)
  /-- `_Cov` -/
  cov : Dense K
  /-- `_variables` -/
  vars : List Var
  heap : Heap K

section Reading

variable {K : Type} [Zero K]

/-- `var->id()` -/
def State.id (st : State K) (v : Var) : Int := st.heap.id v.ptr

/-- `var->id()`, where it is an index. -/
def State.at (st : State K) (v : Var) : Nat := (st.id v).toNat

end Reading

/-! ## Construction -/

section Construction

variable {K : Type}

/-- The ids are given out in order, each behind the size of the one before. -/
def place : Int → List Var → Heap K → Heap K
  | _, [], h => h
  | currentId, v :: rest, h => place (currentId + v.size) rest (v.setLocalId currentId h)

def Var.initialValue [Zero K] [One K] : Var → List K
  | .vec _ size => List.replicate size 0
  | .jplQuat _ => [0, 0, 0, 1]
  | .poseJPL _ => [0, 0, 0, 1, 0, 0, 0]
  | .imu _ => [0, 0, 0, 1] ++ List.replicate 12 0

/-- The objects of the constructor, in the order in which they are made. -/
def constructedImu : IMU := ⟨0, ⟨1, 2, 3⟩, 4, 5, 6⟩
def constructedDw : Var := .vec 7 6
def constructedDa : Var := .vec 8 6
def constructedTg : Var := .vec 9 9
def constructedGyro : Var := .jplQuat 10
def constructedAcc : Var := .jplQuat 11
def constructedDt : Var := .vec 12 1
def constructedCameraPose (i : Nat) : PoseJPL := ⟨13 + 4 * i, 14 + 4 * i, 15 + 4 * i⟩
def constructedIntrinsics (i : Nat) : Var := .vec (16 + 4 * i) 8

variable (o : StateOptions)

/-- Every object, and whether it becomes a variable. -/
def constructedObjects : List (Var × Bool) :=
  [(.imu constructedImu, true), (constructedDw, o.doCalibImuIntrinsics),
    (constructedDa, o.doCalibImuIntrinsics),
    (constructedTg, o.doCalibImuIntrinsics && o.doCalibImuGSensitivity),
    (constructedGyro, o.doCalibImuIntrinsics && o.imuModel == .kalibr),
    (constructedAcc, o.doCalibImuIntrinsics && o.imuModel != .kalibr),
    (constructedDt, o.doCalibCameraTimeoffset)] ++
  (List.range o.numCameras).flatMap fun i =>
    [(.poseJPL (constructedCameraPose i), o.doCalibCameraPose),
      (constructedIntrinsics i, o.doCalibCameraIntrinsics)]

def constructedVariables : List Var :=
  ((constructedObjects o).filter (·.2)).map (·.1)

def sizeOfVars (vs : List Var) : Nat := (vs.map Var.size).sum

variable [Field K]

/-- The objects with their first values; `dw` and `da` start as a triangular identity. -/
def constructedHeap : Heap K :=
  let made := (constructedObjects o).foldl
    (fun h object => object.1.setFej object.1.initialValue
      (object.1.setValue object.1.initialValue h))
    ⟨fun _ => {}, 13 + 4 * o.numCameras⟩
  [constructedDw, constructedDa].foldl
    (fun h v => v.setFej [1, 0, 0, 1, 0, 1] (v.setValue [1, 0, 0, 1, 0, 1] h)) made

/-- A prior on `count` coordinates behind the id of `v`, when it is calibrated. -/
def setPrior (h : Heap K) (enabled : Bool) (v : Var) (offset count : Nat) (sigma : K)
    (cov : Dense K) : Dense K :=
  if enabled then
    let id := (h.id v.ptr).toNat + offset
    cov.setBlock id id (Dense.scaledIdentity count (sigma ^ 2))
  else cov

def constructedCov (h : Heap K) : Dense K :=
  let cov := Dense.scaledIdentity (sizeOfVars (constructedVariables o)) ((1 / 1000 : K) ^ 2)
  let cov := setPrior h o.doCalibImuIntrinsics constructedDw 0 6 (5 / 1000) cov
  let cov := setPrior h o.doCalibImuIntrinsics constructedDa 0 6 (8 / 1000) cov
  let cov := setPrior h (o.doCalibImuIntrinsics && o.doCalibImuGSensitivity) constructedTg 0 9
    (5 / 1000) cov
  let cov := setPrior h (o.doCalibImuIntrinsics && o.imuModel == .kalibr) constructedGyro 0 3
    (5 / 1000) cov
  let cov := setPrior h (o.doCalibImuIntrinsics && o.imuModel != .kalibr) constructedAcc 0 3
    (5 / 1000) cov
  let cov := setPrior h o.doCalibCameraTimeoffset constructedDt 0 1 (1 / 100) cov
  let cov := (List.range o.numCameras).foldl
    (fun cov i =>
      setPrior h o.doCalibCameraPose (.poseJPL (constructedCameraPose i)) 3 3 (15 / 1000)
        (setPrior h o.doCalibCameraPose (.poseJPL (constructedCameraPose i)) 0 3 (5 / 1000) cov))
    cov
  (List.range o.numCameras).foldl
    (fun cov i =>
      setPrior h o.doCalibCameraIntrinsics (constructedIntrinsics i) 4 4 (5 / 1000)
        (setPrior h o.doCalibCameraIntrinsics (constructedIntrinsics i) 0 4 1 cov))
    cov

/-- `State::State` -/
def State.construct : State K :=
  let heap := place 0 (constructedVariables o) (constructedHeap o)
  { options := o
    timestamp := -1
    imu := constructedImu
    calibDt := constructedDt.ptr
    clonesIMU := []
    featuresSLAM := []
    camIntrinsics := (List.range o.numCameras).map fun i => (i, (constructedIntrinsics i).ptr)
    cameras := []
    cov := constructedCov o heap
    vars := constructedVariables o
    heap := heap }

end Construction

end Bravo.Filter
