import Bravo.Recovery.Callback

/-! # Inertial measurements

The propagator as the buffer of inertial measurements and the cache of the fast propagation, the
orientation that it predicts for a recovery attempt (`predict_orientation_readonly`), and
`feed_measurement_imu`. The buffer is behind a mutex; an accessor and a feed do not overlap.

The attempt of a recovery frame is taken apart here into what it reads: the calibration and the
correspondences of the live state, the predicted orientation, and the relocalizer on these values.
-/

namespace Bravo.Recovery

/-- The C++ sum `x + y`. -/
def sumOf (x y : Binary64) : Binary64 := x - y.negate

/-- `std::abs` -/
def absOf (x : Binary64) : Binary64 := .ofSignMagnitude false x.magnitude

/-- The padding `0.10` of the buffers. -/
def padding : Binary64 := ⟨0x3fb999999999999a⟩

structure ImuData where
  timestamp : Binary64
  wm : Vector3d
  am : Vector3d
deriving DecidableEq, Repr

/-! ## The propagator -/

structure Propagator (Matrix : Type) where
  imuData : List ImuData
  cacheImuValid : Bool
  cacheStateTime : Binary64
  cacheStateEst : Matrix
  cacheStateCovariance : Matrix
  cacheTOff : Binary64

/-- The cache of the fast propagation. -/
structure PropagationCache (Matrix : Type) where
  valid : Bool
  time : Binary64
  est : Matrix
  covariance : Matrix
  tOff : Binary64

section Propagator

variable {Matrix : Type}

def Propagator.cache (p : Propagator Matrix) : PropagationCache Matrix :=
  ⟨p.cacheImuValid, p.cacheStateTime, p.cacheStateEst, p.cacheStateCovariance, p.cacheTOff⟩

def Propagator.cleanOldImuMeasurements (p : Propagator Matrix) (oldestTime : Binary64) :
    Propagator Matrix :=
  if oldestTime < ⟨0⟩ then p
  else { p with imuData := p.imuData.filter fun data => !decide (data.timestamp < oldestTime) }

def Propagator.feedImu (p : Propagator Matrix) (message : ImuData) (oldestTime : Binary64) :
    Propagator Matrix :=
  { p with imuData := p.imuData ++ [message] }.cleanOldImuMeasurements (oldestTime - padding)

end Propagator

/-- The objects of a manager, with the propagator spelled out. -/
abbrev Objects.withPropagator (O : Objects) : Objects :=
  { O with Propagator := Recovery.Propagator O.Matrix }

/-! ## Accessors -/

structure LongGapCorrespondence where
  id : UInt64
  p_FinG : Vector3d
  uvRaw : Binary64 × Binary64

structure LongGapCameraCalibration where
  K : Matrix3d
  distortion : Binary64 × Binary64 × Binary64 × Binary64
  imageWidth : Int
  imageHeight : Int
  R_ItoC : Matrix3d
  p_IinC : Vector3d

/-- What an attempt and a feed read of the objects they are given, and the static functions they
call. -/
structure Accessors (O : Objects) where
  /-- `_calib_dt_CAMtoIMU->value()(0)` -/
  calibDt : O.Body → Binary64
  /-- The keys of `_clones_IMU`. -/
  cloneTimes : O.Body → List Binary64
  calibration : FilterState O → LongGapCameraCalibration
  /-- The retained landmarks that the last frame observes, sorted by id. -/
  correspondences : O.Tracker → FilterState O → List LongGapCorrespondence
  imuRot : FilterState O → Matrix3d
  meanRate : FilterState O → ImuData → ImuData → Vector3d
  /-- `exp_so3(-omega * dt) * predicted` -/
  rotate : Vector3d → Binary64 → Matrix3d → Matrix3d
  /-- `select_imu_readings`, on a copy of the buffer. -/
  selectImuReadings : List ImuData → Binary64 → Binary64 → List ImuData
  recover : List LongGapCorrespondence → LongGapCameraCalibration → Matrix3d →
    Except Exn LongGapRelocalizationResult
  /-- `initializer->feed_imu` and `updaterZUPT->feed_imu`: both keep a buffer of their own. -/
  feedInitializer : O.Initializer → ImuData → Binary64 → O.Initializer
  feedZupt : O.ZeroVelocity → ImuData → Binary64 → O.ZeroVelocity
  /-- `params.init_options.init_window_time` -/
  initWindowTime : Binary64

section Accessors

variable {O : Objects}

/-! ## Prediction -/

def spansInterval (readings : List ImuData) (time0 time1 : Binary64) : Bool :=
  match readings.head?, readings.getLast? with
  | some first, some last =>
    decide (2 ≤ readings.length) &&
      !decide ((⟨0x3f1a36e2eb1c432d⟩ : Binary64) <                    -- 1.0e-4
        absOf ((last.timestamp - first.timestamp) - (time1 - time0)))
  | _, _ => false

def integrate (R : Accessors O) (live : FilterState O) : Matrix3d → List ImuData → Option Matrix3d
  | predicted, before :: after :: readings =>
    let dt := after.timestamp - before.timestamp
    if !dt.isFinite || !decide ((⟨0⟩ : Binary64) < dt) || !before.wm.allFinite ||
        !after.wm.allFinite || !before.am.allFinite || !after.am.allFinite then none
    else
      let omega := R.meanRate live before after
      if !omega.allFinite then none
      else integrate R live (R.rotate omega dt predicted) (after :: readings)
  | predicted, _ => if predicted.allFinite then some predicted else none

def nanMatrix : Matrix3d :=
  let row : Vector3d := ⟨.nan, .nan, .nan⟩
  ⟨row, row, row⟩

variable (R : Accessors O.withPropagator)

/-- `predict_orientation_readonly`; the second value is `R_GtoI`. -/
def predictOrientationReadonly (timestamp : Binary64) :
    EStateM Exn (VioManager O.withPropagator) (Bool × Matrix3d) := do
  let m ← get
  let live := m.state.val
  if !live.timestamp.isFinite || !timestamp.isFinite || !decide (live.timestamp < timestamp) then
    return (false, nanMatrix)
  else
    let tOff := R.calibDt live.body
    if !tOff.isFinite then return (false, nanMatrix)
    else
      let time0 := sumOf live.timestamp tOff
      let time1 := sumOf timestamp tOff
      let readings := R.selectImuReadings m.propagator.imuData time0 time1
      if !spansInterval readings time0 time1 then return (false, nanMatrix)
      else
        match integrate R live (R.imuRot live) readings with
        | none => return (false, nanMatrix)
        | some predicted => return (true, predicted)

/-- The part of `process_long_gap_recovery_frame` from the calibration to the relocalizer. -/
def relocalize (timestamp : Binary64) :
    EStateM Exn (VioManager O.withPropagator) LongGapRelocalizationResult := do
  let m ← get
  let calibration := R.calibration m.state.val
  let correspondences := R.correspondences m.trackFEATS m.state.val
  let prediction ← predictOrientationReadonly R timestamp
  liftExcept (R.recover correspondences calibration prediction.2)

/-- The outcome of the attempt on the objects of the manager, as they are once the trackers have
been fed. -/
def relocalizeLive (cb : CameraCallback O.withPropagator)
    (m : VioManager O.withPropagator) : Except Exn LongGapRelocalizationResult :=
  match (relocalize R cb.timestamp).run (finalState ((feedTrackers cb).run (callbackBegin cb m))) with
  | .ok recovery _ => .ok recovery
  | .error e _ => .error e

/-! ## Feeding -/

/-- `margtimestep`: the oldest clone, or infinity. -/
def margtimestep (times : List Binary64) : Binary64 :=
  times.foldl (fun oldest time => if time < oldest then time else oldest)
    (.ofSignMagnitude false Binary64.infMagnitude)

/-- The time before which `feed_measurement_imu` lets measurements go. -/
def oldestTime (m : VioManager O.withPropagator) (message : ImuData) : Binary64 :=
  let oldest := margtimestep (R.cloneTimes m.state.val.body)
  if !m.isInitializedVio then
    sumOf (message.timestamp - R.initWindowTime) (R.calibDt m.state.val.body) - padding
  else if m.state.val.timestamp < oldest then ⟨0xbff0000000000000⟩
  else oldest

def feedMeasurementImu (o : VioManagerOptions) (R : Accessors O.withPropagator) (message : ImuData) :
    EStateM Exn (VioManager O.withPropagator) PUnit := do
  let m ← get
  let oldest := oldestTime R m message
  modify fun m => { m with propagator := m.propagator.feedImu message oldest }
  onlyIf (!m.isInitializedVio) (modify fun m => { m with
    initializer := R.feedInitializer m.initializer message oldest })
  onlyIf (m.isInitializedVio && (!o.zuptOnlyAtBeginning || !m.hasMovedSinceZupt))
    (modify fun m => { m with
      updaterZUPT := m.updaterZUPT.map fun zupt => R.feedZupt zupt message oldest })

/-! ## Inputs -/

inductive Input (O : Objects)
  | camera (R : Accessors O.withPropagator) (cb : CameraCallback O.withPropagator)
  | imu (R : Accessors O.withPropagator) (message : ImuData)

/-- The handling of one input. In a camera callback the relocalizer works on the live objects. -/
def handleInput (o : VioManagerOptions) (norm : Vector3d → Binary64)
    (m : VioManager O.withPropagator) :
    Input O → EStateM.Result Exn (VioManager O.withPropagator) PUnit
  | .camera R cb => feedMeasurementCamera o norm m { cb with recover := relocalizeLive R cb m }
  | .imu R message => (feedMeasurementImu o R message).run m

/-- One input, whether it is handled to its end or an exception leaves the callback. -/
def LiveStep (o : VioManagerOptions) (norm : Vector3d → Binary64)
    (m : VioManager O.withPropagator) (input : Input O) (m' : VioManager O.withPropagator) : Prop :=
  m' = finalState (handleInput o norm m input)

end Accessors

end Bravo.Recovery
