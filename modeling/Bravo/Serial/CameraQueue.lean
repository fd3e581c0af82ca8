import Bravo.Basic.Fault

/-! # The serial camera queue

`ROS1Visualizer` with single-threaded subscribers: `callback_stereo_impl` puts stereo pairs in a queue and
`callback_inertial` feeds the pairs at its head that the IMU data cover. The estimator, the visualization and
the observer are callees on a state of their own, and all of them may throw. Times are exact. The log is not
in the code: it records what happened in which order.
-/

namespace Bravo.Visualizer

/-! ## Messages -/

structure ImuData where
  timestamp : ℚ
  wm : ℚ × ℚ × ℚ
  am : ℚ × ℚ × ℚ
deriving DecidableEq

structure CameraData (Image : Type) where
  timestamp : ℚ
  sensorIds : List Int
  images : List Image
  masks : List Image

/-- `CameraData::operator<` -/
def CameraData.lt {Image : Type} (left right : CameraData Image) : Bool :=
  if left.timestamp = right.timestamp then decide (left.sensorIds.min?.getD 0 < right.sensorIds.min?.getD 0)
  else decide (left.timestamp < right.timestamp)

/-- An image message: its header stamp, and what `cv_bridge::toCvShare` makes of it unless it throws. -/
structure ImageMsg (Image : Type) where
  stamp : ℚ
  decoded : Option Image

structure QueuedCameraData (Image Context : Type) where
  message : CameraData Image
  cp2Context : Option Context

/-- `CP2SerialProcessingEvent` -/
structure ProcessingEvent (Context : Type) where
  context : Context
  processingEntered : Bool
  processingReturned : Bool := false
  updaterInvoked : Bool
  stateRow : Option (List ℚ) := none

inductive EnqueueStatus
  | queued
  | frequencyDropped
  | cam0DecodeFailed
  | cam1DecodeFailed
deriving DecidableEq, Repr

/-! ## Callees -/

/-- What the visualizer calls, on the state `σ` of the estimator, the visualization and the observer. -/
structure Callees (ε σ Image Context : Type) where
  feedMeasurementImu : ImuData → EStateM ε σ Unit
  visualizeOdometry : ℚ → EStateM ε σ Unit
  calibDtCamToImu : σ → ℚ
  feedMeasurementCamera : CameraData Image → EStateM ε σ Unit
  feedMeasurementCameraWithCp2Context : CameraData Image → Context → EStateM ε σ Bool
  updaterInvoked : σ → Bool
  initialized : σ → Bool
  stateTimestamp : σ → ℚ
  lastVisualizationTimestamp : σ → ℚ
  pose : σ → List ℚ
  visualize : EStateM ε σ Unit
  observer : Option (ProcessingEvent Context → EStateM ε σ Bool)
  contextRejected : ε
  observerRejected : ε

structure Params (Image : Type) where
  trackFrequency : ℚ
  numCameras : Nat
  mask : Int → Image → Image

/-! ## State -/

inductive Event (σ Image Context : Type)
  | imuFed (message : ImuData)
  | bounded (message : ImuData) (app : σ)
  | queued (pair : QueuedCameraData Image Context)
  | fed (pair : QueuedCameraData Image Context)
  | processed (pair : QueuedCameraData Image Context)
  | threw (pair : QueuedCameraData Image Context)

structure ROS1Visualizer (σ Image Context : Type) where
  app : σ
  cameraQueue : List (QueuedCameraData Image Context) := []
  cameraLastTimestamp : Int → Option ℚ := fun _ => none
  threadUpdateRunning : Bool := false
  log : List (Event σ Image Context) := []

section Callbacks

variable {ε σ Image Context : Type}

abbrev Callback (ε σ Image Context α : Type) := EStateM ε (ROS1Visualizer σ Image Context) α

def app {α : Type} (x : EStateM ε σ α) : Callback ε σ Image Context α := fun s =>
  match x s.app with
  | .ok a t => .ok a { s with app := t }
  | .error e t => .error e { s with app := t }

def note (event : Event σ Image Context) : Callback ε σ Image Context Unit :=
  modify fun s => { s with log := s.log ++ [event] }

variable (C : Callees ε σ Image Context) (p : Params Image)

/-- The call of the observer in the handler of a failure, whose own failure is dropped. -/
def observeFailure (event : ProcessingEvent Context) : Callback ε σ Image Context Unit :=
  match C.observer with
  | none => return ⟨⟩
  | some observer => do
    let _ ← attempt (app (observer event))
    return ⟨⟩

def observe (event : ProcessingEvent Context) : Callback ε σ Image Context Unit :=
  match C.observer with
  | none => throw C.observerRejected
  | some observer => do
    let accepted ← app (observer event)
    onlyIf (!accepted) (throw C.observerRejected)

/-- `_app->feed_measurement_camera` -/
def feedCamera (message : CameraData Image) : Callback ε σ Image Context Unit := do
  note (.fed { message := message, cp2Context := none })
  app (C.feedMeasurementCamera message)

/-- `_app->feed_measurement_camera_with_cp2_context` -/
def feedCameraWithContext (message : CameraData Image) (context : Context) : Callback ε σ Image Context Bool := do
  note (.fed { message := message, cp2Context := some context })
  app (C.feedMeasurementCameraWithCp2Context message context)

def processWithContext (message : CameraData Image) (context : Context) : Callback ε σ Image Context Unit := do
  let fed ← attempt (feedCameraWithContext C message context)
  let s ← get
  let event : ProcessingEvent Context :=
    { context := context, processingEntered := true, updaterInvoked := C.updaterInvoked s.app }
  let done ← attempt (do
    let accepted ← liftExcept fed
    onlyIf (!accepted) (throw C.contextRejected)
    let s ← get
    let stateRowWillBeEmitted := C.initialized s.app && C.lastVisualizationTimestamp s.app ≠ C.stateTimestamp s.app
    app C.visualize
    let s ← get
    return { event with
      processingReturned := true
      stateRow := if stateRowWillBeEmitted then some (C.pose s.app) else none })
  match done with
  | .ok event => observe C event
  | .error original => do
    observeFailure C event
    throw original

def process (pair : QueuedCameraData Image Context) : Callback ε σ Image Context Unit :=
  match pair.cp2Context with
  | some context => processWithContext C pair.message context
  | none => do
    feedCamera C pair.message
    app C.visualize

def processHead (pair : QueuedCameraData Image Context) : Callback ε σ Image Context Unit := do
  match ← attempt (process C pair) with
  | .ok _ => do
    modify fun s => { s with cameraQueue := s.cameraQueue.tail }
    note (.processed pair)
  | .error e => do
    note (.threw pair)
    throw e

/-- The loop over the queue, which nothing else changes meanwhile. -/
def drain (timestampImuInC : ℚ) : List (QueuedCameraData Image Context) → Callback ε σ Image Context Unit
  | [] => return ⟨⟩
  | pair :: rest =>
    if pair.message.timestamp < timestampImuInC then do
      processHead C pair
      drain timestampImuInC rest
    else return ⟨⟩

def numUniqueCameras : Nat := if p.numCameras = 2 then 1 else p.numCameras

def updateThread (message : ImuData) : Callback ε σ Image Context Unit := do
  let s ← get
  let uniqueCamIds := (s.cameraQueue.map fun pair => pair.message.sensorIds.head?).dedup
  if uniqueCamIds.length = numUniqueCameras p then do
    note (.bounded message s.app)
    drain C (message.timestamp - C.calibDtCamToImu s.app) s.cameraQueue
  else return ⟨⟩

/-- `callback_inertial`, where the update thread is joined. -/
def callbackInertial (message : ImuData) : Callback ε σ Image Context Unit := do
  app (C.feedMeasurementImu message)
  note (.imuFed message)
  app (C.visualizeOdometry message.timestamp)
  let s ← get
  if s.threadUpdateRunning then return ⟨⟩
  else do
    modify fun s => { s with threadUpdateRunning := true }
    let processingFailure ← attempt (updateThread C p message)
    modify fun s => { s with threadUpdateRunning := false }
    liftExcept processingFailure

/-- The queue sorted by `operator<` of its messages. -/
def sortQueue (queue : List (QueuedCameraData Image Context)) : List (QueuedCameraData Image Context) :=
  queue.mergeSort fun left right => !right.message.lt left.message

def timeDelta : ℚ := 1 / p.trackFrequency

/-- Whether a pair comes too early after the last one of its camera. -/
def dropped (s : ROS1Visualizer σ Image Context) (camId0 : Int) (timestamp : ℚ) : Bool :=
  match s.cameraLastTimestamp camId0 with
  | some last => timestamp < last + timeDelta p
  | none => false

def Params.queuedPair (stamp : ℚ) (camId0 camId1 : Int) (image0 image1 : Image) (context : Option Context) :
    QueuedCameraData Image Context where
  message := {
    timestamp := stamp, sensorIds := [camId0, camId1], images := [image0, image1]
    masks := [p.mask camId0 image0, p.mask camId1 image1] }
  cp2Context := context

def callbackStereoImpl (msg0 msg1 : ImageMsg Image) (camId0 camId1 : Int) (context : Option Context) :
    Callback ε σ Image Context EnqueueStatus := do
  let s ← get
  if dropped p s camId0 msg0.stamp then return .frequencyDropped
  else do
    modify fun s => { s with cameraLastTimestamp := Function.update s.cameraLastTimestamp camId0 (some msg0.stamp) }
    match msg0.decoded, msg1.decoded with
    | none, _ => return .cam0DecodeFailed
    | some _, none => return .cam1DecodeFailed
    | some image0, some image1 => do
      let pair := p.queuedPair msg0.stamp camId0 camId1 image0 image1 context
      modify fun s => { s with cameraQueue := sortQueue (s.cameraQueue ++ [pair]) }
      note (.queued pair)
      return .queued

/-! ## Runs -/

inductive Input (Image Context : Type)
  | stereo (msg0 msg1 : ImageMsg Image) (context : Option Context)
  | inertial (message : ImuData)

def perform : Input Image Context → Callback ε σ Image Context (Option EnqueueStatus)
  | .stereo msg0 msg1 context => do
    let status ← callbackStereoImpl p msg0 msg1 0 1 context
    return some status
  | .inertial message => do
    callbackInertial C p message
    return none

def Step (s : ROS1Visualizer σ Image Context) (i : Input Image Context × Bool)
    (s' : ROS1Visualizer σ Image Context) : Prop :=
  wp (perform C p i.1) (fun _ t => i.2 = true ∧ t = s') (fun _ t => i.2 = false ∧ t = s') s

end Callbacks

end Bravo.Visualizer
