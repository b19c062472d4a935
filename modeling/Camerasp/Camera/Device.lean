import Camerasp.Lib.Machine
import Camerasp.Camera.Mmal

/-!
# The `cam_still` object (`cam_still.cpp`)

The object's pointers are numbers into its `Resources`, `none` for null; a number whose component,
pool or connection is gone dangles. Every use of a pointer goes through `component`, `portOf`,
`pool` or `connection`, which stop the run on a null or dangling one. A public call is one function
of its `Outcomes`, with a field for each MMAL call in it.

* `commitParameters` is effective once per call at most, so one field `parameter` serves both of
  its callers (`createCamera` and `startCapture`).
* `takePicture` runs the callbacks of `Callback.lean` on the encoder's output port; the buffers
  delivered until `userdata->offset` is read are an outcome. Who owns the record then is the matter
  of `Ownership.lean`.
* Left out: `control_callback`, the log lines, and the sizes of the buffers in the pools.
-/

namespace Camerasp.Camera

open Camerasp.Lib (Machine)

/-- The pointers among the fields of `cam_still`. -/
structure Pointers where
  camera : Option Nat
  encoder : Option Nat
  encoderConnection : Option Nat
  encoderPool : Option Nat
  cameraStillPort : Option PortId
  encoderInputPort : Option PortId
  encoderOutputPort : Option PortId

/-- The fields of `cam_still`, and what its MMAL calls have made. -/
structure State where
  ptr : Pointers
  settings : Settings
  changedSettings : Bool
  isInitialized : Bool
  res : Resources
  dev : Device

/-- The constructor. -/
def State.init : State where
  ptr := ⟨none, none, none, none, none, none, none⟩
  settings := .default
  changedSettings := true
  isInitialized := false
  res := .init
  dev := .init

/-- How the MMAL calls of one public call end. -/
structure Outcomes where
  /-- `mmal_component_create` of the camera, and whether it has output ports -/
  camera : Created
  cameraOutputs : Bool
  enableControl : Bool
  /-- each `mmal_port_parameter_set`, by port and parameter -/
  parameter : PortKind → Param → Bool
  commitStill : Bool
  enableCamera : Bool
  cameraPool : Bool
  cameraBuffers : Nat
  /-- `mmal_component_create` of the encoder, and whether it has input and output ports -/
  encoder : Created
  encoderInputs : Bool
  encoderOutputs : Bool
  commitEncoder : Bool
  enableEncoder : Bool
  encoderPool : Bool
  encoderBuffers : Nat
  connection : Connected
  enableConnection : Bool
  destroyConnection : Bool
  destroyCamera : Bool
  destroyEncoder : Bool
  /-- `mmal_port_format_commit` in `commitParameters` -/
  commitEncoding : Bool
  enableOutput : Bool
  /-- `mmal_port_send_buffer` in `startCapture`, buffer by buffer -/
  send : Nat → Bool
  /-- the buffers the encoder delivers until `userdata->offset` is read -/
  delivered : List BufferHeader
  disableOutput : Bool

/-! ## Going through pointers -/

def component (p : Option Nat) (w : Resources) : Except Stop Nat :=
  match p with
  | none => .error .null
  | some c => if c ∈ w.components then .ok c else .error .destroyed

def portOf (p : Option PortId) (w : Resources) : Except Stop PortId :=
  match p with
  | none => .error .null
  | some q => if q.component ∈ w.components then .ok q else .error .destroyed

def pool (p : Option Nat) (w : Resources) : Except Stop Nat :=
  match p with
  | none => .error .null
  | some k => if k ∈ w.pools.map Prod.fst then .ok k else .error .destroyed

def connection (p : Option Nat) (w : Resources) : Except Stop Nat :=
  match p with
  | none => .error .null
  | some k => if k ∈ w.connections then .ok k else .error .destroyed

/-! ## Sending the settings -/

section Commit

variable (o : Outcomes)

/-- Sends a parameter of a port of component `c` and drops the result. -/
def sendParam (c : Nat) (k : PortKind) (p : Param) (v : Value) (a : Accepted) : Accepted :=
  a.set (o.parameter k p) ⟨c, k⟩ p v

def commitSharpness (s : Settings) (c : Nat) : Accepted → Accepted :=
  sendParam o c .control .sharpness (.rational s.sharpness 100)

def commitContrast (s : Settings) (c : Nat) : Accepted → Accepted :=
  sendParam o c .control .contrast (.rational s.contrast 100)

def commitBrightness (s : Settings) (c : Nat) : Accepted → Accepted :=
  sendParam o c .control .brightness (.rational s.brightness.toInt32 100)

def commitSaturation (s : Settings) (c : Nat) : Accepted → Accepted :=
  sendParam o c .control .saturation (.rational s.saturation 100)

def commitISO (s : Settings) (c : Nat) : Accepted → Accepted :=
  sendParam o c .control .iso (.uint32 s.iso.toUInt32)

def commitExposure (s : Settings) (c : Nat) : Accepted → Accepted :=
  sendParam o c .control .exposureMode (.exposureMode (convertExposure s.exposure))

def commitMetering (s : Settings) (c : Nat) : Accepted → Accepted :=
  sendParam o c .control .expMeteringMode (.exposureMeteringMode (convertMetering s.metering))

def commitAWB (s : Settings) (c : Nat) : Accepted → Accepted :=
  sendParam o c .control .awbMode (.awbMode (convertAWB s.awb))

def commitImageEffect (s : Settings) (c : Nat) : Accepted → Accepted :=
  sendParam o c .control .imageEffect (.imageFx (convertImageEffect s.imageEffect))

/-- Three ports, whatever becomes of each. -/
def commitRotation (s : Settings) (c : Nat) (a : Accepted) : Accepted :=
  sendParam o c (.output 2) .rotation (.int32 s.rotationDegrees)
    (sendParam o c (.output 1) .rotation (.int32 s.rotationDegrees)
      (sendParam o c (.output 0) .rotation (.int32 s.rotationDegrees) a))

/-- Three ports, joined by `||`: the first refusal ends it. -/
def commitFlips (s : Settings) (c : Nat) (a : Accepted) : Accepted :=
  let a := sendParam o c (.output 0) .mirror (.mirror s.mirror) a
  if o.parameter (.output 0) .mirror then
    let a := sendParam o c (.output 1) .mirror (.mirror s.mirror) a
    if o.parameter (.output 1) .mirror then
      sendParam o c (.output 2) .mirror (.mirror s.mirror) a
    else a
  else a

/-- The constants at the end of `commitParameters`. -/
def commitFixed (c : Nat) (a : Accepted) : Accepted :=
  sendParam o c .control .inputCrop (.rect 0 0 65536 65536)
    (sendParam o c .control .colourEffect (.colourfx false 128 128)
      (sendParam o c .control .exposureComp (.int32 0)
        (sendParam o c .control .videoStabilisation (.boolean false) a)))

/-- Only where the encoder's output port is known. -/
def commitQuality (s : Settings) (out : Option PortId) (a : Accepted) : Accepted :=
  match out with
  | none => a
  | some q => a.set (o.parameter q.kind .jpegQFactor) q .jpegQFactor (.uint32 s.quality)

/-- What `commitParameters` sends, in order. -/
def commitAll (s : Settings) (c : Nat) (out : Option PortId) (a : Accepted) : Accepted :=
  commitFixed o c <| commitFlips o s c <| commitRotation o s c <| commitImageEffect o s c <|
    commitAWB o s c <| commitMetering o s c <| commitExposure o s c <| commitISO o s c <|
    commitSaturation o s c <| commitQuality o s out <| commitBrightness o s c <|
    commitContrast o s c <| commitSharpness o s c a

/-- The encoder's output port may be unknown, but then it is not used. -/
def outputPort? (st : State) : Except Stop Unit :=
  match st.ptr.encoderOutputPort with
  | none => .ok ()
  | some _ => do
    let _ ← portOf st.ptr.encoderOutputPort st.res
    return ()

/-- The encoding, where the encoder's output port is known. -/
def commitEncoding (s : Settings) (out : Option PortId) (d : Device) : Device :=
  match out with
  | none => d
  | some q =>
    d.commitFormat o.commitEncoding q
      { d.format q with encoding := convertEncoding s.encoding }

def commitParameters (st : State) : Except Stop State :=
  if !st.changedSettings then .ok st
  else do
    let c ← component st.ptr.camera st.res
    outputPort? st
    let d := { st.dev with
      accepted := commitAll o st.settings c st.ptr.encoderOutputPort st.dev.accepted }
    .ok { st with
      changedSettings := false
      dev := commitEncoding o st.settings st.ptr.encoderOutputPort d }

/-! ## Setting up and tearing down -/

def destroyCamera (st : State) : Except Stop State :=
  match st.ptr.camera with
  | none => .ok st
  | some _ => do
    let c ← component st.ptr.camera st.res
    .ok { st with
      ptr := { st.ptr with camera := none }
      res := st.res.destroyComponent o.destroyCamera c
      dev := if o.destroyCamera then st.dev.disable c else st.dev }

/-- The pool first: `encoder->output[0]` is read before `encoder` is looked at. `hasOutputs` says
whether there is such a port. -/
def destroyEncoderPool (hasOutputs : Bool) (st : State) : Except Stop State :=
  match st.ptr.encoderPool with
  | none => .ok st
  | some _ => do
    let e ← component st.ptr.encoder st.res
    if !hasOutputs then .error .null
    else
      let p ← pool st.ptr.encoderPool st.res
      .ok { st with res := st.res.destroyPool ⟨e, .output 0⟩ p }

def destroyEncoder (hasOutputs : Bool) (st : State) : Except Stop State := do
  let st ← destroyEncoderPool hasOutputs st
  match st.ptr.encoder with
  | none => .ok st
  | some _ =>
    let e ← component st.ptr.encoder st.res
    .ok { st with
      ptr := { st.ptr with encoder := none }
      res := st.res.destroyComponent o.destroyEncoder e
      dev := if o.destroyEncoder then st.dev.disable e else st.dev }

/-- The way out on a failure: clean up and report. -/
def failWith (cleanUp : State → Except Stop State) (st : State) : Except Stop (Int32 × State) := do
  let st ← cleanUp st
  .ok (-1, st)

/-- `createCamera` once the component is there. -/
def setUpCamera (c : Nat) (st : State) : Except Stop (Int32 × State) :=
  if !o.cameraOutputs then failWith (destroyCamera o) st
  else
    let still : PortId := ⟨c, .output 2⟩
    let st := { st with ptr := { st.ptr with cameraStillPort := some still } }
    if !o.enableControl then failWith (destroyCamera o) st
    else do
      let control : PortId := ⟨c, .control⟩
      let d := st.dev.setPort control { st.dev.port control with isEnabled := true }
      let st := { st with dev := { d with
        accepted := sendParam o c .control .cameraConfig
          (.cameraConfig st.settings.width st.settings.height) d.accepted } }
      let st ← commitParameters o st
      let format : Format := ⟨mmalEncodingOpaque, st.settings.width, st.settings.height⟩
      let st := { st with dev := st.dev.commitFormat o.commitStill still format }
      if !o.commitStill then failWith (destroyCamera o) st
      else if !o.enableCamera then failWith (destroyCamera o) st
      else
        let (p, w) := st.res.createPool o.cameraPool still
        let st := { st with
          ptr := { st.ptr with encoderPool := p }
          res := w
          dev := st.dev.setPort still { st.dev.port still with queue := o.cameraBuffers } }
        if !o.cameraPool then failWith (destroyCamera o) st else .ok (0, st)

def createCamera (st : State) : Except Stop (Int32 × State) :=
  let n := st.res.next
  let (p, w) := st.res.createComponent o.camera
  let st := { st with ptr := { st.ptr with camera := p }, res := w }
  if o.camera ≠ .created then failWith (destroyCamera o) st
  else setUpCamera o n { st with dev := st.dev.reset n }

/-- `createEncoder` once the component is there. -/
def setUpEncoder (e : Nat) (st : State) : Except Stop (Int32 × State) :=
  if !o.encoderInputs || !o.encoderOutputs then failWith (destroyEncoder o o.encoderOutputs) st
  else
    let output : PortId := ⟨e, .output 0⟩
    let input : PortId := ⟨e, .input 0⟩
    let st := { st with
      ptr := { st.ptr with encoderInputPort := some input, encoderOutputPort := some output }
      dev := st.dev.commitFormat o.commitEncoder output
        { st.dev.format input with encoding := convertEncoding st.settings.encoding } }
    if !o.commitEncoder then failWith (destroyEncoder o o.encoderOutputs) st
    else if !o.enableEncoder then failWith (destroyEncoder o o.encoderOutputs) st
    else
      let (p, w) := st.res.createPool o.encoderPool output
      let st := { st with
        ptr := { st.ptr with encoderPool := p }
        res := w
        dev := st.dev.setPort output { st.dev.port output with queue := o.encoderBuffers } }
      if !o.encoderPool then failWith (destroyEncoder o o.encoderOutputs) st else .ok (0, st)

def createEncoder (st : State) : Except Stop (Int32 × State) :=
  let n := st.res.next
  let (p, w) := st.res.createComponent o.encoder
  let st := { st with ptr := { st.ptr with encoder := p }, res := w }
  if o.encoder ≠ .created then failWith (destroyEncoder o o.encoderOutputs) st
  else setUpEncoder o n { st with dev := st.dev.reset n }

/-- `connectPorts` on the object's ports and its connection: whether it succeeds. -/
def connectPorts (st : State) : Except Stop (Bool × State) := do
  let _ ← portOf st.ptr.cameraStillPort st.res
  let _ ← portOf st.ptr.encoderInputPort st.res
  let (ok, p, w) := st.res.createConnection o.connection st.ptr.encoderConnection
  let st := { st with ptr := { st.ptr with encoderConnection := p }, res := w }
  if !ok then .ok (false, st)
  else if o.enableConnection then .ok (true, st)
  else
    let k ← connection st.ptr.encoderConnection st.res
    .ok (false, { st with res := st.res.destroyConnection o.destroyConnection k })

def release (st : State) : Except Stop State :=
  if !st.isInitialized then .ok st
  else do
    let k ← connection st.ptr.encoderConnection st.res
    -- `createEncoder` has seen to it that the encoder has an output port.
    let st ← destroyEncoder o true
      { st with res := st.res.destroyConnection o.destroyConnection k }
    let st ← destroyCamera o st
    .ok { st with isInitialized := false }

/-- `initialize` once the camera and the encoder are there. -/
def connectAll (st : State) : Except Stop (Int32 × State) := do
  let c ← component st.ptr.camera st.res
  let e ← component st.ptr.encoder st.res
  let (ok, st) ← connectPorts o { st with ptr := { st.ptr with
    cameraStillPort := some ⟨c, .output 2⟩
    encoderInputPort := some ⟨e, .input 0⟩
    encoderOutputPort := some ⟨e, .output 0⟩ } }
  if !ok then .ok (-1, st) else .ok (0, { st with isInitialized := true })

/-- `cam_still::initialize`. -/
def initializeCam (st : State) : Except Stop (Int32 × State) :=
  if st.isInitialized then .ok (0, st)
  else do
    let (r, st) ← createCamera o st
    if r ≠ 0 then failWith (destroyCamera o) st
    else
      let (r, st) ← createEncoder o st
      if r ≠ 0 then failWith (destroyCamera o) st else connectAll o st

/-- `cam_still::open`: whether it ended well. -/
def openCam (st : State) : Except Stop (Bool × State) := do
  let (r, st) ← initializeCam o st
  .ok (r = 0, st)

/-! ## Capturing -/

/-- `num` buffers are taken from the queue; those the port accepts are held by it. -/
def sendBuffers (send : Nat → Bool) : Nat → Port → Port
  | 0, p => p
  | n + 1, p =>
    let p := sendBuffers send n p
    { p with queue := p.queue - 1, sent := if send n then p.sent + 1 else p.sent }

def startCapture (st : State) : Except Stop (Int32 × State) := do
  let st ← commitParameters o st
  let q ← portOf st.ptr.encoderOutputPort st.res
  let p := st.dev.port q
  if p.isEnabled then .ok (-1, st)
  else if !o.enableOutput then .ok (-1, st)
  else
    let _ ← pool st.ptr.encoderPool st.res
    let s ← portOf st.ptr.cameraStillPort st.res
    let ok := o.parameter s.kind .capture
    let d := st.dev.setPort q (sendBuffers o.send p.queue { p with isEnabled := true })
    let st := { st with dev := { d with
      accepted := d.accepted.set ok s .capture (.boolean true) } }
    .ok (if ok then 0 else -1, st)

def stopCapture (st : State) : Except Stop State := do
  let q ← portOf st.ptr.encoderOutputPort st.res
  let p := st.dev.port q
  if !p.isEnabled || !o.disableOutput then .ok st
  else
    let p := { p with isEnabled := false, queue := p.queue + p.sent, sent := 0 }
    .ok { st with dev := st.dev.setPort q p }

/-- `takePicture` from the result of `initialize`, which it drops, to its wait: the result of
`startCapture`. -/
def beginCapture (data : Nat → UInt8) (length : UInt32) (st : State) :
    Except Stop (Int32 × State) := do
  let q ← portOf st.ptr.encoderOutputPort st.res
  startCapture o { st with
    dev := st.dev.setPort q { st.dev.port q with userdata := some (.start data length) } }

/-- `takePicture` from its wait on. -/
def endCapture (st : State) : Except Stop ((Int32 × (Nat → UInt8) × UInt32) × State) := do
  let q ← portOf st.ptr.encoderOutputPort st.res
  let p := deliver o.delivered (st.dev.port q)
  match p.userdata with
  | none => .error .waits
  | some u =>
    if u.mutex = 0 then .error .waits
    else
      let st ← stopCapture o { st with dev := st.dev.setPort q p }
      .ok ((0, u.data, u.offset), st)

/-- `cam_still::takePicture`: its result, the caller's bytes and `*length`. -/
def takePictureOf (data : Nat → UInt8) (length : UInt32) (st : State) :
    Except Stop ((Int32 × (Nat → UInt8) × UInt32) × State) := do
  let (_, st) ← initializeCam o st
  let (r, st) ← beginCapture o data length st
  if r ≠ 0 then .ok ((-1, data, length), st) else endCapture o st

end Commit

/-! ## Runs -/

/-- A public call. -/
inductive Call
  | set (s : Setter)
  | initializeCam (o : Outcomes)
  | openCam (o : Outcomes)
  | takePicture (o : Outcomes) (data : Nat → UInt8) (length : UInt32)
  | release (o : Outcomes)

/-- A setter. -/
def set (s : Setter) (st : State) : State :=
  { st with settings := st.settings.apply s, changedSettings := true }

/-- One object, its calls in any order; each puts out its result, `0` for one without. -/
def machine : Machine State Call Int32 Stop where
  exec st
    | .set s => .ok (set s st, 0)
    | .initializeCam o => do
      let (r, st) ← initializeCam o st
      .ok (st, r)
    | .openCam o => do
      let (b, st) ← openCam o st
      .ok (st, if b then 0 else -1)
    | .takePicture o data length => do
      let ((r, _), st) ← takePictureOf o data length st
      .ok (st, r)
    | .release o => do
      let st ← release o st
      .ok (st, 0)

end Camerasp.Camera
