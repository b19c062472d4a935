import Camerasp.Lib.Word

/-!
# The settings of a `cam_still` (`cam_still.hpp`, `cam_still.cpp`)

The private fields that the setters write and the commit functions read, with the setters'
normalisations, and the `convert…` switches from `RASPICAM` to `MMAL` enumerators. `unsigned int`
is `UInt32`, `int` is `Int32`. Every setter also raises `changedSettings`, which belongs to the
object and not to this record: see `Setter` and the object's `set`.
-/

namespace Camerasp.Camera

/-! ## Enumerations (`raspicamtypes.h`, `mmal_parameters_camera.h`) -/

/-- `RASPICAM_ENCODING`. -/
inductive Encoding
  | jpeg | bmp | gif | png | rgb
  deriving DecidableEq

/-- `RASPICAM_EXPOSURE`. -/
inductive Exposure
  | off | auto | night | nightpreview | backlight | spotlight | sports | snow | beach | verylong
  | fixedfps | antishake | fireworks
  deriving DecidableEq

/-- `RASPICAM_METERING`. -/
inductive Metering
  | average | spot | backlit | matrix
  deriving DecidableEq

/-- `RASPICAM_AWB`. -/
inductive Awb
  | off | auto | sunlight | cloudy | shade | tungsten | fluorescent | incandescent | flash
  | horizon
  deriving DecidableEq

/-- `RASPICAM_IMAGE_EFFECT`. -/
inductive ImageEffect
  | none | negative | solarize | sketch | denoise | emboss | oilpaint | hatch | gpen | pastel
  | watercolor | film | blur | saturation | colorswap | washedout | posterise | colorpoint
  | colorbalance | cartoon
  deriving DecidableEq

/-- `MMAL_PARAM_EXPOSUREMODE_T`. -/
inductive MmalExposureMode
  | off | auto | night | nightpreview | backlight | spotlight | sports | snow | beach | verylong
  | fixedfps | antishake | fireworks
  deriving DecidableEq

/-- `MMAL_PARAM_EXPOSUREMETERINGMODE_T`. -/
inductive MmalExposureMeteringMode
  | average | spot | backlit | matrix
  deriving DecidableEq

/-- `MMAL_PARAM_AWBMODE_T`. -/
inductive MmalAwbMode
  | off | auto | sunlight | cloudy | shade | tungsten | fluorescent | incandescent | flash
  | horizon
  deriving DecidableEq

/-- `MMAL_PARAM_IMAGEFX_T`, as far as `convertImageEffect` goes. -/
inductive MmalImageFx
  | none | negative | solarize | sketch | denoise | emboss | oilpaint | hatch | gpen | pastel
  | watercolour | film | blur | saturation | colourswap | washedout | posterise | colourpoint
  | colourbalance | cartoon
  deriving DecidableEq

/-- `MMAL_PARAM_MIRROR_T`. -/
inductive MmalMirror
  | none | vertical | horizontal | both
  deriving DecidableEq

/-- `MMAL_FOURCC`. -/
def fourcc (a b c d : Char) : UInt32 :=
  a.val ||| (b.val <<< 8) ||| (c.val <<< 16) ||| (d.val <<< 24)

def mmalEncodingOpaque : UInt32 := fourcc 'O' 'P' 'Q' 'V'

def convertEncoding : Encoding → UInt32
  | .jpeg => fourcc 'J' 'P' 'E' 'G'
  | .bmp => fourcc 'B' 'M' 'P' ' '
  | .gif => fourcc 'G' 'I' 'F' ' '
  | .png => fourcc 'P' 'N' 'G' ' '
  | .rgb => fourcc 'B' 'M' 'P' ' '

def convertMetering : Metering → MmalExposureMeteringMode
  | .average => .average
  | .spot => .spot
  | .backlit => .backlit
  | .matrix => .matrix

def convertExposure : Exposure → MmalExposureMode
  | .off => .off
  | .auto => .auto
  | .night => .night
  | .nightpreview => .nightpreview
  | .backlight => .backlight
  | .spotlight => .spotlight
  | .sports => .sports
  | .snow => .snow
  | .beach => .beach
  | .verylong => .verylong
  | .fixedfps => .fixedfps
  | .antishake => .antishake
  | .fireworks => .fireworks

def convertAWB : Awb → MmalAwbMode
  | .off => .off
  | .auto => .auto
  | .sunlight => .sunlight
  | .cloudy => .cloudy
  | .shade => .shade
  | .tungsten => .tungsten
  | .fluorescent => .fluorescent
  | .incandescent => .incandescent
  | .flash => .flash
  | .horizon => .horizon

def convertImageEffect : ImageEffect → MmalImageFx
  | .none => .none
  | .negative => .negative
  | .solarize => .solarize
  | .sketch => .sketch
  | .denoise => .denoise
  | .emboss => .emboss
  | .oilpaint => .oilpaint
  | .hatch => .hatch
  | .gpen => .gpen
  | .pastel => .pastel
  | .watercolor => .watercolour
  | .film => .film
  | .blur => .blur
  | .saturation => .saturation
  | .colorswap => .colourswap
  | .washedout => .washedout
  | .posterise => .posterise
  | .colorpoint => .colourpoint
  | .colorbalance => .colourbalance
  | .cartoon => .cartoon

/-! ## The fields and their setters -/

/-- The setting fields of `cam_still`. -/
structure Settings where
  width : UInt32
  height : UInt32
  rotation : UInt32
  brightness : UInt32
  quality : UInt32
  iso : Int32
  sharpness : Int32
  contrast : Int32
  saturation : Int32
  encoding : Encoding
  exposure : Exposure
  awb : Awb
  imageEffect : ImageEffect
  metering : Metering
  horizontalFlip : Bool
  verticalFlip : Bool
  deriving DecidableEq

/-- `setDefaults`. -/
def Settings.default : Settings where
  width := 640
  height := 480
  encoding := .bmp
  sharpness := 0
  contrast := 0
  brightness := 50
  quality := 85
  saturation := 0
  iso := 400
  exposure := .auto
  metering := .average
  awb := .auto
  imageEffect := .none
  rotation := 0
  horizontalFlip := false
  verticalFlip := false

/-- The two-sided limit of `setSharpness`, `setContrast` and `setSaturation`. -/
def limit100 (v : Int32) : Int32 :=
  let v := if v < -100 then -100 else v
  if v > 100 then 100 else v

theorem add360_toInt {r : Int32} (h : r < 0) : (r + 360).toInt = r.toInt + 360 := by
  have hl := r.le_toInt
  have h0 : r.toInt < 0 := Int32.lt_iff_toInt_lt.mp h
  have h360 : (360 : Int32).toInt = 360 := rfl
  rw [Lib.toInt_add_of_range (by omega) (by omega), h360]

/-- `while (rotation < 0) rotation += 360`. -/
def raiseRotation (rotation : Int32) : Int32 :=
  if rotation < 0 then raiseRotation (rotation + 360) else rotation
termination_by (-rotation.toInt).toNat
decreasing_by
  rename_i h
  have h0 : rotation.toInt < 0 := Int32.lt_iff_toInt_lt.mp h
  rw [add360_toInt h]
  omega

/-- The setters of `cam_still` (`setCaptureSize` is `setWidth` and `setHeight`). -/
inductive Setter
  | width (v : UInt32)
  | height (v : UInt32)
  | brightness (v : UInt32)
  | quality (v : UInt32)
  | rotation (v : Int32)
  | iso (v : Int32)
  | sharpness (v : Int32)
  | contrast (v : Int32)
  | saturation (v : Int32)
  | encoding (v : Encoding)
  | exposure (v : Exposure)
  | awb (v : Awb)
  | imageEffect (v : ImageEffect)
  | metering (v : Metering)
  | horizontalFlip (v : Bool)
  | verticalFlip (v : Bool)

namespace Settings

def setWidth (s : Settings) (v : UInt32) : Settings := { s with width := v }

def setHeight (s : Settings) (v : UInt32) : Settings := { s with height := v }

def setBrightness (s : Settings) (v : UInt32) : Settings :=
  { s with brightness := if v > 100 then v % 100 else v }

def setQuality (s : Settings) (v : UInt32) : Settings :=
  { s with quality := if v > 100 then 100 else v }

def setRotation (s : Settings) (v : Int32) : Settings :=
  let v := raiseRotation v
  { s with rotation := (if v ≥ 360 then v % 360 else v).toUInt32 }

def setISO (s : Settings) (v : Int32) : Settings := { s with iso := v }

def setSharpness (s : Settings) (v : Int32) : Settings := { s with sharpness := limit100 v }

def setContrast (s : Settings) (v : Int32) : Settings := { s with contrast := limit100 v }

def setSaturation (s : Settings) (v : Int32) : Settings := { s with saturation := limit100 v }

def setEncoding (s : Settings) (v : Encoding) : Settings := { s with encoding := v }

def setExposure (s : Settings) (v : Exposure) : Settings := { s with exposure := v }

def setAWB (s : Settings) (v : Awb) : Settings := { s with awb := v }

def setImageEffect (s : Settings) (v : ImageEffect) : Settings := { s with imageEffect := v }

def setMetering (s : Settings) (v : Metering) : Settings := { s with metering := v }

def setHorizontalFlip (s : Settings) (v : Bool) : Settings := { s with horizontalFlip := v }

def setVerticalFlip (s : Settings) (v : Bool) : Settings := { s with verticalFlip := v }

/-- The call of a setter. -/
def apply (s : Settings) : Setter → Settings
  | .width v => s.setWidth v
  | .height v => s.setHeight v
  | .brightness v => s.setBrightness v
  | .quality v => s.setQuality v
  | .rotation v => s.setRotation v
  | .iso v => s.setISO v
  | .sharpness v => s.setSharpness v
  | .contrast v => s.setContrast v
  | .saturation v => s.setSaturation v
  | .encoding v => s.setEncoding v
  | .exposure v => s.setExposure v
  | .awb v => s.setAWB v
  | .imageEffect v => s.setImageEffect v
  | .metering v => s.setMetering v
  | .horizontalFlip v => s.setHorizontalFlip v
  | .verticalFlip v => s.setVerticalFlip v

/-- `int(this->rotation / 90) * 90`, as `commitRotation` sends it. -/
def rotationDegrees (s : Settings) : Int32 := (s.rotation / 90).toInt32 * 90

/-- The mirror that `commitFlips` sends. -/
def mirror (s : Settings) : MmalMirror :=
  if s.horizontalFlip && s.verticalFlip then .both
  else if s.horizontalFlip then .horizontal
  else if s.verticalFlip then .vertical
  else .none

end Settings

end Camerasp.Camera
