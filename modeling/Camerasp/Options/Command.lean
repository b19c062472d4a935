import Camerasp.Lib.Strtol
import Camerasp.Camera.Settings
import Camerasp.Options.Tokenize

/-!
# Configuring the camera (`parseCmd.cpp`)

`processCommandLine` in its two versions, from a map of texts and from a `Json::Value`, on the
settings of a `cam_still`. Left out: `format`, which the one on the map reads and drops.

Results:
* `getParamValJson_eq`, `getParamVal_eq`: both read an option with an `int` alike.
* `processCommandLine_agree`: the two versions leave the same settings exactly where the settings
  have the exposure and the white balance that the options name.
-/

namespace Camerasp.Options

open Camerasp.Lib
open Camerasp.Camera (Settings Exposure Awb)

/-- `getExposureFromString`. -/
def getExposureFromString (str : List Char) : Exposure :=
  if str = "OFF".toList then .off
  else if str = "AUTO".toList then .auto
  else if str = "NIGHT".toList then .night
  else if str = "NIGHTPREVIEW".toList then .nightpreview
  else if str = "BACKLIGHT".toList then .backlight
  else if str = "SPOTLIGHT".toList then .spotlight
  else if str = "SPORTS".toList then .sports
  else if str = "SNOW".toList then .snow
  else if str = "BEACH".toList then .beach
  else if str = "VERYLONG".toList then .verylong
  else if str = "FIXEDFPS".toList then .fixedfps
  else if str = "ANTISHAKE".toList then .antishake
  else if str = "FIREWORKS".toList then .fireworks
  else .auto

/-- `getAwbFromString`. -/
def getAwbFromString (str : List Char) : Awb :=
  if str = "OFF".toList then .off
  else if str = "AUTO".toList then .auto
  else if str = "SUNLIGHT".toList then .sunlight
  else if str = "CLOUDY".toList then .cloudy
  else if str = "SHADE".toList then .shade
  else if str = "TUNGSTEN".toList then .tungsten
  else if str = "FLUORESCENT".toList then .fluorescent
  else if str = "INCANDESCENT".toList then .incandescent
  else if str = "FLASH".toList then .flash
  else if str = "HORIZON".toList then .horizon
  else .auto

/-! ## From a map -/

/-- `getParamVal` on a map; `atoi` has a `long` of `bits` bits. -/
def getParamVal (bits : Nat) (param : String) (args : StringMap) (defvalue : Int32) : Int32 :=
  match args param.toList with
  | none => defvalue
  | some text => atoi bits text

/-- `processCommandLine` on a map. -/
def processCommandLine (bits : Nat) (nameVal : StringMap) (camera : Settings) : Settings :=
  let camera := camera.setWidth (getParamVal bits "width" nameVal 640).toUInt32
  let camera := camera.setHeight (getParamVal bits "height" nameVal 480).toUInt32
  let camera := camera.setBrightness (getParamVal bits "brightness" nameVal 50).toUInt32
  let camera := camera.setSharpness (getParamVal bits "sharpness" nameVal 0)
  let camera := camera.setContrast (getParamVal bits "contrast" nameVal 0)
  let camera := camera.setSaturation (getParamVal bits "saturation" nameVal 0)
  let camera := camera.setISO (getParamVal bits "iso" nameVal 400)
  let camera :=
    match nameVal "exposure".toList with
    | none => camera
    | some str => camera.setExposure (getExposureFromString str)
  match nameVal "awb".toList with
  | none => camera
  | some str => camera.setAWB (getAwbFromString str)

/-! ## From JSON -/

/-- `Json::Value`, as far as an option can be one. -/
inductive Json
  | null
  | int (v : Int32)
  | str (s : List Char)

/-- `Value::empty`. -/
def Json.empty : Json → Bool
  | .null => true
  | .int _ | .str _ => false

/-- `Value::asInt`, which throws for a string. -/
def Json.asInt : Json → Option Int32
  | .null => some 0
  | .int v => some v
  | .str _ => none

/-- A JSON object by its `operator[]`. -/
abbrev JsonObject := List Char → Json

/-- `getParamVal` on JSON. -/
def getParamValJson (param : String) (item : JsonObject) (defvalue : Int32) : Option Int32 :=
  let nnType := item param.toList
  if !nnType.empty then nnType.asInt else some defvalue

/-- `processCommandLine` on JSON. -/
def processCommandLineJson (nameVal : JsonObject) (camera : Settings) : Option Settings := do
  let camera := camera.setWidth (← getParamValJson "width" nameVal 640).toUInt32
  let camera := camera.setHeight (← getParamValJson "height" nameVal 480).toUInt32
  let camera := camera.setBrightness (← getParamValJson "brightness" nameVal 50).toUInt32
  let camera := camera.setSharpness (← getParamValJson "sharpness" nameVal 0)
  let camera := camera.setContrast (← getParamValJson "contrast" nameVal 0)
  let camera := camera.setSaturation (← getParamValJson "saturation" nameVal 0)
  let camera := camera.setISO (← getParamValJson "iso" nameVal 400)
  some camera

/-! ## The same options for both -/

/-- A set of options: numbers, and names for the exposure and the white balance. -/
structure CameraOptions where
  width : Option Int32
  height : Option Int32
  brightness : Option Int32
  sharpness : Option Int32
  contrast : Option Int32
  saturation : Option Int32
  iso : Option Int32
  exposure : Option (List Char)
  awb : Option (List Char)

namespace CameraOptions

variable (o : CameraOptions)

/-- The number for a key. -/
def number (key : List Char) : Option Int32 :=
  if key = "width".toList then o.width
  else if key = "height".toList then o.height
  else if key = "brightness".toList then o.brightness
  else if key = "sharpness".toList then o.sharpness
  else if key = "contrast".toList then o.contrast
  else if key = "saturation".toList then o.saturation
  else if key = "iso".toList then o.iso
  else none

/-- The name for a key. -/
def name (key : List Char) : Option (List Char) :=
  if key = "exposure".toList then o.exposure
  else if key = "awb".toList then o.awb
  else none

/-- The options in text form. -/
def toMap : StringMap :=
  fun key => ((o.number key).map fun v => decimalText v.toInt).or (o.name key)

/-- The options as JSON. -/
def toJson : JsonObject := fun key =>
  match o.number key, o.name key with
  | some v, _ => .int v
  | none, some s => .str s
  | none, none => .null

end CameraOptions

variable {o : CameraOptions} {camera : Settings} {bits : Nat}

theorem getParamVal_eq (hb : 32 ≤ bits) (param : String) (hn : o.name param.toList = none)
    (d : Int32) :
    getParamVal bits param o.toMap d = (o.number param.toList).getD d := by
  unfold getParamVal CameraOptions.toMap
  cases o.number param.toList with
  | none => simp [hn]
  | some v => simp [atoi_text hb]

theorem getParamValJson_eq (param : String) (hn : o.name param.toList = none) (d : Int32) :
    getParamValJson param o.toJson d = some ((o.number param.toList).getD d) := by
  unfold getParamValJson CameraOptions.toJson
  cases o.number param.toList <;> simp [hn, Json.empty, Json.asInt]

/-- The settings that both versions make of the numbers. -/
def setNumbers (o : CameraOptions) (camera : Settings) : Settings :=
  let camera := camera.setWidth (o.width.getD 640).toUInt32
  let camera := camera.setHeight (o.height.getD 480).toUInt32
  let camera := camera.setBrightness (o.brightness.getD 50).toUInt32
  let camera := camera.setSharpness (o.sharpness.getD 0)
  let camera := camera.setContrast (o.contrast.getD 0)
  let camera := camera.setSaturation (o.saturation.getD 0)
  camera.setISO (o.iso.getD 400)

/-- The settings that the names make, where they are used. -/
def setNames (o : CameraOptions) (camera : Settings) : Settings :=
  let camera :=
    match o.exposure with
    | none => camera
    | some str => camera.setExposure (getExposureFromString str)
  match o.awb with
  | none => camera
  | some str => camera.setAWB (getAwbFromString str)

theorem processCommandLineJson_eq (o : CameraOptions) (camera : Settings) :
    processCommandLineJson o.toJson camera = some (setNumbers o camera) := by
  unfold processCommandLineJson
  rw [getParamValJson_eq "width" rfl, getParamValJson_eq "height" rfl,
    getParamValJson_eq "brightness" rfl, getParamValJson_eq "sharpness" rfl,
    getParamValJson_eq "contrast" rfl, getParamValJson_eq "saturation" rfl,
    getParamValJson_eq "iso" rfl]
  rfl

theorem processCommandLine_eq (hb : 32 ≤ bits) (o : CameraOptions) (camera : Settings) :
    processCommandLine bits o.toMap camera = setNames o (setNumbers o camera) := by
  have hexposure : o.toMap "exposure".toList = o.exposure := rfl
  have hawb : o.toMap "awb".toList = o.awb := rfl
  unfold processCommandLine
  rw [getParamVal_eq hb "width" rfl, getParamVal_eq hb "height" rfl,
    getParamVal_eq hb "brightness" rfl, getParamVal_eq hb "sharpness" rfl,
    getParamVal_eq hb "contrast" rfl, getParamVal_eq hb "saturation" rfl,
    getParamVal_eq hb "iso" rfl, hexposure, hawb]
  unfold setNames
  cases o.exposure <;> cases o.awb <;> rfl

/-- The camera has the exposure and the white balance that the options name. -/
structure NamesHold (o : CameraOptions) (camera : Settings) : Prop where
  exposure : ∀ str, o.exposure = some str → getExposureFromString str = camera.exposure
  awb : ∀ str, o.awb = some str → getAwbFromString str = camera.awb

theorem setNames_eq (o : CameraOptions) (camera : Settings) : setNames o camera =
    { camera with
      exposure := (o.exposure.map getExposureFromString).getD camera.exposure
      awb := (o.awb.map getAwbFromString).getD camera.awb } := by
  unfold setNames
  cases o.exposure <;> cases o.awb <;> rfl

theorem setNames_eq_iff (o : CameraOptions) (camera : Settings) :
    setNames o camera = camera ↔ NamesHold o camera := by
  rw [setNames_eq]
  constructor
  · intro h
    refine ⟨fun str hs => ?_, fun str hs => ?_⟩
    · have hexposure := congrArg Settings.exposure h
      simpa only [hs, Option.map_some, Option.getD_some] using hexposure
    · have hawb := congrArg Settings.awb h
      simpa only [hs, Option.map_some, Option.getD_some] using hawb
  · intro h
    have hexposure : (o.exposure.map getExposureFromString).getD camera.exposure =
        camera.exposure := by
      cases he : o.exposure with
      | none => rfl
      | some str => exact h.exposure str he
    have hawb : (o.awb.map getAwbFromString).getD camera.awb = camera.awb := by
      cases ha : o.awb with
      | none => rfl
      | some str => exact h.awb str ha
    rw [hexposure, hawb]

/-- No number is an exposure or a white balance. -/
theorem namesHold_setNumbers : NamesHold o (setNumbers o camera) ↔ NamesHold o camera :=
  ⟨fun h => ⟨h.exposure, h.awb⟩, fun h => ⟨h.exposure, h.awb⟩⟩

/-- Some numbers, and the names of what the camera has. -/
def shadeOptions : CameraOptions where
  width := some 800
  height := some 600
  brightness := none
  sharpness := some 150
  contrast := some (-20)
  saturation := none
  iso := some 200
  exposure := some "NIGHT".toList
  awb := some "SHADE".toList

/-- **The two versions leave the same settings exactly where the camera has the exposure and the
white balance that the options name**: JSON is not asked for them. -/
theorem processCommandLine_agree (hb : 32 ≤ bits) (o : CameraOptions) (camera : Settings) :
    processCommandLineJson o.toJson camera = some (processCommandLine bits o.toMap camera) ↔
      NamesHold o camera := by
  rw [processCommandLineJson_eq, processCommandLine_eq hb, Option.some.injEq, eq_comm,
    setNames_eq_iff, namesHold_setNumbers]

theorem processCommandLine_agree_shade :
    processCommandLineJson shadeOptions.toJson
        { Settings.default with exposure := .night, awb := .shade } =
      some (processCommandLine 64 shadeOptions.toMap
        { Settings.default with exposure := .night, awb := .shade }) := by
  refine (processCommandLine_agree (by decide) _ _).mpr ⟨fun str h => ?_, fun str h => ?_⟩
  · cases h
    decide
  · cases h
    decide

/-- `exposure` `NIGHT` on a new camera. -/
theorem processCommandLine_night :
    ¬ ∀ (bits : Nat) (o : CameraOptions) (camera : Settings), 32 ≤ bits →
      processCommandLineJson o.toJson camera =
        some (processCommandLine bits o.toMap camera) := by
  intro h
  have hn := h 32 ⟨none, none, none, none, none, none, none, some "NIGHT".toList, none⟩ .default
    (by decide)
  exact absurd hn (by decide)

end Camerasp.Options
