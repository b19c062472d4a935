import Camerasp.Camera.Lifecycle

/-!
# Which captures are taken with the object's settings

`Agrees` says that the device has accepted every setting the object holds. `steps_agree`: in a run
whose calls are all `Sound`, every capture that starts does so with an object and a device that
agree. What a run must keep clear of to be `Sound` is what the object loses track of, since
`changedSettings` falls whatever becomes of the parameters:

* The quality is not sent with the first `commitParameters`, in `createCamera`, where the
  encoder's output port is not known. So a capture that finds `changedSettings` down needs an
  earlier one that did not, since the object was set up; `tracked` runs the object beside a flag
  for that (`sentAfter`).
* The size is sent in `createCamera` alone: it must be accepted there, and stay.
* Everything else must be accepted whenever it is sent.

`FlagAgrees` says that `changedSettings` is down only where object and device agree. In a state of
such a run it holds exactly where `changedSettings` is up or that flag is (`InStep.flagAgrees_iff`):
from every set-up to the first capture that commits it does not.
-/

namespace Camerasp.Camera

open Camerasp.Lib (Machine)

/-! ## Object and device -/

/-- What the settings make of a parameter of the camera's control port. -/
def Settings.controlValue (s : Settings) : Param → Option Value
  | .sharpness => some (.rational s.sharpness 100)
  | .contrast => some (.rational s.contrast 100)
  | .brightness => some (.rational s.brightness.toInt32 100)
  | .saturation => some (.rational s.saturation 100)
  | .iso => some (.uint32 s.iso.toUInt32)
  | .exposureMode => some (.exposureMode (convertExposure s.exposure))
  | .expMeteringMode => some (.exposureMeteringMode (convertMetering s.metering))
  | .awbMode => some (.awbMode (convertAWB s.awb))
  | .imageEffect => some (.imageFx (convertImageEffect s.imageEffect))
  | _ => none

/-- Camera `c` has accepted the settings of its control port, its rotation and its flips. -/
structure CameraAgrees (c : Nat) (s : Settings) (d : Device) : Prop where
  control : ∀ p v, s.controlValue p = some v → d.accepted ⟨c, .control⟩ p = some v
  rotation : ∀ i < 3, d.accepted ⟨c, .output i⟩ .rotation = some (.int32 s.rotationDegrees)
  flips : ∀ i < 3, d.accepted ⟨c, .output i⟩ .mirror = some (.mirror s.mirror)

/-- Camera `c` has accepted the size. -/
structure SizeAgrees (c : Nat) (s : Settings) (d : Device) : Prop where
  config : d.accepted ⟨c, .control⟩ .cameraConfig = some (.cameraConfig s.width s.height)
  still : ∃ f, d.committed ⟨c, .output 2⟩ = some f ∧ f.width = s.width ∧ f.height = s.height

/-- Encoder `e` has accepted the quality and the encoding. -/
structure EncoderAgrees (e : Nat) (s : Settings) (d : Device) : Prop where
  quality : d.accepted ⟨e, .output 0⟩ .jpegQFactor = some (.uint32 s.quality)
  encoding : ∃ f, d.committed ⟨e, .output 0⟩ = some f ∧ f.encoding = convertEncoding s.encoding

/-- **The device has last accepted what the object holds.** -/
structure Agrees (c e : Nat) (st : State) : Prop where
  camera : CameraAgrees c st.settings st.dev
  size : SizeAgrees c st.settings st.dev
  encoder : EncoderAgrees e st.settings st.dev

/-- What is wanted of a call: a capture that starts does so with object and device in agreement. -/
def CapturesAgree (st : State) : Call → Prop
  | .takePicture o data length => ∀ r st₁ st₂, initializeCam o st = .ok (r, st₁) →
      beginCapture o data length st₁ = .ok (0, st₂) →
      ∃ c e, st₂.ptr.camera = some c ∧ st₂.ptr.encoder = some e ∧ Agrees c e st₂
  | _ => True

/-- `changedSettings` is down only where object and device agree. -/
def FlagAgrees (st : State) : Prop :=
  ¬ st.changedSettings →
    ∃ c e, st.ptr.camera = some c ∧ st.ptr.encoder = some e ∧ Agrees c e st

/-! ## The condition -/

/-- The device accepts every setting that `commitParameters` sends. -/
structure Outcomes.Accepts (o : Outcomes) : Prop where
  control : ∀ p, (Settings.default.controlValue p).isSome → o.parameter .control p
  rotation : ∀ i < 3, o.parameter (.output i) .rotation
  flips : ∀ i < 3, o.parameter (.output i) .mirror
  quality : o.parameter (.output 0) .jpegQFactor
  encoding : o.commitEncoding

/-- `startCapture` cannot succeed. -/
def Outcomes.Refuses (o : Outcomes) : Prop :=
  ¬ o.enableOutput ∨ ∀ k, ¬ o.parameter k .capture

/-- If `initialize` creates a camera that stays, it accepts its configuration. -/
def Configures (o : Outcomes) (st : State) : Prop :=
  ¬ st.isInitialized → o.initializes → o.parameter .control .cameraConfig

/-- Whether a capture has committed the settings since the object was set up. -/
def sentAfter (st : State) (call : Call) (sent : Bool) : Bool :=
  match call with
  | .set _ => sent
  | .initializeCam _ | .openCam _ => st.isInitialized && sent
  | .takePicture .. => st.isInitialized && (sent || st.changedSettings)
  | .release _ => false

/-- The object, beside that flag. -/
def tracked : Machine (State × Bool) Call Int32 Stop := machine.withHistory sentAfter

/-- The calls after which the object has not lost track of the device. -/
def Sound (st : State) (sent : Bool) : Call → Prop
  | .set s => st.isInitialized →
      (st.settings.apply s).width = st.settings.width ∧
        (st.settings.apply s).height = st.settings.height
  | .initializeCam o => Configures o st
  | .openCam o => Configures o st
  | .takePicture o _ _ => Configures o st ∧
      (st.isInitialized → st.changedSettings → o.Accepts) ∧
      (o.Refuses ∨ st.isInitialized ∧ (st.changedSettings ∨ sent))
  | .release _ => True

/-- What `Sound` calls keep of an initialised object: the size agrees, and where `changedSettings`
is down after a capture has committed, the rest does. Before that the encoder has no quality. -/
structure Tracks (c e p k : Nat) (st : State) (sent : Bool) : Prop where
  wired : Wired c e p k st
  size : SizeAgrees c st.settings st.dev
  rest : ¬ st.changedSettings → sent →
    CameraAgrees c st.settings st.dev ∧ EncoderAgrees e st.settings st.dev
  unsent : ¬ sent → st.dev.accepted ⟨e, .output 0⟩ .jpegQFactor = none

/-- An encoder beside a camera has no quality. -/
def Blank (st : State) : Prop :=
  ∀ c e, st.ptr.camera = some c → st.ptr.encoder = some e →
    st.dev.accepted ⟨e, .output 0⟩ .jpegQFactor = none

structure InStep (st : State) (sent : Bool) : Prop where
  tracks : st.isInitialized → ∃ c e p k, Tracks c e p k st sent
  blank : ¬ st.isInitialized → Blank st
  unsent : ¬ st.isInitialized → sent = false

variable {o : Outcomes} {st st' : State} {c e p k : Nat} {sent : Bool}

/-! ## What a commit makes of the device -/

theorem controlValue_isSome {s : Settings} {p : Param} {v : Value}
    (h : s.controlValue p = some v) : (Settings.default.controlValue p).isSome := by
  cases p <;> simp_all [Settings.controlValue]

section Commit

variable {s : Settings} {a : Accepted} {out : Option PortId} {q : PortId} {p' : Param}

theorem sendParam_apply (kind : PortKind) (v : Value) (p : Param) :
    sendParam o c kind p v a q p' =
      if o.parameter kind p ∧ q = ⟨c, kind⟩ ∧ p' = p then some v else a q p' :=
  Accepted.set_apply _ _ _ _ _ _ _

/-- The flips and the quality touch a parameter each. -/
theorem commitFlips_other (h : p' ≠ .mirror) : commitFlips o s c a q p' = a q p' := by
  unfold commitFlips
  cases o.parameter (.output 0) .mirror <;> cases o.parameter (.output 1) .mirror <;>
    simp [sendParam_apply, h]

theorem commitQuality_other (h : p' ≠ .jpegQFactor) : commitQuality o s out a q p' = a q p' := by
  unfold commitQuality
  cases out <;> simp [Accepted.set_apply, h]

/-- All of `commitParameters`, at a parameter that is neither. -/
theorem commitAll_apply (hm : p' ≠ .mirror) (hq : p' ≠ .jpegQFactor) :
    commitAll o s c out a q p' =
      (commitFixed o c <| commitRotation o s c <| commitImageEffect o s c <| commitAWB o s c <|
        commitMetering o s c <| commitExposure o s c <| commitISO o s c <| commitSaturation o s c <|
        commitBrightness o s c <| commitContrast o s c <| commitSharpness o s c a) q p' := by
  simp only [commitAll, commitFixed, commitRotation, commitImageEffect, commitAWB, commitMetering,
    commitExposure, commitISO, commitSaturation, sendParam_apply, commitFlips_other hm,
    commitQuality_other hq]

theorem commitAll_control (ha : o.Accepts) {v : Value} (h : s.controlValue p' = some v) :
    commitAll o s c out a ⟨c, .control⟩ p' = some v := by
  have hp := ha.control p' (controlValue_isSome h)
  rw [commitAll_apply (by rintro rfl; cases h) (by rintro rfl; cases h)]
  cases p' <;>
    simp_all [Settings.controlValue, commitFixed, commitRotation, commitImageEffect, commitAWB,
      commitMetering, commitExposure, commitISO, commitSaturation, commitBrightness,
      commitContrast, commitSharpness, sendParam_apply]

theorem commitAll_cameraConfig : commitAll o s c out a q .cameraConfig = a q .cameraConfig := by
  refine (commitAll_apply (by decide) (by decide)).trans ?_
  simp [commitFixed, commitRotation, commitImageEffect, commitAWB, commitMetering, commitExposure,
    commitISO, commitSaturation, commitBrightness, commitContrast, commitSharpness,
    sendParam_apply]

theorem commitAll_rotation (ha : o.Accepts) {i : Nat} (hi : i < 3) :
    commitAll o s c out a ⟨c, .output i⟩ .rotation = some (.int32 s.rotationDegrees) := by
  have h := ha.rotation i hi
  refine (commitAll_apply (by decide) (by decide)).trans ?_
  obtain rfl | rfl | rfl : i = 0 ∨ i = 1 ∨ i = 2 := by omega
  all_goals simp [commitFixed, commitRotation, sendParam_apply, h]

theorem commitAll_mirror (ha : o.Accepts) {i : Nat} (hi : i < 3) :
    commitAll o s c out a ⟨c, .output i⟩ .mirror = some (.mirror s.mirror) := by
  have h0 := ha.flips 0 (by decide)
  have h1 := ha.flips 1 (by decide)
  have h2 := ha.flips 2 (by decide)
  obtain rfl | rfl | rfl : i = 0 ∨ i = 1 ∨ i = 2 := by omega
  all_goals simp [commitAll, commitFixed, commitFlips, sendParam_apply, h0, h1, h2]

theorem commitAll_quality (ha : o.Accepts) (he : out = some ⟨e, .output 0⟩) :
    commitAll o s c out a ⟨e, .output 0⟩ .jpegQFactor = some (.uint32 s.quality) := by
  have h := ha.quality
  simp [commitAll, commitFixed, commitFlips_other, commitRotation, commitImageEffect, commitAWB,
    commitMetering, commitExposure, commitISO, commitSaturation, commitQuality, he,
    sendParam_apply, Accepted.set_apply, h]

end Commit

/-! ## Steps that keep in step -/

/-- A commit with every parameter accepted. -/
theorem commitDevice_agrees (hw : Wired c e p k st) (hch : st.changedSettings) (ha : o.Accepts) :
    CameraAgrees c st.settings (commitDevice o c st) ∧
      EncoderAgrees e st.settings (commitDevice o c st) := by
  unfold commitDevice commitEncoding
  simp only [hch, if_true, hw.output]
  constructor
  · constructor
    · exact fun p' v h => commitAll_control ha h
    · exact fun i hi => commitAll_rotation ha hi
    · exact fun i hi => commitAll_mirror ha hi
  · constructor
    · exact commitAll_quality ha rfl
    · refine ⟨{ st.dev.format ⟨e, .output 0⟩ with
        encoding := convertEncoding st.settings.encoding }, ?_, rfl⟩
      simp [Device.commitFormat, ha.encoding]

theorem commitDevice_size (hw : Wired c e p k st) (hs : SizeAgrees c st.settings st.dev) :
    SizeAgrees c st.settings (commitDevice o c st) := by
  unfold commitDevice commitEncoding
  split
  swap
  · exact hs
  simp only [hw.output]
  refine ⟨commitAll_cameraConfig.trans hs.config, ?_⟩
  obtain ⟨f, hf, hsize⟩ := hs.still
  refine ⟨f, ?_, hsize⟩
  cases o.commitEncoding <;> simp [Device.commitFormat, hf]

/-- Agreement looks at what a start of the capture leaves alone. -/
theorem CameraAgrees.congr {s : Settings} {d d' : Device} (h : CameraAgrees c s d)
    (hd : ∀ q a, a ≠ .capture → d'.accepted q a = d.accepted q a) : CameraAgrees c s d' := by
  constructor
  · intro p' v hv
    rw [hd _ _ (by rintro rfl; cases hv), h.control p' v hv]
  · intro i hi
    rw [hd _ _ (by decide), h.rotation i hi]
  · intro i hi
    rw [hd _ _ (by decide), h.flips i hi]

theorem SizeAgrees.congr {s : Settings} {d d' : Device} (h : SizeAgrees c s d)
    (hc : d'.committed = d.committed)
    (hd : ∀ q a, a ≠ .capture → d'.accepted q a = d.accepted q a) : SizeAgrees c s d' := by
  refine ⟨?_, hc ▸ h.still⟩
  rw [hd _ _ (by decide), h.config]

theorem EncoderAgrees.congr {s : Settings} {d d' : Device} (h : EncoderAgrees e s d)
    (hc : d'.committed = d.committed)
    (hd : ∀ q a, a ≠ .capture → d'.accepted q a = d.accepted q a) : EncoderAgrees e s d' := by
  refine ⟨?_, hc ▸ h.encoding⟩
  rw [hd _ _ (by decide), h.quality]

theorem Tracks.congr (h : Tracks c e p k st sent) (hp : st'.ptr = st.ptr)
    (hr : st'.res = st.res) (hs : st'.settings = st.settings)
    (hch : st'.changedSettings = st.changedSettings) (hc : st'.dev.committed = st.dev.committed)
    (hd : ∀ q a, a ≠ .capture → st'.dev.accepted q a = st.dev.accepted q a) :
    Tracks c e p k st' sent := by
  refine ⟨h.wired.congr hp hr, hs ▸ h.size.congr hc hd, fun hch' hsent => ?_, fun hsent => ?_⟩
  · obtain ⟨hcam, henc⟩ := h.rest (hch ▸ hch') hsent
    exact hs ▸ ⟨hcam.congr hd, henc.congr hc hd⟩
  · rw [hd _ _ (by decide), h.unsent hsent]

/-- Where object and device agree, they are tracked. -/
theorem Agrees.tracks (h : Agrees c e st) (hw : Wired c e p k st) : Tracks c e p k st true :=
  ⟨hw, h.size, fun _ _ => ⟨h.camera, h.encoder⟩, fun hs => absurd rfl hs⟩

theorem Tracks.agrees (h : Tracks c e p k st true) (hch : ¬ st.changedSettings) :
    Agrees c e st := by
  obtain ⟨hcam, henc⟩ := h.rest hch rfl
  exact ⟨hcam, h.size, henc⟩

/-- **A capture's start keeps the device tracked.** -/
theorem Tracks.begins (h : Tracks c e p k st sent)
    (ha : st.changedSettings → o.Accepts) (data : Nat → UInt8) (length : UInt32) :
    ∃ r d, beginCapture o data length st = .ok (r, { st with changedSettings := false, dev := d }) ∧
      Tracks c e p k { st with changedSettings := false, dev := d }
        (sent || st.changedSettings) := by
  obtain ⟨r, d, hb, -, hcommit, hacc⟩ := h.wired.beginCapture_eq (o := o) data length
  refine ⟨r, d, hb, ?_⟩
  by_cases hch : st.changedSettings
  · have hsize := (commitDevice_size (o := o) h.wired h.size).congr hcommit hacc
    obtain ⟨hcam, henc⟩ := commitDevice_agrees h.wired hch (ha hch)
    rw [hch, Bool.or_true]
    have hagrees : Agrees c e { st with changedSettings := false, dev := d } :=
      ⟨hcam.congr hacc, hsize, henc.congr hcommit hacc⟩
    exact hagrees.tracks (h.wired.congr rfl rfl)
  · have hdev : commitDevice o c st = st.dev := if_neg hch
    rw [hdev] at hcommit hacc
    rw [Bool.eq_false_iff.mpr hch, Bool.or_false]
    exact h.congr rfl rfl rfl (Bool.eq_false_iff.mpr hch).symm hcommit hacc

/-- **Of a tracked object `changedSettings` is down only in agreement exactly where it is up, or a
capture has committed.** -/
theorem InStep.flagAgrees_iff (h : InStep st sent) :
    FlagAgrees st ↔ st.changedSettings ∨ sent := by
  by_cases hch : st.changedSettings
  · exact iff_of_true (fun hdown => absurd hch hdown) (.inl hch)
  by_cases hi : st.isInitialized
  · obtain ⟨c, e, p, k, ht⟩ := h.tracks hi
    constructor
    · intro hf
      obtain ⟨c', e', -, he, ha⟩ := hf hch
      rw [ht.wired.encoder] at he
      cases he
      by_contra hsent
      have hnone := ht.unsent (not_or.mp hsent).2
      rw [ha.encoder.quality] at hnone
      cases hnone
    · rintro (hup | rfl)
      · exact absurd hup hch
      · exact fun _ => ⟨c, e, ht.wired.camera, ht.wired.encoder, ht.agrees hch⟩
  · refine iff_of_false (fun hf => ?_) (by simp [hch, h.unsent hi])
    obtain ⟨c, e, hc, he, ha⟩ := hf hch
    have hnone := h.blank hi c e hc he
    rw [ha.encoder.quality] at hnone
    cases hnone

theorem commitDevice_cameraConfig (q : PortId) :
    (commitDevice o c st).accepted q .cameraConfig = st.dev.accepted q .cameraConfig := by
  unfold commitDevice commitEncoding
  split
  · cases st.ptr.encoderOutputPort <;> exact commitAll_cameraConfig
  · rfl

/-- A new encoder has accepted nothing. -/
theorem accepted_encoderMade (a : Param) :
    (encoderMade o (cameraMade o st)).dev.accepted ⟨st.res.next + 2, .output 0⟩ a = none := by
  simp [encoderMade, encoderDevice, outputDevice, withEncoder, cameraMade, Device.setPort,
    Device.commitFormat, Device.reset]

/-- A new camera has the size. -/
theorem inStep_initialized (ho : o.initializes) (hcfg : o.parameter .control .cameraConfig) :
    InStep (initialized o st) false := by
  have hstill : o.commitStill := by
    simp only [Outcomes.initializes, Outcomes.cameraUp, Bool.and_eq_true] at ho
    exact ho.1.1.1.1.2
  refine ⟨fun _ => ⟨_, _, _, _, wired_initialized, ⟨?_, ?_⟩,
    fun _ hsent => absurd hsent Bool.false_ne_true, fun _ => ?_⟩, fun hi => absurd rfl hi, fun hi => absurd rfl hi⟩
  · simp [initialized, encoderMade, encoderDevice, outputDevice, withEncoder, cameraMade,
      cameraDevice, stillDevice, configured, withCamera, Device.setPort, Device.commitFormat,
      Device.reset, commitDevice_cameraConfig, sendParam_apply, hcfg]
  · refine ⟨⟨mmalEncodingOpaque, st.settings.width, st.settings.height⟩, ?_, rfl, rfl⟩
    cases hc : o.commitEncoder <;>
      simp [initialized, encoderMade, encoderDevice, outputDevice, withEncoder, cameraMade,
        cameraDevice, stillDevice, configured, withCamera, Device.setPort, Device.commitFormat,
        Device.reset, hstill, hc]
  · exact accepted_encoderMade .jpegQFactor

theorem InitFailed.blank (h : InitFailed o st st') : Blank st' := by
  intro c e hc he
  rcases h.camera with hnone | ⟨-, hu⟩
  · rw [hnone] at hc
    cases hc
  · rw [hu.encoder] at he
    cases he
    rw [hu.dev]
    exact accepted_encoderMade .jpegQFactor

/-! ## Captures that do not start -/

theorem commitParameters_inv (h : commitParameters o st = .ok st') :
    st'.isInitialized = st.isInitialized ∧ st'.ptr = st.ptr ∧
      (¬ st.changedSettings → st' = st) := by
  unfold commitParameters at h
  split at h
  · cases h
    exact ⟨rfl, rfl, fun _ => rfl⟩
  · rename_i hch
    cases hc : component st.ptr.camera st.res with
    | error x => simp [hc, bind, Except.bind] at h
    | ok c =>
      cases hq : outputPort? st with
      | error x => simp [hc, hq, bind, Except.bind] at h
      | ok u =>
        simp only [hc, hq, bind, Except.bind, Except.ok.injEq] at h
        rw [← h]
        exact ⟨rfl, rfl, fun hch' => absurd (by simpa using hch') hch⟩

/-- What the start of a capture does to any object: it leaves it as initialised as it was, with its
pointers, and does not succeed where it is refused. -/
structure Starts (o : Outcomes) (st st' : State) (r : Int32) : Prop where
  isInitialized : st'.isInitialized = st.isInitialized
  ptr : st'.ptr = st.ptr
  accepted : ¬ st.changedSettings →
    ∀ q a, a ≠ .capture → st'.dev.accepted q a = st.dev.accepted q a
  refused : o.Refuses → r = -1

theorem startCapture_inv {r : Int32} (h : startCapture o st = .ok (r, st')) :
    Starts o st st' r := by
  unfold startCapture at h
  cases hc : commitParameters o st with
  | error x => simp [hc, bind, Except.bind] at h
  | ok st₁ =>
    obtain ⟨hi, hptr, hsame⟩ := commitParameters_inv hc
    have hacc : ¬ st.changedSettings →
        ∀ q a, a ≠ .capture → st₁.dev.accepted q a = st.dev.accepted q a := by
      intro hch q a _
      rw [hsame hch]
    simp only [hc, bind, Except.bind] at h
    cases hq : portOf st₁.ptr.encoderOutputPort st₁.res with
    | error x => simp [hq] at h
    | ok q =>
      simp only [hq] at h
      split at h
      · cases h
        exact ⟨hi, hptr, hacc, fun _ => rfl⟩
      split at h
      · cases h
        exact ⟨hi, hptr, hacc, fun _ => rfl⟩
      rename_i hout
      cases hp : pool st₁.ptr.encoderPool st₁.res with
      | error x => simp [hp] at h
      | ok k =>
        cases hs : portOf st₁.ptr.cameraStillPort st₁.res with
        | error x => simp [hp, hs] at h
        | ok s =>
          simp only [hp, hs, Except.ok.injEq, Prod.mk.injEq] at h
          obtain ⟨hr, rfl⟩ := h
          refine ⟨hi, hptr, fun hch q' a ha => ?_, fun href => ?_⟩
          · rw [← hacc hch q' a ha]
            cases o.parameter s.kind .capture <;> simp [Accepted.set, Device.setPort, ha]
          · have hcap : ∀ k, o.parameter k .capture = false := by
              simpa using href.resolve_left (by simpa using hout)
            simpa [hcap] using hr.symm

theorem beginCapture_inv {data : Nat → UInt8} {length : UInt32} {r : Int32}
    (h : beginCapture o data length st = .ok (r, st')) : Starts o st st' r := by
  unfold beginCapture at h
  cases hq : portOf st.ptr.encoderOutputPort st.res with
  | error x => simp [hq, bind, Except.bind] at h
  | ok q =>
    simp only [hq, bind, Except.bind] at h
    have hstart := startCapture_inv h
    exact ⟨hstart.isInitialized, hstart.ptr, hstart.accepted, hstart.refused⟩

/-- Without an encoder that has been sent anything there still is none. -/
theorem InitFailed.starts {st₁ st₂ : State} {r : Int32} (h : InitFailed o st st₁)
    (hs : Starts o st₁ st₂ r) : Blank st₂ := by
  intro c e hc he
  rw [hs.ptr] at hc he
  rcases h.camera with hnone | ⟨hu, -⟩
  · rw [hnone] at hc
    cases hc
  · have hch : ¬ st₁.changedSettings := Bool.eq_false_iff.mp (h.changedSettings hu)
    rw [hs.accepted hch _ _ (by decide)]
    exact h.blank c e hc he

theorem takePictureOf_inv {data : Nat → UInt8} {length : UInt32} {x : Int32 × (Nat → UInt8) × UInt32}
    (h : takePictureOf o data length st = .ok (x, st')) :
    ∃ r₁ st₁ r₂ st₂, initializeCam o st = .ok (r₁, st₁) ∧
      beginCapture o data length st₁ = .ok (r₂, st₂) ∧
      (if r₂ ≠ 0 then st' = st₂ else endCapture o st₂ = .ok (x, st')) := by
  unfold takePictureOf at h
  cases hi : initializeCam o st with
  | error y => simp [hi, bind, Except.bind] at h
  | ok y =>
    obtain ⟨r₁, st₁⟩ := y
    simp only [hi, bind, Except.bind] at h
    cases hb : beginCapture o data length st₁ with
    | error y => simp [hb] at h
    | ok y =>
      obtain ⟨r₂, st₂⟩ := y
      refine ⟨r₁, st₁, r₂, st₂, rfl, hb, ?_⟩
      simp only [hb] at h
      split at h
      · cases h
        rw [if_pos ‹_›]
      · rw [if_neg ‹_›]
        exact h

/-! ## Runs -/

theorem InStep.initializeCam {r : Int32} (hs : InStep st sent) (hcfg : Configures o st)
    (h : initializeCam o st = .ok (r, st')) : InStep st' (st.isInitialized && sent) := by
  by_cases hi : st.isInitialized
  · cases h.symm.trans (initializeCam_again hi)
    rw [hi, Bool.true_and]
    exact hs
  · rw [Bool.eq_false_iff.mpr hi, Bool.false_and]
    rcases initializeCam_inv hi h with ⟨hall, -, rfl⟩ | ⟨-, hf⟩
    · exact inStep_initialized hall (hcfg hi hall)
    · exact ⟨fun hi' => absurd hi' hf.isInitialized, fun _ => hf.blank, fun _ => rfl⟩

/-- A capture by an initialised object. -/
theorem Tracks.captures {data : Nat → UInt8} {length : UInt32} {r : Int32} {st₂ : State}
    {x : Int32 × (Nat → UInt8) × UInt32} (h : Tracks c e p k st sent)
    (ha : st.changedSettings → o.Accepts) (h₂ : beginCapture o data length st = .ok (r, st₂))
    (hend : if r ≠ 0 then st' = st₂ else endCapture o st₂ = .ok (x, st')) :
    st'.isInitialized = st.isInitialized ∧ Tracks c e p k st' (sent || st.changedSettings) := by
  obtain ⟨r', d, hb, ht⟩ := h.begins ha data length
  cases h₂.symm.trans hb
  split at hend
  · rw [hend]
    exact ⟨rfl, ht⟩
  · rcases ht.wired.endCapture_eq (o := o) with hwait | ⟨y, d', hdone, hacc, hcom⟩
    · cases hend.symm.trans hwait
    · cases hend.symm.trans hdone
      exact ⟨rfl, ht.congr rfl rfl rfl rfl hcom (fun q a _ => by rw [hacc])⟩

theorem Sound.capturesAgree (hs : InStep st sent) {call : Call} (hsound : Sound st sent call) :
    CapturesAgree st call := by
  cases call with
  | takePicture o data length =>
    intro r st₁ st₂ h₁ h₂
    obtain ⟨-, haccepts, hstart⟩ := hsound
    rcases hstart with hrefuse | ⟨hi, hcommit⟩
    · have hr := (beginCapture_inv h₂).refused hrefuse
      exact absurd hr (by decide)
    · cases h₁.symm.trans (initializeCam_again hi)
      obtain ⟨c, e, p, k, ht⟩ := hs.tracks hi
      obtain ⟨r', d, hb, ht₂⟩ := ht.begins (haccepts hi) data length
      cases h₂.symm.trans hb
      have hsent : (sent || st.changedSettings) = true := by
        rw [Bool.or_eq_true]
        exact hcommit.symm
      rw [hsent] at ht₂
      exact ⟨c, e, ht.wired.camera, ht.wired.encoder, ht₂.agrees Bool.false_ne_true⟩
  | _ => trivial

theorem Sound.inStep {v : Int32} (hs : InStep st sent) {call : Call} (hsound : Sound st sent call)
    (he : machine.exec st call = .ok (st', v)) : InStep st' (sentAfter st call sent) := by
  cases call with
  | set s =>
    cases he
    refine ⟨fun hi => ?_, hs.blank, hs.unsent⟩
    obtain ⟨c, e, p, k, ht⟩ := hs.tracks hi
    obtain ⟨hw, hh⟩ := hsound hi
    refine ⟨c, e, p, k, ht.wired.congr rfl rfl, ⟨?_, ?_⟩, fun hch => absurd rfl hch, ht.unsent⟩
    · simpa [set, hw, hh] using ht.size.config
    · simpa [set, hw, hh] using ht.size.still
  | initializeCam o => exact hs.initializeCam hsound (exec_initializeCam_inv he)
  | openCam o =>
    obtain ⟨r, h⟩ := exec_openCam_inv he
    exact hs.initializeCam hsound h
  | takePicture o data length =>
    obtain ⟨x, ht⟩ := exec_takePicture_inv he
    obtain ⟨hcfg, haccepts, hstart⟩ := hsound
    obtain ⟨r₁, st₁, r₂, st₂, h₁, h₂, hend⟩ := takePictureOf_inv ht
    unfold sentAfter
    by_cases hi : st.isInitialized
    · cases h₁.symm.trans (initializeCam_again hi)
      obtain ⟨c, e, p, k, ht⟩ := hs.tracks hi
      obtain ⟨hsame, ht'⟩ := ht.captures (haccepts hi) h₂ hend
      have hi' : st'.isInitialized := hsame.trans hi
      rw [hi, Bool.true_and]
      exact ⟨fun _ => ⟨c, e, p, k, ht'⟩, fun h => absurd hi' h, fun h => absurd hi' h⟩
    · have hrefuse := hstart.resolve_right fun h => hi h.1
      have hstarts := beginCapture_inv h₂
      rw [if_pos (by rw [hstarts.refused hrefuse]; decide)] at hend
      subst hend
      rw [Bool.eq_false_iff.mpr hi, Bool.false_and]
      rcases initializeCam_inv hi h₁ with ⟨hall, -, rfl⟩ | ⟨-, hf⟩
      · obtain ⟨c, e, p, k, ht⟩ := (inStep_initialized hall (hcfg hi hall)).tracks rfl
        obtain ⟨r', d, hb, ht₂⟩ := ht.begins (fun h => absurd h Bool.false_ne_true) data length
        cases h₂.symm.trans hb
        exact ⟨fun _ => ⟨c, e, p, k, ht₂⟩, fun h => absurd rfl h, fun _ => rfl⟩
      · have hi₂ : ¬ st'.isInitialized := by
          rw [hstarts.isInitialized]
          exact hf.isInitialized
        exact ⟨fun h => absurd h hi₂, fun _ => hf.starts hstarts, fun _ => rfl⟩
  | release o =>
    by_cases hi : st.isInitialized
    · obtain ⟨c, e, p, k, ht⟩ := hs.tracks hi
      obtain ⟨d, h⟩ := ht.wired.release_eq (o := o) hi
      cases he.symm.trans (exec_release h)
      refine ⟨fun hi' => Bool.noConfusion hi', fun _ c e hc => ?_, fun _ => rfl⟩
      cases hc
    · cases he.symm.trans (exec_release (release_again hi))
      exact ⟨fun h => absurd h hi, hs.blank, fun _ => rfl⟩

theorem Outcomes.accepts_shot : Outcomes.shot.Accepts :=
  ⟨fun _ _ => rfl, fun _ _ => rfl, fun _ _ => rfl, rfl, rfl⟩

theorem inStep_init : InStep State.init false := ⟨nofun, fun _ _ _ => nofun, fun _ => rfl⟩

/-- **In a run whose calls are all `Sound` every capture starts with object and device in
agreement, and in every state `changedSettings` is down only in agreement exactly where it is up or
a capture has committed the settings since the object was set up.** -/
theorem steps_agree {calls : List Call}
    (h : tracked.Steps (fun x call _ => Sound x.1 x.2 call) (State.init, false) calls) :
    machine.Steps (fun st call _ => CapturesAgree st call) State.init calls ∧
      tracked.Always (fun x => FlagAgrees x.1 ↔ x.1.changedSettings ∨ x.2) (State.init, false)
        calls := by
  have hstep : ∀ x call x' v, InStep x.1 x.2 → Sound x.1 x.2 call →
      tracked.exec x call = .ok (x', v) → InStep x'.1 x'.2 := by
    rintro ⟨st, sent⟩ call x' v hs hsound he
    obtain ⟨he, hsent⟩ := Machine.withHistory_inv he
    rw [hsent]
    exact hsound.inStep hs he
  constructor
  · refine (Machine.steps_withHistory (f := sentAfter) (g := false)).mp ?_
    exact Machine.steps_of_inv (I := fun x : State × Bool => InStep x.1 x.2)
      (fun _ _ hs hsound => hsound.capturesAgree hs) hstep inStep_init h
  · exact Machine.always_mono (fun _ hs => hs.flagAgrees_iff)
      (Machine.always_of_inv hstep inStep_init h)

/-- A setter between `open` and the first capture, and a second capture with nothing to commit. -/
theorem steps_agree_shot :
    machine.Steps (fun st call _ => CapturesAgree st call) State.init
        [.openCam .succeed, .set (.quality 90), .takePicture .shot (fun _ => 0) 100,
          .takePicture .shot (fun _ => 0) 100] ∧
      tracked.Always (fun x => FlagAgrees x.1 ↔ x.1.changedSettings ∨ x.2) (State.init, false)
        [.openCam .succeed, .set (.quality 90), .takePicture .shot (fun _ => 0) 100,
          .takePicture .shot (fun _ => 0) 100] := by
  refine steps_agree ⟨fun _ _ => rfl, fun x v h => ?_⟩
  cases h
  refine ⟨fun _ => ⟨rfl, rfl⟩, fun x v h => ?_⟩
  cases h
  refine ⟨⟨fun _ _ => rfl, fun _ _ => Outcomes.accepts_shot, .inr ⟨rfl, .inl rfl⟩⟩, fun x v h => ?_⟩
  cases h
  exact ⟨⟨fun _ _ => rfl, fun _ _ => Outcomes.accepts_shot, .inr ⟨rfl, .inr rfl⟩⟩,
    fun _ _ _ => trivial⟩

/-- `open` and a capture, every call succeeding: `changedSettings` is down after the one, and the
other starts, and the quality is never sent. -/
theorem firstCapture_not_agree :
    ¬ machine.Steps (fun st call _ => CapturesAgree st call) State.init
        [.openCam .succeed, .takePicture .shot (fun _ => 0) 100] ∧
      ¬ machine.Always FlagAgrees State.init [.openCam .succeed] := by
  constructor
  · rintro ⟨-, h⟩
    obtain ⟨h, -⟩ := h (initialized .succeed State.init) 0 rfl
    obtain ⟨c, e, -, he, ha⟩ := h _ _ _ (initializeCam_again rfl) rfl
    cases he
    exact absurd ha.encoder.quality (by decide)
  · rintro ⟨-, h⟩
    obtain ⟨c, e, -, he, ha⟩ := h (initialized .succeed State.init) 0 rfl Bool.false_ne_true
    cases he
    exact absurd ha.encoder.quality (by decide)

end Camerasp.Camera
